/-
  VlanConnect/ProbeAccounting.lean
  ================================
  **What becomes of each probe.**

  `Account` says what the record of a probe tells about the calls since the
  probe was begun.  It is proved along the history of the record
  (`account_of_recordOf`), and from it that the books are right: each probe is
  settled and answered at most once, a timeout was handed over and never
  answered, and each counter of a snapshot is the number of probes of the last
  minute in its category (`probe_accounting`).
-/
import VlanConnect.ProbeRecords

namespace VlanConnect

namespace ProbeQualityTracker

/-! ### What the record says about the history -/

/-- A run in which the probe `id` was begun at `sent`, after `before`. -/
def upTo (before : List (Op Nat)) (sent : Nat) (id : UInt32) (since : List (Op Nat)) :
    List (Op Nat) :=
  before ++ .beginProbe sent id :: since

theorem upTo_snoc (before : List (Op Nat)) (sent : Nat) (id : UInt32) (since : List (Op Nat))
    (op : Op Nat) :
    upTo before sent id (since ++ [op]) = upTo before sent id since ++ [op] := by
  simp [upTo]

/-- A reply to the probe was accepted. -/
def Answered (before : List (Op Nat)) (sent : Nat) (id : UInt32) (since : List (Op Nat)) : Prop :=
  ∃ q time q', since = q ++ .reply id time :: q' ∧
    ((after (upTo before sent id q)).reply id (UInt32.ofNat time)).1 = true

/-- The probe was reported as sent. -/
def HandedOver (id : UInt32) (since : List (Op Nat)) : Prop :=
  ∃ time, .completeSend id time true ∈ since

/-- A call said that the datagram of the probe did not leave. -/
def Failed (before : List (Op Nat)) (sent : Nat) (id : UInt32) (since : List (Op Nat)) : Prop :=
  ∃ q op q', since = q ++ op :: q' ∧ Fails (after (upTo before sent id q)) id (reading op)

theorem Answered.snoc {before since : List (Op Nat)} {sent : Nat} {id : UInt32}
    (h : Answered before sent id since) (op : Op Nat) :
    Answered before sent id (since ++ [op]) := by
  obtain ⟨q, time, q', rfl, haccepted⟩ := h
  exact ⟨q, time, q' ++ [op], by rw [List.append_assoc]; rfl, haccepted⟩

theorem Failed.snoc {before since : List (Op Nat)} {sent : Nat} {id : UInt32}
    (h : Failed before sent id since) (op : Op Nat) : Failed before sent id (since ++ [op]) := by
  obtain ⟨q, op', q', rfl, hfails⟩ := h
  exact ⟨q, op', q' ++ [op], by rw [List.append_assoc]; rfl, hfails⟩

/-- What the record of a probe says about the calls since its begin. -/
structure Account (before : List (Op Nat)) (sent : Nat) (id : UInt32) (since : List (Op Nat))
    (r : ProbeRecord) :
    Prop where
  stamp : r.id = id ∧ r.sent = UInt32.ofNat sent
  enabled : (after before).enabled
  uncleared : ∀ q op q', since = q ++ op :: q' →
      (after (upTo before sent id q)).clears (reading op) = false
  unsuspended : r.state = .pending → ∀ op ∈ since, suspends (reading op) = false
  committed : r.committed → HandedOver id since
  waiting : r.state = .pending → r.committed → r.earlyReply = false
  unanswered : r.state = .pending ∧ r.earlyReply = false ∨ r.state = .timedOut →
    ∀ time, .reply id time ∈ since → sent + 10000 ≤ time
  refused : r.state = .pending ∧ r.earlyReply = false ∨ r.state = .timedOut →
    ∀ q time q', since = q ++ .reply id time :: q' →
      ((after (upTo before sent id q)).reply id (UInt32.ofNat time)).1 = false
  timedOut : r.state = .timedOut → r.committed ∧ ∃ op ∈ since, ∃ time ∈ op.time, sent + 10000 ≤ time
  early : r.earlyReply → Answered before sent id since
  replied : r.state = .replied → r.committed ∧ Answered before sent id since
  failed : r.state = .sendFailed → Failed before sent id since
  uncommitted : r.state = .pending → r.committed = false →
    ∀ time success, .completeSend id time success ∉ since

theorem Account.not_answered {before since : List (Op Nat)} {sent : Nat} {id : UInt32}
    {r : ProbeRecord} (h : Account before sent id since r)
    (hr : r.state = .pending ∧ r.earlyReply = false ∨ r.state = .timedOut) :
    ¬ Answered before sent id since := by
  rintro ⟨q, time, q', hsince, haccepted⟩
  exact absurd ((h.refused hr q time q' hsince).symm.trans haccepted) Bool.false_ne_true

theorem snoc_eq_append_cons {α : Type} {l q q' : List α} {a b : α} (h : l ++ [a] = q ++ b :: q') :
    q' = [] ∧ q = l ∧ b = a ∨ ∃ q'', q' = q'' ++ [a] ∧ l = q ++ b :: q'' := by
  rcases List.eq_nil_or_concat q' with rfl | ⟨q'', a', rfl⟩
  · obtain ⟨hl, hb⟩ := List.append_inj' h rfl
    simp only [List.cons.injEq, and_true] at hb
    exact .inl ⟨rfl, hl.symm, hb.symm⟩
  · right
    rw [List.concat_eq_append, ← List.cons_append, ← List.append_assoc] at h
    obtain ⟨hl, ha⟩ := List.append_inj' h rfl
    simp only [List.cons.injEq, and_true] at ha
    exact ⟨q'', by rw [List.concat_eq_append, ha], hl⟩

theorem reading_time {op : Op Nat} {now : UInt32} (h : (reading op).time = some now) :
    ∃ time ∈ op.time, now = UInt32.ofNat time := by
  cases op <;> simp_all [Op.map, Op.time]

theorem reading_reply {op : Op Nat} {id now : UInt32} (h : reading op = .reply id now) :
    ∃ time, op = .reply id time ∧ now = UInt32.ofNat time := by
  cases op <;> simp_all [Op.map]

theorem reading_completeSend {op : Op Nat} {id now : UInt32} {success : Bool}
    (h : reading op = .completeSend id now success) :
    ∃ time, op = .completeSend id time success ∧ now = UInt32.ofNat time := by
  cases op <;> simp_all [Op.map]

theorem recordOf_of_mem {t : ProbeQualityTracker} (hids : (t.records.map (·.id)).Nodup)
    {r : ProbeRecord} (hr : r ∈ t.records) : t.recordOf r.id = some r := by
  unfold recordOf
  generalize t.records = rs at hids hr
  induction rs with
  | nil => simp at hr
  | cons a rs ih =>
    rw [List.map_cons, List.nodup_cons] at hids
    rw [List.find?_cons]
    rcases List.mem_cons.mp hr with rfl | hr
    · rw [decide_eq_true rfl]
    · rw [decide_eq_false]
      · exact ih hids.2 hr
      · intro hid
        exact hids.1 (List.mem_map.mpr ⟨r, hr, hid.symm⟩)

theorem mem_of_recordOf {t : ProbeQualityTracker} {id : UInt32} {r : ProbeRecord}
    (h : t.recordOf id = some r) :
    r ∈ t.records ∧ r.id = id := by
  unfold recordOf at h
  refine ⟨List.mem_of_find?_eq_some h, ?_⟩
  have hid := List.find?_some h
  exact of_decide_eq_true hid

/-- A reply is accepted only for a pending record that was not answered. -/
theorem reply_accepted {t : ProbeQualityTracker} {id now : UInt32}
    (hordered : Ordered now t.records) (h : (t.reply id now).1 = true) :
    ∃ r, t.recordOf id = some r ∧ r.state = .pending ∧ t.enabled ∧ ¬ TIMEOUT_MS ≤ now - r.sent ∧
      (r.committed = false → r.earlyReply = false) := by
  unfold reply at h
  dsimp only at h
  cases hfind : (t.expire now).findPending id with
  | none =>
    rw [hfind] at h
    exact absurd h Bool.false_ne_true
  | some a =>
    obtain ⟨hid, hp⟩ := pending_of_findPending hfind
    have hmem := mem_of_findPending hfind
    rw [expire_eq_filterMap hordered] at hmem
    obtain ⟨r, hr, hage⟩ := List.mem_filterMap.mp hmem
    -- a record that is still pending after the pass is as it was before
    obtain ⟨-, ⟨rfl, -⟩ | ⟨rfl, -⟩⟩ := age_cases hage
    · exact absurd hp (by simp)
    · rw [hfind] at h
      dsimp only at h
      split at h
      · exact absurd h Bool.false_ne_true
      · rename_i hopen
        rw [Bool.or_eq_true, Bool.not_eq_true', decide_eq_true_eq, not_or, expire_enabled,
          Bool.not_eq_false] at hopen
        refine ⟨a, hid ▸ recordOf_of_mem hordered.ids hr, hp, hopen.1, hopen.2, fun hc => ?_⟩
        rw [hc, Bool.not_false, if_pos rfl] at h
        split at h
        · exact absurd h Bool.false_ne_true
        · rename_i he
          rwa [Bool.not_eq_true] at he

/-- Such a record takes the reply. -/
theorem accepts_reply {t : ProbeQualityTracker} {id now : UInt32} {r : ProbeRecord}
    (hordered : Ordered now t.records) (hr : t.recordOf id = some r) (hp : r.state = .pending)
    (henabled : t.enabled) (hyoung : ¬ TIMEOUT_MS ≤ now - r.sent)
    (hearly : r.committed = false → r.earlyReply = false) : (t.reply id now).1 = true := by
  obtain ⟨hmem, hid⟩ := mem_of_recordOf hr
  have hage : age now r = some r := by
    have hin : timesOut now r = false := decide_eq_false fun hout => hyoung hout.2.2
    have hrecent : ¬ WINDOW_MS ≤ now - r.sent :=
      fun hold => hyoung (UInt32.le_trans (by decide) hold)
    rw [age, if_neg hrecent, giveUp, hin, if_neg Bool.false_ne_true]
  have hkept : r ∈ (t.expire now).records := by
    rw [expire_eq_filterMap hordered]
    exact List.mem_filterMap.mpr ⟨r, hmem, hage⟩
  unfold reply
  dsimp only
  cases hfind : (t.expire now).findPending id with
  | none => exact absurd (isPending_iff.mpr ⟨hid, hp⟩) (List.find?_eq_none.mp hfind r hkept)
  | some a =>
    obtain ⟨haid, hap⟩ := pending_of_findPending hfind
    have hamem := mem_of_findPending hfind
    rw [expire_eq_filterMap hordered] at hamem
    obtain ⟨b, hb, hbage⟩ := List.mem_filterMap.mp hamem
    -- the record found is the one of the probe
    obtain ⟨-, ⟨rfl, -⟩ | ⟨rfl, -⟩⟩ := age_cases hbage
    · exact absurd hap (by simp)
    · have hsame := recordOf_of_mem hordered.ids hb
      rw [haid] at hsame
      obtain rfl := Option.some.inj (hr.symm.trans hsame)
      dsimp only
      rw [expire_enabled, henabled, decide_eq_false hyoung]
      cases hc : r.committed with
      | true => rfl
      | false => simp [hearly hc]

/-- The facts about a record `r` of the probe that one more call needs. -/
structure Stepping (before : List (Op Nat)) (sent : Nat) (id : UInt32) (since : List (Op Nat))
    (op : Op Nat)
    (r : ProbeRecord) : Prop where
  clocked : Clocked (upTo before sent id (since ++ [op]))
  account : Account before sent id since r
  recorded : (after (upTo before sent id since)).recordOf id = some r
  enabled : r.state = .pending → (after (upTo before sent id since)).enabled

namespace Stepping

variable {before since : List (Op Nat)} {sent : Nat} {id : UInt32} {op : Op Nat}
    {r r' : ProbeRecord}

theorem clocked_snoc (h : Stepping before sent id since op r) :
    Clocked (upTo before sent id since ++ [op]) :=
  upTo_snoc before sent id since op ▸ h.clocked

theorem le_age (h : Stepping before sent id since op r) {time : Nat} (htime : time ∈ op.time)
    (limit : UInt32) :
    limit ≤ UInt32.ofNat time - r.sent ↔ sent + limit.toNat ≤ time := by
  obtain ⟨hmem, hid⟩ := mem_of_recordOf h.recorded
  have hbegun : (r.id, sent) ∈ begun (upTo before sent id since) := by
    rw [hid]
    exact List.mem_filterMap.mpr ⟨.beginProbe sent id, by simp [upTo], rfl⟩
  obtain ⟨hle, hlt⟩ := h.clocked_snoc.bounds htime hmem hbegun
  rw [h.account.stamp.2, le_age_ofNat hle (by omega)]

/-- Earlier calls since the begin were not later. -/
theorem le_time (h : Stepping before sent id since op r) {op' : Op Nat} (hop' : op' ∈ since)
    {time time' : Nat} (htime' : time' ∈ op'.time) (htime : time ∈ op.time) : time' ≤ time := by
  have hmono := h.clocked_snoc.mono
  rw [List.filterMap_append] at hmono
  apply (List.pairwise_append.mp hmono).2.2
  · exact List.mem_filterMap.mpr ⟨op', by simp [upTo, hop'], htime'⟩
  · exact List.mem_filterMap.mpr ⟨op, List.mem_singleton.mpr rfl, htime⟩

theorem uncleared (h : Stepping before sent id since op r)
    (hclears : (after (upTo before sent id since)).clears (reading op) = false) :
    ∀ q op' q', since ++ [op] = q ++ op' :: q' →
      (after (upTo before sent id q)).clears (reading op') = false := by
  intro q op' q' hq
  rcases snoc_eq_append_cons hq with ⟨-, rfl, rfl⟩ | ⟨q'', -, hsince⟩
  · exact hclears
  · exact h.account.uncleared q op' q'' hsince

/-- A pending record that is still unanswered after the call: the call was no
    reply in time, and no earlier one was. -/
theorem unanswered (h : Stepping before sent id since op r)
    (hr : r.state = .pending ∧ r.earlyReply = false ∨ r.state = .timedOut)
    (hop : ∀ time, op = .reply id time → sent + 10000 ≤ time) :
    ∀ time, .reply id time ∈ since ++ [op] → sent + 10000 ≤ time := by
  intro time hmem
  rcases List.mem_append.mp hmem with hmem | hmem
  · exact h.account.unanswered hr time hmem
  · exact hop time (List.mem_singleton.mp hmem).symm

theorem refused (h : Stepping before sent id since op r)
    (hr : r.state = .pending ∧ r.earlyReply = false ∨ r.state = .timedOut)
    (hop : ∀ time, op = .reply id time →
      ((after (upTo before sent id since)).reply id (UInt32.ofNat time)).1 = false) :
    ∀ q time q', since ++ [op] = q ++ .reply id time :: q' →
      ((after (upTo before sent id q)).reply id (UInt32.ofNat time)).1 = false := by
  intro q time q' hq
  rcases snoc_eq_append_cons hq with ⟨-, rfl, hop'⟩ | ⟨q'', -, hsince⟩
  · exact hop time hop'.symm
  · exact h.account.refused hr q time q'' hsince

theorem committed (h : Stepping before sent id since op r) (hc : r.committed) :
    HandedOver id (since ++ [op]) := by
  obtain ⟨time, htime⟩ := h.account.committed hc
  exact ⟨time, List.mem_append_left _ htime⟩

theorem timedOut (h : Stepping before sent id since op r) (hr : r.state = .timedOut) :
    r.committed ∧ ∃ op' ∈ since ++ [op], ∃ time ∈ op'.time, sent + 10000 ≤ time := by
  obtain ⟨hc, op', hop', htime⟩ := h.account.timedOut hr
  exact ⟨hc, op', List.mem_append_left _ hop', htime⟩

theorem early (h : Stepping before sent id since op r) (he : r.earlyReply) :
    Answered before sent id (since ++ [op]) :=
  (h.account.early he).snoc op

theorem replied (h : Stepping before sent id since op r) (hr : r.state = .replied) :
    r.committed ∧ Answered before sent id (since ++ [op]) :=
  ⟨(h.account.replied hr).1, (h.account.replied hr).2.snoc op⟩

theorem failed (h : Stepping before sent id since op r) (hr : r.state = .sendFailed) :
    Failed before sent id (since ++ [op]) :=
  (h.account.failed hr).snoc op

theorem uncommitted (h : Stepping before sent id since op r) (hp : r.state = .pending)
    (hc : r.committed = false) (hop : ∀ time success, op ≠ .completeSend id time success) :
    ∀ time success, .completeSend id time success ∉ since ++ [op] := by
  intro time success hmem
  rcases List.mem_append.mp hmem with hmem | hmem
  · exact h.account.uncommitted hp hc time success hmem
  · exact hop time success (List.mem_singleton.mp hmem).symm

theorem answers {time : Nat} (h : Stepping before sent id since (.reply id time) r)
    (hp : r.state = .pending) (hyoung : ¬ TIMEOUT_MS ≤ UInt32.ofNat time - r.sent)
    (hearly : r.committed = false → r.earlyReply = false) :
    Answered before sent id (since ++ [.reply id time]) := by
  refine ⟨since, time, [], rfl, ?_⟩
  exact accepts_reply (h.clocked_snoc.ordered_after _ rfl) h.recorded hp
    (h.enabled hp) hyoung hearly

theorem settled_refused (h : Stepping before sent id since op r) (hr : r.state ≠ .pending)
    {time : Nat} (hop : op = .reply id time) :
    ((after (upTo before sent id since)).reply id (UInt32.ofNat time)).1 = false := by
  subst hop
  rw [← Bool.not_eq_true]
  intro haccepted
  obtain ⟨a, ha, hp, -⟩ := reply_accepted (h.clocked_snoc.ordered_after _ rfl) haccepted
  obtain rfl := Option.some.inj (h.recorded.symm.trans ha)
  exact hr hp

theorem late_refused (h : Stepping before sent id since op r) {time : Nat}
    (hop : op = .reply id time) (hold : TIMEOUT_MS ≤ UInt32.ofNat time - r.sent) :
    ((after (upTo before sent id since)).reply id (UInt32.ofNat time)).1 = false := by
  subst hop
  rw [← Bool.not_eq_true]
  intro haccepted
  obtain ⟨a, ha, -, -, hyoung, -⟩ := reply_accepted (h.clocked_snoc.ordered_after _ rfl) haccepted
  obtain rfl := Option.some.inj (h.recorded.symm.trans ha)
  exact hyoung hold

/-- No record is both answered by the call and left unanswered by it. -/
theorem reply_refused (h : Stepping before sent id since op r) (hp : r.state = .pending)
    (hreply : ∀ now, reading op = .reply r.id now → r.state = .pending →
      (after (upTo before sent id since)).enabled = false ∨ TIMEOUT_MS ≤ now - r.sent ∨
        r.committed = false ∧ r.earlyReply = true) (he : r.earlyReply = false) :
    ∀ time, op = .reply id time → sent + 10000 ≤ time ∧
      ((after (upTo before sent id since)).reply id (UInt32.ofNat time)).1 = false := by
  rintro time rfl
  obtain ⟨-, hid⟩ := mem_of_recordOf h.recorded
  have hold : TIMEOUT_MS ≤ UInt32.ofNat time - r.sent := by
    rcases hreply (UInt32.ofNat time) (by rw [hid]; rfl) hp with hdisabled | hold | hearly
    · exact absurd ((h.enabled hp).symm.trans hdisabled) (by decide)
    · exact hold
    · exact absurd (he.symm.trans hearly.2) (by decide)
  exact ⟨(h.le_age rfl TIMEOUT_MS).mp hold, h.late_refused rfl hold⟩

/-- **One call in the history of a probe.** -/
theorem call (h : Stepping before sent id since op r)
    (hfate : Fate (after (upTo before sent id since)) (reading op) r r')
    (hclears : (after (upTo before sent id since)).clears (reading op) = false) :
    Account before sent id (since ++ [op]) r' := by
  have hstamp : r'.id = id ∧ r'.sent = UInt32.ofNat sent :=
    ⟨hfate.stamp.1.trans h.account.stamp.1, hfate.stamp.2.trans h.account.stamp.2⟩
  have huncleared := h.uncleared hclears
  -- a call other than the one that suspends
  have hunsuspended : suspends (reading op) = false → r.state = .pending →
      ∀ op' ∈ since ++ [op], suspends (reading op') = false := by
    intro hs hp op' hop'
    rcases List.mem_append.mp hop' with hop' | hop'
    · exact h.account.unsuspended hp op' hop'
    · obtain rfl := List.mem_singleton.mp hop'
      exact hs
  obtain ⟨hmem, hid⟩ := mem_of_recordOf h.recorded
  cases hfate with
  | kept hsuspends hreply hcomplete =>
    refine
      { stamp := hstamp, enabled := h.account.enabled, uncleared := huncleared,
        unsuspended := fun hp => hunsuspended ?_ hp, committed := h.committed,
        waiting := h.account.waiting, unanswered := fun hr => h.unanswered hr ?_,
        refused := fun hr => h.refused hr ?_, timedOut := h.timedOut, early := h.early,
        replied := h.replied, failed := h.failed,
        uncommitted := fun hp hc => h.uncommitted hp hc ?_ }
    · rw [← Bool.not_eq_true]
      exact fun hs => hsuspends hs hp
    · intro time hop
      rcases hr with ⟨hp, he⟩ | hr
      · exact (h.reply_refused hp hreply he time hop).1
      · -- the clock was past the deadline already
        obtain ⟨-, op', hop', time', htime', hle⟩ := h.account.timedOut hr
        exact Nat.le_trans hle (h.le_time hop' htime' (by rw [hop]; rfl))
    · intro time hop
      rcases hr with ⟨hp, he⟩ | hr
      · exact (h.reply_refused hp hreply he time hop).2
      · exact h.settled_refused (by rw [hr]; decide) hop
    · rintro time success rfl
      have hnone := hcomplete (UInt32.ofNat time) success (by rw [hid]; rfl) hp
      exact absurd (isPending_iff.mpr ⟨rfl, hp⟩) (List.find?_eq_none.mp hnone r hmem)
  | lost now htime hp hc hold =>
    obtain ⟨time, hreal, rfl⟩ := reading_time htime
    have hdue := (h.le_age hreal TIMEOUT_MS).mp hold
    have hwaiting : r.state = .pending ∧ r.earlyReply = false ∨ r.state = .timedOut :=
      .inl ⟨hp, h.account.waiting hp hc⟩
    have hlate : ∀ time', op = .reply id time' → sent + 10000 ≤ time' ∧
        TIMEOUT_MS ≤ UInt32.ofNat time' - r.sent := by
      rintro time' rfl
      obtain rfl : time' = time := by simpa [Op.time] using hreal
      exact ⟨hdue, hold⟩
    refine
      { stamp := hstamp, enabled := h.account.enabled, uncleared := huncleared,
        unsuspended := by simp,
        committed := h.committed, waiting := by simp,
        unanswered := fun _ => h.unanswered hwaiting fun time' hop => (hlate time' hop).1,
        refused := fun _ => h.refused hwaiting fun time' hop =>
          h.late_refused hop (hlate time' hop).2,
        timedOut := fun _ => ⟨hc, op, by simp, time, hreal, hdue⟩, early := h.early,
        replied := by simp, failed := by simp, uncommitted := by simp }
  | committed now hop hp he =>
    obtain ⟨time, rfl, rfl⟩ := reading_completeSend hop
    exact
      { stamp := hstamp, enabled := h.account.enabled, uncleared := huncleared,
        unsuspended := fun _ => hunsuspended rfl hp,
        committed := fun _ => ⟨time, by simp [h.account.stamp.1]⟩, waiting := fun _ _ => he,
        unanswered := fun _ => h.unanswered (.inl ⟨hp, he⟩) (by simp),
        refused := fun _ => h.refused (.inl ⟨hp, he⟩) (by simp),
        timedOut := fun hr => absurd (hp.symm.trans hr) (by decide), early := h.early,
        replied := fun hr => absurd (hp.symm.trans hr) (by decide),
        failed := fun hr => absurd (hp.symm.trans hr) (by decide), uncommitted := by simp }
  | committedLost now hop hp he hold =>
    obtain ⟨time, rfl, rfl⟩ := reading_completeSend hop
    refine
      { stamp := hstamp, enabled := h.account.enabled, uncleared := huncleared,
        unsuspended := by simp,
        committed := fun _ => ⟨time, by simp [h.account.stamp.1]⟩, waiting := by simp,
        unanswered := fun _ => h.unanswered (.inl ⟨hp, he⟩) (by simp),
        refused := fun _ => h.refused (.inl ⟨hp, he⟩) (by simp),
        timedOut := fun _ =>
          ⟨rfl, _, List.mem_append_right _ (List.mem_singleton.mpr rfl), time, rfl, ?_⟩,
        early := h.early, replied := by simp, failed := by simp, uncommitted := by simp }
    exact (h.le_age rfl TIMEOUT_MS).mp hold
  | committedReplied now hop hp he =>
    obtain ⟨time, rfl, rfl⟩ := reading_completeSend hop
    exact
      { stamp := hstamp, enabled := h.account.enabled, uncleared := huncleared,
        unsuspended := by simp, committed := fun _ => ⟨time, by simp [h.account.stamp.1]⟩,
        waiting := by simp, unanswered := by simp, refused := by simp, timedOut := by simp,
        early := h.early, replied := fun _ => ⟨rfl, h.early he⟩, failed := by simp,
        uncommitted := by simp }
  | failed hfails hp =>
    exact
      { stamp := hstamp, enabled := h.account.enabled, uncleared := huncleared,
        unsuspended := by simp, committed := h.committed, waiting := by simp, unanswered := by simp,
        refused := by simp, timedOut := by simp, early := by simp, replied := by simp,
        failed := fun _ => ⟨since, op, [], rfl, hid ▸ hfails⟩, uncommitted := by simp }
  | early now hop hp hc he hage =>
    obtain ⟨time, rfl, rfl⟩ := reading_reply hop
    subst hid
    refine
      { stamp := hstamp, enabled := h.account.enabled, uncleared := huncleared,
        unsuspended := fun _ => hunsuspended rfl hp, committed := h.committed,
        waiting := fun _ hc' => absurd (hc.symm.trans hc') (by decide), unanswered := fun hr => ?_,
        refused := fun hr => ?_, timedOut := fun hr => absurd (hp.symm.trans hr) (by decide),
        early := fun _ => ?_, replied := fun hr => absurd (hp.symm.trans hr) (by decide),
        failed := fun hr => absurd (hp.symm.trans hr) (by decide),
        uncommitted := fun _ _ => h.uncommitted hp hc (by simp) }
    · rcases hr with ⟨-, he'⟩ | hr
      · exact absurd he'.symm Bool.false_ne_true
      · exact absurd (hp.symm.trans hr) (by decide)
    · rcases hr with ⟨-, he'⟩ | hr
      · exact absurd he'.symm Bool.false_ne_true
      · exact absurd (hp.symm.trans hr) (by decide)
    · exact h.answers hp hage fun _ => he
  | replied now hop hp hc hage =>
    obtain ⟨time, rfl, rfl⟩ := reading_reply hop
    subst hid
    refine
      { stamp := hstamp, enabled := h.account.enabled, uncleared := huncleared,
        unsuspended := by simp, committed := h.committed, waiting := by simp, unanswered := by simp,
        refused := by simp, timedOut := by simp, early := h.early, replied := fun _ => ⟨hc, ?_⟩,
        failed := by simp, uncommitted := by simp }
    exact h.answers hp hage fun hc' => absurd (hc.symm.trans hc') (by decide)

end Stepping

/-! ### Whole histories -/

theorem suspends_time {op : Op UInt32} (h : suspends op = true) : op.time = none := by
  cases op <;> first | rfl | exact absurd h Bool.false_ne_true

/-- A call that suspends the path leaves no pending record. -/
theorem Fate.not_pending {t : ProbeQualityTracker} {op : Op UInt32} {r r' : ProbeRecord}
    (h : Fate t op r r') (hs : suspends op = true) : r.state ≠ .pending := by
  have htime := suspends_time hs
  cases h with
  | kept hsuspends => exact hsuspends hs
  | lost now htime' => exact absurd (htime.symm.trans htime') (by simp)
  | failed hfails =>
    rcases hfails with ⟨now, success, rfl, -⟩ | ⟨now, rfl⟩
    · exact absurd htime (by simp [Op.time])
    · exact absurd htime (by simp [Op.time])
  | committed now hop | committedLost now hop | committedReplied now hop | early now hop
  | replied now hop =>
    rw [hop] at htime
    exact absurd htime (by simp [Op.time])

theorem Fate.not_suspends {t : ProbeQualityTracker} {op : Op UInt32} {r r' : ProbeRecord}
    (h : Fate t op r r') (hr' : r'.state = .pending) : suspends op = false := by
  rw [← Bool.not_eq_true]
  exact fun hs => h.not_pending hs (h.pending hr')

theorem call_enabled {t : ProbeQualityTracker} {op : Op UInt32} (h : t.enabled)
    (hop : suspends op = false) :
    (t.call op).2.enabled = true := by
  cases op with
  | setPath kind =>
    change (t.setPath kind).enabled = true
    unfold setPath
    rw [if_neg (of_decide_eq_false hop)]
  | reset => exact h
  | suspend => exact absurd hop (by decide)
  | beginProbe now id =>
    change (t.beginProbe now id).2.enabled = true
    unfold beginProbe
    dsimp only
    split
    · rename_i henabled
      exact henabled
    · rename_i hdisabled
      exact absurd ((expire_enabled t now).trans h) hdisabled
  | completeSend id now success =>
    change (t.completeSend id now success).enabled = true
    unfold completeSend
    split
    · exact h
    · dsimp only
      split
      · exact h
      · rw [expire_enabled]
        exact (commit_flags _).1.trans h
  | reportTransportSend now success =>
    have hexpired := (expire_enabled t now).trans h
    change (t.reportTransportSend now success).enabled = true
    unfold reportTransportSend
    dsimp only
    split
    · split <;> exact hexpired
    · exact hexpired
  | reply id now =>
    have hexpired := (expire_enabled t now).trans h
    change (t.reply id now).2.enabled = true
    unfold reply
    dsimp only
    split
    · exact hexpired
    · split
      · exact hexpired
      · split
        · split <;> exact hexpired
        · exact countRecovery_flags.1.trans hexpired
  | snapshot now => exact (expire_enabled t now).trans h
  | latencyMs now => exact h

/-- Only a path that is enabled has pending probes. -/
theorem after_enabled {ops : List (Op Nat)} (h : Clocked ops) :
    ∀ r ∈ (after ops).records, r.state = .pending → (after ops).enabled := by
  induction ops using List.reverseRecOn with
  | nil => exact nofun
  | append_singleton ops op ih =>
    intro r' hr' hp'
    rw [after_snoc] at hr' ⊢
    rw [call_records h.ordered_after] at hr'
    rcases List.mem_append.mp hr' with hr' | hr'
    · obtain ⟨r, hr, hnext⟩ := List.mem_filterMap.mp hr'
      have hfate := (next_fate hnext).1
      exact call_enabled (ih h.init r hr (hfate.pending hp')) (hfate.not_suspends hp')
    · cases op with
      | beginProbe now id =>
        simp only [Op.map, fresh] at hr'
        split at hr'
        · rename_i henabled
          exact call_enabled henabled rfl
        · simp at hr'
      | _ => simp [Op.map, fresh] at hr'

variable {before since : List (Op Nat)} {sent : Nat} {id : UInt32}

theorem Clocked.not_begin {op : Op Nat} (h : Clocked (upTo before sent id (since ++ [op]))) :
    ∀ sent', op ≠ .beginProbe sent' id := by
  rintro sent' rfl
  have hids := h.ids
  rw [upTo_snoc, begun_snoc, List.map_append, List.nodup_append] at hids
  refine hids.2.2 id ?_ id (by simp [begins]) rfl
  exact List.mem_map.mpr ⟨(id, sent),
    List.mem_filterMap.mpr ⟨.beginProbe sent id, by simp [upTo], rfl⟩, rfl⟩

/-- The step of a probe's history that a call makes. -/
theorem recordOf_step {op : Op Nat} (h : Clocked (upTo before sent id (since ++ [op]))) :
    recordOf (after (upTo before sent id (since ++ [op]))) id =
      (recordOf (after (upTo before sent id since)) id).bind
        ((after (upTo before sent id since)).next (reading op)) := by
  have hsnoc := h
  rw [upTo_snoc] at hsnoc ⊢
  exact recordOf_call hsnoc h.not_begin

/-- **The books are right** about every probe that is still on record. -/
theorem account_of_recordOf (h : Clocked (upTo before sent id since)) {r : ProbeRecord}
    (hr : recordOf (after (upTo before sent id since)) id = some r) :
    Account before sent id since r := by
  induction since using List.reverseRecOn generalizing r with
  | nil =>
    rw [upTo] at h hr
    rw [recordOf_begin h] at hr
    split at hr
    · rename_i henabled
      obtain rfl := Option.some.inj hr
      exact
        { stamp := ⟨rfl, rfl⟩, enabled := henabled, uncleared := by simp, unsuspended := by simp,
          committed := nofun, waiting := nofun, unanswered := by simp, refused := by simp,
          timedOut := nofun, early := nofun, replied := nofun, failed := nofun,
          uncommitted := by simp }
    · exact absurd hr (by simp)
  | append_singleton since op ih =>
    rw [recordOf_step h] at hr
    obtain ⟨a, ha, hnext⟩ := Option.bind_eq_some_iff.mp hr
    have hinit : Clocked (upTo before sent id since) := by
      rw [upTo_snoc] at h
      exact h.init
    obtain ⟨hfate, hclears⟩ := next_fate hnext
    have hstepping : Stepping before sent id since op a :=
      { clocked := h, account := ih hinit ha, recorded := ha
        enabled := after_enabled hinit a (mem_of_recordOf ha).1 }
    exact hstepping.call hfate hclears

/-- Why a call drops a record. -/
theorem next_none {t : ProbeQualityTracker} {op : Op UInt32} {r : ProbeRecord}
    (h : t.next op r = none) :
    t.clears op = true ∨ suspends op = true ∧ r.state = .pending ∨
      ∃ now, op.time = some now ∧ WINDOW_MS ≤ now - r.sent := by
  have hage : ∀ {now : UInt32} {a : ProbeRecord}, a.sent = r.sent → age now a = none →
      WINDOW_MS ≤ now - r.sent := by
    intro now a ha hnone
    unfold age at hnone
    split at hnone
    · rename_i hold
      rwa [ha] at hold
    · exact absurd hnone (by simp)
  have hsettled : settledOnly r = none → r.state = .pending := by
    intro hnone
    unfold settledOnly at hnone
    split at hnone
    · assumption
    · exact absurd hnone (by simp)
  cases op with
  | setPath kind =>
    change (if kind = 0 then settledOnly else if t.pathKind ≠ kind then fun _ => none else some) r =
      none at h
    split at h
    · rename_i hzero
      exact .inr (.inl ⟨decide_eq_true hzero, hsettled h⟩)
    · rename_i hkind
      split at h
      · rename_i hother
        exact .inl (decide_eq_true ⟨hkind, hother⟩)
      · exact absurd h (by simp)
  | reset => exact .inl rfl
  | suspend => exact .inr (.inl ⟨rfl, hsettled h⟩)
  | beginProbe now id => exact .inr (.inr ⟨now, rfl, hage rfl h⟩)
  | completeSend id now success =>
    change (if (t.findPending id).isNone then some
      else if !success || t.transportSendFailure then fun r =>
        some (if isPending id r then refuse r else r)
      else fun r => age now (if isPending id r then handOver r else r)) r = none at h
    split at h
    · exact absurd h (by simp)
    · split at h
      · exact absurd h (by simp)
      · refine .inr (.inr ⟨now, rfl, hage ?_ h⟩)
        split
        · exact handOver_sent r
        · rfl
  | reportTransportSend now success =>
    exact .inr (.inr ⟨now, rfl, hage rfl (Option.map_eq_none_iff.mp h)⟩)
  | reply id now => exact .inr (.inr ⟨now, rfl, hage rfl (Option.map_eq_none_iff.mp h)⟩)
  | snapshot now => exact .inr (.inr ⟨now, rfl, hage rfl h⟩)
  | latencyMs now => exact absurd h (by simp [next])

/-- A call that takes the probe out of the books: it resets the tracker, or it
    suspends the path while the probe is pending. -/
def Discards (t : ProbeQualityTracker) (id : UInt32) (op : Op UInt32) : Prop :=
  t.clears op = true ∨ suspends op = true ∧ ∃ r ∈ t.records, r.id = id ∧ r.state = .pending

/-- The probe was begun on an enabled path and never taken out of the books. -/
def Kept (before : List (Op Nat)) (sent : Nat) (id : UInt32) (since : List (Op Nat)) : Prop :=
  (after before).enabled ∧
    ∀ q op q', since = q ++ op :: q' → ¬ Discards (after (upTo before sent id q)) id (reading op)

theorem Kept.init {op : Op Nat} (h : Kept before sent id (since ++ [op])) :
    Kept before sent id since := by
  refine ⟨h.1, fun q op' q' hq => h.2 q op' (q' ++ [op]) ?_⟩
  rw [hq, List.append_assoc]
  rfl

theorem Clocked.init_upTo {op : Op Nat} (h : Clocked (upTo before sent id (since ++ [op]))) :
    Clocked (upTo before sent id since) := by
  rw [upTo_snoc] at h
  exact h.init

theorem Clocked.stepping {op : Op Nat} (h : Clocked (upTo before sent id (since ++ [op])))
    {r : ProbeRecord} (hr : recordOf (after (upTo before sent id since)) id = some r) :
    Stepping before sent id since op r where
  clocked := h
  account := account_of_recordOf h.init_upTo hr
  recorded := hr
  enabled := after_enabled h.init_upTo r (mem_of_recordOf hr).1

/-- A probe on record was kept. -/
theorem kept_of_recordOf (h : Clocked (upTo before sent id since)) {r : ProbeRecord}
    (hr : recordOf (after (upTo before sent id since)) id = some r) :
    Kept before sent id since := by
  refine ⟨(account_of_recordOf h hr).enabled, ?_⟩
  induction since using List.reverseRecOn generalizing r with
  | nil => simp
  | append_singleton since op ih =>
    have huncleared := (account_of_recordOf h hr).uncleared
    rw [recordOf_step h] at hr
    obtain ⟨a, ha, hnext⟩ := Option.bind_eq_some_iff.mp hr
    intro q op' q' hq
    rcases snoc_eq_append_cons hq with ⟨-, rfl, rfl⟩ | ⟨q'', -, hsince⟩
    · rintro (hclears | ⟨hsuspends, b, hb, hid, hp⟩)
      · exact absurd ((huncleared q op' _ hq).symm.trans hclears) (by decide)
      · -- the record of the probe is the only one with its id
        have hb' := recordOf_of_mem ((after_recorded h.init_upTo).ids h.init_upTo.ids) hb
        rw [hid] at hb'
        obtain rfl := Option.some.inj (ha.symm.trans hb')
        exact (next_fate hnext).1.not_pending hsuspends hp
    · exact ih h.init_upTo ha q op' q'' hsince

/-- A probe that was kept is on record until the window has passed. -/
theorem old_of_kept (h : Clocked (upTo before sent id since))
    (hr : recordOf (after (upTo before sent id since)) id = none)
    (hkept : Kept before sent id since) :
    ∃ op ∈ since, ∃ time ∈ op.time, sent + 60000 ≤ time := by
  induction since using List.reverseRecOn with
  | nil =>
    rw [upTo] at h hr
    rw [recordOf_begin h, if_pos hkept.1] at hr
    exact absurd hr (by simp)
  | append_singleton since op ih =>
    rw [recordOf_step h] at hr
    cases ha : recordOf (after (upTo before sent id since)) id with
    | none =>
      obtain ⟨op', hop', htime⟩ := ih h.init_upTo ha hkept.init
      exact ⟨op', List.mem_append_left _ hop', htime⟩
    | some a =>
      rw [ha, Option.bind_some] at hr
      have hlast := hkept.2 since op [] rfl
      rcases next_none hr with hclears | ⟨hsuspends, hp⟩ | ⟨now, htime, hold⟩
      · exact absurd (.inl hclears) hlast
      · exact absurd (.inr ⟨hsuspends, a, (mem_of_recordOf ha).1, (mem_of_recordOf ha).2, hp⟩) hlast
      · obtain ⟨time, hreal, rfl⟩ := reading_time htime
        exact ⟨op, by simp, time, hreal, ((h.stepping ha).le_age hreal WINDOW_MS).mp hold⟩

/-- A settled probe stays as it was settled, and a probe that is gone stays
    away. -/
theorem recordOf_settled {q q' : List (Op Nat)} (h : Clocked (upTo before sent id (q ++ q')))
    {r' : ProbeRecord} (hr' : recordOf (after (upTo before sent id (q ++ q'))) id = some r') :
    ∃ r, recordOf (after (upTo before sent id q)) id = some r ∧
    (r.state ≠ .pending → r'.state = r.state) := by
  induction q' using List.reverseRecOn generalizing r' with
  | nil =>
    rw [List.append_nil] at hr'
    exact ⟨r', hr', fun _ => rfl⟩
  | append_singleton q' op ih =>
    rw [← List.append_assoc] at h hr'
    rw [recordOf_step h] at hr'
    obtain ⟨a, ha, hnext⟩ := Option.bind_eq_some_iff.mp hr'
    obtain ⟨r, hr, hstate⟩ := ih h.init_upTo ha
    refine ⟨r, hr, fun hp => ?_⟩
    have ha' := hstate hp
    exact ((next_fate hnext).1.settled (ha' ▸ hp)).trans ha'

/-! ### Round trips -/

/-- The round trip is unknown or less than the timeout. -/
def ShortTrip (rtt : Int) : Prop := rtt = -1 ∨ 0 ≤ rtt ∧ rtt ≤ 9999

theorem shortTrip_roundTripMs {time sent' : UInt32} (h : ¬ TIMEOUT_MS ≤ time - sent') :
    ShortTrip (roundTripMs time sent') := by
  right
  unfold roundTripMs
  generalize time - sent' = x at h ⊢
  have hlt : x.toNat < 10000 := by
    rw [UInt32.le_iff_toNat_le] at h
    exact Nat.lt_of_not_le h
  rw [WrapClock.toInt32_of_lt (by omega)]
  omega

theorem countRecovery_rtt (t : ProbeQualityTracker) : t.countRecovery.rtt = t.rtt := by
  unfold countRecovery
  split
  · split <;> rfl
  · rfl

/-- The replies on record came in time, and so did the last. -/
structure ShortTrips (t : ProbeQualityTracker) : Prop where
  early : ∀ r ∈ t.records, r.earlyReply → ¬ TIMEOUT_MS ≤ r.replyAt - r.sent
  rtt : ShortTrip t.rtt

theorem Fate.shortEarly {t : ProbeQualityTracker} {op : Op UInt32} {r r' : ProbeRecord}
    (h : Fate t op r r') (hr : r.earlyReply → ¬ TIMEOUT_MS ≤ r.replyAt - r.sent) :
    r'.earlyReply → ¬ TIMEOUT_MS ≤ r'.replyAt - r'.sent := by
  cases h with
  | early now hop hp hc he hage => exact fun _ => hage
  | failed => exact nofun
  | _ => exact hr

theorem acceptReply_rtt (t : ProbeQualityTracker) (id : UInt32) (w : ProbeRecord) (time : UInt32) :
    (t.acceptReply id w time).rtt = roundTripMs time w.sent :=
  countRecovery_rtt _

theorem ShortTrips.commit {t : ProbeQualityTracker} (h : ShortTrips t) {id : UInt32}
    {r : ProbeRecord} (hr : r ∈ t.records) (failed : Bool) :
    ShortTrip (t.commit id failed r).rtt := by
  unfold ProbeQualityTracker.commit
  dsimp only
  split
  · rename_i hearly
    rw [acceptReply_rtt]
    exact shortTrip_roundTripMs (h.early r hr hearly)
  · rw [refer_eq]
    exact h.rtt

theorem ShortTrips.call_rtt {t : ProbeQualityTracker} (h : ShortTrips t) (op : Op UInt32) :
    ShortTrip (t.call op).2.rtt := by
  have hexpire : ∀ now, ShortTrip (t.expire now).rtt := fun now => expire_rtt t now ▸ h.rtt
  cases op with
  | setPath kind =>
    change ShortTrip (t.setPath kind).rtt
    unfold setPath
    split
    · exact h.rtt
    · dsimp only
      split
      · exact .inl rfl
      · exact h.rtt
  | reset => exact .inl rfl
  | suspend => exact h.rtt
  | beginProbe now id =>
    change ShortTrip (t.beginProbe now id).2.rtt
    unfold beginProbe
    dsimp only
    split <;> exact hexpire now
  | completeSend id now success =>
    change ShortTrip (t.completeSend id now success).rtt
    unfold completeSend
    split
    · exact h.rtt
    · rename_i r hfind
      dsimp only
      split
      · exact h.rtt
      · have hqueue : ShortTrips { t with queueSendFailure := !success } := ⟨h.early, h.rtt⟩
        rw [expire_rtt]
        exact hqueue.commit (mem_of_findPending hfind) _
  | reportTransportSend now success =>
    change ShortTrip (t.reportTransportSend now success).rtt
    unfold reportTransportSend
    dsimp only
    split
    · split <;> exact hexpire now
    · exact hexpire now
  | reply id now =>
    change ShortTrip (t.reply id now).2.rtt
    unfold reply
    dsimp only
    split
    · exact hexpire now
    · split
      · exact hexpire now
      · rename_i hopen
        rw [Bool.or_eq_true, not_or, decide_eq_true_eq] at hopen
        split
        · split <;> exact hexpire now
        · rw [acceptReply_rtt]
          exact shortTrip_roundTripMs hopen.2
  | snapshot now => exact hexpire now
  | latencyMs now => exact h.rtt

theorem after_shortTrips {ops : List (Op Nat)} (h : Clocked ops) : ShortTrips (after ops) := by
  induction ops using List.reverseRecOn with
  | nil =>
    refine ⟨?_, .inl rfl⟩
    intro r hr
    simp [after] at hr
  | append_singleton ops op ih =>
    have hbefore := ih h.init
    rw [after_snoc]
    refine ⟨?_, hbefore.call_rtt _⟩
    rw [call_records h.ordered_after]
    intro r' hr'
    rcases List.mem_append.mp hr' with hr' | hr'
    · obtain ⟨r, hr, hnext⟩ := List.mem_filterMap.mp hr'
      exact (next_fate hnext).1.shortEarly (hbefore.early r hr)
    · cases op with
      | beginProbe now id =>
        simp only [Op.map, fresh] at hr'
        split at hr'
        · obtain rfl := List.mem_singleton.mp hr'
          intro he
          cases he
        · simp at hr'
      | _ => simp [Op.map, fresh] at hr'

/-! ### The books -/

/-- The records of the probe `id`. -/
def recordsOf (ops : List (Op Nat)) (id : UInt32) : List ProbeRecord :=
  (after ops).records.filter fun r => decide (r.id = id)

/-- What the run `upTo before sent id since` does with the probe. -/
structure ProbeAccounted (before : List (Op Nat)) (sent : Nat) (id : UInt32)
    (since : List (Op Nat)) : Prop where
  /-- A probe that has left `pending` never changes its state again. -/
  settles : ∀ q q', since = q ++ q' → ∀ r ∈ recordsOf (upTo before sent id q) id,
    r.state ≠ .pending →
    ∀ r' ∈ recordsOf (upTo before sent id since) id, r'.state = r.state
  /-- A probe that is no longer on record does not come back. -/
  leaves : ∀ q q', since = q ++ q' → recordsOf (upTo before sent id q) id = [] →
    recordsOf (upTo before sent id since) id = []
  /-- A reply is accepted once, in time, for a probe begun on an enabled path
      that was neither suspended nor reset since. -/
  replies : ∀ q time q', since = q ++ .reply id time :: q' →
    ((after (upTo before sent id q)).reply id (UInt32.ofNat time)).1 = true →
    (after before).enabled ∧ time < sent + 10000 ∧
      (∀ p op p', q = p ++ op :: p' →
        suspends (reading op) = false ∧
        (after (upTo before sent id p)).clears (reading op) = false) ∧
      ∀ p time' p', q = p ++ .reply id time' :: p' →
        ((after (upTo before sent id p)).reply id (UInt32.ofNat time')).1 = false
  /-- A probe counted as a timeout was handed over and not answered in time. -/
  timeouts : ∀ r ∈ recordsOf (upTo before sent id since) id, r.state = .timedOut →
    (∃ time, .completeSend id time true ∈ since) ∧ ∀ time, .reply id time ∈ since →
    sent + 10000 ≤ time

/-- The category of a probe in a snapshot at `now`, by the calls since its begin. -/
structure Categorised (before : List (Op Nat)) (sent : Nat) (id : UInt32)
    (since : List (Op Nat)) (now : Nat)
    (r : ProbeRecord) : Prop where
  replied : r.state = .replied → HandedOver id since ∧ Answered before sent id since
  timedOut : r.state = .timedOut → HandedOver id since ∧ ¬ Answered before sent id since ∧
    sent + 10000 ≤ now ∧ ∀ time, .reply id time ∈ since → sent + 10000 ≤ time
  sendFailed : r.state = .sendFailed → Failed before sent id since
  pending : r.state = .pending → r.committed →
    HandedOver id since ∧ ¬ Answered before sent id since ∧ now < sent + 10000
  uncommitted : r.state = .pending → r.committed = false →
    ∀ time success, .completeSend id time success ∉ since

/-- Each counter is the number of the records in its category. -/
structure Counts (counters : ProbeQualitySnapshot) (records : List ProbeRecord) : Prop where
  replies : counters.replies = (records.filter fun r => decide (r.state = .replied)).length
  timeouts : counters.timeouts = (records.filter fun r => decide (r.state = .timedOut)).length
  sendFailures : counters.sendFailures =
      (records.filter fun r => decide (r.state = .sendFailed)).length
  pending : counters.pending =
    (records.filter fun r => decide (r.state = .pending ∧ r.committed = true)).length

/-- What a snapshot at `now` after the run `ops` counts. -/
structure SnapshotAccounted (ops : List (Op Nat)) (now : Nat) : Prop where
  rtt : ShortTrip ((after ops).snapshot (UInt32.ofNat now)).1.rttMs
  /-- Each record belongs to one probe. -/
  distinct : (((after ops).snapshot (UInt32.ofNat now)).2.records.map (·.id)).Nodup
  /-- The records are those of the probes of the last minute that were kept. -/
  retained : ∀ id, (∃ r ∈ ((after ops).snapshot (UInt32.ofNat now)).2.records, r.id = id) ↔
    ∃ before sent since, ops = upTo before sent id since ∧ now < sent + 60000 ∧
    Kept before sent id since
  counters : Counts ((after ops).snapshot (UInt32.ofNat now)).1
    ((after ops).snapshot (UInt32.ofNat now)).2.records
  /-- The category on record is the one that the calls put the probe in. -/
  categories : ∀ r ∈ ((after ops).snapshot (UInt32.ofNat now)).2.records, ∀ before sent since,
    ops = upTo before sent r.id since → Categorised before sent r.id since now r
  /-- Each record is counted once, except those pending and not committed. -/
  counted :
    ((after ops).snapshot (UInt32.ofNat now)).1.replies +
    ((after ops).snapshot (UInt32.ofNat now)).1.timeouts +
        ((after ops).snapshot (UInt32.ofNat now)).1.sendFailures +
        ((after ops).snapshot (UInt32.ofNat now)).1.pending +
        (((after ops).snapshot (UInt32.ofNat now)).2.records.countP fun r =>
          decide (r.state = .pending ∧ r.committed = false)) =
      ((after ops).snapshot (UInt32.ofNat now)).2.records.length

theorem counts_snapshot (t : ProbeQualityTracker) (now : UInt32) :
    Counts (t.snapshot now).1 (t.snapshot now).2.records :=
  ⟨List.countP_eq_length_filter, List.countP_eq_length_filter, List.countP_eq_length_filter,
    List.countP_eq_length_filter⟩

/-- A snapshot gives up the probes that are due, and no others. -/
theorem Stepping.categorised {now : Nat} {a r : ProbeRecord}
    (h : Stepping before sent id since (.snapshot now) a)
    (hage : age (UInt32.ofNat now) a = some r) : Categorised before sent id since now r := by
  obtain ⟨-, ⟨rfl, hp, hc, hold⟩ | ⟨rfl, hin⟩⟩ := age_cases hage
  · have hwaiting : a.state = .pending ∧ a.earlyReply = false ∨ a.state = .timedOut :=
      .inl ⟨hp, h.account.waiting hp hc⟩
    exact
      { replied := by simp
        timedOut := fun _ => ⟨h.account.committed hc, h.account.not_answered hwaiting,
          (h.le_age rfl TIMEOUT_MS).mp hold, h.account.unanswered hwaiting⟩
        sendFailed := by simp
        pending := by simp
        uncommitted := by simp }
  · refine
      { replied := fun hr => ?_, timedOut := fun hr => ?_, sendFailed := h.account.failed
        pending := fun hp hc => ?_, uncommitted := h.account.uncommitted }
    · obtain ⟨hc, hanswered⟩ := h.account.replied hr
      exact ⟨h.account.committed hc, hanswered⟩
    · obtain ⟨hc, op, hop, time, htime, hle⟩ := h.account.timedOut hr
      exact ⟨h.account.committed hc, h.account.not_answered (.inr hr),
        Nat.le_trans hle (h.le_time hop htime rfl), h.account.unanswered (.inr hr)⟩
    · have hyoung : ¬ TIMEOUT_MS ≤ UInt32.ofNat now - r.sent := by
        intro hold
        rw [timesOut, decide_eq_false_iff_not] at hin
        exact hin ⟨hp, hc, hold⟩
      rw [h.le_age rfl TIMEOUT_MS] at hyoung
      exact ⟨h.account.committed hc, h.account.not_answered (.inl ⟨hp, h.account.waiting hp hc⟩),
        Nat.lt_of_not_le hyoung⟩

theorem mem_recordsOf {ops : List (Op Nat)} (h : Clocked ops) {id : UInt32} {r : ProbeRecord} :
    r ∈ recordsOf ops id ↔ recordOf (after ops) id = some r := by
  unfold recordsOf
  rw [List.mem_filter, decide_eq_true_eq]
  constructor
  · rintro ⟨hr, rfl⟩
    exact recordOf_of_mem ((after_recorded h).ids h.ids) hr
  · exact mem_of_recordOf

theorem Clocked.of_append {ops more : List (Op Nat)} (h : Clocked (ops ++ more)) : Clocked ops := by
  induction more using List.reverseRecOn with
  | nil => rwa [List.append_nil] at h
  | append_singleton more op ih =>
    rw [← List.append_assoc] at h
    exact ih h.init

theorem upTo_append (before : List (Op Nat)) (sent : Nat) (id : UInt32) (q q' : List (Op Nat)) :
    upTo before sent id (q ++ q') = upTo before sent id q ++ q' := by
  simp [upTo]

theorem probeAccounted (h : Clocked (upTo before sent id since)) :
    ProbeAccounted before sent id since := by
  have hupTo : ∀ {q q'}, since = q ++ q' → Clocked (upTo before sent id q) := by
    rintro q q' rfl
    rw [upTo_append] at h
    exact h.of_append
  refine { settles := ?_, leaves := ?_, replies := ?_, timeouts := ?_ }
  · intro q q' hsince r hr hp r' hr'
    rw [mem_recordsOf (hupTo hsince)] at hr
    rw [mem_recordsOf h] at hr'
    subst hsince
    obtain ⟨a, ha, hstate⟩ := recordOf_settled h hr'
    obtain rfl := Option.some.inj (hr.symm.trans ha)
    exact hstate hp
  · intro q q' hsince hnone
    rw [List.eq_nil_iff_forall_not_mem] at hnone ⊢
    intro r' hr'
    rw [mem_recordsOf h] at hr'
    subst hsince
    obtain ⟨a, ha, -⟩ := recordOf_settled h hr'
    exact hnone a ((mem_recordsOf (hupTo rfl)).mpr ha)
  · intro q time q' hsince haccepted
    have hsplit : since = (q ++ [.reply id time]) ++ q' := by
      rw [hsince, List.append_assoc]
      rfl
    have hclocked : Clocked (upTo before sent id (q ++ [.reply id time])) := hupTo hsplit
    have hsnoc := hclocked
    rw [upTo_snoc] at hsnoc
    obtain ⟨r, hr, hp, -, hyoung, hearly⟩ := reply_accepted (hsnoc.ordered_after _ rfl) haccepted
    have hstepping := hclocked.stepping hr
    have haccount := hstepping.account
    have he : r.earlyReply = false := by
      cases hc : r.committed with
      | true => exact haccount.waiting hp hc
      | false => exact hearly hc
    refine ⟨haccount.enabled, ?_, fun p op p' hq => ⟨?_, haccount.uncleared p op p' hq⟩,
      haccount.refused (.inl ⟨hp, he⟩)⟩
    · rw [hstepping.le_age rfl TIMEOUT_MS] at hyoung
      exact Nat.lt_of_not_le hyoung
    · exact haccount.unsuspended hp op (by simp [hq])
  · intro r hr hstate
    rw [mem_recordsOf h] at hr
    have haccount := account_of_recordOf h hr
    exact ⟨haccount.committed (haccount.timedOut hstate).1, haccount.unanswered (.inr hstate)⟩

theorem length_by_state (rs : List ProbeRecord) :
    rs.countP (fun r => decide (r.state = .replied)) + rs.countP
    (fun r => decide (r.state = .timedOut)) +
        rs.countP (fun r => decide (r.state = .sendFailed)) +
        rs.countP (fun r => decide (r.state = .pending ∧ r.committed)) +
        rs.countP (fun r => decide (r.state = .pending ∧ r.committed = false)) = rs.length := by
  induction rs with
  | nil => rfl
  | cons r rs ih =>
    simp only [List.countP_cons, List.length_cons]
    have hone :
      (if decide (r.state = .replied) then 1 else 0) + (if decide (r.state = .timedOut) then 1
        else 0) +
        (if decide (r.state = .sendFailed) then 1
          else 0) + (if decide (r.state = .pending ∧ r.committed) then 1 else 0) +
        (if decide (r.state = .pending ∧ r.committed = false) then 1 else 0) = 1 := by
      cases r.state <;> cases r.committed <;> rfl
    omega

theorem exists_upTo {ops : List (Op Nat)} {id : UInt32} {sent : Nat} (h : (id, sent) ∈ begun ops) :
    ∃ before since, ops = upTo before sent id since :=
  List.append_of_mem (mem_begun h)

theorem snapshotAccounted {ops : List (Op Nat)} {now : Nat} (h : Clocked (ops ++ [.snapshot now])) :
    SnapshotAccounted ops now := by
  have hrecords : ((after ops).snapshot (UInt32.ofNat now)).2 = after (ops ++ [.snapshot now]) := by
    rw [after_snoc]
    rfl
  have hbegun : begun (ops ++ [.snapshot now]) = begun ops := by
    rw [begun_snoc]
    exact List.append_nil _
  refine
    { rtt := ?_, distinct := ?_, retained := ?_, counters := counts_snapshot _ _, categories := ?_
      counted := length_by_state _ }
  · change ShortTrip (((after ops).expire (UInt32.ofNat now)).latencyMs (UInt32.ofNat now))
    unfold latencyMs
    split
    · exact .inl rfl
    · rw [expire_rtt]
      exact (after_shortTrips h.init).rtt
  · rw [hrecords]
    exact (after_recorded h).ids h.ids
  · intro id
    rw [hrecords]
    constructor
    · rintro ⟨r, hr, rfl⟩
      obtain ⟨sent, hmem, -⟩ := (after_recorded h).exists_begun hr
      rw [hbegun] at hmem
      obtain ⟨before, since, rfl⟩ := exists_upTo hmem
      have hrecordOf := recordOf_of_mem ((after_recorded h).ids h.ids) hr
      rw [← upTo_snoc] at h hrecordOf
      refine ⟨before, sent, since, rfl, ?_, (kept_of_recordOf h hrecordOf).init⟩
      rw [recordOf_step h] at hrecordOf
      obtain ⟨a, ha, hage⟩ := Option.bind_eq_some_iff.mp hrecordOf
      have hyoung := (age_cases hage).1
      rw [(h.stepping ha).le_age rfl WINDOW_MS] at hyoung
      exact Nat.lt_of_not_le hyoung
    · rintro ⟨before, sent, since, rfl, hyoung, hkept⟩
      cases hrecordOf : recordOf (after (upTo before sent id since ++ [.snapshot now])) id with
      | some r => exact ⟨r, mem_of_recordOf hrecordOf⟩
      | none =>
        have hkept' : Kept before sent id (since ++ [.snapshot now]) := by
          refine ⟨hkept.1, fun q op q' hq => ?_⟩
          rcases snoc_eq_append_cons hq with ⟨-, rfl, rfl⟩ | ⟨q'', -, hsince⟩
          · rintro (hclears | ⟨hsuspends, -⟩)
            · exact absurd hclears Bool.false_ne_true
            · exact absurd hsuspends Bool.false_ne_true
          · exact hkept.2 q op q'' hsince
        have hmono := h.mono
        rw [← upTo_snoc] at h hrecordOf
        obtain ⟨op, hop, time, htime, hold⟩ := old_of_kept h hrecordOf hkept'
        -- no call of the run was made after the snapshot
        have hle : time ≤ now := by
          rcases List.mem_append.mp hop with hop | hop
          · rw [List.filterMap_append] at hmono
            apply (List.pairwise_append.mp hmono).2.2
            · exact List.mem_filterMap.mpr ⟨op, by simp [upTo, hop], htime⟩
            · exact List.mem_filterMap.mpr ⟨.snapshot now, List.mem_singleton.mpr rfl, rfl⟩
          · obtain rfl := List.mem_singleton.mp hop
            exact Nat.le_of_eq (Option.some.inj htime).symm
        omega
  · rintro r hr before sent since rfl
    rw [hrecords] at hr
    have hrecordOf := recordOf_of_mem ((after_recorded h).ids h.ids) hr
    rw [← upTo_snoc] at h hrecordOf
    rw [recordOf_step h] at hrecordOf
    obtain ⟨a, ha, hage⟩ := Option.bind_eq_some_iff.mp hrecordOf
    exact (h.stepping ha).categorised hage

/-- **Probe accounting.**  In every run with distinct ids and a clock that does
    not go back, each probe is settled at most once and answered at most once,
    in time; a timeout was handed over and not answered; and every snapshot
    counts the probes of the last minute that were kept, each once and in the
    category that its calls put it in. -/
theorem probe_accounting (ops : List (Op Nat)) (h : Clocked ops) :
    (∀ before sent id since, ops = upTo before sent id since →
      ProbeAccounted before sent id since) ∧
      ∀ pre now post, ops = pre ++ .snapshot now :: post → SnapshotAccounted pre now := by
  constructor
  · rintro before sent id since rfl
    exact probeAccounted h
  · rintro pre now post rfl
    apply snapshotAccounted
    rw [List.append_cons] at h
    exact h.of_append

/-- A probe that is answered, one that is lost, one that does not leave and one
    that is on its way. -/
def fourProbes : List (Op Nat) :=
  [.setPath 1, .beginProbe 0 7, .completeSend 7 0 true, .reply 7 20, .beginProbe 1000 8,
    .completeSend 8 1000 true, .beginProbe 2000 9, .completeSend 9 2000 false, .beginProbe 3000 10,
    .completeSend 10 3000 true]

theorem probe_accounting_fourProbes :
    Clocked (fourProbes ++ [.snapshot 11000]) ∧
    (let counters := ((after fourProbes).snapshot 11000).1
     (counters.replies, counters.timeouts, counters.sendFailures, counters.pending) =
     (1, 1, 1, 1)) ∧
    SnapshotAccounted fourProbes 11000 := by
  have hclocked : Clocked (fourProbes ++ [.snapshot 11000]) := by
    refine ⟨by decide, by decide, ?_⟩
    intro pre op post hsplit now hnow r _ sent _
    have hmem : op ∈ pre ++ op :: post := by simp
    have hlast : ∀ op' ∈ fourProbes ++ [.snapshot 11000], ∀ time ∈ op'.time, time ≤ 11000 := by
      decide
    have hle := hlast op (hsplit ▸ hmem) now hnow
    omega
  exact ⟨hclocked, by decide, (probe_accounting _ hclocked).2 _ _ [] rfl⟩

end ProbeQualityTracker

end VlanConnect

/-
  VlanConnect/ProbeRecords.lean
  =============================
  **The records of the probes, one by one.**

  The clock of these runs is an ordinary one that does not go back; the tracker
  gets its readings modulo `2 ^ 32`.  As long as no probe is kept for `2 ^ 31`
  milliseconds, one call treats every record by itself (`call_records`): it
  drops it, leaves it alone or settles it, as `next` says.  The history of a
  probe is therefore the iteration of `next` on its record (`recordOf_call`).
-/
import VlanConnect.ProbeHysteresis

namespace VlanConnect

namespace ProbeQualityTracker

/-! ### One record in one call -/

/-- What a pass of `expire` leaves of a record. -/
def age (now : UInt32) (r : ProbeRecord) : Option ProbeRecord :=
  if WINDOW_MS ≤ now - r.sent then none else some (giveUp now r)

/-- What `suspend` leaves of a record. -/
def settledOnly (r : ProbeRecord) : Option ProbeRecord :=
  if r.state = .pending then none else some r

/-- What `reply` does to the record it finds. -/
def replyTo (t : ProbeQualityTracker) (now : UInt32) (r : ProbeRecord) : ProbeRecord :=
  if !t.enabled || decide (TIMEOUT_MS ≤ now - r.sent) then r
  else if !r.committed then if r.earlyReply then r
    else { r with earlyReply := true, replyAt := now }
  else { r with state := .replied }

/-- What a failed hand-over does to the record. -/
def refuse (r : ProbeRecord) : ProbeRecord := { r with state := .sendFailed, earlyReply := false }

/-- What handing a probe over does to its record. -/
def handOver (r : ProbeRecord) : ProbeRecord :=
  if r.earlyReply then { r with committed := true, state := .replied }
    else { r with committed := true }

/-- What the call leaves of a record of `t`. -/
def next (t : ProbeQualityTracker) : Op UInt32 → ProbeRecord → Option ProbeRecord
  | .setPath kind => if kind = 0 then settledOnly else if t.pathKind ≠ kind then fun _ =>
    none else some
  | .reset => fun _ => none
  | .suspend => settledOnly
  | .beginProbe now _ | .snapshot now => age now
  | .completeSend id now success =>
    if (t.findPending id).isNone then some
    else if !success || t.transportSendFailure then fun r =>
      some (if isPending id r then refuse r else r)
    else fun r => age now (if isPending id r then handOver r else r)
  | .reportTransportSend now success => fun r => (age now r).map fun r =>
    if success then r else cancel r
  | .reply id now => fun r => (age now r).map fun r => if isPending id r then t.replyTo now r else r
  | .latencyMs _ => some

/-- The record of a probe that the call begins. -/
def fresh (t : ProbeQualityTracker) : Op UInt32 → List ProbeRecord
  | .beginProbe now id => if t.enabled then [{ id := id, sent := now }] else []
  | _ => []

/-- Older records come first, and no two have the same id. -/
structure Ordered (now : UInt32) (rs : List ProbeRecord) : Prop where
  ages : rs.Pairwise fun a b => WINDOW_MS ≤ now - b.sent → WINDOW_MS ≤ now - a.sent
  ids : (rs.map (·.id)).Nodup

theorem dropWhile_eq_filter {α : Type} {p : α → Bool} {l : List α}
    (h : l.Pairwise fun a b => p b → p a) :
    l.dropWhile p = l.filter fun a => !p a := by
  induction l with
  | nil => rfl
  | cons a l ih =>
    obtain ⟨hhead, htail⟩ := List.pairwise_cons.mp h
    rw [List.dropWhile_cons, List.filter_cons]
    cases hp : p a with
    | true => simpa using ih htail
    | false =>
      have hall : l.filter (fun b => !p b) = l := by
        rw [List.filter_eq_self]
        intro b hb
        have hne : ¬ p b = true := fun hpb => absurd ((hhead b hb hpb).symm.trans hp) (by decide)
        simpa using hne
      simp [hall]

theorem giveUp_sent (now : UInt32) (r : ProbeRecord) : (giveUp now r).sent = r.sent :=
  (leaves_giveUp now r).sent

theorem filterMap_age (now : UInt32) (rs : List ProbeRecord) :
    rs.filterMap (age now) = (rs.map (giveUp now)).filter fun r =>
      !decide (WINDOW_MS ≤ now - r.sent) := by
  induction rs with
  | nil => rfl
  | cons r rs ih =>
    rw [List.map_cons, List.filter_cons, giveUp_sent]
    by_cases hold : WINDOW_MS ≤ now - r.sent
    · have hage : age now r = none := if_pos hold
      rw [List.filterMap_cons_none hage, ih, decide_eq_true hold]
      rfl
    · have hage : age now r = some (giveUp now r) := if_neg hold
      rw [List.filterMap_cons_some hage, ih, decide_eq_false hold]
      rfl

/-- A pass on ordered records treats each by itself. -/
theorem expire_eq_filterMap {t : ProbeQualityTracker} {now : UInt32} (h : Ordered now t.records) :
    (t.expire now).records = t.records.filterMap (age now) := by
  rw [expire_records, filterMap_age]
  apply dropWhile_eq_filter
  rw [List.pairwise_map]
  simpa [giveUp_sent] using h.ages

/-- Only one record can be found. -/
theorem writePending_eq_map {id : UInt32} {r : ProbeRecord} {rs : List ProbeRecord}
    (hids : (rs.map (·.id)).Nodup) (hfind : rs.find? (isPending id) = some r)
    (f : ProbeRecord → ProbeRecord) :
    writePending id (f r) rs = rs.map fun a => if isPending id a then f a else a := by
  induction rs with
  | nil => rfl
  | cons a rs ih =>
    rw [List.map_cons, List.nodup_cons] at hids
    rw [List.find?_cons] at hfind
    unfold writePending
    split at hfind
    · rename_i hp
      obtain rfl := Option.some.inj hfind
      have hrest : rs.map (fun b => if isPending id b then f b else b) = rs := by
        conv_rhs => rw [← List.map_id rs]
        apply List.map_congr_left
        intro b hb
        refine if_neg fun hb' => ?_
        rw [isPending, decide_eq_true_eq] at hp hb'
        exact hids.1 (List.mem_map.mpr ⟨b, hb, hb'.1.trans hp.1.symm⟩)
      rw [if_pos hp, List.map_cons, if_pos hp, hrest]
    · rename_i hp
      rw [if_neg (by simp [hp]), List.map_cons, if_neg (by simp [hp]), ih hids.2 hfind]

section Records

variable {t : ProbeQualityTracker} {now id : UInt32}

theorem settledOnly_filterMap (rs : List ProbeRecord) :
    rs.filterMap settledOnly = rs.filter fun r => decide (r.state ≠ .pending) := by
  rw [← List.filterMap_eq_filter]
  apply List.filterMap_congr
  intro r _
  by_cases hp : r.state = .pending
  · simp [settledOnly, hp, Option.guard]
  · simp [settledOnly, hp, Option.guard]

theorem countRecovery_records : t.countRecovery.records = t.records := countRecovery_flags.2.2.2.2.1

/-- Writing to the record found, when no two have the same id. -/
theorem store_records {r : ProbeRecord} (hids : (t.records.map (·.id)).Nodup)
    (hfind : t.findPending id = some r) (f : ProbeRecord → ProbeRecord) :
    (t.store id (f r)).records = t.records.map fun a => if isPending id a then f a else a :=
  writePending_eq_map hids hfind f

theorem commit_records {r : ProbeRecord} (hids : (t.records.map (·.id)).Nodup)
    (hfind : t.findPending id = some r) (failed : Bool) :
    (t.commit id failed r).records = t.records.map fun a => if isPending id a then handOver a
    else a := by
  rw [← store_records hids hfind handOver]
  unfold commit
  dsimp only
  rw [refer_eq]
  unfold handOver
  split
  · exact countRecovery_records
  · rfl

theorem ordered_map {rs : List ProbeRecord} (h : Ordered now rs) {f : ProbeRecord → ProbeRecord}
    (hid : ∀ r, (f r).id = r.id) (hsent : ∀ r, (f r).sent = r.sent) : Ordered now (rs.map f) where
  ages := by
    rw [List.pairwise_map]
    simpa [hsent] using h.ages
  ids := by
    rw [List.map_map]
    simpa [Function.comp_def, hid] using h.ids

theorem handOver_id (r : ProbeRecord) : (handOver r).id = r.id := by
  unfold handOver
  split <;> rfl

theorem handOver_sent (r : ProbeRecord) : (handOver r).sent = r.sent := by
  unfold handOver
  split <;> rfl

/-- What `completeSend` does to each record. -/
theorem completeSend_records (h : Ordered now t.records) (id : UInt32) (success : Bool) :
    (t.completeSend id now success).records =
    t.records.filterMap (t.next (.completeSend id now success)) := by
  have hnext : t.next (.completeSend id now success) =
      if (t.findPending id).isNone then some
      else if !success || t.transportSendFailure then fun r =>
        some (if isPending id r then refuse r else r)
      else fun r => age now (if isPending id r then handOver r else r) := rfl
  rw [hnext]
  unfold completeSend
  cases hfind : t.findPending id with
  | none => simp
  | some r =>
    dsimp only
    rw [Option.isNone_some, if_neg Bool.false_ne_true]
    split
    · exact (store_records h.ids hfind refuse).trans
        (congrFun List.filterMap_eq_map' t.records).symm
    · have hcommit := commit_records (t := { t with queueSendFailure := !success }) h.ids hfind
        (t.queueSendFailure || t.transportSendFailure)
      rw [expire_eq_filterMap, hcommit, List.filterMap_map]
      · rfl
      · rw [hcommit]
        apply ordered_map h
        · intro a
          split
          · exact handOver_id a
          · rfl
        · intro a
          split
          · exact handOver_sent a
          · rfl

theorem sublist_filterMap {α : Type} {g : ProbeRecord → α} {f : ProbeRecord → Option ProbeRecord}
    (hf : ∀ r r', f r = some r' → g r' = g r) (rs : List ProbeRecord) :
    ((rs.filterMap f).map g).Sublist (rs.map g) := by
  induction rs with
  | nil => exact List.Sublist.refl _
  | cons r rs ih =>
    cases hr : f r with
    | none =>
      rw [List.filterMap_cons_none hr]
      exact ih.cons _
    | some r' =>
      rw [List.filterMap_cons_some hr, List.map_cons, List.map_cons, hf r r' hr]
      exact ih.cons_cons _

theorem age_eq {r r' : ProbeRecord} (h : age now r = some r') : r' = giveUp now r := by
  unfold age at h
  split at h
  · exact absurd h (by simp)
  · exact (Option.some.inj h).symm

/-- What `reply` does to each record. -/
theorem reply_records (h : Ordered now t.records) (id : UInt32) :
    (t.reply id now).2.records = t.records.filterMap (t.next (.reply id now)) := by
  have hexpired := expire_eq_filterMap h
  have hids : ((t.expire now).records.map (·.id)).Nodup := by
    rw [hexpired]
    refine List.Nodup.sublist (sublist_filterMap ?_ t.records) h.ids
    intro r r' hr
    rw [age_eq hr]
    unfold giveUp
    split <;> rfl
  have hnone : ∀ a ∈ (t.expire now).records, (t.expire now).findPending id = none →
      isPending id a = false := by
    intro a ha hfind
    have hne := List.find?_eq_none.mp hfind a ha
    rwa [Bool.not_eq_true] at hne
  have hreplied : t.records.filterMap (t.next (.reply id now)) =
      (t.expire now).records.map fun r => if isPending id r then t.replyTo now r else r := by
    rw [hexpired, List.map_filterMap]
    rfl
  rw [hreplied]
  unfold reply
  dsimp only
  cases hfind : (t.expire now).findPending id with
  | none =>
    refine (List.map_id' (t.expire now).records).symm.trans (List.map_congr_left fun a ha => ?_)
    rw [hnone a ha hfind, if_neg Bool.false_ne_true]
  | some r =>
    rw [← store_records hids hfind (t.replyTo now)]
    have hself : ((t.expire now).store id r).records = (t.expire now).records := by
      refine (store_records hids hfind fun a => a).trans ?_
      simp
    unfold replyTo
    dsimp only
    rw [expire_enabled]
    split
    · exact hself.symm
    · split
      · split
        · exact hself.symm
        · rfl
      · exact countRecovery_records

end Records

/-- **One call, record by record.** -/
theorem call_records {t : ProbeQualityTracker} {op : Op UInt32}
    (h : ∀ now ∈ op.time, Ordered now t.records) :
    (t.call op).2.records = t.records.filterMap (t.next op) ++ t.fresh op := by
  cases op with
  | setPath kind =>
    change (t.setPath kind).records = t.records.filterMap
      (if kind = 0 then settledOnly else if t.pathKind ≠ kind then fun _ => none else some) ++ []
    unfold setPath
    rw [List.append_nil]
    split
    · rw [settledOnly_filterMap]
      rfl
    · dsimp only
      split
      · simp [reset]
      · simp
  | reset => simp [call, reset, next, fresh]
  | suspend =>
    change t.suspend.records = t.records.filterMap settledOnly ++ []
    rw [settledOnly_filterMap, List.append_nil]
    rfl
  | beginProbe now id =>
    change (t.beginProbe now id).2.records = t.records.filterMap (age now) ++
      t.fresh (.beginProbe now id)
    rw [← expire_eq_filterMap (h now rfl)]
    unfold beginProbe fresh
    dsimp only
    rw [expire_enabled]
    split
    · rfl
    · rw [List.append_nil]
  | completeSend id now success =>
    exact (completeSend_records (h now rfl) id success).trans (List.append_nil _).symm
  | reportTransportSend now success =>
    change (t.reportTransportSend now success).records =
      t.records.filterMap (t.next (.reportTransportSend now success)) ++ []
    have hpass : t.records.filterMap (t.next (.reportTransportSend now success)) =
        (t.expire now).records.map fun r => if success then r else cancel r := by
      rw [expire_eq_filterMap (h now rfl), List.map_filterMap]
      rfl
    rw [hpass, List.append_nil]
    unfold reportTransportSend
    dsimp only
    cases success with
    | true =>
      rw [if_pos rfl]
      simp only [if_true, List.map_id']
      split <;> rfl
    | false => rfl
  | reply id now => exact (reply_records (h now rfl) id).trans (List.append_nil _).symm
  | snapshot now => exact (expire_eq_filterMap (h now rfl)).trans (List.append_nil _).symm
  | latencyMs now => simp [call, next, fresh]

/-! ### Runs by an ordinary clock -/

def after (ops : List (Op Nat)) : ProbeQualityTracker :=
  ops.foldl (fun t op => (t.call (reading op)).2) {}

@[simp] theorem after_snoc (ops : List (Op Nat)) (op : Op Nat) :
    after (ops ++ [op]) = ((after ops).call (reading op)).2 := by
  simp [after]

/-- The probes that a call begins: the id and the time. -/
def begins : Op Nat → Option (UInt32 × Nat)
  | .beginProbe now id => some (id, now)
  | _ => none

/-- The probes begun in a run. -/
def begun (ops : List (Op Nat)) : List (UInt32 × Nat) := ops.filterMap begins

/-- The ids of the probes differ, the clock does not go back, and no probe is
    still kept `2 ^ 31` milliseconds after it was sent. -/
structure Clocked (ops : List (Op Nat)) : Prop where
  ids : ((begun ops).map Prod.fst).Nodup
  mono : (ops.filterMap Op.time).Pairwise (· ≤ ·)
  retained : ∀ pre op post, ops = pre ++ op :: post → ∀ now ∈ op.time, ∀ r ∈ (after pre).records,
    ∀ sent, (r.id, sent) ∈ begun pre → now < sent + 2 ^ 31

theorem Clocked.init {ops : List (Op Nat)} {op : Op Nat} (h : Clocked (ops ++ [op])) :
    Clocked ops where
  ids := by
    have hids := h.ids
    rw [begun, List.filterMap_append, List.map_append] at hids
    exact (List.nodup_append.mp hids).1
  mono := by
    have hmono := h.mono
    rw [List.filterMap_append] at hmono
    exact (List.pairwise_append.mp hmono).1
  retained := by
    intro pre op' post hpre
    exact h.retained pre op' (post ++ [op]) (by rw [hpre, List.append_assoc]; rfl)

theorem begun_snoc (ops : List (Op Nat)) (op : Op Nat) :
    begun (ops ++ [op]) = begun ops ++ (begins op).toList := by
  unfold begun
  rw [List.filterMap_append]
  cases hop : begins op with
  | none => simp [hop]
  | some p => simp [hop]

theorem time_of_begins {op : Op Nat} {id : UInt32} {sent : Nat} (h : begins op = some (id, sent)) :
    op = .beginProbe sent id := by
  cases op with
  | beginProbe now id' =>
    simp only [begins, Option.some.injEq, Prod.mk.injEq] at h
    rw [h.1, h.2]
  | _ => exact absurd h nofun

theorem mem_begun {ops : List (Op Nat)} {id : UInt32} {sent : Nat} (h : (id, sent) ∈ begun ops) :
    .beginProbe sent id ∈ ops := by
  obtain ⟨op, hop, hbegins⟩ := List.mem_filterMap.mp h
  exact time_of_begins hbegins ▸ hop

/-- A probe was begun no later than the next call is made. -/
theorem Clocked.le_of_begun {ops : List (Op Nat)} {op : Op Nat} (h : Clocked (ops ++ [op]))
    {now : Nat} (hnow : now ∈ op.time) {id : UInt32} {sent : Nat} (hsent : (id, sent) ∈ begun ops) :
    sent ≤ now := by
  have hmono := h.mono
  rw [List.filterMap_append] at hmono
  apply (List.pairwise_append.mp hmono).2.2
  · exact List.mem_filterMap.mpr ⟨_, mem_begun hsent, rfl⟩
  · exact List.mem_filterMap.mpr ⟨op, List.mem_singleton.mpr rfl, hnow⟩

/-- What a record says about its probe. -/
def stamp (p : UInt32 × Nat) : UInt32 × UInt32 := (p.1, UInt32.ofNat p.2)

/-- The records are those of probes of the run, in the order of their begin. -/
def Recorded (probes : List (UInt32 × Nat)) (rs : List ProbeRecord) : Prop :=
  (rs.map fun r => (r.id, r.sent)).Sublist (probes.map stamp)

theorem Recorded.ids {probes : List (UInt32 × Nat)} {rs : List ProbeRecord} (h : Recorded probes rs)
    (hids : (probes.map Prod.fst).Nodup) : (rs.map (·.id)).Nodup := by
  have hsub := h.map Prod.fst
  rw [List.map_map, List.map_map] at hsub
  exact List.Nodup.sublist hsub hids

theorem Recorded.exists_begun {probes : List (UInt32 × Nat)} {rs : List ProbeRecord}
    (h : Recorded probes rs) {r : ProbeRecord} (hr : r ∈ rs) :
    ∃ sent, (r.id, sent) ∈ probes ∧ r.sent = UInt32.ofNat sent := by
  obtain ⟨⟨id, sent⟩, hp, hstamp⟩ := List.mem_map.mp (h.subset (List.mem_map_of_mem hr))
  simp only [stamp, Prod.mk.injEq] at hstamp
  refine ⟨sent, ?_, hstamp.2.symm⟩
  rw [← hstamp.1]
  exact hp

theorem sublist_times (ops : List (Op Nat)) :
    ((begun ops).map Prod.snd).Sublist (ops.filterMap Op.time) := by
  induction ops with
  | nil => exact List.Sublist.refl _
  | cons op ops ih =>
    cases op with
    | beginProbe now id => exact ih.cons_cons now
    | setPath | reset | suspend => exact ih
    | completeSend id now success => exact ih.cons now
    | reportTransportSend now success => exact ih.cons now
    | reply id now => exact ih.cons now
    | snapshot now => exact ih.cons now
    | latencyMs now => exact ih.cons now

theorem Clocked.sorted {ops : List (Op Nat)} (h : Clocked ops) : (begun ops).Pairwise (·.2 ≤ ·.2) :=
  List.pairwise_map.mp (h.mono.sublist (sublist_times ops))

/-- Older probes come first in the records. -/
theorem Recorded.ages {probes : List (UInt32 × Nat)} {rs : List ProbeRecord}
    (h : Recorded probes rs) (hsorted : probes.Pairwise (·.2 ≤ ·.2)) {now : Nat}
    (hnow : ∀ r ∈ rs, ∀ sent, (r.id, sent) ∈ probes → sent ≤ now ∧ now < sent + 2 ^ 31)
    (limit : UInt32) :
    rs.Pairwise fun a b => limit ≤ UInt32.ofNat now - b.sent →
    limit ≤ UInt32.ofNat now - a.sent := by
  obtain ⟨kept, hsub, hkept⟩ := List.sublist_map_iff.mp h
  have hmem : ∀ p ∈ kept, p ∈ probes := fun p hp => hsub.subset hp
  replace hsorted := hsorted.sublist hsub
  clear h hsub
  induction rs generalizing kept with
  | nil => exact .nil
  | cons a rs ih =>
    obtain ⟨p, kept, rfl, hp, hrest⟩ := List.map_eq_cons_iff.mp hkept.symm
    obtain ⟨hhead, htail⟩ := List.pairwise_cons.mp hsorted
    simp only [stamp, Prod.mk.injEq] at hp
    obtain ⟨hple, hplt⟩ := hnow a List.mem_cons_self p.2 (hp.1 ▸ hmem p List.mem_cons_self)
    refine List.pairwise_cons.mpr ⟨fun b hb hold => ?_, ?_⟩
    · -- the record of a later probe is older than the limit only if this one is
      have hb' : (b.id, b.sent) ∈ kept.map stamp := hrest ▸ List.mem_map_of_mem hb
      obtain ⟨q, hq, hqb⟩ := List.mem_map.mp hb'
      simp only [stamp, Prod.mk.injEq] at hqb
      obtain ⟨hqle, hqlt⟩ := hnow b (List.mem_cons_of_mem _ hb) q.2
        (hqb.1 ▸ hmem q (List.mem_cons_of_mem _ hq))
      rw [← hqb.2, le_age_ofNat hqle (by omega)] at hold
      rw [← hp.2, le_age_ofNat hple (by omega)]
      exact Nat.le_trans (Nat.add_le_add_right (hhead q hq) _) hold
    · exact ih (fun r hr => hnow r (List.mem_cons_of_mem _ hr)) kept hrest.symm
        (fun q hq => hmem q (List.mem_cons_of_mem _ hq)) htail

theorem Clocked.bounds {ops : List (Op Nat)} {op : Op Nat} (h : Clocked (ops ++ [op])) {now : Nat}
    (hnow : now ∈ op.time) {r : ProbeRecord} (hr : r ∈ (after ops).records) {sent : Nat}
    (hsent : (r.id, sent) ∈ begun ops) : sent ≤ now ∧ now < sent + 2 ^ 31 :=
  ⟨h.le_of_begun hnow hsent, h.retained ops op [] rfl now hnow r hr sent hsent⟩

theorem Clocked.ordered {ops : List (Op Nat)} {op : Op Nat} (h : Clocked (ops ++ [op]))
    (hrecorded : Recorded (begun ops) (after ops).records) :
    ∀ now ∈ (reading op).time, Ordered now (after ops).records := by
  intro now hnow
  have htime : ∃ time ∈ op.time, now = UInt32.ofNat time := by
    cases op <;> simp_all [Op.map, Op.time]
  obtain ⟨time, htime, rfl⟩ := htime
  exact ⟨hrecorded.ages h.init.sorted (fun r hr sent hsent => h.bounds htime hr hsent) _,
    hrecorded.ids h.init.ids⟩

/-! ### The history of one probe -/

/-- A call that suspends the path. -/
def suspends : Op UInt32 → Bool
  | .suspend => true
  | .setPath kind => decide (kind = 0)
  | _ => false

/-- A call that resets the tracker, by itself or for another path. -/
def clears (t : ProbeQualityTracker) : Op UInt32 → Bool
  | .reset => true
  | .setPath kind => decide (kind ≠ 0 ∧ t.pathKind ≠ kind)
  | _ => false

/-- A call that says the probe's datagram did not leave. -/
def Fails (t : ProbeQualityTracker) (id : UInt32) (op : Op UInt32) : Prop :=
  (∃ now success, op = .completeSend id now success ∧
    (success = false ∨ t.transportSendFailure = true)) ∨ ∃ now, op = .reportTransportSend now false

/-- What becomes of a record that the call does not drop. -/
inductive Fate (t : ProbeQualityTracker) (op : Op UInt32) (r : ProbeRecord) : ProbeRecord → Prop
  | kept (hsuspends : suspends op → r.state ≠ .pending)
      (hreply : ∀ now, op = .reply r.id now → r.state = .pending →
        t.enabled = false ∨ TIMEOUT_MS ≤ now - r.sent ∨ r.committed = false ∧ r.earlyReply = true)
      (hcomplete : ∀ now success, op = .completeSend r.id now success → r.state = .pending →
        t.findPending r.id = none) : Fate t op r r
  | lost (now : UInt32) (htime : op.time = some now) (hp : r.state = .pending) (hc : r.committed)
      (hold : TIMEOUT_MS ≤ now - r.sent) : Fate t op r { r with state := .timedOut }
  | committed (now : UInt32) (hop : op = .completeSend r.id now true) (hp : r.state = .pending)
      (he : r.earlyReply = false) : Fate t op r { r with committed := true }
  | committedLost (now : UInt32) (hop : op = .completeSend r.id now true) (hp : r.state = .pending)
      (he : r.earlyReply = false) (hold : TIMEOUT_MS ≤ now - r.sent) :
      Fate t op r { r with committed := true, state := .timedOut }
  | committedReplied (now : UInt32) (hop : op = .completeSend r.id now true)
      (hp : r.state = .pending)
      (he : r.earlyReply = true) : Fate t op r { r with committed := true, state := .replied }
  | failed (hfails : Fails t r.id op) (hp : r.state = .pending) :
      Fate t op r { r with state := .sendFailed, earlyReply := false }
  | early (now : UInt32) (hop : op = .reply r.id now) (hp : r.state = .pending)
      (hc : r.committed = false)
      (he : r.earlyReply = false) (hage : ¬ TIMEOUT_MS ≤ now - r.sent) :
      Fate t op r { r with earlyReply := true, replyAt := now }
  | replied (now : UInt32) (hop : op = .reply r.id now) (hp : r.state = .pending) (hc : r.committed)
      (hage : ¬ TIMEOUT_MS ≤ now - r.sent) : Fate t op r { r with state := .replied }

section Fates

variable {t : ProbeQualityTracker} {now id : UInt32} {r r' : ProbeRecord}

theorem settledOnly_eq (h : settledOnly r = some r') : r.state ≠ .pending ∧ r' = r := by
  unfold settledOnly at h
  split at h
  · exact absurd h (by simp)
  · rename_i hp
    exact ⟨hp, (Option.some.inj h).symm⟩

/-- A pass gives the record up or leaves it alone. -/
theorem age_cases (h : age now r = some r') :
    ¬ WINDOW_MS ≤ now - r.sent ∧
      (r' = { r with state := .timedOut } ∧ r.state = .pending ∧ r.committed ∧
        TIMEOUT_MS ≤ now - r.sent ∨
        r' = r ∧ timesOut now r = false) := by
  unfold age at h
  split at h
  · exact absurd h (by simp)
  · rename_i hyoung
    refine ⟨hyoung, ?_⟩
    rw [← Option.some.inj h, giveUp]
    split
    · rename_i hout
      rw [timesOut, decide_eq_true_eq] at hout
      exact .inl ⟨rfl, hout⟩
    · rename_i hin
      exact .inr ⟨rfl, by simpa using hin⟩

theorem fate_of_age {op : Op UInt32} (htime : op.time = some now) (hsuspends : suspends op = false)
    (hreply : ∀ time, op ≠ .reply r.id time)
    (hcomplete : ∀ time success, op = .completeSend r.id time success → r.state ≠ .pending)
    (h : age now r = some r') : Fate t op r r' := by
  obtain ⟨-, ⟨rfl, hp, hc, hold⟩ | ⟨rfl, -⟩⟩ := age_cases h
  · exact .lost now htime hp hc hold
  · refine .kept (fun hs => absurd (hsuspends.symm.trans hs) (by decide))
      (fun time hop => absurd hop (hreply time)) ?_
    exact fun time success hop hp => absurd hp (hcomplete time success hop)

theorem isPending_iff : isPending id r = true ↔ r.id = id ∧ r.state = .pending := by
  rw [isPending, decide_eq_true_eq]

theorem fate_completeSend {success : Bool} (h : t.next (.completeSend id now success) r = some r') :
    Fate t (.completeSend id now success) r r' := by
  have hnext : t.next (.completeSend id now success) =
      if (t.findPending id).isNone then some
      else if !success || t.transportSendFailure then fun r =>
        some (if isPending id r then refuse r else r)
      else fun r => age now (if isPending id r then handOver r else r) := rfl
  rw [hnext] at h
  -- a call that completes another probe, or one that is settled
  have hother : ¬ isPending id r → ∀ time succeeded,
      Op.completeSend id now success = .completeSend r.id time succeeded → r.state ≠ .pending := by
    intro hne time succeeded hop hp
    simp only [Op.completeSend.injEq] at hop
    exact hne (isPending_iff.mpr ⟨hop.1.symm, hp⟩)
  split at h
  · rename_i hnone
    obtain rfl := Option.some.inj h
    refine .kept nofun nofun fun time succeeded hop _ => ?_
    simp only [Op.completeSend.injEq] at hop
    rw [← hop.1]
    exact Option.isNone_iff_eq_none.mp hnone
  · split at h
    · rename_i hunsent
      obtain rfl := Option.some.inj h
      split
      · rename_i hp
        obtain ⟨rfl, hstate⟩ := isPending_iff.mp hp
        rw [Bool.or_eq_true, Bool.not_eq_true'] at hunsent
        exact .failed (.inl ⟨now, success, rfl, hunsent⟩) hstate
      · rename_i hp
        exact .kept nofun nofun fun time succeeded hop hstate =>
          absurd hstate (hother hp time succeeded hop)
    · rename_i hsent
      rw [Bool.or_eq_true, not_or, Bool.not_eq_true, Bool.not_eq_false'] at hsent
      obtain ⟨rfl, -⟩ := hsent
      dsimp only at h
      split at h
      · rename_i hp
        obtain ⟨rfl, hstate⟩ := isPending_iff.mp hp
        unfold handOver at h
        split at h
        · -- the reply came before the send was reported
          rename_i hearly
          obtain ⟨-, ⟨-, hp', -⟩ | ⟨rfl, -⟩⟩ := age_cases h
          · exact absurd hp' (by simp)
          · exact .committedReplied now rfl hstate hearly
        · rename_i hearly
          rw [Bool.not_eq_true] at hearly
          obtain ⟨-, ⟨rfl, -, -, hold⟩ | ⟨rfl, -⟩⟩ := age_cases h
          · exact .committedLost now rfl hstate hearly hold
          · exact .committed now rfl hstate hearly
      · rename_i hp
        exact fate_of_age rfl rfl nofun (hother hp) h

theorem fate_reportTransportSend {success : Bool}
    (h : t.next (.reportTransportSend now success) r = some r') :
    Fate t (.reportTransportSend now success) r r' := by
  obtain ⟨a, ha, rfl⟩ := Option.map_eq_some_iff.mp h
  cases success with
  | true => exact fate_of_age rfl rfl nofun nofun ha
  | false =>
    simp only [Bool.false_eq_true, if_false]
    obtain ⟨-, ⟨rfl, hp, hc, hold⟩ | ⟨rfl, -⟩⟩ := age_cases ha
    · exact .lost now rfl hp hc hold
    · unfold cancel
      split
      · rename_i hp
        exact .failed (.inr ⟨now, rfl⟩) hp
      · exact .kept nofun nofun nofun

theorem fate_reply (h : t.next (.reply id now) r = some r') : Fate t (.reply id now) r r' := by
  obtain ⟨a, ha, rfl⟩ := Option.map_eq_some_iff.mp h
  obtain ⟨-, ⟨rfl, hp, hc, hold⟩ | ⟨rfl, -⟩⟩ := age_cases ha
  · rw [if_neg (by simp [isPending])]
    exact .lost now rfl hp hc hold
  · split
    · rename_i hp
      obtain ⟨rfl, hstate⟩ := isPending_iff.mp hp
      unfold replyTo
      split
      · rename_i hclosed
        rw [Bool.or_eq_true, Bool.not_eq_true', decide_eq_true_eq] at hclosed
        refine .kept (by simp [suspends]) (fun time htime _ => ?_) fun _ _ hop =>
          absurd hop (by simp)
        simp only [Op.reply.injEq, true_and] at htime
        subst htime
        exact hclosed.imp_right .inl
      · rename_i hopen
        rw [Bool.or_eq_true, Bool.not_eq_true', decide_eq_true_eq, not_or] at hopen
        split
        · rename_i hc
          rw [Bool.not_eq_true'] at hc
          split
          · rename_i he
            exact .kept (by simp [suspends]) (fun _ _ _ => .inr (.inr ⟨hc, he⟩)) fun _ _ hop =>
              absurd hop (by simp)
          · rename_i he
            exact .early now rfl hstate hc (by simpa using he) hopen.2
        · rename_i hc
          exact .replied now rfl hstate (by simpa using hc) hopen.2
    · rename_i hother
      refine .kept (by simp [suspends]) (fun time htime hp => ?_) fun _ _ hop =>
        absurd hop (by simp)
      simp only [Op.reply.injEq] at htime
      exact absurd (isPending_iff.mpr ⟨htime.1.symm, hp⟩) hother

/-- **What a call leaves of a record**, for every operation. -/
theorem next_fate {op : Op UInt32} (h : t.next op r = some r') :
    Fate t op r r' ∧ t.clears op = false := by
  cases op with
  | setPath kind =>
    change (if kind = 0 then settledOnly else if t.pathKind ≠ kind then fun _ => none else some) r =
      some r' at h
    unfold clears
    split at h
    · rename_i hzero
      obtain ⟨hp, rfl⟩ := settledOnly_eq h
      exact ⟨.kept (fun _ => hp) nofun nofun, by simp [hzero]⟩
    · rename_i hkind
      split at h
      · exact absurd h (by simp)
      · rename_i hsame
        obtain rfl := Option.some.inj h
        refine ⟨.kept (fun hs => ?_) nofun nofun, by simpa using fun _ => not_not.mp hsame⟩
        exact absurd (of_decide_eq_true hs) hkind
  | reset => exact absurd h nofun
  | suspend =>
    obtain ⟨hp, rfl⟩ := settledOnly_eq h
    exact ⟨.kept (fun _ => hp) nofun nofun, rfl⟩
  | beginProbe now id => exact ⟨fate_of_age rfl rfl nofun nofun h, rfl⟩
  | completeSend id now success => exact ⟨fate_completeSend h, rfl⟩
  | reportTransportSend now success => exact ⟨fate_reportTransportSend h, rfl⟩
  | reply id now => exact ⟨fate_reply h, rfl⟩
  | snapshot now => exact ⟨fate_of_age rfl rfl nofun nofun h, rfl⟩
  | latencyMs now =>
    obtain rfl := Option.some.inj h
    exact ⟨.kept nofun nofun nofun, rfl⟩

/-- A call does not change the id or the send time of a record. -/
theorem Fate.stamp {op : Op UInt32} (h : Fate t op r r') : r'.id = r.id ∧ r'.sent = r.sent := by
  cases h <;> exact ⟨rfl, rfl⟩

/-- A record that is settled stays as it was settled. -/
theorem Fate.settled {op : Op UInt32} (h : Fate t op r r') (hr : r.state ≠ .pending) :
    r'.state = r.state := by
  cases h with
  | kept => rfl
  | committed now hop hp => exact absurd hp hr
  | early now hop hp => exact absurd hp hr
  | lost now htime hp => exact absurd hp hr
  | committedLost now hop hp => exact absurd hp hr
  | committedReplied now hop hp => exact absurd hp hr
  | failed hfails hp => exact absurd hp hr
  | replied now hop hp => exact absurd hp hr

theorem Fate.pending {op : Op UInt32} (h : Fate t op r r') (hr' : r'.state = .pending) :
    r.state = .pending := by
  by_contra hr
  exact hr ((h.settled hr).symm.trans hr')

end Fates

/-- The records of a run are those of its probes. -/
theorem after_recorded {ops : List (Op Nat)} (h : Clocked ops) :
    Recorded (begun ops) (after ops).records := by
  induction ops using List.reverseRecOn with
  | nil => exact List.Sublist.refl _
  | append_singleton ops op ih =>
    have hrecorded := ih h.init
    unfold Recorded
    rw [after_snoc, call_records (h.ordered hrecorded), begun_snoc, List.map_append,
      List.map_append]
    apply List.Sublist.append
    · refine (sublist_filterMap (fun r r' hr => ?_) _).trans hrecorded
      rw [(next_fate hr).1.stamp.1, (next_fate hr).1.stamp.2]
    · cases op with
      | beginProbe now id =>
        simp only [Op.map, fresh]
        split
        · exact List.Sublist.refl _
        · exact List.nil_sublist _
      | _ => exact List.nil_sublist _

theorem Clocked.ordered_after {ops : List (Op Nat)} {op : Op Nat} (h : Clocked (ops ++ [op])) :
    ∀ now ∈ (reading op).time, Ordered now (after ops).records :=
  h.ordered (after_recorded h.init)

/-- The record of a probe. -/
def recordOf (t : ProbeQualityTracker) (id : UInt32) : Option ProbeRecord :=
  t.records.find? fun r => decide (r.id = id)

theorem find?_filterMap {f : ProbeRecord → Option ProbeRecord}
    (hf : ∀ r r', f r = some r' → r'.id = r.id) {rs : List ProbeRecord}
    (hids : (rs.map (·.id)).Nodup) (id : UInt32) :
    (rs.filterMap f).find? (fun r => decide (r.id = id)) =
    (rs.find? fun r => decide (r.id = id)).bind f := by
  induction rs with
  | nil => rfl
  | cons r rs ih =>
    rw [List.map_cons, List.nodup_cons] at hids
    rw [List.find?_cons]
    by_cases hr : r.id = id
    · rw [decide_eq_true hr]
      have hrest : (rs.filterMap f).find? (fun a => decide (a.id = id)) = none := by
        rw [ih hids.2, List.find?_eq_none.mpr]
        · rfl
        · intro a ha hid
          exact hids.1 (List.mem_map.mpr ⟨a, ha, (of_decide_eq_true hid).trans hr.symm⟩)
      cases hfr : f r with
      | none =>
        rw [List.filterMap_cons_none hfr, hrest]
        exact hfr.symm
      | some r' =>
        rw [List.filterMap_cons_some hfr, List.find?_cons, decide_eq_true ((hf r r' hfr).trans hr)]
        exact hfr.symm
    · rw [decide_eq_false hr]
      cases hfr : f r with
      | none =>
        rw [List.filterMap_cons_none hfr]
        exact ih hids.2
      | some r' =>
        rw [List.filterMap_cons_some hfr, List.find?_cons,
          decide_eq_false (fun hid => hr ((hf r r' hfr).symm.trans hid))]
        exact ih hids.2

/-- One step in the history of a probe. -/
theorem recordOf_call {ops : List (Op Nat)} {op : Op Nat} (h : Clocked (ops ++ [op])) {id : UInt32}
    (hop : ∀ sent, op ≠ .beginProbe sent id) :
    recordOf (after (ops ++ [op])) id =
    (recordOf (after ops) id).bind ((after ops).next (reading op)) := by
  unfold recordOf
  rw [after_snoc, call_records h.ordered_after, List.find?_append,
    find?_filterMap (fun r r' hr => (next_fate hr).1.stamp.1)
    ((after_recorded h.init).ids h.init.ids)]
  have hfresh : ((after ops).fresh (reading op)).find? (fun r => decide (r.id = id)) = none := by
    cases op with
    | beginProbe now id' =>
      simp only [Op.map, fresh]
      split
      · rw [List.find?_cons, decide_eq_false]
        · rfl
        · intro hid
          exact hop now (by rw [← hid])
      · rfl
    | _ => rfl
  rw [hfresh, Option.or_none]

/-- The record of a probe that begins. -/
theorem recordOf_begin {ops : List (Op Nat)} {sent : Nat} {id : UInt32}
    (h : Clocked (ops ++ [.beginProbe sent id])) :
    recordOf (after (ops ++ [.beginProbe sent id])) id =
      if (after ops).enabled then some { id := id, sent := UInt32.ofNat sent } else none := by
  have hids := h.ids
  rw [begun_snoc, List.map_append, List.nodup_append] at hids
  unfold recordOf
  rw [after_snoc, call_records h.ordered_after, List.find?_append,
    find?_filterMap (fun r r' hr => (next_fate hr).1.stamp.1)
    ((after_recorded h.init).ids h.init.ids)]
  have hnone : (after ops).records.find? (fun r => decide (r.id = id)) = none := by
    rw [List.find?_eq_none]
    intro r hr hid
    obtain ⟨sent', hmem, -⟩ := (after_recorded h.init).exists_begun hr
    have hfst : id ∈ (begun ops).map Prod.fst := List.mem_map.mpr ⟨_, hmem, of_decide_eq_true hid⟩
    exact hids.2.2 id hfst id (by simp [begins]) rfl
  rw [hnone, Option.bind_none, Option.none_or]
  simp only [Op.map, fresh]
  split
  · rw [List.find?_cons, decide_eq_true rfl]
  · rfl

end ProbeQualityTracker

end VlanConnect

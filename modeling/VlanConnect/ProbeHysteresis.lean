/-
  VlanConnect/ProbeHysteresis.lean
  ================================
  **When an outage begins and when it ends.**

  A run is given by an ordinary clock, and the tracker gets its readings modulo
  `2 ^ 32`.  Each call of the run is read as a list of events: a reply is
  accepted, a probe is given up, the outage is asserted, a local failure is
  over.  Beside the tracker go the times behind the readings of its records, so
  that the events carry times and not readings.

  The outage flag of the tracker follows the events.  It is set when nothing
  came back for ten seconds, and cleared by the second reply accepted after it
  was last set and after the last expiry of a probe that is not older than the
  reply before it (`outage_hysteresis`).  The tracker decides which of two
  readings is older by the sign of their 32-bit difference, and this is right
  as long as no reading it keeps for the decision is a whole turn of the clock
  old.  A local failure can keep the first of the two replies for longer
  (`hysteresis_lost_after_turn`).
-/
import VlanConnect.Lib.WrapClock
import VlanConnect.ProbeQuality
import Mathlib.Data.List.Induction
import Mathlib.Data.List.Zip

namespace VlanConnect

namespace ProbeQualityTracker

/-! ### Readings of an ordinary clock -/

/-- The call as the tracker gets it. -/
abbrev reading (op : Op Nat) : Op UInt32 := op.map UInt32.ofNat

/-- The age that the tracker computes is the age, less whole turns. -/
theorem toNat_age_le {sent now : Nat} (hle : sent ≤ now) :
    (UInt32.ofNat now - UInt32.ofNat sent).toNat ≤ now - sent := by
  rw [UInt32.toNat_sub, UInt32.toNat_ofNat', UInt32.toNat_ofNat']
  omega

theorem toNat_age {sent now : Nat} (hle : sent ≤ now) (hlt : now < sent + 2 ^ 32) :
    (UInt32.ofNat now - UInt32.ofNat sent).toNat = now - sent := by
  rw [UInt32.toNat_sub, UInt32.toNat_ofNat', UInt32.toNat_ofNat']
  omega

theorem le_age_ofNat {sent now : Nat} (hle : sent ≤ now) (hlt : now < sent + 2 ^ 32)
    (limit : UInt32) :
    limit ≤ UInt32.ofNat now - UInt32.ofNat sent ↔ sent + limit.toNat ≤ now := by
  rw [UInt32.le_iff_toNat_le, toNat_age hle hlt]
  omega

/-- The sign of a difference of less than `2 ^ 31` tells which is older. -/
theorem nonneg_iff_le {a b : Nat} (h : a < b + 2 ^ 31) (h' : b < a + 2 ^ 31) :
    0 ≤ (UInt32.ofNat a - UInt32.ofNat b).toInt32.toInt ↔ b ≤ a := by
  rw [WrapClock.toInt32_nonneg_iff, UInt32.toNat_sub, UInt32.toNat_ofNat', UInt32.toNat_ofNat']
  omega

/-! ### The times behind the records -/

/-- When the probe of a record was sent, and when its early reply came. -/
structure Stamp where
  sent : Nat
  replyAt : Nat := 0
deriving DecidableEq, Repr

/-- A record with its times. -/
abbrev Probe : Type := Stamp × ProbeRecord

/-- The record shows the readings of its times. -/
structure Stamped (p : Probe) : Prop where
  sent : p.2.sent = UInt32.ofNat p.1.sent
  replyAt : p.2.earlyReply → p.2.replyAt = UInt32.ofNat p.1.replyAt

/-- The probes after a pass of `expire`. -/
def passed (now : UInt32) (ps : List Probe) : List Probe :=
  (ps.map (Prod.map id (giveUp now))).dropWhile fun p => decide (WINDOW_MS ≤ now - p.2.sent)

def settled (ps : List Probe) : List Probe := ps.filter fun p => decide (p.2.state ≠ .pending)

def findProbe (id : UInt32) (ps : List Probe) : Option Probe := ps.find? fun p => isPending id p.2

/-- The probes after a write to the one that `findPending` points to. -/
def writeProbe (id : UInt32) (probe : Probe) : List Probe → List Probe
  | [] => []
  | p :: ps => if isPending id p.2 then probe :: ps else p :: writeProbe id probe ps

/-- `reply` keeps the reply until the probe is handed over. -/
def takesEarly (t : ProbeQualityTracker) (id now : UInt32) : Bool :=
  match t.findPending id with
  | none => false
  | some r => t.enabled && !decide (TIMEOUT_MS ≤ now - r.sent) && !r.committed && !r.earlyReply

/-- The tracker between the hand-over of a probe and the pass that follows it. -/
def handed (t : ProbeQualityTracker) (id : UInt32) (r : ProbeRecord) : ProbeQualityTracker :=
  ({ t with queueSendFailure := false } : ProbeQualityTracker).commit id
    (t.queueSendFailure || t.transportSendFailure) r

/-- A hand-over leaves the times. -/
def handedProbes (t : ProbeQualityTracker) (id : UInt32) (p : Probe) (ps : List Probe) :
    List Probe :=
  (ps.map Prod.fst).zip (t.handed id p.2).records

/-- The probes with the time of an early reply. -/
def noteEarly (id : UInt32) (time : Nat) (ps : List Probe) : List Probe :=
  match findProbe id ps with
  | none => ps
  | some p => writeProbe id ({ p.1 with replyAt := time }, p.2) ps

/-- The times of the records that a call leaves. -/
def stamps (t : ProbeQualityTracker) (ps : List Probe) : Op Nat → List Stamp
  | .setPath kind =>
    if kind = 0 then (settled ps).map Prod.fst else if t.pathKind ≠ kind then []
      else ps.map Prod.fst
  | .reset => []
  | .suspend => (settled ps).map Prod.fst
  | .beginProbe now _ =>
    (passed (UInt32.ofNat now) ps).map Prod.fst ++ if t.enabled then [{ sent := now }] else []
  | .completeSend id now success =>
    match findProbe id ps with
    | none => ps.map Prod.fst
    | some p =>
      if !success || t.transportSendFailure then ps.map Prod.fst
      else (passed (UInt32.ofNat now) (t.handedProbes id p ps)).map Prod.fst
  | .reportTransportSend now _ | .snapshot now => (passed (UInt32.ofNat now) ps).map Prod.fst
  | .reply id now =>
    if (t.expire (UInt32.ofNat now)).takesEarly id (UInt32.ofNat now) then
      (noteEarly id now (passed (UInt32.ofNat now) ps)).map Prod.fst
    else (passed (UInt32.ofNat now) ps).map Prod.fst
  | .latencyMs _ => ps.map Prod.fst

/-! ### What a call leaves of the records -/

/-- `r'` is what is left of `r`: it may have been settled, and its early reply
    forgotten. -/
structure Leaves (r' r : ProbeRecord) : Prop where
  sent : r'.sent = r.sent
  committed : r'.committed = r.committed
  pending : r'.state = .pending → r.state = .pending
  early : r'.earlyReply → r.earlyReply ∧ r'.replyAt = r.replyAt

theorem Leaves.refl (r : ProbeRecord) : Leaves r r := ⟨rfl, rfl, id, fun h => ⟨h, rfl⟩⟩

theorem leaves_giveUp (now : UInt32) (r : ProbeRecord) : Leaves (giveUp now r) r := by
  unfold giveUp
  split
  · exact ⟨rfl, rfl, nofun, fun h => ⟨h, rfl⟩⟩
  · exact Leaves.refl r

theorem leaves_cancel (r : ProbeRecord) : Leaves (cancel r) r := by
  unfold cancel
  split
  · exact ⟨rfl, rfl, nofun, nofun⟩
  · exact Leaves.refl r

/-- The probe `p'` is what is left of `p`, and has its times. -/
structure LeavesProbe (p' p : Probe) : Prop where
  stamp : p'.1 = p.1
  record : Leaves p'.2 p.2

theorem LeavesProbe.refl (p : Probe) : LeavesProbe p p := ⟨rfl, Leaves.refl p.2⟩

/-- The probes `ps'` are what is left of `ps`, in order. -/
abbrev Left (ps' ps : List Probe) : Prop := List.SublistForall₂ LeavesProbe ps' ps

theorem left_map {f : ProbeRecord → ProbeRecord} (hf : ∀ r, Leaves (f r) r) {ps' ps : List Probe}
    (h : List.Sublist ps' ps) : Left (ps'.map (Prod.map id f)) ps :=
  List.sublistForall₂_map_left_iff.mpr
    (List.sublistForall₂_iff.mpr ⟨ps', List.forall₂_same.mpr fun p _ => ⟨rfl, hf p.2⟩, h⟩)

theorem left_sublist {ps' ps : List Probe} (h : List.Sublist ps' ps) : Left ps' ps :=
  List.sublistForall₂_iff.mpr ⟨ps', List.forall₂_same.mpr fun p _ => LeavesProbe.refl p, h⟩

theorem Left.exists_mem {ps' ps : List Probe} (h : Left ps' ps) {p' : Probe} (hp' : p' ∈ ps') :
    ∃ p ∈ ps, LeavesProbe p' p := by
  induction h with
  | nil => simp at hp'
  | cons hleaves _ ih =>
    rcases List.mem_cons.mp hp' with rfl | hp'
    · exact ⟨_, List.mem_cons_self, hleaves⟩
    · obtain ⟨p, hp, hl⟩ := ih hp'
      exact ⟨p, List.mem_cons_of_mem _ hp, hl⟩
  | cons_right _ ih =>
    obtain ⟨p, hp, hl⟩ := ih hp'
    exact ⟨p, List.mem_cons_of_mem _ hp, hl⟩

theorem Left.sorted {ps' ps : List Probe} (h : Left ps' ps)
    (hps : ps.Pairwise (·.1.sent ≤ ·.1.sent)) :
    ps'.Pairwise (·.1.sent ≤ ·.1.sent) := by
  induction h with
  | nil => exact .nil
  | cons hleaves hrest ih =>
    obtain ⟨hhead, htail⟩ := List.pairwise_cons.mp hps
    refine List.pairwise_cons.mpr ⟨fun a ha => ?_, ih htail⟩
    obtain ⟨b, hb, hab⟩ := Left.exists_mem hrest ha
    rw [hleaves.stamp, hab.stamp]
    exact hhead b hb
  | cons_right _ ih => exact ih (List.pairwise_cons.mp hps).2

/-- Giving probes up leaves their times. -/
theorem map_fst_map (f : ProbeRecord → ProbeRecord) (ps : List Probe) :
    (ps.map (Prod.map id f)).map Prod.fst = ps.map Prod.fst := by
  rw [List.map_map]
  rfl

theorem map_snd_map (f : ProbeRecord → ProbeRecord) (ps : List Probe) :
    (ps.map (Prod.map id f)).map Prod.snd = (ps.map Prod.snd).map f := by
  rw [List.map_map, List.map_map]
  rfl

/-! ### A pass of `expire` -/

section Expire

variable (t : ProbeQualityTracker) (now : UInt32)

/-- Some probe that the pass gives up delays the recovery. -/
def loses : Bool := t.records.any fun r => timesOut now r && t.delaysRecovery r

/-- The pass settles and drops records, and may set the outage and its count. -/
theorem expire_eq : t.expire now =
    { t with
      records := (t.records.map (giveUp now)).dropWhile fun r => decide (WINDOW_MS ≤ now - r.sent)
      outage := t.outage || t.isOut now
      recoveryReplies := if t.isOut now || t.loses now then 0 else t.recoveryReplies } := by
  unfold expire
  dsimp only
  have hout :
      ∀ rs n, ({ t with records := rs, recoveryReplies := n } : ProbeQualityTracker).isOut now =
      t.isOut now :=
    fun _ _ => rfl
  rw [hout]
  cases t.isOut now with
  | true => simp
  | false => simp [loses]

theorem expire_records : (t.expire now).records =
    (t.records.map (giveUp now)).dropWhile fun r => decide (WINDOW_MS ≤ now - r.sent) := by
  rw [expire_eq]

theorem expire_outage : (t.expire now).outage = (t.outage || t.isOut now) := by
  rw [expire_eq]

theorem expire_recoveryReplies :
    (t.expire now).recoveryReplies = if t.isOut now || t.loses now then 0
    else t.recoveryReplies := by
  rw [expire_eq]

@[simp] theorem expire_pathKind : (t.expire now).pathKind = t.pathKind := by
  rw [expire_eq]

@[simp] theorem expire_enabled : (t.expire now).enabled = t.enabled := by
  rw [expire_eq]

@[simp] theorem expire_started : (t.expire now).started = t.started := by
  rw [expire_eq]

@[simp] theorem expire_queueSendFailure : (t.expire now).queueSendFailure = t.queueSendFailure := by
  rw [expire_eq]

@[simp] theorem expire_transportSendFailure :
    (t.expire now).transportSendFailure = t.transportSendFailure := by
  rw [expire_eq]

@[simp] theorem expire_hasReply : (t.expire now).hasReply = t.hasReply := by
  rw [expire_eq]

@[simp] theorem expire_lastReply : (t.expire now).lastReply = t.lastReply := by
  rw [expire_eq]

@[simp] theorem expire_reference : (t.expire now).reference = t.reference := by
  rw [expire_eq]

@[simp] theorem expire_rtt : (t.expire now).rtt = t.rtt := by
  rw [expire_eq]

variable {t now}

theorem passed_records {ps : List Probe} (h : ps.map Prod.snd = t.records) :
    (passed now ps).map Prod.snd = (t.expire now).records := by
  rw [expire_records, ← h, ← map_snd_map, List.dropWhile_map]
  rfl

theorem left_passed (ps : List Probe) : Left (passed now ps) ps := by
  obtain ⟨qs, hsub, hqs⟩ := List.sublist_map_iff.mp
    (List.dropWhile_sublist (l := ps.map (Prod.map id (giveUp now)))
      fun p => decide (WINDOW_MS ≤ now - p.2.sent))
  unfold passed
  rw [hqs]
  exact left_map (leaves_giveUp now) hsub

/-- What is left of sorted probes is younger than the window. -/
theorem recent_of_passed {now : Nat} {ps : List Probe} (hsorted : ps.Pairwise (·.1.sent ≤ ·.1.sent))
    (hstamped : ∀ p ∈ ps, Stamped p) (hnow : ∀ p ∈ ps, p.1.sent ≤ now ∧ now < p.1.sent + 2 ^ 32) :
    ∀ p ∈ passed (UInt32.ofNat now) ps, now < p.1.sent + 60000 := by
  unfold passed
  induction ps with
  | nil => simp
  | cons p ps ih =>
    obtain ⟨hhead, htail⟩ := List.pairwise_cons.mp hsorted
    obtain ⟨hstamped, hrest⟩ := List.forall_mem_cons.mp hstamped
    obtain ⟨⟨hle, hlt⟩, hnow⟩ := List.forall_mem_cons.mp hnow
    rw [List.map_cons, List.dropWhile_cons]
    split
    · exact ih htail hrest hnow
    · -- the first probe that stays is the oldest of them
      rename_i hyoung
      have hsent : (Prod.map id (giveUp (UInt32.ofNat now)) p).2.sent = UInt32.ofNat p.1.sent :=
        (leaves_giveUp _ p.2).sent.trans hstamped.sent
      rw [decide_eq_true_eq, hsent, le_age_ofNat hle hlt] at hyoung
      change ¬ p.1.sent + 60000 ≤ now at hyoung
      intro a ha
      rcases List.mem_cons.mp ha with rfl | ha
      · exact Nat.not_le.mp hyoung
      · obtain ⟨b, hb, rfl⟩ := List.mem_map.mp ha
        have hpb := hhead b hb
        change now < b.1.sent + 60000
        omega

theorem recoveryReplies_of_expire (h : (t.expire now).recoveryReplies = 1) :
    t.isOut now = false ∧ t.loses now = false ∧ t.recoveryReplies = 1 := by
  rw [expire_recoveryReplies] at h
  split at h
  · exact absurd h (by decide)
  · rename_i hkept
    simp only [Bool.or_eq_true, not_or, Bool.not_eq_true] at hkept
    exact ⟨hkept.1, hkept.2, h⟩

end Expire

/-! ### Writing to a record -/

section Write

variable {t : ProbeQualityTracker} {id : UInt32} {r : ProbeRecord} {p w : Probe} {ps : List Probe}

theorem mem_of_findPending (h : t.findPending id = some r) : r ∈ t.records :=
  List.mem_of_find?_eq_some h

theorem pending_of_findPending (h : t.findPending id = some r) :
    r.id = id ∧ r.state = .pending := by
  have hp := List.find?_some h
  rwa [isPending, decide_eq_true_eq] at hp

theorem findPending_eq (h : ps.map Prod.snd = t.records) :
    t.findPending id = (findProbe id ps).map Prod.snd := by
  unfold findPending findProbe
  rw [← h, List.find?_map]
  rfl

theorem mem_of_findProbe (h : findProbe id ps = some p) : p ∈ ps := List.mem_of_find?_eq_some h

theorem pending_of_findProbe (h : findProbe id ps = some p) :
    p.2.id = id ∧ p.2.state = .pending := by
  have hp := List.find?_some h
  rwa [isPending, decide_eq_true_eq] at hp

theorem writeProbe_records (ps : List Probe) :
    (writeProbe id w ps).map Prod.snd = writePending id w.2 (ps.map Prod.snd) := by
  induction ps with
  | nil => rfl
  | cons a ps ih =>
    unfold writeProbe
    rw [List.map_cons, writePending]
    split
    · rfl
    · rw [List.map_cons, ih]

/-- A write changes the probe found, and no other. -/
theorem writeProbe_related {R : Probe → Probe → Prop} (hrefl : ∀ a, R a a) (hw : R w p)
    (h : findProbe id ps = some p) : (writeProbe id w ps).Forall₂ R ps := by
  unfold findProbe at h
  induction ps with
  | nil => simp at h
  | cons a ps ih =>
    rw [List.find?_cons] at h
    unfold writeProbe
    split at h
    · obtain rfl := Option.some.inj h
      rename_i hp
      rw [if_pos hp]
      exact .cons hw (List.forall₂_same.mpr fun b _ => hrefl b)
    · rename_i hp
      rw [if_neg (by simp [hp])]
      exact .cons (hrefl a) (ih h)

theorem left_writeProbe (hw : LeavesProbe w p) (h : findProbe id ps = some p) :
    Left (writeProbe id w ps) ps :=
  List.sublistForall₂_iff.mpr ⟨_, writeProbe_related LeavesProbe.refl hw h, List.Sublist.refl _⟩

theorem mem_writeProbe {a : Probe} (h : a ∈ writeProbe id w ps) : a = w ∨ a ∈ ps := by
  induction ps with
  | nil => simp [writeProbe] at h
  | cons b ps ih =>
    unfold writeProbe at h
    split at h
    · rcases List.mem_cons.mp h with h | h
      · exact .inl h
      · exact .inr (List.mem_cons_of_mem _ h)
    · rcases List.mem_cons.mp h with rfl | h
      · exact .inr List.mem_cons_self
      · exact (ih h).imp_right (List.mem_cons_of_mem _)

/-- What a write keeps of the probe found, it keeps of all. -/
theorem map_writeProbe {β : Type} {f : Probe → β} (hw : f w = f p) (h : findProbe id ps = some p) :
    (writeProbe id w ps).map f = ps.map f := by
  have hrel := writeProbe_related (R := fun a b => f a = f b) (fun _ => rfl) hw h
  have heq : ((writeProbe id w ps).map f).Forall₂ Eq (ps.map f) :=
    List.forall₂_map_left_iff.mpr (List.forall₂_map_right_iff.mpr hrel)
  rwa [List.forall₂_eq_eq_eq] at heq

theorem exists_of_mem_writeProbe (hsent : w.1.sent = p.1.sent) (h : findProbe id ps = some p)
    {a : Probe} (ha : a ∈ writeProbe id w ps) : ∃ b ∈ ps, b.1.sent = a.1.sent := by
  have hin :
    a.1.sent ∈ ps.map (·.1.sent) := map_writeProbe
    (f := (·.1.sent)) hsent h ▸ List.mem_map_of_mem ha
  exact List.mem_map.mp hin

end Write

/-! ### The steps of a call -/

section Steps

variable {t : ProbeQualityTracker} {id : UInt32} {r w : ProbeRecord}

theorem refer_eq (failed : Bool) (sent : UInt32) : t.refer failed sent =
    { t with
      started := true
      reference := if failed && !t.outage || !t.started then sent else t.reference } := by
  cases t with
  | mk records pathKind enabled started outage queue transport hasReply reference lastReply
      rtt recovery =>
    cases failed <;> cases outage <;> cases started <;> rfl

theorem countRecovery_flags :
    t.countRecovery.enabled = t.enabled ∧ t.countRecovery.started = t.started ∧
      t.countRecovery.queueSendFailure = t.queueSendFailure ∧
      t.countRecovery.transportSendFailure = t.transportSendFailure ∧
      t.countRecovery.records = t.records ∧
      t.countRecovery.hasReply = t.hasReply ∧ t.countRecovery.lastReply = t.lastReply ∧
      t.countRecovery.reference = t.reference := by
  unfold countRecovery
  split
  · split <;> exact ⟨rfl, rfl, rfl, rfl, rfl, rfl, rfl, rfl⟩
  · exact ⟨rfl, rfl, rfl, rfl, rfl, rfl, rfl, rfl⟩

theorem countRecovery_outage :
    t.countRecovery.outage = (t.outage && decide (t.recoveryReplies + 1 < 2)) := by
  unfold countRecovery
  split
  · rename_i hout
    split
    · rename_i hsecond
      rw [decide_eq_false (by omega), Bool.and_false]
    · rename_i hfirst
      rw [decide_eq_true (by omega), Bool.and_true]
  · rename_i hout
    rw [Bool.not_eq_true] at hout
    rw [hout, Bool.false_and]

theorem acceptReply_outage (time : UInt32) :
    (t.acceptReply id w time).outage = (t.outage && decide (t.recoveryReplies + 1 < 2)) :=
  countRecovery_outage

theorem refer_outage (failed : Bool) (sent : UInt32) : (t.refer failed sent).outage = t.outage := by
  rw [refer_eq]

theorem commit_outage (h : t.outage = false) (failed : Bool) :
    (t.commit id failed r).outage = false := by
  unfold commit
  dsimp only
  split
  · rw [acceptReply_outage, refer_outage, h, Bool.false_and]
  · exact (refer_outage failed r.sent).trans h

theorem commit_flags (failed : Bool) :
    (t.commit id failed r).enabled = t.enabled ∧ (t.commit id failed r).started = true ∧
      (t.commit id failed r).queueSendFailure = t.queueSendFailure ∧
      (t.commit id failed r).transportSendFailure = t.transportSendFailure := by
  unfold commit
  dsimp only
  rw [refer_eq]
  split
  · obtain ⟨henabled, hstarted, hqueue, htransport, -⟩ := countRecovery_flags
      (t := { ({ t with
          started := true
          reference := if failed && !t.outage || !t.started then r.sent
            else t.reference } : ProbeQualityTracker).store
            id { r with committed := true, state := .replied } with
        rtt := roundTripMs r.replyAt r.sent, hasReply := true, lastReply := r.replyAt,
        reference := r.replyAt })
    exact ⟨henabled, hstarted, hqueue, htransport⟩
  · exact ⟨rfl, rfl, rfl, rfl⟩

end Steps

/-! ### Events -/

inductive Event where
  /-- The first probe was handed over; its send time. -/
  | started (sent : Nat)
  /-- A local failure is over: the first probe handed over since, or the
      report of the transport. -/
  | recovered (time : Nat)
  | accepted (time : Nat)
  /-- A probe sent at that time was given up. -/
  | lost (sent : Nat)
  /-- The outage flag was set, for the first time or again. -/
  | asserted
  /-- The tracker was reset. -/
  | cleared
deriving DecidableEq, Repr

def expireEvents (t : ProbeQualityTracker) (now : UInt32) (ps : List Probe) : List Event :=
  ((ps.filter fun p => timesOut now p.2).map fun p => .lost p.1.sent) ++ if t.isOut now then
    [.asserted] else []

def referEvents (t : ProbeQualityTracker) (wasLocalFailure : Bool) (sent : Nat) : List Event :=
  (if wasLocalFailure then [.recovered sent] else []) ++ if t.started then [] else [.started sent]

def commitEvents (t : ProbeQualityTracker) (wasLocalFailure : Bool) (p : Probe) : List Event :=
  t.referEvents wasLocalFailure p.1.sent ++ if p.2.earlyReply then [.accepted p.1.replyAt] else []

def replyEvents (t : ProbeQualityTracker) (id : UInt32) (now : Nat) : List Event :=
  match t.findPending id with
  | none => []
  | some r =>
    if t.enabled && !decide (TIMEOUT_MS ≤ UInt32.ofNat now - r.sent) && r.committed then
      [.accepted now] else []

/-- The events of a call, in order. -/
def events (t : ProbeQualityTracker) (ps : List Probe) : Op Nat → List Event
  | .setPath kind => if kind ≠ 0 ∧ t.pathKind ≠ kind then [.cleared] else []
  | .reset => [.cleared]
  | .suspend => []
  | .beginProbe now _ => t.expireEvents (UInt32.ofNat now) ps
  | .completeSend id now success =>
    match findProbe id ps with
    | none => []
    | some p =>
      if !success || t.transportSendFailure then []
      else
        t.commitEvents (t.queueSendFailure || t.transportSendFailure) p ++
          (t.handed id p.2).expireEvents (UInt32.ofNat now) (t.handedProbes id p ps)
  | .reportTransportSend now success =>
    t.expireEvents (UInt32.ofNat now) ps ++ if success && t.transportSendFailure then
      [.recovered now] else []
  | .reply id now =>
    t.expireEvents (UInt32.ofNat now) ps ++ (t.expire (UInt32.ofNat now)).replyEvents id now
  | .snapshot now => t.expireEvents (UInt32.ofNat now) ps
  | .latencyMs _ => []

/-- What a sequence of events amounts to: the last reply accepted, the time
    from which silence is counted, and the replies accepted since the outage
    was last asserted and since the last expiry of a probe sent at or after the
    reply accepted before it. -/
structure Course where
  lastAccepted : Option Nat := none
  reference : Option Nat := none
  replies : Nat := 0
deriving DecidableEq, Repr

-- decided on the one time there may be, not over all times
instance decidableBefore (last : Option Nat) (sent : Nat) :
    Decidable (∀ time ∈ last, time ≤ sent) :=
  Option.decidableForallMem last

def Course.step (c : Course) : Event → Course
  | .started time | .recovered time => { c with reference := some time }
  | .accepted time =>
    { lastAccepted := some time, reference := some time, replies := c.replies + 1 }
  | .lost sent => if ∀ time ∈ c.lastAccepted, time ≤ sent then { c with replies := 0 } else c
  | .asserted => { c with replies := 0 }
  | .cleared => {}

def course (log : List Event) : Course := log.foldl Course.step {}

theorem course_append (log es : List Event) :
    course (log ++ es) = es.foldl Course.step (course log) :=
  List.foldl_append ..

/-- Probes given up one after the other. -/
theorem foldl_lost (c : Course) (ps : List Probe) :
    (ps.map fun p => Event.lost p.1.sent).foldl Course.step c =
      { c with
        replies := if ∃ p ∈ ps, ∀ time ∈ c.lastAccepted, time ≤ p.1.sent then 0
        else c.replies } := by
  induction ps generalizing c with
  | nil => simp
  | cons p ps ih =>
    rw [List.map_cons, List.foldl_cons]
    by_cases h : ∀ time ∈ c.lastAccepted, time ≤ p.1.sent
    · have hstep : c.step (.lost p.1.sent) = { c with replies := 0 } := by
        rw [Course.step, if_pos h]
      have hex : ∃ a ∈ p :: ps, ∀ time ∈ c.lastAccepted, time ≤ a.1.sent :=
        ⟨p, List.mem_cons_self, h⟩
      rw [hstep, ih, if_pos hex, ite_self]
    · have hstep : c.step (.lost p.1.sent) = c := by rw [Course.step, if_neg h]
      have hex : (∃ a ∈ p :: ps, ∀ time ∈ c.lastAccepted, time ≤ a.1.sent) ↔
          ∃ a ∈ ps, ∀ time ∈ c.lastAccepted, time ≤ a.1.sent := by
        rw [List.exists_mem_cons_iff]
        exact or_iff_right h
      rw [hstep, ih]
      simp only [hex]

/-! ### The tracker follows the course -/

/-- The tracker at `clock`, with its probes, after the events of the course.
    The last reply and the early ones are less than a window older than any
    probe kept. -/
structure Follows (clock : Nat) (c : Course) (t : ProbeQualityTracker) (ps : List Probe) :
    Prop where
  records : ps.map Prod.snd = t.records
  stamped : ∀ p ∈ ps, Stamped p
  sorted : ps.Pairwise (·.1.sent ≤ ·.1.sent)
  sent_le : ∀ p ∈ ps, p.1.sent ≤ clock
  early : ∀ p ∈ ps, p.2.earlyReply →
    p.1.sent ≤ p.1.replyAt ∧ p.1.replyAt ≤ clock ∧ ∀ a ∈ ps, p.1.replyAt < a.1.sent + 60000
  enabled : ∀ p ∈ ps, p.2.state = .pending → t.enabled
  lastAccepted : c.lastAccepted.map UInt32.ofNat = if t.hasReply then some t.lastReply else none
  lastReply : ∀ time ∈ c.lastAccepted, time ≤ clock ∧ ∀ a ∈ ps, time < a.1.sent + 60000
  reference : t.outage = false → t.started → c.reference.map UInt32.ofNat = some t.reference
  referred : ∀ time ∈ c.reference, time ≤ clock
  replies : t.outage → c.replies = t.recoveryReplies
  started : t.outage → t.started
  recovering : t.recoveryReplies = 1 → t.outage ∧ t.hasReply ∧ t.reference = t.lastReply
  counted : t.recoveryReplies ≤ if t.outage then 1 else 0

/-- Between the two replies that end an outage, the probes that are waited for
    were sent at most a window after the first. -/
def Prompt (c : Course) (t : ProbeQualityTracker) (ps : List Probe) : Prop :=
  t.recoveryReplies = 1 → ∀ time ∈ c.lastAccepted,
    ∀ p ∈ ps, p.2.state = .pending → p.2.committed → p.1.sent < time + 60000

theorem Prompt.left {c : Course} {t t' : ProbeQualityTracker} {ps ps' : List Probe}
    (h : Prompt c t ps) (ht : t'.recoveryReplies = t.recoveryReplies) (hps : Left ps' ps) :
    Prompt c t' ps' := by
  intro hone time htime p' hp' hpending hcommitted
  obtain ⟨p, hp, hl⟩ := hps.exists_mem hp'
  rw [hl.stamp]
  exact h (ht.symm.trans hone) time htime p hp (hl.record.pending hpending)
    (hl.record.committed.symm.trans hcommitted)

namespace Follows

variable {clock now : Nat} {c : Course} {t : ProbeQualityTracker} {ps : List Probe}
    {id : UInt32} {p : Probe}

theorem later (h : Follows clock c t ps) (hle : clock ≤ now) : Follows now c t ps :=
  { h with
    sent_le := fun p hp => Nat.le_trans (h.sent_le p hp) hle
    early := fun p hp he =>
      ⟨(h.early p hp he).1, Nat.le_trans (h.early p hp he).2.1 hle, (h.early p hp he).2.2⟩
    lastReply :=
      fun time htime => ⟨Nat.le_trans (h.lastReply time htime).1 hle, (h.lastReply time htime).2⟩
    referred := fun time htime => Nat.le_trans (h.referred time htime) hle }

/-- Losing records and settling them is no event. -/
theorem left (h : Follows clock c t ps) {ps' : List Probe} (hps : Left ps' ps) :
    Follows clock c { t with records := ps'.map Prod.snd } ps' :=
  { h with
    records := rfl
    stamped := by
      intro p' hp'
      obtain ⟨p, hp, hl⟩ := hps.exists_mem hp'
      refine ⟨?_, fun he => ?_⟩
      · rw [hl.record.sent, hl.stamp]
        exact (h.stamped p hp).sent
      · obtain ⟨he', hat⟩ := hl.record.early he
        rw [hat, hl.stamp]
        exact (h.stamped p hp).replyAt he'
    sorted := hps.sorted h.sorted
    sent_le := by
      intro p' hp'
      obtain ⟨p, hp, hl⟩ := hps.exists_mem hp'
      rw [hl.stamp]
      exact h.sent_le p hp
    early := by
      intro p' hp' he'
      obtain ⟨p, hp, hl⟩ := hps.exists_mem hp'
      obtain ⟨hsent, hclock, hwindow⟩ := h.early p hp (hl.record.early he').1
      rw [hl.stamp]
      refine ⟨hsent, hclock, fun a' ha' => ?_⟩
      obtain ⟨a, ha, hla⟩ := hps.exists_mem ha'
      rw [hla.stamp]
      exact hwindow a ha
    enabled := by
      intro p' hp' hpending
      obtain ⟨p, hp, hl⟩ := hps.exists_mem hp'
      exact h.enabled p hp (hl.record.pending hpending)
    lastReply := by
      intro time htime
      refine ⟨(h.lastReply time htime).1, fun a' ha' => ?_⟩
      obtain ⟨a, ha, hla⟩ := hps.exists_mem ha'
      rw [hla.stamp]
      exact (h.lastReply time htime).2 a ha }

theorem counted_of_outage (h : Follows clock c t ps) (hout : t.outage) : t.recoveryReplies ≤ 1 := by
  have hle := h.counted
  rwa [if_pos hout] at hle

theorem counted_of_not_outage (h : Follows clock c t ps) (hout : t.outage = false) :
    t.recoveryReplies = 0 := by
  have hle := h.counted
  rw [hout] at hle
  exact Nat.le_zero.mp hle

/-- The time of the last reply, while there is one. -/
theorem exists_lastAccepted (h : Follows clock c t ps) (hreply : t.hasReply) :
    ∃ time, c.lastAccepted = some time ∧ t.lastReply = UInt32.ofNat time := by
  have hlast := h.lastAccepted
  rw [if_pos hreply] at hlast
  obtain ⟨time, htime, heq⟩ := Option.map_eq_some_iff.mp hlast
  exact ⟨time, htime, heq.symm⟩

theorem fail (h : Follows clock c t ps) (queue transport : Bool) :
    Follows clock c { t with queueSendFailure := queue, transportSendFailure := transport } ps :=
  { h with }

/-- On a path without local failures the outage is asserted again unless the
    reply before was less than ten seconds ago. -/
theorem prompt (h : Follows clock c t ps) (hle : clock ≤ now) (henabled : t.enabled)
    (hstarted : t.started) (hqueue : t.queueSendFailure = false)
    (htransport : t.transportSendFailure = false)
    (hnear : t.recoveryReplies = 1 → ∀ time ∈ c.lastAccepted, now < time + 2 ^ 32)
    (hout : t.isOut (UInt32.ofNat now) = false) : Prompt c t ps := by
  intro hone time htime p hp _ _
  obtain ⟨-, hreply, href⟩ := h.recovering hone
  obtain ⟨last, hlast, heq⟩ := h.exists_lastAccepted hreply
  obtain rfl := Option.some.inj (hlast.symm.trans htime)
  have hsent := h.sent_le p hp
  simp only [isOut, henabled, hstarted, hqueue, htransport, Bool.not_false, Bool.and_true,
    Bool.true_and, decide_eq_false_iff_not] at hout
  rw [href, heq, le_age_ofNat (Nat.le_trans (h.lastReply last htime).1 hle) (hnear hone last htime)]
    at hout
  change ¬ last + 10000 ≤ now at hout
  omega

/-- On the probes that are given up while the replies are counted, the sign of
    the difference is the order of the times. -/
theorem delaysRecovery_iff (h : Follows clock c t ps) (hprompt : Prompt c t ps)
    (hone : t.recoveryReplies = 1) (hp : p ∈ ps) {now : UInt32} (hout : timesOut now p.2) :
    t.delaysRecovery p.2 ↔ ∀ time ∈ c.lastAccepted, time ≤ p.1.sent := by
  obtain ⟨-, hreply, -⟩ := h.recovering hone
  obtain ⟨last, hlast, heq⟩ := h.exists_lastAccepted hreply
  rw [timesOut, decide_eq_true_eq] at hout
  have hafter := hprompt hone last hlast p hp hout.1 hout.2.1
  have hbefore := (h.lastReply last hlast).2 p hp
  rw [delaysRecovery, hreply, Bool.not_true, Bool.false_or, decide_eq_true_eq,
    (h.stamped p hp).sent, heq, nonneg_iff_le (by omega) (by omega), hlast]
  simp

theorem loses_iff (h : Follows clock c t ps) (hprompt : Prompt c t ps)
    (hone : t.recoveryReplies = 1) {now : UInt32} :
    t.loses now ↔ ∃ p ∈ ps.filter (fun p => timesOut now p.2), ∀ time ∈ c.lastAccepted,
    time ≤ p.1.sent := by
  rw [loses, ← h.records, List.any_map, List.any_eq_true]
  simp only [Function.comp_apply, Bool.and_eq_true, List.mem_filter]
  constructor
  · rintro ⟨p, hp, hout, hdelays⟩
    exact ⟨p, ⟨hp, hout⟩, (h.delaysRecovery_iff hprompt hone hp hout).mp hdelays⟩
  · rintro ⟨p, ⟨hp, hout⟩, hle⟩
    exact ⟨p, hp, hout, (h.delaysRecovery_iff hprompt hone hp hout).mpr hle⟩

/-- One pass of `expire`. -/
theorem expire (h : Follows clock c t ps) (hle : clock ≤ now)
    (hprompt : t.isOut (UInt32.ofNat now) = false → Prompt c t ps) :
    Follows now ((t.expireEvents (UInt32.ofNat now) ps).foldl Course.step c)
    (t.expire (UInt32.ofNat now))
      (passed (UInt32.ofNat now) ps) := by
  have hleft := (h.later hle).left (show Left (passed (UInt32.ofNat now) ps) ps from left_passed ps)
  rw [passed_records h.records, expire_records] at hleft
  unfold expireEvents
  rw [List.foldl_append, foldl_lost, expire_eq]
  cases hout : t.isOut (UInt32.ofNat now) with
  | true =>
    have hstarted : t.started := by
      simp only [isOut, Bool.and_eq_true] at hout
      exact hout.1.1.1.2
    simp only [Bool.or_true, Bool.true_or, if_true]
    exact
      { hleft with
        reference := fun hclear => absurd hclear (by simp)
        replies := fun _ => rfl
        started := fun _ => hstarted
        recovering := fun hone => absurd hone (by simp)
        counted := Nat.zero_le _ }
  | false =>
    simp only [Bool.or_false, Bool.false_or, if_false, Bool.false_eq_true, List.foldl_nil]
    refine { hleft with replies := fun hset => ?_, recovering := fun hone => ?_, counted := ?_ }
    · change (if _ then 0 else c.replies) = _
      rw [h.replies hset]
      rcases Nat.le_one_iff_eq_zero_or_eq_one.mp (h.counted_of_outage hset) with hzero | hone
      · rw [hzero, ite_self, ite_self]
      · simp only [h.loses_iff (hprompt hout) hone]
    · change (if t.loses (UInt32.ofNat now) then 0 else t.recoveryReplies) = 1 at hone
      split at hone
      · exact absurd hone (by decide)
      · exact h.recovering hone
    · change (if t.loses (UInt32.ofNat now) then 0 else t.recoveryReplies) ≤ if t.outage then 1
        else 0
      split
      · exact Nat.zero_le _
      · exact h.counted

end Follows

namespace Follows

variable {clock now : Nat} {c : Course} {t : ProbeQualityTracker} {ps : List Probe}
    {id : UInt32} {p : Probe}

/-- A write that keeps the send time. -/
theorem store (h : Follows clock c t ps) (hfind : findProbe id ps = some p) {w : Probe}
    (hsent : w.1.sent = p.1.sent) (hstamped : Stamped w)
    (hearly : w.2.earlyReply → w.1.sent ≤ w.1.replyAt ∧ w.1.replyAt ≤ clock ∧ ∀ a ∈ ps,
      w.1.replyAt < a.1.sent + 60000) :
    Follows clock c (t.store id w.2) (writeProbe id w ps) := by
  have hmem : ∀ a ∈ writeProbe id w ps, ∃ b ∈ ps, b.1.sent = a.1.sent :=
    fun a ha => exists_of_mem_writeProbe hsent hfind ha
  refine
    { h with
      records := ?_, stamped := ?_, sorted := ?_, sent_le := ?_, early := ?_, enabled := ?_,
      lastReply := ?_ }
  · rw [writeProbe_records, h.records]
    rfl
  · intro a ha
    rcases mem_writeProbe ha with rfl | ha
    · exact hstamped
    · exact h.stamped a ha
  · have hsorted := List.pairwise_map.mpr h.sorted
    rw [← map_writeProbe (f := (·.1.sent)) hsent hfind] at hsorted
    exact List.pairwise_map.mp hsorted
  · intro a ha
    obtain ⟨b, hb, hab⟩ := hmem a ha
    rw [← hab]
    exact h.sent_le b hb
  · intro a ha he
    have hbound : a.1.sent ≤ a.1.replyAt ∧ a.1.replyAt ≤ clock ∧
        ∀ b ∈ ps, a.1.replyAt < b.1.sent + 60000 := by
      rcases mem_writeProbe ha with rfl | ha'
      · exact hearly he
      · exact h.early a ha' he
    refine ⟨hbound.1, hbound.2.1, fun b hb => ?_⟩
    obtain ⟨b', hb', hbb⟩ := hmem b hb
    rw [← hbb]
    exact hbound.2.2 b' hb'
  · intro a ha _
    exact h.enabled p (mem_of_findProbe hfind) (pending_of_findProbe hfind).2
  · intro time htime
    refine ⟨(h.lastReply time htime).1, fun b hb => ?_⟩
    obtain ⟨b', hb', hbb⟩ := hmem b hb
    rw [← hbb]
    exact (h.lastReply time htime).2 b' hb'

/-- Accepting a reply. -/
theorem accept (h : Follows clock c t ps) (hfind : findProbe id ps = some p) {w : ProbeRecord}
    (hsent : w.sent = p.2.sent) (hearly : w.earlyReply → p.2.earlyReply ∧ w.replyAt = p.2.replyAt)
    {time : Nat} (hclock : time ≤ clock) (hwindow : ∀ a ∈ ps, time < a.1.sent + 60000) :
    Follows clock (c.step (.accepted time)) (t.acceptReply id w (UInt32.ofNat time))
      (writeProbe id (p.1, { w with state := .replied }) ps) := by
  have hmem := mem_of_findProbe hfind
  have hstored : Follows clock c (t.store id { w with state := .replied })
      (writeProbe id (p.1, { w with state := .replied }) ps) := by
    apply h.store (w := (p.1, { w with state := .replied })) hfind rfl
    · refine ⟨hsent.trans (h.stamped p hmem).sent, fun he => ?_⟩
      obtain ⟨he', hat⟩ := hearly he
      exact hat.trans ((h.stamped p hmem).replyAt he')
    · intro he
      exact h.early p hmem (hearly he).1
  have hwindow' : ∀ a ∈ writeProbe id (p.1, { w with state := .replied }) ps,
      time < a.1.sent + 60000 := by
    intro a ha
    obtain ⟨b, hb, hab⟩ := exists_of_mem_writeProbe (p := p)
      (w := (p.1, { w with state := .replied })) rfl hfind ha
    rw [← hab]
    exact hwindow b hb
  have hlast : ∀ last ∈ some time, last ≤ clock ∧
      ∀ a ∈ writeProbe id (p.1, { w with state := .replied }) ps, last < a.1.sent + 60000 := by
    intro last hlast
    obtain rfl := Option.some.inj hlast
    exact ⟨hclock, hwindow'⟩
  have hreferred : ∀ last ∈ some time, last ≤ clock := fun last hin => (hlast last hin).1
  unfold acceptReply countRecovery
  split
  · rename_i hout
    change t.outage = true at hout
    split
    · exact
        { hstored with
          lastAccepted := rfl
          lastReply := hlast
          reference := fun _ _ => rfl
          referred := hreferred
          replies := fun hset => absurd hset (by simp)
          started := fun hset => absurd hset (by simp)
          recovering := fun hone => absurd hone (by simp)
          counted := Nat.zero_le _ }
    · rename_i hfirst
      change ¬ 2 ≤ t.recoveryReplies + 1 at hfirst
      refine
        { hstored with
          lastAccepted := rfl
          lastReply := hlast
          reference := fun _ _ => rfl
          referred := hreferred
          replies := fun _ => congrArg (· + 1) (h.replies hout)
          recovering := fun _ => ⟨hout, rfl, rfl⟩
          counted := ?_ }
      change t.recoveryReplies + 1 ≤ if t.outage then 1 else 0
      rw [if_pos hout]
      omega
  · rename_i hout
    change ¬ t.outage = true at hout
    exact
      { hstored with
        lastAccepted := rfl
        lastReply := hlast
        reference := fun _ _ => rfl
        referred := hreferred
        replies := fun hset => absurd hset hout
        recovering := fun hone => absurd (h.recovering hone).1 hout }

theorem refer (h : Follows clock c t ps) (failed : Bool) {sent : Nat} (hle : sent ≤ clock) :
    Follows clock ((t.referEvents failed sent).foldl Course.step c)
    (t.refer failed (UInt32.ofNat sent)) ps := by
  have hreferred : ∀ time ∈ some sent, time ≤ clock := by
    intro time htime
    obtain rfl := Option.some.inj htime
    exact hle
  rw [refer_eq]
  unfold referEvents
  cases hstarted : t.started with
  | false =>
    -- a tracker that has not started counts no replies
    have hcourse :
      (((if failed then [Event.recovered sent] else []) ++ [Event.started sent]).foldl
        Course.step c) =
        { c with reference := some sent } := by
      cases failed <;> rfl
    simp only [Bool.false_eq_true, if_false, Bool.not_false, Bool.or_true, if_true]
    rw [hcourse]
    refine
      { h with
        reference := fun _ _ => rfl, referred := hreferred, started := fun _ => rfl,
        recovering := fun hone => ?_ }
    have hset := h.started (h.recovering hone).1
    rw [hstarted] at hset
    exact absurd hset Bool.false_ne_true
  | true =>
    simp only [if_true, List.append_nil, Bool.not_true, Bool.or_false]
    cases failed with
    | false =>
      simp only [Bool.false_eq_true, if_false, Bool.false_and, List.foldl_nil]
      exact { h with
        reference := fun hclear _ => h.reference hclear hstarted, started := fun _ => rfl }
    | true =>
      simp only [if_true, Bool.true_and]
      refine
        { h with
          reference := fun hclear _ => ?_, referred := hreferred, started := fun _ => rfl,
          recovering := fun hone => ?_ }
      · change t.outage = false at hclear
        rw [hclear]
        rfl
      · -- a tracker that counts replies is in an outage and keeps its reference
        obtain ⟨hout, hreply, href⟩ := h.recovering hone
        refine ⟨hout, hreply, ?_⟩
        simpa [hout] using href

/-- Handing a probe over leaves its times and those of the others. -/
theorem commit (h : Follows clock c t ps) (hfind : findProbe id ps = some p) (failed : Bool) :
    ∃ ps', ps'.map Prod.fst = ps.map Prod.fst ∧
      Follows clock ((t.commitEvents failed p).foldl Course.step c)
      (t.commit id failed p.2) ps' := by
  have hmem := mem_of_findProbe hfind
  have hstamped := h.stamped p hmem
  have hreferred := h.refer failed (h.sent_le p hmem)
  rw [← hstamped.sent] at hreferred
  unfold commitEvents
  rw [List.foldl_append]
  unfold ProbeQualityTracker.commit
  dsimp only
  by_cases hearly : p.2.earlyReply
  · obtain ⟨-, hclock, hwindow⟩ := h.early p hmem hearly
    have haccepted := hreferred.accept (w := { p.2 with committed := true }) hfind rfl
      (fun he => ⟨he, rfl⟩)
      hclock hwindow
    rw [← hstamped.replyAt hearly] at haccepted
    rw [if_pos hearly, if_pos hearly]
    refine ⟨_, ?_, haccepted⟩
    exact map_writeProbe (p := p) rfl hfind
  · have hstored := hreferred.store (w := (p.1, { p.2 with committed := true })) hfind rfl
      ⟨hstamped.sent, hstamped.replyAt⟩ (fun he => absurd he hearly)
    rw [if_neg hearly, if_neg hearly]
    refine ⟨_, ?_, hstored⟩
    exact map_writeProbe (p := p) rfl hfind

/-- A probe that begins now. -/
theorem push (h : Follows now c t ps) (henabled : t.enabled) (id : UInt32) :
    Follows now c { t with records := t.records ++ [{ id := id, sent := UInt32.ofNat now }] }
      (ps ++ [({ sent := now }, { id := id, sent := UInt32.ofNat now })]) := by
  have hold : ∀ a ∈ ps ++ [(({ sent := now }, { id := id, sent := UInt32.ofNat now }) : Probe)],
      a ∈ ps ∨ a = ({ sent := now }, { id := id, sent := UInt32.ofNat now }) := by
    intro a ha
    simpa using ha
  have hwindow : ∀ {time : Nat}, time ≤ now → time < now + 60000 := by
    intro time htime
    omega
  refine
    { h with
      records := ?_, stamped := ?_, sorted := ?_, sent_le := ?_, early := ?_,
      enabled := fun _ _ _ => henabled,
      lastReply := ?_ }
  · rw [List.map_append, h.records]
    rfl
  · intro a ha
    rcases hold a ha with ha | rfl
    · exact h.stamped a ha
    · exact ⟨rfl, fun he => absurd he Bool.false_ne_true⟩
  · refine List.pairwise_append.mpr ⟨h.sorted, List.pairwise_singleton _ _, fun a ha b hb => ?_⟩
    obtain rfl := List.mem_singleton.mp hb
    exact h.sent_le a ha
  · intro a ha
    rcases hold a ha with ha | rfl
    · exact h.sent_le a ha
    · exact Nat.le_refl _
  · intro a ha hearly
    rcases hold a ha with ha | rfl
    · obtain ⟨hsent, hclock, hall⟩ := h.early a ha hearly
      refine ⟨hsent, hclock, fun b hb => ?_⟩
      rcases hold b hb with hb | rfl
      · exact hall b hb
      · exact hwindow hclock
    · exact absurd hearly Bool.false_ne_true
  · intro time htime
    obtain ⟨hclock, hall⟩ := h.lastReply time htime
    refine ⟨hclock, fun b hb => ?_⟩
    rcases hold b hb with hb | rfl
    · exact hall b hb
    · exact hwindow hclock

/-- The reply that ends an outage is the second. -/
theorem second (h : Follows clock c t ps) (hset : t.outage) {w : ProbeRecord} {time : Nat}
    (hclear : (t.acceptReply id w (UInt32.ofNat time)).outage = false) :
    (c.step (.accepted time)).replies = 2 := by
  have hle := h.counted_of_outage hset
  rw [acceptReply_outage, hset, Bool.true_and, decide_eq_false_iff_not] at hclear
  change c.replies + 1 = 2
  rw [h.replies hset]
  omega

/-- Committing a probe ends the outage only by its early reply. -/
theorem second_of_commit (h : Follows clock c t ps) (hfind : findProbe id ps = some p)
    (failed : Bool) (hset : t.outage) (hclear : (t.commit id failed p.2).outage = false) :
    ∃ time es, t.commitEvents failed p = es ++ [.accepted time] ∧
      ((es ++ [Event.accepted time]).foldl Course.step c).replies = 2 := by
  have hmem := mem_of_findProbe hfind
  have hstamped := h.stamped p hmem
  have hreferred := h.refer failed (h.sent_le p hmem)
  rw [← hstamped.sent] at hreferred
  have hset' : (t.refer failed p.2.sent).outage = true := (refer_outage failed p.2.sent).trans hset
  unfold ProbeQualityTracker.commit at hclear
  dsimp only at hclear
  by_cases hearly : p.2.earlyReply
  · rw [if_pos hearly] at hclear
    refine ⟨p.1.replyAt, t.referEvents failed p.1.sent, ?_, ?_⟩
    · rw [commitEvents, if_pos hearly]
    · rw [List.foldl_append]
      rw [hstamped.replyAt hearly] at hclear
      exact hreferred.second hset' hclear
  · rw [if_neg hearly] at hclear
    exact absurd (hset'.symm.trans hclear) (by decide)

/-- The flag is set by a pass only after ten seconds of silence on a path that
    is up. -/
theorem asserts (h : Follows clock c t ps) (hle : clock ≤ now) (hclear : t.outage = false)
    (hset : (t.expire (UInt32.ofNat now)).outage) :
    ∃ ref es, t.expireEvents (UInt32.ofNat now) ps = es ++ [.asserted] ∧
      (es.foldl Course.step c).reference = some ref ∧ ref + 10000 ≤ now ∧ t.enabled ∧ t.started ∧
      t.queueSendFailure = false ∧ t.transportSendFailure = false := by
  have hout : t.isOut (UInt32.ofNat now) := by
    rwa [expire_outage, hclear, Bool.false_or] at hset
  have hparts := hout
  simp only [isOut, Bool.and_eq_true, Bool.not_eq_true', decide_eq_true_eq] at hparts
  obtain ⟨⟨⟨⟨henabled, hstarted⟩, hqueue⟩, htransport⟩, hage⟩ := hparts
  obtain ⟨ref, href, heq⟩ := Option.map_eq_some_iff.mp (h.reference hclear hstarted)
  -- whole turns of the clock only make the silence longer
  have hturns := toNat_age_le (Nat.le_trans (h.referred ref href) hle)
  rw [← heq, UInt32.le_iff_toNat_le] at hage
  change 10000 ≤ _ at hage
  refine ⟨ref, _, by rw [expireEvents, if_pos hout], ?_, by omega, henabled, hstarted,
    hqueue, htransport⟩
  rw [foldl_lost]
  exact href

end Follows

/-! ### Runs -/

/-- A tracker at `clock`, with its probes and the events so far. -/
structure Watched (clock : Nat) (t : ProbeQualityTracker) (ps : List Probe) (log : List Event) :
    Prop where
  follows : Follows clock (course log) t ps
  prompt : Prompt (course log) t ps

/-- What the tracker still compares at `now` is less than a turn of the clock
    old: the probes it keeps and, while the first of the two replies is
    counted, that reply. -/
structure Near (now : Nat) (t : ProbeQualityTracker) (ps : List Probe) (log : List Event) :
    Prop where
  probes : ∀ p ∈ ps, now < p.1.sent + 2 ^ 32
  lastReply : t.recoveryReplies = 1 → ∀ time ∈ (course log).lastAccepted, now < time + 2 ^ 32

namespace Watched

variable {clock now : Nat} {t : ProbeQualityTracker} {ps : List Probe} {log : List Event}

theorem later (h : Watched clock t ps log) (hle : clock ≤ now) : Watched now t ps log :=
  ⟨h.follows.later hle, h.prompt⟩

theorem left (h : Watched clock t ps log) {ps' : List Probe} (hps : Left ps' ps) :
    Watched clock { t with records := ps'.map Prod.snd } ps' log :=
  ⟨h.follows.left hps, h.prompt.left rfl hps⟩

theorem fail (h : Watched clock t ps log) (queue transport : Bool) :
    Watched clock { t with queueSendFailure := queue, transportSendFailure := transport } ps log :=
  ⟨h.follows.fail queue transport, h.prompt⟩

/-- One pass of `expire`, on a tracker whose prompt probes are known unless the pass sets
    the flag. -/
theorem of_pass (hfollows : Follows clock (course log) t ps) (hle : clock ≤ now)
    (hprompt : t.isOut (UInt32.ofNat now) = false → Prompt (course log) t ps) :
    Watched now (t.expire (UInt32.ofNat now)) (passed (UInt32.ofNat now) ps)
      (log ++ t.expireEvents (UInt32.ofNat now) ps) where
  follows := by
    rw [course_append]
    exact hfollows.expire hle hprompt
  prompt := by
    intro hone
    obtain ⟨hout, -, hone'⟩ := recoveryReplies_of_expire hone
    have hlast : (course (log ++ t.expireEvents (UInt32.ofNat now) ps)).lastAccepted =
        (course log).lastAccepted := by
      rw [course_append, expireEvents, List.foldl_append, foldl_lost, hout]
      rfl
    rw [hlast]
    exact (hprompt hout).left (hone'.symm ▸ hone) (left_passed ps) hone

theorem expire (h : Watched clock t ps log) (hle : clock ≤ now) :
    Watched now (t.expire (UInt32.ofNat now)) (passed (UInt32.ofNat now) ps)
      (log ++ t.expireEvents (UInt32.ofNat now) ps) :=
  of_pass h.follows hle fun _ => h.prompt

/-- What the pass leaves is younger than the window. -/
theorem recent (h : Watched clock t ps log) (hle : clock ≤ now) (hnear : Near now t ps log) :
    ∀ p ∈ passed (UInt32.ofNat now) ps, now < p.1.sent + 60000 :=
  recent_of_passed h.follows.sorted h.follows.stamped
    fun p hp => ⟨Nat.le_trans (h.follows.sent_le p hp) hle, hnear.probes p hp⟩

theorem suspend (h : Watched clock t ps log) : Watched clock t.suspend (settled ps) log := by
  have hleft := h.left (left_sublist
    (List.filter_sublist (p := fun p : Probe => decide (p.2.state ≠ .pending))))
  have hrecords : (settled ps).map Prod.snd = t.suspend.records := by
    change _ = t.records.filter fun r => decide (r.state ≠ .pending)
    rw [← h.follows.records, List.filter_map]
    rfl
  refine ⟨{ hleft.follows with records := hrecords, enabled := fun p hp hpending => ?_ },
    hleft.prompt⟩
  have hne := (List.mem_filter.mp hp).2
  rw [decide_eq_true_eq] at hne
  exact absurd hpending hne

theorem reset (clock : Nat) (t : ProbeQualityTracker) (log : List Event) :
    Watched clock t.reset [] (log ++ [.cleared]) where
  follows := by
    rw [course_append]
    exact
      { records := rfl, stamped := nofun, sorted := .nil, sent_le := nofun, early := nofun,
        enabled := nofun, lastAccepted := rfl, lastReply := nofun, reference := nofun,
        referred := nofun, replies := nofun, started := nofun, recovering := nofun,
        counted := Nat.zero_le _ }
  prompt := nofun

theorem enable (h : Watched clock t ps log) (kind : Int) :
    Watched clock { t with pathKind := kind, enabled := true } ps log :=
  ⟨{ h.follows with enabled := fun _ _ _ => rfl }, h.prompt⟩

end Watched

/-! ### The calls -/

section Calls

variable {clock now : Nat} {t : ProbeQualityTracker} {ps : List Probe} {log : List Event}

theorem referEvents_lastAccepted (c : Course) (failed : Bool) (sent : Nat) :
    ((t.referEvents failed sent).foldl Course.step c).lastAccepted = c.lastAccepted := by
  unfold referEvents
  cases failed <;> cases t.started <;> rfl

theorem writeProbe_stamps {id : UInt32} {w w' : Probe} (h : w.1 = w'.1) :
    (writeProbe id w ps).map Prod.fst = (writeProbe id w' ps).map Prod.fst := by
  induction ps with
  | nil => rfl
  | cons p ps ih =>
    unfold writeProbe
    split
    · rw [List.map_cons, List.map_cons, h]
    · rw [List.map_cons, List.map_cons, ih]

theorem Watched.setPath (h : Watched clock t ps log) (kind : Int) :
    ∃ ps', ps'.map Prod.fst = t.stamps ps (.setPath kind) ∧
      Watched clock (t.setPath kind) ps' (log ++ t.events ps (.setPath kind)) := by
  unfold ProbeQualityTracker.setPath stamps events
  dsimp only
  by_cases hzero : kind = 0
  · refine ⟨settled ps, by rw [if_pos hzero], ?_⟩
    simpa [hzero] using h.suspend
  · by_cases hkind : t.pathKind ≠ kind
    · refine ⟨[], by rw [if_neg hzero, if_pos hkind, List.map_nil], ?_⟩
      simpa [hzero, hkind] using (Watched.reset clock t log).enable kind
    · refine ⟨ps, by rw [if_neg hzero, if_neg hkind], ?_⟩
      simpa [hzero, hkind] using h.enable t.pathKind

theorem Watched.beginProbe (h : Watched clock t ps log) (hle : clock ≤ now) (id : UInt32) :
    ∃ ps', ps'.map Prod.fst = t.stamps ps (.beginProbe now id) ∧
      Watched now (t.beginProbe (UInt32.ofNat now) id).2 ps'
      (log ++ t.events ps (.beginProbe now id)) := by
  have hexpired := h.expire hle
  unfold ProbeQualityTracker.beginProbe stamps
  dsimp only
  rw [← t.expire_enabled (UInt32.ofNat now)]
  split
  · rename_i henabled
    refine ⟨passed (UInt32.ofNat now) ps ++
      [({ sent := now }, { id := id, sent := UInt32.ofNat now })], ?_, ?_, ?_⟩
    · rw [List.map_append]
      rfl
    · exact hexpired.follows.push henabled id
    · intro hone time htime p hp hpending hcommitted
      rcases List.mem_append.mp hp with hp | hp
      · exact hexpired.prompt hone time htime p hp hpending hcommitted
      · obtain rfl := List.mem_singleton.mp hp
        exact absurd hcommitted Bool.false_ne_true
  · exact ⟨_, (List.append_nil _).symm, hexpired⟩

/-- Of a tracker whose readings were near, the readings are near after the hand-over. -/
theorem Follows.near_handed (h : Follows clock (course log) t ps) (hnear : Near now t ps log)
    {id : UInt32} {p : Probe} (hfind : findProbe id ps = some p) (failed : Bool)
    (hone : (t.handed id p.2).recoveryReplies = 1) :
    ∀ time ∈ ((t.commitEvents failed p).foldl Course.step (course log)).lastAccepted,
    now < time + 2 ^ 32 := by
  have hmem := mem_of_findProbe hfind
  unfold commitEvents
  rw [List.foldl_append]
  by_cases hearly : p.2.earlyReply
  · rw [if_pos hearly]
    intro time htime
    obtain rfl : p.1.replyAt = time := Option.some.inj htime
    have hbefore := (h.early p hmem hearly).1
    have hkept := hnear.probes p hmem
    omega
  · rw [if_neg hearly, List.foldl_nil, referEvents_lastAccepted]
    apply hnear.lastReply
    unfold handed ProbeQualityTracker.commit at hone
    dsimp only at hone
    rw [if_neg hearly, refer_eq] at hone
    exact hone

theorem Watched.completeSend (h : Watched clock t ps log) (hle : clock ≤ now)
    (hnear : Near now t ps log) (id : UInt32) (success : Bool) :
    ∃ ps', ps'.map Prod.fst = t.stamps ps (.completeSend id now success) ∧
      Watched now (t.completeSend id (UInt32.ofNat now) success) ps'
        (log ++ t.events ps (.completeSend id now success)) := by
  have hlater := h.later hle
  unfold ProbeQualityTracker.completeSend stamps events
  dsimp only
  rw [findPending_eq h.follows.records]
  cases hfind : findProbe id ps with
  | none => exact ⟨ps, rfl, by simpa using hlater⟩
  | some p =>
    dsimp only [Option.map_some]
    by_cases hfailed : (!success || t.transportSendFailure) = true
    · rw [if_pos hfailed, if_pos hfailed, if_pos hfailed, List.append_nil]
      have hleaves : LeavesProbe (p.1, { p.2 with state := .sendFailed, earlyReply := false }) p :=
        ⟨rfl, rfl, rfl, nofun, nofun⟩
      have hleft :=
        (hlater.fail (!success) t.transportSendFailure).left (left_writeProbe hleaves hfind)
      rw [writeProbe_records, h.follows.records] at hleft
      refine ⟨_, ?_, hleft⟩
      exact map_writeProbe (p := p) rfl hfind
    · rw [if_neg hfailed, if_neg hfailed, if_neg hfailed]
      simp only [Bool.or_eq_true, Bool.not_eq_true', not_or, Bool.not_eq_false,
        Bool.not_eq_true] at hfailed
      obtain ⟨rfl, htransport⟩ := hfailed
      obtain ⟨qs, hstamps, hfollows⟩ :=
        (hlater.fail false t.transportSendFailure).follows.commit hfind
        (t.queueSendFailure || t.transportSendFailure)
      have hzip : t.handedProbes id p ps = qs := (List.zip_of_prod hstamps hfollows.records).symm
      obtain ⟨henabled, hstarted, hq, htr⟩ :=
        @commit_flags { t with
          queueSendFailure := false } id p.2 (t.queueSendFailure || t.transportSendFailure)
      have hup := h.follows.enabled p (mem_of_findProbe hfind) (pending_of_findProbe hfind).2
      have hprompt :=
        hfollows.prompt (Nat.le_refl now) (henabled.trans hup) hstarted hq (htr.trans htransport)
        (h.follows.near_handed hnear hfind _)
      rw [hzip, ← List.append_assoc]
      refine ⟨passed (UInt32.ofNat now) qs, rfl, ?_⟩
      rw [← course_append] at hfollows hprompt
      exact Watched.of_pass hfollows (Nat.le_refl now) hprompt

/-- After the transport has recovered, silence is counted from now on unless
    there is an outage. -/
theorem Watched.resume (h : Watched now t ps log) :
    Watched now (if true && !t.outage then { t with reference := UInt32.ofNat now } else t) ps
      (log ++ [.recovered now]) := by
  have hreferred : ∀ time ∈ some now, time ≤ now := by
    intro time htime
    obtain rfl := Option.some.inj htime
    exact Nat.le_refl _
  by_cases hout : t.outage
  · rw [if_neg (by simp [hout])]
    refine ⟨?_, ?_⟩
    · rw [course_append]
      exact
        { h.follows with
          reference := fun hclear => absurd (hout.symm.trans hclear) (by decide)
          referred := hreferred }
    · rw [course_append]
      exact h.prompt
  · rw [if_pos (by simp [hout])]
    rw [Bool.not_eq_true] at hout
    have hzero := h.follows.counted_of_not_outage hout
    refine ⟨?_, ?_⟩
    · rw [course_append]
      exact
        { h.follows with
          reference := fun _ _ => rfl
          referred := hreferred
          recovering := fun hone => absurd (hzero.symm.trans hone) (by decide) }
    · intro hone
      exact absurd (hzero.symm.trans hone) (by decide)

theorem Watched.reportTransportSend (h : Watched clock t ps log) (hle : clock ≤ now)
    (success : Bool) :
    ∃ ps', ps'.map Prod.fst = t.stamps ps (.reportTransportSend now success) ∧
      Watched now (t.reportTransportSend (UInt32.ofNat now) success) ps'
        (log ++ t.events ps (.reportTransportSend now success)) := by
  have hexpired := h.expire hle
  unfold ProbeQualityTracker.reportTransportSend stamps events
  dsimp only
  rw [← List.append_assoc]
  cases success with
  | false =>
    have hfailed := hexpired.fail (t.expire (UInt32.ofNat now)).queueSendFailure true
    have hleft := hfailed.left (left_map leaves_cancel (List.Sublist.refl _))
    rw [map_snd_map, passed_records h.follows.records] at hleft
    refine ⟨(passed (UInt32.ofNat now) ps).map (Prod.map id cancel), map_fst_map cancel _, ?_⟩
    simpa using hleft
  | true =>
    have hcleared := hexpired.fail (t.expire (UInt32.ofNat now)).queueSendFailure false
    refine ⟨passed (UInt32.ofNat now) ps, rfl, ?_⟩
    simp only [expire_transportSendFailure, Bool.not_true, if_true, Bool.true_and]
    cases htransport : t.transportSendFailure with
    | false => simpa using hcleared
    | true => exact hcleared.resume

theorem Watched.reply (h : Watched clock t ps log) (hle : clock ≤ now) (hnear : Near now t ps log)
    (id : UInt32) :
    ∃ ps', ps'.map Prod.fst = t.stamps ps (.reply id now) ∧
      Watched now (t.reply id (UInt32.ofNat now)).2 ps' (log ++ t.events ps (.reply id now)) := by
  have hexpired := h.expire hle
  have hrecent := h.recent hle hnear
  unfold ProbeQualityTracker.reply stamps events
  dsimp only
  rw [← List.append_assoc]
  unfold replyEvents takesEarly noteEarly
  rw [findPending_eq hexpired.follows.records]
  generalize hps : passed (UInt32.ofNat now) ps = qs at hexpired hrecent ⊢
  generalize t.expire (UInt32.ofNat now) = t' at hexpired ⊢
  cases hfind : findProbe id qs with
  | none => exact ⟨qs, rfl, by simpa using hexpired⟩
  | some p =>
    have hmem := mem_of_findProbe hfind
    dsimp only [Option.map_some]
    cases hopen : (!t'.enabled || decide (TIMEOUT_MS ≤ UInt32.ofNat now - p.2.sent)) with
    | true =>
      have hclosed : (t'.enabled && !decide (TIMEOUT_MS ≤ UInt32.ofNat now - p.2.sent)) =
          false := by
        rw [← Bool.not_not (t'.enabled && _), Bool.not_and, Bool.not_not, hopen, Bool.not_true]
      simp only [hclosed, Bool.false_and, Bool.false_eq_true, if_false, if_true, List.append_nil]
      exact ⟨qs, rfl, hexpired⟩
    | false =>
      have hopened : (t'.enabled && !decide (TIMEOUT_MS ≤ UInt32.ofNat now - p.2.sent)) = true := by
        rw [← Bool.not_not (t'.enabled && _), Bool.not_and, Bool.not_not, hopen, Bool.not_false]
      simp only [hopened, Bool.true_and, Bool.false_eq_true, if_false]
      by_cases hcommitted : p.2.committed
      · rw [if_neg (by simp [hcommitted]), if_neg (by simp [hcommitted]), if_pos hcommitted]
        have haccepted :=
          hexpired.follows.accept hfind rfl (fun he => ⟨he, rfl⟩) (Nat.le_refl now) hrecent
        have hcourse : (course (log ++ t.expireEvents (UInt32.ofNat now) ps)).step (.accepted now) =
            course (log ++ t.expireEvents (UInt32.ofNat now) ps ++ [.accepted now]) := by
          rw [course_append _ [Event.accepted now]]
          rfl
        rw [hcourse] at haccepted
        refine ⟨writeProbe id (p.1, { p.2 with state := .replied }) qs, ?_, haccepted, ?_⟩
        · exact map_writeProbe (p := p) rfl hfind
        · intro _ time htime a ha _ _
          obtain rfl : now = time := by
            rw [← hcourse] at htime
            exact Option.some.inj htime
          have hsent := haccepted.sent_le a ha
          omega
      · by_cases hearly : p.2.earlyReply
        · rw [if_neg (by simp [hearly]), if_pos (by simp [hcommitted]), if_pos hearly,
            if_neg hcommitted, List.append_nil]
          exact ⟨qs, rfl, hexpired⟩
        · rw [if_pos (by simp [hcommitted, hearly]), if_pos (by simp [hcommitted]), if_neg hearly,
            if_neg hcommitted, List.append_nil]
          have hstored := hexpired.follows.store (p := p)
            (w := ({ p.1 with replyAt := now },
              { p.2 with earlyReply := true, replyAt := UInt32.ofNat now })) hfind rfl
            ⟨(hexpired.follows.stamped p hmem).sent, fun _ => rfl⟩
            (fun _ => ⟨hexpired.follows.sent_le p hmem, Nat.le_refl now, hrecent⟩)
          refine ⟨writeProbe id ({ p.1 with replyAt := now },
            { p.2 with earlyReply := true, replyAt := UInt32.ofNat now }) qs, writeProbe_stamps rfl,
            hstored, ?_⟩
          intro hone time htime a ha hpending hc
          rcases mem_writeProbe ha with rfl | ha
          · exact absurd hc hcommitted
          · exact hexpired.prompt hone time htime a ha hpending hc

/-- **One call**, for every operation. -/
theorem Watched.call (h : Watched clock t ps log) (op : Op Nat) (hle : ∀ now ∈ op.time, clock ≤ now)
    (hnear : ∀ now ∈ op.time, Near now t ps log) :
    ∃ ps', ps'.map Prod.fst = t.stamps ps op ∧
      Watched (op.time.getD clock) (t.call (reading op)).2 ps' (log ++ t.events ps op) := by
  cases op with
  | setPath kind => exact h.setPath kind
  | reset => exact ⟨[], rfl, Watched.reset clock t log⟩
  | suspend =>
    refine ⟨settled ps, rfl, ?_⟩
    rw [show t.events ps .suspend = [] from rfl, List.append_nil]
    exact h.suspend
  | beginProbe now id => exact h.beginProbe (hle now rfl) id
  | completeSend id now success => exact h.completeSend (hle now rfl) (hnear now rfl) id success
  | reportTransportSend now success => exact h.reportTransportSend (hle now rfl) success
  | reply id now => exact h.reply (hle now rfl) (hnear now rfl) id
  | snapshot now => exact ⟨_, rfl, h.expire (hle now rfl)⟩
  | latencyMs now =>
    refine ⟨ps, rfl, ?_⟩
    rw [show t.events ps (.latencyMs now) = [] from rfl, List.append_nil]
    exact h.later (hle now rfl)

end Calls

/-! ### Outages begin and end -/

/-- A tracker, the times of its records and the events so far. -/
structure Observed where
  tracker : ProbeQualityTracker := {}
  stamps : List Stamp := []
  log : List Event := []

namespace Observed

def probes (s : Observed) : List Probe := s.stamps.zip s.tracker.records

def next (s : Observed) (op : Op Nat) : Observed where
  tracker := (s.tracker.call (reading op)).2
  stamps := s.tracker.stamps s.probes op
  log := s.log ++ s.tracker.events s.probes op

/-- The tracker at the moment of the pass of `expire` in a call: before the
    call, except that `completeSend` comes to the pass last. -/
def checked (s : Observed) : Op Nat → ProbeQualityTracker
  | .completeSend id now success => (s.tracker.call (reading (.completeSend id now success))).2
  | _ => s.tracker

/-- How the call `op` may change the outage flag. -/
structure Hysteresis (s : Observed) (op : Op Nat) : Prop where
  asserts : s.tracker.outage = false → (s.next op).tracker.outage = true →
    ∃ now ∈ op.time, ∃ ref es es', s.tracker.events s.probes op = es ++ .asserted :: es' ∧
      (course (s.log ++ es)).reference = some ref ∧ ref + 10000 ≤ now ∧
      (s.checked op).enabled ∧ (s.checked op).started ∧ (s.checked op).queueSendFailure = false ∧
      (s.checked op).transportSendFailure = false
  clears : s.tracker.outage = true → (s.next op).tracker.outage = false →
    op = .reset ∨ (∃ kind, op = .setPath kind ∧ kind ≠ 0 ∧ s.tracker.pathKind ≠ kind) ∨
      ∃ time es es', s.tracker.events s.probes op = es ++ .accepted time :: es' ∧
        (course (s.log ++ es ++ [.accepted time])).replies = 2

/-- The observation at `clock`. -/
def At (clock : Nat) (s : Observed) : Prop :=
  s.probes.map Prod.fst = s.stamps ∧ Watched clock s.tracker s.probes s.log

section Flag

variable {clock now : Nat} {s : Observed} {op : Op Nat}

/-- A pass that the call begins with. -/
theorem At.asserts (h : At clock s) (hle : clock ≤ now) (hclear : s.tracker.outage = false)
    (hset : (s.tracker.expire (UInt32.ofNat now)).outage) (rest : List Event) :
    ∃ ref es es', s.tracker.expireEvents (UInt32.ofNat now) s.probes ++ rest =
    es ++ .asserted :: es' ∧
      (course (s.log ++ es)).reference = some ref ∧ ref + 10000 ≤ now ∧ s.tracker.enabled ∧
      s.tracker.started ∧
      s.tracker.queueSendFailure = false ∧ s.tracker.transportSendFailure = false := by
  obtain ⟨ref, es, hes, href, hrest⟩ := h.2.follows.asserts hle hclear hset
  refine ⟨ref, es, rest, by rw [hes, List.append_assoc]; rfl, ?_, hrest⟩
  rw [course_append]
  exact href

/-- The flag stays as the call found it. -/
theorem Hysteresis.of_same (h : (s.next op).tracker.outage = s.tracker.outage) :
    Hysteresis s op where
  asserts := fun hclear hset => absurd ((hclear.symm.trans h.symm).trans hset) (by decide)
  clears := fun hset hclear => absurd ((hset.symm.trans h.symm).trans hclear) (by decide)

/-- The flag is as the pass at the beginning of the call left it. -/
theorem At.hysteresis_of_expire (h : At clock s) (hle : clock ≤ now) (htime : op.time = some now)
    (hchecked : s.checked op = s.tracker) {rest : List Event}
    (hevents : s.tracker.events s.probes op =
      s.tracker.expireEvents (UInt32.ofNat now) s.probes ++ rest)
    (hout : (s.next op).tracker.outage = (s.tracker.expire (UInt32.ofNat now)).outage) :
    Hysteresis s op where
  asserts := by
    intro hclear hset
    have hfound := h.asserts hle hclear (hout.symm.trans hset) rest
    rw [hevents, hchecked]
    exact ⟨now, htime, hfound⟩
  clears := by
    intro hset hclear
    rw [hout, expire_outage, hset, Bool.true_or] at hclear
    exact absurd hclear (by decide)

theorem setPath_outage {t : ProbeQualityTracker} (kind : Int)
    (h : ¬ (kind ≠ 0 ∧ t.pathKind ≠ kind)) :
    (t.setPath kind).outage = t.outage := by
  unfold setPath
  split
  · rfl
  · rename_i hkind
    have hsame : t.pathKind = kind := by
      by_contra hne
      exact h ⟨hkind, hne⟩
    rw [if_neg (not_not.mpr hsame)]

theorem hysteresis_setPath (s : Observed) (kind : Int) : Hysteresis s (.setPath kind) := by
  by_cases hkind : kind ≠ 0 ∧ s.tracker.pathKind ≠ kind
  · refine ⟨fun _ hset => ?_, fun _ _ => .inr (.inl ⟨kind, rfl, hkind⟩)⟩
    have hfalse : (s.tracker.setPath kind).outage = false := by
      unfold ProbeQualityTracker.setPath
      rw [if_neg hkind.1, if_pos hkind.2]
      rfl
    exact absurd (hfalse.symm.trans hset) (by decide)
  · exact Hysteresis.of_same (setPath_outage kind hkind)

theorem reportTransportSend_outage {t : ProbeQualityTracker} (now : UInt32) (success : Bool) :
    (t.reportTransportSend now success).outage = (t.expire now).outage := by
  unfold reportTransportSend
  dsimp only
  split
  · split <;> rfl
  · rfl

theorem beginProbe_outage {t : ProbeQualityTracker} (now id : UInt32) :
    (t.beginProbe now id).2.outage = (t.expire now).outage := by
  unfold beginProbe
  dsimp only
  split <;> rfl

/-- `reply` leaves the flag as the pass left it, or accepts a reply. -/
theorem reply_outage {t : ProbeQualityTracker} (id : UInt32) (now : Nat) :
    (t.reply id (UInt32.ofNat now)).2.outage = (t.expire (UInt32.ofNat now)).outage ∨
      ∃ r, (t.expire (UInt32.ofNat now)).replyEvents id now = [.accepted now] ∧
        (t.reply id (UInt32.ofNat now)).2 = (t.expire (UInt32.ofNat now)).acceptReply id r
        (UInt32.ofNat now) := by
  unfold reply replyEvents
  dsimp only
  cases (t.expire (UInt32.ofNat now)).findPending id with
  | none => exact .inl rfl
  | some r =>
    dsimp only
    split
    · exact .inl rfl
    · rename_i hopen
      rw [Bool.or_eq_true, not_or, Bool.not_eq_true, Bool.not_eq_true, Bool.not_eq_false'] at hopen
      rw [hopen.1, hopen.2, Bool.not_false, Bool.true_and, Bool.true_and]
      split
      · split <;> exact .inl rfl
      · rename_i hcommitted
        rw [Bool.not_eq_true, Bool.not_eq_false'] at hcommitted
        exact .inr ⟨r, if_pos hcommitted, rfl⟩

theorem At.hysteresis_reply (h : At clock s) (hle : clock ≤ now) (id : UInt32) :
    Hysteresis s (.reply id now) := by
  rcases reply_outage (t := s.tracker) id now with hout | ⟨r, hevents, hafter⟩
  · exact h.hysteresis_of_expire hle rfl rfl rfl hout
  · have hexpired := h.2.expire hle
    refine ⟨fun hclear hset => ?_, fun hset hclear => .inr (.inr ?_)⟩
    · -- an accepted reply never sets the flag
      change (s.tracker.reply id (UInt32.ofNat now)).2.outage = true at hset
      rw [hafter, acceptReply_outage, Bool.and_eq_true] at hset
      exact ⟨now, rfl, h.asserts hle hclear hset.1 _⟩
    · change (s.tracker.reply id (UInt32.ofNat now)).2.outage = false at hclear
      rw [hafter] at hclear
      refine ⟨now, s.tracker.expireEvents (UInt32.ofNat now) s.probes, [], ?_, ?_⟩
      · change s.tracker.expireEvents _ _ ++ (s.tracker.expire _).replyEvents id now = _
        rw [hevents]
      · have hset' : (s.tracker.expire (UInt32.ofNat now)).outage := by
          rw [expire_outage, hset, Bool.true_or]
        rw [course_append _ [Event.accepted now]]
        exact hexpired.follows.second hset' hclear

/-- `completeSend` does nothing to the flag unless the probe was handed over. -/
theorem completeSend_cases {t : ProbeQualityTracker} {ps : List Probe}
    (hrecords : ps.map Prod.snd = t.records) (id : UInt32) (now : Nat) (success : Bool) :
    (t.completeSend id (UInt32.ofNat now) success).outage = t.outage ∨
      ∃ p, findProbe id ps = some p ∧
        t.completeSend id (UInt32.ofNat now) success = (t.handed id p.2).expire (UInt32.ofNat now) ∧
        t.events ps (.completeSend id now success) =
          t.commitEvents (t.queueSendFailure || t.transportSendFailure) p ++
            (t.handed id p.2).expireEvents (UInt32.ofNat now) (t.handedProbes id p ps) := by
  unfold completeSend events
  dsimp only
  rw [findPending_eq hrecords]
  cases findProbe id ps with
  | none => exact .inl rfl
  | some p =>
    dsimp only [Option.map_some]
    by_cases hfailed : (!success || t.transportSendFailure) = true
    · rw [if_pos hfailed]
      exact .inl rfl
    · rw [if_neg hfailed, if_neg hfailed]
      rw [Bool.or_eq_true, not_or, Bool.not_eq_true', Bool.not_eq_false] at hfailed
      obtain ⟨rfl, -⟩ := hfailed
      exact .inr ⟨p, rfl, rfl, rfl⟩

theorem At.hysteresis_completeSend (h : At clock s) (hle : clock ≤ now) (id : UInt32)
    (success : Bool) :
    Hysteresis s (.completeSend id now success) := by
  rcases completeSend_cases h.2.follows.records id now success with
    hsame | ⟨p, hfind, hafter, hevents⟩
  · exact Hysteresis.of_same hsame
  have hqueue := h.2.fail false s.tracker.transportSendFailure
  obtain ⟨qs, hstamps, hfollows⟩ :=
    hqueue.follows.commit hfind (s.tracker.queueSendFailure || s.tracker.transportSendFailure)
  have hzip : s.tracker.handedProbes id p s.probes = qs :=
    (List.zip_of_prod hstamps hfollows.records).symm
  rw [hzip] at hevents
  have hchecked : s.checked (.completeSend id now success) =
      s.tracker.completeSend id (UInt32.ofNat now) success := rfl
  refine ⟨fun hclear hset => ?_, fun hset hclear => .inr (.inr ?_)⟩
  · change (s.tracker.completeSend id (UInt32.ofNat now) success).outage = true at hset
    rw [hafter] at hset
    obtain ⟨ref, es, hes, href, hage, henabled, hstarted, hq, htr⟩ :=
      hfollows.asserts hle (commit_outage (t := { s.tracker with
        queueSendFailure := false }) hclear _) hset
    refine ⟨now, rfl, ref,
      s.tracker.commitEvents (s.tracker.queueSendFailure || s.tracker.transportSendFailure) p ++
      es, [],
      ?_, ?_, hage, ?_⟩
    · rw [hevents, List.append_assoc]
      exact congrArg (s.tracker.commitEvents _ p ++ ·) hes
    · rw [course_append, List.foldl_append]
      exact href
    · rw [hchecked, hafter, expire_enabled, expire_started, expire_queueSendFailure,
        expire_transportSendFailure]
      exact ⟨henabled, hstarted, hq, htr⟩
  · change (s.tracker.completeSend id (UInt32.ofNat now) success).outage = false at hclear
    rw [hafter, expire_outage, Bool.or_eq_false_iff] at hclear
    obtain ⟨time, es, hes, htwo⟩ := hqueue.follows.second_of_commit hfind _ hset hclear.1
    refine ⟨time, es,
      _, by rw [hevents]; exact (congrArg (· ++ _) hes).trans (List.append_assoc ..), ?_⟩
    rw [List.append_assoc, course_append]
    exact htwo

/-- One call, for every operation. -/
theorem At.hysteresis (h : At clock s) (op : Op Nat) (hle : ∀ now ∈ op.time, clock ≤ now) :
    Hysteresis s op := by
  cases op with
  | setPath kind => exact hysteresis_setPath s kind
  | reset => exact ⟨fun _ hset => absurd hset Bool.false_ne_true, fun _ _ => .inl rfl⟩
  | suspend => exact Hysteresis.of_same rfl
  | beginProbe now id =>
    exact h.hysteresis_of_expire (hle now rfl) rfl rfl (List.append_nil _).symm
      (beginProbe_outage _ id)
  | completeSend id now success => exact h.hysteresis_completeSend (hle now rfl) id success
  | reportTransportSend now success =>
    exact h.hysteresis_of_expire (hle now rfl) rfl rfl rfl (reportTransportSend_outage _ success)
  | reply id now => exact h.hysteresis_reply (hle now rfl) id
  | snapshot now => exact h.hysteresis_of_expire (hle now rfl) rfl rfl (List.append_nil _).symm rfl
  | latencyMs now => exact Hysteresis.of_same rfl

theorem At.next (h : At clock s) (hle : ∀ now ∈ op.time, clock ≤ now)
    (hnear : ∀ now ∈ op.time, Near now s.tracker s.probes s.log) :
    At (op.time.getD clock) (s.next op) := by
  obtain ⟨ps', hstamps, hwatched⟩ := h.2.call op hle hnear
  have hprobes : (s.next op).probes = ps' :=
    (List.zip_of_prod hstamps hwatched.follows.records).symm
  unfold At
  rw [hprobes]
  exact ⟨hstamps, hwatched⟩

end Flag

end Observed

/-! ### Runs -/

/-- The run `ops`, observed. -/
def observe (ops : List (Op Nat)) : Observed := ops.foldl Observed.next {}

@[simp] theorem observe_snoc (ops : List (Op Nat)) (op : Op Nat) :
    observe (ops ++ [op]) = (observe ops).next op := by
  simp [observe]

/-- The clock of a run does not go back. -/
def Ticking (ops : List (Op Nat)) : Prop := (ops.filterMap Op.time).Pairwise (· ≤ ·)

/-- Every call of the run comes while what the tracker compares is near. -/
def Retained (s : Observed) : List (Op Nat) → Prop
  | [] => True
  | op :: ops => (∀ now ∈ op.time, Near now s.tracker s.probes s.log) ∧ Retained (s.next op) ops

theorem retained_snoc {s : Observed} {ops : List (Op Nat)} {op : Op Nat} :
    Retained s (ops ++ [op]) ↔ Retained s ops ∧ ∀ now ∈ op.time,
      Near now (ops.foldl Observed.next s).tracker (ops.foldl Observed.next s).probes
        (ops.foldl Observed.next s).log := by
  induction ops generalizing s with
  | nil => exact ⟨fun h => ⟨trivial, h.1⟩, fun h => ⟨h.2, trivial⟩⟩
  | cons first ops ih =>
    rw [List.cons_append, Retained, Retained, ih, and_assoc]
    rfl

/-- The last time of a run. -/
def lastTime (ops : List (Op Nat)) : Nat := (ops.filterMap Op.time).getLastD 0

theorem ticking_snoc {ops : List (Op Nat)} {op : Op Nat} (h : Ticking (ops ++ [op])) :
    Ticking ops ∧ ∀ now ∈ op.time, lastTime ops ≤ now := by
  unfold Ticking at h
  rw [List.filterMap_append] at h
  obtain ⟨hops, -, hlast⟩ := List.pairwise_append.mp h
  refine ⟨hops, fun now hnow => ?_⟩
  unfold lastTime
  rcases List.eq_nil_or_concat (ops.filterMap Op.time) with hnil | ⟨times, last, htimes⟩
  · rw [hnil]
    exact Nat.zero_le _
  · rw [htimes, List.concat_eq_append, List.getLastD_concat]
    apply hlast
    · rw [htimes, List.concat_eq_append]
      exact List.mem_append_right _ List.mem_cons_self
    · rw [List.mem_filterMap]
      exact ⟨op, List.mem_singleton.mpr rfl, hnow⟩

theorem lastTime_snoc (ops : List (Op Nat)) (op : Op Nat) :
    lastTime (ops ++ [op]) = op.time.getD (lastTime ops) := by
  unfold lastTime
  rw [List.filterMap_append]
  cases htime : op.time with
  | none => simp [htime]
  | some now => simp [htime]

theorem observed_init : Observed.At 0 {} := by
  refine ⟨rfl, ?_, nofun⟩
  exact
    { records := rfl, stamped := nofun, sorted := .nil, sent_le := nofun, early := nofun,
      enabled := nofun, lastAccepted := rfl, lastReply := nofun, reference := nofun,
      referred := nofun, replies := nofun, started := nofun, recovering := nofun,
      counted := Nat.zero_le _ }

theorem observed_run {ops : List (Op Nat)} (h : Ticking ops) (hkept : Retained {} ops) :
    (observe ops).At (lastTime ops) := by
  induction ops using List.reverseRecOn with
  | nil => exact observed_init
  | append_singleton ops op ih =>
    obtain ⟨hops, hle⟩ := ticking_snoc h
    obtain ⟨hbefore, hnear⟩ := retained_snoc.mp hkept
    rw [observe_snoc, lastTime_snoc]
    exact (ih hops hbefore).next hle hnear

/-- **Outage hysteresis.**  After every run with a clock that does not go back,
    in which the tracker kept nothing that it compares for a whole turn of the
    clock, the replies are counted only during an outage and there only the
    first; the next call sets the flag only after ten seconds of silence on a
    path that is up, and clears it only by a reset, by a change of path, or by
    the second reply accepted since the flag was last set and since the last
    expiry of a probe that is not older than the reply before it. -/
theorem outage_hysteresis (ops : List (Op Nat)) (op : Op Nat) (h : Ticking (ops ++ [op]))
    (hkept : Retained {} ops) :
    ((observe ops).tracker.outage = false → (observe ops).tracker.recoveryReplies = 0) ∧
      ((observe ops).tracker.outage = true → (observe ops).tracker.recoveryReplies ≤ 1) ∧
      (observe ops).Hysteresis op := by
  obtain ⟨hops, hle⟩ := ticking_snoc h
  have hat := observed_run hops hkept
  exact ⟨hat.2.follows.counted_of_not_outage, hat.2.follows.counted_of_outage,
    hat.hysteresis op hle⟩

instance (now : Nat) (t : ProbeQualityTracker) (ps : List Probe) (log : List Event) :
    Decidable (Near now t ps log) :=
  decidable_of_iff ((∀ p ∈ ps, now < p.1.sent + 2 ^ 32) ∧
    (t.recoveryReplies = 1 → ∀ time ∈ (course log).lastAccepted, now < time + 2 ^ 32))
    ⟨fun h => ⟨h.1, h.2⟩, fun h => ⟨h.probes, h.lastReply⟩⟩

instance decidableRetained : (s : Observed) → (ops : List (Op Nat)) → Decidable (Retained s ops)
  | _, [] => inferInstanceAs (Decidable True)
  | s, op :: ops =>
    @instDecidableAnd _ _ (Option.decidableForallMem op.time) (decidableRetained (s.next op) ops)

/-- An outage that ends half a second after the 32-bit clock has wrapped: the
    first of three probes is lost, and the other two are answered. -/
def acrossWrap : List (Op Nat) :=
  [.setPath 1, .beginProbe (2 ^ 32 - 10500) 7, .completeSend 7 (2 ^ 32 - 10500) true,
    .beginProbe (2 ^ 32 - 500) 8,
    .completeSend 8 (2 ^ 32 - 500) true, .reply 8 (2 ^ 32 - 450), .beginProbe (2 ^ 32 + 500) 9,
    .completeSend 9 (2 ^ 32 + 500) true]

theorem outage_hysteresis_acrossWrap :
    (observe acrossWrap).tracker.outage = true ∧
    ((observe acrossWrap).next (.reply 9 (2 ^ 32 + 550))).tracker.outage = false ∧
    (observe acrossWrap).tracker.recoveryReplies ≤ 1 ∧
    (observe acrossWrap).Hysteresis (.reply 9 (2 ^ 32 + 550)) := by
  have hticking : Ticking (acrossWrap ++ [.reply 9 (2 ^ 32 + 550)]) := by
    unfold Ticking
    decide
  have hout : (observe acrossWrap).tracker.outage = true := by decide
  obtain ⟨-, hcounted, hnext⟩ :=
    outage_hysteresis acrossWrap (.reply 9 (2 ^ 32 + 550)) hticking (by decide)
  exact ⟨hout, by decide, hcounted hout, hnext⟩

/-- An outage in which the first reply is followed by a failure to send that
    lasts for a turn of the clock.  Of the two probes sent then the first is
    given up. -/
def failingTurn : List (Op Nat) :=
  [.setPath 1, .beginProbe 0 7, .completeSend 7 0 true, .beginProbe 10000 8,
    .completeSend 8 10000 true,
    .reply 8 10050, .beginProbe 10100 9, .completeSend 9 10100 false,
    .beginProbe (2 ^ 32 + 9050) 10,
    .completeSend 10 (2 ^ 32 + 10100) true, .beginProbe (2 ^ 32 + 19050) 11,
    .completeSend 11 (2 ^ 32 + 19050) true]

/-- The probe sent a turn of the clock after the reply counts as older than it,
    and one reply more ends the outage. -/
theorem hysteresis_lost_after_turn :
    Ticking (failingTurn ++ [.reply 11 (2 ^ 32 + 19100)]) ∧
    (observe failingTurn).tracker.outage = true ∧
    ((observe failingTurn).next (.reply 11 (2 ^ 32 + 19100))).tracker.outage = false ∧
    (course ((observe failingTurn).next (.reply 11 (2 ^ 32 + 19100))).log).replies = 1 ∧
    ¬ (observe failingTurn).Hysteresis (.reply 11 (2 ^ 32 + 19100)) := by
  have hticking : Ticking (failingTurn ++ [.reply 11 (2 ^ 32 + 19100)]) := by
    unfold Ticking
    decide
  have hset : (observe failingTurn).tracker.outage = true := by decide
  have hclear : ((observe failingTurn).next (.reply 11 (2 ^ 32 + 19100))).tracker.outage =
    false := by decide
  have hevents : (observe failingTurn).tracker.events (observe failingTurn).probes
    (.reply 11 (2 ^ 32 + 19100)) =
      [.accepted (2 ^ 32 + 19100)] := by decide
  have hone : (course ((observe failingTurn).log ++ [.accepted (2 ^ 32 + 19100)])).replies = 1 := by
    decide
  refine ⟨hticking, hset, hclear, by decide, fun h => ?_⟩
  rcases h.clears hset hclear with hop | ⟨kind, hop, -⟩ | ⟨time, es, es', hes, htwo⟩
  · exact absurd hop (by decide)
  · exact absurd hop (by simp)
  · rw [hevents] at hes
    rcases List.append_eq_singleton_iff.mp hes.symm with ⟨rfl, hrest⟩ | ⟨-, hrest⟩
    · obtain ⟨htime, -⟩ := List.cons_eq_cons.mp hrest
      rw [htime, List.append_nil, hone] at htwo
      exact absurd htwo (by decide)
    · exact absurd hrest (List.cons_ne_nil _ _)

end ProbeQualityTracker

end VlanConnect

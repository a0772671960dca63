/-
  VlanConnect/ProbeQuality.lean
  =============================
  **The quality of a path, measured by probes** (`ProbeQualityTracker` of
  `common/probe_quality.h`).

  The tracker keeps the probes of the last minute and what became of each, and
  an outage flag with hysteresis.  All its times are readings of a 32-bit
  millisecond clock that wraps.  It only ever uses differences of two readings,
  and never one of a reading that was not taken (`Shifted`), so that no result
  of any run depends on where the clock starts (`results_shift`).
-/
import Mathlib.Data.List.Basic
import Mathlib.Data.List.Forall2

namespace VlanConnect

inductive ProbeState where
  | pending
  | replied
  | timedOut
  | sendFailed
deriving DecidableEq, Repr

/-- `ProbeQualityTracker::Record`. -/
structure ProbeRecord where
  id : UInt32
  sent : UInt32
  replyAt : UInt32 := 0
  state : ProbeState := .pending
  committed : Bool := false
  earlyReply : Bool := false
deriving DecidableEq, Repr

structure ProbeQualitySnapshot where
  active : Bool := false
  outage : Bool := false
  localSendFailure : Bool := false
  sampling : Bool := true
  replies : Nat := 0
  timeouts : Nat := 0
  pending : Nat := 0
  sendFailures : Nat := 0
  rttMs : Int := -1
  timeoutPercent : Float := 0.0

structure ProbeQualityTracker where
  records : List ProbeRecord := []
  pathKind : Int := 0
  enabled : Bool := false
  started : Bool := false
  outage : Bool := false
  queueSendFailure : Bool := false
  transportSendFailure : Bool := false
  hasReply : Bool := false
  reference : UInt32 := 0
  lastReply : UInt32 := 0
  rtt : Int := -1
  recoveryReplies : Nat := 0
deriving DecidableEq, Repr

namespace ProbeQualityTracker

def WINDOW_MS : UInt32 := 60000
def TIMEOUT_MS : UInt32 := 10000
def MIN_SAMPLES : Nat := 5

/-! ### The private operations -/

def isPending (id : UInt32) (r : ProbeRecord) : Bool := decide (r.id = id ∧ r.state = .pending)

def findPending (t : ProbeQualityTracker) (id : UInt32) : Option ProbeRecord :=
  t.records.find? (isPending id)

/-- The records after a write to the one that `findPending` points to. -/
def writePending (id : UInt32) (record : ProbeRecord) : List ProbeRecord → List ProbeRecord
  | [] => []
  | r :: rs => if isPending id r then record :: rs else r :: writePending id record rs

def store (t : ProbeQualityTracker) (id : UInt32) (record : ProbeRecord) : ProbeQualityTracker :=
  { t with records := writePending id record t.records }

def roundTripMs (now sent : UInt32) : Int := (now - sent).toInt32.toInt

/-- An outage ends with the second reply. -/
def countRecovery (t : ProbeQualityTracker) : ProbeQualityTracker :=
  if t.outage then
    if 2 ≤ t.recoveryReplies + 1 then { t with outage := false, recoveryReplies := 0 }
    else { t with recoveryReplies := t.recoveryReplies + 1 }
  else t

def acceptReply (t : ProbeQualityTracker) (id : UInt32) (record : ProbeRecord) (now : UInt32) :
    ProbeQualityTracker :=
  countRecovery
    { t.store id { record with state := .replied } with
      rtt := roundTripMs now record.sent
      hasReply := true
      lastReply := now
      reference := now }

/-- The probes that a pass of `expire` gives up. -/
def timesOut (now : UInt32) (r : ProbeRecord) : Bool :=
  decide (r.state = .pending ∧ r.committed ∧ TIMEOUT_MS ≤ now - r.sent)

def giveUp (now : UInt32) (r : ProbeRecord) : ProbeRecord :=
  if timesOut now r then { r with state := .timedOut } else r

/-- A probe lost before a newly received reply does not delay the recovery. -/
def delaysRecovery (t : ProbeQualityTracker) (r : ProbeRecord) : Bool :=
  !t.hasReply || decide (0 ≤ (r.sent - t.lastReply).toInt32.toInt)

/-- The conditions under which `expire` asserts the outage. -/
def isOut (t : ProbeQualityTracker) (now : UInt32) : Bool :=
  t.enabled && t.started && !t.queueSendFailure && !t.transportSendFailure &&
    decide (TIMEOUT_MS ≤ now - t.reference)

def expire (t : ProbeQualityTracker) (now : UInt32) : ProbeQualityTracker :=
  let lost := t.records.any fun r => timesOut now r && t.delaysRecovery r
  let t := { t with
    records := t.records.map (giveUp now),
    recoveryReplies := if lost then 0 else t.recoveryReplies }
  let t := { t with records := t.records.dropWhile fun r => decide (WINDOW_MS ≤ now - r.sent) }
  if t.isOut now then { t with outage := true, recoveryReplies := 0 } else t

/-! ### The public operations -/

def suspend (t : ProbeQualityTracker) : ProbeQualityTracker :=
  { t with enabled := false, records := t.records.filter fun r => decide (r.state ≠ .pending) }

def reset (t : ProbeQualityTracker) : ProbeQualityTracker :=
  { t with
    records := []
    started := false
    outage := false
    queueSendFailure := false
    transportSendFailure := false
    hasReply := false
    reference := 0
    lastReply := 0
    rtt := -1
    recoveryReplies := 0 }

def setPath (t : ProbeQualityTracker) (kind : Int) : ProbeQualityTracker :=
  if kind = 0 then t.suspend
  else
    let t := if t.pathKind ≠ kind then { t.reset with pathKind := kind } else t
    { t with enabled := true }

def beginProbe (t : ProbeQualityTracker) (now id : UInt32) : UInt32 × ProbeQualityTracker :=
  let t := t.expire now
  (id, if t.enabled then { t with records := t.records ++ [{ id := id, sent := now }] } else t)

/-- What a probe that was handed over does to the reference time: it starts the
    clock anew after a local failure, and for the first time. -/
def refer (t : ProbeQualityTracker) (wasLocalFailure : Bool) (sent : UInt32) :
    ProbeQualityTracker :=
  let t := if wasLocalFailure && !t.outage then { t with reference := sent } else t
  if !t.started then { t with started := true, reference := sent } else t

/-- The record of a probe that was handed over, with the reply that came before. -/
def commit (t : ProbeQualityTracker) (id : UInt32) (wasLocalFailure : Bool) (record : ProbeRecord) :
    ProbeQualityTracker :=
  let t := t.refer wasLocalFailure record.sent
  let record := { record with committed := true }
  if record.earlyReply then t.acceptReply id record record.replyAt else t.store id record

def completeSend (t : ProbeQualityTracker) (id now : UInt32) (success : Bool) :
    ProbeQualityTracker :=
  match t.findPending id with
  | none => t
  | some record =>
    let wasLocalFailure := t.queueSendFailure || t.transportSendFailure
    let t := { t with queueSendFailure := !success }
    if !success || t.transportSendFailure then
      t.store id { record with state := .sendFailed, earlyReply := false }
    else (t.commit id wasLocalFailure record).expire now

/-- A pending probe whose datagram did not leave. -/
def cancel (r : ProbeRecord) : ProbeRecord :=
  if r.state = .pending then { r with state := .sendFailed, earlyReply := false } else r

def reportTransportSend (t : ProbeQualityTracker) (now : UInt32) (success : Bool) :
    ProbeQualityTracker :=
  let t := t.expire now
  let wasTransportFailure := t.transportSendFailure
  let t := { t with transportSendFailure := !success }
  if success then
    if wasTransportFailure && !t.outage then { t with reference := now } else t
  else { t with records := t.records.map cancel }

def reply (t : ProbeQualityTracker) (id now : UInt32) : Bool × ProbeQualityTracker :=
  let t := t.expire now
  match t.findPending id with
  | none => (false, t)
  | some record =>
    if !t.enabled || decide (TIMEOUT_MS ≤ now - record.sent) then (false, t)
    else if !record.committed then
      if record.earlyReply then (false, t)
      else (true, t.store id { record with earlyReply := true, replyAt := now })
    else (true, t.acceptReply id record now)

def latencyMs (t : ProbeQualityTracker) (now : UInt32) : Int :=
  if !t.enabled || !t.hasReply || decide (TIMEOUT_MS ≤ now - t.lastReply) then -1 else t.rtt

def snapshot (t : ProbeQualityTracker) (now : UInt32) :
    ProbeQualitySnapshot × ProbeQualityTracker :=
  let t := t.expire now
  let replies := t.records.countP fun r => decide (r.state = .replied)
  let timeouts := t.records.countP fun r => decide (r.state = .timedOut)
  let settled := replies + timeouts
  ({ active := t.enabled && t.started
     outage := t.outage
     localSendFailure := t.queueSendFailure || t.transportSendFailure
     rttMs := t.latencyMs now
     replies := replies
     timeouts := timeouts
     sendFailures := t.records.countP fun r => decide (r.state = .sendFailed)
     pending := t.records.countP fun r => decide (r.state = .pending ∧ r.committed)
     sampling := decide (settled < MIN_SAMPLES)
     timeoutPercent := if settled ≠ 0 then 100.0 * timeouts.toFloat / settled.toFloat else 0.0 }, t)

/-! ### Runs -/

/-- A call, with its clock reading of type `τ`. -/
inductive Op (τ : Type) where
  | setPath (kind : Int)
  | reset
  | suspend
  | beginProbe (now : τ) (id : UInt32)
  | completeSend (id : UInt32) (now : τ) (success : Bool)
  | reportTransportSend (now : τ) (success : Bool)
  | reply (id : UInt32) (now : τ)
  | snapshot (now : τ)
  | latencyMs (now : τ)
deriving DecidableEq

namespace Op

/-- The same call by another clock. -/
def map {τ σ : Type} (f : τ → σ) : Op τ → Op σ
  | .setPath kind => .setPath kind
  | .reset => .reset
  | .suspend => .suspend
  | .beginProbe now id => .beginProbe (f now) id
  | .completeSend id now success => .completeSend id (f now) success
  | .reportTransportSend now success => .reportTransportSend (f now) success
  | .reply id now => .reply id (f now)
  | .snapshot now => .snapshot (f now)
  | .latencyMs now => .latencyMs (f now)

def time {τ : Type} : Op τ → Option τ
  | .setPath _ | .reset | .suspend => none
  | .beginProbe now _ | .completeSend _ now _ | .reportTransportSend now _ | .reply _ now
  | .snapshot now
  | .latencyMs now => some now

end Op

inductive Result where
  | none
  | id (id : UInt32)
  | accepted (accepted : Bool)
  | snapshot (snapshot : ProbeQualitySnapshot)
  | latency (ms : Int)

def call (t : ProbeQualityTracker) : Op UInt32 → Result × ProbeQualityTracker
  | .setPath kind => (.none, t.setPath kind)
  | .reset => (.none, t.reset)
  | .suspend => (.none, t.suspend)
  | .beginProbe now id => let (id, t) := t.beginProbe now id; (.id id, t)
  | .completeSend id now success => (.none, t.completeSend id now success)
  | .reportTransportSend now success => (.none, t.reportTransportSend now success)
  | .reply id now => let (accepted, t) := t.reply id now; (.accepted accepted, t)
  | .snapshot now => let (snapshot, t) := t.snapshot now; (.snapshot snapshot, t)
  | .latencyMs now => (.latency (t.latencyMs now), t)

/-- The results of the calls of a run, in order. -/
def results (t : ProbeQualityTracker) : List (Op UInt32) → List Result
  | [] => []
  | op :: ops => (t.call op).1 :: results (t.call op).2 ops

/-! ### Lists that agree under two predicates -/

section Related

variable {α β : Type} {R : α → β → Prop} {p : α → Bool} {q : β → Bool}

theorem any_forall₂ (hpq : ∀ a b, R a b → p a = q b) {l : List α} {l' : List β}
    (h : l.Forall₂ R l') :
    l.any p = l'.any q := by
  induction h with
  | nil => rfl
  | cons hab _ ih => rw [List.any_cons, List.any_cons, hpq _ _ hab, ih]

theorem countP_forall₂ (hpq : ∀ a b, R a b → p a = q b) {l : List α} {l' : List β}
    (h : l.Forall₂ R l') :
    l.countP p = l'.countP q := by
  induction h with
  | nil => rfl
  | cons hab _ ih => rw [List.countP_cons, List.countP_cons, hpq _ _ hab, ih]

theorem dropWhile_forall₂ (hpq : ∀ a b, R a b → p a = q b) {l : List α} {l' : List β}
    (h : l.Forall₂ R l') :
    (l.dropWhile p).Forall₂ R (l'.dropWhile q) := by
  induction h with
  | nil => exact .nil
  | cons hab hl ih =>
    rw [List.dropWhile_cons, List.dropWhile_cons, hpq _ _ hab]
    split
    · exact ih
    · exact .cons hab hl

theorem find?_forall₂ (hpq : ∀ a b, R a b → p a = q b) {l : List α} {l' : List β}
    (h : l.Forall₂ R l') :
    Option.Rel R (l.find? p) (l'.find? q) := by
  induction h with
  | nil => exact .none
  | cons hab _ ih =>
    rw [List.find?_cons, List.find?_cons, hpq _ _ hab]
    split
    · exact .some hab
    · exact ih

end Related

/-! ### Shifting the clock -/

/-- A record of a run and that of the same run by a clock that is `c` ahead.
    The time of the early reply counts only while there is one. -/
structure ShiftedRecord (c : UInt32) (r r' : ProbeRecord) : Prop where
  id : r'.id = r.id
  sent : r'.sent = r.sent + c
  state : r'.state = r.state
  committed : r'.committed = r.committed
  earlyReply : r'.earlyReply = r.earlyReply
  replyAt : r.earlyReply → r'.replyAt = r.replyAt + c

/-- Two trackers that have seen the same calls by clocks `c` apart.  The
    reference counts once the tracker has started, the last reply once there
    was one. -/
structure Shifted (c : UInt32) (t t' : ProbeQualityTracker) : Prop where
  records : t.records.Forall₂ (ShiftedRecord c) t'.records
  pathKind : t'.pathKind = t.pathKind
  enabled : t'.enabled = t.enabled
  started : t'.started = t.started
  outage : t'.outage = t.outage
  queueSendFailure : t'.queueSendFailure = t.queueSendFailure
  transportSendFailure : t'.transportSendFailure = t.transportSendFailure
  hasReply : t'.hasReply = t.hasReply
  reference : t.started → t'.reference = t.reference + c
  lastReply : t.hasReply → t'.lastReply = t.lastReply + c
  rtt : t'.rtt = t.rtt
  recoveryReplies : t'.recoveryReplies = t.recoveryReplies

variable {c : UInt32} {t t' : ProbeQualityTracker}

theorem sub_shift (a b c : UInt32) : a + c - (b + c) = a - b := by
  grind

namespace ShiftedRecord

variable {r r' : ProbeRecord}

theorem isPending (h : ShiftedRecord c r r') (id : UInt32) :
    ProbeQualityTracker.isPending id r = ProbeQualityTracker.isPending id r' := by
  simp only [ProbeQualityTracker.isPending, h.id, h.state]

theorem age (h : ShiftedRecord c r r') (now : UInt32) : now + c - r'.sent = now - r.sent := by
  rw [h.sent, sub_shift]

theorem timesOut (h : ShiftedRecord c r r') (now : UInt32) :
    ProbeQualityTracker.timesOut now r = ProbeQualityTracker.timesOut (now + c) r' := by
  simp only [ProbeQualityTracker.timesOut, h.state, h.committed, h.age]

theorem giveUp (h : ShiftedRecord c r r') (now : UInt32) :
    ShiftedRecord c (ProbeQualityTracker.giveUp now r)
    (ProbeQualityTracker.giveUp (now + c) r') := by
  simp only [ProbeQualityTracker.giveUp, ← h.timesOut]
  split
  · exact { h with state := rfl }
  · exact h

theorem cancel (h : ShiftedRecord c r r') :
    ShiftedRecord c (ProbeQualityTracker.cancel r) (ProbeQualityTracker.cancel r') := by
  simp only [ProbeQualityTracker.cancel, h.state]
  split
  · exact { h with state := rfl, earlyReply := rfl, replyAt := nofun }
  · exact h

end ShiftedRecord

theorem writePending_forall₂ {id : UInt32} {r r' : ProbeRecord} (hr : ShiftedRecord c r r')
    {l l' : List ProbeRecord} (h : l.Forall₂ (ShiftedRecord c) l') :
    (writePending id r l).Forall₂ (ShiftedRecord c) (writePending id r' l') := by
  induction h with
  | nil => exact .nil
  | cons hab hl ih =>
    simp only [writePending, ← hab.isPending id]
    split
    · exact .cons hr hl
    · exact .cons hab ih

namespace Shifted

/-- The two runs take the same branch. -/
theorem ite {p p' : Prop} [Decidable p] [Decidable p'] (hp : p' ↔ p)
    {u u' v v' : ProbeQualityTracker} (hu : Shifted c u u') (hv : Shifted c v v') :
    Shifted c (if p then u else v) (if p' then u' else v') := by
  by_cases h : p
  · rw [if_pos h, if_pos (hp.mpr h)]
    exact hu
  · rw [if_neg h, if_neg (fun h' => h (hp.mp h'))]
    exact hv

theorem findPending (h : Shifted c t t') (id : UInt32) :
    Option.Rel (ShiftedRecord c) (t.findPending id) (t'.findPending id) :=
  find?_forall₂ (fun _ _ hr => hr.isPending id) h.records

theorem store (h : Shifted c t t') {r r' : ProbeRecord} (hr : ShiftedRecord c r r') (id : UInt32) :
    Shifted c (t.store id r) (t'.store id r') :=
  { h with records := writePending_forall₂ hr h.records }

theorem countRecovery (h : Shifted c t t') : Shifted c t.countRecovery t'.countRecovery := by
  unfold ProbeQualityTracker.countRecovery
  apply ite (by rw [h.outage])
  · apply ite (by rw [h.recoveryReplies])
    · exact { h with outage := rfl, recoveryReplies := rfl }
    · exact { h with recoveryReplies := congrArg (· + 1) h.recoveryReplies }
  · exact h

theorem replied (h : Shifted c t t') {rtt rtt' : Int} (hrtt : rtt' = rtt) {now now' : UInt32}
    (hnow : now' = now + c) :
    Shifted c { t with rtt := rtt, hasReply := true, lastReply := now, reference := now }
      { t' with rtt := rtt', hasReply := true, lastReply := now', reference := now' } :=
  { h with hasReply := rfl, reference := fun _ => hnow, lastReply := fun _ => hnow, rtt := hrtt }

theorem acceptReply (h : Shifted c t t') {r r' : ProbeRecord} (hr : ShiftedRecord c r r')
    (id : UInt32) {now now' : UInt32} (hnow : now' = now + c) :
    Shifted c (t.acceptReply id r now) (t'.acceptReply id r' now') := by
  have hreplied : ShiftedRecord c { r with state := .replied } { r' with
    state := .replied } := { hr with state := rfl }
  have hrtt : roundTripMs now' r'.sent = roundTripMs now r.sent := by
    unfold roundTripMs
    rw [hnow, hr.age]
  unfold ProbeQualityTracker.acceptReply
  exact ((h.store hreplied id).replied hrtt hnow).countRecovery

theorem delaysRecovery (h : Shifted c t t') {r r' : ProbeRecord} (hr : ShiftedRecord c r r') :
    t.delaysRecovery r = t'.delaysRecovery r' := by
  unfold ProbeQualityTracker.delaysRecovery
  rw [h.hasReply]
  cases hreply : t.hasReply with
  | false => rw [Bool.not_false, Bool.true_or, Bool.true_or]
  | true => rw [hr.sent, h.lastReply hreply, sub_shift]

theorem isOut (h : Shifted c t t') (now : UInt32) : t'.isOut (now + c) = t.isOut now := by
  unfold ProbeQualityTracker.isOut
  rw [h.enabled, h.started, h.queueSendFailure, h.transportSendFailure]
  cases hstarted : t.started with
  | false => simp
  | true => rw [h.reference hstarted, sub_shift]

theorem expire (h : Shifted c t t') (now : UInt32) :
    Shifted c (t.expire now) (t'.expire (now + c)) := by
  have hlost :
    t'.records.any (fun r => ProbeQualityTracker.timesOut (now + c) r && t'.delaysRecovery r) =
      t.records.any (fun r => ProbeQualityTracker.timesOut now r && t.delaysRecovery r) := by
    refine (any_forall₂ ?_ h.records).symm
    intro r r' hr
    rw [hr.timesOut now, h.delaysRecovery hr]
  have hgivenUp : (t.records.map (giveUp now)).Forall₂ (ShiftedRecord c)
      (t'.records.map (giveUp (now + c))) := by
    apply List.rel_map (R := ShiftedRecord c) _ h.records
    exact fun _ _ hr => hr.giveUp now
  have hrecent :
    ((t.records.map (giveUp now)).dropWhile fun r => decide (WINDOW_MS ≤ now - r.sent)).Forall₂
      (ShiftedRecord c)
      ((t'.records.map (giveUp (now + c))).dropWhile fun r =>
        decide (WINDOW_MS ≤ now + c - r.sent)) := by
    apply dropWhile_forall₂ _ hgivenUp
    intro r r' hr
    rw [hr.age now]
  have hpass : ∀ n, Shifted c
      { t with
        records := (t.records.map (giveUp now)).dropWhile fun r => decide (WINDOW_MS ≤ now - r.sent)
        recoveryReplies := n }
      { t' with
        records := (t'.records.map (giveUp (now + c))).dropWhile fun r =>
          decide (WINDOW_MS ≤ now + c - r.sent)
        recoveryReplies := n } :=
    fun n => { h with records := hrecent, recoveryReplies := rfl }
  unfold ProbeQualityTracker.expire
  rw [hlost, h.recoveryReplies]
  apply ite (by rw [(hpass _).isOut now])
  · exact { hpass 0 with outage := rfl }
  · exact hpass _

theorem suspend (h : Shifted c t t') : Shifted c t.suspend t'.suspend := by
  refine { h with enabled := rfl, records := ?_ }
  apply List.rel_filter _ h.records
  intro r r' hr
  simp only [hr.state]

theorem reset (h : Shifted c t t') : Shifted c t.reset t'.reset :=
  { h with
    records := .nil, started := rfl, outage := rfl, queueSendFailure := rfl,
    transportSendFailure := rfl, hasReply := rfl, reference := nofun, lastReply := nofun,
    rtt := rfl, recoveryReplies := rfl }

theorem enable (h : Shifted c t t') :
    Shifted c { t with enabled := true } { t' with enabled := true } :=
  { h with enabled := rfl }

theorem setPath (h : Shifted c t t') (kind : Int) :
    Shifted c (t.setPath kind) (t'.setPath kind) := by
  unfold ProbeQualityTracker.setPath
  apply ite Iff.rfl h.suspend
  apply enable
  apply ite (by rw [h.pathKind]) _ h
  exact { h.reset with pathKind := rfl }

theorem beginProbe (h : Shifted c t t') (now id : UInt32) :
    Shifted c (t.beginProbe now id).2 (t'.beginProbe (now + c) id).2 := by
  have hexpired := h.expire now
  unfold ProbeQualityTracker.beginProbe
  apply ite (by rw [hexpired.enabled]) _ hexpired
  refine { hexpired with records := List.rel_append hexpired.records (.cons ?_ .nil) }
  exact
    { id := rfl, sent := rfl, state := rfl, committed := rfl, earlyReply := rfl, replyAt := nofun }

theorem refer (h : Shifted c t t') {failed failed' : Bool} (hfailed : failed' = failed)
    {sent sent' : UInt32} (hsent : sent' = sent + c) :
    Shifted c (t.refer failed sent) (t'.refer failed' sent') := by
  unfold ProbeQualityTracker.refer
  have hrecovered : Shifted c (if failed && !t.outage then { t with reference := sent } else t)
      (if failed' && !t'.outage then { t' with reference := sent' } else t') := by
    apply ite (by rw [h.outage, hfailed]) _ h
    exact { h with reference := fun _ => hsent }
  apply ite (by rw [hrecovered.started]) _ hrecovered
  exact { hrecovered with started := rfl, reference := fun _ => hsent }

theorem commit (h : Shifted c t t') (id : UInt32) {failed failed' : Bool}
    (hfailed : failed' = failed) {r r' : ProbeRecord} (hr : ShiftedRecord c r r') :
    Shifted c (t.commit id failed r) (t'.commit id failed' r') := by
  have hreferred := h.refer hfailed hr.sent
  have hcommit : ShiftedRecord c { r with committed := true } { r' with committed := true } :=
    { hr with committed := rfl }
  unfold ProbeQualityTracker.commit
  by_cases hearly : r.earlyReply
  · rw [if_pos hearly, if_pos (hr.earlyReply.trans hearly)]
    exact hreferred.acceptReply hcommit id (hr.replyAt hearly)
  · rw [if_neg hearly, if_neg (fun h' => hearly (hr.earlyReply.symm.trans h'))]
    exact hreferred.store hcommit id

theorem completeSend (h : Shifted c t t') (id now : UInt32) (success : Bool) :
    Shifted c (t.completeSend id now success) (t'.completeSend id (now + c) success) := by
  unfold ProbeQualityTracker.completeSend
  have hfound := h.findPending id
  generalize t.findPending id = found at hfound ⊢
  generalize t'.findPending id = found' at hfound ⊢
  cases hfound with
  | none => exact h
  | @some r r' hr =>
    have hqueue : Shifted c { t with queueSendFailure := !success } { t' with
        queueSendFailure := !success } :=
      { h with queueSendFailure := rfl }
    have hfailed : ShiftedRecord c { r with state := .sendFailed, earlyReply := false }
        { r' with state := .sendFailed, earlyReply := false } :=
      { hr with state := rfl, earlyReply := rfl, replyAt := nofun }
    have hfailure := congrArg₂ or h.queueSendFailure h.transportSendFailure
    apply ite (by rw [hqueue.transportSendFailure]) (hqueue.store hfailed id)
    exact (hqueue.commit id hfailure hr).expire now

theorem reportTransportSend (h : Shifted c t t') (now : UInt32) (success : Bool) :
    Shifted c (t.reportTransportSend now success) (t'.reportTransportSend (now + c) success) := by
  have hexpired := h.expire now
  have hreported : Shifted c { t.expire now with transportSendFailure := !success }
      { t'.expire (now + c) with transportSendFailure := !success } := { hexpired with
        transportSendFailure := rfl }
  unfold ProbeQualityTracker.reportTransportSend
  apply ite Iff.rfl
  · apply ite (by rw [hexpired.transportSendFailure, hreported.outage]) _ hreported
    exact { hreported with reference := fun _ => rfl }
  · refine { hreported with records := ?_ }
    apply List.rel_map (R := ShiftedRecord c) _ hexpired.records
    exact fun _ _ hr => hr.cancel

theorem reply (h : Shifted c t t') (id now : UInt32) :
    (t'.reply id (now + c)).1 = (t.reply id now).1 ∧
    Shifted c (t.reply id now).2 (t'.reply id (now + c)).2 := by
  have hexpired := h.expire now
  unfold ProbeQualityTracker.reply
  dsimp only
  have hfound := hexpired.findPending id
  generalize (t.expire now).findPending id = found at hfound ⊢
  generalize (t'.expire (now + c)).findPending id = found' at hfound ⊢
  cases hfound with
  | none => exact ⟨rfl, hexpired⟩
  | @some r r' hr =>
    dsimp only
    rw [hexpired.enabled, hr.age now, hr.committed, hr.earlyReply]
    split
    · exact ⟨rfl, hexpired⟩
    · split
      · split
        · exact ⟨rfl, hexpired⟩
        · refine ⟨rfl, hexpired.store ?_ id⟩
          exact { hr with committed := rfl, earlyReply := rfl, replyAt := fun _ => rfl }
      · exact ⟨rfl, hexpired.acceptReply hr id rfl⟩

theorem latencyMs (h : Shifted c t t') (now : UInt32) :
    t'.latencyMs (now + c) = t.latencyMs now := by
  simp only [ProbeQualityTracker.latencyMs, h.enabled, h.hasReply, h.rtt]
  cases hreply : t.hasReply with
  | false => simp
  | true => rw [h.lastReply hreply, sub_shift]

theorem snapshot (h : Shifted c t t') (now : UInt32) :
    (t'.snapshot (now + c)).1 = (t.snapshot now).1 := by
  have hexpired := h.expire now
  have hcount : ∀ p : ProbeRecord → Bool, (∀ r r', ShiftedRecord c r r' → p r = p r') →
      (t'.expire (now + c)).records.countP p = (t.expire now).records.countP p :=
    fun p hp => (countP_forall₂ hp hexpired.records).symm
  have hreplied := hcount (fun r => decide (r.state = .replied)) fun r r' hr => by
    simp only [hr.state]
  have htimedOut := hcount (fun r => decide (r.state = .timedOut)) fun r r' hr => by
    simp only [hr.state]
  have hfailed := hcount (fun r => decide (r.state = .sendFailed)) fun r r' hr => by
    simp only [hr.state]
  have hpending := hcount (fun r => decide (r.state = .pending ∧ r.committed)) fun r r' hr => by
    simp only [hr.state, hr.committed]
  simp only [ProbeQualityTracker.snapshot, hreplied, htimedOut, hfailed, hpending, hexpired.enabled,
    hexpired.started, hexpired.outage, hexpired.queueSendFailure, hexpired.transportSendFailure,
    hexpired.latencyMs now]

/-- One call by the two clocks. -/
theorem call (h : Shifted c t t') (op : Op UInt32) :
    (t'.call (op.map (· + c))).1 = (t.call op).1 ∧
    Shifted c (t.call op).2 (t'.call (op.map (· + c))).2 := by
  cases op with
  | setPath kind => exact ⟨rfl, h.setPath kind⟩
  | reset => exact ⟨rfl, h.reset⟩
  | suspend => exact ⟨rfl, h.suspend⟩
  | beginProbe now id => exact ⟨rfl, h.beginProbe now id⟩
  | completeSend id now success => exact ⟨rfl, h.completeSend id now success⟩
  | reportTransportSend now success => exact ⟨rfl, h.reportTransportSend now success⟩
  | reply id now => exact ⟨congrArg Result.accepted (h.reply id now).1, (h.reply id now).2⟩
  | snapshot now => exact ⟨congrArg Result.snapshot (h.snapshot now), h.expire now⟩
  | latencyMs now => exact ⟨congrArg Result.latency (h.latencyMs now), h⟩

theorem results (h : Shifted c t t') (ops : List (Op UInt32)) :
    t'.results (ops.map (Op.map (· + c))) = t.results ops := by
  induction ops generalizing t t' with
  | nil => rfl
  | cons op ops ih =>
    obtain ⟨hresult, hafter⟩ := h.call op
    simp only [List.map_cons, ProbeQualityTracker.results, hresult, ih hafter]

end Shifted

/-- **The origin of the clock does not matter.**  Every call of every run
    returns the same, whatever constant is added, modulo `2 ^ 32`, to the clock
    readings. -/
theorem results_shift (ops : List (Op UInt32)) (c : UInt32) :
    results {} (ops.map (Op.map (· + c))) = results {} ops := by
  apply Shifted.results
  exact { records := .nil, pathKind := rfl, enabled := rfl, started := rfl, outage := rfl,
          queueSendFailure := rfl,
          transportSendFailure := rfl, hasReply := rfl, reference := nofun,
          lastReply := nofun, rtt := rfl,
          recoveryReplies := rfl }

end ProbeQualityTracker

end VlanConnect

/-
  VlanConnect/RoomOperation.lean
  ==============================
  **The deadlines of a room operation** (`RoomOperationTracker` of
  `common/room_operation.h`).

  Creating or joining a room passes through three waiting phases.  Each has a
  deadline, none of them may end after the deadlines of the phases around it,
  and zero stands for no deadline.  `Tracked` says, for each phase, where the
  current deadline came from; `runAll_tracked` carries it over every sequence
  of calls, and the bounds on the way into a room are read off from it.
-/
import Mathlib.Data.List.Induction
import Mathlib.Order.Lattice
import Mathlib.Algebra.Order.Ring.Nat

namespace VlanConnect

inductive RoomOperationPhase where
  | idle
  | waitingServer
  | preparingAdapter
  | waitingReadiness
  | inRoom
  | cancelling
  | cleaningUp
deriving DecidableEq, Repr

/-- All counters and times are `uint64_t`; the sums below wrap. -/
structure RoomOperationTracker where
  phase : RoomOperationPhase := .idle
  id : Nat := 0
  connection : Nat := 0
  started : Nat := 0
  phaseStarted : Nat := 0
  deadline : Nat := 0
  totalDeadline : Nat := 0
  localDeadline : Nat := 0
deriving DecidableEq, Repr

namespace RoomOperationTracker

open RoomOperationPhase

def expired (t : RoomOperationTracker) (now : Nat) : Bool :=
  decide (t.deadline ≠ 0 ∧ t.deadline ≤ now)

def begin (t : RoomOperationTracker) (now connectionGeneration : Nat) :
    Bool × RoomOperationTracker :=
  if t.phase ≠ idle then (false, t)
  else
    (true,
      { t with
        id := (t.id + 1) % 2 ^ 64
        connection := connectionGeneration
        started := now
        phaseStarted := now
        totalDeadline := (now + 45000) % 2 ^ 64
        deadline := (now + 15000) % 2 ^ 64
        localDeadline := 0
        phase := waitingServer })

def beginPreparation (t : RoomOperationTracker) (now : Nat) : Bool × RoomOperationTracker :=
  if t.phase ≠ waitingServer ∨ t.expired now then (false, t)
  else
    let localDeadline := min ((now + 30000) % 2 ^ 64) t.totalDeadline
    (true,
      { t with
        localDeadline := localDeadline
        deadline := localDeadline
        phaseStarted := now
        phase := preparingAdapter })

def beginReadiness (t : RoomOperationTracker) (now : Nat) : Bool × RoomOperationTracker :=
  if t.phase ≠ preparingAdapter ∨ t.expired now then (false, t)
  else
    (true,
      { t with
        deadline := min ((now + 10000) % 2 ^ 64) t.localDeadline
        phaseStarted := now
        phase := waitingReadiness })

def markInRoom (t : RoomOperationTracker) (now : Nat) : Bool × RoomOperationTracker :=
  if (t.phase ≠ preparingAdapter ∧ t.phase ≠ waitingReadiness) ∨ t.expired now then (false, t)
  else (true, { t with phase := inRoom, phaseStarted := now, deadline := 0 })

def beginCancel (t : RoomOperationTracker) (now : Nat) : Bool × RoomOperationTracker :=
  if t.phase = idle ∨ t.phase = cancelling ∨ t.phase = cleaningUp then (false, t)
  else (true, { t with phase := cancelling, phaseStarted := now, deadline := 0 })

def beginCleanup (t : RoomOperationTracker) (now : Nat) : RoomOperationTracker :=
  if t.phase = cleaningUp then t
  else { t with phase := cleaningUp, phaseStarted := now, deadline := 0 }

def finishCleanup (t : RoomOperationTracker) : RoomOperationTracker :=
  { t with phase := idle, deadline := 0 }

/-! ### Runs -/

/-- The calls that can change a tracker; the others are `const`. -/
inductive Call where
  | begin (now connectionGeneration : Nat)
  | beginPreparation (now : Nat)
  | beginReadiness (now : Nat)
  | markInRoom (now : Nat)
  | beginCancel (now : Nat)
  | beginCleanup (now : Nat)
  | finishCleanup
deriving DecidableEq, Repr

namespace Call

/-- The clock value that a call is made with. -/
def time : Call → Option Nat
  | .begin now _ | .beginPreparation now | .beginReadiness now | .markInRoom now | .beginCancel now
  | .beginCleanup now => some now
  | .finishCleanup => none

/-- Whether the call is one of those that give an operation up. -/
def isCleanup : Call → Bool
  | .beginCancel _ | .beginCleanup _ | .finishCleanup => true
  | _ => false

def isBegin : Call → Bool
  | .begin _ _ => true
  | _ => false

end Call

/-- What the call returns (`false` where it returns nothing), and the tracker
    after it. -/
def call (t : RoomOperationTracker) : Call → Bool × RoomOperationTracker
  | .begin now generation => t.begin now generation
  | .beginPreparation now => t.beginPreparation now
  | .beginReadiness now => t.beginReadiness now
  | .markInRoom now => t.markInRoom now
  | .beginCancel now => t.beginCancel now
  | .beginCleanup now => (false, t.beginCleanup now)
  | .finishCleanup => (false, t.finishCleanup)

/-- The calls come with a positive clock below `2 ^ 63` that never goes back. -/
structure Clocked (calls : List Call) : Prop where
  range : ∀ c ∈ calls, ∀ now ∈ c.time, 0 < now ∧ now < 2 ^ 63
  mono : (calls.filterMap Call.time).Pairwise (· ≤ ·)

/-- A tracker with the number of operations begun so far and, for each call
    that succeeded, the number of the operation it belongs to. -/
structure Run where
  tracker : RoomOperationTracker := {}
  begun : Nat := 0
  log : List (Nat × Call) := []

def Run.call (r : Run) (c : Call) : Run :=
  let (ok, t) := r.tracker.call c
  let begun := if ok && c.isBegin then r.begun + 1 else r.begun
  { tracker := t, begun := begun, log := if ok then r.log ++ [(begun, c)] else r.log }

def runAll (calls : List Call) : Run := calls.foldl Run.call {}

@[simp] theorem runAll_snoc (calls : List Call) (c : Call) :
    runAll (calls ++ [c]) = (runAll calls).call c := by
  simp [runAll]

/-! ### What one call can do -/

/-- The outcomes of a call: it is refused, or it moves the tracker on. -/
inductive Step (t : RoomOperationTracker) : Call → Bool → RoomOperationTracker → Prop
  | refused (c : Call) (h : c ≠ .finishCleanup) : Step t c false t
  | begin (now generation : Nat) (h : t.phase = idle) :
      Step t (.begin now generation) true
        { t with
          id := (t.id + 1) % 2 ^ 64
          connection := generation
          started := now
          phaseStarted := now
          totalDeadline := (now + 45000) % 2 ^ 64
          deadline := (now + 15000) % 2 ^ 64
          localDeadline := 0
          phase := waitingServer }
  | beginPreparation (now : Nat) (h : t.phase = waitingServer) (hexp : t.expired now = false) :
      Step t (.beginPreparation now) true
        { t with
          localDeadline := min ((now + 30000) % 2 ^ 64) t.totalDeadline
          deadline := min ((now + 30000) % 2 ^ 64) t.totalDeadline
          phaseStarted := now
          phase := preparingAdapter }
  | beginReadiness (now : Nat) (h : t.phase = preparingAdapter) (hexp : t.expired now = false) :
      Step t (.beginReadiness now) true
        { t with
          deadline := min ((now + 10000) % 2 ^ 64) t.localDeadline
          phaseStarted := now
          phase := waitingReadiness }
  | markInRoom (now : Nat) (h : t.phase = preparingAdapter ∨ t.phase = waitingReadiness)
      (hexp : t.expired now = false) :
      Step t (.markInRoom now) true { t with phase := inRoom, phaseStarted := now, deadline := 0 }
  | beginCancel (now : Nat) :
      Step t (.beginCancel now) true { t with
        phase := cancelling, phaseStarted := now, deadline := 0 }
  | beginCleanup (now : Nat) :
      Step t (.beginCleanup now) false { t with
        phase := cleaningUp, phaseStarted := now, deadline := 0 }
  | finishCleanup : Step t .finishCleanup false t.finishCleanup

/-- A call guarded by a phase and the deadline. -/
theorem step_of_guard {t t' : RoomOperationTracker} {c : Call} {refuse : Prop} [Decidable refuse]
    (hc : c ≠ .finishCleanup) (h : ¬ refuse → Step t c true t') :
    Step t c (if refuse then (false, t) else (true, t')).1 (if refuse then (false, t)
      else (true, t')).2 := by
  by_cases hr : refuse
  · simpa [hr] using Step.refused c hc
  · simpa [hr] using h hr

theorem call_step (t : RoomOperationTracker) (c : Call) : Step t c (t.call c).1 (t.call c).2 := by
  cases c with
  | begin now generation =>
    apply step_of_guard (by simp)
    intro h
    exact .begin now generation (not_not.mp h)
  | beginPreparation now =>
    apply step_of_guard (by simp)
    intro h
    simp only [not_or, not_not, Bool.not_eq_true] at h
    exact .beginPreparation now h.1 h.2
  | beginReadiness now =>
    apply step_of_guard (by simp)
    intro h
    simp only [not_or, not_not, Bool.not_eq_true] at h
    exact .beginReadiness now h.1 h.2
  | markInRoom now =>
    apply step_of_guard (by simp)
    intro h
    simp only [not_or, not_and_or, not_not, Bool.not_eq_true] at h
    exact .markInRoom now h.1 h.2
  | beginCancel now => exact step_of_guard (by simp) fun _ => .beginCancel now
  | beginCleanup now =>
    simp only [call, beginCleanup]
    by_cases h : t.phase = cleaningUp
    · simpa [h] using Step.refused (t := t) (.beginCleanup now) (by simp)
    · simpa [h] using Step.beginCleanup now
  | finishCleanup => exact .finishCleanup

/-! ### Where the deadline comes from -/

/-- The phases in which the client waits for something. -/
def Waiting (t : RoomOperationTracker) : Prop :=
  t.phase = waitingServer ∨ t.phase = preparingAdapter ∨ t.phase = waitingReadiness

/-- The preparation of the current operation began at `p`, before the server's
    deadline, and got what the whole operation has left. -/
structure PreparedAt (r : Run) (p : Nat) : Prop where
  logged : (r.begun, .beginPreparation p) ∈ r.log
  inTime : p < r.tracker.started + 15000
  localDeadline : r.tracker.localDeadline = min (p + 30000) (r.tracker.started + 45000)

structure Tracked (r : Run) : Prop where
  id : r.tracker.id = r.begun % 2 ^ 64
  numbers : ∀ e ∈ r.log, e.1 ≤ r.begun
  total : r.tracker.Waiting → r.tracker.totalDeadline = r.tracker.started + 45000
  server : r.tracker.phase = waitingServer → r.tracker.deadline = r.tracker.started + 15000
  prepared : r.tracker.phase = preparingAdapter →
    r.tracker.deadline = r.tracker.localDeadline ∧ ∃ p, PreparedAt r p
  ready : r.tracker.phase = waitingReadiness →
    ∃ q p, PreparedAt r p ∧ r.tracker.deadline = min (q + 10000) r.tracker.localDeadline ∧
      ∀ q', (r.begun, .beginReadiness q') ∈ r.log → q' = q
  unready : r.tracker.phase = waitingServer ∨ r.tracker.phase = preparingAdapter →
    ∀ q, (r.begun, .beginReadiness q) ∉ r.log
  rest : ¬ r.tracker.Waiting → r.tracker.deadline = 0

/-- A call that ends a waiting phase keeps the numbers and leaves no deadline. -/
theorem Tracked.gaveUp {r : Run} (h : Tracked r) {t : RoomOperationTracker}
    {log : List (Nat × Call)} (hid : t.id = r.tracker.id) (hphase : ¬ t.Waiting)
    (hdeadline : t.deadline = 0) (hlog : ∀ e ∈ log, e.1 ≤ r.begun) :
    Tracked { tracker := t, begun := r.begun, log := log } where
  id := hid.trans h.id
  numbers := hlog
  total := fun hw => absurd hw hphase
  server := fun hp => absurd (.inl hp) hphase
  prepared := fun hp => absurd (.inr (.inl hp)) hphase
  ready := fun hp => absurd (.inr (.inr hp)) hphase
  unready := fun hp => absurd (hp.imp_right .inl) hphase
  rest := fun _ => hdeadline

theorem Tracked.numbers_snoc {r : Run} (h : Tracked r) (c : Call) :
    ∀ e ∈ r.log ++ [(r.begun, c)], e.1 ≤ r.begun := by
  intro e he
  rcases List.mem_append.mp he with he | he
  · exact h.numbers e he
  · obtain rfl := List.mem_singleton.mp he
    exact Nat.le_refl _

theorem lt_deadline {t : RoomOperationTracker} {now : Nat} (hexp : t.expired now = false)
    (hne : t.deadline ≠ 0) :
    now < t.deadline := by
  simp only [expired, decide_eq_false_iff_not, not_and] at hexp
  exact Nat.lt_of_not_le (hexp hne)

theorem tracked_call {r : Run} {c : Call} (h : Tracked r) (hc : ∀ now ∈ c.time, now < 2 ^ 63) :
    Tracked (r.call c) := by
  have hstep := call_step r.tracker c
  unfold Run.call
  generalize r.tracker.call c = res at hstep ⊢
  obtain ⟨ok, t⟩ := res
  dsimp only at hstep ⊢
  cases hstep with
  | refused => exact h
  | begin now generation hidle =>
    have hnow := hc now rfl
    refine
      { id := ?_, numbers := ?_, total := fun _ => ?_, server := fun _ => ?_, prepared := nofun,
        ready := nofun, unready := fun _ q hq => ?_, rest := fun hw => absurd (.inl rfl) hw }
    · change (r.tracker.id + 1) % 2 ^ 64 = (r.begun + 1) % 2 ^ 64
      rw [h.id, Nat.mod_add_mod]
    · intro e he
      rcases List.mem_append.mp he with he | he
      · exact Nat.le_succ_of_le (h.numbers e he)
      · obtain rfl := List.mem_singleton.mp he
        exact Nat.le_refl _
    · exact Nat.mod_eq_of_lt (by omega)
    · exact Nat.mod_eq_of_lt (by omega)
    · -- the numbers in the log so far are those of earlier operations
      rcases List.mem_append.mp hq with hq | hq
      · exact absurd (h.numbers _ hq) (Nat.not_succ_le_self _)
      · simp at hq
  | beginPreparation now hphase hexp =>
    have hnow := hc now rfl
    have htotal := h.total (.inl hphase)
    have hlt := lt_deadline hexp (by rw [h.server hphase]; omega)
    rw [h.server hphase] at hlt
    have hmin : min ((now + 30000) % 2 ^ 64) r.tracker.totalDeadline =
        min (now + 30000) (r.tracker.started + 45000) := by
      rw [htotal, Nat.mod_eq_of_lt (by omega)]
    refine
      { id := h.id, numbers := h.numbers_snoc _, total := fun _ => htotal, server := nofun,
        prepared := fun _ => ⟨rfl, now, ⟨?_, hlt, hmin⟩⟩, ready := nofun,
        unready := fun _ q hq => ?_, rest := fun hw => absurd (.inr (.inl rfl)) hw }
    · exact List.mem_append_right _ (List.mem_singleton.mpr rfl)
    · rcases List.mem_append.mp hq with hq | hq
      · exact h.unready (.inl hphase) q hq
      · simp at hq
  | beginReadiness now hphase hexp =>
    have hnow := hc now rfl
    obtain ⟨-, p, hp⟩ := h.prepared hphase
    refine
      { id := h.id, numbers := h.numbers_snoc _, total := fun _ => h.total (.inr (.inl hphase)),
        server := nofun, prepared := nofun,
        ready := fun _ => ⟨now, p, ⟨?_, hp.inTime, hp.localDeadline⟩, ?_, fun q hq => ?_⟩,
        unready := nofun, rest := fun hw => absurd (.inr (.inr rfl)) hw }
    · exact List.mem_append_left _ hp.logged
    · change min ((now + 10000) % 2 ^ 64) _ = _
      rw [Nat.mod_eq_of_lt (by omega)]
    · rcases List.mem_append.mp hq with hq | hq
      · exact absurd hq (h.unready (.inr hphase) q)
      · simpa using hq
  | markInRoom now hphase hexp => exact h.gaveUp rfl (by simp [Waiting]) rfl (h.numbers_snoc _)
  | beginCancel now => exact h.gaveUp rfl (by simp [Waiting]) rfl (h.numbers_snoc _)
  | beginCleanup now => exact h.gaveUp rfl (by simp [Waiting]) rfl h.numbers
  | finishCleanup => exact h.gaveUp rfl (by simp [Waiting, finishCleanup]) rfl h.numbers

theorem tracked_init : Tracked {} where
  id := rfl
  numbers := nofun
  total := by simp [Waiting]
  server := nofun
  prepared := nofun
  ready := nofun
  unready := by simp
  rest := fun _ => rfl

theorem runAll_tracked (calls : List Call) (hrange : ∀ c ∈ calls, ∀ now ∈ c.time, now < 2 ^ 63) :
    Tracked (runAll calls) := by
  induction calls using List.reverseRecOn with
  | nil => exact tracked_init
  | append_singleton calls c ih =>
    rw [runAll_snoc]
    apply tracked_call
    · exact ih fun c' hc' => hrange c' (List.mem_append_left _ hc')
    · exact hrange c (List.mem_append_right _ (List.mem_singleton.mpr rfl))

/-! ### The bounds -/

/-- The deadline as the phases bound it. -/
structure DeadlineBounded (t : RoomOperationTracker) : Prop where
  waiting : t.Waiting → 0 < t.deadline ∧ t.deadline ≤ t.started + 45000
  adapter : t.phase = preparingAdapter ∨ t.phase = waitingReadiness →
    t.deadline ≤ t.localDeadline ∧ t.localDeadline ≤ t.started + 45000
  rest : ¬ t.Waiting → t.deadline = 0

theorem PreparedAt.localDeadline_pos {r : Run} {p : Nat} (h : PreparedAt r p) :
    0 < r.tracker.localDeadline := by
  rw [h.localDeadline]
  omega

theorem PreparedAt.localDeadline_le {r : Run} {p : Nat} (h : PreparedAt r p) :
    r.tracker.localDeadline ≤ r.tracker.started + 45000 := by
  rw [h.localDeadline]
  exact Nat.min_le_right _ _

/-- In the two local phases the preparation is on record, and the deadline is
    the smaller of its own and that of the readiness wait. -/
theorem Tracked.adapter {r : Run} (h : Tracked r)
    (hphase : r.tracker.phase = preparingAdapter ∨ r.tracker.phase = waitingReadiness) :
    ∃ p, PreparedAt r p ∧ 0 < r.tracker.deadline ∧ r.tracker.deadline ≤ r.tracker.localDeadline ∧
      ∀ q, (r.begun, .beginReadiness q) ∈ r.log → r.tracker.deadline ≤ q + 10000 := by
  rcases hphase with hphase | hphase
  · obtain ⟨hdeadline, p, hp⟩ := h.prepared hphase
    refine ⟨p, hp, ?_, Nat.le_of_eq hdeadline, fun q hq => ?_⟩
    · rw [hdeadline]
      exact hp.localDeadline_pos
    · exact absurd hq (h.unready (.inr hphase) q)
  · obtain ⟨q, p, hp, hdeadline, hq⟩ := h.ready hphase
    have hpos := hp.localDeadline_pos
    refine ⟨p, hp, by omega, by omega, fun q' hq' => ?_⟩
    rw [hq q' hq', hdeadline]
    exact Nat.min_le_left _ _

theorem Tracked.bounded {r : Run} (h : Tracked r) : DeadlineBounded r.tracker where
  waiting := by
    rintro (hphase | hphase)
    · rw [h.server hphase]
      omega
    · obtain ⟨p, hp, hpos, hle, -⟩ := h.adapter hphase
      exact ⟨hpos, Nat.le_trans hle hp.localDeadline_le⟩
  adapter := by
    intro hphase
    obtain ⟨p, hp, -, hle, -⟩ := h.adapter hphase
    exact ⟨hle, hp.localDeadline_le⟩
  rest := h.rest

/-- What a call made with `c` after the run `r` may do. -/
structure CallBounded (r : Run) (c : Call) : Prop where
  /-- The id moves only with a new operation, which begins from idle. -/
  begins : (r.tracker.call c).2.id ≠ r.tracker.id ∨ (c.isBegin ∧ (r.tracker.call c).1) →
    c.isBegin ∧ (r.tracker.call c).1 ∧ r.tracker.phase = idle ∧
      (r.tracker.call c).2.id = (r.tracker.id + 1) % 2 ^ 64
  increases : c.isBegin → (r.tracker.call c).1 → r.begun + 1 < 2 ^ 64 →
      r.tracker.id < (r.tracker.call c).2.id
  readiness : ∀ now, c = .beginReadiness now → (r.tracker.call c).1 →
    (r.tracker.call c).2.localDeadline = r.tracker.localDeadline ∧
      (r.tracker.call c).2.deadline ≤ r.tracker.localDeadline
  /-- A room is entered in time for the preparation, for the whole operation
      and for the readiness wait. -/
  enters : (r.tracker.call c).2.phase = inRoom → r.tracker.phase ≠ inRoom →
    ∃ now, c = .markInRoom now ∧
      (∃ p, (r.begun, .beginPreparation p) ∈ r.log ∧ p < r.tracker.started + 15000 ∧
        now < min (p + 30000) (r.tracker.started + 45000)) ∧
      ∀ q, (r.begun, .beginReadiness q) ∈ r.log → now < q + 10000

theorem Tracked.callBounded {r : Run} (h : Tracked r) (c : Call) : CallBounded r c := by
  have hstep := call_step r.tracker c
  generalize hres : r.tracker.call c = res at hstep
  obtain ⟨ok, t⟩ := res
  dsimp only at hstep
  refine
    { begins := ?_, increases := ?_, readiness := ?_, enters := ?_ }
  all_goals simp only [hres]
  · intro hmoved
    cases hstep with
    | begin now generation hidle => exact ⟨rfl, rfl, hidle, rfl⟩
    | _ => simp [Call.isBegin, finishCleanup] at hmoved
  · intro hbegin hok hbound
    cases hstep with
    | begin now generation hidle =>
      change r.tracker.id < (r.tracker.id + 1) % 2 ^ 64
      rw [h.id, Nat.mod_eq_of_lt (by omega), Nat.mod_eq_of_lt hbound]
      exact Nat.lt_succ_self _
    | refused => simp at hok
    | _ => simp [Call.isBegin] at hbegin
  · rintro now rfl hok
    cases hstep with
    | refused => simp at hok
    | beginReadiness _ hphase hexp => exact ⟨rfl, Nat.min_le_right _ _⟩
  · intro hin hout
    cases hstep with
    | refused => exact absurd hin hout
    | markInRoom now hphase hexp =>
      obtain ⟨p, hp, hpos, hle, hready⟩ := h.adapter hphase
      have hlt := lt_deadline hexp (Nat.ne_of_gt hpos)
      refine ⟨now, rfl, ⟨p, hp.logged, hp.inTime, ?_⟩, fun q hq => ?_⟩
      · rw [← hp.localDeadline]
        exact Nat.lt_of_lt_of_le hlt hle
      · exact Nat.lt_of_lt_of_le hlt (hready q hq)
    | _ => simp [finishCleanup] at hin

/-! ### After the deadline -/

/-- The operation is over at `now`: its deadline has passed, or it was given
    up. -/
def Over (now : Nat) (t : RoomOperationTracker) : Prop :=
  t.expired now ∨ t.phase = idle ∨ t.phase = cancelling ∨ t.phase = cleaningUp

theorem expired_mono {t : RoomOperationTracker} {now later : Nat} (hle : now ≤ later)
    (h : t.expired now) :
    t.expired later := by
  simp only [expired, decide_eq_true_eq] at h ⊢
  exact ⟨h.1, Nat.le_trans h.2 hle⟩

/-- An operation that is over does not pass into a phase that checks the
    deadline. -/
theorem Over.not_running {t : RoomOperationTracker} {now later : Nat} (h : Over now t)
    (hle : now ≤ later) (hexp : t.expired later = false)
    (hphase : t.phase = waitingServer ∨ t.phase = preparingAdapter ∨ t.phase = waitingReadiness) :
    False := by
  rcases h with h | h | h | h
  · rw [expired_mono hle h] at hexp
    exact absurd hexp (by decide)
  all_goals
    rw [h] at hphase
    simp at hphase

theorem begun_le_call (r : Run) (c : Call) : r.begun ≤ (r.call c).begun := by
  simp only [Run.call]
  split <;> omega

theorem begun_le_foldl (r : Run) (calls : List Call) :
    r.begun ≤ (calls.foldl Run.call r).begun := by
  induction calls generalizing r with
  | nil => exact Nat.le_refl _
  | cons c calls ih => exact Nat.le_trans (begun_le_call r c) (ih (r.call c))

/-- One call on an operation that is over: it stays so, and only giving it up
    changes it, unless the call begins the next operation. -/
theorem Over.call {r : Run} {now : Nat} {c : Call} (h : Over now r.tracker)
    (htime : ∀ t ∈ c.time, now ≤ t) (hsame : (r.call c).begun = r.begun) :
    Over now (r.call c).tracker ∧ (c.isCleanup = false → (r.call c).tracker = r.tracker) := by
  have hstep := call_step r.tracker c
  unfold Run.call at hsame ⊢
  generalize r.tracker.call c = res at hstep hsame ⊢
  obtain ⟨ok, t⟩ := res
  dsimp only at hstep hsame ⊢
  cases hstep with
  | refused => exact ⟨h, fun _ => rfl⟩
  | begin now generation hidle => exact absurd hsame (Nat.succ_ne_self _)
  | beginPreparation later hphase hexp =>
    exact (h.not_running (htime later rfl) hexp (.inl hphase)).elim
  | beginReadiness later hphase hexp =>
    exact (h.not_running (htime later rfl) hexp (.inr (.inl hphase))).elim
  | markInRoom later hphase hexp => exact (h.not_running (htime later rfl) hexp (.inr hphase)).elim
  | beginCancel later => exact ⟨.inr (.inr (.inl rfl)), nofun⟩
  | beginCleanup later => exact ⟨.inr (.inr (.inr rfl)), nofun⟩
  | finishCleanup => exact ⟨.inr (.inl rfl), nofun⟩

theorem Over.foldl {r : Run} {now : Nat} {calls : List Call} (h : Over now r.tracker)
    (htime : ∀ c ∈ calls, ∀ t ∈ c.time, now ≤ t)
    (hsame : (calls.foldl Run.call r).begun = r.begun) :
    Over now (calls.foldl Run.call r).tracker := by
  induction calls generalizing r with
  | nil => exact h
  | cons c calls ih =>
    have hle := begun_le_foldl (r.call c) calls
    have hc : (r.call c).begun = r.begun := Nat.le_antisymm (hsame ▸ hle) (begun_le_call r c)
    apply ih (h.call (htime c List.mem_cons_self) hc).1
    · exact fun c' hc' => htime c' (List.mem_cons_of_mem _ hc')
    · exact hsame.trans hc.symm

theorem runAll_append (calls more : List Call) :
    runAll (calls ++ more) = more.foldl Run.call (runAll calls) :=
  List.foldl_append ..

/-- After an operation has expired at `now`, the calls that belong to it and do
    not give it up leave the tracker as it is. -/
theorem runAll_expired {calls more : List Call} {now : Nat} {c : Call}
    (hexp : (runAll calls).tracker.expired now) (htime : ∀ c' ∈ more ++ [c], ∀ t ∈ c'.time, now ≤ t)
    (hsame : (runAll (calls ++ more ++ [c])).begun = (runAll calls).begun)
    (hc : c.isCleanup = false) :
    (runAll (calls ++ more ++ [c])).tracker = (runAll (calls ++ more)).tracker := by
  rw [runAll_snoc] at hsame ⊢
  have hle : (runAll calls).begun ≤ (runAll (calls ++ more)).begun := by
    rw [runAll_append]
    exact begun_le_foldl _ _
  have hmore : (runAll (calls ++ more)).begun = (runAll calls).begun :=
    Nat.le_antisymm (hsame ▸ begun_le_call _ c) hle
  have hover : Over now (runAll (calls ++ more)).tracker := by
    rw [runAll_append] at hmore ⊢
    exact Over.foldl (.inl hexp) (fun c' hc' => htime c' (List.mem_append_left _ hc')) hmore
  exact (hover.call (htime c (by simp)) (hsame.trans hmore.symm)).2 hc

/-- **The deadlines of room operations**, after any sequence of calls with a
    clock that does not go back: the deadline is bounded as the phase says, the
    next call moves the id, the deadline and the phase only as it may, and an
    operation whose deadline has passed only ever gets given up. -/
theorem room_operation_deadlines (calls : List Call) (h : Clocked calls) :
    DeadlineBounded (runAll calls).tracker ∧
      (∀ c, Clocked (calls ++ [c]) → CallBounded (runAll calls) c) ∧
      ∀ now, (runAll calls).tracker.expired now → ∀ more c, Clocked (calls ++ more ++ [c]) →
        (∀ c' ∈ more ++ [c], ∀ t ∈ c'.time, now ≤ t) →
        (runAll (calls ++ more ++ [c])).begun = (runAll calls).begun → c.isCleanup = false →
        (runAll (calls ++ more ++ [c])).tracker.phase = (runAll (calls ++ more)).tracker.phase := by
  have htracked : Tracked (runAll calls) := runAll_tracked calls fun c hc now hnow =>
    (h.range c hc now hnow).2
  refine ⟨htracked.bounded, fun c _ => htracked.callBounded c, ?_⟩
  intro now hexp more c _ htime hsame hc
  rw [runAll_expired hexp htime hsame hc]

/-- Both local phases begun in time. -/
theorem room_operation_deadlines_inTime :
    Clocked [.begin 1000 7, .beginPreparation 2000, .beginReadiness 2500] ∧
      (runAll [.begin 1000 7, .beginPreparation 2000, .beginReadiness 2500]).tracker.deadline =
      12500 ∧
      DeadlineBounded (runAll [.begin 1000 7, .beginPreparation 2000,
        .beginReadiness 2500]).tracker := by
  have hclocked : Clocked [.begin 1000 7, .beginPreparation 2000, .beginReadiness 2500] :=
    ⟨by simp [Call.time], by simp [Call.time]⟩
  exact ⟨hclocked, by decide, (room_operation_deadlines _ hclocked).1⟩

/-! ### The id after `2 ^ 64` operations -/

/-- Operations begun and given up at once. -/
def abandoned (n : Nat) : List Call :=
  (List.replicate n [.begin 1 0, .beginCleanup 1, .finishCleanup]).flatten

theorem runAll_abandoned (n : Nat) :
    (runAll (abandoned n)).tracker.phase = idle ∧
    (runAll (abandoned n)).tracker.id = n % 2 ^ 64 := by
  induction n with
  | zero => exact ⟨rfl, rfl⟩
  | succ n ih =>
    have hcycle : abandoned (n + 1) = abandoned n ++ [.begin 1 0, .beginCleanup 1,
        .finishCleanup] := by
      simp [abandoned, List.replicate_succ']
    rw [hcycle, runAll_append]
    simp [Run.call, call, begin, beginCleanup, finishCleanup, ih.1, ih.2, Call.isBegin]

theorem time_abandoned {n : Nat} {c : Call} (h : c ∈ abandoned n) {now : Nat}
    (hnow : now ∈ c.time) : now = 1 := by
  obtain ⟨calls, hcalls, hc⟩ := List.mem_flatten.mp h
  obtain rfl := List.eq_of_mem_replicate hcalls
  simp only [List.mem_cons, List.not_mem_nil, or_false] at hc
  rcases hc with rfl | rfl | rfl
  all_goals simp_all [Call.time]

theorem clocked_abandoned (n : Nat) : Clocked (abandoned n) := by
  refine ⟨fun c hc now hnow => ?_, ?_⟩
  · rw [time_abandoned hc hnow]
    decide
  · apply List.pairwise_of_forall_mem_list
    intro a ha b hb
    obtain ⟨c, hc, hca⟩ := List.mem_filterMap.mp ha
    obtain ⟨d, hd, hdb⟩ := List.mem_filterMap.mp hb
    rw [time_abandoned hc hca, time_abandoned hd hdb]

theorem begin_wraps {t : RoomOperationTracker} (hidle : t.phase = idle) {n : Nat}
    (hid : t.id = n % 2 ^ 64) (hn : (n + 1) % 2 ^ 64 = 0) :
    (t.begin 1 0).1 = true ∧ ¬ t.id < (t.begin 1 0).2.id := by
  have hsucc : (t.id + 1) % 2 ^ 64 = 0 := by rw [hid, Nat.mod_add_mod, hn]
  unfold begin
  rw [if_neg (not_not.mpr hidle)]
  refine ⟨rfl, ?_⟩
  change ¬ t.id < (t.id + 1) % 2 ^ 64
  rw [hsucc]
  exact Nat.not_lt_zero _

/-- The operation after `2 ^ 64 - 1` others gets the id zero. -/
theorem ids_wrap_around :
    Clocked (abandoned (2 ^ 64 - 1)) ∧
    ((runAll (abandoned (2 ^ 64 - 1))).tracker.begin 1 0).1 = true ∧
      ¬ (runAll (abandoned (2 ^ 64 - 1))).tracker.id <
      ((runAll (abandoned (2 ^ 64 - 1))).tracker.begin 1 0).2.id := by
  obtain ⟨hidle, hid⟩ := runAll_abandoned (2 ^ 64 - 1)
  exact ⟨clocked_abandoned _, begin_wraps hidle hid (by decide)⟩

end RoomOperationTracker

end VlanConnect

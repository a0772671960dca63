/-
  VlanConnect/Client/CliTunLifecycle.lean
  =======================================
  **The worker that owns the virtual adapter of the command line client**
  (`client-cli/src/cli_tun_lifecycle.h`).

  A job makes its backend, takes it through four stages (prepare, configure,
  start, wait for readiness), hands the adapter out with `Ready`, waits to be
  cancelled and cleans up.  Every stage may fail or throw, and `cancel()` or the
  deadline may strike at any moment; the events that the event loop gets must
  still be one verdict at most and one `Cleaned` at the end.

  The trace of a run records the calls of the backend with their results, what
  the worker reads of the flags, the deadline and the clock where they decide
  something, the events, and what the other threads did in between.  `Allows`
  says what may follow what; the run is shown to keep this discipline, and the
  rest is read off it.  `Truthful` says that a value on record was read: it is
  the one that the others had left (`faithful_start`).

  The clock is steady and does not go back.  The log lines, and the two fields
  that only they read, are left out.
-/
import VlanConnect.Lib.Procedure
import VlanConnect.Lib.Discipline
import VlanConnect.Windows.Readiness

namespace VlanConnect.CliTunLifecycle

open WindowsNetwork

def VNET_MASK : UInt32 := 0xffffff00

/-- What a backend throws: a `std::exception` with its text, or anything else. -/
inductive Thrown where
  | exception (what : Bytes)
  | unknown

inductive Kind where
  | progress
  | ready
  | failed
  | cleaned
deriving DecidableEq

structure CliTunLifecycleEvent where
  kind : Kind
  generation : UInt64
  time : Nat
  stage : Bytes := []
  error : Bytes := []
  adapter : Nat := 0

/-! ### What the worker shares with others -/

/-- What time and the other threads did since the worker last looked. -/
structure Interference where
  elapsed : Nat := 0
  cancel : Bool := false
  cancelRequested : Bool := false
  deadlineMs : Option Nat := none

/-- The clock, `m_cancel`, and the two members of the control that others write. -/
structure Shared where
  clock : Nat := 0
  cancel : Bool := false
  cancelRequested : Bool := false
  deadlineMs : Nat := 0

/-- `cancel()` sets both flags. -/
def Shared.interfere (shared : Shared) (i : Interference) : Shared where
  clock := shared.clock + i.elapsed
  cancel := shared.cancel || i.cancel
  cancelRequested := shared.cancelRequested || i.cancel || i.cancelRequested
  deadlineMs := i.deadlineMs.getD shared.deadlineMs

/-- What is on record of a run. -/
inductive Action where
  | factory (made : Except Thrown Bool)
  | initializeAdapter (done : Except Thrown Bool)
  | configure (ip mask : UInt32) (mtu : Int) (done : Except Thrown Bool)
  | start (done : Except Thrown Bool)
  | beginReadiness (done : Except Thrown Unit)
  | pollReadiness (result : Except Thrown WindowsReadinessResult)
  | error (text : Except Thrown Bytes)
  | adapter (adapter : Except Thrown Nat)
  | cleanup (done : Except Thrown Unit)
  | readCancel (flag : Bool)
  | readControl (present : Bool)
  | readCancelRequested (flag : Bool)
  | readDeadline (ms : Nat)
  | clock (now : Nat)
  | event (e : CliTunLifecycleEvent)
  | others (i : Interference)

/-- The backend and the other threads; `wake` says whether the wait for cancellation ends. -/
structure World (σ : Type) where
  others : σ → Interference × σ
  factory : σ → Except Thrown Bool × σ
  initializeAdapter : σ → Except Thrown Bool × σ
  configure : UInt32 → UInt32 → Int → σ → Except Thrown Bool × σ
  start : σ → Except Thrown Bool × σ
  beginReadiness : σ → Except Thrown Unit × σ
  pollReadiness : σ → Except Thrown WindowsReadinessResult × σ
  error : σ → Except Thrown Bytes × σ
  adapter : σ → Except Thrown Nat × σ
  cleanup : σ → Except Thrown Unit × σ
  wake : σ → Bool × σ

/-- What a job is constructed with. -/
structure Params where
  generation : UInt64
  ip : UInt32
  mtu : Int
  control : Bool

structure Job (σ : Type) where
  world : σ
  shared : Shared := {}
  backend : Bool := false
  done : Bool := false
  trace : List Action := []

/-- Why a procedure does not return: an exception, or it is still waiting, which no handler sees. -/
inductive Stop where
  | threw (what : Thrown)
  | blocked

section Source

variable {σ α : Type} (W : World σ) (c : Params)

def Job.record (s : Job σ) (a : Action) : Job σ := { s with trace := s.trace ++ [a] }

/-- Others run until the worker looks again. -/
def Job.interfere (s : Job σ) (i : Interference) (w : σ) : Job σ :=
  { s with world := w, shared := s.shared.interfere i }.record (.others i)

def observe : Procedure (Job σ) Stop Unit :=
  .update fun s => s.interfere (W.others s.world).1 (W.others s.world).2

def record (a : Action) : Procedure (Job σ) Stop Unit := .update fun s => s.record a

/-- A value that others may have changed. -/
def look (f : Shared → α) : Procedure (Job σ) Stop α := do
  observe W
  Procedure.ask fun s => f s.shared

/-- Such a value where the worker decides by it. -/
def read (f : Shared → α) (a : α → Action) : Procedure (Job σ) Stop α := do
  let v ← look W f
  record (a v)
  return v

def cancelled : Procedure (Job σ) Stop Bool := read W Shared.cancel .readCancel

def roomMonotonicMs : Procedure (Job σ) Stop Nat := look W Shared.clock

/-- The clock, where the worker decides by it. -/
def readClock : Procedure (Job σ) Stop Nat := read W Shared.clock .clock

/-- `RoomTaskControl::allowed`. -/
def controlAllowed : Procedure (Job σ) Stop Bool := do
  let requested ← read W Shared.cancelRequested .readCancelRequested
  if requested then return false
  else do
    let deadline ← read W Shared.deadlineMs .readDeadline
    if deadline = 0 then return true
    else do
      let now ← readClock W
      return !decide (now ≥ deadline)

def allowed : Procedure (Job σ) Stop Bool := do
  let stopped ← cancelled W
  if stopped then return false
  else do
    record (.readControl c.control)
    if c.control then controlAllowed W else return true

def push (kind : Kind) (stage : String) (error : Bytes) (adapter : Nat) :
    Procedure (Job σ) Stop Unit := do
  let now ← roomMonotonicMs W
  record (.event ⟨kind, c.generation, now, ascii stage, error, adapter⟩)

/-- A call of the backend. -/
def call (f : σ → Except Thrown α × σ) (a : Except Thrown α → Action) :
    Procedure (Job σ) Stop α := fun s =>
  match f s.world with
  | (.ok v, w) => (.ok v, { s with world := w }.record (a (.ok v)))
  | (.error what, w) => (.error (.threw what), { s with world := w }.record (a (.error what)))

def progress (stage : String) : Procedure (Job σ) Stop Unit := push W c .progress stage [] 0

def fail (stage : String) (detail : Bytes) : Procedure (Job σ) Stop Unit :=
  push W c .failed stage (if detail = [] then ascii (stage ++ " failed") else detail) 0

/-- `wait_for` with a timeout of 100 ms; only a cancelled job wakes up earlier. -/
def waitBriefly : Procedure (Job σ) Stop Unit := .update fun s =>
  let (i, w) := W.others s.world
  s.interfere (if s.shared.cancel || i.cancel then i else { i with elapsed := i.elapsed + 100 }) w

/-- `wait` until the job is cancelled. -/
def waitCancelled : Procedure (Job σ) Stop Unit := fun s =>
  match W.wake s.world with
  | (true, w) => (.ok (), s.interfere { cancel := true } w)
  | (false, w) => (.error .blocked, { s with world := w })

/-! ### `run`, from the inner stages to the outer ones -/

/-- The polling loop; `rounds` bounds how far it is followed. -/
def pollLoop (readinessStart : Nat) :
    Nat → WindowsReadinessResult → Procedure (Job σ) Stop WindowsReadinessResult
  | 0, _ => .raise .blocked
  | rounds + 1, result => do
    let goes ← allowed W c
    if goes then do
      let polled ← call W.pollReadiness .pollReadiness
      if polled.state ≠ .pending then return polled
      else do
        let now ← readClock W
        if now - readinessStart ≥ 10000 then return polled
        else do
          waitBriefly W
          pollLoop readinessStart rounds polled
    else return result

/-- `allowed() && roomMonotonicMs() - readinessStart < 10000`. -/
def inTime (readinessStart : Nat) : Procedure (Job σ) Stop Bool := do
  let goes ← allowed W c
  if goes then do
    let now ← readClock W
    return decide (now - readinessStart < 10000)
  else return false

/-- `if (!m_cancel) fail(stage, detail)`. -/
def giveUp (stage : String) (detail : Procedure (Job σ) Stop Bytes) :
    Procedure (Job σ) Stop Unit := do
  let stopped ← cancelled W
  if stopped then return ()
  else do
    let text ← detail
    fail W c stage text

/-- The branch of `Ready`. -/
def handOff : Procedure (Job σ) Stop Unit := do
  progress W c "in-room"
  let adapter ← call W.adapter .adapter
  push W c .ready "ready" [] adapter
  waitCancelled W

def waitReadiness (rounds : Nat) : Procedure (Job σ) Stop Unit := do
  progress W c "waiting-readiness"
  call W.beginReadiness .beginReadiness
  let readinessStart ← readClock W
  let result ← pollLoop W c readinessStart rounds {}
  let timely ← inTime W c readinessStart
  if timely && result.state = .ready then handOff W c
  else
    giveUp W c "waiting-readiness"
      (pure (if result.error = [] then ascii "Virtual network initialization timed out"
        else result.error))

/-- `!ok || !allowed()`. -/
def refused (ok : Bool) : Procedure (Job σ) Stop Bool :=
  if ok then do
    let goes ← allowed W c
    return !goes
  else return true

def startSession (rounds : Nat) : Procedure (Job σ) Stop Unit := do
  progress W c "start-session"
  let ok ← call W.start .start
  let ended ← refused W c ok
  if ended then giveUp W c "start-session" (call W.error .error) else waitReadiness W c rounds

def configureNetwork (rounds : Nat) : Procedure (Job σ) Stop Unit := do
  progress W c "configure-network"
  let ok ← call (W.configure c.ip VNET_MASK c.mtu) (.configure c.ip VNET_MASK c.mtu)
  let ended ← refused W c ok
  if ended then giveUp W c "configure-network" (call W.error .error) else startSession W c rounds

/-- The call of the factory, which sets `backend`. -/
def makeBackend : Procedure (Job σ) Stop Bool := do
  let made ← call W.factory .factory
  Procedure.update fun s => { s with backend := made }
  return made

/-- `allowed() && backend`, and the first stage. -/
def prepared (made : Bool) : Procedure (Job σ) Stop Bool := do
  let goes ← allowed W c
  if goes && made then do
    progress W c "prepare-adapter"
    call W.initializeAdapter .initializeAdapter
  else return false

def prepareAdapter (rounds : Nat) : Procedure (Job σ) Stop Unit := do
  let made ← makeBackend W
  let ok ← prepared W c made
  let ended ← refused W c ok
  if ended then
    giveUp W c "prepare-adapter"
      (if made then call W.error .error else pure (ascii "setup cancelled or expired"))
  else configureNetwork W c rounds

/-- The two handlers around the stages. -/
def rescue : Stop → Procedure (Job σ) Stop Unit
  | .threw (.exception what) => fail W c "exception" what
  | .threw .unknown => fail W c "exception" (ascii "Unknown adapter lifecycle error")
  | .blocked => .raise .blocked

def cleanup : Procedure (Job σ) Stop Unit := do
  let backend ← Procedure.ask fun s : Job σ => s.backend
  Procedure.handle (if backend then call W.cleanup .cleanup else return ()) fun
    | .threw _ => return ()
    | .blocked => .raise .blocked

/-- The last event, after which the job is done. -/
def conclude : Procedure (Job σ) Stop Unit := do
  push W c .cleaned "idle" [] 0
  Procedure.update fun s => { s with done := true }

def run (rounds : Nat) : Procedure (Job σ) Stop Unit := do
  Procedure.handle (prepareAdapter W c rounds) (rescue W c)
  progress W c "cleaning-up"
  cleanup W
  conclude W c

/-- `spawned` is the thread that was made, or the text of the exception. -/
def start (rounds : Nat) (spawned : Except Bytes Unit) : Procedure (Job σ) Stop Unit :=
  match spawned with
  | .ok () => run W c rounds
  | .error what => do
    fail W c "worker-start" what
    conclude W c

end Source

/-! ### The discipline -/

namespace Action

def isFactory : Action → Bool
  | factory _ => true
  | _ => false

def isVerdict : Action → Bool
  | event e => e.kind == .ready || e.kind == .failed
  | _ => false

def isCleaned : Action → Bool
  | event e => e.kind == .cleaned
  | _ => false

def isCleanup : Action → Bool
  | cleanup _ => true
  | _ => false

/-- What the worker reads to see whether it may go on. -/
def isRead : Action → Bool
  | readCancel _ | readControl _ | readCancelRequested _ | readDeadline _ | clock _ => true
  | _ => false

/-- What a round of the polling loop leaves that goes on. -/
def isRound : Action → Bool
  | readCancel flag | readCancelRequested flag => !flag
  | readControl _ | readDeadline _ | clock _ => true
  | pollReadiness (.ok result) => result.state == .pending
  | _ => false

/-- What the worker did itself. -/
def isOwn : Action → Bool
  | others _ => false
  | _ => true

end Action

/-- There is a backend that was not cleaned up. -/
def Live (front : List Action) : Prop :=
  .factory (.ok true) ∈ front ∧ ∀ b ∈ front, b.isCleanup = false

/-- A check that neither a cancellation nor a deadline failed: the flags were not
    set, and the deadline was 0 or later than the clock. -/
inductive Passed : List Action → Prop
  | free : Passed [.readCancel false, .readControl false]
  | unlimited : Passed [.readCancel false, .readControl true, .readCancelRequested false,
      .readDeadline 0]
  | before (deadline now : Nat) (h : now < deadline) :
      Passed [.readCancel false, .readControl true, .readCancelRequested false,
        .readDeadline deadline, .clock now]

/-- The last poll said `Ready`, the check after it passed, and the clock was in time. -/
def Timely (front : List Action) : Prop :=
  ∃ before t₀ rounds result check t e a,
    front.filter Action.isOwn = before ++ [.beginReadiness (.ok ()), .clock t₀] ++ rounds ++
      [.pollReadiness (.ok result)] ++ check ++ [.clock t, .event e, .adapter (.ok a)] ∧
    (∀ b ∈ rounds, b.isRound = true) ∧ result.state = .ready ∧ Passed check ∧ e.kind = .progress ∧
    t₀ ≤ t ∧ t < t₀ + 10000

/-- What may follow what. -/
def Allows (front : List Action) : Action → Prop
  | .factory _ => front = []
  | .initializeAdapter _ => Live front
  | .configure _ _ _ _ => Live front ∧ .initializeAdapter (.ok true) ∈ front
  | .start _ => Live front ∧ ∃ ip mask mtu, .configure ip mask mtu (.ok true) ∈ front
  | .beginReadiness _ => Live front ∧ .start (.ok true) ∈ front
  | .pollReadiness _ => Live front ∧ .beginReadiness (.ok ()) ∈ front
  | .error _ => Live front
  | .adapter _ => Live front
  | .cleanup _ => Live front
  | .readCancel _ | .readControl _ | .readCancelRequested _ | .readDeadline _ | .clock _
  | .others _ => True
  | .event e => (∀ b ∈ front, b.isCleaned = false) ∧
      (e.kind = .ready ∨ e.kind = .failed → ∀ b ∈ front, b.isVerdict = false) ∧
      (e.kind = .ready → Timely front)

/-! ### Assertions -/

/-- A property of the trace, the clock and the cancel flag. -/
abbrev Assertion := List Action → Nat → Bool → Prop

/-- Time and the other threads do not make it false. -/
def Stable (P : Assertion) : Prop :=
  ∀ ⦃trace now flag⦄ (i : Interference), P trace now flag →
    P (trace ++ [.others i]) (now + i.elapsed) (flag || i.cancel)

section Specs

variable {σ α : Type} (W : World σ) (c : Params)

/-- The assertion holds, and `backend` is what the factory gave. -/
def At (P : Assertion) (s : Job σ) : Prop :=
  P s.trace s.shared.clock s.shared.cancel ∧ (s.backend = true ↔ .factory (.ok true) ∈ s.trace)

abbrev Spec (P : Assertion) (x : Procedure (Job σ) Stop α) (Q : α → Assertion)
    (E : Stop → Assertion) : Prop :=
  Procedure.Triple (At P) x (fun a => At (Q a)) (fun e => At (E e))

variable {P Q R : Assertion} {E : Stop → Assertion}

theorem At.record {s : Job σ} (h : At P s) {a : Action} (ha : a.isFactory = false)
    (hQ : P s.trace s.shared.clock s.shared.cancel →
      Q (s.trace ++ [a]) s.shared.clock s.shared.cancel) :
    At Q (s.record a) := by
  refine ⟨hQ h.1, h.2.trans ?_⟩
  have hne : .factory (.ok true) ≠ a := by
    rintro rfl
    cases ha
  simp [Job.record, hne]

theorem At.interfere {s : Job σ} (hP : Stable P) (h : At P s) (i : Interference) (w : σ) :
    At P (s.interfere i w) := by
  refine ⟨hP i h.1, h.2.trans ?_⟩
  simp [Job.interfere, Job.record]

theorem spec_call {f : σ → Except Thrown α × σ} {a : Except Thrown α → Action} {Q : α → Assertion}
    (ha : ∀ r, (a r).isFactory = false)
    (hok : ∀ v trace now flag, P trace now flag → Q v (trace ++ [a (.ok v)]) now flag)
    (hthrow : ∀ what trace now flag, P trace now flag →
      E (.threw what) (trace ++ [a (.error what)]) now flag) :
    Spec P (call f a) Q E := by
  intro s hs
  unfold call
  cases hrun : f s.world with
  | mk r w =>
    have hworld : At P { s with world := w } := hs
    cases r with
    | ok v => exact hworld.record (ha _) (hok v _ _ _)
    | error what => exact hworld.record (ha _) (hthrow what _ _ _)

end Specs

/-! ### Traces before and after the verdict -/

/-- The discipline is kept and the cleanup has not begun. -/
structure Held (trace : List Action) : Prop where
  keeps : Discipline.Keeps Allows trace
  unclean : ∀ b ∈ trace, b.isCleanup = false
  uncleaned : ∀ b ∈ trace, b.isCleaned = false

/-- Moreover there is no verdict yet. -/
structure Open (trace : List Action) : Prop extends Held trace where
  unsettled : ∀ b ∈ trace, b.isVerdict = false

section Traces

variable {trace : List Action} {a : Action}

theorem forall_mem_snoc {p : Action → Prop} (h : ∀ b ∈ trace, p b) (ha : p a) :
    ∀ b ∈ trace ++ [a], p b := by
  intro b hb
  rcases List.mem_append.mp hb with hb | hb
  · exact h b hb
  · rw [List.mem_singleton.mp hb]
    exact ha

theorem Held.snoc (h : Held trace) (hallows : Allows trace a) (hcleanup : a.isCleanup = false)
    (hcleaned : a.isCleaned = false) : Held (trace ++ [a]) :=
  ⟨Discipline.keeps_snoc.mpr ⟨h.keeps, hallows⟩, forall_mem_snoc h.unclean hcleanup,
    forall_mem_snoc h.uncleaned hcleaned⟩

theorem Open.snoc (h : Open trace) (hallows : Allows trace a) (hcleanup : a.isCleanup = false)
    (hcleaned : a.isCleaned = false) (hverdict : a.isVerdict = false) : Open (trace ++ [a]) :=
  ⟨h.toHeld.snoc hallows hcleanup hcleaned, forall_mem_snoc h.unsettled hverdict⟩

/-- What the worker reads, and what others do, is always allowed. -/
theorem Held.quiet (h : Held trace) (ha : a.isRead = true ∨ a.isOwn = false) :
    Held (trace ++ [a]) := by
  cases a with
  | readCancel _ | readControl _ | readCancelRequested _ | readDeadline _ | clock _ | others _ =>
    exact h.snoc trivial rfl rfl
  | _ => simp [Action.isRead, Action.isOwn] at ha

theorem Open.quiet (h : Open trace) (ha : a.isRead = true ∨ a.isOwn = false) :
    Open (trace ++ [a]) := by
  refine ⟨h.toHeld.quiet ha, forall_mem_snoc h.unsettled ?_⟩
  cases a with
  | readCancel _ | readControl _ | readCancelRequested _ | readDeadline _ | clock _
  | others _ => rfl
  | _ => simp [Action.isRead, Action.isOwn] at ha

theorem Held.live (h : Held trace) (hmade : .factory (.ok true) ∈ trace) : Live trace :=
  ⟨hmade, h.unclean⟩

/-- A progress event. -/
theorem Held.progress (h : Held trace) {e : CliTunLifecycleEvent} (he : e.kind = .progress) :
    Held (trace ++ [.event e]) := by
  apply h.snoc
  · refine ⟨h.uncleaned, fun hkind => ?_, fun hkind => ?_⟩
    · simp [he] at hkind
    · simp [he] at hkind
  · rfl
  · simp [Action.isCleaned, he]

theorem Open.progress (h : Open trace) {e : CliTunLifecycleEvent} (he : e.kind = .progress) :
    Open (trace ++ [.event e]) :=
  ⟨h.toHeld.progress he, forall_mem_snoc h.unsettled (by simp [Action.isVerdict, he])⟩

theorem Open.failed (h : Open trace) {e : CliTunLifecycleEvent} (he : e.kind = .failed) :
    Held (trace ++ [.event e]) := by
  apply h.toHeld.snoc
  · refine ⟨h.uncleaned, fun _ => h.unsettled, fun hkind => ?_⟩
    simp [he] at hkind
  · rfl
  · simp [Action.isCleaned, he]

theorem Open.ready (h : Open trace) (htimely : Timely trace) {e : CliTunLifecycleEvent}
    (he : e.kind = .ready) :
    Held (trace ++ [.event e]) := by
  apply h.toHeld.snoc
  · exact ⟨h.uncleaned, fun _ => h.unsettled, fun _ => htimely⟩
  · rfl
  · simp [Action.isCleaned, he]

end Traces

/-- No verdict yet, and these actions have happened. -/
def Working (facts : List Action) : Assertion :=
  fun trace _ _ => Open trace ∧ ∀ a ∈ facts, a ∈ trace

/-- The body of `run` is over. -/
def Settled : Assertion := fun trace _ _ => Held trace

theorem Working.quiet {facts trace : List Action} {now : Nat} {flag : Bool}
    (h : Working facts trace now flag) {a : Action} (ha : a.isRead = true ∨ a.isOwn = false)
    (now' : Nat) (flag' : Bool) :
    Working facts (trace ++ [a]) now' flag' :=
  ⟨h.1.quiet ha, fun b hb => List.mem_append_left _ (h.2 b hb)⟩

section Stages

variable {σ α : Type} (W : World σ) (c : Params) {facts : List Action} {stuck : Prop}

/-- What the worker did since the clock was read after `beginReadiness`. -/
def Rounds (t₀ : Nat) (tail trace : List Action) : Prop :=
  ∃ before rounds, trace.filter Action.isOwn = before ++ [.beginReadiness (.ok ()), .clock t₀] ++
    rounds ++ tail ∧
    ∀ b ∈ rounds, b.isRound = true

theorem Rounds.others {t₀ : Nat} {tail trace : List Action} (h : Rounds t₀ tail trace)
    (i : Interference) :
    Rounds t₀ tail (trace ++ [.others i]) := by
  obtain ⟨before, rounds, htrace, hrounds⟩ := h
  exact ⟨before, rounds, by simpa [Action.isOwn] using htrace, hrounds⟩

theorem Rounds.tail {t₀ : Nat} {tail trace : List Action} (h : Rounds t₀ tail trace) {a : Action}
    (ha : a.isOwn = true) : Rounds t₀ (tail ++ [a]) (trace ++ [a]) := by
  obtain ⟨before, rounds, htrace, hrounds⟩ := h
  exact ⟨before, rounds, by simp [ha, htrace], hrounds⟩

/-- A check that has passed is part of a round. -/
theorem Passed.rounds {reads : List Action} (h : Passed reads) :
    (∀ b ∈ reads, b.isRound = true) ∧ reads ≠ [] ∧ .readCancel true ∉ reads := by
  cases h with
  | free | unlimited | before => simp [Action.isRound]

theorem Working.snoc {trace : List Action} {now : Nat} {flag : Bool}
    (h : Working facts trace now flag) (a : Action) (hallows : Allows trace a)
    (hcleanup : a.isCleanup = false) (hcleaned : a.isCleaned = false)
    (hverdict : a.isVerdict = false) (now' : Nat) (flag' : Bool) :
    Working facts (trace ++ [a]) now' flag' :=
  ⟨h.1.snoc hallows hcleanup hcleaned hverdict, fun b hb => List.mem_append_left _ (h.2 b hb)⟩

/-- In a round, after the poll. -/
def Heard (total left t₀ : Nat) (polled : WindowsReadinessResult) : Assertion := fun trace now _ =>
  Working [.factory (.ok true)] trace now false ∧ Rounds t₀ [.pollReadiness (.ok polled)] trace ∧
    (polled.state = .pending → Rounds t₀ [] trace) ∧ t₀ ≤ now ∧
    (100 < total → t₀ + 10100 ≤ now + 100 * left)

/-- Nothing speaks against `Ready`. -/
def Granted (t₀ : Nat) (result : WindowsReadinessResult) (tail trace : List Action) : Prop :=
  result.state = .ready → ∃ check t, Passed check ∧
    Rounds t₀ ([.pollReadiness (.ok result)] ++ check ++ [.clock t] ++ tail) trace ∧ t₀ ≤ t ∧
    t < t₀ + 10000

theorem Granted.others {t₀ : Nat} {result : WindowsReadinessResult} {tail trace : List Action}
    (h : Granted t₀ result tail trace) (i : Interference) :
    Granted t₀ result tail (trace ++ [.others i]) := by
  intro hready
  obtain ⟨check, t, hpassed, hrounds, ht⟩ := h hready
  exact ⟨check, t, hpassed, hrounds.others i, ht⟩

theorem Granted.tail {t₀ : Nat} {result : WindowsReadinessResult} {tail trace : List Action}
    (h : Granted t₀ result tail trace) {a : Action} (ha : a.isOwn = true) :
    Granted t₀ result (tail ++ [a]) (trace ++ [a]) := by
  intro hready
  obtain ⟨check, t, hpassed, hrounds, ht⟩ := h hready
  refine ⟨check, t, hpassed, ?_, ht⟩
  rw [← List.append_assoc]
  exact hrounds.tail ha

theorem Timely.others {trace : List Action} (h : Timely trace) (i : Interference) :
    Timely (trace ++ [.others i]) := by
  obtain ⟨before, t₀, rounds, result, check, t, e, a, htrace, hrest⟩ := h
  exact ⟨before, t₀, rounds, result, check, t, e, a, by simpa [Action.isOwn] using htrace, hrest⟩

/-- A worker that is still waiting. -/
def Waiting (stuck : Prop) : Stop → Assertion
  | .threw _ => fun _ _ _ => False
  | .blocked => fun trace _ _ => Held trace ∧ stuck

/-- The backend was cleaned up if there was one; `Cleaned` is still to come. -/
def Swept : Assertion := fun trace _ _ =>
  Discipline.Keeps Allows trace ∧ (∀ b ∈ trace, b.isCleaned = false) ∧
    (.factory (.ok true) ∈ trace → trace.countP Action.isCleanup = 1) ∧
    (.factory (.ok true) ∉ trace → trace.countP Action.isCleanup = 0)

/-- The last event is `Cleaned`, and the only one. -/
def Over : Assertion := fun trace _ _ =>
  Discipline.Keeps Allows trace ∧
    (∃ front e, trace = front ++ [.event e] ∧ e.kind = .cleaned ∧ ∀ b ∈ front,
      b.isCleaned = false) ∧
    (.factory (.ok true) ∈ trace → trace.countP Action.isCleanup = 1) ∧
    (.factory (.ok true) ∉ trace → trace.countP Action.isCleanup = 0)

end Stages

/-! ### What the discipline says about a trace -/

section Facts

variable {trace : List Action}

end Facts

/-! ### What is on record was read -/

/-- What others have left after a trace. -/
def Shared.after (shared : Shared) (trace : List Action) : Shared :=
  trace.foldl (fun shared a => match a with
    | .others i => shared.interfere i
    | _ => shared) shared

/-- A value on record is the one that others had left. -/
def Truthful (c : Params) (init : Shared) (front : List Action) : Action → Prop
  | .readCancel flag => flag = (init.after front).cancel
  | .readControl present => present = c.control
  | .readCancelRequested flag => flag = (init.after front).cancelRequested
  | .readDeadline ms => ms = (init.after front).deadlineMs
  | .clock now => now = (init.after front).clock
  | .event e => e.generation = c.generation ∧ e.time = (init.after front).clock
  | _ => True

structure Faithful {σ : Type} (c : Params) (init : Shared) (s : Job σ) : Prop where
  shared : s.shared = init.after s.trace
  truthful : Discipline.Keeps (Truthful c init) s.trace

section Faith

variable {σ α : Type} (W : World σ) (c : Params) {init : Shared}

theorem Shared.after_snoc (shared : Shared) (trace : List Action) {a : Action}
    (ha : a.isOwn = true) :
    shared.after (trace ++ [a]) = shared.after trace := by
  unfold Shared.after
  rw [List.foldl_append]
  cases a with
  | others _ => cases ha
  | _ => rfl

theorem Shared.after_others (shared : Shared) (trace : List Action) (i : Interference) :
    shared.after (trace ++ [.others i]) = (shared.after trace).interfere i := by
  simp [Shared.after]

variable {c}

theorem Faithful.record {s : Job σ} (h : Faithful c init s) {a : Action} (ha : a.isOwn = true)
    (htrue : Truthful c init s.trace a) : Faithful c init (s.record a) where
  shared := h.shared.trans (Shared.after_snoc init s.trace ha).symm
  truthful := Discipline.keeps_snoc.mpr ⟨h.truthful, htrue⟩

theorem Faithful.interfere {s : Job σ} (h : Faithful c init s) (i : Interference) (w : σ) :
    Faithful c init (s.interfere i w) where
  shared := by
    change s.shared.interfere i = init.after (s.trace ++ [.others i])
    rw [Shared.after_others, h.shared]
  truthful := Discipline.keeps_snoc.mpr ⟨h.truthful, trivial⟩

end Faith

theorem Passed.isRead {reads : List Action} (h : Passed reads) : ∀ b ∈ reads, b.isRead = true := by
  cases h with
  | free | unlimited | before => simp [Action.isRead]

end VlanConnect.CliTunLifecycle

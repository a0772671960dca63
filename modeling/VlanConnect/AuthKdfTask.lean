/-
  VlanConnect/AuthKdfTask.lean
  ============================
  **The key derivation worker** (`AuthKdfTask` of `common/auth_kdf_task.h`).

  The network thread starts, cancels and polls; one worker takes the queued
  request, computes without the lock and publishes what it found.  Every
  section under the lock is one step, so a run is a list of such steps in the
  order in which the threads got the lock.

  A computation cannot be stopped.  What keeps a stale hash from the network
  thread is `m_generation`, which every start and every cancel moves on; it has
  64 bits, so it says nothing about a computation that is overtaken `2 ^ 64`
  times.  `Tracks` compares the task with its purpose, a single request that is
  outstanding or not.
-/
import Mathlib.Data.List.Induction
import VlanConnect.Client.State

namespace VlanConnect

def UINT32_MAX : Nat := 0xFFFFFFFF

/-- The success flag and the bytes left in `hash`.  `allocates` is whether
    `malloc` gives the work area. -/
def hashPasswordSalted (kdf : Kdf) (allocates : Bool) (password salt : Bytes) : Bool × Bytes :=
  if password.length > UINT32_MAX ∨ allocates = false then (false, List.replicate 32 0)
  else (true, kdf.hash password salt)

namespace AuthKdfTask

structure Result where
  hash : Bytes := List.replicate 32 0
  success : Bool := false
  elapsedMs : Nat := 0
deriving DecidableEq, Repr

/-- The thread `m_worker` and the locals of `run`. -/
inductive Worker where
  | absent
  | waiting
  /-- `overtaken` is history: the starts and cancels since the request was taken. -/
  | computing (generation : Nat) (password salt : Bytes) (overtaken : Nat)
  | returned
deriving DecidableEq, Repr

namespace Worker

def joinable : Worker → Bool
  | absent => false
  | _ => true

def overtake : Worker → Worker
  | computing generation password salt overtaken =>
    computing generation password salt (overtaken + 1)
  | w => w

def overtaken : Worker → Nat
  | computing _ _ _ overtaken => overtaken
  | _ => 0

end Worker

end AuthKdfTask

/-- `generation` is a `uint64_t`. -/
structure AuthKdfTask where
  worker : AuthKdfTask.Worker := .absent
  stop : Bool := false
  queued : Bool := false
  ready : Bool := false
  generation : Nat := 0
  password : Bytes := []
  salt : Bytes := List.replicate AUTH_SALT_SIZE 0
  result : AuthKdfTask.Result := {}
deriving DecidableEq, Repr

namespace AuthKdfTask

variable (kdf : Kdf)

/-! ### Sections under the lock -/

def cancelLocked (t : AuthKdfTask) : AuthKdfTask :=
  { t with
    worker := t.worker.overtake
    generation := (t.generation + 1) % 2 ^ 64
    password := []
    salt := List.replicate AUTH_SALT_SIZE 0
    result := { t.result with hash := List.replicate 32 0 }
    queued := false
    ready := false }

def cancel (t : AuthKdfTask) : AuthKdfTask := t.cancelLocked

def start (t : AuthKdfTask) (password salt : Bytes) : AuthKdfTask :=
  let t := t.cancelLocked
  { t with
    password := password
    salt := salt
    queued := true
    worker := if t.worker.joinable then t.worker else .waiting }

def poll (t : AuthKdfTask) : Option Result × AuthKdfTask :=
  if ¬ t.ready then (none, t)
  else (some t.result,
    { t with result := { t.result with hash := List.replicate 32 0 }, ready := false })

/-- The locked part of the destructor. -/
def destroy (t : AuthKdfTask) : AuthKdfTask := { t with stop := true }.cancelLocked

/-- `run`, from the wait to `lock.unlock()`. -/
def take (t : AuthKdfTask) : AuthKdfTask :=
  match t.worker with
  | .waiting =>
    if t.stop then { t with worker := .returned }
    else if t.queued then
      { t with
        worker := .computing t.generation t.password t.salt 0, password := [], queued := false }
    else t
  | _ => t

/-- `run`, from `lock.lock()` to the next wait. -/
def publish (t : AuthKdfTask) (allocates : Bool) (elapsedMs : Nat) : AuthKdfTask :=
  match t.worker with
  | .computing generation password salt _ =>
    let (success, hash) := hashPasswordSalted kdf allocates password salt
    if ¬ t.stop ∧ generation = t.generation then
      { t with
        worker := .waiting
        result := { hash := hash, success := success, elapsedMs := elapsedMs }
        ready := true }
    else { t with worker := .waiting }
  | _ => t

/-! ### Runs -/

inductive Event where
  | start (password salt : Bytes)
  | cancel
  | poll
  | destroy
  | take
  | publish (allocates : Bool) (elapsedMs : Nat)
deriving DecidableEq, Repr

/-- The calls that make a computation stale. -/
def Event.isRequest : Event → Bool
  | .start _ _ | .cancel | .destroy => true
  | .poll | .take | .publish _ _ => false

def step (t : AuthKdfTask) : Event → AuthKdfTask
  | .start password salt => t.start password salt
  | .cancel => t.cancel
  | .poll => t.poll.2
  | .destroy => t.destroy
  | .take => t.take
  | .publish allocates elapsedMs => t.publish kdf allocates elapsedMs

def run (events : List Event) : AuthKdfTask := events.foldl (step kdf) {}

@[simp] theorem run_snoc (events : List Event) (e : Event) :
    run kdf (events ++ [e]) = (run kdf events).step kdf e := by
  simp [run]

/-- No computation of the run is overtaken `2 ^ 64` times. -/
def Timely (events : List Event) : Prop :=
  ∀ front, front <+: events → (run kdf front).worker.overtaken < 2 ^ 64

/-- The start of `password` under `salt` is the last request of the run, and no
    poll after it was answered. -/
def Outstanding (events : List Event) (password salt : Bytes) : Prop :=
  ∃ before after, events = before ++ .start password salt :: after ∧
    (∀ e ∈ after, e.isRequest = false) ∧
    ∀ mid rest, after = mid ++ .poll :: rest →
    (run kdf (before ++ .start password salt :: mid)).poll.1 = none

/-! ### The request behind the task -/

/-- `request` is the password and the salt whose hash may still come back. -/
structure Tracks (t : AuthKdfTask) (request : Option (Bytes × Bytes)) : Prop where
  queued : t.queued = true → request = some (t.password, t.salt) ∧ t.ready = false
  ready : t.ready = true → ∃ password salt allocates, request = some (password, salt) ∧
    (t.result.success, t.result.hash) = hashPasswordSalted kdf allocates password salt
  generation : ∀ g password salt n, t.worker = .computing g password salt n →
      (g + n) % 2 ^ 64 = t.generation
  current : ∀ g password salt, t.worker = .computing g password salt 0 →
    request = some (password, salt) ∧ t.queued = false ∧ t.ready = false
  small : t.generation < 2 ^ 64

variable {kdf}

theorem Timely.front {front events : List Event} (h : Timely kdf events)
    (hfront : front <+: events) :
    Timely kdf front := fun _ h' => h _ (h'.trans hfront)

theorem Timely.bound {events : List Event} (h : Timely kdf events) :
    (run kdf events).worker.overtaken < 2 ^ 64 :=
  h _ (List.prefix_refl _)

theorem tracks_init : Tracks kdf {} none :=
  ⟨nofun, nofun, nofun, nofun, Nat.two_pow_pos 64⟩

theorem Worker.overtake_computing {w : Worker} {g : Nat} {password salt : Bytes} {n : Nat}
    (h : w.overtake = .computing g password salt n) :
    ∃ m, w = .computing g password salt m ∧ n = m + 1 := by
  cases w with
  | computing g' password' salt' m =>
    cases h
    exact ⟨m, rfl, rfl⟩
  | _ => cases h

theorem Tracks.cancelLocked {t : AuthKdfTask} {request : Option (Bytes × Bytes)}
    (h : Tracks kdf t request) :
    Tracks kdf t.cancelLocked none where
  queued := nofun
  ready := nofun
  generation := by
    intro g password salt n hw
    obtain ⟨m, hm, rfl⟩ := Worker.overtake_computing hw
    show _ = (t.generation + 1) % 2 ^ 64
    rw [← h.generation g password salt m hm, Nat.mod_add_mod, Nat.add_assoc]
  current := by
    intro g password salt hw
    obtain ⟨m, _, hzero⟩ := Worker.overtake_computing hw
    cases hzero
  small := Nat.mod_lt _ (Nat.two_pow_pos 64)

theorem Tracks.start {t : AuthKdfTask} {request : Option (Bytes × Bytes)} (password salt : Bytes)
    (h : Tracks kdf t request) : Tracks kdf (t.start password salt) (some (password, salt)) := by
  have hc := h.cancelLocked
  have hstale : ∀ g password salt n, t.cancelLocked.worker = .computing g password salt n →
      n ≠ 0 := by
    intro g password salt n hw hzero
    obtain ⟨m, _, hm⟩ := Worker.overtake_computing hw
    omega
  have hworker : ∀ g pw s n, (t.start password salt).worker = .computing g pw s n →
      t.cancelLocked.worker = .computing g pw s n := by
    intro g pw s n hw
    unfold AuthKdfTask.start at hw
    dsimp only at hw
    split at hw
    · exact hw
    · cases hw
  refine ⟨fun _ => ⟨rfl, rfl⟩, nofun, ?_, ?_, hc.small⟩
  · intro g pw s n hw
    exact hc.generation g pw s n (hworker g pw s n hw)
  · intro g pw s hw
    exact absurd rfl (hstale g pw s 0 (hworker g pw s 0 hw))

theorem Tracks.destroy {t : AuthKdfTask} {request : Option (Bytes × Bytes)}
    (h : Tracks kdf t request) :
    Tracks kdf t.destroy none :=
  Tracks.cancelLocked (t := { t with stop := true }) ⟨h.queued, h.ready, h.generation,
    h.current, h.small⟩

theorem Tracks.take {t : AuthKdfTask} {request : Option (Bytes × Bytes)}
    (h : Tracks kdf t request) :
    Tracks kdf t.take request := by
  unfold AuthKdfTask.take
  split
  · split
    · exact ⟨h.queued, h.ready, nofun, nofun, h.small⟩
    split
    · next hq =>
      obtain ⟨hreq, hready⟩ := h.queued hq
      refine ⟨nofun, h.ready, ?_, ?_, h.small⟩
      · intro g password salt n hw
        cases hw
        exact Nat.mod_eq_of_lt h.small
      · intro g password salt hw
        cases hw
        exact ⟨hreq, rfl, hready⟩
    · exact h
  · exact h

/-- A computation that comes back with the current generation was not overtaken. -/
theorem Tracks.publish {t : AuthKdfTask} {request : Option (Bytes × Bytes)} (allocates : Bool)
    (elapsedMs : Nat) (hbound : t.worker.overtaken < 2 ^ 64) (h : Tracks kdf t request) :
    Tracks kdf (t.publish kdf allocates elapsedMs) request := by
  unfold AuthKdfTask.publish
  split
  · next g password salt n hw =>
    dsimp only
    split
    · next hcurrent =>
      have hgen := h.generation g password salt n hw
      have hn : n = 0 := by
        rw [hw] at hbound
        change n < 2 ^ 64 at hbound
        have hsmall := h.small
        rw [← hcurrent.2] at hgen hsmall
        -- the generation has moved on by less than a full turn
        omega
      subst hn
      obtain ⟨hreq, hqueued, _⟩ := h.current g password salt hw
      refine ⟨fun hq => ?_, fun _ => ⟨password, salt, allocates, hreq, rfl⟩, nofun, nofun, h.small⟩
      exact absurd (hqueued.symm.trans hq) Bool.false_ne_true
    · exact ⟨h.queued, h.ready, nofun, nofun, h.small⟩
  · exact h

/-- What the requests and the worker do to the outstanding request. -/
def Event.request (request : Option (Bytes × Bytes)) : Event → Option (Bytes × Bytes)
  | .start password salt => some (password, salt)
  | .cancel | .destroy => none
  | .poll | .take | .publish _ _ => request

theorem Tracks.step {t : AuthKdfTask} {request : Option (Bytes × Bytes)} {e : Event}
    (he : e ≠ .poll) (hbound : t.worker.overtaken < 2 ^ 64) (h : Tracks kdf t request) :
    Tracks kdf (t.step kdf e) (e.request request) := by
  cases e with
  | start password salt => exact h.start password salt
  | cancel => exact h.cancelLocked
  | poll => exact absurd rfl he
  | destroy => exact h.destroy
  | take => exact h.take
  | publish allocates elapsedMs => exact h.publish allocates elapsedMs hbound

/-- An answer is the hash of the request, and the request is over. -/
theorem Tracks.poll {t : AuthKdfTask} {request : Option (Bytes × Bytes)}
    (h : Tracks kdf t request) :
    (t.poll.1 = none → Tracks kdf t.poll.2 request) ∧
    ∀ r, t.poll.1 = some r → Tracks kdf t.poll.2 none ∧ ∃ password salt allocates,
    request = some (password, salt) ∧
      (r.success, r.hash) = hashPasswordSalted kdf allocates password salt := by
  unfold AuthKdfTask.poll
  by_cases hready : t.ready = true
  · rw [if_neg (not_not.mpr hready)]
    refine ⟨nofun, fun r hr => ?_⟩
    cases hr
    refine ⟨⟨fun hq => ?_, nofun, h.generation, fun g password salt hw => ?_, h.small⟩,
      h.ready hready⟩
    · exact absurd ((h.queued hq).2.symm.trans hready) Bool.false_ne_true
    · exact absurd ((h.current g password salt hw).2.2.symm.trans hready) Bool.false_ne_true
  · rw [if_pos hready]
    exact ⟨fun _ => h, nofun⟩

/-! ### The request of a run -/

theorem Outstanding.start (events : List Event) (password salt : Bytes) :
    Outstanding kdf (events ++ [.start password salt]) password salt :=
  ⟨events, [], rfl, nofun, fun mid rest h => by cases mid <;> cases h⟩

theorem Outstanding.snoc {events : List Event} {password salt : Bytes} {e : Event}
    (h : Outstanding kdf events password salt) (he : e.isRequest = false)
    (hpoll : e = .poll → (run kdf events).poll.1 = none) :
    Outstanding kdf (events ++ [e]) password salt := by
  obtain ⟨before, after, rfl, hafter, hanswers⟩ := h
  refine ⟨before, after ++ [e], by simp, ?_, ?_⟩
  · intro e' he'
    rcases List.mem_append.mp he' with he' | he'
    · exact hafter e' he'
    · obtain rfl := List.mem_singleton.mp he'
      exact he
  · intro mid rest hsplit
    rcases List.eq_nil_or_concat rest with rfl | ⟨rest', last, rfl⟩
    · -- the poll is the new event
      obtain ⟨rfl, hlast⟩ := List.append_inj' hsplit rfl
      exact hpoll (List.singleton_inj.mp hlast)
    · have hfront : after = mid ++ .poll :: rest' := by
        have hsplit : after ++ [e] = (mid ++ .poll :: rest') ++ [last] := by simpa using hsplit
        exact (List.append_inj' hsplit rfl).1
      exact hanswers mid rest' hfront

/-- The task and the history agree on the request. -/
structure Linked (kdf : Kdf) (events : List Event) (request : Option (Bytes × Bytes)) : Prop where
  tracks : Tracks kdf (run kdf events) request
  outstanding : ∀ password salt, request = some (password, salt) →
      Outstanding kdf events password salt

theorem linked_nil : Linked kdf [] none := ⟨tracks_init, nofun⟩

theorem Linked.step {events : List Event} {request : Option (Bytes × Bytes)} {e : Event}
    (he : e ≠ .poll) (hbound : (run kdf events).worker.overtaken < 2 ^ 64)
    (h : Linked kdf events request) :
    Linked kdf (events ++ [e]) (e.request request) := by
  refine ⟨?_, fun password salt hreq => ?_⟩
  · rw [run_snoc]
    exact h.tracks.step he hbound
  · cases e with
    | start pw s =>
      cases hreq
      exact Outstanding.start events password salt
    | poll => exact absurd rfl he
    | take => exact (h.outstanding password salt hreq).snoc rfl nofun
    | publish allocates elapsedMs => exact (h.outstanding password salt hreq).snoc rfl nofun
    | _ => cases hreq

theorem Linked.poll {events : List Event} {request : Option (Bytes × Bytes)}
    (h : Linked kdf events request) :
    Linked kdf (events ++ [.poll]) (if (run kdf events).poll.1 = none then request else none) := by
  by_cases hanswer : (run kdf events).poll.1 = none
  · rw [if_pos hanswer]
    refine ⟨?_, fun password salt hreq => (h.outstanding password salt hreq).snoc rfl fun _ =>
      hanswer⟩
    rw [run_snoc]
    exact h.tracks.poll.1 hanswer
  · rw [if_neg hanswer]
    obtain ⟨r, hr⟩ := Option.ne_none_iff_exists'.mp hanswer
    refine ⟨?_, nofun⟩
    rw [run_snoc]
    exact (h.tracks.poll.2 r hr).1

end AuthKdfTask

end VlanConnect

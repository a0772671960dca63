/-
  VlanConnect/Client/KeyDerivation.lean
  =====================================
  **The hash a client consumes belongs to the operation it waits for.**

  The client has one key derivation task for three operations and keeps one
  salt for all of them; `m_authOperation` says which one a result is for.
  `Recorded` is what the fields of the client say about the outstanding request
  after every event.  `Drives` puts the client and the task together: the
  client's calls, in whatever order with the steps of the worker, act on the
  task as its `authTask` says, and the timeouts see the answer of the real task.
-/
import VlanConnect.AuthKdfTask
import VlanConnect.Client.EventEffects

namespace VlanConnect

namespace SignalClient

variable (K : Crypto) (kdf : Kdf)

/-! ### What is recorded for an operation -/

/-- The password that the operation was started with. -/
def RecordedFor (c : SignalClient) (password : Bytes) : AuthOperation → Prop
  | .none => False
  | .serverAuth => password = c.serverPassword
  | .createRoom => ∃ settings, .asked (.createRoom settings (some password)) ∈ c.log ∧
      c.pendingCreate = createRoomFront settings true ∧
      c.pendingCreateMtu = normalizeRoomMtu settings.mtu
  | .roomPassword => ∃ roomId, .asked (.joinRoom roomId password) ∈ c.log

structure Recorded (c : SignalClient) : Prop where
  idle : c.authTask = none → c.authOperation = .none
  request : ∀ password salt, c.authTask = some (password, salt) →
    salt = c.authSalt ∧ c.RecordedFor password c.authOperation
  create : c.authOperation = .createRoom → c.secureReady = true
  joining : c.hasPendingAuth = true →
      ∃ roomId, .asked (.joinRoom roomId c.pendingRoomPassword) ∈ c.log
  roomReady : c.roomOperationPending = true → c.secureReady = true

theorem Recorded.task_none {c : SignalClient} (h : Recorded c) (hop : c.authOperation = .none) :
    c.authTask = none := by
  by_contra hne
  obtain ⟨⟨password, salt⟩, htask⟩ := Option.ne_none_iff_exists'.mp hne
  have hrec := (h.request password salt htask).2
  rw [hop] at hrec
  exact hrec

/-- The request and what is recorded for it are the same. -/
theorem Recorded.keep {c c' : SignalClient} (h : Recorded c) (htask : c'.authTask = c.authTask)
    (hop : c'.authOperation = c.authOperation) (hsalt : c'.authSalt = c.authSalt)
    (hpassword : c.authOperation = .serverAuth → c'.serverPassword = c.serverPassword)
    (hcreate : c.authOperation = .createRoom → c'.pendingCreate = c.pendingCreate ∧
      c'.pendingCreateMtu = c.pendingCreateMtu ∧ c'.secureReady = c.secureReady)
    (hlog : c.log ⊆ c'.log)
    (hjoin : c'.hasPendingAuth = true → c.hasPendingAuth = true ∧
      c'.pendingRoomPassword = c.pendingRoomPassword)
    (hroom : c'.roomOperationPending = true → c'.secureReady = true) : Recorded c' := by
  refine ⟨fun hnone => ?_, fun password salt hsome => ?_, fun hcr => ?_, fun hpending => ?_, hroom⟩
  · rw [hop]
    exact h.idle (htask.symm.trans hnone)
  · obtain ⟨hs, hrec⟩ := h.request password salt (htask.symm.trans hsome)
    refine ⟨hs.trans hsalt.symm, ?_⟩
    rw [hop]
    generalize hop' : c.authOperation = op at hrec ⊢
    cases op with
    | none => exact hrec
    | serverAuth => exact Eq.trans hrec (hpassword hop').symm
    | createRoom =>
      obtain ⟨settings, hasked, hfront, hmtu⟩ := hrec
      obtain ⟨hcreate, hcreateMtu, _⟩ := hcreate hop'
      exact ⟨settings, hlog hasked, hcreate.trans hfront, hcreateMtu.trans hmtu⟩
    | roomPassword =>
      obtain ⟨roomId, hasked⟩ := hrec
      exact ⟨roomId, hlog hasked⟩
  · have hcr : c.authOperation = .createRoom := hop.symm.trans hcr
    exact (hcreate hcr).2.2.trans (h.create hcr)
  · obtain ⟨hp, hpw⟩ := hjoin hpending
    obtain ⟨roomId, hasked⟩ := h.joining hp
    refine ⟨roomId, ?_⟩
    rw [hpw]
    exact hlog hasked

/-- There is no request any more. -/
theorem Recorded.over {c c' : SignalClient} (h : Recorded c) (htask : c'.authTask = none)
    (hop : c'.authOperation = .none) (hlog : c.log ⊆ c'.log)
    (hjoin : c'.hasPendingAuth = true → c.hasPendingAuth = true ∧
      c'.pendingRoomPassword = c.pendingRoomPassword)
    (hroom : c'.roomOperationPending = true → c'.secureReady = true) : Recorded c' := by
  refine ⟨fun _ => hop, fun password salt hsome => ?_, fun hcr => ?_, fun hpending => ?_, hroom⟩
  · cases htask.symm.trans hsome
  · cases hop.symm.trans hcr
  · obtain ⟨hp, hpw⟩ := hjoin hpending
    obtain ⟨roomId, hasked⟩ := h.joining hp
    refine ⟨roomId, ?_⟩
    rw [hpw]
    exact hlog hasked

/-- A new request replaces the one before it. -/
theorem Recorded.started {c c' : SignalClient} {password : Bytes} (h : Recorded c)
    (htask : c'.authTask = some (password, c'.authSalt))
    (hrec : c'.RecordedFor password c'.authOperation)
    (hready : c'.authOperation = .createRoom → c'.secureReady = true) (hlog : c.log ⊆ c'.log)
    (hjoin : c'.hasPendingAuth = true → c.hasPendingAuth = true ∧
      c'.pendingRoomPassword = c.pendingRoomPassword)
    (hroom : c'.roomOperationPending = true → c'.secureReady = true) : Recorded c' := by
  refine ⟨fun hnone => ?_, fun password' salt hsome => ?_, hready, fun hpending => ?_, hroom⟩
  · cases htask.symm.trans hnone
  · obtain ⟨rfl, rfl⟩ := Prod.mk.inj (Option.some.inj (htask.symm.trans hsome))
    exact ⟨rfl, hrec⟩
  · obtain ⟨hp, hpw⟩ := hjoin hpending
    obtain ⟨roomId, hasked⟩ := h.joining hp
    refine ⟨roomId, ?_⟩
    rw [hpw]
    exact hlog hasked

theorem Recorded.requests {c c' : SignalClient} (hsame : SameRequests c c') (h : Recorded c) :
    Recorded c' := by
  refine h.keep hsame.authTask hsame.authOperation hsame.authSalt (fun _ => hsame.serverPassword)
    (fun _ => ⟨hsame.pendingCreate, hsame.pendingCreateMtu, hsame.secureReady⟩) ?_ (fun hp => ?_)
    (fun hroom => ?_)
  · rw [hsame.log]
    exact List.Subset.refl _
  · exact ⟨hsame.hasPendingAuth.symm.trans hp, hsame.pendingRoomPassword⟩
  · rw [hsame.secureReady]
    exact h.roomReady (hsame.roomOperationPending.symm.trans hroom)

theorem Recorded.record {c : SignalClient} (o : Output) (h : Recorded c) : Recorded (c.record o) :=
  h.keep rfl rfl rfl (fun _ => rfl) (fun _ => ⟨rfl, rfl, rfl⟩) (List.subset_append_left _ _)
    (fun hp => ⟨hp, rfl⟩)
    h.roomReady

theorem Recorded.resetOf {c c' : SignalClient} (hreset : ResetOf c c') (h : Recorded c) :
    Recorded c' := by
  refine h.over hreset.authTask hreset.authOperation ?_ (fun hp => ?_) (fun hroom => ?_)
  · rw [hreset.log]
    exact List.Subset.refl _
  · cases hreset.hasPendingAuth.symm.trans hp
  · cases hreset.roomOperationPending.symm.trans hroom

theorem Recorded.resetConn {c : SignalClient} (h : Recorded c) : Recorded c.resetConn := by
  refine Recorded.record .closed (h.requests ?_)
  constructor <;> rfl

theorem Recorded.setServerPassword {c : SignalClient} (password : Bytes) (h : Recorded c) :
    Recorded (c.setServerPassword password) := by
  unfold SignalClient.setServerPassword
  have h₁ :
    Recorded { (if c.authOperation = .serverAuth then { c with
      authTask := none, authOperation := .none } else c)
      with serverPassword := password } := by
    split
    · exact h.over rfl rfl (List.Subset.refl _) (fun hp => ⟨hp, rfl⟩) h.roomReady
    · next hop =>
      exact h.keep rfl rfl rfl (fun hserver => absurd hserver hop) (fun _ => ⟨rfl, rfl, rfl⟩)
        (List.Subset.refl _)
        (fun hp => ⟨hp, rfl⟩) h.roomReady
  generalize (if c.authOperation = .serverAuth then { c with
    authTask := none, authOperation := .none } else c) = c₁
    at h₁ ⊢
  dsimp only
  split
  · refine Recorded.requests ?_ (Recorded.resetOf (resetSecureState_resetOf _) h₁.resetConn)
    constructor <;> rfl
  · exact h₁

theorem Recorded.cancel {c : SignalClient} (h : Recorded c) : Recorded c.cancelRoomOperation := by
  have hcancel := cancelRoomOperation_cancelOf c
  have hlog : c.log ⊆ c.cancelRoomOperation.log := by
    rw [hcancel.log]
    exact List.Subset.refl _
  have hjoin : c.cancelRoomOperation.hasPendingAuth = true → c.hasPendingAuth = true ∧
      c.cancelRoomOperation.pendingRoomPassword = c.pendingRoomPassword := fun hp => by
    cases hcancel.hasPendingAuth.symm.trans hp
  have hroom : c.cancelRoomOperation.roomOperationPending = true →
      c.cancelRoomOperation.secureReady = true :=
    fun hroom => by cases hcancel.roomOperationPending.symm.trans hroom
  rcases hcancel.authOperation with ⟨hop, htask, hne⟩ | ⟨hop, htask, _⟩
  · exact h.keep htask hop hcancel.authSalt (fun _ => hcancel.serverPassword)
      (fun hcr => absurd hcr hne) hlog hjoin hroom
  · exact h.over htask hop hlog hjoin hroom

theorem recorded_effects :
    Effects (fun _ => True) (fun _ _ _ => True) (fun _ _ => True) Recorded where
  plain _ _ _ := trivial
  same hsame h := h.requests hsame.requests
  called _ _ h := h.record _
  asked _ h := h.record _
  dropped h := Recorded.resetOf (resetSecureState_resetOf _) h.resetConn
  connectTo := by
    intro c ok h
    have hconn := connectTo_connectOf c ok
    refine h.over hconn.authTask hconn.authOperation ?_ (fun hp => ?_) (fun hroom => ?_)
    · rw [hconn.log, List.append_assoc]
      exact List.subset_append_left _ _
    · cases hconn.hasPendingAuth.symm.trans hp
    · cases hconn.roomOperationPending.symm.trans hroom
  setServerPassword password h := h.setServerPassword password
  startServerAuth _ _ _ _ h :=
    h.started rfl rfl nofun (List.Subset.refl _) (fun hp => ⟨hp, rfl⟩) h.roomReady
  roomReady h := h.roomReady
  startRoom hready h :=
    h.keep rfl rfl rfl (fun _ => rfl) (fun _ => ⟨rfl, rfl, rfl⟩) (List.Subset.refl _)
    (fun hp => ⟨hp, rfl⟩) (fun _ => hready)
  endRoom h := h.keep rfl rfl rfl (fun _ => rfl) (fun _ => ⟨rfl, rfl, rfl⟩) (List.Subset.refl _)
    (fun hp => ⟨hp, rfl⟩) nofun
  cancel h := h.cancel
  startCreate := by
    intro c settings password salt hready _ hasked _ h
    exact h.started rfl ⟨settings, hasked, rfl, rfl⟩ (fun _ => hready) (List.Subset.refl _)
      (fun hp => ⟨hp, rfl⟩)
      h.roomReady
  startJoin := by
    intro c roomId password _ hasked h
    exact ⟨h.idle, h.request, h.create, fun _ => ⟨roomId, hasked⟩, h.roomReady⟩
  endJoin _ h := ⟨h.idle, h.request, h.create, nofun, h.roomReady⟩
  startRoomPassword _ _ hpending h := h.started rfl (h.joining hpending) nofun (List.Subset.refl _)
    (fun hp => ⟨hp, rfl⟩) h.roomReady
  send := by
    intro c msgType body enc _ _ h
    have h₁ := h.record (.sent msgType body)
    unfold SignalClient.sendFrame
    dsimp only
    split
    · refine Recorded.record _ (h₁.requests ?_)
      constructor <;> rfl
    · refine h₁.requests ?_
      constructor <;> rfl

theorem recorded_eventEffects : EventEffects (fun _ => True) (fun _ _ _ => True) Recorded where
  toEffects := recorded_effects
  requests := Recorded.requests
  entry _ _ h := h.record _
  hello _ hop h :=
    h.over (h.task_none hop) hop (List.Subset.refl _) (fun hp => ⟨hp, rfl⟩) h.roomReady
  established hop h :=
    h.over (h.task_none hop) hop (List.Subset.refl _) (fun hp => ⟨hp, rfl⟩) fun _ => rfl

section Steps

variable {K kdf} {notify : Notify}

/-- No room is pending after the message of one. -/
theorem Recorded.sent_idle (hn : Keeps notify (fun _ _ => True) Recorded)
    (hoff : Keeps notify (fun _ _ => True) Offline) {c : SignalClient} (msgType : UInt8)
    (body : Bytes) (hop : c.authOperation = .none) (h : Recorded c) :
    Recorded { c.sendMsg K notify msgType body with pendingCreate := [] } := by
  have h₁ : Recorded (c.sendMsg K notify msgType body) := recorded_effects.sendMsg K hn trivial h
  have hidle : (c.sendMsg K notify msgType body).authOperation ≠ .createRoom := by
    intro hcreate
    rcases sendMsg_operation K hoff c msgType body with hoffline | hsame
    · exact absurd (hoffline.secureReady.symm.trans (h₁.create hcreate)) Bool.false_ne_true
    · cases hop.symm.trans (hsame.symm.trans hcreate)
  exact h₁.keep rfl rfl rfl (fun _ => rfl) (fun hcreate => absurd hcreate hidle)
    (List.Subset.refl _)
    (fun hp => ⟨hp, rfl⟩) h₁.roomReady

theorem Recorded.pollAuthTask (hn : Keeps notify (fun _ _ => True) Recorded)
    (hoff : Keeps notify (fun _ _ => True) Offline) {c : SignalClient} (done : Option Bool)
    (h : Recorded c) :
    Recorded (c.pollAuthTask K kdf notify done) := by
  unfold SignalClient.pollAuthTask
  split
  · next password salt success _ =>
    dsimp only
    have h₁ : Recorded { c with authTask := none, authOperation := .none } :=
      h.over rfl rfl (List.Subset.refl _) (fun hp => ⟨hp, rfl⟩) h.roomReady
    split
    · exact h₁
    split
    · exact recorded_effects.failAuthentication hn _ _ h₁
    · split
      · exact Recorded.sent_idle hn hoff _ _ rfl h₁
      · have h₂ :
          Recorded ({ c with authTask := none, authOperation := .none }.sendAuthResponse K notify
            (computeChallengeResponse K (kdf.hash password salt) c.roomChallenge)) :=
          recorded_effects.sendMsg K hn trivial h₁
        refine h₂.requests ?_
        constructor <;> rfl
      · exact recorded_eventEffects.finishServerAuth hn _ h₁
  · exact h

end Steps

variable {K kdf}

variable (K kdf)

/-- Whether `checkTimeouts` comes to `pollAuthTask`. -/
def polls (c : SignalClient) : Bool :=
  !c.sendFailurePending &&
    !(c.roomOperationPending &&
      decide (ROOM_REQUEST_TIMEOUT_MS ≤ c.roomMonotonicMs.1 - c.roomRequestStarted))

/-- Where it does not, the answer of the task makes no difference. -/
theorem checkTimeouts_of_not_polls {notify : Notify} {c : SignalClient} (h : c.polls = false)
    (done : Option Bool) :
    c.checkTimeouts K kdf notify done = c.checkTimeouts K kdf notify none := by
  unfold SignalClient.checkTimeouts
  by_cases hfailure : c.sendFailurePending = true
  · rw [if_pos hfailure, if_pos hfailure]
  · rw [if_neg hfailure, if_neg hfailure]
    have hlate : c.roomOperationPending = true ∧
        ROOM_REQUEST_TIMEOUT_MS ≤ c.roomMonotonicMs.1 - c.roomRequestStarted := by
      simpa [polls, hfailure] using h
    have hstarted : c.roomMonotonicMs.2.roomRequestStarted = c.roomRequestStarted := by
      unfold SignalClient.roomMonotonicMs
      split <;> rfl
    rw [if_pos hlate.1]
    dsimp only
    rw [hstarted, decide_eq_true hlate.2, if_pos rfl, if_pos rfl]

/-- Starts and cancels, in any order with the steps of the worker, that take the
    outstanding request from `request` to `request'`. -/
def Issues (events : List AuthKdfTask.Event) (request request' : Option (Bytes × Bytes)) : Prop :=
  (∀ e ∈ events, e ≠ .poll) ∧ events.foldl AuthKdfTask.Event.request request = request'

/-- The runs of a client with its task: the sections of the task so far, in the
    order of the lock, and the client. -/
inductive Drives : List AuthKdfTask.Event → SignalClient → Prop
  | init (hasRoomOperationFailure : Bool) :
      Drives [] { hasRoomOperationFailure := hasRoomOperationFailure }
  | worker {events : List AuthKdfTask.Event} {c : SignalClient} {e : AuthKdfTask.Event}
      (he : e.isRequest = false)
      (hpoll : e ≠ .poll) : Drives events c → Drives (events ++ [e]) c
  | event {events issued : List AuthKdfTask.Event} {c : SignalClient} (w : Surroundings)
      (e : ClientEvent)
      (he : ∀ done, e ≠ .timeouts done)
      (hissued : Issues issued c.authTask (c.step K kdf w e).authTask) :
      Drives events c → Drives (events ++ issued) (c.step K kdf w e)
  | unpolled {events issued : List AuthKdfTask.Event} {c : SignalClient} (w : Surroundings)
      (hpolls : { c with env := w.env }.polls = false)
      (hissued : Issues issued c.authTask (c.step K kdf w (.timeouts none)).authTask) :
      Drives events c → Drives (events ++ issued) (c.step K kdf w (.timeouts none))
  | polled {events issued : List AuthKdfTask.Event} {c : SignalClient} (w : Surroundings)
      (hpolls : { c with env := w.env }.polls = true) {answer : Option AuthKdfTask.Result}
      (hanswer : (AuthKdfTask.run kdf events).poll.1 = answer)
      (hissued : Issues issued (if answer = none then c.authTask else none)
        (c.step K kdf w (.timeouts (answer.map AuthKdfTask.Result.success))).authTask) :
      Drives events c →
        Drives (events ++ [.poll] ++ issued)
        (c.step K kdf w (.timeouts (answer.map AuthKdfTask.Result.success)))

variable {K kdf}

theorem Drives.reachable {events : List AuthKdfTask.Event} {c : SignalClient}
    (h : Drives K kdf events c) :
    Reachable K kdf (fun _ => True) c := by
  induction h with
  | init hasRoomOperationFailure => exact .init hasRoomOperationFailure
  | worker _ _ _ ih => exact ih
  | event w e _ _ _ ih => exact .step w e (fun _ _ _ _ => trivial) (fun _ _ => trivial) ih
  | unpolled w _ _ _ ih => exact .step w _ (fun _ _ _ _ => trivial) (fun _ _ => trivial) ih
  | polled w _ _ _ _ ih => exact .step w _ (fun _ _ _ _ => trivial) (fun _ _ => trivial) ih

theorem linked_issues {issued : List AuthKdfTask.Event} : ∀ {events : List AuthKdfTask.Event}
    {request request' : Option (Bytes × Bytes)}, AuthKdfTask.Timely kdf (events ++ issued) →
    Issues issued request request' → AuthKdfTask.Linked kdf events request →
    AuthKdfTask.Linked kdf (events ++ issued) request' := by
  induction issued with
  | nil =>
    intro events request request' _ hissued h
    obtain rfl : request = request' := hissued.2
    rw [List.append_nil]
    exact h
  | cons e issued ih =>
    intro events request request' ht hissued h
    have hbound := (ht.front (List.prefix_append events (e :: issued))).bound
    have h₁ := h.step (hissued.1 e List.mem_cons_self) hbound
    have hsplit : events ++ e :: issued = events ++ [e] ++ issued := by simp
    rw [hsplit] at ht ⊢
    exact ih ht ⟨fun e' he' => hissued.1 e' (List.mem_cons_of_mem e he'), hissued.2⟩ h₁

/-- **The task works for the request the client believes in.** -/
theorem Drives.linked {events : List AuthKdfTask.Event} {c : SignalClient}
    (h : Drives K kdf events c) :
    AuthKdfTask.Timely kdf events → AuthKdfTask.Linked kdf events c.authTask := by
  induction h with
  | init => exact fun _ => AuthKdfTask.linked_nil
  | @worker events c e he hpoll _ ih =>
    intro ht
    have hfront := ht.front (List.prefix_append events [e])
    have hlinked := (ih hfront).step hpoll hfront.bound
    cases e with
    | start _ _ => cases he
    | cancel => cases he
    | destroy => cases he
    | poll => exact absurd rfl hpoll
    | take => exact hlinked
    | publish _ _ => exact hlinked
  | event w e _ hissued _ ih =>
    exact fun ht => linked_issues ht hissued (ih (ht.front (List.prefix_append _ _)))
  | unpolled w _ hissued _ ih =>
    exact fun ht => linked_issues ht hissued (ih (ht.front (List.prefix_append _ _)))
  | @polled events issued c w _ answer hanswer hissued _ ih =>
    intro ht
    have hpoll := (ih (ht.front ((List.prefix_append _ _).trans (List.prefix_append _ _)))).poll
    rw [hanswer] at hpoll
    exact linked_issues ht hissued hpoll

variable (K kdf)

end SignalClient

end VlanConnect

/-
  VlanConnect/Server/PasswordGate.lean
  ====================================
  **The password of a room.**

  A challenge is drawn when a session asks to join a protected room, and
  answered once: whatever the answer, the dialogue is over.  So the challenge
  an answer is checked against is the one of the session's last JOIN_ROOM, and
  nothing else leads into a protected room but creating it.
-/
import VlanConnect.Server.Authority

namespace VlanConnect

namespace Server

open Registry

variable (K : Crypto) {limits : ServerLimits} {hash salt : Bytes} {history : List (Server × Event)}
    {s : Server}

/-! ### Messages that reach their handler -/

/-- An event during which a message is handled takes the server round its
    signaling loop. -/
theorem Receives.event {e : Event} {env : Env} (he : s.Enabled e) {fd : Fd} {msgType : UInt8}
    {p : Bytes} {s' : Server} (h : (s.prepare env).Receives K fd msgType p s') : e = .resume := by
  have hctl : s.control = .signal fd := h.control
  cases e with
  | resume => rfl
  | accept g ip =>
    obtain ⟨hidle, _⟩ := he
    cases hctl.symm.trans hidle
  | datagram sender data => cases hctl.symm.trans he
  | readable g chunk => cases hctl.symm.trans he
  | writable g => cases hctl.symm.trans he
  | hangup g => cases hctl.symm.trans he
  | timer => cases hctl.symm.trans he

/-- Behind the handshake a frame that opens goes to the checks of its type. -/
theorem processMessage_opens {fd : Fd} {c : ClientSession} (hc : s.clients[fd]? = some c)
    {frame : Bytes} {msgType : UInt8} {p : Bytes} {s' : Server}
    (hopens : s.Opens K fd frame msgType p s')
    (hstate : c.state ≠ .awaitHello ∧ c.state ≠ .awaitServerAuth ∧ c.state ≠ .closing)
    (hauth : c.serverAuthOk = true) (hsec : c.secureEnabled = true) :
    s.processMessage K fd MSG_ENCRYPTED frame =
      s'.admitClientMsg K fd msgType p (·.dispatchClientMsg K fd msgType p) := by
  unfold Opens at hopens
  unfold processMessage
  have hidle := time_idle s
  generalize s.time = time at hidle hopens ⊢
  have hc₁ : time.2.clients[fd]? = some c := hidle.clients ▸ hc
  dsimp only
  rw [client_eq (clients_modify hc₁)]
  dsimp only
  split
  · next hst => exact absurd hst hstate.2.2
  · next hst => exact absurd hst hstate.1
  · next hst => exact absurd hst hstate.2.1
  · rw [if_neg (by simp [hauth, hsec]), if_neg (by simp), hopens]

/-- The step of a message that passes the checks is its handler. -/
theorem Receives.step (h : Reachable K limits hash salt s) {env : Env} {e : Event}
    (he : s.Enabled e) {fd : Fd} {msgType : UInt8} {p : Bytes} {s' : Server}
    (hrec : (s.prepare env).Receives K fd msgType p s')
    (hknown : isKnownClientSignalMessage msgType = true)
    (hsecure : msgType ≠ MSG_CLIENT_HELLO ∧ msgType ≠ MSG_SERVER_AUTH)
    (hvalid : validateClientSignalPayload msgType p = true) :
    ∃ n, s.step K env e = { s'.dispatchClientMsg K fd msgType p with
      control := .handled fd n } := by
  obtain rfl := hrec.event K he
  obtain ⟨c, hc, hallowed⟩ := hrec.client K (h.sound K)
  have hwf := (h.sound K).good.inv.wf (sessions_registry hc)
  obtain ⟨f, hprobe, hm, hopens⟩ := hrec.frame
  refine ⟨f.frameLen, ?_⟩
  have hc' : (s.prepare env).clients[fd]? = some c := hc
  -- the session is past the handshake
  have hstate : c.state ≠ .awaitHello ∧ c.state ≠ .awaitServerAuth ∧ c.state ≠ .closing := by
    refine ⟨fun hst => ?_, fun hst => ?_, fun hst => ?_⟩
    · rw [hst] at hallowed
      exact hsecure.1 (by simpa [isClientSignalMessageAllowed, allowedClientSignalMessages]
        using hallowed)
    · rw [hst] at hallowed
      exact hsecure.2 (by simpa [isClientSignalMessageAllowed, allowedClientSignalMessages]
        using hallowed)
    · rw [hst] at hallowed
      cases hallowed
  obtain ⟨hauth, hsec, _⟩ := hwf.auth hstate.1 hstate.2.1 hstate.2.2
  have hclass : classifyClientSignalMessage c.state msgType = .dispatch := by
    simp [classifyClientSignalMessage, hknown, hallowed]
  have hst' : (s'.client fd).state = c.state := by
    have hsame := congrArg Sess.state (toSess_client hrec.same.1 fd)
    rwa [client_eq hc'] at hsame
  have hprocess : (s.prepare env).processMessage K fd f.msgType f.payload =
      s'.dispatchClientMsg K fd msgType p := by
    rw [hm, processMessage_opens K hc' hopens hstate hauth hsec]
    unfold admitClientMsg
    rw [hst', hclass, hvalid]
    rfl
  have hround : (s.prepare env).signalRound K fd =
      { (s.prepare env).processMessage K fd f.msgType f.payload with
        control := .handled fd f.frameLen } := by
    unfold signalRound
    rw [hprobe]
  rw [← hprocess, ← hround]
  show (s.prepare env).handle K .resume = _
  unfold handle
  rw [hrec.control]

/-! ### Answers -/

/-- The session answers: `onAuthResponse` is called. -/
structure Answers (s : Server) (fd : Fd) (p : Bytes) (s' : Server) : Prop where
  received : s.Receives K fd MSG_AUTH_RESPONSE p s'
  length : p.length = 32

theorem allowed_answer {state : SessionState}
    (h : isClientSignalMessageAllowed state MSG_AUTH_RESPONSE = true) :
    state = .awaitRoomPassword := by
  revert h
  cases state <;> decide

/-- The state in which `onAuthResponse` looks for the room: after its sweep. -/
def beforeAnswer (s : Server) (fd : Fd) (p : Bytes) : Server :=
  (s.act (.handler fd MSG_AUTH_RESPONSE p)).time.2.cleanupExpiredLeases K
    (s.act (.handler fd MSG_AUTH_RESPONSE p)).time.1

/-- What a session may do while it stays out of password dialogues. -/
def joinScope (hash salt : Bytes) : Reg.Scope :=
  { openScope K hash salt with
    Challenges := fun _ _ _ => False
    Leaves := fun _ => False
    Promotes := fun _ => False }

/-- The session is out of the dialogue, in the room or not. -/
def OutOfDialogue (c : ClientSession) : Prop :=
  c.pendingJoinRoomId = 0 ∧ (c.state = .loggedIn ∨ c.state = .inRoom)

theorem OutOfDialogue.silent {s s' : Server} (h : Silent s s') {fd : Fd} {c : ClientSession}
    (hc : s.clients[fd]? = some c) (hout : OutOfDialogue c) :
    ∃ c', s'.clients[fd]? = some c' ∧ OutOfDialogue c' := by
  obtain ⟨c', hc', hq⟩ := h.client hc
  have hview := Reg.SameView.of_sends (.of_quiet hq)
  refine ⟨c', hc', hview.pendingJoinRoomId.trans hout.1, ?_⟩
  rw [show c'.state = c.state from hview.state]
  exact hout.2

/-- **Whatever the answer, the dialogue is over.** -/
theorem onAuthResponse_after (h : Good (openScope K hash salt) s) {fd : Fd} {c : ClientSession}
    (hc : s.clients[fd]? = some c) (hst : c.state = .awaitRoomPassword)
    (hpending : c.pendingJoinRoomId ≠ 0) (p : Bytes) :
    ∃ c', (s.onAuthResponse K fd p).clients[fd]? = some c' ∧ OutOfDialogue c' := by
  have h : Good (joinScope K hash salt) s := h.scope rfl
  unfold onAuthResponse
  rw [client_eq hc]
  dsimp only
  rw [if_neg (by simp [hst, hpending])]
  obtain ⟨hev, ⟨c₁, hc₁, hsends⟩, _⟩ := sweep_spec K h hc
  generalize s.time.2.cleanupExpiredLeases K s.time.1 = s₁ at hev hc₁ ⊢
  have hst₁ : c₁.state = .awaitRoomPassword := (Reg.SameView.of_sends hsends).state.trans hst
  have hev₂ : Evolves (joinScope K hash salt) s₁ (s₁.modify fd leaveChallenge) :=
    dialogue_evolves hc₁ (Or.inr hst₁) (Or.inl ⟨rfl, rfl⟩) (registry_modify hc₁) rfl
  obtain ⟨c₂, hc₂, hst₂, hout⟩ : ∃ c₂, (s₁.modify fd leaveChallenge).clients[fd]? = some c₂ ∧
      c₂.state = .loggedIn ∧ OutOfDialogue c₂ := ⟨_, clients_modify hc₁, rfl, rfl, Or.inl rfl⟩
  have hrooms : (s₁.modify fd leaveChallenge).rooms = s₁.rooms := rfl
  generalize s₁.modify fd leaveChallenge = s₂ at hev₂ hc₂ hrooms ⊢
  have h₂ := (h.evolve hev).evolve hev₂
  split
  · exact hout.silent (sendError_silent K hc₂ _ _) hc₂
  next room hroom =>
  split
  · exact hout.silent (sendError_silent K hc₂ _ _) hc₂
  split
  · exact hout.silent (sendError_silent K hc₂ _ _) hc₂
  · have hjoin :
        Handles (joinScope K hash salt) fd s₂ (s₂.completeJoin K fd c.pendingJoinRoomId room) :=
      completeJoin_handles K h₂ hc₂ hst₂ (by rw [hrooms]; exact hroom) trivial
    obtain ⟨c', hc'⟩ := exists_client hjoin.there
    exact ⟨c', hc',
      hjoin.evolves.run.lobby_kept h₂.inv (sessions_registry hc₂) hout (fun _ _ => id) id id
      (sessions_registry hc')⟩

theorem dispatchClientMsg_answer (s : Server) (fd : Fd) (p : Bytes) :
    s.dispatchClientMsg K fd MSG_AUTH_RESPONSE p =
      (s.act (.handler fd MSG_AUTH_RESPONSE p)).onAuthResponse K fd p := by
  unfold dispatchClientMsg
  simp [MSG_AUTH_RESPONSE, MSG_LOGIN, MSG_CREATE_ROOM, MSG_JOIN_ROOM, MSG_RESUME_ROOM,
    MSG_LEAVE_ROOM, MSG_LOGOUT, MSG_LIST_ROOMS, MSG_REQUEST_RELAY]

theorem Answers.step (h : Reachable K limits hash salt s) {env : Env} {e : Event} (he : s.Enabled e)
    {fd : Fd} {p : Bytes} {s' : Server} (hans : (s.prepare env).Answers K fd p s') :
    ∃ n, s.step K env e =
      { (s'.act (.handler fd MSG_AUTH_RESPONSE p)).onAuthResponse K fd p with
        control := .handled fd n } := by
  have hvalid : validateClientSignalPayload MSG_AUTH_RESPONSE p = true := by
    have hlen : validateClientSignalPayload MSG_AUTH_RESPONSE p = decide (p.length = 32) := rfl
    rw [hlen, hans.length]
    rfl
  obtain ⟨n, hn⟩ := hans.received.step K h he rfl (by decide) hvalid
  rw [dispatchClientMsg_answer] at hn
  exact ⟨n, hn⟩

/-! ### Challenges -/

/-- The challenge was drawn for the session's JOIN_ROOM of the room; the session
    has waited in the dialogue since, and sent neither another JOIN_ROOM nor an
    answer. -/
def Issued (fd : Fd) (R : Nat) (x : Bytes) : List (Server × Event) → Prop
  | [] => False
  | (s, _) :: history =>
    (∃ p s' room, s.Receives K fd MSG_JOIN_ROOM p s' ∧
      ByteBuffer.parse ByteBuffer.readU32 p = some R ∧
      s.rooms.getRoom R = some room ∧ room.passwordProtected ≠ 0 ∧
      (s.secureRandomBytes 32).1 = some x) ∨
    (∃ c : ClientSession, s.clients[fd]? = some c ∧ c.state = .awaitRoomPassword ∧
      c.pendingJoinRoomId = R ∧
        c.authChallenge = x) ∧
      (∀ p s', ¬ s.Receives K fd MSG_JOIN_ROOM p s' ∧ ¬ s.Answers K fd p s') ∧ Issued fd R x history

theorem Receives.random {fd : Fd} {msgType : UInt8} {p : Bytes} {s s' : Server}
    (h : s.Receives K fd msgType p s') : s'.env.random = s.env.random := by
  obtain ⟨f, _, _, hopens⟩ := h.frame
  unfold Opens decryptClientFrame at hopens
  dsimp only at hopens
  split at hopens
  · cases hopens
    exact time_random s
  · cases hopens

/-- The challenge of a dialogue, and of the room it is about. -/
theorem challenge_drawn (h : Reachable K limits hash salt s) {env : Env} {e : Event} {fd : Fd}
    {R : Nat} {x : Bytes} (hS : (stepScope K (s.prepare env) e).Challenges fd R x) :
    R ≠ 0 ∧ ∃ p s' room, (s.prepare env).Receives K fd MSG_JOIN_ROOM p s' ∧
      ByteBuffer.parse ByteBuffer.readU32 p = some R ∧ s.rooms.getRoom R = some room ∧
      room.passwordProtected ≠ 0 ∧
      ((s.prepare env).secureRandomBytes 32).1 = some x := by
  obtain ⟨p, s', room, hrec, hp, hroom, hprotected, hx⟩ := hS
  rw [rooms_of_world hrec.same.2] at hroom
  rw [secureRandomBytes_of_random (hrec.random K) 32] at hx
  obtain ⟨_, h0, _⟩ := (h.sound K).good.rooms.room hroom
  exact ⟨h0, p, s', room, hrec, hp, hroom, hprotected, hx⟩

theorem Answers.after (h : Reachable K limits hash salt s) {env : Env} {e : Event}
    (he : s.Enabled e) {fd : Fd} {p : Bytes} {s' : Server}
    (hans : (s.prepare env).Answers K fd p s')
    (hpending : ∀ c : ClientSession, s.clients[fd]? = some c → c.state = .awaitRoomPassword →
      c.pendingJoinRoomId ≠ 0) :
    ∃ c', (s.step K env e).clients[fd]? = some c' ∧ OutOfDialogue c' := by
  obtain ⟨n, hn⟩ := hans.step K h he
  obtain ⟨c, hc, hallowed⟩ := hans.received.client K (h.sound K)
  have hst := allowed_answer hallowed
  -- the session as the handler sees it
  have hsess := sessions_registry hc
  rw [show s.registry.sessions fd = s'.registry.sessions fd by rw [hans.received.same.1]; rfl]
    at hsess
  obtain ⟨d, hd, heq⟩ := exists_of_sessions hsess
  rw [hn]
  refine onAuthResponse_after K (good_handler K h hans.received) (c := d) hd
    ((congrArg Sess.state heq).trans hst) ?_ p
  rw [show d.pendingJoinRoomId = c.pendingJoinRoomId from congrArg Sess.pendingJoinRoomId heq]
  exact hpending c hc hst

/-- **Who is in a dialogue was issued its challenge.** -/
theorem Path.issued (h : Path K limits hash salt history s) {fd : Fd} {c : ClientSession}
    (hc : s.clients[fd]? = some c) (hst : c.state = .awaitRoomPassword) :
    c.pendingJoinRoomId ≠ 0 ∧ Issued K fd c.pendingJoinRoomId c.authChallenge history := by
  induction h generalizing c with
  | start => simp [Server.start] at hc
  | @step history s h env e he ih =>
    have hreach := h.reachable K
    obtain ⟨hinv, hrun⟩ := hreach.run K env he
    rcases hrun.dialogue_back hinv (sessions_registry hc) hst with ⟨c₀, hc₀, hst₀, hR, hx⟩ | hS
    · obtain ⟨d, hd, rfl⟩ := exists_of_sessions hc₀
      obtain ⟨h0, hback⟩ := ih (c := d) hd hst₀
      rw [show d.pendingJoinRoomId = c.pendingJoinRoomId from hR] at h0
      rw [show d.pendingJoinRoomId = c.pendingJoinRoomId from hR,
        show d.authChallenge = c.authChallenge from hx] at hback
      refine ⟨h0, Or.inr ⟨⟨d, hd, hst₀, hR, hx⟩, fun p s' => ⟨fun hrec => ?_, fun hans => ?_⟩,
        hback⟩⟩
      · -- no JOIN_ROOM in the dialogue
        obtain ⟨d', hd', hallowed⟩ := hrec.client K (hreach.sound K)
        obtain rfl : d = d' := Option.some.inj (Option.some.inj (congrArg some (hd.symm.trans hd')))
        rw [show d.state = _ from hst₀] at hallowed
        cases hallowed
      · obtain ⟨c', hc', hout⟩ := hans.after K hreach he fun d' hd' hst' => (ih hd' hst').1
        obtain rfl : c = c' := Option.some.inj (hc.symm.trans hc')
        rcases hout.2 with hst' | hst' <;> cases hst.symm.trans hst'
    · obtain ⟨h0, hdrawn⟩ := challenge_drawn K hreach hS
      exact ⟨h0, Or.inl hdrawn⟩

/-! ### The gate -/

/-- The rooms after an answer: nothing but the sweep happened to them, or the
    session joined one that was not full. -/
theorem onAuthResponse_rooms (s : Server) (fd : Fd) (p : Bytes) :
    (s.onAuthResponse K fd p).rooms = s.rooms ∨
      (s.onAuthResponse K fd p).rooms = (s.time.2.cleanupExpiredLeases K s.time.1).rooms ∨
      ∃ room, (s.time.2.cleanupExpiredLeases K s.time.1).rooms.getRoom
      (s.client fd).pendingJoinRoomId = some room ∧
        room.isFull = false := by
  unfold onAuthResponse
  dsimp only
  split
  · exact Or.inl (keepsRooms.sendError K s fd _ _)
  refine Or.inr ?_
  generalize s.time.2.cleanupExpiredLeases K s.time.1 = s₁
  split
  · exact Or.inl (keepsRooms.sendError K (s₁.modify fd leaveChallenge) fd _ _)
  next room hroom =>
  split
  · exact Or.inl (keepsRooms.sendError K (s₁.modify fd leaveChallenge) fd _ _)
  split
  · exact Or.inl (keepsRooms.sendError K (s₁.modify fd leaveChallenge) fd _ _)
  · next hfull => exact Or.inr ⟨room, hroom, by simpa using hfull⟩

/-- What the sweep may do: nobody becomes a member. -/
def sweepScope (hash salt : Bytes) : Reg.Scope :=
  { openScope K hash salt with
    Creates := fun _ _ _ => False
    Joins := fun _ _ _ => False }

/-- The sweep makes no leases. -/
theorem sweep_lease_back (h : Good (openScope K hash salt) s) {R : Nat} {k : RoomLease}
    (hl' : (s.time.2.cleanupExpiredLeases K s.time.1).registry.Lease R k) :
    ∃ l, s.registry.Lease R l ∧ k.peerId = l.peerId := by
  have h : Good (sweepScope K hash salt) s := h.scope rfl
  have hidle := time_idle s
  have hev := hidle.evolves.trans (cleanupExpiredLeases_evolves K (h.evolve hidle.evolves) s.time.1)
  rcases hev.run.lease_back hl' with ⟨l, hl, hsame⟩ | ⟨fd, hS | hS⟩
  · exact ⟨l, hl, hsame.peerId⟩
  · exact hS.elim
  · exact hS.elim

/-- What the next step of a run does at the gate of a room. -/
structure PasswordGate (history : List (Server × Event)) (s : Server) (env : Env) (e : Event) :
    Prop where
  /-- The lease of a new member of a protected room comes with the answer to the
      challenge that was issued for it, and the room is not full then. -/
  answer : ∀ {R room room' l'}, s.rooms.getRoom R = some room → room.passwordProtected ≠ 0 →
    (s.step K env e).rooms.getRoom R = some room' → l' ∈ room'.leases →
    (∀ l ∈ room.leases, l.peerId ≠ l'.peerId) →
    ∃ (fd : Fd) (c : ClientSession) (p : Bytes) (s' : Server) (room₁ : Room),
    s.clients[fd]? = some c ∧
      c.peerId = l'.peerId ∧ (s.prepare env).Answers K fd p s' ∧ c.pendingJoinRoomId = R ∧
      computeChallengeResponse K room.passwordHash c.authChallenge = p ∧
      Issued K fd R c.authChallenge history ∧
      (s'.beforeAnswer K fd p).rooms.getRoom R = some room₁ ∧ room₁.isFull = false
  /-- A room that was not there gets its leases by being created. -/
  create : ∀ {R room' l'}, s.rooms.getRoom R = none →
    (s.step K env e).rooms.getRoom R = some room' →
    l' ∈ room'.leases → ∃ (fd : Fd) (c : ClientSession) (p : Bytes) (s' : Server),
    s.clients[fd]? = some c ∧
      c.peerId = l'.peerId ∧ (s.prepare env).Receives K fd MSG_CREATE_ROOM p s'
  /-- An answer consults the challenge of the last JOIN_ROOM, which no answer
      has consulted before. -/
  once : ∀ {fd p s'}, (s.prepare env).Answers K fd p s' →
    ∃ c : ClientSession, s.clients[fd]? = some c ∧
    c.state = .awaitRoomPassword ∧ Issued K fd c.pendingJoinRoomId c.authChallenge history
  /-- After an answer the session is in the room, or in the lobby. -/
  after : ∀ {fd p s'}, (s.prepare env).Answers K fd p s' → ∃ c' : ClientSession,
    (s.step K env e).clients[fd]? = some c' ∧ c'.pendingJoinRoomId = 0 ∧
      (c'.state ≠ .inRoom → c'.state = .loggedIn)

/-- **The password gate of a room.** -/
theorem password_gate (h : Path K limits hash salt history s) (env : Env) {e : Event}
    (he : s.Enabled e) :
    PasswordGate K history s env e := by
  have hreach := h.reachable K
  have hs := hreach.sound K
  obtain ⟨_, hrun⟩ := hreach.run K env he
  have hpeer : ∀ {fd c msgType p s'}, s.clients[fd]? = some c →
    (s.prepare env).Receives K fd msgType p s' →
      (s'.client fd).toSess = c.toSess := by
    intro fd c msgType p s' hc hrec
    rw [toSess_client hrec.same.1 fd, show (s.prepare env).client fd = c from client_eq hc]
  constructor
  case answer =>
    intro R room room' l' hroom hprotected hroom' hl' hnew
    rcases hrun.lease_back (lease_registry.mpr ⟨room', hroom', hl'⟩) with ⟨l, hl, hsame⟩ |
      ⟨fd, ⟨p, s', hrec, _, hnone⟩ | ⟨msgType, p, s', room₀, hrec, hp, hroom₀, hm⟩⟩
    · obtain ⟨room₀, hroom₀, hl⟩ := lease_registry.mp hl
      obtain rfl : room = room₀ := Option.some.inj (hroom.symm.trans hroom₀)
      exact absurd hsame.peerId.symm (hnew l hl)
    · rw [rooms_of_world hrec.same.2] at hnone
      cases hroom.symm.trans hnone
    rw [rooms_of_world hrec.same.2] at hroom₀
    obtain rfl : room = room₀ := Option.some.inj (hroom.symm.trans hroom₀)
    rcases hm with ⟨_, _, hopen⟩ | ⟨rfl, hR, hlen, hresponse⟩
    · exact absurd hopen hprotected
    obtain ⟨c, hc, hallowed⟩ := hrec.client K hs
    have hsess := hpeer hc hrec
    have hR' : c.pendingJoinRoomId = R := (congrArg Sess.pendingJoinRoomId hsess).symm.trans hR
    have hissued := (h.issued K hc (allowed_answer hallowed)).2
    rw [hR'] at hissued
    have hans : (s.prepare env).Answers K fd p s' := ⟨hrec, hlen⟩
    -- a room that stays full, or gone, has no new lease
    have hfree : ∃ room₁, (s'.beforeAnswer K fd p).rooms.getRoom R = some room₁ ∧
        room₁.isFull = false := by
      obtain ⟨n, hn⟩ := hans.step K hreach he
      rw [hn] at hroom'
      have hback : ∀ {l}, (s'.act (.handler fd MSG_AUTH_RESPONSE p)).registry.Lease R l →
          l'.peerId ≠ l.peerId := by
        intro l hl heq
        obtain ⟨room₁, hroom₁, hl⟩ := lease_registry.mp hl
        have hroom₁ : s'.rooms.getRoom R = some room₁ := hroom₁
        rw [rooms_of_world hrec.same.2] at hroom₁
        obtain rfl : room = room₁ := Option.some.inj (hroom.symm.trans hroom₁)
        exact hnew l hl heq.symm
      rcases onAuthResponse_rooms K (s'.act (.handler fd MSG_AUTH_RESPONSE p)) fd p with
        hrooms | hrooms | hfree
      · refine absurd rfl (hback (l := l') (lease_registry.mpr ⟨room', ?_, hl'⟩))
        rw [← hrooms]
        exact hroom'
      · obtain ⟨l, hl, heq⟩ := sweep_lease_back K (good_handler K hreach hrec) (R := R) (k := l')
          (lease_registry.mpr ⟨room', by rw [← hrooms]; exact hroom', hl'⟩)
        exact absurd heq (hback hl)
      · rw [show (s'.act (.handler fd MSG_AUTH_RESPONSE p)).client fd = s'.client fd from rfl,
          hR] at hfree
        exact hfree
    obtain ⟨room₁, hroom₁, hfull⟩ := hfree
    refine ⟨fd, c, p, s', room₁, hc, (congrArg Sess.peerId hsess).symm.trans hp, hans, hR', ?_,
      hissued, hroom₁, hfull⟩
    rw [show c.authChallenge = (s'.client fd).authChallenge
      from (congrArg Sess.authChallenge hsess).symm]
    exact hresponse
  case create =>
    intro R room' l' hnone hroom' hl'
    rcases hrun.lease_back (lease_registry.mpr ⟨room', hroom', hl'⟩) with ⟨l, hl, _⟩ |
      ⟨fd, ⟨p, s', hrec, hp, _⟩ | ⟨msgType, p, s', room₀, hrec, _, hroom₀, _⟩⟩
    · obtain ⟨room₀, hroom₀, _⟩ := lease_registry.mp hl
      cases hnone.symm.trans hroom₀
    · obtain ⟨c, hc, _⟩ := hrec.client K hs
      exact ⟨fd, c, p, s', hc, (congrArg Sess.peerId (hpeer hc hrec)).symm.trans hp, hrec⟩
    · rw [rooms_of_world hrec.same.2] at hroom₀
      cases hnone.symm.trans hroom₀
  case once =>
    intro fd p s' hans
    obtain ⟨c, hc, hallowed⟩ := hans.received.client K hs
    have hst := allowed_answer hallowed
    exact ⟨c, hc, hst, (h.issued K hc hst).2⟩
  case after =>
    intro fd p s' hans
    obtain ⟨c', hc', h0, hst⟩ := hans.after K hreach he fun c hc hst => (h.issued K hc hst).1
    exact ⟨c', hc', h0, fun hne => hst.resolve_right hne⟩

namespace Sample

open ByteBuffer

def roomHash : Bytes := List.replicate 32 4

def challenge : Bytes := List.replicate 32 6

/-- A room for four with a password. -/
def createProtectedBody : Bytes :=
  writeString (ascii "arena") ++ writeU8 4 ++ writePolicy makeDefaultTcpPolicy ++
    writePolicy makeDefaultUdpPolicy ++
    writeU8 1 ++ authSalt ++ roomHash ++ writeU16 ROOM_MTU_DEFAULT

/-- Alice opens a protected room, and Bob's answer to its challenge has arrived. -/
def bobAnswers : List (Env × Event) :=
  connect 5 ++ say 5 0 MSG_LOGIN (loginBody (ascii "alice")) quiet ++
    say 5 1 MSG_CREATE_ROOM createProtectedBody { random := [some token] } ++
    connect 6 ++ say 6 0 MSG_LOGIN (loginBody (ascii "robert")) quiet ++
    say 6 1 MSG_JOIN_ROOM (writeU32 1) { random := [some challenge] } ++
    [(quiet, .readable 6 (sealed 6 2 MSG_AUTH_RESPONSE
      (computeChallengeResponse .sample roomHash challenge)))]

/-- The token of Bob's lease is drawn. -/
def tokenDrawn : Env := { random := [some token] }

end Sample

set_option maxRecDepth 100000 in
theorem bobAnswers_played : (played Sample.bobAnswers).any (fun s =>
    decide (s.control = .signal 6 ∧ (s.client 6).state = .awaitRoomPassword ∧
      (s.client 6).authChallenge = Sample.challenge ∧
      ((s.step .sample Sample.tokenDrawn .resume).client 6).state = .inRoom)) = true := by
  decide +kernel

/-- Bob gives the right answer. -/
theorem password_gate_bobAnswers :
    ∃ history s, Path .sample {} Sample.authHash Sample.authSalt history s ∧
    (s.client 6).authChallenge = Sample.challenge ∧
      ((s.step .sample Sample.tokenDrawn .resume).client 6).state = .inRoom ∧
      PasswordGate .sample history s Sample.tokenDrawn .resume := by
  obtain ⟨history, s, hpath, hgood⟩ := path_of_played bobAnswers_played
  obtain ⟨hctl, _, hx, hst⟩ := of_decide_eq_true hgood
  refine ⟨history, s, hpath, hx, hst, password_gate .sample hpath Sample.tokenDrawn ?_⟩
  show s.control ≠ .idle
  rw [hctl]
  simp

end Server

end VlanConnect

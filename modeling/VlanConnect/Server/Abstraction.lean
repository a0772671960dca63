/-
  VlanConnect/Server/Abstraction.lean
  ===================================
  **The registry of a server state**, and what the primitive operations and
  the index lookups do to it.

  In a state whose indexes are right a lookup is a plain read: no entry is
  stale, so nothing is dropped on the way.
-/
import VlanConnect.Server.Dispatch
import VlanConnect.RegistrySteps

namespace VlanConnect

open Registry

/-! ### Abstraction -/

def ClientSession.toSess (c : ClientSession) : Sess where
  tcpFd := c.tcpFd
  dataFd := c.dataFd
  peerId := c.peerId
  virtualIP := c.virtualIP
  roomId := c.roomId
  alive := c.alive
  state := c.state
  serverAuthOk := c.serverAuthOk
  secureEnabled := c.secureEnabled
  secureSessionId := c.secureSessionId
  resumeRoomId := c.resumeRoomId
  resumePeerId := c.resumePeerId
  resumeToken := c.resumeToken
  pendingJoinRoomId := c.pendingJoinRoomId
  authChallenge := c.authChallenge
  name := c.name
  transcript :=
    ⟨c.clientNonce, c.serverNonce, c.clientPubKey, c.serverPubKey, c.secureMaster, c.authFrame⟩
  sent := c.sent
  rejected := c.rejected

def Act.notice : Act → Option Notice
  | .broadcast roomId msgType body excludePeerId audience =>
    some ⟨roomId, excludePeerId, (msgType, body), { fd | fd ∈ audience }⟩
  | _ => none

def Act.call : Act → Option (Fd × Msg)
  | .handler fd msgType payload => some (fd, msgType, payload)
  | _ => none

namespace Server

def sessionsOf (clients : Std.ExtTreeMap Fd ClientSession) : Fd → Option Sess :=
  fun fd => (clients[fd]?).map ClientSession.toSess

def registry (s : Server) : Reg where
  sessions := sessionsOf s.clients
  rooms roomId := (s.rooms.getRoom roomId).map Room.leases
  peerMap peerId := s.peerMap[peerId]?
  secureSessionMap sessionId := s.secureSessionMap[sessionId]?
  dataFdMap fd := s.dataFdMap[fd]?
  next := s.nextPeerId
  free := { i | i ∈ s.freePeerIds }
  pending := { fd | fd ∈ s.pending }
  openFds := { fd | fd ∈ s.openFds }
  notices := s.log.filterMap Act.notice
  calls := s.log.filterMap Act.call

/-- What the server holds besides the sessions, the indexes and the budgets. -/
structure World where
  rooms : RoomManager
  serverAuthHash : Bytes
  serverAuthSalt : Bytes
  limits : ServerLimits
  roomListRevision : Nat
  publishedRooms : RoomTable
  published : List (Nat × RoomTable)
  control : Control

def world (s : Server) : World :=
  ⟨s.rooms, s.serverAuthHash, s.serverAuthSalt, s.limits, s.roomListRevision, s.publishedRooms,
    s.published,
    s.control⟩

/-! ### Sessions -/

theorem sessions_registry {s : Server} {fd : Fd} {c : ClientSession} (h : s.clients[fd]? = some c) :
    s.registry.sessions fd = some c.toSess := by
  simp [registry, sessionsOf, h]

theorem exists_of_sessions {s : Server} {fd : Fd} {c : Sess} (h : s.registry.sessions fd = some c) :
    ∃ d, s.clients[fd]? = some d ∧ d.toSess = c := by
  simpa [registry, sessionsOf] using h

theorem client_eq {s : Server} {fd : Fd} {c : ClientSession} (h : s.clients[fd]? = some c) :
    s.client fd = c := by
  simp [client, h]

theorem mem_clients {s : Server} {fd : Fd} {c : ClientSession} (h : s.clients[fd]? = some c) :
    fd ∈ s.clients := by
  rw [Std.ExtTreeMap.mem_iff_isSome_getElem?, h]
  rfl

theorem exists_client {s : Server} {fd : Fd} (h : fd ∈ s.clients) : ∃ c, s.clients[fd]? = some c :=
  Option.isSome_iff_exists.mp (Std.ExtTreeMap.mem_iff_isSome_getElem?.mp h)

theorem clients_modify {s : Server} {fd : Fd} {c : ClientSession}
    {f : ClientSession → ClientSession} (h : s.clients[fd]? = some c) :
    (s.modify fd f).clients[fd]? = some (f c) := by
  simp [modify, h]

theorem clients_modify_of_ne {s : Server} {fd g : Fd} {f : ClientSession → ClientSession}
    (h : g ≠ fd) :
    (s.modify fd f).clients[g]? = s.clients[g]? := by
  simp [modify, Std.ExtTreeMap.getElem?_alter, h.symm]

theorem mem_clients_modify {s : Server} {fd g : Fd} {f : ClientSession → ClientSession} :
    g ∈ (s.modify fd f).clients ↔ g ∈ s.clients := by
  by_cases h : g = fd
  · subst h
    simp only [Std.ExtTreeMap.mem_iff_isSome_getElem?, modify, Std.ExtTreeMap.getElem?_alter]
    simp
  · rw [Std.ExtTreeMap.mem_iff_isSome_getElem?, clients_modify_of_ne h,
      Std.ExtTreeMap.mem_iff_isSome_getElem?]

theorem sessionsOf_alter {clients : Std.ExtTreeMap Fd ClientSession} {fd : Fd} {c : ClientSession}
    {f : ClientSession → ClientSession} (h : clients[fd]? = some c) :
    sessionsOf (clients.alter fd (·.map f)) = Function.update (sessionsOf clients) fd
    (some (f c).toSess) := by
  funext g
  by_cases hg : g = fd
  · subst hg
    simp [sessionsOf, h]
  · simp [sessionsOf, Std.ExtTreeMap.getElem?_alter, hg, Ne.symm hg]

theorem registry_modify {s : Server} {fd : Fd} {c : ClientSession}
    {f : ClientSession → ClientSession} (h : s.clients[fd]? = some c) :
    (s.modify fd f).registry = s.registry.setSession fd (f c).toSess :=
  Reg.ext (sessionsOf_alter h) rfl rfl rfl rfl rfl rfl rfl rfl rfl rfl

/-- A change the registry does not see. -/
theorem registry_modify_same {s : Server} {fd : Fd} {f : ClientSession → ClientSession}
    (hf : ∀ c, (f c).toSess = c.toSess) : (s.modify fd f).registry = s.registry := by
  refine Reg.ext ?_ rfl rfl rfl rfl rfl rfl rfl rfl rfl rfl
  rcases hc : s.clients[fd]? with _ | c
  · have hsame : s.clients.alter fd (·.map f) = s.clients := by
      refine Std.ExtTreeMap.ext_getElem? fun g => ?_
      by_cases hg : g = fd
      · subst hg
        simp [hc]
      · simp [Std.ExtTreeMap.getElem?_alter, Ne.symm hg]
    exact congrArg sessionsOf hsame
  · refine (sessionsOf_alter hc).trans ?_
    rw [hf]
    exact Function.update_eq_self_iff.mpr (sessions_registry hc).symm

/-! ### Tables -/

theorem getElem?_erase_eq {β : Type} (m : Std.ExtTreeMap Nat β) (k g : Nat) :
    (m.erase k)[g]? = if g = k then none else m[g]? := by
  simp only [Std.ExtTreeMap.getElem?_erase, Nat.compare_eq_eq, eq_comm (a := g)]

theorem getElem?_insert_eq {β : Type} (m : Std.ExtTreeMap Nat β) (k : Nat) (v : β) (g : Nat) :
    (m.insert k v)[g]? = if g = k then some v else m[g]? := by
  simp only [Std.ExtTreeMap.getElem?_insert, Nat.compare_eq_eq, eq_comm (a := g)]

theorem setOf_erase (m : Std.ExtTreeSet Nat) (k : Nat) :
    { i | i ∈ m.erase k } = { i | i ∈ m } \ {k} := by
  ext i
  simp only [Std.ExtTreeSet.mem_erase, Set.mem_ofPred_eq, Set.mem_sdiff, Set.mem_singleton_iff,
    ne_eq, Nat.compare_eq_eq, eq_comm (a := i)]
  exact and_comm

/-! ### Operations that only use up results from outside -/

/-- Nothing changes but the clock, the outside and the counters per address. -/
structure Idle (s s' : Server) : Prop where
  clients : s'.clients = s.clients
  registry : s'.registry = s.registry
  world : s'.world = s.world
  log : s'.log = s.log

theorem Idle.refl (s : Server) : Idle s s := ⟨rfl, rfl, rfl, rfl⟩

theorem Idle.trans {s₁ s₂ s₃ : Server} (h : Idle s₁ s₂) (h' : Idle s₂ s₃) : Idle s₁ s₃ :=
  ⟨h'.clients.trans h.clients, h'.registry.trans h.registry, h'.world.trans h.world,
    h'.log.trans h.log⟩

theorem time_idle (s : Server) : Idle s s.time.2 := by
  unfold time
  split
  · exact Idle.refl s
  · exact ⟨rfl, rfl, rfl, rfl⟩

theorem countDown_idle (s : Server) (counter : Nat) : Idle s (s.countDown counter) := by
  unfold countDown
  split
  · exact ⟨rfl, rfl, rfl, rfl⟩
  · exact Idle.refl s

theorem secureRandomBytes_idle (s : Server) (size : Nat) : Idle s (s.secureRandomBytes size).2 := by
  unfold secureRandomBytes
  split
  · exact Idle.refl s
  · exact ⟨rfl, rfl, rfl, rfl⟩

theorem generateLeaseToken_idle (s : Server) : Idle s s.generateLeaseToken.2 :=
  secureRandomBytes_idle s RECONNECT_TOKEN_SIZE

theorem takeIpToken_idle (s : Server) (ip : Nat) (bucket : IpBucket) (burst refillSeconds : Rat) :
    Idle s (s.takeIpToken ip bucket burst refillSeconds).2 := by
  have h := time_idle s
  exact ⟨h.clients, h.registry, h.world, h.log⟩

/-! ### Lookups -/

theorem findOwner_eq {κ : Type} [Ord κ] [Std.TransOrd κ] {index : Std.ExtTreeMap κ Fd}
    {clients : Std.ExtTreeMap Fd ClientSession} {owns : ClientSession → Bool} {key : κ}
    (h : ∀ fd, index[key]? = some fd → ∃ c, clients[fd]? = some c ∧ c.tcpFd = fd ∧ owns c = true) :
    findOwner index clients owns key = (index[key]?, index) := by
  unfold findOwner
  rcases hk : index[key]? with _ | fd
  · rfl
  · obtain ⟨c, hc, htcp, ho⟩ := h fd hk
    simp [hc, htcp, ho]

variable {s : Server}

theorem findClientOwnerByPeerId_eq (h : s.registry.Indexed) (peerId : Nat) :
    s.findClientOwnerByPeerId peerId = (s.peerMap[peerId]?, s) := by
  unfold findClientOwnerByPeerId
  split
  · next h0 =>
    rcases hk : s.peerMap[peerId]? with _ | fd
    · rfl
    · exact absurd h0 (h.peer.mp hk).1
  · rw [findOwner_eq fun fd hk => ?_]
    obtain ⟨_, c, hc, hp⟩ := h.peer.mp hk
    have htcp := h.tcpFd hc
    obtain ⟨d, hd, rfl⟩ := exists_of_sessions hc
    exact ⟨d, hd, htcp, by simpa [ClientSession.toSess] using hp⟩

theorem findClientOwnerBySecureSessionId_eq (h : s.registry.Indexed) (sessionId : Nat) :
    s.findClientOwnerBySecureSessionId sessionId = (s.secureSessionMap[sessionId]?, s) := by
  unfold findClientOwnerBySecureSessionId
  split
  · next h0 =>
    rcases hk : s.secureSessionMap[sessionId]? with _ | fd
    · rfl
    · exact absurd h0 (h.secure hk).1
  · rw [findOwner_eq fun fd hk => ?_]
    obtain ⟨_, c, hc, hp⟩ := h.secure hk
    have htcp := h.tcpFd hc
    obtain ⟨d, hd, rfl⟩ := exists_of_sessions hc
    exact ⟨d, hd, htcp, by simpa [ClientSession.toSess] using hp⟩

theorem findClientOwnerByDataFd_eq (h : s.registry.Indexed) (dataFd : Fd) :
    s.findClientOwnerByDataFd dataFd = (s.dataFdMap[dataFd]?, s) := by
  unfold findClientOwnerByDataFd
  rw [findOwner_eq fun fd hk => ?_]
  obtain ⟨c, hc, hp⟩ := h.data.mp hk
  have htcp := h.tcpFd hc
  obtain ⟨d, hd, rfl⟩ := exists_of_sessions hc
  exact ⟨d, hd, htcp, by simpa [ClientSession.toSess] using hp⟩

theorem findClientByPeerId_eq (h : s.registry.Indexed) (peerId : Nat) :
    s.findClientByPeerId peerId = ((s.peerMap[peerId]?).filter fun fd =>
      (s.client fd).alive && (s.client fd).serverAuthOk && (s.client fd).secureEnabled &&
        sessionHasPeerIdentity (s.client fd).state, s) := by
  rw [findClientByPeerId, findClientOwnerByPeerId_eq h]

theorem findClientBySecureSessionId_eq (h : s.registry.Indexed) (sessionId : Nat) :
    s.findClientBySecureSessionId sessionId = ((s.secureSessionMap[sessionId]?).filter fun fd =>
      (s.client fd).alive && (s.client fd).secureEnabled && (s.client fd).serverAuthOk &&
        decide ((s.client fd).state ≠ .closing), s) := by
  rw [findClientBySecureSessionId, findClientOwnerBySecureSessionId_eq h]

theorem findClientByDataFd_eq (h : s.registry.Indexed) (dataFd : Fd) :
    s.findClientByDataFd dataFd = ((s.dataFdMap[dataFd]?).filter fun fd =>
      (s.client fd).alive && decide ((s.client fd).peerId ≠ 0) && (s.client fd).serverAuthOk &&
        (s.client fd).secureEnabled && sessionCanBindDataChannel (s.client fd).state, s) := by
  rw [findClientByDataFd, findClientOwnerByDataFd_eq h]

end Server

end VlanConnect

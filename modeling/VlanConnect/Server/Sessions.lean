/-
  VlanConnect/Server/Sessions.lean
  ================================
  **The sessions of a server in every state of a run.**

  Nobody is logged in without having proved to know the server password, no
  business handler is called but for a message that came encrypted and is
  allowed in the state of its session, and sessions and leases agree about who
  is in which room.
-/
import VlanConnect.Server.PasswordGate

namespace VlanConnect

namespace Server

open Registry

variable (K : Crypto) {limits : ServerLimits} {hash salt : Bytes} {s : Server}

/-- The states behind the handshake. -/
def authenticatedStates : List SessionState :=
  [.awaitLogin, .loggedIn, .awaitRoomPassword, .resumePending, .inRoom]

/-- The session opened its secure channel with a SERVER_AUTH frame that holds
    the proof for its own nonces and keys. -/
def ProvedPassword (hash salt : Bytes) (c : ClientSession) : Prop :=
  ∃ proof serverPrivKey, c.authFrame = some (proof, serverPrivKey) ∧ proof.length = 32 ∧
    computeClientAuthProof K
    (deriveSecureMaster K (K.x25519 serverPrivKey c.clientPubKey) hash c.clientNonce
      c.serverNonce c.clientPubKey c.serverPubKey salt PROTOCOL_VERSION AUTH_KDF_PROFILE) hash =
      proof

/-- A frame on the signaling stream, or on the data channel, opens under the
    cipher of the session there and holds the message. -/
inductive Decrypts (s : Server) (c : ClientSession) (msgType : UInt8) (p : Bytes) : Prop where
  | signal {f : TcpFrame} (h : probeFrame c.recvBuf = .frame f) (hm : f.msgType = MSG_ENCRYPTED)
      (hd : (c.secureCipher.decrypt K f.payload []).1 = some (msgType :: p))
  | data {f : TcpFrame} (h : probeFrame c.dataRecvBuf = .frame f) (hm : f.msgType = MSG_ENCRYPTED)
      (hd : (c.dataCipher.decrypt K f.payload []).1 = some (msgType :: p))

/-- The sessions of a state, and what the next step calls for them. -/
structure SessionsSafe (hash salt : Bytes) (s : Server) : Prop where
  auth : ∀ {fd : Fd} {c : ClientSession}, s.clients[fd]? = some c → c.alive = true →
    c.state ∈ authenticatedStates →
    c.serverAuthOk = true ∧ c.secureEnabled = true ∧ ProvedPassword K hash salt c
  handler : ∀ {env e fd msgType p}, s.Enabled e → .handler fd msgType p ∈ (s.step K env e).log →
    ∃ c : ClientSession, s.clients[fd]? = some c ∧ Decrypts K s c msgType p ∧
      isClientSignalMessageAllowed c.state msgType = true
  inRoom : ∀ {fd : Fd} {c : ClientSession}, s.clients[fd]? = some c → c.alive = true →
    (c.state = .inRoom ↔ c.roomId ≠ 0)
  lease : ∀ {fd : Fd} {c : ClientSession}, s.clients[fd]? = some c → c.alive = true →
    c.state = .inRoom →
    ∃ room l, s.rooms.getRoom c.roomId = some room ∧ l ∈ room.leases ∧ l.peerId = c.peerId ∧
      l.virtualIP = c.virtualIP ∧ l.online = true
  holder : ∀ {R room l}, s.rooms.getRoom R = some room → l ∈ room.leases → l.online = true →
    ∃ (fd : Fd) (c : ClientSession), s.clients[fd]? = some c ∧ c.peerId = l.peerId ∧
    c.state = .inRoom ∧ c.roomId = R

theorem provedPassword_of_authentic {c : ClientSession}
    (h : Authentic K hash salt c.toSess.transcript c.secureSessionId) :
    ProvedPassword K hash salt c := by
  obtain ⟨proof, serverPrivKey, hframe, hlen, hmaster, hproof, _⟩ := h
  rw [hmaster] at hproof
  exact ⟨proof, serverPrivKey, hframe, hlen, hproof⟩

/-- The cipher a frame is opened under is that of the session before. -/
theorem Receives.decrypts {fd : Fd} {c : ClientSession} (hc : s.clients[fd]? = some c)
    {msgType : UInt8} {p : Bytes} {s' : Server} (h : s.Receives K fd msgType p s') :
    Decrypts K s c msgType p := by
  obtain ⟨f, hprobe, hm, hopens⟩ := h.frame
  rw [client_eq hc] at hprobe
  refine .signal hprobe hm ?_
  unfold Opens decryptClientFrame at hopens
  have hc₁ : s.time.2.clients[fd]? = some c := (time_idle s).clients ▸ hc
  rw [client_eq (clients_modify hc₁)] at hopens
  dsimp only at hopens
  split at hopens
  · next heq =>
    cases hopens
    exact heq
  · cases hopens

/-- A handler is called for a message that the session may send. -/
theorem handler_decrypts (h : Reachable K limits hash salt s) {env : Env} {e : Event}
    (he : s.Enabled e) {fd : Fd} {msgType : UInt8} {p : Bytes}
    (hcall : .handler fd msgType p ∈ (s.step K env e).log) :
    ∃ c : ClientSession, s.clients[fd]? = some c ∧ Decrypts K s c msgType p ∧
      isClientSignalMessageAllowed c.state msgType = true := by
  obtain ⟨_, hrun⟩ := h.run K env he
  have hs := h.sound K
  have hmem : (fd, msgType, p) ∈ (s.step K env e).registry.calls :=
    List.mem_filterMap.mpr ⟨_, hcall, rfl⟩
  rcases hrun.calls hmem with hold | ⟨_, ⟨s', hrec⟩ | ⟨hm, hrel⟩⟩
  · cases hold
  · obtain ⟨c, hc, hallowed⟩ := Receives.client K hs hrec
    have hc' : (s.prepare env).clients[fd]? = some c := hc
    cases Receives.decrypts K hc' hrec with
    | signal hprobe hm hd => exact ⟨c, hc, .signal hprobe hm hd, hallowed⟩
    | data hprobe hm hd => exact ⟨c, hc, .data hprobe hm hd, hallowed⟩
  · have hctl := hs.control
    unfold ControlOk at hctl
    rw [show s.control = .data fd from hrel.control] at hctl
    obtain ⟨c, hc⟩ := exists_client hctl
    have hclient : (s.prepare env).client fd = c := client_eq hc
    obtain ⟨f, hprobe, hframe, hd⟩ := hrel.frame
    have hst := hrel.inRoom
    rw [hclient] at hprobe hd hst
    obtain rfl : msgType = MSG_TCP_RELAY_DATA := hm
    refine ⟨c, hc, .data hprobe hframe hd, ?_⟩
    rw [hst]
    decide

/-- **Session safety.** -/
theorem reachable_sessionsSafe (h : Reachable K limits hash salt s) :
    SessionsSafe K hash salt s := by
  have hs := h.sound K
  have hinv := hs.good.inv
  constructor
  case auth =>
    intro fd c hc _ hst
    have hstates : c.state ≠ .awaitHello ∧ c.state ≠ .awaitServerAuth ∧ c.state ≠ .closing := by
      revert hst
      cases c.state <;> decide
    obtain ⟨hauth, hsec, _, hproof⟩ :=
      (hinv.wf (sessions_registry hc)).auth hstates.1 hstates.2.1 hstates.2.2
    exact ⟨hauth, hsec, provedPassword_of_authentic K hproof⟩
  case handler => exact fun he hcall => handler_decrypts K h he hcall
  case inRoom => exact fun hc _ => (hinv.wf (sessions_registry hc)).inRoom
  case lease =>
    intro fd c hc ha hst
    obtain ⟨l, hl, hp, hvip, honline⟩ := hinv.leased.live (sessions_registry hc) ha hst
    obtain ⟨room, hroom, hl⟩ := lease_registry.mp hl
    exact ⟨room, l, hroom, hl, hp, hvip, honline⟩
  case holder =>
    intro R room l hroom hl honline
    have hlease := lease_registry.mpr ⟨room, hroom, hl⟩
    obtain ⟨fd, c, hc, hp, hst⟩ := hinv.leased.online hlease honline
    obtain ⟨d, hd, rfl⟩ := exists_of_sessions hc
    refine ⟨fd, d, hd, hp, hst, ?_⟩
    rcases hinv.leased.owner hlease hc hp with ⟨_, hR⟩ | ⟨hst', _⟩
    · exact hR
    · cases hst.symm.trans hst'

/-- Two members of a room. -/
theorem reachable_sessionsSafe_party :
    ∃ s : Server, Reachable .sample {} Sample.authHash Sample.authSalt s ∧
    s.clients.size = 2 ∧ SessionsSafe .sample Sample.authHash Sample.authSalt s := by
  obtain ⟨s, hs, hparty⟩ := reachable_of_played party_played
  exact ⟨s, hs, (of_decide_eq_true hparty).1, reachable_sessionsSafe .sample hs⟩

end Server

end VlanConnect

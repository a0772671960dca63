/-
  VlanConnect/Server/EventEffects.lean
  ====================================
  **What the handlers and the events of the server are made of.**

  `StateEffects` adds to `RoomEffects` what a handler changes that ends no
  session, `EventEffects` the end of a session and of a pending connection.
  Accepting a connection and taking one out of the pending set are not among
  them: who uses the results looks at these two steps himself.
-/
import VlanConnect.Server.Effects

namespace VlanConnect

namespace Server

open ByteBuffer

variable (K : Crypto) {P : Server → Server → Prop}

/-- The last part of `destroyClient`, after the indexes and the peer id. -/
def leave (s : Server) (fd : Fd) : Server :=
  let s := s.clearSendBuffer fd false
  let s := s.clearSendBuffer fd true
  let s := s.releaseClientIp fd
  let s := s.close fd
  { s with clients := s.clients.erase fd }

theorem eraseClient_eq (s : Server) (fd : Fd) (peerId : Nat) (preservePeerId : Bool) :
    s.eraseClient fd peerId preservePeerId =
      (if preservePeerId then s.unbindClientIndexes fd
        else (s.unbindClientIndexes fd).releasePeerId peerId).leave fd :=
  rfl

/-! ### Handlers that end no session -/

structure StateEffects (P : Server → Server → Prop) : Prop extends RoomEffects P where
  secureSessionMap : ∀ s m, P s { s with secureSessionMap := m }
  nextPeerId : ∀ s n, P s { s with nextPeerId := n }
  control : ∀ s c, P s { s with control := c }
  time : ∀ s : Server, P s s.time.2
  random : ∀ (s : Server) size, P s (s.secureRandomBytes size).2
  take : ∀ (s : Server) ip bucket burst refillSeconds,
      P s (s.takeIpToken ip bucket burst refillSeconds).2

namespace StateEffects

/-- A relation that follows from one that holds of all changes. -/
theorem weaken {Q : Server → Server → Prop} (h : StateEffects P) (hPQ : ∀ {s s'}, P s s' → Q s s')
    (htrans : ∀ {a b c}, Q a b → Q b c → Q a c) : StateEffects Q where
  refl s := hPQ (h.refl s)
  trans := htrans
  modify s fd _ hf := hPQ (h.modify s fd hf)
  peerMap s m := hPQ (h.peerMap s m)
  dataFdMap s m := hPQ (h.dataFdMap s m)
  act s a := hPQ (h.act s a)
  close s fd := hPQ (h.close s fd)
  append s fd dataChannel msgType _ hfd hbody := hPQ (h.append s fd dataChannel msgType hfd hbody)
  flush s fd dataChannel := hPQ (h.flush s fd dataChannel)
  clear s fd dataChannel := hPQ (h.clear s fd dataChannel)
  rooms s m := hPQ (h.rooms s m)
  free s ids := hPQ (h.free s ids)
  revision s n := hPQ (h.revision s n)
  publish s m l := hPQ (h.publish s m l)
  secureSessionMap s m := hPQ (h.secureSessionMap s m)
  nextPeerId s n := hPQ (h.nextPeerId s n)
  control s c := hPQ (h.control s c)
  time s := hPQ (h.time s)
  random s size := hPQ (h.random s size)
  take s ip bucket burst refillSeconds := hPQ (h.take s ip bucket burst refillSeconds)

variable (h : StateEffects P)

include h

theorem change (s : Server) (fd : Fd) {f : ClientSession → ClientSession}
    (hf : ∀ c, SameBuffers c (f c)) :
    P s (s.modify fd f) := h.modify s fd hf

theorem findClientOwnerBySecureSessionId (s : Server) (sessionId : Nat) :
    P s (s.findClientOwnerBySecureSessionId sessionId).2 := by
  unfold Server.findClientOwnerBySecureSessionId
  split
  · exact h.refl s
  · exact h.secureSessionMap s _

theorem findClientBySecureSessionId (s : Server) (sessionId : Nat) :
    P s (s.findClientBySecureSessionId sessionId).2 :=
  h.findClientOwnerBySecureSessionId s sessionId

theorem findClientOwnerByDataFd (s : Server) (dataFd : Fd) :
    P s (s.findClientOwnerByDataFd dataFd).2 :=
  h.dataFdMap s _

theorem findClientByDataFd (s : Server) (dataFd : Fd) : P s (s.findClientByDataFd dataFd).2 :=
  h.findClientOwnerByDataFd s dataFd

theorem bindPeerIndex (s : Server) (fd : Fd) (peerId : Nat) :
    P s (s.bindPeerIndex fd peerId).2 := by
  unfold Server.bindPeerIndex
  split
  · exact h.refl s
  · exact h.peerMap s _

theorem bindSecureSessionIndex (s : Server) (fd : Fd) (sessionId : Nat) :
    P s (s.bindSecureSessionIndex fd sessionId).2 := by
  unfold Server.bindSecureSessionIndex
  split
  · exact h.refl s
  · exact h.secureSessionMap s _

theorem bindDataFdIndex (s : Server) (fd dataFd : Fd) : P s (s.bindDataFdIndex fd dataFd).2 :=
  h.dataFdMap s _

theorem indexes (s : Server) (dataFdMap peerMap secureSessionMap : Std.ExtTreeMap Nat Fd) :
    P s { s with
      dataFdMap := dataFdMap, peerMap := peerMap, secureSessionMap := secureSessionMap } := by
  have hdata := h.dataFdMap s dataFdMap
  have hpeer := h.peerMap { s with dataFdMap := dataFdMap } peerMap
  exact h.trans hdata (h.trans hpeer (h.secureSessionMap _ secureSessionMap))

theorem unbindClientIndexes (s : Server) (fd : Fd) : P s (s.unbindClientIndexes fd) :=
  h.indexes s _ _ _

theorem allocatePeerId (s : Server) : P s s.allocatePeerId.2 := by
  unfold Server.allocatePeerId
  split
  · exact h.free s _
  · exact h.nextPeerId s _

theorem generateLeaseToken (s : Server) : P s s.generateLeaseToken.2 := h.random s _

/-! ### Leases -/

theorem validateResumeLease (s : Server) (roomId peerId : Nat) (token : Bytes) :
    P s (s.validateResumeLease roomId peerId token).2 := by
  unfold Server.validateResumeLease
  split
  · exact h.refl s
  split
  · exact h.refl s
  split
  · exact h.refl s
  split
  · exact h.refl s
  have htime := h.time s
  generalize s.time = read at htime ⊢
  obtain ⟨now, s₁⟩ := read
  dsimp only at htime ⊢
  split
  · exact htime
  · exact htime

theorem sendJoinResponse (s : Server) (fd : Fd) (room : Room) (token : Bytes) :
    P s (s.sendJoinResponse K fd room token).2 := h.sendClientMsg K s fd MSG_JOIN_RESP _

theorem markLeaseOffline (s : Server) (roomId peerId : Nat) :
    P s (s.markLeaseOffline roomId peerId) := by
  unfold Server.markLeaseOffline
  split
  · exact h.refl s
  · exact h.trans (h.time s) (h.rooms _ _)

theorem markSessionOffline (s : Server) (fd : Fd) : P s (s.markSessionOffline fd) := by
  unfold Server.markSessionOffline
  dsimp only
  split
  · exact h.refl s
  · refine h.trans (h.markLeaseOffline s _ _) (h.change _ fd fun _ => ?_)
    exact ⟨rfl, rfl, rfl, rfl, rfl, rfl, rfl⟩

theorem detachLease (s : Server) (fd : Fd) (reason : DisconnectReason) (peerOwnedByOther : Bool) :
    P s (s.detachLease fd reason peerOwnedByOther).2 := by
  unfold Server.detachLease
  dsimp only
  split
  · exact h.markSessionOffline s fd
  split
  · exact h.markLeaseOffline s _ _
  · exact h.refl s

theorem handleDataChannelDisconnect (s : Server) (dataFd : Fd) :
    P s (s.handleDataChannelDisconnect dataFd) := by
  unfold Server.handleDataChannelDisconnect
  have hfind := h.findClientOwnerByDataFd s dataFd
  generalize s.findClientOwnerByDataFd dataFd = found at hfind ⊢
  obtain ⟨owner, s₁⟩ := found
  dsimp only at hfind ⊢
  split
  · exact h.trans hfind (h.closeDataChannel s₁ _)
  · exact hfind

/-! ### The handshake -/

theorem closeSession (s : Server) (fd : Fd) : P s (s.modify fd Server.closeSession) :=
  h.change s fd fun _ => ⟨rfl, rfl, rfl, rfl, rfl, rfl, rfl⟩

theorem onClientHello (s : Server) (fd : Fd) (p : Bytes) : P s (s.onClientHello K fd p) := by
  unfold Server.onClientHello
  dsimp only
  split
  · exact h.kill s fd
  split
  · refine h.trans (h.sendError K s fd _ _) (h.change _ fd fun _ => ?_)
    exact ⟨rfl, rfl, rfl, rfl, rfl, rfl, rfl⟩
  have htake := h.take s (s.client fd).remoteIpv4 .authFailures 32 1
  generalize s.takeIpToken (s.client fd).remoteIpv4 .authFailures 32 1 = taken at htake ⊢
  obtain ⟨ok, s₁⟩ := taken
  dsimp only at htake ⊢
  split
  · refine h.trans htake (h.trans (h.sendError K s₁ fd _ _) (h.change _ fd fun _ => ?_))
    exact ⟨rfl, rfl, rfl, rfl, rfl, rfl, rfl⟩
  have hnonces : P s (s₁.modify fd fun c => { c with
      clientNonce := (p.drop 2).take 16
      clientPubKey := (p.drop 18).take 32
      helloDeadline := 0
      serverAuthOk := false }) := by
    refine h.trans htake (h.change s₁ fd fun _ => ?_)
    exact ⟨rfl, rfl, rfl, rfl, rfl, rfl, rfl⟩
  generalize (s₁.modify fd fun c => { c with
      clientNonce := (p.drop 2).take 16
      clientPubKey := (p.drop 18).take 32
      helloDeadline := 0
      serverAuthOk := false }) = s₂ at hnonces ⊢
  have hnonce := h.trans hnonces (h.random s₂ 16)
  generalize s₂.secureRandomBytes 16 = drawn at hnonce ⊢
  obtain ⟨nonce, s₃⟩ := drawn
  dsimp only at hnonce ⊢
  split
  · exact h.trans hnonce (h.kill s₃ fd)
  next serverNonce =>
  have hkey := h.trans hnonce (h.random s₃ 32)
  generalize s₃.secureRandomBytes 32 = drawn at hkey ⊢
  obtain ⟨key, s₄⟩ := drawn
  dsimp only at hkey ⊢
  split
  · exact h.trans hkey (h.kill s₄ fd)
  next serverPrivKey =>
  have htime := h.trans hkey (h.time s₄)
  generalize s₄.time = read at htime ⊢
  obtain ⟨now, s₅⟩ := read
  dsimp only at htime ⊢
  have hkeys : P s (s₅.modify fd fun c => { c with
      serverNonce := serverNonce
      serverPrivKey := serverPrivKey
      serverPubKey := K.x25519PublicKey serverPrivKey
      authDeadline := now + SERVER_AUTH_TIMEOUT_SEC
      state := .awaitServerAuth }) := by
    refine h.trans htime (h.change s₅ fd fun _ => ?_)
    exact ⟨rfl, rfl, rfl, rfl, rfl, rfl, rfl⟩
  generalize (s₅.modify fd fun c => { c with
      serverNonce := serverNonce
      serverPrivKey := serverPrivKey
      serverPubKey := K.x25519PublicKey serverPrivKey
      authDeadline := now + SERVER_AUTH_TIMEOUT_SEC
      state := .awaitServerAuth }) = s₆ at hkeys ⊢
  have hsent := h.trans hkeys (h.sendMsg s₆ fd MSG_SERVER_HELLO
    (writeU16 PROTOCOL_VERSION ++ writeU8 1 ++ writeU8 AUTH_KDF_PROFILE ++ s₆.serverAuthSalt ++
      serverNonce ++
      K.x25519PublicKey serverPrivKey) (MSG_SERVER_HELLO,
    writeU16 PROTOCOL_VERSION ++ writeU8 1 ++ writeU8 AUTH_KDF_PROFILE ++ s₆.serverAuthSalt ++
    serverNonce ++
      K.x25519PublicKey serverPrivKey))
  split
  · exact hsent
  · exact h.trans hsent (h.kill _ fd)

theorem openSecureSession (s : Server) (fd : Fd) (master proof serverPrivKey : Bytes) :
    P s (s.openSecureSession K fd master proof serverPrivKey) := by
  unfold Server.openSecureSession
  dsimp only
  split
  · exact h.trans (h.sendError K s fd _ _) (h.kill _ fd)
  generalize hfound :
    (if (s.secureSessionMap[deriveSessionId K master]?).any (· != fd) = true then _ else _) = found
  have hfind : P s found.2 := by
    subst hfound
    split
    · exact h.findClientOwnerBySecureSessionId s _
    · exact h.refl s
  obtain ⟨owner, s₁⟩ := found
  dsimp only at hfind ⊢
  split
  · exact h.trans hfind (h.trans (h.sendError K s₁ fd _ _) (h.kill _ fd))
  have hopen : P s (s₁.modify fd fun c => { c with
      secureMaster := master
      secureSessionId := deriveSessionId K master
      secureCipher := c.secureCipher.init K master false "signal"
      dataCipher := c.dataCipher.init K master false "data"
      udpCipher := c.udpCipher.init K master false "udp"
      secureEnabled := true
      serverAuthOk := true
      authFrame := some (proof, serverPrivKey) }) := by
    refine h.trans hfind (h.change s₁ fd fun _ => ?_)
    exact ⟨rfl, rfl, rfl, rfl, rfl, rfl, rfl⟩
  generalize (s₁.modify fd fun c => { c with
      secureMaster := master
      secureSessionId := deriveSessionId K master
      secureCipher := c.secureCipher.init K master false "signal"
      dataCipher := c.dataCipher.init K master false "data"
      udpCipher := c.udpCipher.init K master false "udp"
      secureEnabled := true
      serverAuthOk := true
      authFrame := some (proof, serverPrivKey) }) = s₂ at hopen ⊢
  have hbind := h.trans hopen (h.bindSecureSessionIndex s₂ fd (deriveSessionId K master))
  generalize s₂.bindSecureSessionIndex fd (deriveSessionId K master) = bound at hbind ⊢
  obtain ⟨ok, s₃⟩ := bound
  dsimp only at hbind ⊢
  split
  · exact h.trans hbind (h.kill s₃ fd)
  have hstate : P s (s₃.modify fd fun c => { c with state := .awaitLogin }) := by
    refine h.trans hbind (h.change s₃ fd fun _ => ?_)
    exact ⟨rfl, rfl, rfl, rfl, rfl, rfl, rfl⟩
  generalize (s₃.modify fd fun c => { c with state := .awaitLogin }) = s₄ at hstate ⊢
  have hsent := h.trans hstate (h.sendMsg s₄ fd MSG_SERVER_AUTH_OK
    (writeU32 (deriveSessionId K master) ++ computeServerAuthProof K master s₄.serverAuthHash)
    (MSG_SERVER_AUTH_OK,
    writeU32 (deriveSessionId K master) ++ computeServerAuthProof K master s₄.serverAuthHash))
  split
  · exact hsent
  · exact h.trans hsent (h.kill _ fd)

theorem onServerAuth (s : Server) (fd : Fd) (p : Bytes) : P s (s.onServerAuth K fd p) := by
  unfold Server.onServerAuth
  dsimp only
  split
  · exact h.kill s fd
  have htime := h.time s
  generalize s.time = read at htime ⊢
  obtain ⟨now, s₁⟩ := read
  dsimp only at htime ⊢
  split
  · exact h.trans htime (h.trans (h.sendError K s₁ fd _ _) (h.kill _ fd))
  have hkey : P s (s₁.modify fd fun c => { c with serverPrivKey := List.replicate 32 0 }) := by
    refine h.trans htime (h.change s₁ fd fun _ => ?_)
    exact ⟨rfl, rfl, rfl, rfl, rfl, rfl, rfl⟩
  generalize (s₁.modify fd fun c => { c with serverPrivKey := List.replicate 32 0 }) = s₂ at hkey ⊢
  split
  · exact h.trans hkey (h.trans (h.sendError K s₂ fd _ _) (h.closeSession _ fd))
  split
  · exact h.trans hkey (h.trans (h.sendError K s₂ fd _ _) (h.closeSession _ fd))
  · exact h.trans hkey (h.openSecureSession K s₂ fd _ _ _)

theorem sendLoginResponse (s : Server) (fd : Fd) (resumed : Nat) :
    P s (s.sendLoginResponse K fd resumed) :=
  h.sendClientMsg K s fd MSG_LOGIN_RESP _

theorem loginFresh (s : Server) (fd : Fd) (name : Bytes) : P s (s.loginFresh K fd name) := by
  unfold Server.loginFresh
  split
  · exact h.sendError K s fd _ _
  have halloc := h.allocatePeerId s
  generalize s.allocatePeerId = allocated at halloc ⊢
  obtain ⟨peerId, s₁⟩ := allocated
  dsimp only at halloc ⊢
  have hlogin : P s (s₁.modify fd fun c => { c with
      name := name
      peerId := peerId
      resumeRoomId := 0
      resumePeerId := 0
      resumeToken := List.replicate RECONNECT_TOKEN_SIZE 0
      state := .loggedIn }) := by
    refine h.trans halloc (h.change s₁ fd fun _ => ?_)
    exact ⟨rfl, rfl, rfl, rfl, rfl, rfl, rfl⟩
  generalize (s₁.modify fd fun c => { c with
      name := name
      peerId := peerId
      resumeRoomId := 0
      resumePeerId := 0
      resumeToken := List.replicate RECONNECT_TOKEN_SIZE 0
      state := .loggedIn }) = s₂ at hlogin ⊢
  have hbind := h.trans hlogin (h.bindPeerIndex s₂ fd peerId)
  generalize s₂.bindPeerIndex fd peerId = bound at hbind ⊢
  obtain ⟨ok, s₃⟩ := bound
  dsimp only at hbind ⊢
  split
  · refine h.trans hbind (h.trans (h.change s₃ fd fun _ => ?_)
      (h.trans (h.releasePeerId _ peerId) (h.kill _ fd)))
    exact ⟨rfl, rfl, rfl, rfl, rfl, rfl, rfl⟩
  · exact h.trans hbind (h.sendLoginResponse K s₃ fd 0)

/-! ### Rooms -/

theorem enterRoom (s : Server) (fd : Fd) (roomId virtualIP : Nat) (token : Bytes) :
    P s (s.modify fd fun c => Server.enterRoom c roomId virtualIP token) :=
  h.change s fd fun _ => ⟨rfl, rfl, rfl, rfl, rfl, rfl, rfl⟩

theorem createRoomFor (s : Server) (fd : Fd) (req : CreateRequest) :
    P s (s.createRoomFor K fd req) := by
  unfold Server.createRoomFor
  have htoken := h.generateLeaseToken s
  generalize s.generateLeaseToken = drawn at htoken ⊢
  obtain ⟨token, s₁⟩ := drawn
  dsimp only at htoken ⊢
  split
  · exact h.trans htoken (h.sendError K s₁ fd _ _)
  next leaseToken =>
  generalize s₁.rooms.createRoom req.roomName (s₁.client fd).peerId req.maxPlayers req.tcpPolicy
    req.udpPolicy req.mtu
    req.passwordProtected req.pwdHash req.pwdSalt = created
  obtain ⟨room, rooms⟩ := created
  dsimp only
  have hcreated := h.trans htoken (h.rooms s₁ rooms)
  split
  · exact h.trans hcreated (h.trans (h.rooms _ _) (h.sendError K _ fd _ _))
  next lease room₂ _ =>
  have hentered := h.trans hcreated (h.trans (h.setRoom _ room₂.id room₂)
    (h.enterRoom _ fd room₂.id lease.virtualIP leaseToken))
  have hsent := h.trans hentered (h.sendClientMsg K _ fd MSG_ROOM_CREATED
    (roomCreatedResponse room₂ lease.virtualIP leaseToken))
  split
  · exact h.trans hsent (h.rollbackNewMembership _ fd room₂.id)
  · exact h.trans hsent (h.broadcastRoomListPush K _)

theorem onCreateRoom (s : Server) (fd : Fd) (p : Bytes) : P s (s.onCreateRoom K fd p) := by
  unfold Server.onCreateRoom
  dsimp only
  split
  · exact h.sendError K s fd _ _
  split
  · exact h.sendError K s fd _ _
  have htake := h.take s (s.client fd).remoteIpv4 .creates 4 15
  generalize s.takeIpToken (s.client fd).remoteIpv4 .creates 4 15 = taken at htake ⊢
  obtain ⟨ok, s₁⟩ := taken
  dsimp only at htake ⊢
  split
  · exact h.trans htake (h.sendError K s₁ fd _ _)
  split
  · exact h.trans htake (h.sendError K s₁ fd _ _)
  split
  · exact h.trans htake (h.kill s₁ fd)
  · exact h.trans htake (h.sendError K s₁ fd _ _)
  split
  · exact h.trans htake (h.kill s₁ fd)
  · exact h.trans htake (h.createRoomFor K s₁ fd _)

theorem announceJoined (s : Server) (fd : Fd) (roomId : Nat) :
    P s (((s.broadcastToRoom K roomId MSG_PEER_JOINED (memberNotice (s.client fd))
      (s.client fd).peerId).broadcastRoomListPush K).notifyRelayPeers K fd) := by
  have hjoined :=
    h.broadcastToRoom K s roomId MSG_PEER_JOINED (memberNotice (s.client fd)) (s.client fd).peerId
  exact h.trans hjoined (h.trans (h.broadcastRoomListPush K _) (h.notifyRelayPeers K _ fd))

theorem completeJoin (s : Server) (fd : Fd) (roomId : Nat) (room : Room) :
    P s (s.completeJoin K fd roomId room) := by
  unfold Server.completeJoin
  have htoken := h.generateLeaseToken s
  generalize s.generateLeaseToken = drawn at htoken ⊢
  obtain ⟨token, s₁⟩ := drawn
  dsimp only at htoken ⊢
  split
  · exact h.trans htoken (h.sendError K s₁ fd _ _)
  next leaseToken =>
  split
  · exact h.trans htoken (h.sendError K s₁ fd _ _)
  next lease room₂ _ =>
  have hentered := h.trans htoken (h.trans (h.setRoom s₁ roomId room₂)
    (h.enterRoom _ fd roomId lease.virtualIP leaseToken))
  have hsent := h.trans hentered (h.sendJoinResponse K _ fd room₂ leaseToken)
  split
  · exact h.trans hsent (h.rollbackNewMembership _ fd roomId)
  · exact h.trans hsent (h.announceJoined K _ fd roomId)

theorem onJoinRoom (s : Server) (fd : Fd) (p : Bytes) : P s (s.onJoinRoom K fd p) := by
  unfold Server.onJoinRoom
  dsimp only
  split
  · exact h.sendError K s fd _ _
  split
  · exact h.sendError K s fd _ _
  have hswept := h.trans (h.time s) (h.cleanupExpiredLeases K s.time.2 s.time.1)
  generalize s.time.2.cleanupExpiredLeases K s.time.1 = s₁ at hswept ⊢
  split
  · exact h.trans hswept (h.kill s₁ fd)
  next roomId _ =>
  split
  · exact h.trans hswept (h.sendError K s₁ fd _ _)
  next room _ =>
  split
  · exact h.trans hswept (h.sendError K s₁ fd _ _)
  split
  · have htake := h.trans hswept (h.take s₁ (s.client fd).remoteIpv4 .roomPasswordFailures 32 2)
    generalize s₁.takeIpToken (s.client fd).remoteIpv4 .roomPasswordFailures 32 2 = taken at htake ⊢
    obtain ⟨ok, s₂⟩ := taken
    dsimp only at htake ⊢
    split
    · exact h.trans htake (h.sendError K s₂ fd _ _)
    have hwait : P s (s₂.modify fd fun c => { c with
        pendingJoinRoomId := roomId, state := .awaitRoomPassword }) := by
      refine h.trans htake (h.change s₂ fd fun _ => ?_)
      exact ⟨rfl, rfl, rfl, rfl, rfl, rfl, rfl⟩
    generalize (s₂.modify fd fun c => { c with
        pendingJoinRoomId := roomId, state := .awaitRoomPassword }) = s₃ at hwait ⊢
    have hdrawn := h.trans hwait (h.random s₃ 32)
    generalize s₃.secureRandomBytes 32 = drawn at hdrawn ⊢
    obtain ⟨challenge, s₄⟩ := drawn
    dsimp only at hdrawn ⊢
    split
    · refine h.trans hdrawn (h.trans (h.change s₄ fd fun _ => ?_) (h.sendError K _ fd _ _))
      exact ⟨rfl, rfl, rfl, rfl, rfl, rfl, rfl⟩
    · refine h.trans hdrawn (h.trans (h.change s₄ fd fun _ => ?_)
        (h.sendClientMsg K _ fd MSG_AUTH_CHALLENGE _))
      exact ⟨rfl, rfl, rfl, rfl, rfl, rfl, rfl⟩
  · exact h.trans hswept (h.completeJoin K s₁ fd roomId room)

theorem leaveChallenge (s : Server) (fd : Fd) : P s (s.modify fd Server.leaveChallenge) :=
  h.change s fd fun _ => ⟨rfl, rfl, rfl, rfl, rfl, rfl, rfl⟩

theorem onAuthResponse (s : Server) (fd : Fd) (p : Bytes) : P s (s.onAuthResponse K fd p) := by
  unfold Server.onAuthResponse
  dsimp only
  split
  · exact h.sendError K s fd _ _
  have hswept := h.trans (h.time s) (h.cleanupExpiredLeases K s.time.2 s.time.1)
  generalize s.time.2.cleanupExpiredLeases K s.time.1 = s₁ at hswept ⊢
  have hleft := h.trans hswept (h.leaveChallenge s₁ fd)
  split
  · exact h.trans hleft (h.sendError K _ fd _ _)
  split
  · exact h.trans hleft (h.sendError K _ fd _ _)
  split
  · exact h.trans hleft (h.sendError K _ fd _ _)
  · exact h.trans hleft (h.completeJoin K _ fd _ _)

theorem completeResume (s : Server) (fd : Fd) (roomId : Nat) (room : Room) (lease : RoomLease) :
    P s (s.completeResume K fd roomId room lease) := by
  unfold Server.completeResume
  dsimp only
  have hentered : P s ((s.setRoom roomId (room.markLeaseOnline lease.peerId)).modify fd fun c =>
      { Server.enterRoom c roomId lease.virtualIP lease.token with name := lease.name }) := by
    refine h.trans (h.setRoom s roomId _) (h.change _ fd fun _ => ?_)
    exact ⟨rfl, rfl, rfl, rfl, rfl, rfl, rfl⟩
  generalize ((s.setRoom roomId (room.markLeaseOnline lease.peerId)).modify fd fun c =>
      { Server.enterRoom c roomId lease.virtualIP lease.token with
        name := lease.name }) = s₁ at hentered ⊢
  have hbind := h.trans hentered (h.bindPeerIndex s₁ fd (s₁.client fd).peerId)
  generalize s₁.bindPeerIndex fd (s₁.client fd).peerId = bound at hbind ⊢
  obtain ⟨ok, s₂⟩ := bound
  dsimp only at hbind ⊢
  split
  · exact h.trans hbind (h.kill s₂ fd)
  have hsent :=
    h.trans hbind (h.sendJoinResponse K s₂ fd (room.markLeaseOnline lease.peerId) lease.token)
  split
  · exact h.trans hsent (h.trans (h.markLeaseOffline _ roomId _) (h.kill _ fd))
  · exact h.trans hsent (h.trans (h.broadcastToRoom K _ roomId MSG_PEER_RESUMED _ _)
      (h.notifyRelayPeers K _ fd))

theorem announceLeft (s : Server) (roomId peerId : Nat) : P s (s.announceLeft K roomId peerId) :=
  h.broadcastToRoom K s roomId MSG_PEER_LEFT _ _

theorem dropStaleLease (s : Server) (roomId peerId : Nat) (token : Bytes) :
    P s (s.dropStaleLease K roomId peerId token) := by
  unfold Server.dropStaleLease
  split
  · exact h.refl s
  split
  · exact h.refl s
  have htime := h.time s
  generalize s.time = read at htime ⊢
  obtain ⟨now, s₁⟩ := read
  dsimp only at htime ⊢
  split
  · refine h.trans htime (h.trans (h.announceLeft K s₁ roomId peerId) ?_)
    exact h.trans (h.removeMember _ roomId peerId) (h.broadcastRoomListPush K _)
  · exact htime

theorem onResumeRoom (s : Server) (fd : Fd) (p : Bytes) : P s (s.onResumeRoom K fd p) := by
  unfold Server.onResumeRoom
  dsimp only
  split
  · exact h.sendError K s fd _ _
  split
  · exact h.kill s fd
  next r _ =>
  split
  · exact h.sendError K s fd _ _
  have hvalid := h.validateResumeLease s r.roomId r.peerId r.token
  generalize s.validateResumeLease r.roomId r.peerId r.token = checked at hvalid ⊢
  obtain ⟨valid, s₁⟩ := checked
  dsimp only at hvalid ⊢
  split
  · exact h.trans hvalid (h.completeResume K s₁ fd r.roomId _ _)
  · refine h.trans hvalid (h.trans (h.dropStaleLease K s₁ r.roomId r.peerId r.token) ?_)
    refine h.trans (h.change _ fd fun _ => ?_) (h.sendError K _ fd _ _)
    exact ⟨rfl, rfl, rfl, rfl, rfl, rfl, rfl⟩

theorem onLeaveRoom (s : Server) (fd : Fd) : P s (s.onLeaveRoom K fd) := by
  unfold Server.onLeaveRoom
  dsimp only
  split
  · exact h.refl s
  refine h.trans (h.announceLeft K s _ _)
    (h.trans (h.removeMember _ _ _) (h.trans (h.change _ fd fun _ => ?_)
    (h.broadcastRoomListPush K _)))
  exact ⟨rfl, rfl, rfl, rfl, rfl, rfl, rfl⟩

theorem logoutLease (s : Server) (fd : Fd) : P s (s.logoutLease K fd).2 := by
  unfold Server.logoutLease
  dsimp only
  split
  · exact h.trans (h.announceLeft K s _ _) (h.removeMember _ _ _)
  split
  · split
    · exact h.refl s
    split
    · exact h.trans (h.announceLeft K s _ _) (h.removeMember _ _ _)
    · exact h.refl s
  · exact h.refl s

theorem onLogout (s : Server) (fd : Fd) : P s (s.onLogout K fd) := by
  unfold Server.onLogout
  dsimp only
  have hlease := h.trans (h.closeDataChannel s fd) (h.logoutLease K _ fd)
  generalize (s.closeDataChannel fd).logoutLease K fd = left at hlease ⊢
  obtain ⟨roomChanged, s₁⟩ := left
  dsimp only at hlease ⊢
  have hunbound := h.trans hlease (h.trans (h.closeSession s₁ fd) (h.unbindClientIndexes _ fd))
  generalize (s₁.modify fd Server.closeSession).unbindClientIndexes fd = s₂ at hunbound ⊢
  generalize hreleased : (if (s.client fd).peerId ≠ 0 then s₂.releasePeerId (s.client fd).peerId
    else s₂) = s₃
  have hfree : P s s₃ := by
    subst hreleased
    split
    · exact h.trans hunbound (h.releasePeerId s₂ _)
    · exact hunbound
  have hacked := h.trans hfree (h.sendClientMsg K s₃ fd MSG_LOGOUT_ACK [])
  generalize (s₃.sendClientMsg K fd MSG_LOGOUT_ACK []).2 = s₄ at hacked ⊢
  have hreset : P s (s₄.modify fd fun c => { c with
      peerId := 0
      roomId := 0
      virtualIP := 0
      pendingJoinRoomId := 0
      resumeRoomId := 0
      resumePeerId := 0
      authChallenge := List.replicate 32 0
      resumeToken := List.replicate RECONNECT_TOKEN_SIZE 0
      udpAddrKnown := false }) := by
    refine h.trans hacked (h.change s₄ fd fun _ => ?_)
    exact ⟨rfl, rfl, rfl, rfl, rfl, rfl, rfl⟩
  split
  · exact h.trans hreset (h.broadcastRoomListPush K _)
  · exact hreset

theorem onListRooms (s : Server) (fd : Fd) : P s (s.onListRooms K fd) := by
  unfold Server.onListRooms
  dsimp only
  refine h.trans (h.time s) (h.trans (h.cleanupExpiredLeases K s.time.2 s.time.1) ?_)
  exact h.foldl (fun s page => h.sendClientMsg K s fd MSG_ROOM_LIST page) _ _

theorem onRequestRelay (s : Server) (fd : Fd) (p : Bytes) : P s (s.onRequestRelay K fd p) := by
  unfold Server.onRequestRelay
  split
  · exact h.kill s fd
  next targetPeerId _ =>
  have hfind := h.findClientByPeerId s targetPeerId
  generalize s.findClientByPeerId targetPeerId = found at hfind ⊢
  obtain ⟨target, s₁⟩ := found
  dsimp only at hfind ⊢
  split
  · exact hfind
  split
  · exact hfind
  · exact h.trans hfind (h.trans (h.sendRelayReady K s₁ fd _) (h.sendRelayReady K _ _ _))

theorem onPing (s : Server) (fd : Fd) : P s (s.onPing K fd) := h.sendClientMsg K s fd MSG_PONG []

theorem onTcpRelayData (s : Server) (fd : Fd) (p : Bytes) : P s (s.onTcpRelayData K fd p) := by
  unfold Server.onTcpRelayData
  split
  · exact h.refl s
  split
  · exact h.kill s fd
  next header _ =>
  split
  · exact h.refl s
  have hfind := h.findClientByPeerId s header.destination
  generalize s.findClientByPeerId header.destination = found at hfind ⊢
  obtain ⟨target, s₁⟩ := found
  dsimp only at hfind ⊢
  split
  · exact hfind
  next dst =>
  split
  · exact hfind
  generalize writeU32 (s₁.client fd).peerId ++ writeU32 header.destination ++
    writeU8 header.trafficClass ++ p.drop 9 = fwd
  generalize hres :
    (if (s₁.client dst).dataFd ≠ none then s₁.sendDataMsg K dst MSG_TCP_RELAY_DATA fwd
      else (false, s₁)) = res
  have hdata : P s res.2 := by
    subst hres
    split
    · exact h.trans hfind (h.sendDataMsg K s₁ dst MSG_TCP_RELAY_DATA fwd)
    · exact hfind
  split
  · exact hdata
  · exact h.trans hdata (h.sendClientMsg K _ dst MSG_TCP_RELAY_DATA fwd)

/-! ### Frames -/

theorem decryptClientFrame (s : Server) (fd : Fd) (payload : Bytes) :
    P s (s.decryptClientFrame K fd payload).2 := by
  unfold Server.decryptClientFrame
  dsimp only
  have hmodify := h.change s fd (f := fun c =>
    { c with secureCipher := ((s.client fd).secureCipher.decrypt K payload []).2 })
    fun _ => ⟨rfl, rfl, rfl, rfl, rfl, rfl, rfl⟩
  split
  · exact h.trans hmodify (h.act _ _)
  · exact hmodify

theorem dropDataChannel (s : Server) (fd : Fd) : P s (s.dropDataChannel fd) := by
  unfold Server.dropDataChannel
  split
  · exact h.handleDataChannelDisconnect s _
  · exact h.refl s

theorem processDataMessage (s : Server) (fd : Fd) (msgType : UInt8) (payload : Bytes) :
    P s (s.processDataMessage K fd msgType payload) := by
  unfold Server.processDataMessage
  have htime := h.time s
  generalize s.time = read at htime ⊢
  obtain ⟨now, s₁⟩ := read
  dsimp only at htime ⊢
  have hping : P s (s₁.modify fd fun c => { c with dataLastPing := now }) := by
    refine h.trans htime (h.change s₁ fd fun _ => ?_)
    exact ⟨rfl, rfl, rfl, rfl, rfl, rfl, rfl⟩
  generalize (s₁.modify fd fun c => { c with dataLastPing := now }) = s₂ at hping ⊢
  split
  · exact h.trans hping (h.dropDataChannel s₂ fd)
  have hcipher : P s (s₂.modify fd fun c =>
      { c with dataCipher := ((s₂.client fd).dataCipher.decrypt K payload []).2 }) := by
    refine h.trans hping (h.change s₂ fd fun _ => ?_)
    exact ⟨rfl, rfl, rfl, rfl, rfl, rfl, rfl⟩
  generalize (s₂.modify fd fun c =>
      { c with dataCipher := ((s₂.client fd).dataCipher.decrypt K payload []).2 }) = s₃ at hcipher ⊢
  split
  · next innerType innerPayload _ =>
    have hopened :=
      h.trans hcipher (h.act s₃ (.decrypted fd .data payload (innerType :: innerPayload)))
    split
    · exact h.trans hopened (h.dropDataChannel _ fd)
    split
    · exact h.trans hopened (h.trans (h.act _ _) (h.onTcpRelayData K _ fd innerPayload))
    split
    · split
      · exact h.trans hopened (h.sendDataMsg K _ fd MSG_PONG [])
      · exact hopened
    · exact hopened
  · exact h.trans hcipher (h.dropDataChannel s₃ fd)

theorem onSecureDataChannelInit (s : Server) (fd : Fd) (p : Bytes) :
    P s (s.onSecureDataChannelInit K fd p) := by
  unfold Server.onSecureDataChannelInit
  split
  · exact h.close s fd
  have hfind := h.findClientBySecureSessionId s (readU32BE p)
  generalize s.findClientBySecureSessionId (readU32BE p) = found at hfind ⊢
  obtain ⟨client, s₁⟩ := found
  dsimp only at hfind ⊢
  split
  · exact h.trans hfind (h.close s₁ fd)
  next c _ =>
  have hcipher : P s (s₁.modify c fun d => { d with
      dataCipher := ((s₁.client c).dataCipher.decrypt K (p.drop SECURE_SESSION_ID_SIZE)
        []).2 }) := by
    refine h.trans hfind (h.change s₁ c fun _ => ?_)
    exact ⟨rfl, rfl, rfl, rfl, rfl, rfl, rfl⟩
  generalize (s₁.modify c fun d => { d with
      dataCipher :=
        ((s₁.client c).dataCipher.decrypt K (p.drop SECURE_SESSION_ID_SIZE) []).2 }) =
          s₂ at hcipher ⊢
  split
  · exact h.trans hcipher (h.close s₂ fd)
  split
  · exact h.trans hcipher (h.close s₂ fd)
  have hclosed := h.trans hcipher (h.trans (h.closeDataChannel s₂ c) (h.time _))
  generalize (s₂.closeDataChannel c).time = read at hclosed ⊢
  obtain ⟨now, s₃⟩ := read
  dsimp only at hclosed ⊢
  have hready :
    P s ((((s₃.modify c fun d => { d with
      dataFd := some fd, dataLastPing := now }).clearSendBuffer c
      true).modify c fun d => { d with dataRecvBuf := [] })) := by
    refine h.trans hclosed
      (h.trans (h.change s₃ c fun _ => ?_) (h.trans (h.clear _ c true) (h.change _ c fun _ => ?_)))
    · exact ⟨rfl, rfl, rfl, rfl, rfl, rfl, rfl⟩
    · exact ⟨rfl, rfl, rfl, rfl, rfl, rfl, rfl⟩
  generalize (((s₃.modify c fun d => { d with
    dataFd := some fd, dataLastPing := now }).clearSendBuffer c
      true).modify c fun d => { d with dataRecvBuf := [] }) = s₄ at hready ⊢
  have hbind := h.trans hready (h.bindDataFdIndex s₄ c fd)
  generalize s₄.bindDataFdIndex c fd = bound at hbind ⊢
  obtain ⟨ok, s₅⟩ := bound
  dsimp only at hbind ⊢
  split
  · refine h.trans hbind (h.trans (h.change s₅ c fun _ => ?_) (h.close _ fd))
    exact ⟨rfl, rfl, rfl, rfl, rfl, rfl, rfl⟩
  · exact h.trans hbind (h.sendDataMsg K s₅ c MSG_DATA_CHANNEL_ACK [])

/-! ### UDP -/

theorem decryptUdpPacket (s : Server) (data : Bytes) : P s (s.decryptUdpPacket K data).2 := by
  unfold Server.decryptUdpPacket
  split
  · exact h.refl s
  split
  · exact h.refl s
  have hfind := h.findClientBySecureSessionId s (readU32BE (data.drop 1))
  generalize s.findClientBySecureSessionId (readU32BE (data.drop 1)) = found at hfind ⊢
  obtain ⟨client, s₁⟩ := found
  dsimp only at hfind ⊢
  split
  · exact hfind
  next src =>
  have hcipher : P s (s₁.modify src fun c => { c with
      udpCipher := ((s₁.client src).udpCipher.decrypt K (data.drop (1 + SECURE_SESSION_ID_SIZE))
        []).2 }) := by
    refine h.trans hfind (h.change s₁ src fun _ => ?_)
    exact ⟨rfl, rfl, rfl, rfl, rfl, rfl, rfl⟩
  split
  · exact hcipher
  · exact h.trans hcipher (h.act _ _)

theorem relayUdp (s : Server) (sender : SockAddr) (src : Fd) (plain : Bytes) :
    P s (s.relayUdp K sender src plain) := by
  have hlearn : P s (s.modify src fun c => { c with udpAddr := sender, udpAddrKnown := true }) := by
    refine h.change s src fun _ => ?_
    exact ⟨rfl, rfl, rfl, rfl, rfl, rfl, rfl⟩
  unfold Server.relayUdp
  dsimp only
  split
  · exact hlearn
  split
  · exact h.refl s
  next header _ =>
  split
  · exact h.refl s
  split
  · exact h.refl s
  have hfind := h.trans hlearn (h.findClientByPeerId _ header.destination)
  split
  · exact hfind
  split
  · exact hfind
  split
  · exact hfind
  · exact h.trans hfind (h.sendEncryptedUdp K _ _ plain)

theorem handleUdpPacket (s : Server) (sender : SockAddr) (data : Bytes) :
    P s (s.handleUdpPacket K sender data) := by
  unfold Server.handleUdpPacket
  split
  · exact h.refl s
  have hpacket := h.decryptUdpPacket K s data
  generalize s.decryptUdpPacket K data = opened at hpacket ⊢
  obtain ⟨packet, s₁⟩ := opened
  dsimp only at hpacket ⊢
  split
  · exact hpacket
  · exact h.trans hpacket (h.relayUdp K s₁ sender _ _)

/-! ### The data channel -/

theorem handleDataChannelData (s : Server) (dataFd : Fd) (chunk : Bytes) :
    P s (s.handleDataChannelData dataFd chunk) := by
  unfold Server.handleDataChannelData
  have howner := h.findClientOwnerByDataFd s dataFd
  generalize s.findClientOwnerByDataFd dataFd = found at howner ⊢
  obtain ⟨owner, s₁⟩ := found
  dsimp only at howner ⊢
  split
  · exact howner
  have hclient := h.trans howner (h.findClientByDataFd s₁ dataFd)
  generalize s₁.findClientByDataFd dataFd = found at hclient ⊢
  obtain ⟨client, s₂⟩ := found
  dsimp only at hclient ⊢
  split
  · exact h.trans hclient (h.closeDataChannel s₂ _)
  split
  · exact h.trans hclient (h.handleDataChannelDisconnect s₂ dataFd)
  · refine h.trans hclient (h.trans (h.change s₂ _ fun _ => ?_) (h.control _ _))
    exact ⟨rfl, rfl, rfl, rfl, rfl, rfl, rfl⟩

theorem dataRound (s : Server) (fd : Fd) : P s (s.dataRound K fd) := by
  unfold Server.dataRound
  split
  · exact h.control s _
  split
  · exact h.control s _
  · exact h.trans (h.handleDataChannelDisconnect s _) (h.control _ _)
  · have hprocess := h.processDataMessage K s fd
    dsimp only
    split
    · exact h.trans (hprocess _ _) (h.control _ _)
    · refine h.trans (hprocess _ _) (h.change _ fd fun _ => ?_)
      exact ⟨rfl, rfl, rfl, rfl, rfl, rfl, rfl⟩

end StateEffects

/-! ### The sessions stay -/

/-- No step of these handlers adds or removes a session. -/
def SameClients (s s' : Server) : Prop := ∀ fd : Fd, fd ∈ s'.clients ↔ fd ∈ s.clients

theorem sameClients_append (s : Server) (fd : Fd) (dataChannel : Bool) (first second : Bytes) :
    SameClients s (s.appendSendBuffer fd dataChannel first second).2 := by
  intro g
  unfold appendSendBuffer
  dsimp only
  split
  · split
    · exact Iff.rfl
    · exact mem_modify _ _ _ _
  · split
    · exact mem_modify _ _ _ _
    · exact (mem_modify _ _ _ _).trans (mem_modify _ _ _ _)

theorem sameClients_time (s : Server) : SameClients s s.time.2 := by
  intro g
  unfold time
  split
  · exact Iff.rfl
  · exact Iff.rfl

theorem sameClients : StateEffects SameClients where
  refl _ _ := Iff.rfl
  trans h₁ h₂ g := (h₂ g).trans (h₁ g)
  modify s fd _ _ g := mem_modify s fd _ g
  peerMap _ _ _ := Iff.rfl
  dataFdMap _ _ _ := Iff.rfl
  act _ _ _ := Iff.rfl
  close _ _ _ := Iff.rfl
  append s fd dataChannel _ _ _ _ := sameClients_append s fd dataChannel _ _
  flush s fd dataChannel g := mem_modify s fd _ g
  clear s fd dataChannel g := mem_modify s fd _ g
  rooms _ _ _ := Iff.rfl
  free _ _ _ := Iff.rfl
  revision _ _ _ := Iff.rfl
  publish _ _ _ _ := Iff.rfl
  secureSessionMap _ _ _ := Iff.rfl
  nextPeerId _ _ _ := Iff.rfl
  control _ _ _ := Iff.rfl
  time := sameClients_time
  random s size g := by
    unfold secureRandomBytes
    split
    · exact Iff.rfl
    · exact Iff.rfl
  take s ip bucket burst refillSeconds := sameClients_time s

/-! ### Events -/

structure EventEffects (P : Server → Server → Prop) : Prop extends StateEffects P where
  leave : ∀ (s : Server) fd, fd ∈ s.clients → P s (s.leave fd)
  removePending : ∀ (s : Server) fd closeFd, P s (s.removePending fd closeFd)
  cleanupIpStates : ∀ (s : Server) now, P s (s.cleanupIpStates now)

namespace EventEffects

variable (h : EventEffects P)

include h

theorem eraseClient (s : Server) (fd : Fd) (hfd : fd ∈ s.clients) (peerId : Nat)
    (preservePeerId : Bool) :
    P s (s.eraseClient fd peerId preservePeerId) := by
  have hmem := (sameClients.unbindClientIndexes s fd fd).mpr hfd
  have hunbind := h.unbindClientIndexes s fd
  rw [eraseClient_eq]
  split
  · exact h.trans hunbind (h.leave _ fd hmem)
  · have hmem' := (sameClients.releasePeerId (s.unbindClientIndexes fd) peerId fd).mpr hmem
    exact h.trans hunbind (h.trans (h.releasePeerId _ peerId) (h.leave _ fd hmem'))

theorem destroyClient (s : Server) (fd : Fd) (reason : DisconnectReason) :
    P s (s.destroyClient fd reason) := by
  unfold Server.destroyClient
  split
  · exact h.refl s
  next hin =>
  have hkill := h.kill s fd
  have hmem := (sameClients.kill s fd fd).mpr (not_not.mp hin)
  generalize s.kill fd = s₁ at hkill hmem ⊢
  dsimp only
  generalize hfound :
    (if (s₁.client fd).peerId ≠ 0 then s₁.findClientOwnerByPeerId (s₁.client fd).peerId
    else (none, s₁)) = found
  have hfind : P s found.2 ∧ fd ∈ found.2.clients := by
    subst hfound
    split
    · exact ⟨h.trans hkill (h.findClientOwnerByPeerId s₁ _),
        (sameClients.findClientOwnerByPeerId s₁ _ fd).mpr hmem⟩
    · exact ⟨hkill, hmem⟩
  obtain ⟨owner, s₂⟩ := found
  obtain ⟨hfind, hmem⟩ := hfind
  dsimp only at hfind hmem ⊢
  have hclosed := h.trans hfind (h.closeDataChannel s₂ fd)
  have hmem' := (sameClients.closeDataChannel s₂ fd fd).mpr hmem
  generalize s₂.closeDataChannel fd = s₃ at hclosed hmem' ⊢
  have hdetached :=
    h.trans hclosed (h.detachLease s₃ fd reason (decide (owner ≠ none ∧ owner ≠ some fd)))
  have hleft :=
    (sameClients.detachLease s₃ fd reason (decide (owner ≠ none ∧ owner ≠ some fd)) fd).mpr hmem'
  exact h.trans hdetached (h.eraseClient _ fd hleft _ _)

theorem handleClientDisconnect (s : Server) (fd : Fd) : P s (s.handleClientDisconnect fd) := by
  unfold Server.handleClientDisconnect
  split
  · exact h.refl s
  · exact h.destroyClient s fd _

/-! ### Login -/

/-- The session takes the identity of the lease. -/
theorem resumeIdentity (s : Server) (fd : Fd) (name : Bytes) (r : ResumeRequest) :
    P s ((s.modify fd fun c => { c with
      name := name
      peerId := r.peerId
      resumeRoomId := r.roomId
      resumePeerId := r.peerId
      resumeToken := r.token
      state := .resumePending }).markLeaseOffline r.roomId r.peerId) := by
  refine h.trans (h.change s fd fun _ => ?_) (h.markLeaseOffline _ _ _)
  exact ⟨rfl, rfl, rfl, rfl, rfl, rfl, rfl⟩

theorem answerResume (s : Server) (fd : Fd) (peerId : Nat) :
    P s (if ¬ (s.bindPeerIndex fd peerId).1 then (s.bindPeerIndex fd peerId).2.kill fd
      else (s.bindPeerIndex fd peerId).2.sendLoginResponse K fd 1) := by
  have hbind := h.bindPeerIndex s fd peerId
  split
  · exact h.trans hbind (h.kill _ fd)
  · exact h.trans hbind (h.sendLoginResponse K _ fd 1)

theorem loginResume (s : Server) (fd : Fd) (name : Bytes) (r : ResumeRequest) (lease : RoomLease) :
    P s (s.loginResume K fd name r lease) := by
  unfold Server.loginResume
  have hfind := h.findClientOwnerByPeerId s r.peerId
  generalize s.findClientOwnerByPeerId r.peerId = found at hfind ⊢
  obtain ⟨oldClient, s₁⟩ := found
  dsimp only at hfind ⊢
  have hrest : ∀ s₂, P s s₂ → P s _ := fun s₂ h₂ =>
    h.trans h₂ (h.trans (h.resumeIdentity s₂ fd (if lease.name = [] then name else lease.name) r)
      (h.answerResume K _ fd r.peerId))
  split
  · split
    · exact hrest _ (h.trans hfind (h.destroyClient s₁ _ .takeover))
    · exact hrest _ hfind
  · exact hrest _ hfind

theorem onLogin (s : Server) (fd : Fd) (p : Bytes) : P s (s.onLogin K fd p) := by
  unfold Server.onLogin
  split
  · exact h.kill s fd
  split
  · exact h.kill s fd
  next req _ =>
  split
  · exact h.trans (h.sendError K s fd _ _) (h.closeSession _ fd)
  split
  · exact h.sendError K s fd _ _
  split
  · exact h.loginFresh K s fd req.name
  next r _ =>
  have hvalid := h.validateResumeLease s r.roomId r.peerId r.token
  generalize s.validateResumeLease r.roomId r.peerId r.token = checked at hvalid ⊢
  obtain ⟨valid, s₁⟩ := checked
  dsimp only at hvalid ⊢
  split
  · exact h.trans hvalid (h.loginResume K s₁ fd req.name r _)
  · exact h.trans hvalid (h.loginFresh K s₁ fd req.name)

/-! ### Signaling -/

theorem dispatchClientMsg (s : Server) (fd : Fd) (msgType : UInt8) (payload : Bytes) :
    P s (s.dispatchClientMsg K fd msgType payload) := by
  have hcall := h.act s (.handler fd msgType payload)
  unfold Server.dispatchClientMsg
  dsimp only
  split
  · exact h.trans hcall (h.onLogin K _ fd payload)
  split
  · exact h.trans hcall (h.onCreateRoom K _ fd payload)
  split
  · exact h.trans hcall (h.onJoinRoom K _ fd payload)
  split
  · exact h.trans hcall (h.onResumeRoom K _ fd payload)
  split
  · exact h.trans hcall (h.onLeaveRoom K _ fd)
  split
  · exact h.trans hcall (h.onLogout K _ fd)
  split
  · exact h.trans hcall (h.onListRooms K _ fd)
  split
  · exact h.trans hcall (h.onRequestRelay K _ fd payload)
  split
  · exact h.trans hcall (h.onAuthResponse K _ fd payload)
  split
  · exact h.trans hcall (h.onPing K _ fd)
  split
  · exact h.trans hcall (h.onTcpRelayData K _ fd payload)
  · exact hcall

theorem admitClientMsg (s : Server) (fd : Fd) (msgType : UInt8) (payload : Bytes)
    {handler : Server → Server} (hhandler : ∀ s, P s (handler s)) :
    P s (s.admitClientMsg K fd msgType payload handler) := by
  unfold Server.admitClientMsg
  split
  · exact h.refl s
  · exact h.kill s fd
  · split
    · exact h.kill s fd
    · exact hhandler s
  · split
    · exact h.kill s fd
    · exact h.sendError K s fd _ _

theorem processMessage (s : Server) (fd : Fd) (msgType : UInt8) (payload : Bytes) :
    P s (s.processMessage K fd msgType payload) := by
  unfold Server.processMessage
  have htime := h.time s
  generalize s.time = read at htime ⊢
  obtain ⟨now, s₁⟩ := read
  dsimp only at htime ⊢
  have hping : P s (s₁.modify fd fun c => { c with lastPing := now }) := by
    refine h.trans htime (h.change s₁ fd fun _ => ?_)
    exact ⟨rfl, rfl, rfl, rfl, rfl, rfl, rfl⟩
  generalize (s₁.modify fd fun c => { c with lastPing := now }) = s₂ at hping ⊢
  split
  · exact hping
  · exact h.trans hping (h.admitClientMsg K s₂ fd msgType payload fun s =>
      h.onClientHello K s fd payload)
  · exact h.trans hping (h.admitClientMsg K s₂ fd msgType payload fun s =>
      h.onServerAuth K s fd payload)
  split
  · exact h.trans hping (h.kill s₂ fd)
  split
  · exact h.trans hping (h.kill s₂ fd)
  have hopened := h.trans hping (h.decryptClientFrame K s₂ fd payload)
  generalize s₂.decryptClientFrame K fd payload = opened at hopened ⊢
  obtain ⟨inner, s₃⟩ := opened
  dsimp only at hopened ⊢
  split
  · exact h.trans hopened (h.kill s₃ fd)
  next innerType innerPayload =>
  exact h.trans hopened (h.admitClientMsg K s₃ fd innerType innerPayload
    fun s => h.dispatchClientMsg K s fd innerType innerPayload)

theorem handleClientData (s : Server) (fd : Fd) (chunk : Bytes) :
    P s (s.handleClientData fd chunk) := by
  unfold Server.handleClientData
  split
  · exact h.refl s
  split
  · exact h.handleClientDisconnect s fd
  split
  · split
    · exact h.destroyClient s fd .logoutComplete
    · exact h.refl s
  split
  · exact h.handleClientDisconnect s fd
  · refine h.trans (h.change s fd fun _ => ?_) (h.control _ _)
    exact ⟨rfl, rfl, rfl, rfl, rfl, rfl, rfl⟩

theorem signalRound (s : Server) (fd : Fd) : P s (s.signalRound K fd) := by
  unfold Server.signalRound
  split
  · exact h.control s _
  · exact h.trans (h.handleClientDisconnect s fd) (h.control _ _)
  · exact h.trans (h.processMessage K s fd _ _) (h.control _ _)

theorem signalRoundEnd (s : Server) (fd : Fd) (frameLen : Nat) :
    P s (s.signalRoundEnd fd frameLen) := by
  unfold Server.signalRoundEnd
  split
  · exact h.trans (h.handleClientDisconnect s fd) (h.control _ _)
  have hdrop : P s (s.modify fd fun c => { c with recvBuf := c.recvBuf.drop frameLen }) := by
    refine h.change s fd fun _ => ?_
    exact ⟨rfl, rfl, rfl, rfl, rfl, rfl, rfl⟩
  dsimp only
  generalize (s.modify fd fun c => { c with recvBuf := c.recvBuf.drop frameLen }) = s₁ at hdrop ⊢
  split
  · have hclear : P s (s₁.modify fd fun c => { c with recvBuf := [] }) := by
      refine h.trans hdrop (h.change s₁ fd fun _ => ?_)
      exact ⟨rfl, rfl, rfl, rfl, rfl, rfl, rfl⟩
    split
    · exact h.trans hclear (h.trans (h.destroyClient _ fd .logoutComplete) (h.control _ _))
    · exact h.trans hclear (h.control _ _)
  · exact h.trans hdrop (h.control _ _)

/-! ### Other events -/

theorem handleWritable (s : Server) (fd : Fd) : P s (s.handleWritable fd) := by
  unfold Server.handleWritable
  split
  · have hflush := h.flushSendBuf s fd
    dsimp only
    generalize s.flushSendBuf fd = s₁ at hflush ⊢
    split
    · exact h.trans hflush (h.handleClientDisconnect s₁ fd)
    split
    · exact h.trans hflush (h.destroyClient s₁ fd .logoutComplete)
    split
    · exact h.trans hflush (h.kill s₁ fd)
    · exact hflush
  have howner := h.findClientOwnerByDataFd s fd
  generalize s.findClientOwnerByDataFd fd = found at howner ⊢
  obtain ⟨owner, s₁⟩ := found
  dsimp only at howner ⊢
  split
  · exact howner
  have hclient := h.trans howner (h.findClientByDataFd s₁ fd)
  generalize s₁.findClientByDataFd fd = found at hclient ⊢
  obtain ⟨client, s₂⟩ := found
  dsimp only at hclient ⊢
  split
  · exact h.trans hclient (h.closeDataChannel s₂ _)
  next c =>
  have hflush := h.trans hclient (h.flushDataSendBuf s₂ c)
  split
  · exact h.trans hflush (h.closeDataChannel _ c)
  · exact hflush

theorem checkTimeouts (s : Server) : P s (s.checkTimeouts K) := by
  unfold Server.checkTimeouts
  have htime := h.time s
  generalize s.time = read at htime ⊢
  obtain ⟨now, s₁⟩ := read
  dsimp only at htime ⊢
  have hexpire : ∀ (s : Server) (fd : Fd), P s (Server.expireHandshake now s fd) := by
    intro s fd
    unfold Server.expireHandshake
    dsimp only
    split
    · exact h.kill s fd
    · exact h.refl s
  refine h.trans ?_ (h.cleanupIpStates _ now)
  refine h.trans ?_ (h.cleanupExpiredLeases K _ now)
  refine h.trans ?_ (h.foldl (fun s fd => h.removePending s fd true) _ _)
  refine h.trans ?_ (h.foldl h.handleClientDisconnect _ _)
  exact h.trans htime (h.foldl hexpire _ _)

theorem hangup (s : Server) (fd : Fd) : P s (s.hangup fd) := by
  unfold Server.hangup
  split
  · exact h.removePending s fd true
  split
  · exact h.handleDataChannelDisconnect s fd
  · exact h.handleClientDisconnect s fd

/-- What is left are new connections, and those that are classified. -/
theorem handle (s : Server) {e : Event} (haccept : ∀ fd remoteIp, e ≠ .accept fd remoteIp)
    (hpending : ∀ fd chunk, e = .readable fd chunk → fd ∉ s.pending) : P s (s.handle K e) := by
  cases e with
  | accept fd remoteIp => exact absurd rfl (haccept fd remoteIp)
  | datagram sender data => exact h.handleUdpPacket K s sender data
  | readable fd chunk =>
    have hreadable : P s (s.readable K fd chunk) := by
      unfold Server.readable
      rw [if_neg (hpending fd chunk rfl)]
      split
      · exact h.handleDataChannelData s fd chunk
      · exact h.handleClientData s fd chunk
    exact hreadable
  | writable fd =>
    have hwritable : P s (if fd ∈ s.pending then s else s.handleWritable fd) := by
      split
      · exact h.refl s
      · exact h.handleWritable s fd
    exact hwritable
  | hangup fd => exact h.hangup s fd
  | timer => exact h.checkTimeouts K s
  | resume =>
    dsimp only [Server.handle]
    split
    · exact h.refl s
    · exact h.signalRound K s _
    · exact h.signalRoundEnd s _ _
    · exact h.dataRound K s _

end EventEffects

end Server

end VlanConnect

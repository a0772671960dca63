/-
  VlanConnect/Server/Handlers.lean
  ================================
  **The message handlers** `onClientHello` … `onTcpRelayData`.

  A handler that reads past the end of its payload throws; the exception is
  caught in `processMessage` and closes the session, so a failed parse is
  `kill` here.
-/
import VlanConnect.ClientMessageValidator
import VlanConnect.Server.Lease

namespace VlanConnect

namespace Server

open ByteBuffer

variable (K : Crypto)

/-! ### Handshake -/

def closeSession (c : ClientSession) : ClientSession := { c with state := .closing }

def onClientHello (s : Server) (fd : Fd) (p : Bytes) : Server :=
  let c := s.client fd
  if c.state ≠ .awaitHello ∨ p.length ≠ 2 + 16 + 32 then s.kill fd
  else
    let clientVersion := BigEndian.decode (p.take 2)
    if clientVersion ≠ PROTOCOL_VERSION then
      (s.sendError K fd "Protocol mismatch: server v9; update GUI/CLI and server together."
        .versionMismatch).modify fd fun c => { closeSession c with helloDeadline := 0 }
    else
      let (ok, s) := s.takeIpToken c.remoteIpv4 .authFailures 32 1
      if ¬ ok then
        (s.sendError K fd "Authentication rate limit exceeded" .rateLimited).modify fd
          fun c => { closeSession c with helloDeadline := 0 }
      else
        let s := s.modify fd fun c => { c with
          clientNonce := (p.drop 2).take 16
          clientPubKey := (p.drop 18).take 32
          helloDeadline := 0
          serverAuthOk := false }
        let (nonce, s) := s.secureRandomBytes 16
        match nonce with
        | none => s.kill fd
        | some serverNonce =>
          let (key, s) := s.secureRandomBytes 32
          match key with
          | none => s.kill fd
          | some serverPrivKey =>
            let serverPubKey := K.x25519PublicKey serverPrivKey
            let (now, s) := s.time
            let s := s.modify fd fun c => { c with
              serverNonce := serverNonce
              serverPrivKey := serverPrivKey
              serverPubKey := serverPubKey
              authDeadline := now + SERVER_AUTH_TIMEOUT_SEC
              state := .awaitServerAuth }
            let resp := writeU16 PROTOCOL_VERSION ++ writeU8 1 ++ writeU8 AUTH_KDF_PROFILE ++
              s.serverAuthSalt ++ serverNonce ++ serverPubKey
            let (ok, s) := s.sendMsg fd MSG_SERVER_HELLO resp (MSG_SERVER_HELLO, resp)
            if ok then s else s.failRequiredControl fd

/-- The master secret of a session for a server private key. -/
def sessionMaster (s : Server) (c : ClientSession) (serverPrivKey : Bytes) : Bytes :=
  deriveSecureMaster K (K.x25519 serverPrivKey c.clientPubKey) s.serverAuthHash c.clientNonce
    c.serverNonce c.clientPubKey c.serverPubKey s.serverAuthSalt PROTOCOL_VERSION AUTH_KDF_PROFILE

/-- The part of `onServerAuth` after the proof was found right. -/
def openSecureSession (s : Server) (fd : Fd) (master proof serverPrivKey : Bytes) : Server :=
  let sessionId := deriveSessionId K master
  if sessionId = 0 then (s.sendError K fd "Secure session unavailable").kill fd
  else
    let (owner, s) :=
      if (s.secureSessionMap[sessionId]?).any (· != fd) then
        s.findClientOwnerBySecureSessionId sessionId
      else (none, s)
    if owner.isSome then (s.sendError K fd "Secure session collision").kill fd
    else
      let s := s.modify fd fun c => { c with
        secureMaster := master
        secureSessionId := sessionId
        secureCipher := c.secureCipher.init K master false "signal"
        dataCipher := c.dataCipher.init K master false "data"
        udpCipher := c.udpCipher.init K master false "udp"
        secureEnabled := true
        serverAuthOk := true
        authFrame := some (proof, serverPrivKey) }
      let (ok, s) := s.bindSecureSessionIndex fd sessionId
      if ¬ ok then s.kill fd
      else
        let s := s.modify fd fun c => { c with state := .awaitLogin }
        let body := writeU32 sessionId ++ computeServerAuthProof K master s.serverAuthHash
        let (ok, s) := s.sendMsg fd MSG_SERVER_AUTH_OK body (MSG_SERVER_AUTH_OK, body)
        if ok then s else s.failRequiredControl fd

def onServerAuth (s : Server) (fd : Fd) (p : Bytes) : Server :=
  let c := s.client fd
  if c.state ≠ .awaitServerAuth ∨ c.serverAuthOk then s.kill fd
  else
    let (now, s) := s.time
    if c.authDeadline < now ∨ p.length ≠ 32 then
      (s.sendError K fd "Server authentication timeout" .authTimeout).kill fd
    else
      let shared := K.x25519 c.serverPrivKey c.clientPubKey
      let s := s.modify fd fun c => { c with serverPrivKey := List.replicate 32 0 }
      if ¬ validX25519Shared shared then
        (s.sendError K fd "Invalid X25519 peer key" .invalidKey).modify fd closeSession
      else
        let master := s.sessionMaster K c c.serverPrivKey
        if computeClientAuthProof K master s.serverAuthHash ≠ p then
          (s.sendError K fd "Invalid server password" .invalidPassword).modify fd closeSession
        else s.openSecureSession K fd master p c.serverPrivKey

/-! ### Login -/

structure LoginRequest where
  name : Bytes
  clientVersion : Nat
  resume : Option ResumeRequest

/-- Of the version of the server and with a name that can be one: `onLogin` goes on with
    the request. -/
def LoginRequest.Served (req : LoginRequest) : Prop :=
  req.clientVersion = PROTOCOL_VERSION ∧ isValidPlayerName req.name = true

def readLogin : Reader LoginRequest := do
  let name ← readString
  let clientVersion ← readU16
  let resumeFlag ← readU8
  if resumeFlag > 1 then failure
  let resume ← if resumeFlag ≠ 0 then some <$> readResumeRequest else pure none
  if ¬ (← atEnd) then failure
  return ⟨name, clientVersion, resume⟩

def sendLoginResponse (s : Server) (fd : Fd) (resumed : Nat) : Server :=
  (s.sendClientMsg K fd MSG_LOGIN_RESP
    (writeU32 (s.client fd).peerId ++ writeU16 PROTOCOL_VERSION ++ writeU8 resumed)).2

/-- Login into an existing lease; the session that held the id is closed. -/
def loginResume (s : Server) (fd : Fd) (name : Bytes) (r : ResumeRequest) (lease : RoomLease) :
    Server :=
  let (oldClient, s) := s.findClientOwnerByPeerId r.peerId
  let s := match oldClient with
    | some old => if old ≠ fd then s.closeClientForTakeover old else s
    | none => s
  let s := s.modify fd fun c => { c with
    name := if lease.name = [] then name else lease.name
    peerId := r.peerId
    resumeRoomId := r.roomId
    resumePeerId := r.peerId
    resumeToken := r.token
    state := .resumePending }
  let s := s.markLeaseOffline r.roomId r.peerId
  let (ok, s) := s.bindPeerIndex fd r.peerId
  if ¬ ok then s.kill fd else s.sendLoginResponse K fd 1

def loginFresh (s : Server) (fd : Fd) (name : Bytes) : Server :=
  if s.clients.toList.any fun (other, c) => decide (c.peerId ≠ 0 ∧ c.name = name ∧ other ≠ fd) then
    s.sendError K fd "Name already in use"
  else
    let (peerId, s) := s.allocatePeerId
    let s := s.modify fd fun c => { c with
      name := name
      peerId := peerId
      resumeRoomId := 0
      resumePeerId := 0
      resumeToken := List.replicate RECONNECT_TOKEN_SIZE 0
      state := .loggedIn }
    let (ok, s) := s.bindPeerIndex fd peerId
    if ¬ ok then
      let s := s.modify fd fun c => { c with peerId := 0 }
      (s.releasePeerId peerId).kill fd
    else s.sendLoginResponse K fd 0

def onLogin (s : Server) (fd : Fd) (p : Bytes) : Server :=
  if (s.client fd).state ≠ .awaitLogin then s.kill fd
  else
    match parse readLogin p with
    | none => s.kill fd
    | some req =>
      if req.clientVersion ≠ PROTOCOL_VERSION then
        (s.sendError K fd "Protocol mismatch: server v9; update GUI/CLI and server together."
          .versionMismatch).modify fd closeSession
      else if ¬ isValidPlayerName req.name then s.sendError K fd "Invalid player name"
      else
        match req.resume with
        | none => s.loginFresh K fd req.name
        | some r =>
          let (valid, s) := s.validateResumeLease r.roomId r.peerId r.token
          match valid with
          | some (_, lease) => s.loginResume K fd req.name r lease
          | none => s.loginFresh K fd req.name

/-! ### Rooms -/

structure CreateRequest where
  roomName : Bytes
  maxPlayers : Nat
  tcpPolicy : RoomTrafficPolicy
  udpPolicy : RoomTrafficPolicy
  passwordProtected : Nat
  pwdSalt : Bytes
  pwdHash : Bytes
  mtu : Nat

/-- The request, or the text of the error to answer with. -/
def readCreateRoom : Reader (Except String CreateRequest) := do
  let roomName ← readString
  if ¬ isValidRoomName roomName then return .error "Invalid room name"
  let maxPlayers ← readU8
  if ¬ validMaxPlayers maxPlayers then return .error "Invalid max players"
  if (← remaining) < 6 then return .error "Missing traffic policies"
  let shape ← readRoomPolicies maxPlayers
  if ¬ shape.validPolicies then return .error "Invalid traffic policy"
  let passwordProtected ← readU8
  let (pwdSalt, pwdHash) ← if passwordProtected ≠ 0 then do
      let salt ← readBytes AUTH_SALT_SIZE
      let hash ← readBytes 32
      pure (salt, hash)
    else pure (List.replicate AUTH_SALT_SIZE 0, List.replicate 32 0)
  let mtu ← readU16
  return .ok {
    roomName := roomName, maxPlayers := maxPlayers
    tcpPolicy :=
      normalizeTrafficPolicy shape.tcpMode shape.tcpFec shape.tcpProfile makeDefaultTcpPolicy
    udpPolicy :=
      normalizeTrafficPolicy shape.udpMode shape.udpFec shape.udpProfile makeDefaultUdpPolicy
    passwordProtected := passwordProtected, pwdSalt := pwdSalt, pwdHash := pwdHash, mtu := mtu }

/-- The session fields of a new member. -/
def enterRoom (c : ClientSession) (roomId virtualIP : Nat) (token : Bytes) : ClientSession :=
  { c with
    virtualIP := virtualIP
    roomId := roomId
    resumeRoomId := roomId
    resumePeerId := c.peerId
    resumeToken := token
    state := .inRoom }

def roomCreatedResponse (room : Room) (virtualIP : Nat) (token : Bytes) : Bytes :=
  writeU32 room.id ++ writeU32 virtualIP ++ writePolicy room.tcpPolicy ++
    writePolicy room.udpPolicy ++
    writeU8 room.passwordProtected ++ writeU16 room.mtu ++ token

/-- The part of `onCreateRoom` after the request was checked. -/
def createRoomFor (s : Server) (fd : Fd) (req : CreateRequest) : Server :=
  let (token, s) := s.generateLeaseToken
  match token with
  | none => s.sendError K fd "Secure random generation failed"
  | some leaseToken =>
    let c := s.client fd
    let (room, rooms) := s.rooms.createRoom req.roomName c.peerId req.maxPlayers req.tcpPolicy
      req.udpPolicy req.mtu req.passwordProtected req.pwdHash req.pwdSalt
    let s := { s with rooms := rooms }
    match room.addLease c.peerId c.name leaseToken with
    | none =>
      let s := { s with rooms := s.rooms.eraseRoom room.id }
      s.sendError K fd "Cannot allocate virtual IP"
    | some (lease, room) =>
      let s := s.setRoom room.id room
      let s := s.modify fd fun c => enterRoom c room.id lease.virtualIP leaseToken
      let (ok, s) := s.sendClientMsg K fd MSG_ROOM_CREATED
        (roomCreatedResponse room lease.virtualIP leaseToken)
      if ¬ ok then s.rollbackNewMembership fd room.id else s.broadcastRoomListPush K

def onCreateRoom (s : Server) (fd : Fd) (p : Bytes) : Server :=
  let c := s.client fd
  if c.peerId = 0 then s.sendError K fd "Not logged in"
  else if c.roomId ≠ 0 then s.sendError K fd "Already in a room"
  else
    let (ok, s) := s.takeIpToken c.remoteIpv4 .creates 4 15
    if ¬ ok then s.sendError K fd "Room creation rate limit exceeded"
    else if s.limits.maxRooms ≤ s.rooms.size then s.sendError K fd "Room capacity reached"
    else
      match parse readCreateRoom p with
      | none => s.kill fd
      | some (.error text) => s.sendError K fd text
      | some (.ok req) =>
        if ¬ isValidRoomMtuValue req.mtu then s.kill fd else s.createRoomFor K fd req

def memberNotice (c : ClientSession) : Bytes :=
  writeU32 c.peerId ++ writeU32 c.virtualIP ++ writeString c.name

def completeJoin (s : Server) (fd : Fd) (roomId : Nat) (room : Room) : Server :=
  let (token, s) := s.generateLeaseToken
  match token with
  | none => s.sendError K fd "Secure random generation failed"
  | some leaseToken =>
    let c := s.client fd
    match room.addLease c.peerId c.name leaseToken with
    | none => s.sendError K fd "Cannot join room"
    | some (lease, room) =>
      let s := s.setRoom roomId room
      let s := s.modify fd fun c => enterRoom c roomId lease.virtualIP leaseToken
      let (ok, s) := s.sendJoinResponse K fd room leaseToken
      if ¬ ok then s.rollbackNewMembership fd roomId
      else
        let c := s.client fd
        let s := s.broadcastToRoom K roomId MSG_PEER_JOINED (memberNotice c) c.peerId
        let s := s.broadcastRoomListPush K
        s.notifyRelayPeers K fd

def onJoinRoom (s : Server) (fd : Fd) (p : Bytes) : Server :=
  let c := s.client fd
  if c.peerId = 0 then s.sendError K fd "Not logged in"
  else if c.roomId ≠ 0 then s.sendError K fd "Already in a room"
  else
    let (now, s) := s.time
    let s := s.cleanupExpiredLeases K now
    match parse readU32 p with
    | none => s.kill fd
    | some roomId =>
      match s.rooms.getRoom roomId with
      | none => s.sendError K fd "Room not found"
      | some room =>
        if room.isFull then s.sendError K fd "Room is full"
        else if room.passwordProtected ≠ 0 then
          let (ok, s) := s.takeIpToken c.remoteIpv4 .roomPasswordFailures 32 2
          if ¬ ok then s.sendError K fd "Room authentication rate limit exceeded" .rateLimited
          else
            let s := s.modify fd fun c => { c with
              pendingJoinRoomId := roomId, state := .awaitRoomPassword }
            let (challenge, s) := s.secureRandomBytes 32
            match challenge with
            | none =>
              let s := s.modify fd fun c => { c with pendingJoinRoomId := 0, state := .loggedIn }
              s.sendError K fd "Secure random generation failed"
            | some authChallenge =>
              let s := s.modify fd fun c => { c with authChallenge := authChallenge }
              (s.sendClientMsg K fd MSG_AUTH_CHALLENGE
                (writeU8 AUTH_KDF_PROFILE ++ room.passwordSalt ++ authChallenge)).2
        else s.completeJoin K fd roomId room

/-- The session gives up the password dialogue. -/
def leaveChallenge (c : ClientSession) : ClientSession :=
  { c with
    authChallenge := List.replicate 32 0
    state := .loggedIn
    pendingJoinRoomId := 0 }

def onAuthResponse (s : Server) (fd : Fd) (p : Bytes) : Server :=
  let c := s.client fd
  if c.state ≠ .awaitRoomPassword ∨ c.pendingJoinRoomId = 0 then
    s.sendError K fd "Unexpected auth response"
  else
    let (now, s) := s.time
    let s := s.cleanupExpiredLeases K now
    match s.rooms.getRoom c.pendingJoinRoomId with
    | none => (s.modify fd leaveChallenge).sendError K fd "Room not found"
    | some room =>
      if p.length ≠ 32 ∨ computeChallengeResponse K room.passwordHash c.authChallenge ≠ p then
        (s.modify fd leaveChallenge).sendError K fd "Invalid room password" .roomPassword
      else
        let s := s.modify fd leaveChallenge
        if room.isFull then s.sendError K fd "Room is full"
        else s.completeJoin K fd c.pendingJoinRoomId room

/-! ### Resume, leave, logout -/

def completeResume (s : Server) (fd : Fd) (roomId : Nat) (room : Room) (lease : RoomLease) :
    Server :=
  let room := room.markLeaseOnline lease.peerId
  let s := s.setRoom roomId room
  let s := s.modify fd fun c =>
    { enterRoom c roomId lease.virtualIP lease.token with name := lease.name }
  let (ok, s) := s.bindPeerIndex fd (s.client fd).peerId
  if ¬ ok then s.kill fd
  else
    let (ok, s) := s.sendJoinResponse K fd room lease.token
    if ¬ ok then (s.markLeaseOffline roomId (s.client fd).peerId).kill fd
    else
      let c := s.client fd
      let s := s.broadcastToRoom K roomId MSG_PEER_RESUMED (memberNotice c) c.peerId
      s.notifyRelayPeers K fd

/-- The session gives up its resume or its membership. -/
def leaveMembership (c : ClientSession) : ClientSession :=
  { c with
    roomId := 0
    virtualIP := 0
    resumeRoomId := 0
    resumePeerId := 0
    resumeToken := List.replicate RECONNECT_TOKEN_SIZE 0
    state := .loggedIn }

def announceLeft (s : Server) (roomId peerId : Nat) : Server :=
  s.broadcastToRoom K roomId MSG_PEER_LEFT (writeU32 peerId) peerId

/-- A resume that was turned down takes an expired lease away with it. -/
def dropStaleLease (s : Server) (roomId peerId : Nat) (token : Bytes) : Server :=
  match (s.rooms.getRoom roomId).bind (·.leaseByPeerId peerId) with
  | none => s
  | some lease =>
    if lease.online ∨ lease.expiresAt = 0 then s
    else
      let (now, s) := s.time
      if lease.expiresAt < now ∧ lease.token = token then
        let s := s.announceLeft K roomId peerId
        (s.removeMember roomId peerId).broadcastRoomListPush K
      else s

def onResumeRoom (s : Server) (fd : Fd) (p : Bytes) : Server :=
  let c := s.client fd
  if c.peerId = 0 then s.sendError K fd "Not logged in"
  else
    match parse readResumeRequest p with
    | none => s.kill fd
    | some r =>
      if c.state ≠ .resumePending ∨ c.peerId ≠ r.peerId ∨ c.resumeRoomId ≠ r.roomId ∨
          c.resumePeerId ≠ r.peerId ∨ c.resumeToken ≠ r.token then
        s.sendError K fd "Resume rejected"
      else
        let (valid, s) := s.validateResumeLease r.roomId r.peerId r.token
        match valid with
        | some (room, lease) => s.completeResume K fd r.roomId room lease
        | none =>
          let s := s.dropStaleLease K r.roomId r.peerId r.token
          let s := s.modify fd fun c => { c with
            state := .loggedIn
            resumeRoomId := 0
            resumePeerId := 0
            resumeToken := List.replicate RECONNECT_TOKEN_SIZE 0 }
          s.sendError K fd "Resume expired"

def onLeaveRoom (s : Server) (fd : Fd) : Server :=
  let c := s.client fd
  if c.roomId = 0 then s
  else
    let s := s.announceLeft K c.roomId c.peerId
    let s := s.removeMember c.roomId c.peerId
    let s := s.modify fd leaveMembership
    s.broadcastRoomListPush K

/-- The lease part of `onLogout`: whether a room changed. -/
def logoutLease (s : Server) (fd : Fd) : Bool × Server :=
  let c := s.client fd
  if c.roomId ≠ 0 ∧ c.peerId ≠ 0 then
    let s := s.announceLeft K c.roomId c.peerId
    (true, s.removeMember c.roomId c.peerId)
  else if c.state = .resumePending ∧ c.resumeRoomId ≠ 0 ∧ c.resumePeerId ≠ 0 then
    match (s.rooms.getRoom c.resumeRoomId).bind (·.leaseByPeerId c.resumePeerId) with
    | none => (false, s)
    | some lease =>
      if lease.token = c.resumeToken then
        let s := s.announceLeft K c.resumeRoomId c.resumePeerId
        (true, s.removeMember c.resumeRoomId c.resumePeerId)
      else (false, s)
  else (false, s)

def onLogout (s : Server) (fd : Fd) : Server :=
  let peerId := (s.client fd).peerId
  let s := s.closeDataChannel fd
  let (roomChanged, s) := s.logoutLease K fd
  let s := s.modify fd closeSession
  let s := s.unbindClientIndexes fd
  let s := if peerId ≠ 0 then s.releasePeerId peerId else s
  let (_, s) := s.sendClientMsg K fd MSG_LOGOUT_ACK []
  let s := s.modify fd fun c => { c with
    peerId := 0
    roomId := 0
    virtualIP := 0
    pendingJoinRoomId := 0
    resumeRoomId := 0
    resumePeerId := 0
    authChallenge := List.replicate 32 0
    resumeToken := List.replicate RECONNECT_TOKEN_SIZE 0
    udpAddrKnown := false }
  if roomChanged then s.broadcastRoomListPush K else s

/-! ### Lists, relay requests, relayed packets -/

def onListRooms (s : Server) (fd : Fd) : Server :=
  let (now, s) := s.time
  let s := s.cleanupExpiredLeases K now
  let pages := buildRoomListPages s.roomListRevision s.collectRoomListState
  pages.foldl (fun s page => (s.sendClientMsg K fd MSG_ROOM_LIST page).2) s

def onRequestRelay (s : Server) (fd : Fd) (p : Bytes) : Server :=
  match parse readU32 p with
  | none => s.kill fd
  | some targetPeerId =>
    let (target, s) := s.findClientByPeerId targetPeerId
    match target with
    | none => s
    | some t =>
      let c := s.client fd
      if c.roomId = 0 ∨ (s.client t).roomId = 0 ∨ (s.client t).roomId ≠ c.roomId then s
      else
        let s := s.sendRelayReady K fd targetPeerId
        s.sendRelayReady K t c.peerId

def onPing (s : Server) (fd : Fd) : Server := (s.sendClientMsg K fd MSG_PONG []).2

def onTcpRelayData (s : Server) (fd : Fd) (p : Bytes) : Server :=
  if p.length < 9 then s
  else
    match parse readRelayHeader p with
    | none => s.kill fd
    | some h =>
      if h.source ≠ (s.client fd).peerId ∨ ¬ validTrafficClass h.trafficClass then s
      else
        let (target, s) := s.findClientByPeerId h.destination
        match target with
        | none => s
        | some dst =>
          let c := s.client fd
          let d := s.client dst
          if c.roomId = 0 ∨ d.roomId = 0 ∨ c.roomId ≠ d.roomId then s
          else
            let fwd := writeU32 c.peerId ++ writeU32 h.destination ++
              writeU8 h.trafficClass ++ p.drop 9
            let (ok, s) := if d.dataFd ≠ none then s.sendDataMsg K dst MSG_TCP_RELAY_DATA fwd
              else (false, s)
            if ok then s else (s.sendClientMsg K dst MSG_TCP_RELAY_DATA fwd).2

end Server

end VlanConnect

/-
  VlanConnect/Client/Messages.lean
  ================================
  **The event loop side of the signaling client** (`sendClientHello` …
  `processMessage` of `client-cli/src/cli_net.cpp`): the handshake, the result
  of a key derivation, incoming frames and timeouts.

  A message is handled by a parser for its fields and a function for what is
  done with them; a read past the end throws and ends in `failSignalFrame`.
-/
import VlanConnect.SignalMessageValidator
import VlanConnect.Client.Requests

namespace VlanConnect

open ByteBuffer

def TCP_RECV_TIMEOUT_MS : Nat := 45000
def ROOM_REQUEST_TIMEOUT_MS : Nat := 15000
def CONNECT_TIMEOUT_MS : Nat := 8000
def MAX_RECV_BUF : Nat := 1024 * 1024

def isFatalAuthError (code : Nat) : Bool :=
  decide (AuthErrorCode.versionMismatch.value ≤ code ∧ code ≤ AuthErrorCode.kdfFailed.value)

/-! ### Parsers -/

structure ServerHello where
  serverVersion : Nat
  authRequired : Bool
deriving DecidableEq

def readHelloFront : Reader ServerHello := do
  let serverVersion ← readU16
  let authRequired ← readU8
  return ⟨serverVersion, decide (authRequired ≠ 0)⟩

/-- Salt, nonce and public key of the server. -/
def readHelloKeys : Reader (Bytes × Bytes × Bytes) := do
  let salt ← readBytes AUTH_SALT_SIZE
  let serverNonce ← readBytes 16
  let serverPubKey ← readBytes 32
  return (salt, serverNonce, serverPubKey)

/-- Session id and proof. -/
def readAuthOk : Reader (Nat × Bytes) := do
  let sessionId ← readU32
  let serverProof ← readBytes SECURE_KEY_SIZE
  return (sessionId, serverProof)

def readLoginResponse : Reader (Nat × Nat × Bool) := do
  let peerId ← readU32
  let serverVersion ← readU16
  let resumeAccepted ← readU8
  return (peerId, serverVersion, decide (resumeAccepted ≠ 0))

def readPeer : Reader PeerInfo := do
  let peerId ← readU32
  let virtualIP ← readU32
  let name ← readString
  return ⟨peerId, virtualIP, name⟩

def readTimes {α : Type} (reader : Reader α) : (count : Nat) → Reader (List α)
  | 0 => pure []
  | count + 1 => do
    let a ← reader
    let rest ← readTimes reader count
    return a :: rest

/-- The arguments of `onRoomCreated`. -/
def readRoomCreatedArgs : Reader Callback := do
  let roomId ← readU32
  let virtualIP ← readU32
  let tcpPolicy ← readTrafficPolicy makeDefaultTcpPolicy
  let udpPolicy ← readTrafficPolicy makeDefaultUdpPolicy
  let passwordProtected ← readU8
  let mtu ← readU16
  let leaseToken ← readBytes RECONNECT_TOKEN_SIZE
  return .roomCreated roomId virtualIP tcpPolicy udpPolicy mtu
    (decide (passwordProtected ≠ 0)) leaseToken

/-- The arguments of `onJoinResponse`. -/
def readJoinResponseArgs : Reader Callback := do
  let roomId ← readU32
  let virtualIP ← readU32
  let tcpPolicy ← readTrafficPolicy makeDefaultTcpPolicy
  let udpPolicy ← readTrafficPolicy makeDefaultUdpPolicy
  let passwordProtected ← readU8
  let mtu ← readU16
  let count ← readU8
  let members ← readTimes readPeer count
  let leaseToken ← readBytes RECONNECT_TOKEN_SIZE
  return .joinResponse roomId virtualIP tcpPolicy udpPolicy mtu
    (decide (passwordProtected ≠ 0)) members leaseToken

def readRoomListItem : Reader CliRoomListItem := do
  let roomId ← readU32
  let roomName ← readString
  let playerCount ← readU8
  let maxPlayers ← readU8
  let tcpPolicy ← readTrafficPolicy makeDefaultTcpPolicy
  let udpPolicy ← readTrafficPolicy makeDefaultUdpPolicy
  let passwordProtected ← readU8
  let mtu ← readU16
  return ⟨roomId, roomName, playerCount, maxPlayers, tcpPolicy, udpPolicy, passwordProtected, mtu⟩

/-- The records of a page are added to the snapshot; `none` is a room seen before. -/
def readSnapshotRooms (rooms : CliRoomTable) : (count : Nat) → Reader (Option CliRoomTable)
  | 0 => pure (some rooms)
  | count + 1 => do
    let info ← readRoomListItem
    if info.roomId ∈ rooms then return none
    readSnapshotRooms (rooms.insert info.roomId info) count

/-- Revision, page index, page count and the number of records. -/
def readRoomListHeader : Reader (Nat × Nat × Nat × Nat) := do
  let revision ← readU64
  let pageIndex ← readU16
  let pageCount ← readU16
  let count ← readU16
  return (revision, pageIndex, pageCount, count)

inductive CliRoomChange where
  | upsert (info : CliRoomListItem)
  | erase (roomId : Nat)
deriving DecidableEq

def readRoomListChange : Reader CliRoomChange := do
  let operation ← readU8
  if operation = ROOM_LIST_UPSERT then return .upsert (← readRoomListItem)
  else return .erase (← readU32)

def CliRoomChange.apply (rooms : CliRoomTable) : CliRoomChange → CliRoomTable
  | upsert info => rooms.insert info.roomId info
  | erase roomId => rooms.erase roomId

/-- Base revision, revision and the number of changes. -/
def readRoomListPushHeader : Reader (Nat × Nat × Nat) := do
  let baseRevision ← readU64
  let revision ← readU64
  let count ← readU16
  return (baseRevision, revision, count)

/-- Salt and challenge. -/
def readAuthChallenge : Reader (Bytes × Bytes) := do
  let salt ← readBytes AUTH_SALT_SIZE
  let challenge ← readBytes 32
  return (salt, challenge)

def readErrorMessage : Reader (Nat × Bytes) := do
  let code ← readU16
  let message ← readString
  return (code, message)

namespace SignalClient

variable (K : Crypto) (kdf : Kdf) (notify : Notify)

/-! ### The handshake -/

def sendClientHello (c : SignalClient) : SignalClient :=
  let fail := fun c : SignalClient =>
    ((notify (.serverError (ascii "secure random generation failed"))
      c).resetConn).notifyDisconnectedOnce notify
  let (nonce, c) := c.secureRandomBytes 16
  match nonce with
  | none => fail c
  | some clientNonce =>
    let (key, c) := { c with clientNonce := clientNonce }.secureRandomBytes 32
    match key with
    | none => fail c
    | some clientPrivKey =>
      let clientPubKey := K.x25519PublicKey clientPrivKey
      let c := { c with clientPrivKey := clientPrivKey, clientPubKey := clientPubKey }.record
        (.keys clientPrivKey clientNonce)
      c.sendFrame MSG_CLIENT_HELLO (writeU16 PROTOCOL_VERSION ++ clientNonce ++ clientPubKey)

/-- The result of the key derivation for the server password. -/
def finishServerAuth (c : SignalClient) (hash : Bytes) : SignalClient :=
  let shared := K.x25519 c.clientPrivKey c.serverPubKey
  let c := { c with clientPrivKey := List.replicate 32 0 }
  if ¬ validX25519Shared shared then
    c.failAuthentication notify AuthErrorCode.invalidKey.value (ascii "invalid X25519 server key")
  else
    let master := deriveSecureMaster K shared hash c.clientNonce c.serverNonce c.clientPubKey
      c.serverPubKey
      c.authSalt PROTOCOL_VERSION AUTH_KDF_PROFILE
    let c := { c with
      expectedServerProof := computeServerAuthProof K master hash
      secureMaster := master }
    c.sendFrame MSG_SERVER_AUTH (computeClientAuthProof K master hash)

/-- `done` is whether a result is there, and whether the hash was computed. -/
def pollAuthTask (c : SignalClient) (done : Option Bool) : SignalClient :=
  match c.authTask, done with
  | some (password, salt), some success =>
    let operation := c.authOperation
    let hash := kdf.hash password salt
    let c := { c with authTask := none, authOperation := .none }
    if operation = .none ∨ ¬ c.conn.connected then c
    else if ¬ success then
      c.failAuthentication notify AuthErrorCode.kdfFailed.value (ascii "authentication KDF failed")
    else
      match operation with
      | .createRoom =>
        let body := c.pendingCreate ++ c.authSalt ++ hash ++ writeU16 c.pendingCreateMtu
        { c.sendMsg K notify MSG_CREATE_ROOM body with pendingCreate := [] }
      | .roomPassword =>
        { c.sendAuthResponse K notify (computeChallengeResponse K hash c.roomChallenge) with
          roomChallenge := List.replicate 32 0 }
      | _ => c.finishServerAuth K notify hash
  | _, _ => c

def handshakeViolation : Bytes :=
  ascii "unexpected signaling message before authentication / handshake order violation"

def onServerHello (c : SignalClient) (payload : Bytes) : Bool × SignalClient :=
  match readHelloFront payload with
  | none => (false, c.failSignalFrame notify)
  | some (hello, rest) =>
    if hello.serverVersion ≠ PROTOCOL_VERSION then
      let c := notify (.fatalAuthError AuthErrorCode.versionMismatch.value
        (ascii "protocol version mismatch; upgrade GUI/CLI and server together")) c
      let c := notify (.serverError (ascii "protocol version mismatch")) c
      (false, c.failSignalFrame notify)
    else
      let c := { c with serverAuthRequired := hello.authRequired }
      if ¬ hello.authRequired then
        let c := notify (.serverError
          (ascii "insecure server rejected: authentication is not required")) c
        (false, c.resetConn.notifyDisconnectedOnce notify)
      else
        match readU8 rest with
        | none => (false, c.failSignalFrame notify)
        | some (profile, rest) =>
          if profile ≠ AUTH_KDF_PROFILE then
            (false, c.failAuthentication notify AuthErrorCode.unsupportedKdf.value
              (ascii "unsupported authentication KDF profile"))
          else
            match parse readHelloKeys rest with
            | none => (false, c.failSignalFrame notify)
            | some (salt, serverNonce, serverPubKey) =>
              let c := { c with
                authSalt := salt, serverNonce := serverNonce, serverPubKey := serverPubKey }.record
                (.hello salt serverNonce serverPubKey)
              (true, if c.serverPassword = [] then notify .serverPasswordRequired c
                else c.sendServerAuth notify)

def onServerAuthOk (c : SignalClient) (payload : Bytes) : Bool × SignalClient :=
  if c.secureMaster.length ≠ SECURE_KEY_SIZE then
    let c := notify (.serverError (ascii "invalid server auth response")) c
    (false, c.failSignalFrame notify)
  else
    match parse readAuthOk payload with
    | none => (false, c.failSignalFrame notify)
    | some (sessionId, serverProof) =>
      let proofValid :=
        decide (c.expectedServerProof = serverProof ∧ sessionId = deriveSessionId K c.secureMaster)
      let c := { c with expectedServerProof := List.replicate 32 0 }
      if ¬ proofValid then
        (false, c.failAuthentication notify AuthErrorCode.invalidServerProof.value
          (ascii "server auth proof / session id failed"))
      else
        let c := { c with
          secureSessionId := sessionId
          secureCipher := c.secureCipher.init K c.secureMaster true "signal"
          secureReady := true }.record (.secured sessionId serverProof c.serverPassword)
        let c := notify (.secureSessionEstablished c.secureSessionId c.secureMaster) c
        if ¬ c.conn.connected then (false, c) else (true, notify .connected c)

/-! ### Room messages -/

/-- Whether the answer to a room request is still wanted; one that comes after
    its deadline is not. -/
def awaitsRoomResponse (c : SignalClient) : Bool × SignalClient :=
  let (late, c) :=
    if c.roomOperationPending then
      let (now, c) := c.roomMonotonicMs
      (decide (ROOM_REQUEST_TIMEOUT_MS ≤ now - c.roomRequestStarted), c)
    else (false, c)
  let c :=
    if late then
      let c := c.abandonRoomOperation
      if c.hasRoomOperationFailure then
        notify (.roomOperationFailure (ascii "Room response arrived after its deadline")) c
      else { c with sendFailurePending := true }
    else c
  (c.roomOperationPending && !c.discardRoomResponses, c)

/-- The shared part of ROOM_CREATED and JOIN_RESP. -/
def onRoomResponse (c : SignalClient) (reader : Reader Callback) (clearsPassword : Bool)
    (payload : Bytes) :
    Bool × SignalClient :=
  let (wanted, c) := c.awaitsRoomResponse notify
  if ¬ wanted then (true, c)
  else
    let c := { c with roomOperationPending := false }
    match parse reader payload with
    | none => (false, c.failSignalFrame notify)
    | some callback =>
      let c := if clearsPassword then { c with pendingRoomPassword := [], hasPendingAuth := false }
        else c
      (true, notify callback c)

/-- The half-built snapshot is thrown away. -/
def dropSnapshot (c : SignalClient) : SignalClient :=
  { c with
    snapshotRooms := ∅, snapshotRevision := 0, snapshotPageCount := 0, snapshotNextPage := 0 }

/-- The list has to be asked for again. -/
def restartSnapshot (c : SignalClient) : SignalClient := c.dropSnapshot.listRooms K notify

def emitRoomList (c : SignalClient) (pushed : Bool) : SignalClient :=
  notify (.roomList (c.roomListCache.toList.map Prod.snd) pushed) c

def onRoomList (c : SignalClient) (payload : Bytes) : Bool × SignalClient :=
  match readRoomListHeader payload with
  | none => (false, c.failSignalFrame notify)
  | some ((revision, pageIndex, pageCount, count), rest) =>
    let c := if pageIndex = 0 then
        { c with
          snapshotRooms := ∅, snapshotRevision := revision, snapshotPageCount := pageCount,
          snapshotNextPage := 0 }
      else c
    if revision ≠ c.snapshotRevision ∨ pageCount ≠ c.snapshotPageCount ∨
        pageIndex ≠ c.snapshotNextPage then
      (true, c.restartSnapshot K notify)
    else
      match parse (readSnapshotRooms c.snapshotRooms count) rest with
      | none => (false, c.failSignalFrame notify)
      | some none => (true, c.restartSnapshot K notify)
      | some (some rooms) =>
        let c := { c with snapshotRooms := rooms, snapshotNextPage := c.snapshotNextPage + 1 }
        if c.snapshotNextPage = c.snapshotPageCount then
          let c := { c with
            roomListCache := c.snapshotRooms, roomListRevision := c.snapshotRevision }
          (true, c.dropSnapshot.emitRoomList notify false)
        else (true, c)

def onRoomListPush (c : SignalClient) (payload : Bytes) : Bool × SignalClient :=
  match readRoomListPushHeader payload with
  | none => (false, c.failSignalFrame notify)
  | some ((baseRevision, revision, count), rest) =>
    if baseRevision ≠ c.roomListRevision then (true, c.restartSnapshot K notify)
    else
      match parse (readTimes readRoomListChange count) rest with
      | none => (false, c.failSignalFrame notify)
      | some changes =>
        let c := { c with
          roomListCache := changes.foldl CliRoomChange.apply c.roomListCache
          roomListRevision := revision }
        (true, c.emitRoomList notify true)

def onAuthChallenge (c : SignalClient) (payload : Bytes) : Bool × SignalClient :=
  if c.discardRoomResponses then (true, c)
  else
    match readU8 payload with
    | none => (false, c.failSignalFrame notify)
    | some (profile, rest) =>
      if profile ≠ AUTH_KDF_PROFILE then
        (false, c.failAuthentication notify AuthErrorCode.unsupportedKdf.value
          (ascii "unsupported room KDF profile"))
      else if ¬ c.hasPendingAuth then (false, c.failSignalFrame notify)
      else
        match parse readAuthChallenge rest with
        | none => (false, { c with hasPendingAuth := false }.failSignalFrame notify)
        | some (salt, challenge) =>
          (true, { c with
            hasPendingAuth := false
            authSalt := salt
            roomChallenge := challenge
            authOperation := .roomPassword
            authTask := some (c.pendingRoomPassword, salt)
            pendingRoomPassword := [] })

def onError (c : SignalClient) (payload : Bytes) : Bool × SignalClient :=
  match parse readErrorMessage payload with
  | none => (false, c.failSignalFrame notify)
  | some (code, message) =>
    if isFatalAuthError code then (false, c.failAuthentication notify code message)
    else if c.discardRoomResponses then (true, c)
    else
      let c :=
        if c.roomOperationPending ∧ code ≠ AuthErrorCode.roomPassword.value then
          let c := c.abandonRoomOperation
          if c.hasRoomOperationFailure then notify (.roomOperationFailure message) c
          else { c with sendFailurePending := true }
        else c.cancelRoomOperation
      let c := if code = AuthErrorCode.roomPassword.value then
        notify (.fatalAuthError code message) c else c
      let c := { c with pendingRoomPassword := [], hasPendingAuth := false }
      (true, notify (.serverError message) c)

/-! ### Incoming messages -/

def onLoginResponse (c : SignalClient) (payload : Bytes) : Bool × SignalClient :=
  match parse readLoginResponse payload with
  | none => (false, c.failSignalFrame notify)
  | some (peerId, serverVersion, resumeAccepted) =>
    if serverVersion ≠ PROTOCOL_VERSION then
      let c := notify (.fatalAuthError AuthErrorCode.versionMismatch.value
        (ascii "protocol version mismatch; upgrade GUI/CLI and server together")) c
      let c := notify (.serverError (ascii "protocol version mismatch")) c
      (false, c.failSignalFrame notify)
    else (true, notify (.loginResponse peerId resumeAccepted) { c with myPeerId := peerId })

/-- The messages that are handed to their callback as they are. -/
def deliver {α : Type} (c : SignalClient) (reader : Reader α) (callback : α → Callback)
    (payload : Bytes) :
    Bool × SignalClient :=
  match parse reader payload with
  | none => (false, c.failSignalFrame notify)
  | some a => (true, notify (callback a) c)

def onRelayData (c : SignalClient) (payload : Bytes) : Bool × SignalClient :=
  match readRelayHeader payload with
  | none => (false, c.failSignalFrame notify)
  | some (h, data) =>
    (true, if h.destination = c.myPeerId then notify (.relayData h.source h.trafficClass data) c
      else c)

def onPong (c : SignalClient) : Bool × SignalClient :=
  if c.pingSentTime = 0 then (true, c)
  else
    let (now, c) := c.currentTimeMs
    (true, notify (.serverRtt (Int.bmod (elapsedMs now c.pingSentTime) (2 ^ 32))) { c with
      pingSentTime := 0 })

/-- A message that passed the check, on an established session. -/
def handleMessage (c : SignalClient) (msgType : UInt8) (payload : Bytes) : Bool × SignalClient :=
  if msgType = MSG_LOGIN_RESP then c.onLoginResponse notify payload
  else if msgType = MSG_ROOM_CREATED then c.onRoomResponse notify readRoomCreatedArgs false payload
  else if msgType = MSG_JOIN_RESP then c.onRoomResponse notify readJoinResponseArgs true payload
  else if msgType = MSG_PEER_JOINED then c.deliver notify readPeer .peerJoined payload
  else if msgType = MSG_PEER_RESUMED then c.deliver notify readPeer .peerResumed payload
  else if msgType = MSG_PEER_LEFT then c.deliver notify readU32 .peerLeft payload
  else if msgType = MSG_LOGOUT_ACK then (true, notify .logoutAck { c with myPeerId := 0 })
  else if msgType = MSG_ROOM_LIST then c.onRoomList K notify payload
  else if msgType = MSG_ROOM_LIST_PUSH then c.onRoomListPush K notify payload
  else if msgType = MSG_RELAY_READY then c.deliver notify readU32 .relayReady payload
  else if msgType = MSG_TCP_RELAY_DATA then c.onRelayData notify payload
  else if msgType = MSG_PONG then c.onPong notify
  else if msgType = MSG_AUTH_CHALLENGE then c.onAuthChallenge notify payload
  else if msgType = MSG_ERROR then c.onError notify payload
  else (true, c)

/-- The frames a client that is not authenticated takes. -/
def allowedPlainHandshake (c : SignalClient) (msgType : UInt8) : Bool :=
  decide (¬ c.secureReady ∧
    (msgType = MSG_ERROR ∨
      msgType = MSG_SERVER_HELLO ∧ ¬ c.serverAuthRequired ∧ c.authOperation = .none ∧
      c.secureMaster = [] ∨
      msgType = MSG_SERVER_AUTH_OK ∧ c.serverAuthRequired ∧ c.authOperation = .none ∧
        c.secureMaster.length = SECURE_KEY_SIZE))

/-- A message whose payload the check did not accept. -/
def rejectPayload (c : SignalClient) (msgType : UInt8) (error : MessageValidationError) :
    SignalClient :=
  if ¬ c.secureReady ∨ error = .invalidVersion then
    let code := if error = .invalidVersion ∨ msgType = MSG_ERROR then AuthErrorCode.versionMismatch
      else AuthErrorCode.invalidServerProof
    c.failAuthentication notify code.value
      (ascii ("invalid pre-auth protocol response; this client requires protocol v9; " ++
        "upgrade GUI/CLI and server together"))
  else c.failSignalFrame notify

/-- What was inside an encrypted frame. -/
def processPlain (c : SignalClient) (plain : Bytes) : Bool × SignalClient :=
  match plain with
  | [] => (false, c.failSignalFrame notify)
  | msgType :: payload =>
    if msgType = MSG_SERVER_HELLO ∨ msgType = MSG_SERVER_AUTH_OK ∨ msgType = MSG_ENCRYPTED then
      (false, c.failAuthentication notify AuthErrorCode.invalidServerProof.value handshakeViolation)
    else
      match validateServerSignalPayload msgType payload with
      | .malformed error _ =>
        let c := if error = .invalidVersion then
          notify (.serverError (ascii "protocol version mismatch")) c else c
        (false, c.failSignalFrame notify)
      | .unknownType => (true, c)
      | .valid => c.handleMessage K notify msgType payload

def processMessage (c : SignalClient) (msgType : UInt8) (payload : Bytes) : Bool × SignalClient :=
  if ¬ c.secureReady ∧ ¬ c.allowedPlainHandshake msgType ∨ c.secureReady ∧
      msgType ≠ MSG_ENCRYPTED then
    (false, c.failAuthentication notify AuthErrorCode.invalidServerProof.value handshakeViolation)
  else
    match validateServerSignalPayload msgType payload with
    | .malformed error _ => (false, c.rejectPayload notify msgType error)
    | .unknownType => (true, c)
    | .valid =>
      if msgType = MSG_ENCRYPTED then
        let (plain, cipher) := c.secureCipher.decrypt K payload []
        let c := { c with secureCipher := cipher }
        match plain with
        | none => (false, c.failSignalFrame notify)
        | some plain => c.processPlain K notify plain
      else if msgType = MSG_SERVER_HELLO then c.onServerHello notify payload
      else if msgType = MSG_SERVER_AUTH_OK then c.onServerAuthOk K notify payload
      else c.handleMessage K notify msgType payload

/-- The loop over the frames of the receive buffer. -/
def receiveLoop : (fuel : Nat) → SignalClient → SignalClient
  | 0, c => c
  | fuel + 1, c =>
    match probeFrame c.conn.recvBuf with
    | .incomplete => c
    | .corrupted => c.failSignalFrame notify
    | .frame f =>
      let c := { c with conn := { c.conn with recvBuf := c.conn.recvBuf.drop f.frameLen } }
      let (more, c) := c.processMessage K notify f.msgType f.payload
      if ¬ more ∨ ¬ c.conn.connected then c else receiveLoop fuel c

/-- `recv` returned the chunk; an empty one is the end of the stream or an error. -/
def onReadable (c : SignalClient) (chunk : Bytes) : SignalClient :=
  if chunk = [] then c.drop notify
  else
    let (now, c) := c.currentTimeMs
    let c := { c with conn := c.conn.readData chunk now }
    if MAX_RECV_BUF < c.conn.recvBuf.length then c.failSignalFrame notify
    else receiveLoop K notify c.conn.recvBuf.length c

/-- `connectOk` is the result of a pending `connect`, `res` that of `send`. -/
def onWritable (c : SignalClient) (connectOk : Bool) (res : SendResult) : SignalClient :=
  if c.conn.connecting then
    if connectOk then
      let (now, c) := c.currentTimeMs
      let (started, c) := c.currentTimeMs
      let c := { c with
        conn := { c.conn with connecting := false, connected := true, lastRecvTime := now }
        authStartedMs := started }
      c.sendClientHello K notify
    else notify (.connectFailed "connect error") c.resetConn
  else
    let (ok, conn) := c.conn.flushSend res
    let c := { c with conn := conn }
    if ok then c else c.drop notify

/-- The rest of `checkTimeouts`, after the result of a key derivation. -/
def checkConnection (c : SignalClient) : SignalClient :=
  if ¬ c.conn.connected ∧ c.conn.connecting then
    let (now, c) := c.currentTimeMs
    if CONNECT_TIMEOUT_MS < elapsedMs now c.connectStartTime then
      notify (.connectFailed "connect timeout") c.resetConn
    else c
  else if c.conn.connected ∧ ¬ c.secureReady then
    let (now, c) := c.currentTimeMs
    if SERVER_AUTH_TIMEOUT_SEC * 1000 < elapsedMs now c.authStartedMs then
      c.failAuthentication notify AuthErrorCode.authTimeout.value
        (ascii "server authentication timed out (120 seconds)")
    else c
  else if c.conn.connected then
    let (now, c) := c.currentTimeMs
    if TCP_RECV_TIMEOUT_MS < elapsedMs now c.conn.lastRecvTime then c.drop notify else c
  else c

def checkTimeouts (c : SignalClient) (done : Option Bool) : SignalClient :=
  if c.sendFailurePending then c.drop notify
  else
    let (late, c) :=
      if c.roomOperationPending then
        let (now, c) := c.roomMonotonicMs
        (decide (ROOM_REQUEST_TIMEOUT_MS ≤ now - c.roomRequestStarted), c)
      else (false, c)
    if late then
      let c := c.abandonRoomOperation
      let text := ascii "Room request timed out after 15 seconds"
      if c.hasRoomOperationFailure then notify (.roomOperationFailure text) c
      else notify (.serverError text) { c with sendFailurePending := true }
    else (c.pollAuthTask K kdf notify done).checkConnection notify

end SignalClient

/-! ### Events -/

inductive ClientEvent where
  | call (call : Call)
  | readable (chunk : Bytes)
  | writable (connectOk : Bool) (res : SendResult)
  | timeouts (done : Option Bool)

/-- What surrounds an event: the results of the calls to the system, and what
    the application does in callbacks. -/
structure Surroundings where
  env : ClientEnv := {}
  app : Callback → SignalClient → List Call := fun _ _ => []
  depth : Nat := 0

namespace SignalClient

variable (K : Crypto) (kdf : Kdf)

def handle (notify : Notify) (c : SignalClient) : ClientEvent → SignalClient
  | .call a => c.call K notify a
  | .readable chunk => c.onReadable K notify chunk
  | .writable connectOk res => c.onWritable K notify connectOk res
  | .timeouts done => c.checkTimeouts K kdf notify done

def step (w : Surroundings) (c : SignalClient) (e : ClientEvent) : SignalClient :=
  { c with env := w.env }.handle K kdf (callbacks K w.app w.depth) e

/-- The states of the client in some run, from construction on; `asks` are the
    calls the application makes, by itself and in callbacks. -/
inductive Reachable (asks : Call → Prop) : SignalClient → Prop
  | init (hasRoomOperationFailure : Bool) :
      Reachable asks { hasRoomOperationFailure := hasRoomOperationFailure }
  | step {c : SignalClient} (w : Surroundings) (e : ClientEvent)
      (happ : ∀ cb c, ∀ a ∈ w.app cb c, asks a) (he : ∀ a, e = .call a → asks a) :
      Reachable asks c → Reachable asks (c.step K kdf w e)

/-! ### A session on the sample primitives -/

/-- The frame as it comes from the server. -/
def incoming (msgType : UInt8) (body : Bytes) : ClientEvent :=
  .readable (tcpMsgHeader msgType body.length ++ body)

def draws (values : List Bytes) : Surroundings := { env := { random := values.map some } }

def connecting : SignalClient :=
  ((({} : SignalClient).step Crypto.sample Kdf.sample {}
    (.call (.setServerPassword (ascii "secret")))).step
    Crypto.sample Kdf.sample {} (.call (.connectTo true))).step Crypto.sample Kdf.sample
      (draws [List.replicate 16 3, List.replicate 32 4]) (.writable true .again)

/-- The server asks for the password, and its hash is begun. -/
def greeted : SignalClient :=
  connecting.step Crypto.sample Kdf.sample {} (incoming MSG_SERVER_HELLO
    (ByteBuffer.writeU16 PROTOCOL_VERSION ++ ByteBuffer.writeU8 1 ++
      ByteBuffer.writeU8 AUTH_KDF_PROFILE ++
      List.replicate 16 5 ++ List.replicate 16 6 ++ List.replicate 32 7))

end SignalClient

end VlanConnect

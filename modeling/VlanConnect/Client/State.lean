/-
  VlanConnect/Client/State.lean
  =============================
  **The state of the signaling client** (`client-cli/src/cli_net.h`,
  `TcpConnection` of `client-cli/src/cli_common.h`,
  `common/auth_kdf_task.h`).

  The client is a value that its functions pass along.  A callback may call
  back into the client before it returns, so every function that invokes one
  takes `notify`: what the application does to the client during the callback.
  What the operating system decides (clock readings, random bytes) is in
  `Env`; results of `connect`, `send` and `recv` come with the events.

  The key derivation runs in a worker of its own.  A request replaces the one
  before it and a stale result never comes back, so what is left of the task is
  the request whose result may still be polled.

  `log` is history: it is written and never read by the code modelled here.
  Log texts are left out, and so are exceptions thrown by a callback.
-/
import VlanConnect.ClientMessageValidator
import Std.Data.ExtTreeMap

namespace VlanConnect

/-! ### The connection -/

structure TcpConnection where
  /-- `fd != SOCK_INVALID`. -/
  hasFd : Bool := false
  recvBuf : Bytes := []
  sendBuf : Bytes := []
  connected : Bool := false
  connecting : Bool := false
  lastRecvTime : Nat := 0
deriving DecidableEq

namespace TcpConnection

def reset (_ : TcpConnection) : TcpConnection := {}

/-- `ok` is whether `socket` and `connect` succeeded. -/
def connectTo (conn : TcpConnection) (ok : Bool) : Bool × TcpConnection :=
  if ok then (true, { conn.reset with hasFd := true, connecting := true }) else (false, conn.reset)

/-- `send` takes at least one byte, or says why not. -/
def flushSend (conn : TcpConnection) (res : SendResult) : Bool × TcpConnection :=
  if ¬ conn.hasFd ∨ conn.sendBuf = [] then (true, conn)
  else
    match res with
    | .sent n => (true, { conn with sendBuf := conn.sendBuf.drop (max n 1) })
    | .again => (true, conn)
    | .fail => (false, conn)

def queueSend (conn : TcpConnection) (data : Bytes) : Bool × TcpConnection :=
  if MAX_TCP_SEND_BUF < conn.sendBuf.length ∨
      MAX_TCP_SEND_BUF - conn.sendBuf.length < data.length then
    (false, conn)
  else (true, { conn with sendBuf := conn.sendBuf ++ data })

def sendTcpMsg (conn : TcpConnection) (msgType : UInt8) (body : Bytes) : Bool × TcpConnection :=
  if MAX_TCP_MSG_PAYLOAD < body.length then (false, conn)
  else
    let frameSize := TCP_MSG_HEADER_SIZE + body.length
    if MAX_TCP_SEND_BUF < conn.sendBuf.length ∨
        MAX_TCP_SEND_BUF - conn.sendBuf.length < frameSize then
      (false, conn)
    else
      let (_, conn) := conn.queueSend (tcpMsgHeader msgType body.length)
      let (_, conn) := if body.length > 0 then conn.queueSend body else (true, conn)
      (true, conn)

/-- `recv` returned the chunk. -/
def readData (conn : TcpConnection) (chunk : Bytes) (now : Nat) : TcpConnection :=
  if chunk = [] then conn else { conn with recvBuf := conn.recvBuf ++ chunk, lastRecvTime := now }

end TcpConnection

/-! ### Data of the callbacks -/

structure CliRoomListItem where
  roomId : Nat
  roomName : Bytes
  playerCount : Nat
  maxPlayers : Nat
  tcpPolicy : RoomTrafficPolicy
  udpPolicy : RoomTrafficPolicy
  passwordProtected : Nat
  mtu : Nat
deriving DecidableEq

abbrev CliRoomTable := Std.ExtTreeMap Nat CliRoomListItem

/-- A member of a room; its transport is not known yet. -/
structure PeerInfo where
  peerId : Nat
  virtualIP : Nat
  name : Bytes
deriving DecidableEq

inductive Callback where
  | connected
  | disconnected
  | connectFailed (reason : String)
  | loginResponse (peerId : Nat) (resumeAccepted : Bool)
  | roomCreated (roomId virtualIP : Nat) (tcpPolicy udpPolicy : RoomTrafficPolicy) (mtu : Nat)
      (passwordProtected : Bool) (leaseToken : Bytes)
  | joinResponse (roomId virtualIP : Nat) (tcpPolicy udpPolicy : RoomTrafficPolicy) (mtu : Nat)
      (passwordProtected : Bool) (members : List PeerInfo) (leaseToken : Bytes)
  | peerJoined (info : PeerInfo)
  | peerResumed (info : PeerInfo)
  | peerLeft (peerId : Nat)
  | roomList (rooms : List CliRoomListItem) (pushed : Bool)
  | relayReady (peerId : Nat)
  | relayData (srcPeerId trafficClass : Nat) (data : Bytes)
  | logoutAck
  | serverPasswordRequired
  | secureSessionEstablished (sessionId : Nat) (master : Bytes)
  | serverError (message : Bytes)
  | roomOperationFailure (reason : Bytes)
  | fatalAuthError (code : Nat) (message : Bytes)
  | serverRtt (rttMs : Int)
deriving DecidableEq

/-- The callbacks that carry the service behind the login. -/
def Callback.isBusiness : Callback → Bool
  | loginResponse .. | roomCreated .. | joinResponse .. | peerJoined .. | peerResumed ..
  | peerLeft ..
  | roomList .. | relayReady .. | relayData .. | logoutAck | roomOperationFailure ..
  | serverRtt .. => true
  | connected | disconnected | connectFailed .. | serverPasswordRequired
  | secureSessionEstablished ..
  | serverError .. | fatalAuthError .. => false

/-! ### Calls of the application -/

/-- The settings of a room to create. -/
structure RoomSettings where
  roomName : Bytes
  maxPlayers : Nat
  tcpPolicy : RoomTrafficPolicy
  udpPolicy : RoomTrafficPolicy
  mtu : Nat
deriving DecidableEq

inductive Call where
  | connectTo (ok : Bool)
  | disconnect
  | setServerPassword (password : Bytes)
  | continueServerAuth
  | login (name : Bytes) (resume : Option ResumeRequest)
  | createRoom (settings : RoomSettings) (password : Option Bytes)
  | joinRoom (roomId : Nat) (password : Bytes)
  | resumeRoom (resume : Option ResumeRequest)
  | leaveRoom
  | abandonRoomOperation
  | logout
  | listRooms
  | requestRelay (targetPeerId : Nat)
  | sendRelayData (srcPeerId dstPeerId trafficClass : Nat) (data : Bytes)
  | sendPing
  | sendAuthResponse (response : Bytes)
deriving DecidableEq

/-! ### The client -/

/-- The hash of a password under a salt (`hashPasswordSalted`). -/
structure Kdf where
  hash : (password salt : Bytes) → Bytes
  length_hash : ∀ password salt, (hash password salt).length = 32

/-- A checksum instead of the hash, to run the model on. -/
def Kdf.sampleHash (password salt : Bytes) : Bytes :=
  BigEndian.encode 32 (Crypto.checksum (password ++ salt))

theorem Kdf.length_sampleHash (password salt : Bytes) :
    (Kdf.sampleHash password salt).length = 32 :=
  BigEndian.length_encode _ _

def Kdf.sample : Kdf where
  hash := Kdf.sampleHash
  length_hash := Kdf.length_sampleHash

/-- `m_authOperation`: what the key derivation is for. -/
inductive AuthOperation where
  | none | serverAuth | createRoom | roomPassword
deriving DecidableEq

/-- What the calls of one step will return. -/
structure ClientEnv where
  /-- `currentTimeMs`. -/
  clock : List Nat := []
  /-- `roomMonotonicMs`. -/
  monotonic : List Nat := []
  random : List (Option Bytes) := []

/-- History of the client. -/
inductive Output where
  | opened
  | closed
  /-- The keys of a connection were made. -/
  | keys (clientPrivKey clientNonce : Bytes)
  /-- A SERVER_HELLO was taken: its salt, nonce and public key. -/
  | hello (salt serverNonce serverPubKey : Bytes)
  /-- A message was encrypted for the stream. -/
  | sent (msgType : UInt8) (body : Bytes)
  /-- A frame was put on the stream. -/
  | wrote (msgType : UInt8) (body : Bytes)
  /-- `m_secureReady` was set for a SERVER_AUTH_OK; `password` is the server
      password at this moment. -/
  | secured (sessionId : Nat) (serverProof password : Bytes)
  | called (callback : Callback)
  | asked (call : Call)
deriving DecidableEq

structure SignalClient where
  conn : TcpConnection := {}
  myPeerId : Nat := 0
  pingSentTime : Nat := 0
  connectStartTime : Nat := 0
  authStartedMs : Nat := 0
  pendingRoomPassword : Bytes := []
  /-- The password and salt whose hash may still be polled. -/
  authTask : Option (Bytes × Bytes) := none
  authOperation : AuthOperation := .none
  pendingCreate : Bytes := []
  pendingCreateMtu : Nat := ROOM_MTU_DEFAULT
  authSalt : Bytes := List.replicate AUTH_SALT_SIZE 0
  expectedServerProof : Bytes := List.replicate 32 0
  roomChallenge : Bytes := List.replicate 32 0
  hasPendingAuth : Bool := false
  roomOperationPending : Bool := false
  discardRoomResponses : Bool := false
  roomRequestStarted : Nat := 0
  sendFailurePending : Bool := false
  serverPassword : Bytes := []
  serverAuthRequired : Bool := false
  secureReady : Bool := false
  disconnectNotified : Bool := false
  secureSessionId : Nat := 0
  clientNonce : Bytes := List.replicate 16 0
  serverNonce : Bytes := List.replicate 16 0
  clientPrivKey : Bytes := List.replicate 32 0
  clientPubKey : Bytes := List.replicate 32 0
  serverPubKey : Bytes := List.replicate 32 0
  secureMaster : Bytes := []
  secureCipher : SecureFrameCipher := {}
  roomListRevision : Nat := 0
  snapshotRevision : Nat := 0
  snapshotPageCount : Nat := 0
  snapshotNextPage : Nat := 0
  roomListCache : CliRoomTable := ∅
  snapshotRooms : CliRoomTable := ∅
  /-- Whether the application has set `onRoomOperationFailure`. -/
  hasRoomOperationFailure : Bool := true
  env : ClientEnv := {}
  /-- History: what the client did so far. -/
  log : List Output := []

/-- What the application does to the client while a callback runs. -/
abbrev Notify := Callback → SignalClient → SignalClient

namespace SignalClient

def record (c : SignalClient) (o : Output) : SignalClient := { c with log := c.log ++ [o] }

def currentTimeMs (c : SignalClient) : Nat × SignalClient :=
  match c.env.clock with
  | [] => (0, c)
  | t :: ts => (t, { c with env := { c.env with clock := ts } })

def roomMonotonicMs (c : SignalClient) : Nat × SignalClient :=
  match c.env.monotonic with
  | [] => (0, c)
  | t :: ts => (t, { c with env := { c.env with monotonic := ts } })

def secureRandomBytes (c : SignalClient) (size : Nat) : Option Bytes × SignalClient :=
  match c.env.random with
  | [] => (none, c)
  | r :: rs =>
    (r.map fun b => (b ++ List.replicate size 0).take size,
      { c with env := { c.env with random := rs } })

/-- `m_conn.reset()`. -/
def resetConn (c : SignalClient) : SignalClient := { c with conn := c.conn.reset }.record .closed

/-- `m_conn.sendTcpMsg`, and the mark of a failed send. -/
def sendFrame (c : SignalClient) (msgType : UInt8) (body : Bytes) : SignalClient :=
  let (ok, conn) := c.conn.sendTcpMsg msgType body
  if ok then { c with conn := conn }.record (.wrote msgType body)
  else { c with conn := conn, sendFailurePending := true }

/-! ### Resets -/

def cancelRoomOperation (c : SignalClient) : SignalClient :=
  let c := if c.authOperation = .createRoom ∨ c.authOperation = .roomPassword then
      { c with authTask := none, authOperation := .none }
    else c
  { c with
    roomOperationPending := false
    hasPendingAuth := false
    pendingRoomPassword := []
    roomChallenge := List.replicate 32 0
    pendingCreate := [] }

def resetRoomListState (c : SignalClient) : SignalClient :=
  { c with
    roomListRevision := 0
    snapshotRevision := 0
    snapshotPageCount := 0
    snapshotNextPage := 0
    roomListCache := ∅
    snapshotRooms := ∅ }

def resetSecureState (c : SignalClient) : SignalClient :=
  let c := c.cancelRoomOperation
  let c := { c with
    authTask := none
    authOperation := .none
    roomOperationPending := false
    sendFailurePending := false
    discardRoomResponses := false
    roomRequestStarted := 0
    authSalt := List.replicate AUTH_SALT_SIZE 0
    expectedServerProof := List.replicate 32 0
    roomChallenge := List.replicate 32 0
    serverAuthRequired := false
    secureReady := false
    secureSessionId := 0
    secureCipher := c.secureCipher.reset
    secureMaster := []
    clientNonce := List.replicate 16 0
    serverNonce := List.replicate 16 0
    clientPrivKey := List.replicate 32 0
    clientPubKey := List.replicate 32 0
    serverPubKey := List.replicate 32 0
    pendingRoomPassword := []
    hasPendingAuth := false }
  c.resetRoomListState

variable (notify : Notify)

def notifyDisconnectedOnce (c : SignalClient) : SignalClient :=
  if c.disconnectNotified then c else notify .disconnected { c with disconnectNotified := true }

/-- The connection is given up: the three calls that end every failure. -/
def drop (c : SignalClient) : SignalClient :=
  (c.resetConn.resetSecureState).notifyDisconnectedOnce notify

def failSignalFrame (c : SignalClient) : SignalClient := c.drop notify

def failAuthentication (c : SignalClient) (code : Nat) (message : Bytes) : SignalClient :=
  let c := notify (.fatalAuthError code message) c
  let c := notify (.serverError message) c
  c.drop notify

end SignalClient

end VlanConnect

/-
  VlanConnect/Client/Requests.lean
  ================================
  **What the application asks of the signaling client** (`connectTo` …
  `sendAuthResponse` of `client-cli/src/cli_net.cpp`), and the messages the
  client builds for it.

  A room with a password is created in two steps: `createRoom` builds the front
  of the message and starts the key derivation, and `pollAuthTask` appends salt,
  hash and MTU when the hash is there.
-/
import VlanConnect.ClientMessageValidator
import VlanConnect.Client.State

namespace VlanConnect

open ByteBuffer

/-! ### Message bodies -/

def resumeBody (r : ResumeRequest) : Bytes := writeU32 r.roomId ++ writeU32 r.peerId ++ r.token

def loginBody (name : Bytes) (resume : Option ResumeRequest) : Bytes :=
  writeString name ++ writeU16 PROTOCOL_VERSION ++
    match resume with
    | some r => writeU8 1 ++ resumeBody r
    | none => writeU8 0

/-- The message up to the password flag. -/
def createRoomFront (r : RoomSettings) (passwordProtected : Bool) : Bytes :=
  writeString r.roomName ++ writeU8 r.maxPlayers ++ writePolicy r.tcpPolicy ++
    writePolicy r.udpPolicy ++
    writeU8 (if passwordProtected then 1 else 0)

def joinRoomBody (roomId : Nat) : Bytes := writeU32 roomId

def requestRelayBody (targetPeerId : Nat) : Bytes := writeU32 targetPeerId

def relayDataBody (srcPeerId dstPeerId trafficClass : Nat) (data : Bytes) : Bytes :=
  writeU32 srcPeerId ++ writeU32 dstPeerId ++ writeU8 trafficClass ++ data

namespace SignalClient

variable (K : Crypto) (notify : Notify)

/-! ### Encrypted messages -/

def sendMsg (c : SignalClient) (msgType : UInt8) (body : Bytes) : SignalClient :=
  if MAX_TCP_MSG_PAYLOAD < body.length then c
  else if ¬ c.secureReady then c
  else
    let (enc, cipher) := c.secureCipher.encrypt K (msgType :: body) []
    let c := { c with secureCipher := cipher }
    if enc = [] then
      (notify (.serverError (ascii "secure counter exhausted; reconnect required")) c).drop notify
    else if MAX_TCP_MSG_PAYLOAD < enc.length then c
    else (c.record (.sent msgType body)).sendFrame MSG_ENCRYPTED enc

/-! ### Connection and server password -/

def connectTo (c : SignalClient) (ok : Bool) : SignalClient :=
  let c := { c with myPeerId := 0 }.resetSecureState
  let (now, c) := c.currentTimeMs
  let c := { c with disconnectNotified := false, connectStartTime := now }
  let c := c.resetConn
  let (opens, conn) := c.conn.connectTo ok
  let c := { c with conn := conn }
  if opens then c.record .opened else c

def disconnect (c : SignalClient) : SignalClient :=
  { c.resetConn.resetSecureState with myPeerId := 0 }

def setServerPassword (c : SignalClient) (password : Bytes) : SignalClient :=
  let c := if c.authOperation = .serverAuth then { c with authTask := none, authOperation := .none }
    else c
  let c := { c with serverPassword := password }
  if ¬ c.secureReady ∧ c.secureMaster ≠ [] then c.disconnect else c

def sendServerAuth (c : SignalClient) : SignalClient :=
  if c.authOperation ≠ .none ∨ c.secureReady ∨ c.secureMaster ≠ [] then c
  else if c.serverPassword = [] then notify .serverPasswordRequired c
  else { c with authOperation := .serverAuth, authTask := some (c.serverPassword, c.authSalt) }

def continueServerAuth (c : SignalClient) : SignalClient :=
  if c.serverAuthRequired ∧ ¬ c.secureReady then c.sendServerAuth notify else c

/-! ### Requests -/

/-- `resume` is the lease of a request with `hasResume` and a token. -/
def login (c : SignalClient) (name : Bytes) (resume : Option ResumeRequest) : SignalClient :=
  c.sendMsg K notify MSG_LOGIN (loginBody name resume)

/-- The lines every room request starts with. -/
def startRoomOperation (c : SignalClient) : SignalClient :=
  let (now, c) := { c with
    roomOperationPending := true, discardRoomResponses := false }.roomMonotonicMs
  { c with roomRequestStarted := now }

/-- `password` is given for a protected room. -/
def createRoom (c : SignalClient) (r : RoomSettings) (password : Option Bytes) : SignalClient :=
  if c.roomOperationPending ∨ c.authOperation ≠ .none ∨ ¬ c.secureReady then c
  else
    let c := c.startRoomOperation
    let front := createRoomFront r password.isSome
    match password with
    | none => c.sendMsg K notify MSG_CREATE_ROOM (front ++ writeU16 (normalizeRoomMtu r.mtu))
    | some password =>
      let (salt, c) := c.secureRandomBytes AUTH_SALT_SIZE
      match salt with
      | none =>
        notify (.serverError (ascii "secure random generation failed")) { c with
          roomOperationPending := false }
      | some salt =>
        { c with
          authSalt := salt
          pendingCreate := front
          pendingCreateMtu := normalizeRoomMtu r.mtu
          authOperation := .createRoom
          authTask := some (password, salt) }

def joinRoom (c : SignalClient) (roomId : Nat) (password : Bytes) : SignalClient :=
  if c.roomOperationPending ∨ c.authOperation ≠ .none ∨ ¬ c.secureReady ∨ roomId = 0 then c
  else
    let c := { c.startRoomOperation with pendingRoomPassword := password, hasPendingAuth := true }
    c.sendMsg K notify MSG_JOIN_ROOM (joinRoomBody roomId)

/-- `none` is a request without a token. -/
def resumeRoom (c : SignalClient) (resume : Option ResumeRequest) : SignalClient :=
  match resume with
  | none => c
  | some r =>
    if c.roomOperationPending ∨ ¬ c.secureReady then c
    else c.startRoomOperation.sendMsg K notify MSG_RESUME_ROOM (resumeBody r)

def leaveRoom (c : SignalClient) : SignalClient :=
  if c.roomOperationPending then { c.cancelRoomOperation with sendFailurePending := true }
  else c.sendMsg K notify MSG_LEAVE_ROOM []

def abandonRoomOperation (c : SignalClient) : SignalClient :=
  { c.cancelRoomOperation with discardRoomResponses := true }

def logout (c : SignalClient) : SignalClient :=
  c.abandonRoomOperation.sendMsg K notify MSG_LOGOUT []

def listRooms (c : SignalClient) : SignalClient := c.sendMsg K notify MSG_LIST_ROOMS []

def requestRelay (c : SignalClient) (targetPeerId : Nat) : SignalClient :=
  c.sendMsg K notify MSG_REQUEST_RELAY (requestRelayBody targetPeerId)

def sendRelayData (c : SignalClient) (srcPeerId dstPeerId trafficClass : Nat) (data : Bytes) :
    SignalClient :=
  c.sendMsg K notify MSG_TCP_RELAY_DATA (relayDataBody srcPeerId dstPeerId trafficClass data)

def sendPing (c : SignalClient) : SignalClient :=
  let (now, c) := c.currentTimeMs
  { c with pingSentTime := now }.sendMsg K notify MSG_PING []

def sendAuthResponse (c : SignalClient) (response : Bytes) : SignalClient :=
  c.sendMsg K notify MSG_AUTH_RESPONSE response

/-! ### Calls of the application -/

def perform (c : SignalClient) : Call → SignalClient
  | .connectTo ok => c.connectTo ok
  | .disconnect => c.disconnect
  | .setServerPassword password => c.setServerPassword password
  | .continueServerAuth => c.continueServerAuth notify
  | .login name resume => c.login K notify name resume
  | .createRoom settings password => c.createRoom K notify settings password
  | .joinRoom roomId password => c.joinRoom K notify roomId password
  | .resumeRoom resume => c.resumeRoom K notify resume
  | .leaveRoom => c.leaveRoom K notify
  | .abandonRoomOperation => c.abandonRoomOperation
  | .logout => c.logout K notify
  | .listRooms => c.listRooms K notify
  | .requestRelay targetPeerId => c.requestRelay K notify targetPeerId
  | .sendRelayData srcPeerId dstPeerId trafficClass data =>
    c.sendRelayData K notify srcPeerId dstPeerId trafficClass data
  | .sendPing => c.sendPing K notify
  | .sendAuthResponse response => c.sendAuthResponse K notify response

def call (c : SignalClient) (a : Call) : SignalClient := (c.record (.asked a)).perform K notify a

/-- An application: the calls it makes in a callback.  `depth` bounds how far
    callbacks of these calls are nested. -/
def callbacks (app : Callback → SignalClient → List Call) : (depth : Nat) → Notify
  | 0, cb, c => c.record (.called cb)
  | depth + 1, cb, c =>
    (app cb c).foldl (SignalClient.call K (callbacks app depth)) (c.record (.called cb))

end SignalClient

end VlanConnect

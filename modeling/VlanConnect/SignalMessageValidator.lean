/-
  VlanConnect/SignalMessageValidator.lean
  =======================================
  **The well-formedness check of server messages**
  (`common/signal_message_validator.h`).

  A `Cursor` method that fails remembers its error and offset and makes the
  check end there, so a cursor program is a state transformer on the position
  and the unread bytes that may stop with an error.  An empty payload is the
  null pointer of the source.
-/
import VlanConnect.SecureFrame
import VlanConnect.Protocol

namespace VlanConnect

inductive MessageValidationError where
  | truncated | trailingData | invalidBoolean | invalidCount | invalidStringLength | invalidPolicy
  | invalidMtu | invalidVersion | invalidTrafficClass | invalidValue | encryptedFrameTooShort
deriving DecidableEq

inductive MessageValidationResult where
  | valid
  | unknownType
  | malformed (error : MessageValidationError) (offset : Nat)
deriving DecidableEq

namespace MessageValidatorDetail

/-! ### The cursor -/

abbrev Cursor := StateT (Nat × Bytes) (Except (MessageValidationError × Nat))

def position : Cursor Nat := fun at_ => .ok (at_.1, at_)

def remaining : Cursor Nat := fun at_ => .ok (at_.2.length, at_)

def setError {α : Type} (error : MessageValidationError) (offset : Nat) : Cursor α :=
  fun _ => .error (error, offset)

/-- `require` and the bytes it asked for. -/
def take (count : Nat) : Cursor Bytes := fun (pos, unread) =>
  if unread.length < count then .error (.truncated, pos)
  else .ok (unread.take count, pos + count, unread.drop count)

def readUInt (width : Nat) : Cursor Nat := BigEndian.decode <$> take width

def readU8 : Cursor Nat := readUInt 1
def readU16 : Cursor Nat := readUInt 2
def readU32 : Cursor Nat := readUInt 4
def readU64 : Cursor Nat := readUInt 8

def skip (count : Nat) : Cursor Unit := do
  let _ ← take count

def readString (minLen maxLen : Nat) (alphaNumeric : Bool) : Cursor Unit := do
  let lengthOffset ← position
  let length ← readU16
  if length < minLen ∨ maxLen < length then setError .invalidStringLength lengthOffset
  let start ← position
  let s ← take length
  if alphaNumeric ∧ ¬ isAsciiAlphaNumString s then
    setError .invalidValue (start + s.findIdx (!isAsciiAlphaNum ·))

def readBoolean : Cursor Unit := do
  let fieldOffset ← position
  let value ← readU8
  if 1 < value then setError .invalidBoolean fieldOffset

def readPolicy : Cursor Unit := do
  let fieldOffset ← position
  let transport ← readU8
  let fec ← readU8
  let profile ← readU8
  if ¬ validPolicyValues transport fec profile then setError .invalidPolicy fieldOffset

def readMtu : Cursor Unit := do
  let fieldOffset ← position
  let mtu ← readU16
  if ¬ isValidRoomMtuValue mtu then setError .invalidMtu fieldOffset

/-- Run a check from the start of a payload to its end. -/
def finish (cursor : Cursor Unit) (payload : Bytes) : MessageValidationResult :=
  match cursor (0, payload) with
  | .error (error, offset) => .malformed error offset
  | .ok (_, pos, unread) => if unread = [] then .valid else .malformed .trailingData pos

def fixedSize (actual expected : Nat) : MessageValidationResult :=
  if actual < expected then .malformed .truncated actual
  else if expected < actual then .malformed .trailingData expected
  else .valid

/-- Counter, at least the type of the message inside, and MAC. -/
def validateEncryptedEnvelope (len : Nat) : MessageValidationResult :=
  if len < 8 + 1 + 16 then .malformed .encryptedFrameTooShort len else .valid

/-! ### Parts of messages -/

def readPeerInfo (offset : Nat) : Cursor Unit := do
  let peerId ← readU32
  let virtualIP ← readU32
  readString MIN_PLAYER_NAME_LEN MAX_PLAYER_NAME_LEN true
  if peerId = 0 ∨ virtualIP = 0 then setError .invalidValue offset

def readRelayData : Cursor Unit := do
  let srcPeerId ← readU32
  let dstPeerId ← readU32
  let trafficClass ← readU8
  if srcPeerId = 0 ∨ dstPeerId = 0 then setError .invalidValue 0
  if trafficClass ≠ TRAFFIC_TCP ∧ trafficClass ≠ TRAFFIC_UDP then setError .invalidTrafficClass 8
  skip (← remaining)

/-- Returns the id of the room. -/
def readRoomListItem : Cursor Nat := do
  let roomOffset ← position
  let roomId ← readU32
  readString 1 MAX_ROOM_NAME_LEN false
  let playerCount ← readU8
  let maxPlayers ← readU8
  readPolicy
  readPolicy
  readBoolean
  readMtu
  if roomId = 0 ∨ maxPlayers < 2 ∨ MAX_PLAYERS < maxPlayers ∨ maxPlayers < playerCount then
    setError .invalidValue roomOffset
  return roomId

def readMembers : (count : Nat) → Cursor Unit
  | 0 => pure ()
  | count + 1 => do
    let memberOffset ← position
    readPeerInfo memberOffset
    readMembers count

/-- The records of a page; `roomIds` are the ids seen so far. -/
def readRooms (roomIds : List Nat) : (count : Nat) → Cursor Unit
  | 0 => pure ()
  | count + 1 => do
    let roomId ← readRoomListItem
    if roomId ∈ roomIds then setError .invalidValue (← position)
    readRooms (roomId :: roomIds) count

/-- One change of a push: the id of its room. -/
def readRoomChange : Cursor Nat := do
  let operation ← readU8
  if operation = ROOM_LIST_UPSERT then readRoomListItem
  else if operation = ROOM_LIST_REMOVE then do
    let roomId ← readU32
    if roomId = 0 then setError .invalidValue ((← position) - 4)
    return roomId
  else do
    setError .invalidValue ((← position) - 1)

def readRoomChanges (roomIds : List Nat) : (count : Nat) → Cursor Unit
  | 0 => pure ()
  | count + 1 => do
    let roomId ← readRoomChange
    if roomId ∈ roomIds then setError .invalidValue (← position)
    readRoomChanges (roomId :: roomIds) count

/-! ### Messages -/

def readServerHello : Cursor Unit := do
  let version ← readU16
  let authRequired ← readU8
  if version ≠ PROTOCOL_VERSION then setError .invalidVersion 0
  if 1 < authRequired then setError .invalidBoolean 2
  if authRequired ≠ 0 then skip (1 + AUTH_SALT_SIZE + 16 + 32)

def readServerAuthOk : Cursor Unit := do
  let sessionId ← readU32
  skip 32
  if sessionId = 0 then setError .invalidValue 0

def readLoginResp : Cursor Unit := do
  let peerId ← readU32
  let version ← readU16
  if peerId = 0 then setError .invalidValue 0
  if version ≠ PROTOCOL_VERSION then setError .invalidVersion 4
  readBoolean

def readRoomCreated : Cursor Unit := do
  let roomId ← readU32
  let virtualIP ← readU32
  readPolicy
  readPolicy
  readBoolean
  readMtu
  skip RECONNECT_TOKEN_SIZE
  if roomId = 0 ∨ virtualIP = 0 then setError .invalidValue 0

def readJoinResp : Cursor Unit := do
  let roomId ← readU32
  let virtualIP ← readU32
  readPolicy
  readPolicy
  readBoolean
  readMtu
  let count ← readU8
  if roomId = 0 ∨ virtualIP = 0 then setError .invalidValue 0
  if count = 0 ∨ MAX_PLAYERS < count then setError .invalidCount ((← position) - 1)
  readMembers count
  skip RECONNECT_TOKEN_SIZE

def readPeerId : Cursor Unit := do
  let peerId ← readU32
  if peerId = 0 then setError .invalidValue 0

def MIN_ROOM_RECORD_SIZE : Nat := 4 + 2 + 1 + 2 + 3 + 3 + 1 + 2

def readRoomList : Cursor Unit := do
  let revision ← readU64
  let pageIndex ← readU16
  let pageCount ← readU16
  let count ← readU16
  if revision = 0 ∨ pageCount = 0 ∨ pageCount ≤ pageIndex then setError .invalidValue 0
  if (← remaining) / MIN_ROOM_RECORD_SIZE < count then setError .invalidCount 12
  readRooms [] count

def readRoomListPush : Cursor Unit := do
  let baseRevision ← readU64
  let revision ← readU64
  let count ← readU16
  if revision = 0 ∨ revision ≤ baseRevision ∨ count = 0 then setError .invalidValue 0
  readRoomChanges [] count

def readError : Cursor Unit := do
  skip 2
  readString 1 (MAX_TCP_MSG_PAYLOAD - 4) false

end MessageValidatorDetail

open MessageValidatorDetail in
def validateServerSignalPayload (msgType : UInt8) (payload : Bytes) : MessageValidationResult :=
  let len := payload.length
  if msgType = MSG_SERVER_HELLO then finish readServerHello payload
  else if msgType = MSG_SERVER_AUTH_OK then finish readServerAuthOk payload
  else if msgType = MSG_ENCRYPTED then validateEncryptedEnvelope len
  else if msgType = MSG_LOGIN_RESP then finish readLoginResp payload
  else if msgType = MSG_ROOM_CREATED then finish readRoomCreated payload
  else if msgType = MSG_JOIN_RESP then finish readJoinResp payload
  else if msgType = MSG_PEER_JOINED ∨
    msgType = MSG_PEER_RESUMED then finish (readPeerInfo 0) payload
  else if msgType = MSG_PEER_LEFT ∨ msgType = MSG_RELAY_READY then finish readPeerId payload
  else if msgType = MSG_LOGOUT_ACK ∨ msgType = MSG_PONG then fixedSize len 0
  else if msgType = MSG_ROOM_LIST then
    if ROOM_LIST_PAGE_PAYLOAD < len then .malformed .invalidValue ROOM_LIST_PAGE_PAYLOAD
    else finish readRoomList payload
  else if msgType = MSG_ROOM_LIST_PUSH then
    if ROOM_LIST_PAGE_PAYLOAD < len then .malformed .invalidValue ROOM_LIST_PAGE_PAYLOAD
    else finish readRoomListPush payload
  else if msgType = MSG_AUTH_CHALLENGE then fixedSize len (1 + AUTH_SALT_SIZE + 32)
  else if msgType = MSG_ERROR then finish readError payload
  else if msgType = MSG_TCP_RELAY_DATA then finish readRelayData payload
  else .unknownType

open MessageValidatorDetail in
/-- The messages of the data channel. -/
def validateServerDataPayload (msgType : UInt8) (payload : Bytes) : MessageValidationResult :=
  let len := payload.length
  if msgType = MSG_ENCRYPTED then validateEncryptedEnvelope len
  else if msgType = MSG_DATA_CHANNEL_ACK ∨ msgType = MSG_PONG then fixedSize len 0
  else if msgType = MSG_TCP_RELAY_DATA then finish readRelayData payload
  else .unknownType

end VlanConnect

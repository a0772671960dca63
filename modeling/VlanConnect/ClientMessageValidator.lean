/-
  VlanConnect/ClientMessageValidator.lean
  =======================================
  **The well-formedness check of client messages**
  (`server/src/client_message_validator.h`).

  A parser returns whether the payload has the right shape; a read past the
  end is caught and counts as malformed.  An empty payload is the null pointer
  of the source.
-/
import VlanConnect.SecureFrame
import VlanConnect.Protocol

namespace VlanConnect

open ByteBuffer

def hasNonzeroReconnectToken (token : Bytes) : Bool := token.any (· != 0)

/-- The resume part of a login or resume request. -/
structure ResumeRequest where
  roomId : Nat
  peerId : Nat
  token : Bytes
deriving DecidableEq

def readResumeRequest : Reader ResumeRequest := do
  let roomId ← readU32
  let peerId ← readU32
  let token ← readBytes RECONNECT_TOKEN_SIZE
  return ⟨roomId, peerId, token⟩

def validResumeRequest (r : ResumeRequest) : Bool :=
  decide (r.roomId ≠ 0 ∧ r.peerId ≠ 0) && hasNonzeroReconnectToken r.token

def validateLogin : Reader Bool := do
  let name ← readString
  if ¬ isValidPlayerName name then return false
  let _ ← readU16
  let hasResume ← readU8
  if hasResume > 1 then return false
  if hasResume = 1 then
    let r ← readResumeRequest
    if ¬ validResumeRequest r then return false
  atEnd

/-- Player limit and policy bytes of a room request. -/
structure RoomShape where
  maxPlayers : Nat
  tcpMode : Nat
  tcpFec : Nat
  tcpProfile : Nat
  udpMode : Nat
  udpFec : Nat
  udpProfile : Nat

def readRoomPolicies (maxPlayers : Nat) : Reader RoomShape := do
  let tcpMode ← readU8
  let tcpFec ← readU8
  let tcpProfile ← readU8
  let udpMode ← readU8
  let udpFec ← readU8
  let udpProfile ← readU8
  return ⟨maxPlayers, tcpMode, tcpFec, tcpProfile, udpMode, udpFec, udpProfile⟩

def RoomShape.validPolicies (r : RoomShape) : Bool :=
  validPolicyValues r.tcpMode r.tcpFec r.tcpProfile &&
    validPolicyValues r.udpMode r.udpFec r.udpProfile

def validMaxPlayers (maxPlayers : Nat) : Bool := decide (2 ≤ maxPlayers ∧ maxPlayers ≤ MAX_PLAYERS)

def validateCreateRoom : Reader Bool := do
  let roomName ← readString
  let maxPlayers ← readU8
  let shape ← readRoomPolicies maxPlayers
  if ¬ (isValidRoomName roomName ∧ validMaxPlayers maxPlayers ∧ shape.validPolicies) then
    return false
  let passwordProtected ← readU8
  if passwordProtected > 1 then return false
  if passwordProtected = 1 then
    let _ ← readBytes AUTH_SALT_SIZE
    let _ ← readBytes 32
  let mtu ← readU16
  let done ← atEnd
  return isValidRoomMtuValue mtu && done

def validateNonzeroU32 : Reader Bool := do
  let id ← readU32
  let done ← atEnd
  return decide (id ≠ 0) && done

def validateResumeRoom : Reader Bool := do
  let r ← readResumeRequest
  let done ← atEnd
  return validResumeRequest r && done

/-- Source, destination and class of a relayed packet. -/
structure RelayHeader where
  source : Nat
  destination : Nat
  trafficClass : Nat
deriving DecidableEq

def readRelayHeader : Reader RelayHeader := do
  let source ← readU32
  let destination ← readU32
  let trafficClass ← readU8
  return ⟨source, destination, trafficClass⟩

def validTrafficClass (trafficClass : Nat) : Bool :=
  decide (trafficClass = TRAFFIC_TCP ∨ trafficClass = TRAFFIC_UDP)

def validateRelayData : Reader Bool := do
  let h ← readRelayHeader
  return decide (h.source ≠ 0 ∧ h.destination ≠ 0) && validTrafficClass h.trafficClass

def validateClientSignalPayload (msgType : UInt8) (payload : Bytes) : Bool :=
  let len := payload.length
  let accepts := fun reader => (parse reader payload).getD false
  if msgType = MSG_CLIENT_HELLO then decide (len = 2 + 16 + 32)
  else if msgType = MSG_SERVER_AUTH then decide (len = 32)
  else if msgType = MSG_ENCRYPTED then decide (SECURE_FRAME_OVERHEAD + 1 ≤ len)
  else if msgType = MSG_LOGIN then accepts validateLogin
  else if msgType = MSG_CREATE_ROOM then accepts validateCreateRoom
  else if msgType = MSG_JOIN_ROOM ∨ msgType = MSG_REQUEST_RELAY then
    decide (len = 4) && accepts validateNonzeroU32
  else if msgType = MSG_RESUME_ROOM then
    decide (len = 4 + 4 + RECONNECT_TOKEN_SIZE) && accepts validateResumeRoom
  else if msgType = MSG_AUTH_RESPONSE then decide (len = 32)
  else if msgType = MSG_LEAVE_ROOM ∨ msgType = MSG_LOGOUT ∨ msgType = MSG_LIST_ROOMS ∨
      msgType = MSG_PING then decide (len = 0)
  else if msgType = MSG_TCP_RELAY_DATA then decide (9 ≤ len) && accepts validateRelayData
  else true

end VlanConnect

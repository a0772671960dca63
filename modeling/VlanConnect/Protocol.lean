/-
  VlanConnect/Protocol.lean
  =========================
  **Message types, limits and room policies** (`common/protocol.h`,
  `common/traffic_policy_codec.h`).

  A message type is the byte on the wire: a peer may send any of the 256, so
  the types are constants and not an enumeration.  The fields of a room policy
  are enumerations with their wire values.
-/
import VlanConnect.Bytes

namespace VlanConnect

/-! ### Limits -/

def VNET_SUBNET : Nat := 0x0A0A0000
def VNET_FIRST_HOST_SUFFIX : Nat := 2
def VNET_LAST_HOST_SUFFIX : Nat := 254
def HEARTBEAT_TIMEOUT_SEC : Nat := 45
def KCP_KEEPALIVE_INTERVAL_MS : Nat := 5000
def KCP_DEAD_TIMEOUT_MS : Nat := 30000
def RAW_UDP_KEEPALIVE_MS : Nat := 5000
def RAW_UDP_DEAD_TIMEOUT_MS : Nat := 30000
def RAW_UDP_FRAG_TIMEOUT_MS : Nat := 2000
def RAW_UDP_MAX_FRAG_PAYLOAD : Nat := 1457
def RAW_UDP_MAX_REASSEMBLY_BYTES : Nat := 128 * 1024
def RAW_UDP_MAX_ACTIVE_MESSAGES : Nat := 64
def FEC_MAX_BUFFERED_BYTES : Nat := 256 * 1024
def FEC_MAX_ACTIVE_GROUPS : Nat := 32
def ROOM_MTU_SAFE : Nat := 1280
def ROOM_MTU_BALANCED : Nat := 1400
def ROOM_MTU_AGGRESSIVE : Nat := 1420
def ROOM_MTU_DEFAULT : Nat := ROOM_MTU_BALANCED
def MAX_ROOM_NAME_LEN : Nat := 63
def MIN_PLAYER_NAME_LEN : Nat := 5
def MAX_PLAYER_NAME_LEN : Nat := 63
def MAX_PLAYERS : Nat := 8
def RECONNECT_TOKEN_SIZE : Nat := 32
def RECONNECT_LEASE_TIMEOUT_SEC : Nat := 120
def CLIENT_HELLO_TIMEOUT_SEC : Nat := 10
def MAX_TCP_SEND_BUF : Nat := 2 * 1024 * 1024
def MAX_TCP_MSG_PAYLOAD : Nat := 65000
def ROOM_LIST_PAGE_PAYLOAD : Nat := 60000
def PROTOCOL_VERSION : Nat := 9
def AUTH_KDF_PROFILE : Nat := 1
def AUTH_SALT_SIZE : Nat := 16

/-! ### Packet and message types -/

def UDP_KCP_DATA : UInt8 := 0x01
def UDP_RELAY_DATA : UInt8 := 0x02
def UDP_KEEPALIVE : UInt8 := 0x07
def UDP_RAW_RELAY_DATA : UInt8 := 0x08
def UDP_ENCRYPTED : UInt8 := 0x09

def MSG_LOGIN : UInt8 := 0x01
def MSG_LOGIN_RESP : UInt8 := 0x02
def MSG_CREATE_ROOM : UInt8 := 0x03
def MSG_JOIN_ROOM : UInt8 := 0x04
def MSG_PEER_JOINED : UInt8 := 0x06
def MSG_PEER_LEFT : UInt8 := 0x07
def MSG_LEAVE_ROOM : UInt8 := 0x08
def MSG_ROOM_CREATED : UInt8 := 0x09
def MSG_JOIN_RESP : UInt8 := 0x0A
def MSG_REQUEST_RELAY : UInt8 := 0x0E
def MSG_RELAY_READY : UInt8 := 0x0F
def MSG_LIST_ROOMS : UInt8 := 0x10
def MSG_ROOM_LIST : UInt8 := 0x11
def MSG_ROOM_LIST_PUSH : UInt8 := 0x12
def MSG_RESUME_ROOM : UInt8 := 0x13
def MSG_LOGOUT : UInt8 := 0x14
def MSG_LOGOUT_ACK : UInt8 := 0x15
def MSG_PEER_RESUMED : UInt8 := 0x16
def MSG_TCP_RELAY_DATA : UInt8 := 0x20
def MSG_DATA_CHANNEL_INIT : UInt8 := 0x21
def MSG_DATA_CHANNEL_ACK : UInt8 := 0x22
def MSG_CLIENT_HELLO : UInt8 := 0x30
def MSG_SERVER_HELLO : UInt8 := 0x31
def MSG_SERVER_AUTH : UInt8 := 0x32
def MSG_SERVER_AUTH_OK : UInt8 := 0x33
def MSG_ENCRYPTED : UInt8 := 0x34
def MSG_AUTH_CHALLENGE : UInt8 := 0xE0
def MSG_AUTH_RESPONSE : UInt8 := 0xE1
def MSG_PING : UInt8 := 0xF0
def MSG_PONG : UInt8 := 0xF1
def MSG_ERROR : UInt8 := 0xF2

/-- `sizeof(TcpMsgHeader)`: type and 16-bit length. -/
def TCP_MSG_HEADER_SIZE : Nat := 3

/-- `sizeof(UdpRelayHeader)`: type, class, source and destination. -/
def UDP_RELAY_HEADER_SIZE : Nat := 10

/-- `sizeof(FragHeader)`: message id, fragment index and count, length of the packet. -/
def FRAG_HEADER_SIZE : Nat := 6

/-- `sizeof(FecHeader)`: group id, index, data count and total count. -/
def FEC_HEADER_SIZE : Nat := 4

def FEC_GROUP_SIZE : Nat := 10

def TRAFFIC_TCP : Nat := 1
def TRAFFIC_UDP : Nat := 2

def ROOM_LIST_UPSERT : Nat := 1
def ROOM_LIST_REMOVE : Nat := 2

inductive AuthErrorCode where
  | general | versionMismatch | invalidPassword | invalidServerProof | unsupportedKdf
  | invalidKey | rateLimited | authTimeout | kdfFailed | roomPassword
deriving DecidableEq

def AuthErrorCode.value : AuthErrorCode → Nat
  | general => 0 | versionMismatch => 1 | invalidPassword => 2 | invalidServerProof => 3
  | unsupportedKdf => 4 | invalidKey => 5 | rateLimited => 6 | authTimeout => 7
  | kdfFailed => 8 | roomPassword => 9

/-! ### Names -/

def isAsciiAlphaNum (c : UInt8) : Bool :=
  decide (0x30 ≤ c ∧ c ≤ 0x39 ∨ 0x41 ≤ c ∧ c ≤ 0x5A ∨ 0x61 ≤ c ∧ c ≤ 0x7A)

def isAsciiAlphaNumString (s : Bytes) : Bool := s.all isAsciiAlphaNum

def isValidPlayerName (s : Bytes) : Bool :=
  decide (MIN_PLAYER_NAME_LEN ≤ s.length ∧ s.length ≤ MAX_PLAYER_NAME_LEN) &&
    isAsciiAlphaNumString s

def isValidRoomName (s : Bytes) : Bool := decide (s ≠ [] ∧ s.length ≤ MAX_ROOM_NAME_LEN)

def isValidRoomMtuValue (mtu : Nat) : Bool :=
  decide (mtu = ROOM_MTU_SAFE ∨ mtu = ROOM_MTU_BALANCED ∨ mtu = ROOM_MTU_AGGRESSIVE)

def normalizeRoomMtu (mtu : Nat) : Nat := if isValidRoomMtuValue mtu then mtu else ROOM_MTU_DEFAULT

/-! ### Traffic policies -/

inductive TransportMode where
  | relayKcp | relayTcp | relayRawUdp
deriving DecidableEq

def TransportMode.value : TransportMode → Nat
  | relayKcp => 2 | relayTcp => 3 | relayRawUdp => 4

def TransportMode.ofValue : Nat → Option TransportMode
  | 2 => some relayKcp | 3 => some relayTcp | 4 => some relayRawUdp
  | _ => none

inductive FecMode where
  | none | fec10 | fec30 | fec50 | fec70 | fec100 | fec200
deriving DecidableEq

def FecMode.value : FecMode → Nat
  | none => 0 | fec10 => 1 | fec30 => 2 | fec50 => 3 | fec70 => 4 | fec100 => 5 | fec200 => 6

def FecMode.ofValue : Nat → Option FecMode
  | 0 => some none | 1 => some fec10 | 2 => some fec30 | 3 => some fec50 | 4 => some fec70
  | 5 => some fec100 | 6 => some fec200
  | _ => Option.none

inductive KcpProfile where
  | realtime | bulk
deriving DecidableEq

def KcpProfile.value : KcpProfile → Nat
  | realtime => 0 | bulk => 1

def KcpProfile.ofValue : Nat → Option KcpProfile
  | 0 => some realtime | 1 => some bulk
  | _ => none

def isValidTransportModeValue (raw : Nat) : Bool := (TransportMode.ofValue raw).isSome
def isValidFecModeValue (raw : Nat) : Bool := (FecMode.ofValue raw).isSome
def isValidKcpProfileValue (raw : Nat) : Bool := (KcpProfile.ofValue raw).isSome

def normalizeFecMode (raw : Nat) (mode : TransportMode) : FecMode :=
  if mode = .relayTcp then .none else (FecMode.ofValue raw).getD .none

def normalizeKcpProfile (raw : Nat) : KcpProfile := (KcpProfile.ofValue raw).getD .realtime

structure RoomTrafficPolicy where
  transportMode : TransportMode := .relayKcp
  fecMode : FecMode := .none
  kcpProfile : KcpProfile := .realtime
deriving DecidableEq

def makeDefaultTcpPolicy : RoomTrafficPolicy := { transportMode := .relayRawUdp }
def makeDefaultUdpPolicy : RoomTrafficPolicy := { transportMode := .relayKcp }

def normalizeTrafficPolicy (transport fec profile : Nat) (fallback : RoomTrafficPolicy) :
    RoomTrafficPolicy :=
  let transportMode := (TransportMode.ofValue transport).getD fallback.transportMode
  { transportMode := transportMode
    fecMode := normalizeFecMode fec transportMode
    kcpProfile := normalizeKcpProfile profile }

/-- A transport without error correction may not ask for one. -/
def validPolicyValues (transport fec profile : Nat) : Bool :=
  isValidTransportModeValue transport && isValidFecModeValue fec &&
    isValidKcpProfileValue profile &&
    !decide (transport = TransportMode.relayTcp.value ∧ fec ≠ FecMode.none.value)

def writePolicy (p : RoomTrafficPolicy) : Bytes :=
  ByteBuffer.writeU8 p.transportMode.value ++ ByteBuffer.writeU8 p.fecMode.value ++
    ByteBuffer.writeU8 p.kcpProfile.value

def readTrafficPolicy (fallback : RoomTrafficPolicy) : ByteBuffer.Reader RoomTrafficPolicy := do
  let transport ← ByteBuffer.readU8
  let fec ← ByteBuffer.readU8
  let profile ← ByteBuffer.readU8
  return normalizeTrafficPolicy transport fec profile fallback

/-! ### Datagrams -/

/-- What an overlay packet or a fragment of one may fill of a datagram. -/
def transportPayloadBudget (roomMtu : Nat) (mode : TransportMode) (fecEnabled encrypted : Bool) :
    Nat :=
  let budget := normalizeRoomMtu roomMtu - UDP_RELAY_HEADER_SIZE
  let budget := if fecEnabled then budget - FEC_HEADER_SIZE else budget
  -- UDP_ENCRYPTED, session, counter, MAC
  let budget := if encrypted then budget - (1 + 4 + 8 + 16) else budget
  let budget := if mode = .relayRawUdp then budget - FRAG_HEADER_SIZE else budget
  let budget := if budget < 256 then 256 else budget
  if RAW_UDP_MAX_FRAG_PAYLOAD < budget then RAW_UDP_MAX_FRAG_PAYLOAD else budget

def kcpMtuFromRoomMtu (roomMtu : Nat) (fecEnabled encrypted : Bool) : Nat :=
  transportPayloadBudget roomMtu .relayKcp fecEnabled encrypted

/-- Parity blocks for a group of that many data blocks. -/
def fecParityCount : FecMode → (dataCount : Nat) → Nat
  | .fec10, n => (n * 1 + 9) / 10
  | .fec30, n => (n * 3 + 9) / 10
  | .fec50, n => (n * 5 + 9) / 10
  | .fec70, n => (n * 7 + 9) / 10
  | .fec100, n => n
  | .fec200, n => n * 2
  | .none, _ => 0

/-- The difference of two `uint32_t` clock readings. -/
def elapsedMs (now started : Nat) : Nat := (now + 2 ^ 32 - started % 2 ^ 32) % 2 ^ 32

/-! ### The TCP streams -/

/-- What `send` returned on a nonempty buffer. -/
inductive SendResult where
  | sent (n : Nat)
  | again
  | fail
deriving DecidableEq

/-- Type, payload and length on the stream of the first frame of a buffer. -/
structure TcpFrame where
  msgType : UInt8
  payload : Bytes
  frameLen : Nat

inductive FrameProbe where
  | incomplete
  | corrupted
  | frame (f : TcpFrame)

/-- The head of the receive loops: a header, then as many bytes as it says. -/
def probeFrame (buf : Bytes) : FrameProbe :=
  match buf with
  | msgType :: hi :: lo :: rest =>
    let payloadLen := BigEndian.decode [hi, lo]
    if MAX_TCP_MSG_PAYLOAD < payloadLen then .corrupted
    else if rest.length < payloadLen then .incomplete
    else .frame ⟨msgType, rest.take payloadLen, TCP_MSG_HEADER_SIZE + payloadLen⟩
  | _ => .incomplete

def tcpMsgHeader (msgType : UInt8) (length : Nat) : Bytes := msgType :: BigEndian.encode 2 length

end VlanConnect

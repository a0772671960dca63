/-
  VlanConnect/Client/Parsers.lean
  ===============================
  **What the check of server messages lets through, the clients can parse**
  (`processMessage` of `client-cli/src/cli_net.cpp`, of its data channel, and
  of `client/src/network/signal_client.cpp`).

  The check walks a payload with a cursor, the clients read it again with a
  `ByteBuffer`.  A parser is modelled with every field it decodes, in order,
  and with whether it came to the end of the message or returned before.

  The Qt client keeps the name of a listed room in a character array, so a
  name is cut at its first zero byte; the check lets any byte into a room name.
-/
import VlanConnect.ClientWire
import VlanConnect.Client.Messages

namespace VlanConnect

open ByteBuffer

/-! ### Decoded fields -/

inductive Field where
  | u8 (v : Nat)
  | u16 (v : Nat)
  | u32 (v : Nat)
  | u64 (v : Nat)
  | bytes (b : Bytes)
  | text (s : Bytes)
  /-- A byte kept as a Boolean. -/
  | flag (b : Bool)
  /-- A Boolean kept as the byte that was read. -/
  | rawFlag (v : Nat)
  | policy (p : RoomTrafficPolicy)
  | mtu (v : Nat)
  | playerName (s : Bytes)
  /-- The name on the wire and the name that is kept. -/
  | roomName (raw kept : Bytes)
deriving DecidableEq

namespace Field

/-- The bytes of the message that the decoded value stands for. -/
def raw : Field → Bytes
  | u8 v | rawFlag v => writeU8 v
  | u16 v | mtu v => writeU16 v
  | u32 v => writeU32 v
  | u64 v => writeU64 v
  | bytes b => b
  | text s | playerName s | roomName s _ => writeString s
  | flag b => writeU8 b.toNat
  | policy p => writePolicy p

/-- The predicate of `protocol.h` for the kind of field. -/
def valid : Field → Bool
  | rawFlag v => decide (v ≤ 1)
  | policy p => validPolicyValues p.transportMode.value p.fecMode.value p.kcpProfile.value
  | mtu v => isValidRoomMtuValue v
  | playerName s => isValidPlayerName s
  | roomName _ kept => isValidRoomName kept
  | _ => true

end Field

structure Parsed where
  /-- The parser did not return before the end of the message. -/
  whole : Bool
  fields : List Field
deriving DecidableEq

/-! ### The parsers -/

/-- What the parsers look at before they read on. -/
structure ParserState where
  /-- A room response is dropped unread: none is wanted. -/
  ignoresRoomResponse : Bool
  ignoresChallenge : Bool
  /-- `m_hasPendingAuth`, `m_joinPending`. -/
  joinPending : Bool
  masterReady : Bool
  myPeerId : Nat
  snapshotRooms : CliRoomTable
  snapshotRevision : Nat
  snapshotPageCount : Nat
  snapshotNextPage : Nat
  roomListRevision : Nat

namespace Parser

def serverHello : Reader Parsed := do
  let hello ← readHelloFront
  let front := [Field.u16 hello.serverVersion, .flag hello.authRequired]
  if hello.serverVersion ≠ PROTOCOL_VERSION ∨ ¬ hello.authRequired then return ⟨false, front⟩
  let profile ← readU8
  if profile ≠ AUTH_KDF_PROFILE then return ⟨false, front ++ [.u8 profile]⟩
  let (salt, serverNonce, serverPubKey) ← readHelloKeys
  return ⟨true, front ++ [.u8 profile, .bytes salt, .bytes serverNonce, .bytes serverPubKey]⟩

def serverAuthOk (s : ParserState) : Reader Parsed := do
  if ¬ s.masterReady then return ⟨false, []⟩
  let (sessionId, serverProof) ← readAuthOk
  return ⟨true, [.u32 sessionId, .bytes serverProof]⟩

def loginResp : Reader Parsed := do
  let (peerId, serverVersion, resumeAccepted) ← readLoginResponse
  return ⟨true, [.u32 peerId, .u16 serverVersion, .flag resumeAccepted]⟩

def peerFields (info : PeerInfo) : List Field :=
  [.u32 info.peerId, .u32 info.virtualIP, .playerName info.name]

def roomFields (roomId virtualIP : Nat) (tcpPolicy udpPolicy : RoomTrafficPolicy) (mtu : Nat)
    (passwordProtected : Bool) : List Field :=
  [.u32 roomId, .u32 virtualIP, .policy tcpPolicy, .policy udpPolicy,
    .flag passwordProtected, .mtu mtu]

/-- The arguments of the two room callbacks in the order of the message. -/
def callbackFields : Callback → List Field
  | .roomCreated roomId virtualIP tcpPolicy udpPolicy mtu passwordProtected leaseToken =>
    roomFields roomId virtualIP tcpPolicy udpPolicy mtu passwordProtected ++ [.bytes leaseToken]
  | .joinResponse roomId virtualIP tcpPolicy udpPolicy mtu passwordProtected members leaseToken =>
    roomFields roomId virtualIP tcpPolicy udpPolicy mtu passwordProtected ++
      .u8 members.length :: members.flatMap peerFields ++ [.bytes leaseToken]
  | _ => []

def roomResponse (s : ParserState) (reader : Reader Callback) : Reader Parsed := do
  if s.ignoresRoomResponse then return ⟨false, []⟩
  let callback ← reader
  return ⟨true, callbackFields callback⟩

def peer : Reader Parsed := do
  let info ← readPeer
  return ⟨true, peerFields info⟩

def peerId : Reader Parsed := do
  let peerId ← readU32
  return ⟨true, [.u32 peerId]⟩

/-- `CliSignalClient::readRoomListItem`, with the name on the wire. -/
def cliRoomListItem : Reader (Bytes × CliRoomListItem) := do
  let info ← readRoomListItem
  return (info.roomName, info)

/-- `strncpy` of the first `limit` bytes: up to the zero byte. -/
def cString (limit : Nat) (s : Bytes) : Bytes := (s.take limit).takeWhile (· ≠ 0)

/-- `SignalClient::readRoomListItem`. -/
def guiRoomListItem : Reader (Bytes × CliRoomListItem) := do
  let roomId ← readU32
  let name ← readString
  let playerCount ← readU8
  let maxPlayers ← readU8
  let tcpPolicy ← readTrafficPolicy makeDefaultTcpPolicy
  let udpPolicy ← readTrafficPolicy makeDefaultUdpPolicy
  let passwordProtected ← readU8
  let mtu ← readU16
  return (name,
    ⟨roomId, cString MAX_ROOM_NAME_LEN name, playerCount, maxPlayers, tcpPolicy, udpPolicy,
    passwordProtected, mtu⟩)

def itemFields (name : Bytes) (info : CliRoomListItem) : List Field :=
  [.u32 info.roomId, .roomName name info.roomName, .u8 info.playerCount, .u8 info.maxPlayers,
    .policy info.tcpPolicy,
    .policy info.udpPolicy, .rawFlag info.passwordProtected, .mtu info.mtu]

section RoomLists

variable (item : Reader (Bytes × CliRoomListItem))

/-- The loop over the records of a page; a room seen before ends it. -/
def pageRooms (rooms : CliRoomTable) : (count : Nat) → Reader Parsed
  | 0 => pure ⟨true, []⟩
  | count + 1 => do
    let (name, info) ← item
    if info.roomId ∈ rooms then return ⟨false, itemFields name info⟩
    let rest ← pageRooms (rooms.insert info.roomId info) count
    return ⟨rest.whole, itemFields name info ++ rest.fields⟩

def roomList (s : ParserState) : Reader Parsed := do
  let (revision, pageIndex, pageCount, count) ← readRoomListHeader
  let header := [Field.u64 revision, .u16 pageIndex, .u16 pageCount, .u16 count]
  let s := if pageIndex = 0 then
      { s with
        snapshotRooms := ∅, snapshotRevision := revision, snapshotPageCount := pageCount,
        snapshotNextPage := 0 }
    else s
  if revision ≠ s.snapshotRevision ∨ pageCount ≠ s.snapshotPageCount ∨
      pageIndex ≠ s.snapshotNextPage then
    return ⟨false, header⟩
  let rooms ← pageRooms item s.snapshotRooms count
  return ⟨rooms.whole, header ++ rooms.fields⟩

/-- One change of a push. -/
def roomChange : Reader (List Field) := do
  let operation ← readU8
  if operation = ROOM_LIST_UPSERT then
    let (name, info) ← item
    return .u8 operation :: itemFields name info
  else
    let roomId ← readU32
    return [.u8 operation, .u32 roomId]

def roomListPush (s : ParserState) : Reader Parsed := do
  let (baseRevision, revision, count) ← readRoomListPushHeader
  let header := [Field.u64 baseRevision, .u64 revision, .u16 count]
  if baseRevision ≠ s.roomListRevision then return ⟨false, header⟩
  let changes ← readTimes (roomChange item) count
  return ⟨true, header ++ changes.flatten⟩

end RoomLists

def takeRest : Reader Bytes := fun unread => some (unread, [])

/-- The rest of the payload is the relayed packet. -/
def relayData : Reader Parsed := do
  let h ← readRelayHeader
  let data ← takeRest
  return ⟨true, [.u32 h.source, .u32 h.destination, .u8 h.trafficClass, .bytes data]⟩

/-- The Qt client does not look at a packet for another peer. -/
def guiRelayData (s : ParserState) : Reader Parsed := do
  let h ← readRelayHeader
  let header := [Field.u32 h.source, .u32 h.destination, .u8 h.trafficClass]
  if h.destination ≠ s.myPeerId then return ⟨false, header⟩
  let data ← takeRest
  return ⟨true, header ++ [.bytes data]⟩

def authChallenge (s : ParserState) : Reader Parsed := do
  if s.ignoresChallenge then return ⟨false, []⟩
  let profile ← readU8
  if profile ≠ AUTH_KDF_PROFILE ∨ ¬ s.joinPending then return ⟨false, [.u8 profile]⟩
  let (salt, challenge) ← readAuthChallenge
  return ⟨true, [.u8 profile, .bytes salt, .bytes challenge]⟩

def error : Reader Parsed := do
  let (code, message) ← readErrorMessage
  return ⟨true, [.u16 code, .text message]⟩

/-- The switch of `processMessage`; the two clients differ in the room records and the
    relayed packets. -/
def signal (item : Reader (Bytes × CliRoomListItem)) (relay : Reader Parsed) (s : ParserState)
    (msgType : UInt8) :
    Reader Parsed :=
  if msgType = MSG_SERVER_HELLO then serverHello
  else if msgType = MSG_SERVER_AUTH_OK then serverAuthOk s
  else if msgType = MSG_LOGIN_RESP then loginResp
  else if msgType = MSG_ROOM_CREATED then roomResponse s readRoomCreatedArgs
  else if msgType = MSG_JOIN_RESP then roomResponse s readJoinResponseArgs
  else if msgType = MSG_PEER_JOINED ∨ msgType = MSG_PEER_RESUMED then peer
  else if msgType = MSG_PEER_LEFT ∨ msgType = MSG_RELAY_READY then peerId
  else if msgType = MSG_LOGOUT_ACK ∨ msgType = MSG_PONG then pure ⟨true, []⟩
  else if msgType = MSG_ROOM_LIST then roomList item s
  else if msgType = MSG_ROOM_LIST_PUSH then roomListPush item s
  else if msgType = MSG_TCP_RELAY_DATA then relay
  else if msgType = MSG_AUTH_CHALLENGE then authChallenge s
  else if msgType = MSG_ERROR then error
  -- an encrypted frame and an unknown type are not parsed
  else pure ⟨false, []⟩

/-- `CliSignalClient::processMessage`. -/
def cliSignal (s : ParserState) (msgType : UInt8) : Reader Parsed :=
  signal cliRoomListItem relayData s msgType

/-- `SignalClient::processMessage`. -/
def guiSignal (s : ParserState) (msgType : UInt8) : Reader Parsed :=
  signal guiRoomListItem (guiRelayData s) s msgType

/-- `CliDataChannel::processMessage`. -/
def cliData (msgType : UInt8) : Reader Parsed :=
  if msgType = MSG_DATA_CHANNEL_ACK ∨ msgType = MSG_PONG then pure ⟨true, []⟩
  else if msgType = MSG_TCP_RELAY_DATA then relayData
  else pure ⟨false, []⟩

end Parser

/-! ### Valid parts and their written form -/

structure PeerInfo.Valid (info : PeerInfo) : Prop where
  peerId : info.peerId < 2 ^ 32
  virtualIP : info.virtualIP < 2 ^ 32
  name : isValidPlayerName info.name = true

def writePeerInfo (info : PeerInfo) : Bytes :=
  writeU32 info.peerId ++ (writeU32 info.virtualIP ++ writeString info.name)

structure CliRoomListItem.Valid (info : CliRoomListItem) : Prop where
  roomId : info.roomId < 2 ^ 32
  roomName : isValidRoomName info.roomName = true
  playerCount : info.playerCount < 2 ^ 8
  maxPlayers : info.maxPlayers < 2 ^ 8
  tcpPolicy : info.tcpPolicy.Valid
  udpPolicy : info.udpPolicy.Valid
  passwordProtected : info.passwordProtected ≤ 1
  mtu : isValidRoomMtuValue info.mtu = true

def writeRoomRecord (info : CliRoomListItem) : Bytes :=
  writeU32 info.roomId ++
    (writeString info.roomName ++ (writeU8 info.playerCount ++ (writeU8 info.maxPlayers ++
    (writePolicy info.tcpPolicy ++ (writePolicy info.udpPolicy ++ (writeU8 info.passwordProtected ++
      writeU16 info.mtu))))))

def CliRoomChange.Valid : CliRoomChange → Prop
  | upsert info => info.Valid
  | erase roomId => roomId < 2 ^ 32

def writeRoomChange : CliRoomChange → Bytes
  | .upsert info => writeU8 ROOM_LIST_UPSERT ++ writeRoomRecord info
  | .erase roomId => writeU8 ROOM_LIST_REMOVE ++ writeU32 roomId

/-! ### What the cursor accepted -/

namespace MessageValidatorDetail

section Accepted

variable {α β : Type} {pos pos' : Nat} {unread rest : Bytes}

theorem bind_eq_ok {x : Cursor α} {f : α → Cursor β} {start : Nat × Bytes} {r : β × Nat × Bytes} :
    (x >>= f) start = .ok r ↔
    ∃ a pos rest, x start = .ok (a, pos, rest) ∧ f a (pos, rest) = .ok r := by
  simp only [bind, StateT.bind, Except.bind]
  rcases x start with e | ⟨a, pos, rest⟩
  · simp
  · simp

theorem pure_eq_ok {a : α} {start : Nat × Bytes} {r : α × Nat × Bytes} :
    (pure a : Cursor α) start = .ok r ↔ (a, start) = r := by
  constructor
  · exact Except.ok.inj
  · rintro rfl
    rfl

theorem setError_eq_ok {error : MessageValidationError} {offset : Nat} {start : Nat × Bytes}
    {r : α × Nat × Bytes} :
    (setError error offset : Cursor α) start = .ok r ↔ False := by
  simp [setError]

theorem ite_eq_ok {c : Prop} [Decidable c] {x y : Cursor α} {start : Nat × Bytes}
    {r : α × Nat × Bytes} :
    (if c then x else y) start = .ok r ↔ c ∧ x start = .ok r ∨ ¬ c ∧ y start = .ok r := by
  by_cases h : c
  · simp [h]
  · simp [h]

theorem position_eq_ok {n : Nat} :
    position (pos, unread) = .ok (n, pos', rest) ↔ n = pos ∧ pos' = pos ∧ rest = unread := by
  simp only [position, Except.ok.injEq, Prod.mk.injEq]
  constructor
  · rintro ⟨rfl, rfl, rfl⟩
    exact ⟨rfl, rfl, rfl⟩
  · rintro ⟨rfl, rfl, rfl⟩
    exact ⟨rfl, rfl, rfl⟩

theorem remaining_eq_ok {n : Nat} :
    remaining (pos, unread) = .ok (n, pos', rest) ↔
    n = unread.length ∧ pos' = pos ∧ rest = unread := by
  simp only [remaining, Except.ok.injEq, Prod.mk.injEq]
  constructor
  · rintro ⟨rfl, rfl, rfl⟩
    exact ⟨rfl, rfl, rfl⟩
  · rintro ⟨rfl, rfl, rfl⟩
    exact ⟨rfl, rfl, rfl⟩

theorem take_eq_ok {count : Nat} {front : Bytes} :
    take count (pos, unread) = .ok (front, pos', rest) ↔
      front.length = count ∧ unread = front ++ rest ∧ pos' = pos + count := by
  simp only [take]
  constructor
  · intro h
    split at h
    · cases h
    · next hlen =>
      cases h
      exact ⟨List.length_take_of_le (not_lt.mp hlen),
        (List.take_append_drop count unread).symm, rfl⟩
  · rintro ⟨rfl, rfl, rfl⟩
    simp

theorem readUInt_eq_ok {width v : Nat} :
    MessageValidatorDetail.readUInt width (pos, unread) = .ok (v, pos', rest) ↔
      v < 256 ^ width ∧ unread = BigEndian.encode width v ++ rest ∧ pos' = pos + width := by
  unfold MessageValidatorDetail.readUInt
  rw [map_eq_pure_bind, bind_eq_ok]
  simp only [take_eq_ok, pure_eq_ok, Prod.mk.injEq]
  constructor
  · rintro ⟨front, _, _, ⟨rfl, rfl, rfl⟩, rfl, rfl, rfl⟩
    exact ⟨BigEndian.decode_lt front, by rw [BigEndian.encode_decode], rfl⟩
  · rintro ⟨hlt, rfl, rfl⟩
    exact ⟨BigEndian.encode width v, _, _, ⟨BigEndian.length_encode width v, rfl, rfl⟩,
      BigEndian.decode_encode_of_lt hlt, rfl, rfl⟩

theorem readU8_eq_ok {v : Nat} : MessageValidatorDetail.readU8 (pos, unread) = .ok (v, pos', rest) ↔
    v < 2 ^ 8 ∧ unread = writeU8 v ++ rest ∧ pos' = pos + 1 := readUInt_eq_ok

theorem readU16_eq_ok {v : Nat} :
    MessageValidatorDetail.readU16 (pos, unread) = .ok (v, pos', rest) ↔
    v < 2 ^ 16 ∧ unread = writeU16 v ++ rest ∧ pos' = pos + 2 := readUInt_eq_ok

theorem readU32_eq_ok {v : Nat} :
    MessageValidatorDetail.readU32 (pos, unread) = .ok (v, pos', rest) ↔
    v < 2 ^ 32 ∧ unread = writeU32 v ++ rest ∧ pos' = pos + 4 := readUInt_eq_ok

theorem readU64_eq_ok {v : Nat} :
    MessageValidatorDetail.readU64 (pos, unread) = .ok (v, pos', rest) ↔
    v < 2 ^ 64 ∧ unread = writeU64 v ++ rest ∧ pos' = pos + 8 := readUInt_eq_ok

theorem skip_eq_ok {count : Nat} {u : Unit} (h : skip count (pos, unread) = .ok (u, pos', rest)) :
    ∃ front : Bytes, front.length = count ∧ unread = front ++ rest := by
  simp only [skip, bind_eq_ok, pure_eq_ok, take_eq_ok, Prod.mk.injEq] at h
  obtain ⟨front, _, _, ⟨hlen, rfl, _⟩, _, _, rfl⟩ := h
  exact ⟨front, hlen, rfl⟩

theorem readString_eq_ok {minLen maxLen : Nat} {alphaNumeric : Bool} {u : Unit}
    (h : MessageValidatorDetail.readString minLen maxLen alphaNumeric (pos, unread) = .ok (u,
      pos', rest)) :
    ∃ s : Bytes, minLen ≤ s.length ∧ s.length ≤ maxLen ∧ s.length < 2 ^ 16 ∧
      (alphaNumeric = true → isAsciiAlphaNumString s = true) ∧ unread = writeString s ++ rest := by
  simp only [MessageValidatorDetail.readString, bind_eq_ok, position_eq_ok, readU16_eq_ok,
    ite_eq_ok, setError_eq_ok, pure_eq_ok, take_eq_ok, Prod.mk.injEq, and_false, false_and,
    exists_false, false_or] at h
  obtain ⟨_, _, _, ⟨rfl, rfl, rfl⟩, length, _, _, ⟨hlt, rfl, rfl⟩, hbounds, _, _, _,
    ⟨rfl, rfl, rfl⟩,
    s, _, _, ⟨rfl, rfl, rfl⟩, halpha, _, _, rfl⟩ := h
  refine ⟨s, by omega, by omega, hlt, fun ha => ?_, by simp [writeString]⟩
  by_contra hs
  exact halpha ⟨ha, hs⟩

theorem readBoolean_eq_ok {u : Unit} (h : readBoolean (pos, unread) = .ok (u, pos', rest)) :
    ∃ b : Bool, unread = writeU8 b.toNat ++ rest := by
  simp only [readBoolean, bind_eq_ok, position_eq_ok, readU8_eq_ok, ite_eq_ok, setError_eq_ok,
    pure_eq_ok, Prod.mk.injEq, and_false, false_or] at h
  obtain ⟨_, _, _, ⟨rfl, rfl, rfl⟩, value, _, _, ⟨_, rfl, rfl⟩, hle, _, _, rfl⟩ := h
  obtain rfl | rfl : value = 0 ∨ value = 1 := by omega
  · exact ⟨false, rfl⟩
  · exact ⟨true, rfl⟩

theorem readPolicy_eq_ok {u : Unit} (h : readPolicy (pos, unread) = .ok (u, pos', rest)) :
    ∃ p : RoomTrafficPolicy, p.Valid ∧ unread = writePolicy p ++ rest := by
  simp only [readPolicy, bind_eq_ok, position_eq_ok, readU8_eq_ok, ite_eq_ok, setError_eq_ok,
    pure_eq_ok, Prod.mk.injEq, and_false, false_or] at h
  obtain ⟨_, _, _, ⟨rfl, rfl, rfl⟩, transport, _, _, ⟨_, rfl, rfl⟩, fec, _, _, ⟨_, rfl, rfl⟩,
    profile, _, _, ⟨_, rfl, rfl⟩, hvalid, _, _, rfl⟩ := h
  obtain ⟨p, hp, rfl, rfl, rfl⟩ := validPolicyValues_iff.mp (not_not.mp hvalid)
  exact ⟨p, hp, by simp [writePolicy]⟩

theorem readMtu_eq_ok {u : Unit} (h : readMtu (pos, unread) = .ok (u, pos', rest)) :
    ∃ mtu, isValidRoomMtuValue mtu = true ∧ unread = writeU16 mtu ++ rest := by
  simp only [readMtu, bind_eq_ok, position_eq_ok, readU16_eq_ok, ite_eq_ok, setError_eq_ok,
    pure_eq_ok, Prod.mk.injEq, and_false, false_or] at h
  obtain ⟨_, _, _, ⟨rfl, rfl, rfl⟩, mtu, _, _, ⟨_, rfl, rfl⟩, hvalid, _, _, rfl⟩ := h
  exact ⟨mtu, not_not.mp hvalid, rfl⟩

theorem readPeerInfo_eq_ok {offset : Nat} {u : Unit}
    (h : readPeerInfo offset (pos, unread) = .ok (u, pos', rest)) :
    ∃ info : PeerInfo, info.Valid ∧ unread = writePeerInfo info ++ rest := by
  simp only [readPeerInfo, bind_eq_ok, readU32_eq_ok, ite_eq_ok, setError_eq_ok, pure_eq_ok,
    Prod.mk.injEq, and_false, false_or] at h
  obtain ⟨peerId, _, _, ⟨hpeer, rfl, rfl⟩, virtualIP, _, _, ⟨hip, rfl, rfl⟩, _, _, _, hname, _, _,
    _, rfl⟩ := h
  obtain ⟨name, hmin, hmax, _, halpha, rfl⟩ := readString_eq_ok hname
  refine ⟨⟨peerId, virtualIP, name⟩, ⟨hpeer, hip, ?_⟩, by simp [writePeerInfo]⟩
  simp [isValidPlayerName, hmin, hmax, halpha rfl]

theorem readMembers_eq_ok {count : Nat} {u : Unit}
    (h : readMembers count (pos, unread) = .ok (u, pos', rest)) :
    ∃ members : List PeerInfo, members.length = count ∧ (∀ info ∈ members, info.Valid) ∧
      unread = members.flatMap writePeerInfo ++ rest := by
  induction count generalizing pos unread with
  | zero =>
    simp only [readMembers, pure_eq_ok, Prod.mk.injEq] at h
    obtain ⟨_, _, rfl⟩ := h
    exact ⟨[], rfl, by simp, rfl⟩
  | succ count ih =>
    simp only [readMembers, bind_eq_ok, position_eq_ok] at h
    obtain ⟨_, _, _, ⟨rfl, rfl, rfl⟩, _, _, _, hinfo, h⟩ := h
    obtain ⟨info, hvalid, rfl⟩ := readPeerInfo_eq_ok hinfo
    obtain ⟨members, hlen, hmembers, rfl⟩ := ih h
    exact ⟨info :: members, by simp [hlen], List.forall_mem_cons.mpr ⟨hvalid, hmembers⟩, by simp⟩

theorem readRoomListItem_eq_ok {roomId : Nat}
    (h : MessageValidatorDetail.readRoomListItem (pos, unread) = .ok (roomId, pos', rest)) :
    ∃ info : CliRoomListItem, info.Valid ∧ info.roomId = roomId ∧
    unread = writeRoomRecord info ++ rest := by
  simp only [MessageValidatorDetail.readRoomListItem, bind_eq_ok, position_eq_ok, readU32_eq_ok,
    readU8_eq_ok, ite_eq_ok, setError_eq_ok, pure_eq_ok, Prod.mk.injEq, and_false, false_and,
    exists_false, false_or] at h
  obtain ⟨_, _, _, ⟨rfl, rfl, rfl⟩, id, _, _, ⟨hid, rfl, rfl⟩, _, _, _, hname, playerCount, _, _,
    ⟨hcount, rfl, rfl⟩,
    maxPlayers, _, _, ⟨hmax, rfl, rfl⟩, _, _, _, htcp, _, _, _, hudp, _, _, _, hflag, _, _, _, hmtu,
    _, rfl, _, rfl⟩ := h
  obtain ⟨name, hpos, hlen, _, _, rfl⟩ := readString_eq_ok hname
  obtain ⟨tcpPolicy, htcpValid, rfl⟩ := readPolicy_eq_ok htcp
  obtain ⟨udpPolicy, hudpValid, rfl⟩ := readPolicy_eq_ok hudp
  obtain ⟨flag, rfl⟩ := readBoolean_eq_ok hflag
  obtain ⟨mtu, hmtuValid, rfl⟩ := readMtu_eq_ok hmtu
  have hnameValid : isValidRoomName name = true :=
    decide_eq_true ⟨List.ne_nil_of_length_pos hpos, hlen⟩
  exact ⟨⟨id, name, playerCount, maxPlayers, tcpPolicy, udpPolicy, flag.toNat, mtu⟩,
    ⟨hid, hnameValid, hcount, hmax, htcpValid, hudpValid, Bool.toNat_le flag, hmtuValid⟩, rfl, by
      simp [writeRoomRecord]⟩

theorem readRooms_eq_ok {roomIds : List Nat} {count : Nat} {u : Unit}
    (h : readRooms roomIds count (pos, unread) = .ok (u, pos', rest)) :
    ∃ rooms : List CliRoomListItem, rooms.length = count ∧
    (∀ info ∈ rooms, info.Valid ∧ info.roomId ∉ roomIds) ∧
      (rooms.map (·.roomId)).Nodup ∧ unread = rooms.flatMap writeRoomRecord ++ rest := by
  induction count generalizing pos unread roomIds with
  | zero =>
    simp only [readRooms, pure_eq_ok, Prod.mk.injEq] at h
    obtain ⟨_, _, rfl⟩ := h
    exact ⟨[], rfl, by simp, List.nodup_nil, rfl⟩
  | succ count ih =>
    simp only [readRooms, bind_eq_ok, ite_eq_ok, setError_eq_ok, and_false, false_and, exists_false,
      false_or] at h
    obtain ⟨roomId, _, _, hinfo, hnew, h⟩ := h
    obtain ⟨info, hvalid, rfl, rfl⟩ := readRoomListItem_eq_ok hinfo
    obtain ⟨rooms, hlen, hrooms, hnodup, rfl⟩ := ih h
    refine ⟨info :: rooms, by simp [hlen],
      List.forall_mem_cons.mpr ⟨⟨hvalid, hnew⟩, fun other ho => ?_⟩, ?_, by simp⟩
    · exact ⟨(hrooms other ho).1, fun hmem => (hrooms other ho).2 (List.mem_cons_of_mem _ hmem)⟩
    · rw [List.map_cons, List.nodup_cons]
      refine ⟨fun hmem => ?_, hnodup⟩
      obtain ⟨other, ho, heq⟩ := List.mem_map.mp hmem
      exact (hrooms other ho).2 (heq ▸ List.mem_cons_self)

theorem readRoomChange_eq_ok {roomId : Nat}
    (h : readRoomChange (pos, unread) = .ok (roomId, pos', rest)) :
    ∃ change : CliRoomChange, change.Valid ∧ unread = writeRoomChange change ++ rest := by
  simp only [readRoomChange, bind_eq_ok, readU8_eq_ok, readU32_eq_ok, ite_eq_ok, setError_eq_ok,
    pure_eq_ok, Prod.mk.injEq, and_false, false_and, exists_false, false_or, or_false] at h
  obtain ⟨operation, _, _, ⟨_, rfl, rfl⟩,
    ⟨rfl, hitem⟩ | ⟨_, rfl, id, _, _, ⟨hid, rfl, rfl⟩, _, _, _, rfl⟩⟩ := h
  · obtain ⟨info, hvalid, _, rfl⟩ := readRoomListItem_eq_ok hitem
    exact ⟨.upsert info, hvalid, by simp [writeRoomChange]⟩
  · exact ⟨.erase id, hid, by simp [writeRoomChange]⟩

theorem readRoomChanges_eq_ok {roomIds : List Nat} {count : Nat} {u : Unit}
    (h : readRoomChanges roomIds count (pos, unread) = .ok (u, pos', rest)) :
    ∃ changes : List CliRoomChange, changes.length = count ∧ (∀ change ∈ changes, change.Valid) ∧
      unread = changes.flatMap writeRoomChange ++ rest := by
  induction count generalizing pos unread roomIds with
  | zero =>
    simp only [readRoomChanges, pure_eq_ok, Prod.mk.injEq] at h
    obtain ⟨_, _, rfl⟩ := h
    exact ⟨[], rfl, by simp, rfl⟩
  | succ count ih =>
    simp only [readRoomChanges, bind_eq_ok, ite_eq_ok, setError_eq_ok, and_false, false_and,
      exists_false, false_or] at h
    obtain ⟨roomId, _, _, hchange, _, h⟩ := h
    obtain ⟨change, hvalid, rfl⟩ := readRoomChange_eq_ok hchange
    obtain ⟨changes, hlen, hchanges, rfl⟩ := ih h
    exact ⟨change :: changes, by simp [hlen], List.forall_mem_cons.mpr ⟨hvalid, hchanges⟩, by simp⟩

end Accepted

end MessageValidatorDetail

/-! ### The parsers read the written forms -/

namespace Parser

/-- A decoded field that passes its check; of a room name `accept` says whether it does,
    given the name on the wire and the name that is kept. -/
def Checked (accept : Bytes → Bytes → Prop) : Field → Prop
  | .roomName raw kept => accept raw kept
  | f => f.valid = true

/-- A parser returns, with fields that are what the payload says, and it leaves nothing
    unread at the end. -/
def Parses (accept : Bytes → Bytes → Prop) (parser : Reader Parsed) (payload : Bytes) : Prop :=
  ∃ o rest, parser payload = some (o, rest) ∧ (o.whole = true → rest = []) ∧
    payload = o.fields.flatMap Field.raw ++ rest ∧ ∀ f ∈ o.fields, Checked accept f

theorem policy_checked (accept : Bytes → Bytes → Prop) {p : RoomTrafficPolicy} (hp : p.Valid) :
    Checked accept (.policy p) :=
  validPolicyValues_iff.mpr ⟨p, hp, rfl, rfl, rfl⟩

theorem reads_flag {α : Type} {f : Bool → α} (b : Bool) :
    Reads (readU8 >>= fun v => pure (f (decide (v ≠ 0)))) (writeU8 b.toNat) (f b) := by
  have hlt : b.toNat < 2 ^ 8 := by have := Bool.toNat_le b; omega
  have hread : Reads (readU8 >>= fun v => pure (f (decide (v ≠ 0)))) (writeU8 b.toNat ++ [])
      (f (decide (b.toNat ≠ 0))) := (Reads.u8 hlt).bind (Reads.pure _)
  rw [List.append_nil] at hread
  cases b
  · exact hread
  · exact hread

theorem reads_peer {info : PeerInfo} (h : info.Valid) :
    Reads readPeer (writePeerInfo info) info := by
  have hname : info.name.length < 2 ^ 16 := length_lt_of_playerName h.name
  have hread :
      Reads readPeer (writeU32 info.peerId ++
        (writeU32 info.virtualIP ++ (writeString info.name ++ []))) info :=
    (Reads.u32 h.peerId).bind
      ((Reads.u32 h.virtualIP).bind ((Reads.string hname).bind (Reads.pure info)))
  simpa [writePeerInfo] using hread

theorem reads_times {α β : Type} {reader : Reader β} {write : α → Bytes} (value : α → β)
    {l : List α} (h : ∀ a ∈ l, Reads reader (write a) (value a)) :
    Reads (readTimes reader l.length) (l.flatMap write) (l.map value) := by
  induction l with
  | nil => exact Reads.pure []
  | cons a l ih =>
    have hhead := h a List.mem_cons_self
    have htail := ih fun b hb => h b (List.mem_cons_of_mem a hb)
    have hread : Reads (readTimes reader (l.length + 1)) (write a ++ (l.flatMap write ++ []))
        (value a :: l.map value) :=
      hhead.bind (htail.bind (Reads.pure _))
    simpa using hread

theorem peerFields_raw (info : PeerInfo) :
    (peerFields info).flatMap Field.raw = writePeerInfo info := by
  simp [peerFields, Field.raw, writePeerInfo]

theorem peerFields_checked (accept : Bytes → Bytes → Prop) {info : PeerInfo} (h : info.Valid) :
    ∀ f ∈ peerFields info, Checked accept f := by
  intro f hf
  simp only [peerFields, List.mem_cons, List.not_mem_nil, or_false] at hf
  obtain rfl | rfl | rfl := hf
  · rfl
  · rfl
  · exact h.name

theorem itemFields_raw (info : CliRoomListItem) (kept : Bytes) :
    (itemFields info.roomName { info with roomName := kept }).flatMap Field.raw =
    writeRoomRecord info := by
  simp [itemFields, Field.raw, writeRoomRecord]

theorem itemFields_checked {accept : Bytes → Bytes → Prop} {keep : Bytes → Bytes}
    {info : CliRoomListItem} (h : info.Valid) (hname : accept info.roomName (keep info.roomName)) :
    ∀ f ∈ itemFields info.roomName { info with roomName := keep info.roomName },
    Checked accept f := by
  intro f hf
  simp only [itemFields, List.mem_cons, List.not_mem_nil, or_false] at hf
  obtain rfl | rfl | rfl | rfl | rfl | rfl | rfl | rfl := hf
  · rfl
  · exact hname
  · rfl
  · rfl
  · exact policy_checked accept h.tcpPolicy
  · exact policy_checked accept h.udpPolicy
  · exact decide_eq_true h.passwordProtected
  · exact h.mtu

/-- A reader of room records that keeps `keep` of the name. -/
def ReadsItems (keep : Bytes → Bytes) (item : Reader (Bytes × CliRoomListItem)) : Prop :=
  ∀ info : CliRoomListItem, info.Valid →
    Reads item (writeRoomRecord info) (info.roomName, { info with roomName := keep info.roomName })

/-- Both clients read the fields of a record in the same order. -/
theorem reads_record {α : Type} {info : CliRoomListItem} (h : info.Valid)
    (f : Nat → Bytes → Nat → Nat → RoomTrafficPolicy → RoomTrafficPolicy → Nat → Nat → α) :
    Reads (do
        let roomId ← readU32
        let name ← readString
        let playerCount ← readU8
        let maxPlayers ← readU8
        let tcpPolicy ← readTrafficPolicy makeDefaultTcpPolicy
        let udpPolicy ← readTrafficPolicy makeDefaultUdpPolicy
        let passwordProtected ← readU8
        let mtu ← readU16
        return f roomId name playerCount maxPlayers tcpPolicy udpPolicy passwordProtected mtu)
      (writeRoomRecord info)
      (f info.roomId info.roomName info.playerCount info.maxPlayers info.tcpPolicy info.udpPolicy
        info.passwordProtected info.mtu) := by
  have hflag : info.passwordProtected < 2 ^ 8 := by have := h.passwordProtected; omega
  unfold writeRoomRecord
  refine (Reads.u32 h.roomId).bind ((Reads.string (length_lt_of_roomName h.roomName)).bind ?_)
  refine (Reads.u8 h.playerCount).bind ((Reads.u8 h.maxPlayers).bind ?_)
  refine (reads_policy h.tcpPolicy _).bind
    ((reads_policy h.udpPolicy _).bind ((Reads.u8 hflag).bind ?_))
  have hmtu := (Reads.u16 (lt_of_roomMtu h.mtu)).map
    (f info.roomId info.roomName info.playerCount info.maxPlayers info.tcpPolicy info.udpPolicy
      info.passwordProtected)
  rwa [map_eq_pure_bind] at hmtu

theorem readsItems_gui : ReadsItems (cString MAX_ROOM_NAME_LEN) guiRoomListItem := by
  intro info h
  unfold guiRoomListItem
  exact reads_record h
      fun roomId name playerCount maxPlayers tcpPolicy udpPolicy passwordProtected mtu =>
    (name, CliRoomListItem.mk roomId (cString MAX_ROOM_NAME_LEN name) playerCount maxPlayers
      tcpPolicy udpPolicy
      passwordProtected mtu)

theorem readsItems_cli : ReadsItems id cliRoomListItem := by
  intro info h
  have hitem : Reads readRoomListItem (writeRoomRecord info) info :=
    reads_record h CliRoomListItem.mk
  have hpair := hitem.map fun info => (info.roomName, info)
  rwa [map_eq_pure_bind] at hpair

/-! ### The messages -/

section Messages

open MessageValidatorDetail (finish)

variable {accept : Bytes → Bytes → Prop} {payload : Bytes}

theorem finish_valid {cursor : MessageValidatorDetail.Cursor Unit}
    (h : finish cursor payload = .valid) :
    ∃ u pos, cursor (0, payload) = .ok (u, pos, []) := by
  unfold MessageValidatorDetail.finish at h
  split at h
  · cases h
  · next u pos unread hrun =>
    split at h
    · next hnil => exact ⟨u, pos, hnil ▸ hrun⟩
    · cases h

theorem exists_append {l : Bytes} {a b : Nat} (h : l.length = a + b) :
    ∃ x y : Bytes, x.length = a ∧ y.length = b ∧ l = x ++ y :=
  ⟨l.take a, l.drop a, by simp [h], by simp [h], (List.take_append_drop a l).symm⟩

theorem exists_u8 {l : Bytes} (h : l.length = 1) : ∃ v, v < 2 ^ 8 ∧ l = writeU8 v := by
  refine ⟨BigEndian.decode l, ?_, ?_⟩
  · have hlt := BigEndian.decode_lt l
    rwa [h] at hlt
  · rw [writeU8, ← h, BigEndian.encode_decode]

/-- The parser returned before it read anything. -/
theorem parses_nothing {parser : Reader Parsed} (h : parser payload = some (⟨false, []⟩, payload)) :
    Parses accept parser payload :=
  ⟨⟨false, []⟩, payload, h, fun hw => absurd hw (by decide), rfl, by simp⟩

/-- The parser read the message to its end. -/
theorem parses_whole {parser : Reader Parsed} (fields : List Field)
    (hread : Reads parser payload ⟨true, fields⟩) (hraw : payload = fields.flatMap Field.raw)
    (hfields : ∀ f ∈ fields, Checked accept f) : Parses accept parser payload :=
  ⟨⟨true, fields⟩, [], hread.eq, fun _ => rfl, by simpa using hraw, hfields⟩

/-- The parser returned before the end. -/
theorem parses_stopped {parser : Reader Parsed} {fields : List Field} {front : Bytes} (rest : Bytes)
    (hread : Reads parser front ⟨false, fields⟩) (hraw : front = fields.flatMap Field.raw)
    (hfields : ∀ f ∈ fields, Checked accept f) : Parses accept parser (front ++ rest) :=
  ⟨⟨false, fields⟩, rest, hread rest, fun hw => absurd hw Bool.false_ne_true, by rw [hraw], hfields⟩

theorem parses_serverHello (h : finish MessageValidatorDetail.readServerHello payload = .valid) :
    Parses accept serverHello payload := by
  obtain ⟨u, pos, h⟩ := finish_valid h
  simp only [MessageValidatorDetail.readServerHello, MessageValidatorDetail.bind_eq_ok,
    MessageValidatorDetail.readU16_eq_ok, MessageValidatorDetail.readU8_eq_ok,
    MessageValidatorDetail.ite_eq_ok, MessageValidatorDetail.setError_eq_ok,
    MessageValidatorDetail.pure_eq_ok, Prod.mk.injEq, and_false, false_and, exists_false, false_or,
    not_not] at h
  obtain ⟨version, _, _, ⟨hversion, rfl, rfl⟩, auth, _, _, ⟨_, rfl, rfl⟩, rfl, hauth,
    hkeys | ⟨rfl, _, _, rfl⟩⟩ := h
  · obtain ⟨hne, hskip⟩ := hkeys
    obtain rfl : auth = 1 := by omega
    obtain ⟨keys, hlen, rfl⟩ := MessageValidatorDetail.skip_eq_ok hskip
    rw [List.append_nil]
    obtain ⟨saltNonce', key, hlen', hkey, rfl⟩ := exists_append hlen
    obtain ⟨first', nonce, hfirst', hnonce, rfl⟩ := exists_append hlen'
    obtain ⟨first, salt, hfirst, hsalt, rfl⟩ := exists_append hfirst'
    obtain ⟨profile, hprofile, rfl⟩ := exists_u8 hfirst
    have hfront : Reads readHelloFront (writeU16 PROTOCOL_VERSION ++ writeU8 1)
        ⟨PROTOCOL_VERSION, true⟩ :=
      (Reads.u16 hversion).bind (reads_flag (f := ServerHello.mk PROTOCOL_VERSION) true)
    by_cases hp : profile = AUTH_KDF_PROFILE
    · subst hp
      have hkeys : Reads readHelloKeys (salt ++ (nonce ++ (key ++ []))) (salt, nonce, key) :=
        (Reads.bytes hsalt).bind
          ((Reads.bytes hnonce).bind ((Reads.bytes hkey).bind (Reads.pure _)))
      have hread :
        Reads serverHello ((writeU16 PROTOCOL_VERSION ++ writeU8 1) ++ (writeU8 AUTH_KDF_PROFILE ++
          ((salt ++ (nonce ++ (key ++ []))) ++ []))) ⟨true,
            [.u16 PROTOCOL_VERSION, .flag true, .u8 AUTH_KDF_PROFILE,
            .bytes salt, .bytes nonce, .bytes key]⟩ :=
        hfront.bind ((Reads.u8 hprofile).bind (hkeys.bind (Reads.pure _)))
      refine parses_whole [.u16 PROTOCOL_VERSION, .flag true, .u8 AUTH_KDF_PROFILE, .bytes salt,
        .bytes nonce, .bytes key] ?_ (by simp [Field.raw]) (by simp [Checked, Field.valid])
      simpa using hread
    · have hread :
        Reads serverHello ((writeU16 PROTOCOL_VERSION ++ writeU8 1) ++ (writeU8 profile ++ []))
          ⟨false, [.u16 PROTOCOL_VERSION, .flag true, .u8 profile]⟩ := by
        refine hfront.bind ((Reads.u8 hprofile).bind ?_)
        simp only [hp, ne_eq, not_false_eq_true, if_true]
        exact Reads.pure _
      have hstop : Parses accept serverHello _ :=
        parses_stopped (salt ++ nonce ++ key) hread (by simp [Field.raw])
          (by simp [Checked, Field.valid])
      simpa using hstop
  · have hfront : Reads readHelloFront (writeU16 PROTOCOL_VERSION ++ writeU8 0)
        ⟨PROTOCOL_VERSION, false⟩ :=
      (Reads.u16 hversion).bind (reads_flag (f := ServerHello.mk PROTOCOL_VERSION) false)
    have hread : Reads serverHello ((writeU16 PROTOCOL_VERSION ++ writeU8 0) ++ [])
        ⟨false, [.u16 PROTOCOL_VERSION, .flag false]⟩ := hfront.bind (Reads.pure _)
    have hstop : Parses accept serverHello _ :=
      parses_stopped [] hread (by simp [Field.raw]) (by simp [Checked, Field.valid])
    simpa using hstop

theorem parses_serverAuthOk (s : ParserState)
    (h : finish MessageValidatorDetail.readServerAuthOk payload = .valid) :
    Parses accept (serverAuthOk s) payload := by
  obtain ⟨u, pos, h⟩ := finish_valid h
  simp only [MessageValidatorDetail.readServerAuthOk, MessageValidatorDetail.bind_eq_ok,
    MessageValidatorDetail.readU32_eq_ok, MessageValidatorDetail.ite_eq_ok,
    MessageValidatorDetail.setError_eq_ok, MessageValidatorDetail.pure_eq_ok, Prod.mk.injEq,
    and_false, false_or] at h
  obtain ⟨sessionId, _, _, ⟨hid, rfl, rfl⟩, _, _, _, hskip, _, _, _, rfl⟩ := h
  obtain ⟨proof, hlen, rfl⟩ := MessageValidatorDetail.skip_eq_ok hskip
  by_cases hm : s.masterReady = true
  · have hauth : Reads readAuthOk (writeU32 sessionId ++ (proof ++ [])) (sessionId, proof) :=
      (Reads.u32 hid).bind ((Reads.bytes hlen).bind (Reads.pure _))
    refine parses_whole [.u32 sessionId, .bytes proof] ?_ (by simp [Field.raw])
      (by simp [Checked, Field.valid])
    have hread : Reads (serverAuthOk s) ((writeU32 sessionId ++ (proof ++ [])) ++ [])
        ⟨true, [.u32 sessionId, .bytes proof]⟩ := by
      unfold serverAuthOk
      simp only [hm, not_true_eq_false, if_false]
      exact hauth.bind (Reads.pure _)
    simpa using hread
  · refine parses_nothing ?_
    rw [serverAuthOk, if_pos hm]
    rfl

theorem parses_loginResp (h : finish MessageValidatorDetail.readLoginResp payload = .valid) :
    Parses accept loginResp payload := by
  obtain ⟨u, pos, h⟩ := finish_valid h
  simp only [MessageValidatorDetail.readLoginResp, MessageValidatorDetail.bind_eq_ok,
    MessageValidatorDetail.readU32_eq_ok, MessageValidatorDetail.readU16_eq_ok,
    MessageValidatorDetail.ite_eq_ok, MessageValidatorDetail.setError_eq_ok, and_false, false_and,
    exists_false, false_or] at h
  obtain ⟨peerId, _, _, ⟨hpeer, rfl, rfl⟩, version, _, _, ⟨hversion, rfl, rfl⟩, _, _, hflag⟩ := h
  obtain ⟨resumed, rfl⟩ := MessageValidatorDetail.readBoolean_eq_ok hflag
  have hresp :
    Reads readLoginResponse (writeU32 peerId ++ (writeU16 version ++ writeU8 resumed.toNat))
      (peerId, version, resumed) :=
    (Reads.u32 hpeer).bind
      ((Reads.u16 hversion).bind (reads_flag (f := fun b => (peerId, version, b)) resumed))
  refine parses_whole [.u32 peerId, .u16 version, .flag resumed] ?_ (by simp [Field.raw])
    (by simp [Checked, Field.valid])
  have hread :
    Reads loginResp ((writeU32 peerId ++ (writeU16 version ++ writeU8 resumed.toNat)) ++ [])
      ⟨true, [.u32 peerId, .u16 version, .flag resumed]⟩ := hresp.bind (Reads.pure _)
  simpa using hread

theorem parses_peer (h : finish (MessageValidatorDetail.readPeerInfo 0) payload = .valid) :
    Parses accept peer payload := by
  obtain ⟨u, pos, h⟩ := finish_valid h
  obtain ⟨info, hinfo, rfl⟩ := MessageValidatorDetail.readPeerInfo_eq_ok h
  have hread : Reads peer (writePeerInfo info ++ []) ⟨true, peerFields info⟩ :=
    (reads_peer hinfo).bind (Reads.pure _)
  exact parses_whole (peerFields info) hread (by simp [peerFields_raw])
    (peerFields_checked accept hinfo)

theorem parses_peerId (h : finish MessageValidatorDetail.readPeerId payload = .valid) :
    Parses accept peerId payload := by
  obtain ⟨u, pos, h⟩ := finish_valid h
  simp only [MessageValidatorDetail.readPeerId, MessageValidatorDetail.bind_eq_ok,
    MessageValidatorDetail.readU32_eq_ok, MessageValidatorDetail.ite_eq_ok,
    MessageValidatorDetail.setError_eq_ok, MessageValidatorDetail.pure_eq_ok, Prod.mk.injEq,
    and_false, false_or] at h
  obtain ⟨id, _, _, ⟨hid, rfl, rfl⟩, _, _, _, rfl⟩ := h
  have hread : Reads peerId (writeU32 id ++ []) ⟨true, [.u32 id]⟩ :=
    (Reads.u32 hid).bind (Reads.pure _)
  exact parses_whole [.u32 id] hread (by simp [Field.raw]) (by simp [Checked, Field.valid])

theorem parses_error (h : finish MessageValidatorDetail.readError payload = .valid) :
    Parses accept error payload := by
  obtain ⟨u, pos, h⟩ := finish_valid h
  simp only [MessageValidatorDetail.readError, MessageValidatorDetail.bind_eq_ok] at h
  obtain ⟨_, _, _, hcode, htext⟩ := h
  obtain ⟨front, hfront, rfl⟩ := MessageValidatorDetail.skip_eq_ok hcode
  obtain ⟨text, _, _, hlen, _, rfl⟩ := MessageValidatorDetail.readString_eq_ok htext
  obtain ⟨code, hlt, rfl⟩ : ∃ v, v < 2 ^ 16 ∧ front = writeU16 v := by
    refine ⟨BigEndian.decode front, ?_, ?_⟩
    · have hlt := BigEndian.decode_lt front
      rwa [hfront] at hlt
    · rw [writeU16, ← hfront, BigEndian.encode_decode]
  have hmessage : Reads readErrorMessage (writeU16 code ++ (writeString text ++ [])) (code, text) :=
    (Reads.u16 hlt).bind ((Reads.string hlen).bind (Reads.pure _))
  refine parses_whole [.u16 code, .text text] ?_ (by simp [Field.raw])
    (by simp [Checked, Field.valid])
  have hread : Reads error ((writeU16 code ++ (writeString text ++ [])) ++ []) ⟨true,
      [.u16 code, .text text]⟩ :=
    hmessage.bind (Reads.pure _)
  simpa using hread

theorem roomFields_checked {roomId virtualIP mtu : Nat} {tcpPolicy udpPolicy : RoomTrafficPolicy}
    {protected_ : Bool} (htcp : tcpPolicy.Valid) (hudp : udpPolicy.Valid)
    (hmtu : isValidRoomMtuValue mtu = true) :
    ∀ f ∈ roomFields roomId virtualIP tcpPolicy udpPolicy mtu protected_, Checked accept f := by
  intro f hf
  simp only [roomFields, List.mem_cons, List.not_mem_nil, or_false] at hf
  obtain rfl | rfl | rfl | rfl | rfl | rfl := hf
  · rfl
  · rfl
  · exact policy_checked accept htcp
  · exact policy_checked accept hudp
  · rfl
  · exact hmtu

theorem parses_roomResponse (s : ParserState) {reader : Reader Callback} (callback : Callback)
    (hread : Reads reader payload callback)
    (hraw : payload = (callbackFields callback).flatMap Field.raw)
    (hfields : ∀ f ∈ callbackFields callback, Checked accept f) :
    Parses accept (roomResponse s reader) payload := by
  by_cases hs : s.ignoresRoomResponse = true
  · refine parses_nothing ?_
    rw [roomResponse, if_pos hs]
    rfl
  · refine parses_whole (callbackFields callback) ?_ hraw hfields
    have hresp : Reads (roomResponse s reader) (payload ++ []) ⟨true, callbackFields callback⟩ := by
      unfold roomResponse
      simp only [hs, Bool.false_eq_true, if_false]
      exact hread.bind (Reads.pure _)
    simpa using hresp

theorem parses_roomCreated (s : ParserState)
    (h : finish MessageValidatorDetail.readRoomCreated payload = .valid) :
    Parses accept (roomResponse s readRoomCreatedArgs) payload := by
  obtain ⟨u, pos, h⟩ := finish_valid h
  simp only [MessageValidatorDetail.readRoomCreated, MessageValidatorDetail.bind_eq_ok,
    MessageValidatorDetail.readU32_eq_ok, MessageValidatorDetail.ite_eq_ok,
    MessageValidatorDetail.setError_eq_ok, MessageValidatorDetail.pure_eq_ok, Prod.mk.injEq,
    and_false, false_or] at h
  obtain ⟨roomId, _, _, ⟨hroom, rfl, rfl⟩, virtualIP, _, _, ⟨hip, rfl, rfl⟩, _, _, _, htcp,
    _, _, _, hudp,
    _, _, _, hflag, _, _, _, hmtu, _, _, _, hskip, _, _, _, rfl⟩ := h
  obtain ⟨tcpPolicy, htcpValid, rfl⟩ := MessageValidatorDetail.readPolicy_eq_ok htcp
  obtain ⟨udpPolicy, hudpValid, rfl⟩ := MessageValidatorDetail.readPolicy_eq_ok hudp
  obtain ⟨flag, rfl⟩ := MessageValidatorDetail.readBoolean_eq_ok hflag
  obtain ⟨mtu, hmtuValid, rfl⟩ := MessageValidatorDetail.readMtu_eq_ok hmtu
  obtain ⟨token, hlen, rfl⟩ := MessageValidatorDetail.skip_eq_ok hskip
  have hflagLt : flag.toNat < 2 ^ 8 := by have := Bool.toNat_le flag; omega
  refine parses_roomResponse s
    (.roomCreated roomId virtualIP tcpPolicy udpPolicy mtu flag token) ?_ ?_ ?_
  · have hdecide : decide (flag.toNat ≠ 0) = flag := by cases flag <;> rfl
    have hread :
      Reads readRoomCreatedArgs (writeU32 roomId ++ (writeU32 virtualIP ++ (writePolicy tcpPolicy ++
        (writePolicy udpPolicy ++ (writeU8 flag.toNat ++ (writeU16 mtu ++ (token ++ [])))))))
        (.roomCreated roomId virtualIP tcpPolicy udpPolicy mtu (decide (flag.toNat ≠ 0)) token) :=
      (Reads.u32 hroom).bind
        ((Reads.u32 hip).bind ((reads_policy htcpValid _).bind ((reads_policy hudpValid _).bind
        ((Reads.u8 hflagLt).bind ((Reads.u16 (lt_of_roomMtu hmtuValid)).bind
          ((Reads.bytes hlen).bind (Reads.pure _)))))))
    rwa [hdecide] at hread
  · simp [callbackFields, roomFields, Field.raw]
  · intro f hf
    rcases List.mem_append.mp hf with hf | hf
    · exact roomFields_checked htcpValid hudpValid hmtuValid f hf
    · cases List.mem_singleton.mp hf
      rfl

theorem parses_joinResponse (s : ParserState)
    (h : finish MessageValidatorDetail.readJoinResp payload = .valid) :
    Parses accept (roomResponse s readJoinResponseArgs) payload := by
  obtain ⟨u, pos, h⟩ := finish_valid h
  simp only [MessageValidatorDetail.readJoinResp, MessageValidatorDetail.bind_eq_ok,
    MessageValidatorDetail.readU32_eq_ok, MessageValidatorDetail.readU8_eq_ok,
    MessageValidatorDetail.ite_eq_ok, MessageValidatorDetail.setError_eq_ok, and_false, false_and,
    exists_false, false_or] at h
  obtain ⟨roomId, _, _, ⟨hroom, rfl, rfl⟩, virtualIP, _, _, ⟨hip, rfl, rfl⟩, _, _, _, htcp,
    _, _, _, hudp,
    _, _, _, hflag, _, _, _, hmtu, count, _, _, ⟨hcount, rfl, rfl⟩, _, _, _, _, _,
    hmembers, hskip⟩ := h
  obtain ⟨tcpPolicy, htcpValid, rfl⟩ := MessageValidatorDetail.readPolicy_eq_ok htcp
  obtain ⟨udpPolicy, hudpValid, rfl⟩ := MessageValidatorDetail.readPolicy_eq_ok hudp
  obtain ⟨flag, rfl⟩ := MessageValidatorDetail.readBoolean_eq_ok hflag
  obtain ⟨mtu, hmtuValid, rfl⟩ := MessageValidatorDetail.readMtu_eq_ok hmtu
  obtain ⟨members, rfl, hvalid, rfl⟩ := MessageValidatorDetail.readMembers_eq_ok hmembers
  obtain ⟨token, hlen, rfl⟩ := MessageValidatorDetail.skip_eq_ok hskip
  have hflagLt : flag.toNat < 2 ^ 8 := by have := Bool.toNat_le flag; omega
  refine parses_roomResponse s
    (.joinResponse roomId virtualIP tcpPolicy udpPolicy mtu flag members token) ?_ ?_ ?_
  · have hdecide : decide (flag.toNat ≠ 0) = flag := by cases flag <;> rfl
    have htimes :
        Reads (readTimes readPeer members.length) (members.flatMap writePeerInfo) members := by
      have htimes := reads_times id fun info hinfo => reads_peer (hvalid info hinfo)
      rwa [List.map_id] at htimes
    have hread :
      Reads readJoinResponseArgs
      (writeU32 roomId ++ (writeU32 virtualIP ++ (writePolicy tcpPolicy ++
        (writePolicy udpPolicy ++ (writeU8 flag.toNat ++ (writeU16 mtu ++ (writeU8 members.length ++
          (members.flatMap writePeerInfo ++ (token ++ [])))))))))
        (.joinResponse roomId virtualIP tcpPolicy udpPolicy mtu
          (decide (flag.toNat ≠ 0)) members token) :=
      (Reads.u32 hroom).bind
        ((Reads.u32 hip).bind ((reads_policy htcpValid _).bind ((reads_policy hudpValid _).bind
        ((Reads.u8 hflagLt).bind ((Reads.u16 (lt_of_roomMtu hmtuValid)).bind ((Reads.u8 hcount).bind
          (htimes.bind ((Reads.bytes hlen).bind (Reads.pure _)))))))))
    rwa [hdecide] at hread
  · simp [callbackFields, roomFields, Field.raw, List.flatMap_assoc, peerFields_raw]
  · intro f hf
    rcases List.mem_append.mp hf with hf | hf
    · rcases List.mem_append.mp hf with hf | hf
      · exact roomFields_checked htcpValid hudpValid hmtuValid f hf
      · rcases List.mem_cons.mp hf with rfl | hf
        · rfl
        · obtain ⟨info, hinfo, hf⟩ := List.mem_flatMap.mp hf
          exact peerFields_checked accept (hvalid info hinfo) f hf
    · cases List.mem_singleton.mp hf
      rfl

theorem fixedSize_valid {actual expected : Nat}
    (h : MessageValidatorDetail.fixedSize actual expected = .valid) : actual = expected := by
  unfold MessageValidatorDetail.fixedSize at h
  split at h
  · cases h
  · split at h
    · cases h
    · omega

theorem parses_authChallenge (s : ParserState)
    (h : MessageValidatorDetail.fixedSize payload.length (1 + AUTH_SALT_SIZE + 32) = .valid) :
    Parses accept (authChallenge s) payload := by
  obtain ⟨front, challenge, hfront, hchallenge, rfl⟩ := exists_append (fixedSize_valid h)
  obtain ⟨first, salt, hfirst, hsalt, rfl⟩ := exists_append hfront
  obtain ⟨profile, hprofile, rfl⟩ := exists_u8 hfirst
  by_cases hs : s.ignoresChallenge = true
  · refine parses_nothing ?_
    rw [authChallenge, if_pos hs]
    rfl
  by_cases hp : profile ≠ AUTH_KDF_PROFILE ∨ ¬ s.joinPending = true
  · have hread : Reads (authChallenge s) (writeU8 profile ++ []) ⟨false, [.u8 profile]⟩ := by
      unfold authChallenge
      simp only [hs, Bool.false_eq_true, if_false]
      refine (Reads.u8 hprofile).bind ?_
      rw [if_pos hp]
      exact Reads.pure _
    have hstop : Parses accept (authChallenge s) _ :=
      parses_stopped (salt ++ challenge) hread (by simp [Field.raw])
        (by simp [Checked, Field.valid])
    simpa using hstop
  · have hpair : Reads readAuthChallenge (salt ++ (challenge ++ [])) (salt, challenge) :=
      (Reads.bytes hsalt).bind ((Reads.bytes hchallenge).bind (Reads.pure _))
    have hread : Reads (authChallenge s) (writeU8 profile ++ ((salt ++ (challenge ++ [])) ++ []))
        ⟨true, [.u8 profile, .bytes salt, .bytes challenge]⟩ := by
      unfold authChallenge
      simp only [hs, Bool.false_eq_true, if_false]
      refine (Reads.u8 hprofile).bind ?_
      rw [if_neg hp]
      exact hpair.bind (Reads.pure _)
    refine parses_whole [.u8 profile, .bytes salt, .bytes challenge] ?_ (by simp [Field.raw])
      (by simp [Checked, Field.valid])
    simpa using hread

/-- The header of a relayed packet, and the packet. -/
theorem readRelayData_valid (h : finish MessageValidatorDetail.readRelayData payload = .valid) :
    ∃ (hdr : RelayHeader) (data : Bytes), hdr.Valid ∧
      payload = writeU32 hdr.source ++ writeU32 hdr.destination ++
      writeU8 hdr.trafficClass ++ data := by
  obtain ⟨u, pos, h⟩ := finish_valid h
  simp only [MessageValidatorDetail.readRelayData, MessageValidatorDetail.bind_eq_ok,
    MessageValidatorDetail.readU32_eq_ok, MessageValidatorDetail.readU8_eq_ok,
    MessageValidatorDetail.ite_eq_ok, MessageValidatorDetail.setError_eq_ok,
    MessageValidatorDetail.remaining_eq_ok, and_false, false_and, exists_false, false_or] at h
  obtain ⟨source, _, _, ⟨hsource, rfl, rfl⟩, destination, _, _, ⟨hdestination, rfl, rfl⟩,
    cls, _, data,
    ⟨_, rfl, rfl⟩, hzero, hclass, _⟩ := h
  refine ⟨⟨source, destination, cls⟩, data, ⟨⟨?_, hsource⟩, ⟨?_, hdestination⟩, ?_⟩, by simp⟩
  · exact fun h0 => hzero (Or.inl h0)
  · exact fun h0 => hzero (Or.inr h0)
  · refine decide_eq_true ?_
    by_contra hne
    exact hclass ⟨fun h1 => hne (Or.inl h1), fun h2 => hne (Or.inr h2)⟩

theorem parses_relayData (h : finish MessageValidatorDetail.readRelayData payload = .valid) :
    Parses accept relayData payload := by
  obtain ⟨hdr, data, hvalid, rfl⟩ := readRelayData_valid h
  refine ⟨⟨true, [.u32 hdr.source, .u32 hdr.destination, .u8 hdr.trafficClass, .bytes data]⟩, [],
    ?_, fun _ => rfl,
    by simp [Field.raw], by simp [Checked, Field.valid]⟩
  exact bind_eq_some.mpr ⟨hdr, data, reads_relayHeader hvalid data, rfl⟩

theorem parses_guiRelayData (s : ParserState)
    (h : finish MessageValidatorDetail.readRelayData payload = .valid) :
    Parses accept (guiRelayData s) payload := by
  obtain ⟨hdr, data, hvalid, rfl⟩ := readRelayData_valid h
  by_cases hd : hdr.destination = s.myPeerId
  · refine ⟨⟨true, [.u32 hdr.source, .u32 hdr.destination, .u8 hdr.trafficClass, .bytes data]⟩, [],
      ?_, fun _ => rfl,
      by simp [Field.raw], by simp [Checked, Field.valid]⟩
    refine bind_eq_some.mpr ⟨hdr, data, reads_relayHeader hvalid data, ?_⟩
    rw [if_neg (not_not.mpr hd)]
    rfl
  · refine ⟨⟨false, [.u32 hdr.source, .u32 hdr.destination, .u8 hdr.trafficClass]⟩, data, ?_,
      fun hw => absurd hw Bool.false_ne_true, by simp [Field.raw], by simp [Checked, Field.valid]⟩
    refine bind_eq_some.mpr ⟨hdr, data, reads_relayHeader hvalid data, ?_⟩
    rw [if_pos hd]
    rfl

/-! ### Room lists -/

/-- The room a change lists. -/
def upserted : CliRoomChange → Option CliRoomListItem
  | .upsert info => some info
  | .erase _ => none

/-- The room records of a message, read as the command-line client reads them. -/
def listedRooms (msgType : UInt8) (payload : Bytes) : List CliRoomListItem :=
  if msgType = MSG_ROOM_LIST then
    (parse (readRoomListHeader >>= fun header => readTimes readRoomListItem header.2.2.2)
      payload).getD []
  else if msgType = MSG_ROOM_LIST_PUSH then
    ((parse (readRoomListPushHeader >>= fun header => readTimes readRoomListChange header.2.2)
      payload).getD []).filterMap
      upserted
  else []

/-- The name of a listed room starts with a zero byte. -/
def NulNamed (info : CliRoomListItem) : Prop := info.roomName.head? = some 0

theorem reads_item {info : CliRoomListItem} (h : info.Valid) :
    Reads readRoomListItem (writeRoomRecord info) info :=
  reads_record h CliRoomListItem.mk

theorem reads_change {change : CliRoomChange} (h : change.Valid) :
    Reads readRoomListChange (writeRoomChange change) change := by
  cases change with
  | upsert info =>
    have hread : Reads readRoomListChange (writeU8 ROOM_LIST_UPSERT ++ (writeRoomRecord info ++ []))
        (.upsert info) :=
      (Reads.u8 (v := ROOM_LIST_UPSERT) (by decide)).bind ((reads_item h).bind (Reads.pure _))
    simpa [writeRoomChange] using hread
  | erase roomId =>
    have hread : Reads readRoomListChange (writeU8 ROOM_LIST_REMOVE ++ (writeU32 roomId ++ []))
        (.erase roomId) :=
      (Reads.u8 (v := ROOM_LIST_REMOVE) (by decide)).bind ((Reads.u32 h).bind (Reads.pure _))
    simpa [writeRoomChange] using hread

section RoomLists

variable {keep : Bytes → Bytes} {item : Reader (Bytes × CliRoomListItem)}
    (hitem : ReadsItems keep item)

/-- The fields of the records a client keeps. -/
def recordFields (keep : Bytes → Bytes) (info : CliRoomListItem) : List Field :=
  itemFields info.roomName { info with roomName := keep info.roomName }

include hitem in
/-- Up to a room seen before, or to the last one. -/
theorem pageRooms_parses {rooms : List CliRoomListItem} (hrooms : ∀ info ∈ rooms, info.Valid)
    (hnames : ∀ info ∈ rooms, accept info.roomName (keep info.roomName)) (known : CliRoomTable) :
    ∃ o rest, pageRooms item known rooms.length (rooms.flatMap writeRoomRecord) = some (o, rest) ∧
      (o.whole = true → rest = []) ∧
      rooms.flatMap writeRoomRecord = o.fields.flatMap Field.raw ++ rest ∧
      ∀ f ∈ o.fields, Checked accept f := by
  induction rooms generalizing known with
  | nil => exact ⟨⟨true, []⟩, [], rfl, fun _ => rfl, rfl, by simp⟩
  | cons info rooms ih =>
    have hinfo := hrooms info List.mem_cons_self
    have hname := hnames info List.mem_cons_self
    have hread := hitem info hinfo (rooms.flatMap writeRoomRecord)
    by_cases hk : info.roomId ∈ known
    · refine ⟨⟨false, recordFields keep info⟩, rooms.flatMap writeRoomRecord, ?_,
        fun hw => absurd hw Bool.false_ne_true, ?_, itemFields_checked hinfo hname⟩
      · refine bind_eq_some.mpr ⟨_, _, hread, ?_⟩
        simp only [hk, if_true]
        rfl
      · rw [recordFields, itemFields_raw, List.flatMap_cons]
    · obtain ⟨o, rest, hrun, hwhole, hraw, hfields⟩ :=
        ih (fun other ho => hrooms other (List.mem_cons_of_mem _ ho))
          (fun other ho => hnames other (List.mem_cons_of_mem _ ho))
          (known.insert info.roomId { info with roomName := keep info.roomName })
      refine ⟨⟨o.whole, recordFields keep info ++ o.fields⟩, rest, ?_, hwhole, ?_, ?_⟩
      · refine bind_eq_some.mpr ⟨_, _, hread, ?_⟩
        simp only [hk, if_false]
        exact bind_eq_some.mpr ⟨_, _, hrun, rfl⟩
      · rw [List.flatMap_append, recordFields, itemFields_raw, List.flatMap_cons, hraw,
          List.append_assoc]
      · intro f hf
        rcases List.mem_append.mp hf with hf | hf
        · exact itemFields_checked hinfo hname f hf
        · exact hfields f hf

include hitem in
/-- A page of rooms none of which is known is read to its end. -/
theorem pageRooms_whole {rooms : List CliRoomListItem} (hrooms : ∀ info ∈ rooms, info.Valid)
    (hnodup : (rooms.map (·.roomId)).Nodup) {known : CliRoomTable}
    (hnew : ∀ info ∈ rooms, info.roomId ∉ known) :
    pageRooms item known rooms.length (rooms.flatMap writeRoomRecord) =
      some (⟨true, rooms.flatMap (recordFields keep)⟩, []) := by
  induction rooms generalizing known with
  | nil => rfl
  | cons info rooms ih =>
    rw [List.map_cons, List.nodup_cons] at hnodup
    have hread := hitem info (hrooms info List.mem_cons_self) (rooms.flatMap writeRoomRecord)
    refine bind_eq_some.mpr ⟨_, _, hread, ?_⟩
    simp only [hnew info List.mem_cons_self, if_false]
    refine bind_eq_some.mpr ⟨_, _,
      ih (fun other ho => hrooms other (List.mem_cons_of_mem _ ho)) hnodup.2 ?_, ?_⟩
    · intro other ho hmem
      rw [Std.ExtTreeMap.mem_insert] at hmem
      rcases hmem with heq | hmem
      · have heq : info.roomId = other.roomId := compare_eq_iff_eq.mp heq
        exact hnodup.1 (heq ▸ List.mem_map_of_mem ho)
      · exact hnew other (List.mem_cons_of_mem _ ho) hmem
    · simp [recordFields, pure_eq_some]

/-- A page that passed the check. -/
theorem readRoomList_valid (h : finish MessageValidatorDetail.readRoomList payload = .valid) :
    ∃ (revision pageIndex pageCount : Nat) (rooms : List CliRoomListItem), revision < 2 ^ 64 ∧
    pageIndex < 2 ^ 16 ∧ pageCount < 2 ^ 16 ∧
      rooms.length < 2 ^ 16 ∧ (∀ info ∈ rooms, info.Valid) ∧ (rooms.map (·.roomId)).Nodup ∧
      payload = writeU64 revision ++
      (writeU16 pageIndex ++ (writeU16 pageCount ++ (writeU16 rooms.length ++
        rooms.flatMap writeRoomRecord))) := by
  obtain ⟨u, pos, h⟩ := finish_valid h
  simp only [MessageValidatorDetail.readRoomList, MessageValidatorDetail.bind_eq_ok,
    MessageValidatorDetail.readU64_eq_ok, MessageValidatorDetail.readU16_eq_ok,
    MessageValidatorDetail.ite_eq_ok, MessageValidatorDetail.setError_eq_ok,
    MessageValidatorDetail.remaining_eq_ok, and_false, false_and, exists_false, false_or] at h
  obtain ⟨revision, _, _, ⟨hrevision, rfl, rfl⟩, pageIndex, _, _, ⟨hindex, rfl, rfl⟩,
    pageCount, _, _,
    ⟨hcount, rfl, rfl⟩, count, _, _, ⟨hrooms, rfl, rfl⟩, _, _, _, _, ⟨rfl, rfl, rfl⟩, _, hread⟩ := h
  obtain ⟨rooms, rfl, hvalid, hnodup, rfl⟩ := MessageValidatorDetail.readRooms_eq_ok hread
  exact ⟨revision, pageIndex, pageCount, rooms, hrevision, hindex, hcount, hrooms,
    fun info hi => (hvalid info hi).1,
    hnodup, by rw [List.append_nil]⟩

theorem reads_roomListHeader {revision pageIndex pageCount count : Nat}
    (hrevision : revision < 2 ^ 64) (hindex : pageIndex < 2 ^ 16) (hpages : pageCount < 2 ^ 16)
    (hcount : count < 2 ^ 16) (rest : Bytes) :
    readRoomListHeader (writeU64 revision ++
      (writeU16 pageIndex ++ (writeU16 pageCount ++ (writeU16 count ++ rest)))) =
      some ((revision, pageIndex, pageCount, count), rest) := by
  have hread : Reads readRoomListHeader
      (writeU64 revision ++ (writeU16 pageIndex ++ (writeU16 pageCount ++ (writeU16 count ++ []))))
      (revision, pageIndex, pageCount, count) :=
    (Reads.u64 hrevision).bind
      ((Reads.u16 hindex).bind ((Reads.u16 hpages).bind ((Reads.u16 hcount).bind
      (Reads.pure _))))
  simpa using hread rest

theorem listedRooms_page {revision pageIndex pageCount : Nat} {rooms : List CliRoomListItem}
    (hrevision : revision < 2 ^ 64) (hindex : pageIndex < 2 ^ 16) (hpages : pageCount < 2 ^ 16)
    (hcount : rooms.length < 2 ^ 16) (hrooms : ∀ info ∈ rooms, info.Valid) :
    listedRooms MSG_ROOM_LIST (writeU64 revision ++ (writeU16 pageIndex ++ (writeU16 pageCount ++
      (writeU16 rooms.length ++ rooms.flatMap writeRoomRecord)))) = rooms := by
  have htimes := reads_times id fun info hi => reads_item (hrooms info hi)
  rw [List.map_id] at htimes
  have hread : (readRoomListHeader >>= fun header => readTimes readRoomListItem header.2.2.2)
    (writeU64 revision ++
      (writeU16 pageIndex ++
        (writeU16 pageCount ++ (writeU16 rooms.length ++ rooms.flatMap writeRoomRecord)))) =
      some (rooms, []) :=
    bind_eq_some.mpr ⟨_, _, reads_roomListHeader hrevision hindex hpages hcount _, htimes.eq⟩
  rw [listedRooms, if_pos rfl, parse, hread]
  rfl

include hitem in
theorem parses_roomList (s : ParserState)
    (h : finish MessageValidatorDetail.readRoomList payload = .valid)
    (hnames : ∀ info ∈ listedRooms MSG_ROOM_LIST payload,
      accept info.roomName (keep info.roomName)) :
    Parses accept (roomList item s) payload := by
  obtain ⟨revision, pageIndex, pageCount, rooms, hrevision, hindex, hpages, hcount,
      hrooms, _, rfl⟩ :=
    readRoomList_valid h
  rw [listedRooms_page hrevision hindex hpages hcount hrooms] at hnames
  have hheader :=
    reads_roomListHeader hrevision hindex hpages hcount (rooms.flatMap writeRoomRecord)
  have hchecked : ∀ f ∈ [Field.u64 revision, .u16 pageIndex, .u16 pageCount, .u16 rooms.length],
      Checked accept f := by
    simp [Checked, Field.valid]
  unfold roomList
  generalize hs : (if pageIndex = 0 then { s with
    snapshotRooms := ∅, snapshotRevision := revision, snapshotPageCount := pageCount,
    snapshotNextPage := 0 } else s) = s'
  by_cases hstale : revision ≠ s'.snapshotRevision ∨ pageCount ≠ s'.snapshotPageCount ∨
    pageIndex ≠ s'.snapshotNextPage
  · refine ⟨⟨false, [.u64 revision, .u16 pageIndex, .u16 pageCount, .u16 rooms.length]⟩,
      rooms.flatMap writeRoomRecord, ?_, fun hw => absurd hw Bool.false_ne_true, by
        simp [Field.raw], hchecked⟩
    refine bind_eq_some.mpr ⟨_, _, hheader, ?_⟩
    simp only [hs]
    rw [if_pos hstale]
    rfl
  · obtain ⟨o, rest, hrun, hwhole, hraw, hfields⟩ :=
      pageRooms_parses hitem hrooms hnames s'.snapshotRooms
    refine ⟨⟨o.whole, [.u64 revision, .u16 pageIndex, .u16 pageCount, .u16 rooms.length] ++
      o.fields⟩, rest, ?_,
      hwhole, by simp [Field.raw, hraw], ?_⟩
    · refine bind_eq_some.mpr ⟨_, _, hheader, ?_⟩
      simp only [hs]
      rw [if_neg hstale]
      exact bind_eq_some.mpr ⟨_, _, hrun, rfl⟩
    · intro f hf
      rcases List.mem_append.mp hf with hf | hf
      · exact hchecked f hf
      · exact hfields f hf

/-- A change with the name as a client keeps it. -/
def changeFields (keep : Bytes → Bytes) : CliRoomChange → List Field
  | .upsert info => .u8 ROOM_LIST_UPSERT :: recordFields keep info
  | .erase roomId => [.u8 ROOM_LIST_REMOVE, .u32 roomId]

theorem changeFields_raw (keep : Bytes → Bytes) (change : CliRoomChange) :
    (changeFields keep change).flatMap Field.raw = writeRoomChange change := by
  cases change with
  | upsert info => rw [changeFields, List.flatMap_cons, recordFields, itemFields_raw]; rfl
  | erase roomId => simp [changeFields, Field.raw, writeRoomChange]

theorem changeFields_checked {change : CliRoomChange} (h : change.Valid)
    (hname : ∀ info, upserted change = some info → accept info.roomName (keep info.roomName)) :
    ∀ f ∈ changeFields keep change, Checked accept f := by
  cases change with
  | upsert info => exact List.forall_mem_cons.mpr ⟨rfl, itemFields_checked h (hname info rfl)⟩
  | erase roomId => simp [changeFields, Checked, Field.valid]

include hitem in
theorem reads_roomChange {change : CliRoomChange} (h : change.Valid) :
    Reads (roomChange item) (writeRoomChange change) (changeFields keep change) := by
  cases change with
  | upsert info =>
    have hread : Reads (roomChange item) (writeU8 ROOM_LIST_UPSERT ++ (writeRoomRecord info ++ []))
        (changeFields keep (.upsert info)) :=
      (Reads.u8 (v := ROOM_LIST_UPSERT) (by decide)).bind ((hitem info h).bind (Reads.pure _))
    simpa [writeRoomChange] using hread
  | erase roomId =>
    have hread : Reads (roomChange item) (writeU8 ROOM_LIST_REMOVE ++ (writeU32 roomId ++ []))
        (changeFields keep (.erase roomId)) :=
      (Reads.u8 (v := ROOM_LIST_REMOVE) (by decide)).bind ((Reads.u32 h).bind (Reads.pure _))
    simpa [writeRoomChange] using hread

/-- A push that passed the check. -/
theorem readRoomListPush_valid
    (h : finish MessageValidatorDetail.readRoomListPush payload = .valid) :
    ∃ (baseRevision revision : Nat) (changes : List CliRoomChange), baseRevision < 2 ^ 64 ∧
    revision < 2 ^ 64 ∧ changes.length < 2 ^ 16 ∧
      (∀ change ∈ changes, change.Valid) ∧
      payload = writeU64 baseRevision ++ (writeU64 revision ++ (writeU16 changes.length ++
        changes.flatMap writeRoomChange)) := by
  obtain ⟨u, pos, h⟩ := finish_valid h
  simp only [MessageValidatorDetail.readRoomListPush, MessageValidatorDetail.bind_eq_ok,
    MessageValidatorDetail.readU64_eq_ok, MessageValidatorDetail.readU16_eq_ok,
    MessageValidatorDetail.ite_eq_ok, MessageValidatorDetail.setError_eq_ok, and_false, false_and,
    exists_false, false_or] at h
  obtain ⟨baseRevision, _, _, ⟨hbase, rfl, rfl⟩, revision, _, _, ⟨hrevision, rfl, rfl⟩, count, _, _,
    ⟨hcount, rfl, rfl⟩, _, hread⟩ := h
  obtain ⟨changes, rfl, hvalid, rfl⟩ := MessageValidatorDetail.readRoomChanges_eq_ok hread
  exact ⟨baseRevision, revision, changes, hbase, hrevision, hcount, hvalid, by rw [List.append_nil]⟩

theorem reads_roomListPushHeader {baseRevision revision count : Nat} (hbase : baseRevision < 2 ^ 64)
    (hrevision : revision < 2 ^ 64) (hcount : count < 2 ^ 16) (rest : Bytes) :
    readRoomListPushHeader
    (writeU64 baseRevision ++ (writeU64 revision ++ (writeU16 count ++ rest))) =
      some ((baseRevision, revision, count), rest) := by
  have hread :
    Reads readRoomListPushHeader
    (writeU64 baseRevision ++ (writeU64 revision ++ (writeU16 count ++ [])))
      (baseRevision, revision, count) :=
    (Reads.u64 hbase).bind ((Reads.u64 hrevision).bind ((Reads.u16 hcount).bind (Reads.pure _)))
  simpa using hread rest

theorem listedRooms_push {baseRevision revision : Nat} {changes : List CliRoomChange}
    (hbase : baseRevision < 2 ^ 64) (hrevision : revision < 2 ^ 64)
    (hcount : changes.length < 2 ^ 16) (hchanges : ∀ change ∈ changes, change.Valid) :
    listedRooms MSG_ROOM_LIST_PUSH
    (writeU64 baseRevision ++ (writeU64 revision ++ (writeU16 changes.length ++
      changes.flatMap writeRoomChange))) = changes.filterMap upserted := by
  have htimes := reads_times id fun change hc => reads_change (hchanges change hc)
  rw [List.map_id] at htimes
  have hread : (readRoomListPushHeader >>= fun header => readTimes readRoomListChange header.2.2)
    (writeU64 baseRevision ++
      (writeU64 revision ++ (writeU16 changes.length ++ changes.flatMap writeRoomChange))) =
      some (changes, []) :=
    bind_eq_some.mpr ⟨_, _, reads_roomListPushHeader hbase hrevision hcount _, htimes.eq⟩
  rw [listedRooms, if_neg (by decide), if_pos rfl, parse, hread]
  rfl

include hitem in
/-- A push for the list the client has is read to its end. -/
theorem roomListPush_whole {s : ParserState} {baseRevision revision : Nat}
    {changes : List CliRoomChange} (hbase : baseRevision < 2 ^ 64) (hrevision : revision < 2 ^ 64)
    (hcount : changes.length < 2 ^ 16) (hchanges : ∀ change ∈ changes, change.Valid)
    (hs : s.roomListRevision = baseRevision) :
    roomListPush item s (writeU64 baseRevision ++ (writeU64 revision ++ (writeU16 changes.length ++
        changes.flatMap writeRoomChange))) =
      some (⟨true, [.u64 baseRevision, .u64 revision, .u16 changes.length] ++
        changes.flatMap (changeFields keep)⟩, []) := by
  have hheader := reads_roomListPushHeader hbase hrevision hcount (changes.flatMap writeRoomChange)
  have htimes := reads_times (changeFields keep) fun change hc =>
    reads_roomChange hitem (hchanges change hc)
  refine bind_eq_some.mpr ⟨_, _, hheader, ?_⟩
  simp only [hs, ne_eq, not_true_eq_false, if_false]
  refine bind_eq_some.mpr ⟨_, _, htimes.eq, ?_⟩
  rw [← List.flatMap_def]
  rfl

include hitem in
theorem parses_roomListPush (s : ParserState)
    (h : finish MessageValidatorDetail.readRoomListPush payload = .valid)
    (hnames : ∀ info ∈ listedRooms MSG_ROOM_LIST_PUSH payload,
      accept info.roomName (keep info.roomName)) :
    Parses accept (roomListPush item s) payload := by
  obtain ⟨baseRevision, revision, changes, hbase, hrevision, hcount, hchanges, rfl⟩ :=
    readRoomListPush_valid h
  rw [listedRooms_push hbase hrevision hcount hchanges] at hnames
  have hchecked : ∀ f ∈ [Field.u64 baseRevision, .u64 revision, .u16 changes.length],
      Checked accept f := by
    simp [Checked, Field.valid]
  by_cases hs : s.roomListRevision = baseRevision
  · refine ⟨_, [], roomListPush_whole hitem hbase hrevision hcount hchanges hs,
      fun _ => rfl, ?_, ?_⟩
    · simp [Field.raw, List.flatMap_assoc, changeFields_raw]
    · intro f hf
      rcases List.mem_append.mp hf with hf | hf
      · exact hchecked f hf
      · obtain ⟨change, hc, hf⟩ := List.mem_flatMap.mp hf
        exact changeFields_checked (hchanges change hc)
          (fun info hup => hnames info (List.mem_filterMap.mpr ⟨change, hc, hup⟩)) f hf
  · refine ⟨⟨false, [.u64 baseRevision, .u64 revision, .u16 changes.length]⟩,
      changes.flatMap writeRoomChange, ?_,
      fun hw => absurd hw Bool.false_ne_true, by simp [Field.raw], hchecked⟩
    refine bind_eq_some.mpr ⟨_, _, reads_roomListPushHeader hbase hrevision hcount _, ?_⟩
    simp only [ne_eq, Ne.symm hs, not_false_eq_true, if_true]
    rfl

end RoomLists

/-! ### Every message -/

theorem signal_parses {keep : Bytes → Bytes} {item : Reader (Bytes × CliRoomListItem)}
    (hitem : ReadsItems keep item) {relay : Reader Parsed}
    (hrelay : finish MessageValidatorDetail.readRelayData payload = .valid →
      Parses accept relay payload)
    (s : ParserState) {msgType : UInt8} (h : validateServerSignalPayload msgType payload = .valid)
    (hnames : ∀ info ∈ listedRooms msgType payload, accept info.roomName (keep info.roomName)) :
    Parses accept (signal item relay s msgType) payload := by
  unfold validateServerSignalPayload at h
  dsimp only at h
  unfold signal
  by_cases hhello : msgType = MSG_SERVER_HELLO
  · rw [if_pos hhello] at h ⊢
    exact parses_serverHello h
  rw [if_neg hhello] at h ⊢
  by_cases hauth : msgType = MSG_SERVER_AUTH_OK
  · rw [if_pos hauth] at h ⊢
    exact parses_serverAuthOk s h
  rw [if_neg hauth] at h ⊢
  by_cases hencrypted : msgType = MSG_ENCRYPTED
  · subst hencrypted
    exact parses_nothing rfl
  rw [if_neg hencrypted] at h
  by_cases hlogin : msgType = MSG_LOGIN_RESP
  · rw [if_pos hlogin] at h ⊢
    exact parses_loginResp h
  rw [if_neg hlogin] at h ⊢
  by_cases hcreated : msgType = MSG_ROOM_CREATED
  · rw [if_pos hcreated] at h ⊢
    exact parses_roomCreated s h
  rw [if_neg hcreated] at h ⊢
  by_cases hjoin : msgType = MSG_JOIN_RESP
  · rw [if_pos hjoin] at h ⊢
    exact parses_joinResponse s h
  rw [if_neg hjoin] at h ⊢
  by_cases hpeer : msgType = MSG_PEER_JOINED ∨ msgType = MSG_PEER_RESUMED
  · rw [if_pos hpeer] at h ⊢
    exact parses_peer h
  rw [if_neg hpeer] at h ⊢
  by_cases hid : msgType = MSG_PEER_LEFT ∨ msgType = MSG_RELAY_READY
  · rw [if_pos hid] at h ⊢
    exact parses_peerId h
  rw [if_neg hid] at h ⊢
  by_cases hempty : msgType = MSG_LOGOUT_ACK ∨ msgType = MSG_PONG
  · rw [if_pos hempty] at h ⊢
    obtain rfl := List.length_eq_zero_iff.mp (fixedSize_valid h)
    exact parses_whole [] (Reads.pure _) rfl (by simp)
  rw [if_neg hempty] at h ⊢
  by_cases hlist : msgType = MSG_ROOM_LIST
  · rw [if_pos hlist] at h ⊢
    split at h
    · cases h
    · exact parses_roomList hitem s h (hlist ▸ hnames)
  rw [if_neg hlist] at h ⊢
  by_cases hpush : msgType = MSG_ROOM_LIST_PUSH
  · rw [if_pos hpush] at h ⊢
    split at h
    · cases h
    · exact parses_roomListPush hitem s h (hpush ▸ hnames)
  rw [if_neg hpush] at h ⊢
  by_cases hchallenge : msgType = MSG_AUTH_CHALLENGE
  · subst hchallenge
    exact parses_authChallenge s h
  rw [if_neg hchallenge] at h
  by_cases herror : msgType = MSG_ERROR
  · subst herror
    exact parses_error h
  rw [if_neg herror] at h
  by_cases hdata : msgType = MSG_TCP_RELAY_DATA
  · rw [if_pos hdata] at h ⊢
    exact hrelay h
  · rw [if_neg hdata] at h
    cases h

theorem data_parses {msgType : UInt8} (h : validateServerDataPayload msgType payload = .valid) :
    Parses accept (cliData msgType) payload := by
  unfold validateServerDataPayload at h
  dsimp only at h
  by_cases hencrypted : msgType = MSG_ENCRYPTED
  · subst hencrypted
    exact parses_nothing rfl
  rw [if_neg hencrypted] at h
  unfold cliData
  by_cases hempty : msgType = MSG_DATA_CHANNEL_ACK ∨ msgType = MSG_PONG
  · rw [if_pos hempty] at h ⊢
    obtain rfl := List.length_eq_zero_iff.mp (fixedSize_valid h)
    exact parses_whole [] (Reads.pure _) rfl (by simp)
  rw [if_neg hempty] at h ⊢
  by_cases hdata : msgType = MSG_TCP_RELAY_DATA
  · rw [if_pos hdata] at h ⊢
    exact parses_relayData h
  · rw [if_neg hdata] at h
    cases h

end Messages

/-! ### Names of listed rooms -/

/-- What is kept of a room name is a room name unless it starts with a zero byte. -/
theorem isValidRoomName_cString {name : Bytes} (h : isValidRoomName name = true) :
    isValidRoomName (cString MAX_ROOM_NAME_LEN name) = true ↔ name.head? ≠ some 0 := by
  obtain ⟨hne, hlen⟩ := of_decide_eq_true h
  obtain ⟨b, rest, rfl⟩ := List.exists_cons_of_ne_nil hne
  have htake : (b :: rest).take MAX_ROOM_NAME_LEN = b :: rest := List.take_of_length_le hlen
  have hlen' : (cString MAX_ROOM_NAME_LEN (b :: rest)).length ≤ MAX_ROOM_NAME_LEN := by
    refine le_trans (List.takeWhile_prefix _).length_le ?_
    rw [htake]
    exact hlen
  have hkept : cString MAX_ROOM_NAME_LEN (b :: rest) ≠ [] ↔ b ≠ 0 := by
    rw [cString, htake, List.takeWhile_cons]
    by_cases hb : b = 0
    · simp [hb]
    · simp [hb]
  rw [List.head?_cons, ne_eq, Option.some.injEq, ← ne_eq, ← hkept]
  constructor
  · exact fun hv => (of_decide_eq_true hv).1
  · exact fun hk => decide_eq_true ⟨hk, hlen'⟩

/-! ### Soundness of the check for the parsers -/

/-- The parser throws nothing, it leaves nothing unread at the end of the message, every decoded
    field stands for the bytes of the payload at its place and passes its check. -/
def Sound (parser : Reader Parsed) (payload : Bytes) : Prop :=
  ∃ o rest, parser payload = some (o, rest) ∧ (o.whole = true → rest = []) ∧
    payload = o.fields.flatMap Field.raw ++ rest ∧ ∀ f ∈ o.fields, f.valid = true

theorem Parses.sound {parser : Reader Parsed} {payload : Bytes}
    (h : Parses (fun _ kept => isValidRoomName kept = true) parser payload) :
    Sound parser payload := by
  obtain ⟨o, rest, hrun, hwhole, hraw, hfields⟩ := h
  refine ⟨o, rest, hrun, hwhole, hraw, fun f hf => ?_⟩
  have hchecked := hfields f hf
  cases f <;> exact hchecked

section Listed

variable {payload : Bytes}

theorem finish_of_roomList (h : validateServerSignalPayload MSG_ROOM_LIST payload = .valid) :
    MessageValidatorDetail.finish MessageValidatorDetail.readRoomList payload = .valid := by
  change (if ROOM_LIST_PAGE_PAYLOAD < payload.length then _ else _) = _ at h
  split at h
  · cases h
  · exact h

theorem finish_of_roomListPush
    (h : validateServerSignalPayload MSG_ROOM_LIST_PUSH payload = .valid) :
    MessageValidatorDetail.finish MessageValidatorDetail.readRoomListPush payload = .valid := by
  change (if ROOM_LIST_PAGE_PAYLOAD < payload.length then _ else _) = _ at h
  split at h
  · cases h
  · exact h

theorem listedRooms_valid {msgType : UInt8}
    (h : validateServerSignalPayload msgType payload = .valid) :
    ∀ info ∈ listedRooms msgType payload, info.Valid := by
  intro info hinfo
  by_cases hlist : msgType = MSG_ROOM_LIST
  · subst hlist
    obtain ⟨revision, pageIndex, pageCount, rooms, hrevision, hindex, hpages, hcount,
        hrooms, _, rfl⟩ :=
      readRoomList_valid (finish_of_roomList h)
    rw [listedRooms_page hrevision hindex hpages hcount hrooms] at hinfo
    exact hrooms info hinfo
  by_cases hpush : msgType = MSG_ROOM_LIST_PUSH
  · subst hpush
    obtain ⟨baseRevision, revision, changes, hbase, hrevision, hcount, hchanges, rfl⟩ :=
      readRoomListPush_valid (finish_of_roomListPush h)
    rw [listedRooms_push hbase hrevision hcount hchanges] at hinfo
    obtain ⟨change, hc, hup⟩ := List.mem_filterMap.mp hinfo
    have hvalid := hchanges change hc
    cases change with
    | upsert other => cases hup; exact hvalid
    | erase roomId => cases hup
  · rw [listedRooms, if_neg hlist, if_neg hpush] at hinfo
    cases hinfo

/-- A client that reads a record with such a name keeps an empty one. -/
theorem not_sound_of_nulNamed {parser : Reader Parsed} {o : Parsed} {rest : Bytes}
    {info : CliRoomListItem} (hvalid : info.Valid) (hnul : NulNamed info)
    (hrun : parser payload = some (o, rest))
    (hmem : Field.roomName info.roomName (cString MAX_ROOM_NAME_LEN info.roomName) ∈ o.fields) :
    ¬ Sound parser payload := by
  rintro ⟨o', rest', hrun', _, _, hfields⟩
  rw [hrun] at hrun'
  cases hrun'
  have hkept : isValidRoomName (cString MAX_ROOM_NAME_LEN info.roomName) = true := hfields _ hmem
  exact (isValidRoomName_cString hvalid.roomName).mp hkept hnul

/-- The state of a client whose list is complete at the revision `base` and that waits for
    the given page. -/
def awaitingPage (base revision pageCount pageIndex : Nat) : ParserState :=
  { ignoresRoomResponse := false, ignoresChallenge := false, joinPending := false,
    masterReady := true, myPeerId := 1, snapshotRooms := ∅, snapshotRevision := revision,
    snapshotPageCount := pageCount, snapshotNextPage := pageIndex, roomListRevision := base }

theorem exists_unsound_of_nulNamed {msgType : UInt8}
    (h : validateServerSignalPayload msgType payload = .valid) {info : CliRoomListItem}
    (hinfo : info ∈ listedRooms msgType payload) (hnul : NulNamed info) :
    ∃ s, ¬ Sound (guiSignal s msgType) payload := by
  have hvalid := listedRooms_valid h info hinfo
  have hname : Field.roomName info.roomName (cString MAX_ROOM_NAME_LEN info.roomName) ∈
      recordFields (cString MAX_ROOM_NAME_LEN) info := by
    simp [recordFields, itemFields]
  by_cases hlist : msgType = MSG_ROOM_LIST
  · subst hlist
    obtain ⟨revision, pageIndex, pageCount, rooms, hrevision, hindex, hpages, hcount, hrooms,
        hnodup, rfl⟩ :=
      readRoomList_valid (finish_of_roomList h)
    rw [listedRooms_page hrevision hindex hpages hcount hrooms] at hinfo
    refine ⟨awaitingPage 0 revision pageCount pageIndex, ?_⟩
    have hpage : pageRooms guiRoomListItem ∅ rooms.length (rooms.flatMap writeRoomRecord) = _ :=
      pageRooms_whole readsItems_gui hrooms hnodup fun _ _ => Std.ExtTreeMap.not_mem_empty
    have hrun : roomList guiRoomListItem (awaitingPage 0 revision pageCount pageIndex)
      (writeU64 revision ++
        (writeU16 pageIndex ++
          (writeU16 pageCount ++ (writeU16 rooms.length ++ rooms.flatMap writeRoomRecord)))) =
        some (⟨true, [.u64 revision, .u16 pageIndex, .u16 pageCount, .u16 rooms.length] ++
          rooms.flatMap (recordFields (cString MAX_ROOM_NAME_LEN))⟩, []) := by
      refine bind_eq_some.mpr ⟨_, _, reads_roomListHeader hrevision hindex hpages hcount _, ?_⟩
      by_cases h0 : pageIndex = 0
      · simp only [h0, if_true, ne_eq, not_true_eq_false, or_self, if_false]
        exact bind_eq_some.mpr ⟨_, _, hpage, rfl⟩
      · simp only [h0, if_false, awaitingPage, ne_eq, not_true_eq_false, or_self]
        exact bind_eq_some.mpr ⟨_, _, hpage, rfl⟩
    exact not_sound_of_nulNamed hvalid hnul hrun
      (List.mem_append_right _ (List.mem_flatMap.mpr ⟨info, hinfo, hname⟩))
  by_cases hpush : msgType = MSG_ROOM_LIST_PUSH
  · subst hpush
    obtain ⟨baseRevision, revision, changes, hbase, hrevision, hcount, hchanges, rfl⟩ :=
      readRoomListPush_valid (finish_of_roomListPush h)
    rw [listedRooms_push hbase hrevision hcount hchanges] at hinfo
    obtain ⟨change, hc, hup⟩ := List.mem_filterMap.mp hinfo
    refine ⟨awaitingPage baseRevision 0 0 0, ?_⟩
    have hrun := roomListPush_whole readsItems_gui
      (s := awaitingPage baseRevision 0 0 0) hbase hrevision hcount
      hchanges rfl
    refine not_sound_of_nulNamed hvalid hnul hrun
      (List.mem_append_right _ (List.mem_flatMap.mpr ⟨change, hc, ?_⟩))
    cases change with
    | upsert other => cases hup; exact List.mem_cons_of_mem _ hname
    | erase roomId => cases hup
  · rw [listedRooms, if_neg hlist, if_neg hpush] at hinfo
    cases hinfo

end Listed

/-- **The check is sound for the parsers.** No parser throws on a payload that passed the
    check, and the command-line client's decode valid fields only; so do those of the Qt
    client, in every state, exactly if no listed room has a name that starts with a zero
    byte. -/
theorem parsers_sound (msgType : UInt8) (payload : Bytes) :
    (validateServerSignalPayload msgType payload = .valid →
      ∀ s, (∃ o rest, guiSignal s msgType payload = some (o, rest) ∧
        (o.whole = true → rest = []))) ∧
    ((validateServerSignalPayload msgType payload = .valid →
        ∀ s, Sound (cliSignal s msgType) payload ∧ Sound (guiSignal s msgType) payload) ∧
      (validateServerDataPayload msgType payload = .valid → Sound (cliData msgType) payload) ↔
      (validateServerSignalPayload msgType payload = .valid →
        ∀ info ∈ listedRooms msgType payload, ¬ NulNamed info)) := by
  refine ⟨fun h s => ?_, fun hsound h info hinfo hnul => ?_,
    fun hnames => ⟨fun h s => ⟨?_, ?_⟩, fun h => ?_⟩⟩
  · obtain ⟨o, rest, hrun, hwhole, _⟩ : Parses (fun _ _ => True) (guiSignal s msgType) payload :=
      signal_parses readsItems_gui (parses_guiRelayData s) s h fun _ _ => trivial
    exact ⟨o, rest, hrun, hwhole⟩
  · obtain ⟨s, hs⟩ := exists_unsound_of_nulNamed h hinfo hnul
    exact hs (hsound.1 h s).2
  · refine Parses.sound (signal_parses readsItems_cli parses_relayData s h fun info hinfo => ?_)
    exact (listedRooms_valid h info hinfo).roomName
  · refine Parses.sound (signal_parses readsItems_gui
      (parses_guiRelayData s) s h fun info hinfo => ?_)
    exact (isValidRoomName_cString (listedRooms_valid h info hinfo).roomName).mpr
      (hnames h info hinfo)
  · exact (data_parses h).sound

/-- A room whose name is one zero byte. -/
def zeroNamedRoom : CliRoomListItem :=
  { roomId := 1, roomName := [0], playerCount := 1, maxPlayers := 4,
    tcpPolicy := makeDefaultTcpPolicy, udpPolicy := makeDefaultUdpPolicy, passwordProtected := 0,
    mtu := ROOM_MTU_DEFAULT }

/-- The only page of a list with that room. -/
def zeroNamedPage : Bytes :=
  writeU64 1 ++ writeU16 0 ++ writeU16 1 ++ writeU16 1 ++ writeRoomRecord zeroNamedRoom

theorem gui_keeps_an_empty_name :
    ¬ ∀ (msgType : UInt8) (payload : Bytes),
      (validateServerSignalPayload msgType payload = .valid →
        ∀ s, Sound (cliSignal s msgType) payload ∧ Sound (guiSignal s msgType) payload) ∧
      (validateServerDataPayload msgType payload = .valid → Sound (cliData msgType) payload) := by
  intro hall
  have hvalid : validateServerSignalPayload MSG_ROOM_LIST zeroNamedPage = .valid := by
    decide +kernel
  have hlisted : zeroNamedRoom ∈ listedRooms MSG_ROOM_LIST zeroNamedPage := by decide +kernel
  obtain ⟨s, hs⟩ := exists_unsound_of_nulNamed hvalid hlisted rfl
  exact hs ((hall MSG_ROOM_LIST zeroNamedPage).1 hvalid s).2

end Parser

end VlanConnect

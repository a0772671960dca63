/-
  VlanConnect/Client/RawUdp.lean
  ==============================
  **The raw UDP transport** (`CliRawUdpTunnel` of `client-cli/src/cli_peer.cpp`).

  A packet is cut into fragments that a datagram can carry; the receiver puts
  them together again and hands the packet up.  Fragments go through the error
  correction when the room has one.  Pings and their answers are messages of
  one fragment and five bytes on the same path.

  A call reads the clock once: `now` is that reading.
-/
import VlanConnect.Client.Fec

namespace VlanConnect

open ByteBuffer PieceTable

def RAW_UDP_KEEPALIVE_MARKER : UInt8 := 0x00
def RAW_UDP_LATENCY_PING : UInt8 := 0x01
def RAW_UDP_LATENCY_PONG : UInt8 := 0x02

/-- `FragHeader`. -/
def fragHeader (msgId fragIndex fragTotal totalLen : Nat) : Bytes :=
  writeU16 msgId ++ [UInt8.ofNat fragIndex, UInt8.ofNat fragTotal] ++ writeU16 totalLen

/-- `UdpRelayHeader`. -/
def udpRelayHeader (type : UInt8) (trafficClass srcPeerId dstPeerId : Nat) : Bytes :=
  [type, UInt8.ofNat trafficClass] ++ writeU32 srcPeerId ++ writeU32 dstPeerId

/-- A fragment as it comes out of the error correction. -/
structure Fragment where
  msgId : Nat
  fragIndex : Nat
  fragTotal : Nat
  totalLen : Nat
  payload : Bytes
deriving DecidableEq

/-- The header and the data behind it. -/
def Fragment.bytes (f : Fragment) : Bytes :=
  fragHeader f.msgId f.fragIndex f.fragTotal f.totalLen ++ f.payload

structure ReassemblyEntry where
  totalLen : Nat
  fragTotal : Nat
  receivedCount : Nat := 0
  createTime : Nat
  fragments : Std.ExtTreeMap Nat Bytes := ∅

namespace ReassemblyEntry

def shape : Shape ReassemblyEntry where
  time entry := entry.createTime
  size entry := total List.length entry.fragments

/-- The fragments in their order; `none` when one is missing. -/
def assembled (entry : ReassemblyEntry) : Option Bytes :=
  ((List.range entry.fragTotal).mapM fun i => entry.fragments[i]?).map List.flatten

end ReassemblyEntry

inductive TunnelEffect where
  /-- `m_udpSend`. -/
  | send (datagram : Bytes)
  /-- `m_onData`. -/
  | data (packet : Bytes)
  /-- `m_onDead`. -/
  | dead
deriving DecidableEq

/-- The codecs are there exactly when `fecMode` is not `none`; without it the two fields
    are not used. -/
structure CliRawUdpTunnel where
  roomMtu : Nat
  fecMode : FecMode
  trafficClass : Nat
  secureFrames : Bool
  /-- `m_relayMode`, with the two peer ids. -/
  relay : Option (Nat × Nat) := none
  nextMsgId : Nat := 0
  lastRecvTime : Nat
  lastSendTime : Nat
  dead : Bool := false
  rttMs : Int := -1
  /-- `m_reassembly` and `m_reassemblyBytes`. -/
  reassembly : Table Nat ReassemblyEntry := {}
  fecEncoder : CliFecEncoder := { mode := fecMode }
  fecDecoder : CliFecDecoder := {}

namespace CliRawUdpTunnel

variable (cm : Cm256)

def limits : Limits := ⟨RAW_UDP_MAX_ACTIVE_MESSAGES, RAW_UDP_MAX_REASSEMBLY_BYTES⟩

/-- The constructor. -/
def create (fecMode : FecMode) (mtu trafficClass : Nat) (secureFrames : Bool) (now : Nat) :
    CliRawUdpTunnel where
  roomMtu := normalizeRoomMtu mtu
  fecMode := fecMode
  trafficClass := trafficClass
  secureFrames := secureFrames
  lastRecvTime := now
  lastSendTime := now

def setRelayMode (t : CliRawUdpTunnel) (srcPeerId dstPeerId : Nat) : CliRawUdpTunnel :=
  { t with relay := some (srcPeerId, dstPeerId) }

def maxFragmentPayload (t : CliRawUdpTunnel) : Nat :=
  transportPayloadBudget t.roomMtu .relayRawUdp (decide (t.fecMode ≠ .none)) t.secureFrames

/-! ### Sending -/

/-- The datagram around a payload. -/
def rawPacket (t : CliRawUdpTunnel) (payload : Bytes) : Bytes :=
  match t.relay with
  | some (srcPeerId, dstPeerId) =>
    udpRelayHeader UDP_RAW_RELAY_DATA t.trafficClass srcPeerId dstPeerId ++ payload
  | none => UDP_RAW_RELAY_DATA :: payload

def sendRawPacket (t : CliRawUdpTunnel) (now : Nat) (payload : Bytes) :
    List TunnelEffect × CliRawUdpTunnel :=
  ([.send (t.rawPacket payload)], { t with lastSendTime := now })

/-- The packets an encoder puts out, one after the other. -/
def sendRawPackets (t : CliRawUdpTunnel) (now : Nat) :
    List Bytes → List TunnelEffect × CliRawUdpTunnel
  | [] => ([], t)
  | payload :: payloads =>
    let (effects, t) := t.sendRawPacket now payload
    let (more, t) := t.sendRawPackets now payloads
    (effects ++ more, t)

def sendFragment (t : CliRawUdpTunnel) (now : Nat) (f : Fragment) :
    List TunnelEffect × CliRawUdpTunnel :=
  let innerPayload := f.bytes
  if t.fecMode ≠ .none then
    let (packets, fecEncoder) := t.fecEncoder.addPacket cm innerPayload
    { t with fecEncoder := fecEncoder }.sendRawPackets now packets
  else t.sendRawPacket now innerPayload

/-- The fragment of a packet with that index. -/
def fragmentOf (maxPayload fragTotal msgId : Nat) (ipPacket : Bytes) (i : Nat) : Fragment where
  msgId := msgId
  fragIndex := i
  fragTotal := fragTotal
  totalLen := ipPacket.length
  payload := (ipPacket.drop (i * maxPayload)).take
    (min maxPayload (ipPacket.length - i * maxPayload))

def sendFragments (t : CliRawUdpTunnel) (now : Nat) :
    List Fragment → List TunnelEffect × CliRawUdpTunnel
  | [] => ([], t)
  | f :: fs =>
    let (effects, t) := t.sendFragment cm now f
    let (more, t) := t.sendFragments now fs
    (effects ++ more, t)

/-- What is returned, what is sent, and the tunnel afterwards. -/
def send (t : CliRawUdpTunnel) (now : Nat) (ipPacket : Bytes) :
    Int × List TunnelEffect × CliRawUdpTunnel :=
  if ipPacket = [] then (0, [], t)
  else if t.roomMtu < ipPacket.length then (-1, [], t)
  else
    let msgId := t.nextMsgId
    let t := { t with nextMsgId := (msgId + 1) % 2 ^ 16 }
    let totalLen := ipPacket.length
    let maxPayload := t.maxFragmentPayload
    let fragTotal := (totalLen + maxPayload - 1) / maxPayload
    if fragTotal = 0 ∨ 255 < fragTotal then (-1, [], t)
    else
      (totalLen, t.sendFragments cm now
        ((List.range fragTotal).map (fragmentOf maxPayload fragTotal msgId ipPacket)))

/-- A message of one fragment and five bytes, with the next id. -/
def sendProbe (t : CliRawUdpTunnel) (now : Nat) (probeType : UInt8) (timestamp : Bytes) :
    List TunnelEffect × CliRawUdpTunnel :=
  let msgId := t.nextMsgId
  { t with nextMsgId := (msgId + 1) % 2 ^ 16 }.sendFragment cm now
    { msgId := msgId, fragIndex := 0, fragTotal := 1, totalLen := 5,
      payload := probeType :: timestamp }

/-! ### Receiving -/

/-- The header and the checks at the head of `processFrag`. -/
def readFragment (t : CliRawUdpTunnel) (data : Bytes) : Option Fragment :=
  match data with
  | m₁ :: m₀ :: fragIndex :: fragTotal :: l₁ :: l₀ :: payload =>
    let msgId := BigEndian.decode [m₁, m₀]
    let fragIndex := fragIndex.toNat
    let fragTotal := fragTotal.toNat
    let totalLen := BigEndian.decode [l₁, l₀]
    if payload = [] ∨ fragTotal = 0 ∨ fragTotal ≤ fragIndex ∨ totalLen = 0 ∨
      t.roomMtu < totalLen then none
    else
      let maxPayload := t.maxFragmentPayload
      let expectedTotal := (totalLen + maxPayload - 1) / maxPayload
      if expectedTotal ≠ fragTotal then none
      else
        let expectedLength :=
          if fragIndex + 1 = fragTotal then totalLen - maxPayload * (fragTotal - 1) else maxPayload
        if payload.length ≠ expectedLength then none
        else some ⟨msgId, fragIndex, fragTotal, totalLen, payload⟩
  | _ => none

def entry (t : CliRawUdpTunnel) (msgId : Nat) : Option ReassemblyEntry :=
  t.reassembly.entries[msgId]?

def removeReassemblyEntry (t : CliRawUdpTunnel) (msgId : Nat) : CliRawUdpTunnel :=
  { t with reassembly := t.reassembly.remove ReassemblyEntry.shape msgId }

def ensureReassemblyCapacity (t : CliRawUdpTunnel) (incomingBytes : Nat) (newMessage : Bool) :
    Bool × CliRawUdpTunnel :=
  let (ok, reassembly) := t.reassembly.ensure ReassemblyEntry.shape limits incomingBytes newMessage
  (ok, { t with reassembly := reassembly })

def setEntry (t : CliRawUdpTunnel) (msgId : Nat) (entry : ReassemblyEntry) (added : Nat) :
    CliRawUdpTunnel :=
  { t with
    reassembly :=
      { entries := t.reassembly.entries.insert msgId entry, bytes := t.reassembly.bytes + added } }

/-- The end of `processFrag`: a message with all its fragments is handed up. -/
def deliverIfComplete (t : CliRawUdpTunnel) (msgId : Nat) : List TunnelEffect × CliRawUdpTunnel :=
  match t.entry msgId with
  | none => ([], t)
  | some entry =>
    if entry.receivedCount < entry.fragTotal then ([], t)
    else
      match entry.assembled with
      | none => ([], t.removeReassemblyEntry msgId)
      | some assembled =>
        (if assembled.length = entry.totalLen then [.data assembled] else [],
          t.removeReassemblyEntry msgId)

/-- A fragment of a message whose entry is there. -/
def storeFragment (t : CliRawUdpTunnel) (f : Fragment) : List TunnelEffect × CliRawUdpTunnel :=
  match t.entry f.msgId with
  | none => ([], t)
  | some entry =>
    if f.fragIndex ∈ entry.fragments then t.deliverIfComplete f.msgId
    else
      let (ok, t) := t.ensureReassemblyCapacity f.payload.length false
      if ¬ ok then ([], t)
      else
        match t.entry f.msgId with
        | none => ([], t)
        | some entry =>
          let entry := { entry with
            fragments := entry.fragments.insert f.fragIndex f.payload
            receivedCount := entry.receivedCount + 1 }
          (t.setEntry f.msgId entry f.payload.length).deliverIfComplete f.msgId

/-- A fragment of a message with more than one. -/
def reassemble (t : CliRawUdpTunnel) (now : Nat) (f : Fragment) :
    List TunnelEffect × CliRawUdpTunnel :=
  match t.entry f.msgId with
  | some entry =>
    if entry.totalLen ≠ f.totalLen ∨
      entry.fragTotal ≠ f.fragTotal then ([], t.removeReassemblyEntry f.msgId)
    else t.storeFragment f
  | none =>
    let (ok, t) := t.ensureReassemblyCapacity f.payload.length true
    if ¬ ok then ([], t)
    else
      let entry := { totalLen := f.totalLen, fragTotal := f.fragTotal, createTime := now }
      (t.setEntry f.msgId entry 0).storeFragment f

/-- The round trip that an answer shows; a negative one counts as zero. -/
def roundTrip (now : Nat) (timestamp : Bytes) : Int :=
  let elapsed := elapsedMs now (BigEndian.decode timestamp)
  if elapsed < 2 ^ 31 then elapsed else 0

def processFrag (t : CliRawUdpTunnel) (now : Nat) (data : Bytes) :
    List TunnelEffect × CliRawUdpTunnel :=
  match t.readFragment data with
  | none => ([], t)
  | some f =>
    if f.fragTotal = 1 ∧ f.payload = [RAW_UDP_KEEPALIVE_MARKER] ∧ f.totalLen = 1 then ([], t)
    else if f.fragTotal = 1 ∧ f.payload.length = 5 ∧ f.totalLen = 5 ∧
        f.payload.head? = some RAW_UDP_LATENCY_PING then
      t.sendProbe cm now RAW_UDP_LATENCY_PONG f.payload.tail
    else if f.fragTotal = 1 ∧ f.payload.length = 5 ∧ f.totalLen = 5 ∧
        f.payload.head? = some RAW_UDP_LATENCY_PONG then
      ([], { t with rttMs := roundTrip now f.payload.tail })
    else if f.fragTotal = 1 then
      (if f.payload.length = f.totalLen then [.data f.payload] else [], t)
    else t.reassemble now f

def processFrags (t : CliRawUdpTunnel) (now : Nat) :
    List Bytes → List TunnelEffect × CliRawUdpTunnel
  | [] => ([], t)
  | payload :: payloads =>
    let (effects, t) := t.processFrag cm now payload
    let (more, t) := t.processFrags now payloads
    (effects ++ more, t)

def feedInput (t : CliRawUdpTunnel) (now : Nat) (data : Bytes) :
    List TunnelEffect × CliRawUdpTunnel :=
  if data = [] then ([], t)
  else
    let t := { t with lastRecvTime := now, dead := false }
    if t.fecMode ≠ .none then
      let (effects, fecDecoder) := t.fecDecoder.addPacket cm now data
      { t with fecDecoder := fecDecoder }.processFrags cm now (FecEffect.outputs effects)
    else t.processFrag cm now data

/-! ### The clock -/

def cleanupStaleEntries (t : CliRawUdpTunnel) (now : Nat) : CliRawUdpTunnel :=
  { t with reassembly := t.reassembly.expire ReassemblyEntry.shape fun entry =>
      decide (RAW_UDP_FRAG_TIMEOUT_MS < elapsedMs now entry.createTime) }

def sendPing (t : CliRawUdpTunnel) (now : Nat) : List TunnelEffect × CliRawUdpTunnel :=
  t.sendProbe cm now RAW_UDP_LATENCY_PING (writeU32 now)

def flushEncoder (t : CliRawUdpTunnel) (now : Nat) : List TunnelEffect × CliRawUdpTunnel :=
  if t.fecMode ≠ .none then
    let (packets, fecEncoder) := t.fecEncoder.update cm
    { t with fecEncoder := fecEncoder }.sendRawPackets now packets
  else ([], t)

def update (t : CliRawUdpTunnel) (now : Nat) : List TunnelEffect × CliRawUdpTunnel :=
  if t.dead = false ∧ RAW_UDP_DEAD_TIMEOUT_MS < elapsedMs now t.lastRecvTime then
    ([.dead], { t with dead := true })
  else
    let (ping, t) :=
      if RAW_UDP_KEEPALIVE_MS < elapsedMs now t.lastSendTime then t.sendPing cm now else ([], t)
    let (packets, t) := t.flushEncoder cm now
    let t := if t.fecMode ≠ .none then { t with fecDecoder := t.fecDecoder.cleanup now } else t
    (ping ++ packets, t.cleanupStaleEntries now)

end CliRawUdpTunnel

end VlanConnect

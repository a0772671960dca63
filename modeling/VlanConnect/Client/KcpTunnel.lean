/-
  VlanConnect/Client/KcpTunnel.lean
  =================================
  **The KCP transport** (`CliKcpTunnel` of `client-cli/src/cli_peer.cpp`).

  The protocol control block of `3rdparty/kcp` is a parameter.  What it puts
  out goes to the peer, through the error correction when the room has one;
  what comes in goes the other way, and the messages it then has are handed up.
-/
import VlanConnect.Client.RawUdp

namespace VlanConnect

open ByteBuffer

/-- `ikcpcb` and the functions on it. `update` returns what the output callback gets;
    `recvAll` is what `ikcp_recv` gives until it has nothing more. -/
structure Kcp where
  State : Type
  create : (conv : Nat) → State
  setmtu : State → (mtu : Nat) → State
  nodelay : State → (nodelay interval resend nc : Nat) → State
  wndsize : State → (sndwnd rcvwnd : Nat) → State
  setMinrto : State → Nat → State
  setFastresend : State → Nat → State
  waitsnd : State → Nat
  send : State → Bytes → Int × State
  input : State → Bytes → State
  recvAll : State → List Bytes × State
  update : State → (now : Nat) → List Bytes × State

namespace Kcp

/-- The states of a control block that got its MTU when it was created. -/
inductive Reached (P : Kcp) (mtu : Nat) : P.State → Prop
  | setmtu (conv : Nat) : Reached P mtu (P.setmtu (P.create conv) mtu)
  | nodelay {s : P.State} (nodelay interval resend nc : Nat) :
      Reached P mtu s → Reached P mtu (P.nodelay s nodelay interval resend nc)
  | wndsize {s : P.State} (sndwnd rcvwnd : Nat) : Reached P mtu s →
      Reached P mtu (P.wndsize s sndwnd rcvwnd)
  | setMinrto {s : P.State} (rto : Nat) : Reached P mtu s → Reached P mtu (P.setMinrto s rto)
  | setFastresend {s : P.State} (resend : Nat) : Reached P mtu s →
      Reached P mtu (P.setFastresend s resend)
  | send {s : P.State} (data : Bytes) : Reached P mtu s → Reached P mtu (P.send s data).2
  | input {s : P.State} (data : Bytes) : Reached P mtu s → Reached P mtu (P.input s data)
  | recvAll {s : P.State} : Reached P mtu s → Reached P mtu (P.recvAll s).2
  | update {s : P.State} (now : Nat) : Reached P mtu s → Reached P mtu (P.update s now).2

/-- `ikcp_setmtu` refuses less than 50. -/
def RespectsMtu (P : Kcp) : Prop := ∀ (mtu : Nat) (s : P.State), 50 ≤ mtu → P.Reached mtu s →
  ∀ now, ∀ output ∈ (P.update s now).1, output.length ≤ mtu

end Kcp

def KCP_KEEPALIVE_MARKER : UInt8 := 0x00

/-- The codecs are there exactly when `fecMode` is not `none`. -/
structure CliKcpTunnel (P : Kcp) where
  kcp : P.State
  fecMode : FecMode
  profile : KcpProfile
  trafficClass : Nat
  relay : Option (Nat × Nat) := none
  lastRecvTime : Nat
  lastSendTime : Nat
  dead : Bool := false
  fecEncoder : CliFecEncoder := { mode := fecMode }
  fecDecoder : CliFecDecoder := {}

namespace CliKcpTunnel

variable {P : Kcp} (cm : Cm256)

/-- The windows and timers of the two profiles. -/
def configure (kcp : P.State) : KcpProfile → P.State
  | .bulk => P.setFastresend (P.setMinrto (P.wndsize (P.nodelay kcp 1 20 4 0) 1024 1024) 30) 4
  | .realtime => P.setFastresend (P.setMinrto (P.wndsize (P.nodelay kcp 1 10 2 1) 256 256) 10) 2

/-- The constructor. -/
def create (conv : Nat) (fecMode : FecMode) (mtu : Nat) (profile : KcpProfile) (trafficClass : Nat)
    (secureFrames : Bool) (now : Nat) : CliKcpTunnel P where
  kcp := configure (P.setmtu (P.create conv)
    (kcpMtuFromRoomMtu mtu (decide (fecMode ≠ .none)) secureFrames)) profile
  fecMode := fecMode
  profile := profile
  trafficClass := trafficClass
  lastRecvTime := now
  lastSendTime := now

def setRelayMode (t : CliKcpTunnel P) (srcPeerId dstPeerId : Nat) : CliKcpTunnel P :=
  { t with relay := some (srcPeerId, dstPeerId) }

/-! ### Sending -/

/-- The datagram around a payload. -/
def kcpPacket (t : CliKcpTunnel P) (payload : Bytes) : Bytes :=
  match t.relay with
  | some (srcPeerId, dstPeerId) =>
    udpRelayHeader UDP_RELAY_DATA t.trafficClass srcPeerId dstPeerId ++ payload
  | none => UDP_KCP_DATA :: payload

def sendKcpPacket (t : CliKcpTunnel P) (now : Nat) (payload : Bytes) :
    List TunnelEffect × CliKcpTunnel P :=
  ([.send (t.kcpPacket payload)], { t with lastSendTime := now })

def sendKcpPackets (t : CliKcpTunnel P) (now : Nat) :
    List Bytes → List TunnelEffect × CliKcpTunnel P
  | [] => ([], t)
  | payload :: payloads =>
    let (effects, t) := t.sendKcpPacket now payload
    let (more, t) := t.sendKcpPackets now payloads
    (effects ++ more, t)

def kcpOutput (t : CliKcpTunnel P) (now : Nat) (kcpData : Bytes) :
    List TunnelEffect × CliKcpTunnel P :=
  if t.fecMode ≠ .none then
    let (packets, fecEncoder) := t.fecEncoder.addPacket cm kcpData
    { t with fecEncoder := fecEncoder }.sendKcpPackets now packets
  else t.sendKcpPacket now kcpData

def kcpOutputs (t : CliKcpTunnel P) (now : Nat) : List Bytes → List TunnelEffect × CliKcpTunnel P
  | [] => ([], t)
  | kcpData :: rest =>
    let (effects, t) := t.kcpOutput cm now kcpData
    let (more, t) := t.kcpOutputs now rest
    (effects ++ more, t)

def send (t : CliKcpTunnel P) (data : Bytes) : Int × CliKcpTunnel P :=
  if t.profile = .bulk ∧ 2048 < P.waitsnd t.kcp then (-1, t)
  else
    let (result, kcp) := P.send t.kcp data
    (result, { t with kcp := kcp })

/-! ### Receiving -/

def tryRecv (t : CliKcpTunnel P) : List TunnelEffect × CliKcpTunnel P :=
  let (messages, kcp) := P.recvAll t.kcp
  ((messages.filter fun message => message ≠ [KCP_KEEPALIVE_MARKER]).map .data,
    { t with kcp := kcp })

def input (t : CliKcpTunnel P) (data : Bytes) : List TunnelEffect × CliKcpTunnel P :=
  { t with kcp := P.input t.kcp data }.tryRecv

def inputs (t : CliKcpTunnel P) : List Bytes → List TunnelEffect × CliKcpTunnel P
  | [] => ([], t)
  | payload :: payloads =>
    let (effects, t) := t.input payload
    let (more, t) := t.inputs payloads
    (effects ++ more, t)

def feedInput (t : CliKcpTunnel P) (now : Nat) (data : Bytes) :
    List TunnelEffect × CliKcpTunnel P :=
  let t := { t with lastRecvTime := now, dead := false }
  if t.fecMode ≠ .none then
    let (effects, fecDecoder) := t.fecDecoder.addPacket cm now data
    { t with fecDecoder := fecDecoder }.inputs (FecEffect.outputs effects)
  else t.input data

/-! ### The clock -/

def flushEncoder (t : CliKcpTunnel P) (now : Nat) : List TunnelEffect × CliKcpTunnel P :=
  if t.fecMode ≠ .none then
    let (packets, fecEncoder) := t.fecEncoder.update cm
    { t with fecEncoder := fecEncoder }.sendKcpPackets now packets
  else ([], t)

def update (t : CliKcpTunnel P) (now : Nat) : List TunnelEffect × CliKcpTunnel P :=
  let (outputs, kcp) := P.update t.kcp now
  let (sent, t) := { t with kcp := kcp }.kcpOutputs cm now outputs
  let (received, t) := t.tryRecv
  if t.dead = false ∧ KCP_DEAD_TIMEOUT_MS < elapsedMs now t.lastRecvTime then
    (sent ++ received ++ [.dead], { t with dead := true })
  else
    let t :=
      if KCP_KEEPALIVE_INTERVAL_MS < elapsedMs now t.lastSendTime then
        { t with kcp := (P.send t.kcp [KCP_KEEPALIVE_MARKER]).2 }
      else t
    let (flushed, t) := t.flushEncoder cm now
    let t := if t.fecMode ≠ .none then { t with fecDecoder := t.fecDecoder.cleanup now } else t
    (sent ++ received ++ flushed, t)

end CliKcpTunnel

end VlanConnect

/-
  VlanConnect/Client/OverlayRouting.lean
  ======================================
  **From one adapter to another** (`routeFromTun` and `routeToTun` of
  `client-cli/src/cli_tunnel.cpp`, `onTunnelDataReceived` of `cli_peer.cpp`,
  `handleTcpRelayReceived` of `cli_app.cpp`).

  A client looks a packet's destination up in its table of peers, and the peer
  that gets the packet checks it against its own table before it writes it to
  its adapter.  The two tables of a client, by id and by address, point to the
  same objects in every run (`Reachable.linked`).  The tunnels and the
  application each hold an address and an MTU of their own; while the data plane
  runs they are the same (`Reachable.settled`), so what is written in the end
  depends on the packet alone (`overlay_delivery`).
-/
import VlanConnect.OverlayPacket
import VlanConnect.TunnelManager

namespace VlanConnect

open Std

/-- `CliPeerConnection`, up to what routing reads; `object` tells one allocation from another. -/
structure OverlayPeer where
  object : Nat
  peerId : Nat
  virtualIP : Nat
deriving DecidableEq

/-- `CliTunnelManager` with its tables, and what `CliApp` keeps of the room. -/
structure OverlayEnd extends TunnelManager where
  /-- `m_roomMtu` of the tunnels; their address is `myVirtualIP`. -/
  roomMtu : Nat := ROOM_MTU_DEFAULT
  appVirtualIP : Nat := 0
  appRoomMtu : Nat := ROOM_MTU_DEFAULT
  /-- `m_currentRoomId`. -/
  roomId : Nat := 0
  tunSetupPending : Bool := false
  peerById : ExtTreeMap Nat OverlayPeer := ∅
  peerByVIP : ExtTreeMap Nat OverlayPeer := ∅
  nextObject : Nat := 0

def CLI_LATENCY_PROBE_MARKER : UInt8 := 0xFE
def CLI_LATENCY_PROBE_PING : UInt8 := 0x01
def CLI_LATENCY_PROBE_PONG : UInt8 := 0x02

/-- `handleLatencyProbe` takes the message; its reply is not followed here. -/
def handlesLatencyProbe (data : Bytes) : Bool :=
  decide (6 ≤ data.length ∧ data.head? = some CLI_LATENCY_PROBE_MARKER ∧
    (data[1]? = some CLI_LATENCY_PROBE_PING ∨ data[1]? = some CLI_LATENCY_PROBE_PONG))

variable (K : Crypto)

namespace OverlayEnd

def allowsTraffic (e : OverlayEnd) : Bool := dataPlaneAllowsTraffic e.dataPlaneState e.securityMode

/-! ### The tables -/

def addPeer (e : OverlayEnd) (peerId virtualIP : Nat) : OverlayEnd :=
  if e.peerById.contains peerId then e
  else
    let peer : OverlayPeer := { object := e.nextObject, peerId := peerId, virtualIP := virtualIP }
    { e with
      peerById := e.peerById.insert peerId peer
      peerByVIP := e.peerByVIP.insert virtualIP peer
      nextObject := e.nextObject + 1 }

def removePeer (e : OverlayEnd) (peerId : Nat) : OverlayEnd :=
  match e.peerById[peerId]? with
  | none => e
  | some peer =>
    { e with peerByVIP := e.peerByVIP.erase peer.virtualIP, peerById := e.peerById.erase peerId }

def removeAllPeers (e : OverlayEnd) : OverlayEnd := { e with peerById := ∅, peerByVIP := ∅ }

/-! ### The two directions -/

/-- The peers on which `sendData` is called, in the order of the calls. -/
def routeFromTun (e : OverlayEnd) (ipPacket : Bytes) : List OverlayPeer :=
  if ¬ e.allowsTraffic then []
  else if ¬ (validateOutboundOverlayIpv4 ipPacket e.roomMtu e.myVirtualIP).isValid then []
  else
    let dstIP := extractDstIP ipPacket
    if isBroadcast dstIP ∨ dstIP = VNET_BROADCAST then e.peerById.toList.map Prod.snd
    else e.peerByVIP[dstIP]?.toList

/-- What is written to the adapter. -/
def routeToTun (e : OverlayEnd) (peerId : Nat) (ipPacket : Bytes) : Option Bytes :=
  if ¬ e.allowsTraffic then none
  else
    match e.peerById[peerId]? with
    | none => none
    | some peer =>
      if (validateInboundOverlayIpv4 ipPacket e.roomMtu peer.virtualIP e.myVirtualIP).isValid then
        some ipPacket
      else none

/-- What comes out of a tunnel of the peer. -/
def onTunnelDataReceived (e : OverlayEnd) (peerId : Nat) (data : Bytes) : Option Bytes :=
  if handlesLatencyProbe data then none else e.routeToTun peerId data

/-- What comes over the relay of the server. -/
def handleTcpRelayReceived (e : OverlayEnd) (srcPeerId : Nat) (data : Bytes) : Option Bytes :=
  if ¬ e.allowsTraffic then none
  else
    match e.peerById[srcPeerId]? with
    | none => none
    | some peer =>
      if data = [] then none
      else if 2 ≤ data.length ∧ data.head? = some CLI_LATENCY_PROBE_MARKER then none
      else if ¬ (validateInboundOverlayIpv4 data e.appRoomMtu peer.virtualIP
        e.appVirtualIP).isValid then none
      else some data

/-! ### The room -/

/-- `doJoinRoom` takes over the MTU of the listed room before the server has answered. -/
def doJoinRoom (e : OverlayEnd) (mtu : Nat) : OverlayEnd :=
  if e.roomId ≠ 0 then e else { e with appRoomMtu := normalizeRoomMtu mtu }

/-- `onRoomCreated` and `onJoinResponse`: the room's address and MTU go to both. -/
def enterRoom (e : OverlayEnd) (roomId virtualIP mtu : Nat) : OverlayEnd :=
  if e.tunSetupPending ∨ e.roomId ≠ 0 then e
  else
    { e with
      roomId := roomId
      appVirtualIP := virtualIP
      appRoomMtu := normalizeRoomMtu mtu
      myVirtualIP := virtualIP
      roomMtu := normalizeRoomMtu (normalizeRoomMtu mtu)
      tunSetupPending := true }

/-- Of `startTunDataPlane`, which is called only while a setup is pending. -/
def startTunDataPlane (e : OverlayEnd) (running requiresUdp bindOk : Bool) : OverlayEnd :=
  if ¬ e.tunSetupPending then e
  else
    let tunnel := { e.toTunnelManager with tun := some running }
    { e with toTunnelManager := (CliTunnelManager.startDataPlane K tunnel requiresUdp bindOk).2 }

def finishRoomSetup (e : OverlayEnd) : OverlayEnd := { e with tunSetupPending := false }

def teardownTun (e : OverlayEnd) : OverlayEnd :=
  { e.removeAllPeers with
    tunSetupPending := false
    toTunnelManager := { e.toTunnelManager.stopDataPlane with tun := none } }

def resetRoomRuntimeState (e : OverlayEnd) : OverlayEnd :=
  { e with
    roomId := 0
    appVirtualIP := 0
    appRoomMtu := ROOM_MTU_DEFAULT
    myVirtualIP := 0
    roomMtu := normalizeRoomMtu ROOM_MTU_DEFAULT }

/-- `beginGracefulDisconnect`. -/
def closeSession (e : OverlayEnd) : OverlayEnd :=
  let e := e.teardownTun
  { e with toTunnelManager := e.toTunnelManager.clearSecurityContext }

/-- `finishGracefulDisconnect` and `onSignalDisconnected`: the tunnels keep their copies. -/
def onSignalDisconnected (e : OverlayEnd) : OverlayEnd :=
  { e.closeSession with roomId := 0, appVirtualIP := 0, appRoomMtu := ROOM_MTU_DEFAULT }

/-- The command `server`, after the session is closed. -/
def changeServer (e : OverlayEnd) : OverlayEnd :=
  { e.teardownTun with roomId := 0, appVirtualIP := 0 }

end OverlayEnd

/-! ### Runs -/

/-- What changes the tables, the data plane or the two copies. -/
inductive OverlayEvent where
  | setServerEndpoint (ip port : Nat)
  | onLoginResponse (peerId sessionId : Nat) (master : Bytes)
  | doJoinRoom (mtu : Nat)
  | enterRoom (roomId virtualIP mtu : Nat)
  | startTunDataPlane (running requiresUdp bindOk : Bool)
  | finishRoomSetup
  | addPeer (peerId virtualIP : Nat)
  | removePeer (peerId : Nat)
  | udpSend (data : Bytes)
  | teardownTun
  | leaveRoom
  | closeSession
  | onSignalDisconnected
  | changeServer

namespace OverlayEnd

def step (e : OverlayEnd) : OverlayEvent → OverlayEnd
  | .setServerEndpoint ip port => { e with serverIP := ip, serverPort := port }
  | .onLoginResponse peerId sessionId master =>
    let tunnel := { e.toTunnelManager with myPeerId := peerId }
    { e with toTunnelManager := (tunnel.installSecureSession K sessionId master).2 }
  | .doJoinRoom mtu => e.doJoinRoom mtu
  | .enterRoom roomId virtualIP mtu => e.enterRoom roomId virtualIP mtu
  | .startTunDataPlane running requiresUdp bindOk =>
    e.startTunDataPlane K running requiresUdp bindOk
  | .finishRoomSetup => e.finishRoomSetup
  | .addPeer peerId virtualIP => e.addPeer peerId virtualIP
  | .removePeer peerId => e.removePeer peerId
  | .udpSend data =>
    { e with toTunnelManager := (CliTunnelManager.udpSend K e.toTunnelManager data).2 }
  | .teardownTun => e.teardownTun
  -- every caller of `resetRoomRuntimeState` has torn the adapter down
  | .leaveRoom => e.teardownTun.resetRoomRuntimeState
  | .closeSession => e.closeSession
  | .onSignalDisconnected => e.onSignalDisconnected
  | .changeServer => e.changeServer

/-- No other peer in the table has the address. -/
def Free (e : OverlayEnd) (peerId virtualIP : Nat) : Prop :=
  ∀ (i : Nat) (p : OverlayPeer), e.peerById[i]? = some p → peerId ≠ i → p.virtualIP ≠ virtualIP

/-- The server gives each member of a room an address of its own, and the client's check of its
    messages lets no room 0 through. -/
def Promised (e : OverlayEnd) : OverlayEvent → Prop
  | .addPeer peerId virtualIP => e.Free peerId virtualIP
  | .enterRoom roomId _ _ => roomId ≠ 0
  | _ => True

/-- The events come in any order: what `CliApp` asks beyond the guards above is left open. -/
inductive Reachable : OverlayEnd → Prop
  | init : Reachable {}
  | step {e : OverlayEnd} (event : OverlayEvent) (h : e.Promised event) : Reachable e →
      Reachable (e.step K event)

/-- Both tables hold the same objects: no pointer of the one is to an object that the
    other has freed. -/
structure Linked (e : OverlayEnd) : Prop where
  id : ∀ (i : Nat) (p : OverlayPeer), e.peerById[i]? = some p → p.peerId = i
  live : ∀ (v : Nat) (p : OverlayPeer), e.peerByVIP[v]? = some p → p.virtualIP = v ∧
      e.peerById[p.peerId]? = some p
  found : ∀ (i : Nat) (p : OverlayPeer), e.peerById[i]? = some p →
      e.peerByVIP[p.virtualIP]? = some p

variable {K} {e : OverlayEnd}

theorem Linked.addPeer (h : e.Linked) {peerId virtualIP : Nat} (hfree : e.Free peerId virtualIP) :
    (e.addPeer peerId virtualIP).Linked := by
  unfold OverlayEnd.addPeer
  split
  · exact h
  next hnew =>
  have hnone : e.peerById[peerId]? = none := by
    rw [ExtTreeMap.contains_eq_isSome_getElem?] at hnew
    simpa using hnew
  constructor
  · intro i p hp
    simp only [ExtTreeMap.getElem?_insert, LawfulEqOrd.compare_eq_iff_eq] at hp
    split at hp
    · next heq =>
      obtain rfl := Option.some.inj hp
      exact heq
    · exact h.id i p hp
  · intro v p hp
    simp only [ExtTreeMap.getElem?_insert, LawfulEqOrd.compare_eq_iff_eq] at hp ⊢
    split at hp
    · next heq =>
      obtain rfl := Option.some.inj hp
      exact ⟨heq, if_pos rfl⟩
    · obtain ⟨hvip, hlive⟩ := h.live v p hp
      -- an old object keeps its place, since the id is new
      have hne : ¬ peerId = p.peerId := by
        intro heq
        rw [← heq, hnone] at hlive
        cases hlive
      exact ⟨hvip, (if_neg hne).trans hlive⟩
  · intro i p hp
    simp only [ExtTreeMap.getElem?_insert, LawfulEqOrd.compare_eq_iff_eq] at hp ⊢
    split at hp
    · obtain rfl := Option.some.inj hp
      exact if_pos rfl
    · next hother =>
      have hne : ¬ virtualIP = p.virtualIP := fun heq => hfree i p hp hother heq.symm
      exact (if_neg hne).trans (h.found i p hp)

theorem Linked.removePeer (h : e.Linked) (peerId : Nat) : (e.removePeer peerId).Linked := by
  unfold OverlayEnd.removePeer
  split
  · exact h
  next peer hpeer =>
  have hself := h.found peerId peer hpeer
  -- the entry that goes is the only one with its address
  have hother : ∀ (i : Nat) (p : OverlayPeer), e.peerById[i]? = some p → ¬ peerId = i →
      ¬ peer.virtualIP = p.virtualIP := by
    intro i p hp hne heq
    have hfound := h.found i p hp
    rw [← heq, hself] at hfound
    obtain rfl := Option.some.inj hfound
    exact hne ((h.id peerId peer hpeer).symm.trans (h.id i peer hp))
  constructor
  · intro i p hp
    simp only [ExtTreeMap.getElem?_erase, LawfulEqOrd.compare_eq_iff_eq] at hp
    split at hp
    · cases hp
    · exact h.id i p hp
  · intro v p hp
    simp only [ExtTreeMap.getElem?_erase, LawfulEqOrd.compare_eq_iff_eq] at hp ⊢
    split at hp
    · cases hp
    next hne =>
    obtain ⟨hvip, hlive⟩ := h.live v p hp
    refine ⟨hvip, (if_neg ?_).trans hlive⟩
    intro heq
    rw [← heq, hpeer] at hlive
    obtain rfl := Option.some.inj hlive
    exact hne hvip
  · intro i p hp
    simp only [ExtTreeMap.getElem?_erase, LawfulEqOrd.compare_eq_iff_eq] at hp ⊢
    split at hp
    · cases hp
    next hne =>
    exact (if_neg (hother i p hp hne)).trans (h.found i p hp)

theorem linked_of_empty (h₁ : e.peerById = ∅) (h₂ : e.peerByVIP = ∅) : e.Linked := by
  constructor
  · intro i p hp
    rw [h₁, ExtTreeMap.getElem?_empty] at hp
    cases hp
  · intro v p hp
    rw [h₂, ExtTreeMap.getElem?_empty] at hp
    cases hp
  · intro i p hp
    rw [h₁, ExtTreeMap.getElem?_empty] at hp
    cases hp

/-- The tables are as before. -/
structure SameTables (e' e : OverlayEnd) : Prop where
  peerById : e'.peerById = e.peerById
  peerByVIP : e'.peerByVIP = e.peerByVIP

theorem doJoinRoom_tables (e : OverlayEnd) (mtu : Nat) : (e.doJoinRoom mtu).SameTables e := by
  unfold doJoinRoom
  split
  · exact ⟨rfl, rfl⟩
  · exact ⟨rfl, rfl⟩

theorem enterRoom_tables (e : OverlayEnd) (roomId virtualIP mtu : Nat) :
    (e.enterRoom roomId virtualIP mtu).SameTables e := by
  unfold enterRoom
  split
  · exact ⟨rfl, rfl⟩
  · exact ⟨rfl, rfl⟩

theorem startTunDataPlane_tables (e : OverlayEnd) (running requiresUdp bindOk : Bool) :
    (e.startTunDataPlane K running requiresUdp bindOk).SameTables e := by
  unfold startTunDataPlane
  split
  · exact ⟨rfl, rfl⟩
  · exact ⟨rfl, rfl⟩

theorem Linked.congr (h : e.Linked) {e' : OverlayEnd} (hsame : e'.SameTables e) : e'.Linked := by
  constructor
  · rw [hsame.peerById]
    exact h.id
  · rw [hsame.peerById, hsame.peerByVIP]
    exact h.live
  · rw [hsame.peerById, hsame.peerByVIP]
    exact h.found

theorem Linked.step (h : e.Linked) {event : OverlayEvent} (hevent : e.Promised event) :
    (e.step K event).Linked := by
  cases event with
  | addPeer peerId virtualIP => exact h.addPeer hevent
  | removePeer peerId => exact h.removePeer peerId
  | teardownTun => exact linked_of_empty rfl rfl
  | leaveRoom => exact linked_of_empty rfl rfl
  | closeSession => exact linked_of_empty rfl rfl
  | onSignalDisconnected => exact linked_of_empty rfl rfl
  | changeServer => exact linked_of_empty rfl rfl
  | setServerEndpoint ip port => exact h.congr ⟨rfl, rfl⟩
  | onLoginResponse peerId sessionId master => exact h.congr ⟨rfl, rfl⟩
  | finishRoomSetup => exact h.congr ⟨rfl, rfl⟩
  | udpSend data => exact h.congr ⟨rfl, rfl⟩
  | doJoinRoom mtu => exact h.congr (doJoinRoom_tables e mtu)
  | enterRoom roomId virtualIP mtu => exact h.congr (enterRoom_tables e roomId virtualIP mtu)
  | startTunDataPlane running requiresUdp bindOk =>
    exact h.congr (startTunDataPlane_tables e running requiresUdp bindOk)

theorem Reachable.linked (h : e.Reachable K) : e.Linked := by
  induction h with
  | init => exact linked_of_empty rfl rfl
  | step event hevent _ ih => exact ih.step hevent

/-! ### The two copies of address and MTU -/

/-- The application and its tunnels are in the same room. -/
structure InRoom (e : OverlayEnd) : Prop where
  roomId : e.roomId ≠ 0
  virtualIP : e.appVirtualIP = e.myVirtualIP
  roomMtu : e.appRoomMtu = e.roomMtu

/-- The adapter is set up or the data plane runs. -/
def Busy (e : OverlayEnd) : Prop := e.tunSetupPending = true ∨ e.dataPlaneState = .running

def Settled (e : OverlayEnd) : Prop := e.Busy → e.InRoom

theorem settled_of_idle (hpending : e.tunSetupPending = false)
    (hstopped : e.dataPlaneState = .stopped) :
    e.Settled := by
  rintro (hbusy | hbusy)
  · rw [hpending] at hbusy
    cases hbusy
  · rw [hstopped] at hbusy
    cases hbusy

/-- The room, both copies included, is as before. -/
structure SameRoom (e' e : OverlayEnd) : Prop where
  roomId : e'.roomId = e.roomId
  appVirtualIP : e'.appVirtualIP = e.appVirtualIP
  appRoomMtu : e'.appRoomMtu = e.appRoomMtu
  myVirtualIP : e'.myVirtualIP = e.myVirtualIP
  roomMtu : e'.roomMtu = e.roomMtu

theorem Settled.keep (h : e.Settled) {e' : OverlayEnd} (hsame : e'.SameRoom e)
    (hbusy : e'.Busy → e.Busy) :
    e'.Settled := by
  intro hbusy'
  have hroom := h (hbusy hbusy')
  constructor
  · rw [hsame.roomId]
    exact hroom.roomId
  · rw [hsame.appVirtualIP, hsame.myVirtualIP]
    exact hroom.virtualIP
  · rw [hsame.appRoomMtu, hsame.roomMtu]
    exact hroom.roomMtu

@[simp] theorem normalizeRoomMtu_idem (mtu : Nat) :
    normalizeRoomMtu (normalizeRoomMtu mtu) = normalizeRoomMtu mtu := by
  unfold normalizeRoomMtu
  split
  · rfl
  · rfl

/-- The address stays, and the data plane does not start. -/
structure Quiet (t' t : TunnelManager) : Prop where
  myVirtualIP : t'.myVirtualIP = t.myVirtualIP
  running : t'.dataPlaneState = .running → t.dataPlaneState = .running

theorem quiet_clearSecurityContext (t : TunnelManager) : Quiet t.clearSecurityContext t := by
  unfold TunnelManager.clearSecurityContext
  split
  · exact ⟨rfl, id⟩
  · exact ⟨rfl, id⟩

theorem quiet_installSecureSession (t : TunnelManager) (sessionId : Nat) (master : Bytes) :
    Quiet (t.installSecureSession K sessionId master).2 t := by
  have hclear := quiet_clearSecurityContext t
  unfold TunnelManager.installSecureSession
  split
  · exact ⟨rfl, id⟩
  · dsimp only
    split
    · exact hclear
    · exact ⟨hclear.myVirtualIP, hclear.running⟩

theorem quiet_udpSend (t : TunnelManager) (data : Bytes) :
    Quiet (CliTunnelManager.udpSend K t data).2 t := by
  unfold CliTunnelManager.udpSend TunnelManager.sendEncrypted
  split
  · exact ⟨rfl, id⟩
  split
  · exact ⟨rfl, id⟩
  dsimp only
  split
  · -- the session is used up
    exact ⟨rfl, fun hrun => absurd hrun (by simp [TunnelManager.stopDataPlane])⟩
  · exact ⟨rfl, id⟩

theorem quiet_sendUdpKeepalive (t : TunnelManager) :
    Quiet (CliTunnelManager.sendUdpKeepalive K t).2 t := by
  unfold CliTunnelManager.sendUdpKeepalive TunnelManager.keepalive
  split
  · exact ⟨rfl, id⟩
  split
  · exact ⟨rfl, id⟩
  · exact quiet_udpSend t _

theorem startDataPlane_myVirtualIP (t : TunnelManager) (requiresUdp bindOk : Bool) :
    (CliTunnelManager.startDataPlane K t requiresUdp bindOk).2.myVirtualIP = t.myVirtualIP := by
  unfold CliTunnelManager.startDataPlane
  split
  · rfl
  split
  · rfl
  split
  · rfl
  dsimp only
  split
  · exact (quiet_sendUdpKeepalive _).myVirtualIP
  · rfl

theorem Settled.addPeer (h : e.Settled) (peerId virtualIP : Nat) :
    (e.addPeer peerId virtualIP).Settled := by
  unfold OverlayEnd.addPeer
  split
  · exact h
  · exact h.keep ⟨rfl, rfl, rfl, rfl, rfl⟩ id

theorem Settled.removePeer (h : e.Settled) (peerId : Nat) : (e.removePeer peerId).Settled := by
  unfold OverlayEnd.removePeer
  split
  · exact h
  · exact h.keep ⟨rfl, rfl, rfl, rfl, rfl⟩ id

/-- The application's own MTU changes outside of rooms only. -/
theorem Settled.doJoinRoom (h : e.Settled) (mtu : Nat) : (e.doJoinRoom mtu).Settled := by
  unfold OverlayEnd.doJoinRoom
  split
  · exact h
  next hnone =>
  intro hbusy
  exact absurd (h hbusy).roomId hnone

/-- **Entering a room**: the setup begins with equal copies. -/
theorem Settled.enterRoom (h : e.Settled) {roomId : Nat} (hid : roomId ≠ 0) (virtualIP mtu : Nat) :
    (e.enterRoom roomId virtualIP mtu).Settled := by
  unfold OverlayEnd.enterRoom
  split
  · exact h
  · intro _
    exact ⟨hid, rfl, (normalizeRoomMtu_idem mtu).symm⟩

/-- **Starting**: only a pending setup gets here, so the copies are equal. -/
theorem Settled.startTunDataPlane (h : e.Settled) (running requiresUdp bindOk : Bool) :
    (e.startTunDataPlane K running requiresUdp bindOk).Settled := by
  unfold OverlayEnd.startTunDataPlane
  split
  · exact h
  next hpending =>
  have hbusy : e.Busy := Or.inl (by simpa using hpending)
  exact h.keep ⟨rfl, rfl, rfl, startDataPlane_myVirtualIP _ _ _, rfl⟩ fun _ => hbusy

theorem Settled.step (h : e.Settled) {event : OverlayEvent} (hevent : e.Promised event) :
    (e.step K event).Settled := by
  cases event with
  | setServerEndpoint ip port => exact h.keep ⟨rfl, rfl, rfl, rfl, rfl⟩ id
  | onLoginResponse peerId sessionId master =>
    have hquiet := quiet_installSecureSession (K := K) { e.toTunnelManager with
      myPeerId := peerId } sessionId master
    exact h.keep ⟨rfl, rfl, rfl, hquiet.myVirtualIP, rfl⟩ (Or.imp_right hquiet.running)
  | doJoinRoom mtu => exact h.doJoinRoom mtu
  | enterRoom roomId virtualIP mtu => exact h.enterRoom hevent virtualIP mtu
  | startTunDataPlane running requiresUdp bindOk =>
    exact h.startTunDataPlane running requiresUdp bindOk
  | finishRoomSetup =>
    refine h.keep ⟨rfl, rfl, rfl, rfl, rfl⟩ ?_
    rintro (hpending | hrun)
    · cases hpending
    · exact Or.inr hrun
  | addPeer peerId virtualIP => exact h.addPeer peerId virtualIP
  | removePeer peerId => exact h.removePeer peerId
  | udpSend data =>
    have hquiet := quiet_udpSend (K := K) e.toTunnelManager data
    exact h.keep ⟨rfl, rfl, rfl, hquiet.myVirtualIP, rfl⟩ (Or.imp_right hquiet.running)
  -- whatever forgets the room has stopped the data plane
  | teardownTun => exact settled_of_idle rfl rfl
  | leaveRoom => exact settled_of_idle rfl rfl
  | closeSession => exact settled_of_idle rfl rfl
  | onSignalDisconnected => exact settled_of_idle rfl rfl
  | changeServer => exact settled_of_idle rfl rfl

/-- **In every run** the copies are equal while the data plane runs. -/
theorem Reachable.settled (h : e.Reachable K) : e.Settled := by
  induction h with
  | init => exact settled_of_idle rfl rfl
  | step event hevent _ ih => exact ih.step hevent

theorem Reachable.inRoom (h : e.Reachable K) (hon : e.allowsTraffic = true) : e.InRoom := by
  refine h.settled (Or.inr ?_)
  simp only [allowsTraffic, dataPlaneAllowsTraffic, Bool.and_eq_true, decide_eq_true_eq] at hon
  exact hon.1

/-! ### What is sent and what is written -/

/-- The peer is in the table, under this address. -/
def Knows (e : OverlayEnd) (peerId virtualIP : Nat) : Prop :=
  ∃ p, e.peerById[peerId]? = some p ∧ p.virtualIP = virtualIP

def HandsTo (e : OverlayEnd) (peerId : Nat) (ipPacket : Bytes) : Prop :=
  ∃ p ∈ e.routeFromTun ipPacket, p.peerId = peerId

theorem mem_broadcast (h : e.Linked) {p : OverlayPeer} :
    p ∈ e.peerById.toList.map Prod.snd ↔ e.peerById[p.peerId]? = some p := by
  constructor
  · intro hp
    obtain ⟨⟨i, p'⟩, hmem, rfl⟩ := List.mem_map.mp hp
    have hget := ExtTreeMap.mem_toList_iff_getElem?_eq_some.mp hmem
    rw [h.id i p' hget]
    exact hget
  · intro hp
    exact List.mem_map.mpr ⟨(p.peerId, p), ExtTreeMap.mem_toList_iff_getElem?_eq_some.mpr hp, rfl⟩

/-- The peers that a packet goes to: all of them, or the one with the address. -/
theorem mem_routeFromTun (h : e.Linked) {ipPacket : Bytes} {p : OverlayPeer} :
    p ∈ e.routeFromTun ipPacket ↔
      (e.allowsTraffic = true ∧ e.myVirtualIP ≠ 0 ∧
        WellFormed ipPacket e.roomMtu e.myVirtualIP (extractDstIP ipPacket)) ∧
      e.peerById[p.peerId]? = some p ∧
        (isBroadcast (extractDstIP ipPacket) = true ∨ extractDstIP ipPacket = p.virtualIP) := by
  unfold routeFromTun
  split
  · next hoff =>
    constructor
    · intro hp
      cases hp
    · rintro ⟨⟨hon, -⟩, -⟩
      exact absurd hon hoff
  next hon =>
  split
  · next hbad =>
    constructor
    · intro hp
      cases hp
    · rintro ⟨⟨-, hvip, hwf⟩, -⟩
      have hvalid := outbound_valid_iff.mpr ⟨hvip, { hwf with destination := rfl }⟩
      exact absurd hvalid hbad
  next hvalid =>
  obtain ⟨hvip, hwf⟩ := outbound_valid_iff.mp (not_not.mp hvalid)
  have hdst := hwf.extractDstIP_eq
  rw [← hdst] at hwf
  dsimp only
  have hsends : e.allowsTraffic = true ∧ e.myVirtualIP ≠ 0 ∧
      WellFormed ipPacket e.roomMtu e.myVirtualIP (extractDstIP ipPacket) :=
        ⟨not_not.mp hon, hvip, hwf⟩
  split
  · next hall =>
    have hbroadcast : isBroadcast (extractDstIP ipPacket) = true := by
      rcases hall with hall | hall
      · exact hall
      · rw [hall]
        decide
    rw [mem_broadcast h]
    constructor
    · intro hp
      exact ⟨hsends, hp, Or.inl hbroadcast⟩
    · rintro ⟨-, hp, -⟩
      exact hp
  · next hone =>
    rw [Option.mem_toList]
    constructor
    · intro hp
      obtain ⟨heq, hlive⟩ := h.live _ p hp
      exact ⟨hsends, hlive, Or.inr heq.symm⟩
    · rintro ⟨-, hp, hall | heq⟩
      · exact absurd (Or.inl hall) hone
      · rw [heq]
        exact h.found _ p hp

theorem routeToTun_eq_some_iff {peerId : Nat} {ipPacket q : Bytes} :
    e.routeToTun peerId ipPacket = some q ↔
      q = ipPacket ∧ e.allowsTraffic = true ∧ ∃ p, e.peerById[peerId]? = some p ∧
        (validateInboundOverlayIpv4 ipPacket e.roomMtu p.virtualIP e.myVirtualIP).isValid =
        true := by
  unfold routeToTun
  split
  · next hoff =>
    constructor
    · intro h
      cases h
    · rintro ⟨-, hon, -⟩
      exact absurd hon hoff
  next hon =>
  split
  · next hnone =>
    constructor
    · intro h
      cases h
    · rintro ⟨-, -, p, hp, -⟩
      rw [hnone] at hp
      cases hp
  next peer hpeer =>
  split
  · next hvalid =>
    constructor
    · intro h
      exact ⟨(Option.some.inj h).symm, not_not.mp hon, peer, hpeer, hvalid⟩
    · rintro ⟨rfl, -⟩
      rfl
  · next hbad =>
    constructor
    · intro h
      cases h
    · rintro ⟨-, -, p, hp, hvalid⟩
      rw [hpeer] at hp
      obtain rfl := Option.some.inj hp
      exact absurd hvalid hbad

/-- The relay path makes the same check, with the application's own address and MTU. -/
theorem handleTcpRelayReceived_eq_some_iff {srcPeerId : Nat} {data q : Bytes} (hdata : data ≠ [])
    (hhead : data.head? ≠ some CLI_LATENCY_PROBE_MARKER) :
    e.handleTcpRelayReceived srcPeerId data = some q ↔
      q = data ∧ e.allowsTraffic = true ∧ ∃ p, e.peerById[srcPeerId]? = some p ∧
        (validateInboundOverlayIpv4 data e.appRoomMtu p.virtualIP e.appVirtualIP).isValid =
        true := by
  unfold handleTcpRelayReceived
  split
  · next hoff =>
    constructor
    · intro h
      cases h
    · rintro ⟨-, hon, -⟩
      exact absurd hon hoff
  next hon =>
  split
  · next hnone =>
    constructor
    · intro h
      cases h
    · rintro ⟨-, -, p, hp, -⟩
      rw [hnone] at hp
      cases hp
  next peer hpeer =>
  rw [if_neg (fun h => hhead h.2)]
  split
  · next hbad =>
    constructor
    · intro h
      cases h
    · rintro ⟨-, -, p, hp, hvalid⟩
      rw [hpeer] at hp
      obtain rfl := Option.some.inj hp
      exact absurd hvalid hbad
  · next hvalid =>
    constructor
    · intro h
      exact ⟨(Option.some.inj h).symm, not_not.mp hon, peer, hpeer, not_not.mp hvalid⟩
    · rintro ⟨rfl, -⟩
      rfl

/-- Packets of `a` on their way to `b`. -/
structure Delivery (sender receiver : OverlayEnd) (a b : Nat) : Prop where
  /-- `sendData` is called on live objects only. -/
  live : ∀ ipPacket, ∀ p ∈ sender.routeFromTun ipPacket, sender.peerById[p.peerId]? = some p
  /-- What is handed over: own packets to the peer's address, and to any address that ends
      in 255. -/
  handed : ∀ ipPacket, sender.HandsTo b ipPacket ↔
    (sender.allowsTraffic = true ∧ sender.myVirtualIP ≠ 0 ∧
      WellFormed ipPacket sender.roomMtu sender.myVirtualIP (extractDstIP ipPacket)) ∧
      (isBroadcast (extractDstIP ipPacket) = true ∨ extractDstIP ipPacket = receiver.myVirtualIP)
  /-- Tunnel or relay: the receiver decides the same. -/
  paths : ∀ ipPacket, sender.HandsTo b ipPacket →
    receiver.onTunnelDataReceived a ipPacket = receiver.handleTcpRelayReceived a ipPacket
  /-- What is written: of the addresses that end in 255, two. -/
  written : ∀ ipPacket, sender.HandsTo b ipPacket →
    ∀ q, receiver.onTunnelDataReceived a ipPacket = some q ↔
    q = ipPacket ∧ receiver.allowsTraffic = true ∧ receiver.myVirtualIP ≠ 0 ∧
      (extractDstIP ipPacket = receiver.myVirtualIP ∨ extractDstIP ipPacket = VNET_BROADCAST ∨
        extractDstIP ipPacket = 0xffffffff)

/-- **Delivery on the overlay**, after any runs of the two ends, if each has the other in
    its table and their MTU is the same: what the receiver's filter refuses of the packets
    it is sent are those to the broadcast address of another network. -/
theorem overlay_delivery {sender receiver : OverlayEnd} {a b : Nat} (hsender : sender.Reachable K)
    (hreceiver : receiver.Reachable K) (hto : sender.Knows b receiver.myVirtualIP)
    (hback : receiver.Knows a sender.myVirtualIP) (hmtu : receiver.roomMtu = sender.roomMtu) :
    Delivery sender receiver a b := by
  have hlinked := hsender.linked
  obtain ⟨peer, hpeer, hvip⟩ := hto
  obtain ⟨source, hsource, hsourceVip⟩ := hback
  have hid := hlinked.id b peer hpeer
  have hhanded : ∀ ipPacket, sender.HandsTo b ipPacket ↔
      (sender.allowsTraffic = true ∧ sender.myVirtualIP ≠ 0 ∧
        WellFormed ipPacket sender.roomMtu sender.myVirtualIP (extractDstIP ipPacket)) ∧
        (isBroadcast (extractDstIP ipPacket) = true ∨
          extractDstIP ipPacket = receiver.myVirtualIP) := by
    intro ipPacket
    constructor
    · rintro ⟨p, hp, rfl⟩
      obtain ⟨hsends, hget, hdst⟩ := (mem_routeFromTun hlinked).mp hp
      rw [hpeer] at hget
      obtain rfl := Option.some.inj hget
      rw [hvip] at hdst
      exact ⟨hsends, hdst⟩
    · rintro ⟨hsends, hdst⟩
      rw [← hvip] at hdst
      refine ⟨peer, (mem_routeFromTun hlinked).mpr ⟨hsends, ?_, hdst⟩, hid⟩
      rw [hid]
      exact hpeer
  have htunnel : ∀ ipPacket, sender.HandsTo b ipPacket →
      receiver.onTunnelDataReceived a ipPacket = receiver.routeToTun a ipPacket := by
    intro ipPacket hhands
    obtain ⟨⟨-, -, hwf⟩, -⟩ := (hhanded ipPacket).mp hhands
    have hprobe : handlesLatencyProbe ipPacket = false := by
      apply decide_eq_false
      intro h
      exact hwf.head_ne h.2.1
    unfold onTunnelDataReceived
    rw [hprobe]
    rfl
  constructor
  · intro ipPacket p hp
    exact ((mem_routeFromTun hlinked).mp hp).2.1
  · exact hhanded
  · intro ipPacket hhands
    obtain ⟨⟨-, -, hwf⟩, -⟩ := (hhanded ipPacket).mp hhands
    have hlen : 20 ≤ ipPacket.length := hwf.header.trans hwf.headerFits
    have hne : ipPacket ≠ [] := by
      rintro rfl
      cases hlen
    rw [htunnel ipPacket hhands]
    apply Option.ext
    intro q
    rw [routeToTun_eq_some_iff, handleTcpRelayReceived_eq_some_iff hne hwf.head_ne]
    refine and_congr_right fun _ => and_congr_right fun hon => ?_
    have hroom := hreceiver.inRoom hon
    rw [hroom.virtualIP, hroom.roomMtu]
  · intro ipPacket hhands q
    obtain ⟨⟨-, hown, hwf⟩, -⟩ := (hhanded ipPacket).mp hhands
    rw [htunnel ipPacket hhands, routeToTun_eq_some_iff]
    constructor
    · rintro ⟨hq, hon, p, hp, hvalid⟩
      obtain ⟨-, hlocal, dst, hwf', hdst⟩ := inbound_valid_iff.mp hvalid
      rw [hwf'.extractDstIP_eq]
      exact ⟨hq, hon, hlocal, hdst⟩
    · rintro ⟨hq, hon, hlocal, hdst⟩
      refine ⟨hq, hon, source, hsource, inbound_valid_iff.mpr ?_⟩
      rw [hsourceVip, hmtu]
      exact ⟨hown, hlocal, _, hwf, hdst⟩

variable (K) in
def run (events : List OverlayEvent) : OverlayEnd := events.foldl (step K) {}

/-- A client logs in, enters a room at the address and meets one other member. -/
def joined (myPeerId virtualIP peerId peerVirtualIP : Nat) : List OverlayEvent :=
  [.setServerEndpoint 0x01020304 20000, .onLoginResponse myPeerId 7 (List.replicate 32 1),
    .doJoinRoom 1280, .enterRoom 5 virtualIP 1280, .startTunDataPlane true false false,
    .finishRoomSetup, .addPeer peerId peerVirtualIP]

theorem reachable_joined (myPeerId virtualIP peerId peerVirtualIP : Nat) :
    (run K (joined myPeerId virtualIP peerId peerVirtualIP)).Reachable K := by
  have hserver : (run K [.setServerEndpoint 0x01020304 20000]).Reachable K :=
    Reachable.init.step (.setServerEndpoint 0x01020304 20000) trivial
  have hlogin := hserver.step (.onLoginResponse myPeerId 7 (List.replicate 32 1)) trivial
  have henter :=
    (hlogin.step (.doJoinRoom 1280) trivial).step (.enterRoom 5 virtualIP 1280) (by simp [Promised])
  refine ((henter.step (.startTunDataPlane true false false) trivial).step .finishRoomSetup
    trivial).step
    (.addPeer peerId peerVirtualIP) ?_
  -- the table is still empty
  intro i p hp
  simp only [step, finishRoomSetup] at hp
  rw [(startTunDataPlane_tables _ _ _ _).peerById, (enterRoom_tables _ _ _ _).peerById,
    (doJoinRoom_tables _ _).peerById] at hp
  exact absurd (hp.symm.trans ExtTreeMap.getElem?_empty) (by simp)

theorem overlay_delivery_two :
    Delivery (run Crypto.sample (joined 1 0x0A0A0001 2 0x0A0A0002))
        (run Crypto.sample (joined 2 0x0A0A0002 1 0x0A0A0001)) 1 2 ∧
      (run Crypto.sample (joined 2 0x0A0A0002 1 0x0A0A0001)).allowsTraffic = true :=
  ⟨overlay_delivery (K := Crypto.sample) (reachable_joined _ _ _ _) (reachable_joined _ _ _ _)
      ⟨⟨0, 2, 0x0A0A0002⟩, by decide +kernel, by decide +kernel⟩
      ⟨⟨0, 1, 0x0A0A0001⟩, by decide +kernel, by decide +kernel⟩ (by decide +kernel),
    by decide +kernel⟩

end OverlayEnd

end VlanConnect

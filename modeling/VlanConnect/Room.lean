/-
  VlanConnect/Room.lean
  =====================
  **Session states, rooms and leases** (`server/src/room.h`).

  A room holds a lease for every member, online or waiting for a resume.  The
  time stamp of the last departure (`emptyTimestamp`) is left out: no function
  reads it.
-/
import VlanConnect.Protocol
import Std.Data.ExtTreeMap
import Std.Data.ExtTreeSet

namespace VlanConnect

/-! ### Session states -/

inductive SessionState where
  | awaitHello | awaitServerAuth | awaitLogin | loggedIn | awaitRoomPassword | resumePending
  | inRoom | closing
deriving DecidableEq

def sessionHasPeerIdentity : SessionState → Bool
  | .loggedIn | .awaitRoomPassword | .resumePending | .inRoom => true
  | _ => false

def sessionCanBindDataChannel (state : SessionState) : Bool := sessionHasPeerIdentity state

def isClientHandshakeMessage (msgType : UInt8) : Bool :=
  [MSG_CLIENT_HELLO, MSG_SERVER_AUTH, MSG_LOGIN].contains msgType

def isKnownClientSignalMessage (msgType : UInt8) : Bool :=
  [MSG_CLIENT_HELLO, MSG_SERVER_AUTH, MSG_LOGIN, MSG_CREATE_ROOM, MSG_JOIN_ROOM, MSG_RESUME_ROOM,
    MSG_LEAVE_ROOM, MSG_LOGOUT, MSG_LIST_ROOMS, MSG_REQUEST_RELAY, MSG_AUTH_RESPONSE, MSG_PING,
    MSG_TCP_RELAY_DATA, MSG_ENCRYPTED].contains msgType

inductive SessionMessageAction where
  | dispatch | sendStateError | close | ignoreUnknown
deriving DecidableEq

/-- The types a client may send in a state. -/
def allowedClientSignalMessages : SessionState → List UInt8
  | .awaitHello => [MSG_CLIENT_HELLO]
  | .awaitServerAuth => [MSG_SERVER_AUTH]
  | .awaitLogin => [MSG_LOGIN, MSG_PING]
  | .loggedIn => [MSG_CREATE_ROOM, MSG_JOIN_ROOM, MSG_LIST_ROOMS, MSG_LOGOUT, MSG_PING]
  | .awaitRoomPassword => [MSG_AUTH_RESPONSE, MSG_LIST_ROOMS, MSG_LOGOUT, MSG_PING]
  | .resumePending => [MSG_RESUME_ROOM, MSG_LIST_ROOMS, MSG_LOGOUT, MSG_PING]
  | .inRoom => [MSG_LEAVE_ROOM, MSG_LOGOUT, MSG_LIST_ROOMS, MSG_REQUEST_RELAY, MSG_PING,
      MSG_TCP_RELAY_DATA]
  | .closing => []

def isClientSignalMessageAllowed (state : SessionState) (msgType : UInt8) : Bool :=
  (allowedClientSignalMessages state).contains msgType

def classifyClientSignalMessage (state : SessionState) (msgType : UInt8) : SessionMessageAction :=
  if ¬ isKnownClientSignalMessage msgType then .ignoreUnknown
  else if isClientSignalMessageAllowed state msgType then .dispatch
  else if isClientHandshakeMessage msgType then .close
  else .sendStateError

/-! ### Leases -/

structure RoomLease where
  peerId : Nat
  virtualIP : Nat
  name : Bytes
  token : Bytes
  online : Bool
  offlineSince : Nat := 0
  expiresAt : Nat := 0
deriving DecidableEq

def RoomLease.markOffline (l : RoomLease) (now : Nat) : RoomLease :=
  { l with online := false, offlineSince := now, expiresAt := now + RECONNECT_LEASE_TIMEOUT_SEC }

def RoomLease.markOnline (l : RoomLease) : RoomLease :=
  { l with online := true, offlineSince := 0, expiresAt := 0 }

/-- Change the first lease of a peer, as `leaseByPeerId` finds it. -/
def updateLease (peerId : Nat) (f : RoomLease → RoomLease) : List RoomLease → List RoomLease
  | [] => []
  | l :: ls => if l.peerId = peerId then f l :: ls else l :: updateLease peerId f ls

structure Room where
  id : Nat := 0
  name : Bytes := []
  hostPeerId : Nat := 0
  leases : List RoomLease := []
  maxPlayers : Nat := MAX_PLAYERS
  tcpPolicy : RoomTrafficPolicy := makeDefaultTcpPolicy
  udpPolicy : RoomTrafficPolicy := makeDefaultUdpPolicy
  mtu : Nat := ROOM_MTU_DEFAULT
  passwordProtected : Nat := 0
  passwordHash : Bytes := List.replicate 32 0
  passwordSalt : Bytes := List.replicate AUTH_SALT_SIZE 0
deriving DecidableEq

namespace Room

def hasVirtualIP (r : Room) (ip : Nat) : Bool := r.leases.any (·.virtualIP == ip)

/-- The first free host address of the subnet, 0 when there is none. -/
def allocateVirtualIP (r : Room) : Nat :=
  let suffixes := (List.range (VNET_LAST_HOST_SUFFIX - VNET_FIRST_HOST_SUFFIX + 1)).map
    (VNET_FIRST_HOST_SUFFIX + ·)
  ((suffixes.map (VNET_SUBNET ||| ·)).find? fun ip => !r.hasVirtualIP ip).getD 0

def isFull (r : Room) : Bool := decide (r.maxPlayers ≤ r.leases.length)

def leaseByPeerId (r : Room) (peerId : Nat) : Option RoomLease :=
  r.leases.find? (·.peerId == peerId)

def hasLease (r : Room) (peerId : Nat) : Bool := (r.leaseByPeerId peerId).isSome

def ensureHost (r : Room) : Room :=
  match r.leases with
  | [] => { r with hostPeerId := 0 }
  | first :: _ =>
    if r.hasLease r.hostPeerId then r
    else
      match r.leases.find? (·.online) with
      | some l => { r with hostPeerId := l.peerId }
      | none => { r with hostPeerId := first.peerId }

def addLease (r : Room) (peerId : Nat) (peerName token : Bytes) : Option (RoomLease × Room) :=
  if r.isFull ∨ r.hasLease peerId then none
  else
    let ip := r.allocateVirtualIP
    if ip = 0 then none
    else
      let lease :=
        { peerId := peerId, virtualIP := ip, name := peerName, token := token, online := true }
      some (lease, ({ r with leases := r.leases ++ [lease] } : Room).ensureHost)

def removeLease (r : Room) (peerId : Nat) : Room :=
  if r.hasLease peerId then
    ({ r with leases := r.leases.eraseP (·.peerId == peerId) } : Room).ensureHost
  else r

def markLeaseOffline (r : Room) (peerId now : Nat) : Room :=
  { r with leases := updateLease peerId (·.markOffline now) r.leases }

def markLeaseOnline (r : Room) (peerId : Nat) : Room :=
  if r.hasLease peerId then
    ({ r with leases := updateLease peerId (·.markOnline) r.leases } : Room).ensureHost
  else r

def peerIds (r : Room) : List Nat := r.leases.map (·.peerId)

end Room

/-! ### The room table -/

structure RoomManager where
  rooms : Std.ExtTreeMap Nat Room := ∅
  freeRoomIds : Std.ExtTreeSet Nat := ∅
  nextRoomId : Nat := 1

namespace RoomManager

def getRoom (m : RoomManager) (roomId : Nat) : Option Room := m.rooms[roomId]?

def setRoom (m : RoomManager) (roomId : Nat) (r : Room) : RoomManager :=
  { m with rooms := m.rooms.insert roomId r }

/-- The smallest free id, else the next new one. -/
def allocateRoomId (m : RoomManager) : Nat × RoomManager :=
  match m.freeRoomIds.toList.head? with
  | some id => (id, { m with freeRoomIds := m.freeRoomIds.erase id })
  | none => (m.nextRoomId, { m with nextRoomId := m.nextRoomId + 1 })

def createRoom (m : RoomManager) (name : Bytes) (hostPeerId maxPlayers : Nat)
    (tcpPolicy udpPolicy : RoomTrafficPolicy) (mtu passwordProtected : Nat)
    (pwdHash pwdSalt : Bytes) : Room × RoomManager :=
  let (rid, m) := m.allocateRoomId
  let blank : Room :=
    { id := rid, name := name, hostPeerId := hostPeerId, maxPlayers := maxPlayers
      tcpPolicy := tcpPolicy, udpPolicy := udpPolicy, mtu := normalizeRoomMtu mtu
      passwordProtected := passwordProtected }
  let r := if passwordProtected ≠ 0 then
    { blank with passwordHash := pwdHash, passwordSalt := pwdSalt } else blank
  (r, m.setRoom rid r)

def listRooms (m : RoomManager) : List Room := m.rooms.toList.map Prod.snd

def size (m : RoomManager) : Nat := m.rooms.size

def eraseRoom (m : RoomManager) (roomId : Nat) : RoomManager :=
  if roomId ∉ m.rooms then m
  else
    { m with
      rooms := m.rooms.erase roomId
      freeRoomIds := if roomId = 0 then m.freeRoomIds else m.freeRoomIds.insert roomId }

end RoomManager

end VlanConnect

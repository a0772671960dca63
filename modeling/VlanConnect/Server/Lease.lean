/-
  VlanConnect/Server/Lease.lean
  =============================
  **Leases and the end of sessions**: resume checks, the join response, the
  rollback of a membership, `destroyClient`, and the sweep of expired leases.
-/
import VlanConnect.Server.RoomList

namespace VlanConnect

namespace Server

open ByteBuffer

variable (K : Crypto)

/-! ### Resume and join -/

def validateResumeLease (s : Server) (roomId peerId : Nat) (token : Bytes) :
    Option (Room × RoomLease) × Server :=
  if tokenIsZero token then (none, s)
  else
    match s.rooms.getRoom roomId with
    | none => (none, s)
    | some room =>
      match room.leaseByPeerId peerId with
      | none => (none, s)
      | some lease =>
        if lease.token ≠ token then (none, s)
        else
          let (now, s) := s.time
          if ¬ lease.online ∧ 0 < lease.expiresAt ∧ lease.expiresAt < now then (none, s)
          else (some (room, lease), s)

def writeMember (lease : RoomLease) : Bytes :=
  writeU32 lease.peerId ++ writeU32 lease.virtualIP ++ writeString lease.name

def joinResponse (room : Room) (virtualIP : Nat) (token : Bytes) : Bytes :=
  writeU32 room.id ++ writeU32 virtualIP ++ writePolicy room.tcpPolicy ++
    writePolicy room.udpPolicy ++
    writeU8 room.passwordProtected ++ writeU16 room.mtu ++ writeU8 room.leases.length ++
    room.leases.flatMap writeMember ++ token

def sendJoinResponse (s : Server) (fd : Fd) (room : Room) (token : Bytes) : Bool × Server :=
  s.sendClientMsg K fd MSG_JOIN_RESP (joinResponse room (s.client fd).virtualIP token)

/-- Take a member out of a room, and the room away with its last member. -/
def removeMember (s : Server) (roomId peerId : Nat) : Server :=
  match s.rooms.getRoom roomId with
  | none => s
  | some room =>
    let room := room.removeLease peerId
    let s := s.setRoom roomId room
    if room.leases = [] then { s with rooms := s.rooms.eraseRoom roomId } else s

def rollbackNewMembership (s : Server) (fd : Fd) (roomId : Nat) : Server :=
  let s := s.removeMember roomId (s.client fd).peerId
  s.modify fd fun c => { c with
    roomId := 0
    virtualIP := 0
    resumeRoomId := 0
    resumePeerId := 0
    resumeToken := List.replicate RECONNECT_TOKEN_SIZE 0
    state := .loggedIn
    alive := false }

/-! ### The end of a session -/

inductive DisconnectReason where
  | network | takeover | logoutComplete
deriving DecidableEq

/-- `room->markLeaseOffline(peerId, time(nullptr))` on a room that exists. -/
def markLeaseOffline (s : Server) (roomId peerId : Nat) : Server :=
  match s.rooms.getRoom roomId with
  | none => s
  | some room =>
    let (now, s) := s.time
    s.setRoom roomId (room.markLeaseOffline peerId now)

def markSessionOffline (s : Server) (fd : Fd) : Server :=
  let c := s.client fd
  if c.roomId = 0 then s
  else
    (s.markLeaseOffline c.roomId c.peerId).modify fd fun c => { c with roomId := 0, virtualIP := 0 }

def releaseClientIp (s : Server) (fd : Fd) : Server :=
  let ip := (s.client fd).remoteIpv4
  match s.ipStates[ip]? with
  | none => s.countDown 0
  | some state =>
    let (now, s) := (s.countDown state.clients).time
    let state := { state with clients := state.clients - 1, lastActivity := now }
    let s := { s with ipStates := s.ipStates.insert ip state }
    s.modify fd fun c => { c with remoteIpv4 := 0 }

/-- The lease part of `destroyClient`: whether the peer id stays reserved. -/
def detachLease (s : Server) (fd : Fd) (reason : DisconnectReason) (peerOwnedByOther : Bool) :
    Bool × Server :=
  let c := s.client fd
  if ¬ peerOwnedByOther ∧ reason ≠ .logoutComplete ∧ c.roomId ≠ 0 then
    (true, s.markSessionOffline fd)
  else if ¬ peerOwnedByOther ∧ reason ≠ .logoutComplete ∧ c.state = .resumePending ∧
      c.resumeRoomId ≠ 0 ∧ (s.rooms.getRoom c.resumeRoomId).isSome then
    (true, s.markLeaseOffline c.resumeRoomId c.peerId)
  else (false, s)

/-- The last part of `destroyClient`: indexes, peer id, buffers, descriptor. -/
def eraseClient (s : Server) (fd : Fd) (peerId : Nat) (preservePeerId : Bool) : Server :=
  let s := s.unbindClientIndexes fd
  let s := if preservePeerId then s else s.releasePeerId peerId
  let s := s.clearSendBuffer fd false
  let s := s.clearSendBuffer fd true
  let s := s.releaseClientIp fd
  let s := s.close fd
  { s with clients := s.clients.erase fd }

def destroyClient (s : Server) (fd : Fd) (reason : DisconnectReason) : Server :=
  if fd ∉ s.clients then s
  else
    let s := s.kill fd
    let peerId := (s.client fd).peerId
    let (peerOwner, s) := if peerId ≠ 0 then s.findClientOwnerByPeerId peerId else (none, s)
    let peerOwnedByOther := decide (peerOwner ≠ none ∧ peerOwner ≠ some fd)
    let s := s.closeDataChannel fd
    let (kept, s) := s.detachLease fd reason peerOwnedByOther
    s.eraseClient fd peerId (decide (reason = .takeover) || peerOwnedByOther || kept)

def closeClientForTakeover (s : Server) (fd : Fd) : Server := s.destroyClient fd .takeover

def handleClientDisconnect (s : Server) (fd : Fd) : Server :=
  if fd ∉ s.clients then s
  else
    s.destroyClient fd (if (s.client fd).state = .closing then .logoutComplete else .network)

def handleDataChannelDisconnect (s : Server) (dataFd : Fd) : Server :=
  let (owner, s) := s.findClientOwnerByDataFd dataFd
  match owner with
  | some fd => s.closeDataChannel fd
  | none => s

/-! ### The sweep -/

def setLeases (s : Server) (roomId : Nat) (f : List RoomLease → List RoomLease) : Server :=
  match s.rooms.getRoom roomId with
  | none => s
  | some room => s.setRoom roomId { room with leases := f room.leases }

/-- The lease after the bookkeeping of one sweep, and whether it changed. -/
def refreshLease (lease : RoomLease) (hasLiveSession : Bool) (now : Nat) : RoomLease × Bool :=
  if hasLiveSession ∧ ¬ lease.online then (lease.markOnline, true)
  else if lease.online ∧ ¬ hasLiveSession then (lease.markOffline now, true)
  else if ¬ lease.online ∧ lease.expiresAt = 0 then (lease.markOffline now, true)
  else (lease, false)

def leaseExpired (lease : RoomLease) (now : Nat) : Bool :=
  !lease.online && decide (0 < lease.expiresAt ∧ lease.expiresAt < now)

/-- Announce and remove the lease at position `i`. -/
def expireLease (s : Server) (roomId i : Nat) (lease : RoomLease) : Server :=
  let s := s.broadcastToRoom K roomId MSG_PEER_LEFT (writeU32 lease.peerId) lease.peerId
  let s := s.setLeases roomId (·.eraseIdx i)
  let (client, s) := s.findClientByPeerId lease.peerId
  if client.isSome then s else s.releasePeerId lease.peerId

/-- The session of the lease is alive and in the room. -/
def hasLiveSession (s : Server) (roomId peerId : Nat) : Bool × Server :=
  let (live, s) := s.findClientByPeerId peerId
  (live.any fun fd => (s.client fd).roomId == roomId && decide ((s.client fd).state = .inRoom), s)

/-- The loop over the leases of a room; every round moves on or removes one,
    so the number of leases bounds the rounds. -/
def sweepLeases (roomId now : Nat) : (rounds i : Nat) → Server → Bool × Server
  | 0, _, s => (false, s)
  | rounds + 1, i, s =>
    match (s.rooms.getRoom roomId).bind (·.leases[i]?) with
    | none => (false, s)
    | some old =>
      let (live, s) := s.hasLiveSession roomId old.peerId
      let (lease, touched) := refreshLease old live now
      let s := s.setLeases roomId (·.set i lease)
      if leaseExpired lease now then
        (true, (sweepLeases roomId now rounds i (s.expireLease K roomId i lease)).2)
      else
        let (changed, s) := sweepLeases roomId now rounds (i + 1) s
        (touched || changed, s)

/-- One room of the sweep: whether anything changed, the rooms left empty. -/
def sweepRoom (now : Nat) (acc : Bool × List Nat × Server) (roomId : Nat) :
    Bool × List Nat × Server :=
  let (changed, emptyRooms, s) := acc
  match s.rooms.getRoom roomId with
  | none => (changed, emptyRooms, s)
  | some room =>
    let (c, s) := sweepLeases K roomId now room.leases.length 0 s
    match s.rooms.getRoom roomId with
    | none => (changed || c, emptyRooms, s)
    | some room =>
      let room := room.ensureHost
      (changed || c, if room.leases = [] then emptyRooms ++ [roomId] else emptyRooms,
        s.setRoom roomId room)

def cleanupExpiredLeases (s : Server) (now : Nat) : Server :=
  let (changed, emptyRooms, s) := s.rooms.rooms.keys.foldl (sweepRoom K now) (false, [], s)
  let s := emptyRooms.foldl (fun s roomId => { s with rooms := s.rooms.eraseRoom roomId }) s
  if changed ∨ emptyRooms ≠ [] then s.broadcastRoomListPush K else s

end Server

end VlanConnect

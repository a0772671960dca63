/-
  VlanConnect/Server/RoomList.lean
  ================================
  **The published room list**: snapshots in pages, and the deltas pushed to
  every logged-in session.
-/
import VlanConnect.Server.Send

namespace VlanConnect

namespace Server

open ByteBuffer

variable (K : Crypto)

def roomListState (room : Room) : RoomListState where
  roomId := room.id
  roomName := room.name
  playerCount := room.leases.length % 256
  maxPlayers := room.maxPlayers
  tcpPolicy := room.tcpPolicy
  udpPolicy := room.udpPolicy
  passwordProtected := room.passwordProtected
  mtu := room.mtu

def collectRoomListState (s : Server) : RoomTable :=
  s.rooms.listRooms.foldl (fun result room => result.insert room.id (roomListState room)) ∅

def writeRoomListItem (room : RoomListState) : Bytes :=
  writeU32 room.roomId ++ writeString room.roomName ++ writeU8 room.playerCount ++
    writeU8 room.maxPlayers ++ writePolicy room.tcpPolicy ++ writePolicy room.udpPolicy ++
    writeU8 room.passwordProtected ++ writeU16 room.mtu

/-! ### Snapshots -/

/-- Revision, page index, page count and record count. -/
def ROOM_LIST_PAGE_HEADER : Nat := 8 + 2 + 2 + 2

/-- Fill pages in order; a record that does not fit starts a new page, unless
    the page is still empty. -/
def packPages (page : List RoomListState) (currentSize : Nat) :
    List RoomListState → List (List RoomListState)
  | [] => [page]
  | room :: rest =>
    let size := (writeRoomListItem room).length
    if page ≠ [] ∧ ROOM_LIST_PAGE_PAYLOAD < currentSize + size then
      page :: packPages [room] (ROOM_LIST_PAGE_HEADER + size) rest
    else packPages (page ++ [room]) (currentSize + size) rest

def writeRoomListPage (revision pageIndex pageCount : Nat) (page : List RoomListState) : Bytes :=
  writeU64 revision ++ writeU16 pageIndex ++ writeU16 pageCount ++ writeU16 page.length ++
    page.flatMap writeRoomListItem

/-- The page count is a 16-bit number. -/
def buildRoomListPages (revision : Nat) (rooms : RoomTable) : List Bytes :=
  let packedPages := packPages [] ROOM_LIST_PAGE_HEADER (rooms.toList.map Prod.snd)
  let pageCount := packedPages.length % 2 ^ 16
  (packedPages.take pageCount).mapIdx fun pageIndex page =>
    writeRoomListPage revision pageIndex pageCount page

/-! ### Deltas -/

inductive RoomListOp where
  | upsert (room : RoomListState)
  | remove (roomId : Nat)
deriving DecidableEq

def roomListDelta (old current : RoomTable) : List RoomListOp :=
  (current.toList.filter fun (id, room) => !decide (old[id]? = some room)).map
      (fun (_, room) => .upsert room) ++
    (old.toList.filter fun (id, _) => !current.contains id).map
      (fun (_, room) => .remove room.roomId)

def writeRoomListOp : RoomListOp → Bytes
  | .upsert room => writeU8 ROOM_LIST_UPSERT ++ writeRoomListItem room
  | .remove roomId => writeU8 ROOM_LIST_REMOVE ++ writeU32 roomId

def writeRoomListPush (baseRevision revision : Nat) (operations : List RoomListOp) : Bytes :=
  writeU64 baseRevision ++ writeU64 revision ++ writeU16 operations.length ++
    operations.flatMap writeRoomListOp

def pushRoomList (body : Bytes) (s : Server) (fd : Fd) : Server :=
  let c := s.client fd
  if c.peerId = 0 ∨ ¬ c.alive ∨ ¬ sessionHasPeerIdentity c.state ∨ ¬ c.serverAuthOk then s
  else (s.sendClientMsg K fd MSG_ROOM_LIST_PUSH body).2

def broadcastRoomListPush (s : Server) : Server :=
  let current := s.collectRoomListState
  let operations := roomListDelta s.publishedRooms current
  if operations = [] then s
  else
    let baseRevision := s.roomListRevision
    let s := { s with roomListRevision := s.roomListRevision + 1 }
    let body := writeRoomListPush baseRevision s.roomListRevision operations
    if ROOM_LIST_PAGE_PAYLOAD < body.length then s
    else
      let s := { s with
        publishedRooms := current
        published := (s.roomListRevision, current) :: s.published }
      s.clients.keys.foldl (pushRoomList K body) s

end Server

end VlanConnect

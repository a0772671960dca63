/-
  VlanConnect/RoomListRecords.lean
  ================================
  **A room as the server writes it and as the clients list it**
  (`writeRoomListItem` of `server/src/signal_server.cpp`, `readRoomListItem` of
  both clients).

  The command-line client keeps the name as a string and lists every room as it
  is.  The Qt client copies the name into a character array and loses what
  stands behind the first zero byte, which the server allows in a name.
-/
import VlanConnect.Server.RoomList
import VlanConnect.Client.Parsers
import Mathlib.Data.List.TakeWhile

namespace VlanConnect

open ByteBuffer VlanConnect.Parser

/-! ### Rooms the server can hold -/

structure RoomListState.Valid (room : RoomListState) : Prop where
  roomId : room.roomId < 2 ^ 32
  roomName : isValidRoomName room.roomName = true
  playerCount : room.playerCount < 2 ^ 8
  maxPlayers : room.maxPlayers < 2 ^ 8
  tcpPolicy : room.tcpPolicy.Valid
  udpPolicy : room.udpPolicy.Valid
  passwordProtected : room.passwordProtected ≤ 1
  mtu : isValidRoomMtuValue room.mtu = true

/-- The room as a client should list it. -/
def RoomListState.item (room : RoomListState) : CliRoomListItem :=
  ⟨room.roomId, room.roomName, room.playerCount, room.maxPlayers, room.tcpPolicy, room.udpPolicy,
    room.passwordProtected, room.mtu⟩

theorem RoomListState.Valid.item {room : RoomListState} (h : room.Valid) : room.item.Valid :=
  ⟨h.roomId, h.roomName, h.playerCount, h.maxPlayers, h.tcpPolicy, h.udpPolicy,
    h.passwordProtected, h.mtu⟩

theorem writeRoomListItem_eq (room : RoomListState) :
    Server.writeRoomListItem room = writeRoomRecord room.item := by
  simp [Server.writeRoomListItem, writeRoomRecord, RoomListState.item, List.append_assoc]

/-! ### Reading a record -/

/-- What a client makes of the record at the head of some bytes, and what it leaves. -/
def listed (reader : Reader (Bytes × CliRoomListItem)) (bytes : Bytes) :
    Option (CliRoomListItem × Bytes) :=
  (reader bytes).map fun ((_, info), rest) => (info, rest)

/-- The name under which a client lists a room. -/
def shownName (reader : Reader (Bytes × CliRoomListItem)) (room : RoomListState) : Option Bytes :=
  (listed reader (Server.writeRoomListItem room)).map fun (info, _) => info.roomName

/-- A client reads the record, wherever it stands, as the room it was written for. -/
def Survives (reader : Reader (Bytes × CliRoomListItem)) (room : RoomListState) : Prop :=
  ∀ rest, listed reader (Server.writeRoomListItem room ++ rest) = some (room.item, rest)

variable {room other : RoomListState} {keep : Bytes → Bytes}
    {reader : Reader (Bytes × CliRoomListItem)}

theorem listed_eq (hreader : ReadsItems keep reader) (h : room.Valid) (rest : Bytes) :
    listed reader (Server.writeRoomListItem room ++ rest) =
      some ({ room.item with roomName := keep room.roomName }, rest) := by
  have hread := hreader room.item h.item rest
  unfold listed
  rw [writeRoomListItem_eq, hread]
  rfl

theorem shownName_eq (hreader : ReadsItems keep reader) (h : room.Valid) :
    shownName reader room = some (keep room.roomName) := by
  have hread := listed_eq hreader h []
  rw [List.append_nil] at hread
  unfold shownName
  rw [hread]
  rfl

/-- A record survives if its name does. -/
theorem survives_iff (hreader : ReadsItems keep reader) (h : room.Valid) :
    Survives reader room ↔ keep room.roomName = room.roomName := by
  constructor
  · intro hsurvives
    have hread := hsurvives []
    rw [listed_eq hreader h, Option.some.injEq, Prod.mk.injEq] at hread
    exact congrArg CliRoomListItem.roomName hread.1
  · intro hname rest
    rw [listed_eq hreader h, hname]
    rfl

/-- The array keeps a name as long as there is no zero byte in it. -/
theorem cString_eq_self_iff {limit : Nat} {name : Bytes} (hlen : name.length ≤ limit) :
    cString limit name = name ↔ 0 ∉ name := by
  unfold cString
  rw [List.take_of_length_le hlen, List.takeWhile_eq_self_iff]
  constructor
  · intro hall hmem
    exact absurd rfl (of_decide_eq_true (hall 0 hmem))
  · intro hnone b hb
    refine decide_eq_true ?_
    rintro rfl
    exact hnone hb

/-- Two rooms in both clients: each is listed as the server holds it, and different names
    stay different. -/
structure ShownAsHeld (room other : RoomListState) : Prop where
  cli : Survives cliRoomListItem room ∧ Survives cliRoomListItem other
  gui : Survives guiRoomListItem room ∧ Survives guiRoomListItem other
  distinct : room.roomName ≠ other.roomName →
    shownName cliRoomListItem room ≠ shownName cliRoomListItem other ∧
      shownName guiRoomListItem room ≠ shownName guiRoomListItem other

/-- **Both clients list the rooms the server holds, exactly when no name has a
    zero byte.** -/
theorem shown_as_held_iff (room other : RoomListState) (h : room.Valid) (h' : other.Valid) :
    ShownAsHeld room other ↔ 0 ∉ room.roomName ∧ 0 ∉ other.roomName := by
  have hkept : ∀ {r : RoomListState}, r.Valid →
      (cString MAX_ROOM_NAME_LEN r.roomName = r.roomName ↔ 0 ∉ r.roomName) := by
    intro r hr
    exact cString_eq_self_iff (of_decide_eq_true hr.roomName).2
  constructor
  · intro hshown
    obtain ⟨hroom, hother⟩ := hshown.gui
    exact ⟨(hkept h).mp ((survives_iff readsItems_gui h).mp hroom),
      (hkept h').mp ((survives_iff readsItems_gui h').mp hother)⟩
  · rintro ⟨hroom, hother⟩
    constructor
    · exact ⟨(survives_iff readsItems_cli h).mpr rfl, (survives_iff readsItems_cli h').mpr rfl⟩
    · exact ⟨(survives_iff readsItems_gui h).mpr ((hkept h).mpr hroom),
        (survives_iff readsItems_gui h').mpr ((hkept h').mpr hother)⟩
    · intro hne
      rw [shownName_eq readsItems_cli h, shownName_eq readsItems_cli h',
        shownName_eq readsItems_gui h, shownName_eq readsItems_gui h', (hkept h).mpr hroom,
        (hkept h').mpr hother]
      exact ⟨fun heq => hne (Option.some.inj heq), fun heq => hne (Option.some.inj heq)⟩

/-- Two rooms of the Qt client look alike exactly when their names agree up to the first
    zero byte. -/
theorem gui_shows_alike_iff (h : room.Valid) (h' : other.Valid) :
    shownName guiRoomListItem room = shownName guiRoomListItem other ↔
      room.roomName.takeWhile (· ≠ 0) = other.roomName.takeWhile (· ≠ 0) := by
  rw [shownName_eq readsItems_gui h, shownName_eq readsItems_gui h', Option.some.injEq]
  unfold cString
  rw [List.take_of_length_le (of_decide_eq_true h.roomName).2,
    List.take_of_length_le (of_decide_eq_true h'.roomName).2]

def namedRoom (roomId : Nat) (name : Bytes) : RoomListState :=
  ⟨roomId, name, 1, 4, makeDefaultTcpPolicy, makeDefaultUdpPolicy, 0, ROOM_MTU_BALANCED⟩

theorem namedRoom_valid {roomId : Nat} {name : Bytes} (hid : roomId < 2 ^ 32)
    (h : isValidRoomName name = true) :
    (namedRoom roomId name).Valid := by
  refine ⟨hid, h, ?_, ?_, ?_, ?_, ?_, ?_⟩ <;> simp only [namedRoom] <;> decide

theorem shown_as_held_twoRooms : ShownAsHeld (namedRoom 1 [65]) (namedRoom 2 [65, 66]) := by
  have hone : (namedRoom 1 [65]).Valid := namedRoom_valid (by decide) (by decide)
  have htwo : (namedRoom 2 [65, 66]).Valid := namedRoom_valid (by decide) (by decide)
  exact (shown_as_held_iff _ _ hone htwo).mpr (by decide)

/-- Two rooms with different ids and names that the Qt client shows under one name. -/
theorem gui_shows_two_rooms_alike :
    (namedRoom 1 [65, 0, 66]).Valid ∧ (namedRoom 2 [65, 0, 67]).Valid ∧
      shownName guiRoomListItem (namedRoom 1 [65, 0, 66]) =
        shownName guiRoomListItem (namedRoom 2 [65, 0, 67]) ∧
      ¬ Survives guiRoomListItem (namedRoom 1 [65, 0, 66]) ∧
      ¬ ShownAsHeld (namedRoom 1 [65, 0, 66]) (namedRoom 2 [65, 0, 67]) := by
  have hlost : ¬ Survives guiRoomListItem (namedRoom 1 [65, 0, 66]) := by
    intro h
    have hread := h []
    revert hread
    decide +kernel
  have hone : (namedRoom 1 [65, 0, 66]).Valid := namedRoom_valid (by decide) (by decide)
  have htwo : (namedRoom 2 [65, 0, 67]).Valid := namedRoom_valid (by decide) (by decide)
  refine ⟨hone, htwo, by decide +kernel, hlost, ?_⟩
  intro h
  exact hlost h.gui.1

end VlanConnect

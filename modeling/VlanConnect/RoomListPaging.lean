/-
  VlanConnect/RoomListPaging.lean
  ===============================
  **The room list in pages, from the server to a client's cache**
  (`buildRoomListPages` of `server/src/signal_server.cpp`, the room list in
  `processMessage` of `client-cli/src/cli_net.cpp` and its check in
  `common/signal_message_validator.h`).

  A page is filled as long as the next record fits, so the pages cut the list
  of the rooms and each stays within the limit.  Written out, each passes the
  check, and a client that is given all of them in order ends with the rooms of
  the server, whatever part of another list it had before.
-/
import VlanConnect.RoomListRecords

namespace VlanConnect

open ByteBuffer VlanConnect.Parser

/-! ### Packing -/

namespace Server

/-- The bytes of the records of a page. -/
def recordsSize (page : List RoomListState) : Nat := (page.flatMap writeRoomListItem).length

theorem recordsSize_append (page : List RoomListState) (room : RoomListState) :
    recordsSize (page ++ [room]) = recordsSize page + (writeRoomListItem room).length := by
  simp [recordsSize]

theorem length_writeRoomListItem (room : RoomListState) :
    (writeRoomListItem room).length = 17 + room.roomName.length := by
  simp only [writeRoomListItem, writePolicy, List.length_append, length_writeU8, length_writeU16,
    length_writeU32, length_writeString]
  omega

/-- No record is shorter than the check expects. -/
theorem minimum_le_recordsSize {page : List RoomListState} (h : ∀ room ∈ page, room.Valid) :
    MessageValidatorDetail.MIN_ROOM_RECORD_SIZE * page.length ≤ recordsSize page := by
  induction page with
  | nil => exact Nat.zero_le _
  | cons room page ih =>
    obtain ⟨hroom, hpage⟩ := List.forall_mem_cons.mp h
    have hrest := ih hpage
    have hname := List.length_pos_of_ne_nil (of_decide_eq_true hroom.roomName).1
    have hsize := length_writeRoomListItem room
    simp only [recordsSize, List.flatMap_cons, List.length_append, List.length_cons,
      MessageValidatorDetail.MIN_ROOM_RECORD_SIZE] at hrest ⊢
    omega

/-- The pages cut the list. -/
theorem flatten_packPages (page : List RoomListState) (currentSize : Nat)
    (rooms : List RoomListState) :
    (packPages page currentSize rooms).flatten = page ++ rooms := by
  induction rooms generalizing page currentSize with
  | nil => simp [packPages]
  | cons room rest ih =>
    unfold packPages
    dsimp only
    split
    · rw [List.flatten_cons, ih]
      rfl
    · rw [ih, List.append_assoc]
      rfl

theorem packPages_ne_nil (page : List RoomListState) (currentSize : Nat)
    (rooms : List RoomListState) :
    packPages page currentSize rooms ≠ [] := by
  induction rooms generalizing page currentSize with
  | nil => exact List.cons_ne_nil _ _
  | cons room rest ih =>
    unfold packPages
    dsimp only
    split
    · exact List.cons_ne_nil _ _
    · exact ih _ _

/-- There are no more pages than rooms, and one. -/
theorem length_packPages_le (page : List RoomListState) (currentSize : Nat)
    (rooms : List RoomListState) :
    (packPages page currentSize rooms).length ≤ rooms.length + 1 := by
  induction rooms generalizing page currentSize with
  | nil => simp [packPages]
  | cons room rest ih =>
    unfold packPages
    dsimp only
    split
    · rw [List.length_cons, List.length_cons]
      exact Nat.succ_le_succ (ih _ _)
    · rw [List.length_cons]
      exact (ih _ _).trans (Nat.le_succ _)

/-- Every page stays within the limit if a page with one record does. -/
theorem packPages_fit {page : List RoomListState} {currentSize : Nat} {rooms : List RoomListState}
    (hsize : currentSize = ROOM_LIST_PAGE_HEADER + recordsSize page)
    (hpage : currentSize ≤ ROOM_LIST_PAGE_PAYLOAD)
    (hrooms : ∀ room ∈ rooms,
      ROOM_LIST_PAGE_HEADER + (writeRoomListItem room).length ≤ ROOM_LIST_PAGE_PAYLOAD) :
    ∀ p ∈ packPages page currentSize rooms,
    ROOM_LIST_PAGE_HEADER + recordsSize p ≤ ROOM_LIST_PAGE_PAYLOAD := by
  induction rooms generalizing page currentSize with
  | nil =>
    intro p hp
    obtain rfl := List.mem_singleton.mp hp
    omega
  | cons room rest ih =>
    obtain ⟨hroom, hrest⟩ := List.forall_mem_cons.mp hrooms
    unfold packPages
    dsimp only
    split
    · intro p hp
      rcases List.mem_cons.mp hp with rfl | hp
      · omega
      · refine ih ?_ hroom hrest p hp
        simp [recordsSize]
    · rename_i hfits
      refine ih ?_ ?_ hrest
      · rw [recordsSize_append, hsize, Nat.add_assoc]
      · -- the record fits behind the others, or the page is empty
        by_cases hempty : page = []
        · subst hempty
          rw [hsize]
          exact hroom
        · push Not at hfits
          exact hfits hempty

end Server

/-! ### The check of a page -/

/-- A room as the server lists it. -/
structure RoomListState.Listed (room : RoomListState) : Prop extends room.Valid where
  roomId_pos : 0 < room.roomId
  maxPlayers_bounds : 2 ≤ room.maxPlayers ∧ room.maxPlayers ≤ MAX_PLAYERS
  playerCount_le : room.playerCount ≤ room.maxPlayers

namespace MessageValidatorDetail

/-- The check passes over these bytes, wherever they stand and whatever follows them. -/
def Passes {α : Type} (x : Cursor α) (bytes : Bytes) (a : α) : Prop :=
  ∀ pos rest, x (pos, bytes ++ rest) = .ok (a, pos + bytes.length, rest)

variable {α β : Type}

theorem Passes.pure (a : α) : Passes (pure a) [] a := fun _ _ => rfl

theorem Passes.bind {x : Cursor α} {f : α → Cursor β} {front back : Bytes} {a : α} {b : β}
    (hx : Passes x front a) (hf : Passes (f a) back b) : Passes (x >>= f) (front ++ back) b := by
  intro pos rest
  refine bind_eq_ok.mpr ⟨a, pos + front.length, back ++ rest, ?_, ?_⟩
  · rw [List.append_assoc]
    exact hx pos _
  · rw [List.length_append, ← Nat.add_assoc]
    exact hf _ _

theorem Passes.position {f : Nat → Cursor β} {bytes : Bytes} {b : β}
    (hf : ∀ pos, Passes (f pos) bytes b) :
    Passes (position >>= f) bytes b := by
  intro pos rest
  exact bind_eq_ok.mpr ⟨pos, pos, bytes ++ rest, rfl, hf pos pos rest⟩

/-- A check that does not fail. -/
theorem Passes.unless {c : Prop} [Decidable c] {x y : Cursor α} {bytes : Bytes} {a : α} (h : ¬ c)
    (hy : Passes y bytes a) : Passes (if c then x else y) bytes a := by
  rwa [if_neg h]

theorem Passes.last {x : Cursor α} {f : α → Cursor β} {bytes : Bytes} {a : α} {b : β}
    (hx : Passes x bytes a) (hf : Passes (f a) [] b) : Passes (x >>= f) bytes b := by
  have hboth := hx.bind hf
  rwa [List.append_nil] at hboth

theorem passes_u8 {v : Nat} (h : v < 2 ^ 8) : Passes readU8 (writeU8 v) v :=
  fun _ _ => readU8_eq_ok.mpr ⟨h, rfl, by rw [length_writeU8]⟩

theorem passes_u16 {v : Nat} (h : v < 2 ^ 16) : Passes readU16 (writeU16 v) v :=
  fun _ _ => readU16_eq_ok.mpr ⟨h, rfl, by rw [length_writeU16]⟩

theorem passes_u32 {v : Nat} (h : v < 2 ^ 32) : Passes readU32 (writeU32 v) v :=
  fun _ _ => readU32_eq_ok.mpr ⟨h, rfl, by rw [length_writeU32]⟩

theorem passes_u64 {v : Nat} (h : v < 2 ^ 64) : Passes readU64 (writeU64 v) v :=
  fun _ _ => readU64_eq_ok.mpr ⟨h, rfl, by rw [length_writeU64]⟩

theorem passes_take {s : Bytes} : Passes (take s.length) s s :=
  fun _ _ => take_eq_ok.mpr ⟨rfl, rfl, rfl⟩

theorem passes_roomName {name : Bytes} (h : isValidRoomName name = true) :
    Passes (readString 1 MAX_ROOM_NAME_LEN false) (writeString name) () := by
  obtain ⟨hne, hmax⟩ := of_decide_eq_true h
  have hpos := List.length_pos_of_ne_nil hne
  unfold readString writeString
  refine Passes.position fun _ => (passes_u16 (length_lt_of_roomName h)).bind ?_
  refine Passes.unless (by omega) (Passes.position fun _ => passes_take.last ?_)
  exact Passes.unless (fun hc => Bool.false_ne_true hc.1) (Passes.pure ())

theorem passes_policy {p : RoomTrafficPolicy} (h : p.Valid) :
    Passes readPolicy (writePolicy p) () := by
  have hvalid := validPolicyValues_iff.mpr ⟨p, h, rfl, rfl, rfl⟩
  unfold readPolicy writePolicy
  rw [List.append_assoc]
  refine Passes.position fun _ =>
    (passes_u8 (transportMode_lt _)).bind ((passes_u8 (fecMode_lt _)).bind ?_)
  exact (passes_u8 (kcpProfile_lt _)).last (Passes.unless (not_not.mpr hvalid) (Passes.pure ()))

theorem passes_boolean {v : Nat} (h : v ≤ 1) : Passes readBoolean (writeU8 v) () := by
  unfold readBoolean
  refine Passes.position fun _ => (passes_u8 (by omega)).last ?_
  exact Passes.unless (by omega) (Passes.pure ())

theorem passes_mtu {mtu : Nat} (h : isValidRoomMtuValue mtu = true) :
    Passes readMtu (writeU16 mtu) () := by
  unfold readMtu
  refine Passes.position fun _ => (passes_u16 (lt_of_roomMtu h)).last ?_
  exact Passes.unless (not_not.mpr h) (Passes.pure ())

theorem passes_roomListItem {room : RoomListState} (h : room.Listed) :
    Passes readRoomListItem (Server.writeRoomListItem room) room.roomId := by
  rw [writeRoomListItem_eq]
  unfold readRoomListItem writeRoomRecord
  refine Passes.position fun _ => (passes_u32 h.roomId).bind ((passes_roomName h.roomName).bind ?_)
  refine (passes_u8 h.playerCount).bind ((passes_u8 h.maxPlayers).bind ?_)
  refine (passes_policy h.tcpPolicy).bind ((passes_policy h.udpPolicy).bind ?_)
  refine (passes_boolean h.passwordProtected).bind ((passes_mtu h.mtu).last ?_)
  have hpos := h.roomId_pos
  have hmax := h.maxPlayers_bounds
  have hcount := h.playerCount_le
  refine Passes.unless ?_ (Passes.pure _)
  omega

theorem passes_rooms {rooms : List RoomListState} (h : ∀ room ∈ rooms, room.Listed)
    (hnodup : (rooms.map (·.roomId)).Nodup) {roomIds : List Nat}
    (hnew : ∀ room ∈ rooms, room.roomId ∉ roomIds) :
    Passes (readRooms roomIds rooms.length) (rooms.flatMap Server.writeRoomListItem) () := by
  induction rooms generalizing roomIds with
  | nil => exact Passes.pure ()
  | cons room rooms ih =>
    obtain ⟨hroom, hrooms⟩ := List.forall_mem_cons.mp h
    obtain ⟨hfirst, hrest⟩ := List.forall_mem_cons.mp hnew
    obtain ⟨hother, htail⟩ := List.nodup_cons.mp hnodup
    rw [List.flatMap_cons, List.length_cons, readRooms]
    refine (passes_roomListItem hroom).bind ?_
    rw [if_neg hfirst]
    refine ih hrooms htail ?_
    intro later hlater hmem
    rcases List.mem_cons.mp hmem with heq | hold
    · exact hother (List.mem_map.mpr ⟨later, hlater, heq⟩)
    · exact hrest later hlater hold

/-- The page passes the check to its end. -/
theorem readRoomList_page {revision pageIndex pageCount : Nat} {page : List RoomListState}
    (hpos : 0 < revision) (hrevision : revision < 2 ^ 64) (hindex : pageIndex < pageCount)
    (hcount : pageCount < 2 ^ 16) (hlen : page.length < 2 ^ 16) (hpage : ∀ room ∈ page, room.Listed)
    (hnodup : (page.map (·.roomId)).Nodup) :
    finish readRoomList (Server.writeRoomListPage revision pageIndex pageCount page) = .valid := by
  have hminimum : MIN_ROOM_RECORD_SIZE * page.length ≤
      (page.flatMap Server.writeRoomListItem).length := by
    exact Server.minimum_le_recordsSize fun room hroom => (hpage room hroom).toValid
  have hpasses : readRoomList (0, Server.writeRoomListPage revision pageIndex pageCount page) =
      .ok ((), 14 + (page.flatMap Server.writeRoomListItem).length, []) := by
    unfold readRoomList Server.writeRoomListPage
    rw [List.append_assoc, List.append_assoc, List.append_assoc]
    refine bind_eq_ok.mpr ⟨_, _, _, passes_u64 hrevision 0 _, ?_⟩
    refine bind_eq_ok.mpr ⟨_, _, _, passes_u16 (by omega) _ _, ?_⟩
    refine bind_eq_ok.mpr ⟨_, _, _, passes_u16 hcount _ _, ?_⟩
    refine bind_eq_ok.mpr ⟨_, _, _, passes_u16 hlen _ _, ?_⟩
    rw [if_neg (by omega)]
    refine bind_eq_ok.mpr ⟨_, _, _, remaining_eq_ok.mpr ⟨rfl, rfl, rfl⟩, ?_⟩
    have hroomy :
        page.length ≤ (page.flatMap Server.writeRoomListItem).length / MIN_ROOM_RECORD_SIZE :=
      (Nat.le_div_iff_mul_le (by decide)).mpr (Nat.mul_comm _ _ ▸ hminimum)
    rw [if_neg (Nat.not_lt_of_le hroomy)]
    have hpasses : Passes (readRooms [] page.length) (page.flatMap Server.writeRoomListItem) () :=
      passes_rooms hpage hnodup fun _ _ => List.not_mem_nil
    have hrecords := hpasses 14 []
    rw [List.append_nil] at hrecords
    exact hrecords
  unfold finish
  rw [hpasses]
  rfl

end MessageValidatorDetail

/-! ### The client's snapshot -/

/-- The table a client builds of the rooms it has read. -/
def addItem (rooms : CliRoomTable) (room : RoomListState) : CliRoomTable :=
  rooms.insert room.roomId room.item

theorem mem_foldl_addItem (page : List RoomListState) (rooms : CliRoomTable) (roomId : Nat) :
    roomId ∈ page.foldl addItem rooms ↔ roomId ∈ page.map (·.roomId) ∨ roomId ∈ rooms := by
  induction page generalizing rooms with
  | nil => simp
  | cons room page ih =>
    rw [List.foldl_cons, ih, addItem, Std.ExtTreeMap.mem_insert, compare_eq_iff_eq, List.map_cons,
      List.mem_cons]
    tauto

theorem reads_roomListItem {room : RoomListState} (h : room.Valid) :
    Reads readRoomListItem (Server.writeRoomListItem room) room.item := by
  rw [writeRoomListItem_eq]
  exact reads_item h.item

theorem reads_roomListPage {revision pageIndex pageCount : Nat} (page : List RoomListState)
    (hrevision : revision < 2 ^ 64) (hindex : pageIndex < 2 ^ 16) (hcount : pageCount < 2 ^ 16)
    (hlen : page.length < 2 ^ 16) :
    readRoomListHeader (Server.writeRoomListPage revision pageIndex pageCount page) =
      some ((revision, pageIndex, pageCount, page.length),
        page.flatMap Server.writeRoomListItem) := by
  have hheader : Reads readRoomListHeader
      (writeU64 revision ++ (writeU16 pageIndex ++
        (writeU16 pageCount ++ (writeU16 page.length ++ []))))
      (revision, pageIndex, pageCount, page.length) :=
    (Reads.u64 hrevision).bind
      ((Reads.u16 hindex).bind ((Reads.u16 hcount).bind ((Reads.u16 hlen).bind (Reads.pure _))))
  have hread := hheader (page.flatMap Server.writeRoomListItem)
  simpa only [Server.writeRoomListPage, List.append_assoc, List.nil_append,
    List.append_nil] using hread

theorem reads_snapshotRooms {page : List RoomListState} (h : ∀ room ∈ page, room.Valid)
    (hnodup : (page.map (·.roomId)).Nodup) {rooms : CliRoomTable}
    (hnew : ∀ room ∈ page, room.roomId ∉ rooms) :
    Reads (readSnapshotRooms rooms page.length) (page.flatMap Server.writeRoomListItem)
      (some (page.foldl addItem rooms)) := by
  induction page generalizing rooms with
  | nil => exact Reads.pure _
  | cons room page ih =>
    obtain ⟨hroom, hpage⟩ := List.forall_mem_cons.mp h
    obtain ⟨hfirst, hrest⟩ := List.forall_mem_cons.mp hnew
    obtain ⟨hother, htail⟩ := List.nodup_cons.mp hnodup
    rw [List.flatMap_cons, List.length_cons, readSnapshotRooms]
    refine (reads_roomListItem hroom).bind ?_
    rw [if_neg (show room.item.roomId ∉ rooms from hfirst)]
    refine ih hpage htail ?_
    intro later hlater hmem
    rcases Std.ExtTreeMap.mem_insert.mp hmem with heq | hold
    · exact hother (List.mem_map.mpr ⟨later, hlater, (compare_eq_iff_eq.mp heq).symm⟩)
    · exact hrest later hlater hold

namespace SignalClient

variable (K : Crypto) (notify : Notify)

/-- The pages of a list, one after the other, as long as none is refused. -/
def onRoomListPages (c : SignalClient) : List Bytes → Bool × SignalClient
  | [] => (true, c)
  | page :: pages =>
    match c.onRoomList K notify page with
    | (true, c) => onRoomListPages c pages
    | (false, c) => (false, c)

/-- The first page starts a new list. -/
def restarted (c : SignalClient) (revision pageCount pageIndex : Nat) : SignalClient :=
  if pageIndex = 0 then
    { c with
      snapshotRooms := ∅, snapshotRevision := revision, snapshotPageCount := pageCount,
      snapshotNextPage := 0 }
  else c

/-- The client while it waits for page `nextPage`. -/
def assembling (c : SignalClient) (revision pageCount nextPage : Nat) (rooms : List RoomListState) :
    SignalClient :=
  { c with
    snapshotRooms := rooms.foldl addItem ∅
    snapshotRevision := revision
    snapshotPageCount := pageCount
    snapshotNextPage := nextPage }

/-- The client that has the whole list; it tells the application. -/
def assembled (c : SignalClient) (revision : Nat) (rooms : List RoomListState) : SignalClient :=
  ({ c with
    roomListCache := rooms.foldl addItem ∅,
    roomListRevision := revision }.dropSnapshot).emitRoomList notify false

variable {K notify} {revision pageCount : Nat}

/-- One page: it is the one the client waits for, or the first one, which is always taken. -/
theorem onRoomList_page (c c₀ : SignalClient) {nextPage : Nat} {before page : List RoomListState}
    (hc : c.restarted revision pageCount nextPage =
      c₀.assembling revision pageCount nextPage before)
    (hrevision : revision < 2 ^ 64) (hcount : pageCount < 2 ^ 16) (hnext : nextPage < pageCount)
    (hlen : page.length < 2 ^ 16) (hpage : ∀ room ∈ page, room.Valid)
    (hnodup : ((before ++ page).map (·.roomId)).Nodup) :
    c.onRoomList K notify (Server.writeRoomListPage revision nextPage pageCount page) =
      (true, if nextPage + 1 = pageCount then c₀.assembled notify revision (before ++ page)
        else c₀.assembling revision pageCount (nextPage + 1) (before ++ page)) := by
  have hrooms : parse (readSnapshotRooms (before.foldl addItem ∅) page.length)
    (page.flatMap Server.writeRoomListItem) =
      some (some ((before ++ page).foldl addItem ∅)) := by
    rw [List.foldl_append]
    refine (reads_snapshotRooms hpage ?_ ?_).parse
    · rw [List.map_append] at hnodup
      exact (List.nodup_append.mp hnodup).2.1
    · intro room hroom hmem
      rw [List.map_append] at hnodup
      have hbefore :=
        ((mem_foldl_addItem before ∅ room.roomId).mp hmem).resolve_right
          Std.ExtTreeMap.not_mem_empty
      exact (List.nodup_append.mp hnodup).2.2 _ hbefore _ (List.mem_map.mpr ⟨room, hroom, rfl⟩) rfl
  unfold onRoomList
  rw [reads_roomListPage page hrevision (by omega) hcount hlen]
  dsimp only
  rw [← restarted, hc, if_neg (by simp [assembling])]
  rw [show (c₀.assembling revision pageCount nextPage before).snapshotRooms = before.foldl addItem ∅
    from rfl, hrooms]
  dsimp only
  split
  · rename_i hlast
    rw [if_pos (show nextPage + 1 = pageCount from hlast)]
    rfl
  · rename_i hmore
    rw [if_neg (show ¬ nextPage + 1 = pageCount from hmore)]
    rfl

/-- The pages that are still missing complete the list. -/
theorem onRoomListPages_rest (c c₀ : SignalClient) {nextPage : Nat} {before : List RoomListState}
    {pages : List (List RoomListState)}
    (hc : c.restarted revision pageCount nextPage =
      c₀.assembling revision pageCount nextPage before)
    (hrevision : revision < 2 ^ 64) (hcount : pageCount < 2 ^ 16) (hpages : pages ≠ [])
    (hlast : nextPage + pages.length = pageCount) (hlen : ∀ page ∈ pages, page.length < 2 ^ 16)
    (hpage : ∀ page ∈ pages, ∀ room ∈ page, room.Valid)
    (hnodup : ((before ++ pages.flatten).map (·.roomId)).Nodup) :
    c.onRoomListPages K notify
        (pages.mapIdx fun i page => Server.writeRoomListPage revision
          (nextPage + i) pageCount page) =
      (true, c₀.assembled notify revision (before ++ pages.flatten)) := by
  induction pages generalizing c nextPage before with
  | nil => exact absurd rfl hpages
  | cons page rest ih =>
    obtain ⟨hlen, hlenRest⟩ := List.forall_mem_cons.mp hlen
    obtain ⟨hfirst, hrest⟩ := List.forall_mem_cons.mp hpage
    rw [List.length_cons] at hlast
    rw [List.flatten_cons, ← List.append_assoc] at hnodup ⊢
    have hfront : ((before ++ page).map (·.roomId)).Nodup := by
      rw [List.map_append] at hnodup
      exact (List.nodup_append.mp hnodup).1
    have hstep : c.onRoomList K notify _ = _ :=
      onRoomList_page c c₀ hc hrevision hcount (by omega) hlen hfirst hfront
    rw [List.mapIdx_cons, onRoomListPages, Nat.add_zero, hstep]
    dsimp only
    by_cases hdone : rest = []
    · subst hdone
      rw [if_pos (show nextPage + 1 = pageCount from hlast), List.flatten_nil, List.append_nil]
      rfl
    · have hmore := List.length_pos_of_ne_nil hdone
      rw [if_neg (by omega)]
      have hwaits :
        (c₀.assembling revision pageCount (nextPage + 1) (before ++ page)).restarted
        revision pageCount
          (nextPage + 1) = c₀.assembling revision pageCount (nextPage + 1) (before ++ page) :=
        if_neg (Nat.succ_ne_zero _)
      have hnext := ih _ hwaits hdone (by omega) hlenRest hrest hnodup
      simpa only [Nat.add_assoc, Nat.add_comm 1] using hnext

end SignalClient

/-! ### From the server to the cache -/

namespace Server

variable {rooms : RoomTable} {revision : Nat}

/-- A table of rooms under their own ids, each as the server lists it. -/
def ListedTable (rooms : RoomTable) : Prop :=
  ∀ (roomId : Nat) (room : RoomListState), rooms[roomId]? = some room →
    room.roomId = roomId ∧ room.Listed

theorem ListedTable.mem (h : ListedTable rooms) {room : RoomListState}
    (hroom : room ∈ rooms.toList.map Prod.snd) :
    rooms[room.roomId]? = some room ∧ room.Listed := by
  obtain ⟨⟨roomId, room⟩, hmem, rfl⟩ := List.mem_map.mp hroom
  have hfound := Std.ExtTreeMap.mem_toList_iff_getElem?_eq_some.mp hmem
  obtain ⟨hid, hlisted⟩ := h roomId room hfound
  exact ⟨hid ▸ hfound, hlisted⟩

/-- The rooms come in the order of their ids. -/
theorem ListedTable.ordered (h : ListedTable rooms) :
    ((rooms.toList.map Prod.snd).map (·.roomId)).Pairwise (· < ·) := by
  rw [List.map_map, List.pairwise_map]
  refine rooms.ordered_keys_toList.imp_of_mem ?_
  intro a b ha hb hlt
  have hida := (h a.1 a.2 (Std.ExtTreeMap.mem_toList_iff_getElem?_eq_some.mp ha)).1
  have hidb := (h b.1 b.2 (Std.ExtTreeMap.mem_toList_iff_getElem?_eq_some.mp hb)).1
  change a.2.roomId < b.2.roomId
  rw [hida, hidb]
  exact compare_lt_iff_lt.mp hlt

theorem getElem?_foldl_addItem {page : List RoomListState} (hnodup : (page.map (·.roomId)).Nodup)
    (items : CliRoomTable) (roomId : Nat) :
    (page.foldl addItem items)[roomId]? =
      ((page.find? (·.roomId = roomId)).map RoomListState.item).or items[roomId]? := by
  induction page generalizing items with
  | nil => rfl
  | cons room page ih =>
    obtain ⟨hother, htail⟩ := List.nodup_cons.mp hnodup
    rw [List.foldl_cons, ih htail, addItem, Std.ExtTreeMap.getElem?_insert, List.find?_cons]
    by_cases heq : room.roomId = roomId
    · have hnone : page.find? (·.roomId = roomId) = none := by
        rw [List.find?_eq_none]
        intro later hlater hid
        exact hother (List.mem_map.mpr ⟨later, hlater, (of_decide_eq_true hid).trans heq.symm⟩)
      rw [hnone, if_pos (compare_eq_iff_eq.mpr heq), decide_eq_true heq]
      rfl
    · rw [if_neg (mt compare_eq_iff_eq.mp heq), decide_eq_false heq]

/-- The client's table of all rooms is the server's. -/
theorem ListedTable.foldl_addItem (h : ListedTable rooms) :
    (rooms.toList.map Prod.snd).foldl addItem ∅ = rooms.map fun _ room => room.item := by
  have hnodup : ((rooms.toList.map Prod.snd).map (·.roomId)).Nodup := h.ordered.imp Nat.ne_of_lt
  apply Std.ExtTreeMap.ext_getElem?
  intro roomId
  rw [getElem?_foldl_addItem hnodup, Std.ExtTreeMap.getElem?_map, Std.ExtTreeMap.getElem?_empty,
    Option.or_none]
  congr 1
  rcases hroom : rooms[roomId]? with _ | room
  · rw [List.find?_eq_none]
    intro room hmem hid
    have hfound := (h.mem hmem).1
    rw [of_decide_eq_true hid, hroom] at hfound
    cases hfound
  · have hmem : room ∈ rooms.toList.map Prod.snd :=
      List.mem_map.mpr ⟨(roomId, room),
        Std.ExtTreeMap.mem_toList_iff_getElem?_eq_some.mpr hroom, rfl⟩
    have hid := (h roomId room hroom).1
    rcases hfind : (rooms.toList.map Prod.snd).find? (·.roomId = roomId) with _ | found
    · have hnot := List.find?_eq_none.mp hfind room hmem
      exact absurd (decide_eq_true hid) hnot
    · have hfound := (h.mem (List.mem_of_find?_eq_some hfind)).1
      have hfits := List.find?_some hfind
      have hsame : found.roomId = roomId := by simpa using hfits
      rw [hsame, hroom] at hfound
      rw [hfind]
      exact hfound.symm

/-- The rooms of each page. -/
def pagesOf (rooms : RoomTable) : List (List RoomListState) :=
  packPages [] ROOM_LIST_PAGE_HEADER (rooms.toList.map Prod.snd)

theorem flatten_pagesOf (rooms : RoomTable) : (pagesOf rooms).flatten = rooms.toList.map Prod.snd :=
  flatten_packPages [] ROOM_LIST_PAGE_HEADER _

theorem ListedTable.pagesOf_fit (h : ListedTable rooms) :
    ∀ page ∈ pagesOf rooms, ROOM_LIST_PAGE_HEADER + recordsSize page ≤ ROOM_LIST_PAGE_PAYLOAD := by
  refine packPages_fit rfl (by decide) ?_
  intro room hroom
  have hname := (of_decide_eq_true (h.mem hroom).2.roomName).2
  have hsize := length_writeRoomListItem room
  simp only [MAX_ROOM_NAME_LEN, ROOM_LIST_PAGE_HEADER, ROOM_LIST_PAGE_PAYLOAD] at hname ⊢
  omega

theorem ListedTable.mem_page (h : ListedTable rooms) :
    ∀ page ∈ pagesOf rooms, ∀ room ∈ page, room.Listed := by
  intro page hpage room hroom
  refine (h.mem ?_).2
  rw [← flatten_pagesOf]
  exact List.mem_flatten.mpr ⟨page, hpage, hroom⟩

/-- The record count of a page is a 16-bit number. -/
theorem ListedTable.length_page (h : ListedTable rooms) :
    ∀ page ∈ pagesOf rooms, page.length < 2 ^ 16 := by
  intro page hpage
  have hfit := h.pagesOf_fit page hpage
  have hminimum := minimum_le_recordsSize fun room hroom =>
    (h.mem_page page hpage room hroom).toValid
  simp only [MessageValidatorDetail.MIN_ROOM_RECORD_SIZE, ROOM_LIST_PAGE_HEADER,
    ROOM_LIST_PAGE_PAYLOAD] at hfit hminimum
  omega

theorem ListedTable.nodup_pages (h : ListedTable rooms) :
    ((pagesOf rooms).flatten.map (·.roomId)).Nodup := by
  rw [flatten_pagesOf]
  exact h.ordered.imp Nat.ne_of_lt

theorem ListedTable.nodup_page (h : ListedTable rooms) :
    ∀ page ∈ pagesOf rooms, (page.map (·.roomId)).Nodup := by
  intro page hpage
  exact h.nodup_pages.sublist ((List.sublist_flatten_of_mem hpage).map _)

theorem buildRoomListPages_eq (hcount : (pagesOf rooms).length < 65536) :
    buildRoomListPages revision rooms =
      (pagesOf rooms).mapIdx fun pageIndex page =>
        writeRoomListPage revision pageIndex (pagesOf rooms).length page := by
  unfold buildRoomListPages
  change ((pagesOf rooms).take ((pagesOf rooms).length % 65536)).mapIdx
    (fun pageIndex page => writeRoomListPage revision pageIndex
      ((pagesOf rooms).length % 65536) page) = _
  rw [Nat.mod_eq_of_lt hcount, List.take_length]

/-- What a page says, and that it is well formed. -/
structure PageOk (revision pageIndex pageCount : Nat) (records : List RoomListState)
    (page : Bytes) : Prop where
  fits : page.length ≤ ROOM_LIST_PAGE_PAYLOAD
  valid : validateServerSignalPayload MSG_ROOM_LIST page = .valid
  header : readRoomListHeader page =
    some ((revision, pageIndex, pageCount, records.length), records.flatMap writeRoomListItem)

theorem ListedTable.pageOk (h : ListedTable rooms) (hpos : 0 < revision)
    (hrevision : revision < 2 ^ 64) (hcount : (pagesOf rooms).length < 65536) {pageIndex : Nat}
    {records : List RoomListState} (hrecords : (pagesOf rooms)[pageIndex]? = some records) :
    PageOk revision pageIndex (pagesOf rooms).length records
      (writeRoomListPage revision pageIndex (pagesOf rooms).length records) := by
  have hmem := List.mem_of_getElem? hrecords
  have hindex := (List.getElem?_eq_some_iff.mp hrecords).1
  have hlen := h.length_page records hmem
  have hfits : (writeRoomListPage revision pageIndex (pagesOf rooms).length records).length ≤
      ROOM_LIST_PAGE_PAYLOAD := by
    have hfit := h.pagesOf_fit records hmem
    simp only [recordsSize, ROOM_LIST_PAGE_HEADER] at hfit
    simp only [writeRoomListPage, List.length_append, length_writeU64, length_writeU16]
    omega
  constructor
  · exact hfits
  · change (if ROOM_LIST_PAGE_PAYLOAD < _ then _ else _) = MessageValidationResult.valid
    rw [if_neg (Nat.not_lt_of_le hfits)]
    exact MessageValidatorDetail.readRoomList_page hpos hrevision hindex hcount hlen
      (h.mem_page records hmem)
      (h.nodup_page records hmem)
  · exact reads_roomListPage records hrevision (hindex.trans hcount) hcount hlen

/-- **The room list in pages.**  For every table of listed rooms and every
    revision: the pages cut the rooms in the order of their ids; each page stays
    within the limit, passes the check, and says its place and what it holds;
    and a client that gets them in order, whatever part of a list it had, ends
    with exactly the rooms of the table and tells the application. -/
theorem room_list_paging (rooms : RoomTable) (hrooms : ListedTable rooms) (revision : Nat)
    (hpos : 0 < revision)
    (hrevision : revision < 2 ^ 64) (hcount : (pagesOf rooms).length < 65536) :
    (∃ packed : List (List RoomListState),
      packed ≠ [] ∧ packed.length = (buildRoomListPages revision rooms).length ∧
      packed.flatten = rooms.toList.map Prod.snd ∧
      (packed.flatten.map (·.roomId)).Pairwise (· < ·) ∧
      ∀ pageIndex page, (buildRoomListPages revision rooms)[pageIndex]? = some page →
        ∃ records, packed[pageIndex]? = some records ∧
        PageOk revision pageIndex packed.length records page) ∧
    ∀ K notify (c : SignalClient),
      c.onRoomListPages K notify (buildRoomListPages revision rooms) =
        (true, ({ c with
          roomListCache := rooms.map fun _ (room : RoomListState) => room.item
          roomListRevision := revision }.dropSnapshot).emitRoomList notify false) := by
  have hpages : buildRoomListPages revision rooms = _ := buildRoomListPages_eq hcount
  have hne : pagesOf rooms ≠ [] := packPages_ne_nil [] ROOM_LIST_PAGE_HEADER _
  constructor
  · refine ⟨pagesOf rooms, hne, ?_, flatten_pagesOf rooms, ?_, ?_⟩
    · rw [hpages, List.length_mapIdx]
    · rw [flatten_pagesOf]
      exact hrooms.ordered
    · intro pageIndex page hpage
      rw [hpages, List.getElem?_mapIdx, Option.map_eq_some_iff] at hpage
      obtain ⟨records, hrecords, rfl⟩ := hpage
      exact ⟨records, hrecords, hrooms.pageOk hpos hrevision hcount hrecords⟩
  · intro K notify c
    have hstart : c.restarted revision (pagesOf rooms).length 0 =
      c.assembling revision (pagesOf rooms).length 0 [] := rfl
    have hall : c.onRoomListPages K notify _ =
        (true, c.assembled notify revision ([] ++ (pagesOf rooms).flatten)) :=
      SignalClient.onRoomListPages_rest c c hstart hrevision hcount hne
        (Nat.zero_add _) hrooms.length_page
        (fun page hpage room hroom => (hrooms.mem_page page hpage room hroom).toValid)
        hrooms.nodup_pages
    simp only [Nat.zero_add, List.nil_append] at hall
    rw [hpages, hall, SignalClient.assembled, flatten_pagesOf, hrooms.foldl_addItem]

/-- Rooms that do not fit on one page are cut. -/
theorem ListedTable.two_le_length_pagesOf (h : ListedTable rooms)
    (hsize : ROOM_LIST_PAGE_PAYLOAD < recordsSize (rooms.toList.map Prod.snd)) :
    2 ≤ (pagesOf rooms).length := by
  have hne : pagesOf rooms ≠ [] := packPages_ne_nil [] ROOM_LIST_PAGE_HEADER _
  have hpos := List.length_pos_of_ne_nil hne
  by_contra hfew
  obtain ⟨page, hpage⟩ := List.length_eq_one_iff.mp (show (pagesOf rooms).length = 1 by omega)
  have hall := flatten_pagesOf rooms
  rw [hpage, List.flatten_singleton] at hall
  have hfit := h.pagesOf_fit page (by simp [hpage])
  rw [hall] at hfit
  omega

/-- The rooms 1 to `n`, with the longest names there are. -/
def numberedRooms : Nat → RoomTable
  | 0 => ∅
  | n + 1 =>
    (numberedRooms n).insert (n + 1) (namedRoom (n + 1) (List.replicate 62 65 ++ [UInt8.ofNat n]))

theorem getElem?_numberedRooms {n roomId : Nat} {room : RoomListState}
    (h : (numberedRooms n)[roomId]? = some room) :
    1 ≤ roomId ∧ roomId ≤ n ∧
      room = namedRoom roomId (List.replicate 62 65 ++ [UInt8.ofNat (roomId - 1)]) := by
  induction n with
  | zero =>
    rw [numberedRooms, Std.ExtTreeMap.getElem?_empty] at h
    cases h
  | succ n ih =>
    rw [numberedRooms, Std.ExtTreeMap.getElem?_insert] at h
    split at h
    · rename_i hid
      obtain rfl := compare_eq_iff_eq.mp hid
      exact ⟨by omega, by omega, (Option.some.inj h).symm⟩
    · obtain ⟨hpos, hle, hroom⟩ := ih h
      exact ⟨hpos, by omega, hroom⟩

theorem listedTable_numberedRooms {n : Nat} (hn : n < 2 ^ 32) : ListedTable (numberedRooms n) := by
  intro roomId room hroom
  obtain ⟨hpos, hle, rfl⟩ := getElem?_numberedRooms hroom
  have hname : isValidRoomName (List.replicate 62 65 ++ [UInt8.ofNat (roomId - 1)]) = true := by
    simp [isValidRoomName, MAX_ROOM_NAME_LEN]
  have hplayers : 2 ≤ 4 ∧ 4 ≤ MAX_PLAYERS := by decide
  exact ⟨rfl, namedRoom_valid (by omega) hname, hpos, hplayers, show 1 ≤ 4 by decide⟩

theorem length_numberedRooms (n : Nat) : ((numberedRooms n).toList.map Prod.snd).length = n := by
  rw [List.length_map, Std.ExtTreeMap.length_toList]
  induction n with
  | zero => rfl
  | succ n ih =>
    have hnew : n + 1 ∉ numberedRooms n := by
      intro hmem
      have hle := (getElem?_numberedRooms (Std.ExtTreeMap.getElem?_eq_some_getElem hmem)).2.1
      omega
    rw [numberedRooms, Std.ExtTreeMap.size_insert,
      if_neg (mt Std.ExtTreeMap.contains_iff_mem.mp hnew), ih]

/-- Each record takes 80 bytes. -/
theorem recordsSize_numberedRooms {n : Nat} (hn : n < 2 ^ 32) :
    recordsSize ((numberedRooms n).toList.map Prod.snd) = 80 * n := by
  have hsizes : ∀ size ∈ ((numberedRooms n).toList.map Prod.snd).map
      (fun room => (writeRoomListItem room).length), size = 80 := by
    intro size hsize
    obtain ⟨room, hroom, rfl⟩ := List.mem_map.mp hsize
    have hfound := ((listedTable_numberedRooms hn).mem hroom).1
    have hlong := (getElem?_numberedRooms hfound).2.2
    rw [length_writeRoomListItem, hlong]
    simp [namedRoom]
  rw [recordsSize, List.length_flatMap, List.eq_replicate_of_mem hsizes, List.sum_replicate_nat,
    List.length_map, length_numberedRooms, Nat.mul_comm]

/-- A thousand rooms fill more than one page. -/
theorem room_list_paging_thousandRooms :
    2 ≤ (buildRoomListPages 2 (numberedRooms 1000)).length ∧
    (∃ packed : List (List RoomListState),
      packed ≠ [] ∧ packed.length = (buildRoomListPages 2 (numberedRooms 1000)).length ∧
      packed.flatten = (numberedRooms 1000).toList.map Prod.snd ∧
      (packed.flatten.map (·.roomId)).Pairwise (· < ·) ∧
      ∀ pageIndex page, (buildRoomListPages 2 (numberedRooms 1000))[pageIndex]? = some page →
        ∃ records, packed[pageIndex]? = some records ∧
          PageOk 2 pageIndex packed.length records page) ∧
    ∀ K notify (c : SignalClient),
      c.onRoomListPages K notify (buildRoomListPages 2 (numberedRooms 1000)) =
        (true, ({ c with
          roomListCache := (numberedRooms 1000).map fun _ (room : RoomListState) => room.item
          roomListRevision := 2 }.dropSnapshot).emitRoomList notify false) := by
  have hrooms : ListedTable (numberedRooms 1000) := listedTable_numberedRooms (by decide)
  have hcount : (pagesOf (numberedRooms 1000)).length < 65536 := by
    have hle : (pagesOf (numberedRooms 1000)).length ≤ _ :=
      length_packPages_le [] ROOM_LIST_PAGE_HEADER _
    rw [length_numberedRooms] at hle
    omega
  have htwo : 2 ≤ (pagesOf (numberedRooms 1000)).length := by
    apply hrooms.two_le_length_pagesOf
    rw [recordsSize_numberedRooms (by decide), ROOM_LIST_PAGE_PAYLOAD]
    omega
  refine ⟨?_, room_list_paging (numberedRooms 1000) hrooms 2 (by decide) (by decide) hcount⟩
  rw [buildRoomListPages_eq hcount, List.length_mapIdx]
  exact htwo

end Server

end VlanConnect

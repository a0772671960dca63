/-
  VlanConnect/Server/Rooms.lean
  =============================
  **Operations on rooms, as the registry sees them.**

  The code works on the first lease of a peer, or on the lease at a position;
  as no peer has two leases in a room this is `mapLease` and `dropLease`.
-/
import VlanConnect.Server.Sending
import Mathlib.Data.List.Nodup

namespace VlanConnect

open Registry

/-! ### Lists of leases -/

theorem updateLease_eq_mapLease {p : Nat} {f : RoomLease → RoomLease} {ls : List RoomLease}
    (hnd : (ls.map (·.peerId)).Nodup) : updateLease p f ls = mapLease p f ls := by
  induction ls with
  | nil => rfl
  | cons l ls ih =>
    obtain ⟨hl, hnd⟩ := List.nodup_cons.mp hnd
    unfold updateLease mapLease
    rw [List.map_cons]
    split
    · next hp =>
      have hrest : ∀ l' ∈ ls, l'.peerId ≠ p := fun l' hl' hp' =>
        hl (List.mem_map.mpr ⟨l', hl', hp'.trans hp.symm⟩)
      exact congrArg (f l :: ·) (Reg.mapLease_of_forall_ne hrest).symm
    · exact congrArg (l :: ·) (ih hnd)

theorem eraseP_eq_dropLease {p : Nat} {ls : List RoomLease} (hnd : (ls.map (·.peerId)).Nodup) :
    ls.eraseP (·.peerId == p) = dropLease p ls := by
  induction ls with
  | nil => rfl
  | cons l ls ih =>
    obtain ⟨hl, hnd⟩ := List.nodup_cons.mp hnd
    by_cases hp : l.peerId = p
    · have hrest : dropLease p ls = ls := by
        refine List.filter_eq_self.mpr fun l' hl' => ?_
        simp only [bne_iff_ne]
        exact fun hp' => hl (List.mem_map.mpr ⟨l', hl', hp'.trans hp.symm⟩)
      rw [dropLease, List.filter_cons, if_neg (by simp [hp]),
        List.eraseP_cons_of_pos (by simp [hp])]
      exact hrest.symm
    · rw [dropLease, List.filter_cons, if_pos (by simp [hp]),
        List.eraseP_cons_of_neg (by simp [hp]), ih hnd]
      rfl

theorem set_eq_mapLease {f : RoomLease → RoomLease} {ls : List RoomLease} {i : Nat} {l : RoomLease}
    (hnd : (ls.map (·.peerId)).Nodup) (hi : ls[i]? = some l) :
    ls.set i (f l) = mapLease l.peerId f ls := by
  induction ls generalizing i with
  | nil => simp at hi
  | cons a ls ih =>
    obtain ⟨ha, hnd⟩ := List.nodup_cons.mp hnd
    cases i with
    | zero =>
      simp only [List.getElem?_cons_zero, Option.some.injEq] at hi
      subst hi
      have hrest : ∀ l' ∈ ls, l'.peerId ≠ a.peerId := fun l' hl' hp' =>
        ha (List.mem_map.mpr ⟨l', hl', hp'⟩)
      have := Reg.mapLease_of_forall_ne (f := f) hrest
      simp only [mapLease] at this
      simp [mapLease, this]
    | succ i =>
      have hne : a.peerId ≠ l.peerId := fun hp =>
        ha (List.mem_map.mpr ⟨l, List.mem_of_getElem? hi, hp.symm⟩)
      simp only [List.getElem?_cons_succ] at hi
      rw [List.set_cons_succ, ih hnd hi]
      simp [mapLease, hne]

theorem eraseIdx_eq_dropLease {ls : List RoomLease} {i : Nat} {l : RoomLease}
    (hnd : (ls.map (·.peerId)).Nodup) (hi : ls[i]? = some l) :
    ls.eraseIdx i = dropLease l.peerId ls := by
  induction ls generalizing i with
  | nil => simp at hi
  | cons a ls ih =>
    have hall := hnd
    obtain ⟨ha, hnd⟩ := List.nodup_cons.mp hnd
    cases i with
    | zero =>
      simp only [List.getElem?_cons_zero, Option.some.injEq] at hi
      subst hi
      rw [← eraseP_eq_dropLease hall]
      simp
    | succ i =>
      simp only [List.getElem?_cons_succ] at hi
      have hne : a.peerId ≠ l.peerId := fun hp =>
        ha (List.mem_map.mpr ⟨l, List.mem_of_getElem? hi, hp.symm⟩)
      rw [List.eraseIdx_cons_succ, ih hnd hi, dropLease, dropLease, List.filter_cons,
        if_pos (by simp [hne])]

/-! ### Rooms -/

namespace Room

theorem ensureHost_eq (r : Room) :
    r.ensureHost = { r with hostPeerId := r.ensureHost.hostPeerId } := by
  unfold ensureHost
  split
  · rfl
  · split
    · rfl
    · split <;> rfl

@[simp] theorem ensureHost_leases (r : Room) : r.ensureHost.leases = r.leases := by
  rw [ensureHost_eq]

theorem mem_of_leaseByPeerId {r : Room} {p : Nat} {l : RoomLease} (h : r.leaseByPeerId p = some l) :
    l ∈ r.leases ∧ l.peerId = p :=
  ⟨List.mem_of_find?_eq_some h, by simpa using List.find?_some h⟩

theorem hasLease_iff {r : Room} {p : Nat} : r.hasLease p = true ↔ ∃ l ∈ r.leases, l.peerId = p := by
  simp [hasLease, leaseByPeerId]

theorem leaseByPeerId_eq {r : Room} (hnd : (r.leases.map (·.peerId)).Nodup) {l : RoomLease}
    (hl : l ∈ r.leases) : r.leaseByPeerId l.peerId = some l := by
  rcases h : r.leaseByPeerId l.peerId with _ | l'
  · exact absurd (List.find?_eq_none.mp h l hl) (by simp)
  · obtain ⟨hl', hp⟩ := mem_of_leaseByPeerId h
    rw [List.inj_on_of_nodup_map hnd hl' hl hp]

theorem removeLease_leases {r : Room} (hnd : (r.leases.map (·.peerId)).Nodup) (p : Nat) :
    (r.removeLease p).leases = dropLease p r.leases := by
  unfold removeLease
  split
  · rw [ensureHost_leases, eraseP_eq_dropLease hnd]
  · next h =>
    refine (List.filter_eq_self.mpr fun l hl => ?_).symm
    simp only [bne_iff_ne]
    exact fun hp => h (hasLease_iff.mpr ⟨l, hl, hp⟩)

theorem markLeaseOffline_leases {r : Room} (hnd : (r.leases.map (·.peerId)).Nodup) (p now : Nat) :
    (r.markLeaseOffline p now).leases = mapLease p (·.markOffline now) r.leases :=
  updateLease_eq_mapLease hnd

theorem markLeaseOnline_leases {r : Room} (hnd : (r.leases.map (·.peerId)).Nodup) (p : Nat) :
    (r.markLeaseOnline p).leases = mapLease p (·.markOnline) r.leases := by
  unfold markLeaseOnline
  split
  · rw [ensureHost_leases]
    exact updateLease_eq_mapLease hnd
  · next h => exact (Reg.mapLease_of_forall_ne fun l hl hp => h (hasLease_iff.mpr ⟨l, hl, hp⟩)).symm

/-- The settings of a room: all but its leases and its host. -/
structure SameShape (r r' : Room) : Prop where
  id : r'.id = r.id
  name : r'.name = r.name
  maxPlayers : r'.maxPlayers = r.maxPlayers
  tcpPolicy : r'.tcpPolicy = r.tcpPolicy
  udpPolicy : r'.udpPolicy = r.udpPolicy
  passwordProtected : r'.passwordProtected = r.passwordProtected
  passwordHash : r'.passwordHash = r.passwordHash
  passwordSalt : r'.passwordSalt = r.passwordSalt
  mtu : r'.mtu = r.mtu

theorem SameShape.refl (r : Room) : SameShape r r := ⟨rfl, rfl, rfl, rfl, rfl, rfl, rfl, rfl, rfl⟩

theorem SameShape.trans {r₁ r₂ r₃ : Room} (h : SameShape r₁ r₂) (h' : SameShape r₂ r₃) :
    SameShape r₁ r₃ :=
  ⟨h'.id.trans h.id, h'.name.trans h.name, h'.maxPlayers.trans h.maxPlayers,
    h'.tcpPolicy.trans h.tcpPolicy,
    h'.udpPolicy.trans h.udpPolicy, h'.passwordProtected.trans h.passwordProtected,
    h'.passwordHash.trans h.passwordHash, h'.passwordSalt.trans h.passwordSalt, h'.mtu.trans h.mtu⟩

theorem SameShape.leases (r : Room) (ls : List RoomLease) : SameShape r { r with leases := ls } :=
  ⟨rfl, rfl, rfl, rfl, rfl, rfl, rfl, rfl, rfl⟩

theorem SameShape.ensureHost (r : Room) : SameShape r r.ensureHost := by
  rw [ensureHost_eq]
  exact ⟨rfl, rfl, rfl, rfl, rfl, rfl, rfl, rfl, rfl⟩

/-- No new address is given out. -/
structure Shrinks (r r' : Room) : Prop extends SameShape r r' where
  addresses : (r'.leases.map (·.virtualIP)).Sublist (r.leases.map (·.virtualIP))

theorem Shrinks.refl (r : Room) : Shrinks r r := ⟨SameShape.refl r, List.Sublist.refl _⟩

theorem Shrinks.leases {r : Room} {ls : List RoomLease}
    (h : (ls.map (·.virtualIP)).Sublist (r.leases.map (·.virtualIP))) :
    Shrinks r { r with leases := ls } :=
  ⟨SameShape.leases r ls, h⟩

theorem Shrinks.ensureHost {r r' : Room} (h : Shrinks r r') : Shrinks r r'.ensureHost :=
  ⟨h.toSameShape.trans (SameShape.ensureHost r'), by rw [ensureHost_leases]; exact h.addresses⟩

theorem addresses_updateLease {p : Nat} {f : RoomLease → RoomLease}
    (hf : ∀ l, (f l).virtualIP = l.virtualIP) (ls : List RoomLease) :
    (updateLease p f ls).map (·.virtualIP) = ls.map (·.virtualIP) := by
  induction ls with
  | nil => rfl
  | cons l ls ih =>
    unfold updateLease
    split
    · simp [hf]
    · simp [ih]

theorem Shrinks.removeLease (r : Room) (p : Nat) : Shrinks r (r.removeLease p) := by
  unfold Room.removeLease
  split
  · exact (Shrinks.leases ((List.eraseP_sublist).map _)).ensureHost
  · exact Shrinks.refl r

theorem Shrinks.markLeaseOffline (r : Room) (p now : Nat) : Shrinks r (r.markLeaseOffline p now) :=
  Shrinks.leases (by rw [addresses_updateLease (f := (·.markOffline now)) fun _ => rfl])

theorem Shrinks.markLeaseOnline (r : Room) (p : Nat) : Shrinks r (r.markLeaseOnline p) := by
  unfold Room.markLeaseOnline
  split
  · exact (Shrinks.leases (by rw [addresses_updateLease (f := (·.markOnline)) fun _ =>
      rfl])).ensureHost
  · exact Shrinks.refl r

/-- One of the host addresses of the virtual subnet. -/
def IsHostAddress (ip : Nat) : Prop :=
  VNET_SUBNET + VNET_FIRST_HOST_SUFFIX ≤ ip ∧ ip ≤ VNET_SUBNET + VNET_LAST_HOST_SUFFIX

/-- A new address is a host address that no lease has. -/
theorem allocateVirtualIP_spec {r : Room} (h : r.allocateVirtualIP ≠ 0) :
    IsHostAddress r.allocateVirtualIP ∧ ∀ l ∈ r.leases, l.virtualIP ≠ r.allocateVirtualIP := by
  unfold allocateVirtualIP at h ⊢
  dsimp only at h ⊢
  rcases hf : List.find? _ _ with _ | ip
  · rw [hf] at h
    exact absurd rfl h
  · obtain ⟨suffix, hs, rfl⟩ := List.mem_map.mp (List.mem_of_find?_eq_some hf)
    obtain ⟨i, hi, rfl⟩ := List.mem_map.mp hs
    have hi := List.mem_range.mp hi
    have hfree := List.find?_some hf
    refine ⟨?_, fun l hl heq => ?_⟩
    · have hor : VNET_SUBNET ||| (VNET_FIRST_HOST_SUFFIX + i) =
          VNET_SUBNET + (VNET_FIRST_HOST_SUFFIX + i) := by
        have hlt : VNET_FIRST_HOST_SUFFIX + i < 2 ^ 16 := by
          simp only [VNET_LAST_HOST_SUFFIX, VNET_FIRST_HOST_SUFFIX] at hi ⊢
          omega
        exact (Nat.two_pow_add_eq_or_of_lt hlt 0x0A0A).symm
      simp only [Option.getD_some, hor, IsHostAddress]
      simp only [VNET_LAST_HOST_SUFFIX, VNET_FIRST_HOST_SUFFIX] at hi ⊢
      omega
    · simp only [Option.getD_some] at heq
      simp only [hasVirtualIP, Bool.not_eq_eq_eq_not, Bool.not_true, List.any_eq_false,
        beq_iff_eq] at hfree
      exact hfree l hl heq

/-- A new lease, and the room with it at the end of the list. -/
theorem addLease_eq_some {r r' : Room} {p : Nat} {name token : Bytes} {l : RoomLease}
    (h : r.addLease p name token = some (l, r')) :
    r.isFull = false ∧ r.hasLease p = false ∧ l.peerId = p ∧ l.name = name ∧ l.token = token ∧
    l.online = true ∧
      IsHostAddress l.virtualIP ∧ (∀ l' ∈ r.leases, l'.virtualIP ≠ l.virtualIP) ∧
      r'.leases = r.leases ++ [l] ∧ SameShape r r' := by
  unfold addLease at h
  split at h
  · cases h
  · next hfull =>
    dsimp only at h
    split at h
    · cases h
    · next hip =>
      obtain ⟨hhost, hnew⟩ := allocateVirtualIP_spec hip
      simp only [Option.some.injEq, Prod.mk.injEq] at h
      obtain ⟨rfl, rfl⟩ := h
      simp only [not_or, Bool.not_eq_true] at hfull
      exact ⟨hfull.1, hfull.2, rfl, rfl, rfl, rfl, hhost, hnew, by simp,
        (SameShape.leases r _).trans (SameShape.ensureHost _)⟩

theorem IsHostAddress.lt {ip : Nat} (h : IsHostAddress ip) : ip < 2 ^ 32 :=
  lt_of_le_of_lt h.2 (by decide)

/-- The room has members, and its host is one of them. -/
def Settled (r : Room) : Prop := ∃ l ∈ r.leases, l.peerId = r.hostPeerId

theorem settled_ensureHost {r : Room} (h : r.leases ≠ []) : r.ensureHost.Settled := by
  unfold Settled
  rw [ensureHost_leases]
  unfold ensureHost
  split
  · next hnil => exact absurd hnil h
  next first rest hls =>
  split
  · next hhas =>
    obtain ⟨l, hl, hp⟩ := hasLease_iff.mp hhas
    exact ⟨l, hl, hp⟩
  split
  · next l hfind => exact ⟨l, List.mem_of_find?_eq_some hfind, rfl⟩
  · exact ⟨first, by rw [hls]; exact List.mem_cons_self, rfl⟩

theorem settled_addLease {r r' : Room} {p : Nat} {name token : Bytes} {l : RoomLease}
    (h : r.addLease p name token = some (l, r')) : r'.Settled := by
  unfold addLease at h
  split at h
  · cases h
  dsimp only at h
  split at h
  · cases h
  simp only [Option.some.injEq, Prod.mk.injEq] at h
  rw [← h.2]
  exact settled_ensureHost (by simp)

theorem settled_removeLease {r : Room} {p : Nat} (hr : r.Settled)
    (h : (r.removeLease p).leases ≠ []) :
    (r.removeLease p).Settled := by
  unfold removeLease at h ⊢
  split
  · next hhas =>
    rw [if_pos hhas, ensureHost_leases] at h
    exact settled_ensureHost h
  · exact hr

theorem exists_updateLease {p : Nat} {f : RoomLease → RoomLease} (hf : ∀ l, (f l).peerId = l.peerId)
    {ls : List RoomLease} {l : RoomLease} (hl : l ∈ ls) :
    ∃ l' ∈ updateLease p f ls, l'.peerId = l.peerId := by
  induction ls with
  | nil => cases hl
  | cons a ls ih =>
    unfold updateLease
    rcases List.mem_cons.mp hl with rfl | hl
    · split
      · exact ⟨f l, List.mem_cons_self, hf l⟩
      · exact ⟨l, List.mem_cons_self, rfl⟩
    · split
      · exact ⟨l, List.mem_cons_of_mem _ hl, rfl⟩
      · obtain ⟨l', hl', hp⟩ := ih hl
        exact ⟨l', List.mem_cons_of_mem _ hl', hp⟩

theorem settled_markLeaseOffline {r : Room} (h : r.Settled) (p now : Nat) :
    (r.markLeaseOffline p now).Settled := by
  obtain ⟨l, hl, hp⟩ := h
  obtain ⟨l', hl', hp'⟩ := exists_updateLease (p := p) (f := (·.markOffline now)) (fun _ => rfl) hl
  exact ⟨l', hl', hp'.trans hp⟩

theorem settled_markLeaseOnline {r : Room} (h : r.Settled) (p : Nat) :
    (r.markLeaseOnline p).Settled := by
  unfold markLeaseOnline
  split
  · refine settled_ensureHost ?_
    obtain ⟨l, hl, _⟩ := h
    obtain ⟨l', hl', _⟩ := exists_updateLease (p := p) (f := (·.markOnline)) (fun _ => rfl) hl
    exact List.ne_nil_of_mem hl'
  · exact h

end Room

/-! ### The room table -/

/-- The policy is one that the reader of a message returns unchanged. -/
def RoomTrafficPolicy.Normal (p : RoomTrafficPolicy) : Prop :=
  p.transportMode = .relayTcp → p.fecMode = .none

/-- What a room is bound to by the check of the request that made it, and by
    the checks of `addLease`. -/
structure Room.Listable (r : Room) : Prop where
  name : r.name.length ≤ MAX_ROOM_NAME_LEN
  minPlayers : 2 ≤ r.maxPlayers
  maxPlayers : r.maxPlayers ≤ MAX_PLAYERS
  tcpPolicy : r.tcpPolicy.Normal
  udpPolicy : r.udpPolicy.Normal
  passwordProtected : r.passwordProtected < 2 ^ 8
  mtu : r.mtu < 2 ^ 16
  members : r.leases.length ≤ r.maxPlayers
  addresses : (r.leases.map (·.virtualIP)).Nodup
  hosts : ∀ l ∈ r.leases, Room.IsHostAddress l.virtualIP

theorem Room.SameShape.listable {r r' : Room} (hs : Room.SameShape r r') (h : r.Listable)
    (hmembers : r'.leases.length ≤ r.maxPlayers) (haddresses : (r'.leases.map (·.virtualIP)).Nodup)
    (hhosts : ∀ l ∈ r'.leases, Room.IsHostAddress l.virtualIP) : r'.Listable :=
  ⟨hs.name ▸ h.name, hs.maxPlayers ▸ h.minPlayers, hs.maxPlayers ▸ h.maxPlayers,
    hs.tcpPolicy ▸ h.tcpPolicy,
    hs.udpPolicy ▸ h.udpPolicy, hs.passwordProtected ▸ h.passwordProtected, hs.mtu ▸ h.mtu,
    hs.maxPlayers ▸ hmembers, haddresses, hhosts⟩

theorem Room.Shrinks.listable {r r' : Room} (hs : Room.Shrinks r r') (h : r.Listable) :
    r'.Listable := by
  refine hs.toSameShape.listable h ?_ (h.addresses.sublist hs.addresses) fun l hl => ?_
  · have hlen := hs.addresses.length_le
    rw [List.length_map, List.length_map] at hlen
    exact hlen.trans h.members
  · obtain ⟨l₀, hl₀, heq⟩ := List.mem_map.mp (hs.addresses.subset (List.mem_map_of_mem hl))
    have hhost := h.hosts l₀ hl₀
    rw [heq] at hhost
    exact hhost

theorem Room.listable_addLease {r r' : Room} {p : Nat} {name token : Bytes} {l : RoomLease}
    (h : r.Listable) (hadd : r.addLease p name token = some (l, r')) : r'.Listable := by
  obtain ⟨hfull, _, _, _, _, _, hhost, hnew, hleases, hshape⟩ := Room.addLease_eq_some hadd
  have hlt : r.leases.length < r.maxPlayers := by simpa [Room.isFull] using hfull
  refine hshape.listable h ?_ ?_ ?_
  · rw [hleases, List.length_append, List.length_singleton]
    exact hlt
  · rw [hleases, List.map_append, List.map_singleton, List.nodup_append]
    refine ⟨h.addresses, by simp, ?_⟩
    rintro ip hip _ (heq : _ ∈ [_]) rfl
    obtain ⟨l', hl', rfl⟩ := List.mem_map.mp hip
    exact hnew l' hl' (List.mem_singleton.mp heq)
  · intro l' hl'
    rw [hleases] at hl'
    rcases List.mem_append.mp hl' with hl' | hl'
    · exact h.hosts l' hl'
    · rw [List.mem_singleton.mp hl']
      exact hhost

/-- The keys of the table are the ids of its rooms, and no id is both used and
    free. -/
structure RoomManager.Ids (m : RoomManager) : Prop where
  next_pos : 0 < m.nextRoomId
  room : ∀ {id r}, m.getRoom id = some r → r.id = id ∧ id ≠ 0 ∧ id < m.nextRoomId ∧
    id ∉ m.freeRoomIds ∧
    r.Listable
  free : ∀ {id}, id ∈ m.freeRoomIds → id ≠ 0 ∧ id < m.nextRoomId

/-- In addition, every id is used or free, and there were never more than
    `cap` rooms. -/
structure RoomManager.WF (cap : Nat) (m : RoomManager) : Prop extends RoomManager.Ids m where
  counted : m.nextRoomId = m.rooms.size + m.freeRoomIds.size + 1
  capacity : m.nextRoomId ≤ cap + 1

namespace RoomManager

theorem WF.empty (cap : Nat) : ({} : RoomManager).WF cap where
  next_pos := Nat.one_pos
  room h := by simp [getRoom] at h
  free h := by simp at h
  counted := by simp
  capacity := Nat.le_add_left 1 cap

theorem getRoom_setRoom (m : RoomManager) (id id' : Nat) (r : Room) :
    (m.setRoom id r).getRoom id' = if id' = id then some r else m.getRoom id' := by
  simp only [getRoom, setRoom, Std.ExtTreeMap.getElem?_insert]
  by_cases h : id' = id
  · subst h
    simp
  · simp [h, Ne.symm h]

theorem getRoom_eraseRoom (m : RoomManager) (id id' : Nat) :
    (m.eraseRoom id).getRoom id' = if id' = id then none else m.getRoom id' := by
  unfold eraseRoom getRoom
  split
  · next hnot =>
    split
    · next h =>
      subst h
      simpa using hnot
    · rfl
  · by_cases h : id' = id
    · subst h
      simp
    · simp [h, Ne.symm h, Std.ExtTreeMap.getElem?_erase]

variable {cap : Nat}

theorem Ids.setRoom {m : RoomManager} (h : m.Ids) {id : Nat} {r r' : Room}
    (hr : m.getRoom id = some r) (hid' : r'.id = r.id) (hlist' : r.Listable → r'.Listable) :
    (m.setRoom id r').Ids where
  next_pos := h.next_pos
  room {id' r''} h' := by
    rw [getRoom_setRoom] at h'
    split at h'
    · next heq =>
      subst heq
      cases h'
      obtain ⟨hid, h0, hlt, hnf, hlist⟩ := h.room hr
      exact ⟨hid'.trans hid, h0, hlt, hnf, hlist' hlist⟩
    · exact h.room h'
  free := h.free

theorem mem_rooms {m : RoomManager} {id : Nat} {r : Room} (h : m.getRoom id = some r) :
    id ∈ m.rooms :=
  Std.ExtTreeMap.mem_iff_isSome_getElem?.mpr (Option.isSome_iff_exists.mpr ⟨r, h⟩)

theorem not_mem_rooms {m : RoomManager} {id : Nat} (h : m.getRoom id = none) : id ∉ m.rooms := by
  rw [Std.ExtTreeMap.mem_iff_isSome_getElem?, show m.rooms[id]? = none from h]
  simp

theorem WF.setRoom {m : RoomManager} (h : m.WF cap) {id : Nat} {r r' : Room}
    (hr : m.getRoom id = some r) (hid : r'.id = r.id) (hlist : r.Listable → r'.Listable) :
    (m.setRoom id r').WF cap := by
  refine ⟨h.toIds.setRoom hr hid hlist, ?_, h.capacity⟩
  have hsize : (m.rooms.insert id r').size = m.rooms.size := by
    simp [Std.ExtTreeMap.size_insert, mem_rooms hr]
  exact h.counted.trans (by rw [RoomManager.setRoom, hsize])

theorem WF.eraseRoom {m : RoomManager} (h : m.WF cap) (id : Nat) : (m.eraseRoom id).WF cap := by
  by_cases hmem : id ∈ m.rooms
  · obtain ⟨r, hr⟩ := Option.isSome_iff_exists.mp (Std.ExtTreeMap.mem_iff_isSome_getElem?.mp hmem)
    obtain ⟨_, h0, hlt, hnf, _⟩ := h.room hr
    have heq : m.eraseRoom id = { m with
        rooms := m.rooms.erase id, freeRoomIds := m.freeRoomIds.insert id } := by
      simp [RoomManager.eraseRoom, hmem, h0]
    have hfree : ∀ id', id' ∈ (m.eraseRoom id).freeRoomIds ↔ id' = id ∨ id' ∈ m.freeRoomIds := by
      intro id'
      rw [heq, Std.ExtTreeSet.mem_insert, Nat.compare_eq_eq]
      exact or_congr_left eq_comm
    have hnext : (m.eraseRoom id).nextRoomId = m.nextRoomId := by rw [heq]
    refine ⟨⟨hnext ▸ h.next_pos, ?_, ?_⟩, ?_, hnext ▸ h.capacity⟩
    · intro id' r' hr'
      rw [getRoom_eraseRoom] at hr'
      split at hr'
      · cases hr'
      · next hne =>
        obtain ⟨hid, h0', hlt', hnf, hlist⟩ := h.room hr'
        rw [hnext, hfree]
        exact ⟨hid, h0', hlt', by simp [hne, hnf], hlist⟩
    · intro id' hid'
      rw [hnext]
      rcases (hfree id').mp hid' with rfl | hid'
      · exact ⟨h0, hlt⟩
      · exact h.free hid'
    · -- the id moves from the table to the free ids
      have hpos : 0 < m.rooms.size := by
        rw [Nat.pos_iff_ne_zero]
        intro hzero
        simp [Std.ExtTreeMap.eq_empty_iff_size_eq_zero.mpr hzero] at hmem
      have hcount := h.counted
      rw [heq]
      simp only [Std.ExtTreeMap.size_erase, Std.ExtTreeSet.size_insert,
        Std.ExtTreeMap.contains_iff_mem, Std.ExtTreeSet.contains_iff_mem, hmem, hnf, if_true,
        if_false]
      omega
  · have : m.eraseRoom id = m := by simp [RoomManager.eraseRoom, hmem]
    rw [this]
    exact h

/-- Every room has members and a host. -/
def Housed (m : RoomManager) : Prop := ∀ {id r}, m.getRoom id = some r → r.Settled

/-- The table stays in order, and its rooms settled. -/
structure Kept (cap : Nat) (m m' : RoomManager) : Prop where
  wf : m.WF cap → m'.WF cap
  housed : m.Housed → m'.Housed

theorem Kept.refl (m : RoomManager) : Kept cap m m := ⟨id, id⟩

theorem Kept.of_eq {m m' : RoomManager} (h : m' = m) : Kept cap m m' := by
  subst h
  exact Kept.refl m'

theorem Kept.trans {m₁ m₂ m₃ : RoomManager} (h : Kept cap m₁ m₂) (h' : Kept cap m₂ m₃) :
    Kept cap m₁ m₃ :=
  ⟨fun hw => h'.wf (h.wf hw), fun hh => h'.housed (h.housed hh)⟩

theorem Housed.setRoom {m : RoomManager} (h : m.Housed) {id : Nat} {r : Room} (hr : r.Settled) :
    (m.setRoom id r).Housed := by
  intro id' r' hr'
  rw [getRoom_setRoom] at hr'
  split at hr'
  · cases hr'
    exact hr
  · exact h hr'

theorem Kept.setRoom {m : RoomManager} {id : Nat} {r r' : Room} (hr : m.getRoom id = some r)
    (hs : Room.Shrinks r r') (hsettled : r.Settled → r'.Settled) : Kept cap m (m.setRoom id r') :=
  ⟨fun hw => hw.setRoom hr hs.id hs.listable, fun hh => hh.setRoom (hsettled (hh hr))⟩

/-- The id for a new room is not in use. -/
theorem allocateRoomId_spec {m : RoomManager} (h : m.WF cap) (hcap : m.rooms.size < cap) :
    m.allocateRoomId.1 ≠ 0 ∧ m.getRoom m.allocateRoomId.1 = none ∧
    m.allocateRoomId.2.rooms = m.rooms ∧
      m.allocateRoomId.2.Ids ∧ m.allocateRoomId.1 < m.allocateRoomId.2.nextRoomId ∧
      m.allocateRoomId.1 ∉ m.allocateRoomId.2.freeRoomIds ∧
      m.allocateRoomId.2.nextRoomId = m.rooms.size + 1 + m.allocateRoomId.2.freeRoomIds.size + 1 ∧
      m.allocateRoomId.2.nextRoomId ≤ cap + 1 := by
  have hcount := h.counted
  have hnew : ∀ {id}, id ∈ m.freeRoomIds ∨ id = m.nextRoomId → m.getRoom id = none := by
    intro id hid
    rcases hr : m.getRoom id with _ | r
    · rfl
    · obtain ⟨_, _, hlt, hnf, _⟩ := h.room hr
      rcases hid with hid | hid
      · exact absurd hid hnf
      · omega
  unfold allocateRoomId
  rw [← Std.ExtTreeSet.min?_eq_head?_toList]
  rcases hmin : m.freeRoomIds.min? with _ | id
  · have hempty : m.freeRoomIds.size = 0 := by
      rw [Std.ExtTreeSet.min?_eq_none_iff.mp hmin]
      rfl
    refine ⟨h.next_pos.ne', hnew (Or.inr rfl), rfl, ⟨Nat.succ_pos _, fun hr => ?_, fun hid => ?_⟩,
      Nat.lt_succ_self _, fun hf => absurd (h.free hf).2 (lt_irrefl _), ?_, ?_⟩
    · obtain ⟨hid, h0, hlt, hrest⟩ := h.room hr
      exact ⟨hid, h0, Nat.lt_succ_of_lt hlt, hrest⟩
    · exact ⟨(h.free hid).1, Nat.lt_succ_of_lt (h.free hid).2⟩
    · dsimp only
      omega
    · dsimp only
      omega
  · have hmem := Std.ExtTreeSet.min?_mem hmin
    obtain ⟨h0, hlt⟩ := h.free hmem
    have hpos : 0 < m.freeRoomIds.size := by
      rw [Nat.pos_iff_ne_zero]
      intro hzero
      simp [Std.ExtTreeSet.eq_empty_iff_size_eq_zero.mpr hzero] at hmem
    refine ⟨h0, hnew (Or.inl hmem), rfl, ⟨h.next_pos, fun hr => ?_, fun hid => ?_⟩, hlt, by simp,
      ?_, h.capacity⟩
    · obtain ⟨hid, h0, hlt, hnf, hlist⟩ := h.room hr
      exact ⟨hid, h0, hlt, fun hf => hnf (Std.ExtTreeSet.mem_of_mem_erase hf), hlist⟩
    · exact h.free (Std.ExtTreeSet.mem_of_mem_erase hid)
    · simp only [Std.ExtTreeSet.size_erase, Std.ExtTreeSet.contains_iff_mem, hmem, if_true]
      omega

/-- A new room is empty and has an id that no room has. -/
theorem createRoom_spec {m : RoomManager} (h : m.WF cap) (hcap : m.rooms.size < cap) {name : Bytes}
    {hostPeerId maxPlayers : Nat} {tcpPolicy udpPolicy : RoomTrafficPolicy}
    {mtu passwordProtected : Nat} {pwdHash pwdSalt : Bytes} {r : Room} {m' : RoomManager}
    (hname : name.length ≤ MAX_ROOM_NAME_LEN) (hmin : 2 ≤ maxPlayers)
    (hmax : maxPlayers ≤ MAX_PLAYERS) (htcp : tcpPolicy.Normal) (hudp : udpPolicy.Normal)
    (hpwd : passwordProtected < 2 ^ 8)
    (hr : m.createRoom name hostPeerId maxPlayers tcpPolicy udpPolicy mtu passwordProtected pwdHash
      pwdSalt = (r, m')) :
    r.id ≠ 0 ∧ m.getRoom r.id = none ∧ r.leases = [] ∧ m'.WF cap ∧
      (∀ id, m'.getRoom id = if id = r.id then some r else m.getRoom id) := by
  obtain ⟨h0, hnone, hrooms, hids, hlt, hnf, hcount, hle⟩ := allocateRoomId_spec h hcap
  unfold createRoom at hr
  rcases ha : m.allocateRoomId with ⟨rid, m₁⟩
  rw [ha] at h0 hnone hrooms hids hlt hnf hcount hle hr
  dsimp only at h0 hnone hrooms hids hlt hnf hcount hle
  simp only [Prod.mk.injEq] at hr
  obtain ⟨hroom, rfl⟩ := hr
  have hmtu : normalizeRoomMtu mtu < 2 ^ 16 := by
    unfold normalizeRoomMtu
    split
    · next hv =>
      simp only [isValidRoomMtuValue, decide_eq_true_eq] at hv
      rcases hv with rfl | rfl | rfl <;> decide
    · decide
  have hfields : r.id = rid ∧ r.leases = [] ∧ r.Listable := by
    rw [← hroom]
    split <;> exact ⟨rfl, rfl, hname, hmin, hmax, htcp, hudp, hpwd, hmtu, Nat.zero_le _,
      List.nodup_nil,
      fun l hl => nomatch hl⟩
  obtain ⟨hid, hls, hlist⟩ := hfields
  rw [hroom]
  have hget : ∀ id, (m₁.setRoom rid r).getRoom id = if id = rid then some r else m.getRoom id := by
    intro id
    rw [getRoom_setRoom, getRoom, hrooms]
    rfl
  refine ⟨hid ▸ h0, hid ▸ hnone, hls, ⟨⟨hids.next_pos, fun {id r'} hr' => ?_, hids.free⟩, ?_, hle⟩,
    hid ▸ hget⟩
  · rw [getRoom_setRoom] at hr'
    split at hr'
    · next heq =>
      subst heq
      cases hr'
      exact ⟨hid, h0, hlt, hnf, hlist⟩
    · exact hids.room hr'
  · have hsize : (m₁.setRoom rid r).rooms.size = m.rooms.size + 1 := by
      simp [RoomManager.setRoom, hrooms, Std.ExtTreeMap.size_insert, not_mem_rooms hnone]
    rw [hsize]
    exact hcount

end RoomManager

namespace Server

theorem registry_setRoom (s : Server) (id : Nat) (r : Room) :
    (s.setRoom id r).registry = s.registry.setRoom id r.leases := by
  simp only [registry, setRoom, Reg.setRoom, Reg.mk.injEq, true_and, and_true]
  funext id'
  rw [RoomManager.getRoom_setRoom, Function.update_apply]
  split <;> rfl

theorem registry_eraseRoom (s : Server) (id : Nat) :
    ({ s with rooms := s.rooms.eraseRoom id } : Server).registry =
      { s.registry with rooms := Function.update s.registry.rooms id none } := by
  simp only [registry, Reg.mk.injEq, true_and, and_true]
  funext id'
  rw [RoomManager.getRoom_eraseRoom, Function.update_apply]
  split <;> rfl

theorem rooms_registry {s : Server} {id : Nat} {r : Room} (h : s.rooms.getRoom id = some r) :
    s.registry.rooms id = some r.leases := by
  simp [registry, h]

end Server

end VlanConnect

/-
  VlanConnect/Client/FecSteps.lean
  ================================
  **What one packet does to the decoder.**

  A packet is dropped, with at most groups removed, or its block is stored in
  the group it names; in the second case what happens is a function of that
  group and the block alone (`FecGroup.store`).  Every other group stays as it
  is or is removed to make room.
-/
import VlanConnect.Client.Fec

namespace VlanConnect

open PieceTable

/-! ### Groups -/

namespace FecGroup

/-- The group with one more block. -/
def withBlock (g : FecGroup) (idx : Nat) (block : Bytes) : FecGroup :=
  { g with
    blocks := g.blocks.insert idx block
    emittedOriginals :=
      if idx < g.dataCount then insert idx g.emittedOriginals else g.emittedOriginals }

/-- A new block of a group: it is handed on if it is an original, and the last one needed
    recovers the rest. -/
def store (cm : Cm256) (g : FecGroup) (idx : Nat) (block : Bytes) : List FecEffect × FecGroup :=
  let g' := g.withBlock idx block
  let copy := FecEffect.read (FEC_HEADER_SIZE + block.length) FEC_HEADER_SIZE block.length
  let emitted := if idx < g.dataCount then CliFecDecoder.emitOriginalBlock block else []
  let (effects, g') := if g.dataCount ≤ g'.blocks.size then CliFecDecoder.decodeGroup cm g'
    else ([], g')
  (copy :: (emitted ++ effects), g')

/-- What the header checks and the decoder make of a group. -/
structure WellFormed (g : FecGroup) : Prop where
  dataCount : 1 ≤ g.dataCount ∧ g.dataCount ≤ 10
  totalCount : g.dataCount ≤ g.totalCount ∧ g.totalCount ≤ 3 * g.dataCount
  blockBytes : 1 ≤ g.blockBytes
  index : ∀ idx ∈ g.blocks, idx < g.totalCount
  size : ∀ (idx : Nat) (block : Bytes), g.blocks[idx]? = some block → block.length = g.blockBytes
  emitted : ∀ idx, idx ∈ g.emittedOriginals ↔ idx ∈ g.blocks ∧ idx < g.dataCount

/-- A group that is not done yet waits for more blocks. -/
def Waiting (g : FecGroup) : Prop := g.decoded = false → g.blocks.size < g.dataCount

theorem WellFormed.withBlock {g : FecGroup} (h : g.WellFormed) {idx : Nat} {block : Bytes}
    (hidx : idx < g.totalCount) (hblock : block.length = g.blockBytes) :
    (g.withBlock idx block).WellFormed := by
  have hmem : ∀ j, j ∈ (g.withBlock idx block).blocks ↔ j = idx ∨ j ∈ g.blocks := by
    intro j
    simp only [FecGroup.withBlock, Std.ExtTreeMap.mem_insert, compare_eq_iff_eq, eq_comm (a := j)]
  refine ⟨h.dataCount, h.totalCount, h.blockBytes, ?_, ?_, ?_⟩
  · intro j hj
    rcases (hmem j).mp hj with rfl | hj
    · exact hidx
    · exact h.index j hj
  · intro j b hb
    simp only [FecGroup.withBlock, Std.ExtTreeMap.getElem?_insert, compare_eq_iff_eq] at hb
    split at hb
    · cases hb
      exact hblock
    · exact h.size j b hb
  · intro j
    rw [hmem]
    have hold := h.emitted j
    simp only [FecGroup.withBlock]
    by_cases hlt : idx < g.dataCount
    · rw [if_pos hlt, Finset.mem_insert, hold]
      constructor
      · rintro (rfl | ⟨hj, hjn⟩)
        · exact ⟨Or.inl rfl, hlt⟩
        · exact ⟨Or.inr hj, hjn⟩
      · rintro ⟨rfl | hj, hjn⟩
        · exact Or.inl rfl
        · exact Or.inr ⟨hj, hjn⟩
    · rw [if_neg hlt, hold]
      constructor
      · rintro ⟨hj, hjn⟩
        exact ⟨Or.inr hj, hjn⟩
      · rintro ⟨rfl | hj, hjn⟩
        · exact absurd hjn hlt
        · exact ⟨hj, hjn⟩

end FecGroup

namespace CliFecDecoder

variable {cm : Cm256}

/-- Decoding marks a group and leaves its blocks. -/
theorem decodeGroup_blocks (cm : Cm256) (g : FecGroup) :
    (decodeGroup cm g).2.blocks = g.blocks := by
  unfold decodeGroup
  split
  · rfl
  split
  · rfl
  dsimp only
  split
  · rfl
  split
  · rfl
  · rfl

theorem length_blockStorage (g : FecGroup) :
    (blockStorage g).length = min g.dataCount g.blocks.size := by
  simp [blockStorage]

/-- A group with blocks enough is done whatever the library says; only that mark changes. -/
theorem decodeGroup_snd {g : FecGroup} (hready : g.dataCount ≤ g.blocks.size) :
    (decodeGroup cm g).2 = { g with decoded := true } := by
  have hlen : ¬ (blockStorage g).length < g.dataCount := by
    rw [length_blockStorage]
    omega
  unfold decodeGroup
  dsimp only
  split
  · next hdone => rw [← hdone]
  · split
    · rfl
    · split
      · rfl
      · rfl

end CliFecDecoder

theorem FecGroup.store_snd (cm : Cm256) (g : FecGroup) (idx : Nat) (block : Bytes) :
    (g.store cm idx block).2 = { g.withBlock idx block with
      decoded := g.decoded || decide (g.dataCount ≤ (g.withBlock idx block).blocks.size) } := by
  unfold FecGroup.store
  dsimp only
  split
  · next hready =>
    rw [CliFecDecoder.decodeGroup_snd hready]
    simp [hready]
  · next hready =>
    rw [decide_eq_false hready, Bool.or_false]
    rfl

theorem FecGroup.WellFormed.store {g : FecGroup} (h : g.WellFormed) (cm : Cm256) {idx : Nat}
    {block : Bytes} (hidx : idx < g.totalCount) (hblock : block.length = g.blockBytes) :
    (g.store cm idx block).2.WellFormed := by
  rw [FecGroup.store_snd]
  have hwith := h.withBlock hidx hblock
  exact ⟨hwith.dataCount, hwith.totalCount, hwith.blockBytes, hwith.index, hwith.size,
    hwith.emitted⟩

theorem FecGroup.waiting_store (cm : Cm256) (g : FecGroup) (idx : Nat) (block : Bytes) :
    (g.store cm idx block).2.Waiting := by
  rw [FecGroup.store_snd]
  intro hdone
  have hready : ¬ g.dataCount ≤ (g.withBlock idx block).blocks.size := by
    intro hready
    simp [hready] at hdone
  exact not_le.mp hready

namespace CliFecDecoder

variable {cm : Cm256} {d : CliFecDecoder}

/-! ### The groups after an operation -/

theorem group_setGroup (gid : Nat) (g : FecGroup) (added j : Nat) :
    (d.setGroup gid g added).group j = if j = gid then some g else d.group j := by
  simp only [group, setGroup, Std.ExtTreeMap.getElem?_insert, compare_eq_iff_eq, eq_comm (a := gid)]

theorem group_removeGroup (gid j : Nat) :
    (d.removeGroup gid).group j = if j = gid then none else d.group j :=
  Table.get_remove d.table gid j

theorem group_ensureCapacity (incoming : Nat) (new : Bool) (j : Nat) :
    (d.ensureCapacity incoming new).2.group j = d.group j ∨
    (d.ensureCapacity incoming new).2.group j = none :=
  Table.get_ensure limits d.table incoming new j

theorem group_cleanup (now j : Nat) : (d.cleanup now).group j =
    (d.group j).filter fun g => !decide (GROUP_TIMEOUT_MS < elapsedMs now g.createTime) :=
  Table.get_expire _ d.table j

/-- After room was made for a new group there is room for its first block. -/
theorem ensureCapacity_first {d₁ : CliFecDecoder} {incoming : Nat}
    (h : d.ensureCapacity incoming true = (true, d₁)) (gid : Nat) (g : FecGroup) :
    (d₁.setGroup gid g 0).ensureCapacity incoming false = (true, d₁.setGroup gid g 0) := by
  have hroom : (d.ensureCapacity incoming true).2.table.overfull limits incoming true = false :=
    Table.room_of_ensure (congrArg Prod.fst h)
  rw [h] at hroom
  have hbytes : d₁.table.bytes + incoming ≤ limits.maxBytes := by
    rw [Table.overfull, Bool.or_eq_false_iff, decide_eq_false_iff_not] at hroom
    exact not_lt.mp hroom.2
  have hensure : (d₁.setGroup gid g 0).table.ensure FecGroup.shape limits incoming false =
      (true, (d₁.setGroup gid g 0).table) :=
    Table.ensure_of_room nofun hbytes
  unfold ensureCapacity
  rw [hensure]

/-! ### Storing a block -/

theorem decodeIfReady_eq (cm : Cm256) {gid : Nat} {g : FecGroup} (hg : d.group gid = some g) :
    (d.decodeIfReady cm gid).1 = (if g.dataCount ≤ g.blocks.size then decodeGroup cm g
      else ([], g)).1 ∧
      ∀ j, (d.decodeIfReady cm gid).2.group j =
        if j = gid then some (if g.dataCount ≤ g.blocks.size then decodeGroup cm g else ([], g)).2
        else d.group j := by
  unfold decodeIfReady tryDecode
  rw [hg]
  dsimp only
  split
  · exact ⟨rfl, fun j => group_setGroup gid _ 0 j⟩
  · refine ⟨rfl, fun j => ?_⟩
    split
    · next hj => rw [hj, hg]
    · rfl

/-- A block the group does not have yet, when there is room for it. -/
theorem storeBlock_new (cm : Cm256) {gid idx : Nat} {block : Bytes} {g : FecGroup}
    (hg : d.group gid = some g) (hdecoded : g.decoded = false) (hidx : idx ∉ g.blocks)
    (hok : (d.ensureCapacity block.length false).1 = true)
    (hkept : (d.ensureCapacity block.length false).2.group gid = some g) :
    (d.storeBlock cm gid idx g.dataCount block).1 = (g.store cm idx block).1 ∧
      ∀ j, (d.storeBlock cm gid idx g.dataCount block).2.group j =
        if j = gid then some (g.store cm idx block).2
        else (d.ensureCapacity block.length false).2.group j := by
  unfold storeBlock
  rw [hg]
  dsimp only
  rw [hdecoded, if_neg Bool.false_ne_true, if_neg hidx]
  generalize d.ensureCapacity block.length false = room at hok hkept ⊢
  obtain ⟨ok, d₁⟩ := room
  dsimp only at hok hkept ⊢
  rw [hok, hkept]
  simp only [not_true_eq_false, if_false, decide_eq_true_eq]
  have hset : (d₁.setGroup gid (g.withBlock idx block) block.length).group gid =
      some (g.withBlock idx block) := by
    rw [group_setGroup, if_pos rfl]
  obtain ⟨heffects, hgroups⟩ := decodeIfReady_eq cm hset
  change _ :: (_ ++ ((d₁.setGroup gid (g.withBlock idx block) block.length).decodeIfReady cm
    gid).1) = _ ∧
    ∀ j, ((d₁.setGroup gid (g.withBlock idx block) block.length).decodeIfReady cm gid).2.group j = _
  rw [heffects]
  refine ⟨rfl, fun j => ?_⟩
  rw [hgroups, group_setGroup]
  split
  · rfl
  · rfl

/-- Otherwise the block is dropped. -/
theorem storeBlock_dropped (cm : Cm256) {gid idx n : Nat} {block : Bytes} {g : FecGroup}
    (hg : d.group gid = some g) (hwait : g.Waiting)
    (hdrop : g.decoded = true ∨ idx ∈ g.blocks ∨ (d.ensureCapacity block.length false).1 = false ∨
      (d.ensureCapacity block.length false).2.group gid = none) :
    (d.storeBlock cm gid idx n block).1 = [] ∧
      ∀ j, (d.storeBlock cm gid idx n block).2.group j = d.group j ∨
      (d.storeBlock cm gid idx n block).2.group j = none := by
  unfold storeBlock
  rw [hg]
  dsimp only
  split
  · exact ⟨rfl, fun j => Or.inl rfl⟩
  next hdecoded =>
  have hdecoded : g.decoded = false := by simpa using hdecoded
  split
  · have hfew : ¬ g.dataCount ≤ g.blocks.size := not_le.mpr (hwait hdecoded)
    obtain ⟨heffects, hgroups⟩ := decodeIfReady_eq cm hg
    rw [if_neg hfew] at heffects
    refine ⟨heffects, fun j => Or.inl ?_⟩
    rw [hgroups, if_neg hfew]
    split
    · next hj => rw [hj, hg]
    · rfl
  next hidx =>
  have hgroups := group_ensureCapacity (d := d) block.length false
  generalize d.ensureCapacity block.length false = room at hdrop hgroups ⊢
  obtain ⟨ok, d₁⟩ := room
  dsimp only at hdrop hgroups ⊢
  rcases hdrop with h | h | h | h
  · rw [hdecoded] at h
    cases h
  · exact absurd h hidx
  · rw [h]
    exact ⟨rfl, hgroups⟩
  · rw [h]
    split
    · exact ⟨rfl, hgroups⟩
    · exact ⟨rfl, hgroups⟩

/-! ### One packet -/

/-- The checks of `addPacket` on the header and on the length of the block. -/
def HeaderOk (idx dataCount totalCount : Nat) (block : Bytes) : Prop :=
  (1 ≤ dataCount ∧ dataCount ≤ 10 ∧ dataCount ≤ totalCount ∧ totalCount ≤ 3 * dataCount ∧
    idx < totalCount) ∧ block ≠ []

instance (idx dataCount totalCount : Nat) (block : Bytes) :
    Decidable (HeaderOk idx dataCount totalCount block) :=
  inferInstanceAs (Decidable (_ ∧ _))

def freshGroup (now dataCount totalCount blockBytes : Nat) : FecGroup :=
  { dataCount := dataCount, totalCount := totalCount, blockBytes := blockBytes, createTime := now }

/-- The group that a packet's block is stored in, as it is just before; none when the
    block is not stored. -/
def target (d : CliFecDecoder) (now gid idx dataCount totalCount : Nat) (block : Bytes) :
    Option FecGroup :=
  match d.group gid with
  | some g =>
    if (g.dataCount = dataCount ∧ g.totalCount = totalCount ∧ g.blockBytes = block.length) ∧
        g.decoded = false ∧ idx ∉ g.blocks ∧ (d.ensureCapacity block.length false).1 = true then
      (d.ensureCapacity block.length false).2.group gid
    else none
  | none =>
    if (d.ensureCapacity block.length true).1 = true then
      some (freshGroup now dataCount totalCount block.length)
    else none

theorem target_header {now gid idx n total : Nat} {block : Bytes} {g : FecGroup}
    (h : d.target now gid idx n total block = some g) :
    g.dataCount = n ∧ g.totalCount = total ∧ g.blockBytes = block.length ∧ g.decoded = false ∧
    idx ∉ g.blocks := by
  unfold target at h
  split at h
  · next g₀ hg₀ =>
    split at h
    · next hmatch =>
      obtain ⟨⟨hn, htotal, hbytes⟩, hdecoded, hidx, -⟩ := hmatch
      rcases group_ensureCapacity (d := d) block.length false gid with hkept | hgone
      · rw [hkept, hg₀] at h
        cases h
        exact ⟨hn, htotal, hbytes, hdecoded, hidx⟩
      · rw [hgone] at h
        cases h
    · cases h
  · split at h
    · cases h
      exact ⟨rfl, rfl, rfl, rfl, Std.ExtTreeMap.not_mem_empty⟩
    · cases h

/-- The packet whose block is stored. -/
theorem addPacket_stored (cm : Cm256) {now : Nat} {gid idx n total : UInt8} {block : Bytes}
    {g : FecGroup} (hok : HeaderOk idx.toNat n.toNat total.toNat block)
    (htarget : d.target now gid.toNat idx.toNat n.toNat total.toNat block = some g) :
    (d.addPacket cm now (gid :: idx :: n :: total :: block)).1 =
        .read (block.length + 4) 0 FEC_HEADER_SIZE :: (g.store cm idx.toNat block).1 ∧
      (d.addPacket cm now (gid :: idx :: n :: total :: block)).2.group gid.toNat =
        some (g.store cm idx.toNat block).2 ∧
      ∀ j, j ≠ gid.toNat →
        (d.addPacket cm now (gid :: idx :: n :: total :: block)).2.group j = d.group j ∨
        (d.addPacket cm now (gid :: idx :: n :: total :: block)).2.group j = none := by
  obtain ⟨hn, -, -, hdecoded, hidx⟩ := target_header htarget
  obtain ⟨hheader, hblock⟩ := hok
  unfold addPacket
  dsimp only
  rw [if_neg (by omega), if_neg hblock]
  unfold target at htarget
  cases hgroup : d.group gid.toNat with
  | some g₀ =>
    rw [hgroup] at htarget
    dsimp only at htarget ⊢
    split at htarget
    · next hmatch =>
      obtain ⟨⟨hn₀, htotal₀, hbytes₀⟩, -, -, hroom⟩ := hmatch
      have hkept : (d.ensureCapacity block.length false).2.group gid.toNat = d.group gid.toNat := by
        rcases group_ensureCapacity (d := d) block.length false gid.toNat with hkept | hgone
        · exact hkept
        · rw [hgone] at htarget
          cases htarget
      have hg : d.group gid.toNat = some g := by rw [← hkept, htarget]
      obtain ⟨heffects, hgroups⟩ := storeBlock_new cm hg hdecoded hidx hroom htarget
      rw [if_neg (by tauto), ← hn]
      refine ⟨by rw [heffects]; rfl, ?_, ?_⟩
      · rw [hgroups, if_pos rfl]
      · intro j hj
        rw [hgroups, if_neg hj]
        exact group_ensureCapacity block.length false j
    · cases htarget
  | none =>
    rw [hgroup] at htarget
    dsimp only at htarget ⊢
    split at htarget
    · next hroom =>
      cases htarget
      have hold := group_ensureCapacity (d := d) block.length true
      generalize hensure : d.ensureCapacity block.length true = room at hroom hold ⊢
      obtain ⟨ok, d₁⟩ := room
      dsimp only at hroom hold ⊢
      rw [hroom] at hensure ⊢
      have hfirst :=
        ensureCapacity_first hensure gid.toNat (freshGroup now n.toNat total.toNat block.length)
      have hg :
        (d₁.setGroup gid.toNat (freshGroup now n.toNat total.toNat block.length) 0).group
        gid.toNat =
          some (freshGroup now n.toNat total.toNat block.length) := by
        rw [group_setGroup, if_pos rfl]
      obtain ⟨heffects, hgroups⟩ :=
        storeBlock_new cm hg hdecoded hidx (by rw [hfirst]) (by rw [hfirst, hg])
      rw [if_neg (not_not.mpr rfl)]
      refine ⟨congrArg _ heffects, ?_, ?_⟩
      · exact (hgroups _).trans (if_pos rfl)
      · intro j hj
        have hj' := (hgroups j).trans (if_neg hj)
        rw [hfirst, group_setGroup, if_neg hj] at hj'
        rcases hold j with h | h
        · exact Or.inl (hj'.trans h)
        · exact Or.inr (hj'.trans h)
    · cases htarget

/-- The group of the packet itself went to make room. -/
theorem addPacket_evicted (cm : Cm256) (now : Nat) {gid idx n total : UInt8} {block : Bytes}
    {g : FecGroup} (hok : HeaderOk idx.toNat n.toNat total.toNat block)
    (hg : d.group gid.toNat = some g) (hdecoded : g.decoded = false) (hidx : idx.toNat ∉ g.blocks)
    (hgone : (d.ensureCapacity block.length false).2.group gid.toNat = none) :
    (d.addPacket cm now (gid :: idx :: n :: total :: block)).2.group gid.toNat = none := by
  obtain ⟨hheader, hblock⟩ := hok
  unfold addPacket
  dsimp only
  rw [if_neg (by omega), if_neg hblock, hg]
  dsimp only
  split
  · rw [group_removeGroup, if_pos rfl]
  · unfold storeBlock
    rw [hg]
    dsimp only
    rw [hdecoded, if_neg Bool.false_ne_true, if_neg hidx]
    generalize d.ensureCapacity block.length false = room at hgone ⊢
    obtain ⟨ok, d₁⟩ := room
    dsimp only at hgone ⊢
    rw [hgone]
    split
    · exact hgone
    · exact hgone

/-- The block of the packet is stored. -/
def Stores (d : CliFecDecoder) (now : Nat) (data : Bytes) : Prop :=
  ∃ (gid idx n total : UInt8) (block : Bytes) (g : FecGroup),
    data = gid :: idx :: n :: total :: block ∧
    HeaderOk idx.toNat n.toNat total.toNat block ∧
    d.target now gid.toNat idx.toNat n.toNat total.toNat block = some g

/-- Every other packet: at most its header is read, and groups may go. -/
theorem addPacket_dropped (cm : Cm256) {now : Nat} {data : Bytes}
    (hwait : ∀ j g, d.group j = some g → g.Waiting) (hdrop : ¬ d.Stores now data) :
    (∀ x ∈ (d.addPacket cm now data).1, 4 ≤ data.length ∧ x = .read data.length 0 FEC_HEADER_SIZE) ∧
      ∀ j, (d.addPacket cm now data).2.group j = d.group j ∨
      (d.addPacket cm now data).2.group j = none := by
  unfold addPacket
  split
  · next gid idx n total block =>
    have hlen : 4 ≤ (gid :: idx :: n :: total :: block).length := by simp
    have hheader :
      ∀ x ∈ [FecEffect.read (gid :: idx :: n :: total :: block).length 0 FEC_HEADER_SIZE],
        4 ≤ (gid :: idx :: n :: total :: block).length ∧
          x = .read (gid :: idx :: n :: total :: block).length 0 FEC_HEADER_SIZE := by
      intro x hx
      exact ⟨hlen, List.mem_singleton.mp hx⟩
    dsimp only
    split
    · exact ⟨hheader, fun j => Or.inl rfl⟩
    next hranges =>
    split
    · exact ⟨hheader, fun j => Or.inl rfl⟩
    next hblock =>
    have htarget : d.target now gid.toNat idx.toNat n.toNat total.toNat block = none := by
      by_contra hne
      obtain ⟨g, hg⟩ := Option.ne_none_iff_exists'.mp hne
      exact hdrop ⟨gid, idx, n, total, block, g, rfl, ⟨by omega, hblock⟩, hg⟩
    unfold target at htarget
    split
    · next g hg =>
      rw [hg] at htarget
      dsimp only at htarget
      split
      · refine ⟨hheader, fun j => ?_⟩
        rw [group_removeGroup]
        split
        · exact Or.inr rfl
        · exact Or.inl rfl
      · next hmatch =>
        have hgone : g.decoded = true ∨ idx.toNat ∈ g.blocks ∨
          (d.ensureCapacity block.length false).1 = false ∨
            (d.ensureCapacity block.length false).2.group gid.toNat = none := by
          by_contra hne
          push Not at hne
          rw [if_pos ⟨by tauto, by simpa using hne.1, hne.2.1, by simpa using hne.2.2.1⟩] at htarget
          exact hne.2.2.2 htarget
        obtain ⟨heffects, hgroups⟩ := storeBlock_dropped cm (n := n.toNat) hg (hwait _ _ hg) hgone
        refine ⟨?_, hgroups⟩
        rw [heffects]
        exact hheader
    · next hnone =>
      rw [hnone] at htarget
      dsimp only at htarget
      have hfull : (d.ensureCapacity block.length true).1 = false := by
        by_contra hne
        rw [if_pos (by simpa using hne)] at htarget
        cases htarget
      have hold := group_ensureCapacity (d := d) block.length true
      generalize d.ensureCapacity block.length true = room at hfull hold ⊢
      obtain ⟨ok, d₁⟩ := room
      dsimp only at hfull hold ⊢
      rw [hfull]
      exact ⟨hheader, hold⟩
  · exact ⟨nofun, fun j => Or.inl rfl⟩

end CliFecDecoder

end VlanConnect

/-
  VlanConnect/Client/FecReads.lean
  ================================
  **The reads of the decoder.**

  An original that comes by itself is read only when its block has room for the
  length; an original that the library recovers is read without that check.  So
  there is one way to read outside a block, and a sender can take it: fill a
  group of one-byte blocks without all of its originals.  The main result says
  that a run reads outside a block exactly when it does that.
-/
import VlanConnect.Client.FecSteps

namespace VlanConnect

/-- A read that stays inside its buffer. -/
def FecEffect.InBounds : FecEffect → Prop
  | .output _ => True
  | .read size offset count => offset + count ≤ size

instance : DecidablePred FecEffect.InBounds
  | .output _ => isTrue trivial
  | .read _ _ _ => inferInstanceAs (Decidable (_ ≤ _))

/-- What is used of `cm256_decode`: it writes into the blocks it is given, and as many
    distinct blocks as there are originals, of a group with parity blocks, always give all
    originals. -/
structure Cm256.InPlace (cm : Cm256) : Prop where
  sizes : ∀ n m blockBytes blocks blocks', cm.decode n m blockBytes blocks = some blocks' →
    blocks'.map (fun b => b.2.length) = blocks.map (fun b => b.2.length)
  complete : ∀ n m blockBytes blocks, 1 ≤ n → 1 ≤ m → n + m ≤ 256 → 1 ≤ blockBytes →
    blocks.length = n →
    (blocks.map Prod.fst).Nodup → (∀ b ∈ blocks, b.1 < n + m ∧ b.2.length = blockBytes) →
    ∃ blocks', cm.decode n m blockBytes blocks = some blocks' ∧ ∀ i < n, i ∈ blocks'.map Prod.fst

namespace CliFecDecoder

variable {cm : Cm256} {d : CliFecDecoder}

/-! ### Handing on one original -/

theorem emitPayload_inBounds_iff {block : Bytes} {limit : Nat} (hlimit : limit ≤ block.length) :
    (∀ x ∈ emitPayload block limit, x.InBounds) ↔ 2 ≤ block.length := by
  unfold emitPayload
  dsimp only
  rw [List.forall_mem_cons]
  constructor
  · rintro ⟨hfirst, -⟩
    exact hfirst
  · intro hlen
    refine ⟨hlen, ?_⟩
    split
    · next hpayload =>
      intro x hx
      rcases List.mem_cons.mp hx with rfl | hx
      · exact hpayload.2.trans hlimit
      · rw [List.mem_singleton.mp hx]
        trivial
    · exact nofun

theorem emitOriginalBlock_inBounds (block : Bytes) : ∀ x ∈ emitOriginalBlock block, x.InBounds := by
  unfold emitOriginalBlock
  split
  · exact nofun
  · next hlen => exact (emitPayload_inBounds_iff le_rfl).mpr (not_lt.mp hlen)

/-! ### Recovering the others -/

theorem mem_blockStorage {g : FecGroup} (hg : g.WellFormed) {b : Nat × Bytes}
    (hb : b ∈ blockStorage g) :
    g.blocks[b.1]? = some b.2 ∧ b.2.length = g.blockBytes := by
  obtain ⟨⟨idx, block⟩, hmem, rfl⟩ := List.mem_map.mp hb
  have hblock := Std.ExtTreeMap.mem_toList_iff_getElem?_eq_some.mp (List.mem_of_mem_take hmem)
  have hsize := hg.size idx block hblock
  dsimp only
  rw [if_neg (by omega)]
  exact ⟨hblock, hsize⟩

theorem nodup_blockStorage (g : FecGroup) : ((blockStorage g).map Prod.fst).Nodup := by
  have hfst : (blockStorage g).map Prod.fst = (g.blocks.toList.map Prod.fst).take g.dataCount := by
    rw [blockStorage, List.map_map, List.map_take]
    rfl
  rw [hfst]
  exact (PieceTable.nodup_keys g.blocks).sublist (List.take_sublist _ _)

theorem findOriginal_mem {blocks : List (Nat × Bytes)} {idx : Nat} {block : Bytes}
    (h : findOriginal blocks idx = some block) : (idx, block) ∈ blocks := by
  obtain ⟨b, hb, rfl⟩ := Option.map_eq_some_iff.mp h
  have hidx := List.find?_some hb
  have hmem := List.mem_reverse.mp (List.mem_of_find?_eq_some hb)
  rw [← of_decide_eq_true hidx]
  exact hmem

theorem findOriginal_isSome {blocks : List (Nat × Bytes)} {idx : Nat}
    (h : idx ∈ blocks.map Prod.fst) :
    ∃ block, findOriginal blocks idx = some block := by
  obtain ⟨b, hb, hidx⟩ := List.mem_map.mp h
  have hsome : (blocks.reverse.find? fun b => b.1 = idx).isSome = true :=
    List.find?_isSome.mpr ⟨b, List.mem_reverse.mpr hb, decide_eq_true hidx⟩
  obtain ⟨c, hc⟩ := Option.isSome_iff_exists.mp hsome
  exact ⟨c.2, by rw [findOriginal, hc, Option.map_some]⟩

/-- A group that has handed on fewer originals than it has lacks one. -/
theorem card_emitted_lt_iff {g : FecGroup} (hg : g.WellFormed) :
    g.emittedOriginals.card < g.dataCount ↔ ∃ i < g.dataCount, i ∉ g.blocks := by
  have hsub : g.emittedOriginals ⊆ Finset.range g.dataCount := by
    intro i hi
    exact Finset.mem_range.mpr ((hg.emitted i).mp hi).2
  constructor
  · intro hcard
    obtain ⟨i, hi, hne⟩ : ∃ i ∈ Finset.range g.dataCount, i ∉ g.emittedOriginals :=
      Finset.exists_mem_notMem_of_card_lt_card (by rwa [Finset.card_range])
    have hlt := Finset.mem_range.mp hi
    exact ⟨i, hlt, fun hmem => hne ((hg.emitted i).mpr ⟨hmem, hlt⟩)⟩
  · rintro ⟨i, hlt, hi⟩
    have hssub : g.emittedOriginals ⊂ Finset.range g.dataCount := by
      refine (Finset.ssubset_iff_of_subset hsub).mpr ⟨i, Finset.mem_range.mpr hlt, ?_⟩
      intro hmem
      exact hi ((hg.emitted i).mp hmem).1
    simpa using Finset.card_lt_card hssub

/-- The indices of a full group without one of its originals leave room for a parity block. -/
theorem dataCount_lt_totalCount {g : FecGroup} (hg : g.WellFormed)
    (hready : g.dataCount ≤ g.blocks.size) (hmissing : ∃ i < g.dataCount, i ∉ g.blocks) :
    g.dataCount < g.totalCount := by
  obtain ⟨i, hlt, hi⟩ := hmissing
  have hkeys : ∀ j ∈ (blockStorage g).map Prod.fst, j ∈ (Finset.range g.totalCount).erase i := by
    intro j hj
    obtain ⟨b, hb, rfl⟩ := List.mem_map.mp hj
    have hmem : b.1 ∈ g.blocks := by
      rw [Std.ExtTreeMap.mem_iff_isSome_getElem?, (mem_blockStorage hg hb).1]
      rfl
    exact Finset.mem_erase.mpr ⟨fun heq => hi (heq ▸ hmem), Finset.mem_range.mpr (hg.index _ hmem)⟩
  have hcard := Finset.card_le_card (s := ((blockStorage g).map Prod.fst).toFinset) fun j hj =>
    hkeys j (List.mem_toFinset.mp hj)
  rw [List.toFinset_card_of_nodup (nodup_blockStorage g), List.length_map, length_blockStorage,
    Finset.card_erase_of_mem (Finset.mem_range.mpr (hlt.trans_le hg.totalCount.1)),
    Finset.card_range] at hcard
  omega

theorem length_of_decode (hcm : cm.InPlace) {g : FecGroup} (hg : g.WellFormed)
    {blocks : List (Nat × Bytes)}
    (h : cm.decode g.dataCount (g.totalCount - g.dataCount) g.blockBytes (blockStorage g) =
      some blocks) :
    ∀ b ∈ blocks, b.2.length = g.blockBytes := by
  intro b hb
  have hmem : b.2.length ∈ blocks.map (fun b => b.2.length) := List.mem_map_of_mem hb
  rw [hcm.sizes _ _ _ _ _ h] at hmem
  obtain ⟨c, hc, hlen⟩ := List.mem_map.mp hmem
  rw [← hlen]
  exact (mem_blockStorage hg hc).2

/-- The one place that may read too far. -/
theorem decodeGroup_inBounds_iff (hcm : cm.InPlace) {g : FecGroup} (hg : g.WellFormed)
    (hdecoded : g.decoded = false) (hready : g.dataCount ≤ g.blocks.size) :
    (∀ x ∈ (decodeGroup cm g).1, x.InBounds) ↔
    ¬ (g.blockBytes = 1 ∧ ∃ i < g.dataCount, i ∉ g.blocks) := by
  unfold decodeGroup
  dsimp only
  rw [hdecoded, if_neg Bool.false_ne_true, ← card_emitted_lt_iff hg]
  by_cases hcard : g.dataCount ≤ g.emittedOriginals.card
  · rw [if_pos hcard]
    refine ⟨fun _ h => absurd h.2 (not_lt.mpr hcard), fun _ => nofun⟩
  rw [if_neg hcard]
  have hmissing := (card_emitted_lt_iff hg).mp (not_le.mp hcard)
  have hlen : (blockStorage g).length = g.dataCount := by
    rw [length_blockStorage]
    omega
  rw [if_neg (not_lt.mpr hlen.ge)]
  have hreads : ∀ x ∈ (blockStorage g).map (fun b => FecEffect.read b.2.length 0 g.blockBytes),
      x.InBounds := by
    intro x hx
    obtain ⟨b, hb, rfl⟩ := List.mem_map.mp hx
    exact (Nat.zero_add _).trans_le (mem_blockStorage hg hb).2.ge
  have htotal := dataCount_lt_totalCount hg hready hmissing
  obtain ⟨blocks, hdecode, hall⟩ :=
    hcm.complete g.dataCount (g.totalCount - g.dataCount) g.blockBytes (blockStorage g)
    hg.dataCount.1 (by omega) (by have := hg.dataCount; have := hg.totalCount; omega)
    hg.blockBytes hlen
    (nodup_blockStorage g) (by
      intro b hb
      have hmem : b.1 ∈ g.blocks := by
        rw [Std.ExtTreeMap.mem_iff_isSome_getElem?, (mem_blockStorage hg hb).1]
        rfl
      exact ⟨by have := hg.index _ hmem; omega, (mem_blockStorage hg hb).2⟩)
  rw [hdecode]
  dsimp only
  have hsizes := length_of_decode hcm hg hdecode
  constructor
  · -- The missing original is found among the blocks, and its length is read.
    rintro hall' ⟨hone, -⟩
    obtain ⟨i, hlt, hi⟩ := hmissing
    obtain ⟨block, hblock⟩ := findOriginal_isSome (hall i hlt)
    have hemitted : i ∉ g.emittedOriginals := fun hmem => hi ((hg.emitted i).mp hmem).1
    have hlength := hsizes _ (findOriginal_mem hblock)
    have hread : ∀ x ∈ emitPayload block g.blockBytes, x.InBounds := by
      intro x hx
      refine hall' x (List.mem_append_right _
        (List.mem_flatMap.mpr ⟨i, List.mem_range.mpr hlt, ?_⟩))
      rw [if_neg hemitted, hblock]
      exact hx
    have htwo := (emitPayload_inBounds_iff hlength.ge).mp hread
    omega
  · intro hsafe x hx
    have htwo : 2 ≤ g.blockBytes := by
      have := hg.blockBytes
      by_contra hne
      exact hsafe ⟨by omega, not_le.mp hcard⟩
    rcases List.mem_append.mp hx with hx | hx
    · exact hreads x hx
    · obtain ⟨i, -, hx⟩ := List.mem_flatMap.mp hx
      split at hx
      · cases hx
      · split at hx
        · cases hx
        · next block hblock =>
          have hlength := hsizes _ (findOriginal_mem hblock)
          exact (emitPayload_inBounds_iff hlength.ge).mpr (by omega) x hx

/-! ### One packet -/

/-- The packet's block is one byte long and the last one its group needs, and an original
    of the group is missing. -/
def Overreads (d : CliFecDecoder) (now : Nat) (data : Bytes) : Prop :=
  ∃ (gid idx n total b : UInt8) (g : FecGroup),
    data = [gid, idx, n, total, b] ∧ HeaderOk idx.toNat n.toNat total.toNat [b] ∧
    d.target now gid.toNat idx.toNat n.toNat total.toNat [b] = some g ∧
    g.dataCount ≤ g.blocks.size + 1 ∧
    ∃ i < g.dataCount, i ∉ g.blocks ∧ i ≠ idx.toNat

/-- Every group is as the header checks leave it, and waits for blocks while it is not done. -/
def Regular (d : CliFecDecoder) : Prop := ∀ j g, d.group j = some g → g.WellFormed ∧ g.Waiting

theorem regular_empty : Regular {} := by
  intro j g hg
  simp [group] at hg

/-- Groups that stay or go keep the decoder regular. -/
theorem Regular.of_kept {d' : CliFecDecoder} (h : d.Regular)
    (hkept : ∀ j, d'.group j = d.group j ∨ d'.group j = none) :
    d'.Regular := by
  intro j g hg
  rcases hkept j with hj | hj
  · exact h j g (hj ▸ hg)
  · rw [hj] at hg
    cases hg

theorem Regular.target (h : d.Regular) {now gid idx n total : Nat} {block : Bytes} {g : FecGroup}
    (hok : HeaderOk idx n total block) (ht : d.target now gid idx n total block = some g) :
    g.WellFormed := by
  unfold CliFecDecoder.target at ht
  split at ht
  · next g₀ hg₀ =>
    split at ht
    · rcases group_ensureCapacity (d := d) block.length false gid with hkept | hgone
      · rw [hkept] at ht
        exact (h gid g ht).1
      · rw [hgone] at ht
        cases ht
    · cases ht
  · split at ht
    · cases ht
      obtain ⟨hheader, hblock⟩ := hok
      refine ⟨⟨hheader.1, hheader.2.1⟩, ⟨hheader.2.2.1, hheader.2.2.2.1⟩,
        List.length_pos_iff.mpr hblock, ?_, ?_, ?_⟩
      · intro i hi
        exact absurd hi Std.ExtTreeMap.not_mem_empty
      · intro i b hb
        simp [freshGroup] at hb
      · intro i
        simp [freshGroup]
    · cases ht

theorem size_withBlock {g : FecGroup} {idx : Nat} {block : Bytes} (h : idx ∉ g.blocks) :
    (g.withBlock idx block).blocks.size = g.blocks.size + 1 := by
  rw [FecGroup.withBlock, Std.ExtTreeMap.size_insert, if_neg (by simpa using h)]

theorem mem_withBlock {g : FecGroup} {idx i : Nat} {block : Bytes} :
    i ∈ (g.withBlock idx block).blocks ↔ i = idx ∨ i ∈ g.blocks := by
  simp only [FecGroup.withBlock, Std.ExtTreeMap.mem_insert, compare_eq_iff_eq, eq_comm (a := i)]

/-- The reads made for a block that is stored. -/
theorem store_inBounds_iff (hcm : cm.InPlace) {g : FecGroup} (hg : g.WellFormed)
    (hdecoded : g.decoded = false) {idx : Nat} {block : Bytes} (hidx : idx < g.totalCount)
    (hnew : idx ∉ g.blocks) (hblock : block.length = g.blockBytes) :
    (∀ x ∈ (g.store cm idx block).1, x.InBounds) ↔
      ¬ (g.blockBytes = 1 ∧ g.dataCount ≤ g.blocks.size + 1 ∧ ∃ i < g.dataCount, i ∉ g.blocks ∧
        i ≠ idx) := by
  have hwith := hg.withBlock hidx hblock
  have hemitted : ∀ x ∈ (if idx < g.dataCount then emitOriginalBlock block else []),
      x.InBounds := by
    split
    · exact emitOriginalBlock_inBounds block
    · exact nofun
  have hmissing : (∃ i < g.dataCount, i ∉ (g.withBlock idx block).blocks) ↔
      ∃ i < g.dataCount, i ∉ g.blocks ∧ i ≠ idx := by
    refine exists_congr fun i => and_congr_right fun _ => ?_
    rw [mem_withBlock, not_or, and_comm]
  have hcopy :
    (FecEffect.read (FEC_HEADER_SIZE + block.length) FEC_HEADER_SIZE block.length).InBounds :=
      Nat.le_refl _
  have hsplit : (∀ x ∈ (g.store cm idx block).1, x.InBounds) ↔
    ∀ x ∈ (if g.dataCount ≤ (g.withBlock idx block).blocks.size
      then decodeGroup cm (g.withBlock idx block)
      else ([], g.withBlock idx block)).1, x.InBounds := by
    unfold FecGroup.store
    dsimp only
    rw [List.forall_mem_cons, List.forall_mem_append]
    exact ⟨fun h => h.2.2, fun h => ⟨hcopy, hemitted, h⟩⟩
  rw [hsplit, size_withBlock hnew]
  by_cases hready : g.dataCount ≤ g.blocks.size + 1
  · rw [if_pos hready,
      decodeGroup_inBounds_iff hcm hwith hdecoded (by rw [size_withBlock hnew]; exact hready)]
    refine not_congr (and_congr_right fun _ => ?_)
    exact hmissing.trans (and_iff_right hready).symm
  · rw [if_neg hready]
    exact ⟨fun _ h => hready h.2.1, fun _ => nofun⟩

theorem addPacket_inBounds_iff (hcm : cm.InPlace) (h : d.Regular) (now : Nat) (data : Bytes) :
    (∀ x ∈ (d.addPacket cm now data).1, x.InBounds) ↔ ¬ d.Overreads now data := by
  by_cases hstored : d.Stores now data
  · obtain ⟨gid, idx, n, total, block, g, rfl, hok, ht⟩ := hstored
    obtain ⟨heffects, -⟩ := addPacket_stored cm hok ht
    obtain ⟨-, htotal, hbytes, hdecoded, hnew⟩ := target_header ht
    have hheader : (FecEffect.read (block.length + 4) 0 FEC_HEADER_SIZE).InBounds :=
      Nat.le_add_left 4 block.length
    have hread : (∀ x ∈ (d.addPacket cm now (gid :: idx :: n :: total :: block)).1, x.InBounds) ↔
        ∀ x ∈ (g.store cm idx.toNat block).1, x.InBounds := by
      rw [heffects, List.forall_mem_cons]
      exact and_iff_right hheader
    rw [hread, store_inBounds_iff hcm (h.target hok ht) hdecoded
      (htotal ▸ hok.1.2.2.2.2) hnew hbytes.symm]
    refine not_congr ⟨?_, ?_⟩
    · rintro ⟨hone, hready, hmissing⟩
      obtain ⟨b, rfl⟩ := List.length_eq_one_iff.mp (hbytes.symm.trans hone)
      exact ⟨gid, idx, n, total, b, g, rfl, hok, ht, hready, hmissing⟩
    · rintro ⟨gid', idx', n', total', b, g', hdata, -, ht', hready, hmissing⟩
      simp only [List.cons.injEq] at hdata
      obtain ⟨rfl, rfl, rfl, rfl, rfl⟩ := hdata
      rw [ht] at ht'
      cases ht'
      exact ⟨hbytes, hready, hmissing⟩
  · obtain ⟨heffects, -⟩ := addPacket_dropped cm (fun j g hg => (h j g hg).2) hstored
    refine iff_of_true ?_ ?_
    · intro x hx
      obtain ⟨hlen, rfl⟩ := heffects x hx
      exact hlen
    · rintro ⟨gid, idx, n, total, b, g, hdata, hok, ht, -⟩
      exact hstored ⟨gid, idx, n, total, [b], g, hdata, hok, ht⟩

theorem Regular.addPacket (cm : Cm256) (h : d.Regular) (now : Nat) (data : Bytes) :
    (d.addPacket cm now data).2.Regular := by
  by_cases hstored : d.Stores now data
  · obtain ⟨gid, idx, n, total, block, g, rfl, hok, ht⟩ := hstored
    obtain ⟨-, hgroup, hothers⟩ := addPacket_stored cm hok ht
    obtain ⟨-, htotal, hbytes, -, -⟩ := target_header ht
    intro j g' hg'
    by_cases hj : j = gid.toNat
    · rw [hj, hgroup] at hg'
      cases hg'
      exact ⟨(h.target hok ht).store cm (htotal ▸ hok.1.2.2.2.2) hbytes.symm,
        FecGroup.waiting_store cm g _ _⟩
    · rcases hothers j hj with hold | hgone
      · exact h j g' (hold ▸ hg')
      · rw [hgone] at hg'
        cases hg'
  · exact h.of_kept (addPacket_dropped cm (fun j g hg => (h j g hg).2) hstored).2

/-! ### Runs -/

theorem Regular.step (cm : Cm256) (h : d.Regular) (e : Event) : (d.step cm e).2.Regular := by
  cases e with
  | packet now data => exact h.addPacket cm now data
  | cleanup now =>
    refine h.of_kept fun j => ?_
    change (d.cleanup now).group j = d.group j ∨ (d.cleanup now).group j = none
    rw [group_cleanup]
    cases hg : d.group j with
    | none => exact Or.inl rfl
    | some g =>
      rw [Option.filter_some]
      split
      · exact Or.inl rfl
      · exact Or.inr rfl

theorem step_inBounds_iff (hcm : cm.InPlace) (h : d.Regular) (e : Event) :
    (∀ x ∈ (d.step cm e).1, x.InBounds) ↔ ∀ now data, e = .packet now data →
    ¬ d.Overreads now data := by
  cases e with
  | packet now data =>
    refine (addPacket_inBounds_iff hcm h now data).trans ⟨?_, fun hall => hall now data rfl⟩
    rintro hsafe now' data' heq
    cases heq
    exact hsafe
  | cleanup now => exact iff_of_true nofun nofun

theorem run_inBounds_iff_of_regular (hcm : cm.InPlace) (h : d.Regular) (es : List Event) :
    (∀ x ∈ (d.run cm es).1, x.InBounds) ↔
      ∀ before now data after, es = before ++ .packet now data :: after →
      ¬ (d.run cm before).2.Overreads now data := by
  induction es generalizing d with
  | nil => exact iff_of_true nofun (by simp)
  | cons e es ih =>
    have hrun : (∀ x ∈ (d.run cm (e :: es)).1, x.InBounds) ↔
        (∀ x ∈ (d.step cm e).1, x.InBounds) ∧ ∀ x ∈ ((d.step cm e).2.run cm es).1, x.InBounds :=
      List.forall_mem_append
    rw [hrun, step_inBounds_iff hcm h, ih (h.step cm e)]
    constructor
    · rintro ⟨hfirst, hrest⟩ before now data after heq
      cases before with
      | nil =>
        rw [List.nil_append, List.cons.injEq] at heq
        exact hfirst now data heq.1
      | cons e' before =>
        rw [List.cons_append, List.cons.injEq] at heq
        obtain ⟨rfl, heq⟩ := heq
        exact hrest before now data after heq
    · intro hall
      refine ⟨fun now data heq => ?_, fun before now data after heq => ?_⟩
      · exact hall [] now data es (by rw [heq, List.nil_append])
      · exact hall (e :: before) now data after (by rw [heq, List.cons_append])

/-- A run reads outside a block exactly when one of its packets completes a group of
    one-byte blocks that lacks an original. -/
theorem run_inBounds_iff (hcm : cm.InPlace) (es : List Event) :
    (∀ x ∈ (run cm {} es).1, x.InBounds) ↔
      ∀ before now data after, es = before ++ .packet now data :: after →
        ¬ (run cm {} before).2.Overreads now data :=
  run_inBounds_iff_of_regular hcm regular_empty es

end CliFecDecoder

/-- A code whose decoder only numbers the blocks: what the library does for a group with
    one original. -/
def Cm256.renumbering : Cm256 where
  encode n m _ originals := some ((List.range m).map fun i => originals.getD (i % n) [])
  decode _ _ _ blocks := some (blocks.zipIdx.map fun (b, i) => (i, b.2))

theorem Cm256.renumbering_inPlace : Cm256.renumbering.InPlace := by
  constructor
  · intro n m blockBytes blocks blocks' h
    obtain rfl := Option.some.inj h
    rw [List.map_map]
    have hfst := List.zipIdx_map_fst 0 blocks
    conv_rhs => rw [← hfst, List.map_map]
    rfl
  · intro n m blockBytes blocks _ _ _ _ hlen _ _
    refine ⟨_, rfl, fun i hi => ?_⟩
    rw [List.map_map]
    have hsnd : blocks.zipIdx.map (Prod.fst ∘ fun (b, i) => (i, b.2)) =
        List.range' 0 blocks.length :=
      List.zipIdx_map_snd 0 blocks
    rw [hsnd, List.mem_range'_1]
    omega

namespace CliFecDecoder

theorem twoByteBlocks_inBounds :
    Cm256.renumbering.InPlace ∧
      ∀ x ∈ (run Cm256.renumbering {} [.packet 0 [0, 1, 1, 2, 7, 7]]).1, x.InBounds := by
  refine ⟨Cm256.renumbering_inPlace, (run_inBounds_iff Cm256.renumbering_inPlace _).mpr ?_⟩
  rintro before now data after heq ⟨gid, idx, n, total, b, g, rfl, -⟩
  have hmem : Event.packet now [gid, idx, n, total, b] ∈ [Event.packet 0 [0, 1, 1, 2, 7, 7]] := by
    rw [heq]
    exact List.mem_append_right _ List.mem_cons_self
  simp at hmem

/-- One parity block of one byte, in a group with one original: two bytes are read from it. -/
theorem oneByteParity_overreads :
    ¬ ∀ cm : Cm256, cm.InPlace → ∀ es : List Event, ∀ x ∈ (run cm {} es).1, x.InBounds := by
  intro hall
  have hread := hall Cm256.renumbering Cm256.renumbering_inPlace [.packet 0 [0, 1, 1, 2, 7]]
  revert hread
  decide +kernel

end CliFecDecoder

end VlanConnect

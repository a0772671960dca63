/-
  VlanConnect/Client/FecRecovery.lean
  ===================================
  **Erasure recovery.**

  What the decoder makes of the packets of one group, among packets of other
  groups and clean-ups, as long as the group stays in its table: the originals
  that arrive are handed on as they come, and with as many distinct packets as
  there are originals the rest follows.
-/
import VlanConnect.Client.FecGroups
import VlanConnect.Client.FecReads

namespace VlanConnect

open ByteBuffer PieceTable

namespace CliFecDecoder

variable {cm : Cm256} {d : CliFecDecoder}

/-! ### The bytes of the table -/

/-- `m_bufferedBytes` is the number of bytes in the blocks. -/
def Accounted (d : CliFecDecoder) : Prop := Table.Accounted FecGroup.shape d.table

theorem accounted_empty : Accounted {} := (total_empty _).symm

theorem Accounted.ensureCapacity (h : d.Accounted) (incoming : Nat) (new : Bool) :
    (d.ensureCapacity incoming new).2.Accounted :=
  Table.Accounted.ensure h limits incoming new

theorem ensureCapacity_fits (h : d.Accounted) {incoming : Nat} (new : Bool)
    (hle : incoming ≤ FEC_MAX_BUFFERED_BYTES) :
    (d.ensureCapacity incoming new).1 = true :=
  Table.ensure_fits h new (by decide) hle

theorem Accounted.setGroup (h : d.Accounted) {gid added : Nat} {g : FecGroup}
    (hsize : FecGroup.shape.size g = ((d.group gid).map FecGroup.shape.size).getD 0 + added) :
    (d.setGroup gid g added).Accounted :=
  Table.Accounted.insert h rfl hsize

theorem Accounted.decodeIfReady (h : d.Accounted) (cm : Cm256) (gid : Nat) :
    (d.decodeIfReady cm gid).2.Accounted := by
  unfold CliFecDecoder.decodeIfReady tryDecode
  split
  · exact h
  · next g hg =>
    split
    · refine h.setGroup ?_
      rw [hg, Option.map_some, Option.getD_some]
      change total List.length _ = total List.length _ + 0
      rw [decodeGroup_blocks, Nat.add_zero]
    · exact h

theorem Accounted.storeBlock (h : d.Accounted) (cm : Cm256) (gid idx n : Nat) (block : Bytes) :
    (d.storeBlock cm gid idx n block).2.Accounted := by
  unfold CliFecDecoder.storeBlock
  cases hg : d.group gid with
  | none => exact h
  | some g =>
    dsimp only
    split
    · exact h
    split
    · exact h.decodeIfReady cm gid
    next hidx =>
    have hroom := h.ensureCapacity block.length false
    have hkept := group_ensureCapacity (d := d) block.length false gid
    generalize d.ensureCapacity block.length false = room at hroom hkept ⊢
    obtain ⟨ok, d₁⟩ := room
    dsimp only at hroom hkept ⊢
    split
    · exact hroom
    cases hg₁ : d₁.group gid with
    | none => exact hroom
    | some g₁ =>
      rw [hg₁, hg] at hkept
      obtain rfl : g₁ = g := by simpa using hkept
      refine (hroom.setGroup ?_).decodeIfReady cm gid
      rw [hg₁, Option.map_some, Option.getD_some]
      change total List.length _ = total List.length g₁.blocks + block.length
      have hnone : g₁.blocks[idx]? = none := Std.ExtTreeMap.getElem?_eq_none hidx
      rw [total_insert, erase_of_none hnone, Nat.add_comm]

theorem Accounted.addPacket (h : d.Accounted) (cm : Cm256) (now : Nat) (data : Bytes) :
    (d.addPacket cm now data).2.Accounted := by
  unfold CliFecDecoder.addPacket
  split
  · next gid idx n total block =>
    dsimp only
    split
    · exact h
    split
    · exact h
    split
    · split
      · exact Table.Accounted.remove h _
      · exact h.storeBlock cm _ _ _ _
    · next hnone =>
      have hroom := h.ensureCapacity block.length true
      have hgone := group_ensureCapacity (d := d) block.length true
      generalize d.ensureCapacity block.length true = room at hroom hgone ⊢
      obtain ⟨ok, d₁⟩ := room
      dsimp only at hroom hgone ⊢
      split
      · exact hroom
      · refine (hroom.setGroup ?_).storeBlock cm _ _ _ _
        have hnone₁ : d₁.group _ = none := (hgone _).elim (fun h => h.trans hnone) id
        rw [hnone₁]
        rfl
  · exact h

theorem Accounted.step (h : d.Accounted) (cm : Cm256) (e : Event) : (d.step cm e).2.Accounted := by
  cases e with
  | packet now data => exact h.addPacket cm now data
  | cleanup now => exact Table.Accounted.expire h _

end CliFecDecoder

/-! ### The outputs for one block -/

@[simp] theorem FecEffect.outputs_nil : FecEffect.outputs [] = [] := rfl

@[simp] theorem FecEffect.outputs_read (size offset count : Nat) (es : List FecEffect) :
    FecEffect.outputs (.read size offset count :: es) = FecEffect.outputs es := rfl

@[simp] theorem FecEffect.outputs_output (payload : Bytes) (es : List FecEffect) :
    FecEffect.outputs (.output payload :: es) = payload :: FecEffect.outputs es := rfl

@[simp] theorem FecEffect.outputs_append (es es' : List FecEffect) :
    FecEffect.outputs (es ++ es') = FecEffect.outputs es ++ FecEffect.outputs es' :=
  List.filterMap_append

theorem FecEffect.outputs_eq_nil {es : List FecEffect}
    (h : ∀ x ∈ es, ∃ size offset count, x = .read size offset count) :
    FecEffect.outputs es = [] := by
  refine List.filterMap_eq_nil_iff.mpr fun x hx => ?_
  obtain ⟨size, offset, count, rfl⟩ := h x hx
  rfl

theorem FecEffect.outputs_flatMap {α : Type} (l : List α) (f : α → List FecEffect) :
    FecEffect.outputs (l.flatMap f) = l.flatMap fun a => FecEffect.outputs (f a) := by
  induction l with
  | nil => rfl
  | cons a l ih => rw [List.flatMap_cons, List.flatMap_cons, FecEffect.outputs_append, ih]

namespace FecCode

variable {cm : Cm256} {gid blockBytes : Nat} {payloads blocks : List Bytes}

/-- The payload with that index. -/
def payload (payloads : List Bytes) (i : Nat) : Bytes := payloads.getD i []

theorem getElem?_original (h : FecCode cm gid blockBytes payloads blocks) {i : Nat}
    (hi : i < payloads.length) :
    blocks[i]? = some (CliFecEncoder.padded blockBytes (payload payloads i)) := by
  have htake : (blocks.take payloads.length)[i]? = blocks[i]? := List.getElem?_take_of_lt hi
  rw [← htake, h.originals, List.getElem?_map, payload, List.getD_eq_getElem?_getD,
    List.getElem?_eq_getElem hi]
  rfl

theorem fits_payload (h : FecCode cm gid blockBytes payloads blocks) {i : Nat}
    (hi : i < payloads.length) :
    payload payloads i ≠ [] ∧ (payload payloads i).length < 65536 ∧
    2 + (payload payloads i).length ≤ blockBytes := by
  refine h.fits _ ?_
  rw [payload, List.getD_eq_getElem?_getD, List.getElem?_eq_getElem hi]
  exact List.getElem_mem hi

theorem outputs_emitPayload {p : Bytes} (hne : p ≠ []) (hshort : p.length < 65536)
    (hfits : 2 + p.length ≤ blockBytes) :
    FecEffect.outputs (CliFecDecoder.emitPayload (CliFecEncoder.padded blockBytes p) blockBytes) =
    [p] := by
  have htake : (CliFecEncoder.padded blockBytes p).take 2 = writeU16 p.length := by
    rw [CliFecEncoder.padded, List.append_assoc]
    exact List.take_left' (length_writeU16 _)
  have hlength : CliFecDecoder.lengthPrefix (CliFecEncoder.padded blockBytes p) = p.length := by
    rw [CliFecDecoder.lengthPrefix, htake]
    exact (BigEndian.decode_encode 2 p.length).trans (Nat.mod_eq_of_lt hshort)
  have hdrop : ((CliFecEncoder.padded blockBytes p).drop 2).take p.length = p := by
    rw [CliFecEncoder.padded, List.append_assoc, List.drop_left' (length_writeU16 _)]
    exact List.take_left' rfl
  have hpos : 0 < p.length := List.length_pos_iff.mpr hne
  unfold CliFecDecoder.emitPayload
  dsimp only
  rw [hlength, if_pos ⟨hpos, hfits⟩, hdrop]
  rfl

theorem outputs_emitOriginalBlock (h : FecCode cm gid blockBytes payloads blocks) {i : Nat}
    (hi : i < payloads.length) :
    FecEffect.outputs (CliFecDecoder.emitOriginalBlock
      (CliFecEncoder.padded blockBytes (payload payloads i))) =
      [payload payloads i] := by
  obtain ⟨hne, hshort, hfits⟩ := h.fits_payload hi
  have hlen := CliFecEncoder.length_padded hfits
  unfold CliFecDecoder.emitOriginalBlock
  rw [hlen, if_neg (by omega)]
  exact outputs_emitPayload hne hshort hfits

end FecCode

/-- The group holds the blocks with these indices and has this form. -/
structure FecGroup.Holds (g : FecGroup) (blockBytes : Nat) (payloads blocks : List Bytes)
    (received : Finset Nat) : Prop where
  dataCount : g.dataCount = payloads.length
  totalCount : g.totalCount = blocks.length
  blockBytes : g.blockBytes = blockBytes
  stored : ∀ i, g.blocks[i]? = if i ∈ received then blocks[i]? else none
  received : ∀ i ∈ received, i < blocks.length

namespace FecGroup.Holds

variable {cm : Cm256} {gid blockBytes : Nat} {payloads blocks : List Bytes} {g : FecGroup}
    {received : Finset Nat}

theorem mem_blocks (h : g.Holds blockBytes payloads blocks received) (i : Nat) :
    i ∈ g.blocks ↔ i ∈ received := by
  rw [Std.ExtTreeMap.mem_iff_isSome_getElem?, h.stored]
  by_cases hi : i ∈ received
  · rw [if_pos hi, List.getElem?_eq_getElem (h.received i hi)]
    simp [hi]
  · rw [if_neg hi]
    simp [hi]

theorem size_blocks (h : g.Holds blockBytes payloads blocks received) :
    g.blocks.size = received.card := by
  have hset : (g.blocks.toList.map Prod.fst).toFinset = received := by
    ext i
    rw [List.mem_toFinset, ← h.mem_blocks, Std.ExtTreeMap.mem_iff_isSome_getElem?]
    simp only [List.mem_map, Prod.exists, exists_and_right, exists_eq_right,
      Std.ExtTreeMap.mem_toList_iff_getElem?_eq_some, Option.isSome_iff_exists]
  rw [← hset, List.toFinset_card_of_nodup (nodup_keys g.blocks), List.length_map,
    Std.ExtTreeMap.length_toList]

theorem withBlock (h : g.Holds blockBytes payloads blocks received) {i : Nat} {block : Bytes}
    (hi : blocks[i]? = some block) :
    (g.withBlock i block).Holds blockBytes payloads blocks (insert i received) := by
  refine ⟨h.dataCount, h.totalCount, h.blockBytes, fun j => ?_, fun j hj => ?_⟩
  · simp only [FecGroup.withBlock, Std.ExtTreeMap.getElem?_insert, compare_eq_iff_eq,
      Finset.mem_insert]
    by_cases hj : i = j
    · rw [if_pos hj, if_pos (Or.inl hj.symm), ← hj, hi]
    · rw [if_neg hj, h.stored]
      simp only [eq_comm (a := j), hj, false_or]
  · rcases Finset.mem_insert.mp hj with rfl | hj
    · exact (List.getElem?_eq_some_iff.mp hi).1
    · exact h.received j hj

/-- Each original contributes its payload, or nothing when it was received itself. -/
theorem outputs_recovered (h : g.Holds blockBytes payloads blocks received)
    (code : FecCode cm gid blockBytes payloads blocks) (hwf : g.WellFormed)
    {out : List (Nat × Bytes)} {i : Nat}
    (hi : i < payloads.length) (hout : CliFecDecoder.findOriginal out i = blocks[i]?) :
    FecEffect.outputs (if i ∈ g.emittedOriginals then [] else
      match CliFecDecoder.findOriginal out i with
      | none => []
      | some block => CliFecDecoder.emitPayload block g.blockBytes) =
      if decide (i ∉ received) = true then [FecCode.payload payloads i] else [] := by
  have hemitted : i ∈ g.emittedOriginals ↔ i ∈ received := by
    rw [hwf.emitted, h.mem_blocks, h.dataCount]
    exact and_iff_left hi
  by_cases hmem : i ∈ received
  · rw [if_pos (hemitted.mpr hmem), if_neg (by simpa using hmem)]
    rfl
  · rw [if_neg (mt hemitted.mp hmem), if_pos (by simpa using hmem), hout, code.getElem?_original hi,
      h.blockBytes]
    obtain ⟨hne, hshort, hfits⟩ := code.fits_payload hi
    exact FecCode.outputs_emitPayload hne hshort hfits

/-- The last block a group waits for brings the originals that are missing. -/
theorem outputs_decodeGroup (h : g.Holds blockBytes payloads blocks received)
    (code : FecCode cm gid blockBytes payloads blocks) (hwf : g.WellFormed)
    (hdecoded : g.decoded = false) (hready : payloads.length ≤ received.card) :
    FecEffect.outputs (CliFecDecoder.decodeGroup cm g).1 =
      ((List.range payloads.length).filter fun i => i ∉ received).map
      (FecCode.payload payloads) := by
  have hsize := h.size_blocks
  have hn := h.dataCount
  unfold CliFecDecoder.decodeGroup
  dsimp only
  rw [hdecoded, if_neg Bool.false_ne_true]
  by_cases hcard : g.dataCount ≤ g.emittedOriginals.card
  · rw [if_pos hcard]
    have hall : ∀ i < payloads.length, i ∈ received := by
      intro i hi
      by_contra hne
      refine absurd ((CliFecDecoder.card_emitted_lt_iff hwf).mpr ⟨i, hn ▸ hi, ?_⟩)
        (not_lt.mpr hcard)
      rwa [h.mem_blocks]
    have hnil : ((List.range payloads.length).filter fun i => i ∉ received) = [] := by
      refine List.filter_eq_nil_iff.mpr fun i hi => ?_
      simpa using hall i (List.mem_range.mp hi)
    rw [hnil]
    rfl
  rw [if_neg hcard]
  have hmissing := (CliFecDecoder.card_emitted_lt_iff hwf).mp (not_le.mp hcard)
  have htotal := CliFecDecoder.dataCount_lt_totalCount hwf (by omega) hmissing
  have hlen : (CliFecDecoder.blockStorage g).length = g.dataCount := by
    rw [CliFecDecoder.length_blockStorage]
    omega
  rw [if_neg (not_lt.mpr hlen.ge)]
  have hchosen : ∀ c ∈ CliFecDecoder.blockStorage g, blocks[c.1]? = some c.2 := by
    intro c hc
    have hblock := (CliFecDecoder.mem_blockStorage hwf hc).1
    rw [h.stored] at hblock
    split at hblock
    · exact hblock
    · cases hblock
  obtain ⟨out, hdecode, hout⟩ :=
    code.decode (CliFecDecoder.blockStorage g) (by rw [← hn, ← h.totalCount]; exact htotal)
    (hlen.trans hn) (CliFecDecoder.nodup_blockStorage g) hchosen
  rw [hn, h.totalCount, h.blockBytes, hdecode]
  dsimp only
  have hreads :
      FecEffect.outputs ((CliFecDecoder.blockStorage g).map fun b =>
        .read b.2.length 0 blockBytes) = [] := by
    refine FecEffect.outputs_eq_nil fun x hx => ?_
    obtain ⟨b, -, rfl⟩ := List.mem_map.mp hx
    exact ⟨_, _, _, rfl⟩
  rw [FecEffect.outputs_append, hreads, List.nil_append, CliFecDecoder.emitRecovered,
    FecEffect.outputs_flatMap, hn]
  refine (List.flatMap_congr fun i hi => h.outputs_recovered code hwf (List.mem_range.mp hi)
    (hout i (List.mem_range.mp hi))).trans ?_
  generalize List.range payloads.length = l
  induction l with
  | nil => rfl
  | cons i l ih =>
    rw [List.flatMap_cons, ih, List.filter_cons]
    split
    · rfl
    · rfl

theorem outputs_store (h : g.Holds blockBytes payloads blocks received)
    (code : FecCode cm gid blockBytes payloads blocks) (hwf : g.WellFormed)
    (hdecoded : g.decoded = false) {i : Nat} {block : Bytes} (hi : blocks[i]? = some block)
    (hnew : i ∉ received) :
    FecEffect.outputs (g.store cm i block).1 =
      (if i < payloads.length then [FecCode.payload payloads i] else []) ++
      (if payloads.length ≤ received.card + 1 then
        ((List.range payloads.length).filter fun j => j ∉ insert i received).map
          (FecCode.payload payloads)
      else []) := by
  obtain ⟨hlt, rfl⟩ := List.getElem?_eq_some_iff.mp hi
  have hwith :=
    hwf.withBlock (h.totalCount ▸ hlt)
      ((code.length _ (List.getElem_mem hlt)).trans h.blockBytes.symm)
  have hholds := h.withBlock hi
  have hcard : (g.withBlock i blocks[i]).blocks.size = received.card + 1 := by
    rw [hholds.size_blocks, Finset.card_insert_of_notMem hnew]
  have hemit :
    FecEffect.outputs (if i < g.dataCount then CliFecDecoder.emitOriginalBlock blocks[i] else []) =
      if i < payloads.length then [FecCode.payload payloads i] else [] := by
    rw [h.dataCount]
    by_cases hin : i < payloads.length
    · have hblock : blocks[i] = CliFecEncoder.padded blockBytes (FecCode.payload payloads i) := by
        have horiginal := code.getElem?_original hin
        rw [hi] at horiginal
        exact Option.some.inj horiginal
      rw [if_pos hin, if_pos hin, hblock, code.outputs_emitOriginalBlock hin]
    · rw [if_neg hin, if_neg hin]
      rfl
  unfold FecGroup.store
  dsimp only
  rw [FecEffect.outputs_read, FecEffect.outputs_append, hemit, hcard, h.dataCount]
  congr 1
  by_cases hready : payloads.length ≤ received.card + 1
  · rw [if_pos hready, if_pos hready]
    exact hholds.outputs_decodeGroup code hwith hdecoded
      (by rwa [Finset.card_insert_of_notMem hnew])
  · rw [if_neg hready, if_neg hready]
    rfl

end FecGroup.Holds

/-! ### A group over a run -/

namespace FecCode

variable {payloads : List Bytes} {received : Finset Nat}

/-- The payloads of the originals with these indices. -/
def arrived (payloads : List Bytes) (received : Finset Nat) : List Bytes :=
  ((List.range payloads.length).filter fun i => i ∈ received).map (payload payloads)

theorem map_payload (payloads : List Bytes) :
    (List.range payloads.length).map (payload payloads) = payloads := by
  refine List.ext_getElem (by simp) fun i h₁ h₂ => ?_
  rw [List.getElem_map, List.getElem_range, payload, List.getD_eq_getElem?_getD,
    List.getElem?_eq_getElem h₂]
  rfl

theorem arrived_insert {i : Nat} (hnew : i ∉ received) :
    (arrived payloads received ++ if i < payloads.length then [payload payloads i] else []).Perm
      (arrived payloads (insert i received)) := by
  have hindices : (((List.range payloads.length).filter fun j => j ∈ received) ++
      if i < payloads.length then [i]
      else []).Perm ((List.range payloads.length).filter fun j => j ∈ insert i received) := by
    have hrange := List.nodup_range (n := payloads.length)
    by_cases hi : i < payloads.length
    · rw [if_pos hi]
      refine (List.perm_append_singleton i _).trans ?_
      rw [List.perm_ext_iff_of_nodup (List.nodup_cons.mpr ⟨by simp [hnew], hrange.filter _⟩)
        (hrange.filter _)]
      intro j
      simp only [List.mem_cons, List.mem_filter, List.mem_range, decide_eq_true_eq,
        Finset.mem_insert]
      constructor
      · rintro (rfl | ⟨hj, hmem⟩)
        · exact ⟨hi, Or.inl rfl⟩
        · exact ⟨hj, Or.inr hmem⟩
      · rintro ⟨hj, rfl | hmem⟩
        · exact Or.inl rfl
        · exact Or.inr ⟨hj, hmem⟩
    · rw [if_neg hi, List.append_nil]
      refine List.Perm.of_eq (List.filter_congr fun j hj => ?_)
      have hne : j ≠ i := fun heq => hi (heq ▸ List.mem_range.mp hj)
      simp [Finset.mem_insert, hne]
  have hmap := hindices.map (payload payloads)
  rw [List.map_append] at hmap
  have hite : (if i < payloads.length then [i] else []).map (payload payloads) =
      if i < payloads.length then [payload payloads i] else [] := by
    split
    · rfl
    · rfl
  rwa [hite] at hmap

theorem arrived_append_missing (payloads : List Bytes) (received : Finset Nat) :
    (arrived payloads received ++
      ((List.range payloads.length).filter fun i => i ∉ received).map
      (payload payloads)).Perm payloads := by
  have hperm := (List.filter_append_perm (fun i => decide (i ∈ received))
    (List.range payloads.length)).map
    (payload payloads)
  rw [List.map_append, map_payload] at hperm
  have hnot : ((List.range payloads.length).filter fun i => decide (i ∉ received)) =
      (List.range payloads.length).filter fun i => !decide (i ∈ received) := by
    refine List.filter_congr fun i _ => ?_
    exact decide_not
  rw [arrived, hnot]
  exact hperm

end FecCode

namespace CliFecDecoder

variable {cm : Cm256} {d : CliFecDecoder} {gid blockBytes : Nat} {payloads blocks : List Bytes}
    {received : Finset Nat}
  {outs : List Bytes}

/-- Where a decoder is with a group: the packets it got of it and the payloads it handed
    on for them. -/
structure Tracks (d : CliFecDecoder) (gid blockBytes : Nat) (payloads blocks : List Bytes)
    (received : Finset Nat)
    (outs : List Bytes) : Prop where
  regular : d.Regular
  accounted : d.Accounted
  bound : ∀ i ∈ received, i < blocks.length
  absent : d.group gid = none → received = ∅ ∧ outs = []
  waiting : ∀ g, d.group gid = some g → g.decoded = false →
    g.Holds blockBytes payloads blocks received ∧ outs.Perm (FecCode.arrived payloads received)
  done : ∀ g, d.group gid = some g → g.decoded = true →
    payloads.length ≤ received.card ∧ outs.Perm payloads

/-- The group is as it was, and the packet tells nothing new. -/
theorem Tracks.unchanged (h : d.Tracks gid blockBytes payloads blocks received outs)
    {d' : CliFecDecoder} (hregular : d'.Regular) (haccounted : d'.Accounted)
    (hgroup : d'.group gid = d.group gid) :
    d'.Tracks gid blockBytes payloads blocks received outs :=
  ⟨hregular, haccounted,
    h.bound, by rw [hgroup]; exact h.absent, by rw [hgroup]; exact h.waiting, by
      rw [hgroup]; exact h.done⟩

/-- The packet of the block with that index. -/
def packetOf (gid n total i : Nat) (block : Bytes) : Bytes := fecHeader gid i n total ++ block

/-- The bytes of the header of such a packet, and the checks it passes. -/
theorem packetOf_header (code : FecCode cm gid blockBytes payloads blocks) {i : Nat} {block : Bytes}
    (hi : blocks[i]? = some block) :
    HeaderOk i payloads.length blocks.length block ∧ block.length = blockBytes ∧
      ∃ gid' idx' n' total' : UInt8,
      packetOf gid payloads.length blocks.length i block = gid' :: idx' :: n' :: total' :: block ∧
        gid'.toNat = gid ∧ idx'.toNat = i ∧ n'.toNat = payloads.length ∧
        total'.toNat = blocks.length := by
  obtain ⟨hlt, hblock⟩ := List.getElem?_eq_some_iff.mp hi
  have hcount := code.count
  have htotal := code.total
  have hlength : block.length = blockBytes := hblock ▸ code.length _ (List.getElem_mem hlt)
  have hnonempty : block ≠ [] := by
    intro hnil
    have := (code.fits_payload (by omega : 0 < payloads.length)).2.2
    rw [hnil, List.length_nil] at hlength
    omega
  refine ⟨⟨⟨hcount.1, hcount.2, htotal.1, htotal.2, hlt⟩, hnonempty⟩, hlength, _, _, _, _, rfl,
    ?_, ?_, ?_, ?_⟩
  · exact UInt8.toNat_ofNat_of_lt' code.gid
  · exact UInt8.toNat_ofNat_of_lt' (show i < 256 by omega)
  · exact UInt8.toNat_ofNat_of_lt' (show payloads.length < 256 by omega)
  · exact UInt8.toNat_ofNat_of_lt' (show blocks.length < 256 by omega)

/-- A block of the group that is stored. -/
theorem Tracks.stored (code : FecCode cm gid blockBytes payloads blocks) {now i : Nat}
    {block : Bytes} {g : FecGroup} (hregular : d.Regular) (haccounted : d.Accounted)
    (hi : blocks[i]? = some block) (hnew : i ∉ received)
    (htarget : d.target now gid i payloads.length blocks.length block = some g)
    (hholds : g.Holds blockBytes payloads blocks received)
    (houts : outs.Perm (FecCode.arrived payloads received)) :
    (d.addPacket cm now (packetOf gid payloads.length blocks.length i block)).2.Tracks gid
    blockBytes payloads blocks
      (insert i received)
      (outs ++ FecEffect.outputs
        (d.addPacket cm now (packetOf gid payloads.length blocks.length i block)).1) := by
  obtain ⟨hok, -, gid', idx', n', total', hdata, hgid, hidx, hn, htotal⟩ := packetOf_header code hi
  have hwf : g.WellFormed := hregular.target hok htarget
  obtain ⟨-, -, -, hdecoded, -⟩ := target_header htarget
  have htarget' : d.target now gid'.toNat idx'.toNat n'.toNat total'.toNat block = some g := by
    rw [hgid, hidx, hn, htotal]
    exact htarget
  obtain ⟨heffects, hgroup, -⟩ := addPacket_stored cm (by rw [hidx, hn, htotal]; exact hok) htarget'
  rw [← hdata, hidx] at heffects
  rw [← hdata, hidx, hgid] at hgroup
  have houtputs :
    FecEffect.outputs (d.addPacket cm now (packetOf gid payloads.length blocks.length i block)).1 =
      FecEffect.outputs (g.store cm i block).1 := by
    rw [heffects, FecEffect.outputs_read]
  have hsize : (g.withBlock i block).blocks.size = received.card + 1 := by
    rw [(hholds.withBlock hi).size_blocks, Finset.card_insert_of_notMem hnew]
  have hmark : (g.store cm i block).2.decoded = decide (payloads.length ≤ received.card + 1) := by
    rw [FecGroup.store_snd, hdecoded, Bool.false_or, hsize, hholds.dataCount]
  rw [houtputs, hholds.outputs_store code hwf hdecoded hi hnew]
  refine ⟨hregular.addPacket cm now _, haccounted.addPacket cm now _,
    (hholds.withBlock hi).received, ?_, ?_, ?_⟩
  · intro hnone
    rw [hgroup] at hnone
    cases hnone
  · intro g' hg' hfew
    rw [hgroup] at hg'
    cases hg'
    rw [hmark, decide_eq_false_iff_not] at hfew
    rw [if_neg hfew, List.append_nil]
    refine ⟨?_, (houts.append_right _).trans (FecCode.arrived_insert hnew)⟩
    have hwith := hholds.withBlock hi
    rw [FecGroup.store_snd]
    exact ⟨hwith.dataCount, hwith.totalCount, hwith.blockBytes, hwith.stored, hwith.received⟩
  · intro g' hg' hready
    rw [hgroup] at hg'
    cases hg'
    rw [hmark, decide_eq_true_iff] at hready
    rw [if_pos hready, ← List.append_assoc]
    refine ⟨by rwa [Finset.card_insert_of_notMem hnew], ?_⟩
    exact (((houts.append_right _).trans (FecCode.arrived_insert hnew)).append_right _).trans
      (FecCode.arrived_append_missing payloads _)

/-- A packet whose block is not stored hands nothing on. -/
theorem outputs_addPacket_dropped (h : d.Regular) {now : Nat} {data : Bytes}
    (hdrop : ¬ d.Stores now data) :
    FecEffect.outputs (d.addPacket cm now data).1 = [] := by
  refine FecEffect.outputs_eq_nil fun x hx => ?_
  obtain ⟨-, rfl⟩ := (addPacket_dropped cm (fun j g hg => (h j g hg).2) hdrop).1 x hx
  exact ⟨_, _, _, rfl⟩

/-- A packet of the group. -/
theorem Tracks.own (h : d.Tracks gid blockBytes payloads blocks received outs)
    (code : FecCode cm gid blockBytes payloads blocks) (now : Nat) {i : Nat} {block : Bytes}
    (hi : blocks[i]? = some block)
    (hstays : d.group gid ≠ none →
      (d.addPacket cm now (packetOf gid payloads.length blocks.length i block)).2.group gid ≠
      none) :
    (d.addPacket cm now (packetOf gid payloads.length blocks.length i block)).2.Tracks gid
    blockBytes payloads blocks
      (insert i received)
      (outs ++ FecEffect.outputs
        (d.addPacket cm now (packetOf gid payloads.length blocks.length i block)).1) := by
  obtain ⟨hok, hlength, gid', idx', n', total', hdata, hgid, hidx, hn, htotal⟩ :=
    packetOf_header code hi
  have hregular := h.regular.addPacket cm now (packetOf gid payloads.length blocks.length i block)
  have haccounted :=
    h.accounted.addPacket cm now (packetOf gid payloads.length blocks.length i block)
  have hfits : block.length ≤ FEC_MAX_BUFFERED_BYTES := by
    rw [hlength]
    exact code.small.trans (by decide)
  cases hg : d.group gid with
  | none =>
    obtain ⟨rfl, rfl⟩ := h.absent hg
    have htarget : d.target now gid i payloads.length blocks.length block =
        some (freshGroup now payloads.length blocks.length block.length) := by
      rw [target, hg]
      exact if_pos (ensureCapacity_fits h.accounted true hfits)
    refine Tracks.stored code h.regular h.accounted hi (Finset.notMem_empty i) htarget ?_ ?_
    · refine ⟨rfl, rfl, hlength, fun j => ?_, fun j hj => absurd hj (Finset.notMem_empty j)⟩
      simp [freshGroup]
    · simp [FecCode.arrived]
  | some g =>
    have hpresent := hstays (by rw [hg]; exact Option.some_ne_none g)
    -- A packet that is not stored leaves the group as it is.
    have hsame : ¬ d.Stores now (packetOf gid payloads.length blocks.length i block) →
        (d.addPacket cm now (packetOf gid payloads.length blocks.length i block)).2.group gid =
        d.group gid := by
      intro hdrop
      rcases (addPacket_dropped cm (fun j g hg => (h.regular j g hg).2) hdrop).2 gid with
        hkept | hgone
      · exact hkept
      · exact absurd hgone hpresent
    have hstores : d.Stores now (packetOf gid payloads.length blocks.length i block) →
        g.decoded = false ∧ i ∉ g.blocks := by
      rintro ⟨gid'', idx'', n'', total'', block', g', heq, -, ht⟩
      simp only [hdata, List.cons.injEq] at heq
      obtain ⟨rfl, rfl, rfl, rfl, rfl⟩ := heq
      rw [hgid, hidx, hn, htotal, target, hg] at ht
      dsimp only at ht
      split at ht
      · next hmatch => exact ⟨hmatch.2.1, hmatch.2.2.1⟩
      · cases ht
    cases hdecoded : g.decoded with
    | true =>
      have hdrop : ¬ d.Stores now (packetOf gid payloads.length blocks.length i block) := by
        intro hst
        rw [(hstores hst).1] at hdecoded
        cases hdecoded
      obtain ⟨hcard, houts⟩ := h.done g hg hdecoded
      rw [outputs_addPacket_dropped h.regular hdrop, List.append_nil]
      refine ⟨hregular, haccounted, ?_, ?_, ?_, ?_⟩
      · intro j hj
        rcases Finset.mem_insert.mp hj with rfl | hj
        · exact (List.getElem?_eq_some_iff.mp hi).1
        · exact h.bound j hj
      · intro hnone
        exact absurd hnone hpresent
      · intro g' hg' hwaiting
        rw [hsame hdrop, hg] at hg'
        cases hg'
        rw [hdecoded] at hwaiting
        cases hwaiting
      · intro g' _ _
        exact ⟨hcard.trans (Finset.card_le_card (Finset.subset_insert i received)), houts⟩
    | false =>
      obtain ⟨hholds, houts⟩ := h.waiting g hg hdecoded
      by_cases hnew : i ∈ received
      · have hdrop : ¬ d.Stores now (packetOf gid payloads.length blocks.length i block) := by
          intro hst
          exact (hstores hst).2 ((hholds.mem_blocks i).mpr hnew)
        rw [outputs_addPacket_dropped h.regular hdrop, List.append_nil,
          Finset.insert_eq_of_mem hnew]
        exact h.unchanged hregular haccounted (hsame hdrop)
      · have hidxnew : i ∉ g.blocks := mt (hholds.mem_blocks i).mp hnew
        have hkept : (d.ensureCapacity block.length false).2.group gid = some g := by
          rcases group_ensureCapacity (d := d) block.length false gid with hkept | hgone
          · exact hkept.trans hg
          · refine absurd ?_ hpresent
            have hok' : HeaderOk idx'.toNat n'.toNat total'.toNat block := by
              rw [hidx, hn, htotal]
              exact hok
            have hnone :=
              addPacket_evicted cm now hok' (hgid.symm ▸ hg) hdecoded (hidx.symm ▸ hidxnew)
              (hgid.symm ▸ hgone)
            rwa [← hdata, hgid] at hnone
        have htarget : d.target now gid i payloads.length blocks.length block = some g := by
          rw [target, hg]
          dsimp only
          rw [if_pos ⟨⟨hholds.dataCount, hholds.totalCount, hholds.blockBytes.trans hlength.symm⟩,
            hdecoded, hidxnew,
            ensureCapacity_fits h.accounted false hfits⟩, hkept]
        exact Tracks.stored code h.regular h.accounted hi hnew htarget hholds houts

/-! ### The packets of a run -/

/-- The packet that an event brings. -/
def Event.data : Event → List Bytes
  | .packet _ data => [data]
  | .cleanup _ => []

/-- The event is a packet with that group id. -/
def Event.carries (gid : Nat) (e : Event) : Bool :=
  e.data.any fun data => data.head?.map UInt8.toNat = some gid

/-- The payloads that are handed on for the packets with that group id. -/
def outputsOf (cm : Cm256) (gid : Nat) (d : CliFecDecoder) : List Event → List Bytes
  | [] => []
  | e :: es =>
    let (effects, d) := d.step cm e
    (if e.carries gid then FecEffect.outputs effects else []) ++ outputsOf cm gid d es

/-- The group is not removed. -/
def Stays (cm : Cm256) (gid : Nat) (d : CliFecDecoder) (es : List Event) : Prop :=
  ∀ before e after, es = before ++ e :: after → (d.run cm before).2.group gid ≠ none →
    ((d.run cm before).2.step cm e).2.group gid ≠ none

theorem Stays.head {e : Event} {es : List Event} (h : Stays cm gid d (e :: es))
    (hg : d.group gid ≠ none) :
    (d.step cm e).2.group gid ≠ none := h [] e es rfl hg

theorem Stays.tail {e : Event} {es : List Event} (h : Stays cm gid d (e :: es)) :
    Stays cm gid (d.step cm e).2 es := by
  intro before e' after heq
  exact h (e :: before) e' after (by rw [heq, List.cons_append])

/-- Anything else leaves the group as it is or removes it. -/
theorem group_step_other (cm : Cm256) (h : d.Regular) {e : Event} (hother : e.carries gid = false) :
    (d.step cm e).2.group gid = d.group gid ∨ (d.step cm e).2.group gid = none := by
  cases e with
  | packet now data =>
    by_cases hstored : d.Stores now data
    · obtain ⟨gid', idx, n, total, block, g, rfl, hok, ht⟩ := hstored
      have hne : gid ≠ gid'.toNat := by
        rintro rfl
        simp [Event.carries, Event.data] at hother
      exact (addPacket_stored cm hok ht).2.2 gid hne
    · exact (addPacket_dropped cm (fun j g hg => (h j g hg).2) hstored).2 gid
  | cleanup now =>
    change (d.cleanup now).group gid = d.group gid ∨ (d.cleanup now).group gid = none
    rw [group_cleanup]
    cases d.group gid with
    | none => exact Or.inl rfl
    | some g =>
      rw [Option.filter_some]
      split
      · exact Or.inl rfl
      · exact Or.inr rfl

theorem Tracks.other (h : d.Tracks gid blockBytes payloads blocks received outs) {e : Event}
    (hother : e.carries gid = false)
    (hstays : d.group gid ≠ none → (d.step cm e).2.group gid ≠ none) :
    (d.step cm e).2.Tracks gid blockBytes payloads blocks received outs := by
  refine h.unchanged (h.regular.step cm e) (h.accounted.step cm e) ?_
  rcases group_step_other cm h.regular hother with hkept | hgone
  · exact hkept
  · rw [hgone]
    by_contra hne
    exact hstays (fun hnone => hne hnone.symm) hgone

/-- The packet with that index, as the encoder numbers them. -/
def packetAt (gid n : Nat) (blocks : List Bytes) (i : Nat) : Bytes :=
  packetOf gid n blocks.length i (blocks.getD i [])

theorem packetAt_injective {n i j : Nat} (hi : i < 256) (hj : j < 256)
    (h : packetAt gid n blocks i = packetAt gid n blocks j) : i = j := by
  simp only [packetAt, packetOf, fecHeader, List.cons_append, List.cons.injEq] at h
  have hbyte := congrArg UInt8.toNat h.2.1
  rwa [UInt8.toNat_ofNat_of_lt' hi, UInt8.toNat_ofNat_of_lt' hj] at hbyte

theorem carries_packetAt (hgid : gid < 256) (now n i : Nat) :
    (Event.packet now (packetAt gid n blocks i)).carries gid = true := by
  simp [Event.carries, Event.data, packetAt, packetOf, fecHeader, UInt8.toNat_ofNat_of_lt' hgid]

/-- A run with packets of the group and others. -/
theorem Tracks.run (code : FecCode cm gid blockBytes payloads blocks) {es : List Event}
    (h : d.Tracks gid blockBytes payloads blocks received outs)
    (hown : ∀ now data, .packet now data ∈ es → (Event.packet now data).carries gid = true →
      ∃ i < blocks.length, data = packetAt gid payloads.length blocks i)
    (hstays : Stays cm gid d es) :
    ∃ received' : Finset Nat, (∀ i < blocks.length, i ∈ received' ↔
        i ∈ received ∨ packetAt gid payloads.length blocks i ∈ es.flatMap Event.data) ∧
      (d.run cm es).2.Tracks gid blockBytes payloads blocks received'
        (outs ++ outputsOf cm gid d es) := by
  induction es generalizing d received outs with
  | nil => exact ⟨received, by simp, by simpa [CliFecDecoder.run, outputsOf] using h⟩
  | cons e es ih =>
    have hrest : ∀ now data, .packet now data ∈ es → (Event.packet now data).carries gid = true →
        ∃ i < blocks.length, data = packetAt gid payloads.length blocks i :=
      fun now data hmem => hown now data (List.mem_cons_of_mem _ hmem)
    have htotal := code.total
    have hcount := code.count
    cases hcarries : e.carries gid with
    | true =>
      obtain ⟨now, data, rfl⟩ : ∃ now data, e = .packet now data := by
        cases e with
        | packet now data => exact ⟨now, data, rfl⟩
        | cleanup now => cases hcarries
      obtain ⟨i, hi, rfl⟩ := hown now data List.mem_cons_self hcarries
      have hblock : blocks[i]? = some (blocks.getD i []) := by
        rw [List.getD_eq_getElem?_getD, List.getElem?_eq_getElem hi]
        rfl
      have hstep := h.own code now hblock hstays.head
      obtain ⟨received', hreceived, htracks⟩ := ih hstep hrest hstays.tail
      refine ⟨received', fun j hj => ?_, ?_⟩
      · rw [hreceived j hj, Finset.mem_insert, List.flatMap_cons, List.mem_append]
        have hdata : packetAt gid payloads.length blocks j ∈
            (Event.packet now (packetAt gid payloads.length blocks i)).data ↔ j = i := by
          rw [Event.data, List.mem_singleton]
          exact ⟨packetAt_injective (by omega) (by omega), fun heq => by rw [heq]⟩
        rw [hdata]
        tauto
      · have houts :
          outputsOf cm gid d (.packet now (packetAt gid payloads.length blocks i) :: es) =
            FecEffect.outputs (d.addPacket cm now (packetAt gid payloads.length blocks i)).1 ++
              outputsOf cm gid (d.addPacket cm now (packetAt gid payloads.length blocks i)).2
              es := by
          rw [outputsOf, hcarries]
          rfl
        rw [houts, ← List.append_assoc]
        exact htracks
    | false =>
      obtain ⟨received', hreceived, htracks⟩ := ih (h.other hcarries hstays.head) hrest hstays.tail
      refine ⟨received', fun j hj => ?_, ?_⟩
      · rw [hreceived j hj, List.flatMap_cons, List.mem_append]
        have hdata : packetAt gid payloads.length blocks j ∉ e.data := by
          intro hmem
          cases e with
          | packet now data =>
            rw [Event.data, List.mem_singleton] at hmem
            rw [← hmem, carries_packetAt code.gid] at hcarries
            cases hcarries
          | cleanup now => cases hmem
        tauto
      · have houts : outputsOf cm gid d (e :: es) = outputsOf cm gid (d.step cm e).2 es := by
          rw [outputsOf, hcarries]
          rfl
        rw [houts]
        exact htracks

theorem run_regular_accounted (cm : Cm256) (es : List Event) (hregular : d.Regular)
    (haccounted : d.Accounted) :
    (d.run cm es).2.Regular ∧ (d.run cm es).2.Accounted := by
  induction es generalizing d with
  | nil => exact ⟨hregular, haccounted⟩
  | cons e es ih => exact ih (hregular.step cm e) (haccounted.step cm e)

end CliFecDecoder

/-! ### From encoder to decoder -/

/-- The payloads of a group that are handed on when these packets arrive: all of them for
    as many distinct packets of the group as it has payloads, else those that came as
    originals (the first packets of the group, in its order). -/
def CliFecEncoder.Emission.expected (em : CliFecEncoder.Emission) (received : List Bytes) :
    List Bytes :=
  if em.payloads.length ≤ (em.packets.filter fun p => p ∈ received).length then em.payloads
  else ((em.payloads.zip em.packets).filter fun q => q.2 ∈ received).map Prod.fst

theorem fecPackets_eq (gid n : Nat) (blocks : List Bytes) :
    fecPackets gid n blocks =
    (List.range blocks.length).map (CliFecDecoder.packetAt gid n blocks) := by
  refine List.ext_getElem (by simp [fecPackets]) fun i h₁ h₂ => ?_
  have hi : i < blocks.length := by simpa using h₂
  simp [fecPackets, CliFecDecoder.packetAt, CliFecDecoder.packetOf, List.getD_eq_getElem?_getD, hi]

/-- What is expected, in terms of the indices that arrived. -/
theorem CliFecEncoder.Emission.expected_eq {em : CliFecEncoder.Emission} {gid : Nat}
    {blocks received : List Bytes} {indices : Finset Nat} (hle : em.payloads.length ≤ blocks.length)
    (hpackets : em.packets = fecPackets gid em.payloads.length blocks)
    (hbound : ∀ i ∈ indices, i < blocks.length)
    (hindices : ∀ i < blocks.length,
      i ∈ indices ↔ CliFecDecoder.packetAt gid em.payloads.length blocks i ∈ received) :
    em.expected received =
      if em.payloads.length ≤ indices.card then em.payloads
      else FecCode.arrived em.payloads indices := by
  have hcount : (em.packets.filter fun p => p ∈ received).length = indices.card := by
    have hset : indices = (((List.range blocks.length).filter fun i =>
        CliFecDecoder.packetAt gid em.payloads.length blocks i ∈ received)).toFinset := by
      ext i
      simp only [List.mem_toFinset, List.mem_filter, List.mem_range, decide_eq_true_eq]
      exact ⟨fun h => ⟨hbound i h, (hindices i (hbound i h)).mp h⟩,
        fun h => (hindices i h.1).mpr h.2⟩
    rw [hset, List.toFinset_card_of_nodup (List.nodup_range.filter _), hpackets, fecPackets_eq,
      List.filter_map, List.length_map]
    rfl
  have hzip : em.payloads.zip em.packets = (List.range em.payloads.length).map fun i =>
      (FecCode.payload em.payloads i, CliFecDecoder.packetAt gid em.payloads.length blocks i) := by
    rw [hpackets, fecPackets_eq]
    refine List.ext_getElem (by simp [hle]) fun i h₁ h₂ => ?_
    have hi : i < em.payloads.length := by simpa using h₂
    simp [FecCode.payload, List.getD_eq_getElem?_getD, hi]
  have harrived : ((em.payloads.zip em.packets).filter fun q => q.2 ∈ received).map Prod.fst =
      FecCode.arrived em.payloads indices := by
    rw [hzip, List.filter_map, List.map_map, FecCode.arrived]
    have hfilter :
        ((List.range em.payloads.length).filter
          ((fun q : Bytes × Bytes => decide (q.2 ∈ received)) ∘ fun i =>
        (FecCode.payload em.payloads i, CliFecDecoder.packetAt gid em.payloads.length blocks i))) =
        (List.range em.payloads.length).filter fun i => i ∈ indices := by
      refine List.filter_congr fun i hi => ?_
      exact decide_eq_decide.mpr (hindices i ((List.mem_range.mp hi).trans_le hle)).symm
    rw [hfilter]
    rfl
  rw [CliFecEncoder.Emission.expected, hcount, harrived]

/-- Every group an encoder emits is recovered from any of its packets, whatever else the
    decoder gets, as long as the group is in its table: each payload once and nothing
    else. -/
theorem fec_recovers {cm : Cm256} (hmds : cm.Mds) (mode : FecMode) (calls : List CliFecEncoder.Call)
    (hcalls : ∀ p, .addPacket p ∈ calls → p ≠ [] ∧ p.length < 65536) :
    calls.flatMap CliFecEncoder.Call.payload =
        (CliFecEncoder.run cm { mode := mode } calls).1.flatMap CliFecEncoder.Emission.payloads ++
          (CliFecEncoder.run cm { mode := mode } calls).2.buffer ∧
      ∀ em ∈ (CliFecEncoder.run cm { mode := mode } calls).1, ∃ gid,
        (∀ p ∈ em.packets, p.head?.map UInt8.toNat = some gid) ∧
        ∀ (earlier es : List CliFecDecoder.Event),
          (CliFecDecoder.run cm {} earlier).2.group gid = none →
          (∀ now data, .packet now data ∈ es → data.head?.map UInt8.toNat = some gid →
            data ∈ em.packets) →
          CliFecDecoder.Stays cm gid (CliFecDecoder.run cm {} earlier).2 es →
          (CliFecDecoder.outputsOf cm gid (CliFecDecoder.run cm {} earlier).2 es).Perm
            (em.expected (es.flatMap CliFecDecoder.Event.data)) := by
  have hsound : CliFecEncoder.Sound { mode := mode } := ⟨Nat.zero_lt_succ _, nofun,
    Nat.zero_lt_succ _⟩
  have hpayloads : ∀ c ∈ calls, ∀ p ∈ c.payload, p ≠ [] ∧ p.length < 65536 := by
    intro c hc p hp
    cases c with
    | addPacket q =>
      obtain rfl := List.mem_singleton.mp hp
      exact hcalls p hc
    | update => cases hp
  obtain ⟨hsplit, hgroups⟩ := CliFecEncoder.run_emissions hmds hsound (Nat.zero_lt_succ _) hpayloads
  refine ⟨hsplit, fun em hem => ?_⟩
  obtain ⟨gid, blockBytes, blocks, code, hpackets⟩ := hgroups em hem
  have hhead : ∀ i, (CliFecDecoder.packetAt gid em.payloads.length blocks i).head?.map UInt8.toNat =
      some gid := by
    intro i
    simp [CliFecDecoder.packetAt, CliFecDecoder.packetOf, fecHeader,
      UInt8.toNat_ofNat_of_lt' code.gid]
  refine ⟨gid, ?_, fun earlier es habsent hown hstays => ?_⟩
  · intro p hp
    rw [hpackets, fecPackets_eq] at hp
    obtain ⟨i, -, rfl⟩ := List.mem_map.mp hp
    exact hhead i
  obtain ⟨hregular, haccounted⟩ :=
    CliFecDecoder.run_regular_accounted cm earlier CliFecDecoder.regular_empty
      CliFecDecoder.accounted_empty
  have hstart :
      (CliFecDecoder.run cm {} earlier).2.Tracks gid blockBytes em.payloads blocks ∅ [] := by
    refine ⟨hregular, haccounted, fun i hi => absurd hi (Finset.notMem_empty i),
      fun _ => ⟨rfl, rfl⟩, ?_, ?_⟩
    · intro g hg
      rw [habsent] at hg
      cases hg
    · intro g hg
      rw [habsent] at hg
      cases hg
  have hindex : ∀ now data, .packet now data ∈ es →
    (CliFecDecoder.Event.packet now data).carries gid = true →
      ∃ i < blocks.length, data = CliFecDecoder.packetAt gid em.payloads.length blocks i := by
    intro now data hmem hcarries
    have hdata :=
      hown now data hmem (by simpa [CliFecDecoder.Event.carries, CliFecDecoder.Event.data]
        using hcarries)
    rw [hpackets, fecPackets_eq] at hdata
    obtain ⟨i, hi, rfl⟩ := List.mem_map.mp hdata
    exact ⟨i, List.mem_range.mp hi, rfl⟩
  obtain ⟨indices, hindices, htracks⟩ := CliFecDecoder.Tracks.run code hstart hindex hstays
  rw [em.expected_eq code.total.1 hpackets htracks.bound (fun i hi => by simpa using hindices i hi)]
  cases hg : (CliFecDecoder.run cm (CliFecDecoder.run cm {} earlier).2 es).2.group gid with
  | none =>
    obtain ⟨rfl, houts⟩ := htracks.absent hg
    rw [List.nil_append] at houts
    have hcount := code.count.1
    rw [houts, Finset.card_empty, if_neg (by omega)]
    simp [FecCode.arrived]
  | some g =>
    cases hdecoded : g.decoded with
    | false =>
      obtain ⟨hholds, houts⟩ := htracks.waiting g hg hdecoded
      have hfew := (htracks.regular gid g hg).2 hdecoded
      rw [hholds.size_blocks, hholds.dataCount] at hfew
      rw [if_neg (by omega)]
      exact houts
    | true =>
      obtain ⟨hcard, houts⟩ := htracks.done g hg hdecoded
      rw [if_pos hcard]
      exact houts

/-- What the library does for one original, and for two with one parity block. -/
def Cm256.parityOfTwo : Cm256 where
  encode n m _ originals :=
    match n, m, originals with
    | 1, m, [a] => some (List.replicate m a)
    | 2, 1, [a, b] => some [List.zipWith (· ^^^ ·) a b]
    | _, _, _ => none
  decode n _ _ blocks :=
    match n, blocks with
    | 1, [(_, a)] => some [(0, a)]
    | 2, [(i, a), (j, b)] =>
      some [(if i = 2 then 1 - j else i, if i = 2 then List.zipWith (· ^^^ ·) a b else a),
        (if j = 2 then 1 - i else j, if j = 2 then List.zipWith (· ^^^ ·) a b else b)]
    | _, _ => none

theorem zipWith_xor_cancel {a b : Bytes} (h : a.length = b.length) :
    List.zipWith (· ^^^ ·) a (List.zipWith (· ^^^ ·) a b) = b ∧
      List.zipWith (· ^^^ ·) (List.zipWith (· ^^^ ·) a b) a = b ∧
      List.zipWith (· ^^^ ·) b (List.zipWith (· ^^^ ·) a b) = a ∧
      List.zipWith (· ^^^ ·) (List.zipWith (· ^^^ ·) a b) b = a := by
  induction a generalizing b with
  | nil =>
    obtain rfl : b = [] := List.length_eq_zero_iff.mp h.symm
    exact ⟨rfl, rfl, rfl, rfl⟩
  | cons x a ih =>
    cases b with
    | nil => cases h
    | cons y b =>
      obtain ⟨h₁, h₂, h₃, h₄⟩ := ih (Nat.succ.inj h)
      have hx : x ^^^ (x ^^^ y) = y := by rw [← UInt8.xor_assoc, UInt8.xor_self, UInt8.zero_xor]
      have hy : y ^^^ (x ^^^ y) = x := by
        rw [UInt8.xor_comm x y, ← UInt8.xor_assoc, UInt8.xor_self, UInt8.zero_xor]
      simp only [List.zipWith_cons_cons, h₁, h₂, h₃, h₄, hx, hy, UInt8.xor_comm (x ^^^ y), and_self]

theorem Cm256.parityOfTwo_mds : Cm256.parityOfTwo.Mds := by
  constructor
  · intro n m blockBytes originals recovery hencode hlen hsizes
    simp only [Cm256.parityOfTwo] at hencode
    split at hencode
    · next a =>
      cases hencode
      refine ⟨List.length_replicate, fun b hb => ?_⟩
      rw [List.eq_of_mem_replicate hb]
      exact hsizes a (List.mem_singleton_self a)
    · next a b =>
      cases hencode
      refine ⟨rfl, fun c hc => ?_⟩
      have ha := hsizes a (by simp)
      have hb := hsizes b (by simp)
      rw [List.mem_singleton.mp hc, List.length_zipWith, ha, hb, min_self]
    · cases hencode
  · intro n m blockBytes originals recovery hencode hlen hsizes blocks hcount hnodup hblocks
    simp only [Cm256.parityOfTwo] at hencode
    split at hencode
    · next a =>
      cases hencode
      obtain ⟨⟨i, c⟩, rfl⟩ := List.length_eq_one_iff.mp hcount
      have hc := hblocks (i, c) (List.mem_singleton_self _)
      have hca : c = a := by
        have hmem := List.mem_of_getElem? hc
        rcases List.mem_append.mp hmem with hmem | hmem
        · exact List.mem_singleton.mp hmem
        · exact List.eq_of_mem_replicate hmem
      refine ⟨[(0, c)], rfl, fun k hk => ?_⟩
      obtain rfl : k = 0 := by omega
      rw [hca]
      rfl
    · next a b =>
      cases hencode
      obtain ⟨⟨i, c⟩, ⟨j, d⟩, rfl⟩ := List.length_eq_two.mp hcount
      have hc := hblocks (i, c) (by simp)
      have hd := hblocks (j, d) (by simp)
      have hne : i ≠ j := by simpa using hnodup
      obtain ⟨h₁, h₂, h₃, h₄⟩ :=
        zipWith_xor_cancel ((hsizes a (by simp)).trans (hsizes b (by simp)).symm)
      refine ⟨_, rfl, fun k hk => ?_⟩
      have hi : i < 3 := by simpa using (List.getElem?_eq_some_iff.mp hc).1
      have hj : j < 3 := by simpa using (List.getElem?_eq_some_iff.mp hd).1
      -- Two of the three blocks, in either order, and one of the two originals.
      obtain rfl | rfl | rfl : i = 0 ∨ i = 1 ∨ i = 2 := by omega
      all_goals obtain rfl | rfl | rfl : j = 0 ∨ j = 1 ∨ j = 2 := by omega
      all_goals obtain rfl | rfl : k = 0 ∨ k = 1 := by omega
      all_goals simp_all [CliFecDecoder.findOriginal]
    · cases hencode

/-- A group of two: the first packet is lost, the parity packet recovers it. -/
theorem fec_recovers_first_of_two :
    (CliFecDecoder.outputsOf Cm256.parityOfTwo 0 {}
      [.packet 0 [0, 2, 2, 3, 0, 3, 3, 3], .packet 4 [0, 1, 2, 3, 0, 2, 2, 3],
        .packet 5 [0, 2, 2, 3, 0, 3, 3, 3]]).Perm
      [[1], [2, 3]] := by
  obtain ⟨-, hgroups⟩ :=
    fec_recovers Cm256.parityOfTwo_mds .fec10 [.addPacket [1], .addPacket [2, 3], .update] (by simp)
  obtain ⟨gid, hhead, hrecovers⟩ := hgroups
    ⟨[[1], [2, 3]], [[0, 0, 2, 3, 0, 1, 1, 0], [0, 1, 2, 3, 0, 2, 2, 3], [0, 2, 2, 3, 0, 3, 3, 3]]⟩
    (List.mem_singleton_self _)
  obtain rfl : 0 = gid := Option.some.inj (hhead _ List.mem_cons_self)
  refine hrecovers [] _ rfl ?_ ?_
  · intro now data hmem _
    simp only [List.mem_cons, List.not_mem_nil, or_false, CliFecDecoder.Event.packet.injEq] at hmem
    rcases hmem with ⟨-, rfl⟩ | ⟨-, rfl⟩ | ⟨-, rfl⟩ <;> decide
  · intro before e after heq _
    rw [← Option.isSome_iff_ne_none]
    rcases before with _ | ⟨e₁, _ | ⟨e₂, _ | ⟨e₃, before⟩⟩⟩
    all_goals simp only [List.nil_append, List.cons_append, List.cons.injEq] at heq
    · obtain ⟨rfl, -⟩ := heq
      decide +kernel
    · obtain ⟨rfl, rfl, -⟩ := heq
      decide +kernel
    · obtain ⟨rfl, rfl, rfl, -⟩ := heq
      decide +kernel
    · simp at heq

end VlanConnect

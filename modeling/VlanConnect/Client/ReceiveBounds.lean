/-
  VlanConnect/Client/ReceiveBounds.lean
  =====================================
  **What a stranger can make a client keep.**

  Whatever bytes arrive and whatever the clock shows, the table of messages in
  pieces and the table of groups keep to their limits, and the numbers they keep
  of their bytes are right (`bounded_receive_state`).

  Both are tables of the same kind, so most of this is `PieceTable.Table.Sound`.
  What is left for a message is that its entry never stays without a fragment:
  an entry is made before its first fragment is charged for, and the second
  request for room could remove it.  It does not, because the first request made
  room for the same bytes.
-/
import VlanConnect.Client.RawUdpDelivery
import VlanConnect.Client.FecSteps

namespace VlanConnect

open PieceTable

/-! ### Messages in pieces -/

/-- Some fragments are there and some are not. -/
structure ReassemblyEntry.Partial (e : ReassemblyEntry) : Prop where
  counted : e.receivedCount = e.fragments.size
  some_there : 0 < e.receivedCount
  some_missing : e.receivedCount < e.fragTotal
  index : ∀ i ∈ e.fragments, i < e.fragTotal

namespace CliRawUdpTunnel

variable {t : CliRawUdpTunnel} {f : Fragment}

/-- The table is within its limits, and every entry waits for something. -/
def Bounded (t : CliRawUdpTunnel) : Prop :=
  Table.Sound ReassemblyEntry.shape limits ReassemblyEntry.Partial t.reassembly

theorem withFragment_incomplete {e : ReassemblyEntry} {i : Nat} {payload : Bytes}
    (hcounted : e.receivedCount = e.fragments.size) (hindex : ∀ j ∈ e.fragments, j < e.fragTotal)
    (hnew : i ∉ e.fragments) (hi : i < e.fragTotal) (hmissing : e.receivedCount + 1 < e.fragTotal) :
    (e.withFragment i payload).Partial where
  counted := by
    change e.receivedCount + 1 = (e.fragments.insert i payload).size
    rw [Std.ExtTreeMap.size_insert, if_neg (mt Std.ExtTreeMap.contains_iff_mem.mp hnew), hcounted]
  some_there := Nat.succ_pos _
  some_missing := hmissing
  index := by
    intro j hj
    rcases Std.ExtTreeMap.mem_insert.mp hj with heq | hold
    · rw [← compare_eq_iff_eq.mp heq]
      exact hi
    · exact hindex j hold

/-- Making room: entries may go, none changes, and a positive answer is about what is left. -/
theorem Bounded.ensure (h : t.Bounded) (incoming : Nat) (new : Bool) :
    Bounded (t.ensureReassemblyCapacity incoming new).2 ∧
      (∀ j, (t.ensureReassemblyCapacity incoming new).2.entry j = t.entry j ∨
        (t.ensureReassemblyCapacity incoming new).2.entry j = none) ∧
      ((t.ensureReassemblyCapacity incoming new).1 = true →
        (new = true → (t.ensureReassemblyCapacity incoming new).2.reassembly.entries.size <
          RAW_UDP_MAX_ACTIVE_MESSAGES) ∧
        (t.ensureReassemblyCapacity incoming new).2.reassembly.bytes + incoming ≤
        RAW_UDP_MAX_REASSEMBLY_BYTES) := by
  refine ⟨Table.Sound.ensure h incoming new,
    fun j => Table.get_ensure limits t.reassembly incoming new j, ?_⟩
  intro hok
  have hroom : (t.ensureReassemblyCapacity incoming new).2.reassembly.overfull limits incoming new =
      false :=
    Table.room_of_ensure hok
  unfold Table.overfull at hroom
  obtain ⟨hentries, hbytes⟩ := Bool.or_eq_false_iff.mp hroom
  refine ⟨?_, Nat.le_of_not_lt (of_decide_eq_false hbytes)⟩
  rintro rfl
  exact Nat.lt_of_not_le (of_decide_eq_false hentries)

/-- A fragment is added to its message, and the message leaves when it is complete. -/
theorem Bounded.withFragment (h : t.Bounded) {e : ReassemblyEntry} (he : t.entry f.msgId = some e)
    (hnew : f.fragIndex ∉ e.fragments) (hindex : f.fragIndex < e.fragTotal)
    (hbytes : t.reassembly.bytes + f.payload.length ≤ RAW_UDP_MAX_REASSEMBLY_BYTES) :
    Bounded ((t.setEntry f.msgId
      (e.withFragment f.fragIndex f.payload) f.payload.length).deliverIfComplete f.msgId).2 := by
  have hpart := h.each f.msgId e he
  have hadd : ReassemblyEntry.shape.size (e.withFragment f.fragIndex f.payload) =
      ((t.reassembly.entries[f.msgId]?).map ReassemblyEntry.shape.size).getD 0 +
      f.payload.length := by
    rw [size_withFragment hnew, show t.reassembly.entries[f.msgId]? = some e from he]
    rfl
  have hmem : f.msgId ∈ t.reassembly.entries :=
    Std.ExtTreeMap.mem_iff_isSome_getElem?.mpr (Option.isSome_iff_exists.mpr ⟨e, he⟩)
  unfold deliverIfComplete
  rw [entry_setEntry, if_pos rfl]
  dsimp only
  split
  · rename_i hmissing
    exact Table.Sound.insert h hadd
      (withFragment_incomplete hpart.counted hpart.index hnew hindex hmissing) (.inl hmem) hbytes
  · split
    · exact Table.Sound.insert_remove h hadd
    · exact Table.Sound.insert_remove h hadd

theorem Bounded.storeFragment (h : t.Bounded) {e : ReassemblyEntry} (he : t.entry f.msgId = some e)
    (hindex : f.fragIndex < e.fragTotal) : Bounded (t.storeFragment f).2 := by
  have hpart := h.each f.msgId e he
  by_cases hnew : f.fragIndex ∈ e.fragments
  · -- nothing to store, and the message waits for other fragments
    unfold CliRawUdpTunnel.storeFragment deliverIfComplete
    rw [he]
    dsimp only
    rw [if_pos hnew, if_pos hpart.some_missing]
    exact h
  · obtain ⟨hroomy, hkept, hroom⟩ := h.ensure f.payload.length false
    unfold CliRawUdpTunnel.storeFragment
    rw [he]
    dsimp only
    rw [if_neg hnew]
    generalize t.ensureReassemblyCapacity f.payload.length false = room at hroomy hkept hroom ⊢
    obtain ⟨ok, t₁⟩ := room
    dsimp only at hroomy hkept hroom ⊢
    split
    · exact hroomy
    · rename_i hok
      split
      · exact hroomy
      · rename_i e₁ he₁
        -- the entry is still the one that was found
        have hsame : e₁ = e := by
          rcases hkept f.msgId with hj | hj
          · rw [he₁, he] at hj
            exact Option.some.inj hj
          · rw [he₁] at hj
            cases hj
        subst hsame
        exact hroomy.withFragment he₁ hnew hindex (hroom (not_not.mp hok)).2

/-- A new message: after room was made for it, nothing has to go for its first fragment. -/
theorem reassemble_new {now : Nat} (hnone : t.entry f.msgId = none) {t₁ : CliRawUdpTunnel}
    (hroom : t.ensureReassemblyCapacity f.payload.length true = (true, t₁))
    (hagain : t₁.ensureReassemblyCapacity f.payload.length true = (true, t₁))
    (hnone₁ : t₁.entry f.msgId = none) :
    t.reassemble now f = t₁.reassemble now f := by
  unfold reassemble
  rw [hnone, hnone₁]
  dsimp only
  rw [hroom, hagain]

theorem setEntry_setEntry (t : CliRawUdpTunnel) (m : Nat) (e e' : ReassemblyEntry)
    (added added' : Nat) :
    (t.setEntry m e added).setEntry m e' added' = t.setEntry m e' (added + added') := by
  have hentries : (t.reassembly.entries.insert m e).insert m e' =
      t.reassembly.entries.insert m e' := by
    apply Std.ExtTreeMap.ext_getElem?
    intro k
    rw [Std.ExtTreeMap.getElem?_insert, Std.ExtTreeMap.getElem?_insert,
      Std.ExtTreeMap.getElem?_insert]
    split
    · rfl
    · rfl
  unfold setEntry
  rw [hentries, Nat.add_assoc]

theorem Bounded.reassemble (h : t.Bounded) (now : Nat) (htotal : 2 ≤ f.fragTotal)
    (hindex : f.fragIndex < f.fragTotal) :
    Bounded (t.reassemble now f).2 := by
  rcases he : t.entry f.msgId with _ | e
  · obtain ⟨hroomy, hkept, hroom⟩ := h.ensure f.payload.length true
    rcases hensure : t.ensureReassemblyCapacity f.payload.length true with ⟨ok, t₁⟩
    rw [hensure] at hroomy hkept hroom
    dsimp only at hroomy hkept hroom
    cases ok with
    | false =>
      unfold CliRawUdpTunnel.reassemble
      rw [he]
      dsimp only
      rw [hensure]
      exact hroomy
    | true =>
      have hnone₁ : t₁.entry f.msgId = none := by
        rcases hkept f.msgId with hj | hj
        · rw [hj, he]
        · exact hj
      obtain ⟨hsize, hbytes⟩ := hroom rfl
      rw [reassemble_new he hensure (ensure_of_room hsize hbytes) hnone₁,
        reassemble_first hnone₁ htotal (hsize rfl) hbytes]
      rw [setEntry_setEntry, Nat.zero_add]
      have hempty : f.fragIndex ∉ (freshEntry now f).fragments := Std.ExtTreeMap.not_mem_empty
      refine Table.Sound.insert hroomy ?_ ?_ (.inr (hsize rfl)) hbytes
      · rw [size_withFragment hempty, size_freshEntry,
          show t₁.reassembly.entries[f.msgId]? = none from hnone₁]
        rfl
      · refine withFragment_incomplete ?_ ?_ hempty hindex ?_
        · exact Std.ExtTreeMap.size_empty.symm
        · intro j hj
          exact absurd hj Std.ExtTreeMap.not_mem_empty
        · exact htotal
  · unfold CliRawUdpTunnel.reassemble
    rw [he]
    dsimp only
    split
    · exact Table.Sound.remove h f.msgId
    · rename_i hmatch
      push Not at hmatch
      exact h.storeFragment he (by omega)

theorem readFragment_bounds {data : Bytes} (h : t.readFragment data = some f) :
    0 < f.fragTotal ∧ f.fragIndex < f.fragTotal := by
  unfold readFragment at h
  split at h
  · dsimp only at h
    rw [Option.ite_none_left_eq_some, Option.ite_none_left_eq_some,
      Option.ite_none_left_eq_some] at h
    obtain ⟨hheader, -, -, hf⟩ := h
    rw [← Option.some.inj hf]
    push Not at hheader
    exact ⟨Nat.pos_of_ne_zero hheader.2.1, hheader.2.2.1⟩
  · cases h

theorem Bounded.of_reassembly_eq {t' : CliRawUdpTunnel} (h : t.Bounded)
    (heq : t'.reassembly = t.reassembly) :
    t'.Bounded := by
  unfold Bounded at h ⊢
  rw [heq]
  exact h

theorem Bounded.rttMs (h : t.Bounded) (rttMs : Int) : Bounded { t with rttMs := rttMs } := h

theorem Bounded.processFrag (h : t.Bounded) (cm : Cm256) (now : Nat) (data : Bytes) :
    Bounded (t.processFrag cm now data).2 := by
  unfold CliRawUdpTunnel.processFrag
  split
  · exact h
  · rename_i f hf
    obtain ⟨hpos, hindex⟩ := readFragment_bounds hf
    split
    · exact h
    split
    · have hsent : OnlySends t (t.sendProbe cm now RAW_UDP_LATENCY_PONG f.payload.tail) :=
        (onlySends_sendFragment cm _ now _).after rfl rfl rfl
      exact h.of_reassembly_eq hsent.reassembly
    split
    · exact h.rttMs _
    split
    · exact h
    · rename_i hone
      exact h.reassemble now (by omega) hindex

/-! #### The subtractions -/

def deliverRemovals (t : CliRawUdpTunnel) (msgId : Nat) : List (Nat × Nat) :=
  match t.entry msgId with
  | none => []
  | some entry => if entry.receivedCount < entry.fragTotal then []
    else t.reassembly.removals ReassemblyEntry.shape msgId

def storeRemovals (t : CliRawUdpTunnel) (f : Fragment) : List (Nat × Nat) :=
  match t.entry f.msgId with
  | none => []
  | some entry =>
    if f.fragIndex ∈ entry.fragments then t.deliverRemovals f.msgId
    else
      let made := t.reassembly.ensureRemovals ReassemblyEntry.shape limits f.payload.length false
      let (ok, t) := t.ensureReassemblyCapacity f.payload.length false
      if ¬ ok then made
      else
        match t.entry f.msgId with
        | none => made
        | some entry =>
          made ++ (t.setEntry f.msgId
            (entry.withFragment f.fragIndex f.payload) f.payload.length).deliverRemovals f.msgId

def reassembleRemovals (t : CliRawUdpTunnel) (now : Nat) (f : Fragment) : List (Nat × Nat) :=
  match t.entry f.msgId with
  | some entry =>
    if entry.totalLen ≠ f.totalLen ∨ entry.fragTotal ≠ f.fragTotal then
      t.reassembly.removals ReassemblyEntry.shape f.msgId
    else t.storeRemovals f
  | none =>
    let made := t.reassembly.ensureRemovals ReassemblyEntry.shape limits f.payload.length true
    let (ok, t) := t.ensureReassemblyCapacity f.payload.length true
    if ¬ ok then made else made ++ (t.setEntry f.msgId (freshEntry now f) 0).storeRemovals f

/-- The subtractions from `m_reassemblyBytes` in a call of `processFrag`. -/
def processFragRemovals (t : CliRawUdpTunnel) (now : Nat) (data : Bytes) : List (Nat × Nat) :=
  match t.readFragment data with
  | none => []
  | some f => if f.fragTotal = 1 then [] else t.reassembleRemovals now f

theorem exact_deliverRemovals (h : Table.Accounted ReassemblyEntry.shape t.reassembly)
    (msgId : Nat) :
    Table.Exact (t.deliverRemovals msgId) := by
  unfold deliverRemovals
  split
  · exact Table.Exact.nil
  · split
    · exact Table.Exact.nil
    · exact h.exact_removals msgId

theorem exact_storeRemovals (h : Table.Accounted ReassemblyEntry.shape t.reassembly)
    (f : Fragment) :
    Table.Exact (t.storeRemovals f) := by
  unfold storeRemovals
  split
  · exact Table.Exact.nil
  · rename_i e he
    split
    · exact exact_deliverRemovals h f.msgId
    · rename_i hnew
      have hmade := h.exact_ensureRemovals limits f.payload.length false
      have hroomy :
          Table.Accounted ReassemblyEntry.shape
          (t.ensureReassemblyCapacity f.payload.length false).2.reassembly :=
        h.ensure limits f.payload.length false
      have hkept : (t.ensureReassemblyCapacity f.payload.length false).2.entry f.msgId =
        t.entry f.msgId ∨
          (t.ensureReassemblyCapacity f.payload.length false).2.entry f.msgId = none :=
        Table.get_ensure limits t.reassembly f.payload.length false f.msgId
      generalize t.ensureReassemblyCapacity f.payload.length false = room at hroomy hkept ⊢
      obtain ⟨ok, t₁⟩ := room
      dsimp only at hroomy hkept ⊢
      split
      · exact hmade
      split
      · exact hmade
      · rename_i e₁ he₁
        have hsame : e₁ = e := by
          rw [he₁, he] at hkept
          exact Option.some.inj (hkept.resolve_right nofun)
        refine hmade.append (exact_deliverRemovals (accounted_setEntry hroomy ?_) f.msgId)
        rw [hsame, size_withFragment hnew, he₁, hsame]
        rfl

theorem exact_reassembleRemovals (h : Table.Accounted ReassemblyEntry.shape t.reassembly)
    (now : Nat) (f : Fragment) :
    Table.Exact (t.reassembleRemovals now f) := by
  unfold reassembleRemovals
  split
  · split
    · exact h.exact_removals f.msgId
    · exact exact_storeRemovals h f
  · rename_i hnone
    have hmade := h.exact_ensureRemovals limits f.payload.length true
    have hroomy :
        Table.Accounted ReassemblyEntry.shape
        (t.ensureReassemblyCapacity f.payload.length true).2.reassembly :=
      h.ensure limits f.payload.length true
    have hkept : (t.ensureReassemblyCapacity f.payload.length true).2.entry f.msgId =
      t.entry f.msgId ∨
        (t.ensureReassemblyCapacity f.payload.length true).2.entry f.msgId = none :=
      Table.get_ensure limits t.reassembly f.payload.length true f.msgId
    generalize t.ensureReassemblyCapacity f.payload.length true = room at hroomy hkept ⊢
    obtain ⟨ok, t₁⟩ := room
    dsimp only at hroomy hkept ⊢
    have hnone₁ : t₁.entry f.msgId = none := by
      rw [hnone] at hkept
      exact hkept.elim id id
    split
    · exact hmade
    · refine hmade.append (exact_storeRemovals (accounted_setEntry hroomy ?_) f)
      rw [size_freshEntry, hnone₁]
      rfl

theorem exact_processFragRemovals (h : Table.Accounted ReassemblyEntry.shape t.reassembly)
    (now : Nat) (data : Bytes) :
    Table.Exact (t.processFragRemovals now data) := by
  unfold processFragRemovals
  split
  · exact Table.Exact.nil
  · split
    · exact Table.Exact.nil
    · exact exact_reassembleRemovals h now _

end CliRawUdpTunnel

/-! ### Groups of blocks -/

namespace CliFecDecoder

variable {d : CliFecDecoder}

def Bounded (d : CliFecDecoder) : Prop := Table.Sound FecGroup.shape limits (fun _ => True) d.table

theorem bytes_withBlock {g : FecGroup} {idx : Nat} (hnew : idx ∉ g.blocks) (block : Bytes)
    (emitted : Finset Nat) :
    FecGroup.shape.size
    { g with blocks := g.blocks.insert idx block, emittedOriginals := emitted } =
      FecGroup.shape.size g + block.length := by
  have hnone : g.blocks[idx]? = none := Std.ExtTreeMap.getElem?_eq_none hnew
  change total List.length (g.blocks.insert idx block) = total List.length g.blocks + block.length
  rw [total_insert, erase_of_none hnone, Nat.add_comm]

theorem bytes_freshGroup (now dataCount totalCount blockBytes : Nat) :
    FecGroup.shape.size (freshGroup now dataCount totalCount blockBytes) = 0 := by
  change total List.length (∅ : Std.ExtTreeMap Nat Bytes) = 0
  exact total_empty _

theorem Bounded.ensure (h : d.Bounded) (incoming : Nat) (new : Bool) :
    Bounded (d.ensureCapacity incoming new).2 ∧
      ((d.ensureCapacity incoming new).1 = true →
        (new = true → (d.ensureCapacity incoming new).2.table.entries.size <
          FEC_MAX_ACTIVE_GROUPS) ∧
        (d.ensureCapacity incoming new).2.table.bytes + incoming ≤ FEC_MAX_BUFFERED_BYTES) := by
  refine ⟨Table.Sound.ensure h incoming new, ?_⟩
  intro hok
  have hroom : (d.ensureCapacity incoming new).2.table.overfull limits incoming new = false :=
    Table.room_of_ensure hok
  unfold Table.overfull at hroom
  obtain ⟨hentries, hbytes⟩ := Bool.or_eq_false_iff.mp hroom
  refine ⟨?_, Nat.le_of_not_lt (of_decide_eq_false hbytes)⟩
  rintro rfl
  exact Nat.lt_of_not_le (of_decide_eq_false hentries)

theorem mem_of_group {gid : Nat} {g : FecGroup} (h : d.group gid = some g) :
    gid ∈ d.table.entries :=
  Std.ExtTreeMap.mem_iff_isSome_getElem?.mpr (Option.isSome_iff_exists.mpr ⟨g, h⟩)

theorem Bounded.decodeIfReady (h : d.Bounded) (cm : Cm256) (gid : Nat) :
    Bounded (d.decodeIfReady cm gid).2 := by
  unfold CliFecDecoder.decodeIfReady
  split
  · exact h
  · rename_i g hg
    split
    · unfold tryDecode
      rw [hg]
      refine Table.Sound.insert h ?_ trivial (.inl (mem_of_group hg)) h.bytes
      change total List.length (decodeGroup cm g).2.blocks = _
      rw [decodeGroup_blocks, show d.table.entries[gid]? = some g from hg]
      rfl
    · exact h

theorem Bounded.storeBlock (h : d.Bounded) (cm : Cm256) (gid idx dataCount : Nat) (block : Bytes) :
    Bounded (d.storeBlock cm gid idx dataCount block).2 := by
  unfold CliFecDecoder.storeBlock
  split
  · exact h
  · rename_i g hg
    split
    · exact h
    split
    · exact h.decodeIfReady cm gid
    · rename_i hnew
      obtain ⟨hroomy, hroom⟩ := h.ensure block.length false
      have hkept := group_ensureCapacity (d := d) block.length false gid
      generalize d.ensureCapacity block.length false = room at hroomy hkept hroom ⊢
      obtain ⟨ok, d₁⟩ := room
      dsimp only at hroomy hkept hroom ⊢
      split
      · exact hroomy
      · rename_i hok
        split
        · exact hroomy
        · rename_i g₁ hg₁
          have hsame : g₁ = g := by
            rw [hg₁, hg] at hkept
            exact Option.some.inj (hkept.resolve_right nofun)
          refine Bounded.decodeIfReady ?_ cm gid
          refine Table.Sound.insert hroomy ?_ trivial (.inl (mem_of_group hg₁))
            (hroom (not_not.mp hok)).2
          rw [hsame, bytes_withBlock hnew, show d₁.table.entries[gid]? = some g₁ from hg₁, hsame]
          rfl

theorem Bounded.addPacket (h : d.Bounded) (cm : Cm256) (now : Nat) (data : Bytes) :
    Bounded (d.addPacket cm now data).2 := by
  unfold CliFecDecoder.addPacket
  split
  · rename_i gid idx n total block
    dsimp only
    split
    · exact h
    split
    · exact h
    split
    · split
      · exact Table.Sound.remove h gid.toNat
      · exact h.storeBlock cm _ _ _ _
    · rename_i hnone
      obtain ⟨hroomy, hroom⟩ := h.ensure block.length true
      have hkept := group_ensureCapacity (d := d) block.length true gid.toNat
      generalize d.ensureCapacity block.length true = room at hroomy hkept hroom ⊢
      obtain ⟨ok, d₁⟩ := room
      dsimp only at hroomy hkept hroom ⊢
      split
      · exact hroomy
      · rename_i hok
        obtain ⟨hsize, hbytes⟩ := hroom (not_not.mp hok)
        refine Bounded.storeBlock ?_ cm _ _ _ _
        refine Table.Sound.insert hroomy ?_ trivial (.inr (hsize rfl)) hroomy.bytes
        have hnone₁ : d₁.group gid.toNat = none := by
          rw [hnone] at hkept
          exact hkept.elim id id
        rw [show d₁.table.entries[gid.toNat]? = none from hnone₁]
        exact bytes_freshGroup now n.toNat total.toNat block.length
  · exact h

/-! #### The subtractions -/

def storeRemovals (d : CliFecDecoder) (groupId idx : Nat) (block : Bytes) : List (Nat × Nat) :=
  match d.group groupId with
  | none => []
  | some g =>
    if g.decoded ∨ idx ∈ g.blocks then []
    else d.table.ensureRemovals FecGroup.shape limits block.length false

/-- The subtractions from `m_bufferedBytes` in a call of `addPacket`. -/
def addPacketRemovals (d : CliFecDecoder) (now : Nat) (data : Bytes) : List (Nat × Nat) :=
  match data with
  | gid :: idx :: n :: total :: block =>
    let (groupId, idx, dataCount, totalCount) := (gid.toNat, idx.toNat, n.toNat, total.toNat)
    if dataCount < 1 ∨ 10 < dataCount ∨ totalCount < dataCount ∨ 3 * dataCount < totalCount ∨
      totalCount ≤ idx then []
    else if block = [] then []
    else
      match d.group groupId with
      | some g =>
        if g.dataCount ≠ dataCount ∨ g.totalCount ≠ totalCount ∨ g.blockBytes ≠ block.length then
          d.table.removals FecGroup.shape groupId
        else d.storeRemovals groupId idx block
      | none =>
        let made := d.table.ensureRemovals FecGroup.shape limits block.length true
        let (ok, d) := d.ensureCapacity block.length true
        if ¬ ok then made
        else made ++ (d.setGroup groupId (freshGroup now dataCount totalCount block.length)
          0).storeRemovals groupId idx block
  | _ => []

theorem exact_storeRemovals (h : Table.Accounted FecGroup.shape d.table) (gid idx : Nat)
    (block : Bytes) :
    Table.Exact (d.storeRemovals gid idx block) := by
  unfold storeRemovals
  split
  · exact Table.Exact.nil
  split
  · exact Table.Exact.nil
  · exact h.exact_ensureRemovals limits block.length false

theorem exact_addPacketRemovals (h : Table.Accounted FecGroup.shape d.table) (now : Nat)
    (data : Bytes) :
    Table.Exact (d.addPacketRemovals now data) := by
  unfold addPacketRemovals
  split
  · rename_i gid idx n total block
    dsimp only
    split
    · exact Table.Exact.nil
    split
    · exact Table.Exact.nil
    split
    · split
      · exact h.exact_removals gid.toNat
      · exact exact_storeRemovals h _ _ _
    · rename_i hnone
      have hmade := h.exact_ensureRemovals limits block.length true
      have hroomy : Table.Accounted FecGroup.shape (d.ensureCapacity block.length true).2.table :=
        h.ensure limits block.length true
      have hkept := group_ensureCapacity (d := d) block.length true gid.toNat
      generalize d.ensureCapacity block.length true = room at hroomy hkept ⊢
      obtain ⟨ok, d₁⟩ := room
      dsimp only at hroomy hkept ⊢
      have hnone₁ : d₁.group gid.toNat = none := by
        rw [hnone] at hkept
        exact hkept.elim id id
      split
      · exact hmade
      · refine hmade.append (exact_storeRemovals (Table.Accounted.insert hroomy rfl ?_) _ _ _)
        rw [bytes_freshGroup, show d₁.table.entries[gid.toNat]? = none from hnone₁]
        rfl
  · exact Table.Exact.nil

end CliFecDecoder

/-! ### Hostile traffic -/

namespace CliRawUdpTunnel

/-- What reaches the table of messages.  Each call has its own reading of the clock. -/
inductive Traffic where
  | frag (now : Nat) (data : Bytes)
  | cleanup (now : Nat)
  | relay (srcPeerId dstPeerId : Nat)

variable (cm : Cm256)

def receive (t : CliRawUdpTunnel) : Traffic → CliRawUdpTunnel
  | .frag now data => (t.processFrag cm now data).2
  | .cleanup now => t.cleanupStaleEntries now
  | .relay srcPeerId dstPeerId => t.setRelayMode srcPeerId dstPeerId

def receiveAll (t : CliRawUdpTunnel) (es : List Traffic) : CliRawUdpTunnel :=
  es.foldl (receive cm) t

def trafficRemovals (t : CliRawUdpTunnel) : Traffic → List (Nat × Nat)
  | .frag now data => t.processFragRemovals now data
  | .cleanup now => t.reassembly.expireRemovals ReassemblyEntry.shape fun entry =>
      decide (RAW_UDP_FRAG_TIMEOUT_MS < elapsedMs now entry.createTime)
  | .relay _ _ => []

def allRemovals (t : CliRawUdpTunnel) : List Traffic → List (Nat × Nat)
  | [] => []
  | e :: es => t.trafficRemovals e ++ allRemovals (t.receive cm e) es

variable {cm} {t : CliRawUdpTunnel}

theorem Bounded.cleanup (h : t.Bounded) (now : Nat) : Bounded (t.cleanupStaleEntries now) :=
  Table.Sound.expire h fun entry =>
    decide (RAW_UDP_FRAG_TIMEOUT_MS < elapsedMs now entry.createTime)

theorem Bounded.receive (h : t.Bounded) (e : Traffic) : Bounded (t.receive cm e) := by
  cases e with
  | frag now data => exact h.processFrag cm now data
  | cleanup now => exact h.cleanup now
  | relay srcPeerId dstPeerId => exact h

theorem Bounded.receiveAll (h : t.Bounded) (es : List Traffic) : Bounded (t.receiveAll cm es) := by
  induction es generalizing t with
  | nil => exact h
  | cons e es ih => exact ih (h.receive e)

theorem Bounded.exact_allRemovals (h : t.Bounded) (es : List Traffic) :
    Table.Exact (t.allRemovals cm es) := by
  induction es generalizing t with
  | nil => exact Table.Exact.nil
  | cons e es ih =>
    refine Table.Exact.append ?_ (ih (h.receive e))
    cases e with
    | frag now data => exact exact_processFragRemovals h.accounted now data
    | cleanup now =>
      unfold trafficRemovals
      exact h.accounted.exact_expireRemovals _
    | relay srcPeerId dstPeerId => exact Table.Exact.nil

end CliRawUdpTunnel

namespace CliFecDecoder

variable (cm : Cm256)

def eventRemovals (d : CliFecDecoder) : Event → List (Nat × Nat)
  | .packet now data => d.addPacketRemovals now data
  | .cleanup now => d.table.expireRemovals FecGroup.shape fun g =>
    decide (GROUP_TIMEOUT_MS < elapsedMs now g.createTime)

def allRemovals (d : CliFecDecoder) : List Event → List (Nat × Nat)
  | [] => []
  | e :: es => d.eventRemovals e ++ allRemovals (d.step cm e).2 es

variable {cm} {d : CliFecDecoder}

theorem Bounded.cleanup (h : d.Bounded) (now : Nat) : Bounded (d.cleanup now) :=
  Table.Sound.expire h fun g => decide (GROUP_TIMEOUT_MS < elapsedMs now g.createTime)

theorem Bounded.step (h : d.Bounded) (e : Event) : Bounded (d.step cm e).2 := by
  cases e with
  | packet now data => exact h.addPacket cm now data
  | cleanup now => exact h.cleanup now

theorem Bounded.run (h : d.Bounded) (es : List Event) : Bounded (d.run cm es).2 := by
  induction es generalizing d with
  | nil => exact h
  | cons e es ih => exact ih (h.step e)

theorem Bounded.exact_allRemovals (h : d.Bounded) (es : List Event) :
    Table.Exact (d.allRemovals cm es) := by
  induction es generalizing d with
  | nil => exact Table.Exact.nil
  | cons e es ih =>
    refine Table.Exact.append ?_ (ih (h.step e))
    cases e with
    | packet now data => exact exact_addPacketRemovals h.accounted now data
    | cleanup now =>
      unfold eventRemovals
      exact h.accounted.exact_expireRemovals _

end CliFecDecoder

/-- The loop that makes room has ended: it found room, or nothing is left. -/
def Evicted {α : Type} (sh : Shape α) (lim : Limits) (incoming : Nat) (new : Bool)
    (t : Table Nat α) : Prop :=
  (t.evict sh lim incoming new t.entries.size).overfull lim incoming new = false ∨
    (t.evict sh lim incoming new t.entries.size).entries = ∅

open CliRawUdpTunnel in
/-- **The receive state is bounded.**  For any traffic and any clock: the table of
    messages has at most 64 entries of at most 128 KiB together, the number it
    keeps of its bytes is their number, and every entry has at least one and not
    all of its fragments; the table of groups has at most 32 of at most 256 KiB.
    From any table the loops that make room end, and no subtraction from either
    number goes below zero. -/
theorem bounded_receive_state (cm : Cm256) (fecMode : FecMode) (mtu trafficClass : Nat)
    (secureFrames : Bool) (now : Nat)
    (traffic : List Traffic) (packets : List CliFecDecoder.Event) :
    let t := (create fecMode mtu trafficClass secureFrames now).receiveAll cm traffic
    let d := (({} : CliFecDecoder).run cm packets).2
    (t.reassembly.entries.size ≤ 64 ∧
      t.reassembly.bytes = total (fun entry : ReassemblyEntry => total List.length entry.fragments)
      t.reassembly.entries ∧
      t.reassembly.bytes ≤ 128 * 1024 ∧
      ∀ (msgId : Nat) (entry : ReassemblyEntry), t.reassembly.entries[msgId]? = some entry →
        entry.receivedCount = entry.fragments.size ∧ 0 < entry.receivedCount ∧
        entry.receivedCount < entry.fragTotal ∧
          ∀ i ∈ entry.fragments, i < entry.fragTotal) ∧
    (d.table.entries.size ≤ 32 ∧
      d.table.bytes = total (fun g : FecGroup => total List.length g.blocks) d.table.entries ∧
      d.table.bytes ≤ 256 * 1024) ∧
    (∀ incoming new,
      (∀ table, Evicted ReassemblyEntry.shape limits incoming new table) ∧
      ∀ table, Evicted FecGroup.shape CliFecDecoder.limits incoming new table) ∧
    Table.Exact ((create fecMode mtu trafficClass secureFrames now).allRemovals cm traffic) ∧
    Table.Exact (({} : CliFecDecoder).allRemovals cm packets) := by
  intro t d
  have hempty : Bounded (create fecMode mtu trafficClass secureFrames now) :=
    Table.Sound.empty _ _ _
  have hnone : CliFecDecoder.Bounded {} := Table.Sound.empty _ _ _
  have ht : t.Bounded := hempty.receiveAll traffic
  have hd : d.Bounded := hnone.run packets
  refine ⟨⟨ht.entries, ht.accounted, ht.bytes, ?_⟩, ⟨hd.entries, hd.accounted, hd.bytes⟩, ?_,
    hempty.exact_allRemovals traffic, hnone.exact_allRemovals packets⟩
  · intro msgId entry hentry
    have hpart := ht.each msgId entry hentry
    exact ⟨hpart.counted, hpart.some_there, hpart.some_missing, hpart.index⟩
  · intro incoming new
    constructor
    · intro table
      exact Table.evict_stops limits incoming new table.entries.size table (Nat.le_refl _)
    · intro table
      exact Table.evict_stops CliFecDecoder.limits incoming new table.entries.size table
        (Nat.le_refl _)

end VlanConnect

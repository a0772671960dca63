/-
  VlanConnect/Client/FecGroups.lean
  =================================
  **What the encoder sends.**

  The calls of an encoder cut the payloads into groups.  `FecCode` is what a
  receiver may rely on of the packets of one group: their headers agree, their
  blocks have one size, the first ones hold the payloads, and any as many of
  them as there are payloads give all of them back.
-/
import VlanConnect.Client.Fec

namespace VlanConnect

open ByteBuffer

/-- A systematic code in which any `n` of the blocks determine the originals. -/
structure Cm256.Mds (cm : Cm256) : Prop where
  recovery : ∀ n m blockBytes originals recovery,
    cm.encode n m blockBytes originals = some recovery →
    originals.length = n → (∀ b ∈ originals, b.length = blockBytes) →
    recovery.length = m ∧ ∀ b ∈ recovery, b.length = blockBytes
  decode : ∀ n m blockBytes originals recovery, cm.encode n m blockBytes originals = some recovery →
    originals.length = n → (∀ b ∈ originals, b.length = blockBytes) →
    ∀ blocks : List (Nat × Bytes), blocks.length = n → (blocks.map Prod.fst).Nodup →
      (∀ b ∈ blocks, (originals ++ recovery)[b.1]? = some b.2) →
      ∃ blocks', cm.decode n m blockBytes blocks = some blocks' ∧
        ∀ i < n, CliFecDecoder.findOriginal blocks' i = originals[i]?

/-! ### The packets of one group -/

/-- The packets that carry these blocks. -/
def fecPackets (gid n : Nat) (blocks : List Bytes) : List Bytes :=
  blocks.zipIdx.map fun (block, i) => fecHeader gid i n blocks.length ++ block

structure FecCode (cm : Cm256) (gid blockBytes : Nat) (payloads blocks : List Bytes) : Prop where
  gid : gid < 256
  count : 1 ≤ payloads.length ∧ payloads.length ≤ 10
  total : payloads.length ≤ blocks.length ∧ blocks.length ≤ 3 * payloads.length
  fits : ∀ p ∈ payloads, p ≠ [] ∧ p.length < 65536 ∧ 2 + p.length ≤ blockBytes
  small : blockBytes ≤ 65537
  length : ∀ b ∈ blocks, b.length = blockBytes
  originals : blocks.take payloads.length = payloads.map (CliFecEncoder.padded blockBytes)
  decode : ∀ chosen : List (Nat × Bytes), payloads.length < blocks.length →
    chosen.length = payloads.length →
    (chosen.map Prod.fst).Nodup → (∀ c ∈ chosen, blocks[c.1]? = some c.2) →
    ∃ out, cm.decode payloads.length (blocks.length - payloads.length) blockBytes chosen =
    some out ∧
      ∀ i < payloads.length, CliFecDecoder.findOriginal out i = blocks[i]?

namespace CliFecEncoder

variable {cm : Cm256} {e : CliFecEncoder}

theorem length_padded {blockBytes : Nat} {p : Bytes} (h : 2 + p.length ≤ blockBytes) :
    (padded blockBytes p).length = blockBytes := by
  simp only [padded, List.length_append, List.length_replicate, length_writeU16]
  omega

theorem fecParityCount_le (mode : FecMode) {n : Nat} (h : 1 ≤ n) :
    fecParityCount mode n ≤ 2 * n := by
  cases mode <;> simp only [fecParityCount] <;> omega

/-- The blocks that are sent: the originals, and the parity blocks if the library gave them. -/
def sentBlocks (cm : Cm256) (e : CliFecEncoder) : List Bytes :=
  let parity := fecParityCount e.mode e.buffer.length
  let parity := if parity = 0 then 1 else parity
  let originals := e.buffer.map (padded (2 + e.maxBlockSize))
  originals ++ (cm.encode e.buffer.length parity (2 + e.maxBlockSize) originals).getD []

/-- What holds of the payloads an encoder waits with, when every payload is nonempty and short. -/
structure Sound (e : CliFecEncoder) : Prop where
  groupId : e.groupId < 256
  payload : ∀ p ∈ e.buffer, p ≠ [] ∧ p.length < 65536 ∧ p.length ≤ e.maxBlockSize
  max : e.maxBlockSize < 65536

theorem flush_fst (hmds : cm.Mds) (h : e.Sound) (hne : e.buffer ≠ []) :
    (e.flush cm).1 = fecPackets e.groupId e.buffer.length (sentBlocks cm e) := by
  have hlength : ∀ b ∈ e.buffer.map (padded (2 + e.maxBlockSize)),
      b.length = 2 + e.maxBlockSize := by
    intro b hb
    obtain ⟨p, hp, rfl⟩ := List.mem_map.mp hb
    have hmax := (h.payload p hp).2.2
    exact length_padded (by omega)
  unfold flush sentBlocks
  rw [if_neg hne]
  dsimp only
  generalize (if fecParityCount e.mode e.buffer.length = 0 then 1
    else fecParityCount e.mode e.buffer.length) = parity
  cases hencode : cm.encode e.buffer.length parity (2 + e.maxBlockSize)
    (e.buffer.map (padded (2 + e.maxBlockSize))) with
  | none =>
    dsimp only
    simp [fecPackets]
  | some recovery =>
    have hcount := (hmds.recovery _ _ _ _ _ hencode (List.length_map _) hlength).1
    dsimp only
    simp only [fecPackets, Option.isSome_some, if_true, Option.getD_some, List.zipIdx_append,
      List.map_append, List.length_append, List.length_map, hcount]
    congr 1
    have hshift : recovery.zipIdx (0 + e.buffer.length) =
        recovery.zipIdx.map (Prod.map id fun i => i + e.buffer.length) := by
      rw [List.map_snd_add_zipIdx_eq_zipIdx, Nat.add_comm]
    rw [hshift, List.map_map]
    refine List.map_congr_left fun b _ => ?_
    rw [Nat.add_comm e.buffer.length]
    rfl

theorem fecCode_of_flush (hmds : cm.Mds) (h : e.Sound) (hne : e.buffer ≠ [])
    (hcount : e.buffer.length ≤ 10) :
    FecCode cm e.groupId (2 + e.maxBlockSize) e.buffer (sentBlocks cm e) := by
  have hpos : 1 ≤ e.buffer.length := List.length_pos_iff.mpr hne
  have hlength : ∀ b ∈ e.buffer.map (padded (2 + e.maxBlockSize)),
      b.length = 2 + e.maxBlockSize := by
    intro b hb
    obtain ⟨p, hp, rfl⟩ := List.mem_map.mp hb
    have hmax := (h.payload p hp).2.2
    exact length_padded (by omega)
  have hparity : (if fecParityCount e.mode e.buffer.length = 0 then 1
    else fecParityCount e.mode e.buffer.length) ≤
      2 * e.buffer.length := by
    have hle := fecParityCount_le e.mode hpos
    split <;> omega
  have hfits : ∀ p ∈ e.buffer, p ≠ [] ∧ p.length < 65536 ∧ 2 + p.length ≤ 2 + e.maxBlockSize := by
    intro p hp
    obtain ⟨hp₁, hp₂, hp₃⟩ := h.payload p hp
    exact ⟨hp₁, hp₂, by omega⟩
  have hmax := h.max
  unfold sentBlocks
  dsimp only
  generalize (if fecParityCount e.mode e.buffer.length = 0 then 1
    else fecParityCount e.mode e.buffer.length) = parity
    at hparity ⊢
  cases hencode : cm.encode e.buffer.length parity (2 + e.maxBlockSize)
    (e.buffer.map (padded (2 + e.maxBlockSize))) with
  | none =>
    rw [Option.getD_none, List.append_nil]
    refine ⟨h.groupId, ⟨hpos, hcount⟩, ?_, hfits, by omega, hlength, ?_, ?_⟩
    · rw [List.length_map]
      omega
    · exact List.take_of_length_le (by rw [List.length_map])
    · intro chosen hlt
      rw [List.length_map] at hlt
      exact absurd hlt (Nat.lt_irrefl _)
  | some recovery =>
    obtain ⟨hrecovery, hsizes⟩ := hmds.recovery _ _ _ _ _ hencode (List.length_map _) hlength
    rw [Option.getD_some]
    have htotal : (e.buffer.map (padded (2 + e.maxBlockSize)) ++ recovery).length =
        e.buffer.length + parity := by
      rw [List.length_append, List.length_map, hrecovery]
    refine ⟨h.groupId, ⟨hpos, hcount⟩, ?_, hfits, by omega, ?_, ?_, ?_⟩
    · rw [htotal]
      omega
    · intro b hb
      rcases List.mem_append.mp hb with hb | hb
      · exact hlength b hb
      · exact hsizes b hb
    · exact List.take_left' (List.length_map _)
    · intro chosen _ hchosen hnodup hblocks
      obtain ⟨out, hdecode, hout⟩ :=
        hmds.decode _ _ _ _ _ hencode (List.length_map _) hlength chosen hchosen hnodup hblocks
      refine ⟨out, ?_, fun i hi => ?_⟩
      · rw [htotal, Nat.add_sub_cancel_left]
        exact hdecode
      · rw [hout i hi, List.getElem?_append_left (by rwa [List.length_map])]

/-! ### Calls -/

inductive Call where
  | addPacket (payload : Bytes)
  | update

def step (cm : Cm256) (e : CliFecEncoder) : Call → List Bytes × CliFecEncoder
  | .addPacket payload => e.addPacket cm payload
  | .update => e.update cm

/-- The payload that a call brings. -/
def Call.payload : Call → List Bytes
  | .addPacket payload => [payload]
  | .update => []

/-- The packets of one group, and the payloads that were put into it. -/
structure Emission where
  payloads : List Bytes
  packets : List Bytes

/-- The groups that the calls emit, and the encoder afterwards. -/
def run (cm : Cm256) (e : CliFecEncoder) : List Call → List Emission × CliFecEncoder
  | [] => ([], e)
  | c :: cs =>
    let (packets, e') := e.step cm c
    let (emissions, e'') := run cm e' cs
    (if packets = [] then emissions else ⟨e.buffer ++ c.payload, packets⟩ :: emissions, e'')

/-- The encoder with the payload of the call in its buffer. -/
def collect (e : CliFecEncoder) (c : Call) : CliFecEncoder :=
  match c with
  | .addPacket payload => { e with
      buffer := e.buffer ++ [payload]
      maxBlockSize := if e.maxBlockSize < payload.length then payload.length else e.maxBlockSize }
  | .update => e

/-- A call collects its payload; then it flushes all there is, or nothing. -/
theorem step_cases (cm : Cm256) (e : CliFecEncoder) (c : Call) :
    (e.step cm c = ([], e.collect c) ∧
      (e.buffer.length < FEC_GROUP_SIZE → (e.collect c).buffer.length < FEC_GROUP_SIZE)) ∨
      (e.step cm c = (e.collect c).flush cm ∧ (e.collect c).buffer ≠ []) := by
  cases c with
  | addPacket payload =>
    unfold step addPacket
    dsimp only
    split
    · exact Or.inr ⟨rfl, by simp [collect]⟩
    · next hlt => exact Or.inl ⟨rfl, fun _ => not_le.mp hlt⟩
  | update =>
    unfold step update
    dsimp only
    split
    · exact Or.inl ⟨rfl, id⟩
    · next hne => exact Or.inr ⟨rfl, hne⟩

theorem buffer_collect (e : CliFecEncoder) (c : Call) :
    (e.collect c).buffer = e.buffer ++ c.payload := by
  cases c with
  | addPacket payload => rfl
  | update => exact (List.append_nil _).symm

theorem flush_snd (cm : Cm256) (hne : e.buffer ≠ []) :
    (e.flush cm).2 = { e with
      groupId := (e.groupId + 1) % 256, buffer := [], maxBlockSize := 0 } := by
  unfold flush
  rw [if_neg hne]

theorem Sound.collect (h : e.Sound) {c : Call} (hc : ∀ p ∈ c.payload, p ≠ [] ∧ p.length < 65536) :
    (e.collect c).Sound := by
  cases c with
  | addPacket payload =>
    obtain ⟨hpayload, hshort⟩ := hc payload (List.mem_singleton_self _)
    have hmax := h.max
    refine ⟨h.groupId, ?_, ?_⟩
    · intro p hp
      simp only [CliFecEncoder.collect, List.mem_append, List.mem_singleton] at hp ⊢
      rcases hp with hp | rfl
      · obtain ⟨hp₁, hp₂, hp₃⟩ := h.payload p hp
        refine ⟨hp₁, hp₂, ?_⟩
        split <;> omega
      · refine ⟨hpayload, hshort, ?_⟩
        split <;> omega
    · simp only [CliFecEncoder.collect]
      split <;> omega
  | update => exact h

theorem Sound.flush (cm : Cm256) (hne : e.buffer ≠ []) : (e.flush cm).2.Sound := by
  rw [flush_snd cm hne]
  exact ⟨Nat.mod_lt _ (by decide), nofun, Nat.zero_lt_succ _⟩

/-- Every group of a run is a code for its payloads, and the groups are the payloads in
    their order. -/
theorem run_emissions (hmds : cm.Mds) (h : e.Sound) (hsize : e.buffer.length < FEC_GROUP_SIZE)
    {calls : List Call} (hcalls : ∀ c ∈ calls, ∀ p ∈ c.payload, p ≠ [] ∧ p.length < 65536) :
    e.buffer ++ calls.flatMap Call.payload =
        ((e.run cm calls).1.flatMap Emission.payloads) ++ (e.run cm calls).2.buffer ∧
      ∀ em ∈ (e.run cm calls).1, ∃ gid blockBytes blocks,
        FecCode cm gid blockBytes em.payloads blocks ∧
        em.packets = fecPackets gid em.payloads.length blocks := by
  induction calls generalizing e with
  | nil => exact ⟨by simp [run], nofun⟩
  | cons c calls ih =>
    have hcollect := h.collect (hcalls c List.mem_cons_self)
    have hrest : ∀ c' ∈ calls, ∀ p ∈ c'.payload, p ≠ [] ∧ p.length < 65536 :=
      fun c' hc' => hcalls c' (List.mem_cons_of_mem _ hc')
    have hsplit : e.buffer ++ (c :: calls).flatMap Call.payload = (e.collect c).buffer ++
        calls.flatMap Call.payload := by
      rw [List.flatMap_cons, ← List.append_assoc, buffer_collect]
    rw [hsplit]
    rcases step_cases cm e c with ⟨hstep, hlt⟩ | ⟨hstep, hne⟩
    · have hrun : e.run cm (c :: calls) = (e.collect c).run cm calls := by
        rw [run, hstep]
        rfl
      rw [hrun]
      exact ih hcollect (hlt hsize) hrest
    · have hle : (e.collect c).buffer.length ≤ 10 := by
        have hone : c.payload.length ≤ 1 := by cases c <;> simp [Call.payload]
        rw [buffer_collect, List.length_append]
        simp only [FEC_GROUP_SIZE] at hsize
        omega
      have hcode := fecCode_of_flush hmds hcollect hne hle
      have hpackets := flush_fst hmds hcollect hne
      have hnonempty : ((e.collect c).flush cm).1 ≠ [] := by
        rw [hpackets]
        intro hnil
        have hlen := congrArg List.length hnil
        simp only [fecPackets, List.length_map, List.length_zipIdx, List.length_nil] at hlen
        have := hcode.total.1
        have := hcode.count.1
        omega
      have hrun : e.run cm (c :: calls) =
          (⟨(e.collect c).buffer, ((e.collect c).flush cm).1⟩ ::
            (((e.collect c).flush cm).2.run cm calls).1,
            (((e.collect c).flush cm).2.run cm calls).2) := by
        rw [run, hstep, buffer_collect]
        dsimp only
        rw [if_neg hnonempty]
      have hempty : ((e.collect c).flush cm).2.buffer = [] := by rw [flush_snd cm hne]
      obtain ⟨hconcat, hgroups⟩ := ih (Sound.flush cm hne) (by rw [hempty]; decide) hrest
      rw [hempty, List.nil_append] at hconcat
      rw [hrun]
      refine ⟨?_, ?_⟩
      · rw [List.flatMap_cons, List.append_assoc, ← hconcat]
      · intro em hem
        rcases List.mem_cons.mp hem with rfl | hem
        · exact ⟨_, _, _, hcode, hpackets⟩
        · exact hgroups em hem

end CliFecEncoder

end VlanConnect

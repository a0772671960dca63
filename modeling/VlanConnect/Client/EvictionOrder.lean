/-
  VlanConnect/Client/EvictionOrder.lean
  =====================================
  **Which entry the receivers evict** (`client-cli/src/cli_peer.cpp`,
  `client-cli/src/cli_fec.cpp`, and their twins `raw_udp_tunnel.cpp` and
  `fec_codec.cpp` of the GUI).

  All ages in these files are differences modulo `2 ^ 32`, but the scan for the
  oldest entry compares the stored times as numbers.  It removes an entry of
  greatest age exactly when the clock did not wrap between the creation of two
  live entries; across a wrap it takes the oldest of the young ones.
-/
import VlanConnect.Lib.WrapClock
import VlanConnect.Client.RawUdp

namespace VlanConnect

open PieceTable Std

/-! ### The twins of the GUI -/

/-- The loop over the `QMap`, which is in the order of its keys like the `std::map`. -/
def RawUdpTunnel.ensureReassemblyCapacity (reassembly : Table Nat ReassemblyEntry)
    (incomingBytes : Nat) (newMessage : Bool) : Bool × Table Nat ReassemblyEntry :=
  reassembly.ensure ReassemblyEntry.shape CliRawUdpTunnel.limits incomingBytes newMessage

def FecDecoder.ensureCapacity (groups : Table Nat FecGroup) (incomingBytes : Nat)
    (newGroup : Bool) :
    Bool × Table Nat FecGroup :=
  groups.ensure FecGroup.shape CliFecDecoder.limits incomingBytes newGroup

/-! ### The scan and the ages -/

section Scan

variable {α : Type} {sh : Shape α} {t : Table Nat α} {now : Nat}

/-- The stored times are words of the clock. -/
def InRange (sh : Shape α) (t : Table Nat α) : Prop :=
  ∀ (j : Nat) (a : α), t.entries[j]? = some a → sh.time a < 2 ^ 32

/-- The clock did not wrap between the creation of two live entries. -/
def OneLap (sh : Shape α) (now : Nat) (t : Table Nat α) : Prop :=
  ∀ (i j : Nat) (a b : α), t.entries[i]? = some a → t.entries[j]? = some b →
    WrapClock.SameLap now (sh.time a) (sh.time b)

/-- One turn of the loop. -/
theorem oldestByAge_iff (hrange : InRange sh t) (hnow : now < 2 ^ 32) {k : Nat}
    (hk : t.oldest sh = some k) :
    Table.OldestByAge sh (elapsedMs now) t k ↔ OneLap sh now t := by
  obtain ⟨a, ha, hsmallest⟩ := Table.le_of_oldest hk
  constructor
  · rintro ⟨a', ha', hgreatest⟩
    obtain rfl : a' = a := Option.some.inj (ha'.symm.trans ha)
    have hlap : ∀ (j : Nat) (b : α), t.entries[j]? = some b →
        WrapClock.SameLap now (sh.time a') (sh.time b) := by
      intro j b hb
      apply (WrapClock.raw_order_iff (hsmallest j b hb) (hrange j b hb) hnow).mp
      exact hgreatest j b hb
    intro i j b c hb hc
    exact (hlap i b hb).symm.trans (hlap j c hc)
  · intro hlap
    refine ⟨a, ha, fun j b hb => ?_⟩
    exact WrapClock.age_le_age (hlap k j a b ha hb) (hsmallest j b hb) (hrange j b hb) hnow

/-- **All turns of a call.** -/
theorem steps_oldest_iff (lim : Limits) (incoming : Nat) (new : Bool) (hrange : InRange sh t)
    (hnow : now < 2 ^ 32) :
    (∀ step ∈ t.ensureSteps sh lim incoming new,
      Table.OldestByAge sh (elapsedMs now) step.1 step.2) ↔
      lim.maxBytes < incoming ∨ t.overfull lim incoming new = false ∨ OneLap sh now t := by
  constructor
  · intro h
    by_cases hbytes : lim.maxBytes < incoming
    · exact .inl hbytes
    · right
      by_cases hfull : t.overfull lim incoming new = true
      · right
        cases hk : t.oldest sh with
        | none =>
          intro i j a b ha _
          have hmem := ExtTreeMap.mem_toList_iff_getElem?_eq_some.mpr ha
          rw [Table.oldest_eq_none hk] at hmem
          cases hmem
        | some k =>
          -- the first turn sees the whole table
          have hfirst := h (t, k) (Table.first_evictStep hbytes hfull hk)
          exact (oldestByAge_iff hrange hnow hk).mp hfirst
      · exact .inl (by simpa using hfull)
  · intro h step hstep
    unfold Table.ensureSteps at hstep
    split at hstep
    · cases hstep
    · next hbytes =>
      have hlap : OneLap sh now t := by
        rcases h with h | h | h
        · exact absurd h hbytes
        · cases hsize : t.entries.size with
          | zero =>
            rw [hsize] at hstep
            cases hstep
          | succ fuel =>
            rw [hsize, Table.evictSteps] at hstep
            cases hk : t.oldest sh with
            | none =>
              rw [hk] at hstep
              cases hstep
            | some k =>
              rw [hk] at hstep
              simp [h] at hstep
        · exact h
      obtain ⟨hk, hpart⟩ := Table.of_mem_evictSteps hstep
      apply (oldestByAge_iff (fun j a ha => hrange j a (hpart j a ha)) hnow hk).mpr
      intro i j a b ha hb
      exact hlap i j a b (hpart i a ha) (hpart j b hb)

end Scan

/-- **When eviction removes the oldest entry.** For the tables of both receivers, any
current time and any call: every turn of the loop removes an entry of greatest age if and
only if the call removes nothing or no wrap of the clock lies between the creation of two
live entries. -/
theorem eviction_oldest_iff (now incoming : Nat) (new : Bool) (hnow : now < 2 ^ 32) :
    (∀ t : CliRawUdpTunnel, InRange ReassemblyEntry.shape t.reassembly →
      ((∀ step ∈ t.reassembly.ensureSteps ReassemblyEntry.shape CliRawUdpTunnel.limits incoming new,
          Table.OldestByAge ReassemblyEntry.shape (elapsedMs now) step.1 step.2) ↔
        RAW_UDP_MAX_REASSEMBLY_BYTES < incoming ∨
          t.reassembly.overfull CliRawUdpTunnel.limits incoming new = false ∨
          OneLap ReassemblyEntry.shape now t.reassembly)) ∧
    (∀ d : CliFecDecoder, InRange FecGroup.shape d.table →
      ((∀ step ∈ d.table.ensureSteps FecGroup.shape CliFecDecoder.limits incoming new,
          Table.OldestByAge FecGroup.shape (elapsedMs now) step.1 step.2) ↔
        FEC_MAX_BUFFERED_BYTES < incoming ∨
          d.table.overfull CliFecDecoder.limits incoming new = false ∨
          OneLap FecGroup.shape now d.table)) ∧
    (∀ t : CliRawUdpTunnel,
      (t.ensureReassemblyCapacity incoming new).2.reassembly =
        ((t.reassembly.ensureSteps ReassemblyEntry.shape CliRawUdpTunnel.limits incoming new).map
          Prod.snd).foldl
          (fun t k => t.remove ReassemblyEntry.shape k) t.reassembly ∧
      RawUdpTunnel.ensureReassemblyCapacity t.reassembly incoming new =
        ((t.ensureReassemblyCapacity incoming new).1,
          (t.ensureReassemblyCapacity incoming new).2.reassembly)) ∧
    ∀ d : CliFecDecoder,
      (d.ensureCapacity incoming new).2.table =
        ((d.table.ensureSteps FecGroup.shape CliFecDecoder.limits incoming new).map Prod.snd).foldl
          (fun t k => t.remove FecGroup.shape k) d.table ∧
      FecDecoder.ensureCapacity d.table incoming new =
        ((d.ensureCapacity incoming new).1, (d.ensureCapacity incoming new).2.table) := by
  refine ⟨?_, ?_, ?_, ?_⟩
  · intro t hrange
    exact steps_oldest_iff CliRawUdpTunnel.limits incoming new hrange hnow
  · intro d hrange
    exact steps_oldest_iff CliFecDecoder.limits incoming new hrange hnow
  · intro t
    exact ⟨Table.ensure_eq_foldl CliRawUdpTunnel.limits t.reassembly incoming new, rfl⟩
  · intro d
    exact ⟨Table.ensure_eq_foldl CliFecDecoder.limits d.table incoming new, rfl⟩

/-! ### A table across a wrap -/

/-- A table with one byte in each of its first keys. -/
def filled {α : Type} (make : Nat → α) : Nat → Table Nat α
  | 0 => {}
  | n + 1 =>
    { entries := (filled make n).entries.insert n (make n), bytes := (filled make n).bytes + 1 }

section Filled

variable {α : Type} {sh : Shape α} {make : Nat → α}

theorem get_filled (n j : Nat) :
    (filled make n).entries[j]? = if j < n then some (make j) else none := by
  induction n with
  | zero => simp [filled]
  | succ n ih =>
    rw [filled, ExtTreeMap.getElem?_insert, ih]
    by_cases hj : n = j
    · simp [hj]
    · have hlt : j < n ↔ j < n + 1 := by omega
      simp [hj, hlt]

theorem size_filled (n : Nat) : (filled make n).entries.size = n := by
  induction n with
  | zero => simp [filled]
  | succ n ih =>
    have hnot : (filled make n).entries.contains n = false := by
      rw [ExtTreeMap.contains_eq_isSome_getElem?, get_filled]
      simp
    rw [filled, ExtTreeMap.size_insert, hnot, ih]
    rfl

theorem accounted_filled (hone : ∀ j, sh.size (make j) = 1) (n : Nat) :
    Table.Accounted sh (filled make n) := by
  induction n with
  | zero => exact (total_empty sh.size).symm
  | succ n ih =>
    unfold Table.Accounted at ih ⊢
    have hnone : (filled make n).entries[n]? = none := by simp [get_filled]
    rw [filled, total_insert, erase_of_none hnone, ← ih, hone]
    exact Nat.add_comm ..

/-- The first entry was made 100 ms before the wrap, the others 50 ms after it. -/
def acrossWrap (j : Nat) : Nat := if j = 0 then 2 ^ 32 - 100 else 50

theorem acrossWrap_cases (j : Nat) : acrossWrap j = 2 ^ 32 - 100 ∨ acrossWrap j = 50 := by
  unfold acrossWrap
  split
  · exact .inl rfl
  · exact .inr rfl

/-- In a full table across the wrap the loop does not remove the oldest. -/
theorem evicts_younger (htime : ∀ j, sh.time (make j) = acrossWrap j)
    (hone : ∀ j, sh.size (make j) = 1) (lim : Limits) (hentries : 2 ≤ lim.maxEntries)
    (hbytes : 1 ≤ lim.maxBytes) :
    Table.Accounted sh (filled make lim.maxEntries) ∧ InRange sh (filled make lim.maxEntries) ∧
      (∀ (j : Nat) (a : α), (filled make lim.maxEntries).entries[j]? = some a →
        elapsedMs 100 (sh.time a) < 2 ^ 31) ∧
      ¬ ∀ step ∈ (filled make lim.maxEntries).ensureSteps sh lim 1 true,
        Table.OldestByAge sh (elapsedMs 100) step.1 step.2 := by
  have hget : ∀ (j : Nat) (a : α), (filled make lim.maxEntries).entries[j]? = some a →
      sh.time a = acrossWrap j := by
    intro j a ha
    rw [get_filled] at ha
    split at ha
    · cases ha
      exact htime j
    · cases ha
  have hrange : InRange sh (filled make lim.maxEntries) := by
    intro j a ha
    rw [hget j a ha]
    rcases acrossWrap_cases j with h | h
    · rw [h]
      decide
    · rw [h]
      decide
  refine ⟨accounted_filled hone _, hrange, ?_, ?_⟩
  · intro j a ha
    rw [hget j a ha]
    rcases acrossWrap_cases j with h | h
    · rw [h]
      decide
    · rw [h]
      decide
  · rw [steps_oldest_iff lim 1 true hrange (by decide)]
    rintro (h | h | h)
    · omega
    · simp [Table.overfull, size_filled] at h
    · have h0 : (filled make lim.maxEntries).entries[0]? = some (make 0) := by
        rw [get_filled, if_pos (by omega)]
      have h1 : (filled make lim.maxEntries).entries[1]? = some (make 1) := by
        rw [get_filled, if_pos (by omega)]
      have hlap := h 0 1 _ _ h0 h1
      rw [htime, htime] at hlap
      exact absurd hlap (by decide)

end Filled

/-- A message that is one byte too long for a fragment at MTU 1400; its second fragment has come. -/
def waitingMessage (createTime : Nat) : ReassemblyEntry where
  totalLen := transportPayloadBudget 1400 .relayRawUdp false true + 1
  fragTotal := 2
  receivedCount := 1
  createTime := createTime
  fragments := (∅ : ExtTreeMap Nat Bytes).insert 1 [7]

/-- A group of which one parity block has come. -/
def waitingGroup (createTime : Nat) : FecGroup where
  dataCount := 2
  totalCount := 3
  blockBytes := 1
  createTime := createTime
  blocks := (∅ : ExtTreeMap Nat Bytes).insert 2 [7]

theorem size_waitingMessage (createTime : Nat) :
    ReassemblyEntry.shape.size (waitingMessage createTime) = 1 := by
  change total List.length ((∅ : ExtTreeMap Nat Bytes).insert 1 [7]) = 1
  rw [total_insert, erase_of_none (by simp), total_empty]
  rfl

theorem size_waitingGroup (createTime : Nat) :
    FecGroup.shape.size (waitingGroup createTime) = 1 := by
  change total List.length ((∅ : ExtTreeMap Nat Bytes).insert 2 [7]) = 1
  rw [total_insert, erase_of_none (by simp), total_empty]
  rfl

/-- 64 messages, and 32 groups: the first was begun 100 ms before the wrap, the others 50
    ms after it. -/
theorem eviction_across_wrap :
    (Table.Accounted ReassemblyEntry.shape (filled (fun j => waitingMessage (acrossWrap j)) 64) ∧
      InRange ReassemblyEntry.shape (filled (fun j => waitingMessage (acrossWrap j)) 64) ∧
      (∀ (j : Nat) (a : ReassemblyEntry),
        (filled (fun j => waitingMessage (acrossWrap j)) 64).entries[j]? = some a →
        elapsedMs 100 a.createTime < 2 ^ 31) ∧
      ¬ ∀ step ∈ (filled (fun j => waitingMessage (acrossWrap j))
        64).ensureSteps ReassemblyEntry.shape
          CliRawUdpTunnel.limits 1 true,
        Table.OldestByAge ReassemblyEntry.shape (elapsedMs 100) step.1 step.2) ∧
    (Table.Accounted FecGroup.shape (filled (fun j => waitingGroup (acrossWrap j)) 32) ∧
      InRange FecGroup.shape (filled (fun j => waitingGroup (acrossWrap j)) 32) ∧
      (∀ (j : Nat) (a : FecGroup),
        (filled (fun j => waitingGroup (acrossWrap j)) 32).entries[j]? = some a →
        elapsedMs 100 a.createTime < 2 ^ 31) ∧
      ¬ ∀ step ∈ (filled (fun j => waitingGroup (acrossWrap j)) 32).ensureSteps FecGroup.shape
      CliFecDecoder.limits 1 true,
        Table.OldestByAge FecGroup.shape (elapsedMs 100) step.1 step.2) :=
  ⟨evicts_younger (fun _ => rfl) (fun _ => size_waitingMessage _) CliRawUdpTunnel.limits (by decide)
    (by decide),
    evicts_younger (fun _ => rfl) (fun _ => size_waitingGroup _) CliFecDecoder.limits (by decide)
    (by decide)⟩

/-- A full table whose messages were begun one after the other, that with the highest key
first: it is the one that goes. -/
theorem eviction_oldest_iff_full :
    ((filled (fun j => waitingMessage (200 - j)) 64).ensureSteps ReassemblyEntry.shape
      CliRawUdpTunnel.limits 1
        true).map Prod.snd = [63] ∧
      ∀ step ∈ (filled (fun j => waitingMessage (200 - j)) 64).ensureSteps ReassemblyEntry.shape
        CliRawUdpTunnel.limits 1
          true, Table.OldestByAge ReassemblyEntry.shape (elapsedMs 300) step.1 step.2 := by
  have htime : ∀ (j : Nat) (a : ReassemblyEntry),
    (filled (fun j => waitingMessage (200 - j)) 64).entries[j]? = some a →
      a.createTime ≤ 200 := by
    intro j a ha
    rw [get_filled] at ha
    split at ha
    · cases ha
      exact Nat.sub_le 200 j
    · cases ha
  have hlap : OneLap ReassemblyEntry.shape 300 (filled (fun j => waitingMessage (200 - j)) 64) := by
    intro i j a b ha hb
    have hpast : a.createTime ≤ 300 := (htime i a ha).trans (by decide)
    have hpast' : b.createTime ≤ 300 := (htime j b hb).trans (by decide)
    exact iff_of_true hpast hpast'
  let t : CliRawUdpTunnel := { CliRawUdpTunnel.create .none 1400 0 true 100 with
    reassembly := filled (fun j => waitingMessage (200 - j)) 64 }
  refine ⟨by decide +kernel,
    ((eviction_oldest_iff 300 1 true (by decide)).1 t fun j a ha => ?_).mpr (.inr (.inr hlap))⟩
  have hle := htime j a ha
  change a.createTime < 2 ^ 32
  omega

end VlanConnect

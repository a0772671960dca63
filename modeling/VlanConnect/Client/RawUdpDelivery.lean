/-
  VlanConnect/Client/RawUdpDelivery.lean
  ======================================
  **Fragmentation and reassembly.**

  What a receiver hands up of the fragments of a list of packets, in any order
  and with any of them lost, between ticks of the clock.  The table is compared
  with a book that knows each packet by its place in the list and has no limits
  (`Lib/Completion`): as long as the packets in the table have distinct ids and
  there are at most as many as it holds, the two agree.
-/
import VlanConnect.Client.FecReads
import VlanConnect.Client.RawUdpSteps
import VlanConnect.Lib.Completion

namespace VlanConnect

open PieceTable

namespace CliRawUdpTunnel

/-! ### The sender -/

/-- A packet, with the tunnel at the call that sends it. -/
structure Sent where
  tunnel : CliRawUdpTunnel
  packet : Bytes

namespace Sent

def msgId (m : Sent) : Nat := m.tunnel.nextMsgId

def count (m : Sent) : Nat := m.tunnel.fragTotal m.packet

def fragment (m : Sent) (i : Nat) : Fragment := m.tunnel.outgoing m.packet i

end Sent

inductive SenderCall where
  | send (now : Nat) (packet : Bytes)
  | update (now : Nat)
  | feedInput (now : Nat) (data : Bytes)

/-- The packets that a run of calls sends. -/
def sentBy (cm : Cm256) (t : CliRawUdpTunnel) : List SenderCall → List Sent
  | [] => []
  | .send now packet :: calls => ⟨t, packet⟩ :: sentBy cm (t.send cm now packet).2.2 calls
  | .update now :: calls => sentBy cm (t.update cm now).2 calls
  | .feedInput now data :: calls => sentBy cm (t.feedInput cm now data).2 calls

/-! ### The receiver -/

inductive Event where
  /-- A fragment of a packet of the sender, by its place in the list. -/
  | fragment (now j i : Nat)
  /-- `feedInput` of a datagram, before its fragments are processed. -/
  | touch (now : Nat)
  | tick (now : Nat)

def step (cm : Cm256) (sent : List Sent) (r : CliRawUdpTunnel) :
    Event → List TunnelEffect × CliRawUdpTunnel
  | .fragment now j i =>
    match sent[j]? with
    | none => ([], r)
    | some m => r.processFrag cm now (m.fragment i).bytes
  | .touch now => ([], { r with lastRecvTime := now, dead := false })
  | .tick now => r.update cm now

def run (cm : Cm256) (sent : List Sent) (r : CliRawUdpTunnel) :
    List Event → List TunnelEffect × CliRawUdpTunnel
  | [] => ([], r)
  | e :: es =>
    let (effects, r) := r.step cm sent e
    let (more, r) := r.run cm sent es
    (effects ++ more, r)

/-- A tick at `now` comes more than the timeout after `first`. -/
def expired (now first : Nat) : Bool := decide (RAW_UDP_FRAG_TIMEOUT_MS < elapsedMs now first)

/-- The number of fragments of a packet, by its place. -/
def counts (sent : List Sent) (j : Nat) : Nat := (sent[j]?.map Sent.count).getD 1

/-- What an event is for the book: a fragment is a piece, and a tick sweeps the table
    unless it finds the peer dead. -/
def happens (r : CliRawUdpTunnel) : Event → List (Completion.Event Nat)
  | .fragment now j i => [.piece now j i]
  | .touch _ => []
  | .tick now => if r.Dies now then [] else [.sweep now]

def history (cm : Cm256) (sent : List Sent) (r : CliRawUdpTunnel) :
    List Event → List (Completion.Event Nat)
  | [] => []
  | e :: es => r.happens e ++ history cm sent (r.step cm sent e).2 es

/-- Packets with an entry have distinct ids, and they are at most as many as the table holds. -/
structure Roomy (sent : List Sent) (b : Completion.Book Nat) : Prop where
  distinct : ∀ j k m n, sent[j]? = some m → sent[k]? = some n → (b.pending j).isSome = true →
    (b.pending k).isSome = true → m.msgId = n.msgId → j = k
  count : ((Finset.range sent.length).filter fun j => (b.pending j).isSome = true).card ≤
      RAW_UDP_MAX_ACTIVE_MESSAGES

/-! ### The table and the book -/

/-- The packets are ones that a sender with these settings sends. -/
structure Proper (s : Nat × FecMode × Bool) (m : Sent) : Prop where
  settings : m.tunnel.settings = s
  mtu : isValidRoomMtuValue m.tunnel.roomMtu = true
  msgId : m.msgId < 2 ^ 16
  length : 20 ≤ m.packet.length ∧ m.packet.length ≤ m.tunnel.roomMtu

/-- The entry of a packet with these fragments. -/
structure Matches (m : Sent) (q : Nat × Finset Nat) (e : ReassemblyEntry) : Prop where
  totalLen : e.totalLen = m.packet.length
  fragTotal : e.fragTotal = m.count
  receivedCount : e.receivedCount = q.2.card
  createTime : e.createTime = q.1
  fragments : ∀ i, e.fragments[i]? = if i ∈ q.2 then some (m.fragment i).payload else none
  subset : q.2 ⊆ Finset.range m.count
  waits : 1 ≤ q.2.card ∧ q.2.card < m.count

structure Refines (sent : List Sent) (r : CliRawUdpTunnel) (b : Completion.Book Nat) : Prop where
  accounted : Table.Accounted ReassemblyEntry.shape r.reassembly
  entry : ∀ j q, b.pending j = some q → ∃ m e, sent[j]? = some m ∧ r.entry m.msgId = some e ∧
      Matches m q e
  pending : ∀ k e, r.entry k = some e → ∃ j m q, sent[j]? = some m ∧
      b.pending j = some q ∧ m.msgId = k

variable {cm : Cm256} {sent : List Sent} {r : CliRawUdpTunnel} {b : Completion.Book Nat}
    {s : Nat × FecMode × Bool}

theorem Proper.bounds {m : Sent} (h : Proper s m) :
    1 ≤ m.count ∧ m.count ≤ 2 ∧ ∀ i, i < m.count → (m.fragment i).payload.length ≤ 1420 := by
  have hpos : 1 ≤ m.packet.length := by
    have := h.length
    omega
  obtain ⟨h₁, h₂, -, -⟩ := fragTotal_bounds h.mtu hpos h.length.2
  obtain ⟨-, -, hmax, hmtu⟩ := maxFragmentPayload_bounds h.mtu
  refine ⟨h₁, h₂, fun i hi => ?_⟩
  have hlen := length_outgoing h.mtu hpos h.length.2 hi
  have hle := h.length.2
  rw [Sent.fragment, hlen]
  split <;> omega

/-- A packet in the table has one of its two fragments there. -/
theorem Matches.size_le {m : Sent} {q : Nat × Finset Nat} {e : ReassemblyEntry} (h : Matches m q e)
    (hm : Proper s m) :
    ReassemblyEntry.shape.size e ≤ 1420 := by
  obtain ⟨-, htwo, hlen⟩ := hm.bounds
  have hsize : e.fragments.size ≤ 1 := by
    refine (size_le_card (s := q.2) fun i a ha => ?_).trans (by have := h.waits; omega)
    rw [h.fragments] at ha
    by_contra hne
    rw [if_neg hne] at ha
    cases ha
  have htotal : total List.length e.fragments ≤ e.fragments.size * 1420 := by
    refine total_le _ fun i a ha => ?_
    rw [h.fragments] at ha
    split at ha
    · next hi =>
      cases ha
      exact hlen i (Finset.mem_range.mp (h.subset hi))
    · cases ha
  calc ReassemblyEntry.shape.size e ≤ e.fragments.size * 1420 := htotal
    _ ≤ 1 * 1420 := Nat.mul_le_mul_right _ hsize

/-- The table has no more entries than the book. -/
theorem Refines.size_le (h : Refines sent r b) :
    r.reassembly.entries.size ≤
    ((Finset.range sent.length).filter fun j => (b.pending j).isSome = true).card := by
  have hkeys : r.reassembly.entries.size ≤ (((Finset.range sent.length).filter fun j =>
      (b.pending j).isSome = true).image fun j => (sent[j]?.map Sent.msgId).getD 0).card := by
    refine size_le_card fun k e he => ?_
    obtain ⟨j, m, q, hm, hq, hk⟩ := h.pending k e he
    refine Finset.mem_image.mpr ⟨j, Finset.mem_filter.mpr ⟨?_, ?_⟩, ?_⟩
    · exact Finset.mem_range.mpr (List.getElem?_eq_some_iff.mp hm).1
    · rw [hq]
      rfl
    · rw [hm, ← hk]
      rfl
  exact hkeys.trans Finset.card_image_le

/-- So the bytes of the table never come near their limit. -/
theorem Refines.bytes_le (h : Refines sent r b) (hproper : ∀ m ∈ sent, Proper s m)
    (hroomy : Roomy sent b) :
    r.reassembly.bytes ≤ 64 * 1420 := by
  have htotal : total ReassemblyEntry.shape.size r.reassembly.entries ≤
      r.reassembly.entries.size * 1420 := by
    refine total_le _ fun k e he => ?_
    obtain ⟨j, m, q, hm, hq, rfl⟩ := h.pending k e he
    obtain ⟨m', e', hm', he', hmatch⟩ := h.entry j q hq
    rw [hm] at hm'
    cases hm'
    rw [show r.entry m.msgId = some e from he] at he'
    cases he'
    exact hmatch.size_le (hproper m (List.mem_of_getElem? hm))
  have hsize := h.size_le.trans hroomy.count
  rw [h.accounted]
  exact htotal.trans (Nat.mul_le_mul_right _ hsize)

/-! ### One fragment -/

theorem maxFragmentPayload_of_settings {t : CliRawUdpTunnel} (h : r.settings = t.settings) :
    r.roomMtu = t.roomMtu ∧ r.maxFragmentPayload = t.maxFragmentPayload := by
  simp only [settings, Prod.mk.injEq] at h
  refine ⟨h.1, ?_⟩
  unfold maxFragmentPayload
  rw [h.1, h.2.1, h.2.2]

theorem Proper.readFragment {m : Sent} (h : Proper s m) (hr : r.settings = s) {i : Nat}
    (hi : i < m.count) :
    r.readFragment (m.fragment i).bytes = some (m.fragment i) := by
  obtain ⟨hroom, hmax⟩ := maxFragmentPayload_of_settings (hr.trans h.settings.symm)
  have hlen := h.length
  exact readFragment_outgoing h.mtu hroom hmax h.msgId (by omega) hlen.2 hi

/-- The fragments of a packet, put together. -/
theorem Proper.flatten {m : Sent} (h : Proper s m) :
    ((List.range m.count).map fun i => (m.fragment i).payload).flatten = m.packet := by
  have hlen := h.length
  exact flatten_outgoing h.mtu (by omega) hlen.2

/-- A packet of one fragment is handed up at once; it is too long for a ping. -/
theorem processFrag_single {m : Sent} (h : Proper s m) (hr : r.settings = s) (hcount : m.count = 1)
    (now : Nat) :
    r.processFrag cm now (m.fragment 0).bytes = ([.data m.packet], r) := by
  have hpayload : (m.fragment 0).payload = m.packet := by
    have hflatten := h.flatten
    rw [hcount] at hflatten
    simpa using hflatten
  have hlen := h.length.1
  have htotal : (m.fragment 0).fragTotal = 1 := hcount
  have hne : m.packet ≠ [RAW_UDP_KEEPALIVE_MARKER] := by
    intro heq
    rw [heq] at hlen
    simp at hlen
  have hwhole : m.packet.length = (m.fragment 0).totalLen := rfl
  unfold processFrag
  rw [h.readFragment hr (by omega)]
  dsimp only
  rw [hpayload, if_neg (fun hc => hne hc.2.1), if_neg (fun hc => by omega),
    if_neg (fun hc => by omega), if_pos htotal, if_pos hwhole]

theorem processFrag_several {m : Sent} (h : Proper s m) (hr : r.settings = s) (hcount : m.count = 2)
    (now : Nat) {i : Nat} (hi : i < m.count) :
    r.processFrag cm now (m.fragment i).bytes = r.reassemble now (m.fragment i) := by
  have htotal : (m.fragment i).fragTotal ≠ 1 := by
    have hfrag : (m.fragment i).fragTotal = m.count := rfl
    omega
  unfold processFrag
  rw [h.readFragment hr hi]
  dsimp only
  rw [if_neg (fun hc => htotal hc.1), if_neg (fun hc => htotal hc.1),
    if_neg (fun hc => htotal hc.1), if_neg htotal]

theorem accounted_setEntry {k added : Nat} {e : ReassemblyEntry}
    (h : Table.Accounted ReassemblyEntry.shape r.reassembly)
    (hsize : ReassemblyEntry.shape.size e =
      ((r.entry k).map ReassemblyEntry.shape.size).getD 0 + added) :
    Table.Accounted ReassemblyEntry.shape (r.setEntry k e added).reassembly :=
  Table.Accounted.insert h rfl hsize

theorem size_withFragment {e : ReassemblyEntry} {i : Nat} {payload : Bytes} (h : i ∉ e.fragments) :
    ReassemblyEntry.shape.size (e.withFragment i payload) =
    ReassemblyEntry.shape.size e + payload.length := by
  have hnone : e.fragments[i]? = none := Std.ExtTreeMap.getElem?_eq_none h
  change total List.length (e.fragments.insert i payload) =
    total List.length e.fragments + payload.length
  rw [total_insert, erase_of_none hnone, Nat.add_comm]

theorem size_freshEntry (now : Nat) (f : Fragment) :
    ReassemblyEntry.shape.size (freshEntry now f) = 0 := by
  change total List.length (∅ : Std.ExtTreeMap Nat Bytes) = 0
  exact total_empty _

/-- The entry after the first fragment. -/
theorem matches_first {m : Sent} {now i : Nat} (hi : i < m.count) (hcount : m.count = 2) :
    Matches m (now,
      {i}) ((freshEntry now (m.fragment i)).withFragment i (m.fragment i).payload) := by
  refine ⟨rfl, rfl, (Finset.card_singleton i).symm, rfl, fun j => ?_, ?_, ?_⟩
  · simp only [ReassemblyEntry.withFragment, freshEntry, Std.ExtTreeMap.getElem?_insert,
      compare_eq_iff_eq, Finset.mem_singleton, Std.ExtTreeMap.getElem?_empty, eq_comm (a := j)]
    split
    · next hj => rw [hj]
    · rfl
  · exact Finset.singleton_subset_iff.mpr (Finset.mem_range.mpr hi)
  · simp only [Finset.card_singleton]
    omega

/-- All fragments together are the packet. -/
theorem Matches.assembled {m : Sent} {q : Nat × Finset Nat} {e : ReassemblyEntry}
    (h : Matches m q e) (hm : Proper s m) {i : Nat} (hi : i < m.count) (hnew : i ∉ q.2)
    (hlast : q.2.card + 1 = m.count) :
    (e.withFragment i (m.fragment i).payload).assembled = some m.packet := by
  have hall : insert i q.2 = Finset.range m.count := by
    refine Finset.eq_of_subset_of_card_le
      (Finset.insert_subset (Finset.mem_range.mpr hi) h.subset) ?_
    rw [Finset.card_range, Finset.card_insert_of_notMem hnew, hlast]
  have hget : ∀ j ∈ List.range m.count,
      (e.withFragment i (m.fragment i).payload).fragments[j]? = some (m.fragment j).payload := by
    intro j hj
    have hmem : j ∈ insert i q.2 := by
      rw [hall]
      exact Finset.mem_range.mpr (List.mem_range.mp hj)
    simp only [ReassemblyEntry.withFragment, Std.ExtTreeMap.getElem?_insert, compare_eq_iff_eq]
    by_cases hij : i = j
    · rw [if_pos hij, hij]
    · rw [if_neg hij, h.fragments, if_pos ((Finset.mem_insert.mp hmem).resolve_left (Ne.symm hij))]
  have hfrag : (e.withFragment i (m.fragment i).payload).fragTotal = m.count := h.fragTotal
  unfold ReassemblyEntry.assembled
  rw [hfrag]
  have hmapM :
    (List.range m.count).mapM (fun j => (e.withFragment i (m.fragment i).payload).fragments[j]?) =
      some ((List.range m.count).map fun j => (m.fragment j).payload) := by
    generalize List.range m.count = l at hget
    induction l with
    | nil => rfl
    | cons j l ih =>
      rw [List.mapM_cons, hget j List.mem_cons_self,
        ih fun k hk => hget k (List.mem_cons_of_mem _ hk)]
      rfl
  rw [hmapM, Option.map_some, hm.flatten]

/-- The packet at a place of the list. -/
def packetAt (sent : List Sent) (j : Nat) : Bytes := (sent[j]?.map Sent.packet).getD []

/-- What a fragment brings, in the table and in the book. -/
def Agrees (sent : List Sent) (b : Completion.Book Nat) (out : List TunnelEffect × CliRawUdpTunnel)
    (b' : Completion.Book Nat) : Prop :=
  ∃ done : List Nat, b'.completed = b.completed ++ done ∧
    TunnelEffect.packets out.1 = done.map (packetAt sent) ∧
    Refines sent out.2 b'

/-- The book after a piece that opens an item of two. -/
theorem step_opens (now i : Nat) {j : Nat} (hcount : counts sent j = 2)
    (hpending : b.pending j = none) :
    Completion.step (counts sent) expired b (.piece now j i) =
      { b with pending := Function.update b.pending j (some (now, {i})) } := by
  simp only [Completion.step, hpending, Option.getD_none, Finset.insert_empty,
    Finset.card_singleton, hcount]
  rfl

/-- The book after a piece that completes an item. -/
theorem step_completes {now j i : Nat}
    (hcard : (insert i ((b.pending j).getD (now, ∅)).2).card = counts sent j) :
    Completion.step (counts sent) expired b (.piece now j i) =
      { pending := Function.update b.pending j none, completed := b.completed ++ [j] } := by
  simp only [Completion.step]
  exact if_pos hcard

theorem counts_eq {j : Nat} {m : Sent} (hm : sent[j]? = some m) : counts sent j = m.count := by
  rw [counts, hm]
  rfl

theorem packetAt_eq {j : Nat} {m : Sent} (hm : sent[j]? = some m) : packetAt sent j = m.packet := by
  rw [packetAt, hm]
  rfl

theorem Refines.single (h : Refines sent r b) (hr : r.settings = s) {j now i : Nat} {m : Sent}
    (hproper : Proper s m) (hm : sent[j]? = some m) (hi : i < m.count) (hcount : m.count = 1) :
    Agrees sent b (r.processFrag cm now (m.fragment i).bytes)
      (Completion.step (counts sent) expired b (.piece now j i)) := by
  have hpending : b.pending j = none := by
    cases hq : b.pending j with
    | none => rfl
    | some q =>
      obtain ⟨m', e, hm', -, hmatch⟩ := h.entry j q hq
      rw [hm] at hm'
      cases hm'
      have := hmatch.waits
      omega
  obtain rfl : i = 0 := by omega
  rw [processFrag_single hproper hr hcount, step_completes (by
    rw [hpending, counts_eq hm, hcount]
    rfl)]
  refine ⟨[j], rfl, ?_, h.accounted, ?_, ?_⟩
  · rw [List.map_singleton, packetAt_eq hm]
    rfl
  · rw [← hpending, Function.update_eq_self]
    exact h.entry
  · rw [← hpending, Function.update_eq_self]
    exact h.pending

/-- The first fragment of a packet of two. -/
theorem Refines.opens (h : Refines sent r b) (hr : r.settings = s)
    (hproper : ∀ m ∈ sent, Proper s m) (hroomy : Roomy sent b) {j now i : Nat} {m : Sent}
    (hm : sent[j]? = some m) (hi : i < m.count) (hcount : m.count = 2)
    (hpending : b.pending j = none)
    (hroomy' : Roomy sent (Completion.step (counts sent) expired b (.piece now j i))) :
    Agrees sent b (r.processFrag cm now (m.fragment i).bytes)
      (Completion.step (counts sent) expired b (.piece now j i)) := by
  have hbook := step_opens now i ((counts_eq hm).trans hcount) hpending
  rw [hbook] at hroomy' ⊢
  have hm' := hproper m (List.mem_of_getElem? hm)
  have hself : (Function.update b.pending j (some (now, {i}))) j = some (now, {i}) :=
    Function.update_self _ _ _
  have hother : ∀ k, k ≠ j → (Function.update b.pending j (some (now, {i}))) k = b.pending k :=
    fun k hk => Function.update_of_ne hk _ _
  -- No other packet in the table has this id.
  have hentry : r.entry m.msgId = none := by
    by_contra hne
    obtain ⟨e, he⟩ := Option.ne_none_iff_exists'.mp hne
    obtain ⟨k, n, q, hn, hq, hid⟩ := h.pending _ _ he
    have hk : k ≠ j := by
      rintro rfl
      rw [hpending] at hq
      cases hq
    refine hk (hroomy'.distinct k j n m hn hm ?_ ?_ hid)
    · dsimp only
      rw [hother k hk, hq]
      rfl
    · dsimp only
      rw [hself]
      rfl
  have hsize : r.reassembly.entries.size < RAW_UDP_MAX_ACTIVE_MESSAGES := by
    have hcard : ((Finset.range sent.length).filter fun k => (b.pending k).isSome = true).card + 1 ≤
        ((Finset.range sent.length).filter fun k =>
          ((Function.update b.pending j (some (now, {i}))) k).isSome = true).card := by
      rw [← Finset.card_insert_of_notMem
        (s := (Finset.range sent.length).filter fun k => (b.pending k).isSome = true)
        (a := j) (by simp [hpending])]
      refine Finset.card_le_card (Finset.insert_subset ?_ fun k hk => ?_)
      · rw [Finset.mem_filter, hself]
        exact ⟨Finset.mem_range.mpr (List.getElem?_eq_some_iff.mp hm).1, rfl⟩
      · obtain ⟨hrange, hsome⟩ := Finset.mem_filter.mp hk
        refine Finset.mem_filter.mpr ⟨hrange, ?_⟩
        rw [hother k (by rintro rfl; rw [hpending] at hsome; cases hsome)]
        exact hsome
    exact h.size_le.trans_lt ((Nat.lt_of_succ_le hcard).trans_le hroomy'.count)
  have hbytes : r.reassembly.bytes + (m.fragment i).payload.length ≤
      RAW_UDP_MAX_REASSEMBLY_BYTES := by
    have := h.bytes_le hproper hroomy
    have := hm'.bounds.2.2 i hi
    simp only [RAW_UDP_MAX_REASSEMBLY_BYTES]
    omega
  rw [processFrag_several hm' hr hcount now hi,
    reassemble_first hentry (show 2 ≤ m.count by omega) hsize hbytes]
  refine ⟨[], (List.append_nil _).symm, rfl, ?_, ?_, ?_⟩
  · refine accounted_setEntry (accounted_setEntry h.accounted ?_) ?_
    · rw [show r.entry (m.fragment i).msgId = none from hentry]
      exact size_freshEntry now (m.fragment i)
    · rw [entry_setEntry, if_pos rfl, Option.map_some, Option.getD_some]
      exact size_withFragment Std.ExtTreeMap.not_mem_empty
  · intro k q hq
    by_cases hk : k = j
    · rw [hk] at hq ⊢
      dsimp only at hq
      rw [hself] at hq
      cases hq
      refine ⟨m, _, hm, ?_, matches_first hi hcount⟩
      rw [entry_setEntry]
      exact if_pos rfl
    · dsimp only at hq
      rw [hother k hk] at hq
      obtain ⟨n, e, hn, he, hmatch⟩ := h.entry k q hq
      refine ⟨n, e, hn, ?_, hmatch⟩
      have hne : n.msgId ≠ (m.fragment i).msgId := by
        intro heq
        rw [show n.msgId = m.msgId from heq, hentry] at he
        cases he
      rw [entry_setEntry, if_neg hne, entry_setEntry, if_neg hne]
      exact he
  · intro k e he
    rw [entry_setEntry] at he
    split at he
    · next hk =>
      refine ⟨j, m, (now, {i}), hm, ?_, hk.symm⟩
      dsimp only
      rw [hself]
    · next hk =>
      rw [entry_setEntry, if_neg hk] at he
      obtain ⟨l, n, q, hn, hq, hid⟩ := h.pending k e he
      have hl : l ≠ j := by
        rintro rfl
        rw [hpending] at hq
        cases hq
      refine ⟨l, n, q, hn, ?_, hid⟩
      dsimp only
      rw [hother l hl]
      exact hq

/-- The other fragment of a packet of two. -/
theorem Refines.next (h : Refines sent r b) (hr : r.settings = s) (hproper : ∀ m ∈ sent, Proper s m)
    (hroomy : Roomy sent b) {j now i : Nat} {m : Sent} (hm : sent[j]? = some m) (hi : i < m.count)
    (hcount : m.count = 2) {q : Nat × Finset Nat} (hq : b.pending j = some q) :
    Agrees sent b (r.processFrag cm now (m.fragment i).bytes)
      (Completion.step (counts sent) expired b (.piece now j i)) := by
  have hm' := hproper m (List.mem_of_getElem? hm)
  obtain ⟨m₁, e, hm₁, he, hmatch⟩ := h.entry j q hq
  rw [hm] at hm₁
  cases hm₁
  have hwaits := hmatch.waits
  have hmem : i ∈ e.fragments ↔ i ∈ q.2 := by
    rw [Std.ExtTreeMap.mem_iff_isSome_getElem?, hmatch.fragments]
    split <;> simp_all
  rw [processFrag_several hm' hr hcount now hi]
  by_cases hold : i ∈ q.2
  · -- It came before: nothing happens.
    have hbook : Completion.step (counts sent) expired b (.piece now j i) = b := by
      simp only [Completion.step, hq, Option.getD_some, Finset.insert_eq_of_mem hold]
      rw [if_neg (by rw [counts_eq hm]; omega), ← hq, Function.update_eq_self]
    rw [hbook, reassemble_again he hmatch.totalLen hmatch.fragTotal (hmem.mpr hold)
      (by rw [hmatch.receivedCount, hmatch.fragTotal]; exact hwaits.2)]
    exact ⟨[], (List.append_nil _).symm, rfl, h⟩
  · have hlast : q.2.card + 1 = m.count := by omega
    have hbytes : r.reassembly.bytes + (m.fragment i).payload.length ≤
        RAW_UDP_MAX_REASSEMBLY_BYTES := by
      have := h.bytes_le hproper hroomy
      have := hm'.bounds.2.2 i hi
      simp only [RAW_UDP_MAX_REASSEMBLY_BYTES]
      omega
    have hassembled := hmatch.assembled hm' hi hold hlast
    have hset :
      (r.setEntry m.msgId (e.withFragment i (m.fragment i).payload)
        (m.fragment i).payload.length).entry m.msgId =
        some (e.withFragment i (m.fragment i).payload) := by
      rw [entry_setEntry, if_pos rfl]
    have hdone : ¬ (e.withFragment i (m.fragment i).payload).receivedCount <
        (e.withFragment i (m.fragment i).payload).fragTotal := by
      change ¬ e.receivedCount + 1 < e.fragTotal
      rw [hmatch.receivedCount, hmatch.fragTotal]
      omega
    have hlength : m.packet.length = (e.withFragment i (m.fragment i).payload).totalLen :=
      hmatch.totalLen.symm
    have hout : r.reassemble now (m.fragment i) = ([.data m.packet],
        (r.setEntry m.msgId (e.withFragment i (m.fragment i).payload)
          (m.fragment i).payload.length).removeReassemblyEntry
          m.msgId) := by
      rw [reassemble_next he hmatch.totalLen hmatch.fragTotal (mt hmem.mp hold) hbytes]
      refine (deliverIfComplete_last hset hdone hassembled).trans ?_
      rw [if_pos hlength]
    have hcard : (insert i ((b.pending j).getD (now, ∅)).2).card = counts sent j := by
      rw [hq, Option.getD_some, Finset.card_insert_of_notMem hold, counts_eq hm, hlast]
    have hentries : ∀ k, (((r.setEntry m.msgId (e.withFragment i (m.fragment i).payload)
        (m.fragment i).payload.length).removeReassemblyEntry m.msgId).entry k) =
        if k = m.msgId then none else r.entry k := by
      intro k
      rw [entry_removeReassemblyEntry]
      split
      · rfl
      · next hk => rw [entry_setEntry, if_neg hk]
    rw [hout, step_completes hcard]
    refine ⟨[j], rfl, ?_, ?_, ?_, ?_⟩
    · rw [List.map_singleton, packetAt_eq hm]
      rfl
    · refine Table.Accounted.remove (accounted_setEntry h.accounted ?_) _
      rw [he, Option.map_some, Option.getD_some]
      exact size_withFragment (mt hmem.mp hold)
    · intro k q' hq'
      dsimp only at hq'
      have hk : k ≠ j := by
        rintro rfl
        rw [Function.update_self] at hq'
        cases hq'
      rw [Function.update_of_ne hk] at hq'
      obtain ⟨n, e', hn, he', hmatch'⟩ := h.entry k q' hq'
      refine ⟨n, e', hn, ?_, hmatch'⟩
      have hne : n.msgId ≠ m.msgId := by
        intro heq
        refine hk (hroomy.distinct k j n m hn hm ?_ ?_ heq)
        · rw [hq']
          rfl
        · rw [hq]
          rfl
      rw [hentries, if_neg hne]
      exact he'
    · intro k e' he'
      rw [hentries] at he'
      split at he'
      · cases he'
      next hne =>
      obtain ⟨l, n, q', hn, hq', hid⟩ := h.pending k e' he'
      have hl : l ≠ j := by
        rintro rfl
        rw [hm] at hn
        cases hn
        exact hne hid.symm
      refine ⟨l, n, q', hn, ?_, hid⟩
      dsimp only
      rw [Function.update_of_ne hl]
      exact hq'

theorem Refines.fragment (h : Refines sent r b) (hr : r.settings = s)
    (hproper : ∀ m ∈ sent, Proper s m) (hroomy : Roomy sent b) {j now i : Nat} {m : Sent}
    (hm : sent[j]? = some m) (hi : i < m.count)
    (hroomy' : Roomy sent (Completion.step (counts sent) expired b (.piece now j i))) :
    Agrees sent b (r.processFrag cm now (m.fragment i).bytes)
      (Completion.step (counts sent) expired b (.piece now j i)) := by
  have hm' := hproper m (List.mem_of_getElem? hm)
  obtain ⟨hone, htwo, -⟩ := hm'.bounds
  by_cases hcount : m.count = 1
  · exact h.single hr hm' hm hi hcount
  · cases hq : b.pending j with
    | none => exact h.opens hr hproper hroomy hm hi (by omega) hq hroomy'
    | some q => exact h.next hr hproper hroomy hm hi (by omega) hq

/-- A tick that sweeps the table sweeps the book. -/
theorem Refines.sweep (h : Refines sent r b) {now : Nat} {r' : CliRawUdpTunnel}
    (hsweep : r'.reassembly = r.reassembly.expire ReassemblyEntry.shape fun e =>
      expired now e.createTime) :
    Refines sent r' (Completion.step (counts sent) expired b (.sweep now)) := by
  have hentries : ∀ k, r'.entry k = (r.entry k).filter fun e => !expired now e.createTime := by
    intro k
    rw [CliRawUdpTunnel.entry, hsweep]
    exact Table.get_expire _ r.reassembly k
  refine ⟨?_, ?_, ?_⟩
  · rw [hsweep]
    exact h.accounted.expire _
  · intro j q hq
    obtain ⟨hpending, hkept⟩ := Option.filter_eq_some_iff.mp hq
    obtain ⟨m, e, hm, he, hmatch⟩ := h.entry j q hpending
    refine ⟨m, e, hm, ?_, hmatch⟩
    rw [hentries, he]
    exact Option.filter_some_pos (by rw [hmatch.createTime]; exact hkept)
  · intro k e he
    rw [hentries] at he
    obtain ⟨he, hkept⟩ := Option.filter_eq_some_iff.mp he
    obtain ⟨j, m, q, hm, hq, rfl⟩ := h.pending k e he
    obtain ⟨m', e', hm', he', hmatch⟩ := h.entry j q hq
    rw [hm] at hm'
    cases hm'
    rw [he] at he'
    cases he'
    refine ⟨j, m, q, hm, ?_, rfl⟩
    change Option.filter _ (b.pending j) = some q
    rw [hq]
    exact Option.filter_some_pos (by rw [← hmatch.createTime]; exact hkept)

/-! ### Whole runs -/

/-- The fragments among the events, by packet and index. -/
def fragments (es : List Event) : List (Nat × Nat) :=
  es.filterMap fun
    | .fragment _ j i => some (j, i)
    | _ => none

theorem run_append (b : Completion.Book Nat) (es es' : List (Completion.Event Nat)) :
    Completion.run (counts sent) expired b (es ++ es') =
      Completion.run (counts sent) expired (Completion.run (counts sent) expired b es) es' :=
  List.foldl_append

theorem Refines.step (h : Refines sent r b) (hr : r.settings = s) (hproper : ∀ m ∈ sent, Proper s m)
    (hroomy : Roomy sent b) {e : Event}
    (hindex : ∀ p ∈ fragments [e], ∃ m, sent[p.1]? = some m ∧ p.2 < m.count)
    (hroomy' : Roomy sent (Completion.run (counts sent) expired b (happens r e))) :
    Agrees sent b (r.step cm sent e) (Completion.run (counts sent) expired b (happens r e)) := by
  cases e with
  | fragment now j i =>
    obtain ⟨m, hm, hi⟩ := hindex (j, i) (List.mem_singleton_self _)
    have hstep : r.step cm sent (.fragment now j i) =
        r.processFrag cm now (m.fragment i).bytes := by
      simp only [CliRawUdpTunnel.step]
      rw [hm]
    rw [hstep]
    exact h.fragment hr hproper hroomy hm hi hroomy'
  | touch now => exact ⟨[], (List.append_nil _).symm, rfl, h.accounted, h.entry, h.pending⟩
  | tick now =>
    simp only [happens]
    split
    · next hdies =>
      have hout : r.step cm sent (.tick now) = ([.dead], { r with dead := true }) := by
        unfold Dies at hdies
        rw [CliRawUdpTunnel.step, update, if_pos hdies]
      rw [hout]
      exact ⟨[], (List.append_nil _).symm, rfl, h.accounted, h.entry, h.pending⟩
    · next hlives =>
      obtain ⟨hpackets, hreassembly, -⟩ := update_sweeps cm hlives
      exact ⟨[], (List.append_nil _).symm, hpackets, h.sweep hreassembly⟩

theorem settings_step (r : CliRawUdpTunnel) (e : Event) :
    (r.step cm sent e).2.settings = r.settings := by
  cases e with
  | fragment now j i =>
    simp only [CliRawUdpTunnel.step]
    split
    · rfl
    · exact (evolves_processFrag cm r now _).settings
  | touch now => rfl
  | tick now => exact (evolves_update cm r now).settings

theorem Refines.run (h : Refines sent r b) (hr : r.settings = s) (hproper : ∀ m ∈ sent, Proper s m)
    {es : List Event} (hindex : ∀ p ∈ fragments es, ∃ m, sent[p.1]? = some m ∧ p.2 < m.count)
    (hroomy : ∀ before after, es = before ++ after →
      Roomy sent (Completion.run (counts sent) expired b (history cm sent r before))) :
    ∃ done : List Nat, (Completion.run (counts sent) expired b (history cm sent r es)).completed =
    b.completed ++ done ∧
      TunnelEffect.packets (r.run cm sent es).1 = done.map (packetAt sent) := by
  induction es generalizing r b with
  | nil => exact ⟨[], (List.append_nil _).symm, rfl⟩
  | cons e es ih =>
    have hfirst : ∀ p ∈ fragments [e], ∃ m, sent[p.1]? = some m ∧ p.2 < m.count := by
      intro p hp
      refine hindex p ?_
      rw [fragments, List.filterMap_cons] at hp ⊢
      cases e <;> simp_all
    have hrest : ∀ p ∈ fragments es, ∃ m, sent[p.1]? = some m ∧ p.2 < m.count := by
      intro p hp
      refine hindex p ?_
      obtain ⟨e', he', hp'⟩ := List.mem_filterMap.mp hp
      exact List.mem_filterMap.mpr ⟨e', List.mem_cons_of_mem _ he', hp'⟩
    have hbook : Roomy sent (Completion.run (counts sent) expired b (happens r e)) := by
      have hone := hroomy [e] es rfl
      rwa [history, history, List.append_nil] at hone
    obtain ⟨done, hcompleted, hpackets, hrefines⟩ :=
      h.step hr hproper (hroomy [] (e :: es) rfl) hfirst hbook
    obtain ⟨more, hmore, hmorePackets⟩ := ih hrefines ((settings_step r e).trans hr) hrest (by
      intro before after heq
      have hlater := hroomy (e :: before) after (by rw [heq, List.cons_append])
      rwa [history, run_append] at hlater)
    refine ⟨done ++ more, ?_, ?_⟩
    · rw [history, run_append, hmore, hcompleted, List.append_assoc]
    · have hrun : (r.run cm sent (e :: es)).1 = (r.step cm sent e).1 ++
        ((r.step cm sent e).2.run cm sent es).1 := rfl
      rw [hrun, TunnelEffect.packets_append, hpackets, hmorePackets, List.map_append]

/-- A sender, and a receiver with the same settings and an empty table that gets fragments
    of what was sent, each at most once. Packets with an entry in the table have distinct
    ids, and the table has room for all of them. -/
structure Delivery (cm : Cm256) (t : CliRawUdpTunnel) (calls : List SenderCall)
    (r : CliRawUdpTunnel) (es : List Event) :
    Prop where
  mtu : isValidRoomMtuValue t.roomMtu = true
  nextMsgId : t.nextMsgId < 2 ^ 16
  packets : ∀ now p, .send now p ∈ calls → 20 ≤ p.length ∧ p.length ≤ t.roomMtu
  settings : r.settings = t.settings
  empty : r.reassembly = {}
  index : ∀ p ∈ fragments es, ∃ m, (sentBy cm t calls)[p.1]? = some m ∧ p.2 < m.count
  once : (fragments es).Nodup
  roomy : ∀ before after, es = before ++ after → Roomy (sentBy cm t calls)
    (Completion.run (counts (sentBy cm t calls)) expired {}
      (history cm (sentBy cm t calls) r before))

end CliRawUdpTunnel

end VlanConnect

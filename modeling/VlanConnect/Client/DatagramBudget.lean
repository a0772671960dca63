/-
  VlanConnect/Client/DatagramBudget.lean
  ======================================
  **The size of a datagram.**

  The budget of a payload is what the headers leave of the room's MTU, but the
  blocks of the error correction start with two bytes of their own that no
  budget counts.  Both transports hand their payloads to the same outbox: the
  encoder, or the socket where there is none.
-/
import VlanConnect.Client.FecRecovery
import VlanConnect.Client.Ikcp
import VlanConnect.Client.RawUdpDelivery
import VlanConnect.TunnelManager

namespace VlanConnect

open ByteBuffer

/-! ### The envelope -/

/-- Every datagram that `udpSend` makes of the packet fits into the MTU. -/
def CliTunnelManager.Fits (K : Crypto) (mtu : Nat) (packet : Bytes) : Prop :=
  ∀ (m : TunnelManager) (datagram : Bytes),
    (CliTunnelManager.udpSend K m packet).1 = some datagram → datagram.length ≤ mtu

/-- A manager whose data plane runs. -/
def CliTunnelManager.running : TunnelManager where
  udpOpen := true
  dataPlaneState := .running
  securityMode := .secure
  secureSessionId := 1
  secureMaster := List.replicate 32 0
  udpCipher := { initialized := true }

namespace CliTunnelManager

variable {K : Crypto}

theorem length_encrypt {c : SecureFrameCipher} {plain ad : Bytes}
    (h : (c.encrypt K plain ad).1 ≠ []) :
    (c.encrypt K plain ad).1.length = plain.length + 24 := by
  unfold SecureFrameCipher.encrypt at h ⊢
  split at h
  · exact absurd rfl h
  · next hinit =>
    rw [if_neg hinit]
    have hcipher :=
      K.length_aeadLock c.sendKey
        (SecureFrameCipher.buildNonce c.sendNonceSeed c.sendCounter) ad plain
    have hmac :=
      K.length_mac c.sendKey (SecureFrameCipher.buildNonce c.sendNonceSeed c.sendCounter) ad plain
    simp only [List.length_append, hcipher, hmac, writeU64BE, BigEndian.length_encode,
      SECURE_MAC_SIZE]
    omega

/-- Type, session, counter and MAC. -/
theorem length_udpSend {m : TunnelManager} {packet datagram : Bytes}
    (h : (udpSend K m packet).1 = some datagram) : datagram.length = packet.length + 29 := by
  unfold udpSend at h
  split at h
  · cases h
  unfold TunnelManager.sendEncrypted at h
  split at h
  · cases h
  dsimp only at h
  split at h
  · cases h
  next henc =>
  cases h
  simp only [List.length_append, List.length_cons, length_encrypt henc, writeU32BE,
    BigEndian.length_encode]
  omega

theorem fits_iff {mtu : Nat} {packet : Bytes} : Fits K mtu packet ↔ packet.length + 29 ≤ mtu := by
  constructor
  · intro h
    have hsends : ∃ datagram, (udpSend K running packet).1 = some datagram := by
      unfold udpSend TunnelManager.sendEncrypted SecureFrameCipher.encrypt
      rw [if_neg (by decide), if_neg (by decide), if_neg (by decide)]
      dsimp only
      split
      · next hnil =>
        exfalso
        have hlen := congrArg List.length hnil
        simp [writeU64BE, BigEndian.length_encode] at hlen
      · exact ⟨_, rfl⟩
    obtain ⟨datagram, hdatagram⟩ := hsends
    rw [← length_udpSend hdatagram]
    exact h running datagram hdatagram
  · intro hle m datagram hdatagram
    rw [length_udpSend hdatagram]
    exact hle

end CliTunnelManager

/-! ### The outbox -/

/-- The recovery data is cut into blocks of this size. -/
def Cm256.Sized (cm : Cm256) : Prop := ∀ n m blockBytes originals recovery,
  cm.encode n m blockBytes originals = some recovery → originals.length = n →
  (∀ b ∈ originals, b.length = blockBytes) →
    recovery.length = m ∧ ∀ b ∈ recovery, b.length = blockBytes

structure Outbox where
  fec : Bool
  encoder : CliFecEncoder

namespace Outbox

inductive Input where
  | hand (payload : Bytes)
  | flush

/-- The call of the encoder. -/
def Input.call : Input → CliFecEncoder.Call
  | .hand payload => .addPacket payload
  | .flush => .update

def step (cm : Cm256) (o : Outbox) (i : Input) : List Bytes × Outbox :=
  if o.fec then
    let (packets, encoder) := o.encoder.step cm i.call
    (packets, { o with encoder := encoder })
  else (i.call.payload, o)

def run (cm : Cm256) (o : Outbox) : List Input → List Bytes × Outbox
  | [] => ([], o)
  | i :: is => ((o.step cm i).1 ++ ((o.step cm i).2.run cm is).1, ((o.step cm i).2.run cm is).2)

variable {cm : Cm256} {o : Outbox}

theorem run_append (o : Outbox) (is is' : List Input) :
    o.run cm (is ++ is') = ((o.run cm is).1 ++ ((o.run cm is).2.run cm is').1,
      ((o.run cm is).2.run cm is').2) := by
  induction is generalizing o with
  | nil => rfl
  | cons i is ih =>
    rw [List.cons_append, run, run, ih]
    dsimp only
    rw [List.append_assoc]

/-- Every payload in the buffer counts for the block size. -/
def Covers (e : CliFecEncoder) : Prop := ∀ p ∈ e.buffer, p.length ≤ e.maxBlockSize

theorem Covers.collect {e : CliFecEncoder} (h : Covers e) (c : CliFecEncoder.Call) :
    Covers (e.collect c) := by
  cases c with
  | addPacket payload =>
    intro p hp
    simp only [CliFecEncoder.collect, List.mem_append, List.mem_singleton] at hp ⊢
    rcases hp with hp | rfl
    · have hle := h p hp
      split <;> omega
    · split <;> omega
  | update => exact h

/-- All packets of a group have one size. -/
theorem length_flush (hcm : cm.Sized) {e : CliFecEncoder} (h : Covers e) :
    ∀ packet ∈ (e.flush cm).1, packet.length = 6 + e.maxBlockSize := by
  intro packet hp
  unfold CliFecEncoder.flush at hp
  split at hp
  · cases hp
  dsimp only at hp
  have hsizes : ∀ b ∈ e.buffer.map (CliFecEncoder.padded (2 + e.maxBlockSize)),
      b.length = 2 + e.maxBlockSize := by
    intro b hb
    obtain ⟨p, hbuffer, rfl⟩ := List.mem_map.mp hb
    have hle := h p hbuffer
    exact CliFecEncoder.length_padded (by omega)
  rcases List.mem_append.mp hp with hp | hp
  · obtain ⟨⟨block, i⟩, hmem, rfl⟩ := List.mem_map.mp hp
    have hlen := hsizes block (List.fst_mem_of_mem_zipIdx hmem)
    simp only [fecHeader, List.length_append, List.length_cons, List.length_nil, hlen]
    omega
  · split at hp
    · next recovery hencode =>
      obtain ⟨⟨block, i⟩, hmem, rfl⟩ := List.mem_map.mp hp
      have hlen :=
        (hcm _ _ _ _ _ hencode (List.length_map _) hsizes).2 block (List.fst_mem_of_mem_zipIdx hmem)
      simp only [fecHeader, List.length_append, List.length_cons, List.length_nil, hlen]
      omega
    · cases hp

theorem flush_ne_nil (cm : Cm256) {e : CliFecEncoder} (h : e.buffer ≠ []) :
    (e.flush cm).1 ≠ [] := by
  unfold CliFecEncoder.flush
  rw [if_neg h]
  dsimp only
  intro hnil
  have hlen := congrArg List.length (List.append_eq_nil_iff.mp hnil).1
  simp only [List.length_map, List.length_zipIdx, List.length_nil] at hlen
  exact h (List.length_eq_zero_iff.mp hlen)

theorem covers_flush (cm : Cm256) {e : CliFecEncoder} (h : e.buffer ≠ []) :
    Covers (e.flush cm).2 := by
  rw [CliFecEncoder.flush_snd cm h]
  exact nofun

/-- The encoder holds nothing longer than the bound. -/
structure Bounded (o : Outbox) (bound : Nat) : Prop where
  covers : Covers o.encoder
  max : o.encoder.maxBlockSize ≤ bound

theorem step_bounded (hcm : cm.Sized) {bound : Nat} (h : o.Bounded bound) {i : Input}
    (hi : ∀ p ∈ i.call.payload, p.length ≤ bound) :
    (o.step cm i).2.Bounded bound ∧ (o.step cm i).2.fec = o.fec ∧
      ∀ packet ∈ (o.step cm i).1, packet.length ≤ if o.fec then 6 + bound else bound := by
  unfold step
  cases hfec : o.fec with
  | false => exact ⟨h, hfec, hi⟩
  | true =>
    rw [if_pos rfl, if_pos rfl]
    dsimp only
    have hcovers := h.covers.collect i.call
    have hmax : (o.encoder.collect i.call).maxBlockSize ≤ bound := by
      have hold := h.max
      cases i with
      | hand payload =>
        have hnew := hi payload (List.mem_singleton_self _)
        simp only [Input.call, CliFecEncoder.collect]
        split <;> omega
      | flush => exact hold
    rcases CliFecEncoder.step_cases cm o.encoder i.call with ⟨hstep, -⟩ | ⟨hstep, hne⟩
    · rw [hstep]
      refine ⟨⟨hcovers, hmax⟩, rfl, ?_⟩
      intro packet hp
      exact absurd hp List.not_mem_nil
    · rw [hstep]
      refine ⟨⟨covers_flush cm hne, ?_⟩, rfl, fun packet hp => ?_⟩
      · dsimp only
        rw [CliFecEncoder.flush_snd cm hne]
        exact Nat.zero_le _
      · rw [length_flush hcm hcovers packet hp]
        omega

/-- Short payloads make short packets. -/
theorem run_bounded (hcm : cm.Sized) {bound : Nat} (h : o.Bounded bound) {is : List Input}
    (hi : ∀ i ∈ is, ∀ p ∈ i.call.payload, p.length ≤ bound) :
    ∀ packet ∈ (o.run cm is).1, packet.length ≤ if o.fec then 6 + bound else bound := by
  induction is generalizing o with
  | nil =>
    intro packet hp
    exact absurd hp List.not_mem_nil
  | cons i is ih =>
    obtain ⟨hbounded, hfec, hpackets⟩ := step_bounded hcm h (hi i List.mem_cons_self)
    intro packet hp
    rcases List.mem_append.mp hp with hp | hp
    · exact hpackets packet hp
    · have hle := ih hbounded (fun i' hi' => hi i' (List.mem_cons_of_mem _ hi')) packet hp
      rwa [hfec] at hle

/-- A payload waits in the buffer, or a packet of its group was put out. -/
theorem step_puts_out (hcm : cm.Sized) (hfec : o.fec = true) (h : Covers o.encoder) (i : Input)
    {p : Bytes} (hp : p ∈ o.encoder.buffer ∨ p ∈ i.call.payload) :
    p ∈ (o.step cm i).2.encoder.buffer ∨ ∃ packet ∈ (o.step cm i).1,
    6 + p.length ≤ packet.length := by
  have hcovers := h.collect i.call
  have hmem : p ∈ (o.encoder.collect i.call).buffer := by
    rw [CliFecEncoder.buffer_collect]
    exact List.mem_append.mpr hp
  unfold step
  rw [if_pos hfec]
  dsimp only
  rcases CliFecEncoder.step_cases cm o.encoder i.call with ⟨hstep, -⟩ | ⟨hstep, hne⟩
  · rw [hstep]
    exact Or.inl hmem
  · rw [hstep]
    obtain ⟨packet, hpacket⟩ := List.exists_mem_of_ne_nil _ (flush_ne_nil cm hne)
    refine Or.inr ⟨packet, hpacket, ?_⟩
    rw [length_flush hcm hcovers packet hpacket]
    have hle := hcovers p hmem
    omega

theorem covers_step (cm : Cm256) (hfec : o.fec = true) (h : Covers o.encoder) (i : Input) :
    Covers (o.step cm i).2.encoder ∧ (o.step cm i).2.fec = true := by
  unfold step
  rw [if_pos hfec]
  dsimp only
  rcases CliFecEncoder.step_cases cm o.encoder i.call with ⟨hstep, -⟩ | ⟨hstep, hne⟩
  · rw [hstep]
    exact ⟨h.collect i.call, hfec⟩
  · rw [hstep]
    exact ⟨covers_flush cm hne, hfec⟩

theorem run_puts_out (hcm : cm.Sized) (hfec : o.fec = true) (h : Covers o.encoder) {is : List Input}
    {p : Bytes} (hp : p ∈ o.encoder.buffer ∨ ∃ i ∈ is, p ∈ i.call.payload) :
    p ∈ (o.run cm is).2.encoder.buffer ∨ ∃ packet ∈ (o.run cm is).1,
    6 + p.length ≤ packet.length := by
  induction is generalizing o with
  | nil =>
    rcases hp with hp | ⟨i, hi, -⟩
    · exact Or.inl hp
    · cases hi
  | cons i is ih =>
    obtain ⟨hcovers, hfec'⟩ := covers_step cm hfec h i
    have hlater : p ∈ (o.step cm i).2.encoder.buffer ∨ (∃ i' ∈ is, p ∈ i'.call.payload) →
        p ∈ (o.run cm (i :: is)).2.encoder.buffer ∨ ∃ packet ∈ (o.run cm (i :: is)).1,
        6 + p.length ≤ packet.length := by
      intro hp'
      rcases ih hfec' hcovers hp' with hbuffer | ⟨packet, hmem, hle⟩
      · exact Or.inl hbuffer
      · exact Or.inr ⟨packet, List.mem_append_right _ hmem, hle⟩
    have hnow : p ∈ o.encoder.buffer ∨ p ∈ i.call.payload →
        p ∈ (o.run cm (i :: is)).2.encoder.buffer ∨ ∃ packet ∈ (o.run cm (i :: is)).1,
        6 + p.length ≤ packet.length := by
      intro hp'
      rcases step_puts_out hcm hfec h i hp' with hbuffer | ⟨packet, hmem, hle⟩
      · exact hlater (Or.inl hbuffer)
      · exact Or.inr ⟨packet, List.mem_append_left _ hmem, hle⟩
    rcases hp with hp | ⟨i', hi', hp⟩
    · exact hnow (Or.inl hp)
    · rcases List.mem_cons.mp hi' with rfl | hi'
      · exact hnow (Or.inr hp)
      · exact hlater (Or.inr ⟨i', hi', hp⟩)

theorem buffer_flush (cm : Cm256) (hfec : o.fec = true) :
    (o.step cm .flush).2.encoder.buffer = [] := by
  unfold step
  rw [if_pos hfec]
  dsimp only
  change (o.encoder.update cm).2.buffer = []
  unfold CliFecEncoder.update
  by_cases hempty : o.encoder.buffer = []
  · rw [if_pos hempty]
    exact hempty
  · rw [if_neg hempty, CliFecEncoder.flush_snd cm hempty]

theorem run_fec (cm : Cm256) (o : Outbox) (is : List Input) : (o.run cm is).2.fec = o.fec := by
  induction is generalizing o with
  | nil => rfl
  | cons i is ih =>
    rw [run, ih]
    unfold step
    by_cases hfec : o.fec = true
    · simp only [hfec, if_true]
    · simp only [hfec, Bool.false_eq_true, if_false]

/-- What the encoder adds to the longest payload of a group. -/
def overhead (o : Outbox) : Nat := if o.fec then 6 else 0

theorem run_le (hcm : cm.Sized) {bound : Nat} (h : o.Bounded bound) {is : List Input}
    (hi : ∀ i ∈ is, ∀ p ∈ i.call.payload, p.length ≤ bound) :
    ∀ packet ∈ (o.run cm is).1, packet.length ≤ bound + o.overhead := by
  intro packet hp
  have hle := run_bounded hcm h hi packet hp
  unfold overhead
  split at hle
  · rw [if_pos ‹_›]
    omega
  · rw [if_neg ‹_›]
    omega

/-- Without error correction the payloads are the packets. -/
theorem mem_run_plain (cm : Cm256) (hfec : o.fec = false) {is : List Input} {p : Bytes}
    (hp : ∃ i ∈ is, p ∈ i.call.payload) : p ∈ (o.run cm is).1 := by
  have hstep : ∀ i : Input, o.step cm i = (i.call.payload, o) := by
    intro i
    simp [step, hfec]
  induction is with
  | nil =>
    obtain ⟨i, hi, -⟩ := hp
    cases hi
  | cons i is ih =>
    obtain ⟨i', hi', hp⟩ := hp
    rw [run, hstep]
    rcases List.mem_cons.mp hi' with rfl | hi'
    · exact List.mem_append_left _ hp
    · exact List.mem_append_right _ (ih ⟨i', hi', hp⟩)

/-- **The packets of a run that ends with a flush are short exactly when its payloads are.** -/
theorem run_le_iff (hcm : cm.Sized) (h : o.Bounded 0) (is : List Input) (n : Nat) :
    (∀ packet ∈ (o.run cm (is ++ [.flush])).1, packet.length ≤ n + o.overhead) ↔
      ∀ i ∈ is, ∀ p ∈ i.call.payload, p.length ≤ n := by
  constructor
  · intro hpackets i hi p hp
    cases hfec : o.fec with
    | false =>
      have hmem : p ∈ (o.run cm (is ++ [.flush])).1 := by
        refine mem_run_plain cm hfec ⟨i, List.mem_append_left _ hi, hp⟩
      have hle := hpackets p hmem
      simpa [overhead, hfec] using hle
    | true =>
      have hend : (o.run cm (is ++ [.flush])).2.encoder.buffer = [] := by
        rw [run_append]
        exact buffer_flush cm ((run_fec cm o is).trans hfec)
      rcases run_puts_out hcm hfec h.covers (Or.inr ⟨i, List.mem_append_left _ hi, hp⟩) with
        hbuffer | ⟨packet, hmem, hlong⟩
      · rw [hend] at hbuffer
        cases hbuffer
      · have hle := hpackets packet hmem
        simp only [overhead, hfec, if_true] at hle
        omega
  · intro hpayloads
    have hbounded : o.Bounded n := ⟨h.covers, h.max.trans (Nat.zero_le n)⟩
    have hall : ∀ i ∈ is ++ [.flush], ∀ p ∈ i.call.payload, p.length ≤ n := by
      intro i hi p hp
      rcases List.mem_append.mp hi with hi | hi
      · exact hpayloads i hi p hp
      · rw [List.mem_singleton.mp hi] at hp
        cases hp
    exact run_le hcm hbounded hall

/-- Nothing but pings, their answers and flushes. -/
def Probes (is : List Input) : Prop := ∀ i ∈ is, ∀ p ∈ i.call.payload, p.length = 11

theorem probes_flush : Probes [.flush] := by
  intro i hi p hp
  rw [List.mem_singleton.mp hi] at hp
  cases hp

theorem Probes.append {is is' : List Input} (h : Probes is) (h' : Probes is') :
    Probes (is ++ is') := by
  intro i hi
  rcases List.mem_append.mp hi with hi | hi
  · exact h i hi
  · exact h' i hi

end Outbox

/-- The datagrams sent. -/
def TunnelEffect.sends (effects : List TunnelEffect) : List Bytes :=
  effects.filterMap fun
    | .send datagram => some datagram
    | _ => none

theorem TunnelEffect.sends_append (es es' : List TunnelEffect) :
    TunnelEffect.sends (es ++ es') = TunnelEffect.sends es ++ TunnelEffect.sends es' :=
  List.filterMap_append

/-- The sending side of a transport. -/
structure Sender (T : Type) where
  outbox : T → Outbox
  wrap : T → Bytes → Bytes

namespace Sender

variable {T : Type} {S : Sender T} {cm : Cm256} {t t₁ : T} {out : List TunnelEffect × T}
    {is is' : List Outbox.Input}

/-- What a call sends is what the outbox makes of these inputs. -/
structure Emits (S : Sender T) (cm : Cm256) (t : T) (out : List TunnelEffect × T)
    (is : List Outbox.Input) : Prop where
  sends : TunnelEffect.sends out.1 = ((S.outbox t).run cm is).1.map (S.wrap t)
  outbox : S.outbox out.2 = ((S.outbox t).run cm is).2
  wrap : S.wrap out.2 = S.wrap t

theorem Emits.append {effects : List TunnelEffect} (h : S.Emits cm t (effects, t₁) is)
    (h' : S.Emits cm t₁ out is') :
    S.Emits cm t (effects ++ out.1, out.2) (is ++ is') := by
  have houtbox : S.outbox t₁ = ((S.outbox t).run cm is).2 := h.outbox
  have hwrap : S.wrap t₁ = S.wrap t := h.wrap
  refine ⟨?_, ?_, h'.wrap.trans h.wrap⟩
  · rw [TunnelEffect.sends_append, h.sends, h'.sends, Outbox.run_append, List.map_append,
      houtbox, hwrap]
  · rw [h'.outbox, Outbox.run_append, houtbox]

/-- A step before that does not touch the sending side. -/
theorem Emits.after (h : S.Emits cm t₁ out is) (houtbox : S.outbox t₁ = S.outbox t)
    (hwrap : S.wrap t₁ = S.wrap t) :
    S.Emits cm t out is := by
  refine ⟨?_, ?_, h.wrap.trans hwrap⟩
  · rw [h.sends, houtbox, hwrap]
  · rw [h.outbox, houtbox]

/-- A call that sends nothing. -/
theorem emits_nil (hsends : TunnelEffect.sends out.1 = []) (houtbox : S.outbox out.2 = S.outbox t)
    (hwrap : S.wrap out.2 = S.wrap t) : S.Emits cm t out [] :=
  ⟨hsends, houtbox, hwrap⟩

theorem sends_map (wrap : Bytes → Bytes) (payloads : List Bytes) :
    TunnelEffect.sends (payloads.map fun payload => .send (wrap payload)) = payloads.map wrap := by
  induction payloads with
  | nil => rfl
  | cons payload payloads ih => exact congrArg _ ih

/-- The packets of one input, wrapped and sent. -/
theorem emits_of_step {i : Outbox.Input} {packets : List Bytes} {o : Outbox}
    (hstep : (S.outbox t).step cm i = (packets, o))
    (hsent : out.1 = packets.map fun payload => .send (S.wrap t payload))
    (houtbox : S.outbox out.2 = o) (hwrap : S.wrap out.2 = S.wrap t) : S.Emits cm t out [i] := by
  have hrun : (S.outbox t).run cm [i] = (packets, o) := by
    rw [Outbox.run, hstep, Outbox.run, List.append_nil]
  refine ⟨?_, ?_, hwrap⟩
  · rw [hrun, hsent, sends_map]
  · rw [hrun, houtbox]

/-- The headers of the relay and of the envelope take 39 bytes. -/
theorem Emits.fits_iff {K : Crypto} {mtu : Nat} (h : S.Emits cm t out is)
    (hwrap : ∀ payload, (S.wrap t payload).length = 10 + payload.length) :
    (∀ packet ∈ TunnelEffect.sends out.1, CliTunnelManager.Fits K mtu packet) ↔
      ∀ packet ∈ ((S.outbox t).run cm is).1, packet.length + 39 ≤ mtu := by
  rw [h.sends, List.forall_mem_map]
  refine forall₂_congr fun packet _ => ?_
  rw [CliTunnelManager.fits_iff, hwrap]
  omega

/-- Short payloads make datagrams that fit. -/
theorem Emits.fits_of_short {K : Crypto} {mtu : Nat} (hcm : cm.Sized) (h : S.Emits cm t out is)
    (hwrap : ∀ payload, (S.wrap t payload).length = 10 + payload.length)
    (hempty : (S.outbox t).Bounded 0) (cap : Nat) (hcap : cap + (S.outbox t).overhead + 39 ≤ mtu)
    (hshort : ∀ i ∈ is, ∀ p ∈ i.call.payload, p.length ≤ cap) :
    ∀ packet ∈ TunnelEffect.sends out.1, CliTunnelManager.Fits K mtu packet := by
  rw [h.fits_iff hwrap]
  intro packet hpacket
  have hbounded : (S.outbox t).Bounded cap := ⟨hempty.covers, hempty.max.trans (Nat.zero_le _)⟩
  have hle := Outbox.run_le hcm hbounded hshort packet hpacket
  omega

/-- If everything fits up to a flush, the payloads were short. -/
theorem Emits.short_of_fits {K : Crypto} {mtu : Nat} (hcm : cm.Sized)
    (h : S.Emits cm t out (is ++ [.flush]))
    (hwrap : ∀ payload, (S.wrap t payload).length = 10 + payload.length)
    (hempty : (S.outbox t).Bounded 0) (cap : Nat) (hcap : mtu ≤ cap + (S.outbox t).overhead + 39)
    (hfits : ∀ packet ∈ TunnelEffect.sends out.1, CliTunnelManager.Fits K mtu packet) :
    ∀ i ∈ is, ∀ p ∈ i.call.payload, p.length ≤ cap := by
  rw [h.fits_iff hwrap] at hfits
  refine (Outbox.run_le_iff hcm hempty is cap).mp fun packet hpacket => ?_
  have hle := hfits packet hpacket
  omega

end Sender

theorem Outbox.step_fec (cm : Cm256) (e : CliFecEncoder) (i : Outbox.Input) :
    Outbox.step cm ⟨true, e⟩ i = ((e.step cm i.call).1, ⟨true, (e.step cm i.call).2⟩) := rfl

/-! ### The budgets of the two transports -/

theorem elapsedMs_self (now : Nat) : elapsedMs now now = 0 := by
  unfold elapsedMs
  omega

theorem rawBudget_eq {mtu : Nat} (hmtu : isValidRoomMtuValue mtu = true) (fecMode : FecMode) :
    transportPayloadBudget mtu .relayRawUdp (decide (fecMode ≠ .none)) true + (if fecMode =
      .none then 45 else 49) = mtu ∧
      256 ≤ transportPayloadBudget mtu .relayRawUdp (decide (fecMode ≠ .none)) true := by
  have hcases := of_decide_eq_true hmtu
  rcases hcases with rfl | rfl | rfl <;> cases fecMode <;> decide

theorem kcpBudget_eq {mtu : Nat} (hmtu : isValidRoomMtuValue mtu = true) (fecMode : FecMode) :
    kcpMtuFromRoomMtu mtu (decide (fecMode ≠ .none)) true + (if fecMode = .none then 39
      else 43) = mtu ∧
      256 ≤ kcpMtuFromRoomMtu mtu (decide (fecMode ≠ .none)) true := by
  have hcases := of_decide_eq_true hmtu
  rcases hcases with rfl | rfl | rfl <;> cases fecMode <;> decide

/-! ### The raw transport -/

namespace CliRawUdpTunnel

open Sender

variable {cm : Cm256} {t : CliRawUdpTunnel}

def outbox (t : CliRawUdpTunnel) : Outbox := ⟨decide (t.fecMode ≠ .none), t.fecEncoder⟩

def sender : Sender CliRawUdpTunnel := ⟨outbox, rawPacket⟩

theorem outbox_fec {t : CliRawUdpTunnel} (h : t.fecMode ≠ .none) :
    outbox t = ⟨true, t.fecEncoder⟩ := by
  rw [outbox, decide_eq_true h]

theorem step_plain {t : CliRawUdpTunnel} (h : ¬ t.fecMode ≠ .none) (i : Outbox.Input) :
    (outbox t).step cm i = (i.call.payload, outbox t) := by
  simp [outbox, Outbox.step, h]

theorem sendRawPackets_eq (t : CliRawUdpTunnel) (now : Nat) (payloads : List Bytes) :
    ∃ sent, t.sendRawPackets now payloads =
      (payloads.map fun payload => .send (t.rawPacket payload),
        { t with lastSendTime := sent }) := by
  induction payloads generalizing t with
  | nil => exact ⟨t.lastSendTime, rfl⟩
  | cons payload payloads ih =>
    obtain ⟨sent, hsent⟩ := ih { t with lastSendTime := now }
    refine ⟨sent, ?_⟩
    rw [sendRawPackets, sendRawPacket]
    dsimp only
    rw [hsent]
    rfl

theorem emits_sendFragment (cm : Cm256) (t : CliRawUdpTunnel) (now : Nat) (f : Fragment) :
    sender.Emits cm t (t.sendFragment cm now f) [.hand f.bytes] := by
  unfold sendFragment
  dsimp only
  by_cases hfec : t.fecMode ≠ .none
  · rw [if_pos hfec]
    obtain ⟨sent, hsent⟩ := sendRawPackets_eq { t with
      fecEncoder := (t.fecEncoder.addPacket cm f.bytes).2 } now
      (t.fecEncoder.addPacket cm f.bytes).1
    rw [hsent]
    have hstep : (outbox t).step cm (.hand f.bytes) = ((t.fecEncoder.addPacket cm f.bytes).1,
        ⟨true, (t.fecEncoder.addPacket cm f.bytes).2⟩) := by
      rw [outbox_fec hfec, Outbox.step_fec]
      rfl
    exact emits_of_step hstep rfl (outbox_fec hfec) rfl
  · rw [if_neg hfec]
    exact emits_of_step (step_plain hfec (.hand f.bytes)) (List.map_singleton).symm rfl rfl

theorem emits_sendFragments (cm : Cm256) (t : CliRawUdpTunnel) (now : Nat) (fs : List Fragment) :
    sender.Emits cm t (t.sendFragments cm now fs) (fs.map fun f => .hand f.bytes) := by
  induction fs generalizing t with
  | nil => exact emits_nil rfl rfl rfl
  | cons f fs ih => exact (emits_sendFragment cm t now f).append (ih _)

theorem length_bytes (f : Fragment) : f.bytes.length = 6 + f.payload.length := by
  simp only [Fragment.bytes, fragHeader, List.length_append, length_writeU16, List.length_cons,
    List.length_nil]

theorem emits_sendProbe (cm : Cm256) (t : CliRawUdpTunnel) (now : Nat) (probeType : UInt8)
    {timestamp : Bytes} (hlen : timestamp.length = 4) :
    ∃ is, sender.Emits cm t (t.sendProbe cm now probeType timestamp) is ∧ Outbox.Probes is := by
  refine ⟨_, (emits_sendFragment cm _ now _).after rfl rfl, ?_⟩
  intro i hi p hp
  rw [List.mem_singleton.mp hi] at hp
  rw [List.mem_singleton.mp hp, length_bytes, List.length_cons, hlen]

/-- Reassembly sends nothing and changes the table only. -/
structure TableOnly (t : CliRawUdpTunnel) (out : List TunnelEffect × CliRawUdpTunnel) : Prop where
  sends : TunnelEffect.sends out.1 = []
  tunnel : out.2 = { t with reassembly := out.2.reassembly }

theorem TableOnly.after {t₁ : CliRawUdpTunnel} {out : List TunnelEffect × CliRawUdpTunnel}
    (h : TableOnly t₁ out) (ht : t₁ = { t with reassembly := t₁.reassembly }) :
    TableOnly t out := by
  refine ⟨h.sends, ?_⟩
  have hout := h.tunnel
  rw [ht] at hout
  exact hout

theorem TableOnly.emits {out : List TunnelEffect × CliRawUdpTunnel} (h : TableOnly t out) :
    sender.Emits cm t out [] := by
  have hout := h.tunnel
  refine emits_nil h.sends ?_ ?_ <;> rw [hout] <;> rfl

theorem tableOnly_deliverIfComplete (t : CliRawUdpTunnel) (msgId : Nat) :
    TableOnly t (t.deliverIfComplete msgId) := by
  unfold deliverIfComplete
  split
  · exact ⟨rfl, rfl⟩
  split
  · exact ⟨rfl, rfl⟩
  split
  · exact ⟨rfl, rfl⟩
  · refine ⟨?_, rfl⟩
    dsimp only
    split
    · rfl
    · rfl

theorem tableOnly_storeFragment (t : CliRawUdpTunnel) (f : Fragment) :
    TableOnly t (t.storeFragment f) := by
  unfold storeFragment
  split
  · exact ⟨rfl, rfl⟩
  split
  · exact tableOnly_deliverIfComplete t f.msgId
  dsimp only
  split
  · exact ⟨rfl, rfl⟩
  split
  · exact ⟨rfl, rfl⟩
  · exact (tableOnly_deliverIfComplete _ f.msgId).after rfl

theorem tableOnly_reassemble (t : CliRawUdpTunnel) (now : Nat) (f : Fragment) :
    TableOnly t (t.reassemble now f) := by
  unfold reassemble
  split
  · split
    · exact ⟨rfl, rfl⟩
    · exact tableOnly_storeFragment t f
  · dsimp only
    split
    · exact ⟨rfl, rfl⟩
    · exact (tableOnly_storeFragment _ f).after rfl

theorem emits_rttMs (t : CliRawUdpTunnel) (rttMs : Int) :
    sender.Emits cm t ([], { t with rttMs := rttMs }) [] :=
  emits_nil rfl rfl rfl

theorem emits_processFrag (cm : Cm256) (t : CliRawUdpTunnel) (now : Nat) (data : Bytes) :
    ∃ is, sender.Emits cm t (t.processFrag cm now data) is ∧ Outbox.Probes is := by
  unfold processFrag
  split
  · exact ⟨[], emits_nil rfl rfl rfl, nofun⟩
  next f _ =>
  split
  · exact ⟨[], emits_nil rfl rfl rfl, nofun⟩
  split
  · next hping =>
    refine emits_sendProbe cm t now _ ?_
    rw [List.length_tail, hping.2.1]
  split
  · exact ⟨[], emits_rttMs t _, nofun⟩
  split
  · refine ⟨[], emits_nil ?_ rfl rfl, nofun⟩
    dsimp only
    split
    · rfl
    · rfl
  · exact ⟨[], (tableOnly_reassemble t now f).emits, nofun⟩

theorem emits_processFrags (cm : Cm256) (t : CliRawUdpTunnel) (now : Nat) (payloads : List Bytes) :
    ∃ is, sender.Emits cm t (t.processFrags cm now payloads) is ∧ Outbox.Probes is := by
  induction payloads generalizing t with
  | nil => exact ⟨[], emits_nil rfl rfl rfl, nofun⟩
  | cons payload payloads ih =>
    obtain ⟨is, hemits, hprobes⟩ := emits_processFrag cm t now payload
    obtain ⟨is', hemits', hprobes'⟩ := ih (t.processFrag cm now payload).2
    exact ⟨is ++ is', hemits.append hemits', hprobes.append hprobes'⟩

theorem emits_feedInput (cm : Cm256) (t : CliRawUdpTunnel) (now : Nat) (data : Bytes) :
    ∃ is, sender.Emits cm t (t.feedInput cm now data) is ∧ Outbox.Probes is := by
  unfold feedInput
  split
  · exact ⟨[], emits_nil rfl rfl rfl, nofun⟩
  dsimp only
  split
  · obtain ⟨is, hemits, hprobes⟩ := emits_processFrags cm { t with
      lastRecvTime := now, dead := false, fecDecoder := (t.fecDecoder.addPacket cm now data).2 } now
      (FecEffect.outputs (t.fecDecoder.addPacket cm now data).1)
    exact ⟨is, hemits.after rfl rfl, hprobes⟩
  · obtain ⟨is, hemits, hprobes⟩ := emits_processFrag cm { t with
      lastRecvTime := now, dead := false } now data
    exact ⟨is, hemits.after rfl rfl, hprobes⟩

theorem emits_flushEncoder (cm : Cm256) (t : CliRawUdpTunnel) (now : Nat) :
    sender.Emits cm t (t.flushEncoder cm now) [.flush] := by
  unfold flushEncoder
  by_cases hfec : t.fecMode ≠ .none
  · rw [if_pos hfec]
    dsimp only
    obtain ⟨sent, hsent⟩ := sendRawPackets_eq { t with
      fecEncoder := (t.fecEncoder.update cm).2 } now
      (t.fecEncoder.update cm).1
    rw [hsent]
    have hstep : (outbox t).step cm .flush = ((t.fecEncoder.update cm).1,
        ⟨true, (t.fecEncoder.update cm).2⟩) := by
      rw [outbox_fec hfec, Outbox.step_fec]
      rfl
    exact emits_of_step hstep rfl (outbox_fec hfec) rfl
  · rw [if_neg hfec]
    exact emits_of_step (step_plain hfec .flush) List.map_nil.symm rfl rfl

/-- A tick flushes the encoder, unless the peer is found dead. -/
theorem emits_tick (cm : Cm256) {t : CliRawUdpTunnel} {now : Nat}
    (halive : ¬ (t.dead = false ∧ RAW_UDP_DEAD_TIMEOUT_MS < elapsedMs now t.lastRecvTime)) :
    ∃ is, sender.Emits cm t (t.update cm now) (is ++ [.flush]) ∧ Outbox.Probes is := by
  unfold update
  rw [if_neg halive]
  have hping : ∃ is, sender.Emits cm t
      (if RAW_UDP_KEEPALIVE_MS < elapsedMs now t.lastSendTime then t.sendPing cm now
        else ([], t)) is ∧ Outbox.Probes is := by
    split
    · exact emits_sendProbe cm t now _ (length_writeU32 now)
    · exact ⟨[], emits_nil rfl rfl rfl, nofun⟩
  generalize (if RAW_UDP_KEEPALIVE_MS < elapsedMs now t.lastSendTime then t.sendPing cm now
    else ([], t)) = ping
    at hping ⊢
  obtain ⟨pings, t₁⟩ := ping
  obtain ⟨is, hemits, hprobes⟩ := hping
  have hboth := hemits.append (emits_flushEncoder cm t₁ now)
  dsimp only
  generalize t₁.flushEncoder cm now = flushed at hboth ⊢
  obtain ⟨packets, t₂⟩ := flushed
  dsimp only at hboth ⊢
  refine ⟨is, ⟨hboth.sends, ?_, ?_⟩, hprobes⟩
  · rw [← hboth.outbox]
    split <;> rfl
  · rw [← hboth.wrap]
    split <;> rfl

theorem emits_update (cm : Cm256) (t : CliRawUdpTunnel) (now : Nat) :
    ∃ is, sender.Emits cm t (t.update cm now) is ∧ Outbox.Probes is := by
  by_cases hdead : t.dead = false ∧ RAW_UDP_DEAD_TIMEOUT_MS < elapsedMs now t.lastRecvTime
  · have hupdate : t.update cm now = ([.dead], { t with dead := true }) := by
      unfold update
      rw [if_pos hdead]
    rw [hupdate]
    exact ⟨[], emits_nil rfl rfl rfl, nofun⟩
  · obtain ⟨is, hemits, hprobes⟩ := emits_tick cm hdead
    exact ⟨_, hemits, hprobes.append Outbox.probes_flush⟩

/-- One call of a sender. -/
def call (cm : Cm256) (t : CliRawUdpTunnel) : SenderCall → List TunnelEffect × CliRawUdpTunnel
  | .send now packet => (t.send cm now packet).2
  | .update now => t.update cm now
  | .feedInput now data => t.feedInput cm now data

def callAll (cm : Cm256) (t : CliRawUdpTunnel) :
    List SenderCall → List TunnelEffect × CliRawUdpTunnel
  | [] => ([], t)
  | c :: cs =>
    ((t.call cm c).1 ++ ((t.call cm c).2.callAll cm cs).1, ((t.call cm c).2.callAll cm cs).2)

theorem evolves_call (cm : Cm256) (t : CliRawUdpTunnel) (c : SenderCall) :
    Evolves t (t.call cm c).2 := by
  cases c with
  | send now packet => exact evolves_send cm t now packet
  | update now => exact evolves_update cm t now
  | feedInput now data => exact evolves_feedInput cm t now data

/-- The fragments of a packet are no longer than the budget, and the first is as long as
    it can be. -/
theorem length_outgoing_bytes (hmtu : isValidRoomMtuValue t.roomMtu = true) {packet : Bytes}
    (hpos : 1 ≤ packet.length) (hle : packet.length ≤ t.roomMtu) :
    (∀ i < t.fragTotal packet,
      (t.outgoing packet i).bytes.length ≤ 6 + min packet.length t.maxFragmentPayload) ∧
      (t.outgoing packet 0).bytes.length = 6 + min packet.length t.maxFragmentPayload := by
  obtain ⟨h₁, h₂, h₃, h₄⟩ := fragTotal_bounds hmtu hpos hle
  refine ⟨fun i hi => ?_, ?_⟩
  · rw [length_bytes]
    simp only [outgoing, fragmentOf, List.length_take, List.length_drop]
    omega
  · rw [length_bytes, length_outgoing hmtu hpos hle (by omega)]
    generalize t.fragTotal packet = k at h₁ h₂ h₃ h₄ ⊢
    obtain rfl | rfl : k = 1 ∨ k = 2 := by omega
    · simp only [Nat.reduceAdd, Nat.sub_self, Nat.mul_zero, Nat.sub_zero, if_true]
      omega
    · simp only [Nat.reduceAdd, Nat.reduceEqDiff, if_false]
      omega

/-- What the calls hand to the outbox: the fragments of the packets, and probes. -/
structure Hands (cap : Nat) (calls : List SenderCall) (is : List Outbox.Input) : Prop where
  only : ∀ i ∈ is, ∀ p ∈ i.call.payload,
    p.length = 11 ∨ ∃ now packet, .send now packet ∈ calls ∧ p.length ≤ 6 + min packet.length cap
  all : ∀ now packet, .send now packet ∈ calls → packet ≠ [] →
    ∃ i ∈ is, ∃ p ∈ i.call.payload, p.length = 6 + min packet.length cap

theorem Hands.cons {cap : Nat} {c : SenderCall} {calls : List SenderCall}
    {is is' : List Outbox.Input} (h : Hands cap [c] is) (h' : Hands cap calls is') :
    Hands cap (c :: calls) (is ++ is') := by
  constructor
  · intro i hi p hp
    rcases List.mem_append.mp hi with hi | hi
    · refine (h.only i hi p hp).imp id ?_
      rintro ⟨now, packet, hmem, hle⟩
      exact ⟨now, packet, List.mem_cons.mpr (Or.inl (List.mem_singleton.mp hmem)), hle⟩
    · refine (h'.only i hi p hp).imp id ?_
      rintro ⟨now, packet, hmem, hle⟩
      exact ⟨now, packet, List.mem_cons_of_mem _ hmem, hle⟩
  · intro now packet hmem hne
    rcases List.mem_cons.mp hmem with heq | hmem
    · obtain ⟨i, hi, hp⟩ := h.all now packet (List.mem_singleton.mpr heq) hne
      exact ⟨i, List.mem_append_left _ hi, hp⟩
    · obtain ⟨i, hi, hp⟩ := h'.all now packet hmem hne
      exact ⟨i, List.mem_append_right _ hi, hp⟩

theorem call_emits (cm : Cm256) (hmtu : isValidRoomMtuValue t.roomMtu = true) {c : SenderCall}
    (hc : ∀ now packet, c = .send now packet → packet.length ≤ t.roomMtu) :
    ∃ is, sender.Emits cm t (t.call cm c) is ∧ Hands t.maxFragmentPayload [c] is := by
  have hprobes : ∀ {is : List Outbox.Input}, (∀ now packet, c ≠ .send now packet) →
    Outbox.Probes is →
      Hands t.maxFragmentPayload [c] is := by
    intro is hnot h
    refine ⟨fun i hi p hp => Or.inl (h i hi p hp), fun now packet hmem => ?_⟩
    exact absurd (List.mem_singleton.mp hmem).symm (hnot now packet)
  cases c with
  | send now packet =>
    by_cases hnil : packet = []
    · refine ⟨[], ?_, nofun, fun now' packet' hmem hne => ?_⟩
      · have hsend : (t.send cm now packet).2 = ([], t) := by
          unfold send
          rw [if_pos hnil]
        rw [call, hsend]
        exact emits_nil rfl rfl rfl
      · have heq := List.mem_singleton.mp hmem
        cases heq
        exact absurd hnil hne
    · have hpos : 1 ≤ packet.length := List.length_pos_iff.mpr hnil
      have hle := hc now packet rfl
      have htotal := (fragTotal_bounds hmtu hpos hle).1
      obtain ⟨hbound, hfirst⟩ := length_outgoing_bytes hmtu hpos hle
      rw [call, send_eq cm now hmtu hpos hle]
      refine ⟨_, (emits_sendFragments cm _ now _).after rfl rfl, ?_, ?_⟩
      · intro i hi p hp
        simp only [List.mem_map, List.mem_range] at hi
        obtain ⟨f, ⟨k, hk, rfl⟩, rfl⟩ := hi
        rw [List.mem_singleton.mp hp]
        exact Or.inr ⟨now, packet, List.mem_singleton_self _, hbound k hk⟩
      · intro now' packet' hmem _
        have heq := List.mem_singleton.mp hmem
        cases heq
        refine ⟨.hand (t.outgoing packet 0).bytes, ?_, _, List.mem_singleton_self _, hfirst⟩
        exact List.mem_map.mpr ⟨_, List.mem_map.mpr ⟨0, List.mem_range.mpr htotal, rfl⟩, rfl⟩
  | update now =>
    obtain ⟨is, hemits, h⟩ := emits_update cm t now
    exact ⟨is, hemits, hprobes (fun _ _ => nofun) h⟩
  | feedInput now data =>
    obtain ⟨is, hemits, h⟩ := emits_feedInput cm t now data
    exact ⟨is, hemits, hprobes (fun _ _ => nofun) h⟩

theorem callAll_emits (cm : Cm256) (hmtu : isValidRoomMtuValue t.roomMtu = true)
    {calls : List SenderCall}
    (hcalls : ∀ now packet, .send now packet ∈ calls → packet.length ≤ t.roomMtu) :
    ∃ is, sender.Emits cm t (t.callAll cm calls) is ∧ Hands t.maxFragmentPayload calls is := by
  induction calls generalizing t with
  | nil => exact ⟨[], emits_nil rfl rfl rfl, nofun, nofun⟩
  | cons c calls ih =>
    obtain ⟨is, hemits, hhands⟩ := call_emits cm hmtu fun now packet heq =>
      hcalls now packet (heq ▸ List.mem_cons_self)
    obtain ⟨hroom, hmax⟩ := maxFragmentPayload_of_settings (evolves_call cm t c).settings
    obtain ⟨is', hemits', hhands'⟩ := ih (t := (t.call cm c).2) (by rw [hroom]; exact hmtu) (by
      intro now packet hmem
      rw [hroom]
      exact hcalls now packet (List.mem_cons_of_mem _ hmem))
    rw [hmax] at hhands'
    exact ⟨is ++ is', hemits.append hemits', hhands.cons hhands'⟩

theorem callAll_append (cm : Cm256) (t : CliRawUdpTunnel) (calls calls' : List SenderCall) :
    t.callAll cm (calls ++ calls') =
    ((t.callAll cm calls).1 ++ ((t.callAll cm calls).2.callAll cm calls').1,
      ((t.callAll cm calls).2.callAll cm calls').2) := by
  induction calls generalizing t with
  | nil => rfl
  | cons c calls ih =>
    rw [List.cons_append, callAll, callAll, ih]
    dsimp only
    rw [List.append_assoc]

theorem length_udpRelayHeader (type : UInt8) (trafficClass srcPeerId dstPeerId : Nat) :
    (udpRelayHeader type trafficClass srcPeerId dstPeerId).length = 10 := by
  simp only [udpRelayHeader, List.length_append, List.length_cons, List.length_nil, length_writeU32]

/-- Every payload fits with its headers exactly when no packet of the calls takes up the
    whole budget. -/
theorem hands_fits_iff {mtu cap : Nat} {calls : List SenderCall} {is : List Outbox.Input}
    (h : Hands cap calls is) (hcap : cap + 49 = mtu) (hpos : 256 ≤ cap) :
    (∀ i ∈ is, ∀ p ∈ i.call.payload, p.length ≤ mtu - 45) ↔
      ∀ now packet, .send now packet ∈ calls → packet.length + 2 ≤ cap := by
  constructor
  · intro hpayloads now packet hmem
    by_cases hnil : packet = []
    · rw [hnil, List.length_nil]
      omega
    · obtain ⟨i, hi, p, hp, hlen⟩ := h.all now packet hmem hnil
      have hle := hpayloads i hi p hp
      omega
  · intro hpackets i hi p hp
    rcases h.only i hi p hp with hprobe | ⟨now, packet, hmem, hle⟩
    · omega
    · have hshort := hpackets now packet hmem
      omega

/-- **The datagrams of the raw transport**: with error correction they fit exactly when no
    packet takes up the last two bytes of the budget, and without it always. -/
theorem budget_iff {K : Crypto} (hcm : cm.Sized) {mtu : Nat} (hmtu : isValidRoomMtuValue mtu = true)
    (fecMode : FecMode) (trafficClass srcPeerId dstPeerId start : Nat) {calls : List SenderCall}
    (hcalls : ∀ now packet, .send now packet ∈ calls → packet.length ≤ mtu) :
    (∀ ticks : List Nat,
      ∀ packet ∈ TunnelEffect.sends (((create fecMode mtu trafficClass true start).setRelayMode
        srcPeerId dstPeerId).callAll cm (calls ++ ticks.map .update)).1,
        CliTunnelManager.Fits K mtu packet) ↔
      fecMode = .none ∨ ∀ now packet, .send now packet ∈ calls →
        packet.length + 2 ≤ transportPayloadBudget mtu .relayRawUdp true true := by
  generalize ht : (create fecMode mtu trafficClass true start).setRelayMode srcPeerId dstPeerId = t
  have hroom : t.roomMtu = mtu := by
    rw [← ht]
    exact if_pos hmtu
  have hmode : t.fecMode = fecMode := by rw [← ht]; rfl
  have hsecure : t.secureFrames = true := by rw [← ht]; rfl
  have hwrap : ∀ payload, (sender.wrap t payload).length = 10 + payload.length := by
    intro payload
    rw [← ht]
    exact (List.length_append).trans (congrArg (· + payload.length) (length_udpRelayHeader _ _ _ _))
  have hempty : (sender.outbox t).Bounded 0 := by
    rw [← ht]
    exact ⟨nofun, le_refl 0⟩
  have hvalid : isValidRoomMtuValue t.roomMtu = true := by rw [hroom]; exact hmtu
  have hcap : t.maxFragmentPayload + (if fecMode = .none then 45 else 49) = mtu ∧
      256 ≤ t.maxFragmentPayload := by
    rw [maxFragmentPayload, hroom, hmode, hsecure]
    exact rawBudget_eq hmtu fecMode
  have hemits : ∀ ticks : List Nat, ∃ is,
    sender.Emits cm t (t.callAll cm (calls ++ ticks.map .update)) is ∧
      Hands t.maxFragmentPayload (calls ++ ticks.map .update) is := by
    intro ticks
    refine callAll_emits cm hvalid fun now packet hmem => ?_
    rw [hroom]
    refine hcalls now packet ((List.mem_append.mp hmem).resolve_right ?_)
    simp
  by_cases hnone : fecMode = .none
  · refine iff_of_true (fun ticks => ?_) (Or.inl hnone)
    obtain ⟨is, hemit, hhands⟩ := hemits ticks
    rw [if_pos hnone] at hcap
    have hfec : (sender.outbox t).overhead = 0 := by
      simp [sender, outbox, Outbox.overhead, hmode, hnone]
    refine hemit.fits_of_short hcm hwrap hempty (mtu - 39) (by omega) fun i hi p hp => ?_
    rcases hhands.only i hi p hp with hprobe | ⟨now, packet, -, hshort⟩
    · omega
    · omega
  · rw [if_neg hnone] at hcap
    have hbudget : transportPayloadBudget mtu .relayRawUdp true true = t.maxFragmentPayload := by
      rw [maxFragmentPayload, hroom, hmode, hsecure, decide_eq_true hnone]
    have hfec : (sender.outbox t).overhead = 6 := by
      simp [sender, outbox, Outbox.overhead, hmode, hnone]
    rw [or_iff_right hnone, hbudget]
    constructor
    · intro hfits
      -- one tick at a time when the peer is not yet late
      obtain ⟨is, hemit, hhands⟩ := hemits []
      rw [List.map_nil, List.append_nil] at hemit hhands
      have halive : ¬ ((t.callAll cm calls).2.dead = false ∧ RAW_UDP_DEAD_TIMEOUT_MS <
          elapsedMs (t.callAll cm calls).2.lastRecvTime (t.callAll cm calls).2.lastRecvTime) := by
        rw [elapsedMs_self]
        rintro ⟨-, hlt⟩
        exact absurd hlt (Nat.not_lt_zero _)
      obtain ⟨ticked, htick, -⟩ := emits_tick cm halive
      have hall := hemit.append htick
      rw [← List.append_assoc] at hall
      have hsent := hfits [(t.callAll cm calls).2.lastRecvTime]
      rw [List.map_singleton, callAll_append, callAll, callAll, call, List.append_nil] at hsent
      have hshort := hall.short_of_fits hcm hwrap hempty (mtu - 45) (by omega) hsent
      exact (hands_fits_iff hhands hcap.1 hcap.2).mp fun i hi =>
        hshort i (List.mem_append_left _ hi)
    · intro hpackets ticks
      obtain ⟨is, hemit, hhands⟩ := hemits ticks
      have hpayloads := (hands_fits_iff hhands hcap.1 hcap.2).mpr fun now packet hmem =>
        hpackets now packet ((List.mem_append.mp hmem).resolve_right (by simp))
      exact hemit.fits_of_short hcm hwrap hempty (mtu - 45) (by omega) hpayloads

end CliRawUdpTunnel

/-! ### The KCP transport -/

namespace CliKcpTunnel

open Sender

variable {P : Kcp} {cm : Cm256} {t : CliKcpTunnel P}

inductive Call where
  | send (data : Bytes)
  | feedInput (now : Nat) (data : Bytes)
  | update (now : Nat)

def call (cm : Cm256) (t : CliKcpTunnel P) : Call → List TunnelEffect × CliKcpTunnel P
  | .send data => ([], (t.send data).2)
  | .feedInput now data => t.feedInput cm now data
  | .update now => t.update cm now

def callAll (cm : Cm256) (t : CliKcpTunnel P) : List Call → List TunnelEffect × CliKcpTunnel P
  | [] => ([], t)
  | c :: cs =>
    ((t.call cm c).1 ++ ((t.call cm c).2.callAll cm cs).1, ((t.call cm c).2.callAll cm cs).2)

/-- What KCP puts out in a call. -/
def outputsOf (t : CliKcpTunnel P) : Call → List Bytes
  | .update now => (P.update t.kcp now).1
  | _ => []

/-- What KCP puts out over the calls. -/
def kcpPutsOut (cm : Cm256) (t : CliKcpTunnel P) : List Call → List Bytes
  | [] => []
  | c :: cs => t.outputsOf c ++ (t.call cm c).2.kcpPutsOut cm cs

def outbox (t : CliKcpTunnel P) : Outbox := ⟨decide (t.fecMode ≠ .none), t.fecEncoder⟩

def sender : Sender (CliKcpTunnel P) := ⟨outbox, kcpPacket⟩

theorem outbox_fec {t : CliKcpTunnel P} (h : t.fecMode ≠ .none) :
    outbox t = ⟨true, t.fecEncoder⟩ := by
  rw [outbox, decide_eq_true h]

theorem step_plain {t : CliKcpTunnel P} (h : ¬ t.fecMode ≠ .none) (i : Outbox.Input) :
    (outbox t).step cm i = (i.call.payload, outbox t) := by
  simp [outbox, Outbox.step, h]

theorem sendKcpPackets_eq (t : CliKcpTunnel P) (now : Nat) (payloads : List Bytes) :
    ∃ sent, t.sendKcpPackets now payloads =
      (payloads.map fun payload => .send (t.kcpPacket payload),
        { t with lastSendTime := sent }) := by
  induction payloads generalizing t with
  | nil => exact ⟨t.lastSendTime, rfl⟩
  | cons payload payloads ih =>
    obtain ⟨sent, hsent⟩ := ih { t with lastSendTime := now }
    refine ⟨sent, ?_⟩
    rw [sendKcpPackets, sendKcpPacket]
    dsimp only
    rw [hsent]
    rfl

theorem emits_kcpOutput (cm : Cm256) (t : CliKcpTunnel P) (now : Nat) (kcpData : Bytes) :
    sender.Emits cm t (t.kcpOutput cm now kcpData) [.hand kcpData] := by
  unfold kcpOutput
  by_cases hfec : t.fecMode ≠ .none
  · rw [if_pos hfec]
    dsimp only
    obtain ⟨sent, hsent⟩ := sendKcpPackets_eq { t with
      fecEncoder := (t.fecEncoder.addPacket cm kcpData).2 } now
      (t.fecEncoder.addPacket cm kcpData).1
    rw [hsent]
    have hstep : (outbox t).step cm (.hand kcpData) = ((t.fecEncoder.addPacket cm kcpData).1,
        ⟨true, (t.fecEncoder.addPacket cm kcpData).2⟩) := by
      rw [outbox_fec hfec, Outbox.step_fec]
      rfl
    exact emits_of_step hstep rfl (outbox_fec hfec) rfl
  · rw [if_neg hfec]
    exact emits_of_step (step_plain hfec (.hand kcpData)) (List.map_singleton).symm rfl rfl

theorem emits_kcpOutputs (cm : Cm256) (t : CliKcpTunnel P) (now : Nat) (outputs : List Bytes) :
    sender.Emits cm t (t.kcpOutputs cm now outputs) (outputs.map .hand) := by
  induction outputs generalizing t with
  | nil => exact emits_nil rfl rfl rfl
  | cons kcpData rest ih => exact (emits_kcpOutput cm t now kcpData).append (ih _)

theorem emits_flushEncoder (cm : Cm256) (t : CliKcpTunnel P) (now : Nat) :
    sender.Emits cm t (t.flushEncoder cm now) [.flush] := by
  unfold flushEncoder
  by_cases hfec : t.fecMode ≠ .none
  · rw [if_pos hfec]
    dsimp only
    obtain ⟨sent, hsent⟩ := sendKcpPackets_eq { t with
      fecEncoder := (t.fecEncoder.update cm).2 } now
      (t.fecEncoder.update cm).1
    rw [hsent]
    have hstep : (outbox t).step cm .flush = ((t.fecEncoder.update cm).1,
        ⟨true, (t.fecEncoder.update cm).2⟩) := by
      rw [outbox_fec hfec, Outbox.step_fec]
      rfl
    exact emits_of_step hstep rfl (outbox_fec hfec) rfl
  · rw [if_neg hfec]
    exact emits_of_step (step_plain hfec .flush) List.map_nil.symm rfl rfl

theorem sends_data (messages : List Bytes) : TunnelEffect.sends (messages.map .data) = [] := by
  induction messages with
  | nil => rfl
  | cons message messages ih => exact ih

theorem emits_tryRecv (cm : Cm256) (t : CliKcpTunnel P) : sender.Emits cm t t.tryRecv [] :=
  emits_nil (sends_data _) rfl rfl

theorem emits_inputs (cm : Cm256) (t : CliKcpTunnel P) (payloads : List Bytes) :
    sender.Emits cm t (t.inputs payloads) [] := by
  induction payloads generalizing t with
  | nil => exact emits_nil rfl rfl rfl
  | cons payload payloads ih =>
    have hfirst : sender.Emits cm t (t.input payload) [] := (emits_tryRecv cm _).after rfl rfl
    exact hfirst.append (ih _)

theorem emits_feedInput (cm : Cm256) (t : CliKcpTunnel P) (now : Nat) (data : Bytes) :
    sender.Emits cm t (t.feedInput cm now data) [] := by
  unfold feedInput
  dsimp only
  split
  · exact (emits_inputs cm _ _).after rfl rfl
  · exact (emits_tryRecv cm _).after rfl rfl

/-- The keepalive that `update` gives to KCP. -/
def withKeepalive (t : CliKcpTunnel P) (now : Nat) : CliKcpTunnel P :=
  if KCP_KEEPALIVE_INTERVAL_MS < elapsedMs now t.lastSendTime then
    { t with kcp := (P.send t.kcp [KCP_KEEPALIVE_MARKER]).2 }
  else t

/-- The decoder's part of `update`. -/
def withCleanup (t : CliKcpTunnel P) (now : Nat) : CliKcpTunnel P :=
  if t.fecMode ≠ .none then { t with fecDecoder := t.fecDecoder.cleanup now } else t

theorem same_withKeepalive (t : CliKcpTunnel P) (now : Nat) :
    sender.outbox (t.withKeepalive now) = sender.outbox t ∧
    sender.wrap (t.withKeepalive now) = sender.wrap t := by
  unfold withKeepalive
  split
  · exact ⟨rfl, rfl⟩
  · exact ⟨rfl, rfl⟩

theorem same_withCleanup (t : CliKcpTunnel P) (now : Nat) :
    sender.outbox (t.withCleanup now) = sender.outbox t ∧
    sender.wrap (t.withCleanup now) = sender.wrap t := by
  unfold withCleanup
  split
  · exact ⟨rfl, rfl⟩
  · exact ⟨rfl, rfl⟩

/-- Sending touches neither the control block nor the time of the last datagram. -/
structure Undisturbed (t t' : CliKcpTunnel P) : Prop where
  kcp : t'.kcp = t.kcp
  lastRecvTime : t'.lastRecvTime = t.lastRecvTime

theorem undisturbed_sendKcpPackets (t : CliKcpTunnel P) (now : Nat) (payloads : List Bytes) :
    Undisturbed t (t.sendKcpPackets now payloads).2 := by
  obtain ⟨sent, hsent⟩ := sendKcpPackets_eq t now payloads
  rw [hsent]
  exact ⟨rfl, rfl⟩

theorem undisturbed_kcpOutput (cm : Cm256) (t : CliKcpTunnel P) (now : Nat) (kcpData : Bytes) :
    Undisturbed t (t.kcpOutput cm now kcpData).2 := by
  unfold kcpOutput
  by_cases hfec : t.fecMode ≠ .none
  · rw [if_pos hfec]
    have h := undisturbed_sendKcpPackets { t with
      fecEncoder := (t.fecEncoder.addPacket cm kcpData).2 } now
      (t.fecEncoder.addPacket cm kcpData).1
    exact ⟨h.kcp, h.lastRecvTime⟩
  · rw [if_neg hfec]
    exact ⟨rfl, rfl⟩

theorem undisturbed_kcpOutputs (cm : Cm256) (t : CliKcpTunnel P) (now : Nat)
    (outputs : List Bytes) :
    Undisturbed t (t.kcpOutputs cm now outputs).2 := by
  induction outputs generalizing t with
  | nil => exact ⟨rfl, rfl⟩
  | cons kcpData rest ih =>
    have hfirst := undisturbed_kcpOutput cm t now kcpData
    have hrest := ih (t.kcpOutput cm now kcpData).2
    exact ⟨hrest.kcp.trans hfirst.kcp, hrest.lastRecvTime.trans hfirst.lastRecvTime⟩

theorem undisturbed_flushEncoder (cm : Cm256) (t : CliKcpTunnel P) (now : Nat) :
    Undisturbed t (t.flushEncoder cm now).2 := by
  unfold flushEncoder
  by_cases hfec : t.fecMode ≠ .none
  · rw [if_pos hfec]
    have h := undisturbed_sendKcpPackets { t with
      fecEncoder := (t.fecEncoder.update cm).2 } now (t.fecEncoder.update cm).1
    exact ⟨h.kcp, h.lastRecvTime⟩
  · rw [if_neg hfec]
    exact ⟨rfl, rfl⟩

/-- The outputs of KCP are handed over; then the encoder is flushed, unless the peer is
    found dead. -/
theorem emits_update (cm : Cm256) (t : CliKcpTunnel P) (now : Nat) :
    ∃ is, sender.Emits cm t (t.update cm now) ((P.update t.kcp now).1.map .hand ++ is) ∧
      (is = [] ∧ KCP_DEAD_TIMEOUT_MS < elapsedMs now t.lastRecvTime ∨ is = [.flush]) := by
  unfold update
  split
  next outputs kcp hkcp =>
  split
  next sent t₁ hsent =>
  split
  next received t₂ hreceived =>
  have hlast : t₂.lastRecvTime = t.lastRecvTime := by
    have hout := undisturbed_kcpOutputs cm { t with kcp := kcp } now outputs
    rw [hsent] at hout
    have hrecv : t₁.tryRecv.2.lastRecvTime = t₁.lastRecvTime := rfl
    rw [hreceived] at hrecv
    exact hrecv.trans hout.lastRecvTime
  have hsends : sender.Emits cm t (sent ++ received, t₂) (outputs.map .hand) := by
    have hout := emits_kcpOutputs cm { t with kcp := kcp } now outputs
    rw [hsent] at hout
    have hrecv := emits_tryRecv cm t₁
    rw [hreceived] at hrecv
    have hboth := hout.append hrecv
    rw [List.append_nil] at hboth
    exact hboth.after rfl rfl
  rw [hkcp]
  split
  · next hdead =>
    have hmark : sender.Emits cm t₂ ([.dead], { t₂ with dead := true }) [] := emits_nil rfl rfl rfl
    rw [hlast] at hdead
    exact ⟨[], hsends.append hmark, Or.inl ⟨rfl, hdead.2⟩⟩
  · have hkeep := same_withKeepalive t₂ now
    have hflush := (emits_flushEncoder cm (t₂.withKeepalive now) now).after hkeep.1 hkeep.2
    unfold withKeepalive at hflush
    -- a name for the state in between: the proof must not evaluate the times it depends on
    generalize (if KCP_KEEPALIVE_INTERVAL_MS < elapsedMs now t₂.lastSendTime then
      { t₂ with kcp := (P.send t₂.kcp [KCP_KEEPALIVE_MARKER]).2 } else t₂) = t₃ at hflush ⊢
    extract_lets served
    split
    next flushed t₄ hflushed =>
    rw [hflushed] at hflush
    have hclean := same_withCleanup t₄ now
    have hboth := hsends.append hflush
    exact ⟨[.flush], ⟨hboth.sends, hclean.1.trans hboth.outbox, hclean.2.trans hboth.wrap⟩,
      Or.inr rfl⟩

theorem call_emits (cm : Cm256) (t : CliKcpTunnel P) (c : Call) :
    ∃ is, sender.Emits cm t (t.call cm c) ((t.outputsOf c).map .hand ++ is) ∧
    ∀ i ∈ is, i = .flush := by
  cases c with
  | send data =>
    refine ⟨[], emits_nil rfl ?_ ?_, nofun⟩
    · unfold call send
      dsimp only
      split <;> rfl
    · unfold call send
      dsimp only
      split <;> rfl
  | feedInput now data => exact ⟨[], emits_feedInput cm t now data, nofun⟩
  | update now =>
    obtain ⟨is, hemits, his⟩ := emits_update cm t now
    refine ⟨is, hemits, ?_⟩
    rcases his with ⟨rfl, -⟩ | rfl
    · exact nofun
    · intro i hi
      exact List.mem_singleton.mp hi

theorem callAll_append (cm : Cm256) (t : CliKcpTunnel P) (calls calls' : List Call) :
    t.callAll cm (calls ++ calls') =
    ((t.callAll cm calls).1 ++ ((t.callAll cm calls).2.callAll cm calls').1,
      ((t.callAll cm calls).2.callAll cm calls').2) := by
  induction calls generalizing t with
  | nil => rfl
  | cons c calls ih =>
    rw [List.cons_append, callAll, callAll, ih]
    dsimp only
    rw [List.append_assoc]

/-- The outbox gets what KCP puts out, and nothing else. -/
theorem callAll_emits (cm : Cm256) (t : CliKcpTunnel P) (calls : List Call) :
    ∃ is, sender.Emits cm t (t.callAll cm calls) is ∧
      ∀ p, (∃ i ∈ is, p ∈ i.call.payload) ↔ p ∈ t.kcpPutsOut cm calls := by
  induction calls generalizing t with
  | nil => exact ⟨[], emits_nil rfl rfl rfl, fun p => by simp [kcpPutsOut]⟩
  | cons c calls ih =>
    obtain ⟨flushes, hemits, hflushes⟩ := call_emits cm t c
    obtain ⟨is, hrest, his⟩ := ih (t.call cm c).2
    refine ⟨_, hemits.append hrest, fun p => ?_⟩
    rw [kcpPutsOut, List.mem_append, ← his]
    constructor
    · rintro ⟨i, hi, hp⟩
      rcases List.mem_append.mp hi with hi | hi
      · rcases List.mem_append.mp hi with hi | hi
        · obtain ⟨output, houtput, rfl⟩ := List.mem_map.mp hi
          rw [List.mem_singleton.mp hp]
          exact Or.inl houtput
        · rw [hflushes i hi] at hp
          cases hp
      · exact Or.inr ⟨i, hi, hp⟩
    · rintro (hp | ⟨i, hi, hp⟩)
      · refine ⟨.hand p, List.mem_append_left _ (List.mem_append_left _ (List.mem_map_of_mem hp)),
          ?_⟩
        exact List.mem_singleton_self p
      · exact ⟨i, List.mem_append_right _ hi, hp⟩

section Mtu

variable {mtu : Nat}

theorem reached_tryRecv (h : P.Reached mtu t.kcp) : P.Reached mtu t.tryRecv.2.kcp := h.recvAll

theorem reached_inputs (t : CliKcpTunnel P) (h : P.Reached mtu t.kcp) (payloads : List Bytes) :
    P.Reached mtu (t.inputs payloads).2.kcp := by
  induction payloads generalizing t with
  | nil => exact h
  | cons payload payloads ih => exact ih _ (h.input payload).recvAll

theorem reached_withKeepalive (h : P.Reached mtu t.kcp) (now : Nat) :
    P.Reached mtu (t.withKeepalive now).kcp := by
  unfold withKeepalive
  split
  · exact h.send _
  · exact h

theorem kcp_withCleanup (t : CliKcpTunnel P) (now : Nat) : (t.withCleanup now).kcp = t.kcp := by
  unfold withCleanup
  split
  · rfl
  · rfl

/-- The end of `update`, as it stands there, from any state: where it is used, the state
    is one that the kernel must not evaluate. -/
theorem kcp_flushed (cm : Cm256) (t : CliKcpTunnel P) (now : Nat) (before : List TunnelEffect) :
    (have t := t;
      match CliKcpTunnel.flushEncoder cm t now with
      | (flushed, t) =>
        have t : CliKcpTunnel P :=
          if t.fecMode ≠ FecMode.none then { t with fecDecoder := t.fecDecoder.cleanup now } else t;
        (before ++ flushed, t)).2.kcp = t.kcp := by
  have hflush := (undisturbed_flushEncoder cm t now).kcp
  extract_lets served
  split
  next flushed t' hflushed =>
  rw [hflushed] at hflush
  exact (kcp_withCleanup t' now).trans hflush

theorem reached_update (h : P.Reached mtu t.kcp) (cm : Cm256) (now : Nat) :
    P.Reached mtu (t.update cm now).2.kcp := by
  unfold update
  split
  next outputs kcp hkcp =>
  split
  next sent t₁ hsent =>
  split
  next received t₂ hreceived =>
  have hout : t₁.kcp = kcp := by
    have hundisturbed := (undisturbed_kcpOutputs cm { t with kcp := kcp } now outputs).kcp
    rw [hsent] at hundisturbed
    exact hundisturbed
  have hserved : P.Reached mtu t₂.kcp := by
    have hupdate := h.update now
    rw [hkcp, ← hout] at hupdate
    have hrecv := reached_tryRecv hupdate
    rw [hreceived] at hrecv
    exact hrecv
  split
  · exact hserved
  · have hkeep := reached_withKeepalive hserved now
    unfold withKeepalive at hkeep
    rw [kcp_flushed]
    exact hkeep

theorem reached_call (h : P.Reached mtu t.kcp) (cm : Cm256) (c : Call) :
    P.Reached mtu (t.call cm c).2.kcp := by
  cases c with
  | send data =>
    unfold call send
    dsimp only
    split
    · exact h
    · exact h.send data
  | feedInput now data =>
    unfold call feedInput
    dsimp only
    split
    · refine reached_inputs _ ?_ _
      exact h
    · exact (h.input data).recvAll
  | update now => exact reached_update h cm now

/-- KCP never puts out more than the MTU it was given. -/
theorem length_kcpPutsOut (hP : P.RespectsMtu) (hmtu : 50 ≤ mtu) (h : P.Reached mtu t.kcp)
    (cm : Cm256) (calls : List Call) : ∀ output ∈ t.kcpPutsOut cm calls, output.length ≤ mtu := by
  induction calls generalizing t with
  | nil =>
    intro output hmem
    exact absurd hmem List.not_mem_nil
  | cons c calls ih =>
    intro output hmem
    rcases List.mem_append.mp hmem with hmem | hmem
    · cases c with
      | update now => exact hP mtu t.kcp hmtu h now output hmem
      | send data => cases hmem
      | feedInput now data => cases hmem
    · exact ih (reached_call h cm c) output hmem

theorem reached_create (conv : Nat) (fecMode : FecMode) (mtu : Nat) (profile : KcpProfile)
    (trafficClass : Nat) (secureFrames : Bool) (now : Nat) :
    P.Reached (kcpMtuFromRoomMtu mtu (decide (fecMode ≠ .none)) secureFrames)
      (create (P := P) conv fecMode mtu profile trafficClass secureFrames now).kcp := by
  have hcreate : P.Reached (kcpMtuFromRoomMtu mtu (decide (fecMode ≠ .none)) secureFrames)
      (P.setmtu (P.create conv) (kcpMtuFromRoomMtu mtu (decide (fecMode ≠ .none)) secureFrames)) :=
        .setmtu conv
  cases profile with
  | bulk => exact (((hcreate.nodelay 1 20 4 0).wndsize 1024 1024).setMinrto 30).setFastresend 4
  | realtime => exact (((hcreate.nodelay 1 10 2 1).wndsize 256 256).setMinrto 10).setFastresend 2

end Mtu

/-- **The datagrams of the KCP transport**: with error correction they fit exactly when
    KCP never uses the last two bytes of the MTU it was given, and without it always. -/
theorem budget_iff {K : Crypto} (hP : P.RespectsMtu) (hcm : cm.Sized) {mtu : Nat}
    (hmtu : isValidRoomMtuValue mtu = true) (conv : Nat) (fecMode : FecMode) (profile : KcpProfile)
    (trafficClass srcPeerId dstPeerId start : Nat) (calls : List Call) :
    (∀ ticks : List Nat,
      ∀ packet ∈ TunnelEffect.sends (((create (P := P) conv fecMode mtu profile trafficClass true
        start).setRelayMode srcPeerId dstPeerId).callAll cm (calls ++ ticks.map .update)).1,
        CliTunnelManager.Fits K mtu packet) ↔
      fecMode = .none ∨ ∀ ticks : List Nat,
        ∀ output ∈ ((create (P := P) conv fecMode mtu profile trafficClass true
        start).setRelayMode srcPeerId dstPeerId).kcpPutsOut cm (calls ++ ticks.map .update),
        output.length + 2 ≤ kcpMtuFromRoomMtu mtu true true := by
  have hbudget := kcpBudget_eq hmtu fecMode
  have hreached := reached_create (P := P) conv fecMode mtu profile trafficClass true start
  generalize hcap : kcpMtuFromRoomMtu mtu (decide (fecMode ≠ .none)) true = cap at hbudget hreached
  generalize ht :
    (create (P := P) conv fecMode mtu profile trafficClass true start).setRelayMode srcPeerId
    dstPeerId = t
  have hlength : ∀ calls, ∀ output ∈ t.kcpPutsOut cm calls, output.length ≤ cap := by
    intro calls
    rw [← ht]
    refine length_kcpPutsOut hP ?_ ?_ cm calls
    · omega
    · exact hreached
  have hmode : t.fecMode = fecMode := by rw [← ht]; rfl
  have hwrap : ∀ payload, (sender.wrap t payload).length = 10 + payload.length := by
    intro payload
    rw [← ht]
    exact (List.length_append).trans
      (congrArg (· + payload.length) (CliRawUdpTunnel.length_udpRelayHeader _ _ _ _))
  have hempty : (sender.outbox t).Bounded 0 := by
    rw [← ht]
    exact ⟨nofun, le_refl 0⟩
  by_cases hnone : fecMode = .none
  · refine iff_of_true (fun ticks => ?_) (Or.inl hnone)
    obtain ⟨is, hemit, his⟩ := callAll_emits cm t (calls ++ ticks.map .update)
    rw [if_pos hnone] at hbudget
    have hfec : (sender.outbox t).overhead = 0 := by
      simp [sender, outbox, Outbox.overhead, hmode, hnone]
    refine hemit.fits_of_short hcm hwrap hempty (mtu - 39) (by omega) fun i hi p hp => ?_
    have houtput := hlength _ p ((his p).mp ⟨i, hi, hp⟩)
    omega
  · rw [if_neg hnone] at hbudget
    rw [decide_eq_true hnone] at hcap
    have hfec : (sender.outbox t).overhead = 6 := by
      simp [sender, outbox, Outbox.overhead, hmode, hnone]
    rw [or_iff_right hnone, hcap]
    constructor
    · intro hfits ticks output houtput
      -- one more tick when the peer is not yet late
      obtain ⟨is, hemit, his⟩ := callAll_emits cm t (calls ++ ticks.map .update)
      obtain ⟨t', hend⟩ : ∃ t', (t.callAll cm (calls ++ ticks.map .update)).2 = t' := ⟨_, rfl⟩
      obtain ⟨ticked, htick, hflush⟩ := emits_update cm t' t'.lastRecvTime
      have hflushed : ticked = [.flush] := by
        refine hflush.resolve_left ?_
        rintro ⟨-, hlt⟩
        rw [elapsedMs_self] at hlt
        exact absurd hlt (Nat.not_lt_zero _)
      rw [hflushed] at htick
      have hsent := hfits (ticks ++ [t'.lastRecvTime])
      rw [List.map_append, List.map_singleton, ← List.append_assoc, callAll_append, callAll,
        callAll, call, List.append_nil, hend] at hsent
      have hbefore : sender.Emits cm t ((t.callAll cm (calls ++ ticks.map .update)).1, t') is := by
        rw [← hend]
        exact hemit
      have hall := hbefore.append htick
      rw [← List.append_assoc] at hall
      have hshort := hall.short_of_fits hcm hwrap hempty (mtu - 45) (by omega) hsent
      obtain ⟨i, hi, hp⟩ := (his output).mpr houtput
      have hle := hshort i (List.mem_append_left _ hi) output hp
      omega
    · intro houtputs ticks
      obtain ⟨is, hemit, his⟩ := callAll_emits cm t (calls ++ ticks.map .update)
      refine hemit.fits_of_short hcm hwrap hempty (mtu - 45) (by omega) fun i hi p hp => ?_
      have houtput := houtputs ticks p ((his p).mp ⟨i, hi, hp⟩)
      omega

end CliKcpTunnel

/-! ### Both transports -/

/-- **The datagrams of a room fit into its MTU** when there is no error correction; with
    it, exactly when no packet, and nothing that KCP puts out, takes up the last two bytes
    of the budget. -/
theorem datagram_fits_iff {K : Crypto} {cm : Cm256} (hcm : cm.Sized) {mtu : Nat}
    (hmtu : isValidRoomMtuValue mtu = true) (fecMode : FecMode)
    (trafficClass srcPeerId dstPeerId start : Nat) :
    (∀ calls : List CliRawUdpTunnel.SenderCall,
      (∀ now packet, .send now packet ∈ calls → packet.length ≤ mtu) →
      ((∀ ticks : List Nat,
        ∀ packet ∈ TunnelEffect.sends (((CliRawUdpTunnel.create fecMode mtu trafficClass true
          start).setRelayMode srcPeerId dstPeerId).callAll cm (calls ++ ticks.map .update)).1,
          CliTunnelManager.Fits K mtu packet) ↔
        fecMode = .none ∨ ∀ now packet, .send now packet ∈ calls →
          packet.length + 2 ≤ transportPayloadBudget mtu .relayRawUdp true true)) ∧
    (∀ (conv : Nat) (profile : KcpProfile) (calls : List CliKcpTunnel.Call),
        (∀ ticks : List Nat,
          ∀ packet ∈ TunnelEffect.sends (((CliKcpTunnel.create (P := ikcp) conv fecMode mtu profile
            trafficClass true start).setRelayMode srcPeerId dstPeerId).callAll cm
            (calls ++ ticks.map .update)).1,
            CliTunnelManager.Fits K mtu packet) ↔
          fecMode = .none ∨ ∀ ticks : List Nat,
            ∀ output ∈ ((CliKcpTunnel.create (P := ikcp) conv fecMode mtu profile
            trafficClass true start).setRelayMode srcPeerId dstPeerId).kcpPutsOut cm
            (calls ++ ticks.map .update),
            output.length + 2 ≤ kcpMtuFromRoomMtu mtu true true) := by
  constructor
  · intro calls hcalls
    exact CliRawUdpTunnel.budget_iff hcm hmtu fecMode trafficClass srcPeerId dstPeerId start hcalls
  · intro conv profile calls
    exact CliKcpTunnel.budget_iff ikcp_respectsMtu hcm hmtu conv fecMode profile trafficClass
      srcPeerId dstPeerId start calls

/-- A transport of KCP with a message of one segment, before any tick. -/
def kcpSample (fecMode : FecMode) : CliKcpTunnel ikcp :=
  (CliKcpTunnel.create (P := ikcp) 7 fecMode 1280 .realtime 0 true 0).setRelayMode 1 2

def fullSegment : CliKcpTunnel.Call := .send (List.replicate 1213 1)

/-- With error correction a packet of 1229 bytes fits, with the two bytes in front of its
    block; a full segment of KCP does not. Without, KCP always fits. -/
theorem datagram_fits_1280 :
    (∀ ticks : List Nat,
      ∀ packet ∈ TunnelEffect.sends (((CliRawUdpTunnel.create .fec10 1280 0 true 0).setRelayMode 1
        2).callAll Cm256.parityOfTwo ([.send 0 (List.replicate 1229 0)] ++ ticks.map .update)).1,
        CliTunnelManager.Fits Crypto.sample 1280 packet) ∧
      (¬ ∀ ticks : List Nat,
        ∀ packet ∈ TunnelEffect.sends ((kcpSample .fec10).callAll Cm256.parityOfTwo
        ([fullSegment] ++ ticks.map .update)).1, CliTunnelManager.Fits Crypto.sample 1280 packet) ∧
      (∀ ticks : List Nat,
        ∀ packet ∈ TunnelEffect.sends ((kcpSample .none).callAll Cm256.parityOfTwo
        ([fullSegment] ++ ticks.map .update)).1, CliTunnelManager.Fits Crypto.sample 1280 packet) ∧
      TunnelEffect.sends ((kcpSample .none).callAll Cm256.parityOfTwo
        ([fullSegment] ++ [.update 5])).1 ≠ [] := by
  refine ⟨?_, ?_, ?_, by decide +kernel⟩
  · refine ((datagram_fits_iff Cm256.parityOfTwo_mds.recovery rfl .fec10 0 1 2 0).1
      [.send 0 (List.replicate 1229 0)]
      ?_).mpr (Or.inr ?_)
    · intro now packet hmem
      cases List.mem_singleton.mp hmem
      rw [List.length_replicate]
      omega
    · intro now packet hmem
      cases List.mem_singleton.mp hmem
      rw [List.length_replicate]
      decide
  · intro hfits
    have hoverflow :
      ((kcpSample .fec10).kcpPutsOut Cm256.parityOfTwo ([fullSegment] ++ [0].map .update)).any
        (fun output => decide (kcpMtuFromRoomMtu 1280 true true < output.length + 2)) = true := by
      decide +kernel
    obtain ⟨output, hmem, hlong⟩ := List.any_eq_true.mp hoverflow
    have hshort := ((datagram_fits_iff Cm256.parityOfTwo_mds.recovery rfl .fec10 0 1 2 0).2 7
      .realtime
      [fullSegment]).mp hfits
    rcases hshort with hnone | hshort
    · cases hnone
    · exact absurd (of_decide_eq_true hlong) (Nat.not_lt.mpr (hshort [0] output hmem))
  · exact ((datagram_fits_iff Cm256.parityOfTwo_mds.recovery rfl .none 0 1 2 0).2 7 .realtime
      [fullSegment]).mpr (Or.inl rfl)

end VlanConnect

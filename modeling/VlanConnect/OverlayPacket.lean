/-
  VlanConnect/OverlayPacket.lean
  ==============================
  **The packet filters of the overlay network**
  (`common/overlay_packet_validator.h`, the address functions of
  `common/net_common.h`).

  A client checks what its adapter hands it before it sends it to a peer, and
  what a peer sent before it writes it to its adapter.  The two checks are in
  different places and read the destination differently.
-/
import VlanConnect.Protocol

namespace VlanConnect

def VNET_BROADCAST : Nat := 0x0A0A00FF

inductive OverlayPacketError where
  | none
  | truncated
  | notIpv4
  | invalidHeaderLength
  | invalidTotalLength
  | exceedsMtu
  | invalidSource
  | invalidDestination
deriving DecidableEq

structure OverlayPacketResult where
  error : OverlayPacketError := .none
  source : Nat := 0
  destination : Nat := 0
deriving DecidableEq

def OverlayPacketResult.isValid (r : OverlayPacketResult) : Bool := decide (r.error = .none)

/-! ### Fields of a packet -/

def readOverlayAddress (p : Bytes) : Nat := BigEndian.decode (p.take 4)

/-- The high half of the first byte. -/
def ipVersion (packet : Bytes) : Nat := packet.head?.elim 0 fun b => b.toNat / 16

/-- The header length in bytes, from the low half of the first byte. -/
def ipHeaderLength (packet : Bytes) : Nat := packet.head?.elim 0 fun b => b.toNat % 16 * 4

def ipTotalLength (packet : Bytes) : Nat := BigEndian.decode ((packet.drop 2).take 2)

def extractDstIP (packet : Bytes) : Nat :=
  if packet.length < 20 then 0
  else if ipVersion packet ≠ 4 then 0
  else readOverlayAddress (packet.drop 16)

def isBroadcast (ip : Nat) : Bool := decide (ip = 0xffffffff ∨ ip % 256 = 0xff)

/-! ### The filters -/

def validateOverlayIpv4Structure (packet : Bytes) (roomMtu : Nat) : OverlayPacketResult :=
  if packet.length < 20 then { error := .truncated }
  else if ipVersion packet ≠ 4 then { error := .notIpv4 }
  else
    let headerLength := ipHeaderLength packet
    if headerLength < 20 ∨ packet.length < headerLength then { error := .invalidHeaderLength }
    else
      let totalLength := ipTotalLength packet
      if totalLength < headerLength ∨
        totalLength ≠ packet.length then { error := .invalidTotalLength }
      else if normalizeRoomMtu roomMtu < packet.length then { error := .exceedsMtu }
      else
        { source := readOverlayAddress (packet.drop 12)
          destination := readOverlayAddress (packet.drop 16) }

def validateInboundOverlayIpv4 (packet : Bytes) (roomMtu expectedSource localAddress : Nat) :
    OverlayPacketResult :=
  let result := validateOverlayIpv4Structure packet roomMtu
  if ¬ result.isValid then result
  else if expectedSource = 0 ∨ result.source ≠ expectedSource then { result with
    error := .invalidSource }
  else if localAddress = 0 ∨
      result.destination ≠ localAddress ∧ result.destination ≠ VNET_BROADCAST ∧
      result.destination ≠ 0xffffffff then
    { result with error := .invalidDestination }
  else result

def validateOutboundOverlayIpv4 (packet : Bytes) (roomMtu localAddress : Nat) :
    OverlayPacketResult :=
  let result := validateOverlayIpv4Structure packet roomMtu
  if ¬ result.isValid then result
  else if localAddress = 0 ∨ result.source ≠ localAddress then { result with
    error := .invalidSource }
  else result

/-! ### What an accepted packet is -/

/-- A whole IPv4 packet of at most the room's MTU, with its two addresses. -/
structure WellFormed (packet : Bytes) (roomMtu source destination : Nat) : Prop where
  version : ipVersion packet = 4
  header : 20 ≤ ipHeaderLength packet
  headerFits : ipHeaderLength packet ≤ packet.length
  total : ipTotalLength packet = packet.length
  mtu : packet.length ≤ normalizeRoomMtu roomMtu
  source : readOverlayAddress (packet.drop 12) = source
  destination : readOverlayAddress (packet.drop 16) = destination

theorem structure_valid_iff {packet : Bytes} {roomMtu : Nat} :
    (validateOverlayIpv4Structure packet roomMtu).isValid = true ↔
      WellFormed packet roomMtu (readOverlayAddress (packet.drop 12))
      (readOverlayAddress (packet.drop 16)) := by
  constructor
  · intro h
    unfold validateOverlayIpv4Structure at h
    split at h
    · cases h
    split at h
    · cases h
    next hversion =>
    dsimp only at h
    split at h
    · cases h
    next hheader =>
    split at h
    · cases h
    next htotal =>
    split at h
    · cases h
    next hmtu =>
    rw [not_or, Nat.not_lt, Nat.not_lt] at hheader
    rw [not_or, not_ne_iff] at htotal
    exact ⟨not_ne_iff.mp hversion, hheader.1, hheader.2, htotal.2, Nat.le_of_not_lt hmtu, rfl, rfl⟩
  · intro h
    have hlen : 20 ≤ packet.length := h.header.trans h.headerFits
    have htotal :
        ¬ (ipTotalLength packet < ipHeaderLength packet ∨
          ipTotalLength packet ≠ packet.length) := by
      rw [h.total]
      simpa using h.headerFits
    have hheader : ¬ (ipHeaderLength packet < 20 ∨ packet.length < ipHeaderLength packet) := by
      rw [not_or, Nat.not_lt, Nat.not_lt]
      exact ⟨h.header, h.headerFits⟩
    unfold validateOverlayIpv4Structure
    rw [if_neg (Nat.not_lt.mpr hlen), if_neg (not_not.mpr h.version)]
    dsimp only
    rw [if_neg hheader, if_neg htotal, if_neg (Nat.not_lt.mpr h.mtu)]
    rfl

/-- The addresses of an accepted packet. -/
theorem structure_result {packet : Bytes} {roomMtu : Nat}
    (h : (validateOverlayIpv4Structure packet roomMtu).isValid = true) :
    validateOverlayIpv4Structure packet roomMtu =
      { source := readOverlayAddress (packet.drop 12),
        destination := readOverlayAddress (packet.drop 16) } := by
  unfold validateOverlayIpv4Structure at h ⊢
  split at h
  · cases h
  next hlen =>
  split at h
  · cases h
  next hversion =>
  dsimp only at h ⊢
  split at h
  · cases h
  next hheader =>
  split at h
  · cases h
  next htotal =>
  split at h
  · cases h
  next hmtu =>
  rw [if_neg hlen, if_neg hversion, if_neg hheader, if_neg htotal, if_neg hmtu]

theorem outbound_valid_iff {packet : Bytes} {roomMtu localAddress : Nat} :
    (validateOutboundOverlayIpv4 packet roomMtu localAddress).isValid = true ↔
      localAddress ≠ 0 ∧ WellFormed packet roomMtu localAddress
      (readOverlayAddress (packet.drop 16)) := by
  unfold validateOutboundOverlayIpv4
  dsimp only
  cases hvalid : (validateOverlayIpv4Structure packet roomMtu).isValid with
  | false =>
    rw [if_pos (by simp), hvalid]
    constructor
    · intro h
      cases h
    · rintro ⟨_, hwf⟩
      have hshape := structure_valid_iff.mpr { hwf with source := rfl }
      rw [hvalid] at hshape
      cases hshape
  | true =>
    have hwf := structure_valid_iff.mp hvalid
    rw [if_neg (by simp), structure_result hvalid]
    split
    · next h =>
      constructor
      · intro hfalse
        cases hfalse
      · rintro ⟨hlocal, hwf'⟩
        rcases h with h | h
        · exact absurd h hlocal
        · exact absurd hwf'.source h
    · next h =>
      rw [not_or, not_ne_iff] at h
      constructor
      · intro _
        exact ⟨h.1, { hwf with source := h.2 }⟩
      · intro _
        rfl

theorem inbound_valid_iff {packet : Bytes} {roomMtu expectedSource localAddress : Nat} :
    (validateInboundOverlayIpv4 packet roomMtu expectedSource localAddress).isValid = true ↔
      expectedSource ≠ 0 ∧ localAddress ≠ 0 ∧
        ∃ destination, WellFormed packet roomMtu expectedSource destination ∧
          (destination = localAddress ∨ destination = VNET_BROADCAST ∨
            destination = 0xffffffff) := by
  unfold validateInboundOverlayIpv4
  dsimp only
  cases hvalid : (validateOverlayIpv4Structure packet roomMtu).isValid with
  | false =>
    rw [if_pos (by simp), hvalid]
    constructor
    · intro h
      cases h
    · rintro ⟨_, _, destination, hwf, _⟩
      have hshape := structure_valid_iff.mpr { hwf with source := rfl, destination := rfl }
      rw [hvalid] at hshape
      cases hshape
  | true =>
    have hwf := structure_valid_iff.mp hvalid
    rw [if_neg (by simp), structure_result hvalid]
    split
    · next h =>
      constructor
      · intro hfalse
        cases hfalse
      · rintro ⟨hsource, _, destination, hwf', _⟩
        rcases h with h | h
        · exact absurd h hsource
        · exact absurd hwf'.source h
    next hsource =>
    rw [not_or, not_ne_iff] at hsource
    split
    · next h =>
      constructor
      · intro hfalse
        cases hfalse
      · rintro ⟨_, hlocal, destination, hwf', hdst⟩
        rcases h with h | ⟨h₁, h₂, h₃⟩
        · exact absurd h hlocal
        · have heq : readOverlayAddress (packet.drop 16) = destination := hwf'.destination
          rcases hdst with rfl | rfl | rfl
          · exact absurd heq h₁
          · exact absurd heq h₂
          · exact absurd heq h₃
    · next h =>
      rw [not_or, not_and_or, not_and_or, not_ne_iff, not_ne_iff, not_ne_iff] at h
      constructor
      · intro _
        exact ⟨hsource.1, h.1, _, { hwf with source := hsource.2 }, h.2⟩
      · intro _
        rfl

/-- A packet never looks like a probe of the peers, whose first byte is 0xFE. -/
theorem WellFormed.head_ne {packet : Bytes} {roomMtu source destination : Nat}
    (h : WellFormed packet roomMtu source destination) : packet.head? ≠ some 0xfe := by
  intro hhead
  have hversion := h.version
  unfold ipVersion at hversion
  rw [hhead] at hversion
  cases hversion

theorem WellFormed.extractDstIP_eq {packet : Bytes} {roomMtu source destination : Nat}
    (h : WellFormed packet roomMtu source destination) : extractDstIP packet = destination := by
  have hlen : 20 ≤ packet.length := h.header.trans h.headerFits
  unfold extractDstIP
  rw [if_neg (Nat.not_lt.mpr hlen), if_neg (not_not.mpr h.version)]
  exact h.destination

end VlanConnect

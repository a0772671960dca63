/-
  VlanConnect/Lib/BigEndian.lean
  ==============================
  **Fixed-width big-endian numbers.**

  A number is written most significant byte first into a given number of
  bytes, and what does not fit is dropped, as a masked shift of an unsigned
  machine word does.  Reading is the base-256 numeral.  The two facts a codec
  needs are proved once for every width: what was written reads back modulo
  the width (`decode_encode`), and every byte string is the encoding of the
  number it spells (`encode_decode`).
-/
import Mathlib.Data.List.Basic
import Mathlib.Tactic.Ring

namespace BigEndian

/-- The low `width` bytes of `v`, most significant first. -/
def encode : (width : Nat) → Nat → List UInt8
  | 0, _ => []
  | width + 1, v => UInt8.ofNat (v / 256 ^ width) :: encode width v

/-- The number a byte string spells. -/
def decode (bytes : List UInt8) : Nat :=
  bytes.foldl (fun v b => v * 256 + b.toNat) 0

@[simp] theorem length_encode (width v : Nat) : (encode width v).length = width := by
  induction width with
  | zero => rfl
  | succ width ih => simp [encode, ih]

private theorem foldl_start (bytes : List UInt8) (start : Nat) :
    bytes.foldl (fun v b => v * 256 + b.toNat) start =
      start * 256 ^ bytes.length + decode bytes := by
  induction bytes generalizing start with
  | nil => simp [decode]
  | cons b rest ih =>
    have h0 := ih (0 * 256 + b.toNat)
    simp only [decode, List.foldl_cons, List.length_cons] at h0 ⊢
    rw [ih, h0, decode, pow_succ]
    ring

@[simp] theorem decode_nil : decode [] = 0 := rfl

theorem decode_cons (b : UInt8) (rest : List UInt8) :
    decode (b :: rest) = b.toNat * 256 ^ rest.length + decode rest := by
  have h := foldl_start rest (0 * 256 + b.toNat)
  simpa [decode] using h

theorem decode_lt (bytes : List UInt8) : decode bytes < 256 ^ bytes.length := by
  induction bytes with
  | nil => simp [decode]
  | cons b rest ih =>
    have hb : b.toNat ≤ 255 := by have := b.toNat_lt; omega
    rw [decode_cons, List.length_cons, pow_succ]
    calc b.toNat * 256 ^ rest.length + decode rest
        < b.toNat * 256 ^ rest.length + 256 ^ rest.length := by omega
      _ = (b.toNat + 1) * 256 ^ rest.length := by ring
      _ ≤ 256 * 256 ^ rest.length := Nat.mul_le_mul_right _ (by omega)
      _ = 256 ^ rest.length * 256 := by ring

/-- What is written into `width` bytes reads back modulo `256 ^ width`. -/
theorem decode_encode (width v : Nat) : decode (encode width v) = v % 256 ^ width := by
  induction width with
  | zero => simp [encode, Nat.mod_one]
  | succ width ih =>
    have hbyte : (UInt8.ofNat (v / 256 ^ width)).toNat = v / 256 ^ width % 256 := by
      simp
    rw [encode, decode_cons, ih, length_encode, hbyte, pow_succ, Nat.mod_mul]
    ring

theorem decode_encode_of_lt {width v : Nat} (h : v < 256 ^ width) :
    decode (encode width v) = v := by
  rw [decode_encode, Nat.mod_eq_of_lt h]

theorem encode_mod (width v : Nat) : encode width (v % 256 ^ width) = encode width v := by
  suffices h : ∀ k, encode width (v % 256 ^ (width + k)) = encode width v by
    simpa using h 0
  induction width with
  | zero => intro k; rfl
  | succ width ih =>
    intro k
    have hhead : UInt8.ofNat (v % 256 ^ (width + 1 + k) / 256 ^ width) =
        UInt8.ofNat (v / 256 ^ width) := by
      apply UInt8.toNat_inj.mp
      have hsplit : (256 : Nat) ^ (width + 1 + k) = 256 ^ width * 256 ^ (k + 1) := by
        rw [← pow_add]; congr 1; omega
      have hdvd : (256 : Nat) ∣ 256 ^ (k + 1) := ⟨256 ^ k, by rw [pow_succ]; ring⟩
      simp only [UInt8.toNat_ofNat']
      rw [hsplit, Nat.mod_mul_right_div_self, Nat.mod_mod_of_dvd _ hdvd]
    have htail := ih (k + 1)
    rw [show width + (k + 1) = width + 1 + k by omega] at htail
    rw [encode, encode, hhead, htail]

/-- A byte string is the encoding, at its own width, of the number it spells. -/
theorem encode_decode (bytes : List UInt8) : encode bytes.length (decode bytes) = bytes := by
  induction bytes with
  | nil => rfl
  | cons b rest ih =>
    have hlt := decode_lt rest
    have hb := b.toNat_lt
    have hhead : decode (b :: rest) / 256 ^ rest.length = b.toNat := by
      rw [decode_cons, Nat.mul_comm, Nat.mul_add_div (Nat.pow_pos (by omega)), Nat.div_eq_of_lt hlt,
        Nat.add_zero]
    have htail : encode rest.length (decode (b :: rest)) = rest := by
      rw [← encode_mod, decode_cons, Nat.mul_comm, Nat.mul_add_mod, Nat.mod_eq_of_lt hlt, ih]
    rw [List.length_cons, encode, hhead, htail]
    simp

end BigEndian

/-
  VlanConnect/Lib/WrapClock.lean
  ==============================
  **A clock that wraps around, and three ways to read it.**

  The readings of the clock are taken modulo `m`.  The age of a reading is the
  difference modulo `m`, which a wrap does not disturb.  Comparing two readings
  as numbers is right exactly when no wrap lies between them (`raw_order_iff`,
  `raw_due_iff`); the sign of the difference of two words is right as long as
  they are less than half a turn apart (`due_iff_nonneg`).
-/
import Mathlib.Algebra.Order.Ring.Nat
import Mathlib.Algebra.Order.Ring.Int

namespace WrapClock

/-- The time since a reading, modulo `m`. -/
def age (m now reading : Nat) : Nat := (now + m - reading % m) % m

section Ages

variable {m now a b : Nat}

theorem age_of_le (ha : a ≤ now) (hnow : now < m) : age m now a = now - a := by
  have hlt : a < m := lt_of_le_of_lt ha hnow
  rw [age, Nat.mod_eq_of_lt hlt, show now + m - a = now - a + m by omega, Nat.add_mod_right]
  exact Nat.mod_eq_of_lt (by omega)

theorem age_of_lt (ha : now < a) (hm : a < m) : age m now a = now + m - a := by
  rw [age, Nat.mod_eq_of_lt hm]
  exact Nat.mod_eq_of_lt (by omega)

/-- Both readings are from the lap of the clock, or both from the lap before. -/
def SameLap (now a b : Nat) : Prop := a ≤ now ↔ b ≤ now

instance : Decidable (SameLap now a b) := inferInstanceAs (Decidable (_ ↔ _))

/-- Of two readings in one lap the smaller one is the older one. -/
theorem age_le_age (h : SameLap now a b) (hle : a ≤ b) (hb : b < m) (hnow : now < m) :
    age m now b ≤ age m now a := by
  by_cases hb' : b ≤ now
  · rw [age_of_le hb' hnow, age_of_le (h.mpr hb') hnow]
    omega
  · have ha' : ¬ a ≤ now := fun ha => hb' (h.mp ha)
    rw [age_of_lt (by omega) hb, age_of_lt (by omega) (lt_of_le_of_lt hle hb)]
    omega

/-- Of two readings in different laps the smaller one is the younger one. -/
theorem age_lt_age (h : ¬ SameLap now a b) (hle : a ≤ b) (hb : b < m) (hnow : now < m) :
    age m now a < age m now b := by
  have hlaps : a ≤ now ∧ now < b := by
    unfold SameLap at h
    omega
  rw [age_of_le hlaps.1 hnow, age_of_lt hlaps.2 hb]
  omega

/-- **Readings may be compared as numbers exactly within a lap.** -/
theorem raw_order_iff (hle : a ≤ b) (hb : b < m) (hnow : now < m) :
    age m now b ≤ age m now a ↔ SameLap now a b := by
  constructor
  · intro h
    by_contra hlaps
    exact absurd (age_lt_age hlaps hle hb hnow) (Nat.not_lt.mpr h)
  · intro h
    exact age_le_age h hle hb hnow

end Ages

/-! ### Deadlines in words -/

theorem toInt32_eq_bmod (x : UInt32) : x.toInt32.toInt = Int.bmod x.toNat (2 ^ 32) := by
  unfold Int32.toInt
  rw [UInt32.toBitVec_toInt32, BitVec.toInt_eq_toNat_bmod, UInt32.toNat_toBitVec]

/-- A word is not negative when its first bit is not set. -/
theorem toInt32_nonneg_iff (x : UInt32) : 0 ≤ x.toInt32.toInt ↔ x.toNat < 2 ^ 31 := by
  have hx := x.toNat_lt
  rw [toInt32_eq_bmod, Int.bmod_def]
  omega

theorem toInt32_of_lt {x : UInt32} (h : x.toNat < 2 ^ 31) : x.toInt32.toInt = x.toNat := by
  rw [toInt32_eq_bmod, Int.bmod_def]
  omega

variable {t w d : UInt32}

/-- **A deadline `w` after `t` may be compared with the clock as a number exactly when the
    two lie in one lap.** -/
theorem raw_due_iff :
    (t + w ≤ t + d ↔ w ≤ d) ↔ (t.toNat + w.toNat < 2 ^ 32 ↔ t.toNat + d.toNat < 2 ^ 32) := by
  have ht := t.toNat_lt
  have hw := w.toNat_lt
  have hd := d.toNat_lt
  rw [UInt32.le_iff_toNat_le, UInt32.le_iff_toNat_le, UInt32.toNat_add, UInt32.toNat_add]
  omega

/-- The sign of the difference is right for every start. -/
theorem due_iff_nonneg (hw : w.toNat ≤ 2 ^ 31) (hd : d.toNat < 2 ^ 31) :
    0 ≤ ((t + d) - (t + w)).toInt32.toInt ↔ w ≤ d := by
  have ht := t.toNat_lt
  rw [toInt32_nonneg_iff, UInt32.le_iff_toNat_le, UInt32.toNat_sub, UInt32.toNat_add,
    UInt32.toNat_add]
  omega

end WrapClock

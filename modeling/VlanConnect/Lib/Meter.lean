/-
  VlanConnect/Lib/Meter.lean
  ==========================
  **A token bucket that never forgets.**

  A meter holds at most `burst` tokens and gains one every `period` units of
  time.  An attempt takes a token if there is one.  Between two times no more
  attempts succeed than the bucket can hold and gain in between
  (`granted_le`), whatever the attempts are.
-/
import Mathlib.Algebra.Order.Field.Basic
import Mathlib.Data.Nat.Cast.Order.Ring
import Mathlib.Tactic.Linarith
import Mathlib.Tactic.Positivity

/-- The number of tokens, and the time at which there were so many. -/
structure Meter (K : Type*) where
  level : K
  time : ℕ

namespace Meter

variable {K : Type*} [Field K] [LinearOrder K] (burst period : K)

/-- The level after `dt` without an attempt. -/
def fill (level : K) (dt : ℕ) : K := min burst (level + dt / period)

/-- An attempt at time `t`. -/
def take (m : Meter K) (t : ℕ) : Bool × Meter K :=
  let level := fill burst period m.level (t - m.time)
  if 1 ≤ level then (true, ⟨level - 1, t⟩) else (false, ⟨level, t⟩)

/-- The number of successes from `t₁` to `t₂`. -/
def granted (t₁ t₂ : ℕ) (m : Meter K) : List ℕ → ℕ
  | [] => 0
  | t :: ts =>
    (if (m.take burst period t).1 ∧ t₁ ≤ t ∧ t ≤ t₂ then 1 else 0) +
      granted t₁ t₂ (m.take burst period t).2 ts

variable {burst period}

theorem fill_le_burst (level : K) (dt : ℕ) : fill burst period level dt ≤ burst := min_le_left _ _

theorem fill_le_add (level : K) (dt : ℕ) : fill burst period level dt ≤ level + dt / period :=
  min_le_right _ _

theorem fill_zero {level : K} (h : level ≤ burst) : fill burst period level 0 = level := by
  simp [fill, h]

theorem take_snd_time (m : Meter K) (t : ℕ) : (m.take burst period t).2.time = t := by
  unfold take
  dsimp only
  split <;> rfl

/-- Attempts after `t₂` do not count. -/
theorem granted_eq_zero {t₁ t₂ : ℕ} {ts : List ℕ} (h : ∀ t ∈ ts, t₂ < t) (m : Meter K) :
    granted burst period t₁ t₂ m ts = 0 := by
  induction ts generalizing m with
  | nil => rfl
  | cons t ts ih =>
    have ht := h t List.mem_cons_self
    rw [granted, ih fun t' ht' => h t' (List.mem_cons_of_mem _ ht'), if_neg]
    omega

variable [IsStrictOrderedRing K]

theorem fill_mono {a b : K} (h : a ≤ b) (dt : ℕ) :
    fill burst period a dt ≤ fill burst period b dt := by
  unfold fill
  gcongr

theorem fill_nonneg (hburst : 0 ≤ burst) (hperiod : 0 < period) {level : K} (h : 0 ≤ level)
    (dt : ℕ) :
    0 ≤ fill burst period level dt := by
  apply le_min hburst
  positivity

theorem fill_fill (hperiod : 0 < period) (level : K) (a b : ℕ) :
    fill burst period (fill burst period level a) b = fill burst period level (a + b) := by
  have hb : (0 : K) ≤ b / period := by positivity
  unfold fill
  rw [Nat.cast_add, add_div, ← add_assoc, min_add, ← min_assoc,
    min_eq_left (le_add_of_nonneg_right hb)]

/-- After a long time the meter is full. -/
theorem fill_full {level : K} (h : 0 ≤ level) {dt : ℕ} (hdt : burst ≤ dt / period) :
    fill burst period level dt = burst :=
  min_eq_left (le_add_of_nonneg_of_le h hdt)

theorem take_snd_level_le (m : Meter K) (t : ℕ) :
    (m.take burst period t).2.level ≤ fill burst period m.level (t - m.time) := by
  unfold take
  dsimp only
  split
  · exact sub_le_self _ zero_le_one
  · exact le_refl _

theorem take_snd_level_nonneg (hburst : 0 ≤ burst) (hperiod : 0 < period) {m : Meter K}
    (hm : 0 ≤ m.level) (t : ℕ) :
    0 ≤ (m.take burst period t).2.level := by
  unfold take
  dsimp only
  split
  · rename_i h
    exact sub_nonneg.mpr h
  · exact fill_nonneg hburst hperiod hm _

/-- What can still be granted until `t₂`: what the meter holds at `t₁`, or now if
    that is later, and what it gains from then on. -/
def budget (burst period : K) (t₁ t₂ : ℕ) (m : Meter K) : K :=
  fill burst period m.level (t₁ - m.time) + ((t₂ - max t₁ m.time : ℕ) : K) / period

theorem budget_nonneg (hburst : 0 ≤ burst) (hperiod : 0 < period) {m : Meter K} (hm : 0 ≤ m.level)
    (t₁ t₂ : ℕ) :
    0 ≤ budget burst period t₁ t₂ m := by
  have hfill := fill_nonneg hburst hperiod hm (t₁ - m.time)
  unfold budget
  positivity

/-- An attempt before `t₁` leaves no more for later. -/
theorem budget_take_of_lt (hperiod : 0 < period) {m : Meter K} {t t₁ : ℕ} (t₂ : ℕ) (ht : m.time ≤ t)
    (ht₁ : t < t₁) :
    budget burst period t₁ t₂ (m.take burst period t).2 ≤ budget burst period t₁ t₂ m := by
  have hlevel : fill burst period (m.take burst period t).2.level (t₁ - t) ≤
      fill burst period (fill burst period m.level (t - m.time)) (t₁ - t) :=
    fill_mono (take_snd_level_le m t) (t₁ - t)
  rw [fill_fill hperiod, show t - m.time + (t₁ - t) = t₁ - m.time by omega] at hlevel
  unfold budget
  rw [take_snd_time, max_eq_left ht₁.le, max_eq_left (ht.trans ht₁.le)]
  exact add_le_add_left hlevel _

/-- An attempt from `t₁` on pays for what it is granted. -/
theorem budget_take (hperiod : 0 < period) {m : Meter K} {t t₁ t₂ : ℕ} (ht : m.time ≤ t)
    (ht₁ : t₁ ≤ t) (ht₂ : t ≤ t₂) :
    (if (m.take burst period t).1 then (1 : K) else 0) + budget burst period t₁ t₂
    (m.take burst period t).2 ≤
      budget burst period t₁ t₂ m := by
  have hgain : fill burst period m.level (t - m.time) ≤
      fill burst period m.level (t₁ - m.time) + ((t - max t₁ m.time : ℕ) : K) / period := by
    rw [show t - m.time = (t₁ - m.time) + (t - max t₁ m.time) by omega, ← fill_fill hperiod]
    exact fill_le_add _ _
  have hsplit : ((t₂ - max t₁ m.time : ℕ) : K) / period =
      ((t - max t₁ m.time : ℕ) : K) / period + ((t₂ - t : ℕ) : K) / period := by
    rw [← add_div, ← Nat.cast_add, show t - max t₁ m.time + (t₂ - t) = t₂ - max t₁ m.time by omega]
  have hpaid :
    (if (m.take burst period t).1 then (1 : K) else 0) + (m.take burst period t).2.level =
      fill burst period m.level (t - m.time) := by
    unfold take
    dsimp only
    split <;> simp
  have hleft : fill burst period (m.take burst period t).2.level (t₁ - t) ≤
      (m.take burst period t).2.level := by
    rw [Nat.sub_eq_zero_of_le ht₁]
    refine (fill_le_add _ 0).trans ?_
    simp
  unfold budget
  rw [take_snd_time, max_eq_right ht₁, hsplit]
  linarith

/-- The successes from `t₁` to `t₂` are paid for. -/
theorem granted_le_budget (hburst : 0 ≤ burst) (hperiod : 0 < period) {m : Meter K}
    (hm : 0 ≤ m.level) {ts : List ℕ} (hts : ts.Pairwise (· ≤ ·)) (hfirst : ∀ t ∈ ts, m.time ≤ t)
    (t₁ t₂ : ℕ) :
    (granted burst period t₁ t₂ m ts : K) ≤ budget burst period t₁ t₂ m := by
  induction ts generalizing m with
  | nil => simpa [granted] using budget_nonneg hburst hperiod hm t₁ t₂
  | cons t ts ih =>
    obtain ⟨hhead, htail⟩ := List.pairwise_cons.mp hts
    have ht := hfirst t List.mem_cons_self
    have hrest := ih (take_snd_level_nonneg hburst hperiod hm t) htail (by rwa [take_snd_time])
    rw [granted, Nat.cast_add]
    rcases Nat.lt_or_ge t₂ t with hlate | hintime
    · -- neither this attempt nor a later one counts
      rw [if_neg (by omega), granted_eq_zero fun t' ht' => hlate.trans_le (hhead t' ht')]
      simpa using budget_nonneg hburst hperiod hm t₁ t₂
    · rcases Nat.lt_or_ge t t₁ with hearly | hcounts
      · rw [if_neg (by omega)]
        have hless : _ ≤ budget burst period t₁ t₂ m := budget_take_of_lt hperiod t₂ ht hearly
        push_cast
        linarith
      · have hpaid : _ ≤ budget burst period t₁ t₂ m := budget_take hperiod ht hcounts hintime
        simp only [hcounts, hintime, and_self, and_true, Nat.cast_ite, Nat.cast_one, Nat.cast_zero]
        linarith

/-- **The bound on a meter.**  Between `t₁` and `t₂` it grants no more than it
    holds and gains. -/
theorem granted_le (hburst : 0 ≤ burst) (hperiod : 0 < period) {m : Meter K} (hm : 0 ≤ m.level)
    {ts : List ℕ} (hts : ts.Pairwise (· ≤ ·)) (hfirst : ∀ t ∈ ts, m.time ≤ t) (t₁ t₂ : ℕ) :
    (granted burst period t₁ t₂ m ts : K) ≤ burst + ((t₂ - t₁ : ℕ) : K) / period := by
  apply (granted_le_budget hburst hperiod hm hts hfirst t₁ t₂).trans
  unfold budget
  apply add_le_add (fill_le_burst _ _)
  have hle : t₂ - max t₁ m.time ≤ t₂ - t₁ := by omega
  gcongr

end Meter

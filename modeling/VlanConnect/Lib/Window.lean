/-
  VlanConnect/Lib/Window.lean
  ===========================
  **A circular acceptance window over a stream of counters.**

  A window of `W` slots remembers, for the `W` counters that end at the
  largest one recorded so far (`top`), which of them have been recorded.  The
  slot of a counter is its residue modulo `W`, so slots are reused as the top
  moves on.  `Tracks w seen` ties the slots to the list of recorded counters,
  and `tracks_of_records` carries it over one recording step, whatever the
  distance the top moves.  The window then admits exactly the counters that
  are new and not too old (`admits_iff`).
-/
import Mathlib.Data.List.Basic
import Mathlib.Data.Nat.ModEq

/-- The state of a window: whether anything was recorded, the largest counter
    recorded, and the slots. -/
structure Window where
  started : Bool
  top : Nat
  slot : Nat → Bool

namespace Window

variable (W : Nat)

/-- A counter is admitted before the first recording, above the top, or in a
    slot inside the window that is still empty. -/
def Admits (w : Window) (c : Nat) : Prop :=
  w.started = false ∨ w.top < c ∨ w.top - c < W ∧ w.slot (c % W) = false

/-- `w'` is `w` after recording `c`: the top moves up to `c`, the slots that
    the move passes over are emptied, and the slot of `c` is filled. -/
structure Records (w w' : Window) (c : Nat) : Prop where
  started : w'.started = true
  top : w'.top = if w.started then max w.top c else c
  slot : ∀ i < W, w'.slot i = true ↔
    i = c % W ∨ w.started = true ∧ w.slot i = true ∧ ∀ j, w.top < j → j ≤ c → j % W ≠ i

/-- The slots of `w` say which of the counters in the window are in `seen`. -/
structure Tracks (w : Window) (seen : List Nat) : Prop where
  started : w.started = true ↔ seen ≠ []
  le_top : ∀ c ∈ seen, c ≤ w.top
  top_mem : seen ≠ [] → w.top ∈ seen
  slot : seen ≠ [] → ∀ c, c ≤ w.top → w.top - c < W → (w.slot (c % W) = true ↔ c ∈ seen)

theorem tracks_nil {w : Window} (h : w.started = false) : Tracks W w [] where
  started := by simp [h]
  le_top := by simp
  top_mem := by simp
  slot := by simp

/-- Two counters less than `W` apart share a slot only if they are equal. -/
theorem eq_of_mod_eq {a b : Nat} (hab : a ≤ b) (hlt : b - a < W) (h : a % W = b % W) : a = b := by
  have hdvd : W ∣ b - a := (Nat.modEq_iff_dvd' hab).mp h
  have h0 : b - a = 0 := Nat.eq_zero_of_dvd_of_lt hdvd hlt
  omega

/-- Among `W` consecutive counters every slot occurs. -/
theorem exists_mod_eq {top c i : Nat} (hi : i < W) (hc : W ≤ c - top) :
    ∃ j, top < j ∧ j ≤ c ∧ j % W = i := by
  refine ⟨top + 1 + (i + W - (top + 1) % W) % W, by omega, ?_, ?_⟩
  · have := Nat.mod_lt (i + W - (top + 1) % W) (by omega : 0 < W)
    omega
  · have hle : (top + 1) % W ≤ i + W := by
      have := Nat.mod_lt (top + 1) (by omega : 0 < W)
      omega
    rw [Nat.add_mod, Nat.mod_mod, ← Nat.add_mod, ← Nat.mod_add_mod]
    rw [show (top + 1) % W + (i + W - (top + 1) % W) = i + W by omega]
    rw [Nat.add_mod_right, Nat.mod_eq_of_lt hi]

variable {W}

/-- **What a tracking window admits.**  Exactly the counters that come first,
    lie above everything recorded, or lie less than `W` below the top and are
    new. -/
theorem admits_iff {w : Window} {seen : List Nat} (h : Tracks W w seen) (c : Nat) :
    w.Admits W c ↔
      seen = [] ∨ (∀ a ∈ seen, a < c) ∨ (∃ a ∈ seen, c ≤ a) ∧ w.top - c < W ∧ c ∉ seen := by
  by_cases hs : seen = []
  · have hstart : w.started = false := by
      simpa [hs] using h.started
    simp [Admits, hs, hstart]
  · have hstart : w.started = true := h.started.mpr hs
    have htop := h.top_mem hs
    have habove : w.top < c ↔ ∀ a ∈ seen, a < c :=
      ⟨fun hc a ha => lt_of_le_of_lt (h.le_top a ha) hc, fun hc => hc _ htop⟩
    by_cases hc : w.top < c
    · exact ⟨fun _ => Or.inr (Or.inl (habove.mp hc)), fun _ => Or.inr (Or.inl hc)⟩
    · have hcle : c ≤ w.top := by omega
      have hnot : ¬ ∀ a ∈ seen, a < c := fun hall => hc (habove.mpr hall)
      have hex : ∃ a ∈ seen, c ≤ a := ⟨_, htop, hcle⟩
      by_cases hin : w.top - c < W
      · have hslot := h.slot hs c hcle hin
        simp only [Admits, hstart, hc, hin, hs, hnot, hex, true_and, false_or, Bool.true_eq_false]
        rw [← hslot]
        simp
      · simp [Admits, hstart, hc, hin, hs, hnot]

/-- `m` is the largest counter of `seen`. -/
def IsLargest (seen : List Nat) (m : Nat) : Prop := m ∈ seen ∧ ∀ a ∈ seen, a ≤ m

theorem Tracks.top_eq {w : Window} {seen : List Nat} {m : Nat} (h : Tracks W w seen)
    (hm : IsLargest seen m) : w.top = m :=
  le_antisymm (hm.2 _ (h.top_mem (List.ne_nil_of_mem hm.1))) (h.le_top m hm.1)

/-- A new counter is admitted when it comes first, lies above the largest one
    or less than `W` below it. -/
theorem Tracks.admits {w : Window} {seen : List Nat} {c : Nat} (h : Tracks W w seen)
    (hnew : c ∉ seen)
    (hin : seen = [] ∨ ∃ m, IsLargest seen m ∧ (m < c ∨ m - c < W)) : w.Admits W c := by
  rw [admits_iff h]
  rcases hin with hnil | ⟨m, hm, hnear⟩
  · exact Or.inl hnil
  · by_cases hlt : m < c
    · exact Or.inr (Or.inl fun a ha => lt_of_le_of_lt (hm.2 a ha) hlt)
    · refine Or.inr (Or.inr ⟨⟨m, hm.1, not_lt.mp hlt⟩, ?_, hnew⟩)
      rw [h.top_eq hm]
      exact hnear.resolve_left hlt

/-- A counter `W` or more below the largest one is not admitted. -/
theorem Tracks.not_admits {w : Window} {seen : List Nat} {c m : Nat} (h : Tracks W w seen)
    (hW : 0 < W) (hm : IsLargest seen m) (hold : c + W ≤ m) : ¬ w.Admits W c := by
  rw [admits_iff h]
  rintro (hnil | habove | ⟨_, hlt, _⟩)
  · exact absurd hnil (List.ne_nil_of_mem hm.1)
  · have := habove m hm.1
    omega
  · rw [h.top_eq hm] at hlt
    omega

/-- An admitted counter is new. -/
theorem Tracks.not_mem {w : Window} {seen : List Nat} {c : Nat} (h : Tracks W w seen)
    (hadm : w.Admits W c) : c ∉ seen := by
  intro hmem
  rcases (admits_iff h c).mp hadm with hnil | habove | ⟨_, _, hnew⟩
  · simp [hnil] at hmem
  · exact absurd (habove _ hmem) (lt_irrefl _)
  · exact hnew hmem

/-- **Recording an admitted counter keeps the window tracking.** -/
theorem tracks_of_records {w w' : Window} {seen : List Nat} {c : Nat} (hW : 0 < W)
    (h : Tracks W w seen) (hadm : w.Admits W c) (hr : Records W w w' c) :
    Tracks W w' (c :: seen) := by
  have hne : c :: seen ≠ [] := by simp
  by_cases hs : seen = []
  · -- the first counter: every other slot is empty
    have hstart : w.started = false := by simpa [hs] using h.started
    have htop : w'.top = c := by simp [hr.top, hstart]
    subst hs
    refine ⟨by simp [hr.started], by simp [htop], by simp [htop], ?_⟩
    intro _ a ha hlt
    rw [hr.slot _ (Nat.mod_lt _ hW), htop] at *
    simp only [hstart, Bool.false_eq_true, false_and, or_false, List.mem_singleton]
    exact ⟨fun hm => eq_of_mod_eq W ha hlt hm, fun he => by rw [he]⟩
  · have hstart : w.started = true := h.started.mpr hs
    have htop : w'.top = max w.top c := by simp [hr.top, hstart]
    have hmem := h.top_mem hs
    have hnear : w.top - c < W := by
      rcases hadm with hf | hlt | hin
      · simp [hstart] at hf
      · omega
      · exact hin.1
    refine ⟨by simp [hr.started], ?_, ?_, ?_⟩
    · intro a ha
      rcases List.mem_cons.mp ha with rfl | ha
      · omega
      · have := h.le_top a ha
        omega
    · intro _
      rcases Nat.le_total w.top c with hle | hle
      · rw [htop, max_eq_right hle]; exact List.mem_cons_self
      · rw [htop, max_eq_left hle]; exact List.mem_cons_of_mem _ hmem
    · intro _ a ha hlt
      rw [hr.slot _ (Nat.mod_lt _ hW), htop] at *
      by_cases hac : a = c
      · simp [hac]
      by_cases hold : a ≤ w.top
      · -- an older counter keeps its slot: nothing the top passed over shares it
        have hin : w.top - a < W := by omega
        have hcslot : a % W ≠ c % W := by
          intro hm
          rcases Nat.le_total a c with hle | hle
          · exact hac (eq_of_mod_eq W hle (by omega) hm)
          · exact hac (eq_of_mod_eq W hle (by omega) hm.symm).symm
        have hpass : ∀ j, w.top < j → j ≤ c → j % W ≠ a % W := by
          intro j hj hjc hm
          have := eq_of_mod_eq W (by omega : a ≤ j) (by omega) hm.symm
          omega
        simp only [hcslot, hstart, true_and, false_or, List.mem_cons, hac]
        rw [h.slot hs a hold hin]
        exact ⟨fun hh => hh.1, fun hh => ⟨hh, hpass⟩⟩
      · -- a counter the top passed over is new and its slot was emptied
        have hcslot : a % W ≠ c % W := by
          intro hm
          exact hac (eq_of_mod_eq W (by omega) (by omega) hm)
        have hnew : a ∉ seen := fun hmem' => hold (h.le_top a hmem')
        simp only [hcslot, false_or, List.mem_cons, hac, hnew, or_self, iff_false, not_and]
        intro _ _ hpass
        exact hpass a (by omega) (by omega) rfl

end Window

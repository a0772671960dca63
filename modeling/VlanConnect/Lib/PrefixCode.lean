/-
  VlanConnect/Lib/PrefixCode.lean
  ===============================
  **Reading a text in a variable-length code that may have been cut.**

  Every symbol has a non-empty code word, and a recogniser looks at the front
  of the input: it names the length of the word it finds there, or says that
  the input is a word cut short, or that no word starts so.  `Recognises` is
  what a recogniser has to know; it makes the code a prefix code.

  `Scans code read v l s` is the scan of an input: the symbols `l` in front, and why it
  stopped.  A scan finds the longest text whose encoding the input starts with
  (`Scans.longest`), there is exactly one (`scans_exists`, `Scans.unique`), and
  the scan of an encoding cut anywhere finds the symbols that lie wholly before
  the cut and never calls the rest invalid (`scans_take`).
-/
import Mathlib.Data.List.Basic
import Mathlib.Data.List.Infix

namespace PrefixCode

variable {α β : Type}

/-- What a recogniser says of the front of an input. -/
inductive Verdict where
  | complete (length : Nat)
  | incomplete
  | invalid
deriving DecidableEq, Repr

/-- Why a scan stopped. -/
inductive Stop where
  | ended
  | incomplete
  | invalid
deriving DecidableEq, Repr

structure Recognises (code : α → List β) (read : List β → Verdict) : Prop where
  injective : Function.Injective code
  nonempty : ∀ a, code a ≠ []
  complete : ∀ a rest, read (code a ++ rest) = .complete (code a).length
  incomplete : ∀ a k, 0 < k → k < (code a).length → read ((code a).take k) = .incomplete
  sound : ∀ {v n}, read v = .complete n → ∃ a, code a <+: v ∧ (code a).length = n

/-- The encoding of a text. -/
def encode (code : α → List β) (l : List α) : List β := l.flatMap code

@[simp] theorem encode_nil (code : α → List β) : encode code [] = [] := rfl

@[simp] theorem encode_cons (code : α → List β) (a : α) (l : List α) :
    encode code (a :: l) = code a ++ encode code l := rfl

theorem encode_append (code : α → List β) (l m : List α) :
    encode code (l ++ m) = encode code l ++ encode code m :=
  List.flatMap_append

/-- `p` is the longest part in front of `l` whose encoding has at most `cut` letters. -/
structure Whole (code : α → List β) (cut : Nat) (l p : List α) : Prop where
  front : p <+: l
  fits : (encode code p).length ≤ cut
  longest : ∀ q, q <+: l → (encode code q).length ≤ cut → q <+: p

theorem Whole.unique {code : α → List β} {cut : Nat} {l p q : List α} (hp : Whole code cut l p)
    (hq : Whole code cut l q) : p = q := by
  have hle := (hq.longest p hp.front hp.fits).length_le
  have hge := hp.longest q hq.front hq.fits
  exact (hge.eq_of_length_le hle).symm

theorem whole_nil (code : α → List β) (cut : Nat) : Whole code cut [] [] where
  front := List.prefix_refl _
  fits := by simp
  longest := by
    intro q hq hfits
    exact hq

theorem Whole.cons {code : α → List β} {cut : Nat} {a : α} {l p : List α}
    (hle : (code a).length ≤ cut) (h : Whole code (cut - (code a).length) l p) :
    Whole code cut (a :: l) (a :: p) where
  front := List.cons_prefix_cons.mpr ⟨rfl, h.front⟩
  fits := by
    have hfits := h.fits
    simp only [encode_cons, List.length_append]
    omega
  longest := by
    intro q hq hfits
    cases q with
    | nil => exact List.nil_prefix
    | cons b q =>
      obtain ⟨rfl, hrest⟩ := List.cons_prefix_cons.mp hq
      simp only [encode_cons, List.length_append] at hfits
      exact List.cons_prefix_cons.mpr ⟨rfl, h.longest q hrest (by omega)⟩

/-- Nothing fits when the first word does not. -/
theorem whole_short {code : α → List β} {cut : Nat} {a : α} {l : List α}
    (hlt : cut < (code a).length) :
    Whole code cut (a :: l) [] where
  front := List.nil_prefix
  fits := by simp
  longest := by
    intro q hq hfits
    cases q with
    | nil => exact List.nil_prefix
    | cons b q =>
      obtain ⟨rfl, -⟩ := List.cons_prefix_cons.mp hq
      simp only [encode_cons, List.length_append] at hfits
      omega

theorem whole_exists (code : α → List β) (cut : Nat) (l : List α) : ∃ p, Whole code cut l p := by
  induction l generalizing cut with
  | nil => exact ⟨[], whole_nil code cut⟩
  | cons a l ih =>
    by_cases hle : (code a).length ≤ cut
    · obtain ⟨p, hp⟩ := ih (cut - (code a).length)
      exact ⟨a :: p, hp.cons hle⟩
    · exact ⟨[], whole_short (by omega)⟩

/-- The cut falls between two symbols, or at an end. -/
def Between (code : α → List β) (cut : Nat) (l : List α) : Prop :=
  ∃ q, q <+: l ∧ (encode code l).take cut = encode code q

inductive Scans (code : α → List β) (read : List β → Verdict) : List β → List α → Stop → Prop where
  | ended : Scans code read [] [] .ended
  | incomplete {v : List β} (hne : v ≠ []) (hread : read v = .incomplete) :
      Scans code read v [] .incomplete
  | invalid {v : List β} (hne : v ≠ []) (hread : read v = .invalid) : Scans code read v [] .invalid
  | complete {a : α} {rest : List β} {l : List α} {s : Stop} (h : Scans code read rest l s) :
      Scans code read (code a ++ rest) (a :: l) s

variable {code : α → List β} {read : List β → Verdict}

/-- What is left behind the symbols of a scan. -/
theorem Scans.split {v : List β} {l : List α} {s : Stop} (h : Scans code read v l s) :
    ∃ tail, v = encode code l ++ tail ∧ (s = .ended ↔ tail = []) ∧
    (s = .incomplete → read tail = .incomplete) ∧
      (s = .invalid → read tail = .invalid) := by
  induction h with
  | ended => exact ⟨[], by simp⟩
  | @incomplete v hne hread => exact ⟨v, by simp [hne, hread]⟩
  | @invalid v hne hread => exact ⟨v, by simp [hne, hread]⟩
  | complete h ih =>
    obtain ⟨tail, rfl, htail⟩ := ih
    exact ⟨tail, by simp, htail⟩

theorem scans_encode (l : List α) : Scans code read (encode code l) l .ended := by
  induction l with
  | nil => exact .ended
  | cons a l ih => exact ih.complete

/-- A text in front of the input is read first. -/
theorem Scans.append {v : List β} {m : List α} {s : Stop} (h : Scans code read v m s) (l : List α) :
    Scans code read (encode code l ++ v) (l ++ m) s := by
  induction l with
  | nil => exact h
  | cons a l ih =>
    rw [encode_cons, List.append_assoc]
    exact ih.complete

namespace Recognises

variable (R : Recognises code read)
include R

/-- Two words that start the same input are one. -/
theorem word_unique {a b : α} {u v : List β} (h : code a ++ u = code b ++ v) : a = b ∧ u = v := by
  have hread := R.complete a u
  rw [h, R.complete b v] at hread
  injection hread with hlength
  obtain ⟨hword, hrest⟩ := List.append_inj h hlength.symm
  exact ⟨R.injective hword, hrest⟩

theorem scans_exists (v : List β) : ∃ l s, Scans code read v l s := by
  induction hlen : v.length using Nat.strong_induction_on generalizing v with
  | _ n ih =>
    by_cases hne : v = []
    · exact ⟨[], .ended, hne ▸ .ended⟩
    · cases hread : read v with
      | incomplete => exact ⟨[], .incomplete, .incomplete hne hread⟩
      | invalid => exact ⟨[], .invalid, .invalid hne hread⟩
      | complete k =>
        obtain ⟨a, ⟨rest, rfl⟩, -⟩ := R.sound hread
        have hpos : 0 < (code a).length := List.length_pos_of_ne_nil (R.nonempty a)
        have hshort : rest.length < n := by
          rw [← hlen, List.length_append]
          omega
        obtain ⟨l, s, h⟩ := ih _ hshort rest rfl
        exact ⟨a :: l, s, .complete h⟩

theorem scans_unique {v : List β} {l l' : List α} {s s' : Stop} (h : Scans code read v l s)
    (h' : Scans code read v l' s') : l = l' ∧ s = s' := by
  induction h generalizing l' s' with
  | ended =>
    generalize hv : ([] : List β) = v at h'
    cases h' with
    | ended => exact ⟨rfl, rfl⟩
    | incomplete hne => exact absurd hv.symm hne
    | invalid hne => exact absurd hv.symm hne
    | complete => exact absurd (List.append_eq_nil_iff.mp hv.symm).1 (R.nonempty _)
  | incomplete hne hread =>
    cases h' with
    | ended => exact absurd rfl hne
    | incomplete => exact ⟨rfl, rfl⟩
    | invalid _ hread' => cases hread.symm.trans hread'
    | complete => cases hread.symm.trans (R.complete _ _)
  | invalid hne hread =>
    cases h' with
    | ended => exact absurd rfl hne
    | incomplete _ hread' => cases hread.symm.trans hread'
    | invalid => exact ⟨rfl, rfl⟩
    | complete => cases hread.symm.trans (R.complete _ _)
  | @complete a rest l s h ih =>
    generalize hv : code a ++ rest = v at h'
    cases h' with
    | ended => exact absurd (List.append_eq_nil_iff.mp hv).1 (R.nonempty _)
    | incomplete _ hread' =>
      rw [← hv, R.complete] at hread'
      cases hread'
    | invalid _ hread' =>
      rw [← hv, R.complete] at hread'
      cases hread'
    | complete h' =>
      obtain ⟨rfl, rfl⟩ := R.word_unique hv
      obtain ⟨rfl, rfl⟩ := ih h'
      exact ⟨rfl, rfl⟩

theorem scans_longest {v : List β} {l q : List α} {s : Stop} (h : Scans code read v l s)
    (hq : encode code q <+: v) : q <+: l := by
  induction h generalizing q with
  | ended =>
    cases q with
    | nil => exact List.nil_prefix
    | cons b q =>
      rw [encode_cons, List.prefix_nil, List.append_eq_nil_iff] at hq
      exact absurd hq.1 (R.nonempty b)
  | incomplete hne hread =>
    cases q with
    | nil => exact List.nil_prefix
    | cons b q =>
      obtain ⟨rest, rfl⟩ := hq
      rw [encode_cons, List.append_assoc, R.complete] at hread
      cases hread
  | invalid hne hread =>
    cases q with
    | nil => exact List.nil_prefix
    | cons b q =>
      obtain ⟨rest, rfl⟩ := hq
      rw [encode_cons, List.append_assoc, R.complete] at hread
      cases hread
  | complete h ih =>
    cases q with
    | nil => exact List.nil_prefix
    | cons b q =>
      obtain ⟨rest, hrest⟩ := hq
      rw [encode_cons, List.append_assoc] at hrest
      obtain ⟨rfl, rfl⟩ := R.word_unique hrest
      exact List.cons_prefix_cons.mpr ⟨rfl, ih (List.prefix_append _ _)⟩

/-- The scan of an encoding cut anywhere. -/
theorem scans_take (l : List α) (cut : Nat) :
    ∃ p s, Whole code cut l p ∧ Scans code read ((encode code l).take cut) p s ∧ s ≠ .invalid := by
  induction l generalizing cut with
  | nil => exact ⟨[], .ended, whole_nil code cut, by simpa using .ended, by decide⟩
  | cons a l ih =>
    by_cases hle : (code a).length ≤ cut
    · obtain ⟨p, s, hp, hscan, hs⟩ := ih (cut - (code a).length)
      refine ⟨a :: p, s, hp.cons hle, ?_, hs⟩
      rw [encode_cons, List.take_append, List.take_of_length_le hle]
      exact hscan.complete
    · have hlt : cut < (code a).length := by omega
      have hcut : (encode code (a :: l)).take cut = (code a).take cut := by
        rw [encode_cons, List.take_append_of_le_length (by omega)]
      rw [hcut]
      rcases Nat.eq_zero_or_pos cut with rfl | hpos
      · exact ⟨[], .ended, whole_short hlt, by simpa using .ended, by decide⟩
      · have hne : (code a).take cut ≠ [] := by
          intro hnil
          have hlength := congrArg List.length hnil
          simp only [List.length_take, List.length_nil] at hlength
          omega
        exact ⟨[], .incomplete, whole_short hlt,
          .incomplete hne (R.incomplete a cut hpos hlt), by decide⟩

/-- A scan uses up its input exactly on encodings. -/
theorem ended_iff {v : List β} {l : List α} {s : Stop} (h : Scans code read v l s) :
    s = .ended ↔ ∃ q, v = encode code q := by
  constructor
  · rintro rfl
    obtain ⟨tail, hv, htail, -⟩ := h.split
    exact ⟨l, by rw [hv, htail.mp rfl, List.append_nil]⟩
  · rintro ⟨q, rfl⟩
    exact (R.scans_unique h (scans_encode q)).2

theorem encode_injective : Function.Injective (encode code) := by
  intro p q h
  exact (R.scans_unique (scans_encode p) (h ▸ scans_encode q)).1

/-- A text that starts another one is found by its encoding. -/
theorem prefix_of_encode {p q : List α} (h : encode code p <+: encode code q) : p <+: q :=
  R.scans_longest (scans_encode q) h

/-- A cut is between the symbols exactly when the scan of what it leaves ends. -/
theorem scans_cut (l : List α) (cut : Nat) :
    ∃ p s, Whole code cut l p ∧ Scans code read ((encode code l).take cut) p s ∧ s ≠ .invalid ∧
      (s = .ended ↔ Between code cut l) := by
  obtain ⟨p, s, hp, hscan, hs⟩ := R.scans_take l cut
  refine ⟨p, s, hp, hscan, hs, (R.ended_iff hscan).trans ?_⟩
  constructor
  · rintro ⟨q, hq⟩
    have hfront : encode code q <+: encode code l := hq ▸ List.take_prefix cut _
    exact ⟨q, R.prefix_of_encode hfront, hq⟩
  · rintro ⟨q, -, hq⟩
    exact ⟨q, hq⟩

end Recognises

end PrefixCode

/-
  VlanConnect/Lib/Completion.lean
  ===============================
  **Items completed from pieces, against a clock.**

  A book opens an entry for an item at its first piece and closes it when all
  pieces are there; a sweep drops the entries whose first piece is too old.
  The main result reads the completed items off the events alone: an item is
  completed exactly when, at some moment, all of its pieces have come and no
  sweep since the first one found it too old.
-/
import Mathlib.Data.Finset.Card
import Mathlib.Data.List.Nodup
import Mathlib.Data.List.Induction
import Mathlib.Logic.Function.Basic

namespace Completion

variable {ι : Type} [DecidableEq ι]

inductive Event (ι : Type) where
  | piece (now : Nat) (item : ι) (index : Nat)
  | sweep (now : Nat)

/-- The time of the first piece and the pieces so far of each item that is open, and the
    items completed. -/
structure Book (ι : Type) where
  pending : ι → Option (Nat × Finset Nat) := fun _ => none
  completed : List ι := []

section Run

variable (count : ι → Nat) (expired : Nat → Nat → Bool)

def step (b : Book ι) : Event ι → Book ι
  | .piece now j i =>
    let (first, received) := (b.pending j).getD (now, ∅)
    let received := insert i received
    if received.card = count j then
      { pending := Function.update b.pending j none, completed := b.completed ++ [j] }
    else { b with pending := Function.update b.pending j (some (first, received)) }
  | .sweep now => { b with pending := fun j => (b.pending j).filter fun p => !expired now p.1 }

def run (b : Book ι) (es : List (Event ι)) : Book ι := es.foldl (step count expired) b

end Run

/-! ### Reading a list of events -/

/-- The pieces in their order. -/
def pieces (es : List (Event ι)) : List (ι × Nat) :=
  es.filterMap fun
    | .piece _ j i => some (j, i)
    | .sweep _ => none

/-- Time and index of the first piece of an item. -/
def first (j : ι) (es : List (Event ι)) : Option (Nat × Nat) :=
  es.findSome? fun
    | .piece now k i => if k = j then some (now, i) else none
    | .sweep _ => none

/-- The pieces of an item that came. -/
def arrived (j : ι) (es : List (Event ι)) : Finset Nat :=
  (((pieces es).filter fun p => p.1 = j).map Prod.snd).toFinset

/-- A sweep after the first piece found it too old. -/
def Swept (expired : Nat → Nat → Bool) (j : ι) (es : List (Event ι)) : Prop :=
  ∃ before now after p, es = before ++ .sweep now :: after ∧ first j before = some p ∧
    expired now p.1 = true

/-- At some moment all pieces are there and none was swept. -/
def Complete (count : ι → Nat) (expired : Nat → Nat → Bool) (j : ι) (es : List (Event ι)) : Prop :=
  ∃ before after, es = before ++ after ∧ arrived j before = Finset.range (count j) ∧
    ¬ Swept expired j before

variable {count : ι → Nat} {expired : Nat → Nat → Bool} {j : ι} {es : List (Event ι)} {e : Event ι}

theorem mem_arrived {i : Nat} : i ∈ arrived j es ↔ (j, i) ∈ pieces es := by
  simp [arrived]

omit [DecidableEq ι] in
theorem pieces_append (es es' : List (Event ι)) : pieces (es ++ es') = pieces es ++ pieces es' :=
  List.filterMap_append

theorem arrived_append_piece (now i : Nat) :
    arrived j (es ++ [.piece now j i]) = insert i (arrived j es) := by
  ext k
  rw [Finset.mem_insert, mem_arrived, mem_arrived, pieces_append, List.mem_append]
  simp [pieces, or_comm]

theorem arrived_append_other (h : ∀ now i, e ≠ .piece now j i) :
    arrived j (es ++ [e]) = arrived j es := by
  ext k
  rw [mem_arrived, mem_arrived, pieces_append, List.mem_append]
  cases e with
  | piece now l i =>
    have hne : j ≠ l := fun heq => h now i (by rw [heq])
    simp [pieces, hne]
  | sweep now => simp [pieces]

theorem first_append (j : ι) (es es' : List (Event ι)) :
    first j (es ++ es') = (first j es).or (first j es') :=
  List.findSome?_append

theorem first_append_of_some {p : Nat × Nat} (h : first j es = some p) (es' : List (Event ι)) :
    first j (es ++ es') = some p := by
  rw [first_append, h, Option.some_or]

/-- The first piece is one that came. -/
theorem mem_arrived_of_first {p : Nat × Nat} (h : first j es = some p) : p.2 ∈ arrived j es := by
  obtain ⟨e, he, hp⟩ := List.exists_of_findSome?_eq_some h
  rw [mem_arrived]
  refine List.mem_filterMap.mpr ⟨e, he, ?_⟩
  cases e with
  | piece now k i =>
    dsimp only at hp ⊢
    split at hp
    · next hk =>
      cases hp
      rw [hk]
    · cases hp
  | sweep now => cases hp

theorem arrived_eq_empty_of_first (h : first j es = none) : arrived j es = ∅ := by
  refine Finset.eq_empty_of_forall_notMem fun i hi => ?_
  obtain ⟨e, he, hp⟩ := List.mem_filterMap.mp (mem_arrived.mp hi)
  have hnone := List.findSome?_eq_none_iff.mp h e he
  cases e with
  | piece now k l =>
    simp only [Option.some.injEq, Prod.mk.injEq] at hp
    simp [hp.1] at hnone
  | sweep now => cases hp

/-- The events, cut at the last one. -/
theorem swept_append_iff : Swept expired j (es ++ [e]) ↔
    Swept expired j es ∨ ∃ now p, e = .sweep now ∧ first j es = some p ∧
    expired now p.1 = true := by
  constructor
  · rintro ⟨before, now, after, p, heq, hfirst, hexp⟩
    rcases List.eq_nil_or_concat after with rfl | ⟨after', e', rfl⟩
    · obtain ⟨rfl, he⟩ := List.append_inj' heq rfl
      exact Or.inr ⟨now, p, List.singleton_injective he, hfirst, hexp⟩
    · rw [List.concat_eq_append, ← List.cons_append, ← List.append_assoc] at heq
      obtain ⟨rfl, -⟩ := List.append_inj' heq rfl
      exact Or.inl ⟨before, now, after', p, rfl, hfirst, hexp⟩
  · rintro (⟨before, now, after, p, rfl, hfirst, hexp⟩ | ⟨now, p, rfl, hfirst, hexp⟩)
    · exact ⟨before, now, after ++ [e], p, by simp, hfirst, hexp⟩
    · exact ⟨es, now, [], p, rfl, hfirst, hexp⟩

theorem complete_append_iff : Complete count expired j (es ++ [e]) ↔
    Complete count expired j es ∨ arrived j (es ++ [e]) = Finset.range (count j) ∧
    ¬ Swept expired j (es ++ [e]) := by
  constructor
  · rintro ⟨before, after, heq, harrived, hswept⟩
    rcases List.eq_nil_or_concat after with rfl | ⟨after', e', rfl⟩
    · rw [List.append_nil] at heq
      rw [heq]
      exact Or.inr ⟨harrived, hswept⟩
    · rw [List.concat_eq_append, ← List.append_assoc] at heq
      obtain ⟨rfl, -⟩ := List.append_inj' heq rfl
      exact Or.inl ⟨before, after', rfl, harrived, hswept⟩
  · rintro (⟨before, after, rfl, harrived, hswept⟩ | ⟨harrived, hswept⟩)
    · exact ⟨before, after ++ [e], by simp, harrived, hswept⟩
    · exact ⟨es ++ [e], [], by simp, harrived, hswept⟩

theorem arrived_mono (es es' : List (Event ι)) : arrived j es ⊆ arrived j (es ++ es') := by
  intro i hi
  rw [mem_arrived] at hi ⊢
  rw [pieces_append]
  exact List.mem_append_left _ hi

/-! ### The book and the events -/

/-- Every piece has an index of its item, and comes at most once. -/
structure Wellformed (count : ι → Nat) (es : List (Event ι)) : Prop where
  index : ∀ p ∈ pieces es, p.2 < count p.1
  once : (pieces es).Nodup

omit [DecidableEq ι] in
theorem Wellformed.init (h : Wellformed count (es ++ [e])) : Wellformed count es := by
  have hindex := h.index
  have honce := h.once
  rw [pieces_append] at hindex honce
  exact ⟨fun p hp => hindex p (List.mem_append_left _ hp), honce.of_append_left⟩

theorem Wellformed.arrived_subset (h : Wellformed count es) (j : ι) :
    arrived j es ⊆ Finset.range (count j) := by
  intro i hi
  exact Finset.mem_range.mpr (h.index (j, i) (mem_arrived.mp hi))

omit [DecidableEq ι] in
/-- The last piece is new, and one of its item. -/
theorem Wellformed.last {now i : Nat} (h : Wellformed count (es ++ [.piece now j i])) :
    i < count j ∧ (j, i) ∉ pieces es := by
  have hindex := h.index
  have honce := h.once
  rw [pieces_append] at hindex honce
  refine ⟨hindex (j, i) (List.mem_append_right _ (List.mem_singleton_self _)), fun hmem => ?_⟩
  exact (List.nodup_append.mp honce).2.2 _ hmem _ (List.mem_singleton_self _) rfl

/-- What the book says of each item, by the events so far. -/
structure Tracks (count : ι → Nat) (expired : Nat → Nat → Bool) (b : Book ι) (es : List (Event ι)) :
    Prop where
  completed : ∀ j, j ∈ b.completed ↔ Complete count expired j es
  nodup : b.completed.Nodup
  unopened : ∀ j, first j es = none → b.pending j = none
  alive : ∀ j p, first j es = some p → ¬ Swept expired j es → ¬ Complete count expired j es →
    b.pending j = some (p.1, arrived j es)
  swept : ∀ j p, first j es = some p → Swept expired j es → ∀ q, b.pending j = some q →
    p.2 ∉ q.2 ∧ q.2 ⊆ Finset.range (count j)
  closed : ∀ j, Complete count expired j es → b.pending j = none

theorem not_swept_of_first (h : first j es = none) : ¬ Swept expired j es := by
  rintro ⟨before, now, after, p, rfl, hfirst, -⟩
  rw [first_append_of_some hfirst] at h
  cases h

theorem tracks_nil (hcount : ∀ j, 1 ≤ count j) : Tracks count expired ({} : Book ι) [] := by
  have hnot : ∀ j : ι, ¬ Complete count expired j [] := by
    rintro j ⟨before, after, heq, harrived, -⟩
    obtain ⟨rfl, rfl⟩ := List.append_eq_nil_iff.mp heq.symm
    have hempty : arrived j ([] : List (Event ι)) = ∅ := rfl
    rw [hempty, eq_comm, Finset.range_eq_empty_iff] at harrived
    exact absurd harrived (Nat.one_le_iff_ne_zero.mp (hcount j))
  refine ⟨fun j => ?_, List.nodup_nil, fun _ _ => rfl, ?_, ?_, fun _ _ => rfl⟩
  · exact iff_of_false List.not_mem_nil (hnot j)
  · intro j p hfirst
    cases hfirst
  · intro j p hfirst
    cases hfirst

/-- A sweep. -/
theorem Tracks.sweep {b : Book ι} (h : Tracks count expired b es) (now : Nat) :
    Tracks count expired (step count expired b (.sweep now)) (es ++ [.sweep now]) := by
  have harrived : ∀ j, arrived j (es ++ [.sweep now]) = arrived j es :=
    fun j => arrived_append_other (fun _ _ => nofun)
  have hfirst : ∀ j, first j (es ++ [.sweep now]) = first j es := by
    intro j
    rw [first_append]
    exact Option.or_none
  have hcomplete : ∀ j, Complete count expired j (es ++ [.sweep now]) ↔
      Complete count expired j es := by
    intro j
    rw [complete_append_iff, harrived]
    constructor
    · rintro (hc | ⟨harr, hsw⟩)
      · exact hc
      · exact ⟨es, [], by simp, harr, fun hs => hsw (swept_append_iff.mpr (Or.inl hs))⟩
    · exact Or.inl
  refine ⟨?_, h.nodup, ?_, ?_, ?_, ?_⟩
  · intro j
    rw [hcomplete]
    exact h.completed j
  · intro j hnone
    rw [hfirst] at hnone
    change Option.filter _ (b.pending j) = none
    rw [h.unopened j hnone]
    rfl
  · intro j p hp hsw hc
    rw [hfirst] at hp
    rw [hcomplete] at hc
    rw [swept_append_iff, not_or] at hsw
    change Option.filter _ (b.pending j) = _
    rw [h.alive j p hp hsw.1 hc, harrived]
    refine Option.filter_some_pos ?_
    rw [Bool.not_eq_true']
    by_contra hexp
    exact hsw.2 ⟨now, p, rfl, hp, by simpa using hexp⟩
  · intro j p hp hsw q hq
    rw [hfirst] at hp
    obtain ⟨hpending, hkept⟩ := Option.filter_eq_some_iff.mp hq
    by_cases hold : Swept expired j es
    · exact h.swept j p hp hold q hpending
    · obtain ⟨now', p', he, hp', hexp⟩ := (swept_append_iff.mp hsw).resolve_left hold
      cases he
      rw [hp] at hp'
      cases hp'
      have hopen : ¬ Complete count expired j es := by
        intro hc
        rw [h.closed j hc] at hpending
        cases hpending
      rw [h.alive j p hp hold hopen] at hpending
      cases hpending
      simp [hexp] at hkept
  · intro j hc
    rw [hcomplete] at hc
    change Option.filter _ (b.pending j) = none
    rw [h.closed j hc]
    rfl

/-- An item is not complete before its last piece. -/
theorem not_complete_of_missing {i : Nat} (hi : i < count j) (hnew : (j, i) ∉ pieces es) :
    ¬ Complete count expired j es := by
  rintro ⟨before, after, rfl, harrived, -⟩
  have hmem : i ∈ arrived j before := by
    rw [harrived]
    exact Finset.mem_range.mpr hi
  exact hnew (mem_arrived.mp (arrived_mono before after hmem))

theorem swept_append_piece {k : ι} (now i : Nat) :
    Swept expired k (es ++ [.piece now j i]) ↔ Swept expired k es := by
  rw [swept_append_iff]
  refine or_iff_left ?_
  rintro ⟨now', p, he, -⟩
  cases he

/-- What the book holds of an item after one more piece, if the item stays open: all that
    came since the first piece, or not that one. -/
theorem Tracks.received {b : Book ι} (h : Tracks count expired b es) {now i : Nat}
    (hwf : Wellformed count (es ++ [.piece now j i])) :
    ∃ p, first j (es ++ [.piece now j i]) = some p ∧
      ((¬ Swept expired j (es ++ [.piece now j i]) ∧ ((b.pending j).getD (now, ∅)).1 = p.1 ∧
          insert i ((b.pending j).getD (now, ∅)).2 = arrived j (es ++ [.piece now j i])) ∨
        (Swept expired j (es ++ [.piece now j i]) ∧ p.2 ∉ insert i ((b.pending j).getD (now, ∅)).2 ∧
          p.2 < count j ∧
          insert i ((b.pending j).getD (now, ∅)).2 ⊆ Finset.range (count j))) := by
  obtain ⟨hi, hnew⟩ := hwf.last
  have hopen : ¬ Complete count expired j es := not_complete_of_missing hi hnew
  rw [swept_append_piece, arrived_append_piece]
  cases hfirst : first j es with
  | none =>
    refine ⟨(now, i), by rw [first_append, hfirst]; simp [first],
      Or.inl ⟨not_swept_of_first hfirst, ?_⟩⟩
    rw [h.unopened j hfirst, arrived_eq_empty_of_first hfirst]
    exact ⟨rfl, rfl⟩
  | some p =>
    refine ⟨p, first_append_of_some hfirst _, ?_⟩
    by_cases hswept : Swept expired j es
    · right
      have harrived := mem_arrived_of_first hfirst
      have hne : p.2 ≠ i := by
        rintro rfl
        exact hnew (mem_arrived.mp harrived)
      have hlt : p.2 < count j := Finset.mem_range.mp (hwf.init.arrived_subset j harrived)
      have hold : p.2 ∉ ((b.pending j).getD (now, ∅)).2 ∧
          ((b.pending j).getD (now, ∅)).2 ⊆ Finset.range (count j) := by
        cases hpending : b.pending j with
        | none => exact ⟨Finset.notMem_empty _, Finset.empty_subset _⟩
        | some q => exact h.swept j p hfirst hswept q hpending
      refine ⟨hswept, ?_, hlt, Finset.insert_subset (Finset.mem_range.mpr hi) hold.2⟩
      rw [Finset.mem_insert, not_or]
      exact ⟨hne, hold.1⟩
    · left
      rw [h.alive j p hfirst hswept hopen]
      exact ⟨hswept, rfl, rfl⟩

/-- The last piece of an item completes it, unless an earlier one was swept. -/
theorem Tracks.card_iff {b : Book ι} (h : Tracks count expired b es) {now i : Nat}
    (hwf : Wellformed count (es ++ [.piece now j i])) :
    (insert i ((b.pending j).getD (now, ∅)).2).card = count j ↔
    Complete count expired j (es ++ [.piece now j i]) := by
  obtain ⟨hi, hnew⟩ := hwf.last
  have hopen : ¬ Complete count expired j es := not_complete_of_missing hi hnew
  rw [complete_append_iff, or_iff_right hopen]
  obtain ⟨p, hp, ⟨hswept, -, hall⟩ | ⟨hswept, hmissing, hlt, hsub⟩⟩ := h.received hwf
  · rw [hall]
    constructor
    · intro hcard
      refine ⟨Finset.eq_of_subset_of_card_le (hwf.arrived_subset j) ?_, hswept⟩
      rw [hcard, Finset.card_range]
    · rintro ⟨harrived, -⟩
      rw [harrived, Finset.card_range]
  · refine iff_of_false ?_ fun hc => hc.2 hswept
    intro hcard
    have heq := Finset.eq_of_subset_of_card_le hsub (by rw [hcard, Finset.card_range])
    rw [heq] at hmissing
    exact hmissing (Finset.mem_range.mpr hlt)

/-- A piece that is new. -/
theorem Tracks.piece {b : Book ι} (h : Tracks count expired b es) {now i : Nat}
    (hwf : Wellformed count (es ++ [.piece now j i])) :
    Tracks count expired (step count expired b (.piece now j i)) (es ++ [.piece now j i]) := by
  obtain ⟨hi, hnew⟩ := hwf.last
  have hopen : ¬ Complete count expired j es := not_complete_of_missing hi hnew
  have hiff := h.card_iff hwf
  obtain ⟨p, hp, hreceived⟩ := h.received hwf
  -- Nothing changes for the other items.
  have hfirst : ∀ k, k ≠ j → first k (es ++ [.piece now j i]) = first k es := by
    intro k hk
    rw [first_append]
    simp [first, hk.symm]
  have harrived : ∀ k, k ≠ j → arrived k (es ++ [.piece now j i]) = arrived k es := by
    intro k hk
    refine arrived_append_other fun now' i' he => ?_
    cases he
    exact hk rfl
  have hcomplete : ∀ k, k ≠ j →
      (Complete count expired k (es ++ [.piece now j i]) ↔ Complete count expired k es) := by
    intro k hk
    rw [complete_append_iff, harrived k hk, swept_append_piece]
    constructor
    · rintro (hc | ⟨harr, hsw⟩)
      · exact hc
      · exact ⟨es, [], by simp, harr, hsw⟩
    · exact Or.inl
  have hpending : ∀ k, k ≠ j → (step count expired b (.piece now j i)).pending k = b.pending k := by
    intro k hk
    simp only [step]
    split
    · exact Function.update_of_ne hk _ _
    · exact Function.update_of_ne hk _ _
  have hself : (step count expired b (.piece now j i)).pending j =
      if (insert i ((b.pending j).getD (now, ∅)).2).card = count j then none
      else some (((b.pending j).getD (now, ∅)).1, insert i ((b.pending j).getD (now, ∅)).2) := by
    simp only [step]
    split
    · exact Function.update_self _ _ _
    · exact Function.update_self _ _ _
  have hlist : (step count expired b (.piece now j i)).completed =
      if (insert i ((b.pending j).getD (now, ∅)).2).card = count j then b.completed ++ [j]
      else b.completed := by
    simp only [step]
    split
    · rfl
    · rfl
  have hjnot : j ∉ b.completed := mt (h.completed j).mp hopen
  refine ⟨?_, ?_, ?_, ?_, ?_, ?_⟩
  · intro k
    rw [hlist]
    by_cases hk : k = j
    · subst hk
      rw [← hiff]
      split
      · next hcard => exact iff_of_true (List.mem_append_right _ (List.mem_singleton_self _)) hcard
      · next hcard => exact iff_of_false hjnot hcard
    · rw [hcomplete k hk, ← h.completed k]
      split
      · simp [hk]
      · rfl
  · rw [hlist]
    split
    · refine h.nodup.append (List.nodup_singleton j) ?_
      intro k hk hkj
      exact hjnot (List.mem_singleton.mp hkj ▸ hk)
    · exact h.nodup
  · intro k hnone
    by_cases hk : k = j
    · subst hk
      rw [hp] at hnone
      cases hnone
    · rw [hfirst k hk] at hnone
      rw [hpending k hk, h.unopened k hnone]
  · intro k q hq hsw hc
    by_cases hk : k = j
    · subst hk
      rw [hp] at hq
      cases hq
      rw [hself, if_neg (mt hiff.mp hc)]
      obtain ⟨-, htime, hall⟩ | ⟨hswept, -⟩ := hreceived
      · rw [htime, hall]
      · exact absurd hswept hsw
    · rw [hfirst k hk] at hq
      rw [swept_append_piece] at hsw
      rw [hcomplete k hk] at hc
      rw [hpending k hk, harrived k hk]
      exact h.alive k q hq hsw hc
  · intro k q hq hsw r hr
    by_cases hk : k = j
    · subst hk
      rw [hp] at hq
      cases hq
      rw [hself] at hr
      split at hr
      · cases hr
      · cases hr
        obtain ⟨hswept, -⟩ | ⟨-, hmissing, -, hsub⟩ := hreceived
        · exact absurd hsw hswept
        · exact ⟨hmissing, hsub⟩
    · rw [hfirst k hk] at hq
      rw [swept_append_piece] at hsw
      rw [hpending k hk] at hr
      exact h.swept k q hq hsw r hr
  · intro k hc
    by_cases hk : k = j
    · subst hk
      rw [hself, if_pos (hiff.mpr hc)]
    · rw [hcomplete k hk] at hc
      rw [hpending k hk, h.closed k hc]

end Completion

/-
  VlanConnect/Lib/Census.lean
  ===========================
  **Counting the entries of a map by what they belong to.**

  `population attr m b` is the number of entries of `m` that belong to `b`.
  Taking an entry out lowers one population by one (`population_erase`), putting
  one in raises one, and a change that keeps what an entry belongs to changes
  none.
-/
import VlanConnect.Lib.PieceTable

namespace Census

open Std PieceTable

variable {κ α β : Type} [Ord κ] [TransOrd κ] [LawfulEqOrd κ] [DecidableEq β] (attr : α → β)

def population (m : ExtTreeMap κ α) (b : β) : Nat := m.toList.countP fun p => decide (attr p.2 = b)

omit [LawfulEqOrd κ] in
theorem population_empty (b : β) : population attr (∅ : ExtTreeMap κ α) b = 0 := by
  have hnil : (∅ : ExtTreeMap κ α).toList = [] :=
    List.eq_nil_of_length_eq_zero (by rw [ExtTreeMap.length_toList, ExtTreeMap.size_empty])
  rw [population, hnil]
  exact List.countP_nil

theorem population_erase {m : ExtTreeMap κ α} {k : κ} {a : α} (h : m[k]? = some a) (b : β) :
    population attr m b = population attr (m.erase k) b + if attr a = b then 1 else 0 := by
  have hperm := (toList_erase_perm h).countP_eq (fun p => decide (attr p.2 = b))
  rw [List.countP_cons] at hperm
  simpa [population] using hperm

theorem population_insert_new {m : ExtTreeMap κ α} {k : κ} (h : m[k]? = none) (a : α) (b : β) :
    population attr (m.insert k a) b = population attr m b + if attr a = b then 1 else 0 := by
  rw [population_erase attr ExtTreeMap.getElem?_insert_self, erase_insert, erase_of_none h]

/-- An entry is replaced by one that belongs to the same. -/
theorem population_insert_same {m : ExtTreeMap κ α} {k : κ} {a d : α} (h : m[k]? = some a)
    (ha : attr d = attr a) (b : β) : population attr (m.insert k d) b = population attr m b := by
  rw [population_erase attr h, population_erase attr ExtTreeMap.getElem?_insert_self,
    erase_insert, ha]

theorem alter_map_eq {m : ExtTreeMap κ α} {k : κ} {a : α} (h : m[k]? = some a) (f : α → α) :
    m.alter k (·.map f) = m.insert k (f a) := by
  refine ExtTreeMap.ext_getElem? fun j => ?_
  rw [ExtTreeMap.getElem?_alter, ExtTreeMap.getElem?_insert, h]
  split
  · rfl
  · rfl

theorem alter_map_of_none {m : ExtTreeMap κ α} {k : κ} (h : m[k]? = none) (f : α → α) :
    m.alter k (·.map f) = m := by
  refine ExtTreeMap.ext_getElem? fun j => ?_
  rw [ExtTreeMap.getElem?_alter]
  split
  · next hjk =>
    obtain rfl := LawfulEqCmp.eq_of_compare hjk
    rw [h]
    rfl
  · rfl

theorem population_alter {m : ExtTreeMap κ α} {k : κ} {f : α → α} (hf : ∀ a, attr (f a) = attr a)
    (b : β) :
    population attr (m.alter k (·.map f)) b = population attr m b := by
  cases h : m[k]? with
  | none => rw [alter_map_of_none h]
  | some a =>
    rw [alter_map_eq h]
    exact population_insert_same attr h (hf a) b

theorem size_alter_map (m : ExtTreeMap κ α) (k : κ) (f : α → α) :
    (m.alter k (·.map f)).size = m.size := by
  cases h : m[k]? with
  | none => rw [alter_map_of_none h]
  | some a =>
    have hmem : m.contains k = true := by
      rw [ExtTreeMap.contains_eq_isSome_getElem?, h]
      rfl
    rw [alter_map_eq h, ExtTreeMap.size_insert, if_pos hmem]

theorem erase_alter (m : ExtTreeMap κ α) (k : κ) (f : α → α) :
    (m.alter k (·.map f)).erase k = m.erase k := by
  cases h : m[k]? with
  | none => rw [alter_map_of_none h]
  | some a => rw [alter_map_eq h, erase_insert]

omit [LawfulEqOrd κ] in
theorem size_erase_le (m : ExtTreeMap κ α) (k : κ) : (m.erase k).size ≤ m.size := by
  rw [ExtTreeMap.size_erase]
  split
  · omega
  · omega

end Census

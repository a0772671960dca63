/-
  VlanConnect/Lib/PieceTable.lean
  ===============================
  **Bounded tables of items that arrive in pieces.**

  An entry collects the pieces of one item; the table knows of an entry the
  time it was made and the bytes it holds, and keeps the sum of the latter.
  Room is made by removing the oldest entry, the one with the smaller key where
  two are equally old, until both limits are met; stale entries are removed by a
  sweep.

  Three facts carry the proofs about such a table: an operation leaves an entry
  as it was or removes it (`get_ensure`, `get_expire`), nothing is removed where
  there is room (`ensure_of_room`), and the sum stays the sum (`Accounted`).
-/
import Std.Data.ExtTreeMap
import Mathlib.Data.Finset.Card
import Mathlib.Data.List.Perm.Basic
import Mathlib.Algebra.BigOperators.Group.List.Basic
import Mathlib.Algebra.Order.BigOperators.Group.List
import Mathlib.Algebra.Order.Ring.Nat

namespace PieceTable

open Std

variable {κ α : Type} [Ord κ] [TransOrd κ] [LawfulEqOrd κ] [DecidableEq κ]

/-! ### Sums over a map -/

section Sums

variable (size : α → Nat)

/-- The bytes of all entries. -/
def total (m : ExtTreeMap κ α) : Nat := (m.toList.map fun p => size p.2).sum

omit [DecidableEq κ] in
theorem nodup_toList (m : ExtTreeMap κ α) : m.toList.Nodup := by
  refine m.distinct_keys_toList.imp fun hne heq => hne ?_
  rw [heq]
  exact ReflCmp.compare_self

omit [DecidableEq κ] in
theorem nodup_keys (m : ExtTreeMap κ α) : (m.toList.map Prod.fst).Nodup := by
  rw [List.Nodup, List.pairwise_map]
  refine m.distinct_keys_toList.imp ?_
  intro p q hne heq
  rw [heq] at hne
  exact hne ReflCmp.compare_self

theorem size_le_card {m : ExtTreeMap κ α} {s : Finset κ}
    (h : ∀ (k : κ) (a : α), m[k]? = some a → k ∈ s) : m.size ≤ s.card := by
  have hsub : (m.toList.map Prod.fst).toFinset ⊆ s := by
    intro k hk
    obtain ⟨⟨k, a⟩, hmem, rfl⟩ := List.mem_map.mp (List.mem_toFinset.mp hk)
    exact h k a (ExtTreeMap.mem_toList_iff_getElem?_eq_some.mp hmem)
  have hcard := Finset.card_le_card hsub
  rwa [List.toFinset_card_of_nodup (nodup_keys m), List.length_map,
    ExtTreeMap.length_toList] at hcard

omit [DecidableEq κ] in
theorem total_le {m : ExtTreeMap κ α} {bound : Nat}
    (h : ∀ (k : κ) (a : α), m[k]? = some a → size a ≤ bound) :
    total size m ≤ m.size * bound := by
  have hsum := List.sum_le_card_nsmul (m.toList.map fun p => size p.2) bound (by
    intro n hn
    obtain ⟨⟨k, a⟩, hmem, rfl⟩ := List.mem_map.mp hn
    exact h k a (ExtTreeMap.mem_toList_iff_getElem?_eq_some.mp hmem))
  rwa [List.length_map, ExtTreeMap.length_toList, Nat.nsmul_eq_mul] at hsum

omit [DecidableEq κ] in
theorem toList_erase_perm {m : ExtTreeMap κ α} {k : κ} {a : α} (h : m[k]? = some a) :
    m.toList.Perm ((k, a) :: (m.erase k).toList) := by
  have hnew : (k, a) ∉ (m.erase k).toList := by
    rw [ExtTreeMap.mem_toList_iff_getElem?_eq_some, ExtTreeMap.getElem?_erase_self]
    exact nofun
  rw [List.perm_ext_iff_of_nodup (nodup_toList m) (List.nodup_cons.mpr ⟨hnew, nodup_toList _⟩)]
  rintro ⟨j, b⟩
  rw [List.mem_cons, ExtTreeMap.mem_toList_iff_getElem?_eq_some,
    ExtTreeMap.mem_toList_iff_getElem?_eq_some, ExtTreeMap.getElem?_erase, Prod.mk.injEq]
  by_cases hjk : compare k j = .eq
  · obtain rfl := LawfulEqCmp.eq_of_compare hjk
    rw [if_pos hjk, h]
    simp [eq_comm]
  · have hne : j ≠ k := fun heq => hjk (heq ▸ ReflCmp.compare_self)
    rw [if_neg hjk]
    simp [hne]

omit [DecidableEq κ] in
theorem total_erase {m : ExtTreeMap κ α} {k : κ} {a : α} (h : m[k]? = some a) :
    total size m = size a + total size (m.erase k) := by
  have hperm := ((toList_erase_perm h).map fun p => size p.2).sum_eq
  simpa [total] using hperm

omit [DecidableEq κ] in
theorem erase_insert {m : ExtTreeMap κ α} {k : κ} {a : α} : (m.insert k a).erase k = m.erase k := by
  refine ExtTreeMap.ext_getElem? fun j => ?_
  rw [ExtTreeMap.getElem?_erase, ExtTreeMap.getElem?_erase, ExtTreeMap.getElem?_insert]
  split
  · rfl
  · rfl

omit [DecidableEq κ] in
theorem erase_of_none {m : ExtTreeMap κ α} {k : κ} (h : m[k]? = none) : m.erase k = m := by
  refine ExtTreeMap.ext_getElem? fun j => ?_
  rw [ExtTreeMap.getElem?_erase]
  split
  · next hjk =>
    obtain rfl := LawfulEqCmp.eq_of_compare hjk
    exact h.symm
  · rfl

omit [DecidableEq κ] in
theorem total_insert (m : ExtTreeMap κ α) (k : κ) (a : α) :
    total size (m.insert k a) = size a + total size (m.erase k) := by
  rw [total_erase size ExtTreeMap.getElem?_insert_self, erase_insert]

omit [LawfulEqOrd κ] [DecidableEq κ] in
theorem total_empty : total size (∅ : ExtTreeMap κ α) = 0 := by
  have hnil : (∅ : ExtTreeMap κ α).toList = [] :=
    List.eq_nil_of_length_eq_zero (by rw [ExtTreeMap.length_toList, ExtTreeMap.size_empty])
  rw [total, hnil]
  rfl

end Sums

/-! ### The table -/

/-- The fold that keeps the first of the smallest. -/
theorem foldl_smallest {β : Type} (f : β → Nat) (ps : List β) (best : β) :
    ps.foldl (fun best p => if f p < f best then p else best) best ∈ best :: ps ∧
      ∀ p ∈ best :: ps, f (ps.foldl (fun best p => if f p < f best then p else best) best) ≤
      f p := by
  induction ps generalizing best with
  | nil => simp
  | cons p ps ih =>
    rw [List.foldl_cons]
    split
    · next hlt =>
      obtain ⟨hmem, hle⟩ := ih p
      refine ⟨List.mem_cons_of_mem _ hmem, fun q hq => ?_⟩
      rcases List.mem_cons.mp hq with rfl | hq
      · exact (hle p List.mem_cons_self).trans (Nat.le_of_lt hlt)
      · exact hle q hq
    · next hge =>
      obtain ⟨hmem, hle⟩ := ih best
      constructor
      · rcases List.mem_cons.mp hmem with hb | hps
        · rw [hb]
          exact List.mem_cons_self
        · exact List.mem_cons_of_mem _ (List.mem_cons_of_mem _ hps)
      · intro q hq
        rcases List.mem_cons.mp hq with rfl | hq
        · exact hle q List.mem_cons_self
        · rcases List.mem_cons.mp hq with rfl | hq
          · exact (hle best List.mem_cons_self).trans (Nat.le_of_not_lt hge)
          · exact hle q (List.mem_cons_of_mem _ hq)

/-- What a table knows of its entries. -/
structure Shape (α : Type) where
  time : α → Nat
  size : α → Nat

structure Limits where
  maxEntries : Nat
  maxBytes : Nat

/-- The entries and the number of bytes in them. -/
structure Table (κ α : Type) [Ord κ] where
  entries : ExtTreeMap κ α := ∅
  bytes : Nat := 0

namespace Table

section Operations

variable (sh : Shape α)

/-- The sum never goes below zero. -/
def remove (t : Table κ α) (k : κ) : Table κ α :=
  match t.entries[k]? with
  | none => t
  | some a => { entries := t.entries.erase k, bytes := t.bytes - sh.size a }

/-- The first of the oldest entries in the order of the keys. -/
def oldest (t : Table κ α) : Option κ :=
  match t.entries.toList with
  | [] => none
  | first :: rest =>
    some (rest.foldl (fun best p => if sh.time p.2 < sh.time best.2 then p else best) first).1

/-- Whether the table is too full for that many more bytes, in a new entry or not. -/
def overfull (lim : Limits) (incoming : Nat) (new : Bool) (t : Table κ α) : Bool :=
  new && decide (lim.maxEntries ≤ t.entries.size) || decide (lim.maxBytes < t.bytes + incoming)

def evict (lim : Limits) (incoming : Nat) (new : Bool) : (fuel : Nat) → Table κ α → Table κ α
  | 0, t => t
  | fuel + 1, t =>
    match t.oldest sh with
    | none => t
    | some k => if t.overfull lim incoming new then evict lim incoming new fuel (t.remove sh k)
      else t

/-- Make room; each turn of the loop removes an entry, so it ends within their number. -/
def ensure (lim : Limits) (t : Table κ α) (incoming : Nat) (new : Bool) : Bool × Table κ α :=
  if lim.maxBytes < incoming then (false, t)
  else
    let t := evict sh lim incoming new t.entries.size t
    (!t.overfull lim incoming new, t)

/-- The sweep: the stale keys are collected, then removed. -/
def expire (stale : α → Bool) (t : Table κ α) : Table κ α :=
  ((t.entries.toList.filter fun p => stale p.2).map Prod.fst).foldl (fun t k => t.remove sh k) t

/-! ### What is left of an entry -/

variable {sh}

theorem get_remove (t : Table κ α) (k j : κ) :
    (t.remove sh k).entries[j]? = if j = k then none else t.entries[j]? := by
  unfold remove
  split
  · next hnone =>
    split
    · next heq => rw [heq, hnone]
    · rfl
  · rw [ExtTreeMap.getElem?_erase]
    by_cases heq : j = k
    · rw [if_pos heq, if_pos (heq ▸ ReflCmp.compare_self)]
    · rw [if_neg heq, if_neg fun hc => heq (LawfulEqCmp.eq_of_compare hc).symm]

theorem get_evict (lim : Limits) (incoming : Nat) (new : Bool) (fuel : Nat) (t : Table κ α)
    (j : κ) :
    (evict sh lim incoming new fuel t).entries[j]? = t.entries[j]? ∨
      (evict sh lim incoming new fuel t).entries[j]? = none := by
  induction fuel generalizing t with
  | zero => exact Or.inl rfl
  | succ fuel ih =>
    unfold evict
    split
    · exact Or.inl rfl
    · next k _ =>
      split
      · rcases ih (t.remove sh k) with h | h
        · rw [h, get_remove]
          split
          · exact Or.inr rfl
          · exact Or.inl rfl
        · exact Or.inr h
      · exact Or.inl rfl

theorem get_ensure (lim : Limits) (t : Table κ α) (incoming : Nat) (new : Bool) (j : κ) :
    (t.ensure sh lim incoming new).2.entries[j]? = t.entries[j]? ∨
      (t.ensure sh lim incoming new).2.entries[j]? = none := by
  unfold ensure
  split
  · exact Or.inl rfl
  · exact get_evict lim incoming new _ t j

theorem get_foldl_remove (keys : List κ) (t : Table κ α) (j : κ) :
    (keys.foldl (fun t k => t.remove sh k) t).entries[j]? = if j ∈ keys then none
    else t.entries[j]? := by
  induction keys generalizing t with
  | nil => simp
  | cons k keys ih =>
    rw [List.foldl_cons, ih, get_remove]
    by_cases hk : j = k
    · simp [hk]
    · simp [hk]

theorem get_expire (stale : α → Bool) (t : Table κ α) (j : κ) :
    (t.expire sh stale).entries[j]? = (t.entries[j]?).filter fun a => !stale a := by
  unfold expire
  rw [get_foldl_remove]
  rcases hj : t.entries[j]? with _ | a
  · simp
  · have hmem : j ∈ (t.entries.toList.filter fun p => stale p.2).map Prod.fst ↔ stale a = true := by
      simp only [List.mem_map, List.mem_filter, Prod.exists, exists_and_right, exists_eq_right,
        ExtTreeMap.mem_toList_iff_getElem?_eq_some, hj, Option.some.injEq]
      constructor
      · rintro ⟨b, rfl, hb⟩
        exact hb
      · exact fun ha => ⟨a, rfl, ha⟩
    by_cases ha : stale a = true
    · rw [if_pos (hmem.mpr ha), Option.filter_some_neg (by simp [ha])]
    · rw [if_neg (mt hmem.mp ha), Option.filter_some_pos (by simp [ha])]

omit [LawfulEqOrd κ] [DecidableEq κ] in
/-- Where there is room nothing is removed. -/
theorem ensure_of_room {lim : Limits} {t : Table κ α} {incoming : Nat} {new : Bool}
    (hnew : new = true → t.entries.size < lim.maxEntries)
    (hbytes : t.bytes + incoming ≤ lim.maxBytes) :
    t.ensure sh lim incoming new = (true, t) := by
  have hroom : t.overfull lim incoming new = false := by
    unfold overfull
    rw [Bool.or_eq_false_iff, decide_eq_false (by omega : ¬ lim.maxBytes < t.bytes + incoming)]
    refine ⟨?_, rfl⟩
    cases new with
    | false => rfl
    | true => simpa using hnew rfl
  have hevict : ∀ fuel, evict sh lim incoming new fuel t = t := by
    intro fuel
    cases fuel with
    | zero => rfl
    | succ fuel =>
      unfold evict
      rw [hroom]
      split
      · rfl
      · rfl
  unfold ensure
  rw [if_neg (by omega), hevict]
  dsimp only
  rw [hroom]
  rfl

omit [LawfulEqOrd κ] [DecidableEq κ] in
/-- A positive answer is one about the table that is returned. -/
theorem room_of_ensure {lim : Limits} {t : Table κ α} {incoming : Nat} {new : Bool}
    (h : (t.ensure sh lim incoming new).1 = true) :
    (t.ensure sh lim incoming new).2.overfull lim incoming new = false := by
  unfold ensure at h ⊢
  split at h
  · cases h
  · next hle =>
    rw [if_neg hle]
    simpa using h

/-! ### The sum -/

/-- The sum of the table is the sum over its entries. -/
def Accounted (sh : Shape α) (t : Table κ α) : Prop := t.bytes = total sh.size t.entries

omit [DecidableEq κ] in
theorem Accounted.remove {t : Table κ α} (h : Accounted sh t) (k : κ) :
    Accounted sh (t.remove sh k) := by
  unfold Table.remove
  split
  · exact h
  · next a ha =>
    have hsum := total_erase sh.size ha
    unfold Accounted at h ⊢
    dsimp only
    omega

omit [DecidableEq κ] in
theorem Accounted.foldl_remove {t : Table κ α} (h : Accounted sh t) (keys : List κ) :
    Accounted sh (keys.foldl (fun t k => t.remove sh k) t) := by
  induction keys generalizing t with
  | nil => exact h
  | cons k keys ih => exact ih (h.remove k)

omit [DecidableEq κ] in
theorem Accounted.expire {t : Table κ α} (h : Accounted sh t) (stale : α → Bool) :
    Accounted sh (t.expire sh stale) :=
  h.foldl_remove _

omit [DecidableEq κ] in
/-- An entry is added or replaced. -/
theorem Accounted.insert {t : Table κ α} (h : Accounted sh t) {k : κ} {a : α} {old added : Nat}
    (hold : (t.entries[k]?.map sh.size).getD 0 = old) (hadd : sh.size a = old + added) :
    Accounted sh { entries := t.entries.insert k a, bytes := t.bytes + added } := by
  unfold Accounted at h ⊢
  dsimp only
  rw [total_insert, hadd]
  rcases hk : t.entries[k]? with _ | b
  · rw [hk] at hold
    rw [erase_of_none hk]
    simp only [Option.map_none, Option.getD_none] at hold
    omega
  · rw [hk] at hold
    have hsum := total_erase sh.size hk
    simp only [Option.map_some, Option.getD_some] at hold
    omega

omit [DecidableEq κ] in
theorem Accounted.evict {t : Table κ α} (h : Accounted sh t) (lim : Limits) (incoming : Nat)
    (new : Bool) (fuel : Nat) :
    Accounted sh (evict sh lim incoming new fuel t) := by
  induction fuel generalizing t with
  | zero => exact h
  | succ fuel ih =>
    unfold Table.evict
    split
    · exact h
    · next k _ =>
      split
      · exact ih (h.remove k)
      · exact h

omit [DecidableEq κ] in
theorem Accounted.ensure {t : Table κ α} (h : Accounted sh t) (lim : Limits) (incoming : Nat)
    (new : Bool) :
    Accounted sh (t.ensure sh lim incoming new).2 := by
  unfold Table.ensure
  split
  · exact h
  · exact h.evict lim incoming new _

/-! ### Room for one more -/

omit [LawfulEqOrd κ] [DecidableEq κ] [TransOrd κ] in
theorem oldest_eq_none [TransOrd κ] {t : Table κ α} (h : t.oldest sh = none) :
    t.entries.toList = [] := by
  unfold oldest at h
  split at h
  · next hnil => exact hnil
  · cases h

omit [DecidableEq κ] in
theorem mem_of_oldest {t : Table κ α} {k : κ} (h : t.oldest sh = some k) : k ∈ t.entries := by
  unfold oldest at h
  split at h
  · cases h
  · next first rest heq =>
    have hmem := (foldl_smallest (fun p : κ × α => sh.time p.2) rest first).1
    rw [← heq] at hmem
    obtain rfl := Option.some.inj h
    exact ExtTreeMap.mem_iff_isSome_getElem?.mpr
      (Option.isSome_iff_exists.mpr ⟨_, ExtTreeMap.mem_toList_iff_getElem?_eq_some.mp hmem⟩)

omit [DecidableEq κ] in
/-- The loop stops at room or at nothing left. -/
theorem evict_stops (lim : Limits) (incoming : Nat) (new : Bool) (fuel : Nat) (t : Table κ α)
    (hfuel : t.entries.size ≤ fuel) :
    (evict sh lim incoming new fuel t).overfull lim incoming new = false ∨
      (evict sh lim incoming new fuel t).entries = ∅ := by
  induction fuel generalizing t with
  | zero =>
    right
    exact ExtTreeMap.eq_empty_iff_size_eq_zero.mpr (Nat.le_zero.mp hfuel)
  | succ fuel ih =>
    unfold evict
    split
    · next hnone =>
      right
      have hnil := oldest_eq_none hnone
      exact ExtTreeMap.eq_empty_iff_size_eq_zero.mpr
        (by rw [← ExtTreeMap.length_toList, hnil, List.length_nil])
    · next k hk =>
      split
      · refine ih (t.remove sh k) ?_
        have hmem := mem_of_oldest hk
        have hsize : (t.entries.erase k).size = t.entries.size - 1 := by
          rw [ExtTreeMap.size_erase, if_pos (ExtTreeMap.contains_iff_mem.mpr hmem)]
        obtain ⟨a, ha⟩ := Option.isSome_iff_exists.mp (ExtTreeMap.mem_iff_isSome_getElem?.mp hmem)
        unfold remove
        rw [ha]
        dsimp only
        omega
      · next hroom =>
        left
        exact Bool.not_eq_true _ ▸ hroom

omit [DecidableEq κ] in
/-- What fits at all always gets room. -/
theorem ensure_fits {lim : Limits} {t : Table κ α} (h : Accounted sh t) {incoming : Nat}
    (new : Bool) (hentries : 0 < lim.maxEntries) (hbytes : incoming ≤ lim.maxBytes) :
    (t.ensure sh lim incoming new).1 = true := by
  unfold ensure
  rw [if_neg (by omega)]
  dsimp only
  rw [Bool.not_eq_true']
  rcases evict_stops lim incoming new t.entries.size t (Nat.le_refl _) with hroom | hempty
  · exact hroom
  · have hacc := h.evict lim incoming new t.entries.size
    unfold Accounted at hacc
    rw [hempty] at hacc
    unfold overfull
    rw [hacc, hempty, total_empty, Bool.or_eq_false_iff,
      decide_eq_false (by omega : ¬ lim.maxBytes < 0 + incoming)]
    refine ⟨?_, rfl⟩
    rw [ExtTreeMap.size_empty, decide_eq_false (by omega), Bool.and_false]

/-! ### Bounds -/

/-- The sum is right, both limits are met, and each entry is as it should be. -/
structure Sound (sh : Shape α) (lim : Limits) (P : α → Prop) (t : Table κ α) : Prop where
  accounted : Accounted sh t
  entries : t.entries.size ≤ lim.maxEntries
  bytes : t.bytes ≤ lim.maxBytes
  each : ∀ (k : κ) (a : α), t.entries[k]? = some a → P a

variable {lim : Limits} {P : α → Prop} {t : Table κ α}

omit [LawfulEqOrd κ] [DecidableEq κ] in
theorem Sound.empty (sh : Shape α) (lim : Limits) (P : α → Prop) :
    Sound sh lim P ({} : Table κ α) where
  accounted := (total_empty sh.size).symm
  entries := Nat.zero_le _
  bytes := Nat.zero_le _
  each := by
    intro k a ha
    rw [show ({} : Table κ α).entries[k]? = none from ExtTreeMap.getElem?_empty] at ha
    cases ha

omit [LawfulEqOrd κ] [DecidableEq κ] in
theorem size_remove_le (t : Table κ α) (k : κ) : (t.remove sh k).entries.size ≤ t.entries.size := by
  unfold remove
  split
  · exact Nat.le_refl _
  · exact ExtTreeMap.size_erase_le

omit [LawfulEqOrd κ] [DecidableEq κ] in
theorem bytes_remove_le (t : Table κ α) (k : κ) : (t.remove sh k).bytes ≤ t.bytes := by
  unfold remove
  split
  · exact Nat.le_refl _
  · exact Nat.sub_le _ _

theorem Sound.remove (h : Sound sh lim P t) (k : κ) : Sound sh lim P (t.remove sh k) where
  accounted := h.accounted.remove k
  entries := (size_remove_le t k).trans h.entries
  bytes := (bytes_remove_le t k).trans h.bytes
  each := by
    intro j a ha
    rw [get_remove] at ha
    split at ha
    · cases ha
    · exact h.each j a ha

theorem Sound.foldl_remove (h : Sound sh lim P t) (keys : List κ) :
    Sound sh lim P (keys.foldl (fun t k => t.remove sh k) t) := by
  induction keys generalizing t with
  | nil => exact h
  | cons k keys ih => exact ih (h.remove k)

theorem Sound.expire (h : Sound sh lim P t) (stale : α → Bool) :
    Sound sh lim P (t.expire sh stale) :=
  h.foldl_remove _

theorem Sound.evict (h : Sound sh lim P t) (incoming : Nat) (new : Bool) (fuel : Nat) :
    Sound sh lim P (evict sh lim incoming new fuel t) := by
  induction fuel generalizing t with
  | zero => exact h
  | succ fuel ih =>
    unfold Table.evict
    split
    · exact h
    · next k _ =>
      split
      · exact ih (h.remove k)
      · exact h

theorem Sound.ensure (h : Sound sh lim P t) (incoming : Nat) (new : Bool) :
    Sound sh lim P (t.ensure sh lim incoming new).2 := by
  unfold Table.ensure
  split
  · exact h
  · exact h.evict incoming new _

omit [DecidableEq κ] in
/-- An entry is added where there is room for it, or replaced. -/
theorem Sound.insert (h : Sound sh lim P t) {k : κ} {a : α} {added : Nat}
    (hadd : sh.size a = (t.entries[k]?.map sh.size).getD 0 + added) (ha : P a)
    (hentries : k ∈ t.entries ∨ t.entries.size < lim.maxEntries)
    (hbytes : t.bytes + added ≤ lim.maxBytes) :
    Sound sh lim P { entries := t.entries.insert k a, bytes := t.bytes + added } where
  accounted := h.accounted.insert rfl hadd
  entries := by
    dsimp only
    rw [ExtTreeMap.size_insert]
    split
    · exact h.entries
    · next hnew => exact hentries.resolve_left hnew
  bytes := hbytes
  each := by
    intro j b hb
    rw [ExtTreeMap.getElem?_insert] at hb
    split at hb
    · rw [← Option.some.inj hb]
      exact ha
    · exact h.each j b hb

omit [DecidableEq κ] in
/-- An entry that was replaced and is then removed, whatever it was. -/
theorem Sound.insert_remove (h : Sound sh lim P t) {k : κ} {a : α} {added : Nat}
    (hadd : sh.size a = (t.entries[k]?.map sh.size).getD 0 + added) :
    Sound sh lim P (({ entries := t.entries.insert k a, bytes := t.bytes + added } :
      Table κ α).remove sh k) := by
  have haccounted :
      Accounted sh ({ entries := t.entries.insert k a, bytes := t.bytes + added } : Table κ α) :=
    h.accounted.insert rfl hadd
  have hentries :
    (({ entries := t.entries.insert k a, bytes := t.bytes + added } : Table κ α).remove sh
      k).entries =
      t.entries.erase k := by
    unfold Table.remove
    dsimp only
    rw [ExtTreeMap.getElem?_insert_self]
    exact erase_insert
  have hremoved := haccounted.remove k
  constructor
  · exact hremoved
  · rw [hentries]
    exact ExtTreeMap.size_erase_le.trans h.entries
  · -- what is left is a part of what was there
    unfold Accounted at hremoved
    rw [hentries] at hremoved
    rw [hremoved]
    refine Nat.le_trans ?_ h.bytes
    rw [h.accounted]
    rcases hk : t.entries[k]? with _ | b
    · rw [erase_of_none hk]
    · rw [total_erase sh.size hk]
      exact Nat.le_add_left _ _
  · intro j b hb
    rw [hentries, ExtTreeMap.getElem?_erase] at hb
    split at hb
    · cases hb
    · exact h.each j b hb

/-! ### The subtractions -/

section Removals

variable (sh)

/-- The subtractions of a call: what the sum was, and what is taken from it. -/
def removals (t : Table κ α) (k : κ) : List (Nat × Nat) :=
  match t.entries[k]? with
  | none => []
  | some a => [(t.bytes, sh.size a)]

def evictRemovals (lim : Limits) (incoming : Nat) (new : Bool) :
    (fuel : Nat) → Table κ α → List (Nat × Nat)
  | 0, _ => []
  | fuel + 1, t =>
    match t.oldest sh with
    | none => []
    | some k =>
      if t.overfull lim incoming new then
        t.removals sh k ++ evictRemovals lim incoming new fuel (t.remove sh k)
      else []

def ensureRemovals (lim : Limits) (t : Table κ α) (incoming : Nat) (new : Bool) :
    List (Nat × Nat) :=
  if lim.maxBytes < incoming then [] else evictRemovals sh lim incoming new t.entries.size t

def removeAllRemovals : List κ → Table κ α → List (Nat × Nat)
  | [], _ => []
  | k :: keys, t => t.removals sh k ++ removeAllRemovals keys (t.remove sh k)

def expireRemovals (stale : α → Bool) (t : Table κ α) : List (Nat × Nat) :=
  removeAllRemovals sh ((t.entries.toList.filter fun p => stale p.2).map Prod.fst) t

end Removals

/-- No subtraction goes below zero. -/
def Exact (subtractions : List (Nat × Nat)) : Prop := ∀ p ∈ subtractions, p.2 ≤ p.1

theorem Exact.nil : Exact [] := fun _ h => absurd h List.not_mem_nil

theorem Exact.append {ps qs : List (Nat × Nat)} (hp : Exact ps) (hq : Exact qs) :
    Exact (ps ++ qs) :=
  List.forall_mem_append.mpr ⟨hp, hq⟩

omit [DecidableEq κ] in
theorem Accounted.exact_removals (h : Accounted sh t) (k : κ) : Exact (t.removals sh k) := by
  unfold removals
  split
  · exact Exact.nil
  · next a ha =>
    have hsum := total_erase sh.size ha
    unfold Accounted at h
    intro p hp
    rw [List.mem_singleton.mp hp]
    dsimp only
    omega

omit [DecidableEq κ] in
theorem Accounted.exact_evictRemovals (h : Accounted sh t) (lim : Limits) (incoming : Nat)
    (new : Bool) (fuel : Nat) :
    Exact (evictRemovals sh lim incoming new fuel t) := by
  induction fuel generalizing t with
  | zero => exact Exact.nil
  | succ fuel ih =>
    unfold evictRemovals
    split
    · exact Exact.nil
    · next k _ =>
      split
      · exact (h.exact_removals k).append (ih (h.remove k))
      · exact Exact.nil

omit [DecidableEq κ] in
theorem Accounted.exact_ensureRemovals (h : Accounted sh t) (lim : Limits) (incoming : Nat)
    (new : Bool) :
    Exact (t.ensureRemovals sh lim incoming new) := by
  unfold ensureRemovals
  split
  · exact Exact.nil
  · exact h.exact_evictRemovals lim incoming new _

omit [DecidableEq κ] in
theorem Accounted.exact_expireRemovals (h : Accounted sh t) (stale : α → Bool) :
    Exact (t.expireRemovals sh stale) := by
  unfold expireRemovals
  generalize (t.entries.toList.filter fun p => stale p.2).map Prod.fst = keys
  induction keys generalizing t with
  | nil => exact Exact.nil
  | cons k keys ih => exact (h.exact_removals k).append (ih (h.remove k))

/-! ### The order of eviction -/

section Order

variable (sh)

/-- The turns of the loop: the table before each and the key that is removed. -/
def evictSteps (lim : Limits) (incoming : Nat) (new : Bool) :
    (fuel : Nat) → Table κ α → List (Table κ α × κ)
  | 0, _ => []
  | fuel + 1, t =>
    match t.oldest sh with
    | none => []
    | some k => if t.overfull lim incoming new then (t, k) :: evictSteps lim incoming new fuel
      (t.remove sh k) else []

def ensureSteps (lim : Limits) (t : Table κ α) (incoming : Nat) (new : Bool) :
    List (Table κ α × κ) :=
  if lim.maxBytes < incoming then [] else evictSteps sh lim incoming new t.entries.size t

/-- The entry at the key is one of those with the greatest age. -/
def OldestByAge (age : Nat → Nat) (t : Table κ α) (k : κ) : Prop :=
  ∃ a, t.entries[k]? = some a ∧ ∀ (j : κ) (b : α), t.entries[j]? = some b →
    age (sh.time b) ≤ age (sh.time a)

end Order

omit [LawfulEqOrd κ] [DecidableEq κ] in
/-- The loop removes the keys of its turns, and nothing else. -/
theorem evict_eq_foldl (lim : Limits) (incoming : Nat) (new : Bool) (fuel : Nat) (t : Table κ α) :
    evict sh lim incoming new fuel t =
      ((evictSteps sh lim incoming new fuel t).map Prod.snd).foldl
      (fun t k => t.remove sh k) t := by
  induction fuel generalizing t with
  | zero => rfl
  | succ fuel ih =>
    unfold evict evictSteps
    cases t.oldest sh with
    | none => rfl
    | some k =>
      dsimp only
      split
      · rw [ih, List.map_cons, List.foldl_cons]
      · rfl

omit [LawfulEqOrd κ] [DecidableEq κ] in
theorem ensure_eq_foldl (lim : Limits) (t : Table κ α) (incoming : Nat) (new : Bool) :
    (t.ensure sh lim incoming new).2 =
      ((t.ensureSteps sh lim incoming new).map Prod.snd).foldl (fun t k => t.remove sh k) t := by
  unfold ensure ensureSteps
  split
  · rfl
  · exact evict_eq_foldl lim incoming new _ t

omit [DecidableEq κ] in
/-- The oldest entry is one with the smallest time. -/
theorem le_of_oldest {t : Table κ α} {k : κ} (h : t.oldest sh = some k) :
    ∃ a, t.entries[k]? = some a ∧ ∀ (j : κ) (b : α), t.entries[j]? = some b →
    sh.time a ≤ sh.time b := by
  unfold oldest at h
  split at h
  · cases h
  · next first rest heq =>
    obtain ⟨hmem, hle⟩ := foldl_smallest (fun p : κ × α => sh.time p.2) rest first
    rw [← heq] at hmem hle
    obtain rfl := Option.some.inj h
    refine ⟨_, ExtTreeMap.mem_toList_iff_getElem?_eq_some.mp hmem, fun j b hb => ?_⟩
    exact hle (j, b) (ExtTreeMap.mem_toList_iff_getElem?_eq_some.mpr hb)

/-- A turn removes the oldest entry of a part of the table. -/
theorem of_mem_evictSteps {lim : Limits} {incoming : Nat} {new : Bool} {fuel : Nat} {t : Table κ α}
    {step : Table κ α × κ} (h : step ∈ evictSteps sh lim incoming new fuel t) :
    step.1.oldest sh = some step.2 ∧ ∀ (j : κ) (a : α), step.1.entries[j]? = some a →
    t.entries[j]? = some a := by
  induction fuel generalizing t with
  | zero => cases h
  | succ fuel ih =>
    unfold evictSteps at h
    cases holdest : t.oldest sh with
    | none =>
      rw [holdest] at h
      cases h
    | some k =>
      rw [holdest] at h
      dsimp only at h
      split at h
      · rcases List.mem_cons.mp h with rfl | h
        · exact ⟨holdest, fun _ _ ha => ha⟩
        · obtain ⟨hk, hpart⟩ := ih h
          refine ⟨hk, fun j a ha => ?_⟩
          have hleft := hpart j a ha
          rw [get_remove] at hleft
          split at hleft
          · cases hleft
          · exact hleft
      · cases h

omit [LawfulEqOrd κ] [DecidableEq κ] in
/-- A table that is too full and not empty has a first turn. -/
theorem first_evictStep {lim : Limits} {incoming : Nat} {new : Bool} {t : Table κ α} {k : κ}
    (hbytes : ¬ lim.maxBytes < incoming) (hfull : t.overfull lim incoming new = true)
    (h : t.oldest sh = some k) :
    (t, k) ∈ t.ensureSteps sh lim incoming new := by
  have hsize : t.entries.size ≠ 0 := by
    intro hzero
    have hnil : t.entries.toList = [] :=
      List.eq_nil_of_length_eq_zero (by rw [ExtTreeMap.length_toList, hzero])
    rw [oldest, hnil] at h
    cases h
  obtain ⟨fuel, hfuel⟩ := Nat.exists_eq_succ_of_ne_zero hsize
  rw [ensureSteps, if_neg hbytes, hfuel]
  simp [evictSteps, h, hfull]

end Operations

end Table

end PieceTable

/-
  VlanConnect/Lib/Discipline.lean
  ===============================
  **Traces in which every action is allowed by what came before it.**

  A discipline says, for a trace so far and a next action, whether the action
  may follow.  A trace keeps the discipline when this holds at each of its
  actions.  What a discipline rules out at one step it rules out in the whole
  trace: at most one action of a kind, nothing of a kind after another.
-/
import Mathlib.Data.List.Induction

namespace Discipline

variable {α : Type} {allows : List α → α → Prop}

/-- Every action is allowed by the actions before it. -/
def Keeps (allows : List α → α → Prop) (trace : List α) : Prop :=
  ∀ front a back, trace = front ++ a :: back → allows front a

theorem keeps_nil : Keeps allows [] := by
  intro front a back h
  simp at h

theorem keeps_snoc {trace : List α} {a : α} :
    Keeps allows (trace ++ [a]) ↔ Keeps allows trace ∧ allows trace a := by
  constructor
  · intro h
    refine ⟨fun front b back hsplit => h front b (back ++ [a]) ?_, h trace a [] rfl⟩
    simp [hsplit]
  · rintro ⟨hkeeps, hallows⟩ front b back hsplit
    rcases back.eq_nil_or_concat with rfl | ⟨back, last, rfl⟩
    · obtain ⟨rfl, hb⟩ := List.append_inj' hsplit rfl
      cases hb
      exact hallows
    · rw [List.concat_eq_append, ← List.cons_append, ← List.append_assoc] at hsplit
      exact hkeeps front b back (List.append_inj' hsplit rfl).1

end Discipline

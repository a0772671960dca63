/-
  VlanConnect/Lib/Procedure.lean
  ==============================
  **Procedures that change a state and may throw, with their triples.**

  A procedure takes a state to a value or an exception, and to the state it
  leaves behind.  `Triple P x Q E` says what holds after `x` when `P` held
  before: `Q` with the value it returned, or `E` with the exception it threw.
  The rules follow the constructs a procedure is written with; a loop needs the
  rules and an induction of its own.
-/
import Mathlib.Logic.Basic

def Procedure (σ ε α : Type) : Type := σ → Except ε α × σ

namespace Procedure

variable {σ ε ε' α β : Type}

instance : Monad (Procedure σ ε) where
  pure a := fun s => (.ok a, s)
  bind x f := fun s =>
    match x s with
    | (.ok a, s') => f a s'
    | (.error e, s') => (.error e, s')

def raise (e : ε) : Procedure σ ε α := fun s => (.error e, s)

/-- An operation that returns. -/
def act (f : σ → α × σ) : Procedure σ ε α := fun s => (.ok (f s).1, (f s).2)

def update (f : σ → σ) : Procedure σ ε Unit := fun s => (.ok (), f s)

def ask (f : σ → α) : Procedure σ ε α := fun s => (.ok (f s), s)

/-- The handler gets every exception, and may throw again. -/
def handle (x : Procedure σ ε α) (handler : ε → Procedure σ ε' α) : Procedure σ ε' α := fun s =>
  match x s with
  | (.ok a, s') => (.ok a, s')
  | (.error e, s') => handler e s'

theorem bind_apply (x : Procedure σ ε α) (f : α → Procedure σ ε β) (s : σ) :
    (x >>= f) s =
      match x s with
      | (.ok a, s') => f a s'
      | (.error e, s') => (.error e, s') := rfl

/-! ### Triples -/

def Triple (P : σ → Prop) (x : Procedure σ ε α) (Q : α → σ → Prop) (E : ε → σ → Prop) : Prop :=
  ∀ s, P s →
    match x s with
    | (.ok a, s') => Q a s'
    | (.error e, s') => E e s'

namespace Triple

variable {P P' : σ → Prop} {x : Procedure σ ε α} {Q Q' : α → σ → Prop} {E E' : ε → σ → Prop}

theorem weaken (h : Triple P x Q E) (hpre : ∀ s, P' s → P s) (hpost : ∀ a s, Q a s → Q' a s)
    (hthrow : ∀ e s, E e s → E' e s) : Triple P' x Q' E' := by
  intro s hs
  have hx := h s (hpre s hs)
  cases hrun : x s with
  | mk result s' =>
    rw [hrun] at hx
    cases result with
    | ok a => exact hpost a s' hx
    | error e => exact hthrow e s' hx

/-- A procedure returns or throws. -/
theorem ends (h : Triple P x Q E) {s : σ} (hs : P s) :
    (∃ a s', x s = (.ok a, s') ∧ Q a s') ∨ ∃ e s', x s = (.error e, s') ∧ E e s' := by
  have hx := h s hs
  cases hrun : x s with
  | mk result s' =>
    rw [hrun] at hx
    cases result with
    | ok a => exact .inl ⟨a, s', rfl, hx⟩
    | error e => exact .inr ⟨e, s', rfl, hx⟩

/-- A procedure that throws nothing returns. -/
theorem returns (h : Triple P x Q fun _ _ => False) {s : σ} (hs : P s) :
    ∃ a s', x s = (.ok a, s') ∧ Q a s' := by
  rcases h.ends hs with hok | ⟨_, _, -, hfalse⟩
  · exact hok
  · exact hfalse.elim

/-- A fact that does not depend on the state may be taken out of the precondition. -/
theorem assume {p : Prop} (h : p → Triple P x Q E) : Triple (fun s => p ∧ P s) x Q E :=
  fun s hs => h hs.1 s hs.2

theorem pure {a : α} (h : ∀ s, P s → Q a s) : Triple P (Pure.pure a : Procedure σ ε α) Q E := h

theorem raise {e : ε} (h : ∀ s, P s → E e s) : Triple P (Procedure.raise e : Procedure σ ε α) Q E :=
  h

theorem act {f : σ → α × σ} (h : ∀ s, P s → Q (f s).1 (f s).2) :
    Triple P (Procedure.act f : Procedure σ ε α) Q E := h

theorem update {f : σ → σ} {Q : Unit → σ → Prop} (h : ∀ s, P s → Q () (f s)) :
    Triple P (Procedure.update f : Procedure σ ε Unit) Q E := h

theorem ask {f : σ → α} (h : ∀ s, P s → Q (f s) s) :
    Triple P (Procedure.ask f : Procedure σ ε α) Q E :=
  h

theorem bind {y : Procedure σ ε β} {f : β → Procedure σ ε α} {R : β → σ → Prop}
    (hy : Triple P y R E) (hf : ∀ b, Triple (R b) (f b) Q E) : Triple P (y >>= f) Q E := by
  intro s hs
  have hrun := hy s hs
  rw [bind_apply]
  cases hcase : y s with
  | mk result s' =>
    rw [hcase] at hrun
    cases result with
    | ok b => exact hf b s' hrun
    | error e => exact hrun

theorem ite {c : Prop} [Decidable c] {y : Procedure σ ε α} (hx : c → Triple P x Q E)
    (hy : ¬ c → Triple P y Q E) :
    Triple P (if c then x else y) Q E := by
  split
  · exact hx ‹_›
  · exact hy ‹_›

theorem handle {handler : ε → Procedure σ ε' α} {F : ε → σ → Prop} {E₂ : ε' → σ → Prop}
    (hx : Triple P x Q F) (hh : ∀ e, Triple (F e) (handler e) Q E₂) :
    Triple P (Procedure.handle x handler) Q E₂ := by
  intro s hs
  have hrun := hx s hs
  change match (match x s with
      | (.ok a, s') => (Except.ok a, s')
      | (.error e, s') => handler e s') with
    | (.ok a, s') => Q a s'
    | (.error e, s') => E₂ e s'
  cases hcase : x s with
  | mk result s' =>
    rw [hcase] at hrun
    cases result with
    | ok a => exact hrun
    | error e => exact hh e s' hrun

end Triple

/-! ### Procedures over a richer state -/

variable {τ : Type}

/-- `x` does what `y` does on that part of its state which `f` keeps. -/
def Erases (f : σ → τ) (x : Procedure σ ε α) (y : Procedure τ ε α) : Prop :=
  ∀ s, (x s).1 = (y (f s)).1 ∧ f (x s).2 = (y (f s)).2

namespace Erases

variable {f : σ → τ} {x x' : Procedure σ ε α} {y y' : Procedure τ ε α}

theorem pure (a : α) : Erases f (Pure.pure a : Procedure σ ε α) (Pure.pure a) := fun _ => ⟨rfl, rfl⟩

theorem act {g : σ → α × σ} {g' : τ → α × τ}
    (h : ∀ s, (g s).1 = (g' (f s)).1 ∧ f (g s).2 = (g' (f s)).2) :
    Erases f (Procedure.act g : Procedure σ ε α) (Procedure.act g') :=
  fun s => ⟨congrArg Except.ok (h s).1, (h s).2⟩

theorem update {g : σ → σ} {g' : τ → τ} (h : ∀ s, f (g s) = g' (f s)) :
    Erases f (Procedure.update g : Procedure σ ε Unit) (Procedure.update g') := fun s => ⟨rfl, h s⟩

theorem ask {g : σ → α} {g' : τ → α} (h : ∀ s, g s = g' (f s)) :
    Erases f (Procedure.ask g : Procedure σ ε α) (Procedure.ask g') :=
  fun s => ⟨congrArg Except.ok (h s), rfl⟩

theorem bind {u : Procedure σ ε β} {v : Procedure τ ε β} {k : β → Procedure σ ε α}
    {l : β → Procedure τ ε α} (hu : Erases f u v) (hk : ∀ b, Erases f (k b) (l b)) :
    Erases f (u >>= k) (v >>= l) := by
  intro s
  obtain ⟨hresult, hstate⟩ := hu s
  rw [bind_apply, bind_apply]
  cases hright : v (f s) with
  | mk result t' =>
    cases hleft : u s with
    | mk result' s' =>
      rw [hleft, hright] at hresult hstate
      obtain rfl : result' = result := hresult
      obtain rfl : f s' = t' := hstate
      cases result' with
      | ok b => exact hk b s'
      | error e => exact ⟨rfl, rfl⟩

theorem ite {c : Prop} [Decidable c] (hx : c → Erases f x y) (hx' : ¬ c → Erases f x' y') :
    Erases f (if c then x else x') (if c then y else y') := by
  split
  · exact hx ‹_›
  · exact hx' ‹_›

end Erases

end Procedure

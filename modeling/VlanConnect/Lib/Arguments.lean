/-
  VlanConnect/Lib/Arguments.lean
  ==============================
  **How a Windows process splits its command line.**

  A process is started with one string of UTF-16 code units and splits it into
  arguments by itself.  The rules: blanks separate arguments unless they are
  quoted; a backslash is an ordinary character unless a double quote follows
  its run; `2n` backslashes and a quote stand for `n` backslashes and a
  delimiter; `2n + 1` backslashes and a quote for `n` backslashes and a quote
  character.  The line ends at its first NUL.

  `Splitter` reads the line one code unit at a time, with the run of
  backslashes that is still undecided as a counter.  The lemmas say what it
  does inside of a quoted argument (`Splitter.inside`).
-/
import Mathlib.Data.List.Basic
import Mathlib.Data.List.TakeWhile

namespace Arguments

/-- A `std::wstring` of code units. -/
abbrev WString := List UInt16

def BACKSLASH : UInt16 := 92
def QUOTE : UInt16 := 34
def SPACE : UInt16 := 32
def TAB : UInt16 := 9
def NUL : UInt16 := 0

/-- The arguments that are complete, the one being read, the backslashes seen
    last and not yet decided, and whether blanks are quoted. -/
structure Splitter where
  done : List WString := []
  current : Option WString := none
  slashes : Nat := 0
  quoted : Bool := false
deriving DecidableEq, Repr

namespace Splitter

/-- The argument being read. -/
def text (s : Splitter) : WString := s.current.getD []

/-- The argument being read when the pending backslashes are ordinary ones. -/
def literal (s : Splitter) : WString := s.text ++ List.replicate s.slashes BACKSLASH

/-- The end of the argument being read, if there is one. -/
def close (s : Splitter) : Splitter :=
  match s.current with
  | none => s
  | some _ => { done := s.done ++ [s.literal] }

def read (s : Splitter) (c : UInt16) : Splitter :=
  if c = BACKSLASH then { s with current := some s.text, slashes := s.slashes + 1 }
  else if c = QUOTE then
    if s.slashes % 2 = 0 then
      { s with
        current := some (s.text ++ List.replicate (s.slashes / 2) BACKSLASH), slashes := 0,
        quoted := !s.quoted }
    else
      { s with
        current := some (s.text ++ List.replicate (s.slashes / 2) BACKSLASH ++ [QUOTE]),
        slashes := 0 }
  else if (c = SPACE ∨ c = TAB) ∧ s.quoted = false then s.close
  else { s with current := some (s.literal ++ [c]), slashes := 0 }

def run (s : Splitter) (line : WString) : Splitter := line.foldl read s

theorem run_append (s : Splitter) (front back : WString) :
    s.run (front ++ back) = (s.run front).run back := by
  simp [run]

/-- Between the quotes of an argument. -/
def inside (done : List WString) (text : WString) (slashes : Nat) : Splitter :=
  { done := done, current := some text, slashes := slashes, quoted := true }

/-- Past the closing quote of an argument. -/
def past (done : List WString) (text : WString) : Splitter := { done := done, current := some text }

variable (done : List WString) (text : WString)

@[simp] theorem read_opening : read { done := done } QUOTE = inside done [] 0 := by
  simp [read, inside, Splitter.text, QUOTE, BACKSLASH]

@[simp] theorem read_backslash (k : Nat) :
    (inside done text k).read BACKSLASH = inside done text (k + 1) := by
  simp [read, inside, Splitter.text]

@[simp] theorem run_backslashes (n k : Nat) :
    (inside done text k).run (List.replicate n BACKSLASH) = inside done text (k + n) := by
  induction n generalizing k with
  | zero => simp [run]
  | succ n ih =>
    have hrest := ih (k + 1)
    simp only [run] at hrest ⊢
    rw [List.replicate_succ, List.foldl_cons, read_backslash, hrest, Nat.add_right_comm,
      Nat.add_assoc]

theorem read_ordinary {c : UInt16} (hslash : c ≠ BACKSLASH) (hquote : c ≠ QUOTE) (k : Nat) :
    (inside done text k).read c = inside done (text ++ List.replicate k BACKSLASH ++ [c]) 0 := by
  simp [read, inside, literal, Splitter.text, hslash, hquote]

/-- An odd run makes the quote a character of the argument. -/
theorem read_escaped (n : Nat) :
    (inside done text (n * 2 + 1)).read QUOTE =
    inside done (text ++ List.replicate n BACKSLASH ++ [QUOTE]) 0 := by
  have hhalf : (n * 2 + 1) / 2 = n := by omega
  simp [read, inside, Splitter.text, hhalf, QUOTE, BACKSLASH]

/-- An even run leaves the quote a delimiter. -/
theorem read_closing (n : Nat) :
    (inside done text (n * 2)).read QUOTE = past done (text ++ List.replicate n BACKSLASH) := by
  have hhalf : n * 2 / 2 = n := by omega
  simp [read, inside, past, Splitter.text, hhalf, QUOTE, BACKSLASH]

@[simp] theorem close_past : (past done text).close = { done := done ++ [text] } := by
  simp [close, past, literal, Splitter.text]

@[simp] theorem read_space : (past done text).read SPACE = { done := done ++ [text] } := by
  rw [← close_past]
  simp [read, past, SPACE, BACKSLASH, QUOTE]

end Splitter

/-- The arguments of a command line. -/
def splitArguments (line : WString) : List WString :=
  (Splitter.run {} (line.takeWhile (· ≠ NUL))).close.done

/-- What stands behind the first NUL is not part of the line. -/
theorem splitArguments_append_nul {line : WString} (h : NUL ∉ line) (rest : WString) :
    splitArguments (line ++ NUL :: rest) = (Splitter.run {} line).close.done := by
  have hall : ∀ c ∈ line, decide (c ≠ NUL) = true := by
    intro c hc
    simp only [decide_eq_true_eq]
    rintro rfl
    exact h hc
  rw [splitArguments, List.takeWhile_append_of_pos hall, List.takeWhile_cons_of_neg (by simp),
    List.append_nil]

theorem splitArguments_eq {line : WString} (h : NUL ∉ line) :
    splitArguments line = (Splitter.run {} line).close.done := by
  have hall : ∀ c ∈ line, decide (c ≠ NUL) = true := by
    intro c hc
    simp only [decide_eq_true_eq]
    rintro rfl
    exact h hc
  rw [splitArguments, List.takeWhile_eq_self_iff.mpr hall]

end Arguments

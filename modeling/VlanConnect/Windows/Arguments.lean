/-
  VlanConnect/Windows/Arguments.lean
  ==================================
  **The command line of a network command** (`common/windows_network_config.h`).

  Every setting of the virtual adapter is made by `netsh`, whose arguments hold
  the adapter's alias and the rule's name.  `quoteWindowsArgument` puts each
  between quotes, and doubles the backslashes that the splitting rules would
  otherwise pair with a quote.  The counter of its loop is the splitter's: what
  the loop has written so far leaves the splitter inside of the argument, short
  of the slashes the loop still holds back (`run_quoteLoop`).  A command line
  then splits into the arguments it was made from, whatever they contain.
-/
import VlanConnect.Lib.Arguments

namespace VlanConnect.WindowsNetwork

open Arguments

/-! ### The command line -/

/-- The loop over the characters of the argument; `result` and `slashes` are
    the variables of the source. -/
def quoteLoop (result : WString) (slashes : Nat) : WString → WString
  | [] => result ++ List.replicate (slashes * 2) BACKSLASH ++ [QUOTE]
  | c :: argument =>
    if c = BACKSLASH then quoteLoop result (slashes + 1) argument
    else if c = QUOTE then
      quoteLoop (result ++ List.replicate (slashes * 2 + 1) BACKSLASH ++ [c]) 0 argument
    else quoteLoop (result ++ List.replicate slashes BACKSLASH ++ [c]) 0 argument

def quoteWindowsArgument (argument : WString) : WString := quoteLoop [QUOTE] 0 argument

/-- The `command` that `execute` builds. -/
def commandLine (executable : WString) (arguments : List WString) : WString :=
  arguments.foldl (fun command argument => command ++ SPACE :: quoteWindowsArgument argument)
    (quoteWindowsArgument executable)

/-- The buffer that `execute` hands to `CreateProcessW`. -/
def commandBuffer (executable : WString) (arguments : List WString) : WString :=
  commandLine executable arguments ++ [NUL]

/-! ### Reading one argument back -/

theorem run_quoteLoop {done : List WString} {result text : WString} (slashes : Nat)
    (argument : WString) (h : Splitter.run { done := done } result = Splitter.inside done text 0) :
    Splitter.run { done := done } (quoteLoop result slashes argument) =
      Splitter.past done (text ++ List.replicate slashes BACKSLASH ++ argument) := by
  induction argument generalizing result text slashes with
  | nil =>
    simp only [quoteLoop, Splitter.run_append, h, Splitter.run_backslashes, Nat.zero_add,
      List.append_nil]
    exact Splitter.read_closing done text slashes
  | cons c argument ih =>
    rw [quoteLoop]
    split
    · next hslash =>
      -- The slash is only counted: both sides hold it back.
      rw [ih (slashes + 1) h, hslash, List.replicate_succ']
      simp only [List.append_assoc, List.cons_append, List.nil_append]
    · next hslash =>
      split
      · next hquote =>
        have hread :
          Splitter.run { done := done }
          (result ++ List.replicate (slashes * 2 + 1) BACKSLASH ++ [c]) =
            Splitter.inside done (text ++ List.replicate slashes BACKSLASH ++ [c]) 0 := by
          rw [Splitter.run_append, Splitter.run_append, h, Splitter.run_backslashes,
            Nat.zero_add, hquote]
          exact Splitter.read_escaped done text slashes
        rw [ih 0 hread]
        simp only [List.replicate_zero, List.append_nil, List.append_assoc, List.cons_append,
          List.nil_append]
      · next hquote =>
        have hread :
          Splitter.run { done := done } (result ++ List.replicate slashes BACKSLASH ++ [c]) =
            Splitter.inside done (text ++ List.replicate slashes BACKSLASH ++ [c]) 0 := by
          rw [Splitter.run_append, Splitter.run_append, h, Splitter.run_backslashes, Nat.zero_add]
          exact Splitter.read_ordinary done text hslash hquote slashes
        rw [ih 0 hread]
        simp only [List.replicate_zero, List.append_nil, List.append_assoc, List.cons_append,
          List.nil_append]

/-- A quoted argument is read as that argument. -/
theorem run_quoteWindowsArgument (done : List WString) (argument : WString) :
    Splitter.run
    { done := done } (quoteWindowsArgument argument) = Splitter.past done argument := by
  have hopening : Splitter.run { done := done } [QUOTE] =
    Splitter.inside done [] 0 := Splitter.read_opening done
  rw [quoteWindowsArgument, run_quoteLoop 0 argument hopening]
  simp

/-- Quoting adds backslashes and quotes only. -/
theorem nul_notMem_quoteLoop {result argument : WString} (slashes : Nat) (hresult : NUL ∉ result)
    (hargument : NUL ∉ argument) : NUL ∉ quoteLoop result slashes argument := by
  have hslashes : ∀ n, NUL ∉ List.replicate n BACKSLASH := by
    intro n hn
    exact absurd (List.eq_of_mem_replicate hn) (by decide)
  have hquote : NUL ≠ QUOTE := by decide
  induction argument generalizing result slashes with
  | nil => simp [quoteLoop, hresult, hslashes, hquote]
  | cons c argument ih =>
    rw [List.mem_cons, not_or] at hargument
    obtain ⟨hc, hrest⟩ := hargument
    rw [quoteLoop]
    split
    · exact ih (slashes + 1) hresult hrest
    · split
      · exact ih 0 (by simp [hresult, hslashes, hc]) hrest
      · exact ih 0 (by simp [hresult, hslashes, hc]) hrest

theorem nul_notMem_quoteWindowsArgument {argument : WString} (h : NUL ∉ argument) :
    NUL ∉ quoteWindowsArgument argument :=
  nul_notMem_quoteLoop 0 (by decide) h

/-! ### Reading the whole line back -/

/-- The forms joined by single spaces. -/
def joinArguments (arguments : List WString) : WString :=
  List.intercalate [SPACE] (arguments.map quoteWindowsArgument)

theorem joinArguments_cons_cons (first second : WString) (arguments : List WString) :
    joinArguments (first :: second :: arguments) =
      quoteWindowsArgument first ++ SPACE :: joinArguments (second :: arguments) := by
  simp [joinArguments, List.intercalate]

theorem commandLine_eq (executable : WString) (arguments : List WString) :
    commandLine executable arguments = joinArguments (executable :: arguments) := by
  -- The loop appends at the end; the join peels arguments off the front.
  have hfold : ∀ (command : WString), arguments.foldl
      (fun command argument => command ++ SPACE :: quoteWindowsArgument argument)
        (command ++ quoteWindowsArgument executable) = command ++
        joinArguments (executable :: arguments) := by
    induction arguments generalizing executable with
    | nil => intro command; simp [joinArguments, List.intercalate]
    | cons argument arguments ih =>
      intro command
      have hrest := ih argument (command ++ quoteWindowsArgument executable ++ [SPACE])
      rw [List.foldl_cons, joinArguments_cons_cons]
      simp only [List.append_assoc, List.cons_append, List.nil_append] at hrest ⊢
      exact hrest
  exact hfold []

theorem run_joinArguments (done : List WString) (arguments : List WString) :
    (Splitter.run { done := done } (joinArguments arguments)).close.done = done ++ arguments := by
  induction arguments generalizing done with
  | nil => simp [joinArguments, List.intercalate, Splitter.run, Splitter.close]
  | cons argument arguments ih =>
    cases arguments with
    | nil =>
      have hone : joinArguments [argument] = quoteWindowsArgument argument := by
        simp [joinArguments, List.intercalate]
      rw [hone, run_quoteWindowsArgument, Splitter.close_past]
    | cons second arguments =>
      have hspace : ∀ (s : Splitter) (line : WString),
          s.run (SPACE :: line) = (s.read SPACE).run line :=
        fun _ _ => rfl
      rw [joinArguments_cons_cons, Splitter.run_append, run_quoteWindowsArgument, hspace,
        Splitter.read_space, ih]
      simp

theorem nul_notMem_joinArguments {arguments : List WString}
    (h : ∀ argument ∈ arguments, NUL ∉ argument) :
    NUL ∉ joinArguments arguments := by
  induction arguments with
  | nil => simp [joinArguments, List.intercalate]
  | cons argument arguments ih =>
    have hfirst := nul_notMem_quoteWindowsArgument (h argument List.mem_cons_self)
    have hrest := ih fun a ha => h a (List.mem_cons_of_mem _ ha)
    cases arguments with
    | nil => simpa [joinArguments, List.intercalate] using hfirst
    | cons second arguments =>
      rw [joinArguments_cons_cons]
      have hspace : NUL ≠ SPACE := by decide
      simp [hfirst, hrest, hspace]

/-- **A command line is split into the arguments it was made from**, both the
    bare join and the buffer that starts the process. -/
theorem splitArguments_joinArguments (arguments : List WString)
    (h : ∀ argument ∈ arguments, NUL ∉ argument) :
    splitArguments (joinArguments arguments) = arguments ∧
      ∀ executable, NUL ∉ executable →
        splitArguments (commandBuffer executable arguments) = executable :: arguments := by
  constructor
  · rw [splitArguments_eq (nul_notMem_joinArguments h), run_joinArguments, List.nil_append]
  · intro executable hexecutable
    have hall : ∀ argument ∈ executable :: arguments, NUL ∉ argument :=
      List.forall_mem_cons.mpr ⟨hexecutable, h⟩
    rw [commandBuffer, commandLine_eq, splitArguments_append_nul (nul_notMem_joinArguments hall),
      run_joinArguments, List.nil_append]

/-- An alias that ends in a backslash, and one that tries to close its quotes. -/
theorem splitArguments_joinArguments_hostile :
    splitArguments (joinArguments [[65, 92], [34, 32, 92, 34, 98], []]) =
    [[65, 92], [34, 32, 92, 34, 98], []] :=
  (splitArguments_joinArguments [[65, 92], [34, 32, 92, 34, 98], []] (by decide)).1

end VlanConnect.WindowsNetwork

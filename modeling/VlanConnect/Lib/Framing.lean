/-
  VlanConnect/Lib/Framing.lean
  ============================
  **Reading frames from a byte stream.**

  A receive loop looks at the head of its buffer, takes a frame off when there
  is a whole one and hands it to a handler, which may end the connection.  When
  what the head says does not change as more bytes come (`Stable`), the way the
  stream is cut into chunks does not matter (`readAll_eq_loop`), and a stream
  made of frames comes out frame by frame (`loop_encoded`).
-/
import Mathlib.Data.List.Basic
import Mathlib.Data.List.Induction

namespace Framing

variable {σ F β : Type}

/-- What the head of a buffer is. -/
inductive Probe (F : Type) where
  | incomplete
  | corrupted
  | frame (f : F) (length : Nat)

/-- A receive loop: the handler says whether the connection is still open. -/
structure Loop (σ F β : Type) where
  probe : List β → Probe F
  handle : σ → F → Bool × σ
  fail : σ → σ

/-- More bytes change neither a frame nor an error. -/
structure Stable (probe : List β → Probe F) : Prop where
  frame : ∀ {a : List β} {f : F} {n : Nat}, probe a = .frame f n →
    0 < n ∧ n ≤ a.length ∧ ∀ b, probe (a ++ b) = .frame f n
  corrupted : ∀ {a : List β}, probe a = .corrupted → ∀ b, probe (a ++ b) = .corrupted

namespace Loop

variable (l : Loop σ F β)

/-- The loop over the buffer; the buffer is gone when the connection is. -/
def loop : (fuel : Nat) → σ → List β → σ × Option (List β)
  | 0, s, buf => (s, some buf)
  | fuel + 1, s, buf =>
    match l.probe buf with
    | .incomplete => (s, some buf)
    | .corrupted => (l.fail s, none)
    | .frame f n =>
      match l.handle s f with
      | (true, s) => loop fuel s (buf.drop n)
      | (false, s) => (s, none)

/-- A chunk comes in, unless the connection is gone. -/
def read (r : σ × Option (List β)) (chunk : List β) : σ × Option (List β) :=
  match r.2 with
  | none => r
  | some buf => l.loop (buf ++ chunk).length r.1 (buf ++ chunk)

def readAll (r : σ × Option (List β)) (chunks : List (List β)) : σ × Option (List β) :=
  chunks.foldl l.read r

variable {l}

/-- Fuel beyond the length of the buffer is not used. -/
theorem loop_fuel (h : Stable l.probe) {n m : Nat} {buf : List β} (hn : buf.length ≤ n)
    (hm : buf.length ≤ m) (hempty : l.probe [] = .incomplete) (s : σ) :
    l.loop n s buf = l.loop m s buf := by
  induction n generalizing m buf s with
  | zero =>
    have hnil : buf = [] := List.eq_nil_of_length_eq_zero (Nat.le_zero.mp hn)
    rw [hnil]
    cases m with
    | zero => rfl
    | succ m =>
      rw [loop, loop, hempty]
  | succ n ih =>
    cases m with
    | zero =>
      have hnil : buf = [] := List.eq_nil_of_length_eq_zero (Nat.le_zero.mp hm)
      rw [hnil, loop, loop, hempty]
    | succ m =>
      rw [loop, loop]
      cases hprobe : l.probe buf with
      | incomplete => rfl
      | corrupted => rfl
      | frame f k =>
        obtain ⟨hpos, hle, -⟩ := h.frame hprobe
        have hlen : (buf.drop k).length = buf.length - k := List.length_drop
        dsimp only
        split
        · exact ih (by omega) (by omega) _
        · rfl

/-- The bytes at hand are worked off before the next ones are looked at. -/
theorem loop_append (h : Stable l.probe) (hempty : l.probe [] = .incomplete) (n : Nat) :
    ∀ (s : σ) (a b : List β), a.length ≤ n →
      l.loop (a ++ b).length s (a ++ b) = l.read (l.loop n s a) b := by
  induction n with
  | zero =>
    intro s a b _
    rfl
  | succ n ih =>
    intro s a b ha
    cases hprobe : l.probe a with
    | incomplete => rw [loop, hprobe, read]
    | corrupted =>
      rw [loop, hprobe, read]
      have hne : (a ++ b).length ≠ 0 := by
        intro hzero
        have hnil := (List.append_eq_nil_iff.mp (List.eq_nil_of_length_eq_zero hzero)).1
        rw [hnil, hempty] at hprobe
        cases hprobe
      obtain ⟨k, hk⟩ := Nat.exists_eq_succ_of_ne_zero hne
      rw [hk, loop, h.corrupted hprobe b]
    | frame f k =>
      obtain ⟨hpos, hle, hmore⟩ := h.frame hprobe
      have hlen : (a ++ b).length = a.length + b.length := List.length_append
      have hdrop : (a ++ b).drop k = a.drop k ++ b := List.drop_append_of_le_length hle
      have hrest : (a.drop k).length = a.length - k := List.length_drop
      have hboth : (a.drop k ++ b).length = (a.drop k).length + b.length := List.length_append
      obtain ⟨m, hm⟩ := Nat.exists_eq_succ_of_ne_zero (n := (a ++ b).length) (by omega)
      rw [hm, loop, loop, hprobe, hmore b]
      dsimp only
      rw [hdrop]
      split
      · next s' _ =>
        rw [loop_fuel h (n := m) (m := (a.drop k ++ b).length) (by omega) (Nat.le_refl _) hempty]
        exact ih s' (a.drop k) b (by omega)
      · rfl

/-- **The chunks do not matter**: the loop gets through the whole of them as it would at once. -/
theorem readAll_eq_loop (h : Stable l.probe) (hempty : l.probe [] = .incomplete) (s : σ)
    (chunks : List (List β)) :
    l.readAll (s, some []) chunks = l.loop chunks.flatten.length s chunks.flatten := by
  induction chunks using List.reverseRecOn with
  | nil => rfl
  | append_singleton chunks chunk ih =>
    have hstep : l.readAll (s, some []) (chunks ++ [chunk]) =
        l.read (l.readAll (s, some []) chunks) chunk := by
      unfold readAll
      rw [List.foldl_append]
      rfl
    rw [hstep, ih, List.flatten_append, List.flatten_singleton]
    exact (loop_append h hempty _ s _ _ (Nat.le_refl _)).symm

/-- The handler on one frame after the other, until it ends the connection. -/
def handleAll : σ → List F → Bool × σ
  | s, [] => (true, s)
  | s, f :: fs =>
    match l.handle s f with
    | (true, s) => handleAll s fs
    | (false, s) => (false, s)

/-- **A stream of frames comes out frame by frame**, and what is kept is the part of the
    next one. -/
theorem loop_encoded (h : Stable l.probe) (hempty : l.probe [] = .incomplete) {encode : F → List β}
    {fs : List F}
    (hwhole : ∀ f ∈ fs, l.probe (encode f) = .frame f (encode f).length) {rest : List β}
    (hrest : l.probe rest = .incomplete) (s : σ) :
    l.loop ((fs.map encode).flatten ++ rest).length s ((fs.map encode).flatten ++ rest) =
      match handleAll (l := l) s fs with
      | (true, s) => (s, some rest)
      | (false, s) => (s, none) := by
  induction fs generalizing s with
  | nil =>
    rw [List.map_nil, List.flatten_nil, List.nil_append, handleAll]
    cases rest.length with
    | zero => rfl
    | succ n => rw [loop, hrest]
  | cons f fs ih =>
    have hprobe := hwhole f List.mem_cons_self
    obtain ⟨hpos, -, hmore⟩ := h.frame hprobe
    rw [List.map_cons, List.flatten_cons, List.append_assoc]
    generalize htail : (fs.map encode).flatten ++ rest = tail at ih ⊢
    have hlen : (encode f ++ tail).length = (encode f).length + tail.length := List.length_append
    obtain ⟨m, hm⟩ := Nat.exists_eq_succ_of_ne_zero (n := (encode f ++ tail).length) (by omega)
    rw [hm, loop, hmore tail, handleAll]
    dsimp only
    rw [List.drop_left]
    cases l.handle s f with
    | mk more s' =>
      cases more with
      | true =>
        dsimp only
        rw [loop_fuel h (n := m) (m := tail.length) (by omega) (Nat.le_refl _) hempty]
        exact ih (fun g hg => hwhole g (List.mem_cons_of_mem _ hg)) s'
      | false => rfl

end Loop

end Framing

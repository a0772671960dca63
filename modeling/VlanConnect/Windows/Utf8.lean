/-
  VlanConnect/Windows/Utf8.lean
  =============================
  **Reading UTF-8 that may have been cut** (`common/windows_network_config.h`).

  The text of a command may stop in the middle of a character: the capture has
  a limit and the process may be killed.  `windowsUtf8Sequence` looks at the
  bytes at one offset and tells a character from the start of one and from
  bytes that are neither; `windowsValidateUtf8` walks over the value with it.

  `Sequence` lists the well-formed byte sequences.  They are the encodings of
  the scalar values (`sequence_utf8EncodeChar`, `Sequence.exists_char`), and
  `windowsUtf8Sequence` recognises them (`utf8Recognises`), so the validator is
  a scan in the sense of `PrefixCode` (`windowsValidateUtf8_eq`).
-/
import VlanConnect.Bytes
import VlanConnect.Lib.PrefixCode

namespace VlanConnect.WindowsNetwork

open PrefixCode

/-! ### The functions of the source -/

/-- The number of bytes that a lead byte announces; `-1` for a byte that leads nothing. -/
def leadLength (lead : Nat) : Int :=
  if lead < 0x80 then 1
  else if lead ≥ 0xc2 ∧ lead ≤ 0xdf then 2
  else if lead ≥ 0xe0 ∧ lead ≤ 0xef then 3
  else if lead ≥ 0xf0 ∧ lead ≤ 0xf4 then 4
  else -1

/-- The `i`-th byte behind the lead byte cannot stand there. -/
def badContinuation (lead i next : Nat) : Bool :=
  next < 0x80 || next > 0xbf ||
    (i == 1 && ((lead == 0xe0 && next < 0xa0) || (lead == 0xed && next > 0x9f) ||
      (lead == 0xf0 && next < 0x90) || (lead == 0xf4 && next > 0x8f)))

/-- The loop over the continuation bytes that are there: is one of them bad? -/
def continuationLoop (lead : Nat) (length : Int) (i : Nat) : Bytes → Bool
  | [] => false
  | next :: following =>
    if i < length then badContinuation lead i next.toNat || continuationLoop lead length
      (i + 1) following else false

def windowsUtf8Sequence (value : Bytes) (offset : Nat) : Int :=
  match value.drop offset with
  | [] => 0
  | lead :: following =>
    let length := leadLength lead.toNat
    if length < 0 then -1
    else if continuationLoop lead.toNat length 1 following then -1
    else if ((value.length - offset : Nat) : Int) < length then 0
    else length

/-- The loop of `windowsValidateUtf8`: the result and `validBytes`. -/
def validateLoop (value : Bytes) (allowIncompleteTail : Bool) (offset : Nat) : Bool × Nat :=
  if offset < value.length then
    if windowsUtf8Sequence value offset ≤ 0 then
      (windowsUtf8Sequence value offset == 0 && allowIncompleteTail, offset)
    else validateLoop value allowIncompleteTail (offset + (windowsUtf8Sequence value offset).toNat)
  else (true, offset)
termination_by value.length - offset
decreasing_by omega

def windowsValidateUtf8 (value : Bytes) (allowIncompleteTail : Bool) : Bool × Nat :=
  validateLoop value allowIncompleteTail 0

def boundedLoop (value : Bytes) (limit offset : Nat) : Nat :=
  if offset < value.length ∧ offset < limit then
    if windowsUtf8Sequence value offset ≤ 0 ∨
      windowsUtf8Sequence value offset > (limit - offset : Nat) then offset
    else boundedLoop value limit (offset + (windowsUtf8Sequence value offset).toNat)
  else offset
termination_by value.length - offset
decreasing_by omega

def windowsUtf8BoundedLength (value : Bytes) (limit : Nat) : Nat := boundedLoop value limit 0

def windowsAppendUtf8 (output : Bytes) (scalar : Nat) : Bytes :=
  if scalar < 0x80 then output ++ [UInt8.ofNat scalar]
  else if scalar < 0x800 then
    output ++ [UInt8.ofNat (0xc0 ||| scalar >>> 6), UInt8.ofNat (0x80 ||| scalar &&& 63)]
  else if scalar < 0x10000 then
    output ++ [UInt8.ofNat (0xe0 ||| scalar >>> 12), UInt8.ofNat (0x80 ||| scalar >>> 6 &&& 63),
      UInt8.ofNat (0x80 ||| scalar &&& 63)]
  else
    output ++ [UInt8.ofNat (0xf0 ||| scalar >>> 18), UInt8.ofNat (0x80 ||| scalar >>> 12 &&& 63),
      UInt8.ofNat (0x80 ||| scalar >>> 6 &&& 63), UInt8.ofNat (0x80 ||| scalar &&& 63)]

/-! ### Well-formed sequences -/

def Tail (b : UInt8) : Prop := 0x80 ≤ b.toNat ∧ b.toNat ≤ 0xbf

/-- The byte sequences of one character: no overlong form, no surrogate,
    nothing above `10FFFF`. -/
inductive Sequence : Bytes → Prop where
  | one {a : UInt8} (ha : a.toNat < 0x80) : Sequence [a]
  | two {a b : UInt8} (ha : 0xc2 ≤ a.toNat ∧ a.toNat ≤ 0xdf) (hb : Tail b) : Sequence [a, b]
  | three {a b c : UInt8} (ha : 0xe0 ≤ a.toNat ∧ a.toNat ≤ 0xef) (hb : Tail b) (hc : Tail c)
      (hlow : a.toNat = 0xe0 → 0xa0 ≤ b.toNat) (hhigh : a.toNat = 0xed → b.toNat ≤ 0x9f) :
      Sequence [a, b, c]
  | four {a b c d : UInt8} (ha : 0xf0 ≤ a.toNat ∧ a.toNat ≤ 0xf4) (hb : Tail b) (hc : Tail c)
      (hd : Tail d)
      (hlow : a.toNat = 0xf0 → 0x90 ≤ b.toNat) (hhigh : a.toNat = 0xf4 → b.toNat ≤ 0x8f) :
      Sequence [a, b, c, d]

/-- The scalar values. -/
theorem toNat_valid (c : Char) : c.toNat < 0xd800 ∨ 0xdfff < c.toNat ∧ c.toNat < 0x110000 := c.valid

theorem toNat_charOfNat {v : Nat} (h : v < 0xd800 ∨ 0xdfff < v ∧ v < 0x110000) :
    (Char.ofNat v).toNat = v := by
  unfold Char.ofNat
  rw [dif_pos h]
  rfl

/-- The encoding in terms of the scalar value. -/
theorem utf8EncodeChar_eq (c : Char) : String.utf8EncodeChar c =
    if c.toNat ≤ 0x7f then [UInt8.ofNat c.toNat]
    else if c.toNat ≤ 0x7ff then [UInt8.ofNat (c.toNat / 64 % 0x20 + 0xc0),
      UInt8.ofNat (c.toNat % 0x40 + 0x80)]
    else if c.toNat ≤ 0xffff then
      [UInt8.ofNat (c.toNat / 4096 % 0x10 + 0xe0), UInt8.ofNat (c.toNat / 64 % 0x40 + 0x80),
        UInt8.ofNat (c.toNat % 0x40 + 0x80)]
    else
      [UInt8.ofNat (c.toNat / 262144 % 0x08 + 0xf0), UInt8.ofNat (c.toNat / 4096 % 0x40 + 0x80),
        UInt8.ofNat (c.toNat / 64 % 0x40 + 0x80), UInt8.ofNat (c.toNat % 0x40 + 0x80)] := rfl

theorem sequence_utf8EncodeChar (c : Char) : Sequence (String.utf8EncodeChar c) := by
  have hvalid := toNat_valid c
  rw [utf8EncodeChar_eq]
  generalize c.toNat = v at hvalid
  split
  · exact .one (by simp; omega)
  · split
    · exact .two (by simp; omega) (by simp [Tail]; omega)
    · split
      · exact .three (by simp; omega) (by simp [Tail]; omega) (by simp [Tail]; omega)
          (by simp; omega) (by simp; omega)
      · exact .four (by simp; omega) (by simp [Tail]; omega) (by simp [Tail]; omega)
          (by simp [Tail]; omega)
          (by simp; omega) (by simp; omega)

theorem ofNat_eq {n : Nat} {a : UInt8} (h : n = a.toNat) : UInt8.ofNat n = a := by
  rw [h, UInt8.ofNat_toNat]

theorem Sequence.exists_char {w : Bytes} (h : Sequence w) : ∃ c, String.utf8EncodeChar c = w := by
  cases h with
  | @one a ha =>
    refine ⟨Char.ofNat a.toNat, ?_⟩
    rw [utf8EncodeChar_eq, toNat_charOfNat (by omega), if_pos (by omega), ofNat_eq rfl]
  | @two a b ha hb =>
    obtain ⟨hb₁, hb₂⟩ := hb
    refine ⟨Char.ofNat ((a.toNat - 0xc0) * 64 + (b.toNat - 0x80)), ?_⟩
    rw [utf8EncodeChar_eq, toNat_charOfNat (by omega), if_neg (by omega), if_pos (by omega),
      ofNat_eq (a := a) (by omega), ofNat_eq (a := b) (by omega)]
  | @three a b c ha hb hc hlow hhigh =>
    obtain ⟨hb₁, hb₂⟩ := hb
    obtain ⟨hc₁, hc₂⟩ := hc
    refine ⟨Char.ofNat ((a.toNat - 0xe0) * 4096 + (b.toNat - 0x80) * 64 + (c.toNat - 0x80)), ?_⟩
    rw [utf8EncodeChar_eq, toNat_charOfNat (by omega), if_neg (by omega), if_neg (by omega),
      if_pos (by omega), ofNat_eq (a := a) (by omega), ofNat_eq (a := b) (by omega),
      ofNat_eq (a := c) (by omega)]
  | @four a b c d ha hb hc hd hlow hhigh =>
    obtain ⟨hb₁, hb₂⟩ := hb
    obtain ⟨hc₁, hc₂⟩ := hc
    obtain ⟨hd₁, hd₂⟩ := hd
    refine ⟨Char.ofNat ((a.toNat - 0xf0) * 262144 + (b.toNat - 0x80) * 4096 +
      (c.toNat - 0x80) * 64 +
      (d.toNat - 0x80)), ?_⟩
    rw [utf8EncodeChar_eq, toNat_charOfNat (by omega), if_neg (by omega), if_neg (by omega),
      if_neg (by omega), ofNat_eq (a := a) (by omega), ofNat_eq (a := b) (by omega),
      ofNat_eq (a := c) (by omega), ofNat_eq (a := d) (by omega)]

/-- A marker above `x` bits and `x` itself. -/
theorem or_eq_add {marker x : Nat} (i k : Nat) (hmarker : marker = 2 ^ i * k) (hx : x < 2 ^ i) :
    marker ||| x = x + marker := by
  rw [hmarker, ← Nat.two_pow_add_eq_or_of_lt hx, Nat.add_comm]

theorem tail_eq (x : Nat) : 0x80 ||| x &&& 63 = x % 0x40 + 0x80 := by
  have hlow : x &&& 63 = x % 0x40 := Nat.and_two_pow_sub_one_eq_mod x 6
  rw [hlow]
  exact or_eq_add 6 2 (by norm_num) (Nat.mod_lt _ (by norm_num))

/-- What the decoder of UTF-16 appends is the encoding. -/
theorem windowsAppendUtf8_eq (output : Bytes) (c : Char) :
    windowsAppendUtf8 output c.toNat = output ++ String.utf8EncodeChar c := by
  have hvalid := toNat_valid c
  rw [utf8EncodeChar_eq]
  unfold windowsAppendUtf8
  generalize c.toNat = v at hvalid
  simp only [tail_eq, Nat.shiftRight_eq_div_pow]
  norm_num only
  split
  · rw [if_pos (by omega)]
  · split
    · have hlead : 0xc0 ||| v / 64 = v / 64 + 0xc0 := or_eq_add 5 6 (by norm_num) (by omega)
      rw [if_neg (by omega), if_pos (by omega), hlead, Nat.mod_eq_of_lt (a := v / 64) (by omega)]
    · split
      · have hlead : 0xe0 ||| v / 4096 = v / 4096 + 0xe0 := or_eq_add 4 14 (by norm_num) (by omega)
        rw [if_neg (by omega), if_neg (by omega), if_pos (by omega), hlead,
          Nat.mod_eq_of_lt (a := v / 4096) (by omega)]
      · have hlead : 0xf0 ||| v / 262144 = v / 262144 + 0xf0 :=
          or_eq_add 3 30 (by norm_num) (by omega)
        rw [if_neg (by omega), if_neg (by omega), if_neg (by omega), hlead,
          Nat.mod_eq_of_lt (a := v / 262144) (by omega)]

/-! ### The recogniser -/

theorem windowsUtf8Sequence_drop (value : Bytes) (offset : Nat) :
    windowsUtf8Sequence value offset = windowsUtf8Sequence (value.drop offset) 0 := by
  unfold windowsUtf8Sequence
  rw [List.drop_zero, List.length_drop, Nat.sub_zero]

theorem windowsUtf8Sequence_cons (lead : UInt8) (following : Bytes) :
    windowsUtf8Sequence (lead :: following) 0 =
      if leadLength lead.toNat < 0 then -1
      else if continuationLoop lead.toNat (leadLength lead.toNat) 1 following then -1
      else if (following.length : Int) + 1 < leadLength lead.toNat then 0
      else leadLength lead.toNat := by
  simp [windowsUtf8Sequence]

theorem leadLength_eq {lead : Nat} :
    (lead < 0x80 → leadLength lead = 1) ∧ (0xc2 ≤ lead ∧ lead ≤ 0xdf → leadLength lead = 2) ∧
      (0xe0 ≤ lead ∧ lead ≤ 0xef → leadLength lead = 3) ∧
      (0xf0 ≤ lead ∧ lead ≤ 0xf4 → leadLength lead = 4) := by
  unfold leadLength
  refine ⟨?_, ?_, ?_, ?_⟩
  · intro h
    rw [if_pos h]
  · intro h
    rw [if_neg (by omega), if_pos h]
  · intro h
    rw [if_neg (by omega), if_neg (by omega), if_pos h]
  · intro h
    rw [if_neg (by omega), if_neg (by omega), if_neg (by omega), if_pos h]

/-- The ranges behind the lengths. -/
theorem leadLength_cases (lead : Nat) :
    lead < 0x80 ∧ leadLength lead = 1 ∨ (0xc2 ≤ lead ∧ lead ≤ 0xdf) ∧ leadLength lead = 2 ∨
      (0xe0 ≤ lead ∧ lead ≤ 0xef) ∧ leadLength lead = 3 ∨ (0xf0 ≤ lead ∧ lead ≤ 0xf4) ∧
      leadLength lead = 4 ∨
      leadLength lead = -1 := by
  unfold leadLength
  split
  · exact .inl ⟨‹_›, rfl⟩
  · split
    · exact .inr (.inl ⟨‹_›, rfl⟩)
    · split
      · exact .inr (.inr (.inl ⟨‹_›, rfl⟩))
      · split
        · exact .inr (.inr (.inr (.inl ⟨‹_›, rfl⟩)))
        · exact .inr (.inr (.inr (.inr rfl)))

theorem continuationLoop_cons {lead i : Nat} {length : Int} (h : i < length) (next : UInt8)
    (following : Bytes) :
    continuationLoop lead length i (next :: following) =
      (badContinuation lead i next.toNat || continuationLoop lead length (i + 1) following) :=
  if_pos h

theorem continuationLoop_end {lead i : Nat} {length : Int} (h : length ≤ i) (following : Bytes) :
    continuationLoop lead length i following = false := by
  cases following with
  | nil => rfl
  | cons next following => exact if_neg (by omega)

/-- Which bytes may stand first behind the lead byte. -/
theorem badContinuation_first {lead : Nat} {next : UInt8} :
    badContinuation lead 1 next.toNat = false ↔
      Tail next ∧ (lead = 0xe0 → 0xa0 ≤ next.toNat) ∧ (lead = 0xed → next.toNat ≤ 0x9f) ∧
        (lead = 0xf0 → 0x90 ≤ next.toNat) ∧ (lead = 0xf4 → next.toNat ≤ 0x8f) := by
  simp only [badContinuation, Tail, Bool.or_eq_false_iff, Bool.and_eq_false_iff,
    decide_eq_false_iff_not, beq_eq_false_iff_ne, beq_self_eq_true, not_lt, Bool.true_and, ne_eq,
    ← imp_iff_not_or, and_assoc]

theorem badContinuation_later {lead i : Nat} {next : UInt8} (hi : i ≠ 1) :
    badContinuation lead i next.toNat = false ↔ Tail next := by
  simp [badContinuation, Tail, hi]

/-- The loop reads from the front. -/
theorem continuationLoop_front {lead i : Nat} {length : Int} {front back : Bytes}
    (h : continuationLoop lead length i (front ++ back) = false) :
    continuationLoop lead length i front = false := by
  induction front generalizing i with
  | nil => rfl
  | cons next front ih =>
    by_cases hi : i < length
    · rw [List.cons_append, continuationLoop_cons hi, Bool.or_eq_false_iff] at h
      rw [continuationLoop_cons hi, Bool.or_eq_false_iff]
      exact ⟨h.1, ih h.2⟩
    · exact continuationLoop_end (by omega) _

/-- The lead byte of a sequence announces it, and the bytes behind it are good ones. -/
theorem Sequence.lead {w : Bytes} (h : Sequence w) :
    ∃ a t, w = a :: t ∧ leadLength a.toNat = t.length + 1 ∧
      ∀ rest, continuationLoop a.toNat (t.length + 1) 1 (t ++ rest) = false := by
  cases h with
  | @one a ha =>
    exact ⟨a, [], rfl, leadLength_eq.1 ha, fun rest => continuationLoop_end (by simp) rest⟩
  | @two a b ha hb =>
    refine ⟨a, [b], rfl, leadLength_eq.2.1 ha, ?_⟩
    intro rest
    have hfirst : badContinuation a.toNat 1 b.toNat = false :=
      badContinuation_first.mpr ⟨hb, by omega, by omega, by omega, by omega⟩
    rw [List.cons_append, continuationLoop_cons (by simp), hfirst, Bool.false_or]
    exact continuationLoop_end (by simp) rest
  | @three a b c ha hb hc hlow hhigh =>
    refine ⟨a, [b, c], rfl, leadLength_eq.2.2.1 ha, ?_⟩
    intro rest
    have hfirst : badContinuation a.toNat 1 b.toNat = false :=
      badContinuation_first.mpr ⟨hb, hlow, hhigh, by omega, by omega⟩
    have hsecond : badContinuation a.toNat 2 c.toNat = false :=
      (badContinuation_later (by decide)).mpr hc
    rw [List.cons_append, continuationLoop_cons (by simp), hfirst, Bool.false_or, List.cons_append,
      continuationLoop_cons (by simp), hsecond, Bool.false_or]
    exact continuationLoop_end (by simp) rest
  | @four a b c d ha hb hc hd hlow hhigh =>
    refine ⟨a, [b, c, d], rfl, leadLength_eq.2.2.2 ha, ?_⟩
    intro rest
    have hfirst : badContinuation a.toNat 1 b.toNat = false :=
      badContinuation_first.mpr ⟨hb, by omega, by omega, hlow, hhigh⟩
    have hsecond : badContinuation a.toNat 2 c.toNat = false :=
      (badContinuation_later (by decide)).mpr hc
    have hthird : badContinuation a.toNat 3 d.toNat = false :=
      (badContinuation_later (by decide)).mpr hd
    rw [List.cons_append, continuationLoop_cons (by simp), hfirst, Bool.false_or, List.cons_append,
      continuationLoop_cons (by simp), hsecond, Bool.false_or, List.cons_append,
      continuationLoop_cons (by simp), hthird, Bool.false_or]
    exact continuationLoop_end (by simp) rest

theorem Sequence.found {w : Bytes} (h : Sequence w) (rest : Bytes) :
    windowsUtf8Sequence (w ++ rest) 0 = w.length := by
  obtain ⟨a, t, rfl, hlength, hloop⟩ := h.lead
  rw [List.cons_append, windowsUtf8Sequence_cons, hlength, if_neg (by omega), hloop]
  simp

/-- The start of a sequence is an incomplete one. -/
theorem Sequence.cut {w : Bytes} (h : Sequence w) {k : Nat} (hpos : 0 < k) (hlt : k < w.length) :
    windowsUtf8Sequence (w.take k) 0 = 0 := by
  obtain ⟨a, t, rfl, hlength, hloop⟩ := h.lead
  obtain ⟨k, rfl⟩ := Nat.exists_eq_succ_of_ne_zero hpos.ne'
  have hfront : continuationLoop a.toNat (t.length + 1) 1 (t.take k) = false := by
    have hwhole : continuationLoop a.toNat (t.length + 1) 1 (t.take k ++ t.drop k) = false := by
      rw [List.take_append_drop, ← List.append_nil t]
      simpa using hloop []
    exact continuationLoop_front hwhole
  have hshort : ((t.take k).length : Int) + 1 < t.length + 1 := by
    simp only [List.length_cons] at hlt
    rw [List.length_take]
    omega
  rw [List.take_succ_cons, windowsUtf8Sequence_cons, hlength, if_neg (by omega), hfront,
    if_neg (by simp), if_pos hshort]

/-- A positive length is the length of a sequence that stands there. -/
theorem sequence_of_pos {v : Bytes} (h : 0 < windowsUtf8Sequence v 0) :
    ∃ w, Sequence w ∧ w <+: v ∧ (w.length : Int) = windowsUtf8Sequence v 0 := by
  cases v with
  | nil => simp [windowsUtf8Sequence] at h
  | cons a following =>
    rw [windowsUtf8Sequence_cons] at h ⊢
    split at h
    · omega
    · split at h
      · omega
      · next hloop =>
        split at h
        · omega
        · next hneg hroom =>
          rw [Bool.not_eq_true] at hloop
          rw [if_neg hneg, hloop, if_neg (by simp), if_neg hroom]
          rcases leadLength_cases a.toNat with ⟨ha, hl⟩ | ⟨ha, hl⟩ | ⟨ha, hl⟩ | ⟨ha, hl⟩ | hl
          · exact ⟨[a], .one ha, ⟨following, rfl⟩, by rw [hl]; rfl⟩
          · rw [hl] at hloop hroom
            match following with
            | [] => simp at hroom
            | b :: following =>
              rw [continuationLoop_cons (by simp), Bool.or_eq_false_iff] at hloop
              exact ⟨[a, b], .two ha (badContinuation_first.mp hloop.1).1,
                ⟨following, rfl⟩, by rw [hl]; rfl⟩
          · rw [hl] at hloop hroom
            match following with
            | [] => simp at hroom
            | [b] => simp at hroom
            | b :: c :: following =>
              rw [continuationLoop_cons (by simp), Bool.or_eq_false_iff,
                continuationLoop_cons (by simp), Bool.or_eq_false_iff] at hloop
              obtain ⟨hb, hc, -⟩ := hloop
              obtain ⟨hb, hlow, hhigh, -, -⟩ := badContinuation_first.mp hb
              have hc := (badContinuation_later (by decide)).mp hc
              exact ⟨[a, b, c], .three ha hb hc hlow hhigh, ⟨following, rfl⟩, by rw [hl]; rfl⟩
          · rw [hl] at hloop hroom
            match following with
            | [] => simp at hroom
            | [b] => simp at hroom
            | [b, c] => simp at hroom
            | b :: c :: d :: following =>
              rw [continuationLoop_cons (by simp), Bool.or_eq_false_iff,
                continuationLoop_cons (by simp), Bool.or_eq_false_iff,
                continuationLoop_cons (by simp), Bool.or_eq_false_iff] at hloop
              obtain ⟨hb, hc, hd, -⟩ := hloop
              obtain ⟨hb, -, -, hlow, hhigh⟩ := badContinuation_first.mp hb
              have hc := (badContinuation_later (by decide)).mp hc
              have hd := (badContinuation_later (by decide)).mp hd
              exact ⟨[a, b, c, d], .four ha hb hc hd hlow hhigh, ⟨following, rfl⟩, by rw [hl]; rfl⟩
          · omega

/-- The return value as the source comments it. -/
def sequenceVerdict (v : Bytes) : Verdict :=
  if 0 < windowsUtf8Sequence v 0 then .complete (windowsUtf8Sequence v 0).toNat
  else if windowsUtf8Sequence v 0 = 0 then .incomplete
  else .invalid

theorem utf8EncodeChar_injective : Function.Injective String.utf8EncodeChar := by
  intro c d h
  have hc := ByteArray.utf8DecodeChar?_utf8EncodeChar_append (b := ByteArray.empty) (c := c)
  rw [h, ByteArray.utf8DecodeChar?_utf8EncodeChar_append] at hc
  exact (Option.some.inj hc).symm

theorem utf8Recognises : Recognises String.utf8EncodeChar sequenceVerdict where
  injective := utf8EncodeChar_injective
  nonempty := fun _ => String.utf8EncodeChar_ne_nil
  complete := by
    intro c rest
    have hfound := (sequence_utf8EncodeChar c).found rest
    have hpos : 0 < (String.utf8EncodeChar c).length :=
      List.length_pos_of_ne_nil String.utf8EncodeChar_ne_nil
    rw [sequenceVerdict, hfound, if_pos (by omega), Int.toNat_natCast]
  incomplete := by
    intro c k hpos hlt
    rw [sequenceVerdict, (sequence_utf8EncodeChar c).cut hpos hlt, if_neg (by omega), if_pos rfl]
  sound := by
    intro v n hread
    unfold sequenceVerdict at hread
    split at hread
    · next hpos =>
      obtain ⟨w, hw, hfront, hlength⟩ := sequence_of_pos hpos
      obtain ⟨c, rfl⟩ := hw.exists_char
      cases hread
      exact ⟨c, hfront, by omega⟩
    · split at hread
      · cases hread
      · cases hread

/-! ### The validator scans -/

abbrev utf8 (l : List Char) : Bytes := encode String.utf8EncodeChar l

theorem utf8_cons (c : Char) (l : List Char) : utf8 (c :: l) = String.utf8EncodeChar c ++ utf8 l :=
  rfl

theorem utf8_append (l m : List Char) : utf8 (l ++ m) = utf8 l ++ utf8 m := encode_append _ l m

abbrev Utf8Scans : Bytes → List Char → Stop → Prop := Scans String.utf8EncodeChar sequenceVerdict

theorem sequenceVerdict_incomplete {v : Bytes} (h : sequenceVerdict v = .incomplete) :
    windowsUtf8Sequence v 0 = 0 := by
  unfold sequenceVerdict at h
  split at h
  · cases h
  · split at h
    · assumption
    · cases h

theorem sequenceVerdict_invalid {v : Bytes} (h : sequenceVerdict v = .invalid) :
    windowsUtf8Sequence v 0 < 0 := by
  unfold sequenceVerdict at h
  split at h
  · cases h
  · split at h
    · cases h
    · omega

/-- What the validator answers for a scan that stopped so. -/
def Stop.accepted (s : Stop) (allowIncompleteTail : Bool) : Bool :=
  match s with
  | .ended => true
  | .incomplete => allowIncompleteTail
  | .invalid => false

/-- An offset into a value at which something is left. -/
theorem offset_lt {value v : Bytes} {offset : Nat} (hv : value.drop offset = v) (hne : v ≠ []) :
    offset < value.length := by
  by_contra hle
  exact hne (hv ▸ List.drop_eq_nil_of_le (by omega))

theorem validateLoop_eq {value v : Bytes} {l : List Char} {s : Stop} (h : Utf8Scans v l s)
    (allow : Bool) {offset : Nat} (hv : value.drop offset = v) :
    validateLoop value allow offset = (Stop.accepted s allow, offset + (utf8 l).length) := by
  induction h generalizing offset with
  | ended =>
    have hend : value.length ≤ offset := List.drop_eq_nil_iff.mp hv
    rw [validateLoop, if_neg (by omega)]
    rfl
  | incomplete hne hread =>
    have hzero := sequenceVerdict_incomplete hread
    rw [validateLoop, if_pos (offset_lt hv hne), windowsUtf8Sequence_drop, hv, hzero, if_pos le_rfl]
    rfl
  | invalid hne hread =>
    have hneg := sequenceVerdict_invalid hread
    have hnonzero : (windowsUtf8Sequence (value.drop offset) 0 == 0) = false := by
      rw [hv, beq_eq_false_iff_ne]
      omega
    rw [validateLoop, if_pos (offset_lt hv hne), windowsUtf8Sequence_drop, hnonzero, hv,
      if_pos hneg.le]
    rfl
  | @complete c rest l s h ih =>
    have hne : String.utf8EncodeChar c ++ rest ≠ [] := by simp
    have hfound := (sequence_utf8EncodeChar c).found rest
    have hpos : 0 < (String.utf8EncodeChar c).length :=
      List.length_pos_of_ne_nil String.utf8EncodeChar_ne_nil
    have hrest : value.drop (offset + (String.utf8EncodeChar c).length) = rest := by
      rw [← List.drop_drop, hv, List.drop_left]
    rw [validateLoop, if_pos (offset_lt hv hne), windowsUtf8Sequence_drop, hv, hfound,
      if_neg (by omega), Int.toNat_natCast, ih hrest, utf8_cons, List.length_append, Nat.add_assoc]

/-- **The validator scans its value.** -/
theorem windowsValidateUtf8_eq {v : Bytes} {l : List Char} {s : Stop} (h : Utf8Scans v l s)
    (allow : Bool) :
    windowsValidateUtf8 v allow = (Stop.accepted s allow, (utf8 l).length) := by
  rw [windowsValidateUtf8, validateLoop_eq h allow List.drop_zero, Nat.zero_add]

/-- The bounded length is the length of the part in front that fits. -/
theorem boundedLoop_eq {value v : Bytes} {l p : List Char} {s : Stop} (h : Utf8Scans v l s)
    {limit offset : Nat} (hv : value.drop offset = v)
    (hp : Whole String.utf8EncodeChar (limit - offset) l p) :
    boundedLoop value limit offset = offset + (utf8 p).length := by
  induction h generalizing offset p with
  | ended =>
    have hend : value.length ≤ offset := List.drop_eq_nil_iff.mp hv
    obtain rfl := List.prefix_nil.mp hp.front
    rw [boundedLoop, if_neg (by omega)]
    rfl
  | incomplete hne hread =>
    have hzero := sequenceVerdict_incomplete hread
    obtain rfl := List.prefix_nil.mp hp.front
    rw [boundedLoop, windowsUtf8Sequence_drop, hv, hzero]
    simp
  | invalid hne hread =>
    have hneg := sequenceVerdict_invalid hread
    obtain rfl := List.prefix_nil.mp hp.front
    rw [boundedLoop, windowsUtf8Sequence_drop, hv]
    simp [hneg.le]
  | @complete c rest l s h ih =>
    have hne : String.utf8EncodeChar c ++ rest ≠ [] := by simp
    have hlt := offset_lt hv hne
    have hfound := (sequence_utf8EncodeChar c).found rest
    have hpos : 0 < (String.utf8EncodeChar c).length :=
      List.length_pos_of_ne_nil String.utf8EncodeChar_ne_nil
    have hrest : value.drop (offset + (String.utf8EncodeChar c).length) = rest := by
      rw [← List.drop_drop, hv, List.drop_left]
    rw [boundedLoop, windowsUtf8Sequence_drop, hv, hfound, Int.toNat_natCast]
    by_cases hfits : (String.utf8EncodeChar c).length ≤ limit - offset
    · obtain ⟨q, hq⟩ :=
        whole_exists String.utf8EncodeChar (limit - (offset + (String.utf8EncodeChar c).length)) l
      have hcons : Whole String.utf8EncodeChar (limit - offset) (c :: l) (c :: q) :=
        Whole.cons hfits (by rwa [Nat.sub_sub])
      rw [hp.unique hcons, if_pos ⟨hlt, by omega⟩, if_neg (by omega), ih hrest hq, utf8_cons,
        List.length_append, Nat.add_assoc]
    · rw [hp.unique (whole_short (by omega))]
      by_cases hroom : offset < limit
      · rw [if_pos ⟨hlt, hroom⟩, if_pos (.inr (by omega))]
        rfl
      · rw [if_neg (by omega)]
        rfl

/-- **The bounded length keeps the characters that fit**, of the valid part of the value. -/
theorem windowsUtf8BoundedLength_eq {v : Bytes} {l p : List Char} {s : Stop} (h : Utf8Scans v l s)
    {limit : Nat} (hp : Whole String.utf8EncodeChar limit l p) :
    windowsUtf8BoundedLength v limit = (utf8 p).length := by
  rw [windowsUtf8BoundedLength, boundedLoop_eq h List.drop_zero hp, Nat.zero_add]

end VlanConnect.WindowsNetwork

/-
  VlanConnect/Windows/LogValue.lean
  =================================
  **What a logged value can contain** (`common/windows_network_config.h`).

  Aliases, rule names and the text of a failed command come from outside and
  end up between the quotes of one log line.  `windowsLogValue` cuts a valid
  text at a character, writes an invalid one in hexadecimal, and then rewrites
  control characters and quotes byte by byte.  The bytes of a character above
  ASCII are all above ASCII, so rewriting the bytes is rewriting the characters
  (`map_logByte_utf8`).
-/
import VlanConnect.Windows.CommandOutput
import Mathlib.Data.List.Forall2

namespace VlanConnect.WindowsNetwork

open PrefixCode

/-! ### The function of the source -/

/-- The body of the loop over the value. -/
def logByte (b : UInt8) : UInt8 :=
  if b = 13 ∨ b = 10 ∨ b = 9 then 32
  else if b = 34 then 39
  else if b.toNat < 32 then 63
  else b

def windowsLogValue (value : Bytes) : Bytes :=
  let (value, truncated) :=
    match windowsValidateUtf8 value false with
    | (false, _) => windowsEscapeOutput value 2048
    | (true, _) => (value.take (windowsUtf8BoundedLength value 2048), decide (value.length > 2048))
  let value := if truncated then value ++ ascii " [truncated]" else value
  value.map logByte

/-! ### Rewriting characters -/

/-- The loop, as a function of the character. -/
def logChar (c : Char) : Char :=
  if c.toNat < 0x80 then Char.ofNat (logByte (UInt8.ofNat c.toNat)).toNat else c

theorem logByte_printed (b : UInt8) : 32 ≤ (logByte b).toNat ∧ logByte b ≠ 34 := by
  unfold logByte
  split
  · exact ⟨by decide, by decide⟩
  · split
    · exact ⟨by decide, by decide⟩
    · next hquote =>
      split
      · exact ⟨by decide, by decide⟩
      · exact ⟨by omega, hquote⟩

theorem logByte_ascii {b : UInt8} (h : b.toNat < 0x80) : (logByte b).toNat < 0x80 := by
  unfold logByte
  split
  · decide
  · split
    · decide
    · split
      · decide
      · exact h

/-- Only control characters and quotes are rewritten. -/
theorem logByte_eq {b : UInt8} (hcontrol : 32 ≤ b.toNat) (hquote : b ≠ 34) : logByte b = b := by
  have hspace : ¬ (b = 13 ∨ b = 10 ∨ b = 9) := by
    rintro (rfl | rfl | rfl)
    · exact absurd hcontrol (by decide)
    · exact absurd hcontrol (by decide)
    · exact absurd hcontrol (by decide)
  rw [logByte, if_neg hspace, if_neg hquote, if_neg (by omega)]

/-- The encoding of an ASCII character is its byte. -/
theorem utf8EncodeChar_ascii {c : Char} (h : c.toNat < 0x80) :
    String.utf8EncodeChar c = [UInt8.ofNat c.toNat] := by
  rw [utf8EncodeChar_eq, if_pos (by omega)]

/-- The other characters have no byte of ASCII. -/
theorem above_of_utf8EncodeChar {c : Char} (h : ¬ c.toNat < 0x80) {b : UInt8}
    (hb : b ∈ String.utf8EncodeChar c) :
    0x80 ≤ b.toNat := by
  have hvalid := toNat_valid c
  have hmark : ∀ {x : Nat}, 0x80 ≤ x → x < 256 → 0x80 ≤ (UInt8.ofNat x).toNat := by
    intro x hx hlt
    rw [UInt8.toNat_ofNat_of_lt' hlt]
    exact hx
  rw [utf8EncodeChar_eq, if_neg (by omega)] at hb
  split at hb
  · simp only [List.mem_cons, List.not_mem_nil, or_false] at hb
    rcases hb with rfl | rfl
    · exact hmark (by omega) (by omega)
    · exact hmark (by omega) (by omega)
  · split at hb
    · simp only [List.mem_cons, List.not_mem_nil, or_false] at hb
      rcases hb with rfl | rfl | rfl
      · exact hmark (by omega) (by omega)
      · exact hmark (by omega) (by omega)
      · exact hmark (by omega) (by omega)
    · simp only [List.mem_cons, List.not_mem_nil, or_false] at hb
      rcases hb with rfl | rfl | rfl | rfl
      · exact hmark (by omega) (by omega)
      · exact hmark (by omega) (by omega)
      · exact hmark (by omega) (by omega)
      · exact hmark (by omega) (by omega)

theorem map_logByte_utf8EncodeChar (c : Char) :
    (String.utf8EncodeChar c).map logByte = String.utf8EncodeChar (logChar c) := by
  unfold logChar
  by_cases hascii : c.toNat < 0x80
  · have hbyte : (UInt8.ofNat c.toNat).toNat < 0x80 := by
      rw [UInt8.toNat_ofNat_of_lt' (hascii.trans (by decide))]
      exact hascii
    have hnew := logByte_ascii hbyte
    have hchar : (Char.ofNat (logByte (UInt8.ofNat c.toNat)).toNat).toNat =
        (logByte (UInt8.ofNat c.toNat)).toNat :=
      toNat_charOfNat (by omega)
    rw [if_pos hascii, utf8EncodeChar_ascii hascii, utf8EncodeChar_ascii (by omega), hchar,
      UInt8.ofNat_toNat]
    rfl
  · rw [if_neg hascii]
    have hsame : ∀ b ∈ String.utf8EncodeChar c, logByte b = b := by
      intro b hb
      have habove := above_of_utf8EncodeChar hascii hb
      apply logByte_eq (by omega)
      rintro rfl
      exact absurd habove (by decide)
    rw [List.map_congr_left hsame, List.map_id']

/-- **Rewriting the bytes rewrites the characters.** -/
theorem map_logByte_utf8 (l : List Char) : (utf8 l).map logByte = utf8 (l.map logChar) := by
  induction l with
  | nil => rfl
  | cons c l ih =>
    rw [utf8_cons, List.map_append, map_logByte_utf8EncodeChar, ih, List.map_cons, utf8_cons]

theorem logChar_eq {c : Char} (hcontrol : 32 ≤ c.toNat) (hquote : c ≠ Char.ofNat 34) :
    logChar c = c := by
  unfold logChar
  split
  · next hascii =>
    have hbyte : (UInt8.ofNat c.toNat).toNat = c.toNat :=
      UInt8.toNat_ofNat_of_lt' (hascii.trans (by decide))
    have hne : UInt8.ofNat c.toNat ≠ 34 := by
      intro heq
      apply hquote
      rw [← Char.ofNat_toNat c, ← hbyte, heq]
      rfl
    rw [logByte_eq (by omega) hne, hbyte, Char.ofNat_toNat]
  · rfl

/-! ### The value -/

/-- The value before the loop: a UTF-8 text that fits, with the mark of a cut. -/
theorem windowsLogValue_eq (value : Bytes) :
    ∃ l, windowsLogValue value = utf8 (l.map logChar) ∧ (utf8 l).length ≤ 2048 + 12 ∧
      ((windowsValidateUtf8 value false).1 = true → value.length ≤ 2048 → utf8 l = value) := by
  have hmark : ∃ m, ascii " [truncated]" = utf8 m := exists_utf8_of_ascii (by decide +kernel)
  obtain ⟨m, hm⟩ := hmark
  have hlength : (utf8 m).length = 12 := by
    rw [← hm]
    rfl
  -- The mark is appended to a text of at most 2048 bytes.
  have hmarked : ∀ (l : List Char) (truncated : Bool), (utf8 l).length ≤ 2048 →
      ∃ l', (if truncated then utf8 l ++ ascii " [truncated]" else utf8 l) = utf8 l' ∧
      (utf8 l').length ≤ 2048 + 12 := by
    intro l truncated hl
    cases truncated with
    | false => exact ⟨l, rfl, by omega⟩
    | true =>
      have hjoined : utf8 l ++ ascii " [truncated]" = utf8 (l ++ m) := by rw [hm, utf8_append]
      refine ⟨l ++ m, hjoined, ?_⟩
      rw [← hjoined, hm, List.length_append]
      omega
  unfold windowsLogValue
  obtain ⟨l, s, hscan⟩ := utf8Recognises.scans_exists value
  rw [windowsValidateUtf8_eq hscan]
  cases haccepted : Stop.accepted s false with
  | false =>
    obtain ⟨e, he⟩ := windowsEscapeOutput_utf8 value 2048
    have hfits := (windowsEscapeOutput_printable value 2048).2
    obtain ⟨l', hl', hle⟩ := hmarked e (windowsEscapeOutput value 2048).2 (he ▸ hfits)
    refine ⟨l', ?_, hle, fun h => absurd h Bool.false_ne_true⟩
    dsimp only
    rw [he, hl', map_logByte_utf8]
  | true =>
    have hended : s = .ended := by
      cases s with
      | ended => rfl
      | incomplete => cases haccepted
      | invalid => cases haccepted
    obtain ⟨tail, hvalue, htail, -⟩ := hscan.split
    rw [htail.mp hended, List.append_nil] at hvalue
    obtain ⟨p, hp⟩ := whole_exists String.utf8EncodeChar 2048 l
    have htake : value.take (windowsUtf8BoundedLength value 2048) = utf8 p := by
      obtain ⟨rest, hrest⟩ := hp.front
      rw [windowsUtf8BoundedLength_eq hscan hp, hvalue, ← hrest, encode_append, List.take_left]
    obtain ⟨l', hl', hle⟩ := hmarked p (decide (value.length > 2048)) hp.fits
    refine ⟨l', ?_, hle, ?_⟩
    · dsimp only
      rw [htake, hl', map_logByte_utf8]
    · intro _ hshort
      have hnot : decide (value.length > 2048) = false := decide_eq_false (by omega)
      have hall : l <+: p := hp.longest l (List.prefix_refl l) (hvalue ▸ hshort)
      have hsame : p = l := hp.front.eq_of_length_le hall.length_le
      rw [hnot, if_neg Bool.false_ne_true] at hl'
      rw [← hl', hsame, hvalue]

/-- **A logged value stays inside of its quotes**: well-formed UTF-8 of at most
    2060 bytes, without a control character or a double quote; and a short text
    is changed in such characters only. -/
theorem windowsLogValue_safe (value : Bytes) :
    (∃ l, windowsLogValue value = utf8 l) ∧ (windowsLogValue value).length ≤ 2048 + 12 ∧
      (∀ b ∈ windowsLogValue value, 0x20 ≤ b.toNat ∧ b ≠ 0x22) ∧
      ∀ l, value = utf8 l → value.length ≤ 2048 → ∃ l', windowsLogValue value = utf8 l' ∧
        List.Forall₂ (fun c c' => c' = c ∨ c.toNat < 0x20 ∨ c = Char.ofNat 0x22) l l' := by
  obtain ⟨l, hl, hle, hsame⟩ := windowsLogValue_eq value
  have hlength : (windowsLogValue value).length ≤ 2048 + 12 := by
    rw [hl, ← map_logByte_utf8, List.length_map]
    exact hle
  refine ⟨⟨_, hl⟩, hlength, ?_, ?_⟩
  · intro b hb
    rw [hl, ← map_logByte_utf8] at hb
    obtain ⟨a, -, rfl⟩ := List.mem_map.mp hb
    exact logByte_printed a
  · rintro m rfl hshort
    have hvalid : (windowsValidateUtf8 (utf8 m) false).1 = true :=
      (windowsValidateUtf8_iff _).mpr ⟨m, rfl⟩
    have hm : l = m := utf8Recognises.encode_injective (hsame hvalid hshort)
    refine ⟨m.map logChar, hm ▸ hl, ?_⟩
    rw [List.forall₂_map_right_iff, List.forall₂_same]
    intro c _
    by_cases hcontrol : c.toNat < 0x20
    · exact .inr (.inl hcontrol)
    · by_cases hquote : c = Char.ofNat 0x22
      · exact .inr (.inr hquote)
      · exact .inl (logChar_eq (by omega) hquote)

end VlanConnect.WindowsNetwork

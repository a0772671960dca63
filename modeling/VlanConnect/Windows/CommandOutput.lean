/-
  VlanConnect/Windows/CommandOutput.lean
  ======================================
  **The text of a network command** (`common/windows_network_config.h`).

  The output of `netsh` is captured up to a limit, so it can end inside of a
  character, and its encoding is only known from its first bytes.
  `decodeWindowsCommandOutput` takes it as UTF-16 when it starts with a byte
  order mark, else as UTF-8, else in the code pages of the system, and shows
  the bytes in hexadecimal when all of these fail.

  Both decoders scan a prefix code (`utf8Recognises`, `utf16Recognises`), so
  what they do with a text cut anywhere is one theorem about such scans
  (`decoding_of_cut_text`); whatever the bytes are, the output is UTF-8
  (`decodeWindowsCommandOutput_utf8`).
-/
import VlanConnect.Windows.Utf8

namespace VlanConnect.WindowsNetwork

open PrefixCode

/-! ### The functions of the source -/

def utf16Unit (bigEndian : Bool) (a b : UInt8) : Nat :=
  if bigEndian then a.toNat <<< 8 ||| b.toNat else a.toNat ||| b.toNat <<< 8

/-- The loop of `windowsDecodeUtf16`: the result and `output`. -/
def decodeUtf16Loop (bytes : Bytes) (bigEndian allowIncompleteTail : Bool) (offset : Nat)
    (output : Bytes) :
    Bool × Bytes :=
  if offset + 1 < bytes.length then
    let scalar := utf16Unit bigEndian (bytes.getD offset 0) (bytes.getD (offset + 1) 0)
    if scalar ≥ 0xd800 ∧ scalar ≤ 0xdbff then
      if offset + 2 + 1 ≥ bytes.length then (allowIncompleteTail, output)
      else
        let low := utf16Unit bigEndian (bytes.getD (offset + 2) 0) (bytes.getD (offset + 3) 0)
        if low < 0xdc00 ∨ low > 0xdfff then (false, output)
        else
          decodeUtf16Loop bytes bigEndian allowIncompleteTail (offset + 4)
            (windowsAppendUtf8 output (0x10000 + ((scalar - 0xd800) <<< 10) + low - 0xdc00))
    else if scalar ≥ 0xdc00 ∧ scalar ≤ 0xdfff then (false, output)
    else decodeUtf16Loop bytes bigEndian allowIncompleteTail (offset + 2)
      (windowsAppendUtf8 output scalar)
  else (offset == bytes.length || allowIncompleteTail, output)
termination_by bytes.length - offset
decreasing_by all_goals omega

/-- The two bytes of the byte order mark are skipped unread. -/
def windowsDecodeUtf16 (bytes : Bytes) (bigEndian allowIncompleteTail : Bool) : Bool × Bytes :=
  decodeUtf16Loop bytes bigEndian allowIncompleteTail 2 []

/-! ### UTF-16 -/

def High (u : Nat) : Prop := 0xd800 ≤ u ∧ u ≤ 0xdbff
def Low (u : Nat) : Prop := 0xdc00 ≤ u ∧ u ≤ 0xdfff

instance (u : Nat) : Decidable (High u) := inferInstanceAs (Decidable (_ ∧ _))
instance (u : Nat) : Decidable (Low u) := inferInstanceAs (Decidable (_ ∧ _))

/-- The code units of a scalar value: one, or a pair of surrogates. -/
def utf16Units (c : Char) : List Nat :=
  if c.toNat < 0x10000 then [c.toNat]
  else [0xd800 + (c.toNat - 0x10000) / 0x400, 0xdc00 + (c.toNat - 0x10000) % 0x400]

def unitBytes (bigEndian : Bool) (u : Nat) : Bytes :=
  if bigEndian then [UInt8.ofNat (u / 256), UInt8.ofNat (u % 256)]
  else [UInt8.ofNat (u % 256), UInt8.ofNat (u / 256)]

def utf16EncodeChar (bigEndian : Bool) (c : Char) : Bytes :=
  (utf16Units c).flatMap (unitBytes bigEndian)

abbrev utf16 (bigEndian : Bool) (l : List Char) : Bytes := encode (utf16EncodeChar bigEndian) l

/-- What the front of a UTF-16 text is. -/
def unitVerdict (bigEndian : Bool) : Bytes → Verdict
  | a :: b :: rest =>
    if High (utf16Unit bigEndian a b) then
      match rest with
      | c :: d :: _ => if Low (utf16Unit bigEndian c d) then .complete 4 else .invalid
      | _ => .incomplete
    else if Low (utf16Unit bigEndian a b) then .invalid
    else .complete 2
  | _ => .incomplete

theorem unitVerdict_cons (bigEndian : Bool) (a b : UInt8) (rest : Bytes) :
    unitVerdict bigEndian (a :: b :: rest) =
      if High (utf16Unit bigEndian a b) then
        match rest with
        | c :: d :: _ => if Low (utf16Unit bigEndian c d) then .complete 4 else .invalid
        | _ => .incomplete
      else if Low (utf16Unit bigEndian a b) then .invalid
      else .complete 2 := rfl

theorem utf16Unit_eq (bigEndian : Bool) (a b : UInt8) :
    utf16Unit bigEndian a b = if bigEndian then a.toNat * 256 + b.toNat
    else b.toNat * 256 + a.toNat := by
  have ha := a.toNat_lt
  have hb := b.toNat_lt
  cases bigEndian with
  | true =>
    have hor : 2 ^ 8 * a.toNat + b.toNat = 2 ^ 8 * a.toNat ||| b.toNat :=
      Nat.two_pow_add_eq_or_of_lt hb _
    simp only [utf16Unit, if_true, Nat.shiftLeft_eq]
    rw [Nat.mul_comm, ← hor]
  | false =>
    have hor : 2 ^ 8 * b.toNat + a.toNat = 2 ^ 8 * b.toNat ||| a.toNat :=
      Nat.two_pow_add_eq_or_of_lt ha _
    simp only [utf16Unit, Bool.false_eq_true, if_false, Nat.shiftLeft_eq]
    rw [Nat.or_comm, Nat.mul_comm, ← hor]

theorem utf16Unit_lt (bigEndian : Bool) (a b : UInt8) : utf16Unit bigEndian a b < 0x10000 := by
  have ha := a.toNat_lt
  have hb := b.toNat_lt
  rw [utf16Unit_eq]
  split
  · omega
  · omega

theorem unitBytes_utf16Unit (bigEndian : Bool) (a b : UInt8) :
    unitBytes bigEndian (utf16Unit bigEndian a b) = [a, b] := by
  have ha := a.toNat_lt
  have hb := b.toNat_lt
  rw [utf16Unit_eq, unitBytes]
  split
  · rw [ofNat_eq (a := a) (by omega), ofNat_eq (a := b) (by omega)]
  · rw [ofNat_eq (a := a) (by omega), ofNat_eq (a := b) (by omega)]

/-- The two bytes of a code unit, and the unit they make. -/
theorem unitBytes_cases (bigEndian : Bool) {u : Nat} (hu : u < 0x10000) :
    ∃ a b, unitBytes bigEndian u = [a, b] ∧ utf16Unit bigEndian a b = u := by
  cases bigEndian with
  | true =>
    refine ⟨UInt8.ofNat (u / 256), UInt8.ofNat (u % 256), rfl, ?_⟩
    rw [utf16Unit_eq]
    simp
    omega
  | false =>
    refine ⟨UInt8.ofNat (u % 256), UInt8.ofNat (u / 256), rfl, ?_⟩
    rw [utf16Unit_eq]
    simp
    omega

/-- The bytes of a scalar value: one unit that is no surrogate, or a pair. -/
theorem utf16EncodeChar_cases (bigEndian : Bool) (c : Char) :
    (∃ a b, utf16EncodeChar bigEndian c = [a, b] ∧ utf16Unit bigEndian a b = c.toNat ∧
      ¬ High c.toNat ∧ ¬ Low c.toNat) ∨
    ∃ a b d e, utf16EncodeChar bigEndian c = [a, b, d, e] ∧ High (utf16Unit bigEndian a b) ∧
      Low (utf16Unit bigEndian d e) ∧
      c.toNat = 0x10000 + ((utf16Unit bigEndian a b - 0xd800) <<< 10) + utf16Unit bigEndian d e -
      0xdc00 := by
  have hvalid := toNat_valid c
  unfold utf16EncodeChar utf16Units
  by_cases hsmall : c.toNat < 0x10000
  · left
    obtain ⟨a, b, hbytes, hunit⟩ := unitBytes_cases bigEndian hsmall
    refine ⟨a, b, ?_, hunit, ?_, ?_⟩
    · rw [if_pos hsmall]
      simp [hbytes]
    · unfold High
      omega
    · unfold Low
      omega
  · right
    obtain ⟨a, b, hbytes, hunit⟩ :=
      unitBytes_cases bigEndian (u := 0xd800 + (c.toNat - 0x10000) / 0x400) (by omega)
    obtain ⟨d, e, hbytes', hunit'⟩ :=
      unitBytes_cases bigEndian (u := 0xdc00 + (c.toNat - 0x10000) % 0x400) (by omega)
    refine ⟨a, b, d, e, ?_, ?_, ?_, ?_⟩
    · rw [if_neg hsmall]
      simp [hbytes, hbytes']
    · rw [hunit, High]
      omega
    · rw [hunit', Low]
      omega
    · rw [hunit, hunit', Nat.shiftLeft_eq]
      omega

theorem utf16EncodeChar_small {bigEndian : Bool} {a b : UInt8}
    (hhigh : ¬ High (utf16Unit bigEndian a b)) (hlow : ¬ Low (utf16Unit bigEndian a b)) :
    ∃ c : Char, utf16EncodeChar bigEndian c = [a, b] := by
  have hlt := utf16Unit_lt bigEndian a b
  unfold High at hhigh
  unfold Low at hlow
  refine ⟨Char.ofNat (utf16Unit bigEndian a b), ?_⟩
  rw [utf16EncodeChar, utf16Units, toNat_charOfNat (by omega), if_pos hlt]
  simp [unitBytes_utf16Unit]

theorem utf16EncodeChar_pair {bigEndian : Bool} {a b d e : UInt8}
    (hhigh : High (utf16Unit bigEndian a b)) (hlow : Low (utf16Unit bigEndian d e)) :
    ∃ c : Char, utf16EncodeChar bigEndian c = [a, b, d, e] := by
  obtain ⟨h₁, h₂⟩ := hhigh
  obtain ⟨h₃, h₄⟩ := hlow
  generalize hu : utf16Unit bigEndian a b = u at h₁ h₂
  generalize hv : utf16Unit bigEndian d e = v at h₃ h₄
  refine ⟨Char.ofNat (0x10000 + (u - 0xd800) * 0x400 + (v - 0xdc00)), ?_⟩
  have hfirst : 0xd800 + (0x10000 + (u - 0xd800) * 0x400 + (v - 0xdc00) - 0x10000) / 0x400 =
    u := by omega
  have hsecond : 0xdc00 + (0x10000 + (u - 0xd800) * 0x400 + (v - 0xdc00) - 0x10000) % 0x400 =
    v := by omega
  rw [utf16EncodeChar, utf16Units, toNat_charOfNat (by omega), if_neg (by omega), hfirst,
    hsecond, ← hu, ← hv]
  simp [unitBytes_utf16Unit]

theorem unitVerdict_pair {bigEndian : Bool} {a b d e : UInt8} (rest : Bytes)
    (hhigh : High (utf16Unit bigEndian a b)) (hlow : Low (utf16Unit bigEndian d e)) :
    unitVerdict bigEndian (a :: b :: d :: e :: rest) = .complete 4 := by
  rw [unitVerdict_cons, if_pos hhigh]
  exact if_pos hlow

theorem unitVerdict_single {bigEndian : Bool} {a b : UInt8} (rest : Bytes)
    (hhigh : ¬ High (utf16Unit bigEndian a b)) (hlow : ¬ Low (utf16Unit bigEndian a b)) :
    unitVerdict bigEndian (a :: b :: rest) = .complete 2 := by
  rw [unitVerdict_cons, if_neg hhigh, if_neg hlow]

theorem utf16EncodeChar_injective (bigEndian : Bool) :
    Function.Injective (utf16EncodeChar bigEndian) := by
  intro c c' h
  apply Char.toNat_inj.mp
  rcases utf16EncodeChar_cases bigEndian c with
    ⟨a, b, hc, hunit, -⟩ | ⟨a, b, d, e, hc, -, -, hunits⟩
  · rcases utf16EncodeChar_cases bigEndian c' with
      ⟨a', b', hc', hunit', -⟩ | ⟨a', b', d', e', hc', -⟩
    · rw [hc, hc'] at h
      simp only [List.cons.injEq] at h
      obtain ⟨rfl, rfl, -⟩ := h
      rw [← hunit, ← hunit']
    · rw [hc, hc'] at h
      simp at h
  · rcases utf16EncodeChar_cases bigEndian c' with
      ⟨a', b', hc', -⟩ | ⟨a', b', d', e', hc', -, -, hunits'⟩
    · rw [hc, hc'] at h
      simp at h
    · rw [hc, hc'] at h
      simp only [List.cons.injEq] at h
      obtain ⟨rfl, rfl, rfl, rfl, -⟩ := h
      rw [hunits, hunits']

theorem utf16Recognises (bigEndian : Bool) :
    Recognises (utf16EncodeChar bigEndian) (unitVerdict bigEndian) where
  injective := utf16EncodeChar_injective bigEndian
  nonempty := by
    intro c
    rcases utf16EncodeChar_cases bigEndian c with ⟨a, b, hc, -⟩ | ⟨a, b, d, e, hc, -⟩
    · simp [hc]
    · simp [hc]
  complete := by
    intro c rest
    rcases utf16EncodeChar_cases bigEndian c with
      ⟨a, b, hc, hunit, hhigh, hlow⟩ | ⟨a, b, d, e, hc, hhigh, hlow, -⟩
    · rw [hc]
      exact unitVerdict_single rest (hunit ▸ hhigh) (hunit ▸ hlow)
    · rw [hc]
      exact unitVerdict_pair rest hhigh hlow
  incomplete := by
    intro c k hpos hlt
    rcases utf16EncodeChar_cases bigEndian c with ⟨a, b, hc, -⟩ | ⟨a, b, d, e, hc, hhigh, -⟩
    · rw [hc] at hlt ⊢
      simp only [List.length_cons, List.length_nil] at hlt
      obtain rfl : k = 1 := by omega
      rfl
    · rw [hc] at hlt ⊢
      simp only [List.length_cons, List.length_nil] at hlt
      -- After the first unit the second one is awaited, be it halved.
      obtain rfl | rfl | rfl : k = 1 ∨ k = 2 ∨ k = 3 := by omega
      · rfl
      · exact if_pos hhigh
      · exact if_pos hhigh
  sound := by
    intro v n hread
    match v with
    | [] => cases hread
    | [a] => cases hread
    | a :: b :: rest =>
      rw [unitVerdict_cons] at hread
      split at hread
      · next hhigh =>
        match rest with
        | [] => cases hread
        | [d] => cases hread
        | d :: e :: rest =>
          dsimp only at hread
          split at hread
          · next hlow =>
            obtain ⟨c, hc⟩ := utf16EncodeChar_pair hhigh hlow
            cases hread
            exact ⟨c, ⟨rest, by rw [hc]; rfl⟩, by rw [hc]; rfl⟩
          · cases hread
      · next hhigh =>
        split at hread
        · cases hread
        · next hlow =>
          obtain ⟨c, hc⟩ := utf16EncodeChar_small hhigh hlow
          cases hread
          exact ⟨c, ⟨rest, by rw [hc]; rfl⟩, by rw [hc]; rfl⟩

/-! ### The decoder of UTF-16 scans -/

/-- The bytes at an offset. -/
theorem getD_of_drop {bytes : Bytes} {offset : Nat} {a : UInt8} {rest : Bytes}
    (h : bytes.drop offset = a :: rest) :
    bytes.getD offset 0 = a := by
  have hget : (bytes.drop offset)[0]? = some a := by rw [h]; rfl
  rw [List.getElem?_drop, Nat.add_zero] at hget
  rw [List.getD_eq_getElem?_getD, hget]
  rfl

theorem drop_succ_of_drop {bytes : Bytes} {offset : Nat} {a : UInt8} {rest : Bytes}
    (h : bytes.drop offset = a :: rest) :
    bytes.drop (offset + 1) = rest := by
  rw [← List.drop_drop, h]
  rfl

/-- One turn of the loop, by what is left of the bytes. -/
theorem decodeUtf16Loop_cons {bytes : Bytes} {offset : Nat} {a b : UInt8} {rest : Bytes}
    (bigEndian allow : Bool)
    (output : Bytes) : bytes.drop offset = a :: b :: rest →
    decodeUtf16Loop bytes bigEndian allow offset output =
      if High (utf16Unit bigEndian a b) then
        match rest with
        | d :: e :: _ =>
          if Low (utf16Unit bigEndian d e) then
            decodeUtf16Loop bytes bigEndian allow (offset + 4) (windowsAppendUtf8 output
              (0x10000 + ((utf16Unit bigEndian a b - 0xd800) <<< 10) + utf16Unit bigEndian d
                e - 0xdc00))
          else (false, output)
        | _ => (allow, output)
      else if Low (utf16Unit bigEndian a b) then (false, output)
      else
        decodeUtf16Loop bytes bigEndian allow (offset + 2)
          (windowsAppendUtf8 output (utf16Unit bigEndian a b)) := by
  intro hv
  have hlength := congrArg List.length hv
  simp only [List.length_drop, List.length_cons] at hlength
  have hv₁ := drop_succ_of_drop hv
  have hv₂ := drop_succ_of_drop hv₁
  rw [decodeUtf16Loop, if_pos (by omega), getD_of_drop hv, getD_of_drop hv₁]
  dsimp only
  by_cases hhigh : High (utf16Unit bigEndian a b)
  · have hraw : utf16Unit bigEndian a b ≥ 0xd800 ∧ utf16Unit bigEndian a b ≤ 0xdbff := hhigh
    rw [if_pos hhigh, if_pos hraw]
    match rest with
    | [] =>
      simp only [List.length_nil] at hlength
      exact if_pos (by omega)
    | [d] =>
      simp only [List.length_cons, List.length_nil] at hlength
      exact if_pos (by omega)
    | d :: e :: rest =>
      simp only [List.length_cons] at hlength
      have hv₃ := drop_succ_of_drop hv₂
      rw [if_neg (by omega), getD_of_drop hv₂, getD_of_drop hv₃]
      dsimp only
      by_cases hlow : Low (utf16Unit bigEndian d e)
      · have hrange := hlow
        unfold Low at hrange
        rw [if_pos hlow, if_neg (by omega)]
      · have hrange := hlow
        unfold Low at hrange
        rw [if_neg hlow, if_pos (by omega)]
  · have hraw : ¬ (utf16Unit bigEndian a b ≥ 0xd800 ∧ utf16Unit bigEndian a b ≤ 0xdbff) := hhigh
    rw [if_neg hhigh, if_neg hraw]
    rfl

theorem decodeUtf16Loop_eq {bigEndian : Bool} {bytes v : Bytes} {l : List Char} {s : Stop}
    (h : Scans (utf16EncodeChar bigEndian) (unitVerdict bigEndian) v l s) (allow : Bool)
    {offset : Nat} {output : Bytes} (hoffset : offset ≤ bytes.length) (hv : bytes.drop offset = v) :
    decodeUtf16Loop bytes bigEndian allow offset output = (Stop.accepted s allow,
      output ++ utf8 l) := by
  have hlength : v.length = bytes.length - offset := by rw [← hv, List.length_drop]
  induction h generalizing offset output with
  | ended =>
    have hend : offset = bytes.length := le_antisymm hoffset (List.drop_eq_nil_iff.mp hv)
    rw [decodeUtf16Loop, if_neg (by omega)]
    simp [hend, Stop.accepted]
  | @incomplete v hne hread =>
    match v with
    | [] => exact absurd rfl hne
    | [a] =>
      simp only [List.length_cons, List.length_nil] at hlength
      have hopen : (offset == bytes.length) = false := by
        rw [beq_eq_false_iff_ne]
        omega
      rw [decodeUtf16Loop, if_neg (by omega), hopen]
      simp [Stop.accepted]
    | a :: b :: rest =>
      rw [decodeUtf16Loop_cons bigEndian allow output hv]
      rw [unitVerdict_cons] at hread
      split at hread
      · next hhigh =>
        rw [if_pos hhigh]
        match rest with
        | [] => simp [Stop.accepted]
        | [d] => simp [Stop.accepted]
        | d :: e :: rest =>
          dsimp only at hread
          split at hread
          · cases hread
          · cases hread
      · split at hread
        · cases hread
        · cases hread
  | @invalid v hne hread =>
    match v with
    | [] => exact absurd rfl hne
    | [a] => cases hread
    | a :: b :: rest =>
      rw [decodeUtf16Loop_cons bigEndian allow output hv]
      rw [unitVerdict_cons] at hread
      split at hread
      · next hhigh =>
        rw [if_pos hhigh]
        match rest with
        | [] => cases hread
        | [d] => cases hread
        | d :: e :: rest =>
          dsimp only at hread ⊢
          split at hread
          · cases hread
          · next hlow =>
            rw [if_neg hlow]
            simp [Stop.accepted]
      · next hhigh =>
        rw [if_neg hhigh]
        split at hread
        · next hlow =>
          rw [if_pos hlow]
          simp [Stop.accepted]
        · cases hread
  | @complete c rest l s h ih =>
    rcases utf16EncodeChar_cases bigEndian c with
      ⟨a, b, hc, hunit, hhigh, hlow⟩ | ⟨a, b, d, e, hc, hhigh, hlow, hunits⟩
    · rw [hc] at hv
      have hrest : bytes.drop (offset + 2) = rest := drop_succ_of_drop (drop_succ_of_drop hv)
      have hshort := congrArg List.length hv
      simp only [List.length_drop, List.length_append, List.length_cons, List.length_nil] at hshort
      rw [decodeUtf16Loop_cons bigEndian allow output hv, hunit, if_neg hhigh, if_neg hlow,
        ih (by omega) hrest (by rw [← hrest, List.length_drop]), windowsAppendUtf8_eq, utf8_cons,
        List.append_assoc]
    · have hv : bytes.drop offset = a :: b :: d :: e :: rest := by rw [hv, hc]; rfl
      have hrest : bytes.drop (offset + 4) = rest :=
        drop_succ_of_drop (drop_succ_of_drop (drop_succ_of_drop (drop_succ_of_drop hv)))
      have hshort := congrArg List.length hv
      simp only [List.length_drop, List.length_cons] at hshort
      rw [decodeUtf16Loop_cons bigEndian allow output hv, if_pos hhigh]
      dsimp only
      rw [if_pos hlow, ← hunits, ih (by omega) hrest (by rw [← hrest, List.length_drop]),
        windowsAppendUtf8_eq, utf8_cons, List.append_assoc]

theorem windowsDecodeUtf16_eq {bigEndian : Bool} {mark v : Bytes} {l : List Char} {s : Stop}
    (hmark : mark.length = 2) (h : Scans (utf16EncodeChar bigEndian) (unitVerdict bigEndian) v l s)
    (allow : Bool) :
    windowsDecodeUtf16 (mark ++ v) bigEndian allow = (Stop.accepted s allow, utf8 l) := by
  have hdrop : (mark ++ v).drop 2 = v := by rw [← hmark, List.drop_left]
  rw [windowsDecodeUtf16, decodeUtf16Loop_eq h allow (by rw [List.length_append]; omega) hdrop,
    List.nil_append]

/-! ### Texts that were cut -/

/-- An unpaired surrogate is refused wherever it stands. -/
theorem unitVerdict_unpaired (bigEndian : Bool) {u : Nat} (hu : u < 0x10000) (rest : Bytes) :
    (Low u → unitVerdict bigEndian (unitBytes bigEndian u ++ rest) = .invalid) ∧
      ∀ w, w < 0x10000 → High u → ¬ Low w →
        unitVerdict bigEndian (unitBytes bigEndian u ++ unitBytes bigEndian w ++ rest) =
        .invalid := by
  obtain ⟨a, b, hbytes, rfl⟩ := unitBytes_cases bigEndian hu
  constructor
  · intro hlow
    have hhigh : ¬ High (utf16Unit bigEndian a b) := by
      unfold Low at hlow
      unfold High
      omega
    rw [hbytes, List.cons_append, List.cons_append, unitVerdict_cons, if_neg hhigh, if_pos hlow]
  · intro w hw hhigh hlow
    obtain ⟨d, e, hbytes', rfl⟩ := unitBytes_cases bigEndian hw
    rw [hbytes, hbytes']
    simp only [List.cons_append, List.nil_append]
    rw [unitVerdict_cons, if_pos hhigh]
    exact if_neg hlow

theorem refuses_unpaired (bigEndian allow : Bool) {mark : Bytes} (hmark : mark.length = 2)
    (l : List Char) {v : Bytes} (hne : v ≠ []) (hread : unitVerdict bigEndian v = .invalid) :
    (windowsDecodeUtf16 (mark ++ (utf16 bigEndian l ++ v)) bigEndian allow).1 = false := by
  rw [windowsDecodeUtf16_eq hmark ((Scans.invalid hne hread).append l)]
  rfl

theorem Stop.accepted_iff {s : Stop} (hs : s ≠ .invalid) (allow : Bool) :
    Stop.accepted s allow = true ↔ allow = true ∨ s = .ended := by
  cases s with
  | ended => simp [Stop.accepted]
  | incomplete => simp [Stop.accepted]
  | invalid => exact absurd rfl hs

/-- The byte order mark of the source. -/
def byteOrderMark (bigEndian : Bool) : Bytes := if bigEndian then [0xfe, 0xff] else [0xff, 0xfe]

theorem length_byteOrderMark (bigEndian : Bool) : (byteOrderMark bigEndian).length = 2 := by
  cases bigEndian with
  | true => rfl
  | false => rfl

/-- The validator accepts encodings only. -/
theorem windowsValidateUtf8_iff (v : Bytes) :
    (windowsValidateUtf8 v false).1 = true ↔ ∃ l, v = utf8 l := by
  obtain ⟨l, s, hscan⟩ := utf8Recognises.scans_exists v
  rw [windowsValidateUtf8_eq hscan, ← utf8Recognises.ended_iff hscan]
  cases s with
  | ended => simp [Stop.accepted]
  | incomplete => simp [Stop.accepted]
  | invalid => simp [Stop.accepted]

/-- **Decoding a text that was cut.**  Both decoders give the characters that
    lie wholly before the cut, and accept it without an incomplete tail exactly
    when the cut is between characters; the validator accepts encodings only
    and finds the longest one in front; an unpaired surrogate in front of the
    tail is refused. -/
theorem decoding_of_cut_text :
    (∀ (l : List Char) (cut : Nat) (allow : Bool), ∃ p, Whole String.utf8EncodeChar cut l p ∧
      utf8 p <+: (utf8 l).take cut ∧
      (windowsValidateUtf8 ((utf8 l).take cut) allow).2 = (utf8 p).length ∧
      ((windowsValidateUtf8 ((utf8 l).take cut) allow).1 = true ↔
        allow = true ∨ Between String.utf8EncodeChar cut l)) ∧
    (∀ (bigEndian : Bool) (l : List Char) (cut : Nat) (allow : Bool), ∃ p,
      Whole (utf16EncodeChar bigEndian) cut l p ∧
      (windowsDecodeUtf16 (byteOrderMark bigEndian ++ (utf16 bigEndian l).take cut) bigEndian
        allow).2 = utf8 p ∧
      ((windowsDecodeUtf16 (byteOrderMark bigEndian ++ (utf16 bigEndian l).take cut) bigEndian
        allow).1 = true ↔
        allow = true ∨ Between (utf16EncodeChar bigEndian) cut l)) ∧
    (∀ v : Bytes, (windowsValidateUtf8 v false).1 = true ↔ ∃ l, v = utf8 l) ∧
    (∀ (v : Bytes) (allow : Bool), ∃ p, (windowsValidateUtf8 v allow).2 = (utf8 p).length ∧
      utf8 p <+: v ∧
      ∀ q, utf8 q <+: v → q <+: p) ∧
    ∀ (bigEndian allow : Bool) (l : List Char) (u : Nat) (rest : Bytes), u < 0x10000 →
      (Low u → (windowsDecodeUtf16
        (byteOrderMark bigEndian ++ (utf16 bigEndian l ++ (unitBytes bigEndian u ++ rest)))
        bigEndian allow).1 = false) ∧
      ∀ w, w < 0x10000 → High u → ¬ Low w →
        (windowsDecodeUtf16 (byteOrderMark bigEndian ++
          (utf16 bigEndian l ++ (unitBytes bigEndian u ++ unitBytes bigEndian w ++ rest))) bigEndian
          allow).1 = false := by
  refine ⟨?_, ?_, windowsValidateUtf8_iff, ?_, ?_⟩
  · intro l cut allow
    obtain ⟨p, s, hp, hscan, hs, hbetween⟩ := utf8Recognises.scans_cut l cut
    obtain ⟨tail, htail, -⟩ := hscan.split
    rw [windowsValidateUtf8_eq hscan]
    exact ⟨p, hp, ⟨tail, htail.symm⟩, rfl,
      (Stop.accepted_iff hs allow).trans (or_congr_right hbetween)⟩
  · intro bigEndian l cut allow
    obtain ⟨p, s, hp, hscan, hs, hbetween⟩ := (utf16Recognises bigEndian).scans_cut l cut
    rw [windowsDecodeUtf16_eq (length_byteOrderMark bigEndian) hscan]
    exact ⟨p, hp, rfl, (Stop.accepted_iff hs allow).trans (or_congr_right hbetween)⟩
  · intro v allow
    obtain ⟨l, s, hscan⟩ := utf8Recognises.scans_exists v
    obtain ⟨tail, htail, -⟩ := hscan.split
    rw [windowsValidateUtf8_eq hscan]
    exact ⟨l, rfl, ⟨tail, htail.symm⟩, fun q hq => utf8Recognises.scans_longest hscan hq⟩
  · intro bigEndian allow l u rest hu
    obtain ⟨a, b, hbytes, -⟩ := unitBytes_cases bigEndian hu
    obtain ⟨hlow, hpair⟩ := unitVerdict_unpaired bigEndian hu rest
    constructor
    · intro h
      exact refuses_unpaired bigEndian allow (length_byteOrderMark bigEndian) l
        (by simp [hbytes]) (hlow h)
    · intro w hw h h'
      exact refuses_unpaired bigEndian allow (length_byteOrderMark bigEndian) l (by simp [hbytes])
        (hpair w hw h h')

/-! ### The output of a command -/

structure WindowsCommandResult where
  exitCode : Nat := 0
  systemError : Nat := 0
  elapsedMs : Nat := 0
  timedOut : Bool := false
  absent : Bool := false
  outputEncoding : String := "utf-8"
  outputCodePage : Nat := 65001
  oemCodePage : Nat := 0
  ansiCodePage : Nat := 0
  parentConsoleCodePage : Nat := 0
  outputCapturedBytes : Nat := 0
  outputObservedBytes : Nat := 0
  outputTruncated : Bool := false
  output : Bytes := []
deriving DecidableEq, Repr

def WindowsCommandResult.ok (r : WindowsCommandResult) : Bool :=
  !r.timedOut && r.systemError == 0 && r.exitCode == 0

def WINDOWS_COMMAND_OUTPUT_LIMIT : Nat := 8192
def WINDOWS_COMMAND_OUTPUT_LOOKAHEAD : Nat := 4

/-- `captured` and `observedBytes` after one more chunk of output. -/
def captureWindowsCommandOutput (chunk : Bytes) : Bytes × Nat → Bytes × Nat
  | (captured, observedBytes) =>
    let limit := WINDOWS_COMMAND_OUTPUT_LIMIT + WINDOWS_COMMAND_OUTPUT_LOOKAHEAD
    (if captured.length < limit then captured ++
      chunk.take (min chunk.length (limit - captured.length)) else captured,
      observedBytes + chunk.length)

/-- `hex[n]`. -/
def hexDigit (n : Nat) : UInt8 := (ascii "0123456789abcdef").getD n 0

def escapeLoop (limit : Nat) (result : Bytes) : Bytes → Bytes × Bool
  | [] => (result, false)
  | byte :: value =>
    let needed := if byte.toNat ≥ 32 ∧ byte.toNat < 127 then 1 else 4
    if needed > limit - result.length then (result, true)
    else
      escapeLoop limit (result ++
        if needed = 1 then [byte]
        else ascii "\\x" ++ [hexDigit (byte.toNat >>> 4), hexDigit (byte.toNat &&& 15)]) value

/-- The text, and whether it leaves bytes out. -/
def windowsEscapeOutput (value : Bytes) (limit : Nat) : Bytes × Bool := escapeLoop limit [] value

/-- The code pages of a Windows system and `windowsDecodeCodePage`, which asks it to decode. -/
structure CodePages where
  oem : Nat
  ansi : Nat
  decode : Bytes → Nat → Bool → Option Bytes

/-- The code pages that are tried: none in a build for another system. -/
def decodeLegacy (system : Option CodePages) (bytes : Bytes) (incompleteTail : Bool)
    (oem ansi : Nat) :
    Option (Bytes × String × Nat) :=
  match system with
  | none => none
  | some w =>
    match w.decode bytes oem incompleteTail with
    | some output => some (output, "oem", oem)
    | none => if ansi ≠ oem then (w.decode bytes ansi incompleteTail).map fun output =>
      (output, "acp", ansi) else none

def decodeWindowsCommandOutput (system : Option CodePages) (raw : Bytes) (observedBytes : Nat)
    (result : WindowsCommandResult) (oemCodePage ansiCodePage : Nat := 0) : WindowsCommandResult :=
  let bytes := raw.take (WINDOWS_COMMAND_OUTPUT_LIMIT + WINDOWS_COMMAND_OUTPUT_LOOKAHEAD)
  let incompleteTail := result.outputTruncated || result.timedOut ||
    decide (observedBytes > WINDOWS_COMMAND_OUTPUT_LIMIT) || decide (raw.length > bytes.length)
  let oem := if oemCodePage = 0 then (system.map CodePages.oem).getD 0 else oemCodePage
  let ansi := if ansiCodePage = 0 then (system.map CodePages.ansi).getD 0 else ansiCodePage
  let result := { result with
    outputCapturedBytes := bytes.length, outputObservedBytes := observedBytes,
    outputTruncated := incompleteTail
    oemCodePage := oem, ansiCodePage := ansi, output := [], outputCodePage := 0,
    outputEncoding := "none" }
  let escaped := windowsEscapeOutput bytes WINDOWS_COMMAND_OUTPUT_LIMIT
  let asBytes := { result with
    output := escaped.1, outputTruncated := incompleteTail || escaped.2,
    outputEncoding := "escaped-bytes" }
  let utf16le := bytes.take 2 == byteOrderMark false
  let utf16be := bytes.take 2 == byteOrderMark true
  if bytes = [] then result
  else if utf16le || utf16be then
    match windowsDecodeUtf16 bytes utf16be incompleteTail with
    | (true, output) => { result with
        output := output, outputEncoding := if utf16be then "utf-16be-bom" else "utf-16le-bom"
        outputCodePage := if utf16be then 1201 else 1200 }
    | (false, _) => asBytes
  else
    let bom := bytes.take 3 == [0xef, 0xbb, 0xbf]
    let text := if bom then bytes.drop 3 else bytes
    match windowsValidateUtf8 text incompleteTail with
    | (true, validBytes) => { result with
        output := text.take validBytes, outputEncoding := if bom then "utf-8-bom" else "utf-8",
        outputCodePage := 65001 }
    | (false, _) =>
      match if bom then none else decodeLegacy system bytes incompleteTail oem ansi with
      | some (output, encoding, codePage) => { result with
          output := output, outputEncoding := encoding, outputCodePage := codePage }
      | none => asBytes

/-- The capture keeps the front of the output, however it is split into chunks. -/
theorem foldl_capture (chunks : List Bytes) (captured : Bytes) (observedBytes : Nat) :
    chunks.foldl (fun state chunk => captureWindowsCommandOutput chunk state)
        (captured.take (WINDOWS_COMMAND_OUTPUT_LIMIT + WINDOWS_COMMAND_OUTPUT_LOOKAHEAD),
          observedBytes) =
      ((captured ++ chunks.flatten).take
        (WINDOWS_COMMAND_OUTPUT_LIMIT + WINDOWS_COMMAND_OUTPUT_LOOKAHEAD),
        observedBytes + chunks.flatten.length) := by
  generalize hlimit : WINDOWS_COMMAND_OUTPUT_LIMIT + WINDOWS_COMMAND_OUTPUT_LOOKAHEAD = limit
  induction chunks generalizing captured observedBytes with
  | nil => simp
  | cons chunk chunks ih =>
    have hstep : captureWindowsCommandOutput chunk (captured.take limit, observedBytes) =
        ((captured ++ chunk).take limit, observedBytes + chunk.length) := by
      rw [captureWindowsCommandOutput, hlimit, List.take_append]
      split
      · next hroom =>
        rw [List.length_take] at hroom ⊢
        have hall : min limit captured.length = captured.length := by omega
        rw [hall, Nat.min_comm, ← List.take_take, List.take_length]
      · next hroom =>
        rw [List.length_take] at hroom
        have hfull : limit - captured.length = 0 := by omega
        rw [hfull, List.take_zero, List.append_nil]
    rw [List.foldl_cons, hstep, ih, List.flatten_cons, List.append_assoc, List.length_append,
      Nat.add_assoc]

/-! ### The output is UTF-8 -/

/-- Printable characters of ASCII. -/
def Printable (v : Bytes) : Prop := ∀ b ∈ v, 32 ≤ b.toNat ∧ b.toNat < 127

instance (v : Bytes) : Decidable (Printable v) := inferInstanceAs (Decidable (∀ b ∈ v, _))

/-- ASCII text is its own encoding. -/
theorem exists_utf8_of_ascii {v : Bytes} (h : ∀ b ∈ v, b.toNat < 0x80) : ∃ l, v = utf8 l := by
  induction v with
  | nil => exact ⟨[], rfl⟩
  | cons b v ih =>
    obtain ⟨l, hl⟩ := ih fun a ha => h a (List.mem_cons_of_mem _ ha)
    obtain ⟨c, hc⟩ := (Sequence.one (h b List.mem_cons_self)).exists_char
    exact ⟨c :: l, by rw [utf8_cons, hc, hl]; rfl⟩

theorem hexDigit_printable {n : Nat} (hn : n < 16) :
    32 ≤ (hexDigit n).toNat ∧ (hexDigit n).toNat < 127 := by
  have hall : ∀ n < 16, 32 ≤ (hexDigit n).toNat ∧ (hexDigit n).toNat < 127 := by decide
  exact hall n hn

/-- What stands for one byte: the byte itself, or its value in hexadecimal. -/
def escapedByte (byte : UInt8) : Bytes :=
  if byte.toNat ≥ 32 ∧ byte.toNat < 127 then [byte]
  else ascii "\\x" ++ [hexDigit (byte.toNat >>> 4), hexDigit (byte.toNat &&& 15)]

theorem escapedByte_printable (byte : UInt8) : Printable (escapedByte byte) := by
  have hbyte := byte.toNat_lt
  unfold escapedByte
  split
  · next hprint =>
    intro b hb
    rw [List.mem_singleton] at hb
    exact hb ▸ hprint
  · have hmarker : Printable (ascii "\\x") := by decide +kernel
    have hhigh : byte.toNat >>> 4 < 16 := by
      rw [Nat.shiftRight_eq_div_pow]
      omega
    have hlow : byte.toNat &&& 15 < 16 := Nat.and_lt_two_pow byte.toNat (n := 4) (by decide)
    intro b hb
    rcases List.mem_append.mp hb with hb | hb
    · exact hmarker b hb
    · simp only [List.mem_cons, List.not_mem_nil, or_false] at hb
      rcases hb with rfl | rfl
      · exact hexDigit_printable hhigh
      · exact hexDigit_printable hlow

theorem escapeLoop_cons (limit : Nat) (result : Bytes) (byte : UInt8) (value : Bytes) :
    escapeLoop limit result (byte :: value) =
      if (escapedByte byte).length > limit - result.length then (result, true)
      else escapeLoop limit (result ++ escapedByte byte) value := by
  by_cases hplain : byte.toNat ≥ 32 ∧ byte.toNat < 127
  · have hescaped : escapedByte byte = [byte] := if_pos hplain
    simp only [escapeLoop, if_pos hplain, hescaped, List.length_singleton, if_true]
  · have hescaped : escapedByte byte =
        ascii "\\x" ++ [hexDigit (byte.toNat >>> 4), hexDigit (byte.toNat &&& 15)] := if_neg hplain
    have hfour :
      (ascii "\\x" ++ [hexDigit (byte.toNat >>> 4), hexDigit (byte.toNat &&& 15)]).length = 4 := rfl
    simp only [escapeLoop, if_neg hplain, hescaped, hfour, show ¬ 4 = 1 by decide, if_false]

theorem escapeLoop_printable {limit : Nat} {result : Bytes} (hprint : Printable result)
    (hle : result.length ≤ limit) (value : Bytes) :
    Printable (escapeLoop limit result value).1 ∧
    (escapeLoop limit result value).1.length ≤ limit := by
  induction value generalizing result with
  | nil => exact ⟨hprint, hle⟩
  | cons byte value ih =>
    rw [escapeLoop_cons]
    split
    · exact ⟨hprint, hle⟩
    · next hroom =>
      apply ih
      · intro b hb
        rcases List.mem_append.mp hb with hb | hb
        · exact hprint b hb
        · exact escapedByte_printable byte b hb
      · rw [List.length_append]
        omega

theorem windowsEscapeOutput_printable (value : Bytes) (limit : Nat) :
    Printable (windowsEscapeOutput value limit).1 ∧
    (windowsEscapeOutput value limit).1.length ≤ limit :=
  escapeLoop_printable (fun _ hb => absurd hb List.not_mem_nil) (Nat.zero_le _) value

theorem windowsEscapeOutput_utf8 (value : Bytes) (limit : Nat) :
    ∃ l, (windowsEscapeOutput value limit).1 = utf8 l := by
  apply exists_utf8_of_ascii
  intro b hb
  have hprint := (windowsEscapeOutput_printable value limit).1 b hb
  omega

/-- The valid part of a value is an encoding. -/
theorem validated_utf8 {text : Bytes} {allow ok : Bool} {validBytes : Nat}
    (h : windowsValidateUtf8 text allow = (ok, validBytes)) :
    ∃ l, text.take validBytes = utf8 l := by
  obtain ⟨l, s, hscan⟩ := utf8Recognises.scans_exists text
  obtain ⟨tail, rfl, -⟩ := hscan.split
  rw [windowsValidateUtf8_eq hscan] at h
  cases h
  exact ⟨l, List.take_left⟩

/-- Whatever a text of UTF-16 is, what was decoded of it is UTF-8. -/
theorem decoded_utf8 {bytes output : Bytes} {bigEndian allow ok : Bool} (hmark : 2 ≤ bytes.length)
    (h : windowsDecodeUtf16 bytes bigEndian allow = (ok, output)) : ∃ l, output = utf8 l := by
  obtain ⟨l, s, hscan⟩ := (utf16Recognises bigEndian).scans_exists (bytes.drop 2)
  have htwo : (bytes.take 2).length = 2 := by
    rw [List.length_take]
    omega
  have heq := windowsDecodeUtf16_eq htwo hscan allow
  rw [List.take_append_drop, h] at heq
  cases heq
  exact ⟨l, rfl⟩

theorem length_of_mark {bytes : Bytes} {bigEndian : Bool}
    (h : (bytes.take 2 == byteOrderMark bigEndian) = true) :
    2 ≤ bytes.length := by
  have hlength := congrArg List.length (beq_iff_eq.mp h)
  rw [length_byteOrderMark, List.length_take] at hlength
  omega

/-- **The output is well-formed UTF-8, whatever the process wrote**, when the
    system decodes its code pages to UTF-8. -/
theorem decodeWindowsCommandOutput_utf8 {system : Option CodePages}
    (hsystem : ∀ w ∈ system, ∀ bytes codePage allow output,
      w.decode bytes codePage allow = some output → ∃ l, output = utf8 l)
    (raw : Bytes) (observedBytes : Nat) (result : WindowsCommandResult)
    (oemCodePage ansiCodePage : Nat) :
    ∃ l, (decodeWindowsCommandOutput system raw observedBytes result oemCodePage
      ansiCodePage).output = utf8 l := by
  have hlegacy : ∀ {bytes allow oem ansi output encoding codePage},
      decodeLegacy system bytes allow oem ansi = some (output, encoding, codePage) →
      ∃ l, output = utf8 l := by
    intro bytes allow oem ansi output encoding codePage h
    cases system with
    | none => cases h
    | some w =>
      unfold decodeLegacy at h
      dsimp only at h
      split at h
      · next hdecode =>
        cases h
        exact hsystem w rfl _ _ _ _ hdecode
      · split at h
        · obtain ⟨decoded, hdecode, heq⟩ := Option.map_eq_some_iff.mp h
          cases heq
          exact hsystem w rfl _ _ _ _ hdecode
        · cases h
  unfold decodeWindowsCommandOutput
  dsimp only
  split
  · exact ⟨[], rfl⟩
  · split
    · next hmark =>
      have hlength :
          2 ≤ (raw.take (WINDOWS_COMMAND_OUTPUT_LIMIT +
            WINDOWS_COMMAND_OUTPUT_LOOKAHEAD)).length := by
        rcases Bool.or_eq_true_iff.mp hmark with h | h
        · exact length_of_mark h
        · exact length_of_mark h
      split
      · next output hdecode => exact decoded_utf8 hlength hdecode
      · exact windowsEscapeOutput_utf8 _ _
    · split
      · next validBytes hvalid => exact validated_utf8 hvalid
      · split
        · next hsome =>
          split at hsome
          · cases hsome
          · exact hlegacy hsome
        · exact windowsEscapeOutput_utf8 _ _

/-- An encoding starts with a lead byte. -/
theorem leadLength_of_front {l : List Char} {a : UInt8} {v : Bytes} (h : a :: v <+: utf8 l) :
    0 < leadLength a.toNat := by
  cases l with
  | nil => exact absurd (List.prefix_nil.mp h) (List.cons_ne_nil _ _)
  | cons c l =>
    obtain ⟨lead, t, hc, hlength, -⟩ := (sequence_utf8EncodeChar c).lead
    rw [utf8_cons, hc, List.cons_append] at h
    obtain ⟨rfl, -⟩ := List.cons_prefix_cons.mp h
    omega

/-- So it is not taken as UTF-16. -/
theorem no_mark {l : List Char} {v : Bytes} (h : v <+: utf8 l) (bigEndian : Bool) :
    (v.take 2 == byteOrderMark bigEndian) = false := by
  rw [beq_eq_false_iff_ne]
  intro hmark
  have hfront : byteOrderMark bigEndian <+: utf8 l := hmark ▸ (List.take_prefix 2 v).trans h
  cases bigEndian with
  | true => exact absurd (leadLength_of_front hfront) (by decide)
  | false => exact absurd (leadLength_of_front hfront) (by decide)

theorem no_bom {l : List Char} {v : Bytes} (h : v <+: utf8 l)
    (hmark : l.head? ≠ some (Char.ofNat 0xfeff)) :
    (v.take 3 == [0xef, 0xbb, 0xbf]) = false := by
  rw [beq_eq_false_iff_ne]
  intro hbom
  have hbytes : utf8 [Char.ofNat 0xfeff] = [0xef, 0xbb, 0xbf] := by decide
  have hfront : utf8 [Char.ofNat 0xfeff] <+: utf8 l := by
    rw [hbytes, ← hbom]
    exact (List.take_prefix 3 v).trans h
  obtain ⟨rest, rfl⟩ := utf8Recognises.prefix_of_encode hfront
  exact hmark rfl

/-- **A command that prints UTF-8 is read back** up to the last character that
    the capture holds whole, unless the text starts with a byte order mark. -/
theorem decodeWindowsCommandOutput_text {l : List Char} (hmark : l.head? ≠ some (Char.ofNat 0xfeff))
    (system : Option CodePages) (chunks : List Bytes) (hchunks : chunks.flatten = utf8 l)
    (result : WindowsCommandResult) (oemCodePage ansiCodePage : Nat) :
    ∃ p, Whole String.utf8EncodeChar
    (WINDOWS_COMMAND_OUTPUT_LIMIT + WINDOWS_COMMAND_OUTPUT_LOOKAHEAD) l p ∧
      let captured :=
  chunks.foldl (fun state chunk => captureWindowsCommandOutput chunk state) ([], 0)
      (decodeWindowsCommandOutput system captured.1 captured.2 result oemCodePage
        ansiCodePage).output = utf8 p := by
  have hcapture := foldl_capture chunks [] 0
  rw [List.take_nil, List.nil_append, Nat.zero_add, hchunks] at hcapture
  generalize hlimit : WINDOWS_COMMAND_OUTPUT_LIMIT + WINDOWS_COMMAND_OUTPUT_LOOKAHEAD =
    limit at hcapture
  obtain ⟨p, s, hp, hscan, hs, -⟩ := utf8Recognises.scans_cut l limit
  have hfront : (utf8 l).take limit <+: utf8 l := List.take_prefix _ _
  refine ⟨p, hp, ?_⟩
  dsimp only
  rw [hcapture]
  unfold decodeWindowsCommandOutput
  dsimp only
  rw [hlimit, List.take_take, Nat.min_self, no_mark hfront, no_mark hfront, no_bom hfront hmark]
  split
  · next hempty =>
    rw [hempty] at hscan
    have hnil := (utf8Recognises.scans_unique hscan .ended).1
    rw [hnil]
    rfl
  · generalize hallow : (result.outputTruncated || result.timedOut ||
      decide ((utf8 l).length > WINDOWS_COMMAND_OUTPUT_LIMIT) || _) = allow
    -- What was left out is reported, so the tail may be incomplete.
    have haccepted : Stop.accepted s allow = true := by
      rw [Stop.accepted_iff hs]
      by_cases hlong : (utf8 l).length > WINDOWS_COMMAND_OUTPUT_LIMIT
      · left
        rw [← hallow]
        simp [hlong]
      · right
        have hall : (utf8 l).take limit = utf8 l := List.take_of_length_le (by omega)
        rw [hall] at hscan
        exact (utf8Recognises.scans_unique hscan (scans_encode l)).2
    obtain ⟨tail, htail, -⟩ := hscan.split
    simp only [Bool.or_self, Bool.false_eq_true, if_false, windowsValidateUtf8_eq hscan, haccepted]
    rw [htail, List.take_left]

end VlanConnect.WindowsNetwork

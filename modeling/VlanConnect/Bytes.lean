/-
  VlanConnect/Bytes.lean
  ======================
  **Byte strings and the message buffer** (`common/byte_buffer.h`).

  A `std::vector<uint8_t>` is a list of bytes.  The `write…` methods append
  one field each, so a message body is the concatenation of its fields; the
  `read…` methods advance a cursor and throw `ByteBufferReadError` past the
  end, so a parser is a partial state transformer on the bytes still unread.
-/
import VlanConnect.Lib.BigEndian

namespace VlanConnect

abbrev Bytes := List UInt8

/-- The bytes of a string constant of the source (all of them are ASCII). -/
def ascii (s : String) : Bytes := s.toUTF8.data.toList

namespace ByteBuffer

/-! ### Writing -/

def writeU8 (v : Nat) : Bytes := BigEndian.encode 1 v
def writeU16 (v : Nat) : Bytes := BigEndian.encode 2 v
def writeU32 (v : Nat) : Bytes := BigEndian.encode 4 v
def writeU64 (v : Nat) : Bytes := BigEndian.encode 8 v

/-- A string is its 16-bit length and its bytes. -/
def writeString (s : Bytes) : Bytes := writeU16 s.length ++ s

@[simp] theorem length_writeU8 (v : Nat) : (writeU8 v).length = 1 := BigEndian.length_encode _ _
@[simp] theorem length_writeU16 (v : Nat) : (writeU16 v).length = 2 := BigEndian.length_encode _ _
@[simp] theorem length_writeU32 (v : Nat) : (writeU32 v).length = 4 := BigEndian.length_encode _ _
@[simp] theorem length_writeU64 (v : Nat) : (writeU64 v).length = 8 := BigEndian.length_encode _ _

@[simp] theorem length_writeString (s : Bytes) : (writeString s).length = 2 + s.length := by
  simp [writeString]

/-! ### Reading -/

/-- A parser over the unread bytes; `none` is a thrown `ByteBufferReadError`. -/
abbrev Reader := StateT Bytes Option

def readBytes (len : Nat) : Reader Bytes := fun unread =>
  if unread.length < len then none else some (unread.take len, unread.drop len)

def readUInt (width : Nat) : Reader Nat := fun unread =>
  (readBytes width unread).map fun (front, rest) => (BigEndian.decode front, rest)

def readU8 : Reader Nat := readUInt 1
def readU16 : Reader Nat := readUInt 2
def readU32 : Reader Nat := readUInt 4
def readU64 : Reader Nat := readUInt 8

def readString : Reader Bytes := do
  let len ← readU16
  readBytes len

def remaining : Reader Nat := fun unread => some (unread.length, unread)

def atEnd : Reader Bool := fun unread => some (unread.isEmpty, unread)

/-- Run a parser on a payload; what it leaves unread is not looked at. -/
def parse {α : Type} (reader : Reader α) (payload : Bytes) : Option α :=
  (reader payload).map Prod.fst

theorem bind_eq_some {α β : Type} {x : Reader α} {f : α → Reader β} {unread : Bytes}
    {r : β × Bytes} :
    (x >>= f) unread = some r ↔ ∃ a rest, x unread = some (a, rest) ∧ f a rest = some r := by
  simp only [bind, StateT.bind, Option.bind_eq_some_iff, Prod.exists]

theorem pure_eq_some {α : Type} {a : α} {unread : Bytes} {r : α × Bytes} :
    (pure a : Reader α) unread = some r ↔ (a, unread) = r :=
  Option.some_inj

theorem map_eq_some {α β : Type} {x : Reader α} {f : α → β} {unread : Bytes} {r : β × Bytes} :
    (f <$> x) unread = some r ↔ ∃ a rest, x unread = some (a, rest) ∧ (f a, rest) = r := by
  simp only [Functor.map, StateT.map, bind, pure, Option.bind_eq_some_iff, Prod.exists,
    Option.some.injEq]

theorem failure_ne_some {α : Type} {unread : Bytes} {r : α × Bytes} :
    ¬ (failure : Reader α) unread = some r := by
  intro h
  cases h

theorem ite_eq_some {α : Type} {c : Prop} [Decidable c] {x y : Reader α} {unread : Bytes}
    {r : α × Bytes} :
    (if c then x else y) unread = some r ↔ c ∧ x unread = some r ∨ ¬ c ∧ y unread = some r := by
  by_cases h : c
  · simp [h]
  · simp [h]

theorem atEnd_eq_some {unread rest : Bytes} {done : Bool} :
    atEnd unread = some (done, rest) ↔ done = unread.isEmpty ∧ rest = unread := by
  simp only [atEnd, Option.some.injEq, Prod.mk.injEq, eq_comm]

/-- A field that can be read is a piece of the given length. -/
theorem readBytes_eq_some {len : Nat} {unread front rest : Bytes} :
    readBytes len unread = some (front, rest) ↔ front.length = len ∧ unread = front ++ rest := by
  unfold readBytes
  constructor
  · intro h
    split at h
    · cases h
    · next hlen =>
      cases h
      exact ⟨List.length_take_of_le (not_lt.mp hlen), (List.take_append_drop len unread).symm⟩
  · rintro ⟨rfl, rfl⟩
    simp

/-- A number that can be read is the one whose encoding comes next. -/
theorem readUInt_eq_some {width v : Nat} {unread rest : Bytes} :
    readUInt width unread = some (v, rest) ↔
    v < 256 ^ width ∧ unread = BigEndian.encode width v ++ rest := by
  constructor
  · intro h
    obtain ⟨⟨front, rest'⟩, hread, heq⟩ := Option.map_eq_some_iff.mp h
    obtain ⟨hlen, rfl⟩ := readBytes_eq_some.mp hread
    cases heq
    subst hlen
    exact ⟨BigEndian.decode_lt front, by rw [BigEndian.encode_decode]⟩
  · rintro ⟨hlt, rfl⟩
    have hread : readBytes width (BigEndian.encode width v ++ rest) =
        some (BigEndian.encode width v, rest) :=
      readBytes_eq_some.mpr ⟨BigEndian.length_encode width v, rfl⟩
    simp [readUInt, hread, BigEndian.decode_encode_of_lt hlt]

theorem readU8_eq_some {v : Nat} {unread rest : Bytes} :
    readU8 unread = some (v, rest) ↔ v < 2 ^ 8 ∧ unread = writeU8 v ++ rest := readUInt_eq_some

theorem readU16_eq_some {v : Nat} {unread rest : Bytes} :
    readU16 unread = some (v, rest) ↔ v < 2 ^ 16 ∧ unread = writeU16 v ++ rest := readUInt_eq_some

theorem readU32_eq_some {v : Nat} {unread rest : Bytes} :
    readU32 unread = some (v, rest) ↔ v < 2 ^ 32 ∧ unread = writeU32 v ++ rest := readUInt_eq_some

theorem readU64_eq_some {v : Nat} {unread rest : Bytes} :
    readU64 unread = some (v, rest) ↔ v < 2 ^ 64 ∧ unread = writeU64 v ++ rest := readUInt_eq_some

theorem readString_eq_some {s unread rest : Bytes} :
    readString unread = some (s, rest) ↔ s.length < 2 ^ 16 ∧ unread = writeString s ++ rest := by
  unfold readString writeString
  rw [bind_eq_some]
  constructor
  · rintro ⟨len, rest', hlen, hs⟩
    obtain ⟨hlt, rfl⟩ := readU16_eq_some.mp hlen
    obtain ⟨rfl, rfl⟩ := readBytes_eq_some.mp hs
    exact ⟨hlt, by rw [List.append_assoc]⟩
  · rintro ⟨hlt, rfl⟩
    refine ⟨s.length, s ++ rest, readU16_eq_some.mpr ⟨hlt, by rw [List.append_assoc]⟩, ?_⟩
    exact readBytes_eq_some.mpr ⟨rfl, rfl⟩

/-! ### What a parser makes of written fields -/

/-- The parser reads `a` from these bytes, whatever follows them. -/
def Reads {α : Type} (x : Reader α) (bytes : Bytes) (a : α) : Prop :=
  ∀ rest, x (bytes ++ rest) = some (a, rest)

theorem Reads.eq {α : Type} {x : Reader α} {bytes : Bytes} {a : α} (h : Reads x bytes a) :
    x bytes = some (a, []) := by
  simpa using h []

theorem Reads.parse {α : Type} {x : Reader α} {bytes : Bytes} {a : α} (h : Reads x bytes a) :
    parse x bytes = some a := by
  simp [ByteBuffer.parse, h.eq]

theorem Reads.pure {α : Type} (a : α) : Reads (pure a) [] a := fun _ => rfl

theorem Reads.bind {α β : Type} {x : Reader α} {f : α → Reader β} {front back : Bytes} {a : α}
    {b : β} (hx : Reads x front a) (hf : Reads (f a) back b) :
    Reads (x >>= f) (front ++ back) b := by
  intro rest
  refine bind_eq_some.mpr ⟨a, back ++ rest, ?_, hf rest⟩
  rw [List.append_assoc]
  exact hx _

theorem Reads.map {α β : Type} {x : Reader α} {bytes : Bytes} {a : α} (f : α → β)
    (hx : Reads x bytes a) :
    Reads (f <$> x) bytes (f a) :=
  fun rest => map_eq_some.mpr ⟨a, rest, hx rest, rfl⟩

theorem Reads.bytes {bytes : Bytes} {len : Nat} (h : bytes.length = len) :
    Reads (readBytes len) bytes bytes :=
  fun _ => readBytes_eq_some.mpr ⟨h, rfl⟩

theorem Reads.u8 {v : Nat} (h : v < 2 ^ 8) : Reads readU8 (writeU8 v) v :=
  fun _ => readU8_eq_some.mpr ⟨h, rfl⟩
theorem Reads.u16 {v : Nat} (h : v < 2 ^ 16) : Reads readU16 (writeU16 v) v :=
  fun _ => readU16_eq_some.mpr ⟨h, rfl⟩
theorem Reads.u32 {v : Nat} (h : v < 2 ^ 32) : Reads readU32 (writeU32 v) v :=
  fun _ => readU32_eq_some.mpr ⟨h, rfl⟩
theorem Reads.u64 {v : Nat} (h : v < 2 ^ 64) : Reads readU64 (writeU64 v) v :=
  fun _ => readU64_eq_some.mpr ⟨h, rfl⟩

theorem Reads.string {s : Bytes} (h : s.length < 2 ^ 16) : Reads readString (writeString s) s :=
  fun _ => readString_eq_some.mpr ⟨h, rfl⟩

theorem readUInt_lt {width v : Nat} {unread rest : Bytes}
    (h : readUInt width unread = some (v, rest)) :
    v < 256 ^ width := (readUInt_eq_some.mp h).1

end ByteBuffer

end VlanConnect

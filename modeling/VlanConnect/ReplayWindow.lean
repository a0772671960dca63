/-
  VlanConnect/ReplayWindow.lean
  =============================
  **The anti-replay window of `SecureFrameCipher`.**

  The bitmap is a circular window in the sense of `Lib/Window`: the clearing
  loop of `recordCounter` and the whole-bitmap wipe for long jumps both empty
  the slots the maximum passes over.  From the one-step facts the invariant
  `Window.Tracks` goes through every sequence of `decrypt` calls, and with it
  what the receiver accepts: each counter once, and every authentic frame that
  is new and less than `REPLAY_WINDOW` below the maximum.
-/
import VlanConnect.Lib.Window
import VlanConnect.SecureFrame

namespace VlanConnect

namespace ReplayBitmap

/-! ### Bits of the bitmap -/

theorem mask_and (p q : Nat) :
    mask p &&& mask q = if p % 8 = q % 8 then mask q else 0 := by
  have key : ∀ a < 8, ∀ b < 8, ((1 : UInt8) <<< UInt8.ofNat a) &&& (1 <<< UInt8.ofNat b) =
      if a = b then 1 <<< UInt8.ofNat b else (0 : UInt8) := by decide
  exact key _ (Nat.mod_lt _ (by omega)) _ (Nat.mod_lt _ (by omega))

theorem not_mask_and (p q : Nat) :
    ~~~ mask p &&& mask q = if p % 8 = q % 8 then 0 else mask q := by
  have key : ∀ a < 8, ∀ b < 8, ~~~ ((1 : UInt8) <<< UInt8.ofNat a) &&& (1 <<< UInt8.ofNat b) =
      if a = b then (0 : UInt8) else 1 <<< UInt8.ofNat b := by decide
  exact key _ (Nat.mod_lt _ (by omega)) _ (Nat.mod_lt _ (by omega))

theorem mask_ne_zero (p : Nat) : mask p ≠ 0 := by
  have key : ∀ a < 8, ((1 : UInt8) <<< UInt8.ofNat a) ≠ 0 := by decide
  exact key _ (Nat.mod_lt _ (by omega))

theorem and_or_distrib_right (a b c : UInt8) : (a ||| b) &&& c = (a &&& c) ||| (b &&& c) := by
  apply UInt8.eq_of_toBitVec_eq
  simp only [UInt8.toBitVec_and, UInt8.toBitVec_or]
  ext i
  simp [Bool.and_or_distrib_right]

theorem byte_setIfInBounds (m : ReplayBitmap) (p q : Nat) (b : UInt8) (hp : p < REPLAY_WINDOW) :
    byte (m.setIfInBounds (p / 8) b) q = if p / 8 = q / 8 then b else m.byte q := by
  have hlt : p / 8 < REPLAY_WINDOW / 8 := by unfold REPLAY_WINDOW at *; omega
  unfold byte
  rw [Vector.getElem?_setIfInBounds]
  by_cases h : p / 8 = q / 8
  · rw [if_pos h, if_pos (h ▸ hlt), if_pos h]; rfl
  · rw [if_neg h, if_neg h]

/-- Filling one slot changes that slot only. -/
theorem test_set (m : ReplayBitmap) {p q : Nat} (hp : p < REPLAY_WINDOW) :
    (m.set p).test q = (decide (p = q) || m.test q) := by
  unfold test set
  rw [byte_setIfInBounds m p q _ hp]
  by_cases hbyte : p / 8 = q / 8
  · have hsame : m.byte p = m.byte q := by unfold byte; rw [hbyte]
    rw [if_pos hbyte, hsame, and_or_distrib_right, mask_and]
    by_cases hbit : p % 8 = q % 8
    · have hpq : p = q := by omega
      simp [hpq, mask_ne_zero]
    · have hpq : p ≠ q := by rintro rfl; exact hbit rfl
      simp [hbit, hpq]
  · have hpq : p ≠ q := by rintro rfl; exact hbyte rfl
    rw [if_neg hbyte]
    simp [hpq]

theorem test_clear (m : ReplayBitmap) {p q : Nat} (hp : p < REPLAY_WINDOW) :
    (m.clear p).test q = (decide (p ≠ q) && m.test q) := by
  unfold test clear
  rw [byte_setIfInBounds m p q _ hp]
  by_cases hbyte : p / 8 = q / 8
  · have hsame : m.byte p = m.byte q := by unfold byte; rw [hbyte]
    rw [if_pos hbyte, hsame, UInt8.and_assoc, not_mask_and]
    by_cases hbit : p % 8 = q % 8
    · have hpq : p = q := by omega
      simp [hpq]
    · have hpq : p ≠ q := by rintro rfl; exact hbit rfl
      simp [hbit, hpq]
  · have hpq : p ≠ q := by rintro rfl; exact hbyte rfl
    rw [if_neg hbyte]
    simp [hpq]

theorem test_zero (q : Nat) : zero.test q = false := by
  have hbyte : zero.byte q = 0 := by
    unfold byte zero
    rw [Vector.getElem?_replicate]
    split <;> rfl
  simp [test, hbyte]

/-- The clearing loop empties exactly the slots of the counters it passes. -/
theorem test_clearAbove (m : ReplayBitmap) (top shift : Nat) (q : Nat) :
    (m.clearAbove top shift).test q = true ↔
      m.test q = true ∧ ∀ j, top < j → j ≤ top + shift → j % REPLAY_WINDOW ≠ q := by
  induction shift with
  | zero =>
    simp only [clearAbove, Nat.add_zero]
    exact ⟨fun h => ⟨h, fun j hj hle => by omega⟩, fun h => h.1⟩
  | succ shift ih =>
    have hpos : (top + (shift + 1)) % REPLAY_WINDOW < REPLAY_WINDOW := Nat.mod_lt _ (by decide)
    rw [clearAbove, test_clear _ hpos, Bool.and_eq_true, ih, decide_eq_true_eq]
    constructor
    · rintro ⟨hlast, htest, hrest⟩
      refine ⟨htest, fun j hj hle => ?_⟩
      by_cases hj' : j = top + (shift + 1)
      · rw [hj']; exact hlast
      · exact hrest j hj (by omega)
    · rintro ⟨htest, hall⟩
      exact ⟨hall _ (by omega) le_rfl, htest, fun j hj hle => hall j hj (by omega)⟩

end ReplayBitmap

variable (K : Crypto)

namespace SecureFrameCipher

/-! ### The cipher's window -/

def toWindow (c : SecureFrameCipher) : Window where
  started := c.recvStarted
  top := c.recvMaxCounter
  slot := c.replayBitmap.test

theorem isCounterAllowed_iff (c : SecureFrameCipher) (ctr : Nat) :
    c.isCounterAllowed ctr = true ↔ c.toWindow.Admits REPLAY_WINDOW ctr := by
  unfold isCounterAllowed Window.Admits toWindow
  cases hs : c.recvStarted
  · simp
  · by_cases habove : c.recvMaxCounter < ctr
    · simp [habove]
    · by_cases hold : REPLAY_WINDOW ≤ c.recvMaxCounter - ctr
      · simp [habove, hold]
      · simp [habove, hold, not_le.mp hold]

/-- The fields that `recordCounter` leaves alone. -/
structure SameKeys (c c' : SecureFrameCipher) : Prop where
  initialized : c'.initialized = c.initialized
  sendKey : c'.sendKey = c.sendKey
  recvKey : c'.recvKey = c.recvKey
  sendNonceSeed : c'.sendNonceSeed = c.sendNonceSeed
  recvNonceSeed : c'.recvNonceSeed = c.recvNonceSeed

theorem SameKeys.refl (c : SecureFrameCipher) : SameKeys c c := ⟨rfl, rfl, rfl, rfl, rfl⟩

theorem SameKeys.trans {a b c : SecureFrameCipher} (h : SameKeys a b) (h' : SameKeys b c) :
    SameKeys a c :=
  ⟨h'.1.trans h.1, h'.2.trans h.2, h'.3.trans h.3, h'.4.trans h.4, h'.5.trans h.5⟩

theorem SameKeys.symm {a b : SecureFrameCipher} (h : SameKeys a b) : SameKeys b a :=
  ⟨h.1.symm, h.2.symm, h.3.symm, h.4.symm, h.5.symm⟩

theorem markCounter_eq (c : SecureFrameCipher) (ctr : Nat) :
    (c.markCounter ctr).2 = { c with replayBitmap := (c.markCounter ctr).2.replayBitmap } := by
  unfold markCounter
  dsimp only
  split <;> rfl

theorem recordCounter_sameKeys (c : SecureFrameCipher) (ctr : Nat) :
    SameKeys c (c.recordCounter ctr).2 ∧ (c.recordCounter ctr).2.sendCounter = c.sendCounter := by
  unfold recordCounter
  split
  · rw [markCounter_eq]; exact ⟨⟨rfl, rfl, rfl, rfl, rfl⟩, rfl⟩
  · split
    · rw [markCounter_eq]; exact ⟨⟨rfl, rfl, rfl, rfl, rfl⟩, rfl⟩
    · split
      · exact ⟨SameKeys.refl c, rfl⟩
      · rw [markCounter_eq]; exact ⟨⟨rfl, rfl, rfl, rfl, rfl⟩, rfl⟩

/-- The slots after `markCounter`, whether the slot of `ctr` was filled or not. -/
theorem markCounter_slot (c : SecureFrameCipher) (ctr i : Nat) :
    (c.markCounter ctr).2.replayBitmap.test i = true ↔
      i = ctr % REPLAY_WINDOW ∨ c.replayBitmap.test i = true := by
  have hpos : ctr % REPLAY_WINDOW < REPLAY_WINDOW := Nat.mod_lt _ (by decide)
  unfold markCounter
  dsimp only
  split
  case isTrue hfull =>
    constructor
    · exact Or.inr
    · rintro (rfl | h)
      · exact hfull
      · exact h
  case isFalse =>
    dsimp only
    rw [ReplayBitmap.test_set _ hpos, Bool.or_eq_true, decide_eq_true_eq, eq_comm]

theorem markCounter_recv (c : SecureFrameCipher) (ctr : Nat) :
    (c.markCounter ctr).2.recvStarted = c.recvStarted ∧
      (c.markCounter ctr).2.recvMaxCounter = c.recvMaxCounter := by
  rw [markCounter_eq]
  exact ⟨rfl, rfl⟩

/-- **One recording step.**  `recordCounter` on an admitted counter is a
    recording in the sense of `Window`. -/
theorem recordCounter_records {c : SecureFrameCipher} {ctr : Nat}
    (hadm : c.toWindow.Admits REPLAY_WINDOW ctr) :
    Window.Records REPLAY_WINDOW c.toWindow (c.recordCounter ctr).2.toWindow ctr := by
  unfold recordCounter
  cases hs : c.recvStarted
  · -- the first frame after the key install
    rw [if_pos (by simp)]
    obtain ⟨hstart, hmax⟩ := markCounter_recv
      { c with recvStarted := true, recvMaxCounter := ctr, replayBitmap := ReplayBitmap.zero } ctr
    refine ⟨hstart, by simpa [toWindow, hs] using hmax, fun i _ => ?_⟩
    simp only [toWindow, markCounter_slot, ReplayBitmap.test_zero, hs]
    simp
  · rw [if_neg (by simp)]
    by_cases habove : c.recvMaxCounter < ctr
    · rw [if_pos habove]
      dsimp only
      set bits := if REPLAY_WINDOW ≤ ctr - c.recvMaxCounter then ReplayBitmap.zero
        else c.replayBitmap.clearAbove c.recvMaxCounter (ctr - c.recvMaxCounter) with hbits
      obtain ⟨hstart, hmax⟩ := markCounter_recv
        { c with recvMaxCounter := ctr, replayBitmap := bits } ctr
      refine ⟨by simpa [toWindow, hs] using hstart, ?_, fun i hi => ?_⟩
      · simp only [toWindow, hs, if_true, max_eq_right habove.le]
        rw [hs] at hmax
        exact hmax
      · simp only [toWindow, markCounter_slot, hs, true_and]
        refine or_congr_right ?_
        -- wiping the bitmap empties what the loop would have emptied
        by_cases hjump : REPLAY_WINDOW ≤ ctr - c.recvMaxCounter
        · obtain ⟨j, hj, hjc, hji⟩ := Window.exists_mod_eq REPLAY_WINDOW hi hjump
          simp only [hbits, if_pos hjump, ReplayBitmap.test_zero, Bool.false_eq_true, false_iff]
          rintro ⟨_, hall⟩
          exact hall j hj hjc hji
        · simp only [hbits, if_neg hjump, ReplayBitmap.test_clearAbove]
          rw [Nat.add_sub_cancel' habove.le]
    · have hin : c.recvMaxCounter - ctr < REPLAY_WINDOW := by
        rcases hadm with h | h | h
        · simp [toWindow, hs] at h
        · exact absurd h habove
        · exact h.1
      rw [if_neg habove, if_neg (not_le.mpr hin)]
      obtain ⟨hstart, hmax⟩ := markCounter_recv c ctr
      refine ⟨by simpa [toWindow, hs] using hstart, ?_, fun i _ => ?_⟩
      · simp only [toWindow, hs, if_true, max_eq_left (not_lt.mp habove)]
        exact hmax
      · simp only [toWindow, markCounter_slot, hs, true_and]
        refine or_congr_right ⟨fun h => ⟨h, fun j hj hjc => ?_⟩, fun h => h.1⟩
        omega

/-! ### One `decrypt` call -/

/-- The frame that `encrypt` lays out for a counter. -/
def lockFrame (key seed : Bytes) (ctr : Nat) (ad plain : Bytes) : Bytes :=
  let (cipher, mac) := K.aeadLock key (buildNonce seed ctr) ad plain
  writeU64BE ctr ++ cipher ++ mac

/-- `frame` was locked under the receive key, with the nonce of its counter. -/
def Authentic (c : SecureFrameCipher) (frame ad plain : Bytes) : Prop :=
  ∃ ctr < 2 ^ 64, frame = lockFrame K c.recvKey c.recvNonceSeed ctr ad plain

theorem readU64BE_lockFrame (key seed : Bytes) {ctr : Nat} (h : ctr < 2 ^ 64) (ad plain : Bytes) :
    readU64BE (lockFrame K key seed ctr ad plain) = ctr := by
  unfold lockFrame readU64BE writeU64BE
  have hlen := BigEndian.length_encode 8 ctr
  dsimp only
  rw [List.append_assoc, List.take_left' hlen]
  exact BigEndian.decode_encode_of_lt (by norm_num; exact h)

/-- The three parts of a frame that is long enough. -/
theorem frame_split {frame : Bytes} (h : SECURE_FRAME_OVERHEAD ≤ frame.length) :
    let cipherLen := frame.length - SECURE_COUNTER_SIZE - SECURE_MAC_SIZE
    writeU64BE (readU64BE frame) ++ (frame.drop SECURE_COUNTER_SIZE).take cipherLen ++
      frame.drop (SECURE_COUNTER_SIZE + cipherLen) = frame := by
  intro cipherLen
  have hhead : writeU64BE (readU64BE frame) = frame.take SECURE_COUNTER_SIZE := by
    have hlen : (frame.take 8).length = 8 := by
      simp only [SECURE_FRAME_OVERHEAD, SECURE_COUNTER_SIZE] at h
      simp; omega
    have := BigEndian.encode_decode (frame.take 8)
    rwa [hlen] at this
  rw [hhead, List.append_assoc, ← List.drop_drop, List.take_append_drop, List.take_append_drop]

theorem authentic_iff (c : SecureFrameCipher) (frame ad plain : Bytes) :
    c.Authentic K frame ad plain ↔
      SECURE_FRAME_OVERHEAD ≤ frame.length ∧
      K.aeadLock c.recvKey (buildNonce c.recvNonceSeed (readU64BE frame)) ad plain =
        ((frame.drop SECURE_COUNTER_SIZE).take
            (frame.length - SECURE_COUNTER_SIZE - SECURE_MAC_SIZE),
          frame.drop (SECURE_COUNTER_SIZE +
            (frame.length - SECURE_COUNTER_SIZE - SECURE_MAC_SIZE))) := by
  constructor
  · rintro ⟨ctr, hctr, rfl⟩
    rw [readU64BE_lockFrame K _ _ hctr]
    unfold lockFrame
    have hm := K.length_mac c.recvKey (buildNonce c.recvNonceSeed ctr) ad plain
    rcases hlock : K.aeadLock c.recvKey (buildNonce c.recvNonceSeed ctr) ad plain with ⟨cipher, mac⟩
    rw [hlock] at hm
    have hw : (writeU64BE ctr).length = SECURE_COUNTER_SIZE := BigEndian.length_encode _ _
    have hlen : (writeU64BE ctr ++ cipher ++ mac).length - SECURE_COUNTER_SIZE - SECURE_MAC_SIZE =
        cipher.length := by
      simp only [List.length_append, hw, hm]
      omega
    refine ⟨?_, Prod.ext ?_ ?_⟩
    · simp only [List.length_append, hw, hm, SECURE_FRAME_OVERHEAD]
      omega
    · dsimp only
      rw [hlen, List.append_assoc, List.drop_left' hw, List.take_left' rfl]
    · dsimp only
      rw [hlen, List.drop_left' (by simp only [List.length_append, hw])]
  · rintro ⟨hlen, hlock⟩
    refine ⟨readU64BE frame, readU64BE_lt frame, ?_⟩
    unfold lockFrame
    rw [hlock]
    exact (frame_split hlen).symm

/-- **What `decrypt` accepts.**  An initialised cipher returns a text exactly
    for an authentic frame of that text whose counter the window admits. -/
theorem decrypt_eq_some_iff {c : SecureFrameCipher} (hinit : c.initialized = true)
    (frame ad plain : Bytes) :
    (c.decrypt K frame ad).1 = some plain ↔
      c.toWindow.Admits REPLAY_WINDOW (readU64BE frame) ∧ c.Authentic K frame ad plain := by
  rw [authentic_iff, ← isCounterAllowed_iff, ← K.aeadUnlock_iff]
  unfold decrypt
  by_cases hlen : frame.length < SECURE_FRAME_OVERHEAD
  · simp [hlen]
  · by_cases hadm : c.isCounterAllowed (readU64BE frame) = true
    · simp only [hinit, hlen, hadm, not_true_eq_false, or_self, if_false, true_and,
        not_lt.mp hlen]
      split <;> simp_all
    · simp [hinit, hlen, hadm]

/-- A rejected frame leaves the cipher as it was; an accepted one has its
    counter recorded. -/
theorem decrypt_cases (c : SecureFrameCipher) (frame ad : Bytes) :
    c.decrypt K frame ad = (none, c) ∨
      ∃ plain, c.decrypt K frame ad = (some plain, (c.recordCounter (readU64BE frame)).2) := by
  unfold decrypt
  split
  · exact Or.inl rfl
  · dsimp only
    split
    · exact Or.inl rfl
    · split
      · exact Or.inl rfl
      · exact Or.inr ⟨_, rfl⟩

theorem decrypt_none {c : SecureFrameCipher} {frame ad : Bytes}
    (h : (c.decrypt K frame ad).1 = none) : (c.decrypt K frame ad).2 = c := by
  rcases c.decrypt_cases K frame ad with hd | ⟨plain, hd⟩
  · rw [hd]
  · rw [hd] at h
    cases h

theorem initialized_of_decrypt {c : SecureFrameCipher} {frame ad plain : Bytes}
    (h : (c.decrypt K frame ad).1 = some plain) : c.initialized = true := by
  by_contra hinit
  simp [decrypt, hinit] at h

/-! ### Sequences of `decrypt` calls -/

/-- One `decrypt` call on a frame with its associated data; the second
    component collects the counters accepted so far, latest first. -/
def receive (st : SecureFrameCipher × List Nat) (input : Bytes × Bytes) :
    SecureFrameCipher × List Nat :=
  match st.1.decrypt K input.1 input.2 with
  | (some _, c) => (c, readU64BE input.1 :: st.2)
  | (none, c) => (c, st.2)

def receiveAll (c : SecureFrameCipher) (inputs : List (Bytes × Bytes)) :
    SecureFrameCipher × List Nat :=
  inputs.foldl (receive K) (c, [])

/-- What a run of `decrypt` calls keeps: the keys of the start, and a window
    that tracks the accepted counters, none of them twice. -/
structure ReceiverInv (c₀ : SecureFrameCipher) (st : SecureFrameCipher × List Nat) : Prop where
  keys : SameKeys c₀ st.1
  tracks : Window.Tracks REPLAY_WINDOW st.1.toWindow st.2
  nodup : st.2.Nodup

theorem receive_inv {c₀ : SecureFrameCipher} {st : SecureFrameCipher × List Nat}
    (h : ReceiverInv c₀ st) (input : Bytes × Bytes) : ReceiverInv c₀ (receive K st input) := by
  unfold receive
  rcases st.1.decrypt_cases K input.1 input.2 with hd | ⟨plain, hd⟩
  · rw [hd]; exact h
  · have hinit : st.1.initialized = true := initialized_of_decrypt K (by rw [hd])
    have hadm := ((decrypt_eq_some_iff K hinit input.1 input.2 plain).mp (by rw [hd])).1
    rw [hd]
    refine ⟨h.keys.trans (recordCounter_sameKeys _ _).1, ?_, ?_⟩
    · exact Window.tracks_of_records (by decide) h.tracks hadm (recordCounter_records hadm)
    · exact List.nodup_cons.mpr ⟨h.tracks.not_mem hadm, h.nodup⟩

theorem receiveAll_inv {c : SecureFrameCipher} (hfresh : c.recvStarted = false)
    (inputs : List (Bytes × Bytes)) : ReceiverInv c (receiveAll K c inputs) := by
  refine List.foldlRecOn inputs (receive K) ?_ (fun st hst input _ => receive_inv K hst input)
  exact ⟨SameKeys.refl c, Window.tracks_nil _ hfresh, List.nodup_nil⟩

/-! ### Key installs -/

/-- The cipher holds the keys that `init` would install. -/
def Installed (c : SecureFrameCipher) (master : Bytes) (clientSide : Bool) (context : String) :
    Prop :=
  c.initialized = true ∧
  c.sendKey = deriveSecureKey K master
    ("VLan-" ++ context ++ if clientSide then "-c2s-key" else "-s2c-key") ∧
  c.recvKey = deriveSecureKey K master
    ("VLan-" ++ context ++ if clientSide then "-s2c-key" else "-c2s-key")

instance (c : SecureFrameCipher) (master : Bytes) (clientSide : Bool) (context : String) :
    Decidable (c.Installed K master clientSide context) :=
  inferInstanceAs (Decidable (_ ∧ _ ∧ _))

/-- The cipher as a key install leaves it. -/
def install (master : Bytes) (clientSide : Bool) (context : String) : SecureFrameCipher where
  initialized := true
  sendKey := deriveSecureKey K master
    ("VLan-" ++ context ++ if clientSide then "-c2s-key" else "-s2c-key")
  recvKey := deriveSecureKey K master
    ("VLan-" ++ context ++ if clientSide then "-s2c-key" else "-c2s-key")
  sendNonceSeed := (deriveSecureKey K master
    ("VLan-" ++ context ++ if clientSide then "-c2s-nonce" else "-s2c-nonce")).take 16
  recvNonceSeed := (deriveSecureKey K master
    ("VLan-" ++ context ++ if clientSide then "-s2c-nonce" else "-c2s-nonce")).take 16

/-- `init` with the installed keys does nothing; any other `init` starts over. -/
theorem init_eq (c : SecureFrameCipher) (master : Bytes) (clientSide : Bool) (context : String) :
    c.init K master clientSide context =
      if c.Installed K master clientSide context then c
      else install K master clientSide context := by
  cases clientSide <;> rfl

theorem install_installed (master : Bytes) (clientSide : Bool) (context : String) :
    (install K master clientSide context).Installed K master clientSide context := ⟨rfl, rfl, rfl⟩

theorem Installed.of_sameKeys {c c' : SecureFrameCipher} {master : Bytes} {clientSide : Bool}
    {context : String} (h : c.Installed K master clientSide context) (hk : SameKeys c c') :
    c'.Installed K master clientSide context :=
  ⟨hk.initialized.trans h.1, hk.sendKey.trans h.2.1, hk.recvKey.trans h.2.2⟩

theorem Authentic.of_sameKeys {c c' : SecureFrameCipher} {frame ad plain : Bytes}
    (h : c.Authentic K frame ad plain) (hk : SameKeys c c') : c'.Authentic K frame ad plain := by
  obtain ⟨ctr, hctr, hframe⟩ := h
  exact ⟨ctr, hctr, by rw [hframe, hk.recvKey, hk.recvNonceSeed]⟩

/-! ### What the receiver accepts -/

/-- **The anti-replay window.**  After a key install and any sequence of
    `decrypt` calls: no counter was accepted twice; the next frame, if it is
    authentic and new, is accepted when it comes first, lies above the largest
    accepted counter or less than 2048 below it; a counter 2048 or more below
    is rejected; and a rejected frame changes nothing. -/
theorem decrypt_window (c₀ : SecureFrameCipher) (master : Bytes) (clientSide : Bool)
    (context : String) (hnew : ¬ c₀.Installed K master clientSide context)
    (inputs : List (Bytes × Bytes)) :
    let c₁ := c₀.init K master clientSide context
    let c := (receiveAll K c₁ inputs).1
    let accepted := (receiveAll K c₁ inputs).2
    accepted.Nodup ∧
    (∀ frame ad plain, c₁.Authentic K frame ad plain → readU64BE frame ∉ accepted →
      (accepted = [] ∨ ∃ m, Window.IsLargest accepted m ∧
        (m < readU64BE frame ∨ m - readU64BE frame < 2048)) →
      (c.decrypt K frame ad).1 = some plain) ∧
    (∀ frame ad m, Window.IsLargest accepted m → readU64BE frame + 2048 ≤ m →
      (c.decrypt K frame ad).1 = none) ∧
    (∀ frame ad, (c.decrypt K frame ad).1 = none → (c.decrypt K frame ad).2 = c) := by
  intro c₁ c accepted
  have hc₁ : c₁ = install K master clientSide context := by
    show c₀.init K master clientSide context = _
    rw [init_eq, if_neg hnew]
  have hinv : ReceiverInv c₁ (receiveAll K c₁ inputs) :=
    receiveAll_inv K (by rw [hc₁]; rfl) inputs
  have hinit : c.initialized = true := by
    rw [hinv.keys.initialized, hc₁]; rfl
  refine ⟨hinv.nodup, ?_, ?_, fun frame ad h => decrypt_none K h⟩
  · intro frame ad plain hauth hfresh hin
    rw [decrypt_eq_some_iff K hinit]
    exact ⟨hinv.tracks.admits hfresh hin, hauth.of_sameKeys K hinv.keys⟩
  · intro frame ad m hm hold
    cases hd : (c.decrypt K frame ad).1 with
    | none => rfl
    | some plain =>
      have hadm := ((decrypt_eq_some_iff K hinit frame ad plain).mp hd).1
      exact absurd hadm (hinv.tracks.not_admits (by decide) hm hold)

theorem decrypt_window_replayed :
    let key := deriveSecureKey Crypto.sample [1] "VLan-udp-s2c-key"
    let seed := (deriveSecureKey Crypto.sample [1] "VLan-udp-s2c-nonce").take 16
    let frame := lockFrame Crypto.sample key seed 5 [] [9]
    ¬ ({} : SecureFrameCipher).Installed Crypto.sample [1] true "udp" ∧
    (receiveAll Crypto.sample (({} : SecureFrameCipher).init Crypto.sample [1] true "udp")
      [(frame, []), (frame, [])]).2.Nodup :=
  ⟨by decide, (decrypt_window Crypto.sample {} [1] true "udp" (by decide) _).1⟩

end SecureFrameCipher

end VlanConnect

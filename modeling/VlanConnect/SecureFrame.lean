/-
  VlanConnect/SecureFrame.lean
  ============================
  **The encrypted frame layer** (`common/secure_frame.h`).

  The primitives of `3rdparty/monocypher` are a parameter, `Crypto`: the two
  BLAKE2b digests, X25519, and the AEAD.  What the code relies on is carried as
  laws of the structure and holds of the vendored implementation for every
  input: digests and MACs have their fixed sizes, the AEAD keeps the length of
  the text, and `crypto_aead_unlock` returns a text exactly when the cipher
  text and MAC are what `crypto_aead_lock` makes of it.

  Counters are natural numbers: the receive side reads them from 8 bytes and
  the send side stops at `UINT64_MAX`, so neither leaves the 64-bit range.
-/
import VlanConnect.Bytes

namespace VlanConnect

def SECURE_KEY_SIZE : Nat := 32
def SECURE_MAC_SIZE : Nat := 16
def SECURE_COUNTER_SIZE : Nat := 8
def SECURE_SESSION_ID_SIZE : Nat := 4
def SECURE_FRAME_OVERHEAD : Nat := SECURE_COUNTER_SIZE + SECURE_MAC_SIZE
def SERVER_AUTH_TIMEOUT_SEC : Nat := 120
def REPLAY_WINDOW : Nat := 2048
def UINT64_MAX : Nat := 2 ^ 64 - 1

/-- The primitives of the vendored crypto library. -/
structure Crypto where
  blake2b : (msg : Bytes) → Bytes
  blake2bKeyed : (key msg : Bytes) → Bytes
  x25519 : (secretKey publicKey : Bytes) → Bytes
  x25519PublicKey : (secretKey : Bytes) → Bytes
  aeadLock : (key nonce ad plain : Bytes) → Bytes × Bytes
  aeadUnlock : (key nonce ad cipher mac : Bytes) → Option Bytes
  length_blake2bKeyed : ∀ key msg, (blake2bKeyed key msg).length = SECURE_KEY_SIZE
  length_aeadLock : ∀ key nonce ad plain, (aeadLock key nonce ad plain).1.length = plain.length
  length_mac : ∀ key nonce ad plain, (aeadLock key nonce ad plain).2.length = SECURE_MAC_SIZE
  aeadUnlock_iff : ∀ key nonce ad cipher mac plain,
    aeadUnlock key nonce ad cipher mac = some plain ↔ aeadLock key nonce ad plain = (cipher, mac)

/-! ### An instance to run the model on

  A toy instance of the laws: digests are polynomial checksums, the text is
  xored with one byte of the checksum of key and nonce, and the MAC is the
  checksum of everything. -/

namespace Crypto

def checksum (msg : Bytes) : Nat := msg.foldl (fun h b => (h * 257 + b.toNat + 1) % 2 ^ 256) 7

def samplePad (key nonce : Bytes) : UInt8 := UInt8.ofNat (checksum (key ++ nonce))

def sampleMac (key nonce ad cipher : Bytes) : Bytes :=
  BigEndian.encode 16 (checksum (key ++ nonce ++ ad ++ cipher))

def sample : Crypto where
  blake2b msg := BigEndian.encode 32 (checksum msg)
  blake2bKeyed key msg := BigEndian.encode 32 (checksum (key ++ msg))
  x25519 secretKey publicKey :=
    BigEndian.encode 32 (BigEndian.decode secretKey * BigEndian.decode publicKey)
  x25519PublicKey secretKey := BigEndian.encode 32 (BigEndian.decode secretKey * 9)
  aeadLock key nonce ad plain :=
    let cipher := plain.map (· ^^^ samplePad key nonce)
    (cipher, sampleMac key nonce ad cipher)
  aeadUnlock key nonce ad cipher mac :=
    if mac = sampleMac key nonce ad cipher then some (cipher.map (· ^^^ samplePad key nonce))
    else none
  length_blake2bKeyed _ _ := BigEndian.length_encode _ _
  length_aeadLock _ _ _ _ := List.length_map _
  length_mac _ _ _ _ := BigEndian.length_encode _ _
  aeadUnlock_iff key nonce ad cipher mac plain := by
    have hinv : ∀ text : Bytes,
        (text.map (· ^^^ samplePad key nonce)).map (· ^^^ samplePad key nonce) = text := by
      intro text
      rw [List.map_map]
      refine (List.map_congr_left fun b _ => ?_).trans (List.map_id text)
      rw [Function.comp, UInt8.xor_assoc, UInt8.xor_self, UInt8.xor_zero, id]
    constructor
    · intro h
      split at h
      case isTrue hmac =>
        cases h
        simp [hinv, hmac]
      case isFalse => cases h
    · intro h
      cases h
      simp [hinv]

end Crypto

variable (K : Crypto)

def readU32BE (p : Bytes) : Nat := BigEndian.decode (p.take 4)
def readU64BE (p : Bytes) : Nat := BigEndian.decode (p.take 8)
def writeU64BE (v : Nat) : Bytes := BigEndian.encode 8 v
def writeU32BE (v : Nat) : Bytes := BigEndian.encode 4 v

theorem readU64BE_lt (p : Bytes) : readU64BE p < 2 ^ 64 := by
  have h := BigEndian.decode_lt (p.take 8)
  have hlen : (p.take 8).length ≤ 8 := by simp
  have hpow : (256 : Nat) ^ (p.take 8).length ≤ 256 ^ 8 := Nat.pow_le_pow_right (by omega) hlen
  have : (256 : Nat) ^ 8 = 2 ^ 64 := by norm_num
  unfold readU64BE
  omega

/-! ### Key derivation -/

def deriveSecureKey (master : Bytes) (domain : String) : Bytes :=
  K.blake2bKeyed master (ascii domain)

/-- The session id is the first word of a derived key; zero is reserved. -/
def deriveSessionId (master : Bytes) : Nat :=
  let sid := readU32BE (deriveSecureKey K master "VLan-session-id")
  if sid = 0 then 1 else sid

def deriveSecureMaster
    (sharedSecret authHash clientNonce serverNonce clientPub serverPub salt : Bytes)
    (version profile : Nat) : Bytes :=
  K.blake2b (ascii "VLan-secure-master-v9" ++ BigEndian.encode 2 version ++
    BigEndian.encode 1 profile ++
    salt ++ sharedSecret ++ authHash ++ clientNonce ++ serverNonce ++ clientPub ++ serverPub)

def validX25519Shared (shared : Bytes) : Bool :=
  decide (shared ≠ List.replicate 32 0)

def computeClientAuthProof (master authHash : Bytes) : Bytes :=
  K.blake2bKeyed authHash master

def computeServerAuthProof (master authHash : Bytes) : Bytes :=
  K.blake2bKeyed authHash (ascii "VLan-server-proof" ++ master)

/-- The answer to a room challenge (`common/payload_cipher.h`). -/
def computeChallengeResponse (authHash challenge : Bytes) : Bytes :=
  K.blake2bKeyed authHash challenge

/-! ### The replay bitmap -/

/-- `uint8_t m_replayBitmap[REPLAY_WINDOW / 8]`. -/
abbrev ReplayBitmap := Vector UInt8 (REPLAY_WINDOW / 8)

namespace ReplayBitmap

def zero : ReplayBitmap := Vector.replicate _ 0

/-- `1u << (pos % 8)` as a byte. -/
def mask (pos : Nat) : UInt8 := 1 <<< UInt8.ofNat (pos % 8)

def byte (m : ReplayBitmap) (pos : Nat) : UInt8 := (m[pos / 8]?).getD 0

def test (m : ReplayBitmap) (pos : Nat) : Bool := m.byte pos &&& mask pos != 0

def set (m : ReplayBitmap) (pos : Nat) : ReplayBitmap :=
  m.setIfInBounds (pos / 8) (m.byte pos ||| mask pos)

def clear (m : ReplayBitmap) (pos : Nat) : ReplayBitmap :=
  m.setIfInBounds (pos / 8) (m.byte pos &&& ~~~ mask pos)

/-- The loop that empties the slots of `top + 1 … top + shift`. -/
def clearAbove (m : ReplayBitmap) (top : Nat) : (shift : Nat) → ReplayBitmap
  | 0 => m
  | shift + 1 => (m.clearAbove top shift).clear ((top + (shift + 1)) % REPLAY_WINDOW)

end ReplayBitmap

/-! ### The cipher -/

structure SecureFrameCipher where
  sendKey : Bytes := List.replicate 32 0
  recvKey : Bytes := List.replicate 32 0
  sendNonceSeed : Bytes := List.replicate 16 0
  recvNonceSeed : Bytes := List.replicate 16 0
  sendCounter : Nat := 0
  recvMaxCounter : Nat := 0
  recvStarted : Bool := false
  initialized : Bool := false
  replayBitmap : ReplayBitmap := ReplayBitmap.zero
deriving DecidableEq

namespace SecureFrameCipher

/-- `reset` wipes every field: the cipher is as after construction. -/
def reset (_ : SecureFrameCipher) : SecureFrameCipher := {}

def init (c : SecureFrameCipher) (master : Bytes) (clientSide : Bool) (context : String) :
    SecureFrameCipher :=
  let namePrefix := "VLan-" ++ context
  let c2s := deriveSecureKey K master (namePrefix ++ "-c2s-key")
  let s2c := deriveSecureKey K master (namePrefix ++ "-s2c-key")
  let c2sNonce := deriveSecureKey K master (namePrefix ++ "-c2s-nonce")
  let s2cNonce := deriveSecureKey K master (namePrefix ++ "-s2c-nonce")
  let sendKey := if clientSide then c2s else s2c
  let recvKey := if clientSide then s2c else c2s
  -- reinstalling a session never resets its counters or replay window
  if c.initialized ∧ c.sendKey = sendKey ∧ c.recvKey = recvKey then c
  else if clientSide then
    { c.reset with
      initialized := true, sendKey := c2s, recvKey := s2c,
      sendNonceSeed := c2sNonce.take 16, recvNonceSeed := s2cNonce.take 16 }
  else
    { c.reset with
      initialized := true, sendKey := s2c, recvKey := c2s,
      sendNonceSeed := s2cNonce.take 16, recvNonceSeed := c2sNonce.take 16 }

def buildNonce (seed : Bytes) (counter : Nat) : Bytes := writeU64BE counter ++ seed

/-- The frame, empty when the cipher is not initialised or its counter is used
    up (the last value is reserved, so the counter never wraps). -/
def encrypt (c : SecureFrameCipher) (plain ad : Bytes) : Bytes × SecureFrameCipher :=
  if ¬ c.initialized ∨ c.sendCounter = UINT64_MAX then ([], c)
  else
    let ctr := c.sendCounter
    let (cipher, mac) := K.aeadLock c.sendKey (buildNonce c.sendNonceSeed ctr) ad plain
    (writeU64BE ctr ++ cipher ++ mac, { c with sendCounter := ctr + 1 })

/-- The tail of `recordCounter`: fill the slot of `ctr` unless it is filled. -/
def markCounter (c : SecureFrameCipher) (ctr : Nat) : Bool × SecureFrameCipher :=
  let pos := ctr % REPLAY_WINDOW
  if c.replayBitmap.test pos then (false, c)
  else (true, { c with replayBitmap := c.replayBitmap.set pos })

def recordCounter (c : SecureFrameCipher) (ctr : Nat) : Bool × SecureFrameCipher :=
  if ¬ c.recvStarted then
    markCounter { c with
      recvStarted := true, recvMaxCounter := ctr, replayBitmap := ReplayBitmap.zero } ctr
  else if c.recvMaxCounter < ctr then
    let shift := ctr - c.recvMaxCounter
    markCounter { c with
      recvMaxCounter := ctr
      replayBitmap :=
        if REPLAY_WINDOW ≤ shift then ReplayBitmap.zero
        else c.replayBitmap.clearAbove c.recvMaxCounter shift } ctr
  else if REPLAY_WINDOW ≤ c.recvMaxCounter - ctr then (false, c)
  else c.markCounter ctr

def isCounterAllowed (c : SecureFrameCipher) (ctr : Nat) : Bool :=
  if ¬ c.recvStarted then true
  else if c.recvMaxCounter < ctr then true
  else if REPLAY_WINDOW ≤ c.recvMaxCounter - ctr then false
  else !c.replayBitmap.test (ctr % REPLAY_WINDOW)

/-- The text of an accepted frame (`none` when `decrypt` returns false).  The
    result of `recordCounter` is not looked at, as in the source. -/
def decrypt (c : SecureFrameCipher) (frame ad : Bytes) : Option Bytes × SecureFrameCipher :=
  if ¬ c.initialized ∨ frame.length < SECURE_FRAME_OVERHEAD then (none, c)
  else
    let ctr := readU64BE frame
    if ¬ c.isCounterAllowed ctr then (none, c)
    else
      let cipherLen := frame.length - SECURE_COUNTER_SIZE - SECURE_MAC_SIZE
      let cipher := (frame.drop SECURE_COUNTER_SIZE).take cipherLen
      let mac := frame.drop (SECURE_COUNTER_SIZE + cipherLen)
      match K.aeadUnlock c.recvKey (buildNonce c.recvNonceSeed ctr) ad cipher mac with
      | none => (none, c)
      | some plain => (some plain, (c.recordCounter ctr).2)

end SecureFrameCipher

end VlanConnect

/-
  VlanConnect/ClientWire.lean
  ===========================
  **Client messages on the wire**: the validator of the server
  (`server/src/client_message_validator.h`), the parsers of its handlers and
  the bodies the client builds agree.

  Each message has a written form; the validator accepts exactly the written
  forms of valid requests, and the handler's parser reads the request back.
-/
import VlanConnect.Server.Handlers
import VlanConnect.Client.Requests

namespace VlanConnect

open ByteBuffer Server

/-! ### Valid requests and their written form -/

structure ResumeRequest.Valid (r : ResumeRequest) : Prop where
  roomId : r.roomId < 2 ^ 32
  peerId : r.peerId < 2 ^ 32
  token : r.token.length = RECONNECT_TOKEN_SIZE
  nonzero : validResumeRequest r = true

def loginWire (req : LoginRequest) : Bytes :=
  writeString req.name ++ (writeU16 req.clientVersion ++
    match req.resume with
    | some r => writeU8 1 ++ resumeBody r
    | none => writeU8 0)

structure ValidLogin (req : LoginRequest) : Prop where
  name : isValidPlayerName req.name = true
  clientVersion : req.clientVersion < 2 ^ 16
  resume : ∀ r ∈ req.resume, r.Valid

/-- A room over TCP relay has no error correction. -/
def RoomTrafficPolicy.Valid (p : RoomTrafficPolicy) : Prop :=
  p.transportMode = .relayTcp → p.fecMode = .none

instance (p : RoomTrafficPolicy) : Decidable p.Valid := inferInstanceAs (Decidable (_ → _))

def createWire (req : CreateRequest) : Bytes :=
  writeString req.roomName ++
    (writeU8 req.maxPlayers ++ (writePolicy req.tcpPolicy ++ (writePolicy req.udpPolicy ++
    (writeU8 req.passwordProtected ++
      ((if req.passwordProtected ≠ 0 then req.pwdSalt ++ req.pwdHash else []) ++
        writeU16 req.mtu)))))

structure ValidCreate (req : CreateRequest) : Prop where
  roomName : isValidRoomName req.roomName = true
  maxPlayers : validMaxPlayers req.maxPlayers = true
  tcpPolicy : req.tcpPolicy.Valid
  udpPolicy : req.udpPolicy.Valid
  mtu : isValidRoomMtuValue req.mtu = true
  secret : req.passwordProtected = 1 ∧ req.pwdSalt.length = AUTH_SALT_SIZE ∧
    req.pwdHash.length = 32 ∨
    req.passwordProtected = 0 ∧ req.pwdSalt = List.replicate AUTH_SALT_SIZE 0 ∧
    req.pwdHash = List.replicate 32 0

/-! ### Fields -/

theorem length_lt_of_playerName {name : Bytes} (h : isValidPlayerName name = true) :
    name.length < 2 ^ 16 := by
  simp only [isValidPlayerName, Bool.and_eq_true, decide_eq_true_eq] at h
  have hmax := h.1.2
  unfold MAX_PLAYER_NAME_LEN at hmax
  omega

theorem length_lt_of_roomName {name : Bytes} (h : isValidRoomName name = true) :
    name.length < 2 ^ 16 := by
  have hmax := (of_decide_eq_true h).2
  unfold MAX_ROOM_NAME_LEN at hmax
  omega

theorem lt_of_maxPlayers {n : Nat} (h : validMaxPlayers n = true) : n < 2 ^ 8 := by
  have hmax := (of_decide_eq_true h).2
  unfold MAX_PLAYERS at hmax
  omega

theorem lt_of_roomMtu {mtu : Nat} (h : isValidRoomMtuValue mtu = true) : mtu < 2 ^ 16 := by
  rcases of_decide_eq_true h with rfl | rfl | rfl <;> decide

theorem transportMode_lt (m : TransportMode) : m.value < 2 ^ 8 := by cases m <;> decide
theorem fecMode_lt (m : FecMode) : m.value < 2 ^ 8 := by cases m <;> decide
theorem kcpProfile_lt (p : KcpProfile) : p.value < 2 ^ 8 := by cases p <;> decide

@[simp] theorem TransportMode.ofValue_value (m : TransportMode) :
    TransportMode.ofValue m.value = some m := by
  cases m <;> rfl

@[simp] theorem FecMode.ofValue_value (m : FecMode) : FecMode.ofValue m.value = some m := by
  cases m <;> rfl

@[simp] theorem KcpProfile.ofValue_value (p : KcpProfile) :
    KcpProfile.ofValue p.value = some p := by
  cases p <;> rfl

theorem TransportMode.value_of_ofValue {raw : Nat} {m : TransportMode}
    (h : TransportMode.ofValue raw = some m) :
    raw = m.value := by
  unfold TransportMode.ofValue at h
  split at h <;> cases h <;> rfl

theorem FecMode.value_of_ofValue {raw : Nat} {m : FecMode} (h : FecMode.ofValue raw = some m) :
    raw = m.value := by
  unfold FecMode.ofValue at h
  split at h <;> cases h <;> rfl

theorem KcpProfile.value_of_ofValue {raw : Nat} {p : KcpProfile}
    (h : KcpProfile.ofValue raw = some p) :
    raw = p.value := by
  unfold KcpProfile.ofValue at h
  split at h <;> cases h <;> rfl

/-- The values of a valid policy name it. -/
theorem normalizeTrafficPolicy_values {p : RoomTrafficPolicy} (hp : p.Valid)
    (fallback : RoomTrafficPolicy) :
    normalizeTrafficPolicy p.transportMode.value p.fecMode.value p.kcpProfile.value fallback =
    p := by
  obtain ⟨mode, fec, profile⟩ := p
  unfold normalizeTrafficPolicy normalizeFecMode normalizeKcpProfile
  simp only [TransportMode.ofValue_value, FecMode.ofValue_value, KcpProfile.ofValue_value,
    Option.getD_some]
  split
  · next hmode =>
    have hnone : fec = .none := hp hmode
    rw [hnone]
  · rfl

/-- Policy bytes that pass the check are those of a valid policy. -/
theorem validPolicyValues_iff {transport fec profile : Nat} :
    validPolicyValues transport fec profile = true ↔ ∃ p : RoomTrafficPolicy, p.Valid ∧
      transport = p.transportMode.value ∧ fec = p.fecMode.value ∧ profile = p.kcpProfile.value := by
  constructor
  · intro h
    simp only [validPolicyValues, isValidTransportModeValue, isValidFecModeValue,
      isValidKcpProfileValue, Bool.and_eq_true, Bool.not_eq_true', decide_eq_false_iff_not,
      Option.isSome_iff_exists] at h
    obtain ⟨⟨⟨⟨mode, hmode⟩, fecMode, hfec⟩, kcp, hkcp⟩, hnone⟩ := h
    refine ⟨⟨mode, fecMode, kcp⟩, ?_, TransportMode.value_of_ofValue hmode,
      FecMode.value_of_ofValue hfec,
      KcpProfile.value_of_ofValue hkcp⟩
    rintro rfl
    rw [TransportMode.value_of_ofValue hmode, FecMode.value_of_ofValue hfec] at hnone
    simp only [true_and, not_not] at hnone
    cases fecMode <;> first | rfl | cases hnone
  · rintro ⟨⟨mode, fecMode, kcp⟩, hp, rfl, rfl, rfl⟩
    have hnone :
        ¬ (mode.value = TransportMode.relayTcp.value ∧ fecMode.value ≠ FecMode.none.value) := by
      rintro ⟨hmode, hfec⟩
      have hmode : mode = .relayTcp := by cases mode <;> first | rfl | cases hmode
      exact hfec (congrArg FecMode.value (hp hmode))
    simp [validPolicyValues, isValidTransportModeValue, isValidFecModeValue,
      isValidKcpProfileValue, hnone]

theorem reads_resumeRequest {r : ResumeRequest} (h : r.Valid) :
    Reads readResumeRequest (resumeBody r) r := by
  have hread :
      Reads readResumeRequest (writeU32 r.roomId ++ (writeU32 r.peerId ++ (r.token ++ []))) r :=
    (Reads.u32 h.roomId).bind
      ((Reads.u32 h.peerId).bind ((Reads.bytes h.token).bind (Reads.pure r)))
  simpa [resumeBody] using hread

theorem readResumeRequest_eq_some {p rest : Bytes} {r : ResumeRequest}
    (h : readResumeRequest p = some (r, rest)) :
    p = resumeBody r ++ rest ∧ r.roomId < 2 ^ 32 ∧ r.peerId < 2 ^ 32 ∧
    r.token.length = RECONNECT_TOKEN_SIZE := by
  simp only [readResumeRequest, bind_eq_some, pure_eq_some, readU32_eq_some, readBytes_eq_some] at h
  obtain ⟨roomId, _, ⟨hroom, rfl⟩, peerId, _, ⟨hpeer, rfl⟩, token, _, ⟨htoken, rfl⟩, heq⟩ := h
  cases heq
  exact ⟨by simp [resumeBody], hroom, hpeer, htoken⟩

theorem reads_policy {p : RoomTrafficPolicy} (hp : p.Valid) (fallback : RoomTrafficPolicy) :
    Reads (readTrafficPolicy fallback) (writePolicy p) p := by
  have hread :
    Reads (readTrafficPolicy fallback) (writeU8 p.transportMode.value ++ (writeU8 p.fecMode.value ++
      (writeU8 p.kcpProfile.value ++ [])))
      (normalizeTrafficPolicy p.transportMode.value p.fecMode.value p.kcpProfile.value fallback) :=
    (Reads.u8 (transportMode_lt _)).bind ((Reads.u8 (fecMode_lt _)).bind
      ((Reads.u8 (kcpProfile_lt _)).bind (Reads.pure _)))
  rw [normalizeTrafficPolicy_values hp] at hread
  simpa [writePolicy] using hread

/-! ### Login -/

theorem parse_eq_some {α : Type} {x : Reader α} {p : Bytes} {a : α} :
    parse x p = some a ↔ ∃ rest, x p = some (a, rest) := by
  simp only [parse, Option.map_eq_some_iff, Prod.exists, exists_and_right, exists_eq_right]

theorem validateLogin_inv {p : Bytes} (h : parse validateLogin p = some true) :
    ∃ req, ValidLogin req ∧ p = loginWire req := by
  rw [parse_eq_some] at h
  obtain ⟨rest, h⟩ := h
  simp only [validateLogin, bind_eq_some, ite_eq_some, pure_eq_some, readString_eq_some,
    readU16_eq_some, readU8_eq_some, atEnd_eq_some, Prod.mk.injEq, Bool.false_eq_true, false_and,
    and_false, false_or, not_not] at h
  obtain ⟨name, _, ⟨_, rfl⟩, hname, version, _, ⟨hversion, rfl⟩, flag, _, ⟨_, rfl⟩, hflag, h⟩ := h
  rcases h with ⟨rfl, r, _, hr, hnonzero, hend, rfl⟩ | ⟨hflag', hend, rfl⟩
  · obtain ⟨rfl, hroom, hpeer, htoken⟩ := readResumeRequest_eq_some hr
    obtain rfl : rest = [] := List.isEmpty_iff.mp hend.symm
    refine ⟨⟨name, version, some r⟩, ⟨hname, hversion, ?_⟩, ?_⟩
    · intro r' hr'
      cases hr'
      exact ⟨hroom, hpeer, htoken, hnonzero⟩
    · simp [loginWire]
  · obtain rfl : rest = [] := List.isEmpty_iff.mp hend.symm
    obtain rfl : flag = 0 := by omega
    refine ⟨⟨name, version, none⟩, ⟨hname, hversion, ?_⟩, ?_⟩
    · intro r' hr'
      cases hr'
    · simp [loginWire]

theorem readLogin_wire {req : LoginRequest} (h : ValidLogin req) :
    readLogin (loginWire req) = some (req, []) := by
  obtain ⟨name, version, resume⟩ := req
  unfold readLogin loginWire
  refine bind_eq_some.mpr ⟨_, _, Reads.string (length_lt_of_playerName h.name) _, ?_⟩
  refine bind_eq_some.mpr ⟨_, _, Reads.u16 h.clientVersion _, ?_⟩
  cases resume with
  | none =>
    refine bind_eq_some.mpr ⟨0, [], (Reads.u8 (by decide)).eq, ?_⟩
    rfl
  | some r =>
    refine bind_eq_some.mpr ⟨1, _, Reads.u8 (by decide) _, ?_⟩
    have hr : readResumeRequest (resumeBody r) = some (r, []) :=
      (reads_resumeRequest (h.resume r rfl)).eq
    refine bind_eq_some.mpr ⟨some r, [], map_eq_some.mpr ⟨r, [], hr, rfl⟩, ?_⟩
    rfl

theorem validateLogin_wire {req : LoginRequest} (h : ValidLogin req) :
    parse validateLogin (loginWire req) = some true := by
  obtain ⟨name, version, resume⟩ := req
  refine parse_eq_some.mpr ⟨[], ?_⟩
  unfold validateLogin loginWire
  refine bind_eq_some.mpr ⟨_, _, Reads.string (length_lt_of_playerName h.name) _, ?_⟩
  refine ite_eq_some.mpr (Or.inr ⟨not_not.mpr h.name, ?_⟩)
  refine bind_eq_some.mpr ⟨_, _, Reads.u16 h.clientVersion _, ?_⟩
  cases resume with
  | none =>
    refine bind_eq_some.mpr ⟨0, [], (Reads.u8 (by decide)).eq, ?_⟩
    rfl
  | some r =>
    refine bind_eq_some.mpr ⟨1, _, Reads.u8 (by decide) _, ?_⟩
    refine ite_eq_some.mpr (Or.inr ⟨by decide, ?_⟩)
    refine ite_eq_some.mpr (Or.inl ⟨rfl, ?_⟩)
    refine bind_eq_some.mpr ⟨r, [], (reads_resumeRequest (h.resume r rfl)).eq, ?_⟩
    exact ite_eq_some.mpr (Or.inr ⟨not_not.mpr (h.resume r rfl).nonzero, rfl⟩)

/-! ### Rooms -/

theorem reads_roomPolicies {tcp udp : RoomTrafficPolicy} (maxPlayers : Nat) :
    Reads (readRoomPolicies maxPlayers) (writePolicy tcp ++ writePolicy udp)
      ⟨maxPlayers, tcp.transportMode.value, tcp.fecMode.value, tcp.kcpProfile.value,
        udp.transportMode.value, udp.fecMode.value, udp.kcpProfile.value⟩ := by
  have hread :
    Reads (readRoomPolicies maxPlayers)
    (writeU8 tcp.transportMode.value ++ (writeU8 tcp.fecMode.value ++
      (writeU8 tcp.kcpProfile.value ++
        (writeU8 udp.transportMode.value ++ (writeU8 udp.fecMode.value ++
        (writeU8 udp.kcpProfile.value ++ [])))))) _ :=
    (Reads.u8 (transportMode_lt _)).bind
      ((Reads.u8 (fecMode_lt _)).bind ((Reads.u8 (kcpProfile_lt _)).bind
      ((Reads.u8 (transportMode_lt _)).bind
        ((Reads.u8 (fecMode_lt _)).bind ((Reads.u8 (kcpProfile_lt _)).bind
        (Reads.pure _))))))
  simpa [writePolicy] using hread

theorem readRoomPolicies_eq_some {maxPlayers : Nat} {p rest : Bytes} {shape : RoomShape}
    (h : readRoomPolicies maxPlayers p = some (shape, rest)) (hvalid : shape.validPolicies = true) :
    ∃ tcp udp : RoomTrafficPolicy, tcp.Valid ∧ udp.Valid ∧
    p = writePolicy tcp ++ writePolicy udp ++ rest := by
  simp only [readRoomPolicies, bind_eq_some, pure_eq_some, readU8_eq_some] at h
  obtain ⟨_, _, ⟨_, rfl⟩, _, _, ⟨_, rfl⟩, _, _, ⟨_, rfl⟩, _, _, ⟨_, rfl⟩, _, _, ⟨_, rfl⟩, _, _,
    ⟨_, rfl⟩, heq⟩ := h
  cases heq
  obtain ⟨h₁, h₂⟩ := Bool.and_eq_true_iff.mp hvalid
  obtain ⟨tcp, htcp, rfl, rfl, rfl⟩ := validPolicyValues_iff.mp h₁
  obtain ⟨udp, hudp, rfl, rfl, rfl⟩ := validPolicyValues_iff.mp h₂
  exact ⟨tcp, udp, htcp, hudp, by simp [writePolicy]⟩

theorem validPolicies_values {tcp udp : RoomTrafficPolicy} (htcp : tcp.Valid) (hudp : udp.Valid)
    (maxPlayers : Nat) :
    RoomShape.validPolicies ⟨maxPlayers, tcp.transportMode.value, tcp.fecMode.value,
      tcp.kcpProfile.value,
      udp.transportMode.value, udp.fecMode.value, udp.kcpProfile.value⟩ = true := by
  have h₁ := validPolicyValues_iff.mpr ⟨tcp, htcp, rfl, rfl, rfl⟩
  have h₂ := validPolicyValues_iff.mpr ⟨udp, hudp, rfl, rfl, rfl⟩
  simp [RoomShape.validPolicies, h₁, h₂]

theorem validateCreateRoom_inv {p : Bytes} (h : parse validateCreateRoom p = some true) :
    ∃ req, ValidCreate req ∧ p = createWire req := by
  rw [parse_eq_some] at h
  obtain ⟨rest, h⟩ := h
  simp only [validateCreateRoom, bind_eq_some, ite_eq_some, pure_eq_some, readString_eq_some,
    readU16_eq_some, readU8_eq_some, readBytes_eq_some, atEnd_eq_some, Prod.mk.injEq,
    Bool.false_eq_true, false_and, and_false, false_or, not_not] at h
  obtain ⟨name, _, ⟨_, rfl⟩, players, _, ⟨_, rfl⟩, shape, _, hshape,
    ⟨hname, hplayers, hpolicies⟩, flag, _,
    ⟨_, rfl⟩, hflag, h⟩ := h
  obtain ⟨tcp, udp, htcp, hudp, rfl⟩ := readRoomPolicies_eq_some hshape hpolicies
  rcases h with ⟨rfl, salt, _, ⟨hsalt, rfl⟩, hash, _, ⟨hhash, rfl⟩, mtu, _, ⟨_, rfl⟩, done, unread,
    ⟨rfl, rfl⟩, hok, rfl⟩ |
    ⟨hflag', mtu, _, ⟨_, rfl⟩, done, unread, ⟨rfl, rfl⟩, hok, rfl⟩
  · obtain ⟨hmtu, hend⟩ := Bool.and_eq_true_iff.mp hok
    obtain rfl : unread = [] := List.isEmpty_iff.mp hend
    exact ⟨⟨name, players, tcp, udp, 1, salt, hash, mtu⟩,
      ⟨hname, hplayers, htcp, hudp, hmtu, Or.inl ⟨rfl, hsalt, hhash⟩⟩, by simp [createWire]⟩
  · obtain ⟨hmtu, hend⟩ := Bool.and_eq_true_iff.mp hok
    obtain rfl : unread = [] := List.isEmpty_iff.mp hend
    obtain rfl : flag = 0 := by omega
    exact ⟨⟨name, players, tcp, udp, 0, List.replicate AUTH_SALT_SIZE 0, List.replicate 32 0, mtu⟩,
      ⟨hname, hplayers, htcp, hudp, hmtu, Or.inr ⟨rfl, rfl, rfl⟩⟩, by simp [createWire]⟩

theorem readCreateRoom_wire {req : CreateRequest} (h : ValidCreate req) :
    readCreateRoom (createWire req) = some (.ok req, []) := by
  obtain ⟨name, players, tcp, udp, flag, salt, hash, mtu⟩ := req
  have hmtu : readU16 (writeU16 mtu) = some (mtu, []) := (Reads.u16 (lt_of_roomMtu h.mtu)).eq
  have htcp := normalizeTrafficPolicy_values h.tcpPolicy makeDefaultTcpPolicy
  have hudp := normalizeTrafficPolicy_values h.udpPolicy makeDefaultUdpPolicy
  dsimp only at htcp hudp
  unfold readCreateRoom createWire
  refine bind_eq_some.mpr ⟨_, _, Reads.string (length_lt_of_roomName h.roomName) _, ?_⟩
  refine ite_eq_some.mpr (Or.inr ⟨not_not.mpr h.roomName, ?_⟩)
  refine bind_eq_some.mpr ⟨_, _, Reads.u8 (lt_of_maxPlayers h.maxPlayers) _, ?_⟩
  refine ite_eq_some.mpr (Or.inr ⟨not_not.mpr h.maxPlayers, ?_⟩)
  refine bind_eq_some.mpr ⟨_, _, rfl, ?_⟩
  refine ite_eq_some.mpr (Or.inr ⟨by simp [writePolicy]; omega, ?_⟩)
  rw [← List.append_assoc (writePolicy tcp)]
  refine bind_eq_some.mpr ⟨_, _, reads_roomPolicies players _, ?_⟩
  refine ite_eq_some.mpr
    (Or.inr ⟨not_not.mpr (validPolicies_values h.tcpPolicy h.udpPolicy players), ?_⟩)
  rcases h.secret with ⟨hflag, hsalt, hhash⟩ | ⟨hflag, hsalt, hhash⟩
  · obtain rfl : flag = 1 := hflag
    refine bind_eq_some.mpr ⟨1, _, Reads.u8 (show 1 < 2 ^ 8 by decide) _, ?_⟩
    refine ite_eq_some.mpr (Or.inl ⟨by decide, ?_⟩)
    refine bind_eq_some.mpr ⟨salt, hash ++ writeU16 mtu, ?_, ?_⟩
    · simpa using Reads.bytes hsalt (hash ++ writeU16 mtu)
    · refine bind_eq_some.mpr ⟨hash, writeU16 mtu, Reads.bytes hhash _, ?_⟩
      refine bind_eq_some.mpr ⟨(salt, hash), writeU16 mtu, rfl, ?_⟩
      refine bind_eq_some.mpr ⟨mtu, [], hmtu, ?_⟩
      rw [htcp, hudp]
      rfl
  · obtain rfl : flag = 0 := hflag
    obtain rfl : salt = List.replicate AUTH_SALT_SIZE 0 := hsalt
    obtain rfl : hash = List.replicate 32 0 := hhash
    refine bind_eq_some.mpr ⟨0, _, Reads.u8 (show 0 < 2 ^ 8 by decide) _, ?_⟩
    refine ite_eq_some.mpr (Or.inr ⟨by decide, ?_⟩)
    refine bind_eq_some.mpr ⟨_, writeU16 mtu, rfl, ?_⟩
    refine bind_eq_some.mpr ⟨mtu, [], hmtu, ?_⟩
    rw [htcp, hudp]
    rfl

theorem validateCreateRoom_wire {req : CreateRequest} (h : ValidCreate req) :
    parse validateCreateRoom (createWire req) = some true := by
  obtain ⟨name, players, tcp, udp, flag, salt, hash, mtu⟩ := req
  have hmtu : readU16 (writeU16 mtu) = some (mtu, []) := (Reads.u16 (lt_of_roomMtu h.mtu)).eq
  have hend : (do let done ← atEnd; return isValidRoomMtuValue mtu && done : Reader Bool) [] =
      some (true, []) := by
    refine bind_eq_some.mpr ⟨true, [], rfl, pure_eq_some.mpr ?_⟩
    simp [h.mtu]
  refine parse_eq_some.mpr ⟨[], ?_⟩
  unfold validateCreateRoom createWire
  refine bind_eq_some.mpr ⟨_, _, Reads.string (length_lt_of_roomName h.roomName) _, ?_⟩
  refine bind_eq_some.mpr ⟨_, _, Reads.u8 (lt_of_maxPlayers h.maxPlayers) _, ?_⟩
  rw [← List.append_assoc (writePolicy tcp)]
  refine bind_eq_some.mpr ⟨_, _, reads_roomPolicies players _, ?_⟩
  refine ite_eq_some.mpr (Or.inr ⟨not_not.mpr
    ⟨h.roomName, h.maxPlayers, validPolicies_values h.tcpPolicy h.udpPolicy players⟩, ?_⟩)
  rcases h.secret with ⟨hflag, hsalt, hhash⟩ | ⟨hflag, hsalt, hhash⟩
  · obtain rfl : flag = 1 := hflag
    refine bind_eq_some.mpr ⟨1, _, Reads.u8 (show 1 < 2 ^ 8 by decide) _, ?_⟩
    refine ite_eq_some.mpr (Or.inr ⟨by decide, ?_⟩)
    refine ite_eq_some.mpr (Or.inl ⟨rfl, ?_⟩)
    refine bind_eq_some.mpr ⟨salt, hash ++ writeU16 mtu, ?_, ?_⟩
    · simpa using Reads.bytes hsalt (hash ++ writeU16 mtu)
    · refine bind_eq_some.mpr ⟨hash, writeU16 mtu, Reads.bytes hhash _, ?_⟩
      exact bind_eq_some.mpr ⟨mtu, [], hmtu, hend⟩
  · obtain rfl : flag = 0 := hflag
    refine bind_eq_some.mpr ⟨0, _, Reads.u8 (show 0 < 2 ^ 8 by decide) _, ?_⟩
    refine ite_eq_some.mpr (Or.inr ⟨by decide, ?_⟩)
    refine ite_eq_some.mpr (Or.inr ⟨by decide, ?_⟩)
    exact bind_eq_some.mpr ⟨mtu, [], hmtu, hend⟩

/-! ### The other messages -/

theorem validateNonzeroU32_inv {p : Bytes} (h : parse validateNonzeroU32 p = some true) :
    ∃ id, id ≠ 0 ∧ id < 2 ^ 32 ∧ p = writeU32 id := by
  rw [parse_eq_some] at h
  obtain ⟨rest, h⟩ := h
  simp only [validateNonzeroU32, bind_eq_some, pure_eq_some, readU32_eq_some, atEnd_eq_some,
    Prod.mk.injEq] at h
  obtain ⟨id, _, ⟨hid, rfl⟩, done, unread, ⟨rfl, rfl⟩, hok, rfl⟩ := h
  obtain ⟨hne, hend⟩ := Bool.and_eq_true_iff.mp hok
  obtain rfl : unread = [] := List.isEmpty_iff.mp hend
  exact ⟨id, of_decide_eq_true hne, hid, by simp⟩

theorem validateResumeRoom_inv {p : Bytes} (h : parse validateResumeRoom p = some true) :
    ∃ r : ResumeRequest, r.Valid ∧ p = resumeBody r := by
  rw [parse_eq_some] at h
  obtain ⟨rest, h⟩ := h
  simp only [validateResumeRoom, bind_eq_some, pure_eq_some, atEnd_eq_some, Prod.mk.injEq] at h
  obtain ⟨r, _, hr, done, unread, ⟨rfl, rfl⟩, hok, rfl⟩ := h
  obtain ⟨rfl, hroom, hpeer, htoken⟩ := readResumeRequest_eq_some hr
  obtain ⟨hne, hend⟩ := Bool.and_eq_true_iff.mp hok
  obtain rfl : unread = [] := List.isEmpty_iff.mp hend
  exact ⟨r, ⟨hroom, hpeer, htoken, hne⟩, by simp⟩

/-- The header of a relayed packet. -/
structure RelayHeader.Valid (h : RelayHeader) : Prop where
  source : h.source ≠ 0 ∧ h.source < 2 ^ 32
  destination : h.destination ≠ 0 ∧ h.destination < 2 ^ 32
  trafficClass : validTrafficClass h.trafficClass = true

theorem trafficClass_lt {n : Nat} (h : validTrafficClass n = true) : n < 2 ^ 8 := by
  rcases of_decide_eq_true h with rfl | rfl <;> decide

theorem reads_relayHeader {h : RelayHeader} (hv : h.Valid) :
    Reads readRelayHeader (writeU32 h.source ++ writeU32 h.destination ++
      writeU8 h.trafficClass) h := by
  have hread : Reads readRelayHeader
      (writeU32 h.source ++ (writeU32 h.destination ++ (writeU8 h.trafficClass ++ []))) h :=
    (Reads.u32 hv.source.2).bind ((Reads.u32 hv.destination.2).bind
      ((Reads.u8 (trafficClass_lt hv.trafficClass)).bind (Reads.pure h)))
  simpa using hread

theorem validateRelayData_inv {p : Bytes} (hval : parse validateRelayData p = some true) :
    ∃ (h : RelayHeader) (data : Bytes), h.Valid ∧
    p = relayDataBody h.source h.destination h.trafficClass data := by
  rw [parse_eq_some] at hval
  obtain ⟨rest, hval⟩ := hval
  simp only [validateRelayData, readRelayHeader, bind_eq_some, pure_eq_some, readU32_eq_some,
    readU8_eq_some, Prod.mk.injEq] at hval
  obtain ⟨h, _, ⟨source, _, ⟨hsource, rfl⟩, destination, _, ⟨hdestination, rfl⟩, cls, data,
    ⟨_, rfl⟩, rfl, rfl⟩,
    hok, rfl⟩ := hval
  obtain ⟨hne, hcls⟩ := Bool.and_eq_true_iff.mp hok
  obtain ⟨hs, hd⟩ := of_decide_eq_true hne
  exact ⟨⟨source, destination, cls⟩, data,
    ⟨⟨hs, hsource⟩, ⟨hd, hdestination⟩, hcls⟩, by simp [relayDataBody]⟩

/-! ### The validator -/

theorem getD_false_eq_true {o : Option Bool} : o.getD false = true ↔ o = some true := by
  cases o with
  | none => simp
  | some b => simp

/-- What a handler finds when it parses a payload: all of it is read, and every
    field is one the handler accepts. -/
structure HandlerReads (msgType : UInt8) (p : Bytes) : Prop where
  login : msgType = MSG_LOGIN → ∃ req, readLogin p = some (req, []) ∧ ValidLogin req
  createRoom : msgType = MSG_CREATE_ROOM → ∃ req, readCreateRoom p = some (.ok req, []) ∧
      ValidCreate req
  joinRoom : msgType = MSG_JOIN_ROOM → ∃ roomId, readU32 p = some (roomId, []) ∧ roomId ≠ 0
  resumeRoom : msgType = MSG_RESUME_ROOM → ∃ r, readResumeRequest p = some (r, []) ∧ r.Valid
  authResponse : msgType = MSG_AUTH_RESPONSE → p.length = 32
  requestRelay : msgType = MSG_REQUEST_RELAY → ∃ targetPeerId, readU32 p = some (targetPeerId, []) ∧
      targetPeerId ≠ 0
  /-- What is left of a relayed packet behind its header is the data. -/
  relayData : msgType = MSG_TCP_RELAY_DATA → 9 ≤ p.length ∧
    ∃ h, readRelayHeader p = some (h, p.drop 9) ∧ h.Valid

theorem readU32_of_validate {p : Bytes} (h : parse validateNonzeroU32 p = some true) :
    ∃ id, readU32 p = some (id, []) ∧ id ≠ 0 := by
  obtain ⟨id, hne, hid, rfl⟩ := validateNonzeroU32_inv h
  exact ⟨id, (Reads.u32 hid).eq, hne⟩

/-- **A payload the validator accepts is read by its handler.** -/
theorem handlerReads_of_validate {msgType : UInt8} {p : Bytes}
    (h : validateClientSignalPayload msgType p = true) :
    HandlerReads msgType p := by
  unfold validateClientSignalPayload at h
  constructor
  · rintro rfl
    obtain ⟨req, hreq, rfl⟩ := validateLogin_inv (getD_false_eq_true.mp h)
    exact ⟨req, readLogin_wire hreq, hreq⟩
  · rintro rfl
    obtain ⟨req, hreq, rfl⟩ := validateCreateRoom_inv (getD_false_eq_true.mp h)
    exact ⟨req, readCreateRoom_wire hreq, hreq⟩
  · rintro rfl
    exact readU32_of_validate (getD_false_eq_true.mp (Bool.and_eq_true_iff.mp h).2)
  · rintro rfl
    obtain ⟨r, hr, rfl⟩ :=
      validateResumeRoom_inv (getD_false_eq_true.mp (Bool.and_eq_true_iff.mp h).2)
    exact ⟨r, (reads_resumeRequest hr).eq, hr⟩
  · rintro rfl
    exact of_decide_eq_true h
  · rintro rfl
    exact readU32_of_validate (getD_false_eq_true.mp (Bool.and_eq_true_iff.mp h).2)
  · rintro rfl
    obtain ⟨header, data, hheader, rfl⟩ :=
      validateRelayData_inv (getD_false_eq_true.mp (Bool.and_eq_true_iff.mp h).2)
    refine ⟨by simp [relayDataBody]; omega, header, ?_, hheader⟩
    have hdrop : (relayDataBody header.source header.destination header.trafficClass data).drop 9 =
        data := by
      simp [relayDataBody, writeU32, writeU8, BigEndian.encode]
    rw [hdrop]
    exact reads_relayHeader hheader data

/-! ### What the client builds -/

/-- The messages of the client, with the values they carry.  A protected room
    comes with salt and hash of its password. -/
inductive Request where
  | login (name : Bytes) (resume : Option ResumeRequest)
  | createRoom (settings : RoomSettings) (secret : Option (Bytes × Bytes))
  | joinRoom (roomId : Nat)
  | resumeRoom (resume : ResumeRequest)
  | requestRelay (targetPeerId : Nat)
  | relayData (header : RelayHeader) (data : Bytes)
  | authResponse (response : Bytes)
  | leaveRoom
  | logout
  | listRooms
  | ping

namespace Request

def msgType : Request → UInt8
  | login .. => MSG_LOGIN
  | createRoom .. => MSG_CREATE_ROOM
  | joinRoom _ => MSG_JOIN_ROOM
  | resumeRoom _ => MSG_RESUME_ROOM
  | requestRelay _ => MSG_REQUEST_RELAY
  | relayData .. => MSG_TCP_RELAY_DATA
  | authResponse _ => MSG_AUTH_RESPONSE
  | leaveRoom => MSG_LEAVE_ROOM
  | logout => MSG_LOGOUT
  | listRooms => MSG_LIST_ROOMS
  | ping => MSG_PING

def body : Request → Bytes
  | login name resume => loginBody name resume
  | createRoom settings none =>
    createRoomFront settings false ++ writeU16 (normalizeRoomMtu settings.mtu)
  | createRoom settings (some (salt, hash)) =>
    createRoomFront settings true ++ salt ++ hash ++ writeU16 (normalizeRoomMtu settings.mtu)
  | joinRoom roomId => joinRoomBody roomId
  | resumeRoom resume => resumeBody resume
  | requestRelay targetPeerId => requestRelayBody targetPeerId
  | relayData header data => relayDataBody header.source header.destination header.trafficClass data
  | authResponse response => response
  | leaveRoom | logout | listRooms | ping => []

/-- The documented ranges of the arguments. -/
def InRange : Request → Prop
  | login name resume => isValidPlayerName name = true ∧ ∀ r ∈ resume, r.Valid
  | createRoom settings secret =>
    (isValidRoomName settings.roomName = true ∧ validMaxPlayers settings.maxPlayers = true ∧
      settings.tcpPolicy.Valid ∧ settings.udpPolicy.Valid ∧
      isValidRoomMtuValue settings.mtu = true) ∧
    ∀ s ∈ secret, s.1.length = AUTH_SALT_SIZE ∧ s.2.length = 32
  | joinRoom roomId => roomId ≠ 0 ∧ roomId < 2 ^ 32
  | resumeRoom resume => resume.Valid
  | requestRelay targetPeerId => targetPeerId ≠ 0 ∧ targetPeerId < 2 ^ 32
  | relayData header _ => header.Valid
  | authResponse response => response.length = 32
  | leaveRoom | logout | listRooms | ping => True

/-- The handler of the server reads the values of the request from a payload. -/
def ReadFrom (p : Bytes) : Request → Prop
  | login name resume => readLogin p = some (⟨name, PROTOCOL_VERSION, resume⟩, [])
  | createRoom settings secret => readCreateRoom p = some (.ok
      { roomName := settings.roomName
        maxPlayers := settings.maxPlayers
        tcpPolicy := settings.tcpPolicy
        udpPolicy := settings.udpPolicy
        passwordProtected := if secret.isSome then 1 else 0
        pwdSalt := (secret.map Prod.fst).getD (List.replicate AUTH_SALT_SIZE 0)
        pwdHash := (secret.map Prod.snd).getD (List.replicate 32 0)
        mtu := settings.mtu }, [])
  | joinRoom roomId => readU32 p = some (roomId, [])
  | resumeRoom resume => readResumeRequest p = some (resume, [])
  | requestRelay targetPeerId => readU32 p = some (targetPeerId, [])
  | relayData header data => readRelayHeader p = some (header, data)
  | authResponse response => p = response
  | leaveRoom | logout | listRooms | ping => p = []

theorem loginBody_eq (name : Bytes) (resume : Option ResumeRequest) :
    loginBody name resume = loginWire ⟨name, PROTOCOL_VERSION, resume⟩ := by
  cases resume <;> simp [loginBody, loginWire]

theorem validateU32_agrees {msgType : UInt8}
    (ht : msgType = MSG_JOIN_ROOM ∨ msgType = MSG_REQUEST_RELAY) {id : Nat} (hne : id ≠ 0)
    (hid : id < 2 ^ 32) :
    validateClientSignalPayload msgType (writeU32 id) = true ∧
    readU32 (writeU32 id) = some (id, []) := by
  have hread : readU32 (writeU32 id) = some (id, []) := (Reads.u32 hid).eq
  have hval : parse validateNonzeroU32 (writeU32 id) = some true := by
    refine parse_eq_some.mpr ⟨[],
      bind_eq_some.mpr ⟨id, [], hread, bind_eq_some.mpr ⟨true, [], rfl, ?_⟩⟩⟩
    simp [pure_eq_some, hne]
  have haccepts :
      (decide ((writeU32 id).length = 4) && (parse validateNonzeroU32 (writeU32 id)).getD false) =
      true :=
    Bool.and_eq_true_iff.mpr ⟨decide_eq_true (length_writeU32 id), getD_false_eq_true.mpr hval⟩
  rcases ht with rfl | rfl
  · exact ⟨haccepts, hread⟩
  · exact ⟨haccepts, hread⟩

theorem normalizeRoomMtu_of_valid {mtu : Nat} (h : isValidRoomMtuValue mtu = true) :
    normalizeRoomMtu mtu = mtu := by
  simp [normalizeRoomMtu, h]

/-- **What the client builds from arguments in range passes the validator and is
    read back.** -/
theorem agrees (r : Request) (h : r.InRange) :
    validateClientSignalPayload r.msgType r.body = true ∧ r.ReadFrom r.body := by
  cases r with
  | login name resume =>
    have hreq : ValidLogin ⟨name, PROTOCOL_VERSION, resume⟩ :=
      ⟨h.1, show PROTOCOL_VERSION < 2 ^ 16 by decide, h.2⟩
    simp only [body, ReadFrom, loginBody_eq]
    exact ⟨getD_false_eq_true.mpr (validateLogin_wire hreq), readLogin_wire hreq⟩
  | createRoom settings secret =>
    obtain ⟨⟨hname, hplayers, htcp, hudp, hmtu⟩, hsecret⟩ := h
    cases secret with
    | none =>
      have hreq : ValidCreate ⟨settings.roomName, settings.maxPlayers, settings.tcpPolicy,
        settings.udpPolicy, 0,
          List.replicate AUTH_SALT_SIZE 0, List.replicate 32 0, settings.mtu⟩ :=
        ⟨hname, hplayers, htcp, hudp, hmtu, Or.inr ⟨rfl, rfl, rfl⟩⟩
      have hbody : (createRoom settings none).body = createWire ⟨settings.roomName,
        settings.maxPlayers,
          settings.tcpPolicy, settings.udpPolicy, 0, List.replicate AUTH_SALT_SIZE 0,
          List.replicate 32 0,
          settings.mtu⟩ := by
        simp [body, createRoomFront, createWire, normalizeRoomMtu_of_valid hmtu]
      rw [hbody]
      exact ⟨getD_false_eq_true.mpr (validateCreateRoom_wire hreq), readCreateRoom_wire hreq⟩
    | some s =>
      obtain ⟨salt, hash⟩ := s
      obtain ⟨hsalt, hhash⟩ := hsecret (salt, hash) rfl
      have hreq : ValidCreate ⟨settings.roomName, settings.maxPlayers, settings.tcpPolicy,
        settings.udpPolicy, 1,
          salt, hash, settings.mtu⟩ :=
        ⟨hname, hplayers, htcp, hudp, hmtu, Or.inl ⟨rfl, hsalt, hhash⟩⟩
      have hbody : (createRoom settings (some (salt, hash))).body = createWire ⟨settings.roomName,
          settings.maxPlayers, settings.tcpPolicy, settings.udpPolicy, 1, salt, hash,
          settings.mtu⟩ := by
        simp [body, createRoomFront, createWire, normalizeRoomMtu_of_valid hmtu]
      rw [hbody]
      exact ⟨getD_false_eq_true.mpr (validateCreateRoom_wire hreq), readCreateRoom_wire hreq⟩
  | joinRoom roomId => exact validateU32_agrees (Or.inl rfl) h.1 h.2
  | resumeRoom resume =>
    have hread : readResumeRequest (resumeBody resume) = some (resume, []) :=
      (reads_resumeRequest h).eq
    have hval : parse validateResumeRoom (resumeBody resume) = some true := by
      refine parse_eq_some.mpr ⟨[], ?_⟩
      refine bind_eq_some.mpr ⟨resume, [], hread,
        bind_eq_some.mpr ⟨true, [], rfl, pure_eq_some.mpr ?_⟩⟩
      rw [h.nonzero]
      rfl
    have hlen : (resumeBody resume).length = 4 + 4 + RECONNECT_TOKEN_SIZE := by
      simp only [resumeBody, List.length_append, length_writeU32, ResumeRequest.Valid.token h]
    have haccepts : (decide ((resumeBody resume).length = 4 + 4 + RECONNECT_TOKEN_SIZE) &&
        (parse validateResumeRoom (resumeBody resume)).getD false) = true :=
      Bool.and_eq_true_iff.mpr ⟨decide_eq_true hlen, getD_false_eq_true.mpr hval⟩
    exact ⟨haccepts, hread⟩
  | requestRelay targetPeerId => exact validateU32_agrees (Or.inr rfl) h.1 h.2
  | relayData header data =>
    have hread :
      readRelayHeader (relayDataBody header.source header.destination header.trafficClass data) =
        some (header, data) := reads_relayHeader h data
    have hval :
      parse validateRelayData
      (relayDataBody header.source header.destination header.trafficClass data) =
        some true := by
      refine parse_eq_some.mpr ⟨data, bind_eq_some.mpr ⟨header, data, hread, pure_eq_some.mpr ?_⟩⟩
      simp [h.source.1, h.destination.1, h.trafficClass]
    have hlen :
        9 ≤ (relayDataBody header.source header.destination header.trafficClass data).length := by
      simp only [relayDataBody, List.length_append, length_writeU32, length_writeU8]
      omega
    have haccepts :
      (decide (9 ≤ (relayDataBody header.source header.destination header.trafficClass
        data).length) &&
        (parse validateRelayData
          (relayDataBody header.source header.destination header.trafficClass data)).getD
          false) = true :=
      Bool.and_eq_true_iff.mpr ⟨decide_eq_true hlen, getD_false_eq_true.mpr hval⟩
    exact ⟨haccepts, hread⟩
  | authResponse response => exact ⟨decide_eq_true h, rfl⟩
  | leaveRoom => exact ⟨rfl, rfl⟩
  | logout => exact ⟨rfl, rfl⟩
  | listRooms => exact ⟨rfl, rfl⟩
  | ping => exact ⟨rfl, rfl⟩

end Request

end VlanConnect

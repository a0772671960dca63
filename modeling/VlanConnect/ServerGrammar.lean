/-
  VlanConnect/ServerGrammar.lean
  ==============================
  **No server message is a proper prefix of another one of its type**
  (`common/signal_message_validator.h`).

  A cursor program is *stable* when what it accepted depends on the bytes it
  has passed and on nothing after them: with another rest behind the same
  front it accepts again, at the same position and with the same value, or it
  fails.  The second case is there for the room list, whose count is checked
  against the bytes that remain.  Stability is closed under sequencing, so it
  holds of every message, and a stable program that accepts a payload to its
  end leaves the bytes of any longer one unread.
-/
import VlanConnect.SignalMessageValidator

namespace VlanConnect

namespace MessageValidatorDetail

def Stable {α : Type} (x : Cursor α) : Prop :=
  ∀ pos unread a pos' rest, x (pos, unread) = .ok (a, pos', rest) →
    ∃ front, unread = front ++ rest ∧
      ∀ rest', x (pos, front ++ rest') = .ok (a, pos', rest') ∨
      ∃ e, x (pos, front ++ rest') = .error e

section Closure

variable {α β : Type}

theorem stable_pure (a : α) : Stable (pure a : Cursor α) := by
  intro pos unread a' pos' rest h
  cases h
  exact ⟨[], rfl, fun rest' => Or.inl rfl⟩

theorem stable_position : Stable position := by
  intro pos unread a pos' rest h
  cases h
  exact ⟨[], rfl, fun rest' => Or.inl rfl⟩

theorem stable_setError (error : MessageValidationError) (offset : Nat) :
    Stable (setError error offset : Cursor α) := by
  intro pos unread a pos' rest h
  cases h

theorem stable_take (count : Nat) : Stable (take count) := by
  intro pos unread a pos' rest h
  simp only [take] at h
  split at h
  · cases h
  · next hlen =>
    cases h
    refine ⟨unread.take count, (List.take_append_drop count unread).symm, fun rest' => Or.inl ?_⟩
    have hfront : (unread.take count).length = count := List.length_take_of_le (not_lt.mp hlen)
    simp [take, hfront]

theorem bind_eq (x : Cursor α) (f : α → Cursor β) (at_ : Nat × Bytes) :
    (x >>= f) at_ = match x at_ with
      | .error e => .error e
      | .ok (a, at') => f a at' := by
  simp only [bind, StateT.bind, Except.bind]
  cases x at_ <;> rfl

theorem Stable.bind {x : Cursor α} {f : α → Cursor β} (hx : Stable x) (hf : ∀ a, Stable (f a)) :
    Stable (x >>= f) := by
  intro pos unread b pos' rest h
  rw [bind_eq] at h
  rcases hxe : x (pos, unread) with e | ⟨a, pos₁, rest₁⟩
  · rw [hxe] at h
    cases h
  rw [hxe] at h
  obtain ⟨front, rfl, hfront⟩ := hx _ _ _ _ _ hxe
  obtain ⟨front', rfl, hfront'⟩ := hf a _ _ _ _ _ h
  refine ⟨front ++ front', by simp, fun rest' => ?_⟩
  rw [bind_eq, List.append_assoc]
  rcases hfront (front' ++ rest') with hok | ⟨e, herr⟩
  · rw [hok]
    exact hfront' rest'
  · rw [herr]
    exact Or.inr ⟨e, rfl⟩

theorem Stable.map {x : Cursor α} {f : α → β} (hx : Stable x) : Stable (f <$> x) := by
  rw [map_eq_pure_bind]
  exact hx.bind fun a => stable_pure _

theorem Stable.ite {c : Prop} [Decidable c] {x y : Cursor α} (hx : Stable x) (hy : Stable y) :
    Stable (if c then x else y) := by
  by_cases h : c
  · rwa [if_pos h]
  · rwa [if_neg h]

/-- A field check: it fails, or the program goes on behind it. -/
theorem Stable.check {c : Prop} [Decidable c] {error : MessageValidationError} {offset : Nat}
    {f : Unit → Cursor β} (hf : Stable (f ())) :
    Stable (if c then setError error offset >>= f else f ()) :=
  (stable_setError error offset).bind (fun _ => hf) |>.ite hf

theorem Stable.checkAt {c : Prop} [Decidable c] {error : MessageValidationError}
    {offset : Nat → Nat} {f : Unit → Cursor β} (hf : Stable (f ())) :
    Stable (if c then position >>= fun pos => setError error (offset pos) >>= f else f ()) :=
  (stable_position.bind fun pos => (stable_setError error (offset pos)).bind fun _ => hf).ite hf

/-- A check against the number of bytes that remain may only reject. -/
theorem stable_checkRemaining {c : Nat → Prop} [DecidablePred c] {error : MessageValidationError}
    {offset : Nat} {f : Unit → Cursor β} {y : Cursor β} (hy : Stable y) :
    Stable (remaining >>= fun n => if c n then setError error offset >>= f else y) := by
  -- what the program does on any unread bytes
  have hrun : ∀ pos unread,
    (remaining >>= fun n => if c n then setError error offset >>= f else y) (pos, unread) =
      if c unread.length then .error (error, offset) else y (pos, unread) := by
    intro pos unread
    rw [bind_eq]
    simp only [remaining]
    by_cases h : c unread.length
    · rw [if_pos h, if_pos h, bind_eq]
      rfl
    · rw [if_neg h, if_neg h]
  intro pos unread b pos' rest h
  rw [hrun] at h
  split at h
  · cases h
  obtain ⟨front, rfl, hfront⟩ := hy _ _ _ _ _ h
  refine ⟨front, rfl, fun rest' => ?_⟩
  rw [hrun]
  split
  · exact Or.inr ⟨_, rfl⟩
  · exact hfront rest'

end Closure

/-! ### The fields and the messages -/

theorem stable_readUInt (width : Nat) : Stable (readUInt width) := (stable_take width).map

theorem stable_readU8 : Stable readU8 := stable_readUInt 1
theorem stable_readU16 : Stable readU16 := stable_readUInt 2
theorem stable_readU32 : Stable readU32 := stable_readUInt 4
theorem stable_readU64 : Stable readU64 := stable_readUInt 8

theorem stable_skip (count : Nat) : Stable (skip count) :=
  (stable_take count).bind fun _ => stable_pure ()

theorem stable_readString (minLen maxLen : Nat) (alphaNumeric : Bool) :
    Stable (readString minLen maxLen alphaNumeric) := by
  refine stable_position.bind fun lengthOffset => stable_readU16.bind fun length => Stable.check ?_
  refine stable_position.bind fun start => (stable_take length).bind fun s => ?_
  exact (stable_setError _ _).ite (stable_pure ())

theorem stable_readBoolean : Stable readBoolean := by
  refine stable_position.bind fun fieldOffset => stable_readU8.bind fun value => ?_
  exact (stable_setError _ _).ite (stable_pure ())

theorem stable_readPolicy : Stable readPolicy := by
  refine stable_position.bind fun fieldOffset => stable_readU8.bind fun transport => ?_
  refine stable_readU8.bind fun fec => stable_readU8.bind fun profile => ?_
  exact (stable_setError _ _).ite (stable_pure ())

theorem stable_readMtu : Stable readMtu := by
  refine stable_position.bind fun fieldOffset => stable_readU16.bind fun mtu => ?_
  exact (stable_setError _ _).ite (stable_pure ())

/-- The part that a created room, a joined room and a room record share. -/
theorem stable_readPolicies {α : Type} {f : Unit → Cursor α} (hf : Stable (f ())) :
    Stable (readPolicy >>= fun _ => readPolicy >>= fun _ => readBoolean >>= fun _ =>
      readMtu >>= f) := by
  refine stable_readPolicy.bind fun _ => stable_readPolicy.bind fun _ => ?_
  exact stable_readBoolean.bind fun _ => stable_readMtu.bind fun _ => hf

theorem stable_readPeerInfo (offset : Nat) : Stable (readPeerInfo offset) := by
  refine stable_readU32.bind fun peerId => stable_readU32.bind fun virtualIP => ?_
  refine (stable_readString _ _ _).bind fun _ => ?_
  exact (stable_setError _ _).ite (stable_pure ())

theorem stable_readRoomListItem : Stable readRoomListItem := by
  refine stable_position.bind fun roomOffset => stable_readU32.bind fun roomId => ?_
  refine (stable_readString _ _ _).bind fun _ => stable_readU8.bind fun playerCount => ?_
  refine stable_readU8.bind fun maxPlayers => stable_readPolicies ?_
  exact Stable.check (stable_pure roomId)

theorem stable_readMembers (count : Nat) : Stable (readMembers count) := by
  induction count with
  | zero => exact stable_pure ()
  | succ count ih => exact stable_position.bind fun offset =>
    (stable_readPeerInfo offset).bind fun _ => ih

theorem stable_readRooms (roomIds : List Nat) (count : Nat) : Stable (readRooms roomIds count) := by
  induction count generalizing roomIds with
  | zero => exact stable_pure ()
  | succ count ih =>
    exact stable_readRoomListItem.bind fun roomId => Stable.checkAt (ih (roomId :: roomIds))

theorem stable_readRoomChange : Stable readRoomChange := by
  refine stable_readU8.bind fun operation => stable_readRoomListItem.ite (Stable.ite ?_ ?_)
  · exact stable_readU32.bind fun roomId => Stable.checkAt (stable_pure roomId)
  · exact stable_position.bind fun pos => stable_setError _ _

theorem stable_readRoomChanges (roomIds : List Nat) (count : Nat) :
    Stable (readRoomChanges roomIds count) := by
  induction count generalizing roomIds with
  | zero => exact stable_pure ()
  | succ count ih =>
    exact stable_readRoomChange.bind fun roomId => Stable.checkAt (ih (roomId :: roomIds))

theorem stable_readServerHello : Stable readServerHello := by
  refine stable_readU16.bind fun version => stable_readU8.bind fun authRequired => ?_
  refine Stable.check (Stable.check ?_)
  exact (stable_skip _).ite (stable_pure ())

theorem stable_readServerAuthOk : Stable readServerAuthOk := by
  refine stable_readU32.bind fun sessionId => (stable_skip 32).bind fun _ => ?_
  exact (stable_setError _ _).ite (stable_pure ())

theorem stable_readLoginResp : Stable readLoginResp := by
  refine stable_readU32.bind fun peerId => stable_readU16.bind fun version => ?_
  exact Stable.check (Stable.check stable_readBoolean)

theorem stable_readRoomCreated : Stable readRoomCreated := by
  refine stable_readU32.bind fun roomId => stable_readU32.bind fun virtualIP =>
    stable_readPolicies ?_
  refine (stable_skip _).bind fun _ => ?_
  exact (stable_setError _ _).ite (stable_pure ())

theorem stable_readJoinResp : Stable readJoinResp := by
  refine stable_readU32.bind fun roomId => stable_readU32.bind fun virtualIP =>
    stable_readPolicies ?_
  refine stable_readU8.bind fun count => Stable.check (Stable.checkAt ?_)
  exact (stable_readMembers count).bind fun _ => stable_skip _

theorem stable_readPeerId : Stable readPeerId :=
  stable_readU32.bind fun _ => (stable_setError _ _).ite (stable_pure ())

theorem stable_readRoomList : Stable readRoomList := by
  refine stable_readU64.bind fun revision => stable_readU16.bind fun pageIndex => ?_
  refine stable_readU16.bind fun pageCount => stable_readU16.bind fun count => Stable.check ?_
  exact stable_checkRemaining (stable_readRooms [] count)

theorem stable_readRoomListPush : Stable readRoomListPush := by
  refine stable_readU64.bind fun baseRevision => stable_readU64.bind fun revision => ?_
  exact stable_readU16.bind fun count => Stable.check (stable_readRoomChanges [] count)

theorem stable_readError : Stable readError :=
  (stable_skip 2).bind fun _ => stable_readString _ _ _

end MessageValidatorDetail

/-! ### Prefixes and extensions -/

open MessageValidatorDetail

def MessageValidationResult.IsMalformed (r : MessageValidationResult) : Prop :=
  ∃ error offset, r = .malformed error offset

/-- Whatever is cut from the end of a valid payload, or put behind it, the check reports. -/
structure PrefixFree (check : Bytes → MessageValidationResult) : Prop where
  cut : ∀ front tail, tail ≠ [] → check (front ++ tail) = .valid → (check front).IsMalformed
  extended : ∀ payload tail, tail ≠ [] → check payload = .valid →
      (check (payload ++ tail)).IsMalformed

/-- A check that knows its type need only reject extensions: a valid cut payload would
    have a valid one. -/
theorem PrefixFree.of_extended {check : Bytes → MessageValidationResult}
    (hknown : ∀ payload, check payload = .valid ∨ (check payload).IsMalformed)
    (hext : ∀ payload tail, tail ≠ [] → check payload = .valid →
      (check (payload ++ tail)).IsMalformed) :
    PrefixFree check := by
  refine ⟨fun front tail htail hvalid => ?_, hext⟩
  rcases hknown front with hfront | hfront
  · obtain ⟨error, offset, h⟩ := hext front tail htail hfront
    rw [hvalid] at h
    cases h
  · exact hfront

theorem finish_known (cursor : Cursor Unit) (payload : Bytes) :
    finish cursor payload = .valid ∨ (finish cursor payload).IsMalformed := by
  unfold finish
  split
  · exact Or.inr ⟨_, _, rfl⟩
  · split
    · exact Or.inl rfl
    · exact Or.inr ⟨_, _, rfl⟩

theorem finish_extended {cursor : Cursor Unit} (hc : Stable cursor) {payload tail : Bytes}
    (htail : tail ≠ []) (h : finish cursor payload = .valid) :
    (finish cursor (payload ++ tail)).IsMalformed := by
  unfold finish at h
  split at h
  · cases h
  next _ pos unread hrun =>
  split at h
  · next hnil =>
    subst hnil
    obtain ⟨front, rfl, hfront⟩ := hc _ _ _ _ _ hrun
    rw [List.append_nil]
    unfold finish
    rcases hfront tail with hok | ⟨⟨error, offset⟩, herr⟩
    · rw [hok]
      exact ⟨.trailingData, pos, if_neg htail⟩
    · rw [herr]
      exact ⟨error, offset, rfl⟩
  · cases h

theorem prefixFree_finish {cursor : Cursor Unit} (hc : Stable cursor) :
    PrefixFree (finish cursor) :=
  .of_extended (finish_known cursor) fun _ _ htail h => finish_extended hc htail h

theorem prefixFree_fixedSize (expected : Nat) :
    PrefixFree fun payload => fixedSize payload.length expected := by
  refine .of_extended (fun payload => ?_) fun payload tail htail h => ?_
  · simp only [fixedSize]
    split
    · exact Or.inr ⟨_, _, rfl⟩
    · split
      · exact Or.inr ⟨_, _, rfl⟩
      · exact Or.inl rfl
  · have hlen : payload.length = expected := by
      simp only [fixedSize] at h
      split at h
      · cases h
      · split at h
        · cases h
        · omega
    have hpos := List.length_pos_iff.mpr htail
    refine ⟨.trailingData, expected, ?_⟩
    simp only [fixedSize, List.length_append]
    rw [if_neg (by omega), if_pos (by omega)]

/-- A cap on the length only rejects more of the extensions. -/
theorem PrefixFree.capped {check : Bytes → MessageValidationResult} (hcheck : PrefixFree check)
    (limit : Nat) (error : MessageValidationError) (offset : Nat) :
    PrefixFree fun payload => if limit < payload.length then .malformed error offset
    else check payload := by
  constructor
  · intro front tail htail h
    split at h
    · cases h
    · next hlen =>
      rw [List.length_append] at hlen
      rw [if_neg (by omega)]
      exact hcheck.cut front tail htail h
  · intro payload tail htail h
    split at h
    · cases h
    · split
      · exact ⟨error, offset, rfl⟩
      · exact hcheck.extended payload tail htail h

theorem PrefixFree.ite {c : Prop} [Decidable c] {f g : Bytes → MessageValidationResult}
    (hf : c → PrefixFree f) (hg : ¬ c → PrefixFree g) :
    PrefixFree fun payload => if c then f payload else g payload := by
  by_cases h : c
  · simpa only [if_pos h] using hf h
  · simpa only [if_neg h] using hg h

theorem prefixFree_unknownType : PrefixFree fun _ => .unknownType := by
  constructor
  · intro front tail htail h
    cases h
  · intro payload tail htail h
    cases h

/-- **The server's grammar is prefix-free.**  Of the messages whose length the type or the payload
    determines, a truncated or a padded one is never taken for another valid one. -/
theorem server_messages_prefixFree :
    (∀ msgType, msgType ≠ MSG_TCP_RELAY_DATA → msgType ≠ MSG_ENCRYPTED →
      PrefixFree (validateServerSignalPayload msgType)) ∧
    (∀ msgType, msgType = MSG_DATA_CHANNEL_ACK ∨ msgType = MSG_PONG →
      PrefixFree (validateServerDataPayload msgType)) := by
  constructor
  · intro msgType hrelay hencrypted
    refine .ite (fun _ => prefixFree_finish stable_readServerHello) fun _ => ?_
    refine .ite (fun _ => prefixFree_finish stable_readServerAuthOk) fun _ => ?_
    refine .ite (fun h => absurd h hencrypted) fun _ => ?_
    refine .ite (fun _ => prefixFree_finish stable_readLoginResp) fun _ => ?_
    refine .ite (fun _ => prefixFree_finish stable_readRoomCreated) fun _ => ?_
    refine .ite (fun _ => prefixFree_finish stable_readJoinResp) fun _ => ?_
    refine .ite (fun _ => prefixFree_finish (stable_readPeerInfo 0)) fun _ => ?_
    refine .ite (fun _ => prefixFree_finish stable_readPeerId) fun _ => ?_
    refine .ite (fun _ => prefixFree_fixedSize 0) fun _ => ?_
    refine .ite (fun _ => (prefixFree_finish stable_readRoomList).capped _ _ _) fun _ => ?_
    refine .ite (fun _ => (prefixFree_finish stable_readRoomListPush).capped _ _ _) fun _ => ?_
    refine .ite (fun _ => prefixFree_fixedSize _) fun _ => ?_
    refine .ite (fun _ => prefixFree_finish stable_readError) fun _ => ?_
    exact .ite (fun h => absurd h hrelay) fun _ => prefixFree_unknownType
  · intro msgType htype
    refine .ite (fun h => ?_) fun _ => ?_
    · rcases htype with rfl | rfl <;> exact absurd h (by decide)
    refine .ite (fun _ => prefixFree_fixedSize 0) fun h => ?_
    exact absurd htype h

/-- The answer to a join: room 1, the members alice and robert, and a token. -/
def joinedByTwo : Bytes :=
  [0, 0, 0, 1, 10, 10, 0, 2] ++ writePolicy makeDefaultTcpPolicy ++
    writePolicy makeDefaultUdpPolicy ++
    [0, 5, 120, 2] ++ [0, 0, 0, 1, 10, 10, 0, 1, 0, 5, 97, 108, 105, 99, 101] ++
    [0, 0, 0, 2, 10, 10, 0, 2, 0, 6, 114, 111, 98, 101, 114, 116] ++ List.replicate 32 7

theorem joinResp_prefixFree :
    validateServerSignalPayload MSG_JOIN_RESP joinedByTwo = .valid ∧
      (∀ n < joinedByTwo.length,
        (validateServerSignalPayload MSG_JOIN_RESP (joinedByTwo.take n)).IsMalformed) ∧
      (validateServerSignalPayload MSG_JOIN_RESP (joinedByTwo ++ [0])).IsMalformed := by
  have hvalid : validateServerSignalPayload MSG_JOIN_RESP joinedByTwo = .valid := by decide +kernel
  have hfree := server_messages_prefixFree.1 MSG_JOIN_RESP (by decide) (by decide)
  refine ⟨hvalid, fun n hn => ?_, hfree.extended joinedByTwo [0] (by decide) hvalid⟩
  refine hfree.cut (joinedByTwo.take n) (joinedByTwo.drop n) ?_ ?_
  · rw [ne_eq, List.drop_eq_nil_iff]
    omega
  · rw [List.take_append_drop]
    exact hvalid

end VlanConnect

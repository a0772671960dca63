/-
  VlanConnect/Server/Safety.lean
  ==============================
  **Identities and rooms in every reachable state.**

  The invariant of the registry, read back on the fields of the server: who
  owns an id, what the indexes hold, which ids are free, and what a room looks
  like.  The first part of the module scripts runs of the server, with the
  frames of clients that follow the protocol: the statements here and in the
  next modules are tried on the states they end in.
-/
import VlanConnect.Server.Refinement
import Mathlib.Data.Finset.Card
import Mathlib.Order.Interval.Finset.Nat

namespace VlanConnect

namespace Server

open Registry

variable (K : Crypto) {limits : ServerLimits} {hash salt : Bytes} {s : Server}

/-! ### Scripted runs -/

/-- Take the events one after another, as long as each is enabled. -/
def script (s : Server) : List (Env × Event) → Option Server
  | [] => some s
  | (env, e) :: rest => if s.Enabled e then script (s.step K env e) rest else none

theorem Reachable.script {events : List (Env × Event)} {s s' : Server}
    (h : Reachable K limits hash salt s) (hs : s.script K events = some s') :
    Reachable K limits hash salt s' := by
  induction events generalizing s with
  | nil =>
    cases hs
    exact h
  | cons step rest ih =>
    obtain ⟨env, e⟩ := step
    unfold Server.script at hs
    split at hs
    · next he => exact ih (.step h env he) hs
    · cases hs

namespace Sample

open ByteBuffer

/-- The password hash and the salt of the sample server. -/
def authHash : Bytes := [7]

def authSalt : Bytes := List.replicate AUTH_SALT_SIZE 5

def clientNonce : Bytes := List.replicate 16 1

def clientPubKey (fd : Fd) : Bytes := BigEndian.encode 32 (fd + 5)

def serverNonce : Bytes := List.replicate 16 2

def serverPrivKey : Bytes := BigEndian.encode 32 3

/-- The master secret of the client on a descriptor. -/
def master (fd : Fd) : Bytes :=
  deriveSecureMaster .sample (Crypto.sample.x25519 serverPrivKey (clientPubKey fd)) authHash
    clientNonce serverNonce
    (clientPubKey fd) (Crypto.sample.x25519PublicKey serverPrivKey) authSalt PROTOCOL_VERSION
    AUTH_KDF_PROFILE

def frame (msgType : UInt8) (body : Bytes) : Bytes := tcpMsgHeader msgType body.length ++ body

/-- The `n`-th message after the handshake, as the client sends it. -/
def sealed (fd : Fd) (n : Nat) (msgType : UInt8) (body : Bytes) : Bytes :=
  let cipher := { ({} : SecureFrameCipher).init .sample (master fd) true "signal" with
    sendCounter := n }
  frame MSG_ENCRYPTED (cipher.encrypt .sample (msgType :: body) []).1

/-- The clock stands still. -/
def quiet : Env := {}

/-- One frame arrives and is handled; the loop then stops for want of another. -/
def arrive (fd : Fd) (bytes : Bytes) (env : Env) : List (Env × Event) :=
  [(quiet, .readable fd bytes), (env, .resume), (quiet, .resume), (quiet, .resume)]

/-- The handshake. -/
def connect (fd : Fd) : List (Env × Event) :=
  (quiet, .accept fd 1) ::
    arrive fd (frame MSG_CLIENT_HELLO (writeU16 PROTOCOL_VERSION ++ clientNonce ++ clientPubKey fd))
      { random := [some serverNonce, some serverPrivKey] } ++
    arrive fd (frame MSG_SERVER_AUTH (computeClientAuthProof .sample (master fd) authHash)) quiet

def say (fd : Fd) (n : Nat) (msgType : UInt8) (body : Bytes) (env : Env) : List (Env × Event) :=
  arrive fd (sealed fd n msgType body) env

def loginBody (name : Bytes) : Bytes := writeString name ++ writeU16 PROTOCOL_VERSION ++ writeU8 0

def resumeBody (roomId peerId : Nat) (token : Bytes) : Bytes :=
  writeU32 roomId ++ writeU32 peerId ++ token

def resumeLoginBody (name : Bytes) (roomId peerId : Nat) (token : Bytes) : Bytes :=
  writeString name ++ writeU16 PROTOCOL_VERSION ++ writeU8 1 ++ resumeBody roomId peerId token

/-- An open room for four. -/
def createBody : Bytes :=
  writeString (ascii "arena") ++ writeU8 4 ++ writePolicy makeDefaultTcpPolicy ++
    writePolicy makeDefaultUdpPolicy ++
    writeU8 0 ++ writeU16 ROOM_MTU_DEFAULT

def token : Bytes := List.replicate RECONNECT_TOKEN_SIZE 9

/-- Alice opens a room, and Bob joins her. -/
def party : List (Env × Event) :=
  connect 5 ++ say 5 0 MSG_LOGIN (loginBody (ascii "alice")) quiet ++
    say 5 1 MSG_CREATE_ROOM createBody { random := [some token] } ++
    connect 6 ++ say 6 0 MSG_LOGIN (loginBody (ascii "robert")) quiet ++
    say 6 1 MSG_JOIN_ROOM (writeU32 1) { random := [some token] }

/-- Alice's connection is lost. -/
def partyWithoutHost : List (Env × Event) := party ++ [(quiet, .hangup 5)]

/-- Alice comes back on a new connection, and is to resume. -/
def hostReturns : List (Env × Event) :=
  partyWithoutHost ++ connect 7 ++
    say 7 0 MSG_LOGIN (resumeLoginBody (ascii "alice") 1 1 token) quiet

end Sample

/-- The state after a scripted run of the sample server. -/
def played (events : List (Env × Event)) : Option Server :=
  (start {} Sample.authHash Sample.authSalt).script .sample events

theorem reachable_of_played {events : List (Env × Event)} {good : Server → Bool}
    (h : (played events).any good = true) :
    ∃ s, Reachable .sample {} Sample.authHash Sample.authSalt s ∧ good s = true := by
  rcases hs : played events with _ | s
  · rw [hs] at h
    cases h
  · rw [hs] at h
    exact ⟨s, Reachable.start.script .sample hs, h⟩

set_option maxRecDepth 100000 in
/-- Two sessions share a room. -/
theorem party_played : (played Sample.party).any (fun s =>
    decide (s.clients.size = 2 ∧ s.rooms.size = 1 ∧ ((s.rooms.getRoom 1).map (·.leases.length)) =
      some 2)) = true := by
  decide +kernel

/-! ### Identities -/

/-- Some session has the peer id. -/
def OwnedId (s : Server) (p : Nat) : Prop :=
  ∃ (fd : Fd) (c : ClientSession), s.clients[fd]? = some c ∧ c.peerId = p

/-- Some room holds a lease of the peer. -/
def LeasedId (s : Server) (p : Nat) : Prop :=
  ∃ R room, s.rooms.getRoom R = some room ∧ ∃ l ∈ room.leases, l.peerId = p

/-- Every id has one owner, the indexes are exactly the bindings of the
    sessions, and what is free is not in use. -/
structure IdentitySafe (s : Server) : Prop where
  peer_owner : ∀ {fd fd' : Fd} {c c' : ClientSession}, s.clients[fd]? = some c →
    s.clients[fd']? = some c' → c.peerId ≠ 0 →
    c'.peerId = c.peerId → fd' = fd
  secure_owner : ∀ {fd fd' : Fd} {c c' : ClientSession}, s.clients[fd]? = some c →
    s.clients[fd']? = some c' → c.state ≠ .closing →
    c'.state ≠ .closing → c.secureSessionId ≠ 0 → c'.secureSessionId = c.secureSessionId → fd' = fd
  data_owner : ∀ {fd fd' d : Fd} {c c' : ClientSession}, s.clients[fd]? = some c →
    s.clients[fd']? = some c' → c.dataFd = some d →
    c'.dataFd = some d → fd' = fd
  peerMap_entry : ∀ {p fd : Nat}, s.peerMap[p]? = some fd →
    p ≠ 0 ∧ ∃ c : ClientSession, s.clients[fd]? = some c ∧ c.peerId = p
  peerMap_bound : ∀ {fd : Fd} {c : ClientSession}, s.clients[fd]? = some c → c.peerId ≠ 0 →
      s.peerMap[c.peerId]? = some fd
  secure_entry : ∀ {i fd : Nat}, s.secureSessionMap[i]? = some fd →
    i ≠ 0 ∧ ∃ c : ClientSession, s.clients[fd]? = some c ∧ c.secureSessionId = i
  secure_bound : ∀ {fd : Fd} {c : ClientSession}, s.clients[fd]? = some c → c.state ≠ .closing →
    c.secureSessionId ≠ 0 →
    s.secureSessionMap[c.secureSessionId]? = some fd
  data_entry : ∀ {d fd : Fd}, s.dataFdMap[d]? = some fd →
    ∃ c : ClientSession, s.clients[fd]? = some c ∧ c.dataFd = some d
  data_bound : ∀ {fd d : Fd} {c : ClientSession}, s.clients[fd]? = some c → c.dataFd = some d →
      s.dataFdMap[d]? = some fd
  lease_once : ∀ {R room}, s.rooms.getRoom R = some room → (room.leases.map (·.peerId)).Nodup
  lease_unique : ∀ {R R' room room' l l'}, s.rooms.getRoom R = some room →
    s.rooms.getRoom R' = some room' →
    l ∈ room.leases → l' ∈ room'.leases → l'.peerId = l.peerId → R' = R ∧ l' = l
  free : ∀ {i}, i ∈ s.freePeerIds → ¬ s.OwnedId i ∧ ¬ s.LeasedId i
  allocate : s.allocatePeerId.1 ≠ 0 ∧ ¬ s.OwnedId s.allocatePeerId.1 ∧
      ¬ s.LeasedId s.allocatePeerId.1

theorem owned_registry {p : Nat} : s.registry.Owned p ↔ s.OwnedId p := by
  constructor
  · rintro ⟨fd, c, hc, rfl⟩
    obtain ⟨d, hd, rfl⟩ := exists_of_sessions hc
    exact ⟨fd, d, hd, rfl⟩
  · rintro ⟨fd, c, hc, rfl⟩
    exact ⟨fd, c.toSess, sessions_registry hc, rfl⟩

theorem lease_registry {R : Nat} {l : RoomLease} :
    s.registry.Lease R l ↔ ∃ room, s.rooms.getRoom R = some room ∧ l ∈ room.leases := by
  constructor
  · rintro ⟨ls, hls, hl⟩
    obtain ⟨room, hroom, rfl⟩ := Option.map_eq_some_iff.mp hls
    exact ⟨room, hroom, hl⟩
  · rintro ⟨room, hroom, hl⟩
    exact ⟨room.leases, rooms_registry hroom, hl⟩

theorem noLease_registry {p : Nat} : s.registry.NoLease p ↔ ¬ s.LeasedId p := by
  constructor
  · rintro h ⟨R, room, hroom, l, hl, hp⟩
    exact h R ⟨l, lease_registry.mpr ⟨room, hroom, hl⟩, hp⟩
  · rintro h R ⟨l, hl, hp⟩
    obtain ⟨room, hroom, hl⟩ := lease_registry.mp hl
    exact h ⟨R, room, hroom, l, hl, hp⟩

/-- A new id is free or was never given out. -/
theorem allocatePeerId_unused {S : Reg.Scope} (h : s.registry.Inv S) :
    s.allocatePeerId.1 ≠ 0 ∧ ¬ s.registry.Owned s.allocatePeerId.1 ∧
    s.registry.NoLease s.allocatePeerId.1 := by
  obtain ⟨⟨hfree, _⟩ | ⟨hnext, _⟩, _⟩ := allocatePeerId_spec s
  · obtain ⟨h0, _, hown, hno⟩ := h.leased.free hfree
    exact ⟨h0, hown, hno⟩
  · rw [hnext]
    refine ⟨h.leased.next_pos.ne', ?_, ?_⟩
    · rintro ⟨fd, c, hc, hp⟩
      have hlt := h.leased.session_id hc
      omega
    · rintro R ⟨l, hl, hp⟩
      have hlt := (h.leased.lease_id hl).2
      omega

theorem identitySafe_of_inv {S : Reg.Scope} (h : s.registry.Inv S) : IdentitySafe s := by
  have hix := h.indexed
  have hle := h.leased
  have hpeer : ∀ {fd : Fd} {c : ClientSession}, s.clients[fd]? = some c → c.peerId ≠ 0 →
      s.peerMap[c.peerId]? = some fd :=
    fun hc h0 => hix.peer.mpr ⟨h0, _, sessions_registry hc, rfl⟩
  have hdata : ∀ {fd d : Fd} {c : ClientSession}, s.clients[fd]? = some c → c.dataFd = some d →
      s.dataFdMap[d]? = some fd :=
    fun hc hd => hix.data.mpr ⟨_, sessions_registry hc, hd⟩
  constructor
  case peer_owner =>
    intro fd fd' c c' hc hc' h0 heq
    have hentry := hpeer hc' (heq ▸ h0)
    rw [heq, hpeer hc h0] at hentry
    exact (Option.some.inj hentry).symm
  case secure_owner =>
    intro fd fd' c c' hc hc' hst hst' h0 heq
    have hbound := hix.secured (sessions_registry hc) hst h0
    have hbound' :=
      hix.secured (sessions_registry hc') hst' (show c'.secureSessionId ≠ 0 from heq ▸ h0)
    rw [show c'.toSess.secureSessionId = c.toSess.secureSessionId from heq, hbound] at hbound'
    exact (Option.some.inj hbound').symm
  case data_owner =>
    intro fd fd' d c c' hc hc' hd hd'
    have hentry := hdata hc' hd'
    rw [hdata hc hd] at hentry
    exact (Option.some.inj hentry).symm
  case peerMap_entry =>
    intro p fd hp
    obtain ⟨h0, c, hc, hpeerId⟩ := hix.peer.mp hp
    obtain ⟨d, hd, rfl⟩ := exists_of_sessions hc
    exact ⟨h0, d, hd, hpeerId⟩
  case peerMap_bound => exact hpeer
  case secure_entry =>
    intro i fd hi
    obtain ⟨h0, c, hc, hsid⟩ := hix.secure hi
    obtain ⟨d, hd, rfl⟩ := exists_of_sessions hc
    exact ⟨h0, d, hd, hsid⟩
  case secure_bound => exact fun hc hst h0 => hix.secured (sessions_registry hc) hst h0
  case data_entry =>
    intro d fd hd
    obtain ⟨c, hc, hdf⟩ := hix.data.mp hd
    obtain ⟨e, he, rfl⟩ := exists_of_sessions hc
    exact ⟨e, he, hdf⟩
  case data_bound => exact hdata
  case lease_once => exact fun hroom => (hle.room (rooms_registry hroom)).1
  case lease_unique =>
    intro R R' room room' l l' hroom hroom' hl hl' hp
    exact hle.unique (lease_registry.mpr ⟨room', hroom', hl'⟩)
      (lease_registry.mpr ⟨room, hroom, hl⟩) hp
  case free =>
    intro i hi
    obtain ⟨_, _, hown, hno⟩ := hle.free (i := i) hi
    exact ⟨fun ho => hown (owned_registry.mpr ho), noLease_registry.mp hno⟩
  case allocate =>
    obtain ⟨h0, hown, hno⟩ := allocatePeerId_unused h
    exact ⟨h0, fun ho => hown (owned_registry.mpr ho), noLease_registry.mp hno⟩

/-- **Identity and index safety.**  `Reachable` lets `accept` return only
    descriptors that are not open. -/
theorem reachable_identitySafe (h : Reachable K limits hash salt s) : IdentitySafe s :=
  identitySafe_of_inv (h.sound K).good.inv

/-- Two members of a room. -/
theorem reachable_identitySafe_party :
    ∃ s : Server, Reachable .sample {} Sample.authHash Sample.authSalt s ∧
    s.clients.size = 2 ∧ IdentitySafe s := by
  obtain ⟨s, hs, hparty⟩ := reachable_of_played party_played
  exact ⟨s, hs, (of_decide_eq_true hparty).1, reachable_identitySafe .sample hs⟩

/-! ### Rooms -/

/-- Every room is in order, and so is the table of rooms. -/
structure RoomsSafe (limits : ServerLimits) (s : Server) : Prop where
  players : ∀ {R room}, s.rooms.getRoom R = some room → 1 ≤ room.leases.length ∧
    room.leases.length ≤ room.maxPlayers ∧ 2 ≤ room.maxPlayers ∧ room.maxPlayers ≤ 8
  peers : ∀ {R room}, s.rooms.getRoom R = some room →
    (room.leases.map (·.peerId)).Nodup ∧ ∀ l ∈ room.leases, l.peerId ≠ 0
  addresses : ∀ {R room}, s.rooms.getRoom R = some room → (room.leases.map (·.virtualIP)).Nodup ∧
    ∀ l ∈ room.leases, 0x0A0A0002 ≤ l.virtualIP ∧ l.virtualIP ≤ 0x0A0A00FE
  host : ∀ {R room}, s.rooms.getRoom R = some room → ∃ l ∈ room.leases, l.peerId = room.hostPeerId
  key : ∀ {R room}, s.rooms.getRoom R = some room → R = room.id ∧ R ≠ 0
  free : ∀ {R room}, s.rooms.getRoom R = some room → R ∉ s.rooms.freeRoomIds
  covered : ∀ R, 1 ≤ R → R < s.rooms.nextRoomId → R ∈ s.rooms.rooms ∨ R ∈ s.rooms.freeRoomIds
  capacity : s.rooms.rooms.size ≤ limits.maxRooms
  next : s.rooms.nextRoomId ≤ limits.maxRooms + 1

/-- As many ids as there are below the next one are used or free, so all are. -/
theorem covered_of_wf {cap : Nat} {m : RoomManager} (h : m.WF cap) {R : Nat} (hpos : 1 ≤ R)
    (hlt : R < m.nextRoomId) : R ∈ m.rooms ∨ R ∈ m.freeRoomIds := by
  have hkeys : ∀ {i}, i ∈ m.rooms.keys ↔ i ∈ m.rooms := Std.ExtTreeMap.mem_keys
  have hfree : ∀ {i}, i ∈ m.freeRoomIds.toList ↔ i ∈ m.freeRoomIds := Std.ExtTreeSet.mem_toList
  have hroom : ∀ {i}, i ∈ m.rooms → i ≠ 0 ∧ i < m.nextRoomId ∧ i ∉ m.freeRoomIds := by
    intro i hi
    obtain ⟨r, hr⟩ := Option.isSome_iff_exists.mp (Std.ExtTreeMap.mem_iff_isSome_getElem?.mp hi)
    obtain ⟨_, h0, hlt, hnf, _⟩ := h.room hr
    exact ⟨h0, hlt, hnf⟩
  have hnodup : (m.rooms.keys ++ m.freeRoomIds.toList).Nodup := by
    refine List.nodup_append.mpr ⟨Std.ExtTreeMap.nodup_keys,
      Std.ExtTreeSet.distinct_toList.imp Std.ReflCmp.ne_of_cmp_ne_eq, ?_⟩
    rintro i hi _ hj rfl
    exact (hroom (hkeys.mp hi)).2.2 (hfree.mp hj)
  have hsub : (m.rooms.keys ++ m.freeRoomIds.toList).toFinset ⊆ Finset.Ico 1 m.nextRoomId := by
    intro i hi
    rw [List.mem_toFinset, List.mem_append] at hi
    rw [Finset.mem_Ico]
    rcases hi with hi | hi
    · obtain ⟨h0, hlt, _⟩ := hroom (hkeys.mp hi)
      exact ⟨Nat.one_le_iff_ne_zero.mpr h0, hlt⟩
    · obtain ⟨h0, hlt⟩ := h.free (hfree.mp hi)
      exact ⟨Nat.one_le_iff_ne_zero.mpr h0, hlt⟩
  have hcard : (m.rooms.keys ++ m.freeRoomIds.toList).toFinset.card =
      (Finset.Ico 1 m.nextRoomId).card := by
    rw [List.toFinset_card_of_nodup hnodup, Nat.card_Ico, h.counted, List.length_append,
      Std.ExtTreeMap.length_keys, Std.ExtTreeSet.length_toList]
    omega
  have hmem : R ∈ (m.rooms.keys ++ m.freeRoomIds.toList).toFinset := by
    rw [Finset.eq_of_subset_of_card_le hsub hcard.ge]
    exact Finset.mem_Ico.mpr ⟨hpos, hlt⟩
  rw [List.mem_toFinset, List.mem_append] at hmem
  exact hmem.imp hkeys.mp hfree.mp

/-- **Rooms, leases and virtual addresses.** -/
theorem reachable_roomsSafe (h : Reachable K limits hash salt s) : RoomsSafe limits s := by
  have hs := h.sound K
  have hwf := hs.good.rooms
  rw [hs.limits] at hwf
  constructor
  case players =>
    intro R room hroom
    obtain ⟨_, _, _, _, hlist⟩ := hwf.room hroom
    obtain ⟨l, hl, _⟩ := hs.housed hroom
    exact ⟨List.length_pos_of_mem hl, hlist.members, hlist.minPlayers, hlist.maxPlayers⟩
  case peers =>
    intro R room hroom
    refine ⟨(hs.good.inv.leased.room (rooms_registry hroom)).1, fun l hl => ?_⟩
    exact (hs.good.inv.leased.lease_id (lease_registry.mpr ⟨room, hroom, hl⟩)).1
  case addresses =>
    intro R room hroom
    obtain ⟨_, _, _, _, hlist⟩ := hwf.room hroom
    exact ⟨hlist.addresses, hlist.hosts⟩
  case host => exact fun hroom => hs.housed hroom
  case key =>
    intro R room hroom
    obtain ⟨hid, h0, _⟩ := hwf.room hroom
    exact ⟨hid.symm, h0⟩
  case free =>
    intro R room hroom
    obtain ⟨_, _, _, hnf, _⟩ := hwf.room hroom
    exact hnf
  case covered => exact fun R hpos hlt => covered_of_wf hwf hpos hlt
  case capacity =>
    have hcount := hwf.counted
    have hcap := hwf.capacity
    omega
  case next => exact hwf.capacity

/-- Two members of a room. -/
theorem reachable_roomsSafe_party :
    ∃ s : Server, Reachable .sample {} Sample.authHash Sample.authSalt s ∧
    s.rooms.size = 1 ∧ RoomsSafe {} s := by
  obtain ⟨s, hs, hparty⟩ := reachable_of_played party_played
  exact ⟨s, hs, (of_decide_eq_true hparty).2.1, reachable_roomsSafe .sample hs⟩

end Server

end VlanConnect

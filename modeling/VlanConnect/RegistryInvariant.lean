/-
  VlanConnect/RegistryInvariant.lean
  ==================================
  **The invariant of the registry.**

  Three parts: the indexes are exactly the bindings of the sessions
  (`Indexed`), every session is in order by itself (`Sess.WF`), and leases,
  sessions and free ids agree (`Leased`).  Most steps leave most of this alone;
  the two `of_…` lemmas say what a step has to keep of each session for the
  indexes and for the leases to stay right.
-/
import VlanConnect.Registry

namespace VlanConnect

namespace Registry

variable (S : Reg.Scope)

/-- What holds of every session by itself. -/
structure Sess.WF (c : Sess) : Prop where
  identity : sessionHasPeerIdentity c.state = true ↔ c.peerId ≠ 0
  inRoom : c.state = .inRoom ↔ c.roomId ≠ 0
  data : c.dataFd ≠ none → sessionHasPeerIdentity c.state = true
  early : c.state = .awaitHello ∨ c.state = .awaitServerAuth → c.secureSessionId = 0
  auth : c.state ≠ .awaitHello → c.state ≠ .awaitServerAuth → c.state ≠ .closing →
    c.serverAuthOk = true ∧ c.secureEnabled = true ∧ c.secureSessionId ≠ 0 ∧
      S.Auth c.transcript c.secureSessionId
  resume : c.state = .resumePending →
    c.resumeRoomId ≠ 0 ∧ c.resumePeerId = c.peerId ∧ Server.tokenIsZero c.resumeToken = false
  name : c.name.length < 2 ^ 16

namespace Reg

/-- The indexes are exactly the bindings of the sessions, and a descriptor has
    one use. -/
structure Indexed (r : Reg) : Prop where
  tcpFd : ∀ {fd c}, r.sessions fd = some c → c.tcpFd = fd
  peer : ∀ {p fd}, r.peerMap p = some fd ↔ p ≠ 0 ∧ ∃ c, r.sessions fd = some c ∧ c.peerId = p
  secure : ∀ {i fd}, r.secureSessionMap i = some fd →
    i ≠ 0 ∧ ∃ c, r.sessions fd = some c ∧ c.secureSessionId = i
  secured : ∀ {fd c}, r.sessions fd = some c → c.state ≠ .closing → c.secureSessionId ≠ 0 →
    r.secureSessionMap c.secureSessionId = some fd
  data : ∀ {d fd}, r.dataFdMap d = some fd ↔ ∃ c, r.sessions fd = some c ∧ c.dataFd = some d
  session_fd : ∀ {fd c}, r.sessions fd = some c → fd ∈ r.openFds ∧ fd ∉ r.pending
  data_fd : ∀ {fd c d}, r.sessions fd = some c → c.dataFd = some d →
    d ∈ r.openFds ∧ d ∉ r.pending ∧ r.sessions d = none
  pending_fd : ∀ {fd}, fd ∈ r.pending → fd ∈ r.openFds

/-- The leases of a room belong to different peers, and can be listed. -/
def RoomOk (ls : List RoomLease) : Prop :=
  (ls.map (·.peerId)).Nodup ∧ ls.length < 256 ∧ ∀ l ∈ ls, Sized l

/-- Leases, their sessions and the free ids agree. -/
structure Leased (r : Reg) : Prop where
  room_id : r.rooms 0 = none
  room : ∀ {R ls}, r.rooms R = some ls → RoomOk ls
  lease_id : ∀ {R l}, r.Lease R l → l.peerId ≠ 0 ∧ l.peerId < r.next
  unique : ∀ {R R' l l'}, r.Lease R l → r.Lease R' l' → l.peerId = l'.peerId → R = R' ∧ l = l'
  owner : ∀ {R l fd c}, r.Lease R l → r.sessions fd = some c → c.peerId = l.peerId → c.Holds R l
  live : ∀ {fd c}, r.sessions fd = some c → c.alive = true → c.state = .inRoom →
    ∃ l, r.Lease c.roomId l ∧ l.peerId = c.peerId ∧ l.virtualIP = c.virtualIP ∧ l.online = true
  online : ∀ {R l}, r.Lease R l → l.online = true →
    ∃ fd c, r.sessions fd = some c ∧ c.peerId = l.peerId ∧ c.state = .inRoom
  next_pos : 0 < r.next
  session_id : ∀ {fd c}, r.sessions fd = some c → c.peerId < r.next
  free : ∀ {i}, i ∈ r.free → i ≠ 0 ∧ i < r.next ∧ ¬ r.Owned i ∧ r.NoLease i

structure Inv (r : Reg) : Prop where
  indexed : r.Indexed
  leased : r.Leased
  wf : ∀ {fd c}, r.sessions fd = some c → c.WF S

/-! ### Steps that keep the keys of every session -/

/-- The fields the indexes are about; a closing session stays closing. -/
structure SameKeys (c c' : Sess) : Prop where
  tcpFd : c'.tcpFd = c.tcpFd
  peerId : c'.peerId = c.peerId
  secureSessionId : c'.secureSessionId = c.secureSessionId
  dataFd : c'.dataFd = c.dataFd
  closing : c.state = .closing → c'.state = .closing

/-- Two session tables that agree pointwise up to `rel`. -/
def Pointwise (rel : Sess → Sess → Prop) (σ σ' : Fd → Option Sess) : Prop :=
  ∀ fd, Option.Rel rel (σ fd) (σ' fd)

theorem Pointwise.back {rel : Sess → Sess → Prop} {σ σ' : Fd → Option Sess} (h : Pointwise rel σ σ')
    {fd : Fd} {c' : Sess} (hc : σ' fd = some c') : ∃ c, σ fd = some c ∧ rel c c' := by
  have hfd := h fd
  rw [hc] at hfd
  rcases hσ : σ fd with _ | c
  · rw [hσ] at hfd; cases hfd
  · rw [hσ] at hfd; cases hfd with
    | some hrel => exact ⟨c, rfl, hrel⟩

theorem Pointwise.forth {rel : Sess → Sess → Prop} {σ σ' : Fd → Option Sess}
    (h : Pointwise rel σ σ') {fd : Fd} {c : Sess} (hc : σ fd = some c) :
    ∃ c', σ' fd = some c' ∧ rel c c' := by
  have hfd := h fd
  rw [hc] at hfd
  rcases hσ : σ' fd with _ | c'
  · rw [hσ] at hfd; cases hfd
  · rw [hσ] at hfd; cases hfd with
    | some hrel => exact ⟨c', rfl, hrel⟩

theorem Pointwise.none {rel : Sess → Sess → Prop} {σ σ' : Fd → Option Sess} (h : Pointwise rel σ σ')
    {fd : Fd} (hc : σ fd = none) : σ' fd = none := by
  have hfd := h fd
  rw [hc] at hfd
  cases hσ : σ' fd with
  | none => rfl
  | some c' => rw [hσ] at hfd; cases hfd

theorem optionRel_imp {rel rel' : Sess → Sess → Prop} {a b : Option Sess} (h : Option.Rel rel a b)
    (himp : ∀ {c c'}, a = some c → rel c c' → rel' c c') : Option.Rel rel' a b := by
  cases h with
  | some hrel => exact .some (himp rfl hrel)
  | none => exact .none

theorem Pointwise.mono {rel rel' : Sess → Sess → Prop} {σ σ' : Fd → Option Sess}
    (h : Pointwise rel σ σ') (himp : ∀ {c c'}, rel c c' → rel' c c') : Pointwise rel' σ σ' :=
  fun fd => optionRel_imp (h fd) fun _ => himp

theorem Pointwise.refl {rel : Sess → Sess → Prop} (hrefl : ∀ c, rel c c) (σ : Fd → Option Sess) :
    Pointwise rel σ σ := by
  intro fd
  cases σ fd with
  | none => exact .none
  | some c => exact .some (hrefl c)

theorem Pointwise.trans {rel : Sess → Sess → Prop} {σ σ' σ'' : Fd → Option Sess}
    (h : Pointwise rel σ σ') (h' : Pointwise rel σ' σ'')
    (htrans : ∀ a b c, rel a b → rel b c → rel a c) :
    Pointwise rel σ σ'' := by
  intro fd
  have h₁ := h fd
  have h₂ := h' fd
  revert h₁ h₂
  generalize σ fd = a
  generalize σ' fd = b
  generalize σ'' fd = c
  intro h₁ h₂
  cases h₁ with
  | none => exact h₂
  | some hab =>
    cases h₂ with
    | some hbc => exact .some (htrans _ _ _ hab hbc)

/-- Changing one session. -/
theorem Pointwise.update {rel : Sess → Sess → Prop} (hrefl : ∀ c, rel c c) {σ : Fd → Option Sess}
    {fd : Fd} {c d : Sess} (h : σ fd = some c) (hrel : rel c d) :
    Pointwise rel σ (Function.update σ fd (some d)) := by
  intro g
  by_cases hg : g = fd
  · subst hg
    rw [h, Function.update_self]
    exact .some hrel
  · rw [Function.update_of_ne hg]
    exact Pointwise.refl hrefl σ g

theorem SameKeys.refl (c : Sess) : SameKeys c c := ⟨rfl, rfl, rfl, rfl, id⟩

theorem Indexed.of_keys {r r' : Reg} (h : r.Indexed)
    (hs : Pointwise SameKeys r.sessions r'.sessions) (hp : r'.peerMap = r.peerMap)
    (hi : r'.secureSessionMap = r.secureSessionMap) (hd : r'.dataFdMap = r.dataFdMap)
    (hpend : r'.pending = r.pending) (ho : r'.openFds = r.openFds) :
    r'.Indexed where
  tcpFd hc := by
    obtain ⟨c, hc, hk⟩ := hs.back hc
    exact hk.tcpFd.trans (h.tcpFd hc)
  peer {p fd} := by
    rw [hp, h.peer]
    refine and_congr_right fun _ => ⟨?_, ?_⟩
    · rintro ⟨c, hc, rfl⟩
      obtain ⟨c', hc', hk⟩ := hs.forth hc
      exact ⟨c', hc', hk.peerId⟩
    · rintro ⟨c', hc', rfl⟩
      obtain ⟨c, hc, hk⟩ := hs.back hc'
      exact ⟨c, hc, hk.peerId.symm⟩
  secure hm := by
    rw [hi] at hm
    obtain ⟨hne, c, hc, hsid⟩ := h.secure hm
    obtain ⟨c', hc', hk⟩ := hs.forth hc
    exact ⟨hne, c', hc', hk.secureSessionId.trans hsid⟩
  secured hc' hst hsid := by
    obtain ⟨c, hc, hk⟩ := hs.back hc'
    rw [hi, hk.secureSessionId]
    exact h.secured hc (fun hcl => hst (hk.closing hcl)) (hk.secureSessionId ▸ hsid)
  data {d fd} := by
    rw [hd, h.data]
    constructor
    · rintro ⟨c, hc, hdf⟩
      obtain ⟨c', hc', hk⟩ := hs.forth hc
      exact ⟨c', hc', hk.dataFd.trans hdf⟩
    · rintro ⟨c', hc', hdf⟩
      obtain ⟨c, hc, hk⟩ := hs.back hc'
      exact ⟨c, hc, hk.dataFd ▸ hdf⟩
  session_fd hc' := by
    obtain ⟨c, hc, _⟩ := hs.back hc'
    rw [ho, hpend]
    exact h.session_fd hc
  data_fd hc' hdf := by
    obtain ⟨c, hc, hk⟩ := hs.back hc'
    obtain ⟨hopen, hnp, hnone⟩ := h.data_fd hc (hk.dataFd ▸ hdf)
    rw [ho, hpend]
    exact ⟨hopen, hnp, hs.none hnone⟩
  pending_fd hfd := by
    rw [ho]
    rw [hpend] at hfd
    exact h.pending_fd hfd

/-! ### Steps that keep every membership -/

/-- The session keeps its id and, if it is in a room or may resume, its place. -/
structure Stays (c c' : Sess) : Prop where
  peerId : c'.peerId = c.peerId
  alive : c'.alive = true → c.alive = true
  inRoom : c'.state = .inRoom ↔ c.state = .inRoom
  place : c.state = .inRoom → c'.roomId = c.roomId ∧ c'.virtualIP = c.virtualIP
  resume : c.state = .resumePending → c'.state = .resumePending ∧
    c'.resumeRoomId = c.resumeRoomId ∧ c'.resumeToken = c.resumeToken

theorem Stays.refl (c : Sess) : Stays c c :=
  ⟨rfl, id, Iff.rfl, fun _ => ⟨rfl, rfl⟩, fun h => ⟨h, rfl, rfl⟩⟩

theorem Stays.holds {c c' : Sess} (h : Stays c c') {R : Nat} {l : RoomLease} (hh : c.Holds R l) :
    c'.Holds R l := by
  rcases hh with ⟨hst, hR⟩ | ⟨hst, hR, ht⟩
  · exact Or.inl ⟨h.inRoom.mpr hst, (h.place hst).1.trans hR⟩
  · obtain ⟨hst', hR', ht'⟩ := h.resume hst
    exact Or.inr ⟨hst', hR'.trans hR, ht'.trans ht⟩

theorem Leased.of_stays {r r' : Reg} (h : r.Leased) (hs : Pointwise Stays r.sessions r'.sessions)
    (hr : r'.rooms = r.rooms) (hn : r'.next = r.next) (hf : r'.free = r.free) : r'.Leased := by
  have hlease : ∀ {R l}, r'.Lease R l → r.Lease R l := by
    rintro R l ⟨ls, hls, hl⟩
    exact ⟨ls, hr ▸ hls, hl⟩
  have hlease' : ∀ {R l}, r.Lease R l → r'.Lease R l := by
    rintro R l ⟨ls, hls, hl⟩
    exact ⟨ls, by rw [hr]; exact hls, hl⟩
  constructor
  case room_id => rw [hr]; exact h.room_id
  case room =>
    intro R ls hls
    rw [hr] at hls
    exact h.room hls
  case lease_id =>
    intro R l hl
    rw [hn]
    exact h.lease_id (hlease hl)
  case unique =>
    intro R R' l l' hl hl' hp
    exact h.unique (hlease hl) (hlease hl') hp
  case owner =>
    intro R l fd c' hl hc' hp
    obtain ⟨c, hc, hst⟩ := hs.back hc'
    exact hst.holds (h.owner (hlease hl) hc (hst.peerId.symm.trans hp))
  case live =>
    intro fd c' hc' ha hst'
    obtain ⟨c, hc, hst⟩ := hs.back hc'
    have hin := hst.inRoom.mp hst'
    obtain ⟨hroom, hvip⟩ := hst.place hin
    obtain ⟨l, hl, hfacts⟩ := h.live hc (hst.alive ha) hin
    rw [hroom, hvip, hst.peerId]
    exact ⟨l, hlease' hl, hfacts⟩
  case online =>
    intro R l hl ho
    obtain ⟨fd, c, hc, hp, hst⟩ := h.online (hlease hl) ho
    obtain ⟨c', hc', hstay⟩ := hs.forth hc
    exact ⟨fd, c', hc', hstay.peerId.trans hp, hstay.inRoom.mpr hst⟩
  case next_pos => rw [hn]; exact h.next_pos
  case session_id =>
    intro fd c' hc'
    obtain ⟨c, hc, hst⟩ := hs.back hc'
    rw [hst.peerId, hn]
    exact h.session_id hc
  case free =>
    intro i hi
    rw [hf] at hi
    obtain ⟨h0, hlt, hown, hno⟩ := h.free hi
    refine ⟨h0, by rw [hn]; exact hlt, ?_, ?_⟩
    · rintro ⟨fd, c', hc', rfl⟩
      obtain ⟨c, hc, hst⟩ := hs.back hc'
      exact hown ⟨fd, c, hc, hst.peerId.symm⟩
    · rintro R ⟨l, hl, hp⟩
      exact hno R ⟨l, hlease hl, hp⟩

/-! ### Steps that concern one peer -/

/-- Nothing changes but for the peer `p`: other leases stay, and other sessions
    stay or have no id. -/
structure OnlyPeer (r r' : Reg) (p : Nat) : Prop where
  leases : ∀ {R l}, l.peerId ≠ p → (r'.Lease R l ↔ r.Lease R l)
  back : ∀ {g c'}, r'.sessions g = some c' → c'.peerId ≠ p →
    r.sessions g = some c' ∨ c'.peerId = 0 ∧ c'.state ≠ .inRoom
  forth : ∀ {g c}, r.sessions g = some c → c.peerId ≠ p → c.peerId ≠ 0 → r'.sessions g = some c
  next : r.next ≤ r'.next
  free : ∀ {i}, i ∈ r'.free → i ≠ p → i ∈ r.free

/-- What has to hold for the peer `p` afterwards. -/
structure PeerOk (r : Reg) (p : Nat) : Prop where
  lease_id : ∀ {R l}, r.Lease R l → l.peerId = p → p ≠ 0 ∧ p < r.next
  unique : ∀ {R R' l l'}, r.Lease R l → r.Lease R' l' → l.peerId = p → l'.peerId = p →
      R = R' ∧ l = l'
  owner : ∀ {R l g c}, r.Lease R l → r.sessions g = some c → l.peerId = p →
      c.peerId = p → c.Holds R l
  live : ∀ {g c}, r.sessions g = some c → c.peerId = p → c.alive = true → c.state = .inRoom →
    ∃ l, r.Lease c.roomId l ∧ l.peerId = p ∧ l.virtualIP = c.virtualIP ∧ l.online = true
  online : ∀ {R l}, r.Lease R l → l.peerId = p → l.online = true →
    ∃ g c, r.sessions g = some c ∧ c.peerId = p ∧ c.state = .inRoom
  session_id : ∀ {g c}, r.sessions g = some c → c.peerId = p → p < r.next
  free : p ∈ r.free → p ≠ 0 ∧ p < r.next ∧ ¬ r.Owned p ∧ r.NoLease p

theorem Leased.of_peer {r r' : Reg} {p : Nat} (h : r.Leased) (ho : OnlyPeer r r' p)
    (hp : PeerOk r' p) (hroom : r'.rooms 0 = none)
    (hls : ∀ {R ls}, r'.rooms R = some ls → RoomOk ls) :
    r'.Leased := by
  have hnext := ho.next
  constructor
  case room_id => exact hroom
  case room => exact hls
  case lease_id =>
    intro R l hl
    by_cases hlp : l.peerId = p
    · rw [hlp]
      exact hp.lease_id hl hlp
    · obtain ⟨h0, hlt⟩ := h.lease_id ((ho.leases hlp).mp hl)
      exact ⟨h0, by omega⟩
  case unique =>
    intro R R' l l' hl hl' heq
    by_cases hlp : l.peerId = p
    · exact hp.unique hl hl' hlp (heq ▸ hlp)
    · exact h.unique ((ho.leases hlp).mp hl) ((ho.leases (heq ▸ hlp)).mp hl') heq
  case owner =>
    intro R l g c' hl hc' heq
    by_cases hlp : l.peerId = p
    · exact hp.owner hl hc' hlp (heq.trans hlp)
    · have hold := (ho.leases hlp).mp hl
      rcases ho.back hc' (heq ▸ hlp) with hc | ⟨hzero, _⟩
      · exact h.owner hold hc heq
      · exact absurd (heq.symm.trans hzero) (h.lease_id hold).1
  case live =>
    intro g c' hc' ha hin
    by_cases hcp : c'.peerId = p
    · rw [hcp]
      exact hp.live hc' hcp ha hin
    · rcases ho.back hc' hcp with hc | ⟨_, hni⟩
      · obtain ⟨l, hl, hpid, hrest⟩ := h.live hc ha hin
        exact ⟨l, (ho.leases (hpid ▸ hcp)).mpr hl, hpid, hrest⟩
      · exact absurd hin hni
  case online =>
    intro R l hl hon
    by_cases hlp : l.peerId = p
    · rw [hlp]
      exact hp.online hl hlp hon
    · have hold := (ho.leases hlp).mp hl
      obtain ⟨g, c, hc, hpid, hst⟩ := h.online hold hon
      exact ⟨g, c, ho.forth hc (hpid ▸ hlp) (hpid ▸ (h.lease_id hold).1), hpid, hst⟩
  case next_pos => exact lt_of_lt_of_le h.next_pos hnext
  case session_id =>
    intro g c' hc'
    by_cases hcp : c'.peerId = p
    · rw [hcp]
      exact hp.session_id hc' hcp
    · rcases ho.back hc' hcp with hc | ⟨hzero, _⟩
      · exact lt_of_lt_of_le (h.session_id hc) hnext
      · rw [hzero]
        exact lt_of_lt_of_le h.next_pos hnext
  case free =>
    intro i hi
    by_cases hip : i = p
    · subst hip
      exact hp.free hi
    · obtain ⟨h0, hlt, hown, hno⟩ := h.free (ho.free hi hip)
      refine ⟨h0, by omega, ?_, ?_⟩
      · rintro ⟨g, c', hc', rfl⟩
        rcases ho.back hc' hip with hc | ⟨hzero, _⟩
        · exact hown ⟨g, c', hc, rfl⟩
        · exact h0 hzero
      · rintro R ⟨l, hl, rfl⟩
        exact hno R ⟨l, (ho.leases hip).mp hl, rfl⟩

end Reg

end Registry

end VlanConnect

/-
  VlanConnect/RegistrySteps.lean
  ==============================
  **Every step of the registry keeps the invariant** (`Step.inv`, `Run.inv`).

  The steps fall into four kinds: what sending does to sessions, changes of a
  single session, changes of an index, and changes of the lease of one peer.
  A step with a notice is one of the last kind before or after `tell`.
-/
import VlanConnect.RegistryInvariant

namespace VlanConnect

namespace Registry

/-! ### Lists of leases -/

theorem mem_dropLease {p : Nat} {l : RoomLease} {ls : List RoomLease} :
    l ∈ dropLease p ls ↔ l ∈ ls ∧ l.peerId ≠ p := by
  simp [dropLease]

theorem mem_mapLease {p : Nat} {f : RoomLease → RoomLease} {l : RoomLease} {ls : List RoomLease} :
    l ∈ mapLease p f ls ↔ ∃ l₀ ∈ ls, (if l₀.peerId = p then f l₀ else l₀) = l := by
  simp [mapLease]

theorem markOffline_expiresAt_pos (l : RoomLease) (now : Nat) : 0 < (l.markOffline now).expiresAt :=
  Nat.lt_of_lt_of_le (by decide) (Nat.le_add_left RECONNECT_LEASE_TIMEOUT_SEC now)

theorem KeepsLease.markOffline (now : Nat) : KeepsLease (·.markOffline now) :=
  ⟨fun _ => rfl, fun _ => rfl, fun _ => rfl, fun _ => rfl,
    fun l _ _ => markOffline_expiresAt_pos l now⟩

theorem KeepsLease.markOnline : KeepsLease (·.markOnline) :=
  ⟨fun _ => rfl, fun _ => rfl, fun _ => rfl, fun _ => rfl, fun _ _ h => nomatch h⟩

theorem KeepsLease.markOnlineOffline (now : Nat) :
    KeepsLease (fun l => l.markOnline.markOffline now) :=
  ⟨fun _ => rfl, fun _ => rfl, fun _ => rfl, fun _ => rfl,
    fun l _ _ => markOffline_expiresAt_pos l.markOnline now⟩

theorem KeepsLease.mapLease {f : RoomLease → RoomLease} (hf : KeepsLease f) (p : Nat)
    (l : RoomLease) :
    (if l.peerId = p then f l else l).peerId = l.peerId := by
  split
  · exact hf.peerId l
  · rfl

namespace Reg

theorem RoomOk.dropLease {ls : List RoomLease} (h : RoomOk ls) (p : Nat) :
    RoomOk (dropLease p ls) := by
  obtain ⟨hnd, hlen, hsz⟩ := h
  refine ⟨hnd.sublist (List.filter_sublist.map _), ?_, fun l hl => hsz l (mem_dropLease.mp hl).1⟩
  exact lt_of_le_of_lt (List.length_filter_le _ _) hlen

theorem RoomOk.mapLease {ls : List RoomLease} (h : RoomOk ls) (p : Nat) {f : RoomLease → RoomLease}
    (hf : KeepsLease f) : RoomOk (mapLease p f ls) := by
  obtain ⟨hnd, hlen, hsz⟩ := h
  refine ⟨?_, by simpa [Registry.mapLease] using hlen, ?_⟩
  · have hids : (Registry.mapLease p f ls).map (·.peerId) = ls.map (·.peerId) := by
      simp only [Registry.mapLease, List.map_map, List.map_inj_left, Function.comp]
      exact fun l _ => hf.mapLease p l
    rw [hids]
    exact hnd
  · intro l hl
    obtain ⟨l₀, hl₀, rfl⟩ := mem_mapLease.mp hl
    split
    · rw [Sized, hf.virtualIP, hf.name]
      exact ⟨(hsz l₀ hl₀).1, (hsz l₀ hl₀).2.1, hf.waits l₀ (hsz l₀ hl₀).2.2⟩
    · exact hsz l₀ hl₀

theorem RoomOk.append {ls : List RoomLease} (h : RoomOk ls) {l : RoomLease}
    (hnew : ∀ l₀ ∈ ls, l₀.peerId ≠ l.peerId) (hlen : ls.length < 255) (hl : Sized l) :
    RoomOk (ls ++ [l]) := by
  obtain ⟨hnd, _, hsz⟩ := h
  refine ⟨?_, by simp; omega, ?_⟩
  · rw [List.map_append, List.nodup_append]
    refine ⟨hnd, by simp, ?_⟩
    rintro a ha b hb rfl
    obtain ⟨l₀, hl₀, rfl⟩ := List.mem_map.mp ha
    exact hnew l₀ hl₀ (List.mem_singleton.mp hb)
  · intro l₀ hl₀
    rcases List.mem_append.mp hl₀ with h₀ | h₀
    · exact hsz l₀ h₀
    · rw [List.mem_singleton.mp h₀]
      exact hl

/-! ### Leases after a change of a room -/

theorem lease_setRoom {r : Reg} {R R' : Nat} {ls : List RoomLease} {l : RoomLease} :
    (r.setRoom R ls).Lease R' l ↔ R' = R ∧ l ∈ ls ∨ R' ≠ R ∧ r.Lease R' l := by
  unfold Lease setRoom
  by_cases hR : R' = R
  · subst hR
    simp
  · simp [hR]

theorem rooms_setRoom {r : Reg} {R R' : Nat} {ls ls' : List RoomLease}
    (h : (r.setRoom R ls).rooms R' = some ls') :
    R' = R ∧ ls' = ls ∨ R' ≠ R ∧ r.rooms R' = some ls' := by
  simp only [setRoom, Function.update_apply] at h
  split at h
  · next hR => exact Or.inl ⟨hR, (Option.some.inj h).symm⟩
  · next hR => exact Or.inr ⟨hR, h⟩

/-- A change of the leases of one peer in a room. -/
theorem lease_mapLease {r : Reg} {R R' p : Nat} {ls : List RoomLease} {f : RoomLease → RoomLease}
    {l : RoomLease} (hls : r.rooms R = some ls) :
    (r.setRoom R (mapLease p f ls)).Lease R' l ↔
      ∃ l₀, r.Lease R' l₀ ∧ (if R' = R ∧ l₀.peerId = p then f l₀ else l₀) = l := by
  rw [lease_setRoom, mem_mapLease]
  constructor
  · rintro (⟨rfl, l₀, hl₀, rfl⟩ | ⟨hR, hl⟩)
    · exact ⟨l₀, ⟨ls, hls, hl₀⟩, by simp⟩
    · exact ⟨l, hl, by simp [hR]⟩
  · rintro ⟨l₀, hl₀, rfl⟩
    by_cases hR : R' = R
    · subst hR
      obtain ⟨ls', hls', hmem⟩ := hl₀
      rw [hls] at hls'
      cases hls'
      exact Or.inl ⟨rfl, l₀, hmem, by simp⟩
    · exact Or.inr ⟨hR, by simpa [hR] using hl₀⟩

theorem lease_dropLease {r : Reg} {R R' p : Nat} {ls : List RoomLease} {l : RoomLease}
    (hls : r.rooms R = some ls) :
    (r.setRoom R (dropLease p ls)).Lease R' l ↔ r.Lease R' l ∧ ¬ (R' = R ∧ l.peerId = p) := by
  rw [lease_setRoom, mem_dropLease]
  constructor
  · rintro (⟨rfl, hl, hp⟩ | ⟨hR, hl⟩)
    · exact ⟨⟨ls, hls, hl⟩, fun h => hp h.2⟩
    · exact ⟨hl, fun h => hR h.1⟩
  · rintro ⟨hl, hn⟩
    by_cases hR : R' = R
    · subst hR
      obtain ⟨ls', hls', hmem⟩ := hl
      rw [hls] at hls'
      cases hls'
      exact Or.inl ⟨rfl, hmem, fun hp => hn ⟨rfl, hp⟩⟩
    · exact Or.inr ⟨hR, hl⟩

/-! ### Sending -/

theorem QuietSessions.trans {σ σ' σ'' : Fd → Option Sess} (h : QuietSessions σ σ')
    (h' : QuietSessions σ' σ'') : QuietSessions σ σ'' :=
  Pointwise.trans h h' fun _ _ _ => Sess.Quiet.trans

variable {S : Scope}

/-- The session is the same but for its streams, and may have died. -/
def Sends (c c' : Sess) : Prop := ∃ ext lost, c.Delivered ext lost c'

theorem Sends.refl (c : Sess) : Sends c c := ⟨[], [], Sess.Delivered.refl c⟩

theorem Sends.of_quiet {c c' : Sess} (h : c.Quiet c') : Sends c c' := by
  obtain ⟨ext, lost, hd, _⟩ := h
  exact ⟨ext, lost, hd⟩

theorem Sends.of_heard {m : Msg} {c c' : Sess} (h : c.Heard m c') : Sends c c' := by
  rcases h with h | h | ⟨h, _⟩
  · exact ⟨_, _, h⟩
  · exact ⟨_, _, h⟩
  · exact ⟨_, _, h⟩

theorem Sends.sameKeys {c c' : Sess} (h : Sends c c') : SameKeys c c' := by
  obtain ⟨ext, lost, hd⟩ := h
  rw [hd.same]
  exact ⟨rfl, rfl, rfl, rfl, id⟩

theorem Sends.stays {c c' : Sess} (h : Sends c c') : Stays c c' := by
  obtain ⟨ext, lost, hd⟩ := h
  refine ⟨?_, hd.alive, ?_, ?_, ?_⟩ <;> rw [hd.same]
  · exact fun _ => ⟨rfl, rfl⟩
  · exact fun hst => ⟨hst, rfl, rfl⟩

theorem Sends.wf {c c' : Sess} (h : Sends c c') (hwf : c.WF S) : c'.WF S := by
  obtain ⟨ext, lost, hd⟩ := h
  rw [hd.same]
  exact ⟨hwf.identity, hwf.inRoom, hwf.data, hwf.early, hwf.auth, hwf.resume, hwf.name⟩

theorem Noticed.sends {r : Reg} {R p : Nat} {m : Msg} {σ' : Fd → Option Sess}
    (h : r.Noticed R p m σ') : Pointwise Sends r.sessions σ' := by
  refine Pointwise.mono h fun {c c'} hc => ?_
  by_cases hh : r.Hears R p c
  · exact Sends.of_heard (hc.1 hh)
  · rw [hc.2 hh]
    exact Sends.refl c

/-- Sending keeps the invariant. -/
theorem Inv.send {r r' : Reg} (h : r.Inv S) (hs : Pointwise Sends r.sessions r'.sessions)
    (hrest : r' = { r with sessions := r'.sessions, notices := r'.notices }) : r'.Inv S := by
  refine ⟨h.indexed.of_keys (hs.mono Sends.sameKeys) ?_ ?_ ?_ ?_ ?_,
    h.leased.of_stays (hs.mono Sends.stays) ?_ ?_ ?_, ?_⟩
  case refine_9 =>
    intro fd c' hc'
    obtain ⟨c, hc, hsend⟩ := hs.back hc'
    exact hsend.wf (h.wf hc)
  all_goals rw [hrest]

theorem Inv.tell {r : Reg} (h : r.Inv S) {R p : Nat} {m : Msg} {σ' : Fd → Option Sess}
    (hσ : r.Noticed R p m σ') : (r.tell R p m σ').Inv S :=
  h.send hσ.sends rfl

/-! ### One session -/

theorem Indexed.owner_unique {r : Reg} (h : r.Indexed) {fd g : Fd} {c c' : Sess}
    (hc : r.sessions fd = some c) (hc' : r.sessions g = some c') (hp : c'.peerId = c.peerId)
    (h0 : c.peerId ≠ 0) : g = fd := by
  have hfd := h.peer.mpr ⟨h0, c, hc, rfl⟩
  have hg := h.peer.mpr ⟨h0, c', hc', hp⟩
  exact Option.some.inj (hg.symm.trans hfd)

/-- A change of one session that keeps its keys and its place. -/
theorem Inv.update {r : Reg} (h : r.Inv S) {fd : Fd} {c c' : Sess} (hc : r.sessions fd = some c)
    (hk : SameKeys c c') (hs : Stays c c') (hwf : c'.WF S) : (r.setSession fd c').Inv S := by
  refine ⟨h.indexed.of_keys (Pointwise.update SameKeys.refl hc hk) rfl rfl rfl rfl rfl,
    h.leased.of_stays (Pointwise.update Stays.refl hc hs) rfl rfl rfl, ?_⟩
  intro g d hd
  simp only [setSession, Function.update_apply] at hd
  split at hd
  · cases hd; exact hwf
  · exact h.wf hd

/-! ### The indexes -/

/-- A session gets an id. -/
theorem Indexed.insertPeer {r r' : Reg} (h : r.Indexed) {fd : Fd} {c c' : Sess}
    (hc : r.sessions fd = some c) (hs : r'.sessions = Function.update r.sessions fd (some c'))
    (hp : r'.peerMap = Function.update r.peerMap c'.peerId (some fd))
    (hi : r'.secureSessionMap = r.secureSessionMap)
    (hd : r'.dataFdMap = r.dataFdMap) (hpend : r'.pending = r.pending) (ho : r'.openFds = r.openFds)
    (h0 : c.peerId = 0) (hne : c'.peerId ≠ 0) (hown : ¬ r.Owned c'.peerId)
    (htcp : c'.tcpFd = c.tcpFd) (hsid : c'.secureSessionId = c.secureSessionId)
    (hdf : c'.dataFd = c.dataFd) (hst : c.state ≠ .closing) : r'.Indexed := by
  have hfree : ∀ g d, r.sessions g = some d → d.peerId ≠ c'.peerId :=
    fun g d hg hp => hown ⟨g, d, hg, hp⟩
  constructor <;> intros <;> simp only [hs, hp, hi, hd, hpend, ho, Function.update_apply] at *
  · grind [h.tcpFd]
  · grind [h.peer]
  · grind [h.secure]
  · grind [h.secured]
  · grind [h.data]
  · grind [h.session_fd]
  · grind [h.data_fd]
  · grind [h.pending_fd]

/-- A session gets a secure session id. -/
theorem Indexed.insertSecure {r r' : Reg} (h : r.Indexed) {fd : Fd} {c c' : Sess}
    (hc : r.sessions fd = some c) (hs : r'.sessions = Function.update r.sessions fd (some c'))
    (hp : r'.peerMap = r.peerMap)
    (hi : r'.secureSessionMap = Function.update r.secureSessionMap c'.secureSessionId (some fd))
    (hd : r'.dataFdMap = r.dataFdMap) (hpend : r'.pending = r.pending) (ho : r'.openFds = r.openFds)
    (h0 : c.secureSessionId = 0) (hne : c'.secureSessionId ≠ 0)
    (hfree : r.secureSessionMap c'.secureSessionId = none) (htcp : c'.tcpFd = c.tcpFd)
    (hpid : c'.peerId = c.peerId) (hdf : c'.dataFd = c.dataFd) : r'.Indexed := by
  constructor <;> intros <;> simp only [hs, hp, hi, hd, hpend, ho, Function.update_apply] at *
  · grind [h.tcpFd]
  · grind [h.peer]
  · grind [h.secure]
  · grind [h.secured]
  · grind [h.data]
  · grind [h.session_fd]
  · grind [h.data_fd]
  · grind [h.pending_fd]

theorem Indexed.insertSession {r r' : Reg} (h : r.Indexed) {fd : Fd} {c : Sess}
    (hs : r'.sessions = Function.update r.sessions fd (some c)) (hp : r'.peerMap = r.peerMap)
    (hi : r'.secureSessionMap = r.secureSessionMap) (hd : r'.dataFdMap = r.dataFdMap)
    (hpend : r'.pending = r.pending) (ho : r'.openFds = r.openFds) (hnone : r.sessions fd = none)
    (hdata : r.dataFdMap fd = none) (hnp : fd ∉ r.pending) (hopen : fd ∈ r.openFds)
    (htcp : c.tcpFd = fd) (h0 : c.peerId = 0) (hsid : c.secureSessionId = 0)
    (hdf : c.dataFd = none) :
    r'.Indexed := by
  have hnd : ∀ g d, r.sessions g = some d → d.dataFd ≠ some fd := fun g d hg hd => by
    have := h.data.mpr ⟨d, hg, hd⟩
    rw [hdata] at this
    cases this
  constructor <;> intros <;> simp only [hs, hp, hi, hd, hpend, ho, Function.update_apply] at *
  · grind [h.tcpFd]
  · grind [h.peer]
  · grind [h.secure]
  · grind [h.secured]
  · grind [h.data]
  · grind [h.session_fd]
  · grind [h.data_fd]
  · grind [h.pending_fd]

/-- A session loses its entries; it is gone, or closing without an id. -/
theorem Indexed.unbind {r r' : Reg} (h : r.Indexed) {fd : Fd} {c : Sess} {c' : Option Sess}
    (hc : r.sessions fd = some c) (hs : r'.sessions = Function.update r.sessions fd c')
    (hp : r'.peerMap = Reg.unbind r.peerMap fd)
    (hi : r'.secureSessionMap = Reg.unbind r.secureSessionMap fd)
    (hd : r'.dataFdMap = r.dataFdMap) (hpend : r'.pending = r.pending)
    (ho : r'.openFds = if c' = none then r.openFds \ {fd} else r.openFds)
    (hdf : c.dataFd = none)
    (hc' : ∀ d, c' = some d → d.tcpFd = fd ∧ d.peerId = 0 ∧ d.dataFd = none ∧ d.state = .closing) :
    r'.Indexed := by
  have hnd : ∀ g d, r.sessions g = some d → d.dataFd ≠ some fd := fun g d hg hd => by
    have := (h.data_fd hg hd).2.2
    rw [hc] at this
    cases this
  constructor <;> intros <;> simp only [hs, hp, hi, hd, hpend, Reg.unbind,
    Function.update_apply] at *
  · grind [h.tcpFd]
  · grind [h.peer]
  · grind [h.secure]
  · grind [h.secured]
  · grind [h.data]
  · rw [ho]; split <;> grind [h.session_fd]
  · rw [ho]; split <;> grind [h.data_fd]
  · rw [ho]; split <;> grind [h.pending_fd, h.session_fd]

theorem Indexed.bindData {r r' : Reg} (h : r.Indexed) {fd d : Fd} {c c' : Sess}
    (hc : r.sessions fd = some c) (hs : r'.sessions = Function.update r.sessions fd (some c'))
    (hp : r'.peerMap = r.peerMap) (hi : r'.secureSessionMap = r.secureSessionMap)
    (hd : r'.dataFdMap = Function.update r.dataFdMap d (some fd)) (hpend : r'.pending = r.pending)
    (ho : r'.openFds = r.openFds) (hdf : c.dataFd = none) (hc' : c' = { c with dataFd := some d })
    (hnone : r.sessions d = none) (hfree : r.dataFdMap d = none) (hnp : d ∉ r.pending)
    (hopen : d ∈ r.openFds) : r'.Indexed := by
  have hnd : ∀ g e, r.sessions g = some e → e.dataFd ≠ some d := fun g e hg he => by
    have := h.data.mpr ⟨e, hg, he⟩
    rw [hfree] at this
    cases this
  subst hc'
  constructor <;> intros <;> simp only [hs, hp, hi, hd, hpend, ho, Function.update_apply] at *
  · grind [h.tcpFd]
  · grind [h.peer]
  · grind [h.secure]
  · grind [h.secured]
  · grind [h.data]
  · grind [h.session_fd]
  · grind [h.data_fd]
  · grind [h.pending_fd]

theorem Indexed.closeData {r r' : Reg} (h : r.Indexed) {fd d : Fd} {c c' : Sess}
    (hc : r.sessions fd = some c) (hs : r'.sessions = Function.update r.sessions fd (some c'))
    (hp : r'.peerMap = r.peerMap) (hi : r'.secureSessionMap = r.secureSessionMap)
    (hd : r'.dataFdMap = Function.update r.dataFdMap d none) (hpend : r'.pending = r.pending)
    (ho : r'.openFds = r.openFds \ {d}) (hdf : c.dataFd = some d)
    (hc' : c' = { c with dataFd := none }) :
    r'.Indexed := by
  have hmap := h.data.mpr ⟨c, hc, hdf⟩
  have hone : ∀ g e, r.sessions g = some e → e.dataFd = some d → g = fd := fun g e hg he => by
    have := h.data.mpr ⟨e, hg, he⟩
    rw [hmap] at this
    exact (Option.some.inj this).symm
  have hfd := h.data_fd hc hdf
  subst hc'
  constructor <;> intros <;> simp only [hs, hp, hi, hd, hpend, ho, Function.update_apply] at *
  · grind [h.tcpFd]
  · grind [h.peer]
  · grind [h.secure]
  · grind [h.secured]
  · grind [h.data]
  · grind [h.session_fd]
  · grind [h.data_fd]
  · grind [h.pending_fd]

/-- Descriptors that no session uses are opened, taken up or closed. -/
theorem Indexed.fds {r r' : Reg} (h : r.Indexed) (hs : r'.sessions = r.sessions)
    (hp : r'.peerMap = r.peerMap) (hi : r'.secureSessionMap = r.secureSessionMap)
    (hd : r'.dataFdMap = r.dataFdMap)
    (hopen : ∀ g, r.sessions g ≠ none ∨ r.dataFdMap g ≠ none → g ∈ r.openFds → g ∈ r'.openFds)
    (hpend : ∀ g, r.sessions g ≠ none ∨ r.dataFdMap g ≠ none → g ∈ r.openFds → g ∈ r'.pending →
      g ∈ r.pending)
    (hsub : ∀ g, g ∈ r'.pending → g ∈ r'.openFds) : r'.Indexed := by
  have hdata : ∀ g c d, r.sessions g = some c → c.dataFd = some d →
      r.dataFdMap d ≠ none := fun g c d hg hd => by
    rw [h.data.mpr ⟨c, hg, hd⟩]
    simp
  constructor <;> intros <;> simp only [hs, hp, hi, hd] at *
  · grind [h.tcpFd]
  · grind [h.peer]
  · grind [h.secure]
  · grind [h.secured]
  · grind [h.data]
  · grind [h.session_fd]
  · grind [h.data_fd]
  · grind [h.pending_fd]

/-! ### The lease of one peer -/

theorem PeerOk.of_noLease {r : Reg} {p : Nat} (hno : r.NoLease p)
    (hlive : ∀ {g c}, r.sessions g = some c → c.peerId = p → c.alive = true → c.state ≠ .inRoom)
    (hid : r.Owned p → p < r.next) (hfree : p ∈ r.free → p ≠ 0 ∧ p < r.next ∧ ¬ r.Owned p) :
    PeerOk r p where
  lease_id hl hp := absurd ⟨_, hl, hp⟩ (hno _)
  unique hl _ hp := absurd ⟨_, hl, hp⟩ (hno _)
  owner hl _ hp := absurd ⟨_, hl, hp⟩ (hno _)
  live hc hp ha hin := absurd hin (hlive hc hp ha)
  online hl hp := absurd ⟨_, hl, hp⟩ (hno _)
  session_id hc hp := hid ⟨_, _, hc, hp⟩
  free hf := ⟨(hfree hf).1, (hfree hf).2.1, (hfree hf).2.2, hno⟩

theorem PeerOk.of_lease {r : Reg} {p R : Nat} {l : RoomLease} (hl : r.Lease R l) (hp : l.peerId = p)
    (huniq : ∀ {R' l'}, r.Lease R' l' → l'.peerId = p → R' = R ∧ l' = l) (hid : p ≠ 0 ∧ p < r.next)
    (hfree : p ∉ r.free)
    (hown : ∀ {g c}, r.sessions g = some c → c.peerId = p → c.Holds R l ∧ (c.alive = true →
      c.state = .inRoom → c.roomId = R ∧ l.virtualIP = c.virtualIP ∧ l.online = true))
    (hon : l.online = true → ∃ g c, r.sessions g = some c ∧ c.peerId = p ∧ c.state = .inRoom) :
    PeerOk r p where
  lease_id _ _ := hid
  unique hl₁ hl₂ hp₁ hp₂ := by
    obtain ⟨rfl, rfl⟩ := huniq hl₁ hp₁
    obtain ⟨rfl, rfl⟩ := huniq hl₂ hp₂
    exact ⟨rfl, rfl⟩
  owner hl' hc hp' hcp := by
    obtain ⟨rfl, rfl⟩ := huniq hl' hp'
    exact (hown hc hcp).1
  live hc hcp ha hin := by
    obtain ⟨hR, hvip, honl⟩ := (hown hc hcp).2 ha hin
    exact ⟨l, hR ▸ hl, hp, hvip, honl⟩
  online hl' hp' ho := by
    obtain ⟨rfl, rfl⟩ := huniq hl' hp'
    exact hon ho
  session_id _ _ := hid.2
  free hf := absurd hf hfree

/-- One session changes, and belongs to the peer before and after. -/
theorem OnlyPeer.of_session {r r' : Reg} {p : Nat} {fd : Fd} {c : Sess} {c' : Option Sess}
    (hc : r.sessions fd = some c) (hs : r'.sessions = Function.update r.sessions fd c')
    (hp : c.peerId = p ∨ c.peerId = 0)
    (hp' : ∀ d, c' = some d → d.peerId = p ∨ d.peerId = 0 ∧ d.state ≠ .inRoom)
    (hl : ∀ {R l}, l.peerId ≠ p → (r'.Lease R l ↔ r.Lease R l)) (hnext : r.next ≤ r'.next)
    (hfree : ∀ {i}, i ∈ r'.free → i ≠ p → i ∈ r.free) : OnlyPeer r r' p where
  leases := hl
  back {g d} hd hne := by
    simp only [hs, Function.update_apply] at hd
    split at hd
    · rcases hp' d hd with h | h
      · exact absurd h hne
      · exact Or.inr h
    · exact Or.inl hd
  forth {g d} hd hne h0 := by
    have hg : g ≠ fd := by
      rintro rfl
      rw [hc] at hd
      cases hd
      rcases hp with h | h
      · exact hne h
      · exact h0 h
    rw [hs, Function.update_of_ne hg]
    exact hd
  next := hnext
  free := hfree

/-- No session changes. -/
theorem OnlyPeer.of_leases {r r' : Reg} {p : Nat} (hs : r'.sessions = r.sessions)
    (hl : ∀ {R l}, l.peerId ≠ p → (r'.Lease R l ↔ r.Lease R l)) (hnext : r.next ≤ r'.next)
    (hfree : ∀ {i}, i ∈ r'.free → i ≠ p → i ∈ r.free) : OnlyPeer r r' p where
  leases := hl
  back hd _ := Or.inl (hs ▸ hd)
  forth hd _ _ := hs ▸ hd
  next := hnext
  free := hfree

/-- The leases of the other peers after a change of one lease. -/
theorem lease_mapLease_of_ne {r : Reg} {R R' p : Nat} {ls : List RoomLease}
    {f : RoomLease → RoomLease} (hf : KeepsLease f) {l : RoomLease} (hls : r.rooms R = some ls)
    (hl : l.peerId ≠ p) :
    (r.setRoom R (mapLease p f ls)).Lease R' l ↔ r.Lease R' l := by
  rw [lease_mapLease hls]
  constructor
  · rintro ⟨l₀, hl₀, rfl⟩
    by_cases h : R' = R ∧ l₀.peerId = p
    · rw [if_pos h] at hl
      exact absurd ((hf.peerId l₀).trans h.2) hl
    · rw [if_neg h]
      exact hl₀
  · exact fun h => ⟨l, h, by simp [hl]⟩

/-- The lease of the peer after its change. -/
theorem lease_mapLease_self {r : Reg} (h : r.Leased) {R R' : Nat} {ls : List RoomLease}
    {f : RoomLease → RoomLease} (hf : KeepsLease f) {l l' : RoomLease} (hls : r.rooms R = some ls)
    (hl : l ∈ ls) (hl' : (r.setRoom R (mapLease l.peerId f ls)).Lease R' l')
    (hp : l'.peerId = l.peerId) :
    R' = R ∧ l' = f l := by
  obtain ⟨l₀, hl₀, rfl⟩ := (lease_mapLease hls).mp hl'
  have hp₀ : l₀.peerId = l.peerId := by
    split at hp
    · exact (hf.peerId l₀).symm.trans hp
    · exact hp
  obtain ⟨rfl, rfl⟩ := h.unique hl₀ ⟨ls, hls, hl⟩ hp₀
  exact ⟨rfl, by simp⟩

theorem lease_mapLease_mem {r : Reg} {R : Nat} {ls : List RoomLease} {f : RoomLease → RoomLease}
    {l : RoomLease} (hls : r.rooms R = some ls) (hl : l ∈ ls) :
    (r.setRoom R (mapLease l.peerId f ls)).Lease R (f l) :=
  (lease_mapLease hls).mpr ⟨l, ⟨ls, hls, hl⟩, by simp⟩

theorem Leased.not_free {r : Reg} (h : r.Leased) {R : Nat} {l : RoomLease} (hl : r.Lease R l) :
    l.peerId ∉ r.free := fun hf => (h.free hf).2.2.2 R ⟨l, hl, rfl⟩

theorem Leased.room_ne_zero {r : Reg} (h : r.Leased) {R : Nat} {ls : List RoomLease}
    (hls : r.rooms R = some ls) : R ≠ 0 := by
  rintro rfl
  rw [h.room_id] at hls
  cases hls

theorem rooms_setRoom_zero {r : Reg} (h : r.Leased) {R : Nat} {ls : List RoomLease} (hR : R ≠ 0) :
    (r.setRoom R ls).rooms 0 = none := by
  simp only [setRoom, Function.update_of_ne hR.symm]
  exact h.room_id

theorem Leased.roomOk_setRoom {r : Reg} (h : r.Leased) {R R' : Nat} {ls ls' : List RoomLease}
    (hok : RoomOk ls) (h' : (r.setRoom R ls).rooms R' = some ls') : RoomOk ls' := by
  rcases rooms_setRoom h' with ⟨_, rfl⟩ | ⟨_, h'⟩
  · exact hok
  · exact h.room h'

/-- One lease changes, and with it at most the session of its peer. -/
theorem Leased.change {r r' : Reg} (h : r.Leased) {R : Nat} {ls : List RoomLease} {l : RoomLease}
    {f : RoomLease → RoomLease} (hls : r.rooms R = some ls) (hl : l ∈ ls) (hf : KeepsLease f)
    (hr : r'.rooms = (r.setRoom R (mapLease l.peerId f ls)).rooms) (hnext : r'.next = r.next)
    (hfree : r'.free = r.free)
    (ho : (∀ {R' l'}, l'.peerId ≠ l.peerId → (r'.Lease R' l' ↔ r.Lease R' l')) →
      OnlyPeer r r' l.peerId)
    (hown : ∀ {g c}, r'.sessions g = some c → c.peerId = l.peerId → c.Holds R (f l) ∧
      (c.alive = true → c.state = .inRoom → c.roomId = R ∧ l.virtualIP = c.virtualIP ∧
        (f l).online = true))
    (hon : (f l).online = true → ∃ g c, r'.sessions g = some c ∧ c.peerId = l.peerId ∧
      c.state = .inRoom) :
    r'.Leased := by
  have hlease : ∀ {R' l'}, r'.Lease R' l' ↔ (r.setRoom R (mapLease l.peerId f ls)).Lease R' l' := by
    intro R' l'
    rw [Lease, Lease, hr]
  have hid := h.lease_id ⟨ls, hls, hl⟩
  have hRne := h.room_ne_zero hls
  refine h.of_peer (ho fun hne => hlease.trans (lease_mapLease_of_ne hf hls hne)) ?_ ?_ ?_
  · refine PeerOk.of_lease (hlease.mpr (lease_mapLease_mem hls hl)) (hf.peerId l) ?_ ?_ ?_ ?_ hon
    · exact fun hl' hp => lease_mapLease_self h hf hls hl (hlease.mp hl') hp
    · rw [hnext]; exact hid
    · rw [hfree]; exact h.not_free ⟨ls, hls, hl⟩
    · rw [hf.virtualIP]; exact hown
  · rw [hr]; exact rooms_setRoom_zero h hRne
  · intro R' ls' h'
    rw [hr] at h'
    exact h.roomOk_setRoom ((h.room hls).mapLease _ hf) h'

/-- The peer ends up without a lease. -/
theorem Leased.drop {r r' : Reg} (h : r.Leased) {p : Nat}
    (hr : r'.rooms = r.rooms ∨
      ∃ R ls, r.rooms R = some ls ∧ r'.rooms = (r.setRoom R (dropLease p ls)).rooms)
    (hno : ∀ {R l}, r'.Lease R l → l.peerId ≠ p)
    (ho : (∀ {R' l'}, l'.peerId ≠ p → (r'.Lease R' l' ↔ r.Lease R' l')) → OnlyPeer r r' p)
    (hlive : ∀ {g c}, r'.sessions g = some c → c.peerId = p → c.alive = true → c.state ≠ .inRoom)
    (hid : r'.Owned p → p < r'.next) (hfree : p ∈ r'.free → p ≠ 0 ∧ p < r'.next ∧ ¬ r'.Owned p) :
    r'.Leased := by
  have hnoLease : r'.NoLease p := by
    rintro R ⟨l, hl, hp⟩
    exact hno hl hp
  have hok := PeerOk.of_noLease hnoLease hlive hid hfree
  rcases hr with hr | ⟨R, ls, hls, hr⟩
  · have hlease : ∀ {R' l'}, r'.Lease R' l' ↔ r.Lease R' l' := by
      intro R' l'
      rw [Lease, Lease, hr]
    refine h.of_peer (ho fun _ => hlease) hok ?_ ?_
    · rw [hr]; exact h.room_id
    · intro R' ls' h'
      rw [hr] at h'
      exact h.room h'
  · have hlease : ∀ {R' l'}, l'.peerId ≠ p → (r'.Lease R' l' ↔ r.Lease R' l') := by
      intro R' l' hne
      have heq : r'.Lease R' l' ↔ (r.setRoom R (dropLease p ls)).Lease R' l' := by
        rw [Lease, Lease, hr]
      rw [heq, lease_dropLease hls]
      exact and_iff_left fun hc => hne hc.2
    refine h.of_peer (ho hlease) hok ?_ ?_
    · rw [hr]; exact rooms_setRoom_zero h (h.room_ne_zero hls)
    · intro R' ls' h'
      rw [hr] at h'
      exact h.roomOk_setRoom ((h.room hls).dropLease p) h'

/-- A peer without a lease gets one, and its session is in the room. -/
theorem Leased.add {r r' : Reg} (h : r.Leased) {R : Nat} {ls ls' : List RoomLease} {l : RoomLease}
    (hr : r'.rooms = (r.setRoom R ls').rooms) (hR : R ≠ 0) (hok : RoomOk ls')
    (hls' : ls' = ls ++ [l]) (hold : ∀ {l'}, r.Lease R l' ↔ l' ∈ ls) (hno : r.NoLease l.peerId)
    (hid : l.peerId ≠ 0 ∧ l.peerId < r.next) (hnf : l.peerId ∉ r.free) (hnext : r'.next = r.next)
    (hfree : r'.free = r.free)
    (ho : (∀ {R' l'}, l'.peerId ≠ l.peerId → (r'.Lease R' l' ↔ r.Lease R' l')) →
      OnlyPeer r r' l.peerId)
    (honline : l.online = true)
    (hown : ∀ {g c}, r'.sessions g = some c → c.peerId = l.peerId → c.state = .inRoom ∧
      c.roomId = R ∧ l.virtualIP = c.virtualIP)
    (hon : ∃ g c, r'.sessions g = some c ∧ c.peerId = l.peerId ∧ c.state = .inRoom) :
    r'.Leased := by
  have hlease : ∀ {R' l'}, r'.Lease R' l' ↔ r.Lease R' l' ∨ R' = R ∧ l' = l := by
    intro R' l'
    have heq : r'.Lease R' l' ↔ (r.setRoom R ls').Lease R' l' := by rw [Lease, Lease, hr]
    rw [heq, lease_setRoom, hls', List.mem_append, List.mem_singleton]
    by_cases hR' : R' = R
    · subst hR'
      rw [← hold]
      simp
    · simp [hR']
  refine h.of_peer (ho fun hne => ?_) ?_ ?_ ?_
  · rw [hlease]
    exact or_iff_left fun hc => hne (by rw [hc.2])
  · refine PeerOk.of_lease (hlease.mpr (Or.inr ⟨rfl, rfl⟩)) rfl ?_ ?_ ?_ ?_ (fun _ => hon)
    · intro R' l' hl' hp
      rcases hlease.mp hl' with hl' | hl'
      · exact absurd ⟨l', hl', hp⟩ (hno R')
      · exact hl'
    · rw [hnext]; exact hid
    · rw [hfree]; exact hnf
    · intro g c hc hp
      obtain ⟨hst, hroom, hvip⟩ := hown hc hp
      exact ⟨Or.inl ⟨hst, hroom⟩, fun _ _ => ⟨hroom, hvip, honline⟩⟩
  · rw [hr]; exact rooms_setRoom_zero h hR
  · intro R' l'' h'
    rw [hr] at h'
    exact h.roomOk_setRoom hok h'

/-! ### Steps -/

/-- The sessions are well formed after one of them changed. -/
theorem Inv.wf_update {r : Reg} (h : r.Inv S) {σ : Fd → Option Sess} {fd : Fd} {c' : Option Sess}
    (hs : σ = Function.update r.sessions fd c') (hwf : ∀ d, c' = some d → d.WF S) {g : Fd}
    {d : Sess} (hd : σ g = some d) : d.WF S := by
  simp only [hs, Function.update_apply] at hd
  split at hd
  · exact hwf d hd
  · exact h.wf hd

theorem Inv.not_inRoom {r : Reg} (h : r.Inv S) {fd : Fd} {c : Sess} (hc : r.sessions fd = some c)
    (h0 : c.peerId = 0) : c.state ≠ .inRoom := by
  intro hst
  refine (h.wf hc).identity.mp ?_ h0
  rw [hst]
  rfl

/-- Nothing changes for the leases when sessions without an id come or go. -/
theorem Inv.leased_zero {r r' : Reg} (h : r.Inv S) {fd : Fd} {c' : Sess}
    (hs : r'.sessions = Function.update r.sessions fd (some c')) (hnone : r.sessions fd = none)
    (hr : r'.rooms = r.rooms) (hn : r'.next = r.next) (hf : r'.free = r.free) (h0 : c'.peerId = 0)
    (hst : c'.state ≠ .inRoom) : r'.Leased := by
  have hlease : ∀ {R' l'}, r'.Lease R' l' ↔ r.Lease R' l' := by
    intro R' l'
    rw [Lease, Lease, hr]
  refine h.leased.drop (p := 0) (Or.inl hr) (fun hl => (h.leased.lease_id (hlease.mp hl)).1)
    (fun hl => ⟨hl, ?_, ?_, hn.ge, fun hi _ => hf ▸ hi⟩) ?_ (fun _ => hn ▸ h.leased.next_pos) ?_
  · intro g d hd hne
    simp only [hs, Function.update_apply] at hd
    split at hd
    · cases hd; exact absurd h0 hne
    · exact Or.inl hd
  · intro g d hd _ _
    rw [hs, Function.update_of_ne (by rintro rfl; rw [hnone] at hd; cases hd)]
    exact hd
  · intro g d hd hd0 _
    simp only [hs, Function.update_apply] at hd
    split at hd
    · cases hd; exact hst
    · exact h.not_inRoom hd hd0
  · intro hi
    rw [hf] at hi
    exact absurd rfl (h.leased.free hi).1

theorem freshSession_wf (fd : Fd) (t : Transcript) : (freshSession fd t).WF S := by
  constructor <;> simp [freshSession, sessionHasPeerIdentity]

theorem Inv.promote {r : Reg} (h : r.Inv S) {fd : Fd} {t : Transcript} (hs : r.sessions fd = none)
    (hd : r.dataFdMap fd = none) (hp : fd ∉ r.pending) (ho : fd ∈ r.openFds) :
    (r.setSession fd (freshSession fd t)).Inv S := by
  refine ⟨h.indexed.insertSession rfl rfl rfl rfl rfl rfl hs hd hp ho rfl rfl rfl rfl,
    h.leased_zero rfl hs rfl rfl rfl rfl (by simp [freshSession]), h.wf_update rfl ?_⟩
  rintro d ⟨⟩
  exact freshSession_wf fd t

theorem Inv.authenticate {r : Reg} (h : r.Inv S) {fd : Fd} {c : Sess} {sid : Nat} {t : Transcript}
    (hc : r.sessions fd = some c) (hst : c.state = .awaitServerAuth) (hsid : sid ≠ 0)
    (hfree : r.secureSessionMap sid = none) (hauth : S.Auth t sid) :
    Inv S { r.setSession fd { c with
        secureSessionId := sid, serverAuthOk := true, secureEnabled := true, transcript := t
        state := .awaitLogin } with
      secureSessionMap := Function.update r.secureSessionMap sid (some fd) } := by
  have hwf := h.wf hc
  refine ⟨h.indexed.insertSecure hc rfl rfl rfl rfl rfl rfl
    (hwf.early (Or.inr hst)) hsid hfree rfl rfl rfl,
    h.leased.of_stays (Pointwise.update Stays.refl hc ?_) rfl rfl rfl, h.wf_update rfl ?_⟩
  · exact ⟨rfl, id, by simp [hst], by simp [hst], by simp [hst]⟩
  · rintro d ⟨⟩
    have hid := hwf.identity
    have hin := hwf.inRoom
    have hdata := hwf.data
    rw [hst] at hid hin hdata
    exact ⟨hid, by simpa using hin, hdata, by simp, fun _ _ _ => ⟨rfl, rfl, hsid, hauth⟩, by simp,
      hwf.name⟩

/-- A session logs in with an id that nobody has. -/
theorem Inv.login {r r' : Reg} (h : r.Inv S) {fd : Fd} {c : Sess} {p : Nat} {name : Bytes}
    (hc : r.sessions fd = some c) (hst : c.state = .awaitLogin) (hname : name.length < 2 ^ 16)
    (hs : r'.sessions = (r.loggedIn fd (freshLogin c p name)).sessions)
    (hm : r'.peerMap = (r.loggedIn fd (freshLogin c p name)).peerMap)
    (hi : r'.secureSessionMap = r.secureSessionMap) (hd : r'.dataFdMap = r.dataFdMap)
    (hpend : r'.pending = r.pending) (ho : r'.openFds = r.openFds) (hr : r'.rooms = r.rooms)
    (h0 : p ≠ 0) (hown : ¬ r.Owned p) (hno : r.NoLease p) (hlt : p < r'.next)
    (hnext : r.next ≤ r'.next) (hfree : ∀ i ∈ r'.free, i ∈ r.free ∧ i ≠ p) : r'.Inv S := by
  have hwf := h.wf hc
  have hid := hwf.identity
  have hin := hwf.inRoom
  have hauth := hwf.auth
  rw [hst] at hid hin hauth
  have hzero : c.peerId = 0 := by simpa [sessionHasPeerIdentity] using hid
  have hroom : c.roomId = 0 := by simpa using hin
  have hlease : ∀ {R' l'}, r'.Lease R' l' ↔ r.Lease R' l' := by
    intro R' l'
    rw [Lease, Lease, hr]
  refine ⟨h.indexed.insertPeer hc hs hm hi hd hpend ho hzero h0 hown rfl rfl rfl (by simp [hst]),
    h.leased.drop (Or.inl hr) (fun {R l} hl hp => hno R ⟨l, hlease.mp hl, hp⟩)
      (fun hl => OnlyPeer.of_session hc hs (Or.inr hzero) ?_ hl hnext fun hi _ => (hfree _ hi).1)
      ?_ (fun _ => hlt) (fun hi => absurd rfl (hfree _ hi).2), h.wf_update hs ?_⟩
  · rintro d ⟨⟩
    exact Or.inl rfl
  · intro g d hg hp _
    simp only [hs, loggedIn, setSession, Function.update_apply] at hg
    split at hg
    · cases hg; simp [freshLogin, Sess.exit]
    · exact absurd ⟨g, d, hg, hp⟩ hown
  · rintro d ⟨⟩
    refine ⟨by simpa [freshLogin, Sess.exit, sessionHasPeerIdentity] using h0,
      by simpa [freshLogin, Sess.exit] using hroom, by
        simp [freshLogin, Sess.exit, sessionHasPeerIdentity],
      by simp [freshLogin, Sess.exit], fun _ _ _ => hauth (by simp) (by simp) (by simp),
      by simp [freshLogin, Sess.exit], hname⟩

/-! ### Logins and memberships -/

/-- What a session keeps while its membership changes. -/
structure SameSecurity (c c' : Sess) : Prop where
  tcpFd : c'.tcpFd = c.tcpFd
  dataFd : c'.dataFd = c.dataFd
  serverAuthOk : c'.serverAuthOk = c.serverAuthOk
  secureEnabled : c'.secureEnabled = c.secureEnabled
  secureSessionId : c'.secureSessionId = c.secureSessionId
  transcript : c'.transcript = c.transcript

/-- A session behind the login, in a new state. -/
theorem Sess.WF.move {c c' : Sess} (h : c.WF S) (hs : SameSecurity c c')
    (hst : c.state ≠ .awaitHello) (hst₁ : c.state ≠ .awaitServerAuth) (hst₂ : c.state ≠ .closing)
    (hid : sessionHasPeerIdentity c'.state = true) (hp : c'.peerId ≠ 0)
    (hin : c'.state = .inRoom ↔ c'.roomId ≠ 0)
    (hresume : c'.state = .resumePending → c'.resumeRoomId ≠ 0 ∧ c'.resumePeerId = c'.peerId ∧
      Server.tokenIsZero c'.resumeToken = false)
    (hname : c'.name.length < 2 ^ 16) : c'.WF S where
  identity := ⟨fun _ => hp, fun _ => hid⟩
  inRoom := hin
  data _ := hid
  early he := by
    rcases he with he | he <;> rw [he] at hid <;> cases hid
  auth _ _ _ := by
    rw [hs.serverAuthOk, hs.secureEnabled, hs.secureSessionId, hs.transcript]
    exact h.auth hst hst₁ hst₂
  resume := hresume
  name := hname

theorem Inv.loginResume {r : Reg} (h : r.Inv S) {fd : Fd} {c : Sess} {R now : Nat}
    {ls : List RoomLease}
    {l : RoomLease} {name : Bytes} (hc : r.sessions fd = some c) (hst : c.state = .awaitLogin)
    (hls : r.rooms R = some ls) (hl : l ∈ ls) (htok : Server.tokenIsZero l.token = false)
    (hown : ¬ r.Owned l.peerId) (hname : name.length < 2 ^ 16) :
    ((r.loggedIn fd { c with
        peerId := l.peerId, resumeRoomId := R, resumePeerId := l.peerId, resumeToken := l.token
        name := name, state := .resumePending }).setRoom R
      (mapLease l.peerId (·.markOffline now) ls)).Inv S := by
  have hwf := h.wf hc
  have hid := hwf.identity
  have hin := hwf.inRoom
  rw [hst] at hid hin
  have hzero : c.peerId = 0 := by simpa [sessionHasPeerIdentity] using hid
  have hroom : c.roomId = 0 := by simpa using hin
  have hlid := h.leased.lease_id ⟨ls, hls, hl⟩
  have hR := h.leased.room_ne_zero hls
  refine ⟨h.indexed.insertPeer hc rfl rfl rfl rfl rfl rfl hzero hlid.1 hown rfl rfl rfl
    (by simp [hst]),
    h.leased.change hls hl (KeepsLease.markOffline now) rfl rfl rfl
      (fun hle => OnlyPeer.of_session hc rfl (Or.inr hzero) ?_ hle le_rfl fun hi _ => hi) ?_ ?_,
    h.wf_update rfl ?_⟩
  · rintro d ⟨⟩
    exact Or.inl rfl
  · intro g d hg hp
    simp only [loggedIn, setRoom, setSession, Function.update_apply] at hg
    split at hg
    · cases hg
      exact ⟨Or.inr ⟨rfl, rfl, rfl⟩, by simp⟩
    · exact absurd ⟨g, d, hg, hp⟩ hown
  · exact fun ho => absurd ho (by simp [RoomLease.markOffline])
  · rintro d ⟨⟩
    exact Sess.WF.move hwf ⟨rfl, rfl, rfl, rfl, rfl, rfl⟩ (by simp [hst]) (by simp [hst])
      (by simp [hst])
      rfl hlid.1 (by simp [hroom]) (fun _ => ⟨hR, rfl, htok⟩) hname

theorem entered_wf {c : Sess} (h : c.WF S) {R : Nat} {l : RoomLease} (hR : R ≠ 0)
    (hid : sessionHasPeerIdentity c.state = true) (hname : l.name.length < 2 ^ 16)
    {sent rejected : List Msg}
    {alive : Bool} :
    Sess.WF S { c.enter R l.virtualIP l.token with
      name := l.name, sent := sent, rejected := rejected, alive := alive } := by
  refine Sess.WF.move h ⟨rfl, rfl, rfl, rfl, rfl, rfl⟩ ?_ ?_ ?_ rfl (h.identity.mp hid)
    (by simpa [Sess.enter] using hR) (by simp [Sess.enter]) hname
  all_goals
    intro hst
    rw [hst] at hid
    cases hid

/-- A new member, before anybody else is told. -/
theorem Inv.enterNew {r : Reg} (h : r.Inv S) {fd : Fd} {c : Sess} {R : Nat} {ls : List RoomLease}
    {l : RoomLease} {m : Msg} (hc : r.sessions fd = some c) (hst : c.state = .loggedIn) (hR : R ≠ 0)
    (hold : ∀ {l'}, r.Lease R l' ↔ l' ∈ ls) (hok : RoomOk ls) (hp : l.peerId = c.peerId)
    (ho : l.online = true) (hl : Sized l) (hlen : ls.length < 255) :
    (r.entered fd c R l (ls ++ [l]) m).Inv S := by
  have hwf := h.wf hc
  have hid : sessionHasPeerIdentity c.state = true := by rw [hst]; rfl
  have hpne := hwf.identity.mp hid
  have hno : r.NoLease c.peerId := by
    rintro R' ⟨l', hl', hp'⟩
    rcases h.leased.owner hl' hc hp'.symm with ⟨hin, _⟩ | ⟨hin, _⟩ <;> rw [hst] at hin <;> cases hin
  refine ⟨h.indexed.of_keys (Pointwise.update SameKeys.refl hc ?_) rfl rfl rfl rfl rfl,
    h.leased.add rfl hR (hok.append ?_ hlen hl) rfl hold (hp ▸ hno) ?_ ?_ rfl rfl
      (fun hle => OnlyPeer.of_session hc rfl (Or.inl hp.symm) ?_ hle le_rfl fun hi _ =>
        hi) ho ?_ ?_,
    h.wf_update rfl ?_⟩
  · exact ⟨rfl, rfl, rfl, rfl, by simp [hst]⟩
  · intro l₀ hl₀ hp₀
    exact hno R ⟨l₀, hold.mpr hl₀, hp₀.trans hp⟩
  · rw [hp]
    exact ⟨hpne, h.leased.session_id hc⟩
  · rw [hp]
    exact fun hf => (h.leased.free hf).2.2.1 ⟨fd, c, hc, rfl⟩
  · rintro d ⟨⟩
    exact Or.inl hp.symm
  · intro g d hg hgp
    simp only [entered, setRoom, setSession, Function.update_apply] at hg
    split at hg
    · cases hg
      exact ⟨rfl, rfl, rfl⟩
    · next hne => exact absurd (h.indexed.owner_unique hc hg (hgp.trans hp) hpne) hne
  · exact ⟨fd, _, Function.update_self _ _ _, hp.symm, rfl⟩
  · rintro d ⟨⟩
    exact entered_wf hwf hR hid hl.2.1

/-- The holder of a lease that may resume enters the room. -/
theorem Inv.enterAgain {r r' : Reg} (h : r.Inv S) {fd : Fd} {c c' : Sess} {R : Nat}
    {ls : List RoomLease}
    {l : RoomLease} {f : RoomLease → RoomLease} (hc : r.sessions fd = some c)
    (hst : c.state = .resumePending) (hls : r.rooms R = some ls) (hl : l ∈ ls)
    (hp : l.peerId = c.peerId) (hf : KeepsLease f)
    (hr' : r' = (r.setSession fd c').setRoom R (mapLease c.peerId f ls))
    (hc' : c' = { c.enter R l.virtualIP l.token with
      name := l.name, sent := c'.sent, rejected := c'.rejected, alive := c'.alive })
    (halive : c'.alive = true → (f l).online = true) : r'.Inv S := by
  have hwf := h.wf hc
  have hid : sessionHasPeerIdentity c.state = true := by rw [hst]; rfl
  have hpne := hwf.identity.mp hid
  have hR := h.leased.room_ne_zero hls
  have hp' : c'.peerId = c.peerId := by rw [hc']; rfl
  have hst' : c'.state = .inRoom := by rw [hc']; rfl
  have hroom : c'.roomId = R := by rw [hc']; rfl
  have hvip : c'.virtualIP = l.virtualIP := by rw [hc']; rfl
  subst hr'
  refine ⟨h.indexed.of_keys (Pointwise.update SameKeys.refl hc ?_) rfl rfl rfl rfl rfl,
    h.leased.change hls hl hf (by rw [hp]; rfl) rfl rfl
      (fun hle => OnlyPeer.of_session hc rfl (Or.inl hp.symm) ?_ hle le_rfl fun hi _ => hi) ?_ ?_,
    h.wf_update rfl ?_⟩
  · rw [hc']
    exact ⟨rfl, rfl, rfl, rfl, by simp [hst]⟩
  · rintro d ⟨⟩
    exact Or.inl (hp'.trans hp.symm)
  · intro g d hg hgp
    simp only [setRoom, setSession, Function.update_apply] at hg
    split at hg
    · cases hg
      exact ⟨Or.inl ⟨hst', hroom⟩, fun ha _ => ⟨hroom, hvip.symm, halive ha⟩⟩
    · next hne => exact absurd (h.indexed.owner_unique hc hg (hgp.trans hp) hpne) hne
  · exact fun _ => ⟨fd, c', Function.update_self _ _ _, hp'.trans hp.symm, hst'⟩
  · rintro d ⟨⟩
    rw [hc']
    exact entered_wf hwf hR hid ((h.leased.room hls).2.2 l hl).2.1

/-! ### Leaving -/

/-- A session gives up what it waited for or had, and its peer has no lease. -/
theorem Inv.exit {r r' : Reg} (h : r.Inv S) {fd : Fd} {c c' : Sess} (hc : r.sessions fd = some c)
    (hs : r'.sessions = Function.update r.sessions fd (some c'))
    (hk : SameKeys c c') (hwf : c'.WF S) (hst : c'.state ≠ .inRoom)
    (hp : r'.peerMap = r.peerMap) (hi : r'.secureSessionMap = r.secureSessionMap)
    (hd : r'.dataFdMap = r.dataFdMap) (hpend : r'.pending = r.pending) (ho : r'.openFds = r.openFds)
    (hnext : r'.next = r.next) (hfree : r'.free = r.free) (hpne : c.peerId ≠ 0)
    (hr : r'.rooms = r.rooms ∨
      ∃ R ls, r.rooms R = some ls ∧ r'.rooms = (r.setRoom R (dropLease c.peerId ls)).rooms)
    (hno : ∀ {R l}, r'.Lease R l → l.peerId ≠ c.peerId) : r'.Inv S := by
  refine ⟨h.indexed.of_keys (hs ▸ Pointwise.update SameKeys.refl hc hk) hp hi hd hpend ho,
    h.leased.drop hr hno
      (fun hle => OnlyPeer.of_session hc hs (Or.inl rfl) ?_ hle hnext.ge fun hi _ =>
        hfree ▸ hi) ?_ ?_ ?_,
    h.wf_update hs ?_⟩
  · rintro d ⟨⟩
    exact Or.inl hk.peerId
  · intro g d hg hgp _
    simp only [hs, Function.update_apply] at hg
    split at hg
    · cases hg
      exact hst
    · next hne => exact absurd (h.indexed.owner_unique hc hg hgp hpne) hne
  · exact fun _ => hnext ▸ h.leased.session_id hc
  · intro hf
    rw [hfree] at hf
    exact absurd ⟨fd, c, hc, rfl⟩ (h.leased.free hf).2.2.1
  · rintro d ⟨⟩
    exact hwf

/-- The session whose peer holds a lease is behind the login. -/
theorem Inv.holder {r : Reg} (h : r.Inv S) {fd : Fd} {c : Sess} (hc : r.sessions fd = some c)
    {R : Nat} (hl : r.HasLease R c.peerId) :
    c.home = R ∧ (c.state = .inRoom ∨ c.state = .resumePending) := by
  obtain ⟨l, hl, hp⟩ := hl
  have hwf := h.wf hc
  have hR := h.leased.room_ne_zero hl.choose_spec.1
  rcases h.leased.owner hl hc hp.symm with ⟨hst, hroom⟩ | ⟨hst, hroom, _⟩
  · exact ⟨by rw [Sess.home, hroom, if_pos hR], Or.inl hst⟩
  · have hzero : c.roomId = 0 := by
      by_contra hne
      rw [hwf.inRoom.mpr hne] at hst
      cases hst
    exact ⟨by rw [Sess.home, if_neg (by simp [hzero]), if_pos hst, hroom], Or.inr hst⟩

theorem Sess.exit_wf {c : Sess} (h : c.WF S) (hst : c.state ≠ .awaitHello)
    (hst₁ : c.state ≠ .awaitServerAuth) (hst₂ : c.state ≠ .closing) (hp : c.peerId ≠ 0)
    {alive : Bool} {vip : Nat} {sent rejected : List Msg} :
    Sess.WF S { c.exit with
      alive := alive, virtualIP := vip, sent := sent, rejected := rejected } :=
  Sess.WF.move h ⟨rfl, rfl, rfl, rfl, rfl, rfl⟩ hst hst₁ hst₂ rfl hp (by simp [Sess.exit])
    (by simp [Sess.exit]) h.name

theorem Inv.leave {r : Reg} (h : r.Inv S) {fd : Fd} {c : Sess} {ls : List RoomLease}
    (hc : r.sessions fd = some c) (hls : r.rooms c.home = some ls)
    (hl : r.HasLease c.home c.peerId) :
    ((r.setSession fd c.exit).setRoom c.home (dropLease c.peerId ls)).Inv S := by
  have hwf := h.wf hc
  obtain ⟨_, hst⟩ := h.holder hc hl
  obtain ⟨l, hll, hlp⟩ := hl
  have hpne : c.peerId ≠ 0 := hlp ▸ (h.leased.lease_id hll).1
  refine h.exit hc rfl ⟨rfl, rfl, rfl, rfl,
    ?_⟩ ?_ (by simp [Sess.exit]) rfl rfl rfl rfl rfl rfl rfl hpne
    (Or.inr ⟨_, ls, hls, rfl⟩) ?_
  · rcases hst with hst | hst <;> simp [hst]
  · exact Sess.exit_wf hwf (by rcases hst with hst | hst <;> simp [hst])
      (by rcases hst with hst | hst <;> simp [hst]) (by rcases hst with hst | hst <;>
        simp [hst]) hpne
  · intro R l' hl' hp
    have hl' : (r.setRoom c.home (dropLease c.peerId ls)).Lease R l' := hl'
    obtain ⟨hold, hn⟩ := (lease_dropLease hls).mp hl'
    exact hn ⟨(h.leased.unique hold hll (hp.trans hlp.symm)).1, hp⟩

theorem Inv.resumeGiveUp {r : Reg} (h : r.Inv S) {fd : Fd} {c : Sess} (hc : r.sessions fd = some c)
    (hst : c.state = .resumePending) (hl : r.NoLease c.peerId) :
    (r.setSession fd { c.exit with roomId := c.roomId, virtualIP := c.virtualIP }).Inv S := by
  have hwf := h.wf hc
  have hpne : c.peerId ≠ 0 := hwf.identity.mp (by rw [hst]; rfl)
  have hroom : c.roomId = 0 := by simpa [hst] using hwf.inRoom
  rw [hroom]
  exact h.exit hc rfl ⟨rfl, rfl, rfl, rfl, by simp [hst]⟩
    (Sess.exit_wf hwf (by simp [hst]) (by simp [hst]) (by simp [hst]) hpne) (by simp [Sess.exit])
    rfl rfl rfl rfl rfl rfl rfl hpne (Or.inl rfl) fun {R l} hl' hp => hl R ⟨l, hl', hp⟩

/-- A session loses its id and its entries. -/
theorem Inv.unbind {r r' : Reg} (h : r.Inv S) {fd : Fd} {c : Sess} {c' : Option Sess}
    (hc : r.sessions fd = some c) (hs : r'.sessions = Function.update r.sessions fd c')
    (hp : r'.peerMap = Reg.unbind r.peerMap fd)
    (hi : r'.secureSessionMap = Reg.unbind r.secureSessionMap fd) (hd : r'.dataFdMap = r.dataFdMap)
    (hpend : r'.pending = r.pending)
    (ho : r'.openFds = if c' = none then r.openFds \ {fd} else r.openFds) (hdf : c.dataFd = none)
    (hc' : ∀ d, c' = some d → d.tcpFd = fd ∧ d.peerId = 0 ∧ d.dataFd = none ∧
      d.state = .closing ∧ d.WF S)
    (hl : r'.Leased) : r'.Inv S :=
  ⟨h.indexed.unbind hc hs hp hi hd hpend ho hdf
      fun d hcd => ⟨(hc' d hcd).1, (hc' d hcd).2.1, (hc' d hcd).2.2.1, (hc' d hcd).2.2.2.1⟩,
    hl, h.wf_update hs fun d hcd => (hc' d hcd).2.2.2.2⟩

/-- After the session of a peer is gone, nobody has its id. -/
theorem Inv.not_owned {r r' : Reg} (h : r.Inv S) {fd : Fd} {c : Sess} {c' : Option Sess}
    (hc : r.sessions fd = some c) (hs : r'.sessions = Function.update r.sessions fd c')
    (hpne : c.peerId ≠ 0) (hc' : ∀ d, c' = some d → d.peerId = 0) : ¬ r'.Owned c.peerId := by
  rintro ⟨g, d, hg, hgp⟩
  simp only [hs, Function.update_apply] at hg
  split at hg
  · exact hpne (hgp.symm.trans (hc' d hg))
  · next hne => exact hne (h.indexed.owner_unique hc hg hgp hpne)

theorem Inv.logout {r : Reg} (h : r.Inv S) {fd : Fd} {c : Sess} (hc : r.sessions fd = some c)
    (hst : sessionHasPeerIdentity c.state = true) (hd : c.dataFd = none) (hl : r.NoLease c.peerId) :
    Inv S { r.setSession fd c.loggedOut with
      peerMap := Reg.unbind r.peerMap fd
      secureSessionMap := Reg.unbind r.secureSessionMap fd
      free := insert c.peerId r.free } := by
  have hwf := h.wf hc
  have hpne := hwf.identity.mp hst
  have htcp := h.indexed.tcpFd hc
  refine h.unbind hc rfl rfl rfl rfl rfl (by simp; rfl) hd ?_ ?_
  · rintro d ⟨⟩
    refine ⟨htcp, rfl, hd, rfl, ?_⟩
    constructor <;> simp [Sess.loggedOut, Sess.exit, sessionHasPeerIdentity, hd]
    simpa using hwf.name
  · have hno : ¬ Owned { r.setSession fd c.loggedOut with
        peerMap := Reg.unbind r.peerMap fd
        secureSessionMap := Reg.unbind r.secureSessionMap fd
        free := insert c.peerId r.free } c.peerId := h.not_owned hc rfl hpne (by rintro d ⟨⟩; rfl)
    refine h.leased.drop (Or.inl rfl) (fun {R l} hl' hp => hl R ⟨l, hl', hp⟩)
      (fun hle => OnlyPeer.of_session hc rfl (Or.inl rfl) ?_ hle le_rfl
        fun hi hne => (Set.mem_insert_iff.mp hi).resolve_left hne) ?_ ?_ ?_
    · rintro d ⟨⟩
      exact Or.inr ⟨rfl, by simp [Sess.loggedOut]⟩
    · exact fun {g d} hg hgp _ => absurd ⟨g, d, hg, hgp⟩ hno
    · exact fun hown => absurd hown hno
    · exact fun _ => ⟨hpne, h.leased.session_id hc, hno⟩

theorem Inv.expire {r : Reg} (h : r.Inv S) {R : Nat} {ls : List RoomLease} {l : RoomLease}
    (hls : r.rooms R = some ls) (hl : l ∈ ls) (hlive : ¬ r.LiveIn R l.peerId) {free : Set Nat}
    (hfree : ∀ i ∈ free, i ∈ r.free ∨ i = l.peerId ∧ ¬ r.Owned l.peerId) :
    Inv S { r.setRoom R (dropLease l.peerId ls) with free := free } := by
  have hll : r.Lease R l := ⟨ls, hls, hl⟩
  have hid := h.leased.lease_id hll
  refine ⟨h.indexed.of_keys (Pointwise.refl SameKeys.refl _) rfl rfl rfl rfl rfl,
    h.leased.drop (Or.inr ⟨R, ls, hls, rfl⟩) ?_ (fun hle => OnlyPeer.of_leases rfl hle le_rfl ?_) ?_
    ?_ ?_, h.wf⟩
  · intro R' l' hl' hp
    have hl' : (r.setRoom R (dropLease l.peerId ls)).Lease R' l' := hl'
    obtain ⟨hold, hn⟩ := (lease_dropLease hls).mp hl'
    exact hn ⟨(h.leased.unique hold hll hp).1, hp⟩
  · intro i hi hne
    rcases hfree i hi with hi | ⟨hi, _⟩
    · exact hi
    · exact absurd hi hne
  · intro g d hg hgp ha hin
    refine hlive ⟨g, d, hg, hgp, ha, hin, ?_⟩
    rcases h.leased.owner hll hg hgp with ⟨_, hR⟩ | ⟨hst, _⟩
    · exact hR
    · rw [hin] at hst
      cases hst
  · exact fun _ => hid.2
  · intro hi
    refine ⟨hid.1, hid.2, ?_⟩
    rcases hfree _ hi with hi | ⟨_, hno⟩
    · exact (h.leased.free hi).2.2.1
    · exact hno

theorem Inv.flag {r : Reg} (h : r.Inv S) {R : Nat} {ls : List RoomLease} {l : RoomLease}
    {f : RoomLease → RoomLease} (hls : r.rooms R = some ls) (hl : l ∈ ls) (hf : KeepsLease f)
    (hlive : (f l).online = true ↔ r.LiveIn R l.peerId) :
    (r.setRoom R (mapLease l.peerId f ls)).Inv S := by
  have hll : r.Lease R l := ⟨ls, hls, hl⟩
  refine ⟨h.indexed.of_keys (Pointwise.refl SameKeys.refl _) rfl rfl rfl rfl rfl,
    h.leased.change hls hl hf rfl rfl rfl (fun hle => OnlyPeer.of_leases rfl hle le_rfl fun hi _ =>
      hi) ?_ ?_, h.wf⟩
  · intro g d hg hgp
    have hold := h.leased.owner hll hg hgp
    refine ⟨by rw [Sess.Holds, hf.token]; exact hold, fun ha hin => ?_⟩
    have hR : d.roomId = R := by
      rcases hold with ⟨_, hR⟩ | ⟨hst, _⟩
      · exact hR
      · rw [hin] at hst
        cases hst
    obtain ⟨l', hl', hp', hvip, _⟩ := h.leased.live hg ha hin
    obtain ⟨-, rfl⟩ := h.leased.unique hl' hll (hp'.trans hgp)
    exact ⟨hR, hvip, hlive.mpr ⟨g, d, hg, hgp, ha, hin, hR⟩⟩
  · intro ho
    obtain ⟨g, d, hg, hgp, _, hin, _⟩ := hlive.mp ho
    exact ⟨g, d, hg, hgp, hin⟩

theorem Inv.eraseRoom {r : Reg} (h : r.Inv S) {R : Nat} (hls : r.rooms R = some []) :
    Inv S { r with rooms := Function.update r.rooms R none } := by
  have hlease : ∀ {R' l'}, ({ r with rooms := Function.update r.rooms R none } : Reg).Lease R' l' ↔
      r.Lease R' l' := by
    intro R' l'
    simp only [Lease, Function.update_apply]
    split
    · next hR => subst hR; simp [hls]
    · rfl
  refine ⟨h.indexed.of_keys (Pointwise.refl SameKeys.refl _) rfl rfl rfl rfl rfl,
    h.leased.of_peer (p := 0) (OnlyPeer.of_leases rfl (fun _ => hlease) le_rfl fun hi _ => hi)
      (PeerOk.of_noLease ?_ ?_ (fun _ => h.leased.next_pos) ?_) ?_ ?_, h.wf⟩
  · rintro R' ⟨l, hl, hp⟩
    exact (h.leased.lease_id (hlease.mp hl)).1 hp
  · exact fun hg h0 _ => h.not_inRoom hg h0
  · exact fun hi => absurd rfl (h.leased.free hi).1
  · simp only [Function.update_apply]
    split
    · rfl
    · exact h.leased.room_id
  · intro R' ls hls'
    simp only [Function.update_apply] at hls'
    split at hls'
    · cases hls'
    · exact h.leased.room hls'

/-- Marking the lease of a peer that has none in the list changes nothing. -/
theorem mapLease_of_forall_ne {p : Nat} {f : RoomLease → RoomLease} {ls : List RoomLease}
    (h : ∀ l ∈ ls, l.peerId ≠ p) : mapLease p f ls = ls := by
  rw [mapLease]
  conv_rhs => rw [← List.map_id ls]
  exact List.map_congr_left fun l hl => by simp [h l hl]

theorem Inv.remove {r : Reg} (h : r.Inv S) {fd : Fd} {c : Sess} {now : Nat}
    (hc : r.sessions fd = some c) (hd : c.dataFd = none) :
    Inv S { r with
      sessions := Function.update r.sessions fd none
      rooms := Function.update r.rooms c.home
        ((r.rooms c.home).map (mapLease c.peerId (·.markOffline now)))
      peerMap := Reg.unbind r.peerMap fd
      secureSessionMap := Reg.unbind r.secureSessionMap fd
      free := { i | i ∈ r.free ∨
        i = c.peerId ∧ c.peerId ≠ 0 ∧ c.roomId = 0 ∧ r.rooms c.home = none }
      openFds := r.openFds \ {fd} } := by
  refine h.unbind hc rfl rfl rfl rfl rfl (by simp) hd (by rintro d ⟨⟩) ?_
  by_cases hl : r.HasLease c.home c.peerId
  · obtain ⟨l, ⟨ls, hls, hl⟩, hp⟩ := hl
    have hpne : c.peerId ≠ 0 := hp ▸ (h.leased.lease_id ⟨ls, hls, hl⟩).1
    refine h.leased.change hls hl (KeepsLease.markOffline now) ?_ rfl ?_
      (fun hle => OnlyPeer.of_session hc rfl (Or.inl hp.symm) (by rintro d ⟨⟩) hle le_rfl ?_) ?_ ?_
    · simp only [hls, Option.map_some, hp]
      rfl
    · simp [hls]
    · intro i hi _
      simpa [hls] using hi
    · intro g d hg hgp
      simp only [Function.update_apply] at hg
      split at hg
      · cases hg
      · next hne => exact absurd (h.indexed.owner_unique hc hg (hgp.trans hp) hpne) hne
    · exact fun ho => absurd ho (by simp [RoomLease.markOffline])
  · have hrooms : Function.update r.rooms c.home
        ((r.rooms c.home).map (mapLease c.peerId (·.markOffline now))) = r.rooms := by
      rw [Function.update_eq_self_iff]
      rcases hls : r.rooms c.home with _ | ls
      · rfl
      · rw [Option.map_some, mapLease_of_forall_ne fun l hl' hp => hl ⟨l, ⟨ls, hls, hl'⟩, hp⟩]
    have hno : ∀ {R l}, r.Lease R l → l.peerId ≠ c.peerId := by
      intro R l hl' hp
      have := (h.holder hc ⟨l, hl', hp⟩).1
      exact hl ⟨l, this ▸ hl', hp⟩
    refine h.leased.drop (p := c.peerId) (Or.inl hrooms) ?_
      (fun hle => OnlyPeer.of_session hc rfl (Or.inl rfl) (by rintro d ⟨⟩) hle le_rfl ?_) ?_ ?_ ?_
    · intro R l hl'
      rw [Lease, hrooms] at hl'
      exact hno hl'
    · intro i hi hne
      rcases hi with hi | ⟨rfl, _⟩
      · exact hi
      · exact absurd rfl hne
    · intro g d hg hgp _
      simp only [Function.update_apply] at hg
      split at hg
      · cases hg
      · next hne =>
        by_cases h0 : c.peerId = 0
        · exact h.not_inRoom hg (hgp.trans h0)
        · exact absurd (h.indexed.owner_unique hc hg hgp h0) hne
    · exact fun _ => h.leased.session_id hc
    · rintro (hi | ⟨_, hpne, _⟩)
      · exact absurd ⟨fd, c, hc, rfl⟩ (h.leased.free hi).2.2.1
      · exact ⟨hpne, h.leased.session_id hc, h.not_owned hc rfl hpne (by rintro d ⟨⟩)⟩

/-! ### All steps -/

/-- Every step keeps the invariant. -/
theorem Step.inv {r r' : Reg} (hstep : Step S r r') (h : r.Inv S) : r'.Inv S := by
  cases hstep with
  | quiet hq => exact h.send (Pointwise.mono hq Sends.of_quiet) rfl
  | call _ => exact ⟨h.indexed.of_keys (Pointwise.refl SameKeys.refl _) rfl rfl rfl rfl rfl,
      h.leased.of_stays (Pointwise.refl Stays.refl _) rfl rfl rfl, h.wf⟩
  | accept hfd _ =>
    refine ⟨h.indexed.fds rfl rfl rfl rfl (fun g _ hg => Or.inr hg) (fun g _ hg hp => ?_)
      (fun g hg => ?_),
      h.leased.of_stays (Pointwise.refl Stays.refl _) rfl rfl rfl, h.wf⟩
    · rcases hp with rfl | hp
      · exact absurd hg hfd
      · exact hp
    · rcases hg with rfl | hg
      · exact Or.inl rfl
      · exact Or.inr (h.indexed.pending_fd hg)
  | unpend =>
    exact ⟨h.indexed.fds rfl rfl rfl rfl (fun g _ hg => hg) (fun g _ _ hp => hp.1)
      (fun g hg => h.indexed.pending_fd hg.1),
      h.leased.of_stays (Pointwise.refl Stays.refl _) rfl rfl rfl, h.wf⟩
  | @closeFd fd hs hd hp =>
    refine ⟨h.indexed.fds rfl rfl rfl rfl (fun g hg ho => ⟨ho, ?_⟩) (fun g _ _ hp => hp)
      (fun g hg => ⟨?_, ?_⟩),
      h.leased.of_stays (Pointwise.refl Stays.refl _) rfl rfl rfl, h.wf⟩
    · rintro rfl
      rcases hg with hg | hg
      · exact hg hs
      · exact hg hd
    · exact h.indexed.pending_fd hg
    · rintro rfl
      exact hp hg
  | promote hs hd hp ho _ => exact h.promote hs hd hp ho
  | handshake hc hst hst' =>
    have hwf := h.wf hc
    refine h.update hc ⟨rfl, rfl, rfl, rfl, by simp [hst]⟩ ?_ ?_
    · rcases hst' with rfl | rfl <;> exact ⟨rfl, id, by simp [hst], by simp [hst], by simp [hst]⟩
    · have hid := hwf.identity
      have hin := hwf.inRoom
      have hdata := hwf.data
      have hearly := hwf.early (Or.inl hst)
      rw [hst] at hid hin hdata
      rcases hst' with rfl | rfl
      · exact ⟨hid, by simpa using hin, hdata, fun _ => hearly, by simp, by simp, hwf.name⟩
      · exact ⟨hid, by simpa using hin, hdata, fun _ => hearly, by simp, by simp, hwf.name⟩
  | giveUp hc hst =>
    have hwf := h.wf hc
    have hid := hwf.identity
    have hin := hwf.inRoom
    have hdata := hwf.data
    refine h.update hc ⟨rfl, rfl, rfl, rfl, fun _ => rfl⟩ ?_ ?_
    · rcases hst with hst | hst | hst <;>
        exact ⟨rfl, id, by simp [hst], by simp [hst], by simp [hst]⟩
    · refine ⟨?_, ?_, ?_, by simp, by simp, by simp, hwf.name⟩ <;>
        rcases hst with hst | hst | hst <;> rw [hst] at hid hin hdata <;>
        simp_all [sessionHasPeerIdentity]
  | authenticate hc hst hsid hfree hauth => exact h.authenticate hc hst hsid hfree hauth
  | loginReused hc hst hp hname _ _ =>
    obtain ⟨h0, hlt, hown, hno⟩ := h.leased.free hp
    exact h.login hc hst hname.2 rfl rfl rfl rfl rfl rfl rfl h0 hown hno hlt le_rfl fun i hi =>
      ⟨hi.1, hi.2⟩
  | loginNew hc hst hname _ _ =>
    refine h.login hc hst hname.2 rfl rfl rfl rfl rfl rfl rfl h.leased.next_pos.ne' ?_ ?_
      (Nat.lt_succ_self _)
      (Nat.le_succ _) fun i hi => ⟨hi, (h.leased.free hi).2.1.ne⟩
    · rintro ⟨g, d, hg, hgp⟩
      exact (h.leased.session_id hg).ne hgp
    · rintro R ⟨l, hl, hlp⟩
      exact (h.leased.lease_id hl).2.ne hlp
  | loginResume hc hst hls hl htok hown hname _ _ _ _ =>
    exact h.loginResume hc hst hls hl htok hown hname.2
  | lobby hc hst hst' =>
    have hwf := h.wf hc
    have hin := hwf.inRoom
    have hpne : _ ≠ 0 := hwf.identity.mp (by rcases hst with hst | hst <;> rw [hst] <;> rfl)
    refine h.update hc ⟨rfl, rfl, rfl, rfl, ?_⟩ ?_ ?_
    · rcases hst with hst | hst <;> simp [hst]
    · rcases hst with hst | hst <;> rcases hst' with ⟨rfl, _⟩ | ⟨rfl, _⟩ <;>
        exact ⟨rfl, id, by simp [hst], by simp [hst], by simp [hst]⟩
    · refine Sess.WF.move hwf ⟨rfl, rfl, rfl, rfl, rfl, rfl⟩ ?_ ?_ ?_ ?_ hpne ?_ ?_ hwf.name
      all_goals rcases hst with hst | hst <;> rcases hst' with ⟨rfl, _⟩ | ⟨rfl, _⟩ <;>
        simp_all [sessionHasPeerIdentity]
  | @create fd c R l m hc hst hR hnew hp _ ho hl hm _ =>
    have hold : ∀ {l'}, r.Lease R l' ↔ l' ∈ ([] : List RoomLease) := by
      intro l'
      simp [Lease, hnew]
    exact h.enterNew hc hst hR hold ⟨by simp, by simp, by simp⟩ hp ho hl (by simp)
  | @join fd c R ls l m n σ' hc hst hls hp _ ho hl hlen hm hn _ hσ =>
    refine Inv.tell (h.enterNew hc hst (h.leased.room_ne_zero hls) ?_
      (h.leased.room hls) hp ho hl hlen) hσ
    intro l'
    simp [Lease, hls]
  | joinFailed hc hst hd =>
    have hwf := h.wf hc
    have hpne : _ ≠ 0 := hwf.identity.mp (by rw [hst]; rfl)
    rw [hd.same]
    exact h.update hc ⟨rfl, rfl, rfl, rfl, by simp [hst]⟩
      ⟨rfl, by simp, by simp [hst, Sess.exit], by simp [hst], by simp [hst]⟩
      (Sess.exit_wf hwf (by simp [hst]) (by simp [hst]) (by simp [hst]) hpne)
  | resume hc hst hls hl hp hm hn _ hσ =>
    exact Inv.tell (h.enterAgain hc hst hls hl hp KeepsLease.markOnline rfl rfl fun _ => rfl) hσ
  | @resumeFailed fd c c' ext lost R now ls l hc hst hls hl hp _ hd =>
    rw [hd.same]
    exact h.enterAgain hc hst hls hl hp (KeepsLease.markOnlineOffline now) rfl rfl (by simp)
  | resumeGiveUp hc hst hl => exact h.resumeGiveUp hc hst hl
  | @leave fd c ls n σ' hc hls hl hn _ hσ =>
    have hσc : σ' fd = some c := by
      have hfd := hσ fd
      rw [hc] at hfd
      rcases hc' : σ' fd with _ | c'
      · rw [hc'] at hfd; cases hfd
      · rw [hc'] at hfd
        cases hfd with
        | some hrel => rw [hrel.2 fun hh => hh.2.1 rfl]
    exact (h.tell hσ).leave hσc hls hl
  | logout hc hst hd hl _ => exact h.logout hc hst hd hl
  | @expire R ls l n σ' hls hl hlive hn hσ =>
    refine (h.tell hσ).expire hls hl ?_ ?_
    · rintro ⟨g, d, hg, hp, ha, hin, hR⟩
      obtain ⟨d₀, hd₀, hsend⟩ := hσ.sends.back hg
      have hstay := hsend.stays
      have hin₀ := hstay.inRoom.mp hin
      exact hlive ⟨g, d₀, hd₀, hstay.peerId.symm.trans hp, hstay.alive ha, hin₀,
        (hstay.place hin₀).1.symm.trans hR⟩
    · rintro i (hi | ⟨hi, hno⟩)
      · exact Or.inl hi
      · refine Or.inr ⟨hi, ?_⟩
        rintro ⟨g, d, hg, hp⟩
        obtain ⟨d₀, hd₀, hsend⟩ := hσ.sends.back hg
        exact hno ⟨g, d₀, hd₀, hsend.stays.peerId.symm.trans hp⟩
  | flag hls hl hf hlive => exact h.flag hls hl hf hlive
  | eraseRoom hls => exact h.eraseRoom hls
  | remove hc hd _ _ => exact h.remove hc hd
  | bindData hc hst hdf hs hd hp ho =>
    have hwf := h.wf hc
    refine ⟨h.indexed.bindData hc rfl rfl rfl rfl rfl rfl hdf rfl hs hd hp ho,
      h.leased.of_stays (Pointwise.update Stays.refl hc
        ⟨rfl, id, Iff.rfl, fun _ => ⟨rfl, rfl⟩, fun h => ⟨h, rfl, rfl⟩⟩) rfl rfl rfl,
        h.wf_update rfl ?_⟩
    rintro d ⟨⟩
    exact ⟨hwf.identity, hwf.inRoom, fun _ => hst, hwf.early, hwf.auth, hwf.resume, hwf.name⟩
  | closeData hc hdf =>
    have hwf := h.wf hc
    refine ⟨h.indexed.closeData hc rfl rfl rfl rfl rfl rfl hdf rfl,
      h.leased.of_stays (Pointwise.update Stays.refl hc
        ⟨rfl, id, Iff.rfl, fun _ => ⟨rfl, rfl⟩, fun h => ⟨h, rfl, rfl⟩⟩) rfl rfl rfl,
        h.wf_update rfl ?_⟩
    rintro d ⟨⟩
    exact ⟨hwf.identity, hwf.inRoom, by simp, hwf.early, hwf.auth, hwf.resume, hwf.name⟩

theorem Run.inv {r r' : Reg} (hrun : Run S r r') (h : r.Inv S) : r'.Inv S := by
  induction hrun with
  | refl => exact h
  | tail _ hstep ih => exact hstep.inv ih

end Reg

end Registry

end VlanConnect

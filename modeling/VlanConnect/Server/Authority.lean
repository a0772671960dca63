/-
  VlanConnect/Server/Authority.lean
  =================================
  **By what right a session gets at a lease.**

  A lease that is there already goes to a session only through the token of
  the lease, which the session has to present twice: in its LOGIN, which also
  closes the session that had the lease, and in its RESUME_ROOM.  A run here
  carries its history, so that the second request can be compared with the
  first.  The leases themselves never change, and the sweep takes none away
  whose time has not come.
-/
import VlanConnect.Server.Safety
import VlanConnect.Server.Effects
import VlanConnect.RegistryRuns

namespace VlanConnect

namespace Server

open Registry

variable (K : Crypto) {limits : ServerLimits} {hash salt : Bytes} {history : List (Server × Event)}
    {s : Server}

/-! ### Runs with their history -/

/-- A run: the states in which its events were handled, latest first, and the
    state it ends in. -/
inductive Path (limits : ServerLimits) (hash salt : Bytes) :
    List (Server × Event) → Server → Prop where
  | start : Path limits hash salt [] (start limits hash salt)
  | step {history : List (Server × Event)} {s : Server} (h : Path limits hash salt history s)
      (env : Env) {e : Event}
      (he : s.Enabled e) : Path limits hash salt ((s.prepare env, e) :: history) (s.step K env e)

theorem Path.reachable (h : Path K limits hash salt history s) :
    Reachable K limits hash salt s := by
  induction h with
  | start => exact .start
  | step _ env he ih => exact .step ih env he

theorem Path.script {events : List (Env × Event)} {s s' : Server}
    (h : Path K limits hash salt history s) (hs : s.script K events = some s') :
    ∃ history', Path K limits hash salt history' s' := by
  induction events generalizing s history with
  | nil =>
    cases hs
    exact ⟨history, h⟩
  | cons step rest ih =>
    obtain ⟨env, e⟩ := step
    unfold Server.script at hs
    split at hs
    · next he => exact ih (.step h env he) hs
    · cases hs

/-! ### Requests -/

/-- The request is for the lease of the room, with its token, and the lease is
    online or has not expired yet. -/
structure Entitles (s : Server) (now : Nat) (r : ResumeRequest) (R : Nat) (l : RoomLease) :
    Prop where
  there : ∃ room, s.rooms.getRoom R = some room ∧ l ∈ room.leases
  exact : r = ⟨R, l.peerId, l.token⟩
  length : r.token.length = 32
  nonzero : tokenIsZero r.token = false
  valid : l.online = true ∨ now ≤ l.expiresAt

/-- The session sends a LOGIN that resumes the lease. -/
def LoginAsks (s : Server) (fd : Fd) (R : Nat) (l : RoomLease) : Prop :=
  ∃ p s' req r, s.Receives K fd MSG_LOGIN p s' ∧ ByteBuffer.parse readLogin p = some req ∧
    req.resume = some r ∧
    s.Entitles s'.time.1 r R l

/-- The session sends a RESUME_ROOM for the lease. -/
def ResumeAsks (s : Server) (fd : Fd) (R : Nat) (l : RoomLease) : Prop :=
  ∃ p s' r, s.Receives K fd MSG_RESUME_ROOM p s' ∧ ByteBuffer.parse readResumeRequest p = some r ∧
    s.Entitles s'.time.1 r R l

theorem readResumeRequest_length {unread rest : Bytes} {r : ResumeRequest}
    (h : readResumeRequest unread = some (r, rest)) : r.token.length = 32 := by
  unfold readResumeRequest at h
  obtain ⟨roomId, rest₁, _, h⟩ := ByteBuffer.bind_eq_some.mp h
  obtain ⟨peerId, rest₂, _, h⟩ := ByteBuffer.bind_eq_some.mp h
  obtain ⟨token, rest₃, htoken, h⟩ := ByteBuffer.bind_eq_some.mp h
  cases h
  exact (ByteBuffer.readBytes_eq_some.mp htoken).1

theorem readLogin_length {p : Bytes} {req : LoginRequest} {r : ResumeRequest}
    (h : ByteBuffer.parse readLogin p = some req) (hr : req.resume = some r) :
    r.token.length = 32 := by
  obtain ⟨⟨req', rest⟩, hread, rfl⟩ := Option.map_eq_some_iff.mp h
  simp only [readLogin, ByteBuffer.bind_eq_some, ByteBuffer.ite_eq_some, ByteBuffer.failure_ne_some,
    ByteBuffer.map_eq_some, ByteBuffer.pure_eq_some, false_and, exists_false, and_false,
    false_or] at hread
  obtain ⟨name, rest₁, _, version, rest₂, _, flag, rest₃, _, _, hresume⟩ := hread
  rcases hresume with ⟨_, resume, rest₄, ⟨r', rest₅, hr', heq⟩, done, rest₆, _, _, hreq⟩ |
    ⟨_, resume, rest₄, heq, done, rest₆, _, _, hreq⟩
  · cases heq
    cases hreq
    cases hr
    exact readResumeRequest_length hr'
  · cases heq
    cases hreq
    cases hr

theorem Receives.same {fd : Fd} {msgType : UInt8} {p : Bytes} {s s' : Server}
    (h : s.Receives K fd msgType p s') :
    s'.registry = s.registry ∧ s'.world = s.world := by
  obtain ⟨f, _, _, hopens⟩ := h.frame
  exact hopens.same

theorem Asks.entitles {s s' : Server} {r : ResumeRequest} {l : RoomLease} (h : s'.Asks r l)
    (hreg : s'.registry = s.registry) (hlen : r.token.length = 32) :
    s.Entitles s'.time.1 r r.roomId l := by
  have hthere := h.there
  rw [hreg] at hthere
  refine ⟨lease_registry.mp hthere, ?_, hlen, h.nonzero, h.valid⟩
  rw [h.peerId, h.token]

theorem loginAsks_of_resumes {e : Event} {fd : Fd} {R : Nat} {l : RoomLease}
    (h : (stepScope K s e).Resumes fd R l) : s.LoginAsks K fd R l := by
  obtain ⟨p, s', req, r, hrec, hp, hr, rfl, hasks⟩ := h
  exact ⟨p, s', req, r, hrec, hp, hr, hasks.entitles hrec.same.1 (readLogin_length hp hr)⟩

/-- What a RESUME_ROOM has to match in the session. -/
theorem resumeAsks_of_reenters {e : Event} {fd : Fd} {R : Nat} {l : RoomLease}
    (h : (stepScope K s e).Reenters fd R l) :
    s.ResumeAsks K fd R l ∧ (s.client fd).resumeRoomId = R ∧
      (s.client fd).peerId = l.peerId ∧ (s.client fd).resumeToken = l.token := by
  obtain ⟨p, s', r, hrec, hp, rfl, hasks, hR, hpeer, htok⟩ := h
  have hsame := toSess_client hrec.same.1 fd
  obtain ⟨⟨r', rest⟩, hread, rfl⟩ := Option.map_eq_some_iff.mp hp
  refine ⟨⟨p, s', r', hrec, hp, hasks.entitles hrec.same.1 (readResumeRequest_length hread)⟩, ?_,
    ?_, ?_⟩
  · exact (congrArg Sess.resumeRoomId hsame).symm.trans hR
  · exact (congrArg Sess.peerId hsame).symm.trans (hpeer.trans hasks.peerId.symm)
  · exact (congrArg Sess.resumeToken hsame).symm.trans (htok.trans hasks.token.symm)

/-- The session whose message is handled. -/
theorem Receives.client {S : Reg.Scope} (hs : Sound S limits hash salt s) {env : Env} {fd : Fd}
    {msgType : UInt8} {p : Bytes} {s' : Server} (h : (s.prepare env).Receives K fd msgType p s') :
    ∃ c, s.clients[fd]? = some c ∧ isClientSignalMessageAllowed c.state msgType = true := by
  have hctl := hs.control
  unfold ControlOk at hctl
  rw [show s.control = .signal fd from h.control] at hctl
  obtain ⟨c, hc, _⟩ := hctl
  refine ⟨c, hc, ?_⟩
  have hallowed := h.allowed
  rwa [show (s.prepare env).client fd = c from client_eq hc] at hallowed

/-- Events other than `resume` find the server idle. -/
theorem Receives.resume {e : Event} {env : Env} (he : s.Enabled e) {fd : Fd} {msgType : UInt8}
    {p : Bytes} {s' : Server} (h : (s.prepare env).Receives K fd msgType p s') :
    (s.prepare env).Concerns fd e := by
  have hctl : s.control = .signal fd := h.control
  cases e with
  | resume => exact Or.inl hctl
  | accept g ip =>
    obtain ⟨hidle, _⟩ := he
    cases hctl.symm.trans hidle
  | datagram sender data => cases hctl.symm.trans he
  | readable g chunk => cases hctl.symm.trans he
  | writable g => cases hctl.symm.trans he
  | hangup g => cases hctl.symm.trans he
  | timer => cases hctl.symm.trans he

/-! ### One step -/

theorem inv_receives (h : Reachable K limits hash salt s) {env : Env} {fd : Fd} {msgType : UInt8}
    {p : Bytes} {s' : Server} (hrec : (s.prepare env).Receives K fd msgType p s') :
    s'.registry.Inv (openScope K hash salt) := by
  rw [hrec.same.1]
  exact ((h.sound K).good.prepare env).inv

/-- The state in which a handler begins. -/
theorem good_handler (h : Reachable K limits hash salt s) {env : Env} {fd : Fd} {msgType : UInt8}
    {p : Bytes} {s' : Server} (hrec : (s.prepare env).Receives K fd msgType p s') :
    Good (openScope K hash salt) (s'.act (.handler fd msgType p)) := by
  have hgood : Good (openScope K hash salt) s' := by
    refine ⟨inv_receives K h hrec, ?_⟩
    rw [rooms_of_world hrec.same.2,
      show s'.limits = s.limits from congrArg World.limits hrec.same.2]
    exact (h.sound K).good.rooms
  exact hgood.evolve (act_handler_lasts trivial s').evolves

/-- Members come from the lobby, and nobody there has a lease. -/
theorem lobby_no_lease (h : Reachable K limits hash salt s) {env : Env} {fd : Fd} {msgType : UInt8}
    {p : Bytes} {s' : Server} (hrec : (s.prepare env).Receives K fd msgType p s')
    (hm : msgType = MSG_CREATE_ROOM ∨ msgType = MSG_JOIN_ROOM ∨ msgType = MSG_AUTH_RESPONSE)
    {R : Nat} {l : RoomLease} (hl : s.registry.Lease R l) : (s'.client fd).peerId ≠ l.peerId := by
  intro hpeer
  have hs := h.sound K
  obtain ⟨c, hc, hallowed⟩ := hrec.client K hs
  have hpc : c.peerId = l.peerId := by
    have hsame := congrArg Sess.peerId (toSess_client hrec.same.1 fd)
    rw [show (s.prepare env).client fd = c from client_eq hc] at hsame
    exact hsame.symm.trans hpeer
  have hstate : c.state = .inRoom ∨ c.state = .resumePending :=
    (hs.good.inv.leased.owner hl (sessions_registry hc) hpc).imp And.left And.left
  rcases hstate with hstate | hstate <;> rw [hstate] at hallowed <;> rcases hm with
    rfl | rfl | rfl <;> cases hallowed

section Step

variable (h : Reachable K limits hash salt s) (env : Env) {e : Event} (he : s.Enabled e)

include h he

/-- Who gets the id of a lease has asked for it. -/
theorem owner_asks {fd : Fd} {c' : ClientSession} (hc' : (s.step K env e).clients[fd]? = some c')
    (hnew : ∀ c, s.clients[fd]? = some c → c.peerId ≠ c'.peerId) {R : Nat} {l : RoomLease}
    (hl : s.registry.Lease R l) (hp : l.peerId = c'.peerId) :
    (s.prepare env).LoginAsks K fd R l := by
  obtain ⟨hinv, hrun⟩ := h.run K env he
  have hinv₀ := (h.sound K).good.inv
  have hp0 : c'.peerId ≠ 0 := hp ▸ (hinv₀.leased.lease_id hl).1
  rcases hrun.peerId_back hinv (sessions_registry hc') hp0 with
    ⟨c, hc, hpc⟩ | ⟨p, s', hrec, halloc⟩ |
    ⟨R', asked, hS, hpa⟩
  · obtain ⟨d, hd, rfl⟩ := exists_of_sessions hc
    exact absurd hpc (hnew d hd)
  · -- a new id is not that of a lease
    obtain ⟨_, _, hno⟩ := allocatePeerId_unused (inv_receives K h hrec)
    rw [halloc, hrec.same.1] at hno
    exact absurd ⟨l, hl, hp⟩ (hno R)
  · have hasks := loginAsks_of_resumes K hS
    obtain ⟨_, _, _, _, _, _, _, hent⟩ := id hasks
    obtain ⟨rfl, rfl⟩ := hinv₀.leased.unique hl (lease_registry.mpr hent.there) (hp.trans hpa.symm)
    exact hasks

/-- Whoever is closed by the event of another connection had a lease that the
    other asked for. -/
theorem takeover_asks {g : Fd} {c : ClientSession} (hc : s.clients[g]? = some c)
    (hgone : (s.step K env e).clients[g]? = none) (hother : ¬ (s.prepare env).Concerns g e) :
    ∃ fd R l, fd ≠ g ∧ l.peerId = c.peerId ∧ (s.prepare env).LoginAsks K fd R l := by
  obtain ⟨hinv, hrun⟩ := h.run K env he
  have hnone : (s.step K env e).registry.sessions g = none := by
    simp [registry, sessionsOf, hgone]
  rcases hrun.removed hinv (sessions_registry hc) hnone with
    hend | ⟨p, _, s', hrec, _⟩ | ⟨R, l, hS⟩ |
    ⟨fd, R, l, hS, hp⟩
  · exact absurd hend hother
  · exact absurd (hrec.resume K he) hother
  · obtain ⟨_, _, _, _, hrec, _⟩ := hS
    exact absurd (hrec.resume K he) hother
  · have hasks := loginAsks_of_resumes K hS
    obtain ⟨_, _, _, _, hrec, _, _, hent⟩ := id hasks
    have hfd : fd ≠ g := by
      rintro rfl
      exact hother (hrec.resume K he)
    have hl0 := ((h.sound K).good.inv.leased.lease_id (lease_registry.mpr hent.there)).1
    exact ⟨fd, R, l, hfd, hp.resolve_right hl0, hasks⟩

/-- Who enters a room that has its lease already has asked for it, as before. -/
theorem enter_asks {fd : Fd} {c' : ClientSession} (hc' : (s.step K env e).clients[fd]? = some c')
    (hst : c'.state = .inRoom)
    (hnew : ∀ c, s.clients[fd]? = some c → ¬ (c.state = .inRoom ∧ c.roomId = c'.roomId ∧
      c.peerId = c'.peerId))
    {l : RoomLease} (hl : s.registry.Lease c'.roomId l) (hp : l.peerId = c'.peerId) :
    (s.prepare env).ResumeAsks K fd c'.roomId l ∧
      ∃ c, s.clients[fd]? = some c ∧ c.state = .resumePending ∧ c.resumeRoomId = c'.roomId ∧
      c.peerId = l.peerId ∧
        c.resumeToken = l.token := by
  obtain ⟨hinv, hrun⟩ := h.run K env he
  have hs := h.sound K
  rcases hrun.inRoom_back hinv (sessions_registry hc') hst with
    ⟨c, hc, hstc, hRc, hpc⟩ | ⟨p, s', hrec, hpeer, _⟩ |
    ⟨msgType, p, s', room, hrec, hpeer, _, hm⟩ | ⟨l', hS, hp'⟩
  · obtain ⟨d, hd, rfl⟩ := exists_of_sessions hc
    exact absurd ⟨hstc, hRc, hpc⟩ (hnew d hd)
  · exact absurd (hpeer.trans hp.symm) (lobby_no_lease K h hrec (Or.inl rfl) hl)
  · refine absurd (hpeer.trans hp.symm) (lobby_no_lease K h hrec (Or.inr ?_) hl)
    exact hm.imp And.left And.left
  · obtain ⟨hasks, hR, hpeer, htok⟩ := resumeAsks_of_reenters K hS
    obtain ⟨_, _, _, hrec, _, hent⟩ := id hasks
    obtain ⟨_, rfl⟩ :=
      hs.good.inv.leased.unique hl (lease_registry.mpr hent.there) (hp.trans hp'.symm)
    obtain ⟨c, hc, hallowed⟩ := hrec.client K hs
    rw [show (s.prepare env).client fd = c from client_eq hc] at hR hpeer htok
    refine ⟨hasks, c, hc, ?_, hR, hpeer, htok⟩
    revert hallowed
    cases c.state <;> decide

/-- A lease stays the same as long as it is there. -/
theorem lease_same {R : Nat} {l l' : RoomLease} (hl : s.registry.Lease R l)
    (hl' : (s.step K env e).registry.Lease R l') (hp : l'.peerId = l.peerId) :
    Reg.SameLease l l' := by
  obtain ⟨_, hrun⟩ := h.run K env he
  have hs := h.sound K
  rcases hrun.lease_back hl' with ⟨l₀, hl₀, hsame⟩ | ⟨fd, ⟨p, s', hrec, hpeer, _⟩ |
    ⟨msgType, p, s', room, hrec, hpeer, _, hm⟩⟩
  · obtain ⟨_, rfl⟩ := hs.good.inv.leased.unique hl₀ hl (hsame.peerId.symm.trans hp)
    exact hsame
  · exact absurd (hpeer.trans hp) (lobby_no_lease K h hrec (Or.inl rfl) hl)
  · refine absurd (hpeer.trans hp) (lobby_no_lease K h hrec (Or.inr ?_) hl)
    exact hm.imp And.left And.left

end Step

/-! ### Whole runs -/

/-- The session logged in for the lease of the peer with this token, and has
    waited for its resume since. -/
def LoggedInFor (fd : Fd) (R peerId : Nat) (token : Bytes) : List (Server × Event) → Prop
  | [] => False
  | (s, _) :: history =>
    (∃ l, l.peerId = peerId ∧ l.token = token ∧ s.LoginAsks K fd R l) ∨
      (∃ c : ClientSession, s.clients[fd]? = some c ∧ c.state = .resumePending ∧
        c.resumeRoomId = R ∧
        c.peerId = peerId ∧ c.resumeToken = token) ∧ LoggedInFor fd R peerId token history

theorem Path.loggedInFor (h : Path K limits hash salt history s) {fd : Fd} {c : ClientSession}
    (hc : s.clients[fd]? = some c) (hst : c.state = .resumePending) :
    LoggedInFor K fd c.resumeRoomId c.peerId c.resumeToken history := by
  induction h generalizing c with
  | start => simp [Server.start] at hc
  | @step history s h env e he ih =>
    obtain ⟨hinv, hrun⟩ := (h.reachable K).run K env he
    rcases hrun.resume_back hinv (sessions_registry hc) hst with ⟨c₀, hc₀, hst₀, hR, hp, htok⟩ |
      ⟨asked, hS, hp, htok⟩
    · obtain ⟨d, hd, rfl⟩ := exists_of_sessions hc₀
      have hback := ih (c := d) hd hst₀
      rw [show d.resumeRoomId = c.resumeRoomId from hR, show d.peerId = c.peerId from hp,
        show d.resumeToken = c.resumeToken from htok] at hback
      exact Or.inr ⟨⟨d, hd, hst₀, hR, hp, htok⟩, hback⟩
    · exact Or.inl ⟨asked, hp, htok, loginAsks_of_resumes K hS⟩

/-- As long as there is a lease of the peer in the room, it is the same. -/
theorem Path.lease_same {newer older : List (Server × Event)} {s₀ : Server} {e₀ : Event}
    (h : Path K limits hash salt (newer ++ (s₀, e₀) :: older) s) {R : Nat} {l l' : RoomLease}
    (hl : s₀.registry.Lease R l) (hkept : ∀ x ∈ newer, x.1.registry.HasLease R l.peerId)
    (hl' : s.registry.Lease R l') (hp : l'.peerId = l.peerId) : Reg.SameLease l l' := by
  induction newer generalizing s l' with
  | nil =>
    cases h with
    | step h env he => exact Server.lease_same K (h.reachable K) env he hl hl' hp
  | cons x newer ih =>
    cases h with
    | step h env he =>
      obtain ⟨l₁, hl₁, hp₁⟩ := hkept _ List.mem_cons_self
      have hsame := ih h (fun x hx => hkept x (List.mem_cons_of_mem _ hx)) hl₁ hp₁
      exact hsame.trans (Server.lease_same K (h.reachable K) env he hl₁ hl' (hp.trans hp₁.symm))

/-! ### The sweep -/

/-- The lease is in the room, online or with time left. -/
def Standing (s : Server) (R now : Nat) (l : RoomLease) : Prop :=
  ∃ room l', s.rooms.getRoom R = some room ∧ l' ∈ room.leases ∧ Reg.SameLease l l' ∧
    leaseExpired l' now = false

variable {R now : Nat} {l : RoomLease}

theorem Standing.of_rooms {s s' : Server} (h : s.Standing R now l) (hr : s'.rooms = s.rooms) :
    s'.Standing R now l := by
  unfold Standing
  rw [hr]
  exact h

theorem Standing.setLeases {roomId : Nat} {f : List RoomLease → List RoomLease}
    (h : s.Standing R now l)
    (hf : ∀ {room l'}, s.rooms.getRoom roomId = some room → l' ∈ room.leases →
      leaseExpired l' now = false → ∃ l'' ∈ f room.leases, Reg.SameLease l' l'' ∧
      leaseExpired l'' now = false) :
    (s.setLeases roomId f).Standing R now l := by
  obtain ⟨room, l', hroom, hl', hsame, hdue⟩ := h
  unfold Server.setLeases
  split
  · exact ⟨room, l', hroom, hl', hsame, hdue⟩
  next room₁ hroom₁ =>
  by_cases hR : R = roomId
  · subst hR
    obtain rfl : room = room₁ := Option.some.inj (hroom.symm.trans hroom₁)
    obtain ⟨l'', hl'', hsame', hdue'⟩ := hf hroom₁ hl' hdue
    refine ⟨{ room with leases := f room.leases }, l'', ?_, hl'', hsame.trans hsame', hdue'⟩
    rw [setRoom, RoomManager.getRoom_setRoom, if_pos rfl]
  · refine ⟨room, l', ?_, hl', hsame, hdue⟩
    rw [setRoom, RoomManager.getRoom_setRoom, if_neg hR]
    exact hroom

theorem keepsRooms : SendEffects fun s s' : Server => s'.rooms = s.rooms where
  refl _ := rfl
  trans h h' := h'.trans h
  modify _ _ _ _ := rfl
  peerMap _ _ := rfl
  dataFdMap _ _ := rfl
  act _ _ := rfl
  close _ _ := rfl
  append s fd dataChannel msgType body _ _ := by
    unfold appendSendBuffer
    dsimp only
    split
    · split <;> rfl
    · split <;> rfl
  flush _ _ _ := rfl
  clear _ _ _ := rfl

theorem releasePeerId_rooms (s : Server) (peerId : Nat) :
    (s.releasePeerId peerId).rooms = s.rooms := by
  unfold releasePeerId
  split
  · rfl
  have hfind := keepsRooms.findClientOwnerByPeerId s peerId
  dsimp only
  split
  · exact hfind
  · exact hfind

/-- The bookkeeping of the sweep gives a lease time, if anything. -/
theorem leaseExpired_refreshLease {lease : RoomLease} (live : Bool)
    (h : leaseExpired lease now = false) :
    leaseExpired (refreshLease lease live now).1 now = false := by
  unfold refreshLease
  split
  · simp [leaseExpired, RoomLease.markOnline]
  split
  · simp [leaseExpired, RoomLease.markOffline]
  split
  · simp [leaseExpired, RoomLease.markOffline]
  · exact h

theorem Standing.expireLease {roomId i : Nat} {lease : RoomLease} (h : s.Standing R now l)
    (hi : ∀ {room}, s.rooms.getRoom roomId = some room → room.leases[i]? = some lease)
    (hexp : leaseExpired lease now = true) : (s.expireLease K roomId i lease).Standing R now l := by
  unfold Server.expireLease
  have hsent :=
    keepsRooms.broadcastToRoom K s roomId MSG_PEER_LEFT
      (ByteBuffer.writeU32 lease.peerId) lease.peerId
  have h₁ := h.of_rooms hsent
  generalize s.broadcastToRoom K roomId MSG_PEER_LEFT
    (ByteBuffer.writeU32 lease.peerId) lease.peerId = s₁
    at hsent h₁ ⊢
  have h₂ : (s₁.setLeases roomId (·.eraseIdx i)).Standing R now l := by
    refine h₁.setLeases fun {room l'} hroom hl' hdue => ⟨l', ?_, .refl l', hdue⟩
    rw [hsent] at hroom
    obtain ⟨j, hj⟩ := List.mem_iff_getElem?.mp hl'
    refine List.mem_eraseIdx_iff_getElem?.mpr ⟨j, ?_, hj⟩
    rintro rfl
    obtain rfl : l' = lease := Option.some.inj (hj.symm.trans (hi hroom))
    rw [hexp] at hdue
    cases hdue
  dsimp only
  have h₃ := h₂.of_rooms
    (keepsRooms.findClientByPeerId (s₁.setLeases roomId (·.eraseIdx i)) lease.peerId)
  split
  · exact h₃
  · exact h₃.of_rooms (releasePeerId_rooms _ _)

theorem Standing.sweepLeases (roomId rounds : Nat) : ∀ {i : Nat} {s : Server}, s.Standing R now l →
    (sweepLeases K roomId now rounds i s).2.Standing R now l := by
  induction rounds with
  | zero => exact fun h => h
  | succ rounds ih =>
    intro i s h
    unfold Server.sweepLeases
    rcases hold : (s.rooms.getRoom roomId).bind (·.leases[i]?) with _ | old
    · exact h
    obtain ⟨room, hroom, hi⟩ := Option.bind_eq_some_iff.mp hold
    have hlive : (s.hasLiveSession roomId old.peerId).2.rooms = s.rooms :=
      keepsRooms.findClientByPeerId s old.peerId
    dsimp only
    generalize s.hasLiveSession roomId old.peerId = found at hlive ⊢
    obtain ⟨live, s₁⟩ := found
    dsimp only at hlive ⊢
    obtain ⟨f, hf, hlease, _⟩ := refreshLease_spec old live now
    have h₂ : (s₁.setLeases roomId (·.set i (refreshLease old live now).1)).Standing R now l := by
      refine (h.of_rooms hlive).setLeases fun {room' l'} hroom' hl' hdue => ?_
      rw [hlive, hroom] at hroom'
      cases hroom'
      obtain ⟨j, hj⟩ := List.mem_iff_getElem?.mp hl'
      by_cases hij : i = j
      · subst hij
        obtain rfl : l' = old := Option.some.inj (hj.symm.trans hi)
        refine ⟨(refreshLease l' live now).1, List.mem_set (List.getElem?_eq_some_iff.mp hi).1 _,
          ?_, ?_⟩
        · rw [hlease]
          exact .of_keeps hf l'
        · exact leaseExpired_refreshLease live hdue
      · exact ⟨l', List.mem_iff_getElem?.mpr ⟨j, by rw [List.getElem?_set_ne hij]; exact hj⟩,
          .refl l', hdue⟩
    have hi₂ :
      ∀ {room'}, (s₁.setLeases roomId (·.set i (refreshLease old live now).1)).rooms.getRoom
      roomId =
        some room' → room'.leases[i]? = some (refreshLease old live now).1 := by
      intro room' hroom'
      unfold Server.setLeases at hroom'
      rw [hlive, hroom] at hroom'
      dsimp only [setRoom] at hroom'
      rw [RoomManager.getRoom_setRoom, if_pos rfl] at hroom'
      cases hroom'
      exact List.getElem?_set_self (List.getElem?_eq_some_iff.mp hi).1
    generalize s₁.setLeases roomId (·.set i (refreshLease old live now).1) = s₂ at h₂ hi₂ ⊢
    generalize (refreshLease old live now).1 = lease at hi₂ ⊢
    split
    · next hexp =>
      have h₃ := h₂.expireLease K hi₂ hexp
      exact ih h₃
    · exact ih h₂

theorem Standing.sweepRoom {acc : Bool × List Nat × Server} (roomId : Nat)
    (h : acc.2.2.Standing R now l ∧ R ∉ acc.2.1) :
    (sweepRoom K now acc roomId).2.2.Standing R now l ∧ R ∉ (sweepRoom K now acc roomId).2.1 := by
  obtain ⟨changed, emptyRooms, s⟩ := acc
  obtain ⟨h, hne⟩ := h
  unfold Server.sweepRoom
  dsimp only at h hne ⊢
  split
  · exact ⟨h, hne⟩
  next room _ =>
  have hsweep := h.sweepLeases K roomId room.leases.length (i := 0)
  generalize Server.sweepLeases K roomId now room.leases.length 0 s = res at hsweep ⊢
  obtain ⟨c, s₁⟩ := res
  dsimp only at hsweep ⊢
  split
  · exact ⟨hsweep, hne⟩
  next room₁ hroom₁ =>
  obtain ⟨room', l', hroom', hl', hsame, hdue⟩ := hsweep
  dsimp only [setRoom]
  rw [Room.ensureHost_leases]
  by_cases hR : R = roomId
  · subst hR
    obtain rfl : room' = room₁ := Option.some.inj (hroom'.symm.trans hroom₁)
    refine ⟨⟨room'.ensureHost, l', ?_, by rw [Room.ensureHost_leases]; exact hl', hsame, hdue⟩, ?_⟩
    · rw [RoomManager.getRoom_setRoom, if_pos rfl]
    · rw [if_neg (List.ne_nil_of_mem hl')]
      exact hne
  · refine ⟨⟨room', l', ?_, hl', hsame, hdue⟩, ?_⟩
    · rw [RoomManager.getRoom_setRoom, if_neg hR]
      exact hroom'
    · split
      · exact fun hmem => (List.mem_append.mp hmem).elim hne fun heq =>
          hR (List.mem_singleton.mp heq)
      · exact hne

theorem Standing.foldl_sweepRoom (ids : List Nat) : ∀ acc : Bool × List Nat × Server,
    acc.2.2.Standing R now l ∧ R ∉ acc.2.1 →
      (ids.foldl (Server.sweepRoom K now) acc).2.2.Standing R now l ∧
        R ∉ (ids.foldl (Server.sweepRoom K now) acc).2.1 := by
  induction ids with
  | nil => exact fun _ h => h
  | cons id ids ih => exact fun _ h => ih _ (Standing.sweepRoom K id h)

theorem Standing.foldl_eraseRoom (ids : List Nat) : ∀ {s : Server}, s.Standing R now l → R ∉ ids →
    (ids.foldl (fun s roomId => { s with rooms := s.rooms.eraseRoom roomId }) s).Standing
    R now l := by
  induction ids with
  | nil => exact fun h _ => h
  | cons id ids ih =>
    intro s h hR
    obtain ⟨room, l', hroom, hl', hsame, hdue⟩ := h
    have hid : R ≠ id := by
      rintro rfl
      exact hR List.mem_cons_self
    refine ih ⟨room, l', ?_, hl', hsame, hdue⟩ fun hmem => hR (List.mem_cons_of_mem id hmem)
    dsimp only
    rw [RoomManager.getRoom_eraseRoom, if_neg hid]
    exact hroom

/-- **The sweep takes no lease away that is online or has time left.** -/
theorem Standing.cleanupExpiredLeases (h : s.Standing R now l) :
    (s.cleanupExpiredLeases K now).Standing R now l := by
  unfold Server.cleanupExpiredLeases
  have hsweep := Standing.foldl_sweepRoom K s.rooms.rooms.keys (false, [], s) ⟨h, List.not_mem_nil⟩
  generalize s.rooms.rooms.keys.foldl (Server.sweepRoom K now) (false, [], s) = res at hsweep ⊢
  obtain ⟨changed, emptyRooms, s₁⟩ := res
  dsimp only at hsweep ⊢
  have herased := Standing.foldl_eraseRoom emptyRooms hsweep.1 hsweep.2
  split
  · exact herased.of_rooms (broadcastRoomListPush_still K _).rooms
  · exact herased

/-- The states and times in which an event may call `cleanupExpiredLeases`: in
    the three handlers that begin with it, and after the timeouts. -/
inductive SweepCall (s : Server) (e : Event) : Server → Nat → Prop where
  | message {fd : Fd} {msgType : UInt8} {p : Bytes} {s' : Server} (h : s.Receives K fd msgType p s')
      (hm : msgType = MSG_JOIN_ROOM ∨ msgType = MSG_AUTH_RESPONSE ∨ msgType = MSG_LIST_ROOMS) :
      SweepCall s e (s'.act (.handler fd msgType p)).time.2 (s'.act (.handler fd msgType p)).time.1
  | timer (he : e = .timer) : SweepCall s e s.closeTimedOut s.time.1

theorem SweepCall.good (h : Reachable K limits hash salt s) {env : Env} {e : Event} {t : Server}
    (hcall : SweepCall K (s.prepare env) e t now) : ∃ S, Good S t := by
  have hs := h.sound K
  cases hcall with
  | @message fd msgType p s' hrec _ =>
    exact ⟨_, (good_handler K h hrec).evolve (time_idle _).evolves⟩
  | timer he =>
    subst he
    have hgood : Good (stepScope K (s.prepare env) .timer) s := by
      refine hs.good.scope ?_
      show Authentic K s.serverAuthHash s.serverAuthSalt = Authentic K hash salt
      rw [hs.hash, hs.salt]
    have hgood' := hgood.prepare env
    exact ⟨_, hgood'.evolve (closeTimedOut_evolves K hgood' (allows_stepScope K _ _))⟩

/-! ### The authority to resume -/

/-- What the next step of a run does with the leases that are there. -/
structure ResumeAuthority (history : List (Server × Event)) (s : Server) (env : Env) (e : Event) :
    Prop where
  /-- A session gets the id of a lease by a LOGIN for it. -/
  owner : ∀ {fd : Fd} {c' : ClientSession} {R room l}, (s.step K env e).clients[fd]? = some c' →
    (∀ c : ClientSession, s.clients[fd]? = some c → c.peerId ≠ c'.peerId) →
    s.rooms.getRoom R = some room →
    l ∈ room.leases → l.peerId = c'.peerId → (s.prepare env).LoginAsks K fd R l
  /-- A session that goes in a step of another connection is taken over by a
      LOGIN for its lease. -/
  takeover : ∀ {g : Fd} {c : ClientSession}, s.clients[g]? = some c →
    (s.step K env e).clients[g]? = none →
    ¬ (s.prepare env).Concerns g e →
    ∃ fd R l, fd ≠ g ∧ l.peerId = c.peerId ∧ (s.prepare env).LoginAsks K fd R l
  /-- A session enters the room of a lease that is there by a RESUME_ROOM for
      it, after a LOGIN for the same lease. -/
  enter : ∀ {fd : Fd} {c' : ClientSession} {room l}, (s.step K env e).clients[fd]? = some c' →
    c'.state = .inRoom →
    (∀ c : ClientSession, s.clients[fd]? = some c →
      ¬ (c.state = .inRoom ∧ c.roomId = c'.roomId ∧ c.peerId = c'.peerId)) →
    s.rooms.getRoom c'.roomId = some room → l ∈ room.leases → l.peerId = c'.peerId →
    (s.prepare env).ResumeAsks K fd c'.roomId l ∧
    LoggedInFor K fd c'.roomId l.peerId l.token history
  /-- A lease is the same as long as it is there. -/
  constant : ∀ {newer older s₀ e₀ R room room' l l'},
    (s.prepare env, e) :: history = newer ++ (s₀, e₀) :: older → s₀.rooms.getRoom R = some room →
    l ∈ room.leases →
    (∀ x ∈ newer, ∃ room, x.1.rooms.getRoom R = some room ∧ ∃ l₁ ∈ room.leases,
      l₁.peerId = l.peerId) →
    (s.step K env e).rooms.getRoom R = some room' → l' ∈ room'.leases → l'.peerId = l.peerId →
    l'.token = l.token ∧ l'.virtualIP = l.virtualIP ∧ l'.name = l.name
  /-- The sweep keeps the lease of a live session in the room, and an offline
      lease that has not expired. -/
  sweep : ∀ {t now R room l}, SweepCall K (s.prepare env) e t now → t.rooms.getRoom R = some room →
    l ∈ room.leases →
    ((∃ (fd : Fd) (c : ClientSession), t.clients[fd]? = some c ∧ c.alive = true ∧
      c.state = .inRoom ∧
        c.roomId = R ∧ c.peerId = l.peerId) ∨ l.online = false ∧ now ≤ l.expiresAt) →
    ∃ room' l', (t.cleanupExpiredLeases K now).rooms.getRoom R = some room' ∧ l' ∈ room'.leases ∧
      l'.peerId = l.peerId ∧ l'.token = l.token ∧ l'.virtualIP = l.virtualIP ∧ l'.name = l.name

/-- **Resume and takeover authority.** -/
theorem resume_authority (h : Path K limits hash salt history s) (env : Env) {e : Event}
    (he : s.Enabled e) :
    ResumeAuthority K history s env e := by
  have hreach := h.reachable K
  constructor
  case owner =>
    intro fd c' R room l hc' hnew hroom hl hp
    exact owner_asks K hreach env he hc' hnew (lease_registry.mpr ⟨room, hroom, hl⟩) hp
  case takeover => exact fun hc hgone hother => takeover_asks K hreach env he hc hgone hother
  case enter =>
    intro fd c' room l hc' hst hnew hroom hl hp
    obtain ⟨hasks, c, hc, hstc, hR, hpc, htok⟩ :=
      enter_asks K hreach env he hc' hst hnew (lease_registry.mpr ⟨room, hroom, hl⟩) hp
    have hlogin := h.loggedInFor K hc hstc
    rw [hR, hpc, htok] at hlogin
    exact ⟨hasks, hlogin⟩
  case constant =>
    intro newer older s₀ e₀ R room room' l l' hhist hroom hl hkept hroom' hl' hp
    have hpath := Path.step h env he
    rw [hhist] at hpath
    have hsame := hpath.lease_same K (lease_registry.mpr ⟨room, hroom, hl⟩) (fun x hx => ?_)
      (lease_registry.mpr ⟨room', hroom', hl'⟩) hp
    · exact ⟨hsame.token, hsame.virtualIP, hsame.name⟩
    · obtain ⟨room₁, hroom₁, l₁, hl₁, hp₁⟩ := hkept x hx
      exact ⟨l₁, lease_registry.mpr ⟨room₁, hroom₁, hl₁⟩, hp₁⟩
  case sweep =>
    intro t now R room l hcall hroom hl hwhy
    obtain ⟨S, hgood⟩ := hcall.good K hreach
    have hdue : leaseExpired l now = false := by
      rcases hwhy with ⟨fd, c, hc, ha, hst, rfl, hp⟩ | ⟨_, hnow⟩
      · obtain ⟨l', hl', hp', _, honline⟩ := hgood.inv.leased.live (sessions_registry hc) ha hst
        obtain ⟨_, rfl⟩ :=
          hgood.inv.leased.unique hl' (lease_registry.mpr ⟨room, hroom, hl⟩) (hp'.trans hp)
        simp [leaseExpired, honline]
      · simp only [leaseExpired, Bool.and_eq_false_iff, decide_eq_false_iff_not]
        exact Or.inr fun hexp => absurd hexp.2 (not_lt.mpr hnow)
    have hstanding : t.Standing R now l := ⟨room, l, hroom, hl, .refl l, hdue⟩
    obtain ⟨room', l', hroom', hl', hsame, _⟩ := hstanding.cleanupExpiredLeases K
    exact ⟨room', l', hroom', hl', hsame.peerId, hsame.token, hsame.virtualIP, hsame.name⟩

/-- Alice's RESUME_ROOM has arrived. -/
def Sample.hostResumes : List (Env × Event) :=
  hostReturns ++ [(quiet, .readable 7 (sealed 7 1 MSG_RESUME_ROOM (resumeBody 1 1 token)))]

theorem path_of_played {events : List (Env × Event)} {good : Server → Bool}
    (h : (played events).any good = true) :
    ∃ history s, Path .sample {} Sample.authHash Sample.authSalt history s ∧ good s = true := by
  rcases hs : played events with _ | s
  · rw [hs] at h
    cases h
  · rw [hs] at h
    obtain ⟨history, hpath⟩ := Path.start.script .sample hs
    exact ⟨history, s, hpath, h⟩

set_option maxRecDepth 100000 in
theorem hostResumes_played : (played Sample.hostResumes).any (fun s =>
    decide (s.control = .signal 7 ∧ (s.client 7).state = .resumePending ∧
      ((s.step .sample Sample.quiet .resume).client 7).state = .inRoom)) = true := by
  decide +kernel

/-- The host of a room takes up her lease. -/
theorem resume_authority_hostResumes :
    ∃ history s, Path .sample {} Sample.authHash Sample.authSalt history s ∧
    (s.client 7).state = .resumePending ∧
    ((s.step .sample Sample.quiet .resume).client 7).state = .inRoom ∧
      ResumeAuthority .sample history s Sample.quiet .resume := by
  obtain ⟨history, s, hpath, hgood⟩ := path_of_played hostResumes_played
  obtain ⟨hctl, hst, hst'⟩ := of_decide_eq_true hgood
  refine ⟨history, s, hpath, hst, hst', resume_authority .sample hpath Sample.quiet ?_⟩
  show s.control ≠ .idle
  rw [hctl]
  simp

end Server

end VlanConnect

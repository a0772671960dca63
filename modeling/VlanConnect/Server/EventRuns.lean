/-
  VlanConnect/Server/EventRuns.lean
  =================================
  **Every step of the server is a run of the registry.**

  The remaining handlers, the dispatch of frames and the events of the loop.
  Each step of the server makes a run of the registry, so every reachable
  state satisfies the invariant of the registry.
-/
import VlanConnect.Server.RoomRuns

namespace VlanConnect

open Registry

namespace Server

variable (K : Crypto) {S : Reg.Scope}

/-! ### Logout -/

/-- After the lease part of a logout the peer has no lease; the registry's
    session is `d`, back in the lobby if there was a lease. -/
theorem logoutLease_spec {s : Server} {fd : Fd} {c : ClientSession} (h : Good S s)
    (hc : s.clients[fd]? = some c) (ha : c.alive = true)
    (hid : sessionHasPeerIdentity c.state = true) (hS : S.Leaves fd) :
    ∃ d, (d = c.toSess ∨ d = c.toSess.exit) ∧
      Reg.Run S s.registry ((s.logoutLease K fd).2.registry.setSession fd d) ∧
      ((s.logoutLease K fd).2.registry.setSession fd d).NoLease c.peerId ∧
      (∃ c', (s.logoutLease K fd).2.clients[fd]? = some c' ∧ c'.toSess = c.toSess) ∧
      (∀ {cap}, RoomManager.Kept cap s.rooms (s.logoutLease K fd).2.rooms) ∧
      SameConfig s (s.logoutLease K fd).2 := by
  have hwf := h.inv.wf (sessions_registry hc)
  have hp0 : c.peerId ≠ 0 := hwf.identity.mp hid
  -- nothing changes when the peer has no lease
  have hsame : s.registry.NoLease c.peerId → ∃ d, (d = c.toSess ∨ d = c.toSess.exit) ∧
      Reg.Run S s.registry (s.registry.setSession fd d) ∧
      (s.registry.setSession fd d).NoLease c.peerId ∧
      (∃ c', s.clients[fd]? = some c' ∧ c'.toSess = c.toSess) ∧
      (∀ {cap}, RoomManager.Kept cap s.rooms s.rooms) ∧ SameConfig s s := by
    intro hno
    have hself := setSession_self (sessions_registry hc)
    exact ⟨c.toSess, Or.inl rfl, by rw [hself], by rw [hself]; exact hno, ⟨c, hc, rfl⟩, .refl _,
      SameConfig.refl s⟩
  -- a lease that is given up
  have hleave : ∀ {R : Nat}, c.toSess.home = R → s.registry.HasLease R c.peerId →
      ∀ {s'}, (s.announceLeft K R c.peerId).removeMember R c.peerId = s' →
      ∃ d, (d = c.toSess ∨ d = c.toSess.exit) ∧ Reg.Run S s.registry (s'.registry.setSession fd d) ∧
        (s'.registry.setSession fd d).NoLease c.peerId ∧
        (∃ c', s'.clients[fd]? = some c' ∧ c'.toSess = c.toSess) ∧
        (∀ {cap}, RoomManager.Kept cap s.rooms s'.rooms) ∧ SameConfig s s' := by
    intro R hR hl s' hs'
    obtain ⟨s₁, hs₁, hc₁, hrun, hrooms, hcfg⟩ := announceLeft_remove_spec K h hc hR hl hS
    obtain rfl : s₁ = s' := hs₁.symm.trans hs'
    refine ⟨c.toSess.exit, Or.inr rfl, hrun, ?_, hc₁, hrooms, hcfg⟩
    rintro R' ⟨l, hl, hp⟩
    have hinv := Reg.Run.inv hrun h.inv
    rcases hinv.leased.owner hl (sessions_setSession_self _ fd _) hp.symm with
      ⟨hin, _⟩ | ⟨hin, _⟩ <;> cases hin
  unfold logoutLease
  rw [client_eq hc]
  dsimp only
  split
  · next hroom =>
    obtain ⟨l, hl, hp, _⟩ := h.inv.leased.live (sessions_registry hc) ha (hwf.inRoom.mpr hroom.1)
    exact hleave (if_pos hroom.1) ⟨l, hl, hp⟩ rfl
  next hroom =>
  have hroom : c.roomId = 0 := by
    by_contra hne
    exact hroom ⟨hne, hp0⟩
  have hnotIn : c.state ≠ .inRoom := fun hin => hwf.inRoom.mp hin hroom
  split
  · next hres =>
    obtain ⟨hst, hR0, _⟩ := hres
    have hpeer : c.resumePeerId = c.peerId := (hwf.resume hst).2.1
    have hhome : c.toSess.home = c.resumeRoomId := by
      rw [Sess.home, if_neg (by simpa [ClientSession.toSess] using hroom),
        if_pos (show c.toSess.state = .resumePending from hst)]
      rfl
    rw [hpeer]
    rcases hbind : (s.rooms.getRoom c.resumeRoomId).bind (·.leaseByPeerId c.peerId) with _ | lease
    · refine hsame (noLease_of_resume h hc hst ?_)
      rintro ⟨l, ⟨ls, hls, hmem⟩, hp, _⟩
      obtain ⟨room, hget, rfl⟩ : ∃ room, s.rooms.getRoom c.resumeRoomId = some room ∧
          room.leases = ls := by
        simpa [registry] using hls
      have hfind := Room.leaseByPeerId_eq (h.inv.leased.room hls).1 hmem
      rw [hp] at hfind
      rw [hget, Option.bind_some, hfind] at hbind
      cases hbind
    · obtain ⟨room, hget, hl⟩ := Option.bind_eq_some_iff.mp hbind
      obtain ⟨hmem, hp⟩ := Room.mem_of_leaseByPeerId hl
      have hlease : s.registry.Lease c.resumeRoomId lease := ⟨_, rooms_registry hget, hmem⟩
      dsimp only
      split
      · exact hleave hhome ⟨lease, hlease, hp⟩ rfl
      · next htok =>
        refine hsame fun R hl' => ?_
        rcases h.inv.leased.owner hlease (sessions_registry hc) hp.symm with
          ⟨hin, _⟩ | ⟨_, _, htok'⟩
        · exact hnotIn hin
        · exact htok htok'.symm
  · next hres =>
    refine hsame ?_
    rintro R ⟨l, hl, hp⟩
    rcases h.inv.leased.owner hl (sessions_registry hc) hp.symm with ⟨hin, _⟩ | ⟨hst, hR, _⟩
    · exact hnotIn hin
    · obtain ⟨hR0, hpeer, _⟩ := hwf.resume hst
      exact hres ⟨hst, hR0, by rw [show c.resumePeerId = c.peerId from hpeer]; exact hp0⟩

/-- The end of a logout, after the lease: the session gives its id back, is
    told, and forgets the rest. -/
theorem finishLogout_spec {s₀ s : Server} {fd : Fd} {c : ClientSession} {d : Sess} (h : Good S s₀)
    (hrun : Reg.Run S s₀.registry (s.registry.setSession fd d))
    (hd : d = c.toSess ∨ d = c.toSess.exit)
    (hc : s.clients[fd]? = some c) (hid : sessionHasPeerIdentity c.state = true)
    (hdata : c.dataFd = none)
    (hno : (s.registry.setSession fd d).NoLease c.peerId) (hS : S.Leaves fd)
    (hrooms : RoomManager.Kept s₀.limits.maxRooms s₀.rooms s.rooms) (hcfg : SameConfig s₀ s)
    {f : ClientSession → ClientSession} (hf : ∀ c, (f c).toSess = { c.toSess with
      peerId := 0, roomId := 0, virtualIP := 0, pendingJoinRoomId := 0, resumeRoomId := 0,
      resumePeerId := 0
      authChallenge := List.replicate 32 0, resumeToken := noToken }) :
    Handles S fd s₀ (((if c.peerId ≠ 0 then
        ((s.modify fd closeSession).unbindClientIndexes fd).releasePeerId c.peerId
      else (s.modify fd closeSession).unbindClientIndexes fd).sendClientMsg K fd MSG_LOGOUT_ACK
        []).2.modify fd f) := by
  have hinv := Reg.Run.inv hrun h.inv
  have hself := sessions_setSession_self s.registry fd d
  have hpd : d.peerId = c.peerId := by rcases hd with rfl | rfl <;> rfl
  have hid' : sessionHasPeerIdentity d.state = true := by
    rcases hd with rfl | rfl; exacts [hid, rfl]
  have hp0 : c.peerId ≠ 0 := hpd ▸ (hinv.wf hself).identity.mp hid'
  rw [if_pos hp0]
  -- the indexes are right while the session is being closed
  have hc₁ := clients_modify hc (f := closeSession)
  have hindexed : (s.modify fd closeSession).registry.Indexed := by
    have hkeys := Reg.Pointwise.update Reg.SameKeys.refl hself (d := (closeSession c).toSess) (by
      rcases hd with rfl | rfl <;> exact ⟨rfl, rfl, rfl, rfl, fun _ => rfl⟩)
    refine hinv.indexed.of_keys ?_ rfl rfl rfl rfl rfl
    rw [registry_modify hc]
    simpa [Reg.setSession] using hkeys
  have hreg₂ := unbindClientIndexes_registry hindexed hc₁ hdata
  have hc₂ : ((s.modify fd closeSession).unbindClientIndexes fd).clients[fd]? =
    some (closeSession c) := hc₁
  have hw₂ : ((s.modify fd closeSession).unbindClientIndexes fd).world = s.world := rfl
  generalize (s.modify fd closeSession).unbindClientIndexes fd = s₂ at hreg₂ hc₂ hw₂ ⊢
  rw [registry_modify hc] at hreg₂
  have hfree : s₂.peerMap[c.peerId]? = none := by
    have hk : s₂.peerMap[c.peerId]? = Reg.unbind s.registry.peerMap fd c.peerId :=
      congrFun (congrArg Reg.peerMap hreg₂) c.peerId
    have hown : s.registry.peerMap c.peerId = some fd := hinv.indexed.peer.mpr ⟨hp0, d, hself, hpd⟩
    rw [hk, Reg.unbind, if_pos hown]
  obtain ⟨hreg₃, hcl₃, hw₃⟩ := releasePeerId_registry hfree
  generalize s₂.releasePeerId c.peerId = s₃ at hreg₃ hcl₃ hw₃ ⊢
  have hc₃ : s₃.clients[fd]? = some (closeSession c) := by rw [hcl₃]; exact hc₂
  obtain ⟨c₄, hc₄, hout, hreg₄, hw₄⟩ := sendClientMsg_outcome K hc₃ MSG_LOGOUT_ACK []
  generalize (s₃.sendClientMsg K fd MSG_LOGOUT_ACK []).2 = s₄ at hc₄ hreg₄ hw₄ ⊢
  have hw : s₄.world = s.world := hw₄.trans (hw₃.trans hw₂)
  refine ⟨⟨?_, ?_, (hcfg.trans (SameConfig.of_world hw)).trans ⟨rfl, rfl, rfl, rfl⟩⟩,
    mem_clients (clients_modify hc₄)⟩
  · -- the session is logged out, and then told
    have hstep : Reg.Step S (s.registry.setSession fd d) _ :=
      .logout hself hid' (by rcases hd with rfl | rfl <;> exact hdata) (hpd ▸ hno) hS
    obtain ⟨ext, lost, hdel, hquiet⟩ := hout.quiet rfl
    have hsess : (f c₄).toSess = { d.loggedOut with
        alive := c₄.alive, sent := d.sent ++ ext, rejected := d.rejected ++ lost } := by
      rw [hf, hdel.same]
      rcases hd with rfl | rfl <;> rfl
    have hq : d.loggedOut.Quiet (f c₄).toSess := by
      refine ⟨ext, lost, ⟨?_, fun hal => ?_⟩, hquiet⟩
      · rw [hsess]
        rfl
      · rw [hsess] at hal
        have hcal : c.alive = true := hdel.alive hal
        rcases hd with rfl | rfl <;> exact hcal
    refine hrun.trans (.tail (.single hstep) ?_)
    have heq : (s₄.modify fd f).registry = { s.registry with
        sessions := Function.update
          ((s.registry.setSession fd d).setSession fd d.loggedOut).sessions fd
          (some (f c₄).toSess)
        peerMap := Reg.unbind s.registry.peerMap fd
        secureSessionMap := Reg.unbind s.registry.secureSessionMap fd
        free := insert d.peerId s.registry.free } := by
      rw [registry_modify hc₄, hreg₄, hreg₃, hreg₂]
      refine Reg.ext (by simp [Reg.setSession]) rfl rfl rfl rfl rfl ?_ rfl rfl rfl rfl
      ext i
      simp [Reg.setSession, hp0, hpd, or_comm]
    rw [heq]
    exact .quiet (Reg.Pointwise.update Sess.Quiet.refl (sessions_setSession_self _ fd _) hq)
  · rw [show (s₄.modify fd f).rooms = s.rooms from rooms_of_world hw]
    exact hrooms

theorem onLogout_handles {s : Server} {fd : Fd} {c : ClientSession} (h : Good S s)
    (hc : s.clients[fd]? = some c) (ha : c.alive = true)
    (hid : sessionHasPeerIdentity c.state = true) (hS : S.Leaves fd) :
    Handles S fd s (s.onLogout K fd) := by
  have hev := closeDataChannel_evolves h.inv hc
  obtain ⟨⟨c₁, hc₁, hsess₁⟩, _, _⟩ := closeDataChannel_spec h.inv hc
  unfold onLogout
  rw [client_eq hc]
  dsimp only
  generalize s.closeDataChannel fd = s₁ at hev hc₁ ⊢
  refine hev.handles ?_
  have h₁ := h.evolve hev
  have hst₁ : c₁.state = c.state := congrArg Sess.state hsess₁
  obtain ⟨d, hd, hrun, hno, ⟨c₂, hc₂, hsess₂⟩, hrooms, hcfg⟩ := logoutLease_spec K h₁ hc₁
    ((congrArg Sess.alive hsess₁).trans ha) (hst₁ ▸ hid) hS
  generalize s₁.logoutLease K fd = res at hrun hno hc₂ hrooms hcfg ⊢
  have hsess := hsess₂.trans hsess₁
  have hp : c₂.peerId = c.peerId := congrArg Sess.peerId hsess
  have hfinish :=
    finishLogout_spec K h₁ hrun (hsess₂ ▸ hd) hc₂
      (by rw [show c₂.state = c.state from congrArg Sess.state hsess]; exact hid)
    (congrArg Sess.dataFd hsess)
    (by rw [show c₂.peerId = c₁.peerId from congrArg Sess.peerId hsess₂]; exact hno) hS hrooms hcfg
    (f := fun c => { c with
      peerId := 0
      roomId := 0
      virtualIP := 0
      pendingJoinRoomId := 0
      resumeRoomId := 0
      resumePeerId := 0
      authChallenge := List.replicate 32 0
      resumeToken := List.replicate RECONNECT_TOKEN_SIZE 0
      udpAddrKnown := false }) fun _ => rfl
  rw [hp] at hfinish
  split
  · exact hfinish.still (broadcastRoomListPush_still K _)
  · exact hfinish

/-! ### Lists and relays -/

theorem foldl_sendClientMsg_silent {fd : Fd} {msgType : UInt8} (hm : isMembership msgType = false)
    (bodies : List Bytes) : ∀ {s : Server} {c : ClientSession}, s.clients[fd]? = some c →
    Silent s (bodies.foldl (fun s body => (s.sendClientMsg K fd msgType body).2) s) := by
  induction bodies with
  | nil =>
    intro s c _
    exact Silent.refl s
  | cons body bodies ih =>
    intro s c hc
    have h := sendClientMsg_silent K hc hm body
    obtain ⟨c', hc', _⟩ := h.client hc
    exact h.trans (ih hc')

theorem onListRooms_handles {s : Server} {fd : Fd} {c : ClientSession} (h : Good S s)
    (hc : s.clients[fd]? = some c) : Handles S fd s (s.onListRooms K fd) := by
  obtain ⟨hev, ⟨c₁, hc₁, _⟩, _⟩ := sweep_spec K h hc
  exact hev.handles ((foldl_sendClientMsg_silent K rfl _ hc₁).handles hc₁)

theorem onRequestRelay_handles {s : Server} {fd : Fd} {c : ClientSession} (h : Good S s)
    (hc : s.clients[fd]? = some c) (p : Bytes) : Handles S fd s (s.onRequestRelay K fd p) := by
  unfold onRequestRelay
  split
  · exact kill_handles hc
  next targetPeerId _ =>
  have hstate := findClientByPeerId_state h.inv.indexed targetPeerId
  rcases hf : s.findClientByPeerId targetPeerId with ⟨target, s'⟩
  rw [hf] at hstate
  dsimp only at hstate ⊢
  subst hstate
  rcases target with _ | t
  · exact Handles.refl hc
  obtain ⟨_, d, hd, _⟩ := findClientByPeerId_some h.inv.indexed hf
  dsimp only
  split
  · exact Handles.refl hc
  · have h₁ := sendRelayReady_silent K hc targetPeerId
    obtain ⟨d₁, hd₁, _⟩ := h₁.client hd
    exact (h₁.trans (sendRelayReady_silent K hd₁ _)).handles hc

theorem onPing_handles {s : Server} {fd : Fd} {c : ClientSession} (hc : s.clients[fd]? = some c) :
    Handles S fd s (s.onPing K fd) := (sendClientMsg_silent K hc rfl _).handles hc

theorem onTcpRelayData_lasts {s : Server} {fd : Fd} {c : ClientSession} (h : Good S s)
    (hc : s.clients[fd]? = some c) (p : Bytes) : Lasts S s (s.onTcpRelayData K fd p) := by
  unfold onTcpRelayData
  split
  · exact Lasts.refl s
  split
  · exact (kill_silent hc).lasts
  next header _ =>
  split
  · exact Lasts.refl s
  have hstate := findClientByPeerId_state h.inv.indexed header.destination
  rcases hf : s.findClientByPeerId header.destination with ⟨target, s'⟩
  rw [hf] at hstate
  dsimp only at hstate ⊢
  subst hstate
  rcases target with _ | dst
  · exact Lasts.refl s'
  obtain ⟨_, d, hd, _⟩ := findClientByPeerId_some h.inv.indexed hf
  dsimp only
  split
  · exact Lasts.refl s'
  generalize ByteBuffer.writeU32 _ ++ _ ++ _ ++ _ = fwd
  have hdata :
    Lasts S s' (if (s'.client dst).dataFd ≠ none then s'.sendDataMsg K dst MSG_TCP_RELAY_DATA fwd
      else (false, s')).2 := by
    split
    · exact sendDataMsg_lasts K h.inv hd _ _
    · exact Lasts.refl s'
  generalize (if (s'.client dst).dataFd ≠ none then s'.sendDataMsg K dst MSG_TCP_RELAY_DATA fwd
      else (false, s')) = res at hdata ⊢
  split
  · exact hdata
  · obtain ⟨d₁, hd₁⟩ := hdata.keeps.client hd
    exact hdata.trans (sendClientMsg_silent K hd₁ rfl _).lasts

/-! ### Dispatch -/

theorem act_silent {s : Server} {a : Act} (h : a.notice = none) (h' : a.call = none) :
    Silent s (s.act a) :=
  Silent.of_registry (registry_act h h') rfl

/-- The handler of a message is called. -/
theorem act_handler_lasts {fd : Fd} {msgType : UInt8} {payload : Bytes}
    (hS : S.Calls fd (msgType, payload)) (s : Server) :
    Lasts S s (s.act (.handler fd msgType payload)) := by
  refine ⟨Evolves.of_world (.single ?_) rfl, fun _ hfd => hfd⟩
  have hr : (s.act (.handler fd msgType payload)).registry =
      { s.registry with calls := s.registry.calls ++ [(fd, msgType, payload)] } := by
    simp [registry, act, Act.notice, Act.call]
  rw [hr]
  exact .call hS

theorem allowed_create {state : SessionState}
    (h : isClientSignalMessageAllowed state MSG_CREATE_ROOM = true) :
    state = .loggedIn := by
  revert h
  cases state <;> decide

theorem allowed_join {state : SessionState}
    (h : isClientSignalMessageAllowed state MSG_JOIN_ROOM = true) :
    state = .loggedIn := by
  revert h
  cases state <;> decide

theorem allowed_logout {state : SessionState}
    (h : isClientSignalMessageAllowed state MSG_LOGOUT = true) :
    sessionHasPeerIdentity state = true := by
  revert h
  cases state <;> decide

/-- What the message of the session gives it the right to. -/
structure Permits (S : Reg.Scope) (s : Server) (fd : Fd) (msgType : UInt8) (p : Bytes) : Prop where
  call : S.Calls fd (msgType, p)
  fresh : msgType = MSG_LOGIN → S.Fresh fd s.allocatePeerId.1
  login : msgType = MSG_LOGIN → ∀ {req r lease}, ByteBuffer.parse readLogin p = some req →
    req.resume = some r → s.Asks r lease → S.Resumes fd r.roomId lease ∧
      (S.Distinct → req.Served →
        s.FreshName fd r.peerId (if lease.name = [] then req.name else lease.name))
  create : msgType = MSG_CREATE_ROOM → ∀ {R}, s.rooms.getRoom R = none →
      S.Creates fd (s.client fd).peerId R
  leave : msgType = MSG_LEAVE_ROOM ∨ msgType = MSG_LOGOUT → S.Leaves fd
  join : msgType = MSG_JOIN_ROOM → ∀ {R room}, ByteBuffer.parse ByteBuffer.readU32 p = some R →
    s.rooms.getRoom R = some room → room.passwordProtected = 0 → S.Joins fd (s.client fd).peerId R
  dialogue : msgType = MSG_JOIN_ROOM → ∀ {R room}, ByteBuffer.parse ByteBuffer.readU32 p = some R →
    s.rooms.getRoom R = some room → room.passwordProtected ≠ 0 →
      ∀ {x}, (s.secureRandomBytes 32).1 = some x → S.Challenges fd R x
  answer : msgType = MSG_AUTH_RESPONSE →
    ∀ {room}, s.rooms.getRoom (s.client fd).pendingJoinRoomId = some room →
    p.length = 32 → computeChallengeResponse K room.passwordHash (s.client fd).authChallenge = p →
      S.Joins fd (s.client fd).peerId (s.client fd).pendingJoinRoomId
  resume : msgType = MSG_RESUME_ROOM → ∀ {r lease}, ByteBuffer.parse readResumeRequest p = some r →
    (s.client fd).state = .resumePending → (s.client fd).resumeRoomId = r.roomId →
      (s.client fd).peerId = r.peerId → (s.client fd).resumeToken = r.token → s.Asks r lease →
        S.Reenters fd r.roomId lease

/-- The history of a step has no say in it. -/
theorem Permits.act {s : Server} {fd : Fd} {msgType : UInt8} {p : Bytes}
    (h : Permits K S s fd msgType p) {a : Act} : Permits K S (s.act a) fd msgType p := by
  have htime : (s.act a).time.1 = s.time.1 := by
    rw [time_reading, time_reading]
    rfl
  have hasks : ∀ {r lease}, (s.act a).Asks r lease → s.Asks r lease := by
    intro r lease hr
    exact ⟨hr.there, hr.peerId, hr.token, hr.nonzero, htime ▸ hr.valid⟩
  have hrandom : (s.act a).secureRandomBytes 32 =
      (((s.secureRandomBytes 32).1, (s.secureRandomBytes 32).2.act a)) := by
    unfold secureRandomBytes Server.act
    dsimp only
    split <;> rfl
  have halloc : (s.act a).allocatePeerId.1 = s.allocatePeerId.1 := by
    unfold allocatePeerId Server.act
    dsimp only
    split <;> rfl
  exact ⟨h.call, fun hm => by rw [halloc]; exact h.fresh hm,
    fun hm _ _ _ hp hr hl => h.login hm hp hr (hasks hl), h.create, h.leave, h.join,
    fun hm _ _ hp hroom hprot _ hx =>
      h.dialogue hm hp hroom hprot (by rw [hrandom] at hx; exact hx), h.answer,
    fun hm _ _ hp hst hR hpeer htok hl => h.resume hm hp hst hR hpeer htok (hasks hl)⟩

theorem dispatchClientMsg_handles {s : Server} {fd : Fd} {c : ClientSession} (h : Good S s)
    (hc : s.clients[fd]? = some c) (ha : c.alive = true) {msgType : UInt8} (payload : Bytes)
    (hallowed : isClientSignalMessageAllowed c.state msgType = true)
    (hS : Permits K S s fd msgType payload) :
    Handles S fd s (s.dispatchClientMsg K fd msgType payload) := by
  unfold dispatchClientMsg
  have hact := act_handler_lasts hS.call s
  have hc₁ : (s.act (.handler fd msgType payload)).clients[fd]? = some c := hc
  have h₁ : Good S (s.act (.handler fd msgType payload)) := h.evolve hact.evolves
  have hS₁ := hS.act K (a := .handler fd msgType payload)
  generalize s.act (.handler fd msgType payload) = s₁ at hact hc₁ h₁ hS₁ ⊢
  refine hact.evolves.handles ?_
  have hcreate := hS₁.create
  have hjoin := hS₁.join
  have hanswer := hS₁.answer
  have hresume := hS₁.resume
  rw [client_eq hc₁] at hcreate hjoin hanswer hresume
  dsimp only
  by_cases hm : msgType = MSG_LOGIN
  · rw [if_pos hm]
    exact onLogin_handles K h₁ hc₁ payload (hS₁.fresh hm) (hS₁.login hm)
  rw [if_neg hm]
  by_cases hm : msgType = MSG_CREATE_ROOM
  · rw [if_pos hm]
    exact onCreateRoom_handles K h₁ hc₁ (allowed_create (hm ▸ hallowed)) payload (hcreate hm)
  rw [if_neg hm]
  by_cases hm : msgType = MSG_JOIN_ROOM
  · rw [if_pos hm]
    exact onJoinRoom_handles K h₁ hc₁ (allowed_join (hm ▸ hallowed)) payload (hjoin hm)
      (hS₁.dialogue hm)
  rw [if_neg hm]
  by_cases hm : msgType = MSG_RESUME_ROOM
  · rw [if_pos hm]
    exact onResumeRoom_handles K h₁ hc₁ payload (hresume hm)
  rw [if_neg hm]
  by_cases hm : msgType = MSG_LEAVE_ROOM
  · rw [if_pos hm]
    exact onLeaveRoom_handles K h₁ hc₁ ha (hS₁.leave (Or.inl hm))
  rw [if_neg hm]
  by_cases hm : msgType = MSG_LOGOUT
  · rw [if_pos hm]
    exact onLogout_handles K h₁ hc₁ ha (allowed_logout (hm ▸ hallowed)) (hS₁.leave (Or.inr hm))
  rw [if_neg hm]
  by_cases hm : msgType = MSG_LIST_ROOMS
  · rw [if_pos hm]
    exact onListRooms_handles K h₁ hc₁
  rw [if_neg hm]
  by_cases hm : msgType = MSG_REQUEST_RELAY
  · rw [if_pos hm]
    exact onRequestRelay_handles K h₁ hc₁ payload
  rw [if_neg hm]
  by_cases hm : msgType = MSG_AUTH_RESPONSE
  · rw [if_pos hm]
    exact onAuthResponse_handles K h₁ hc₁ payload (hanswer hm)
  rw [if_neg hm]
  by_cases hm : msgType = MSG_PING
  · rw [if_pos hm]
    exact onPing_handles K hc₁
  rw [if_neg hm]
  by_cases hm : msgType = MSG_TCP_RELAY_DATA
  · rw [if_pos hm]
    exact (onTcpRelayData_lasts K h₁ hc₁ payload).handles (mem_clients hc₁)
  rw [if_neg hm]
  exact Handles.refl hc₁

theorem classify_dispatch {state : SessionState} {msgType : UInt8}
    (h : classifyClientSignalMessage state msgType = .dispatch) :
    isClientSignalMessageAllowed state msgType = true := by
  unfold classifyClientSignalMessage at h
  split at h
  · cases h
  split at h
  · assumption
  split at h <;> cases h

theorem admitClientMsg_handles {s : Server} {fd : Fd} {c : ClientSession}
    (hc : s.clients[fd]? = some c) {msgType : UInt8} (payload : Bytes) {handler : Server → Server}
    (hhandler : isClientSignalMessageAllowed c.state msgType = true → Handles S fd s (handler s)) :
    Handles S fd s (s.admitClientMsg K fd msgType payload handler) := by
  unfold admitClientMsg
  rw [client_eq hc]
  split
  · exact Handles.refl hc
  · exact kill_handles hc
  · next hclass =>
    split
    · exact kill_handles hc
    · exact hhandler (classify_dispatch hclass)
  · split
    · exact kill_handles hc
    · exact sendError_handles K hc _ _

/-- A frame that decrypts, and one that does not. -/
theorem decryptClientFrame_spec {s : Server} {fd : Fd} {c : ClientSession}
    (hc : s.clients[fd]? = some c) (payload : Bytes) :
    Silent s (s.decryptClientFrame K fd payload).2 ∧
      ∃ c', (s.decryptClientFrame K fd payload).2.clients[fd]? = some c' ∧
      c'.toSess = c.toSess := by
  unfold decryptClientFrame
  dsimp only
  generalize hs₁ : s.modify fd _ = s₁
  obtain ⟨hsil, c₁, hc₁, hsess⟩ : Silent s s₁ ∧ ∃ c₁, s₁.clients[fd]? = some c₁ ∧
      c₁.toSess = c.toSess := by
    subst hs₁
    exact ⟨modify_idle_evolves fun _ => rfl, _, clients_modify hc, rfl⟩
  split
  · exact ⟨hsil.trans (act_silent rfl rfl), c₁, hc₁, hsess⟩
  · exact ⟨hsil, c₁, hc₁, hsess⟩

/-- The frame opens under the cipher of the session and holds this message;
    its handler is called in `s'`. -/
def Opens (s : Server) (fd : Fd) (frame : Bytes) (msgType : UInt8) (payload : Bytes) (s' : Server) :
    Prop :=
  (s.time.2.modify fd fun c => { c with lastPing := s.time.1 }).decryptClientFrame K fd frame =
    (some (msgType, payload), s')

theorem processMessage_handles {s : Server} {fd : Fd} {c : ClientSession} (h : Good S s)
    (hS : ∀ t sid, Authentic K s.serverAuthHash s.serverAuthSalt t sid → S.Auth t sid)
    (hc : s.clients[fd]? = some c) (ha : c.alive = true) (msgType : UInt8) (payload : Bytes)
    (hperm : msgType = MSG_ENCRYPTED → ∀ {innerType innerPayload s'},
      s.Opens K fd payload innerType innerPayload s' →
      isClientSignalMessageAllowed c.state innerType = true →
      Permits K S s' fd innerType innerPayload) :
    Handles S fd s (s.processMessage K fd msgType payload) := by
  unfold processMessage
  unfold Opens at hperm
  have hidle := time_idle s
  generalize s.time = time at hidle hperm ⊢
  have hc₁ : time.2.clients[fd]? = some c := hidle.clients ▸ hc
  dsimp only
  generalize hs₂ : time.2.modify fd _ = s₂ at hperm
  obtain ⟨hsil, c₂, hc₂, hsess⟩ : Silent time.2 s₂ ∧ ∃ c₂, s₂.clients[fd]? = some c₂ ∧
      c₂.toSess = c.toSess := by
    subst hs₂
    exact ⟨modify_idle_evolves fun _ => rfl, _, clients_modify hc₁, rfl⟩
  have hsil₂ : Silent s s₂ := hidle.silent.trans hsil
  have h₂ : Good S s₂ := h.evolve hsil₂.evolves
  have ha₂ : c₂.alive = true := (congrArg Sess.alive hsess).trans ha
  have hcfg := SameConfig.of_world hsil₂.world
  refine hsil₂.evolves.handles ?_
  rw [client_eq hc₂]
  split
  · exact Handles.refl hc₂
  · exact admitClientMsg_handles K hc₂ payload fun _ => onClientHello_handles K hc₂ payload
  · refine admitClientMsg_handles K hc₂ payload fun _ => onServerAuth_handles K h₂ ?_ hc₂ payload
    rw [hcfg.hash, hcfg.salt]
    exact hS
  · split
    · exact kill_handles hc₂
    split
    · exact kill_handles hc₂
    next hm =>
    obtain ⟨hdec, c₃, hc₃, hsess₃⟩ := decryptClientFrame_spec K hc₂ payload
    generalize s₂.decryptClientFrame K fd payload = res at hdec hc₃ hperm ⊢
    obtain ⟨inner, s₃⟩ := res
    dsimp only at hdec hc₃ ⊢
    have hst₃ : c₃.state = c.state := congrArg Sess.state (hsess₃.trans hsess)
    refine hdec.evolves.handles ?_
    split
    · exact kill_handles hc₃
    · exact admitClientMsg_handles K hc₃ _ fun hallowed => dispatchClientMsg_handles K
        (h₂.evolve hdec.evolves) hc₃ ((congrArg Sess.alive hsess₃).trans ha₂) _ hallowed
        (hperm (not_not.mp hm) rfl (hst₃ ▸ hallowed))

/-! ### Connections -/

theorem setOf_erase_map {β : Type} (m : Std.ExtTreeMap Nat β) (k : Nat) :
    { i | i ∈ m.erase k } = { i | i ∈ m } \ {k} := by
  ext i
  simp only [Std.ExtTreeMap.mem_erase, Set.mem_ofPred_eq, Set.mem_sdiff, Set.mem_singleton_iff,
    ne_eq, Nat.compare_eq_eq, eq_comm (a := i)]
  exact and_comm

theorem setOf_insert_map {β : Type} (m : Std.ExtTreeMap Nat β) (k : Nat) (v : β) :
    { i | i ∈ m.insert k v } = insert k { i | i ∈ m } := by
  ext i
  simp only [Std.ExtTreeMap.mem_insert, Set.mem_ofPred_eq, Set.mem_insert_iff, Nat.compare_eq_eq,
    eq_comm (a := i)]

theorem registry_close (s : Server) (fd : Fd) :
    (s.close fd).registry = { s.registry with openFds := s.registry.openFds \ {fd} } :=
  Reg.ext rfl rfl rfl rfl rfl rfl rfl rfl (setOf_erase s.openFds fd) rfl rfl

theorem registry_erasePending (s : Server) (fd : Fd) :
    ({ s with pending := s.pending.erase fd } : Server).registry =
      { s.registry with pending := s.registry.pending \ {fd} } :=
  Reg.ext rfl rfl rfl rfl rfl rfl rfl (setOf_erase_map s.pending fd) rfl rfl rfl

theorem registry_insertPending (s : Server) (fd : Fd) (pc : PendingConn)
    (ips : Std.ExtTreeMap Nat IpState) :
    ({ s with pending := s.pending.insert fd pc, ipStates := ips } : Server).registry =
      { s.registry with pending := insert fd s.registry.pending } :=
  Reg.ext rfl rfl rfl rfl rfl rfl rfl (setOf_insert_map s.pending fd pc) rfl rfl rfl

/-- A pending descriptor has no other use. -/
theorem pending_only {r : Reg} (h : r.Indexed) {fd : Fd} (hp : fd ∈ r.pending) :
    r.sessions fd = none ∧ r.dataFdMap fd = none := by
  refine ⟨?_, ?_⟩
  · rcases hs : r.sessions fd with _ | c
    · rfl
    · exact absurd hp (h.session_fd hs).2
  · rcases hd : r.dataFdMap fd with _ | g
    · rfl
    · obtain ⟨c, hc, hdata⟩ := h.data.mp hd
      exact absurd hp (h.data_fd hc hdata).2.1

theorem close_evolves {s : Server} {fd : Fd} (hs : s.registry.sessions fd = none)
    (hd : s.registry.dataFdMap fd = none) (hp : fd ∉ s.registry.pending) :
    Evolves S s (s.close fd) := by
  refine Evolves.of_world ?_ rfl
  rw [registry_close]
  exact .single (.closeFd hs hd hp)

theorem erasePending_evolves (s : Server) (fd : Fd) :
    Evolves S s { s with pending := s.pending.erase fd } := by
  refine Evolves.of_world ?_ rfl
  rw [registry_erasePending]
  exact .single .unpend

/-- The counters of an address. -/
theorem ipStates_idle (s : Server) (ipStates : Std.ExtTreeMap Nat IpState) :
    Idle s { s with ipStates := ipStates } := ⟨rfl, rfl, rfl, rfl⟩

theorem removePending_evolves {s : Server} (h : Good S s) (fd : Fd) :
    Evolves S s (s.removePending fd true) := by
  unfold removePending
  rcases hpc : s.pending[fd]? with _ | pc
  · exact Evolves.refl s
  have hp : fd ∈ s.registry.pending :=
    Std.ExtTreeMap.mem_iff_isSome_getElem?.mpr (Option.isSome_iff_exists.mpr ⟨pc, hpc⟩)
  obtain ⟨hs, hd⟩ := pending_only h.inv.indexed hp
  -- the connection is dropped, then its descriptor closed
  have hdrop : ∀ {s₁ : Server}, Idle s s₁ →
      Evolves S s { s₁.close fd with pending := (s₁.close fd).pending.erase fd } := by
    intro s₁ hidle
    have hcomm : ({ s₁.close fd with pending := (s₁.close fd).pending.erase fd } : Server) =
        ({ s₁ with pending := s₁.pending.erase fd } : Server).close fd := rfl
    rw [hcomm]
    refine (hidle.evolves.trans (erasePending_evolves s₁ fd)).trans (close_evolves ?_ ?_ ?_)
    · rw [registry_erasePending, hidle.registry]
      exact hs
    · rw [registry_erasePending, hidle.registry]
      exact hd
    · rw [registry_erasePending]
      simp
  refine hdrop ?_
  split
  · exact countDown_idle s 0
  · exact ((countDown_idle s _).trans (time_idle _)).trans (ipStates_idle _ _)

theorem handleTcpAccept_evolves {s : Server} {fd : Fd} (hfd : fd ∉ s.openFds) (hS : S.Accepts fd)
    (remoteIp : Nat) :
    Evolves S s (s.handleTcpAccept fd remoteIp) := by
  unfold handleTcpAccept
  generalize hs₀ : ({ s with openFds := s.openFds.insert fd } : Server) = s₀
  have hr₀ : s₀.registry = { s.registry with openFds := insert fd s.registry.openFds } := by
    subst hs₀
    exact Reg.ext rfl rfl rfl rfl rfl rfl rfl rfl (setOf_insert s.openFds fd) rfl rfl
  have hw₀ : s₀.world = s.world := by rw [← hs₀]; rfl
  have hfd' : fd ∉ s.registry.openFds := hfd
  -- a connection that is turned away
  have hclose : ∀ {s₁ : Server}, Idle s₀ s₁ → Evolves S s (s₁.close fd) := by
    intro s₁ hidle
    refine Evolves.of_world ?_
      ((show (s₁.close fd).world = s₁.world from rfl).trans (hidle.world.trans hw₀))
    have hsame : (s₁.close fd).registry = s.registry := by
      rw [registry_close, hidle.registry, hr₀]
      refine Reg.ext rfl rfl rfl rfl rfl rfl rfl rfl ?_ rfl rfl
      exact Set.insert_sdiff_self_of_notMem hfd'
    rw [hsame]
  have htime := time_idle s₀
  dsimp only
  generalize s₀.time = t₁ at htime ⊢
  split
  · exact hclose (htime.trans (ipStates_idle _ _))
  generalize hs₂ : ({ t₁.2 with ipStates := t₁.2.ipStates.insert remoteIp _ } : Server) = s₂
  have hidle₂ : Idle s₀ s₂ := by
    subst hs₂
    exact htime.trans (ipStates_idle _ _)
  have htake := takeIpToken_idle s₂ remoteIp .accepts 16 1
  generalize s₂.takeIpToken remoteIp .accepts 16 1 = res at htake ⊢
  split
  · exact hclose (hidle₂.trans htake)
  have hidle₃ := (hidle₂.trans htake).trans (time_idle res.2)
  generalize res.2.time = time at hidle₃ ⊢
  refine Evolves.of_world ?_ ((show _ = time.2.world from rfl).trans (hidle₃.world.trans hw₀))
  rw [registry_insertPending, hidle₃.registry, hr₀]
  exact .single (.accept hfd' hS)

/-! ### The place of the event loop -/

/-- The session of a receive loop is there; at the head of the signaling loop
    it is alive and not closing. -/
def ControlOk (s : Server) : Prop :=
  match s.control with
  | .idle => True
  | .signal fd => ∃ c, s.clients[fd]? = some c ∧ c.alive = true ∧ c.state ≠ .closing
  | .handled fd _ => fd ∈ s.clients
  | .data fd => fd ∈ s.clients

/-- What an event does: a run of the registry, and the loop stops somewhere. -/
structure Lands (S : Reg.Scope) (s s' : Server) : Prop where
  evolves : Evolves S s { s' with control := s.control }
  control : s'.ControlOk

theorem Evolves.lands {s s' : Server} (h : Evolves S s s') (hidle : s.control = .idle) :
    Lands S s s' := by
  have hctl : s'.control = .idle := h.config.control.trans hidle
  refine ⟨?_, ?_⟩
  · rw [← h.config.control]
    exact h
  · rw [ControlOk, hctl]
    trivial

theorem Evolves.lands_at {s s' : Server} (h : Evolves S s s') {control : Control}
    (hctl : ControlOk { s' with control := control }) :
    Lands S s { s' with control := control } := by
  refine ⟨?_, hctl⟩
  have heq : ({ s' with control := s.control } : Server) = s' := by rw [← h.config.control]
  show Evolves S s { s' with control := s.control }
  rw [heq]
  exact h

theorem Good.land {s s' : Server} (h : Good S s) (hl : Lands S s s') : Good S s' :=
  ⟨(h.evolve hl.evolves).inv, (h.evolve hl.evolves).rooms⟩

/-! ### Promotion -/

theorem client_of_none {s : Server} {fd : Fd} (h : s.clients[fd]? = none) :
    s.client fd = { tcpFd := fd } := by
  simp [client, h]

theorem clients_none {s : Server} {fd : Fd} (h : s.registry.sessions fd = none) :
    s.clients[fd]? = none := by
  simpa [registry, sessionsOf] using h

theorem sessionsOf_insert (clients : Std.ExtTreeMap Fd ClientSession) (fd : Fd)
    (c : ClientSession) :
    sessionsOf (clients.insert fd c) = Function.update (sessionsOf clients) fd (some c.toSess) := by
  funext g
  simp only [sessionsOf, getElem?_insert_eq, Function.update_apply]
  split <;> rfl

theorem promoteSession_lands {s : Server} {fd : Fd} (h : Good S s) (hp : fd ∈ s.pending)
    (hidle : s.control = .idle) (remoteIp : Nat) (recvBuf : Bytes) (hS : S.Promotes fd) :
    Lands S s (s.promoteSession fd remoteIp recvBuf) := by
  have hp' : fd ∈ s.registry.pending := hp
  obtain ⟨hs, hd⟩ := pending_only h.inv.indexed hp'
  unfold promoteSession
  dsimp only
  split
  · have hips := (ipStates_idle s
      (s.ipStates.insert remoteIp ((s.ipStates[remoteIp]?).getD {}))).evolves (S := S)
    exact (hips.trans (removePending_evolves (h.evolve hips) fd)).lands hidle
  generalize hs₁ : ({ s with ipStates := s.ipStates.insert remoteIp _ } : Server) = s₁
  have hidle₁ : Idle s s₁ := by
    subst hs₁
    exact ipStates_idle _ _
  have hidle₂ := (hidle₁.trans (time_idle s₁))
  generalize s₁.time = t₁ at hidle₂ ⊢
  have hidle₃ :=
    (hidle₂.trans (countDown_idle t₁.2 ((s.ipStates[remoteIp]?).getD {}).pending)).trans
      (time_idle _)
  generalize (t₁.2.countDown _).time = t₂ at hidle₃ ⊢
  have hnone : t₁.2.clients[fd]? = none := by
    rw [hidle₂.clients]
    exact clients_none hs
  rw [client_of_none hnone]
  -- the connection leaves the pending ones, and its session is filed
  have hunpend := hidle₃.evolves.trans (erasePending_evolves (S := S) t₂.2 fd)
  generalize hs₄ : ({ t₂.2 with pending := t₂.2.pending.erase fd } : Server) = s₄ at hunpend
  have hr₄ : s₄.registry = { s.registry with pending := s.registry.pending \ {fd} } := by
    rw [← hs₄, registry_erasePending, hidle₃.registry]
  have hpromote : ∀ (c : ClientSession) (ips : Std.ExtTreeMap Nat IpState) (t : Transcript),
      c.toSess = Reg.freshSession fd t →
      Lands S s { s₄ with
        clients := s₄.clients.insert fd c, ipStates := ips, control := .signal fd } := by
    intro c ips t hsess
    have hev : Evolves S s { s₄ with clients := s₄.clients.insert fd c, ipStates := ips } := by
      refine hunpend.trans (Evolves.of_world (.single ?_) rfl)
      have hreg :
        ({ s₄ with clients := s₄.clients.insert fd c, ipStates := ips } : Server).registry =
          s₄.registry.setSession fd c.toSess :=
        Reg.ext (sessionsOf_insert s₄.clients fd c) rfl rfl rfl rfl rfl rfl rfl rfl rfl rfl
      rw [hreg, hsess]
      refine .promote ?_ ?_ ?_ ?_ hS
      · rw [hr₄]
        exact hs
      · rw [hr₄]
        exact hd
      · rw [hr₄]
        simp
      · rw [hr₄]
        exact h.inv.indexed.pending_fd hp'
    refine hev.lands_at ⟨c, by simp, congrArg Sess.alive hsess, ?_⟩
    rw [show c.state = .awaitHello from congrArg Sess.state hsess]
    simp
  subst hs₄
  exact hpromote _ _ _ rfl

/-- A descriptor that is open and has no use yet. -/
structure Spare (r : Reg) (fd : Fd) : Prop where
  session : r.sessions fd = none
  data : r.dataFdMap fd = none
  pending : fd ∉ r.pending
  opened : fd ∈ r.openFds

theorem Spare.close {s : Server} {fd : Fd} (h : Spare s.registry fd) : Evolves S s (s.close fd) :=
  close_evolves h.session h.data h.pending

theorem Spare.silent {s s' : Server} {fd : Fd} (h : Spare s.registry fd) (hs : Silent s s') :
    Spare s'.registry fd := by
  rw [hs.rest]
  exact ⟨Reg.Pointwise.none hs.sessions h.session, h.data, h.pending, h.opened⟩

/-- Closing a data channel leaves the other descriptors alone. -/
theorem Spare.closeDataChannel {s : Server} {fd g : Fd} {c : ClientSession}
    (h : Spare s.registry fd) (hinv : s.registry.Inv S) (hc : s.clients[g]? = some c) :
    Spare (s.closeDataChannel g).registry fd := by
  obtain ⟨_, hr, _⟩ := closeDataChannel_spec hinv hc
  rw [hr]
  rcases hd : c.dataFd with _ | d
  · exact h
  · have hg : fd ≠ g := by
      rintro rfl
      have hnone := h.session
      rw [sessions_registry hc] at hnone
      cases hnone
    have hne : fd ≠ d := by
      rintro rfl
      have hmap := hinv.indexed.data.mpr ⟨_, sessions_registry hc, hd⟩
      rw [h.data] at hmap
      cases hmap
    refine ⟨?_, ?_, h.pending, ?_⟩
    · simp [withoutData, Reg.setSession, Function.update_of_ne hg, h.session]
    · simp [withoutData, Function.update_of_ne hne, h.data]
    · simp [withoutData, h.opened, hne]

theorem registry_bindData (s : Server) (k fd : Nat) :
    ({ s with dataFdMap := s.dataFdMap.insert k fd } : Server).registry =
      { s.registry with dataFdMap := Function.update s.registry.dataFdMap k (some fd) } :=
  Reg.ext rfl rfl rfl rfl (getElem?_insert_update _ _ _) rfl rfl rfl rfl rfl rfl

/-- The descriptor becomes the data channel of the session. -/
theorem bindDataFdIndex_spec {s : Server} {fd g : Fd} {c : ClientSession}
    (hspare : Spare s.registry fd) (hc : s.clients[g]? = some c)
    (hst : sessionHasPeerIdentity c.state = true) (hdata : c.dataFd = none) {s₁ : Server}
    {c₁ : ClientSession} (hc₁ : s₁.clients[g]? = some c₁)
    (hsess : c₁.toSess = { c.toSess with dataFd := some fd })
    (hr : s₁.registry = s.registry.setSession g c₁.toSess) (hw : s₁.world = s.world) :
    ∃ s₂, s₁.bindDataFdIndex g fd = (true, s₂) ∧ Evolves S s s₂ ∧ s₂.clients[g]? = some c₁ := by
  have hk : s₁.dataFdMap[fd]? = none := by
    have hsame : s₁.dataFdMap[fd]? = s.registry.dataFdMap fd :=
      congrFun (congrArg Reg.dataFdMap hr) fd
    rw [hsame, hspare.data]
  refine ⟨{ s₁ with dataFdMap := s₁.dataFdMap.insert fd g }, ?_,
    Evolves.of_world (.single ?_) hw, hc₁⟩
  · rw [bindDataFdIndex, bindIndex_of_none hk]
  · rw [registry_bindData, hr, hsess]
    exact .bindData (sessions_registry hc) hst hdata hspare.session hspare.data hspare.pending
      hspare.opened

theorem client_of_secureSessionMap {s : Server} (h : s.registry.Indexed) {sid : Nat} {fd : Fd}
    (hk : s.secureSessionMap[sid]? = some fd) :
    ∃ c, s.clients[fd]? = some c ∧ c.secureSessionId = sid := by
  obtain ⟨_, c, hc, hsid⟩ := h.secure hk
  obtain ⟨d, hd, rfl⟩ := exists_of_sessions hc
  exact ⟨d, hd, hsid⟩

theorem onSecureDataChannelInit_evolves {s : Server} {fd : Fd} (h : Good S s)
    (hspare : Spare s.registry fd) (p : Bytes) :
    Evolves S s (s.onSecureDataChannelInit K fd p) := by
  unfold onSecureDataChannelInit
  split
  · exact hspare.close
  rw [findClientBySecureSessionId_eq h.inv.indexed]
  dsimp only
  split
  · exact hspare.close
  next g hg =>
  -- the session of the id, in a state that may have a data channel
  obtain ⟨hg, hbind⟩ := Option.filter_eq_some_iff.mp hg
  obtain ⟨hk, _⟩ := Option.filter_eq_some_iff.mp hg
  obtain ⟨c, hc, _⟩ := client_of_secureSessionMap h.inv.indexed hk
  rw [client_eq hc] at hbind ⊢
  generalize hs₁ : s.modify g _ = s₁
  obtain ⟨hsil, c₁, hc₁, hsess₁⟩ : Silent s s₁ ∧ ∃ c₁, s₁.clients[g]? = some c₁ ∧
      c₁.toSess = c.toSess := by
    subst hs₁
    exact ⟨modify_idle_evolves fun _ => rfl, _, clients_modify hc, rfl⟩
  have h₁ := h.evolve (S := S) hsil.evolves
  have hspare₁ := hspare.silent hsil
  refine hsil.evolves.trans ?_
  split
  · exact hspare₁.close
  split
  · exact hspare₁.close
  -- the old channel is closed
  have hev₂ := closeDataChannel_evolves h₁.inv hc₁
  have hspare₂ := hspare₁.closeDataChannel h₁.inv hc₁
  obtain ⟨⟨c₂, hc₂, hsess₂⟩, _, _⟩ := closeDataChannel_spec h₁.inv hc₁
  generalize s₁.closeDataChannel g = s₂ at hev₂ hspare₂ hc₂ ⊢
  refine hev₂.trans ?_
  have htime := time_idle s₂
  generalize s₂.time = t₂ at htime ⊢
  have hc₂' : t₂.2.clients[g]? = some c₂ := htime.clients ▸ hc₂
  have hspare₂' : Spare t₂.2.registry fd := htime.registry ▸ hspare₂
  refine htime.evolves.trans ?_
  -- the new one is filed
  have hst₂ : sessionHasPeerIdentity c₂.state = true := by
    have hst : c₂.state = c.state := (congrArg Sess.state hsess₂).trans (congrArg Sess.state hsess₁)
    rw [hst]
    exact hbind
  generalize hs₃ : Server.modify (Server.clearSendBuffer _ g true) g _ = s₃
  obtain ⟨c₃, hc₃, hsess₃, hr₃, hw₃⟩ : ∃ c₃, s₃.clients[g]? = some c₃ ∧
      c₃.toSess = { c₂.toSess with dataFd := some fd } ∧
      s₃.registry = t₂.2.registry.setSession g c₃.toSess ∧
      s₃.world = t₂.2.world := by
    subst hs₃
    have hbound : Only (fun c c' => c' = { c with dataFd := some fd }) g c₂ t₂.2
        (t₂.2.modify g fun c => { c with dataFd := some fd, dataLastPing := t₂.1 }) :=
          Only.modify hc₂' rfl
    exact (hbound.andSame fun _ hc' => clearSendBuffer_same hc' true).andSame fun _ hc' =>
      clearRecv_same hc'
  obtain ⟨s₄, hbind₄, hev₄, hc₄⟩ := bindDataFdIndex_spec (S := S) hspare₂' hc₂' hst₂
    (congrArg Sess.dataFd hsess₂) hc₃ hsess₃ hr₃ hw₃
  rw [hbind₄]
  have hinv₄ := (((h₁.evolve hev₂).evolve htime.evolves).evolve hev₄).inv
  simpa using hev₄.trans (sendDataMsg_lasts K hinv₄ hc₄ MSG_DATA_CHANNEL_ACK []).evolves

theorem client_of_dataFdMap {s : Server} (h : s.registry.Indexed) {d fd : Fd}
    (hk : s.dataFdMap[d]? = some fd) : ∃ c, s.clients[fd]? = some c ∧ c.dataFd = some d := by
  obtain ⟨c, hc, hdata⟩ := h.data.mp hk
  obtain ⟨e, he, rfl⟩ := exists_of_sessions hc
  exact ⟨e, he, hdata⟩

theorem promoteDataChannel_lands {s : Server} {fd : Fd} (h : Good S s) (hp : fd ∈ s.pending)
    (hidle : s.control = .idle) (remoteIp : Nat) (payload trailing : Bytes) :
    Lands S s (s.promoteDataChannel K fd remoteIp payload trailing) := by
  have hp' : fd ∈ s.registry.pending := hp
  obtain ⟨hs, hd⟩ := pending_only h.inv.indexed hp'
  unfold promoteDataChannel
  dsimp only
  have hev₁ := erasePending_evolves (S := S) s fd
  have hspare : Spare ({ s with pending := s.pending.erase fd } : Server).registry fd := by
    rw [registry_erasePending]
    exact ⟨hs, hd, by simp, h.inv.indexed.pending_fd hp'⟩
  generalize ({ s with pending := s.pending.erase fd } : Server) = s₁ at hev₁ hspare ⊢
  have hev₂ := hev₁.trans (onSecureDataChannelInit_evolves K (h.evolve hev₁) hspare payload)
  generalize s₁.onSecureDataChannelInit K fd payload = s₂ at hev₂ ⊢
  -- the connection no longer counts as pending
  rcases s₂.ipStates[remoteIp]? with _ | state
  case' some =>
    dsimp only
    generalize hs₃ : ({ s₂.countDown state.pending with
      ipStates := s₂.ipStates.insert remoteIp { state with pending := state.pending - 1 } } :
        Server) = s₃
    have hidle₃ : Idle s₂ s₃ := hs₃ ▸ (countDown_idle s₂ _).trans (ipStates_idle _ _)
  case' none =>
    dsimp only
    have hidle₃ := countDown_idle s₂ 0
    generalize s₂.countDown 0 = s₃ at hidle₃ ⊢
  all_goals
    have hev₃ : Evolves S s s₃ := hev₂.trans hidle₃.evolves
    have h₃ := h.evolve hev₃
    rw [findClientByDataFd_eq h₃.inv.indexed]
    dsimp only
    split
    · next g hg =>
      obtain ⟨hk, _⟩ := Option.filter_eq_some_iff.mp hg
      obtain ⟨c, hc, _⟩ := client_of_dataFdMap h₃.inv.indexed hk
      split
      · exact hev₃.lands hidle
      · have hsil :
        Silent s₃ (s₃.modify g fun c => { c with dataRecvBuf := c.dataRecvBuf ++ trailing }) :=
          modify_idle_evolves fun _ => rfl
        exact (hev₃.trans hsil.evolves).lands_at (mem_clients_modify.mpr (mem_clients hc))
    · exact hev₃.lands hidle

theorem registry_insertPending_self {s : Server} {fd : Fd} (hp : fd ∈ s.pending)
    (pc : PendingConn) :
    ({ s with pending := s.pending.insert fd pc } : Server).registry = s.registry := by
  refine Reg.ext rfl rfl rfl rfl rfl rfl rfl ?_ rfl rfl rfl
  exact (setOf_insert_map s.pending fd pc).trans (Set.insert_eq_self.mpr hp)

theorem handlePendingData_lands {s : Server} (h : Good S s) (hidle : s.control = .idle) {fd : Fd}
    (chunk : Bytes) (hS : fd ∈ s.pending → S.Promotes fd) :
    Lands S s (s.handlePendingData K fd chunk) := by
  unfold handlePendingData
  rcases hpc : s.pending[fd]? with _ | pc
  · exact (Evolves.refl s).lands hidle
  have hp : fd ∈ s.pending :=
    Std.ExtTreeMap.mem_iff_isSome_getElem?.mpr (Option.isSome_iff_exists.mpr ⟨pc, hpc⟩)
  dsimp only
  split
  · exact (removePending_evolves h fd).lands hidle
  generalize hs₁ : ({ s with pending := s.pending.insert fd _ } : Server) = s₁
  obtain ⟨hsil, hp₁, hidle₁⟩ : Silent s s₁ ∧ fd ∈ s₁.pending ∧ s₁.control = .idle := by
    subst hs₁
    exact ⟨Silent.of_registry (registry_insertPending_self hp _) rfl, by simp, hidle⟩
  have h₁ := h.evolve (S := S) hsil.evolves
  have hlands : ∀ {s₂ : Server}, Lands S s₁ s₂ → Lands S s s₂ := by
    intro s₂ hl
    refine ⟨?_, hl.control⟩
    have hev := hl.evolves
    rw [hidle₁] at hev
    rw [hidle]
    exact hsil.evolves.trans hev
  refine hlands ?_
  split
  · exact (Evolves.refl s₁).lands hidle₁
  · exact (removePending_evolves h₁ fd).lands hidle₁
  · split
    · exact promoteDataChannel_lands K h₁ hp₁ hidle₁ _ _ _
    · exact promoteSession_lands h₁ hp₁ hidle₁ _ _ (hS hp)

/-! ### Signaling data -/

theorem handleClientDisconnect_evolves {s : Server} (h : Good S s) {fd : Fd} (hend : S.Ends fd)
    (hlose : ∀ {c}, s.registry.sessions fd = some c → s.registry.Orphan c → S.Loses fd) :
    Evolves S s (s.handleClientDisconnect fd) := by
  unfold handleClientDisconnect
  split
  · exact Evolves.refl s
  next hmem =>
  obtain ⟨c, hc⟩ := exists_client (not_not.mp hmem)
  rw [client_eq hc]
  refine (destroyClient_spec h hc ?_ ?_ (hlose (sessions_registry hc)) (Or.inl hend)).1
  · split
    · next hst => exact fun _ => hst
    · intro hr
      cases hr
  · split <;> intro hr <;> cases hr

theorem destroyClosing_evolves {s : Server} (h : Good S s) {fd : Fd} {c : ClientSession}
    (hc : s.clients[fd]? = some c) (hst : c.state = .closing) (hend : S.Ends fd) :
    Evolves S s (s.destroyClient fd .logoutComplete) := by
  refine (destroyClient_spec h hc (fun _ => hst) (by simp) (fun ho => ?_) (Or.inl hend)).1
  -- a closing session has no id to lose
  have hid := (h.inv.wf (sessions_registry hc)).identity
  rw [show c.toSess.state = .closing from hst] at hid
  exact absurd ho.1 (by simpa [sessionHasPeerIdentity] using hid)

theorem handleClientData_lands {s : Server} (h : Good S s) (hidle : s.control = .idle) {fd : Fd}
    (chunk : Bytes) (hend : S.Ends fd)
    (hlose : (s.client fd).alive = false ∨ (s.client fd).state ≠ .closing ∧ chunk = [] →
      ∀ {c}, s.registry.sessions fd = some c → s.registry.Orphan c → S.Loses fd) :
    Lands S s (s.handleClientData fd chunk) := by
  unfold handleClientData
  split
  · exact (Evolves.refl s).lands hidle
  next hmem =>
  obtain ⟨c, hc⟩ := exists_client (not_not.mp hmem)
  rw [client_eq hc] at hlose ⊢
  split
  · next ha => exact (handleClientDisconnect_evolves h hend
      (hlose (Or.inl (by simpa using ha)))).lands hidle
  next ha =>
  split
  · next hst =>
    split
    · exact (destroyClosing_evolves h hc hst hend).lands hidle
    · exact (Evolves.refl s).lands hidle
  next hst =>
  split
  · next hchunk =>
      exact (handleClientDisconnect_evolves h hend (hlose (Or.inr ⟨hst, hchunk⟩))).lands hidle
  · have hsil : Silent s (s.modify fd fun c => { c with recvBuf := c.recvBuf ++ chunk }) :=
      modify_idle_evolves fun _ => rfl
    exact hsil.evolves.lands_at ⟨_, clients_modify hc, not_not.mp ha, hst⟩

theorem signalRound_lands {s : Server} (h : Good S s) {fd : Fd}
    (hS : ∀ t sid, Authentic K s.serverAuthHash s.serverAuthSalt t sid → S.Auth t sid)
    {c : ClientSession} (hc : s.clients[fd]? = some c) (ha : c.alive = true) (hend : S.Ends fd)
    (hperm : ∀ {f innerType innerPayload s'}, probeFrame c.recvBuf = .frame f →
      f.msgType = MSG_ENCRYPTED → s.Opens K fd f.payload innerType innerPayload s' →
      isClientSignalMessageAllowed c.state innerType = true →
      Permits K S s' fd innerType innerPayload)
    (hlose : probeFrame c.recvBuf = .corrupted → ∀ {d}, s.registry.sessions fd = some d →
      s.registry.Orphan d → S.Loses fd) :
    Lands S s (s.signalRound K fd) := by
  unfold signalRound
  rw [client_eq hc]
  split
  · exact (Evolves.refl s).lands_at trivial
  · next hprobe => exact (handleClientDisconnect_evolves h hend (hlose hprobe)).lands_at trivial
  · next f hprobe =>
    have hh := processMessage_handles K h hS hc ha f.msgType f.payload fun hm _ _ _ =>
      hperm hprobe hm
    exact hh.evolves.lands_at hh.there

theorem signalRoundEnd_lands {s : Server} (h : Good S s) {fd : Fd} {c : ClientSession}
    (hc : s.clients[fd]? = some c) (frameLen : Nat) (hend : S.Ends fd)
    (hlose : c.alive = false → ∀ {d}, s.registry.sessions fd = some d → s.registry.Orphan d →
      S.Loses fd) :
    Lands S s (s.signalRoundEnd fd frameLen) := by
  unfold signalRoundEnd
  rw [client_eq hc]
  split
  · next ha =>
    exact (handleClientDisconnect_evolves h hend (hlose (by simpa using ha))).lands_at trivial
  next ha =>
  have hsil₁ : Silent s (s.modify fd fun c => { c with recvBuf := c.recvBuf.drop frameLen }) :=
    modify_idle_evolves fun _ => rfl
  have hc₁ := clients_modify hc (f := fun c => { c with recvBuf := c.recvBuf.drop frameLen })
  generalize s.modify fd _ = s₁ at hsil₁ hc₁ ⊢
  dsimp only
  rw [client_eq hc₁]
  split
  · next hst =>
    have hsil₂ : Silent s₁ (s₁.modify fd fun c => { c with recvBuf := [] }) :=
      modify_idle_evolves fun _ => rfl
    have hc₂ := clients_modify hc₁ (f := fun c => { c with recvBuf := [] })
    generalize s₁.modify fd _ = s₂ at hsil₂ hc₂ ⊢
    have hev := (hsil₁.trans hsil₂).evolves (S := S)
    have hend : Evolves S s (if (s₂.client fd).sendBuf = [] then s₂.destroyClient fd .logoutComplete
        else s₂) := by
      split
      · exact hev.trans (destroyClosing_evolves (h.evolve hev) hc₂ hst hend)
      · exact hev
    exact hend.lands_at trivial
  · next hst => exact hsil₁.evolves.lands_at ⟨_, hc₁, not_not.mp ha, hst⟩

/-! ### The data channel -/

theorem handleDataChannelDisconnect_lasts {s : Server} (h : Good S s) (d : Fd) :
    Lasts S s (s.handleDataChannelDisconnect d) := by
  unfold handleDataChannelDisconnect
  rw [findClientOwnerByDataFd_eq h.inv.indexed]
  rcases hk : s.dataFdMap[d]? with _ | fd
  · exact Lasts.refl s
  · obtain ⟨c, hc, _⟩ := client_of_dataFdMap h.inv.indexed hk
    exact closeDataChannel_lasts h.inv hc

theorem dropDataChannel_lasts {s : Server} (h : Good S s) (fd : Fd) :
    Lasts S s (s.dropDataChannel fd) := by
  unfold dropDataChannel
  split
  · exact handleDataChannelDisconnect_lasts h _
  · exact Lasts.refl s

theorem processDataMessage_lasts {s : Server} (h : Good S s) {fd : Fd} {c : ClientSession}
    (hc : s.clients[fd]? = some c) (msgType : UInt8) (payload : Bytes)
    (hS : ∀ {relayed}, c.serverAuthOk = true → c.secureEnabled = true → msgType = MSG_ENCRYPTED →
      (c.dataCipher.decrypt K payload []).1 = some (MSG_TCP_RELAY_DATA :: relayed) →
      c.state = .inRoom → S.Calls fd (MSG_TCP_RELAY_DATA, relayed)) :
    Lasts S s (s.processDataMessage K fd msgType payload) := by
  unfold processDataMessage
  have hidle := time_idle s
  dsimp only
  generalize s.time = time at hidle ⊢
  have hc₁ : time.2.clients[fd]? = some c := hidle.clients ▸ hc
  generalize hs₂ : time.2.modify fd _ = s₂
  obtain ⟨hsil, c₂, hc₂, hsess, hcipher⟩ : Silent time.2 s₂ ∧ ∃ c₂, s₂.clients[fd]? = some c₂ ∧
      c₂.toSess = c.toSess ∧ c₂.dataCipher = c.dataCipher := by
    subst hs₂
    exact ⟨modify_idle_evolves fun _ => rfl, _, clients_modify hc₁, rfl, rfl⟩
  have hsil₂ : Silent s s₂ := hidle.silent.trans hsil
  refine hsil₂.lasts.trans ?_
  have h₂ := h.evolve (S := S) hsil₂.evolves
  rw [client_eq hc₂]
  split
  · exact dropDataChannel_lasts h₂ fd
  next hgate =>
  simp only [not_or, not_not, ne_eq] at hgate
  generalize hs₃ : s₂.modify fd _ = s₃
  obtain ⟨hsil₃, c₃, hc₃⟩ : Silent s₂ s₃ ∧ ∃ c₃, s₃.clients[fd]? = some c₃ := by
    subst hs₃
    exact ⟨modify_idle_evolves fun _ => rfl, _, clients_modify hc₂⟩
  have h₃ := h₂.evolve (S := S) hsil₃.evolves
  refine hsil₃.lasts.trans ?_
  split
  · next innerType innerPayload hplain =>
    have hact : Silent s₃ (s₃.act (.decrypted fd .data payload (innerType :: innerPayload))) :=
      act_silent rfl rfl
    have hc₄ : (s₃.act (.decrypted fd .data payload (innerType :: innerPayload))).clients[fd]? =
      some c₃ := hc₃
    generalize s₃.act (.decrypted fd .data payload (innerType :: innerPayload)) = s₄ at hact hc₄ ⊢
    have h₄ := h₃.evolve (S := S) hact.evolves
    refine hact.lasts.trans ?_
    split
    · exact dropDataChannel_lasts h₄ fd
    next hadmit =>
    split
    · next hm =>
      have hst : c₂.state = .inRoom := by
        by_contra hne
        exact hadmit (Or.inr ⟨hm, Or.inr hne⟩)
      have hcall : S.Calls fd (innerType, innerPayload) := by
        rw [hm] at hplain ⊢
        exact hS ((congrArg Sess.serverAuthOk hsess).symm.trans hgate.1)
          ((congrArg Sess.secureEnabled hsess).symm.trans hgate.2.1) hgate.2.2 (hcipher ▸ hplain)
          ((congrArg Sess.state hsess).symm.trans hst)
      have hact₅ := act_handler_lasts hcall s₄
      exact hact₅.trans (onTcpRelayData_lasts K (h₄.evolve hact₅.evolves) hc₄ innerPayload)
    split
    · split
      · exact sendDataMsg_lasts K h₄.inv hc₄ _ _
      · exact Lasts.refl s₄
    · exact Lasts.refl s₄
  · exact dropDataChannel_lasts h₃ fd

theorem Evolves.lands_same {s s' : Server} (h : Evolves S s s') (hctl : s'.ControlOk) :
    Lands S s s' := by
  refine ⟨?_, hctl⟩
  rw [← h.config.control]
  exact h

theorem dataRound_lands {s : Server} (h : Good S s) {fd : Fd} (hctl : s.control = .data fd)
    {c : ClientSession} (hc : s.clients[fd]? = some c)
    (hS : ∀ {f relayed}, probeFrame c.dataRecvBuf = .frame f → c.serverAuthOk = true →
      c.secureEnabled = true → f.msgType = MSG_ENCRYPTED →
      (c.dataCipher.decrypt K f.payload []).1 = some (MSG_TCP_RELAY_DATA :: relayed) →
      c.state = .inRoom → S.Calls fd (MSG_TCP_RELAY_DATA, relayed)) :
    Lands S s (s.dataRound K fd) := by
  unfold dataRound
  split
  · exact (Evolves.refl s).lands_at trivial
  split
  · exact (Evolves.refl s).lands_at trivial
  · exact (handleDataChannelDisconnect_lasts h _).evolves.lands_at trivial
  · next f hprobe =>
    rw [client_eq hc] at hprobe
    have hlasts := processDataMessage_lasts K h hc f.msgType f.payload (hS hprobe)
    generalize s.processDataMessage K fd f.msgType f.payload = s₁ at hlasts ⊢
    dsimp only
    split
    · exact hlasts.evolves.lands_at trivial
    · have hsil :
          Silent s₁ (s₁.modify fd fun c => { c with
            dataRecvBuf := c.dataRecvBuf.drop f.frameLen }) :=
        modify_idle_evolves fun _ => rfl
      have hev := hlasts.evolves.trans hsil.evolves
      refine hev.lands_same ?_
      rw [ControlOk, hev.config.control.trans hctl]
      exact mem_clients_modify.mpr (hlasts.keeps fd (mem_clients hc))

theorem handleDataChannelData_lands {s : Server} (h : Good S s) (hidle : s.control = .idle) (d : Fd)
    (chunk : Bytes) : Lands S s (s.handleDataChannelData d chunk) := by
  unfold handleDataChannelData
  rw [findClientOwnerByDataFd_eq h.inv.indexed]
  rcases hk : s.dataFdMap[d]? with _ | o
  · exact (Evolves.refl s).lands hidle
  obtain ⟨c, hc, _⟩ := client_of_dataFdMap h.inv.indexed hk
  dsimp only
  rw [findClientByDataFd_eq h.inv.indexed, hk]
  dsimp only
  split
  · exact (closeDataChannel_evolves h.inv hc).lands hidle
  next fd hfd =>
  have hfd : o = fd := by
    obtain ⟨heq, _⟩ := Option.filter_eq_some_iff.mp hfd
    exact Option.some.inj heq
  subst hfd
  split
  · exact (handleDataChannelDisconnect_lasts h d).evolves.lands hidle
  · have hsil : Silent s (s.modify o fun c => { c with dataRecvBuf := c.dataRecvBuf ++ chunk }) :=
      modify_idle_evolves fun _ => rfl
    exact hsil.evolves.lands_at (mem_clients_modify.mpr (mem_clients hc))

/-! ### UDP -/

theorem relayUdp_silent {s : Server} (h : Good S s) {src : Fd} (sender : SockAddr) (plain : Bytes) :
    Silent s (s.relayUdp K sender src plain) := by
  have hlearn :
      Silent s (s.modify src fun c => { c with udpAddr := sender, udpAddrKnown := true }) :=
    modify_idle_evolves fun _ => rfl
  have h₁ := h.evolve (S := S) hlearn.evolves
  unfold relayUdp
  dsimp only
  split
  · exact hlearn
  split
  · exact Silent.refl s
  next hdr _ =>
  split
  · exact Silent.refl s
  split
  · exact Silent.refl s
  have hstate := findClientByPeerId_state h₁.inv.indexed hdr.destination
  rcases hf :
    (s.modify src fun c => { c with udpAddr := sender, udpAddrKnown := true }).findClientByPeerId
    hdr.destination with ⟨target, s'⟩
  rw [hf] at hstate
  dsimp only at hstate ⊢
  rw [← hstate] at hlearn h₁ hf
  rcases target with _ | dst
  · exact hlearn
  obtain ⟨_, d, hd, _⟩ := findClientByPeerId_some h₁.inv.indexed hf
  dsimp only
  split
  · exact hlearn
  split
  · exact hlearn
  · exact hlearn.trans (sendEncryptedUdp_silent K hd plain)

theorem decryptUdpPacket_silent {s : Server} (h : Good S s) (data : Bytes) :
    Silent s (s.decryptUdpPacket K data).2 := by
  unfold decryptUdpPacket
  split
  · exact Silent.refl s
  split
  · exact Silent.refl s
  rw [findClientBySecureSessionId_eq h.inv.indexed]
  dsimp only
  split
  · exact Silent.refl s
  next src _ =>
  have hsil : Silent s (s.modify src fun c => { c with
      udpCipher :=
        ((s.client src).udpCipher.decrypt K (data.drop (1 + SECURE_SESSION_ID_SIZE)) []).2 }) :=
    modify_idle_evolves fun _ => rfl
  split
  · exact hsil
  · exact hsil.trans (act_silent rfl rfl)

theorem handleUdpPacket_silent {s : Server} (h : Good S s) (sender : SockAddr) (data : Bytes) :
    Silent s (s.handleUdpPacket K sender data) := by
  unfold handleUdpPacket
  split
  · exact Silent.refl s
  have hsil := decryptUdpPacket_silent K h data
  generalize s.decryptUdpPacket K data = res at hsil ⊢
  dsimp only
  split
  · exact hsil
  · exact hsil.trans (relayUdp_silent K (h.evolve hsil.evolves) sender _)

end Server

end VlanConnect

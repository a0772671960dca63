/-
  VlanConnect/Server/Evolution.lean
  =================================
  **Server functions as runs of the registry**, first part: output, the data
  channel, and the end of a session.
-/
import VlanConnect.Server.Rooms

namespace VlanConnect

open Registry

namespace Server

variable (K : Crypto) {S : Reg.Scope}

/-! ### Evolution -/

/-- A state that the handlers may be called in. -/
structure Good (S : Reg.Scope) (s : Server) : Prop where
  inv : s.registry.Inv S
  rooms : s.rooms.WF s.limits.maxRooms

/-- What no function changes after `init`, and the place of the event loop,
    which only the events change. -/
structure SameConfig (s s' : Server) : Prop where
  hash : s'.serverAuthHash = s.serverAuthHash
  salt : s'.serverAuthSalt = s.serverAuthSalt
  limits : s'.limits = s.limits
  control : s'.control = s.control

/-- The registry made a run. -/
structure Evolves (S : Reg.Scope) (s s' : Server) : Prop where
  run : Reg.Run S s.registry s'.registry
  rooms : RoomManager.Kept s.limits.maxRooms s.rooms s'.rooms
  config : SameConfig s s'

theorem SameConfig.refl (s : Server) : SameConfig s s := ⟨rfl, rfl, rfl, rfl⟩

theorem SameConfig.trans {s₁ s₂ s₃ : Server} (h : SameConfig s₁ s₂) (h' : SameConfig s₂ s₃) :
    SameConfig s₁ s₃ :=
  ⟨h'.hash.trans h.hash, h'.salt.trans h.salt, h'.limits.trans h.limits,
    h'.control.trans h.control⟩

theorem SameConfig.of_world {s s' : Server} (h : s'.world = s.world) : SameConfig s s' :=
  ⟨congrArg World.serverAuthHash h, congrArg World.serverAuthSalt h, congrArg World.limits h,
    congrArg World.control h⟩

theorem rooms_of_world {s s' : Server} (h : s'.world = s.world) : s'.rooms = s.rooms :=
  congrArg World.rooms h

theorem Evolves.refl (s : Server) : Evolves S s s := ⟨.refl, .refl _, SameConfig.refl s⟩

theorem Evolves.trans {s₁ s₂ s₃ : Server} (h : Evolves S s₁ s₂) (h' : Evolves S s₂ s₃) :
    Evolves S s₁ s₃ :=
  ⟨h.run.trans h'.run, h.rooms.trans (h.config.limits ▸ h'.rooms), h.config.trans h'.config⟩

theorem Good.evolve {s s' : Server} (h : Good S s) (he : Evolves S s s') : Good S s' :=
  ⟨Reg.Run.inv he.run h.inv, he.config.limits ▸ he.rooms.wf h.rooms⟩

theorem Evolves.of_world {s s' : Server} (hrun : Reg.Run S s.registry s'.registry)
    (hw : s'.world = s.world) : Evolves S s s' :=
  ⟨hrun, .of_eq (rooms_of_world hw), SameConfig.of_world hw⟩

theorem Silent.evolves {s s' : Server} (h : Silent s s') : Evolves S s s' :=
  Evolves.of_world (.single (h.step S)) h.world

theorem Idle.evolves {s s' : Server} (h : Idle s s') : Evolves S s s' := h.silent.evolves

theorem kill_evolves {s : Server} {fd : Fd} {c : ClientSession} (hc : s.clients[fd]? = some c) :
    Evolves S s (s.kill fd) := (kill_silent hc).evolves

/-- A change of a session that the registry does not see. -/
theorem modify_idle_evolves {s : Server} {fd : Fd} {f : ClientSession → ClientSession}
    (hf : ∀ c, (f c).toSess = c.toSess) : Silent s (s.modify fd f) :=
  Silent.of_registry (registry_modify_same hf) rfl

/-! ### Relay notices and the room list -/

theorem sendRelayReady_silent {s : Server} {fd : Fd} {c : ClientSession}
    (hc : s.clients[fd]? = some c) (peerId : Nat) : Silent s (s.sendRelayReady K fd peerId) :=
  sendClientMsg_silent K hc rfl _

/-- The session that an index entry for a peer points to. -/
theorem client_of_peerMap {s : Server} (h : s.registry.Indexed) {peerId : Nat} {fd : Fd}
    (hk : s.peerMap[peerId]? = some fd) :
    ∃ c, s.clients[fd]? = some c ∧ c.peerId = peerId ∧ peerId ≠ 0 := by
  obtain ⟨h0, c, hc, hp⟩ := h.peer.mp hk
  obtain ⟨d, hd, rfl⟩ := exists_of_sessions hc
  exact ⟨d, hd, hp, h0⟩

/-- What `findClientByPeerId` finds. -/
theorem findClientByPeerId_some {s : Server} (h : s.registry.Indexed) {peerId : Nat} {fd : Fd}
    {s' : Server} (hf : s.findClientByPeerId peerId = (some fd, s')) :
    s' = s ∧ ∃ c, s.clients[fd]? = some c ∧ c.peerId = peerId ∧ peerId ≠ 0 ∧ c.alive = true ∧
      c.serverAuthOk = true ∧ c.secureEnabled = true ∧ sessionHasPeerIdentity c.state = true := by
  rw [findClientByPeerId_eq h, Prod.mk.injEq] at hf
  obtain ⟨hf, rfl⟩ := hf
  obtain ⟨hk, hlive⟩ := Option.filter_eq_some_iff.mp hf
  obtain ⟨c, hc, hp, h0⟩ := client_of_peerMap h hk
  rw [client_eq hc] at hlive
  simp only [Bool.and_eq_true] at hlive
  exact ⟨rfl, c, hc, hp, h0, hlive.1.1.1, hlive.1.1.2, hlive.1.2, hlive.2⟩

theorem findClientByPeerId_state {s : Server} (h : s.registry.Indexed) (peerId : Nat) :
    (s.findClientByPeerId peerId).2 = s := by
  rw [findClientByPeerId_eq h]

theorem notifyRelayPeer_silent {s : Server} {fd : Fd} {c : ClientSession} (h : s.registry.Inv S)
    (hc : s.clients[fd]? = some c) (peerId : Nat) : Silent s (notifyRelayPeer K fd s peerId) := by
  unfold notifyRelayPeer
  split
  · exact Silent.refl s
  · have hstate := findClientByPeerId_state h.indexed peerId
    rcases hf : s.findClientByPeerId peerId with ⟨other, s₁⟩
    rw [hf] at hstate
    dsimp only at hstate ⊢
    subst hstate
    rcases other with _ | o
    · exact Silent.refl _
    · obtain ⟨_, d, hd, _⟩ := findClientByPeerId_some h.indexed hf
      have h₁ := sendRelayReady_silent K hc (s₁.client o).peerId
      obtain ⟨d', hd', _⟩ := h₁.client hd
      exact h₁.trans (sendRelayReady_silent K hd' _)

theorem foldl_notifyRelayPeer_silent {fd : Fd} (ids : List Nat) :
    ∀ {s : Server} {c : ClientSession},
    s.registry.Inv S → s.clients[fd]? = some c → Silent s (ids.foldl (notifyRelayPeer K fd) s) := by
  induction ids with
  | nil => exact fun {s} _ _ _ => Silent.refl s
  | cons p ids ih =>
    intro s c h hc
    have h₁ := notifyRelayPeer_silent K h hc p
    obtain ⟨c', hc', _⟩ := h₁.client hc
    exact h₁.trans (ih (h₁.inv h) hc')

theorem notifyRelayPeers_silent {s : Server} {fd : Fd} {c : ClientSession} (h : s.registry.Inv S)
    (hc : s.clients[fd]? = some c) : Silent s (s.notifyRelayPeers K fd) := by
  unfold notifyRelayPeers
  split
  · exact Silent.refl s
  · exact foldl_notifyRelayPeer_silent K _ h hc

/-- Like `Silent`, but the room list may have been published. -/
structure Still (s s' : Server) : Prop where
  sessions : Reg.QuietSessions s.registry.sessions s'.registry.sessions
  rest : s'.registry = { s.registry with sessions := s'.registry.sessions }
  rooms : s'.rooms = s.rooms
  config : SameConfig s s'

theorem Silent.still {s s' : Server} (h : Silent s s') : Still s s' :=
  ⟨h.sessions, h.rest, rooms_of_world h.world, SameConfig.of_world h.world⟩

theorem Still.trans {s₁ s₂ s₃ : Server} (h : Still s₁ s₂) (h' : Still s₂ s₃) : Still s₁ s₃ :=
  ⟨Reg.QuietSessions.trans h.sessions h'.sessions, by rw [h'.rest, h.rest],
    h'.rooms.trans h.rooms, h.config.trans h'.config⟩

theorem Still.evolves {s s' : Server} (h : Still s s') : Evolves S s s' := by
  refine ⟨?_, .of_eq h.rooms, h.config⟩
  rw [h.rest]
  exact .single (.quiet h.sessions)

theorem Still.client {s s' : Server} (h : Still s s') {fd : Fd} {c : ClientSession}
    (hc : s.clients[fd]? = some c) :
    ∃ c', s'.clients[fd]? = some c' ∧ c.toSess.Quiet c'.toSess := by
  obtain ⟨d, hd, hq⟩ := Reg.Pointwise.forth h.sessions (sessions_registry hc)
  obtain ⟨c', hc', rfl⟩ := exists_of_sessions hd
  exact ⟨c', hc', hq⟩

theorem pushRoomList_silent {s : Server} {fd : Fd} {c : ClientSession}
    (hc : s.clients[fd]? = some c) (body : Bytes) : Silent s (pushRoomList K body s fd) := by
  unfold pushRoomList
  dsimp only
  split
  · exact Silent.refl s
  · exact sendClientMsg_silent K hc rfl _

theorem foldl_pushRoomList_silent {body : Bytes} (fds : List Fd) : ∀ {s : Server},
    (∀ fd ∈ fds, fd ∈ s.clients) → Silent s (fds.foldl (pushRoomList K body) s) := by
  induction fds with
  | nil => exact fun {s} _ => Silent.refl s
  | cons fd fds ih =>
    intro s hmem
    obtain ⟨c, hc⟩ := Option.isSome_iff_exists.mp
      (Std.ExtTreeMap.mem_iff_isSome_getElem?.mp (hmem fd (List.mem_cons_self ..)))
    have h₁ := pushRoomList_silent K hc body
    refine h₁.trans (ih fun g hg => ?_)
    obtain ⟨d, hd⟩ := Option.isSome_iff_exists.mp
      (Std.ExtTreeMap.mem_iff_isSome_getElem?.mp (hmem g (List.mem_cons_of_mem _ hg)))
    obtain ⟨d', hd', _⟩ := h₁.client hd
    exact mem_clients hd'

theorem broadcastRoomListPush_still (s : Server) : Still s (s.broadcastRoomListPush K) := by
  unfold broadcastRoomListPush
  dsimp only
  split
  · exact (Silent.refl s).still
  · split
    · exact ⟨Reg.Pointwise.refl Sess.Quiet.refl _, rfl, rfl, ⟨rfl, rfl, rfl, rfl⟩⟩
    · refine Still.trans ?_ (foldl_pushRoomList_silent K _ fun fd hfd =>
        Std.ExtTreeMap.mem_keys.mp hfd).still
      exact ⟨Reg.Pointwise.refl Sess.Quiet.refl _, rfl, rfl, ⟨rfl, rfl, rfl, rfl⟩⟩

/-! ### The data channel -/

/-- The state after a session lost its data channel. -/
def withoutData (r : Reg) (fd d : Fd) (c : Sess) : Reg :=
  { r.setSession fd { c with dataFd := none } with
    dataFdMap := Function.update r.dataFdMap d none
    openFds := r.openFds \ {d} }

theorem registry_eraseDataFd {s : Server} {fd d : Fd} {c : ClientSession}
    (hc : s.clients[fd]? = some c) :
    ((({ s with dataFdMap := s.dataFdMap.erase d } : Server).modify fd
      fun c => { c with dataFd := none }).close d).registry =
      withoutData s.registry fd d c.toSess := by
  refine Reg.ext ?_ rfl rfl rfl ?_ rfl rfl rfl (setOf_erase s.openFds d) rfl rfl
  · exact sessionsOf_alter hc
  · funext g
    exact (getElem?_erase_eq s.dataFdMap d g).trans (Function.update_apply ..).symm

theorem clearRecv_same {s : Server} {fd : Fd} {c : ClientSession} (hc : s.clients[fd]? = some c) :
    Only Eq fd c s (s.modify fd fun c => { c with dataRecvBuf := [] }) := modify_same hc fun _ =>
      rfl

/-- `closeDataChannel` closes the data channel if there is one. -/
theorem closeDataChannel_spec {s : Server} {fd : Fd} {c : ClientSession} (h : s.registry.Inv S)
    (hc : s.clients[fd]? = some c) :
    (∃ c', (s.closeDataChannel fd).clients[fd]? = some c' ∧ c'.toSess = { c.toSess with
      dataFd := none }) ∧
    (s.closeDataChannel fd).registry =
      (match c.dataFd with
        | none => s.registry
        | some d => withoutData s.registry fd d c.toSess) ∧
    (s.closeDataChannel fd).world = s.world := by
  unfold closeDataChannel
  rw [client_eq hc]
  rcases hd : c.dataFd with _ | d
  · obtain ⟨c', hc', heq, hr, hw⟩ :=
      (clearSendBuffer_same hc true).andSame fun c' hc' => clearRecv_same hc'
    refine ⟨⟨c', hc', ?_⟩, ?_, hw⟩
    · rw [← heq]
      have hdn : c.toSess.dataFd = none := hd
      rw [← hdn]
    · rw [hr, ← heq]
      exact setSession_self (sessions_registry hc)
  · have hmap : s.dataFdMap[d]? = some fd := h.indexed.data.mpr ⟨c.toSess, sessions_registry hc, hd⟩
    have hunbind : unbindSessionIndex s.dataFdMap d fd = s.dataFdMap.erase d := by
      rw [unbindSessionIndex, if_pos hmap]
    dsimp only
    rw [hunbind]
    have hreg := registry_eraseDataFd (d := d) hc
    generalize hs₁ : (({ s with dataFdMap := s.dataFdMap.erase d } : Server).modify fd
      fun c => { c with dataFd := none }).close d = s₁ at hreg ⊢
    have hc₁ : s₁.clients[fd]? = some { c with dataFd := none } := by
      rw [← hs₁]
      simp [close, modify, hc]
    obtain ⟨c', hc', heq, hr, hw⟩ :=
      (clearSendBuffer_same hc₁ true).andSame fun c' hc' => clearRecv_same hc'
    refine ⟨⟨c', hc', heq.symm⟩, ?_, ?_⟩
    · rw [hr, ← heq, setSession_self (sessions_registry hc₁), hreg]
    · rw [hw, ← hs₁]
      rfl

theorem closeDataChannel_evolves {s : Server} {fd : Fd} {c : ClientSession} (h : s.registry.Inv S)
    (hc : s.clients[fd]? = some c) : Evolves S s (s.closeDataChannel fd) := by
  obtain ⟨_, hr, hw⟩ := closeDataChannel_spec h hc
  refine Evolves.of_world ?_ hw
  rw [hr]
  rcases hd : c.dataFd with _ | d
  · exact .refl
  · exact .single (.closeData (sessions_registry hc) hd)

/-- The sessions of the state are still there. -/
def Keeps (s s' : Server) : Prop := ∀ fd ∈ s.clients, fd ∈ s'.clients

theorem Keeps.client {s s' : Server} (h : Keeps s s') {fd : Fd} {c : ClientSession}
    (hc : s.clients[fd]? = some c) : ∃ c', s'.clients[fd]? = some c' :=
  exists_client (h fd (mem_clients hc))

theorem Silent.keeps {s s' : Server} (h : Silent s s') : Keeps s s' := fun fd hfd => by
  obtain ⟨c, hc⟩ := exists_client hfd
  obtain ⟨c', hc', _⟩ := h.client hc
  exact mem_clients hc'

theorem closeDataChannel_keeps {s : Server} {fd : Fd} {c : ClientSession} (h : s.registry.Inv S)
    (hc : s.clients[fd]? = some c) : Keeps s (s.closeDataChannel fd) := by
  obtain ⟨⟨c', hc', _⟩, hr, _⟩ := closeDataChannel_spec h hc
  intro g hg
  by_cases hgfd : g = fd
  · subst hgfd
    exact mem_clients hc'
  · obtain ⟨d, hd⟩ := exists_client hg
    have hsess : (s.closeDataChannel fd).registry.sessions g = some d.toSess := by
      rw [hr]
      rcases c.dataFd with _ | e
      · exact sessions_registry hd
      · exact (sessions_setSession_of_ne hgfd).trans (sessions_registry hd)
    obtain ⟨d', hd', _⟩ := exists_of_sessions hsess
    exact mem_clients hd'

/-- The registry makes a run, and no session goes away. -/
structure Lasts (S : Reg.Scope) (s s' : Server) : Prop where
  evolves : Evolves S s s'
  keeps : Keeps s s'

theorem Lasts.trans {s₁ s₂ s₃ : Server} (h : Lasts S s₁ s₂) (h' : Lasts S s₂ s₃) : Lasts S s₁ s₃ :=
  ⟨h.evolves.trans h'.evolves, fun fd hfd => h'.keeps fd (h.keeps fd hfd)⟩

theorem Silent.lasts {s s' : Server} (h : Silent s s') : Lasts S s s' := ⟨h.evolves, h.keeps⟩

theorem Lasts.refl (s : Server) : Lasts S s s := (Silent.refl s).lasts

theorem closeDataChannel_lasts {s : Server} {fd : Fd} {c : ClientSession} (h : s.registry.Inv S)
    (hc : s.clients[fd]? = some c) : Lasts S s (s.closeDataChannel fd) :=
  ⟨closeDataChannel_evolves h hc, closeDataChannel_keeps h hc⟩

theorem flushDataSendBuf_lasts {s : Server} {fd : Fd} {c : ClientSession} (h : s.registry.Inv S)
    (hc : s.clients[fd]? = some c) : Lasts S s (s.flushDataSendBuf fd).2 := by
  unfold flushDataSendBuf
  split
  · exact Lasts.refl s
  · have hflush := (flushBuffer_same hc true).silent hc fun he => he ▸ Sess.Quiet.refl _
    rcases hf : s.flushBuffer fd true with ⟨res, s₁⟩
    rw [hf] at hflush
    dsimp only at hflush ⊢
    split
    · obtain ⟨c', hc', _⟩ := hflush.client hc
      exact hflush.lasts.trans (closeDataChannel_lasts (hflush.inv h) hc')
    · exact hflush.lasts

theorem sendDataMsg_lasts {s : Server} {fd : Fd} {c : ClientSession} (h : s.registry.Inv S)
    (hc : s.clients[fd]? = some c) (msgType : UInt8) (body : Bytes) :
    Lasts S s (s.sendDataMsg K fd msgType body).2 := by
  unfold sendDataMsg
  rw [client_eq hc]
  dsimp only
  split
  · exact Lasts.refl s
  split
  · exact Lasts.refl s
  split
  · exact Lasts.refl s
  have hcipher :
      Silent s (s.modify fd fun d => { d with
        dataCipher := (c.dataCipher.encrypt K (msgType :: body) []).2 }) :=
    modify_idle_evolves fun _ => rfl
  obtain ⟨c₁, hc₁, _⟩ := hcipher.client hc
  generalize (s.modify fd fun d => { d with
    dataCipher := (c.dataCipher.encrypt K (msgType :: body) []).2 }) = s₁
    at hcipher hc₁ ⊢
  split
  · exact hcipher.lasts.trans (kill_silent hc₁).lasts
  split
  · exact hcipher.lasts
  have happ := (appendSendBuffer_same hc₁ true
    (tcpMsgHeader MSG_ENCRYPTED (c.dataCipher.encrypt K (msgType :: body) []).1.length)
    (c.dataCipher.encrypt K (msgType :: body) []).1).silent hc₁ fun he => he ▸ Sess.Quiet.refl _
  rcases hf : s₁.appendSendBuffer fd true
    (tcpMsgHeader MSG_ENCRYPTED (c.dataCipher.encrypt K (msgType :: body) []).1.length)
    (c.dataCipher.encrypt K (msgType :: body) []).1 with ⟨ok, s₂⟩
  rw [hf] at happ
  dsimp only at happ ⊢
  have h₂ := hcipher.trans happ
  obtain ⟨c₂, hc₂, _⟩ := h₂.client hc
  split
  · exact h₂.lasts.trans (closeDataChannel_lasts (h₂.inv h) hc₂)
  have hact := (act_output_same hc₂ fd .data (msgType :: body)
    (c.dataCipher.encrypt K (msgType :: body) []).1).silent hc₂ fun he => he ▸ Sess.Quiet.refl _
  generalize Server.act s₂ _ = s₃ at hact ⊢
  have h₃ := h₂.trans hact
  obtain ⟨c₃, hc₃, _⟩ := h₃.client hc
  split
  · exact h₃.lasts.trans (closeDataChannel_lasts (h₃.inv h) hc₃)
  · exact h₃.lasts.trans (flushDataSendBuf_lasts (h₃.inv h) hc₃)

theorem sendEncryptedUdp_silent {s : Server} {fd : Fd} {c : ClientSession}
    (hc : s.clients[fd]? = some c) (plain : Bytes) : Silent s (s.sendEncryptedUdp K fd plain) := by
  unfold sendEncryptedUdp
  rw [client_eq hc]
  dsimp only
  split
  · exact Silent.refl s
  have hcipher :
      Silent s (s.modify fd fun d => { d with udpCipher := (c.udpCipher.encrypt K plain []).2 }) :=
    modify_idle_evolves fun _ => rfl
  obtain ⟨c₁, hc₁, _⟩ := hcipher.client hc
  split
  · exact hcipher.trans (kill_silent hc₁)
  · exact hcipher.trans (Silent.of_registry (registry_act rfl rfl) rfl)

/-! ### The end of a session -/

/-- A lease goes offline, if its room is there. -/
theorem markLeaseOffline_spec {s : Server} (roomId : Nat)
    (h : ∀ {ls}, s.registry.rooms roomId = some ls → Reg.RoomOk ls) (peerId : Nat) :
    ∃ now, (s.markLeaseOffline roomId peerId).registry =
        { s.registry with
          rooms := Function.update s.registry.rooms roomId
            ((s.registry.rooms roomId).map (mapLease peerId (·.markOffline now))) } ∧
      (s.markLeaseOffline roomId peerId).clients = s.clients ∧
      (∀ {cap}, RoomManager.Kept cap s.rooms (s.markLeaseOffline roomId peerId).rooms) ∧
      SameConfig s (s.markLeaseOffline roomId peerId) := by
  unfold markLeaseOffline
  rcases hroom : s.rooms.getRoom roomId with _ | room
  · refine ⟨0, ?_, rfl, .refl _, SameConfig.refl s⟩
    have hnone : s.registry.rooms roomId = none := by simp [registry, hroom]
    rw [hnone, Option.map_none, Function.update_eq_self_iff.mpr hnone.symm]
  · have hidle := time_idle s
    rcases ht : s.time with ⟨now, s₁⟩
    rw [ht] at hidle
    dsimp only at hidle ⊢
    have hls := rooms_registry hroom
    refine ⟨now, ?_, hidle.clients, ?_,
      (SameConfig.of_world hidle.world).trans ⟨rfl, rfl, rfl, rfl⟩⟩
    · rw [registry_setRoom, hidle.registry, Room.markLeaseOffline_leases (h hls).1, hls]
      rfl
    · have hr : s₁.rooms = s.rooms := rooms_of_world hidle.world
      intro cap
      rw [setRoom, hr]
      exact .setRoom hroom (Room.Shrinks.markLeaseOffline room peerId now)
        fun h => Room.settled_markLeaseOffline h peerId now

/-- `detachLease` takes the lease of the session offline.  The id stays
    reserved with a session that was in a room, or was to resume in one that
    still exists. -/
theorem detachLease_spec {s : Server} {fd : Fd} {c : ClientSession} (h : s.registry.Inv S)
    (hc : s.clients[fd]? = some c) {reason : DisconnectReason}
    (hreason : reason = .logoutComplete → c.state = .closing) :
    ∃ now c', (s.detachLease fd reason false).2.clients[fd]? = some c' ∧
    Reg.SameKeys c.toSess c'.toSess ∧
      (s.detachLease fd reason false).2.registry =
        { s.registry.setSession fd c'.toSess with
          rooms := Function.update s.registry.rooms c.toSess.home
            ((s.registry.rooms c.toSess.home).map (mapLease c.peerId (·.markOffline now))) } ∧
      ((s.detachLease fd reason false).1 = false ↔ c.roomId = 0 ∧
        s.registry.rooms c.toSess.home = none) ∧
      (∀ {cap}, RoomManager.Kept cap s.rooms (s.detachLease fd reason false).2.rooms) ∧
      SameConfig s (s.detachLease fd reason false).2 := by
  have hwf := h.wf (sessions_registry hc)
  have hin : c.state = .inRoom ↔ c.roomId ≠ 0 := hwf.inRoom
  unfold detachLease
  rw [client_eq hc]
  by_cases hroom : c.roomId = 0
  · have hne : ¬ (¬ false = true ∧ reason ≠ .logoutComplete ∧ c.roomId ≠ 0) := by simp [hroom]
    dsimp only
    rw [if_neg hne]
    split
    · -- the session was to resume in a room that exists
      next hres =>
      obtain ⟨_, _, hst, hr0, hsome⟩ := hres
      have hhome : c.toSess.home = c.resumeRoomId := by
        rw [Sess.home, if_neg (by simpa [ClientSession.toSess] using hroom),
          if_pos (show c.toSess.state = .resumePending from hst)]
        rfl
      obtain ⟨room, hget⟩ := Option.isSome_iff_exists.mp hsome
      have hls := rooms_registry hget
      obtain ⟨now, hr, hcl, hwf', hcfg⟩ :=
        markLeaseOffline_spec c.resumeRoomId h.leased.room c.peerId
      refine ⟨now, c, by rw [hcl]; exact hc, Reg.SameKeys.refl _, ?_, ?_, hwf', hcfg⟩
      · rw [hr, hhome, setSession_self (sessions_registry hc)]
      · simp [hhome, hls]
    · next hres =>
      have hhome : s.registry.rooms c.toSess.home = none := by
        rw [Sess.home, if_neg (by simpa [ClientSession.toSess] using hroom)]
        split
        · next hst =>
          have hst : c.state = .resumePending := hst
          rcases hget : s.rooms.getRoom c.resumeRoomId with _ | room
          · simp [registry, ClientSession.toSess, hget]
          · refine absurd ⟨by simp, fun hlo => ?_, hst, (hwf.resume hst).1, by rw [hget]; rfl⟩ hres
            rw [hreason hlo] at hst
            cases hst
        · exact h.leased.room_id
      refine ⟨0, c, hc, Reg.SameKeys.refl _, ?_, by simp [hroom, hhome], .refl _, SameConfig.refl s⟩
      rw [hhome, Option.map_none, setSession_self (sessions_registry hc),
        Function.update_eq_self_iff.mpr hhome.symm]
  · have hst : c.state = .inRoom := hin.mpr hroom
    have hpos : ¬ false = true ∧ reason ≠ .logoutComplete ∧ c.roomId ≠ 0 := by
      refine ⟨by simp, fun hlo => ?_, hroom⟩
      rw [hreason hlo] at hst
      cases hst
    dsimp only
    rw [if_pos hpos]
    have hhome : c.toSess.home = c.roomId := by
      rw [Sess.home, if_pos (show c.toSess.roomId ≠ 0 from hroom)]
      rfl
    obtain ⟨now, hr, hcl, hwf', hcfg⟩ := markLeaseOffline_spec c.roomId h.leased.room c.peerId
    unfold markSessionOffline
    rw [client_eq hc]
    dsimp only
    rw [if_neg hroom]
    have hc₁ : (s.markLeaseOffline c.roomId c.peerId).clients[fd]? = some c := by rw [hcl]; exact hc
    refine ⟨now, _, clients_modify hc₁, ⟨rfl, rfl, rfl, rfl, id⟩, ?_, by simp [hroom], hwf',
      hcfg.trans ⟨rfl, rfl, rfl, rfl⟩⟩
    rw [registry_modify hc₁, hr, hhome]
    rfl

theorem getElem?_unbindSessionIndex (index : Std.ExtTreeMap Nat Fd) (key : Nat) (fd : Fd)
    (k : Nat) :
    (unbindSessionIndex index key fd)[k]? = if k = key ∧ index[key]? = some fd then none
    else index[k]? := by
  unfold unbindSessionIndex
  split
  · next h =>
    rw [getElem?_erase_eq]
    simp [h]
  · next h => simp [h]

theorem releaseClientIp_same {s : Server} {fd : Fd} {c : ClientSession}
    (hc : s.clients[fd]? = some c) :
    Only Eq fd c s (s.releaseClientIp fd) := by
  unfold releaseClientIp
  dsimp only
  split
  · have hidle := countDown_idle s 0
    exact Only.same hc (hidle.clients ▸ hc) rfl hidle.registry hidle.world
  · next state _ =>
    have hidle := (countDown_idle s state.clients).trans (time_idle _)
    rcases ht : (s.countDown state.clients).time with ⟨now, s₁⟩
    rw [ht] at hidle
    dsimp only at hidle ⊢
    have hc₁ : s₁.clients[fd]? = some c := hidle.clients ▸ hc
    have hsame : Only Eq fd c s ({ s₁ with ipStates := _ } : Server) :=
      Only.same hc hc₁ rfl hidle.registry hidle.world
    exact hsame.andSame fun c' hc' => modify_same hc' fun _ => rfl

/-- Dropping the one entry that may point to the session drops all that do. -/
theorem unbindSessionIndex_eq_unbind {index : Std.ExtTreeMap Nat Fd} {key : Nat} {fd : Fd}
    (honly : ∀ {k}, index[k]? = some fd → k = key ∧ key ≠ 0) :
    (fun k => (if key ≠ 0 then unbindSessionIndex index key fd else index)[k]?) =
      Reg.unbind (fun k => index[k]?) fd := by
  funext k
  unfold Reg.unbind
  split
  · rw [getElem?_unbindSessionIndex]
    by_cases hk : index[k]? = some fd
    · obtain ⟨rfl, _⟩ := honly hk
      simp [hk]
    · rw [if_neg hk, if_neg]
      rintro ⟨rfl, hm⟩
      exact hk hm
  · next h0 => rw [if_neg fun hm => h0 (honly hm).2]

/-- The entries of the indexes that point to the session are dropped. -/
theorem unbindClientIndexes_registry {s : Server} {fd : Fd} {c : ClientSession}
    (h : s.registry.Indexed)
    (hc : s.clients[fd]? = some c) (hd : c.dataFd = none) :
    (s.unbindClientIndexes fd).registry = { s.registry with
      peerMap := Reg.unbind s.registry.peerMap fd
      secureSessionMap := Reg.unbind s.registry.secureSessionMap fd } := by
  have hpeer : ∀ {k}, s.peerMap[k]? = some fd → k = c.peerId ∧ c.peerId ≠ 0 := by
    intro k hk
    obtain ⟨h0, d, hd, rfl⟩ := h.peer.mp hk
    rw [sessions_registry hc] at hd
    cases hd
    exact ⟨rfl, h0⟩
  have hsecure : ∀ {k}, s.secureSessionMap[k]? = some fd → k = c.secureSessionId ∧
      c.secureSessionId ≠ 0 := by
    intro k hk
    obtain ⟨h0, d, hd, rfl⟩ := h.secure hk
    rw [sessions_registry hc] at hd
    cases hd
    exact ⟨rfl, h0⟩
  unfold unbindClientIndexes
  rw [client_eq hc]
  dsimp only
  rw [hd]
  exact Reg.ext rfl rfl (unbindSessionIndex_eq_unbind hpeer) (unbindSessionIndex_eq_unbind hsecure)
    rfl rfl rfl rfl rfl rfl rfl

theorem setOf_insert (m : Std.ExtTreeSet Nat) (k : Nat) :
    { i | i ∈ m.insert k } = insert k { i | i ∈ m } := by
  ext i
  simp only [Std.ExtTreeSet.mem_insert, Set.mem_ofPred_eq, Set.mem_insert_iff, Nat.compare_eq_eq,
    eq_comm (a := i)]

/-- An id that no session has is given back. -/
theorem releasePeerId_registry {s : Server} {peerId : Nat} (hfree : s.peerMap[peerId]? = none) :
    (s.releasePeerId peerId).registry = { s.registry with
      free := { i | i ∈ s.registry.free ∨ i = peerId ∧ peerId ≠ 0 } } ∧
    (s.releasePeerId peerId).clients = s.clients ∧ (s.releasePeerId peerId).world = s.world := by
  unfold releasePeerId
  split
  · next h0 =>
    refine ⟨Reg.ext rfl rfl rfl rfl rfl rfl ?_ rfl rfl rfl rfl, rfl, rfl⟩
    simp [h0]
  · next h0 =>
    have hfind : s.findClientOwnerByPeerId peerId = (none, s) := by
      simp [findClientOwnerByPeerId, findOwner, h0, hfree]
    rw [hfind]
    refine ⟨Reg.ext rfl rfl rfl rfl rfl rfl ?_ rfl rfl rfl rfl, rfl, rfl⟩
    refine (setOf_insert s.freePeerIds peerId).trans ?_
    ext i
    simp [registry, h0, or_comm]

theorem sessionsOf_erase (clients : Std.ExtTreeMap Fd ClientSession) (fd : Fd) :
    sessionsOf (clients.erase fd) = Function.update (sessionsOf clients) fd none := by
  funext g
  simp only [sessionsOf, getElem?_erase_eq, Function.update_apply]
  split <;> rfl

theorem eraseClient_spec {s : Server} {fd : Fd} {c : ClientSession} (h : s.registry.Indexed)
    (hc : s.clients[fd]? = some c) (hd : c.dataFd = none) (preserve : Bool) :
    (s.eraseClient fd c.peerId preserve).registry = { s.registry with
      sessions := Function.update s.registry.sessions fd none
      peerMap := Reg.unbind s.registry.peerMap fd
      secureSessionMap := Reg.unbind s.registry.secureSessionMap fd
      free := { i | i ∈ s.registry.free ∨ i = c.peerId ∧ c.peerId ≠ 0 ∧ preserve = false }
      openFds := s.registry.openFds \ {fd} } ∧
    (s.eraseClient fd c.peerId preserve).world = s.world := by
  have hunbind := unbindClientIndexes_registry h hc hd
  have hc₁ : (s.unbindClientIndexes fd).clients[fd]? = some c := hc
  have hw₁ : (s.unbindClientIndexes fd).world = s.world := rfl
  unfold eraseClient
  dsimp only
  generalize s.unbindClientIndexes fd = s₁ at hunbind hc₁ hw₁ ⊢
  have hgone : s₁.peerMap[c.peerId]? = none := by
    have hval : s₁.peerMap[c.peerId]? = Reg.unbind s.registry.peerMap fd c.peerId :=
      congrFun (congrArg Reg.peerMap hunbind) c.peerId
    rw [hval, Reg.unbind]
    split
    · rfl
    · next hne =>
      rcases hk : s.registry.peerMap c.peerId with _ | g
      · rfl
      · obtain ⟨h0, _⟩ := h.peer.mp hk
        exact absurd (h.peer.mpr ⟨h0, c.toSess, sessions_registry hc, rfl⟩) hne
  obtain ⟨hrel, hclr, hwr⟩ := releasePeerId_registry hgone
  have hrest : ∃ s₂, (if preserve = true then s₁ else s₁.releasePeerId c.peerId) = s₂ ∧
      s₂.registry = { s₁.registry with
        free := { i | i ∈ s.registry.free ∨ i = c.peerId ∧ c.peerId ≠ 0 ∧ preserve = false } } ∧
      s₂.clients = s₁.clients ∧ s₂.world = s.world := by
    refine ⟨_, rfl, ?_⟩
    cases preserve with
    | true =>
      refine ⟨?_, rfl, hw₁⟩
      rw [if_pos rfl, hunbind]
      simp
    | false =>
      refine ⟨?_, hclr, hwr.trans hw₁⟩
      rw [if_neg (by simp), hrel, hunbind]
      simp
  obtain ⟨s₂, hs₂, hr₂, hcl₂, hw₂⟩ := hrest
  rw [hs₂]
  have hc₂ : s₂.clients[fd]? = some c := by rw [hcl₂]; exact hc₁
  obtain ⟨c₃, _, heq, hr₃, hw₃⟩ := (((clearSendBuffer_same hc₂ false).andSame fun c' hc' =>
    clearSendBuffer_same hc' true).andSame fun c' hc' => releaseClientIp_same hc')
  generalize ((s₂.clearSendBuffer fd false).clearSendBuffer fd true).releaseClientIp fd =
    s₃ at hr₃ hw₃ ⊢
  rw [← heq, setSession_self (sessions_registry hc₂)] at hr₃
  refine ⟨?_, hw₃.trans hw₂⟩
  have hlast : ({ s₃.close fd with clients := (s₃.close fd).clients.erase fd } : Server).registry =
      { s₃.registry with
        sessions := Function.update s₃.registry.sessions fd none
        openFds := s₃.registry.openFds \ {fd} } :=
    Reg.ext (sessionsOf_erase _ _) rfl rfl rfl rfl rfl rfl rfl (setOf_erase _ _) rfl rfl
  rw [hlast, hr₃, hr₂, hunbind]

/-- **The end of a session**, by a run of the registry that ends in `remove`. -/
theorem destroyClient_spec {s : Server} {fd : Fd} {c : ClientSession} (h : Good S s)
    (hc : s.clients[fd]? = some c) {reason : DisconnectReason}
    (hreason : reason = .logoutComplete → c.state = .closing)
    (htake : reason = .takeover → s.registry.HasLease c.toSess.home c.peerId)
    (hlose : s.registry.Orphan c.toSess → S.Loses fd)
    (hend : S.Ends fd ∨ ∃ g R l, S.Resumes g R l ∧ l.peerId = c.peerId) :
    Evolves S s (s.destroyClient fd reason) ∧
    (s.destroyClient fd reason).registry.sessions = Function.update s.registry.sessions fd none ∧
    ∃ now, (s.destroyClient fd reason).registry.rooms =
    Function.update s.registry.rooms c.toSess.home
      ((s.registry.rooms c.toSess.home).map (mapLease c.peerId (·.markOffline now))) := by
  have hwf := h.inv.wf (sessions_registry hc)
  unfold destroyClient
  rw [if_neg (by simp [mem_clients hc])]
  -- the session is marked dead
  have hkill := kill_silent hc
  obtain ⟨c₀, hc₀, hsess₀, hr₀, hw₀⟩ := kill_only hc
  generalize s.kill fd = s₀ at hkill hc₀ hr₀ hw₀ ⊢
  have hinv₀ := hkill.inv h.inv
  have hp₀ : c₀.peerId = c.peerId := congrArg Sess.peerId hsess₀
  have hhome₀ : c₀.toSess.home = c.toSess.home := by rw [hsess₀]; rfl
  have hfind : (if c₀.peerId ≠ 0 then s₀.findClientOwnerByPeerId c₀.peerId else (none, s₀)) =
      (s₀.peerMap[c₀.peerId]?, s₀) := by
    rw [findClientOwnerByPeerId_eq hinv₀.indexed]
    split
    · rfl
    · next h0 =>
      rcases hk : s₀.peerMap[c₀.peerId]? with _ | g
      · rfl
      · exact absurd (hinv₀.indexed.peer.mp hk).1 h0
  have hother : decide (s₀.peerMap[c₀.peerId]? ≠ none ∧ s₀.peerMap[c₀.peerId]? ≠ some fd) =
      false := by
    rw [decide_eq_false_iff_not]
    rintro ⟨hne, hne'⟩
    obtain ⟨g, hk⟩ := Option.ne_none_iff_exists'.mp hne
    obtain ⟨h0, _⟩ := hinv₀.indexed.peer.mp hk
    exact hne' (hinv₀.indexed.peer.mpr ⟨h0, c₀.toSess, sessions_registry hc₀, rfl⟩)
  dsimp only
  rw [client_eq hc₀, hfind]
  dsimp only
  rw [hother]
  -- its data channel is closed
  obtain ⟨⟨c₁, hc₁, hsess₁⟩, hr₁, hw₁⟩ := closeDataChannel_spec hinv₀ hc₀
  have hev₁ := closeDataChannel_evolves hinv₀ hc₀
  generalize s₀.closeDataChannel fd = s₁ at hc₁ hr₁ hw₁ hev₁ ⊢
  have hgood₁ : Good S s₁ := (h.evolve hkill.evolves).evolve hev₁
  have hp₁ : c₁.peerId = c₀.peerId := congrArg Sess.peerId hsess₁
  have hst₁ : c₁.state = c.state := by
    have h₁ : c₁.state = c₀.state := congrArg Sess.state hsess₁
    exact h₁.trans (congrArg Sess.state hsess₀)
  have hd₁ : c₁.dataFd = none := congrArg Sess.dataFd hsess₁
  have hroomId₁ : c₁.roomId = c.roomId := by
    have h₁ : c₁.roomId = c₀.roomId := congrArg Sess.roomId hsess₁
    exact h₁.trans (congrArg Sess.roomId hsess₀)
  have hhome₁ : c₁.toSess.home = c.toSess.home := by
    rw [hsess₁]
    exact hhome₀
  have hrooms₁ : s₁.registry.rooms = s.registry.rooms := by
    have h₁ : s₁.registry.rooms = s₀.registry.rooms := by
      rw [hr₁]
      rcases c₀.dataFd with _ | d <;> rfl
    rw [h₁, hr₀]
    rfl
  have hsessions₁ : Function.update s₁.registry.sessions fd none =
      Function.update s.registry.sessions fd none := by
    rw [hr₁, hr₀]
    rcases c₀.dataFd with _ | d <;> simp [withoutData, Reg.setSession]
  -- its lease goes offline
  obtain ⟨now, c₂, hc₂, hkeys, hr₂, hkept, hrwf, hcfg⟩ :=
    detachLease_spec hgood₁.inv hc₁ fun hlo => hst₁.trans (hreason hlo)
  rcases hdet : s₁.detachLease fd reason false with ⟨kept, s₂⟩
  rw [hdet] at hc₂ hr₂ hkept hrwf hcfg
  dsimp only at hc₂ hr₂ hkept hrwf hcfg ⊢
  have hindexed₂ : s₂.registry.Indexed := by
    refine hgood₁.inv.indexed.of_keys ?_ (by rw [hr₂]; rfl) (by rw [hr₂]; rfl) (by rw [hr₂]; rfl)
      (by rw [hr₂]; rfl) (by rw [hr₂]; rfl)
    rw [hr₂]
    exact Reg.Pointwise.update Reg.SameKeys.refl (sessions_registry hc₁) hkeys
  have hp₂ : c₂.peerId = c₁.peerId := hkeys.peerId
  -- the session is taken out
  obtain ⟨hr₃, hw₃⟩ := eraseClient_spec hindexed₂ hc₂ (hkeys.dataFd.trans hd₁)
    (decide (reason = .takeover) || false || kept)
  rw [hp₂, hp₁] at hr₃ hw₃
  have hpreserve : (decide (reason = .takeover) || false || kept) = false ↔
      c₁.roomId = 0 ∧ s₁.registry.rooms c₁.toSess.home = none := by
    rw [← hkept]
    cases kept with
    | true => simp
    | false =>
      simp only [Bool.or_false, decide_eq_false_iff_not, iff_true]
      intro ht
      obtain ⟨l, ⟨ls, hls, _⟩, _⟩ := htake ht
      have hnone := (hkept.mp rfl).2
      rw [hrooms₁, hhome₁, hls] at hnone
      cases hnone
  generalize (decide (reason = .takeover) || false || kept) = preserve at hr₃ hw₃ hpreserve ⊢
  have hfinal : (s₂.eraseClient fd c₀.peerId preserve).registry = { s₁.registry with
      sessions := Function.update s₁.registry.sessions fd none
      rooms := Function.update s₁.registry.rooms c₁.toSess.home
        ((s₁.registry.rooms c₁.toSess.home).map (mapLease c₁.peerId (·.markOffline now)))
      peerMap := Reg.unbind s₁.registry.peerMap fd
      secureSessionMap := Reg.unbind s₁.registry.secureSessionMap fd
      free := { i | i ∈ s₁.registry.free ∨
        i = c₁.peerId ∧ c₁.peerId ≠ 0 ∧ c₁.roomId = 0 ∧ s₁.registry.rooms c₁.toSess.home = none }
      openFds := s₁.registry.openFds \ {fd} } := by
    rw [hr₃, hr₂]
    refine Reg.ext ?_ rfl rfl rfl rfl rfl ?_ rfl rfl rfl rfl
    · simp [Reg.setSession]
    · simp only [hpreserve, hp₁]
      rfl
  have hstep : Reg.Step S s₁.registry (s₂.eraseClient fd c₀.peerId preserve).registry := by
    rw [hfinal]
    have hend₁ : S.Ends fd ∨ ∃ g R l, S.Resumes g R l ∧ l.peerId = c₁.toSess.peerId := by
      rw [show c₁.toSess.peerId = c.peerId from hp₁.trans hp₀]
      exact hend
    refine .remove (sessions_registry hc₁) hd₁ (fun ho => hlose ?_) hend₁
    obtain ⟨hne, hno, hrest⟩ := ho
    refine ⟨?_, ?_, ?_⟩
    · exact fun h0 => hne ((hp₁.trans hp₀).trans h0)
    · rintro ⟨l, ⟨ls, hls, hl⟩, hlp⟩
      refine hno ⟨l, ⟨ls, ?_, hl⟩, hlp.trans (hp₀.symm.trans hp₁.symm)⟩
      rw [hrooms₁, hhome₁]
      exact hls
    · rintro ⟨hz, hn⟩
      refine hrest ⟨hroomId₁.trans hz, ?_⟩
      rw [hrooms₁, hhome₁]
      exact hn
  refine ⟨(hkill.evolves.trans hev₁).trans ⟨.single hstep, ?_,
    hcfg.trans (SameConfig.of_world hw₃)⟩, ?_, now, ?_⟩
  · rw [rooms_of_world hw₃]
    exact hrwf
  · rw [hfinal]
    exact hsessions₁
  · rw [hfinal, hrooms₁, hhome₁, hp₁, hp₀]

/-! ### The sweep -/

/-- Every room was there before, with the same settings. -/
def KeepsShapes (m m' : RoomManager) : Prop :=
  ∀ id r', m'.getRoom id = some r' → ∃ r, m.getRoom id = some r ∧ Room.SameShape r r'

theorem KeepsShapes.of_eq {m m' : RoomManager} (h : m' = m) : KeepsShapes m m' := by
  subst h
  exact fun _ _ hr => ⟨_, hr, Room.SameShape.refl _⟩

theorem KeepsShapes.trans {m₁ m₂ m₃ : RoomManager} (h : KeepsShapes m₁ m₂)
    (h' : KeepsShapes m₂ m₃) :
    KeepsShapes m₁ m₃ := by
  intro id r' hr'
  obtain ⟨r₂, hr₂, hs₂⟩ := h' id r' hr'
  obtain ⟨r₁, hr₁, hs₁⟩ := h id r₂ hr₂
  exact ⟨r₁, hr₁, hs₁.trans hs₂⟩

theorem KeepsShapes.setRoom {m : RoomManager} {id : Nat} {r r' : Room} (hr : m.getRoom id = some r)
    (hs : Room.SameShape r r') : KeepsShapes m (m.setRoom id r') := by
  intro id' r'' hr'
  rw [RoomManager.getRoom_setRoom] at hr'
  split at hr'
  · next heq =>
    cases hr'
    exact ⟨r, heq ▸ hr, hs⟩
  · exact ⟨r'', hr', Room.SameShape.refl _⟩

theorem KeepsShapes.eraseRoom (m : RoomManager) (id : Nat) : KeepsShapes m (m.eraseRoom id) := by
  intro id' r' hr'
  rw [RoomManager.getRoom_eraseRoom] at hr'
  split at hr'
  · cases hr'
  · exact ⟨r', hr', Room.SameShape.refl _⟩

/-- The registry makes a run in which sessions only send.  Rooms may be left
    empty or without a host. -/
structure Settles (S : Reg.Scope) (s s' : Server) : Prop where
  run : Reg.Run S s.registry s'.registry
  rooms : ∀ {cap}, s.rooms.WF cap → s'.rooms.WF cap
  shapes : KeepsShapes s.rooms s'.rooms
  config : SameConfig s s'
  sends : Reg.Pointwise Reg.Sends s.registry.sessions s'.registry.sessions

theorem Sends.trans {a b c : Sess} (h : Reg.Sends a b) (h' : Reg.Sends b c) : Reg.Sends a c := by
  obtain ⟨ext, lost, hd⟩ := h
  obtain ⟨ext', lost', hd'⟩ := h'
  exact ⟨_, _, hd.trans hd'⟩

theorem Settles.trans {s₁ s₂ s₃ : Server} (h : Settles S s₁ s₂) (h' : Settles S s₂ s₃) :
    Settles S s₁ s₃ :=
  ⟨h.run.trans h'.run, fun hw => h'.rooms (h.rooms hw), h.shapes.trans h'.shapes,
    h.config.trans h'.config,
    h.sends.trans h'.sends fun _ _ _ => Sends.trans⟩

theorem Settles.evolves {s s' : Server} (h : Settles S s s')
    (hh : s.rooms.Housed → s'.rooms.Housed) :
    Evolves S s s' :=
  ⟨h.run, ⟨h.rooms, hh⟩, h.config⟩

theorem Good.settle {s s' : Server} (h : Good S s) (hs : Settles S s s') : Good S s' :=
  ⟨Reg.Run.inv hs.run h.inv, hs.config.limits ▸ hs.rooms h.rooms⟩

theorem Still.settles {s s' : Server} (h : Still s s') : Settles S s s' :=
  ⟨h.evolves.run, fun hw => by rw [h.rooms]; exact hw, .of_eq h.rooms, h.config,
    Reg.Pointwise.mono h.sessions Reg.Sends.of_quiet⟩

theorem Silent.settles {s s' : Server} (h : Silent s s') : Settles S s s' := h.still.settles

theorem Settles.refl (s : Server) : Settles S s s := (Silent.refl s).settles

theorem Settles.client {s s' : Server} (h : Settles S s s') {fd : Fd} {c : ClientSession}
    (hc : s.clients[fd]? = some c) :
    ∃ c', s'.clients[fd]? = some c' ∧ Reg.Sends c.toSess c'.toSess := by
  obtain ⟨d, hd, hs⟩ := h.sends.forth (sessions_registry hc)
  obtain ⟨c', hc', rfl⟩ := exists_of_sessions hd
  exact ⟨c', hc', hs⟩

theorem hasLiveSession_spec {s : Server} (h : s.registry.Inv S) (roomId peerId : Nat) :
    (s.hasLiveSession roomId peerId).2 = s ∧
      ((s.hasLiveSession roomId peerId).1 = true ↔ s.registry.LiveIn roomId peerId) := by
  have hstate := findClientByPeerId_state h.indexed peerId
  unfold hasLiveSession
  rcases hf : s.findClientByPeerId peerId with ⟨live, s'⟩
  rw [hf] at hstate
  dsimp only at hstate ⊢
  subst hstate
  refine ⟨rfl, ?_⟩
  constructor
  · intro hany
    rcases live with _ | fd
    · cases hany
    · obtain ⟨_, c, hc, hp, _, ha, _⟩ := findClientByPeerId_some h.indexed hf
      simp only [Option.any_some, client_eq hc, Bool.and_eq_true, beq_iff_eq,
        decide_eq_true_eq] at hany
      exact ⟨fd, c.toSess, sessions_registry hc, hp, ha, hany.2, hany.1⟩
  · rintro ⟨fd, c, hc, hp, ha, hst, hroom⟩
    obtain ⟨d, hd, rfl⟩ := exists_of_sessions hc
    have hwf := h.wf hc
    have hid : sessionHasPeerIdentity d.state = true := by rw [show d.state = _ from hst]; rfl
    have h0 : peerId ≠ 0 := hp ▸ hwf.identity.mp hid
    obtain ⟨hauth, hsec, _⟩ := hwf.auth (by simp [hst]) (by simp [hst]) (by simp [hst])
    have hk : s'.peerMap[peerId]? = some fd := h.indexed.peer.mpr ⟨h0, _, hc, hp⟩
    have hlive : live = some fd := by
      rw [findClientByPeerId_eq h.indexed, hk, Prod.mk.injEq] at hf
      rw [← hf.1, Option.filter_some, client_eq hd, if_pos]
      rw [show d.alive = true from ha, show d.serverAuthOk = true from hauth,
        show d.secureEnabled = true from hsec, hid]
      rfl
    rw [hlive]
    simp only [Option.any_some, client_eq hd, Bool.and_eq_true, beq_iff_eq, decide_eq_true_eq]
    exact ⟨hroom, hst⟩

/-- The bookkeeping of a sweep makes the lease follow its session. -/
theorem refreshLease_spec (lease : RoomLease) (live : Bool) (now : Nat) :
    ∃ f, KeepsLease f ∧ (refreshLease lease live now).1 = f lease ∧
    ((f lease).online = true ↔ live = true) := by
  unfold refreshLease
  split
  · next h => exact ⟨_, KeepsLease.markOnline, rfl, by simp [RoomLease.markOnline, h.1]⟩
  split
  · next h => exact ⟨_, KeepsLease.markOffline now, rfl, by simpa [RoomLease.markOffline] using h.2⟩
  split
  · next h₁ _ h₃ =>
    refine ⟨_, KeepsLease.markOffline now, rfl, ?_⟩
    cases live with
    | true => exact absurd ⟨rfl, h₃.1⟩ h₁
    | false => simp [RoomLease.markOffline]
  · next h₁ h₂ _ =>
    refine ⟨id, ⟨fun _ => rfl, fun _ => rfl, fun _ => rfl, fun _ => rfl, fun _ h => h⟩, rfl, ?_⟩
    cases live <;> cases ho : lease.online <;> simp_all

theorem setLeases_spec {s : Server} {roomId : Nat} {room : Room}
    (hroom : s.rooms.getRoom roomId = some room) {f : List RoomLease → List RoomLease}
    (hf : ((f room.leases).map (·.virtualIP)).Sublist (room.leases.map (·.virtualIP))) :
    (s.setLeases roomId f).registry = s.registry.setRoom roomId (f room.leases) ∧
      (∀ {cap}, s.rooms.WF cap → (s.setLeases roomId f).rooms.WF cap) ∧
      KeepsShapes s.rooms (s.setLeases roomId f).rooms ∧ SameConfig s (s.setLeases roomId f) ∧
      ∀ id, (s.setLeases roomId f).rooms.getRoom id =
        if id = roomId then some { room with leases := f room.leases } else s.rooms.getRoom id := by
  have hshrinks : Room.Shrinks room { room with leases := f room.leases } := Room.Shrinks.leases hf
  unfold setLeases
  rw [hroom]
  refine ⟨registry_setRoom _ _ _, fun hwf => hwf.setRoom hroom hshrinks.id hshrinks.listable,
    .setRoom hroom hshrinks.toSameShape, ⟨rfl, rfl, rfl, rfl⟩, fun id => ?_⟩
  dsimp only [setRoom]
  rw [RoomManager.getRoom_setRoom]

/-- Empty rooms stay empty. -/
def KeepsEmpty (s s' : Server) : Prop :=
  ∀ R, s.registry.rooms R = some [] → s'.registry.rooms R = some []

theorem setLeases_keepsEmpty {s : Server} {roomId : Nat} {room : Room}
    (hroom : s.rooms.getRoom roomId = some room) {f : List RoomLease → List RoomLease}
    (hf : ((f room.leases).map (·.virtualIP)).Sublist (room.leases.map (·.virtualIP))) :
    KeepsEmpty s (s.setLeases roomId f) := by
  intro R hR
  rw [(setLeases_spec hroom hf).1, Reg.setRoom]
  simp only [Function.update_apply]
  split
  · next h =>
    subst h
    rw [rooms_registry hroom] at hR
    rw [Option.some.inj hR, List.map_nil, List.sublist_nil, List.map_eq_nil_iff] at hf
    rw [Option.some.inj hR, hf]
  · exact hR

/-- The id of an expired lease is given back, unless a session has it. -/
theorem releaseExpired_spec {s : Server} (h : s.registry.Indexed) {peerId : Nat} (h0 : peerId ≠ 0)
    {s' : Server}
    (hs' : s' = if (s.findClientByPeerId peerId).1.isSome = true then s
      else s.releasePeerId peerId) :
    s'.registry = { s.registry with
      free := { i | i ∈ s.registry.free ∨ i = peerId ∧ ¬ s.registry.Owned peerId } } ∧
        s'.world = s.world := by
  rcases hk : s.peerMap[peerId]? with _ | fd
  · have hnone : (s.findClientByPeerId peerId).1 = none := by
      rw [findClientByPeerId_eq h, hk]
      rfl
    have hown : ¬ s.registry.Owned peerId := by
      rintro ⟨fd, c, hc, hp⟩
      have := h.peer.mpr ⟨h0, c, hc, hp⟩
      exact absurd (hk.symm.trans this) (by simp)
    obtain ⟨hr, _, hw⟩ := releasePeerId_registry hk
    rw [hs', hnone, if_neg (by simp)]
    exact ⟨by simp only [hr, hown, h0, ne_eq, not_false_eq_true, and_true], hw⟩
  · obtain ⟨c, hc, hp, _⟩ := client_of_peerMap h hk
    have hown : s.registry.Owned peerId := ⟨fd, c.toSess, sessions_registry hc, hp⟩
    have hsame : s' = s := by
      rw [hs']
      split
      · rfl
      · rw [releasePeerId, if_neg h0, findClientOwnerByPeerId_eq h, hk]
        rfl
    rw [hsame]
    refine ⟨Reg.ext rfl rfl rfl rfl rfl rfl ?_ rfl rfl rfl rfl, rfl⟩
    simp [hown]

/-- A lease whose holder is not alive in the room is announced and removed. -/
theorem expireLease_settles {s : Server} (h : Good S s) {roomId i : Nat} {room : Room}
    {lease : RoomLease} (hroom : s.rooms.getRoom roomId = some room)
    (hi : room.leases[i]? = some lease) (hlive : ¬ s.registry.LiveIn roomId lease.peerId) :
    Settles S s (s.expireLease K roomId i lease) ∧ KeepsEmpty s (s.expireLease K roomId i lease) ∧
      ∀ id, id ≠ roomId → (s.expireLease K roomId i lease).rooms.getRoom id =
      s.rooms.getRoom id := by
  have hls := rooms_registry hroom
  have hl := List.mem_of_getElem? hi
  have h0 := (h.inv.leased.lease_id ⟨_, hls, hl⟩).1
  unfold expireLease
  obtain ⟨σ', hσ, hr₁, hw₁⟩ :=
    broadcastToRoom_tell K h.inv hroom lease.peerId MSG_PEER_LEFT (ByteBuffer.writeU32 lease.peerId)
  dsimp only
  generalize s.broadcastToRoom K roomId MSG_PEER_LEFT
    (ByteBuffer.writeU32 lease.peerId) lease.peerId = s₁
    at hr₁ hw₁ ⊢
  have hrooms₁ := rooms_of_world hw₁
  have hroom₁ : s₁.rooms.getRoom roomId = some room := by rw [hrooms₁]; exact hroom
  have hsub : ((room.leases.eraseIdx i).map (·.virtualIP)).Sublist
      (room.leases.map (·.virtualIP)) :=
    (List.eraseIdx_sublist ..).map _
  obtain ⟨hr₂, hwf₂, hshapes₂, hcfg₂, hget₂⟩ := setLeases_spec (f := (·.eraseIdx i)) hroom₁ hsub
  have hempty : KeepsEmpty s₁ (s₁.setLeases roomId (·.eraseIdx i)) :=
    setLeases_keepsEmpty hroom₁ hsub
  generalize s₁.setLeases roomId (·.eraseIdx i) = s₂ at hr₂ hwf₂ hshapes₂ hcfg₂ hget₂ hempty ⊢
  rw [eraseIdx_eq_dropLease (h.inv.leased.room hls).1 hi, hr₁] at hr₂
  have hinv₁ := h.inv.tell hσ
  have hindexed₂ : s₂.registry.Indexed := by
    rw [hr₂]
    exact hinv₁.indexed.of_keys (Reg.Pointwise.refl Reg.SameKeys.refl _) rfl rfl rfl rfl rfl
  have howned : s₂.registry.Owned lease.peerId ↔ s.registry.Owned lease.peerId := by
    rw [hr₂]
    constructor
    · rintro ⟨g, d, hg, hp⟩
      obtain ⟨d₀, hd₀, hsend⟩ := hσ.sends.back hg
      exact ⟨g, d₀, hd₀, hsend.sameKeys.peerId.symm.trans hp⟩
    · rintro ⟨g, d, hg, hp⟩
      obtain ⟨d₀, hd₀, hsend⟩ := hσ.sends.forth hg
      exact ⟨g, d₀, hd₀, hsend.sameKeys.peerId.trans hp⟩
  have hstate := findClientByPeerId_state hindexed₂ lease.peerId
  rcases hf : s₂.findClientByPeerId lease.peerId with ⟨client, s₂'⟩
  rw [hf] at hstate
  dsimp only at hstate ⊢
  subst hstate
  generalize hs₃ : (if client.isSome = true then s₂' else s₂'.releasePeerId lease.peerId) = s₃
  obtain ⟨hr₃, hw₃⟩ : s₃.registry = { s₂'.registry with
      free := { i | i ∈ s₂'.registry.free ∨ i = lease.peerId ∧
        ¬ s₂'.registry.Owned lease.peerId } } ∧
      s₃.world = s₂'.world := releaseExpired_spec hindexed₂ h0 (by rw [hf]; exact hs₃.symm)
  have hfinal : s₃.registry = { (s.registry.tell roomId lease.peerId
      (MSG_PEER_LEFT, ByteBuffer.writeU32 lease.peerId) σ').setRoom roomId
      (dropLease lease.peerId room.leases) with
        free := { i | i ∈ s.registry.free ∨ i = lease.peerId ∧
          ¬ s.registry.Owned lease.peerId } } := by
    rw [hr₃, howned, hr₂]
    rfl
  refine ⟨⟨.single ?_, fun hwf => ?_, ?_, ?_, ?_⟩, ?_, ?_⟩
  · rw [hfinal]
    exact .expire hls hl hlive rfl hσ
  · rw [rooms_of_world hw₃]
    exact hwf₂ (hrooms₁ ▸ hwf)
  · rw [rooms_of_world hw₃]
    exact hrooms₁ ▸ hshapes₂
  · exact ((SameConfig.of_world hw₁).trans hcfg₂).trans (SameConfig.of_world hw₃)
  · rw [hfinal]
    exact hσ.sends
  · intro R hR
    have h₂ := hempty R (by rw [hr₁]; exact hR)
    rw [hr₃]
    exact h₂
  · intro id hid
    rw [rooms_of_world hw₃, hget₂, if_neg hid, hrooms₁]

theorem addresses_mapLease {p : Nat} {f : RoomLease → RoomLease} (hf : KeepsLease f)
    (ls : List RoomLease) :
    (mapLease p f ls).map (·.virtualIP) = ls.map (·.virtualIP) := by
  rw [mapLease, List.map_map]
  refine List.map_congr_left fun l _ => ?_
  simp only [Function.comp_apply]
  split
  · exact hf.virtualIP l
  · rfl

/-- **The sweep of a room.** -/
theorem sweepLeases_settles (roomId now rounds : Nat) : ∀ {i : Nat} {s : Server}, Good S s →
    Settles S s (sweepLeases K roomId now rounds i s).2 ∧
      KeepsEmpty s (sweepLeases K roomId now rounds i s).2 ∧
      ∀ id, id ≠ roomId → (sweepLeases K roomId now rounds i s).2.rooms.getRoom id =
      s.rooms.getRoom id := by
  induction rounds with
  | zero => exact fun {i s} _ => ⟨Settles.refl s, fun _ hR => hR, fun _ _ => rfl⟩
  | succ rounds ih =>
    intro i s h
    unfold sweepLeases
    rcases hold : (s.rooms.getRoom roomId).bind (·.leases[i]?) with _ | old
    · exact ⟨Settles.refl s, fun _ hR => hR, fun _ _ => rfl⟩
    obtain ⟨room, hroom, hi⟩ := Option.bind_eq_some_iff.mp hold
    have hls := rooms_registry hroom
    have hnd := (h.inv.leased.room hls).1
    obtain ⟨hstate, hlive⟩ := hasLiveSession_spec h.inv roomId old.peerId
    dsimp only
    rw [hstate]
    generalize (s.hasLiveSession roomId old.peerId).1 = live at hlive ⊢
    obtain ⟨f, hf, hlease, honline⟩ := refreshLease_spec old live now
    rw [hlease]
    -- the lease follows its session
    have hset := set_eq_mapLease (f := f) hnd hi
    have hsub : ((room.leases.set i (f old)).map (·.virtualIP)).Sublist
        (room.leases.map (·.virtualIP)) := by
      rw [hset, addresses_mapLease hf]
    obtain ⟨hr₁, hwf₁, hshapes₁, hcfg₁, hget₁⟩ := setLeases_spec (f := (·.set i (f old))) hroom hsub
    have hempty₁ : KeepsEmpty s (s.setLeases roomId (·.set i (f old))) :=
      setLeases_keepsEmpty hroom hsub
    generalize s.setLeases roomId (·.set i (f old)) = s₁ at hr₁ hwf₁ hshapes₁ hcfg₁ hget₁ hempty₁ ⊢
    have hroom₁ : s₁.rooms.getRoom roomId = some { room with
        leases := room.leases.set i (f old) } := by
      rw [hget₁, if_pos rfl]
    have hother₁ : ∀ id, id ≠ roomId → s₁.rooms.getRoom id = s.rooms.getRoom id := fun id hid => by
      rw [hget₁, if_neg hid]
    have hsettle₁ : Settles S s s₁ := by
      refine ⟨.single ?_, hwf₁, hshapes₁, hcfg₁, ?_⟩
      · rw [hr₁, hset]
        exact .flag hls (List.mem_of_getElem? hi) hf (honline.trans hlive)
      · rw [hr₁]
        exact Reg.Pointwise.refl Reg.Sends.refl _
    have hgood₁ := h.settle hsettle₁
    split
    · next hexp =>
      have hoff : (f old).online = false := by
        simp only [leaseExpired, Bool.and_eq_true, Bool.not_eq_true'] at hexp
        exact hexp.1
      have hi₁ : (room.leases.set i (f old))[i]? = some (f old) := by
        rw [List.getElem?_set_self]
        exact (List.getElem?_eq_some_iff.mp hi).1
      have hlive₁ : ¬ s₁.registry.LiveIn roomId (f old).peerId := by
        rw [hr₁, hf.peerId]
        intro hl'
        have hon := honline.mpr (hlive.mpr hl')
        rw [hoff] at hon
        cases hon
      obtain ⟨hsettle₂, hempty₂, hother₂⟩ := expireLease_settles K hgood₁ hroom₁ hi₁ hlive₁
      obtain ⟨hsettle₃, hempty₃, hother₃⟩ := ih (i := i) (hgood₁.settle hsettle₂)
      refine ⟨(hsettle₁.trans hsettle₂).trans hsettle₃,
        fun R hR => hempty₃ R (hempty₂ R (hempty₁ R hR)), ?_⟩
      exact fun id hid => (hother₃ id hid).trans ((hother₂ id hid).trans (hother₁ id hid))
    · obtain ⟨hsettle₂, hempty₂, hother₂⟩ := ih (i := i + 1) hgood₁
      exact ⟨hsettle₁.trans hsettle₂, fun R hR => hempty₂ R (hempty₁ R hR),
        fun id hid => (hother₂ id hid).trans (hother₁ id hid)⟩

/-- Where the sweep over the rooms stands: the rooms to erase are empty, and
    all others settled. -/
structure Sweeping (S : Reg.Scope) (s : Server) (acc : Bool × List Nat × Server) : Prop where
  settles : Settles S s acc.2.2
  empty : ∀ R ∈ acc.2.1, acc.2.2.registry.rooms R = some []
  housed : s.rooms.Housed → ∀ {R r}, acc.2.2.rooms.getRoom R = some r → R ∈ acc.2.1 ∨ r.Settled

theorem sweepRoom_sweeping {s : Server} (h : Good S s) {now : Nat} {acc : Bool × List Nat × Server}
    (hacc : Sweeping S s acc) (roomId : Nat) : Sweeping S s (sweepRoom K now acc roomId) := by
  obtain ⟨changed, emptyRooms, s₀⟩ := acc
  obtain ⟨hsettle₀, hempty₀, hhoused₀⟩ := hacc
  dsimp only at hsettle₀ hempty₀ hhoused₀
  unfold sweepRoom
  dsimp only
  rcases hroom : s₀.rooms.getRoom roomId with _ | room
  · exact ⟨hsettle₀, hempty₀, hhoused₀⟩
  dsimp only
  have hgood₀ := h.settle hsettle₀
  obtain ⟨hsettle₁, hempty₁, hother₁⟩ := sweepLeases_settles K roomId now room.leases.length
    (i := 0) hgood₀
  rcases hsw : sweepLeases K roomId now room.leases.length 0 s₀ with ⟨c, s₁⟩
  rw [hsw] at hsettle₁ hempty₁ hother₁
  dsimp only at hsettle₁ hempty₁ hother₁ ⊢
  rcases hroom₁ : s₁.rooms.getRoom roomId with _ | room₁
  · refine ⟨hsettle₀.trans hsettle₁, fun R hR => hempty₁ R (hempty₀ R hR), fun hh {R r} hr => ?_⟩
    have hne : R ≠ roomId := by
      rintro rfl
      rw [hroom₁] at hr
      cases hr
    rw [hother₁ R hne] at hr
    exact hhoused₀ hh hr
  dsimp only
  have hls₁ := rooms_registry hroom₁
  have hreg : (s₁.setRoom roomId room₁.ensureHost).registry = s₁.registry := by
    rw [registry_setRoom, Room.ensureHost_leases, Reg.setRoom,
      Function.update_eq_self_iff.mpr hls₁.symm]
  have hshape := (Room.Shrinks.refl room₁).ensureHost
  have hsettle₂ : Settles S s₁ (s₁.setRoom roomId room₁.ensureHost) := by
    refine ⟨by rw [hreg], fun hwf => hwf.setRoom hroom₁ hshape.id hshape.listable,
      .setRoom hroom₁ hshape.toSameShape, ⟨rfl, rfl, rfl, rfl⟩, ?_⟩
    rw [hreg]
    exact Reg.Pointwise.refl Reg.Sends.refl _
  refine ⟨(hsettle₀.trans hsettle₁).trans hsettle₂, fun R hR => ?_, fun hh {R r} hr => ?_⟩
  · dsimp only at hR ⊢
    rw [hreg]
    rw [Room.ensureHost_leases] at hR
    split at hR
    · next hnil =>
      rcases List.mem_append.mp hR with hR | hR
      · exact hempty₁ R (hempty₀ R hR)
      · rw [List.mem_singleton.mp hR, hls₁, hnil]
    · exact hempty₁ R (hempty₀ R hR)
  · dsimp only [setRoom] at hr ⊢
    rw [RoomManager.getRoom_setRoom] at hr
    rw [Room.ensureHost_leases]
    split at hr
    · next heq =>
      cases hr
      split
      · exact Or.inl (List.mem_append_right _ (by simp [heq]))
      · next hne => exact Or.inr (Room.settled_ensureHost hne)
    · next hne =>
      rw [hother₁ R hne] at hr
      rcases hhoused₀ hh hr with hin | hset
      · refine Or.inl ?_
        split
        · exact List.mem_append_left _ hin
        · exact hin
      · exact Or.inr hset

theorem foldl_sweepRoom_sweeping {s : Server} (h : Good S s) {now : Nat} (ids : List Nat) :
    ∀ {acc : Bool × List Nat × Server}, Sweeping S s acc →
    Sweeping S s (ids.foldl (sweepRoom K now) acc) := by
  induction ids with
  | nil => exact fun hacc => hacc
  | cons id ids ih => exact fun hacc => ih (sweepRoom_sweeping K h hacc id)

/-- Erasing rooms that are empty, or gone already. -/
theorem foldl_eraseRoom_settles (ids : List Nat) : ∀ {s : Server},
    (∀ R ∈ ids, s.registry.rooms R = some [] ∨ s.registry.rooms R = none) →
      Settles S s (ids.foldl (fun s roomId => { s with rooms := s.rooms.eraseRoom roomId }) s) := by
  induction ids with
  | nil => exact fun {s} _ => Settles.refl s
  | cons R ids ih =>
    intro s hempty
    have hreg := registry_eraseRoom s R
    have hsettle : Settles S s { s with rooms := s.rooms.eraseRoom R } := by
      rcases hempty R (List.mem_cons_self ..) with hR | hR
      · refine ⟨.single ?_, fun hwf => hwf.eraseRoom R, .eraseRoom _ R, ⟨rfl, rfl, rfl, rfl⟩,
          Reg.Pointwise.refl Reg.Sends.refl _⟩
        rw [hreg]
        exact .eraseRoom hR
      · refine ⟨?_, fun hwf => hwf.eraseRoom R, .eraseRoom _ R, ⟨rfl, rfl, rfl, rfl⟩,
          Reg.Pointwise.refl Reg.Sends.refl _⟩
        rw [hreg, Function.update_eq_self_iff.mpr hR.symm]
    refine hsettle.trans (ih fun R' hR' => ?_)
    rw [hreg]
    simp only [Function.update_apply]
    split
    · exact Or.inr rfl
    · exact hempty R' (List.mem_cons_of_mem _ hR')

/-- The rooms that are left after erasing were there, and not to be erased. -/
theorem getRoom_foldl_eraseRoom (ids : List Nat) : ∀ {s : Server} {R : Nat} {r : Room},
    (ids.foldl (fun s roomId => { s with rooms := s.rooms.eraseRoom roomId }) s).rooms.getRoom R =
    some r →
      R ∉ ids ∧ s.rooms.getRoom R = some r := by
  induction ids with
  | nil => exact fun hr => ⟨List.not_mem_nil, hr⟩
  | cons id ids ih =>
    intro s R r hr
    obtain ⟨hnot, hr⟩ := ih hr
    dsimp only at hr
    rw [RoomManager.getRoom_eraseRoom] at hr
    split at hr
    · cases hr
    · next hne => exact ⟨List.not_mem_cons_of_ne_of_not_mem hne hnot, hr⟩

/-- **The sweep of expired leases.** -/
theorem cleanupExpiredLeases_settles {s : Server} (h : Good S s) (now : Nat) :
    Settles S s (s.cleanupExpiredLeases K now) ∧
      (s.rooms.Housed → (s.cleanupExpiredLeases K now).rooms.Housed) := by
  have hsweep : Sweeping S s (s.rooms.rooms.keys.foldl (sweepRoom K now) (false, [], s)) :=
    foldl_sweepRoom_sweeping K h s.rooms.rooms.keys ⟨Settles.refl s, by simp,
      fun hh _ _ hr => Or.inr (hh hr)⟩
  unfold cleanupExpiredLeases
  rcases hf : s.rooms.rooms.keys.foldl (sweepRoom K now) (false, [], s) with
    ⟨changed, emptyRooms, s₁⟩
  rw [hf] at hsweep
  obtain ⟨hsettle₁, hempty₁, hhoused₁⟩ := hsweep
  dsimp only at hsettle₁ hempty₁ hhoused₁ ⊢
  have hsettle₂ :=
    hsettle₁.trans (foldl_eraseRoom_settles emptyRooms fun R hR => Or.inl (hempty₁ R hR))
  have hhoused₂ : s.rooms.Housed →
      (emptyRooms.foldl (fun s roomId => { s with
        rooms := s.rooms.eraseRoom roomId }) s₁).rooms.Housed := by
    intro hh R r hr
    obtain ⟨hnot, hr⟩ := getRoom_foldl_eraseRoom emptyRooms hr
    exact (hhoused₁ hh hr).resolve_left hnot
  split
  · have hstill := broadcastRoomListPush_still K
      (emptyRooms.foldl (fun s roomId => { s with rooms := s.rooms.eraseRoom roomId }) s₁)
    refine ⟨hsettle₂.trans hstill.settles, fun hh => ?_⟩
    rw [hstill.rooms]
    exact hhoused₂ hh
  · exact ⟨hsettle₂, hhoused₂⟩

theorem cleanupExpiredLeases_evolves {s : Server} (h : Good S s) (now : Nat) :
    Evolves S s (s.cleanupExpiredLeases K now) :=
  (cleanupExpiredLeases_settles K h now).1.evolves (cleanupExpiredLeases_settles K h now).2

end Server

end VlanConnect

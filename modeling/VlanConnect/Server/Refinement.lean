/-
  VlanConnect/Server/Refinement.lean
  ==================================
  **Every step of the server is a run of the registry.**

  The remaining events (writable sockets, hangups, timeouts), then one theorem
  for the event loop, and from it, by induction, what holds of every reachable
  state.  The registry lets a session be lost with its id (`Scope.Loses`);
  `Closes` says which sessions an event can close at all.
-/
import VlanConnect.Server.EventRuns

namespace VlanConnect

namespace Server

open Registry

variable (K : Crypto) {S : Reg.Scope}

/-- The event ends the session `fd` without a logout. -/
def Closes (s : Server) (fd : Fd) : Event → Prop
  | .readable g chunk => g = fd ∧ fd ∉ s.pending ∧ fd ∉ s.dataFdMap ∧
      ((s.client fd).alive = false ∨ (s.client fd).state ≠ .closing ∧ chunk = [])
  | .writable g => g = fd ∧ fd ∉ s.pending ∧ ((s.flushSendBuf fd).client fd).alive = false
  | .hangup g => g = fd ∧ fd ∉ s.pending ∧ fd ∉ s.dataFdMap
  | .timer => (s.clients.keys.foldl (expireHandshake s.time.1) s).timedOut s.time.1 fd = true
  | .resume =>
    match s.control with
    | .signal g => g = fd ∧ probeFrame (s.client fd).recvBuf = .corrupted
    | .handled g _ => g = fd ∧ (s.client fd).alive = false
    | _ => False
  | _ => False

/-- The event is about the session `fd`. -/
def Concerns (s : Server) (fd : Fd) : Event → Prop
  | .readable g _ | .writable g | .hangup g => g = fd
  | .timer => True
  | .resume => s.control = .signal fd ∨ ∃ frameLen, s.control = .handled fd frameLen
  | _ => False

/-- The step calls the handler of this message of the session, in `s'`. -/
structure Receives (s : Server) (fd : Fd) (msgType : UInt8) (payload : Bytes) (s' : Server) :
    Prop where
  control : s.control = .signal fd
  frame : ∃ f, probeFrame (s.client fd).recvBuf = .frame f ∧ f.msgType = MSG_ENCRYPTED ∧
    s.Opens K fd f.payload msgType payload s'
  allowed : isClientSignalMessageAllowed (s.client fd).state msgType = true

/-- Opening a frame changes nothing that the registry sees. -/
theorem Opens.same {s s' : Server} {fd : Fd} {frame : Bytes} {msgType : UInt8} {payload : Bytes}
    (h : s.Opens K fd frame msgType payload s') :
    s'.registry = s.registry ∧ s'.world = s.world := by
  unfold Opens decryptClientFrame at h
  have hidle := time_idle s
  generalize s.time = time at hidle h
  dsimp only at h
  split at h
  · cases h
    refine ⟨?_, hidle.world⟩
    refine (registry_act rfl rfl).trans ?_
    refine (registry_modify_same ?_).trans ((registry_modify_same ?_).trans hidle.registry)
    · exact fun _ => rfl
    · exact fun _ => rfl
  · cases h

theorem toSess_client {s s' : Server} (h : s'.registry = s.registry) (fd : Fd) :
    (s'.client fd).toSess = (s.client fd).toSess := by
  have hfd : (s'.clients[fd]?).map ClientSession.toSess =
      (s.clients[fd]?).map ClientSession.toSess :=
    congrFun (congrArg Reg.sessions h) fd
  unfold client
  rcases hc : s.clients[fd]? with _ | c
  · rw [hc] at hfd
    rw [Option.map_eq_none_iff.mp hfd]
  · rw [hc] at hfd
    obtain ⟨c', hc', heq⟩ := Option.map_eq_some_iff.mp hfd
    rw [hc']
    exact heq

/-- The step hands relayed data of the session's data channel to its handler. -/
structure Relays (s : Server) (fd : Fd) (payload : Bytes) : Prop where
  control : s.control = .data fd
  secure : (s.client fd).serverAuthOk = true ∧ (s.client fd).secureEnabled = true
  frame : ∃ f, probeFrame (s.client fd).dataRecvBuf = .frame f ∧ f.msgType = MSG_ENCRYPTED ∧
    ((s.client fd).dataCipher.decrypt K f.payload []).1 = some (MSG_TCP_RELAY_DATA :: payload)
  inRoom : (s.client fd).state = .inRoom

/-- The scope covers what the event gives the right to. -/
structure Allows (S : Reg.Scope) (s : Server) (e : Event) : Prop where
  auth : ∀ t sid, Authentic K s.serverAuthHash s.serverAuthSalt t sid → S.Auth t sid
  accepts : ∀ {fd ip}, e = .accept fd ip → S.Accepts fd
  promotes : ∀ {fd chunk}, e = .readable fd chunk → fd ∈ s.pending → S.Promotes fd
  ends : ∀ {fd}, s.Concerns fd e → S.Ends fd
  loses : ∀ {fd c}, s.Closes fd e → s.registry.sessions fd = some c →
      s.registry.Orphan c → S.Loses fd
  permits : ∀ {fd msgType p s'}, e = .resume → s.Receives K fd msgType p s' →
      Permits K S s' fd msgType p
  relays : ∀ {fd p}, e = .resume → s.Relays K fd p → S.Calls fd (MSG_TCP_RELAY_DATA, p)

/-! ### Writable sockets -/

theorem orphan_of_sends {r r' : Reg} {c c' : Sess} (h : Reg.Sends c c') (hr : r'.rooms = r.rooms)
    (ho : r'.Orphan c') : r.Orphan c := by
  obtain ⟨ext, lost, hd⟩ := h
  rw [hd.same] at ho
  have hlease : ∀ {R p}, r'.HasLease R p → r.HasLease R p := by
    rintro R p ⟨l, ⟨ls, hls, hl⟩, hp⟩
    exact ⟨l, ⟨ls, hr ▸ hls, hl⟩, hp⟩
  have hback : ∀ {R p}, r.HasLease R p → r'.HasLease R p := by
    rintro R p ⟨l, ⟨ls, hls, hl⟩, hp⟩
    exact ⟨l, ⟨ls, hr ▸ hls, hl⟩, hp⟩
  obtain ⟨hp, hno, hroom⟩ := ho
  exact ⟨hp, fun hl => hno (hback hl), fun hn => hroom ⟨hn.1, hr ▸ hn.2⟩⟩

theorem flushSendBuf_silent {s : Server} {fd : Fd} {c : ClientSession}
    (hc : s.clients[fd]? = some c) :
    Silent s (s.flushSendBuf fd) := (flushSendBuf_only hc).silent hc Dies.quiet

theorem handleWritable_evolves {s : Server} (h : Good S s) (fd : Fd) (hend : S.Ends fd)
    (hlose : ((s.flushSendBuf fd).client fd).alive = false →
      ∀ {c}, s.registry.sessions fd = some c → s.registry.Orphan c → S.Loses fd) :
    Evolves S s (s.handleWritable fd) := by
  unfold handleWritable
  split
  · next hmem =>
    obtain ⟨c, hc⟩ := exists_client hmem
    have hsil := flushSendBuf_silent hc
    obtain ⟨c', hc', hd, _, _⟩ := flushSendBuf_only hc
    have hrooms : (s.flushSendBuf fd).registry.rooms = s.registry.rooms := by
      funext R
      simp only [registry, rooms_of_world hsil.world]
    generalize s.flushSendBuf fd = s₁ at hlose hsil hc' hrooms ⊢
    have h₁ := h.evolve (S := S) hsil.evolves
    dsimp only
    rw [client_eq hc'] at hlose ⊢
    split
    · next ha =>
      refine hsil.evolves.trans (handleClientDisconnect_evolves h₁ hend ?_)
      intro d hd' ho
      rw [sessions_registry hc'] at hd'
      cases hd'
      exact hlose (by simpa using ha) (sessions_registry hc) (orphan_of_sends ⟨_, _, hd⟩ hrooms ho)
    split
    · next hst => exact hsil.evolves.trans (destroyClosing_evolves h₁ hc' hst.1 hend)
    split
    · exact hsil.evolves.trans (kill_evolves hc')
    · exact hsil.evolves
  · rw [findClientOwnerByDataFd_eq h.inv.indexed]
    rcases hk : s.dataFdMap[fd]? with _ | o
    · exact Evolves.refl s
    obtain ⟨c, hc, _⟩ := client_of_dataFdMap h.inv.indexed hk
    dsimp only
    rw [findClientByDataFd_eq h.inv.indexed, hk]
    dsimp only
    split
    · exact closeDataChannel_evolves h.inv hc
    next g hg =>
    obtain ⟨heq, _⟩ := Option.filter_eq_some_iff.mp hg
    cases heq
    have hlast := flushDataSendBuf_lasts h.inv hc
    obtain ⟨c', hc'⟩ := hlast.keeps.client hc
    generalize s.flushDataSendBuf o = res at hlast hc' ⊢
    split
    · exact hlast.evolves.trans (closeDataChannel_evolves (h.evolve hlast.evolves).inv hc')
    · exact hlast.evolves

/-! ### Timeouts -/

theorem expireHandshake_silent (s : Server) (now : Nat) (fd : Fd) :
    Silent s (expireHandshake now s fd) := by
  unfold expireHandshake
  dsimp only
  split
  · rcases hc : s.clients[fd]? with _ | c
    · refine Silent.of_registry ?_ rfl
      refine Reg.ext ?_ rfl rfl rfl rfl rfl rfl rfl rfl rfl rfl
      funext g
      by_cases hg : g = fd
      · subst hg
        simp [registry, sessionsOf, kill, modify, hc]
      · simp only [registry, sessionsOf, kill, clients_modify_of_ne hg]
    · exact kill_silent hc
  · exact Silent.refl s

theorem foldl_expireHandshake_silent (now : Nat) (fds : List Fd) : ∀ s : Server,
    Silent s (fds.foldl (expireHandshake now) s) := by
  induction fds with
  | nil => exact Silent.refl
  | cons fd fds ih => exact fun s => (expireHandshake_silent s now fd).trans (ih _)

/-- Another session keeps its lease when one is closed. -/
theorem handleClientDisconnect_orphan {s : Server} (h : Good S s) {fd g : Fd} (hg : g ≠ fd)
    {c : Sess} (hend : S.Ends fd)
    (hlose : ∀ {c}, s.registry.sessions fd = some c → s.registry.Orphan c → S.Loses fd)
    (hc : (s.handleClientDisconnect fd).registry.sessions g = some c)
    (ho : (s.handleClientDisconnect fd).registry.Orphan c) :
    s.registry.sessions g = some c ∧ s.registry.Orphan c := by
  unfold handleClientDisconnect at hc ho
  split at hc
  · next hmem =>
    rw [if_pos hmem] at ho
    exact ⟨hc, ho⟩
  next hmem =>
  rw [if_neg hmem] at ho
  obtain ⟨d, hd⟩ := exists_client (not_not.mp hmem)
  rw [client_eq hd] at hc ho
  generalize hr : (if d.state = .closing then DisconnectReason.logoutComplete else .network) =
    reason at hc ho
  have hreason : reason = .logoutComplete → d.state = .closing := by
    subst hr
    split
    · next hst => exact fun _ => hst
    · intro hr
      cases hr
  have htake : reason ≠ .takeover := by
    subst hr
    split <;> simp
  obtain ⟨_, hsess, now, hrooms⟩ := destroyClient_spec h hd hreason (fun hr => absurd hr htake)
    (hlose (sessions_registry hd)) (Or.inl hend)
  rw [hsess, Function.update_of_ne hg] at hc
  refine ⟨hc, ho.1, fun hl => ho.2.1 ?_, fun hn => ho.2.2 ⟨hn.1, ?_⟩⟩
  · obtain ⟨l, ⟨ls, hls, hl⟩, hp⟩ := hl
    by_cases hR : c.home = d.toSess.home
    · rw [hR] at hls
      refine ⟨_, ⟨mapLease d.peerId (·.markOffline now) ls, ?_, List.mem_map_of_mem hl⟩, ?_⟩
      · rw [hrooms, hR, Function.update_self, hls]
        rfl
      · split
        · exact hp
        · exact hp
    · exact ⟨l, ⟨ls, by rw [hrooms, Function.update_of_ne hR]; exact hls, hl⟩, hp⟩
  · rw [hrooms]
    by_cases hR : c.home = d.toSess.home
    · rw [hR, Function.update_self, ← hR, hn.2]
      rfl
    · rw [Function.update_of_ne hR]
      exact hn.2

theorem foldl_handleClientDisconnect_evolves (hend : ∀ fd, S.Ends fd) (fds : List Fd) :
    ∀ {s : Server}, Good S s → fds.Nodup →
    (∀ {fd c}, fd ∈ fds → s.registry.sessions fd = some c → s.registry.Orphan c → S.Loses fd) →
    Evolves S s (fds.foldl handleClientDisconnect s) := by
  induction fds with
  | nil => exact fun {s} _ _ _ => Evolves.refl s
  | cons fd fds ih =>
    intro s h hnodup hlose
    rw [List.nodup_cons] at hnodup
    have hfd : ∀ {c}, s.registry.sessions fd = some c → s.registry.Orphan c → S.Loses fd :=
      hlose List.mem_cons_self
    have hev := handleClientDisconnect_evolves h (hend fd) hfd
    refine hev.trans (ih (h.evolve hev) hnodup.2 ?_)
    intro g c hg hc ho
    have hne : g ≠ fd := fun heq => hnodup.1 (heq ▸ hg)
    obtain ⟨hc, ho⟩ := handleClientDisconnect_orphan h hne (hend fd) hfd hc ho
    exact hlose (List.mem_cons_of_mem fd hg) hc ho

theorem foldl_removePending_evolves (fds : List Fd) : ∀ {s : Server}, Good S s →
    Evolves S s (fds.foldl (fun s fd => s.removePending fd true) s) := by
  induction fds with
  | nil => exact fun {s} _ => Evolves.refl s
  | cons fd fds ih =>
    intro s h
    have hev := removePending_evolves h fd
    exact hev.trans (ih (h.evolve hev))

theorem registry_rooms_of_world {s s' : Server} (h : s'.world = s.world) :
    s'.registry.rooms = s.registry.rooms := by
  funext R
  simp only [registry, rooms_of_world h]

theorem foldl_expireHandshake_time (s : Server) (now : Nat) (fds : List Fd) {s' : Server}
    (h : s'.clients = s.clients) :
    (fds.foldl (expireHandshake now) s').clients = (fds.foldl (expireHandshake now) s).clients := by
  induction fds generalizing s s' with
  | nil => exact h
  | cons fd fds ih =>
    refine ih _ ?_
    unfold expireHandshake client
    rw [h]
    dsimp only
    split
    · simp only [kill, modify, h]
    · exact h

/-- The part of `checkTimeouts` before the sweep of the leases. -/
def closeTimedOut (s : Server) : Server :=
  let (now, s) := s.time
  let s := s.clients.keys.foldl (expireHandshake now) s
  let dead := s.clients.keys.filter (s.timedOut now)
  let s := dead.foldl handleClientDisconnect s
  let deadPending :=
    (s.pending.toList.filter fun (_, pc) => decide (10 < now - pc.created)).map Prod.fst
  deadPending.foldl (fun s fd => s.removePending fd true) s

theorem checkTimeouts_eq (s : Server) :
    s.checkTimeouts K = (s.closeTimedOut.cleanupExpiredLeases K s.time.1).cleanupIpStates
    s.time.1 := rfl

theorem closeTimedOut_evolves {s : Server} (h : Good S s) (hS : Allows K S s .timer) :
    Evolves S s s.closeTimedOut := by
  unfold closeTimedOut
  have hidle := time_idle s
  have hcloses :
    ∀ fd, (s.time.2.clients.keys.foldl (expireHandshake s.time.1) s.time.2).timedOut s.time.1 fd =
    true →
      s.Closes fd .timer := by
    intro fd hfd
    have hsame := foldl_expireHandshake_time s s.time.1 s.clients.keys hidle.clients
    rw [hidle.clients] at hfd
    unfold Closes
    unfold timedOut client at hfd ⊢
    rw [hsame] at hfd
    exact hfd
  generalize s.time = time at hidle hcloses ⊢
  obtain ⟨now, s₀⟩ := time
  dsimp only at hidle hcloses ⊢
  -- the missed deadlines
  have hsil : Silent s (s₀.clients.keys.foldl (expireHandshake now) s₀) :=
    hidle.silent.trans (foldl_expireHandshake_silent now _ s₀)
  generalize s₀.clients.keys.foldl (expireHandshake now) s₀ = s₁ at hsil hcloses ⊢
  have h₁ := h.evolve (S := S) hsil.evolves
  -- the dead sessions
  have hdead :
      Evolves S s₁ ((s₁.clients.keys.filter (s₁.timedOut now)).foldl
        handleClientDisconnect s₁) := by
    refine foldl_handleClientDisconnect_evolves (fun _ => hS.ends trivial) _ h₁
      (Std.ExtTreeMap.nodup_keys.filter _) ?_
    intro fd c hfd hc ho
    obtain ⟨d, hd, hq⟩ := Reg.Pointwise.back hsil.sessions hc
    exact hS.loses (hcloses fd (List.of_mem_filter hfd)) hd
      (orphan_of_sends (Reg.Sends.of_quiet hq) (registry_rooms_of_world hsil.world) ho)
  generalize (s₁.clients.keys.filter (s₁.timedOut now)).foldl handleClientDisconnect s₁ =
    s₂ at hdead ⊢
  have hev₂ := hsil.evolves.trans hdead
  have h₂ := h.evolve hev₂
  -- the connections that never spoke
  have hpend := foldl_removePending_evolves
    ((s₂.pending.toList.filter fun (_, pc) => decide (10 < now - pc.created)).map Prod.fst) h₂
  generalize ((s₂.pending.toList.filter fun (_, pc) => decide (10 < now - pc.created)).map
    Prod.fst).foldl
    (fun s fd => s.removePending fd true) s₂ = s₃ at hpend ⊢
  exact hev₂.trans hpend

theorem checkTimeouts_evolves {s : Server} (h : Good S s) (hS : Allows K S s .timer) :
    Evolves S s (s.checkTimeouts K) := by
  rw [checkTimeouts_eq]
  have hev := closeTimedOut_evolves K h hS
  exact (hev.trans (cleanupExpiredLeases_evolves K (h.evolve hev) s.time.1)).trans
    (ipStates_idle _ _).evolves

/-! ### The event loop -/

theorem readable_lands {s : Server} (h : Good S s) (hidle : s.control = .idle) {fd : Fd}
    {chunk : Bytes} (hS : Allows K S s (.readable fd chunk)) :
    Lands S s (s.readable K fd chunk) := by
  unfold readable
  split
  · exact handlePendingData_lands K h hidle chunk (hS.promotes rfl)
  next hp =>
  split
  · exact handleDataChannelData_lands h hidle fd chunk
  next hd => exact handleClientData_lands h hidle chunk (hS.ends rfl) fun hclose => hS.loses ⟨rfl,
    hp, hd, hclose⟩

theorem hangup_lands {s : Server} (h : Good S s) (hidle : s.control = .idle) {fd : Fd}
    (hS : Allows K S s (.hangup fd)) : Lands S s (s.hangup fd) := by
  unfold hangup
  split
  · exact (removePending_evolves h fd).lands hidle
  next hp =>
  split
  · exact (handleDataChannelDisconnect_lasts h fd).evolves.lands hidle
  next hd => exact (handleClientDisconnect_evolves h (hS.ends rfl)
    (hS.loses ⟨rfl, hp, hd⟩)).lands hidle

/-- **An event is a run of the registry.** -/
theorem handle_lands {s : Server} (h : Good S s) (hctl : s.ControlOk) {e : Event} (he : s.Enabled e)
    (hS : Allows K S s e) : Lands S s (s.handle K e) := by
  cases e with
  | accept fd ip => exact (handleTcpAccept_evolves he.2 (hS.accepts rfl) ip).lands he.1
  | datagram sender data => exact (handleUdpPacket_silent K h sender data).evolves.lands he
  | readable fd chunk => exact readable_lands K h he hS
  | writable fd =>
    show Lands S s (if fd ∈ s.pending then s else s.handleWritable fd)
    split
    · exact (Evolves.refl s).lands he
    next hp => exact (handleWritable_evolves h fd (hS.ends rfl) fun ha => hS.loses ⟨rfl, hp,
      ha⟩).lands he
  | hangup fd => exact hangup_lands K h he hS
  | timer => exact (checkTimeouts_evolves K h hS).lands he
  | resume =>
    unfold handle
    unfold ControlOk at hctl
    rcases hc : s.control with _ | fd | ⟨fd, frameLen⟩ | fd
    · exact absurd hc he
    · rw [hc] at hctl
      obtain ⟨c, hcl, ha, _⟩ := hctl
      refine signalRound_lands K h hS.auth hcl ha (hS.ends (Or.inl hc)) ?_ fun hprobe => hS.loses ?_
      · intro f innerType innerPayload s' hprobe hm hopens hallowed
        refine hS.permits rfl ⟨hc, ⟨f, ?_, hm, hopens⟩, ?_⟩
        · rw [client_eq hcl]
          exact hprobe
        · rw [client_eq hcl]
          exact hallowed
      · rw [Closes, hc, client_eq hcl]
        exact ⟨rfl, hprobe⟩
    · rw [hc] at hctl
      obtain ⟨c, hcl⟩ := exists_client hctl
      refine signalRoundEnd_lands h hcl frameLen (hS.ends (Or.inr ⟨frameLen, hc⟩)) fun ha =>
        hS.loses ?_
      rw [Closes, hc, client_eq hcl]
      exact ⟨rfl, ha⟩
    · rw [hc] at hctl
      obtain ⟨c, hcl⟩ := exists_client hctl
      refine dataRound_lands K h hc hcl fun hprobe hauth hsecure hm hplain hst =>
        hS.relays rfl ⟨hc, ?_, ?_, ?_⟩
      · rw [client_eq hcl]
        exact ⟨hauth, hsecure⟩
      · rw [client_eq hcl]
        exact ⟨_, hprobe, hm, hplain⟩
      · rw [client_eq hcl]
        exact hst

/-! ### Reachable states -/

/-- What holds of the server after any number of steps. -/
structure Sound (S : Reg.Scope) (limits : ServerLimits) (hash salt : Bytes) (s : Server) :
    Prop where
  good : Good S s
  housed : s.rooms.Housed
  control : s.ControlOk
  limits : s.limits = limits
  hash : s.serverAuthHash = hash
  salt : s.serverAuthSalt = salt

theorem inv_start (limits : ServerLimits) (hash salt : Bytes) :
    (start limits hash salt).registry.Inv S := by
  have hsess : ∀ fd, (start limits hash salt).registry.sessions fd = none := by
    intro fd
    simp [registry, sessionsOf, start]
  have hroom : ∀ R, (start limits hash salt).registry.rooms R = none := by
    intro R
    simp [registry, start, RoomManager.getRoom]
  have hlease : ∀ {R l}, ¬ (start limits hash salt).registry.Lease R l := by
    rintro R l ⟨ls, hls, _⟩
    rw [hroom R] at hls
    cases hls
  refine ⟨?_, ?_, ?_⟩
  · constructor
    case pending_fd =>
      intro fd hfd
      simp [registry, start] at hfd
    all_goals simp only [hsess]
    all_goals simp [registry, start]
  · constructor
    case next_pos => exact Nat.one_pos
    case free =>
      intro i hi
      simp [registry, start] at hi
    all_goals simp [hsess, hroom, hlease]
  · intro fd c hc
    rw [hsess fd] at hc
    cases hc

theorem sound_start (limits : ServerLimits) (hash salt : Bytes) :
    Sound S limits hash salt (start limits hash salt) := by
  refine ⟨⟨inv_start limits hash salt, RoomManager.WF.empty limits.maxRooms⟩, ?_, trivial,
    rfl, rfl, rfl⟩
  intro id r hr
  simp [start, RoomManager.getRoom] at hr

theorem registry_prepare (s : Server) (env : Env) :
    (s.prepare env).registry = { s.registry with notices := [], calls := [] } := rfl

theorem Good.prepare {s : Server} (h : Good S s) (env : Env) : Good S (s.prepare env) := by
  refine ⟨?_, h.rooms⟩
  rw [registry_prepare]
  exact ⟨h.inv.indexed.of_keys (Reg.Pointwise.refl Reg.SameKeys.refl _) rfl rfl rfl rfl rfl,
    h.inv.leased.of_stays (Reg.Pointwise.refl Reg.Stays.refl _) rfl rfl rfl, h.inv.wf⟩

theorem enabled_prepare {s : Server} {e : Event} (he : s.Enabled e) (env : Env) :
    (s.prepare env).Enabled e := by
  cases e <;> exact he

/-- A step, from the state in which its event is handled. -/
theorem step_lands {s : Server} {limits : ServerLimits} {hash salt : Bytes}
    (h : Sound S limits hash salt s) {env : Env} {e : Event} (he : s.Enabled e)
    (hS : Allows K S (s.prepare env) e) :
    Lands S (s.prepare env) (s.step K env e) :=
  handle_lands K (h.good.prepare env) h.control (enabled_prepare he env) hS

theorem step_sound {s : Server} {limits : ServerLimits} {hash salt : Bytes}
    (h : Sound S limits hash salt s) {env : Env} {e : Event} (he : s.Enabled e)
    (hS : Allows K S (s.prepare env) e) :
    Sound S limits hash salt (s.step K env e) := by
  have hl := step_lands K h he hS
  have hcfg := hl.evolves.config
  exact ⟨(h.good.prepare env).land hl, hl.evolves.rooms.housed h.housed, hl.control,
    hcfg.limits.trans h.limits, hcfg.hash.trans h.hash,
    hcfg.salt.trans h.salt⟩

/-- What a step of the server may do, and no more. -/
def stepScope (s : Server) (e : Event) : Reg.Scope where
  Auth := Authentic K s.serverAuthHash s.serverAuthSalt
  Accepts fd := ∃ ip, e = .accept fd ip
  Promotes fd := fd ∈ s.pending ∧ ∃ chunk, e = .readable fd chunk
  Ends fd := s.Concerns fd e
  Loses fd := ∃ c, s.Closes fd e ∧ s.registry.sessions fd = some c ∧ s.registry.Orphan c
  Fresh fd peerId := ∃ p s', s.Receives K fd MSG_LOGIN p s' ∧ s'.allocatePeerId.1 = peerId
  Resumes fd R lease := ∃ p s' req r, s.Receives K fd MSG_LOGIN p s' ∧
    ByteBuffer.parse readLogin p = some req ∧
    req.resume = some r ∧ r.roomId = R ∧ s'.Asks r lease
  Reenters fd R lease := ∃ p s' r, s.Receives K fd MSG_RESUME_ROOM p s' ∧
    ByteBuffer.parse readResumeRequest p = some r ∧ r.roomId = R ∧ s'.Asks r lease ∧
      (s'.client fd).resumeRoomId = r.roomId ∧ (s'.client fd).peerId = r.peerId ∧
      (s'.client fd).resumeToken = r.token
  Creates fd peerId R := ∃ p s', s.Receives K fd MSG_CREATE_ROOM p s' ∧
    (s'.client fd).peerId = peerId ∧
    s'.rooms.getRoom R = none
  Leaves fd :=
    ∃ msgType p s', s.Receives K fd msgType p s' ∧ (msgType = MSG_LEAVE_ROOM ∨ msgType = MSG_LOGOUT)
  Joins fd peerId R := ∃ msgType p s' room, s.Receives K fd msgType p s' ∧
    (s'.client fd).peerId = peerId ∧
    s'.rooms.getRoom R = some room ∧
    (msgType = MSG_JOIN_ROOM ∧ ByteBuffer.parse ByteBuffer.readU32 p = some R ∧
      room.passwordProtected = 0 ∨
      msgType = MSG_AUTH_RESPONSE ∧ (s'.client fd).pendingJoinRoomId = R ∧ p.length = 32 ∧
        computeChallengeResponse K room.passwordHash (s'.client fd).authChallenge = p)
  Challenges fd R x := ∃ p s' room, s.Receives K fd MSG_JOIN_ROOM p s' ∧
    ByteBuffer.parse ByteBuffer.readU32 p = some R ∧ s'.rooms.getRoom R = some room ∧
    room.passwordProtected ≠ 0 ∧
      (s'.secureRandomBytes 32).1 = some x
  Calls fd m :=
    e = .resume ∧ ((∃ s', s.Receives K fd m.1 m.2 s') ∨ m.1 = MSG_TCP_RELAY_DATA ∧
      s.Relays K fd m.2)
  Distinct := ∀ fd p s' req r lease, s.Receives K fd MSG_LOGIN p s' →
    ByteBuffer.parse readLogin p = some req →
    req.Served → req.resume = some r → s'.Asks r lease →
      s'.FreshName fd r.peerId (if lease.name = [] then req.name else lease.name)

theorem allows_stepScope (s : Server) (e : Event) : Allows K (stepScope K s e) s e where
  auth _ _ ha := ha
  accepts he := ⟨_, he⟩
  promotes he hp := ⟨hp, _, he⟩
  ends hc := hc
  loses hclose hc ho := ⟨_, hclose, hc, ho⟩
  relays he hrel := ⟨he, Or.inr ⟨rfl, hrel⟩⟩
  permits {fd msgType p s'} he hrec := by
    refine ⟨⟨he, Or.inl ⟨s', hrec⟩⟩, ?_, ?_, ?_, ?_, ?_, ?_, ?_, ?_⟩
    · intro hm
      subst hm
      exact ⟨p, s', hrec, rfl⟩
    · intro hm req r lease hp hr hasks
      subst hm
      exact ⟨⟨p, s', req, r, hrec, hp, hr, rfl, hasks⟩,
        fun hd hserved => hd fd p s' req r lease hrec hp hserved hr hasks⟩
    · intro hm R hnone
      subst hm
      exact ⟨p, s', hrec, rfl, hnone⟩
    · exact fun hm => ⟨msgType, p, s', hrec, hm⟩
    · intro hm R room hp hroom hopen
      exact ⟨msgType, p, s', room, hrec, rfl, hroom, Or.inl ⟨hm, hp, hopen⟩⟩
    · intro hm R room hp hroom hprotected x hx
      subst hm
      exact ⟨p, s', room, hrec, hp, hroom, hprotected, hx⟩
    · intro hm room hroom hlen hresponse
      exact ⟨msgType, p, s', room, hrec, rfl, hroom, Or.inr ⟨hm, rfl, hlen, hresponse⟩⟩
    · intro hm r lease hp _ hR hpeer htok hasks
      subst hm
      exact ⟨p, s', r, hrec, hp, rfl, hasks, hR, hpeer, htok⟩

/-- The invariant knows of the scope only what counts as authenticated. -/
theorem Good.scope {S' : Reg.Scope} {s : Server} (h : Good S s) (hS : S'.Auth = S.Auth) :
    Good S' s := by
  refine ⟨⟨h.inv.indexed, h.inv.leased, fun hc => ?_⟩, h.rooms⟩
  have hwf := h.inv.wf hc
  refine ⟨hwf.identity, hwf.inRoom, hwf.data, hwf.early, ?_, hwf.resume, hwf.name⟩
  rw [hS]
  exact hwf.auth

/-- The scope of a server about whose events nothing is known. -/
def openScope (hash salt : Bytes) : Reg.Scope where
  Auth := Authentic K hash salt
  Accepts _ := True
  Promotes _ := True
  Ends _ := True
  Loses _ := True
  Fresh _ _ := True
  Resumes _ _ _ := True
  Reenters _ _ _ := True
  Creates _ _ _ := True
  Leaves _ := True
  Joins _ _ _ := True
  Challenges _ _ _ := True
  Calls _ _ := True
  Distinct := False

theorem Reachable.sound {limits : ServerLimits} {hash salt : Bytes} {s : Server}
    (h : Reachable K limits hash salt s) : Sound (openScope K hash salt) limits hash salt s := by
  induction h with
  | start => exact sound_start limits hash salt
  | @step s _ env e he ih =>
    refine step_sound K ih he
      ⟨?_, fun _ => trivial, fun _ _ => trivial, fun _ => trivial, fun _ _ _ => trivial,
        fun _ _ => ?_, fun _ _ => trivial⟩
    · intro t sid ha
      rw [show (s.prepare env).serverAuthHash = hash from ih.hash,
        show (s.prepare env).serverAuthSalt = salt from ih.salt] at ha
      exact ha
    · exact ⟨trivial, fun _ => trivial, fun _ _ _ _ _ _ _ => ⟨trivial, False.elim⟩,
        fun _ _ _ => trivial,
        fun _ => trivial, fun _ _ _ _ _ _ => trivial, fun _ _ _ _ _ _ _ _ =>
          trivial, fun _ _ _ _ _ => trivial, fun _ _ _ _ _ _ _ _ _ => trivial⟩

/-- A step is a run of the registry that does nothing but what its event gives
    the right to. -/
theorem Reachable.run {limits : ServerLimits} {hash salt : Bytes} {s : Server}
    (h : Reachable K limits hash salt s) (env : Env) {e : Event} (he : s.Enabled e) :
    (s.prepare env).registry.Inv (stepScope K (s.prepare env) e) ∧
      Reg.Run (stepScope K (s.prepare env) e) (s.prepare env).registry
      (s.step K env e).registry := by
  have hs := h.sound K
  have hauth : (stepScope K (s.prepare env) e).Auth = (openScope K hash salt).Auth := by
    show Authentic K s.serverAuthHash s.serverAuthSalt = Authentic K hash salt
    rw [hs.hash, hs.salt]
  have hgood := hs.good.scope hauth
  refine ⟨(hgood.prepare env).inv, ?_⟩
  exact (step_lands K ⟨hgood, hs.housed, hs.control, hs.limits, hs.hash, hs.salt⟩ he
    (allows_stepScope K (s.prepare env) e)).evolves.run

end Server

end VlanConnect

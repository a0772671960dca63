/-
  VlanConnect/Server/LoginRuns.lean
  =================================
  **The handlers up to the login are runs of the registry.**

  For each handler: called for a session that is there, it leaves the session
  there, and the registry has made a run.  The session may be dead afterwards.
-/
import VlanConnect.Server.Evolution

namespace VlanConnect

open Registry

namespace Server

variable (K : Crypto) {S : Reg.Scope}

/-! ### Handlers -/

/-- What a handler for the session `fd` does. -/
structure Handles (S : Reg.Scope) (fd : Fd) (s s' : Server) : Prop where
  evolves : Evolves S s s'
  there : fd ∈ s'.clients

theorem Lasts.handles {s s' : Server} (h : Lasts S s s') {fd : Fd} (hfd : fd ∈ s.clients) :
    Handles S fd s s' := ⟨h.evolves, h.keeps fd hfd⟩

theorem Silent.handles {s s' : Server} (h : Silent s s') {fd : Fd} {c : ClientSession}
    (hc : s.clients[fd]? = some c) : Handles S fd s s' := h.lasts.handles (mem_clients hc)

theorem Handles.refl {s : Server} {fd : Fd} {c : ClientSession} (hc : s.clients[fd]? = some c) :
    Handles S fd s s := (Silent.refl s).handles hc

theorem Evolves.handles {s₁ s₂ s₃ : Server} {fd : Fd} (h : Evolves S s₁ s₂)
    (h' : Handles S fd s₂ s₃) :
    Handles S fd s₁ s₃ := ⟨h.trans h'.evolves, h'.there⟩

/-- A change of the session by one step of the registry. -/
theorem modify_evolves {s : Server} {fd : Fd} {c : ClientSession}
    {f : ClientSession → ClientSession} {d : Sess} (hc : s.clients[fd]? = some c)
    (hd : (f c).toSess = d) (hstep : Reg.Step S s.registry (s.registry.setSession fd d)) :
    Evolves S s (s.modify fd f) := by
  refine Evolves.of_world ?_ rfl
  rw [registry_modify hc, hd]
  exact .single hstep

theorem modify_handles {s : Server} {fd : Fd} {c : ClientSession}
    {f : ClientSession → ClientSession} {d : Sess} (hc : s.clients[fd]? = some c)
    (hd : (f c).toSess = d) (hstep : Reg.Step S s.registry (s.registry.setSession fd d)) :
    Handles S fd s (s.modify fd f) :=
  ⟨modify_evolves hc hd hstep, mem_clients (clients_modify hc)⟩

theorem kill_handles {s : Server} {fd : Fd} {c : ClientSession} (hc : s.clients[fd]? = some c) :
    Handles S fd s (s.kill fd) := (kill_silent hc).handles hc

theorem sendError_handles {s : Server} {fd : Fd} {c : ClientSession} (hc : s.clients[fd]? = some c)
    (text : String) (code : AuthErrorCode) : Handles S fd s (s.sendError K fd text code) :=
  (sendError_silent K hc text code).handles hc

theorem sendError_kill_handles {s : Server} {fd : Fd} {c : ClientSession}
    (hc : s.clients[fd]? = some c) (text : String) (code : AuthErrorCode) :
    Handles S fd s ((s.sendError K fd text code).kill fd) := by
  have h := sendError_silent K hc text code
  obtain ⟨c', hc', _⟩ := h.client hc
  exact h.evolves.handles (kill_handles hc')

/-- What sending leaves of a session. -/
theorem Sends.same {c c' : Sess} (h : Reg.Sends c c') :
    c' = { c with alive := c'.alive, sent := c'.sent, rejected := c'.rejected } := by
  obtain ⟨ext, lost, hd⟩ := h
  rw [hd.same]

/-- An error, and the session waits for its close. -/
theorem sendError_close_handles {s : Server} {fd : Fd} {c : ClientSession}
    (hc : s.clients[fd]? = some c)
    (hst : c.state = .awaitHello ∨ c.state = .awaitServerAuth ∨ c.state = .awaitLogin)
    (text : String) (code : AuthErrorCode) {f : ClientSession → ClientSession}
    (hf : ∀ c, (f c).toSess = { c.toSess with state := .closing }) :
    Handles S fd s ((s.sendError K fd text code).modify fd f) := by
  have h := sendError_silent K hc text code
  obtain ⟨c', hc', hq⟩ := h.client hc
  have hst' : c'.toSess.state = c.state := by rw [Sends.same (Reg.Sends.of_quiet hq)]; rfl
  refine h.evolves.handles (modify_handles hc' (hf c') ?_)
  exact .giveUp (sessions_registry hc') (by rw [hst']; exact hst)

/-- A message whose loss ends the session. -/
theorem sendMsg_required_handles {s : Server} {fd : Fd} {c : ClientSession}
    (hc : s.clients[fd]? = some c) (msgType : UInt8) (body : Bytes) {m : Msg}
    (hm : isMembership m.1 = false) :
    Handles S fd s (if (s.sendMsg fd msgType body m).1 = true then (s.sendMsg fd msgType body m).2
      else (s.sendMsg fd msgType body m).2.failRequiredControl fd) := by
  have h := sendMsg_silent hc msgType body hm
  obtain ⟨c', hc', _⟩ := h.client hc
  split
  · exact h.handles hc
  · exact h.evolves.handles (kill_handles hc')

/-! ### Handshake -/

theorem onClientHello_handles {s : Server} {fd : Fd} {c : ClientSession}
    (hc : s.clients[fd]? = some c) (p : Bytes) : Handles S fd s (s.onClientHello K fd p) := by
  unfold onClientHello
  rw [client_eq hc]
  dsimp only
  split
  · exact kill_handles hc
  next hst =>
  have hst : c.state = .awaitHello := by
    by_contra hne
    exact hst (Or.inl hne)
  split
  · exact sendError_close_handles K hc (Or.inl hst) _ _ fun _ => rfl
  have hidle := takeIpToken_idle s c.remoteIpv4 .authFailures 32 1
  generalize s.takeIpToken c.remoteIpv4 .authFailures 32 1 = res at hidle ⊢
  have hc₁ : res.2.clients[fd]? = some c := hidle.clients ▸ hc
  refine hidle.evolves.handles ?_
  split
  · exact sendError_close_handles K hc₁ (Or.inl hst) _ _ fun _ => rfl
  -- the hello is stored
  generalize hs₂ : res.2.modify fd _ = s₂
  obtain ⟨hev, c₂, hc₂, hst₂⟩ : Evolves S res.2 s₂ ∧ ∃ c₂, s₂.clients[fd]? = some c₂ ∧
      c₂.state = .awaitHello := by
    subst hs₂
    exact ⟨modify_evolves hc₁ rfl (.handshake (sessions_registry hc₁) hst (Or.inl hst)), _,
      clients_modify hc₁, hst⟩
  refine hev.handles ?_
  have hnonce := secureRandomBytes_idle s₂ 16
  generalize s₂.secureRandomBytes 16 = nonce at hnonce ⊢
  rw [← hnonce.clients] at hc₂
  refine hnonce.evolves.handles ?_
  split
  · exact kill_handles hc₂
  have hkey := secureRandomBytes_idle nonce.2 32
  generalize nonce.2.secureRandomBytes 32 = key at hkey ⊢
  rw [← hkey.clients] at hc₂
  refine hkey.evolves.handles ?_
  split
  · exact kill_handles hc₂
  have htime := time_idle key.2
  generalize key.2.time = time at htime ⊢
  rw [← htime.clients] at hc₂
  refine htime.evolves.handles ?_
  generalize hs₃ : time.2.modify fd _ = s₃
  obtain ⟨hev, c₃, hc₃⟩ : Evolves S time.2 s₃ ∧ ∃ c₃, s₃.clients[fd]? = some c₃ := by
    subst hs₃
    exact ⟨modify_evolves hc₂ rfl (.handshake (sessions_registry hc₂) hst₂ (Or.inr rfl)), _,
      clients_modify hc₂⟩
  exact hev.handles (sendMsg_required_handles hc₃ _ _ rfl)

/-- The transcript holds the proof that the client knew the server password,
    for the nonces and keys of this session. -/
def Authentic (hash salt : Bytes) (t : Transcript) (sessionId : Nat) : Prop :=
  ∃ proof serverPrivKey, t.authFrame = some (proof, serverPrivKey) ∧ proof.length = 32 ∧
    t.secureMaster = deriveSecureMaster K (K.x25519 serverPrivKey t.clientPubKey) hash t.clientNonce
      t.serverNonce t.clientPubKey t.serverPubKey salt PROTOCOL_VERSION AUTH_KDF_PROFILE ∧
    computeClientAuthProof K t.secureMaster hash = proof ∧
    sessionId = deriveSessionId K t.secureMaster

theorem bindIndex_of_none {index : Std.ExtTreeMap Nat Fd}
    {clients : Std.ExtTreeMap Fd ClientSession} {owns : ClientSession → Bool} {key fd : Nat}
    (h : index[key]? = none) :
    bindIndex index clients owns key fd = (true, index.insert key fd) := by
  simp [bindIndex, bindUniqueSessionIndex, h]

theorem getElem?_insert_update (m : Std.ExtTreeMap Nat Fd) (k fd : Nat) :
    (fun g => (m.insert k fd)[g]?) = Function.update (fun g => m[g]?) k (some fd) := by
  funext g
  rw [getElem?_insert_eq, Function.update_apply]

theorem registry_bindSecure (s : Server) (k fd : Nat) :
    ({ s with secureSessionMap := s.secureSessionMap.insert k fd } : Server).registry =
      { s.registry with
        secureSessionMap := Function.update s.registry.secureSessionMap k (some fd) } :=
  Reg.ext rfl rfl rfl (getElem?_insert_update _ _ _) rfl rfl rfl rfl rfl rfl rfl

theorem registry_bindPeer (s : Server) (k fd : Nat) :
    ({ s with peerMap := s.peerMap.insert k fd } : Server).registry =
      { s.registry with peerMap := Function.update s.registry.peerMap k (some fd) } :=
  Reg.ext rfl rfl (getElem?_insert_update _ _ _) rfl rfl rfl rfl rfl rfl rfl rfl

theorem openSecureSession_handles {s : Server} {fd : Fd} {c : ClientSession} (h : Good S s)
    (hc : s.clients[fd]? = some c) (hst : c.state = .awaitServerAuth) {master proof key : Bytes}
    (hauth : S.Auth ⟨c.clientNonce, c.serverNonce, c.clientPubKey, c.serverPubKey, master,
      some (proof, key)⟩ (deriveSessionId K master)) :
    Handles S fd s (s.openSecureSession K fd master proof key) := by
  unfold openSecureSession
  generalize deriveSessionId K master = sid at hauth ⊢
  dsimp only
  split
  · exact sendError_kill_handles K hc _ _
  next hsid =>
  rw [findClientOwnerBySecureSessionId_eq h.inv.indexed]
  -- a session in the handshake has no id yet, so an entry belongs to somebody else
  have hearly : c.secureSessionId = 0 := (h.inv.wf (sessions_registry hc)).early (Or.inr hst)
  rcases hk : s.secureSessionMap[sid]? with _ | g
  case some =>
    have hg : g ≠ fd := by
      rintro rfl
      obtain ⟨_, d, hd, hdsid⟩ := h.inv.indexed.secure hk
      rw [sessions_registry hc] at hd
      cases hd
      exact hsid (hdsid.symm.trans hearly)
    simp only [Option.any_some, bne_iff_ne, ne_eq, hg, not_false_eq_true, if_true,
      Option.isSome_some]
    exact sendError_kill_handles K hc _ _
  simp only [Option.any_none, Bool.false_eq_true, if_false, Option.isSome_none]
  have hstep := Reg.Step.authenticate (sessions_registry hc) hst hsid hk hauth
  generalize hs₁ : s.modify fd _ = s₁
  obtain ⟨c₁, hc₁, hr₁, hw₁, hd₁⟩ : ∃ c₁, s₁.clients[fd]? = some c₁ ∧
      s₁.registry = s.registry.setSession fd c₁.toSess ∧ s₁.world = s.world ∧
      c₁.toSess = { c.toSess with
        secureSessionId := sid, serverAuthOk := true, secureEnabled := true
        transcript := ⟨c.clientNonce, c.serverNonce, c.clientPubKey, c.serverPubKey, master,
          some (proof, key)⟩ } := by
    subst hs₁
    exact ⟨_, clients_modify hc, registry_modify hc, rfl, rfl⟩
  have hk₁ : s₁.secureSessionMap[sid]? = none := by rw [← hs₁]; exact hk
  rw [bindSecureSessionIndex, if_neg hsid, bindIndex_of_none hk₁]
  simp only [not_true_eq_false, if_false]
  generalize hs₂ : Server.modify _ fd _ = s₂
  obtain ⟨hev, c₂, hc₂⟩ : Evolves S s s₂ ∧ ∃ c₂, s₂.clients[fd]? = some c₂ := by
    subst hs₂
    refine ⟨Evolves.of_world (.single ?_) hw₁, _, clients_modify hc₁⟩
    rw [registry_modify (s := { s₁ with
      secureSessionMap := s₁.secureSessionMap.insert sid fd }) hc₁,
      registry_bindSecure, hr₁]
    convert hstep using 1
    refine Reg.ext ?_ rfl rfl rfl rfl rfl rfl rfl rfl rfl rfl
    simp only [Reg.setSession, Function.update_idem]
    congr 2
    exact congrArg (fun d : Sess => { d with state := .awaitLogin }) hd₁
  exact hev.handles (sendMsg_required_handles hc₂ _ _ rfl)

theorem onServerAuth_handles {s : Server} {fd : Fd} {c : ClientSession} (h : Good S s)
    (hS : ∀ t sid, Authentic K s.serverAuthHash s.serverAuthSalt t sid → S.Auth t sid)
    (hc : s.clients[fd]? = some c) (p : Bytes) : Handles S fd s (s.onServerAuth K fd p) := by
  unfold onServerAuth
  rw [client_eq hc]
  dsimp only
  split
  · exact kill_handles hc
  next hst =>
  have hst : c.state = .awaitServerAuth := by
    by_contra hne
    exact hst (Or.inl hne)
  have hidle := time_idle s
  generalize s.time = time at hidle ⊢
  have hc₁ : time.2.clients[fd]? = some c := hidle.clients ▸ hc
  refine hidle.evolves.handles ?_
  split
  · exact sendError_kill_handles K hc₁ _ _
  next hlen =>
  -- the private key is wiped
  generalize hs₂ : time.2.modify fd _ = s₂
  obtain ⟨hsil, hworld, c₂, hc₂, hst₂, htr⟩ : Silent time.2 s₂ ∧ s₂.world = time.2.world ∧
      ∃ c₂, s₂.clients[fd]? = some c₂ ∧ c₂.state = .awaitServerAuth ∧
        (c₂.clientNonce, c₂.serverNonce, c₂.clientPubKey, c₂.serverPubKey) =
          (c.clientNonce, c.serverNonce, c.clientPubKey, c.serverPubKey) := by
    subst hs₂
    exact ⟨modify_idle_evolves fun _ => rfl, rfl, _, clients_modify hc₁, hst, rfl⟩
  refine hsil.evolves.handles ?_
  split
  · exact sendError_close_handles K hc₂ (Or.inr (Or.inl hst₂)) _ _ fun _ => rfl
  split
  · exact sendError_close_handles K hc₂ (Or.inr (Or.inl hst₂)) _ _ fun _ => rfl
  next hproof =>
  have hcfg := SameConfig.of_world (hworld.trans hidle.world)
  refine openSecureSession_handles K ((h.evolve hidle.evolves).evolve hsil.evolves) hc₂ hst₂
    (hS _ _ ?_)
  simp only [Prod.mk.injEq] at htr
  obtain ⟨h₁, h₂, h₃, h₄⟩ := htr
  refine ⟨p, c.serverPrivKey, rfl, by omega, ?_, ?_, rfl⟩
  · simp only [sessionMaster, hcfg.hash, hcfg.salt, h₁, h₂, h₃, h₄]
  · rw [← hcfg.hash]
    exact not_not.mp hproof

/-! ### Login -/

theorem time_clock (s : Server) : s.time.1 = s.time.2.clock ∧ s.clock ≤ s.time.1 := by
  unfold time
  split
  · exact ⟨rfl, le_refl _⟩
  · exact ⟨rfl, Nat.le_add_right _ _⟩

theorem time_reading (s : Server) : s.time.1 = s.clock + s.env.ticks.headD 0 := by
  unfold time
  split
  · next hnil => rw [hnil]; rfl
  · next hcons => rw [hcons]; rfl

/-- A lease that may be resumed is there, with this token, and has not expired. -/
theorem validateResumeLease_spec (s : Server) (roomId peerId : Nat) (token : Bytes) :
    Idle s (s.validateResumeLease roomId peerId token).2 ∧
      ∀ {room lease}, (s.validateResumeLease roomId peerId token).1 = some (room, lease) →
        s.rooms.getRoom roomId = some room ∧ room.leaseByPeerId peerId = some lease ∧
        lease.token = token ∧
          tokenIsZero token = false ∧
          ¬ (lease.online = false ∧ 0 < lease.expiresAt ∧ lease.expiresAt < s.time.1) := by
  unfold validateResumeLease
  split
  · exact ⟨Idle.refl s, by simp⟩
  next hz =>
  rcases hroom : s.rooms.getRoom roomId with _ | room
  · exact ⟨Idle.refl s, by simp⟩
  dsimp only
  rcases hlease : room.leaseByPeerId peerId with _ | lease
  · exact ⟨Idle.refl s, by simp⟩
  dsimp only
  split
  · exact ⟨Idle.refl s, by simp⟩
  next htok =>
  split
  · exact ⟨time_idle s, by simp⟩
  · next hexp =>
    refine ⟨time_idle s, fun heq => ?_⟩
    cases heq
    exact ⟨rfl, hlease, not_not.mp htok, by simpa using hz, by simpa using hexp⟩

/-- The request names a lease that is there, with its token, and that is
    online or has not expired yet. -/
structure Asks (s : Server) (r : ResumeRequest) (lease : RoomLease) : Prop where
  there : s.registry.Lease r.roomId lease
  peerId : lease.peerId = r.peerId
  token : lease.token = r.token
  nonzero : tokenIsZero r.token = false
  valid : lease.online = true ∨ s.time.1 ≤ lease.expiresAt

theorem validateResumeLease_asks {s : Server} (h : Good S s) {r : ResumeRequest} {room : Room}
    {lease : RoomLease}
    (hvalid : (s.validateResumeLease r.roomId r.peerId r.token).1 = some (room, lease)) :
    s.Asks r lease := by
  obtain ⟨hroom, hl, htok, hz, hexp⟩ :=
    (validateResumeLease_spec s r.roomId r.peerId r.token).2 hvalid
  obtain ⟨hmem, hp⟩ := Room.mem_of_leaseByPeerId hl
  have hls := rooms_registry hroom
  refine ⟨⟨_, hls, hmem⟩, hp, htok, hz, ?_⟩
  have hwaits := ((h.inv.leased.room hls).2.2 lease hmem).2.2
  cases hon : lease.online with
  | true => exact Or.inl rfl
  | false =>
    refine Or.inr (not_lt.mp fun hlt => hexp ⟨hon, hwaits hon, hlt⟩)

/-- A lease with the token that is turned down has expired. -/
theorem validateResumeLease_none {s : Server} {roomId peerId : Nat} {token : Bytes} {room : Room}
    {lease : RoomLease} (hnone : (s.validateResumeLease roomId peerId token).1 = none)
    (hroom : s.rooms.getRoom roomId = some room) (hlease : room.leaseByPeerId peerId = some lease)
    (htok : lease.token = token) (hz : tokenIsZero token = false) :
    lease.online = false ∧ 0 < lease.expiresAt ∧
      lease.expiresAt < (s.validateResumeLease roomId peerId token).2.clock := by
  have hclock := time_clock s
  unfold validateResumeLease at hnone ⊢
  simp only [hz, hroom, hlease, htok, Bool.false_eq_true, if_false, ne_eq,
    not_true_eq_false] at hnone ⊢
  split at hnone
  · next hexp =>
    rw [if_pos hexp, ← hclock.1]
    exact ⟨by simpa using hexp.1, hexp.2⟩
  · cases hnone

/-- The takeover leaves the lease without a session. -/
theorem takeover_spec {s : Server} {fd : Fd} {c : ClientSession} (h : Good S s)
    (hc : s.clients[fd]? = some c) (hst : c.state = .awaitLogin) {R : Nat} {l : RoomLease}
    (hl : s.registry.Lease R l) (hS : S.Resumes fd R l) :
    ∃ s₁, (match (s.findClientOwnerByPeerId l.peerId).1 with
        | some old => if old ≠ fd then s.closeClientForTakeover old else s
        | none => s) = s₁ ∧
      Evolves S s s₁ ∧ (∃ c₁, s₁.clients[fd]? = some c₁ ∧ c₁.toSess = c.toSess) ∧
      ¬ s₁.registry.Owned l.peerId ∧
      (∀ g d, s₁.registry.sessions g = some d → s.registry.sessions g = some d) ∧
      ∃ ls f, s₁.registry.rooms R = some ls ∧ f l ∈ ls ∧ KeepsLease f := by
  refine ⟨_, rfl, ?_⟩
  have hp0 := (h.inv.leased.lease_id hl).1
  rw [findClientOwnerByPeerId_eq h.inv.indexed]
  rcases hk : s.peerMap[l.peerId]? with _ | old
  · dsimp only
    obtain ⟨ls, hls, hmem⟩ := hl
    refine ⟨Evolves.refl s, ⟨c, hc, rfl⟩, ?_, fun _ _ hd => hd, ls, id, hls, hmem,
      ⟨fun _ => rfl, fun _ => rfl, fun _ => rfl, fun _ => rfl, fun _ h => h⟩⟩
    rintro ⟨g, d, hd, hdp⟩
    have := h.inv.indexed.peer.mpr ⟨hp0, d, hd, hdp⟩
    rw [show s.registry.peerMap l.peerId = s.peerMap[l.peerId]? from rfl, hk] at this
    cases this
  · obtain ⟨d, hd, hdp, _⟩ := client_of_peerMap h.inv.indexed hk
    have hne : old ≠ fd := by
      rintro rfl
      rw [hc] at hd
      cases hd
      have hid := (h.inv.wf (sessions_registry hc)).identity.mpr
        (by rw [show c.toSess.peerId = _ from hdp]; exact hp0)
      rw [show c.toSess.state = .awaitLogin from hst] at hid
      cases hid
    dsimp only
    rw [if_pos hne]
    have hhome : d.toSess.home = R := (h.inv.holder (sessions_registry hd) ⟨l, hl, hdp.symm⟩).1
    have hhas : s.registry.HasLease d.toSess.home d.peerId := ⟨l, by rw [hhome]; exact hl, hdp.symm⟩
    obtain ⟨hev, hs, now, hr⟩ := destroyClient_spec h hd
      (show DisconnectReason.takeover = .logoutComplete → _ by simp) (fun _ => hhas)
      (fun ho => absurd hhas ho.2.1) (Or.inr ⟨fd, R, l, hS, hdp.symm⟩)
    rw [closeClientForTakeover]
    refine ⟨hev, ?_, ?_, ?_, ?_⟩
    · have hfd : (s.destroyClient old .takeover).registry.sessions fd = some c.toSess := by
        rw [hs, Function.update_of_ne hne.symm]
        exact sessions_registry hc
      exact exists_of_sessions hfd
    · rintro ⟨g, e, he, hep⟩
      rw [hs, Function.update_apply] at he
      split at he
      · cases he
      · next hg => exact hg (h.inv.indexed.owner_unique (sessions_registry hd) he
          (hep.trans hdp.symm)
          (show d.peerId ≠ 0 from hdp ▸ hp0))
    · intro g e he
      rw [hs, Function.update_apply] at he
      split at he
      · cases he
      · exact he
    · obtain ⟨ls, hls, hmem⟩ := hl
      refine ⟨mapLease d.peerId (·.markOffline now) ls, (·.markOffline now), ?_, ?_,
        KeepsLease.markOffline now⟩
      · rw [hr, hhome, Function.update_self, hls]
        rfl
      · rw [mem_mapLease]
        exact ⟨l, hmem, if_pos hdp.symm⟩

/-- The session is at its resume. -/
theorem resumePending_step {s : Server} {fd : Fd} {c : ClientSession} (h : Good S s)
    (hc : s.clients[fd]? = some c) (hst : c.state = .awaitLogin) {R p : Nat} {token : Bytes}
    {ls : List RoomLease} {l : RoomLease} (hls : s.registry.rooms R = some ls) (hl : l ∈ ls)
    (hp : l.peerId = p) (htok : l.token = token) (hz : tokenIsZero token = false)
    (hown : ¬ s.registry.Owned p) {asked : RoomLease} (hS : S.Resumes fd R asked)
    (hasked : asked.peerId = p ∧ asked.token = token) {f : ClientSession → ClientSession}
    {name : Bytes}
    (hf : (f c).toSess = { c.toSess with
      peerId := p, resumeRoomId := R, resumePeerId := p, resumeToken := token, name := name
      state := .resumePending }) (hname : name ≠ [] ∧ name.length < 2 ^ 16)
    (hkeep : l.name ≠ [] → name = l.name) (hfree : S.Distinct → s.registry.NameFree fd name) :
    ∃ s', ((s.modify fd f).markLeaseOffline R p).bindPeerIndex fd p = (true, s') ∧
      Evolves S s s' ∧ ∃ c', s'.clients[fd]? = some c' := by
  obtain ⟨now, hr, hcl, hrooms, hcfg⟩ :=
    markLeaseOffline_spec R (s := s.modify fd f) (fun hls => h.inv.leased.room hls) p
  generalize (s.modify fd f).markLeaseOffline R p = s₁ at hr hcl hrooms hcfg ⊢
  have hp0 : p ≠ 0 := hp ▸ (h.inv.leased.lease_id ⟨ls, hls, hl⟩).1
  have hk : s₁.peerMap[p]? = none := by
    have hsame : s₁.peerMap[p]? = s.registry.peerMap p := congrFun (congrArg Reg.peerMap hr) p
    rcases hg : s.registry.peerMap p with _ | g
    · rw [hsame, hg]
    · obtain ⟨_, d, hd, hdp⟩ := h.inv.indexed.peer.mp hg
      exact absurd ⟨g, d, hd, hdp⟩ hown
  have hc₁ : s₁.clients[fd]? = some (f c) := by
    rw [hcl]
    exact clients_modify hc
  refine ⟨{ s₁ with peerMap := s₁.peerMap.insert p fd }, ?_, ⟨?_, hrooms, ?_⟩, f c, hc₁⟩
  · rw [bindPeerIndex, if_neg hp0, bindIndex_of_none hk]
  · have heq : ({ s₁ with peerMap := s₁.peerMap.insert p fd } : Server).registry =
        (s.registry.loggedIn fd { c.toSess with
          peerId := p, resumeRoomId := R, resumePeerId := p, resumeToken := token, name := name
          state := .resumePending }).setRoom R (mapLease p (·.markOffline now) ls) := by
      rw [registry_bindPeer, hr, registry_modify hc, hf]
      refine Reg.ext rfl ?_ rfl rfl rfl rfl rfl rfl rfl rfl rfl
      simp only [Reg.setRoom, Reg.loggedIn, Reg.setSession, hls, Option.map_some]
    rw [heq]
    subst hp htok
    exact .single (.loginResume (sessions_registry hc) hst hls hl hz hown hname hkeep hS
      hasked hfree)
  · exact ⟨hcfg.hash, hcfg.salt, hcfg.limits, hcfg.control⟩

theorem sendLoginResponse_handles {s : Server} {fd : Fd} {c : ClientSession}
    (hc : s.clients[fd]? = some c) (resumed : Nat) :
    Handles S fd s (s.sendLoginResponse K fd resumed) :=
  (sendClientMsg_silent K hc rfl _).handles hc

/-- No session but `fd` and the one with the id `peerId` has the name. -/
def FreshName (s : Server) (fd : Fd) (peerId : Nat) (name : Bytes) : Prop :=
  ∀ g d, s.clients[g]? = some d → g ≠ fd → d.peerId ≠ 0 → d.peerId ≠ peerId → d.name ≠ name

theorem loginResume_handles {s : Server} {fd : Fd} {c : ClientSession} (h : Good S s)
    (hc : s.clients[fd]? = some c) (hst : c.state = .awaitLogin) {r : ResumeRequest}
    {lease : RoomLease} (hlease : s.registry.Lease r.roomId lease) (hp : lease.peerId = r.peerId)
    (htok : lease.token = r.token) (hz : tokenIsZero r.token = false) {name : Bytes}
    (hname : name ≠ [] ∧ name.length < 2 ^ 16) (hS : S.Resumes fd r.roomId lease)
    (hfree : S.Distinct → s.FreshName fd r.peerId (if lease.name = [] then name else lease.name)) :
    Handles S fd s (s.loginResume K fd name r lease) := by
  obtain ⟨ls₀, hls₀, hmem₀⟩ := hlease
  have hsized := (h.inv.leased.room hls₀).2.2 lease hmem₀
  obtain ⟨s₁, hs₁, hev₁, ⟨c₁, hc₁, hsess⟩, hown, hold, ls, g, hls₁, hmem₁, hg⟩ :=
    takeover_spec h hc hst ⟨ls₀, hls₀, hmem₀⟩ hS
  rw [hp] at hs₁ hown
  have hst₁ : c₁.state = .awaitLogin := by
    rw [show c₁.state = c.state from congrArg Sess.state hsess]
    exact hst
  have hname' : (if lease.name = [] then name else lease.name) ≠ [] ∧
      (if lease.name = [] then name else lease.name).length < 2 ^ 16 := by
    split
    · exact hname
    · next hne => exact ⟨hne, hsized.2.1⟩
  have hkeep : (g lease).name ≠ [] →
      (if lease.name = [] then name else lease.name) = (g lease).name := by
    rw [hg.name]
    exact fun hne => if_neg hne
  have hfree₁ : S.Distinct →
      s₁.registry.NameFree fd (if lease.name = [] then name else lease.name) := by
    intro hd g d hgd hne hdp
    obtain ⟨e, he, rfl⟩ := exists_of_sessions (hold g d hgd)
    refine hfree hd g e he hne hdp fun hep => hown ⟨g, _, hgd, hep⟩
  obtain ⟨s₂, hbind, hev₂, c₂, hc₂⟩ := resumePending_step (h.evolve hev₁) hc₁ hst₁ hls₁ hmem₁
    ((hg.peerId lease).trans hp) ((hg.token lease).trans htok) hz hown hS ⟨hp,
      htok⟩ (f := fun c => { c with
      name := if lease.name = [] then name else lease.name
      peerId := r.peerId
      resumeRoomId := r.roomId
      resumePeerId := r.peerId
      resumeToken := r.token
      state := .resumePending }) rfl hname' hkeep hfree₁
  have hfinish := (hev₁.trans hev₂).handles (sendLoginResponse_handles K hc₂ 1)
  unfold loginResume
  rw [findClientOwnerByPeerId_eq h.inv.indexed] at hs₁ ⊢
  rcases hk : s.peerMap[r.peerId]? with _ | old
  all_goals
    rw [hk] at hs₁
    rw [← hs₁] at hbind
    dsimp only at hbind ⊢
    rw [hbind]
    simpa using hfinish

theorem allocatePeerId_spec (s : Server) :
    (s.allocatePeerId.1 ∈ s.registry.free ∧
        s.allocatePeerId.2.registry = { s.registry with
          free := s.registry.free \ {s.allocatePeerId.1} } ∨
      s.allocatePeerId.1 = s.registry.next ∧
        s.allocatePeerId.2.registry = { s.registry with next := s.registry.next + 1 }) ∧
    s.allocatePeerId.2.clients = s.clients ∧ s.allocatePeerId.2.peerMap = s.peerMap ∧
    s.allocatePeerId.2.world = s.world := by
  unfold allocatePeerId
  split
  · next p hp =>
    refine ⟨Or.inl ⟨Std.ExtTreeSet.mem_toList.mp (List.mem_of_mem_head? hp), ?_⟩, rfl, rfl, rfl⟩
    exact Reg.ext rfl rfl rfl rfl rfl rfl (setOf_erase s.freePeerIds p) rfl rfl rfl rfl
  · exact ⟨Or.inr ⟨rfl, rfl⟩, rfl, rfl, rfl⟩

/-- The session is logged in with an id of its own. -/
theorem freshLogin_step {s : Server} {fd : Fd} {c : ClientSession} (h : Good S s)
    (hc : s.clients[fd]? = some c) (hst : c.state = .awaitLogin) {f : ClientSession → ClientSession}
    {name : Bytes} (hf : (f c).toSess = Reg.freshLogin c.toSess s.allocatePeerId.1 name)
    (hname : name ≠ [] ∧ name.length < 2 ^ 16) (hnew : s.registry.NameFree fd name)
    (hS : S.Fresh fd s.allocatePeerId.1) :
    ∃ s', (s.allocatePeerId.2.modify fd f).bindPeerIndex fd s.allocatePeerId.1 = (true, s') ∧
      Evolves S s s' ∧ ∃ c', s'.clients[fd]? = some c' := by
  obtain ⟨hreg, hcl, hpm, hw⟩ := allocatePeerId_spec s
  generalize s.allocatePeerId = res at hf hreg hcl hpm hw hS ⊢
  have hc₁ : res.2.clients[fd]? = some c := by rw [hcl]; exact hc
  -- nobody has the id
  have hfresh : res.1 ≠ 0 ∧ ¬ s.registry.Owned res.1 := by
    rcases hreg with ⟨hfree, _⟩ | ⟨hnext, _⟩
    · exact ⟨(h.inv.leased.free hfree).1, (h.inv.leased.free hfree).2.2.1⟩
    · rw [hnext]
      refine ⟨h.inv.leased.next_pos.ne', ?_⟩
      rintro ⟨g, d, hd, hdp⟩
      exact absurd (h.inv.leased.session_id hd) (by omega)
  have hk : (res.2.modify fd f).peerMap[res.1]? = none := by
    have hsame : (res.2.modify fd f).peerMap[res.1]? = s.registry.peerMap res.1 :=
      congrArg (·[res.1]?) hpm
    rcases hg : s.registry.peerMap res.1 with _ | g
    · rw [hsame, hg]
    · obtain ⟨_, d, hd, hdp⟩ := h.inv.indexed.peer.mp hg
      exact absurd ⟨g, d, hd, hdp⟩ hfresh.2
  refine ⟨{ res.2.modify fd f with peerMap := (res.2.modify fd f).peerMap.insert res.1 fd }, ?_,
    Evolves.of_world (.single ?_) hw, f c, clients_modify hc₁⟩
  · rw [bindPeerIndex, if_neg hfresh.1, bindIndex_of_none hk]
  · rw [registry_bindPeer, registry_modify hc₁, hf]
    rcases hreg with ⟨hfree, hr⟩ | ⟨hnext, hr⟩
    · rw [hr]
      exact .loginReused (sessions_registry hc) hst hfree hname hnew hS
    · rw [hnext] at hS
      rw [hr, hnext]
      exact .loginNew (sessions_registry hc) hst hname hnew hS

theorem loginFresh_handles {s : Server} {fd : Fd} {c : ClientSession} (h : Good S s)
    (hc : s.clients[fd]? = some c) (hst : c.state = .awaitLogin) {name : Bytes}
    (hname : name ≠ [] ∧ name.length < 2 ^ 16) (hS : S.Fresh fd s.allocatePeerId.1) :
    Handles S fd s (s.loginFresh K fd name) := by
  unfold loginFresh
  split
  · exact sendError_handles K hc _ _
  next hany =>
  have hnew : s.registry.NameFree fd name := by
    intro g d hd hne hdp heq
    obtain ⟨e, he, rfl⟩ := exists_of_sessions hd
    refine hany (List.any_eq_true.mpr ⟨(g, e),
      Std.ExtTreeMap.mem_toList_iff_getElem?_eq_some.mpr he, ?_⟩)
    exact decide_eq_true ⟨hdp, heq, hne⟩
  obtain ⟨s₁, hbind, hev, c₁, hc₁⟩ := freshLogin_step h hc hst (f := fun c => { c with
    name := name
    peerId := s.allocatePeerId.1
    resumeRoomId := 0
    resumePeerId := 0
    resumeToken := List.replicate RECONNECT_TOKEN_SIZE 0
    state := .loggedIn }) rfl hname hnew hS
  dsimp only
  rw [hbind]
  refine hev.handles ?_
  simpa using sendLoginResponse_handles K hc₁ 0

theorem isValidPlayerName_length {name : Bytes} (h : isValidPlayerName name = true) :
    name ≠ [] ∧ name.length < 2 ^ 16 := by
  have hle : name ≠ [] ∧ name.length ≤ MAX_PLAYER_NAME_LEN := by
    simp only [isValidPlayerName, Bool.and_eq_true, decide_eq_true_eq] at h
    refine ⟨fun hnil => ?_, h.1.2⟩
    rw [hnil] at h
    exact absurd h.1.1 (by decide)
  have : MAX_PLAYER_NAME_LEN < 2 ^ 16 := by decide
  exact ⟨hle.1, by omega⟩

/-- The check of a resume does not touch the ids. -/
theorem allocatePeerId_validate (s : Server) (R p : Nat) (token : Bytes) :
    (s.validateResumeLease R p token).2.allocatePeerId.1 = s.allocatePeerId.1 := by
  have htime : s.time.2.allocatePeerId.1 = s.allocatePeerId.1 := by
    unfold time
    split
    · rfl
    · unfold allocatePeerId
      dsimp only
      split <;> rfl
  unfold validateResumeLease
  split
  · rfl
  split
  · rfl
  split
  · rfl
  split
  · rfl
  dsimp only
  split
  · exact htime
  · exact htime

theorem onLogin_handles {s : Server} {fd : Fd} {c : ClientSession} (h : Good S s)
    (hc : s.clients[fd]? = some c) (p : Bytes) (hfresh : S.Fresh fd s.allocatePeerId.1)
    (hS : ∀ {req r lease}, ByteBuffer.parse readLogin p = some req → req.resume = some r →
      s.Asks r lease → S.Resumes fd r.roomId lease ∧
      (S.Distinct → req.Served →
        s.FreshName fd r.peerId (if lease.name = [] then req.name else lease.name))) :
    Handles S fd s (s.onLogin K fd p) := by
  unfold onLogin
  rw [client_eq hc]
  split
  · exact kill_handles hc
  next hst =>
  have hst : c.state = .awaitLogin := not_not.mp hst
  split
  · exact kill_handles hc
  next req hreq =>
  split
  · exact sendError_close_handles K hc (Or.inr (Or.inr hst)) _ _ fun _ => rfl
  next hversion =>
  split
  · exact sendError_handles K hc _ _
  next hvalidName =>
  have hserved : req.Served := ⟨not_not.mp hversion, not_not.mp hvalidName⟩
  have hname := isValidPlayerName_length hserved.2
  split
  · exact loginFresh_handles K h hc hst hname hfresh
  next r hr =>
  have hidle := (validateResumeLease_spec s r.roomId r.peerId r.token).1
  have hvalid := @validateResumeLease_asks S s h r
  have hsame := allocatePeerId_validate s r.roomId r.peerId r.token
  generalize s.validateResumeLease r.roomId r.peerId r.token = res at hidle hvalid hsame ⊢
  have h₁ : Good S res.2 := h.evolve hidle.evolves
  have hc₁ : res.2.clients[fd]? = some c := hidle.clients ▸ hc
  refine hidle.evolves.handles ?_
  dsimp only
  split
  · next room lease hres =>
    have hasks := hvalid hres
    obtain ⟨hresumes, hfree⟩ := hS hreq hr hasks
    refine loginResume_handles K h₁ hc₁ hst
      (by rw [hidle.registry]; exact hasks.there) hasks.peerId hasks.token
      hasks.nonzero hname hresumes fun hd => ?_
    have hfree := hfree hd hserved
    unfold FreshName at hfree ⊢
    rw [hidle.clients]
    exact hfree
  · exact loginFresh_handles K h₁ hc₁ hst hname (hsame ▸ hfresh)

end Server

end VlanConnect

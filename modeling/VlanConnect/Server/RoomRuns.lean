/-
  VlanConnect/Server/RoomRuns.lean
  ================================
  **The handlers behind the login are runs of the registry.**

  A membership begins and ends in one step of the registry; the handlers make
  the same change in several places, with sending in between.  The states in
  between are described by what is left to do.
-/
import VlanConnect.Server.LoginRuns
import VlanConnect.Server.Effects

namespace VlanConnect

open Registry

namespace Server

variable (K : Crypto) {S : Reg.Scope}

/-! ### Taking a member out of a room -/

theorem removeMember_spec {s : Server} {R p : Nat} {room : Room}
    (hroom : s.rooms.getRoom R = some room)
    (hnd : (room.leases.map (·.peerId)).Nodup) :
    (s.removeMember R p).registry = { s.registry with
      rooms := Function.update s.registry.rooms R
        (if dropLease p room.leases = [] then none else some (dropLease p room.leases)) } ∧
    (s.removeMember R p).clients = s.clients ∧
    (∀ {cap}, RoomManager.Kept cap s.rooms (s.removeMember R p).rooms) ∧
    SameConfig s (s.removeMember R p) := by
  have hls := Room.removeLease_leases hnd p
  unfold removeMember
  rw [hroom]
  dsimp only
  rw [hls]
  have hshape := Room.Shrinks.removeLease room p
  have hwf : ∀ {cap}, s.rooms.WF cap → (s.setRoom R (room.removeLease p)).rooms.WF cap := fun h =>
    RoomManager.WF.setRoom h hroom hshape.id hshape.listable
  split
  · refine ⟨?_, rfl, ⟨fun h => (hwf h).eraseRoom R, fun hh id r hr => ?_⟩, ⟨rfl, rfl, rfl, rfl⟩⟩
    · rw [registry_eraseRoom, registry_setRoom]
      simp [Reg.setRoom]
    · dsimp only [setRoom] at hr
      rw [RoomManager.getRoom_eraseRoom] at hr
      split at hr
      · cases hr
      · next hne =>
        rw [RoomManager.getRoom_setRoom, if_neg hne] at hr
        exact hh hr
  · next hne =>
    refine ⟨?_, rfl,
      ⟨hwf, fun hh => hh.setRoom (Room.settled_removeLease (hh hroom) (by rw [hls]; exact hne))⟩,
      ⟨rfl, rfl, rfl, rfl⟩⟩
    rw [registry_setRoom, hls]
    rfl

/-- The room goes with its last member. -/
theorem removeMember_run {s : Server} {R p : Nat} {room : Room}
    (hroom : s.rooms.getRoom R = some room) (hnd : (room.leases.map (·.peerId)).Nodup)
    (σ : Fd → Option Sess) :
    Reg.Run S { s.registry.setRoom R (dropLease p room.leases) with sessions := σ }
      { (s.removeMember R p).registry with sessions := σ } := by
  rw [(removeMember_spec hroom hnd).1]
  split
  · next hnil =>
    refine .single ?_
    have hstep := Reg.Step.eraseRoom (S := S)
      (r := { s.registry.setRoom R (dropLease p room.leases) with sessions := σ }) (R := R)
      (by simp [Reg.setRoom, hnil])
    simpa [Reg.setRoom] using hstep
  · exact .refl

/-! ### Leaving -/

/-- The holder of a lease gives it up; its session is to be told so. -/
theorem announceLeft_remove_spec {s : Server} {fd : Fd} {c : ClientSession} (h : Good S s)
    (hc : s.clients[fd]? = some c) {R : Nat} (hR : c.toSess.home = R)
    (hl : s.registry.HasLease R c.peerId) (hS : S.Leaves fd) :
    ∃ s', (s.announceLeft K R c.peerId).removeMember R c.peerId = s' ∧
      (∃ c', s'.clients[fd]? = some c' ∧ c'.toSess = c.toSess) ∧
      Reg.Run S s.registry (s'.registry.setSession fd c.toSess.exit) ∧
      (∀ {cap}, RoomManager.Kept cap s.rooms s'.rooms) ∧ SameConfig s s' := by
  refine ⟨_, rfl, ?_⟩
  subst hR
  obtain ⟨l, ⟨ls, hls, hmem⟩, hp⟩ := hl
  obtain ⟨room, hroom, rfl⟩ : ∃ room, s.rooms.getRoom c.toSess.home = some room ∧
      room.leases = ls := by
    simpa [registry] using hls
  obtain ⟨σ', hσ, hr, hw⟩ := broadcastToRoom_tell K h.inv hroom c.peerId MSG_PEER_LEFT
    (ByteBuffer.writeU32 c.peerId)
  rw [announceLeft]
  generalize s.broadcastToRoom K c.toSess.home MSG_PEER_LEFT _ c.peerId = s₁ at hr hw ⊢
  have hroom₁ : s₁.rooms.getRoom c.toSess.home = some room := by rw [rooms_of_world hw]; exact hroom
  have hnd := (h.inv.leased.room hls).1
  obtain ⟨hreg, hcl, hrooms, hcfg⟩ := removeMember_spec (p := c.peerId) hroom₁ hnd
  -- the notice does not go to the peer it is about
  have hfd : s₁.registry.sessions fd = some c.toSess := by
    obtain ⟨d, hd, _, hsame⟩ := Reg.Pointwise.forth hσ (sessions_registry hc)
    rw [hsame fun hh => hh.2.1 rfl] at hd
    rw [hr]
    exact hd
  obtain ⟨c₁, hc₁, hsess⟩ := exists_of_sessions hfd
  refine ⟨⟨c₁, by rw [hcl]; exact hc₁, hsess⟩, ?_,
    (RoomManager.Kept.of_eq (rooms_of_world hw)).trans hrooms, (SameConfig.of_world hw).trans hcfg⟩
  have hstep := Reg.Step.leave (S := S) (sessions_registry hc) hls ⟨l, ⟨_, hls, hmem⟩, hp⟩ rfl hS hσ
  refine Relation.ReflTransGen.head hstep ?_
  have hrun := removeMember_run (S := S) (p := c.peerId) hroom₁ hnd
    (Function.update σ' fd (some c.toSess.exit))
  have hsessions : (s₁.removeMember c.toSess.home c.peerId).registry.sessions = σ' := by
    rw [hreg, hr]
    rfl
  rw [hr] at hrun
  have hend : (s₁.removeMember c.toSess.home c.peerId).registry.setSession fd c.toSess.exit =
      { (s₁.removeMember c.toSess.home c.peerId).registry with
        sessions := Function.update σ' fd (some c.toSess.exit) } := by
    rw [Reg.setSession, hsessions]
  rw [hend]
  exact hrun

theorem onLeaveRoom_handles {s : Server} {fd : Fd} {c : ClientSession} (h : Good S s)
    (hc : s.clients[fd]? = some c) (ha : c.alive = true) (hS : S.Leaves fd) :
    Handles S fd s (s.onLeaveRoom K fd) := by
  have hwf := h.inv.wf (sessions_registry hc)
  unfold onLeaveRoom
  rw [client_eq hc]
  dsimp only
  split
  · exact Handles.refl hc
  next hroom =>
  have hhome : c.toSess.home = c.roomId := if_pos hroom
  obtain ⟨l, hl, hp, _⟩ := h.inv.leased.live (sessions_registry hc) ha (hwf.inRoom.mpr hroom)
  obtain ⟨s₁, hs₁, ⟨c₁, hc₁, hsess⟩, hrun, hrooms, hcfg⟩ :=
    announceLeft_remove_spec K h hc hhome ⟨l, hl, hp⟩ hS
  rw [hs₁]
  have hexit : (leaveMembership c₁).toSess = c.toSess.exit := by rw [← hsess]; rfl
  have hev : Evolves S s (s₁.modify fd leaveMembership) := by
    refine ⟨?_, hrooms, hcfg.trans ⟨rfl, rfl, rfl, rfl⟩⟩
    rw [registry_modify hc₁, hexit]
    exact hrun
  have hstill := broadcastRoomListPush_still K (s₁.modify fd leaveMembership)
  obtain ⟨c₂, hc₂, _⟩ := hstill.client (clients_modify hc₁)
  exact ⟨hev.trans hstill.evolves, mem_clients hc₂⟩

/-! ### New members -/

/-- The session is in a room, and the answer that says so was sent. -/
theorem enterRoom_answer {s s₁ : Server} {fd : Fd} {c : ClientSession}
    (hc : s.clients[fd]? = some c) {f : ClientSession → ClientSession} {R vip : Nat}
    {token name : Bytes} (hf : (f c).toSess = { c.toSess.enter R vip token with name := name })
    {msgType : UInt8} {body : Bytes} {ok : Bool}
    (hsend : (s.modify fd f).sendClientMsg K fd msgType body = (ok, s₁)) :
    s₁.world = s.world ∧ ∃ c₁, s₁.clients[fd]? = some c₁ ∧
    s₁.registry = s.registry.setSession fd c₁.toSess ∧
      (ok = true → c₁.alive = true ∧
        c₁.toSess = { c.toSess.enter R vip token with
          name := name, sent := c.sent ++ [(msgType, body)] }) ∧
      ∃ ext lost d, c.toSess.Delivered ext lost d ∧ c₁.toSess = { d.enter R vip token with
        name := name } := by
  have hout := sendClientMsg_outcome K (clients_modify hc (f := f)) msgType body
  rw [hsend] at hout
  obtain ⟨c₁, hc₁, hrel, hr, hw⟩ := hout
  rw [hf] at hrel
  refine ⟨hw, c₁, hc₁, by rw [hr, registry_modify hc, setSession_setSession], fun hok => ?_, ?_⟩
  · obtain ⟨hd, ha⟩ := hrel.ok hok
    refine ⟨ha, ?_⟩
    have hal : c.alive = true := hd.alive ha
    have hsame := hd.same
    rw [ha] at hsame
    rw [hsame]
    simp [Sess.enter, ClientSession.toSess, hal]
  · obtain ⟨ext, lost, hd⟩ := hrel.sends
    refine ⟨ext, lost,
      { c.toSess with alive := c₁.alive, sent := c.sent ++ ext, rejected := c.rejected ++ lost },
      ⟨rfl, hd.alive⟩, ?_⟩
    rw [hd.same]
    rfl

theorem dropLease_append_self {p : Nat} {ls : List RoomLease} {l : RoomLease} (hp : l.peerId = p)
    (hno : ∀ l' ∈ ls, l'.peerId ≠ p) : dropLease p (ls ++ [l]) = ls := by
  have hkeep : ls.filter (fun l => l.peerId != p) = ls :=
    List.filter_eq_self.mpr fun l' hl' => by simpa using hno l' hl'
  simp [dropLease, hkeep, hp]

/-- The membership of a session that was not told is undone. -/
theorem rollback_handles {s s₁ : Server} {fd : Fd} {c c₁ : ClientSession}
    (hc : s.clients[fd]? = some c) (hst : c.state = .loggedIn) {R vip : Nat} {token name : Bytes}
    {ls : List RoomLease} {l : RoomLease}
    (hold : s.registry.rooms R = some ls ∨ s.registry.rooms R = none ∧ ls = [])
    (hp : l.peerId = c.peerId) (hno : ∀ l' ∈ ls, l'.peerId ≠ c.peerId)
    (hok : Reg.RoomOk (ls ++ [l])) (hc₁ : s₁.clients[fd]? = some c₁)
    (hr : s₁.registry = (s.registry.setRoom R (ls ++ [l])).setSession fd c₁.toSess)
    {ext lost : List Msg} {d : Sess} (hd : c.toSess.Delivered ext lost d) (hname : name = c.name)
    (hsess : c₁.toSess = { d.enter R vip token with name := name })
    (hrooms : RoomManager.Kept s.limits.maxRooms s.rooms s₁.rooms) (hcfg : SameConfig s s₁) :
    Handles S fd s (s₁.rollbackNewMembership fd R) := by
  have hls : s₁.registry.rooms R = some (ls ++ [l]) := by
    rw [hr]; simp [Reg.setSession, Reg.setRoom]
  obtain ⟨room, hroom, hleases⟩ : ∃ room, s₁.rooms.getRoom R = some room ∧
      room.leases = ls ++ [l] := by
    simpa [registry] using hls
  have hp₁ : c₁.peerId = c.peerId := by
    have hp' : c₁.toSess.peerId = d.peerId := by rw [hsess]; rfl
    exact hp'.trans (by rw [hd.same]; rfl)
  obtain ⟨hreg, hcl, hrooms', hcfg'⟩ := removeMember_spec (p := c.peerId) hroom
    (by rw [hleases]; exact hok.1)
  rw [hleases, dropLease_append_self hp hno] at hreg
  unfold rollbackNewMembership
  rw [client_eq hc₁, hp₁]
  generalize s₁.removeMember R c.peerId = s₂ at hreg hcl hrooms' hcfg'
  have hc₂ : s₂.clients[fd]? = some c₁ := by rw [hcl]; exact hc₁
  refine ⟨⟨?_, hrooms.trans hrooms', (hcfg.trans hcfg').trans ⟨rfl, rfl, rfl, rfl⟩⟩,
    mem_clients (clients_modify hc₂)⟩
  rw [registry_modify hc₂, hreg, hr]
  -- the session as the registry has it after the failed join
  have hexit : ({ c₁ with
      roomId := 0, virtualIP := 0, resumeRoomId := 0, resumePeerId := 0
      resumeToken := List.replicate RECONNECT_TOKEN_SIZE 0, state := .loggedIn
      alive := false } : ClientSession).toSess = { d.exit with alive := false } := by
    have hd' : c₁.toSess = { d.enter R vip token with name := d.name } := by
      rw [hsess, hname, hd.same]
      rfl
    have := congrArg (fun e : Sess => { e.exit with alive := false }) hd'
    exact this
  have hfail : Reg.Step S s.registry (s.registry.setSession fd { d.exit with alive := false }) :=
    .joinFailed (sessions_registry hc) hst hd
  rcases hold with hold | ⟨hold, rfl⟩
  · refine Relation.ReflTransGen.head hfail ?_
    split
    · next hnil =>
      subst hnil
      have hstep := Reg.Step.eraseRoom (S := S)
        (r := s.registry.setSession fd { d.exit with alive := false }) (R := R) hold
      refine .single ?_
      convert hstep using 1
      simp [Reg.setSession, Reg.setRoom, hexit]
    · have hsame : Function.update s.registry.rooms R (some ls) = s.registry.rooms :=
        Function.update_eq_self_iff.mpr hold.symm
      convert Relation.ReflTransGen.refl using 1
      simp [Reg.setSession, Reg.setRoom, hexit, hsame]
  · refine .single ?_
    convert hfail using 1
    have hsame : Function.update s.registry.rooms R none = s.registry.rooms :=
      Function.update_eq_self_iff.mpr hold.symm
    simp [Reg.setSession, Reg.setRoom, hexit, hsame]

/-! ### Rooms -/

theorem normalizeTrafficPolicy_normal (transport fec profile : Nat) (fallback : RoomTrafficPolicy) :
    (normalizeTrafficPolicy transport fec profile fallback).Normal := by
  intro h
  exact if_pos h

/-- What the checks of the request leave. -/
structure CreateRequest.Checked (req : CreateRequest) : Prop where
  roomName : req.roomName.length ≤ MAX_ROOM_NAME_LEN
  minPlayers : 2 ≤ req.maxPlayers
  maxPlayers : req.maxPlayers ≤ MAX_PLAYERS
  tcpPolicy : req.tcpPolicy.Normal
  udpPolicy : req.udpPolicy.Normal
  passwordProtected : req.passwordProtected < 2 ^ 8

theorem readCreateRoom_checked {p : Bytes} {req : CreateRequest}
    (h : ByteBuffer.parse readCreateRoom p = some (.ok req)) : req.Checked := by
  obtain ⟨⟨res, rest⟩, h, rfl⟩ := Option.map_eq_some_iff.mp h
  unfold readCreateRoom at h
  dsimp only at h
  obtain ⟨name, r₁, _, h⟩ := ByteBuffer.bind_eq_some.mp h
  split at h
  · cases h
  next hname =>
  obtain ⟨n, r₂, _, h⟩ := ByteBuffer.bind_eq_some.mp h
  split at h
  · cases h
  next hmax =>
  obtain ⟨m, r₃, _, h⟩ := ByteBuffer.bind_eq_some.mp h
  split at h
  · cases h
  obtain ⟨shape, r₄, _, h⟩ := ByteBuffer.bind_eq_some.mp h
  split at h
  · cases h
  obtain ⟨pwd, r₅, hpwd, h⟩ := ByteBuffer.bind_eq_some.mp h
  have hpwd : pwd < 2 ^ 8 := by simpa using ByteBuffer.readUInt_lt hpwd
  have hname : name.length ≤ MAX_ROOM_NAME_LEN := by
    simp only [isValidRoomName, decide_eq_true_eq, not_not] at hname
    exact hname.2
  have hplayers : 2 ≤ n ∧ n ≤ MAX_PLAYERS := by
    simpa only [validMaxPlayers, decide_eq_true_eq, not_not] using hmax
  -- the two ways to read the password end alike
  have hchecked : ∀ {salt hash : Bytes} {mtu : Nat}, CreateRequest.Checked {
      roomName := name, maxPlayers := n
      tcpPolicy :=
        normalizeTrafficPolicy shape.tcpMode shape.tcpFec shape.tcpProfile makeDefaultTcpPolicy
      udpPolicy :=
        normalizeTrafficPolicy shape.udpMode shape.udpFec shape.udpProfile makeDefaultUdpPolicy
      passwordProtected := pwd, pwdSalt := salt, pwdHash := hash, mtu := mtu } := fun {_ _ _} =>
    ⟨hname, hplayers.1, hplayers.2, normalizeTrafficPolicy_normal _ _ _ _,
      normalizeTrafficPolicy_normal _ _ _ _, hpwd⟩
  split at h
  · obtain ⟨_, _, _, h⟩ := ByteBuffer.bind_eq_some.mp h
    obtain ⟨_, _, _, h⟩ := ByteBuffer.bind_eq_some.mp h
    obtain ⟨_, _, _, h⟩ := ByteBuffer.bind_eq_some.mp h
    obtain ⟨_, _, _, h⟩ := ByteBuffer.bind_eq_some.mp h
    cases h
    exact hchecked
  · obtain ⟨_, _, _, h⟩ := ByteBuffer.bind_eq_some.mp h
    obtain ⟨_, _, _, h⟩ := ByteBuffer.bind_eq_some.mp h
    cases h
    exact hchecked

/-- A new room in the table, or one that was there, with these leases. -/
theorem registry_rooms {s : Server} {m : RoomManager} {R : Nat} {room : Room}
    (hget : ∀ id, m.getRoom id = if id = R then some room else s.rooms.getRoom id) :
    ({ s with rooms := m } : Server).registry = s.registry.setRoom R room.leases := by
  refine Reg.ext rfl ?_ rfl rfl rfl rfl rfl rfl rfl rfl rfl
  funext id
  simp only [registry, hget, Reg.setRoom, Function.update_apply]
  split <;> rfl

theorem createRoomFor_handles {s : Server} {fd : Fd} {c : ClientSession} (h : Good S s)
    (hc : s.clients[fd]? = some c) (hst : c.state = .loggedIn) {req : CreateRequest}
    (hreq : req.Checked) (hcap : s.rooms.size < s.limits.maxRooms)
    (hS : ∀ {R}, s.rooms.getRoom R = none → S.Creates fd c.peerId R) :
    Handles S fd s (s.createRoomFor K fd req) := by
  have hwf := h.inv.wf (sessions_registry hc)
  unfold createRoomFor
  have hidle := generateLeaseToken_idle s
  rcases htok : s.generateLeaseToken with ⟨token, s₁⟩
  rw [htok] at hidle
  have h₁ : Good S s₁ := h.evolve hidle.evolves
  have hc₁ : s₁.clients[fd]? = some c := hidle.clients ▸ hc
  refine hidle.evolves.handles ?_
  rcases token with _ | leaseToken
  · exact sendError_handles K hc₁ _ _
  dsimp only
  rw [client_eq hc₁]
  have hcap₁ : s₁.rooms.size < s₁.limits.maxRooms := by
    rw [rooms_of_world hidle.world, (SameConfig.of_world hidle.world).limits]
    exact hcap
  rcases hcr :
    s₁.rooms.createRoom req.roomName c.peerId req.maxPlayers req.tcpPolicy req.udpPolicy req.mtu
    req.passwordProtected req.pwdHash req.pwdSalt with ⟨room, rooms⟩
  obtain ⟨hR, hnone, hempty, hrooms, hget⟩ :=
    RoomManager.createRoom_spec h₁.rooms hcap₁ hreq.roomName
    hreq.minPlayers hreq.maxPlayers hreq.tcpPolicy hreq.udpPolicy hreq.passwordProtected hcr
  have hnew : s₁.registry.rooms room.id = none := by simp [registry, hnone]
  dsimp only
  rcases hadd : room.addLease c.peerId c.name leaseToken with _ | ⟨lease, room₂⟩
  · -- the room goes again
    dsimp only
    generalize hs₂ : ({ s₁ with rooms := rooms.eraseRoom room.id } : Server) = s₂
    obtain ⟨hev, hc₂⟩ : Evolves S s₁ s₂ ∧ s₂.clients[fd]? = some c := by
      subst hs₂
      refine ⟨⟨?_, ⟨fun _ => hrooms.eraseRoom room.id, fun hh id r hr => ?_⟩, ⟨rfl, rfl, rfl, rfl⟩⟩,
        hc₁⟩
      case refine_2 =>
        dsimp only at hr
        rw [RoomManager.getRoom_eraseRoom, hget] at hr
        split at hr
        · cases hr
        · exact hh hr
      have hsame : ({ s₁ with rooms := rooms.eraseRoom room.id } : Server).registry =
          s₁.registry := by
        refine Reg.ext rfl ?_ rfl rfl rfl rfl rfl rfl rfl rfl rfl
        funext id
        simp only [registry, RoomManager.getRoom_eraseRoom, hget]
        split
        · next heq => rw [heq, hnone]
        · rfl
      rw [hsame]
    exact hev.handles (sendError_handles K hc₂ _ _)
  obtain ⟨_, _, hlp, hlname, hltok, hlon, hhost, _, hleases, hshape⟩ := Room.addLease_eq_some hadd
  rw [hempty, List.nil_append] at hleases
  have hRid : room₂.id = room.id := hshape.id
  dsimp only
  rw [hRid]
  -- the room with its first member
  generalize hs₂ : Server.setRoom _ room.id room₂ = s₂
  obtain ⟨hr₂, hrooms₂, hcfg₂, hc₂⟩ : s₂.registry = s₁.registry.setRoom room.id [lease] ∧
      RoomManager.Kept s₁.limits.maxRooms s₁.rooms s₂.rooms ∧ SameConfig s₁ s₂ ∧
      s₂.clients[fd]? = some c := by
    subst hs₂
    refine ⟨?_, ⟨fun _ => ?_, fun hh id r hr => ?_⟩, ⟨rfl, rfl, rfl, rfl⟩, hc₁⟩
    · rw [registry_setRoom, registry_rooms hget, hleases]
      simp [Reg.setRoom]
    · exact hrooms.setRoom (by rw [hget, if_pos rfl]) hshape.id fun hlist =>
        Room.listable_addLease hlist hadd
    · dsimp only [setRoom] at hr
      rw [RoomManager.getRoom_setRoom] at hr
      split at hr
      · cases hr
        exact Room.settled_addLease hadd
      · next hne =>
        rw [hget, if_neg hne] at hr
        exact hh hr
  have hsized : Sized lease := ⟨hhost.lt, hlname ▸ hwf.name, by simp [hlon]⟩
  rcases hsend :
    (s₂.modify fd fun c => enterRoom c room.id lease.virtualIP leaseToken).sendClientMsg K fd
    MSG_ROOM_CREATED (roomCreatedResponse room₂ lease.virtualIP leaseToken) with ⟨ok, s₃⟩
  obtain ⟨hw₃, c₃, hc₃, hr₃, hok, ext, lost, d, hd, hsess⟩ :=
    enterRoom_answer K hc₂ (f := fun c => enterRoom c room.id lease.virtualIP leaseToken) rfl hsend
  rw [hr₂] at hr₃
  have hrooms₃ : RoomManager.Kept s₁.limits.maxRooms s₁.rooms s₃.rooms := by
    rw [rooms_of_world hw₃]
    exact hrooms₂
  have hcfg₃ : SameConfig s₁ s₃ := hcfg₂.trans (SameConfig.of_world hw₃)
  cases ok with
  | false =>
    have hroomOk : Reg.RoomOk ([] ++ [lease]) := ⟨by simp, by simp, by simpa using hsized⟩
    simpa using rollback_handles hc₁ hst (Or.inr ⟨hnew, rfl⟩) hlp (by simp) hroomOk hc₃
      (by simpa using hr₃) hd rfl hsess hrooms₃ hcfg₃
  | true =>
    obtain ⟨_, hentered⟩ := hok rfl
    have hev : Evolves S s₁ s₃ := by
      refine ⟨.single ?_, hrooms₃, hcfg₃⟩
      have hstep := Reg.Step.create (S := S)
        (sessions_registry hc₁) hst hR hnew hlp hlname hlon hsized
        (show SaysCreated (MSG_ROOM_CREATED, roomCreatedResponse room₂ lease.virtualIP leaseToken)
          from rfl)
        (hS (rooms_of_world hidle.world ▸ hnone))
      rw [hr₃, hentered]
      rw [Reg.entered, hltok, hlname] at hstep
      exact hstep
    have hstill := broadcastRoomListPush_still K s₃
    obtain ⟨c₄, hc₄, _⟩ := hstill.client hc₃
    simpa using (show Handles S fd s₁ (s₃.broadcastRoomListPush K) from
      ⟨hev.trans hstill.evolves, mem_clients hc₄⟩)

theorem onCreateRoom_handles {s : Server} {fd : Fd} {c : ClientSession} (h : Good S s)
    (hc : s.clients[fd]? = some c) (hst : c.state = .loggedIn) (p : Bytes)
    (hS : ∀ {R}, s.rooms.getRoom R = none → S.Creates fd c.peerId R) :
    Handles S fd s (s.onCreateRoom K fd p) := by
  unfold onCreateRoom
  rw [client_eq hc]
  dsimp only
  split
  · exact sendError_handles K hc _ _
  split
  · exact sendError_handles K hc _ _
  have hidle := takeIpToken_idle s c.remoteIpv4 .creates 4 15
  generalize s.takeIpToken c.remoteIpv4 .creates 4 15 = res at hidle ⊢
  have hc₁ : res.2.clients[fd]? = some c := hidle.clients ▸ hc
  refine hidle.evolves.handles ?_
  split
  · exact sendError_handles K hc₁ _ _
  split
  · exact sendError_handles K hc₁ _ _
  next hcap =>
  split
  · exact kill_handles hc₁
  · exact sendError_handles K hc₁ _ _
  next req hparse =>
  split
  · exact kill_handles hc₁
  · exact createRoomFor_handles K (h.evolve hidle.evolves) hc₁ hst
      (readCreateRoom_checked hparse) (by omega)
      fun hnone => hS (rooms_of_world hidle.world ▸ hnone)

/-- The news of a member go out: to the room, and between the peers. -/
theorem announce_handles (s₀ : Server) {s : Server} {fd : Fd} {c : ClientSession}
    (hc : s.clients[fd]? = some c) {R : Nat} {room : Room} (hinv : s.registry.Inv S)
    (hroom : s.rooms.getRoom R = some room) (msgType : UInt8)
    (hstep : ∀ {σ'}, s.registry.Noticed R c.peerId (msgType, memberNotice c) σ' →
      Reg.Step S s₀.registry (s.registry.tell R c.peerId (msgType, memberNotice c) σ'))
    (hrooms : RoomManager.Kept s₀.limits.maxRooms s₀.rooms s.rooms) (hcfg : SameConfig s₀ s) :
    Handles S fd s₀ (s.broadcastToRoom K R msgType (memberNotice c) c.peerId) := by
  obtain ⟨σ', hσ, hr, hw⟩ := broadcastToRoom_tell K hinv hroom c.peerId msgType (memberNotice c)
  refine ⟨⟨?_, ?_, hcfg.trans (SameConfig.of_world hw)⟩, ?_⟩
  · rw [hr]
    exact .single (hstep hσ)
  · rw [rooms_of_world hw]
    exact hrooms
  · obtain ⟨d, hd, _⟩ := Reg.Pointwise.forth hσ (sessions_registry hc)
    have hd' : (s.broadcastToRoom K R msgType (memberNotice c) c.peerId).registry.sessions fd =
        some d := by
      rw [hr]
      exact hd
    obtain ⟨e, he, _⟩ := exists_of_sessions hd'
    exact mem_clients he

theorem Handles.still {s₁ s₂ s₃ : Server} {fd : Fd} (h : Handles S fd s₁ s₂) (h' : Still s₂ s₃) :
    Handles S fd s₁ s₃ := by
  obtain ⟨c, hc⟩ := exists_client h.there
  obtain ⟨c', hc', _⟩ := h'.client hc
  exact ⟨h.evolves.trans h'.evolves, mem_clients hc'⟩

theorem Handles.notifyRelayPeers {s s₁ : Server} {fd : Fd} (hgood : Good S s)
    (h : Handles S fd s s₁) :
    Handles S fd s (s₁.notifyRelayPeers K fd) := by
  obtain ⟨c, hc⟩ := exists_client h.there
  exact h.still (notifyRelayPeers_silent K (hgood.evolve h.evolves).inv hc).still

theorem completeJoin_handles {s : Server} {fd : Fd} {c : ClientSession} (h : Good S s)
    (hc : s.clients[fd]? = some c) (hst : c.state = .loggedIn) {R : Nat} {room : Room}
    (hroom : s.rooms.getRoom R = some room) (hS : S.Joins fd c.peerId R) :
    Handles S fd s (s.completeJoin K fd R room) := by
  have hwf := h.inv.wf (sessions_registry hc)
  unfold completeJoin
  have hidle := generateLeaseToken_idle s
  rcases htok : s.generateLeaseToken with ⟨token, s₁⟩
  rw [htok] at hidle
  have h₁ : Good S s₁ := h.evolve hidle.evolves
  have hc₁ : s₁.clients[fd]? = some c := hidle.clients ▸ hc
  have hroom₁ : s₁.rooms.getRoom R = some room := by rw [rooms_of_world hidle.world]; exact hroom
  refine hidle.evolves.handles ?_
  rcases token with _ | leaseToken
  · exact sendError_handles K hc₁ _ _
  dsimp only
  rw [client_eq hc₁]
  rcases hadd : room.addLease c.peerId c.name leaseToken with _ | ⟨lease, room₂⟩
  · exact sendError_handles K hc₁ _ _
  dsimp only
  obtain ⟨hfull, hhas, hlp, hlname, hltok, hlon, hhost, _, hleases, hshape⟩ :=
    Room.addLease_eq_some hadd
  have hls := rooms_registry hroom₁
  have hroomOk := h₁.inv.leased.room hls
  have hsized : Sized lease := ⟨hhost.lt, hlname ▸ hwf.name, by simp [hlon]⟩
  have hR : R ≠ 0 := h₁.inv.leased.room_ne_zero hls
  have hlen : room.leases.length < 255 := by
    have hmax := (h₁.rooms.room hroom₁).2.2.2.2.maxPlayers
    have hlt : room.leases.length < room.maxPlayers := by simpa [Room.isFull] using hfull
    have : MAX_PLAYERS < 255 := by decide
    omega
  have hno : ∀ l' ∈ room.leases, l'.peerId ≠ c.peerId := by
    intro l' hl' hp'
    rw [Room.hasLease_iff.mpr ⟨l', hl', hp'⟩] at hhas
    cases hhas
  -- the room with its new member
  generalize hs₂ : s₁.setRoom R room₂ = s₂
  obtain ⟨hr₂, hrooms₂, hcfg₂, hc₂, hroom₂⟩ :
    s₂.registry = s₁.registry.setRoom R (room.leases ++ [lease]) ∧
      RoomManager.Kept s₁.limits.maxRooms s₁.rooms s₂.rooms ∧ SameConfig s₁ s₂ ∧
      s₂.clients[fd]? = some c ∧
      s₂.rooms.getRoom R = some room₂ := by
    subst hs₂
    refine ⟨by rw [registry_setRoom, hleases],
      ⟨fun hw => ?_, fun hh => hh.setRoom (Room.settled_addLease hadd)⟩,
      ⟨rfl, rfl, rfl, rfl⟩, hc₁, ?_⟩
    · exact hw.setRoom hroom₁ hshape.id fun hlist => Room.listable_addLease hlist hadd
    rw [setRoom, RoomManager.getRoom_setRoom, if_pos rfl]
  rw [sendJoinResponse]
  generalize ClientSession.virtualIP (Server.client _ fd) = vip
  rcases hsend : (s₂.modify fd fun c => enterRoom c R lease.virtualIP leaseToken).sendClientMsg K fd
    MSG_JOIN_RESP (joinResponse room₂ vip leaseToken) with ⟨ok, s₃⟩
  obtain ⟨hw₃, c₃, hc₃, hr₃, hok, ext, lost, d, hd, hsess⟩ :=
    enterRoom_answer K hc₂ (f := fun c => enterRoom c R lease.virtualIP leaseToken) rfl hsend
  rw [hr₂] at hr₃
  have hrooms₃ : RoomManager.Kept s₁.limits.maxRooms s₁.rooms s₃.rooms := by
    rw [rooms_of_world hw₃]
    exact hrooms₂
  have hcfg₃ : SameConfig s₁ s₃ := hcfg₂.trans (SameConfig.of_world hw₃)
  have hroomOk₂ : Reg.RoomOk (room.leases ++ [lease]) := hroomOk.append
    (fun l' hl' hp' => hno l' hl' (hp'.trans hlp)) hlen hsized
  cases ok with
  | false =>
    simpa using rollback_handles hc₁ hst (Or.inl hls) hlp hno hroomOk₂ hc₃ hr₃ hd rfl hsess
      hrooms₃ hcfg₃
  | true =>
    obtain ⟨_, hentered⟩ := hok rfl
    have hroom₃ : s₃.rooms.getRoom R = some room₂ := by rw [rooms_of_world hw₃]; exact hroom₂
    have hreg : s₃.registry = s₁.registry.entered fd c.toSess R lease (room.leases ++ [lease])
        (MSG_JOIN_RESP, joinResponse room₂ vip leaseToken) := by
      rw [hr₃, hentered, Reg.entered, hltok, hlname]
      rfl
    have hinv : s₃.registry.Inv S := by
      rw [hreg]
      refine h₁.inv.enterNew (sessions_registry hc₁) hst hR ?_ hroomOk hlp hlon hsized hlen
      intro l'
      constructor
      · rintro ⟨ls, hls', hmem⟩
        obtain rfl := Option.some.inj (hls.symm.trans hls')
        exact hmem
      · intro hmem
        exact ⟨_, hls, hmem⟩
    have hp₃ : c₃.peerId = c.peerId := congrArg Sess.peerId hentered
    have hnotice : memberNotice c₃ = writeMember lease := by
      have hvip₃ : c₃.virtualIP = lease.virtualIP := congrArg Sess.virtualIP hentered
      have hname₃ : c₃.name = lease.name := (congrArg Sess.name hentered).trans hlname.symm
      rw [memberNotice, writeMember, hp₃, hvip₃, hname₃, hlp]
    have hannounce := announce_handles K s₁ hc₃ hinv hroom₃ MSG_PEER_JOINED (fun hσ => by
      rw [hp₃, hreg] at hσ ⊢
      exact .join (sessions_registry hc₁) hst hls hlp hlname hlon hsized hlen
        ⟨room₂, vip, leaseToken, hleases, rfl⟩ ⟨Or.inl rfl, hnotice⟩ hS hσ) hrooms₃ hcfg₃
    simp only [not_true_eq_false, if_false, client_eq hc₃]
    exact (hannounce.still (broadcastRoomListPush_still K _)).notifyRelayPeers K h₁

/-- The session begins or ends the password dialogue. -/
theorem dialogue_evolves {s s' : Server} {fd : Fd} {c : ClientSession}
    (hc : s.clients[fd]? = some c)
    (hst : c.state = .loggedIn ∨ c.state = .awaitRoomPassword) {state : SessionState}
    {R : Nat} {x : Bytes}
    (hstate : state = .loggedIn ∧ R = 0 ∨ state = .awaitRoomPassword ∧ R ≠ 0 ∧ S.Challenges fd R x)
    (hr : s'.registry = s.registry.setSession fd { c.toSess with
      state := state, pendingJoinRoomId := R, authChallenge := x })
    (hw : s'.world = s.world) : Evolves S s s' := by
  refine Evolves.of_world ?_ hw
  rw [hr]
  exact .single (.lobby (sessions_registry hc) hst hstate)

/-- The sweep that some handlers begin with. -/
theorem sweep_spec {s : Server} {fd : Fd} {c : ClientSession} (h : Good S s)
    (hc : s.clients[fd]? = some c) :
    Evolves S s (s.time.2.cleanupExpiredLeases K s.time.1) ∧
      (∃ c', (s.time.2.cleanupExpiredLeases K s.time.1).clients[fd]? = some c' ∧
        Reg.Sends c.toSess c'.toSess) ∧
      KeepsShapes s.rooms (s.time.2.cleanupExpiredLeases K s.time.1).rooms := by
  have hidle := time_idle s
  have hc₁ : s.time.2.clients[fd]? = some c := hidle.clients ▸ hc
  have h₁ := h.evolve (S := S) hidle.evolves
  have hsettles := (cleanupExpiredLeases_settles K h₁ s.time.1).1
  refine ⟨hidle.evolves.trans (cleanupExpiredLeases_evolves K h₁ s.time.1), hsettles.client hc₁, ?_⟩
  exact (KeepsShapes.of_eq (rooms_of_world hidle.world)).trans hsettles.shapes

/-- The random bytes wait until somebody asks for them. -/
theorem keepsRandom : RoomEffects fun s s' : Server => s'.env.random = s.env.random where
  refl _ := rfl
  trans h h' := h'.trans h
  modify _ _ _ _ := rfl
  peerMap _ _ := rfl
  dataFdMap _ _ := rfl
  act _ _ := rfl
  close _ _ := rfl
  append s fd dataChannel msgType body _ _ := by
    unfold appendSendBuffer
    dsimp only
    split
    · split <;> rfl
    · split <;> rfl
  flush _ _ _ := rfl
  clear _ _ _ := rfl
  rooms _ _ := rfl
  free _ _ := rfl
  revision _ _ := rfl
  publish _ _ _ := rfl

theorem time_random (s : Server) : s.time.2.env.random = s.env.random := by
  unfold time
  split <;> rfl

theorem secureRandomBytes_of_random {s s' : Server} (h : s'.env.random = s.env.random)
    (size : Nat) :
    (s'.secureRandomBytes size).1 = (s.secureRandomBytes size).1 := by
  unfold secureRandomBytes
  rw [h]
  split <;> rfl

theorem onJoinRoom_handles {s : Server} {fd : Fd} {c : ClientSession} (h : Good S s)
    (hc : s.clients[fd]? = some c) (hst : c.state = .loggedIn) (p : Bytes)
    (hS : ∀ {R room}, ByteBuffer.parse ByteBuffer.readU32 p = some R →
      s.rooms.getRoom R = some room → room.passwordProtected = 0 → S.Joins fd c.peerId R)
    (hdialogue : ∀ {R room}, ByteBuffer.parse ByteBuffer.readU32 p = some R →
      s.rooms.getRoom R = some room → room.passwordProtected ≠ 0 →
      ∀ {x}, (s.secureRandomBytes 32).1 = some x → S.Challenges fd R x) :
    Handles S fd s (s.onJoinRoom K fd p) := by
  unfold onJoinRoom
  rw [client_eq hc]
  dsimp only
  split
  · exact sendError_handles K hc _ _
  split
  · exact sendError_handles K hc _ _
  obtain ⟨hev, ⟨c₁, hc₁, hsends⟩, hshapes⟩ := sweep_spec K h hc
  have hrnd := (keepsRandom.cleanupExpiredLeases K s.time.2 s.time.1).trans (time_random s)
  generalize s.time.2.cleanupExpiredLeases K s.time.1 = s₁ at hev hc₁ hshapes hrnd ⊢
  have h₁ : Good S s₁ := h.evolve hev
  have hst₁ : c₁.state = .loggedIn := by
    rw [show c₁.state = c.state from congrArg Sess.state (Sends.same hsends)]
    exact hst
  refine hev.handles ?_
  split
  · exact kill_handles hc₁
  next roomId hparse =>
  split
  · exact sendError_handles K hc₁ _ _
  next room hroom =>
  split
  · exact sendError_handles K hc₁ _ _
  split
  · -- the password dialogue
    next hprotected =>
    have hidle := takeIpToken_idle s₁ c.remoteIpv4 .roomPasswordFailures 32 2
    have hrnd₁ : (s₁.takeIpToken c.remoteIpv4 .roomPasswordFailures 32 2).2.env.random =
        s.env.random :=
      (time_random s₁).trans hrnd
    generalize s₁.takeIpToken c.remoteIpv4 .roomPasswordFailures 32 2 = res at hidle hrnd₁ ⊢
    rw [← hidle.clients] at hc₁
    refine hidle.evolves.handles ?_
    split
    · exact sendError_handles K hc₁ _ _
    generalize hs₂ : res.2.modify fd _ = s₂
    obtain ⟨hr₂, hw₂, hc₂, hdraw⟩ : s₂.registry = res.2.registry.setSession fd { c₁.toSess with
          pendingJoinRoomId := roomId, state := .awaitRoomPassword } ∧ s₂.world = res.2.world ∧
        s₂.clients[fd]? = some { c₁ with
          pendingJoinRoomId := roomId, state := .awaitRoomPassword } ∧
        (s₂.secureRandomBytes 32).1 = (s.secureRandomBytes 32).1 := by
      subst hs₂
      refine ⟨registry_modify hc₁, rfl, clients_modify hc₁, secureRandomBytes_of_random ?_ 32⟩
      exact hrnd₁
    have hrandom := secureRandomBytes_idle s₂ 32
    generalize s₂.secureRandomBytes 32 = random at hrandom hdraw ⊢
    rw [← hrandom.clients] at hc₂
    -- the dialogue begins with the challenge, or does not begin
    split
    · generalize hs₃ : random.2.modify fd _ = s₃
      obtain ⟨hev₃, c₃, hc₃⟩ : Evolves S res.2 s₃ ∧ ∃ c₃, s₃.clients[fd]? = some c₃ := by
        subst hs₃
        refine ⟨dialogue_evolves (x := c₁.authChallenge) hc₁ (Or.inl hst₁) (Or.inl ⟨rfl, rfl⟩) ?_
          (hrandom.world.trans hw₂), _, clients_modify hc₂⟩
        rw [registry_modify hc₂, hrandom.registry, hr₂, setSession_setSession]
        rfl
      exact hev₃.handles (sendError_handles K hc₃ _ _)
    · next challenge hsome =>
      generalize hs₃ : random.2.modify fd _ = s₃
      obtain ⟨hev₃, c₃, hc₃⟩ : Evolves S res.2 s₃ ∧ ∃ c₃, s₃.clients[fd]? = some c₃ := by
        subst hs₃
        obtain ⟨room₀, hroom₀, hshape⟩ := hshapes roomId room hroom
        have hchallenge := hdialogue hparse hroom₀ (hshape.passwordProtected ▸ hprotected)
          (hdraw.symm.trans hsome)
        refine ⟨dialogue_evolves hc₁ (Or.inl hst₁)
          (Or.inr ⟨rfl, (h₁.rooms.room hroom).2.1, hchallenge⟩) ?_
          (hrandom.world.trans hw₂), _, clients_modify hc₂⟩
        rw [registry_modify hc₂, hrandom.registry, hr₂, setSession_setSession]
        rfl
      exact hev₃.handles ((sendClientMsg_silent K hc₃ rfl _).handles hc₃)
  · next hopen =>
    obtain ⟨room₀, hroom₀, hshape⟩ := hshapes roomId room hroom
    have hjoins := hS hparse hroom₀ (hshape.passwordProtected.symm.trans (not_not.mp hopen))
    have hp₁ : c₁.peerId = c.peerId := congrArg Sess.peerId (Sends.same hsends)
    exact completeJoin_handles K h₁ hc₁ hst₁ hroom (hp₁ ▸ hjoins)

theorem onAuthResponse_handles {s : Server} {fd : Fd} {c : ClientSession} (h : Good S s)
    (hc : s.clients[fd]? = some c) (p : Bytes)
    (hS : ∀ {room}, s.rooms.getRoom c.pendingJoinRoomId = some room → p.length = 32 →
      computeChallengeResponse K room.passwordHash c.authChallenge = p →
      S.Joins fd c.peerId c.pendingJoinRoomId) :
    Handles S fd s (s.onAuthResponse K fd p) := by
  unfold onAuthResponse
  rw [client_eq hc]
  dsimp only
  split
  · exact sendError_handles K hc _ _
  next hstate =>
  have hst : c.state = .awaitRoomPassword := by
    by_contra hne
    exact hstate (Or.inl hne)
  obtain ⟨hev, ⟨c₁, hc₁, hsends⟩, hshapes⟩ := sweep_spec K h hc
  generalize s.time.2.cleanupExpiredLeases K s.time.1 = s₁ at hev hc₁ hshapes ⊢
  have hst₁ : c₁.state = .awaitRoomPassword := by
    rw [show c₁.state = c.state from congrArg Sess.state (Sends.same hsends)]
    exact hst
  have hev₂ : Evolves S s₁ (s₁.modify fd leaveChallenge) :=
    dialogue_evolves hc₁ (Or.inr hst₁) (Or.inl ⟨rfl, rfl⟩) (registry_modify hc₁) rfl
  obtain ⟨c₂, hc₂, hst₂, hp₂⟩ : ∃ c₂, (s₁.modify fd leaveChallenge).clients[fd]? = some c₂ ∧
      c₂.state = .loggedIn ∧ c₂.peerId = c.peerId :=
    ⟨_, clients_modify hc₁, rfl, congrArg Sess.peerId (Sends.same hsends)⟩
  have hrooms : (s₁.modify fd leaveChallenge).rooms = s₁.rooms := rfl
  generalize s₁.modify fd leaveChallenge = s₂ at hev₂ hc₂ hrooms ⊢
  refine hev.handles ?_
  split
  · exact hev₂.handles (sendError_handles K hc₂ _ _)
  next room hroom =>
  split
  · exact hev₂.handles (sendError_handles K hc₂ _ _)
  next hresponse =>
  split
  · exact hev₂.handles (sendError_handles K hc₂ _ _)
  · simp only [not_or, not_not, ne_eq] at hresponse
    obtain ⟨room₀, hroom₀, hshape⟩ := hshapes _ room hroom
    have hjoins := hS hroom₀ hresponse.1 (hshape.passwordHash ▸ hresponse.2)
    exact hev₂.handles (completeJoin_handles K ((h.evolve hev).evolve hev₂) hc₂ hst₂
      (by rw [hrooms]; exact hroom)
      (hp₂ ▸ hjoins))

/-! ### Resume -/

/-- Binding a peer id that is bound already. -/
theorem bindPeerIndex_self {s : Server} {fd : Fd} {p : Nat} (hp : p ≠ 0)
    (hk : s.peerMap[p]? = some fd) :
    s.bindPeerIndex fd p = (true, s) := by
  have hsame : s.peerMap.insert p fd = s.peerMap := by
    refine Std.ExtTreeMap.ext_getElem? fun k => ?_
    rw [getElem?_insert_eq]
    split
    · next heq => rw [heq, hk]
    · rfl
  simp [bindPeerIndex, bindIndex, bindUniqueSessionIndex, hp, hk, hsame]

theorem mapLease_mapLease {p : Nat} {f g : RoomLease → RoomLease} (hg : KeepsLease g)
    (ls : List RoomLease) :
    mapLease p f (mapLease p g ls) = mapLease p (fun l => f (g l)) ls := by
  simp only [mapLease, List.map_map]
  refine List.map_congr_left fun l _ => ?_
  by_cases hl : l.peerId = p <;> simp [hl, hg.peerId]

theorem completeResume_handles {s : Server} {fd : Fd} {c : ClientSession} (h : Good S s)
    (hc : s.clients[fd]? = some c) (hst : c.state = .resumePending) {R : Nat} {room : Room}
    {lease : RoomLease} (hroom : s.rooms.getRoom R = some room)
    (hl : room.leaseByPeerId c.peerId = some lease) (hS : S.Reenters fd R lease) :
    Handles S fd s (s.completeResume K fd R room lease) := by
  have hwf := h.inv.wf (sessions_registry hc)
  have hp0 : c.peerId ≠ 0 := hwf.identity.mp (by rw [show c.toSess.state = _ from hst]; rfl)
  obtain ⟨hmem, hlp⟩ := Room.mem_of_leaseByPeerId hl
  have hls := rooms_registry hroom
  have hroomOk := h.inv.leased.room hls
  unfold completeResume
  dsimp only
  rw [hlp]
  -- the lease is online, and the session in the room
  have hleases := Room.markLeaseOnline_leases hroomOk.1 c.peerId
  have hshape := Room.Shrinks.markLeaseOnline room c.peerId
  have hsettled := fun hset : room.Settled => Room.settled_markLeaseOnline hset c.peerId
  generalize room.markLeaseOnline c.peerId = room₁ at hleases hshape hsettled ⊢
  generalize hs₁ : s.setRoom R room₁ = s₁
  obtain ⟨hr₁, hrooms₁, hcfg₁, hc₁, hroom₁⟩ :
      s₁.registry = s.registry.setRoom R (mapLease c.peerId (·.markOnline) room.leases) ∧
      RoomManager.Kept s.limits.maxRooms s.rooms s₁.rooms ∧ SameConfig s s₁ ∧
      s₁.clients[fd]? = some c ∧
      s₁.rooms.getRoom R = some room₁ := by
    subst hs₁
    refine ⟨by rw [registry_setRoom, hleases], .setRoom hroom hshape hsettled,
      ⟨rfl, rfl, rfl, rfl⟩, hc, ?_⟩
    rw [setRoom, RoomManager.getRoom_setRoom, if_pos rfl]
  generalize hf : (fun c : ClientSession =>
    ({ enterRoom c R lease.virtualIP lease.token with name := lease.name } : ClientSession)) = f
  have hfc : (f c).toSess = { c.toSess.enter R lease.virtualIP lease.token with
      name := lease.name } := by
    subst hf
    rfl
  have hk : (s₁.modify fd f).peerMap[c.peerId]? = some fd := by
    have hsame : (s₁.modify fd f).peerMap[c.peerId]? = s.registry.peerMap c.peerId :=
      congrFun (congrArg Reg.peerMap hr₁) c.peerId
    rw [hsame]
    exact h.inv.indexed.peer.mpr ⟨hp0, _, sessions_registry hc, rfl⟩
  rw [client_eq (clients_modify hc₁), show (f c).peerId = c.peerId from congrArg Sess.peerId hfc,
    bindPeerIndex_self hp0 hk]
  simp only [not_true_eq_false, if_false]
  rw [sendJoinResponse]
  generalize ClientSession.virtualIP (Server.client _ fd) = vip
  rcases hsend :
    (s₁.modify fd f).sendClientMsg K fd MSG_JOIN_RESP (joinResponse room₁ vip lease.token)
    with ⟨ok, s₂⟩
  obtain ⟨hw₂, c₂, hc₂, hr₂, hok, ext, lost, d, hd, hsess⟩ := enterRoom_answer K hc₁ hfc hsend
  rw [hr₁] at hr₂
  have hroom₂ : s₂.rooms.getRoom R = some room₁ := by rw [rooms_of_world hw₂]; exact hroom₁
  have hrooms₂ : RoomManager.Kept s.limits.maxRooms s.rooms s₂.rooms := by
    rw [rooms_of_world hw₂]
    exact hrooms₁
  have hcfg₂ : SameConfig s s₂ := hcfg₁.trans (SameConfig.of_world hw₂)
  have hp₂ : c₂.peerId = c.peerId := by
    have hp' : c₂.toSess.peerId = d.peerId := by rw [hsess]; rfl
    exact hp'.trans (by rw [hd.same]; rfl)
  cases ok with
  | false =>
    simp only [Bool.false_eq_true, not_false_eq_true, if_true]
    rw [client_eq hc₂, hp₂]
    have hroomOk₂ : ∀ {ls}, s₂.registry.rooms R = some ls → Reg.RoomOk ls := by
      intro ls hls'
      rw [rooms_registry hroom₂, hleases] at hls'
      cases hls'
      exact hroomOk.mapLease c.peerId KeepsLease.markOnline
    obtain ⟨now, hr₃, hcl₃, hrooms₃, hcfg₃⟩ := markLeaseOffline_spec R hroomOk₂ c.peerId
    generalize s₂.markLeaseOffline R c.peerId = s₃ at hr₃ hcl₃ hrooms₃ hcfg₃ ⊢
    have hc₃ : s₃.clients[fd]? = some c₂ := by rw [hcl₃]; exact hc₂
    refine ⟨⟨?_, hrooms₂.trans hrooms₃, (hcfg₂.trans hcfg₃).trans ⟨rfl, rfl, rfl, rfl⟩⟩,
      mem_clients (clients_modify hc₃)⟩
    have hdead : ({ c₂ with alive := false } : ClientSession).toSess =
        { d.enter R lease.virtualIP lease.token with name := lease.name, alive := false } :=
      congrArg (fun e : Sess => { e with alive := false }) hsess
    have heq : (s₃.kill fd).registry = (s.registry.setSession fd
        { d.enter R lease.virtualIP lease.token with name := lease.name, alive := false }).setRoom R
          (mapLease c.peerId (fun l => l.markOnline.markOffline now) room.leases) := by
      rw [kill, registry_modify hc₃, hdead, hr₃, hr₂]
      refine Reg.ext (by simp [Reg.setSession, Reg.setRoom]) ?_ rfl rfl rfl rfl rfl rfl rfl rfl rfl
      simp [Reg.setSession, Reg.setRoom, mapLease_mapLease KeepsLease.markOnline]
    rw [heq]
    exact .single (.resumeFailed (sessions_registry hc) hst hls hmem hlp hS hd)
  | true =>
    obtain ⟨_, hentered⟩ := hok rfl
    have hreg : s₂.registry = s.registry.entered fd c.toSess R lease
        (mapLease c.peerId (·.markOnline) room.leases) (MSG_JOIN_RESP,
          joinResponse room₁ vip lease.token) := by
      rw [hr₂, hentered]
      rfl
    have hinv : s₂.registry.Inv S := by
      refine h.inv.enterAgain (sessions_registry hc) hst hls hmem hlp KeepsLease.markOnline hr₂ ?_
        fun _ => rfl
      rw [hentered]
    have hnotice : memberNotice c₂ = writeMember lease := by
      have hvip₂ : c₂.virtualIP = lease.virtualIP := congrArg Sess.virtualIP hentered
      have hname₂ : c₂.name = lease.name := congrArg Sess.name hentered
      rw [memberNotice, writeMember, hp₂, hvip₂, hname₂, hlp]
    have hannounce := announce_handles K s hc₂ hinv hroom₂ MSG_PEER_RESUMED (fun hσ => by
      rw [hp₂, hreg] at hσ ⊢
      exact .resume (sessions_registry hc) hst hls hmem hlp ⟨room₁, vip, lease.token, hleases, rfl⟩
        ⟨Or.inr rfl, hnotice⟩ hS hσ) hrooms₂ hcfg₂
    simp only [not_true_eq_false, if_false, client_eq hc₂]
    exact hannounce.notifyRelayPeers K h

/-- A session that waits for a resume can only have its lease in one room. -/
theorem noLease_of_resume {s : Server} {fd : Fd} {c : ClientSession} (h : Good S s)
    (hc : s.clients[fd]? = some c) (hst : c.state = .resumePending)
    (hno : ¬ ∃ l, s.registry.Lease c.resumeRoomId l ∧ l.peerId = c.peerId ∧
      l.token = c.resumeToken) :
    s.registry.NoLease c.peerId := by
  rintro R ⟨l, hl, hp⟩
  rcases h.inv.leased.owner hl (sessions_registry hc) hp.symm with ⟨hin, _⟩ | ⟨_, hR, htok⟩
  · rw [show c.toSess.state = .resumePending from hst] at hin
    cases hin
  · have hR : c.resumeRoomId = R := hR
    exact hno ⟨l, hR ▸ hl, hp, htok.symm⟩

theorem removeStale_spec {s : Server} {fd : Fd} {c : ClientSession} (h : Good S s)
    (hc : s.clients[fd]? = some c) (hst : c.state = .resumePending) {room : Room}
    {lease : RoomLease} (hroom : s.rooms.getRoom c.resumeRoomId = some room)
    (hl : room.leaseByPeerId c.peerId = some lease) :
    ∃ s', (s.announceLeft K c.resumeRoomId c.peerId).removeMember c.resumeRoomId c.peerId = s' ∧
      Evolves S s s' ∧ (∃ c', s'.clients[fd]? = some c' ∧ c'.toSess = c.toSess) ∧
      ¬ s'.registry.HasLease c.resumeRoomId c.peerId := by
  refine ⟨_, rfl, ?_⟩
  obtain ⟨hmem, hp⟩ := Room.mem_of_leaseByPeerId hl
  have hls := rooms_registry hroom
  have hnd := (h.inv.leased.room hls).1
  have hp0 : c.peerId ≠ 0 := hp ▸ (h.inv.leased.lease_id ⟨_, hls, hmem⟩).1
  obtain ⟨σ', hσ, hr, hw⟩ := broadcastToRoom_tell K h.inv hroom c.peerId MSG_PEER_LEFT
    (ByteBuffer.writeU32 c.peerId)
  rw [announceLeft]
  generalize s.broadcastToRoom K c.resumeRoomId MSG_PEER_LEFT _ c.peerId = s₁ at hr hw ⊢
  have hroom₁ : s₁.rooms.getRoom c.resumeRoomId = some room := by
    rw [rooms_of_world hw]; exact hroom
  obtain ⟨hreg, hcl, hrooms, hcfg⟩ := removeMember_spec (p := c.peerId) hroom₁ hnd
  have hfd : s₁.registry.sessions fd = some c.toSess := by
    obtain ⟨d, hd, _, hsame⟩ := Reg.Pointwise.forth hσ (sessions_registry hc)
    rw [hsame fun hh => hh.2.1 rfl] at hd
    rw [hr]
    exact hd
  obtain ⟨c₁, hc₁, hsess⟩ := exists_of_sessions hfd
  refine ⟨⟨?_, (RoomManager.Kept.of_eq (rooms_of_world hw)).trans hrooms,
    (SameConfig.of_world hw).trans hcfg⟩,
    ⟨c₁, by rw [hcl]; exact hc₁, hsess⟩, ?_⟩
  · -- the session is not in the room, and keeps the id
    have hlive : ¬ s.registry.LiveIn c.resumeRoomId lease.peerId := by
      rintro ⟨g, d, hd, hdp, _, hin, _⟩
      have hg := h.inv.indexed.owner_unique (sessions_registry hc) hd (hdp.trans hp) hp0
      subst hg
      rw [sessions_registry hc] at hd
      cases hd
      rw [show c.toSess.state = .resumePending from hst] at hin
      cases hin
    have hstep := Reg.Step.expire (S := S) hls hmem hlive
      (n := (MSG_PEER_LEFT, ByteBuffer.writeU32 c.peerId))
      (by rw [hp]; rfl) (by rw [hp]; exact hσ)
    have hfree : { i | i ∈ s.registry.free ∨ i = c.peerId ∧ ¬ s.registry.Owned c.peerId } =
        s.registry.free := by
      ext i
      simp only [Set.mem_ofPred_eq, or_iff_left_iff_imp]
      exact fun hi => absurd ⟨fd, c.toSess, sessions_registry hc, rfl⟩ hi.2
    rw [hp, hfree] at hstep
    have hrun := removeMember_run (S := S) (p := c.peerId) hroom₁ hnd σ'
    have hsessions : (s₁.removeMember c.resumeRoomId c.peerId).registry.sessions = σ' := by
      rw [hreg, hr]
      rfl
    rw [hr] at hrun
    refine Relation.ReflTransGen.head hstep ?_
    have hend : (s₁.removeMember c.resumeRoomId c.peerId).registry =
        { (s₁.removeMember c.resumeRoomId c.peerId).registry with sessions := σ' } := by
      rw [← hsessions]
    rw [hend]
    exact hrun
  · rintro ⟨l, ⟨ls, hls', hmem'⟩, hlp⟩
    rw [hreg] at hls'
    simp only [Function.update_self] at hls'
    split at hls'
    · cases hls'
    · cases hls'
      simp [dropLease, hlp] at hmem'

theorem dropStaleLease_spec {s : Server} {fd : Fd} {c : ClientSession} (h : Good S s)
    (hc : s.clients[fd]? = some c) (hst : c.state = .resumePending)
    (hexp : ∀ {room lease}, s.rooms.getRoom c.resumeRoomId = some room →
      room.leaseByPeerId c.peerId = some lease → lease.token = c.resumeToken →
        lease.online = false ∧ 0 < lease.expiresAt ∧ lease.expiresAt < s.clock) :
    Evolves S s (s.dropStaleLease K c.resumeRoomId c.peerId c.resumeToken) ∧
      (∃ c', (s.dropStaleLease K c.resumeRoomId c.peerId c.resumeToken).clients[fd]? = some c' ∧
        Reg.Sends c.toSess c'.toSess) ∧
      (s.dropStaleLease K c.resumeRoomId c.peerId c.resumeToken).registry.NoLease c.peerId := by
  unfold dropStaleLease
  rcases hbind : (s.rooms.getRoom c.resumeRoomId).bind (·.leaseByPeerId c.peerId) with _ | lease
  · refine ⟨Evolves.refl s, ⟨c, hc, Reg.Sends.refl _⟩, noLease_of_resume h hc hst ?_⟩
    rintro ⟨l, ⟨ls, hls, hmem⟩, hp, _⟩
    obtain ⟨room, hroom, rfl⟩ : ∃ room, s.rooms.getRoom c.resumeRoomId = some room ∧
        room.leases = ls := by
      simpa [registry] using hls
    have hfind := Room.leaseByPeerId_eq (h.inv.leased.room hls).1 hmem
    rw [hp] at hfind
    rw [hroom, Option.bind_some, hfind] at hbind
    cases hbind
  obtain ⟨room, hroom, hl⟩ := Option.bind_eq_some_iff.mp hbind
  obtain ⟨hmem, hp⟩ := Room.mem_of_leaseByPeerId hl
  have hls := rooms_registry hroom
  -- the lease of the peer is the session's own
  have htok : lease.token = c.resumeToken := by
    rcases h.inv.leased.owner ⟨_, hls, hmem⟩ (sessions_registry hc) hp.symm with
      ⟨hin, _⟩ | ⟨_, _, htok⟩
    · rw [show c.toSess.state = .resumePending from hst] at hin
      cases hin
    · exact htok.symm
  obtain ⟨hoff, hpos, hlt⟩ := hexp hroom hl htok
  have hclock := time_clock s
  have hidle := time_idle s
  dsimp only
  rw [if_neg (by simp [hoff]; omega), if_pos ⟨by omega, htok⟩]
  have h₁ : Good S s.time.2 := h.evolve hidle.evolves
  have hc₁ : s.time.2.clients[fd]? = some c := hidle.clients ▸ hc
  have hroom₁ : s.time.2.rooms.getRoom c.resumeRoomId = some room := by
    rw [rooms_of_world hidle.world]
    exact hroom
  obtain ⟨s₂, hs₂, hev₂, ⟨c₂, hc₂, hsess⟩, hgone⟩ := removeStale_spec K h₁ hc₁ hst hroom₁ hl
  rw [hs₂]
  have hstill := broadcastRoomListPush_still K s₂
  obtain ⟨c₃, hc₃, hq⟩ := hstill.client hc₂
  have hev₃ : Evolves S s.time.2 (s₂.broadcastRoomListPush K) := hev₂.trans hstill.evolves
  have hsends : Reg.Sends c.toSess c₃.toSess := hsess ▸ Reg.Sends.of_quiet hq
  refine ⟨hidle.evolves.trans hev₃, ⟨c₃, hc₃, hsends⟩, ?_⟩
  have hsame := Sends.same hsends
  have hst₃ : c₃.state = .resumePending := (congrArg Sess.state hsame).trans hst
  have hp₃ : c₃.peerId = c.peerId := congrArg Sess.peerId hsame
  have hR₃ : c₃.resumeRoomId = c.resumeRoomId := congrArg Sess.resumeRoomId hsame
  rw [← hp₃]
  refine noLease_of_resume (h₁.evolve hev₃) hc₃ hst₃ ?_
  rintro ⟨l, hl, hlp, _⟩
  rw [hR₃] at hl
  have hrooms : (s₂.broadcastRoomListPush K).registry.rooms = s₂.registry.rooms := by
    rw [hstill.rest]
  obtain ⟨ls, hls', hmem'⟩ := hl
  rw [hrooms] at hls'
  exact hgone ⟨l, ⟨ls, hls', hmem'⟩, hlp.trans hp₃⟩

theorem onResumeRoom_handles {s : Server} {fd : Fd} {c : ClientSession} (h : Good S s)
    (hc : s.clients[fd]? = some c) (p : Bytes)
    (hS : ∀ {r lease}, ByteBuffer.parse readResumeRequest p = some r → c.state = .resumePending →
      c.resumeRoomId = r.roomId → c.peerId = r.peerId → c.resumeToken = r.token → s.Asks r lease →
        S.Reenters fd r.roomId lease) :
    Handles S fd s (s.onResumeRoom K fd p) := by
  unfold onResumeRoom
  rw [client_eq hc]
  dsimp only
  split
  · exact sendError_handles K hc _ _
  split
  · exact kill_handles hc
  next r hparse =>
  split
  · exact sendError_handles K hc _ _
  next hmatch =>
  obtain ⟨hst, hpeer, hroomId, _, htoken⟩ : c.state = .resumePending ∧ c.peerId = r.peerId ∧
      c.resumeRoomId = r.roomId ∧ c.resumePeerId = r.peerId ∧ c.resumeToken = r.token := by
    simpa only [not_or, not_not, ne_eq] using hmatch
  obtain ⟨hidle, hvalid⟩ := validateResumeLease_spec s r.roomId r.peerId r.token
  have hexpired := @validateResumeLease_none s r.roomId r.peerId r.token
  have hasks := fun {room lease} hv => hS hparse hst hroomId hpeer htoken
    (@validateResumeLease_asks _ s h r room lease hv)
  generalize s.validateResumeLease r.roomId r.peerId r.token = res at hidle hvalid hexpired hasks ⊢
  have h₁ : Good S res.2 := h.evolve hidle.evolves
  have hc₁ : res.2.clients[fd]? = some c := hidle.clients ▸ hc
  refine hidle.evolves.handles ?_
  rw [← hroomId] at hasks
  rw [← hpeer, ← hroomId, ← htoken] at hvalid hexpired ⊢
  split
  · next room lease hres =>
    obtain ⟨hroom, hlease, _, _⟩ := hvalid hres
    rw [← rooms_of_world hidle.world] at hroom
    exact completeResume_handles K h₁ hc₁ hst hroom hlease (hasks hres)
  · next hres =>
    have hz := ((h₁.inv.wf (sessions_registry hc₁)).resume hst).2.2
    obtain ⟨hev₂, ⟨c₂, hc₂, hsends⟩, hno⟩ :=
      dropStaleLease_spec K h₁ hc₁ hst fun hroom hl htok => by
      rw [rooms_of_world hidle.world] at hroom
      exact hexpired hres hroom hl htok hz
    generalize res.2.dropStaleLease K c.resumeRoomId c.peerId c.resumeToken = s₂ at hev₂ hc₂ hno ⊢
    have hsame := Sends.same hsends
    have hst₂ : c₂.state = .resumePending := (congrArg Sess.state hsame).trans hst
    have hp₂ : c₂.peerId = c.peerId := congrArg Sess.peerId hsame
    refine hev₂.handles ?_
    generalize hs₃ : s₂.modify fd _ = s₃
    obtain ⟨hev₃, c₃, hc₃⟩ : Evolves S s₂ s₃ ∧ ∃ c₃, s₃.clients[fd]? = some c₃ := by
      subst hs₃
      exact ⟨modify_evolves hc₂ rfl
        (.resumeGiveUp (sessions_registry hc₂) hst₂
          (by rw [show c₂.toSess.peerId = _ from hp₂]; exact hno)),
        _, clients_modify hc₂⟩
    exact hev₃.handles (sendError_handles K hc₃ _ _)

end Server

end VlanConnect

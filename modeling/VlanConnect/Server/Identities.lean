/-
  VlanConnect/Server/Identities.lean
  ==================================
  **Lost ids and double names.**

  Two invariants that the server breaks in one kind of step each.  A session
  that is closed after its lease was swept away takes its id with it, as
  `destroyClient` counts on the sweep to give the id back.  A login with a
  resume restores the name of the lease, which somebody else may have taken in
  the meantime.  In every run without such a step the invariant holds.
-/
import VlanConnect.Server.Safety
import VlanConnect.RegistryRuns

namespace VlanConnect

namespace Server

open Registry

variable (K : Crypto) {limits : ServerLimits} {hash salt : Bytes} {s : Server}

/-! ### Runs under a condition -/

/-- The states of the runs in which every event is handled in a state that
    meets the condition. -/
inductive ReachableIf (ok : Server → Event → Prop) (limits : ServerLimits) (hash salt : Bytes) :
    Server → Prop where
  | start : ReachableIf ok limits hash salt (start limits hash salt)
  | step {s : Server} (h : ReachableIf ok limits hash salt s) (env : Env) {e : Event}
      (he : s.Enabled e)
      (hok : ok (s.prepare env) e) : ReachableIf ok limits hash salt (s.step K env e)

theorem ReachableIf.reachable {ok : Server → Event → Prop}
    (h : ReachableIf K ok limits hash salt s) :
    Reachable K limits hash salt s := by
  induction h with
  | start => exact .start
  | step _ env he _ ih => exact .step ih env he

/-- What the registry keeps in the steps that meet the condition holds in every
    state. -/
theorem ReachableIf.invariant {ok : Server → Event → Prop} {I : Reg → Prop}
    (hstart : I (Server.start limits hash salt).registry)
    (hhistory : ∀ (s : Server) env, I s.registry → I (s.prepare env).registry)
    (hstep : ∀ (s : Server) e r', s.registry.Inv (stepScope K s e) →
      Reg.Run (stepScope K s e) s.registry r' → ok s e → I s.registry → I r')
    (h : ReachableIf K ok limits hash salt s) : I s.registry := by
  induction h with
  | start => exact hstart
  | step h env he hok ih =>
    obtain ⟨hinv, hrun⟩ := (h.reachable K).run K env he
    exact hstep _ _ _ hinv hrun hok (hhistory _ env ih)

/-- The script as long as every step passes the test. -/
def scriptIf (test : Server → Bool) (s : Server) : List (Env × Event) → Option Server
  | [] => some s
  | (env, e) :: rest =>
    if s.Enabled e ∧ test s = true then scriptIf test (s.step K env e) rest else none

theorem ReachableIf.script {ok : Server → Event → Prop} {test : Server → Bool}
    (htest : ∀ (s : Server) env e, test s = true → ok (s.prepare env) e)
    {events : List (Env × Event)} {s s' : Server} (h : ReachableIf K ok limits hash salt s)
    (hs : s.scriptIf K test events = some s') :
    ReachableIf K ok limits hash salt s' := by
  induction events generalizing s with
  | nil =>
    cases hs
    exact h
  | cons step rest ih =>
    obtain ⟨env, e⟩ := step
    unfold scriptIf at hs
    split at hs
    · next he => exact ih (.step h env he.1 (htest s env e he.2)) hs
    · cases hs

/-- The state after a scripted run of the sample server. -/
def playedIf (test : Server → Bool) (events : List (Env × Event)) : Option Server :=
  (start {} Sample.authHash Sample.authSalt).scriptIf .sample test events

theorem reachableIf_of_played {ok : Server → Event → Prop} {test : Server → Bool}
    (htest : ∀ (s : Server) env e, test s = true → ok (s.prepare env) e)
    {events : List (Env × Event)} {good : Server → Bool}
    (h : (playedIf test events).any good = true) :
    ∃ s, ReachableIf .sample ok {} Sample.authHash Sample.authSalt s ∧ good s = true := by
  rcases hs : playedIf test events with _ | s
  · rw [hs] at h
    cases h
  · rw [hs] at h
    exact ⟨s, ReachableIf.start.script .sample htest hs, h⟩

/-! ### Lost ids -/

/-- The room whose lease the session holds or waits for. -/
def leaseRoom (c : ClientSession) : Nat :=
  if c.roomId ≠ 0 then c.roomId else if c.state = .resumePending then c.resumeRoomId else 0

/-- The session was in a room, or is to resume in one that is still there, and
    the room has no lease of it any more. -/
def Stranded (s : Server) (c : ClientSession) : Prop :=
  c.peerId ≠ 0 ∧ (∀ room, s.rooms.getRoom (leaseRoom c) = some room → ∀ l ∈ room.leases,
    l.peerId ≠ c.peerId) ∧
    (c.roomId ≠ 0 ∨ s.rooms.getRoom (leaseRoom c) ≠ none)

/-- The event closes no stranded session. -/
def ClosesNoneStranded (s : Server) (e : Event) : Prop :=
  ∀ (fd : Fd) (c : ClientSession), s.clients[fd]? = some c → s.Closes fd e → ¬ s.Stranded c

/-- No id is lost. -/
def IdsKept (s : Server) : Prop :=
  ∀ i, 1 ≤ i → i < s.nextPeerId → i ∈ s.freePeerIds ∨ s.OwnedId i ∨ s.LeasedId i

theorem stranded_of_orphan {c : ClientSession} (h : s.registry.Orphan c.toSess) : s.Stranded c := by
  obtain ⟨hp, hno, hroom⟩ := h
  refine ⟨hp, ?_, ?_⟩
  · intro room hr l hl hlp
    exact hno ⟨l, lease_registry.mpr ⟨room, hr, hl⟩, hlp⟩
  · by_contra hnot
    push Not at hnot
    refine hroom ⟨hnot.1, ?_⟩
    show (s.rooms.getRoom (leaseRoom c)).map Room.leases = none
    rw [hnot.2]
    rfl

theorem loses_none {e : Event} (h : s.ClosesNoneStranded e) (fd : Fd) :
    ¬ (stepScope K s e).Loses fd := by
  rintro ⟨c, hclose, hc, ho⟩
  obtain ⟨d, hd, rfl⟩ := exists_of_sessions hc
  exact h fd d hd hclose (stranded_of_orphan ho)

theorem idsKept_of_noLeak (h : s.registry.NoLeak) : s.IdsKept := by
  intro i hpos hlt
  rcases h i (Nat.one_le_iff_ne_zero.mp hpos) hlt with hi | hi | ⟨R, l, hl, hp⟩
  · exact Or.inl hi
  · exact Or.inr (Or.inl (owned_registry.mp hi))
  · obtain ⟨room, hroom, hmem⟩ := lease_registry.mp hl
    exact Or.inr (Or.inr ⟨R, room, hroom, l, hmem, hp⟩)

/-- **No id is lost as long as no stranded session is closed.** -/
theorem reachable_idsKept (h : ReachableIf K ClosesNoneStranded limits hash salt s) :
    s.IdsKept := by
  refine idsKept_of_noLeak (h.invariant K (I := Reg.NoLeak) ?_ ?_ ?_)
  · intro i h0 hlt
    exact absurd (Nat.lt_one_iff.mp hlt) h0
  · intro s env hi
    exact hi
  · intro s e r' hinv hrun hok hi
    exact hrun.noLeak hinv (loses_none K hok) hi

/-- No session at all is stranded. -/
def noneStranded (s : Server) : Bool :=
  s.clients.toList.all fun (_, c) => decide (c.peerId = 0) ||
    (s.rooms.getRoom (leaseRoom c)).any (·.leases.any (·.peerId == c.peerId)) ||
    decide (c.roomId = 0) && (s.rooms.getRoom (leaseRoom c)).isNone

theorem closesNoneStranded_of_test (s : Server) (env : Env) (e : Event)
    (h : s.noneStranded = true) :
    (s.prepare env).ClosesNoneStranded e := by
  rintro fd c hc _ ⟨hp, hno, hroom⟩
  have hmem : (fd, c) ∈ s.clients.toList := Std.ExtTreeMap.mem_toList_iff_getElem?_eq_some.mpr hc
  have hfd := List.all_eq_true.mp h _ hmem
  simp only [Bool.or_eq_true, Bool.and_eq_true, decide_eq_true_eq] at hfd
  rcases hfd with (h0 | hl) | ⟨h0, hnone⟩
  · exact hp h0
  · rcases hr : s.rooms.getRoom (leaseRoom c) with _ | room
    · rw [hr] at hl
      cases hl
    · rw [hr] at hl
      obtain ⟨l, hmem, hlp⟩ := List.any_eq_true.mp hl
      exact hno room hr l hmem (eq_of_beq hlp)
  · rcases hroom with hroom | hroom
    · exact hroom h0
    · exact hroom (Option.isNone_iff_eq_none.mp hnone)

namespace Sample

/-- Alice waits too long with her resume.  Her lease expires, while the room
    goes on with Bob, and then her connection is lost again. -/
def lateHost : List (Env × Event) :=
  hostReturns ++ say 7 1 MSG_PING [] { ticks := [100] } ++ say 6 2 MSG_PING [] quiet ++
    [({ ticks := [21] }, .timer), (quiet, .hangup 7)]

end Sample

set_option maxRecDepth 100000 in
theorem hostReturns_played : (playedIf noneStranded Sample.hostReturns).any (fun s =>
    decide (s.nextPeerId = 3 ∧ (s.client 7).peerId = 1)) = true := by
  decide +kernel

/-- The host of a room comes back, and everybody has an id. -/
theorem reachable_idsKept_hostReturns : ∃ s : Server,
    ReachableIf .sample ClosesNoneStranded {} Sample.authHash Sample.authSalt s ∧ s.nextPeerId = 3 ∧
      (s.client 7).peerId = 1 ∧ s.IdsKept := by
  obtain ⟨s, hs, hgood⟩ := reachableIf_of_played closesNoneStranded_of_test hostReturns_played
  obtain ⟨hnext, hp⟩ := of_decide_eq_true hgood
  exact ⟨s, hs, hnext, hp, reachable_idsKept .sample hs⟩

set_option maxRecDepth 100000 in
theorem lateHost_played : (played Sample.lateHost).any (fun s =>
    decide (s.control = .idle) && decide (s.nextPeerId = 3) && !s.freePeerIds.contains 1 &&
      s.clients.toList.all (fun (_, c) => decide (c.peerId ≠ 1)) &&
      s.rooms.rooms.toList.all (fun (_, r) => r.leases.all fun l => decide (l.peerId ≠ 1))) =
      true := by
  decide +kernel

/-- Id 1 is lost: it is not free, and neither a session nor a lease has it. -/
theorem lateHost_loses_id : ∃ s : Server, Reachable .sample {} Sample.authHash Sample.authSalt s ∧
    s.control = .idle ∧ 1 < s.nextPeerId ∧ 1 ∉ s.freePeerIds ∧ ¬ s.OwnedId 1 ∧ ¬ s.LeasedId 1 := by
  obtain ⟨s, hs, hgood⟩ := reachable_of_played lateHost_played
  simp only [Bool.and_eq_true, decide_eq_true_eq, Bool.not_eq_true', List.all_eq_true] at hgood
  obtain ⟨⟨⟨⟨hidle, hnext⟩, hfree⟩, hsess⟩, hlease⟩ := hgood
  refine ⟨s, hs, hidle, by omega, ?_, ?_, ?_⟩
  · rw [← Std.ExtTreeSet.contains_iff_mem, hfree]
    decide
  · rintro ⟨fd, c, hc, hp⟩
    exact hsess (fd, c) (Std.ExtTreeMap.mem_toList_iff_getElem?_eq_some.mpr hc) hp
  · rintro ⟨R, room, hroom, l, hl, hp⟩
    exact hlease (R, room) (Std.ExtTreeMap.mem_toList_iff_getElem?_eq_some.mpr hroom) l hl hp

/-! ### Double names -/

/-- A login that is served and resumes a lease restores a name that no other
    session has, the holder of the lease apart. -/
def RestoresFreeName (s : Server) (_ : Event) : Prop :=
  ∀ fd p s' req r lease, s.Receives K fd MSG_LOGIN p s' → ByteBuffer.parse readLogin p = some req →
    req.Served → req.resume = some r → s'.Asks r lease →
      s'.FreshName fd r.peerId (if lease.name = [] then req.name else lease.name)

/-- No two sessions that are logged in have the same name, and no two online
    leases of a room. -/
structure NamesDistinct (s : Server) : Prop where
  session : ∀ {fd fd' : Fd} {c c' : ClientSession}, s.clients[fd]? = some c →
    s.clients[fd']? = some c' →
    c.peerId ≠ 0 → c'.peerId ≠ 0 → c'.name = c.name → fd' = fd
  lease : ∀ {R room l l'}, s.rooms.getRoom R = some room → l ∈ room.leases → l' ∈ room.leases →
    l.online = true → l'.online = true → l'.name = l.name → l' = l

theorem namesDistinct_of_named {S : Reg.Scope} (hinv : s.registry.Inv S) (h : s.registry.Named) :
    s.NamesDistinct := by
  constructor
  case session =>
    intro fd fd' c c' hc hc' hp hp' hname
    exact h.distinct (sessions_registry hc) (sessions_registry hc') hp hp' hname
  case lease =>
    intro R room l l' hroom hl hl' ho ho' hname
    have hlease := lease_registry.mpr ⟨room, hroom, hl⟩
    have hlease' := lease_registry.mpr ⟨room, hroom, hl'⟩
    obtain ⟨fd, c, hc, hp, _⟩ := hinv.leased.online hlease ho
    obtain ⟨fd', c', hc', hp', _⟩ := hinv.leased.online hlease' ho'
    have h0 : c.peerId ≠ 0 := hp ▸ (hinv.leased.lease_id hlease).1
    have h0' : c'.peerId ≠ 0 := hp' ▸ (hinv.leased.lease_id hlease').1
    have hsame : c'.name = c.name := by
      rw [h.same hlease hc hp, h.same hlease' hc' hp', hname]
    obtain rfl := h.distinct hc hc' h0 h0' hsame
    obtain rfl : c = c' := Option.some.inj (hc.symm.trans hc')
    exact (hinv.leased.unique hlease' hlease (hp'.symm.trans hp)).2

/-- **Names are distinct as long as every name a login restores is free.** -/
theorem reachable_namesDistinct (h : ReachableIf K (RestoresFreeName K) limits hash salt s) :
    s.NamesDistinct := by
  refine namesDistinct_of_named ((h.reachable K).sound K).good.inv
    (h.invariant K (I := Reg.Named) ?_ ?_ ?_)
  · have hsess : ∀ fd, (start limits hash salt).registry.sessions fd = none := by
      intro fd
      simp [registry, sessionsOf, start]
    have hlease : ∀ {R l}, ¬ (start limits hash salt).registry.Lease R l := by
      rintro R l ⟨ls, hls, _⟩
      simp [registry, start, RoomManager.getRoom] at hls
    constructor <;> simp [hsess, hlease]
  · intro s env hi
    exact ⟨hi.session, hi.lease, hi.same, hi.distinct⟩
  · intro s e r' hinv hrun hok hi
    exact hrun.named hinv hok hi

/-- No session has the name of a lease that is not its own. -/
def namesApart (s : Server) : Bool :=
  s.rooms.rooms.toList.all fun (_, room) => room.leases.all fun l => decide (l.name ≠ []) &&
    s.clients.toList.all fun (_, c) => decide (c.peerId = 0 ∨ c.peerId = l.peerId ∨ c.name ≠ l.name)

theorem restoresFreeName_of_test (s : Server) (env : Env) (e : Event) (h : s.namesApart = true) :
    (s.prepare env).RestoresFreeName K e := by
  intro fd p s' req r lease hrec _ _ _ hasks
  obtain ⟨f, _, _, hopens⟩ := hrec.frame
  obtain ⟨hreg, hworld⟩ := hopens.same
  simp only [namesApart, List.all_eq_true, Bool.and_eq_true, decide_eq_true_eq] at h
  obtain ⟨room, hroom, hl⟩ := lease_registry.mp hasks.there
  rw [rooms_of_world hworld] at hroom
  obtain ⟨hname, hapart⟩ :=
    h (r.roomId, room) (Std.ExtTreeMap.mem_toList_iff_getElem?_eq_some.mpr hroom) lease hl
  rw [if_neg hname]
  intro g d hd _ hp hother hsame
  -- the session is there with this name before the frame is opened
  have hd' := sessions_registry hd
  rw [hreg] at hd'
  obtain ⟨d₀, hd₀, heq⟩ := exists_of_sessions hd'
  have hp₀ : d₀.peerId = d.peerId := congrArg Sess.peerId heq
  have hname₀ : d₀.name = d.name := congrArg Sess.name heq
  rcases hapart (g, d₀) (Std.ExtTreeMap.mem_toList_iff_getElem?_eq_some.mpr hd₀) with
    h0 | hown | hne
  · exact hp (hp₀.symm.trans h0)
  · exact hother (hp₀.symm.trans (hown.trans hasks.peerId))
  · exact hne (hname₀.trans hsame)

namespace Sample

/-- Alice's connection is lost, somebody else logs in as Alice and joins the
    room, and then Alice comes back. -/
def twoAlices : List (Env × Event) :=
  connect 5 ++ say 5 0 MSG_LOGIN (loginBody (ascii "alice")) quiet ++
    say 5 1 MSG_CREATE_ROOM createBody { random := [some token] } ++ [(quiet, .hangup 5)] ++
    connect 6 ++ say 6 0 MSG_LOGIN (loginBody (ascii "alice")) quiet ++
    say 6 1 MSG_JOIN_ROOM (ByteBuffer.writeU32 1) { random := [some token] } ++
    connect 7 ++ say 7 0 MSG_LOGIN (resumeLoginBody (ascii "alice") 1 1 token) quiet ++
    say 7 1 MSG_RESUME_ROOM (resumeBody 1 1 token) quiet

end Sample

set_option maxRecDepth 100000 in
theorem hostReturns_apart : (playedIf namesApart Sample.hostReturns).any (fun s =>
    decide ((s.client 6).name = ascii "robert" ∧ (s.client 7).name = ascii "alice")) = true := by
  decide +kernel

/-- The host of a room comes back, under her own name. -/
theorem reachable_namesDistinct_hostReturns : ∃ s : Server,
    ReachableIf .sample (RestoresFreeName .sample) {} Sample.authHash Sample.authSalt s ∧
      (s.client 6).name = ascii "robert" ∧ (s.client 7).name = ascii "alice" ∧ s.NamesDistinct := by
  obtain ⟨s, hs, hgood⟩ :=
    reachableIf_of_played (restoresFreeName_of_test .sample) hostReturns_apart
  obtain ⟨hbob, halice⟩ := of_decide_eq_true hgood
  exact ⟨s, hs, hbob, halice, reachable_namesDistinct .sample hs⟩

set_option maxRecDepth 100000 in
theorem twoAlices_played : (played Sample.twoAlices).any (fun s =>
    (s.clients[6]?).any (fun c => (s.clients[7]?).any fun d => (s.rooms.getRoom 1).any fun room =>
      decide (c.peerId ≠ 0 ∧ d.peerId ≠ 0 ∧ d.name = c.name ∧
        room.leases.map (·.name) = [c.name, c.name] ∧
        room.leases.map (·.online) = [true, true]))) = true := by
  decide +kernel

/-- Two sessions, and two online leases of one room, have the same name. -/
theorem twoAlices_same_name : ∃ (s : Server) (c d : ClientSession) (room : Room) (l l' : RoomLease),
    Reachable .sample {} Sample.authHash Sample.authSalt s ∧ s.clients[6]? = some c ∧
    s.clients[7]? = some d ∧
      c.peerId ≠ 0 ∧ d.peerId ≠ 0 ∧ d.name = c.name ∧ s.rooms.getRoom 1 = some room ∧
      room.leases = [l, l'] ∧ l.online = true ∧ l'.online = true ∧ l'.name = l.name := by
  obtain ⟨s, hs, hgood⟩ := reachable_of_played twoAlices_played
  rcases hc : s.clients[6]? with _ | c
  · simp [hc] at hgood
  rcases hd : s.clients[7]? with _ | d
  · simp [hc, hd] at hgood
  rcases hroom : s.rooms.getRoom 1 with _ | room
  · simp [hc, hd, hroom] at hgood
  rw [hc, hd, hroom] at hgood
  obtain ⟨hp, hp', hname, hnames, honline⟩ := of_decide_eq_true hgood
  obtain ⟨l, l', hleases⟩ : ∃ l l', room.leases = [l, l'] := by
    refine List.length_eq_two.mp ?_
    simpa using congrArg List.length hnames
  rw [hleases] at hnames honline
  simp only [List.map_cons, List.map_nil, List.cons.injEq, and_true] at hnames honline
  exact ⟨s, c, d, room, l, l', hs, hc, hd, hp, hp', hname, hroom, hleases, honline.1, honline.2,
    hnames.2.trans hnames.1.symm⟩

end Server

end VlanConnect

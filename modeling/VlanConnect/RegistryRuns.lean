/-
  VlanConnect/RegistryRuns.lean
  =============================
  **What a run of the registry can change, and by what right.**

  `Step.change` says once what a step does to the sessions: one of them
  changes, and every change of its identity, its room or its dialogue names
  the label of the scope that allows it.  `Step.lease_back` says where a lease
  comes from.  The run lemmas trace a fact about the end of a run back to its
  beginning or to a label; the last two sections are the invariants about lost
  ids and double names.
-/
import VlanConnect.RegistrySteps

namespace VlanConnect

namespace Registry

variable {S : Reg.Scope}

namespace Reg

/-! ### Changes of a session -/

/-- Nothing changed but deliveries, the handshake or the data channel. -/
structure SameView (c c' : Sess) : Prop where
  peerId : c'.peerId = c.peerId
  roomId : c'.roomId = c.roomId
  virtualIP : c'.virtualIP = c.virtualIP
  state : c'.state = c.state
  resumeRoomId : c'.resumeRoomId = c.resumeRoomId
  resumePeerId : c'.resumePeerId = c.resumePeerId
  resumeToken : c'.resumeToken = c.resumeToken
  pendingJoinRoomId : c'.pendingJoinRoomId = c.pendingJoinRoomId
  authChallenge : c'.authChallenge = c.authChallenge
  name : c'.name = c.name

theorem SameView.refl (c : Sess) : SameView c c :=
  ⟨rfl, rfl, rfl, rfl, rfl, rfl, rfl, rfl, rfl, rfl⟩

theorem SameView.of_delivered {ext lost : List Msg} {c c' : Sess} (h : c.Delivered ext lost c') :
    SameView c c' := by
  rw [h.same]
  exact ⟨rfl, rfl, rfl, rfl, rfl, rfl, rfl, rfl, rfl, rfl⟩

theorem SameView.of_sends {c c' : Sess} (h : Sends c c') : SameView c c' := by
  obtain ⟨ext, lost, hd⟩ := h
  exact .of_delivered hd

/-- The states before the login, and the end. -/
def Outside (state : SessionState) : Prop :=
  state = .awaitHello ∨ state = .awaitServerAuth ∨ state = .awaitLogin ∨ state = .closing

/-- How a step may change the session `c` of `fd`. -/
inductive Change (S : Scope) (r : Reg) (fd : Fd) (c c' : Sess) : Prop where
  | same (h : SameView c c')
  /-- Handshake, authentication, or the end of either. -/
  | outside {state : SessionState} (hst : Outside c.state) (hst' : Outside state)
      (h : SameView { c with state := state } c')
  | fresh {p : Nat} {name : Bytes} (hst : c.state = .awaitLogin) (hp : p ∈ r.free ∨ p = r.next)
      (hname : name ≠ []) (hfree : r.NameFree fd name) (hS : S.Fresh fd p)
      (h : SameView (freshLogin c p name) c')
  | restored {R : Nat} {l asked : RoomLease} {name : Bytes} (hst : c.state = .awaitLogin)
      (hl : r.Lease R l)
      (hown : ¬ r.Owned l.peerId) (hname : name ≠ []) (hkeep : l.name ≠ [] → name = l.name)
      (hS : S.Resumes fd R asked) (hasked : asked.peerId = l.peerId ∧ asked.token = l.token)
      (hfree : S.Distinct → r.NameFree fd name)
      (h : SameView { c with
        peerId := l.peerId, resumeRoomId := R, resumePeerId := l.peerId, resumeToken := l.token
        name := name, state := .resumePending } c')
  | lobby {state : SessionState} {R : Nat} {challenge : Bytes}
      (hst : c.state = .loggedIn ∨ c.state = .awaitRoomPassword)
      (hst' : state = .loggedIn ∧ R = 0 ∨ state = .awaitRoomPassword ∧ R ≠ 0 ∧
        S.Challenges fd R challenge)
      (h : SameView { c with
        state := state, pendingJoinRoomId := R, authChallenge := challenge } c')
  | joined {R : Nat} {l : RoomLease} (hst : c.state = .loggedIn) (hname : l.name = c.name)
      (hS : S.Creates fd c.peerId R ∨ S.Joins fd c.peerId R)
      (h : SameView { c.enter R l.virtualIP l.token with name := l.name } c')
  | resumed {R : Nat} {l : RoomLease} (hst : c.state = .resumePending) (hl : r.Lease R l)
      (hp : l.peerId = c.peerId) (hS : S.Reenters fd R l)
      (h : SameView { c.enter R l.virtualIP l.token with name := l.name } c')
  | exited (hst : c.state ≠ .awaitRoomPassword) (hst' : ¬ Outside c.state)
      (h : SameView { c.exit with roomId := c'.roomId, virtualIP := c'.virtualIP } c')
  | loggedOut (hS : S.Leaves fd) (h : SameView c.loggedOut c')

/-- What becomes of the sessions in a step: one of them changes. -/
def Changes (S : Scope) (r r' : Reg) : Prop :=
  ∃ fd, (∀ g c', g ≠ fd → r'.sessions g = some c' → ∃ c, r.sessions g = some c ∧ SameView c c') ∧
    ∀ c', r'.sessions fd = some c' → r.sessions fd = none ∧ S.Promotes fd ∧
    SameView (freshSession fd c'.transcript) c' ∨
      ∃ c, r.sessions fd = some c ∧ Change S r fd c c'

theorem Changes.of_views {r r' : Reg} (h : Pointwise SameView r.sessions r'.sessions) :
    Changes S r r' := by
  refine ⟨0, fun g c' _ hc' => h.back hc', fun c' hc' => ?_⟩
  obtain ⟨c, hc, hv⟩ := h.back hc'
  exact Or.inr ⟨c, hc, .same hv⟩

theorem Changes.of_sessions {r r' : Reg} (h : r'.sessions = r.sessions) : Changes S r r' := by
  refine .of_views ?_
  rw [h]
  exact Pointwise.refl SameView.refl _

/-- One session is set. -/
theorem Changes.of_update {r r' : Reg} {fd : Fd} {c c' : Sess} (hc : r.sessions fd = some c)
    (hs : r'.sessions = Function.update r.sessions fd (some c')) (h : Change S r fd c c') :
    Changes S r r' := by
  refine ⟨fd, fun g d hg hd => ?_, fun d hd => ?_⟩
  · rw [hs, Function.update_of_ne hg] at hd
    exact ⟨d, hd, SameView.refl d⟩
  · rw [hs, Function.update_self] at hd
    cases hd
    exact Or.inr ⟨c, hc, h⟩

/-- One session is set, and then a notice goes out about it. -/
theorem Changes.of_told {r r₁ r' : Reg} {fd : Fd} {c c₁ : Sess} {R p : Nat} {m : Msg}
    (hc : r.sessions fd = some c) (hσ : r₁.Noticed R p m r'.sessions)
    (hs : r₁.sessions = Function.update r.sessions fd (some c₁)) (hp : c₁.peerId = p)
    (h : Change S r fd c c₁) : Changes S r r' := by
  refine ⟨fd, fun g d hg hd => ?_, fun d hd => ?_⟩
  · obtain ⟨d₁, hd₁, hsend⟩ := hσ.sends.back hd
    rw [hs, Function.update_of_ne hg] at hd₁
    exact ⟨d₁, hd₁, .of_sends hsend⟩
  · have hfd := hσ fd
    rw [hs, Function.update_self, hd] at hfd
    cases hfd with
    | some hrel =>
      -- the notice does not go to the session it is about
      rw [hrel.2 fun hh => hh.2.1 hp]
      exact Or.inr ⟨c, hc, h⟩

/-- **What a step does to the sessions.** -/
theorem Step.change {r r' : Reg} (hstep : Step S r r') (hinv : r.Inv S) : Changes S r r' := by
  cases hstep with
  | quiet h => exact .of_views (Pointwise.mono h fun hq => .of_sends (.of_quiet hq))
  | call _ => exact .of_sessions rfl
  | accept _ _ => exact .of_sessions rfl
  | unpend => exact .of_sessions rfl
  | closeFd _ _ _ => exact .of_sessions rfl
  | @promote fd t hs _ _ _ hS =>
    refine ⟨fd, fun g d hg hd => ?_, fun d hd => ?_⟩
    · simp only [setSession, Function.update_of_ne hg] at hd
      exact ⟨d, hd, SameView.refl d⟩
    · simp only [setSession, Function.update_self, Option.some.injEq] at hd
      subst hd
      exact Or.inl ⟨hs, hS, SameView.refl _⟩
  | handshake hc hst hst' =>
    refine .of_update hc rfl (.outside (Or.inl hst) (hst'.imp id Or.inl) ?_)
    exact ⟨rfl, rfl, rfl, rfl, rfl, rfl, rfl, rfl, rfl, rfl⟩
  | giveUp hc hst =>
    refine .of_update hc rfl (.outside ?_ (Or.inr (Or.inr (Or.inr rfl))) (SameView.refl _))
    rcases hst with hst | hst | hst
    · exact Or.inl hst
    · exact Or.inr (Or.inl hst)
    · exact Or.inr (Or.inr (Or.inl hst))
  | authenticate hc hst _ _ _ =>
    refine .of_update hc rfl (.outside (Or.inr (Or.inl hst)) (Or.inr (Or.inr (Or.inl rfl))) ?_)
    exact ⟨rfl, rfl, rfl, rfl, rfl, rfl, rfl, rfl, rfl, rfl⟩
  | loginReused hc hst hp hname hfree hS =>
    exact .of_update hc rfl (.fresh hst (Or.inl hp) hname.1 hfree hS (SameView.refl _))
  | loginNew hc hst hname hfree hS =>
    exact .of_update hc rfl (.fresh hst (Or.inr rfl) hname.1 hfree hS (SameView.refl _))
  | loginResume hc hst hls hl _ hown hname hkeep hS hasked hfree =>
    exact .of_update hc rfl
      (.restored hst ⟨_, hls, hl⟩ hown hname.1 hkeep hS hasked hfree (SameView.refl _))
  | lobby hc hst hst' => exact .of_update hc rfl (.lobby hst hst' (SameView.refl _))
  | @create fd c R l m hc hst _ _ _ hname _ _ _ hS =>
    refine .of_update hc rfl (.joined (R := R) (l := l) hst hname (Or.inl hS) ?_)
    exact ⟨rfl, rfl, rfl, rfl, rfl, rfl, rfl, rfl, rfl, rfl⟩
  | @join fd c R ls l m n σ' hc hst _ _ hname _ _ _ _ _ hS hσ =>
    refine .of_told hc hσ rfl rfl (.joined (R := R) (l := l) hst hname (Or.inr hS) ?_)
    exact ⟨rfl, rfl, rfl, rfl, rfl, rfl, rfl, rfl, rfl, rfl⟩
  | joinFailed hc hst hd =>
    refine .of_update hc rfl (.exited (by simp [hst]) (by simp [hst, Outside]) ?_)
    rw [hd.same]
    exact ⟨rfl, rfl, rfl, rfl, rfl, rfl, rfl, rfl, rfl, rfl⟩
  | resume hc hst hls hl hp _ _ hS hσ =>
    refine .of_told hc hσ rfl rfl (.resumed hst ⟨_, hls, hl⟩ hp hS ?_)
    exact ⟨rfl, rfl, rfl, rfl, rfl, rfl, rfl, rfl, rfl, rfl⟩
  | resumeFailed hc hst hls hl hp hS hd =>
    refine .of_update hc rfl (.resumed hst ⟨_, hls, hl⟩ hp hS ?_)
    rw [hd.same]
    exact ⟨rfl, rfl, rfl, rfl, rfl, rfl, rfl, rfl, rfl, rfl⟩
  | resumeGiveUp hc hst _ =>
    refine .of_update hc rfl (.exited (by simp [hst]) (by simp [hst, Outside]) ?_)
    exact ⟨rfl, rfl, rfl, rfl, rfl, rfl, rfl, rfl, rfl, rfl⟩
  | @leave fd c ls n σ' hc _ hl _ hS hσ =>
    -- the holder of a lease is in the room or waits for its resume
    obtain ⟨l, hlease, hp⟩ := hl
    have hst : c.state = .inRoom ∨ c.state = .resumePending :=
      (hinv.leased.owner hlease hc hp.symm).imp And.left And.left
    refine ⟨fd, fun g d hg hd => ?_, fun d hd => ?_⟩
    · have hd' : σ' g = some d := by
        simpa only [setRoom, setSession, tell, Function.update_of_ne hg] using hd
      obtain ⟨d₁, hd₁, hsend⟩ := hσ.sends.back hd'
      exact ⟨d₁, hd₁, .of_sends hsend⟩
    · have hd' : c.exit = d := by
        simpa only [setRoom, setSession, Function.update_self, Option.some.injEq] using hd
      subst hd'
      refine Or.inr ⟨c, hc, .exited ?_ ?_ ⟨rfl, rfl, rfl, rfl, rfl, rfl, rfl, rfl, rfl, rfl⟩⟩
      · rcases hst with hst | hst <;> simp [hst]
      · rcases hst with hst | hst <;> simp [hst, Outside]
  | logout hc _ _ _ hS => exact .of_update hc rfl (.loggedOut hS (SameView.refl _))
  | expire _ _ _ _ hσ => exact .of_views (Pointwise.mono hσ.sends fun hs => .of_sends hs)
  | flag _ _ _ _ => exact .of_sessions rfl
  | eraseRoom _ => exact .of_sessions rfl
  | @remove fd c now _ _ _ _ =>
    refine ⟨fd, fun g d hg hd => ?_, fun d hd => ?_⟩
    · simp only [Function.update_of_ne hg] at hd
      exact ⟨d, hd, SameView.refl d⟩
    · simp only [Function.update_self, reduceCtorEq] at hd
  | bindData hc _ _ _ _ _ _ =>
    exact .of_update hc rfl (.same ⟨rfl, rfl, rfl, rfl, rfl, rfl, rfl, rfl, rfl, rfl⟩)
  | closeData hc _ =>
    exact .of_update hc rfl (.same ⟨rfl, rfl, rfl, rfl, rfl, rfl, rfl, rfl, rfl, rfl⟩)

/-! ### Where a session comes from -/

/-- A fact about a session at the end of a run holds of it at the beginning,
    or a label of the scope explains it. -/
theorem Run.session_back {r r' : Reg} (hrun : Run S r r') (hinv : r.Inv S) {fd : Fd}
    {Q : Sess → Prop} {L : Prop}
    (hnew : ∀ t c', S.Promotes fd → SameView (freshSession fd t) c' → Q c' → L)
    (hview : ∀ c c', SameView c c' → Q c' → Q c)
    (hchange : ∀ r c c', r.Inv S → r.sessions fd = some c → Change S r fd c c' → Q c' → Q c ∨ L)
    {c' : Sess} (hc' : r'.sessions fd = some c') (hQ : Q c') :
    (∃ c, r.sessions fd = some c ∧ Q c) ∨ L := by
  induction hrun generalizing c' with
  | refl => exact Or.inl ⟨c', hc', hQ⟩
  | @tail r₁ r₂ hrun hstep ih =>
    have hinv₁ := Run.inv hrun hinv
    obtain ⟨g, hothers, hself⟩ := hstep.change hinv₁
    by_cases hg : fd = g
    · subst hg
      rcases hself c' hc' with ⟨_, hS, hfresh⟩ | ⟨c, hc, hch⟩
      · exact Or.inr (hnew _ _ hS hfresh hQ)
      · rcases hchange r₁ c c' hinv₁ hc hch hQ with hQ | hL
        · exact ih hc hQ
        · exact Or.inr hL
    · obtain ⟨c, hc, hv⟩ := hothers fd c' hg hc'
      exact ih hc (hview c c' hv hQ)

/-- A session has its id from the beginning, or from its login. -/
theorem Run.peerId_back {r r' : Reg} (hrun : Run S r r') (hinv : r.Inv S) {fd : Fd} {c' : Sess}
    (hc' : r'.sessions fd = some c') (hp : c'.peerId ≠ 0) :
    (∃ c, r.sessions fd = some c ∧ c.peerId = c'.peerId) ∨ S.Fresh fd c'.peerId ∨
      ∃ R asked, S.Resumes fd R asked ∧ asked.peerId = c'.peerId := by
  refine hrun.session_back hinv (Q := fun c => c.peerId = c'.peerId) ?_ ?_ ?_ hc' rfl
  · intro t d _ hd hQ
    exact absurd (hQ.symm.trans hd.peerId) hp
  · intro c d hv hQ
    exact hv.peerId.symm.trans hQ
  · intro r c d _ _ hch hQ
    cases hch with
    | same h => exact Or.inl (h.peerId.symm.trans hQ)
    | outside _ _ h => exact Or.inl (h.peerId.symm.trans hQ)
    | fresh _ _ _ _ hS h =>
      have hpd := h.peerId
      rw [hQ] at hpd
      rw [hpd]
      exact Or.inr (Or.inl hS)
    | restored _ _ _ _ _ hS hasked _ h =>
      have hpd := h.peerId
      rw [hQ] at hpd
      exact Or.inr (Or.inr ⟨_, _, hS, hasked.1.trans hpd.symm⟩)
    | lobby _ _ h => exact Or.inl (h.peerId.symm.trans hQ)
    | joined _ _ _ h => exact Or.inl (h.peerId.symm.trans hQ)
    | resumed _ _ _ _ h => exact Or.inl (h.peerId.symm.trans hQ)
    | exited _ _ h => exact Or.inl (h.peerId.symm.trans hQ)
    | loggedOut _ h => exact absurd (hQ.symm.trans h.peerId) hp

/-- A session is in its room from the beginning, or became a member, or came
    back with a lease. -/
theorem Run.inRoom_back {r r' : Reg} (hrun : Run S r r') (hinv : r.Inv S) {fd : Fd} {c' : Sess}
    (hc' : r'.sessions fd = some c') (hst : c'.state = .inRoom) :
    (∃ c, r.sessions fd = some c ∧ c.state = .inRoom ∧ c.roomId = c'.roomId ∧
      c.peerId = c'.peerId) ∨
      S.Creates fd c'.peerId c'.roomId ∨ S.Joins fd c'.peerId c'.roomId ∨
      ∃ l, S.Reenters fd c'.roomId l ∧ l.peerId = c'.peerId := by
  refine hrun.session_back hinv
    (Q := fun c => c.state = .inRoom ∧ c.roomId = c'.roomId ∧ c.peerId = c'.peerId) ?_ ?_ ?_ hc'
    ⟨hst, rfl, rfl⟩
  · rintro t d _ hd ⟨hQ, _⟩
    rw [hd.state] at hQ
    cases hQ
  · rintro c d hv ⟨hQ, hR, hp⟩
    exact ⟨hv.state ▸ hQ, hv.roomId ▸ hR, hv.peerId ▸ hp⟩
  · rintro r c d _ _ hch ⟨hQ, hR, hp⟩
    cases hch with
    | same h => exact Or.inl ⟨h.state ▸ hQ, h.roomId ▸ hR, h.peerId ▸ hp⟩
    | outside _ hst' h =>
      rw [h.state] at hQ
      rcases hst' with hs | hs | hs | hs <;> cases hs.symm.trans hQ
    | fresh _ _ _ _ _ h => cases h.state.symm.trans hQ
    | restored _ _ _ _ _ _ _ _ h => cases h.state.symm.trans hQ
    | lobby _ hst' h =>
      rw [h.state] at hQ
      rcases hst' with ⟨hs, _⟩ | ⟨hs, _⟩ <;> cases hs.symm.trans hQ
    | joined _ _ hS h =>
      rw [← hp, ← hR, h.peerId, h.roomId]
      exact Or.inr (hS.imp id Or.inl)
    | resumed _ _ hlp hS h =>
      rw [← hp, ← hR, h.peerId, h.roomId]
      exact Or.inr (Or.inr (Or.inr ⟨_, hS, hlp⟩))
    | exited _ _ h => cases h.state.symm.trans hQ
    | loggedOut _ h => cases h.state.symm.trans hQ

/-- A session waits for its resume from the beginning, or its login asked for
    the lease. -/
theorem Run.resume_back {r r' : Reg} (hrun : Run S r r') (hinv : r.Inv S) {fd : Fd} {c' : Sess}
    (hc' : r'.sessions fd = some c') (hst : c'.state = .resumePending) :
    (∃ c, r.sessions fd = some c ∧ c.state = .resumePending ∧ c.resumeRoomId = c'.resumeRoomId ∧
        c.peerId = c'.peerId ∧ c.resumeToken = c'.resumeToken) ∨
      ∃ asked, S.Resumes fd c'.resumeRoomId asked ∧ asked.peerId = c'.peerId ∧
        asked.token = c'.resumeToken := by
  refine hrun.session_back hinv (Q := fun c => c.state = .resumePending ∧
    c.resumeRoomId = c'.resumeRoomId ∧
    c.peerId = c'.peerId ∧ c.resumeToken = c'.resumeToken) ?_ ?_ ?_ hc' ⟨hst, rfl, rfl, rfl⟩
  · rintro t d _ hd ⟨hQ, _⟩
    rw [hd.state] at hQ
    cases hQ
  · rintro c d hv ⟨hQ, hR, hp, htok⟩
    exact ⟨hv.state ▸ hQ, hv.resumeRoomId ▸ hR, hv.peerId ▸ hp, hv.resumeToken ▸ htok⟩
  · rintro r c d _ _ hch ⟨hQ, hR, hp, htok⟩
    cases hch with
    | same h => exact Or.inl ⟨h.state ▸ hQ, h.resumeRoomId ▸ hR, h.peerId ▸ hp,
      h.resumeToken ▸ htok⟩
    | outside _ hst' h =>
      rw [h.state] at hQ
      rcases hst' with hs | hs | hs | hs <;> cases hs.symm.trans hQ
    | fresh _ _ _ _ _ h => cases h.state.symm.trans hQ
    | restored _ _ _ _ _ hS hasked _ h =>
      rw [← hp, ← hR, ← htok, h.peerId, h.resumeRoomId, h.resumeToken]
      exact Or.inr ⟨_, hS, hasked⟩
    | lobby _ hst' h =>
      rw [h.state] at hQ
      rcases hst' with ⟨hs, _⟩ | ⟨hs, _⟩ <;> cases hs.symm.trans hQ
    | joined _ _ _ h => cases h.state.symm.trans hQ
    | resumed _ _ _ _ h => cases h.state.symm.trans hQ
    | exited _ _ h => cases h.state.symm.trans hQ
    | loggedOut _ h => cases h.state.symm.trans hQ

/-- A session is in a password dialogue from the beginning, or was just given
    the challenge. -/
theorem Run.dialogue_back {r r' : Reg} (hrun : Run S r r') (hinv : r.Inv S) {fd : Fd} {c' : Sess}
    (hc' : r'.sessions fd = some c') (hst : c'.state = .awaitRoomPassword) :
    (∃ c, r.sessions fd = some c ∧ c.state = .awaitRoomPassword ∧
      c.pendingJoinRoomId = c'.pendingJoinRoomId ∧
        c.authChallenge = c'.authChallenge) ∨
      S.Challenges fd c'.pendingJoinRoomId c'.authChallenge := by
  refine hrun.session_back hinv (Q := fun c => c.state = .awaitRoomPassword ∧
    c.pendingJoinRoomId = c'.pendingJoinRoomId ∧
    c.authChallenge = c'.authChallenge) ?_ ?_ ?_ hc' ⟨hst, rfl, rfl⟩
  · rintro t d _ hd ⟨hQ, _⟩
    rw [hd.state] at hQ
    cases hQ
  · rintro c d hv ⟨hQ, hR, hx⟩
    exact ⟨hv.state ▸ hQ, hv.pendingJoinRoomId ▸ hR, hv.authChallenge ▸ hx⟩
  · rintro r c d _ _ hch ⟨hQ, hR, hx⟩
    cases hch with
    | same h => exact Or.inl ⟨h.state ▸ hQ, h.pendingJoinRoomId ▸ hR, h.authChallenge ▸ hx⟩
    | outside _ hst' h =>
      rw [h.state] at hQ
      rcases hst' with hs | hs | hs | hs <;> cases hs.symm.trans hQ
    | fresh _ _ _ _ _ h => cases h.state.symm.trans hQ
    | restored _ _ _ _ _ _ _ _ h => cases h.state.symm.trans hQ
    | lobby _ hst' h =>
      rw [h.state] at hQ
      rcases hst' with ⟨hs, _⟩ | ⟨_, _, hS⟩
      · cases hs.symm.trans hQ
      · rw [← hR, ← hx, h.pendingJoinRoomId, h.authChallenge]
        exact Or.inr hS
    | joined _ _ _ h => cases h.state.symm.trans hQ
    | resumed _ _ _ _ h => cases h.state.symm.trans hQ
    | exited _ _ h => cases h.state.symm.trans hQ
    | loggedOut _ h => cases h.state.symm.trans hQ

/-- Outside a password dialogue a session stays so, unless it is given a
    challenge or logs out. -/
theorem Run.lobby_kept {r r' : Reg} (hrun : Run S r r') (hinv : r.Inv S) {fd : Fd} {c c' : Sess}
    (hc : r.sessions fd = some c)
    (h : c.pendingJoinRoomId = 0 ∧ (c.state = .loggedIn ∨ c.state = .inRoom))
    (hno : ∀ R x, ¬ S.Challenges fd R x) (hstay : ¬ S.Leaves fd) (hold : ¬ S.Promotes fd)
    (hc' : r'.sessions fd = some c') :
    c'.pendingJoinRoomId = 0 ∧ (c'.state = .loggedIn ∨ c'.state = .inRoom) := by
  by_contra hnot
  have hback := hrun.session_back hinv (L := False)
    (Q := fun c => ¬ (c.pendingJoinRoomId = 0 ∧ (c.state = .loggedIn ∨ c.state = .inRoom))) ?_
    ?_ ?_ hc' hnot
  · rcases hback with ⟨c₀, hc₀, hnot₀⟩ | hfalse
    · obtain rfl : c = c₀ := Option.some.inj (hc.symm.trans hc₀)
      exact hnot₀ h
    · exact hfalse
  · exact fun _ _ hS _ _ => hold hS
  · intro c d hv hQ
    rwa [← hv.pendingJoinRoomId, ← hv.state]
  · intro r c d _ _ hch hQ
    cases hch with
    | same h => rw [h.pendingJoinRoomId, h.state] at hQ; exact Or.inl hQ
    | outside hst _ _ => rcases hst with hst | hst | hst | hst <;> exact Or.inl (by simp [hst])
    | fresh hst _ _ _ _ _ => exact Or.inl (by simp [hst])
    | restored hst _ _ _ _ _ _ _ _ => exact Or.inl (by simp [hst])
    | lobby _ hst' h =>
      rw [h.pendingJoinRoomId, h.state] at hQ
      rcases hst' with ⟨hst, hR⟩ | ⟨_, _, hS⟩
      · exact absurd ⟨hR, Or.inl hst⟩ hQ
      · exact absurd hS (hno _ _)
    | joined _ _ _ h =>
      rw [h.pendingJoinRoomId, h.state] at hQ
      exact Or.inl fun hc => hQ ⟨hc.1, Or.inr rfl⟩
    | resumed _ _ _ _ h =>
      rw [h.pendingJoinRoomId, h.state] at hQ
      exact Or.inl fun hc => hQ ⟨hc.1, Or.inr rfl⟩
    | exited _ _ h =>
      rw [h.pendingJoinRoomId, h.state] at hQ
      exact Or.inl fun hc => hQ ⟨hc.1, Or.inl rfl⟩
    | loggedOut hS _ => exact absurd hS hstay

/-! ### The end of a session -/

/-- A session ends by an event of its own, or because a login takes its lease. -/
theorem Step.removed {r r' : Reg} (hstep : Step S r r') {fd : Fd} {c : Sess}
    (hc : r.sessions fd = some c) (hc' : r'.sessions fd = none) :
    S.Ends fd ∨ ∃ g R l, S.Resumes g R l ∧ l.peerId = c.peerId := by
  have hkept : ∀ {rel : Sess → Sess → Prop} {σ σ' : Fd → Option Sess}, Pointwise rel σ σ' →
    σ fd ≠ none →
      σ' fd ≠ none := by
    intro rel σ σ' hσ hsome hnone
    obtain ⟨d, hd⟩ := Option.ne_none_iff_exists'.mp hsome
    obtain ⟨d', hd', _⟩ := hσ.forth hd
    cases hd'.symm.trans hnone
  have hset : ∀ {g : Fd} {d : Sess} {σ : Fd → Option Sess}, σ fd ≠ none →
      Function.update σ g (some d) fd ≠ none := by
    intro g d σ hσ
    by_cases hg : fd = g
    · subst hg
      simp
    · rwa [Function.update_of_ne hg]
  have hsome : r.sessions fd ≠ none := by simp [hc]
  cases hstep with
  | quiet h => exact absurd hc' (hkept h hsome)
  | call _ => exact absurd hc' hsome
  | accept _ _ => exact absurd hc' hsome
  | unpend => exact absurd hc' hsome
  | closeFd _ _ _ => exact absurd hc' hsome
  | promote _ _ _ _ _ => exact absurd hc' (hset hsome)
  | handshake _ _ _ => exact absurd hc' (hset hsome)
  | giveUp _ _ => exact absurd hc' (hset hsome)
  | authenticate _ _ _ _ _ => exact absurd hc' (hset hsome)
  | loginReused _ _ _ _ _ _ => exact absurd hc' (hset hsome)
  | loginNew _ _ _ _ _ => exact absurd hc' (hset hsome)
  | loginResume _ _ _ _ _ _ _ _ _ _ _ => exact absurd hc' (hset hsome)
  | lobby _ _ _ => exact absurd hc' (hset hsome)
  | create _ _ _ _ _ _ _ _ _ _ => exact absurd hc' (hset hsome)
  | join _ _ _ _ _ _ _ _ _ _ _ hσ => exact absurd hc' (hkept hσ (hset hsome))
  | joinFailed _ _ _ => exact absurd hc' (hset hsome)
  | resume _ _ _ _ _ _ _ _ hσ => exact absurd hc' (hkept hσ (hset hsome))
  | resumeFailed _ _ _ _ _ _ _ => exact absurd hc' (hset hsome)
  | resumeGiveUp _ _ _ => exact absurd hc' (hset hsome)
  | leave _ _ _ _ _ hσ => exact absurd hc' (hset (hkept hσ hsome))
  | logout _ _ _ _ _ => exact absurd hc' (hset hsome)
  | expire _ _ _ _ hσ => exact absurd hc' (hkept hσ hsome)
  | flag _ _ _ _ => exact absurd hc' hsome
  | eraseRoom _ => exact absurd hc' hsome
  | @remove g d now hd _ _ hend =>
    by_cases hg : fd = g
    · subst hg
      obtain rfl : c = d := Option.some.inj (hc.symm.trans hd)
      exact hend
    · simp only [Function.update_of_ne hg] at hc'
      exact absurd hc' hsome
  | bindData _ _ _ _ _ _ _ => exact absurd hc' (hset hsome)
  | closeData _ _ => exact absurd hc' (hset hsome)

theorem Run.removed {r r' : Reg} (hrun : Run S r r') (hinv : r.Inv S) {fd : Fd} {c : Sess}
    (hc : r.sessions fd = some c) (hc' : r'.sessions fd = none) :
    S.Ends fd ∨ (∃ p, S.Fresh fd p) ∨ (∃ R l, S.Resumes fd R l) ∨
      ∃ g R l, S.Resumes g R l ∧ (l.peerId = c.peerId ∨ l.peerId = 0) := by
  induction hrun with
  | refl => cases hc.symm.trans hc'
  | @tail r₁ r₂ hrun hstep ih =>
    rcases hd : r₁.sessions fd with _ | d
    · exact ih hd
    rcases hstep.removed hd hc' with hend | ⟨g, R, l, hS, hl⟩
    · exact Or.inl hend
    by_cases hp : d.peerId = 0
    · exact Or.inr (Or.inr (Or.inr ⟨g, R, l, hS, Or.inr (hl.trans hp)⟩))
    rcases Run.peerId_back hrun hinv hd hp with ⟨c₀, hc₀, hp₀⟩ | hfresh | ⟨R', asked, hres, _⟩
    · obtain rfl : c = c₀ := Option.some.inj (hc.symm.trans hc₀)
      exact Or.inr (Or.inr (Or.inr ⟨g, R, l, hS, Or.inl (hl.trans hp₀.symm)⟩))
    · exact Or.inr (Or.inl ⟨_, hfresh⟩)
    · exact Or.inr (Or.inr (Or.inl ⟨R', asked, hres⟩))

/-! ### Calls -/

/-- A handler was called before, or may be called. -/
theorem Step.calls {r r' : Reg} (hstep : Step S r r') {x : Fd × Msg} (hx : x ∈ r'.calls) :
    x ∈ r.calls ∨ S.Calls x.1 x.2 := by
  cases hstep with
  | call hS =>
    rcases List.mem_append.mp hx with hx | hx
    · exact Or.inl hx
    · rw [List.mem_singleton.mp hx]
      exact Or.inr hS
  | _ => exact Or.inl hx

theorem Run.calls {r r' : Reg} (hrun : Run S r r') {x : Fd × Msg} (hx : x ∈ r'.calls) :
    x ∈ r.calls ∨ S.Calls x.1 x.2 := by
  induction hrun with
  | refl => exact Or.inl hx
  | tail _ hstep ih =>
    rcases hstep.calls hx with hx | hS
    · exact ih hx
    · exact Or.inr hS

/-! ### Where a lease comes from -/

/-- The lease of the same peer, online or not. -/
structure SameLease (l l' : RoomLease) : Prop where
  peerId : l'.peerId = l.peerId
  virtualIP : l'.virtualIP = l.virtualIP
  name : l'.name = l.name
  token : l'.token = l.token

theorem SameLease.refl (l : RoomLease) : SameLease l l := ⟨rfl, rfl, rfl, rfl⟩

theorem SameLease.trans {l₁ l₂ l₃ : RoomLease} (h : SameLease l₁ l₂) (h' : SameLease l₂ l₃) :
    SameLease l₁ l₃ :=
  ⟨h'.peerId.trans h.peerId, h'.virtualIP.trans h.virtualIP, h'.name.trans h.name,
    h'.token.trans h.token⟩

theorem SameLease.of_keeps {f : RoomLease → RoomLease} (hf : KeepsLease f) (l : RoomLease) :
    SameLease l (f l) :=
  ⟨hf.peerId l, hf.virtualIP l, hf.name l, hf.token l⟩

/-- The lease is old, or its session just became a member. -/
def LeaseFrom (S : Scope) (r : Reg) (R : Nat) (l' : RoomLease) : Prop :=
  (∃ l, r.Lease R l ∧ SameLease l l') ∨
    ∃ fd c, r.sessions fd = some c ∧ c.state = .loggedIn ∧ l'.peerId = c.peerId ∧ l'.name = c.name ∧
      (S.Creates fd c.peerId R ∨ S.Joins fd c.peerId R)

theorem LeaseFrom.old {r : Reg} {R : Nat} {l : RoomLease} (h : r.Lease R l) : LeaseFrom S r R l :=
  Or.inl ⟨l, h, SameLease.refl l⟩

/-- The leases of one peer in a room were changed. -/
theorem LeaseFrom.mapped {r : Reg} (r₁ : Reg) {R R' p : Nat} {ls : List RoomLease}
    {f : RoomLease → RoomLease} (hf : KeepsLease f) (hr : r₁.rooms = r.rooms)
    (hls : r.rooms R = some ls) {l' : RoomLease}
    (hl' : (r₁.setRoom R (mapLease p f ls)).Lease R' l') : LeaseFrom S r R' l' := by
  obtain ⟨l, ⟨ls', hls', hl⟩, rfl⟩ := (lease_mapLease (r := r₁) (by rw [hr]; exact hls)).mp hl'
  rw [hr] at hls'
  refine Or.inl ⟨l, ⟨ls', hls', hl⟩, ?_⟩
  split
  · exact .of_keeps hf l
  · exact SameLease.refl l

/-- **Where the leases of a step come from.** -/
theorem Step.lease_back {r r' : Reg} (hstep : Step S r r') {R : Nat} {l' : RoomLease}
    (hl' : r'.Lease R l') :
    LeaseFrom S r R l' := by
  cases hstep with
  | quiet _ => exact .old hl'
  | call _ => exact .old hl'
  | accept _ _ => exact .old hl'
  | unpend => exact .old hl'
  | closeFd _ _ _ => exact .old hl'
  | promote _ _ _ _ _ => exact .old hl'
  | handshake _ _ _ => exact .old hl'
  | giveUp _ _ => exact .old hl'
  | authenticate _ _ _ _ _ => exact .old hl'
  | loginReused _ _ _ _ _ _ => exact .old hl'
  | loginNew _ _ _ _ _ => exact .old hl'
  | @loginResume fd c R₀ now ls l asked name hc hst hls _ _ _ _ _ _ _ _ =>
    exact .mapped (r := r) (r.loggedIn fd _) (.markOffline now) rfl hls hl'
  | lobby _ _ _ => exact .old hl'
  | @create fd c R₀ l m hc hst _ _ hp hname _ _ _ hS =>
    rcases lease_setRoom.mp hl' with ⟨rfl, hmem⟩ | ⟨_, hold⟩
    · obtain rfl := List.mem_singleton.mp hmem
      exact Or.inr ⟨fd, c, hc, hst, hp, hname, Or.inl hS⟩
    · exact .old hold
  | @join fd c R₀ ls l m n σ' hc hst hls hp hname _ _ _ _ _ hS _ =>
    rcases lease_setRoom.mp (show (r.entered fd c R₀ l (ls ++ [l]) m).Lease R l' from hl') with
      ⟨rfl, hmem⟩ | ⟨_, hold⟩
    · rcases List.mem_append.mp hmem with hmem | hmem
      · exact .old ⟨ls, hls, hmem⟩
      · obtain rfl := List.mem_singleton.mp hmem
        exact Or.inr ⟨fd, c, hc, hst, hp, hname, Or.inr hS⟩
    · exact .old hold
  | joinFailed _ _ _ => exact .old hl'
  | @resume fd c R₀ ls l m n σ' hc hst hls _ _ _ _ _ _ =>
    exact .mapped (r := r) (r.setSession fd _) .markOnline rfl hls hl'
  | @resumeFailed fd c c' ext lost R₀ now ls l hc hst hls _ _ _ _ =>
    exact .mapped (r := r) (r.setSession fd _) (.markOnlineOffline now) rfl hls hl'
  | resumeGiveUp _ _ _ => exact .old hl'
  | @leave fd c ls n σ' hc hls _ _ _ _ =>
    exact .old ((lease_dropLease (r := (r.tell c.home c.peerId n σ').setSession fd c.exit) hls).mp
      hl').1
  | logout _ _ _ _ _ => exact .old hl'
  | @expire R₀ ls l n σ' hls _ _ _ _ =>
    exact .old ((lease_dropLease (r := r.tell R₀ l.peerId n σ') hls).mp hl').1
  | flag hls _ hf _ => exact .mapped _ hf rfl hls hl'
  | @eraseRoom R₀ _ =>
    obtain ⟨ls', hls', hmem⟩ := hl'
    by_cases hR : R = R₀
    · subst hR
      simp at hls'
    · exact .old ⟨ls', by simpa [hR] using hls', hmem⟩
  | @remove fd c now hc _ _ _ =>
    obtain ⟨ls', hls', hmem⟩ := hl'
    by_cases hR : R = c.home
    · subst hR
      simp only [Function.update_self, Option.map_eq_some_iff] at hls'
      obtain ⟨ls, hls, rfl⟩ := hls'
      obtain ⟨l, hl, rfl⟩ := mem_mapLease.mp hmem
      refine Or.inl ⟨l, ⟨ls, hls, hl⟩, ?_⟩
      split
      · exact .of_keeps (.markOffline now) l
      · exact SameLease.refl l
    · exact .old ⟨ls', by simpa [hR] using hls', hmem⟩
  | bindData _ _ _ _ _ _ _ => exact .old hl'
  | closeData _ _ => exact .old hl'

/-- A lease at the end of a run is an old one, or new by a label. -/
theorem Run.lease_back {r r' : Reg} (hrun : Run S r r') {R : Nat} {l' : RoomLease}
    (hl' : r'.Lease R l') :
    (∃ l, r.Lease R l ∧ SameLease l l') ∨ ∃ fd, S.Creates fd l'.peerId R ∨
    S.Joins fd l'.peerId R := by
  induction hrun generalizing l' with
  | refl => exact Or.inl ⟨l', hl', SameLease.refl l'⟩
  | tail _ hstep ih =>
    rcases hstep.lease_back hl' with ⟨l₁, hl₁, hsame⟩ | ⟨fd, c, _, _, hp, _, hS⟩
    · rcases ih hl₁ with ⟨l, hl, hsame₁⟩ | ⟨fd, hS⟩
      · exact Or.inl ⟨l, hl, hsame₁.trans hsame⟩
      · rw [hsame.peerId]
        exact Or.inr ⟨fd, hS⟩
    · rw [hp]
      exact Or.inr ⟨fd, hS⟩

/-! ### Lost ids -/

/-- Every id given out so far is free, or has a session or a lease. -/
def NoLeak (r : Reg) : Prop :=
  ∀ i, i ≠ 0 → i < r.next → i ∈ r.free ∨ r.Owned i ∨ ∃ R, r.HasLease R i

/-- Ids move between the free ids, the sessions and the leases. -/
theorem NoLeak.move {r r' : Reg} (h : r.NoLeak) (hnext : ∀ i, i < r'.next → i < r.next ∨ r'.Owned i)
    (hfree : ∀ i, i ∈ r.free → i ∈ r'.free ∨ r'.Owned i)
    (hown : ∀ i, i ≠ 0 → r.Owned i → i ∈ r'.free ∨ r'.Owned i ∨ ∃ R, r'.HasLease R i)
    (hlease : ∀ R i, r.HasLease R i → i ∈ r'.free ∨ r'.Owned i ∨ ∃ R, r'.HasLease R i) :
    r'.NoLeak := by
  intro i h0 hlt
  rcases hnext i hlt with hlt | hi
  · rcases h i h0 hlt with hi | hi | ⟨R, hi⟩
    · exact (hfree i hi).imp id Or.inl
    · exact hown i h0 hi
    · exact hlease R i hi
  · exact Or.inr (Or.inl hi)

theorem Owned.of_pointwise {rel : Sess → Sess → Prop} {r r' : Reg}
    (h : Pointwise rel r.sessions r'.sessions) (hrel : ∀ c c', rel c c' → c'.peerId = c.peerId)
    {i : Nat} (ho : r.Owned i) : r'.Owned i := by
  obtain ⟨fd, c, hc, rfl⟩ := ho
  obtain ⟨c', hc', hcc⟩ := h.forth hc
  exact ⟨fd, c', hc', hrel c c' hcc⟩

/-- The session that is set had the same id, or none. -/
theorem Owned.of_update {r q : Reg} {fd : Fd} {c c' : Sess} (hc : r.sessions fd = some c)
    (hs : q.sessions = Function.update r.sessions fd (some c'))
    (hp : c'.peerId = c.peerId ∨ c.peerId = 0) {i : Nat} (h0 : i ≠ 0) (ho : r.Owned i) :
    q.Owned i := by
  obtain ⟨g, d, hd, rfl⟩ := ho
  by_cases hg : g = fd
  · subst hg
    obtain rfl : c = d := Option.some.inj (hc.symm.trans hd)
    rcases hp with hp | hp
    · exact ⟨g, c', by rw [hs, Function.update_self], hp⟩
    · exact absurd hp h0
  · exact ⟨g, d, by rw [hs, Function.update_of_ne hg]; exact hd, rfl⟩

/-- Nothing but the sessions changed, and they kept their ids. -/
theorem NoLeak.of_owned {r r' : Reg} (h : r.NoLeak) (hown : ∀ i, i ≠ 0 → r.Owned i → r'.Owned i)
    (hrooms : r'.rooms = r.rooms) (hnext : r'.next = r.next) (hfree : r'.free = r.free) :
    r'.NoLeak := by
  refine h.move (fun i hi => Or.inl (hnext ▸ hi)) (fun i hi => Or.inl (hfree ▸ hi))
    (fun i h0 hi => Or.inr (Or.inl (hown i h0 hi))) ?_
  rintro R i ⟨l, ⟨ls, hls, hl⟩, hp⟩
  exact Or.inr (Or.inr ⟨R, l, ⟨ls, by rw [hrooms]; exact hls, hl⟩, hp⟩)

/-- One session was set. -/
theorem NoLeak.of_session {r r' : Reg} {fd : Fd} {c c' : Sess} (h : r.NoLeak)
    (hc : r.sessions fd = some c) (hs : r'.sessions = Function.update r.sessions fd (some c'))
    (hrooms : r'.rooms = r.rooms) (hnext : r'.next = r.next) (hfree : r'.free = r.free)
    (hp : c'.peerId = c.peerId) : r'.NoLeak :=
  h.of_owned (fun _ => Owned.of_update hc hs (Or.inl hp)) hrooms hnext hfree

/-- The leases of a room are others, of the same peers and maybe more. -/
theorem hasLease_setRoom {r r₁ : Reg} {R R' i : Nat} {ls ls' : List RoomLease}
    (hr : r₁.rooms = r.rooms) (hls : r.rooms R = some ls)
    (hkeep : ∀ l ∈ ls, ∃ l' ∈ ls', l'.peerId = l.peerId) (h : r.HasLease R' i) :
    (r₁.setRoom R ls').HasLease R' i := by
  obtain ⟨l, ⟨ls₀, hls₀, hl⟩, hp⟩ := h
  by_cases hR : R' = R
  · subst hR
    obtain rfl : ls = ls₀ := Option.some.inj (hls.symm.trans hls₀)
    obtain ⟨l', hl', hp'⟩ := hkeep l hl
    exact ⟨l', lease_setRoom.mpr (Or.inl ⟨rfl, hl'⟩), hp'.trans hp⟩
  · exact ⟨l, lease_setRoom.mpr (Or.inr ⟨hR, ls₀, by rw [hr]; exact hls₀, hl⟩), hp⟩

theorem exists_mapLease {f : RoomLease → RoomLease} (hf : KeepsLease f) (p : Nat)
    {ls : List RoomLease} :
    ∀ l ∈ ls, ∃ l' ∈ mapLease p f ls, l'.peerId = l.peerId :=
  fun l hl => ⟨_, mem_mapLease.mpr ⟨l, hl, rfl⟩, hf.mapLease p l⟩

/-- The sessions kept their ids, and a room the peers of its leases. -/
theorem NoLeak.of_room {r r' : Reg} (r₁ : Reg) {R : Nat} {ls ls' : List RoomLease} (h : r.NoLeak)
    (hown : ∀ i, i ≠ 0 → r.Owned i → r'.Owned i) (hr : r₁.rooms = r.rooms)
    (hls : r.rooms R = some ls) (hkeep : ∀ l ∈ ls, ∃ l' ∈ ls', l'.peerId = l.peerId)
    (hrooms : r'.rooms = (r₁.setRoom R ls').rooms) (hnext : r'.next = r.next)
    (hfree : r'.free = r.free) : r'.NoLeak := by
  refine h.move (fun i hi => Or.inl (hnext ▸ hi)) (fun i hi => Or.inl (hfree ▸ hi))
    (fun i h0 hi => Or.inr (Or.inl (hown i h0 hi))) ?_
  intro R' i hi
  obtain ⟨l, ⟨ls₀, hls₀, hl⟩, hp⟩ := hasLease_setRoom hr hls hkeep hi
  exact Or.inr (Or.inr ⟨R', l, ⟨ls₀, by rw [hrooms]; exact hls₀, hl⟩, hp⟩)

/-- The peer of a lease that is taken away keeps its id, or gives it back. -/
theorem NoLeak.of_drop {r r' : Reg} {R p : Nat} {ls : List RoomLease} (h : r.NoLeak)
    (hown : ∀ i, i ≠ 0 → r.Owned i → r'.Owned i) (hls : r.rooms R = some ls)
    (hrooms : r'.rooms = Function.update r.rooms R (some (dropLease p ls)))
    (hnext : r'.next = r.next) (hfree : ∀ i, i ∈ r.free → i ∈ r'.free)
    (hp : p ∈ r'.free ∨ r'.Owned p) : r'.NoLeak := by
  refine h.move (fun i hi => Or.inl (hnext ▸ hi)) (fun i hi => Or.inl (hfree i hi))
    (fun i h0 hi => Or.inr (Or.inl (hown i h0 hi))) ?_
  rintro R' i ⟨l, ⟨ls₀, hls₀, hl⟩, hi⟩
  by_cases hip : i = p
  · rw [hip]
    exact hp.imp id Or.inl
  · refine Or.inr (Or.inr ⟨R', l, ?_, hi⟩)
    by_cases hR : R' = R
    · subst hR
      obtain rfl : ls = ls₀ := Option.some.inj (hls.symm.trans hls₀)
      exact ⟨_, by rw [hrooms, Function.update_self],
        mem_dropLease.mpr ⟨hl, fun heq => hip (hi.symm.trans heq)⟩⟩
    · exact ⟨ls₀, by rw [hrooms, Function.update_of_ne hR]; exact hls₀, hl⟩

/-- **No step loses an id**, unless it may lose its session. -/
theorem Step.noLeak {r r' : Reg} (hstep : Step S r r') (hinv : r.Inv S) (hS : ∀ fd, ¬ S.Loses fd)
    (h : r.NoLeak) :
    r'.NoLeak := by
  have hid : ∀ {fd c}, r.sessions fd = some c → c.state = .awaitLogin → c.peerId = 0 := by
    intro fd c hc hst
    by_contra hp
    have hident := (hinv.wf hc).identity.mpr hp
    rw [hst] at hident
    cases hident
  have hsends : ∀ {c c' : Sess}, Sends c c' → c'.peerId = c.peerId :=
    fun hs => (SameView.of_sends hs).peerId
  cases hstep with
  | @quiet σ' hq =>
    refine h.of_owned (fun i _ hi => ?_) rfl rfl rfl
    exact @Owned.of_pointwise Sess.Quiet r { r with
      sessions := σ' } hq (fun c c' hcc => hsends (.of_quiet hcc)) i hi
  | call _ => exact h
  | accept _ _ => exact h
  | unpend => exact h
  | closeFd _ _ _ => exact h
  | @promote fd t hs _ _ _ _ =>
    refine h.of_owned ?_ rfl rfl rfl
    rintro i _ ⟨g, d, hd, rfl⟩
    refine ⟨g, d, ?_, rfl⟩
    have hg : g ≠ fd := by
      rintro rfl
      cases hs.symm.trans hd
    simpa only [setSession, Function.update_of_ne hg] using hd
  | handshake hc _ _ => exact h.of_session hc rfl rfl rfl rfl rfl
  | giveUp hc _ => exact h.of_session hc rfl rfl rfl rfl rfl
  | authenticate hc _ _ _ _ => exact h.of_session hc rfl rfl rfl rfl rfl
  | @loginReused fd c p name hc hst hp _ _ _ =>
    refine h.move (fun i hi => Or.inl hi) (fun i hi => ?_) (fun i h0 hi => ?_) ?_
    · by_cases hip : i = p
      · exact Or.inr ⟨fd, freshLogin c p name, by simp [loggedIn, setSession], hip ▸ rfl⟩
      · exact Or.inl ⟨hi, hip⟩
    · exact Or.inr (Or.inl (Owned.of_update hc rfl (Or.inr (hid hc hst)) h0 hi))
    · exact fun R i hi => Or.inr (Or.inr ⟨R, hi⟩)
  | @loginNew fd c name hc hst _ _ _ =>
    refine h.move (fun i hi => ?_) (fun i hi => Or.inl hi) (fun i h0 hi => ?_) ?_
    · rcases Nat.lt_succ_iff_lt_or_eq.mp hi with hi | hi
      · exact Or.inl hi
      · exact Or.inr ⟨fd, freshLogin c r.next name, by simp [loggedIn, setSession], hi ▸ rfl⟩
    · exact Or.inr (Or.inl (Owned.of_update hc rfl (Or.inr (hid hc hst)) h0 hi))
    · exact fun R i hi => Or.inr (Or.inr ⟨R, hi⟩)
  | loginResume hc hst hls _ _ _ _ _ _ _ _ =>
    exact h.of_room _ (fun i => Owned.of_update hc rfl (Or.inr (hid hc hst))) rfl hls
      (exists_mapLease (.markOffline _) _) rfl rfl rfl
  | lobby hc _ _ => exact h.of_session hc rfl rfl rfl rfl rfl
  | @create fd c R l m hc _ _ hnew _ _ _ _ _ _ =>
    refine h.move (fun i hi => Or.inl hi) (fun i hi => Or.inl hi)
      (fun i h0 hi => Or.inr (Or.inl ?_)) ?_
    · refine Owned.of_update hc rfl ?_ h0 hi
      exact Or.inl rfl
    rintro R' i ⟨l', ⟨ls, hls, hl'⟩, hp⟩
    have hR : R' ≠ R := by
      rintro rfl
      cases hnew.symm.trans hls
    exact Or.inr (Or.inr ⟨R', l', lease_setRoom.mpr (Or.inr ⟨hR, ls, hls, hl'⟩), hp⟩)
  | @join fd c R ls l m n σ' hc _ hls _ _ _ _ _ _ _ _ hσ =>
    refine h.of_room (r.setSession fd _) (fun i h0 hi => ?_) rfl hls
      (fun l hl => ⟨l, List.mem_append_left [_] hl, rfl⟩) rfl rfl rfl
    exact Owned.of_pointwise hσ.sends (fun c c' => hsends)
      (Owned.of_update (q := r.entered fd c R l (ls ++ [l]) m) hc rfl (Or.inl rfl) h0 hi)
  | joinFailed hc _ hd =>
    refine h.of_session hc rfl rfl rfl rfl ?_
    rw [hd.same]
    rfl
  | @resume fd c R ls l m n σ' hc _ hls _ _ _ _ _ hσ =>
    refine h.of_room (r.setSession fd _) (fun i h0 hi => ?_) rfl hls
      (exists_mapLease .markOnline c.peerId) rfl rfl rfl
    exact Owned.of_pointwise hσ.sends (fun c c' => hsends)
      (Owned.of_update (q := r.entered fd c R l (mapLease c.peerId (·.markOnline) ls) m) hc rfl
        (Or.inl rfl) h0 hi)
  | @resumeFailed fd c c' ext lost R now ls l hc _ hls _ _ _ hd =>
    exact h.of_room (r.setSession fd _)
      (fun i => Owned.of_update hc rfl (Or.inl (by rw [hd.same]; rfl))) rfl hls
      (exists_mapLease (.markOnlineOffline now) c.peerId) rfl rfl rfl
  | resumeGiveUp hc _ _ => exact h.of_session hc rfl rfl rfl rfl rfl
  | @leave fd c ls n σ' hc hls _ _ _ hσ =>
    have hc' : ∃ c', σ' fd = some c' ∧ c'.peerId = c.peerId := by
      obtain ⟨c', hc', hcc⟩ := hσ.sends.forth hc
      exact ⟨c', hc', hsends hcc⟩
    obtain ⟨c', hc', hp⟩ := hc'
    have hown : ∀ i, i ≠ 0 → r.Owned i →
        (((r.tell c.home c.peerId n σ').setSession fd c.exit).setRoom c.home
          (dropLease c.peerId ls)).Owned i := by
      intro i h0 hi
      have hi' : (r.tell c.home c.peerId n σ').Owned i :=
        Owned.of_pointwise hσ.sends (fun c c' => hsends) hi
      refine Owned.of_update (r := r.tell c.home c.peerId n σ') hc' rfl ?_ h0 hi'
      exact Or.inl hp.symm
    refine h.of_drop hown hls rfl rfl (fun i hi => hi) (Or.inr ?_)
    exact ⟨fd, c.exit, by simp [setRoom, setSession], rfl⟩
  | @logout fd c hc _ _ hl _ =>
    refine h.move (fun i hi => Or.inl hi) (fun i hi => Or.inl (Or.inr hi)) (fun i h0 hi => ?_) ?_
    · by_cases hip : i = c.peerId
      · exact Or.inl (Or.inl hip)
      · obtain ⟨g, d, hd, rfl⟩ := hi
        have hg : g ≠ fd := by
          rintro rfl
          exact hip (congrArg Sess.peerId (Option.some.inj (hd.symm.trans hc)))
        exact Or.inr (Or.inl ⟨g, d, by simpa [setSession, Function.update_of_ne hg] using hd, rfl⟩)
    · exact fun R i hi => Or.inr (Or.inr ⟨R, hi⟩)
  | @expire R ls l n σ' hls _ _ _ hσ =>
    have hown : ∀ i, i ≠ 0 → r.Owned i →
        Owned { (r.tell R l.peerId n σ').setRoom R (dropLease l.peerId ls) with
        free := { i | i ∈ r.free ∨ i = l.peerId ∧ ¬ r.Owned l.peerId } } i :=
      fun i _ hi => Owned.of_pointwise hσ.sends (fun c c' => hsends) hi
    refine h.of_drop hown hls rfl rfl (fun i hi => Or.inl hi) ?_
    by_cases ho : r.Owned l.peerId
    · exact Or.inr (Owned.of_pointwise hσ.sends (fun c c' => hsends) ho)
    · exact Or.inl (Or.inr ⟨rfl, ho⟩)
  | flag hls _ hf _ =>
    exact h.of_room _ (fun i _ hi => hi) rfl hls (exists_mapLease hf _) rfl rfl rfl
  | @eraseRoom R hls =>
    refine h.move (fun i hi => Or.inl hi) (fun i hi => Or.inl hi)
      (fun i _ hi => Or.inr (Or.inl hi)) ?_
    rintro R' i ⟨l, ⟨ls, hls', hl⟩, hp⟩
    have hR : R' ≠ R := by
      rintro rfl
      obtain rfl : [] = ls := Option.some.inj (hls.symm.trans hls')
      cases hl
    exact Or.inr (Or.inr ⟨R', l, ⟨ls, by simpa [hR] using hls', hl⟩, hp⟩)
  | @remove fd c now hc _ hlose _ =>
    have hnot : ¬ r.Orphan c := fun ho => hS fd (hlose ho)
    -- the leases stay, and the id goes with a lease or is given back
    have hlease : ∀ R i, r.HasLease R i → HasLease { r with
        sessions := Function.update r.sessions fd none
        rooms := Function.update r.rooms c.home
          ((r.rooms c.home).map (mapLease c.peerId (·.markOffline now)))
        peerMap := unbind r.peerMap fd
        secureSessionMap := unbind r.secureSessionMap fd
        free := { i | i ∈ r.free ∨ i = c.peerId ∧ c.peerId ≠ 0 ∧ c.roomId = 0 ∧
          r.rooms c.home = none }
        openFds := r.openFds \ {fd} } R i := by
      rintro R i ⟨l, ⟨ls, hls, hl⟩, hp⟩
      by_cases hR : R = c.home
      · subst hR
        obtain ⟨l', hl', hp'⟩ := exists_mapLease (.markOffline now) c.peerId l hl
        exact ⟨l', ⟨_, by simp [hls], hl'⟩, hp'.trans hp⟩
      · exact ⟨l, ⟨ls, by simpa [hR] using hls, hl⟩, hp⟩
    refine h.move (fun i hi => Or.inl hi) (fun i hi => Or.inl (Or.inl hi)) (fun i h0 hi => ?_)
      fun R i hi => Or.inr (Or.inr ⟨R, hlease R i hi⟩)
    by_cases hip : i = c.peerId
    · subst hip
      by_cases hl : r.HasLease c.home c.peerId
      · exact Or.inr (Or.inr ⟨_, hlease _ _ hl⟩)
      · have hgone : c.roomId = 0 ∧ r.rooms c.home = none := by
          by_contra hroom
          exact hnot ⟨h0, hl, hroom⟩
        exact Or.inl (Or.inr ⟨rfl, h0, hgone⟩)
    · obtain ⟨g, d, hd, rfl⟩ := hi
      have hg : g ≠ fd := by
        rintro rfl
        exact hip (congrArg Sess.peerId (Option.some.inj (hd.symm.trans hc)))
      exact Or.inr (Or.inl ⟨g, d, by simpa [Function.update_of_ne hg] using hd, rfl⟩)
  | bindData hc _ _ _ _ _ _ => exact h.of_session hc rfl rfl rfl rfl rfl
  | closeData hc _ => exact h.of_session hc rfl rfl rfl rfl rfl

theorem Run.noLeak {r r' : Reg} (hrun : Run S r r') (hinv : r.Inv S) (hS : ∀ fd, ¬ S.Loses fd)
    (h : r.NoLeak) :
    r'.NoLeak := by
  induction hrun with
  | refl => exact h
  | tail hrun hstep ih => exact hstep.noLeak (Run.inv hrun hinv) hS ih

/-! ### Names -/

/-- Whoever is logged in has a name of their own, and their lease carries it. -/
structure Named (r : Reg) : Prop where
  session : ∀ {fd c}, r.sessions fd = some c → c.peerId ≠ 0 → c.name ≠ []
  lease : ∀ {R l}, r.Lease R l → l.name ≠ []
  same : ∀ {R l fd c}, r.Lease R l → r.sessions fd = some c → c.peerId = l.peerId → c.name = l.name
  distinct : ∀ {fd g c d}, r.sessions fd = some c → r.sessions g = some d → c.peerId ≠ 0 →
    d.peerId ≠ 0 →
    d.name = c.name → g = fd

/-- The session has kept its id and its name. -/
def NameKept (r : Reg) (fd : Fd) (c' : Sess) : Prop :=
  ∃ c, r.sessions fd = some c ∧ c.peerId = c'.peerId ∧ c'.name = c.name

/-- The session has just logged in, with a name that nobody has. -/
structure NameNew (r : Reg) (fd : Fd) (c' : Sess) : Prop where
  nonempty : c'.name ≠ []
  free : r.NameFree fd c'.name
  unowned : ¬ r.Owned c'.peerId
  lease : ∀ {R l}, r.Lease R l → l.peerId = c'.peerId → c'.name = l.name

theorem Change.name {r : Reg} {fd : Fd} {c c' : Sess} (hch : Change S r fd c c') (hinv : r.Inv S)
    (hn : r.Named) (hS : S.Distinct) (hc : r.sessions fd = some c) (hp : c'.peerId ≠ 0) :
    r.NameKept fd c' ∨ r.NameNew fd c' := by
  cases hch with
  | same h => exact Or.inl ⟨c, hc, h.peerId.symm, h.name⟩
  | outside _ _ h => exact Or.inl ⟨c, hc, h.peerId.symm, h.name⟩
  | @fresh p name hst hp' hname hfree _ h =>
    have hpeer : c'.peerId = p := h.peerId
    have hnm : c'.name = name := h.name
    have hunused : ¬ r.Owned p ∧ r.NoLease p := by
      rcases hp' with hp' | rfl
      · exact (hinv.leased.free hp').2.2
      · refine ⟨?_, ?_⟩
        · rintro ⟨g, d, hd, hdp⟩
          exact absurd (hinv.leased.session_id hd) (by omega)
        · rintro R ⟨l, hl, hlp⟩
          exact absurd (hinv.leased.lease_id hl).2 (by omega)
    refine Or.inr ⟨hnm ▸ hname, hnm ▸ hfree, hpeer ▸ hunused.1, fun {R l} hl hlp => ?_⟩
    exact absurd ⟨l, hl, hlp.trans hpeer⟩ (hunused.2 R)
  | @restored R l asked name hst hl hown hname hkeep _ _ hfree h =>
    have hpeer : c'.peerId = l.peerId := h.peerId
    have hnm : c'.name = name := h.name
    refine Or.inr ⟨hnm ▸ hname, hnm ▸ hfree hS, hpeer ▸ hown, fun {R' l'} hl' hlp => ?_⟩
    obtain ⟨_, rfl⟩ := hinv.leased.unique hl hl' (hlp.trans hpeer).symm
    exact hnm.trans (hkeep (hn.lease hl))
  | lobby _ _ h => exact Or.inl ⟨c, hc, h.peerId.symm, h.name⟩
  | joined _ hname _ h => exact Or.inl ⟨c, hc, h.peerId.symm, h.name.trans hname⟩
  | resumed _ hl hlp _ h =>
    exact Or.inl ⟨c, hc, h.peerId.symm, h.name.trans (hn.same hl hc hlp.symm).symm⟩
  | exited _ _ h => exact Or.inl ⟨c, hc, h.peerId.symm, h.name⟩
  | loggedOut _ h => exact absurd h.peerId hp

/-- **Names stay distinct**, as long as a restored name is nobody else's. -/
theorem Step.named {r r' : Reg} (hstep : Step S r r') (hinv : r.Inv S) (hS : S.Distinct)
    (h : r.Named) :
    r'.Named := by
  obtain ⟨fd₀, hothers, hself⟩ := hstep.change hinv
  -- at most one session has a name it did not have
  have hkept : ∀ {g c'}, g ≠ fd₀ → r'.sessions g = some c' → r.NameKept g c' := by
    intro g c' hg hc'
    obtain ⟨c, hc, hv⟩ := hothers g c' hg hc'
    exact ⟨c, hc, hv.peerId.symm, hv.name⟩
  have hname : ∀ {g c'}, r'.sessions g = some c' → c'.peerId ≠ 0 → r.NameKept g c' ∨ g = fd₀ ∧
      r.NameNew g c' := by
    intro g c' hc' hp
    by_cases hg : g = fd₀
    · subst hg
      rcases hself c' hc' with ⟨_, _, hfresh⟩ | ⟨c, hc, hch⟩
      · exact absurd hfresh.peerId hp
      · exact (hch.name hinv h hS hc hp).imp id fun hnew => ⟨rfl, hnew⟩
    · exact Or.inl (hkept hg hc')
  constructor
  case session =>
    intro fd c' hc' hp
    rcases hname hc' hp with ⟨c, hc, hpeer, hnm⟩ | ⟨_, hnew⟩
    · rw [hnm]
      exact h.session hc (hpeer ▸ hp)
    · exact hnew.nonempty
  case lease =>
    intro R l' hl'
    rcases hstep.lease_back hl' with ⟨l, hl, hsame⟩ | ⟨fd, c, hc, hst, _, hnm, _⟩
    · rw [hsame.name]
      exact h.lease hl
    · rw [hnm]
      refine h.session hc ((hinv.wf hc).identity.mp ?_)
      rw [hst]
      rfl
  case same =>
    intro R l' fd c' hl' hc' hp
    have hp0 : c'.peerId ≠ 0 := by
      rw [hp]
      exact ((hstep.inv hinv).leased.lease_id hl').1
    rcases hstep.lease_back hl' with ⟨l, hl, hsame⟩ | ⟨g, d, hd, _, hlp, hln, _⟩
    · rw [hsame.name]
      rcases hname hc' hp0 with ⟨c, hc, hpeer, hnm⟩ | ⟨_, hnew⟩
      · rw [hnm]
        exact h.same hl hc (hpeer.trans (hp.trans hsame.peerId))
      · exact hnew.lease hl (hsame.peerId.symm.trans hp.symm)
    · rw [hln]
      rcases hname hc' hp0 with ⟨c, hc, hpeer, hnm⟩ | ⟨_, hnew⟩
      · have hsame : c.peerId = d.peerId := hpeer.trans (hp.trans hlp)
        obtain rfl := hinv.indexed.owner_unique hc hd hsame.symm (hpeer ▸ hp0)
        obtain rfl : c = d := Option.some.inj (hc.symm.trans hd)
        exact hnm
      · exact absurd ⟨g, d, hd, (hp.trans hlp).symm⟩ hnew.unowned
  case distinct =>
    intro fd g c' d' hc' hd' hp hq hnm
    rcases hname hc' hp with ⟨c, hc, hpc, hnc⟩ | ⟨rfl, hnew⟩
    · rcases hname hd' hq with ⟨d, hd, hpd, hnd⟩ | ⟨rfl, hnew⟩
      · exact h.distinct hc hd (hpc ▸ hp) (hpd ▸ hq) (hnd.symm.trans (hnm.trans hnc))
      · by_contra hg
        exact hnew.free fd c hc (Ne.symm hg) (hpc ▸ hp) (hnc.symm.trans hnm.symm)
    · by_contra hg
      obtain ⟨d, hd, hpd, hnd⟩ := hkept hg hd'
      exact hnew.free g d hd hg (hpd ▸ hq) (hnd.symm.trans hnm)

theorem Run.named {r r' : Reg} (hrun : Run S r r') (hinv : r.Inv S) (hS : S.Distinct)
    (h : r.Named) : r'.Named := by
  induction hrun with
  | refl => exact h
  | tail hrun hstep ih => exact hstep.named (Run.inv hrun hinv) hS ih

end Reg

end Registry

end VlanConnect

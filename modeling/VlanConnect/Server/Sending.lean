/-
  VlanConnect/Server/Sending.lean
  ===============================
  **What sending does to the registry.**

  A message to one session changes that session only: the message is on its
  stream, or was turned away, or the session is dead.  A broadcast does this to
  every live holder of a lease of the room but the excluded peer.
-/
import VlanConnect.Server.Abstraction

namespace VlanConnect

open Registry

namespace Server

variable (K : Crypto)

/-! ### Changes of one session -/

/-- Only the session `c` of `fd` changed, within `rel`. -/
def Only (rel : Sess → Sess → Prop) (fd : Fd) (c : ClientSession) (s s' : Server) : Prop :=
  ∃ c', s'.clients[fd]? = some c' ∧ rel c.toSess c'.toSess ∧
    s'.registry = s.registry.setSession fd c'.toSess ∧ s'.world = s.world

theorem setSession_setSession (r : Reg) (fd : Fd) (c c' : Sess) :
    (r.setSession fd c).setSession fd c' = r.setSession fd c' := by
  simp [Reg.setSession]

theorem sessions_setSession_self (r : Reg) (fd : Fd) (c : Sess) :
    (r.setSession fd c).sessions fd = some c := by
  simp [Reg.setSession]

theorem sessions_setSession_of_ne {r : Reg} {fd g : Fd} {c : Sess} (h : g ≠ fd) :
    (r.setSession fd c).sessions g = r.sessions g := by
  simp [Reg.setSession, h]

theorem setSession_self {r : Reg} {fd : Fd} {c : Sess} (h : r.sessions fd = some c) :
    r.setSession fd c = r := by
  simp [Reg.setSession, ← h]

theorem Only.modify {s : Server} {fd : Fd} {c : ClientSession} {rel : Sess → Sess → Prop}
    {f : ClientSession → ClientSession} (hc : s.clients[fd]? = some c)
    (hrel : rel c.toSess (f c).toSess) : Only rel fd c s (s.modify fd f) :=
  ⟨f c, clients_modify hc, hrel, registry_modify hc, rfl⟩

theorem Only.same {s s' : Server} {fd : Fd} {c c' : ClientSession} (hc : s.clients[fd]? = some c)
    (hc' : s'.clients[fd]? = some c') (hsess : c'.toSess = c.toSess) (hr : s'.registry = s.registry)
    (hw : s'.world = s.world) : Only Eq fd c s s' := by
  refine ⟨c', hc', hsess.symm, ?_, hw⟩
  rw [hr, hsess, setSession_self (sessions_registry hc)]

theorem Only.refl {s : Server} {fd : Fd} {c : ClientSession} (hc : s.clients[fd]? = some c) :
    Only Eq fd c s s := Only.same hc hc rfl rfl rfl

theorem Only.mono {s s' : Server} {fd : Fd} {c : ClientSession} {rel rel' : Sess → Sess → Prop}
    (h : Only rel fd c s s') (himp : ∀ {c'}, rel c.toSess c' → rel' c.toSess c') :
    Only rel' fd c s s' := by
  obtain ⟨c', hc', hrel, hr, hw⟩ := h
  exact ⟨c', hc', himp hrel, hr, hw⟩

theorem Only.trans {s s' s'' : Server} {fd : Fd} {c : ClientSession}
    {rel rel' rel'' : Sess → Sess → Prop} (h : Only rel fd c s s')
    (h' : ∀ c', s'.clients[fd]? = some c' → rel c.toSess c'.toSess → Only rel' fd c' s' s'')
    (hcomp : ∀ {c' c''}, rel c.toSess c' → rel' c' c'' → rel'' c.toSess c'') :
    Only rel'' fd c s s'' := by
  obtain ⟨c', hc', hrel, hr, hw⟩ := h
  obtain ⟨c'', hc'', hrel', hr', hw'⟩ := h' c' hc' hrel
  exact ⟨c'', hc'', hcomp hrel hrel', by rw [hr', hr, setSession_setSession], hw'.trans hw⟩

theorem Only.andModify {s s' : Server} {fd : Fd} {c : ClientSession} {rel rel' : Sess → Sess → Prop}
    {f : ClientSession → ClientSession} (h : Only rel fd c s s')
    (hf : ∀ {c' : ClientSession}, rel c.toSess c'.toSess → rel' c.toSess (f c').toSess) :
    Only rel' fd c s (s'.modify fd f) := by
  obtain ⟨c', hc', hrel, hr, hw⟩ := h
  exact ⟨f c', clients_modify hc',
    hf hrel, by rw [registry_modify hc', hr, setSession_setSession], hw⟩

/-- A step that the registry does not see, at the end of a change. -/
theorem Only.andSame {s s' s'' : Server} {fd : Fd} {c : ClientSession} {rel : Sess → Sess → Prop}
    (h : Only rel fd c s s')
    (h' : ∀ c', s'.clients[fd]? = some c' → Only Eq fd c' s' s'') : Only rel fd c s s'' :=
  h.trans (fun c' hc' _ => h' c' hc') fun hrel he => he ▸ hrel

/-! ### Small steps -/

/-- The session may only have died. -/
def Dies : Sess → Sess → Prop := Sess.Delivered [] []

theorem Dies.of_kill (c : Sess) : Dies c { c with alive := false } := ⟨by simp, by simp⟩

theorem kill_only {s : Server} {fd : Fd} {c : ClientSession} (hc : s.clients[fd]? = some c) :
    Only (fun c c' => c' = { c with alive := false }) fd c s (s.kill fd) := Only.modify hc rfl

theorem Only.kill {s : Server} {fd : Fd} {c : ClientSession} (hc : s.clients[fd]? = some c) :
    Only Dies fd c s (s.kill fd) := (kill_only hc).mono fun h => h ▸ Dies.of_kill _

theorem modify_same {s : Server} {fd : Fd} {c : ClientSession} {f : ClientSession → ClientSession}
    (hc : s.clients[fd]? = some c) (hf : ∀ c, (f c).toSess = c.toSess) :
    Only Eq fd c s (s.modify fd f) :=
  Only.same hc (clients_modify hc) (hf c) (registry_modify_same hf) rfl

theorem registry_act {s : Server} {a : Act} (h : a.notice = none) (h' : a.call = none) :
    (s.act a).registry = s.registry := by
  simp [registry, act, h, h']

theorem act_output_same {s : Server} {fd : Fd} {c : ClientSession} (hc : s.clients[fd]? = some c)
    (fd' : Fd) (channel : Channel) (plain frame : Bytes) :
    Only Eq fd c s (s.act (.output fd' channel plain frame)) :=
  Only.same hc hc rfl (registry_act rfl rfl) rfl

theorem setSendBuf_toSess (c : ClientSession) (dataChannel : Bool) (buf : Bytes) :
    (setSendBuf c dataChannel buf).toSess = c.toSess := by
  cases dataChannel <;> rfl

theorem recordFrame_toSess (c : ClientSession) (dataChannel : Bool) (frame : Bytes) :
    (recordFrame c dataChannel frame).toSess = c.toSess := by
  cases dataChannel <;> rfl

theorem recordWritten_toSess (c : ClientSession) (dataChannel : Bool) (bytes : Bytes) :
    (recordWritten c dataChannel bytes).toSess = c.toSess := by
  cases dataChannel <;> rfl

theorem recordEnd_toSess (c : ClientSession) (dataChannel : Bool) :
    (recordEnd c dataChannel).toSess = c.toSess := by
  cases dataChannel <;> rfl

theorem appendSendBuffer_same {s : Server} {fd : Fd} {c : ClientSession}
    (hc : s.clients[fd]? = some c) (dataChannel : Bool) (first second : Bytes) :
    Only Eq fd c s (s.appendSendBuffer fd dataChannel first second).2 := by
  unfold appendSendBuffer
  dsimp only
  split
  · split
    · exact Only.refl hc
    · exact modify_same hc fun _ => rfl
  · have h : Only Eq fd c s (s.modify fd fun c => recordFrame (setSendBuf c dataChannel
        (sendBufOf c dataChannel ++ first ++ second)) dataChannel (first ++ second)) := by
      refine modify_same hc fun c => ?_
      rw [recordFrame_toSess, setSendBuf_toSess]
    split
    · exact h.andSame fun c' hc' => Only.same hc' hc' rfl rfl rfl
    · refine h.andSame fun c' hc' => ?_
      exact Only.same hc' (clients_modify hc') rfl (registry_modify_same fun _ => rfl) rfl

theorem clearSendBuffer_same {s : Server} {fd : Fd} {c : ClientSession}
    (hc : s.clients[fd]? = some c) (dataChannel : Bool) :
    Only Eq fd c s (s.clearSendBuffer fd dataChannel) := by
  refine (modify_same hc fun c => ?_).andSame fun _ hc' => Only.same hc' hc' rfl rfl rfl
  rw [recordEnd_toSess, setSendBuf_toSess]

theorem flushBuffer_same {s : Server} {fd : Fd} {c : ClientSession} (hc : s.clients[fd]? = some c)
    (dataChannel : Bool) : Only Eq fd c s (s.flushBuffer fd dataChannel).2 := by
  unfold flushBuffer
  refine (modify_same hc fun c => ?_).andSame fun _ hc' => Only.same hc' hc' rfl rfl rfl
  rw [recordWritten_toSess, setSendBuf_toSess]

theorem flushSendBuf_only {s : Server} {fd : Fd} {c : ClientSession}
    (hc : s.clients[fd]? = some c) :
    Only Dies fd c s (s.flushSendBuf fd) := by
  unfold flushSendBuf
  have h := flushBuffer_same hc false
  rcases hf : s.flushBuffer fd false with ⟨res, s₁⟩
  rw [hf] at h
  dsimp only at h ⊢
  split
  · exact h.trans (fun c' hc' _ => Only.kill hc') fun he hd => he ▸ hd
  · exact h.mono fun he => he ▸ Sess.Delivered.refl _

/-! ### A message to one session -/

/-- What a send function that returned `ok` did with the message `m`. -/
structure Outcome (m : Msg) (ok : Bool) (c c' : Sess) : Prop where
  heard : c.alive = true → c.Heard m c'
  dead : c.alive = false → c' = c
  ok : ok = true → c.Delivered [m] [] c' ∧ c'.alive = true

theorem Outcome.dies {m : Msg} {c c' : Sess} (ha : c.alive = true) (h : Dies c c')
    (hd : c'.alive = false) :
    Outcome m false c c' :=
  ⟨fun _ => Or.inr (Or.inr ⟨h, hd⟩), fun hn => absurd ha (by simp [hn]), by simp⟩

theorem Outcome.sends {m : Msg} {ok : Bool} {c c' : Sess} (h : Outcome m ok c c') :
    Reg.Sends c c' := by
  cases ha : c.alive with
  | true => exact Reg.Sends.of_heard (h.heard ha)
  | false =>
    rw [h.dead ha]
    exact Reg.Sends.refl c

theorem Outcome.quiet {m : Msg} {ok : Bool} {c c' : Sess} (h : Outcome m ok c c')
    (hm : isMembership m.1 = false) : c.Quiet c' := by
  cases ha : c.alive with
  | true =>
    rcases h.heard ha with h | h | ⟨h, _⟩
    · exact ⟨_, _, h, by simpa using hm⟩
    · exact ⟨_, _, h, by simp⟩
    · exact ⟨_, _, h, by simp⟩
  | false =>
    rw [h.dead ha]
    exact Sess.Quiet.refl c

/-- The message is on the stream; afterwards the session may die. -/
theorem Outcome.put {m : Msg} {ok : Bool} {c c' : Sess} (ha : c.alive = true)
    (h : Dies { c with sent := c.sent ++ [m] } c') (hok : ok = true → c'.alive = true) :
    Outcome m ok c c' := by
  have hd : c.Delivered [m] [] c' := by
    refine ⟨?_, fun _ => ha⟩
    rw [h.same]
    simp
  exact ⟨fun _ => Or.inl hd, fun hn => absurd ha (by simp [hn]), fun ht => ⟨hd, hok ht⟩⟩

/-- The message was turned away; afterwards the session may die. -/
theorem Outcome.turnedAway {m : Msg} {c c' : Sess} (ha : c.alive = true)
    (h : Dies { c with rejected := c.rejected ++ [m] } c') : Outcome m false c c' := by
  have hd : c.Delivered [] [m] c' := by
    refine ⟨?_, fun _ => ha⟩
    rw [h.same]
    simp
  exact ⟨fun _ => Or.inr (Or.inl hd), fun hn => absurd ha (by simp [hn]), by simp⟩

theorem sendMsg_outcome {s : Server} {fd : Fd} {c : ClientSession} (hc : s.clients[fd]? = some c)
    (msgType : UInt8) (body : Bytes) (m : Msg) :
    Only (Outcome m (s.sendMsg fd msgType body m).1) fd c s (s.sendMsg fd msgType body m).2 := by
  unfold sendMsg
  rw [if_neg (by simp [mem_clients hc]), client_eq hc]
  cases ha : c.alive with
  | false =>
    refine (Only.refl hc).mono fun he => ?_
    subst he
    exact ⟨fun h => absurd (ha ▸ h : false = true) (by simp), fun _ => rfl, by simp⟩
  | true =>
    rw [if_neg (by simp)]
    split
    · exact Only.modify hc (Outcome.turnedAway ha (Sess.Delivered.refl _))
    · have happ := appendSendBuffer_same hc false (tcpMsgHeader msgType body.length) body
      rcases happ' : s.appendSendBuffer fd false (tcpMsgHeader msgType body.length) body with
        ⟨ok, s₁⟩
      rw [happ'] at happ
      dsimp only at happ ⊢
      split
      · -- the buffer is full
        have hrej : Only (fun c c' => c' = { c with rejected := c.rejected ++ [m] }) fd c s
            (s₁.modify fd fun c => { c with rejected := c.rejected ++ [m] }) :=
          happ.andModify fun he => by rw [he]; rfl
        split
        · exact hrej.trans (fun c' hc' _ => Only.kill hc') fun he hd =>
            Outcome.turnedAway ha (by rw [he] at hd; exact hd)
        · exact hrej.mono fun he => Outcome.turnedAway ha (by rw [he]; exact Sess.Delivered.refl _)
      · have hput : Only (fun c c' => c' = { c with sent := c.sent ++ [m] }) fd c s
            (s₁.modify fd fun c => { c with sent := c.sent ++ [m] }) :=
          happ.andModify fun he => by rw [he]; rfl
        have hact := hput.andSame fun c' hc' => act_output_same hc' fd .signal (m.1 :: m.2) body
        generalize Server.act _ _ = s₂' at hact ⊢
        have hflush : Only (fun c c' => Dies { c with sent := c.sent ++ [m] } c') fd c s
            (s₂'.flushSendBuf fd) :=
          hact.trans (fun c' hc' _ => flushSendBuf_only hc') fun he hd => by rw [he] at hd; exact hd
        generalize s₂'.flushSendBuf fd = s₂ at hflush ⊢
        have hlast : Only (fun c c' => Dies { c with sent := c.sent ++ [m] } c') fd c s
            (if MAX_TCP_SEND_BUF < (s₂.client fd).sendBuf.length then s₂.kill fd else s₂) := by
          split
          · exact hflush.trans (fun c' hc' _ => Only.kill hc') fun hd hd' => hd.trans hd'
          · exact hflush
        generalize (if MAX_TCP_SEND_BUF < (s₂.client fd).sendBuf.length then s₂.kill fd else s₂) =
          s₃ at hlast ⊢
        obtain ⟨c', hc', hd, hr, hw⟩ := hlast
        exact ⟨c', hc', Outcome.put ha hd (by rw [client_eq hc']; exact id), hr, hw⟩

/-- The frame is empty exactly when the session dies over it. -/
theorem encryptForClient_only {s : Server} {fd : Fd} {c : ClientSession}
    (hc : s.clients[fd]? = some c) (msgType : UInt8) (body : Bytes) :
    Only (fun c c' => c' = if (s.encryptForClient K fd msgType body).1 = [] then
      { c with alive := false }
      else c) fd c s (s.encryptForClient K fd msgType body).2 := by
  unfold encryptForClient
  have h : Only Eq fd c s (s.modify fd fun c => { c with
      secureCipher := ((s.client fd).secureCipher.encrypt K (msgType :: body) []).2 }) :=
    modify_same hc fun _ => rfl
  dsimp only
  split
  · exact h.trans (fun c' hc' _ => kill_only hc') fun he hk => by rw [he]; exact hk
  · exact h.mono fun he => he.symm

/-- `sendClientMsg` before the check for messages that must not be lost. -/
theorem sendWrapped_outcome {s : Server} {fd : Fd} {c : ClientSession}
    (hc : s.clients[fd]? = some c)
    (ha : c.alive = true) (msgType : UInt8) (body : Bytes) {res : Bool × Server}
    (hres : res = if c.secureEnabled ∧ c.serverAuthOk then
        let (wrapped, s) := s.encryptForClient K fd msgType body
        if (s.client fd).alive ∧
          wrapped ≠ [] then s.sendMsg fd MSG_ENCRYPTED wrapped (msgType, body)
        else (false, s)
      else if msgType = MSG_SERVER_HELLO ∨ msgType = MSG_SERVER_AUTH_OK ∨ msgType = MSG_ERROR then
        s.sendMsg fd msgType body (msgType, body)
      else (false, s.kill fd)) : Only (Outcome (msgType, body) res.1) fd c s res.2 := by
  subst hres
  split
  · have henc := encryptForClient_only K hc msgType body
    rcases he : s.encryptForClient K fd msgType body with ⟨wrapped, s₁⟩
    rw [he] at henc
    dsimp only at henc ⊢
    obtain ⟨c₁, hc₁, hsess, hr, hw⟩ := henc
    rw [client_eq hc₁]
    have hal : c₁.alive = c₁.toSess.alive := rfl
    split
    · next hsend =>
      rw [if_neg hsend.2] at hsess
      obtain ⟨c₂, hc₂, hout, hr', hw'⟩ := sendMsg_outcome hc₁ MSG_ENCRYPTED wrapped (msgType, body)
      refine ⟨c₂, hc₂, hsess ▸ hout, ?_, hw'.trans hw⟩
      rw [hr', hr, setSession_setSession]
    · next hsend =>
      have hnil : wrapped = [] := by
        by_contra hne
        rw [if_neg hne] at hsess
        exact hsend ⟨by rw [hal, hsess]; exact ha, hne⟩
      rw [if_pos hnil] at hsess
      exact ⟨c₁, hc₁, Outcome.dies ha (by rw [hsess]; exact Dies.of_kill _) (by rw [hsess]), hr, hw⟩
  · split
    · exact sendMsg_outcome hc msgType body (msgType, body)
    · exact (kill_only hc).mono fun h =>
        Outcome.dies ha (by rw [h]; exact Dies.of_kill _) (by rw [h])

/-- **A message to a session** changes this session only. -/
theorem sendClientMsg_outcome {s : Server} {fd : Fd} {c : ClientSession}
    (hc : s.clients[fd]? = some c) (msgType : UInt8) (body : Bytes) :
    Only (Outcome (msgType, body) (s.sendClientMsg K fd msgType body).1) fd c s
      (s.sendClientMsg K fd msgType body).2 := by
  unfold sendClientMsg
  rw [client_eq hc]
  cases ha : c.alive with
  | false =>
    refine (Only.refl hc).mono fun he => ?_
    subst he
    exact ⟨fun h => absurd (ha ▸ h : false = true) (by simp), fun _ => rfl, by simp⟩
  | true =>
    rw [if_neg (by simp)]
    have hout := sendWrapped_outcome K hc ha msgType body rfl
    generalize (if c.secureEnabled ∧ c.serverAuthOk then _ else _ : Bool × Server) = res at hout ⊢
    obtain ⟨ok, s₁⟩ := res
    dsimp only at hout ⊢
    split
    · next hfail =>
      have hok : ok = false := by simpa using hfail.1
      refine hout.trans (fun c' hc' _ => Only.kill hc') fun ho hd =>
        ⟨fun _ => ?_, ?_, by simp [hok]⟩
      · rcases ho.heard ha with h | h | ⟨h, _⟩
        · exact Or.inl (by simpa using h.trans hd)
        · exact Or.inr (Or.inl (by simpa using h.trans hd))
        · refine Or.inr (Or.inr ⟨by simpa using h.trans hd, ?_⟩)
          by_contra hal
          have := hd.alive (by simpa using hal)
          simp_all
      · exact fun hn => absurd ha (by rw [show c.alive = false from hn]; simp)
    · exact hout

/-! ### Messages that do not concern memberships -/

/-- Only such messages were sent, and nothing else happened. -/
structure Silent (s s' : Server) : Prop where
  sessions : Reg.QuietSessions s.registry.sessions s'.registry.sessions
  rest : s'.registry = { s.registry with sessions := s'.registry.sessions }
  world : s'.world = s.world

theorem Silent.of_registry {s s' : Server} (h : s'.registry = s.registry)
    (hw : s'.world = s.world) :
    Silent s s' := by
  refine ⟨?_, by rw [h], hw⟩
  rw [h]
  exact Reg.Pointwise.refl Sess.Quiet.refl _

theorem Silent.refl (s : Server) : Silent s s := Silent.of_registry rfl rfl

theorem Idle.silent {s s' : Server} (h : Idle s s') : Silent s s' :=
  Silent.of_registry h.registry h.world

theorem Silent.trans {s₁ s₂ s₃ : Server} (h : Silent s₁ s₂) (h' : Silent s₂ s₃) : Silent s₁ s₃ :=
  ⟨Reg.QuietSessions.trans h.sessions h'.sessions, by rw [h'.rest, h.rest],
    h'.world.trans h.world⟩

theorem Only.silent {s s' : Server} {fd : Fd} {c : ClientSession} {rel : Sess → Sess → Prop}
    (h : Only rel fd c s s') (hc : s.clients[fd]? = some c)
    (hq : ∀ {c'}, rel c.toSess c' → c.toSess.Quiet c') : Silent s s' := by
  obtain ⟨c', _, hrel, hr, hw⟩ := h
  refine ⟨?_, by rw [hr]; rfl, hw⟩
  rw [hr]
  exact Reg.Pointwise.update Sess.Quiet.refl (sessions_registry hc) (hq hrel)

theorem Dies.quiet {c c' : Sess} (h : Dies c c') : c.Quiet c' := ⟨_, _, h, by simp⟩

theorem kill_silent {s : Server} {fd : Fd} {c : ClientSession} (hc : s.clients[fd]? = some c) :
    Silent s (s.kill fd) := (Only.kill hc).silent hc Dies.quiet

theorem sendClientMsg_silent {s : Server} {fd : Fd} {c : ClientSession}
    (hc : s.clients[fd]? = some c) {msgType : UInt8} (hm : isMembership msgType = false)
    (body : Bytes) :
    Silent s (s.sendClientMsg K fd msgType body).2 :=
  (sendClientMsg_outcome K hc msgType body).silent hc fun ho => ho.quiet hm

theorem sendMsg_silent {s : Server} {fd : Fd} {c : ClientSession} (hc : s.clients[fd]? = some c)
    (msgType : UInt8) (body : Bytes) {m : Msg} (hm : isMembership m.1 = false) :
    Silent s (s.sendMsg fd msgType body m).2 :=
  (sendMsg_outcome hc msgType body m).silent hc fun ho => ho.quiet hm

theorem sendError_silent {s : Server} {fd : Fd} {c : ClientSession} (hc : s.clients[fd]? = some c)
    (text : String) (code : AuthErrorCode) : Silent s (s.sendError K fd text code) := by
  rw [sendError, if_pos (mem_clients hc)]
  exact sendClientMsg_silent K hc rfl _

/-- A session is still there after sending. -/
theorem Silent.client {s s' : Server} (h : Silent s s') {fd : Fd} {c : ClientSession}
    (hc : s.clients[fd]? = some c) :
    ∃ c', s'.clients[fd]? = some c' ∧ c.toSess.Quiet c'.toSess := by
  obtain ⟨d, hd, hq⟩ := Reg.Pointwise.forth h.sessions (sessions_registry hc)
  obtain ⟨c', hc', rfl⟩ := exists_of_sessions hd
  exact ⟨c', hc', hq⟩

theorem Silent.step {s s' : Server} (h : Silent s s') (S : Reg.Scope) :
    Reg.Step S s.registry s'.registry := by
  rw [h.rest]
  exact .quiet h.sessions

theorem Silent.inv {s s' : Server} (h : Silent s s') {S : Reg.Scope} (hi : s.registry.Inv S) :
    s'.registry.Inv S := (h.step S).inv hi

/-! ### A notice to a room -/

/-- The session of a peer in `ids`, but not of `p`, was sent the message. -/
def ToldOne (ids : List Nat) (p : Nat) (m : Msg) (c c' : Sess) : Prop :=
  (c.alive = true ∧ c.peerId ≠ p ∧ c.peerId ∈ ids → c.Heard m c') ∧
  (¬ (c.alive = true ∧ c.peerId ≠ p ∧ c.peerId ∈ ids) → c' = c)

theorem ToldOne.sends {ids : List Nat} {p : Nat} {m : Msg} {c c' : Sess}
    (h : ToldOne ids p m c c') :
    Reg.Sends c c' := by
  by_cases hh : c.alive = true ∧ c.peerId ≠ p ∧ c.peerId ∈ ids
  · exact Reg.Sends.of_heard (h.1 hh)
  · rw [h.2 hh]
    exact Reg.Sends.refl c

/-- One more peer in the list, and it is not this one. -/
theorem ToldOne.snoc {ids : List Nat} {p q : Nat} {m : Msg} {c c' : Sess} (h : ToldOne ids p m c c')
    (hq : c.peerId = q → c.alive = true → q = p) : ToldOne (ids ++ [q]) p m c c' := by
  have hiff : (c.alive = true ∧ c.peerId ≠ p ∧ c.peerId ∈ ids ++ [q]) ↔
      (c.alive = true ∧ c.peerId ≠ p ∧ c.peerId ∈ ids) := by
    simp only [List.mem_append, List.mem_singleton]
    constructor
    · rintro ⟨ha, hne, hmem | heq⟩
      · exact ⟨ha, hne, hmem⟩
      · exact absurd (heq.trans (hq heq ha)) hne
    · exact fun ⟨ha, hne, hmem⟩ => ⟨ha, hne, Or.inl hmem⟩
  unfold ToldOne
  rw [hiff]
  exact h

/-- Where a broadcast stands after the peers `ids`. -/
structure Telling (r : Reg) (w : World) (ids : List Nat) (p : Nat) (m : Msg) (s : Server) :
    Prop where
  told : Reg.Pointwise (ToldOne ids p m) r.sessions s.registry.sessions
  rest : s.registry = { r with sessions := s.registry.sessions }
  world : s.world = w

theorem Telling.inv {S : Reg.Scope} {r : Reg} {w : World} {ids : List Nat} {p : Nat} {m : Msg}
    {s : Server} (h : Telling r w ids p m s) (hr : r.Inv S) : s.registry.Inv S :=
  hr.send (h.told.mono ToldOne.sends) (by rw [h.rest])

/-- Nobody is meant by the next peer. -/
theorem Telling.skip {r : Reg} {w : World} {ids : List Nat} {p q : Nat} {m : Msg} {s : Server}
    (h : Telling r w ids p m s)
    (hq : ∀ {fd c}, r.sessions fd = some c → c.peerId = q → c.alive = true → q = p) :
    Telling r w (ids ++ [q]) p m s :=
  ⟨fun fd => Reg.optionRel_imp (h.told fd) fun hc hrel => hrel.snoc (hq hc), h.rest, h.world⟩

theorem broadcastToMember_telling {S : Reg.Scope} {r : Reg} {w : World} {ids : List Nat} {p q : Nat}
    {msgType : UInt8} {body : Bytes} {s : Server} (hr : r.Inv S)
    (h : Telling r w ids p (msgType, body) s) (hq : q ∉ ids) (hq0 : q ≠ 0) :
    Telling r w (ids ++ [q]) p (msgType, body) (broadcastToMember K msgType body p s q) := by
  have hinv := h.inv hr
  unfold broadcastToMember
  split
  · next hqp => exact h.skip fun _ _ _ => hqp
  next hqp =>
  rw [findClientByPeerId_eq hinv.indexed]
  dsimp only
  rcases hk : s.peerMap[q]? with _ | fd
  · -- nobody has the id
    refine h.skip fun {fd c} hc hcq _ => ?_
    obtain ⟨c', hc', hrel⟩ := h.told.forth hc
    have := hinv.indexed.peer.mpr ⟨hq0, c', hc', hrel.sends.sameKeys.peerId.trans hcq⟩
    exact absurd (hk.symm.trans this) (by simp)
  · obtain ⟨_, d, hd, hdq⟩ := hinv.indexed.peer.mp hk
    -- the session of the id has not been told anything yet
    have hsame : r.sessions fd = some d := by
      obtain ⟨c, hc, hrel⟩ := h.told.back hd
      have hcq : c.peerId = q := hrel.sends.sameKeys.peerId.symm.trans hdq
      rw [hc, hrel.2 fun hh => hq (hcq ▸ hh.2.2)]
    have hone : ∀ {g c}, r.sessions g = some c → c.peerId = q → g = fd := fun hc hcq =>
      hr.indexed.owner_unique hsame hc (hcq.trans hdq.symm) (hdq ▸ hq0)
    obtain ⟨c, hc, rfl⟩ := exists_of_sessions hd
    have hwf := hinv.wf hd
    have hid : sessionHasPeerIdentity c.state = true := hwf.identity.mpr (hdq ▸ hq0)
    have hauth := hwf.auth (by rintro h; rw [show c.state = _ from h] at hid; cases hid)
      (by rintro h; rw [show c.state = _ from h] at hid; cases hid)
      (by rintro h; rw [show c.state = _ from h] at hid; cases hid)
    cases ha : c.alive with
    | false =>
      simp only [Option.filter_some, client_eq hc, ha, Bool.false_and, Bool.false_eq_true, if_false]
      refine h.skip fun {g c'} hc' hcq ha' => ?_
      cases hone hc' hcq
      rw [hsame] at hc'
      cases hc'
      exact absurd ha' (by rw [show c.toSess.alive = c.alive from rfl, ha]; simp)
    | true =>
      have hpass :
          (c.alive && c.serverAuthOk && c.secureEnabled && sessionHasPeerIdentity c.state) =
          true := by
        rw [ha, show c.serverAuthOk = true from hauth.1, show c.secureEnabled = true from hauth.2.1,
          hid]
        rfl
      simp only [Option.filter_some, client_eq hc, hpass, if_true]
      obtain ⟨c', hc', hout, hr', hw⟩ := sendClientMsg_outcome K hc msgType body
      refine ⟨fun g => ?_, by rw [hr', h.rest]; rfl, hw.trans h.world⟩
      rw [hr']
      by_cases hg : g = fd
      · subst hg
        rw [hsame, sessions_setSession_self]
        refine .some ⟨fun _ => hout.heard ha, fun hn => ?_⟩
        have hcp : c.toSess.peerId ≠ p := by rwa [hdq]
        exact absurd ⟨ha, hcp, by rw [hdq]; simp⟩ hn
      · rw [sessions_setSession_of_ne hg]
        exact Reg.optionRel_imp (h.told g) fun hc₀ hrel => hrel.snoc fun hcq =>
          absurd (hone hc₀ hcq) hg

theorem foldl_broadcastToMember {S : Reg.Scope} {r : Reg} {w : World} {p : Nat} {msgType : UInt8}
    {body : Bytes} (hr : r.Inv S) (ids : List Nat) : ∀ {told : List Nat} {s : Server},
    Telling r w told p (msgType, body) s → (told ++ ids).Nodup → (∀ q ∈ ids, q ≠ 0) →
      Telling r w (told ++ ids) p (msgType,
        body) (ids.foldl (broadcastToMember K msgType body p) s) := by
  induction ids with
  | nil =>
    intro told s h _ _
    simpa using h
  | cons q ids ih =>
    intro told s h hnd h0
    have hsplit : told ++ q :: ids = (told ++ [q]) ++ ids := by simp
    have hq : q ∉ told := by
      intro hmem
      exact (List.nodup_append.mp hnd).2.2 q hmem q (List.mem_cons_self ..) rfl
    rw [List.foldl_cons, hsplit]
    exact ih (broadcastToMember_telling K hr h hq (h0 q (List.mem_cons_self ..))) (hsplit ▸ hnd)
      fun q' hq' => h0 q' (List.mem_cons_of_mem _ hq')

theorem audience_registry (s : Server) (roomId peerId : Nat) :
    { fd | fd ∈ s.audience roomId peerId } = s.registry.audience roomId peerId := by
  ext fd
  simp only [audience, Set.mem_ofPred_eq, List.mem_filter, Reg.audience, Std.ExtTreeMap.mem_keys]
  constructor
  · rintro ⟨hmem, hf⟩
    obtain ⟨c, hc⟩ := Option.isSome_iff_exists.mp (Std.ExtTreeMap.mem_iff_isSome_getElem?.mp hmem)
    rw [client_eq hc] at hf
    simp only [Bool.and_eq_true, decide_eq_true_eq] at hf
    exact ⟨c.toSess, sessions_registry hc, hf.1, hf.2⟩
  · rintro ⟨c, hc, hf⟩
    obtain ⟨d, hd, rfl⟩ := exists_of_sessions hc
    refine ⟨mem_clients hd, ?_⟩
    rw [client_eq hd]
    simp only [Bool.and_eq_true, decide_eq_true_eq]
    exact ⟨hf.1, hf.2⟩

/-- **A notice to a room** goes to the live holders of its leases. -/
theorem broadcastToRoom_tell {S : Reg.Scope} {s : Server} {roomId : Nat} {room : Room}
    (h : s.registry.Inv S) (hroom : s.rooms.getRoom roomId = some room) (p : Nat) (msgType : UInt8)
    (body : Bytes) :
    ∃ σ', s.registry.Noticed roomId p (msgType, body) σ' ∧
      (s.broadcastToRoom K roomId msgType body p).registry =
      s.registry.tell roomId p (msgType, body) σ' ∧
      (s.broadcastToRoom K roomId msgType body p).world = s.world := by
  have hls : s.registry.rooms roomId = some room.leases := by simp [registry, hroom]
  unfold broadcastToRoom
  rw [hroom]
  dsimp only
  -- the entry in the history comes first
  have hact : (s.act (.broadcast roomId msgType body p (s.audience roomId p))).registry =
      s.registry.tell roomId p (msgType, body) s.registry.sessions := by
    have hlog : (s.act (.broadcast roomId msgType body p (s.audience roomId p))).registry =
        { s.registry with
          notices := (s.log ++ [Act.broadcast roomId msgType body p
            (s.audience roomId p)]).filterMap Act.notice
          calls := (s.log ++ [Act.broadcast roomId msgType body p (s.audience roomId p)]).filterMap
            Act.call } := rfl
    rw [hlog, List.filterMap_append, Reg.tell, ← audience_registry]
    simp [Act.notice, Act.call, registry]
  have hrinv : (s.registry.tell roomId p (msgType, body) s.registry.sessions).Inv S :=
    h.send (Reg.Pointwise.refl Reg.Sends.refl _) rfl
  have hstart : Telling (s.registry.tell roomId p (msgType, body) s.registry.sessions) s.world [] p
      (msgType, body) (s.act (.broadcast roomId msgType body p (s.audience roomId p))) := by
    refine ⟨?_, by rw [hact], rfl⟩
    rw [hact]
    exact Reg.Pointwise.refl (fun c => ⟨by simp, fun _ => rfl⟩) _
  have hend := foldl_broadcastToMember K hrinv room.peerIds hstart
      (h.leased.room hls).1 fun q hq => by
    obtain ⟨l, hl, rfl⟩ := List.mem_map.mp hq
    exact (h.leased.lease_id ⟨_, hls, hl⟩).1
  refine ⟨_, ?_, hend.rest, hend.world⟩
  refine hend.told.mono fun {c c'} hrel => ?_
  have hmem : c.peerId ∈ ([] ++ room.peerIds) ↔ s.registry.HasLease roomId c.peerId := by
    rw [List.nil_append]
    constructor
    · intro hc
      obtain ⟨l, hl, hp⟩ := List.mem_map.mp hc
      exact ⟨l, ⟨_, hls, hl⟩, hp⟩
    · rintro ⟨l, ⟨ls, hls', hl⟩, hp⟩
      rw [hls] at hls'
      cases hls'
      exact List.mem_map.mpr ⟨l, hl, hp⟩
  unfold ToldOne at hrel
  rw [hmem] at hrel
  exact hrel

end Server

end VlanConnect

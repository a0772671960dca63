/-
  VlanConnect/Client/EventEffects.lean
  ====================================
  **What an event of the signaling client is made of.**

  `Effects` covers the calls of the application and the messages of an
  established session.  The handshake adds few changes a property about
  requests can see: a salt comes with a hello while nothing is being hashed,
  and a session is established.  A property that keeps these too is kept by
  every event, apart from the result of a key derivation, which is left to the
  property itself.
-/
import VlanConnect.Client.Effects

namespace VlanConnect

namespace SignalClient

variable {K : Crypto} {kdf : Kdf}

/-- What belongs to the requests is the same; keys, nonces, proofs and the
    buffers of the connection may differ. -/
structure SameRequests (c c' : SignalClient) : Prop where
  authTask : c'.authTask = c.authTask
  authOperation : c'.authOperation = c.authOperation
  pendingCreate : c'.pendingCreate = c.pendingCreate
  pendingCreateMtu : c'.pendingCreateMtu = c.pendingCreateMtu
  pendingRoomPassword : c'.pendingRoomPassword = c.pendingRoomPassword
  hasPendingAuth : c'.hasPendingAuth = c.hasPendingAuth
  authSalt : c'.authSalt = c.authSalt
  roomOperationPending : c'.roomOperationPending = c.roomOperationPending
  serverPassword : c'.serverPassword = c.serverPassword
  secureReady : c'.secureReady = c.secureReady
  log : c'.log = c.log

theorem Same.requests {c c' : SignalClient} (h : Same c c') : SameRequests c c' where
  authTask := h.authTask
  authOperation := h.authOperation
  pendingCreate := h.pendingCreate
  pendingCreateMtu := h.pendingCreateMtu
  pendingRoomPassword := h.pendingRoomPassword
  hasPendingAuth := h.hasPendingAuth
  authSalt := h.authSalt
  roomOperationPending := h.roomOperationPending
  serverPassword := h.serverPassword
  secureReady := h.secureReady
  log := h.log

/-- A property of the client that its events keep. -/
structure EventEffects (asks : Call → Prop) (sends : List Output → UInt8 → Bytes → Prop)
    (P : SignalClient → Prop) : Prop
    extends Effects asks sends (fun _ _ => True) P where
  requests : ∀ {c c'}, SameRequests c c' → P c → P c'
  entry : ∀ {c : SignalClient} {o}, (∀ a, o ≠ .asked a) → (∀ t body, o ≠ .sent t body) → P c →
      P (c.record o)
  hello : ∀ {c : SignalClient} salt, c.authOperation = .none → P c → P { c with authSalt := salt }
  established : ∀ {c : SignalClient}, c.authOperation = .none → P c →
      P { c with secureReady := true }

namespace EventEffects

variable {asks : Call → Prop} {sends : List Output → UInt8 → Bytes → Prop} {P : SignalClient → Prop}
    {notify : Notify}
variable (h : EventEffects asks sends P) (hn : Keeps notify (fun _ _ => True) P)

include h

theorem resetConn {c : SignalClient} (hc : P c) : P c.resetConn := by
  refine h.entry (fun _ => nofun) (fun _ _ => nofun) (h.requests ?_ hc)
  constructor <;> rfl

theorem sendFrame {c : SignalClient} (msgType : UInt8) (body : Bytes) (hc : P c) :
    P (c.sendFrame msgType body) := by
  unfold SignalClient.sendFrame
  dsimp only
  split
  · refine h.entry (fun _ => nofun) (fun _ _ => nofun) (h.requests ?_ hc)
    constructor <;> rfl
  · refine h.requests ?_ hc
    constructor <;> rfl

include hn

/-! ### The handshake -/

theorem sendClientHello {c : SignalClient} (hc : P c) : P (c.sendClientHello K notify) := by
  have hfail : ∀ {c : SignalClient}, P c →
      P (((notify (.serverError (ascii "secure random generation failed"))
        c).resetConn).notifyDisconnectedOnce notify) :=
    fun hc => h.notifyDisconnectedOnce hn (h.resetConn (h.notifyPlain hn rfl hc))
  unfold SignalClient.sendClientHello
  have h₁ := h.secureRandomBytes 16 hc
  generalize c.secureRandomBytes 16 = res at h₁ ⊢
  obtain ⟨nonce, c₁⟩ := res
  dsimp only at h₁ ⊢
  cases nonce with
  | none => exact hfail h₁
  | some clientNonce =>
    dsimp only
    have h₂ : P { c₁ with clientNonce := clientNonce } := by
      refine h.requests ?_ h₁
      constructor <;> rfl
    generalize ({ c₁ with clientNonce := clientNonce } : SignalClient) = c₂ at h₂ ⊢
    have h₃ := h.secureRandomBytes 32 h₂
    generalize c₂.secureRandomBytes 32 = res at h₃ ⊢
    obtain ⟨key, c₃⟩ := res
    dsimp only at h₃ ⊢
    cases key with
    | none => exact hfail h₃
    | some clientPrivKey =>
      dsimp only
      refine h.sendFrame _ _ (h.entry (fun _ => nofun) (fun _ _ => nofun) (h.requests ?_ h₃))
      constructor <;> rfl

theorem finishServerAuth {c : SignalClient} (hash : Bytes) (hc : P c) :
    P (c.finishServerAuth K notify hash) := by
  unfold SignalClient.finishServerAuth
  dsimp only
  split
  · refine h.failAuthentication hn _ _ (h.requests ?_ hc)
    constructor <;> rfl
  · refine h.sendFrame _ _ (h.requests ?_ hc)
    constructor <;> rfl

/-- A hello changes the salt, but nothing is hashed under it before. -/
theorem onServerHello {c : SignalClient} (payload : Bytes) (hop : c.authOperation = .none)
    (hc : P c) :
    P (c.onServerHello notify payload).2 := by
  unfold SignalClient.onServerHello
  split
  · exact h.failSignalFrame hn hc
  next hello rest _ =>
  split
  · exact h.failSignalFrame hn (h.notifyPlain hn rfl (h.notifyPlain hn rfl hc))
  dsimp only
  have h₁ : P { c with serverAuthRequired := hello.authRequired } := by
    refine h.requests ?_ hc
    constructor <;> rfl
  split
  · exact h.notifyDisconnectedOnce hn (h.resetConn (h.notifyPlain hn rfl h₁))
  next hrequired =>
  split
  · exact h.failSignalFrame hn h₁
  split
  · exact h.failAuthentication hn _ _ h₁
  split
  · exact h.failSignalFrame hn h₁
  next salt serverNonce serverPubKey _ =>
  have h₂ : P ({ c with
      serverAuthRequired := hello.authRequired
      authSalt := salt
      serverNonce := serverNonce
      serverPubKey := serverPubKey }.record (.hello salt serverNonce serverPubKey)) := by
    refine h.entry (fun _ => nofun) (fun _ _ => nofun) (h.requests ?_ (h.hello salt hop hc))
    constructor <;> rfl
  dsimp only
  split
  · exact h.notifyPlain hn rfl h₂
  · exact h.sendServerAuth hn (not_not.mp hrequired) h₂

theorem onServerAuthOk {c : SignalClient} (payload : Bytes) (hop : c.authOperation = .none)
    (hc : P c) :
    P (c.onServerAuthOk K notify payload).2 := by
  unfold SignalClient.onServerAuthOk
  split
  · exact h.failSignalFrame hn (h.notifyPlain hn rfl hc)
  split
  · exact h.failSignalFrame hn hc
  next sessionId serverProof _ =>
  dsimp only
  split
  · refine h.failAuthentication hn _ _ (h.requests ?_ hc)
    constructor <;> rfl
  · have h₁ : P ({ c with
        expectedServerProof := List.replicate 32 0
        secureSessionId := sessionId
        secureCipher := c.secureCipher.init K c.secureMaster true "signal"
        secureReady := true }.record (.secured sessionId serverProof c.serverPassword)) := by
      refine h.entry (fun _ => nofun) (fun _ _ => nofun) (h.requests ?_ (h.established hop hc))
      constructor <;> rfl
    have hplain : (Callback.secureSessionEstablished sessionId c.secureMaster).isBusiness = false :=
      rfl
    have h₂ := h.notifyPlain hn hplain h₁
    split
    · exact h₂
    · exact h.notifyPlain hn rfl h₂

variable (hsends : ∀ log r, AskedIn K kdf log r → sends log r.msgType r.body)

include hsends

theorem processMessage {c : SignalClient} (msgType : UInt8) (payload : Bytes) (hc : P c) :
    P (c.processMessage K notify msgType payload).2 := by
  unfold SignalClient.processMessage
  split
  · exact h.failAuthentication hn _ _ hc
  next hallowed =>
  split
  · exact h.rejectPayload hn _ _ hc
  · exact hc
  split
  · next henc =>
    have hready : c.secureReady = true := by
      by_contra hr
      have hnot : ¬ c.allowedPlainHandshake msgType := by
        subst henc
        simp [allowedPlainHandshake, hr, MSG_ENCRYPTED, MSG_ERROR, MSG_SERVER_HELLO,
          MSG_SERVER_AUTH_OK]
      exact hallowed (Or.inl ⟨hr, hnot⟩)
    generalize c.secureCipher.decrypt K payload [] = res
    obtain ⟨plain, cipher⟩ := res
    dsimp only
    have h₁ : P { c with secureCipher := cipher } := by
      refine h.requests ?_ hc
      constructor <;> rfl
    split
    · exact h.failSignalFrame hn h₁
    · exact h.processPlain K kdf hn hsends (fun _ _ _ => trivial) _ hready h₁
  next henc =>
  obtain ⟨hready, hplain⟩ : c.secureReady = false ∧ c.allowedPlainHandshake msgType = true := by
    by_cases hr : c.secureReady = true
    · exact absurd (Or.inr ⟨hr, henc⟩) hallowed
    · refine ⟨by simpa using hr, ?_⟩
      by_contra hplain
      exact hallowed (Or.inl ⟨hr, hplain⟩)
  obtain ⟨_, hcases⟩ := of_decide_eq_true hplain
  split
  · next hhello =>
    refine h.onServerHello hn payload ?_ hc
    rcases hcases with herr | ⟨_, _, hop, _⟩ | ⟨hok, _⟩
    · rw [hhello] at herr
      cases herr
    · exact hop
    · rw [hhello] at hok
      cases hok
  split
  · next hhello hok =>
    refine h.onServerAuthOk hn payload ?_ hc
    rcases hcases with herr | ⟨hh, _⟩ | ⟨_, _, hop, _⟩
    · rw [hok] at herr
      cases herr
    · exact absurd hh hhello
    · exact hop
  · next hhello hok =>
    refine h.handleMessage K kdf hn hsends (fun _ _ _ => trivial) _ (Or.inr ?_) hc
    rcases hcases with herr | ⟨hh, _⟩ | ⟨hh, _⟩
    · exact herr
    · exact absurd hh hhello
    · exact absurd hh hok

theorem receiveLoop (fuel : Nat) :
    ∀ {c : SignalClient}, P c → P (SignalClient.receiveLoop K notify fuel c) := by
  induction fuel with
  | zero => exact fun hc => hc
  | succ fuel ih =>
    intro c hc
    unfold SignalClient.receiveLoop
    split
    · exact hc
    · exact h.failSignalFrame hn hc
    · next f _ =>
      dsimp only
      have h₁ : P { c with conn := { c.conn with recvBuf := c.conn.recvBuf.drop f.frameLen } } := by
        refine h.requests ?_ hc
        constructor <;> rfl
      have h₂ := h.processMessage hn hsends f.msgType f.payload h₁
      split
      · exact h₂
      · exact ih h₂

/-! ### Events -/

/-- **One event of the client**, given what the result of a key derivation does. -/
theorem handle {c : SignalClient} (e : ClientEvent) (hcall : ∀ a, e = .call a → asks a)
    (hpoll : ∀ done {c : SignalClient}, P c → P (c.pollAuthTask K kdf notify done)) (hc : P c) :
    P (c.handle K kdf notify e) := by
  unfold SignalClient.handle
  cases e with
  | call a => exact h.call K kdf hn hsends (hcall a rfl) hc
  | readable chunk =>
    dsimp only
    unfold SignalClient.onReadable
    split
    · exact h.drop hn hc
    · have h₁ := h.currentTimeMs hc
      generalize c.currentTimeMs = res at h₁ ⊢
      obtain ⟨now, c₁⟩ := res
      dsimp only at h₁ ⊢
      have h₂ : P { c₁ with conn := c₁.conn.readData chunk now } := by
        refine h.requests ?_ h₁
        constructor <;> rfl
      split
      · exact h.failSignalFrame hn h₂
      · exact h.receiveLoop hn hsends _ h₂
  | writable connectOk res =>
    dsimp only
    unfold SignalClient.onWritable
    split
    · split
      · have h₁ := h.currentTimeMs (h.currentTimeMs hc)
        dsimp only
        refine h.sendClientHello hn (h.requests ?_ h₁)
        constructor <;> rfl
      · exact h.notifyPlain hn rfl (h.resetConn hc)
    · dsimp only
      have h₁ : P { c with conn := (c.conn.flushSend res).2 } := by
        refine h.requests ?_ hc
        constructor <;> rfl
      split
      · exact h₁
      · exact h.drop hn h₁
  | timeouts done =>
    dsimp only
    unfold SignalClient.checkTimeouts
    split
    · exact h.drop hn hc
    have hlate : ∀ {c : SignalClient}, P c → P
        (if c.abandonRoomOperation.hasRoomOperationFailure = true then
          notify (.roomOperationFailure (ascii "Room request timed out after 15 seconds"))
            c.abandonRoomOperation
        else notify (.serverError (ascii "Room request timed out after 15 seconds"))
          { c.abandonRoomOperation with sendFailurePending := true }) := by
      intro c hc
      have hc₁ := h.abandonRoomOperation hc
      split
      · exact hn _ _ trivial hc₁
      · refine h.notifyPlain hn rfl (h.requests ?_ hc₁)
        constructor <;> rfl
    have hchecked : ∀ {c : SignalClient}, P c →
        P ((c.pollAuthTask K kdf notify done).checkConnection notify) := by
      intro c hc
      have hc₁ := hpoll done hc
      exact h.checkConnection hn (fun _ => h.resetConn (h.currentTimeMs hc₁)) hc₁
    by_cases hpending : c.roomOperationPending = true
    · rw [if_pos hpending]
      have h₁ := h.roomMonotonicMs hc
      generalize c.roomMonotonicMs = res at h₁ ⊢
      obtain ⟨now, c₁⟩ := res
      dsimp only at h₁ ⊢
      split
      · exact hlate h₁
      · exact hchecked h₁
    · rw [if_neg hpending]
      exact hchecked hc

end EventEffects

end SignalClient

end VlanConnect

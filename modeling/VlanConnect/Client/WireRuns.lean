/-
  VlanConnect/Client/WireRuns.lean
  ================================
  **Every call sends its own message, and every message is well formed.**

  A ready client answers a call with one message, built from the arguments of
  the call.  The room with a password is the case with a state: between
  `createRoom` and the result of the key derivation the front of the message,
  its MTU and its salt wait in the client, and no step in between may change
  one of them without giving the request up.  Over a whole run, a message the
  client encrypts is one the application asked for, or one of the few it sends
  by itself.
-/
import VlanConnect.Client.EventEffects

namespace VlanConnect

/-- The documented ranges of the arguments of a call. -/
def Call.InRange : Call → Prop
  | .login name resume => (Request.login name resume).InRange
  | .createRoom settings _ => (Request.createRoom settings none).InRange
  | .joinRoom roomId _ => (Request.joinRoom roomId).InRange
  | .resumeRoom resume => ∀ r ∈ resume, r.Valid
  | .requestRelay targetPeerId => (Request.requestRelay targetPeerId).InRange
  | .sendRelayData srcPeerId dstPeerId trafficClass data =>
    (Request.relayData ⟨srcPeerId, dstPeerId, trafficClass⟩ data).InRange
  | .sendAuthResponse response => (Request.authResponse response).InRange
  | _ => True

/-- The request a call makes at once, with the arguments of the call. -/
def Call.request : Call → Option Request
  | .login name resume => some (.login name resume)
  | .createRoom settings none => some (.createRoom settings none)
  | .joinRoom roomId _ => some (.joinRoom roomId)
  | .resumeRoom (some resume) => some (.resumeRoom resume)
  | .requestRelay targetPeerId => some (.requestRelay targetPeerId)
  | .sendRelayData srcPeerId dstPeerId trafficClass data =>
    some (.relayData ⟨srcPeerId, dstPeerId, trafficClass⟩ data)
  | .sendAuthResponse response => some (.authResponse response)
  | _ => none

/-- The request of a call in range is in range. -/
theorem Call.InRange.request {a : Call} {r : Request} (h : a.InRange)
    (hrequest : a.request = some r) : r.InRange := by
  cases a with
  | createRoom settings password =>
    cases password with
    | some password => simp [Call.request] at hrequest
    | none =>
      obtain rfl := Option.some.inj hrequest
      exact h
  | resumeRoom resume =>
    cases resume with
    | none => simp [Call.request] at hrequest
    | some resume =>
      obtain rfl := Option.some.inj hrequest
      exact h resume rfl
  | login name resume =>
    obtain rfl := Option.some.inj hrequest
    exact h
  | joinRoom roomId password =>
    obtain rfl := Option.some.inj hrequest
    exact h
  | requestRelay targetPeerId =>
    obtain rfl := Option.some.inj hrequest
    exact h
  | sendRelayData srcPeerId dstPeerId trafficClass data =>
    obtain rfl := Option.some.inj hrequest
    exact h
  | sendAuthResponse response =>
    obtain rfl := Option.some.inj hrequest
    exact h
  | _ => simp [Call.request] at hrequest

/-- The message fits into a frame. -/
def Request.Fits (r : Request) : Prop :=
  r.body.length + 1 + SECURE_FRAME_OVERHEAD ≤ MAX_TCP_MSG_PAYLOAD

/-- Only relayed data can be too long. -/
theorem Request.InRange.fits {r : Request} (h : r.InRange)
    (hdata : ∀ header data, r = .relayData header data → r.Fits) : r.Fits := by
  have hroom : ∀ name, isValidRoomName name = true → name.length ≤ 63 :=
    fun name hname => (of_decide_eq_true hname).2
  unfold Fits SECURE_FRAME_OVERHEAD SECURE_COUNTER_SIZE SECURE_MAC_SIZE MAX_TCP_MSG_PAYLOAD
  cases r with
  | login name resume =>
    have hname : name.length ≤ 63 := by
      have hvalid := h.1
      simp only [isValidPlayerName, Bool.and_eq_true, decide_eq_true_eq] at hvalid
      exact hvalid.1.2
    cases resume with
    | none =>
      simp [body, loginBody]
      omega
    | some resume =>
      have htoken := (h.2 resume rfl).token
      simp [body, loginBody, resumeBody, htoken, RECONNECT_TOKEN_SIZE]
      omega
  | createRoom settings secret =>
    have hname := hroom _ h.1.1
    cases secret with
    | none =>
      simp [body, createRoomFront, writePolicy]
      omega
    | some secret =>
      obtain ⟨hsalt, hhash⟩ := h.2 secret rfl
      simp [body, createRoomFront, writePolicy, hsalt, hhash, AUTH_SALT_SIZE]
      omega
  | joinRoom roomId => simp [body, joinRoomBody]
  | resumeRoom resume => simp [body, resumeBody, h.token, RECONNECT_TOKEN_SIZE]
  | requestRelay targetPeerId => simp [body, requestRelayBody]
  | relayData header data => exact hdata header data rfl
  | authResponse response =>
    have hlen : response.length = 32 := h
    simp [body, hlen]
  | leaveRoom | logout | listRooms | ping => simp [body]

/-- The data of a call to relay fit into a message. -/
def Call.DataFits : Call → Prop
  | .sendRelayData srcPeerId dstPeerId trafficClass data =>
    (Request.relayData ⟨srcPeerId, dstPeerId, trafficClass⟩ data).Fits
  | _ => True

theorem Call.InRange.fits {a : Call} {r : Request} (h : a.InRange) (hrequest : a.request = some r)
    (hdata : a.DataFits) : r.Fits := by
  refine (h.request hrequest).fits fun header data hr => ?_
  subst hr
  cases a with
  | sendRelayData srcPeerId dstPeerId trafficClass data' =>
    obtain heq := Option.some.inj hrequest
    rw [← heq]
    exact hdata
  | createRoom settings password => cases password <;> simp [Call.request] at hrequest
  | resumeRoom resume => cases resume <;> simp [Call.request] at hrequest
  | _ => simp [Call.request] at hrequest

/-- The guards of a room request are open. -/
def Call.Open (c : SignalClient) : Call → Prop
  | .createRoom _ _ | .joinRoom _ _ => c.roomOperationPending = false ∧ c.authOperation = .none
  | .resumeRoom _ => c.roomOperationPending = false
  | _ => True

/-- The call asks for no room with a password. -/
def Call.NoProtectedRoom (a : Call) : Prop :=
  ∀ settings password, a ≠ .createRoom settings (some password)

namespace SignalClient

variable (K : Crypto) (kdf : Kdf)

theorem AskedIn.mono {log log' : List Output} (hsub : log ⊆ log') :
    ∀ {r : Request}, AskedIn K kdf log r → AskedIn K kdf log' r
  | .login _ _, h => hsub h
  | .createRoom _ none, h => hsub h
  | .createRoom _ (some (_, _)), ⟨hlen, password, h, hhash⟩ => ⟨hlen, password, hsub h, hhash⟩
  | .joinRoom _, ⟨password, h⟩ => ⟨password, hsub h⟩
  | .resumeRoom _, h => hsub h
  | .requestRelay _, h => hsub h
  | .relayData _ _, h => hsub h
  | .authResponse _, h => h.imp (fun h => hsub h) id
  | .leaveRoom, h => hsub h
  | .logout, h => hsub h
  | .listRooms, _ => trivial
  | .ping, _ => trivial

/-- A request of an application that keeps to the ranges is in range. -/
theorem AskedIn.inRange {log : List Output} (hlog : ∀ a, .asked a ∈ log → a.InRange) :
    ∀ {r : Request}, AskedIn K kdf log r → r.InRange
  | .login _ _, h => hlog _ h
  | .createRoom _ none, h => hlog _ h
  | .createRoom settings (some (salt, hash)), ⟨hlen, password, h, hhash⟩ => by
    refine ⟨(hlog _ h).1, ?_⟩
    rintro s hs
    obtain rfl : (salt, hash) = s := Option.some.inj hs
    exact ⟨hlen, hhash ▸ kdf.length_hash password salt⟩
  | .joinRoom _, ⟨password, h⟩ => hlog _ h
  | .resumeRoom r, h => hlog _ h r rfl
  | .requestRelay _, h => hlog _ h
  | .relayData _ _, h => hlog _ h
  | .authResponse _, h => by
    rcases h with h | ⟨hash, challenge, rfl⟩
    · exact hlog _ h
    · exact K.length_blake2bKeyed hash challenge
  | .leaveRoom, _ => trivial
  | .logout, _ => trivial
  | .listRooms, _ => trivial
  | .ping, _ => trivial

/-- The message is the body of a request that was asked for. -/
def Requested (log : List Output) (msgType : UInt8) (body : Bytes) : Prop :=
  ∃ r, AskedIn K kdf log r ∧ r.msgType = msgType ∧ r.body = body

/-- The room a password is being hashed for. -/
def CreatePending (c : SignalClient) : Prop :=
  ∃ settings password, .asked (.createRoom settings (some password)) ∈ c.log ∧
    c.pendingCreate = createRoomFront settings true ∧
    c.pendingCreateMtu = normalizeRoomMtu settings.mtu ∧
    c.authTask = some (password, c.authSalt) ∧ c.authSalt.length = AUTH_SALT_SIZE

structure WellAsked (c : SignalClient) : Prop where
  ranges : ∀ a, .asked a ∈ c.log → a.InRange
  sent : ∀ msgType body, .sent msgType body ∈ c.log → Requested K kdf c.log msgType body
  pending : c.authOperation = .createRoom → c.secureReady = true ∧ c.CreatePending
  roomReady : c.roomOperationPending = true → c.secureReady = true

variable {K kdf}

/-- The log grew by something that is neither a call nor a message. -/
theorem WellAsked.grow {c c' : SignalClient} (h : WellAsked K kdf c) {o : Output}
    (hlog : c'.log = c.log ++ [o]) (hasked : ∀ a, o ≠ .asked a) (hsent : ∀ t body, o ≠ .sent t body)
    (hpending : c'.authOperation = .createRoom → c.authOperation = .createRoom ∧
      c'.secureReady = c.secureReady ∧ c'.pendingCreate = c.pendingCreate ∧
      c'.pendingCreateMtu = c.pendingCreateMtu ∧ c'.authTask = c.authTask ∧
      c'.authSalt = c.authSalt)
    (hroom : c'.roomOperationPending = true → c'.secureReady = true) : WellAsked K kdf c' := by
  have hsub : c.log ⊆ c'.log := by
    rw [hlog]
    exact List.subset_append_left _ _
  refine ⟨fun a ha => h.ranges a ?_, fun t body hm => ?_, fun hop => ?_, hroom⟩
  · rw [hlog] at ha
    exact (List.mem_append.mp ha).resolve_right fun hlast =>
      hasked a (List.mem_singleton.mp hlast).symm
  · rw [hlog] at hm
    obtain ⟨r, hr, ht, hb⟩ := h.sent t body
      ((List.mem_append.mp hm).resolve_right fun hlast =>
        hsent t body (List.mem_singleton.mp hlast).symm)
    exact ⟨r, AskedIn.mono K kdf hsub hr, ht, hb⟩
  · obtain ⟨hop, hready, hcreate, hmtu, htask, hsalt⟩ := hpending hop
    obtain ⟨hr, settings, password, hasked, h₁, h₂, h₃, h₄⟩ := h.pending hop
    refine ⟨hready.trans hr, settings, password, hsub hasked, ?_⟩
    rw [hcreate, hmtu, htask, hsalt]
    exact ⟨h₁, h₂, h₃, h₄⟩

/-- The log and the pending request are the same. -/
theorem WellAsked.keep {c c' : SignalClient} (h : WellAsked K kdf c) (hlog : c'.log = c.log)
    (hpending : c'.authOperation = .createRoom → c'.secureReady = true ∧ c'.CreatePending)
    (hroom : c'.roomOperationPending = true → c'.secureReady = true) : WellAsked K kdf c' := by
  refine ⟨?_, ?_, hpending, hroom⟩
  · rw [hlog]
    exact h.ranges
  · rw [hlog]
    exact h.sent

theorem WellAsked.requests {c c' : SignalClient} (hsame : SameRequests c c')
    (h : WellAsked K kdf c) :
    WellAsked K kdf c' := by
  refine h.keep hsame.log (fun hop => ?_) (fun hroom => ?_)
  · obtain ⟨hready, settings, password, hasked, h₁, h₂, h₃, h₄⟩ :=
      h.pending (hsame.authOperation ▸ hop)
    refine ⟨hsame.secureReady.trans hready, settings, password, hsame.log ▸ hasked, ?_⟩
    rw [hsame.pendingCreate, hsame.pendingCreateMtu, hsame.authTask, hsame.authSalt]
    exact ⟨h₁, h₂, h₃, h₄⟩
  · rw [hsame.secureReady]
    exact h.roomReady (hsame.roomOperationPending ▸ hroom)

theorem WellAsked.resetOf {c c' : SignalClient} (hreset : ResetOf c c') (h : WellAsked K kdf c) :
    WellAsked K kdf c' := by
  refine h.keep hreset.log (fun hop => ?_) (fun hroom => ?_)
  · rw [hreset.authOperation] at hop
    cases hop
  · rw [hreset.roomOperationPending] at hroom
    cases hroom

/-- The log grew by an entry of the connection or a callback. -/
theorem WellAsked.record {c : SignalClient} {o : Output} (hasked : ∀ a, o ≠ .asked a)
    (hsent : ∀ t body, o ≠ .sent t body) (h : WellAsked K kdf c) : WellAsked K kdf (c.record o) :=
  h.grow rfl hasked hsent (fun hop => ⟨hop, rfl, rfl, rfl, rfl, rfl⟩) h.roomReady

theorem WellAsked.resetConn {c : SignalClient} (h : WellAsked K kdf c) :
    WellAsked K kdf c.resetConn :=
  h.grow rfl (fun _ => nofun) (fun _ _ => nofun)
    (fun hop => ⟨hop, rfl, rfl, rfl, rfl, rfl⟩) h.roomReady

theorem WellAsked.sendFrame {c : SignalClient} (msgType : UInt8) (body : Bytes)
    (h : WellAsked K kdf c) :
    WellAsked K kdf (c.sendFrame msgType body) := by
  unfold SignalClient.sendFrame
  dsimp only
  split
  · exact h.grow rfl (fun _ => nofun) (fun _ _ => nofun)
      (fun hop => ⟨hop, rfl, rfl, rfl, rfl, rfl⟩) h.roomReady
  · exact h.keep rfl h.pending h.roomReady

theorem WellAsked.connectTo {c : SignalClient} (ok : Bool) (h : WellAsked K kdf c) :
    WellAsked K kdf (c.connectTo ok) := by
  have hconn := connectTo_connectOf c ok
  have hclosed : WellAsked K kdf (c.record .closed) := h.record (fun _ => nofun) (fun _ _ => nofun)
  have hop : (c.connectTo ok).authOperation ≠ .createRoom := by
    rw [hconn.authOperation]
    decide
  have hroom : (c.connectTo ok).roomOperationPending ≠ true := by
    rw [hconn.roomOperationPending]
    decide
  cases ok
  · exact hclosed.keep (hconn.log.trans (List.append_nil _)) (fun h => absurd h hop)
      (fun h => absurd h hroom)
  · exact hclosed.grow hconn.log (fun _ => nofun) (fun _ _ => nofun) (fun h => absurd h hop)
      (fun h => absurd h hroom)

theorem WellAsked.setServerPassword {c : SignalClient} (password : Bytes) (h : WellAsked K kdf c) :
    WellAsked K kdf (c.setServerPassword password) := by
  unfold SignalClient.setServerPassword
  have h₁ : WellAsked K kdf (if c.authOperation = .serverAuth then { c with
    authTask := none, authOperation := .none }
      else c) := by
    split
    · exact h.keep rfl nofun h.roomReady
    · exact h
  generalize (if c.authOperation = .serverAuth then { c with
    authTask := none, authOperation := .none } else c) = c₁ at h₁ ⊢
  dsimp only
  have h₂ : WellAsked K kdf { c₁ with
    serverPassword := password } := h₁.keep rfl h₁.pending h₁.roomReady
  split
  · have h₃ := WellAsked.resetOf (resetSecureState_resetOf _) h₂.resetConn
    exact h₃.keep rfl h₃.pending h₃.roomReady
  · exact h₂

theorem WellAsked.cancel {c : SignalClient} (h : WellAsked K kdf c) :
    WellAsked K kdf c.cancelRoomOperation := by
  have hcancel := cancelRoomOperation_cancelOf c
  refine h.keep hcancel.log (fun hop => ?_) (fun hroom => ?_)
  · rcases hcancel.authOperation with ⟨hsame, _, hne⟩ | ⟨hnone, _⟩
    · exact absurd (hsame.symm.trans hop) hne
    · rw [hnone] at hop
      cases hop
  · rw [hcancel.roomOperationPending] at hroom
    cases hroom

/-- A message that was asked for is sent. -/
theorem WellAsked.send {c : SignalClient} {msgType : UInt8} {body : Bytes}
    (hreq : Requested K kdf c.log msgType body) (h : WellAsked K kdf c) :
    WellAsked K kdf (c.record (.sent msgType body)) := by
  have hsub : c.log ⊆ (c.record (.sent msgType body)).log := List.subset_append_left _ _
  refine ⟨fun a ha => h.ranges a ?_, fun t b hm => ?_, fun hop => ?_, h.roomReady⟩
  · exact (List.mem_append.mp ha).resolve_right fun hlast => nomatch List.mem_singleton.mp hlast
  · have hreq' : Requested K kdf c.log t b := by
      rcases List.mem_append.mp hm with hm | hm
      · exact h.sent t b hm
      · cases List.mem_singleton.mp hm
        exact hreq
    obtain ⟨r, hr, ht, hb⟩ := hreq'
    exact ⟨r, AskedIn.mono K kdf hsub hr, ht, hb⟩
  · obtain ⟨hready, settings, password, hasked, hrest⟩ := h.pending hop
    exact ⟨hready, settings, password, hsub hasked, hrest⟩

/-- **The changes an application and an established session make.** -/
theorem wellAsked_effects :
    Effects Call.InRange (Requested K kdf) (fun _ _ => True) (WellAsked K kdf) where
  plain _ _ _ := trivial
  same hsame h := h.requests hsame.requests
  called _ _ h := h.record (fun _ => nofun) (fun _ _ => nofun)
  asked := by
    intro c a ha h
    have hsub : c.log ⊆ (c.record (.asked a)).log := List.subset_append_left _ _
    refine ⟨fun b hb => ?_, fun t body hm => ?_, fun hop => ?_, h.roomReady⟩
    · rcases List.mem_append.mp hb with hb | hb
      · exact h.ranges b hb
      · cases List.mem_singleton.mp hb
        exact ha
    · obtain ⟨r, hr, ht, hbody⟩ := h.sent t body
        ((List.mem_append.mp hm).resolve_right fun hlast => nomatch List.mem_singleton.mp hlast)
      exact ⟨r, AskedIn.mono K kdf hsub hr, ht, hbody⟩
    · obtain ⟨hready, settings, password, hasked, hrest⟩ := h.pending hop
      exact ⟨hready, settings, password, hsub hasked, hrest⟩
  dropped h := WellAsked.resetOf (resetSecureState_resetOf _) h.resetConn
  connectTo ok h := h.connectTo ok
  setServerPassword password h := h.setServerPassword password
  startServerAuth _ _ _ _ h := h.keep rfl nofun h.roomReady
  roomReady h := h.roomReady
  startRoom hready h := h.keep rfl h.pending fun _ => hready
  endRoom h := h.keep rfl h.pending nofun
  cancel h := h.cancel
  startCreate := by
    intro c settings password salt hready _ hasked hlen h
    exact h.keep rfl (fun _ => ⟨hready, settings, password, hasked, rfl, rfl, rfl,
      hlen⟩) h.roomReady
  startJoin _ _ h := h.keep rfl h.pending h.roomReady
  endJoin _ h := h.keep rfl h.pending h.roomReady
  startRoomPassword _ _ _ h := h.keep rfl nofun h.roomReady
  send _ hreq _ h := (h.send hreq).sendFrame _ _

/-- **The changes an event makes.** -/
theorem wellAsked_eventEffects : EventEffects Call.InRange (Requested K kdf) (WellAsked K kdf) where
  toEffects := wellAsked_effects
  requests := WellAsked.requests
  entry hasked hsent h := h.record hasked hsent
  hello _ hop h := h.keep rfl (fun hcreate => nomatch hop.symm.trans hcreate) h.roomReady
  established hop h := h.keep rfl (fun hcreate => nomatch hop.symm.trans hcreate) fun _ => rfl

/-! ### The result of a key derivation -/

section Steps

variable {notify : Notify} (hn : Keeps notify (fun _ _ => True) (WellAsked K kdf))
variable (hoff : Keeps notify (fun _ _ => True) Offline)

include hn hoff

/-- No room is pending after the message of one. -/
theorem WellAsked.sent_idle {c : SignalClient} {msgType : UInt8} {body : Bytes}
    (hop : c.authOperation = .none) (hreq : Requested K kdf c.log msgType body)
    (h : WellAsked K kdf c) :
    WellAsked K kdf (c.sendMsg K notify msgType body) ∧
    (c.sendMsg K notify msgType body).authOperation ≠ .createRoom := by
  have h₁ := wellAsked_effects.sendMsg K hn hreq h
  refine ⟨h₁, fun hcreate => ?_⟩
  rcases sendMsg_operation K hoff c msgType body with hoffline | hsame
  · exact absurd (hoffline.secureReady.symm.trans (h₁.pending hcreate).1) Bool.false_ne_true
  · cases hop.symm.trans (hsame.symm.trans hcreate)

/-- The pending room is asked for with the salt and the hash of its password. -/
theorem WellAsked.pollAuthTask {c : SignalClient} (done : Option Bool) (h : WellAsked K kdf c) :
    WellAsked K kdf (c.pollAuthTask K kdf notify done) := by
  unfold SignalClient.pollAuthTask
  split
  · next password salt success htask =>
    dsimp only
    have h₁ : WellAsked K kdf { c with
      authTask := none, authOperation := .none } := h.keep rfl nofun h.roomReady
    split
    · exact h₁
    split
    · exact wellAsked_effects.failAuthentication hn _ _ h₁
    · split
      · next hop =>
        obtain ⟨_, settings, pw, hasked, hfront, hmtu, htask', hsalt⟩ := h.pending hop
        obtain ⟨rfl, hsaltEq⟩ : password = pw ∧ salt = c.authSalt := by
          rw [htask] at htask'
          exact Prod.mk.inj (Option.some.inj htask')
        have hreq : Requested K kdf c.log MSG_CREATE_ROOM
            (c.pendingCreate ++ c.authSalt ++ kdf.hash password salt ++
              ByteBuffer.writeU16 c.pendingCreateMtu) := by
          refine ⟨.createRoom settings (some (c.authSalt, kdf.hash password salt)),
            ⟨hsalt, password, hasked, ?_⟩, rfl, ?_⟩
          · rw [hsaltEq]
          · rw [hfront, hmtu]
            rfl
        obtain ⟨h₂, hidle⟩ :=
          WellAsked.sent_idle hn hoff (c := { c with
            authTask := none, authOperation := .none }) rfl hreq h₁
        exact h₂.keep rfl (fun hop => absurd hop hidle) h₂.roomReady
      · have hreq : Requested K kdf c.log MSG_AUTH_RESPONSE
            (computeChallengeResponse K (kdf.hash password salt) c.roomChallenge) :=
          ⟨.authResponse _, Or.inr ⟨_, _, rfl⟩, rfl, rfl⟩
        obtain ⟨h₂, hidle⟩ :=
          WellAsked.sent_idle hn hoff (c := { c with
            authTask := none, authOperation := .none }) rfl hreq h₁
        exact h₂.keep rfl (fun hop => absurd hop hidle) h₂.roomReady
      · exact wellAsked_eventEffects.finishServerAuth hn _ h₁
  · exact h

end Steps

/-- **Over a whole run**: the messages are requests of the application. -/
theorem reachable_wellAsked {c : SignalClient} (h : Reachable K kdf Call.InRange c) :
    WellAsked K kdf c := by
  induction h with
  | init =>
    constructor
    · intro a ha
      exact absurd ha List.not_mem_nil
    · intro msgType body hsent
      exact absurd hsent List.not_mem_nil
    · intro hop
      cases hop
    · intro hroom
      cases hroom
  | step w e happ he _ ih =>
    have hn := wellAsked_effects.callbacks K kdf (fun _ r hr => ⟨r, hr, rfl, rfl⟩) happ w.depth
    have hoff :=
      (offline_effects Call.InRange (Requested K kdf)).callbacks K kdf
        (fun _ r hr => ⟨r, hr, rfl, rfl⟩) happ w.depth
    exact wellAsked_eventEffects.handle hn (fun _ r hr => ⟨r, hr, rfl, rfl⟩) e he
      (fun done _ h => WellAsked.pollAuthTask hn hoff done h) (ih.keep rfl ih.pending ih.roomReady)

/-! ### What a call sends -/

/-- The client has a session whose counter is not used up. -/
structure Ready (c : SignalClient) : Prop where
  secureReady : c.secureReady = true
  initialized : c.secureCipher.initialized = true
  counter : c.secureCipher.sendCounter ≠ UINT64_MAX

variable (K) in
/-- The entries of one message: the message, and the frame that carries it
    encrypted, if the stream takes it. -/
def entries (c : SignalClient) (r : Request) : List Output :=
  let enc := (c.secureCipher.encrypt K (r.msgType :: r.body) []).1
  .sent r.msgType r.body :: if (c.conn.sendTcpMsg MSG_ENCRYPTED enc).1 then
    [.wrote MSG_ENCRYPTED enc] else []

theorem sendFrame_log (c : SignalClient) (msgType : UInt8) (body : Bytes) :
    (c.sendFrame msgType body).log =
      c.log ++ if (c.conn.sendTcpMsg msgType body).1 then [.wrote msgType body] else [] := by
  unfold SignalClient.sendFrame
  dsimp only
  split
  · rfl
  · exact (List.append_nil _).symm

/-- A ready client sends the message it is given. -/
theorem sendMsg_log {c : SignalClient} {r : Request} (h : c.Ready) (hfits : r.Fits)
    (notify : Notify) :
    (c.sendMsg K notify r.msgType r.body).log = c.log ++ c.entries K r := by
  unfold Request.Fits at hfits
  have hlen : (c.secureCipher.encrypt K (r.msgType :: r.body) []).1.length =
      r.body.length + 1 + SECURE_FRAME_OVERHEAD := by
    unfold SecureFrameCipher.encrypt
    rw [if_neg (by simp [h.initialized, h.counter])]
    simp [writeU64BE, K.length_aeadLock, K.length_mac, SECURE_FRAME_OVERHEAD, SECURE_COUNTER_SIZE,
      SECURE_MAC_SIZE]
    omega
  have hne : (c.secureCipher.encrypt K (r.msgType :: r.body) []).1 ≠ [] := by
    intro hnil
    rw [hnil, List.length_nil] at hlen
    omega
  unfold SignalClient.sendMsg
  rw [if_neg (by omega), if_neg (not_not.mpr h.secureReady)]
  dsimp only
  rw [if_neg hne, if_neg (by omega), sendFrame_log]
  exact List.append_assoc ..

/-- What a request is sent with does not depend on the room operation. -/
theorem startRoomOperation_sends (c : SignalClient) :
    c.startRoomOperation.log = c.log ∧ c.startRoomOperation.conn = c.conn ∧
      c.startRoomOperation.secureCipher = c.secureCipher ∧
      c.startRoomOperation.secureReady = c.secureReady ∧
      c.startRoomOperation.env.random = c.env.random := by
  unfold startRoomOperation SignalClient.roomMonotonicMs
  dsimp only
  split <;> exact ⟨rfl, rfl, rfl, rfl, rfl⟩

/-- The message goes out from any client with the same session. -/
theorem sendMsg_log_of {c c' : SignalClient} {r : Request} (h : c.Ready) (hfits : r.Fits)
    (notify : Notify) (hlog : c'.log = c.log) (hconn : c'.conn = c.conn)
    (hcipher : c'.secureCipher = c.secureCipher) (hready : c'.secureReady = c.secureReady) :
    (c'.sendMsg K notify r.msgType r.body).log = c.log ++ c.entries K r := by
  have h' : c'.Ready := ⟨hready.trans h.secureReady, hcipher ▸ h.initialized, hcipher ▸ h.counter⟩
  rw [sendMsg_log h' hfits, hlog]
  unfold entries
  rw [hconn, hcipher]

/-- **A ready client answers a call with the request of the call.** -/
theorem call_log {c : SignalClient} {a : Call} {r : Request} (hrequest : a.request = some r)
    (hrange : a.InRange) (hready : c.Ready) (hfits : r.Fits) (hopen : a.Open c) (notify : Notify) :
    (c.call K notify a).log = c.log ++ .asked a :: c.entries K r := by
  have hready' : (c.record (.asked a)).Ready :=
    ⟨hready.secureReady, hready.initialized, hready.counter⟩
  have hentries : (c.record (.asked a)).log ++ (c.record (.asked a)).entries K r =
      c.log ++ .asked a :: c.entries K r := List.append_assoc ..
  have hsession : (c.record (.asked a)).secureReady = true := hready.secureReady
  rw [← hentries]
  obtain ⟨hlog, hconn, hcipher, hsecure, -⟩ := startRoomOperation_sends (c.record (.asked a))
  unfold SignalClient.call
  cases a with
  | login name resume =>
    obtain rfl := Option.some.inj hrequest
    exact sendMsg_log hready' hfits notify
  | createRoom settings password =>
    cases password with
    | some password => simp [Call.request] at hrequest
    | none =>
      obtain rfl := Option.some.inj hrequest
      have hguard : ¬ ((c.record (.asked (.createRoom settings none))).roomOperationPending = true ∨
          (c.record (.asked (.createRoom settings none))).authOperation ≠ .none ∨
          ¬ (c.record (.asked (.createRoom settings none))).secureReady = true) := by
        simp [record, hopen.1, hopen.2, hready.secureReady]
      unfold SignalClient.perform SignalClient.createRoom
      dsimp only
      rw [if_neg hguard]
      exact sendMsg_log_of (r := .createRoom settings none) hready' hfits notify hlog hconn
        hcipher hsecure
  | joinRoom roomId password =>
    obtain rfl := Option.some.inj hrequest
    have hguard : ¬ ((c.record (.asked (.joinRoom roomId password))).roomOperationPending = true ∨
        (c.record (.asked (.joinRoom roomId password))).authOperation ≠ .none ∨
        ¬ (c.record (.asked (.joinRoom roomId password))).secureReady = true ∨ roomId = 0) := by
      simp [record, hopen.1, hopen.2, hready.secureReady, hrange.1]
    unfold SignalClient.perform SignalClient.joinRoom
    dsimp only
    rw [if_neg hguard]
    exact sendMsg_log_of (r := .joinRoom roomId) hready' hfits notify hlog hconn hcipher hsecure
  | resumeRoom resume =>
    cases resume with
    | none => simp [Call.request] at hrequest
    | some resume =>
      obtain rfl := Option.some.inj hrequest
      have hpending : (c.record (.asked (.resumeRoom (some resume)))).roomOperationPending =
        false := hopen
      unfold SignalClient.perform SignalClient.resumeRoom
      dsimp only
      rw [if_neg (by simp [hpending, hsession])]
      exact sendMsg_log_of (r := .resumeRoom resume) hready' hfits notify hlog hconn hcipher hsecure
  | requestRelay targetPeerId =>
    obtain rfl := Option.some.inj hrequest
    exact sendMsg_log hready' hfits notify
  | sendRelayData srcPeerId dstPeerId trafficClass data =>
    obtain rfl := Option.some.inj hrequest
    exact sendMsg_log (r := .relayData ⟨srcPeerId, dstPeerId, trafficClass⟩ data) hready'
      hfits notify
  | sendAuthResponse response =>
    obtain rfl := Option.some.inj hrequest
    exact sendMsg_log (r := .authResponse response) hready' hfits notify
  | _ => simp [Call.request] at hrequest

/-! ### The room with a password -/

/-- The room waits for the hash of its password. -/
structure Holds (settings : RoomSettings) (password salt : Bytes) (c : SignalClient) : Prop where
  secureReady : c.secureReady = true
  front : c.pendingCreate = createRoomFront settings true
  mtu : c.pendingCreateMtu = normalizeRoomMtu settings.mtu
  task : c.authTask = some (password, salt)
  salt : c.authSalt = salt

/-- The room is given up or still waits. -/
structure Waits (settings : RoomSettings) (password salt : Bytes) (c : SignalClient) : Prop where
  held : c.authOperation = .createRoom → Holds settings password salt c
  roomReady : c.roomOperationPending = true → c.secureReady = true

/-- `createRoom` keeps its own arguments for the time the hash is there. -/
theorem holds_createRoom {c : SignalClient} {settings : RoomSettings} {password salt : Bytes}
    (hready : c.secureReady = true) (hopen : Call.Open c (.createRoom settings (some password)))
    (hsalt : (c.secureRandomBytes AUTH_SALT_SIZE).1 = some salt) (notify : Notify) :
    Waits settings password salt (c.call K notify (.createRoom settings (some password))) ∧
      (c.call K notify (.createRoom settings (some password))).authOperation = .createRoom ∧
      salt.length = AUTH_SALT_SIZE := by
  have hguard :
    ¬ ((c.record (.asked (.createRoom settings (some password)))).roomOperationPending = true ∨
      (c.record (.asked (.createRoom settings (some password)))).authOperation ≠ .none ∨
      ¬ (c.record (.asked (.createRoom settings (some password)))).secureReady = true) := by
    simp [record, hopen.1, hopen.2, hready]
  obtain ⟨-, -, -, hsecure, hrandom⟩ :=
    startRoomOperation_sends (c.record (.asked (.createRoom settings (some password))))
  unfold SignalClient.call SignalClient.perform SignalClient.createRoom
  dsimp only
  rw [if_neg hguard]
  generalize (c.record (.asked (.createRoom settings (some password)))).startRoomOperation =
    c₁ at hsecure hrandom ⊢
  have hsecure₁ : c₁.secureReady = true := hsecure.trans hready
  have hrandom₁ : c₁.env.random = c.env.random := hrandom
  unfold SignalClient.secureRandomBytes at hsalt ⊢
  rw [hrandom₁]
  cases hdraws : c.env.random with
  | nil => simp [hdraws] at hsalt
  | cons draw draws =>
    simp only [hdraws] at hsalt ⊢
    rw [hsalt]
    refine ⟨⟨fun _ => ⟨hsecure₁, rfl, rfl, rfl, rfl⟩, fun _ => hsecure₁⟩, rfl, ?_⟩
    obtain ⟨b, -, rfl⟩ := Option.map_eq_some_iff.mp hsalt
    simp

section Waiting

variable {settings : RoomSettings} {password salt : Bytes}

/-- The key derivation is for something else now. -/
theorem Waits.other {c c' : SignalClient} (h : Waits settings password salt c)
    (hop : c'.authOperation ≠ .createRoom) (hsecure : c'.secureReady = c.secureReady)
    (hroom : c'.roomOperationPending = true → c.roomOperationPending = true) :
    Waits settings password salt c' :=
  ⟨fun hcreate => absurd hcreate hop, fun hpending => hsecure.trans (h.roomReady (hroom hpending))⟩

/-- The pending request is the same. -/
theorem Waits.keep {c c' : SignalClient} (h : Waits settings password salt c)
    (hop : c'.authOperation = c.authOperation) (hsecure : c'.secureReady = c.secureReady)
    (hfront : c'.pendingCreate = c.pendingCreate) (hmtu : c'.pendingCreateMtu = c.pendingCreateMtu)
    (htask : c'.authTask = c.authTask) (hsalt : c'.authSalt = c.authSalt)
    (hroom : c'.roomOperationPending = true → c'.secureReady = true) :
    Waits settings password salt c' := by
  refine ⟨fun hcreate => ?_, hroom⟩
  obtain ⟨h₁, h₂, h₃, h₄, h₅⟩ := h.held (hop.symm.trans hcreate)
  exact ⟨hsecure.trans h₁, hfront.trans h₂, hmtu.trans h₃, htask.trans h₄, hsalt.trans h₅⟩

theorem Waits.requests {c c' : SignalClient} (hsame : SameRequests c c')
    (h : Waits settings password salt c) :
    Waits settings password salt c' := by
  refine h.keep hsame.authOperation hsame.secureReady hsame.pendingCreate hsame.pendingCreateMtu
    hsame.authTask
    hsame.authSalt fun hroom => ?_
  rw [hsame.secureReady]
  exact h.roomReady (hsame.roomOperationPending ▸ hroom)

theorem Waits.record {c : SignalClient} (o : Output) (h : Waits settings password salt c) :
    Waits settings password salt (c.record o) :=
  h.keep rfl rfl rfl rfl rfl rfl h.roomReady

theorem Waits.resetOf {c c' : SignalClient} (hreset : ResetOf c c') :
    Waits settings password salt c' :=
  ⟨fun hop => absurd (hreset.authOperation.symm.trans hop) (by decide),
    fun hroom => absurd (hreset.roomOperationPending.symm.trans hroom) (by decide)⟩

theorem Waits.sendFrame {c : SignalClient} (msgType : UInt8) (body : Bytes)
    (h : Waits settings password salt c) :
    Waits settings password salt (c.sendFrame msgType body) := by
  unfold SignalClient.sendFrame
  dsimp only
  split
  · refine Waits.record _ (h.requests ?_)
    constructor <;> rfl
  · refine h.requests ?_
    constructor <;> rfl

/-- **The changes an application makes that asks for no other room with a password.** -/
theorem waits_effects : Effects Call.NoProtectedRoom (fun _ _ _ => True) (fun _ _ => True)
    (Waits settings password salt) where
  plain _ _ _ := trivial
  same hsame h := h.requests hsame.requests
  called _ _ h := h.record _
  asked _ h := h.record _
  dropped _ := Waits.resetOf (resetSecureState_resetOf _)
  connectTo := by
    intro c ok _
    have hconn := connectTo_connectOf c ok
    exact ⟨fun hop => absurd (hconn.authOperation.symm.trans hop) (by decide),
      fun hroom => absurd (hconn.roomOperationPending.symm.trans hroom) (by decide)⟩
  setServerPassword := by
    intro c serverPassword h
    unfold SignalClient.setServerPassword
    have h₁ : Waits settings password salt
        (if c.authOperation = .serverAuth then { c with authTask := none, authOperation := .none }
          else c) := by
      split
      · exact h.other (by simp) rfl id
      · exact h
    generalize (if c.authOperation = .serverAuth then { c with
      authTask := none, authOperation := .none } else c) = c₁
      at h₁ ⊢
    dsimp only
    split
    · have h₂ : Waits settings password salt { c₁ with
          serverPassword := serverPassword }.resetConn.resetSecureState :=
        Waits.resetOf (resetSecureState_resetOf _)
      exact h₂.keep rfl rfl rfl rfl rfl rfl h₂.roomReady
    · exact h₁.keep rfl rfl rfl rfl rfl rfl h₁.roomReady
  startServerAuth _ _ _ _ h := h.other (by simp) rfl id
  roomReady h := h.roomReady
  startRoom hready h := h.keep rfl rfl rfl rfl rfl rfl fun _ => hready
  endRoom h := h.keep rfl rfl rfl rfl rfl rfl fun hroom => absurd hroom Bool.false_ne_true
  cancel := by
    intro c h
    have hcancel := cancelRoomOperation_cancelOf c
    refine ⟨fun hop => ?_,
      fun hroom => absurd (hcancel.roomOperationPending.symm.trans hroom) (by decide)⟩
    rcases hcancel.authOperation with ⟨hsame, _, hne⟩ | ⟨hnone, _⟩
    · exact absurd (hsame.symm.trans hop) hne
    · exact absurd (hnone.symm.trans hop) (by decide)
  startCreate _ ha _ _ _ := absurd rfl (ha _ _)
  startJoin _ _ h := h.keep rfl rfl rfl rfl rfl rfl h.roomReady
  endJoin _ h := h.keep rfl rfl rfl rfl rfl rfl h.roomReady
  startRoomPassword _ _ _ h := h.other (by simp) rfl id
  send _ _ _ h := (h.record _).sendFrame _ _

theorem waits_eventEffects :
    EventEffects Call.NoProtectedRoom (fun _ _ _ => True) (Waits settings password salt) where
  toEffects := waits_effects
  requests := Waits.requests
  entry _ _ h := h.record _
  hello _ hop h := h.other (fun hcreate => absurd (hop.symm.trans hcreate) (by decide)) rfl id
  established hop _ := ⟨fun hcreate => absurd (hop.symm.trans hcreate) (by decide), fun _ => rfl⟩

/-- The result of a key derivation ends the wait. -/
theorem Waits.pollAuthTask {notify : Notify}
    (hn : Keeps notify (fun _ _ => True) (Waits settings password salt))
    (hoff : Keeps notify (fun _ _ => True) Offline) {c : SignalClient} (done : Option Bool)
    (h : Waits settings password salt c) :
    Waits settings password salt (c.pollAuthTask K kdf notify done) := by
  unfold SignalClient.pollAuthTask
  split
  · next pw taskSalt success _ =>
    dsimp only
    have h₁ : Waits settings password salt { c with authTask := none, authOperation := .none } :=
      h.other (by simp) rfl id
    split
    · exact h₁
    split
    · exact waits_effects.failAuthentication hn _ _ h₁
    · split
      · generalize c.pendingCreate ++ c.authSalt ++ kdf.hash pw taskSalt ++
          ByteBuffer.writeU16 c.pendingCreateMtu = body
        have h₂ : Waits settings password salt (SignalClient.sendMsg K notify
            { c with authTask := none, authOperation := .none } MSG_CREATE_ROOM body) :=
          waits_effects.sendMsg K hn trivial h₁
        refine ⟨fun hcreate => ?_, h₂.roomReady⟩
        change (SignalClient.sendMsg K notify _ MSG_CREATE_ROOM body).authOperation =
          .createRoom at hcreate
        rcases sendMsg_operation K hoff { c with
          authTask := none, authOperation := .none } MSG_CREATE_ROOM body
          with hoffline | hsame
        · exact absurd (hoffline.secureReady.symm.trans (h₂.held hcreate).secureReady)
            Bool.false_ne_true
        · exact absurd (hsame.symm.trans hcreate) (by simp)
      · unfold SignalClient.sendAuthResponse
        have h₂ : Waits settings password salt (SignalClient.sendMsg K notify
            { c with authTask := none, authOperation := .none } MSG_AUTH_RESPONSE
            (computeChallengeResponse K (kdf.hash pw taskSalt) c.roomChallenge)) :=
          waits_effects.sendMsg K hn trivial h₁
        exact h₂.keep rfl rfl rfl rfl rfl rfl h₂.roomReady
      · exact waits_eventEffects.finishServerAuth hn _ h₁
  · exact h

end Waiting

variable (K kdf) in
/-- `c'` comes after `c` in a run in which the application makes only such calls. -/
inductive Leads (asks : Call → Prop) (c : SignalClient) : SignalClient → Prop
  | refl : Leads asks c c
  | step {c' : SignalClient} (w : Surroundings) (e : ClientEvent)
      (happ : ∀ cb c, ∀ a ∈ w.app cb c, asks a) (he : ∀ a, e = .call a → asks a) :
      Leads asks c c' → Leads asks c (c'.step K kdf w e)

/-- **Over any events in between**: the room waits with its own arguments. -/
theorem waits_run {settings : RoomSettings} {password salt : Bytes} {c c' : SignalClient}
    (h : Waits settings password salt c) (hrun : Leads K kdf Call.NoProtectedRoom c c') :
    Waits settings password salt c' := by
  induction hrun with
  | refl => exact h
  | step w e happ he _ ih =>
    have hsends : ∀ (log : List Output) (r : Request), AskedIn K kdf log r → True :=
      fun _ _ _ => trivial
    have hn := (@waits_effects settings password salt).callbacks K kdf hsends
      happ w.depth
    have hoff :=
      (offline_effects Call.NoProtectedRoom fun _ _ _ => True).callbacks K kdf hsends happ w.depth
    exact waits_eventEffects.handle hn hsends e he
      (fun done _ h => Waits.pollAuthTask hn hoff done h)
      (ih.keep rfl rfl rfl rfl rfl rfl ih.roomReady)

/-- **The hash completes the request**: salt, hash and MTU follow the front. -/
theorem pollAuthTask_log {settings : RoomSettings} {password salt : Bytes} {c : SignalClient}
    (hop : c.authOperation = .createRoom) (h : Holds settings password salt c)
    (hconnected : c.conn.connected = true) (hready : c.Ready)
    (hfits : (Request.createRoom settings (some (salt, kdf.hash password salt))).Fits)
    (notify : Notify) :
    (c.pollAuthTask K kdf notify (some true)).log =
      c.log ++ c.entries K (.createRoom settings (some (salt, kdf.hash password salt))) := by
  have hbody : c.pendingCreate ++ c.authSalt ++ kdf.hash password salt ++
    ByteBuffer.writeU16 c.pendingCreateMtu =
      (Request.createRoom settings (some (salt, kdf.hash password salt))).body := by
    rw [h.front, h.mtu, h.salt]
    rfl
  unfold SignalClient.pollAuthTask
  rw [h.task]
  dsimp only
  rw [hop, hbody, if_neg (by simp [hconnected]), if_neg (by simp)]
  exact sendMsg_log_of (r := .createRoom settings (some (salt, kdf.hash password salt))) hready
    hfits notify
    rfl rfl rfl rfl

variable (K kdf)

/-- The server accepts the request, and its handler reads the arguments back. -/
def Accepts (r : Request) : Prop :=
  validateClientSignalPayload r.msgType r.body = true ∧ r.ReadFrom r.body

/-- Client and server agree on the messages of the client. -/
structure ClientWireAgreement : Prop where
  /-- What the validator accepts, the handler reads to the end and accepts. -/
  handler : ∀ msgType p, validateClientSignalPayload msgType p = true → HandlerReads msgType p
  /-- A call in range, on a ready client, sends the request of its own
      arguments and nothing else. -/
  calls : ∀ (notify : Notify) (c : SignalClient) (a : Call) (r : Request),
    a.request = some r → a.InRange → c.Ready → a.DataFits → a.Open c →
    (c.call K notify a).log = c.log ++ .asked a :: c.entries K r ∧ Accepts r
  /-- A room with a password is asked for when the hash is there, whatever
      happens in between, as long as its request is not given up. -/
  deferred : ∀ (notify notify' : Notify) (c c' : SignalClient) (settings : RoomSettings)
    (password salt : Bytes),
    Call.InRange (.createRoom settings (some password)) → c.secureReady = true →
    Call.Open c (.createRoom settings (some password)) →
    (c.secureRandomBytes AUTH_SALT_SIZE).1 = some salt →
    Leads K kdf Call.NoProtectedRoom (c.call K notify (.createRoom settings (some password))) c' →
    c'.authOperation = .createRoom → c'.conn.connected = true → c'.Ready →
    (c'.pollAuthTask K kdf notify' (some true)).log =
      c'.log ++ c'.entries K (.createRoom settings (some (salt, kdf.hash password salt))) ∧
      Accepts (.createRoom settings (some (salt, kdf.hash password salt)))
  /-- What the client sends in a run, with arguments in range, passes the
      validator, and the handler reads what the application asked for. -/
  built : ∀ c, Reachable K kdf Call.InRange c → ∀ msgType body, .sent msgType body ∈ c.log →
    validateClientSignalPayload msgType body = true ∧
      ∃ r, AskedIn K kdf c.log r ∧ r.InRange ∧ r.msgType = msgType ∧ r.ReadFrom body

theorem client_wire_agreement : ClientWireAgreement K kdf where
  handler _ _ h := handlerReads_of_validate h
  calls notify c a r hrequest hrange hready hdata hopen :=
    ⟨call_log hrequest hrange hready (hrange.fits hrequest hdata) hopen notify,
      r.agrees (hrange.request hrequest)⟩
  deferred notify notify' c c' settings password salt hrange hsecure hopen hsalt hrun hop hconnected
      hready := by
    obtain ⟨hwaits, -, hlen⟩ := holds_createRoom (K := K) hsecure hopen hsalt notify
    have hheld := (waits_run hwaits hrun).held hop
    have hinRange :
        (Request.createRoom settings (some (salt, kdf.hash password salt))).InRange := by
      refine ⟨hrange.1, fun secret hsecret => ?_⟩
      obtain rfl := Option.some.inj hsecret
      exact ⟨hlen, kdf.length_hash password salt⟩
    have hfits := hinRange.fits fun _ _ heq => Request.noConfusion heq
    exact ⟨pollAuthTask_log hop hheld hconnected hready hfits notify', Request.agrees _ hinRange⟩
  built c hc msgType body hsent := by
    have hwell := reachable_wellAsked hc
    obtain ⟨r, hasked, rfl, rfl⟩ := hwell.sent msgType body hsent
    have hrange := AskedIn.inRange K kdf hwell.ranges hasked
    obtain ⟨hval, hread⟩ := r.agrees hrange
    exact ⟨hval, r, hasked, hrange, rfl, hread⟩

/-! ### The session goes on -/

/-- The hash of the server password is there, and the proof is sent. -/
def proved : SignalClient := greeted.step Crypto.sample Kdf.sample {} (.timeouts (some true))

def established : SignalClient :=
  proved.step Crypto.sample Kdf.sample {} (incoming MSG_SERVER_AUTH_OK
    (ByteBuffer.writeU32 (deriveSessionId Crypto.sample proved.secureMaster) ++
      proved.expectedServerProof))

def sampleRoom : RoomSettings :=
  { roomName := ascii "den"
    maxPlayers := 4
    tcpPolicy := ⟨.relayTcp, .none, .realtime⟩
    udpPolicy := ⟨.relayTcp, .none, .realtime⟩
    mtu := ROOM_MTU_DEFAULT }

/-- A room with a password was asked for, and part of the stream was sent meanwhile. -/
def waiting : SignalClient :=
  (established.step Crypto.sample Kdf.sample (draws [List.replicate 16 8])
    (.call (.createRoom sampleRoom (some (ascii "pass"))))).step Crypto.sample Kdf.sample {}
      (.writable false (.sent 10))

theorem reachable_established : Reachable Crypto.sample Kdf.sample Call.InRange established := by
  have hsilent : ∀ (cb : Callback) (c : SignalClient),
    ∀ a ∈ (fun _ _ => [] : Callback → SignalClient → List Call) cb c,
      a.InRange := fun _ _ _ ha => absurd ha List.not_mem_nil
  have hcall : ∀ {b : Call}, b.InRange → ∀ a, ClientEvent.call b = .call a → a.InRange := by
    intro b hb a ha
    rwa [← ClientEvent.call.inj ha]
  unfold established proved greeted connecting
  refine .step _ _ hsilent (fun _ => ?_)
    (.step _ _ hsilent (fun _ => ?_) (.step _ _ hsilent (fun _ => ?_)
    (.step _ _ hsilent (fun _ => ?_)
      (.step _ _ hsilent (hcall trivial) (.step _ _ hsilent (hcall trivial) (.init true))))))
  · exact fun ha => ClientEvent.noConfusion ha
  · exact fun ha => ClientEvent.noConfusion ha
  · exact fun ha => ClientEvent.noConfusion ha
  · exact fun ha => ClientEvent.noConfusion ha

theorem established_state :
    established.secureReady = true ∧ established.secureCipher.initialized = true ∧
    established.secureCipher.sendCounter ≠ UINT64_MAX ∧ established.roomOperationPending = false ∧
      established.authOperation = .none := by
  decide +kernel

theorem waiting_state : waiting.secureReady = true ∧ waiting.secureCipher.initialized = true ∧
    waiting.secureCipher.sendCounter ≠ UINT64_MAX ∧ waiting.conn.connected = true ∧
      waiting.authOperation = .createRoom := by
  decide +kernel

theorem ready_established : established.Ready :=
  ⟨established_state.1, established_state.2.1, established_state.2.2.1⟩

theorem ready_waiting : waiting.Ready := ⟨waiting_state.1, waiting_state.2.1, waiting_state.2.2.1⟩

/-- The session sends a login, and the room when the hash of its password is
    there. -/
theorem client_wire_agreement_session :
    (∀ notify : Notify, (established.call Crypto.sample notify (.login (ascii "guest") none)).log =
      established.log ++ .asked (.login (ascii "guest") none) :: established.entries Crypto.sample
      (.login (ascii "guest") none)) ∧
    Accepts (.login (ascii "guest") none) ∧
    (∀ notify : Notify, (waiting.pollAuthTask Crypto.sample Kdf.sample notify (some true)).log =
      waiting.log ++ waiting.entries Crypto.sample (.createRoom sampleRoom
        (some (List.replicate 16 8, Kdf.sample.hash (ascii "pass") (List.replicate 16 8))))) ∧
    Accepts (.createRoom sampleRoom
      (some (List.replicate 16 8, Kdf.sample.hash (ascii "pass") (List.replicate 16 8)))) ∧
    (∀ msgType body, .sent msgType body ∈ established.log →
      validateClientSignalPayload msgType body = true) := by
  have hagree := client_wire_agreement Crypto.sample Kdf.sample
  have hname : isValidPlayerName (ascii "guest") = true := by decide
  have hlogin : Call.InRange (.login (ascii "guest") none) :=
    ⟨hname, fun _ hr => absurd hr (by simp)⟩
  have hroom : Call.InRange (.createRoom sampleRoom (some (ascii "pass"))) := by
    refine ⟨⟨by decide, by decide, by decide, by decide, by decide⟩,
      fun _ hs => absurd hs (by simp)⟩
  have hsend := fun notify => hagree.calls notify established
    (.login (ascii "guest") none) _ rfl hlogin
    ready_established trivial trivial
  have hrun : Leads Crypto.sample Kdf.sample Call.NoProtectedRoom
      (SignalClient.call Crypto.sample (callbacks Crypto.sample (fun _ _ => []) 0)
        { established with env := (draws [List.replicate 16 8]).env }
        (.createRoom sampleRoom (some (ascii "pass")))) waiting :=
    .step {} (.writable false (.sent 10)) (fun _ _ _ ha => absurd ha List.not_mem_nil)
      (fun _ ha => ClientEvent.noConfusion ha) .refl
  -- the results of the calls to the system are no part of what the guards look at
  have hguards : ∀ (c : SignalClient) (env : ClientEnv), c.secureReady = true →
    c.roomOperationPending = false →
      c.authOperation = .none → { c with env := env }.secureReady = true ∧
        Call.Open { c with env := env } (.createRoom sampleRoom (some (ascii "pass"))) :=
    fun _ _ hsecure hpending hop => ⟨hsecure, hpending, hop⟩
  obtain ⟨hsecure, hopen⟩ :=
    hguards established (draws [List.replicate 16 8]).env established_state.1
    established_state.2.2.2.1 established_state.2.2.2.2
  have hsalt : ∀ c : SignalClient,
    ({ c with env := (draws [List.replicate 16 8]).env }.secureRandomBytes
      AUTH_SALT_SIZE).1 = some (List.replicate 16 8) := by
    intro c
    simp [secureRandomBytes, draws, AUTH_SALT_SIZE]
  have hpoll :=
    fun notify => hagree.deferred _ notify _ waiting sampleRoom (ascii "pass") (List.replicate 16 8)
    hroom hsecure hopen (hsalt established) hrun waiting_state.2.2.2.2 waiting_state.2.2.2.1
    ready_waiting
  refine ⟨fun notify => (hsend notify).1, (hsend fun _ c => c).2, fun notify => (hpoll notify).1,
    (hpoll fun _ c => c).2, fun msgType body hsent => ?_⟩
  exact (hagree.built established reachable_established msgType body hsent).1

end SignalClient

end VlanConnect

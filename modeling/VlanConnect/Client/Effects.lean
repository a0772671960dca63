/-
  VlanConnect/Client/Effects.lean
  ===============================
  **What the functions of the signaling client are made of.**

  A property of the client that every primitive change keeps is kept by every
  call of the application, by every callback (whatever calls the application
  makes in it, nested to any depth) and by every message of an established
  session.  `Effects` lists these changes.  The steps of the handshake are not
  among them; they are looked at one by one where they matter.
-/
import VlanConnect.ClientWire
import VlanConnect.Client.Messages

namespace VlanConnect

namespace SignalClient

variable (K : Crypto) (kdf : Kdf)

/-! ### Requests of the application -/

/-- The application asked for the request, or the client makes it by itself. -/
def AskedIn (log : List Output) : Request → Prop
  | .login name resume => .asked (.login name resume) ∈ log
  | .createRoom settings none => .asked (.createRoom settings none) ∈ log
  | .createRoom settings (some (salt, hash)) => salt.length = AUTH_SALT_SIZE ∧
    ∃ password, .asked (.createRoom settings (some password)) ∈ log ∧ hash = kdf.hash password salt
  | .joinRoom roomId => ∃ password, .asked (.joinRoom roomId password) ∈ log
  | .resumeRoom resume => .asked (.resumeRoom (some resume)) ∈ log
  | .requestRelay targetPeerId => .asked (.requestRelay targetPeerId) ∈ log
  | .relayData header data =>
    .asked (.sendRelayData header.source header.destination header.trafficClass data) ∈ log
  | .authResponse response => .asked (.sendAuthResponse response) ∈ log ∨
    ∃ hash challenge, response = computeChallengeResponse K hash challenge
  | .leaveRoom => .asked .leaveRoom ∈ log
  | .logout => .asked .logout ∈ log
  | .listRooms | .ping => True

/-! ### Primitive changes -/

/-- The connection, the handshake and the log are the same. -/
structure Same (c c' : SignalClient) : Prop where
  conn : c'.conn = c.conn
  authTask : c'.authTask = c.authTask
  authOperation : c'.authOperation = c.authOperation
  pendingCreate : c'.pendingCreate = c.pendingCreate
  pendingCreateMtu : c'.pendingCreateMtu = c.pendingCreateMtu
  pendingRoomPassword : c'.pendingRoomPassword = c.pendingRoomPassword
  hasPendingAuth : c'.hasPendingAuth = c.hasPendingAuth
  authSalt : c'.authSalt = c.authSalt
  expectedServerProof : c'.expectedServerProof = c.expectedServerProof
  roomOperationPending : c'.roomOperationPending = c.roomOperationPending
  serverPassword : c'.serverPassword = c.serverPassword
  serverAuthRequired : c'.serverAuthRequired = c.serverAuthRequired
  secureReady : c'.secureReady = c.secureReady
  clientNonce : c'.clientNonce = c.clientNonce
  serverNonce : c'.serverNonce = c.serverNonce
  clientPrivKey : c'.clientPrivKey = c.clientPrivKey
  clientPubKey : c'.clientPubKey = c.clientPubKey
  serverPubKey : c'.serverPubKey = c.serverPubKey
  secureMaster : c'.secureMaster = c.secureMaster
  log : c'.log = c.log

/-- What is left of a client whose secure state was reset. -/
structure ResetOf (c c' : SignalClient) : Prop where
  conn : c'.conn = c.conn
  authTask : c'.authTask = none
  authOperation : c'.authOperation = .none
  hasPendingAuth : c'.hasPendingAuth = false
  roomOperationPending : c'.roomOperationPending = false
  serverPassword : c'.serverPassword = c.serverPassword
  serverAuthRequired : c'.serverAuthRequired = false
  secureReady : c'.secureReady = false
  secureMaster : c'.secureMaster = []
  log : c'.log = c.log

theorem resetSecureState_resetOf (c : SignalClient) : ResetOf c c.resetSecureState := by
  unfold resetSecureState cancelRoomOperation resetRoomListState
  dsimp only
  split <;> constructor <;> rfl

/-- What `connectTo` leaves. -/
structure ConnectOf (ok : Bool) (c c' : SignalClient) : Prop where
  conn : c'.conn = if ok then { hasFd := true, connecting := true } else {}
  authTask : c'.authTask = none
  authOperation : c'.authOperation = .none
  hasPendingAuth : c'.hasPendingAuth = false
  roomOperationPending : c'.roomOperationPending = false
  serverPassword : c'.serverPassword = c.serverPassword
  serverAuthRequired : c'.serverAuthRequired = false
  secureReady : c'.secureReady = false
  secureMaster : c'.secureMaster = []
  log : c'.log = c.log ++ [.closed] ++ if ok then [.opened] else []

theorem connectTo_connectOf (c : SignalClient) (ok : Bool) : ConnectOf ok c (c.connectTo ok) := by
  have hr := resetSecureState_resetOf { c with myPeerId := 0 }
  unfold SignalClient.connectTo
  generalize ({ c with myPeerId := 0 } : SignalClient).resetSecureState = c₁ at hr ⊢
  have htime : ResetOf c c₁.currentTimeMs.2 := by
    unfold SignalClient.currentTimeMs
    split
    · exact ⟨hr.1, hr.2, hr.3, hr.4, hr.5, hr.6, hr.7, hr.8, hr.9, hr.10⟩
    · exact ⟨hr.1, hr.2, hr.3, hr.4, hr.5, hr.6, hr.7, hr.8, hr.9, hr.10⟩
  dsimp only
  generalize c₁.currentTimeMs = res at htime ⊢
  obtain ⟨now, c₂⟩ := res
  dsimp only at htime
  cases ok
  · refine ⟨rfl, htime.authTask, htime.authOperation, htime.hasPendingAuth,
      htime.roomOperationPending,
      htime.serverPassword, htime.serverAuthRequired, htime.secureReady, htime.secureMaster, ?_⟩
    show c₂.log ++ [.closed] = _
    rw [htime.log]
    simp
  · refine ⟨rfl, htime.authTask, htime.authOperation, htime.hasPendingAuth,
      htime.roomOperationPending,
      htime.serverPassword, htime.serverAuthRequired, htime.secureReady, htime.secureMaster, ?_⟩
    show c₂.log ++ [.closed] ++ [.opened] = _
    rw [htime.log]
    rfl

/-- What a cancelled room operation leaves. -/
structure CancelOf (c c' : SignalClient) : Prop where
  conn : c'.conn = c.conn
  authOperation : c'.authOperation = c.authOperation ∧ c'.authTask = c.authTask ∧
    c.authOperation ≠ .createRoom ∨
    c'.authOperation = .none ∧ c'.authTask = none ∧ c.authOperation ≠ .serverAuth
  hasPendingAuth : c'.hasPendingAuth = false
  authSalt : c'.authSalt = c.authSalt
  expectedServerProof : c'.expectedServerProof = c.expectedServerProof
  roomOperationPending : c'.roomOperationPending = false
  serverPassword : c'.serverPassword = c.serverPassword
  serverAuthRequired : c'.serverAuthRequired = c.serverAuthRequired
  secureReady : c'.secureReady = c.secureReady
  clientNonce : c'.clientNonce = c.clientNonce
  serverNonce : c'.serverNonce = c.serverNonce
  clientPrivKey : c'.clientPrivKey = c.clientPrivKey
  clientPubKey : c'.clientPubKey = c.clientPubKey
  serverPubKey : c'.serverPubKey = c.serverPubKey
  secureMaster : c'.secureMaster = c.secureMaster
  log : c'.log = c.log

theorem cancelRoomOperation_cancelOf (c : SignalClient) : CancelOf c c.cancelRoomOperation := by
  unfold cancelRoomOperation
  by_cases hop : c.authOperation = .createRoom ∨ c.authOperation = .roomPassword
  · rw [if_pos hop]
    have hne : c.authOperation ≠ .serverAuth := by
      rcases hop with hop | hop <;> rw [hop] <;> decide
    constructor <;> first | rfl | exact Or.inr ⟨rfl, rfl, hne⟩
  · rw [if_neg hop]
    constructor <;> first | rfl | exact Or.inl ⟨rfl, rfl, fun h => hop (Or.inl h)⟩

/-- A property of the client that the primitive changes keep.  `asks` are the
    calls the application makes, `sends` the messages that may be sent after a log,
    `calls` the callbacks a client may invoke. -/
structure Effects (asks : Call → Prop) (sends : List Output → UInt8 → Bytes → Prop)
    (calls : SignalClient → Callback → Prop) (P : SignalClient → Prop) : Prop where
  plain : ∀ c cb, cb.isBusiness = false → calls c cb
  same : ∀ {c c'}, Same c c' → P c → P c'
  called : ∀ {c : SignalClient} cb, calls c cb → P c → P (c.record (.called cb))
  asked : ∀ {c : SignalClient} {a}, asks a → P c → P (c.record (.asked a))
  dropped : ∀ {c : SignalClient}, P c → P c.resetConn.resetSecureState
  connectTo : ∀ {c : SignalClient} ok, P c → P (c.connectTo ok)
  setServerPassword : ∀ {c : SignalClient} password, P c → P (c.setServerPassword password)
  startServerAuth : ∀ {c : SignalClient}, c.serverAuthRequired = true → c.authOperation = .none →
    c.secureReady = false → c.secureMaster = [] → P c →
    P { c with authOperation := .serverAuth, authTask := some (c.serverPassword, c.authSalt) }
  roomReady : ∀ {c : SignalClient}, P c → c.roomOperationPending = true → c.secureReady = true
  startRoom : ∀ {c : SignalClient}, c.secureReady = true → P c →
      P { c with roomOperationPending := true }
  endRoom : ∀ {c : SignalClient}, P c → P { c with roomOperationPending := false }
  cancel : ∀ {c : SignalClient}, P c → P c.cancelRoomOperation
  startCreate : ∀ {c : SignalClient} {settings : RoomSettings} {password salt : Bytes},
    c.secureReady = true →
    asks (.createRoom settings (some password)) →
    .asked (.createRoom settings (some password)) ∈ c.log →
    salt.length = AUTH_SALT_SIZE → P c →
    P { c with
      authSalt := salt
      pendingCreate := createRoomFront settings true
      pendingCreateMtu := normalizeRoomMtu settings.mtu
      authOperation := .createRoom
      authTask := some (password, salt) }
  startJoin : ∀ {c : SignalClient} {roomId : Nat} {password : Bytes}, c.secureReady = true →
    .asked (.joinRoom roomId password) ∈ c.log → P c →
    P { c with pendingRoomPassword := password, hasPendingAuth := true }
  endJoin : ∀ {c : SignalClient} password, P c →
      P { c with pendingRoomPassword := password, hasPendingAuth := false }
  startRoomPassword : ∀ {c : SignalClient} salt, c.secureReady = true →
    c.hasPendingAuth = true → P c →
    P { c with
      authSalt := salt, authOperation := .roomPassword,
      authTask := some (c.pendingRoomPassword, salt) }
  send : ∀ {c : SignalClient} {msgType body} enc, sends c.log msgType body →
    c.secureReady = true → P c →
    P ((c.record (.sent msgType body)).sendFrame MSG_ENCRYPTED enc)

/-- The callbacks keep the property. -/
def Keeps (notify : Notify) (calls : SignalClient → Callback → Prop) (P : SignalClient → Prop) :
    Prop :=
  ∀ cb c, calls c cb → P c → P (notify cb c)

variable {asks : Call → Prop} {sends : List Output → UInt8 → Bytes → Prop}
    {calls : SignalClient → Callback → Prop}
variable {P : SignalClient → Prop} {notify : Notify}

namespace Effects

variable (h : Effects asks sends calls P) (hn : Keeps notify calls P)

include h

theorem currentTimeMs {c : SignalClient} (hc : P c) : P c.currentTimeMs.2 := by
  unfold SignalClient.currentTimeMs
  split
  · exact hc
  · refine h.same ?_ hc
    constructor <;> rfl

theorem roomMonotonicMs {c : SignalClient} (hc : P c) : P c.roomMonotonicMs.2 := by
  unfold SignalClient.roomMonotonicMs
  split
  · exact hc
  · refine h.same ?_ hc
    constructor <;> rfl

theorem secureRandomBytes {c : SignalClient} (size : Nat) (hc : P c) :
    P (c.secureRandomBytes size).2 := by
  unfold SignalClient.secureRandomBytes
  split
  · exact hc
  · refine h.same ?_ hc
    constructor <;> rfl

theorem disconnect {c : SignalClient} (hc : P c) : P c.disconnect := by
  refine h.same ?_ (h.dropped hc)
  constructor <;> rfl

theorem startRoomOperation {c : SignalClient} (hready : c.secureReady = true) (hc : P c) :
    P c.startRoomOperation := by
  unfold SignalClient.startRoomOperation
  have hc₁ : P { c with roomOperationPending := true, discardRoomResponses := false } := by
    refine h.same ?_ (h.startRoom hready hc)
    constructor <;> rfl
  refine h.same ?_ (h.roomMonotonicMs hc₁)
  constructor <;> rfl

omit h in
theorem startRoomOperation_log (c : SignalClient) : c.startRoomOperation.log = c.log := by
  unfold SignalClient.startRoomOperation SignalClient.roomMonotonicMs
  dsimp only
  split <;> rfl

omit h in
theorem startRoomOperation_secureReady (c : SignalClient) :
    c.startRoomOperation.secureReady = c.secureReady := by
  unfold SignalClient.startRoomOperation SignalClient.roomMonotonicMs
  dsimp only
  split <;> rfl

theorem abandonRoomOperation {c : SignalClient} (hc : P c) : P c.abandonRoomOperation := by
  refine h.same ?_ (h.cancel hc)
  constructor <;> rfl

include hn

/-- A callback that does not belong to the service behind the login. -/
theorem notifyPlain {cb : Callback} {c : SignalClient} (hcb : cb.isBusiness = false) (hc : P c) :
    P (notify cb c) :=
  hn cb c (h.plain c cb hcb) hc

theorem notifyDisconnectedOnce {c : SignalClient} (hc : P c) :
    P (c.notifyDisconnectedOnce notify) := by
  unfold SignalClient.notifyDisconnectedOnce
  split
  · exact hc
  · refine h.notifyPlain hn rfl (h.same ?_ hc)
    constructor <;> rfl

theorem drop {c : SignalClient} (hc : P c) : P (c.drop notify) :=
  h.notifyDisconnectedOnce hn (h.dropped hc)

theorem failSignalFrame {c : SignalClient} (hc : P c) : P (c.failSignalFrame notify) := h.drop hn hc

theorem failAuthentication {c : SignalClient} (code : Nat) (message : Bytes) (hc : P c) :
    P (c.failAuthentication notify code message) :=
  h.drop hn (h.notifyPlain hn rfl (h.notifyPlain hn rfl hc))

/-! ### Calls of the application -/

theorem sendMsg {c : SignalClient} {msgType : UInt8} {body : Bytes}
    (hsend : sends c.log msgType body) (hc : P c) :
    P (c.sendMsg K notify msgType body) := by
  unfold SignalClient.sendMsg
  split
  · exact hc
  split
  · exact hc
  next hready =>
  generalize c.secureCipher.encrypt K (msgType :: body) [] = res
  obtain ⟨enc, cipher⟩ := res
  dsimp only
  have hc₁ : P { c with secureCipher := cipher } := by
    refine h.same ?_ hc
    constructor <;> rfl
  split
  · exact h.drop hn (h.notifyPlain hn rfl hc₁)
  split
  · exact hc₁
  · exact h.send enc hsend (not_not.mp hready) hc₁

theorem sendServerAuth {c : SignalClient} (hreq : c.serverAuthRequired = true) (hc : P c) :
    P (c.sendServerAuth notify) := by
  unfold SignalClient.sendServerAuth
  split
  · exact hc
  next hguard =>
  obtain ⟨hop, hready, hmaster⟩ : c.authOperation = .none ∧ c.secureReady = false ∧
      c.secureMaster = [] := by
    simpa [not_or] using hguard
  split
  · exact h.notifyPlain hn rfl hc
  · exact h.startServerAuth hreq hop hready hmaster hc

theorem continueServerAuth {c : SignalClient} (hc : P c) : P (c.continueServerAuth notify) := by
  unfold SignalClient.continueServerAuth
  split
  · next hreq => exact h.sendServerAuth hn hreq.1 hc
  · exact hc

variable (hsends : ∀ log r, AskedIn K kdf log r → sends log r.msgType r.body)

include hsends

theorem request {c : SignalClient} {r : Request} (hasked : AskedIn K kdf c.log r) (hc : P c) :
    P (c.sendMsg K notify r.msgType r.body) :=
  h.sendMsg K hn (hsends c.log r hasked) hc

theorem listRooms {c : SignalClient} (hc : P c) : P (c.listRooms K notify) :=
  h.request K kdf hn hsends (r := .listRooms) trivial hc

theorem createRoom {c : SignalClient} {settings : RoomSettings} {password : Option Bytes}
    (ha : asks (.createRoom settings password))
    (hasked : .asked (.createRoom settings password) ∈ c.log) (hc : P c) :
    P (c.createRoom K notify settings password) := by
  unfold SignalClient.createRoom
  split
  · exact hc
  next hguard =>
  have hready : c.secureReady = true := by
    simp only [not_or, not_not] at hguard
    exact hguard.2.2
  have hc₁ := h.startRoomOperation hready hc
  have hlog := startRoomOperation_log c
  have hready₁ : c.startRoomOperation.secureReady = true :=
    (startRoomOperation_secureReady c).trans hready
  generalize c.startRoomOperation = c₁ at hc₁ hlog hready₁ ⊢
  cases password with
  | none =>
    exact h.request K kdf hn hsends (r := .createRoom settings none)
      (show _ ∈ c₁.log by rw [hlog]; exact hasked) hc₁
  | some password =>
    dsimp only
    have hc₂ := h.secureRandomBytes AUTH_SALT_SIZE hc₁
    have hlen : ∀ salt, (c₁.secureRandomBytes AUTH_SALT_SIZE).1 = some salt →
        salt.length = AUTH_SALT_SIZE := by
      intro salt hsalt
      unfold SignalClient.secureRandomBytes at hsalt
      split at hsalt
      · cases hsalt
      · obtain ⟨b, _, rfl⟩ := Option.map_eq_some_iff.mp hsalt
        simp
    have hkeep : (c₁.secureRandomBytes AUTH_SALT_SIZE).2.secureReady = true ∧
        (c₁.secureRandomBytes AUTH_SALT_SIZE).2.log = c₁.log := by
      unfold SignalClient.secureRandomBytes
      split <;> exact ⟨hready₁, rfl⟩
    generalize c₁.secureRandomBytes AUTH_SALT_SIZE = res at hc₂ hlen hkeep ⊢
    obtain ⟨salt, c₂⟩ := res
    dsimp only at hc₂ hlen hkeep ⊢
    cases salt with
    | none => exact h.notifyPlain hn rfl (h.endRoom hc₂)
    | some salt =>
      refine h.startCreate hkeep.1 ha ?_ (hlen salt rfl) hc₂
      rw [hkeep.2, hlog]
      exact hasked

theorem joinRoom {c : SignalClient} {roomId : Nat} {password : Bytes}
    (hasked : .asked (.joinRoom roomId password) ∈ c.log) (hc : P c) :
    P (c.joinRoom K notify roomId password) := by
  unfold SignalClient.joinRoom
  split
  · exact hc
  next hguard =>
  have hready : c.secureReady = true := by
    simp only [not_or, not_not] at hguard
    exact hguard.2.2.1
  have hready₁ : c.startRoomOperation.secureReady = true :=
    (startRoomOperation_secureReady c).trans hready
  have hasked₁ : .asked (.joinRoom roomId password) ∈ c.startRoomOperation.log := by
    rw [startRoomOperation_log]
    exact hasked
  have hc₁ := h.startJoin hready₁ hasked₁ (h.startRoomOperation hready hc)
  refine h.request K kdf hn hsends (r := .joinRoom roomId) ⟨password, ?_⟩ hc₁
  rw [show SignalClient.log _ = _ from startRoomOperation_log c]
  exact hasked

theorem resumeRoom {c : SignalClient} {resume : Option ResumeRequest}
    (hasked : .asked (.resumeRoom resume) ∈ c.log) (hc : P c) :
    P (c.resumeRoom K notify resume) := by
  unfold SignalClient.resumeRoom
  cases resume with
  | none => exact hc
  | some r =>
    dsimp only
    split
    · exact hc
    next hguard =>
    have hready : c.secureReady = true := by
      simp only [not_or, not_not] at hguard
      exact hguard.2
    refine h.request K kdf hn hsends (r := .resumeRoom r) ?_ (h.startRoomOperation hready hc)
    show _ ∈ c.startRoomOperation.log
    rw [startRoomOperation_log]
    exact hasked

theorem leaveRoom {c : SignalClient} (hasked : .asked .leaveRoom ∈ c.log) (hc : P c) :
    P (c.leaveRoom K notify) := by
  unfold SignalClient.leaveRoom
  split
  · refine h.same ?_ (h.cancel hc)
    constructor <;> rfl
  · exact h.request K kdf hn hsends (r := .leaveRoom) hasked hc

omit h hn hsends in
theorem cancelRoomOperation_log (c : SignalClient) : c.cancelRoomOperation.log = c.log := by
  unfold SignalClient.cancelRoomOperation
  dsimp only
  split <;> rfl

theorem logout {c : SignalClient} (hasked : .asked .logout ∈ c.log) (hc : P c) :
    P (c.logout K notify) := by
  refine h.request K kdf hn hsends (r := .logout) ?_ (h.abandonRoomOperation hc)
  show _ ∈ c.cancelRoomOperation.log
  rw [cancelRoomOperation_log]
  exact hasked

theorem sendPing {c : SignalClient} (hc : P c) : P (c.sendPing K notify) := by
  unfold SignalClient.sendPing
  refine h.request K kdf hn hsends (r := .ping) trivial (h.same ?_ (h.currentTimeMs hc))
  constructor <;> rfl

/-- **A call of the application keeps the property.** -/
theorem call {c : SignalClient} {a : Call} (ha : asks a) (hc : P c) : P (c.call K notify a) := by
  have hc := h.asked ha hc
  have hasked : .asked a ∈ (c.record (.asked a)).log :=
    List.mem_append_right _ (List.mem_singleton.mpr rfl)
  unfold SignalClient.call
  generalize c.record (.asked a) = c at hc hasked ⊢
  cases a with
  | connectTo ok => exact h.connectTo ok hc
  | disconnect => exact h.disconnect hc
  | setServerPassword password => exact h.setServerPassword password hc
  | continueServerAuth => exact h.continueServerAuth hn hc
  | login name resume => exact h.request K kdf hn hsends (r := .login name resume) hasked hc
  | createRoom settings password => exact h.createRoom K kdf hn hsends ha hasked hc
  | joinRoom roomId password => exact h.joinRoom K kdf hn hsends hasked hc
  | resumeRoom resume => exact h.resumeRoom K kdf hn hsends hasked hc
  | leaveRoom => exact h.leaveRoom K kdf hn hsends hasked hc
  | abandonRoomOperation => exact h.abandonRoomOperation hc
  | logout => exact h.logout K kdf hn hsends hasked hc
  | listRooms => exact h.listRooms K kdf hn hsends hc
  | requestRelay targetPeerId =>
    exact h.request K kdf hn hsends (r := .requestRelay targetPeerId) hasked hc
  | sendRelayData srcPeerId dstPeerId trafficClass data =>
    exact h.request K kdf hn hsends
      (r := .relayData ⟨srcPeerId, dstPeerId, trafficClass⟩ data) hasked hc
  | sendPing => exact h.sendPing K kdf hn hsends hc
  | sendAuthResponse response =>
    exact h.request K kdf hn hsends (r := .authResponse response) (Or.inl hasked) hc

omit hn in
/-- **The callbacks keep the property**, by induction on how far they are nested. -/
theorem callbacks {app : Callback → SignalClient → List Call}
    (happ : ∀ cb c, ∀ a ∈ app cb c, asks a) (depth : Nat) :
    Keeps (SignalClient.callbacks K app depth) calls P := by
  induction depth with
  | zero => exact fun cb c hcb hc => h.called cb hcb hc
  | succ depth ih =>
    intro cb c hcb hc
    unfold SignalClient.callbacks
    have hc₁ := h.called cb hcb hc
    generalize c.record (.called cb) = c₁ at hc₁ ⊢
    have hall := happ cb c
    generalize app cb c = calls at hall ⊢
    induction calls generalizing c₁ with
    | nil => exact hc₁
    | cons a calls ihc =>
      exact ihc _ (h.call K kdf ih hsends (hall a List.mem_cons_self) hc₁)
        fun b hb => hall b (List.mem_cons_of_mem a hb)

/-! ### Messages of an established session -/

variable (hb : ∀ c cb, c.secureReady = true → calls c cb)

include hb

omit hsends in
theorem awaitsRoomResponse {c : SignalClient} (hc : P c) : P (c.awaitsRoomResponse notify).2 := by
  unfold SignalClient.awaitsRoomResponse
  by_cases hpending : c.roomOperationPending = true
  · rw [if_pos hpending]
    have hready := h.roomReady hc hpending
    have hc₁ := h.roomMonotonicMs hc
    have hready₁ : c.roomMonotonicMs.2.secureReady = true := by
      unfold SignalClient.roomMonotonicMs
      split <;> exact hready
    generalize c.roomMonotonicMs = res at hc₁ hready₁ ⊢
    obtain ⟨now, c₁⟩ := res
    dsimp only at hc₁ hready₁ ⊢
    have hc₂ := h.abandonRoomOperation hc₁
    have hready₂ : c₁.abandonRoomOperation.secureReady = true := by
      unfold SignalClient.abandonRoomOperation SignalClient.cancelRoomOperation
      dsimp only
      split <;> exact hready₁
    split
    · split
      · exact hn _ _ (hb _ _ hready₂) hc₂
      · refine h.same ?_ hc₂
        constructor <;> rfl
    · exact hc₁
  · rw [if_neg hpending]
    exact hc

omit hsends in
theorem onRoomResponse {c : SignalClient} {reader : ByteBuffer.Reader Callback}
    (clearsPassword : Bool) (payload : Bytes) (hc : P c) :
    P (c.onRoomResponse notify reader clearsPassword payload).2 := by
  unfold SignalClient.onRoomResponse
  have hc₁ := h.awaitsRoomResponse hn hb hc
  have hwanted : (c.awaitsRoomResponse notify).1 = true →
      (c.awaitsRoomResponse notify).2.roomOperationPending = true := by
    intro hw
    exact (Bool.and_eq_true_iff.mp hw).1
  generalize c.awaitsRoomResponse notify = res at hc₁ hwanted ⊢
  obtain ⟨wanted, c₁⟩ := res
  dsimp only at hc₁ hwanted ⊢
  split
  · exact hc₁
  next hw =>
  have hready := h.roomReady hc₁ (hwanted (not_not.mp hw))
  have hc₂ := h.endRoom hc₁
  split
  · exact h.failSignalFrame hn hc₂
  · split
    · exact hn _ _ (hb _ _ hready) (h.endJoin [] hc₂)
    · exact hn _ _ (hb _ _ hready) hc₂

omit hsends hn hb in
theorem dropSnapshot {c : SignalClient} (hc : P c) : P c.dropSnapshot := by
  refine h.same ?_ hc
  constructor <;> rfl

omit hb in
theorem restartSnapshot {c : SignalClient} (hc : P c) : P (c.restartSnapshot K notify) :=
  h.listRooms K kdf hn hsends (h.dropSnapshot hc)

theorem onRoomList {c : SignalClient} (payload : Bytes) (hready : c.secureReady = true) (hc : P c) :
    P (c.onRoomList K notify payload).2 := by
  unfold SignalClient.onRoomList
  split
  · exact h.failSignalFrame hn hc
  · next revision pageIndex pageCount count rest _ =>
    generalize hc₁ : (if pageIndex = 0 then { c with
        snapshotRooms := ∅, snapshotRevision := revision, snapshotPageCount := pageCount,
        snapshotNextPage := 0 }
      else c) = c₁
    have hp₁ : P c₁ ∧ c₁.secureReady = true := by
      subst hc₁
      split
      · refine ⟨h.same ?_ hc, hready⟩
        constructor <;> rfl
      · exact ⟨hc, hready⟩
    dsimp only
    split
    · exact h.restartSnapshot K kdf hn hsends hp₁.1
    split
    · exact h.failSignalFrame hn hp₁.1
    · exact h.restartSnapshot K kdf hn hsends hp₁.1
    · split
      · refine hn _ _ (hb _ _ hp₁.2) (h.same ?_ hp₁.1)
        constructor <;> rfl
      · refine h.same ?_ hp₁.1
        constructor <;> rfl

theorem onRoomListPush {c : SignalClient} (payload : Bytes) (hready : c.secureReady = true)
    (hc : P c) :
    P (c.onRoomListPush K notify payload).2 := by
  unfold SignalClient.onRoomListPush
  split
  · exact h.failSignalFrame hn hc
  split
  · exact h.restartSnapshot K kdf hn hsends hc
  split
  · exact h.failSignalFrame hn hc
  · refine hn _ _ (hb _ _ hready) (h.same ?_ hc)
    constructor <;> rfl

omit hsends hb in
theorem onAuthChallenge {c : SignalClient} (payload : Bytes) (hready : c.secureReady = true)
    (hc : P c) :
    P (c.onAuthChallenge notify payload).2 := by
  unfold SignalClient.onAuthChallenge
  split
  · exact hc
  split
  · exact h.failSignalFrame hn hc
  split
  · exact h.failAuthentication hn _ _ hc
  split
  · exact h.failSignalFrame hn hc
  next hpending =>
  split
  · exact h.failSignalFrame hn (h.endJoin c.pendingRoomPassword hc)
  · next salt challenge _ =>
    refine h.same ?_ (h.endJoin [] (h.startRoomPassword salt hready (not_not.mp hpending) hc))
    constructor <;> rfl

omit hsends in
/-- An error is the one message that is also handled before the handshake is done. -/
theorem onError {c : SignalClient} (payload : Bytes) (hc : P c) :
    P (c.onError notify payload).2 := by
  unfold SignalClient.onError
  split
  · exact h.failSignalFrame hn hc
  next code message _ =>
  split
  · exact h.failAuthentication hn _ _ hc
  split
  · exact hc
  dsimp only
  have hcancel : P (if c.roomOperationPending = true ∧ code ≠ AuthErrorCode.roomPassword.value then
      if c.abandonRoomOperation.hasRoomOperationFailure = true then
        notify (.roomOperationFailure message) c.abandonRoomOperation
      else { c.abandonRoomOperation with sendFailurePending := true }
    else c.cancelRoomOperation) := by
    split
    · next hpending =>
      have hc₁ := h.abandonRoomOperation hc
      have hready := h.roomReady hc hpending.1
      have hready : c.abandonRoomOperation.secureReady = true := by
        unfold SignalClient.abandonRoomOperation SignalClient.cancelRoomOperation
        dsimp only
        split <;> exact hready
      split
      · exact hn _ _ (hb _ _ hready) hc₁
      · refine h.same ?_ hc₁
        constructor <;> rfl
    · exact h.cancel hc
  generalize (if c.roomOperationPending = true ∧ code ≠ AuthErrorCode.roomPassword.value then
      if c.abandonRoomOperation.hasRoomOperationFailure = true then
        notify (.roomOperationFailure message) c.abandonRoomOperation
      else { c.abandonRoomOperation with sendFailurePending := true }
    else c.cancelRoomOperation) = c₁ at hcancel ⊢
  have hfatal :
      P (if code = AuthErrorCode.roomPassword.value then notify (.fatalAuthError code message) c₁
        else c₁) := by
    split
    · exact h.notifyPlain hn rfl hcancel
    · exact hcancel
  exact h.notifyPlain hn rfl (h.endJoin [] hfatal)

omit hsends in
theorem onLoginResponse {c : SignalClient} (payload : Bytes) (hready : c.secureReady = true)
    (hc : P c) :
    P (c.onLoginResponse notify payload).2 := by
  unfold SignalClient.onLoginResponse
  split
  · exact h.failSignalFrame hn hc
  split
  · exact h.failSignalFrame hn (h.notifyPlain hn rfl (h.notifyPlain hn rfl hc))
  · refine hn _ _ (hb _ _ hready) (h.same ?_ hc)
    constructor <;> rfl

omit hsends in
theorem deliver {α : Type} {c : SignalClient} {reader : ByteBuffer.Reader α}
    {callback : α → Callback} (payload : Bytes) (hready : c.secureReady = true) (hc : P c) :
    P (c.deliver notify reader callback payload).2 := by
  unfold SignalClient.deliver
  split
  · exact h.failSignalFrame hn hc
  · exact hn _ _ (hb _ _ hready) hc

omit hsends in
theorem onRelayData {c : SignalClient} (payload : Bytes) (hready : c.secureReady = true)
    (hc : P c) :
    P (c.onRelayData notify payload).2 := by
  unfold SignalClient.onRelayData
  split
  · exact h.failSignalFrame hn hc
  · dsimp only
    split
    · exact hn _ _ (hb _ _ hready) hc
    · exact hc

omit hsends in
theorem onPong {c : SignalClient} (hready : c.secureReady = true) (hc : P c) :
    P (c.onPong notify).2 := by
  unfold SignalClient.onPong
  split
  · exact hc
  · have hc₁ := h.currentTimeMs hc
    have hready₁ : c.currentTimeMs.2.secureReady = true := by
      unfold SignalClient.currentTimeMs
      split <;> exact hready
    refine hn _ _ (hb _ _ hready₁) (h.same ?_ hc₁)
    constructor <;> rfl

omit h hn hsends hb in
theorem ite_snd {α : Type} {q : Prop} [Decidable q] {x y : α × SignalClient} (hx : q → P x.2)
    (hy : ¬ q → P y.2) :
    P (if q then x else y).2 := by
  by_cases hq : q
  · rw [if_pos hq]
    exact hx hq
  · rw [if_neg hq]
    exact hy hq

/-- **A message keeps the property**, on an established session or when it is an error. -/
theorem handleMessage {c : SignalClient} {msgType : UInt8} (payload : Bytes)
    (hready : c.secureReady = true ∨ msgType = MSG_ERROR) (hc : P c) :
    P (c.handleMessage K notify msgType payload).2 := by
  by_cases herr : msgType = MSG_ERROR
  · subst herr
    exact h.onError hn hb payload hc
  have hready : c.secureReady = true := hready.resolve_right herr
  have hdeliver : ∀ {α : Type} (reader : ByteBuffer.Reader α) (callback : α → Callback),
      P (c.deliver notify reader callback payload).2 := fun _ _ => h.deliver hn hb payload hready hc
  unfold SignalClient.handleMessage
  refine ite_snd (fun _ => h.onLoginResponse hn hb payload hready hc) fun _ => ?_
  refine ite_snd (fun _ => h.onRoomResponse hn hb _ _ hc) fun _ => ?_
  refine ite_snd (fun _ => h.onRoomResponse hn hb _ _ hc) fun _ => ?_
  refine ite_snd (fun _ => hdeliver _ _) fun _ => ?_
  refine ite_snd (fun _ => hdeliver _ _) fun _ => ?_
  refine ite_snd (fun _ => hdeliver _ _) fun _ => ?_
  refine ite_snd (fun _ => ?_) fun _ => ?_
  · refine hn _ _ (hb _ _ hready) (h.same ?_ hc)
    constructor <;> rfl
  refine ite_snd (fun _ => h.onRoomList K kdf hn hsends hb payload hready hc) fun _ => ?_
  refine ite_snd (fun _ => h.onRoomListPush K kdf hn hsends hb payload hready hc) fun _ => ?_
  refine ite_snd (fun _ => hdeliver _ _) fun _ => ?_
  refine ite_snd (fun _ => h.onRelayData hn hb payload hready hc) fun _ => ?_
  refine ite_snd (fun _ => h.onPong hn hb hready hc) fun _ => ?_
  refine ite_snd (fun _ => h.onAuthChallenge hn payload hready hc) fun _ => ?_
  exact ite_snd (fun _ => h.onError hn hb payload hc) fun _ => hc

omit hsends hb in
theorem rejectPayload {c : SignalClient} (msgType : UInt8) (error : MessageValidationError)
    (hc : P c) :
    P (c.rejectPayload notify msgType error) := by
  unfold SignalClient.rejectPayload
  split
  · exact h.failAuthentication hn _ _ hc
  · exact h.failSignalFrame hn hc

theorem processPlain {c : SignalClient} (plain : Bytes) (hready : c.secureReady = true) (hc : P c) :
    P (c.processPlain K notify plain).2 := by
  unfold SignalClient.processPlain
  split
  · exact h.failSignalFrame hn hc
  split
  · exact h.failAuthentication hn _ _ hc
  split
  · refine h.failSignalFrame hn ?_
    split
    · exact h.notifyPlain hn rfl hc
    · exact hc
  · exact hc
  · exact h.handleMessage K kdf hn hsends hb _ (Or.inl hready) hc

omit hsends hb in
theorem checkConnection {c : SignalClient}
    (hclose : c.conn.connecting = true → P c.currentTimeMs.2.resetConn) (hc : P c) :
    P (c.checkConnection notify) := by
  have hc₁ := h.currentTimeMs hc
  unfold SignalClient.checkConnection
  split
  · next hconn =>
    have hclosed := hclose hconn.2
    generalize c.currentTimeMs = res at hclosed hc₁ ⊢
    obtain ⟨now, c₁⟩ := res
    dsimp only at hclosed hc₁ ⊢
    split
    · exact h.notifyPlain hn rfl hclosed
    · exact hc₁
  split
  · generalize c.currentTimeMs = res at hc₁ ⊢
    obtain ⟨now, c₁⟩ := res
    dsimp only at hc₁ ⊢
    split
    · exact h.failAuthentication hn _ _ hc₁
    · exact hc₁
  split
  · generalize c.currentTimeMs = res at hc₁ ⊢
    obtain ⟨now, c₁⟩ := res
    dsimp only at hc₁ ⊢
    split
    · exact h.drop hn hc₁
    · exact hc₁
  · exact hc

end Effects

/-! ### A client that is not connected -/

/-- No connection is established and no secure state is left. -/
structure Offline (c : SignalClient) : Prop where
  connected : c.conn.connected = false
  secureReady : c.secureReady = false
  secureMaster : c.secureMaster = []
  roomOperationPending : c.roomOperationPending = false

theorem ResetOf.offline {c c' : SignalClient} (h : ResetOf c c')
    (hconn : c.conn.connected = false) : Offline c' :=
  ⟨by rw [h.conn]; exact hconn, h.secureReady, h.secureMaster, h.roomOperationPending⟩

theorem offline_dropped (c : SignalClient) : Offline c.resetConn.resetSecureState :=
  (resetSecureState_resetOf _).offline rfl

/-- **No call of the application brings a session back**: that takes a new
    connection and its frames. -/
theorem offline_effects (asks : Call → Prop) (sends : List Output → UInt8 → Bytes → Prop) :
    Effects asks sends (fun _ _ => True) Offline where
  plain _ _ _ := trivial
  same hsame h := ⟨hsame.conn ▸ h.connected, hsame.secureReady.trans h.secureReady,
    hsame.secureMaster.trans h.secureMaster,
    hsame.roomOperationPending.trans h.roomOperationPending⟩
  called _ _ h := ⟨h.connected, h.secureReady, h.secureMaster, h.roomOperationPending⟩
  asked _ h := ⟨h.connected, h.secureReady, h.secureMaster, h.roomOperationPending⟩
  dropped _ := offline_dropped _
  connectTo := by
    intro c ok _
    have hconn := connectTo_connectOf c ok
    refine ⟨?_, hconn.secureReady, hconn.secureMaster, hconn.roomOperationPending⟩
    rw [hconn.conn]
    cases ok <;> rfl
  setServerPassword := by
    intro c password h
    unfold SignalClient.setServerPassword
    have h₁ : Offline (if c.authOperation = .serverAuth then { c with
      authTask := none, authOperation := .none }
        else c) := by
      split <;> exact ⟨h.connected, h.secureReady, h.secureMaster, h.roomOperationPending⟩
    generalize (if c.authOperation = .serverAuth then { c with
      authTask := none, authOperation := .none } else c) = c₁
      at h₁ ⊢
    dsimp only
    split
    · have hdrop := offline_dropped { c₁ with serverPassword := password }
      exact ⟨hdrop.connected, hdrop.secureReady, hdrop.secureMaster, hdrop.roomOperationPending⟩
    · exact ⟨h₁.connected, h₁.secureReady, h₁.secureMaster, h₁.roomOperationPending⟩
  startServerAuth _ _ _ _ h := ⟨h.connected, h.secureReady, h.secureMaster, h.roomOperationPending⟩
  roomReady h hroom := absurd (h.roomOperationPending.symm.trans hroom) Bool.false_ne_true
  startRoom hready h := absurd (h.secureReady.symm.trans hready) Bool.false_ne_true
  endRoom h := ⟨h.connected, h.secureReady, h.secureMaster, rfl⟩
  cancel := by
    intro c h
    have hcancel := cancelRoomOperation_cancelOf c
    exact ⟨hcancel.conn ▸ h.connected, hcancel.secureReady.trans h.secureReady,
      hcancel.secureMaster.trans h.secureMaster, hcancel.roomOperationPending⟩
  startCreate hready _ _ _ h := absurd (h.secureReady.symm.trans hready) Bool.false_ne_true
  startJoin hready _ h := absurd (h.secureReady.symm.trans hready) Bool.false_ne_true
  endJoin _ h := ⟨h.connected, h.secureReady, h.secureMaster, h.roomOperationPending⟩
  startRoomPassword _ hready _ h := absurd (h.secureReady.symm.trans hready) Bool.false_ne_true
  send _ _ hready h := absurd (h.secureReady.symm.trans hready) Bool.false_ne_true

theorem offline_drop (hoff : Keeps notify (fun _ _ => True) Offline) (c : SignalClient) :
    Offline (c.drop notify) :=
  (offline_effects (fun _ => True) fun _ _ _ => True).notifyDisconnectedOnce hoff
    (offline_dropped c)

/-- A message leaves the key derivation alone, or the connection is given up. -/
theorem sendMsg_operation (hoff : Keeps notify (fun _ _ => True) Offline) (c : SignalClient)
    (msgType : UInt8) (body : Bytes) :
    Offline (c.sendMsg K notify msgType body) ∨
      (c.sendMsg K notify msgType body).authOperation = c.authOperation := by
  unfold SignalClient.sendMsg
  split
  · exact Or.inr rfl
  split
  · exact Or.inr rfl
  dsimp only
  split
  · exact Or.inl (offline_drop hoff _)
  split
  · exact Or.inr rfl
  · refine Or.inr ?_
    unfold SignalClient.sendFrame
    dsimp only
    split <;> rfl

end SignalClient

end VlanConnect

/-
  VlanConnect/TunnelManager.lean
  ==============================
  **The clients' UDP data plane** (`client-cli/src/cli_tunnel.cpp`,
  `client/src/core/tunnel_manager.cpp`).

  The command-line and the Qt client share the security context: session id,
  master, cipher and the two state machines around it.  They differ in what
  `startDataPlane` asks of the UDP socket and in the checks before a datagram
  is sent.  Peers, transports and the packet counters of the two classes are
  left out: nothing here reads them.

  `installSecureSession` clears the context before it calls
  `SecureFrameCipher::init`, so the cipher's own guard never sees the keys it
  compares with and every accepted install restarts the counters.
-/
import VlanConnect.CounterDiscipline
import VlanConnect.Protocol

namespace VlanConnect

inductive DataPlaneState where
  | stopped
  | running
deriving DecidableEq

inductive DataPlaneSecurityMode where
  | unconfigured
  | secure
deriving DecidableEq

def dataPlaneAllowsTraffic (state : DataPlaneState) (mode : DataPlaneSecurityMode) : Bool :=
  decide (state = .running) && decide (mode = .secure)

def dataPlaneCanReconfigure (state : DataPlaneState) : Bool := decide (state = .stopped)

/-- The fields of both managers that the data plane reads. -/
structure TunnelManager where
  /-- `m_tun`, and whether the adapter is running. -/
  tun : Option Bool := none
  /-- `m_udpFd` is valid; the `QUdpSocket` is bound. -/
  udpOpen : Bool := false
  serverIP : Nat := 0
  serverPort : Nat := 0
  myPeerId : Nat := 0
  myVirtualIP : Nat := 0
  dataPlaneState : DataPlaneState := .stopped
  securityMode : DataPlaneSecurityMode := .unconfigured
  secureSessionId : Nat := 0
  secureMaster : Bytes := []
  udpCipher : SecureFrameCipher := {}
deriving DecidableEq

variable (K : Crypto)

namespace TunnelManager

/-! ### The security context -/

def clearSecurityContext (t : TunnelManager) : TunnelManager :=
  if ¬ dataPlaneCanReconfigure t.dataPlaneState then t
  else
    { t with
      udpCipher := t.udpCipher.reset
      secureSessionId := 0
      secureMaster := []
      securityMode := .unconfigured }

def installSecureSession (t : TunnelManager) (sessionId : Nat) (master : Bytes) :
    Bool × TunnelManager :=
  if ¬ dataPlaneCanReconfigure t.dataPlaneState then (false, t)
  else
    let t := t.clearSecurityContext
    if sessionId = 0 ∨ master.length ≠ SECURE_KEY_SIZE then (false, t)
    else
      (true, { t with
        secureSessionId := sessionId
        secureMaster := master
        udpCipher := t.udpCipher.init K master true "udp"
        securityMode := .secure })

def stopDataPlane (t : TunnelManager) : TunnelManager := { t with dataPlaneState := .stopped }

/-! ### Sending -/

/-- The part of `udpSend` and `sendUdpDatagram` after the first check: the
    datagram handed to the socket, if any. -/
def sendEncrypted (t : TunnelManager) (data : Bytes) : Option Bytes × TunnelManager :=
  if t.securityMode ≠ .secure ∨ t.secureSessionId = 0 ∨ t.secureMaster.length ≠ SECURE_KEY_SIZE then
    (none, t)
  else
    let (enc, udpCipher) := t.udpCipher.encrypt K data []
    let t := { t with udpCipher := udpCipher }
    -- a used-up session stops the data plane and asks for fresh keys
    if enc = [] then (none, t.stopDataPlane)
    else (some (UDP_ENCRYPTED :: writeU32BE t.secureSessionId ++ enc), t)

end TunnelManager

/-- `CliTunnelManager::udpSend`. -/
def CliTunnelManager.udpSend (t : TunnelManager) (data : Bytes) : Option Bytes × TunnelManager :=
  if ¬ dataPlaneAllowsTraffic t.dataPlaneState t.securityMode ∨ ¬ t.udpOpen then (none, t)
  else t.sendEncrypted K data

def TunnelManager.sendUdpDatagram (t : TunnelManager) (data : Bytes) :
    Option Bytes × TunnelManager :=
  if ¬ dataPlaneAllowsTraffic t.dataPlaneState t.securityMode then (none, t)
  else t.sendEncrypted K data

/-- `sendUdpKeepalive` and `onUdpKeepalive`, over the send function. -/
def TunnelManager.keepalive (send : TunnelManager → Bytes → Option Bytes × TunnelManager)
    (t : TunnelManager) : Option Bytes × TunnelManager :=
  if t.dataPlaneState ≠ .running ∨ t.securityMode = .unconfigured then (none, t)
  else if t.serverIP = 0 ∨ t.serverPort = 0 then (none, t)
  else send t [UDP_KEEPALIVE]

def CliTunnelManager.sendUdpKeepalive (t : TunnelManager) : Option Bytes × TunnelManager :=
  t.keepalive (udpSend K)

def TunnelManager.onUdpKeepalive (t : TunnelManager) : Option Bytes × TunnelManager :=
  t.keepalive (sendUdpDatagram K)

/-! ### Starting

  `bindOk` is what creating or binding the UDP socket returns. -/

def CliTunnelManager.startDataPlane (t : TunnelManager) (requiresUdp bindOk : Bool) :
    Option Bytes × TunnelManager :=
  if t.dataPlaneState = .running then (none, t)
  else if t.tun ≠ some true ∨ t.securityMode = .unconfigured ∨ t.myPeerId = 0 ∨
      t.myVirtualIP = 0 ∨ t.serverIP = 0 ∨ t.serverPort = 0 then (none, t)
  else if requiresUdp ∧ ¬ t.udpOpen ∧ ¬ bindOk then (none, t)
  else
    let t := { t with
      udpOpen := t.udpOpen || requiresUdp
      dataPlaneState := .running }
    if requiresUdp then sendUdpKeepalive K t else (none, t)

def TunnelManager.startDataPlane (t : TunnelManager) (requiresUdp bindOk : Bool) :
    Option Bytes × TunnelManager :=
  if t.dataPlaneState = .running then (none, t)
  else if t.tun = none ∨ t.securityMode = .unconfigured ∨ t.serverIP = 0 ∨ t.serverPort = 0 ∨
      t.myPeerId = 0 ∨ t.myVirtualIP = 0 then (none, t)
  else if ¬ t.udpOpen ∧ ¬ bindOk ∧ requiresUdp then (none, t)
  else
    let t := { t with
      udpOpen := t.udpOpen || bindOk
      dataPlaneState := .running }
    if requiresUdp then t.onUdpKeepalive K else (none, t)

/-! ### Receiving -/

/-- One datagram of `onUdpReadable` and `onUdpReadyRead`, up to the dispatch on
    the inner packet: the frame that passed the cipher, with its text. -/
def TunnelManager.onDatagram (t : TunnelManager) (senderIP senderPort : Nat) (datagram : Bytes) :
    Option (Bytes × Bytes) × TunnelManager :=
  if ¬ dataPlaneAllowsTraffic t.dataPlaneState t.securityMode then (none, t)
  else if senderIP ≠ t.serverIP ∨ senderPort ≠ t.serverPort then (none, t)
  else if datagram.head? ≠ some UDP_ENCRYPTED then (none, t)
  else if datagram.length < 1 + SECURE_SESSION_ID_SIZE + SECURE_FRAME_OVERHEAD then (none, t)
  else if readU32BE (datagram.drop 1) ≠ t.secureSessionId then (none, t)
  else
    let frame := datagram.drop (1 + SECURE_SESSION_ID_SIZE)
    let (plain, udpCipher) := t.udpCipher.decrypt K frame []
    (plain.map fun p => (frame, p), { t with udpCipher := udpCipher })

/-- `CliTunnelManager::onUdpReadable` also asks for an open socket. -/
def CliTunnelManager.onDatagram (t : TunnelManager) (senderIP senderPort : Nat) (datagram : Bytes) :
    Option (Bytes × Bytes) × TunnelManager :=
  if ¬ t.udpOpen then (none, t) else t.onDatagram K senderIP senderPort datagram

/-! ### Call sequences -/

inductive TunnelClient where
  | cli
  | gui
deriving DecidableEq

inductive TunnelCall where
  | configure (tun : Option Bool) (serverIP serverPort myPeerId myVirtualIP : Nat)
  | installSecureSession (sessionId : Nat) (master : Bytes)
  | startDataPlane (requiresUdp bindOk : Bool)
  | stopDataPlane
  | udpSend (data : Bytes)
  | datagram (senderIP senderPort : Nat) (bytes : Bytes)

/-- The manager with the counters of the datagrams it encrypted and of those
    it accepted, latest first. -/
structure TunnelRun where
  manager : TunnelManager := {}
  sent : List Nat := []
  accepted : List Nat := []

namespace TunnelRun

/-- The counter of the frame inside a datagram. -/
def frameCounter (datagram : Bytes) : Nat := readU64BE (datagram.drop (1 + SECURE_SESSION_ID_SIZE))

def recordSent (r : TunnelRun) (out : Option Bytes × TunnelManager) : TunnelRun :=
  { r with manager := out.2, sent := (out.1.map frameCounter).toList ++ r.sent }

def recordAccepted (r : TunnelRun) (out : Option (Bytes × Bytes) × TunnelManager) : TunnelRun :=
  { r with
    manager := out.2
    accepted := (out.1.map fun (frame, _) => readU64BE frame).toList ++ r.accepted }

def call (v : TunnelClient) (r : TunnelRun) : TunnelCall → TunnelRun
  | .configure tun serverIP serverPort myPeerId myVirtualIP =>
    { r with manager := { r.manager with
        tun := tun, serverIP := serverIP, serverPort := serverPort
        myPeerId := myPeerId, myVirtualIP := myVirtualIP } }
  | .installSecureSession sessionId master =>
    { r with manager := (r.manager.installSecureSession K sessionId master).2 }
  | .startDataPlane requiresUdp bindOk =>
    r.recordSent (match v with
      | .cli => CliTunnelManager.startDataPlane K r.manager requiresUdp bindOk
      | .gui => r.manager.startDataPlane K requiresUdp bindOk)
  | .stopDataPlane => { r with manager := r.manager.stopDataPlane }
  | .udpSend data =>
    r.recordSent (match v with
      | .cli => CliTunnelManager.udpSend K r.manager data
      | .gui => r.manager.sendUdpDatagram K data)
  | .datagram senderIP senderPort bytes =>
    r.recordAccepted (match v with
      | .cli => CliTunnelManager.onDatagram K r.manager senderIP senderPort bytes
      | .gui => r.manager.onDatagram K senderIP senderPort bytes)

def callAll (v : TunnelClient) (r : TunnelRun) (calls : List TunnelCall) : TunnelRun :=
  calls.foldl (call K v) r

/-! ### What one call does to the cipher -/

/-- The manager keeps its cipher, encrypts one datagram with it, or uses up a
    call without a frame. -/
inductive Sends (t : TunnelManager) : Option Bytes × TunnelManager → Prop where
  | quiet {t' : TunnelManager} (h : t'.udpCipher = t.udpCipher) : Sends t (none, t')
  | frame {t' : TunnelManager} {sessionId data enc : Bytes} (hid : sessionId.length = 4)
      (h : t.udpCipher.encrypt K data [] = (enc, t'.udpCipher)) (hne : enc ≠ []) :
      Sends t (some (UDP_ENCRYPTED :: sessionId ++ enc), t')

variable {K}

theorem sendEncrypted_sends (t : TunnelManager) (data : Bytes) :
    Sends K t (t.sendEncrypted K data) := by
  unfold TunnelManager.sendEncrypted
  split
  · exact .quiet rfl
  · rcases henc : t.udpCipher.encrypt K data [] with ⟨enc, cipher⟩
    dsimp only
    split
    case isTrue hnil =>
      rcases t.udpCipher.encrypt_cases K data [] with h | ⟨_, _, h⟩
      · rw [henc] at h
        cases h
        exact .quiet rfl
      · rw [henc] at h
        cases h
        exact absurd hnil (SecureFrameCipher.lockFrame_ne_nil K _ _ _ _ _)
    case isFalse hne => exact .frame (BigEndian.length_encode _ _) henc hne

theorem Sends.of_cipher {t t₁ : TunnelManager} {out : Option Bytes × TunnelManager}
    (h : Sends K t₁ out) (heq : t₁.udpCipher = t.udpCipher) : Sends K t out := by
  cases h with
  | quiet h => exact .quiet (h.trans heq)
  | frame hid h hne => exact .frame hid (heq ▸ h) hne

theorem udpSend_sends (t : TunnelManager) (data : Bytes) :
    Sends K t (CliTunnelManager.udpSend K t data) := by
  unfold CliTunnelManager.udpSend
  split
  · exact .quiet rfl
  · exact sendEncrypted_sends t data

theorem sendUdpDatagram_sends (t : TunnelManager) (data : Bytes) :
    Sends K t (t.sendUdpDatagram K data) := by
  unfold TunnelManager.sendUdpDatagram
  split
  · exact .quiet rfl
  · exact sendEncrypted_sends t data

theorem keepalive_sends {send : TunnelManager → Bytes → Option Bytes × TunnelManager}
    (hsend : ∀ t data, Sends K t (send t data)) (t : TunnelManager) :
    Sends K t (t.keepalive send) := by
  unfold TunnelManager.keepalive
  split
  · exact .quiet rfl
  · split
    · exact .quiet rfl
    · exact hsend t _

theorem cli_startDataPlane_sends (t : TunnelManager) (requiresUdp bindOk : Bool) :
    Sends K t (CliTunnelManager.startDataPlane K t requiresUdp bindOk) := by
  unfold CliTunnelManager.startDataPlane
  repeat' split
  all_goals first
    | exact .quiet rfl
    | exact (keepalive_sends udpSend_sends _).of_cipher rfl

theorem startDataPlane_sends (t : TunnelManager) (requiresUdp bindOk : Bool) :
    Sends K t (t.startDataPlane K requiresUdp bindOk) := by
  unfold TunnelManager.startDataPlane
  repeat' split
  all_goals first
    | exact .quiet rfl
    | exact (keepalive_sends sendUdpDatagram_sends _).of_cipher rfl

/-- A datagram leaves the cipher alone or is one `decrypt` call on its frame. -/
theorem onDatagram_cases (t : TunnelManager) (senderIP senderPort : Nat) (datagram : Bytes) :
    t.onDatagram K senderIP senderPort datagram = (none, t) ∨
      ∃ frame, t.onDatagram K senderIP senderPort datagram =
        ((t.udpCipher.decrypt K frame []).1.map fun p => (frame, p),
          { t with udpCipher := (t.udpCipher.decrypt K frame []).2 }) := by
  unfold TunnelManager.onDatagram
  repeat' split
  all_goals first
    | exact Or.inl rfl
    | exact Or.inr ⟨_, rfl⟩

/-- An install is refused while the data plane runs; any other one leaves a
    cipher that has not been used, whatever the cipher was. -/
theorem installSecureSession_cases (t : TunnelManager) (sessionId : Nat) (master : Bytes) :
    dataPlaneCanReconfigure t.dataPlaneState = false ∧
        (t.installSecureSession K sessionId master).2 = t ∨
      dataPlaneCanReconfigure t.dataPlaneState = true ∧
        (t.installSecureSession K sessionId master).2.udpCipher.sendCounter = 0 ∧
        (t.installSecureSession K sessionId master).2.udpCipher.recvStarted = false := by
  unfold TunnelManager.installSecureSession TunnelManager.clearSecurityContext
  by_cases hstop : dataPlaneCanReconfigure t.dataPlaneState = true
  · refine Or.inr ⟨hstop, ?_⟩
    simp only [hstop, not_true_eq_false, if_false]
    split
    · exact ⟨rfl, rfl⟩
    · -- the guard of `init` compares with keys that were just wiped
      have hwiped : ¬ (t.udpCipher.reset).Installed K master true "udp" := by
        rintro ⟨hinit, _⟩
        cases hinit
      dsimp only
      rw [SecureFrameCipher.init_eq, if_neg hwiped]
      exact ⟨rfl, rfl⟩
  · have hrun : dataPlaneCanReconfigure t.dataPlaneState = false := by simpa using hstop
    exact Or.inl ⟨hrun, by simp [hrun]⟩

/-! ### Counters over a run -/

/-- The counters sent are those below the send counter, and the window tracks
    the accepted ones. -/
structure Inv (r : TunnelRun) : Prop where
  counter : r.manager.udpCipher.sendCounter = r.sent.length
  bound : r.sent.length ≤ UINT64_MAX
  sent : r.sent = (List.range r.sent.length).reverse
  tracks : Window.Tracks REPLAY_WINDOW r.manager.udpCipher.toWindow r.accepted
  nodup : r.accepted.Nodup

theorem frameCounter_lockFrame {sessionId : Bytes} (hid : sessionId.length = 4) (key seed : Bytes)
    {ctr : Nat} (hctr : ctr < 2 ^ 64) (ad plain : Bytes) :
    frameCounter
    (UDP_ENCRYPTED :: sessionId ++ SecureFrameCipher.lockFrame K key seed ctr ad plain) =
      ctr := by
  unfold frameCounter
  have hlen : (UDP_ENCRYPTED :: sessionId).length = 1 + SECURE_SESSION_ID_SIZE := by
    simp [hid, SECURE_SESSION_ID_SIZE]
  rw [List.drop_left' hlen]
  exact SecureFrameCipher.readU64BE_lockFrame K key seed hctr ad plain

theorem recordSent_inv {r : TunnelRun} (h : r.Inv) {out : Option Bytes × TunnelManager}
    (hout : Sends K r.manager out) : (r.recordSent out).Inv := by
  cases hout with
  | quiet heq =>
    unfold recordSent
    refine ⟨?_, h.bound, h.sent, ?_, h.nodup⟩
    · exact (congrArg _ heq).trans h.counter
    · dsimp only
      rw [heq]
      exact h.tracks
  | @frame t' sessionId data enc hid henc hne =>
    rcases r.manager.udpCipher.encrypt_cases K data [] with hnil | ⟨_, hctr, hlock⟩
    · rw [henc] at hnil
      exact absurd (Prod.mk.inj hnil).1 hne
    · rw [henc] at hlock
      obtain ⟨rfl, hcipher⟩ := Prod.mk.inj hlock
      have hbound := h.bound
      have hcounter := h.counter
      have hlt : r.manager.udpCipher.sendCounter < 2 ^ 64 := by
        unfold UINT64_MAX at hbound
        omega
      have hfc := frameCounter_lockFrame (K := K) hid r.manager.udpCipher.sendKey
        r.manager.udpCipher.sendNonceSeed hlt [] data
      unfold recordSent
      simp only [Option.map_some, Option.toList_some, hfc]
      refine ⟨by simp [hcipher, hcounter], ?_, ?_, ?_, h.nodup⟩
      · simp only [List.singleton_append, List.length_cons]
        omega
      · simp only [List.singleton_append, List.length_cons, List.range_succ, List.reverse_append,
          List.reverse_singleton, hcounter]
        rw [← h.sent]
      · dsimp only
        rw [hcipher]
        exact h.tracks

theorem onDatagram_inv {r : TunnelRun} (h : r.Inv) (senderIP senderPort : Nat) (datagram : Bytes) :
    (r.recordAccepted (r.manager.onDatagram K senderIP senderPort datagram)).Inv := by
  rcases onDatagram_cases (K := K) r.manager senderIP senderPort datagram with hout | ⟨frame, hout⟩
  · rw [hout]
    exact h
  · rw [hout]
    rcases r.manager.udpCipher.decrypt_cases K frame [] with hd | ⟨plain, hd⟩
    · rw [hd]
      exact h
    · have hinit := SecureFrameCipher.initialized_of_decrypt K (by rw [hd])
      have hadm :=
        ((SecureFrameCipher.decrypt_eq_some_iff K hinit frame [] plain).mp (by rw [hd])).1
      have hsend :=
        (SecureFrameCipher.recordCounter_sameKeys r.manager.udpCipher (readU64BE frame)).2
      rw [hd]
      exact ⟨hsend.trans h.counter, h.bound, h.sent,
        Window.tracks_of_records (by decide) h.tracks hadm
          (SecureFrameCipher.recordCounter_records hadm),
        List.nodup_cons.mpr ⟨h.tracks.not_mem hadm, h.nodup⟩⟩

/-- The step keeps the counters in use: an install is refused, or nothing was
    sent or accepted yet. -/
def FreshInstall (t : TunnelManager) : TunnelCall → Prop
  | .installSecureSession _ _ => dataPlaneCanReconfigure t.dataPlaneState = true →
      t.udpCipher.sendCounter = 0 ∧ t.udpCipher.recvStarted = false
  | _ => True

theorem call_inv {v : TunnelClient} {r : TunnelRun} (h : r.Inv) {c : TunnelCall}
    (hc : FreshInstall r.manager c) : (r.call K v c).Inv := by
  cases c with
  | configure => exact ⟨h.counter, h.bound, h.sent, h.tracks, h.nodup⟩
  | stopDataPlane => exact ⟨h.counter, h.bound, h.sent, h.tracks, h.nodup⟩
  | installSecureSession sessionId master =>
    unfold call
    rcases installSecureSession_cases (K := K) r.manager sessionId master with
      ⟨_, hsame⟩ | ⟨hstop, hctr, hstart⟩
    · dsimp only
      rw [hsame]
      exact h
    · obtain ⟨hzero, hidle⟩ := hc hstop
      have hsent : r.sent = [] := List.length_eq_zero_iff.mp (h.counter.symm.trans hzero)
      have haccepted : r.accepted = [] := by
        by_contra hne
        have := h.tracks.started.mpr hne
        rw [show r.manager.udpCipher.toWindow.started = false from hidle] at this
        cases this
      dsimp only
      refine ⟨?_, h.bound, h.sent, ?_, h.nodup⟩
      · dsimp only
        rw [hctr, hsent]
        rfl
      · rw [haccepted]
        exact Window.tracks_nil _ hstart
  | startDataPlane requiresUdp bindOk =>
    cases v with
    | cli => exact recordSent_inv h (cli_startDataPlane_sends r.manager requiresUdp bindOk)
    | gui => exact recordSent_inv h (startDataPlane_sends r.manager requiresUdp bindOk)
  | udpSend data =>
    cases v with
    | cli => exact recordSent_inv h (udpSend_sends r.manager data)
    | gui => exact recordSent_inv h (sendUdpDatagram_sends r.manager data)
  | datagram senderIP senderPort bytes =>
    cases v with
    | cli =>
      unfold call CliTunnelManager.onDatagram
      dsimp only
      split
      · exact h
      · exact onDatagram_inv h senderIP senderPort bytes
    | gui => exact onDatagram_inv h senderIP senderPort bytes

variable (K)

/-- Every install of the sequence is a `FreshInstall` where it is made. -/
def FreshInstalls (v : TunnelClient) : TunnelRun → List TunnelCall → Prop
  | _, [] => True
  | r, c :: cs => FreshInstall r.manager c ∧ FreshInstalls v (r.call K v c) cs

/-- **Nonce uniqueness of the data plane.**  In every sequence of calls in which
    no install is accepted once the cipher has been used, no counter is used
    for two datagrams and none is accepted twice, in both clients. -/
theorem udp_counters_unique (v : TunnelClient) (calls : List TunnelCall)
    (hfresh : FreshInstalls K v {} calls) :
    (callAll K v {} calls).sent.Nodup ∧ (callAll K v {} calls).accepted.Nodup := by
  have hrun : ∀ (calls : List TunnelCall) (r : TunnelRun), r.Inv → FreshInstalls K v r calls →
      (callAll K v r calls).Inv := by
    intro calls
    induction calls with
    | nil => exact fun r h _ => h
    | cons c cs ih => exact fun r h hf => ih (r.call K v c) (call_inv h hf.1) hf.2
  have hstart : ({} : TunnelRun).Inv :=
    ⟨rfl, Nat.zero_le _, rfl, Window.tracks_nil _ rfl, List.nodup_nil⟩
  have hinv := hrun calls {} hstart hfresh
  refine ⟨?_, hinv.nodup⟩
  rw [hinv.sent]
  exact List.nodup_reverse.mpr List.nodup_range

/-- The session installed once, used, stopped and used again. -/
theorem udp_counters_unique_once :
    let calls := [TunnelCall.configure (some true) 1 2 3 4,
      .installSecureSession 5 (List.replicate 32 6),
      .startDataPlane true true, .udpSend [7], .stopDataPlane, .startDataPlane true true]
    FreshInstalls Crypto.sample .cli {} calls ∧
    (callAll Crypto.sample .cli {} calls).sent.Nodup := by
  intro calls
  have hfresh : FreshInstalls Crypto.sample .cli {} calls :=
    ⟨trivial, fun _ => ⟨rfl, rfl⟩, trivial, trivial, trivial, trivial, trivial⟩
  exact ⟨hfresh, (udp_counters_unique Crypto.sample .cli calls hfresh).1⟩

/-- A second install of the same session between two uses: in both clients the
    keepalive of the second start repeats counter 0, and a datagram accepted
    before the reinstall is accepted again after it. -/
theorem reinstall_repeats_counters :
    let master := List.replicate 32 (6 : UInt8)
    let key := deriveSecureKey Crypto.sample master "VLan-udp-s2c-key"
    let seed := (deriveSecureKey Crypto.sample master "VLan-udp-s2c-nonce").take 16
    let datagram := UDP_ENCRYPTED :: writeU32BE 5 ++
      SecureFrameCipher.lockFrame Crypto.sample key seed 8 [] [9]
    let calls := [TunnelCall.configure (some true) 1 2 3 4,
      .installSecureSession 5 master, .startDataPlane true true, .datagram 1 2 datagram,
      .stopDataPlane,
      .installSecureSession 5 master, .startDataPlane true true, .datagram 1 2 datagram]
    (callAll Crypto.sample .cli {} calls).sent = [0, 0] ∧
    (callAll Crypto.sample .cli {} calls).accepted = [8, 8] ∧
    (callAll Crypto.sample .gui {} calls).sent = [0, 0] ∧
    (callAll Crypto.sample .gui {} calls).accepted = [8, 8] := by
  decide +kernel

end TunnelRun

end VlanConnect

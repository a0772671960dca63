/-
  VlanConnect/Client/ReconnectTimers.lean
  =======================================
  **Three timers on the 32-bit clock of the command line client**
  (`client-cli/src/cli_net.cpp`, `client-cli/src/cli_app.cpp`).

  The data channel and the event loop compare the clock with the time of their
  next attempt as numbers.  That is right exactly when the clock does not wrap
  between the two; otherwise the attempt is made at once, or not before the
  clock comes around again.  The resume lease takes the sign of the difference,
  which a wrap does not disturb, but it keeps `0` for a deadline that is not
  set: a lease whose deadline falls on `0` never expires.
-/
import VlanConnect.Lib.WrapClock
import VlanConnect.Protocol

namespace VlanConnect

def RECONNECT_INTERVAL_MS : UInt32 := 3000
def TCP_RELAY_DEAD_MS : UInt32 := 30000

/-! ### The data channel -/

structure CliDataChannel where
  host : Bytes := []
  port : UInt16 := 0
  peerId : UInt32 := 0
  configured : Bool := true
  /-- The socket is open. -/
  fd : Bool := false
  lastRecvTime : UInt32 := 0
  established : Bool := false
  needReconnect : Bool := false
  sendFailurePending : Bool := false
  reconnectTime : UInt32 := 0

inductive ChannelEffect where
  | connectTo (host : Bytes) (port : UInt16) (peerId : UInt32)
  | reset
  | disconnected
deriving DecidableEq

namespace CliDataChannel

def scheduleReconnect (c : CliDataChannel) (now : UInt32) : CliDataChannel :=
  { c with needReconnect := true, reconnectTime := now + RECONNECT_INTERVAL_MS }

/-- `opens` says whether the socket could be made. -/
def connectTo (c : CliDataChannel) (host : Bytes) (port : UInt16) (peerId : UInt32) (opens : Bool) :
    CliDataChannel :=
  if c.configured then
    { c with
      host := host, port := port, peerId := peerId, established := false, needReconnect := false,
      fd := opens }
  else c

/-- The attempt that is due. -/
def attemptReconnect (c : CliDataChannel) (now : UInt32) (opens : Bool) :
    List ChannelEffect × CliDataChannel :=
  if c.needReconnect && decide (now ≥ c.reconnectTime) then
    let c := { c with needReconnect := false }
    if c.peerId ≠ 0 ∧ c.fd = false then
      ([.connectTo c.host c.port c.peerId], c.connectTo c.host c.port c.peerId opens)
    else ([], c)
  else ([], c)

/-- `now` and `later` are what the clock shows before and after the attempt. -/
def checkTimeouts (c : CliDataChannel) (now later : UInt32) (opens : Bool) :
    List ChannelEffect × CliDataChannel :=
  if c.sendFailurePending then
    ([.reset, .disconnected],
      { c with
        sendFailurePending := false, fd := false, established := false }.scheduleReconnect now)
  else
    let (effects, c) := c.attemptReconnect now opens
    if c.established && decide (later - c.lastRecvTime > TCP_RELAY_DEAD_MS) then
      (effects ++ [.reset, .disconnected],
        { c with fd := false, established := false }.scheduleReconnect later)
    else (effects, c)

end CliDataChannel

/-! ### The event loop and the resume lease -/

structure CliApp where
  authRetryBlocked : Bool := false
  wantReconnect : Bool := false
  /-- A cleanup of the adapter is still going on. -/
  tunJob : Bool := false
  /-- The signaling socket is open. -/
  signalFd : Bool := false
  nextReconnectTime : UInt32 := 0
  reconnectAttempts : Nat := 0
  pendingResumeRoom : Bool := false
  hasResumeLease : Bool := false
  resumeRoomId : UInt32 := 0
  resumePeerId : UInt32 := 0
  resumeVirtualIP : UInt32 := 0
  resumeLeaseDeadlineMs : UInt32 := 0
  resumeToken : Bytes := []

inductive AppEffect where
  | doConnect
  | stopped
deriving DecidableEq

namespace CliApp

def MAX_RECONNECT_ATTEMPTS : Nat := 5

/-- A set deadline that is not ahead of the clock. -/
def deadlineReached (now deadlineMs : UInt32) : Bool :=
  decide (deadlineMs ≠ 0) && decide (0 ≤ (now - deadlineMs).toInt32.toInt)

def clearResumeLease (a : CliApp) : CliApp :=
  { a with
    hasResumeLease := false, resumeRoomId := 0, resumePeerId := 0, resumeVirtualIP := 0,
    resumeLeaseDeadlineMs := 0
    resumeToken := [] }

def startResumeLeaseDeadline (a : CliApp) (now : UInt32) : CliApp :=
  if !a.hasResumeLease || a.resumeToken.length != RECONNECT_TOKEN_SIZE then a
  else { a with resumeLeaseDeadlineMs := now + UInt32.ofNat (RECONNECT_LEASE_TIMEOUT_SEC * 1000) }

def expireResumeLeaseIfNeeded (a : CliApp) (now : UInt32) : CliApp :=
  if deadlineReached now a.resumeLeaseDeadlineMs then a.clearResumeLease else a

def hasUsableResumeLease (a : CliApp) (now : UInt32) : Bool × CliApp :=
  let a := a.expireResumeLeaseIfNeeded now
  (a.hasResumeLease && a.resumeToken.length == RECONNECT_TOKEN_SIZE &&
    !deadlineReached now a.resumeLeaseDeadlineMs, a)

/-- `m_nextReconnectTime = currentTimeMs() + delay`, as it stands at each place that
    schedules an attempt. -/
def scheduleReconnect (a : CliApp) (now delay : UInt32) : CliApp :=
  { a with nextReconnectTime := now + delay }

/-- The branch of the event loop. -/
def autoReconnect (a : CliApp) (now : UInt32) : List AppEffect × CliApp :=
  if !a.authRetryBlocked && a.wantReconnect && !a.tunJob && !a.signalFd &&
      decide (now ≥ a.nextReconnectTime) then
    if a.reconnectAttempts ≥ MAX_RECONNECT_ATTEMPTS then
      ([.stopped],
        { a with wantReconnect := false, pendingResumeRoom := false }.expireResumeLeaseIfNeeded now)
    else ([.doConnect], { a with reconnectAttempts := a.reconnectAttempts + 1 })
  else ([], a)

/-- Nothing but the time is missing for the next attempt. -/
structure Armed (a : CliApp) : Prop where
  free : a.authRetryBlocked = false
  wanted : a.wantReconnect = true
  cleaned : a.tunJob = false
  closed : a.signalFd = false
  attempts : a.reconnectAttempts < MAX_RECONNECT_ATTEMPTS

end CliApp

/-! ### When they fire -/

section Timers

variable {t d w : UInt32}

/-- The data channel fires by the raw comparison. -/
theorem CliDataChannel.connects_iff {c : CliDataChannel} (hsent : c.sendFailurePending = false)
    (hpeer : c.peerId ≠ 0) (hfd : c.fd = false) (now later : UInt32) (opens : Bool) :
    .connectTo c.host c.port c.peerId ∈ ((c.scheduleReconnect t).checkTimeouts now later opens).1 ↔
      t + RECONNECT_INTERVAL_MS ≤ now := by
  have hattempt : ((c.scheduleReconnect t).attemptReconnect now opens).1 =
      if t + RECONNECT_INTERVAL_MS ≤ now then [.connectTo c.host c.port c.peerId] else [] := by
    unfold attemptReconnect
    by_cases hdue : t + RECONNECT_INTERVAL_MS ≤ now
    · simp [scheduleReconnect, hdue, hpeer, hfd]
    · simp [scheduleReconnect, hdue]
  unfold checkTimeouts
  rw [show (c.scheduleReconnect t).sendFailurePending = false from hsent]
  simp only [Bool.false_eq_true, if_false]
  split
  · rw [List.mem_append, hattempt]
    by_cases hdue : t + RECONNECT_INTERVAL_MS ≤ now
    · simp [hdue]
    · simp [hdue]
  · rw [hattempt]
    by_cases hdue : t + RECONNECT_INTERVAL_MS ≤ now
    · simp [hdue]
    · simp [hdue]

/-- So does the event loop. -/
theorem CliApp.doConnect_iff {a : CliApp} (h : a.Armed) (now : UInt32) :
    .doConnect ∈ ((a.scheduleReconnect t w).autoReconnect now).1 ↔ t + w ≤ now := by
  unfold autoReconnect
  have hattempts : ¬ a.reconnectAttempts ≥ MAX_RECONNECT_ATTEMPTS := Nat.not_le.mpr h.attempts
  by_cases hdue : t + w ≤ now
  · simp [scheduleReconnect, h.free, h.wanted, h.cleaned, h.closed, hdue, hattempts]
  · simp [scheduleReconnect, hdue]

/-- The lease expires by the deadline. -/
theorem CliApp.unusable_iff {a : CliApp} (hlease : a.hasResumeLease = true)
    (htoken : a.resumeToken.length = RECONNECT_TOKEN_SIZE) (now : UInt32) :
    ((a.startResumeLeaseDeadline t).hasUsableResumeLease now).1 = false ↔
      deadlineReached now (t + UInt32.ofNat (RECONNECT_LEASE_TIMEOUT_SEC * 1000)) = true := by
  unfold hasUsableResumeLease expireResumeLeaseIfNeeded
  have hstart : a.startResumeLeaseDeadline t =
      { a with
        resumeLeaseDeadlineMs := t + UInt32.ofNat (RECONNECT_LEASE_TIMEOUT_SEC * 1000) } := by
    simp [startResumeLeaseDeadline, hlease, htoken]
  rw [hstart]
  generalize t + UInt32.ofNat (RECONNECT_LEASE_TIMEOUT_SEC * 1000) = deadline
  cases hreached : deadlineReached now deadline with
  | true => simp [clearResumeLease]
  | false => simp [hreached, hlease, htoken]

theorem CliApp.deadlineReached_iff (hd : d.toNat < 2 ^ 31) (hw : w.toNat ≤ 2 ^ 31) :
    deadlineReached (t + d) (t + w) = true ↔ t + w ≠ 0 ∧ w ≤ d := by
  unfold deadlineReached
  rw [Bool.and_eq_true, decide_eq_true_eq, decide_eq_true_eq, WrapClock.due_iff_nonneg hw hd]

end Timers

/-- **When the three timers are right**: the attempts of the data channel and of the event
loop, when the clock is in the same lap at the scheduled time as now; the resume lease,
unless its deadline falls on zero and is over. -/
theorem timers_right_iff (t d w : UInt32) (hd : d.toNat < 2 ^ 31) :
    (∀ (c : CliDataChannel) (later : UInt32) (opens : Bool), c.sendFailurePending = false →
      c.peerId ≠ 0 → c.fd = false →
      ((.connectTo c.host c.port c.peerId ∈
        ((c.scheduleReconnect t).checkTimeouts (t + d) later opens).1 ↔ 3000 ≤ d) ↔
        (t.toNat + 3000 < 2 ^ 32 ↔ t.toNat + d.toNat < 2 ^ 32))) ∧
    (∀ a : CliApp, a.Armed →
      ((.doConnect ∈ ((a.scheduleReconnect t w).autoReconnect (t + d)).1 ↔ w ≤ d) ↔
        (t.toNat + w.toNat < 2 ^ 32 ↔ t.toNat + d.toNat < 2 ^ 32))) ∧
    ∀ a : CliApp, a.hasResumeLease = true → a.resumeToken.length = RECONNECT_TOKEN_SIZE →
      ((((a.startResumeLeaseDeadline t).hasUsableResumeLease (t + d)).1 = false ↔ 120000 ≤ d) ↔
        t.toNat + 120000 ≠ 2 ^ 32 ∨ d.toNat < 120000) := by
  refine ⟨?_, ?_, ?_⟩
  · intro c later opens hsent hpeer hfd
    rw [CliDataChannel.connects_iff hsent hpeer hfd]
    exact WrapClock.raw_due_iff
  · intro a harmed
    rw [CliApp.doConnect_iff harmed]
    exact WrapClock.raw_due_iff
  · intro a hlease htoken
    rw [CliApp.unusable_iff hlease htoken, CliApp.deadlineReached_iff hd (by decide)]
    have ht := t.toNat_lt
    have hzero : t + UInt32.ofNat (RECONNECT_LEASE_TIMEOUT_SEC * 1000) = 0 ↔
        t.toNat + 120000 = 2 ^ 32 := by
      rw [← UInt32.toNat_inj, UInt32.toNat_add]
      change (t.toNat + 120000) % 2 ^ 32 = 0 ↔ _
      omega
    have hle : UInt32.ofNat (RECONNECT_LEASE_TIMEOUT_SEC * 1000) ≤ d ↔ 120000 ≤ d.toNat := by
      rw [UInt32.le_iff_toNat_le]
      rfl
    have hlit : (120000 : UInt32) ≤ d ↔ 120000 ≤ d.toNat := by
      rw [UInt32.le_iff_toNat_le]
      rfl
    rw [ne_eq, hzero, hle, hlit]
    omega

/-- An attempt of either timer 1 ms after it was scheduled, 1 s before the wrap; and a
    lease that does not expire. -/
theorem timers_wrong_at_wrap :
    let c : CliDataChannel := { peerId := 1 }
    let a :
    CliApp := { wantReconnect := true, hasResumeLease := true, resumeToken := List.replicate 32 0 }
    .connectTo c.host c.port c.peerId ∈
    ((c.scheduleReconnect 4294966296).checkTimeouts (4294966296 + 1) 0 true).1 ∧
      .doConnect ∈ ((a.scheduleReconnect 4294966296 3000).autoReconnect (4294966296 + 1)).1 ∧
      ((a.startResumeLeaseDeadline 4294847296).hasUsableResumeLease (4294847296 + 120000)).1 =
      true := by
  refine ⟨?_, ?_, ?_⟩
  · rw [CliDataChannel.connects_iff rfl (by decide) rfl]
    decide
  · rw [CliApp.doConnect_iff ⟨rfl, rfl, rfl, rfl, by decide⟩]
    decide
  · rw [← Bool.not_eq_false, CliApp.unusable_iff rfl (by decide),
      CliApp.deadlineReached_iff (by decide) (by decide)]
    decide

/-- Away from the wrap the three timers are right. -/
theorem timers_right_iff_early :
    (.connectTo [] 0 1 ∈ ((CliDataChannel.scheduleReconnect { peerId := 1 } 1000).checkTimeouts
      (1000 + 3000) 0 true).1 ↔
      (3000 : UInt32) ≤ 3000) ∧
    (.doConnect ∈ ((CliApp.scheduleReconnect { wantReconnect := true } 1000 800).autoReconnect
      (1000 + 3000)).1 ↔
      (800 : UInt32) ≤ 3000) ∧
    (((CliApp.startResumeLeaseDeadline
      { hasResumeLease := true, resumeToken := List.replicate 32 0 }
        1000).hasUsableResumeLease (1000 + 3000)).1 = false ↔ (120000 : UInt32) ≤ 3000) := by
  obtain ⟨hchannel, happ, hlease⟩ := timers_right_iff 1000 3000 800 (by decide)
  refine ⟨?_, ?_, ?_⟩
  · exact (hchannel { peerId := 1 } 0 true rfl (by decide) rfl).mpr (by decide)
  · exact (happ { wantReconnect := true } ⟨rfl, rfl, rfl, rfl, by decide⟩).mpr (by decide)
  · exact (hlease { hasResumeLease := true, resumeToken := List.replicate 32 0 } rfl
      (by decide)).mpr (by decide)

end VlanConnect

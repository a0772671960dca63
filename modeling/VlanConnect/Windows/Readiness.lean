/-
  VlanConnect/Windows/Readiness.lean
  ==================================
  **When the virtual adapter counts as ready**
  (`common/windows_network_readiness.h`).

  After the adapter is configured, Windows still brings the link up, checks the
  address for duplicates and installs the routes.  `WindowsNetworkReadiness` is
  polled by the event loop: it takes a sample of the system now and then and
  passes it through about a dozen gates.  A fatal sample, the deadline of ten
  seconds and `cancel` end it as failed, the first sample that passes every
  gate in time ends it as ready, and what has ended stays as it is.

  The backend is given call by call: the clock it shows and the sample it would
  give.  The messages of the system for an error code are a parameter.
-/
import VlanConnect.Lib.Discipline
import VlanConnect.Windows.NetworkConfig

namespace VlanConnect.WindowsNetwork

open Arguments

/-! ### The data of the source -/

inductive WindowsReadinessState where
  | pending
  | ready
  | failed
deriving DecidableEq, Repr

structure WindowsReadinessResult where
  state : WindowsReadinessState := .pending
  error : Bytes := []
  diagnostic : Bytes := []
deriving DecidableEq, Repr

structure WindowsReadinessConfig where
  luid : UInt64
  aliasName : WString
  ip : UInt32
  mask : UInt32

structure WindowsReadinessRoute where
  error : UInt32 := 0
  luid : UInt64 := 0
  index : UInt32 := 0
  network : UInt32 := 0
  prefixLength : Nat := 0
  nextHop : UInt32 := 0
  metric : UInt32 := 0

structure WindowsReadinessSelection where
  destination : UInt32 := 0
  interfaceError : UInt32 := 0
  routeError : UInt32 := 0
  selectedIndex : UInt32 := 0
  source : UInt32 := 0
  interfaceMetric : UInt32 := 0
  metricError : UInt32 := 0
  route : WindowsReadinessRoute := {}

structure WindowsReadinessSnapshot where
  interfaceError : UInt32 := 0
  addressError : UInt32 := 0
  ipInterfaceError : UInt32 := 0
  index : UInt32 := 0
  adminStatus : Nat := 0
  operStatus : Nat := 0
  mediaState : Nat := 0
  notMediaConnected : Bool := false
  paused : Bool := false
  ipv4Connected : Bool := false
  address : UInt32 := 0
  prefixLength : Nat := 0
  dadState : Nat := 0
  skipAsSource : Bool := false
  validLifetime : UInt32 := 0
  subnet : WindowsReadinessRoute := {}
  directedBroadcast : WindowsReadinessRoute := {}
  limitedBroadcast : WindowsReadinessRoute := {}
  selections : Vector WindowsReadinessSelection 3 := Vector.replicate 3 {}

/-- What the system makes of an error code and of a UTF-16 text. -/
structure Texts where
  windowsReadinessError : UInt32 → Bytes
  windowsUtf8 : WString → Bytes

/-! ### The gates, in the order of the source -/

/-- A gate that is not passed: its stage, the reason, and whether it is fatal. -/
structure Problem where
  stage : String
  reason : Bytes
  fatal : Bool := false

section Source

variable (texts : Texts)

def describeRow (name : String) (row : WindowsReadinessRoute) : Bytes :=
  ascii (" " ++ name ++ "=\x7b") ++
    (if row.error ≠ 0 then ascii "query_error=" ++ texts.windowsReadinessError row.error
    else ascii ("luid=" ++ toString row.luid ++ " prefix=" ++ windowsIPv4 row.network ++ "/" ++
      toString row.prefixLength ++ " next_hop=" ++ windowsIPv4 row.nextHop ++ " route_metric=" ++
      toString row.metric)) ++ ascii "\x7d"

def describeSelection (selection : WindowsReadinessSelection) : Bytes :=
  ascii (" selection=\x7bdestination=" ++ windowsIPv4 selection.destination) ++
    (if selection.interfaceError ≠ 0 then
      ascii " interface_query_error=" ++ texts.windowsReadinessError selection.interfaceError
    else ascii (" selected_if=" ++ toString selection.selectedIndex) ++
      (if selection.routeError ≠ 0 then
        ascii " route_query_error=" ++ texts.windowsReadinessError selection.routeError
      else ascii (" selected_luid=" ++ toString selection.route.luid ++ " source=" ++
        windowsIPv4 selection.source ++
        " prefix=" ++ windowsIPv4 selection.route.network ++ "/" ++
        toString selection.route.prefixLength ++
        " next_hop=" ++ windowsIPv4 selection.route.nextHop ++ " route_metric=" ++
        toString selection.route.metric)) ++
      (if selection.metricError ≠ 0 then
        ascii (" metric_query_error=" ++ toString selection.metricError)
      else ascii (" interface_metric=" ++ toString selection.interfaceMetric))) ++ ascii "\x7d"

def describeWindowsReadiness (config : WindowsReadinessConfig) (value : WindowsReadinessSnapshot) :
    Bytes :=
  let flag (b : Bool) := if b then "1" else "0"
  ascii "alias=\"" ++ windowsLogValue (texts.windowsUtf8 config.aliasName) ++
    ascii ("\" expected_luid=" ++ toString config.luid ++ " expected_ip=" ++
      windowsIPv4 config.ip) ++
    (if value.interfaceError ≠ 0 then
      ascii " interface_query_error=" ++ texts.windowsReadinessError value.interfaceError
    else ascii (" if_index=" ++ toString value.index ++ " admin=" ++
      toString value.adminStatus ++ " oper=" ++
      toString value.operStatus ++ " media=" ++ toString value.mediaState ++
      " not_media_connected=" ++
      flag value.notMediaConnected ++ " paused=" ++ flag value.paused)) ++
    (if value.addressError ≠ 0 then ascii " address_query_error=" ++
      texts.windowsReadinessError value.addressError
    else ascii (" address=" ++ windowsIPv4 value.address ++ "/" ++
      toString value.prefixLength ++ " dad=" ++
      toString value.dadState ++ " skip_as_source=" ++ flag value.skipAsSource ++
      " valid_lifetime=" ++
      toString value.validLifetime)) ++
    (if value.ipInterfaceError ≠ 0 then
      ascii " ipv4_query_error=" ++ texts.windowsReadinessError value.ipInterfaceError
    else ascii (" ipv4_connected=" ++ flag value.ipv4Connected)) ++
    describeRow texts "subnet" value.subnet ++
    describeRow texts "directed_broadcast" value.directedBroadcast ++
    describeRow texts "limited_broadcast" value.limitedBroadcast ++
    value.selections.toList.flatMap (describeSelection texts)

/-- The body of the loop over the routes. -/
def rowProblem (config : WindowsReadinessConfig) (name : String) (row : WindowsReadinessRoute)
    (target : UInt32) (length : Nat) : Option Problem :=
  if row.error ≠ 0 then
    some ⟨name ++ "-query-failed",
      ascii ("Cannot query the virtual " ++ name ++ ": Windows ") ++
      texts.windowsReadinessError row.error, false⟩
  else if row.luid ≠ config.luid ∨ row.network ≠ target ∨ row.prefixLength ≠ length ∨
      row.nextHop ≠ 0 then
    some ⟨name ++ "-invalid",
      ascii ("The virtual " ++ name ++ " is missing or is not on-link on the expected adapter."),
      false⟩
  else none

/-- The body of the loop over the selections. -/
def selectionProblem (config : WindowsReadinessConfig) (selection : WindowsReadinessSelection) :
    Option Problem :=
  let target := windowsIPv4 selection.destination
  if selection.interfaceError ≠ 0 ∨ selection.routeError ≠ 0 then
    some ⟨"route-selection-query-failed",
      ascii ("Windows route/source query failed for " ++ target ++ ": ") ++
      texts.windowsReadinessError (if selection.interfaceError ≠ 0 then selection.interfaceError
        else selection.routeError), false⟩
  else if selection.route.luid ≠ config.luid then
    some ⟨"route-conflict",
      ascii ("A competing interface wins the route to " ++ target ++ " (interface " ++
      toString selection.selectedIndex ++ ", prefix " ++ windowsIPv4 selection.route.network ++
      "/" ++
      toString selection.route.prefixLength ++ "); check overlapping VPN/subnet routes."), false⟩
  else if selection.source ≠ config.ip then
    some ⟨"source-selection-mismatch",
      ascii ("Windows selected source " ++ windowsIPv4 selection.source ++
      " instead of " ++ windowsIPv4 config.ip ++ " for " ++ target ++ "."), false⟩
  else none

/-- The routes one after the other, then the selections. -/
def routingProblem (config : WindowsReadinessConfig) (length : Nat)
    (snapshot : WindowsReadinessSnapshot) :
    Option Problem :=
  rowProblem texts config "subnet-route" snapshot.subnet (config.ip &&& config.mask) length <|>
    rowProblem texts config "directed-broadcast-route" snapshot.directedBroadcast
    (config.ip ||| ~~~config.mask) 32 <|>
    rowProblem texts config "limited-broadcast-route" snapshot.limitedBroadcast 0xffffffff 32 <|>
    snapshot.selections.toList.findSome? (selectionProblem texts config)

/-- The first gate of a sample that is not passed. -/
def problem (config : WindowsReadinessConfig) (length : Nat) (snapshot : WindowsReadinessSnapshot) :
    Option Problem :=
  if snapshot.addressError = 0 ∧ snapshot.dadState = 2 then
    some ⟨"duplicate-address",
      ascii "Windows detected a duplicate virtual IPv4 address; room startup was cancelled.", true⟩
  else if snapshot.addressError = 0 ∧ snapshot.skipAsSource = true then
    some ⟨"source-address-disabled",
      ascii
      "The virtual IPv4 address has SkipAsSource enabled and cannot be used for overlay traffic.",
      true⟩
  else if snapshot.addressError = 0 ∧
      (snapshot.address ≠ config.ip ∨ snapshot.prefixLength ≠ length) then
    some ⟨"address-prefix-mismatch",
      ascii "The configured virtual IPv4 address or subnet prefix does not match the room.", true⟩
  else if snapshot.interfaceError ≠ 0 then
    some ⟨"interface-query-failed",
      ascii "Cannot query virtual adapter status: Windows " ++
      texts.windowsReadinessError snapshot.interfaceError, false⟩
  else if snapshot.adminStatus ≠ 1 ∨ snapshot.operStatus ≠ 1 ∨ snapshot.mediaState ≠ 1 ∨
      snapshot.notMediaConnected = true ∨ snapshot.paused = true then
    some ⟨"waiting-link", ascii "Waiting for the virtual adapter link to become ready.", false⟩
  else if snapshot.addressError ≠ 0 then
    some ⟨"address-query-failed",
      ascii "Cannot query the virtual IPv4 address: Windows " ++
      texts.windowsReadinessError snapshot.addressError, false⟩
  else if snapshot.dadState ≠ 4 ∨ snapshot.validLifetime = 0 then
    some ⟨"waiting-address",
      ascii "Waiting for Windows IPv4 duplicate-address detection and source-address readiness.",
      false⟩
  else if snapshot.ipInterfaceError ≠ 0 ∨ snapshot.ipv4Connected = false then
    some ⟨"waiting-ipv4", if snapshot.ipInterfaceError ≠ 0 then
        ascii "Cannot query the virtual IPv4 interface: Windows " ++
          texts.windowsReadinessError snapshot.ipInterfaceError
      else ascii "Waiting for the virtual IPv4 interface to become connected.", false⟩
  else routingProblem texts config length snapshot

/-! ### The object -/

structure WindowsNetworkReadiness where
  backend : Bool := false
  config : WindowsReadinessConfig := ⟨0, [], 0, 0⟩
  started : UInt64 := 0
  lastSample : UInt64 := 0
  sampled : Bool := false
  active : Bool := false
  lastDetail : Bytes := []
  result : WindowsReadinessResult := {}

namespace WindowsNetworkReadiness

/-- `published` is the clock once more, for the diagnostic. -/
def publish (r : WindowsNetworkReadiness) (published : UInt64) (state : WindowsReadinessState)
    (stage : String) (reason detail : Bytes) : WindowsNetworkReadiness :=
  let name := match state with
    | .ready => "ready"
    | .failed => "failed"
    | .pending => "pending"
  { r with result := {
      state := state
      error := if state = .failed then reason else []
      diagnostic := ascii ("[network-readiness] state=" ++ name ++ " stage=" ++ stage ++
        " elapsed_ms=" ++
        toString (if r.backend then published - r.started else 0) ++ " ") ++ detail ++
        (if reason = [] then [] else ascii " reason=\"" ++ windowsLogValue reason ++ ascii "\"") } }

def finish (r : WindowsNetworkReadiness) (published : UInt64) (state : WindowsReadinessState)
    (stage : String) (reason detail : Bytes) : WindowsNetworkReadiness :=
  { r.publish published state stage reason detail with active := false }

/-- The configurations that `begin` refuses. -/
def invalidConfig (config : WindowsReadinessConfig) : Bool :=
  config.luid == 0 || config.ip == 0 ||
    (match maskPrefix config.mask with
      | none => true
      | some length => decide (length > 29) || length == 0) ||
    config.ip &&& ~~~config.mask == 0 || config.ip ||| config.mask == 0xffffffff

/-- `clock` is what the backend shows, `none` when there is no backend. -/
def begin (clock : Option UInt64) (config : WindowsReadinessConfig) : WindowsNetworkReadiness :=
  let r : WindowsNetworkReadiness := {
    backend := clock.isSome, config := config, started := clock.getD 0, active := true }
  if clock.isNone || invalidConfig config then
    r.finish (clock.getD 0) .failed "configuration-invalid"
      (ascii "Virtual adapter readiness has an invalid identity, IPv4 address or subnet.") []
  else r

/-- The object after a poll, and whether the backend was asked for a sample. -/
def poll (r : WindowsNetworkReadiness) (now : UInt64) (snapshot : WindowsReadinessSnapshot)
    (published : UInt64) :
    WindowsNetworkReadiness × Bool :=
  if !r.active || !r.backend then (r, false)
  else
    let elapsed := now - r.started
    if r.sampled && decide (now - r.lastSample < 100) && decide (elapsed < 10000) then (r, false)
    else
      let detail := describeWindowsReadiness texts r.config snapshot
      let r := { r with lastSample := now, sampled := true, lastDetail := detail }
      match problem texts r.config ((maskPrefix r.config.mask).getD 0) snapshot with
      | none =>
        -- A final sample started exactly at the deadline is allowed.
        if elapsed > 10000 then
          (r.finish published .failed "deadline-expired"
            (ascii
              "Virtual adapter readiness was first observed after the startup deadline of 10 seconds.")
            detail, true)
        else (r.finish published .ready "ready" [] detail, true)
      | some p =>
        let reason := if !p.fatal && decide (elapsed ≥ 10000) then
          ascii "Virtual adapter did not become ready within 10 seconds. " ++ p.reason else p.reason
        if p.fatal || decide (elapsed ≥ 10000) then
          (r.finish published .failed p.stage reason detail, true)
        else (r.publish published .pending p.stage reason detail, true)

def cancel (r : WindowsNetworkReadiness) (published : UInt64) : WindowsNetworkReadiness :=
  if r.active then r.finish published .failed "cancelled"
    (ascii "Virtual adapter startup was cancelled.") r.lastDetail
  else r

end WindowsNetworkReadiness

end Source

/-! ### The gates as conditions -/

/-- A route on-link on the expected adapter. -/
def OnLink (config : WindowsReadinessConfig) (row : WindowsReadinessRoute) (target : UInt32)
    (length : Nat) : Prop :=
  row.error = 0 ∧ row.luid = config.luid ∧ row.network = target ∧ row.prefixLength = length ∧
    row.nextHop = 0

/-- A destination that is reached through the adapter, with the room address as source. -/
def Selected (config : WindowsReadinessConfig) (selection : WindowsReadinessSelection) : Prop :=
  selection.interfaceError = 0 ∧ selection.routeError = 0 ∧ selection.route.luid = config.luid ∧
    selection.source = config.ip

/-- **Every gate holds.** -/
structure Gates (config : WindowsReadinessConfig) (length : Nat) (v : WindowsReadinessSnapshot) :
    Prop where
  link : v.interfaceError = 0 ∧ v.adminStatus = 1 ∧ v.operStatus = 1 ∧ v.mediaState = 1 ∧
    v.notMediaConnected = false ∧ v.paused = false
  address : v.addressError = 0 ∧ v.address = config.ip ∧ v.prefixLength = length
  preferred : v.dadState = 4
  usable : v.skipAsSource = false
  lifetime : v.validLifetime ≠ 0
  connected : v.ipInterfaceError = 0 ∧ v.ipv4Connected = true
  subnet : OnLink config v.subnet (config.ip &&& config.mask) length
  directedBroadcast : OnLink config v.directedBroadcast (config.ip ||| ~~~config.mask) 32
  limitedBroadcast : OnLink config v.limitedBroadcast 0xffffffff 32
  selections : ∀ selection ∈ v.selections.toList, Selected config selection

/-- A sample that ends the start of the adapter at once. -/
def Fatal (config : WindowsReadinessConfig) (length : Nat) (v : WindowsReadinessSnapshot) : Prop :=
  v.addressError = 0 ∧ (v.dadState = 2 ∨ v.skipAsSource = true ∨ v.address ≠ config.ip ∨
    v.prefixLength ≠ length)

variable (texts : Texts)

theorem rowProblem_eq_none {config : WindowsReadinessConfig} {name : String}
    {row : WindowsReadinessRoute} {target : UInt32} {length : Nat} :
    rowProblem texts config name row target length = none ↔ OnLink config row target length := by
  unfold rowProblem OnLink
  split
  · simp_all
  · split
    · next hbad =>
      simp only [reduceCtorEq, false_iff, not_and]
      intro _ hluid hnetwork hlength hhop
      simp [hluid, hnetwork, hlength, hhop] at hbad
    · next herror hgood =>
      simp only [ne_eq, not_or, not_not] at herror hgood
      simp [herror, hgood]

theorem selectionProblem_eq_none {config : WindowsReadinessConfig}
    {selection : WindowsReadinessSelection} :
    selectionProblem texts config selection = none ↔ Selected config selection := by
  unfold selectionProblem Selected
  dsimp only
  split
  · next herror =>
    simp only [reduceCtorEq, false_iff, not_and]
    intro hinterface hroute
    simp [hinterface, hroute] at herror
  · next herror =>
    simp only [ne_eq, not_or, not_not] at herror
    split
    · next hluid => simp [hluid]
    · next hluid =>
      split
      · next hsource => simp [hsource]
      · next hsource =>
        simp only [ne_eq, not_not] at hluid hsource
        simp [herror, hluid, hsource]

theorem routingProblem_eq_none {config : WindowsReadinessConfig} {length : Nat}
    {v : WindowsReadinessSnapshot} :
    routingProblem texts config length v = none ↔
      OnLink config v.subnet (config.ip &&& config.mask) length ∧
        OnLink config v.directedBroadcast (config.ip ||| ~~~config.mask) 32 ∧
        OnLink config v.limitedBroadcast 0xffffffff 32 ∧
        ∀ selection ∈ v.selections.toList, Selected config selection := by
  unfold routingProblem
  simp only [Option.orElse_eq_none, rowProblem_eq_none, List.findSome?_eq_none_iff,
    selectionProblem_eq_none]

theorem rowProblem_transient {config : WindowsReadinessConfig} {name : String}
    {row : WindowsReadinessRoute} {target : UInt32} {length : Nat} {p : Problem}
    (h : rowProblem texts config name row target length = some p) :
    p.fatal = false := by
  unfold rowProblem at h
  split at h
  · cases h
    rfl
  · split at h
    · cases h
      rfl
    · cases h

theorem selectionProblem_transient {config : WindowsReadinessConfig}
    {selection : WindowsReadinessSelection} {p : Problem}
    (h : selectionProblem texts config selection = some p) : p.fatal = false := by
  unfold selectionProblem at h
  dsimp only at h
  split at h
  · cases h
    rfl
  · split at h
    · cases h
      rfl
    · split at h
      · cases h
        rfl
      · cases h

/-- The routes and the selections are not fatal. -/
theorem routingProblem_transient {config : WindowsReadinessConfig} {length : Nat}
    {v : WindowsReadinessSnapshot} {p : Problem}
    (h : routingProblem texts config length v = some p) : p.fatal = false := by
  unfold routingProblem at h
  simp only [Option.orElse_eq_some, List.findSome?_eq_some_iff] at h
  rcases h with h | ⟨-, h | ⟨-, h | ⟨-, _, _, _, -, h, -⟩⟩⟩
  · exact rowProblem_transient texts h
  · exact rowProblem_transient texts h
  · exact rowProblem_transient texts h
  · exact selectionProblem_transient texts h

/-- **A sample has no problem exactly when every gate holds.** -/
theorem problem_eq_none {config : WindowsReadinessConfig} {length : Nat}
    {v : WindowsReadinessSnapshot} :
    problem texts config length v = none ↔ Gates config length v := by
  constructor
  · intro h
    unfold problem at h
    split at h
    · cases h
    · next hdad =>
      split at h
      · cases h
      · next hskip =>
        split at h
        · cases h
        · next haddress =>
          split at h
          · cases h
          · next hinterface =>
            split at h
            · cases h
            · next hlink =>
              split at h
              · cases h
              · next herror =>
                split at h
                · cases h
                · next hpreferred =>
                  split at h
                  · cases h
                  · next hconnected =>
                    obtain ⟨hsubnet, hdirected, hlimited, hselections⟩ :=
                      (routingProblem_eq_none texts).mp h
                    simp only [ne_eq, not_or, not_not, Bool.not_eq_true] at hinterface hlink herror
                    simp only [ne_eq, not_or, not_not, Bool.not_eq_false] at hpreferred hconnected
                    simp only [herror, true_and, ne_eq, not_or, not_not, Bool.not_eq_true]
                      at hskip haddress
                    exact ⟨⟨hinterface, hlink⟩, ⟨herror, haddress⟩, hpreferred.1, hskip,
                      hpreferred.2, hconnected,
                      hsubnet, hdirected, hlimited, hselections⟩
  · intro h
    obtain ⟨hinterface, hadmin, hoper, hmedia, hmediaConnected, hpaused⟩ := h.link
    obtain ⟨herror, haddress, hlength⟩ := h.address
    obtain ⟨hip, hconnected⟩ := h.connected
    have hrouting :=
      (routingProblem_eq_none texts).mpr ⟨h.subnet, h.directedBroadcast, h.limitedBroadcast,
        h.selections⟩
    simp [problem, hinterface, hadmin, hoper, hmedia, hmediaConnected, hpaused, herror, haddress,
      hlength, hip, hconnected, h.preferred, h.usable, h.lifetime, hrouting]

theorem problem_fatal {config : WindowsReadinessConfig} {length : Nat}
    {v : WindowsReadinessSnapshot} {p : Problem} (h : problem texts config length v = some p) :
    p.fatal = true ↔ Fatal config length v := by
  unfold problem at h
  split at h
  · next hdad =>
    cases h
    exact ⟨fun _ => ⟨hdad.1, .inl hdad.2⟩, fun _ => rfl⟩
  · next hdad =>
    split at h
    · next hskip =>
      cases h
      exact ⟨fun _ => ⟨hskip.1, .inr (.inl hskip.2)⟩, fun _ => rfl⟩
    · next hskip =>
      split at h
      · next haddress =>
        cases h
        exact ⟨fun _ => ⟨haddress.1, .inr (.inr haddress.2)⟩, fun _ => rfl⟩
      · next haddress =>
        have hnot : ¬ Fatal config length v := by
          rintro ⟨herror, hcase | hcase | hcase⟩
          · exact hdad ⟨herror, hcase⟩
          · exact hskip ⟨herror, hcase⟩
          · exact haddress ⟨herror, hcase⟩
        have htransient : p.fatal = false := by
          split at h
          · cases h
            rfl
          · split at h
            · cases h
              rfl
            · split at h
              · cases h
                rfl
              · split at h
                · cases h
                  rfl
                · split at h
                  · cases h
                    rfl
                  · exact routingProblem_transient texts h
        simp [htransient, hnot]

/-! ### One poll -/

namespace WindowsNetworkReadiness

variable {r : WindowsNetworkReadiness}

/-- The poll is not held back by the sample before it. -/
def Asks (r : WindowsNetworkReadiness) (now : UInt64) : Prop :=
  r.sampled = true → now - r.lastSample < 100 → 10000 ≤ now - r.started

/-- What a poll that takes a sample makes of the object. -/
structure Asked (r : WindowsNetworkReadiness) (now : UInt64) (v : WindowsReadinessSnapshot)
    (r' : WindowsNetworkReadiness) :
    Prop where
  backend : r'.backend = r.backend
  config : r'.config = r.config
  started : r'.started = r.started
  lastSample : r'.lastSample = now
  sampled : r'.sampled = true
  active : r'.active = true ↔ r'.result.state = .pending
  ready : r'.result.state = .ready ↔
    Gates r.config ((maskPrefix r.config.mask).getD 0) v ∧ now - r.started ≤ 10000
  pending : r'.result.state = .pending ↔
    ¬ Gates r.config ((maskPrefix r.config.mask).getD 0) v ∧
    ¬ Fatal r.config ((maskPrefix r.config.mask).getD 0) v ∧
      now - r.started < 10000

theorem poll_inactive (h : r.active = false) (now : UInt64) (v : WindowsReadinessSnapshot)
    (published : UInt64) :
    r.poll texts now v published = (r, false) := by
  rw [poll, h]
  rfl

theorem poll_held {now : UInt64} (hactive : r.active = true) (hbackend : r.backend = true)
    (h : ¬ r.Asks now) (v : WindowsReadinessSnapshot) (published : UInt64) :
    r.poll texts now v published = (r, false) := by
  simp only [Asks, not_forall, UInt64.not_le] at h
  obtain ⟨hsampled, hsoon, hearly⟩ := h
  simp [poll, hactive, hbackend, hsampled, hsoon, hearly]

theorem poll_asks {now : UInt64} (hactive : r.active = true) (hbackend : r.backend = true)
    (h : r.Asks now) (v : WindowsReadinessSnapshot) (published : UInt64) :
    (r.poll texts now v published).2 = true ∧ Asked r now v (r.poll texts now v published).1 := by
  have hgo : (r.sampled && decide (now - r.lastSample < 100) && decide (now - r.started < 10000)) =
      false := by
    rw [Bool.and_eq_false_iff, Bool.and_eq_false_iff]
    by_cases hsampled : r.sampled = true
    · by_cases hsoon : now - r.lastSample < 100
      · have hlate := h hsampled hsoon
        exact .inr (decide_eq_false (UInt64.not_lt.mpr hlate))
      · exact .inl (.inr (decide_eq_false hsoon))
    · exact .inl (.inl (by simpa using hsampled))
  unfold poll
  rw [hactive, hbackend]
  simp only [Bool.not_true, Bool.or_self, Bool.false_eq_true, if_false, hgo]
  cases hproblem : problem texts r.config ((maskPrefix r.config.mask).getD 0) v with
  | none =>
    have hgates := (problem_eq_none texts).mp hproblem
    dsimp only
    split
    · next hlate =>
      refine ⟨rfl, hbackend.symm, rfl, rfl, rfl, rfl, ?_, ?_, ?_⟩
      · simp [finish, publish]
      · simp only [finish, publish, reduceCtorEq, false_iff, not_and]
        intro _ hintime
        exact UInt64.not_lt.mpr hintime hlate
      · simp [finish, publish, hgates]
    · next hintime =>
      refine ⟨rfl, hbackend.symm, rfl, rfl, rfl, rfl, ?_, ?_, ?_⟩
      · simp [finish, publish]
      · simp only [finish, publish, true_iff]
        exact ⟨hgates, UInt64.not_lt.mp hintime⟩
      · simp [finish, publish, hgates]
  | some p =>
    have hgates : ¬ Gates r.config ((maskPrefix r.config.mask).getD 0) v := by
      rw [← problem_eq_none texts, hproblem]
      simp
    have hfatal := problem_fatal texts hproblem
    dsimp only
    split
    · next hover =>
      refine ⟨rfl, hbackend.symm, rfl, rfl, rfl, rfl, ?_, ?_, ?_⟩
      · simp [finish, publish]
      · simp [finish, publish, hgates]
      · simp only [finish, publish, reduceCtorEq, false_iff, not_and]
        intro _ hnot
        rw [Bool.or_eq_true, decide_eq_true_eq, hfatal] at hover
        rcases hover with hover | hover
        · exact absurd hover hnot
        · exact UInt64.not_lt.mpr hover
    · next hopen =>
      rw [Bool.or_eq_true, decide_eq_true_eq, hfatal, not_or] at hopen
      refine ⟨rfl, hbackend.symm, rfl, rfl, rfl, rfl, ?_, ?_, ?_⟩
      · simp [publish]
      · simp [publish, hgates]
      · simp only [publish, true_iff]
        exact ⟨hgates, hopen.1, UInt64.not_le.mp hopen.2⟩

/-- `begin` on a usable configuration waits. -/
theorem begin_valid {config : WindowsReadinessConfig} (h : invalidConfig config = false)
    (clock : UInt64) :
    begin (some clock) config =
    { backend := true, config := config, started := clock, active := true } := by
  simp [begin, h]

theorem cancel_active (h : r.active = true) (published : UInt64) :
    ∃ result : WindowsReadinessResult, result.state = .failed ∧
      r.cancel published = { r with active := false, result := result } := by
  rw [cancel, if_pos h]
  exact ⟨_, rfl, rfl⟩

theorem cancel_inactive (h : r.active = false) (published : UInt64) : r.cancel published = r := by
  rw [cancel, h]
  rfl

end WindowsNetworkReadiness

/-! ### The calls after `begin` -/

/-- A call, with what the backend shows while it runs. -/
inductive Call where
  | poll (now : UInt64) (snapshot : WindowsReadinessSnapshot) (published : UInt64)
  | cancel (published : UInt64)

def Call.time : Call → Option UInt64
  | .poll now _ _ => some now
  | .cancel _ => none

/-- The object and the times at which a sample was taken. -/
structure Watched where
  readiness : WindowsNetworkReadiness
  samples : List UInt64 := []

namespace Watched

def state (w : Watched) : WindowsReadinessState := w.readiness.result.state

def step (w : Watched) : Call → Watched
  | .poll now snapshot published =>
    let polled := w.readiness.poll texts now snapshot published
    ⟨polled.1, if polled.2 then w.samples ++ [now] else w.samples⟩
  | .cancel published => { w with readiness := w.readiness.cancel published }

/-- The call is a poll that takes the sample `v` at `now`. -/
def Takes (w : Watched) (call : Call) (now : UInt64) (v : WindowsReadinessSnapshot) : Prop :=
  ∃ published, call = .poll now v published ∧ (w.step texts call).samples = w.samples ++ [now]

/-- The object after `begin` and some calls. -/
def watch (config : WindowsReadinessConfig) (clock : UInt64) (calls : List Call) : Watched :=
  calls.foldl (step texts) ⟨WindowsNetworkReadiness.begin (some clock) config, []⟩

theorem watch_append (config : WindowsReadinessConfig) (clock : UInt64) (calls : List Call)
    (call : Call) :
    watch texts config clock (calls ++ [call]) =
    (watch texts config clock calls).step texts call := by
  simp [watch]

/-- What a run keeps. -/
structure Tracks (config : WindowsReadinessConfig) (clock : UInt64) (w : Watched) : Prop where
  backend : w.readiness.backend = true
  config : w.readiness.config = config
  started : w.readiness.started = clock
  active : w.readiness.active = true ↔ w.state = .pending
  last : w.samples.getLast? = if w.readiness.sampled then some w.readiness.lastSample else none

variable {texts}

theorem step_settled {config : WindowsReadinessConfig} {clock : UInt64} {w : Watched}
    (h : w.Tracks config clock) (hsettled : w.state ≠ .pending) (call : Call) :
    w.step texts call = w := by
  have hactive : w.readiness.active = false := by
    rw [← Bool.not_eq_true, h.active]
    exact hsettled
  cases call with
  | poll now v published => simp [step, WindowsNetworkReadiness.poll_inactive texts hactive]
  | cancel published => simp [step, WindowsNetworkReadiness.cancel_inactive hactive]

/-- What a call does while the result is pending. -/
inductive Advance (config : WindowsReadinessConfig) (length : Nat) (clock : UInt64) (w : Watched) :
    Call → Watched → Prop where
  | cancelled (published : UInt64) (w' : Watched) (state : w'.state = .failed)
      (samples : w'.samples = w.samples) :
    Advance config length clock w (.cancel published) w'
  | held (now published : UInt64) (v : WindowsReadinessSnapshot)
      (early : now.toNat < clock.toNat + 10000)
      (last : UInt64) (sampled : last ∈ w.samples) (soon : now.toNat < last.toNat + 100) :
    Advance config length clock w (.poll now v published) w
  | taken (now published : UInt64) (v : WindowsReadinessSnapshot) (w' : Watched)
      (samples : w'.samples = w.samples ++ [now])
      (spaced : ∀ last ∈ w.samples.getLast?, last.toNat + 100 ≤ now.toNat ∨
        clock.toNat + 10000 ≤ now.toNat)
      (ready : w'.state = .ready ↔ Gates config length v ∧ now.toNat ≤ clock.toNat + 10000)
      (pending : w'.state = .pending ↔
        ¬ Gates config length v ∧ ¬ Fatal config length v ∧ now.toNat < clock.toNat + 10000) :
    Advance config length clock w (.poll now v published) w'

/-- The call comes after everything that was sampled. -/
def InOrder (clock : UInt64) (w : Watched) (call : Call) : Prop :=
  ∀ now, call.time = some now → clock ≤ now ∧ ∀ t ∈ w.samples, t ≤ now

variable (texts) in
theorem step_advance {config : WindowsReadinessConfig} {length : Nat} {clock : UInt64} {w : Watched}
    (h : w.Tracks config clock) (hlength : maskPrefix config.mask = some length)
    (hpending : w.state = .pending) (call : Call) (horder : InOrder clock w call) :
    Advance config length clock w call (w.step texts call) ∧
    (w.step texts call).Tracks config clock := by
  have hactive := h.active.mpr hpending
  cases call with
  | cancel published =>
    obtain ⟨result, hresult, hcancel⟩ := WindowsNetworkReadiness.cancel_active hactive published
    have hstep : w.step texts (.cancel published) =
        { w with readiness := { w.readiness with active := false, result := result } } := by
      simp only [step, hcancel]
    rw [hstep]
    refine ⟨.cancelled published _ hresult rfl, h.backend, h.config, h.started, ?_, h.last⟩
    simp [state, hresult]
  | poll now v published =>
    obtain ⟨hstart, hlater⟩ := horder now rfl
    -- on an ordered clock the unsigned differences are the true ones
    have helapsed : (now - w.readiness.started).toNat = now.toNat - clock.toNat := by
      rw [h.started, UInt64.toNat_sub_of_le _ _ hstart]
    have hclock : clock.toNat ≤ now.toNat := UInt64.le_iff_toNat_le.mp hstart
    have hlast : ∀ last ∈ w.samples.getLast?, w.readiness.sampled = true ∧
        last = w.readiness.lastSample := by
      intro last hmem
      rw [h.last, Option.mem_def] at hmem
      split at hmem
      · next hsampled =>
        cases hmem
        exact ⟨hsampled, rfl⟩
      · cases hmem
    by_cases hasks : w.readiness.Asks now
    · obtain ⟨hasked, hpoll⟩ :=
        WindowsNetworkReadiness.poll_asks texts hactive h.backend hasks v published
      have hsamples : (w.step texts (.poll now v published)).samples = w.samples ++ [now] := by
        simp [step, hasked]
      have hready := hpoll.ready
      have hwaits := hpoll.pending
      rw [h.config, hlength, UInt64.le_iff_toNat_le, helapsed] at hready
      rw [h.config, hlength, UInt64.lt_iff_toNat_lt, helapsed] at hwaits
      refine ⟨.taken now published v _ hsamples ?_ ?_ ?_, ?_, ?_, ?_, ?_, ?_⟩
      · intro last hmem
        obtain ⟨hsampled, rfl⟩ := hlast last hmem
        have hle := hlater _ (List.mem_of_mem_getLast? hmem)
        by_contra hneither
        have hsoon : now - w.readiness.lastSample < 100 := by
          rw [UInt64.lt_iff_toNat_lt, UInt64.toNat_sub_of_le _ _ hle]
          simp only [UInt64.reduceToNat]
          omega
        have hlate := hasks hsampled hsoon
        rw [UInt64.le_iff_toNat_le, helapsed] at hlate
        simp only [UInt64.reduceToNat] at hlate
        omega
      · refine hready.trans (and_congr_right fun _ => ?_)
        simp only [UInt64.reduceToNat]
        omega
      · refine hwaits.trans (and_congr_right fun _ => and_congr_right fun _ => ?_)
        simp only [UInt64.reduceToNat]
        omega
      · exact hpoll.backend.trans h.backend
      · exact hpoll.config.trans h.config
      · exact hpoll.started.trans h.started
      · exact hpoll.active
      · rw [hsamples]
        simp [step, hpoll.sampled, hpoll.lastSample]
    · have heq : w.step texts (.poll now v published) = w := by
        simp [step, WindowsNetworkReadiness.poll_held texts hactive h.backend hasks]
      rw [heq]
      simp only [WindowsNetworkReadiness.Asks, not_forall, UInt64.not_le] at hasks
      obtain ⟨hsampled, hsoon, hearly⟩ := hasks
      have hmem : w.readiness.lastSample ∈ w.samples := by
        apply List.mem_of_mem_getLast?
        rw [h.last, if_pos hsampled, Option.mem_def]
      have hle := hlater _ hmem
      have hle' := UInt64.le_iff_toNat_le.mp hle
      rw [UInt64.lt_iff_toNat_lt, UInt64.toNat_sub_of_le _ _ hle] at hsoon
      rw [UInt64.lt_iff_toNat_lt, helapsed] at hearly
      simp only [UInt64.reduceToNat] at hsoon hearly
      exact ⟨.held now published v (by omega) _ hmem (by omega), h⟩

variable (texts) in
/-- A poll before the deadline that takes no sample, or one that is neither good nor fatal. -/
def Waits (config : WindowsReadinessConfig) (length : Nat) (clock : UInt64) (w : Watched)
    (call : Call) : Prop :=
  ∃ now v published, call = .poll now v published ∧ now.toNat < clock.toNat + 10000 ∧
    (w.Takes texts call now v → ¬ Gates config length v ∧ ¬ Fatal config length v)

variable (texts) in
/-- A call that takes a sample in time in which every gate holds. -/
def Succeeds (config : WindowsReadinessConfig) (length : Nat) (clock : UInt64) (w : Watched)
    (call : Call) : Prop :=
  ∃ now v, w.Takes texts call now v ∧ now.toNat ≤ clock.toNat + 10000 ∧ Gates config length v

variable {config : WindowsReadinessConfig} {length : Nat} {clock : UInt64} {w : Watched}
    {call : Call}

theorem Advance.pending_iff (h : Advance config length clock w call (w.step texts call))
    (hpending : w.state = .pending) :
    (w.step texts call).state = .pending ↔ Waits texts config length clock w call := by
  generalize hnext : w.step texts call = next at h
  cases h with
  | cancelled published _ failed samples =>
    rw [failed]
    simp [Waits]
  | held now published v early last sampled soon =>
    refine ⟨fun _ => ⟨now, v, published, rfl, early, ?_⟩, fun _ => hpending⟩
    rintro ⟨published', -, hsamples⟩
    rw [hnext] at hsamples
    simp at hsamples
  | taken now published v _ samples spaced ready pending =>
    rw [pending]
    constructor
    · rintro ⟨hgates, hfatal, hearly⟩
      exact ⟨now, v, published, rfl, hearly, fun _ => ⟨hgates, hfatal⟩⟩
    · rintro ⟨now', v', published', hcall, hearly, hwaits⟩
      cases hcall
      obtain ⟨hgates, hfatal⟩ := hwaits ⟨published, rfl, by rw [hnext, samples]⟩
      exact ⟨hgates, hfatal, hearly⟩

theorem Advance.ready_iff (h : Advance config length clock w call (w.step texts call))
    (hpending : w.state = .pending) :
    (w.step texts call).state = .ready ↔ Succeeds texts config length clock w call := by
  generalize hnext : w.step texts call = next at h
  cases h with
  | cancelled published _ failed samples =>
    rw [failed]
    simp [Succeeds, Takes]
  | held now published v early last sampled soon =>
    rw [hpending]
    simp only [reduceCtorEq, false_iff]
    rintro ⟨now', v', ⟨published', -, hsamples⟩, -⟩
    rw [hnext] at hsamples
    simp at hsamples
  | taken now published v _ samples spaced ready pending =>
    rw [ready]
    constructor
    · rintro ⟨hgates, hintime⟩
      exact ⟨now, v, ⟨published, rfl, by rw [hnext, samples]⟩, hintime, hgates⟩
    · rintro ⟨now', v', ⟨published', hcall, -⟩, hintime, hgates⟩
      cases hcall
      exact ⟨hgates, hintime⟩

/-- A sample is taken unless one was taken a moment before. -/
theorem Advance.samples_cases (h : Advance config length clock w call (w.step texts call)) :
    (w.step texts call).samples = w.samples ∨
      ∃ now, call.time = some now ∧ (w.step texts call).samples = w.samples ++ [now] ∧
        ∀ last ∈ w.samples.getLast?, last.toNat + 100 ≤ now.toNat ∨
        clock.toNat + 10000 ≤ now.toNat := by
  generalize hnext : w.step texts call = next at h
  cases h with
  | cancelled published _ failed samples => exact .inl samples
  | held now published v early last sampled soon => exact .inl rfl
  | taken now published v _ samples spaced ready pending => exact .inr ⟨now, rfl, samples, spaced⟩

/-! ### Whole runs -/

/-- The clock does not go back. -/
def Ordered (clock : UInt64) (calls : List Call) : Prop :=
  (clock :: calls.filterMap Call.time).Pairwise (· ≤ ·)

theorem Ordered.front {front back : List Call} (h : Ordered clock (front ++ back)) :
    Ordered clock front := by
  unfold Ordered at h ⊢
  rw [List.filterMap_append, ← List.cons_append] at h
  exact (List.pairwise_append.mp h).1

theorem Ordered.last {calls : List Call} (h : Ordered clock (calls ++ [call])) {now : UInt64}
    (hnow : call.time = some now) : clock ≤ now ∧ ∀ t ∈ calls.filterMap Call.time, t ≤ now := by
  unfold Ordered at h
  rw [List.filterMap_append, ← List.cons_append] at h
  have hbefore := (List.pairwise_append.mp h).2.2
  have hmem : now ∈ [call].filterMap Call.time := by simp [hnow]
  exact ⟨hbefore clock (List.mem_cons_self ..) now hmem,
    fun t ht => hbefore t (List.mem_cons_of_mem _ ht) now hmem⟩

section Runs

variable (hvalid : WindowsNetworkReadiness.invalidConfig config = false)
    (hlength : maskPrefix config.mask = some length)

include hvalid hlength

variable (texts) in
/-- The samples are among the times of the calls, and the object stays in step with them. -/
theorem watch_tracks {calls : List Call} (h : Ordered clock calls) :
    (watch texts config clock calls).Tracks config clock ∧
      ∀ t ∈ (watch texts config clock calls).samples, t ∈ calls.filterMap Call.time := by
  induction calls using List.reverseRecOn with
  | nil =>
    simp only [watch, List.foldl_nil, WindowsNetworkReadiness.begin_valid hvalid]
    exact ⟨⟨rfl, rfl, rfl, by simp [state], rfl⟩, by simp⟩
  | append_singleton calls call ih =>
    obtain ⟨htracks, hmem⟩ := ih h.front
    rw [watch_append]
    by_cases hpending : (watch texts config clock calls).state = .pending
    · have horder : InOrder clock (watch texts config clock calls) call := by
        intro now hnow
        obtain ⟨hstart, hlater⟩ := h.last hnow
        exact ⟨hstart, fun t ht => hlater t (hmem t ht)⟩
      obtain ⟨hadvance, hnext⟩ := step_advance texts htracks hlength hpending call horder
      refine ⟨hnext, fun t ht => ?_⟩
      rw [List.filterMap_append, List.mem_append]
      rcases hadvance.samples_cases with hsame | ⟨now, hnow, hsamples, -⟩
      · exact .inl (hmem t (hsame ▸ ht))
      · rw [hsamples, List.mem_append, List.mem_singleton] at ht
        rcases ht with ht | rfl
        · exact .inl (hmem t ht)
        · exact .inr (by simp [hnow])
    · rw [step_settled htracks hpending]
      refine ⟨htracks, fun t ht => ?_⟩
      rw [List.filterMap_append, List.mem_append]
      exact .inl (hmem t ht)

/-- A call of a run while the result is pending. -/
theorem watch_advance {calls : List Call} (h : Ordered clock (calls ++ [call]))
    (hpending : (watch texts config clock calls).state = .pending) :
    Advance config length clock (watch texts config clock calls) call
      ((watch texts config clock calls).step texts call) := by
  obtain ⟨htracks, hmem⟩ := watch_tracks texts hvalid hlength h.front
  refine (step_advance texts htracks hlength hpending call fun now hnow => ?_).1
  obtain ⟨hstart, hlater⟩ := h.last hnow
  exact ⟨hstart, fun t ht => hlater t (hmem t ht)⟩

end Runs

variable (texts) in
/-- Every call so far was a poll that left the result open. -/
def Quiet (config : WindowsReadinessConfig) (length : Nat) (clock : UInt64) (calls : List Call) :
    Prop :=
  Discipline.Keeps (fun front call => Waits texts config length clock
    (watch texts config clock front) call) calls

section Decision

variable (hvalid : WindowsNetworkReadiness.invalidConfig config = false)
    (hlength : maskPrefix config.mask = some length)

include hvalid hlength

theorem watch_settled {calls : List Call} (h : Ordered clock (calls ++ [call]))
    (hsettled : (watch texts config clock calls).state ≠ .pending) :
    watch texts config clock (calls ++ [call]) = watch texts config clock calls := by
  rw [watch_append]
  exact step_settled (watch_tracks texts hvalid hlength h.front).1 hsettled call

/-- The result is open as long as every call was quiet. -/
theorem watch_pending_iff {calls : List Call} (h : Ordered clock calls) :
    (watch texts config clock calls).state = .pending ↔ Quiet texts config length clock calls := by
  induction calls using List.reverseRecOn with
  | nil =>
    simp only [watch, List.foldl_nil, WindowsNetworkReadiness.begin_valid hvalid]
    exact ⟨fun _ => Discipline.keeps_nil, fun _ => rfl⟩
  | append_singleton calls call ih =>
    rw [Quiet, Discipline.keeps_snoc, ← Quiet, ← ih h.front]
    by_cases hpending : (watch texts config clock calls).state = .pending
    · rw [watch_append, (watch_advance hvalid hlength h hpending).pending_iff hpending]
      simp [hpending]
    · rw [watch_settled hvalid hlength h hpending]
      simp [hpending]

/-- The call at which the result becomes ready. -/
theorem watch_ready_iff {calls : List Call} (h : Ordered clock (calls ++ [call])) :
    (watch texts config clock calls).state ≠ .ready ∧
    (watch texts config clock (calls ++ [call])).state = .ready ↔
      Quiet texts config length clock calls ∧
        Succeeds texts config length clock (watch texts config clock calls) call := by
  rw [← watch_pending_iff hvalid hlength h.front]
  by_cases hpending : (watch texts config clock calls).state = .pending
  · rw [watch_append, (watch_advance hvalid hlength h hpending).ready_iff hpending]
    simp [hpending]
  · rw [watch_settled hvalid hlength h hpending]
    constructor
    · rintro ⟨hnot, hready⟩
      exact absurd hready hnot
    · rintro ⟨hwaiting, -⟩
      exact absurd hwaiting hpending

/-- Before the deadline the samples are at least 100 ms apart. -/
theorem watch_spaced {calls : List Call} (h : Ordered clock calls) :
    (watch texts config clock calls).samples.Pairwise
      fun earlier later => later.toNat < clock.toNat + 10000 →
      earlier.toNat + 100 ≤ later.toNat := by
  induction calls using List.reverseRecOn with
  | nil => simp [watch]
  | append_singleton calls call ih =>
    have hbefore := ih h.front
    by_cases hpending : (watch texts config clock calls).state = .pending
    · rw [watch_append]
      rcases (watch_advance hvalid hlength h hpending).samples_cases with
        hsame | ⟨now, hnow, hsamples, hspaced⟩
      · rw [hsame]
        exact hbefore
      · rw [hsamples]
        refine List.pairwise_append.mpr ⟨hbefore, List.pairwise_singleton .., ?_⟩
        intro earlier hearlier later hlater hearly
        rw [List.mem_singleton] at hlater
        subst hlater
        -- the samples before the last one are 100 ms before it already
        rcases (watch texts config clock calls).samples.eq_nil_or_concat with
          hnil | ⟨rest, last, hrest⟩
        · rw [hnil] at hearlier
          cases hearlier
        · have hgap := hspaced last (by simp [hrest])
          rw [hrest, List.concat_eq_append] at hearlier hbefore
          rcases List.mem_append.mp hearlier with hrest' | hlast
          · have hpair :=
              (List.pairwise_append.mp hbefore).2.2 earlier hrest' last (List.mem_singleton_self _)
            omega
          · rw [List.mem_singleton] at hlast
            subst hlast
            omega
    · rw [watch_settled hvalid hlength h hpending]
      exact hbefore

/-- A poll at or after the deadline gives a result that is not pending. -/
theorem watch_deadline {calls : List Call} {now published : UInt64} {v : WindowsReadinessSnapshot}
    (h : Ordered clock (calls ++ [.poll now v published]))
    (hlate : clock.toNat + 10000 ≤ now.toNat) :
    (watch texts config clock (calls ++ [.poll now v published])).state ≠ .pending := by
  rw [ne_eq, watch_pending_iff hvalid hlength h, Quiet, Discipline.keeps_snoc]
  rintro ⟨-, now', v', published', hcall, hearly, -⟩
  cases hcall
  omega

theorem watch_terminal {front back : List Call} (h : Ordered clock (front ++ back))
    (hsettled : (watch texts config clock front).state ≠ .pending) :
    watch texts config clock (front ++ back) = watch texts config clock front := by
  induction back using List.reverseRecOn with
  | nil => rw [List.append_nil]
  | append_singleton back call ih =>
    rw [← List.append_assoc] at h ⊢
    have hsame := ih h.front
    rw [watch_settled hvalid hlength h (hsame ▸ hsettled), hsame]

/-- A poll of an open result takes a sample unless one was taken less than 100 ms before,
and always from the deadline on. -/
theorem watch_takes {calls : List Call} {now published : UInt64} {v : WindowsReadinessSnapshot}
    (h : Ordered clock (calls ++ [.poll now v published]))
    (hpending : (watch texts config clock calls).state = .pending)
    (hfree : (∀ t ∈ (watch texts config clock calls).samples, t.toNat + 100 ≤ now.toNat) ∨
      clock.toNat + 10000 ≤ now.toNat) :
    (watch texts config clock calls).Takes texts (.poll now v published) now v := by
  have hadvance := watch_advance hvalid hlength h hpending
  generalize hnext : (watch texts config clock calls).step texts (.poll now v published) =
    next at hadvance
  cases hadvance with
  | held _ _ _ early last sampled soon =>
    rcases hfree with hfree | hlate
    · have hgap := hfree last sampled
      omega
    · omega
  | taken _ _ _ _ samples spaced ready pending => exact ⟨published, rfl, by rw [hnext, samples]⟩

end Decision

end Watched

/-- **The readiness decision**, for every usable configuration, every clock that does not
go back and every sequence of polls and cancellations after `begin`. -/
theorem readiness_decided (texts : Texts) (config : WindowsReadinessConfig) (length : Nat)
    (hvalid : WindowsNetworkReadiness.invalidConfig config = false)
    (hlength : maskPrefix config.mask = some length) (clock : UInt64) (calls : List Call)
    (hordered : Watched.Ordered clock calls) :
    (∀ front call back, calls = front ++ call :: back →
      ((Watched.watch texts config clock front).state ≠ .ready ∧
          (Watched.watch texts config clock (front ++ [call])).state = .ready ↔
        Watched.Quiet texts config length clock front ∧
          Watched.Succeeds texts config length clock
          (Watched.watch texts config clock front) call)) ∧
    ((Watched.watch texts config clock calls).samples.Pairwise
      fun earlier later => later.toNat < clock.toNat + 10000 → earlier.toNat + 100 ≤ later.toNat) ∧
    (∀ front now v published back, calls = front ++ .poll now v published :: back →
      (Watched.watch texts config clock front).state = .pending →
      ((∀ t ∈ (Watched.watch texts config clock front).samples, t.toNat + 100 ≤ now.toNat) ∨
        clock.toNat + 10000 ≤ now.toNat) →
      (Watched.watch texts config clock front).Takes texts (.poll now v published) now v) ∧
    (∀ front now v published back, calls = front ++ .poll now v published :: back →
      clock.toNat + 10000 ≤ now.toNat →
      (Watched.watch texts config clock (front ++ [.poll now v published])).state ≠ .pending) ∧
    ∀ front back, calls = front ++ back →
    (Watched.watch texts config clock front).state ≠ .pending →
      (Watched.watch texts config clock calls).readiness.result =
        (Watched.watch texts config clock front).readiness.result := by
  have hcut : ∀ {front call back}, calls = front ++ call :: back →
      Watched.Ordered clock (front ++ [call]) := by
    intro front call back hsplit
    rw [hsplit, List.append_cons] at hordered
    exact hordered.front
  refine ⟨?_, Watched.watch_spaced hvalid hlength hordered, ?_, ?_, ?_⟩
  · intro front call back hsplit
    exact Watched.watch_ready_iff hvalid hlength (hcut hsplit)
  · intro front now v published back hsplit hpending hfree
    exact Watched.watch_takes hvalid hlength (hcut hsplit) hpending hfree
  · intro front now v published back hsplit hlate
    exact Watched.watch_deadline hvalid hlength (hcut hsplit) hlate
  · intro front back hsplit hsettled
    subst hsplit
    rw [Watched.watch_terminal hvalid hlength hordered hsettled]

/-- An adapter on 10.0.0.0/24 with everything in place. -/
def readyConfig : WindowsReadinessConfig := ⟨7, [], 0x0a000002, 0xffffff00⟩

def readyRoute (network : UInt32) (length : Nat) : WindowsReadinessRoute :=
  { luid := 7, network := network, prefixLength := length }

def readySample : WindowsReadinessSnapshot where
  adminStatus := 1
  operStatus := 1
  mediaState := 1
  ipv4Connected := true
  address := 0x0a000002
  prefixLength := 24
  dadState := 4
  validLifetime := 3600
  subnet := readyRoute 0x0a000000 24
  directedBroadcast := readyRoute 0x0a0000ff 32
  limitedBroadcast := readyRoute 0xffffffff 32
  selections := Vector.replicate 3 { source := 0x0a000002, route := readyRoute 0x0a000000 24 }

theorem readySample_gates : Gates readyConfig 24 readySample where
  link := by decide
  address := by decide
  preferred := rfl
  usable := rfl
  lifetime := by decide
  connected := by decide
  subnet := by unfold OnLink; decide
  directedBroadcast := by unfold OnLink; decide
  limitedBroadcast := by unfold OnLink; decide
  selections := by
    intro selection h
    rw [show readySample.selections.toList = List.replicate 3
      { source := 0x0a000002, route := readyRoute 0x0a000000 24 } from rfl] at h
    rw [List.eq_of_mem_replicate h]
    unfold Selected
    decide

/-- A good sample 10 s after `begin` is still accepted. -/
theorem readiness_decided_at_deadline :
    (Watched.watch ⟨fun code => ascii (toString code),
      fun value => value.map UInt16.toUInt8⟩ readyConfig 5
      [.poll 10005 readySample 10006]).state = .ready := by
  have hvalid : WindowsNetworkReadiness.invalidConfig readyConfig = false := by decide
  have hordered : Watched.Ordered 5 [.poll 10005 readySample 10006] := by
    unfold Watched.Ordered
    decide
  obtain ⟨hready, -, htakes, -, -⟩ := readiness_decided
    ⟨fun code => ascii (toString code), fun value => value.map UInt16.toUInt8⟩ readyConfig 24 hvalid
    (by decide) 5 _ hordered
  have hpending :
    (Watched.watch ⟨fun code => ascii (toString code), fun value => value.map UInt16.toUInt8⟩
      readyConfig 5 []).state = .pending := by
    simp only [Watched.watch, List.foldl_nil, WindowsNetworkReadiness.begin_valid hvalid]
    rfl
  have htaken := htakes [] 10005 readySample 10006 [] rfl hpending (.inr (by decide))
  refine ((hready [] (.poll 10005 readySample 10006) [] rfl).mpr ⟨?_, 10005, readySample,
    htaken, by decide,
    readySample_gates⟩).2
  exact Discipline.keeps_nil

end VlanConnect.WindowsNetwork

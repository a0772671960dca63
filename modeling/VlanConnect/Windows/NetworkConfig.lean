/-
  VlanConnect/Windows/NetworkConfig.lean
  ======================================
  **Who owns the firewall rule and the broadcast route**
  (`common/windows_network_config.h`).

  `configureWindowsNetwork` makes a dozen changes by commands that may fail,
  time out after they took effect, or be cut short by a cancellation.  Two of
  the changes outlive the process: the firewall rule and the broadcast route.
  The flags of `WindowsNetworkState` say which of them the process has to take
  back, and `rollbackWindowsNetwork` does so.

  The commands are an object of the caller, here over any state (`σ`); what the
  system makes of them is a `World` that their state determines.  `Honest` says
  that a command which reports success had its effect, that one which reports
  anything else had it or not, and that the queries tell the truth or fail.
  `Owned` is the invariant: what stands and is ours is flagged, and `Retried`
  that a flag that is set makes the next rollback try again.
-/
import VlanConnect.Lib.Procedure
import VlanConnect.Windows.Arguments
import VlanConnect.Windows.LogValue

namespace VlanConnect.WindowsNetwork

open Arguments

/-! ### The functions of the source -/

/-- `windowsAscii` of a string of the source. -/
def wide (s : String) : WString := (ascii s).map UInt8.toUInt16

def windowsIPv4 (ip : UInt32) : String :=
  toString ((ip >>> 24) &&& 255) ++ "." ++ toString ((ip >>> 16) &&& 255) ++ "." ++
    toString ((ip >>> 8) &&& 255) ++
    "." ++ toString (ip &&& 255)

structure WindowsNetworkState where
  aliasName : WString
  firewallRule : WString := []
  firewallActive : Bool := false
  broadcastActive : Bool := false
deriving DecidableEq, Repr

/-- The interface of the commands, over the state `σ` of the object behind it. -/
structure WindowsNetworkCommands (σ : Type) where
  execute : List WString → Nat → σ → WindowsCommandResult × σ
  firewallRuleExists : WString → σ → WindowsCommandResult × σ
  broadcastRouteExists : WString → σ → WindowsCommandResult × σ
  retryDelay : σ → σ
  shouldContinue : σ → Bool × σ
  commandTimeout : Nat → σ → Nat × σ
  operationStarted : String → σ → σ
  beginCleanup : σ → σ

/-- The two arguments that every function changes. -/
structure Setup (σ : Type) where
  commands : σ
  state : WindowsNetworkState

section Source

variable {σ ε : Type} (c : WindowsNetworkCommands σ)

def call {α : Type} (f : σ → α × σ) : Procedure (Setup σ) ε α :=
  Procedure.act fun s => ((f s.commands).1, { s with commands := (f s.commands).2 })

def notify (f : σ → σ) : Procedure (Setup σ) ε Unit :=
  Procedure.update fun s => { s with commands := f s.commands }

def setState (f : WindowsNetworkState → WindowsNetworkState) : Procedure (Setup σ) ε Unit :=
  Procedure.update fun s => { s with state := f s.state }

def state : Procedure (Setup σ) ε WindowsNetworkState := Procedure.ask Setup.state

def deleteRuleArguments (rule : WString) : List WString :=
  [wide "advfirewall", wide "firewall", wide "delete", wide "rule", wide "name=" ++ rule]

def addRuleArguments (rule localAddresses subnet : WString) : List WString :=
  [wide "advfirewall", wide "firewall", wide "add", wide "rule", wide "name=" ++ rule,
    wide "dir=in",
    wide "action=allow", wide "localip=" ++ localAddresses, wide "remoteip=" ++ subnet,
    wide "profile=any",
    wide "enable=yes"]

def deleteRouteArguments (aliasName : WString) : List WString :=
  [wide "interface", wide "ipv4", wide "delete", wide "route", wide "255.255.255.255/32", aliasName,
    wide "store=active"]

def addRouteArguments (aliasName : WString) : List WString :=
  [wide "interface", wide "ipv4", wide "add", wide "route", wide "255.255.255.255/32", aliasName,
    wide "0.0.0.0",
    wide "metric=1", wide "store=active"]

def execute (arguments : List WString) : Procedure (Setup σ) ε WindowsCommandResult := do
  let timeout ← call (c.commandTimeout 10000)
  call (c.execute arguments timeout)

def removeWindowsFirewall (operation : String) : Procedure (Setup σ) ε Bool := do
  notify (c.operationStarted operation)
  let continues ← call c.shouldContinue
  if !continues then return false
  let s ← state
  let found ← call (c.firewallRuleExists s.firewallRule)
  if found.absent || !found.ok then return found.absent
  let result ← execute c (deleteRuleArguments s.firewallRule)
  return result.ok

/-- The route of the alias is looked up and deleted when it is there. -/
def removeBroadcastRoute : Procedure (Setup σ) ε WindowsCommandResult := do
  let s ← state
  let result ← call (c.broadcastRouteExists s.aliasName)
  if result.ok && !result.absent then execute c (deleteRouteArguments s.aliasName)
  else return result

def rollbackBroadcast : Procedure (Setup σ) ε Bool := do
  notify (c.operationStarted "broadcast-remove")
  let result ← removeBroadcastRoute c
  if result.ok || result.absent then
    setState fun s => { s with broadcastActive := false }
    return true
  else return false

def rollbackFirewall : Procedure (Setup σ) ε Bool := do
  let removed ← removeWindowsFirewall c "firewall-remove"
  if removed then
    setState fun s => { s with firewallActive := false }
    return true
  else return false

def rollbackWindowsNetwork : Procedure (Setup σ) ε Bool := do
  notify c.beginCleanup
  let s ← state
  let broadcast ← (if s.broadcastActive then rollbackBroadcast c else pure true)
  let s ← state
  let firewall ← (if s.firewallActive then rollbackFirewall c else pure true)
  return broadcast && firewall

/-- The loop over the bits of the mask, highest first: the length of the prefix. -/
def maskPrefix (mask : UInt32) : Option Nat :=
  (((List.range 32).reverse.foldl fun found bit => do
    let (length, zeroSeen) ← found
    let set := mask &&& (1 <<< UInt32.ofNat bit) ≠ 0
    if set ∧ zeroSeen = true then none
    else if set then some (length + 1, zeroSeen)
    else some (length, true)) (some (0, false))).map Prod.fst

def cancelled : Bytes := ascii "Virtual network preparation cancelled or timed out"

/-- The lambda `run`: it leaves the message, and `fail` hands it on. -/
def runCommand (operation : String) (arguments : List WString) :
    Procedure (Setup σ) Bytes Unit := do
  notify (c.operationStarted operation)
  let continues ← call c.shouldContinue
  if !continues then Procedure.raise cancelled
  else
    let result ← execute c arguments
    if result.ok then return
    else Procedure.raise (ascii (operation ++ " failed (exit=" ++ toString result.exitCode ++
      ", Windows=" ++
      toString result.systemError ++ (if result.timedOut then ", timeout" else "") ++ "): ") ++
      windowsLogValue result.output)

/-- The attempts that are left of the three at the rule. -/
def addFirewallRule (localAddresses subnet : WString) : Nat → Procedure (Setup σ) Bytes Unit
  | 0 => return
  | left + 1 => do
    notify (c.operationStarted "firewall-add")
    let continues ← call c.shouldContinue
    if !continues then Procedure.raise cancelled
    else
      let s ← state
      let result ← execute c (addRuleArguments s.firewallRule localAddresses subnet)
      if result.ok then setState fun s => { s with firewallActive := true }
      else
        -- A command that timed out may have committed.
        setState fun s => { s with firewallActive := true }
        let removed ← removeWindowsFirewall c "firewall-retry-cleanup"
        if !removed then
          Procedure.raise (ascii
            "Firewall add failed and its partial result could not be cleaned up")
        else
          setState fun s => { s with firewallActive := false }
          (if left ≠ 0 then notify c.retryDelay else pure ())
          addFirewallRule localAddresses subnet left

/-- The address, the metric and the MTU of the interface. -/
def configureInterface (aliasName : WString) (ip mask : UInt32) (mtu : Int) :
    Procedure (Setup σ) Bytes Unit := do
  runCommand c "address-set" [wide "interface", wide "ipv4", wide "set", wide "address",
    wide "name=" ++ aliasName,
    wide "static", wide (windowsIPv4 ip), wide (windowsIPv4 mask), wide "gateway=none",
    wide "store=active"]
  runCommand c "metric-set" [wide "interface", wide "ipv4", wide "set", wide "interface",
    wide "interface=" ++ aliasName, wide "metric=5", wide "store=active"]
  if mtu > 0 then
    runCommand c "mtu-set" [wide "interface", wide "ipv4", wide "set",
      wide "subinterface", aliasName,
      wide ("mtu=" ++ toString mtu), wide "store=active"]
  else return

/-- The broadcast route: the one that Windows may have made is replaced. -/
def configureBroadcast : Procedure (Setup σ) Bytes Unit := do
  notify (c.operationStarted "broadcast-precleanup")
  let continues ← call c.shouldContinue
  if !continues then Procedure.raise cancelled
  else
    let s ← state
    let previousRoute ← removeBroadcastRoute c
    if !previousRoute.ok && !previousRoute.absent then
      Procedure.raise (ascii "Virtual broadcast route precleanup failed")
    else
      -- Included in the rollback also when the command only times out.
      setState fun s => { s with broadcastActive := true }
      runCommand c "broadcast-add" (addRouteArguments s.aliasName)

/-- The steps of `configureWindowsNetwork`; an exception is the message given to its `fail`. -/
def configureSteps (ip mask : UInt32) (mtu : Int) : Procedure (Setup σ) Bytes Unit := do
  let s ← state
  if s.aliasName = [] then Procedure.raise (ascii "The virtual adapter alias is unavailable")
  else match maskPrefix mask with
  | none => Procedure.raise (ascii "The virtual subnet mask is invalid")
  | some length => do
    configureInterface c s.aliasName ip mask mtu
    let removed ← removeWindowsFirewall c "firewall-precleanup"
    if !removed then
      Procedure.raise (ascii
        "Firewall precleanup failed; check the firewall service and administrator rights")
    else
      addFirewallRule c
        (wide (windowsIPv4 ip ++ "," ++ windowsIPv4 ((ip &&& mask) ||| ~~~mask) ++
          ",255.255.255.255"))
        (wide (windowsIPv4 (ip &&& mask) ++ "/" ++ toString length)) 3
      let s ← state
      if !s.firewallActive then
        Procedure.raise (ascii
          "Firewall rule creation failed after 3 attempts; room join cancelled")
      else configureBroadcast c

def ruleName (aliasName : WString) : WString := wide "VLan Virtual LAN [" ++ aliasName ++ wide "]"

/-- The result and `error`. -/
def configureWindowsNetwork (ip mask : UInt32) (mtu : Int) :
    Procedure (Setup σ) ε (Bool × Bytes) := do
  setState fun s => { s with firewallRule := ruleName s.aliasName }
  Procedure.handle (do configureSteps c ip mask mtu; return (true, [])) fun message => do
    let _ ← rollbackWindowsNetwork c
    return (false, message)

end Source

/-! ### What the commands do -/

/-- Who made the route of an interface: Windows, or a command. -/
inductive Origin where
  | system
  | added
deriving DecidableEq, Repr

/-- The firewall rules by their names, and the broadcast routes by their interfaces. -/
structure World where
  rule : WString → Bool
  route : WString → Option Origin

inductive Meaning where
  | addRule (rule : WString)
  | deleteRule (rule : WString)
  | addRoute (aliasName : WString)
  | deleteRoute (aliasName : WString)
  | other
deriving DecidableEq, Repr

/-- The commands that concern the rule and the route; the argument of a rule is `name=`
    and its name. -/
def meaning (arguments : List WString) : Meaning :=
  let verb := arguments.take 4
  if verb = [wide "advfirewall", wide "firewall", wide "add", wide "rule"] then
    .addRule ((arguments.getD 4 []).drop 5)
  else if verb = [wide "advfirewall", wide "firewall", wide "delete", wide "rule"] then
    .deleteRule ((arguments.getD 4 []).drop 5)
  else if verb = [wide "interface", wide "ipv4", wide "add", wide "route"] then
    .addRoute (arguments.getD 5 [])
  else if verb = [wide "interface", wide "ipv4", wide "delete", wide "route"] then
    .deleteRoute (arguments.getD 5 [])
  else .other

/-- Setting an address can make Windows create the interface's route. -/
def Effect (w w' : World) : Meaning → Prop
  | .addRule rule => w' = { w with rule := Function.update w.rule rule true }
  | .deleteRule rule => w' = { w with rule := Function.update w.rule rule false }
  | .addRoute aliasName => w' = { w with route := Function.update w.route aliasName (some .added) }
  | .deleteRoute aliasName => w' = { w with route := Function.update w.route aliasName none }
  | .other => w'.rule = w.rule ∧ ∀ a, w'.route a = w.route a ∨ w.route a = none ∧
  w'.route a = some .system

/-- What is assumed of the commands: success means that the effect is there,
    anything else leaves it open; a query tells the truth or fails. -/
structure Honest {σ : Type} (c : WindowsNetworkCommands σ) (world : σ → World) : Prop where
  execute : ∀ arguments timeout s, (c.execute arguments timeout s).1.absent = false ∧
    (Effect (world s) (world (c.execute arguments timeout s).2) (meaning arguments) ∨
      (c.execute arguments timeout s).1.ok = false ∧
      world (c.execute arguments timeout s).2 = world s)
  firewallRuleExists : ∀ rule s, world (c.firewallRuleExists rule s).2 = world s ∧
    ((c.firewallRuleExists rule s).1.absent = true → (world s).rule rule = false) ∧
    ((c.firewallRuleExists rule s).1.ok = true → (c.firewallRuleExists rule s).1.absent = false →
      (world s).rule rule = true)
  broadcastRouteExists : ∀ a s, world (c.broadcastRouteExists a s).2 = world s ∧
    ((c.broadcastRouteExists a s).1.absent = true → (world s).route a = none) ∧
    ((c.broadcastRouteExists a s).1.ok = true → (c.broadcastRouteExists a s).1.absent = false →
      (world s).route a ≠ none)
  shouldContinue : ∀ s, world (c.shouldContinue s).2 = world s
  commandTimeout : ∀ cap s, world (c.commandTimeout cap s).2 = world s
  operationStarted : ∀ operation s, world (c.operationStarted operation s) = world s
  retryDelay : ∀ s, world (c.retryDelay s) = world s
  beginCleanup : ∀ s, world (c.beginCleanup s) = world s

theorem drop_name (rule : WString) : (wide "name=" ++ rule).drop 5 = rule :=
  List.drop_left' (by decide)

@[simp] theorem meaning_addRule (rule localAddresses subnet : WString) :
    meaning (addRuleArguments rule localAddresses subnet) = .addRule rule := by
  unfold meaning addRuleArguments
  simp [drop_name]

@[simp] theorem meaning_deleteRule (rule : WString) :
    meaning (deleteRuleArguments rule) = .deleteRule rule := by
  have hadd : wide "delete" ≠ wide "add" := by decide
  unfold meaning deleteRuleArguments
  simp [drop_name, hadd]

@[simp] theorem meaning_addRoute (a : WString) : meaning (addRouteArguments a) = .addRoute a := by
  have hfirewall : wide "interface" ≠ wide "advfirewall" := by decide
  unfold meaning addRouteArguments
  simp [hfirewall]

@[simp] theorem meaning_deleteRoute (a : WString) :
    meaning (deleteRouteArguments a) = .deleteRoute a := by
  have hfirewall : wide "interface" ≠ wide "advfirewall" := by decide
  have hadd : wide "delete" ≠ wide "add" := by decide
  unfold meaning deleteRouteArguments
  simp [hfirewall, hadd]

/-- The settings of the interface concern neither. -/
theorem meaning_set (arguments : List WString) (object : WString) :
    meaning (wide "interface" :: wide "ipv4" :: wide "set" :: object :: arguments) = .other := by
  have hfirewall : wide "interface" ≠ wide "advfirewall" := by decide
  have hadd : wide "set" ≠ wide "add" := by decide
  have hdelete : wide "set" ≠ wide "delete" := by decide
  unfold meaning
  simp [hfirewall, hadd, hdelete]

/-! ### Specifications of the functions -/

abbrev Assertion := World → WindowsNetworkState → Prop

/-- An assertion about the system and the flags. -/
def At {σ : Type} (world : σ → World) (P : Assertion) (s : Setup σ) : Prop :=
  P (world s.commands) s.state

/-- What a rollback may change: the rule and the route can go, and a flag is
    cleared only when what it stands for is gone. -/
structure Rolled (w₀ : World) (st₀ : WindowsNetworkState) (w : World) (st : WindowsNetworkState) :
    Prop where
  aliasName : st.aliasName = st₀.aliasName
  firewallRule : st.firewallRule = st₀.firewallRule
  rule : w.rule st₀.firewallRule = w₀.rule st₀.firewallRule ∨ w.rule st₀.firewallRule = false
  route : w.route st₀.aliasName = w₀.route st₀.aliasName ∨ w.route st₀.aliasName = none
  firewall : st.firewallActive = st₀.firewallActive ∨ st.firewallActive = false ∧
      w.rule st₀.firewallRule = false
  broadcast : st.broadcastActive = st₀.broadcastActive ∨ st.broadcastActive = false ∧
      w.route st₀.aliasName = none

theorem Rolled.refl (w : World) (st : WindowsNetworkState) : Rolled w st w st :=
  ⟨rfl, rfl, .inl rfl, .inl rfl, .inl rfl, .inl rfl⟩

/-- The two halves of a rollback, one after the other. -/
theorem Rolled.trans {w₀ w₁ w₂ : World} {st₀ st₁ st₂ : WindowsNetworkState}
    (h₁ : Rolled w₀ st₀ w₁ st₁) (hrule : w₁.rule = w₀.rule)
    (hfirewall : st₁.firewallActive = st₀.firewallActive) (h₂ : Rolled w₁ st₁ w₂ st₂)
    (hroute : w₂.route = w₁.route) (hbroadcast : st₂.broadcastActive = st₁.broadcastActive) :
    Rolled w₀ st₀ w₂ st₂ where
  aliasName := h₂.aliasName.trans h₁.aliasName
  firewallRule := h₂.firewallRule.trans h₁.firewallRule
  rule := by
    have hkept := h₂.rule
    rwa [h₁.firewallRule, hrule] at hkept
  route := by rw [hroute]; exact h₁.route
  firewall := by
    have hkept := h₂.firewall
    rwa [h₁.firewallRule, hfirewall] at hkept
  broadcast := by rw [hroute, hbroadcast]; exact h₁.broadcast

section Specs

variable {σ ε α : Type} {c : WindowsNetworkCommands σ} {world : σ → World}

abbrev Spec (world : σ → World) (P : Assertion) (x : Procedure (Setup σ) ε α) (Q : α → Assertion)
    (E : ε → Assertion) : Prop :=
  Procedure.Triple (At world P) x (fun a => At world (Q a)) (fun e => At world (E e))

variable {P : Assertion} {Q : α → Assertion} {E : ε → Assertion}

theorem Spec.start {x : Procedure (Setup σ) ε α}
    (h : ∀ w₀ st₀, P w₀ st₀ → Spec world (fun w st => w = w₀ ∧ st = st₀) x Q E) :
    Spec world P x Q E := by
  intro s hs
  exact h (world s.commands) s.state hs s ⟨rfl, rfl⟩

theorem spec_call {f : σ → α × σ} (hf : ∀ s, world (f s).2 = world s) :
    Spec world P (call f) (fun _ => P) E := by
  apply Procedure.Triple.act
  intro s hs
  unfold At
  rw [hf]
  exact hs

theorem spec_notify {f : σ → σ} (hf : ∀ s, world (f s) = world s) :
    Spec world P (notify f) (fun _ => P) E := by
  apply Procedure.Triple.update
  intro s hs
  unfold At
  rw [hf]
  exact hs

theorem spec_setState {f : WindowsNetworkState → WindowsNetworkState} {Q : Assertion}
    (h : ∀ w st, P w st → Q w (f st)) : Spec world P (setState f) (fun _ => Q) E :=
  Procedure.Triple.update fun s hs => h (world s.commands) s.state hs

theorem spec_state : Spec world P state (fun s w st => s = st ∧ P w st) E :=
  Procedure.Triple.ask fun _ hs => ⟨rfl, hs⟩

variable (H : Honest c world)
include H

theorem spec_execute (arguments : List WString) :
    Spec world P (execute c arguments) (fun r w st => r.absent = false ∧
      ∃ w₀, P w₀ st ∧ (Effect w₀ w (meaning arguments) ∨ r.ok = false ∧ w = w₀)) E := by
  apply Procedure.Triple.bind (spec_call (H.commandTimeout 10000))
  intro timeout
  apply Procedure.Triple.act
  intro s hs
  obtain ⟨habsent, heffect⟩ := H.execute arguments timeout s.commands
  exact ⟨habsent, world s.commands, hs, heffect⟩

/-- The rule is as it was or gone; it is gone when the removal says so. -/
def Removal (w₀ : World) (rule : WString) (removed : Bool) (w : World) : Prop :=
  (w = w₀ ∨ w = { w₀ with rule := Function.update w₀.rule rule false }) ∧
    (removed = true → w.rule rule = false)

theorem spec_removeWindowsFirewall (operation : String) (w₀ : World) (st₀ : WindowsNetworkState) :
    Spec world (fun w st => w = w₀ ∧ st = st₀) (removeWindowsFirewall c operation)
      (fun removed w st => st = st₀ ∧ Removal w₀ st₀.firewallRule removed w) E := by
  apply Procedure.Triple.bind (spec_notify (H.operationStarted operation))
  intro _
  apply Procedure.Triple.bind (spec_call H.shouldContinue)
  intro continues
  apply Procedure.Triple.ite
  · intro _
    apply Procedure.Triple.pure
    rintro s ⟨hw, hst⟩
    exact ⟨hst, .inl hw, fun h => absurd h Bool.false_ne_true⟩
  · intro _
    apply Procedure.Triple.bind spec_state
    intro st
    apply Procedure.Triple.bind (R := fun found => At world fun w st' =>
      st' = st₀ ∧ st = st₀ ∧ w = w₀ ∧ (found.absent = true → w.rule st₀.firewallRule = false))
    · apply Procedure.Triple.act
      rintro s ⟨rfl, hw, hst⟩
      obtain ⟨hsame, habsent, -⟩ := H.firewallRuleExists s.state.firewallRule s.commands
      refine ⟨hst, hst, ?_, ?_⟩
      · rw [← hw]
        exact hsame
      · intro h
        dsimp only
        rw [hsame, ← hst]
        exact habsent h
    · intro found
      apply Procedure.Triple.ite
      · intro _
        apply Procedure.Triple.pure
        rintro s ⟨hst, -, hw, habsent⟩
        exact ⟨hst, .inl hw, habsent⟩
      · intro _
        apply Procedure.Triple.bind (spec_execute H _)
        intro result
        apply Procedure.Triple.pure
        rintro s ⟨-, w₁, ⟨hst, rfl, rfl, -⟩, heffect⟩
        rw [meaning_deleteRule] at heffect
        refine ⟨hst, ?_, ?_⟩
        · rcases heffect with heffect | ⟨-, hsame⟩
          · exact .inr heffect
          · exact .inl hsame
        · intro hok
          rcases heffect with heffect | ⟨hfailed, -⟩
          · rw [heffect]
            exact Function.update_self _ _ _
          · exact absurd (hok.symm.trans hfailed) Bool.true_eq_false.mp

/-- The route is as it was or gone; it is gone when the result counts as a success. -/
def RouteRemoval (w₀ : World) (a : WString) (result : WindowsCommandResult) (w : World) : Prop :=
  (w = w₀ ∨ w = { w₀ with route := Function.update w₀.route a none }) ∧
    (result.ok = true ∨ result.absent = true → w.route a = none)

theorem spec_removeBroadcastRoute (w₀ : World) (st₀ : WindowsNetworkState) :
    Spec world (fun w st => w = w₀ ∧ st = st₀) (removeBroadcastRoute c)
      (fun result w st => st = st₀ ∧ RouteRemoval w₀ st₀.aliasName result w) E := by
  apply Procedure.Triple.bind spec_state
  intro st
  apply Procedure.Triple.bind (R := fun found => At world fun w st' =>
    st' = st₀ ∧ st = st₀ ∧ w = w₀ ∧ (found.absent = true → w.route st₀.aliasName = none))
  · apply Procedure.Triple.act
    rintro s ⟨rfl, hw, hst⟩
    obtain ⟨hsame, habsent, -⟩ := H.broadcastRouteExists s.state.aliasName s.commands
    refine ⟨hst, hst, ?_, ?_⟩
    · rw [← hw]
      exact hsame
    · intro h
      dsimp only
      rw [hsame, ← hst]
      exact habsent h
  · intro found
    apply Procedure.Triple.ite
    · intro _
      apply (spec_execute H _).weaken (fun _ hs => hs) _ fun _ _ he => he
      rintro result s ⟨hno, w₁, ⟨hst, rfl, rfl, -⟩, heffect⟩
      rw [meaning_deleteRoute] at heffect
      refine ⟨hst, ?_, ?_⟩
      · rcases heffect with heffect | ⟨-, hsame⟩
        · exact .inr heffect
        · exact .inl hsame
      · intro hdone
        rcases heffect with heffect | ⟨hfailed, -⟩
        · rw [heffect]
          exact Function.update_self _ _ _
        · rw [hfailed, hno] at hdone
          simp at hdone
    · intro hcond
      apply Procedure.Triple.pure
      rintro s ⟨hst, -, hw, habsent⟩
      refine ⟨hst, .inl hw, ?_⟩
      rintro (hok | hfound)
      · -- The query succeeded and nothing was deleted, so it found nothing.
        apply habsent
        rw [hok, Bool.true_and, Bool.not_eq_true', Bool.not_eq_false] at hcond
        exact hcond
      · exact habsent hfound

theorem spec_rollbackBroadcast (w₀ : World) (st₀ : WindowsNetworkState) :
    Spec world (fun w st => w = w₀ ∧ st = st₀) (rollbackBroadcast c)
      (fun done w st => Rolled w₀ st₀ w st ∧ w.rule = w₀.rule ∧
        st.firewallActive = st₀.firewallActive ∧
        (done = true → st.broadcastActive = false)) E := by
  apply Procedure.Triple.bind (spec_notify (H.operationStarted _))
  intro _
  apply Procedure.Triple.bind (spec_removeBroadcastRoute H w₀ st₀)
  intro result
  have hroute : ∀ {w : World}, RouteRemoval w₀ st₀.aliasName result w →
      w.rule = w₀.rule ∧ (w.route st₀.aliasName = w₀.route st₀.aliasName ∨
        w.route st₀.aliasName = none) := by
    rintro w ⟨rfl | rfl, -⟩
    · exact ⟨rfl, .inl rfl⟩
    · exact ⟨rfl, .inr (Function.update_self _ _ _)⟩
  apply Procedure.Triple.ite
  · intro hdone
    apply Procedure.Triple.bind
      (spec_setState (Q := fun w st => Rolled w₀ st₀ w st ∧ w.rule = w₀.rule ∧
      st.firewallActive = st₀.firewallActive ∧ st.broadcastActive = false) _)
    · intro _
      exact Procedure.Triple.pure fun s hs => ⟨hs.1, hs.2.1, hs.2.2.1, fun _ => hs.2.2.2⟩
    · rintro w st ⟨rfl, hremoval⟩
      obtain ⟨hrule, hkept⟩ := hroute hremoval
      have hgone := hremoval.2 (Bool.or_eq_true_iff.mp hdone)
      exact ⟨⟨rfl, rfl, .inl (by rw [hrule]), hkept, .inl rfl, .inr ⟨rfl, hgone⟩⟩, hrule, rfl, rfl⟩
  · intro _
    apply Procedure.Triple.pure
    rintro s ⟨hst, hremoval⟩
    obtain ⟨hrule, hkept⟩ := hroute hremoval
    refine ⟨⟨?_, ?_, .inl (by rw [hrule]), hkept, .inl ?_, .inl ?_⟩, hrule, ?_,
      fun h => absurd h Bool.false_ne_true⟩
    all_goals rw [hst]

theorem spec_rollbackFirewall (w₀ : World) (st₀ : WindowsNetworkState) :
    Spec world (fun w st => w = w₀ ∧ st = st₀) (rollbackFirewall c)
      (fun done w st => Rolled w₀ st₀ w st ∧ w.route = w₀.route ∧
        st.broadcastActive = st₀.broadcastActive ∧
        (done = true → st.firewallActive = false)) E := by
  apply Procedure.Triple.bind (spec_removeWindowsFirewall H _ w₀ st₀)
  intro removed
  have hrule : ∀ {w : World}, Removal w₀ st₀.firewallRule removed w → w.route = w₀.route ∧
      (w.rule st₀.firewallRule = w₀.rule st₀.firewallRule ∨ w.rule st₀.firewallRule = false) := by
    rintro w ⟨rfl | rfl, -⟩
    · exact ⟨rfl, .inl rfl⟩
    · exact ⟨rfl, .inr (Function.update_self _ _ _)⟩
  apply Procedure.Triple.ite
  · intro hdone
    apply Procedure.Triple.bind
      (spec_setState (Q := fun w st => Rolled w₀ st₀ w st ∧ w.route = w₀.route ∧
      st.broadcastActive = st₀.broadcastActive ∧ st.firewallActive = false) _)
    · intro _
      exact Procedure.Triple.pure fun s hs => ⟨hs.1, hs.2.1, hs.2.2.1, fun _ => hs.2.2.2⟩
    · rintro w st ⟨rfl, hremoval⟩
      obtain ⟨hroute, hkept⟩ := hrule hremoval
      have hgone := hremoval.2 hdone
      exact ⟨⟨rfl, rfl, hkept, .inl (by rw [hroute]), .inr ⟨rfl, hgone⟩, .inl rfl⟩,
        hroute, rfl, rfl⟩
  · intro _
    apply Procedure.Triple.pure
    rintro s ⟨hst, hremoval⟩
    obtain ⟨hroute, hkept⟩ := hrule hremoval
    refine ⟨⟨?_, ?_, hkept, .inl (by rw [hroute]), .inl ?_, .inl ?_⟩, hroute, ?_,
      fun h => absurd h Bool.false_ne_true⟩
    all_goals rw [hst]

theorem spec_rollbackWindowsNetwork (w₀ : World) (st₀ : WindowsNetworkState) :
    Spec world (fun w st => w = w₀ ∧ st = st₀) (rollbackWindowsNetwork c)
      (fun done w st => Rolled w₀ st₀ w st ∧
        (done = true → st.firewallActive = false ∧ st.broadcastActive = false)) E := by
  apply Procedure.Triple.bind (spec_notify H.beginCleanup)
  intro _
  apply Procedure.Triple.bind spec_state
  intro st
  apply Procedure.Triple.bind (R := fun done => At world fun w st => Rolled w₀ st₀ w st ∧
    w.rule = w₀.rule ∧
    st.firewallActive = st₀.firewallActive ∧ (done = true → st.broadcastActive = false))
  · apply Procedure.Triple.ite
    · intro _
      exact (spec_rollbackBroadcast H w₀ st₀).weaken (fun _ hs => hs.2)
        (fun _ _ hq => hq) fun _ _ he => he
    · intro hidle
      apply Procedure.Triple.pure
      rintro s ⟨hstate, hw, hst⟩
      unfold At
      rw [hw, hst]
      refine ⟨.refl _ _, rfl, rfl, fun _ => ?_⟩
      rw [← hst, ← hstate]
      simpa using hidle
  · intro broadcast
    apply Procedure.Triple.bind spec_state
    intro st₁
    apply Spec.start
    rintro w₁ st₁' ⟨hst₁, hrolled, hrule, hfirewall, hdone⟩
    apply Procedure.Triple.bind (R := fun done => At world fun w st => Rolled w₁ st₁' w st ∧
      w.route = w₁.route ∧
      st.broadcastActive = st₁'.broadcastActive ∧ (done = true → st.firewallActive = false))
    · apply Procedure.Triple.ite
      · intro _
        exact spec_rollbackFirewall H w₁ st₁'
      · intro hidle
        apply Procedure.Triple.pure
        rintro s ⟨hw, hst⟩
        unfold At
        rw [hw, hst]
        refine ⟨.refl _ _, rfl, rfl, fun _ => ?_⟩
        rw [← hst₁]
        simpa using hidle
    · intro firewall
      apply Procedure.Triple.pure
      rintro s ⟨hrolled₂, hroute, hbroadcast, hdone₂⟩
      refine ⟨hrolled.trans hrule hfirewall hrolled₂ hroute hbroadcast, fun h => ?_⟩
      rw [Bool.and_eq_true] at h
      exact ⟨hdone₂ h.2, hbroadcast.trans (hdone h.1)⟩

/-- Nothing of ours is there: the precondition of a configuration, once it has named its rule. -/
def Clean (a rule : WString) (w : World) (st : WindowsNetworkState) : Prop :=
  (st.aliasName = a ∧ st.firewallRule = rule) ∧ w.rule rule = false ∧ w.route a ≠ some .added ∧
    st.firewallActive = false ∧ st.broadcastActive = false

/-- **What is there and is ours is flagged.** -/
def Owned (a rule : WString) (w : World) (st : WindowsNetworkState) : Prop :=
  (st.aliasName = a ∧ st.firewallRule = rule) ∧ (w.rule rule = true → st.firewallActive = true) ∧
    (w.route a = some .added → st.broadcastActive = true)

/-- The rule has been dealt with, the route has not. -/
def RuleSet (a rule : WString) (w : World) (st : WindowsNetworkState) : Prop :=
  (st.aliasName = a ∧ st.firewallRule = rule) ∧ w.rule rule = st.firewallActive ∧
    w.route a ≠ some .added ∧
    st.broadcastActive = false

def Configured (a rule : WString) (w : World) (st : WindowsNetworkState) : Prop :=
  (st.aliasName = a ∧ st.firewallRule = rule) ∧ w.rule rule = true ∧ w.route a ≠ none ∧
    st.firewallActive = true ∧ st.broadcastActive = true

variable {a rule : WString}

omit H in
theorem Clean.owned {w : World} {st : WindowsNetworkState} (h : Clean a rule w st) :
    Owned a rule w st :=
  ⟨h.1, fun hrule => absurd (hrule.symm.trans h.2.1) Bool.true_eq_false.mp,
    fun hroute => absurd hroute h.2.2.1⟩

omit H in
theorem RuleSet.owned {w : World} {st : WindowsNetworkState} (h : RuleSet a rule w st) :
    Owned a rule w st :=
  ⟨h.1, fun hrule => h.2.1.symm.trans hrule, fun hroute => absurd hroute h.2.2.1⟩

/-- A command that `configureWindowsNetwork` runs through `run`. -/
theorem spec_runCommand (operation : String) (arguments : List WString) {P Q T : Assertion}
    (hstop : ∀ w st, P w st → T w st)
    (hdone : ∀ w₀ w st, P w₀ st → Effect w₀ w (meaning arguments) → Q w st)
    (hfailed : ∀ w₀ w st, P w₀ st → Effect w₀ w (meaning arguments) → T w st) :
    Spec world P (runCommand c operation arguments) (fun _ => Q) (fun _ => T) := by
  apply Procedure.Triple.bind (spec_notify (H.operationStarted operation))
  intro _
  apply Procedure.Triple.bind (spec_call H.shouldContinue)
  intro continues
  apply Procedure.Triple.ite
  · intro _
    exact Procedure.Triple.raise fun s hs => hstop _ _ hs
  · intro _
    apply Procedure.Triple.bind (spec_execute H arguments)
    intro result
    apply Procedure.Triple.ite
    · intro hok
      apply Procedure.Triple.pure
      rintro s ⟨-, w₀, hw₀, heffect | ⟨hfailed, -⟩⟩
      · exact hdone w₀ _ _ hw₀ heffect
      · exact absurd (hok.symm.trans hfailed) Bool.true_eq_false.mp
    · intro _
      apply Procedure.Triple.raise
      rintro s ⟨-, w₀, hw₀, heffect | ⟨-, hsame⟩⟩
      · exact hfailed w₀ _ _ hw₀ heffect
      · unfold At
        rw [hsame]
        exact hstop _ _ hw₀

/-- A setting of the interface leaves nothing of ours behind. -/
theorem spec_setting (operation : String) (object : WString) (arguments : List WString) :
    Spec world (Clean a rule)
      (runCommand c operation
        (wide "interface" :: wide "ipv4" :: wide "set" :: object :: arguments))
      (fun _ => Clean a rule) (fun _ => Owned a rule) := by
  have hclean : ∀ w₀ w st, Clean a rule w₀ st →
      Effect w₀ w (meaning (wide "interface" :: wide "ipv4" :: wide "set" :: object :: arguments)) →
      Clean a rule w st := by
    rintro w₀ w st ⟨hnames, hrule, hroute, hflags⟩ heffect
    rw [meaning_set] at heffect
    obtain ⟨hsame, hroutes⟩ := heffect
    refine ⟨hnames, by rw [hsame, hrule], ?_, hflags⟩
    rcases hroutes a with hkept | ⟨-, hsystem⟩
    · rwa [hkept]
    · simp [hsystem]
  exact spec_runCommand H operation _ (fun _ _ h => h.owned) hclean fun w₀ w st h he =>
    (hclean w₀ w st h he).owned

/-- The attempts at the rule: the flag is up before a failed one is taken back. -/
theorem spec_addFirewallRule (localAddresses subnet : WString) (left : Nat) :
    Spec world (Clean a rule) (addFirewallRule c localAddresses subnet left)
    (fun _ => RuleSet a rule)
      (fun _ => Owned a rule) := by
  induction left with
  | zero =>
    apply Procedure.Triple.pure
    rintro s ⟨hnames, hrule, hroute, hfirewall, hbroadcast⟩
    exact ⟨hnames, by rw [hrule, hfirewall], hroute, hbroadcast⟩
  | succ left ih =>
    apply Procedure.Triple.bind (spec_notify (H.operationStarted _))
    intro _
    apply Procedure.Triple.bind (spec_call H.shouldContinue)
    intro continues
    apply Procedure.Triple.ite
    · intro _
      exact Procedure.Triple.raise fun s hs => Clean.owned hs
    · intro _
      apply Procedure.Triple.bind spec_state
      intro st
      apply Procedure.Triple.bind (spec_execute H _)
      intro result
      apply Procedure.Triple.ite
      · intro hok
        apply spec_setState
        rintro w st' ⟨-, w₀, ⟨hst, hnames, hrule, hroute, -, hbroadcast⟩, heffect⟩
        rw [meaning_addRule] at heffect
        rcases heffect with rfl | ⟨hfailed, -⟩
        · refine ⟨hnames, ?_, hroute, hbroadcast⟩
          dsimp only
          rw [hst, hnames.2]
          exact Function.update_self _ _ _
        · exact absurd (hok.symm.trans hfailed) Bool.true_eq_false.mp
      · intro _
        apply Procedure.Triple.bind (R := fun _ => At world fun w st' =>
          (st'.aliasName = a ∧ st'.firewallRule = rule) ∧ w.route a ≠ some .added ∧
            st'.firewallActive = true ∧
            st'.broadcastActive = false)
        · apply spec_setState
          rintro w st' ⟨-, w₀, ⟨hst, hnames, hrule, hroute, -, hbroadcast⟩, heffect⟩
          rw [meaning_addRule] at heffect
          rcases heffect with rfl | ⟨-, rfl⟩
          · exact ⟨hnames, hroute, rfl, hbroadcast⟩
          · exact ⟨hnames, hroute, rfl, hbroadcast⟩
        · intro _
          apply Spec.start
          rintro w₁ st₁ ⟨hnames, hroute, hfirewall, hbroadcast⟩
          apply Procedure.Triple.bind (spec_removeWindowsFirewall H _ w₁ st₁)
          intro removed
          have hroutes : ∀ {w : World}, Removal w₁ st₁.firewallRule removed w →
              w.route = w₁.route := by
            rintro w ⟨rfl | rfl, -⟩
            · rfl
            · rfl
          apply Procedure.Triple.ite
          · intro _
            apply Procedure.Triple.raise
            rintro s ⟨hst, hremoval⟩
            refine ⟨hst ▸ hnames, fun _ => hst ▸ hfirewall, fun hadded => ?_⟩
            rw [hroutes hremoval] at hadded
            exact absurd hadded hroute
          · intro hremoved
            apply Procedure.Triple.bind (R := fun _ => At world (Clean a rule))
            · apply spec_setState
              rintro w st' ⟨hst, hremoval⟩
              have hgone := hremoval.2 (by simpa using hremoved)
              rw [hnames.2] at hgone
              exact ⟨hst ▸ hnames, hgone, by rwa [hroutes hremoval], rfl, hst ▸ hbroadcast⟩
            · intro _
              apply Procedure.Triple.bind (R := fun _ => At world (Clean a rule))
              · apply Procedure.Triple.ite
                · intro _
                  exact spec_notify H.retryDelay
                · intro _
                  exact Procedure.Triple.pure fun _ hs => hs
              · intro _
                exact ih

theorem spec_configureInterface (aliasName : WString) (ip mask : UInt32) (mtu : Int) :
    Spec world (Clean a rule) (configureInterface c aliasName ip mask mtu) (fun _ => Clean a rule)
      (fun _ => Owned a rule) := by
  apply Procedure.Triple.bind (spec_setting H _ _ _)
  intro _
  apply Procedure.Triple.bind (spec_setting H _ _ _)
  intro _
  apply Procedure.Triple.ite
  · intro _
    exact spec_setting H _ _ _
  · intro _
    exact Procedure.Triple.pure fun _ hs => hs

theorem spec_configureBroadcast :
    Spec world (fun w st => RuleSet a rule w st ∧ st.firewallActive = true) (configureBroadcast c)
      (fun _ => Configured a rule) (fun _ => Owned a rule) := by
  apply Procedure.Triple.bind (spec_notify (H.operationStarted _))
  intro _
  apply Procedure.Triple.bind (spec_call H.shouldContinue)
  intro continues
  apply Procedure.Triple.ite
  · intro _
    exact Procedure.Triple.raise fun s hs => RuleSet.owned hs.1
  · intro _
    apply Procedure.Triple.bind spec_state
    intro st
    apply Spec.start
    rintro w₀ st₀ ⟨rfl, ⟨hnames, hrule, hroute, -⟩, hfirewall⟩
    apply Procedure.Triple.bind (spec_removeBroadcastRoute H w₀ st)
    intro previousRoute
    have hkept : ∀ {w : World}, RouteRemoval w₀ st.aliasName previousRoute w →
        w.rule = w₀.rule ∧ w.route a ≠ some .added := by
      rintro w ⟨rfl | rfl, -⟩
      · exact ⟨rfl, hroute⟩
      · refine ⟨rfl, ?_⟩
        dsimp only
        rw [hnames.1, Function.update_self]
        simp
    apply Procedure.Triple.ite
    · intro _
      apply Procedure.Triple.raise
      rintro s ⟨hst, hremoval⟩
      exact ⟨hst ▸ hnames, fun _ => hst ▸ hfirewall, fun hadded => absurd hadded (hkept hremoval).2⟩
    · intro _
      apply Procedure.Triple.bind (R := fun _ => At world fun w st' =>
        (st'.aliasName = a ∧ st'.firewallRule = rule) ∧ w.rule rule = true ∧
          st'.firewallActive = true ∧
          st'.broadcastActive = true)
      · apply spec_setState
        rintro w st' ⟨hst, hremoval⟩
        refine ⟨hst ▸ hnames, ?_, hst ▸ hfirewall, rfl⟩
        rw [(hkept hremoval).1, hrule, hfirewall]
      · intro _
        rw [hnames.1]
        -- Both flags are up, so nothing can be left behind unflagged.
        apply spec_runCommand H
        · rintro w st' ⟨hnames', -, hfirewall', hbroadcast'⟩
          exact ⟨hnames', fun _ => hfirewall', fun _ => hbroadcast'⟩
        · rintro w₁ w st' ⟨hnames', hrule', hflags'⟩ heffect
          rw [meaning_addRoute] at heffect
          obtain rfl := heffect
          refine ⟨hnames', hrule', ?_, hflags'⟩
          dsimp only
          rw [Function.update_self]
          simp
        · rintro w₁ w st' ⟨hnames', -, hfirewall', hbroadcast'⟩ -
          exact ⟨hnames', fun _ => hfirewall', fun _ => hbroadcast'⟩

theorem spec_configureSteps (ip mask : UInt32) (mtu : Int) :
    Spec world (Clean a rule) (configureSteps c ip mask mtu) (fun _ => Configured a rule)
    (fun _ => Owned a rule) := by
  apply Procedure.Triple.bind spec_state
  intro st
  apply Procedure.Triple.ite
  · intro _
    exact Procedure.Triple.raise fun s hs => Clean.owned hs.2
  · intro _
    split
    · exact Procedure.Triple.raise fun s hs => Clean.owned hs.2
    · apply Procedure.Triple.bind (R := fun _ => At world (Clean a rule))
      · exact (spec_configureInterface H _ _ _ _).weaken (fun s hs => hs.2)
          (fun _ _ hq => hq) fun _ _ he => he
      · intro _
        apply Spec.start
        rintro w₁ st₁ ⟨hnames, hrule, hroute, hflags⟩
        apply Procedure.Triple.bind (spec_removeWindowsFirewall H _ w₁ st₁)
        intro removed
        have hclean : ∀ {w : World} {st' : WindowsNetworkState},
            st' = st₁ ∧ Removal w₁ st₁.firewallRule removed w → Clean a rule w st' := by
          rintro w st' ⟨rfl, rfl | rfl, -⟩
          · exact ⟨hnames, hrule, hroute, hflags⟩
          · refine ⟨hnames, ?_, hroute, hflags⟩
            dsimp only
            rw [hnames.2]
            exact Function.update_self _ _ _
        apply Procedure.Triple.ite
        · intro _
          exact Procedure.Triple.raise fun s hs => (hclean hs).owned
        · intro _
          apply Procedure.Triple.bind (R := fun _ => At world (RuleSet a rule))
          · exact (spec_addFirewallRule H _ _ _).weaken (fun s hs => hclean hs)
              (fun _ _ hq => hq) fun _ _ he => he
          · intro _
            apply Procedure.Triple.bind spec_state
            intro st₂
            apply Procedure.Triple.ite
            · intro _
              exact Procedure.Triple.raise fun s hs => RuleSet.owned hs.2
            · intro hactive
              apply (spec_configureBroadcast H).weaken _ (fun _ _ hq => hq) fun _ _ he => he
              rintro s ⟨rfl, hset⟩
              exact ⟨hset, by simpa using hactive⟩

omit H in
/-- A rollback keeps what is left of ours flagged. -/
theorem Rolled.owned {w₀ w : World} {st₀ st : WindowsNetworkState} (h : Rolled w₀ st₀ w st)
    (h₀ : Owned a rule w₀ st₀) :
    Owned a rule w st := by
  obtain ⟨⟨rfl, rfl⟩, hrule₀, hroute₀⟩ := h₀
  refine ⟨⟨h.aliasName, h.firewallRule⟩, ?_, ?_⟩
  · intro hrule
    rcases h.rule with hsame | hgone
    · rcases h.firewall with hflag | ⟨-, hgone⟩
      · rw [hflag]
        exact hrule₀ (hsame.symm.trans hrule)
      · exact absurd (hrule.symm.trans hgone) Bool.true_eq_false.mp
    · exact absurd (hrule.symm.trans hgone) Bool.true_eq_false.mp
  · intro hroute
    rcases h.route with hsame | hgone
    · rcases h.broadcast with hflag | ⟨-, hgone⟩
      · rw [hflag]
        exact hroute₀ (hsame.symm.trans hroute)
      · cases hroute.symm.trans hgone
    · cases hroute.symm.trans hgone

theorem spec_configureWindowsNetwork (ip mask : UInt32) (mtu : Int) :
    Spec world (fun w st => st.aliasName = a ∧ w.rule (ruleName a) = false ∧
      w.route a ≠ some .added ∧
        st.firewallActive = false ∧ st.broadcastActive = false)
      (configureWindowsNetwork c ip mask mtu)
      (fun result w st => Owned a (ruleName a) w st ∧
        (result.1 = true → Configured a (ruleName a) w st)) E := by
  apply Procedure.Triple.bind (R := fun _ => At world (Clean a (ruleName a)))
  · apply spec_setState
    rintro w st ⟨hname, hrule, hroute, hflags⟩
    exact ⟨⟨hname, by rw [← hname]⟩, hrule, hroute, hflags⟩
  · intro _
    apply Procedure.Triple.handle (F := fun _ => At world (Owned a (ruleName a)))
    · apply Procedure.Triple.bind (spec_configureSteps H ip mask mtu)
      intro _
      apply Procedure.Triple.pure
      rintro s ⟨hnames, hrule, hroute, hfirewall, hbroadcast⟩
      exact ⟨⟨hnames, fun _ => hfirewall, fun _ => hbroadcast⟩,
        fun _ => ⟨hnames, hrule, hroute, hfirewall, hbroadcast⟩⟩
    · intro message
      apply Spec.start
      intro w₀ st₀ howned
      apply Procedure.Triple.bind (spec_rollbackWindowsNetwork H w₀ st₀)
      intro _
      apply Procedure.Triple.pure
      rintro s ⟨hrolled, -⟩
      exact ⟨hrolled.owned howned, fun h => absurd h Bool.false_ne_true⟩

end Specs

/-! ### What a rollback asks for -/

/-- What a rollback asks of the commands, and the answer. -/
inductive Request where
  | continues (answer : Bool)
  | findRule (rule : WString) (found : WindowsCommandResult)
  | findRoute (aliasName : WString) (found : WindowsCommandResult)
  | execute (arguments : List WString) (result : WindowsCommandResult)

section Recorded

variable {σ ε α : Type} {c : WindowsNetworkCommands σ}

def record (f : σ → α × σ) (request : α → Request) (s : σ × List Request) : α × σ × List Request :=
  ((f s.1).1, (f s.1).2, s.2 ++ [request (f s.1).1])

/-- The same commands, with a list of what they were asked. -/
def recorded (c : WindowsNetworkCommands σ) : WindowsNetworkCommands (σ × List Request) where
  execute arguments timeout := record (c.execute arguments timeout) (.execute arguments)
  firewallRuleExists rule := record (c.firewallRuleExists rule) (.findRule rule)
  broadcastRouteExists aliasName := record (c.broadcastRouteExists aliasName) (.findRoute aliasName)
  retryDelay s := (c.retryDelay s.1, s.2)
  shouldContinue := record c.shouldContinue .continues
  commandTimeout cap s := ((c.commandTimeout cap s.1).1, (c.commandTimeout cap s.1).2, s.2)
  operationStarted operation s := (c.operationStarted operation s.1, s.2)
  beginCleanup s := (c.beginCleanup s.1, s.2)

def Setup.recording (s : Setup σ) (log : List Request) : Setup (σ × List Request) :=
  ⟨(s.commands, log), s.state⟩

def Setup.unrecorded (s : Setup (σ × List Request)) : Setup σ := ⟨s.commands.1, s.state⟩

/-! The list changes nothing. -/

theorem erases_call {f : σ → α × σ} {g : σ × List Request → α × σ × List Request}
    (h : ∀ s, (g s).1 = (f s.1).1 ∧ (g s).2.1 = (f s.1).2) :
    Procedure.Erases Setup.unrecorded (call g : Procedure _ ε α) (call f) := by
  apply Procedure.Erases.act
  intro s
  obtain ⟨hanswer, hstate⟩ := h s.commands
  exact ⟨hanswer, congrArg (fun commands => (⟨commands, s.state⟩ : Setup σ)) hstate⟩

theorem erases_notify {f : σ → σ} {g : σ × List Request → σ × List Request}
    (h : ∀ s, (g s).1 = f s.1) :
    Procedure.Erases Setup.unrecorded (notify g : Procedure _ ε Unit) (notify f) := by
  apply Procedure.Erases.update
  intro s
  exact congrArg (fun commands => (⟨commands, s.state⟩ : Setup σ)) (h s.commands)

theorem erases_setState (f : WindowsNetworkState → WindowsNetworkState) :
    Procedure.Erases Setup.unrecorded
    (setState f : Procedure (Setup (σ × List Request)) ε Unit) (setState f) :=
  Procedure.Erases.update fun _ => rfl

theorem erases_state :
    Procedure.Erases Setup.unrecorded
    (state : Procedure (Setup (σ × List Request)) ε WindowsNetworkState) state :=
  Procedure.Erases.ask fun _ => rfl

theorem erases_execute (arguments : List WString) :
    Procedure.Erases Setup.unrecorded (execute (recorded c) arguments : Procedure _ ε _)
    (execute c arguments) := by
  apply Procedure.Erases.bind (erases_call fun _ => ⟨rfl, rfl⟩)
  intro timeout
  exact erases_call fun _ => ⟨rfl, rfl⟩

theorem erases_removeWindowsFirewall (operation : String) :
    Procedure.Erases Setup.unrecorded
    (removeWindowsFirewall (recorded c) operation : Procedure _ ε Bool)
      (removeWindowsFirewall c operation) := by
  apply Procedure.Erases.bind (erases_notify fun _ => rfl)
  intro _
  apply Procedure.Erases.bind (erases_call fun _ => ⟨rfl, rfl⟩)
  intro continues
  apply Procedure.Erases.ite
  · intro _
    exact Procedure.Erases.pure false
  · intro _
    apply Procedure.Erases.bind erases_state
    intro s
    apply Procedure.Erases.bind (erases_call fun _ => ⟨rfl, rfl⟩)
    intro found
    apply Procedure.Erases.ite
    · intro _
      exact Procedure.Erases.pure found.absent
    · intro _
      apply Procedure.Erases.bind (erases_execute _)
      intro result
      exact Procedure.Erases.pure result.ok

theorem erases_removeBroadcastRoute :
    Procedure.Erases Setup.unrecorded (removeBroadcastRoute (recorded c) : Procedure _ ε _)
      (removeBroadcastRoute c) := by
  apply Procedure.Erases.bind erases_state
  intro s
  apply Procedure.Erases.bind (erases_call fun _ => ⟨rfl, rfl⟩)
  intro result
  apply Procedure.Erases.ite
  · intro _
    exact erases_execute _
  · intro _
    exact Procedure.Erases.pure result

/-- A flag is cleared when its removal says so. -/
theorem erases_clear {x : Procedure (Setup (σ × List Request)) ε α} {y : Procedure (Setup σ) ε α}
    (hx : Procedure.Erases Setup.unrecorded x y) (removed : α → Bool)
    (clear : WindowsNetworkState → WindowsNetworkState) :
    Procedure.Erases Setup.unrecorded
      (do
        let result ← x
        if removed result then (do setState clear; return true) else return false)
      (do
        let result ← y
        if removed result then (do setState clear; return true) else return false) := by
  apply Procedure.Erases.bind hx
  intro result
  apply Procedure.Erases.ite
  · intro _
    apply Procedure.Erases.bind (erases_setState clear)
    intro _
    exact Procedure.Erases.pure true
  · intro _
    exact Procedure.Erases.pure false

theorem erases_rollbackWindowsNetwork :
    Procedure.Erases Setup.unrecorded (rollbackWindowsNetwork (recorded c) : Procedure _ ε Bool)
      (rollbackWindowsNetwork c) := by
  apply Procedure.Erases.bind (erases_notify fun _ => rfl)
  intro _
  apply Procedure.Erases.bind erases_state
  intro s
  apply Procedure.Erases.bind
  · apply Procedure.Erases.ite
    · intro _
      apply Procedure.Erases.bind (erases_notify fun _ => rfl)
      intro _
      exact erases_clear erases_removeBroadcastRoute (fun result => result.ok || result.absent)
        fun s => { s with broadcastActive := false }
    · intro _
      exact Procedure.Erases.pure true
  · intro broadcast
    apply Procedure.Erases.bind erases_state
    intro s
    apply Procedure.Erases.bind
    · apply Procedure.Erases.ite
      · intro _
        exact erases_clear (erases_removeWindowsFirewall _) (fun removed => removed)
          fun s => { s with firewallActive := false }
      · intro _
        exact Procedure.Erases.pure true
    · intro firewall
      exact Procedure.Erases.pure (broadcast && firewall)

/-! What the list says. -/

/-- The flags are these, and all of `log` is on the list. -/
def Held (st : WindowsNetworkState) (log : List Request) (s : Setup (σ × List Request)) : Prop :=
  s.state = st ∧ log ⊆ s.commands.2

variable {st : WindowsNetworkState} {log : List Request} {E : ε → Setup (σ × List Request) → Prop}

theorem held_record (f : σ → α × σ) (request : α → Request) :
    Procedure.Triple (Held st log) (call (record f request))
    (fun a => Held st (log ++ [request a])) E := by
  apply Procedure.Triple.act
  rintro s ⟨hstate, hlog⟩
  refine ⟨hstate, List.append_subset.mpr ⟨?_, ?_⟩⟩
  · exact List.Subset.trans hlog (List.subset_append_left _ _)
  · exact List.subset_append_right _ _

theorem held_notify (f : σ → σ) :
    Procedure.Triple (Held st log) (notify fun s => (f s.1, s.2)) (fun _ => Held st log) E :=
  Procedure.Triple.update fun _ hs => hs

theorem held_state {x : WindowsNetworkState → Procedure (Setup (σ × List Request)) ε α}
    {Q : α → Setup (σ × List Request) → Prop} (h : Procedure.Triple (Held st log) (x st) Q E) :
    Procedure.Triple (Held st log) (state >>= x) Q E := by
  apply Procedure.Triple.bind (R := fun s s' => s = st ∧ Held st log s')
  · apply Procedure.Triple.ask
    intro s hs
    exact ⟨hs.1, hs⟩
  · intro s
    apply Procedure.Triple.assume
    rintro rfl
    exact h

theorem held_execute (arguments : List WString) :
    Procedure.Triple (Held st log) (execute (recorded c) arguments)
      (fun result => Held st (log ++ [.execute arguments result])) E := by
  apply Procedure.Triple.bind (R := fun _ => Held st log)
  · apply Procedure.Triple.act
    intro s hs
    exact hs
  · intro timeout
    exact held_record (c.execute arguments timeout) _

/-- The route was looked up, and its removal was ordered if it was found. -/
def RouteTried (aliasName : WString) (log : List Request) : Prop :=
  ∃ found, .findRoute aliasName found ∈ log ∧ (found.ok = true → found.absent = false →
    ∃ result, .execute (deleteRouteArguments aliasName) result ∈ log)

/-- Unless the work must stop, the rule was looked up, and its removal was ordered
    if it was found. -/
def RuleTried (rule : WString) (log : List Request) : Prop :=
  ∃ answer, .continues answer ∈ log ∧ (answer = true → ∃ found, .findRule rule found ∈ log ∧
    (found.ok = true → found.absent = false →
      ∃ result, .execute (deleteRuleArguments rule) result ∈ log))

theorem RouteTried.mono {aliasName : WString} {log more : List Request}
    (h : RouteTried aliasName log) (hlog : log ⊆ more) : RouteTried aliasName more := by
  obtain ⟨found, hfound, hdeleted⟩ := h
  refine ⟨found, hlog hfound, fun hok hpresent => ?_⟩
  obtain ⟨result, hresult⟩ := hdeleted hok hpresent
  exact ⟨result, hlog hresult⟩

theorem tries_removeBroadcastRoute :
    Procedure.Triple (Held st log) (removeBroadcastRoute (recorded c))
      (fun _ s => s.state = st ∧ RouteTried st.aliasName s.commands.2) E := by
  apply held_state
  apply Procedure.Triple.bind (held_record (c.broadcastRouteExists st.aliasName) _)
  intro found
  apply Procedure.Triple.ite
  · intro _
    apply (held_execute _).weaken (fun _ hs => hs) _ fun _ _ he => he
    rintro result s ⟨hstate, hlog⟩
    exact ⟨hstate, found, hlog (by simp), fun _ _ => ⟨result, hlog (by simp)⟩⟩
  · intro hkept
    apply Procedure.Triple.pure
    rintro s ⟨hstate, hlog⟩
    refine ⟨hstate, found, hlog (by simp), fun hok hpresent => absurd ?_ hkept⟩
    rw [hok, hpresent]
    rfl

theorem tries_removeWindowsFirewall (operation : String) :
    Procedure.Triple (Held st log) (removeWindowsFirewall (recorded c) operation)
      (fun _ s => s.state = st ∧ log ⊆ s.commands.2 ∧
        RuleTried st.firewallRule s.commands.2) E := by
  apply Procedure.Triple.bind (held_notify (c.operationStarted operation))
  intro _
  apply Procedure.Triple.bind (held_record c.shouldContinue _)
  intro answer
  apply Procedure.Triple.ite
  · intro hstop
    apply Procedure.Triple.pure
    rintro s ⟨hstate, hlog⟩
    obtain ⟨hbefore, hanswer⟩ := List.append_subset.mp hlog
    refine ⟨hstate, hbefore, answer, hanswer (by simp), fun hgo => ?_⟩
    rw [hgo] at hstop
    exact absurd hstop Bool.false_ne_true
  · intro _
    apply held_state
    apply Procedure.Triple.bind (held_record (c.firewallRuleExists st.firewallRule) _)
    intro found
    apply Procedure.Triple.ite
    · intro hmissing
      apply Procedure.Triple.pure
      rintro s ⟨hstate, hlog⟩
      refine ⟨hstate, fun r hr => hlog (by simp [hr]), answer, hlog (by simp),
        fun _ => ⟨found, hlog (by simp), ?_⟩⟩
      intro hok hpresent
      rw [hok, hpresent] at hmissing
      exact absurd hmissing Bool.false_ne_true
    · intro _
      apply Procedure.Triple.bind (held_execute _)
      intro result
      apply Procedure.Triple.pure
      rintro s ⟨hstate, hlog⟩
      exact ⟨hstate, fun r hr => hlog (by simp [hr]), answer, hlog (by simp),
        fun _ => ⟨found, hlog (by simp), fun _ _ => ⟨result, hlog (by simp)⟩⟩⟩

/-- A rollback tries to remove whatever is flagged. -/
structure Retried (st : WindowsNetworkState) (log : List Request) : Prop where
  broadcast : st.broadcastActive = true → RouteTried st.aliasName log
  firewall : st.firewallActive = true → RuleTried st.firewallRule log

theorem tries_rollbackBroadcast :
    Procedure.Triple (Held st log) (rollbackBroadcast (recorded c))
      (fun _ s => (s.state.firewallActive = st.firewallActive ∧
        s.state.firewallRule = st.firewallRule) ∧
        RouteTried st.aliasName s.commands.2) E := by
  apply Procedure.Triple.bind (held_notify (c.operationStarted "broadcast-remove"))
  intro _
  apply Procedure.Triple.bind tries_removeBroadcastRoute
  intro result
  apply Procedure.Triple.ite
  · intro _
    apply Procedure.Triple.bind (R := fun _ s => (s.state.firewallActive = st.firewallActive ∧
      s.state.firewallRule = st.firewallRule) ∧ RouteTried st.aliasName s.commands.2)
    · apply Procedure.Triple.update
      rintro s ⟨hstate, htried⟩
      have hkept : s.state.firewallActive = st.firewallActive ∧
          s.state.firewallRule = st.firewallRule := by
        rw [hstate]
        exact ⟨rfl, rfl⟩
      exact ⟨hkept, htried⟩
    · intro _
      exact Procedure.Triple.pure fun _ hs => hs
  · intro _
    apply Procedure.Triple.pure
    rintro s ⟨hstate, htried⟩
    exact ⟨⟨congrArg _ hstate, congrArg _ hstate⟩, htried⟩

theorem tries_rollbackFirewall :
    Procedure.Triple (Held st log) (rollbackFirewall (recorded c))
      (fun _ s => log ⊆ s.commands.2 ∧ RuleTried st.firewallRule s.commands.2) E := by
  apply Procedure.Triple.bind (tries_removeWindowsFirewall _)
  intro removed
  apply Procedure.Triple.ite
  · intro _
    apply Procedure.Triple.bind (R := fun _ s => log ⊆ s.commands.2 ∧
      RuleTried st.firewallRule s.commands.2)
    · apply Procedure.Triple.update
      exact fun s hs => hs.2
    · intro _
      exact Procedure.Triple.pure fun _ hs => hs
  · intro _
    exact Procedure.Triple.pure fun _ hs => hs.2

theorem tries_rollbackWindowsNetwork :
    Procedure.Triple (Held st []) (rollbackWindowsNetwork (recorded c))
    (fun _ s => Retried st s.commands.2) E := by
  apply Procedure.Triple.bind (held_notify c.beginCleanup)
  intro _
  apply held_state
  apply Procedure.Triple.bind (R := fun _ s => (s.state.firewallActive = st.firewallActive ∧
    s.state.firewallRule = st.firewallRule) ∧
    (st.broadcastActive = true → RouteTried st.aliasName s.commands.2))
  · apply Procedure.Triple.ite
    · intro _
      exact tries_rollbackBroadcast.weaken (fun _ hs => hs)
        (fun _ _ hq => ⟨hq.1, fun _ => hq.2⟩) fun _ _ he => he
    · intro hidle
      apply Procedure.Triple.pure
      rintro s ⟨hstate, -⟩
      exact ⟨⟨congrArg _ hstate, congrArg _ hstate⟩, fun hactive => absurd hactive hidle⟩
  · intro broadcast s ⟨⟨hactive, hrule⟩, hroute⟩
    -- from here on the list is known to hold what was asked for the route
    have hrest : Procedure.Triple (Held s.state s.commands.2)
        (do let s' ← state
            let firewall ← (if s'.firewallActive then rollbackFirewall (recorded c) else pure true)
            return broadcast && firewall) (fun _ s' => Retried st s'.commands.2) E := by
      apply held_state
      apply Procedure.Triple.bind (R := fun _ s' => s.commands.2 ⊆ s'.commands.2 ∧
        (st.firewallActive = true → RuleTried st.firewallRule s'.commands.2))
      · apply Procedure.Triple.ite
        · intro _
          apply tries_rollbackFirewall.weaken (fun _ hs => hs) _ fun _ _ he => he
          rintro _ s' ⟨hlog, htried⟩
          exact ⟨hlog, fun _ => hrule ▸ htried⟩
        · intro hidle
          apply Procedure.Triple.pure
          rintro s' ⟨-, hlog⟩
          exact ⟨hlog, fun hset => absurd (hactive.trans hset) hidle⟩
      · intro firewall
        apply Procedure.Triple.pure
        rintro s' ⟨hlog, hfirewall⟩
        exact ⟨fun hset => (hroute hset).mono hlog, hfirewall⟩
    exact hrest s ⟨rfl, List.Subset.refl _⟩

/-- A rollback that is recorded ends like one that is not, and shows what it tried. -/
theorem rollback_recorded {s s' : Setup σ} {done : Bool}
    (h : (rollbackWindowsNetwork c : Procedure (Setup σ) Empty Bool) s = (.ok done, s')) :
    ∃ log, (rollbackWindowsNetwork (recorded c) : Procedure (Setup (σ × List Request)) Empty Bool)
      (s.recording []) = (.ok done, s'.recording log) ∧ Retried s.state log := by
  have hsame := erases_rollbackWindowsNetwork (ε := Empty) (c := c) (s.recording [])
  have htries := @tries_rollbackWindowsNetwork σ Empty c s.state fun _ _ => False
  obtain ⟨done', s₁, hrun, htried⟩ := htries.returns (s := s.recording []) ⟨rfl, List.Subset.refl _⟩
  have hplain : (rollbackWindowsNetwork c : Procedure (Setup σ) Empty Bool)
    (s.recording []).unrecorded =
    (.ok done, s') := h
  rw [hrun, hplain] at hsame
  obtain ⟨hdone, hstate⟩ := hsame
  refine ⟨s₁.commands.2, ?_, htried⟩
  rw [hrun]
  exact Prod.ext hdone (congrArg (fun s => s.recording s₁.commands.2) hstate)

end Recorded

/-! ### Ownership -/

/-- **The changes of a configuration are owned.**  Whatever the commands report
    and whenever the work is cancelled, what was made and still stands is
    flagged when `configureWindowsNetwork` returns, and a success means that
    both objects stand.  `rollbackWindowsNetwork` clears a flag only when its
    object is gone, and reports success only when both flags are clear; and any
    rollback tries to remove what is flagged, which the list of what it asks the
    commands shows. -/
theorem network_changes_owned {σ : Type} {c : WindowsNetworkCommands σ} {world : σ → World}
    (H : Honest c world) (s : Setup σ) :
    (∀ (ip mask : UInt32) (mtu : Int),
      (world s.commands).rule (ruleName s.state.aliasName) = false →
      (world s.commands).route s.state.aliasName = none → s.state.firewallActive = false →
      s.state.broadcastActive = false →
      ∃ done error s',
      (configureWindowsNetwork c ip mask mtu : Procedure (Setup σ) Empty (Bool × Bytes)) s =
          (.ok (done, error), s') ∧
        (s'.state.aliasName = s.state.aliasName ∧
          s'.state.firewallRule = ruleName s.state.aliasName) ∧
        ((world s'.commands).rule (ruleName s.state.aliasName) = true →
          s'.state.firewallActive = true) ∧
        ((world s'.commands).route s.state.aliasName = some .added →
          s'.state.broadcastActive = true) ∧
        (done = true → (world s'.commands).rule (ruleName s.state.aliasName) = true ∧
          (world s'.commands).route s.state.aliasName ≠ none ∧ s'.state.firewallActive = true ∧
          s'.state.broadcastActive = true)) ∧
    ∃ done s', (rollbackWindowsNetwork c : Procedure (Setup σ) Empty Bool) s = (.ok done, s') ∧
      (s.state.firewallActive = true → s'.state.firewallActive = false →
        (world s'.commands).rule s.state.firewallRule = false) ∧
      (s.state.broadcastActive = true → s'.state.broadcastActive = false →
        (world s'.commands).route s.state.aliasName = none) ∧
      (done = true → s'.state.firewallActive = false ∧ s'.state.broadcastActive = false) ∧
      ∃ log, (rollbackWindowsNetwork (recorded c) : Procedure (Setup (σ × List Request)) Empty Bool)
          (s.recording []) = (.ok done, s'.recording log) ∧ Retried s.state log := by
  constructor
  · intro ip mask mtu hrule hroute hfirewall hbroadcast
    have hspec := spec_configureWindowsNetwork (E := fun (_ : Empty) _ _ => False) H
      (a := s.state.aliasName) ip mask mtu
    have hnone : (world s.commands).route s.state.aliasName ≠ some .added := by simp [hroute]
    obtain ⟨result, s', hrun, ⟨hnames, hflag, hflag'⟩, hdone⟩ :=
      hspec.returns (s := s) ⟨rfl, hrule, hnone, hfirewall, hbroadcast⟩
    exact ⟨result.1, result.2, s', hrun, hnames, hflag, hflag', fun h => (hdone h).2⟩
  · have hspec := spec_rollbackWindowsNetwork (E := fun (_ : Empty) _ _ => False) H
      (world s.commands) s.state
    obtain ⟨done, s', hrun, hrolled, hdone⟩ := hspec.returns (s := s) ⟨rfl, rfl⟩
    refine ⟨done, s', hrun, ?_, ?_, hdone, ?_⟩
    · intro hactive hcleared
      rcases hrolled.firewall with hsame | ⟨-, hgone⟩
      · exact absurd (hactive.symm.trans (hsame.symm.trans hcleared)) Bool.true_eq_false.mp
      · exact hgone
    · intro hactive hcleared
      rcases hrolled.broadcast with hsame | ⟨-, hgone⟩
      · exact absurd (hactive.symm.trans (hsame.symm.trans hcleared)) Bool.true_eq_false.mp
      · exact hgone
    · exact rollback_recorded hrun

/-- Commands that always succeed, over the system itself. -/
def reliableCommands : WindowsNetworkCommands World where
  execute arguments _ w := ({}, match meaning arguments with
    | .addRule rule => { w with rule := Function.update w.rule rule true }
    | .deleteRule rule => { w with rule := Function.update w.rule rule false }
    | .addRoute a => { w with route := Function.update w.route a (some .added) }
    | .deleteRoute a => { w with route := Function.update w.route a none }
    | .other => w)
  firewallRuleExists rule w := ({ absent := !w.rule rule }, w)
  broadcastRouteExists a w := ({ absent := (w.route a).isNone }, w)
  retryDelay w := w
  shouldContinue w := (true, w)
  commandTimeout cap w := (cap, w)
  operationStarted _ w := w
  beginCleanup w := w

theorem reliableCommands_honest : Honest reliableCommands id where
  execute := by
    intro arguments timeout w
    refine ⟨rfl, .inl ?_⟩
    simp only [reliableCommands, id]
    cases meaning arguments with
    | other => exact ⟨rfl, fun _ => .inl rfl⟩
    | _ => rfl
  firewallRuleExists := by
    intro rule w
    simp [reliableCommands]
  broadcastRouteExists := by
    intro a w
    refine ⟨rfl, ?_, ?_⟩
    · simp [reliableCommands]
    · simp [reliableCommands, Option.ne_none_iff_isSome]
  shouldContinue _ := rfl
  commandTimeout _ _ := rfl
  operationStarted _ _ := rfl
  retryDelay _ := rfl
  beginCleanup _ := rfl

/-- The adapter of a fresh system. -/
def freshSetup : Setup World := ⟨⟨fun _ => false, fun _ => none⟩, { aliasName := wide "VLan" }⟩

/-- Its configuration succeeds, with both objects there and flagged, and a later
    rollback tries to remove both. -/
theorem network_changes_owned_fresh :
    ∃ s', (configureWindowsNetwork reliableCommands 0x0a0a0002 0xffffff00 1280 :
        Procedure (Setup World) Empty (Bool × Bytes)) freshSetup = (.ok (true, []), s') ∧
      s'.commands.rule (ruleName (wide "VLan")) = true ∧ s'.commands.route (wide "VLan") ≠ none ∧
      s'.state.firewallActive = true ∧ s'.state.broadcastActive = true ∧
      ∃ (done : Bool) (s'' : Setup World) (log : List Request),
        (rollbackWindowsNetwork (recorded reliableCommands) :
          Procedure (Setup (World × List Request)) Empty Bool) (s'.recording []) =
          (.ok done, s''.recording log) ∧
        RuleTried (ruleName (wide "VLan")) log ∧ RouteTried (wide "VLan") log := by
  obtain ⟨done, error, s', hrun, ⟨hname, hrule⟩, -, -, hdone⟩ :=
    (network_changes_owned reliableCommands_honest freshSetup).1 0x0a0a0002 0xffffff00 1280
      rfl rfl rfl rfl
  have hresult : ((configureWindowsNetwork reliableCommands 0x0a0a0002 0xffffff00 1280 :
      Procedure (Setup World) Empty (Bool × Bytes)) freshSetup).1 = .ok (true, []) := by
        decide +kernel
  rw [hrun] at hresult
  obtain ⟨rfl, rfl⟩ : done = true ∧ error = [] := by simpa using hresult
  obtain ⟨hpresent, hroute, hfirewall, hbroadcast⟩ := hdone rfl
  obtain ⟨done, s'', -, -, -, -, log, hrollback, htried⟩ :=
    (network_changes_owned reliableCommands_honest s').2
  have hrouteTried := htried.broadcast hbroadcast
  have hruleTried := htried.firewall hfirewall
  rw [hname] at hrouteTried
  rw [hrule] at hruleTried
  exact ⟨s', hrun, hpresent, hroute, hfirewall, hbroadcast, done, s'', log, hrollback, hruleTried,
    hrouteTried⟩

end VlanConnect.WindowsNetwork

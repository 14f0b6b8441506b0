import ZkStellar.Sdk.VerificationHistory
import ZkStellar.Sdk.ViewCalls
import ZkStellar.Verifier.Settings

set_option autoImplicit false

/-! # The contract's configuration

`getContractConfig` reads `get_config` through a simulation. After every run of the verifier it
returns what replaying the run's calls gives, and two readings around a step differ only if the step
was authorised by the admin that the earlier one names, or by the proposed admin who takes over
(`config_replayed`). -/

namespace ZkStellar.Sdk

open Verifier (Event Settings World machine)

/-! ## The function -/

/-- `ContractConfig`. -/
structure ContractConfig where
  admin : String
  paused : Bool
  feeAmount : Option ℤ
  feeToken : Option String
  rateLimitMax : JsNumber
  rateLimitWindow : JsNumber
  timelockDelay : Option JsNumber
  allowlistEnabled : Bool
deriving DecidableEq

/-- How the language converts decoded values; what it makes of strings, bytes, arrays and objects
    is left open. -/
structure Conversions where
  string : Native → Except String String
  number : Native → Except String JsNumber
  bigInt : Native → Except String ℤ

namespace Conversions

variable (conversions : Conversions)

/-- `String(v)`. -/
def toStringOf : Option Native → Except String String
  | none => .ok "undefined"
  | some .null => .ok "null"
  | some (.boolean b) => .ok (toString b)
  | some (.integer n) => .ok (toString n)
  | some (.string s) => .ok s
  | some v => conversions.string v

/-- `Number(v)`. -/
def toNumberOf : Option Native → Except String JsNumber
  | none => .ok .nan
  | some .null => .ok (.ofNat 0)
  | some (.boolean b) => .ok (.ofNat b.toNat)
  | some (.integer n) => .ok (.finite n)
  | some v => conversions.number v

/-- `BigInt(v)`, for a value that is not nullish. -/
def toBigIntOf : Native → Except String ℤ
  | .boolean b => .ok b.toNat
  | .integer n => .ok n
  | v => conversions.bigInt v

end Conversions

/-- `v != null ? convert(v) : undefined`. -/
def unlessNullish {α : Type} (convert : Native → Except String α) :
    Option Native → Except String (Option α)
  | none | some .null => .ok none
  | some v => (convert v).map some

section

variable (sdk : StellarSdk) (conversions : Conversions) (node : ViewNode sdk.ScVal)

/-- `getContractConfig`. -/
def getContractConfig : Except SorobanZkError ContractConfig :=
  tryCatch do
    let raw ← simulateView sdk node "get_config" []
    libraryCall do
      let admin ← conversions.toStringOf (← raw.property "admin")
      let paused := ((← raw.property "paused").map Native.truthy).getD false
      let feeAmount ← unlessNullish conversions.toBigIntOf (← raw.property "fee_amount")
      let feeToken ← unlessNullish (conversions.toStringOf ∘ some) (← raw.property "fee_token")
      let rateLimitMax ← conversions.toNumberOf (← raw.property "rate_limit_max")
      let rateLimitWindow ← conversions.toNumberOf (← raw.property "rate_limit_window")
      let timelockDelay ← unlessNullish (conversions.toNumberOf ∘ some)
        (← raw.property "timelock_delay")
      let allowlistEnabled := ((← raw.property "allowlist_enabled").map Native.truthy).getD false
      return ⟨admin, paused, feeAmount, feeToken, rateLimitMax, rateLimitWindow, timelockDelay,
        allowlistEnabled⟩

end

/-! ## What is read -/

section

variable {Address : Type} (name : Address → String)

/-- A configuration as the library decodes it; `name` is the text of an address. -/
def decodedConfig (c : Verifier.ContractConfig Address) : Native :=
  .object [("admin", .string (name c.admin)), ("allowlist_enabled", .boolean c.allowlistEnabled),
    ("fee_amount", c.feeAmount.elim .null .integer),
    ("fee_token", c.feeToken.elim .null fun a => .string (name a)), ("paused", .boolean c.paused),
    ("rate_limit_max", .integer c.rateLimitMax.toNat),
    ("rate_limit_window", .integer c.rateLimitWindow.toNat),
    ("timelock_delay", c.timelockDelay.elim .null fun n => .integer n.toNat)]

/-- The configuration of settings, as the SDK returns it. -/
def configOf (c : Settings Address) : ContractConfig where
  admin := name c.admin
  paused := c.paused
  feeAmount := none
  feeToken := none
  rateLimitMax := .ofNat c.limits.maxCalls.toNat
  rateLimitWindow := .ofNat c.limits.windowSize.toNat
  timelockDelay := none
  allowlistEnabled := c.allowlistEnabled

/-- The node answers for a state of the verifier. -/
def AnswersConfig (sdk : StellarSdk) (node : ViewNode sdk.ScVal) (s : Verifier.State Address) :
    Prop :=
  ∀ c, s.getConfig = .ok c → node.Answers sdk "get_config" [] (decodedConfig name c)

variable {name} {sdk : StellarSdk} {conversions : Conversions} {node : ViewNode sdk.ScVal}

/-- The configuration of stored settings is read. -/
theorem getContractConfig_of_stores {s : Verifier.State Address} {c : Settings Address}
    (hs : Verifier.Stores s c) (hnode : AnswersConfig name sdk node s) :
    getContractConfig sdk conversions node = .ok (configOf name c) := by
  have hview := simulateView_of_answers (hnode _ (Verifier.getConfig_of_stores hs))
  rw [getContractConfig, hview]
  rfl

variable (conversions) in
/-- **The configuration is replayed.** After every run of the verifier from its construction, and
    after any further step, `getContractConfig` returns the configuration that replaying the calls
    that ended with a value gives; its window is never empty. If the two readings differ, the step
    is a transaction that the admin named by the earlier one authorised, or the `accept_admin` of
    the proposed admin. -/
theorem config_replayed [DecidableEq Address] {h : Host} {admin : Address}
    {maxCalls windowSize : UInt32} {vk : VerifyingKey} {s : Verifier.State Address}
    (hs : Verifier.construct admin maxCalls windowSize vk = some s) (ledger : UInt32)
    (events : List (Event Address)) (event : Event Address) {node' : ViewNode sdk.ScVal}
    (hnode : AnswersConfig name sdk node ((machine h).run ⟨ledger, s⟩ events).state)
    (hnode' : AnswersConfig name sdk node'
      ((machine h).run ⟨ledger, s⟩ (events ++ [event])).state) :
    let tr := (machine h).trace ⟨ledger, s⟩ events
    let w := (machine h).run ⟨ledger, s⟩ events
    let c := (Settings.initial admin maxCalls windowSize vk).replay tr
    let c' := c.step ⟨w, event, ((machine h).step w event).1⟩
    getContractConfig sdk conversions node = .ok (configOf name c) ∧
      getContractConfig sdk conversions node' = .ok (configOf name c') ∧
      c.limits.windowSize ≠ 0 ∧
      (getContractConfig sdk conversions node' ≠ getContractConfig sdk conversions node →
        ∃ tx, event = .tx tx ∧ (tx.auth c.admin = true ∨
          tx.call = .acceptAdmin ∧ ∃ p, c.pendingAdmin = some p ∧ tx.auth p = true)) := by
  intro tr w c c'
  have hstores : Verifier.Stores w.state c :=
    Verifier.stores_run (Verifier.stores_construct hs) events
  have hstores' : Verifier.Stores ((machine h).step w event).2.state c' :=
    Verifier.stores_step hstores event
  rw [Machine.run_concat] at hnode'
  have hbefore : getContractConfig sdk conversions node = .ok (configOf name c) :=
    getContractConfig_of_stores hstores hnode
  have hafter : getContractConfig sdk conversions node' = .ok (configOf name c') :=
    getContractConfig_of_stores hstores' hnode'
  refine ⟨hbefore, hafter, ?_, ?_⟩
  · obtain ⟨hwf, -, -⟩ := Verifier.historyInv_run (h := h) hs ledger events
    obtain ⟨limits, vk', hconfigured⟩ := hwf.configured
    have hlimits : c.limits = limits :=
      Option.some.inj (hstores.limits.symm.trans hconfigured.limits_eq)
    rw [hlimits]
    exact hconfigured.windowSize_ne
  · intro hdiffer
    refine Verifier.authorised_of_change (h := h) hstores fun hsame => hdiffer ?_
    rw [hbefore, hafter]
    exact congrArg _ (congrArg _ hsame)

end

/-- A node with a state of the verifier. -/
def configNode (s : Verifier.State Unit) : ViewNode Native where
  buildTransaction := .ok ()
  simulateTransaction _ _ :=
    match s.getConfig with
    | .ok c => .ok (.result (decodedConfig (fun _ => "G") c))
    | .error _ => .ok (.error "HostError: Error(Contract, #1)")

theorem answersConfig_configNode (s : Verifier.State Unit) :
    AnswersConfig (fun _ => "G") StellarSdk.decoded (configNode s) s := by
  intro c hc
  refine ⟨rfl, decodedConfig (fun _ => "G") c, ?_, rfl⟩
  simp only [configNode, hc]
  rfl

/-- Limits are set, then the contract is paused. -/
theorem config_replayed_paused :
    let events : List (Event Unit) := [.tx (Verifier.signed (.setLimits 9 100))]
    let w := (machine Host.scalar).run ⟨50, Verifier.zeroState 5 17280⟩
      (events ++ [.tx (Verifier.signed (.setPaused true))])
    getContractConfig StellarSdk.decoded
        ⟨fun _ => .error "", fun _ => .error "", fun _ => .error ""⟩ (configNode w.state)
      = .ok ⟨"G", true, none, none, .ofNat 9, .ofNat 100, none, false⟩ := by
  intro events w
  have hs : Verifier.construct () 5 17280 (.zero 1) = some (Verifier.zeroState 5 17280) :=
    Verifier.construct_zero (by decide)
  have hreplayed := (config_replayed
    ⟨fun _ => .error "", fun _ => .error "", fun _ => .error ""⟩ hs 50 events
    (.tx (Verifier.signed (.setPaused true)))
    (answersConfig_configNode ((machine Host.scalar).run ⟨50, _⟩ events).state)
    (answersConfig_configNode w.state)).2.1
  exact hreplayed.trans (by decide +kernel)

end ZkStellar.Sdk

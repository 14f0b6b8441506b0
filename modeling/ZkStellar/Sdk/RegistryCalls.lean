import ZkStellar.Sdk.Proof
import ZkStellar.Registry.Replay

set_option autoImplicit false

/-! # The SDK's registry calls

`verifyViaRegistry` and `verifyBatchViaRegistry` only simulate the contract call, on the ground that
the registry's entry points write no storage. They do write nullifiers, so over a sequence of calls
the simulated answers are those of the transactions only if no call replays what an earlier one had
accepted (`simulated_eq_transacted_iff`). -/

namespace ZkStellar.Sdk

open Registry (BatchItem Reply)

/-! ## The two functions -/

/-- `VerifyViaRegistryOptions`. -/
structure VerifyViaRegistryOptions where
  circuitId : UInt32
  calldata : Option SorobanProofCalldata
  bundle : Option ProofBundle

/-- `RegistryBatchItem`. -/
structure RegistryBatchItem where
  circuitId : UInt32
  proof : JsValue
  publicSignals : JsValue

/-- `resolveRegistryCalldata`. -/
def resolveRegistryCalldata (opts : VerifyViaRegistryOptions) :
    Except JsException SorobanProofCalldata :=
  resolve opts.calldata opts.bundle "verifyViaRegistry"

/-- The contract's arguments for a circuit and calldata. -/
def makeRegistryBatchItem (circuitId : UInt32) (calldata : SorobanProofCalldata) :
    Option BatchItem :=
  calldata.inputs.map fun inputs =>
    ⟨circuitId, calldata.proofA, calldata.proofB, calldata.proofC, inputs⟩

/-- The error for a simulation that reports one. -/
def simulationFailed (function : String) : JsException :=
  .zk (.general (function ++ " simulation failed") .contractInvocationFailed)

/-- What `verifyViaRegistry` submits: the checks and the arguments it builds. -/
def verifyProofRequest (networkPassphrase : String) (opts : VerifyViaRegistryOptions) :
    Except JsException BatchItem := do
  let calldata ← resolveRegistryCalldata opts
  validateCalldata calldata
  liftZk (assertBundleNetwork opts.bundle networkPassphrase)
  (makeRegistryBatchItem opts.circuitId calldata).elim (.error (simulationFailed "verify_proof"))
    .ok

/-- What `verifyBatchViaRegistry` submits. -/
def verifyBatchRequest (items : List RegistryBatchItem) :
    Except JsException (List BatchItem) := do
  throwIf items.isEmpty
    (.zk (.general "verifyBatchViaRegistry requires at least one item" .invalidProofFormat))
  let calldataItems ← items.mapM fun item => do
    let calldata ← formatProof item.proof item.publicSignals none
    return (item.circuitId, calldata)
  forEachFrom (fun _ item => validateCalldata item.2) 0 calldataItems
  (calldataItems.mapM fun item => makeRegistryBatchItem item.1 item.2).elim
    (.error (simulationFailed "verify_batch")) .ok

/-- The value a call's result carries, if it has one. -/
def readResult (function : String) : Outcome Empty Reply → Except JsException Reply
  | .ok reply => .ok reply
  | _ => .error (simulationFailed function)

/-- `Boolean(scValToNative(retval))`. -/
def toBoolean : Reply → Bool
  | .flag b => b
  | .flags _ => true
  | .unit => false

/-- `Array.isArray(native) ? native.map(Boolean) : []`. -/
def toBooleans : Reply → List Bool
  | .flags bs => bs
  | _ => []

variable {Address : Type}

/-- `verifyViaRegistry`; `call` makes the contract call and gives its outcome. -/
def verifyViaRegistry (call : Registry.Call Address → Outcome Empty Reply)
    (networkPassphrase : String) (opts : VerifyViaRegistryOptions) :
    Except JsException Bool := do
  let item ← verifyProofRequest networkPassphrase opts
  let reply ← readResult "verify_proof" (call (.verifyProof item))
  return toBoolean reply

/-- `verifyBatchViaRegistry`. -/
def verifyBatchViaRegistry (call : Registry.Call Address → Outcome Empty Reply)
    (items : List RegistryBatchItem) : Except JsException (List Bool) := do
  let batch ← verifyBatchRequest items
  let reply ← readResult "verify_batch" (call (.verifyBatch batch))
  return toBooleans reply

/-! ## Simulated and submitted -/

/-- A call of one of the two functions. -/
inductive RegistryCall where
  | single (opts : VerifyViaRegistryOptions)
  | batch (items : List RegistryBatchItem)

/-- The contract call an SDK call makes, if it gets that far. -/
def RegistryCall.request (networkPassphrase : String) :
    RegistryCall → Option (Registry.Call Address)
  | .single opts => (verifyProofRequest networkPassphrase opts).toOption.map .verifyProof
  | .batch items => (verifyBatchRequest items).toOption.map .verifyBatch

/-- The booleans an SDK call returns, or its error. -/
def RegistryCall.answer (call : Registry.Call Address → Outcome Empty Reply)
    (networkPassphrase : String) : RegistryCall → Except JsException (Bool ⊕ List Bool)
  | .single opts => (verifyViaRegistry call networkPassphrase opts).map .inl
  | .batch items => (verifyBatchViaRegistry call items).map .inr

/-- The registry taking the contract calls of SDK calls as transactions. Simulating a step of this
    machine is what the SDK does. -/
def transactions (h : Host) (auth : Address → Bool) (networkPassphrase : String) :
    Machine (Registry.State Address) RegistryCall (Except JsException (Bool ⊕ List Bool)) where
  step s c :=
    (c.answer (fun call => (Registry.exec h s ⟨auth, call⟩).1) networkPassphrase,
      match c.request networkPassphrase with
      | none => s
      | some call => (Registry.exec h s ⟨auth, call⟩).2)

/-- The entries an SDK call has verified. -/
def RegistryCall.entries (networkPassphrase : String) : RegistryCall → List BatchItem
  | .single opts => (verifyProofRequest networkPassphrase opts).toOption.toList
  | .batch items => (verifyBatchRequest items).toOption.getD []

section Answers

variable {h : Host} {auth : Address → Bool} {networkPassphrase : String}
  {s t : Registry.State Address}

theorem flags_singleton (item : BatchItem) :
    Registry.flags h s [item] = (Registry.itemVerdict h s item).map fun b => [b] := by
  rw [Registry.flags_cons]
  cases Registry.itemVerdict h s item <;> rfl

/-- `verifyViaRegistry` returns the flag of its one entry, and throws if the call traps. -/
theorem verifyViaRegistry_eq {opts : VerifyViaRegistryOptions} {item : BatchItem}
    (hreq : verifyProofRequest networkPassphrase opts = .ok item) :
    verifyViaRegistry (fun call => (Registry.exec h s ⟨auth, call⟩).1) networkPassphrase opts
      = (Registry.itemVerdict h s item).elim (.error (simulationFailed "verify_proof")) .ok := by
  unfold verifyViaRegistry
  rw [hreq]
  cases hv : Registry.itemVerdict h s item <;>
    simp [hv, bind, Except.bind, pure, Except.pure, readResult, toBoolean]

/-- `verifyBatchViaRegistry` returns the flags of its entries, and throws if the call traps. -/
theorem verifyBatchViaRegistry_eq {items : List RegistryBatchItem} {batch : List BatchItem}
    (hreq : verifyBatchRequest items = .ok batch) :
    verifyBatchViaRegistry (fun call => (Registry.exec h s ⟨auth, call⟩).1) items
      = (Registry.flags h s batch).elim (.error (simulationFailed "verify_batch")) .ok := by
  unfold verifyBatchViaRegistry Registry.flags
  rw [hreq]
  rcases hv : Registry.verifyItems h batch s with _ | ⟨bs, s'⟩ <;>
    simp [hv, bind, Except.bind, pure, Except.pure, readResult, toBooleans]

/-- Two states give an SDK call the same answer exactly when they give its entries the same
    flags. -/
theorem simulate_eq_iff (c : RegistryCall) :
    (transactions h auth networkPassphrase).simulate t c
        = (transactions h auth networkPassphrase).simulate s c ↔
      Registry.flags h t (c.entries networkPassphrase)
        = Registry.flags h s (c.entries networkPassphrase) := by
  simp only [Machine.simulate, transactions]
  cases c with
  | single opts =>
      cases hreq : verifyProofRequest networkPassphrase opts with
      | error e =>
          -- a call the SDK refuses to build submits nothing
          simp only [RegistryCall.answer, RegistryCall.entries, verifyViaRegistry, hreq]
          simp [Except.toOption, bind, Except.bind, Registry.flags, Registry.verifyItems]
      | ok item =>
          simp only [RegistryCall.answer, RegistryCall.entries, hreq, verifyViaRegistry_eq hreq]
          simp only [Except.toOption, Option.toList_some, flags_singleton]
          cases Registry.itemVerdict h t item <;> cases Registry.itemVerdict h s item <;>
            simp [Except.map]
  | batch items =>
      cases hreq : verifyBatchRequest items with
      | error e =>
          simp only [RegistryCall.answer, RegistryCall.entries, verifyBatchViaRegistry, hreq]
          simp [Except.toOption, bind, Except.bind, Registry.flags, Registry.verifyItems]
      | ok batch =>
          simp only [RegistryCall.answer, RegistryCall.entries, hreq,
            verifyBatchViaRegistry_eq hreq]
          simp only [Except.toOption, Option.getD_some]
          cases Registry.flags h t batch <;> cases Registry.flags h s batch <;> simp [Except.map]

/-- A transaction leaves the state its entries leave. -/
theorem step_snd (c : RegistryCall) :
    ((transactions h auth networkPassphrase).step s c).2
      = ((Registry.batchMachine h).step s (c.entries networkPassphrase)).2 := by
  simp only [transactions, Registry.batchMachine, Registry.afterBatch]
  cases c with
  | single opts =>
      cases hreq : verifyProofRequest networkPassphrase opts with
      | error e => simp [RegistryCall.request, RegistryCall.entries, hreq, Except.toOption,
          Registry.verifyItems]
      | ok item =>
          simp only [RegistryCall.request, RegistryCall.entries, hreq, Except.toOption,
            Option.map_some, Option.toList_some, Registry.exec_verifyProof, Registry.verifyItems]
          cases Registry.itemVerdict h s item <;> rfl
  | batch items =>
      cases hreq : verifyBatchRequest items with
      | error e => simp [RegistryCall.request, RegistryCall.entries, hreq, Except.toOption,
          Registry.verifyItems]
      | ok batch =>
          simp only [RegistryCall.request, RegistryCall.entries, hreq, Except.toOption,
            Option.map_some, Option.getD_some, Registry.exec_verifyBatch]
          rcases Registry.verifyItems h batch s with _ | ⟨bs, s'⟩ <;> rfl

theorem run_eq (calls : List RegistryCall) :
    (transactions h auth networkPassphrase).run s calls
      = (Registry.batchMachine h).run s (calls.map (RegistryCall.entries networkPassphrase)) := by
  induction calls generalizing s with
  | nil => rfl
  | cons c calls ih =>
      simp only [Machine.run, List.map_cons]
      rw [step_snd, ih]

end Answers

/-- The ways to single out an element of a mapped list are those of the list. -/
theorem forall_map_split_iff {α β : Type} {f : α → β} {l : List α} {P : List β → β → Prop} :
    (∀ pre b post, l.map f = pre ++ b :: post → P pre b) ↔
      ∀ pre a post, l = pre ++ a :: post → P (pre.map f) (f a) := by
  constructor
  · intro hall pre a post hsplit
    exact hall (pre.map f) (f a) (post.map f) (by simp [hsplit])
  · intro hall pre b post hsplit
    obtain ⟨pre', rest, rfl, rfl, hrest⟩ := List.map_eq_append_iff.1 hsplit
    obtain ⟨a, post', rfl, rfl, -⟩ := List.map_eq_cons_iff.1 hrest
    exact hall pre' a post' rfl

/-- **Simulated calls against transactions.** The answers of the SDK calls of a sequence, each
    simulated on the same state, are those of the same calls submitted as transactions one after
    another exactly when no call replays a nullifier of an entry that an earlier call of the
    sequence had accepted, unless the entry's own check says no or its call traps anyway. -/
theorem simulated_eq_transacted_iff (h : Host) (auth : Address → Bool) (networkPassphrase : String)
    (s : Registry.State Address) (calls : List RegistryCall) :
    let m := transactions h auth networkPassphrase
    let entries := RegistryCall.entries networkPassphrase
    calls.map (m.simulate s) = m.outcomes s calls ↔
      ∀ pre c post, calls = pre ++ c :: post →
        Registry.NoReplay h s (pre.map entries) (entries c) := by
  intro m entries
  have hflags := Registry.flags_run_eq_iff h s (calls.map entries)
  rw [forall_map_split_iff (f := entries), forall_map_split_iff (f := entries)] at hflags
  rw [← hflags, Machine.map_simulate_eq_outcomes_iff]
  simp only [m, simulate_eq_iff, run_eq]
  rfl

/-- The all-zero proof submitted twice is accepted twice by simulation, where the second transaction
    reports a replay. -/
theorem repeated_call_accepted_twice :
    let m := transactions Host.scalar (fun _ : Unit => false) "network"
    let s := (Registry.machine Host.scalar).run (Registry.construct ()) (Registry.zeroRun [])
    let call : RegistryCall := .single ⟨0, some (zeroCalldata 0), none⟩
    [call, call].map (m.simulate s) = [.ok (.inl true), .ok (.inl true)] ∧
      m.outcomes s [call, call] = [.ok (.inl true), .ok (.inl false)] ∧
      [call, call].map (m.simulate s) ≠ m.outcomes s [call, call] := by
  decide +kernel

end ZkStellar.Sdk

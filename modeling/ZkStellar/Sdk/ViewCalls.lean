import ZkStellar.Sdk.Rpc

set_option autoImplicit false

/-! # Views

`isNullifierUsedOnChain` and `getContractConfig` call a view of a contract: they build a transaction
for an account that need not exist, let the node simulate it and decode what it returned
(`simulateView`). -/

namespace ZkStellar.Sdk

/-- What the node answers to a simulation. -/
inductive Simulated (ScVal : Type) where
  | error (message : String)
  | noResult
  | result (retval : ScVal)

/-- What a node and the library do for the call of a view, or the message they throw with. -/
structure ViewNode (ScVal : Type) where
  /-- The network, the contract's address, the account and the transaction. That an account is not
      found is caught. -/
  buildTransaction : Except String Unit
  /-- The simulation of a function with its arguments, which are byte strings. -/
  simulateTransaction : String → List Bytes → Except String (Simulated ScVal)

variable (sdk : StellarSdk) (node : ViewNode sdk.ScVal)

/-- The value that a view returns, decoded. -/
def simulateView (function : String) (args : List Bytes) : Except Thrown Native := do
  libraryCall node.buildTransaction
  match ← libraryCall (node.simulateTransaction function args) with
  | .error message =>
      .error (.zk (.general (function ++ " simulation failed: " ++ message)
        .contractInvocationFailed))
  | .noResult =>
      .error (.zk (.general (function ++ " simulation returned no result")
        .contractInvocationFailed))
  | .result retval => libraryCall (sdk.scValToNative retval)

/-- The node answers a view with a value. -/
def ViewNode.Answers (function : String) (args : List Bytes) (value : Native) : Prop :=
  node.buildTransaction = .ok () ∧ ∃ retval,
    node.simulateTransaction function args = .ok (.result retval) ∧
    sdk.scValToNative retval = .ok value

variable {sdk node}

theorem simulateView_of_answers {function : String} {args : List Bytes} {value : Native}
    (hanswers : node.Answers sdk function args value) :
    simulateView sdk node function args = .ok value := by
  obtain ⟨hbuilt, retval, hsimulated, hdecoded⟩ := hanswers
  simp only [simulateView, hbuilt, hsimulated]
  exact libraryCall_eq_ok_iff.2 hdecoded

end ZkStellar.Sdk

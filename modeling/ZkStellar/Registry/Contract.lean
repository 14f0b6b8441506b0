import ZkStellar.Contracts.Common
import ZkStellar.Lib.Execution
import ZkStellar.Lib.Store

set_option autoImplicit false

/-! # `contracts/registry`

The multi-circuit registry as its source computes it: storage keyed by `DataKey`, the admin calls,
`run_verification`, `verify_proof`, and `verify_batch`, which repeats `verify_proof`'s body inline.
A definition returns `none` where the source panics or the host traps. `exec` is one transaction:
the call with the addresses that authorised it, rolled back if it traps.

`upgrade` is not modelled: what runs after it is another program. Persistent entries are taken to
stay readable. -/

namespace ZkStellar.Registry

variable {Address : Type}

/-- `DataKey`. `admin` and `pendingAdmin` live in instance storage, the others in persistent
    storage. -/
inductive DataKey where
  | admin
  | pendingAdmin
  | circuit (id : UInt32)
  | circuitActive (id : UInt32)
  | nullifier (n : BytesN 32)
deriving DecidableEq

/-- The type of the value stored under a key. -/
abbrev DataKey.Value (Address : Type) : DataKey → Type
  | .admin => Address
  | .pendingAdmin => Address
  | .circuit _ => VerifyingKey
  | .circuitActive _ => Bool
  | .nullifier _ => Bool

/-- The `verification_result` event. -/
structure VerificationResult where
  success : Bool
  inputsHash : BytesN 32
deriving DecidableEq

/-- `BatchItem`: a circuit id and the other arguments of `verify_proof`. -/
structure BatchItem where
  id : UInt32
  proofA : Bytes
  proofB : Bytes
  proofC : Bytes
  publicInputs : List (BytesN 32)
deriving DecidableEq

/-- The contract's storage and the events it has published. -/
structure State (Address : Type) where
  instanceStorage : Store (DataKey.Value Address)
  persistent : Store (DataKey.Value Address)
  events : List VerificationResult

namespace State

def publish (s : State Address) (e : VerificationResult) : State Address :=
  { s with events := s.events ++ [e] }

/-- Record a nullifier as consumed. -/
def burn (s : State Address) (n : BytesN 32) : State Address :=
  { s with persistent := s.persistent.set (.nullifier n) true }

/-- `admin` (`none`: it panics, the registry is not initialized). -/
def admin (s : State Address) : Option Address := s.instanceStorage.get .admin

/-- `pending_admin`. -/
def pendingAdmin (s : State Address) : Option Address := s.instanceStorage.get .pendingAdmin

/-- The verifying key stored under `id`. -/
def circuit (s : State Address) (id : UInt32) : Option VerifyingKey :=
  s.persistent.get (.circuit id)

/-- `has_circuit`. -/
def hasCircuit (s : State Address) (id : UInt32) : Bool := s.persistent.has (.circuit id)

/-- `is_circuit_active`. -/
def isCircuitActive (s : State Address) (id : UInt32) : Bool :=
  (s.persistent.get (.circuitActive id)).getD false

/-- `is_nullifier_used`. -/
def isNullifierUsed (s : State Address) (n : BytesN 32) : Bool := s.persistent.has (.nullifier n)

end State

/-- `__constructor`. -/
def construct (admin : Address) : State Address where
  instanceStorage := Store.empty.set .admin admin
  persistent := Store.empty
  events := []

/-! ## Admin calls -/

/-- The guard of the admin calls: the stored admin must exist and must have authorised the call. -/
def withAdmin (auth : Address → Bool) (s : State Address)
    (update : State Address → State Address) : Option (State Address) :=
  match s.admin with
  | none => none
  | some admin => if auth admin then some (update s) else none

/-- `propose_admin`. -/
def proposeAdmin (auth : Address → Bool) (newAdmin : Address) (s : State Address) :
    Option (State Address) :=
  withAdmin auth s fun s =>
    { s with instanceStorage := s.instanceStorage.set .pendingAdmin newAdmin }

/-- `accept_admin`: needs the pending admin's own authorisation. -/
def acceptAdmin (auth : Address → Bool) (s : State Address) : Option (State Address) :=
  match s.pendingAdmin with
  | none => none
  | some pending =>
      if auth pending then
        some { s with
          instanceStorage := (s.instanceStorage.set .admin pending).remove .pendingAdmin }
      else none

/-- `register_circuit`: stores the key unchecked and activates the id. -/
def registerCircuit (auth : Address → Bool) (id : UInt32) (vk : VerifyingKey)
    (s : State Address) : Option (State Address) :=
  withAdmin auth s fun s =>
    { s with persistent := (s.persistent.set (.circuit id) vk).set (.circuitActive id) true }

/-- `remove_circuit`: the key stays. -/
def removeCircuit (auth : Address → Bool) (id : UInt32) (s : State Address) :
    Option (State Address) :=
  withAdmin auth s fun s => { s with persistent := s.persistent.set (.circuitActive id) false }

/-! ## Verification -/

section Verification

variable (h : Host)

/-- The message whose hash is the nullifier: the id's four bytes and the inputs hash. -/
def nullifierMessage (circuitId : UInt32) (inputsHash : BytesN 32) : Bytes :=
  toBe 4 circuitId.toNat ++ inputsHash.bytes

/-- `compute_nullifier`. -/
def computeNullifier (circuitId : UInt32) (inputsHash : BytesN 32) : BytesN 32 :=
  h.sha256 (nullifierMessage circuitId inputsHash)

/-- The loop of `run_verification`: add `ic[i + 1] * public_inputs[i]` for each `i`; the `unwrap`s
    trap when out of bounds. -/
def accumulateInputs (ic : List (BytesN 64)) (publicInputs : List (BytesN 32))
    (vkX : h.G1Affine) : Option h.G1Affine :=
  (List.range publicInputs.length).foldlM
    (fun vkX i =>
      match publicInputs[i]?, ic[i + 1]? with
      | some input, some point =>
          some (Host.G1Affine.add vkX (Host.G1Affine.mul (h.g1Point point) (Fr.fromBytes input)))
      | _, _ => none)
    vkX

/-- `run_verification`. -/
def runVerification (s : State Address) (id : UInt32) (proofA proofB proofC : Bytes)
    (publicInputs : List (BytesN 32)) : Option Bool :=
  match s.circuit id with
  | none => some false
  | some vk =>
      if publicInputs.length + 1 ≠ vk.ic.length then some false
      else
        match readG1 h proofA, readG2 h proofB, readG1 h proofC, vk.ic[0]? with
        | some a, some b, some c, some ic₀ =>
            match accumulateInputs h vk.ic publicInputs (h.g1Point ic₀) with
            | none => none
            | some vkX =>
                h.pairingCheck
                  [a, Host.G1Affine.neg (h.g1Point vk.alpha), Host.G1Affine.neg vkX,
                    Host.G1Affine.neg c]
                  [b, h.g2Point vk.beta, h.g2Point vk.gamma, h.g2Point vk.delta]
        | _, _, _, _ => none

/-- `verify_proof`. -/
def verifyProof (id : UInt32) (proofA proofB proofC : Bytes) (publicInputs : List (BytesN 32))
    (s : State Address) : Option (Bool × State Address) :=
  let inputsHash := computeInputsHash h publicInputs
  if !s.isCircuitActive id then some (false, s.publish ⟨false, inputsHash⟩)
  else
    let nullifierKey := computeNullifier h id inputsHash
    if s.isNullifierUsed nullifierKey then some (false, s.publish ⟨false, inputsHash⟩)
    else
      match runVerification h s id proofA proofB proofC publicInputs with
      | none => none
      | some success =>
          let s := if success then s.burn nullifierKey else s
          some (success, s.publish ⟨success, inputsHash⟩)

/-- The loop of `verify_batch`, its body the source's second copy of the checks of `verify_proof`;
    `results` is the vector it pushes to. -/
def verifyBatchLoop : List BatchItem → List Bool → State Address →
    Option (List Bool × State Address)
  | [], results, s => some (results, s)
  | item :: batch, results, s =>
      let inputsHash := computeInputsHash h item.publicInputs
      if !s.isCircuitActive item.id then
        verifyBatchLoop batch (results ++ [false]) (s.publish ⟨false, inputsHash⟩)
      else
        let nullifierKey := computeNullifier h item.id inputsHash
        if s.isNullifierUsed nullifierKey then
          verifyBatchLoop batch (results ++ [false]) (s.publish ⟨false, inputsHash⟩)
        else
          match runVerification h s item.id item.proofA item.proofB item.proofC
              item.publicInputs with
          | none => none
          | some success =>
              let s := if success then s.burn nullifierKey else s
              verifyBatchLoop batch (results ++ [success]) (s.publish ⟨success, inputsHash⟩)

/-- `verify_batch`. -/
def verifyBatch (batch : List BatchItem) (s : State Address) :
    Option (List Bool × State Address) :=
  verifyBatchLoop h batch [] s

end Verification

/-! ## Transactions -/

/-- The state-changing entry points with their arguments. -/
inductive Call (Address : Type) where
  | proposeAdmin (newAdmin : Address)
  | acceptAdmin
  | registerCircuit (id : UInt32) (vk : VerifyingKey)
  | removeCircuit (id : UInt32)
  | verifyProof (item : BatchItem)
  | verifyBatch (batch : List BatchItem)

/-- A call and the addresses that authorised it. -/
structure Tx (Address : Type) where
  auth : Address → Bool
  call : Call Address

/-- What a call returns. -/
inductive Reply where
  | unit
  | flag (b : Bool)
  | flags (bs : List Bool)
deriving DecidableEq

/-- The body of a call. The registry has no typed errors. -/
def callBody (h : Host) (auth : Address → Bool) (s : State Address) :
    Call Address → Option (Except Empty Reply × State Address)
  | .proposeAdmin a => (proposeAdmin auth a s).map fun s => (.ok .unit, s)
  | .acceptAdmin => (acceptAdmin auth s).map fun s => (.ok .unit, s)
  | .registerCircuit id vk => (registerCircuit auth id vk s).map fun s => (.ok .unit, s)
  | .removeCircuit id => (removeCircuit auth id s).map fun s => (.ok .unit, s)
  | .verifyProof item =>
      (verifyProof h item.id item.proofA item.proofB item.proofC item.publicInputs s).map
        fun (b, s) => (.ok (.flag b), s)
  | .verifyBatch batch => (verifyBatch h batch s).map fun (bs, s) => (.ok (.flags bs), s)

/-- One transaction. -/
def exec (h : Host) (s : State Address) (tx : Tx Address) :
    Outcome Empty Reply × State Address :=
  commit s (callBody h tx.auth s tx.call)

/-- The registry as a machine taking transactions. -/
def machine (h : Host) : Machine (State Address) (Tx Address) (Outcome Empty Reply) := ⟨exec h⟩

/-! ## A run with the all-zero key -/

/-- The all-zero proof for circuit 0 and the one public input that spells `v`. -/
def zeroItem (v : ℕ) : BatchItem := ⟨0, zeroG1, zeroG2, zeroG1, [.ofNat 32 v]⟩

/-- Such an item with a byte missing from its first proof point. -/
def truncatedItem (v : ℕ) : BatchItem := { zeroItem v with proofA := zeroG1.tail }

/-- The transaction of a call everybody authorised. -/
def signed (call : Call Unit) : Tx Unit := ⟨fun _ => true, call⟩

/-- Register the all-zero key under id 0, then submit proofs for it one by one. -/
def zeroRun (vs : List ℕ) : List (Tx Unit) :=
  signed (.registerCircuit 0 (.zero 1)) :: vs.map fun v => signed (.verifyProof (zeroItem v))

end ZkStellar.Registry

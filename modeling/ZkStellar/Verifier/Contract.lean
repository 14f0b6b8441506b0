import ZkStellar.Contracts.Common
import ZkStellar.Lib.Execution
import ZkStellar.Lib.Store

set_option autoImplicit false

/-! # `contracts/verifier`

The single-circuit verifier as its source computes it: instance storage and evictable temporary
storage keyed by `DataKey`, the admin calls with their typed errors, and `verify_one` behind
`verify_proof` and `verify_batch`. A definition returns `none` where the source panics or the host
traps, and a value or a typed error together with the state it leaves behind otherwise; `exec`
rolls back everything but a value. The contract is built with overflow checks, so an overflowing
counter traps.

The ledger sequence only moves between transactions (`World`). `upgrade` is not modelled: what runs
after it is another program. Instance entries are taken to stay readable. -/

namespace ZkStellar.Verifier

variable {Address : Type}

/-- `CIRCUIT_PUBLIC_INPUT_COUNT`. -/
def circuitPublicInputCount : ℕ := 1

/-- `EXPECTED_PUBLIC_INPUT_COUNT`: the circuit's inputs and the expiry ledger. -/
def expectedPublicInputCount : ℕ := circuitPublicInputCount + 1

/-- `Limits`. -/
structure Limits where
  maxCalls : UInt32
  windowSize : UInt32
deriving DecidableEq

/-- `ContractConfig`. -/
structure ContractConfig (Address : Type) where
  admin : Address
  paused : Bool
  feeAmount : Option ℤ
  feeToken : Option Address
  rateLimitMax : UInt32
  rateLimitWindow : UInt32
  timelockDelay : Option UInt32
  allowlistEnabled : Bool

/-- `DataKey`. `callCount` lives in temporary storage, the others in instance storage. -/
inductive DataKey (Address : Type) where
  | admin
  | pendingAdmin
  | limits
  | vk
  | callCount (caller : Address) (windowStart : UInt32)
  | allowlistEnabled
  | allowlist (addr : Address)
  | verificationCount (commitment : BytesN 32)
  | paused
deriving DecidableEq

/-- The type of the value stored under a key. -/
abbrev DataKey.Value : DataKey Address → Type
  | .admin => Address
  | .pendingAdmin => Address
  | .limits => Limits
  | .vk => VerifyingKey
  | .callCount _ _ => UInt32
  | .allowlistEnabled => Bool
  | .allowlist _ => Bool
  | .verificationCount _ => UInt64
  | .paused => Bool

/-- `Error`. -/
inductive Error where
  | notInitialized
  | rateLimitExceeded
  | invalidWindowSize
  | proofExpired
  | callerNotAllowed
  | invalidVerifyingKey
  | noPendingAdmin
  | contractPaused
deriving DecidableEq, Repr

/-- The `verification_result` event. -/
structure VerificationResult (Address : Type) where
  success : Bool
  caller : Address
  inputsHash : BytesN 32
deriving DecidableEq

/-- `ProofItem`. -/
structure ProofItem where
  proofA : Bytes
  proofB : Bytes
  proofC : Bytes
  publicInputs : List (BytesN 32)
deriving DecidableEq

/-- The contract's storage and the events it has published. -/
structure State (Address : Type) where
  instanceStorage : Store (@DataKey.Value Address)
  temporary : TempStore (@DataKey.Value Address)
  events : List (VerificationResult Address)

/-! ## Views -/

namespace State

def publish (s : State Address) (e : VerificationResult Address) : State Address :=
  { s with events := s.events ++ [e] }

def admin (s : State Address) : Option Address := s.instanceStorage.get .admin

/-- `pending_admin`. -/
def pendingAdmin (s : State Address) : Option Address := s.instanceStorage.get .pendingAdmin

/-- `limits` (`none`: it panics, the contract is not initialized). -/
def limits (s : State Address) : Option Limits := s.instanceStorage.get .limits

def vk (s : State Address) : Option VerifyingKey := s.instanceStorage.get .vk

/-- `allowlist_enabled`. -/
def allowlistEnabled (s : State Address) : Bool :=
  (s.instanceStorage.get .allowlistEnabled).getD false

/-- `is_allowlisted`. -/
def isAllowlisted (s : State Address) (addr : Address) : Bool :=
  (s.instanceStorage.get (.allowlist addr)).getD false

/-- `is_paused`. -/
def isPaused (s : State Address) : Bool := (s.instanceStorage.get .paused).getD false

/-- `verification_count`. -/
def verificationCount (s : State Address) (commitment : BytesN 32) : UInt64 :=
  (s.instanceStorage.get (.verificationCount commitment)).getD 0

/-- The calls counted for a caller in a window, as they can be read at a ledger. -/
def callCount (s : State Address) (ledger : UInt32) (caller : Address) (windowStart : UInt32) :
    UInt32 :=
  (s.temporary.read ledger (.callCount caller windowStart)).getD 0

/-- `get_config`. -/
def getConfig (s : State Address) : Except Error (ContractConfig Address) :=
  match s.admin, s.limits with
  | some admin, some limits =>
      .ok {
        admin := admin
        paused := s.isPaused
        feeAmount := none
        feeToken := none
        rateLimitMax := limits.maxCalls
        rateLimitWindow := limits.windowSize
        timelockDelay := none
        allowlistEnabled := s.allowlistEnabled }
  | _, _ => .error .notInitialized

end State

/-! ## Admin calls -/

variable [DecidableEq Address]

/-- `__constructor`: panics on an empty window or a key of another arity. -/
def construct (admin : Address) (maxCalls windowSize : UInt32) (vk : VerifyingKey) :
    Option (State Address) :=
  if 0 < windowSize ∧ vk.ic.length = expectedPublicInputCount then
    some {
      instanceStorage :=
        ((Store.empty.set .admin admin).set .limits ⟨maxCalls, windowSize⟩).set .vk vk
      temporary := Store.empty
      events := [] }
  else none

/-- Store a value in instance storage. -/
def State.setInstance (s : State Address) (k : DataKey Address) (v : k.Value) : State Address :=
  { s with instanceStorage := s.instanceStorage.set k v }

/-- The guard of the admin calls: `NotInitialized` without an admin, a trap without the admin's
    authorisation. -/
def withAdmin (auth : Address → Bool) (s : State Address)
    (update : State Address → State Address) : Option (Except Error Unit × State Address) :=
  match s.admin with
  | none => some (.error .notInitialized, s)
  | some admin => if auth admin then some (.ok (), update s) else none

/-- `set_limits`. -/
def setLimits (auth : Address → Bool) (maxCalls windowSize : UInt32) (s : State Address) :
    Option (Except Error Unit × State Address) :=
  if windowSize = 0 then some (.error .invalidWindowSize, s)
  else withAdmin auth s (·.setInstance .limits ⟨maxCalls, windowSize⟩)

/-- `update_vk`. -/
def updateVk (auth : Address → Bool) (vk : VerifyingKey) (s : State Address) :
    Option (Except Error Unit × State Address) :=
  if vk.ic.length ≠ expectedPublicInputCount then some (.error .invalidVerifyingKey, s)
  else withAdmin auth s (·.setInstance .vk vk)

/-- `set_allowlist_mode`. -/
def setAllowlistMode (auth : Address → Bool) (enabled : Bool) (s : State Address) :
    Option (Except Error Unit × State Address) :=
  withAdmin auth s (·.setInstance .allowlistEnabled enabled)

/-- `add_to_allowlist`. -/
def addToAllowlist (auth : Address → Bool) (addr : Address) (s : State Address) :
    Option (Except Error Unit × State Address) :=
  withAdmin auth s (·.setInstance (.allowlist addr) true)

/-- `remove_from_allowlist`. -/
def removeFromAllowlist (auth : Address → Bool) (addr : Address) (s : State Address) :
    Option (Except Error Unit × State Address) :=
  withAdmin auth s fun s =>
    { s with instanceStorage := s.instanceStorage.remove (.allowlist addr) }

/-- `propose_admin`. -/
def proposeAdmin (auth : Address → Bool) (newAdmin : Address) (s : State Address) :
    Option (Except Error Unit × State Address) :=
  withAdmin auth s (·.setInstance .pendingAdmin newAdmin)

/-- `accept_admin`: needs the pending admin's own authorisation. -/
def acceptAdmin (auth : Address → Bool) (s : State Address) :
    Option (Except Error Unit × State Address) :=
  match s.pendingAdmin with
  | none => some (.error .noPendingAdmin, s)
  | some pending =>
      if auth pending then
        some (.ok (), { s with
          instanceStorage := (s.instanceStorage.set .admin pending).remove .pendingAdmin })
      else none

/-- `set_paused`. -/
def setPaused (auth : Address → Bool) (paused : Bool) (s : State Address) :
    Option (Except Error Unit × State Address) :=
  withAdmin auth s (·.setInstance .paused paused)

/-! ## Verification -/

section Verification

variable (h : Host) (ledger : UInt32)

/-- `read_expiry_ledger`: the last four bytes, if the first 28 are zero. -/
def readExpiryLedger (bytes : BytesN 32) : Option UInt32 :=
  if (bytes.bytes.take 28).all (· == 0) then some (UInt32.ofNat (beNat (bytes.bytes.drop 28)))
  else none

/-- `ledger - (ledger % window_size)`. -/
def windowStart (windowSize : UInt32) : Option UInt32 :=
  (checkedRem32 ledger windowSize).bind fun r => checkedSub32 ledger r

/-- The first checks of `verify_one`: pause and allowlist. -/
def checkAccess (s : State Address) (caller : Address) : Except Error Unit :=
  if s.isPaused then .error .contractPaused
  else if s.allowlistEnabled && !s.isAllowlisted caller then .error .callerNotAllowed
  else .ok ()

/-- Set `CallCount(caller, windowStart)` and extend its lifetime by the window. -/
def State.setCallCount (s : State Address) (caller : Address)
    (windowStart windowSize next : UInt32) : State Address :=
  let key : DataKey Address := .callCount caller windowStart
  { s with
    temporary := (s.temporary.write ledger (h.freshUntil ledger) key next).retime key
      fun liveUntil => h.extendedUntil ledger liveUntil windowSize windowSize }

/-- The rate limiter of `verify_one`: count the call in the current window, or reject it. -/
def countCall (limits : Limits) (caller : Address) (s : State Address) :
    Option (Except Error Unit × State Address) :=
  match windowStart ledger limits.windowSize with
  | none => none
  | some start =>
      match checkedAdd32 (s.callCount ledger caller start) 1 with
      | none => none
      | some next =>
          if next > limits.maxCalls then some (.error .rateLimitExceeded, s)
          else if h.canExtend ledger limits.windowSize then
            some (.ok (), s.setCallCount h ledger caller start limits.windowSize next)
          else none

/-- The rest of `verify_one` up to the pairing check: parsing, input count, expiry, equation. -/
def checkProof (item : ProofItem) (s : State Address) : Option (Except Error Bool) :=
  match readG1 h item.proofA, readG2 h item.proofB, readG1 h item.proofC with
  | some proofA, some proofB, some proofC =>
      if item.publicInputs.length ≠ expectedPublicInputCount then some (.ok false)
      else
        match item.publicInputs[0]?, item.publicInputs[1]? with
        | some publicInput, some expiry =>
            match readExpiryLedger expiry with
            | none => some (.ok false)
            | some expiryLedger =>
                if ledger > expiryLedger then some (.error .proofExpired)
                else
                  match s.vk with
                  | none => some (.error .notInitialized)
                  | some vk =>
                      match vk.ic[0]?, vk.ic[1]? with
                      | some ic₀, some ic₁ =>
                          let vkX := Host.G1Affine.add (h.g1Point ic₀)
                            (Host.G1Affine.mul (h.g1Point ic₁) (Fr.fromBytes publicInput))
                          (h.pairingCheck
                            [proofA, Host.G1Affine.neg (h.g1Point vk.alpha),
                              Host.G1Affine.neg vkX, Host.G1Affine.neg proofC]
                            [proofB, h.g2Point vk.beta, h.g2Point vk.gamma,
                              h.g2Point vk.delta]).map .ok
                      | _, _ => none
        | _, _ => none
  | _, _, _ => none

/-- `record_verification_attempt`. -/
def recordVerificationAttempt (commitment : BytesN 32) (s : State Address) :
    Option (State Address) :=
  (checkedAdd64 (s.verificationCount commitment) 1).map
    (s.setInstance (.verificationCount commitment))

/-- `verify_one`. With an error it returns the state its earlier steps left behind. -/
def verifyOne (caller : Address) (item : ProofItem) (s : State Address) :
    Option (Except Error Bool × State Address) :=
  match checkAccess s caller with
  | .error e => some (.error e, s)
  | .ok () =>
      match s.limits with
      | none => some (.error .notInitialized, s)
      | some limits =>
          match countCall h ledger limits caller s with
          | none => none
          | some (.error e, s) => some (.error e, s)
          | some (.ok (), s) =>
              match checkProof h ledger item s with
              | none => none
              | some (.error e) => some (.error e, s)
              | some (.ok verified) =>
                  if verified then
                    (recordVerificationAttempt (computeInputsHash h item.publicInputs) s).map
                      fun s => (.ok verified, s)
                  else some (.ok verified, s)

/-- `publish_verification_result`. -/
def publishVerificationResult (caller : Address) (success : Bool)
    (publicInputs : List (BytesN 32)) (s : State Address) : State Address :=
  s.publish ⟨success, caller, computeInputsHash h publicInputs⟩

/-- `verify_proof`. -/
def verifyProof (auth : Address → Bool) (caller : Address) (item : ProofItem) (s : State Address) :
    Option (Except Error Bool × State Address) :=
  if !auth caller then none
  else
    match verifyOne h ledger caller item s with
    | none => none
    | some (.ok success, s) =>
        some (.ok success, publishVerificationResult h caller success item.publicInputs s)
    | some (.error e, s) => some (.error e, s)

/-- The loop of `verify_batch`; `results` is the vector it pushes to. -/
def verifyBatchLoop (caller : Address) : List ProofItem → List Bool → State Address →
    Option (Except Error (List Bool) × State Address)
  | [], results, s => some (.ok results, s)
  | item :: proofs, results, s =>
      match verifyOne h ledger caller item s with
      | none => none
      | some (.ok success, s) =>
          verifyBatchLoop caller proofs (results ++ [success])
            (publishVerificationResult h caller success item.publicInputs s)
      | some (.error .notInitialized, s) => some (.error .notInitialized, s)
      | some (.error .contractPaused, s) => some (.error .contractPaused, s)
      | some (.error _, s) =>
          verifyBatchLoop caller proofs (results ++ [false])
            (publishVerificationResult h caller false item.publicInputs s)

/-- `verify_batch`. -/
def verifyBatch (auth : Address → Bool) (caller : Address) (proofs : List ProofItem)
    (s : State Address) : Option (Except Error (List Bool) × State Address) :=
  if !auth caller then none else verifyBatchLoop h ledger caller proofs [] s

end Verification

/-! ## Transactions -/

/-- The state-changing entry points with their arguments. -/
inductive Call (Address : Type) where
  | setLimits (maxCalls windowSize : UInt32)
  | updateVk (vk : VerifyingKey)
  | setAllowlistMode (enabled : Bool)
  | addToAllowlist (addr : Address)
  | removeFromAllowlist (addr : Address)
  | proposeAdmin (newAdmin : Address)
  | acceptAdmin
  | setPaused (paused : Bool)
  | verifyProof (caller : Address) (item : ProofItem)
  | verifyBatch (caller : Address) (proofs : List ProofItem)

/-- A call and the addresses that authorised it. -/
structure Tx (Address : Type) where
  auth : Address → Bool
  call : Call Address

/-- What a call returns. -/
inductive Reply where
  | unit
  | flag (b : Bool)
  | flags (bs : List Bool)
deriving DecidableEq

/-- Pack the value a call returns. -/
def reply {α : Type} (pack : α → Reply) (r : Option (Except Error α × State Address)) :
    Option (Except Error Reply × State Address) :=
  r.map fun (v, s) => (v.map pack, s)

/-- The body of a call. -/
def callBody (h : Host) (ledger : UInt32) (auth : Address → Bool) (s : State Address) :
    Call Address → Option (Except Error Reply × State Address)
  | .setLimits m w => reply (fun _ => .unit) (setLimits auth m w s)
  | .updateVk vk => reply (fun _ => .unit) (updateVk auth vk s)
  | .setAllowlistMode b => reply (fun _ => .unit) (setAllowlistMode auth b s)
  | .addToAllowlist a => reply (fun _ => .unit) (addToAllowlist auth a s)
  | .removeFromAllowlist a => reply (fun _ => .unit) (removeFromAllowlist auth a s)
  | .proposeAdmin a => reply (fun _ => .unit) (proposeAdmin auth a s)
  | .acceptAdmin => reply (fun _ => .unit) (acceptAdmin auth s)
  | .setPaused b => reply (fun _ => .unit) (setPaused auth b s)
  | .verifyProof caller item => reply .flag (verifyProof h ledger auth caller item s)
  | .verifyBatch caller proofs => reply .flags (verifyBatch h ledger auth caller proofs s)

/-- One transaction at a ledger. -/
def exec (h : Host) (ledger : UInt32) (s : State Address) (tx : Tx Address) :
    Outcome Error Reply × State Address :=
  commit s (callBody h ledger tx.auth s tx.call)

/-- The current ledger and the contract's state. -/
structure World (Address : Type) where
  ledger : UInt32
  state : State Address

/-- What happens next: the ledger sequence moves on, or a transaction runs. -/
inductive Event (Address : Type) where
  | advance (target : UInt32)
  | tx (tx : Tx Address)

/-- The verifier as a machine; `none` is the outcome of a ledger advance. -/
def machine (h : Host) :
    Machine (World Address) (Event Address) (Option (Outcome Error Reply)) where
  step w
    | .advance target => (none, { w with ledger := max w.ledger target })
    | .tx tx =>
        let (outcome, s) := exec h w.ledger w.state tx
        (some outcome, { w with state := s })

/-- The states of a contract that was constructed at some ledger. -/
def Deployed (h : Host) (w : World Address) : Prop :=
  ∃ admin maxCalls windowSize vk s ledger, construct admin maxCalls windowSize vk = some s ∧
    (machine h).Reachable ⟨ledger, s⟩ w

end ZkStellar.Verifier

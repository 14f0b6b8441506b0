import ZkStellar.Lib.Panic
import ZkStellar.Verifier.Deployed

set_option autoImplicit false

/-! # Where the verifier can panic

`Labelled` is the verification code with the place of every panic and trap; without the places it is
the code as before (`toOption_verifyOne`, `toOption_verifyProof`, `toOption_verifyBatch`). Some of
these places are guarded by no check of `verify_one` itself: the remainder and the difference of the
window, and the indices into the key's points and the public inputs. They rest on what constructor,
`set_limits` and `update_vk` have checked, and no call on a deployed contract reaches them
(`initialisation_invariant`). -/

namespace ZkStellar.Verifier

variable {Address : Type}

/-- The places where a call that submits proofs can panic or trap. -/
inductive Panic where
  | auth
  /-- `ledger % window_size`. -/
  | remainder
  /-- `ledger - (ledger % window_size)`. -/
  | difference
  /-- `current + 1` in the limiter. -/
  | callCount
  | extendTtl
  /-- The assertions of `read_g1` and `read_g2`. -/
  | proofLength
  | publicInput (i : ℕ)
  | icPoint (i : ℕ)
  | pairingCheck
  /-- `current + 1` for a commitment. -/
  | verificationCount
deriving DecidableEq

/-- The places that only the contract's configuration guards. -/
def Panic.Guarded : Panic → Prop
  | .remainder | .difference | .publicInput _ | .icPoint _ => True
  | _ => False

/-! ## The code with its places -/

namespace Labelled

section

variable (h : Host) (ledger : UInt32)

def windowStart (windowSize : UInt32) : Except Panic UInt32 := do
  let r ← orPanic .remainder (checkedRem32 ledger windowSize)
  orPanic .difference (checkedSub32 ledger r)

def checkProof (item : ProofItem) (s : State Address) : Except Panic (Except Error Bool) := do
  let proofA ← orPanic .proofLength (readG1 h item.proofA)
  let proofB ← orPanic .proofLength (readG2 h item.proofB)
  let proofC ← orPanic .proofLength (readG1 h item.proofC)
  if item.publicInputs.length ≠ expectedPublicInputCount then
    return .ok false
  else
    let expiry ← orPanic (.publicInput 1) item.publicInputs[1]?
    match readExpiryLedger expiry with
    | none => return .ok false
    | some expiryLedger =>
        if ledger > expiryLedger then
          return .error .proofExpired
        else
          match s.vk with
          | none => return .error .notInitialized
          | some vk => do
              let ic₀ ← orPanic (.icPoint 0) vk.ic[0]?
              let ic₁ ← orPanic (.icPoint 1) vk.ic[1]?
              let publicInput ← orPanic (.publicInput 0) item.publicInputs[0]?
              let vkX := Host.G1Affine.add (h.g1Point ic₀)
                (Host.G1Affine.mul (h.g1Point ic₁) (Fr.fromBytes publicInput))
              let verified ← orPanic .pairingCheck (h.pairingCheck
                [proofA, Host.G1Affine.neg (h.g1Point vk.alpha), Host.G1Affine.neg vkX,
                  Host.G1Affine.neg proofC]
                [proofB, h.g2Point vk.beta, h.g2Point vk.gamma, h.g2Point vk.delta])
              return .ok verified

variable [DecidableEq Address]

def countCall (limits : Limits) (caller : Address) (s : State Address) :
    Except Panic (Except Error Unit × State Address) := do
  let start ← windowStart ledger limits.windowSize
  let next ← orPanic .callCount (checkedAdd32 (s.callCount ledger caller start) 1)
  if next > limits.maxCalls then
    return (.error .rateLimitExceeded, s)
  else if h.canExtend ledger limits.windowSize then
    return (.ok (), s.setCallCount h ledger caller start limits.windowSize next)
  else
    .error .extendTtl

def verifyOne (caller : Address) (item : ProofItem) (s : State Address) :
    Except Panic (Except Error Bool × State Address) :=
  match checkAccess s caller with
  | .error e => return (.error e, s)
  | .ok () =>
      match s.limits with
      | none => return (.error .notInitialized, s)
      | some limits => do
          match ← countCall h ledger limits caller s with
          | (.error e, s) => return (.error e, s)
          | (.ok (), s) =>
              match ← checkProof h ledger item s with
              | .error e => return (.error e, s)
              | .ok verified =>
                  if verified then
                    let s ← orPanic .verificationCount
                      (recordVerificationAttempt (computeInputsHash h item.publicInputs) s)
                    return (.ok verified, s)
                  else
                    return (.ok verified, s)

def verifyProof (auth : Address → Bool) (caller : Address) (item : ProofItem) (s : State Address) :
    Except Panic (Except Error Bool × State Address) :=
  if !auth caller then .error .auth
  else do
    match ← verifyOne h ledger caller item s with
    | (.ok success, s) =>
        return (.ok success, publishVerificationResult h caller success item.publicInputs s)
    | (.error e, s) => return (.error e, s)

def verifyBatchLoop (caller : Address) : List ProofItem → List Bool → State Address →
    Except Panic (Except Error (List Bool) × State Address)
  | [], results, s => return (.ok results, s)
  | item :: proofs, results, s => do
      match ← verifyOne h ledger caller item s with
      | (.ok success, s) =>
          verifyBatchLoop caller proofs (results ++ [success])
            (publishVerificationResult h caller success item.publicInputs s)
      | (.error .notInitialized, s) => return (.error .notInitialized, s)
      | (.error .contractPaused, s) => return (.error .contractPaused, s)
      | (.error _, s) =>
          verifyBatchLoop caller proofs (results ++ [false])
            (publishVerificationResult h caller false item.publicInputs s)

def verifyBatch (auth : Address → Bool) (caller : Address) (proofs : List ProofItem)
    (s : State Address) : Except Panic (Except Error (List Bool) × State Address) :=
  if !auth caller then .error .auth else verifyBatchLoop h ledger caller proofs [] s

end

end Labelled

/-! ## The places left out -/

section Forget

variable {h : Host} {ledger : UInt32}

theorem toOption_windowStart (windowSize : UInt32) :
    (Labelled.windowStart ledger windowSize).toOption = windowStart ledger windowSize := by
  simp only [Labelled.windowStart, windowStart, toOption_bind, toOption_orPanic]

theorem toOption_checkProof (item : ProofItem) (s : State Address) :
    (Labelled.checkProof h ledger item s).toOption = checkProof h ledger item s := by
  unfold Labelled.checkProof checkProof
  simp only [toOption_bind, toOption_orPanic]
  cases readG1 h item.proofA with
  | none => rfl
  | some proofA =>
      cases readG2 h item.proofB with
      | none => rfl
      | some proofB =>
          cases readG1 h item.proofC with
          | none => rfl
          | some proofC =>
              simp only [Option.bind_some]
              split_ifs with hlength
              · rfl
              · -- past the length check both indices exist, so indexing does not panic
                obtain ⟨publicInput, expiry, hinputs⟩ :=
                  List.length_eq_two.1 (not_not.1 hlength)
                simp only [hinputs, toOption_bind, toOption_orPanic, List.getElem?_cons_succ,
                  List.getElem?_cons_zero, Option.bind_some]
                cases readExpiryLedger expiry with
                | none => rfl
                | some expiryLedger =>
                    by_cases hexpired : ledger > expiryLedger
                    · simp only [hexpired, if_true]
                      rfl
                    · simp only [hexpired, if_false]
                      cases s.vk with
                      | none => rfl
                      | some vk =>
                          simp only [toOption_bind, toOption_orPanic]
                          cases vk.ic[0]? with
                          | none => rfl
                          | some ic₀ =>
                              cases vk.ic[1]? with
                              | none => rfl
                              | some ic₁ =>
                                  simp only [Option.bind_some, Option.map_eq_bind]
                                  rfl

variable [DecidableEq Address]

theorem toOption_countCall (limits : Limits) (caller : Address) (s : State Address) :
    (Labelled.countCall h ledger limits caller s).toOption
      = countCall h ledger limits caller s := by
  unfold Labelled.countCall countCall
  simp only [toOption_bind, toOption_orPanic, toOption_windowStart]
  cases windowStart ledger limits.windowSize with
  | none => rfl
  | some start =>
      simp only [Option.bind_some]
      cases checkedAdd32 (s.callCount ledger caller start) 1 with
      | none => rfl
      | some next =>
          simp only [Option.bind_some]
          split_ifs <;> rfl

theorem toOption_verifyOne (caller : Address) (item : ProofItem) (s : State Address) :
    (Labelled.verifyOne h ledger caller item s).toOption = verifyOne h ledger caller item s := by
  unfold Labelled.verifyOne verifyOne
  cases checkAccess s caller with
  | error e => rfl
  | ok _ =>
      cases s.limits with
      | none => rfl
      | some limits =>
          simp only [toOption_bind, toOption_countCall]
          rcases countCall h ledger limits caller s with _ | ⟨e | _, s⟩
          · rfl
          · rfl
          · simp only [Option.bind_some, toOption_bind, toOption_checkProof]
            rcases checkProof h ledger item s with _ | e | verified
            · rfl
            · rfl
            · cases verified with
              | false => rfl
              | true =>
                  simp only [Option.bind_some, if_true, toOption_bind, toOption_orPanic]
                  cases recordVerificationAttempt (computeInputsHash h item.publicInputs) s <;> rfl

theorem toOption_verifyProof (auth : Address → Bool) (caller : Address) (item : ProofItem)
    (s : State Address) :
    (Labelled.verifyProof h ledger auth caller item s).toOption
      = verifyProof h ledger auth caller item s := by
  unfold Labelled.verifyProof verifyProof
  split_ifs
  · rfl
  · simp only [toOption_bind, toOption_verifyOne]
    rcases verifyOne h ledger caller item s with _ | ⟨e | success, s⟩ <;> rfl

theorem toOption_verifyBatchLoop (caller : Address) (proofs : List ProofItem) (results : List Bool)
    (s : State Address) :
    (Labelled.verifyBatchLoop h ledger caller proofs results s).toOption
      = verifyBatchLoop h ledger caller proofs results s := by
  induction proofs generalizing results s with
  | nil => rfl
  | cons item proofs ih =>
      unfold Labelled.verifyBatchLoop verifyBatchLoop
      simp only [toOption_bind, toOption_verifyOne]
      rcases verifyOne h ledger caller item s with _ | ⟨e | success, s⟩
      · rfl
      · cases e with
        | notInitialized => rfl
        | contractPaused => rfl
        | _ => exact ih _ _
      · exact ih _ _

theorem toOption_verifyBatch (auth : Address → Bool) (caller : Address) (proofs : List ProofItem)
    (s : State Address) :
    (Labelled.verifyBatch h ledger auth caller proofs s).toOption
      = verifyBatch h ledger auth caller proofs s := by
  unfold Labelled.verifyBatch verifyBatch
  split_ifs
  · rfl
  · exact toOption_verifyBatchLoop caller proofs [] s

end Forget

/-! ## The guarded places -/

section Guarded

variable {h : Host} {ledger : UInt32}

theorem labelled_windowStart_eq {windowSize : UInt32} (hsize : windowSize ≠ 0) :
    Labelled.windowStart ledger windowSize = .ok (currentWindow ledger windowSize) := by
  rw [← toOption_eq_some_iff, toOption_windowStart, windowStart_eq hsize]

theorem avoids_checkProof {item : ProofItem} {s : State Address}
    (harity : ∀ vk, s.vk = some vk → vk.ic.length = expectedPublicInputCount) :
    Avoids Panic.Guarded (Labelled.checkProof h ledger item s) := by
  unfold Labelled.checkProof
  refine (avoids_orPanic id _).bind fun proofA _ => (avoids_orPanic id _).bind fun proofB _ =>
    (avoids_orPanic id _).bind fun proofC _ => ?_
  split_ifs with hlength
  · exact avoids_ok
  · -- two inputs, so both indices are in bounds
    obtain ⟨publicInput, expiry, hinputs⟩ := List.length_eq_two.1 (not_not.1 hlength)
    refine (avoids_orPanic_of_eq_some (by rw [hinputs]; rfl)).bind fun expiry _ => ?_
    cases readExpiryLedger expiry with
    | none => exact avoids_ok
    | some expiryLedger =>
        by_cases hexpired : ledger > expiryLedger
        · simp only [hexpired, if_true]
          exact avoids_ok
        · simp only [hexpired, if_false]
          cases hvk : s.vk with
          | none => exact avoids_ok
          | some vk =>
              -- a stored key has two points, so neither index into it is out of bounds
              obtain ⟨ic₀, ic₁, hic⟩ := List.length_eq_two.1 (harity vk hvk)
              refine (avoids_orPanic_of_eq_some (by rw [hic]; rfl)).bind fun _ _ => ?_
              refine (avoids_orPanic_of_eq_some (by rw [hic]; rfl)).bind fun _ _ => ?_
              refine (avoids_orPanic_of_eq_some (by rw [hinputs]; rfl)).bind fun _ _ => ?_
              exact (avoids_orPanic id _).bind fun _ _ => avoids_ok

variable [DecidableEq Address] {s : State Address} {limits : Limits} {vk : VerifyingKey}

theorem avoids_countCall (hsize : limits.windowSize ≠ 0) (caller : Address) :
    Avoids Panic.Guarded (Labelled.countCall h ledger limits caller s) := by
  unfold Labelled.countCall
  rw [labelled_windowStart_eq hsize]
  refine avoids_ok.bind fun start _ => (avoids_orPanic id _).bind ?_
  intro next _
  split_ifs
  · exact avoids_ok
  · exact avoids_ok
  · exact avoids_error id

theorem avoids_verifyOne (hcfg : Configured s limits vk) (caller : Address) (item : ProofItem) :
    Avoids Panic.Guarded (Labelled.verifyOne h ledger caller item s) := by
  unfold Labelled.verifyOne
  cases checkAccess s caller with
  | error e => exact avoids_ok
  | ok _ =>
      simp only [hcfg.limits_eq]
      refine (avoids_countCall hcfg.windowSize_ne caller).bind ?_
      intro counted hcounted
      obtain ⟨e | _, s'⟩ := counted
      · exact avoids_ok
      · -- counting the call leaves the stored key alone
        rw [← toOption_eq_some_iff, toOption_countCall] at hcounted
        have hcfg' := hcfg.of_frame (frame_of_countCall hcounted)
        have harity : ∀ vk', s'.vk = some vk' → vk'.ic.length = expectedPublicInputCount := by
          intro vk' hvk'
          rw [hcfg'.vk_eq, Option.some.injEq] at hvk'
          rw [← hvk']
          exact hcfg'.arity
        refine (avoids_checkProof harity).bind ?_
        intro verdict _
        cases verdict with
        | error e => exact avoids_ok
        | ok verified =>
            cases verified with
            | false => exact avoids_ok
            | true => exact (avoids_orPanic id _).bind fun _ _ => avoids_ok

theorem avoids_verifyProof (hcfg : Configured s limits vk) (auth : Address → Bool)
    (caller : Address) (item : ProofItem) :
    Avoids Panic.Guarded (Labelled.verifyProof h ledger auth caller item s) := by
  unfold Labelled.verifyProof
  split_ifs
  · exact avoids_error id
  · refine (avoids_verifyOne hcfg caller item).bind ?_
    intro out _
    obtain ⟨e | success, s'⟩ := out <;> exact avoids_ok

/-- Every item of a batch meets a contract that is still configured. -/
theorem avoids_verifyBatchLoop (hcfg : Configured s limits vk) (caller : Address)
    (proofs : List ProofItem) (results : List Bool) :
    Avoids Panic.Guarded (Labelled.verifyBatchLoop h ledger caller proofs results s) := by
  induction proofs generalizing results s with
  | nil => exact avoids_ok
  | cons item proofs ih =>
      unfold Labelled.verifyBatchLoop
      refine (avoids_verifyOne hcfg caller item).bind ?_
      intro out hout
      obtain ⟨r, s'⟩ := out
      rw [← toOption_eq_some_iff, toOption_verifyOne] at hout
      have hframe := frame_of_verifyOne hout
      cases r with
      | ok success => exact ih (hcfg.of_frame (hframe.trans frame_of_publish)) _
      | error e =>
          cases e with
          | notInitialized => exact avoids_ok
          | contractPaused => exact avoids_ok
          | _ => exact ih (hcfg.of_frame (hframe.trans frame_of_publish)) _

theorem avoids_verifyBatch (hcfg : Configured s limits vk) (auth : Address → Bool)
    (caller : Address) (proofs : List ProofItem) :
    Avoids Panic.Guarded (Labelled.verifyBatch h ledger auth caller proofs s) := by
  unfold Labelled.verifyBatch
  split_ifs
  · exact avoids_error id
  · exact avoids_verifyBatchLoop hcfg caller proofs []

end Guarded

/-! ## Never uninitialised -/

section Initialised

variable {h : Host} {ledger : UInt32}

/-- What `upgrade` answers; what runs after it is another program. -/
def upgrade (auth : Address → Bool) (s : State Address) :
    Option (Except Error Unit × State Address) :=
  withAdmin auth s id

theorem ne_error_of_withAdmin {auth : Address → Bool} {s s' : State Address} {e : Error}
    {update : State Address → State Address} (hadmin : s.admin ≠ none) :
    withAdmin auth s update ≠ some (.error e, s') := by
  unfold withAdmin
  cases hcase : s.admin with
  | none => exact absurd hcase hadmin
  | some admin =>
      simp only
      split_ifs <;> simp

theorem checkAccess_ne_notInitialized {s : State Address} {caller : Address} :
    checkAccess s caller ≠ .error .notInitialized := by
  unfold checkAccess
  split_ifs <;> simp

theorem itemVerdict_ne_notInitialized {vk : VerifyingKey} {item : ProofItem} :
    itemVerdict h ledger vk item ≠ some (.error .notInitialized) := by
  unfold itemVerdict
  split_ifs
  · cases item.kind ledger <;> simp
  · simp

variable [DecidableEq Address] {s s' : State Address} {limits : Limits} {vk : VerifyingKey}

theorem verifyOne_ne_notInitialized (hcfg : Configured s limits vk) {caller : Address}
    {item : ProofItem} : verifyOne h ledger caller item s ≠ some (.error .notInitialized, s') := by
  intro hrun
  rw [verifyOne_eq hcfg] at hrun
  split at hrun
  · next haccess =>
      cases hrun
      exact checkAccess_ne_notInitialized haccess
  · split at hrun
    · cases hrun
    · next hcount =>
        cases hrun
        exact absurd ((countCall_eq_error hcfg.windowSize_ne).1 hcount).2.2.1 (by decide)
    · split at hrun
      · cases hrun
      · next hverdict =>
          cases hrun
          exact itemVerdict_ne_notInitialized hverdict
      · cases hrun
      · simp at hrun

theorem verifyBatchLoop_ne_notInitialized (hcfg : Configured s limits vk) {caller : Address}
    {proofs : List ProofItem} {results : List Bool} :
    verifyBatchLoop h ledger caller proofs results s ≠ some (.error .notInitialized, s') := by
  induction proofs generalizing results s with
  | nil => simp [verifyBatchLoop]
  | cons item proofs ih =>
      intro hrun
      unfold verifyBatchLoop at hrun
      split at hrun
      · cases hrun
      · next hone =>
          exact ih (hcfg.of_frame ((frame_of_verifyOne hone).trans frame_of_publish)) hrun
      · next hone => exact verifyOne_ne_notInitialized hcfg hone
      · cases hrun
      · next hone =>
          exact ih (hcfg.of_frame ((frame_of_verifyOne hone).trans frame_of_publish)) hrun

omit [DecidableEq Address] in
theorem reply_eq_error_iff {α : Type} {pack : α → Reply} {e : Error}
    {r : Option (Except Error α × State Address)} :
    reply pack r = some (.error e, s') ↔ r = some (.error e, s') := by
  rcases r with _ | ⟨e' | a, s⟩ <;> simp [reply, Except.map]

/-- No call on a configured contract answers `NotInitialized`. -/
theorem callBody_ne_notInitialized (hcfg : Configured s limits vk) (auth : Address → Bool)
    (call : Call Address) :
    callBody h ledger auth s call ≠ some (.error .notInitialized, s') := by
  intro hrun
  cases call with
  | verifyProof caller item =>
      simp only [callBody, reply_eq_error_iff, verifyProof] at hrun
      split at hrun
      · cases hrun
      · split at hrun
        · cases hrun
        · cases hrun
        · next hone =>
            cases hrun
            exact verifyOne_ne_notInitialized hcfg hone
  | verifyBatch caller proofs =>
      simp only [callBody, reply_eq_error_iff, verifyBatch] at hrun
      split at hrun
      · cases hrun
      · exact verifyBatchLoop_ne_notInitialized hcfg hrun
  -- a missing proposal has an error of its own
  | acceptAdmin =>
      simp only [callBody, reply_eq_error_iff, acceptAdmin] at hrun
      split at hrun
      · cases hrun
      · split at hrun <;> cases hrun
  | setLimits maxCalls windowSize =>
      simp only [callBody, reply_eq_error_iff, setLimits] at hrun
      split at hrun
      · cases hrun
      · exact ne_error_of_withAdmin hcfg.admin_ne hrun
  | updateVk vk =>
      simp only [callBody, reply_eq_error_iff, updateVk] at hrun
      split at hrun
      · cases hrun
      · exact ne_error_of_withAdmin hcfg.admin_ne hrun
  -- what is left asks for the administrator and nothing else
  | _ =>
      exact ne_error_of_withAdmin hcfg.admin_ne (reply_eq_error_iff.1 hrun)

theorem exec_ne_notInitialized (hcfg : Configured s limits vk) (tx : Tx Address) :
    (exec h ledger s tx).1 ≠ .err .notInitialized := by
  intro herr
  unfold exec at herr
  rcases hbody : callBody h ledger tx.auth s tx.call with _ | ⟨e | v, s'⟩
  · rw [hbody] at herr
    cases herr
  · rw [hbody] at herr
    cases herr
    exact callBody_ne_notInitialized hcfg tx.auth tx.call hbody
  · rw [hbody] at herr
    cases herr

omit [DecidableEq Address] in
theorem getConfig_ne_notInitialized (hcfg : Configured s limits vk) :
    s.getConfig ≠ .error .notInitialized := by
  obtain ⟨admin, hadmin⟩ := Option.ne_none_iff_exists'.1 hcfg.admin_ne
  simp [State.getConfig, hadmin, hcfg.limits_eq]

/-- **The initialisation invariant.** After any run from construction the contract has an admin,
    limits with a non-empty window and a key with two points. So no call, at whatever ledger,
    reaches the division by the window's size with a zero, a difference below zero, or an index out
    of bounds in the key or the public inputs, and no entry point answers `NotInitialized`. In every
    state the code with its places is the contract's code. -/
theorem initialisation_invariant (h : Host) (w : World Address) (hw : Deployed h w) :
    (∃ admin limits vk, w.state.admin = some admin ∧ w.state.limits = some limits ∧
      w.state.vk = some vk ∧ 0 < limits.windowSize ∧ vk.ic.length = 2) ∧
    (∀ ledger caller item,
      Avoids Panic.Guarded (Labelled.verifyOne h ledger caller item w.state)) ∧
    (∀ ledger auth caller item,
      Avoids Panic.Guarded (Labelled.verifyProof h ledger auth caller item w.state)) ∧
    (∀ ledger auth caller proofs,
      Avoids Panic.Guarded (Labelled.verifyBatch h ledger auth caller proofs w.state)) ∧
    (∀ ledger tx, (exec h ledger w.state tx).1 ≠ .err .notInitialized) ∧
    w.state.getConfig ≠ .error .notInitialized ∧
    (∀ auth s', upgrade auth w.state ≠ some (.error .notInitialized, s')) ∧
    (∀ ledger caller item (s : State Address),
      (Labelled.verifyOne h ledger caller item s).toOption = verifyOne h ledger caller item s) ∧
    (∀ ledger auth caller item (s : State Address),
      (Labelled.verifyProof h ledger auth caller item s).toOption
        = verifyProof h ledger auth caller item s) ∧
    ∀ ledger auth caller proofs (s : State Address),
      (Labelled.verifyBatch h ledger auth caller proofs s).toOption
        = verifyBatch h ledger auth caller proofs s := by
  obtain ⟨limits, vk, hcfg⟩ := configured_of_deployed hw
  obtain ⟨admin, hadmin⟩ := Option.ne_none_iff_exists'.1 hcfg.admin_ne
  refine ⟨⟨admin, limits, vk, hadmin, hcfg.limits_eq, hcfg.vk_eq, ?_, hcfg.arity⟩, ?_, ?_, ?_, ?_,
    getConfig_ne_notInitialized hcfg, ?_, ?_, ?_, ?_⟩
  · exact UInt32.pos_iff_ne_zero.2 hcfg.windowSize_ne
  · intro ledger caller item
    exact avoids_verifyOne hcfg caller item
  · intro ledger auth caller item
    exact avoids_verifyProof hcfg auth caller item
  · intro ledger auth caller proofs
    exact avoids_verifyBatch hcfg auth caller proofs
  · intro ledger tx
    exact exec_ne_notInitialized hcfg tx
  · intro auth s'
    exact ne_error_of_withAdmin hcfg.admin_ne
  · intro ledger caller item s
    exact toOption_verifyOne caller item s
  · intro ledger auth caller item s
    exact toOption_verifyProof auth caller item s
  · intro ledger auth caller proofs s
    exact toOption_verifyBatch auth caller proofs s

/-- After new limits and a new key, and some ledgers later. -/
theorem initialisation_invariant_zero :
    Avoids Panic.Guarded (Labelled.verifyOne Host.scalar 60 () (zeroItem 7 100)
      ((machine Host.scalar).run ⟨50, zeroState 5 17280⟩
        [.tx (signed (.setLimits 3 7)), .tx (signed (.updateVk (.zero 1))), .advance 60]).state) :=
  (initialisation_invariant Host.scalar _ (deployed_zero 50 5 (by decide) _)).2.1 60 ()
    (zeroItem 7 100)

end Initialised

end ZkStellar.Verifier

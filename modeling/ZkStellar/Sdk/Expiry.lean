import ZkStellar.Sdk.Proof
import ZkStellar.Verifier.Gate

set_option autoImplicit false

/-! # Expiry in the SDK and in the verifier

`isProofExpired` says that a proof without an expiry ledger never expires, and the bundle path of
`verifyOnChain` formats proofs without one; the verifier takes only proofs with two public inputs,
the second being the expiry ledger. With an expiry ledger the two sides agree, as long as the host
can extend the caller's entry and the counters have room; without one the contract never accepts
(`expiry_agrees_iff`). The 32 bytes that carry the ledger have one spelling
for each (`expiry_codec`). -/

namespace ZkStellar.Sdk

open Verifier (ProofItem World Reply)

/-! ## The SDK's side -/

/-- `ProofMetadata`, its field that decides expiry. -/
structure ProofMetadata where
  expiryLedger : Option JsNumber

/-- `isProofExpired`. -/
def isProofExpired (metadata : ProofMetadata) (currentLedger : JsNumber) : Bool :=
  match metadata.expiryLedger with
  | none => false
  | some expiryLedger => currentLedger.gt expiryLedger

/-- `VerifyOptions`, its fields that decide what is submitted. -/
structure VerifyOptions where
  calldata : Option SorobanProofCalldata
  bundle : Option ProofBundle

/-- `resolveCalldata`. -/
def resolveCalldata (opts : VerifyOptions) : Except JsException SorobanProofCalldata :=
  resolve opts.calldata opts.bundle "verifyOnChain"

/-- The contract's arguments for calldata. -/
def makeProofItem (calldata : SorobanProofCalldata) : Option ProofItem :=
  calldata.inputs.map fun inputs => ⟨calldata.proofA, calldata.proofB, calldata.proofC, inputs⟩

variable {Address : Type} [DecidableEq Address]

/-- Submit calldata to `verify_proof` in a transaction of the caller. Arguments that do not decode
    trap. -/
def submit (h : Host) (w : World Address) (auth : Address → Bool) (caller : Address)
    (calldata : SorobanProofCalldata) : Outcome Verifier.Error Reply :=
  match makeProofItem calldata with
  | none => .trap
  | some item => (Verifier.exec h w.ledger w.state ⟨auth, .verifyProof caller item⟩).1

/-- `verifyOnChain`, up to the outcome of its transaction. -/
def verifyOnChain (h : Host) (w : World Address) (auth : Address → Bool) (caller : Address)
    (networkPassphrase : String) (opts : VerifyOptions) :
    Except JsException (Outcome Verifier.Error Reply) := do
  let calldata ← resolveCalldata opts
  validateCalldata calldata
  liftZk (assertBundleNetwork opts.bundle networkPassphrase)
  return submit h w auth caller calldata

/-- The contract's answer to a proof formatted with the metadata's expiry is what `isProofExpired`
    announces. -/
def ExpiryAgrees (h : Host) (w : World Address) (auth : Address → Bool) (caller : Address)
    (proof publicSignals : JsValue) (metadata : ProofMetadata) : Prop :=
  ∃ calldata, formatProof proof publicSignals metadata.expiryLedger = .ok calldata ∧
    submit h w auth caller calldata
      = if isProofExpired metadata (.ofNat w.ledger.toNat) then .err .proofExpired
        else .ok (.flag true)

/-- The calldata has one public input and satisfies the equation under the key. -/
def SatisfiesEquation (h : Host) (vk : VerifyingKey) (calldata : SorobanProofCalldata)
    (publicInput : BytesN 32) : Prop :=
  calldata.publicInputs = [publicInput.bytes] ∧ ∃ K π, vk.points h = some K ∧
    proofPoints h calldata.proofA calldata.proofB calldata.proofC = some π ∧
    Groth16.Accepts h.pairing K π [Fr.fromBytes publicInput]

/-! ## The contract's side -/

/-- The 32 bytes of a 32-bit number: 28 zeros and its own four. -/
theorem bytes_ofNat_uint32 (n : UInt32) :
    (BytesN.ofNat 32 n.toNat).bytes = List.replicate 28 0 ++ toBe 4 n.toNat := by
  have hdiv := toBe_add 28 4 n.toNat
  rw [Nat.div_eq_of_lt (n.toNat_lt.trans_eq (by norm_num))] at hdiv
  exact hdiv

theorem readExpiryLedger_ofNat (n : UInt32) :
    Verifier.readExpiryLedger (.ofNat 32 n.toNat) = some n := by
  have hlen : (List.replicate 28 (0 : UInt8)).length = 28 := List.length_replicate
  unfold Verifier.readExpiryLedger
  rw [bytes_ofNat_uint32, List.take_append_of_le_length hlen.ge, List.take_of_length_le hlen.le,
    List.drop_append_of_le_length hlen.ge, List.drop_of_length_le hlen.le]
  rw [if_pos (by decide), List.nil_append,
    beNat_toBe_of_lt (n.toNat_lt.trans_eq (by norm_num))]
  simp

/-- The contract reads a ledger from its encoding and from nothing else. -/
theorem readExpiryLedger_eq_some_iff {b : BytesN 32} {v : UInt32} :
    Verifier.readExpiryLedger b = some v ↔ b = .ofNat 32 v.toNat := by
  constructor
  · intro hread
    unfold Verifier.readExpiryLedger at hread
    split at hread
    · next hzeros =>
        rw [Option.some.injEq] at hread
        have htake : b.bytes.take 28 = List.replicate 28 0 := by
          refine List.eq_replicate_iff.2 ⟨by simp [b.length_eq], ?_⟩
          intro x hx
          exact beq_iff_eq.1 (List.all_eq_true.1 hzeros x hx)
        have hlen : (b.bytes.drop 28).length = 4 := by simp [b.length_eq]
        have hlt : beNat (b.bytes.drop 28) < 256 ^ 4 := hlen ▸ beNat_lt _
        have hv : v.toNat = beNat (b.bytes.drop 28) := by
          rw [← hread, UInt32.toNat_ofNat']
          exact Nat.mod_eq_of_lt (hlt.trans_eq (by norm_num))
        have hdrop : b.bytes.drop 28 = toBe 4 v.toNat := by
          refine beNat_inj (hlen.trans (length_toBe 4 _).symm) ?_
          rw [hv, beNat_toBe_of_lt hlt]
        refine BytesN.ext ?_
        rw [bytes_ofNat_uint32, ← htake, ← hdrop, List.take_append_drop]
    · cases hread
  · intro hb
    rw [hb]
    exact readExpiryLedger_ofNat v

theorem readExpiryLedger_eq_none_iff {b : BytesN 32} :
    Verifier.readExpiryLedger b = none ↔ ∃ x ∈ b.bytes.take 28, x ≠ 0 := by
  unfold Verifier.readExpiryLedger
  split
  · next hzeros => simpa using hzeros
  · next hzeros => simpa using hzeros

section Submit

variable {h : Host} {w : World Address} {auth : Address → Bool} {caller : Address}
  {limits : Verifier.Limits} {vk : VerifyingKey} {plain : SorobanProofCalldata}
  {publicInput : BytesN 32}

/-- What makes the contract consider the caller's next proof. -/
structure Considered (h : Host) (w : World Address) (auth : Address → Bool) (caller : Address)
    (limits : Verifier.Limits) (vk : VerifyingKey) : Prop where
  configured : Verifier.Configured w.state limits vk
  authorised : auth caller = true
  access : Verifier.checkAccess w.state caller = .ok ()
  room : w.state.callCount w.ledger caller (Verifier.currentWindow w.ledger limits.windowSize)
    < limits.maxCalls
  extend : h.canExtend w.ledger limits.windowSize = true

theorem makeProofItem_eq {calldata : SorobanProofCalldata} (xs : List (BytesN 32))
    (hxs : calldata.publicInputs = xs.map BytesN.bytes) :
    makeProofItem calldata
      = some ⟨calldata.proofA, calldata.proofB, calldata.proofC, xs⟩ := by
  rw [makeProofItem, inputs_of_publicInputs hxs, Option.map_some]

/-- Without an expiry the contract answers `false`. -/
theorem submit_plain (hc : Considered h w auth caller limits vk) (hsized : plain.WellSized)
    (heq : SatisfiesEquation h vk plain publicInput) :
    submit h w auth caller plain = .ok (.flag false) := by
  obtain ⟨ha, hb, hc', -⟩ := hsized
  have hsized' : ProofItem.WellSized ⟨plain.proofA, plain.proofB, plain.proofC, [publicInput]⟩ :=
    ⟨ha, hb, hc'⟩
  rw [submit, makeProofItem_eq [publicInput] heq.1]
  simp only
  rw [Verifier.exec_verifyProof_of_room hc.configured hc.authorised hc.access hc.room hc.extend,
    Verifier.itemVerdict, if_pos hsized']
  rfl

/-- With an expiry ledger the contract rejects the proof after that ledger and accepts it until
    then, if its counter has room. -/
theorem submit_expiry (hc : Considered h w auth caller limits vk) (hsized : plain.WellSized)
    (heq : SatisfiesEquation h vk plain publicInput) (n : UInt32) :
    submit h w auth caller { plain with publicInputs := plain.publicInputs ++ [toBe 32 n.toNat] }
      = if n < w.ledger then .err .proofExpired
        else if (w.state.verificationCount
          (ZkStellar.computeInputsHash h [publicInput, .ofNat 32 n.toNat])).toNat + 1 < 2 ^ 64
        then .ok (.flag true) else .trap := by
  obtain ⟨ha, hb, hc', -⟩ := hsized
  obtain ⟨hinputs, K, π, hK, hπ, hacc⟩ := heq
  let item : ProofItem :=
    ⟨plain.proofA, plain.proofB, plain.proofC, [publicInput, .ofNat 32 n.toNat]⟩
  have hsized' : item.WellSized := ⟨ha, hb, hc'⟩
  have hpoints : item.points h = some π := hπ
  rw [submit, makeProofItem_eq [publicInput, .ofNat 32 n.toNat] (by rw [hinputs]; rfl)]
  simp only
  rw [Verifier.exec_verifyProof_of_room hc.configured hc.authorised hc.access hc.room hc.extend]
  -- the contract's own check: expired only after the ledger, not at it
  by_cases hlate : n < w.ledger
  · have hverdict : Verifier.itemVerdict h w.ledger vk item = some (.error .proofExpired) := by
      have hkind : item.kind w.ledger = .expired := by
        simp only [ProofItem.kind, item, readExpiryLedger_ofNat, gt_iff_lt, hlate, if_true]
      rw [Verifier.itemVerdict, if_pos hsized', hkind]
    rw [hverdict, if_pos hlate]
  · have hverdict : Verifier.itemVerdict h w.ledger vk item = some (.ok true) :=
      (Verifier.itemVerdict_eq_true hc.configured.arity hK hpoints).2
        ⟨publicInput, _, n, rfl, readExpiryLedger_ofNat n, UInt32.not_lt.1 hlate, hacc⟩
    rw [hverdict, if_neg hlate]

/-- A window no entry can be extended by traps every call before the proof is looked at. -/
theorem submit_of_unextendable (hcfg : Verifier.Configured w.state limits vk)
    (hauth : auth caller = true) (haccess : Verifier.checkAccess w.state caller = .ok ())
    (hroom : w.state.callCount w.ledger caller
      (Verifier.currentWindow w.ledger limits.windowSize) < limits.maxCalls)
    (hextend : h.canExtend w.ledger limits.windowSize = false) (calldata : SorobanProofCalldata) :
    submit h w auth caller calldata = .trap := by
  rw [submit]
  cases makeProofItem calldata with
  | none => rfl
  | some item =>
      exact Verifier.exec_verifyProof_of_unextendable hcfg hauth haccess hroom hextend item

end Submit

section Formatted

variable {h : Host} {w : World Address} {auth : Address → Bool} {caller : Address}
  {proof publicSignals : JsValue} {plain : SorobanProofCalldata}
  (hformat : formatProof proof publicSignals none = .ok plain)

include hformat

/-- Without an expiry in the metadata the SDK announces that the proof has not expired. -/
theorem expiryAgrees_none_iff : ExpiryAgrees h w auth caller proof publicSignals ⟨none⟩ ↔
    submit h w auth caller plain = .ok (.flag true) := by
  unfold ExpiryAgrees isProofExpired
  simp only [hformat, Except.ok.injEq, exists_eq_left', Bool.false_eq_true, if_false]

theorem expiryAgrees_some_iff (n : UInt32) :
    ExpiryAgrees h w auth caller proof publicSignals ⟨some (.ofNat n.toNat)⟩ ↔
      submit h w auth caller { plain with publicInputs := plain.publicInputs ++ [toBe 32 n.toNat] }
        = if n < w.ledger then .err .proofExpired else .ok (.flag true) := by
  have hok : formatProof proof publicSignals (some (.ofNat n.toNat)) = .ok
      { plain with publicInputs := plain.publicInputs ++ [toBe 32 n.toNat] } :=
    formatProof_some_eq_ok_iff.2 ⟨plain, hformat, n, rfl, rfl⟩
  unfold ExpiryAgrees isProofExpired
  simp only [hok, Except.ok.injEq, exists_eq_left', JsNumber.gt_ofNat, decide_eq_true_eq,
    ← UInt32.lt_iff_toNat_lt]

/-- A bundle is submitted without an expiry. -/
theorem verifyOnChain_bundle (bundleNetwork networkPassphrase : String) :
    verifyOnChain h w auth caller networkPassphrase
        ⟨none, some ⟨proof, publicSignals, bundleNetwork⟩⟩
      = if bundleNetwork = networkPassphrase then .ok (submit h w auth caller plain)
        else .error (.zk (.networkMismatch bundleNetwork networkPassphrase)) := by
  have hvalid : validateCalldata plain = .ok () :=
    validateCalldata_eq_ok_iff.2 (wellSized_of_formatProof hformat)
  by_cases hnetwork : bundleNetwork = networkPassphrase
  · simp [verifyOnChain, resolveCalldata, resolve, hformat, hvalid, assertBundleNetwork, throwIf,
      liftZk, hnetwork, bind, Except.bind, pure, Except.pure]
  · simp [verifyOnChain, resolveCalldata, resolve, hformat, hvalid, assertBundleNetwork, throwIf,
      liftZk, hnetwork, bind, Except.bind]

end Formatted

/-- The host can extend the entry of the caller's calls by the stored window. -/
def windowExtends (h : Host) (w : World Address) : Bool :=
  w.state.limits.any fun limits => h.canExtend w.ledger limits.windowSize

/-- **Expiry in the SDK and in the verifier.** Take a deployed contract that is not paused, a caller
    it admits and has budget for, and a proof with one public signal that `formatProof` accepts and
    that satisfies the equation under the stored key. With a `u32` expiry or none in the metadata,
    the contract's answer is what `isProofExpired` announces exactly when there is an expiry, the
    host can extend the caller's entry by the window, and, while the expiry has not passed, there is
    room in the counter of its inputs. Submitted as a bundle the proof is never accepted. -/
theorem expiry_agrees_iff (h : Host) (w : World Address) (hw : Verifier.Deployed h w)
    (hpaused : w.state.isPaused = false) (auth : Address → Bool) (caller : Address)
    (hauth : auth caller = true)
    (hallowed : w.state.allowlistEnabled = true → w.state.isAllowlisted caller = true)
    (hbudget : ∀ limits, w.state.limits = some limits → w.state.callCount w.ledger caller
      (Verifier.currentWindow w.ledger limits.windowSize) < limits.maxCalls)
    (proof signal : JsValue) (plain : SorobanProofCalldata)
    (hformat : formatProof proof (.array [signal]) none = .ok plain) (publicInput : BytesN 32)
    (hequation : ∀ vk, w.state.vk = some vk → SatisfiesEquation h vk plain publicInput) :
    (∀ (e : Option UInt32) (metadata : ProofMetadata),
      metadata.expiryLedger = e.map (fun n => JsNumber.ofNat n.toNat) →
      (ExpiryAgrees h w auth caller proof (.array [signal]) metadata ↔
        ∃ n, e = some n ∧ windowExtends h w = true ∧
          (w.ledger ≤ n → (w.state.verificationCount
            (ZkStellar.computeInputsHash h [publicInput, .ofNat 32 n.toNat])).toNat + 1
              < 2 ^ 64))) ∧
    ∀ bundleNetwork networkPassphrase : String,
      verifyOnChain h w auth caller networkPassphrase
          ⟨none, some ⟨proof, .array [signal], bundleNetwork⟩⟩
        = if bundleNetwork = networkPassphrase then
            .ok (if windowExtends h w then .ok (.flag false) else .trap)
          else .error (.zk (.networkMismatch bundleNetwork networkPassphrase)) := by
  obtain ⟨limits, vk, hcfg⟩ := Verifier.configured_of_deployed hw
  have haccess : Verifier.checkAccess w.state caller = .ok () :=
    Verifier.checkAccess_eq_ok.2 ⟨hpaused, hallowed⟩
  have heq := hequation vk hcfg.vk_eq
  have hsized := wellSized_of_formatProof hformat
  have hwindow : windowExtends h w = h.canExtend w.ledger limits.windowSize := by
    rw [windowExtends, hcfg.limits_eq, Option.any_some]
  have hc : windowExtends h w = true → Considered h w auth caller limits vk := by
    intro hextends
    exact ⟨hcfg, hauth, haccess, hbudget limits hcfg.limits_eq, hwindow ▸ hextends⟩
  have htrap : windowExtends h w = false → ∀ calldata : SorobanProofCalldata,
      submit h w auth caller calldata = .trap := by
    intro hextends
    exact submit_of_unextendable hcfg hauth haccess (hbudget limits hcfg.limits_eq)
      (hwindow ▸ hextends)
  have hplain : submit h w auth caller plain
      = if windowExtends h w then .ok (.flag false) else .trap := by
    cases hextends : windowExtends h w with
    | true => exact submit_plain (hc hextends) hsized heq
    | false => exact htrap hextends plain
  refine ⟨fun e metadata hmetadata => ?_, fun bundleNetwork networkPassphrase => ?_⟩
  · obtain ⟨expiryLedger⟩ := metadata
    obtain rfl : expiryLedger = _ := hmetadata
    cases e with
    | none =>
        -- the contract wants two inputs
        have hrefused : submit h w auth caller plain ≠ .ok (.flag true) := by
          rw [hplain]
          split <;> simp
        exact iff_of_false (mt (expiryAgrees_none_iff hformat).1 hrefused) (by simp)
    | some n =>
        simp only [Option.map_some, expiryAgrees_some_iff hformat, Option.some.injEq,
          exists_eq_left']
        cases hextends : windowExtends h w with
        | false =>
            rw [htrap hextends]
            by_cases hlate : n < w.ledger <;> simp [hlate]
        | true =>
            rw [submit_expiry (hc hextends) hsized heq]
            by_cases hlate : n < w.ledger
            · simp [hlate, UInt32.not_le.2 hlate]
            · simp only [hlate, if_false, UInt32.not_lt.1 hlate, true_imp_iff, ite_eq_left_iff,
                reduceCtorEq, imp_false, not_not, true_and]
  · rw [verifyOnChain_bundle hformat, hplain]

theorem satisfiesEquation_zero :
    SatisfiesEquation Host.scalar (.zero 1) (zeroCalldata 7) (.ofNat 32 7) := by
  have hverdict : Verifier.pairingVerdict Host.scalar (.zero 1) (Verifier.zeroItem 7 100)
      (.ofNat 32 7) = some true := by decide +kernel
  obtain ⟨π, K, hπ, hK, hacc⟩ := (Verifier.pairingVerdict_eq_some_iff rfl).1 hverdict
  exact ⟨rfl, K, π, hK, hπ, hacc.1 rfl⟩

/-- At ledger 50 the all-zero proof with expiry ledger 100 is accepted, as the SDK announces. -/
theorem expiry_agrees_iff_zero : ExpiryAgrees Host.scalar ⟨50, Verifier.zeroState 5 17280⟩
    (fun _ => true) () zeroProof (.array [.string "7"]) ⟨some (.ofNat 100)⟩ := by
  refine ((expiry_agrees_iff Host.scalar ⟨50, Verifier.zeroState 5 17280⟩
    (Verifier.deployed_zero 50 5 (by decide) []) rfl (fun _ => true) () rfl (by decide)
    (fun limits hlimits => ?_) zeroProof (.string "7") (zeroCalldata 7)
    (by decide +kernel) (.ofNat 32 7) (fun vk hvk => ?_)).1 (some 100) ⟨some (.ofNat 100)⟩
      rfl).2 ⟨100, rfl, by decide +kernel, fun _ => by decide +kernel⟩
  · cases hlimits
    decide +kernel
  · cases hvk
    exact satisfiesEquation_zero

/-- Without an expiry ledger the SDK announces that the same proof has not expired, and the contract
    answers `false`; so it does to the proof's bundle. -/
theorem no_expiry_refused :
    let w : World Unit := ⟨50, Verifier.zeroState 5 17280⟩
    let everyone : Unit → Bool := fun _ => true
    Verifier.Deployed Host.scalar w ∧ w.state.isPaused = false ∧ w.state.vk = some (.zero 1) ∧
      formatProof zeroProof (.array [.string "7"]) none = .ok (zeroCalldata 7) ∧
      SatisfiesEquation Host.scalar (.zero 1) (zeroCalldata 7) (.ofNat 32 7) ∧
      isProofExpired ⟨none⟩ (.ofNat 50) = false ∧
      submit Host.scalar w everyone () (zeroCalldata 7) = .ok (.flag false) ∧
      ¬ ExpiryAgrees Host.scalar w everyone () zeroProof (.array [.string "7"]) ⟨none⟩ ∧
      verifyOnChain Host.scalar w everyone () "network"
          ⟨none, some ⟨zeroProof, .array [.string "7"], "network"⟩⟩
        = .ok (.ok (.flag false)) := by
  have hformat : formatProof zeroProof (.array [.string "7"]) none = .ok (zeroCalldata 7) := by
    decide +kernel
  have hsubmit : submit Host.scalar ⟨50, Verifier.zeroState 5 17280⟩ (fun _ => true) ()
      (zeroCalldata 7) = .ok (.flag false) := by decide +kernel
  refine ⟨Verifier.deployed_zero 50 5 (by decide) [], rfl, rfl, hformat, satisfiesEquation_zero,
    rfl, hsubmit, ?_, by decide +kernel⟩
  intro hexpired
  obtain ⟨calldata, hok, hanswer⟩ := hexpired
  obtain rfl : zeroCalldata 7 = calldata := Except.ok.inj (hformat.symm.trans hok)
  rw [hsubmit] at hanswer
  cases hanswer

/-! ## The expiry as a field -/

/-- **The expiry field.** What the contract reads from 32 bytes is the ledger for which
    `formatProof` appends these bytes to an accepted proof's inputs. So it reads every ledger back,
    nothing from bytes with anything in the first 28, not even from another spelling of the ledger's
    scalar, and no ledger from two byte strings. -/
theorem expiry_codec (proof publicSignals : JsValue) (plain : SorobanProofCalldata)
    (hformat : formatProof proof publicSignals none = .ok plain) :
    (∀ (b : BytesN 32) (v : UInt32), Verifier.readExpiryLedger b = some v ↔
      formatProof proof publicSignals (some (.ofNat v.toNat))
        = .ok { plain with publicInputs := plain.publicInputs ++ [b.bytes] }) ∧
    (∀ v : UInt32, ∃ b : BytesN 32,
      formatProof proof publicSignals (some (.ofNat v.toNat))
          = .ok { plain with publicInputs := plain.publicInputs ++ [b.bytes] } ∧
        Verifier.readExpiryLedger b = some v) ∧
    (∀ b : BytesN 32, Verifier.readExpiryLedger b = none ↔ ∃ x ∈ b.bytes.take 28, x ≠ 0) ∧
    (∀ (b : BytesN 32) (v : UInt32), Fr.fromBytes b = (v.toNat : Fr) → b.toNat ≠ v.toNat →
      Verifier.readExpiryLedger b = none) ∧
    ∀ (b b' : BytesN 32) (v : UInt32), Verifier.readExpiryLedger b = some v →
      Verifier.readExpiryLedger b' = some v → b = b' := by
  have hencode : ∀ v : UInt32, formatProof proof publicSignals (some (.ofNat v.toNat))
      = .ok { plain with publicInputs := plain.publicInputs ++ [toBe 32 v.toNat] } := fun v =>
    formatProof_some_eq_ok_iff.2 ⟨plain, hformat, v, rfl, rfl⟩
  refine ⟨fun b v => ?_, fun v => ?_, fun b => readExpiryLedger_eq_none_iff, ?_, ?_⟩
  · rw [readExpiryLedger_eq_some_iff, hencode v]
    constructor
    · intro hb
      rw [hb]
      rfl
    · intro hsame
      simp only [Except.ok.injEq, SorobanProofCalldata.mk.injEq, true_and,
        List.append_cancel_left_eq, List.cons.injEq, and_true] at hsame
      exact BytesN.ext hsame.symm
  · exact ⟨.ofNat 32 v.toNat, hencode v, readExpiryLedger_ofNat v⟩
  · intro b v hscalar hne
    by_contra hread
    obtain ⟨u, hu⟩ := Option.ne_none_iff_exists'.1 hread
    rw [readExpiryLedger_eq_some_iff] at hu
    have hspelled : b.toNat = u.toNat := by
      rw [hu]
      exact BytesN.toNat_ofNat (u.toNat_lt.trans (by norm_num))
    -- two 32-bit numbers are far below the scalar order
    have hlt : ∀ n : UInt32, n.toNat < bn254ScalarOrder := fun n =>
      n.toNat_lt.trans (by norm_num [bn254ScalarOrder])
    rw [Fr.fromBytes, hspelled, ZMod.natCast_eq_natCast_iff, Nat.ModEq, Nat.mod_eq_of_lt (hlt u),
      Nat.mod_eq_of_lt (hlt v)] at hscalar
    exact hne (hspelled.trans hscalar)
  · intro b b' v hb hb'
    rw [readExpiryLedger_eq_some_iff.1 hb, readExpiryLedger_eq_some_iff.1 hb']

/-- Ledger 1000 behind the all-zero proof, and the same scalar spelled with the order added. -/
theorem expiry_codec_zero :
    Verifier.readExpiryLedger (.ofNat 32 1000) = some 1000 ∧
      Verifier.readExpiryLedger (.ofNat 32 (bn254ScalarOrder + 1000)) = none := by
  obtain ⟨hcodec, -, -, hother, -⟩ := expiry_codec zeroProof (.array [.string "7"]) (zeroCalldata 7)
    (by decide +kernel)
  exact ⟨(hcodec _ 1000).2 (by decide +kernel), hother _ 1000 (by decide +kernel)
    (by decide +kernel)⟩

end ZkStellar.Sdk

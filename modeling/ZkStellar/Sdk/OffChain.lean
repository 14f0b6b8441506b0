import ZkStellar.Sdk.Accepted
import ZkStellar.Sdk.Expiry
import ZkStellar.Sdk.Pipeline
import ZkStellar.Sdk.Rpc

set_option autoImplicit false

/-! # Verifying off the chain

`verifyOffChain` looks at the shape of its arguments and leaves the rest to snarkjs. Files that the
encoders take pass its checks, so before anything is submitted it tells what the contracts will
say: the registry about the same bundle, and the verifier about the same signal with an expiry
ledger behind it (`verification_paths_agree`). -/

namespace ZkStellar.Sdk

/-! ## The function -/

/-- What `groth16.verify` of snarkjs returns for a key, public signals and a proof, or the message
    it throws with. -/
structure Snarkjs where
  verify : JsValue → JsValue → JsValue → Except String Bool

/-- `Array.isArray(v)`. -/
def JsValue.isArray : JsValue → Bool
  | .array _ => true
  | _ => false

/-- `!v || typeof v !== "object" || v.protocol !== "groth16"`. -/
def notGroth16 (v : JsValue) : Bool :=
  v.falsy || v.typeof != "object" || !(v.get "protocol").isString "groth16"

/-- The checks of `verifyOffChain`. -/
def checkOffChain (proof publicSignals verificationKey : JsValue) : Except SorobanZkError Unit := do
  throwIf (notGroth16 proof)
    (.general "proof must be a Groth16 snarkjs proof object" .invalidProofFormat)
  throwIf (!(proof.get "pi_a").isArray || !(proof.get "pi_b").isArray
      || !(proof.get "pi_c").isArray)
    (.general "proof is missing required Groth16 coordinates (pi_a, pi_b, pi_c)"
      .invalidProofFormat)
  throwIf (!publicSignals.isArray)
    (.general "publicSignals must be an array of field element strings" .invalidPublicInput)
  throwIf (notGroth16 verificationKey)
    (.general "verificationKey must be a Groth16 verification key object" .invalidProofFormat)

/-- `verifyOffChain`. It has no `catch`, so what snarkjs throws leaves it as it is. -/
def verifyOffChain (snarkjs : Snarkjs) (proof publicSignals verificationKey : JsValue) :
    Except Thrown Bool := do
  ownCall (checkOffChain proof publicSignals verificationKey)
  libraryCall (snarkjs.verify verificationKey publicSignals proof)

/-! ## What the encoders take -/

theorem notGroth16_eq_false_iff {v : JsValue} :
    notGroth16 v = false ↔ v.get "protocol" = .string "groth16" := by
  cases v <;>
    simp [notGroth16, JsValue.falsy, JsValue.typeof, JsValue.get, JsValue.isString,
      ← isString_eq_true_iff]

theorem isArray_of_hasTwoEntries {v : JsValue} (h : HasTwoEntries v) : v.isArray = true := by
  obtain ⟨elems, rfl, -⟩ := h
  rfl

theorem protocol_of_formatVerifyingKey {toNumber : JsValue → JsNumber} {vk : JsValue}
    {key : RegistryVerifyingKey} (hkey : formatVerifyingKey toNumber vk = .ok key) :
    vk.get "protocol" = .string "groth16" := by
  simp only [formatVerifyingKey, bind_eq_ok_iff, throwIf_eq_ok_iff, exists_const] at hkey
  obtain ⟨hprotocol, -⟩ := hkey
  rw [falsy_or, Bool.not_eq_false'] at hprotocol
  exact isString_eq_true_iff.1 hprotocol

/-- Files that can be formatted pass the checks. -/
theorem verifyOffChain_of_format {toNumber : JsValue → JsNumber} {vk proof : JsValue}
    {publicSignals : List JsValue} {key : RegistryVerifyingKey} {calldata : SorobanProofCalldata}
    {e : Option JsNumber} (hkey : formatVerifyingKey toNumber vk = .ok key)
    (hformat : formatProof proof (.array publicSignals) e = .ok calldata) (snarkjs : Snarkjs) :
    verifyOffChain snarkjs proof (.array publicSignals) vk
      = libraryCall (snarkjs.verify vk (.array publicSignals) proof) := by
  have hwell := formatProof_accepts_iff.1 ⟨calldata, hformat⟩
  have hproof := notGroth16_eq_false_iff.2 hwell.protocol
  have hvk := notGroth16_eq_false_iff.2 (protocol_of_formatVerifyingKey hkey)
  have hpasses : checkOffChain proof (.array publicSignals) vk = .ok () := by
    simp only [checkOffChain, hproof, hvk, isArray_of_hasTwoEntries hwell.piA,
      isArray_of_hasTwoEntries hwell.piB, isArray_of_hasTwoEntries hwell.piC]
    rfl
  rw [verifyOffChain, hpasses]
  rfl

/-! ## What snarkjs decides -/

/-- A point as snarkjs writes it, other than the point at infinity: its third coordinate is one. -/
structure IsAffineG1 (point : JsValue) : Prop extends IsG1Point point where
  finite : g1Integers point ≠ [0, 0]
  z : point.index 2 = .string "1"

structure IsAffineG2 (point : JsValue) : Prop extends IsG2Point point where
  finite : g2Integers point ≠ [0, 0, 0, 0]
  z : point.index 2 = .array [.string "1", .string "0"]

/-- The files are for this curve, and all their points in affine form. -/
structure InAffineForm (vk proof : JsValue) : Prop where
  curve : vk.get "curve" = .string "bn128"
  alpha : IsAffineG1 (vk.get "vk_alpha_1")
  beta : IsAffineG2 (vk.get "vk_beta_2")
  gamma : IsAffineG2 (vk.get "vk_gamma_2")
  delta : IsAffineG2 (vk.get "vk_delta_2")
  ic : ∀ point ∈ icEntries vk, IsAffineG1 point
  a : IsAffineG1 (proof.get "pi_a")
  b : IsAffineG2 (proof.get "pi_b")
  c : IsAffineG1 (proof.get "pi_c")

theorem InAffineForm.pointsAreArrays {vk proof : JsValue} (haffine : InAffineForm vk proof) :
    PointsAreArrays vk where
  alpha := haffine.alpha.array
  beta := ⟨haffine.beta.array, haffine.beta.x.array, haffine.beta.y.array⟩
  gamma := ⟨haffine.gamma.array, haffine.gamma.x.array, haffine.gamma.y.array⟩
  delta := ⟨haffine.delta.array, haffine.delta.x.array, haffine.delta.y.array⟩
  ic point hpoint := (haffine.ic point hpoint).array

open Classical in
/-- What `groth16.verify` is for: on files in affine form whose coordinates are those of points,
    with a signal of the field for each input point but the first, it decides the equation. -/
def Snarkjs.Decides (snarkjs : Snarkjs) (h : Host) : Prop :=
  ∀ (vk proof : JsValue) (publicSignals : List JsValue) (K : Groth16.Key h.G1 h.G2)
    (π : Groth16.Proof h.G1 h.G2), InAffineForm vk proof → keyOf h vk = some K →
    proofOf h proof = some π → (∀ s ∈ publicSignals, IsNumeralBelow bn254ScalarOrder s) →
    publicSignals.length + 1 = (icEntries vk).length →
    snarkjs.verify vk (.array publicSignals) proof
      = .ok (decide (Groth16.Accepts h.pairing K π (scalarsOf publicSignals)))

/-! ## The three verifiers -/

section

variable {Address : Type} [DecidableEq Address] {h : Host}

open Classical in
/-- Submitted in date to a verifier that considers it, a proof of one signal is answered by the
    equation over the integers in the files; a proof that satisfies it traps if the counter of its
    inputs is full. -/
theorem submit_of_considered {w : Verifier.World Address} {auth : Address → Bool} {caller : Address}
    {limits : Verifier.Limits} {arg : VerifyingKey} {proof signal : JsValue}
    {plain : SorobanProofCalldata} {K : Groth16.Key h.G1 h.G2} {π : Groth16.Proof h.G1 h.G2}
    (hc : Considered h w auth caller limits arg) (hK : arg.points h = some K)
    (hformat : formatProof proof (.array [signal]) none = .ok plain)
    (hπ : proofOf h proof = some π) {n : UInt32} (hdate : w.ledger ≤ n) :
    ∃ dated inputs, formatProof proof (.array [signal]) (some (.ofNat n.toNat)) = .ok dated ∧
      dated.inputs = some inputs ∧
      submit h w auth caller dated
        = if Groth16.Accepts h.pairing K π (scalarsOf [signal]) then
            if (w.state.verificationCount (ZkStellar.computeInputsHash h inputs)).toNat + 1 < 2 ^ 64
            then .ok (.flag true) else .trap
          else .ok (.flag false) := by
  obtain ⟨xs, hinputs, hintegers⟩ := inputs_of_formatProof hformat
  obtain ⟨x, rfl⟩ := List.length_eq_one_iff.1
    (by simpa using congrArg List.length hintegers : xs.length = 1)
  have hscalar : scalarsOf [signal] = [Fr.fromBytes x] := by
    obtain ⟨hx, -⟩ := List.cons.inj hintegers
    rw [Fr.fromBytes, hx]
    rfl
  let expiry : BytesN 32 := .ofNat 32 n.toNat
  let item : Verifier.ProofItem := ⟨plain.proofA, plain.proofB, plain.proofC, [x, expiry]⟩
  let dated : SorobanProofCalldata :=
    { plain with publicInputs := plain.publicInputs ++ [toBe 32 n.toNat] }
  have hdated : dated.publicInputs = [x, expiry].map BytesN.bytes := by
    show plain.publicInputs ++ _ = _
    rw [hinputs]
    rfl
  refine ⟨dated, [x, expiry], formatProof_some_eq_ok_iff.2 ⟨plain, hformat, n, rfl, rfl⟩,
    inputs_of_publicInputs hdated, ?_⟩
  -- in date, the contract's verdict is the equation
  have hverdict : Verifier.itemVerdict h w.ledger arg item
      = some (.ok (decide (Groth16.Accepts h.pairing K π (scalarsOf [signal])))) := by
    obtain ⟨ha, hb, hc', -⟩ := wellSized_of_formatProof hformat
    have hsized : item.WellSized := ⟨ha, hb, hc'⟩
    have hkind : item.kind w.ledger = .inDate x :=
      Verifier.ProofItem.kind_eq_inDate_iff.2 ⟨expiry, n, rfl, readExpiryLedger_ofNat n, hdate⟩
    have hpoints : item.points h = some π := (proofPoints_of_formatProof hformat).trans hπ
    have hpairing : Verifier.pairingVerdict h arg item x
        = some (decide (Groth16.Accepts h.pairing K π (scalarsOf [signal]))) :=
      (Verifier.pairingVerdict_eq_some_iff hc.configured.arity).2
        ⟨π, K, hpoints, hK, by rw [decide_eq_true_iff, hscalar]⟩
    rw [Verifier.itemVerdict, if_pos hsized, hkind]
    simp only [hpairing, Option.map_some]
  rw [submit, makeProofItem_eq [x, expiry] hdated]
  refine (Verifier.exec_verifyProof_of_room hc.configured hc.authorised hc.access hc.room hc.extend
    item).trans ?_
  rw [hverdict]
  by_cases hequation : Groth16.Accepts h.pairing K π (scalarsOf [signal])
  · simp only [hequation, decide_true, if_true]
    rfl
  · simp only [hequation, decide_false, if_false]

/-- Calldata is submitted as it is. -/
theorem verifyOnChain_calldata {w : Verifier.World Address} {auth : Address → Bool}
    {caller : Address} {calldata : SorobanProofCalldata} (hsized : calldata.WellSized)
    (networkPassphrase : String) :
    verifyOnChain h w auth caller networkPassphrase ⟨some calldata, none⟩
      = .ok (submit h w auth caller calldata) := by
  have hvalid : validateCalldata calldata = .ok () := validateCalldata_eq_ok_iff.2 hsized
  simp only [verifyOnChain, resolveCalldata, resolve, bind, Except.bind, hvalid,
    assertBundleNetwork]
  rfl

/-- **The three verifiers agree.** Take files in affine form that both encoders accept and that
    denote points, with a signal for each input point but the first, and a snarkjs that decides the
    equation. Then `verifyOffChain` returns a verdict, and it is the verdict on the chain: after any
    run of the registry that leaves this key in service under an id, `verifyViaRegistry` returns it,
    unless the run has accepted these signals for the id; and whenever the verifier holds this key
    and considers the caller's next proof, `verifyOnChain` on the calldata with an expiry ledger
    that has not passed ends with it, if the counter of its inputs has room. -/
theorem verification_paths_agree (h : Host) (snarkjs : Snarkjs) (hsnarkjs : snarkjs.Decides h)
    (toNumber : JsValue → JsNumber) (vk proof : JsValue) (publicSignals : List JsValue)
    (key : RegistryVerifyingKey) (arg : VerifyingKey) (calldata : SorobanProofCalldata)
    (hkey : formatVerifyingKey toNumber vk = .ok key) (harg : key.argument = some arg)
    (hformat : formatProof proof (.array publicSignals) none = .ok calldata)
    (haffine : InAffineForm vk proof) (hK : keyOf h vk ≠ none) (hπ : proofOf h proof ≠ none)
    (hcount : publicSignals.length + 1 = (icEntries vk).length) :
    ∃ verdict, verifyOffChain snarkjs proof (.array publicSignals) vk = .ok verdict ∧
      (∀ (admin : Address) (txs : List (Registry.Tx Address)) (id : UInt32)
        (item : Registry.BatchItem) (simAuth : Address → Bool) (network : String),
        makeRegistryBatchItem id calldata = some item →
        Registry.Serves ((Registry.machine h).run (Registry.construct admin) txs) id arg →
        let tr := (Registry.machine h).trace (Registry.construct admin) txs
        h.CollisionFree (Registry.messages h (item :: Registry.accepted tr)) →
        verifyViaRegistry
            (fun call => (Registry.exec h ((Registry.machine h).run (Registry.construct admin) txs)
              ⟨simAuth, call⟩).1)
            network ⟨id, none, some ⟨proof, .array publicSignals, network⟩⟩
          = .ok (verdict && !decide (Spent tr id publicSignals))) ∧
      ∀ (w : Verifier.World Address) (auth : Address → Bool) (caller : Address)
        (limits : Verifier.Limits) (n : UInt32) (network : String),
        Considered h w auth caller limits arg → w.ledger ≤ n →
        ∃ dated inputs,
          formatProof proof (.array publicSignals) (some (.ofNat n.toNat)) = .ok dated ∧
          dated.inputs = some inputs ∧
          ((w.state.verificationCount (ZkStellar.computeInputsHash h inputs)).toNat + 1 < 2 ^ 64 →
            verifyOnChain h w auth caller network ⟨some dated, none⟩
              = .ok (.ok (.flag verdict))) := by
  obtain ⟨K, hK⟩ := Option.ne_none_iff_exists'.1 hK
  obtain ⟨π, hπ⟩ := Option.ne_none_iff_exists'.1 hπ
  obtain ⟨hpoints, harity⟩ := points_of_argument (h := h) hkey haffine.pointsAreArrays harg
  have hsignals : ∀ s ∈ publicSignals, IsNumeralBelow bn254ScalarOrder s :=
    (formatProof_accepts_iff.1 ⟨calldata, hformat⟩).signal
  classical
  let verdict := decide (Groth16.Accepts h.pairing K π (scalarsOf publicSignals))
  refine ⟨verdict, ?_, ?_, ?_⟩
  · rw [verifyOffChain_of_format hkey hformat,
      hsnarkjs vk proof publicSignals K π haffine hK hπ hsignals hcount]
    rfl
  · intro admin txs id item simAuth network hitem hserves tr hfree
    have hverdict : verdictOf h vk proof publicSignals = some verdict := by
      rw [verdictOf, if_neg (not_not.2 hcount), hK, hπ]
    rw [verifyViaRegistry_of_serves network network hserves hpoints harity hformat hitem hfree,
      if_neg (not_not.2 rfl), hverdict]
    by_cases hspent : Spent tr id publicSignals
    · rw [if_pos hspent, decide_eq_true hspent, Bool.not_true, Bool.and_false]
    · rw [if_neg hspent, decide_eq_false hspent, Bool.not_false, Bool.and_true]
      rfl
  · intro w auth caller limits n network hc hdate
    -- the verifier's key has one input, so there is one signal
    have harity' : arg.ic.length = 2 := hc.configured.arity
    obtain ⟨signal, rfl⟩ := List.length_eq_one_iff.1 (by omega : publicSignals.length = 1)
    obtain ⟨dated, inputs, hdated, hinputs, hanswer⟩ :=
      submit_of_considered hc (hpoints.trans hK) hformat hπ hdate
    refine ⟨dated, inputs, hdated, hinputs, ?_⟩
    intro hroom
    rw [verifyOnChain_calldata (wellSized_of_formatProof hdated), hanswer, if_pos hroom]
    by_cases hequation : Groth16.Accepts h.pairing K π (scalarsOf [signal])
    · rw [if_pos hequation, show verdict = true from decide_eq_true hequation]
    · rw [if_neg hequation, show verdict = false from decide_eq_false hequation]

end

/-! ### Files of small points -/

/-- The point with this first coordinate, and the second one zero. -/
def g1File (x : String) : JsValue := .array [.string x, .string "0", .string "1"]

def g2File (x : String) : JsValue :=
  .array [.array [.string "0", .string x], .array [.string "0", .string "0"],
    .array [.string "1", .string "0"]]

/-- A key for one signal. -/
def smallKeyFile : JsValue :=
  .object [("protocol", .string "groth16"), ("curve", .string "bn128"), ("vk_alpha_1", g1File "1"),
    ("vk_beta_2", g2File "1"), ("vk_gamma_2", g2File "1"), ("vk_delta_2", g2File "1"),
    ("IC", .array [g1File "1", g1File "1"])]

/-- A proof of the signal 7 under it: `10 * 1 = 1 * 1 + (1 + 7 * 1) * 1 + 1 * 1`. -/
def smallProofFile : JsValue :=
  .object [("pi_a", g1File "10"), ("pi_b", g2File "1"), ("pi_c", g1File "1"),
    ("protocol", .string "groth16")]

/-- The key in the contract, and the calldata. -/
def smallKey : VerifyingKey :=
  ⟨.ofNat 64 (2 ^ 256), .ofNat 128 (2 ^ 768), .ofNat 128 (2 ^ 768), .ofNat 128 (2 ^ 768),
    [.ofNat 64 (2 ^ 256), .ofNat 64 (2 ^ 256)]⟩

def smallCalldata : SorobanProofCalldata :=
  ⟨toBe 64 (10 * 2 ^ 256), toBe 128 (2 ^ 768), toBe 64 (2 ^ 256), [toBe 32 7]⟩

theorem isAffineG1_g1File {x : String} (hx : isDecimalOrHex x = true) (hne : bigInt x ≠ 0) :
    IsAffineG1 (g1File x) where
  array := ⟨_, rfl⟩
  x := ⟨x, rfl, hx⟩
  y := ⟨"0", rfl, by decide⟩
  finite hzero := hne (List.cons.inj hzero).1
  z := rfl

theorem isAffineG2_g2File {x : String} (hx : isDecimalOrHex x = true) (hne : bigInt x ≠ 0) :
    IsAffineG2 (g2File x) where
  array := ⟨_, rfl⟩
  x := ⟨⟨_, rfl⟩, ⟨"0", rfl, by decide⟩, ⟨x, rfl, hx⟩⟩
  y := ⟨⟨_, rfl⟩, ⟨"0", rfl, by decide⟩, ⟨"0", rfl, by decide⟩⟩
  finite hzero := hne (List.cons.inj hzero).1
  z := rfl

theorem inAffineForm_small : InAffineForm smallKeyFile smallProofFile where
  curve := rfl
  alpha := isAffineG1_g1File (by decide) (by decide)
  beta := isAffineG2_g2File (by decide) (by decide)
  gamma := isAffineG2_g2File (by decide) (by decide)
  delta := isAffineG2_g2File (by decide) (by decide)
  ic point hpoint := by
    have hmem : point ∈ [g1File "1", g1File "1"] := hpoint
    obtain rfl : point = g1File "1" := by simpa using hmem
    exact isAffineG1_g1File (by decide) (by decide)
  a := isAffineG1_g1File (by decide) (by decide)
  b := isAffineG2_g2File (by decide) (by decide)
  c := isAffineG1_g1File (by decide) (by decide)

open Classical in
/-- A verifier that decodes the files and decides the equation. -/
noncomputable def Snarkjs.reference (h : Host) : Snarkjs where
  verify vk publicSignals proof :=
    match keyOf h vk, proofOf h proof, publicSignals with
    | some K, some π, .array signals =>
        .ok (decide (Groth16.Accepts h.pairing K π (scalarsOf signals)))
    | _, _, _ => .error "no points"

theorem Snarkjs.reference_decides (h : Host) : (Snarkjs.reference h).Decides h := by
  intro vk proof publicSignals K π _ hK hπ _ _
  simp only [Snarkjs.reference, hK, hπ]

/-- Off the chain, on a registry that has accepted nothing, and on a verifier until the expiry
    ledger, the small files are a proof. -/
theorem verification_paths_agree_small :
    let w : Verifier.World Unit := ⟨50, (Verifier.zeroState 5 17280).setInstance .vk smallKey⟩
    verifyOffChain (.reference Host.scalar) smallProofFile (.array [.string "7"]) smallKeyFile
        = .ok true ∧
      ∃ dated, formatProof smallProofFile (.array [.string "7"]) (some (.ofNat 100)) = .ok dated ∧
        verifyOnChain Host.scalar w (fun _ => true) () "network" ⟨some dated, none⟩
          = .ok (.ok (.flag true)) := by
  intro w
  have hkey : formatVerifyingKey (fun _ => .nan) smallKeyFile = .ok ⟨smallKey.alpha.bytes,
      smallKey.beta.bytes, smallKey.gamma.bytes, smallKey.delta.bytes,
      smallKey.ic.map BytesN.bytes⟩ := by decide +kernel
  obtain ⟨verdict, hoffChain, hregistry, hverifier⟩ := @verification_paths_agree Unit _ Host.scalar
    (.reference Host.scalar) (Snarkjs.reference_decides _) (fun _ => .nan) smallKeyFile
    smallProofFile [.string "7"] _ smallKey smallCalldata hkey (by decide +kernel)
    (by decide +kernel) inAffineForm_small (by decide +kernel) (by decide +kernel) rfl
  -- the registry's answer is computed
  have hanswer := hregistry () [Registry.signed (.registerCircuit 0 smallKey)] 0
    ⟨0, smallCalldata.proofA, smallCalldata.proofB, smallCalldata.proofC, [.ofNat 32 7]⟩
    (fun _ => true) "network" (by decide +kernel) ⟨rfl, rfl⟩ (by decide +kernel)
  obtain rfl : verdict = true := by
    cases verdict
    · exact absurd hanswer (by decide +kernel)
    · rfl
  refine ⟨hoffChain, ?_⟩
  have hconsidered : Considered Host.scalar w (fun _ => true) () ⟨5, 17280⟩ smallKey :=
    { configured := ⟨by decide, rfl, by decide, rfl, rfl⟩
      authorised := rfl
      access := rfl
      room := by decide +kernel
      extend := by decide +kernel }
  obtain ⟨dated, inputs, hdated, hinputs, hsubmitted⟩ :=
    hverifier w (fun _ => true) () ⟨5, 17280⟩ 100 "network" hconsidered (by decide)
  have hcount : w.state.verificationCount (ZkStellar.computeInputsHash Host.scalar inputs) = 0 :=
    rfl
  exact ⟨dated, hdated, hsubmitted (by rw [hcount]; decide)⟩

end ZkStellar.Sdk

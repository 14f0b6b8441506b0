import ZkStellar.Sdk.Values
import ZkStellar.Contracts.Common

set_option autoImplicit false

/-! # From a snarkjs proof to calldata

`formatProof` checks the shape of a proof and its public signals and encodes them for the
contracts. What it returns has the lengths the contracts' parsers insist on
(`wellSized_of_formatProof`), and an expiry ledger only appends one more public input
(`formatProof_some_eq_ok_iff`). -/

namespace ZkStellar.Sdk

/-! ## Checks -/

/-- `BN254_FIELD_MODULUS`. -/
def bn254FieldModulus : ℕ :=
  21888242871839275222246405745257275088548364400416034343698204186575808495617

/-- `MAX_32_BYTE_VALUE`. -/
def max32ByteValue : ℕ := 2 ^ 256

/-- `assertArray`: the elements of the array. -/
def assertArray (value : JsValue) (field : String) (minLength : ℕ) :
    Except JsException (List JsValue) :=
  match value with
  | .array elems =>
      if elems.length < minLength then
        .error (.zk (.input field
          ("must have at least " ++ toString minLength ++ " elements (received "
            ++ toString elems.length ++ ")") .invalidProofFormat none))
      else .ok elems
  | _ => .error (.zk (.input field ("is not an array (received " ++ value.typeof ++ ")")
      .invalidProofFormat none))

/-- `assertProofFieldElement`. -/
def assertProofFieldElement (value : JsValue) (field : String) : Except JsException Unit :=
  match value with
  | .string s =>
      if !isDecimal s then
        .error (.zk (.input field "is not a decimal string" .invalidProofFormat none))
      else if bigInt s ≥ bn254FieldModulus then
        throwDescribed value
          (.input field "exceeds the BN254 field size" .invalidProofFormat (some value))
      else .ok ()
  | _ => throwDescribed value (.input field ("is not a string (received " ++ value.typeof ++ ")")
      .invalidProofFormat (some value))

/-- The body of the loop of `validatePublicSignals`. -/
def validateSignal (index : ℕ) (signal : JsValue) : Except JsException Unit :=
  let field := "publicSignals[" ++ toString index ++ "]"
  let refuse (reason : String) : Except JsException Unit :=
    throwDescribed signal (.input field reason .invalidPublicInput (some signal))
  match signal with
  | .string s =>
      if !isDecimalOrHex s then refuse "is not a decimal or hex string"
      else if bigInt s ≥ max32ByteValue then refuse "does not fit in 32 bytes"
      else if bigInt s ≥ bn254FieldModulus then refuse "exceeds the BN254 field size"
      else .ok ()
  | _ => refuse ("is not a string (received " ++ signal.typeof ++ ")")

/-- Run a check on each element with its index, the first at `i`. -/
def forEachFrom {α ε : Type} (check : ℕ → α → Except ε Unit) : ℕ → List α → Except ε Unit
  | _, [] => .ok ()
  | i, a :: as => do
      check i a
      forEachFrom check (i + 1) as

/-- `validatePublicSignals`. -/
def validatePublicSignals (publicSignals : JsValue) : Except JsException Unit :=
  match publicSignals with
  | .array signals => forEachFrom validateSignal 0 signals
  | _ => .error (.zk (.input "publicSignals"
      ("is not an array (received " ++ publicSignals.typeof ++ ")") .invalidPublicInput none))

/-- `proof === null || typeof proof !== "object"`. -/
def notAnObject (value : JsValue) : Bool :=
  match value with
  | .array _ | .object _ => false
  | _ => true

/-- The checks `validateProofInput` makes on one of the points `pi_a` and `pi_c`, or on a row of
    `pi_b`. -/
def validatePair (value : JsValue) (field : String) : Except JsException Unit := do
  let elems ← assertArray value field 2
  assertProofFieldElement (elems[0]?.getD .undefined) (field ++ "[0]")
  assertProofFieldElement (elems[1]?.getD .undefined) (field ++ "[1]")

/-- `validateProofInput`. -/
def validateProofInput (proof publicSignals : JsValue) : Except JsException Unit := do
  throwIf (notAnObject proof) (.zk (.input "proof"
    ("is not an object (received " ++ proof.typeof ++ ")") .invalidProofFormat none))
  throwIf (!(proof.get "protocol").isString "groth16")
    (.zk (.input "proof.protocol" "must be \"groth16\"" .invalidProofFormat none))
  validatePair (proof.get "pi_a") "pi_a"
  let piB ← assertArray (proof.get "pi_b") "pi_b" 2
  validatePair (piB[0]?.getD .undefined) "pi_b[0]"
  validatePair (piB[1]?.getD .undefined) "pi_b[1]"
  validatePair (proof.get "pi_c") "pi_c"
  validatePublicSignals publicSignals

/-! ## Encoding -/

/-- `SorobanProofCalldata`. -/
structure SorobanProofCalldata where
  proofA : Bytes
  proofB : Bytes
  proofC : Bytes
  publicInputs : List Bytes
deriving DecidableEq

/-- `parseFieldElement`. -/
def parseFieldElement (value : JsValue) (code : SorobanZkErrorCode) (label : String) :
    Except JsException ℕ :=
  match value with
  | .string s =>
      if !isDecimalOrHex s then
        .error (.zk (.general (label ++ " must be a decimal or hex string, got: \"" ++ truncate s
          ++ "\"") code))
      else if bigInt s ≥ bn254FieldModulus then
        .error (.zk (.general (label ++ " is outside the BN254 field: " ++ truncate s) code))
      else .ok (bigInt s)
  | _ => throwDescribed value
      (.got (label ++ " must be a decimal or hex string, got " ++ value.typeof ++ ": ") value code)

/-- `bigintToBytes32`. -/
def bigintToBytes32 (value : ℕ) : Bytes := hexBytes ((Nat.toDigits 16 value).leftpad 64 '0')

/-- `encodeG1`. -/
def encodeG1 (point : JsValue) (label : String) : Except JsException Bytes := do
  let x ← parseFieldElement (point.index 0) .invalidProofFormat (label ++ ".x")
  let y ← parseFieldElement (point.index 1) .invalidProofFormat (label ++ ".y")
  return bigintToBytes32 x ++ bigintToBytes32 y

/-- `encodeG2`: the components of each coordinate change places. -/
def encodeG2 (point : JsValue) (label : String) : Except JsException Bytes := do
  let xC0 ← parseFieldElement ((point.index 0).index 0) .invalidProofFormat (label ++ ".x.c0")
  let xC1 ← parseFieldElement ((point.index 0).index 1) .invalidProofFormat (label ++ ".x.c1")
  let yC0 ← parseFieldElement ((point.index 1).index 0) .invalidProofFormat (label ++ ".y.c0")
  let yC1 ← parseFieldElement ((point.index 1).index 1) .invalidProofFormat (label ++ ".y.c1")
  return bigintToBytes32 xC1 ++ bigintToBytes32 xC0 ++ bigintToBytes32 yC1 ++ bigintToBytes32 yC0

/-- `encodePublicInputs`, the first signal being at `index`. -/
def encodePublicInputs : ℕ → List JsValue → Except JsException (List Bytes)
  | _, [] => .ok []
  | index, signal :: signals => do
      let value ← parseFieldElement signal .invalidPublicInput
        ("publicSignals[" ++ toString index ++ "]")
      let rest ← encodePublicInputs (index + 1) signals
      return bigintToBytes32 value :: rest

/-- `MAX_U32`. -/
def maxU32 : ℕ := 0xffffffff

/-- The part of `formatProof` that appends the expiry ledger to the public inputs. -/
def appendExpiry (publicInputs : List Bytes) (expiryLedger : Option JsNumber) :
    Except JsException (List Bytes) :=
  match expiryLedger with
  | none => .ok publicInputs
  | some e =>
      if !e.isInteger || (JsNumber.ofNat 0).gt e || e.gt (.ofNat maxU32) then
        .error (.zk (.general "expiryLedger must be an unsigned 32-bit integer"
          .invalidPublicInput))
      else .ok (publicInputs ++ [bigintToBytes32 e.toNat])

/-- The check of `formatProof` that the public signals are an array. -/
def signalsOf (publicSignals : JsValue) : Except JsException (List JsValue) :=
  match publicSignals with
  | .array signals => .ok signals
  | _ => .error (.zk (.general "publicSignals must be an array of field elements"
      .invalidPublicInput))

/-- `formatProof`. -/
def formatProof (proof publicSignals : JsValue) (expiryLedger : Option JsNumber) :
    Except JsException SorobanProofCalldata := do
  validateProofInput proof publicSignals
  throwIf (!(proof.get "protocol").isString "groth16")
    (.zk (.general "Proof must be a Groth16 snarkjs proof" .invalidProofFormat))
  throwIf ((proof.get "pi_a").shorterThan 2 || (proof.get "pi_b").shorterThan 2
      || (proof.get "pi_c").shorterThan 2)
    (.zk (.general "Proof is missing required Groth16 coordinates" .invalidProofFormat))
  let signals ← signalsOf publicSignals
  let publicInputs ← encodePublicInputs 0 signals
  let publicInputs ← appendExpiry publicInputs expiryLedger
  let proofA ← encodeG1 (proof.get "pi_a") "pi_a"
  let proofB ← encodeG2 (proof.get "pi_b") "pi_b"
  let proofC ← encodeG1 (proof.get "pi_c") "pi_c"
  throwIf (proofA.length ≠ 64 || proofB.length ≠ 128 || proofC.length ≠ 64)
    (.zk (.general "Proof encoding produced an invalid byte length" .invalidProofFormat))
  return ⟨proofA, proofB, proofC, publicInputs⟩

/-! ## Calldata -/

/-- `assertBufferLength`. -/
def assertBufferLength (value : Bytes) (expected : ℕ) (field : String) :
    Except JsException Unit :=
  if value.length ≠ expected then
    .error (.zk (.input field ("must be " ++ toString expected ++ " bytes (received "
      ++ toString value.length ++ ")") .invalidProofFormat none))
  else .ok ()

/-- `validateCalldata`. -/
def validateCalldata (calldata : SorobanProofCalldata) : Except JsException Unit := do
  assertBufferLength calldata.proofA 64 "calldata.proofA"
  assertBufferLength calldata.proofB 128 "calldata.proofB"
  assertBufferLength calldata.proofC 64 "calldata.proofC"
  forEachFrom (fun index input =>
    assertBufferLength input 32 ("calldata.publicInputs[" ++ toString index ++ "]")) 0
    calldata.publicInputs

/-! ## Bundles -/

/-- `ProofBundle`: a proof with its public signals and the network it is meant for. -/
structure ProofBundle where
  proof : JsValue
  publicSignals : JsValue
  networkPassphrase : String

/-- `assertBundleNetwork`, called when there is a bundle. -/
def assertBundleNetwork (bundle : Option ProofBundle) (networkPassphrase : String) :
    Except SorobanZkError Unit :=
  match bundle with
  | none => .ok ()
  | some bundle =>
      throwIf (bundle.networkPassphrase != networkPassphrase)
        (.networkMismatch bundle.networkPassphrase networkPassphrase)

/-- The calldata of an options record: given, or formatted from its bundle, without an expiry. -/
def resolve (calldata : Option SorobanProofCalldata) (bundle : Option ProofBundle)
    (function : String) : Except JsException SorobanProofCalldata :=
  match calldata, bundle with
  | some calldata, _ => .ok calldata
  | none, some bundle => formatProof bundle.proof bundle.publicSignals none
  | none, none => .error (.zk (.general (function ++ " requires either calldata or a bundle")
      .invalidProofFormat))

/-- The public inputs as the contracts receive them: strings of 32 bytes each. -/
def SorobanProofCalldata.inputs (calldata : SorobanProofCalldata) : Option (List (BytesN 32)) :=
  calldata.publicInputs.mapM (BytesN.ofBytes? 32)

/-! ## What the checks let through -/

theorem parseFieldElement_eq_ok_iff {value : JsValue} {code : SorobanZkErrorCode} {label : String}
    {v : ℕ} : parseFieldElement value code label = .ok v ↔
      v < bn254FieldModulus ∧ ∃ s, value = .string s ∧ isDecimalOrHex s = true ∧ v = bigInt s := by
  unfold parseFieldElement
  constructor
  · intro hok
    split at hok
    · next s =>
        split at hok
        · cases hok
        · next hpattern =>
            split at hok
            · cases hok
            · next hlt =>
                cases hok
                exact ⟨not_le.1 hlt, s, rfl, by simpa using hpattern, rfl⟩
    · exact absurd hok throwDescribed_ne_ok
  · rintro ⟨hlt, s, rfl, hpattern, rfl⟩
    simp only [hpattern, Bool.not_true, Bool.false_eq_true, if_false, ge_iff_le, not_le.2 hlt]

/-- A field element is written as its 32 big-endian bytes. -/
theorem bigintToBytes32_eq {v : ℕ} (hv : v < 256 ^ 32) : bigintToBytes32 v = toBe 32 v :=
  hexBytes_toDigits (by decide) hv

theorem length_bigintToBytes32 {v : ℕ} (hv : v < 256 ^ 32) : (bigintToBytes32 v).length = 32 := by
  rw [bigintToBytes32_eq hv, length_toBe]

theorem lt_of_parseFieldElement {value : JsValue} {code : SorobanZkErrorCode} {label : String}
    {v : ℕ} (hok : parseFieldElement value code label = .ok v) : v < 256 ^ 32 :=
  (parseFieldElement_eq_ok_iff.1 hok).1.trans (by decide)

theorem length_of_encodeG1 {point : JsValue} {label : String} {bytes : Bytes}
    (hok : encodeG1 point label = .ok bytes) : bytes.length = 64 := by
  simp only [encodeG1, bind_eq_ok_iff] at hok
  obtain ⟨x, hx, y, hy, hpure⟩ := hok
  cases hpure
  simp [length_bigintToBytes32 (lt_of_parseFieldElement hx),
    length_bigintToBytes32 (lt_of_parseFieldElement hy)]

theorem length_of_encodeG2 {point : JsValue} {label : String} {bytes : Bytes}
    (hok : encodeG2 point label = .ok bytes) : bytes.length = 128 := by
  simp only [encodeG2, bind_eq_ok_iff] at hok
  obtain ⟨xC0, hxC0, xC1, hxC1, yC0, hyC0, yC1, hyC1, hpure⟩ := hok
  cases hpure
  simp [length_bigintToBytes32 (lt_of_parseFieldElement hxC0),
    length_bigintToBytes32 (lt_of_parseFieldElement hxC1),
    length_bigintToBytes32 (lt_of_parseFieldElement hyC0),
    length_bigintToBytes32 (lt_of_parseFieldElement hyC1)]

theorem length_of_encodePublicInputs {index : ℕ} {signals : List JsValue} {inputs : List Bytes}
    (hok : encodePublicInputs index signals = .ok inputs) : ∀ b ∈ inputs, b.length = 32 := by
  induction signals generalizing index inputs with
  | nil =>
      cases hok
      simp
  | cons signal signals ih =>
      simp only [encodePublicInputs, bind_eq_ok_iff] at hok
      obtain ⟨v, hv, rest, hrest, hpure⟩ := hok
      cases hpure
      intro b hb
      rcases List.mem_cons.1 hb with rfl | hmem
      · exact length_bigintToBytes32 (lt_of_parseFieldElement hv)
      · exact ih hrest b hmem

/-- An expiry ledger is accepted exactly when it is an unsigned 32-bit integer. -/
theorem appendExpiry_some_eq_ok_iff {inputs inputs' : List Bytes} {e : JsNumber} :
    appendExpiry inputs (some e) = .ok inputs' ↔
      ∃ n : UInt32, e = .ofNat n.toNat ∧ inputs' = inputs ++ [toBe 32 n.toNat] := by
  have hbytes : ∀ n : UInt32, bigintToBytes32 n.toNat = toBe 32 n.toNat := fun n =>
    bigintToBytes32_eq (n.toNat_lt.trans (by decide))
  simp only [appendExpiry]
  constructor
  · intro hok
    split at hok
    · cases hok
    · next hrange =>
        cases hok
        simp only [Bool.or_eq_true, Bool.not_eq_true', not_or, Bool.not_eq_false, Bool.not_eq_true]
          at hrange
        obtain ⟨⟨hint, hge⟩, hle⟩ := hrange
        obtain ⟨n, rfl⟩ := JsNumber.exists_uint32 hint hge hle
        exact ⟨n, rfl, by rw [JsNumber.toNat_ofNat, hbytes]⟩
  · rintro ⟨n, rfl, rfl⟩
    have hle : ¬ maxU32 < n.toNat := not_lt.2 (Nat.le_of_lt_succ n.toNat_lt)
    simp [hle, hbytes]

/-! ## What `formatProof` returns -/

/-- The lengths the contracts' parsers insist on. -/
def SorobanProofCalldata.WellSized (calldata : SorobanProofCalldata) : Prop :=
  calldata.proofA.length = 64 ∧ calldata.proofB.length = 128 ∧ calldata.proofC.length = 64 ∧
    ∀ b ∈ calldata.publicInputs, b.length = 32

theorem formatProof_eq_ok_iff {proof publicSignals : JsValue} {e : Option JsNumber}
    {calldata : SorobanProofCalldata} :
    formatProof proof publicSignals e = .ok calldata ↔
      validateProofInput proof publicSignals = .ok () ∧
      (proof.get "protocol").isString "groth16" = true ∧
      ((proof.get "pi_a").shorterThan 2 || (proof.get "pi_b").shorterThan 2
        || (proof.get "pi_c").shorterThan 2) = false ∧
      ∃ signals inputs, publicSignals = .array signals ∧
        encodePublicInputs 0 signals = .ok inputs ∧
        appendExpiry inputs e = .ok calldata.publicInputs ∧
        encodeG1 (proof.get "pi_a") "pi_a" = .ok calldata.proofA ∧
        encodeG2 (proof.get "pi_b") "pi_b" = .ok calldata.proofB ∧
        encodeG1 (proof.get "pi_c") "pi_c" = .ok calldata.proofC := by
  simp only [formatProof, bind_eq_ok_iff, throwIf_eq_ok_iff]
  constructor
  · rintro ⟨_, hvalid, _, hprotocol, _, hlong, signals, hsignals, inputs, hinputs, inputs', hexpiry,
      a, ha, b, hb, c, hc, _, -, hpure⟩
    cases hpure
    unfold signalsOf at hsignals
    split at hsignals
    · cases hsignals
      exact ⟨hvalid, by simpa using hprotocol, hlong, signals, inputs, rfl, hinputs, hexpiry,
        ha, hb, hc⟩
    · cases hsignals
  · rintro ⟨hvalid, hprotocol, hlong, signals, inputs, rfl, hinputs, hexpiry, ha, hb, hc⟩
    refine ⟨(), hvalid, (), by simp [hprotocol], (), hlong, signals, rfl, inputs, hinputs, _,
      hexpiry, _, ha, _, hb, _, hc, (), ?_, rfl⟩
    -- the final length check cannot fail: the encoders have fixed widths
    simp [length_of_encodeG1 ha, length_of_encodeG2 hb, length_of_encodeG1 hc]

theorem wellSized_of_formatProof {proof publicSignals : JsValue} {e : Option JsNumber}
    {calldata : SorobanProofCalldata} (hok : formatProof proof publicSignals e = .ok calldata) :
    calldata.WellSized := by
  obtain ⟨-, -, -, signals, inputs, -, hinputs, hexpiry, ha, hb, hc⟩ := formatProof_eq_ok_iff.1 hok
  have hall := length_of_encodePublicInputs hinputs
  refine ⟨length_of_encodeG1 ha, length_of_encodeG2 hb, length_of_encodeG1 hc, ?_⟩
  cases e with
  | none =>
      cases hexpiry
      exact hall
  | some e =>
      obtain ⟨n, -, heq⟩ := appendExpiry_some_eq_ok_iff.1 hexpiry
      intro b hb
      rw [heq] at hb
      rcases List.mem_append.1 hb with hold | hnew
      · exact hall b hold
      · rw [List.mem_singleton.1 hnew, length_toBe]

/-- With an expiry ledger `formatProof` returns what it returns without one, and the ledger as one
    more public input; it then needs the ledger to be an unsigned 32-bit integer. -/
theorem formatProof_some_eq_ok_iff {proof publicSignals : JsValue} {e : JsNumber}
    {calldata : SorobanProofCalldata} :
    formatProof proof publicSignals (some e) = .ok calldata ↔
      ∃ plain, formatProof proof publicSignals none = .ok plain ∧
        ∃ n : UInt32, e = .ofNat n.toNat ∧
          calldata = { plain with publicInputs := plain.publicInputs ++ [toBe 32 n.toNat] } := by
  constructor
  · intro hok
    obtain ⟨hvalid, hprotocol, hlong, signals, inputs, hsignals, hinputs, hexpiry, ha, hb, hc⟩ :=
      formatProof_eq_ok_iff.1 hok
    obtain ⟨n, rfl, heq⟩ := appendExpiry_some_eq_ok_iff.1 hexpiry
    refine ⟨⟨calldata.proofA, calldata.proofB, calldata.proofC, inputs⟩, ?_, n, rfl, ?_⟩
    · exact formatProof_eq_ok_iff.2
        ⟨hvalid, hprotocol, hlong, signals, inputs, hsignals, hinputs, rfl, ha, hb, hc⟩
    · rw [← heq]
  · rintro ⟨plain, hok, n, rfl, rfl⟩
    obtain ⟨hvalid, hprotocol, hlong, signals, inputs, hsignals, hinputs, hexpiry, ha, hb, hc⟩ :=
      formatProof_eq_ok_iff.1 hok
    cases hexpiry
    exact formatProof_eq_ok_iff.2 ⟨hvalid, hprotocol, hlong, signals, _, hsignals, hinputs,
      appendExpiry_some_eq_ok_iff.2 ⟨n, rfl, rfl⟩, ha, hb, hc⟩

/-! ## What `validateCalldata` checks -/

theorem assertBufferLength_eq_ok_iff {value : Bytes} {expected : ℕ} {field : String} {u : Unit} :
    assertBufferLength value expected field = .ok u ↔ value.length = expected := by
  unfold assertBufferLength
  by_cases hlen : value.length = expected <;> simp [hlen]

theorem forEachFrom_eq_ok_iff {α ε : Type} {check : ℕ → α → Except ε Unit} {p : α → Prop}
    (hcheck : ∀ i a u, check i a = .ok u ↔ p a) {i : ℕ} {as : List α} {u : Unit} :
    forEachFrom check i as = .ok u ↔ ∀ a ∈ as, p a := by
  induction as generalizing i with
  | nil => simp [forEachFrom]
  | cons a as ih => simp only [forEachFrom, bind_eq_ok_iff, hcheck, ih, List.forall_mem_cons,
      exists_const]

/-- Calldata passes exactly when it has the contracts' lengths. -/
theorem validateCalldata_eq_ok_iff {calldata : SorobanProofCalldata} {u : Unit} :
    validateCalldata calldata = .ok u ↔ calldata.WellSized := by
  simp only [validateCalldata, bind_eq_ok_iff, assertBufferLength_eq_ok_iff, exists_const,
    forEachFrom_eq_ok_iff (p := fun b : Bytes => b.length = 32)
      (fun _ _ _ => assertBufferLength_eq_ok_iff)]
  rfl

/-- Public inputs of 32 bytes each reach the contracts as they are. -/
theorem inputs_of_publicInputs {calldata : SorobanProofCalldata} {xs : List (BytesN 32)}
    (hxs : calldata.publicInputs = xs.map BytesN.bytes) : calldata.inputs = some xs := by
  rw [SorobanProofCalldata.inputs, hxs]
  clear hxs
  induction xs with
  | nil => rfl
  | cons x xs ih => simp [List.mapM_cons, ih]

/-! ## The all-zero proof -/

/-- The all-zero proof as snarkjs writes it. -/
def zeroProof : JsValue :=
  let zero : JsValue := .string "0"
  .object [("pi_a", .array [zero, zero, zero]),
    ("pi_b", .array [.array [zero, zero], .array [zero, zero], .array [zero, zero]]),
    ("pi_c", .array [zero, zero, zero]), ("protocol", .string "groth16")]

/-- Its calldata with the one public signal `v`. -/
def zeroCalldata (v : ℕ) : SorobanProofCalldata := ⟨zeroG1, zeroG2, zeroG1, [toBe 32 v]⟩

end ZkStellar.Sdk

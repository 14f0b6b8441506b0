import ZkStellar.Sdk.Accepted
import ZkStellar.Sdk.Json

set_option autoImplicit false

/-! # Bundles

A bundle is an object with a proof, its public signals, the circuit, the network and a timestamp;
signing it adds the SHA-256 digest of these five. `createBundle` and `verifyBundleIntegrity` check
the same fields (`createBundle_eq_ok_iff`, `valid_iff`), with two differences: `createBundle` trims
the name of the circuit, and it takes any timestamp. -/

namespace ZkStellar.Sdk

variable (rt : Runtime) (h : Host)

/-! ## Building a bundle -/

/-- `CreateBundleOptions`; an option that is not given is `undefined`. -/
structure CreateBundleOptions where
  proof : JsValue
  publicSignals : JsValue
  circuit : JsValue
  networkPassphrase : JsValue
  generatedAt : JsValue

/-- `typeof v !== "string" || v.trim() === ""`. -/
def notText (v : JsValue) : Bool :=
  match v with
  | .string s => trim s == ""
  | _ => true

/-- `v.trim()`, for a string. -/
def trimmed (v : JsValue) : JsValue :=
  match v with
  | .string s => .string (trim s)
  | v => v

/-- `v ?? w`. -/
def orDefault (v w : JsValue) : JsValue :=
  match v with
  | .undefined | .null => w
  | v => v

/-- The object `createBundle` returns. -/
def bundleOf (opts : CreateBundleOptions) : JsValue :=
  .object [("proof", opts.proof), ("publicSignals", opts.publicSignals),
    ("circuit", trimmed opts.circuit),
    ("generatedAt", orDefault opts.generatedAt (.string rt.now)),
    ("networkPassphrase", opts.networkPassphrase)]

/-- `createBundle`. -/
def createBundle (opts : CreateBundleOptions) : Except JsException JsValue := do
  validateProofInput opts.proof opts.publicSignals
  throwIf (opts.circuit.falsy || notText opts.circuit)
    (.zk (.general "createBundle: circuit must be a non-empty string" .invalidProofFormat))
  throwIf (opts.networkPassphrase.falsy || notText opts.networkPassphrase)
    (.zk (.general "createBundle: networkPassphrase must be a non-empty string"
      .invalidProofFormat))
  return bundleOf rt opts

/-! ## Signing it -/

/-- What the digest of a bundle is computed from. -/
def bundleContent (bundle : JsValue) : JsValue :=
  .object [("proof", bundle.get "proof"), ("publicSignals", bundle.get "publicSignals"),
    ("circuit", bundle.get "circuit"), ("generatedAt", bundle.get "generatedAt"),
    ("networkPassphrase", bundle.get "networkPassphrase")]

/-- `bundleDigest`. -/
def bundleDigest (bundle : JsValue) : String :=
  let content := rt.stringify false (bundleContent bundle)
  hexText ((createHash.update (utf8Bytes content)).digest h)

/-- No digest is the empty string. -/
theorem bundleDigest_ne_empty (bundle : JsValue) : bundleDigest rt h bundle ≠ "" := by
  intro hempty
  have hread := hexBytes_hexText ((createHash.update
    (utf8Bytes (rt.stringify false (bundleContent bundle)))).digest h)
  rw [← bundleDigest, hempty] at hread
  have hlength := (h.sha256 (createHash.update
    (utf8Bytes (rt.stringify false (bundleContent bundle)))).received).length_eq
  rw [← HashObject.digest, ← hread] at hlength
  cases hlength

/-- `signBundle`. -/
def signBundle (bundle : JsValue) : JsValue :=
  bundle.set "digest" (.string (bundleDigest rt h bundle))

/-! ## Checking it -/

/-- `BundleIntegrityResult`. -/
structure BundleIntegrityResult where
  valid : Bool
  reason : Option String
  generatedAt : JsValue
  circuit : JsValue
  networkPassphrase : JsValue
  publicSignalCount : ℕ

/-- The first of the required fields of a bundle that is missing or empty. -/
def missingField (bundle : JsValue) : Option String :=
  ["circuit", "generatedAt", "networkPassphrase"].find? fun field =>
    (bundle.get field).falsy || notText (bundle.get field)

/-- The check that the proof and the public signals of a bundle encode. -/
def assertEncodes (bundle : JsValue) : Except JsException SorobanProofCalldata := do
  validateProofInput (bundle.get "proof") (bundle.get "publicSignals")
  formatProof (bundle.get "proof") (bundle.get "publicSignals") none

/-- `verifyBundleIntegrity`, of an object. -/
def verifyBundleIntegrity (bundle : JsValue) : BundleIntegrityResult :=
  let base : BundleIntegrityResult :=
    { valid := false
      reason := none
      generatedAt := orDefault (bundle.get "generatedAt") (.string "")
      circuit := orDefault (bundle.get "circuit") (.string "")
      networkPassphrase := orDefault (bundle.get "networkPassphrase") (.string "")
      publicSignalCount :=
        match bundle.get "publicSignals" with
        | .array signals => signals.length
        | _ => 0 }
  match missingField bundle with
  | some field => { base with reason := some (field ++ " is missing or empty") }
  | none =>
      match assertEncodes bundle with
      | .error e => { base with reason := some (e.message rt) }
      | .ok _ =>
          match bundle.get "digest" with
          | .string digest =>
              let expected := bundleDigest rt h bundle
              if digest != expected then
                { base with reason := some ("digest mismatch: stored="
                    ++ String.ofList (sliceUnits 16 digest.toList) ++ "… expected="
                    ++ String.ofList (sliceUnits 16 expected.toList) ++ "…") }
              else { base with valid := true }
          | _ => { base with valid := true }

/-! ## What the checks ask for -/

/-- A string with something in it that is not whitespace. -/
def IsText (v : JsValue) : Prop := ∃ s, v = .string s ∧ trim s ≠ ""

/-- A proof and its public signals that encode. -/
def ProofEncodes (proof publicSignals : JsValue) : Prop :=
  ∃ signals, publicSignals = .array signals ∧ WellFormed bn254FieldModulus proof signals none

theorem notText_eq_false_iff {v : JsValue} : notText v = false ↔ IsText v := by
  cases v <;> simp [notText, IsText]

theorem falsy_or_notText_eq_false_iff {v : JsValue} :
    (v.falsy || notText v) = false ↔ IsText v := by
  rw [Bool.or_eq_false_iff, notText_eq_false_iff]
  constructor
  · exact And.right
  · rintro ⟨s, rfl, hs⟩
    have hne : s ≠ "" := fun hempty => hs (by rw [hempty]; rfl)
    exact ⟨by simp [JsValue.falsy, hne], s, rfl, hs⟩

theorem isText_trimmed {v : JsValue} (hv : IsText v) : IsText (trimmed v) := by
  obtain ⟨s, rfl, hs⟩ := hv
  exact ⟨trim s, rfl, by rwa [trim_trim]⟩

theorem validateProofInput_iff_proofEncodes {proof publicSignals : JsValue} {u : Unit} :
    validateProofInput proof publicSignals = .ok u ↔ ProofEncodes proof publicSignals := by
  constructor
  · intro hok
    cases publicSignals with
    | array signals => exact ⟨signals, rfl, validateProofInput_iff_wellFormed.1 hok⟩
    | _ =>
        simp only [validateProofInput, bind_eq_ok_iff] at hok
        obtain ⟨_, -, _, -, _, -, _, -, _, -, _, -, _, -, hsignals⟩ := hok
        cases hsignals
  · rintro ⟨signals, rfl, hwell⟩
    exact validateProofInput_iff_wellFormed.2 hwell

theorem assertEncodes_accepts_iff {bundle : JsValue} :
    (∃ calldata, assertEncodes bundle = .ok calldata) ↔
      ProofEncodes (bundle.get "proof") (bundle.get "publicSignals") := by
  simp only [assertEncodes, bind_eq_ok_iff, validateProofInput_iff_proofEncodes, exists_const,
    exists_and_left, and_iff_left_iff_imp]
  rintro ⟨signals, hsignals, hwell⟩
  rw [hsignals]
  exact formatProof_accepts_iff.2 hwell

theorem createBundle_eq_ok_iff {opts : CreateBundleOptions} {bundle : JsValue} :
    createBundle rt opts = .ok bundle ↔
      ProofEncodes opts.proof opts.publicSignals ∧ IsText opts.circuit ∧
      IsText opts.networkPassphrase ∧ bundle = bundleOf rt opts := by
  simp only [createBundle, bind_eq_ok_iff, throwIf_eq_ok_iff, validateProofInput_iff_proofEncodes,
    falsy_or_notText_eq_false_iff, exists_const, pure, Except.pure,
    Except.ok.injEq]
  rw [eq_comm (a := bundle)]

/-- The required fields of a bundle, and its proof, are in order. -/
@[mk_iff] structure Sound (bundle : JsValue) : Prop where
  circuit : IsText (bundle.get "circuit")
  generatedAt : IsText (bundle.get "generatedAt")
  networkPassphrase : IsText (bundle.get "networkPassphrase")
  encodes : ProofEncodes (bundle.get "proof") (bundle.get "publicSignals")

theorem missingField_eq_none_iff {bundle : JsValue} :
    missingField bundle = none ↔ IsText (bundle.get "circuit") ∧
      IsText (bundle.get "generatedAt") ∧ IsText (bundle.get "networkPassphrase") := by
  simp only [missingField, List.find?_eq_none, List.forall_mem_cons, Bool.not_eq_true,
    falsy_or_notText_eq_false_iff, List.not_mem_nil, false_implies, implies_true, and_true]

/-- A bundle is valid if its fields are in order and its digest, if it has one, is right. -/
theorem valid_iff {bundle : JsValue} :
    (verifyBundleIntegrity rt h bundle).valid = true ↔
      Sound bundle ∧ ∀ d, bundle.get "digest" = .string d → d = bundleDigest rt h bundle := by
  unfold verifyBundleIntegrity
  cases hmissing : missingField bundle with
  | some field =>
      simp only [Bool.false_eq_true, false_iff, not_and]
      intro hsound
      rw [missingField_eq_none_iff.2
        ⟨hsound.circuit, hsound.generatedAt, hsound.networkPassphrase⟩] at hmissing
      cases hmissing
  | none =>
      obtain ⟨hcircuit, hgenerated, hnetwork⟩ := missingField_eq_none_iff.1 hmissing
      cases hencodes : assertEncodes bundle with
      | error e =>
          simp only [Bool.false_eq_true, false_iff, not_and]
          intro hsound
          obtain ⟨calldata, hok⟩ := assertEncodes_accepts_iff.2 hsound.encodes
          rw [hok] at hencodes
          cases hencodes
      | ok calldata =>
          have hsound : Sound bundle := ⟨hcircuit, hgenerated, hnetwork,
            assertEncodes_accepts_iff.1 ⟨calldata, hencodes⟩⟩
          -- a digest that is not text is not compared
          cases hdigest : bundle.get "digest" with
          | string d =>
              by_cases hd : d = bundleDigest rt h bundle
              · simp [hd, hsound]
              · simp [hd]
          | _ => simp [hsound]

/-! ## Signed bundles -/

/-- The content of a bundle does not include its digest. -/
theorem bundleContent_set_digest (bundle value : JsValue) :
    bundleContent (bundle.set "digest" value) = bundleContent bundle := by
  simp [bundleContent, get_set_of_ne]

theorem bundleDigest_set_digest (bundle value : JsValue) :
    bundleDigest rt h (bundle.set "digest" value) = bundleDigest rt h bundle := by
  rw [bundleDigest, bundleContent_set_digest, bundleDigest]

/-- Nor is the digest one of the required fields. -/
theorem sound_set_digest_iff {bundle value : JsValue} :
    Sound (bundle.set "digest" value) ↔ Sound bundle := by
  simp [sound_iff, get_set_of_ne]

/-- A bundle with a digest is valid if its fields are in order and the digest is right. -/
theorem valid_set_digest_iff {props : List (String × JsValue)} {d : String} :
    (verifyBundleIntegrity rt h ((JsValue.object props).set "digest" (.string d))).valid = true ↔
      Sound (.object props) ∧ d = bundleDigest rt h (.object props) := by
  rw [valid_iff, sound_set_digest_iff, bundleDigest_set_digest, get_set_self]
  simp

theorem get_signBundle_digest {props : List (String × JsValue)} :
    (signBundle rt h (.object props)).get "digest"
      = .string (bundleDigest rt h (.object props)) :=
  get_set_self props _ _

/-- A signed bundle is valid if its fields are in order. -/
theorem valid_signBundle_iff {props : List (String × JsValue)} :
    (verifyBundleIntegrity rt h (signBundle rt h (.object props))).valid = true ↔
      Sound (.object props) := by
  rw [signBundle, valid_set_digest_iff, and_iff_left rfl]

end ZkStellar.Sdk

import ZkStellar.Sdk.BundleIO

set_option autoImplicit false

/-! # Bundles that were built and bundles that were imported

The SDK makes signed bundles in two ways: `createBundle` builds one that is then signed, and
`importSignedBundle` signs what comes without a digest. Both are usable if the proof encodes and no
required field is blank. `createBundle` does not look at the timestamp it is given
(`created_bundle_usable_iff`), and `importSignedBundle` does not look at the proof of a bundle it
signs itself (`imported_bundle_passes_iff`). -/

namespace ZkStellar.Sdk

variable (rt : Runtime) (h : Host)

/-- What `importSignedBundle` can be given for a bundle: the object, its JSON or its base64. -/
def encodings (bundle : JsValue) : List JsValue :=
  [bundle, .string (bundleToJson rt bundle true), .string (bundleToJson rt bundle false),
    .string (bundleToBase64 rt bundle)]

/-- `JSON.parse` gives the value back from its text. -/
def SurvivesJson (v : JsValue) : Prop :=
  ∀ pretty, rt.parse (rt.stringify pretty v) = .ok v

/-! ## Valid bundles are imported -/

theorem hasDigest_iff {v : JsValue} : hasDigest v = true ↔ ∃ d, v.get "digest" = .string d := by
  rw [hasDigest]
  cases v.get "digest" <;> simp [JsValue.typeof]

theorem hasDigest_signBundle (props : List (String × JsValue)) :
    hasDigest (signBundle rt h (.object props)) = true :=
  hasDigest_iff.2 ⟨_, get_signBundle_digest rt h⟩

/-- A value with a property is an object. -/
theorem exists_object_of_get {v : JsValue} {name s : String} (hget : v.get name = .string s) :
    ∃ props, v = .object props := by
  cases v with
  | object props => exact ⟨props, rfl⟩
  | _ => cases hget

/-- What `importSignedBundle` does with a value. -/
theorem importValue_eq_ok_iff {raw : JsValue} {result : ImportBundleResult} :
    importValue rt h raw = .ok result ↔ HasShape raw ∧
      ((hasDigest raw = true ∧ (verifyBundleIntegrity rt h raw).valid = true ∧
          result = ⟨raw, true⟩) ∨
        hasDigest raw = false ∧ result = ⟨signBundle rt h raw, false⟩) := by
  simp only [importValue, bind_eq_ok_iff, validateBundleShape_eq_ok_iff, exists_const]
  refine and_congr_right fun _ => ?_
  cases hasDigest raw with
  | true =>
      simp only [if_true, bind_eq_ok_iff, throwIf_eq_ok_iff, exists_const, pure, Except.pure,
        Except.ok.injEq, Bool.not_eq_false', true_and, Bool.true_eq_false, false_and, or_false,
        eq_comm (a := result)]
  | false =>
      simp only [Bool.false_eq_true, if_false, pure, Except.pure, Except.ok.injEq, false_and,
        true_and, false_or, eq_comm (a := result)]

theorem importSignedBundle_eq_ok_iff {input : JsValue} {result : ImportBundleResult} :
    importSignedBundle rt h input = .ok result ↔
      ∃ raw, readInput rt input = .ok raw ∧ importValue rt h raw = .ok result :=
  bind_eq_ok_iff

/-- All encodings of an object are imported as the object is. -/
theorem importSignedBundle_of_mem_encodings {props : List (String × JsValue)}
    (hjson : SurvivesJson rt (.object props)) {input : JsValue}
    (hinput : input ∈ encodings rt (.object props)) :
    importSignedBundle rt h input = importValue rt h (.object props) := by
  have hplain : ∀ pretty, importSignedBundle rt h (.string (bundleToJson rt (.object props) pretty))
      = importValue rt h (.object props) := by
    intro pretty
    have hblank : ∀ c ∈ ([] : List Char), isWhitespace c = true := by simp
    have himport := importSignedBundle_bundleToJson rt h (hjson pretty) hblank
    rwa [String.ofList_nil, String.empty_append] at himport
  simp only [encodings, List.mem_cons, List.not_mem_nil, or_false] at hinput
  rcases hinput with rfl | rfl | rfl | rfl
  · exact importSignedBundle_of_readInput rt h rfl
  · exact hplain true
  · exact hplain false
  · exact importSignedBundle_bundleToBase64 rt h (hjson false)

/-- A valid bundle with a digest is imported as it is. -/
theorem importValue_of_valid {bundle : JsValue} (hdigest : hasDigest bundle = true)
    (hvalid : (verifyBundleIntegrity rt h bundle).valid = true) :
    importValue rt h bundle = .ok ⟨bundle, true⟩ :=
  (importValue_eq_ok_iff rt h).2
    ⟨((valid_iff rt h).1 hvalid).1.hasShape, Or.inl ⟨hdigest, hvalid, rfl⟩⟩

/-! ## Bundles that were built -/

/-- A signed bundle that every function of the SDK takes. -/
structure Usable (bundle : JsValue) : Prop where
  valid : (verifyBundleIntegrity rt h bundle).valid = true
  fromJson : ∀ pretty, bundleFromJson rt (bundleToJson rt bundle pretty) = .ok bundle
  fromBase64 : bundleFromBase64 rt (bundleToBase64 rt bundle) = .ok bundle
  imported : ∀ input ∈ encodings rt bundle,
    ∃ result, importSignedBundle rt h input = .ok result ∧ result.integrityVerified = true

theorem bundleFromJson_of_parse {bundle : JsValue} {json : String}
    (hparse : rt.parse json = .ok bundle) (hshape : HasShape bundle) :
    bundleFromJson rt json = .ok bundle := by
  have hcheck : validateBundleShape rt bundle = .ok () :=
    (validateBundleShape_eq_ok_iff rt).2 hshape
  simp only [bundleFromJson, hparse, hcheck]
  rfl

/-- A signed bundle is usable if its fields are in order. -/
theorem usable_signBundle_iff {props : List (String × JsValue)}
    (hjson : SurvivesJson rt (signBundle rt h (.object props))) :
    Usable rt h (signBundle rt h (.object props)) ↔ Sound (.object props) := by
  constructor
  · intro husable
    exact (valid_signBundle_iff rt h).1 husable.valid
  · intro hsound
    have hvalid := (valid_signBundle_iff rt h).2 hsound
    have hshape := ((valid_iff rt h).1 hvalid).1.hasShape
    refine ⟨hvalid, fun pretty => bundleFromJson_of_parse rt (hjson pretty) hshape, ?_, ?_⟩
    · rw [bundleToBase64, bundleFromBase64_of_padded rt (padded_urlSafe _)]
      exact bundleFromJson_of_parse rt (hjson false) hshape
    · intro input hinput
      have himport : importSignedBundle rt h input
          = importValue rt h (signBundle rt h (.object props)) :=
        importSignedBundle_of_mem_encodings rt h hjson hinput
      rw [importValue_of_valid rt h (hasDigest_signBundle rt h props) hvalid] at himport
      exact ⟨_, himport, rfl⟩

theorem isText_orDefault_iff {v w : JsValue} (hw : IsText w) :
    IsText (orDefault v w) ↔ v = .undefined ∨ v = .null ∨ IsText v := by
  cases v <;> simp [orDefault, hw]

/-- The fields of a bundle that was built are in order, if its timestamp is. -/
theorem sound_bundleOf_iff {opts : CreateBundleOptions} {bundle : JsValue}
    (hcreate : createBundle rt opts = .ok bundle) :
    Sound (bundleOf rt opts) ↔ opts.generatedAt = .undefined ∨ opts.generatedAt = .null ∨
      IsText opts.generatedAt := by
  obtain ⟨hencodes, hcircuit, hnetwork, -⟩ := (createBundle_eq_ok_iff rt).1 hcreate
  have hnow : IsText (.string rt.now) := ⟨_, rfl, rt.now_printed⟩
  rw [← isText_orDefault_iff hnow]
  constructor
  · intro hsound
    exact hsound.generatedAt
  · intro hgenerated
    exact ⟨isText_trimmed hcircuit, hgenerated, hnetwork, hencodes⟩

/-- A bundle that `createBundle` builds is usable once it is signed, unless the timestamp that was
    given for it is blank. -/
theorem created_bundle_usable_iff {opts : CreateBundleOptions} {bundle : JsValue}
    (hcreate : createBundle rt opts = .ok bundle)
    (hjson : SurvivesJson rt (signBundle rt h bundle)) :
    Usable rt h (signBundle rt h bundle) ↔ opts.generatedAt = .undefined ∨
      opts.generatedAt = .null ∨ IsText opts.generatedAt := by
  obtain ⟨-, -, -, rfl⟩ := (createBundle_eq_ok_iff rt).1 hcreate
  rw [bundleOf, usable_signBundle_iff rt h hjson, ← sound_bundleOf_iff rt hcreate, bundleOf]

/-- The options for a bundle with the all-zero proof. -/
def zeroOptions (generatedAt : JsValue) : CreateBundleOptions where
  proof := zeroProof
  publicSignals := .array []
  circuit := .string " preimage"
  networkPassphrase := .string "Test SDF Network ; September 2015"
  generatedAt := generatedAt

/-- The runtime in which the signed bundle of these options is parsed. -/
def zeroRuntime (generatedAt : JsValue) : Runtime :=
  let bundle := bundleOf (Runtime.reading .null) (zeroOptions generatedAt)
  Runtime.reading (signBundle (Runtime.reading .null) Host.scalar bundle)

theorem zeroProof_encodes : ProofEncodes zeroProof (.array []) :=
  validateProofInput_iff_proofEncodes.1
    (show validateProofInput zeroProof (.array []) = .ok () by decide +kernel)

theorem createBundle_zeroOptions (generatedAt : JsValue) :
    createBundle (zeroRuntime generatedAt) (zeroOptions generatedAt)
      = .ok (bundleOf (zeroRuntime generatedAt) (zeroOptions generatedAt)) :=
  (createBundle_eq_ok_iff _).2 ⟨zeroProof_encodes, ⟨_, rfl, by decide +kernel⟩,
    ⟨_, rfl, by decide +kernel⟩, rfl⟩

theorem survivesJson_zeroOptions (generatedAt : JsValue) :
    SurvivesJson (zeroRuntime generatedAt) (signBundle (zeroRuntime generatedAt) Host.scalar
      (bundleOf (zeroRuntime generatedAt) (zeroOptions generatedAt))) :=
  fun _ => rfl

/-- A bundle without a timestamp of its own. -/
theorem created_bundle_usable_now :
    Usable (zeroRuntime .undefined) Host.scalar (signBundle (zeroRuntime .undefined) Host.scalar
      (bundleOf (zeroRuntime .undefined) (zeroOptions .undefined))) ↔
    JsValue.undefined = .undefined ∨ JsValue.undefined = .null ∨ IsText .undefined :=
  created_bundle_usable_iff (zeroRuntime .undefined) Host.scalar
    (createBundle_zeroOptions .undefined) (survivesJson_zeroOptions .undefined)

/-- A bundle that is given an empty timestamp is built, and not usable. -/
theorem empty_timestamp_unusable :
    createBundle (zeroRuntime (.string "")) (zeroOptions (.string ""))
        = .ok (bundleOf (zeroRuntime (.string "")) (zeroOptions (.string ""))) ∧
      SurvivesJson (zeroRuntime (.string "")) (signBundle (zeroRuntime (.string "")) Host.scalar
        (bundleOf (zeroRuntime (.string "")) (zeroOptions (.string "")))) ∧
      ¬ Usable (zeroRuntime (.string "")) Host.scalar (signBundle (zeroRuntime (.string ""))
        Host.scalar (bundleOf (zeroRuntime (.string "")) (zeroOptions (.string "")))) := by
  refine ⟨createBundle_zeroOptions _, survivesJson_zeroOptions _, ?_⟩
  intro husable
  obtain ⟨s, hs, hprinted⟩ := ((valid_signBundle_iff _ _).1 husable.valid).generatedAt
  cases hs
  exact hprinted (by decide)

/-! ## Bundles that were imported -/

/-- The object `importSignedBundle` returns for a value. -/
def withDigest (raw : JsValue) : JsValue := if hasDigest raw then raw else signBundle rt h raw

/-- It is an object with a digest. -/
theorem exists_withDigest_eq (props : List (String × JsValue)) :
    ∃ props', withDigest rt h (.object props) = .object props' ∧
      hasDigest (.object props') = true := by
  unfold withDigest
  split
  · next hdigest => exact ⟨props, rfl, hdigest⟩
  · exact ⟨_, rfl, hasDigest_signBundle rt h props⟩

/-- An imported bundle whose digest is right, that is valid, and that is imported again as it is. -/
structure PassesOwnChecks (bundle : JsValue) : Prop where
  digest : bundle.get "digest" = .string (bundleDigest rt h bundle)
  valid : (verifyBundleIntegrity rt h bundle).valid = true
  reimported : ∀ input ∈ encodings rt bundle,
    importSignedBundle rt h input = .ok ⟨bundle, true⟩

theorem bundle_of_importValue {raw : JsValue} {result : ImportBundleResult}
    (himport : importValue rt h raw = .ok result) : result.bundle = withDigest rt h raw := by
  obtain ⟨-, ⟨hdigest, -, rfl⟩ | ⟨hdigest, rfl⟩⟩ := (importValue_eq_ok_iff rt h).1 himport
  · simp [withDigest, hdigest]
  · simp [withDigest, hdigest]

/-- A bundle that is imported from its JSON as it is is what its JSON is parsed to. -/
theorem parse_of_reimported {props : List (String × JsValue)} {pretty : Bool}
    (himport : importSignedBundle rt h (.string (bundleToJson rt (.object props) pretty))
      = .ok ⟨.object props, true⟩) :
    rt.parse (rt.stringify pretty (.object props)) = .ok (.object props) := by
  obtain ⟨raw, hread, hvalue⟩ := (importSignedBundle_eq_ok_iff rt h).1 himport
  have hraw : raw = .object props := by
    obtain ⟨-, ⟨-, -, heq⟩ | ⟨-, heq⟩⟩ := (importValue_eq_ok_iff rt h).1 hvalue
    · exact (congrArg ImportBundleResult.bundle heq).symm
    · cases congrArg ImportBundleResult.integrityVerified heq
  obtain ⟨cs, hcs⟩ := stringify_object rt pretty props
  have htrim : trimStart (bundleToJson rt (.object props) pretty)
      = rt.stringify pretty (.object props) := by
    have hblank : ∀ c ∈ ([] : List Char), isWhitespace c = true := by simp
    simpa [bundleToJson] using trimStart_append hblank hcs (by decide)
  cases hparse : rt.parse (rt.stringify pretty (.object props)) with
  | error message => simp [readInput, htrim, hcs, hparse] at hread
  | ok parsed =>
      simp only [readInput, htrim, hcs, hparse, List.head?_cons, beq_self_eq_true, if_true,
        Except.ok.injEq] at hread
      rw [hread, hraw]

/-- What is returned for an object with a digest, or whose proof encodes, is valid, and nothing
    else is. -/
theorem valid_withDigest_iff {props : List (String × JsValue)} {result : ImportBundleResult}
    (himport : importValue rt h (.object props) = .ok result) :
    (verifyBundleIntegrity rt h (withDigest rt h (.object props))).valid = true ↔
      hasDigest (.object props) = true ∨ ProofEncodes ((JsValue.object props).get "proof")
        ((JsValue.object props).get "publicSignals") := by
  obtain ⟨hshape, ⟨hdigest, hvalid, -⟩ | ⟨hdigest, -⟩⟩ := (importValue_eq_ok_iff rt h).1 himport
  · simp [withDigest, hdigest, hvalid]
  · simp only [withDigest, hdigest, Bool.false_eq_true, if_false, valid_signBundle_iff, false_or]
    constructor
    · intro hsound
      exact hsound.encodes
    · intro hencodes
      exact hshape.sound hencodes

/-- What `importSignedBundle` returns passes its own checks if the value it was given has a digest
    or a proof that encodes, and JSON has a text for it. -/
theorem imported_bundle_passes_iff {input : JsValue} {result : ImportBundleResult}
    (himport : importSignedBundle rt h input = .ok result) :
    PassesOwnChecks rt h result.bundle ↔ ∃ raw, readInput rt input = .ok raw ∧
      (hasDigest raw = true ∨ ProofEncodes (raw.get "proof") (raw.get "publicSignals")) ∧
      SurvivesJson rt (withDigest rt h raw) := by
  obtain ⟨raw, hread, hvalue⟩ := (importSignedBundle_eq_ok_iff rt h).1 himport
  obtain ⟨props, rfl⟩ : ∃ props, raw = .object props := by
    obtain ⟨s, hs, -⟩ := ((importValue_eq_ok_iff rt h).1 hvalue).1.circuit
    exact exists_object_of_get hs
  obtain ⟨props', hprops', hdigest⟩ := exists_withDigest_eq rt h props
  simp only [bundle_of_importValue rt h hvalue, hread, Except.ok.injEq, exists_eq_left',
    ← valid_withDigest_iff rt h hvalue]
  rw [hprops']
  constructor
  · rintro ⟨-, hvalid, hreimported⟩
    refine ⟨hvalid, ?_⟩
    intro pretty
    refine parse_of_reimported rt h (hreimported _ ?_)
    cases pretty <;> simp [encodings]
  · rintro ⟨hvalid, hjson⟩
    refine ⟨?_, hvalid, fun input hinput => ?_⟩
    · obtain ⟨d, hd⟩ := hasDigest_iff.1 hdigest
      rw [hd, ((valid_iff rt h).1 hvalid).2 d hd]
    · rw [importSignedBundle_of_mem_encodings rt h hjson hinput]
      exact importValue_of_valid rt h hdigest hvalid

/-- Without a digest a bundle is signed, whatever its proof is. -/
theorem importSignedBundle_sampleBundle {proof : JsValue}
    (hshape : HasShape (.object (sampleBundle proof "preimage"))) :
    importSignedBundle rt h (.object (sampleBundle proof "preimage"))
      = .ok ⟨signBundle rt h (.object (sampleBundle proof "preimage")), false⟩ := by
  have hread : readInput rt (.object (sampleBundle proof "preimage"))
      = .ok (.object (sampleBundle proof "preimage")) := rfl
  rw [importSignedBundle_of_readInput rt h hread]
  exact (importValue_eq_ok_iff rt h).2 ⟨hshape, Or.inr ⟨rfl, rfl⟩⟩

theorem hasShape_sampleBundle {proof : JsValue}
    (hprotocol : proof.get "protocol" = .string "groth16") (ha : HasTwoEntries (proof.get "pi_a"))
    (hb : HasTwoEntries (proof.get "pi_b")) (hc : HasTwoEntries (proof.get "pi_c")) :
    HasShape (.object (sampleBundle proof "preimage")) :=
  ⟨⟨_, rfl, by decide +kernel⟩, ⟨_, rfl, by decide +kernel⟩, ⟨_, rfl, by decide +kernel⟩,
    ⟨[], rfl, by simp⟩, hprotocol, ha, hb, hc⟩

/-- An unsigned bundle with the all-zero proof. -/
theorem imported_bundle_passes_unsigned :
    let rt := Runtime.reading (.object (sampleBundle zeroProof "preimage"))
    PassesOwnChecks rt Host.scalar
        (signBundle rt Host.scalar (.object (sampleBundle zeroProof "preimage"))) ↔
      ∃ raw, readInput rt (.object (sampleBundle zeroProof "preimage")) = .ok raw ∧
        (hasDigest raw = true ∨ ProofEncodes (raw.get "proof") (raw.get "publicSignals")) ∧
        SurvivesJson rt (withDigest rt Host.scalar raw) :=
  imported_bundle_passes_iff (Runtime.reading (.object (sampleBundle zeroProof "preimage")))
    Host.scalar (importSignedBundle_sampleBundle _ _ (hasShape_sampleBundle rfl
      ⟨_, rfl, by decide⟩ ⟨_, rfl, by decide⟩ ⟨_, rfl, by decide⟩))

/-- A proof with points of two coordinates, which are no numerals. -/
def brokenProof : JsValue :=
  .object [("pi_a", .array [.null, .null]), ("pi_b", .array [.null, .null]),
    ("pi_c", .array [.null, .null]), ("protocol", .string "groth16")]

/-- An unsigned bundle with such a proof is imported, signed, and not valid. -/
theorem broken_proof_imported :
    let rt := Runtime.reading (signBundle (Runtime.reading .null) Host.scalar
      (.object (sampleBundle brokenProof "preimage")))
    ∃ result, importSignedBundle rt Host.scalar (.object (sampleBundle brokenProof "preimage"))
        = .ok result ∧ SurvivesJson rt result.bundle ∧
      ¬ PassesOwnChecks rt Host.scalar result.bundle := by
  refine ⟨_, importSignedBundle_sampleBundle _ _ (hasShape_sampleBundle rfl ⟨_, rfl, by decide⟩
    ⟨_, rfl, by decide⟩ ⟨_, rfl, by decide⟩), fun _ => rfl, ?_⟩
  intro hpasses
  obtain ⟨signals, -, hwell⟩ := ((valid_signBundle_iff _ _).1 hpasses.valid).encodes
  obtain ⟨elems, hnull, -⟩ := hwell.piB0
  cases hnull

end ZkStellar.Sdk

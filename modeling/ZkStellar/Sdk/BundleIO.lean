import ZkStellar.Lib.Base64
import ZkStellar.Sdk.Bundle

set_option autoImplicit false

/-! # Bundles as texts

A bundle travels as JSON or as base64 of JSON, and `importSignedBundle` takes either, or an object.
The three ways in meet before the digest is looked at: whatever a bundle's encoding, the same object
is read (`imports_agree`). A signed bundle is checked there, an unsigned one is only signed. -/

namespace ZkStellar.Sdk

variable (rt : Runtime) (h : Host)

/-! ## The shape of a bundle -/

/-- An error of `validateBundleShape`. -/
def shapeError (message : String) : JsException :=
  .zk (.general ("validateBundleShape: " ++ message) .invalidProofFormat)

/-- The elements of the public signals of a bundle, which have to be an array. -/
def signalElements (publicSignals : JsValue) : Except JsException (List JsValue) :=
  match publicSignals with
  | .array signals => .ok signals
  | _ => .error (shapeError "bundle.publicSignals must be an array")

/-- `!Array.isArray(v) || v.length < 2`. -/
def notPair (v : JsValue) : Bool :=
  match v with
  | .array elems => decide (elems.length < 2)
  | _ => true

/-- The check of the protocol in `validateBundleShape`, which says what it got. -/
def assertProtocol (protocol : JsValue) : Except JsException Unit :=
  if protocol.isString "groth16" then .ok ()
  else do
    let text ← printed rt protocol
    .error (shapeError ("bundle.proof.protocol must be \"groth16\" (got \"" ++ text ++ "\")"))

/-- `validateBundleShape`. -/
def validateBundleShape (value : JsValue) : Except JsException Unit := do
  throwIf (notAnObject value) (shapeError "bundle must be a plain object")
  throwIf (notText (value.get "circuit")) (shapeError "bundle.circuit must be a non-empty string")
  throwIf (notText (value.get "generatedAt"))
    (shapeError "bundle.generatedAt must be a non-empty string")
  throwIf (notText (value.get "networkPassphrase"))
    (shapeError "bundle.networkPassphrase must be a non-empty string")
  let signals ← signalElements (value.get "publicSignals")
  forEachFrom (fun i signal => throwIf (signal.typeof != "string")
    (shapeError ("bundle.publicSignals[" ++ toString i ++ "] must be a string"))) 0 signals
  let proof := value.get "proof"
  throwIf (notAnObject proof) (shapeError "bundle.proof must be an object")
  assertProtocol rt (proof.get "protocol")
  throwIf (notPair (proof.get "pi_a"))
    (shapeError "bundle.proof.pi_a must be an array with at least 2 elements")
  throwIf (notPair (proof.get "pi_c"))
    (shapeError "bundle.proof.pi_c must be an array with at least 2 elements")
  throwIf (notPair (proof.get "pi_b"))
    (shapeError "bundle.proof.pi_b must be an array with at least 2 elements")

/-! ## Texts -/

/-- `bundleToJson`. -/
def bundleToJson (bundle : JsValue) (pretty : Bool) : String := rt.stringify pretty bundle

/-- `bundleFromJson`. -/
def bundleFromJson (json : String) : Except JsException JsValue := do
  match rt.parse json with
  | .error message =>
      .error (.zk (.general ("bundleFromJson: invalid JSON — " ++ message) .invalidProofFormat))
  | .ok parsed =>
      validateBundleShape rt parsed
      return parsed

/-- The rewriting in `bundleToBase64`. -/
def urlSafe (text : String) : String := String.ofList (base64Url text.toList)

/-- The rewriting in `bundleFromBase64`: the standard alphabet, and padding. -/
def padded (b64 : String) : String :=
  let standard := String.ofList (base64Standard b64.toList)
  standard ++ String.ofList (base64Padding (JsValue.units standard).length)

/-- `bundleToBase64`. -/
def bundleToBase64 (bundle : JsValue) : String :=
  let json := bundleToJson rt bundle false
  urlSafe (String.ofList (base64Text (utf8Bytes json)))

/-- `bundleFromBase64`. -/
def bundleFromBase64 (b64 : String) : Except JsException JsValue :=
  let json := rt.utf8Text (base64Bytes (padded b64).toList)
  bundleFromJson rt json

/-! ## Importing -/

/-- `ImportBundleResult`. -/
structure ImportBundleResult where
  bundle : JsValue
  integrityVerified : Bool

/-- The value that an argument of `importSignedBundle` denotes. -/
def readInput (input : JsValue) : Except JsException JsValue :=
  match input with
  | .string text =>
      let trimmed := trimStart text
      if trimmed.toList.head? == some '\x7b' then
        match rt.parse trimmed with
        | .error message =>
            .error (.zk (.general ("importSignedBundle: invalid JSON — " ++ message)
              .invalidProofFormat))
        | .ok raw => .ok raw
      else bundleFromBase64 rt text
  | raw => .ok raw

/-- `typeof v.digest === "string"`. -/
def hasDigest (v : JsValue) : Bool := (v.get "digest").typeof == "string"

/-- `importSignedBundle`, from the value its argument denotes. -/
def importValue (raw : JsValue) : Except JsException ImportBundleResult := do
  validateBundleShape rt raw
  if hasDigest raw then
    let integrityResult := verifyBundleIntegrity rt h raw
    throwIf (!integrityResult.valid)
      (.zk (.general ("importSignedBundle: integrity check failed — "
        ++ integrityResult.reason.getD "undefined") .invalidProofFormat))
    return ⟨raw, true⟩
  else return ⟨signBundle rt h raw, false⟩

/-- `importSignedBundle`. -/
def importSignedBundle (input : JsValue) : Except JsException ImportBundleResult := do
  let raw ← readInput rt input
  importValue rt h raw

/-! ## What the shape check asks for -/

/-- The shape of a bundle. -/
structure HasShape (v : JsValue) : Prop where
  circuit : IsText (v.get "circuit")
  generatedAt : IsText (v.get "generatedAt")
  networkPassphrase : IsText (v.get "networkPassphrase")
  signals : ∃ signals, v.get "publicSignals" = .array signals ∧
    ∀ signal ∈ signals, signal.typeof = "string"
  protocol : (v.get "proof").get "protocol" = .string "groth16"
  piA : HasTwoEntries ((v.get "proof").get "pi_a")
  piB : HasTwoEntries ((v.get "proof").get "pi_b")
  piC : HasTwoEntries ((v.get "proof").get "pi_c")

theorem notPair_eq_false_iff {v : JsValue} : notPair v = false ↔ HasTwoEntries v := by
  cases v <;> simp [notPair, HasTwoEntries, Nat.succ_le_iff]

theorem signalElements_eq_ok_iff {v : JsValue} {signals : List JsValue} :
    signalElements v = .ok signals ↔ v = .array signals := by
  cases v <;> simp [signalElements]

theorem assertProtocol_eq_ok_iff {v : JsValue} {u : Unit} :
    assertProtocol rt v = .ok u ↔ v = .string "groth16" := by
  rw [← isString_eq_true_iff]
  unfold assertProtocol
  split
  · next hprotocol => simp [hprotocol]
  · next hprotocol => simp [hprotocol, bind_eq_ok_iff]

theorem validateBundleShape_eq_ok_iff {v : JsValue} {u : Unit} :
    validateBundleShape rt v = .ok u ↔ HasShape v := by
  have hstrings : ∀ (signals : List JsValue) (u : Unit), forEachFrom (fun i signal => throwIf
      (signal.typeof != "string") (shapeError ("bundle.publicSignals[" ++ toString i
        ++ "] must be a string"))) 0 signals = .ok u ↔
      ∀ signal ∈ signals, signal.typeof = "string" := fun signals _ =>
    forEachFrom_eq_ok_iff fun i signal u => by simp [throwIf_eq_ok_iff]
  simp only [validateBundleShape, bind_eq_ok_iff, throwIf_eq_ok_iff, notText_eq_false_iff,
    signalElements_eq_ok_iff, hstrings, notPair_eq_false_iff, assertProtocol_eq_ok_iff,
    exists_const]
  constructor
  · rintro ⟨-, hcircuit, hgenerated, hnetwork, signals, hsignals, hall, -, hprotocol, ha, hc, hb⟩
    exact ⟨hcircuit, hgenerated, hnetwork, ⟨signals, hsignals, hall⟩, hprotocol, ha, hb, hc⟩
  · rintro ⟨hcircuit, hgenerated, hnetwork, ⟨signals, hsignals, hall⟩, hprotocol, ha, hb, hc⟩
    have hobject : notAnObject v = false := by
      obtain ⟨s, hs, -⟩ := hcircuit
      exact notAnObject_of_get hs
    exact ⟨hobject, hcircuit, hgenerated, hnetwork, signals, hsignals, hall,
      notAnObject_of_get hprotocol, hprotocol, ha, hc, hb⟩

/-- A bundle whose fields are in order has the shape of a bundle. -/
theorem Sound.hasShape {bundle : JsValue} (hsound : Sound bundle) : HasShape bundle := by
  obtain ⟨signals, hsignals, hwell⟩ := hsound.encodes
  refine ⟨hsound.circuit, hsound.generatedAt, hsound.networkPassphrase, ⟨signals, hsignals, ?_⟩,
    hwell.protocol, hwell.piA, hwell.piB, hwell.piC⟩
  intro signal hsignal
  obtain ⟨s, rfl, -⟩ := hwell.signal signal hsignal
  rfl

/-- A bundle with a shape is sound if its proof encodes. -/
theorem HasShape.sound {bundle : JsValue} (hshape : HasShape bundle)
    (hencodes : ProofEncodes (bundle.get "proof") (bundle.get "publicSignals")) : Sound bundle :=
  ⟨hshape.circuit, hshape.generatedAt, hshape.networkPassphrase, hencodes⟩

/-! ## What a text denotes -/

theorem length_units_ofList {cs : List Char} (hcs : ∀ c ∈ cs, c.toNat < 0x10000) :
    (JsValue.units (String.ofList cs)).length = cs.length := by
  rw [JsValue.units, String.toList_ofList]
  induction cs with
  | nil => rfl
  | cons c cs ih =>
      obtain ⟨hc, hcs⟩ := List.forall_mem_cons.1 hcs
      simp [hc, ih hcs]

/-- Each character of a base64 text is one code unit. -/
theorem length_units_base64Text (bs : Bytes) :
    (JsValue.units (String.ofList (base64Text bs))).length = (base64Text bs).length :=
  length_units_ofList fun c hc => (toNat_lt_of_mem_base64Text bs c hc).trans (by decide)

/-- A base64 text with its padding is left as it is. -/
theorem padded_base64Text (bs : Bytes) :
    padded (String.ofList (base64Text bs)) = String.ofList (base64Text bs) := by
  rw [padded, String.toList_ofList, base64Standard_base64Text,
    length_units_base64Text, base64Padding_base64Text,
    String.ofList_nil, String.append_empty]

/-- A base64 text without its padding gets it back. -/
theorem padded_of_digits {bs : Bytes} {b64 : String}
    (hdigits : base64Standard b64.toList = (sextets bs).map base64Digit) :
    padded b64 = String.ofList (base64Text bs) := by
  have hsmall : ∀ c ∈ (sextets bs).map base64Digit, c.toNat < 0x10000 := fun c hc =>
    (toNat_lt_of_mem_base64Text bs c (List.mem_append_left _ hc)).trans (by decide)
  rw [padded, hdigits, length_units_ofList hsmall, ← base64Text_eq bs, String.ofList_append]

/-- The rewriting for URLs is undone. -/
theorem padded_urlSafe (bs : Bytes) :
    padded (urlSafe (String.ofList (base64Text bs))) = String.ofList (base64Text bs) := by
  refine padded_of_digits ?_
  rw [urlSafe, String.toList_ofList, String.toList_ofList, base64Standard_base64Url]

/-- The standard base64 of a text, with or without padding. -/
def standardBase64 (padding : Bool) (text : String) : String :=
  let b64 := base64Text (utf8Bytes text)
  String.ofList (if padding then b64 else b64.rdropWhile (· == '='))

theorem padded_standardBase64 (padding : Bool) (text : String) :
    padded (standardBase64 padding text) = String.ofList (base64Text (utf8Bytes text)) := by
  cases padding with
  | true => exact padded_base64Text _
  | false =>
      refine padded_of_digits ?_
      simp only [standardBase64, Bool.false_eq_true, if_false, String.toList_ofList,
        base64Text_rdropWhile]
      exact base64Standard_digits (sextets_lt _)

/-- Whatever is padded to the base64 of a JSON text is read as that JSON. -/
theorem bundleFromBase64_of_padded {b64 json : String}
    (hpadded : padded b64 = String.ofList (base64Text (utf8Bytes json))) :
    bundleFromBase64 rt b64 = bundleFromJson rt json := by
  rw [bundleFromBase64, hpadded, String.toList_ofList, base64Bytes_base64Text,
    utf8Text_utf8Bytes]

/-! ## Reading -/

/-- A text without a brace is not taken for JSON. -/
theorem readInput_of_no_brace {text : String} (hbrace : '\x7b' ∉ text.toList) :
    readInput rt (.string text) = bundleFromBase64 rt text := by
  have hhead : (trimStart text).toList.head? ≠ some '\x7b' := by
    intro hhead
    rw [trimStart, String.toList_ofList] at hhead
    exact hbrace ((List.dropWhile_sublist _).subset (List.mem_of_head? hhead))
  rw [readInput, if_neg (by simpa using hhead)]

/-- No base64 text has a brace in it. -/
theorem brace_notMem_base64Text (bs : Bytes) : '\x7b' ∉ base64Text bs := by
  intro hmem
  rcases List.mem_append.1 hmem with hdigit | hpadding
  · obtain ⟨v, hv, heq⟩ := List.mem_map.1 hdigit
    exact base64Digit_ne (sextets_lt bs v hv) (by decide) heq
  · exact absurd (List.eq_of_mem_replicate hpadding) (by decide)

theorem brace_notMem_standardBase64 (padding : Bool) (text : String) :
    '\x7b' ∉ (standardBase64 padding text).toList := by
  intro hmem
  rw [standardBase64, String.toList_ofList] at hmem
  cases padding with
  | true => exact brace_notMem_base64Text _ hmem
  | false => exact brace_notMem_base64Text _ ((List.rdropWhile_prefix _ _).subset hmem)

theorem brace_notMem_urlSafe (bs : Bytes) :
    '\x7b' ∉ (urlSafe (String.ofList (base64Text bs))).toList := by
  have hall : ∀ v : Fin 64, replaceChar '/' '_' (replaceChar '+' '-' (base64Digit v)) ≠ '\x7b' := by
    decide
  rw [urlSafe, String.toList_ofList, String.toList_ofList, base64Url_base64Text, List.mem_map]
  rintro ⟨v, hv, heq⟩
  exact hall ⟨v, sextets_lt bs v hv⟩ heq

section

variable {props : List (String × JsValue)}

/-- JSON texts are read as the object they come from, whatever whitespace is in front. -/
theorem readInput_bundleToJson {pretty : Bool} {ws : List Char}
    (hparse : rt.parse (rt.stringify pretty (.object props)) = .ok (.object props))
    (hws : ∀ c ∈ ws, isWhitespace c = true) :
    readInput rt (.string (String.ofList ws ++ bundleToJson rt (.object props) pretty))
      = .ok (.object props) := by
  obtain ⟨cs, hcs⟩ := stringify_object rt pretty props
  have htrim : trimStart (String.ofList ws ++ bundleToJson rt (.object props) pretty)
      = rt.stringify pretty (.object props) := trimStart_append hws hcs (by decide)
  simp [readInput, htrim, hcs, hparse]

/-- Base64 texts of the JSON of an object are read as the object, if it has the shape of a
    bundle. -/
theorem readInput_base64 {pretty : Bool} {b64 : String}
    (hparse : rt.parse (rt.stringify pretty (.object props)) = .ok (.object props))
    (hbrace : '\x7b' ∉ b64.toList) (hpadded : padded b64
      = String.ofList (base64Text (utf8Bytes (bundleToJson rt (.object props) pretty)))) :
    readInput rt (.string b64) = do
      validateBundleShape rt (.object props)
      return .object props := by
  rw [readInput_of_no_brace rt hbrace, bundleFromBase64_of_padded rt hpadded, bundleFromJson,
    bundleToJson, hparse]

theorem importSignedBundle_of_readInput {input raw : JsValue}
    (hread : readInput rt input = .ok raw) :
    importSignedBundle rt h input = importValue rt h raw := by
  rw [importSignedBundle, hread]
  rfl

/-- To check the shape of what is imported once more changes nothing. -/
theorem importSignedBundle_of_checked {input raw : JsValue}
    (hread : readInput rt input = do
      validateBundleShape rt raw
      return raw) :
    importSignedBundle rt h input = importValue rt h raw := by
  cases hshape : validateBundleShape rt raw with
  | error e =>
      rw [importSignedBundle, hread, importValue, hshape]
      rfl
  | ok u =>
      rw [hshape] at hread
      exact importSignedBundle_of_readInput rt h hread

/-- Importing the JSON of an object imports the object. -/
theorem importSignedBundle_bundleToJson {pretty : Bool} {ws : List Char}
    (hparse : rt.parse (rt.stringify pretty (.object props)) = .ok (.object props))
    (hws : ∀ c ∈ ws, isWhitespace c = true) :
    importSignedBundle rt h (.string (String.ofList ws ++ bundleToJson rt (.object props) pretty))
      = importValue rt h (.object props) :=
  importSignedBundle_of_readInput rt h (readInput_bundleToJson rt hparse hws)

/-- So does importing what `bundleToBase64` makes of it. -/
theorem importSignedBundle_bundleToBase64
    (hparse : rt.parse (rt.stringify false (.object props)) = .ok (.object props)) :
    importSignedBundle rt h (.string (bundleToBase64 rt (.object props)))
      = importValue rt h (.object props) :=
  importSignedBundle_of_checked rt h
    (readInput_base64 rt hparse (brace_notMem_urlSafe _) (padded_urlSafe _))

/-- However an object is written, importing it gives the same; and the rewriting of base64 for URLs
    loses no bytes. -/
theorem imports_agree
    (hparse : ∀ pretty, rt.parse (rt.stringify pretty (.object props)) = .ok (.object props)) :
    let v : JsValue := .object props
    let imported := (importSignedBundle rt h v).toOption
    (∀ pretty ws, (∀ c ∈ ws, isWhitespace c = true) →
      (importSignedBundle rt h (.string (String.ofList ws ++ bundleToJson rt v pretty))).toOption
        = imported) ∧
    (importSignedBundle rt h (.string (bundleToBase64 rt v))).toOption = imported ∧
    (∀ pretty padding, (importSignedBundle rt h
      (.string (standardBase64 padding (bundleToJson rt v pretty)))).toOption = imported) ∧
    ∀ bs, base64Bytes (padded (urlSafe (String.ofList (base64Text bs)))).toList = bs := by
  have hobject : importSignedBundle rt h (.object props) = importValue rt h (.object props) :=
    importSignedBundle_of_readInput rt h rfl
  refine ⟨fun pretty ws hws => ?_, ?_, fun pretty padding => ?_, fun bs => ?_⟩
  · rw [importSignedBundle_bundleToJson rt h (hparse pretty) hws, hobject]
  · rw [importSignedBundle_bundleToBase64 rt h (hparse false), hobject]
  · have hread := readInput_base64 rt (hparse pretty)
      (brace_notMem_standardBase64 padding _) (padded_standardBase64 _ _)
    rw [importSignedBundle_of_checked rt h hread, hobject]
  · rw [padded_urlSafe, String.toList_ofList, base64Bytes_base64Text]

end

/-- The properties of a bundle without public signals. -/
def sampleBundle (proof : JsValue) (circuit : String) : List (String × JsValue) :=
  [("proof", proof), ("publicSignals", .array []), ("circuit", .string circuit),
    ("generatedAt", .string "2026-01-01T00:00:00.000Z"),
    ("networkPassphrase", .string "Test SDF Network ; September 2015")]

/-- An unsigned bundle whose circuit has a name in another script. -/
theorem imports_agree_unsigned :
    let v : JsValue := .object (sampleBundle zeroProof "κύκλωμα")
    let imported := (importSignedBundle (Runtime.reading v) Host.scalar v).toOption
    (∀ pretty ws, (∀ c ∈ ws, isWhitespace c = true) →
      (importSignedBundle (Runtime.reading v) Host.scalar
        (.string (String.ofList ws ++ bundleToJson (Runtime.reading v) v pretty))).toOption
        = imported) ∧
    (importSignedBundle (Runtime.reading v) Host.scalar
      (.string (bundleToBase64 (Runtime.reading v) v))).toOption = imported ∧
    (∀ pretty padding, (importSignedBundle (Runtime.reading v) Host.scalar
      (.string (standardBase64 padding (bundleToJson (Runtime.reading v) v pretty)))).toOption
        = imported) ∧
    ∀ bs, base64Bytes (padded (urlSafe (String.ofList (base64Text bs)))).toList = bs :=
  imports_agree (Runtime.reading (.object (sampleBundle zeroProof "κύκλωμα"))) Host.scalar
    fun _ => rfl

end ZkStellar.Sdk

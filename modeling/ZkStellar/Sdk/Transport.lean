import ZkStellar.Sdk.BundleUse
import ZkStellar.Sdk.JsonText
import ZkStellar.Sdk.RegistryCalls

set_option autoImplicit false

/-! # Bundles on their way to the contract

A signed bundle may be changed between the party that signs it and the one that submits it. As long
as SHA-256 does not collide on the two contents, its digest fixes the five fields it covers
(`content_eq_of_digest`): whoever imports a bundle that carries the digest of another either is
refused or submits what the other one submits (`transport_binding`). -/

namespace ZkStellar.Sdk

variable {rt : Runtime} {h : Host}

/-- The fields that the digest of a bundle covers. -/
def signedFields : List String :=
  ["proof", "publicSignals", "circuit", "generatedAt", "networkPassphrase"]

/-- Two bundles have the same content if the fields agree. -/
theorem bundleContent_eq_iff {v w : JsValue} :
    bundleContent v = bundleContent w ↔ ∀ field ∈ signedFields, v.get field = w.get field := by
  simp [bundleContent, signedFields]

/-- The bytes that are hashed for the digest of a bundle. -/
def signedBytes (rt : Runtime) (bundle : JsValue) : Bytes :=
  utf8Bytes (rt.stringify false (bundleContent bundle))

theorem utf8Bytes_inj {s t : String} (heq : utf8Bytes s = utf8Bytes t) : s = t := by
  let rt := Runtime.reading .null
  rw [← utf8Text_utf8Bytes rt s, heq, utf8Text_utf8Bytes]

/-- Contents with the same digest are hashed from the same bytes. -/
theorem signedBytes_eq_of_digest {v w : JsValue}
    (hfree : h.CollisionFree [signedBytes rt v, signedBytes rt w])
    (heq : bundleDigest rt h v = bundleDigest rt h w) : signedBytes rt v = signedBytes rt w := by
  have hbytes := congrArg (fun s => hexBytes s.toList) heq
  simp only [bundleDigest, hexBytes_hexText] at hbytes
  refine hfree _ (by simp) _ (by simp) (BytesN.ext ?_)
  exact hbytes

/-! ## Contents that JSON has a text for -/

section

variable {numbers : Set ℚ}

/-- The property of a value from JSON is one too, if it is there. -/
theorem Plain.get {v : JsValue} (hv : Plain numbers v) {name : String}
    (hdefined : v.get name ≠ .undefined) : Plain numbers (v.get name) := by
  rcases hv with _ | _ | _ | _ | _ | @⟨props, hprops⟩
  case object =>
    rw [JsValue.get] at hdefined ⊢
    rcases hfind : props.find? fun p => p.1 == name with _ | p
    · rw [hfind] at hdefined
      exact absurd rfl hdefined
    · rw [hfind]
      exact hprops p (List.mem_of_find?_eq_some hfind)
  all_goals exact absurd rfl hdefined

/-- Setting a property, as signing does, keeps a value one from JSON. -/
theorem Plain.set {v w : JsValue} (hv : Plain numbers v) (hw : Plain numbers w) (name : String) :
    Plain numbers (v.set name w) := by
  rcases hv with _ | _ | hq | _ | helems | @⟨props, hprops⟩
  case object =>
    refine .object ?_
    induction props with
    | nil =>
        intro p hp
        rw [List.mem_singleton.1 hp]
        exact hw
    | cons p props ih =>
        have htail : ∀ p ∈ props, Plain numbers p.2 :=
          fun p hp => hprops p (List.mem_cons_of_mem _ hp)
        rw [setProperty]
        split
        · exact List.forall_mem_cons.2 ⟨hw, htail⟩
        · exact List.forall_mem_cons.2 ⟨hprops p List.mem_cons_self, ih htail⟩
  case null => exact .null
  case boolean => exact .boolean _
  case number => exact .number hq
  case string => exact .string _
  case array => exact .array helems

/-- A sound bundle has all the fields that are signed. -/
theorem Sound.defined {v : JsValue} (hsound : Sound v) :
    ∀ field ∈ signedFields, v.get field ≠ .undefined := by
  have htext : ∀ w, IsText w → w ≠ .undefined := by
    rintro w ⟨s, rfl, -⟩
    exact JsValue.noConfusion
  obtain ⟨signals, hsignals, -⟩ := hsound.encodes
  obtain ⟨props, hprops⟩ := exists_object_of_get hsound.hasShape.protocol
  have hproof : v.get "proof" ≠ .undefined := by
    rw [hprops]
    exact JsValue.noConfusion
  have hsigs : v.get "publicSignals" ≠ .undefined := by
    rw [hsignals]
    exact JsValue.noConfusion
  simpa [signedFields] using ⟨hproof, hsigs, htext _ hsound.circuit, htext _ hsound.generatedAt,
    htext _ hsound.networkPassphrase⟩

/-- The content of a sound bundle from JSON has a text. -/
theorem Sound.plain_content {v : JsValue} (hsound : Sound v) (hv : Plain numbers v) :
    Plain numbers (bundleContent v) := by
  refine .object ?_
  have hfield : ∀ field ∈ signedFields, Plain numbers (v.get field) :=
    fun field hmem => hv.get (hsound.defined field hmem)
  simpa [signedFields] using hfield

/-- As long as SHA-256 does not collide on their contents, sound bundles with the same digest have
    the same content. -/
theorem content_eq_of_digest (hnum : PrintsApart rt.numeral numbers) {v w : JsValue}
    (hv : Plain numbers v) (hw : Plain numbers w) (hsv : Sound v) (hsw : Sound w)
    (hfree : h.CollisionFree [signedBytes rt v, signedBytes rt w])
    (heq : bundleDigest rt h v = bundleDigest rt h w) : bundleContent v = bundleContent w :=
  stringify_inj hnum (hsv.plain_content hv) (hsw.plain_content hw)
    (utf8Bytes_inj (signedBytes_eq_of_digest hfree heq))

end

/-! ## Importing and submitting -/

/-- An object as the SDK takes it for a `ProofBundle`. -/
def ProofBundle.ofObject (v : JsValue) : Option ProofBundle :=
  match v.get "networkPassphrase" with
  | .string networkPassphrase => some ⟨v.get "proof", v.get "publicSignals", networkPassphrase⟩
  | _ => none

/-- What a bundle is submitted as depends on its content only. -/
theorem ProofBundle.ofObject_congr {v w : JsValue}
    (hfields : ∀ field ∈ signedFields, v.get field = w.get field) :
    ProofBundle.ofObject v = ProofBundle.ofObject w := by
  simp only [signedFields, List.forall_mem_cons] at hfields
  obtain ⟨hproof, hsignals, -, -, hnetwork, -⟩ := hfields
  rw [ProofBundle.ofObject, ProofBundle.ofObject, hproof, hsignals, hnetwork]

/-- Fields that agree are in order together. -/
theorem Sound.congr {v w : JsValue} (hsound : Sound w)
    (hfields : ∀ field ∈ signedFields, v.get field = w.get field) : Sound v := by
  simp only [signedFields, List.forall_mem_cons] at hfields
  obtain ⟨hproof, hsignals, hcircuit, hgenerated, hnetwork, -⟩ := hfields
  exact ⟨hcircuit ▸ hsound.circuit, hgenerated ▸ hsound.generatedAt,
    hnetwork ▸ hsound.networkPassphrase, by rw [hproof, hsignals]; exact hsound.encodes⟩

/-- An object with the digest of a sound bundle is imported if it has the bundle's content, and
    then as it is. -/
theorem importValue_iff_content {numbers : Set ℚ} (hnum : PrintsApart rt.numeral numbers)
    {original raw : JsValue} (horiginal : Plain numbers original) (hraw : Plain numbers raw)
    (hsound : Sound original)
    (hfree : h.CollisionFree [signedBytes rt original, signedBytes rt raw])
    (hdigest : raw.get "digest" = .string (bundleDigest rt h original))
    {result : ImportBundleResult} :
    importValue rt h raw = .ok result ↔
      (∀ field ∈ signedFields, raw.get field = original.get field) ∧ result = ⟨raw, true⟩ := by
  have hhas : hasDigest raw = true := hasDigest_iff.2 ⟨_, hdigest⟩
  refine ⟨?_, ?_⟩
  · intro himport
    rcases (importValue_eq_ok_iff rt h).1 himport with ⟨-, ⟨-, hvalid, hresult⟩ | ⟨hno, -⟩⟩
    · obtain ⟨hraw', hcheck⟩ := (valid_iff rt h).1 hvalid
      have hcontent := content_eq_of_digest hnum horiginal hraw hsound hraw' hfree
        (hcheck _ hdigest)
      exact ⟨bundleContent_eq_iff.1 hcontent.symm, hresult⟩
    · exact absurd (hhas.symm.trans hno) Bool.noConfusion
  · rintro ⟨hfields, rfl⟩
    have hsame : bundleDigest rt h raw = bundleDigest rt h original := by
      rw [bundleDigest, bundleDigest, bundleContent_eq_iff.2 hfields]
    refine importValue_of_valid rt h hhas ((valid_iff rt h).2 ⟨hsound.congr hfields, ?_⟩)
    intro d hd
    rw [hdigest] at hd
    exact (JsValue.string.inj hd).symm.trans hsame.symm

/-- Whatever became of a sound bundle on its way: as long as SHA-256 does not collide on the two
    contents, an input that carries its digest is imported if and only if none of the five signed
    fields was changed, and then it is submitted as the bundle itself would be. -/
theorem transport_binding {numbers : Set ℚ} (hnum : PrintsApart rt.numeral numbers)
    {original raw input : JsValue} (horiginal : Plain numbers original)
    (hsound : Sound original) (hread : readInput rt input = .ok raw) (hraw : Plain numbers raw)
    (hdigest : raw.get "digest" = .string (bundleDigest rt h original))
    (hfree : h.CollisionFree [signedBytes rt original, signedBytes rt raw]) :
    ((∃ result, importSignedBundle rt h input = .ok result) ↔
        ∀ field ∈ signedFields, raw.get field = original.get field) ∧
      ∀ result, importSignedBundle rt h input = .ok result → result.integrityVerified = true ∧
        ∀ networkPassphrase circuitId,
          verifyProofRequest networkPassphrase
              ⟨circuitId, none, ProofBundle.ofObject result.bundle⟩
            = verifyProofRequest networkPassphrase
              ⟨circuitId, none, ProofBundle.ofObject original⟩ := by
  have himport : ∀ result, importSignedBundle rt h input = .ok result ↔
      (∀ field ∈ signedFields, raw.get field = original.get field) ∧ result = ⟨raw, true⟩ := by
    intro result
    rw [importSignedBundle_of_readInput rt h hread]
    exact importValue_iff_content hnum horiginal hraw hsound hfree hdigest
  refine ⟨?_, ?_⟩
  · refine ⟨?_, ?_⟩
    · rintro ⟨result, hresult⟩
      exact ((himport result).1 hresult).1
    · intro hfields
      exact ⟨_, (himport _).2 ⟨hfields, rfl⟩⟩
  · intro result hresult
    obtain ⟨hfields, rfl⟩ := (himport result).1 hresult
    refine ⟨rfl, ?_⟩
    intro networkPassphrase circuitId
    rw [ProofBundle.ofObject_congr hfields]

/-! ## A bundle with one property more -/

theorem mem_numeralChars_of_isDigit {c : Char} (hc : c.isDigit = true) : c ∈ numeralChars := by
  rw [← Char.ofNat_toNat c]
  simp only [Char.isDigit, Bool.and_eq_true, decide_eq_true_eq] at hc
  have hlow : 48 ≤ c.toNat := hc.1
  have hhigh : c.toNat ≤ 57 := hc.2
  generalize c.toNat = n at hlow hhigh
  interval_cases n <;> decide

/-- Natural numbers, printed in decimal. -/
theorem printsApart_reading (v : JsValue) :
    PrintsApart (Runtime.reading v).numeral (Set.range fun n : ℕ => (n : ℚ)) := by
  have htext : ∀ n : ℕ, (Runtime.reading v).numeral n = Nat.repr n := fun n => rfl
  refine ⟨?_, ?_, ?_⟩
  · rintro _ ⟨m, rfl⟩ _ ⟨n, rfl⟩ heq
    have hdigits : Nat.toDigits 10 m = Nat.toDigits 10 n := by
      rw [← Nat.toList_repr, ← Nat.toList_repr, ← htext, ← htext]
      exact congrArg String.toList heq
    have hvalue := congrArg (Nat.ofDigitChars 10 · 0) hdigits
    simp only [Nat.ofDigitChars_ten_toDigits] at hvalue
    rw [hvalue]
  · rintro _ ⟨n, rfl⟩
    exact Nat.repr_ne_empty
  · rintro _ ⟨n, rfl⟩ c hc
    rw [htext, Nat.toList_repr] at hc
    exact mem_numeralChars_of_isDigit (Nat.isDigit_of_mem_toDigits (by decide) (by decide) hc)

/-- The bundle of the all-zero proof. -/
def zeroBundle : JsValue := .object (sampleBundle zeroProof "preimage")

/-- The same bundle, signed and with one property more. -/
def forwardedBundle : JsValue :=
  (signBundle (Runtime.reading .null) Host.scalar zeroBundle).set "hops" (.number (.ofNat 2))

theorem plain_zeroBundle {numbers : Set ℚ} : Plain numbers zeroBundle := by
  have hzero : Plain numbers (.string "0") := .string "0"
  have hpair : Plain numbers (.array [.string "0", .string "0"]) := .array (by simp [hzero])
  have hpoint : Plain numbers (.array [.string "0", .string "0", .string "0"]) :=
    .array (by simp [hzero])
  have hproof : Plain numbers zeroProof := by
    refine .object ?_
    simp only [List.forall_mem_cons]
    exact ⟨hpoint, .array (by simp [hpair]), hpoint, .string _, fun _ hmem => nomatch hmem⟩
  refine .object ?_
  simp only [sampleBundle, List.forall_mem_cons]
  exact ⟨hproof, .array (fun _ hmem => nomatch hmem), .string _, .string _, .string _,
    fun _ hmem => nomatch hmem⟩

theorem sound_zeroBundle : Sound zeroBundle :=
  ⟨⟨_, rfl, by decide +kernel⟩, ⟨_, rfl, by decide +kernel⟩, ⟨_, rfl, by decide +kernel⟩,
    zeroProof_encodes⟩

/-- The property more is no reason to refuse it. -/
theorem transport_binding_forwarded :
    let rt := Runtime.reading .null
    ((∃ result, importSignedBundle rt Host.scalar forwardedBundle = .ok result) ↔
        ∀ field ∈ signedFields, forwardedBundle.get field = zeroBundle.get field) ∧
      ∀ result, importSignedBundle rt Host.scalar forwardedBundle = .ok result →
        result.integrityVerified = true ∧
        ∀ networkPassphrase circuitId,
          verifyProofRequest networkPassphrase
              ⟨circuitId, none, ProofBundle.ofObject result.bundle⟩
            = verifyProofRequest networkPassphrase
              ⟨circuitId, none, ProofBundle.ofObject zeroBundle⟩ :=
  transport_binding (printsApart_reading .null) plain_zeroBundle sound_zeroBundle rfl
    ((plain_zeroBundle.set (.string _) "digest").set (Plain.number (Set.mem_range_self 2)) "hops")
    (by rw [forwardedBundle, get_set_of_ne _ (by decide), zeroBundle, get_signBundle_digest])
    (by
      have hsame : signedBytes (Runtime.reading .null) forwardedBundle
          = signedBytes (Runtime.reading .null) zeroBundle := rfl
      rw [hsame]
      intro m hm m' hm' _
      simp only [List.mem_cons, List.not_mem_nil, or_false, or_self] at hm hm'
      rw [hm, hm'])

end ZkStellar.Sdk

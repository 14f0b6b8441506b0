import ZkStellar.Sdk.Proof

set_option autoImplicit false

/-! # Which proofs `formatProof` accepts

`WellFormed` lists what a proof, its public signals and its expiry ledger have to look like, with
the bound on the coordinates as a parameter. `formatProof` is two validators in a row; together
they accept exactly the inputs that are well formed for the order of the scalar field
(`formatProof_accepts_iff`). Coordinates live in the base field, whose order is larger, so the
points with a coordinate between the two are turned away. -/

namespace ZkStellar.Sdk

/-- The order of the field the coordinates of the curve's points live in. -/
def bn254BaseFieldOrder : ℕ :=
  21888242871839275222246405745257275088696311157297823662689037894645226208583

/-! ## Well-formed inputs -/

/-- A decimal string for a number below `bound`. -/
def IsDecimalBelow (bound : ℕ) (value : JsValue) : Prop :=
  ∃ s, value = .string s ∧ isDecimal s = true ∧ bigInt s < bound

/-- A decimal or hexadecimal string for a number below `bound`. -/
def IsNumeralBelow (bound : ℕ) (value : JsValue) : Prop :=
  ∃ s, value = .string s ∧ isDecimalOrHex s = true ∧ bigInt s < bound

/-- An array with at least two entries. -/
def HasTwoEntries (value : JsValue) : Prop := ∃ elems, value = .array elems ∧ 2 ≤ elems.length

/-- The eight affine coordinates of a proof. -/
def coordinates (proof : JsValue) : List JsValue :=
  let a := proof.get "pi_a"
  let b := proof.get "pi_b"
  let c := proof.get "pi_c"
  [a.index 0, a.index 1, (b.index 0).index 0, (b.index 0).index 1, (b.index 1).index 0,
    (b.index 1).index 1, c.index 0, c.index 1]

/-- A well-formed input of `formatProof`, the coordinates being bounded by `bound`. -/
structure WellFormed (bound : ℕ) (proof : JsValue) (publicSignals : List JsValue)
    (expiryLedger : Option JsNumber) : Prop where
  protocol : proof.get "protocol" = .string "groth16"
  piA : HasTwoEntries (proof.get "pi_a")
  piB : HasTwoEntries (proof.get "pi_b")
  piB0 : HasTwoEntries ((proof.get "pi_b").index 0)
  piB1 : HasTwoEntries ((proof.get "pi_b").index 1)
  piC : HasTwoEntries (proof.get "pi_c")
  coordinate : ∀ c ∈ coordinates proof, IsDecimalBelow bound c
  signal : ∀ s ∈ publicSignals, IsNumeralBelow bn254FieldModulus s
  expiry : ∀ e, expiryLedger = some e → ∃ n : UInt32, e = .ofNat n.toNat

theorem IsDecimalBelow.mono {bound bound' : ℕ} (hle : bound ≤ bound') {value : JsValue}
    (h : IsDecimalBelow bound value) : IsDecimalBelow bound' value := by
  obtain ⟨s, hs, hdecimal, hlt⟩ := h
  exact ⟨s, hs, hdecimal, hlt.trans_le hle⟩

theorem IsDecimalBelow.isNumeralBelow {bound : ℕ} {value : JsValue}
    (h : IsDecimalBelow bound value) : IsNumeralBelow bound value := by
  obtain ⟨s, hs, hdecimal, hlt⟩ := h
  exact ⟨s, hs, by simp [isDecimalOrHex, hdecimal], hlt⟩

/-! ## The validator -/

theorem assertArray_eq_ok_iff {value : JsValue} {field : String} {n : ℕ} {elems : List JsValue} :
    assertArray value field n = .ok elems ↔ value = .array elems ∧ n ≤ elems.length := by
  cases value with
  | array elems' =>
      by_cases hshort : elems'.length < n
      · simp only [assertArray, hshort, if_true, reduceCtorEq, false_iff, not_and, not_le,
          JsValue.array.injEq]
        rintro rfl
        exact hshort
      · simp only [assertArray, hshort, if_false, Except.ok.injEq, JsValue.array.injEq]
        constructor
        · rintro rfl
          exact ⟨rfl, not_lt.1 hshort⟩
        · exact And.left
  | _ => simp [assertArray]

theorem assertProofFieldElement_eq_ok_iff {value : JsValue} {field : String} {u : Unit} :
    assertProofFieldElement value field = .ok u ↔ IsDecimalBelow bn254FieldModulus value := by
  cases value with
  | string s =>
      by_cases hdecimal : isDecimal s = true
      · by_cases hlt : bigInt s < bn254FieldModulus
        · simp [assertProofFieldElement, IsDecimalBelow, hdecimal, hlt]
        · simp [assertProofFieldElement, IsDecimalBelow, hdecimal, hlt, not_lt.1 hlt]
      · simp [assertProofFieldElement, IsDecimalBelow, hdecimal]
  | _ => simp [assertProofFieldElement, IsDecimalBelow]

theorem validateSignal_eq_ok_iff {index : ℕ} {signal : JsValue} {u : Unit} :
    validateSignal index signal = .ok u ↔ IsNumeralBelow bn254FieldModulus signal := by
  cases signal with
  | string s =>
      by_cases hpattern : isDecimalOrHex s = true
      · by_cases hlt : bigInt s < bn254FieldModulus
        · have hfits : ¬ max32ByteValue ≤ bigInt s := not_le.2 (hlt.trans (by decide))
          simp [validateSignal, IsNumeralBelow, hpattern, hlt, hfits]
        · by_cases hfits : max32ByteValue ≤ bigInt s <;>
            simp [validateSignal, IsNumeralBelow, hpattern, hlt, hfits, not_lt.1 hlt]
      · simp [validateSignal, IsNumeralBelow, hpattern]
  | _ => simp [validateSignal, IsNumeralBelow]

/-- A point of two coordinates, or a row of one. -/
def IsPair (value : JsValue) : Prop :=
  HasTwoEntries value ∧ IsDecimalBelow bn254FieldModulus (value.index 0) ∧
    IsDecimalBelow bn254FieldModulus (value.index 1)

theorem validatePair_eq_ok_iff {value : JsValue} {field : String} {u : Unit} :
    validatePair value field = .ok u ↔ IsPair value := by
  simp only [validatePair, bind_eq_ok_iff, assertArray_eq_ok_iff,
    assertProofFieldElement_eq_ok_iff, exists_const]
  constructor
  · rintro ⟨elems, ⟨rfl, hlen⟩, h0, h1⟩
    exact ⟨⟨elems, rfl, hlen⟩, h0, h1⟩
  · rintro ⟨⟨elems, rfl, hlen⟩, h0, h1⟩
    exact ⟨elems, ⟨rfl, hlen⟩, h0, h1⟩

theorem validatePublicSignals_eq_ok_iff {publicSignals : List JsValue} {u : Unit} :
    validatePublicSignals (.array publicSignals) = .ok u ↔
      ∀ s ∈ publicSignals, IsNumeralBelow bn254FieldModulus s :=
  forEachFrom_eq_ok_iff (p := IsNumeralBelow bn254FieldModulus)
    fun _ _ _ => validateSignal_eq_ok_iff

/-- A value with a property is an object. -/
theorem notAnObject_of_get {proof : JsValue} {name s : String} (h : proof.get name = .string s) :
    notAnObject proof = false := by
  cases proof <;> first | rfl | cases h

theorem validateProofInput_eq_ok_iff {proof : JsValue} {publicSignals : List JsValue} {u : Unit} :
    validateProofInput proof (.array publicSignals) = .ok u ↔
      proof.get "protocol" = .string "groth16" ∧ IsPair (proof.get "pi_a") ∧
      HasTwoEntries (proof.get "pi_b") ∧ IsPair ((proof.get "pi_b").index 0) ∧
      IsPair ((proof.get "pi_b").index 1) ∧ IsPair (proof.get "pi_c") ∧
      ∀ s ∈ publicSignals, IsNumeralBelow bn254FieldModulus s := by
  simp only [validateProofInput, bind_eq_ok_iff, throwIf_eq_ok_iff, validatePair_eq_ok_iff,
    validatePublicSignals_eq_ok_iff, assertArray_eq_ok_iff, exists_const, Bool.not_eq_false',
    isString_eq_true_iff]
  constructor
  · rintro ⟨-, hprotocol, ha, elems, ⟨hb, hlen⟩, h0, h1, hc, hsignals⟩
    simp only [hb, JsValue.index]
    exact ⟨hprotocol, ha, ⟨elems, rfl, hlen⟩, h0, h1, hc, hsignals⟩
  · rintro ⟨hprotocol, ha, ⟨elems, hb, hlen⟩, h0, h1, hc, hsignals⟩
    simp only [hb, JsValue.index] at h0 h1
    exact ⟨notAnObject_of_get hprotocol, hprotocol, ha, elems, ⟨hb, hlen⟩, h0, h1, hc, hsignals⟩

/-! ## The encoders -/

/-- Numerals in range are parsed. -/
theorem parseFieldElement_of_isNumeralBelow {value : JsValue}
    (h : IsNumeralBelow bn254FieldModulus value) (code : SorobanZkErrorCode) (label : String) :
    ∃ v, parseFieldElement value code label = .ok v := by
  obtain ⟨s, rfl, hpattern, hlt⟩ := h
  exact ⟨bigInt s, parseFieldElement_eq_ok_iff.2 ⟨hlt, s, rfl, hpattern, rfl⟩⟩

theorem encodeG1_of_isPair {point : JsValue} (h : IsPair point) (label : String) :
    ∃ bytes, encodeG1 point label = .ok bytes := by
  obtain ⟨-, hx, hy⟩ := h
  obtain ⟨x, hx⟩ := parseFieldElement_of_isNumeralBelow hx.isNumeralBelow .invalidProofFormat
    (label ++ ".x")
  obtain ⟨y, hy⟩ := parseFieldElement_of_isNumeralBelow hy.isNumeralBelow .invalidProofFormat
    (label ++ ".y")
  simp only [encodeG1, bind_eq_ok_iff]
  exact ⟨_, x, hx, y, hy, rfl⟩

theorem encodeG2_of_isPair {point : JsValue} (h0 : IsPair (point.index 0))
    (h1 : IsPair (point.index 1)) (label : String) :
    ∃ bytes, encodeG2 point label = .ok bytes := by
  obtain ⟨-, hxC0, hxC1⟩ := h0
  obtain ⟨-, hyC0, hyC1⟩ := h1
  obtain ⟨xC0, hxC0⟩ := parseFieldElement_of_isNumeralBelow hxC0.isNumeralBelow .invalidProofFormat
    (label ++ ".x.c0")
  obtain ⟨xC1, hxC1⟩ := parseFieldElement_of_isNumeralBelow hxC1.isNumeralBelow .invalidProofFormat
    (label ++ ".x.c1")
  obtain ⟨yC0, hyC0⟩ := parseFieldElement_of_isNumeralBelow hyC0.isNumeralBelow .invalidProofFormat
    (label ++ ".y.c0")
  obtain ⟨yC1, hyC1⟩ := parseFieldElement_of_isNumeralBelow hyC1.isNumeralBelow .invalidProofFormat
    (label ++ ".y.c1")
  simp only [encodeG2, bind_eq_ok_iff]
  exact ⟨_, xC0, hxC0, xC1, hxC1, yC0, hyC0, yC1, hyC1, rfl⟩

theorem encodePublicInputs_of_isNumeralBelow {signals : List JsValue}
    (h : ∀ s ∈ signals, IsNumeralBelow bn254FieldModulus s) (index : ℕ) :
    ∃ inputs, encodePublicInputs index signals = .ok inputs := by
  induction signals generalizing index with
  | nil => exact ⟨[], rfl⟩
  | cons signal signals ih =>
      obtain ⟨hsignal, hsignals⟩ := List.forall_mem_cons.1 h
      obtain ⟨v, hv⟩ := parseFieldElement_of_isNumeralBelow hsignal .invalidPublicInput
        ("publicSignals[" ++ toString index ++ "]")
      obtain ⟨rest, hrest⟩ := ih hsignals (index + 1)
      simp only [encodePublicInputs, bind_eq_ok_iff]
      exact ⟨_, v, hv, rest, hrest, rfl⟩

theorem appendExpiry_accepts_iff {inputs : List Bytes} {expiryLedger : Option JsNumber} :
    (∃ inputs', appendExpiry inputs expiryLedger = .ok inputs') ↔
      ∀ e, expiryLedger = some e → ∃ n : UInt32, e = .ofNat n.toNat := by
  cases expiryLedger with
  | none => simp [appendExpiry]
  | some e =>
      simp only [appendExpiry_some_eq_ok_iff, Option.some.injEq, forall_eq']
      constructor
      · rintro ⟨_, n, he, -⟩
        exact ⟨n, he⟩
      · rintro ⟨n, he⟩
        exact ⟨_, n, he, rfl⟩

/-- An array with two entries passes the length test. -/
theorem shorterThan_of_hasTwoEntries {value : JsValue} (h : HasTwoEntries value) :
    value.shorterThan 2 = false := by
  obtain ⟨elems, rfl, hlen⟩ := h
  exact decide_eq_false (not_lt.2 hlen)

/-! ## The two together -/

section

variable {proof : JsValue} {publicSignals : List JsValue} {expiryLedger : Option JsNumber}

/-- The validator accepts a proof and its signals if they are well formed. -/
theorem validateProofInput_iff_wellFormed {u : Unit} :
    validateProofInput proof (.array publicSignals) = .ok u ↔
      WellFormed bn254FieldModulus proof publicSignals none := by
  rw [validateProofInput_eq_ok_iff]
  constructor
  · rintro ⟨hprotocol, ha, hb, hb0, hb1, hc, hsignals⟩
    refine ⟨hprotocol, ha.1, hb, hb0.1, hb1.1, hc.1, ?_, hsignals, by simp⟩
    simp [coordinates, ha.2, hb0.2, hb1.2, hc.2]
  · intro h
    have hcoordinates := h.coordinate
    simp only [coordinates, List.forall_mem_cons] at hcoordinates
    obtain ⟨ax, ay, bx0, bx1, by0, by1, cx, cy, -⟩ := hcoordinates
    exact ⟨h.protocol, ⟨h.piA, ax, ay⟩, h.piB, ⟨h.piB0, bx0, bx1⟩, ⟨h.piB1, by0, by1⟩,
      ⟨h.piC, cx, cy⟩, h.signal⟩

/-- `formatProof` accepts the inputs that are well formed for the order of the scalar field. -/
theorem formatProof_accepts_iff :
    (∃ calldata, formatProof proof (.array publicSignals) expiryLedger = .ok calldata) ↔
      WellFormed bn254FieldModulus proof publicSignals expiryLedger := by
  simp only [formatProof_eq_ok_iff]
  constructor
  · rintro ⟨calldata, hvalid, -, -, _, inputs, -, -, hexpiry, -⟩
    exact { validateProofInput_iff_wellFormed.1 hvalid with
      expiry := appendExpiry_accepts_iff.1 ⟨_, hexpiry⟩ }
  · intro h
    have hvalid : validateProofInput proof (.array publicSignals) = .ok () :=
      validateProofInput_iff_wellFormed.2 { h with expiry := by simp }
    obtain ⟨-, ha, -, hb0, hb1, hc, -⟩ := validateProofInput_eq_ok_iff.1 hvalid
    obtain ⟨inputs, hinputs⟩ := encodePublicInputs_of_isNumeralBelow h.signal 0
    obtain ⟨inputs', hexpiry⟩ : ∃ inputs', appendExpiry inputs expiryLedger = .ok inputs' :=
      appendExpiry_accepts_iff.2 h.expiry
    obtain ⟨a, hproofA⟩ := encodeG1_of_isPair ha "pi_a"
    obtain ⟨b, hproofB⟩ := encodeG2_of_isPair hb0 hb1 "pi_b"
    obtain ⟨c, hproofC⟩ := encodeG1_of_isPair hc "pi_c"
    exact ⟨⟨a, b, c, inputs'⟩, hvalid,
      isString_eq_true_iff.2 h.protocol,
      by simp [shorterThan_of_hasTwoEntries h.piA, shorterThan_of_hasTwoEntries h.piB,
        shorterThan_of_hasTwoEntries h.piC],
      publicSignals, inputs, rfl, hinputs, hexpiry, hproofA, hproofB, hproofC⟩

/-- Being well formed for a larger bound asks less. -/
theorem WellFormed.mono {bound bound' : ℕ} (hle : bound ≤ bound')
    (h : WellFormed bound proof publicSignals expiryLedger) :
    WellFormed bound' proof publicSignals expiryLedger :=
  { h with coordinate := fun c hc => (h.coordinate c hc).mono hle }

theorem bn254FieldModulus_lt : bn254FieldModulus < bn254BaseFieldOrder := by decide

/-- A coordinate that the base field has and the scalar field does not. -/
def InGap (value : JsValue) : Prop :=
  ∃ s, value = .string s ∧ bn254FieldModulus ≤ bigInt s ∧ bigInt s < bn254BaseFieldOrder

/-- `formatProof` accepts exactly the inputs that are well formed over the base field, unless such
    an input has a coordinate in the gap between the two fields. -/
theorem formatProof_accepts_base_iff :
    ((∃ calldata, formatProof proof (.array publicSignals) expiryLedger = .ok calldata) ↔
      WellFormed bn254BaseFieldOrder proof publicSignals expiryLedger) ↔
    ¬ (WellFormed bn254BaseFieldOrder proof publicSignals expiryLedger ∧
      ∃ c ∈ coordinates proof, InGap c) := by
  rw [formatProof_accepts_iff]
  constructor
  · rintro hiff ⟨hbase, c, hc, s, rfl, hge, -⟩
    obtain ⟨_, heq, -, hlt⟩ := (hiff.2 hbase).coordinate _ hc
    cases heq
    exact absurd hlt (not_lt.2 hge)
  · intro hgap
    refine ⟨WellFormed.mono bn254FieldModulus_lt.le, ?_⟩
    intro hbase
    refine { hbase with coordinate := fun c hc => ?_ }
    obtain ⟨s, hs, hdecimal, hlt⟩ := hbase.coordinate c hc
    by_cases hsmall : bigInt s < bn254FieldModulus
    · exact ⟨s, hs, hdecimal, hsmall⟩
    · exact absurd ⟨hbase, c, hc, s, hs, not_lt.1 hsmall, hlt⟩ hgap

end

/-- A proof as snarkjs writes it, whose first point is the negation of the generator; the other
    points are the points at infinity. -/
def negatedGenerator : JsValue :=
  let zero : JsValue := .string "0"
  let one : JsValue := .string "1"
  .object [("pi_a", .array [one, .string
      "21888242871839275222246405745257275088696311157297823662689037894645226208581", one]),
    ("pi_b", .array [.array [zero, zero], .array [one, zero], .array [zero, zero]]),
    ("pi_c", .array [zero, one, zero]), ("protocol", .string "groth16")]

/-- The generator's negation is a well-formed point, and `formatProof` rejects it. -/
theorem negated_generator_rejected :
    ¬ ((∃ calldata, formatProof negatedGenerator (.array []) none = .ok calldata) ↔
      WellFormed bn254BaseFieldOrder negatedGenerator [] none) := by
  rw [formatProof_accepts_iff]
  intro hiff
  have hbase : WellFormed bn254BaseFieldOrder negatedGenerator [] none := by
    refine ⟨rfl, ⟨_, rfl, by decide⟩, ⟨_, rfl, by decide⟩, ⟨_, rfl, by decide⟩,
      ⟨_, rfl, by decide⟩, ⟨_, rfl, by decide⟩, ?_, by simp, by simp⟩
    simp only [coordinates, List.forall_mem_cons]
    refine ⟨⟨_, rfl, ?_, ?_⟩, ⟨_, rfl, ?_, ?_⟩, ⟨_, rfl, ?_, ?_⟩, ⟨_, rfl, ?_, ?_⟩,
      ⟨_, rfl, ?_, ?_⟩, ⟨_, rfl, ?_, ?_⟩, ⟨_, rfl, ?_, ?_⟩, ⟨_, rfl, ?_, ?_⟩, by simp⟩ <;>
      decide +kernel
  obtain ⟨_, heq, -, hlt⟩ := (hiff.2 hbase).coordinate ((negatedGenerator.get "pi_a").index 1)
    (by simp [coordinates])
  cases heq
  revert hlt
  decide +kernel

end ZkStellar.Sdk

import ZkStellar.Sdk.Proof

set_option autoImplicit false

/-! # What the calldata of a proof says

The numerals of a proof denote integers (`denoted`). The calldata `formatProof` makes of them
spells these integers and nothing else: cut into 32-byte words it gives them back, so two inputs
have one calldata exactly when they denote the same integers (`formatProof_faithful`). -/

namespace ZkStellar.Sdk

/-- The integer a numeral denotes, `BigInt(value)`. -/
def denoted : JsValue → ℕ
  | .string s => bigInt s
  | _ => 0

/-- The two coordinates of `pi_a` or `pi_c`. -/
def g1Integers (point : JsValue) : List ℕ := [denoted (point.index 0), denoted (point.index 1)]

/-- The four components of `pi_b`, the higher component of each coordinate first. -/
def g2Integers (point : JsValue) : List ℕ :=
  [denoted ((point.index 0).index 1), denoted ((point.index 0).index 0),
    denoted ((point.index 1).index 1), denoted ((point.index 1).index 0)]

/-- The integers of the public inputs: the signals in order, then the expiry ledger, if given. -/
def inputIntegers (publicSignals : List JsValue) (expiryLedger : Option JsNumber) : List ℕ :=
  publicSignals.map denoted ++ (expiryLedger.map JsNumber.toNat).toList

/-! ## Encoders and integers -/

/-- A numeral that is parsed is written as the 32 bytes of what it denotes. -/
theorem bytes_of_parseFieldElement {value : JsValue} {code : SorobanZkErrorCode} {label : String}
    {v : ℕ} (hok : parseFieldElement value code label = .ok v) :
    (bigintToBytes32 v).length = 32 ∧ beNat (bigintToBytes32 v) = denoted value := by
  have hlt := lt_of_parseFieldElement hok
  obtain ⟨-, s, rfl, -, rfl⟩ := parseFieldElement_eq_ok_iff.1 hok
  exact ⟨length_bigintToBytes32 hlt, by rw [bigintToBytes32_eq hlt, beNat_toBe_of_lt hlt]; rfl⟩

theorem beWords_of_encodeG1 {point : JsValue} {label : String} {bytes : Bytes}
    (hok : encodeG1 point label = .ok bytes) : beWords 32 bytes = g1Integers point := by
  simp only [encodeG1, bind_eq_ok_iff] at hok
  obtain ⟨x, hx, y, hy, hpure⟩ := hok
  cases hpure
  obtain ⟨hxlen, hx⟩ := bytes_of_parseFieldElement hx
  obtain ⟨hylen, hy⟩ := bytes_of_parseFieldElement hy
  rw [beWords_append (by decide) hxlen, beWords_of_length (by decide) hylen, hx, hy, g1Integers]

theorem beWords_of_encodeG2 {point : JsValue} {label : String} {bytes : Bytes}
    (hok : encodeG2 point label = .ok bytes) : beWords 32 bytes = g2Integers point := by
  simp only [encodeG2, bind_eq_ok_iff] at hok
  obtain ⟨xC0, hxC0, xC1, hxC1, yC0, hyC0, yC1, hyC1, hpure⟩ := hok
  cases hpure
  obtain ⟨hxC0len, hxC0⟩ := bytes_of_parseFieldElement hxC0
  obtain ⟨hxC1len, hxC1⟩ := bytes_of_parseFieldElement hxC1
  obtain ⟨hyC0len, hyC0⟩ := bytes_of_parseFieldElement hyC0
  obtain ⟨hyC1len, hyC1⟩ := bytes_of_parseFieldElement hyC1
  rw [List.append_assoc, List.append_assoc, beWords_append (by decide) hxC1len,
    beWords_append (by decide) hxC0len, beWords_append (by decide) hyC1len,
    beWords_of_length (by decide) hyC0len, hxC0, hxC1, hyC0, hyC1, g2Integers]

theorem beNat_of_encodePublicInputs {index : ℕ} {signals : List JsValue} {inputs : List Bytes}
    (hok : encodePublicInputs index signals = .ok inputs) :
    inputs.map beNat = signals.map denoted := by
  induction signals generalizing index inputs with
  | nil =>
      cases hok
      rfl
  | cons signal signals ih =>
      simp only [encodePublicInputs, bind_eq_ok_iff] at hok
      obtain ⟨v, hv, rest, hrest, hpure⟩ := hok
      cases hpure
      rw [List.map_cons, List.map_cons, (bytes_of_parseFieldElement hv).2, ih hrest]

theorem beNat_of_appendExpiry {inputs inputs' : List Bytes} {expiryLedger : Option JsNumber}
    (hok : appendExpiry inputs expiryLedger = .ok inputs') :
    inputs'.map beNat = inputs.map beNat ++ (expiryLedger.map JsNumber.toNat).toList := by
  cases expiryLedger with
  | none =>
      cases hok
      simp
  | some e =>
      obtain ⟨n, rfl, rfl⟩ := appendExpiry_some_eq_ok_iff.1 hok
      simp [beNat_toBe_of_lt (n.toNat_lt.trans (by decide : 2 ^ 32 < 256 ^ 32))]

/-! ## Calldata and integers -/

/-- The integers calldata spells, word by word. -/
structure SorobanProofCalldata.Spells (calldata : SorobanProofCalldata) (proof : JsValue)
    (publicSignals : List JsValue) (expiryLedger : Option JsNumber) : Prop where
  proofA : beWords 32 calldata.proofA = g1Integers (proof.get "pi_a")
  proofB : beWords 32 calldata.proofB = g2Integers (proof.get "pi_b")
  proofC : beWords 32 calldata.proofC = g1Integers (proof.get "pi_c")
  publicInputs : calldata.publicInputs.map beNat = inputIntegers publicSignals expiryLedger

theorem spells_of_formatProof {proof : JsValue} {publicSignals : List JsValue}
    {expiryLedger : Option JsNumber} {calldata : SorobanProofCalldata}
    (hok : formatProof proof (.array publicSignals) expiryLedger = .ok calldata) :
    calldata.Spells proof publicSignals expiryLedger := by
  obtain ⟨-, -, -, signals, inputs, hsignals, hinputs, hexpiry, ha, hb, hc⟩ :=
    formatProof_eq_ok_iff.1 hok
  cases hsignals
  refine ⟨beWords_of_encodeG1 ha, beWords_of_encodeG2 hb, beWords_of_encodeG1 hc, ?_⟩
  rw [beNat_of_appendExpiry hexpiry, beNat_of_encodePublicInputs hinputs, inputIntegers]

/-- Words of 32 bytes are determined by the numbers they spell. -/
theorem eq_of_map_beNat {n : ℕ} {bs bs' : List Bytes} (hbs : ∀ b ∈ bs, b.length = n)
    (hbs' : ∀ b ∈ bs', b.length = n) (h : bs.map beNat = bs'.map beNat) : bs = bs' := by
  induction bs generalizing bs' with
  | nil => simpa using h
  | cons b bs ih =>
      cases bs' with
      | nil => simp at h
      | cons b' bs' =>
          rw [List.map_cons, List.map_cons, List.cons.injEq] at h
          obtain ⟨hb, hbs⟩ := List.forall_mem_cons.1 hbs
          obtain ⟨hb', hbs'⟩ := List.forall_mem_cons.1 hbs'
          rw [beNat_inj (hb.trans hb'.symm) h.1, ih hbs hbs' h.2]

/-- Calldata of the contracts' lengths is determined by its words. -/
theorem SorobanProofCalldata.WellSized.eq_of_words {calldata calldata' : SorobanProofCalldata}
    (h : calldata.WellSized) (h' : calldata'.WellSized)
    (ha : beWords 32 calldata.proofA = beWords 32 calldata'.proofA)
    (hb : beWords 32 calldata.proofB = beWords 32 calldata'.proofB)
    (hc : beWords 32 calldata.proofC = beWords 32 calldata'.proofC)
    (hinputs : calldata.publicInputs.map beNat = calldata'.publicInputs.map beNat) :
    calldata = calldata' := by
  obtain ⟨hlenA, hlenB, hlenC, hlen⟩ := h
  obtain ⟨hlenA', hlenB', hlenC', hlen'⟩ := h'
  have heqA := beWords_inj (k := 2) (by decide) hlenA hlenA' ha
  have heqB := beWords_inj (k := 4) (by decide) hlenB hlenB' hb
  have heqC := beWords_inj (k := 2) (by decide) hlenC hlenC' hc
  have heq := eq_of_map_beNat hlen hlen' hinputs
  cases calldata
  cases calldata'
  simp only at heqA heqB heqC heq
  rw [heqA, heqB, heqC, heq]

section

variable {proof proof' : JsValue} {publicSignals publicSignals' : List JsValue}
  {expiryLedger expiryLedger' : Option JsNumber} {calldata calldata' : SorobanProofCalldata}

/-- Two inputs have one calldata exactly when they denote the same integers. -/
theorem calldata_eq_iff
    (hok : formatProof proof (.array publicSignals) expiryLedger = .ok calldata)
    (hok' : formatProof proof' (.array publicSignals') expiryLedger' = .ok calldata') :
    calldata = calldata' ↔
      g1Integers (proof.get "pi_a") = g1Integers (proof'.get "pi_a") ∧
      g2Integers (proof.get "pi_b") = g2Integers (proof'.get "pi_b") ∧
      g1Integers (proof.get "pi_c") = g1Integers (proof'.get "pi_c") ∧
      inputIntegers publicSignals expiryLedger = inputIntegers publicSignals' expiryLedger' := by
  have h := spells_of_formatProof hok
  have h' := spells_of_formatProof hok'
  rw [← h.proofA, ← h.proofB, ← h.proofC, ← h.publicInputs, ← h'.proofA, ← h'.proofB,
    ← h'.proofC, ← h'.publicInputs]
  constructor
  · rintro rfl
    exact ⟨rfl, rfl, rfl, rfl⟩
  · rintro ⟨ha, hb, hc, hinputs⟩
    exact (wellSized_of_formatProof hok).eq_of_words (wellSized_of_formatProof hok') ha hb hc
      hinputs

/-- `formatProof` is a faithful encoding of fixed widths. -/
theorem formatProof_faithful
    (hok : formatProof proof (.array publicSignals) expiryLedger = .ok calldata)
    (hok' : formatProof proof' (.array publicSignals') expiryLedger' = .ok calldata') :
    calldata.WellSized ∧ calldata.Spells proof publicSignals expiryLedger ∧
      (calldata = calldata' ↔
        g1Integers (proof.get "pi_a") = g1Integers (proof'.get "pi_a") ∧
        g2Integers (proof.get "pi_b") = g2Integers (proof'.get "pi_b") ∧
        g1Integers (proof.get "pi_c") = g1Integers (proof'.get "pi_c") ∧
        inputIntegers publicSignals expiryLedger = inputIntegers publicSignals' expiryLedger') ∧
      validateCalldata calldata = .ok () :=
  ⟨wellSized_of_formatProof hok, spells_of_formatProof hok, calldata_eq_iff hok hok',
    validateCalldata_eq_ok_iff.2 (wellSized_of_formatProof hok)⟩

end

/-- The signal `7` in decimal, and in hexadecimal with leading zeros: one calldata. -/
theorem formatProof_faithful_spellings :
    (zeroCalldata 7).WellSized ∧ (zeroCalldata 7).Spells zeroProof [.string "7"] none ∧
      (zeroCalldata 7 = zeroCalldata 7 ↔
        g1Integers (zeroProof.get "pi_a") = g1Integers (zeroProof.get "pi_a") ∧
        g2Integers (zeroProof.get "pi_b") = g2Integers (zeroProof.get "pi_b") ∧
        g1Integers (zeroProof.get "pi_c") = g1Integers (zeroProof.get "pi_c") ∧
        inputIntegers [.string "7"] none = inputIntegers [.string "0x0007"] none) ∧
      validateCalldata (zeroCalldata 7) = .ok () :=
  formatProof_faithful (by decide +kernel) (by decide +kernel)

end ZkStellar.Sdk

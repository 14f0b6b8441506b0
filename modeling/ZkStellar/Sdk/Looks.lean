import ZkStellar.Sdk.Accepted

set_option autoImplicit false

/-! # Looks at a value

The SDK's checks end in three ways: all is fine, the value is rejected with an error of the SDK, or
describing the value in that error makes the language throw. A check is a list of looks, which do
not depend on each other, and it ends as the first look that is not fine (`outcome_bind_append`).
For `formatProof` the looks are those of its validator and one at the expiry ledger
(`outcome_formatProof`). -/

namespace ZkStellar.Sdk

/-! ## The first look that is not fine -/

/-- How a look at a value ends: all is fine, it is rejected, or the language throws. -/
inductive Look where
  | fine
  | rejected
  | broken
deriving DecidableEq

/-- The first look that is not fine. -/
def firstOf : List Look → Look
  | [] => .fine
  | .fine :: looks => firstOf looks
  | .rejected :: _ => .rejected
  | .broken :: _ => .broken

/-- How a computation ends. -/
def outcome {α : Type} : Except JsException α → Look
  | .ok _ => .fine
  | .error (.zk _) => .rejected
  | .error .typeError => .broken

theorem firstOf_append (l l' : List Look) :
    firstOf (l ++ l') = if firstOf l = .fine then firstOf l' else firstOf l := by
  induction l with
  | nil => rfl
  | cons look l ih =>
      cases look with
      | fine => exact ih
      | rejected => rfl
      | broken => rfl

/-- A computation whose second half always ends the same way. -/
theorem outcome_bind_append {α β : Type} {x : Except JsException α} {f : α → Except JsException β}
    {k l : List Look} (hx : outcome x = firstOf k)
    (hf : ∀ a, x = .ok a → outcome (f a) = firstOf l) :
    outcome (x >>= f) = firstOf (k ++ l) := by
  rw [firstOf_append, ← hx]
  cases x with
  | ok a => exact hf a rfl
  | error e => cases e <;> rfl

theorem firstOf_singleton (look : Look) : firstOf [look] = look := by cases look <;> rfl

theorem outcome_bind {α β : Type} {x : Except JsException α} {f : α → Except JsException β}
    {look : Look} {l : List Look} (hx : outcome x = look)
    (hf : ∀ a, x = .ok a → outcome (f a) = firstOf l) :
    outcome (x >>= f) = firstOf (look :: l) :=
  outcome_bind_append (k := [look]) (hx.trans (firstOf_singleton look).symm) hf

theorem outcome_throwIf {cond : Bool} {e : SorobanZkError} :
    outcome (throwIf cond (.zk e)) = if cond then .rejected else .fine := by
  cases cond <;> rfl

/-- Throwing an error that describes a value ends as the conversion of the value does. -/
theorem outcome_throwDescribed {α : Type} {value : JsValue} {e : SorobanZkError} :
    outcome (throwDescribed value e : Except JsException α)
      = if value.unprintable then .broken else .rejected := by
  unfold throwDescribed
  split <;> rfl

/-- A computation that succeeds whenever another one does. -/
theorem outcome_bind_of_ok {α β : Type} {x : Except JsException α} {f : α → Except JsException β}
    (hf : ∀ a, x = .ok a → ∃ b, f a = .ok b) : outcome (x >>= f) = outcome x := by
  cases x with
  | ok a =>
      obtain ⟨b, hb⟩ := hf a rfl
      show outcome (f a) = .fine
      rw [hb]
      rfl
  | error e => cases e <;> rfl

/-- Going through a list takes the looks at its elements one after another. -/
theorem outcome_mapM {α β : Type} {f : α → Except JsException β} {look : α → List Look}
    (hf : ∀ a, outcome (f a) = firstOf (look a)) (as : List α) :
    outcome (as.mapM f) = firstOf (as.flatMap look) := by
  induction as with
  | nil => rfl
  | cons a as ih =>
      rw [List.mapM_cons, List.flatMap_cons]
      refine outcome_bind_append (hf a) fun b _ => ?_
      rw [← ih]
      exact outcome_bind_of_ok fun bs _ => ⟨b :: bs, rfl⟩

/-! ## Looks at numerals -/

/-- A look at a value that should be a numeral below the order of the scalar field. -/
def lookNumeral (value : JsValue) : Look :=
  match value with
  | .string s =>
      if isDecimalOrHex s && decide (bigInt s < bn254FieldModulus) then .fine else .rejected
  | value => if value.unprintable then .broken else .rejected

theorem outcome_parseFieldElement (value : JsValue) (code : SorobanZkErrorCode) (label : String) :
    outcome (parseFieldElement value code label) = lookNumeral value := by
  cases value with
  | string s =>
      by_cases hpattern : isDecimalOrHex s = true
      · by_cases hlt : bigInt s < bn254FieldModulus
        · simp [parseFieldElement, lookNumeral, hpattern, hlt, not_le.2 hlt, outcome]
        · simp [parseFieldElement, lookNumeral, hpattern, hlt, not_lt.1 hlt, outcome]
      · simp [parseFieldElement, lookNumeral, hpattern, outcome]
  | _ => exact outcome_throwDescribed

/-- A look at a value that should be a decimal numeral below the order of the scalar field. -/
def lookCoordinate (value : JsValue) : Look :=
  match value with
  | .string s => if isDecimal s && decide (bigInt s < bn254FieldModulus) then .fine else .rejected
  | value => if value.unprintable then .broken else .rejected

theorem outcome_assertProofFieldElement (value : JsValue) (field : String) :
    outcome (assertProofFieldElement value field) = lookCoordinate value := by
  cases value with
  | string s =>
      by_cases hdecimal : isDecimal s = true
      · by_cases hlt : bigInt s < bn254FieldModulus
        · simp [assertProofFieldElement, lookCoordinate, hdecimal, hlt, not_le.2 hlt, outcome]
        · simp [assertProofFieldElement, lookCoordinate, hdecimal, hlt, not_lt.1 hlt,
            outcome_throwDescribed, JsValue.unprintable]
      · simp [assertProofFieldElement, lookCoordinate, hdecimal, outcome]
  | _ => exact outcome_throwDescribed

theorem outcome_validateSignal (index : ℕ) (signal : JsValue) :
    outcome (validateSignal index signal) = lookNumeral signal := by
  cases signal with
  | string s =>
      by_cases hpattern : isDecimalOrHex s = true
      · by_cases hlt : bigInt s < bn254FieldModulus
        · have hfits : ¬ max32ByteValue ≤ bigInt s := not_le.2 (hlt.trans (by decide))
          simp [validateSignal, lookNumeral, hpattern, hlt, hfits, not_le.2 hlt, outcome]
        · by_cases hfits : max32ByteValue ≤ bigInt s <;>
            simp [validateSignal, lookNumeral, hpattern, hlt, hfits, not_lt.1 hlt,
              outcome_throwDescribed, JsValue.unprintable]
      · simp [validateSignal, lookNumeral, hpattern, outcome_throwDescribed, JsValue.unprintable]
  | _ => exact outcome_throwDescribed

/-! ## Looks at a proof -/

/-- The looks at a point of two coordinates, or at a row of one. -/
def lookPair (value : JsValue) : List Look :=
  match value with
  | .array (x :: y :: _) => [lookCoordinate x, lookCoordinate y]
  | _ => [.rejected]

/-- The looks at a point of two rows. -/
def lookRows (value : JsValue) : List Look :=
  match value with
  | .array (x :: y :: _) => lookPair x ++ lookPair y
  | _ => [.rejected]

/-- The looks at public signals. -/
def lookSignals (publicSignals : JsValue) : List Look :=
  match publicSignals with
  | .array signals => signals.map lookNumeral
  | _ => [.rejected]

/-- The look at an expiry ledger, which has to be an unsigned 32-bit integer. -/
def lookExpiry (expiryLedger : Option JsNumber) : Look :=
  match expiryLedger with
  | none => .fine
  | some e =>
      if !e.isInteger || (JsNumber.ofNat 0).gt e || e.gt (.ofNat maxU32) then .rejected else .fine

/-- The looks of `validateProofInput`, in the order in which they are taken. -/
def lookInput (proof publicSignals : JsValue) : List Look :=
  [if notAnObject proof then .rejected else .fine,
    if (proof.get "protocol").isString "groth16" then .fine else .rejected]
  ++ lookPair (proof.get "pi_a") ++ lookRows (proof.get "pi_b") ++ lookPair (proof.get "pi_c")
  ++ lookSignals publicSignals

/-- The looks of `formatProof`: nothing that passes the validator fails later on. -/
def lookProof (proof publicSignals : JsValue) (expiryLedger : Option JsNumber) : List Look :=
  lookInput proof publicSignals ++ [lookExpiry expiryLedger]

theorem outcome_validatePair (value : JsValue) (field : String) :
    outcome (validatePair value field) = firstOf (lookPair value) := by
  have hassert : ∀ elems : List JsValue, 2 ≤ elems.length →
      assertArray (.array elems) field 2 = .ok elems := fun elems hlen =>
    assertArray_eq_ok_iff.2 ⟨rfl, hlen⟩
  cases value with
  | array elems =>
      rcases elems with _ | ⟨x, _ | ⟨y, elems⟩⟩
      · rfl
      · rfl
      · unfold validatePair
        rw [hassert _ (by simp)]
        show outcome (assertProofFieldElement x _ >>= fun _ => assertProofFieldElement y _) = _
        exact outcome_bind (outcome_assertProofFieldElement x _) fun _ _ =>
          (outcome_assertProofFieldElement y _).trans (firstOf_singleton _).symm
  | _ => rfl

theorem outcome_forEachFrom {α : Type} {check : ℕ → α → Except JsException Unit} {look : α → Look}
    (hcheck : ∀ i a, outcome (check i a) = look a) (i : ℕ) (as : List α) :
    outcome (forEachFrom check i as) = firstOf (as.map look) := by
  induction as generalizing i with
  | nil => rfl
  | cons a as ih => exact outcome_bind (hcheck i a) fun _ _ => ih (i + 1)

theorem outcome_validatePublicSignals (publicSignals : JsValue) :
    outcome (validatePublicSignals publicSignals) = firstOf (lookSignals publicSignals) := by
  cases publicSignals with
  | array signals => exact outcome_forEachFrom outcome_validateSignal 0 signals
  | _ => rfl

theorem outcome_validateProofInput (proof publicSignals : JsValue) :
    outcome (validateProofInput proof publicSignals) = firstOf (lookInput proof publicSignals) := by
  have hobject : outcome (throwIf (notAnObject proof) (JsException.zk (.input "proof"
      ("is not an object (received " ++ proof.typeof ++ ")") .invalidProofFormat none)))
      = if notAnObject proof then .rejected else .fine := outcome_throwIf
  have hprotocol : outcome (throwIf (!(proof.get "protocol").isString "groth16")
      (JsException.zk (.input "proof.protocol" "must be \"groth16\"" .invalidProofFormat none)))
      = if (proof.get "protocol").isString "groth16" then .fine else .rejected := by
    rw [outcome_throwIf]
    cases (proof.get "protocol").isString "groth16" <;> rfl
  have hrest : outcome (validatePair (proof.get "pi_c") "pi_c" >>= fun _ =>
      validatePublicSignals publicSignals)
      = firstOf (lookPair (proof.get "pi_c") ++ lookSignals publicSignals) :=
    outcome_bind_append (outcome_validatePair _ _) fun _ _ =>
      outcome_validatePublicSignals publicSignals
  simp only [lookInput, List.append_assoc, List.cons_append, List.nil_append]
  refine outcome_bind hobject fun _ _ => ?_
  refine outcome_bind hprotocol fun _ _ => ?_
  refine outcome_bind_append (outcome_validatePair _ _) fun _ _ => ?_
  -- the rows are validated once they are known to be there
  cases proof.get "pi_b" with
  | array rows =>
      rcases rows with _ | ⟨x, _ | ⟨y, rows⟩⟩
      · rfl
      · rfl
      · have hrows : assertArray (.array (x :: y :: rows)) "pi_b" 2 = .ok (x :: y :: rows) :=
          assertArray_eq_ok_iff.2 ⟨rfl, by simp⟩
        rw [hrows, lookRows, List.append_assoc]
        show outcome (validatePair x "pi_b[0]" >>= fun _ => validatePair y "pi_b[1]" >>= fun _ => _)
          = _
        exact outcome_bind_append (outcome_validatePair x _) fun _ _ =>
          outcome_bind_append (outcome_validatePair y _) fun _ _ => hrest
  | _ => rfl

theorem exists_signals_of_validateProofInput {proof publicSignals : JsValue} {u : Unit}
    (hvalid : validateProofInput proof publicSignals = .ok u) :
    ∃ signals, publicSignals = .array signals := by
  simp only [validateProofInput, bind_eq_ok_iff] at hvalid
  obtain ⟨_, -, _, -, _, -, _, -, _, -, _, -, _, -, hsignals⟩ := hvalid
  cases publicSignals with
  | array signals => exact ⟨signals, rfl⟩
  | _ => cases hsignals

theorem outcome_appendExpiry (inputs : List Bytes) (expiryLedger : Option JsNumber) :
    outcome (appendExpiry inputs expiryLedger) = lookExpiry expiryLedger := by
  cases expiryLedger with
  | none => rfl
  | some e =>
      simp only [appendExpiry, lookExpiry]
      split <;> rfl

/-- `formatProof` ends as the first of its looks that is not fine. -/
theorem outcome_formatProof (proof publicSignals : JsValue) (expiryLedger : Option JsNumber) :
    outcome (formatProof proof publicSignals expiryLedger)
      = firstOf (lookProof proof publicSignals expiryLedger) := by
  refine outcome_bind_append (outcome_validateProofInput proof publicSignals) fun _ hvalid => ?_
  obtain ⟨signals, rfl⟩ := exists_signals_of_validateProofInput hvalid
  obtain ⟨hprotocol, ha, hb, hb0, hb1, hc, hsignals⟩ := validateProofInput_eq_ok_iff.1 hvalid
  obtain ⟨inputs, hinputs⟩ := encodePublicInputs_of_isNumeralBelow hsignals 0
  obtain ⟨proofA, hproofA⟩ := encodeG1_of_isPair ha "pi_a"
  obtain ⟨proofB, hproofB⟩ := encodeG2_of_isPair hb0 hb1 "pi_b"
  obtain ⟨proofC, hproofC⟩ := encodeG1_of_isPair hc "pi_c"
  -- past the validator only the expiry ledger is left to be refused
  rw [firstOf_singleton, ← outcome_appendExpiry inputs expiryLedger]
  simp only [hprotocol, JsValue.isString, BEq.rfl, Bool.not_true, shorterThan_of_hasTwoEntries ha.1,
    shorterThan_of_hasTwoEntries hb, shorterThan_of_hasTwoEntries hc.1, Bool.or_self, throwIf,
    Bool.false_eq_true, if_false, signalsOf, hinputs, hproofA, hproofB, hproofC, bind, Except.bind,
    length_of_encodeG1 hproofA, length_of_encodeG2 hproofB, length_of_encodeG1 hproofC]
  cases appendExpiry inputs expiryLedger with
  | ok inputs' => rfl
  | error e => cases e <;> rfl

end ZkStellar.Sdk

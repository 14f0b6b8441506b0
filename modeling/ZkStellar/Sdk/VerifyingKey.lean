import ZkStellar.Sdk.Encoding
import ZkStellar.Sdk.Looks

set_option autoImplicit false

/-! # Encoding a verifying key

`formatVerifyingKey` has no validator in front of it: it measures and indexes whatever the key's
file holds. So here the language's own exceptions are part of the model, and so is what `.length`
and `[i]` do on a string, an object or `null` in place of an array. Each step of the function is
one look at the key, and looks do not depend on each other (`outcome_formatVerifyingKey`): the
function ends as the first look ends that finds something wrong. -/

namespace ZkStellar.Sdk

/-! ## Lengths and elements -/

namespace JsValue

/-- `v.length`. -/
def length : JsValue → Except JsException JsValue
  | .undefined | .null => .error .typeError
  | .string s => .ok (.number (.ofNat (units s).length))
  | .array elems => .ok (.number (.ofNat elems.length))
  | .object props => .ok ((JsValue.object props).get "length")
  | .boolean _ | .number _ => .ok .undefined

/-- `v[i]`. A string of one surrogate is none of the strings here, and no numeral; the replacement
    character stands for it. -/
def element (v : JsValue) (i : ℕ) : Except JsException JsValue :=
  match v with
  | .undefined | .null => .error .typeError
  | .string s =>
      match (units s)[i]? with
      | some (some c) => .ok (.string (String.singleton c))
      | some none => .ok (.string "\uFFFD")
      | none => .ok .undefined
  | .array elems => .ok (elems[i]?.getD .undefined)
  | .object props => .ok ((JsValue.object props).get (toString i))
  | .boolean _ | .number _ => .ok .undefined

/-- `!v`. -/
def falsy : JsValue → Bool
  | .undefined | .null => true
  | .boolean b => !b
  | .number n => n == .ofNat 0 || n == .nan
  | .string s => s == ""
  | .array _ | .object _ => false

end JsValue

section

-- `Number(v)`, for the lengths that are not numbers
variable (toNumber : JsValue → JsNumber)

/-- `length < 2`. -/
def lessThanTwo (length : JsValue) : Except JsException Bool :=
  match length with
  | .undefined => .ok false
  | .number n => .ok ((JsNumber.ofNat 2).gt n)
  | v => if v.unprintable then .error .typeError else .ok ((JsNumber.ofNat 2).gt (toNumber v))

/-! ## The function -/

/-- `RegistryVerifyingKey`. -/
structure RegistryVerifyingKey where
  alpha : Bytes
  beta : Bytes
  gamma : Bytes
  delta : Bytes
  ic : List Bytes

/-- `parseFieldElement(point[i], ...)`. -/
def parseEntry (point : JsValue) (i : ℕ) (label : String) : Except JsException ℕ := do
  parseFieldElement (← point.element i) .invalidProofFormat label

/-- `parseFieldElement(point[i][j], ...)`. -/
def parseRowEntry (point : JsValue) (i j : ℕ) (label : String) : Except JsException ℕ := do
  parseEntry (← point.element i) j label

/-- `encodeG1`. -/
def encodeKeyG1 (point : JsValue) (label : String) : Except JsException Bytes := do
  let x ← parseEntry point 0 (label ++ ".x")
  let y ← parseEntry point 1 (label ++ ".y")
  return bigintToBytes32 x ++ bigintToBytes32 y

/-- `encodeG2`. -/
def encodeKeyG2 (point : JsValue) (label : String) : Except JsException Bytes := do
  let xC0 ← parseRowEntry point 0 0 (label ++ ".x.c0")
  let xC1 ← parseRowEntry point 0 1 (label ++ ".x.c1")
  let yC0 ← parseRowEntry point 1 0 (label ++ ".y.c0")
  let yC1 ← parseRowEntry point 1 1 (label ++ ".y.c1")
  return bigintToBytes32 xC1 ++ bigintToBytes32 xC0 ++ bigintToBytes32 yC1 ++ bigintToBytes32 yC0

/-- The points of `vk.IC`, the first one at `index`. -/
def encodeIc : ℕ → List JsValue → Except JsException (List Bytes)
  | _, [] => .ok []
  | index, point :: points => do
      let bytes ← encodeKeyG1 point ("IC[" ++ toString index ++ "]")
      let rest ← encodeIc (index + 1) points
      return bytes :: rest

/-- The entries of `vk.IC`, which has to be an array that is not empty. -/
def icPoints (ic : JsValue) : Except JsException (List JsValue) :=
  match ic with
  | .array (point :: points) => .ok (point :: points)
  | _ => .error (.zk (.general "Verifying key IC must be a non-empty array of G1 points"
      .invalidProofFormat))

/-- The test of the length of one point, a member of the disjunction in `formatVerifyingKey`. -/
def assertPointLength (point : JsValue) : Except JsException Unit := do
  let short ← lessThanTwo toNumber (← point.length)
  throwIf short (.zk (.general "Verifying key is missing required Groth16 coordinates"
    .invalidProofFormat))

/-- `formatVerifyingKey`. -/
def formatVerifyingKey (vk : JsValue) : Except JsException RegistryVerifyingKey := do
  throwIf (vk.falsy || !(vk.get "protocol").isString "groth16")
    (.zk (.general "Verifying key must be a Groth16 snarkjs verification key" .invalidProofFormat))
  assertPointLength toNumber (vk.get "vk_alpha_1")
  assertPointLength toNumber (vk.get "vk_beta_2")
  assertPointLength toNumber (vk.get "vk_gamma_2")
  assertPointLength toNumber (vk.get "vk_delta_2")
  let points ← icPoints (vk.get "IC")
  let alpha ← encodeKeyG1 (vk.get "vk_alpha_1") "vk_alpha_1"
  let beta ← encodeKeyG2 (vk.get "vk_beta_2") "vk_beta_2"
  let gamma ← encodeKeyG2 (vk.get "vk_gamma_2") "vk_gamma_2"
  let delta ← encodeKeyG2 (vk.get "vk_delta_2") "vk_delta_2"
  let ic ← encodeIc 0 points
  throwIf (alpha.length ≠ 64 || beta.length ≠ 128 || gamma.length ≠ 128 || delta.length ≠ 128
      || ic.any fun point => point.length ≠ 64)
    (.zk (.general "Verifying key encoding produced an invalid byte length" .invalidProofFormat))
  return ⟨alpha, beta, gamma, delta, ic⟩

/-! ## Looks at a key -/

/-- A look at the length of a point. -/
def lookLength (point : JsValue) : Look :=
  match point with
  | .undefined | .null => .broken
  | .boolean _ | .number _ => .fine
  | .string s => if (JsValue.units s).length < 2 then .rejected else .fine
  | .array elems => if elems.length < 2 then .rejected else .fine
  | .object props =>
      match lessThanTwo toNumber ((JsValue.object props).get "length") with
      | .ok true => .rejected
      | .ok false => .fine
      | .error _ => .broken

/-- A look at an entry of a point. -/
def lookEntry (point : JsValue) (i : ℕ) : Look :=
  match point.element i with
  | .ok value => lookNumeral value
  | .error _ => .broken

/-- A look at an entry in a row of a point. -/
def lookRowEntry (point : JsValue) (i j : ℕ) : Look :=
  match point.element i with
  | .ok row => lookEntry row j
  | .error _ => .broken

def lookG1 (point : JsValue) : List Look := [lookEntry point 0, lookEntry point 1]

def lookG2 (point : JsValue) : List Look :=
  [lookRowEntry point 0 0, lookRowEntry point 0 1, lookRowEntry point 1 0, lookRowEntry point 1 1]

/-- The entries of `IC`, if it is an array. -/
def icEntries (vk : JsValue) : List JsValue :=
  match vk.get "IC" with
  | .array points => points
  | _ => []

/-- All the looks at a key, in the order in which they are taken. -/
def looks (vk : JsValue) : List Look :=
  [if (vk.get "protocol").isString "groth16" then .fine else .rejected,
    lookLength toNumber (vk.get "vk_alpha_1"), lookLength toNumber (vk.get "vk_beta_2"),
    lookLength toNumber (vk.get "vk_gamma_2"), lookLength toNumber (vk.get "vk_delta_2"),
    if icEntries vk = [] then .rejected else .fine]
  ++ lookG1 (vk.get "vk_alpha_1") ++ lookG2 (vk.get "vk_beta_2") ++ lookG2 (vk.get "vk_gamma_2")
  ++ lookG2 (vk.get "vk_delta_2") ++ (icEntries vk).flatMap lookG1

end

/-! ## Well-formed keys -/

/-- A decimal or hexadecimal string. -/
def IsNumeral (value : JsValue) : Prop := ∃ s, value = .string s ∧ isDecimalOrHex s = true

def IsArray (value : JsValue) : Prop := ∃ elems, value = .array elems

/-- An array that starts with two numerals. -/
structure IsG1Point (point : JsValue) : Prop where
  array : IsArray point
  x : IsNumeral (point.index 0)
  y : IsNumeral (point.index 1)

/-- An array that starts with two arrays, each of which starts with two numerals. -/
structure IsG2Point (point : JsValue) : Prop where
  array : IsArray point
  x : IsG1Point (point.index 0)
  y : IsG1Point (point.index 1)

/-- The bytes are the 32-byte words of the integers. -/
def Encodes (bytes : Bytes) (integers : List ℕ) : Prop :=
  bytes.length = 32 * integers.length ∧ beWords 32 bytes = integers

/-- The key is well formed, and the result encodes its numbers. -/
structure KeyEncodes (vk : JsValue) (result : RegistryVerifyingKey) : Prop where
  protocol : vk.get "protocol" = .string "groth16"
  alphaPoint : IsG1Point (vk.get "vk_alpha_1")
  betaPoint : IsG2Point (vk.get "vk_beta_2")
  gammaPoint : IsG2Point (vk.get "vk_gamma_2")
  deltaPoint : IsG2Point (vk.get "vk_delta_2")
  icPoint : ∀ point ∈ icEntries vk, IsG1Point point
  icNonempty : icEntries vk ≠ []
  alpha : Encodes result.alpha (g1Integers (vk.get "vk_alpha_1"))
  beta : Encodes result.beta (g2Integers (vk.get "vk_beta_2"))
  gamma : Encodes result.gamma (g2Integers (vk.get "vk_gamma_2"))
  delta : Encodes result.delta (g2Integers (vk.get "vk_delta_2"))
  ic : List.Forall₂ (fun bytes point => Encodes bytes (g1Integers point)) result.ic (icEntries vk)

/-- Every point of the key, and every row of one, is an array. -/
structure PointsAreArrays (vk : JsValue) : Prop where
  alpha : IsArray (vk.get "vk_alpha_1")
  beta : IsArray (vk.get "vk_beta_2") ∧ IsArray ((vk.get "vk_beta_2").index 0) ∧
    IsArray ((vk.get "vk_beta_2").index 1)
  gamma : IsArray (vk.get "vk_gamma_2") ∧ IsArray ((vk.get "vk_gamma_2").index 0) ∧
    IsArray ((vk.get "vk_gamma_2").index 1)
  delta : IsArray (vk.get "vk_delta_2") ∧ IsArray ((vk.get "vk_delta_2").index 0) ∧
    IsArray ((vk.get "vk_delta_2").index 1)
  ic : ∀ point ∈ icEntries vk, IsArray point

/-! ### The function ends as the first look that is not fine -/

/-- Measuring and indexing fail in the language only. -/
theorem eq_typeError_of_element {v : JsValue} {i : ℕ} {e : JsException}
    (h : v.element i = .error e) : e = .typeError := by
  cases v with
  | undefined => cases h; rfl
  | null => cases h; rfl
  | string s =>
      simp only [JsValue.element] at h
      split at h <;> cases h
  | boolean b => cases h
  | number n => cases h
  | array elems => cases h
  | object props => cases h

theorem eq_typeError_of_lessThanTwo {toNumber : JsValue → JsNumber} {length : JsValue}
    {e : JsException} (h : lessThanTwo toNumber length = .error e) : e = .typeError := by
  unfold lessThanTwo at h
  split at h
  · cases h
  · cases h
  · split at h <;> cases h
    rfl

/-- Looking up an entry, then doing something with it. -/
theorem outcome_element_bind {α : Type} {v : JsValue} {i : ℕ} {f : JsValue → Except JsException α}
    {look : JsValue → Look} (hf : ∀ value, outcome (f value) = look value) :
    outcome (v.element i >>= f) =
      match v.element i with | .ok value => look value | .error _ => .broken := by
  cases helement : v.element i with
  | ok value => exact hf value
  | error e =>
      cases eq_typeError_of_element helement
      rfl

theorem outcome_parseEntry (point : JsValue) (i : ℕ) (label : String) :
    outcome (parseEntry point i label) = lookEntry point i :=
  outcome_element_bind fun value => outcome_parseFieldElement value _ label

theorem outcome_parseRowEntry (point : JsValue) (i j : ℕ) (label : String) :
    outcome (parseRowEntry point i j label) = lookRowEntry point i j :=
  outcome_element_bind fun row => outcome_parseEntry row j label

theorem outcome_assertPointLength (toNumber : JsValue → JsNumber) (point : JsValue) :
    outcome (assertPointLength toNumber point) = lookLength toNumber point := by
  cases point with
  | undefined => rfl
  | null => rfl
  | boolean b => rfl
  | number n => rfl
  | string s =>
      by_cases hshort : (JsValue.units s).length < 2 <;>
        simp [assertPointLength, JsValue.length, lessThanTwo, lookLength, hshort, throwIf, outcome,
          bind, Except.bind]
  | array elems =>
      by_cases hshort : elems.length < 2 <;>
        simp [assertPointLength, JsValue.length, lessThanTwo, lookLength, hshort, throwIf, outcome,
          bind, Except.bind]
  | object props =>
      cases hless : lessThanTwo toNumber ((JsValue.object props).get "length") with
      | ok short =>
          cases short <;>
            simp [assertPointLength, JsValue.length, lookLength, hless, throwIf, outcome, bind,
              Except.bind]
      | error e =>
          cases eq_typeError_of_lessThanTwo hless
          simp [assertPointLength, JsValue.length, lookLength, hless, outcome, bind, Except.bind]

theorem outcome_encodeKeyG1 (point : JsValue) (label : String) :
    outcome (encodeKeyG1 point label) = firstOf (lookG1 point) :=
  outcome_bind (outcome_parseEntry point 0 _) fun _ _ =>
    outcome_bind (l := []) (outcome_parseEntry point 1 _) fun _ _ => rfl

theorem outcome_encodeKeyG2 (point : JsValue) (label : String) :
    outcome (encodeKeyG2 point label) = firstOf (lookG2 point) :=
  outcome_bind (outcome_parseRowEntry point 0 0 _) fun _ _ =>
    outcome_bind (outcome_parseRowEntry point 0 1 _) fun _ _ =>
      outcome_bind (outcome_parseRowEntry point 1 0 _) fun _ _ =>
        outcome_bind (l := []) (outcome_parseRowEntry point 1 1 _) fun _ _ => rfl

theorem outcome_encodeIc (index : ℕ) (points : List JsValue) :
    outcome (encodeIc index points) = firstOf (points.flatMap lookG1) := by
  induction points generalizing index with
  | nil => rfl
  | cons point points ih =>
      have hrest : ∀ bytes, outcome (encodeIc (index + 1) points >>= fun rest =>
          (pure (bytes :: rest) : Except JsException (List Bytes)))
          = firstOf (points.flatMap lookG1) := fun bytes => by
        rw [← List.append_nil (points.flatMap lookG1)]
        exact outcome_bind_append (ih (index + 1)) fun _ _ => rfl
      exact outcome_bind_append (outcome_encodeKeyG1 point _) fun bytes _ => hrest bytes

theorem outcome_icPoints (vk : JsValue) :
    outcome (icPoints (vk.get "IC")) = if icEntries vk = [] then .rejected else .fine := by
  unfold icEntries
  cases vk.get "IC" with
  | array points => cases points <;> rfl
  | _ => rfl

theorem icPoints_eq_ok_iff {vk : JsValue} {points : List JsValue} :
    icPoints (vk.get "IC") = .ok points ↔ vk.get "IC" = .array points ∧ points ≠ [] := by
  cases hic : vk.get "IC" with
  | array points' =>
      cases points' with
      | nil =>
          simp only [icPoints, reduceCtorEq, JsValue.array.injEq, false_iff, not_and, not_not]
          exact fun h => h.symm
      | cons point points' =>
          simp only [icPoints, Except.ok.injEq, JsValue.array.injEq]
          constructor
          · rintro rfl
            exact ⟨rfl, List.cons_ne_nil _ _⟩
          · exact And.left
  | _ => simp [icPoints]

/-! ### What is encoded -/

/-- An entry that is parsed is a numeral, written in 32 bytes. -/
theorem bytes_of_parseEntry {point : JsValue} {i : ℕ} {label : String} {v : ℕ}
    (hok : parseEntry point i label = .ok v) :
    ∃ value, point.element i = .ok value ∧ IsNumeral value ∧
      (bigintToBytes32 v).length = 32 ∧ beNat (bigintToBytes32 v) = denoted value := by
  obtain ⟨value, helement, hparse⟩ := bind_eq_ok_iff.1 hok
  obtain ⟨-, s, hs, hpattern, -⟩ := parseFieldElement_eq_ok_iff.1 hparse
  exact ⟨value, helement, ⟨s, hs, hpattern⟩, bytes_of_parseFieldElement hparse⟩

theorem length_of_encodeKeyG1 {point : JsValue} {label : String} {bytes : Bytes}
    (hok : encodeKeyG1 point label = .ok bytes) : bytes.length = 64 := by
  simp only [encodeKeyG1, bind_eq_ok_iff] at hok
  obtain ⟨x, hx, y, hy, hpure⟩ := hok
  cases hpure
  obtain ⟨_, -, -, hxlen, -⟩ := bytes_of_parseEntry hx
  obtain ⟨_, -, -, hylen, -⟩ := bytes_of_parseEntry hy
  rw [List.length_append, hxlen, hylen]

theorem length_of_parseRowEntry {point : JsValue} {i j : ℕ} {label : String} {v : ℕ}
    (hok : parseRowEntry point i j label = .ok v) : (bigintToBytes32 v).length = 32 := by
  obtain ⟨row, -, hentry⟩ := bind_eq_ok_iff.1 hok
  obtain ⟨_, -, -, hlen, -⟩ := bytes_of_parseEntry hentry
  exact hlen

theorem length_of_encodeKeyG2 {point : JsValue} {label : String} {bytes : Bytes}
    (hok : encodeKeyG2 point label = .ok bytes) : bytes.length = 128 := by
  simp only [encodeKeyG2, bind_eq_ok_iff] at hok
  obtain ⟨xC0, hxC0, xC1, hxC1, yC0, hyC0, yC1, hyC1, hpure⟩ := hok
  cases hpure
  simp [length_of_parseRowEntry hxC0, length_of_parseRowEntry hxC1, length_of_parseRowEntry hyC0,
    length_of_parseRowEntry hyC1]

theorem length_of_encodeIc {index : ℕ} {points : List JsValue} {ic : List Bytes}
    (hok : encodeIc index points = .ok ic) : ∀ bytes ∈ ic, bytes.length = 64 := by
  induction points generalizing index ic with
  | nil =>
      cases hok
      simp
  | cons point points ih =>
      simp only [encodeIc, bind_eq_ok_iff] at hok
      obtain ⟨bytes, hbytes, rest, hrest, hpure⟩ := hok
      cases hpure
      exact List.forall_mem_cons.2 ⟨length_of_encodeKeyG1 hbytes, ih hrest⟩

/-- The protocol test fails for what is no object, too. -/
theorem falsy_or (vk : JsValue) :
    (vk.falsy || !(vk.get "protocol").isString "groth16")
      = !(vk.get "protocol").isString "groth16" := by
  cases vk <;> simp [JsValue.falsy, JsValue.get, JsValue.isString]

section

variable (toNumber : JsValue → JsNumber) (vk : JsValue)

/-- `formatVerifyingKey` ends as the first look at the key that is not fine. -/
theorem outcome_formatVerifyingKey :
    outcome (formatVerifyingKey toNumber vk) = firstOf (looks toNumber vk) := by
  have hprotocol : outcome (throwIf (vk.falsy || !(vk.get "protocol").isString "groth16")
      (JsException.zk (.general "Verifying key must be a Groth16 snarkjs verification key"
        .invalidProofFormat)))
      = if (vk.get "protocol").isString "groth16" then .fine else .rejected := by
    rw [outcome_throwIf, falsy_or]
    cases (vk.get "protocol").isString "groth16" <;> rfl
  simp only [looks, List.append_assoc, List.cons_append, List.nil_append]
  refine outcome_bind hprotocol fun _ _ => ?_
  refine outcome_bind (outcome_assertPointLength toNumber _) fun _ _ => ?_
  refine outcome_bind (outcome_assertPointLength toNumber _) fun _ _ => ?_
  refine outcome_bind (outcome_assertPointLength toNumber _) fun _ _ => ?_
  refine outcome_bind (outcome_assertPointLength toNumber _) fun _ _ => ?_
  refine outcome_bind (outcome_icPoints vk) ?_
  intro points hpoints
  have hentries : icEntries vk = points := by rw [icEntries, (icPoints_eq_ok_iff.1 hpoints).1]
  refine outcome_bind_append (outcome_encodeKeyG1 _ _) ?_
  intro alpha halpha
  refine outcome_bind_append (outcome_encodeKeyG2 _ _) ?_
  intro beta hbeta
  refine outcome_bind_append (outcome_encodeKeyG2 _ _) ?_
  intro gamma hgamma
  refine outcome_bind_append (outcome_encodeKeyG2 _ _) ?_
  intro delta hdelta
  rw [hentries, ← List.append_nil (points.flatMap lookG1)]
  refine outcome_bind_append (outcome_encodeIc 0 points) ?_
  intro ic hic
  -- the final length check cannot fail: the encoders have fixed widths
  have hwidths : (ic.any fun point => decide (point.length ≠ 64)) = false :=
    List.any_eq_false.2 fun point hpoint => by simp [length_of_encodeIc hic point hpoint]
  simp only [length_of_encodeKeyG1 halpha, length_of_encodeKeyG2 hbeta,
    length_of_encodeKeyG2 hgamma, length_of_encodeKeyG2 hdelta, hwidths]
  rfl

end

theorem element_of_isArray {v : JsValue} (h : IsArray v) (i : ℕ) :
    v.element i = .ok (v.index i) := by
  obtain ⟨elems, rfl⟩ := h
  rfl

/-- The words of a point that is an array are its numbers. -/
theorem encodes_of_encodeKeyG1 {point : JsValue} {label : String} {bytes : Bytes}
    (harray : IsArray point) (hok : encodeKeyG1 point label = .ok bytes) :
    IsG1Point point ∧ Encodes bytes (g1Integers point) := by
  have hlen := length_of_encodeKeyG1 hok
  simp only [encodeKeyG1, bind_eq_ok_iff] at hok
  obtain ⟨x, hx, y, hy, hpure⟩ := hok
  cases hpure
  obtain ⟨_, h0, hnum0, hxlen, hx⟩ := bytes_of_parseEntry hx
  obtain ⟨_, h1, hnum1, hylen, hy⟩ := bytes_of_parseEntry hy
  rw [element_of_isArray harray] at h0 h1
  cases h0
  cases h1
  refine ⟨⟨harray, hnum0, hnum1⟩, hlen, ?_⟩
  rw [beWords_append (by decide) hxlen, beWords_of_length (by decide) hylen, hx, hy, g1Integers]

theorem bytes_of_parseRowEntry {point : JsValue} {i j : ℕ} {label : String} {v : ℕ}
    (harray : IsArray point) (hrow : IsArray (point.index i))
    (hok : parseRowEntry point i j label = .ok v) :
    IsNumeral ((point.index i).index j) ∧ (bigintToBytes32 v).length = 32 ∧
      beNat (bigintToBytes32 v) = denoted ((point.index i).index j) := by
  obtain ⟨row, helement, hentry⟩ := bind_eq_ok_iff.1 hok
  obtain ⟨_, hvalue, hnumeral, hlen, hdenoted⟩ := bytes_of_parseEntry hentry
  rw [element_of_isArray harray] at helement
  cases helement
  rw [element_of_isArray hrow] at hvalue
  cases hvalue
  exact ⟨hnumeral, hlen, hdenoted⟩

theorem encodes_of_encodeKeyG2 {point : JsValue} {label : String} {bytes : Bytes}
    (harray : IsArray point) (h0 : IsArray (point.index 0)) (h1 : IsArray (point.index 1))
    (hok : encodeKeyG2 point label = .ok bytes) :
    IsG2Point point ∧ Encodes bytes (g2Integers point) := by
  have hlen := length_of_encodeKeyG2 hok
  simp only [encodeKeyG2, bind_eq_ok_iff] at hok
  obtain ⟨xC0, hxC0, xC1, hxC1, yC0, hyC0, yC1, hyC1, hpure⟩ := hok
  cases hpure
  obtain ⟨hnumx0, hx0len, hx0⟩ := bytes_of_parseRowEntry harray h0 hxC0
  obtain ⟨hnumx1, hx1len, hx1⟩ := bytes_of_parseRowEntry harray h0 hxC1
  obtain ⟨hnumy0, hy0len, hy0⟩ := bytes_of_parseRowEntry harray h1 hyC0
  obtain ⟨hnumy1, hy1len, hy1⟩ := bytes_of_parseRowEntry harray h1 hyC1
  refine ⟨⟨harray, ⟨h0, hnumx0, hnumx1⟩, ⟨h1, hnumy0, hnumy1⟩⟩, hlen, ?_⟩
  rw [List.append_assoc, List.append_assoc, beWords_append (by decide) hx1len,
    beWords_append (by decide) hx0len, beWords_append (by decide) hy1len,
    beWords_of_length (by decide) hy0len, hx0, hx1, hy0, hy1, g2Integers]

theorem encodes_of_encodeIc {index : ℕ} {points : List JsValue} {ic : List Bytes}
    (harray : ∀ point ∈ points, IsArray point) (hok : encodeIc index points = .ok ic) :
    (∀ point ∈ points, IsG1Point point) ∧
      List.Forall₂ (fun bytes point => Encodes bytes (g1Integers point)) ic points := by
  induction points generalizing index ic with
  | nil =>
      cases hok
      exact ⟨by simp, .nil⟩
  | cons point points ih =>
      simp only [encodeIc, bind_eq_ok_iff] at hok
      obtain ⟨bytes, hbytes, rest, hrest, hpure⟩ := hok
      cases hpure
      obtain ⟨hpoint, hpoints⟩ := List.forall_mem_cons.1 harray
      obtain ⟨hg1, hencodes⟩ := encodes_of_encodeKeyG1 hpoint hbytes
      obtain ⟨hg1s, hencodess⟩ := ih hpoints hrest
      exact ⟨List.forall_mem_cons.2 ⟨hg1, hg1s⟩, .cons hencodes hencodess⟩

section

variable (toNumber : JsValue → JsNumber) (vk : JsValue)

/-- A key whose points are arrays is encoded as its numbers. -/
theorem keyEncodes_of_formatVerifyingKey {vk : JsValue} {result : RegistryVerifyingKey}
    (hok : formatVerifyingKey toNumber vk = .ok result) (harrays : PointsAreArrays vk) :
    KeyEncodes vk result := by
  simp only [formatVerifyingKey, bind_eq_ok_iff, throwIf_eq_ok_iff, exists_const] at hok
  obtain ⟨hprotocol, _, -, _, -, _, -, _, -, points, hpoints, alpha, halpha, beta, hbeta, gamma,
    hgamma, delta, hdelta, ic, hic, -, hpure⟩ := hok
  cases hpure
  obtain ⟨hentries, hne⟩ := icPoints_eq_ok_iff.1 hpoints
  obtain rfl : icEntries vk = points := by rw [icEntries, hentries]
  rw [falsy_or, Bool.not_eq_false'] at hprotocol
  obtain ⟨halphaPoint, halpha⟩ := encodes_of_encodeKeyG1 harrays.alpha halpha
  obtain ⟨hbetaPoint, hbeta⟩ :=
    encodes_of_encodeKeyG2 harrays.beta.1 harrays.beta.2.1 harrays.beta.2.2 hbeta
  obtain ⟨hgammaPoint, hgamma⟩ :=
    encodes_of_encodeKeyG2 harrays.gamma.1 harrays.gamma.2.1 harrays.gamma.2.2 hgamma
  obtain ⟨hdeltaPoint, hdelta⟩ :=
    encodes_of_encodeKeyG2 harrays.delta.1 harrays.delta.2.1 harrays.delta.2.2 hdelta
  obtain ⟨hicPoint, hic⟩ := encodes_of_encodeIc harrays.ic hic
  exact ⟨isString_eq_true_iff.1 hprotocol, halphaPoint, hbetaPoint, hgammaPoint, hdeltaPoint,
    hicPoint, hne, halpha, hbeta, hgamma, hdelta, hic⟩

theorem KeyEncodes.pointsAreArrays {vk : JsValue} {result : RegistryVerifyingKey}
    (h : KeyEncodes vk result) : PointsAreArrays vk where
  alpha := h.alphaPoint.array
  beta := ⟨h.betaPoint.array, h.betaPoint.x.array, h.betaPoint.y.array⟩
  gamma := ⟨h.gammaPoint.array, h.gammaPoint.x.array, h.gammaPoint.y.array⟩
  delta := ⟨h.deltaPoint.array, h.deltaPoint.x.array, h.deltaPoint.y.array⟩
  ic := fun point hpoint => (h.icPoint point hpoint).array

/-- A key is rejected with an error of the SDK, or well formed and encoded as its numbers, exactly
    when the first look at it that is not fine finds a value of the wrong kind, or all looks are
    fine and its points are arrays. -/
theorem formatVerifyingKey_typed_iff :
    ((∃ e, formatVerifyingKey toNumber vk = .error (.zk e)) ∨
      ∃ result, formatVerifyingKey toNumber vk = .ok result ∧ KeyEncodes vk result) ↔
    firstOf (looks toNumber vk) = .rejected ∨
      firstOf (looks toNumber vk) = .fine ∧ PointsAreArrays vk := by
  rw [← outcome_formatVerifyingKey]
  cases hresult : formatVerifyingKey toNumber vk with
  | ok result =>
      simp only [outcome, reduceCtorEq, exists_false, false_or, true_and, Except.ok.injEq,
        exists_eq_left']
      exact ⟨KeyEncodes.pointsAreArrays, keyEncodes_of_formatVerifyingKey toNumber hresult⟩
  | error e =>
      cases e with
      | zk e => simp [outcome]
      | typeError => simp [outcome]

end

/-- A key without points. -/
def emptyKey : JsValue := .object [("protocol", .string "groth16")]

/-- A key whose first point is the string `12`; the others are the points at infinity. -/
def stringPointKey : JsValue :=
  let infinity : JsValue := .array [.string "0", .string "1", .string "0"]
  let row : JsValue := .array [.string "0", .string "0"]
  let infinity2 : JsValue := .array [row, .array [.string "1", .string "0"], row]
  .object [("protocol", .string "groth16"), ("vk_alpha_1", .string "12"),
    ("vk_beta_2", infinity2), ("vk_gamma_2", infinity2), ("vk_delta_2", infinity2),
    ("IC", .array [infinity])]

/-- Neither key is handled: the first raises a `TypeError`, the second is encoded. -/
theorem malformed_keys_slip_through :
    ¬ ((∃ e, formatVerifyingKey (fun _ => .nan) emptyKey = .error (.zk e)) ∨
      ∃ result, formatVerifyingKey (fun _ => .nan) emptyKey = .ok result ∧
        KeyEncodes emptyKey result) ∧
    ¬ ((∃ e, formatVerifyingKey (fun _ => .nan) stringPointKey = .error (.zk e)) ∨
      ∃ result, formatVerifyingKey (fun _ => .nan) stringPointKey = .ok result ∧
        KeyEncodes stringPointKey result) := by
  constructor
  · rintro (⟨e, herror⟩ | ⟨result, -, hencodes⟩)
    · have hbroken : outcome (formatVerifyingKey (fun _ => .nan) emptyKey) = .broken := by decide
      rw [herror] at hbroken
      cases hbroken
    · obtain ⟨elems, harray⟩ := hencodes.alphaPoint.array
      cases harray
  · rintro (⟨e, herror⟩ | ⟨result, -, hencodes⟩)
    · have hfine : outcome (formatVerifyingKey (fun _ => .nan) stringPointKey) = .fine := by
        decide +kernel
      rw [herror] at hfine
      cases hfine
    · obtain ⟨elems, harray⟩ := hencodes.alphaPoint.array
      cases harray

end ZkStellar.Sdk

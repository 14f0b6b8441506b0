import Mathlib.Algebra.Order.Field.Rat
import ZkStellar.Lib.Hex

set_option autoImplicit false

/-! # Values the SDK works on

The SDK takes proofs and public signals as they come out of parsed JSON and checks their shape at
run time, so here they are untyped values (`JsValue`). Numerals are strings; what a numeral spells
is a natural number, as the SDK reads them with `BigInt`. A check that fails describes the value it
was given, and converting that value to a string can throw on its own (`throwDescribed`). -/

namespace ZkStellar.Sdk

/-! ## Numbers -/

/-- A number of the SDK's language. -/
inductive JsNumber where
  | finite (q : ℚ)
  | infinity (negative : Bool)
  | nan
deriving DecidableEq

namespace JsNumber

/-- `a > b`. -/
def gt : JsNumber → JsNumber → Bool
  | .nan, _ => false
  | _, .nan => false
  | .finite a, .finite b => decide (b < a)
  | .finite _, .infinity negative => negative
  | .infinity negative, .finite _ => !negative
  | .infinity negative, .infinity negative' => !negative && negative'

/-- `Number.isInteger(a)`. -/
def isInteger : JsNumber → Bool
  | .finite q => q.den == 1
  | _ => false

/-- The non-negative integer a number is; other numbers give zero. -/
def toNat : JsNumber → ℕ
  | .finite q => q.num.toNat
  | _ => 0

def ofNat (n : ℕ) : JsNumber := .finite n

@[simp] theorem isInteger_ofNat (n : ℕ) : (ofNat n).isInteger = true := by
  simp [ofNat, isInteger]

@[simp] theorem toNat_ofNat (n : ℕ) : (ofNat n).toNat = n := by
  simp [ofNat, toNat]

@[simp] theorem gt_ofNat (a b : ℕ) : (ofNat a).gt (ofNat b) = decide (b < a) := by
  simp [ofNat, gt]

/-- An integer in the range of 32-bit numbers is one. -/
theorem exists_uint32 {e : JsNumber} (hint : e.isInteger = true) (hge : (ofNat 0).gt e = false)
    (hle : e.gt (ofNat 0xffffffff) = false) : ∃ n : UInt32, e = ofNat n.toNat := by
  cases e with
  | infinity negative => cases hint
  | nan => cases hint
  | finite q =>
      simp only [isInteger, gt, ofNat, beq_iff_eq, decide_eq_false_iff_not, not_lt, Nat.cast_zero]
        at hint hge hle
      obtain ⟨v, rfl⟩ : ∃ v : ℕ, q = v := by
        refine ⟨q.num.toNat, ?_⟩
        rw [← Int.cast_natCast, Int.toNat_of_nonneg (Rat.num_nonneg.2 hge)]
        exact ((Rat.den_eq_one_iff q).1 hint).symm
      have hv : v < 2 ^ 32 := by
        have hcast : v ≤ 0xffffffff := by exact_mod_cast hle
        omega
      exact ⟨UInt32.ofNat v, by rw [UInt32.toNat_ofNat', Nat.mod_eq_of_lt hv]; rfl⟩

end JsNumber

/-! ## Values -/

/-- A value of parsed JSON, or `undefined`. -/
inductive JsValue where
  | undefined
  | null
  | boolean (b : Bool)
  | number (n : JsNumber)
  | string (s : String)
  | array (elems : List JsValue)
  | object (props : List (String × JsValue))

namespace JsValue

/-- `typeof`. -/
def typeof : JsValue → String
  | .undefined => "undefined"
  | .boolean _ => "boolean"
  | .number _ => "number"
  | .string _ => "string"
  | .null | .array _ | .object _ => "object"

/-- The property of an object, `undefined` if it is missing. -/
def get (v : JsValue) (name : String) : JsValue :=
  match v with
  | .object props => ((props.find? fun p => p.1 == name).map Prod.snd).getD .undefined
  | _ => .undefined

/-- The element of an array, `undefined` out of bounds. -/
def index (v : JsValue) (i : ℕ) : JsValue :=
  match v with
  | .array elems => elems[i]?.getD .undefined
  | _ => .undefined

/-- `v.length < n` for an array. -/
def shorterThan (v : JsValue) (n : ℕ) : Bool :=
  match v with
  | .array elems => decide (elems.length < n)
  | _ => false

/-- `v === s`. -/
def isString (v : JsValue) (s : String) : Bool :=
  match v with
  | .string t => t == s
  | _ => false

end JsValue

theorem isString_eq_true_iff {value : JsValue} {s : String} :
    value.isString s = true ↔ value = .string s := by
  cases value <;> simp [JsValue.isString]

/-! ### Equality -/

namespace JsValue

mutual

/-- Equality of values, as a computation. -/
def same : JsValue → JsValue → Bool
  | .undefined, .undefined => true
  | .null, .null => true
  | .boolean a, .boolean b => a == b
  | .number a, .number b => a == b
  | .string a, .string b => a == b
  | .array as, .array bs => sameElems as bs
  | .object ps, .object qs => sameProps ps qs
  | _, _ => false

def sameElems : List JsValue → List JsValue → Bool
  | [], [] => true
  | a :: as, b :: bs => same a b && sameElems as bs
  | _, _ => false

def sameProps : List (String × JsValue) → List (String × JsValue) → Bool
  | [], [] => true
  | (name, a) :: ps, (name', b) :: qs => name == name' && same a b && sameProps ps qs
  | _, _ => false

end

mutual

theorem same_iff (a b : JsValue) : same a b = true ↔ a = b := by
  cases a with
  | array as => cases b <;> simp [same, sameElems_iff as]
  | object ps => cases b <;> simp [same, sameProps_iff ps]
  | _ => cases b <;> simp [same]

theorem sameElems_iff (as bs : List JsValue) : sameElems as bs = true ↔ as = bs := by
  cases as with
  | nil => cases bs <;> simp [sameElems]
  | cons a as => cases bs <;> simp [sameElems, same_iff a, sameElems_iff as]

theorem sameProps_iff (ps qs : List (String × JsValue)) : sameProps ps qs = true ↔ ps = qs := by
  cases ps with
  | nil => cases qs <;> simp [sameProps]
  | cons p ps =>
      obtain ⟨name, a⟩ := p
      cases qs <;> simp [sameProps, same_iff a, sameProps_iff ps, Prod.ext_iff, and_assoc]

end

instance : DecidableEq JsValue := fun a b => decidable_of_iff _ (same_iff a b)

end JsValue

/-! ## Strings -/

/-- The UTF-16 code units of a string; surrogates give `none`. -/
def JsValue.units (s : String) : List (Option Char) :=
  s.toList.flatMap fun c => if c.toNat < 0x10000 then [some c] else [none, none]

/-- `s.slice(0, n)`, by the code units of the characters; the replacement character stands for half
    a surrogate pair. -/
def sliceUnits : ℕ → List Char → List Char
  | 0, _ | _, [] => []
  | 1, c :: _ => if c.toNat < 0x10000 then [c] else ['\uFFFD']
  | n + 2, c :: cs => c :: sliceUnits (if c.toNat < 0x10000 then n + 1 else n) cs

/-- `MAX_VALUE_DISPLAY_LEN`. -/
def maxValueDisplayLen : ℕ := 64

/-- `truncate`, and the second half of `describeValue`. -/
def truncate (s : String) : String :=
  if (JsValue.units s).length > maxValueDisplayLen then
    String.ofList (sliceUnits maxValueDisplayLen s.toList) ++ "…"
  else s

namespace JsValue

mutual

/-- The conversion of the value to a string or a number throws: an object, or one in an array, has
    a property `toString`, which in parsed JSON is no function. -/
def unprintable : JsValue → Bool
  | .object props => props.any fun p => p.1 == "toString"
  | .array elems => anyUnprintable elems
  | .undefined | .null | .boolean _ | .number _ | .string _ => false

/-- The conversion of one of the values throws. -/
def anyUnprintable : List JsValue → Bool
  | [] => false
  | v :: vs => unprintable v || anyUnprintable vs

end

end JsValue

/-! ## Numerals -/

/-- `/^[0-9]+$/`. -/
def isDecimal (s : String) : Bool := !s.toList.isEmpty && s.toList.all Char.isDigit

/-- `/^0x[0-9a-fA-F]+$/`. -/
def isHexadecimal (s : String) : Bool :=
  match s.toList with
  | '0' :: 'x' :: cs => !cs.isEmpty && cs.all fun c => (hexDigitValue c).isSome
  | _ => false

/-- `/^(0x[0-9a-fA-F]+|[0-9]+)$/`. -/
def isDecimalOrHex (s : String) : Bool := isHexadecimal s || isDecimal s

/-- `BigInt(s)`, for a string that is decimal or hexadecimal. -/
def bigInt (s : String) : ℕ :=
  match s.toList with
  | '0' :: 'x' :: cs => cs.foldl (fun n c => 16 * n + (hexDigitValue c).getD 0) 0
  | cs => Nat.ofDigitChars 10 cs 0

/-! ## Errors -/

/-- The members of `SorobanZkErrorCode` that the modelled functions use. -/
inductive SorobanZkErrorCode where
  | invalidProofFormat
  | invalidPublicInput
  | contractInvocationFailed
  | transactionRejected
  | networkError
  | resourceLimitExceeded
  | networkMismatch
  | contractNotInitialized
  | rateLimitExceeded
  | invalidWindowSize
  | proofExpired
  | callerNotAllowed
  | contractPaused
deriving DecidableEq

/-- `SorobanZkError` and its two subclasses. A value that a message describes is kept as it is:
    printing it takes what the language prints numbers like. -/
inductive SorobanZkError where
  | general (message : String) (code : SorobanZkErrorCode)
  /-- The message ends with the value. -/
  | got (message : String) (value : JsValue) (code : SorobanZkErrorCode)
  /-- `ZkInputError`; `detail` is the value its message describes, if it does. -/
  | input (field reason : String) (code : SorobanZkErrorCode) (detail : Option JsValue)
  | networkMismatch (expected actual : String)
deriving DecidableEq

/-- The code of an error. -/
def SorobanZkError.code : SorobanZkError → SorobanZkErrorCode
  | .general _ code => code
  | .got _ _ code => code
  | .input _ _ code _ => code
  | .networkMismatch _ _ => .networkMismatch

/-- What a function of the SDK can throw: one of its own errors, or a `TypeError` of the
    language. -/
inductive JsException where
  | zk (e : SorobanZkError)
  | typeError
deriving DecidableEq

/-- A function of the SDK that throws its own errors, among functions that throw other things
    too. -/
def liftZk {α : Type} : Except SorobanZkError α → Except JsException α
  | .ok a => .ok a
  | .error e => .error (.zk e)

/-- Throw an error whose message describes a value, which is converted to a string first. -/
def throwDescribed {α : Type} (value : JsValue) (e : SorobanZkError) : Except JsException α :=
  if value.unprintable then .error .typeError else .error (.zk e)

/-- `if (cond) throw e`. -/
def throwIf {ε : Type} (cond : Bool) (e : ε) : Except ε Unit := if cond then .error e else .ok ()

theorem throwIf_eq_ok_iff {ε : Type} {cond : Bool} {e : ε} {u : Unit} :
    throwIf cond e = .ok u ↔ cond = false := by
  cases cond <;> simp [throwIf]

theorem bind_eq_ok_iff {ε α β : Type} {x : Except ε α} {f : α → Except ε β} {b : β} :
    x >>= f = .ok b ↔ ∃ a, x = .ok a ∧ f a = .ok b := by
  cases x with
  | error e => simp [bind, Except.bind]
  | ok a => simp [bind, Except.bind]

@[simp] theorem throwDescribed_ne_ok {α : Type} {value : JsValue} {e : SorobanZkError} {a : α} :
    ¬ throwDescribed value e = .ok a := by
  unfold throwDescribed
  split <;> simp

theorem length_of_mapM {ε α β : Type} {f : α → Except ε β} {as : List α} {bs : List β}
    (h : as.mapM f = .ok bs) : bs.length = as.length := by
  induction as generalizing bs with
  | nil => cases h; rfl
  | cons a as ih =>
      simp only [List.mapM_cons, bind_eq_ok_iff] at h
      obtain ⟨b, -, bs', hbs', hpure⟩ := h
      cases hpure
      rw [List.length_cons, List.length_cons, ih hbs']

theorem exists_of_mapM {ε α β : Type} {f : α → Except ε β} {as : List α} {bs : List β}
    (h : as.mapM f = .ok bs) {b : β} (hb : b ∈ bs) : ∃ a ∈ as, f a = .ok b := by
  induction as generalizing bs with
  | nil => cases h; cases hb
  | cons a as ih =>
      simp only [List.mapM_cons, bind_eq_ok_iff] at h
      obtain ⟨b', hb', bs', hbs', hpure⟩ := h
      cases hpure
      rcases List.mem_cons.1 hb with rfl | hmem
      · exact ⟨a, List.mem_cons_self, hb'⟩
      · obtain ⟨a', ha', hfa'⟩ := ih hbs' hmem
        exact ⟨a', List.mem_cons_of_mem a ha', hfa'⟩

end ZkStellar.Sdk

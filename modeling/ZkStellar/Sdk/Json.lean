import ZkStellar.Sdk.Nullifier
import ZkStellar.Sdk.VerifyingKey
import Mathlib.Data.List.DropRight

set_option autoImplicit false

/-! # JSON texts and strings

The functions of the SDK's language that bundles go through: trimming, UTF-8, the spread of an
object and `JSON.stringify`. What the language's own documentation leaves to it is a parameter
(`Runtime`): how a number is printed, what `JSON.parse` returns, how bytes that are no UTF-8 are
decoded, and the clock. -/

namespace ZkStellar.Sdk

/-! ## Whitespace -/

/-- The characters that `trim` removes. -/
def isWhitespace (c : Char) : Bool :=
  [0x09, 0x0a, 0x0b, 0x0c, 0x0d, 0x20, 0xa0, 0x1680, 0x2028, 0x2029, 0x202f, 0x205f, 0x3000,
    0xfeff].contains c.toNat || (0x2000 ≤ c.toNat && c.toNat ≤ 0x200a)

/-- `s.trimStart()`. -/
def trimStart (s : String) : String := String.ofList (s.toList.dropWhile isWhitespace)

/-- `s.trim()`. -/
def trim (s : String) : String :=
  String.ofList ((s.toList.dropWhile isWhitespace).rdropWhile isWhitespace)

/-- Leading whitespace is dropped, up to a character that is none. -/
theorem trimStart_append {ws : List Char} (hws : ∀ c ∈ ws, isWhitespace c = true) {s : String}
    {c : Char} {cs : List Char} (hs : s.toList = c :: cs) (hc : isWhitespace c = false) :
    trimStart (String.ofList ws ++ s) = s := by
  have hdrop : (ws ++ c :: cs).dropWhile isWhitespace = c :: cs := by
    rw [List.dropWhile_append_of_pos hws, List.dropWhile_cons_of_neg (by simp [hc])]
  rw [trimStart, String.toList_append, String.toList_ofList, hs, hdrop, ← hs, String.ofList_toList]

/-- Dropping at the end leaves the start as it is. -/
theorem dropWhile_rdropWhile_dropWhile {α : Type} (p : α → Bool) (l : List α) :
    ((l.dropWhile p).rdropWhile p).dropWhile p = (l.dropWhile p).rdropWhile p := by
  obtain ⟨rest, hrest⟩ := List.rdropWhile_prefix p (l.dropWhile p)
  cases hkept : (l.dropWhile p).rdropWhile p with
  | nil => rfl
  | cons a as =>
      have hhead := List.head?_dropWhile_not p l
      rw [← hrest, hkept, List.cons_append, List.head?_cons] at hhead
      exact List.dropWhile_cons_of_neg (by simpa using hhead)

/-- Trimming twice is trimming once. -/
theorem trim_trim (s : String) : trim (trim s) = trim s := by
  rw [trim, trim, String.toList_ofList, dropWhile_rdropWhile_dropWhile,
    List.rdropWhile_idempotent]

/-! ## What the language is documented to leave open -/

/-- The parts of the language the SDK runs in that are not modelled. -/
structure Runtime where
  /-- How a finite number is printed. -/
  numeral : ℚ → String
  /-- `JSON.parse`, which throws with a message. -/
  parse : String → Except String JsValue
  /-- What bytes that are no UTF-8 are decoded to. -/
  replaceInvalid : Bytes → String
  /-- `new Date().toISOString()`. -/
  now : String
  now_printed : trim now ≠ ""

/-- A runtime in which every text is the JSON of one value. -/
def Runtime.reading (v : JsValue) : Runtime where
  numeral q := toString q.num
  parse _ := .ok v
  replaceInvalid _ := "\uFFFD"
  now := "2026-01-01T00:00:00.000Z"
  now_printed := by decide +kernel

variable (rt : Runtime)

/-! ## Values in messages -/

/-- `${n}`. -/
def numberText (n : JsNumber) : String :=
  match n with
  | .finite q => rt.numeral q
  | .infinity negative => if negative then "-Infinity" else "Infinity"
  | .nan => "NaN"

mutual

/-- `${v}`, where the conversion to a string does not throw. -/
def valueText : JsValue → String
  | .undefined => "undefined"
  | .null => "null"
  | .boolean b => if b then "true" else "false"
  | .number n => numberText rt n
  | .string s => s
  | .array elems => String.intercalate "," (joinedTexts elems)
  | .object _ => "[object Object]"

/-- What the elements of an array contribute to its text. -/
def joinedTexts : List JsValue → List String
  | [] => []
  | .undefined :: vs | .null :: vs => "" :: joinedTexts vs
  | v :: vs => valueText v :: joinedTexts vs

end

/-- `${v}`. -/
def printed (v : JsValue) : Except JsException String :=
  if v.unprintable then .error .typeError else .ok (valueText rt v)

/-- `describeValue`, where the conversion to a string does not throw. -/
def describeValue (v : JsValue) : String := truncate (valueText rt v)

/-- The message of an error. A description that is empty is left out. -/
def SorobanZkError.message : SorobanZkError → String
  | .general message _ => message
  | .got message value _ => message ++ describeValue rt value
  | .input field reason _ detail =>
      let described := (detail.map (describeValue rt)).getD ""
      field ++ " " ++ reason ++ (if described = "" then "" else " (" ++ described ++ ")")
  | .networkMismatch expected actual => "ProofBundle targets network \"" ++ expected
      ++ "\" but the configured network is \"" ++ actual ++ "\""

/-- The message of whatever a function of the SDK throws. -/
def JsException.message : JsException → String
  | .zk e => e.message rt
  | .typeError => "Cannot convert object to primitive value"

example : (SorobanZkError.input "pi_a[0]" "is not a string (received object)" .invalidProofFormat
    (some (.array [.null, .string "7", .object []]))).message (Runtime.reading .null)
      = "pi_a[0] is not a string (received object) (,7,[object Object])" := by decide +kernel

/-! ## UTF-8 -/

/-- `Buffer.from(s, "utf8")`. -/
def utf8Bytes (s : String) : Bytes := s.toByteArray.data.toList

/-- `bytes.toString("utf8")`. -/
def Runtime.utf8Text (bytes : Bytes) : String :=
  match String.fromUTF8? ⟨bytes.toArray⟩ with
  | some s => s
  | none => rt.replaceInvalid bytes

/-- The bytes of a string are decoded to it. -/
theorem utf8Text_utf8Bytes (s : String) : rt.utf8Text (utf8Bytes s) = s := by
  have hdecoded : String.fromUTF8? ⟨(utf8Bytes s).toArray⟩ = some s := by
    rw [utf8Bytes, Array.toArray_toList, String.fromUTF8?, dif_pos s.isValidUTF8]
    rfl
  rw [Runtime.utf8Text, hdecoded]

/-! ## Objects -/

/-- The properties with one of them set: one that exists keeps its place, a new one goes last. -/
def setProperty (name : String) (value : JsValue) :
    List (String × JsValue) → List (String × JsValue)
  | [] => [(name, value)]
  | p :: props =>
      if p.1 == name then (name, value) :: props else p :: setProperty name value props

/-- `{ ...v, [name]: value }`, for an object. -/
def JsValue.set (v : JsValue) (name : String) (value : JsValue) : JsValue :=
  match v with
  | .object props => .object (setProperty name value props)
  | v => v

/-- The property that has been set. -/
theorem get_set_self (props : List (String × JsValue)) (name : String) (value : JsValue) :
    ((JsValue.object props).set name value).get name = value := by
  have hfound : ((setProperty name value props).find? fun p => p.1 == name)
      = some (name, value) := by
    induction props with
    | nil => simp [setProperty]
    | cons p props ih =>
        by_cases hp : (p.1 == name) = true
        · simp [setProperty, hp]
        · simp [setProperty, hp, ih]
  rw [JsValue.set, JsValue.get, hfound]
  rfl

/-- The other properties stay. -/
theorem get_set_of_ne (v : JsValue) {name other : String} (hne : other ≠ name) (value : JsValue) :
    (v.set name value).get other = v.get other := by
  cases v with
  | object props =>
      have hfind : ((setProperty name value props).find? fun p => p.1 == other)
          = props.find? fun p => p.1 == other := by
        induction props with
        | nil => simp [setProperty, hne.symm]
        | cons p props ih =>
            by_cases hp : p.1 = name
            · simp [setProperty, hp, hne.symm]
            · simp [setProperty, hp, List.find?_cons, ih]
      rw [JsValue.set, JsValue.get, hfind, JsValue.get]
  | _ => rfl

/-! ## `JSON.stringify` -/

/-- One character of a string in JSON. -/
def escape (c : Char) : List Char :=
  if c.toNat = 0x08 then "\\b".toList
  else if c.toNat = 0x09 then "\\t".toList
  else if c.toNat = 0x0a then "\\n".toList
  else if c.toNat = 0x0c then "\\f".toList
  else if c.toNat = 0x0d then "\\r".toList
  else if c.toNat = 0x22 then "\\\"".toList
  else if c.toNat = 0x5c then "\\\\".toList
  else if c.toNat < 0x20 then "\\u00".toList ++ hexPair (UInt8.ofNat c.toNat)
  else [c]

/-- A string in JSON. -/
def quote (s : String) : List Char := "\"".toList ++ s.toList.flatMap escape ++ "\"".toList

/-- Two spaces for each level, if the text is indented. -/
def indent (depth : ℕ) : List Char := List.replicate (2 * depth) ' '

/-- The members of an array or an object between their brackets, at a level. -/
def enclose (pretty : Bool) (depth : ℕ) (opening closing : Char) (members : List (List Char)) :
    List Char :=
  if members.isEmpty then [opening, closing]
  else if pretty then
    opening :: '\n' :: indent (depth + 1)
      ++ List.intercalate (',' :: '\n' :: indent (depth + 1)) members
      ++ '\n' :: indent depth ++ [closing]
  else opening :: List.intercalate [','] members ++ [closing]

section

variable (numeral : ℚ → String)

mutual

/-- The text of a value at a level; `undefined` has none and prints as in an array. -/
def jsonText (pretty : Bool) (depth : ℕ) : JsValue → List Char
  | .undefined | .null => "null".toList
  | .boolean b => (if b then "true" else "false").toList
  | .number (.finite q) => (numeral q).toList
  | .number (.infinity _) | .number .nan => "null".toList
  | .string s => quote s
  | .array elems => enclose pretty depth '[' ']' (elementTexts pretty (depth + 1) elems)
  | .object props => enclose pretty depth '\x7b' '\x7d' (memberTexts pretty (depth + 1) props)

/-- The texts of the elements of an array. -/
def elementTexts (pretty : Bool) (depth : ℕ) : List JsValue → List (List Char)
  | [] => []
  | v :: vs => jsonText pretty depth v :: elementTexts pretty depth vs

/-- The texts of the properties of an object, those that are `undefined` left out. -/
def memberTexts (pretty : Bool) (depth : ℕ) : List (String × JsValue) → List (List Char)
  | [] => []
  | (_, .undefined) :: props => memberTexts pretty depth props
  | (name, v) :: props =>
      (quote name ++ (if pretty then ": " else ":").toList ++ jsonText pretty depth v)
        :: memberTexts pretty depth props

end

end

/-- `JSON.stringify(v, null, 2)`, or without the indentation `JSON.stringify(v)`. -/
def Runtime.stringify (pretty : Bool) (v : JsValue) : String :=
  String.ofList (jsonText rt.numeral pretty 0 v)

example : (Runtime.reading .null).stringify false (.array [.number (.ofNat 7), .string "a\n\"",
    .object [("k", .undefined)], .array [.undefined, .boolean true]])
    = "[7,\"a\\n\\\"\",\x7b\x7d,[null,true]]" := by decide +kernel

example : (Runtime.reading .null).stringify true
    (.object [("k", .array [.null]), ("l", .string "")])
    = "\x7b\n  \"k\": [\n    null\n  ],\n  \"l\": \"\"\n\x7d" := by decide +kernel

/-- The text of an object starts with a brace. -/
theorem stringify_object (pretty : Bool) (props : List (String × JsValue)) :
    ∃ cs, (rt.stringify pretty (.object props)).toList = '\x7b' :: cs := by
  rw [Runtime.stringify, String.toList_ofList, jsonText, enclose]
  split
  · exact ⟨_, rfl⟩
  · split
    · exact ⟨_, rfl⟩
    · exact ⟨_, rfl⟩

end ZkStellar.Sdk

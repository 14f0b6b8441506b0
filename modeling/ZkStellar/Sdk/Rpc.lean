import ZkStellar.Sdk.Json

set_option autoImplicit false

/-! # What the SDK makes of a node's answers

`verify.ts` talks to the chain through a third-party library: its decoders are parameters
(`StellarSdk`), and so are the answers of the node. What it raises itself passes through its `catch`
blocks as it is; everything else that is thrown there becomes one of its own errors, with a code
read off the message (`classifyError`). So none of its functions throws anything but a
`SorobanZkError`. -/

namespace ZkStellar.Sdk

/-! ## Decoded values -/

/-- A value as the library decodes it. -/
inductive Native where
  | null
  | boolean (b : Bool)
  | integer (n : ℤ)
  | string (s : String)
  | bytes (bs : Bytes)
  | array (elems : List Native)
  | object (entries : List (String × Native))

namespace Native

/-- `Boolean(v)`. -/
def truthy : Native → Bool
  | .null => false
  | .boolean b => b
  | .integer n => n != 0
  | .string s => s != ""
  | .bytes _ | .array _ | .object _ => true

/-- `v === s`. -/
def isString (v : Native) (s : String) : Bool :=
  match v with
  | .string t => t == s
  | _ => false

end Native

/-- A diagnostic event, its fields that are read. -/
structure DiagnosticEvent (ScVal : Type) where
  topics : List ScVal
  data : ScVal

/-- The decoders of `@stellar/stellar-sdk`; each throws with a message. -/
structure StellarSdk where
  ScVal : Type
  scValToNative : ScVal → Except String Native
  /-- `xdr.DiagnosticEvent.fromXDR(s, "base64")`. -/
  diagnosticEvent : String → Except String (DiagnosticEvent ScVal)
  /-- `xdr.TransactionResult.fromXDR(s, "base64").feeCharged.toString()`. -/
  feeCharged : String → Except String String

/-! ## Errors -/

/-- `CONTRACT_ERROR_CODES`. -/
def contractErrorCodes : ℕ → Option SorobanZkErrorCode
  | 1 => some .contractNotInitialized
  | 2 => some .rateLimitExceeded
  | 3 => some .invalidWindowSize
  | 4 => some .proofExpired
  | 5 => some .callerNotAllowed
  | 8 => some .contractPaused
  | _ => none

/-- What `/Error\(Contract,\s*#(\d+)\)/` captures, if it matches at the start of a text. -/
def contractErrorAt (cs : List Char) : Option ℕ :=
  let opening := "Error(Contract,".toList
  if opening.isPrefixOf cs then
    match (cs.drop opening.length).dropWhile isWhitespace with
    | '#' :: rest =>
        let digits := rest.takeWhile Char.isDigit
        if !digits.isEmpty && (rest.dropWhile Char.isDigit).head? == some ')' then
          some (Nat.ofDigitChars 10 digits 0)
        else none
    | _ => none
  else none

/-- `extractContractErrorCode`: the code of the first match. -/
def extractContractErrorCode (message : String) : Option SorobanZkErrorCode :=
  (message.toList.tails.findSome? contractErrorAt).bind contractErrorCodes

/-- `c.toLowerCase()`, as far as words of ASCII letters can tell: the Kelvin sign is the one other
    character that becomes a letter of ASCII. -/
def lowerCase (c : Char) : Char := if c = '\u212A' then 'k' else c.toLower

/-- `s.includes(word)`, on the characters of `s`. -/
def includes (cs : List Char) (word : String) : Bool := cs.tails.any word.toList.isPrefixOf

/-- `classifyError`, from the message of what was thrown. -/
def classifyError (message : String) : SorobanZkError :=
  match extractContractErrorCode message with
  | some code => .general message code
  | none =>
      let lowered := message.toList.map lowerCase
      if includes lowered "resource" || includes lowered "instruction"
          || includes lowered "limit" then
        .general message .resourceLimitExceeded
      else if includes lowered "network" || includes lowered "fetch"
          || includes lowered "timeout" then
        .general message .networkError
      else .general message .contractInvocationFailed

example : (classifyError "HostError: Error(Contract, #2)").code = .rateLimitExceeded ∧
    (classifyError "Error(Contract, #9) at the Fetch stage").code = .networkError ∧
    (classifyError "some unrelated RPC failure").code = .contractInvocationFailed := by
  decide +kernel

/-- What is thrown inside a `try` block: an error of the SDK, or something else with a message. -/
inductive Thrown where
  | zk (e : SorobanZkError)
  | other (message : String)

/-- A call of the library inside a `try` block. -/
def libraryCall {α : Type} : Except String α → Except Thrown α
  | .ok a => .ok a
  | .error message => .error (.other message)

/-- A call of the SDK's own code inside a `try` block. -/
def ownCall {α : Type} : Except SorobanZkError α → Except Thrown α
  | .ok a => .ok a
  | .error e => .error (.zk e)

/-- The `try` block of each function of `verify.ts`, with its `catch`. -/
def tryCatch {α : Type} : Except Thrown α → Except SorobanZkError α
  | .ok a => .ok a
  | .error (.zk e) => .error e
  | .error (.other message) => .error (classifyError message)

section Lemmas

variable {α : Type} {a : α}

theorem tryCatch_eq_ok_iff {r : Except Thrown α} : tryCatch r = .ok a ↔ r = .ok a := by
  rcases r with (e | message) | a' <;> simp [tryCatch]

theorem libraryCall_eq_ok_iff {r : Except String α} : libraryCall r = .ok a ↔ r = .ok a := by
  cases r <;> simp [libraryCall]

end Lemmas

end ZkStellar.Sdk

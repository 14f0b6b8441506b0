import ZkStellar.Registry.Contract
import ZkStellar.Sdk.Encoding

set_option autoImplicit false

/-! # Nullifiers off the chain

`computeInputsHash` and `computeNullifier` of the SDK and the command `check-nullifier` of its CLI
recompute what the registry contract computes. The SDK feeds a hash object piece by piece, the CLI
hashes a concatenation, the contract appends to a byte string; the three agree on every list of
public inputs but the empty one, which the SDK does not hash. -/

namespace ZkStellar.Sdk

variable (h : Host)

/-! ## Hash objects -/

/-- A hash object: it holds what it has been given so far. -/
structure HashObject where
  received : Bytes

/-- `createHash("sha256")`. -/
def createHash : HashObject := ⟨[]⟩

/-- `hash.update(data)`. -/
def HashObject.update (hash : HashObject) (data : Bytes) : HashObject :=
  ⟨hash.received ++ data⟩

/-- `hash.digest()`. -/
def HashObject.digest (hash : HashObject) : Bytes := (h.sha256 hash.received).bytes

theorem received_foldl_update (chunks : List Bytes) (hash : HashObject) :
    (chunks.foldl HashObject.update hash).received = hash.received ++ chunks.flatten := by
  induction chunks generalizing hash with
  | nil => simp
  | cons chunk chunks ih =>
      rw [List.foldl_cons, ih, HashObject.update, List.flatten_cons, List.append_assoc]

/-! ## The SDK -/

/-- `computeInputsHash`, for an array of buffers. -/
def computeInputsHash (publicInputs : List Bytes) : Except SorobanZkError Bytes := do
  throwIf publicInputs.isEmpty
    (.general "computeInputsHash: publicInputs must be a non-empty array" .invalidPublicInput)
  forEachFrom (fun i input => throwIf (input.length ≠ 32)
    (.general ("computeInputsHash: publicInputs[" ++ toString i ++ "] must be a 32-byte Buffer")
      .invalidPublicInput)) 0 publicInputs
  return (publicInputs.foldl HashObject.update createHash).digest h

/-- `!Number.isInteger(circuitId) || circuitId < 0 || circuitId > 0xffffffff`. -/
def notU32 (circuitId : JsNumber) : Bool :=
  !circuitId.isInteger || (JsNumber.ofNat 0).gt circuitId || circuitId.gt (.ofNat 0xffffffff)

/-- `computeNullifier`. -/
def computeNullifier (circuitId : JsNumber) (publicInputs : List Bytes) :
    Except SorobanZkError Bytes := do
  throwIf (notU32 circuitId)
    (.general "computeNullifier: circuitId must be an unsigned 32-bit integer" .invalidPublicInput)
  let inputsHash ← computeInputsHash h publicInputs
  let circuitIdBytes := toBe 4 circuitId.toNat
  return ((createHash.update circuitIdBytes).update inputsHash).digest h

/-! ## The CLI -/

/-- `bytes.toString("hex")`. -/
def hexText (bytes : Bytes) : String := String.ofList (bytes.flatMap hexPair)

/-- `formatList`, the first value being at `index`. -/
def formatList : ℕ → List JsValue → List String
  | _, [] => []
  | index, .string value :: values =>
      ("  [" ++ toString index ++ "] " ++ value) :: formatList (index + 1) values
  | index, _ :: values => formatList (index + 1) values

/-- `commandCheckNullifier`, from the parsed files on. -/
def commandCheckNullifier (proof publicSignals : JsValue) (circuitId : JsNumber) :
    Except JsException (List String) := do
  throwIf (notU32 circuitId)
    (.zk (.general "--circuit-id must be a u32 integer" .invalidPublicInput))
  let calldata ← formatProof proof publicSignals none
  let signals ← signalsOf publicSignals
  let inputsConcat := calldata.publicInputs.flatten
  let inputsHash := (createHash.update inputsConcat).digest h
  let circuitIdBe := toBe 4 circuitId.toNat
  let nullifier := hexText ((createHash.update (circuitIdBe ++ inputsHash)).digest h)
  return ["command: check-nullifier",
      "circuit id:   " ++ toString circuitId.toNat,
      "public inputs: " ++ toString signals.length]
    ++ formatList 0 signals ++
    ["",
      "inputs_hash:  " ++ hexText inputsHash,
      "nullifier:    " ++ nullifier,
      "",
      "To check whether this proof has already been consumed on-chain, query:",
      "  stellar contract invoke --id <registry-contract-id> \\",
      "    -- is_nullifier_used --nullifier '" ++ nullifier ++ "'"]

/-- The text of a byte string reads back. -/
theorem hexBytes_hexText (bytes : Bytes) : hexBytes (hexText bytes).toList = bytes := by
  rw [hexText, String.toList_ofList, hexBytes_flatMap_hexPair]

/-! ## Agreement -/

/-- A circuit id passes the range check. -/
theorem notU32_ofNat (id : UInt32) : notU32 (.ofNat id.toNat) = false := by
  have hle : ¬ 0xffffffff < id.toNat := not_lt.2 (Nat.le_of_lt_succ id.toNat_lt)
  simp [notU32, hle]

/-- Byte strings of the contract's width are strings of that type. -/
theorem exists_bytesN {n : ℕ} {bs : List Bytes} (hbs : ∀ b ∈ bs, b.length = n) :
    ∃ xs : List (BytesN n), bs = xs.map BytesN.bytes := by
  induction bs with
  | nil => exact ⟨[], rfl⟩
  | cons b bs ih =>
      obtain ⟨hb, hbs⟩ := List.forall_mem_cons.1 hbs
      obtain ⟨xs, rfl⟩ := ih hbs
      exact ⟨⟨b, hb⟩ :: xs, rfl⟩

theorem concatBytes_eq_flatten {n : ℕ} (xs : List (BytesN n)) :
    concatBytes xs = (xs.map BytesN.bytes).flatten := by
  rw [concatBytes, List.flatMap_def]

variable {h}

/-- The SDK hashes inputs as the contract does, unless there are none. -/
theorem computeInputsHash_eq (xs : List (BytesN 32)) :
    computeInputsHash h (xs.map BytesN.bytes) =
      if xs = [] then .error (.general
        "computeInputsHash: publicInputs must be a non-empty array" .invalidPublicInput)
      else .ok (ZkStellar.computeInputsHash h xs).bytes := by
  by_cases hxs : xs = []
  · subst hxs
    rfl
  · have hlengths : ∀ b ∈ xs.map BytesN.bytes, b.length = 32 := by
      rintro _ hb
      obtain ⟨x, -, rfl⟩ := List.mem_map.1 hb
      exact x.length_eq
    rw [if_neg hxs]
    simp only [computeInputsHash, bind_eq_ok_iff, throwIf_eq_ok_iff, exists_const]
    refine ⟨by simpa using hxs, (), ?_, ?_⟩
    · refine (forEachFrom_eq_ok_iff (p := fun b : Bytes => b.length = 32) ?_).2 hlengths
      intro i b u
      simp [throwIf_eq_ok_iff]
    · rw [HashObject.digest, received_foldl_update, ← concatBytes_eq_flatten]
      rfl

theorem computeNullifier_eq (id : UInt32) (xs : List (BytesN 32)) :
    computeNullifier h (.ofNat id.toNat) (xs.map BytesN.bytes) =
      if xs = [] then .error (.general
        "computeInputsHash: publicInputs must be a non-empty array" .invalidPublicInput)
      else .ok (Registry.computeNullifier h id (ZkStellar.computeInputsHash h xs)).bytes := by
  have hcheck : throwIf (notU32 (.ofNat id.toNat)) (SorobanZkError.general
      "computeNullifier: circuitId must be an unsigned 32-bit integer" .invalidPublicInput)
      = .ok () := throwIf_eq_ok_iff.2 (notU32_ofNat id)
  rw [computeNullifier, hcheck, computeInputsHash_eq]
  split
  · rfl
  · simp [HashObject.digest, HashObject.update, createHash, Registry.computeNullifier,
      Registry.nullifierMessage, bind, Except.bind, pure, Except.pure]

/-- The line of `check-nullifier` with the nullifier shows the contract's nullifier. -/
theorem commandCheckNullifier_line {proof : JsValue} {publicSignals : List JsValue}
    {calldata : SorobanProofCalldata} {xs : List (BytesN 32)} (id : UInt32)
    (hok : formatProof proof (.array publicSignals) none = .ok calldata)
    (hxs : calldata.publicInputs = xs.map BytesN.bytes) :
    ∃ lines, commandCheckNullifier h proof (.array publicSignals) (.ofNat id.toNat) = .ok lines ∧
      "nullifier:    " ++ hexText
        (Registry.computeNullifier h id (ZkStellar.computeInputsHash h xs)).bytes ∈ lines := by
  simp only [commandCheckNullifier, bind_eq_ok_iff, throwIf_eq_ok_iff, exists_const]
  refine ⟨_, ⟨notU32_ofNat id, calldata, hok, publicSignals, rfl, rfl⟩, ?_⟩
  rw [hxs, ← concatBytes_eq_flatten]
  simp [HashObject.digest, HashObject.update, createHash, Registry.computeNullifier,
    Registry.nullifierMessage, ZkStellar.computeInputsHash]

/-- For every list of public inputs that `formatProof` returns, the contract, the CLI and, unless
    the list is empty, the SDK compute one nullifier. -/
theorem nullifiers_agree {proof cliProof : JsValue} {publicSignals cliSignals : List JsValue}
    {expiryLedger : Option JsNumber} {calldata cliCalldata : SorobanProofCalldata} (id : UInt32)
    (hok : formatProof proof (.array publicSignals) expiryLedger = .ok calldata)
    (hcli : formatProof cliProof (.array cliSignals) none = .ok cliCalldata)
    (hsame : cliCalldata.publicInputs = calldata.publicInputs) :
    ∃ xs : List (BytesN 32), calldata.publicInputs = xs.map BytesN.bytes ∧
      let nullifier := Registry.computeNullifier h id (ZkStellar.computeInputsHash h xs)
      computeNullifier h (.ofNat id.toNat) calldata.publicInputs =
        (if calldata.publicInputs = [] then .error (.general
          "computeInputsHash: publicInputs must be a non-empty array" .invalidPublicInput)
        else .ok nullifier.bytes) ∧
      ∃ lines, commandCheckNullifier h cliProof (.array cliSignals) (.ofNat id.toNat) = .ok lines ∧
        "nullifier:    " ++ hexText nullifier.bytes ∈ lines := by
  obtain ⟨xs, hxs⟩ := exists_bytesN (wellSized_of_formatProof hok).2.2.2
  refine ⟨xs, hxs, ?_, commandCheckNullifier_line id hcli (hsame.trans hxs)⟩
  rw [hxs, computeNullifier_eq]
  simp

/-- One public input. -/
theorem nullifiers_agree_one :
    ∃ xs : List (BytesN 32), (zeroCalldata 7).publicInputs = xs.map BytesN.bytes ∧
      let nullifier := Registry.computeNullifier Host.scalar 1
        (ZkStellar.computeInputsHash Host.scalar xs)
      computeNullifier Host.scalar (.ofNat (1 : UInt32).toNat) (zeroCalldata 7).publicInputs =
        (if (zeroCalldata 7).publicInputs = [] then .error (.general
          "computeInputsHash: publicInputs must be a non-empty array" .invalidPublicInput)
        else .ok nullifier.bytes) ∧
      ∃ lines, commandCheckNullifier Host.scalar zeroProof (.array [.string "0x7"])
          (.ofNat (1 : UInt32).toNat) = .ok lines ∧
        "nullifier:    " ++ hexText nullifier.bytes ∈ lines :=
  nullifiers_agree 1
    (show formatProof zeroProof (.array [.string "7"]) none = .ok (zeroCalldata 7) by
      decide +kernel)
    (show formatProof zeroProof (.array [.string "0x7"]) none = .ok (zeroCalldata 7) by
      decide +kernel) rfl

/-- Without public inputs the SDK throws where the contract has a nullifier. -/
theorem no_inputs_rejected :
    formatProof zeroProof (.array []) none = .ok ⟨zeroG1, zeroG2, zeroG1, []⟩ ∧
      computeNullifier Host.scalar (.ofNat 1) [] ≠ .ok (Registry.computeNullifier Host.scalar 1
        (ZkStellar.computeInputsHash Host.scalar [])).bytes := by
  refine ⟨by decide +kernel, ?_⟩
  intro heq
  have hthrows := computeNullifier_eq (h := Host.scalar) 1 []
  rw [if_pos rfl] at hthrows
  exact absurd (hthrows.symm.trans heq) (by simp)

end ZkStellar.Sdk

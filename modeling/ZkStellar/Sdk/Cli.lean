import ZkStellar.Circuits.Commitment
import ZkStellar.Sdk.DecodeBundle
import ZkStellar.Sdk.MerkleRoot

set_option autoImplicit false

/-! # The command line

`runCli` dispatches on its first argument; the commands read the rest through flags only, so it does
not matter in which order flags are given (`runCli_perm`). The commands that take a proof fail on
the same files and count the same bytes (`calldata_commands`). -/

namespace ZkStellar.Sdk

/-- What the commands use of their surroundings: the file system, the conversion of strings and
    other values to numbers, and Poseidon's tables. -/
structure Shell where
  rt : Runtime
  readFile : String → Option String
  number : String → JsNumber
  toNumber : JsValue → JsNumber
  constants : PoseidonPreparedConstants

/-- What a command can throw: what the SDK's functions throw, a `SyntaxError`, or the error of a
    file that cannot be read. -/
inductive CliException where
  | zk (e : SorobanZkError)
  | typeError
  | syntaxError
  | fileError
deriving DecidableEq

/-- A function of the SDK, among the commands. -/
def callZk {α : Type} : Except SorobanZkError α → Except CliException α
  | .ok a => .ok a
  | .error e => .error (.zk e)

/-- A function that throws a `TypeError` too. -/
def callJs {α : Type} : Except JsException α → Except CliException α
  | .ok a => .ok a
  | .error (.zk e) => .error (.zk e)
  | .error .typeError => .error .typeError

/-! ## Flags -/

/-- `getFlag`. -/
def getFlag (args : List String) (name : String) : Option String :=
  let index := args.idxOf name
  if args.length ≤ index || index = args.length - 1 then none else args[index + 1]?

/-- `requireFlag`. -/
def requireFlag (args : List String) (name : String) : Except CliException String :=
  match getFlag args name with
  | none => .error (.zk (.general ("Missing required flag: " ++ name) .invalidProofFormat))
  | some value => .ok value

variable (sh : Shell) (h : Host)

/-- `readJson`. -/
def readJson (path : String) : Except CliException JsValue :=
  match sh.readFile path with
  | none => .error .fileError
  | some text =>
      match sh.rt.parse text with
      | .error _ => .error .syntaxError
      | .ok v => .ok v

/-! ## The commands -/

/-- `commandProve`. -/
def commandProve (args : List String) : Except CliException (List String) := do
  let text ← requireFlag args "--secret"
  let secret ← (bigIntOf text).elim (.error .syntaxError) .ok
  let commitment ← callZk (poseidon sh.constants [secret])
  return ["command: prove",
    "circuit: poseidon_preimage",
    "secret: " ++ toString secret,
    "commitment: " ++ toString commitment,
    "circuit input:",
    "  secret: " ++ toString secret,
    "  commitment: " ++ toString commitment]

/-- The files of a proof and its public signals, encoded. -/
def calldataOf (args : List String) : Except CliException SorobanProofCalldata := do
  let proofPath ← requireFlag args "--proof"
  let proof ← readJson sh proofPath
  let publicPath ← requireFlag args "--public"
  let publicSignals ← readJson sh publicPath
  callJs (formatProof proof publicSignals none)

/-- `commandVerify`. -/
def commandVerify (args : List String) : Except CliException (List String) := do
  let calldata ← calldataOf sh args
  return ["command: verify",
    "calldata encoding: ok",
    "proofA bytes: " ++ toString calldata.proofA.length,
    "proofB bytes: " ++ toString calldata.proofB.length,
    "proofC bytes: " ++ toString calldata.proofC.length,
    "public inputs: " ++ toString calldata.publicInputs.length]

/-- `commandInspect`. -/
def commandInspect (args : List String) : Except CliException (List String) := do
  let bundlePath ← requireFlag args "--bundle"
  let bundle ← readJson sh bundlePath
  throwIf (match bundle with | .undefined | .null => true | _ => false) .typeError
  let calldata ← callJs (formatProof (bundle.get "proof") (bundle.get "publicSignals") none)
  let circuit ← callJs (printed sh.rt (bundle.get "circuit"))
  let generatedAt ← callJs (printed sh.rt (bundle.get "generatedAt"))
  let networkPassphrase ← callJs (printed sh.rt (bundle.get "networkPassphrase"))
  let protocol ← callJs (printed sh.rt ((bundle.get "proof").get "protocol"))
  let signals ← callJs (signalsOf (bundle.get "publicSignals"))
  return ["command: inspect",
      "circuit: " ++ circuit,
      "generatedAt: " ++ generatedAt,
      "networkPassphrase: " ++ networkPassphrase,
      "proof protocol: " ++ protocol,
      "public signals:"]
    ++ formatList 0 signals ++
    ["calldata bytes: " ++ toString (calldata.proofA.length + calldata.proofB.length
      + calldata.proofC.length)]

/-- `commandEstimateFee`. -/
def commandEstimateFee (args : List String) : Except CliException (List String) := do
  let calldata ← calldataOf sh args
  let proofBytes := calldata.proofA.length + calldata.proofB.length + calldata.proofC.length
  let publicBytes := calldata.publicInputs.foldl (fun total item => total + item.length) 0
  let totalBytes := proofBytes + publicBytes
  let estimatedFee := 100 + totalBytes * 7
  return ["command: estimate-fee",
    "proof bytes: " ++ toString proofBytes,
    "public input bytes: " ++ toString publicBytes,
    "total bytes: " ++ toString totalBytes,
    "estimated fee (stroops): " ++ toString estimatedFee]

/-- `REGISTRY_CONTRACT_ID`. -/
def registryContractId : String := "CDTPNARKKZCZ36PL4BNKBXZTT2BLVR373S2K5NCFAOKCPPY62ESRHSXH"

/-- The object with a formatted key in hexadecimal. -/
def keyObject (key : RegistryVerifyingKey) : JsValue :=
  .object [("alpha", .string (hexText key.alpha)), ("beta", .string (hexText key.beta)),
    ("gamma", .string (hexText key.gamma)), ("delta", .string (hexText key.delta)),
    ("ic", .array (key.ic.map fun point => .string (hexText point)))]

/-- `commandFormatVk`. -/
def commandFormatVk (args : List String) : Except CliException (List String) := do
  let id ← requireFlag args "--id"
  let vkPath ← requireFlag args "--vk"
  let vk ← readJson sh vkPath
  let registryId := (getFlag args "--registry-id").getD registryContractId
  let key ← callJs (formatVerifyingKey sh.toNumber vk)
  let vkJson := sh.rt.stringify false (keyObject key)
  return ["command: format-vk",
    "circuit id: " ++ id,
    "registry: " ++ registryId,
    "alpha bytes: " ++ toString key.alpha.length,
    "beta bytes: " ++ toString key.beta.length,
    "gamma bytes: " ++ toString key.gamma.length,
    "delta bytes: " ++ toString key.delta.length,
    "ic points: " ++ toString key.ic.length,
    "",
    "stellar contract invoke \\",
    "  --id " ++ registryId ++ " \\",
    "  --network testnet \\",
    "  --source-account <registry-admin> \\",
    "  -- register_circuit --id " ++ id ++ " --vk '" ++ vkJson ++ "'"]

/-- The command `decode-bundle`, from the arguments on. -/
def decodeBundleArgs (args : List String) : Except CliException (List String) := do
  let bundlePath ← requireFlag args "--bundle"
  let raw ← readJson sh bundlePath
  callJs (commandDecodeBundle sh.rt h bundlePath raw)

/-- The command `check-nullifier`, from the arguments on. -/
def checkNullifierArgs (args : List String) : Except CliException (List String) := do
  let proofPath ← requireFlag args "--proof"
  let proof ← readJson sh proofPath
  let publicPath ← requireFlag args "--public"
  let publicSignals ← readJson sh publicPath
  let circuitId ← requireFlag args "--circuit-id"
  callJs (commandCheckNullifier h proof publicSignals (sh.number circuitId))

/-- The leaves in the argument of `merkle-root`, the first of them being at `index`. -/
def readLeaves : ℕ → List String → Except SorobanZkError (List ℤ)
  | _, [] => .ok []
  | index, s :: rest => do
      let leaf ← (bigIntOf s).elim (.error (.general ("leaves[" ++ toString index ++ "] \"" ++ s
        ++ "\" is not a valid integer") .invalidPublicInput)) .ok
      let leaves ← readLeaves (index + 1) rest
      return leaf :: leaves

/-- `commandMerkleRoot`. -/
def commandMerkleRoot (args : List String) : Except CliException (List String) := do
  let leavesRaw ← requireFlag args "--leaves"
  let leafStrings := ((leavesRaw.toList.splitOn ',').map fun s => trim (String.ofList s)).filter
    (· ≠ "")
  throwIf (leafStrings.length = 0) (.zk (.general
    "--leaves must be a non-empty comma-separated list of field elements" .invalidPublicInput))
  let leaves ← callZk (readLeaves 0 leafStrings)
  let _ ← callZk (buildMerkleTree sh.constants leaves)
  let root ← callZk (computeMerkleRoot sh.constants leaves)
  return ["command: merkle-root",
      "leaves:  " ++ toString leaves.length]
    ++ formatList 0 (leaves.map fun l => .string (toString l)) ++
    ["",
      "depth:   " ++ toString 20,
      "root:    " ++ toString root,
      "",
      "Pass this root as the `root` public input to the merkle_inclusion circuit."]

/-- `USAGE`. -/
def usage : String := "\n".intercalate [
  "zksoroban <command> [options]",
  "",
  "Commands:",
  "  prove          --secret <decimal>                     compute Poseidon commitment",
  "  verify         --proof <file> --public <file>         encode to Soroban calldata",
  "  inspect        --bundle <file>                        print ProofBundle metadata",
  "  estimate-fee   --proof <file> --public <file>         deterministic fee estimate",
  "  format-vk      --vk <file> --id <u32> [--registry-id <id>]  encode VK for register_circuit",
  "  decode-bundle  --bundle <file>                        "
    ++ "decode and integrity-check a ProofBundle",
  "  check-nullifier --proof <file> --public <file> --circuit-id <u32>  "
    ++ "compute the registry nullifier hash",
  "  merkle-root    --leaves <n1,n2,...>                   "
    ++ "compute Poseidon Merkle root from a list of field elements"]

/-- `runCli`. -/
def runCli (argv : List String) : Except CliException String :=
  let command := argv.head?
  let args := argv.tail
  let lines :=
    match command with
    | some "prove" => some (commandProve sh args)
    | some "verify" => some (commandVerify sh args)
    | some "inspect" => some (commandInspect sh args)
    | some "estimate-fee" => some (commandEstimateFee sh args)
    | some "format-vk" => some (commandFormatVk sh args)
    | some "decode-bundle" => some (decodeBundleArgs sh h args)
    | some "check-nullifier" => some (checkNullifierArgs sh h args)
    | some "merkle-root" => some (commandMerkleRoot sh args)
    | _ => none
  match lines with
  | some lines => lines.map fun lines => "\n".intercalate lines
  | none => .ok usage

/-! ## The order of flags -/

/-- The flags that the commands read. -/
def knownFlags : List String :=
  ["--secret", "--proof", "--public", "--bundle", "--id", "--vk", "--registry-id", "--circuit-id",
    "--leaves"]

/-- Arguments that are flags with their values. -/
def flagArgs (flags : List (String × String)) : List String := flags.flatMap fun p => [p.1, p.2]

section

variable {sh : Shell} {h : Host}

/-- A flag that is no value of another one is found with its value. -/
theorem getFlag_flagArgs {flags : List (String × String)} {name : String}
    (hname : ∀ p ∈ flags, p.2 ≠ name) :
    getFlag (flagArgs flags) name = (flags.find? fun p => p.1 == name).map Prod.snd := by
  induction flags with
  | nil => rfl
  | cons p flags ih =>
      obtain ⟨hp, hflags⟩ := List.forall_mem_cons.1 hname
      have hargs : flagArgs (p :: flags) = p.1 :: p.2 :: flagArgs flags := rfl
      by_cases heq : p.1 = name
      · have hindex : (p.1 :: p.2 :: flagArgs flags).idxOf name = 0 := by
          rw [heq, List.idxOf_cons_self]
        rw [hargs, List.find?_cons_of_pos (by simp [heq]), getFlag, hindex]
        simp
      · have hindex : (p.1 :: p.2 :: flagArgs flags).idxOf name
            = (flagArgs flags).idxOf name + 2 := by
          rw [List.idxOf_cons_ne _ heq, List.idxOf_cons_ne _ hp]
        have hbounds : ((p.1 :: p.2 :: flagArgs flags).length ≤ (flagArgs flags).idxOf name + 2 ∨
              (flagArgs flags).idxOf name + 2 = (p.1 :: p.2 :: flagArgs flags).length - 1) ↔
            ((flagArgs flags).length ≤ (flagArgs flags).idxOf name ∨
              (flagArgs flags).idxOf name = (flagArgs flags).length - 1) := by
          simp only [List.length_cons]
          omega
        rw [hargs, List.find?_cons_of_neg (by simp [heq]), ← ih hflags, getFlag, getFlag, hindex]
        simp only [Bool.or_eq_true, decide_eq_true_eq, hbounds]
        rfl

/-- With different names, the value of a flag does not depend on where the flag stands. -/
theorem find?_perm {flags flags' : List (String × String)} (hperm : flags.Perm flags')
    (hnames : (flags.map Prod.fst).Nodup) (name : String) :
    (flags.find? fun p => p.1 == name) = flags'.find? fun p => p.1 == name := by
  have hfound : ∀ {flags : List (String × String)}, (flags.map Prod.fst).Nodup → ∀ p,
      (flags.find? fun p => p.1 == name) = some p ↔ p ∈ flags ∧ p.1 = name := by
    intro flags hnames p
    induction flags with
    | nil => simp
    | cons q flags ih =>
        obtain ⟨hq, hnames⟩ := List.nodup_cons.1 hnames
        by_cases heq : q.1 = name
        · rw [List.find?_cons_of_pos (by simp [heq]), Option.some.injEq, List.mem_cons]
          refine ⟨?_, ?_⟩
          · rintro rfl
            exact ⟨.inl rfl, heq⟩
          · rintro ⟨rfl | hp, hpname⟩
            · rfl
            · exact absurd (List.mem_map.2 ⟨p, hp, hpname.trans heq.symm⟩) hq
        · rw [List.find?_cons_of_neg (by simp [heq]), ih hnames, List.mem_cons]
          refine and_congr_left ?_
          intro hpname
          refine ⟨.inr, ?_⟩
          rintro (rfl | hp)
          · exact absurd hpname heq
          · exact hp
  refine Option.ext fun p => ?_
  rw [hfound hnames, hfound ((hperm.map _).nodup_iff.1 hnames), hperm.mem_iff]

/-- The commands read their arguments through the known flags. -/
theorem runCli_congr {args args' : List String}
    (hflags : ∀ name ∈ knownFlags, getFlag args name = getFlag args' name) (command : String) :
    runCli sh h (command :: args) = runCli sh h (command :: args') := by
  simp only [knownFlags, List.forall_mem_cons, List.not_mem_nil, false_implies, implies_true,
    and_true] at hflags
  obtain ⟨hsecret, hproof, hpublic, hbundle, hid, hvk, hregistry, hcircuit, hleaves⟩ := hflags
  simp only [runCli, List.head?_cons, List.tail_cons, commandProve, commandVerify, commandInspect,
    commandEstimateFee, commandFormatVk, decodeBundleArgs, checkNullifierArgs, commandMerkleRoot,
    calldataOf, requireFlag, hsecret, hproof, hpublic, hbundle, hid, hvk, hregistry, hcircuit,
    hleaves]

/-- Flags may be given in any order, and with unknown ones among them, as long as none is given
    twice and no value is itself the name of a known flag. -/
theorem runCli_perm {flags flags' : List (String × String)} (hperm : flags.Perm flags')
    (hnames : (flags.map Prod.fst).Nodup) (hvalues : ∀ p ∈ flags, p.2 ∉ knownFlags)
    (command : String) :
    runCli sh h (command :: flagArgs flags) = runCli sh h (command :: flagArgs flags') := by
  refine runCli_congr ?_ command
  intro name hname
  have hne : ∀ p ∈ flags, p.2 ≠ name := fun p hp heq => hvalues p hp (heq ▸ hname)
  rw [getFlag_flagArgs hne, getFlag_flagArgs fun p hp => hne p (hperm.mem_iff.2 hp),
    find?_perm hperm hnames]

/-! ## Commands on a proof -/

/-- What `verify` and `estimate-fee` print on a proof with some number of public signals. -/
def verifyReport (count : ℕ) : List String :=
  ["command: verify", "calldata encoding: ok", "proofA bytes: " ++ toString 64,
    "proofB bytes: " ++ toString 128, "proofC bytes: " ++ toString 64,
    "public inputs: " ++ toString count]

def feeReport (count : ℕ) : List String :=
  ["command: estimate-fee", "proof bytes: " ++ toString 256,
    "public input bytes: " ++ toString (32 * count),
    "total bytes: " ++ toString (256 + 32 * count),
    "estimated fee (stroops): " ++ toString (1892 + 224 * count)]

theorem foldl_lengths {inputs : List Bytes} (hinputs : ∀ b ∈ inputs, b.length = 32) (start : ℕ) :
    inputs.foldl (fun total item => total + item.length) start = start + 32 * inputs.length := by
  induction inputs generalizing start with
  | nil => rfl
  | cons b inputs ih =>
      obtain ⟨hb, hinputs⟩ := List.forall_mem_cons.1 hinputs
      rw [List.foldl_cons, ih hinputs, hb, List.length_cons]
      omega

theorem length_encodePublicInputs {index : ℕ} {signals : List JsValue} {inputs : List Bytes}
    (hok : encodePublicInputs index signals = .ok inputs) : inputs.length = signals.length := by
  induction signals generalizing index inputs with
  | nil =>
      cases hok
      rfl
  | cons signal signals ih =>
      simp only [encodePublicInputs, bind_eq_ok_iff] at hok
      obtain ⟨v, -, rest, hrest, hpure⟩ := hok
      cases hpure
      rw [List.length_cons, ih hrest, List.length_cons]

theorem callZk_eq_ok_iff {α : Type} {x : Except SorobanZkError α} {a : α} :
    callZk x = .ok a ↔ x = .ok a := by
  rcases x with e | a' <;> simp [callZk]

theorem callJs_eq_ok_iff {α : Type} {x : Except JsException α} {a : α} :
    callJs x = .ok a ↔ x = .ok a := by
  rcases x with (e | _) | a' <;> simp [callJs]

theorem requireFlag_eq_ok_iff {args : List String} {name value : String} :
    requireFlag args name = .ok value ↔ getFlag args name = some value := by
  rw [requireFlag]
  rcases getFlag args name with _ | value' <;> simp

/-- The flags `--proof` and `--public` name files with a proof and public signals that `formatProof`
    accepts. -/
def AcceptedFiles (sh : Shell) (args : List String) (signals : List JsValue) : Prop :=
  ∃ proof calldata, formatProof proof (.array signals) none = .ok calldata ∧
    (∃ path, getFlag args "--proof" = some path ∧ readJson sh path = .ok proof) ∧
    ∃ path, getFlag args "--public" = some path ∧ readJson sh path = .ok (.array signals)

/-- The files are read and encoded exactly when `formatProof` accepts them. -/
theorem calldataOf_eq_ok_iff {args : List String} {calldata : SorobanProofCalldata} :
    calldataOf sh args = .ok calldata ↔
      ∃ proof signals, formatProof proof (.array signals) none = .ok calldata ∧
        (∃ path, getFlag args "--proof" = some path ∧ readJson sh path = .ok proof) ∧
        ∃ path, getFlag args "--public" = some path ∧ readJson sh path = .ok (.array signals) := by
  simp only [calldataOf, bind_eq_ok_iff, requireFlag_eq_ok_iff, callJs_eq_ok_iff]
  constructor
  · rintro ⟨proofPath, hproofPath, proof, hproof, publicPath, hpublicPath, publicSignals, hpublic,
      hformat⟩
    obtain ⟨-, -, -, signals, -, rfl, -⟩ := formatProof_eq_ok_iff.1 hformat
    exact ⟨proof, signals, hformat, ⟨proofPath, hproofPath, hproof⟩,
      publicPath, hpublicPath, hpublic⟩
  · rintro ⟨proof, signals, hformat, ⟨proofPath, hproofPath, hproof⟩, publicPath, hpublicPath,
      hpublic⟩
    exact ⟨proofPath, hproofPath, proof, hproof, publicPath, hpublicPath, _, hpublic, hformat⟩

/-- Both commands on calldata: the sizes are fixed but for the number of public signals. -/
theorem reports_of_calldata {args : List String} {calldata : SorobanProofCalldata} {proof : JsValue}
    {signals : List JsValue} (hcalldata : calldataOf sh args = .ok calldata)
    (hformat : formatProof proof (.array signals) none = .ok calldata) :
    commandVerify sh args = .ok (verifyReport signals.length) ∧
      commandEstimateFee sh args = .ok (feeReport signals.length) := by
  obtain ⟨-, -, -, signals', inputs, hsignals, hinputs, hexpiry, -⟩ :=
    formatProof_eq_ok_iff.1 hformat
  cases hsignals
  cases hexpiry
  obtain ⟨ha, hb, hc, hall⟩ := wellSized_of_formatProof hformat
  have hcount := length_encodePublicInputs hinputs
  have hfeeSum : 100 + (256 + 32 * signals.length) * 7 = 1892 + 224 * signals.length := by omega
  refine ⟨?_, ?_⟩
  · simp only [commandVerify, hcalldata, bind, Except.bind, pure, Except.pure, ha, hb, hc, hcount,
      verifyReport]
  · simp only [commandEstimateFee, hcalldata, bind, Except.bind, pure, Except.pure, ha, hb, hc,
      foldl_lengths hall, hcount, Nat.zero_add, hfeeSum, feeReport]

/-- `verify` and `estimate-fee` fail on the same arguments and for the same reason, and they succeed
    exactly on files that `formatProof` accepts; then both count the bytes that the number of public
    signals alone decides. -/
theorem calldata_commands (args : List String) :
    (∀ e, runCli sh h ("verify" :: args) = .error e ↔
      runCli sh h ("estimate-fee" :: args) = .error e) ∧
    ((∃ text, runCli sh h ("verify" :: args) = .ok text) ↔
      ∃ signals, AcceptedFiles sh args signals) ∧
    ((∃ text, runCli sh h ("estimate-fee" :: args) = .ok text) ↔
      ∃ signals, AcceptedFiles sh args signals) ∧
    ∀ signals, AcceptedFiles sh args signals →
      runCli sh h ("verify" :: args) = .ok ("\n".intercalate (verifyReport signals.length)) ∧
      runCli sh h ("estimate-fee" :: args)
        = .ok ("\n".intercalate (feeReport signals.length)) := by
  have hverify : runCli sh h ("verify" :: args)
      = (commandVerify sh args).map fun lines => "\n".intercalate lines := rfl
  have hfee : runCli sh h ("estimate-fee" :: args)
      = (commandEstimateFee sh args).map fun lines => "\n".intercalate lines := rfl
  have haccepted : ∀ signals, AcceptedFiles sh args signals →
      commandVerify sh args = .ok (verifyReport signals.length) ∧
        commandEstimateFee sh args = .ok (feeReport signals.length) := by
    rintro signals ⟨proof, calldata, hformat, hproof, hpublic⟩
    exact reports_of_calldata (calldataOf_eq_ok_iff.2 ⟨proof, signals, hformat, hproof, hpublic⟩)
      hformat
  rw [hverify, hfee]
  rcases hcalldata : calldataOf sh args with e | calldata
  · -- nothing is encoded, so both commands end with the error of that step
    have hnone : ¬ ∃ signals, AcceptedFiles sh args signals := by
      rintro ⟨signals, proof, calldata, haccept⟩
      rw [calldataOf_eq_ok_iff.2 ⟨proof, signals, haccept⟩] at hcalldata
      cases hcalldata
    have hverifyError : commandVerify sh args = .error e := by
      simp [commandVerify, hcalldata, bind, Except.bind]
    have hfeeError : commandEstimateFee sh args = .error e := by
      simp [commandEstimateFee, hcalldata, bind, Except.bind]
    rw [hverifyError, hfeeError]
    refine ⟨fun _ => Iff.rfl, ?_, ?_, fun signals haccept => absurd ⟨signals, haccept⟩ hnone⟩
    · exact iff_of_false (by simp [Except.map]) hnone
    · exact iff_of_false (by simp [Except.map]) hnone
  · obtain ⟨proof, signals, haccept⟩ := calldataOf_eq_ok_iff.1 hcalldata
    have hfiles : AcceptedFiles sh args signals := ⟨proof, calldata, haccept⟩
    obtain ⟨hverifyOk, hfeeOk⟩ := haccepted signals hfiles
    refine ⟨?_, ?_, ?_, ?_⟩
    · simp [hverifyOk, hfeeOk, Except.map]
    · exact iff_of_true ⟨_, by rw [hverifyOk]; rfl⟩ ⟨signals, hfiles⟩
    · exact iff_of_true ⟨_, by rw [hfeeOk]; rfl⟩ ⟨signals, hfiles⟩
    · intro signals' hfiles'
      obtain ⟨hverifyOk', hfeeOk'⟩ := haccepted signals' hfiles'
      rw [hverifyOk', hfeeOk']
      exact ⟨rfl, rfl⟩

/-! ## The command `prove` -/

/-- What `prove` prints on a secret and its commitment. -/
def proveReport (secret commitment : ℤ) : List String :=
  ["command: prove", "circuit: poseidon_preimage", "secret: " ++ toString secret,
    "commitment: " ++ toString commitment, "circuit input:", "  secret: " ++ toString secret,
    "  commitment: " ++ toString commitment]

/-- The inputs that `prove` prints satisfy the circuit, and where Poseidon does not collide on the
    two secrets, no other secret does for the printed commitment, up to the order of the field. -/
theorem prove_opens {args : List String} {text : String}
    (hok : runCli sh h ("prove" :: args) = .ok text) :
    ∃ raw secret commitment, getFlag args "--secret" = some raw ∧ bigIntOf raw = some secret ∧
      poseidonCommit sh.constants secret = .ok commitment ∧
      text = "\n".intercalate (proveReport secret commitment) ∧
      ∀ secret' : ℤ, Set.InjOn (poseidon1 sh.constants) {(secret : Fr), (secret' : Fr)} →
        ((∃ w, PoseidonPreimage.Satisfies (poseidon1 sh.constants) w ∧
            PoseidonPreimage.Reads (PoseidonPreimage.inputsOf secret' commitment) w) ↔
          (secret' : Fr) = secret) := by
  have : NeZero bn254ScalarOrder := ⟨by decide⟩
  have hprove : (commandProve sh args).map (fun lines => "\n".intercalate lines) = .ok text := hok
  rcases hlines : commandProve sh args with e | lines
  · rw [hlines] at hprove
    cases hprove
  rw [hlines] at hprove
  simp only [commandProve, bind_eq_ok_iff, requireFlag_eq_ok_iff, callZk_eq_ok_iff] at hlines
  obtain ⟨raw, hraw, secret, hsecret, commitment, hcommitment, hreport⟩ := hlines
  have hread : bigIntOf raw = some secret := by
    rcases hvalue : bigIntOf raw with _ | value
    · rw [hvalue] at hsecret
      cases hsecret
    · rw [hvalue] at hsecret
      cases hsecret
      rfl
  refine ⟨raw, secret, commitment, hraw, hread, hcommitment, ?_, ?_⟩
  · cases hreport
    exact (Except.ok.inj hprove).symm
  · intro secret' hfree
    rw [poseidon_single, Except.ok.injEq] at hcommitment
    rw [PoseidonPreimage.satisfiable_iff, ← hcommitment, Int.cast_natCast, ZMod.natCast_zmod_val]
    refine ⟨?_, ?_⟩
    · intro heq
      exact (hfree (by simp) (by simp) heq).symm
    · intro heq
      rw [heq]

end

/-- A shell without files. -/
def emptyShell : Shell where
  rt := Runtime.reading .null
  readFile _ := none
  number _ := .nan
  toNumber _ := .nan
  constants := mixingConstants

/-- An unknown flag in front of the secret or behind it. -/
theorem runCli_perm_prove :
    runCli emptyShell Host.scalar ["prove", "--verbose", "yes", "--secret", "0x10"]
      = runCli emptyShell Host.scalar ["prove", "--secret", "0x10", "--verbose", "yes"] := by
  have hperm : [("--verbose", "yes"), ("--secret", "0x10")].Perm
      [("--secret", "0x10"), ("--verbose", "yes")] := List.Perm.swap _ _ []
  exact runCli_perm hperm (by decide) (by decide) "prove"

/-- The secret 16, and the secret 17 for the commitment to it. -/
theorem prove_opens_sixteen :
    ∃ text, runCli emptyShell Host.scalar ["prove", "--secret", "0x10"] = .ok text ∧
      ∃ raw secret commitment, getFlag ["--secret", "0x10"] "--secret" = some raw ∧
        bigIntOf raw = some secret ∧ secret = 16 ∧
        poseidonCommit emptyShell.constants secret = .ok commitment ∧
        text = "\n".intercalate (proveReport secret commitment) ∧
        Set.InjOn (poseidon1 emptyShell.constants) {(secret : Fr), ((17 : ℤ) : Fr)} ∧
        ((∃ w, PoseidonPreimage.Satisfies (poseidon1 emptyShell.constants) w ∧
            PoseidonPreimage.Reads (PoseidonPreimage.inputsOf 17 commitment) w) ↔
          ((17 : ℤ) : Fr) = secret) := by
  have hread : bigIntOf "0x10" = some 16 := by decide +kernel
  obtain ⟨text, hok⟩ : ∃ text,
      runCli emptyShell Host.scalar ["prove", "--secret", "0x10"] = .ok text := by
    refine ⟨"\n".intercalate (proveReport 16 (poseidon1 emptyShell.constants (16 : ℤ)).val), ?_⟩
    show (commandProve emptyShell ["--secret", "0x10"]).map (fun l => "\n".intercalate l) = _
    have hflag : requireFlag ["--secret", "0x10"] "--secret" = .ok "0x10" := by decide +kernel
    simp only [commandProve, hflag, hread, poseidon_single, callZk, bind, Except.bind, pure,
      Except.pure, Option.elim_some, Except.map, proveReport]
  obtain ⟨raw, secret, commitment, hraw, hsecret, hcommitment, htext, hopens⟩ := prove_opens hok
  obtain rfl : "0x10" = raw := Option.some.inj hraw
  obtain rfl : 16 = secret := Option.some.inj (hread.symm.trans hsecret)
  have hnodup : (([16, 17] : List ℤ).map fun z => poseidonHash mixingConstants [z]).Nodup := by
    decide +kernel
  have hfree : Set.InjOn (poseidon1 emptyShell.constants) {((16 : ℤ) : Fr), ((17 : ℤ) : Fr)} := by
    refine (injOn_poseidon1_of_nodup _ hnodup).mono ?_
    intro x hx
    simp only [Set.mem_insert_iff, Set.mem_singleton_iff] at hx
    rcases hx with hx | hx <;> exact ⟨_, by simp, hx⟩
  exact ⟨text, hok, _, _, commitment, hraw, hsecret, rfl, hcommitment, htext, hfree,
    hopens 17 hfree⟩

end ZkStellar.Sdk

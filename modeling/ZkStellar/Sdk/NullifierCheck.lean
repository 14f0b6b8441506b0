import ZkStellar.Sdk.Bundle
import ZkStellar.Sdk.Pipeline
import ZkStellar.Sdk.VerificationHistory
import ZkStellar.Sdk.ViewCalls

set_option autoImplicit false

/-! # Looking a nullifier up

Before it spends a proof a client can ask whether its nullifier is used. The nullifier comes from
`computeNullifier`, or from the text that `check-nullifier` printed; `isNullifierUsedOnChain` asks
the node for it. The answer is whether these integers were accepted for the circuit, and a yes is
final: whatever happens next on the chain, the proof is refused (`nullifier_lookup`). -/

namespace ZkStellar.Sdk

open Registry (BatchItem)

/-! ## Nullifiers as text -/

/-- `[0-9a-fA-F]`. -/
def isHexDigit (c : Char) : Bool := (hexDigitValue c).isSome

/-- `nullifierHex`. -/
def nullifierHex (nullifier : Bytes) : Except SorobanZkError String := do
  throwIf (nullifier.length ≠ 32)
    (.general "nullifierHex: nullifier must be a 32-byte Buffer" .invalidPublicInput)
  return hexText nullifier

/-- `hex.startsWith("0x") ? hex.slice(2) : hex`. -/
def withoutPrefix (cs : List Char) : List Char :=
  if "0x".toList.isPrefixOf cs then cs.drop 2 else cs

/-- `nullifierFromHex`. -/
def nullifierFromHex (hex : String) : Except SorobanZkError Bytes := do
  let clean := withoutPrefix hex.toList
  throwIf (!(decide (clean.length = 64) && clean.all isHexDigit))
    (.general ("nullifierFromHex: expected a 64-character hex string, got \""
        ++ String.ofList (sliceUnits 20 clean)
        ++ (if (JsValue.units (String.ofList clean)).length > 20 then "…" else "") ++ "\"")
      .invalidPublicInput)
  return hexBytes clean

theorem isHexDigit_digitChar {d : ℕ} (hd : d < 16) : isHexDigit (Nat.digitChar d) = true := by
  rw [isHexDigit, hexDigitValue_digitChar hd]
  rfl

theorem toList_hexText (bytes : Bytes) : (hexText bytes).toList = bytes.flatMap hexPair :=
  String.toList_ofList

theorem length_hexText (bytes : Bytes) : (hexText bytes).toList.length = 2 * bytes.length := by
  rw [toList_hexText]
  induction bytes with
  | nil => rfl
  | cons b bytes ih =>
      rw [List.flatMap_cons, List.length_append, ih, List.length_cons, hexPair]
      simp only [List.length_cons, List.length_nil]
      omega

theorem all_isHexDigit_hexText (bytes : Bytes) : (hexText bytes).toList.all isHexDigit = true := by
  rw [toList_hexText, List.all_eq_true]
  intro c hc
  obtain ⟨b, -, hb⟩ := List.mem_flatMap.1 hc
  have hlt := b.toNat_lt
  rcases List.mem_cons.1 hb with rfl | hb
  · exact isHexDigit_digitChar (by omega)
  · obtain rfl := List.mem_singleton.1 hb
    exact isHexDigit_digitChar (by omega)

/-- No text of bytes begins with the prefix. -/
theorem withoutPrefix_hexText (bytes : Bytes) :
    withoutPrefix (hexText bytes).toList = (hexText bytes).toList := by
  refine if_neg fun hprefix => ?_
  obtain ⟨rest, hrest⟩ := List.isPrefixOf_iff_prefix.1 hprefix
  have hx := List.all_eq_true.1 (all_isHexDigit_hexText bytes) 'x' (by rw [← hrest]; simp)
  exact absurd hx (by decide)

/-- A nullifier reads back from its text, with and without the prefix. -/
theorem nullifierFromHex_hexText {bytes : Bytes} (hlength : bytes.length = 32) :
    nullifierFromHex (hexText bytes) = .ok bytes ∧
      nullifierFromHex ("0x" ++ hexText bytes) = .ok bytes := by
  have hread : ∀ hex : String, withoutPrefix hex.toList = (hexText bytes).toList →
      nullifierFromHex hex = .ok bytes := by
    intro hex hclean
    simp only [nullifierFromHex, hclean, length_hexText, hlength, all_isHexDigit_hexText,
      hexBytes_hexText]
    rfl
  refine ⟨hread _ (withoutPrefix_hexText bytes), hread _ ?_⟩
  rw [String.toList_append, withoutPrefix,
    if_pos (List.isPrefixOf_iff_prefix.2 (List.prefix_append _ _))]
  rfl

/-! ## The lookup -/

/-- `isNullifierUsedOnChain`. It has no `catch`, so what the library throws leaves it as it is. -/
def isNullifierUsedOnChain (sdk : StellarSdk) (node : ViewNode sdk.ScVal) (nullifier : Bytes) :
    Except Thrown Bool := do
  ownCall (throwIf (nullifier.length ≠ 32)
    (.general "isNullifierUsedOnChain: nullifier must be a 32-byte Buffer" .invalidPublicInput))
  let native ← simulateView sdk node "is_nullifier_used" [nullifier]
  return native.truthy

section

variable {Address : Type} {h : Host} {sdk : StellarSdk} {node : ViewNode sdk.ScVal}

/-- The node answers for a state of the registry. -/
def AnswersNullifiers (sdk : StellarSdk) (node : ViewNode sdk.ScVal) (s : Registry.State Address) :
    Prop :=
  ∀ n : BytesN 32, node.Answers sdk "is_nullifier_used" [n.bytes] (.boolean (s.isNullifierUsed n))

theorem isNullifierUsedOnChain_eq {s : Registry.State Address}
    (hnode : AnswersNullifiers sdk node s) (n : BytesN 32) :
    isNullifierUsedOnChain sdk node n.bytes = .ok (s.isNullifierUsed n) := by
  simp only [isNullifierUsedOnChain, n.length_eq, simulateView_of_answers (hnode n)]
  rfl

variable {admin : Address} {txs later : List (Registry.Tx Address)} {item : BatchItem}
  {publicSignals : List JsValue}

/-- What was accepted is refused ever after. -/
theorem itemVerdict_of_spent
    (hintegers : item.publicInputs.map BytesN.toNat = publicSignals.map denoted)
    (hspent : Spent ((Registry.machine h).trace (Registry.construct admin) txs) item.id
      publicSignals) :
    Registry.itemVerdict h ((Registry.machine h).run ((Registry.machine h).run
      (Registry.construct admin) txs) later) item = some false := by
  obtain ⟨e, he, hid, hsame⟩ := hspent
  suffices hused : ((Registry.machine h).run ((Registry.machine h).run (Registry.construct admin)
      txs) later).isNullifierUsed (item.nullifier h) = true by
    simp only [Registry.itemVerdict, hused, if_true, ite_self]
  rw [← Machine.run_append, (Registry.nullifiersExact_run (h := h) admin (txs ++ later)).1,
    Machine.trace_append, Registry.accepted, List.flatMap_append]
  refine List.mem_map.2 ⟨e, List.mem_append_left _ he, Registry.nullifier_congr hid ?_⟩
  rw [← hintegers] at hsame
  exact List.map_injective_iff.2 (fun _ _ => BytesN.toNat_inj.1) hsame

/-- What was accepted is not accepted again. -/
theorem not_spent_later {id : UInt32}
    (hspent : Spent ((Registry.machine h).trace (Registry.construct admin) txs) id publicSignals) :
    ¬ Spent ((Registry.machine h).trace ((Registry.machine h).run (Registry.construct admin) txs)
      later) id publicSignals := by
  intro hagain
  obtain ⟨e, he, hid, hsame⟩ := hspent
  obtain ⟨e', he', hid', hsame'⟩ := hagain
  have hnodup := (Registry.nullifiersExact_run (h := h) admin (txs ++ later)).2
  rw [Machine.trace_append, Registry.accepted, List.flatMap_append, List.map_append,
    List.nodup_append] at hnodup
  refine hnodup.2.2 _ (List.mem_map_of_mem he) _ (List.mem_map_of_mem he') ?_
  refine Registry.nullifier_congr (hid.trans hid'.symm) ?_
  exact List.map_injective_iff.2 (fun _ _ => BytesN.toNat_inj.1) (hsame.trans hsame'.symm)

/-- **Looking a nullifier up.** Take a proof with at least one signal that can be formatted, and a
    node that answers for the state after any run of the registry. The SDK's nullifier is the one
    `check-nullifier` prints as text, the text reads back, and the node's answer is whether these
    integers were accepted for the circuit in the run. A yes is final: in every continuation no
    transaction accepts them, and `verifyViaRegistry` says no. After a no, on an active circuit
    `verifyViaRegistry` says what the check of the proof says. -/
theorem nullifier_lookup (id : UInt32) {proof : JsValue} {calldata : SorobanProofCalldata}
    (hne : publicSignals ≠ [])
    (hformat : formatProof proof (.array publicSignals) none = .ok calldata)
    (hitem : makeRegistryBatchItem id calldata = some item)
    (hfree : h.CollisionFree (Registry.messages h (item :: Registry.accepted
      ((Registry.machine h).trace (Registry.construct admin) txs))))
    (hnode : AnswersNullifiers sdk node
      ((Registry.machine h).run (Registry.construct admin) txs))
    (networkPassphrase : String) (simAuth : Address → Bool) :
    let s := (Registry.machine h).run (Registry.construct admin) txs
    let spent := Spent ((Registry.machine h).trace (Registry.construct admin) txs) id publicSignals
    let answer (t : Registry.State Address) :=
      verifyViaRegistry (fun call => (Registry.exec h t ⟨simAuth, call⟩).1) networkPassphrase
        ⟨id, none, some ⟨proof, .array publicSignals, networkPassphrase⟩⟩
    (∃ nullifier text lines,
      computeNullifier h (.ofNat id.toNat) calldata.publicInputs = .ok nullifier ∧
      commandCheckNullifier h proof (.array publicSignals) (.ofNat id.toNat) = .ok lines ∧
      "nullifier:    " ++ text ∈ lines ∧ nullifierHex nullifier = .ok text ∧
      nullifierFromHex text = .ok nullifier ∧ nullifierFromHex ("0x" ++ text) = .ok nullifier ∧
      isNullifierUsedOnChain sdk node nullifier = .ok (decide spent)) ∧
    (spent → ∀ later,
      ¬ Spent ((Registry.machine h).trace s later) id publicSignals ∧
      answer ((Registry.machine h).run s later) = .ok false) ∧
    (¬ spent → s.isCircuitActive id = true →
      answer s = (item.check h s).elim (.error (simulationFailed "verify_proof")) .ok) := by
  intro s spent answer
  obtain ⟨inputs, hinputs, hintegers⟩ := inputs_of_formatProof hformat
  rw [makeRegistryBatchItem, inputs_of_publicInputs hinputs, Option.map_some,
    Option.some.injEq] at hitem
  subst hitem
  have hused := isNullifierUsed_iff_spent hintegers hfree
  have hrequest := verifyProofRequest_eq id networkPassphrase networkPassphrase hformat hinputs
  rw [if_neg (by simp)] at hrequest
  refine ⟨?_, ?_, ?_⟩
  · have hnonempty : inputs ≠ [] := by
      rintro rfl
      exact hne (List.map_eq_nil_iff.1 hintegers.symm)
    obtain ⟨lines, hlines, hline⟩ := commandCheckNullifier_line id hformat hinputs
    have hlength := (Registry.computeNullifier h id
      (ZkStellar.computeInputsHash h inputs)).length_eq
    obtain ⟨hplain, hprefixed⟩ := nullifierFromHex_hexText hlength
    refine ⟨_, _, lines, ?_, hlines, hline, ?_, hplain, hprefixed, ?_⟩
    · rw [hinputs, computeNullifier_eq, if_neg hnonempty]
    · simp only [nullifierHex, hlength]
      rfl
    · rw [isNullifierUsedOnChain_eq hnode, Except.ok.injEq, Bool.eq_iff_iff, decide_eq_true_eq]
      exact hused
  · intro hspent later
    refine ⟨not_spent_later hspent, ?_⟩
    simp only [answer]
    rw [verifyViaRegistry_eq hrequest, itemVerdict_of_spent hintegers hspent]
    rfl
  · intro hfresh hactive
    simp only [answer]
    rw [verifyViaRegistry_eq hrequest, Registry.itemVerdict_of_fresh hactive
      (Bool.eq_false_iff.2 fun hyes => hfresh (hused.1 hyes))]

end

/-- A node with a state of the registry. -/
def registryNode (s : Registry.State Unit) : ViewNode Native where
  buildTransaction := .ok ()
  simulateTransaction _ args :=
    match args.head?.bind (BytesN.ofBytes? 32) with
    | some n => .ok (.result (.boolean (s.isNullifierUsed n)))
    | none => .ok (.error "HostError: Error(Value, UnexpectedType)")

theorem answersNullifiers_registryNode (s : Registry.State Unit) :
    AnswersNullifiers StellarSdk.decoded (registryNode s) s := by
  intro n
  refine ⟨rfl, .boolean (s.isNullifierUsed n), ?_, rfl⟩
  simp only [registryNode, List.head?_cons, Option.bind_some, BytesN.ofBytes?_bytes]
  rfl

/-- A proof that was accepted, and whatever comes after. -/
theorem nullifier_lookup_seven :
    let s := (Registry.machine Host.scalar).run (Registry.construct ()) (Registry.zeroRun [7])
    (∃ nullifier, computeNullifier Host.scalar (.ofNat (0 : UInt32).toNat)
        (zeroCalldata 7).publicInputs = .ok nullifier ∧
      isNullifierUsedOnChain StellarSdk.decoded (registryNode s) nullifier = .ok true) ∧
    ∀ later, verifyViaRegistry (fun call => (Registry.exec Host.scalar
        ((Registry.machine Host.scalar).run s later) ⟨fun _ => true, call⟩).1) "network"
        ⟨0, none, some ⟨zeroProof, .array [.string "7"], "network"⟩⟩ = .ok false := by
  intro s
  have hspent : Spent ((Registry.machine Host.scalar).trace (Registry.construct ())
      (Registry.zeroRun [7])) 0 [.string "7"] := by decide +kernel
  have hformat : formatProof zeroProof (.array [.string "7"]) none = .ok (zeroCalldata 7) := by
    decide +kernel
  have hitem : makeRegistryBatchItem 0 (zeroCalldata 7) = some (Registry.zeroItem 7) := by
    decide +kernel
  obtain ⟨⟨nullifier, -, -, hnullifier, -, -, -, -, -, hlookup⟩, hfinal, -⟩ :=
    nullifier_lookup 0 (by simp) hformat hitem (by decide +kernel)
      (answersNullifiers_registryNode s) "network" (fun _ => true)
  rw [decide_eq_true hspent] at hlookup
  exact ⟨⟨nullifier, hnullifier, hlookup⟩, fun later => (hfinal hspent later).2⟩

end ZkStellar.Sdk

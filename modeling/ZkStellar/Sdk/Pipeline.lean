import ZkStellar.Registry.History
import ZkStellar.Registry.Independence
import ZkStellar.Sdk.Nullifier
import ZkStellar.Sdk.RegistryCalls
import ZkStellar.Sdk.VerifyingKey

set_option autoImplicit false

/-! # From JSON to a verdict

A circuit's key goes from `verification_key.json` through `formatVerifyingKey` into the registry,
a proof from `proof.json` and `public.json` through `formatProof` into a simulated call. Between
the files and the pairing check lie two encoders, the storage and whatever else happens on the
registry in between. `registry_pipeline` says that the answer is the Groth16 equation over the
integers in the files. -/

namespace ZkStellar

/-! ## Words and bytes -/

/-- The bytes of 32-byte words, one after another. -/
def wordBytes (integers : List ℕ) : Bytes := integers.flatMap (toBe 32)

/-- The words of a string, written down, are the string. -/
theorem wordBytes_beWords {b : Bytes} {k : ℕ} (hb : b.length = 32 * k) :
    wordBytes (beWords 32 b) = b := by
  induction k generalizing b with
  | zero =>
      obtain rfl := List.length_eq_zero_iff.1 hb
      rfl
  | succ k ih =>
      have htake : (b.take 32).length = 32 := by
        rw [List.length_take]
        omega
      have hdrop : (b.drop 32).length = 32 * k := by
        rw [List.length_drop]
        omega
      have hword : toBe 32 (beNat (b.take 32)) = b.take 32 := by
        refine beNat_inj ((length_toBe 32 _).trans htake.symm) ?_
        have hlt := beNat_lt (b.take 32)
        rw [htake] at hlt
        exact beNat_toBe_of_lt hlt
      rw [← List.take_append_drop 32 b, beWords_append (by decide) htake, wordBytes,
        List.flatMap_cons, hword]
      exact congrArg (b.take 32 ++ ·) (ih hdrop)

/-- The point with these coordinates, if they are those of a point. -/
def g1Of (h : Host) (integers : List ℕ) : Option h.G1 :=
  (BytesN.ofBytes? 64 (wordBytes integers)).bind h.g1Point

/-- The point with these coordinate components, if they are those of a point. -/
def g2Of (h : Host) (integers : List ℕ) : Option h.G2 :=
  (BytesN.ofBytes? 128 (wordBytes integers)).bind h.g2Point

namespace Registry

/-! ## A circuit that nobody touches -/

/-- The call changes what is stored for the id. -/
def Call.changes {Address : Type} (id : UInt32) : Call Address → Bool
  | .registerCircuit id' _ => id' = id
  | .removeCircuit id' => id' = id
  | _ => false

section

variable {Address : Type} {h : Host} {s : State Address} {id : UInt32} {vk : VerifyingKey}

/-- The id is active, with this key. -/
def Serves (s : State Address) (id : UInt32) (vk : VerifyingKey) : Prop :=
  s.circuit id = some vk ∧ s.isCircuitActive id = true

theorem serves_of_withAdmin {auth : Address → Bool} {update : State Address → State Address}
    (hserves : Serves s id vk) (hupdate : Serves (update s) id vk) :
    Serves (commit (ε := Empty) s
      ((withAdmin auth s update).map fun s => (.ok Reply.unit, s))).2 id vk := by
  rcases withAdmin_cases auth s update with ⟨hsame, -⟩ | ⟨hnew, -⟩
  · rw [hsame]
    exact hserves
  · rw [hnew]
    exact hupdate

/-- A transaction that does not change the circuit leaves it in service. -/
theorem serves_exec (hserves : Serves s id vk) {tx : Tx Address}
    (hnot : tx.call.changes id = false) : Serves (exec h s tx).2 id vk := by
  obtain ⟨auth, call⟩ := tx
  cases call with
  | proposeAdmin a => exact serves_of_withAdmin hserves hserves
  | acceptAdmin =>
      simp only [exec, callBody, acceptAdmin]
      cases s.pendingAdmin with
      | none => exact hserves
      | some pending =>
          cases hauth : auth pending with
          | false => simpa [hauth] using hserves
          | true =>
              simp only [hauth, if_true, Option.map_some, commit_ok]
              exact hserves
  | registerCircuit id' vk' =>
      have hne : id' ≠ id := of_decide_eq_false hnot
      refine serves_of_withAdmin hserves ?_
      simpa [Serves, State.circuit, State.isCircuitActive, hne, hne.symm] using hserves
  | removeCircuit id' =>
      have hne : id' ≠ id := of_decide_eq_false hnot
      refine serves_of_withAdmin hserves ?_
      simpa [Serves, State.circuit, State.isCircuitActive, hne, hne.symm] using hserves
  | verifyProof item =>
      rw [exec_verifyProof]
      cases itemVerdict h s item with
      | none => exact hserves
      | some b => simpa [Serves] using hserves
  | verifyBatch batch =>
      rw [exec_verifyBatch]
      cases hrun : verifyItems h batch s with
      | none => exact hserves
      | some r =>
          obtain ⟨hcircuit, hactive⟩ := circuit_of_verifyItems hrun id
          exact ⟨hcircuit.trans hserves.1, hactive.trans hserves.2⟩

theorem serves_run (hserves : Serves s id vk) {txs : List (Tx Address)}
    (hnot : ∀ tx ∈ txs, tx.call.changes id = false) : Serves ((machine h).run s txs) id vk := by
  induction txs generalizing s with
  | nil => exact hserves
  | cons tx txs ih =>
      obtain ⟨htx, htxs⟩ := List.forall_mem_cons.1 hnot
      exact ih (serves_exec hserves htx) htxs

/-- A registration that goes through puts the circuit in service. -/
theorem serves_registerCircuit {auth : Address → Bool}
    (hok : (exec h s ⟨auth, .registerCircuit id vk⟩).1 = .ok .unit) :
    Serves (exec h s ⟨auth, .registerCircuit id vk⟩).2 id vk := by
  simp only [exec, callBody, registerCircuit, withAdmin] at hok ⊢
  split
  next hnone =>
    rw [hnone] at hok
    cases hok
  next admin hadmin =>
    rw [hadmin] at hok
    cases hauth : auth admin with
    | false =>
        simp only [hauth] at hok
        cases hok
    | true => simp [Serves, State.circuit, State.isCircuitActive]

end

end Registry

namespace Sdk

/-! ## What the files denote -/

section

variable (h : Host)

/-- The key a verification key file denotes, if its coordinates are those of points. -/
def keyOf (vk : JsValue) : Option (Groth16.Key h.G1 h.G2) :=
  match g1Of h (g1Integers (vk.get "vk_alpha_1")), g2Of h (g2Integers (vk.get "vk_beta_2")),
      g2Of h (g2Integers (vk.get "vk_gamma_2")), g2Of h (g2Integers (vk.get "vk_delta_2")),
      Host.decodeAll ((icEntries vk).map fun point => g1Of h (g1Integers point)) with
  | some alpha, some beta, some gamma, some delta, some ic => some ⟨alpha, beta, gamma, delta, ic⟩
  | _, _, _, _, _ => none

/-- The proof a proof file denotes, if its coordinates are those of points. -/
def proofOf (proof : JsValue) : Option (Groth16.Proof h.G1 h.G2) :=
  match g1Of h (g1Integers (proof.get "pi_a")), g2Of h (g2Integers (proof.get "pi_b")),
      g1Of h (g1Integers (proof.get "pi_c")) with
  | some a, some b, some c => some ⟨a, b, c⟩
  | _, _, _ => none

/-- The scalars the public signals denote. -/
def scalarsOf (publicSignals : List JsValue) : List Fr :=
  publicSignals.map fun signal => (denoted signal : Fr)

end

/-- The contract's argument for an encoded key. -/
def RegistryVerifyingKey.argument (key : RegistryVerifyingKey) : Option VerifyingKey := do
  let alpha ← BytesN.ofBytes? 64 key.alpha
  let beta ← BytesN.ofBytes? 128 key.beta
  let gamma ← BytesN.ofBytes? 128 key.gamma
  let delta ← BytesN.ofBytes? 128 key.delta
  let ic ← key.ic.mapM (BytesN.ofBytes? 64)
  return ⟨alpha, beta, gamma, delta, ic⟩

section

variable {h : Host}

theorem Encodes.wordBytes_eq {bytes : Bytes} {integers : List ℕ}
    (hencodes : Encodes bytes integers) : wordBytes integers = bytes := by
  rw [← hencodes.2]
  exact wordBytes_beWords hencodes.1

theorem g1Point_of_encodes {x : BytesN 64} {integers : List ℕ}
    (hencodes : Encodes x.bytes integers) : h.g1Point x = g1Of h integers := by
  rw [g1Of, hencodes.wordBytes_eq, BytesN.ofBytes?_bytes, Option.bind_some]

theorem g2Point_of_encodes {x : BytesN 128} {integers : List ℕ}
    (hencodes : Encodes x.bytes integers) : h.g2Point x = g2Of h integers := by
  rw [g2Of, hencodes.wordBytes_eq, BytesN.ofBytes?_bytes, Option.bind_some]

theorem readG1_of_encodes {bytes : Bytes} {integers : List ℕ} (hlen : bytes.length = 64)
    (hencodes : Encodes bytes integers) : readG1 h bytes = some (g1Of h integers) := by
  have hpoint : BytesN.ofBytes? 64 bytes = some ⟨bytes, hlen⟩ := BytesN.ofBytes?_bytes ⟨bytes, hlen⟩
  rw [readG1, hpoint, Option.map_some]
  exact congrArg some (g1Point_of_encodes hencodes)

theorem readG2_of_encodes {bytes : Bytes} {integers : List ℕ} (hlen : bytes.length = 128)
    (hencodes : Encodes bytes integers) : readG2 h bytes = some (g2Of h integers) := by
  have hpoint : BytesN.ofBytes? 128 bytes = some ⟨bytes, hlen⟩ :=
    BytesN.ofBytes?_bytes ⟨bytes, hlen⟩
  rw [readG2, hpoint, Option.map_some]
  exact congrArg some (g2Point_of_encodes hencodes)

/-- The points of an encoded list of input points. -/
theorem decodeAll_of_encodes {ic : List Bytes} {points : List JsValue}
    (hencodes : List.Forall₂ (fun bytes point => Encodes bytes (g1Integers point)) ic points)
    {xs : List (BytesN 64)} (hxs : ic.mapM (BytesN.ofBytes? 64) = some xs) :
    xs.map h.g1Point = points.map (fun point => g1Of h (g1Integers point)) := by
  induction hencodes generalizing xs with
  | nil =>
      cases hxs
      rfl
  | @cons bytes point ic points hpoint _ ih =>
      rw [List.mapM_cons] at hxs
      obtain ⟨x, hx, hrest⟩ := Option.bind_eq_some_iff.1 hxs
      obtain ⟨rest, hmap, hcons⟩ := Option.bind_eq_some_iff.1 hrest
      cases hcons
      obtain rfl := BytesN.ofBytes?_eq_some_iff.1 hx
      rw [List.map_cons, List.map_cons, ih hmap, g1Point_of_encodes hpoint]

/-- A formatted key of arrays, taken as the contract takes it, has the points the file denotes. -/
theorem points_of_argument {toNumber : JsValue → JsNumber} {vk : JsValue}
    {key : RegistryVerifyingKey} (hformat : formatVerifyingKey toNumber vk = .ok key)
    (harrays : PointsAreArrays vk) {arg : VerifyingKey} (harg : key.argument = some arg) :
    arg.points h = keyOf h vk ∧ arg.ic.length = (icEntries vk).length := by
  have hencodes := keyEncodes_of_formatVerifyingKey toNumber hformat harrays
  simp only [RegistryVerifyingKey.argument, bind, Option.bind_eq_some_iff, pure,
    Option.some.injEq, BytesN.ofBytes?_eq_some_iff] at harg
  obtain ⟨alpha, halpha, beta, hbeta, gamma, hgamma, delta, hdelta, ic, hic, rfl⟩ := harg
  have hpoints := decodeAll_of_encodes (h := h) hencodes.ic hic
  have ha := hencodes.alpha
  have hb := hencodes.beta
  have hg := hencodes.gamma
  have hd := hencodes.delta
  rw [halpha] at ha
  rw [hbeta] at hb
  rw [hgamma] at hg
  rw [hdelta] at hd
  refine ⟨?_, ?_⟩
  · rw [keyOf, ← g1Point_of_encodes ha, ← g2Point_of_encodes hb, ← g2Point_of_encodes hg,
      ← g2Point_of_encodes hd, ← hpoints]
    rfl
  · have hlength := congrArg List.length hpoints
    rwa [List.length_map, List.length_map] at hlength

/-- A formatted proof, taken as the contract takes it, has the points the file denotes. -/
theorem proofPoints_of_formatProof {proof : JsValue} {publicSignals : List JsValue}
    {calldata : SorobanProofCalldata}
    (hformat : formatProof proof (.array publicSignals) none = .ok calldata) :
    proofPoints h calldata.proofA calldata.proofB calldata.proofC = proofOf h proof := by
  obtain ⟨ha, hb, hc, -⟩ := wellSized_of_formatProof hformat
  have hspells := spells_of_formatProof hformat
  have hencA : Encodes calldata.proofA (g1Integers (proof.get "pi_a")) := ⟨ha, hspells.proofA⟩
  have hencB : Encodes calldata.proofB (g2Integers (proof.get "pi_b")) := ⟨hb, hspells.proofB⟩
  have hencC : Encodes calldata.proofC (g1Integers (proof.get "pi_c")) := ⟨hc, hspells.proofC⟩
  have hA : readG1 h calldata.proofA = some (g1Of h (g1Integers (proof.get "pi_a"))) :=
    readG1_of_encodes ha hencA
  have hB : readG2 h calldata.proofB = some (g2Of h (g2Integers (proof.get "pi_b"))) :=
    readG2_of_encodes hb hencB
  have hC : readG1 h calldata.proofC = some (g1Of h (g1Integers (proof.get "pi_c"))) :=
    readG1_of_encodes hc hencC
  rw [proofPoints, hA, hB, hC, proofOf]
  cases g1Of h (g1Integers (proof.get "pi_a")) <;>
    cases g2Of h (g2Integers (proof.get "pi_b")) <;>
    cases g1Of h (g1Integers (proof.get "pi_c")) <;> rfl

theorem exists_argument {toNumber : JsValue → JsNumber} {vk : JsValue}
    {key : RegistryVerifyingKey} (hformat : formatVerifyingKey toNumber vk = .ok key)
    (harrays : PointsAreArrays vk) : ∃ arg, key.argument = some arg := by
  have hencodes := keyEncodes_of_formatVerifyingKey toNumber hformat harrays
  have hic : ∀ bytes ∈ key.ic, bytes.length = 64 := by
    intro bytes hmem
    obtain ⟨i, hi, rfl⟩ := List.getElem_of_mem hmem
    exact ((List.forall₂_iff_get.1 hencodes.ic).2 i hi
      (hencodes.ic.length_eq ▸ hi)).1
  obtain ⟨xs, hxs⟩ := exists_bytesN hic
  refine ⟨⟨⟨key.alpha, hencodes.alpha.1⟩, ⟨key.beta, hencodes.beta.1⟩,
    ⟨key.gamma, hencodes.gamma.1⟩,
    ⟨key.delta, hencodes.delta.1⟩, xs⟩, ?_⟩
  simp only [RegistryVerifyingKey.argument, bind, Option.bind_eq_some_iff, pure,
    BytesN.ofBytes?_eq_some_iff]
  refine ⟨_, rfl, _, rfl, _, rfl, _, rfl, xs, ?_, rfl⟩
  rw [hxs]
  clear hxs hic
  induction xs with
  | nil => rfl
  | cons x xs ih => simp [List.mapM_cons, ih]

/-! ## The verdict -/

open Classical in
/-- The verdict on the three files: a wrong number of signals is refused, points that are none are
    not decided, and else the Groth16 equation decides. -/
noncomputable def verdictOf (h : Host) (vk proof : JsValue) (publicSignals : List JsValue) :
    Option Bool :=
  if publicSignals.length + 1 ≠ (icEntries vk).length then some false
  else
    match keyOf h vk, proofOf h proof with
    | some K, some π => some (decide (Groth16.Accepts h.pairing K π (scalarsOf publicSignals)))
    | _, _ => none

section

variable {Address : Type} {s : Registry.State Address} {arg : VerifyingKey} {vk proof : JsValue}
  {publicSignals : List JsValue} {item : Registry.BatchItem}

open Classical in
/-- The check of a circuit in service is the verdict on the files behind key and item. -/
theorem check_eq_verdictOf (hserves : Registry.Serves s item.id arg)
    (hkey : arg.points h = keyOf h vk) (harity : arg.ic.length = (icEntries vk).length)
    (hproof : proofPoints h item.proofA item.proofB item.proofC = proofOf h proof)
    (hinputs : item.publicInputs.map BytesN.toNat = publicSignals.map denoted) :
    item.check h s = verdictOf h vk proof publicSignals := by
  have hlength : item.publicInputs.length = publicSignals.length := by
    have := congrArg List.length hinputs
    rwa [List.length_map, List.length_map] at this
  have hstatement : Registry.statement item.publicInputs = scalarsOf publicSignals := by
    have hcast := congrArg (List.map fun n : ℕ => (n : Fr)) hinputs
    rw [List.map_map, List.map_map] at hcast
    exact hcast
  unfold Registry.BatchItem.check verdictOf
  by_cases hlen : publicSignals.length + 1 = (icEntries vk).length
  · have hlen' : item.publicInputs.length + 1 = arg.ic.length := by rw [hlength, hlen, harity]
    rw [if_neg (not_not.2 hlen)]
    cases hrun : Registry.runVerification h s item.id item.proofA item.proofB item.proofC
        item.publicInputs with
    | some v =>
        obtain ⟨π, K, hπ, hK, hv⟩ := (Registry.runVerification_eq_some_iff hserves.1 hlen').1 hrun
        rw [hproof] at hπ
        rw [hkey] at hK
        rw [hstatement] at hv
        rw [hπ, hK]
        refine congrArg some ?_
        rw [Bool.eq_iff_iff, hv, decide_eq_true_iff]
    | none =>
        split
        next K π hK hπ =>
          -- points that can be parsed would be decided
          refine absurd hrun (Registry.runVerification_ne_none_iff.2 fun key hcircuit _ => ?_)
          obtain rfl := Option.some.inj (hserves.1.symm.trans hcircuit)
          rw [hproof, hπ, hkey, hK]
          exact ⟨by simp, by simp⟩
        next => rfl
  · rw [if_pos hlen]
    refine Registry.runVerification_of_length_ne hserves.1 fun heq => hlen ?_
    rw [← hlength, heq, harity]

end

/-- The integers of the inputs an item is built with. -/
theorem inputs_of_formatProof {proof : JsValue} {publicSignals : List JsValue}
    {calldata : SorobanProofCalldata}
    (hformat : formatProof proof (.array publicSignals) none = .ok calldata) :
    ∃ inputs : List (BytesN 32), calldata.publicInputs = inputs.map BytesN.bytes ∧
      inputs.map BytesN.toNat = publicSignals.map denoted := by
  obtain ⟨-, -, -, hsized⟩ := wellSized_of_formatProof hformat
  obtain ⟨inputs, hinputs⟩ := exists_bytesN hsized
  refine ⟨inputs, hinputs, ?_⟩
  have hspelled := (spells_of_formatProof hformat).publicInputs
  rw [hinputs, List.map_map] at hspelled
  simp only [inputIntegers, Option.map_none, Option.toList_none, List.append_nil] at hspelled
  exact hspelled

end

section

variable {Address : Type}

/-- A transaction of the run accepted these signals for the id. -/
def Spent (tr : List (Registry.Step Address)) (id : UInt32) (publicSignals : List JsValue) : Prop :=
  ∃ e ∈ Registry.accepted tr, e.id = id ∧
    e.publicInputs.map BytesN.toNat = publicSignals.map denoted

instance (tr : List (Registry.Step Address)) (id : UInt32) (publicSignals : List JsValue) :
    Decidable (Spent tr id publicSignals) :=
  inferInstanceAs (Decidable (∃ e ∈ Registry.accepted tr, _ ∧ _))

/-- Without collisions a nullifier is stored exactly when its signals were accepted for its id. -/
theorem isNullifierUsed_iff_spent {h : Host} {admin : Address} {txs : List (Registry.Tx Address)}
    {item : Registry.BatchItem} {publicSignals : List JsValue}
    (hintegers : item.publicInputs.map BytesN.toNat = publicSignals.map denoted)
    (hfree : h.CollisionFree (Registry.messages h (item :: Registry.accepted
      ((Registry.machine h).trace (Registry.construct admin) txs)))) :
    ((Registry.machine h).run (Registry.construct admin) txs).isNullifierUsed (item.nullifier h)
        = true ↔
      Spent ((Registry.machine h).trace (Registry.construct admin) txs) item.id publicSignals := by
  rw [(Registry.nullifiersExact_run (h := h) admin txs).1, List.mem_map]
  constructor
  · intro hmem
    obtain ⟨e, he, hn⟩ := hmem
    obtain ⟨hid, hsame⟩ := Registry.nullifier_inj hfree (List.mem_cons_of_mem _ he)
      List.mem_cons_self hn
    exact ⟨e, he, hid, by rw [hsame, ← hintegers]⟩
  · intro hspent
    obtain ⟨e, he, hid, hsame⟩ := hspent
    refine ⟨e, he, Registry.nullifier_congr hid ?_⟩
    rw [← hintegers] at hsame
    exact List.map_injective_iff.2 (fun _ _ => BytesN.toNat_inj.1) hsame

/-- What is submitted for a bundle that can be formatted. -/
theorem verifyProofRequest_eq {proof : JsValue} {publicSignals : List JsValue}
    {calldata : SorobanProofCalldata} {inputs : List (BytesN 32)} (id : UInt32)
    (bundleNetwork networkPassphrase : String)
    (hformat : formatProof proof (.array publicSignals) none = .ok calldata)
    (hinputs : calldata.publicInputs = inputs.map BytesN.bytes) :
    verifyProofRequest networkPassphrase
        ⟨id, none, some ⟨proof, .array publicSignals, bundleNetwork⟩⟩
      = if bundleNetwork ≠ networkPassphrase then
          .error (.zk (.networkMismatch bundleNetwork networkPassphrase))
        else .ok ⟨id, calldata.proofA, calldata.proofB, calldata.proofC, inputs⟩ := by
  have hvalid : validateCalldata calldata = .ok () :=
    validateCalldata_eq_ok_iff.2 (wellSized_of_formatProof hformat)
  by_cases hnetwork : bundleNetwork = networkPassphrase
  · rw [if_neg (not_not.2 hnetwork)]
    simp [verifyProofRequest, resolveRegistryCalldata, resolve, hformat, hvalid,
      assertBundleNetwork, throwIf, liftZk, hnetwork, bind, Except.bind, makeRegistryBatchItem,
      inputs_of_publicInputs hinputs]
  · rw [if_pos hnetwork]
    simp [verifyProofRequest, resolveRegistryCalldata, resolve, hformat, hvalid,
      assertBundleNetwork, throwIf, liftZk, hnetwork, bind, Except.bind]

/-- On a circuit in service `verifyViaRegistry` gives the verdict on the files behind key and
    bundle, unless the signals were accepted before. -/
theorem verifyViaRegistry_of_serves {h : Host} {admin : Address} {txs : List (Registry.Tx Address)}
    {id : UInt32} {arg : VerifyingKey} {vk proof : JsValue} {publicSignals : List JsValue}
    {calldata : SorobanProofCalldata} {item : Registry.BatchItem} {simAuth : Address → Bool}
    (bundleNetwork networkPassphrase : String)
    (hserves : Registry.Serves ((Registry.machine h).run (Registry.construct admin) txs) id arg)
    (hpoints : arg.points h = keyOf h vk) (harity : arg.ic.length = (icEntries vk).length)
    (hformat : formatProof proof (.array publicSignals) none = .ok calldata)
    (hitem : makeRegistryBatchItem id calldata = some item)
    (hfree : h.CollisionFree (Registry.messages h (item :: Registry.accepted
      ((Registry.machine h).trace (Registry.construct admin) txs)))) :
    verifyViaRegistry
        (fun call => (Registry.exec h ((Registry.machine h).run (Registry.construct admin) txs)
          ⟨simAuth, call⟩).1)
        networkPassphrase ⟨id, none, some ⟨proof, .array publicSignals, bundleNetwork⟩⟩
      = if bundleNetwork ≠ networkPassphrase then
          .error (.zk (.networkMismatch bundleNetwork networkPassphrase))
        else if Spent ((Registry.machine h).trace (Registry.construct admin) txs) id publicSignals
          then .ok false
        else (verdictOf h vk proof publicSignals).elim
          (.error (simulationFailed "verify_proof")) .ok := by
  obtain ⟨inputs, hinputs, hintegers⟩ := inputs_of_formatProof hformat
  -- the item is made of the calldata
  rw [makeRegistryBatchItem, inputs_of_publicInputs hinputs, Option.map_some,
    Option.some.injEq] at hitem
  subst hitem
  have hrequest := verifyProofRequest_eq id bundleNetwork networkPassphrase hformat hinputs
  by_cases hnetwork : bundleNetwork = networkPassphrase
  swap
  · rw [if_pos hnetwork] at hrequest ⊢
    rw [verifyViaRegistry, hrequest]
    rfl
  rw [if_neg (not_not.2 hnetwork)] at hrequest ⊢
  rw [verifyViaRegistry_eq hrequest]
  -- the stored nullifier is that of an earlier acceptance of the same integers
  have hused := isNullifierUsed_iff_spent hintegers hfree
  by_cases hspent :
      Spent ((Registry.machine h).trace (Registry.construct admin) txs) id publicSignals
  · rw [if_pos hspent, Registry.itemVerdict_of_used hserves.2 (hused.2 hspent)]
    rfl
  · rw [if_neg hspent, Registry.itemVerdict_of_fresh hserves.2
      (Bool.eq_false_iff.2 fun hyes => hspent (hused.1 hyes)),
      check_eq_verdictOf hserves hpoints harity (proofPoints_of_formatProof hformat) hintegers]

/-- **From JSON to a verdict.** Format a verification key whose points are arrays. The contract can
    decode the result; register it, in any run of the registry, and let anything happen afterwards
    that does not register or remove this circuit. Then, without collisions among the hashed
    messages, `verifyViaRegistry`, on the bundle of any proof and signals that can be formatted,
    throws on another network, says no to signals that were accepted before, and otherwise gives the
    verdict on the files: the Groth16 equation, when they denote points. -/
theorem registry_pipeline (h : Host) (toNumber : JsValue → JsNumber) (vk : JsValue)
    (harrays : PointsAreArrays vk) (key : RegistryVerifyingKey)
    (hkey : formatVerifyingKey toNumber vk = .ok key) :
    ∃ arg, key.argument = some arg ∧
      ∀ (admin : Address) (pre post : List (Registry.Tx Address)) (auth : Address → Bool)
        (id : UInt32) (proof : JsValue) (publicSignals : List JsValue)
        (calldata : SorobanProofCalldata) (item : Registry.BatchItem)
        (bundleNetwork networkPassphrase : String) (simAuth : Address → Bool),
      (Registry.exec h ((Registry.machine h).run (Registry.construct admin) pre)
        ⟨auth, .registerCircuit id arg⟩).1 = .ok .unit →
      (∀ tx ∈ post, tx.call.changes id = false) →
      formatProof proof (.array publicSignals) none = .ok calldata →
      makeRegistryBatchItem id calldata = some item →
      let txs := pre ++ ⟨auth, .registerCircuit id arg⟩ :: post
      let tr := (Registry.machine h).trace (Registry.construct admin) txs
      h.CollisionFree (Registry.messages h (item :: Registry.accepted tr)) →
      verifyViaRegistry
          (fun call => (Registry.exec h ((Registry.machine h).run (Registry.construct admin) txs)
            ⟨simAuth, call⟩).1)
          networkPassphrase ⟨id, none, some ⟨proof, .array publicSignals, bundleNetwork⟩⟩
        = if bundleNetwork ≠ networkPassphrase then
            .error (.zk (.networkMismatch bundleNetwork networkPassphrase))
          else if Spent tr id publicSignals then .ok false
          else (verdictOf h vk proof publicSignals).elim
            (.error (simulationFailed "verify_proof")) .ok := by
  obtain ⟨arg, harg⟩ := exists_argument hkey harrays
  refine ⟨arg, harg, ?_⟩
  intro admin pre post auth id proof publicSignals calldata item bundleNetwork networkPassphrase
    simAuth hregistered hpost hformat hitem txs tr hfree
  obtain ⟨hpoints, harity⟩ := points_of_argument (h := h) hkey harrays harg
  have hserves :
      Registry.Serves ((Registry.machine h).run (Registry.construct admin) txs) id arg := by
    rw [Machine.run_append]
    exact Registry.serves_run (Registry.serves_registerCircuit hregistered) hpost
  exact verifyViaRegistry_of_serves bundleNetwork networkPassphrase hserves hpoints harity hformat
    hitem hfree

end

deriving instance DecidableEq for RegistryVerifyingKey

/-- The verification key file for one signal all of whose coordinates are zero. -/
def zeroKeyFile : JsValue :=
  let zero : JsValue := .string "0"
  let g1 : JsValue := .array [zero, zero, zero]
  let g2 : JsValue := .array [.array [zero, zero], .array [zero, zero], .array [zero, zero]]
  .object [("protocol", .string "groth16"), ("vk_alpha_1", g1), ("vk_beta_2", g2),
    ("vk_gamma_2", g2), ("vk_delta_2", g2), ("IC", .array [g1, g1])]

theorem pointsAreArrays_zeroKeyFile : PointsAreArrays zeroKeyFile where
  alpha := ⟨_, rfl⟩
  beta := ⟨⟨_, rfl⟩, ⟨_, rfl⟩, ⟨_, rfl⟩⟩
  gamma := ⟨⟨_, rfl⟩, ⟨_, rfl⟩, ⟨_, rfl⟩⟩
  delta := ⟨⟨_, rfl⟩, ⟨_, rfl⟩, ⟨_, rfl⟩⟩
  ic := by
    intro point hpoint
    have hmem : point ∈ icEntries zeroKeyFile := hpoint
    simp only [icEntries, zeroKeyFile, JsValue.get] at hmem
    simp at hmem
    exact ⟨_, hmem⟩

/-- After the signal 3 was accepted, `verifyViaRegistry` gives the verdict on the all-zero files for
    the signal 7, which is yes, and says no to the signal 3. -/
theorem registry_pipeline_zero :
    let s := (Registry.machine Host.scalar).run (Registry.construct ())
      [Registry.signed (.registerCircuit 0 (.zero 1)),
        Registry.signed (.verifyProof (Registry.zeroItem 3))]
    let answer (signal : String) : Except JsException Bool := verifyViaRegistry
      (fun call => (Registry.exec Host.scalar s ⟨fun _ => true, call⟩).1) "network"
      ⟨0, none, some ⟨zeroProof, .array [.string signal], "network"⟩⟩
    answer "7" = .ok true ∧ answer "7" = (verdictOf Host.scalar zeroKeyFile zeroProof
        [.string "7"]).elim (.error (simulationFailed "verify_proof")) .ok ∧
      answer "3" = .ok false := by
  obtain ⟨arg, harg, hanswer⟩ := @registry_pipeline Unit Host.scalar (fun _ => .nan) zeroKeyFile
    pointsAreArrays_zeroKeyFile ⟨zeroG1, zeroG2, zeroG2, zeroG2, [zeroG1, zeroG1]⟩
    (by decide +kernel)
  obtain rfl : VerifyingKey.zero 1 = arg :=
    Option.some.inj ((show _ = some (VerifyingKey.zero 1) by decide +kernel).symm.trans harg)
  refine ⟨by decide +kernel, ?_, ?_⟩
  · refine (hanswer () [] [Registry.signed (.verifyProof (Registry.zeroItem 3))]
      (fun _ => true) 0 zeroProof [.string "7"] (zeroCalldata 7) (Registry.zeroItem 7) "network"
      "network" (fun _ => true) (by decide +kernel) (by decide) (by decide +kernel)
      (by decide +kernel) (by decide +kernel)).trans ?_
    rw [if_neg (by simp), if_neg (by decide +kernel)]
  · refine (hanswer () [] [Registry.signed (.verifyProof (Registry.zeroItem 3))]
      (fun _ => true) 0 zeroProof [.string "3"] (zeroCalldata 3) (Registry.zeroItem 3) "network"
      "network" (fun _ => true) (by decide +kernel) (by decide) (by decide +kernel)
      (by decide +kernel) (by decide +kernel)).trans ?_
    rw [if_neg (by simp), if_pos (by decide +kernel)]

end Sdk

end ZkStellar

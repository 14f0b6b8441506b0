import ZkStellar.Lib.Panic
import ZkStellar.Registry.History

set_option autoImplicit false

/-! # Where the registry looks things up

`Labelled` is the verification code with the places where it can stop: its panics and traps, and the
branch of `run_verification` for an id without a key. It is parametric in the parsers of the proof
bytes. In every reachable state an active circuit has its key (`KeysStored`), so the code never gets
to that branch, and without the places it is the code as before (`toOption_verifyItem`,
`toOption_verifyBatchLoop`). The comparison of the two lengths keeps every index in bounds, whatever
key is stored; and what is rejected before the proof is parsed is rejected with any parsers
(`registry_lookups_safe`). -/

namespace ZkStellar.Registry

variable {Address : Type}

/-- The places where verification can stop. -/
inductive Place where
  /-- The id has no key. -/
  | missingKey
  /-- The assertions of `read_g1` and `read_g2`. -/
  | proofLength
  | icPoint (i : ℕ)
  | publicInput (i : ℕ)
  | pairingCheck
deriving DecidableEq

/-- The place looks something up: a key, a point of it or a public input. -/
def Place.IsLookup : Place → Prop
  | .missingKey | .icPoint _ | .publicInput _ => True
  | _ => False

/-- Parsers of proof bytes. -/
structure Parsers (h : Host) where
  g1 : Bytes → Option h.G1Affine
  g2 : Bytes → Option h.G2Affine

/-- The contract's own. -/
def Parsers.source (h : Host) : Parsers h := ⟨readG1 h, readG2 h⟩

/-! ## The code with its places -/

namespace Labelled

section

variable (h : Host)

def accumulateInputs (ic : List (BytesN 64)) (publicInputs : List (BytesN 32))
    (vkX : h.G1Affine) : Except Place h.G1Affine :=
  (List.range publicInputs.length).foldlM
    (fun vkX i => do
      let input ← orPanic (.publicInput i) publicInputs[i]?
      let point ← orPanic (.icPoint (i + 1)) ic[i + 1]?
      return Host.G1Affine.add vkX (Host.G1Affine.mul (h.g1Point point) (Fr.fromBytes input)))
    vkX

variable (parsers : Parsers h)

def runVerification (s : State Address) (id : UInt32) (proofA proofB proofC : Bytes)
    (publicInputs : List (BytesN 32)) : Except Place Bool := do
  let vk ← orPanic .missingKey (s.circuit id)
  if publicInputs.length + 1 ≠ vk.ic.length then
    return false
  else
    let a ← orPanic .proofLength (parsers.g1 proofA)
    let b ← orPanic .proofLength (parsers.g2 proofB)
    let c ← orPanic .proofLength (parsers.g1 proofC)
    let ic₀ ← orPanic (.icPoint 0) vk.ic[0]?
    let vkX ← accumulateInputs h vk.ic publicInputs (h.g1Point ic₀)
    orPanic .pairingCheck (h.pairingCheck
      [a, Host.G1Affine.neg (h.g1Point vk.alpha), Host.G1Affine.neg vkX, Host.G1Affine.neg c]
      [b, h.g2Point vk.beta, h.g2Point vk.gamma, h.g2Point vk.delta])

def verifyProof (id : UInt32) (proofA proofB proofC : Bytes) (publicInputs : List (BytesN 32))
    (s : State Address) : Except Place (Bool × State Address) :=
  let inputsHash := computeInputsHash h publicInputs
  if !s.isCircuitActive id then return (false, s.publish ⟨false, inputsHash⟩)
  else
    let nullifierKey := computeNullifier h id inputsHash
    if s.isNullifierUsed nullifierKey then return (false, s.publish ⟨false, inputsHash⟩)
    else do
      let success ← runVerification h parsers s id proofA proofB proofC publicInputs
      let s := if success then s.burn nullifierKey else s
      return (success, s.publish ⟨success, inputsHash⟩)

def verifyBatchLoop : List BatchItem → List Bool → State Address →
    Except Place (List Bool × State Address)
  | [], results, s => return (results, s)
  | item :: batch, results, s =>
      let inputsHash := computeInputsHash h item.publicInputs
      if !s.isCircuitActive item.id then
        verifyBatchLoop batch (results ++ [false]) (s.publish ⟨false, inputsHash⟩)
      else
        let nullifierKey := computeNullifier h item.id inputsHash
        if s.isNullifierUsed nullifierKey then
          verifyBatchLoop batch (results ++ [false]) (s.publish ⟨false, inputsHash⟩)
        else do
          let success ← runVerification h parsers s item.id item.proofA item.proofB item.proofC
            item.publicInputs
          let s := if success then s.burn nullifierKey else s
          verifyBatchLoop batch (results ++ [success]) (s.publish ⟨success, inputsHash⟩)

def verifyBatch (batch : List BatchItem) (s : State Address) :
    Except Place (List Bool × State Address) :=
  verifyBatchLoop h parsers batch [] s

/-- `verifyProof` with its arguments packed. -/
def verifyItem (item : BatchItem) (s : State Address) : Except Place (Bool × State Address) :=
  verifyProof h parsers item.id item.proofA item.proofB item.proofC item.publicInputs s

end

end Labelled

section

variable {h : Host} {parsers : Parsers h}

/-- The inlined body of the labelled loop does what the labelled `verify_proof` does. -/
theorem labelled_verifyBatchLoop_cons (item : BatchItem) (batch : List BatchItem)
    (results : List Bool) (s : State Address) :
    Labelled.verifyBatchLoop h parsers (item :: batch) results s
      = Labelled.verifyItem h parsers item s >>= fun out =>
          Labelled.verifyBatchLoop h parsers batch (results ++ [out.1]) out.2 := by
  unfold Labelled.verifyItem Labelled.verifyProof
  rw [Labelled.verifyBatchLoop]
  simp only
  split_ifs
  · rfl
  · rfl
  · cases Labelled.runVerification h parsers s item.id item.proofA item.proofB item.proofC
      item.publicInputs <;> rfl

end

/-! ## Every active circuit has its key -/

section Keys

variable {h : Host} {s s' : State Address}

/-- Every active circuit has a key. -/
def KeysStored (s : State Address) : Prop :=
  ∀ id, s.isCircuitActive id = true → s.hasCircuit id = true

theorem exists_circuit (hkeys : KeysStored s) {id : UInt32}
    (hactive : s.isCircuitActive id = true) :
    ∃ vk, s.circuit id = some vk :=
  Option.isSome_iff_exists.1 (hkeys id hactive)

theorem KeysStored.of_persistent (hkeys : KeysStored s)
    (hsame : ∀ id, s'.circuit id = s.circuit id ∧ s'.isCircuitActive id = s.isCircuitActive id) :
    KeysStored s' := by
  intro id hactive
  rw [(hsame id).2] at hactive
  have hkey := hkeys id hactive
  show (s'.circuit id).isSome = true
  rw [(hsame id).1]
  exact hkey

theorem keysStored_afterItem (hkeys : KeysStored s) (item : BatchItem) (b : Bool) :
    KeysStored (afterItem h s item b) :=
  hkeys.of_persistent fun _ => ⟨afterItem_circuit, afterItem_isCircuitActive⟩

theorem keysStored_withAdmin (hkeys : KeysStored s) {auth : Address → Bool}
    {update : State Address → State Address} (hupdate : KeysStored (update s)) :
    let r : Option (Except Empty Reply × State Address) :=
      (withAdmin auth s update).map fun s => (.ok .unit, s)
    KeysStored (commit s r).2 := by
  intro r
  rcases withAdmin_cases auth s update with ⟨hsame, -⟩ | ⟨hdone, -⟩
  · rw [hsame]
    exact hkeys
  · rw [hdone]
    exact hupdate

/-- Registering writes key and flag, removing clears the flag, and no other call touches either. -/
theorem keysStored_exec (hkeys : KeysStored s) (tx : Tx Address) :
    KeysStored (exec h s tx).2 := by
  obtain ⟨auth, call⟩ := tx
  cases call with
  | verifyProof item =>
      rw [exec_verifyProof]
      cases itemVerdict h s item with
      | none => exact hkeys
      | some b => exact keysStored_afterItem hkeys item b
  | verifyBatch batch =>
      rw [exec_verifyBatch]
      cases hrun : verifyItems h batch s with
      | none => exact hkeys
      | some out => exact hkeys.of_persistent (circuit_of_verifyItems hrun)
  | proposeAdmin newAdmin => exact keysStored_withAdmin hkeys hkeys
  | acceptAdmin =>
      simp only [exec, callBody, acceptAdmin]
      cases s.pendingAdmin with
      | none => exact hkeys
      | some pending =>
          by_cases hauth : auth pending = true
          · simp only [hauth, if_true]
            exact hkeys
          · simp only [hauth]
            exact hkeys
  | registerCircuit id vk =>
      refine keysStored_withAdmin hkeys ?_
      intro id' hactive
      by_cases hid : id' = id
      · subst hid
        simp [State.hasCircuit, Store.has]
      · -- another circuit's key and flag are not written
        have hold := hkeys id'
        simp only [State.isCircuitActive, State.hasCircuit, Store.has] at hactive hold ⊢
        rw [Store.get_set_of_ne _ _ (by simpa using hid),
          Store.get_set_of_ne _ _ (by simp)] at hactive
        rw [Store.get_set_of_ne _ _ (by simp), Store.get_set_of_ne _ _ (by simpa using hid)]
        exact hold hactive
  | removeCircuit id =>
      refine keysStored_withAdmin hkeys ?_
      intro id' hactive
      by_cases hid : id' = id
      · subst hid
        simp [State.isCircuitActive] at hactive
      · have hold := hkeys id'
        simp only [State.isCircuitActive, State.hasCircuit, Store.has] at hactive hold ⊢
        rw [Store.get_set_of_ne _ _ (by simpa using hid)] at hactive
        rw [Store.get_set_of_ne _ _ (by simp)]
        exact hold hactive

theorem keysStored_of_reachable {admin : Address}
    (hs : (machine h).Reachable (construct admin) s) : KeysStored s := by
  refine hs.induction (P := KeysStored) _ ?_ fun s tx hkeys => keysStored_exec hkeys tx
  intro id hactive
  simp [construct, State.isCircuitActive] at hactive

end Keys

/-! ## The places left out -/

section Forget

variable {h : Host} {s : State Address}

theorem toOption_accumulateInputs (ic : List (BytesN 64)) (publicInputs : List (BytesN 32))
    (vkX : h.G1Affine) :
    (Labelled.accumulateInputs h ic publicInputs vkX).toOption
      = accumulateInputs h ic publicInputs vkX := by
  unfold Labelled.accumulateInputs accumulateInputs
  rw [toOption_foldlM]
  congr 1
  funext vkX i
  simp only [toOption_bind, toOption_orPanic]
  cases publicInputs[i]? with
  | none => rfl
  | some input => cases ic[i + 1]? <;> rfl

theorem toOption_runVerification {id : UInt32} {vk : VerifyingKey} (hkey : s.circuit id = some vk)
    (proofA proofB proofC : Bytes) (publicInputs : List (BytesN 32)) :
    (Labelled.runVerification h (.source h) s id proofA proofB proofC publicInputs).toOption
      = runVerification h s id proofA proofB proofC publicInputs := by
  unfold Labelled.runVerification runVerification
  simp only [toOption_bind, toOption_orPanic, hkey, Option.bind_some]
  split_ifs
  · rfl
  · simp only [toOption_bind, toOption_orPanic, Parsers.source]
    cases readG1 h proofA with
    | none => rfl
    | some a =>
        cases readG2 h proofB with
        | none => rfl
        | some b =>
            cases readG1 h proofC with
            | none => rfl
            | some c =>
                cases vk.ic[0]? with
                | none => rfl
                | some ic₀ =>
                    simp only [Option.bind_some, toOption_accumulateInputs]
                    cases accumulateInputs h vk.ic publicInputs (h.g1Point ic₀) <;> rfl

theorem toOption_verifyItem (hkeys : KeysStored s) (item : BatchItem) :
    (Labelled.verifyItem h (.source h) item s).toOption = verifyItem h item s := by
  unfold Labelled.verifyItem verifyItem Labelled.verifyProof verifyProof
  cases hactive : s.isCircuitActive item.id with
  | false => rfl
  | true =>
      obtain ⟨vk, hkey⟩ := exists_circuit hkeys hactive
      simp only [Bool.not_true, Bool.false_eq_true, if_false]
      split_ifs
      · rfl
      · simp only [toOption_bind, toOption_runVerification hkey]
        cases runVerification h s item.id item.proofA item.proofB item.proofC
          item.publicInputs <;> rfl

theorem toOption_verifyBatchLoop (hkeys : KeysStored s) (batch : List BatchItem)
    (results : List Bool) :
    (Labelled.verifyBatchLoop h (.source h) batch results s).toOption
      = verifyBatchLoop h batch results s := by
  induction batch generalizing results s with
  | nil => rfl
  | cons item batch ih =>
      rw [labelled_verifyBatchLoop_cons, toOption_bind, toOption_verifyItem hkeys, verifyItem_eq,
        verifyBatchLoop_cons]
      cases itemVerdict h s item with
      | none => rfl
      | some b => exact ih (keysStored_afterItem hkeys item b) _

end Forget

/-! ## Lookups succeed -/

section Lookups

variable {h : Host} {parsers : Parsers h} {s : State Address}

theorem avoids_accumulateInputs {ic : List (BytesN 64)} {publicInputs : List (BytesN 32)}
    (hlength : publicInputs.length + 1 = ic.length) (vkX : h.G1Affine) :
    Avoids Place.IsLookup (Labelled.accumulateInputs h ic publicInputs vkX) := by
  refine avoids_foldlM (fun i hi vkX => ?_) vkX
  have hlt := List.mem_range.1 hi
  refine (avoids_orPanic_of_eq_some (List.getElem?_eq_getElem hlt)).bind fun input _ => ?_
  have hlt' : i + 1 < ic.length := by omega
  exact (avoids_orPanic_of_eq_some (List.getElem?_eq_getElem hlt')).bind fun point _ => avoids_ok

/-- Whatever key is stored: the lengths are compared before anything is indexed. -/
theorem avoids_runVerification {circuitId : UInt32} {vk : VerifyingKey}
    (hkey : s.circuit circuitId = some vk) (proofA proofB proofC : Bytes)
    (publicInputs : List (BytesN 32)) :
    Avoids Place.IsLookup
      (Labelled.runVerification h parsers s circuitId proofA proofB proofC publicInputs) := by
  unfold Labelled.runVerification
  refine (avoids_orPanic_of_eq_some hkey).bind ?_
  intro vk' hvk'
  split_ifs with hlength
  · exact avoids_ok
  · have hpos : 0 < vk'.ic.length := by omega
    refine (avoids_orPanic id _).bind fun a _ => (avoids_orPanic id _).bind fun b _ =>
      (avoids_orPanic id _).bind fun c _ => ?_
    refine (avoids_orPanic_of_eq_some (List.getElem?_eq_getElem hpos)).bind fun ic₀ _ => ?_
    exact (avoids_accumulateInputs (not_not.1 hlength) _).bind fun vkX _ => avoids_orPanic id _

theorem avoids_verifyItem (hkeys : KeysStored s) (item : BatchItem) :
    Avoids Place.IsLookup (Labelled.verifyItem h parsers item s) := by
  unfold Labelled.verifyItem Labelled.verifyProof
  cases hactive : s.isCircuitActive item.id with
  | false => exact avoids_ok
  | true =>
      obtain ⟨vk, hkey⟩ := exists_circuit hkeys hactive
      simp only [Bool.not_true, Bool.false_eq_true, if_false]
      split_ifs
      · exact avoids_ok
      · exact (avoids_runVerification hkey _ _ _ _).bind fun success _ => avoids_ok

/-- With any parsers the state moves on as with the contract's own. -/
theorem labelled_verifyItem_snd {item : BatchItem} {out : Bool × State Address}
    (hrun : Labelled.verifyItem h parsers item s = .ok out) :
    out.2 = afterItem h s item out.1 := by
  unfold Labelled.verifyItem Labelled.verifyProof at hrun
  simp only at hrun
  split_ifs at hrun
  · cases hrun
    rfl
  · cases hrun
    rfl
  · cases hverdict : Labelled.runVerification h parsers s item.id item.proofA item.proofB
      item.proofC item.publicInputs with
    | error place =>
        rw [hverdict] at hrun
        cases hrun
    | ok success =>
        rw [hverdict] at hrun
        cases hrun
        rfl

theorem avoids_verifyBatchLoop (hkeys : KeysStored s) (batch : List BatchItem)
    (results : List Bool) :
    Avoids Place.IsLookup (Labelled.verifyBatchLoop h parsers batch results s) := by
  induction batch generalizing results s with
  | nil => exact avoids_ok
  | cons item batch ih =>
      rw [labelled_verifyBatchLoop_cons]
      refine (avoids_verifyItem hkeys item).bind fun out hout => ih ?_ _
      rw [labelled_verifyItem_snd hout]
      exact keysStored_afterItem hkeys item out.1

/-! ## Rejected unparsed -/

/-- The item is for an inactive circuit, replayed, or has the wrong number of inputs. -/
def EarlyRejected (h : Host) (s : State Address) (item : BatchItem) : Prop :=
  s.isCircuitActive item.id = false ∨ s.isNullifierUsed (item.nullifier h) = true ∨
    ∃ vk, s.circuit item.id = some vk ∧ item.publicInputs.length + 1 ≠ vk.ic.length

theorem labelled_runVerification_of_length_ne {circuitId : UInt32} {vk : VerifyingKey}
    (hkey : s.circuit circuitId = some vk) {publicInputs : List (BytesN 32)}
    (hlength : publicInputs.length + 1 ≠ vk.ic.length) (proofA proofB proofC : Bytes) :
    Labelled.runVerification h parsers s circuitId proofA proofB proofC publicInputs
      = .ok false := by
  unfold Labelled.runVerification
  rw [hkey]
  exact if_pos hlength

/-- The checks in the order of the code. -/
theorem earlyRejected_cases {item : BatchItem} (hrejected : EarlyRejected h s item) :
    s.isCircuitActive item.id = false ∨
      s.isCircuitActive item.id = true ∧ s.isNullifierUsed (item.nullifier h) = true ∨
      s.isCircuitActive item.id = true ∧ s.isNullifierUsed (item.nullifier h) = false ∧
        ∃ vk, s.circuit item.id = some vk ∧ item.publicInputs.length + 1 ≠ vk.ic.length := by
  by_cases hactive : s.isCircuitActive item.id = true
  · rcases hrejected with hinactive | hused | hlength
    · exact .inl hinactive
    · exact .inr (.inl ⟨hactive, hused⟩)
    · by_cases hused : s.isNullifierUsed (item.nullifier h) = true
      · exact .inr (.inl ⟨hactive, hused⟩)
      · exact .inr (.inr ⟨hactive, Bool.eq_false_iff.2 hused, hlength⟩)
  · exact .inl (Bool.eq_false_iff.2 hactive)

theorem itemVerdict_of_earlyRejected {item : BatchItem} (hrejected : EarlyRejected h s item) :
    itemVerdict h s item = some false := by
  rcases earlyRejected_cases hrejected with
    hinactive | ⟨hactive, hused⟩ | ⟨hactive, hunused, vk, hkey, hlength⟩
  · exact itemVerdict_of_inactive hinactive
  · exact itemVerdict_of_used hactive hused
  · rw [itemVerdict_of_fresh hactive hunused]
    exact runVerification_of_length_ne hkey hlength

/-- Such an item is answered `false` before its proof gets to the parsers, whatever they do. -/
theorem labelled_verifyItem_of_earlyRejected {item : BatchItem}
    (hrejected : EarlyRejected h s item) :
    Labelled.verifyItem h parsers item s = .ok (false, afterItem h s item false) := by
  unfold Labelled.verifyItem Labelled.verifyProof
  rcases earlyRejected_cases hrejected with
    hinactive | ⟨hactive, hused⟩ | ⟨hactive, hunused, vk, hkey, hlength⟩
  · rw [hinactive]
    rfl
  · rw [hactive]
    exact if_pos hused
  · rw [hactive]
    refine (if_neg (Bool.eq_false_iff.1 hunused)).trans ?_
    rw [labelled_runVerification_of_length_ne hkey hlength]
    rfl

/-- **Registry lookups are safe.** After any run an active circuit has its key, so with whatever
    parsers and items neither `verify_proof` nor `verify_batch` gets to the branch for a missing key
    or to an index out of bounds, nor does `run_verification` with any stored key; and the code with
    its places is the contract's code. In any state, an item for an inactive circuit, a replayed one
    and one with the wrong number of inputs is answered `false` whatever the parsers make of its
    proof. -/
theorem registry_lookups_safe (h : Host) (admin : Address) (s : State Address)
    (hs : (machine h).Reachable (construct admin) s) :
    (∀ id, s.isCircuitActive id = true → s.hasCircuit id = true) ∧
    (∀ parsers item, Avoids Place.IsLookup (Labelled.verifyItem h parsers item s)) ∧
    (∀ parsers batch, Avoids Place.IsLookup (Labelled.verifyBatch h parsers batch s)) ∧
    (∀ parsers id, s.hasCircuit id = true → ∀ proofA proofB proofC publicInputs,
      Avoids Place.IsLookup
        (Labelled.runVerification h parsers s id proofA proofB proofC publicInputs)) ∧
    (∀ item, (Labelled.verifyItem h (.source h) item s).toOption = verifyItem h item s) ∧
    (∀ batch, (Labelled.verifyBatch h (.source h) batch s).toOption = verifyBatch h batch s) ∧
    ∀ (t : State Address) (parsers : Parsers h) item, EarlyRejected h t item →
      verifyItem h item t = some (false, afterItem h t item false) ∧
      Labelled.verifyItem h parsers item t = .ok (false, afterItem h t item false) ∧
      ∀ batch results, Labelled.verifyBatchLoop h parsers (item :: batch) results t
        = Labelled.verifyBatchLoop h parsers batch (results ++ [false])
            (afterItem h t item false) := by
  have hkeys := keysStored_of_reachable hs
  refine ⟨hkeys, ?_, ?_, ?_, ?_, ?_, ?_⟩
  · intro parsers item
    exact avoids_verifyItem hkeys item
  · intro parsers batch
    exact avoids_verifyBatchLoop hkeys batch []
  · intro parsers id hkey proofA proofB proofC publicInputs
    obtain ⟨vk, hvk⟩ := Option.isSome_iff_exists.1 hkey
    exact avoids_runVerification hvk proofA proofB proofC publicInputs
  · intro item
    exact toOption_verifyItem hkeys item
  · intro batch
    exact toOption_verifyBatchLoop hkeys batch []
  · -- the three early answers come before any parser is called
    intro t parsers item hrejected
    have hitem : Labelled.verifyItem h parsers item t = .ok (false, afterItem h t item false) :=
      labelled_verifyItem_of_earlyRejected hrejected
    refine ⟨?_, hitem, fun batch results => ?_⟩
    · rw [verifyItem_eq, itemVerdict_of_earlyRejected hrejected]
      rfl
    · rw [labelled_verifyBatchLoop_cons, hitem]
      rfl

/-- A key without points, stored like any other, and one that is removed before it is there. -/
theorem registry_lookups_safe_zero :
    Avoids Place.IsLookup (Labelled.verifyBatch Host.scalar (.source Host.scalar)
      [zeroItem 7, ⟨1, [], [], [], []⟩, ⟨2, [], [], [], []⟩]
      ((machine Host.scalar).run (construct ()) [signed (.registerCircuit 0 (.zero 1)),
        signed (.registerCircuit 1 { VerifyingKey.zero 0 with ic := [] }),
        signed (.removeCircuit 2), signed (.registerCircuit 2 (.zero 0)),
        signed (.removeCircuit 2)])) :=
  (registry_lookups_safe Host.scalar () _ ⟨_, rfl⟩).2.2.1 _ _

end Lookups

end ZkStellar.Registry

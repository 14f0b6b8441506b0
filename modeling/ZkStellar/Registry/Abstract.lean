import ZkStellar.Lib.Simulation
import ZkStellar.Registry.History
import Mathlib.Data.Set.Insert

set_option autoImplicit false

/-! # What the registry is for

The registry without its encodings: circuits are a partial function of ids, consumed statements are
a set of pairs of an id and input bytes, a proof is accepted when the Groth16 equation holds, and
every verdict goes into a log with the item it was about. There is no hash in it. The contract
refines it (`registry_refines`): as long as SHA-256 separates the messages hashed for the submitted
items, both give the same outcomes on the same transactions, and the contract's event list is the
log with the items reduced to their input hashes. -/

namespace ZkStellar.Registry

variable {Address : Type}

/-- What a proof is consumed under: the circuit id and the input bytes. -/
def BatchItem.claim (item : BatchItem) : UInt32 × List (BytesN 32) := (item.id, item.publicInputs)

namespace Abstract

/-! ## The abstract registry -/

/-- Its state. The admin always exists; the log is oldest first. -/
structure State (Address : Type) where
  admin : Address
  pending : Option Address
  keys : UInt32 → Option VerifyingKey
  active : Set UInt32
  spent : Set (UInt32 × List (BytesN 32))
  log : List (BatchItem × Bool)

/-- A registry just created. -/
def initial (admin : Address) : State Address where
  admin := admin
  pending := none
  keys := fun _ => none
  active := ∅
  spent := ∅
  log := []

open Classical in
/-- The verdict on an item, `none` when a point cannot be parsed: an unregistered, switched off or
    already consumed claim is refused, and so is a wrong number of inputs; else the Groth16 equation
    decides. -/
noncomputable def verdict (h : Host) (a : State Address) (item : BatchItem) : Option Bool :=
  if item.id ∉ a.active ∨ item.claim ∈ a.spent then some false
  else
    match a.keys item.id with
    | none => some false
    | some vk =>
        if item.publicInputs.length + 1 ≠ vk.ic.length then some false
        else
          match proofPoints h item.proofA item.proofB item.proofC, vk.points h with
          | some π, some K =>
              some (decide (Groth16.Accepts h.pairing K π (statement item.publicInputs)))
          | _, _ => none

/-- Log a verdict; an accepted claim is consumed. -/
def State.record (a : State Address) (item : BatchItem) (success : Bool) : State Address :=
  { a with
    spent := if success then insert item.claim a.spent else a.spent
    log := a.log ++ [(item, success)] }

/-- Decide and record one item after another. -/
noncomputable def settle (h : Host) :
    List BatchItem → State Address → Option (List Bool × State Address)
  | [], a => some ([], a)
  | item :: batch, a =>
      match verdict h a item with
      | none => none
      | some b => (settle h batch (a.record item b)).map fun (bs, a) => (b :: bs, a)

/-- Do an update if `guard` allows it. -/
def guarded (guard : Bool) (a update : State Address) : Outcome Empty Reply × State Address :=
  if guard then (.ok .unit, update) else (.trap, a)

/-- One transaction. -/
noncomputable def exec (h : Host) (a : State Address) (tx : Tx Address) :
    Outcome Empty Reply × State Address :=
  match tx.call with
  | .proposeAdmin new => guarded (tx.auth a.admin) a { a with pending := some new }
  | .acceptAdmin =>
      match a.pending with
      | none => (.trap, a)
      | some new => guarded (tx.auth new) a { a with admin := new, pending := none }
  | .registerCircuit id vk =>
      guarded (tx.auth a.admin) a
        { a with keys := Function.update a.keys id (some vk), active := insert id a.active }
  | .removeCircuit id => guarded (tx.auth a.admin) a { a with active := a.active \ {id} }
  | .verifyProof item =>
      match verdict h a item with
      | none => (.trap, a)
      | some b => (.ok (.flag b), a.record item b)
  | .verifyBatch batch =>
      match settle h batch a with
      | none => (.trap, a)
      | some (bs, a') => (.ok (.flags bs), a')

/-- The abstract registry as a machine. -/
noncomputable def machine (h : Host) :
    Machine (State Address) (Tx Address) (Outcome Empty Reply) :=
  ⟨exec h⟩

end Abstract

/-! ## The refinement -/

variable {h : Host}

/-- The nullifier of a claim. -/
def nullifierOf (h : Host) (claim : UInt32 × List (BytesN 32)) : BytesN 32 :=
  computeNullifier h claim.1 (computeInputsHash h claim.2)

/-- The contract's state `s` represents the abstract state `a`, all of whose consumed claims are
    claims of `items`. -/
structure Represents (h : Host) (items : List BatchItem) (s : State Address)
    (a : Abstract.State Address) : Prop where
  admin : s.admin = some a.admin
  pending : s.pendingAdmin = a.pending
  keys : ∀ id, s.circuit id = a.keys id
  active : ∀ id, s.isCircuitActive id = true ↔ id ∈ a.active
  nullifiers : ∀ n, s.isNullifierUsed n = true ↔ ∃ claim ∈ a.spent, nullifierOf h claim = n
  spent : ∀ claim ∈ a.spent, ∃ item ∈ items, item.claim = claim
  events : s.events = a.log.map fun entry => itemEvent h entry.1 entry.2

namespace Represents

variable {items : List BatchItem} {s : State Address} {a : Abstract.State Address}
  {item : BatchItem}

/-- Without collisions, the nullifier of an item is stored exactly when its claim is consumed. -/
theorem isNullifierUsed_iff (hrep : Represents h items s a)
    (hfree : h.CollisionFree (messages h items)) (hmem : item ∈ items) :
    s.isNullifierUsed (item.nullifier h) = true ↔ item.claim ∈ a.spent := by
  rw [hrep.nullifiers]
  constructor
  · rintro ⟨claim, hclaim, hn⟩
    obtain ⟨other, hother, rfl⟩ := hrep.spent claim hclaim
    obtain ⟨hid, hinputs⟩ := nullifier_inj hfree hother hmem hn
    have heq : item.claim = other.claim := Prod.ext hid.symm hinputs.symm
    rwa [heq]
  · intro hclaim
    exact ⟨item.claim, hclaim, rfl⟩

open Classical in
/-- The contract's verdict on an item is the abstract one. -/
theorem itemVerdict_eq (hrep : Represents h items s a)
    (hfree : h.CollisionFree (messages h items)) (hmem : item ∈ items) :
    itemVerdict h s item = Abstract.verdict h a item := by
  have hused := hrep.isNullifierUsed_iff hfree hmem
  unfold Abstract.verdict
  split
  next hno =>
    rcases hno with hactive | hspent
    · exact itemVerdict_of_inactive (Bool.eq_false_iff.2 fun h => hactive ((hrep.active _).1 h))
    · cases hactive : s.isCircuitActive item.id with
      | false => exact itemVerdict_of_inactive hactive
      | true => exact itemVerdict_of_used hactive (hused.2 hspent)
  next hyes =>
    rw [not_or, not_not] at hyes
    rw [itemVerdict_of_fresh ((hrep.active _).2 hyes.1)
      (Bool.eq_false_iff.2 fun h => hyes.2 (hused.1 h)), ← hrep.keys]
    unfold BatchItem.check
    cases hkey : s.circuit item.id with
    | none => exact runVerification_of_circuit_none hkey
    | some vk =>
        show _ = if item.publicInputs.length + 1 ≠ vk.ic.length then some false else _
        split
        next hlen => exact runVerification_of_length_ne hkey hlen
        next hlen =>
          rw [not_not] at hlen
          split
          next π K hπ hK =>
            rw [runVerification_eq_some_iff hkey hlen]
            exact ⟨π, K, hπ, hK, decide_eq_true_iff⟩
          next hnot =>
            rcases hrun : runVerification h s item.id item.proofA item.proofB item.proofC
              item.publicInputs with _ | v
            · rfl
            · obtain ⟨π, K, hπ, hK, -⟩ := (runVerification_eq_some_iff hkey hlen).1 hrun
              exact absurd hK (hnot π K hπ)

/-- Recording a verdict keeps the representation. -/
theorem afterItem (hrep : Represents h items s a) (hmem : item ∈ items) (b : Bool) :
    Represents h items (afterItem h s item b) (a.record item b) where
  admin := by
    simp only [State.admin, afterItem_instanceStorage]
    exact hrep.admin
  pending := by
    simp only [State.pendingAdmin, afterItem_instanceStorage]
    exact hrep.pending
  keys id := by
    rw [afterItem_circuit]
    exact hrep.keys id
  active id := by
    rw [afterItem_isCircuitActive]
    exact hrep.active id
  nullifiers n := by
    rw [afterItem_isNullifierUsed, hrep.nullifiers]
    cases b with
    | false => simp [Abstract.State.record]
    | true =>
        simp only [Abstract.State.record, if_true, Set.mem_insert_iff, exists_eq_or_imp, true_and]
        rw [or_comm, eq_comm]
        rfl
  spent claim hclaim := by
    cases b with
    | false => exact hrep.spent claim hclaim
    | true =>
        rcases Set.mem_insert_iff.1 hclaim with rfl | hclaim
        · exact ⟨item, hmem, rfl⟩
        · exact hrep.spent claim hclaim
  events := by
    rw [afterItem_events, hrep.events]
    simp [Abstract.State.record, itemEvent]

/-- A batch is settled in both with one result, and the final states correspond. -/
theorem verifyItems_eq {batch : List BatchItem} (hfree : h.CollisionFree (messages h items))
    (hmem : ∀ item ∈ batch, item ∈ items) (hrep : Represents h items s a) :
    (verifyItems h batch s = none ∧ Abstract.settle h batch a = none) ∨
      ∃ bs s' a', verifyItems h batch s = some (bs, s') ∧
        Abstract.settle h batch a = some (bs, a') ∧ Represents h items s' a' := by
  induction batch generalizing s a with
  | nil => exact .inr ⟨[], s, a, rfl, rfl, hrep⟩
  | cons item batch ih =>
      have hitem := hmem item List.mem_cons_self
      have hverdict := hrep.itemVerdict_eq hfree hitem
      simp only [verifyItems, Abstract.settle, ← hverdict]
      cases itemVerdict h s item with
      | none => exact .inl ⟨rfl, rfl⟩
      | some b =>
          have hrest := ih (fun e he => hmem e (List.mem_cons_of_mem item he))
            (hrep.afterItem hitem b)
          rcases hrest with ⟨hs, ha⟩ | ⟨bs, s', a', hs, ha, hrep'⟩
          · exact .inl ⟨by simp [hs], by simp [ha]⟩
          · exact .inr ⟨b :: bs, s', a', by simp [hs], by simp [ha], hrep'⟩

theorem registerCircuit (hrep : Represents h items s a) (id : UInt32) (vk : VerifyingKey) :
    Represents h items
      { s with persistent := (s.persistent.set (.circuit id) vk).set (.circuitActive id) true }
      { a with keys := Function.update a.keys id (some vk), active := insert id a.active } :=
  { hrep with
    keys := fun id' => by
      show _ = Function.update a.keys id (some vk) id'
      rcases eq_or_ne id' id with rfl | hid
      · simp [State.circuit]
      · rw [Function.update_of_ne hid, ← hrep.keys]
        simp [State.circuit, hid]
    active := fun id' => by
      rcases eq_or_ne id' id with rfl | hid
      · simp [State.isCircuitActive]
      · rw [Set.mem_insert_iff, or_iff_right hid, ← hrep.active]
        simp [State.isCircuitActive, hid]
    nullifiers := fun n => by
      rw [← hrep.nullifiers]
      simp [State.isNullifierUsed, Store.has] }

theorem removeCircuit (hrep : Represents h items s a) (id : UInt32) :
    Represents h items { s with persistent := s.persistent.set (.circuitActive id) false }
      { a with active := a.active \ {id} } :=
  { hrep with
    keys := fun id' => by
      rw [← hrep.keys]
      simp [State.circuit]
    active := fun id' => by
      rcases eq_or_ne id' id with rfl | hid
      · simp [State.isCircuitActive]
      · rw [Set.mem_sdiff, Set.mem_singleton_iff, and_iff_left hid, ← hrep.active]
        simp [State.isCircuitActive, hid]
    nullifiers := fun n => by
      rw [← hrep.nullifiers]
      simp [State.isNullifierUsed, Store.has] }

/-- An admin call is guarded by the admin's authorisation in both. -/
theorem withAdmin {auth : Address → Bool} {update : State Address → State Address}
    {a' : Abstract.State Address} (hrep : Represents h items s a)
    (hupdate : Represents h items (update s) a') :
    let r := commit (ε := Empty) s ((withAdmin auth s update).map fun s => (.ok .unit, s))
    let r' := Abstract.guarded (auth a.admin) a a'
    r.1 = r'.1 ∧ Represents h items r.2 r'.2 := by
  simp only [Registry.withAdmin, hrep.admin, Abstract.guarded]
  cases auth a.admin with
  | false => exact ⟨rfl, hrep⟩
  | true => exact ⟨rfl, hupdate⟩

end Represents

/-- The submitted items of a transaction are among `items`. -/
def Submits (items : List BatchItem) (tx : Tx Address) : Prop :=
  ∀ item ∈ tx.call.items, item ∈ items

/-- One transaction has one outcome in both, and the final states correspond. -/
theorem exec_represents {items : List BatchItem} {s : State Address} {a : Abstract.State Address}
    {tx : Tx Address} (hfree : h.CollisionFree (messages h items)) (hmem : Submits items tx)
    (hrep : Represents h items s a) :
    (exec h s tx).1 = (Abstract.exec h a tx).1 ∧
      Represents h items (exec h s tx).2 (Abstract.exec h a tx).2 := by
  obtain ⟨auth, call⟩ := tx
  cases call with
  | proposeAdmin new =>
      refine hrep.withAdmin ?_
      exact { hrep with
        admin := by simpa [State.admin] using hrep.admin
        pending := by simp [State.pendingAdmin] }
  | acceptAdmin =>
      have hpending := hrep.pending
      simp only [exec, callBody, acceptAdmin, Abstract.exec]
      rw [← hpending]
      cases s.pendingAdmin with
      | none => exact ⟨rfl, hrep⟩
      | some new =>
          cases hauth : auth new with
          | false => exact ⟨by simp [Abstract.guarded, hauth], by simpa [Abstract.guarded, hauth]⟩
          | true =>
              refine ⟨by simp [Abstract.guarded, hauth], ?_⟩
              simp only [hauth, if_true, Option.map_some, commit_ok, Abstract.guarded]
              exact { hrep with
                admin := by simp [State.admin]
                pending := by simp [State.pendingAdmin] }
  | registerCircuit id vk => exact hrep.withAdmin (hrep.registerCircuit id vk)
  | removeCircuit id => exact hrep.withAdmin (hrep.removeCircuit id)
  | verifyProof item =>
      have hitem := hmem item (by simp [Call.items])
      rw [exec_verifyProof, hrep.itemVerdict_eq hfree hitem]
      simp only [Abstract.exec]
      cases Abstract.verdict h a item with
      | none => exact ⟨rfl, hrep⟩
      | some b => exact ⟨rfl, hrep.afterItem hitem b⟩
  | verifyBatch batch =>
      have hmem : ∀ item ∈ batch, item ∈ items := hmem
      rw [exec_verifyBatch]
      simp only [Abstract.exec]
      rcases hrep.verifyItems_eq hfree hmem with ⟨hs, ha⟩ | ⟨bs, s', a', hs, ha, hrep'⟩
      · rw [hs, ha]
        exact ⟨rfl, hrep⟩
      · rw [hs, ha]
        exact ⟨rfl, hrep'⟩

theorem represents_initial (items : List BatchItem) (admin : Address) :
    Represents h items (construct admin) (Abstract.initial admin) where
  admin := by simp [construct, State.admin, Abstract.initial]
  pending := by simp [construct, State.pendingAdmin, Abstract.initial]
  keys id := rfl
  active id := by simp [construct, State.isCircuitActive, Abstract.initial]
  nullifiers n := by simp [construct, State.isNullifierUsed, Store.has, Abstract.initial]
  spent claim hclaim := hclaim.elim
  events := rfl

/-- On transactions that submit only some given items, without collisions among the messages hashed
    for these, the contract and the abstract registry simulate each other. -/
theorem simulation {items : List BatchItem} (hfree : h.CollisionFree (messages h items)) :
    Simulation (machine h) (Abstract.machine h) (fun _ (tx : Tx Address) => Submits items tx)
      (Represents h items) where
  outcome _ _ _ hmem hrep := (exec_represents hfree hmem hrep).1
  related _ _ _ hmem hrep := (exec_represents hfree hmem hrep).2

/-- The items a list of transactions submits. -/
def itemsOf (txs : List (Tx Address)) : List BatchItem := txs.flatMap fun tx => tx.call.items

theorem submits_itemsOf (txs : List (Tx Address)) : ∀ tx ∈ txs, Submits (itemsOf txs) tx :=
  fun tx htx _ hitem => List.mem_flatMap.2 ⟨tx, htx, hitem⟩

/-- **The registry refines the abstract one.** On every list of transactions whose items' hashed
    messages do not collide, the contract has the outcomes of the abstract registry, transaction
    by transaction, and its final storage and event list represent the abstract state. -/
theorem registry_refines (h : Host) (admin : Address) (txs : List (Tx Address))
    (hfree : h.CollisionFree (messages h (itemsOf txs))) :
    (machine h).outcomes (construct admin) txs
        = (Abstract.machine h).outcomes (Abstract.initial admin) txs ∧
      Represents h (itemsOf txs) ((machine h).run (construct admin) txs)
        ((Abstract.machine h).run (Abstract.initial admin) txs) := by
  have hguard := Machine.guarded_of_forall (m := machine h) (s := construct admin)
    (submits_itemsOf txs)
  exact (simulation hfree).run (represents_initial _ admin) hguard

/-- Two statements, one of them submitted twice. -/
theorem registry_refines_zeroRun :
    (Abstract.machine Host.scalar).outcomes (Abstract.initial ()) (zeroRun [3, 5, 3])
      = [.ok .unit, .ok (.flag true), .ok (.flag true), .ok (.flag false)] :=
  (registry_refines Host.scalar () (zeroRun [3, 5, 3]) (by decide +kernel)).1.symm.trans
    (by decide +kernel)

end ZkStellar.Registry

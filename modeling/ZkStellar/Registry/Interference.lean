import ZkStellar.Lib.Purge
import ZkStellar.Registry.History

set_option autoImplicit false

/-! # Circuits do not interfere

The circuits of the registry share one set of nullifiers. A nullifier hashes the id of its circuit,
so without collisions among the hashed messages an item of one circuit never meets the nullifier of
another's: deleting every call that names one id leaves a run that agrees with the full one on
everything but that id's entries and nullifiers (`Agrees`). -/

namespace ZkStellar.Registry

variable {Address : Type} {h : Host}

/-- The circuit a call names. -/
def Call.circuitId : Call Address → Option UInt32
  | .registerCircuit id _ => some id
  | .removeCircuit id => some id
  | .verifyProof item => some item.id
  | _ => none

/-- The messages a transaction hashes: the inputs of its items, and the nullifier messages of those
    whose circuit is active. -/
def hashed (h : Host) (s : State Address) (tx : Tx Address) : List Bytes :=
  tx.call.items.flatMap fun item =>
    concatBytes item.publicInputs ::
      if s.isCircuitActive item.id then
        [nullifierMessage item.id (computeInputsHash h item.publicInputs)]
      else []

/-- The outcome of a transaction and the events it publishes. -/
def seen (h : Host) (s : State Address) (tx : Tx Address) :
    Outcome Empty Reply × List VerificationResult :=
  ((exec h s tx).1, (exec h s tx).2.events.drop s.events.length)

/-- `n` is not the nullifier of an item of circuit `id` whose nullifier message is among `msgs`. -/
def Foreign (h : Host) (msgs : List Bytes) (id : UInt32) (n : BytesN 32) : Prop :=
  ∀ publicInputs, nullifierMessage id (computeInputsHash h publicInputs) ∈ msgs →
    computeNullifier h id (computeInputsHash h publicInputs) ≠ n

/-- The states of a run that hashes `msgs` and of the same run without the calls that name `id`. -/
structure Agrees (h : Host) (msgs : List Bytes) (id : UInt32) (s t : State Address) : Prop where
  instanceStorage : t.instanceStorage = s.instanceStorage
  circuit : ∀ id', id' ≠ id → t.circuit id' = s.circuit id'
  active : ∀ id', id' ≠ id → t.isCircuitActive id' = s.isCircuitActive id'
  used : ∀ n, Foreign h msgs id n → t.isNullifierUsed n = s.isNullifierUsed n

section Step

variable {msgs : List Bytes} {id : UInt32} {s t : State Address}

theorem foreign_of_ne (hfree : h.CollisionFree msgs) {id' : UInt32} (hne : id' ≠ id)
    {publicInputs : List (BytesN 32)}
    (hmem : nullifierMessage id' (computeInputsHash h publicInputs) ∈ msgs) :
    Foreign h msgs id (computeNullifier h id' (computeInputsHash h publicInputs)) := by
  intro xs hxs heq
  have hmessage := hfree _ hxs _ hmem heq
  exact hne (nullifierMessage_inj hmessage).1.symm

theorem itemVerdict_agrees (hfree : h.CollisionFree msgs) (hst : Agrees h msgs id s t)
    {item : BatchItem} (hne : item.id ≠ id)
    (hmem : s.isCircuitActive item.id = true →
      nullifierMessage item.id (computeInputsHash h item.publicInputs) ∈ msgs) :
    itemVerdict h t item = itemVerdict h s item := by
  unfold itemVerdict
  rw [hst.active _ hne]
  cases hactive : s.isCircuitActive item.id with
  | false => rfl
  | true =>
      have hused : t.isNullifierUsed (item.nullifier h) = s.isNullifierUsed (item.nullifier h) :=
        hst.used _ (foreign_of_ne hfree hne (hmem hactive))
      have hcheck : item.check h t = item.check h s := by
        simp only [BatchItem.check, runVerification, hst.circuit _ hne]
      rw [hused, hcheck]

/-- The same update of storage in both runs. -/
theorem Agrees.afterItem (hst : Agrees h msgs id s t) (item : BatchItem) (b : Bool) :
    Agrees h msgs id (afterItem h s item b) (afterItem h t item b) where
  instanceStorage := by simpa using hst.instanceStorage
  circuit id' hid' := by simpa using hst.circuit id' hid'
  active id' hid' := by simpa using hst.active id' hid'
  used n hn := by
    rw [Bool.eq_iff_iff, afterItem_isNullifierUsed, afterItem_isNullifierUsed, hst.used n hn]

/-- An item of the circuit itself, burned in the full run only. -/
theorem Agrees.afterItem_left (hst : Agrees h msgs id s t) {item : BatchItem} (hid : item.id = id)
    {b : Bool} (hmem : b = true →
      nullifierMessage id (computeInputsHash h item.publicInputs) ∈ msgs) :
    Agrees h msgs id (Registry.afterItem h s item b) t where
  instanceStorage := by simpa using hst.instanceStorage
  circuit id' hid' := by simpa using hst.circuit id' hid'
  active id' hid' := by simpa using hst.active id' hid'
  used n hn := by
    have hne : b = true → n ≠ item.nullifier h := by
      rintro hb rfl
      exact hn item.publicInputs (hmem hb) (by rw [BatchItem.nullifier, hid])
    rw [hst.used n hn, Bool.eq_iff_iff, afterItem_isNullifierUsed]
    constructor
    · exact .inl
    · rintro (hused | ⟨hb, heq⟩)
      · exact hused
      · exact absurd heq (hne hb)

/-- The same entry, no nullifier, set in both runs. -/
theorem Agrees.set (hst : Agrees h msgs id s t) (k : DataKey) (v : k.Value Address)
    (hk : ∀ n, k ≠ .nullifier n) :
    Agrees h msgs id { s with persistent := s.persistent.set k v }
      { t with persistent := t.persistent.set k v } where
  instanceStorage := hst.instanceStorage
  circuit id' hid' := by
    by_cases heq : .circuit id' = k
    · subst heq
      simp [State.circuit]
    · simpa [State.circuit, heq] using hst.circuit id' hid'
  active id' hid' := by
    by_cases heq : .circuitActive id' = k
    · subst heq
      simp [State.isCircuitActive]
    · simpa [State.isCircuitActive, heq] using hst.active id' hid'
  used n hn := by
    simpa [State.isNullifierUsed, Store.has, (hk n).symm] using hst.used n hn

/-- An entry of the circuit itself, set in the full run only. -/
theorem Agrees.set_left (hst : Agrees h msgs id s t) (k : DataKey) (v : k.Value Address)
    (hk : k = .circuit id ∨ k = .circuitActive id) :
    Agrees h msgs id { s with persistent := s.persistent.set k v } t := by
  have hcircuit : ∀ id', id' ≠ id → .circuit id' ≠ k := by
    rintro id' hid' rfl
    simp [hid'] at hk
  have hactive : ∀ id', id' ≠ id → .circuitActive id' ≠ k := by
    rintro id' hid' rfl
    simp [hid'] at hk
  have hused : ∀ n, .nullifier n ≠ k := by
    rintro n rfl
    simp at hk
  refine ⟨hst.instanceStorage, fun id' hid' => ?_, fun id' hid' => ?_, fun n hn => ?_⟩
  · simpa [State.circuit, hcircuit id' hid'] using hst.circuit id' hid'
  · simpa [State.isCircuitActive, hactive id' hid'] using hst.active id' hid'
  · simpa [State.isNullifierUsed, Store.has, hused n] using hst.used n hn

/-- A guarded update that publishes nothing looks the same in both runs. -/
theorem withAdmin_kept (hst : Agrees h msgs id s t) (auth : Address → Bool)
    {update : State Address → State Address} (hupdate : Agrees h msgs id (update s) (update t))
    (hevents : ∀ s, (update s).events = s.events) :
    let r : State Address → Option (Except Empty Reply × State Address) := fun s =>
      (withAdmin auth s update).map fun s => (.ok .unit, s)
    (commit s (r s)).1 = (commit t (r t)).1 ∧ (commit s (r s)).2.events = s.events ∧
      (commit t (r t)).2.events = t.events ∧
      Agrees h msgs id (commit s (r s)).2 (commit t (r t)).2 := by
  have hadmin : t.admin = s.admin := by rw [State.admin, hst.instanceStorage, State.admin]
  simp only [withAdmin, hadmin]
  cases s.admin with
  | none => exact ⟨rfl, rfl, rfl, hst⟩
  | some admin =>
      cases hauth : auth admin with
      | false => simpa [hauth] using hst
      | true => simpa [hauth, hevents] using hupdate

theorem withAdmin_dropped (hst : Agrees h msgs id s t) (auth : Address → Bool)
    {update : State Address → State Address} (hupdate : Agrees h msgs id (update s) t) :
    let r : Option (Except Empty Reply × State Address) :=
      (withAdmin auth s update).map fun s => (.ok .unit, s)
    Agrees h msgs id (commit s r).2 t := by
  intro r
  rcases withAdmin_cases auth s update with ⟨hs', -⟩ | ⟨hs', -⟩
  · exact hs'.symm ▸ hst
  · exact hs'.symm ▸ hupdate

end Step

/-! ## Whole runs -/

/-- What is known of a step: it names a circuit, and what it hashes is among `msgs`. -/
def Named (h : Host) (msgs : List Bytes) (s : State Address) (tx : Tx Address) : Prop :=
  tx.call.circuitId ≠ none ∧ ∀ m ∈ hashed h s tx, m ∈ msgs

/-- The transactions that stay when every call that names `id` is deleted. -/
def Tx.isKept (id : UInt32) (tx : Tx Address) : Bool := decide (tx.call.circuitId ≠ some id)

theorem seen_eq {s t : State Address} {tx : Tx Address} (new : List VerificationResult)
    (hout : (exec h s tx).1 = (exec h t tx).1) (hs : (exec h s tx).2.events = s.events ++ new)
    (ht : (exec h t tx).2.events = t.events ++ new) : seen h s tx = seen h t tx := by
  simp [seen, hout, hs, ht]

/-- A step that is a guarded update publishing nothing is seen alike in both runs. -/
theorem guarded_kept {msgs : List Bytes} {id : UInt32} {s t : State Address} {tx : Tx Address}
    (hst : Agrees h msgs id s t) (auth : Address → Bool)
    (update : State Address → State Address) (hupdate : Agrees h msgs id (update s) (update t))
    (hevents : ∀ s, (update s).events = s.events)
    (hexec : ∀ s, exec h s tx = commit s ((withAdmin auth s update).map fun s => (.ok .unit, s))) :
    seen h s tx = seen h t tx ∧ Agrees h msgs id (exec h s tx).2 (exec h t tx).2 := by
  obtain ⟨hout, hs, ht, hnext⟩ := withAdmin_kept hst auth hupdate hevents
  refine ⟨seen_eq [] ?_ ?_ ?_, ?_⟩ <;> simp only [hexec, List.append_nil]
  · exact hout
  · exact hs
  · exact ht
  · exact hnext

theorem unwinding {msgs : List Bytes} (hfree : h.CollisionFree msgs) (id : UInt32) :
    (@machine Address h).Unwinding (seen h) (Tx.isKept id) (Named h msgs)
      (Agrees h msgs id) where
  kept := by
    rintro s t ⟨auth, call⟩ ⟨hnamed, hmem⟩ hst hkept
    have hne : call.circuitId ≠ some id := of_decide_eq_true hkept
    cases call with
    -- a kept call writes the same two entries on both sides, so they stay equal
    | registerCircuit id' vk =>
        have hset := (hst.set (.circuit id') vk (by simp)).set (.circuitActive id') true (by simp)
        exact guarded_kept hst auth (fun s => { s with
          persistent := (s.persistent.set (.circuit id') vk).set (.circuitActive id') true })
          hset (fun _ => rfl) fun _ => rfl
    | removeCircuit id' =>
        have hset := hst.set (.circuitActive id') false (by simp)
        exact guarded_kept hst auth (fun s => { s with
          persistent := s.persistent.set (.circuitActive id') false })
          hset (fun _ => rfl) fun _ => rfl
    | verifyProof item =>
        have hid : item.id ≠ id := fun heq => hne (congrArg some heq)
        have hverdict := itemVerdict_agrees hfree hst hid fun hactive =>
          hmem _ (by simp [hashed, Call.items, hactive])
        cases hv : itemVerdict h s item with
        | none =>
            refine ⟨seen_eq [] ?_ ?_ ?_, ?_⟩ <;>
              simp [machine, hverdict, hv, hst]
        | some b =>
            refine ⟨seen_eq [⟨b, computeInputsHash h item.publicInputs⟩] ?_ ?_ ?_, ?_⟩ <;>
              simp [machine, hverdict, hv, hst.afterItem]
    | _ => exact absurd rfl hnamed
  dropped := by
    rintro s t ⟨auth, call⟩ ⟨hnamed, hmem⟩ hst hdropped
    have hid : call.circuitId = some id := not_not.1 (of_decide_eq_false hdropped)
    cases call with
    | registerCircuit id' vk =>
        cases hid
        -- a dropped call writes only entries of `id`, which the agreement leaves out
        have hset := (hst.set_left (.circuit id) vk (.inl rfl)).set_left (.circuitActive id) true
          (.inr rfl)
        exact withAdmin_dropped hst auth hset
    | removeCircuit id' =>
        cases hid
        exact withAdmin_dropped hst auth (hst.set_left (.circuitActive id) false (.inr rfl))
    | verifyProof item =>
        cases hid
        show Agrees h msgs item.id (exec h s ⟨auth, .verifyProof item⟩).2 t
        rw [exec_verifyProof]
        cases hv : itemVerdict h s item with
        | none => exact hst
        | some b =>
            refine hst.afterItem_left rfl ?_
            rintro rfl
            have hactive := (check_of_itemVerdict_true hv).1
            exact hmem _ (by simp [hashed, Call.items, hactive])
    | _ => exact absurd rfl hnamed

/-- **Circuits do not interfere.** In a run of calls that each name a circuit, without collisions
    among the messages it hashes, deleting the calls that name `X` leaves the outcome and the events
    of every other call as they were, and the entries of every other circuit. -/
theorem circuits_independent (h : Host) (admin : Address) (txs : List (Tx Address)) (X : UInt32)
    (hnamed : ∀ tx ∈ txs, tx.call.circuitId ≠ none)
    (hfree : h.CollisionFree (((machine h).trace (construct admin) txs).flatMap fun e =>
      hashed h e.pre e.input)) :
    let full := (machine h).run (construct admin) txs
    let pruned := (machine h).run (construct admin) (txs.filter (Tx.isKept X))
    (machine h).views (seen h) (construct admin) (txs.filter (Tx.isKept X))
        = (machine h).keptViews (seen h) (Tx.isKept X) (construct admin) txs ∧
      ∀ Y, Y ≠ X → pruned.isCircuitActive Y = full.isCircuitActive Y ∧
        pruned.hasCircuit Y = full.hasCircuit Y ∧ pruned.circuit Y = full.circuit Y := by
  intro full pruned
  have hgood : ∀ e ∈ (machine h).trace (construct admin) txs, Named h
      (((machine h).trace (construct admin) txs).flatMap fun e => hashed h e.pre e.input)
      e.pre e.input := by
    intro e he
    obtain ⟨pre, post, hsplit, -⟩ := (machine h).exists_prefix_of_mem_trace he
    refine ⟨hnamed _ (hsplit ▸ by simp), fun m hm => List.mem_flatMap.2 ⟨e, he, hm⟩⟩
  obtain ⟨hviews, hend⟩ := (unwinding hfree X).purge
    ⟨rfl, fun _ _ => rfl, fun _ _ => rfl, fun _ _ => rfl⟩ hgood
  refine ⟨hviews, fun Y hY => ⟨hend.active Y hY, ?_, hend.circuit Y hY⟩⟩
  exact congrArg Option.isSome (hend.circuit Y hY)

/-- The same inputs proved to circuits 0 and 1: the proof to circuit 0 deleted, the one to circuit 1
    stays accepted. -/
theorem circuits_independent_zero :
    let register (id : UInt32) := signed (.registerCircuit id (.zero 1))
    let prove (id : UInt32) := signed (.verifyProof { zeroItem 7 with id := id })
    (machine Host.scalar).views (seen Host.scalar) (construct ()) [register 1, prove 1]
      = (machine Host.scalar).keptViews (seen Host.scalar) (Tx.isKept 0) (construct ())
          [register 0, register 1, prove 0, prove 1] := by
  intro register prove
  exact (circuits_independent Host.scalar () [register 0, register 1, prove 0, prove 1] 0
    (by decide) (by decide +kernel)).1

end ZkStellar.Registry

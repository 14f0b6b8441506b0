import ZkStellar.Registry.Verification

set_option autoImplicit false

/-! # One item, and a batch of them

`verify_proof` on an item is a verdict that only reads storage, followed by an update that burns at
most the item's nullifier and publishes one event (`verifyItem_eq`). The loop of `verify_batch` is
`verify_proof` on each item in turn (`verifyBatchLoop_eq`), from which the batch results follow: a
batch is the sequence of its items, and it returns exactly when no item that gets as far as the
parsers carries unparsable bytes. -/

namespace ZkStellar.Registry

variable {Address : Type} {h : Host}

/-! ## One item -/

/-- `verify_proof` with its arguments packed. -/
def verifyItem (h : Host) (item : BatchItem) (s : State Address) :
    Option (Bool × State Address) :=
  verifyProof h item.id item.proofA item.proofB item.proofC item.publicInputs s

/-- The nullifier of an item's id and public inputs. -/
def BatchItem.nullifier (h : Host) (item : BatchItem) : BytesN 32 :=
  computeNullifier h item.id (computeInputsHash h item.publicInputs)

/-- `run_verification` on an item. -/
def BatchItem.check (h : Host) (s : State Address) (item : BatchItem) : Option Bool :=
  runVerification h s item.id item.proofA item.proofB item.proofC item.publicInputs

/-- The flag `verify_proof` returns for an item. -/
def itemVerdict (h : Host) (s : State Address) (item : BatchItem) : Option Bool :=
  if !s.isCircuitActive item.id then some false
  else if s.isNullifierUsed (item.nullifier h) then some false
  else item.check h s

/-- The state after `verify_proof` returned `success` for an item. -/
def afterItem (h : Host) (s : State Address) (item : BatchItem) (success : Bool) : State Address :=
  (if success then s.burn (item.nullifier h) else s).publish
    ⟨success, computeInputsHash h item.publicInputs⟩

section Verdict

variable {s : State Address} {item : BatchItem}

theorem itemVerdict_of_inactive (hactive : s.isCircuitActive item.id = false) :
    itemVerdict h s item = some false := by
  simp [itemVerdict, hactive]

theorem itemVerdict_of_used (hactive : s.isCircuitActive item.id = true)
    (hused : s.isNullifierUsed (item.nullifier h) = true) :
    itemVerdict h s item = some false := by
  simp [itemVerdict, hactive, hused]

theorem itemVerdict_of_fresh (hactive : s.isCircuitActive item.id = true)
    (hused : s.isNullifierUsed (item.nullifier h) = false) :
    itemVerdict h s item = item.check h s := by
  simp [itemVerdict, hactive, hused]

end Verdict

/-- `verify_proof` is its verdict followed by its update. -/
theorem verifyItem_eq (item : BatchItem) (s : State Address) :
    verifyItem h item s = (itemVerdict h s item).map fun b => (b, afterItem h s item b) := by
  unfold verifyItem verifyProof
  cases hactive : s.isCircuitActive item.id with
  | false => rw [itemVerdict_of_inactive hactive]; rfl
  | true =>
      cases hused : s.isNullifierUsed (item.nullifier h) with
      | true =>
          rw [itemVerdict_of_used hactive hused]
          simp only [Bool.not_true, Bool.false_eq_true, if_false]
          exact if_pos hused
      | false =>
          rw [itemVerdict_of_fresh hactive hused]
          simp only [Bool.not_true, Bool.false_eq_true, if_false]
          refine (if_neg (Bool.eq_false_iff.1 hused)).trans ?_
          simp only [BatchItem.check]
          cases runVerification h s item.id item.proofA item.proofB item.proofC
            item.publicInputs <;> rfl

/-! ## What the update leaves alone -/

/-- The two storage areas, without the events. -/
def State.storage (s : State Address) :
    Store (DataKey.Value Address) × Store (DataKey.Value Address) :=
  (s.instanceStorage, s.persistent)

section Frame

variable {s s' : State Address} {item : BatchItem} {b : Bool} {id : UInt32} {n : BytesN 32}

@[simp] theorem afterItem_events : (afterItem h s item b).events
    = s.events ++ [⟨b, computeInputsHash h item.publicInputs⟩] := by
  cases b <;> rfl

@[simp] theorem afterItem_instanceStorage :
    (afterItem h s item b).instanceStorage = s.instanceStorage := by
  cases b <;> rfl

theorem afterItem_get_of_ne {k : DataKey} (hk : k ≠ .nullifier (item.nullifier h)) :
    (afterItem h s item b).persistent.get k = s.persistent.get k := by
  cases b
  · rfl
  · exact Store.get_set_of_ne _ _ hk

@[simp] theorem afterItem_circuit : (afterItem h s item b).circuit id = s.circuit id :=
  afterItem_get_of_ne (by simp)

@[simp] theorem afterItem_isCircuitActive :
    (afterItem h s item b).isCircuitActive id = s.isCircuitActive id := by
  rw [State.isCircuitActive, afterItem_get_of_ne (by simp)]
  rfl

theorem afterItem_isNullifierUsed : (afterItem h s item b).isNullifierUsed n = true ↔
    s.isNullifierUsed n = true ∨ b = true ∧ n = item.nullifier h := by
  by_cases hn : n = item.nullifier h
  · subst hn
    cases b
    · simp [State.isNullifierUsed, Store.has, afterItem, State.publish]
    · simp [State.isNullifierUsed, Store.has, afterItem, State.publish, State.burn]
  · rw [State.isNullifierUsed, Store.has, afterItem_get_of_ne (by simpa using hn)]
    simp [State.isNullifierUsed, Store.has, hn]

theorem afterItem_storage_false : (afterItem h s item false).storage = s.storage := rfl

theorem storage_eq_iff : s.storage = s'.storage ↔
    s.instanceStorage = s'.instanceStorage ∧ s.persistent = s'.persistent :=
  Prod.mk_inj

theorem isCircuitActive_congr (hs : s.storage = s'.storage) :
    s.isCircuitActive id = s'.isCircuitActive id := by
  rw [State.isCircuitActive, State.isCircuitActive, (storage_eq_iff.1 hs).2]

theorem isNullifierUsed_congr (hs : s.storage = s'.storage) :
    s.isNullifierUsed n = s'.isNullifierUsed n := by
  rw [State.isNullifierUsed, State.isNullifierUsed, (storage_eq_iff.1 hs).2]

theorem circuit_congr (hs : s.storage = s'.storage) : s.circuit id = s'.circuit id := by
  rw [State.circuit, State.circuit, (storage_eq_iff.1 hs).2]

/-- `run_verification` reads nothing but the key under its id. -/
theorem BatchItem.check_congr (hs : s.circuit item.id = s'.circuit item.id) :
    item.check h s = item.check h s' := by
  simp only [BatchItem.check, runVerification, hs]

/-- The verdict only depends on storage. -/
theorem itemVerdict_congr (hs : s.storage = s'.storage) :
    itemVerdict h s item = itemVerdict h s' item := by
  simp only [itemVerdict, isCircuitActive_congr hs, isNullifierUsed_congr hs,
    BatchItem.check_congr (circuit_congr hs)]

theorem afterItem_storage_congr (hs : s.storage = s'.storage) :
    (afterItem h s item b).storage = (afterItem h s' item b).storage := by
  obtain ⟨hi, hp⟩ := storage_eq_iff.1 hs
  cases b
  · exact hs
  · exact storage_eq_iff.2 ⟨hi, by simp [afterItem, State.burn, State.publish, hp]⟩

end Frame

/-! ## A batch -/

/-- `verify_proof` on each item in turn. -/
def verifyItems (h : Host) : List BatchItem → State Address → Option (List Bool × State Address)
  | [], s => some ([], s)
  | item :: batch, s =>
      match itemVerdict h s item with
      | none => none
      | some b => (verifyItems h batch (afterItem h s item b)).map fun (bs, s) => (b :: bs, s)

/-- A run through a non-empty batch is a verdict on its first item and a run through the rest. -/
theorem verifyItems_cons_eq_some {item : BatchItem} {batch : List BatchItem} {s s' : State Address}
    {bs : List Bool} :
    verifyItems h (item :: batch) s = some (bs, s') ↔
      ∃ b bs', itemVerdict h s item = some b ∧
        verifyItems h batch (afterItem h s item b) = some (bs', s') ∧ bs = b :: bs' := by
  rw [verifyItems]
  cases itemVerdict h s item with
  | none => simp
  | some b => simp [eq_comm]

/-- The inlined body of the batch loop does what `verify_proof` does. -/
theorem verifyBatchLoop_cons (item : BatchItem) (batch : List BatchItem) (results : List Bool)
    (s : State Address) : verifyBatchLoop h (item :: batch) results s
      = match itemVerdict h s item with
        | none => none
        | some b => verifyBatchLoop h batch (results ++ [b]) (afterItem h s item b) := by
  rw [verifyBatchLoop]
  cases hactive : s.isCircuitActive item.id with
  | false => rw [itemVerdict_of_inactive hactive]; rfl
  | true =>
      cases hused : s.isNullifierUsed (item.nullifier h) with
      | true =>
          rw [itemVerdict_of_used hactive hused]
          simp only [Bool.not_true, Bool.false_eq_true, if_false]
          exact if_pos hused
      | false =>
          rw [itemVerdict_of_fresh hactive hused]
          simp only [Bool.not_true, Bool.false_eq_true, if_false]
          refine (if_neg (Bool.eq_false_iff.1 hused)).trans ?_
          simp only [BatchItem.check]
          cases runVerification h s item.id item.proofA item.proofB item.proofC
            item.publicInputs <;> rfl

theorem verifyBatchLoop_eq (batch : List BatchItem) (results : List Bool) (s : State Address) :
    verifyBatchLoop h batch results s
      = (verifyItems h batch s).map fun (bs, s) => (results ++ bs, s) := by
  induction batch generalizing results s with
  | nil => simp [verifyBatchLoop, verifyItems]
  | cons item batch ih =>
      rw [verifyBatchLoop_cons, verifyItems]
      cases itemVerdict h s item with
      | none => rfl
      | some b => simp [ih, Function.comp_def]

theorem verifyBatch_eq (batch : List BatchItem) (s : State Address) :
    verifyBatch h batch s = verifyItems h batch s := by
  rw [verifyBatch, verifyBatchLoop_eq]
  simp

@[simp] theorem exec_verifyProof (auth : Address → Bool) (item : BatchItem) (s : State Address) :
    exec h s ⟨auth, .verifyProof item⟩
      = match itemVerdict h s item with
        | none => (.trap, s)
        | some b => (.ok (.flag b), afterItem h s item b) := by
  have hitem := verifyItem_eq (h := h) item s
  rw [verifyItem] at hitem
  simp only [exec, callBody, hitem]
  cases itemVerdict h s item <;> rfl

@[simp] theorem exec_verifyBatch (auth : Address → Bool) (batch : List BatchItem)
    (s : State Address) :
    exec h s ⟨auth, .verifyBatch batch⟩
      = match verifyItems h batch s with
        | none => (.trap, s)
        | some (bs, s') => (.ok (.flags bs), s') := by
  simp only [exec, callBody, verifyBatch_eq]
  rcases verifyItems h batch s with _ | ⟨bs, s'⟩ <;> rfl

/-- The transactions that submit a batch's items one by one. -/
def submitEach (auth : Address → Bool) (batch : List BatchItem) : List (Tx Address) :=
  batch.map fun item => ⟨auth, .verifyProof item⟩

theorem verifyItems_eq_some_of_no_trap (auth : Address → Bool) (batch : List BatchItem)
    (s : State Address) (hno : .trap ∉ (machine h).outcomes s (submitEach auth batch)) :
    ∃ bs, (machine h).outcomes s (submitEach auth batch) = bs.map (fun b => .ok (.flag b)) ∧
      verifyItems h batch s = some (bs, (machine h).run s (submitEach auth batch)) := by
  induction batch generalizing s with
  | nil => exact ⟨[], rfl, rfl⟩
  | cons item batch ih =>
      simp only [submitEach, List.map_cons, Machine.outcomes, Machine.run, machine,
        exec_verifyProof] at hno ih ⊢
      cases hv : itemVerdict h s item with
      | none => simp [hv] at hno
      | some b =>
          simp only [hv, List.mem_cons, reduceCtorEq, false_or] at hno
          obtain ⟨bs, hout, hrun⟩ := ih (afterItem h s item b) hno
          exact ⟨b :: bs, by simp [hout], by simp [verifyItems, hv, hrun]⟩

theorem verifyItems_eq_none_of_trap (auth : Address → Bool) (batch : List BatchItem)
    (s : State Address) (htrap : .trap ∈ (machine h).outcomes s (submitEach auth batch)) :
    verifyItems h batch s = none := by
  induction batch generalizing s with
  | nil => simp [submitEach, Machine.outcomes] at htrap
  | cons item batch ih =>
      simp only [submitEach, List.map_cons, Machine.outcomes, machine, exec_verifyProof,
        List.mem_cons] at htrap ih
      cases hv : itemVerdict h s item with
      | none => simp [verifyItems, hv]
      | some b =>
          simp only [hv, reduceCtorEq, false_or] at htrap
          simp [verifyItems, hv, ih (afterItem h s item b) htrap]

/-- **A batch is the sequence of its items.** If no item traps when the items are submitted one
    after another, `verify_batch` returns their flags and leaves the same storage and events; if one
    does, `verify_batch` traps and changes nothing. -/
theorem verifyBatch_eq_sequence (h : Host) (auth : Address → Bool) (s : State Address)
    (batch : List BatchItem) :
    (.trap ∉ (machine h).outcomes s (submitEach auth batch) →
      ∃ results, (machine h).outcomes s (submitEach auth batch)
          = results.map (fun b => .ok (.flag b)) ∧
        exec h s ⟨auth, .verifyBatch batch⟩
          = (.ok (.flags results), (machine h).run s (submitEach auth batch))) ∧
    (.trap ∈ (machine h).outcomes s (submitEach auth batch) →
      exec h s ⟨auth, .verifyBatch batch⟩ = (.trap, s)) := by
  refine ⟨fun hno => ?_, fun htrap => ?_⟩
  · obtain ⟨bs, hout, hrun⟩ := verifyItems_eq_some_of_no_trap auth batch s hno
    exact ⟨bs, hout, by rw [exec_verifyBatch, hrun]⟩
  · rw [exec_verifyBatch, verifyItems_eq_none_of_trap auth batch s htrap]

/-- With the all-zero key: a batch that holds an item twice, and one with an unparsable item. -/
theorem verifyBatch_eq_sequence_zeroRun :
    let s := (machine Host.scalar).run (construct ()) (zeroRun [])
    let everyone : Unit → Bool := fun _ => true
    (∃ results, (machine Host.scalar).outcomes s (submitEach everyone [zeroItem 0, zeroItem 0])
        = results.map (fun b => .ok (.flag b)) ∧
      exec Host.scalar s ⟨everyone, .verifyBatch [zeroItem 0, zeroItem 0]⟩
        = (.ok (.flags results),
          (machine Host.scalar).run s (submitEach everyone [zeroItem 0, zeroItem 0]))) ∧
    exec Host.scalar s ⟨everyone, .verifyBatch [zeroItem 0, truncatedItem 1]⟩ = (.trap, s) :=
  ⟨(verifyBatch_eq_sequence _ _ _ _).1 (by decide +kernel),
    (verifyBatch_eq_sequence _ _ _ _).2 (by decide +kernel)⟩

end ZkStellar.Registry

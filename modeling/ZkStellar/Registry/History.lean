import ZkStellar.Registry.Independence

set_option autoImplicit false

/-! # What a run of the registry has accepted

The stored nullifiers are exactly the nullifiers of the items some call of the run answered with
`true` (`nullifiersExact_run`). One transaction either runs its items through verification
or leaves the nullifiers alone (`exec_cases`), verification adds one new nullifier for each `true`
(`nullifiers_of_verifyItems`), and the run follows by induction. When SHA-256 separates the hashed
messages, a nullifier determines circuit id and input bytes, so the replay check turns away exactly
what was accepted before (`nullifiers_exact`). -/

namespace ZkStellar.Registry

variable {Address : Type} {h : Host}

/-! ## Items and answers -/

/-- The items a call submits for verification, in order. -/
def Call.items : Call Address → List BatchItem
  | .verifyProof item => [item]
  | .verifyBatch batch => batch
  | _ => []

/-- The flags a call answers its items with. -/
def answers : Outcome Empty Reply → List Bool
  | .ok (.flag b) => [b]
  | .ok (.flags bs) => bs
  | _ => []

/-- A step of the registry, as a trace records it. -/
abbrev Step (Address : Type) := Entry (State Address) (Tx Address) (Outcome Empty Reply)

/-- The items a step accepted. -/
def acceptedBy (e : Step Address) : List BatchItem :=
  answeredTrue e.input.call.items (answers e.outcome)

/-- The items a trace accepted, in order. -/
def accepted (tr : List (Step Address)) : List BatchItem := tr.flatMap acceptedBy

/-- The items a trace submitted, in order. -/
def submitted (tr : List (Step Address)) : List BatchItem := tr.flatMap fun e => e.input.call.items

@[simp] theorem accepted_concat (tr : List (Step Address)) (e : Step Address) :
    accepted (tr ++ [e]) = accepted tr ++ acceptedBy e := by
  simp [accepted]

/-! ## One transaction -/

/-- After a batch the stored nullifiers are the old ones and those of the items answered `true`,
    each of which is new. -/
theorem nullifiers_of_verifyItems {batch : List BatchItem} {s s' : State Address} {bs : List Bool}
    (hrun : verifyItems h batch s = some (bs, s')) :
    (∀ n, s'.isNullifierUsed n = true ↔ s.isNullifierUsed n = true ∨
      n ∈ (answeredTrue batch bs).map (BatchItem.nullifier h)) ∧
    ((answeredTrue batch bs).map (BatchItem.nullifier h)).Nodup ∧
    ∀ item ∈ answeredTrue batch bs, s.isNullifierUsed (item.nullifier h) = false := by
  induction batch generalizing s bs with
  | nil =>
      simp only [verifyItems] at hrun
      cases hrun
      simp
  | cons item batch ih =>
      obtain ⟨b, bs', hv, hrest, rfl⟩ := verifyItems_cons_eq_some.1 hrun
      obtain ⟨hused, hnodup, hfresh⟩ := ih hrest
      cases b with
      | false =>
          refine ⟨fun n => ?_, by simpa using hnodup, ?_⟩
          · rw [hused, afterItem_isNullifierUsed]
            simp
          · intro e he
            have hnot := hfresh e (by simpa using he)
            rwa [Bool.eq_false_iff, ne_eq, afterItem_isNullifierUsed, not_or, ← ne_eq,
              ← Bool.eq_false_iff, and_iff_left (by simp)] at hnot
      | true =>
          obtain ⟨-, hitem, -⟩ := check_of_itemVerdict_true hv
          -- the later nullifiers are fresh after `item` was burned
          have hlater : ∀ e ∈ answeredTrue batch bs',
              s.isNullifierUsed (e.nullifier h) = false ∧
                e.nullifier h ≠ item.nullifier h := by
            intro e he
            have hnot := hfresh e he
            rw [Bool.eq_false_iff, ne_eq, afterItem_isNullifierUsed, not_or, ← ne_eq,
              ← Bool.eq_false_iff] at hnot
            exact ⟨hnot.1, fun hn => hnot.2 ⟨rfl, hn⟩⟩
          refine ⟨fun n => ?_, ?_, ?_⟩
          · rw [hused, afterItem_isNullifierUsed]
            simp [or_assoc]
          · simp only [answeredTrue_cons, if_true, List.map_cons, List.nodup_cons]
            refine ⟨fun hmem => ?_, hnodup⟩
            obtain ⟨e, he, hn⟩ := List.mem_map.1 hmem
            exact (hlater e he).2 hn
          · intro e he
            simp only [answeredTrue_cons, if_true, List.mem_cons] at he
            rcases he with rfl | he
            · exact hitem
            · exact (hlater e he).1

/-- An admin call does its update when the admin authorised it, and nothing otherwise. -/
theorem withAdmin_cases (auth : Address → Bool) (s : State Address)
    (update : State Address → State Address) :
    let r : Option (Except Empty Reply × State Address) :=
      (withAdmin auth s update).map fun s => (.ok .unit, s)
    ((commit s r).2 = s ∧ ∀ a, s.admin = some a → auth a = false) ∨
      (commit s r).2 = update s ∧ ∃ a, s.admin = some a ∧ auth a = true := by
  unfold withAdmin
  cases s.admin with
  | none => exact .inl ⟨rfl, by simp⟩
  | some a =>
      cases hauth : auth a with
      | false => exact .inl ⟨by simp [hauth], by simp [hauth]⟩
      | true => exact .inr ⟨by simp [hauth], a, rfl, hauth⟩

/-- An admin call that updates no nullifier answers no item and leaves the nullifiers alone. -/
theorem answers_of_withAdmin {auth : Address → Bool} {s : State Address}
    {update : State Address → State Address}
    (hupdate : ∀ n, (update s).isNullifierUsed n = s.isNullifierUsed n) :
    let r : Option (Except Empty Reply × State Address) :=
      (withAdmin auth s update).map fun s => (.ok .unit, s)
    answers (commit s r).1 = [] ∧ ∀ n, (commit s r).2.isNullifierUsed n = s.isNullifierUsed n := by
  unfold withAdmin
  split
  · exact ⟨rfl, fun n => rfl⟩
  · split
    · exact ⟨rfl, hupdate⟩
    · exact ⟨rfl, fun n => rfl⟩

/-- What a transaction can do: answer the items it submits by running them through verification, or
    answer nothing and leave the nullifiers alone. -/
theorem exec_cases (s : State Address) (tx : Tx Address) :
    verifyItems h tx.call.items s = some (answers (exec h s tx).1, (exec h s tx).2) ∨
    answers (exec h s tx).1 = [] ∧
      ∀ n, (exec h s tx).2.isNullifierUsed n = s.isNullifierUsed n := by
  obtain ⟨auth, call⟩ := tx
  cases call with
  | verifyProof item =>
      rw [exec_verifyProof]
      cases hv : itemVerdict h s item with
      | none => exact .inr ⟨rfl, fun n => rfl⟩
      | some b => exact .inl (by simp [Call.items, verifyItems, hv, answers])
  | verifyBatch batch =>
      rw [exec_verifyBatch]
      cases hrun : verifyItems h batch s with
      | none => exact .inr ⟨rfl, fun n => rfl⟩
      | some r => exact .inl hrun
  | proposeAdmin a => exact .inr (answers_of_withAdmin fun n => rfl)
  | acceptAdmin =>
      refine .inr ?_
      simp only [exec, callBody, acceptAdmin]
      cases s.pendingAdmin with
      | none => exact ⟨rfl, fun n => rfl⟩
      | some pending =>
          cases hauth : auth pending <;>
            simp [answers, hauth, State.isNullifierUsed, Store.has]
  | registerCircuit id vk =>
      refine .inr (answers_of_withAdmin fun n => ?_)
      simp [State.isNullifierUsed, Store.has]
  | removeCircuit id =>
      refine .inr (answers_of_withAdmin fun n => ?_)
      simp [State.isNullifierUsed, Store.has]

/-- The step of the machine from `s`, as a trace records it. -/
def stepAt (h : Host) (s : State Address) (tx : Tx Address) : Step Address :=
  ⟨s, tx, (exec h s tx).1⟩

/-- One transaction adds to the stored nullifiers those of the items it accepts, each of them new
    and no two of them the same, and nothing else. -/
theorem nullifiers_of_exec (s : State Address) (tx : Tx Address) :
    (∀ n, (exec h s tx).2.isNullifierUsed n = true ↔ s.isNullifierUsed n = true ∨
      n ∈ (acceptedBy (stepAt h s tx)).map (BatchItem.nullifier h)) ∧
    ((acceptedBy (stepAt h s tx)).map (BatchItem.nullifier h)).Nodup ∧
    ∀ item ∈ acceptedBy (stepAt h s tx), s.isNullifierUsed (item.nullifier h) = false := by
  rcases exec_cases (h := h) s tx with hrun | ⟨hnone, hsame⟩
  · exact nullifiers_of_verifyItems hrun
  · simp [acceptedBy, stepAt, hnone, hsame]

/-! ## Whole runs -/

/-- Trace and state agree on the nullifiers, and no two accepted items share one. -/
def NullifiersExact (h : Host) (tr : List (Step Address)) (s : State Address) : Prop :=
  (∀ n, s.isNullifierUsed n = true ↔ n ∈ (accepted tr).map (BatchItem.nullifier h)) ∧
    ((accepted tr).map (BatchItem.nullifier h)).Nodup

theorem nullifiersExact_step {tr : List (Step Address)} {s : State Address}
    (hinv : NullifiersExact h tr s) (tx : Tx Address) :
    NullifiersExact h (tr ++ [stepAt h s tx]) (exec h s tx).2 := by
  obtain ⟨hused, hnodup⟩ := hinv
  obtain ⟨hused', hnodup', hfresh⟩ := nullifiers_of_exec (h := h) s tx
  refine ⟨fun n => ?_, ?_⟩
  · rw [hused', hused, accepted_concat, List.map_append, List.mem_append]
  · rw [accepted_concat, List.map_append, List.nodup_append']
    refine ⟨hnodup, hnodup', ?_⟩
    intro n hold hnew
    obtain ⟨item, hitem, rfl⟩ := List.mem_map.1 hnew
    have hnot := hfresh item hitem
    rw [(hused _).2 hold] at hnot
    cases hnot

theorem nullifiersExact_run (admin : Address) (txs : List (Tx Address)) :
    NullifiersExact h ((machine h).trace (construct admin) txs)
      ((machine h).run (construct admin) txs) := by
  refine (machine h).run_induction (P := NullifiersExact h) ⟨fun n => ?_, ?_⟩
    (fun tr s tx hinv => nullifiersExact_step hinv tx) txs
  · simp [construct, State.isNullifierUsed, Store.has, accepted]
  · simp [accepted]

/-! ## What a nullifier determines -/

/-- The messages hashed for the nullifiers of some items. -/
def messages (h : Host) (items : List BatchItem) : List Bytes :=
  items.flatMap fun item =>
    [concatBytes item.publicInputs,
      nullifierMessage item.id (computeInputsHash h item.publicInputs)]

theorem concatBytes_mem_messages {items : List BatchItem} {item : BatchItem} (hmem : item ∈ items) :
    concatBytes item.publicInputs ∈ messages h items :=
  List.mem_flatMap.2 ⟨item, hmem, by simp⟩

theorem nullifierMessage_mem_messages {items : List BatchItem} {item : BatchItem}
    (hmem : item ∈ items) :
    nullifierMessage item.id (computeInputsHash h item.publicInputs) ∈ messages h items :=
  List.mem_flatMap.2 ⟨item, hmem, by simp⟩

theorem nullifierMessage_inj {id id' : UInt32} {x x' : BytesN 32}
    (heq : nullifierMessage id x = nullifierMessage id' x') : id = id' ∧ x = x' := by
  obtain ⟨hid, hx⟩ := List.append_inj heq (by simp)
  refine ⟨UInt32.toNat_inj.1 ?_, BytesN.ext hx⟩
  have hnat := congrArg beNat hid
  rwa [beNat_toBe_of_lt id.toNat_lt, beNat_toBe_of_lt id'.toNat_lt] at hnat

/-- Without collisions, equal nullifiers mean equal circuit ids and equal input bytes. -/
theorem nullifier_inj {items : List BatchItem} (hfree : h.CollisionFree (messages h items))
    {a b : BatchItem} (ha : a ∈ items) (hb : b ∈ items) (heq : a.nullifier h = b.nullifier h) :
    a.id = b.id ∧ a.publicInputs = b.publicInputs := by
  obtain ⟨hid, hhash⟩ := nullifierMessage_inj (hfree _ (nullifierMessage_mem_messages ha) _
    (nullifierMessage_mem_messages hb) heq)
  have hconcat := hfree _ (concatBytes_mem_messages ha) _ (concatBytes_mem_messages hb) hhash
  exact ⟨hid, concatBytes_injective (by norm_num) hconcat⟩

theorem nullifier_congr {a b : BatchItem} (hid : a.id = b.id)
    (hxs : a.publicInputs = b.publicInputs) : a.nullifier h = b.nullifier h := by
  simp only [BatchItem.nullifier, hid, hxs]

/-- The replay check turns an item away: its circuit is active and its nullifier stored. -/
def turnedAway (h : Host) (s : State Address) (item : BatchItem) : Bool :=
  s.isCircuitActive item.id && s.isNullifierUsed (item.nullifier h)

/-- **The nullifier set is exact.** After any run the stored nullifiers are those of the accepted
    items. A further transaction adds the nullifiers of the items it accepts, each of them new, and
    nothing else. An item on an active circuit, reached after the entries `pre` of its own call
    (none in `verify_proof`), is turned away by the replay check exactly when an item with its id
    and its input bytes was accepted before, provided SHA-256 separates the messages hashed for it
    and for the accepted items. -/
theorem nullifiers_exact (h : Host) (admin : Address) (txs : List (Tx Address)) :
    let tr := (machine h).trace (construct admin) txs
    let s := (machine h).run (construct admin) txs
    (∀ n, s.isNullifierUsed n = true ↔ ∃ item ∈ accepted tr, item.nullifier h = n) ∧
    (∀ tx, (∀ n, (exec h s tx).2.isNullifierUsed n = true ↔ s.isNullifierUsed n = true ∨
          n ∈ (acceptedBy (stepAt h s tx)).map (BatchItem.nullifier h)) ∧
        ((acceptedBy (stepAt h s tx)).map (BatchItem.nullifier h)).Nodup ∧
        ∀ item ∈ acceptedBy (stepAt h s tx), s.isNullifierUsed (item.nullifier h) = false) ∧
    (∀ pre item results s', verifyBatch h pre s = some (results, s') →
      h.CollisionFree (messages h (item :: (accepted tr ++ answeredTrue pre results))) →
      s'.isCircuitActive item.id = true →
      (turnedAway h s' item = true ↔ ∃ e ∈ accepted tr ++ answeredTrue pre results,
        e.id = item.id ∧ e.publicInputs = item.publicInputs)) := by
  intro tr s
  have hinv : NullifiersExact h tr s := nullifiersExact_run admin txs
  refine ⟨fun n => (hinv.1 n).trans List.mem_map, fun tx => nullifiers_of_exec s tx, ?_⟩
  intro pre item results s' hpre hfree hactive
  rw [verifyBatch_eq] at hpre
  obtain ⟨hused, -, -⟩ := nullifiers_of_verifyItems hpre
  -- an active item is turned away for a stored nullifier, and those stem from accepted items
  have hiff : turnedAway h s' item = true ↔ item.nullifier h ∈
      (accepted tr ++ answeredTrue pre results).map (BatchItem.nullifier h) := by
    rw [turnedAway, hactive, Bool.true_and, hused, hinv.1, List.map_append, List.mem_append]
  rw [hiff, List.mem_map]
  constructor
  · rintro ⟨e, he, hn⟩
    refine ⟨e, he, nullifier_inj hfree ?_ ?_ hn⟩
    · exact List.mem_cons_of_mem _ he
    · exact List.mem_cons_self
  · rintro ⟨e, he, hid, hxs⟩
    exact ⟨e, he, nullifier_congr hid hxs⟩

/-- A second submission of an accepted item is turned away. -/
theorem nullifiers_exact_resubmission :
    turnedAway Host.scalar ((machine Host.scalar).run (construct ()) (zeroRun [7])) (zeroItem 7)
      = true :=
  ((nullifiers_exact Host.scalar () (zeroRun [7])).2.2 [] (zeroItem 7) [] _ rfl
    (by decide +kernel) (by decide +kernel)).2 ⟨zeroItem 7, by decide +kernel, rfl, rfl⟩

end ZkStellar.Registry

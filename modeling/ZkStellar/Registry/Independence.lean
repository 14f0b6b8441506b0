import ZkStellar.Registry.Batch

set_option autoImplicit false

/-! # Entries of a registry batch do not disturb each other

A batch that runs through answers each entry with one flag and one event, says `true` only of valid
entries, and a `false` entry could have been left out (`verifyItems_erase`). Whether it runs through
is decided by the entries that reach the parsers (`EntriesParse`): a single one of them with
unparsable bytes traps the whole call. -/

namespace ZkStellar.Registry

variable {Address : Type} {h : Host}

/-! ## Shape of the answer -/

theorem length_of_verifyItems {batch : List BatchItem} {s s' : State Address} {bs : List Bool}
    (hrun : verifyItems h batch s = some (bs, s')) : bs.length = batch.length := by
  induction batch generalizing s bs with
  | nil => simp only [verifyItems] at hrun; cases hrun; rfl
  | cons item batch ih =>
      obtain ⟨b, bs', hv, hrest, rfl⟩ := verifyItems_cons_eq_some.1 hrun
      simp [ih hrest]

/-- The event published for an item. -/
def itemEvent (h : Host) (item : BatchItem) (success : Bool) : VerificationResult :=
  ⟨success, computeInputsHash h item.publicInputs⟩

theorem events_of_verifyItems {batch : List BatchItem} {s s' : State Address} {bs : List Bool}
    (hrun : verifyItems h batch s = some (bs, s')) :
    s'.events = s.events ++ List.zipWith (itemEvent h) batch bs := by
  induction batch generalizing s bs with
  | nil => simp only [verifyItems] at hrun; cases hrun; simp
  | cons item batch ih =>
      obtain ⟨b, bs', hv, hrest, rfl⟩ := verifyItems_cons_eq_some.1 hrun
      rw [ih hrest, afterItem_events, List.append_assoc]
      rfl

/-- Nothing but verification's own nullifiers changes: circuits keep key and activity. -/
theorem circuit_of_verifyItems {batch : List BatchItem} {s s' : State Address} {bs : List Bool}
    (hrun : verifyItems h batch s = some (bs, s')) (id : UInt32) :
    s'.circuit id = s.circuit id ∧ s'.isCircuitActive id = s.isCircuitActive id := by
  induction batch generalizing s bs with
  | nil => simp only [verifyItems] at hrun; cases hrun; exact ⟨rfl, rfl⟩
  | cons item batch ih =>
      obtain ⟨b, bs', hv, hrest, rfl⟩ := verifyItems_cons_eq_some.1 hrun
      have hframe := ih hrest
      rwa [afterItem_circuit, afterItem_isCircuitActive] at hframe

/-! ## `true` means valid -/

/-- The entry's id has a key that parses, its proof bytes parse, and the Groth16 equation holds. -/
def ValidEntry (h : Host) (s : State Address) (item : BatchItem) : Prop :=
  ∃ vk π K, s.circuit item.id = some vk ∧
    proofPoints h item.proofA item.proofB item.proofC = some π ∧ vk.points h = some K ∧
    Groth16.Accepts h.pairing K π (statement item.publicInputs)

theorem check_of_itemVerdict_true {s : State Address} {item : BatchItem}
    (hv : itemVerdict h s item = some true) : s.isCircuitActive item.id = true ∧
      s.isNullifierUsed (item.nullifier h) = false ∧ item.check h s = some true := by
  cases hactive : s.isCircuitActive item.id with
  | false => simp [itemVerdict_of_inactive hactive] at hv
  | true =>
      cases hused : s.isNullifierUsed (item.nullifier h) with
      | true => simp [itemVerdict_of_used hactive hused] at hv
      | false => exact ⟨rfl, rfl, (itemVerdict_of_fresh hactive hused).symm.trans hv⟩

theorem validEntry_of_verdict_true {s : State Address} {item : BatchItem}
    (hv : itemVerdict h s item = some true) : ValidEntry h s item :=
  runVerification_eq_true (check_of_itemVerdict_true hv).2.2

theorem validEntry_congr {s s' : State Address} {item : BatchItem}
    (hs : s.circuit item.id = s'.circuit item.id) :
    ValidEntry h s item ↔ ValidEntry h s' item := by
  simp only [ValidEntry, hs]

theorem validEntry_of_verifyItems {batch : List BatchItem} {s s' : State Address} {bs : List Bool}
    (hrun : verifyItems h batch s = some (bs, s')) {i : ℕ} {item : BatchItem}
    (hitem : batch[i]? = some item) (htrue : bs[i]? = some true) : ValidEntry h s item := by
  induction batch generalizing s bs i with
  | nil => simp at hitem
  | cons head batch ih =>
      obtain ⟨b, bs', hv, hrest, rfl⟩ := verifyItems_cons_eq_some.1 hrun
      cases i with
      | zero =>
          simp only [List.getElem?_cons_zero, Option.some.injEq] at hitem htrue
          subst hitem htrue
          exact validEntry_of_verdict_true hv
      | succ i => exact (validEntry_congr afterItem_circuit).1 (ih hrest hitem htrue)

/-! ## A `false` entry could have been left out -/

theorem verifyItems_congr {batch : List BatchItem} {s t s' : State Address} {bs : List Bool}
    (hst : s.storage = t.storage) (hrun : verifyItems h batch s = some (bs, s')) :
    ∃ t', verifyItems h batch t = some (bs, t') ∧ t'.storage = s'.storage := by
  induction batch generalizing s t bs with
  | nil =>
      simp only [verifyItems] at hrun
      cases hrun
      exact ⟨t, rfl, hst.symm⟩
  | cons item batch ih =>
      obtain ⟨b, bs', hv, hrest, rfl⟩ := verifyItems_cons_eq_some.1 hrun
      obtain ⟨t', hrun', ht'⟩ := ih (afterItem_storage_congr hst) hrest
      exact ⟨t', by simp [verifyItems, ← itemVerdict_congr hst, hv, hrun'], ht'⟩

/-- Deleting an entry that came back `false` keeps all other flags and the final storage. -/
theorem verifyItems_erase {batch : List BatchItem} {s s' : State Address} {bs : List Bool}
    (hrun : verifyItems h batch s = some (bs, s')) {i : ℕ} (hfalse : bs[i]? = some false) :
    ∃ t', verifyItems h (batch.eraseIdx i) s = some (bs.eraseIdx i, t') ∧
      t'.storage = s'.storage := by
  induction batch generalizing s bs i with
  | nil =>
      simp only [verifyItems] at hrun
      cases hrun
      simp at hfalse
  | cons item batch ih =>
      obtain ⟨b, bs', hv, hrest, rfl⟩ := verifyItems_cons_eq_some.1 hrun
      cases i with
      | zero =>
          -- the deleted entry only published an event
          simp only [List.getElem?_cons_zero, Option.some.injEq] at hfalse
          subst hfalse
          exact verifyItems_congr afterItem_storage_false hrest
      | succ i =>
          obtain ⟨t', hrun', ht'⟩ := ih hrest hfalse
          exact ⟨t', by simp [verifyItems, hv, hrun'], ht'⟩

/-! ## When a batch runs through -/

/-- The static part of acceptance: the circuit is active and the proof passes verification. -/
def accepts (h : Host) (s : State Address) (item : BatchItem) : Bool :=
  s.isCircuitActive item.id && decide (item.check h s = some true)

/-- Every entry that reaches the parsers can be parsed: an entry reaches them if its circuit is
    active, its nullifier is not stored and no earlier entry of the batch with the same nullifier is
    acceptable. -/
def EntriesParse (h : Host) (s : State Address) (batch : List BatchItem) : Prop :=
  ∀ pre item post, batch = pre ++ item :: post → s.isCircuitActive item.id = true →
    s.isNullifierUsed (item.nullifier h) = false →
    (∀ e ∈ pre, e.nullifier h = item.nullifier h → accepts h s e = false) →
    Parses h s item.id item.proofA item.proofB item.proofC item.publicInputs

theorem parses_congr {s s' : State Address} {item : BatchItem}
    (hs : s.circuit item.id = s'.circuit item.id) :
    Parses h s item.id item.proofA item.proofB item.proofC item.publicInputs ↔
      Parses h s' item.id item.proofA item.proofB item.proofC item.publicInputs := by
  simp only [Parses, hs]

theorem accepts_afterItem {s : State Address} {item e : BatchItem} {b : Bool} :
    accepts h (afterItem h s item b) e = accepts h s e := by
  rw [accepts, afterItem_isCircuitActive, BatchItem.check_congr afterItem_circuit]
  rfl

theorem itemVerdict_ne_none_iff {s : State Address} {item : BatchItem} :
    itemVerdict h s item ≠ none ↔ (s.isCircuitActive item.id = true →
      s.isNullifierUsed (item.nullifier h) = false →
      Parses h s item.id item.proofA item.proofB item.proofC item.publicInputs) := by
  cases hactive : s.isCircuitActive item.id with
  | false => simp [itemVerdict_of_inactive hactive]
  | true =>
      cases hused : s.isNullifierUsed (item.nullifier h) with
      | true => simp [itemVerdict_of_used hactive hused]
      | false =>
          rw [itemVerdict_of_fresh hactive hused, BatchItem.check, runVerification_ne_none_iff]
          simp

/-- After an entry with verdict `b`, a nullifier is fresh exactly when it was fresh before and the
    entry was not an acceptable one with that nullifier. -/
theorem fresh_afterItem_iff {s : State Address} {item : BatchItem} {b : Bool}
    (hv : itemVerdict h s item = some b) (n : BytesN 32) :
    (afterItem h s item b).isNullifierUsed n = false ↔ s.isNullifierUsed n = false ∧
      (item.nullifier h = n → accepts h s item = false) := by
  rw [Bool.eq_false_iff, ne_eq, afterItem_isNullifierUsed, not_or, ← ne_eq, ← Bool.eq_false_iff]
  refine and_congr_right ?_
  intro hfresh
  by_cases hn : item.nullifier h = n
  · subst hn
    simp only [and_true, true_imp_iff]
    cases hactive : s.isCircuitActive item.id with
    | false =>
        rw [itemVerdict_of_inactive hactive] at hv
        cases hv
        simp [accepts, hactive]
    | true =>
        rw [itemVerdict_of_fresh hactive hfresh] at hv
        cases b <;> simp [accepts, hactive, hv]
  · have hn' : n ≠ item.nullifier h := fun he => hn he.symm
    simp [hn, hn']

theorem entriesParse_cons_iff {s : State Address} {item : BatchItem} {batch : List BatchItem}
    {b : Bool} (hv : itemVerdict h s item = some b) :
    EntriesParse h s (item :: batch) ↔ EntriesParse h (afterItem h s item b) batch := by
  constructor
  · intro hall pre e post hsplit hactive hfresh hearlier
    -- an entry of the rest sees `item` either as a stored nullifier or as an earlier entry
    rw [fresh_afterItem_iff hv] at hfresh
    rw [parses_congr afterItem_circuit]
    refine hall (item :: pre) e post (by simp [hsplit]) ?_ hfresh.1 ?_
    · rwa [afterItem_isCircuitActive] at hactive
    · intro e' he' hn
      rcases List.mem_cons.1 he' with rfl | hmem
      · exact hfresh.2 hn
      · rw [← accepts_afterItem (b := b)]
        exact hearlier e' hmem hn
  · intro hall pre e post hsplit hactive hfresh hearlier
    cases pre with
    | nil =>
        simp only [List.nil_append, List.cons.injEq] at hsplit
        obtain ⟨rfl, -⟩ := hsplit
        exact itemVerdict_ne_none_iff.1 (by simp [hv]) hactive hfresh
    | cons e' pre =>
        simp only [List.cons_append, List.cons.injEq] at hsplit
        obtain ⟨rfl, hrest⟩ := hsplit
        have hparse := hall pre e post hrest (by rwa [afterItem_isCircuitActive])
          ((fresh_afterItem_iff hv _).2 ⟨hfresh, hearlier _ (by simp)⟩)
          (fun x hx hn => by rw [accepts_afterItem]; exact hearlier x (by simp [hx]) hn)
        rwa [parses_congr afterItem_circuit] at hparse

/-- A batch runs through exactly when every entry that reaches the parsers can be parsed. -/
theorem verifyItems_ne_none_iff {batch : List BatchItem} {s : State Address} :
    verifyItems h batch s ≠ none ↔ EntriesParse h s batch := by
  induction batch generalizing s with
  | nil =>
      simp only [verifyItems, ne_eq, reduceCtorEq, not_false_eq_true, true_iff]
      intro pre item post hsplit
      simp at hsplit
  | cons item batch ih =>
      cases hv : itemVerdict h s item with
      | none =>
          simp only [verifyItems, hv, ne_eq, not_true_eq_false, false_iff]
          intro hall
          exact itemVerdict_ne_none_iff.2
            (fun ha hf => hall [] item batch rfl ha hf (by simp)) hv
      | some b =>
          rw [entriesParse_cons_iff hv, ← ih]
          simp only [verifyItems, hv, ne_eq, Option.map_eq_none_iff]

/-! ## The whole answer -/

/-- What a batch call promises: it returns one flag per entry in order, publishes one event per
    entry with that flag, answers an invalid entry with `false`, and deleting a `false` entry
    changes neither the other flags nor the final storage. -/
def BatchIsolated (h : Host) (auth : Address → Bool) (s : State Address)
    (batch : List BatchItem) : Prop :=
  ∃ results s', exec h s ⟨auth, .verifyBatch batch⟩ = (.ok (.flags results), s') ∧
    results.length = batch.length ∧
    s'.events = s.events ++ List.zipWith (itemEvent h) batch results ∧
    (∀ (i : ℕ) item, batch[i]? = some item → ¬ ValidEntry h s item → results[i]? = some false) ∧
    ∀ i : ℕ, results[i]? = some false →
      ∃ t', exec h s ⟨auth, .verifyBatch (batch.eraseIdx i)⟩
          = (.ok (.flags (results.eraseIdx i)), t') ∧ t'.storage = s'.storage

theorem batchIsolated_iff {auth : Address → Bool} {s : State Address} {batch : List BatchItem} :
    BatchIsolated h auth s batch ↔ EntriesParse h s batch := by
  rw [← verifyItems_ne_none_iff]
  constructor
  · rintro ⟨results, s', hexec, -⟩ hnone
    rw [exec_verifyBatch, hnone] at hexec
    cases hexec
  · intro hsome
    obtain ⟨⟨bs, s'⟩, hrun⟩ := Option.ne_none_iff_exists'.1 hsome
    refine ⟨bs, s', by rw [exec_verifyBatch, hrun], length_of_verifyItems hrun,
      events_of_verifyItems hrun, ?_, ?_⟩
    · intro i item hitem hinvalid
      have hlt : i < bs.length := by
        rw [length_of_verifyItems hrun]
        exact (List.getElem?_eq_some_iff.1 hitem).1
      rw [List.getElem?_eq_getElem hlt, Option.some.injEq]
      cases hb : bs[i] with
      | false => rfl
      | true =>
          exact absurd (validEntry_of_verifyItems hrun hitem
            (by rw [List.getElem?_eq_getElem hlt, hb])) hinvalid
    · intro i hfalse
      obtain ⟨t', hrun', ht'⟩ := verifyItems_erase hrun hfalse
      exact ⟨t', by rw [exec_verifyBatch, hrun'], ht'⟩

end ZkStellar.Registry

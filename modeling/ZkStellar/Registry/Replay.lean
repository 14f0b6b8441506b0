import ZkStellar.Registry.Independence

set_option autoImplicit false

/-! # The same batch before and after other calls

Verification calls change nothing that later ones read but the stored nullifiers. So a batch is
answered in a later state as it is in an earlier one unless it repeats a nullifier stored in
between (`flags_eq_iff`), and the nullifiers a sequence of batches stores are those of the entries
that are acceptable in the first state, as long as each batch is answered as in that state
(`moreUsed_step`). -/

namespace ZkStellar.Registry

variable {Address : Type} {h : Host}

/-- The flags a batch is answered with, `none` if it traps. -/
def flags (h : Host) (s : State Address) (batch : List BatchItem) : Option (List Bool) :=
  (verifyItems h batch s).map Prod.fst

/-- The state after a batch. -/
def afterBatch (h : Host) (s : State Address) (batch : List BatchItem) : State Address :=
  ((verifyItems h batch s).map Prod.snd).getD s

theorem flags_ne_none_iff {s : State Address} {batch : List BatchItem} :
    flags h s batch ≠ none ↔ EntriesParse h s batch := by
  rw [← verifyItems_ne_none_iff, flags, ne_eq, ne_eq, Option.map_eq_none_iff]

theorem flags_cons (s : State Address) (item : BatchItem) (batch : List BatchItem) :
    flags h s (item :: batch) = (itemVerdict h s item).bind fun b =>
      (flags h (afterItem h s item b) batch).map (b :: ·) := by
  unfold flags
  rw [verifyItems]
  cases itemVerdict h s item with
  | none => rfl
  | some b =>
      simp only [Option.bind_some, Option.map_map]
      rfl

/-- The same circuits, and the nullifiers `more` are stored as well. -/
structure MoreUsed (more : BytesN 32 → Prop) (s t : State Address) : Prop where
  circuit : ∀ id, t.circuit id = s.circuit id
  active : ∀ id, t.isCircuitActive id = s.isCircuitActive id
  used : ∀ n, t.isNullifierUsed n = true ↔ s.isNullifierUsed n = true ∨ more n

/-- The check of an entry for an active circuit plainly says no. -/
def Rejected (h : Host) (s : State Address) (item : BatchItem) : Prop :=
  s.isCircuitActive item.id = true → item.check h s = some false

/-- `EntriesParse`, with the nullifiers `more` stored as well. -/
def EntriesParseBeyond (h : Host) (s : State Address) (more : BytesN 32 → Prop)
    (batch : List BatchItem) : Prop :=
  ∀ pre item post, batch = pre ++ item :: post → s.isCircuitActive item.id = true →
    s.isNullifierUsed (item.nullifier h) = false → ¬ more (item.nullifier h) →
    (∀ e ∈ pre, e.nullifier h = item.nullifier h → accepts h s e = false) →
    Parses h s item.id item.proofA item.proofB item.proofC item.publicInputs

section MoreUsed

variable {more : BytesN 32 → Prop} {s t : State Address} {item : BatchItem}
  {batch : List BatchItem} {b : Bool}

theorem MoreUsed.unused (hmore : MoreUsed more s t) (n : BytesN 32) :
    t.isNullifierUsed n = false ↔ s.isNullifierUsed n = false ∧ ¬ more n := by
  rw [← Bool.not_eq_true, hmore.used, not_or, Bool.not_eq_true]

theorem MoreUsed.accepts_eq (hmore : MoreUsed more s t) : accepts h t item = accepts h s item := by
  rw [accepts, accepts, hmore.active, BatchItem.check_congr (hmore.circuit _)]

theorem MoreUsed.afterItem (hmore : MoreUsed more s t) :
    MoreUsed more (afterItem h s item b) (afterItem h t item b) := by
  constructor
  · intro id
    rw [afterItem_circuit, afterItem_circuit, hmore.circuit]
  · intro id
    rw [afterItem_isCircuitActive, afterItem_isCircuitActive, hmore.active]
  · intro n
    rw [afterItem_isNullifierUsed, afterItem_isNullifierUsed, hmore.used]
    tauto

theorem rejected_afterItem {e : BatchItem} :
    Rejected h (afterItem h s item b) e ↔ Rejected h s e := by
  rw [Rejected, Rejected, afterItem_isCircuitActive, BatchItem.check_congr afterItem_circuit]

theorem entriesParse_iff_beyond (hmore : MoreUsed more s t) :
    EntriesParse h t batch ↔ EntriesParseBeyond h s more batch := by
  simp only [EntriesParse, EntriesParseBeyond, hmore.active, hmore.unused, hmore.accepts_eq,
    parses_congr (hmore.circuit _), and_imp]

/-- Where the nullifier is not among the new ones, or the check says no anyway, the verdict is as
    before. -/
theorem itemVerdict_eq_of_rejected (hmore : MoreUsed more s t)
    (hitem : s.isNullifierUsed (item.nullifier h) = false → more (item.nullifier h) →
      Rejected h s item) : itemVerdict h t item = itemVerdict h s item := by
  cases hactive : s.isCircuitActive item.id with
  | false =>
      rw [itemVerdict_of_inactive hactive,
        itemVerdict_of_inactive ((hmore.active _).trans hactive)]
  | true =>
      have hactive' := (hmore.active item.id).trans hactive
      cases hused : s.isNullifierUsed (item.nullifier h) with
      | true =>
          rw [itemVerdict_of_used hactive hused,
            itemVerdict_of_used hactive' ((hmore.used _).2 (.inl hused))]
      | false =>
          rw [itemVerdict_of_fresh hactive hused]
          by_cases hnew : more (item.nullifier h)
          · rw [itemVerdict_of_used hactive' ((hmore.used _).2 (.inr hnew)),
              hitem hused hnew hactive]
          · rw [itemVerdict_of_fresh hactive' ((hmore.unused _).2 ⟨hused, hnew⟩),
              BatchItem.check_congr (hmore.circuit _)]

theorem flags_eq_of_rejected (hmore : MoreUsed more s t)
    (hall : ∀ item ∈ batch, s.isNullifierUsed (item.nullifier h) = false →
      more (item.nullifier h) → Rejected h s item) : flags h t batch = flags h s batch := by
  induction batch generalizing s t with
  | nil => rfl
  | cons item batch ih =>
      rw [flags_cons, flags_cons, itemVerdict_eq_of_rejected hmore (hall item (by simp))]
      cases hv : itemVerdict h s item with
      | none => rfl
      | some b =>
          simp only [Option.bind_some]
          rw [ih hmore.afterItem]
          intro e he hunused hnew
          rw [rejected_afterItem]
          exact hall e (by simp [he]) ((fresh_afterItem_iff hv _).1 hunused).1 hnew

/-- An entry whose nullifier is stored is answered with `false`. -/
theorem eq_false_of_used {s : State Address} (hv : itemVerdict h s item = some b)
    (hused : s.isNullifierUsed (item.nullifier h) = true) : b = false := by
  cases hactive : s.isCircuitActive item.id with
  | false => exact (Option.some.inj ((itemVerdict_of_inactive hactive).symm.trans hv)).symm
  | true => exact (Option.some.inj ((itemVerdict_of_used hactive hused).symm.trans hv)).symm

theorem rejected_of_flags_eq (hmore : MoreUsed more s t) (hparse : EntriesParse h t batch)
    (heq : flags h t batch = flags h s batch) : ∀ item ∈ batch,
      s.isNullifierUsed (item.nullifier h) = false → more (item.nullifier h) →
        Rejected h s item := by
  induction batch generalizing s t with
  | nil => simp
  | cons head batch ih =>
      have hruns := flags_ne_none_iff.2 hparse
      rw [flags_cons] at hruns
      rw [flags_cons, flags_cons] at heq
      obtain ⟨bs, hbs⟩ := Option.ne_none_iff_exists'.1 hruns
      rw [hbs] at heq
      obtain ⟨b, hv, hrest⟩ := Option.bind_eq_some_iff.1 hbs
      obtain ⟨b', hv', hrest'⟩ := Option.bind_eq_some_iff.1 heq.symm
      obtain ⟨cs, hcs, rfl⟩ := Option.map_eq_some_iff.1 hrest
      obtain ⟨cs', hcs', hcons⟩ := Option.map_eq_some_iff.1 hrest'
      obtain ⟨rfl, rfl⟩ := List.cons.inj hcons
      -- a head with a new nullifier is answered with `false` in the later state
      have hfalse : more (head.nullifier h) → b' = false := fun hnew =>
        eq_false_of_used hv ((hmore.used _).2 (.inr hnew))
      intro item hmem hunused hnew
      rcases List.mem_cons.1 hmem with rfl | hmem
      · intro hactive
        rw [← itemVerdict_of_fresh hactive hunused, hv', hfalse hnew]
      · have hunused' : (afterItem h s head b').isNullifierUsed (item.nullifier h) = false := by
          rw [← Bool.not_eq_true, afterItem_isNullifierUsed]
          rintro (hused | ⟨htrue, heq⟩)
          · simp [hunused] at hused
          · rw [heq] at hnew
            simp [hfalse hnew] at htrue
        exact rejected_afterItem.1 (ih hmore.afterItem ((entriesParse_cons_iff hv).1 hparse)
          (hcs.trans hcs'.symm) item hmem hunused' hnew)

/-- A batch is answered as in the earlier state exactly when it traps in the later one, or the check
    of every entry with a new nullifier says no. -/
theorem flags_eq_iff (hmore : MoreUsed more s t) :
    flags h t batch = flags h s batch ↔ ¬ EntriesParseBeyond h s more batch ∨
      ∀ item ∈ batch, s.isNullifierUsed (item.nullifier h) = false → more (item.nullifier h) →
        Rejected h s item := by
  rw [← entriesParse_iff_beyond hmore]
  constructor
  · intro heq
    by_cases hparse : EntriesParse h t batch
    · exact .inr (rejected_of_flags_eq hmore hparse heq)
    · exact .inl hparse
  · rintro (htrap | hall)
    · -- what traps in the later state traps in the earlier one
      have htrap' : ¬ EntriesParse h s batch := fun hparse =>
        htrap ((entriesParse_iff_beyond hmore).2 fun pre item post hsplit hactive hunused _ =>
          hparse pre item post hsplit hactive hunused)
      rw [not_not.1 (mt flags_ne_none_iff.1 htrap), not_not.1 (mt flags_ne_none_iff.1 htrap')]
    · exact flags_eq_of_rejected hmore hall

end MoreUsed

/-! ## What a sequence of batches stores -/

/-- The nullifiers of acceptable entries, each batch that traps counting for nothing. -/
def Burned (h : Host) (s : State Address) (batches : List (List BatchItem)) (n : BytesN 32) :
    Prop :=
  ∃ batch ∈ batches, EntriesParse h s batch ∧
    ∃ item ∈ batch, accepts h s item = true ∧ item.nullifier h = n

section Burned

variable {s t t' : State Address} {batch : List BatchItem} {bs : List Bool}

theorem used_of_verifyItems (hrun : verifyItems h batch t = some (bs, t')) (n : BytesN 32) :
    t'.isNullifierUsed n = true ↔ t.isNullifierUsed n = true ∨
      ∃ item ∈ batch, accepts h t item = true ∧ item.nullifier h = n := by
  induction batch generalizing t bs with
  | nil =>
      cases hrun
      simp
  | cons item batch ih =>
      obtain ⟨b, bs', hv, hrest, rfl⟩ := verifyItems_cons_eq_some.1 hrun
      have hhead : (afterItem h t item b).isNullifierUsed n = true ↔
          t.isNullifierUsed n = true ∨ accepts h t item = true ∧ item.nullifier h = n := by
        rw [← not_iff_not, Bool.not_eq_true, fresh_afterItem_iff hv, not_or, not_and',
          Bool.not_eq_true, Bool.not_eq_true]
      simp only [ih hrest, hhead, accepts_afterItem, List.mem_cons, exists_eq_or_imp, or_assoc]

/-- A batch answered as in the first state stores the nullifiers of its acceptable entries. -/
theorem moreUsed_step {batches : List (List BatchItem)} (hmore : MoreUsed (Burned h s batches) s t)
    (heq : flags h t batch = flags h s batch) :
    MoreUsed (Burned h s (batches ++ [batch])) s (afterBatch h t batch) := by
  have hburned : ∀ n, Burned h s (batches ++ [batch]) n ↔ Burned h s batches n ∨
      EntriesParse h s batch ∧ ∃ item ∈ batch, accepts h s item = true ∧ item.nullifier h = n := by
    intro n
    simp [Burned, or_and_right, exists_or]
  cases hrun : verifyItems h batch t with
  | none =>
      -- the batch traps in `s` as well and burns nothing
      have htrap : ¬ EntriesParse h s batch := by
        rw [← flags_ne_none_iff, ← heq, flags, hrun]
        simp
      have hsame : afterBatch h t batch = t := by simp [afterBatch, hrun]
      rw [hsame]
      exact ⟨hmore.circuit, hmore.active, fun n => by simp [hburned, htrap, hmore.used]⟩
  | some out =>
      obtain ⟨bs, t'⟩ := out
      have hparse : EntriesParse h s batch := by
        rw [← flags_ne_none_iff, ← heq, flags, hrun]
        simp
      have hsame : afterBatch h t batch = t' := by simp [afterBatch, hrun]
      rw [hsame]
      constructor
      · intro id
        rw [(circuit_of_verifyItems hrun id).1, hmore.circuit]
      · intro id
        rw [(circuit_of_verifyItems hrun id).2, hmore.active]
      · intro n
        simp only [used_of_verifyItems hrun, hmore.used, hmore.accepts_eq, hburned, hparse,
          true_and, or_assoc]

end Burned

/-! ## Sequences of batches -/

/-- The registry as a machine taking batches. -/
def batchMachine (h : Host) : Machine (State Address) (List BatchItem) (Option (List Bool)) :=
  ⟨fun s batch => (flags h s batch, afterBatch h s batch)⟩

/-- No entry of the batch repeats a nullifier stored by the earlier batches, unless its own check
    says no or the batch traps without it. -/
def NoReplay (h : Host) (s : State Address) (earlier : List (List BatchItem))
    (batch : List BatchItem) : Prop :=
  ¬ EntriesParseBeyond h s (Burned h s earlier) batch ∨
    ∀ item ∈ batch, s.isNullifierUsed (item.nullifier h) = false →
      Burned h s earlier (item.nullifier h) → Rejected h s item

section Sequences

variable {s : State Address} {batches : List (List BatchItem)}

/-- As long as every batch is answered as in the first state, the stored nullifiers are those of the
    acceptable entries. -/
theorem moreUsed_run (hagree : ∀ pre batch post, batches = pre ++ batch :: post →
      MoreUsed (Burned h s pre) s ((batchMachine h).run s pre) →
      flags h ((batchMachine h).run s pre) batch = flags h s batch)
    (pre rest : List (List BatchItem)) (hsplit : batches = pre ++ rest) :
    MoreUsed (Burned h s pre) s ((batchMachine h).run s pre) := by
  induction pre using List.reverseRecOn generalizing rest with
  | nil => exact ⟨fun _ => rfl, fun _ => rfl, fun n => by simp [Burned, Machine.run]⟩
  | append_singleton pre batch ih =>
      have hsplit' : batches = pre ++ batch :: rest := by simp [hsplit]
      have hmore := ih (batch :: rest) hsplit'
      rw [Machine.run_concat]
      exact moreUsed_step hmore (hagree pre batch rest hsplit' hmore)

/-- Every batch is answered as in the first state exactly when no batch replays an accepted
    nullifier. -/
theorem flags_run_eq_iff (h : Host) (s : State Address) (batches : List (List BatchItem)) :
    (∀ pre batch post, batches = pre ++ batch :: post →
        flags h ((batchMachine h).run s pre) batch = flags h s batch) ↔
      ∀ pre batch post, batches = pre ++ batch :: post → NoReplay h s pre batch := by
  constructor
  · intro hagree pre batch post hsplit
    have hmore := moreUsed_run (fun pre batch post hsplit _ => hagree pre batch post hsplit) pre
      (batch :: post) hsplit
    exact (flags_eq_iff hmore).1 (hagree pre batch post hsplit)
  · intro hno pre batch post hsplit
    have hmore := moreUsed_run (fun pre batch post hsplit hmore =>
      (flags_eq_iff hmore).2 (hno pre batch post hsplit)) pre (batch :: post) hsplit
    exact (flags_eq_iff hmore).2 (hno pre batch post hsplit)

end Sequences

end ZkStellar.Registry

import ZkStellar.Verifier.Batch
import Mathlib.Data.Finset.Card
import Mathlib.Data.Finset.Dedup

set_option autoImplicit false

/-! # Verification counters over whole runs

A successful verification counts under the hash of both public inputs, of which the equation only
reads the first. A run therefore keeps one counter for each key, proof and circuit input exactly as
long as no such combination is recorded with two expiry ledgers (`counters_bounded`); a holder of
one valid proof can otherwise create a counter for every ledger number (`zeroRun_two_counters`). -/

namespace ZkStellar.Verifier

variable {Address : Type} [DecidableEq Address] {h : Host} {ledger : UInt32}

/-! ## Transactions that submit proofs -/

/-- The flags a transaction answers its items with. -/
def answers : Option (Outcome Error Reply) → List Bool
  | some (.ok (.flag b)) => [b]
  | some (.ok (.flags bs)) => bs
  | _ => []

theorem answers_of_not_ok {o : Outcome Error Reply} (hno : ∀ v, o ≠ .ok v) :
    answers (some o) = [] := by
  cases o with
  | ok v => exact absurd rfl (hno v)
  | err e => rfl
  | trap => rfl

/-- A batch loop that returns normally ran `verify_one` on each item in turn. -/
theorem submitAll_of_verifyBatchLoop {caller : Address} {proofs : List ProofItem}
    {results results' : List Bool} {s t : State Address}
    (hrun : verifyBatchLoop h ledger caller proofs results s = some (.ok results', t)) :
    ∃ bs, results' = results ++ bs ∧
      submitAll h ledger caller (settleBatch h caller) proofs s = some (bs, t) := by
  induction proofs generalizing results s with
  | nil =>
      cases hrun
      exact ⟨[], by simp, rfl⟩
  | cons item proofs ih =>
      rw [verifyBatchLoop] at hrun
      rw [submitAll]
      split at hrun
      · cases hrun
      · next b s' hone =>
          obtain ⟨bs, rfl, hrest⟩ := ih hrun
          exact ⟨b :: bs, by simp, by simp [hone, settleBatch, flagOf, hrest]⟩
      · cases hrun
      · cases hrun
      · next e s' _ _ hone =>
          obtain ⟨bs, rfl, hrest⟩ := ih hrun
          exact ⟨false :: bs, by simp, by simp [hone, settleBatch, flagOf, hrest]⟩

/-- What a transaction that submits proofs can do: nothing at all, or run `verify_one` on each item
    in turn and answer with the flags. -/
theorem submission_cases (h : Host) (ledger : UInt32) (s : State Address) (tx : Tx Address)
    {caller : Address} {proofs : List ProofItem}
    (htx : tx.call.submission = some (caller, proofs)) :
    ((∀ v, (exec h ledger s tx).1 ≠ .ok v) ∧ (exec h ledger s tx).2 = s) ∨
      tx.auth caller = true ∧ (∃ v, (exec h ledger s tx).1 = .ok v) ∧
        submitAll h ledger caller (settleBatch h caller) proofs s
          = some (answers (some (exec h ledger s tx).1), (exec h ledger s tx).2) := by
  obtain ⟨auth, call⟩ := tx
  cases call with
  | verifyProof caller' item =>
      cases htx
      rw [exec_verifyProof]
      by_cases hauth : auth caller
      · rw [if_pos hauth]
        -- a trap and an error are both rolled back; only a value commits
        rcases hone : verifyOne h ledger caller item s with _ | ⟨e | b, s'⟩
        · exact .inl ⟨by simp, rfl⟩
        · exact .inl ⟨by simp, rfl⟩
        · exact .inr ⟨hauth, ⟨_, rfl⟩, by simp [submitAll, hone, settleBatch, flagOf, answers]⟩
      · rw [if_neg hauth]
        exact .inl ⟨by simp, rfl⟩
  | verifyBatch caller' proofs' =>
      cases htx
      rw [exec_verifyBatch]
      by_cases hauth : auth caller
      · rw [if_pos hauth]
        rcases hrun : verifyBatchLoop h ledger caller proofs [] s with _ | ⟨e | bs, t⟩
        · exact .inl ⟨by simp, rfl⟩
        · exact .inl ⟨by simp, rfl⟩
        · obtain ⟨bs', rfl, hall⟩ := submitAll_of_verifyBatchLoop hrun
          exact .inr ⟨hauth, ⟨_, rfl⟩, by simpa [answers] using hall⟩
      · rw [if_neg hauth]
        exact .inl ⟨by simp, rfl⟩
  | _ => cases htx

/-! ## What a run verified -/

/-- A step of the verifier, as a trace records it. -/
abbrev Step (Address : Type) := Entry (World Address) (Event Address) (Option (Outcome Error Reply))

/-- The items an event submits. -/
def Event.items : Event Address → List ProofItem
  | .tx t => (t.call.submission.map Prod.snd).getD []
  | .advance _ => []

/-- The items a step verified. -/
def verifiedBy (e : Step Address) : List ProofItem := answeredTrue e.input.items (answers e.outcome)

/-- What a verification is about: the stored key, the proof bytes and the circuit's input. -/
structure Combination where
  vk : Option VerifyingKey
  proofA : Bytes
  proofB : Bytes
  proofC : Bytes
  publicInput : Option (BytesN 32)
deriving DecidableEq

/-- The combination an item is about in a state. -/
def combination (s : State Address) (item : ProofItem) : Combination :=
  ⟨s.vk, item.proofA, item.proofB, item.proofC, item.publicInputs[0]?⟩

/-- The successful verifications of a trace: each with its combination and the key of the counter it
    incremented. -/
def verifications (h : Host) (tr : List (Step Address)) : List (Combination × BytesN 32) :=
  tr.flatMap fun e => (verifiedBy e).map fun item =>
    (combination e.pre.state item, item.inputsHash h)

/-! ## One transaction -/

/-- `verify_one` increments the counter of a verified item's inputs and no other. -/
theorem counters_of_verifyOne {s s' : State Address} {limits : Limits} {vk : VerifyingKey}
    (hcfg : Configured s limits vk) {caller : Address} {item : ProofItem} {r : Except Error Bool}
    (hrun : verifyOne h ledger caller item s = some (r, s')) (x : BytesN 32) :
    (s'.verificationCount x).toNat = (s.verificationCount x).toNat
        + (if flagOf r = true ∧ item.inputsHash h = x then 1 else 0) ∧
      (s'.instanceStorage.get (.verificationCount x) ≠ none ↔
        s.instanceStorage.get (.verificationCount x) ≠ none ∨
          flagOf r = true ∧ item.inputsHash h = x) := by
  cases verifyOne_cases hcfg hrun with
  | denied e _ => simp [flagOf]
  | limited _ _ => simp [flagOf]
  | refused _ _ _ _ _ _ hr =>
      simp only [flagOf_eq_false hr, Bool.false_eq_true, false_and, if_false, Nat.add_zero,
        or_false]
      exact ⟨rfl, Iff.rfl⟩
  | verified _ _ _ _ _ hcounter =>
      refine ⟨?_, ?_⟩
      · rw [toNat_verificationCount_recorded (s := counted h ledger caller limits s) hcounter]
        simp only [flagOf, true_and]
        rfl
      · -- recording writes the entry of the item's own inputs
        by_cases hx : item.inputsHash h = x
        · subst hx
          simp [recorded, State.setInstance, flagOf]
        · rw [recorded, State.setInstance, Store.get_set_of_ne _ _ (by simpa [eq_comm] using hx)]
          simp only [flagOf, hx, and_false, or_false]
          exact Iff.rfl

theorem counters_of_submitAll {s t : State Address} {limits : Limits} {vk : VerifyingKey}
    (hcfg : Configured s limits vk) {caller : Address} {proofs : List ProofItem} {bs : List Bool}
    (hrun : submitAll h ledger caller (settleBatch h caller) proofs s = some (bs, t))
    (x : BytesN 32) :
    (t.verificationCount x).toNat = (s.verificationCount x).toNat
        + ((answeredTrue proofs bs).map (ProofItem.inputsHash h)).count x ∧
      (t.instanceStorage.get (.verificationCount x) ≠ none ↔
        s.instanceStorage.get (.verificationCount x) ≠ none ∨
          x ∈ (answeredTrue proofs bs).map (ProofItem.inputsHash h)) := by
  induction proofs generalizing s bs with
  | nil =>
      cases hrun
      simp
  | cons item proofs ih =>
      obtain ⟨r, s', bs', hone, hrest, rfl⟩ := submitAll_cons_eq_some.1 hrun
      have hframe : Frame s (settleBatch h caller item r s s') :=
        frame_of_settleBatch (frame_of_verifyOne hone)
      obtain ⟨hcount, hentry⟩ := ih (hcfg.of_frame hframe) hrest
      obtain ⟨hcount₁, hentry₁⟩ := counters_of_verifyOne hcfg hone x
      -- settling in a batch changes no counter, so the rest starts from the counters after the item
      have hcount' : (t.verificationCount x).toNat = (s'.verificationCount x).toNat
          + ((answeredTrue proofs bs').map (ProofItem.inputsHash h)).count x := hcount
      have hentry' : t.instanceStorage.get (.verificationCount x) ≠ none ↔
          s'.instanceStorage.get (.verificationCount x) ≠ none ∨
            x ∈ (answeredTrue proofs bs').map (ProofItem.inputsHash h) := hentry
      rw [hcount', hcount₁, hentry', hentry₁]
      cases flagOf r with
      | false => simp
      | true =>
          by_cases hx : item.inputsHash h = x
          · subst hx
            simp
            omega
          · have hx' : ¬ x = item.inputsHash h := fun heq => hx heq.symm
            simp [hx, hx']

/-- One transaction increments, for each item it verified, the counter of the item's inputs. -/
theorem counters_of_exec (h : Host) (ledger : UInt32) {s : State Address} (hwf : WellFormed s)
    (tx : Tx Address) (x : BytesN 32) :
    let verified := verifiedBy ⟨⟨ledger, s⟩, .tx tx, some (exec h ledger s tx).1⟩
    ((exec h ledger s tx).2.verificationCount x).toNat = (s.verificationCount x).toNat
        + (verified.map (ProofItem.inputsHash h)).count x ∧
      ((exec h ledger s tx).2.instanceStorage.get (.verificationCount x) ≠ none ↔
        s.instanceStorage.get (.verificationCount x) ≠ none ∨
          x ∈ verified.map (ProofItem.inputsHash h)) := by
  obtain ⟨limits, vk, hcfg⟩ := hwf.configured
  cases htx : tx.call.submission with
  | none =>
      have heff := admin_cases h ledger s tx htx
      have hsame := heff.verificationCount x
      simp only [verifiedBy, Event.items, htx, Option.map_none, Option.getD_none,
        answeredTrue_nil_left, List.map_nil, List.count_nil, List.not_mem_nil, or_false, hsame,
        Nat.add_zero, and_true]
      rw [State.verificationCount, hsame]
      rfl
  | some sub =>
      obtain ⟨caller, proofs⟩ := sub
      simp only [verifiedBy, Event.items, htx, Option.map_some, Option.getD_some]
      rcases submission_cases h ledger s tx htx with ⟨hno, hsame⟩ | ⟨-, -, hrun⟩
      · simp [answers_of_not_ok hno, hsame]
      · exact counters_of_submitAll hcfg hrun x

/-! ## Whole runs -/

/-- A step submitted an item that the checks after the rate limiter accept in the step's state. -/
def ValidSubmission (h : Host) (e : Step Address) (item : ProofItem) : Prop :=
  item ∈ e.input.items ∧
    ∃ vk, e.pre.state.vk = some vk ∧ item.verifies h e.pre.ledger vk = true

theorem verifies_of_answeredTrue {s t : State Address} {limits : Limits} {vk : VerifyingKey}
    (hcfg : Configured s limits vk) {caller : Address} {proofs : List ProofItem} {bs : List Bool}
    (hrun : submitAll h ledger caller (settleBatch h caller) proofs s = some (bs, t))
    {item : ProofItem} (hmem : item ∈ answeredTrue proofs bs) :
    item.verifies h ledger vk = true := by
  induction proofs generalizing s bs with
  | nil => simp at hmem
  | cons head proofs ih =>
      obtain ⟨r, s', bs', hone, hrest, rfl⟩ := submitAll_cons_eq_some.1 hrun
      have hframe : Frame s (settleBatch h caller head r s s') :=
        frame_of_settleBatch (frame_of_verifyOne hone)
      have hrec := ih (hcfg.of_frame hframe) hrest
      rw [answeredTrue_cons] at hmem
      split at hmem
      · next hflag =>
          rcases List.mem_cons.1 hmem with rfl | hlater
          · rw [ProofItem.verifies, itemVerdict_of_flagOf hcfg hone hflag]
            rfl
          · exact hrec hlater
      · exact hrec hmem

theorem validSubmission_of_verifiedBy {s : State Address} (hwf : WellFormed s) (tx : Tx Address)
    {item : ProofItem}
    (hmem : item ∈ verifiedBy ⟨⟨ledger, s⟩, .tx tx, some (exec h ledger s tx).1⟩) :
    ValidSubmission h ⟨⟨ledger, s⟩, .tx tx, some (exec h ledger s tx).1⟩ item := by
  refine ⟨mem_of_mem_answeredTrue hmem, ?_⟩
  obtain ⟨limits, vk, hcfg⟩ := hwf.configured
  refine ⟨vk, hcfg.vk_eq, ?_⟩
  cases htx : tx.call.submission with
  | none => simp [verifiedBy, Event.items, htx] at hmem
  | some sub =>
      obtain ⟨caller, proofs⟩ := sub
      simp only [verifiedBy, Event.items, htx, Option.map_some, Option.getD_some] at hmem
      rcases submission_cases h ledger s tx htx with ⟨hno, -⟩ | ⟨-, -, hrun⟩
      · simp [answers_of_not_ok hno] at hmem
      · exact verifies_of_answeredTrue hcfg hrun hmem

/-- The counters agree with the verifications of the trace: an entry exists for every inputs hash
    that was verified and holds the number of its verifications. -/
def CountersExact (h : Host) (tr : List (Step Address)) (s : State Address) : Prop :=
  ∀ x, (s.verificationCount x).toNat = ((verifications h tr).map Prod.snd).count x ∧
    (s.instanceStorage.get (.verificationCount x) ≠ none ↔
      x ∈ (verifications h tr).map Prod.snd)

/-- What a run keeps: the state is well formed, its counters are exact, and every verification was
    of a valid submission. -/
def HistoryInv (h : Host) (tr : List (Step Address)) (w : World Address) : Prop :=
  WellFormed w.state ∧ CountersExact h tr w.state ∧
    ∀ v ∈ verifications h tr, ∃ e ∈ tr, ∃ item, ValidSubmission h e item ∧
      v = (combination e.pre.state item, item.inputsHash h)

omit [DecidableEq Address] in
theorem verifications_concat (tr : List (Step Address)) (e : Step Address) :
    verifications h (tr ++ [e]) = verifications h tr ++ (verifiedBy e).map fun item =>
      (combination e.pre.state item, item.inputsHash h) := by
  simp [verifications]

theorem historyInv_step {tr : List (Step Address)} {w : World Address}
    (hinv : HistoryInv h tr w) (event : Event Address) :
    HistoryInv h (tr ++ [⟨w, event, ((machine h).step w event).1⟩])
      ((machine h).step w event).2 := by
  obtain ⟨hwf, hexact, hvalid⟩ := hinv
  cases event with
  | advance target =>
      -- time passing verifies nothing
      have hsame : verifications h (tr ++ [⟨w, .advance target, none⟩]) = verifications h tr := by
        simp [verifications_concat, verifiedBy, Event.items]
      simp only [machine]
      refine ⟨hwf, fun x => by rw [hsame]; exact hexact x, fun v hv => ?_⟩
      rw [hsame] at hv
      obtain ⟨e, he, item, hitem⟩ := hvalid v hv
      exact ⟨e, List.mem_append_left _ he, item, hitem⟩
  | tx tx =>
      obtain ⟨ledger, s⟩ := w
      refine ⟨wellFormed_exec hwf tx, fun x => ?_, fun v hv => ?_⟩
      · obtain ⟨hcount, hentry⟩ := counters_of_exec h ledger hwf tx x
        obtain ⟨hold, hold'⟩ := hexact x
        rw [verifications_concat, List.map_append, List.map_map, List.count_append, List.mem_append,
          ← hold, ← hold']
        exact ⟨hcount, hentry⟩
      · rw [verifications_concat, List.mem_append] at hv
        rcases hv with hold | hnew
        · obtain ⟨e, he, item, hitem⟩ := hvalid v hold
          exact ⟨e, List.mem_append_left _ he, item, hitem⟩
        · obtain ⟨item, hitem, rfl⟩ := List.mem_map.1 hnew
          exact ⟨_, List.mem_append_right _ (List.mem_singleton_self _), item,
            validSubmission_of_verifiedBy hwf tx hitem, rfl⟩

theorem historyInv_run {admin : Address} {maxCalls windowSize : UInt32} {vk : VerifyingKey}
    {s : State Address} (hs : construct admin maxCalls windowSize vk = some s) (ledger : UInt32)
    (events : List (Event Address)) :
    HistoryInv h ((machine h).trace ⟨ledger, s⟩ events) ((machine h).run ⟨ledger, s⟩ events) := by
  refine (machine h).run_induction (P := HistoryInv h) ⟨wellFormed_construct hs, fun x => ?_, ?_⟩
    (fun tr w event hinv => historyInv_step hinv event) events
  · unfold construct at hs
    split at hs
    · cases hs
      simp [State.verificationCount, verifications]
    · cases hs
  · simp [verifications]

/-! ## Counters against combinations -/

/-- No combination is recorded with two different lists of public inputs. -/
def OneExpiry (tr : List (Step Address)) : Prop :=
  ∀ e ∈ tr, ∀ e' ∈ tr, ∀ a ∈ verifiedBy e, ∀ b ∈ verifiedBy e',
    combination e.pre.state a = combination e'.pre.state b → a.publicInputs = b.publicInputs

theorem toFinset_map_eq_image {α β : Type} [DecidableEq α] [DecidableEq β] (f : α → β)
    (l : List α) : (l.map f).toFinset = l.toFinset.image f := by
  ext y
  simp

/-- **Counters are bounded by what was proved**, in every run in which no combination of stored
    key, proof bytes and circuit input is recorded with two expiry ledgers: verifications of one
    combination increment one counter, there are no more counters than combinations, and each
    verification is of an item that was submitted and passed the checks. -/
theorem counters_bounded (h : Host) (admin : Address) (maxCalls windowSize : UInt32)
    (vk : VerifyingKey) (s : State Address)
    (hs : construct admin maxCalls windowSize vk = some s) (ledger : UInt32)
    (events : List (Event Address))
    (hone : OneExpiry ((machine h).trace ⟨ledger, s⟩ events)) :
    let tr := (machine h).trace ⟨ledger, s⟩ events
    let t := ((machine h).run ⟨ledger, s⟩ events).state
    CountersExact h tr t ∧
    (∀ v ∈ verifications h tr, ∀ v' ∈ verifications h tr, v.1 = v'.1 → v.2 = v'.2) ∧
    (∃ keys : Finset (BytesN 32),
      (∀ x, x ∈ keys ↔ t.instanceStorage.get (.verificationCount x) ≠ none) ∧
      keys.card ≤ ((verifications h tr).map Prod.fst).toFinset.card) ∧
    ∀ v ∈ verifications h tr, ∃ e ∈ tr, ∃ item, ValidSubmission h e item ∧
      v = (combination e.pre.state item, item.inputsHash h) := by
  intro tr t
  obtain ⟨-, hexact, hvalid⟩ : HistoryInv h tr ⟨_, t⟩ := historyInv_run hs ledger events
  -- one expiry for each combination makes its inputs hash, and so its counter, one
  have hsame : ∀ v ∈ verifications h tr, ∀ v' ∈ verifications h tr, v.1 = v'.1 → v.2 = v'.2 := by
    intro v hv v' hv' hcomb
    simp only [verifications, List.mem_flatMap, List.mem_map] at hv hv'
    obtain ⟨e, he, a, ha, rfl⟩ := hv
    obtain ⟨e', he', b, hb, rfl⟩ := hv'
    simp only [ProofItem.inputsHash, hone e he e' he' a ha b hb hcomb]
  refine ⟨hexact, hsame, ⟨((verifications h tr).map Prod.snd).toFinset, fun x => ?_, ?_⟩, hvalid⟩
  · rw [List.mem_toFinset, (hexact x).2]
  · -- the combination of a verification determines it
    have hinj : Set.InjOn Prod.fst (((verifications h tr).toFinset :
        Finset (Combination × BytesN 32)) : Set (Combination × BytesN 32)) := by
      intro v hv v' hv' hcomb
      rw [Finset.mem_coe, List.mem_toFinset] at hv hv'
      exact Prod.ext hcomb (hsame v hv v' hv' hcomb)
    calc ((verifications h tr).map Prod.snd).toFinset.card
        = ((verifications h tr).toFinset.image Prod.snd).card := by
          rw [toFinset_map_eq_image]
      _ ≤ (verifications h tr).toFinset.card := Finset.card_image_le
      _ = ((verifications h tr).toFinset.image Prod.fst).card :=
          (Finset.card_image_of_injOn hinj).symm
      _ = ((verifications h tr).map Prod.fst).toFinset.card := by
          rw [toFinset_map_eq_image]

/-- Submit all-zero proofs one by one. -/
def zeroRun (items : List ProofItem) : List (Event Unit) :=
  items.map fun item => .tx (signed (.verifyProof () item))

/-- A run that submits one combination twice: its one counter is at two. -/
theorem counters_bounded_zeroRun :
    let tr := (machine Host.scalar).trace ⟨50, zeroState 5 17280⟩
      (zeroRun [zeroItem 7 100, zeroItem 7 100])
    let t := ((machine Host.scalar).run ⟨50, zeroState 5 17280⟩
      (zeroRun [zeroItem 7 100, zeroItem 7 100])).state
    (verifications Host.scalar tr).length = 2 ∧
      t.verificationCount ((zeroItem 7 100).inputsHash Host.scalar) = 2 ∧
      ∃ keys : Finset (BytesN 32),
        (∀ x, x ∈ keys ↔ t.instanceStorage.get (.verificationCount x) ≠ none) ∧ keys.card ≤ 1 := by
  obtain ⟨-, -, ⟨keys, hkeys, hcard⟩, -⟩ := counters_bounded Host.scalar () 5 17280 (.zero 1)
    (zeroState 5 17280) (construct_zero (by decide)) 50 (zeroRun [zeroItem 7 100, zeroItem 7 100])
    (by unfold OneExpiry; decide +kernel)
  have hone : ((verifications Host.scalar ((machine Host.scalar).trace ⟨50, zeroState 5 17280⟩
      (zeroRun [zeroItem 7 100, zeroItem 7 100]))).map Prod.fst).toFinset.card = 1 := by
    decide +kernel
  dsimp only
  exact ⟨by decide +kernel, by decide +kernel, keys, hkeys, hcard.trans_eq hone⟩

/-- One key, one proof and one circuit input, submitted with two expiry ledgers: two counters. -/
theorem zeroRun_two_counters :
    let tr := (machine Host.scalar).trace ⟨50, zeroState 5 17280⟩
      (zeroRun [zeroItem 7 100, zeroItem 7 101])
    let t := ((machine Host.scalar).run ⟨50, zeroState 5 17280⟩
      (zeroRun [zeroItem 7 100, zeroItem 7 101])).state
    ¬ (∀ v ∈ verifications Host.scalar tr, ∀ v' ∈ verifications Host.scalar tr,
        v.1 = v'.1 → v.2 = v'.2) ∧
      ((verifications Host.scalar tr).map Prod.fst).toFinset.card = 1 ∧
      (zeroItem 7 100).inputsHash Host.scalar ≠ (zeroItem 7 101).inputsHash Host.scalar ∧
      t.verificationCount ((zeroItem 7 100).inputsHash Host.scalar) = 1 ∧
      t.verificationCount ((zeroItem 7 101).inputsHash Host.scalar) = 1 := by
  refine ⟨by decide +kernel, by decide +kernel, by decide +kernel, by decide +kernel,
    by decide +kernel⟩

end ZkStellar.Verifier

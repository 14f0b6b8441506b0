import ZkStellar.Verifier.Batch

set_option autoImplicit false

/-! # When a verifier batch runs through

A batch of a caller with access answers each item with one flag and one event, and says `true` only
of valid items. It runs through exactly when nothing traps on the way (`Processable`): the items
within the caller's budget must parse and find room in their counters, and beyond the budget the
limiter's own addition must not overflow. One item of wrong length within the budget is enough to
trap the whole call. -/

namespace ZkStellar.Verifier

variable {Address : Type} [DecidableEq Address] {h : Host} {ledger : UInt32}

/-! ## Shape of the answer -/

section Shape

variable {caller : Address} {proofs : List ProofItem} {s t : State Address} {bs : List Bool}

theorem length_of_submitAll
    {settle : ProofItem → Except Error Bool → State Address → State Address → State Address}
    (hrun : submitAll h ledger caller settle proofs s = some (bs, t)) :
    bs.length = proofs.length := by
  induction proofs generalizing s bs with
  | nil =>
      cases hrun
      rfl
  | cons item proofs ih =>
      obtain ⟨r, s', bs', hone, hrest, rfl⟩ := submitAll_cons_eq_some.1 hrun
      simp [ih hrest]

/-- The event published for an item. -/
def itemEvent (h : Host) (caller : Address) (item : ProofItem) (success : Bool) :
    VerificationResult Address :=
  ⟨success, caller, computeInputsHash h item.publicInputs⟩

theorem events_of_verifyOne {limits : Limits} {vk : VerifyingKey} (hcfg : Configured s limits vk)
    {item : ProofItem} {r : Except Error Bool} {s' : State Address}
    (hrun : verifyOne h ledger caller item s = some (r, s')) : s'.events = s.events := by
  cases verifyOne_cases hcfg hrun <;> rfl

theorem events_of_submitAll {limits : Limits} {vk : VerifyingKey} (hcfg : Configured s limits vk)
    (hrun : submitAll h ledger caller (settleBatch h caller) proofs s = some (bs, t)) :
    t.events = s.events ++ List.zipWith (itemEvent h caller) proofs bs := by
  induction proofs generalizing s bs with
  | nil =>
      cases hrun
      simp
  | cons item proofs ih =>
      obtain ⟨r, s', bs', hone, hrest, rfl⟩ := submitAll_cons_eq_some.1 hrun
      have hframe : Frame s (settleBatch h caller item r s s') :=
        frame_of_settleBatch (frame_of_verifyOne hone)
      rw [ih (hcfg.of_frame hframe) hrest]
      simp only [settleBatch, publishVerificationResult, State.publish,
        events_of_verifyOne hcfg hone, List.append_assoc, List.zipWith_cons_cons]
      rfl

/-- The item has two inputs, its proof and the stored key parse, and the equation holds. -/
def ValidItem (h : Host) (vk : VerifyingKey) (item : ProofItem) : Prop :=
  ∃ π K publicInput expiry, item.points h = some π ∧ vk.points h = some K ∧
    item.publicInputs = [publicInput, expiry] ∧
    Groth16.Accepts h.pairing K π [Fr.fromBytes publicInput]

omit [DecidableEq Address] in
theorem validItem_of_verdict {vk : VerifyingKey} (harity : vk.ic.length = expectedPublicInputCount)
    {item : ProofItem} (hverdict : itemVerdict h ledger vk item = some (.ok true)) :
    ValidItem h vk item := by
  unfold itemVerdict at hverdict
  split at hverdict
  · split at hverdict
    · cases hverdict
    · cases hverdict
    · next x hkind =>
        obtain ⟨expiry, -, hxs, -⟩ := ProofItem.kind_eq_inDate_iff.1 hkind
        simp only [Option.map_eq_some_iff, Except.ok.injEq, exists_eq_right] at hverdict
        obtain ⟨π, K, hπ, hK, hacc⟩ := (pairingVerdict_eq_some_iff harity).1 hverdict
        exact ⟨π, K, x, expiry, hπ, hK, hxs, hacc.1 rfl⟩
  · cases hverdict

theorem validItem_of_submitAll
    {settle : ProofItem → Except Error Bool → State Address → State Address → State Address}
    {charge : Except Error Bool → Bool} (hsettle : Settles charge settle)
    {limits : Limits} {vk : VerifyingKey} (hcfg : Configured s limits vk)
    (hrun : submitAll h ledger caller settle proofs s = some (bs, t)) {i : ℕ} {item : ProofItem}
    (hitem : proofs[i]? = some item) (htrue : bs[i]? = some true) : ValidItem h vk item := by
  induction proofs generalizing s bs i with
  | nil => simp at hitem
  | cons head proofs ih =>
      obtain ⟨r, s', bs', hone, hrest, rfl⟩ := submitAll_cons_eq_some.1 hrun
      cases i with
      | zero =>
          simp only [List.getElem?_cons_zero, Option.some.injEq] at hitem htrue
          subst hitem
          exact validItem_of_verdict hcfg.arity (itemVerdict_of_flagOf hcfg hone htrue)
      | succ i =>
          exact ih (hcfg.of_frame (hsettle.frame head r s s' (frame_of_verifyOne hone))) hrest
            hitem htrue

end Shape

/-! ## When nothing traps -/

/-- What an item must satisfy once it has passed the limiter: the lengths are right, and if the
    item is in date then its proof and the stored key parse. -/
def ProofItem.Parses (h : Host) (ledger : UInt32) (vk : VerifyingKey) (item : ProofItem) : Prop :=
  item.WellSized ∧ ∀ publicInput, item.kind ledger = .inDate publicInput →
    item.points h ≠ none ∧ vk.points h ≠ none

theorem itemVerdict_ne_none_iff {vk : VerifyingKey}
    (harity : vk.ic.length = expectedPublicInputCount) {item : ProofItem} :
    itemVerdict h ledger vk item ≠ none ↔ item.Parses h ledger vk := by
  have hpairing : ∀ x, pairingVerdict h vk item x ≠ none ↔
      item.points h ≠ none ∧ vk.points h ≠ none := by
    intro x
    constructor
    · intro hsome
      obtain ⟨v, hv⟩ := Option.ne_none_iff_exists'.1 hsome
      obtain ⟨π, K, hπ, hK, -⟩ := (pairingVerdict_eq_some_iff harity).1 hv
      simp [hπ, hK]
    · rintro ⟨hπ, hK⟩
      obtain ⟨π, hπ⟩ := Option.ne_none_iff_exists'.1 hπ
      obtain ⟨K, hK⟩ := Option.ne_none_iff_exists'.1 hK
      obtain ⟨ic₀, ic₁, hic⟩ := exists_ic_of_points harity hK
      simp [pairingVerdict, hπ, hK, hic]
  unfold itemVerdict ProofItem.Parses
  by_cases hsized : item.WellSized
  · rw [if_pos hsized]
    cases item.kind ledger with
    | malformed => simp [hsized]
    | expired => simp [hsized]
    | inDate x => simpa [hsized, Option.map_eq_none_iff] using hpairing x
  · simp [hsized]

/-- No item of a batch traps, from `count` calls counted and `recorded` verifications recorded: an
    item that still passes the limiter finds its entry extendable, parses, and if it verifies its
    counter has room after the earlier items with the same inputs; and if an item comes after the
    limit is reached, the count is below its maximum. -/
def Processable (h : Host) (ledger : UInt32) (limits : Limits) (vk : VerifyingKey) (count : ℕ)
    (recorded : BytesN 32 → ℕ) (proofs : List ProofItem) : Prop :=
  ∀ pre item post, proofs = pre ++ item :: post →
    (count + pre.length < limits.maxCalls.toNat →
      h.canExtend ledger limits.windowSize = true ∧ item.Parses h ledger vk ∧
      (item.verifies h ledger vk = true → recorded (item.inputsHash h)
        + (pre.countP fun e =>
            e.verifies h ledger vk && decide (e.inputsHash h = item.inputsHash h))
        + 1 < 2 ^ 64)) ∧
    (limits.maxCalls.toNat ≤ count + pre.length →
      max count limits.maxCalls.toNat ≠ maxCount.toNat)

omit [DecidableEq Address] in
theorem processable_cons_of_full {limits : Limits} {vk : VerifyingKey} {count : ℕ}
    {recorded : BytesN 32 → ℕ} {item : ProofItem} {proofs : List ProofItem}
    (hfull : limits.maxCalls.toNat ≤ count) :
    Processable h ledger limits vk count recorded (item :: proofs) ↔
      count ≠ maxCount.toNat ∧ Processable h ledger limits vk count recorded proofs := by
  have hmax : max count limits.maxCalls.toNat = count := max_eq_left hfull
  constructor
  · intro hall
    refine ⟨?_, fun pre e post hsplit => ⟨fun hlt => by omega, fun _ => ?_⟩⟩
    · have hhead := (hall [] item proofs rfl).2 (by simpa using hfull)
      rwa [hmax] at hhead
    · exact (hall (item :: pre) e post (by simp [hsplit])).2 (by omega)
  · rintro ⟨hne, -⟩ pre e post -
    exact ⟨fun hlt => by omega, fun _ => by rwa [hmax]⟩

theorem processable_cons_of_room {limits : Limits} {vk : VerifyingKey} {count : ℕ}
    {recorded recorded' : BytesN 32 → ℕ} {item : ProofItem} {proofs : List ProofItem}
    (hroom : count < limits.maxCalls.toNat)
    (hrecorded : ∀ x, recorded' x = recorded x
      + if item.verifies h ledger vk && decide (item.inputsHash h = x) then 1 else 0) :
    Processable h ledger limits vk count recorded (item :: proofs) ↔
      (h.canExtend ledger limits.windowSize = true ∧ item.Parses h ledger vk ∧
        (item.verifies h ledger vk = true → recorded (item.inputsHash h) + 1 < 2 ^ 64)) ∧
      Processable h ledger limits vk (count + 1) recorded' proofs := by
  have hmax : max (count + 1) limits.maxCalls.toNat = max count limits.maxCalls.toNat := by omega
  -- the head's contribution moves from the prefix to the recorded numbers
  have hcount : ∀ pre x, recorded' x
        + (pre.countP fun e => e.verifies h ledger vk && decide (e.inputsHash h = x))
      = recorded x + ((item :: pre).countP fun e =>
          e.verifies h ledger vk && decide (e.inputsHash h = x)) := by
    intro pre x
    rw [List.countP_cons, hrecorded]
    omega
  constructor
  · intro hall
    refine ⟨?_, fun pre e post hsplit => ?_⟩
    · simpa using (hall [] item proofs rfl).1 (by simpa using hroom)
    · obtain ⟨hpass, hlimit⟩ := hall (item :: pre) e post (by simp [hsplit])
      simp only [List.length_cons] at hpass hlimit
      refine ⟨fun hlt => ?_, fun hle => ?_⟩
      · rw [hcount]
        exact hpass (by omega)
      · rw [hmax]
        exact hlimit (by omega)
  · rintro ⟨hhead, hall⟩ pre e post hsplit
    cases pre with
    | nil =>
        simp only [List.nil_append, List.cons.injEq] at hsplit
        obtain ⟨rfl, -⟩ := hsplit
        exact ⟨fun _ => by simpa using hhead, fun hle => by simp at hle; omega⟩
    | cons e' pre =>
        simp only [List.cons_append, List.cons.injEq] at hsplit
        obtain ⟨rfl, hrest⟩ := hsplit
        obtain ⟨hpass, hlimit⟩ := hall pre e post hrest
        rw [hmax] at hlimit
        rw [hcount] at hpass
        simp only [List.length_cons]
        exact ⟨fun hlt => hpass (by omega), fun hle => hlimit (by omega)⟩

section Room

variable {s s' : State Address} {limits : Limits} {vk : VerifyingKey} {caller : Address}
  {item : ProofItem}

/-- `verify_one` on an item that passes the limiter. -/
theorem verifyOne_of_room (hcfg : Configured s limits vk)
    (haccess : checkAccess s caller = .ok ())
    (hmax : s.windowCount ledger caller limits ≠ maxCount)
    (hroom : s.windowCount ledger caller limits < limits.maxCalls)
    (hextend : h.canExtend ledger limits.windowSize = true) :
    verifyOne h ledger caller item s
      = match itemVerdict h ledger vk item with
        | none => none
        | some (.error e) => some (.error e, counted h ledger caller limits s)
        | some (.ok false) => some (.ok false, counted h ledger caller limits s)
        | some (.ok true) =>
            (afterRecord h item (counted h ledger caller limits s)).map fun s => (.ok true, s) := by
  rw [verifyOne_eq hcfg, haccess,
    (countCall_eq_ok hcfg.windowSize_ne).2 ⟨hmax, hroom, hextend, rfl⟩]
  rfl

/-- Such an item does not trap exactly when its entry can be extended, it parses, and its counter
    has room if it verifies. -/
theorem verifyOne_ne_none_iff_of_room (hcfg : Configured s limits vk)
    (haccess : checkAccess s caller = .ok ())
    (hmax : s.windowCount ledger caller limits ≠ maxCount)
    (hroom : s.windowCount ledger caller limits < limits.maxCalls) (item : ProofItem) :
    verifyOne h ledger caller item s ≠ none ↔
      h.canExtend ledger limits.windowSize = true ∧ item.Parses h ledger vk ∧
        (item.verifies h ledger vk = true →
          (s.verificationCount (item.inputsHash h)).toNat + 1 < 2 ^ 64) := by
  by_cases hextend : h.canExtend ledger limits.windowSize = true
  · rw [verifyOne_of_room hcfg haccess hmax hroom hextend, ← itemVerdict_ne_none_iff hcfg.arity,
      ProofItem.verifies]
    rcases itemVerdict h ledger vk item with _ | e | _ | _
    · simp
    · simp [hextend, okVerdict]
    · simp [hextend, okVerdict]
    · -- only an item that verifies can trap on its counter
      have hafter : afterRecord h item (counted h ledger caller limits s) ≠ none ↔
          (s.verificationCount (item.inputsHash h)).toNat + 1 < 2 ^ 64 := by
        rw [Option.ne_none_iff_exists']
        constructor
        · rintro ⟨s', hs'⟩
          exact (afterRecord_eq_some.1 hs').1
        · intro hlt
          exact ⟨_, afterRecord_eq_some.2 ⟨hlt, rfl⟩⟩
      simp only [ne_eq, Option.map_eq_none_iff] at hafter ⊢
      simp [hextend, okVerdict, hafter]
  · -- an entry the host cannot extend traps in the limiter, before any verdict
    have hone : verifyOne h ledger caller item s = none := by
      rw [verifyOne_eq hcfg, haccess, countCall_eq hcfg.windowSize_ne]
      simp only [State.windowCount] at hmax hroom
      simp [hmax, UInt32.not_le.2 hroom, hextend]
    simp [hone, hextend]

/-- What such an item adds to the counters. -/
theorem counts_of_verifyOne_of_room (hcfg : Configured s limits vk)
    (haccess : checkAccess s caller = .ok ())
    (hroom : s.windowCount ledger caller limits < limits.maxCalls) {r : Except Error Bool}
    (hrun : verifyOne h ledger caller item s = some (r, s')) :
    (s'.windowCount ledger caller limits).toNat
        = (s.windowCount ledger caller limits).toNat + 1 ∧
      ∀ x, (s'.verificationCount x).toNat = (s.verificationCount x).toNat
        + if item.verifies h ledger vk && decide (item.inputsHash h = x) then 1 else 0 := by
  cases verifyOne_cases hcfg hrun with
  | denied e hdenied =>
      rw [haccess] at hdenied
      cases hdenied
  | limited _ hfull => exact absurd hroom (UInt32.not_lt.2 hfull)
  | refused _ _ hmax _ hextend hverdict hr =>
      have hfalse : item.verifies h ledger vk = false := by
        rw [ProofItem.verifies, hverdict, okVerdict_some, flagOf_eq_false hr]
      refine ⟨by rw [windowCount_counted hextend, toNat_add_one_of_ne hmax], ?_⟩
      intro x
      simp only [hfalse, Bool.false_and, Bool.false_eq_true, if_false, Nat.add_zero]
      rfl
  | verified _ hmax _ hextend hverdict hcounter =>
      have htrue : item.verifies h ledger vk = true := by
        rw [ProofItem.verifies, hverdict]
        rfl
      refine ⟨?_, fun x => ?_⟩
      · rw [← toNat_add_one_of_ne hmax, ← windowCount_counted hextend]
        rfl
      · rw [toNat_verificationCount_recorded (s := counted h ledger caller limits s) hcounter,
          htrue]
        simp only [Bool.true_and, decide_eq_true_eq]
        rfl

end Room

/-- A batch of a caller with access runs through exactly when its items are processable. -/
theorem submitAll_ne_none_iff {s : State Address} {limits : Limits} {vk : VerifyingKey}
    (hcfg : Configured s limits vk) {caller : Address} (haccess : checkAccess s caller = .ok ())
    {proofs : List ProofItem} :
    submitAll h ledger caller (settleBatch h caller) proofs s ≠ none ↔
      Processable h ledger limits vk (s.windowCount ledger caller limits).toNat
        (fun x => (s.verificationCount x).toNat) proofs := by
  induction proofs generalizing s with
  | nil =>
      simp only [submitAll, ne_eq, reduceCtorEq, not_false_eq_true, true_iff]
      intro pre item post hsplit
      simp at hsplit
  | cons item proofs ih =>
      have htrap : verifyOne h ledger caller item s = none →
          submitAll h ledger caller (settleBatch h caller) (item :: proofs) s = none := by
        intro hone
        simp [submitAll, hone]
      -- what remains once the item has ended in `r` with storage as in `s'`
      have hstep : ∀ r s', verifyOne h ledger caller item s = some (r, s') →
          (submitAll h ledger caller (settleBatch h caller) (item :: proofs) s ≠ none ↔
            Processable h ledger limits vk (s'.windowCount ledger caller limits).toNat
              (fun x => (s'.verificationCount x).toNat) proofs) := by
        intro r s' hone
        have hframe : Frame s (settleBatch h caller item r s s') :=
          frame_of_settleBatch (frame_of_verifyOne hone)
        rw [submitAll, hone]
        simp only [ne_eq, Option.map_eq_none_iff]
        exact ih (hcfg.of_frame hframe) ((hframe.checkAccess caller).trans haccess)
      by_cases hfull : limits.maxCalls ≤ s.windowCount ledger caller limits
      · -- beyond the limit an item traps only if counting it would overflow
        rw [processable_cons_of_full (UInt32.le_iff_toNat_le.1 hfull)]
        by_cases hmax : s.windowCount ledger caller limits = maxCount
        · have hone : verifyOne h ledger caller item s = none := by
            rw [verifyOne_eq hcfg, haccess, countCall_eq hcfg.windowSize_ne]
            simp only [State.windowCount] at hmax
            simp [hmax]
          simp [htrap hone, hmax]
        · have hone : verifyOne h ledger caller item s = some (.error .rateLimitExceeded, s) := by
            rw [verifyOne_eq hcfg, haccess, (countCall_eq_error hcfg.windowSize_ne).2
              ⟨hmax, hfull, rfl, rfl⟩]
          have hne : (s.windowCount ledger caller limits).toNat ≠ maxCount.toNat :=
            fun heq => hmax (UInt32.toNat_inj.1 heq)
          rw [hstep _ _ hone, and_iff_right hne]
      · have hroom : s.windowCount ledger caller limits < limits.maxCalls := UInt32.not_le.1 hfull
        have hroom' := UInt32.lt_iff_toNat_lt.1 hroom
        have hmax : s.windowCount ledger caller limits ≠ maxCount := by
          intro hmax
          have hlt := limits.maxCalls.toNat_lt
          rw [hmax, show maxCount.toNat = 4294967295 from rfl] at hroom'
          omega
        have hiff := verifyOne_ne_none_iff_of_room (h := h) hcfg haccess hmax hroom item
        cases hone : verifyOne h ledger caller item s with
        | none =>
            rw [hone] at hiff
            rw [processable_cons_of_room hroom' (fun _ => rfl), ← hiff]
            simp [htrap hone]
        | some out =>
            obtain ⟨r, s'⟩ := out
            obtain ⟨hcount, hverified⟩ := counts_of_verifyOne_of_room hcfg haccess hroom hone
            rw [hone] at hiff
            rw [processable_cons_of_room hroom' hverified, ← hiff, hstep _ _ hone, hcount]
            simp

/-! ## The whole answer -/

/-- What a batch call promises: it returns one flag per item in order, publishes one event per item
    with that flag, and answers an invalid item with `false`. -/
def BatchIsolated (h : Host) (ledger : UInt32) (auth : Address → Bool) (caller : Address)
    (s : State Address) (proofs : List ProofItem) : Prop :=
  ∃ results s', exec h ledger s ⟨auth, .verifyBatch caller proofs⟩ = (.ok (.flags results), s') ∧
    results.length = proofs.length ∧
    s'.events = s.events ++ List.zipWith (itemEvent h caller) proofs results ∧
    ∀ (i : ℕ) item, proofs[i]? = some item → (∀ vk, s.vk = some vk → ¬ ValidItem h vk item) →
      results[i]? = some false

theorem batchIsolated_iff_runs {s : State Address} {limits : Limits} {vk : VerifyingKey}
    (hcfg : Configured s limits vk) (hpaused : s.isPaused = false) {auth : Address → Bool}
    {caller : Address} (hauth : auth caller = true) {proofs : List ProofItem} :
    BatchIsolated h ledger auth caller s proofs ↔
      submitAll h ledger caller (settleBatch h caller) proofs s ≠ none := by
  unfold BatchIsolated
  rw [exec_verifyBatch, if_pos hauth, verifyBatchLoop_eq hcfg hpaused]
  constructor
  · rintro ⟨results, s', hexec, -⟩ hnone
    simp [hnone] at hexec
  · intro hsome
    obtain ⟨⟨bs, t⟩, hrun⟩ := Option.ne_none_iff_exists'.1 hsome
    refine ⟨bs, t, by simp [hrun], length_of_submitAll hrun, events_of_submitAll hcfg hrun, ?_⟩
    intro i item hitem hinvalid
    have hlt : i < bs.length := by
      rw [length_of_submitAll hrun]
      exact (List.getElem?_eq_some_iff.1 hitem).1
    rw [List.getElem?_eq_getElem hlt, Option.some.injEq]
    cases hb : bs[i] with
    | false => rfl
    | true =>
        exact absurd (validItem_of_submitAll (settles_settleBatch caller) hcfg hrun hitem
          (by rw [List.getElem?_eq_getElem hlt, hb])) (hinvalid vk hcfg.vk_eq)

/-- On a configured contract that is not paused, for a caller who authorised the call. -/
theorem batchIsolated_iff {s : State Address} {limits : Limits} {vk : VerifyingKey}
    (hcfg : Configured s limits vk) (hpaused : s.isPaused = false) {auth : Address → Bool}
    {caller : Address} (hauth : auth caller = true) {proofs : List ProofItem} :
    BatchIsolated h ledger auth caller s proofs ↔
      ((s.allowlistEnabled = true → s.isAllowlisted caller = true) →
        Processable h ledger limits vk (s.windowCount ledger caller limits).toNat
          (fun x => (s.verificationCount x).toNat) proofs) := by
  rw [batchIsolated_iff_runs hcfg hpaused hauth]
  cases haccess : checkAccess s caller with
  | ok _ =>
      rw [submitAll_ne_none_iff hcfg haccess, forall_prop_of_true (checkAccess_eq_ok.1 haccess).2]
  | error e =>
      obtain ⟨t, hrun, -⟩ : ∃ t, submitAll h ledger caller (settleBatch h caller) proofs s
          = some (List.replicate proofs.length false, t) ∧ _ :=
        submitAll_denied (settles_settleBatch caller) hcfg haccess proofs
      have hdenied : ¬ (s.allowlistEnabled = true → s.isAllowlisted caller = true) := by
        intro hlist
        rw [checkAccess_eq_ok.2 ⟨hpaused, hlist⟩] at haccess
        cases haccess
      simp [hrun, hdenied]

end ZkStellar.Verifier

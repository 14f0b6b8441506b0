import ZkStellar.Verifier.Independence

set_option autoImplicit false

/-! # A verifier batch against the sequence of its items

Inside a batch an expired item keeps the unit of the caller's budget it was counted with; submitted
on its own it is rolled back. A batch therefore answers and counts as the sequence of its items does
exactly when that difference cannot show (`batchEqSequence_iff`): the caller is turned away
throughout, or no item has expired, or the unexpired items use the budget up by themselves and no
item that verifies comes between the two points where the budget runs out. With the largest
`max_calls` only the first two are left: past its limit the counter would overflow, and the batch
gets there first. -/

namespace ZkStellar.Verifier

variable {Address : Type} [DecidableEq Address] {h : Host}

/-- The transactions that submit some items one by one. -/
def submitEach (auth : Address → Bool) (caller : Address) (proofs : List ProofItem) :
    List (Event Address) :=
  proofs.map fun item => .tx ⟨auth, .verifyProof caller item⟩

/-- `Ok(b)` read as `b`, everything else as `false`. -/
def readFlag : Option (Outcome Error Reply) → Bool
  | some (.ok (.flag b)) => b
  | _ => false

/-- The batch returns what the items return one by one, and both ways end with the same counters. -/
def BatchEqSequence (h : Host) (auth : Address → Bool) (caller : Address) (w : World Address)
    (proofs : List ProofItem) : Prop :=
  let batch := exec h w.ledger w.state ⟨auth, .verifyBatch caller proofs⟩
  let outcomes := (machine h).outcomes w (submitEach auth caller proofs)
  let after := ((machine h).run w (submitEach auth caller proofs)).state
  batch.1 = .ok (.flags (outcomes.map readFlag)) ∧
    (∀ a start, batch.2.temporary.get (.callCount a start)
      = after.temporary.get (.callCount a start)) ∧
    ∀ x, batch.2.instanceStorage.get (.verificationCount x)
      = after.instanceStorage.get (.verificationCount x)

/-- The item passes the parsers and its expiry ledger has passed. -/
def ProofItem.isExpired (ledger : UInt32) (item : ProofItem) : Bool :=
  decide item.WellSized &&
    match item.kind ledger with
    | .expired => true
    | _ => false

/-- Only an expired item is not charged on its own. -/
theorem chargeVerdict_isOk (ledger : UInt32) (vk : VerifyingKey) (item : ProofItem) :
    chargeVerdict Except.isOk (itemVerdict h ledger vk item) = !item.isExpired ledger := by
  unfold itemVerdict ProofItem.isExpired
  by_cases hsized : item.WellSized
  · simp only [hsized, if_true, decide_true, Bool.true_and]
    cases item.kind ledger with
    | malformed => rfl
    | expired => rfl
    | inDate x =>
        cases hv : pairingVerdict h vk item x <;>
          simp [hv, chargeVerdict, Except.isOk, Except.toBool]
  · simp [hsized, chargeVerdict]

/-- The sequence of transactions, run to the end, is the metered submission that rolls back
    errors. -/
theorem submitAll_single {auth : Address → Bool} {caller : Address} (hauth : auth caller = true)
    (proofs : List ProofItem) (w : World Address)
    (hno : some .trap ∉ (machine h).outcomes w (submitEach auth caller proofs)) :
    submitAll h w.ledger caller (settleSingle h caller) proofs w.state
      = some (((machine h).outcomes w (submitEach auth caller proofs)).map readFlag,
          ((machine h).run w (submitEach auth caller proofs)).state) := by
  induction proofs generalizing w with
  | nil => rfl
  | cons item proofs ih =>
      obtain ⟨ledger, s⟩ := w
      simp only [submitEach, List.map_cons, Machine.outcomes, Machine.run, machine, List.mem_cons,
        not_or] at hno ih ⊢
      rw [submitAll]
      simp only [exec_verifyProof, hauth, if_true] at hno ⊢
      rcases hone : verifyOne h ledger caller item s with _ | ⟨e | b, s'⟩
      · simp [hone] at hno
      · simp only [hone] at hno ⊢
        rw [settleSingle, ih ⟨ledger, s⟩ hno.2]
        rfl
      · simp only [hone] at hno ⊢
        rw [settleSingle, ih ⟨ledger, publishVerificationResult h caller b item.publicInputs s'⟩
          hno.2]
        rfl

/-- A batch is the metered submission that keeps every counter. -/
theorem exec_verifyBatch_eq_submitAll {auth : Address → Bool} {caller : Address}
    (hauth : auth caller = true) {ledger : UInt32} {s : State Address} {limits : Limits}
    {vk : VerifyingKey} (hcfg : Configured s limits vk) (hpaused : s.isPaused = false)
    (proofs : List ProofItem) :
    exec h ledger s ⟨auth, .verifyBatch caller proofs⟩
      = match submitAll h ledger caller (settleBatch h caller) proofs s with
        | none => (.trap, s)
        | some (bs, t) => (.ok (.flags bs), t) := by
  rw [exec_verifyBatch, if_pos hauth, verifyBatchLoop_eq hcfg hpaused]
  cases submitAll h ledger caller (settleBatch h caller) proofs s with
  | none => rfl
  | some out => rfl

omit [DecidableEq Address] in
/-- Without a pause only an enforced allowlist keeps a caller out. -/
theorem denied_iff {s : State Address} {caller : Address} (hpaused : s.isPaused = false) :
    checkAccess s caller ≠ .ok () ↔
      s.allowlistEnabled = true ∧ s.isAllowlisted caller = false := by
  rw [ne_eq, checkAccess_eq_ok]
  simp [hpaused]

/-- Two ways of settling the same items agree on flags and counters exactly when charging every
    verdict and charging the accepted ones answer and spend the same. -/
theorem settled_eq_iff {ledger : UInt32} {s t u : State Address} {limits : Limits}
    {vk : VerifyingKey} (hcfg : Configured s limits vk) {caller : Address}
    (haccess : checkAccess s caller = .ok ()) {proofs : List ProofItem} {bs cs : List Bool}
    (hbatch : submitAll h ledger caller (settleBatch h caller) proofs s = some (bs, t))
    (hsingle : submitAll h ledger caller (settleSingle h caller) proofs s = some (cs, u)) :
    (bs = cs ∧ (∀ a start, t.temporary.get (.callCount a start)
          = u.temporary.get (.callCount a start)) ∧
        ∀ x, t.instanceStorage.get (.verificationCount x)
          = u.instanceStorage.get (.verificationCount x)) ↔
      Metered.answers okVerdict (fun _ => true) (s.budget ledger caller limits)
          (proofs.map (itemVerdict h ledger vk))
        = Metered.answers okVerdict (chargeVerdict Except.isOk) (s.budget ledger caller limits)
          (proofs.map (itemVerdict h ledger vk)) ∧
      Metered.spent (fun _ => true) (s.budget ledger caller limits)
          (proofs.map (itemVerdict h ledger vk))
        = Metered.spent (chargeVerdict Except.isOk) (s.budget ledger caller limits)
          (proofs.map (itemVerdict h ledger vk)) := by
  obtain ⟨hbs, htemp, hinst, hcount⟩ := submitAll_metered (settles_settleBatch caller) hcfg haccess
    hbatch
  obtain ⟨hcs, htemp', hinst', hcount'⟩ := submitAll_metered (settles_settleSingle caller) hcfg
    haccess hsingle
  -- in a batch every verdict is charged
  have hall : chargeVerdict (fun _ => true) = fun _ => true := by
    funext v
    cases v <;> rfl
  rw [hall] at hbs htemp hcount
  rw [← hbs, ← hcs]
  refine and_congr_right fun hflags => ⟨fun hentries => ?_, fun hspent => ?_⟩
  · -- the caller's own entry tells how much of the budget was spent
    have hsame : t.windowCount ledger caller limits = u.windowCount ledger caller limits :=
      windowCount_congr_get (hentries.1 caller _)
    have heq := congrArg UInt32.toNat hsame
    omega
  · rw [hspent, ← htemp'] at htemp
    rw [hflags, ← hinst'] at hinst
    exact ⟨fun a start => by rw [htemp], fun x => by rw [hinst]⟩

/-! ## When the batch runs through -/

/-- `verify_one` does not trap for a caller with access exactly when the count is below its maximum
    and, below the limit, the entry can be extended, the item parses, and its counter has room if it
    verifies. -/
theorem verifyOne_ne_none_iff {ledger : UInt32} {s : State Address} {limits : Limits}
    {vk : VerifyingKey} (hcfg : Configured s limits vk) {caller : Address}
    (haccess : checkAccess s caller = .ok ()) (item : ProofItem) :
    verifyOne h ledger caller item s ≠ none ↔
      s.windowCount ledger caller limits ≠ maxCount ∧
        (s.windowCount ledger caller limits < limits.maxCalls →
          h.canExtend ledger limits.windowSize = true ∧ item.Parses h ledger vk ∧
            (item.verifies h ledger vk = true →
              (s.verificationCount (item.inputsHash h)).toNat + 1 < 2 ^ 64)) := by
  by_cases hmax : s.windowCount ledger caller limits = maxCount
  · have hone : verifyOne h ledger caller item s = none := by
      rw [verifyOne_eq hcfg, haccess, countCall_eq hcfg.windowSize_ne]
      simp only [State.windowCount] at hmax
      simp [hmax]
    simp [hone, hmax]
  · by_cases hroom : s.windowCount ledger caller limits < limits.maxCalls
    · rw [verifyOne_ne_none_iff_of_room hcfg haccess hmax hroom]
      simp [hmax, hroom]
    · have hone : verifyOne h ledger caller item s = some (.error .rateLimitExceeded, s) := by
        rw [verifyOne_eq hcfg, haccess, (countCall_eq_error hcfg.windowSize_ne).2
          ⟨hmax, UInt32.not_lt.1 hroom, rfl, rfl⟩]
      simp [hone, hmax, hroom]

/-- What one item of a metered submission adds to the verification counters. -/
theorem verificationCount_settle {charge : Except Error Bool → Bool}
    {settle : ProofItem → Except Error Bool → State Address → State Address → State Address}
    (hsettle : Settles charge settle) {ledger : UInt32} {s s' : State Address} {limits : Limits}
    {vk : VerifyingKey} (hcfg : Configured s limits vk) {caller : Address}
    (haccess : checkAccess s caller = .ok ()) {item : ProofItem} {r : Except Error Bool}
    (hone : verifyOne h ledger caller item s = some (r, s')) (x : BytesN 32) :
    ((settle item r s s').verificationCount x).toNat = (s.verificationCount x).toNat
      + if flagOf r && decide (item.inputsHash h = x) then 1 else 0 := by
  obtain ⟨-, -, hinst, -⟩ := settle_metered hsettle hcfg haccess hone
  have hcongr : (settle item r s s').verificationCount x
      = (if flagOf r then recorded h item s else s).verificationCount x := by
    rw [State.verificationCount, hinst, State.verificationCount]
  rw [hcongr]
  cases hflag : flagOf r with
  | false => rfl
  | true =>
      -- an item answered with `true` was recorded, so its counter had room
      rw [flagOf_eq_true_iff] at hflag
      subst hflag
      have hlt : (s.verificationCount (item.inputsHash h)).toNat + 1 < 2 ^ 64 := by
        cases verifyOne_cases hcfg hone with
        | refused _ _ _ _ _ _ hr => exact absurd rfl hr
        | verified _ _ _ _ _ hcounter => exact hcounter
      simp only [if_true, toNat_verificationCount_recorded hlt, Bool.true_and, decide_eq_true_eq]

/-- The state `t` of a batch against the state `s` of its sequence, with some items to come: it has
    counted no fewer calls and recorded no more verifications, and the count does not overflow any
    sooner, because the limit is below the largest number or because nothing has expired. -/
structure Ahead (ledger : UInt32) (caller : Address) (limits : Limits) (proofs : List ProofItem)
    (s t : State Address) : Prop where
  count : (s.windowCount ledger caller limits).toNat ≤ (t.windowCount ledger caller limits).toNat
  verified : ∀ x, (t.verificationCount x).toNat ≤ (s.verificationCount x).toNat
  overflow : limits.maxCalls ≠ maxCount ∧
      (t.windowCount ledger caller limits = maxCount →
        s.windowCount ledger caller limits = maxCount) ∨
    s.windowCount ledger caller limits = t.windowCount ledger caller limits ∧
      ∀ item ∈ proofs, item.isExpired ledger = false

/-- An item that does not trap in the sequence does not trap in the batch. -/
theorem Ahead.verifyOne_ne_none {ledger : UInt32} {caller : Address} {limits : Limits}
    {item : ProofItem} {proofs : List ProofItem} {s t : State Address}
    (hahead : Ahead ledger caller limits (item :: proofs) s t) {vk : VerifyingKey}
    (hcfg : Configured s limits vk) (hcfg' : Configured t limits vk)
    (haccess : checkAccess s caller = .ok ()) (haccess' : checkAccess t caller = .ok ())
    (hone : verifyOne h ledger caller item s ≠ none) :
    verifyOne h ledger caller item t ≠ none := by
  obtain ⟨hcount, hverified, hoverflow⟩ := hahead
  obtain ⟨hmax, hroom⟩ := (verifyOne_ne_none_iff hcfg haccess item).1 hone
  refine (verifyOne_ne_none_iff hcfg' haccess' item).2 ⟨?_, ?_⟩
  · rcases hoverflow with ⟨-, himp⟩ | ⟨heq, -⟩
    · exact fun heq => hmax (himp heq)
    · rwa [← heq]
  · intro hlt
    obtain ⟨hextend, hparses, hcounter⟩ := hroom (UInt32.lt_iff_toNat_lt.2
      (hcount.trans_lt (UInt32.lt_iff_toNat_lt.1 hlt)))
    exact ⟨hextend, hparses, fun hok =>
      (Nat.succ_le_succ (hverified _)).trans_lt (hcounter hok)⟩

/-- One item keeps the batch ahead of the sequence. -/
theorem Ahead.settle {ledger : UInt32} {caller : Address} {limits : Limits}
    {item : ProofItem} {proofs : List ProofItem} {s s' t t' : State Address}
    (hahead : Ahead ledger caller limits (item :: proofs) s t) {vk : VerifyingKey}
    (hcfg : Configured s limits vk) (hcfg' : Configured t limits vk)
    (haccess : checkAccess s caller = .ok ()) (haccess' : checkAccess t caller = .ok ())
    {r r' : Except Error Bool} (hone : verifyOne h ledger caller item s = some (r, s'))
    (hone' : verifyOne h ledger caller item t = some (r', t')) :
    Ahead ledger caller limits proofs (settleSingle h caller item r s s')
      (settleBatch h caller item r' t t') := by
  obtain ⟨hcount, hverified, hoverflow⟩ := hahead
  obtain ⟨hflag, -, -, hs⟩ := settle_metered (settles_settleSingle caller) hcfg haccess hone
  obtain ⟨hflag', -, -, ht⟩ := settle_metered (settles_settleBatch caller) hcfg' haccess' hone'
  -- an item is charged within the budget: in the batch always, in the sequence unless it is expired
  have hcharge' : chargeVerdict (fun _ => true) (itemVerdict h ledger vk item) = true := by
    cases itemVerdict h ledger vk item <;> rfl
  simp only [Metered.unit_eq, chargeVerdict_isOk, State.budget, Nat.sub_pos_iff_lt] at hs
  simp only [Metered.unit_eq, hcharge', State.budget, Nat.sub_pos_iff_lt, and_true] at ht
  refine ⟨?_, fun x => ?_, ?_⟩
  · rw [hs, ht]
    split <;> split <;> omega
  · rw [verificationCount_settle (settles_settleSingle caller) hcfg haccess hone,
      verificationCount_settle (settles_settleBatch caller) hcfg' haccess' hone']
    -- what the batch records, the sequence records as well
    have himp : flagOf r' = true → flagOf r = true := by
      rw [hflag, hflag']
      simp only [State.budget, Bool.and_eq_true, decide_eq_true_eq, Nat.sub_pos_iff_lt, and_imp]
      exact fun hlt hok => ⟨hcount.trans_lt hlt, hok⟩
    refine Nat.add_le_add (hverified x) ?_
    cases hr' : flagOf r' with
    | false => simp
    | true => rw [himp hr']
  · rcases hoverflow with ⟨hne, himp⟩ | ⟨heq, hfresh⟩
    · refine .inl ⟨hne, fun hmax => ?_⟩
      -- the limit is below the maximum, so only a count that was there before is
      exfalso
      have hsome : verifyOne h ledger caller item s ≠ none := by simp [hone]
      obtain ⟨hbelow, -⟩ := (verifyOne_ne_none_iff hcfg haccess item).1 hsome
      rw [hmax] at ht
      have hval : maxCount.toNat = 2 ^ 32 - 1 := rfl
      have hlt := limits.maxCalls.toNat_lt
      have hlimit : limits.maxCalls.toNat ≠ maxCount.toNat :=
        fun heq => hne (UInt32.toNat_inj.1 heq)
      split at ht
      · omega
      · exact hbelow (himp (UInt32.toNat_inj.1 ht.symm))
    · refine .inr ⟨UInt32.toNat_inj.1 ?_, fun e he => hfresh e (List.mem_cons_of_mem _ he)⟩
      rw [hs, ht, heq, hfresh item List.mem_cons_self]
      simp

/-- For a caller with access the batch runs through where the sequence does. -/
theorem submitAll_batch_ne_none {ledger : UInt32} {caller : Address} {limits : Limits}
    {proofs : List ProofItem} {s t : State Address}
    (hahead : Ahead ledger caller limits proofs s t) {vk : VerifyingKey}
    (hcfg : Configured s limits vk) (hcfg' : Configured t limits vk)
    (haccess : checkAccess s caller = .ok ()) (haccess' : checkAccess t caller = .ok ())
    (hsingle : submitAll h ledger caller (settleSingle h caller) proofs s ≠ none) :
    submitAll h ledger caller (settleBatch h caller) proofs t ≠ none := by
  induction proofs generalizing s t with
  | nil => simp [submitAll]
  | cons item proofs ih =>
      obtain ⟨⟨bs, u⟩, hrun⟩ := Option.ne_none_iff_exists'.1 hsingle
      obtain ⟨r, s', bs', hone, hrest, -⟩ := submitAll_cons_eq_some.1 hrun
      obtain ⟨⟨r', t'⟩, hone'⟩ := Option.ne_none_iff_exists'.1
        (hahead.verifyOne_ne_none (h := h) hcfg hcfg' haccess haccess' (by simp [hone]))
      have hframe : Frame s (settleSingle h caller item r s s') :=
        frame_of_settleSingle (frame_of_verifyOne hone)
      have hframe' : Frame t (settleBatch h caller item r' t t') :=
        frame_of_settleBatch (frame_of_verifyOne hone')
      have hloop := ih (hahead.settle hcfg hcfg' haccess haccess' hone hone')
        (hcfg.of_frame hframe) (hcfg'.of_frame hframe')
        ((hframe.checkAccess caller).trans haccess) ((hframe'.checkAccess caller).trans haccess')
        (by simp [hrest])
      simpa [submitAll, hone'] using hloop

/-- With the largest `max_calls` a batch that runs through stays within the budget: an item beyond
    it would find the count at its maximum. -/
theorem length_le_budget {ledger : UInt32} {s t : State Address} {limits : Limits}
    {vk : VerifyingKey} (hcfg : Configured s limits vk) (hlimit : limits.maxCalls = maxCount)
    {caller : Address} (haccess : checkAccess s caller = .ok ()) {proofs : List ProofItem}
    {bs : List Bool}
    (hrun : submitAll h ledger caller (settleBatch h caller) proofs s = some (bs, t)) :
    proofs.length ≤ s.budget ledger caller limits := by
  induction proofs generalizing s bs with
  | nil => exact Nat.zero_le _
  | cons item proofs ih =>
      obtain ⟨r, s', bs', hone, hrest, -⟩ := submitAll_cons_eq_some.1 hrun
      have hframe : Frame s (settleBatch h caller item r s s') :=
        frame_of_settleBatch (frame_of_verifyOne hone)
      have hle := ih (hcfg.of_frame hframe) ((hframe.checkAccess caller).trans haccess) hrest
      -- the item did not trap, so there was room for it
      have hsome : verifyOne h ledger caller item s ≠ none := by simp [hone]
      obtain ⟨hmax, -⟩ := (verifyOne_ne_none_iff hcfg haccess item).1 hsome
      have hlast : (s.windowCount ledger caller limits).toNat < limits.maxCalls.toNat := by
        rw [hlimit]
        exact Nat.lt_of_le_of_ne (Nat.le_of_lt_succ (UInt32.toNat_lt _))
          fun heq => hmax (UInt32.toNat_inj.1 heq)
      have hcount := (counts_of_verifyOne_of_room hcfg haccess (UInt32.lt_iff_toNat_lt.2 hlast)
        hone).1
      have hsame : (settleBatch h caller item r s s').windowCount ledger caller limits
          = s'.windowCount ledger caller limits := windowCount_congr rfl
      rw [State.budget, hsame, hcount] at hle
      rw [List.length_cons, State.budget]
      omega

/-- A batch of a caller with access against its sequence, neither of which traps. -/
theorem batchEqSequence_of_runs {auth : Address → Bool} {caller : Address}
    (hauth : auth caller = true) {w : World Address} {limits : Limits} {vk : VerifyingKey}
    (hcfg : Configured w.state limits vk) (hpaused : w.state.isPaused = false)
    (haccess : checkAccess w.state caller = .ok ()) {proofs : List ProofItem} {bs : List Bool}
    {t : State Address}
    (hbatch : submitAll h w.ledger caller (settleBatch h caller) proofs w.state = some (bs, t))
    (hsequence : some .trap ∉ (machine h).outcomes w (submitEach auth caller proofs)) :
    BatchEqSequence h auth caller w proofs ↔
      (∀ item ∈ proofs, item.isExpired w.ledger = false) ∨
      (w.state.budget w.ledger caller limits
          ≤ (proofs.countP fun item => !item.isExpired w.ledger) ∧
        ∀ i item, proofs[i]? = some item → item.verifies h w.ledger vk = true →
          i < w.state.budget w.ledger caller limits ∨
            w.state.budget w.ledger caller limits
              ≤ ((proofs.take i).countP fun item => !item.isExpired w.ledger)) := by
  have hcharge : chargeVerdict Except.isOk ∘ itemVerdict h w.ledger vk
      = fun item => !item.isExpired w.ledger := funext fun item => chargeVerdict_isOk _ vk item
  have hseq := submitAll_single hauth proofs w hsequence
  unfold BatchEqSequence
  simp only [exec_verifyBatch_eq_submitAll hauth hcfg hpaused, hbatch, Outcome.ok.injEq,
    Reply.flags.injEq]
  rw [settled_eq_iff hcfg haccess hbatch hseq]
  simp only [Metered.answers_spent_eq_iff okVerdict (chargeVerdict Except.isOk)]
  simp only [List.forall_mem_map, List.countP_map, hcharge, ← List.map_take, List.getElem?_map,
    Option.map_eq_some_iff, forall_exists_index, and_imp, chargeVerdict_isOk]
  refine or_congr (by simp only [Bool.not_eq_true']) (and_congr_right fun _ =>
    forall_congr' fun i => ⟨fun hlate item hitem hok => ?_, ?_⟩)
  · exact hlate _ item hitem rfl hok
  · rintro hlate _ item hitem rfl hok
    exact hlate item hitem hok

/-- **A batch against its sequence.** On a deployed contract that is not paused, for items none of
    which traps on its own: the batch returns what the items return one by one and ends with the
    same counters exactly when the caller authorised it and is not on an enforced allowlist, or no
    item has expired, or `max_calls` is below the largest number, the unexpired items use the budget
    up and every item that verifies is among the first `budget` items or comes after `budget`
    unexpired ones. -/
theorem batchEqSequence_iff (h : Host) (w : World Address) (hw : Deployed h w)
    (hpaused : w.state.isPaused = false) (auth : Address → Bool) (caller : Address)
    (proofs : List ProofItem)
    (hsequence : some .trap ∉ (machine h).outcomes w (submitEach auth caller proofs)) :
    ∃ limits vk, w.state.limits = some limits ∧ w.state.vk = some vk ∧
      let budget := w.state.budget w.ledger caller limits
      (BatchEqSequence h auth caller w proofs ↔ auth caller = true ∧
        ((w.state.allowlistEnabled = true ∧ w.state.isAllowlisted caller = false) ∨
        (∀ item ∈ proofs, item.isExpired w.ledger = false) ∨
        (limits.maxCalls ≠ maxCount ∧
          budget ≤ (proofs.countP fun item => !item.isExpired w.ledger) ∧
          ∀ i item, proofs[i]? = some item → item.verifies h w.ledger vk = true →
            i < budget ∨
              budget ≤ ((proofs.take i).countP fun item => !item.isExpired w.ledger)))) := by
  obtain ⟨limits, vk, hcfg⟩ := configured_of_deployed hw
  refine ⟨limits, vk, hcfg.limits_eq, hcfg.vk_eq, ?_⟩
  intro budget
  by_cases hauth : auth caller = true
  · rw [and_iff_right hauth]
    have hseq := submitAll_single hauth proofs w hsequence
    cases haccess : checkAccess w.state caller with
    | error e =>
        -- every item is answered with `false` either way
        obtain ⟨t, ht, htemp, hinst⟩ :=
          submitAll_denied (settles_settleBatch caller) hcfg haccess proofs
        obtain ⟨u, hu, htemp', hinst'⟩ :=
          submitAll_denied (settles_settleSingle caller) hcfg haccess proofs
        rw [hu, Option.some.injEq, Prod.mk.injEq] at hseq
        have hdenied := (denied_iff hpaused).1 (by rw [haccess]; simp)
        unfold BatchEqSequence
        simp only [exec_verifyBatch_eq_submitAll hauth hcfg hpaused]
        rw [ht]
        simp [← hseq.1, ← hseq.2, htemp, htemp', hinst, hinst', hdenied]
    | ok _ =>
        have hallowed : ¬ (w.state.allowlistEnabled = true ∧
            w.state.isAllowlisted caller = false) := fun hdenied =>
          (denied_iff hpaused).2 hdenied haccess
        rw [or_iff_right hallowed]
        cases hbatch : submitAll h w.ledger caller (settleBatch h caller) proofs w.state with
        | none =>
            have hdiffers : ¬ BatchEqSequence h auth caller w proofs := fun hsame => by
              have htrap := hsame.1
              rw [exec_verifyBatch_eq_submitAll hauth hcfg hpaused, hbatch] at htrap
              cases htrap
            -- only an expired item under the largest `max_calls` makes the batch trap
            have hruns : ∀ hoverflow, False := fun hoverflow =>
              submitAll_batch_ne_none ⟨le_rfl, fun _ => le_rfl, hoverflow⟩ hcfg hcfg haccess haccess
                (by rw [hseq]; simp) hbatch
            refine iff_of_false hdiffers ?_
            rintro (hfresh | ⟨hlimit, -⟩)
            · exact hruns (.inr ⟨rfl, hfresh⟩)
            · exact hruns (.inl ⟨hlimit, id⟩)
        | some out =>
            rw [batchEqSequence_of_runs hauth hcfg hpaused haccess hbatch hsequence]
            refine or_congr_right' fun hexpired =>
              ⟨fun hlate => ⟨fun hlimit => hexpired ?_, hlate⟩, And.right⟩
            -- a batch that fits in the budget, which the unexpired items use up, has no others
            have hlen := (length_le_budget hcfg hlimit haccess hbatch).trans hlate.1
            simpa using List.countP_eq_length.1 (le_antisymm List.countP_le_length hlen)
  · have htrap : (exec h w.ledger w.state ⟨auth, .verifyBatch caller proofs⟩).1 = .trap := by
      simp [exec_verifyBatch, hauth]
    simp [BatchEqSequence, htrap, hauth]

/-- With nothing expired, a batch of two is its sequence. -/
theorem batchEqSequence_iff_fresh :
    BatchEqSequence Host.scalar (fun _ => true) () ⟨100, zeroState 1 17280⟩
      [zeroItem 1 100, zeroItem 2 100] := by
  obtain ⟨limits, vk, -, -, hiff⟩ := batchEqSequence_iff Host.scalar ⟨100, zeroState 1 17280⟩
    (deployed_zero 100 1 (by decide) []) rfl (fun _ => true) ()
    [zeroItem 1 100, zeroItem 2 100] (by decide +kernel)
  exact hiff.2 ⟨rfl, .inr (.inl (by decide +kernel))⟩

/-- With a budget of one, an expired item in front of a valid one. On its own the expired item is
    rolled back and the valid one accepted; in the batch it takes the budget. Nothing traps. -/
theorem expired_item_takes_budget :
    let w : World Unit := ⟨100, zeroState 1 17280⟩
    let proofs := [zeroItem 1 50, zeroItem 2 100]
    let everyone : Unit → Bool := fun _ => true
    Deployed Host.scalar w ∧ w.state.isPaused = false ∧
      (machine Host.scalar).outcomes w (submitEach everyone () proofs)
        = [some (.err .proofExpired), some (.ok (.flag true))] ∧
      (exec Host.scalar 100 w.state ⟨everyone, .verifyBatch () proofs⟩).1
        = .ok (.flags [false, false]) ∧
      ¬ BatchEqSequence Host.scalar everyone () w proofs := by
  refine ⟨deployed_zero 100 1 (by decide) [], rfl, by decide +kernel, by decide +kernel, ?_⟩
  intro hsame
  exact absurd hsame.1 (by decide +kernel)

end ZkStellar.Verifier

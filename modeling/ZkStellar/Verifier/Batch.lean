import ZkStellar.Lib.Metered
import ZkStellar.Verifier.Gate

set_option autoImplicit false

/-! # Submitting several items

`verify_one` ends in one of four ways (`verifyOne_cases`): the caller is denied access, the limiter
rejects, the item is counted and refused, or it is counted and recorded. Submitting a list of items
is then metered by the caller's budget (`submitAll_metered`), whatever happens between two items to
the counter of one that ended in an error: `verify_batch` keeps it, a transaction of its own rolls
it back. -/

namespace ZkStellar.Verifier

variable {Address : Type} [DecidableEq Address] {h : Host} {ledger : UInt32}

/-! ## One item -/

/-- The caller's count in the current window. -/
def State.windowCount (s : State Address) (ledger : UInt32) (caller : Address) (limits : Limits) :
    UInt32 :=
  s.callCount ledger caller (currentWindow ledger limits.windowSize)

/-- The state after the limiter let a call pass. -/
def counted (h : Host) (ledger : UInt32) (caller : Address) (limits : Limits) (s : State Address) :
    State Address :=
  s.setCallCount h ledger caller (currentWindow ledger limits.windowSize) limits.windowSize
    (s.windowCount ledger caller limits + 1)

/-- The item's key among the verification counters. -/
def ProofItem.inputsHash (h : Host) (item : ProofItem) : BytesN 32 :=
  computeInputsHash h item.publicInputs

/-- The state after a verified item was recorded. -/
def recorded (h : Host) (item : ProofItem) (s : State Address) : State Address :=
  s.setInstance (.verificationCount (item.inputsHash h))
    (s.verificationCount (item.inputsHash h) + 1)

theorem toNat_verificationCount_recorded {s : State Address} {item : ProofItem}
    (hlt : (s.verificationCount (item.inputsHash h)).toNat + 1 < 2 ^ 64) (x : BytesN 32) :
    ((recorded h item s).verificationCount x).toNat
      = (s.verificationCount x).toNat + if item.inputsHash h = x then 1 else 0 := by
  unfold recorded State.setInstance State.verificationCount
  by_cases hx : item.inputsHash h = x
  · subst hx
    rw [if_pos rfl]
    simp only [ProofItem.inputsHash, State.verificationCount, Store.get_set_self,
      Option.getD_some] at hlt ⊢
    rw [UInt64.toNat_add, UInt64.toNat_one, Nat.mod_eq_of_lt hlt]
  · rw [if_neg hx, Store.get_set_of_ne _ _ (by simpa [ProofItem.inputsHash, eq_comm] using hx),
      Nat.add_zero]

/-- How `verify_one` can end. -/
inductive OneEnd (h : Host) (ledger : UInt32) (limits : Limits) (vk : VerifyingKey)
    (caller : Address) (item : ProofItem) (s : State Address) :
    Except Error Bool → State Address → Prop where
  | denied (e : Error) (haccess : checkAccess s caller = .error e) :
      OneEnd h ledger limits vk caller item s (.error e) s
  | limited (haccess : checkAccess s caller = .ok ())
      (hfull : limits.maxCalls ≤ s.windowCount ledger caller limits) :
      OneEnd h ledger limits vk caller item s (.error .rateLimitExceeded) s
  | refused (r : Except Error Bool) (haccess : checkAccess s caller = .ok ())
      (hmax : s.windowCount ledger caller limits ≠ maxCount)
      (hroom : s.windowCount ledger caller limits < limits.maxCalls)
      (hextend : h.canExtend ledger limits.windowSize = true)
      (hverdict : itemVerdict h ledger vk item = some r) (hr : r ≠ .ok true) :
      OneEnd h ledger limits vk caller item s r (counted h ledger caller limits s)
  | verified (haccess : checkAccess s caller = .ok ())
      (hmax : s.windowCount ledger caller limits ≠ maxCount)
      (hroom : s.windowCount ledger caller limits < limits.maxCalls)
      (hextend : h.canExtend ledger limits.windowSize = true)
      (hverdict : itemVerdict h ledger vk item = some (.ok true))
      (hcounter : (s.verificationCount (item.inputsHash h)).toNat + 1 < 2 ^ 64) :
      OneEnd h ledger limits vk caller item s (.ok true)
        (recorded h item (counted h ledger caller limits s))

theorem verifyOne_cases {s s' : State Address} {limits : Limits} {vk : VerifyingKey}
    (hcfg : Configured s limits vk) {caller : Address} {item : ProofItem} {r : Except Error Bool}
    (hrun : verifyOne h ledger caller item s = some (r, s')) :
    OneEnd h ledger limits vk caller item s r s' := by
  rw [verifyOne_eq hcfg] at hrun
  split at hrun
  · next e haccess =>
      cases hrun
      exact .denied e haccess
  · next haccess =>
      split at hrun
      · cases hrun
      · next hcount =>
          cases hrun
          obtain ⟨-, hfull, rfl, rfl⟩ := (countCall_eq_error hcfg.windowSize_ne).1 hcount
          exact .limited haccess hfull
      · next hcount =>
          -- the call is counted from here on, whatever the verdict
          obtain ⟨hmax, hroom, hextend, rfl⟩ := (countCall_eq_ok hcfg.windowSize_ne).1 hcount
          split at hrun
          · cases hrun
          · next hv =>
              cases hrun
              exact .refused _ haccess hmax hroom hextend hv (by simp)
          · next hv =>
              cases hrun
              exact .refused _ haccess hmax hroom hextend hv (by simp)
          · next hv =>
              simp only [Option.map_eq_some_iff, Prod.mk.injEq] at hrun
              obtain ⟨s₂, hrec, rfl, rfl⟩ := hrun
              obtain ⟨hcounter, rfl⟩ := afterRecord_eq_some.1 hrec
              exact .verified haccess hmax hroom hextend hv hcounter

/-- The errors that do not abort a batch are the only ones while the contract is not paused. -/
theorem error_of_verifyOne {s s' : State Address} {limits : Limits} {vk : VerifyingKey}
    (hcfg : Configured s limits vk) (hpaused : s.isPaused = false) {caller : Address}
    {item : ProofItem} {e : Error}
    (hrun : verifyOne h ledger caller item s = some (.error e, s')) :
    e = .callerNotAllowed ∨ e = .rateLimitExceeded ∨ e = .proofExpired := by
  cases verifyOne_cases hcfg hrun with
  | denied _ haccess =>
      unfold checkAccess at haccess
      rw [hpaused] at haccess
      simp only [Bool.false_eq_true, if_false] at haccess
      split at haccess
      · cases haccess
        exact .inl rfl
      · cases haccess
  | limited => exact .inr (.inl rfl)
  | refused _ _ _ _ _ hverdict _ =>
      unfold itemVerdict at hverdict
      split at hverdict
      · split at hverdict
        · cases hverdict
        · cases hverdict
          exact .inr (.inr rfl)
        · simp at hverdict
      · cases hverdict

/-! ## A list of items -/

/-- The flag a result is reported as. -/
def flagOf : Except Error Bool → Bool
  | .ok b => b
  | .error _ => false

theorem flagOf_eq_true_iff {r : Except Error Bool} : flagOf r = true ↔ r = .ok true := by
  rcases r with e | b <;> simp [flagOf]

theorem flagOf_eq_false {r : Except Error Bool} (hr : r ≠ .ok true) : flagOf r = false := by
  rwa [Bool.eq_false_iff, ne_eq, flagOf_eq_true_iff]

/-- An item is only answered with `true` when the checks after the rate limiter accept it. -/
theorem itemVerdict_of_flagOf {s s' : State Address} {limits : Limits} {vk : VerifyingKey}
    (hcfg : Configured s limits vk) {caller : Address} {item : ProofItem} {r : Except Error Bool}
    (hone : verifyOne h ledger caller item s = some (r, s')) (hflag : flagOf r = true) :
    itemVerdict h ledger vk item = some (.ok true) := by
  rw [flagOf_eq_true_iff] at hflag
  cases verifyOne_cases hcfg hone with
  | denied => cases hflag
  | limited => cases hflag
  | refused _ _ _ _ _ _ hr => exact absurd hflag hr
  | verified _ _ _ _ hverdict _ => exact hverdict

/-- Run `verify_one` on each item in turn. `settle` says which state the next item finds, given the
    item's result and the states before and after it. -/
def submitAll (h : Host) (ledger : UInt32) (caller : Address)
    (settle : ProofItem → Except Error Bool → State Address → State Address → State Address) :
    List ProofItem → State Address → Option (List Bool × State Address)
  | [], s => some ([], s)
  | item :: proofs, s =>
      match verifyOne h ledger caller item s with
      | none => none
      | some (r, s') =>
          (submitAll h ledger caller settle proofs (settle item r s s')).map
            fun (bs, t) => (flagOf r :: bs, t)

/-- A submission of a non-empty list is `verify_one` on its first item and a submission of the
    rest. -/
theorem submitAll_cons_eq_some
    {settle : ProofItem → Except Error Bool → State Address → State Address → State Address}
    {caller : Address} {item : ProofItem} {proofs : List ProofItem} {s t : State Address}
    {bs : List Bool} :
    submitAll h ledger caller settle (item :: proofs) s = some (bs, t) ↔
      ∃ r s' bs', verifyOne h ledger caller item s = some (r, s') ∧
        submitAll h ledger caller settle proofs (settle item r s s') = some (bs', t) ∧
        bs = flagOf r :: bs' := by
  rw [submitAll]
  rcases verifyOne h ledger caller item s with _ | ⟨r, s'⟩
  · simp
  · simp [eq_comm]

/-- In a batch the next item finds what the last one left, and its event. -/
def settleBatch (h : Host) (caller : Address) (item : ProofItem) (r : Except Error Bool)
    (_ s' : State Address) : State Address :=
  publishVerificationResult h caller (flagOf r) item.publicInputs s'

/-- As transactions of their own, an item that ended in an error leaves nothing behind. -/
def settleSingle (h : Host) (caller : Address) (item : ProofItem) (r : Except Error Bool)
    (s s' : State Address) : State Address :=
  match r with
  | .ok b => publishVerificationResult h caller b item.publicInputs s'
  | .error _ => s

omit [DecidableEq Address] in
theorem frame_of_settleBatch {caller : Address} {item : ProofItem} {r : Except Error Bool}
    {s s' : State Address} (hs : Frame s s') : Frame s (settleBatch h caller item r s s') :=
  hs.trans frame_of_publish

omit [DecidableEq Address] in
theorem frame_of_settleSingle {caller : Address} {item : ProofItem} {r : Except Error Bool}
    {s s' : State Address} (hs : Frame s s') : Frame s (settleSingle h caller item r s s') := by
  cases r with
  | error e => exact .refl s
  | ok b => exact hs.trans frame_of_publish

/-- Without `ContractPaused` the loop of `verify_batch` never aborts. -/
theorem verifyBatchLoop_eq {caller : Address} {proofs : List ProofItem} {results : List Bool}
    {s : State Address} {limits : Limits} {vk : VerifyingKey} (hcfg : Configured s limits vk)
    (hpaused : s.isPaused = false) :
    verifyBatchLoop h ledger caller proofs results s
      = (submitAll h ledger caller (settleBatch h caller) proofs s).map
          fun (bs, t) => (.ok (results ++ bs), t) := by
  induction proofs generalizing results s with
  | nil => simp [verifyBatchLoop, submitAll]
  | cons item proofs ih =>
      rw [verifyBatchLoop, submitAll]
      cases hone : verifyOne h ledger caller item s with
      | none => rfl
      | some out =>
          obtain ⟨r, s'⟩ := out
          have hframe : Frame s (settleBatch h caller item r s s') :=
            frame_of_settleBatch (frame_of_verifyOne hone)
          have hrest : verifyBatchLoop h ledger caller proofs (results ++ [flagOf r])
              (settleBatch h caller item r s s')
                = (submitAll h ledger caller (settleBatch h caller) proofs
                    (settleBatch h caller item r s s')).map
                    fun (bs, t) => (.ok (results ++ [flagOf r] ++ bs), t) :=
            ih (hcfg.of_frame hframe) (hframe.isPaused.trans hpaused)
          -- the loop aborts on `ContractPaused` alone, which an unpaused contract never answers
          rcases r with e | b
          · rcases error_of_verifyOne hcfg hpaused hone with rfl | rfl | rfl <;>
              exact hrest.trans (by simp [Function.comp_def, flagOf])
          · exact hrest.trans (by simp [Function.comp_def, flagOf])

/-! ## Storage after a list of items -/

theorem counted_temporary_congr {s s' : State Address} {caller : Address} {limits : Limits}
    (hs : s.temporary = s'.temporary) :
    (counted h ledger caller limits s).temporary
      = (counted h ledger caller limits s').temporary := by
  simp only [counted, State.setCallCount, State.windowCount, State.callCount, hs]

theorem counted_iterate_congr {s s' : State Address} {caller : Address} {limits : Limits}
    (hs : s.temporary = s'.temporary) (k : ℕ) :
    ((counted h ledger caller limits)^[k] s).temporary
      = ((counted h ledger caller limits)^[k] s').temporary := by
  induction k generalizing s s' with
  | zero => exact hs
  | succ k ih => exact ih (counted_temporary_congr hs)

/-- The state after some items were recorded. -/
def recordAll (h : Host) (items : List ProofItem) (s : State Address) : State Address :=
  items.foldl (fun s item => recorded h item s) s

theorem recordAll_congr {s s' : State Address} (hs : s.instanceStorage = s'.instanceStorage)
    (items : List ProofItem) :
    (recordAll h items s).instanceStorage = (recordAll h items s').instanceStorage := by
  induction items generalizing s s' with
  | nil => exact hs
  | cons item items ih =>
      refine ih ?_
      simp only [recorded, State.setInstance, State.verificationCount, hs]

theorem windowCount_counted {s : State Address} {caller : Address} {limits : Limits}
    (hextend : h.canExtend ledger limits.windowSize = true) :
    (counted h ledger caller limits s).windowCount ledger caller limits
      = s.windowCount ledger caller limits + 1 :=
  setCallCount_callCount hextend

omit [DecidableEq Address] in
/-- The count depends on the caller's entry for the current window only. -/
theorem windowCount_congr_get {s s' : State Address} {caller : Address} {limits : Limits}
    (hget : s.temporary.get (.callCount caller (currentWindow ledger limits.windowSize))
      = s'.temporary.get (.callCount caller (currentWindow ledger limits.windowSize))) :
    s.windowCount ledger caller limits = s'.windowCount ledger caller limits := by
  rw [State.windowCount, State.callCount, TempStore.read_congr hget]
  rfl

omit [DecidableEq Address] in
theorem windowCount_congr {s s' : State Address} {caller : Address} {limits : Limits}
    (hs : s.temporary = s'.temporary) :
    s.windowCount ledger caller limits = s'.windowCount ledger caller limits :=
  windowCount_congr_get (by rw [hs])

/-- The calls the limiter still lets a caller make in the current window. -/
def State.budget (s : State Address) (ledger : UInt32) (caller : Address) (limits : Limits) : ℕ :=
  limits.maxCalls.toNat - (s.windowCount ledger caller limits).toNat

omit [DecidableEq Address] in
theorem budget_eq_zero {s : State Address} {caller : Address} {limits : Limits}
    (hfull : limits.maxCalls ≤ s.windowCount ledger caller limits) :
    s.budget ledger caller limits = 0 :=
  Nat.sub_eq_zero_of_le (UInt32.le_iff_toNat_le.1 hfull)

theorem budget_counted {s : State Address} {caller : Address} {limits : Limits}
    (hmax : s.windowCount ledger caller limits ≠ maxCount)
    (hroom : s.windowCount ledger caller limits < limits.maxCalls)
    (hextend : h.canExtend ledger limits.windowSize = true) :
    s.budget ledger caller limits
      = (counted h ledger caller limits s).budget ledger caller limits + 1 := by
  rw [UInt32.lt_iff_toNat_lt] at hroom
  rw [State.budget, State.budget, windowCount_counted hextend, toNat_add_one_of_ne hmax]
  omega

/-- The verdict is positive. -/
def okVerdict : Option (Except Error Bool) → Bool
  | some (.ok true) => true
  | _ => false

theorem okVerdict_some (r : Except Error Bool) : okVerdict (some r) = flagOf r := by
  rcases r with e | _ | _ <;> rfl

/-- The checks after the rate limiter accept the item. -/
def ProofItem.verifies (h : Host) (ledger : UInt32) (vk : VerifyingKey) (item : ProofItem) : Bool :=
  okVerdict (itemVerdict h ledger vk item)

/-- Whether an item with a verdict is charged, given which results are; one that would trap is. -/
def chargeVerdict (charge : Except Error Bool → Bool) : Option (Except Error Bool) → Bool
  | some r => charge r
  | none => true

/-- `settle` keeps the storage changes of the charged results and rolls back the others, which are
    errors. -/
structure Settles (charge : Except Error Bool → Bool)
    (settle : ProofItem → Except Error Bool → State Address → State Address → State Address) :
    Prop where
  frame : ∀ item r s s', Frame s s' → Frame s (settle item r s s')
  temporary : ∀ item r s s',
    (settle item r s s').temporary = if charge r then s'.temporary else s.temporary
  instanceStorage : ∀ item r s s',
    (settle item r s s').instanceStorage
      = if charge r then s'.instanceStorage else s.instanceStorage
  charge_ok : ∀ b, charge (.ok b) = true

omit [DecidableEq Address] in
theorem settles_settleBatch (caller : Address) :
    Settles (fun _ => true) (settleBatch h caller) where
  frame _ _ _ _ := frame_of_settleBatch
  temporary _ _ _ _ := rfl
  instanceStorage _ _ _ _ := rfl
  charge_ok _ := rfl

omit [DecidableEq Address] in
theorem settles_settleSingle (caller : Address) :
    Settles Except.isOk (settleSingle h caller) where
  frame _ _ _ _ := frame_of_settleSingle
  temporary _ r _ _ := by cases r <;> rfl
  instanceStorage _ r _ _ := by cases r <;> rfl
  charge_ok _ := rfl

/-- One item of a metered submission: within the budget it is answered by its verdict and charged
    as `settle` says, beyond it the limiter refuses it. -/
theorem settle_metered {charge : Except Error Bool → Bool}
    {settle : ProofItem → Except Error Bool → State Address → State Address → State Address}
    (hsettle : Settles charge settle) {s s' : State Address} {limits : Limits} {vk : VerifyingKey}
    (hcfg : Configured s limits vk) {caller : Address} (haccess : checkAccess s caller = .ok ())
    {item : ProofItem} {r : Except Error Bool}
    (hone : verifyOne h ledger caller item s = some (r, s')) :
    let verdict := itemVerdict h ledger vk item
    let budget := s.budget ledger caller limits
    let n := Metered.unit (chargeVerdict charge) budget verdict
    flagOf r = (decide (0 < budget) && okVerdict verdict) ∧
      (settle item r s s').temporary = ((counted h ledger caller limits)^[n] s).temporary ∧
      (settle item r s s').instanceStorage
        = (if flagOf r then recorded h item s else s).instanceStorage ∧
      ((settle item r s s').windowCount ledger caller limits).toNat
        = (s.windowCount ledger caller limits).toNat + n := by
  intro verdict budget n
  have htemp := hsettle.temporary item r s s'
  have hinst := hsettle.instanceStorage item r s s'
  cases verifyOne_cases hcfg hone with
  | denied e hdenied => rw [haccess] at hdenied; cases hdenied
  -- the limiter refuses before it writes, so nothing is charged
  | limited _ hfull =>
      have hbudget : budget = 0 := budget_eq_zero hfull
      have hn : n = 0 := by simp only [n, hbudget, Metered.unit]
      rw [ite_self] at htemp hinst
      rw [hn, windowCount_congr htemp]
      exact ⟨by simp [flagOf, hbudget], htemp, hinst, rfl⟩
  | refused _ _ hmax hroom hextend hverdict hr =>
      have hbudget : budget = _ + 1 := budget_counted hmax hroom hextend
      have hn : n = if charge r then 1 else 0 := by
        simp only [n, hbudget, verdict, hverdict]
        rfl
      have hflag : flagOf r = false := flagOf_eq_false hr
      refine ⟨by simp [verdict, hverdict, okVerdict_some, hflag], ?_, ?_, ?_⟩
      · rw [htemp, hn]
        split <;> rfl
      · -- the counter of the window is all that was written, and it is not instance storage
        rw [hinst, hflag]
        split <;> rfl
      · by_cases hcharge : charge r
        · rw [if_pos hcharge] at htemp hn
          rw [hn, windowCount_congr htemp, windowCount_counted hextend, toNat_add_one_of_ne hmax]
        · rw [if_neg hcharge] at htemp hn
          rw [hn, windowCount_congr htemp, Nat.add_zero]
  | verified _ hmax hroom hextend hverdict _ =>
      have hbudget : budget = _ + 1 := budget_counted hmax hroom hextend
      have hn : n = 1 := by
        simp only [n, hbudget, verdict, hverdict, Metered.unit, chargeVerdict, hsettle.charge_ok,
          if_true]
      rw [hsettle.charge_ok, if_pos rfl] at htemp hinst
      have htemp' : (settle item (.ok true) s _).temporary
          = (counted h ledger caller limits s).temporary := htemp
      refine ⟨by simp [verdict, hverdict, okVerdict, flagOf, hbudget], by rw [hn]; exact htemp',
        hinst, ?_⟩
      rw [hn, windowCount_congr htemp', windowCount_counted hextend, toNat_add_one_of_ne hmax]

/-- Submitting a list of items is metered by the caller's budget: the answers, the charged passes
    and the recorded items are those of the metered sequence of verdicts. -/
theorem submitAll_metered {charge : Except Error Bool → Bool}
    {settle : ProofItem → Except Error Bool → State Address → State Address → State Address}
    (hsettle : Settles charge settle) {s t : State Address} {limits : Limits} {vk : VerifyingKey}
    (hcfg : Configured s limits vk) {caller : Address} (haccess : checkAccess s caller = .ok ())
    {proofs : List ProofItem} {bs : List Bool}
    (hrun : submitAll h ledger caller settle proofs s = some (bs, t)) :
    let verdicts := proofs.map (itemVerdict h ledger vk)
    let budget := s.budget ledger caller limits
    bs = Metered.answers okVerdict (chargeVerdict charge) budget verdicts ∧
      t.temporary = ((counted h ledger caller limits)^[
        Metered.spent (chargeVerdict charge) budget verdicts] s).temporary ∧
      t.instanceStorage = (recordAll h (answeredTrue proofs bs) s).instanceStorage ∧
      (t.windowCount ledger caller limits).toNat = (s.windowCount ledger caller limits).toNat
        + Metered.spent (chargeVerdict charge) budget verdicts := by
  induction proofs generalizing s bs with
  | nil =>
      simp only [submitAll, Option.some.injEq, Prod.mk.injEq] at hrun
      obtain ⟨rfl, rfl⟩ := hrun
      exact ⟨rfl, rfl, rfl, rfl⟩
  | cons item proofs ih =>
      obtain ⟨r, s', bs', hone, hrest, rfl⟩ := submitAll_cons_eq_some.1 hrun
      have hframe := hsettle.frame item r s s' (frame_of_verifyOne hone)
      obtain ⟨hflag, htemp₁, hinst₁, hcount₁⟩ := settle_metered hsettle hcfg haccess hone
      obtain ⟨hbs, htemp, hinst, hcount⟩ := ih (hcfg.of_frame hframe)
        ((hframe.checkAccess caller).trans haccess) hrest
      -- the rest is metered by what the first item left of the budget
      have hbudget : (settle item r s s').budget ledger caller limits
          = s.budget ledger caller limits - Metered.unit (chargeVerdict charge)
              (s.budget ledger caller limits) (itemVerdict h ledger vk item) := by
        rw [State.budget, hcount₁, Nat.sub_add_eq]
        rfl
      rw [hbudget] at hbs htemp hcount
      intro verdicts budget
      simp only [verdicts, List.map_cons, Metered.answers_cons, Metered.spent_cons]
      refine ⟨by rw [hflag, hbs], ?_, ?_, ?_⟩
      · rw [htemp, counted_iterate_congr htemp₁, ← Function.iterate_add_apply, Nat.add_comm]
      · rw [hinst, recordAll_congr hinst₁, answeredTrue_cons]
        split <;> rfl
      · rw [hcount, hcount₁, Nat.add_assoc]

/-- Without access every item is answered with `false` and storage stays as it is. -/
theorem submitAll_denied {charge : Except Error Bool → Bool}
    {settle : ProofItem → Except Error Bool → State Address → State Address → State Address}
    (hsettle : Settles charge settle) {s : State Address} {limits : Limits} {vk : VerifyingKey}
    (hcfg : Configured s limits vk) {caller : Address} {e : Error}
    (haccess : checkAccess s caller = .error e) (proofs : List ProofItem) :
    ∃ t, submitAll h ledger caller settle proofs s = some (List.replicate proofs.length false, t) ∧
      t.temporary = s.temporary ∧ t.instanceStorage = s.instanceStorage := by
  induction proofs generalizing s with
  | nil => exact ⟨s, rfl, rfl, rfl⟩
  | cons item proofs ih =>
      have hone : verifyOne h ledger caller item s = some (.error e, s) := by
        rw [verifyOne_eq hcfg, haccess]
      have hframe := hsettle.frame item (.error e) s s (.refl s)
      have htemp := hsettle.temporary item (.error e) s s
      have hinst := hsettle.instanceStorage item (.error e) s s
      rw [ite_self] at htemp hinst
      obtain ⟨t, hrun, ht, hi⟩ := ih (hcfg.of_frame hframe)
        ((hframe.checkAccess caller).trans haccess)
      exact ⟨t, by simp [submitAll, hone, hrun, flagOf, List.replicate_succ], ht.trans htemp,
        hi.trans hinst⟩

end ZkStellar.Verifier

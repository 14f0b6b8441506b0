import ZkStellar.Verifier.RateLimit

set_option autoImplicit false

/-! # What the limiter leaves a caller

When a new window begins the whole budget is back: a batch then has its first `max_calls` items
answered by their own verdicts and the others with `false` (`fresh_window`). Windows are aligned and
not sliding, so around the end of one a caller can have the budgets of two, but never more
(`sliding_bound`). -/

namespace ZkStellar.Verifier

variable {Address : Type} [DecidableEq Address] {h : Host} {ledger : UInt32}

/-! ## Submissions that run through -/

/-- In a batch every item that gets past the limiter is charged. -/
theorem charged_in_batch (v : Option (Except Error Bool)) :
    chargeVerdict (fun _ => true) v = true := by
  rcases v with _ | _ <;> rfl

section Total

variable {s : State Address} {limits : Limits} {vk : VerifyingKey} {caller : Address}

/-- With access, an unfinished counter and a lifetime the host grants, `verify_one` does not trap on
    an item whose verdict the caller's budget does not reach or that has one. -/
theorem exists_verifyOne (hcfg : Configured s limits vk) (haccess : checkAccess s caller = .ok ())
    (hextend : h.canExtend ledger limits.windowSize = true) {item : ProofItem}
    (hmax : s.windowCount ledger caller limits ≠ maxCount)
    (hverdict : 0 < s.budget ledger caller limits → itemVerdict h ledger vk item ≠ none)
    (hcounter : (s.verificationCount (item.inputsHash h)).toNat + 1 < 2 ^ 64) :
    ∃ r s', verifyOne h ledger caller item s = some (r, s') := by
  rw [verifyOne_eq hcfg, haccess]
  by_cases hroom : s.windowCount ledger caller limits < limits.maxCalls
  · rw [(countCall_eq_ok hcfg.windowSize_ne).2 ⟨hmax, hroom, hextend, rfl⟩]
    have hbudget : 0 < s.budget ledger caller limits := by
      have := UInt32.lt_iff_toNat_lt.1 hroom
      unfold State.budget
      omega
    rcases hv : itemVerdict h ledger vk item with _ | e | _ | _
    · exact absurd hv (hverdict hbudget)
    · exact ⟨_, _, rfl⟩
    · exact ⟨_, _, rfl⟩
    · have hrec : afterRecord h item (counted h ledger caller limits s)
          = some (recorded h item (counted h ledger caller limits s)) :=
        afterRecord_eq_some.2 ⟨hcounter, rfl⟩
      exact ⟨.ok true, recorded h item (counted h ledger caller limits s), by
        simp only [Option.map_eq_some_iff]
        exact ⟨_, hrec, rfl⟩⟩
  · rw [(countCall_eq_error hcfg.windowSize_ne).2 ⟨hmax, UInt32.not_lt.1 hroom, rfl, rfl⟩]
    exact ⟨_, _, rfl⟩

/-- What one item of a batch leaves for the next ones. -/
theorem room_of_verifyOne (hcfg : Configured s limits vk) (haccess : checkAccess s caller = .ok ())
    {item : ProofItem} {r : Except Error Bool} {s' : State Address}
    (hone : verifyOne h ledger caller item s = some (r, s'))
    (hcounter : (s.verificationCount (item.inputsHash h)).toNat + 1 < 2 ^ 64) :
    let t := settleBatch h caller item r s s'
    (t.windowCount ledger caller limits).toNat ≤ (s.windowCount ledger caller limits).toNat + 1 ∧
      t.budget ledger caller limits = s.budget ledger caller limits - 1 ∧
      ∀ x, (t.verificationCount x).toNat ≤ (s.verificationCount x).toNat + 1 := by
  intro t
  obtain ⟨-, -, hinstance, hcount⟩ :=
    settle_metered (settles_settleBatch caller) hcfg haccess hone
  have hunit : Metered.unit (chargeVerdict fun _ => true) (s.budget ledger caller limits)
      (itemVerdict h ledger vk item) = min 1 (s.budget ledger caller limits) := by
    cases s.budget ledger caller limits with
    | zero => rfl
    | succ b => cases itemVerdict h ledger vk item <;> simp [Metered.unit, chargeVerdict]
  rw [hunit] at hcount
  change (t.windowCount ledger caller limits).toNat = _ at hcount
  refine ⟨by omega, ?_, fun x => ?_⟩
  · unfold State.budget at hcount ⊢
    omega
  · have hsame : t.verificationCount x
        = (if flagOf r then recorded h item s else s).verificationCount x := by
      simp only [State.verificationCount]
      rw [hinstance]
    rw [hsame]
    split
    · rw [toNat_verificationCount_recorded hcounter]
      split <;> omega
    · omega

/-- A batch runs through if the items its budget reaches have verdicts. -/
theorem exists_submitAll {proofs : List ProofItem} (hcfg : Configured s limits vk)
    (haccess : checkAccess s caller = .ok ())
    (hextend : h.canExtend ledger limits.windowSize = true)
    (hlen : (s.windowCount ledger caller limits).toNat + proofs.length < 2 ^ 32)
    (hverdict : ∀ item ∈ proofs.take (s.budget ledger caller limits),
      itemVerdict h ledger vk item ≠ none)
    (hcounter : ∀ item ∈ proofs,
      (s.verificationCount (item.inputsHash h)).toNat + proofs.length < 2 ^ 64) :
    ∃ bs t, submitAll h ledger caller (settleBatch h caller) proofs s = some (bs, t) := by
  induction proofs generalizing s with
  | nil => exact ⟨[], s, rfl⟩
  | cons item proofs ih =>
      rw [List.length_cons] at hlen hcounter
      have hitem := hcounter item List.mem_cons_self
      have hmax : s.windowCount ledger caller limits ≠ maxCount := by
        intro hend
        rw [hend] at hlen
        have hlast : maxCount.toNat = 2 ^ 32 - 1 := rfl
        omega
      have hone : ∃ r s', verifyOne h ledger caller item s = some (r, s') :=
        exists_verifyOne hcfg haccess hextend hmax
          (fun hpos => hverdict item (by
            obtain ⟨b, hb⟩ := Nat.exists_eq_add_of_lt hpos
            simp [hb]))
          (by omega)
      obtain ⟨r, s', hone⟩ := hone
      obtain ⟨hcount, hbudget, hcounters⟩ := room_of_verifyOne hcfg haccess hone (by omega)
      have hframe : Frame s (settleBatch h caller item r s s') :=
        frame_of_settleBatch (frame_of_verifyOne hone)
      obtain ⟨bs, t, hrest⟩ := ih (hcfg.of_frame hframe) ((hframe.checkAccess caller).trans haccess)
        (by omega)
        (fun e he => by
          rw [hbudget] at he
          refine hverdict e ?_
          cases hb : s.budget ledger caller limits with
          | zero => simp [hb] at he
          | succ b =>
              rw [hb] at he
              exact List.mem_cons_of_mem item he)
        (fun e he => by
          have hgrown := hcounters (e.inputsHash h)
          have hold := hcounter e (List.mem_cons_of_mem item he)
          omega)
      exact ⟨flagOf r :: bs, t, submitAll_cons_eq_some.2 ⟨r, s', bs, hone, hrest, rfl⟩⟩

end Total

/-! ## A window that has just begun -/

/-- No deployed contract has an entry for a window that has not begun. -/
theorem callCount_eq_zero_of_lt {w : World Address} (hw : Deployed h w) (ledger : UInt32)
    (caller : Address) {start : UInt32} (hnew : w.ledger < start) :
    w.state.callCount ledger caller start = 0 := by
  obtain ⟨admin, maxCalls, windowSize, vk, s, ledger₀, hs, events, rfl⟩ := hw
  have hinv := windowInv_run (h := h) hs ledger₀ caller 0 windowSize events
  rcases hentry : ((machine h).run ⟨ledger₀, s⟩ events).state.temporary.get
    (.callCount caller start) with _ | e
  · simp only [State.callCount, TempStore.read, hentry]
    rfl
  · exact absurd (hinv.keys caller start e hentry) (UInt32.not_le.2 hnew)

theorem currentWindow_le (ledger windowSize : UInt32) :
    currentWindow ledger windowSize ≤ ledger := by
  rw [UInt32.le_iff_toNat_le, toNat_currentWindow]
  exact Nat.div_mul_le_self _ _

theorem max_eq_of_lt {a b : UInt32} (hlt : a < b) : max a b = b :=
  if_pos (UInt32.le_of_lt hlt)

/-- **A new window brings the whole budget back.** Whatever happened on a deployed contract before,
    when the ledger has moved to a later window an admitted caller's batch has its first `max_calls`
    items answered by their verdicts at that ledger and the rest with `false`, and the caller's
    count is the number of items so answered. Only the items within the limit need verdicts, and
    the counters room for the batch. -/
theorem fresh_window (h : Host) (w : World Address) (hw : Deployed h w) (limits : Limits)
    (vk : VerifyingKey) (hlimits : w.state.limits = some limits) (hvk : w.state.vk = some vk)
    (target : UInt32) (hnew : w.ledger < currentWindow target limits.windowSize)
    (auth : Address → Bool) (caller : Address) (hauth : auth caller = true)
    (haccess : checkAccess w.state caller = .ok ())
    (hextend : h.canExtend target limits.windowSize = true) (proofs : List ProofItem)
    (hlen : proofs.length < 2 ^ 32)
    (hverdict : ∀ item ∈ proofs.take limits.maxCalls.toNat, itemVerdict h target vk item ≠ none)
    (hcounter : ∀ item ∈ proofs,
      (w.state.verificationCount (item.inputsHash h)).toNat + proofs.length < 2 ^ 64) :
    let later := ((machine h).step w (.advance target)).2
    let reply := (machine h).step later (.tx ⟨auth, .verifyBatch caller proofs⟩)
    reply.1 = some (.ok (.flags ((proofs.take limits.maxCalls.toNat).map
        (fun item => item.verifies h target vk)
      ++ List.replicate (proofs.length - limits.maxCalls.toNat) false))) ∧
    (reply.2.state.windowCount target caller limits).toNat
      = min limits.maxCalls.toNat proofs.length := by
  obtain ⟨limits', vk', hcfg⟩ := configured_of_deployed hw
  obtain rfl : limits' = limits := Option.some.inj (hcfg.limits_eq.symm.trans hlimits)
  obtain rfl : vk' = vk := Option.some.inj (hcfg.vk_eq.symm.trans hvk)
  have htarget : max w.ledger target = target :=
    max_eq_of_lt (UInt32.lt_of_lt_of_le hnew (currentWindow_le target _))
  -- the caller has no entry yet, so the budget is the limit
  have hcount : w.state.windowCount target caller limits' = 0 :=
    callCount_eq_zero_of_lt hw target caller hnew
  have hbudget : w.state.budget target caller limits' = limits'.maxCalls.toNat := by
    rw [State.budget, hcount]
    rfl
  have hrun : ∃ bs t, submitAll h target caller (settleBatch h caller) proofs w.state
      = some (bs, t) :=
    exists_submitAll hcfg haccess hextend (by rw [hcount]; simpa using hlen)
      (by rw [hbudget]; exact hverdict) hcounter
  obtain ⟨bs, t, hrun⟩ := hrun
  obtain ⟨hbs, -, -, hcount'⟩ := submitAll_metered (settles_settleBatch caller) hcfg haccess hrun
  rw [hbudget, Metered.answers_of_charged _ charged_in_batch] at hbs
  rw [hbudget, hcount, Metered.spent_eq] at hcount'
  have hexec : exec h target w.state ⟨auth, .verifyBatch caller proofs⟩ = (.ok (.flags bs), t) := by
    rw [exec_verifyBatch, if_pos hauth, verifyBatchLoop_eq hcfg (checkAccess_eq_ok.1 haccess).1,
      hrun]
    rfl
  intro later reply
  have hreply : reply = (some (.ok (.flags bs)), ⟨target, t⟩) := by
    simp only [reply, later, machine, htarget, hexec]
  rw [hreply]
  refine ⟨?_, ?_⟩
  · rw [hbs, ← List.map_take, List.map_map, List.length_map]
    rfl
  · refine hcount'.trans ?_
    rw [List.countP_eq_length.2 fun v _ => charged_in_batch v, List.length_map]
    exact Nat.zero_add _

/-- The limit of one call is used up in the window from ledger 20; in the window from ledger 30 the
    first of two items is verified. -/
theorem fresh_window_exhausted :
    ((machine Host.scalar).step ((machine Host.scalar).step exhaustedWorld (.advance 31)).2
        (.tx ⟨fun _ => true, .verifyBatch () [zeroItem 7 100, zeroItem 8 100]⟩)).1
      = some (.ok (.flags [true, false])) := by
  have hfresh := fresh_window Host.scalar exhaustedWorld deployed_exhaustedWorld ⟨1, 10⟩ (.zero 1)
    (by decide +kernel) (by decide +kernel) 31 (by decide +kernel) (fun _ => true) () rfl
    (by decide +kernel) (by decide +kernel) [zeroItem 7 100, zeroItem 8 100] (by simp)
    (by decide +kernel) (by decide +kernel)
  rw [hfresh.1]
  decide +kernel

/-! ## Around the end of a window -/

/-- The passes of a caller that a trace committed at so many ledgers from a first one. -/
def passesWithin (h : Host) (caller : Address) (first count : ℕ) (tr : List (Step Address)) : ℕ :=
  ((tr.filter fun e => first ≤ e.pre.ledger.toNat ∧ e.pre.ledger.toNat < first + count).map
    (committedPasses h caller)).sum

/-- The limits at every step of the trace have this window and at most this many calls. -/
def LimitsWithin (maxCalls windowSize : UInt32) (tr : List (Step Address)) : Prop :=
  ∀ e ∈ tr, ∃ limits ∈ e.pre.state.limits,
    limits.windowSize = windowSize ∧ limits.maxCalls ≤ maxCalls

instance (maxCalls windowSize : UInt32) (tr : List (Step Address)) :
    Decidable (LimitsWithin maxCalls windowSize tr) :=
  inferInstanceAs (Decidable (∀ e ∈ tr, ∃ limits ∈ e.pre.state.limits, _ ∧ _))

omit [DecidableEq Address] in
theorem LimitsWithin.windowSteady {maxCalls windowSize : UInt32} {tr : List (Step Address)}
    (hlimits : LimitsWithin maxCalls windowSize tr) (k : ℕ) : WindowSteady k windowSize tr := by
  intro e he _
  obtain ⟨limits, heq, rfl, -⟩ := hlimits e he
  exact ⟨limits.maxCalls, heq⟩

/-- Submitting items never lifts the count above a bound the limit is within. -/
theorem windowCount_submitAll_le {s t : State Address} {limits : Limits} {vk : VerifyingKey}
    {caller : Address} {proofs : List ProofItem} {bs : List Bool} {n : ℕ}
    (hcfg : Configured s limits vk) (hmax : limits.maxCalls.toNat ≤ n)
    (hcount : (s.windowCount ledger caller limits).toNat ≤ n)
    (hrun : submitAll h ledger caller (settleBatch h caller) proofs s = some (bs, t)) :
    (t.windowCount ledger caller limits).toNat ≤ n := by
  induction proofs generalizing s bs with
  | nil =>
      cases hrun
      exact hcount
  | cons item proofs ih =>
      obtain ⟨r, s', bs', hone, hrest, rfl⟩ := submitAll_cons_eq_some.1 hrun
      have hframe : Frame s (settleBatch h caller item r s s') :=
        frame_of_settleBatch (frame_of_verifyOne hone)
      refine ih (hcfg.of_frame hframe) ?_ hrest
      -- the limiter lets an item pass only below the limit
      show (s'.windowCount ledger caller limits).toNat ≤ n
      rw [windowCount_of_verifyOne hcfg hone]
      split
      next hpassed =>
        have hroom := ((limiterVerdict_eq_passed hcfg).1 hpassed).2.2.1
        have hlt := UInt32.lt_iff_toNat_lt.1 hroom
        omega
      next => exact hcount

theorem windowCount_exec_le {s : State Address} {limits : Limits} {vk : VerifyingKey}
    (hcfg : Configured s limits vk) (tx : Tx Address) (caller : Address) {n : ℕ}
    (hmax : limits.maxCalls.toNat ≤ n) (hcount : (s.windowCount ledger caller limits).toNat ≤ n) :
    ((exec h ledger s tx).2.windowCount ledger caller limits).toNat ≤ n := by
  cases htx : tx.call.submission with
  | none => rwa [windowCount_congr (admin_cases h ledger s tx htx).temporary]
  | some sub =>
      obtain ⟨c, proofs⟩ := sub
      rcases submission_cases h ledger s tx htx with ⟨-, hsame⟩ | ⟨-, -, hrun⟩
      · rwa [hsame]
      by_cases hc : c = caller
      · subst hc
        exact windowCount_submitAll_le hcfg hmax hcount hrun
      · -- another caller's items touch another entry
        have hother := (temporary_of_submitAll hcfg hrun).1
          (.callCount caller (currentWindow ledger limits.windowSize))
          (fun heq => hc (DataKey.callCount.inj heq).1.symm)
        rwa [windowCount_congr_get hother]

/-- Under such limits no window has more committed passes than the limit. -/
theorem passesIn_le {admin : Address} {maxCalls₀ windowSize₀ : UInt32} {vk : VerifyingKey}
    {s : State Address} (hs : construct admin maxCalls₀ windowSize₀ vk = some s) (ledger : UInt32)
    (caller : Address) (k : ℕ) {maxCalls windowSize : UInt32} (events : List (Event Address)) :
    LimitsWithin maxCalls windowSize ((machine h).trace ⟨ledger, s⟩ events) →
      passesIn h caller k windowSize ((machine h).trace ⟨ledger, s⟩ events) ≤ maxCalls.toNat := by
  induction events using List.reverseRecOn with
  | nil => exact fun _ => Nat.zero_le _
  | append_singleton events event ih =>
      rw [Machine.trace_concat]
      intro hlimits
      have hbefore := ih fun e he => hlimits e (List.mem_append_left _ he)
      have hinv := windowInv_run (h := h) hs ledger caller k windowSize events
      have hafter := windowInv_step hinv event
      rw [passesIn_concat]
      split
      swap
      · exact hbefore
      next hin =>
        cases event with
        | advance target => exact hbefore
        | tx tx =>
            obtain ⟨limits, vk', hcfg⟩ := hinv.wellFormed.configured
            obtain ⟨limits', heq, hsize, hle⟩ :=
              hlimits _ (List.mem_append_right _ (List.mem_singleton_self _))
            obtain rfl : limits = limits' := Option.some.inj (hcfg.limits_eq.symm.trans heq)
            subst hsize
            -- in the window the entry holds the passes, before the call and after it
            have hentry := hinv.entry
              (LimitsWithin.windowSteady (fun e he => hlimits e (List.mem_append_left _ he)) k) hin
            have hcount := windowCount_of_entryExact hentry hin (m := limits.maxCalls)
            have hentry' := hafter.entry (hlimits.windowSteady k) hin
            have hcount' := windowCount_of_entryExact hentry' hin (m := limits.maxCalls)
            refine (le_of_eq ?_).trans (windowCount_exec_le (h := h) hcfg tx caller
              (UInt32.le_iff_toNat_le.1 hle) (hcount.trans_le hbefore))
            refine Eq.trans ?_ hcount'.symm
            rw [passesIn_concat, if_pos hin]

omit [DecidableEq Address] in
/-- Ledgers within one window's length of each other lie in one of two windows. -/
theorem inWindow_of_within {first : ℕ} {windowSize l : UInt32} (hle : first ≤ l.toNat)
    (hlt : l.toNat < first + windowSize.toNat) :
    InWindow (first / windowSize.toNat) windowSize l ∨
      InWindow (first / windowSize.toNat + 1) windowSize l := by
  have hdiv := Nat.div_add_mod first windowSize.toNat
  have hmod := Nat.mod_lt first (show 0 < windowSize.toNat by omega)
  unfold InWindow
  rw [Nat.add_mul, Nat.add_mul, Nat.add_mul, Nat.mul_comm (first / windowSize.toNat)]
  omega

theorem passesWithin_le (caller : Address) (first : ℕ) (windowSize : UInt32)
    (tr : List (Step Address)) :
    passesWithin h caller first windowSize.toNat tr
      ≤ passesIn h caller (first / windowSize.toNat) windowSize tr
        + passesIn h caller (first / windowSize.toNat + 1) windowSize tr := by
  induction tr using List.reverseRecOn with
  | nil => exact Nat.zero_le _
  | append_singleton tr e ih =>
      have hsplit : passesWithin h caller first windowSize.toNat (tr ++ [e])
          = passesWithin h caller first windowSize.toNat tr
            + if first ≤ e.pre.ledger.toNat ∧ e.pre.ledger.toNat < first + windowSize.toNat then
                committedPasses h caller e else 0 := by
        unfold passesWithin
        rw [List.filter_append, List.map_append, List.sum_append]
        by_cases hin : first ≤ e.pre.ledger.toNat ∧ e.pre.ledger.toNat < first + windowSize.toNat
        · simp [hin]
        · simp [hin]
      rw [hsplit, passesIn_concat, passesIn_concat]
      by_cases hin : first ≤ e.pre.ledger.toNat ∧ e.pre.ledger.toNat < first + windowSize.toNat
      · rw [if_pos hin]
        rcases inWindow_of_within hin.1 hin.2 with hwindow | hwindow
        · rw [if_pos hwindow]
          omega
        · rw [if_pos hwindow]
          omega
      · rw [if_neg hin]
        omega

/-- **Twice the limit in any window's length.** In every run all of whose steps have windows of one
    size and limits of at most `maxCalls`, a caller commits at most `2 * maxCalls` passes at any
    `windowSize` consecutive ledgers, wherever these start. -/
theorem sliding_bound (h : Host) (admin : Address) (maxCalls₀ windowSize₀ : UInt32)
    (vk : VerifyingKey) (s : State Address)
    (hs : construct admin maxCalls₀ windowSize₀ vk = some s) (ledger : UInt32)
    (events : List (Event Address)) (maxCalls windowSize : UInt32)
    (hlimits : LimitsWithin maxCalls windowSize ((machine h).trace ⟨ledger, s⟩ events))
    (caller : Address) (first : ℕ) :
    passesWithin h caller first windowSize.toNat ((machine h).trace ⟨ledger, s⟩ events)
      ≤ 2 * maxCalls.toNat := by
  have hone := passesIn_le (h := h) hs ledger caller (first / windowSize.toNat) events hlimits
  have htwo := passesIn_le (h := h) hs ledger caller (first / windowSize.toNat + 1) events hlimits
  have hsum := passesWithin_le (h := h) caller first windowSize
    ((machine h).trace ⟨ledger, s⟩ events)
  omega

/-- One call at ledger 29 and one at ledger 30, with a limit of one in ten ledgers: two of them in
    two ledgers. -/
theorem sliding_bound_tight :
    let tr := (machine Host.scalar).trace ⟨29, zeroState 1 10⟩
      [.tx (signed (.verifyProof () (zeroItem 7 100))), .advance 30,
        .tx (signed (.verifyProof () (zeroItem 7 100)))]
    passesWithin Host.scalar () 29 10 tr ≤ 2 ∧ passesWithin Host.scalar () 29 10 tr = 2 :=
  ⟨sliding_bound Host.scalar () 1 10 (.zero 1) (zeroState 1 10) (construct_zero (by decide)) 29 _
    1 10
    (by decide +kernel) () 29, by decide +kernel⟩

end ZkStellar.Verifier

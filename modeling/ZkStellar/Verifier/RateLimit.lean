import ZkStellar.Verifier.History

set_option autoImplicit false

/-! # The rate limit over whole runs

The limiter reads and writes one evictable entry for each caller and window. In a window throughout
which the window size stays the same, that entry always equals the number of the caller's committed
passes in the window (`WindowInv`): it cannot exist before the window begins, it outlives the
window once it is written, a batch adds exactly its passes, and a call that is rolled back adds
none. The limiter therefore decides by the true count (`rate_limit`). The entry is keyed by the
window's start alone, so under new limits a caller who was rejected is rejected again if the window
starts where it did (`tighter_limits_reject_iff`). -/

namespace ZkStellar.Verifier

variable {Address : Type} [DecidableEq Address] {h : Host} {ledger : UInt32}

/-! ## Attempts -/

/-- What the rate limiter says of a call that reaches it. -/
inductive LimiterVerdict where
  | passed
  | rejected
deriving DecidableEq

/-- The limiter's verdict on a caller's next item: `none` if the item does not get that far, or
    traps in the limiter. -/
def limiterVerdict (h : Host) (ledger : UInt32) (caller : Address) (s : State Address) :
    Option LimiterVerdict :=
  match checkAccess s caller with
  | .error _ => none
  | .ok () =>
      match s.limits with
      | none => none
      | some limits =>
          match countCall h ledger limits caller s with
          | some (.ok (), _) => some .passed
          | some (.error .rateLimitExceeded, _) => some .rejected
          | _ => none

/-- The limiter's verdicts on the items of a call, up to one that traps. -/
def attempts (h : Host) (ledger : UInt32) (caller : Address) :
    List ProofItem → State Address → List (Option LimiterVerdict)
  | [], _ => []
  | item :: proofs, s =>
      limiterVerdict h ledger caller s ::
        match verifyOne h ledger caller item s with
        | none => []
        | some (r, s') => attempts h ledger caller proofs (settleBatch h caller item r s s')

/-- The passes among some verdicts. -/
def passes (verdicts : List (Option LimiterVerdict)) : ℕ := verdicts.count (some .passed)

section Verdict

variable {s : State Address} {limits : Limits} {vk : VerifyingKey} {caller : Address}

theorem limiterVerdict_eq_passed (hcfg : Configured s limits vk) :
    limiterVerdict h ledger caller s = some .passed ↔
      checkAccess s caller = .ok () ∧ s.windowCount ledger caller limits ≠ maxCount ∧
        s.windowCount ledger caller limits < limits.maxCalls ∧
        h.canExtend ledger limits.windowSize = true := by
  unfold limiterVerdict
  cases checkAccess s caller with
  | error e => simp
  | ok _ =>
      rw [hcfg.limits_eq]
      simp only [true_and]
      constructor
      · intro hpassed
        split at hpassed
        · next hcount =>
            obtain ⟨hmax, hroom, hextend, -⟩ := (countCall_eq_ok hcfg.windowSize_ne).1 hcount
            exact ⟨hmax, hroom, hextend⟩
        · cases hpassed
        · cases hpassed
      · intro hparts
        obtain ⟨hmax, hroom, hextend⟩ := hparts
        rw [(countCall_eq_ok hcfg.windowSize_ne).2 ⟨hmax, hroom, hextend, rfl⟩]

theorem limiterVerdict_rejected_iff (hcfg : Configured s limits vk) :
    limiterVerdict h ledger caller s = some .rejected ↔
      checkAccess s caller = .ok () ∧ s.windowCount ledger caller limits ≠ maxCount ∧
        limits.maxCalls ≤ s.windowCount ledger caller limits := by
  unfold limiterVerdict
  cases checkAccess s caller with
  | error e => simp
  | ok _ =>
      rw [hcfg.limits_eq]
      simp only [true_and]
      constructor
      · intro hrejected
        split at hrejected
        · cases hrejected
        · next hcount =>
            obtain ⟨hmax, hfull, -⟩ := (countCall_eq_error hcfg.windowSize_ne).1 hcount
            exact ⟨hmax, hfull⟩
        · cases hrejected
      · intro hfull
        rw [(countCall_eq_error hcfg.windowSize_ne).2 ⟨hfull.1, hfull.2, rfl, rfl⟩]

omit [DecidableEq Address] in
theorem checkAccess_ne_rateLimitExceeded :
    checkAccess s caller ≠ .error .rateLimitExceeded := by
  unfold checkAccess
  split
  · simp
  · split <;> simp

theorem itemVerdict_ne_rateLimitExceeded {item : ProofItem} :
    itemVerdict h ledger vk item ≠ some (.error .rateLimitExceeded) := by
  unfold itemVerdict
  split
  · split <;> simp
  · simp

/-- `verify_one` answers `RateLimitExceeded` exactly when the limiter rejects the caller. -/
theorem limiterVerdict_eq_rejected (hcfg : Configured s limits vk) {item : ProofItem} :
    limiterVerdict h ledger caller s = some .rejected ↔
      ∃ s', verifyOne h ledger caller item s = some (.error .rateLimitExceeded, s') := by
  rw [limiterVerdict, verifyOne_eq hcfg, hcfg.limits_eq]
  cases haccess : checkAccess s caller with
  | error e =>
      have hne : e ≠ .rateLimitExceeded := by
        rintro rfl
        exact checkAccess_ne_rateLimitExceeded haccess
      simp [hne]
  | ok _ =>
      rcases hcount : countCall h ledger limits caller s with _ | ⟨e | _, s₁⟩
      · simp [hcount]
      · -- the limiter's only error is the rejection
        obtain ⟨-, -, rfl, rfl⟩ := (countCall_eq_error hcfg.windowSize_ne).1 hcount
        simp [hcount]
      · have hne := @itemVerdict_ne_rateLimitExceeded h ledger vk item
        rcases hverdict : itemVerdict h ledger vk item with _ | e | _ | _
        · simp [hcount]
        · rw [hverdict] at hne
          simpa [hcount] using hne
        · simp [hcount]
        · simp [hcount]

theorem limiterVerdict_of_verifyOne_ok (hcfg : Configured s limits vk) {item : ProofItem} {b : Bool}
    {s' : State Address} (hrun : verifyOne h ledger caller item s = some (.ok b, s')) :
    limiterVerdict h ledger caller s = some .passed := by
  rw [limiterVerdict_eq_passed hcfg]
  cases verifyOne_cases hcfg hrun with
  | refused _ haccess hmax hroom hextend _ _ => exact ⟨haccess, hmax, hroom, hextend⟩
  | verified haccess hmax hroom hextend _ _ => exact ⟨haccess, hmax, hroom, hextend⟩

/-- `verify_one` counts the item exactly when the limiter lets it pass. -/
theorem windowCount_of_verifyOne (hcfg : Configured s limits vk) {item : ProofItem}
    {r : Except Error Bool} {s' : State Address}
    (hrun : verifyOne h ledger caller item s = some (r, s')) :
    (s'.windowCount ledger caller limits).toNat = (s.windowCount ledger caller limits).toNat
      + if limiterVerdict h ledger caller s = some .passed then 1 else 0 := by
  have hiff : limiterVerdict h ledger caller s = some .passed ↔ _ := limiterVerdict_eq_passed hcfg
  cases verifyOne_cases hcfg hrun with
  | denied e hdenied =>
      rw [if_neg fun hpassed => ?_, Nat.add_zero]
      have haccess := (hiff.1 hpassed).1
      rw [hdenied] at haccess
      cases haccess
  | limited _ hfull =>
      rw [if_neg fun hpassed => UInt32.not_lt.2 hfull (hiff.1 hpassed).2.2.1, Nat.add_zero]
  | refused _ haccess hmax hroom hextend _ _ =>
      rw [if_pos (hiff.2 ⟨haccess, hmax, hroom, hextend⟩), windowCount_counted hextend,
        toNat_add_one_of_ne hmax]
  | verified haccess hmax hroom hextend _ _ =>
      rw [if_pos (hiff.2 ⟨haccess, hmax, hroom, hextend⟩), ← toNat_add_one_of_ne hmax,
        ← windowCount_counted hextend]
      rfl

end Verdict

/-- Through a call the limiter's verdicts compare the count before it, plus the earlier passes in
    it, with the limit. -/
theorem attempts_spec {s : State Address} {limits : Limits} {vk : VerifyingKey}
    (hcfg : Configured s limits vk) {caller : Address} {proofs : List ProofItem} {i : ℕ}
    {v : LimiterVerdict} (hv : (attempts h ledger caller proofs s)[i]? = some (some v)) :
    let n := (s.windowCount ledger caller limits).toNat
      + passes ((attempts h ledger caller proofs s).take i)
    (v = .passed → n < limits.maxCalls.toNat) ∧ (v = .rejected → limits.maxCalls.toNat ≤ n) := by
  induction proofs generalizing s i with
  | nil => simp [attempts] at hv
  | cons item proofs ih =>
      rw [attempts] at hv ⊢
      cases i with
      | zero =>
          simp only [List.getElem?_cons_zero, Option.some.injEq] at hv
          simp only [List.take_zero, passes, List.count_nil, Nat.add_zero]
          refine ⟨?_, ?_⟩
          · rintro rfl
            exact UInt32.lt_iff_toNat_lt.1 ((limiterVerdict_eq_passed hcfg).1 hv).2.2.1
          · rintro rfl
            exact UInt32.le_iff_toNat_le.1 ((limiterVerdict_rejected_iff hcfg).1 hv).2.2
      | succ i =>
          cases hone : verifyOne h ledger caller item s with
          | none => simp [hone] at hv
          | some out =>
              obtain ⟨r, s'⟩ := out
              simp only [hone, List.getElem?_cons_succ, List.take_succ_cons, passes,
                List.count_cons] at hv ⊢
              have hframe : Frame s (settleBatch h caller item r s s') :=
                frame_of_settleBatch (frame_of_verifyOne hone)
              -- the items behind it meet the count it left
              have hrest := ih (hcfg.of_frame hframe) hv
              have hcount := windowCount_of_verifyOne hcfg hone
              have hsettle : (settleBatch h caller item r s s').windowCount ledger caller limits
                  = s'.windowCount ledger caller limits := rfl
              simp only [hsettle, hcount, passes] at hrest
              simp only [beq_iff_eq]
              refine ⟨fun hp => ?_, fun hr => ?_⟩
              · have := hrest.1 hp
                omega
              · have := hrest.2 hr
                omega

/-! ## The caller's entry after a call -/

/-- An entry written in a window of so many ledgers at `ledger` can be read to the window's end. -/
def Covers (ledger windowSize liveUntil : UInt32) : Prop :=
  ∀ l, ledger ≤ l → l.toNat ≤ ledger.toNat + windowSize.toNat → l ≤ liveUntil

section Entry

variable {s t : State Address} {limits : Limits} {vk : VerifyingKey} {caller : Address}

theorem counted_get (hextend : h.canExtend ledger limits.windowSize = true) :
    ∃ e, (counted h ledger caller limits s).temporary.get
        (.callCount caller (currentWindow ledger limits.windowSize)) = some e ∧
      Covers ledger limits.windowSize e.liveUntil :=
  ⟨_, setCallCount_get_self, fun _ hle hcover => h.le_extendedUntil _ _ _ _ hextend hle hcover⟩

/-- `verify_one` writes no temporary entry but the caller's for the current window, and a written
    entry covers the window. -/
theorem temporary_of_verifyOne (hcfg : Configured s limits vk) {item : ProofItem}
    {r : Except Error Bool} (hrun : verifyOne h ledger caller item s = some (r, t)) :
    (∀ k, k ≠ .callCount caller (currentWindow ledger limits.windowSize) →
        t.temporary.get k = s.temporary.get k) ∧
      (t.temporary = s.temporary ∨ ∃ e, t.temporary.get
          (.callCount caller (currentWindow ledger limits.windowSize)) = some e ∧
        Covers ledger limits.windowSize e.liveUntil) := by
  cases verifyOne_cases hcfg hrun with
  | denied e _ => exact ⟨fun _ _ => rfl, .inl rfl⟩
  | limited _ _ => exact ⟨fun _ _ => rfl, .inl rfl⟩
  | refused _ _ _ _ hextend _ _ =>
      exact ⟨fun k hk => setCallCount_get_of_ne hk, .inr (counted_get hextend)⟩
  | verified _ _ _ hextend _ _ =>
      exact ⟨fun k hk => setCallCount_get_of_ne hk, .inr (counted_get hextend)⟩

/-- The same of a whole call, and it adds its passes to the count. -/
theorem temporary_of_submitAll (hcfg : Configured s limits vk) {proofs : List ProofItem}
    {bs : List Bool}
    (hrun : submitAll h ledger caller (settleBatch h caller) proofs s = some (bs, t)) :
    (∀ k, k ≠ .callCount caller (currentWindow ledger limits.windowSize) →
        t.temporary.get k = s.temporary.get k) ∧
      (t.temporary.get (.callCount caller (currentWindow ledger limits.windowSize))
          = s.temporary.get (.callCount caller (currentWindow ledger limits.windowSize)) ∨
        ∃ e, t.temporary.get (.callCount caller (currentWindow ledger limits.windowSize)) = some e ∧
          Covers ledger limits.windowSize e.liveUntil) ∧
      (t.windowCount ledger caller limits).toNat = (s.windowCount ledger caller limits).toNat
        + passes (attempts h ledger caller proofs s) := by
  induction proofs generalizing s bs with
  | nil =>
      cases hrun
      exact ⟨fun _ _ => rfl, .inl rfl, rfl⟩
  | cons item proofs ih =>
      obtain ⟨r, s', bs', hone, hrest, rfl⟩ := submitAll_cons_eq_some.1 hrun
      rw [attempts]
      have hframe : Frame s (settleBatch h caller item r s s') :=
        frame_of_settleBatch (frame_of_verifyOne hone)
      obtain ⟨hother, hentry, hcount⟩ := ih (hcfg.of_frame hframe) hrest
      obtain ⟨hother₁, hentry₁⟩ := temporary_of_verifyOne hcfg hone
      have hcount₁ := windowCount_of_verifyOne hcfg hone
      have hsettle : (settleBatch h caller item r s s').windowCount ledger caller limits
          = s'.windowCount ledger caller limits := rfl
      refine ⟨fun k hk => (hother k hk).trans (hother₁ k hk), ?_, ?_⟩
      · rcases hentry with hsame | hnew
        · rcases hentry₁ with hsame₁ | ⟨e, hget, hcovers⟩
          · exact .inl (hsame.trans (congrFun hsame₁ _))
          · exact .inr ⟨e, hsame.trans hget, hcovers⟩
        · exact .inr hnew
      · rw [hsettle, hcount₁] at hcount
        rw [hcount, hone]
        simp only [passes, List.count_cons, beq_iff_eq]
        omega

end Entry

/-! ## Windows of a run -/

/-- The ledger lies in the window `[k * windowSize, (k + 1) * windowSize)`. -/
def InWindow (k : ℕ) (windowSize ledger : UInt32) : Prop :=
  k * windowSize.toNat ≤ ledger.toNat ∧ ledger.toNat < (k + 1) * windowSize.toNat

instance (k : ℕ) (windowSize ledger : UInt32) : Decidable (InWindow k windowSize ledger) :=
  inferInstanceAs (Decidable (_ ∧ _))

/-- The key of a caller's entry for a window. -/
def windowKey (caller : Address) (k : ℕ) (windowSize : UInt32) : DataKey Address :=
  .callCount caller (UInt32.ofNat (k * windowSize.toNat))

theorem toNat_windowStart {k : ℕ} {windowSize : UInt32} (hin : InWindow k windowSize ledger) :
    (UInt32.ofNat (k * windowSize.toNat)).toNat = k * windowSize.toNat := by
  have hlt := ledger.toNat_lt
  rw [UInt32.toNat_ofNat']
  exact Nat.mod_eq_of_lt (by have := hin.1; omega)

theorem currentWindow_of_inWindow {k : ℕ} {windowSize : UInt32}
    (hin : InWindow k windowSize ledger) :
    currentWindow ledger windowSize = UInt32.ofNat (k * windowSize.toNat) := by
  refine UInt32.toNat_inj.1 ?_
  rw [toNat_currentWindow, toNat_windowStart hin]
  have hdiv : ledger.toNat / windowSize.toNat = k := Nat.div_eq_of_lt_le hin.1 hin.2
  rw [hdiv]

/-- The passes of a caller that a step committed. -/
def committedPasses (h : Host) (caller : Address) (e : Step Address) : ℕ :=
  match e.input, e.outcome with
  | .tx tx, some (.ok _) =>
      match tx.call.submission with
      | some (c, proofs) =>
          if c = caller then passes (attempts h e.pre.ledger c proofs e.pre.state) else 0
      | none => 0
  | _, _ => 0

/-- The passes of a caller that a trace committed in a window. -/
def passesIn (h : Host) (caller : Address) (k : ℕ) (windowSize : UInt32)
    (tr : List (Step Address)) : ℕ :=
  ((tr.filter fun e => InWindow k windowSize e.pre.ledger).map (committedPasses h caller)).sum

/-- The window size is `windowSize` at every step of the trace in the window. -/
def WindowSteady (k : ℕ) (windowSize : UInt32) (tr : List (Step Address)) : Prop :=
  ∀ e ∈ tr, InWindow k windowSize e.pre.ledger → ∃ m, e.pre.state.limits = some ⟨m, windowSize⟩

theorem passesIn_concat (caller : Address) (k : ℕ) (windowSize : UInt32) (tr : List (Step Address))
    (e : Step Address) : passesIn h caller k windowSize (tr ++ [e])
      = passesIn h caller k windowSize tr
        + if InWindow k windowSize e.pre.ledger then committedPasses h caller e else 0 := by
  unfold passesIn
  rw [List.filter_append, List.map_append, List.sum_append]
  by_cases hin : InWindow k windowSize e.pre.ledger <;> simp [hin]

/-- The caller's entry for the window: while the ledger is in the window and the window size has
    been steady in it, the entry is missing and no pass was committed, or it holds the number of
    committed passes and lives to the window's end. -/
def EntryExact (h : Host) (caller : Address) (k : ℕ) (windowSize : UInt32)
    (tr : List (Step Address)) (w : World Address) : Prop :=
  (w.state.temporary.get (windowKey caller k windowSize) = none ∧
      passesIn h caller k windowSize tr = 0) ∨
    ∃ n liveUntil, w.state.temporary.get (windowKey caller k windowSize) = some ⟨n, liveUntil⟩ ∧
      n.toNat = passesIn h caller k windowSize tr ∧
      ∀ l, InWindow k windowSize l → l ≤ liveUntil

/-- What a run keeps for a caller and a window. -/
structure WindowInv (h : Host) (caller : Address) (k : ℕ) (windowSize : UInt32)
    (tr : List (Step Address)) (w : World Address) : Prop where
  wellFormed : WellFormed w.state
  ledgers : ∀ e ∈ tr, e.pre.ledger ≤ w.ledger
  /-- No entry is keyed by a window that has not begun. -/
  keys : ∀ a start e, w.state.temporary.get (.callCount a start) = some e → start ≤ w.ledger
  entry : WindowSteady k windowSize tr → InWindow k windowSize w.ledger →
    EntryExact h caller k windowSize tr w

/-! ## Steps -/

/-- What a transaction does to the temporary entries: it writes only entries for the current window,
    which then cover it, and adds each caller's committed passes to that caller's count. -/
theorem temporary_of_exec (h : Host) (ledger : UInt32) {s : State Address} {limits : Limits}
    {vk : VerifyingKey} (hcfg : Configured s limits vk) (tx : Tx Address) :
    let e : Step Address := ⟨⟨ledger, s⟩, .tx tx, some (exec h ledger s tx).1⟩
    let s' := (exec h ledger s tx).2
    (∀ k, (∀ c, k ≠ .callCount c (currentWindow ledger limits.windowSize)) →
        s'.temporary.get k = s.temporary.get k) ∧
      ∀ c, (s'.temporary.get (.callCount c (currentWindow ledger limits.windowSize))
            = s.temporary.get (.callCount c (currentWindow ledger limits.windowSize)) ∨
          ∃ e, s'.temporary.get (.callCount c (currentWindow ledger limits.windowSize)) = some e ∧
            Covers ledger limits.windowSize e.liveUntil) ∧
        (s'.windowCount ledger c limits).toNat
          = (s.windowCount ledger c limits).toNat + committedPasses h c e := by
  intro e s'
  cases htx : tx.call.submission with
  | none =>
      -- an administrator's call writes instance storage only
      have hsame : s'.temporary = s.temporary := (admin_cases h ledger s tx htx).temporary
      have hnone : ∀ c, committedPasses h c e = 0 := by
        intro c
        simp only [e, committedPasses]
        split
        · next heq _ =>
            cases heq
            rw [htx]
        · rfl
      refine ⟨fun k _ => by rw [hsame], fun c => ⟨.inl (by rw [hsame]), ?_⟩⟩
      rw [hnone, windowCount_congr hsame, Nat.add_zero]
  | some sub =>
      obtain ⟨caller, proofs⟩ := sub
      rcases submission_cases h ledger s tx htx with ⟨hno, hsame⟩ | ⟨-, ⟨v, hv⟩, hrun⟩
      · -- the submission was rolled back: no pass of it is committed
        have hnone : ∀ c, committedPasses h c e = 0 := by
          intro c
          simp only [e, committedPasses]
          split
          · next hok => exact absurd (Option.some.inj hok) (hno _)
          · rfl
        have hsame' : s' = s := hsame
        refine ⟨fun k _ => by rw [hsame'], fun c => ⟨.inl (by rw [hsame']), ?_⟩⟩
        rw [hnone, hsame', Nat.add_zero]
      · obtain ⟨hother, hentry, hcount⟩ := temporary_of_submitAll hcfg hrun
        refine ⟨fun k hk => hother k (hk caller), ?_⟩
        intro c
        by_cases hc : caller = c
        · subst hc
          refine ⟨hentry, ?_⟩
          simp only [e, committedPasses, hv, htx, if_true]
          exact hcount
        · -- only the caller's own entry was written
          have hget : s'.temporary.get (.callCount c (currentWindow ledger limits.windowSize))
              = s.temporary.get (.callCount c (currentWindow ledger limits.windowSize)) :=
            hother _ (by simpa [eq_comm] using hc)
          refine ⟨.inl hget, ?_⟩
          simp only [e, committedPasses, hv, htx, if_neg hc, Nat.add_zero]
          rw [windowCount_congr_get hget]

theorem le_ledger_max (a b : UInt32) : a ≤ max a b := by
  show a ≤ if a ≤ b then b else a
  split
  · assumption
  · exact UInt32.le_refl a

section Steps

variable {caller : Address} {k : ℕ} {windowSize : UInt32} {tr : List (Step Address)}
  {w : World Address}

theorem passesIn_eq_zero (hbefore : ∀ e ∈ tr, ¬ InWindow k windowSize e.pre.ledger) :
    passesIn h caller k windowSize tr = 0 := by
  rw [passesIn, List.filter_eq_nil_iff.2 (by simpa using hbefore)]
  rfl

theorem windowInv_advance (hinv : WindowInv h caller k windowSize tr w) (target : UInt32) :
    WindowInv h caller k windowSize (tr ++ [⟨w, .advance target, none⟩])
      { w with ledger := max w.ledger target } := by
  have hle := le_ledger_max w.ledger target
  have hpasses : passesIn h caller k windowSize (tr ++ [⟨w, .advance target, none⟩])
      = passesIn h caller k windowSize tr := by
    rw [passesIn_concat]
    simp [committedPasses]
  constructor
  · exact hinv.wellFormed
  · intro e he
    rcases List.mem_append.1 he with hold | hnew
    · exact UInt32.le_trans (hinv.ledgers e hold) hle
    · obtain rfl := List.mem_singleton.1 hnew
      exact hle
  · intro a start e hget
    exact UInt32.le_trans (hinv.keys a start e hget) hle
  · intro hsteady hin
    unfold EntryExact
    rw [hpasses]
    by_cases hin₀ : InWindow k windowSize w.ledger
    · exact hinv.entry (fun e he => hsteady e (List.mem_append_left _ he)) hin₀
    · -- the window has just begun: nothing can have been written or counted in it
      have hbefore : w.ledger.toNat < k * windowSize.toNat := by
        have hle' := UInt32.le_iff_toNat_le.1 hle
        have hlt := hin.2
        simp only at hlt
        by_contra hge
        exact hin₀ ⟨by omega, by omega⟩
      left
      refine ⟨?_, passesIn_eq_zero fun e he hin' => ?_⟩
      · by_contra hsome
        obtain ⟨e, he⟩ := Option.ne_none_iff_exists'.1 hsome
        have hstart := UInt32.le_iff_toNat_le.1 (hinv.keys _ _ e he)
        rw [toNat_windowStart hin] at hstart
        omega
      · have hle' := UInt32.le_iff_toNat_le.1 (hinv.ledgers e he)
        have := hin'.1
        omega

/-- While the entry is exact, the count the limiter reads is the number of committed passes. -/
theorem windowCount_of_entryExact (hentry : EntryExact h caller k windowSize tr w)
    (hin : InWindow k windowSize w.ledger) {m : UInt32} :
    (w.state.windowCount w.ledger caller ⟨m, windowSize⟩).toNat
      = passesIn h caller k windowSize tr := by
  unfold State.windowCount State.callCount
  rw [currentWindow_of_inWindow hin]
  rcases hentry with ⟨hnone, hzero⟩ | ⟨n, liveUntil, hget, hn, hlive⟩
  · unfold windowKey at hnone
    rw [hzero, TempStore.read, hnone]
    rfl
  · unfold windowKey at hget
    rw [TempStore.read_eq_some hget (hlive _ hin)]
    exact hn

/-- A transaction in the window keeps the entry exact. -/
theorem entryExact_tx (hinv : WindowInv h caller k windowSize tr w) (tx : Tx Address)
    (hsteady : WindowSteady k windowSize
      (tr ++ [⟨w, .tx tx, some (exec h w.ledger w.state tx).1⟩]))
    (hin : InWindow k windowSize w.ledger) :
    EntryExact h caller k windowSize (tr ++ [⟨w, .tx tx, some (exec h w.ledger w.state tx).1⟩])
      { w with state := (exec h w.ledger w.state tx).2 } := by
  obtain ⟨limits, vk, hcfg⟩ := hinv.wellFormed.configured
  obtain ⟨m, hm⟩ := hsteady _ (List.mem_append_right _ (List.mem_singleton_self _)) hin
  have hlimits : limits = ⟨m, windowSize⟩ := Option.some.inj (hcfg.limits_eq.symm.trans hm)
  subst hlimits
  have hentry := hinv.entry (fun e he => hsteady e (List.mem_append_left _ he)) hin
  have hcount := windowCount_of_entryExact hentry hin (m := m)
  obtain ⟨-, hcurrent⟩ := temporary_of_exec h w.ledger hcfg tx
  obtain ⟨hget, hcount'⟩ := hcurrent caller
  -- the committed passes up to and with the call are what the limiter reads after it
  have htotal : passesIn h caller k windowSize
        (tr ++ [⟨w, .tx tx, some (exec h w.ledger w.state tx).1⟩])
      = ((exec h w.ledger w.state tx).2.windowCount w.ledger caller ⟨m, windowSize⟩).toNat := by
    rw [passesIn_concat, if_pos hin, hcount', hcount]
  unfold EntryExact
  rw [htotal]
  rcases hget with hsame | ⟨e, hnew, hcovers⟩
  · rw [windowCount_congr_get hsame, hcount]
    rw [currentWindow_of_inWindow hin] at hsame
    simp only [windowKey, hsame]
    exact hentry
  · have hlive : w.ledger ≤ e.liveUntil := hcovers _ (UInt32.le_refl _) (Nat.le_add_right _ _)
    have hread : (exec h w.ledger w.state tx).2.windowCount w.ledger caller ⟨m, windowSize⟩
        = e.val := by
      rw [State.windowCount, State.callCount, TempStore.read_eq_some hnew hlive]
      rfl
    rw [currentWindow_of_inWindow hin] at hnew
    refine .inr ⟨e.val, e.liveUntil, hnew, by rw [hread], ?_⟩
    intro l hl
    -- the window ends within its length from here
    by_cases hle : w.ledger ≤ l
    · refine hcovers l hle ?_
      have hstart := hin.1
      have hend := hl.2
      rw [Nat.add_mul] at hend
      simp only at hstart ⊢
      omega
    · exact UInt32.le_trans (UInt32.le_of_lt (UInt32.not_le.1 hle)) hlive

theorem windowInv_tx (hinv : WindowInv h caller k windowSize tr w) (tx : Tx Address) :
    WindowInv h caller k windowSize
      (tr ++ [⟨w, .tx tx, some (exec h w.ledger w.state tx).1⟩])
      { w with state := (exec h w.ledger w.state tx).2 } := by
  obtain ⟨limits, vk, hcfg⟩ := hinv.wellFormed.configured
  obtain ⟨hother, -⟩ := temporary_of_exec h w.ledger hcfg tx
  constructor
  · exact wellFormed_exec hinv.wellFormed tx
  · intro e he
    rcases List.mem_append.1 he with hold | hnew
    · exact hinv.ledgers e hold
    · obtain rfl := List.mem_singleton.1 hnew
      exact UInt32.le_refl _
  · -- a call writes only under the window that has begun last
    intro a start e hget
    by_cases hstart : start = currentWindow w.ledger limits.windowSize
    · rw [hstart, UInt32.le_iff_toNat_le, toNat_currentWindow]
      exact Nat.div_mul_le_self _ _
    · simp only at hget
      rw [hother _ (fun c heq => hstart (DataKey.callCount.inj heq).2)] at hget
      exact hinv.keys a start e hget
  · exact entryExact_tx hinv tx

theorem windowInv_step (hinv : WindowInv h caller k windowSize tr w) (event : Event Address) :
    WindowInv h caller k windowSize (tr ++ [⟨w, event, ((machine h).step w event).1⟩])
      ((machine h).step w event).2 := by
  cases event with
  | advance target => exact windowInv_advance hinv target
  | tx tx => exact windowInv_tx hinv tx

end Steps

/-! ## Runs -/

theorem windowInv_run {admin : Address} {maxCalls windowSize : UInt32} {vk : VerifyingKey}
    {s : State Address} (hs : construct admin maxCalls windowSize vk = some s) (ledger : UInt32)
    (caller : Address) (k : ℕ) (size : UInt32) (events : List (Event Address)) :
    WindowInv h caller k size ((machine h).trace ⟨ledger, s⟩ events)
      ((machine h).run ⟨ledger, s⟩ events) := by
  have hempty : s.temporary = Store.empty := by
    unfold construct at hs
    split at hs
    · cases hs
      rfl
    · cases hs
  refine (machine h).run_induction (P := WindowInv h caller k size) ?_
    (fun tr w event hinv => windowInv_step hinv event) events
  constructor
  · exact wellFormed_construct hs
  · simp
  · simp [hempty]
  · intro _ _
    exact .inl ⟨by rw [hempty]; rfl, rfl⟩

/-- While the entry is exact, the limiter's verdicts on the items of a call compare the committed
    passes and the earlier ones of the call with the limit. -/
theorem attempts_of_entryExact {caller : Address} {k : ℕ} {tr : List (Step Address)}
    {w : World Address} {limits : Limits} {vk : VerifyingKey} (hcfg : Configured w.state limits vk)
    (hentry : EntryExact h caller k limits.windowSize tr w)
    (hin : InWindow k limits.windowSize w.ledger) {proofs : List ProofItem} {i : ℕ}
    {v : LimiterVerdict}
    (hv : (attempts h w.ledger caller proofs w.state)[i]? = some (some v)) :
    let n := passesIn h caller k limits.windowSize tr
      + passes ((attempts h w.ledger caller proofs w.state).take i)
    (v = .passed → n < limits.maxCalls.toNat) ∧ (v = .rejected → limits.maxCalls.toNat ≤ n) := by
  have hspec := attempts_spec hcfg hv
  rw [windowCount_of_entryExact hentry hin (m := limits.maxCalls)] at hspec
  exact hspec

/-- **The rate limit over whole runs.** Take any run from construction, a window throughout which
    the window size has stayed the same so far, and the number of a caller's passes committed in
    it. When a call of the caller, or an item of a batch after the passes of the earlier items,
    gets past the limiter, that number is below the `max_calls` then in force; when it is rejected,
    the number has reached `max_calls`. -/
theorem rate_limit (h : Host) (admin : Address) (maxCalls windowSize : UInt32) (vk : VerifyingKey)
    (s : State Address) (hs : construct admin maxCalls windowSize vk = some s) (ledger : UInt32)
    (events : List (Event Address)) (caller : Address) (k : ℕ) (limits : Limits) :
    let tr := (machine h).trace ⟨ledger, s⟩ events
    let w := (machine h).run ⟨ledger, s⟩ events
    let committed := passesIn h caller k limits.windowSize tr
    w.state.limits = some limits → InWindow k limits.windowSize w.ledger →
    WindowSteady k limits.windowSize tr →
    (∀ proofs i v, (attempts h w.ledger caller proofs w.state)[i]? = some (some v) →
      let n := committed + passes ((attempts h w.ledger caller proofs w.state).take i)
      (v = .passed → n < limits.maxCalls.toNat) ∧
        (v = .rejected → limits.maxCalls.toNat ≤ n)) ∧
    ∀ auth item, let result := (exec h w.ledger w.state ⟨auth, .verifyProof caller item⟩).1
      (∀ b, result = .ok (.flag b) → committed < limits.maxCalls.toNat) ∧
        (result = .err .rateLimitExceeded → limits.maxCalls.toNat ≤ committed) := by
  intro tr w committed hlimits hin hsteady
  have hinv : WindowInv h caller k limits.windowSize tr w := windowInv_run hs ledger _ _ _ events
  obtain ⟨limits', vk', hcfg⟩ := hinv.wellFormed.configured
  obtain rfl : limits' = limits := Option.some.inj (hcfg.limits_eq.symm.trans hlimits)
  have hentry := hinv.entry hsteady hin
  refine ⟨fun proofs i v hv => attempts_of_entryExact hcfg hentry hin hv, ?_⟩
  intro auth item
  -- a single call is the first and only item
  have hhead : (attempts h w.ledger caller [item] w.state)[0]?
      = some (limiterVerdict h w.ledger caller w.state) := rfl
  simp only [exec_verifyProof]
  refine ⟨fun b hok => ?_, fun herr => ?_⟩
  · split at hok
    · split at hok
      · cases hok
      · next hrun =>
          rw [limiterVerdict_of_verifyOne_ok hcfg hrun] at hhead
          exact (attempts_of_entryExact hcfg hentry hin hhead).1 rfl
      · cases hok
    · cases hok
  · split at herr
    · split at herr
      · cases herr
      · cases herr
      · next hrun =>
          cases herr
          rw [(limiterVerdict_eq_rejected hcfg).2 ⟨_, hrun⟩] at hhead
          exact (attempts_of_entryExact hcfg hentry hin hhead).2 rfl
    · cases herr

/-- With a limit of one, a run that has committed one pass rejects the next item: one pass is
    indeed recorded in its window. -/
theorem rate_limit_zeroRun :
    let tr := (machine Host.scalar).trace ⟨50, zeroState 1 17280⟩ (zeroRun [zeroItem 7 100])
    let w := (machine Host.scalar).run ⟨50, zeroState 1 17280⟩ (zeroRun [zeroItem 7 100])
    attempts Host.scalar w.ledger () [zeroItem 7 100] w.state = [some .rejected] ∧
      1 ≤ passesIn Host.scalar () 0 17280 tr := by
  intro tr w
  obtain ⟨hitems, -⟩ := rate_limit Host.scalar () 1 17280 (.zero 1) (zeroState 1 17280)
    (construct_zero (by decide)) 50 (zeroRun [zeroItem 7 100]) () 0 ⟨1, 17280⟩ (by decide +kernel)
    (by decide +kernel) fun e he _ => by
      obtain rfl := List.mem_singleton.1 he
      exact ⟨1, rfl⟩
  have hle := (hitems [zeroItem 7 100] 0 .rejected (by decide +kernel)).2 rfl
  rw [List.take_zero, passes, List.count_nil, Nat.add_zero] at hle
  exact ⟨by decide +kernel, hle⟩

/-! ## Tighter limits

A larger window may start at another ledger; the limiter then reads another entry. -/

/-- `verify_one` answers `RateLimitExceeded`. -/
def Exhausted (h : Host) (ledger : UInt32) (caller : Address) (item : ProofItem)
    (s : State Address) : Prop :=
  ∃ s', verifyOne h ledger caller item s = some (.error .rateLimitExceeded, s')

/-- `set_limits`, when the admin has authorised it. -/
theorem exec_setLimits {s : State Address} {auth : Address → Bool} {limits : Limits}
    (hsize : limits.windowSize ≠ 0) (hadmin : ∃ admin, s.admin = some admin ∧ auth admin = true) :
    exec h ledger s ⟨auth, .setLimits limits.maxCalls limits.windowSize⟩
      = (.ok .unit, s.setInstance .limits limits) := by
  obtain ⟨admin, hadmin, hauth⟩ := hadmin
  simp [exec, callBody, setLimits, withAdmin, hsize, hadmin, hauth, reply, Except.map]

/-- New limits change nothing else. -/
theorem configured_setLimits {s : State Address} {limits limits' : Limits} {vk : VerifyingKey}
    (hcfg : Configured s limits vk) (hsize : limits'.windowSize ≠ 0) :
    Configured (s.setInstance .limits limits') limits' vk where
  admin_ne := by
    rw [State.admin, State.setInstance, Store.get_set_of_ne _ _ (by simp)]
    exact hcfg.admin_ne
  limits_eq := Store.get_set_self _ _ _
  windowSize_ne := hsize
  vk_eq := by
    rw [State.vk, State.setInstance, Store.get_set_of_ne _ _ (by simp)]
    exact hcfg.vk_eq
  arity := hcfg.arity

theorem checkAccess_setLimits (s : State Address) (limits : Limits) (caller : Address) :
    checkAccess (s.setInstance .limits limits) caller = checkAccess s caller := by
  unfold checkAccess State.isPaused State.allowlistEnabled State.isAllowlisted State.setInstance
  simp

/-- A caller is exhausted under new limits when the count for the window that begins with them at
    its start has reached the new maximum. -/
theorem exhausted_setLimits_iff {s : State Address} {limits limits' : Limits} {vk : VerifyingKey}
    (hcfg : Configured s limits vk) (hsize : limits'.windowSize ≠ 0) {caller : Address}
    {item : ProofItem} :
    Exhausted h ledger caller item (s.setInstance .limits limits') ↔ checkAccess s caller = .ok () ∧
      s.windowCount ledger caller limits' ≠ maxCount ∧
      limits'.maxCalls ≤ s.windowCount ledger caller limits' := by
  rw [Exhausted, ← limiterVerdict_eq_rejected (configured_setLimits hcfg hsize),
    limiterVerdict_rejected_iff (configured_setLimits hcfg hsize), checkAccess_setLimits]
  exact Iff.rfl

/-- After tighter limits an exhausted caller is still rejected if the current window starts where
    it did, for instance if its size is the same. In general the caller is rejected exactly when the
    count kept under the start of the new window has reached the new maximum. -/
theorem tighter_limits_reject_iff (h : Host) (w : World Address) (hw : Deployed h w)
    (caller : Address) (item : ProofItem) (limits : Limits)
    (hlimits : w.state.limits = some limits)
    (hexhausted : Exhausted h w.ledger caller item w.state) (auth : Address → Bool)
    (hauth : ∃ admin, w.state.admin = some admin ∧ auth admin = true) (tighter : Limits)
    (hcalls : tighter.maxCalls ≤ limits.maxCalls)
    (hsize : limits.windowSize ≤ tighter.windowSize) :
    let out := exec h w.ledger w.state ⟨auth, .setLimits tighter.maxCalls tighter.windowSize⟩
    let count := w.state.windowCount w.ledger caller tighter
    out.1 = .ok .unit ∧
      (w.ledger % tighter.windowSize = w.ledger % limits.windowSize →
        Exhausted h w.ledger caller item out.2) ∧
      (Exhausted h w.ledger caller item out.2 ↔
        tighter.maxCalls ≤ count ∧ count ≠ maxCount) := by
  intro out count
  obtain ⟨limits', vk, hcfg⟩ := configured_of_deployed hw
  obtain rfl : limits' = limits := Option.some.inj (hcfg.limits_eq.symm.trans hlimits)
  -- a larger window is not empty, so `set_limits` accepts it
  have hsize' : tighter.windowSize ≠ 0 := by
    intro hzero
    rw [hzero, UInt32.le_zero_iff] at hsize
    exact hcfg.windowSize_ne hsize
  obtain ⟨haccess, hmax, hfull⟩ :=
    (limiterVerdict_rejected_iff hcfg).1 ((limiterVerdict_eq_rejected hcfg).2 hexhausted)
  have hout : out = (.ok .unit, w.state.setInstance .limits tighter) := exec_setLimits hsize' hauth
  rw [hout]
  refine ⟨rfl, fun hstart => ?_, ?_⟩
  · -- the same start: the same entry
    have hcount : w.state.windowCount w.ledger caller tighter
        = w.state.windowCount w.ledger caller limits' := by
      rw [State.windowCount, State.windowCount, currentWindow, hstart]
      rfl
    rw [exhausted_setLimits_iff hcfg hsize', hcount]
    exact ⟨haccess, hmax, UInt32.le_trans hcalls hfull⟩
  · rw [exhausted_setLimits_iff hcfg hsize']
    constructor
    · intro hrejected
      exact ⟨hrejected.2.2, hrejected.2.1⟩
    · intro hcount
      exact ⟨haccess, hcount.2, hcount.1⟩

/-- In ledger 25, with a limit of one call in ten ledgers, the caller has had that call. -/
def exhaustedWorld : World Unit :=
  (machine Host.scalar).run ⟨25, zeroState 1 10⟩
    [.tx (signed (.verifyProof () (zeroItem 7 100)))]

theorem deployed_exhaustedWorld : Deployed Host.scalar exhaustedWorld :=
  deployed_zero 25 1 (by decide) [.tx (signed (.verifyProof () (zeroItem 7 100)))]

theorem exhausted_exhaustedWorld (item : ProofItem) :
    Exhausted Host.scalar exhaustedWorld.ledger () item exhaustedWorld.state := by
  obtain ⟨limits, vk, hcfg⟩ := configured_of_deployed deployed_exhaustedWorld
  exact (limiterVerdict_eq_rejected hcfg).1 (by decide +kernel)

/-- Windows of twenty ledgers start at ledger 20 as well. -/
theorem tighter_limits_reject_exhausted :
    Exhausted Host.scalar exhaustedWorld.ledger () (zeroItem 7 100)
      (exec Host.scalar exhaustedWorld.ledger exhaustedWorld.state (signed (.setLimits 1 20))).2 :=
  (tighter_limits_reject_iff Host.scalar exhaustedWorld deployed_exhaustedWorld () (zeroItem 7 100)
    ⟨1, 10⟩ (by decide +kernel) (exhausted_exhaustedWorld _) (fun _ => true)
    ⟨(), by decide +kernel, rfl⟩ ⟨1, 20⟩ (by decide) (by decide)).2.1 (by decide +kernel)

/-- Windows of fifteen ledgers start at ledger 15, where nothing has been counted. -/
theorem wider_window_readmits :
    Deployed Host.scalar exhaustedWorld ∧ exhaustedWorld.state.limits = some ⟨1, 10⟩ ∧
      Exhausted Host.scalar exhaustedWorld.ledger () (zeroItem 7 100) exhaustedWorld.state ∧
      let out := exec Host.scalar exhaustedWorld.ledger exhaustedWorld.state
        (signed (.setLimits 1 15))
      out.1 = .ok .unit ∧
        (verifyOne Host.scalar exhaustedWorld.ledger () (zeroItem 7 100) out.2).map Prod.fst
          = some (.ok true) ∧
        ¬ Exhausted Host.scalar exhaustedWorld.ledger () (zeroItem 7 100) out.2 := by
  have hpassed : (verifyOne Host.scalar exhaustedWorld.ledger () (zeroItem 7 100)
      (exec Host.scalar exhaustedWorld.ledger exhaustedWorld.state
        (signed (.setLimits 1 15))).2).map Prod.fst = some (.ok true) := by decide +kernel
  refine ⟨deployed_exhaustedWorld, by decide +kernel, exhausted_exhaustedWorld _,
    by decide +kernel, hpassed, ?_⟩
  intro hexhausted
  obtain ⟨s', hs'⟩ := hexhausted
  rw [hs'] at hpassed
  cases hpassed

end ZkStellar.Verifier

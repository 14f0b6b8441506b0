import ZkStellar.Verifier.Deployed

set_option autoImplicit false

/-! # The gates of `verify_proof`

`verify_one` says `true` exactly when every gate is open (`verifyOne_eq_true`), and `verify_proof`
adds the caller's authorisation. Together with what it then writes, and the rollback of every error,
that is all `verify_proof` can do on bytes the host can parse (`verifyProof_exact`). -/

namespace ZkStellar.Verifier

variable {Address : Type} [DecidableEq Address] {h : Host} {ledger : UInt32}

omit [DecidableEq Address] in
theorem checkAccess_eq_ok {s : State Address} {caller : Address} :
    checkAccess s caller = .ok () ↔
      s.isPaused = false ∧ (s.allowlistEnabled = true → s.isAllowlisted caller = true) := by
  unfold checkAccess
  cases s.isPaused <;> cases s.allowlistEnabled <;> cases s.isAllowlisted caller <;> simp

/-- The verdict on an item that parses: `true` exactly for an in-date item that satisfies the
    equation. -/
theorem itemVerdict_eq_true {vk : VerifyingKey} {K : Groth16.Key h.G1 h.G2}
    {item : ProofItem} {π : Groth16.Proof h.G1 h.G2}
    (harity : vk.ic.length = expectedPublicInputCount) (hK : vk.points h = some K)
    (hπ : item.points h = some π) :
    itemVerdict h ledger vk item = some (.ok true) ↔ ∃ publicInput expiry expiryLedger,
      item.publicInputs = [publicInput, expiry] ∧ readExpiryLedger expiry = some expiryLedger ∧
        ledger ≤ expiryLedger ∧ Groth16.Accepts h.pairing K π [Fr.fromBytes publicInput] := by
  -- a proof the host can parse has the three lengths that are checked first
  have hsized : item.WellSized := by
    obtain ⟨ha, hb, hc⟩ := proofPoints_eq_some.1 hπ
    exact ProofItem.wellSized_of_read ha hb hc
  have hverdict : ∀ x, pairingVerdict h vk item x = some true ↔
      Groth16.Accepts h.pairing K π [Fr.fromBytes x] := by
    intro x
    rw [pairingVerdict_eq_some_iff harity]
    constructor
    · rintro ⟨π', K', hπ', hK', hacc⟩
      rw [hπ] at hπ'
      rw [hK] at hK'
      cases hπ'
      cases hK'
      exact hacc.1 rfl
    · intro hacc
      exact ⟨π, K, hπ, hK, by simp [hacc]⟩
  unfold itemVerdict
  rw [if_pos hsized]
  constructor
  · intro hv
    split at hv
    · cases hv
    · cases hv
    · -- what is malformed is an error and what is expired `false`, so the item is in date
      next x hkind =>
        obtain ⟨expiry, e, hxs, he, hle⟩ := ProofItem.kind_eq_inDate_iff.1 hkind
        simp only [Option.map_eq_some_iff, Except.ok.injEq, exists_eq_right] at hv
        exact ⟨x, expiry, e, hxs, he, hle, (hverdict x).1 hv⟩
  · rintro ⟨x, expiry, e, hxs, he, hle, hacc⟩
    rw [ProofItem.kind_eq_inDate_iff.2 ⟨expiry, e, hxs, he, hle⟩]
    simp [(hverdict x).2 hacc]

theorem verifyOne_eq_true {s s' : State Address} {limits : Limits} {vk : VerifyingKey}
    (hcfg : Configured s limits vk) {caller : Address} {item : ProofItem} :
    verifyOne h ledger caller item s = some (.ok true, s') ↔
      checkAccess s caller = .ok () ∧ itemVerdict h ledger vk item = some (.ok true) ∧
        ∃ s₁, countCall h ledger limits caller s = some (.ok (), s₁) ∧
          afterRecord h item s₁ = some s' := by
  rw [verifyOne_eq hcfg]
  cases checkAccess s caller with
  | error e => simp
  | ok u =>
      rcases countCall h ledger limits caller s with _ | ⟨e | u, s₁⟩
      · simp
      · simp
      · rcases itemVerdict h ledger vk item with _ | e | b
        · simp
        · simp
        · cases b <;> simp

/-- Everything a successful `verify_proof` changed: the caller's counter for the window, the
    counter of the inputs hash, and one event. -/
structure Recorded (ledger : UInt32) (caller : Address) (start : UInt32) (inputsHash : BytesN 32)
    (s s' : State Address) : Prop where
  callCount : (s'.callCount ledger caller start).toNat = (s.callCount ledger caller start).toNat + 1
  otherTemporary : ∀ k, k ≠ .callCount caller start → s'.temporary.get k = s.temporary.get k
  verificationCount :
    (s'.verificationCount inputsHash).toNat = (s.verificationCount inputsHash).toNat + 1
  otherInstance : ∀ k, k ≠ .verificationCount inputsHash →
    s'.instanceStorage.get k = s.instanceStorage.get k
  events : s'.events = s.events ++ [⟨true, caller, inputsHash⟩]

theorem toNat_add_one_of_ne {n : UInt32} (hn : n ≠ maxCount) : (n + 1).toNat = n.toNat + 1 := by
  have hlt := n.toNat_lt
  have hne : n.toNat ≠ 4294967295 := fun h => hn (UInt32.toNat_inj.1 h)
  rw [UInt32.toNat_add, UInt32.toNat_one, Nat.mod_eq_of_lt (by omega)]

/-- What a successful `verify_one` changed, with the event `verify_proof` publishes. -/
theorem recorded_of_verifyOne {s s' : State Address} {limits : Limits} {vk : VerifyingKey}
    (hcfg : Configured s limits vk) {caller : Address} {item : ProofItem}
    (hrun : verifyOne h ledger caller item s = some (.ok true, s')) :
    Recorded ledger caller (currentWindow ledger limits.windowSize)
      (computeInputsHash h item.publicInputs) s
      (publishVerificationResult h caller true item.publicInputs s') := by
  obtain ⟨-, -, s₁, hcount, hrec⟩ := (verifyOne_eq_true hcfg).1 hrun
  obtain ⟨hmax, -, hextend, rfl⟩ := (countCall_eq_ok hcfg.windowSize_ne).1 hcount
  obtain ⟨hlt, rfl⟩ := afterRecord_eq_some.1 hrec
  constructor
  · rw [← toNat_add_one_of_ne hmax]
    exact congrArg UInt32.toNat (setCallCount_callCount hextend)
  · intro k hk
    exact setCallCount_get_of_ne hk
  · simp only [State.verificationCount, publishVerificationResult, State.publish,
      State.setInstance, setCallCount_instanceStorage, Store.get_set_self, Option.getD_some]
      at hlt ⊢
    rw [UInt64.toNat_add, UInt64.toNat_one, Nat.mod_eq_of_lt hlt]
  · intro k hk
    exact Store.get_set_of_ne _ _ hk
  · rfl

/-! ## The two entry points as transactions -/

theorem exec_verifyProof (auth : Address → Bool) (caller : Address) (item : ProofItem)
    (s : State Address) :
    exec h ledger s ⟨auth, .verifyProof caller item⟩
      = if auth caller then
          match verifyOne h ledger caller item s with
          | none => (.trap, s)
          | some (.ok b, s') =>
              (.ok (.flag b), publishVerificationResult h caller b item.publicInputs s')
          | some (.error e, _) => (.err e, s)
        else (.trap, s) := by
  simp only [exec, callBody, verifyProof]
  by_cases hauth : auth caller
  · simp only [hauth, Bool.not_true, Bool.false_eq_true, if_false, if_true]
    rcases verifyOne h ledger caller item s with _ | ⟨e | b, s'⟩ <;> rfl
  · simp [hauth, reply]

theorem exec_verifyBatch (auth : Address → Bool) (caller : Address) (proofs : List ProofItem)
    (s : State Address) :
    exec h ledger s ⟨auth, .verifyBatch caller proofs⟩
      = if auth caller then
          match verifyBatchLoop h ledger caller proofs [] s with
          | none => (.trap, s)
          | some (.ok bs, s') => (.ok (.flags bs), s')
          | some (.error e, _) => (.err e, s)
        else (.trap, s) := by
  simp only [exec, callBody, verifyBatch]
  by_cases hauth : auth caller
  · simp only [hauth, Bool.not_true, Bool.false_eq_true, if_false, if_true]
    rcases verifyBatchLoop h ledger caller proofs [] s with _ | ⟨e | b, s'⟩ <;> rfl
  · simp [hauth, reply]

theorem ne_maxCount_of_lt {n m : UInt32} (hlt : n < m) : n ≠ maxCount := by
  intro heq
  rw [heq, UInt32.lt_iff_toNat_lt] at hlt
  have := m.toNat_lt
  have hval : maxCount.toNat = 2 ^ 32 - 1 := rfl
  omega

/-- The call that the limiter admits traps in a window the host cannot extend the caller's entry
    by. -/
theorem exec_verifyProof_of_unextendable {s : State Address} {limits : Limits} {vk : VerifyingKey}
    (hcfg : Configured s limits vk) {auth : Address → Bool} {caller : Address}
    (hauth : auth caller = true) (haccess : checkAccess s caller = .ok ())
    (hroom : s.callCount ledger caller (currentWindow ledger limits.windowSize) < limits.maxCalls)
    (hextend : h.canExtend ledger limits.windowSize = false) (item : ProofItem) :
    (exec h ledger s ⟨auth, .verifyProof caller item⟩).1 = .trap := by
  rw [exec_verifyProof, if_pos hauth, verifyOne_eq hcfg, haccess, countCall_eq hcfg.windowSize_ne]
  simp [ne_maxCount_of_lt hroom, UInt32.not_le.2 hroom, hextend]

/-- Past the limiter, `verify_proof` answers with the verdict on the item; an item that verifies
    needs room in its counter. -/
theorem exec_verifyProof_of_room {s : State Address} {limits : Limits} {vk : VerifyingKey}
    (hcfg : Configured s limits vk) {auth : Address → Bool} {caller : Address}
    (hauth : auth caller = true) (haccess : checkAccess s caller = .ok ())
    (hroom : s.callCount ledger caller (currentWindow ledger limits.windowSize) < limits.maxCalls)
    (hextend : h.canExtend ledger limits.windowSize = true) (item : ProofItem) :
    (exec h ledger s ⟨auth, .verifyProof caller item⟩).1
      = match itemVerdict h ledger vk item with
        | none => .trap
        | some (.error e) => .err e
        | some (.ok false) => .ok (.flag false)
        | some (.ok true) =>
            if (s.verificationCount (computeInputsHash h item.publicInputs)).toNat + 1 < 2 ^ 64
            then .ok (.flag true) else .trap := by
  rw [exec_verifyProof, if_pos hauth, verifyOne_eq hcfg, haccess,
    (countCall_eq_ok hcfg.windowSize_ne).2 ⟨ne_maxCount_of_lt hroom, hroom, hextend, rfl⟩]
  simp only
  rcases hv : itemVerdict h ledger vk item with _ | e | b
  · rfl
  · rfl
  · cases b with
    | false => rfl
    -- the inputs are counted after the call is, and counting the call left their counter alone
    | true =>
        have hsame : ∀ start n x, (s.setCallCount h ledger caller start limits.windowSize
            n).verificationCount x = s.verificationCount x := fun _ _ _ => by
          rw [State.verificationCount, setCallCount_instanceStorage]
          rfl
        simp only [afterRecord, recordVerificationAttempt, checkedAdd64, UInt64.toNat_one, hsame]
        by_cases hlt :
            (s.verificationCount (computeInputsHash h item.publicInputs)).toNat + 1 < 2 ^ 64
        · rw [if_pos hlt, if_pos hlt]
          rfl
        · rw [if_neg hlt, if_neg hlt]
          rfl

/-! ## The whole gate -/

theorem exec_verifyProof_eq_true {auth : Address → Bool} {caller : Address} {item : ProofItem}
    {s : State Address} :
    (exec h ledger s ⟨auth, .verifyProof caller item⟩).1 = .ok (.flag true) ↔
      auth caller = true ∧ ∃ s', verifyOne h ledger caller item s = some (.ok true, s') ∧
        (exec h ledger s ⟨auth, .verifyProof caller item⟩).2
          = publishVerificationResult h caller true item.publicInputs s' := by
  rw [exec_verifyProof]
  by_cases hauth : auth caller
  · rw [if_pos hauth]
    rcases verifyOne h ledger caller item s with _ | ⟨e | b, s'⟩
    · simp
    · simp
    · cases b <;> simp [hauth]
  · simp [hauth]

/-- With counters below their maximum and a window the host can extend an entry by, `verify_one`
    says `true` exactly when the caller has access and room and the item's verdict is `true`. -/
theorem exists_verifyOne_true_iff {s : State Address} {limits : Limits} {vk : VerifyingKey}
    (hcfg : Configured s limits vk) {caller : Address} {item : ProofItem}
    (hcount : s.callCount ledger caller (currentWindow ledger limits.windowSize) ≠ maxCount)
    (hverified : s.verificationCount (computeInputsHash h item.publicInputs)
      ≠ UInt64.ofNat (2 ^ 64 - 1))
    (hextend : h.canExtend ledger limits.windowSize = true) :
    (∃ s', verifyOne h ledger caller item s = some (.ok true, s')) ↔
      checkAccess s caller = .ok () ∧
        s.callCount ledger caller (currentWindow ledger limits.windowSize) < limits.maxCalls ∧
        itemVerdict h ledger vk item = some (.ok true) := by
  simp only [verifyOne_eq_true hcfg]
  constructor
  · rintro ⟨s', hacc, hv, s₁, hs₁, -⟩
    exact ⟨hacc, ((countCall_eq_ok hcfg.windowSize_ne).1 hs₁).2.1, hv⟩
  · rintro ⟨hacc, hlt, hv⟩
    have hs₁ := (countCall_eq_ok hcfg.windowSize_ne).2 ⟨hcount, hlt, hextend, rfl⟩
    -- the counter of the inputs hash has room
    have hmax := (s.verificationCount (computeInputsHash h item.publicInputs)).toNat_lt
    have hne : (s.verificationCount (computeInputsHash h item.publicInputs)).toNat ≠ 2 ^ 64 - 1 :=
      fun heq => hverified (UInt64.toNat_inj.1 (by rw [heq]; rfl))
    have hroom : (s.verificationCount (computeInputsHash h item.publicInputs)).toNat + 1
        < 2 ^ 64 := by omega
    exact ⟨_, hacc, hv, _, hs₁, afterRecord_eq_some.2 ⟨hroom, rfl⟩⟩

/-- **The gate of `verify_proof`.** On a deployed contract, for a proof and a stored key the host
    can parse, counters below their maximum and a window the host can extend an entry by: the call
    returns `Ok(true)` exactly when the caller authorised it, the contract is not paused, the
    allowlist is off or lists the caller, the count in the current window is below `max_calls`,
    there are two inputs of which the second is an expiry ledger that has not passed, and the
    equation holds for the first under the stored key. It then changed the two counters and
    published one event; an error changed nothing. -/
theorem verifyProof_exact (h : Host) (w : World Address) (hw : Deployed h w)
    (auth : Address → Bool) (caller : Address) (item : ProofItem)
    (hproof : item.points h ≠ none)
    (hkey : ∀ vk, w.state.vk = some vk → vk.points h ≠ none)
    (hcount : ∀ limits, w.state.limits = some limits →
      w.state.callCount w.ledger caller (currentWindow w.ledger limits.windowSize) ≠ maxCount)
    (hverified : w.state.verificationCount (computeInputsHash h item.publicInputs)
      ≠ UInt64.ofNat (2 ^ 64 - 1))
    (hextend : ∀ limits, w.state.limits = some limits →
      h.canExtend w.ledger limits.windowSize = true) :
    ∃ limits vk K π, w.state.limits = some limits ∧ w.state.vk = some vk ∧
      vk.points h = some K ∧ item.points h = some π ∧
      let start := currentWindow w.ledger limits.windowSize
      let result := exec h w.ledger w.state ⟨auth, .verifyProof caller item⟩
      (result.1 = .ok (.flag true) ↔
        auth caller = true ∧ w.state.isPaused = false ∧
        (w.state.allowlistEnabled = true → w.state.isAllowlisted caller = true) ∧
        w.state.callCount w.ledger caller start < limits.maxCalls ∧
        ∃ publicInput expiry expiryLedger, item.publicInputs = [publicInput, expiry] ∧
          readExpiryLedger expiry = some expiryLedger ∧ w.ledger ≤ expiryLedger ∧
          Groth16.Accepts h.pairing K π [Fr.fromBytes publicInput]) ∧
      (result.1 = .ok (.flag true) → Recorded w.ledger caller start
        (computeInputsHash h item.publicInputs) w.state result.2) ∧
      ∀ e, result.1 = .err e → result.2 = w.state := by
  obtain ⟨limits, vk, hcfg⟩ := configured_of_deployed hw
  obtain ⟨K, hK⟩ := Option.ne_none_iff_exists'.1 (hkey vk hcfg.vk_eq)
  obtain ⟨π, hπ⟩ := Option.ne_none_iff_exists'.1 hproof
  refine ⟨limits, vk, K, π, hcfg.limits_eq, hcfg.vk_eq, hK, hπ, ?_, ?_, ?_⟩
  · have hone := exists_verifyOne_true_iff hcfg
      (hcount limits hcfg.limits_eq) hverified (hextend limits hcfg.limits_eq)
    rw [checkAccess_eq_ok, itemVerdict_eq_true hcfg.arity hK hπ, and_assoc] at hone
    rw [← hone]
    constructor
    · intro htrue
      obtain ⟨hauth, s', hrun, -⟩ := exec_verifyProof_eq_true.1 htrue
      exact ⟨hauth, s', hrun⟩
    · rintro ⟨hauth, s', hrun⟩
      rw [exec_verifyProof, if_pos hauth, hrun]
  · intro htrue
    obtain ⟨-, s', hrun, hstate⟩ := exec_verifyProof_eq_true.1 htrue
    rw [hstate]
    exact recorded_of_verifyOne hcfg hrun
  · intro e herr
    refine commit_snd_of_not_ok ?_
    intro a ha
    cases herr.symm.trans ha

/-- A fresh contract records an in-date all-zero proof. -/
theorem verifyProof_exact_zero : ∃ start, Recorded 100 () start
    (computeInputsHash Host.scalar (zeroItem 7 100).publicInputs) (zeroState 5 17280)
    (exec Host.scalar 100 (zeroState 5 17280) (signed (.verifyProof () (zeroItem 7 100)))).2 := by
  obtain ⟨limits, vk, K, π, -, -, -, -, -, hrecorded, -⟩ :=
    verifyProof_exact Host.scalar ⟨100, zeroState 5 17280⟩ (deployed_zero 100 5 (by decide) [])
      (fun _ => true) () (zeroItem 7 100) (Option.isSome_iff_ne_none.1 (by decide +kernel))
      (fun vk hvk => by cases hvk; exact Option.isSome_iff_ne_none.1 (by decide +kernel))
      (fun limits hlimits => by cases hlimits; decide +kernel) (by decide +kernel)
      (fun limits hlimits => by cases hlimits; decide +kernel)
  exact ⟨_, hrecorded (by decide +kernel)⟩

/-- A window no temporary entry can live through, set by the administrator. Every gate is open and
    no counter is near its maximum, but the host cannot extend the caller's entry, so the call
    traps. -/
theorem unextendable_window_traps :
    let w := (machine Host.scalar).run ⟨100, zeroState 5 17280⟩
      [.tx (signed (.setLimits 5 3110400))]
    let item := zeroItem 7 100
    Deployed Host.scalar w ∧ w.ledger = 100 ∧ w.state.limits = some ⟨5, 3110400⟩ ∧
      w.state.isPaused = false ∧ w.state.allowlistEnabled = false ∧
      w.state.callCount w.ledger () (currentWindow w.ledger 3110400) = 0 ∧
      w.state.verificationCount (computeInputsHash Host.scalar item.publicInputs) = 0 ∧
      (∃ vk K π, w.state.vk = some vk ∧ vk.points Host.scalar = some K ∧
        item.points Host.scalar = some π ∧ item.publicInputs = [.ofNat 32 7, .ofNat 32 100] ∧
        readExpiryLedger (.ofNat 32 100) = some 100 ∧
        Groth16.Accepts Host.scalar.pairing K π [Fr.fromBytes (.ofNat 32 7)]) ∧
      (exec Host.scalar w.ledger w.state (signed (.verifyProof () item))).1 = .trap := by
  refine ⟨deployed_zero 100 5 (by decide) _, rfl, by decide +kernel, by decide +kernel,
    by decide +kernel, by decide +kernel, by decide +kernel, ?_, by decide +kernel⟩
  have hverdict : pairingVerdict Host.scalar (.zero 1) (zeroItem 7 100) (.ofNat 32 7)
      = some true := by decide +kernel
  obtain ⟨π, K, hπ, hK, hacc⟩ := (pairingVerdict_eq_some_iff rfl).1 hverdict
  exact ⟨_, K, π, by decide +kernel, hK, hπ, rfl, by decide +kernel, hacc.1 rfl⟩

/-! ## Pause -/

/-- A paused contract refuses every call that submits an item. The pause check is part of
    `verify_one`, so a batch without items never reaches it and returns normally; either way nothing
    changes. -/
theorem paused_refuses_iff (h : Host) (ledger : UInt32) {s : State Address}
    (hpaused : s.isPaused = true) (tx : Tx Address) {caller : Address} {proofs : List ProofItem}
    (hsubmits : tx.call.submission = some (caller, proofs)) (hauth : tx.auth caller = true) :
    (exec h ledger s tx = (.err .contractPaused, s) ↔ proofs ≠ []) ∧
      (exec h ledger s tx).2 = s := by
  obtain ⟨auth, call⟩ := tx
  have hone : ∀ item, verifyOne h ledger caller item s = some (.error .contractPaused, s) := by
    intro item
    simp [verifyOne, checkAccess, hpaused]
  cases call with
  | verifyProof caller' item =>
      cases hsubmits
      rw [exec_verifyProof, if_pos hauth, hone]
      exact ⟨by simp, rfl⟩
  | verifyBatch caller' proofs' =>
      cases hsubmits
      rw [exec_verifyBatch, if_pos hauth]
      cases proofs with
      | nil => exact ⟨by simp [verifyBatchLoop], rfl⟩
      | cons item proofs =>
          simp only [verifyBatchLoop, hone]
          exact ⟨by simp, trivial⟩
  | _ => cases hsubmits

theorem paused_refuses_iff_zero :
    let s := ((machine Host.scalar).run ⟨50, zeroState 5 17280⟩
      [.tx (signed (.setPaused true))]).state
    exec Host.scalar 50 s (signed (.verifyProof () (zeroItem 7 100))) = (.err .contractPaused, s) :=
  ((paused_refuses_iff Host.scalar 50 (by decide) (signed (.verifyProof () (zeroItem 7 100)))
    rfl rfl).1).2 (by simp)

/-- The empty batch is accepted by a paused contract. -/
theorem paused_accepts_empty_batch :
    let w := (machine Host.scalar).run ⟨50, zeroState 5 17280⟩ [.tx (signed (.setPaused true))]
    Deployed Host.scalar w ∧ w.state.isPaused = true ∧
      (exec Host.scalar w.ledger w.state (signed (.verifyBatch () []))).1 = .ok (.flags []) :=
  ⟨deployed_zero 50 5 (by decide) _, by decide, by decide⟩

end ZkStellar.Verifier

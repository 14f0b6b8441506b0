import ZkStellar.Lib.Purge
import ZkStellar.Verifier.Events
import ZkStellar.Verifier.RateLimit

set_option autoImplicit false

/-! # Callers do not interfere

Deleting the verification calls of one address from a run changes nothing for the others: the two
runs agree on everything but that address's own call counts, its events, and how far the
verification counters have come (`Agrees`). The counters are what the callers share, and they only
matter when one of them overflows: a call adds less than `2 ^ 32` to a counter, so the calls of
others stay unaffected as long as the counters are that far from their end. -/

namespace ZkStellar.Verifier

variable {Address : Type} [DecidableEq Address] {h : Host} {ledger : UInt32}

/-- The states of a run and of the same run without the verification calls of `a`. -/
structure Agrees (a : Address) (s t : State Address) : Prop where
  frame : Frame s t
  temporary : ∀ k, (∀ start, k ≠ .callCount a start) → t.temporary.get k = s.temporary.get k
  count : ∀ x, t.verificationCount x ≤ s.verificationCount x
  events : t.events = s.events.filter fun e => decide (e.caller ≠ a)

/-- Two results with the same value or error and states that agree. -/
def Alike {α : Type} (a : Address) :
    Option (Except Error α × State Address) → Option (Except Error α × State Address) → Prop :=
  Option.Rel fun p q => p.1 = q.1 ∧ Agrees a p.2 q.2

namespace Agrees

variable {a caller : Address} {s t : State Address}

theorem refl {s : State Address} (hs : ∀ e ∈ s.events, e.caller ≠ a) : Agrees a s s where
  frame := .refl s
  temporary _ _ := rfl
  count _ := UInt64.le_refl _
  events := (List.filter_eq_self.2 (by simpa using hs)).symm

theorem setInstance (hst : Agrees a s t) {k : DataKey Address} (v : k.Value)
    (hk : ∀ x, k ≠ .verificationCount x) : Agrees a (s.setInstance k v) (t.setInstance k v) where
  frame k' hk' := by
    by_cases heq : k' = k
    · subst heq
      simp [State.setInstance]
    · simpa [State.setInstance, heq] using hst.frame k' hk'
  temporary := hst.temporary
  count x := by
    simpa [State.verificationCount, State.setInstance, (hk x).symm] using hst.count x
  events := hst.events

theorem removeInstance (hst : Agrees a s t) {k : DataKey Address}
    (hk : ∀ x, k ≠ .verificationCount x) :
    Agrees a { s with instanceStorage := s.instanceStorage.remove k }
      { t with instanceStorage := t.instanceStorage.remove k } where
  frame k' hk' := by
    by_cases heq : k' = k
    · subst heq
      simp
    · simpa [heq] using hst.frame k' hk'
  temporary := hst.temporary
  count x := by
    simpa [State.verificationCount, (hk x).symm] using hst.count x
  events := hst.events

theorem callCount (hst : Agrees a s t) (hcaller : caller ≠ a) (start : UInt32) :
    t.callCount ledger caller start = s.callCount ledger caller start := by
  unfold State.callCount
  rw [TempStore.read_congr (hst.temporary _ (by simp [hcaller]))]

theorem setCallCount (hst : Agrees a s t) (caller : Address) (start windowSize next : UInt32) :
    Agrees a (s.setCallCount h ledger caller start windowSize next)
      (t.setCallCount h ledger caller start windowSize next) where
  frame := hst.frame
  temporary k hk := by
    by_cases heq : k = .callCount caller start
    · subst heq
      rw [setCallCount_get_self, setCallCount_get_self]
      simp only [TempStore.lifetime, hst.temporary _ hk]
    · rw [setCallCount_get_of_ne heq, setCallCount_get_of_ne heq, hst.temporary k hk]
  count := hst.count
  events := hst.events

theorem publish (hst : Agrees a s t) (hcaller : caller ≠ a) (success : Bool)
    (publicInputs : List (BytesN 32)) :
    Agrees a (publishVerificationResult h caller success publicInputs s)
      (publishVerificationResult h caller success publicInputs t) where
  frame := hst.frame
  temporary := hst.temporary
  count := hst.count
  events := by simp [publishVerificationResult, State.publish, hst.events, hcaller]

end Agrees

/-! ## A call of another address -/

section Kept

variable {a caller : Address} {s t : State Address}

theorem alike_countCall (hst : Agrees a s t) (hcaller : caller ≠ a) (limits : Limits) :
    Alike a (countCall h ledger limits caller s) (countCall h ledger limits caller t) := by
  unfold countCall
  cases windowStart ledger limits.windowSize with
  | none => exact .none
  | some start =>
      dsimp only
      rw [hst.callCount hcaller]
      cases checkedAdd32 (s.callCount ledger caller start) 1 with
      | none => exact .none
      | some next =>
          dsimp only
          split
          · exact .some ⟨rfl, hst⟩
          · split
            · exact .some ⟨rfl, hst.setCallCount caller start limits.windowSize next⟩
            · exact .none

theorem Agrees.recorded (hst : Agrees a s t) (item : ProofItem)
    (hroom : (s.verificationCount (item.inputsHash h)).toNat + 1 < 2 ^ 64) :
    (t.verificationCount (item.inputsHash h)).toNat + 1 < 2 ^ 64 ∧
      Agrees a (recorded h item s) (recorded h item t) := by
  have hle : ∀ x, (t.verificationCount x).toNat ≤ (s.verificationCount x).toNat := hst.count
  have hroom' : (t.verificationCount (item.inputsHash h)).toNat + 1 < 2 ^ 64 :=
    lt_of_le_of_lt (Nat.add_le_add_right (hle _) 1) hroom
  refine ⟨hroom', fun k hk => ?_, hst.temporary, fun x => ?_, hst.events⟩
  · simpa [Verifier.recorded, State.setInstance, hk] using hst.frame k hk
  · rw [UInt64.le_iff_toNat_le, toNat_verificationCount_recorded hroom,
      toNat_verificationCount_recorded hroom']
    exact Nat.add_le_add_right (hle x) _

/-- One item of another address ends the same way in both runs, as long as the full run's counter
    has room if the item comes to be recorded. -/
theorem alike_verifyOne {limits : Limits} {vk : VerifyingKey} (hcfg : Configured s limits vk)
    (hst : Agrees a s t) (hcaller : caller ≠ a) (item : ProofItem)
    (hroom : s.windowCount ledger caller limits < limits.maxCalls →
      (s.verificationCount (item.inputsHash h)).toNat + 1 < 2 ^ 64) :
    Alike a (verifyOne h ledger caller item s) (verifyOne h ledger caller item t) := by
  rw [verifyOne_eq hcfg, verifyOne_eq (hcfg.of_frame hst.frame), hst.frame.checkAccess]
  cases checkAccess s caller with
  | error e => exact .some ⟨rfl, hst⟩
  | ok _ =>
      have halike : Alike a (countCall h ledger limits caller s)
          (countCall h ledger limits caller t) := alike_countCall hst hcaller limits
      generalize hs : countCall h ledger limits caller s = p at halike ⊢
      generalize countCall h ledger limits caller t = q at halike ⊢
      cases halike with
      | none => exact .none
      | some hpq =>
          rename_i p q
          obtain ⟨r, s₁⟩ := p
          obtain ⟨r', t₁⟩ := q
          obtain ⟨rfl, hst₁⟩ : r = r' ∧ Agrees a s₁ t₁ := hpq
          cases r with
          | error e => exact .some ⟨rfl, hst₁⟩
          | ok _ =>
              dsimp only
              rcases itemVerdict h ledger vk item with _ | e | _ | _
              · exact .none
              · exact .some ⟨rfl, hst₁⟩
              · exact .some ⟨rfl, hst₁⟩
              · -- counting the call left the counters as they were
                obtain ⟨-, hlt, -, hs₁⟩ := (countCall_eq_ok hcfg.windowSize_ne).1 hs
                have hroom₁ : (s₁.verificationCount (item.inputsHash h)).toNat + 1 < 2 ^ 64 := by
                  rw [hs₁]
                  exact hroom hlt
                obtain ⟨hroom', hst₂⟩ := hst₁.recorded item hroom₁
                rw [afterRecord_eq_some.2 ⟨hroom₁, rfl⟩, afterRecord_eq_some.2 ⟨hroom', rfl⟩]
                exact .some ⟨rfl, hst₂⟩

/-- What a call can still add to the counters does not make them overflow. -/
def HasRoom (ledger : UInt32) (caller : Address) (limits : Limits) (s : State Address) : Prop :=
  ∀ x, (s.verificationCount x).toNat + s.budget ledger caller limits < 2 ^ 64

omit [DecidableEq Address] in
theorem count_lt_of_hasRoom {limits : Limits} (hroom : HasRoom ledger caller limits s)
    (x : BytesN 32) (hlt : s.windowCount ledger caller limits < limits.maxCalls) :
    (s.verificationCount x).toNat + 1 < 2 ^ 64 := by
  have hx := hroom x
  have hlt' := UInt32.lt_iff_toNat_lt.1 hlt
  unfold State.budget at hx
  omega

theorem hasRoom_of_verifyOne {limits : Limits} {vk : VerifyingKey} (hcfg : Configured s limits vk)
    (hroom : HasRoom ledger caller limits s) {item : ProofItem} {r : Except Error Bool}
    {s' : State Address} (hone : verifyOne h ledger caller item s = some (r, s')) :
    HasRoom ledger caller limits s' := by
  cases verifyOne_cases hcfg hone with
  | denied e haccess => exact hroom
  | limited haccess hfull => exact hroom
  | refused r haccess hmax hlt hextend hverdict hr =>
      intro x
      have hbudget := budget_counted hmax hlt hextend
      have hx : (s.verificationCount x).toNat + s.budget ledger caller limits < 2 ^ 64 := hroom x
      show (s.verificationCount x).toNat + _ < 2 ^ 64
      omega
  | verified haccess hmax hlt hextend hverdict hcounter =>
      intro x
      have hbudget := budget_counted hmax hlt hextend
      have hx : (s.verificationCount x).toNat + s.budget ledger caller limits < 2 ^ 64 := hroom x
      rw [toNat_verificationCount_recorded (s := counted h ledger caller limits s) hcounter]
      show (s.verificationCount x).toNat + _ +
        (counted h ledger caller limits s).budget ledger caller limits < 2 ^ 64
      split <;> omega

/-- A batch of another address ends the same way in both runs. -/
theorem alike_verifyBatchLoop {limits : Limits} {vk : VerifyingKey} {proofs : List ProofItem}
    {results : List Bool} (hcfg : Configured s limits vk) (hst : Agrees a s t)
    (hcaller : caller ≠ a) (hroom : HasRoom ledger caller limits s) :
    Alike a (verifyBatchLoop h ledger caller proofs results s)
      (verifyBatchLoop h ledger caller proofs results t) := by
  induction proofs generalizing results s t with
  | nil => exact .some ⟨rfl, hst⟩
  | cons item proofs ih =>
      have halike := alike_verifyOne (h := h) hcfg hst hcaller item (count_lt_of_hasRoom hroom _)
      rw [verifyBatchLoop, verifyBatchLoop]
      generalize hs : verifyOne h ledger caller item s = p at halike ⊢
      generalize verifyOne h ledger caller item t = q at halike ⊢
      cases halike with
      | none => exact .none
      | some hpq =>
          rename_i p q
          obtain ⟨r, s₁⟩ := p
          obtain ⟨r', t₁⟩ := q
          obtain ⟨rfl, hst₁⟩ : r = r' ∧ Agrees a s₁ t₁ := hpq
          have hcfg₁ := hcfg.of_frame (frame_of_verifyOne hs)
          have hroom₂ := hasRoom_of_verifyOne hcfg hroom hs
          -- the loop goes on with a flag published, or hands the error on
          have hgo : ∀ b, Alike a
              (verifyBatchLoop h ledger caller proofs (results ++ [b])
                (publishVerificationResult h caller b item.publicInputs s₁))
              (verifyBatchLoop h ledger caller proofs (results ++ [b])
                (publishVerificationResult h caller b item.publicInputs t₁)) := by
            intro b
            exact ih (hcfg₁.of_frame frame_of_publish) (hst₁.publish hcaller b item.publicInputs)
              hroom₂
          rcases r with e | b
          · cases e <;> first | exact hgo false | exact .some ⟨rfl, hst₁⟩
          · exact hgo b

theorem alike_verifyProof {limits : Limits} {vk : VerifyingKey} (hcfg : Configured s limits vk)
    (hst : Agrees a s t) (hcaller : caller ≠ a) (hroom : HasRoom ledger caller limits s)
    (auth : Address → Bool) (item : ProofItem) :
    Alike a (verifyProof h ledger auth caller item s)
      (verifyProof h ledger auth caller item t) := by
  have halike := alike_verifyOne (h := h) hcfg hst hcaller item (count_lt_of_hasRoom hroom _)
  unfold verifyProof
  split
  · exact .none
  · generalize verifyOne h ledger caller item s = p at halike ⊢
    generalize verifyOne h ledger caller item t = q at halike ⊢
    cases halike with
    | none => exact .none
    | some hpq =>
        rename_i p q
        obtain ⟨r, s₁⟩ := p
        obtain ⟨r', t₁⟩ := q
        obtain ⟨rfl, hst₁⟩ : r = r' ∧ Agrees a s₁ t₁ := hpq
        cases r with
        | error e => exact .some ⟨rfl, hst₁⟩
        | ok b => exact .some ⟨rfl, hst₁.publish hcaller b item.publicInputs⟩

/-- Results that are alike are reported alike, and leave states that agree. -/
theorem agrees_commit {α : Type} {pack : α → Reply} (hst : Agrees a s t)
    {p q : Option (Except Error α × State Address)} (hpq : Alike a p q) :
    (commit s (reply pack p)).1 = (commit t (reply pack q)).1 ∧
      Agrees a (commit s (reply pack p)).2 (commit t (reply pack q)).2 := by
  cases hpq with
  | none => exact ⟨rfl, hst⟩
  | some hpq =>
      rename_i p q
      obtain ⟨r, s'⟩ := p
      obtain ⟨r', t'⟩ := q
      obtain ⟨rfl, hst'⟩ : r = r' ∧ Agrees a s' t' := hpq
      cases r with
      | error e => exact ⟨rfl, hst⟩
      | ok v => exact ⟨rfl, hst'⟩

theorem alike_withAdmin (hst : Agrees a s t) (auth : Address → Bool)
    {update : State Address → State Address} (hupdate : Agrees a (update s) (update t)) :
    Alike a (withAdmin auth s update) (withAdmin auth t update) := by
  unfold withAdmin
  rw [hst.frame.admin]
  cases s.admin with
  | none => exact .some ⟨rfl, hst⟩
  | some admin =>
      dsimp only
      split
      · exact .some ⟨rfl, hupdate⟩
      · exact .none

theorem alike_acceptAdmin (hst : Agrees a s t) (auth : Address → Bool) :
    Alike a (acceptAdmin auth s) (acceptAdmin auth t) := by
  have hpending : t.pendingAdmin = s.pendingAdmin := hst.frame _ (by simp)
  unfold acceptAdmin
  rw [hpending]
  cases s.pendingAdmin with
  | none => exact .some ⟨rfl, hst⟩
  | some pending =>
      dsimp only
      split
      · have hset := hst.setInstance (k := .admin) pending (by simp)
        exact .some ⟨rfl, hset.removeInstance (by simp)⟩
      · exact .none

end Kept

/-! ## Whole runs -/

/-- The inputs that stay when the verification calls of `a` are deleted. -/
def Event.isKept (a : Address) : Event Address → Bool
  | .advance _ => true
  | .tx t =>
      match t.call.submission with
      | some (caller, _) => decide (caller ≠ a)
      | none => true

omit [DecidableEq Address] in
/-- Counters this far from their end have room for whatever one call can add. -/
theorem hasRoom_of_le {s : State Address}
    (hcount : ∀ x, (s.verificationCount x).toNat ≤ 2 ^ 64 - 2 ^ 32) (caller : Address)
    (limits : Limits) : HasRoom ledger caller limits s := by
  intro x
  have hx := hcount x
  have hmax := limits.maxCalls.toNat_lt
  unfold State.budget
  omega

theorem exec_kept {a : Address} {s t : State Address} (hwf : WellFormed s) (hst : Agrees a s t)
    {tx : Tx Address} (hkept : Event.isKept a (.tx tx) = true)
    (hcount : ∀ x, (s.verificationCount x).toNat ≤ 2 ^ 64 - 2 ^ 32) :
    (exec h ledger s tx).1 = (exec h ledger t tx).1 ∧
      Agrees a (exec h ledger s tx).2 (exec h ledger t tx).2 := by
  obtain ⟨limits, vk, hcfg⟩ := hwf.configured
  obtain ⟨auth, call⟩ := tx
  cases call with
  | setLimits m w =>
      refine agrees_commit hst ?_
      unfold setLimits
      split
      · exact .some ⟨rfl, hst⟩
      · exact alike_withAdmin hst auth (hst.setInstance _ (by simp))
  | updateVk vk =>
      refine agrees_commit hst ?_
      unfold updateVk
      split
      · exact .some ⟨rfl, hst⟩
      · exact alike_withAdmin hst auth (hst.setInstance _ (by simp))
  | setAllowlistMode b =>
      exact agrees_commit hst (alike_withAdmin hst auth (hst.setInstance _ (by simp)))
  | addToAllowlist addr =>
      exact agrees_commit hst (alike_withAdmin hst auth (hst.setInstance _ (by simp)))
  | removeFromAllowlist addr =>
      exact agrees_commit hst (alike_withAdmin hst auth (hst.removeInstance (by simp)))
  | proposeAdmin p =>
      exact agrees_commit hst (alike_withAdmin hst auth (hst.setInstance _ (by simp)))
  | acceptAdmin => exact agrees_commit hst (alike_acceptAdmin hst auth)
  | setPaused b =>
      exact agrees_commit hst (alike_withAdmin hst auth (hst.setInstance _ (by simp)))
  -- a kept submission is of another caller, whose entries the two states share
  | verifyProof caller item =>
      have hcaller : caller ≠ a := of_decide_eq_true hkept
      exact agrees_commit hst
        (alike_verifyProof hcfg hst hcaller (hasRoom_of_le hcount _ _) auth item)
  | verifyBatch caller proofs =>
      have hcaller : caller ≠ a := of_decide_eq_true hkept
      refine agrees_commit hst ?_
      unfold verifyBatch
      split
      · exact .none
      · exact alike_verifyBatchLoop hcfg hst hcaller (hasRoom_of_le hcount _ _)

omit [DecidableEq Address] in
theorem caller_of_mem_zipWith {caller : Address} {proofs : List ProofItem} {bs : List Bool}
    {e : VerificationResult Address} (he : e ∈ List.zipWith (itemEvent h caller) proofs bs) :
    e.caller = caller := by
  induction proofs generalizing bs with
  | nil => cases he
  | cons item proofs ih =>
      cases bs with
      | nil => cases he
      | cons b bs =>
          rcases List.mem_cons.1 he with rfl | he
          · rfl
          · exact ih he

theorem exec_dropped {a : Address} {s t : State Address} (hwf : WellFormed s) (hst : Agrees a s t)
    {tx : Tx Address} (hdropped : Event.isKept a (.tx tx) = false) :
    Agrees a (exec h ledger s tx).2 t := by
  obtain ⟨proofs, htx⟩ : ∃ proofs, tx.call.submission = some (a, proofs) := by
    cases htx : tx.call.submission with
    | none => simp [Event.isKept, htx] at hdropped
    | some sub =>
        obtain ⟨caller, proofs⟩ := sub
        simp only [Event.isKept, htx, ne_eq, decide_not, Bool.not_eq_false',
          decide_eq_true_eq] at hdropped
        exact ⟨proofs, by rw [hdropped]⟩
  obtain ⟨limits, vk, hcfg⟩ := hwf.configured
  refine ⟨fun k hk => ?_, fun k hk => ?_, fun x => ?_, ?_⟩
  · rw [hst.frame k hk, frame_of_exec h ledger s tx (by simp [htx]) k hk]
  · rw [hst.temporary k hk]
    rcases submission_cases h ledger s tx htx with ⟨-, hsame⟩ | ⟨-, -, hrun⟩
    · rw [hsame]
    · exact ((temporary_of_submitAll hcfg hrun).1 k (hk _)).symm
  · rw [UInt64.le_iff_toNat_le, (counters_of_exec h ledger hwf tx x).1]
    exact (UInt64.le_iff_toNat_le.1 (hst.count x)).trans (Nat.le_add_right _ _)
  · rw [(events_of_exec h ledger hwf tx).1, List.filter_append, ← hst.events]
    simp only [published, htx]
    rw [List.filter_eq_nil_iff.2 (by simpa using fun e he => caller_of_mem_zipWith he),
      List.append_nil]

/-- What is known of the full run at each of its steps. -/
def Quiet (w : World Address) : Prop :=
  WellFormed w.state ∧ ∀ x, (w.state.verificationCount x).toNat ≤ 2 ^ 64 - 2 ^ 32

theorem unwinding (h : Host) (a : Address) :
    (machine h).Unwinding (machine h).simulate (Event.isKept a) (fun w _ => Quiet w)
      fun w v => v.ledger = w.ledger ∧ Agrees a w.state v.state where
  kept := by
    rintro ⟨ledger, s⟩ ⟨ledger', t⟩ event ⟨hwf, hcount⟩ ⟨hledger, hst⟩ hkept
    obtain rfl : ledger' = ledger := hledger
    cases event with
    | advance target => exact ⟨rfl, rfl, hst⟩
    | tx tx =>
        obtain ⟨hout, hnext⟩ := exec_kept (h := h) hwf hst hkept hcount
        exact ⟨congrArg some hout, rfl, hnext⟩
  dropped := by
    rintro ⟨ledger, s⟩ ⟨ledger', t⟩ event ⟨hwf, -⟩ ⟨hledger, hst⟩ hdropped
    obtain rfl : ledger' = ledger := hledger
    cases event with
    | advance target => cases hdropped
    | tx tx => exact ⟨rfl, exec_dropped hwf hst hdropped⟩

/-- If the whole run verifies no inputs too often, each of its steps finds the counters low. -/
theorem quiet_of_mem_trace {admin : Address} {maxCalls windowSize : UInt32} {vk : VerifyingKey}
    {s : State Address} (hs : construct admin maxCalls windowSize vk = some s) {ledger : UInt32}
    {events : List (Event Address)}
    (hbound : ∀ x, ((verifications h ((machine h).trace ⟨ledger, s⟩ events)).map Prod.snd).count x
      ≤ 2 ^ 64 - 2 ^ 32) :
    ∀ e ∈ (machine h).trace ⟨ledger, s⟩ events, Quiet e.pre := by
  intro e he
  obtain ⟨pre, post, rfl, hpre⟩ := (machine h).exists_prefix_of_mem_trace he
  obtain ⟨hwf, hexact, -⟩ := historyInv_run (h := h) hs ledger pre
  rw [hpre]
  refine ⟨hwf, ?_⟩
  intro x
  rw [(hexact x).1]
  refine le_trans ?_ (hbound x)
  rw [(machine h).trace_append, verifications, verifications, List.flatMap_append, List.map_append,
    List.count_append]
  exact Nat.le_add_right _ _

/-- **Callers do not interfere.** As long as no inputs are verified more than `2 ^ 64 - 2 ^ 32`
    times in a run, deleting the verification calls of `a` leaves the outcome of every other call
    as it was, and the events and call counts of every other address. -/
theorem callers_independent (h : Host) (admin : Address) (maxCalls windowSize : UInt32)
    (vk : VerifyingKey) (s : State Address)
    (hs : construct admin maxCalls windowSize vk = some s) (ledger : UInt32)
    (events : List (Event Address)) (a : Address)
    (hbound : ∀ x, ((verifications h ((machine h).trace ⟨ledger, s⟩ events)).map Prod.snd).count x
      ≤ 2 ^ 64 - 2 ^ 32) :
    let full := (machine h).run ⟨ledger, s⟩ events
    let pruned := (machine h).run ⟨ledger, s⟩ (events.filter (Event.isKept a))
    (machine h).views (machine h).simulate ⟨ledger, s⟩ (events.filter (Event.isKept a))
        = (machine h).keptViews (machine h).simulate (Event.isKept a) ⟨ledger, s⟩ events ∧
      ∀ b, b ≠ a →
        (pruned.state.events.filter fun e => decide (e.caller = b))
            = (full.state.events.filter fun e => decide (e.caller = b)) ∧
          ∀ start, pruned.state.temporary.get (.callCount b start)
            = full.state.temporary.get (.callCount b start) := by
  intro full pruned
  have hstart : s.events = [] := by
    unfold construct at hs
    split at hs <;> cases hs
    rfl
  obtain ⟨hviews, -, hend⟩ := (unwinding h a).purge (s := ⟨ledger, s⟩) (t := ⟨ledger, s⟩)
    ⟨rfl, .refl (by simp [hstart])⟩ (quiet_of_mem_trace hs hbound)
  refine ⟨hviews, fun b hb => ⟨?_, fun start => ?_⟩⟩
  · rw [hend.events, List.filter_filter]
    refine List.filter_congr ?_
    intro e _
    -- the events of `b` are among those that are not of `a`
    by_cases he : e.caller = b
    · simp [he, hb]
    · simp [he]
  · exact hend.temporary _ (by simp [hb])

/-! ## The end of a counter -/

section Crowd

variable {s : State Address} {limits : Limits} {vk : VerifyingKey} {item : ProofItem} {k : ℕ}

theorem answeredTrue_replicate : answeredTrue (List.replicate k item) (List.replicate k true)
    = List.replicate k item := by
  simpa using answeredTrue_replicate_true (List.replicate k item)

/-- A batch of `k` copies of an item that verifies, from a caller with no call counted yet. -/
theorem exec_replicate (hcfg : Configured s limits vk) {caller : Address}
    (haccess : checkAccess s caller = .ok ())
    (hverdict : itemVerdict h ledger vk item = some (.ok true))
    (hextend : h.canExtend ledger limits.windowSize = true)
    (hfresh : s.windowCount ledger caller limits = 0) (hk : k ≤ limits.maxCalls.toNat)
    (hroom : (s.verificationCount (item.inputsHash h)).toNat + k < 2 ^ 64) :
    ∃ t, exec h ledger s ⟨fun _ => true, .verifyBatch caller (List.replicate k item)⟩
        = (.ok (.flags (List.replicate k true)), t) ∧ Frame s t ∧
      (t.verificationCount (item.inputsHash h)).toNat
        = (s.verificationCount (item.inputsHash h)).toNat + k ∧
      ∀ c, c ≠ caller → t.windowCount ledger c limits = s.windowCount ledger c limits := by
  have hparses : item.Parses h ledger vk :=
    (itemVerdict_ne_none_iff hcfg.arity).1 (by rw [hverdict]; simp)
  -- no item of the batch traps: each finds room for its call and for its count
  have hprocess : Processable h ledger limits vk (s.windowCount ledger caller limits).toNat
      (fun x => (s.verificationCount x).toNat) (List.replicate k item) := by
    intro pre e post hsplit
    have hlen : pre.length < k := by
      have hlen := congrArg List.length hsplit
      simp only [List.length_replicate, List.length_append, List.length_cons] at hlen
      omega
    obtain rfl : e = item := List.eq_of_mem_replicate (n := k) (by rw [hsplit]; simp)
    rw [hfresh]
    refine ⟨fun _ => ⟨hextend, hparses, fun _ => ?_⟩, fun hle => ?_⟩
    · have hcount := List.countP_le_length (l := pre)
        (p := fun e' => e'.verifies h ledger vk && decide (e'.inputsHash h = e.inputsHash h))
      dsimp only
      omega
    · simp only [UInt32.toNat_zero] at hle
      omega
  obtain ⟨⟨bs, t⟩, hrun⟩ :=
    Option.ne_none_iff_exists'.1 ((submitAll_ne_none_iff hcfg haccess).2 hprocess)
  -- every copy is within the limit, so every answer is `true`
  have hbs : bs = List.replicate k true := by
    rw [(submitAll_metered (settles_settleBatch caller) hcfg haccess hrun).1, List.map_replicate,
      hverdict]
    refine Metered.answers_replicate _ _ rfl ?_
    rw [State.budget, hfresh]
    exact hk
  subst hbs
  have hexec : exec h ledger s ⟨fun _ => true, .verifyBatch caller (List.replicate k item)⟩
      = (.ok (.flags (List.replicate k true)), t) := by
    rw [exec_verifyBatch, if_pos rfl, verifyBatchLoop_eq hcfg (checkAccess_eq_ok.1 haccess).1, hrun]
    rfl
  refine ⟨t, hexec, ?_, ?_, fun c hc => ?_⟩
  · simpa [hexec] using frame_of_exec h ledger s
      ⟨fun _ => true, .verifyBatch caller (List.replicate k item)⟩ (by simp [Call.submission])
  · rw [(counters_of_submitAll hcfg hrun _).1, answeredTrue_replicate]
    simp
  · exact windowCount_congr_get ((temporary_of_submitAll hcfg hrun).1 _ (by simp [hc]))

/-- Each of a list of callers submits a batch of `k` copies of one item. -/
def crowd (callers : List Address) (k : ℕ) (item : ProofItem) : List (Event Address) :=
  callers.map fun c => .tx ⟨fun _ => true, .verifyBatch c (List.replicate k item)⟩

/-- All of it is verified and counted. -/
theorem crowd_run (hcfg : Configured s limits vk)
    (haccess : ∀ caller, checkAccess s caller = .ok ())
    (hverdict : itemVerdict h ledger vk item = some (.ok true))
    (hextend : h.canExtend ledger limits.windowSize = true) (hk : k ≤ limits.maxCalls.toNat)
    {callers : List Address} (hnodup : callers.Nodup)
    (hfresh : ∀ c ∈ callers, s.windowCount ledger c limits = 0)
    (hroom : (s.verificationCount (item.inputsHash h)).toNat + callers.length * k < 2 ^ 64) :
    ∃ t, (machine h).run ⟨ledger, s⟩ (crowd callers k item) = ⟨ledger, t⟩ ∧ Frame s t ∧
      (t.verificationCount (item.inputsHash h)).toNat
        = (s.verificationCount (item.inputsHash h)).toNat + callers.length * k ∧
      (∀ c ∉ callers, t.windowCount ledger c limits = s.windowCount ledger c limits) ∧
      (verifications h ((machine h).trace ⟨ledger, s⟩ (crowd callers k item))).length
        = callers.length * k := by
  induction callers generalizing s with
  | nil =>
      refine ⟨s, rfl, .refl s, by simp, fun _ _ => rfl, ?_⟩
      simp [crowd, verifications, Machine.trace]
  | cons c callers ih =>
      obtain ⟨hc, hnodup'⟩ := List.nodup_cons.1 hnodup
      rw [List.length_cons, Nat.succ_mul] at hroom
      obtain ⟨t, hexec, hframe, hcount, hother⟩ := exec_replicate hcfg (haccess c) hverdict hextend
        (hfresh c List.mem_cons_self) hk (by omega)
      -- the first caller's batch leaves the windows of the others as they were
      have hfresh' : ∀ c' ∈ callers, t.windowCount ledger c' limits = 0 := by
        intro c' hc'
        rw [hother c' (fun heq => hc (heq ▸ hc'))]
        exact hfresh c' (List.mem_cons_of_mem _ hc')
      obtain ⟨u, hrun, hframe', hcount', hother', hlen⟩ := ih (hcfg.of_frame hframe)
        (fun c' => (hframe.checkAccess c').trans (haccess c')) hnodup' hfresh' (by omega)
      -- the run is that batch followed by the run the induction hypothesis is about
      have hstep : (machine h).step ⟨ledger, s⟩
          (.tx ⟨fun _ => true, .verifyBatch c (List.replicate k item)⟩)
          = (some (.ok (.flags (List.replicate k true))), ⟨ledger, t⟩) := by
        simp [machine, hexec]
      refine ⟨u, ?_, hframe.trans hframe', ?_, ?_, ?_⟩
      · simp only [crowd, List.map_cons, Machine.run, hstep]
        exact hrun
      · rw [hcount', hcount, List.length_cons, Nat.succ_mul]
        omega
      · intro c' hc'
        obtain ⟨hne, hnot⟩ := not_or.1 (List.mem_cons.not.1 hc')
        rw [hother' c' hnot, hother c' hne]
      · rw [List.length_cons, Nat.succ_mul, ← hlen]
        simp only [crowd, List.map_cons, Machine.trace, hstep, verifications, List.flatMap_cons,
          List.length_append, List.length_map]
        rw [Nat.add_comm]
        congr 1
        simp [verifiedBy, Event.items, Call.submission, answers, answeredTrue_replicate]

/-- When the crowd has brought a counter to its end, the next caller's proof traps; without one of
    the crowd it verifies. -/
theorem views_ne_of_crowd (h : Host) (ledger : UInt32) (item : ProofItem) {a b : Address}
    {callers : List Address} (hcfg : Configured s limits vk)
    (haccess : ∀ caller, checkAccess s caller = .ok ())
    (hverdict : itemVerdict h ledger vk item = some (.ok true))
    (hextend : h.canExtend ledger limits.windowSize = true) (hk : k ≤ limits.maxCalls.toNat)
    (hk₀ : 0 < k) (hnodup : (a :: callers).Nodup) (hb : b ∉ a :: callers)
    (hfresh : ∀ c, s.windowCount ledger c limits = 0)
    (hzero : s.verificationCount (item.inputsHash h) = 0)
    (hend : (callers.length + 1) * k + 1 = 2 ^ 64) :
    let events := crowd (a :: callers) k item ++ [.tx ⟨fun _ => true, .verifyProof b item⟩]
    (verifications h ((machine h).trace ⟨ledger, s⟩ events)).length < 2 ^ 64 ∧
      (machine h).views (machine h).simulate ⟨ledger, s⟩ (events.filter (Event.isKept a))
        ≠ (machine h).keptViews (machine h).simulate (Event.isKept a) ⟨ledger, s⟩ events := by
  intro events
  obtain ⟨hb₀, hb'⟩ := not_or.1 (List.mem_cons.not.1 hb)
  obtain ⟨ha, hnodup'⟩ := List.nodup_cons.1 hnodup
  have hzero' : (s.verificationCount (item.inputsHash h)).toNat = 0 := by rw [hzero]; rfl
  have hlast : Event.isKept a (.tx ⟨fun _ => true, .verifyProof b item⟩) = true :=
    decide_eq_true hb₀
  have hfilter : events.filter (Event.isKept a)
      = crowd callers k item ++ [.tx ⟨fun _ => true, .verifyProof b item⟩] := by
    have hkept : ∀ c ∈ callers, Event.isKept a
        (.tx ⟨fun _ => true, .verifyBatch c (List.replicate k item)⟩) = true :=
      fun c hc => decide_eq_true fun heq => ha (heq ▸ hc)
    have hdropped : Event.isKept a
        (.tx ⟨fun _ => true, .verifyBatch a (List.replicate k item)⟩) = false := by
      simp [Event.isKept, Call.submission]
    simp only [events, crowd, List.map_cons, List.cons_append, List.filter_cons, hdropped,
      Bool.false_eq_true, if_false, List.filter_append, List.filter_map, List.filter_nil, hlast,
      if_true]
    rw [List.filter_eq_self.2 (by simpa using hkept)]
  -- the last proof is verified as long as its counter has room
  have hproof : ∀ t, Frame s t → t.windowCount ledger b limits = 0 →
      ((machine h).step ⟨ledger, t⟩ (.tx ⟨fun _ => true, .verifyProof b item⟩)).1
        = some (if (t.verificationCount (item.inputsHash h)).toNat + 1 < 2 ^ 64
            then .ok (.flag true) else .trap) := by
    intro t hframe hcount
    have hroom : t.windowCount ledger b limits < limits.maxCalls := by
      rw [hcount, UInt32.lt_iff_toNat_lt]
      exact lt_of_lt_of_le hk₀ hk
    have hexec : (exec h ledger t ⟨fun _ => true, .verifyProof b item⟩).1 = _ :=
      exec_verifyProof_of_room (hcfg.of_frame hframe) rfl
        ((hframe.checkAccess b).trans (haccess b)) hroom hextend item
    rw [hverdict] at hexec
    exact congrArg some hexec
  obtain ⟨t, hrun, hframe, hcount, hother, hlen⟩ := crowd_run hcfg haccess hverdict hextend hk
    hnodup (fun c _ => hfresh c) (by rw [List.length_cons]; omega)
  obtain ⟨u, hrun', hframe', hcount', hother', -⟩ := crowd_run hcfg haccess hverdict hextend hk
    hnodup' (fun c _ => hfresh c) (by rw [Nat.succ_mul] at hend; omega)
  have htrap := hproof t hframe (by rw [hother b hb, hfresh])
  have hok := hproof u hframe' (by rw [hother' b hb', hfresh])
  rw [hcount, hzero', List.length_cons, if_neg (by omega)] at htrap
  rw [hcount', hzero', if_pos (by rw [Nat.succ_mul] at hend; omega)] at hok
  refine ⟨?_, fun heq => ?_⟩
  · simp only [events, Machine.trace_concat, hrun, htrap, verifications_concat, List.length_append,
      hlen, List.length_map, List.length_cons]
    simp only [verifiedBy, answers, answeredTrue_nil_right, List.length_nil]
    omega
  · rw [hfilter, Machine.views_concat, Machine.keptViews_concat _ _ hlast, hrun, hrun'] at heq
    have hsame := (List.append_inj' heq rfl).2
    simp only [Machine.simulate, htrap, hok] at hsame
    simp at hsame

end Crowd

/-- A verifier with the all-zero key whose callers are numbers. -/
def numberedState (maxCalls : UInt32) : State ℕ where
  instanceStorage := ((Store.empty.set .admin 0).set .limits ⟨maxCalls, 17280⟩).set .vk (.zero 1)
  temporary := Store.empty
  events := []

theorem construct_numbered (maxCalls : UInt32) :
    construct 0 maxCalls 17280 (.zero 1) = some (numberedState maxCalls) :=
  if_pos ⟨by decide, rfl⟩

/-- Caller 1's proof deleted, caller 2's stays as it was. -/
theorem callers_independent_numbered :
    let m := machine Host.scalar
    m.views m.simulate ⟨50, numberedState 5⟩ [.tx ⟨fun _ => true, .verifyProof 2 (zeroItem 7 100)⟩]
      = m.keptViews m.simulate (Event.isKept 1) ⟨50, numberedState 5⟩
        [.tx ⟨fun _ => true, .verifyProof 1 (zeroItem 7 100)⟩,
          .tx ⟨fun _ => true, .verifyProof 2 (zeroItem 7 100)⟩] :=
  (callers_independent Host.scalar 0 5 17280 (.zero 1) (numberedState 5) (construct_numbered 5) 50
    [.tx ⟨fun _ => true, .verifyProof 1 (zeroItem 7 100)⟩,
      .tx ⟨fun _ => true, .verifyProof 2 (zeroItem 7 100)⟩] 1
    fun _ => List.count_le_length.trans (by decide +kernel)).1

/-- `2 ^ 64 - 1` verifications of one item are few enough to be counted, but they use up its
    counter: without the calls of caller 0 the last caller's proof would have been verified. -/
theorem callers_interfere_at_the_end :
    let m := machine Host.scalar
    let events : List (Event ℕ) := crowd (List.range (2 ^ 32 + 1)) (2 ^ 32 - 1) (zeroItem 7 100)
      ++ [.tx ⟨fun _ => true, .verifyProof (2 ^ 32 + 1) (zeroItem 7 100)⟩]
    construct 0 maxCount 17280 (.zero 1) = some (numberedState maxCount) ∧
      (verifications Host.scalar (m.trace ⟨50, numberedState maxCount⟩ events)).length < 2 ^ 64 ∧
      m.views m.simulate ⟨50, numberedState maxCount⟩ (events.filter (Event.isKept 0))
        ≠ m.keptViews m.simulate (Event.isKept 0) ⟨50, numberedState maxCount⟩ events := by
  intro m events
  have hcfg : Configured (numberedState maxCount) ⟨maxCount, 17280⟩ (.zero 1) :=
    ⟨by decide, rfl, by decide, rfl, rfl⟩
  have hrange : List.range (2 ^ 32 + 1) = 0 :: (List.range (2 ^ 32)).map Nat.succ :=
    List.range_succ_eq_map
  have hnodup : (0 :: (List.range (2 ^ 32)).map Nat.succ).Nodup :=
    hrange ▸ List.nodup_range
  have hlast : 2 ^ 32 + 1 ∉ 0 :: (List.range (2 ^ 32)).map Nat.succ := by
    rw [← hrange]
    exact fun hmem => absurd (List.mem_range.1 hmem) (lt_irrefl _)
  have hends := views_ne_of_crowd Host.scalar 50 (zeroItem 7 100) (k := 2 ^ 32 - 1) hcfg
    (fun _ => rfl) (by decide +kernel) (by decide +kernel) (by decide) (by decide)
    hnodup hlast (fun _ => rfl) rfl (by rw [List.length_map, List.length_range]; rfl)
  refine ⟨construct_numbered maxCount, ?_⟩
  simp only [events, hrange]
  exact hends

end ZkStellar.Verifier

import ZkStellar.Verifier.VerifyOne

set_option autoImplicit false

/-! # Deployed contracts

What every transaction keeps: a constructed verifier always has an admin, limits with a non-empty
window and a key for two public inputs (`configured_of_deployed`). Admin calls touch neither the
counters nor the events (`admin_cases`), and `verify_one` and the batch loop leave the
configuration alone (`frame_of_verifyOne`, `frame_of_verifyBatchLoop`). -/

namespace ZkStellar.Verifier

variable {Address : Type} [DecidableEq Address] {h : Host} {ledger : UInt32}

/-! ## Verification keeps the configuration -/

theorem frame_of_countCall {s s' : State Address} {limits : Limits} {caller : Address}
    {r : Except Error Unit} (hrun : countCall h ledger limits caller s = some (r, s')) :
    Frame s s' := by
  unfold countCall at hrun
  split at hrun
  · cases hrun
  · split at hrun
    · cases hrun
    · split at hrun
      · cases hrun
        exact .refl s
      · split at hrun
        · cases hrun
          exact .of_instanceStorage rfl
        · cases hrun

theorem frame_of_verifyOne {s s' : State Address} {caller : Address} {item : ProofItem}
    {r : Except Error Bool} (hrun : verifyOne h ledger caller item s = some (r, s')) :
    Frame s s' := by
  unfold verifyOne at hrun
  split at hrun
  · cases hrun
    exact .refl s
  · split at hrun
    · cases hrun
      exact .refl s
    · split at hrun
      · cases hrun
      · next hcount =>
          cases hrun
          exact frame_of_countCall hcount
      · next hcount =>
          split at hrun
          · cases hrun
          · cases hrun
            exact frame_of_countCall hcount
          · split at hrun
            · simp only [Option.map_eq_some_iff, Prod.mk.injEq] at hrun
              obtain ⟨s₂, hrec, -, rfl⟩ := hrun
              exact (frame_of_countCall hcount).trans (frame_of_afterRecord hrec)
            · cases hrun
              exact frame_of_countCall hcount

omit [DecidableEq Address] in
theorem frame_of_publish {s : State Address} {caller : Address} {b : Bool}
    {xs : List (BytesN 32)} : Frame s (publishVerificationResult h caller b xs s) :=
  .of_instanceStorage rfl

theorem frame_of_verifyBatchLoop {proofs : List ProofItem} {s s' : State Address}
    {caller : Address} {results : List Bool} {r : Except Error (List Bool)}
    (hrun : verifyBatchLoop h ledger caller proofs results s = some (r, s')) : Frame s s' := by
  induction proofs generalizing results s with
  | nil =>
      cases hrun
      exact .refl _
  | cons item proofs ih =>
      rw [verifyBatchLoop] at hrun
      split at hrun
      · cases hrun
      · next hone => exact ((frame_of_verifyOne hone).trans frame_of_publish).trans (ih hrun)
      · next hone =>
          cases hrun
          exact frame_of_verifyOne hone
      · next hone =>
          cases hrun
          exact frame_of_verifyOne hone
      · next hone => exact ((frame_of_verifyOne hone).trans frame_of_publish).trans (ih hrun)

/-! ## Admin calls -/

/-- The caller and the items of a call that submits proofs. -/
def Call.submission : Call Address → Option (Address × List ProofItem)
  | .verifyProof caller item => some (caller, [item])
  | .verifyBatch caller proofs => some (caller, proofs)
  | _ => none

/-- The values the entry points check before they store them. -/
def ValidValue : (k : DataKey Address) → k.Value → Prop
  | .limits, l => l.windowSize ≠ 0
  | .vk, vk => vk.ic.length = expectedPublicInputCount
  | _, _ => True

/-- What an admin call can do: it writes checked values in instance storage, never a verification
    counter, and removes none of the entries the contract cannot do without. -/
structure AdminEffect (s s' : State Address) : Prop where
  temporary : s'.temporary = s.temporary
  events : s'.events = s.events
  verificationCount : ∀ x, s'.instanceStorage.get (.verificationCount x)
    = s.instanceStorage.get (.verificationCount x)
  valid : ∀ k v, s'.instanceStorage.get k = some v →
    s.instanceStorage.get k = some v ∨ ValidValue k v
  kept : ∀ k ∈ [DataKey.admin, .limits, .vk], s.instanceStorage.get k ≠ none →
    s'.instanceStorage.get k ≠ none

namespace AdminEffect

variable {s s' s'' : State Address}

omit [DecidableEq Address] in
theorem refl (s : State Address) : AdminEffect s s :=
  ⟨rfl, rfl, fun _ => rfl, fun _ _ hv => .inl hv, fun _ _ hk => hk⟩

omit [DecidableEq Address] in
theorem trans (hs : AdminEffect s s') (hs' : AdminEffect s' s'') : AdminEffect s s'' where
  temporary := hs'.temporary.trans hs.temporary
  events := hs'.events.trans hs.events
  verificationCount x := (hs'.verificationCount x).trans (hs.verificationCount x)
  valid k v hv := (hs'.valid k v hv).elim (hs.valid k v) .inr
  kept k hk hget := hs'.kept k hk (hs.kept k hk hget)

theorem of_set (s : State Address) (k : DataKey Address) (v : k.Value) (hv : ValidValue k v)
    (hk : ∀ x, k ≠ .verificationCount x) : AdminEffect s (s.setInstance k v) where
  temporary := rfl
  events := rfl
  verificationCount x := Store.get_set_of_ne _ _ (hk x).symm
  valid k' v' hget := by
    by_cases heq : k' = k
    · subst heq
      rw [State.setInstance, Store.get_set_self, Option.some.injEq] at hget
      exact .inr (hget ▸ hv)
    · rw [State.setInstance, Store.get_set_of_ne _ _ heq] at hget
      exact .inl hget
  kept k' _ hget := by
    by_cases heq : k' = k
    · subst heq
      simp [State.setInstance]
    · rwa [State.setInstance, Store.get_set_of_ne _ _ heq]

theorem of_remove (s : State Address) (k : DataKey Address) (hk : ∀ x, k ≠ .verificationCount x)
    (hkept : k ∉ [DataKey.admin, .limits, .vk]) :
    AdminEffect s { s with instanceStorage := s.instanceStorage.remove k } where
  temporary := rfl
  events := rfl
  verificationCount x := Store.get_remove_of_ne _ (hk x).symm
  valid k' v' hget := by
    by_cases heq : k' = k
    · subst heq
      simp at hget
    · exact .inl (by rwa [Store.get_remove_of_ne _ heq] at hget)
  kept k' hk' hget := by
    have heq : k' ≠ k := fun heq => hkept (heq ▸ hk')
    rwa [Store.get_remove_of_ne _ heq]

end AdminEffect

omit [DecidableEq Address] in
theorem adminEffect_of_withAdmin {auth : Address → Bool} {s : State Address}
    {update : State Address → State Address} {pack : Unit → Reply}
    (hupdate : AdminEffect s (update s)) :
    AdminEffect s (commit s (reply pack (withAdmin auth s update))).2 := by
  unfold withAdmin
  cases s.admin with
  | none => exact .refl s
  | some a =>
      by_cases hauth : auth a
      · simpa [reply, hauth, Except.map] using hupdate
      · simpa [reply, hauth] using AdminEffect.refl s

/-- A transaction that submits no proofs has the effect of an admin call. -/
theorem admin_cases (h : Host) (ledger : UInt32) (s : State Address) (tx : Tx Address)
    (htx : tx.call.submission = none) :
    AdminEffect s (exec h ledger s tx).2 := by
  obtain ⟨auth, call⟩ := tx
  cases call with
  | setLimits m w =>
      simp only [exec, callBody, setLimits]
      split
      · exact .refl s
      · next hsize =>
          exact adminEffect_of_withAdmin (.of_set s .limits ⟨m, w⟩ hsize (by simp))
  | updateVk vk =>
      simp only [exec, callBody, updateVk]
      split
      · exact .refl s
      · next harity =>
          exact adminEffect_of_withAdmin (.of_set s .vk vk (not_not.1 harity) (by simp))
  | setAllowlistMode b =>
      exact adminEffect_of_withAdmin (.of_set s .allowlistEnabled b trivial (by simp))
  | addToAllowlist a =>
      exact adminEffect_of_withAdmin (.of_set s (.allowlist a) true trivial (by simp))
  | removeFromAllowlist a =>
      exact adminEffect_of_withAdmin (.of_remove s (.allowlist a) (by simp) (by simp))
  | proposeAdmin a =>
      exact adminEffect_of_withAdmin (.of_set s .pendingAdmin a trivial (by simp))
  -- two writes: the new administrator, then the proposal is cleared
  | acceptAdmin =>
      simp only [exec, callBody, acceptAdmin]
      cases s.pendingAdmin with
      | none => exact .refl s
      | some pending =>
          by_cases hauth : auth pending
          · simp only [hauth, if_true]
            exact (AdminEffect.of_set s .admin pending trivial (by simp)).trans
              (.of_remove _ .pendingAdmin (by simp) (by simp))
          · simpa [reply, hauth] using AdminEffect.refl s
  | setPaused b =>
      exact adminEffect_of_withAdmin (.of_set s .paused b trivial (by simp))
  | verifyProof caller item => cases htx
  | verifyBatch caller proofs => cases htx

/-! ## Transactions that submit proofs -/

omit [DecidableEq Address] in
theorem commit_reply_snd {α : Type} (s : State Address) (pack : α → Reply)
    (r : Option (Except Error α × State Address)) :
    (commit s (reply pack r)).2 = s ∨
      ∃ v s', r = some (v, s') ∧ (commit s (reply pack r)).2 = s' := by
  rcases r with _ | ⟨_ | a, s'⟩
  · exact .inl rfl
  · exact .inl rfl
  · exact .inr ⟨_, s', rfl, rfl⟩

/-- A transaction that submits proofs leaves the configuration alone. -/
theorem frame_of_exec (h : Host) (ledger : UInt32) (s : State Address) (tx : Tx Address)
    (htx : tx.call.submission ≠ none) :
    Frame s (exec h ledger s tx).2 := by
  obtain ⟨auth, call⟩ := tx
  cases call with
  | verifyProof caller item =>
      rcases commit_reply_snd s .flag (verifyProof h ledger auth caller item s) with
        heq | ⟨v, s', hrun, heq⟩
      · exact .of_instanceStorage (congrArg State.instanceStorage heq)
      · -- committed, so the call ran to its end: only temporary entries and counters changed
        have hframe : Frame s s' := by
          unfold verifyProof at hrun
          split at hrun
          · cases hrun
          · split at hrun
            · cases hrun
            · next hone =>
                cases hrun
                exact (frame_of_verifyOne hone).trans frame_of_publish
            · next hone =>
                cases hrun
                exact frame_of_verifyOne hone
        exact heq ▸ hframe
  | verifyBatch caller proofs =>
      rcases commit_reply_snd s .flags (verifyBatch h ledger auth caller proofs s) with
        heq | ⟨v, s', hrun, heq⟩
      · exact .of_instanceStorage (congrArg State.instanceStorage heq)
      · have hframe : Frame s s' := by
          unfold verifyBatch at hrun
          split at hrun
          · cases hrun
          · exact frame_of_verifyBatchLoop hrun
        exact heq ▸ hframe
  | _ => exact absurd rfl htx

/-! ## Every deployed contract is configured -/

/-- Every stored value was checked, and admin, limits and key are there. -/
def WellFormed (s : State Address) : Prop :=
  (∀ k v, s.instanceStorage.get k = some v → ValidValue k v) ∧
    ∀ k ∈ [DataKey.admin, .limits, .vk], s.instanceStorage.get k ≠ none

omit [DecidableEq Address] in
theorem WellFormed.configured {s : State Address} (hs : WellFormed s) :
    ∃ limits vk, Configured s limits vk := by
  obtain ⟨hvalid, hkept⟩ := hs
  obtain ⟨limits, hlimits⟩ := Option.ne_none_iff_exists'.1 (hkept .limits (by simp))
  obtain ⟨vk, hvk⟩ := Option.ne_none_iff_exists'.1 (hkept .vk (by simp))
  exact ⟨limits, vk, hkept .admin (by simp), hlimits, hvalid .limits limits hlimits, hvk,
    hvalid .vk vk hvk⟩

theorem wellFormed_exec {s : State Address} (hs : WellFormed s) (tx : Tx Address) :
    WellFormed (exec h ledger s tx).2 := by
  obtain ⟨hvalid, hkept⟩ := hs
  by_cases htx : tx.call.submission = none
  · have heff := admin_cases h ledger s tx htx
    exact ⟨fun k v hv => (heff.valid k v hv).elim (hvalid k v) id,
      fun k hk => heff.kept k hk (hkept k hk)⟩
  · have hframe := frame_of_exec h ledger s tx htx
    refine ⟨fun k v hv => ?_, fun k hk => ?_⟩
    · by_cases hcount : ∃ x, k = .verificationCount x
      · obtain ⟨x, rfl⟩ := hcount
        trivial
      · rw [hframe k (by simpa using hcount)] at hv
        exact hvalid k v hv
    · rw [hframe k (by intro x hx; subst hx; simp at hk)]
      exact hkept k hk

theorem wellFormed_construct {admin : Address} {maxCalls windowSize : UInt32} {vk : VerifyingKey}
    {s : State Address} (hs : construct admin maxCalls windowSize vk = some s) : WellFormed s := by
  unfold construct at hs
  split at hs
  · next hcheck =>
      cases hs
      have hsize : windowSize ≠ 0 := by
        rintro rfl
        exact absurd hcheck.1 (by decide)
      let blank : State Address := ⟨Store.empty, Store.empty, []⟩
      have heff : AdminEffect blank (((blank.setInstance .admin admin).setInstance .limits
          ⟨maxCalls, windowSize⟩).setInstance .vk vk) :=
        ((AdminEffect.of_set blank .admin admin trivial (by simp)).trans
          (.of_set _ .limits ⟨maxCalls, windowSize⟩ hsize (by simp))).trans
          (.of_set _ .vk vk hcheck.2 (by simp))
      refine ⟨fun k v hv => (heff.valid k v hv).elim (fun hnone => by cases hnone) id, ?_⟩
      simp
  · cases hs

theorem wellFormed_of_deployed {w : World Address} (hw : Deployed h w) : WellFormed w.state := by
  obtain ⟨admin, maxCalls, windowSize, vk, s, ledger, hs, hreach⟩ := hw
  refine hreach.induction (P := fun w => WellFormed w.state) _ (wellFormed_construct hs) ?_
  intro w event hwf
  cases event with
  | advance target => exact hwf
  | tx tx => exact wellFormed_exec hwf tx

theorem configured_of_deployed {w : World Address} (hw : Deployed h w) :
    ∃ limits vk, Configured w.state limits vk :=
  (wellFormed_of_deployed hw).configured

/-! ## A deployment with the all-zero key -/

/-- A fresh contract with the all-zero key. -/
def zeroState (maxCalls windowSize : UInt32) : State Unit where
  instanceStorage :=
    ((Store.empty.set .admin ()).set .limits ⟨maxCalls, windowSize⟩).set .vk (.zero 1)
  temporary := Store.empty
  events := []

/-- The all-zero proof for the input that spells `v`, with an expiry ledger. -/
def zeroItem (v expiry : ℕ) : ProofItem := ⟨zeroG1, zeroG2, zeroG1, [.ofNat 32 v, .ofNat 32 expiry]⟩

/-- Such an item with a byte missing from its first proof point. -/
def truncatedItem (v expiry : ℕ) : ProofItem := { zeroItem v expiry with proofA := zeroG1.tail }

/-- The transaction of a call everybody authorised. -/
def signed (call : Call Unit) : Tx Unit := ⟨fun _ => true, call⟩

theorem construct_zero {maxCalls windowSize : UInt32} (hsize : 0 < windowSize) :
    construct () maxCalls windowSize (.zero 1) = some (zeroState maxCalls windowSize) :=
  if_pos ⟨hsize, rfl⟩

theorem deployed_zero (ledger maxCalls : UInt32) {windowSize : UInt32} (hsize : 0 < windowSize)
    (events : List (Event Unit)) :
    Deployed h ((machine h).run ⟨ledger, zeroState maxCalls windowSize⟩ events) :=
  ⟨(), maxCalls, windowSize, .zero 1, _, ledger, construct_zero hsize, events, rfl⟩

end ZkStellar.Verifier

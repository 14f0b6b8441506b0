import ZkStellar.Contracts.Authority
import ZkStellar.Verifier.History

set_option autoImplicit false

/-! # The settings of the verifier

What the admin controls can be read off the calls that ended with a value: replaying them on the
constructor's arguments gives what is stored (`stores_run`), and a step changes it only with the
authorisation of the replayed admin, or of the replayed pending admin who takes over
(`authorised_of_change`). -/

namespace ZkStellar.Verifier

variable {Address : Type} [DecidableEq Address] {h : Host}

/-- What the admin controls. -/
structure Settings (Address : Type) where
  admin : Address
  pendingAdmin : Option Address
  limits : Limits
  vk : VerifyingKey
  paused : Bool
  allowlistEnabled : Bool
  allowlist : Address → Bool

namespace Settings

/-- The settings a contract begins with. -/
def initial (admin : Address) (maxCalls windowSize : UInt32) (vk : VerifyingKey) :
    Settings Address where
  admin := admin
  pendingAdmin := none
  limits := ⟨maxCalls, windowSize⟩
  vk := vk
  paused := false
  allowlistEnabled := false
  allowlist _ := false

/-- The settings after a call that ended with a value. -/
def after (c : Settings Address) : Call Address → Settings Address
  | .setLimits m w => { c with limits := ⟨m, w⟩ }
  | .updateVk vk => { c with vk := vk }
  | .setAllowlistMode b => { c with allowlistEnabled := b }
  | .addToAllowlist a => { c with allowlist := Function.update c.allowlist a true }
  | .removeFromAllowlist a => { c with allowlist := Function.update c.allowlist a false }
  | .proposeAdmin a => { c with pendingAdmin := some a }
  | .acceptAdmin => { c with admin := c.pendingAdmin.getD c.admin, pendingAdmin := none }
  | .setPaused b => { c with paused := b }
  | .verifyProof _ _ | .verifyBatch _ _ => c

/-- The settings after a step. -/
def step (c : Settings Address) (e : Step Address) : Settings Address :=
  match e.input, e.outcome with
  | .tx tx, some (.ok _) => c.after tx.call
  | _, _ => c

/-- The settings that a trace leads to. -/
def replay (c : Settings Address) (tr : List (Step Address)) : Settings Address := tr.foldl step c

/-- What `get_config` says about settings. -/
def config (c : Settings Address) : ContractConfig Address where
  admin := c.admin
  paused := c.paused
  feeAmount := none
  feeToken := none
  rateLimitMax := c.limits.maxCalls
  rateLimitWindow := c.limits.windowSize
  timelockDelay := none
  allowlistEnabled := c.allowlistEnabled

end Settings

/-- The settings are what the state stores. -/
structure Stores (s : State Address) (c : Settings Address) : Prop where
  admin : s.instanceStorage.get .admin = some c.admin
  pendingAdmin : s.instanceStorage.get .pendingAdmin = c.pendingAdmin
  limits : s.instanceStorage.get .limits = some c.limits
  vk : s.instanceStorage.get .vk = some c.vk
  paused : (s.instanceStorage.get .paused).getD false = c.paused
  allowlistEnabled : (s.instanceStorage.get .allowlistEnabled).getD false = c.allowlistEnabled
  allowlist : ∀ a, (s.instanceStorage.get (.allowlist a)).getD false = c.allowlist a

/-! ## One step -/

section

variable {s s' : State Address} {c c' : Settings Address}

omit [DecidableEq Address] in
theorem getConfig_of_stores (hs : Stores s c) : s.getConfig = .ok c.config := by
  unfold State.getConfig
  rw [State.admin, hs.admin, State.limits, hs.limits]
  simp only [State.isPaused, hs.paused, State.allowlistEnabled, hs.allowlistEnabled]
  rfl

omit [DecidableEq Address] in
/-- What only counts verifications leaves the settings stored. -/
theorem stores_of_frame (hs : Stores s c) (hframe : Frame s s') : Stores s' c where
  admin := (hframe _ (by simp)).trans hs.admin
  pendingAdmin := (hframe _ (by simp)).trans hs.pendingAdmin
  limits := (hframe _ (by simp)).trans hs.limits
  vk := (hframe _ (by simp)).trans hs.vk
  paused := by rw [hframe _ (by simp), hs.paused]
  allowlistEnabled := by rw [hframe _ (by simp), hs.allowlistEnabled]
  allowlist a := by rw [hframe _ (by simp), hs.allowlist]

omit [DecidableEq Address] in
/-- A state stores settings in one way. -/
theorem stores_unique (hs : Stores s c) (hs' : Stores s c') : c = c' := by
  obtain ⟨admin, pendingAdmin, limits, vk, paused, allowlistEnabled, allowlist⟩ := hs
  obtain ⟨admin', pendingAdmin', limits', vk', paused', allowlistEnabled', allowlist'⟩ := hs'
  have hlist : c.allowlist = c'.allowlist := funext fun a => (allowlist a).symm.trans (allowlist' a)
  cases c
  cases c'
  simp_all

/-- The settings after the result of a call. -/
def Settings.afterResult (c : Settings Address) (call : Call Address)
    (r : Outcome Error Reply × State Address) : Settings Address :=
  match r.1 with
  | .ok _ => c.after call
  | _ => c

/-- An admin call whose update stores the settings as it should. -/
theorem stores_of_withAdmin {auth : Address → Bool} {update : State Address → State Address}
    {call : Call Address} {pack : Unit → Reply} (hs : Stores s c)
    (hupdate : Stores (update s) (c.after call)) :
    let r := commit s (reply pack (withAdmin auth s update))
    Stores r.2 (c.afterResult call r) := by
  intro r
  have hadmin : s.admin = some c.admin := hs.admin
  simp only [r, withAdmin, hadmin]
  cases hauth : auth c.admin with
  | false => simpa [reply, commit, Settings.afterResult] using hs
  | true => simpa [reply, commit, Except.map, Settings.afterResult] using hupdate

/-- The settings with the value under a key replaced. -/
def Settings.set (c : Settings Address) : (k : DataKey Address) → k.Value → Settings Address
  | .admin, a => { c with admin := a }
  | .pendingAdmin, a => { c with pendingAdmin := some a }
  | .limits, l => { c with limits := l }
  | .vk, vk => { c with vk := vk }
  | .paused, b => { c with paused := b }
  | .allowlistEnabled, b => { c with allowlistEnabled := b }
  | .allowlist a, b => { c with allowlist := Function.update c.allowlist a b }
  | .callCount _ _, _ | .verificationCount _, _ => c

/-- A change of one address's place on the allowlist. -/
theorem stores_of_allowlist (hs : Stores s c) {a : Address} {b : Bool}
    (hother : ∀ k, k ≠ .allowlist a → s'.instanceStorage.get k = s.instanceStorage.get k)
    (hb : (s'.instanceStorage.get (.allowlist a)).getD false = b) :
    Stores s' { c with allowlist := Function.update c.allowlist a b } where
  admin := (hother _ (by simp)).trans hs.admin
  pendingAdmin := (hother _ (by simp)).trans hs.pendingAdmin
  limits := (hother _ (by simp)).trans hs.limits
  vk := (hother _ (by simp)).trans hs.vk
  paused := by rw [hother _ (by simp), hs.paused]
  allowlistEnabled := by rw [hother _ (by simp), hs.allowlistEnabled]
  allowlist a' := by
    show _ = Function.update c.allowlist a b a'
    by_cases heq : a' = a
    · subst heq
      rw [hb, Function.update_self]
    · rw [hother _ (by simpa using heq), hs.allowlist, Function.update_of_ne heq]

theorem stores_setInstance (hs : Stores s c) (k : DataKey Address) (v : k.Value) :
    Stores (s.setInstance k v) (c.set k v) := by
  cases k with
  | allowlist a =>
      refine stores_of_allowlist hs (fun k hk => Store.get_set_of_ne _ _ hk) ?_
      simp [State.setInstance]
  | _ =>
      constructor <;> simp [State.setInstance, Settings.set, hs.admin, hs.pendingAdmin, hs.limits,
        hs.vk, hs.paused, hs.allowlistEnabled, hs.allowlist]

/-- A transaction leaves the settings after its call stored, or those before if it fails. -/
theorem stores_exec (hs : Stores s c) (ledger : UInt32) (tx : Tx Address) :
    Stores (exec h ledger s tx).2 (c.afterResult tx.call (exec h ledger s tx)) := by
  by_cases hsubmission : tx.call.submission = none
  swap
  · have hsame : c.afterResult tx.call (exec h ledger s tx) = c := by
      obtain ⟨auth, call⟩ := tx
      unfold Settings.afterResult
      cases call <;> first | exact absurd rfl hsubmission | (split <;> rfl)
    rw [hsame]
    exact stores_of_frame hs (frame_of_exec h ledger s tx hsubmission)
  obtain ⟨auth, call⟩ := tx
  cases call with
  | setLimits m w =>
      simp only [exec, callBody, setLimits]
      split
      · exact hs
      · exact stores_of_withAdmin hs (stores_setInstance hs .limits ⟨m, w⟩)
  | updateVk vk =>
      simp only [exec, callBody, updateVk]
      split
      · exact hs
      · exact stores_of_withAdmin hs (stores_setInstance hs .vk vk)
  | setAllowlistMode b => exact stores_of_withAdmin hs (stores_setInstance hs .allowlistEnabled b)
  | addToAllowlist a => exact stores_of_withAdmin hs (stores_setInstance hs (.allowlist a) true)
  | removeFromAllowlist a =>
      refine stores_of_withAdmin hs (stores_of_allowlist hs ?_ ?_)
      · exact fun k hk => Store.get_remove_of_ne _ hk
      · simp
  | proposeAdmin a => exact stores_of_withAdmin hs (stores_setInstance hs .pendingAdmin a)
  -- two writes: the new administrator, then the proposal is cleared
  | acceptAdmin =>
      simp only [exec, callBody, acceptAdmin]
      cases hpending : s.pendingAdmin with
      | none => exact hs
      | some p =>
          have hp : c.pendingAdmin = some p := hs.pendingAdmin.symm.trans hpending
          cases hauth : auth p with
          | false => simpa [hauth, reply, commit, Settings.afterResult] using hs
          | true =>
              have haccepted : Stores { s with
                  instanceStorage := (s.instanceStorage.set .admin p).remove .pendingAdmin }
                  { c with admin := p, pendingAdmin := none } := by
                constructor <;> simp [hs.limits, hs.vk, hs.paused, hs.allowlistEnabled,
                  hs.allowlist]
              simpa [hauth, reply, commit, Except.map, Settings.afterResult, Settings.after, hp]
                using haccepted
  | setPaused b => exact stores_of_withAdmin hs (stores_setInstance hs .paused b)
  | verifyProof caller item => cases hsubmission
  | verifyBatch caller proofs => cases hsubmission

end

/-! ## Whole runs -/

theorem stores_construct {admin : Address} {maxCalls windowSize : UInt32} {vk : VerifyingKey}
    {s : State Address} (hs : construct admin maxCalls windowSize vk = some s) :
    Stores s (.initial admin maxCalls windowSize vk) := by
  unfold construct at hs
  split at hs
  · cases hs
    constructor <;> simp [Settings.initial]
  · cases hs

/-- A step of the machine leaves the settings after it stored. -/
theorem stores_step {w : World Address} {c : Settings Address} (hs : Stores w.state c)
    (event : Event Address) :
    Stores ((machine h).step w event).2.state
      (c.step ⟨w, event, ((machine h).step w event).1⟩) := by
  cases event with
  | advance target => exact hs
  | tx tx =>
      have hexec := stores_exec (h := h) hs w.ledger tx
      have hsame : c.step ⟨w, .tx tx, some (exec h w.ledger w.state tx).1⟩
          = c.afterResult tx.call (exec h w.ledger w.state tx) := by
        simp only [Settings.step, Settings.afterResult]
        cases (exec h w.ledger w.state tx).1 <;> rfl
      exact hsame.symm ▸ hexec

/-- What a run stores is what replaying its calls gives. -/
theorem stores_run {w : World Address} {c : Settings Address} (hs : Stores w.state c)
    (events : List (Event Address)) :
    Stores ((machine h).run w events).state (c.replay ((machine h).trace w events)) := by
  refine (machine h).run_induction (P := fun tr w => Stores w.state (c.replay tr)) hs ?_ events
  intro tr w event hstores
  rw [Settings.replay, List.foldl_append]
  exact stores_step hstores event

/-- A step that changes the settings is a transaction that their admin authorised, or the pending
    admin's `accept_admin`. -/
theorem authorised_of_change {w : World Address} {c : Settings Address} (hs : Stores w.state c)
    {event : Event Address} (hchange : c.step ⟨w, event, ((machine h).step w event).1⟩ ≠ c) :
    ∃ tx, event = .tx tx ∧ (tx.auth c.admin = true ∨
      tx.call = .acceptAdmin ∧ ∃ p, c.pendingAdmin = some p ∧ tx.auth p = true) := by
  cases event with
  | advance target => exact absurd rfl hchange
  | tx tx =>
      refine ⟨tx, rfl, ?_⟩
      by_contra hno
      have hnot : ¬ Entitled w.state tx := by
        rintro (⟨a, ha, hauth⟩ | ⟨hcall, p, hp, hauth⟩)
        · have hadmin : c.admin = a := Option.some.inj (hs.admin.symm.trans ha)
          exact hno (.inl (hadmin ▸ hauth))
        · exact hno (.inr ⟨hcall, p, hs.pendingAdmin.symm.trans hp, hauth⟩)
      refine hchange (stores_unique (stores_step (h := h) hs (.tx tx)) ?_)
      exact stores_of_frame hs (frame_of_not_entitled hnot)

end ZkStellar.Verifier

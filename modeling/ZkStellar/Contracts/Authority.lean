import ZkStellar.Lib.Handover
import ZkStellar.Registry.History
import ZkStellar.Verifier.BatchSequence

set_option autoImplicit false

/-! # Who can change what, in both contracts

The admin of either contract is an office that is handed over in two steps: `propose_admin` by the
admin, `accept_admin` by the proposed address. A call that the admin did not authorise, and that is
not the nominee's `accept_admin`, leaves everything the admin controls as it was: in the verifier
all of instance storage but the verification counters, in the registry all of instance storage and
all of persistent storage but the nullifiers. -/

namespace ZkStellar

variable {Address : Type}

/-! ## The registry -/

namespace Registry

variable {h : Host}

/-- The address a call proposes as admin. -/
def Call.proposal : Call Address → Option Address
  | .proposeAdmin newAdmin => some newAdmin
  | _ => none

/-- The admin of the registry as an office. -/
def adminOffice : Office (State Address) (Tx Address) Address where
  holder := State.admin
  nominee := State.pendingAdmin
  nominates tx := tx.call.proposal
  takesOver tx := tx.call = .acceptAdmin
  authorised tx a := tx.auth a = true

/-- The admin authorised the call, or it is an `accept_admin` that the pending admin authorised. -/
def Entitled (s : State Address) (tx : Tx Address) : Prop :=
  (∃ a, s.admin = some a ∧ tx.auth a = true) ∨
    tx.call = .acceptAdmin ∧ ∃ p, s.pendingAdmin = some p ∧ tx.auth p = true

/-- Everything but the nullifiers is unchanged. -/
structure Frame (s s' : State Address) : Prop where
  instanceStorage : s'.instanceStorage = s.instanceStorage
  persistent : ∀ k, (∀ n, k ≠ .nullifier n) → s'.persistent.get k = s.persistent.get k

namespace Frame

variable {s s' s'' : State Address}

theorem refl (s : State Address) : Frame s s := ⟨rfl, fun _ _ => rfl⟩

theorem of_eq (heq : s' = s) : Frame s s' := heq ▸ refl s

theorem trans (hs : Frame s s') (hs' : Frame s' s'') : Frame s s'' :=
  ⟨hs'.1.trans hs.1, fun k hk => (hs'.2 k hk).trans (hs.2 k hk)⟩

theorem admin (hs : Frame s s') : s'.admin = s.admin := by rw [State.admin, hs.1, State.admin]

theorem pendingAdmin (hs : Frame s s') : s'.pendingAdmin = s.pendingAdmin := by
  rw [State.pendingAdmin, hs.1, State.pendingAdmin]

end Frame

theorem frame_afterItem (s : State Address) (item : BatchItem) (b : Bool) :
    Frame s (afterItem h s item b) := by
  refine ⟨by cases b <;> rfl, fun k hk => ?_⟩
  cases b with
  | false => rfl
  | true => exact Store.get_set_of_ne _ _ (hk _)

theorem frame_of_verifyItems {batch : List BatchItem} {s s' : State Address} {bs : List Bool}
    (hrun : verifyItems h batch s = some (bs, s')) : Frame s s' := by
  induction batch generalizing s bs with
  | nil =>
      cases hrun
      exact .refl _
  | cons item batch ih =>
      obtain ⟨b, bs', -, hrest, rfl⟩ := verifyItems_cons_eq_some.1 hrun
      exact (frame_afterItem s item b).trans (ih hrest)

/-- What a transaction does to storage: a proposal by the admin, an acceptance by the nominee, an
    update of a circuit by the admin, or nothing beyond the nullifiers. -/
inductive Change (s : State Address) (tx : Tx Address) (s' : State Address) : Prop where
  | propose (a p : Address) (hcall : tx.call.proposal = some p) (hadmin : s.admin = some a)
      (hauth : tx.auth a = true)
      (hs' : s' = { s with instanceStorage := s.instanceStorage.set .pendingAdmin p })
  | accept (p : Address) (hcall : tx.call = .acceptAdmin) (hpending : s.pendingAdmin = some p)
      (hauth : tx.auth p = true)
      (hs' : s' = { s with
        instanceStorage := (s.instanceStorage.set .admin p).remove .pendingAdmin })
  | circuit (a : Address) (hcall : tx.call.proposal = none) (hadmin : s.admin = some a)
      (hauth : tx.auth a = true) (hs' : s'.instanceStorage = s.instanceStorage)
  | nothing (hno : tx.call.proposal ≠ none → ∀ a, s.admin = some a → tx.auth a = false)
      (hframe : Frame s s')

/-- A call guarded by the admin that proposes nobody and keeps to persistent storage. -/
theorem change_of_withAdmin {s : State Address} {tx : Tx Address}
    (hcall : tx.call.proposal = none) (update : State Address → State Address)
    (hupdate : (update s).instanceStorage = s.instanceStorage) :
    let r : Option (Except Empty Reply × State Address) :=
      (withAdmin tx.auth s update).map fun s => (.ok .unit, s)
    Change s tx (commit s r).2 := by
  rcases withAdmin_cases tx.auth s update with ⟨hs', hno⟩ | ⟨hs', a, ha, hauth⟩
  · exact .nothing (fun _ => hno) (.of_eq hs')
  · exact .circuit a hcall ha hauth (by rw [hs', hupdate])

theorem exec_change (s : State Address) (tx : Tx Address) : Change s tx (exec h s tx).2 := by
  obtain ⟨auth, call⟩ := tx
  cases call with
  | proposeAdmin p =>
      rcases withAdmin_cases auth s (fun s => { s with
        instanceStorage := s.instanceStorage.set .pendingAdmin p }) with
        ⟨hs', hno⟩ | ⟨hs', a, ha, hauth⟩
      · exact .nothing (fun _ => hno) (.of_eq hs')
      · exact .propose a p rfl ha hauth hs'
  -- the only call that asks for another signature than the administrator's
  | acceptAdmin =>
      simp only [exec, callBody, acceptAdmin]
      cases hpending : s.pendingAdmin with
      | none => exact .nothing (by simp [Call.proposal]) (.refl s)
      | some p =>
          cases hauth : auth p with
          | false => exact .nothing (by simp [Call.proposal]) (by simpa [hauth] using Frame.refl s)
          | true => exact .accept p rfl hpending hauth (by simp [hauth])
  | registerCircuit id vk => exact change_of_withAdmin rfl _ rfl
  | removeCircuit id => exact change_of_withAdmin rfl _ rfl
  | verifyProof item =>
      refine .nothing (by simp [Call.proposal]) ?_
      rw [exec_verifyProof]
      cases itemVerdict h s item with
      | none => exact .refl s
      | some b => exact frame_afterItem s item b
  | verifyBatch batch =>
      refine .nothing (by simp [Call.proposal]) ?_
      rw [exec_verifyBatch]
      cases hrun : verifyItems h batch s with
      | none => exact .refl s
      | some r => exact frame_of_verifyItems hrun

theorem respects_adminOffice : adminOffice.Respects (@machine Address h) := by
  intro s tx
  have hchange : Change s tx ((machine h).step s tx).2 := exec_change s tx
  cases hchange with
  | propose a p hcall hadmin hauth hs' =>
      refine .nominated a p ?_ hadmin hauth ?_ ?_
      · simp [adminOffice, hcall]
      · rw [hs']
        simpa [adminOffice, State.admin] using hadmin
      · rw [hs']
        simp [adminOffice, State.pendingAdmin]
  | accept p hcall hpending hauth hs' =>
      refine .takenOver p hcall hpending hauth ?_ ?_ <;> rw [hs'] <;>
        simp [adminOffice, State.admin, State.pendingAdmin]
  | circuit a hcall hadmin hauth hs' =>
      refine .kept ?_ ?_ ?_
      · simp only [adminOffice, State.admin, hs']
      · simp only [adminOffice, State.pendingAdmin, hs']
      · intro p b hnominates
        cases hcall.symm.trans hnominates
  | nothing hno hframe =>
      refine .kept hframe.admin hframe.pendingAdmin ?_
      intro p b hnominates hadmin
      have hproposal : tx.call.proposal ≠ none := Option.ne_none_iff_exists'.2 ⟨p, hnominates⟩
      exact Bool.not_eq_true _ ▸ hno hproposal b hadmin

/-- A call its author was not entitled to leaves all but the nullifiers as they were. -/
theorem frame_of_not_entitled {s : State Address} {tx : Tx Address} (htx : ¬ Entitled s tx) :
    Frame s (exec h s tx).2 := by
  have hchange : Change s tx (exec h s tx).2 := exec_change s tx
  cases hchange with
  | propose a p _ hadmin hauth _ => exact absurd (.inl ⟨a, hadmin, hauth⟩) htx
  | accept p hcall hpending hauth _ => exact absurd (.inr ⟨hcall, p, hpending, hauth⟩) htx
  | circuit a _ hadmin hauth _ => exact absurd (.inl ⟨a, hadmin, hauth⟩) htx
  | nothing _ hframe => exact hframe

end Registry

/-! ## The verifier -/

namespace Verifier

variable [DecidableEq Address] {h : Host} {ledger : UInt32}

/-- The address a call proposes as admin. -/
def Call.proposal : Call Address → Option Address
  | .proposeAdmin newAdmin => some newAdmin
  | _ => none

/-- The admin of the verifier as an office. Nobody authorises that the ledger moves on. -/
def adminOffice : Office (World Address) (Event Address) Address where
  holder w := w.state.admin
  nominee w := w.state.pendingAdmin
  nominates
    | .tx tx => tx.call.proposal
    | .advance _ => none
  takesOver
    | .tx tx => tx.call = .acceptAdmin
    | .advance _ => False
  authorised
    | .tx tx, a => tx.auth a = true
    | .advance _, _ => False

/-- The admin authorised the call, or it is an `accept_admin` that the pending admin authorised. -/
def Entitled (s : State Address) (tx : Tx Address) : Prop :=
  (∃ a, s.admin = some a ∧ tx.auth a = true) ∨
    tx.call = .acceptAdmin ∧ ∃ p, s.pendingAdmin = some p ∧ tx.auth p = true

omit [DecidableEq Address] in
theorem Frame.pendingAdmin {s s' : State Address} (hs : Frame s s') :
    s'.pendingAdmin = s.pendingAdmin :=
  hs _ (by simp)

omit [DecidableEq Address] in
/-- An admin call does its update when the admin authorised it, and nothing otherwise. -/
theorem withAdmin_cases (auth : Address → Bool) (s : State Address)
    (update : State Address → State Address) (pack : Unit → Reply) :
    ((commit s (reply pack (withAdmin auth s update))).2 = s ∧
        ∀ a, s.admin = some a → auth a = false) ∨
      (commit s (reply pack (withAdmin auth s update))).2 = update s ∧
        ∃ a, s.admin = some a ∧ auth a = true := by
  unfold withAdmin
  cases s.admin with
  | none => exact .inl ⟨rfl, by simp⟩
  | some a =>
      cases hauth : auth a with
      | false => exact .inl ⟨by simp [hauth, reply], by simp [hauth]⟩
      | true => exact .inr ⟨by simp [hauth, reply, Except.map], a, rfl, hauth⟩

/-- What a transaction does to storage: a proposal by the admin, an acceptance by the nominee, a
    change of a setting by the admin, or nothing beyond the verification counters. -/
inductive Change (s : State Address) (tx : Tx Address) (s' : State Address) : Prop where
  | propose (a p : Address) (hcall : tx.call.proposal = some p) (hadmin : s.admin = some a)
      (hauth : tx.auth a = true) (hs' : s' = s.setInstance .pendingAdmin p)
  | accept (p : Address) (hcall : tx.call = .acceptAdmin) (hpending : s.pendingAdmin = some p)
      (hauth : tx.auth p = true)
      (hs' : s' = { s with
        instanceStorage := (s.instanceStorage.set .admin p).remove .pendingAdmin })
  | setting (a : Address) (hcall : tx.call.proposal = none) (hadmin : s.admin = some a)
      (hauth : tx.auth a = true) (hadmin' : s'.admin = s.admin)
      (hpending' : s'.pendingAdmin = s.pendingAdmin)
  | nothing (hno : tx.call.proposal ≠ none → ∀ a, s.admin = some a → tx.auth a = false)
      (hframe : Frame s s')

/-- A call guarded by the admin that proposes nobody and leaves the office alone. -/
theorem change_of_withAdmin {s : State Address} {tx : Tx Address}
    (hcall : tx.call.proposal = none) (update : State Address → State Address)
    (hadmin : (update s).admin = s.admin) (hpending : (update s).pendingAdmin = s.pendingAdmin)
    (pack : Unit → Reply) :
    Change s tx (commit s (reply pack (withAdmin tx.auth s update))).2 := by
  rcases withAdmin_cases tx.auth s update pack with ⟨hs', hno⟩ | ⟨hs', a, ha, hauth⟩
  · exact .nothing (fun _ => hno) (.of_instanceStorage (by rw [hs']))
  · exact .setting a hcall ha hauth (by rw [hs', hadmin]) (by rw [hs', hpending])

/-- A setting under a key other than the two of the office. -/
theorem change_of_setInstance {s : State Address} {tx : Tx Address}
    (hcall : tx.call.proposal = none) (k : DataKey Address) (v : k.Value) (hk : k ≠ .admin)
    (hk' : k ≠ .pendingAdmin) (pack : Unit → Reply) :
    Change s tx (commit s (reply pack (withAdmin tx.auth s (·.setInstance k v)))).2 :=
  change_of_withAdmin hcall (fun s => s.setInstance k v) (Store.get_set_of_ne _ _ hk.symm)
    (Store.get_set_of_ne _ _ hk'.symm) pack

theorem exec_change (s : State Address) (tx : Tx Address) :
    Change s tx (exec h ledger s tx).2 := by
  obtain ⟨auth, call⟩ := tx
  cases call with
  | setLimits m w =>
      simp only [exec, callBody, setLimits]
      split
      · exact .nothing (by simp [Call.proposal]) (.refl s)
      · exact change_of_setInstance rfl .limits _ (by simp) (by simp) _
  | updateVk vk =>
      simp only [exec, callBody, updateVk]
      split
      · exact .nothing (by simp [Call.proposal]) (.refl s)
      · exact change_of_setInstance rfl .vk _ (by simp) (by simp) _
  | setAllowlistMode b =>
      exact change_of_setInstance rfl .allowlistEnabled b (by simp) (by simp) _
  | addToAllowlist a => exact change_of_setInstance rfl (.allowlist a) true (by simp) (by simp) _
  | removeFromAllowlist a =>
      exact change_of_withAdmin rfl
        (fun s => { s with instanceStorage := s.instanceStorage.remove (.allowlist a) })
        (Store.get_remove_of_ne s.instanceStorage (by simp))
        (Store.get_remove_of_ne s.instanceStorage (by simp)) _
  | proposeAdmin p =>
      rcases withAdmin_cases auth s (·.setInstance .pendingAdmin p) (fun _ => .unit) with
        ⟨hs', hno⟩ | ⟨hs', a, ha, hauth⟩
      · refine .nothing (fun _ => hno) ?_
        exact .of_instanceStorage (congrArg State.instanceStorage hs')
      · exact .propose a p rfl ha hauth hs'
  -- signed by the proposed address, not by the administrator
  | acceptAdmin =>
      simp only [exec, callBody, acceptAdmin]
      cases hpending : s.pendingAdmin with
      | none => exact .nothing (by simp [Call.proposal]) (.refl s)
      | some p =>
          cases hauth : auth p with
          | false =>
              exact .nothing (by simp [Call.proposal]) (by simpa [hauth, reply] using Frame.refl s)
          | true => exact .accept p rfl hpending hauth (by simp [hauth, reply, Except.map])
  | setPaused b => exact change_of_setInstance rfl .paused b (by simp) (by simp) _
  | verifyProof caller item =>
      refine .nothing (by simp [Call.proposal]) (frame_of_exec h ledger s _ ?_)
      simp [Call.submission]
  | verifyBatch caller proofs =>
      refine .nothing (by simp [Call.proposal]) (frame_of_exec h ledger s _ ?_)
      simp [Call.submission]

theorem respects_adminOffice : adminOffice.Respects (@machine Address _ h) := by
  intro w event
  cases event with
  | advance target => exact .kept rfl rfl fun p a hnominates => by cases hnominates
  | tx tx =>
      have hchange : Change w.state tx (exec h w.ledger w.state tx).2 := exec_change w.state tx
      cases hchange with
      | propose a p hcall hadmin hauth hs' =>
          refine .nominated a p hcall hadmin hauth ?_ ?_
          · simpa [adminOffice, machine, hs', State.admin, State.setInstance] using hadmin
          · simp [adminOffice, machine, hs', State.pendingAdmin, State.setInstance]
      | accept p hcall hpending hauth hs' =>
          refine .takenOver p hcall hpending hauth ?_ ?_ <;>
            simp [adminOffice, machine, hs', State.admin, State.pendingAdmin]
      | setting a hcall hadmin hauth hadmin' hpending' =>
          refine .kept hadmin' hpending' ?_
          intro p b hnominates
          cases hcall.symm.trans hnominates
      | nothing hno hframe =>
          refine .kept hframe.admin hframe.pendingAdmin ?_
          intro p b hnominates hadmin
          have hproposal : tx.call.proposal ≠ none := Option.ne_none_iff_exists'.2 ⟨p, hnominates⟩
          exact Bool.not_eq_true _ ▸ hno hproposal b hadmin

/-- A call its author was not entitled to leaves all of instance storage but the verification
    counters as it was. -/
theorem frame_of_not_entitled {s : State Address} {tx : Tx Address} (htx : ¬ Entitled s tx) :
    Frame s (exec h ledger s tx).2 := by
  have hchange : Change s tx (exec h ledger s tx).2 := exec_change s tx
  cases hchange with
  | propose a p _ hadmin hauth _ => exact absurd (.inl ⟨a, hadmin, hauth⟩) htx
  | accept p hcall hpending hauth _ => exact absurd (.inr ⟨hcall, p, hpending, hauth⟩) htx
  | setting a _ hadmin hauth _ _ => exact absurd (.inl ⟨a, hadmin, hauth⟩) htx
  | nothing _ hframe => exact hframe

end Verifier

/-! ## Both contracts -/

/-- **Authority is confined.** In either contract the pending admin is the one the present admin
    proposed last, every admin is the constructor's or was proposed by their predecessor and
    accepted for themselves, and a call by nobody entitled changes nothing the admin controls. -/
theorem authority_confined [DecidableEq Address] (h : Host) :
    (∀ admin : Address,
      Registry.adminOffice.Confined (Registry.machine h) (Registry.construct admin) admin ∧
      ∀ (s : Registry.State Address) (tx : Registry.Tx Address), ¬ Registry.Entitled s tx →
        Registry.Frame s (Registry.exec h s tx).2) ∧
    ∀ (admin : Address) (maxCalls windowSize : UInt32) (vk : VerifyingKey)
      (s : Verifier.State Address) (ledger : UInt32),
      Verifier.construct admin maxCalls windowSize vk = some s →
      Verifier.adminOffice.Confined (Verifier.machine h) ⟨ledger, s⟩ admin ∧
      ∀ (ledger : UInt32) (s : Verifier.State Address) (tx : Verifier.Tx Address),
        ¬ Verifier.Entitled s tx → Verifier.Frame s (Verifier.exec h ledger s tx).2 := by
  refine ⟨fun admin => ⟨?_, fun s tx => Registry.frame_of_not_entitled⟩, ?_⟩
  · exact Office.confined Registry.respects_adminOffice rfl rfl
  · intro admin maxCalls windowSize vk s ledger hs
    have hadmin : s.admin = some admin ∧ s.pendingAdmin = none := by
      unfold Verifier.construct at hs
      split at hs <;> cases hs
      simp [Verifier.State.admin, Verifier.State.pendingAdmin]
    exact ⟨Office.confined Verifier.respects_adminOffice hadmin.1 hadmin.2,
      fun _ _ _ htx => Verifier.frame_of_not_entitled htx⟩

/-- A deployed verifier confines its admin; with nobody's authorisation neither is the verifier
    paused nor a circuit of the registry removed. -/
theorem authority_confined_zero :
    Verifier.adminOffice.Confined (Verifier.machine Host.scalar)
        ⟨50, Verifier.zeroState 5 17280⟩ () ∧
      Verifier.Frame (Verifier.zeroState 5 17280) (Verifier.exec Host.scalar 50
        (Verifier.zeroState 5 17280) ⟨fun _ => false, .setPaused true⟩).2 ∧
      Registry.Frame (Registry.construct ()) (Registry.exec Host.scalar (Registry.construct ())
        ⟨fun _ => false, .removeCircuit 0⟩).2 := by
  obtain ⟨hregistry, hverifier⟩ := @authority_confined Unit _ Host.scalar
  obtain ⟨hconfined, hframe⟩ := hverifier () 5 17280 (.zero 1) (Verifier.zeroState 5 17280) 50
    (Verifier.construct_zero (by decide))
  refine ⟨hconfined, hframe 50 _ _ ?_, (hregistry ()).2 _ _ ?_⟩
  · simp [Verifier.Entitled]
  · simp [Registry.Entitled]

end ZkStellar

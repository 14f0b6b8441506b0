import ZkStellar.Registry.History

set_option autoImplicit false

/-! # Single use of a statement

Replay protection compares input bytes, the Groth16 equation only their values modulo the scalar
order. A statement that has been accepted under one spelling is therefore turned away under the same
spelling and accepted again under another (`zeroRun_accepts_twice`). A run accepts every statement
at most once exactly when no two of its valid submissions spell one statement in two ways
(`singleUse_iff`), and canonical inputs are one way to ensure that
(`statement_inj_of_canonical`). -/

namespace ZkStellar.Registry

variable {Address : Type} {h : Host}

/-! ## Canonical inputs -/

/-- Every input spells a number below the scalar order. -/
def Canonical (publicInputs : List (BytesN 32)) : Prop :=
  ∀ x ∈ publicInputs, x.toNat < bn254ScalarOrder

/-- Canonical inputs that denote the same scalars are the same bytes. -/
theorem statement_inj_of_canonical {xs ys : List (BytesN 32)} (hxs : Canonical xs)
    (hys : Canonical ys) (heq : statement xs = statement ys) : xs = ys := by
  induction xs generalizing ys with
  | nil =>
      cases ys with
      | nil => rfl
      | cons y ys => cases heq
  | cons x xs ih =>
      cases ys with
      | nil => cases heq
      | cons y ys =>
          simp only [statement, List.map_cons, List.cons.injEq] at heq
          simp only [Canonical, List.forall_mem_cons] at hxs hys
          rw [Fr.fromBytes_inj_of_lt hxs.1 hys.1 heq.1, ih hxs.2 hys.2 heq.2]

/-! ## Valid submissions -/

/-- A step submitted an item that everything but the replay check lets through: its call runs to
    the end, its circuit is active, and its proof passes `run_verification`. -/
def ValidSubmission (h : Host) (e : Step Address) (item : BatchItem) : Prop :=
  item ∈ e.input.call.items ∧ EntriesParse h e.pre e.input.call.items ∧
    accepts h e.pre item = true

/-- An item that everything but the replay check lets through is either accepted or was burned. -/
theorem used_of_accepts {batch : List BatchItem} {s s' : State Address} {bs : List Bool}
    (hrun : verifyItems h batch s = some (bs, s')) {item : BatchItem} (hmem : item ∈ batch)
    (hvalid : accepts h s item = true) : s'.isNullifierUsed (item.nullifier h) = true := by
  induction batch generalizing s bs with
  | nil => cases hmem
  | cons head batch ih =>
      obtain ⟨b, bs', hv, hrest, rfl⟩ := verifyItems_cons_eq_some.1 hrun
      rcases List.mem_cons.1 hmem with rfl | hlater
      · -- the rest of the batch only adds nullifiers
        rw [(nullifiers_of_verifyItems hrest).1]
        left
        by_contra hfresh
        have hno := ((fresh_afterItem_iff hv _).1 (Bool.eq_false_iff.2 hfresh)).2 rfl
        rw [hvalid] at hno
        cases hno
      · exact ih hrest hlater (by rwa [accepts_afterItem])

theorem accepts_of_answeredTrue {batch : List BatchItem} {s s' : State Address} {bs : List Bool}
    (hrun : verifyItems h batch s = some (bs, s')) {item : BatchItem}
    (hmem : item ∈ answeredTrue batch bs) : accepts h s item = true := by
  induction batch generalizing s bs with
  | nil => simp at hmem
  | cons head batch ih =>
      obtain ⟨b, bs', hv, hrest, rfl⟩ := verifyItems_cons_eq_some.1 hrun
      have hrec : item ∈ answeredTrue batch bs' → accepts h s item = true := by
        intro hlater
        rw [← accepts_afterItem (b := b)]
        exact ih hrest hlater
      cases b with
      | false => exact hrec (by simpa using hmem)
      | true =>
          simp only [answeredTrue_cons, if_true, List.mem_cons] at hmem
          rcases hmem with rfl | hlater
          · obtain ⟨hactive, -, hcheck⟩ := check_of_itemVerdict_true hv
            simp [accepts, hactive, hcheck]
          · exact hrec hlater

theorem validSubmission_of_acceptedBy {s : State Address} {tx : Tx Address} {item : BatchItem}
    (hmem : item ∈ acceptedBy (stepAt h s tx)) : ValidSubmission h (stepAt h s tx) item := by
  rcases exec_cases (h := h) s tx with hrun | ⟨hnone, -⟩
  · exact ⟨mem_of_mem_answeredTrue hmem, verifyItems_ne_none_iff.1 (by simp [stepAt, hrun]),
      accepts_of_answeredTrue hrun hmem⟩
  · simp [acceptedBy, stepAt, hnone] at hmem

theorem used_of_validSubmission {s : State Address} {tx : Tx Address} {item : BatchItem}
    (hvalid : ValidSubmission h (stepAt h s tx) item) :
    (exec h s tx).2.isNullifierUsed (item.nullifier h) = true := by
  obtain ⟨hmem, hparse, hacc⟩ := hvalid
  obtain ⟨⟨bs, s'⟩, hrun⟩ := Option.ne_none_iff_exists'.1 (verifyItems_ne_none_iff.2 hparse)
  obtain ⟨auth, call⟩ := tx
  cases call with
  | verifyProof item' =>
      have hused := used_of_accepts hrun hmem hacc
      simp only [stepAt, Call.items, verifyItems] at hrun
      rw [exec_verifyProof]
      cases hv : itemVerdict h s item' with
      | none => simp [hv] at hrun
      | some b =>
          simp only [hv, Option.map_some, Option.some.injEq, Prod.mk.injEq] at hrun
          rwa [← hrun.2] at hused
  | verifyBatch batch =>
      rw [exec_verifyBatch, show verifyItems h batch s = some (bs, s') from hrun]
      exact used_of_accepts hrun hmem hacc
  | _ => cases hmem

/-! ## Whole runs -/

/-- Accepted items were valid submissions, and the nullifier of a valid submission is stored. -/
def SubmissionsBurned (h : Host) (tr : List (Step Address)) (s : State Address) : Prop :=
  NullifiersExact h tr s ∧ (∀ item ∈ accepted tr, ∃ e ∈ tr, ValidSubmission h e item) ∧
    ∀ e ∈ tr, ∀ item, ValidSubmission h e item → s.isNullifierUsed (item.nullifier h) = true

theorem submissionsBurned_step {tr : List (Step Address)} {s : State Address}
    (hinv : SubmissionsBurned h tr s) (tx : Tx Address) :
    SubmissionsBurned h (tr ++ [stepAt h s tx]) (exec h s tx).2 := by
  obtain ⟨hexact, hvalid, hburned⟩ := hinv
  refine ⟨nullifiersExact_step hexact tx, ?_, ?_⟩
  · intro item hitem
    rw [accepted_concat, List.mem_append] at hitem
    rcases hitem with hold | hnew
    · obtain ⟨e, he, hsub⟩ := hvalid item hold
      exact ⟨e, List.mem_append_left _ he, hsub⟩
    · exact ⟨stepAt h s tx, by simp, validSubmission_of_acceptedBy hnew⟩
  · intro e he item hsub
    rcases List.mem_append.1 he with hold | hnew
    · rw [(nullifiers_of_exec s tx).1]
      exact .inl (hburned e hold item hsub)
    · obtain rfl := List.mem_singleton.1 hnew
      exact used_of_validSubmission hsub

theorem submissionsBurned_run (admin : Address) (txs : List (Tx Address)) :
    SubmissionsBurned h ((machine h).trace (construct admin) txs)
      ((machine h).run (construct admin) txs) := by
  refine (machine h).run_induction (P := SubmissionsBurned h) ⟨nullifiersExact_run admin [], ?_, ?_⟩
    (fun tr s tx hinv => submissionsBurned_step hinv tx) txs
  · simp [accepted]
  · simp

/-- No statement was accepted twice for the id. -/
def SingleUse (id : UInt32) (tr : List (Step Address)) : Prop :=
  (((accepted tr).filter (·.id = id)).map fun e => statement e.publicInputs).Nodup

instance (id : UInt32) (tr : List (Step Address)) : Decidable (SingleUse id tr) :=
  inferInstanceAs (Decidable (List.Nodup _))

/-- No two valid submissions for the id spell one statement in two ways. -/
def OneSpelling (h : Host) (id : UInt32) (tr : List (Step Address)) : Prop :=
  ∀ e ∈ tr, ∀ e' ∈ tr, ∀ a b, ValidSubmission h e a → ValidSubmission h e' b → a.id = id →
    b.id = id → statement a.publicInputs = statement b.publicInputs →
    a.publicInputs = b.publicInputs

theorem oneSpelling_of_canonical {id : UInt32} {tr : List (Step Address)}
    (hcanon : ∀ item ∈ submitted tr, item.id = id → Canonical item.publicInputs) :
    OneSpelling h id tr := by
  intro e he e' he' a b ha hb haid hbid heq
  have hmem : ∀ e ∈ tr, ∀ x, ValidSubmission h e x → x ∈ submitted tr :=
    fun e he x hx => List.mem_flatMap.2 ⟨e, he, hx.1⟩
  exact statement_inj_of_canonical (hcanon a (hmem e he a ha) haid)
    (hcanon b (hmem e' he' b hb) hbid) heq

/-- **Single use.** In a run whose hashed messages do not collide, no statement is accepted twice
    for an id exactly when no two valid submissions for it spell one statement in two ways. This
    holds of every id, whether or not its key is ever replaced. -/
theorem singleUse_iff (h : Host) (admin : Address) (txs : List (Tx Address)) (id : UInt32)
    (hfree : h.CollisionFree (messages h (submitted ((machine h).trace (construct admin) txs)))) :
    SingleUse id ((machine h).trace (construct admin) txs) ↔
      OneSpelling h id ((machine h).trace (construct admin) txs) := by
  obtain ⟨⟨hused, hnodup⟩, hvalid, hburned⟩ := submissionsBurned_run (h := h) admin txs
  generalize (machine h).trace (construct admin) txs = tr at *
  have hsub : ∀ e ∈ tr, ∀ x, ValidSubmission h e x → x ∈ submitted tr :=
    fun e he x hx => List.mem_flatMap.2 ⟨e, he, hx.1⟩
  constructor
  · intro hsingle e he e' he' a b ha hb haid hbid heq
    -- each of the two was accepted at some time, possibly in an earlier submission
    have hacc : ∀ e ∈ tr, ∀ x, ValidSubmission h e x → x.id = id →
        ∃ x' ∈ (accepted tr).filter (·.id = id), x'.publicInputs = x.publicInputs := by
      intro e he x hx hxid
      obtain ⟨x', hx', hn⟩ := List.mem_map.1 ((hused _).1 (hburned e he x hx))
      obtain ⟨e'', he'', hx''⟩ := hvalid x' hx'
      obtain ⟨hid, hxs⟩ := nullifier_inj hfree (hsub e'' he'' x' hx'') (hsub e he x hx) hn
      exact ⟨x', List.mem_filter.2 ⟨hx', by simp [hid, hxid]⟩, hxs⟩
    obtain ⟨a', ha', has⟩ := hacc e he a ha haid
    obtain ⟨b', hb', hbs⟩ := hacc e' he' b hb hbid
    have hab : a' = b' := List.inj_on_of_nodup_map hsingle ha' hb' (by rw [has, hbs, heq])
    rw [← has, hab, hbs]
  · intro hone
    have hfilter : ((accepted tr).filter (·.id = id)).Nodup := hnodup.of_map.filter _
    refine hfilter.map_on ?_
    intro a ha b hb heq
    obtain ⟨ha, haid⟩ := List.mem_filter.1 ha
    obtain ⟨hb, hbid⟩ := List.mem_filter.1 hb
    rw [decide_eq_true_iff] at haid hbid
    obtain ⟨e, he, hae⟩ := hvalid a ha
    obtain ⟨e', he', hbe⟩ := hvalid b hb
    have hxs := hone e he e' he' a b hae hbe haid hbid heq
    exact List.inj_on_of_nodup_map hnodup ha hb (nullifier_congr (haid.trans hbid.symm) hxs)

/-- Two different statements submitted for the all-zero key: the run accepts each of them once. -/
theorem singleUse_iff_zeroRun :
    OneSpelling Host.scalar 0 ((machine Host.scalar).trace (construct ()) (zeroRun [0, 1])) :=
  (singleUse_iff Host.scalar () (zeroRun [0, 1]) 0 (by decide +kernel)).1 (by decide +kernel)

/-! ## One statement, two spellings -/

/-- The keys registered under an id. -/
def registrations (id : UInt32) (tr : List (Step Address)) : List VerifyingKey :=
  tr.filterMap fun e =>
    match e.input.call, e.outcome with
    | .registerCircuit id' vk, .ok _ => if id' = id then some vk else none
    | _, _ => none

/-- The inputs `0` and `r` are one statement. The id's key is registered once, no hashed messages
    collide, and both submissions are accepted. -/
theorem zeroRun_accepts_twice :
    let tr := (machine Host.scalar).trace (construct ()) (zeroRun [0, bn254ScalarOrder])
    registrations 0 tr = [.zero 1] ∧
      Host.scalar.CollisionFree (messages Host.scalar (submitted tr)) ∧ ¬ SingleUse 0 tr := by
  refine ⟨by decide +kernel, by decide +kernel, by decide +kernel⟩

end ZkStellar.Registry

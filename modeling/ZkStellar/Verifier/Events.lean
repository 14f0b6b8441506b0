import ZkStellar.Verifier.History
import ZkStellar.Verifier.Independence

set_option autoImplicit false

/-! # The event log of the verifier

A committed call publishes one event for each item it answered, with the answer as its flag, and
nothing else publishes (`events_of_exec`). The log of a run is therefore the answers of its calls in
order, and the verification count of an inputs hash is the number of events that report a success
under it (`counts_eq_events`). -/

namespace ZkStellar.Verifier

variable {Address : Type} [DecidableEq Address] {h : Host} {ledger : UInt32}

/-- The events a step committed: its items with the flags its call answered them with. -/
def published (h : Host) (e : Step Address) : List (VerificationResult Address) :=
  match e.input with
  | .tx tx =>
      match tx.call.submission with
      | some (caller, proofs) => List.zipWith (itemEvent h caller) proofs (answers e.outcome)
      | none => []
  | .advance _ => []

theorem answers_of_admin (h : Host) (ledger : UInt32) (s : State Address) (tx : Tx Address)
    (htx : tx.call.submission = none) : answers (some (exec h ledger s tx).1) = [] := by
  have hunit : ∀ r : Option (Except Error Unit × State Address),
      answers (some (commit s (reply (fun _ => .unit) r)).1) = [] := by
    rintro (_ | ⟨e | u, s'⟩) <;> rfl
  obtain ⟨auth, call⟩ := tx
  cases call with
  | verifyProof caller item => cases htx
  | verifyBatch caller proofs => cases htx
  | _ => exact hunit _

/-- One transaction publishes the answers to its items, and a call that ends with a value has
    answered every item. -/
theorem events_of_exec (h : Host) (ledger : UInt32) {s : State Address} (hwf : WellFormed s)
    (tx : Tx Address) :
    let e : Step Address := ⟨⟨ledger, s⟩, .tx tx, some (exec h ledger s tx).1⟩
    (exec h ledger s tx).2.events = s.events ++ published h e ∧
      ((∃ v, (exec h ledger s tx).1 = .ok v) →
        (answers e.outcome).length = e.input.items.length) := by
  obtain ⟨limits, vk, hcfg⟩ := hwf.configured
  cases htx : tx.call.submission with
  | none =>
      simp only [published, Event.items, htx, Option.map_none, Option.getD_none, List.append_nil,
        List.length_nil, answers_of_admin h ledger s tx htx, implies_true, and_true]
      exact (admin_cases h ledger s tx htx).events
  | some sub =>
      obtain ⟨caller, proofs⟩ := sub
      simp only [published, Event.items, htx, Option.map_some, Option.getD_some]
      rcases submission_cases h ledger s tx htx with ⟨hno, hsame⟩ | ⟨-, -, hrun⟩
      · refine ⟨by simp [answers_of_not_ok hno, hsame], ?_⟩
        rintro ⟨v, hv⟩
        exact absurd hv (hno v)
      · exact ⟨events_of_submitAll hcfg hrun, fun _ => length_of_submitAll hrun⟩

/-! ## Whole runs -/

/-- The log is what the steps of the trace published, and a step that ended with a value answered
    each of its items. -/
def LogExact (h : Host) (tr : List (Step Address)) (w : World Address) : Prop :=
  WellFormed w.state ∧ w.state.events = tr.flatMap (published h) ∧
    ∀ e ∈ tr, (∃ v, e.outcome = some (.ok v)) → (answers e.outcome).length = e.input.items.length

theorem logExact_step {tr : List (Step Address)} {w : World Address} (hinv : LogExact h tr w)
    (event : Event Address) :
    LogExact h (tr ++ [⟨w, event, ((machine h).step w event).1⟩])
      ((machine h).step w event).2 := by
  obtain ⟨hwf, hlog, hall⟩ := hinv
  cases event with
  | advance target =>
      refine ⟨hwf, ?_, ?_⟩
      · simpa [published, machine] using hlog
      · intro e he hok
        rcases List.mem_append.1 he with hold | hnew
        · exact hall e hold hok
        · obtain rfl := List.mem_singleton.1 hnew
          rfl
  | tx tx =>
      obtain ⟨ledger, s⟩ := w
      -- the step appends its own events to the log and its own entry to the trace
      obtain ⟨hevents, hanswers⟩ := events_of_exec h ledger hwf tx
      refine ⟨wellFormed_exec hwf tx, ?_, ?_⟩
      · rw [List.flatMap_append, ← hlog]
        simp only [List.flatMap_cons, List.flatMap_nil, List.append_nil]
        exact hevents
      · intro e he hok
        rcases List.mem_append.1 he with hold | hnew
        · exact hall e hold hok
        · obtain rfl := List.mem_singleton.1 hnew
          obtain ⟨v, hv⟩ := hok
          exact hanswers ⟨v, Option.some.inj hv⟩

theorem logExact_run {admin : Address} {maxCalls windowSize : UInt32} {vk : VerifyingKey}
    {s : State Address} (hs : construct admin maxCalls windowSize vk = some s) (ledger : UInt32)
    (events : List (Event Address)) :
    LogExact h ((machine h).trace ⟨ledger, s⟩ events) ((machine h).run ⟨ledger, s⟩ events) := by
  refine (machine h).run_induction (P := LogExact h) ⟨wellFormed_construct hs, ?_, by simp⟩
    (fun tr w event hinv => logExact_step hinv event) events
  unfold construct at hs
  split at hs
  · cases hs
    rfl
  · cases hs

/-! ## Events against counters -/

/-- The event reports a success under an inputs hash. -/
def VerificationResult.reports (x : BytesN 32) (e : VerificationResult Address) : Bool :=
  e.success && decide (e.inputsHash = x)

omit [DecidableEq Address] in
theorem countP_reports_zipWith (caller : Address) (proofs : List ProofItem) (bs : List Bool)
    (x : BytesN 32) :
    (List.zipWith (itemEvent h caller) proofs bs).countP (VerificationResult.reports x)
      = ((answeredTrue proofs bs).map (ProofItem.inputsHash h)).count x := by
  induction proofs generalizing bs with
  | nil => rfl
  | cons item proofs ih =>
      cases bs with
      | nil => simp
      | cons b bs =>
          rw [List.zipWith_cons_cons, List.countP_cons, ih, answeredTrue_cons]
          cases b with
          | false => simp [VerificationResult.reports, itemEvent]
          | true =>
              by_cases hx : computeInputsHash h item.publicInputs = x <;>
                simp [VerificationResult.reports, itemEvent, ProofItem.inputsHash, hx]

omit [DecidableEq Address] in
theorem countP_reports_published (e : Step Address) (x : BytesN 32) :
    (published h e).countP (VerificationResult.reports x)
      = ((verifiedBy e).map (ProofItem.inputsHash h)).count x := by
  obtain ⟨w, event, outcome⟩ := e
  cases event with
  | advance target => simp [published, verifiedBy, Event.items]
  | tx tx =>
      cases htx : tx.call.submission with
      | none => simp [published, verifiedBy, Event.items, htx]
      | some sub =>
          simp only [published, verifiedBy, Event.items, htx, Option.map_some, Option.getD_some]
          exact countP_reports_zipWith ..

omit [DecidableEq Address] in
theorem countP_reports_trace (tr : List (Step Address)) (x : BytesN 32) :
    (tr.flatMap (published h)).countP (VerificationResult.reports x)
      = ((verifications h tr).map Prod.snd).count x := by
  induction tr with
  | nil => rfl
  | cons e tr ih =>
      rw [List.flatMap_cons, List.countP_append, ih, countP_reports_published]
      simp only [verifications, List.flatMap_cons, List.map_append, List.count_append,
        List.map_map]
      rfl

/-- **Counts, events and history agree.** After every run the verification count of an inputs hash
    is the number of events in the log that report a success under it. The log is what the calls of
    the run answered their items, in order, and a call that ended with a value answered each of its
    items. -/
theorem counts_eq_events (h : Host) (admin : Address) (maxCalls windowSize : UInt32)
    (vk : VerifyingKey) (s : State Address)
    (hs : construct admin maxCalls windowSize vk = some s) (ledger : UInt32)
    (events : List (Event Address)) :
    let tr := (machine h).trace ⟨ledger, s⟩ events
    let t := ((machine h).run ⟨ledger, s⟩ events).state
    (∀ x, (t.verificationCount x).toNat = t.events.countP (VerificationResult.reports x)) ∧
      t.events = tr.flatMap (published h) ∧
      ∀ e ∈ tr, (∃ v, e.outcome = some (.ok v)) →
        (answers e.outcome).length = e.input.items.length := by
  intro tr t
  obtain ⟨-, hexact, -⟩ : HistoryInv h tr ⟨_, t⟩ := historyInv_run hs ledger events
  obtain ⟨-, hlog, hall⟩ : LogExact h tr ⟨_, t⟩ := logExact_run hs ledger events
  refine ⟨fun x => ?_, hlog, hall⟩
  rw [hlog, countP_reports_trace, (hexact x).1]

/-- One item submitted twice. -/
theorem counts_eq_events_zeroRun :
    let t := ((machine Host.scalar).run ⟨50, zeroState 5 17280⟩
      (zeroRun [zeroItem 7 100, zeroItem 7 100])).state
    (t.verificationCount ((zeroItem 7 100).inputsHash Host.scalar)).toNat
      = t.events.countP (VerificationResult.reports ((zeroItem 7 100).inputsHash Host.scalar)) :=
  (counts_eq_events Host.scalar () 5 17280 (.zero 1) (zeroState 5 17280)
    (construct_zero (by decide)) 50 (zeroRun [zeroItem 7 100, zeroItem 7 100])).1 _

end ZkStellar.Verifier

import ZkStellar.Sdk.VerificationHistory
import ZkStellar.Verifier.Events
import ZkStellar.Verifier.RateLimit

set_option autoImplicit false

/-! # The audit trail

What `getVerificationHistory` reads off a node, against what the contract did. The node reports the
events that the contract's run committed, each with its ledger. A history that begins at a ledger is
the answers of the calls from this ledger on, newest first, and its successes under an inputs hash
are what the contract's verification count of that hash has grown by (`audit_trail`). -/

namespace ZkStellar.Sdk

open Verifier (Event Step VerificationResult World machine published)

variable {Address : Type} [DecidableEq Address]

/-! ## Events and entries -/

omit [DecidableEq Address] in
/-- The events a trace committed, each with its ledger. -/
def chainEvents (h : Host) (tr : List (Step Address)) :
    List (UInt32 × VerificationResult Address) :=
  tr.flatMap fun e => (published h e).map fun event => (e.pre.ledger, event)

/-- The node reports an event; `name` is the text of an address. -/
def Reports (sdk : StellarSdk) (rendering : Rendering) (name : Address → String)
    (p : UInt32 × VerificationResult Address) (event : EventResponse sdk.ScVal) : Prop :=
  event.ledger = p.1.toNat ∧ ∃ bodyNative callerRaw,
    sdk.scValToNative event.value = .ok bodyNative ∧
    bodyNative.property "success" = .ok (some (.boolean p.2.success)) ∧
    bodyNative.property "inputs_hash" = .ok (some (.bytes p.2.inputsHash.bytes)) ∧
    bodyNative.property "caller" = .ok (some callerRaw) ∧
    renderCaller rendering (some callerRaw) = .ok (some (name p.2.caller))

/-- The entry is about an event. -/
def VerificationHistoryEntry.About (entry : VerificationHistoryEntry) (name : Address → String)
    (p : UInt32 × VerificationResult Address) : Prop :=
  entry.success = p.2.success ∧ entry.inputsHash = hexText p.2.inputsHash.bytes ∧
    entry.caller = some (name p.2.caller) ∧ entry.ledger = p.1.toNat

/-- The entry is of a success under an inputs hash. -/
def VerificationHistoryEntry.verified (x : BytesN 32) (entry : VerificationHistoryEntry) : Bool :=
  entry.success && entry.inputsHash == hexText x.bytes

section

variable {sdk : StellarSdk} {rendering : Rendering} {name : Address → String}
  {p : UInt32 × VerificationResult Address}

omit [DecidableEq Address] in
/-- A reported event decodes to an entry about it. -/
theorem readEvent_of_reports {event : EventResponse sdk.ScVal}
    (hreports : Reports sdk rendering name p event) :
    ∃ entry, readEvent sdk rendering none event = .ok (some entry) ∧ entry.About name p := by
  obtain ⟨hledger, bodyNative, callerRaw, hbody, hsuccess, hinputsHash, hcaller, hrender⟩ :=
    hreports
  refine ⟨_, readEvent_none_eq_some_iff.2 ⟨bodyNative, _, _, _, _, hbody, hsuccess, hinputsHash,
    hcaller, hrender, rfl⟩, rfl, rfl, rfl, hledger⟩

theorem hexText_injective : Function.Injective hexText := by
  intro a b hab
  rw [← hexBytes_hexText a, hab, hexBytes_hexText b]

omit [DecidableEq Address] in
/-- An entry about an event is of a success exactly when the event reports it. -/
theorem verified_of_about {entry : VerificationHistoryEntry} (habout : entry.About name p)
    (x : BytesN 32) : entry.verified x = p.2.reports x := by
  obtain ⟨hsuccess, hinputsHash, -, -⟩ := habout
  rw [VerificationHistoryEntry.verified, VerificationResult.reports, hsuccess, hinputsHash]
  congr 1
  rw [Bool.beq_eq_decide_eq, decide_eq_decide]
  exact ⟨fun heq => BytesN.ext (hexText_injective heq), fun heq => by rw [heq]⟩

omit [DecidableEq Address] in
/-- Related lists have as many elements of related predicates. -/
theorem countP_of_forall₂ {α β : Type} {R : α → β → Prop} {q : α → Bool} {r : β → Bool}
    (hqr : ∀ a b, R a b → q a = r b) {l : List α} {l' : List β} (hl : List.Forall₂ R l l') :
    l.countP q = l'.countP r := by
  induction hl with
  | nil => rfl
  | cons hab _ ih => rw [List.countP_cons, List.countP_cons, ih, hqr _ _ hab]

end

/-! ## Ledgers of a run -/

section

variable {h : Host}

/-- The ledgers of a trace begin with the world's. -/
theorem ledger_le_of_mem_trace {w : World Address} {events : List (Event Address)}
    {e : Step Address} (he : e ∈ (machine h).trace w events) : w.ledger ≤ e.pre.ledger := by
  induction events generalizing w with
  | nil => cases he
  | cons event events ih =>
      rcases List.mem_cons.1 he with rfl | hlater
      · exact UInt32.le_refl _
      · refine UInt32.le_trans ?_ (ih hlater)
        cases event with
        | advance target => exact Verifier.le_ledger_max _ _
        | tx tx => exact UInt32.le_refl _

omit [DecidableEq Address] in
theorem chainEvents_append (tr tr' : List (Step Address)) :
    chainEvents h (tr ++ tr') = chainEvents h tr ++ chainEvents h tr' :=
  List.flatMap_append

omit [DecidableEq Address] in
theorem map_snd_chainEvents (tr : List (Step Address)) :
    (chainEvents h tr).map Prod.snd = tr.flatMap (published h) := by
  simp [chainEvents, List.map_flatMap, Function.comp_def]

omit [DecidableEq Address] in
/-- Each event has the ledger of a step. -/
theorem exists_of_mem_chainEvents {tr : List (Step Address)}
    {p : UInt32 × VerificationResult Address} (hp : p ∈ chainEvents h tr) :
    ∃ e ∈ tr, p.1 = e.pre.ledger := by
  obtain ⟨e, he, hevent⟩ := List.mem_flatMap.1 hp
  obtain ⟨event, -, rfl⟩ := List.mem_map.1 hevent
  exact ⟨e, he, rfl⟩

/-- Where a run has passed a ledger, the events from this ledger on are those of the later steps. -/
theorem filter_chainEvents {w : World Address} {earlier later : List (Event Address)}
    {startLedger : ℕ}
    (hbefore : ∀ e ∈ (machine h).trace w earlier, e.pre.ledger.toNat < startLedger)
    (hsince : startLedger ≤ ((machine h).run w earlier).ledger.toNat) :
    (chainEvents h ((machine h).trace w (earlier ++ later))).filter
        (fun p => decide (startLedger ≤ p.1.toNat))
      = chainEvents h ((machine h).trace ((machine h).run w earlier) later) := by
  rw [(machine h).trace_append, chainEvents_append, List.filter_append]
  have hnone : (chainEvents h ((machine h).trace w earlier)).filter
      (fun p => decide (startLedger ≤ p.1.toNat)) = [] := by
    refine List.filter_eq_nil_iff.2 fun p hp => ?_
    obtain ⟨e, he, hledger⟩ := exists_of_mem_chainEvents hp
    rw [hledger, decide_eq_true_eq, not_le]
    exact hbefore e he
  have hall : (chainEvents h ((machine h).trace ((machine h).run w earlier) later)).filter
      (fun p => decide (startLedger ≤ p.1.toNat))
        = chainEvents h ((machine h).trace ((machine h).run w earlier) later) := by
    refine List.filter_eq_self.2 fun p hp => ?_
    obtain ⟨e, he, hledger⟩ := exists_of_mem_chainEvents hp
    rw [hledger, decide_eq_true_eq]
    exact hsince.trans (UInt32.le_iff_toNat_le.1 (ledger_le_of_mem_trace he))
  rw [hnone, hall, List.nil_append]

/-- The verification count of an inputs hash grows by the successes that the later steps report. -/
theorem verificationCount_of_append {admin : Address} {maxCalls windowSize : UInt32}
    {vk : VerifyingKey} {s : Verifier.State Address}
    (hs : Verifier.construct admin maxCalls windowSize vk = some s) (ledger : UInt32)
    (earlier later : List (Event Address)) (x : BytesN 32) :
    let w := (machine h).run ⟨ledger, s⟩ earlier
    (((machine h).run w later).state.verificationCount x).toNat
      = (w.state.verificationCount x).toNat
        + (chainEvents h ((machine h).trace w later)).countP fun p => p.2.reports x := by
  intro w
  obtain ⟨-, hearlier, -⟩ := Verifier.historyInv_run (h := h) hs ledger earlier
  obtain ⟨-, hall, -⟩ := Verifier.historyInv_run (h := h) hs ledger (earlier ++ later)
  rw [(machine h).run_append, (machine h).trace_append] at hall
  have hlater : (chainEvents h ((machine h).trace w later)).countP (fun p => p.2.reports x)
      = (((machine h).trace w later).flatMap (published h)).countP
          (VerificationResult.reports x) := by
    rw [← map_snd_chainEvents, List.countP_map]
    rfl
  rw [(hall x).1, (hearlier x).1, hlater, ← Verifier.countP_reports_trace,
    ← Verifier.countP_reports_trace, List.flatMap_append, List.countP_append]

end

/-! ## The trail -/

section

variable {sdk : StellarSdk} {rendering : Rendering} {name : Address → String} {h : Host}

omit [DecidableEq Address] in
/-- A log that reports events decodes to entries about them. -/
theorem exists_entry_of_reports {events : List (UInt32 × VerificationResult Address)}
    {log : List (EventResponse sdk.ScVal)}
    (hlog : List.Forall₂ (Reports sdk rendering name) events log) :
    ∃ entry : EventResponse sdk.ScVal → VerificationHistoryEntry,
      DecodesTo sdk rendering log entry ∧
        List.Forall₂ (fun p event => event.ledger = p.1.toNat ∧ (entry event).About name p)
          events log := by
  let entry (event : EventResponse sdk.ScVal) : VerificationHistoryEntry :=
    (readEvent sdk rendering none event).toOption.join.getD ⟨false, "", none, 0, .nan, ""⟩
  have hread : ∀ p event, Reports sdk rendering name p event →
      readEvent sdk rendering none event = .ok (some (entry event)) ∧
        (entry event).About name p := by
    intro p event hreports
    obtain ⟨e, he, habout⟩ := readEvent_of_reports hreports
    have hentry : entry event = e := by
      simp only [entry, he]
      rfl
    rw [hentry]
    exact ⟨he, habout⟩
  refine ⟨entry, fun event hmem => ?_, hlog.imp fun p event hreports =>
    ⟨hreports.1, (hread p event hreports).2⟩⟩
  obtain ⟨i, hi, rfl⟩ := List.getElem_of_mem hmem
  exact (hread _ _ (hlog.get (by rw [hlog.length_eq]; exact hi) hi)).1

/-- **The audit trail.** Take any run of the verifier from its construction, in two parts such that
    the first is over before a ledger and the second has nothing earlier, and a node that reports
    the events of the run. The history from this ledger on is about the events of the second part,
    newest first, as far as the limit reaches and the filter lets them pass. Its successes under an
    inputs hash are no more than the contract's verification count has grown by in the second part,
    and as many if the limit reaches to the end and the filter lets successes pass. -/
theorem audit_trail {admin : Address} {maxCalls windowSize : UInt32} {vk : VerifyingKey}
    {s : Verifier.State Address}
    (hs : Verifier.construct admin maxCalls windowSize vk = some s) (ledger : UInt32)
    (earlier later : List (Event Address)) {startLedger : ℕ}
    (hbefore : ∀ e ∈ (machine h).trace ⟨ledger, s⟩ earlier, e.pre.ledger.toNat < startLedger)
    (hsince : startLedger ≤ ((machine h).run ⟨ledger, s⟩ earlier).ledger.toNat)
    {log : List (EventResponse sdk.ScVal)}
    (hlog : List.Forall₂ (Reports sdk rendering name)
      (chainEvents h ((machine h).trace ⟨ledger, s⟩ (earlier ++ later))) log)
    {getEvents : ℕ → ℕ → Except String (List (EventResponse sdk.ScVal))}
    (hnode : AnswersFrom log getEvents) (limit : ℕ) (successFilter : Option Bool) :
    let w := (machine h).run ⟨ledger, s⟩ earlier
    let w' := (machine h).run w later
    let recent := chainEvents h ((machine h).trace w later)
    ∃ history, getVerificationHistory sdk rendering getEvents
        ⟨some startLedger, some limit, successFilter⟩ = .ok history ∧
      List.Forall₂ (fun p entry => entry.About name p)
        ((recent.take limit).filter fun p => successFilter.all (p.2.success == ·)).reverse
        history ∧
      ∀ x, (w.state.verificationCount x).toNat + history.countP (·.verified x)
          ≤ (w'.state.verificationCount x).toNat ∧
        (recent.length ≤ limit → successFilter ≠ some false →
          (w.state.verificationCount x).toNat + history.countP (·.verified x)
            = (w'.state.verificationCount x).toNat) := by
  intro w w' recent
  obtain ⟨entry, hdecode, hentries⟩ := exists_entry_of_reports hlog
  refine ⟨_, getVerificationHistory_eq hdecode hnode _, ?_⟩
  -- the node's page is about the later events
  have hpage : List.Forall₂ (fun p event => (entry event).About name p) (recent.take limit)
      ((eventsFrom startLedger log).take limit) := by
    have hfrom := List.rel_filter (p := fun p => decide (startLedger ≤ p.1.toNat))
      (q := fun event => decide (startLedger ≤ event.ledger))
      (fun p event hp => by simp only [hp.1]) hentries
    rw [filter_chainEvents hbefore hsince] at hfrom
    exact List.forall₂_take limit (hfrom.imp fun p event hp => hp.2)
  have hmatching : List.Forall₂ (fun p event => (entry event).About name p)
      ((recent.take limit).filter fun p => successFilter.all (p.2.success == ·))
      (((eventsFrom startLedger log).take limit).filter
        fun event => (entry event).Matches successFilter) := by
    refine List.rel_filter (fun p event habout => ?_) hpage
    simp only [VerificationHistoryEntry.Matches, habout.1]
  have hhistory : List.Forall₂ (fun p entry => entry.About name p)
      ((recent.take limit).filter fun p => successFilter.all (p.2.success == ·))
      ((((eventsFrom startLedger log).take limit).filter
        fun event => (entry event).Matches successFilter).map entry) :=
    List.forall₂_map_right_iff.2 hmatching
  refine ⟨List.rel_reverse hhistory, fun x => ?_⟩
  have hgrown := verificationCount_of_append (h := h) hs ledger earlier later x
  have hcount := countP_of_forall₂ (r := fun entry => entry.verified x)
    (fun p entry habout => (verified_of_about habout x).symm) hhistory
  simp only [List.countP_reverse, Option.getD_some] at hgrown ⊢
  rw [hgrown, ← hcount, Nat.add_le_add_iff_left, Nat.add_right_inj]
  refine ⟨((List.filter_sublist).trans (List.take_sublist _ _)).countP_le, ?_⟩
  intro hlimit hfilter
  rw [List.take_of_length_le hlimit, List.countP_filter]
  -- a success passes the filter
  refine List.countP_congr fun p _ => ?_
  have hpass : p.2.success = true → successFilter.all (p.2.success == ·) = true := by
    intro hsuccess
    rw [hsuccess]
    rcases successFilter with _ | _ | _
    · rfl
    · exact absurd rfl hfilter
    · rfl
  rw [Bool.and_eq_true, and_iff_left_iff_imp]
  intro hreports
  exact hpass (Bool.and_eq_true_iff.1 hreports).1

end

/-- How a node reports an event of the address that is called `G`. -/
def reportOf (p : UInt32 × VerificationResult Unit) : EventResponse Native where
  value := .object [("caller", .string "G"), ("inputs_hash", .bytes p.2.inputsHash.bytes),
    ("success", .boolean p.2.success)]
  ledger := p.1.toNat
  ledgerClosedAt := "1970-01-01T00:00:00Z"
  txHash := "hash"

theorem reports_reportOf (p : UInt32 × VerificationResult Unit) :
    Reports StellarSdk.decoded Rendering.sample (fun _ => "G") p (reportOf p) :=
  ⟨rfl, _, _, rfl, rfl, rfl, rfl, rfl⟩

/-- An item submitted at ledger 50 and again at ledger 51, from where on the history is read. -/
theorem audit_trail_zeroRun :
    let w := (machine Host.scalar).run ⟨50, Verifier.zeroState 5 17280⟩
      (Verifier.zeroRun [Verifier.zeroItem 7 100] ++ [.advance 51])
    let w' := (machine Host.scalar).run w (Verifier.zeroRun [Verifier.zeroItem 7 100])
    let log := (chainEvents Host.scalar ((machine Host.scalar).trace
      ⟨50, Verifier.zeroState 5 17280⟩
      ((Verifier.zeroRun [Verifier.zeroItem 7 100] ++ [.advance 51])
        ++ Verifier.zeroRun [Verifier.zeroItem 7 100]))).map reportOf
    ∃ history, getVerificationHistory StellarSdk.decoded Rendering.sample
        (fun startLedger limit => .ok ((eventsFrom startLedger log).take limit))
        ⟨some 51, some 100, some true⟩ = .ok history ∧
      ∀ x, (w.state.verificationCount x).toNat + history.countP (·.verified x)
        = (w'.state.verificationCount x).toNat := by
  intro w w' log
  have hs : Verifier.construct () 5 17280 (.zero 1) = some (Verifier.zeroState 5 17280) :=
    Verifier.construct_zero (by decide)
  have hbefore : ∀ e ∈ (machine Host.scalar).trace ⟨50, Verifier.zeroState 5 17280⟩
      (Verifier.zeroRun [Verifier.zeroItem 7 100] ++ [.advance 51]), e.pre.ledger.toNat < 51 := by
    decide +kernel
  have hsince : 51 ≤ ((machine Host.scalar).run ⟨50, Verifier.zeroState 5 17280⟩
      (Verifier.zeroRun [Verifier.zeroItem 7 100] ++ [.advance 51])).ledger.toNat := by
    decide +kernel
  have hlog : List.Forall₂ (Reports StellarSdk.decoded Rendering.sample fun _ => "G")
      (chainEvents Host.scalar ((machine Host.scalar).trace ⟨50, Verifier.zeroState 5 17280⟩
        ((Verifier.zeroRun [Verifier.zeroItem 7 100] ++ [.advance 51])
          ++ Verifier.zeroRun [Verifier.zeroItem 7 100]))) log :=
    List.forall₂_map_right_iff.2 (List.forall₂_same.2 fun p _ => reports_reportOf p)
  obtain ⟨history, hhistory, -, hcounts⟩ := @audit_trail Unit _ StellarSdk.decoded
    Rendering.sample (fun _ => "G") Host.scalar () 5 17280 (.zero 1) _ hs 50 _ _ 51 hbefore hsince
    log hlog _ (fun _ _ => rfl) 100 (some true)
  exact ⟨history, hhistory, fun x => (hcounts x).2 (by decide +kernel) (by decide)⟩

end ZkStellar.Sdk

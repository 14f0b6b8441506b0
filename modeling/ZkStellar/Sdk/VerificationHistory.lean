import ZkStellar.Sdk.Nullifier
import ZkStellar.Sdk.Rpc

set_option autoImplicit false

/-! # The verification history

`getVerificationHistory` asks the node for one page of events and filters that page by `success`, so
the limit bounds what is looked through and not what is found. Events that match beyond the page are
never seen: the history is complete up to its limit exactly when the range has fewer matching events
than the limit, or the whole first page matches (`history_complete_iff`). -/

namespace ZkStellar.Sdk

/-! ## The function -/

/-- `VerificationHistoryEntry`. -/
structure VerificationHistoryEntry where
  success : Bool
  inputsHash : String
  caller : Option String
  ledger : ℕ
  ledgerClosedAt : JsNumber
  txHash : String
deriving DecidableEq

/-- `rpc.Api.EventResponse`, its fields that are read. -/
structure EventResponse (ScVal : Type) where
  value : ScVal
  ledger : ℕ
  ledgerClosedAt : String
  txHash : String

/-- How the language renders two of the fields. -/
structure Rendering where
  /-- `String(v)`. -/
  string : Native → Except String String
  /-- `Math.floor(new Date(s).getTime() / 1000)`. -/
  unixSeconds : String → JsNumber

/-- `v[name]`: `null` has no properties, and a property that is missing is `undefined`. -/
def Native.property (v : Native) (name : String) : Except String (Option Native) :=
  match v with
  | .null => .error ("Cannot read properties of null (reading '" ++ name ++ "')")
  | .object entries => .ok ((entries.find? fun p => p.1 == name).map Prod.snd)
  | _ => .ok none

/-- `inputsHash`, from the property of that name. -/
def renderInputsHash : Option Native → String
  | some (.bytes bs) => hexText bs
  | some (.string s) => s
  | _ => ""

section

variable (sdk : StellarSdk) (rendering : Rendering)

/-- `caller`, from the property of that name. -/
def renderCaller : Option Native → Except String (Option String)
  | none | some .null => return none
  | some callerRaw => do
      let caller ← rendering.string callerRaw
      return some caller

/-- The body of the loop: the entry of an event, or none if the filter skips it. -/
def readEvent (successFilter : Option Bool) (event : EventResponse sdk.ScVal) :
    Except String (Option VerificationHistoryEntry) := do
  let bodyNative ← sdk.scValToNative event.value
  let success := ((← bodyNative.property "success").map Native.truthy).getD false
  if successFilter.any (success != ·) then
    return none
  else
    let inputsHash := renderInputsHash (← bodyNative.property "inputs_hash")
    let caller ← renderCaller rendering (← bodyNative.property "caller")
    return some ⟨success, inputsHash, caller, event.ledger,
      rendering.unixSeconds event.ledgerClosedAt, event.txHash⟩

/-- The loop: what an event's body throws is caught there, and the event skipped. -/
def readEvents (successFilter : Option Bool) (events : List (EventResponse sdk.ScVal)) :
    List VerificationHistoryEntry :=
  events.filterMap fun event => (readEvent sdk rendering successFilter event).toOption.join

/-- `GetVerificationHistoryOptions`, without the node and the contract's address. -/
structure GetVerificationHistoryOptions where
  startLedger : Option ℕ
  limit : Option ℕ
  successFilter : Option Bool

/-- `getVerificationHistory`. The node's answer depends on `startLedger` and `limit`. -/
def getVerificationHistory (getEvents : ℕ → ℕ → Except String (List (EventResponse sdk.ScVal)))
    (opts : GetVerificationHistoryOptions) :
    Except SorobanZkError (List VerificationHistoryEntry) :=
  let limit := opts.limit.getD 100
  let startLedger := opts.startLedger.getD 0
  tryCatch do
    let events ← libraryCall (getEvents startLedger limit)
    return (readEvents sdk rendering opts.successFilter events).reverse

end

/-! ## What the filter skips -/

section Events

variable {sdk : StellarSdk} {rendering : Rendering}

/-- The success of an entry is what the filter asks for. -/
def VerificationHistoryEntry.Matches (entry : VerificationHistoryEntry)
    (successFilter : Option Bool) : Bool :=
  successFilter.all (entry.success == ·)

/-- What an event decodes to without a filter. -/
theorem readEvent_none_eq_some_iff {event : EventResponse sdk.ScVal}
    {entry : VerificationHistoryEntry} :
    readEvent sdk rendering none event = .ok (some entry) ↔
      ∃ bodyNative successRaw inputsHashRaw callerRaw caller,
        sdk.scValToNative event.value = .ok bodyNative ∧
        bodyNative.property "success" = .ok successRaw ∧
        bodyNative.property "inputs_hash" = .ok inputsHashRaw ∧
        bodyNative.property "caller" = .ok callerRaw ∧
        renderCaller rendering callerRaw = .ok caller ∧
        entry = ⟨(successRaw.map Native.truthy).getD false, renderInputsHash inputsHashRaw, caller,
          event.ledger, rendering.unixSeconds event.ledgerClosedAt, event.txHash⟩ := by
  simp only [readEvent, Option.any_none, Bool.false_eq_true, if_false, bind_eq_ok_iff, pure,
    Except.pure, Except.ok.injEq, Option.some.injEq]
  constructor
  · intro hread
    obtain ⟨bodyNative, hbody, successRaw, hsuccess, inputsHashRaw, hinputsHash, callerRaw, hcaller,
      caller, hrender, hentry⟩ := hread
    exact ⟨bodyNative, successRaw, inputsHashRaw, callerRaw, caller, hbody, hsuccess, hinputsHash,
      hcaller, hrender, hentry.symm⟩
  · intro hdecodes
    obtain ⟨bodyNative, successRaw, inputsHashRaw, callerRaw, caller, hbody, hsuccess, hinputsHash,
      hcaller, hrender, hentry⟩ := hdecodes
    exact ⟨bodyNative, hbody, successRaw, hsuccess, inputsHashRaw, hinputsHash, callerRaw, hcaller,
      caller, hrender, hentry.symm⟩

/-- A filter skips the events whose entries do not match it and changes nothing about the others. -/
theorem readEvent_of_decodes {event : EventResponse sdk.ScVal} {entry : VerificationHistoryEntry}
    (hdecodes : readEvent sdk rendering none event = .ok (some entry))
    (successFilter : Option Bool) :
    readEvent sdk rendering successFilter event
      = .ok (if entry.Matches successFilter then some entry else none) := by
  obtain ⟨bodyNative, successRaw, inputsHashRaw, callerRaw, caller, hbody, hsuccess, hinputsHash,
    hcaller, hrender, rfl⟩ := readEvent_none_eq_some_iff.1 hdecodes
  simp only [readEvent, hbody, hsuccess, hinputsHash, hcaller, hrender, bind, Except.bind, pure,
    Except.pure]
  cases successFilter with
  | none => rfl
  | some wanted =>
      cases hmatch : (successRaw.map Native.truthy).getD false == wanted <;>
        simp [VerificationHistoryEntry.Matches, bne, hmatch]

/-- The loop keeps the events whose entries match. -/
theorem readEvents_of_decodes {entry : EventResponse sdk.ScVal → VerificationHistoryEntry}
    {events : List (EventResponse sdk.ScVal)}
    (hdecode : ∀ event ∈ events, readEvent sdk rendering none event = .ok (some (entry event)))
    (successFilter : Option Bool) :
    readEvents sdk rendering successFilter events
      = (events.filter fun event => (entry event).Matches successFilter).map entry := by
  unfold readEvents
  induction events with
  | nil => rfl
  | cons event events ih =>
      obtain ⟨hevent, hevents⟩ := List.forall_mem_cons.1 hdecode
      rw [List.filterMap_cons, readEvent_of_decodes hevent, ih hevents, List.filter_cons]
      split_ifs with hmatch <;> rfl

end Events

/-! ## Pages -/

/-- What passes a filter on the first page of a list is no shorter than the page, if as much passes
    it in the whole list, exactly when the list has less of it or the whole page passes. -/
theorem length_filter_take_iff {α : Type} (p : α → Bool) (l : List α) (n : ℕ) :
    (((l.take n).filter p).length < n → (l.filter p).length < n) ↔
      (l.filter p).length < n ∨ ∀ a ∈ l.take n, p a = true := by
  constructor
  · intro hcomplete
    by_cases hfew : (l.filter p).length < n
    · exact .inl hfew
    · have hfull : n ≤ ((l.take n).filter p).length := not_lt.1 fun hlt => hfew (hcomplete hlt)
      have hall : ((l.take n).filter p).length = (l.take n).length :=
        le_antisymm (List.length_filter_le _ _) (le_trans (List.length_take_le _ _) hfull)
      exact .inr (List.length_filter_eq_length_iff.1 hall)
  · intro hcondition hshort
    rcases hcondition with hfew | hpage
    · exact hfew
    · rw [List.filter_eq_self.2 hpage, List.length_take] at hshort
      have hlength : l.length < n := by omega
      exact lt_of_le_of_lt (List.length_filter_le _ _) hlength

section Complete

/-- The events of a log from a ledger on. -/
def eventsFrom {ScVal : Type} (startLedger : ℕ) (log : List (EventResponse ScVal)) :
    List (EventResponse ScVal) :=
  log.filter fun event => startLedger ≤ event.ledger

/-- The events of the range that options ask for whose entries match. The log is in the order of
    the chain. -/
def matchingEvents {ScVal : Type} (opts : GetVerificationHistoryOptions)
    (log : List (EventResponse ScVal)) (entry : EventResponse ScVal → VerificationHistoryEntry) :
    List (EventResponse ScVal) :=
  (eventsFrom (opts.startLedger.getD 0) log).filter fun event =>
    (entry event).Matches opts.successFilter

/-- The history is complete up to the limit: newest first, and each at most once, the entries of
    matching events, at most as many as the limit, and fewer only if there are fewer. -/
def CompleteUpTo {ScVal : Type} (opts : GetVerificationHistoryOptions)
    (log : List (EventResponse ScVal)) (entry : EventResponse ScVal → VerificationHistoryEntry)
    (result : Except SorobanZkError (List VerificationHistoryEntry)) : Prop :=
  ∃ kept : List (EventResponse ScVal), result = .ok (kept.map entry).reverse ∧
    kept.Sublist (matchingEvents opts log entry) ∧ kept.length ≤ opts.limit.getD 100 ∧
    (kept.length < opts.limit.getD 100 →
      (matchingEvents opts log entry).length < opts.limit.getD 100)

/-- The node answers with the first events of the range. -/
def AnswersFrom {ScVal : Type} (log : List (EventResponse ScVal))
    (getEvents : ℕ → ℕ → Except String (List (EventResponse ScVal))) : Prop :=
  ∀ startLedger limit, getEvents startLedger limit = .ok ((eventsFrom startLedger log).take limit)

/-- All events of the log decode, each to its entry. -/
def DecodesTo (sdk : StellarSdk) (rendering : Rendering) (log : List (EventResponse sdk.ScVal))
    (entry : EventResponse sdk.ScVal → VerificationHistoryEntry) : Prop :=
  ∀ event ∈ log, readEvent sdk rendering none event = .ok (some (entry event))

section

variable {sdk : StellarSdk} {rendering : Rendering} {log : List (EventResponse sdk.ScVal)}
  {entry : EventResponse sdk.ScVal → VerificationHistoryEntry}
  {getEvents : ℕ → ℕ → Except String (List (EventResponse sdk.ScVal))}

/-- The history is what matches on the first page. -/
theorem getVerificationHistory_eq (hdecode : DecodesTo sdk rendering log entry)
    (hnode : AnswersFrom log getEvents) (opts : GetVerificationHistoryOptions) :
    getVerificationHistory sdk rendering getEvents opts
      = .ok ((((eventsFrom (opts.startLedger.getD 0) log).take (opts.limit.getD 100)).filter
          fun event => (entry event).Matches opts.successFilter).map entry).reverse := by
  have hpage : ∀ event ∈ (eventsFrom (opts.startLedger.getD 0) log).take (opts.limit.getD 100),
      readEvent sdk rendering none event = .ok (some (entry event)) := by
    intro event hmem
    exact hdecode event (List.mem_of_mem_filter (List.mem_of_mem_take hmem))
  simp only [getVerificationHistory, hnode _ _]
  rw [← readEvents_of_decodes hpage]
  rfl

end

/-- The history is complete up to the limit exactly when the range has fewer matching events than
    the limit, or all events of the first page match. -/
theorem history_complete_iff (sdk : StellarSdk) (rendering : Rendering)
    (log : List (EventResponse sdk.ScVal))
    (entry : EventResponse sdk.ScVal → VerificationHistoryEntry)
    (hdecode : DecodesTo sdk rendering log entry)
    (getEvents : ℕ → ℕ → Except String (List (EventResponse sdk.ScVal)))
    (hnode : AnswersFrom log getEvents) (opts : GetVerificationHistoryOptions) :
    CompleteUpTo opts log entry (getVerificationHistory sdk rendering getEvents opts) ↔
      (matchingEvents opts log entry).length < opts.limit.getD 100 ∨
        ∀ event ∈ (eventsFrom (opts.startLedger.getD 0) log).take (opts.limit.getD 100),
          (entry event).Matches opts.successFilter = true := by
  rw [getVerificationHistory_eq hdecode hnode, matchingEvents, ← length_filter_take_iff]
  constructor
  · intro hcomplete
    obtain ⟨kept, hkept, -, -, hfewer⟩ := hcomplete
    have hlength := congrArg List.length (Except.ok.inj hkept)
    simp only [List.length_reverse, List.length_map] at hlength
    rw [hlength]
    exact hfewer
  · intro hfewer
    refine ⟨_, rfl, (List.take_sublist _ _).filter _, ?_, hfewer⟩
    exact le_trans (List.length_filter_le _ _) (List.length_take_le _ _)

end Complete

/-! ## A log of two calls -/

/-- A library whose values are decoded already. -/
def StellarSdk.decoded : StellarSdk where
  ScVal := Native
  scValToNative := .ok
  diagnosticEvent _ := .error "XDR Read Error"
  feeCharged _ := .error "XDR Read Error"

def Rendering.sample : Rendering where
  string v := if v.isString "G" then .ok "G" else .error "Cannot convert object to primitive value"
  unixSeconds s := if s = "1970-01-01T00:00:00Z" then .ofNat 0 else .nan

/-- The event of a call. -/
def sampleVerification (ledger : ℕ) (success : Bool) : EventResponse Native where
  value := .object [("success", .boolean success), ("inputs_hash", .bytes (toBe 32 7)),
    ("caller", .string "G")]
  ledger := ledger
  ledgerClosedAt := "1970-01-01T00:00:00Z"
  txHash := "hash"

/-- The entry of such an event. -/
def sampleEntry (event : EventResponse Native) : VerificationHistoryEntry where
  success := match event.value.property "success" with
    | .ok (some v) => v.truthy
    | _ => false
  inputsHash := hexText (toBe 32 7)
  caller := some "G"
  ledger := event.ledger
  ledgerClosedAt := .ofNat 0
  txHash := "hash"

/-- A call that fails, and one that succeeds in the next ledger. -/
def sampleLog : List (EventResponse Native) :=
  [sampleVerification 10 false, sampleVerification 11 true]

/-- A node that answers with the first events of the range. -/
def sampleEvents (startLedger limit : ℕ) : Except String (List (EventResponse Native)) :=
  .ok ((eventsFrom startLedger sampleLog).take limit)

theorem decodesTo_sampleLog :
    DecodesTo StellarSdk.decoded Rendering.sample sampleLog sampleEntry := by
  refine List.forall_mem_cons.2 ⟨rfl, List.forall_mem_cons.2 ⟨rfl, ?_⟩⟩
  exact List.forall_mem_nil _

/-- With a limit of two the history has the success. -/
theorem history_complete_sample :
    CompleteUpTo ⟨none, some 2, some true⟩ sampleLog sampleEntry
      (getVerificationHistory StellarSdk.decoded Rendering.sample sampleEvents
        ⟨none, some 2, some true⟩) :=
  (history_complete_iff StellarSdk.decoded Rendering.sample sampleLog sampleEntry
    decodesTo_sampleLog sampleEvents (fun _ _ => rfl) ⟨none, some 2, some true⟩).2
    (.inl (by decide +kernel))

/-- With a limit of one the page is used up by the failure, and the success is missed. -/
theorem failure_uses_up_page :
    let opts : GetVerificationHistoryOptions := ⟨none, some 1, some true⟩
    let history := getVerificationHistory StellarSdk.decoded Rendering.sample sampleEvents opts
    DecodesTo StellarSdk.decoded Rendering.sample sampleLog sampleEntry ∧
      AnswersFrom sampleLog sampleEvents ∧
      history = .ok [] ∧
      (matchingEvents opts sampleLog sampleEntry).length = 1 ∧
      ¬ CompleteUpTo opts sampleLog sampleEntry history := by
  have hempty : getVerificationHistory StellarSdk.decoded Rendering.sample sampleEvents
      ⟨none, some 1, some true⟩ = .ok [] := by decide +kernel
  refine ⟨decodesTo_sampleLog, fun _ _ => rfl, hempty, by decide +kernel, ?_⟩
  intro hcomplete
  obtain ⟨kept, hkept, -, -, hfewer⟩ := hcomplete
  have hlength := congrArg List.length (Except.ok.inj (hempty.symm.trans hkept))
  rw [List.length_reverse, List.length_map, List.length_nil] at hlength
  have hfew := hfewer (lt_of_eq_of_lt hlength.symm Nat.one_pos)
  exact absurd hfew (by decide +kernel)

end ZkStellar.Sdk

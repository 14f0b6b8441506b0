import ZkStellar.Sdk.Expiry
import ZkStellar.Sdk.Looks
import ZkStellar.Sdk.Rpc
import ZkStellar.Verifier.Events

set_option autoImplicit false

/-! # The results of a batch on the chain

`verifyBatchOnChain` submits `verify_batch` and reads the flags off the diagnostic events of the
transaction's record, the first `fn_return` event among them. A record need not have any; then
`verifyOnChain` throws, but the batch reports an empty list as its results. The call is right
exactly when no item breaks the checks and, if the items pass them, a record that can be read at
all carries the contract's flags in that event (`batch_results_line_up_iff`). -/

namespace ZkStellar.Sdk

open Verifier (ProofItem World)

/-! ## The function -/

/-- `VerifierBatchItem`. -/
structure VerifierBatchItem where
  proof : JsValue
  publicSignals : JsValue
  expiryLedger : Option JsNumber

/-- `VerifyBatchResult`. -/
structure VerifyBatchResult where
  verified : List Bool
  txHash : String
  ledger : ℕ
  fee : String
deriving DecidableEq

/-- `rpc.Api.GetTransactionStatus`. -/
inductive TransactionStatus where
  | success
  | notFound
  | failed
deriving DecidableEq

/-- The node's record of a transaction. -/
structure TransactionRecord where
  status : TransactionStatus
  txHash : String
  ledger : Option ℕ
  resultXdr : Option String
  diagnosticEventsXdr : Option (List String)

/-- What the node answers to one call, or the message the library throws with instead. -/
structure Node where
  /-- All that comes before the submission: network, account, simulation. -/
  prepare : Except String Unit
  /-- The status of the submission. -/
  send : Except String String
  /-- The records it returns before the time is up. -/
  polls : List (Except String TransactionRecord)

/-- What the contract is called with: the checks on the items and their calldata. -/
def batchCalldata (items : List VerifierBatchItem) :
    Except JsException (List SorobanProofCalldata) := do
  throwIf items.isEmpty
    (.zk (.general "verifyBatchOnChain requires at least one item" .invalidProofFormat))
  let calldataItems ← items.mapM fun item =>
    formatProof item.proof item.publicSignals item.expiryLedger
  forEachFrom (fun _ calldata => validateCalldata calldata) 0 calldataItems
  return calldataItems

/-- The items the contract decodes from calldata. None is lost (`map_makeProofItem`). -/
def submittedItems (calldata : List SorobanProofCalldata) : List ProofItem :=
  calldata.filterMap makeProofItem

section

variable (sdk : StellarSdk)

/-- The value a `fn_return` event carries; other events have none. -/
def fnReturn (event : DiagnosticEvent sdk.ScVal) : Except Thrown (Option Native) :=
  match event.topics with
  | topic :: _ :: _ => do
      let marker ← libraryCall (sdk.scValToNative topic)
      if marker.isString "fn_return" then
        let native ← libraryCall (sdk.scValToNative event.data)
        return some native
      else return none
  | _ => return none

/-- `Array.isArray(native) ? native.map(Boolean) : undefined`. -/
def Native.booleans : Native → Option (List Bool)
  | .array elems => some (elems.map truthy)
  | _ => none

/-- The loop of `decodeBoolArrayFromDiagnostics`. -/
def scanEvents : List String → Except Thrown (Option (List Bool))
  | [] => return none
  | encoded :: rest => do
      let event ← libraryCall (sdk.diagnosticEvent encoded)
      match ← fnReturn sdk event with
      | some native => return native.booleans
      | none => scanEvents rest

/-- `decodeBoolArrayFromDiagnostics`. -/
def decodeBoolArrayFromDiagnostics (diagnosticEventsXdr : Option (List String)) :
    Except Thrown (Option (List Bool)) :=
  match diagnosticEventsXdr with
  | none => return none
  | some events => scanEvents sdk events

/-- What `verifyBatchOnChain` makes of the record of a successful transaction. -/
def readBatchResult (result : TransactionRecord) : Except Thrown VerifyBatchResult := do
  let returnValue ← decodeBoolArrayFromDiagnostics sdk result.diagnosticEventsXdr
  match result.ledger, result.resultXdr.filter (· != "") with
  | some ledger, some resultXdr =>
      let fee ← libraryCall (sdk.feeCharged resultXdr)
      return ⟨returnValue.getD [], result.txHash, ledger, fee⟩
  | _, _ => .error (.zk (.general ("Transaction " ++ result.txHash
      ++ " did not include the expected success payload") .contractInvocationFailed))

/-- The loop that waits for a transaction's record. -/
def awaitTransaction {α : Type} (read : TransactionRecord → Except Thrown α) :
    List (Except String TransactionRecord) → Except Thrown α
  | [] => .error (.zk (.general "Timed out waiting for transaction confirmation" .networkError))
  | .error message :: _ => .error (.other message)
  | .ok result :: polls =>
      match result.status with
      | .notFound => awaitTransaction read polls
      | .failed => .error (.zk (.general ("Transaction " ++ result.txHash ++ " failed on ledger "
          ++ (result.ledger.map toString).getD "undefined") .transactionRejected))
      | .success => read result

/-- `verifyBatchOnChain`. -/
def verifyBatchOnChain (node : Node) (items : List VerifierBatchItem) :
    Except JsException VerifyBatchResult := do
  let _ ← batchCalldata items
  liftZk <| tryCatch do
    libraryCall node.prepare
    let status ← libraryCall node.send
    if status != "PENDING" && status != "DUPLICATE" then
      .error (.zk (.general ("Transaction submission failed with status " ++ status)
        .transactionRejected))
    awaitTransaction (readBatchResult sdk) node.polls

end

/-! ## Reading the events -/

section Events

variable {sdk : StellarSdk}

/-- The event is no return of a call: it has too few topics or another first one. -/
def Skipped (sdk : StellarSdk) (encoded : String) : Prop :=
  ∃ event, sdk.diagnosticEvent encoded = .ok event ∧
    ∀ topic second rest, event.topics = topic :: second :: rest →
      ∃ marker, sdk.scValToNative topic = .ok marker ∧ marker.isString "fn_return" = false

/-- The event is the return of a call with a value. -/
def Returned (sdk : StellarSdk) (encoded : String) (native : Native) : Prop :=
  ∃ event topic second rest, sdk.diagnosticEvent encoded = .ok event ∧
    event.topics = topic :: second :: rest ∧
    sdk.scValToNative topic = .ok (.string "fn_return") ∧ sdk.scValToNative event.data = .ok native

/-- The first return of a call among some events has a value. -/
def FirstReturn (sdk : StellarSdk) (events : List String) (native : Native) : Prop :=
  ∃ pre encoded post, events = pre ++ encoded :: post ∧ (∀ e ∈ pre, Skipped sdk e) ∧
    Returned sdk encoded native

theorem isString_iff {v : Native} {s : String} : v.isString s = true ↔ v = .string s := by
  cases v <;> simp [Native.isString]

theorem fnReturn_eq_none_iff {event : DiagnosticEvent sdk.ScVal} :
    fnReturn sdk event = .ok none ↔ ∀ topic second rest, event.topics = topic :: second :: rest →
      ∃ marker, sdk.scValToNative topic = .ok marker ∧ marker.isString "fn_return" = false := by
  unfold fnReturn
  split
  · next topic second rest htopics =>
      simp only [htopics, bind_eq_ok_iff, libraryCall_eq_ok_iff, List.cons.injEq, and_imp]
      constructor
      · intro hseen _ _ _ hsame _ _
        obtain rfl := hsame
        obtain ⟨marker, hmarker, hnone⟩ := hseen
        refine ⟨marker, hmarker, ?_⟩
        cases hreturn : marker.isString "fn_return" with
        | false => rfl
        | true => simp [hreturn, bind_eq_ok_iff, pure, Except.pure] at hnone
      · intro hskip
        obtain ⟨marker, hmarker, hnot⟩ := hskip _ _ _ rfl rfl rfl
        exact ⟨marker, hmarker, by simp [hnot, pure, Except.pure]⟩
  · next hshort =>
      simp only [pure, Except.pure, true_iff]
      intro topic second rest htopics
      exact absurd htopics (hshort topic second rest)

theorem fnReturn_eq_some_iff {event : DiagnosticEvent sdk.ScVal} {native : Native} :
    fnReturn sdk event = .ok (some native) ↔ ∃ topic second rest,
      event.topics = topic :: second :: rest ∧
      sdk.scValToNative topic = .ok (.string "fn_return") ∧
      sdk.scValToNative event.data = .ok native := by
  unfold fnReturn
  split
  · next topic second rest htopics =>
      simp only [htopics, bind_eq_ok_iff, libraryCall_eq_ok_iff, List.cons.injEq]
      constructor
      · intro hseen
        obtain ⟨marker, hmarker, hsome⟩ := hseen
        -- the data is converted only after the marker matched
        cases hreturn : marker.isString "fn_return" with
        | false => simp [hreturn, pure, Except.pure] at hsome
        | true =>
            simp only [hreturn, if_true, bind_eq_ok_iff, libraryCall_eq_ok_iff, pure, Except.pure,
              Except.ok.injEq, Option.some.injEq] at hsome
            obtain ⟨_, hdata, rfl⟩ := hsome
            rw [isString_iff] at hreturn
            exact ⟨topic, second, rest, ⟨rfl, rfl, rfl⟩, hreturn ▸ hmarker, hdata⟩
      · intro hreturned
        obtain ⟨_, _, _, ⟨rfl, rfl, rfl⟩, hmarker, hdata⟩ := hreturned
        exact ⟨_, hmarker, by simp [Native.isString, hdata, libraryCall, bind, Except.bind, pure,
          Except.pure]⟩
  · next hshort =>
      simp only [pure, Except.pure, Except.ok.injEq, reduceCtorEq, false_iff]
      rintro ⟨topic, second, rest, htopics, -⟩
      exact hshort topic second rest htopics

/-- The loop ends with the first return of a call, or without one. -/
theorem scanEvents_eq_ok_iff {events : List String} {r : Option (List Bool)} :
    scanEvents sdk events = .ok r ↔
      (∃ native, FirstReturn sdk events native ∧ r = native.booleans) ∨
        (∀ e ∈ events, Skipped sdk e) ∧ r = none := by
  induction events with
  | nil =>
      simp only [scanEvents, pure, Except.pure, Except.ok.injEq, List.not_mem_nil, false_imp_iff,
        implies_true, true_and]
      constructor
      · exact fun hr => .inr hr.symm
      · intro hends
        rcases hends with ⟨native, ⟨pre, encoded, post, hsplit, -⟩, -⟩ | hr
        · simp at hsplit
        · exact hr.symm
  | cons encoded events ih =>
      simp only [scanEvents, bind_eq_ok_iff, libraryCall_eq_ok_iff]
      constructor
      · intro hscan
        obtain ⟨event, hevent, seen, hseen, hrest⟩ := hscan
        cases seen with
        -- the loop returns at the first event that is a return
        | some native =>
            simp only [pure, Except.pure, Except.ok.injEq] at hrest
            obtain ⟨topic, second, rest, htopics, hmarker, hdata⟩ := fnReturn_eq_some_iff.1 hseen
            exact .inl ⟨native, ⟨[], encoded, events, rfl, by simp,
              ⟨event, topic, second, rest, hevent, htopics, hmarker, hdata⟩⟩, hrest.symm⟩
        | none =>
            -- the event is skipped, and the induction hypothesis is about the rest of the loop
            have hskip : Skipped sdk encoded := ⟨event, hevent, fnReturn_eq_none_iff.1 hseen⟩
            rcases ih.1 hrest with ⟨native, ⟨pre, e, post, rfl, hpre, hreturn⟩, hr⟩ | ⟨hall, hr⟩
            · exact .inl ⟨native, ⟨encoded :: pre, e, post, rfl,
                List.forall_mem_cons.2 ⟨hskip, hpre⟩, hreturn⟩, hr⟩
            · exact .inr ⟨List.forall_mem_cons.2 ⟨hskip, hall⟩, hr⟩
      · intro hends
        rcases hends with ⟨native, ⟨pre, e, post, hsplit, hpre, hreturn⟩, rfl⟩ | ⟨hall, rfl⟩
        · cases pre with
          | nil =>
              obtain ⟨rfl, rfl⟩ := List.cons.inj hsplit
              obtain ⟨event, topic, second, rest, hevent, hfields⟩ := hreturn
              exact ⟨event, hevent, some native,
                fnReturn_eq_some_iff.2 ⟨topic, second, rest, hfields⟩, rfl⟩
          | cons first pre =>
              obtain ⟨rfl, rfl⟩ := List.cons.inj hsplit
              obtain ⟨hfirst, hpre⟩ := List.forall_mem_cons.1 hpre
              obtain ⟨event, hevent, hskip⟩ := hfirst
              exact ⟨event, hevent, none, fnReturn_eq_none_iff.2 hskip,
                ih.2 (.inl ⟨native, ⟨pre, e, post, rfl, hpre, hreturn⟩, rfl⟩)⟩
        · obtain ⟨hfirst, hall⟩ := List.forall_mem_cons.1 hall
          obtain ⟨event, hevent, hskip⟩ := hfirst
          exact ⟨event, hevent, none, fnReturn_eq_none_iff.2 hskip, ih.2 (.inr ⟨hall, rfl⟩)⟩

end Events

/-! ## The record of a successful transaction -/

/-- The record says in which ledger the transaction was and has a result that can be decoded. -/
def TransactionRecord.Complete (sdk : StellarSdk) (record : TransactionRecord) : Prop :=
  (∃ ledger, record.ledger = some ledger) ∧ ∃ resultXdr fee, record.resultXdr = some resultXdr ∧
    resultXdr ≠ "" ∧ sdk.feeCharged resultXdr = .ok fee

/-- The record's events can be decoded as far as they are read: up to the first return of a
    call. -/
def TransactionRecord.Readable (sdk : StellarSdk) (record : TransactionRecord) : Prop :=
  ∀ events, record.diagnosticEventsXdr = some events →
    (∀ e ∈ events, Skipped sdk e) ∨ ∃ native, FirstReturn sdk events native

/-- The record has events, and their first return of a call carries these flags. -/
def TransactionRecord.Carries (sdk : StellarSdk) (record : TransactionRecord) (bs : List Bool) :
    Prop :=
  ∃ events elems, record.diagnosticEventsXdr = some events ∧
    FirstReturn sdk events (.array elems) ∧ elems.map Native.truthy = bs

section Record

variable {sdk : StellarSdk} {record : TransactionRecord}

theorem decodeBoolArrayFromDiagnostics_eq_ok_iff_readable :
    (∃ r, decodeBoolArrayFromDiagnostics sdk record.diagnosticEventsXdr = .ok r) ↔
      record.Readable sdk := by
  unfold decodeBoolArrayFromDiagnostics TransactionRecord.Readable
  cases record.diagnosticEventsXdr with
  | none => simp [pure, Except.pure]
  | some events =>
      simp only [scanEvents_eq_ok_iff, Option.some.injEq, forall_eq']
      constructor
      · intro hread
        rcases hread with ⟨r, ⟨native, hreturn, -⟩ | ⟨hall, -⟩⟩
        · exact .inr ⟨native, hreturn⟩
        · exact .inl hall
      · intro hreadable
        rcases hreadable with hall | ⟨native, hreturn⟩
        · exact ⟨none, .inr ⟨hall, rfl⟩⟩
        · exact ⟨native.booleans, .inl ⟨native, hreturn, rfl⟩⟩

theorem decodeBoolArrayFromDiagnostics_eq_some_iff_carries {bs : List Bool} :
    decodeBoolArrayFromDiagnostics sdk record.diagnosticEventsXdr = .ok (some bs) ↔
      record.Carries sdk bs := by
  unfold decodeBoolArrayFromDiagnostics TransactionRecord.Carries
  cases record.diagnosticEventsXdr with
  | none => simp [pure, Except.pure]
  | some events =>
      simp only [scanEvents_eq_ok_iff, Option.some.injEq, reduceCtorEq, and_false, or_false,
        exists_and_left, exists_eq_left']
      constructor
      · intro hread
        obtain ⟨native, hreturn, hbs⟩ := hread
        cases native with
        | array elems => exact ⟨elems, hreturn, (Option.some.inj hbs).symm⟩
        | _ => cases hbs
      · intro hcarries
        obtain ⟨elems, hreturn, rfl⟩ := hcarries
        exact ⟨.array elems, hreturn, rfl⟩

/-- A result is read off a record exactly when it is complete and its events are readable; without
    flags in the events, the result has none. -/
theorem readBatchResult_eq_ok_iff {result : VerifyBatchResult} :
    readBatchResult sdk record = .ok result ↔
      ∃ r, decodeBoolArrayFromDiagnostics sdk record.diagnosticEventsXdr = .ok r ∧
        ∃ ledger resultXdr fee, record.ledger = some ledger ∧ record.resultXdr = some resultXdr ∧
          resultXdr ≠ "" ∧ sdk.feeCharged resultXdr = .ok fee ∧
          result = ⟨r.getD [], record.txHash, ledger, fee⟩ := by
  simp only [readBatchResult, bind_eq_ok_iff]
  refine exists_congr fun r => and_congr_right fun _ => ?_
  cases record.ledger with
  | none => simp
  | some ledger =>
      cases record.resultXdr with
      | none => simp
      | some resultXdr =>
          -- an empty string is falsy, so it counts as missing
          by_cases hempty : resultXdr = ""
          · simp [hempty]
          · have hfilter : (some resultXdr).filter (· != "") = some resultXdr := by simp [hempty]
            simp only [hfilter, bind_eq_ok_iff, libraryCall_eq_ok_iff, pure, Except.pure,
              Except.ok.injEq]
            constructor
            · intro hread
              obtain ⟨fee, hfee, hresult⟩ := hread
              exact ⟨ledger, resultXdr, fee, rfl, rfl, hempty, hfee, hresult.symm⟩
            · intro hcomplete
              obtain ⟨_, _, fee, hledger, hresultXdr, -, hfee, rfl⟩ := hcomplete
              cases hledger
              cases hresultXdr
              exact ⟨fee, hfee, rfl⟩

end Record

/-! ## The whole call -/

/-- The call gets as far as this record: the submission succeeds, and the record is the first one
    that is found. -/
def Node.Settles (node : Node) (record : TransactionRecord) : Prop :=
  node.prepare = .ok () ∧ (node.send = .ok "PENDING" ∨ node.send = .ok "DUPLICATE") ∧
    ∃ (pending : List TransactionRecord) (later : List (Except String TransactionRecord)),
      node.polls = pending.map .ok ++ .ok record :: later ∧ ∀ r ∈ pending, r.status = .notFound

/-- Records that are not found are waited out. -/
theorem awaitTransaction_pending {α : Type} {read : TransactionRecord → Except Thrown α}
    {pending : List TransactionRecord} (hpending : ∀ r ∈ pending, r.status = .notFound)
    (polls : List (Except String TransactionRecord)) :
    awaitTransaction read (pending.map .ok ++ polls) = awaitTransaction read polls := by
  induction pending with
  | nil => rfl
  | cons r pending ih =>
      obtain ⟨hr, hpending⟩ := List.forall_mem_cons.1 hpending
      rw [List.map_cons, List.cons_append, awaitTransaction]
      simp only [hr]
      exact ih hpending

theorem verifyBatchOnChain_eq {sdk : StellarSdk} {node : Node} {items : List VerifierBatchItem}
    {calldata : List SorobanProofCalldata} {record : TransactionRecord}
    (hcalldata : batchCalldata items = .ok calldata) (hsettles : node.Settles record)
    (hstatus : record.status = .success) :
    verifyBatchOnChain sdk node items = liftZk (tryCatch (readBatchResult sdk record)) := by
  obtain ⟨hprepare, hsend, pending, later, hpolls, hpending⟩ := hsettles
  unfold verifyBatchOnChain
  rw [hcalldata, hprepare, hpolls]
  rcases hsend with hsend | hsend <;>
    simp [hsend, libraryCall, bind, Except.bind, awaitTransaction_pending hpending,
      awaitTransaction, hstatus]

/-- How the checks on the items end: all the looks at one item, then those at the next. -/
def lookItems (items : List VerifierBatchItem) : Look :=
  firstOf (items.flatMap fun item => lookProof item.proof item.publicSignals item.expiryLedger)

theorem outcome_batchCalldata {items : List VerifierBatchItem} (hitems : items ≠ []) :
    outcome (batchCalldata items) = lookItems items := by
  have hcode : batchCalldata items
      = (items.mapM fun item => formatProof item.proof item.publicSignals item.expiryLedger)
          >>= fun calldata => forEachFrom (fun _ calldata => validateCalldata calldata) 0 calldata
          >>= fun _ => pure calldata := by
    rw [batchCalldata, List.isEmpty_eq_false_iff.2 hitems]
    rfl
  rw [hcode, lookItems, ← outcome_mapM (fun item : VerifierBatchItem =>
    outcome_formatProof item.proof item.publicSignals item.expiryLedger)]
  refine outcome_bind_of_ok fun calldata hcalldata => ?_
  -- calldata that was just formatted has the right lengths
  have hvalid : forEachFrom (fun _ calldata => validateCalldata calldata) 0 calldata = .ok () := by
    rw [forEachFrom_eq_ok_iff (p := SorobanProofCalldata.WellSized)
      (fun _ _ _ => validateCalldata_eq_ok_iff)]
    intro c hc
    obtain ⟨item, -, hformat⟩ := exists_of_mapM hcalldata hc
    exact wellSized_of_formatProof hformat
  rw [hvalid]
  exact ⟨calldata, rfl⟩

/-- What passes the checks is decoded as it is. -/
theorem map_makeProofItem {items : List VerifierBatchItem} {calldata : List SorobanProofCalldata}
    (hcalldata : batchCalldata items = .ok calldata) :
    calldata.length = items.length ∧
      calldata.map makeProofItem = (submittedItems calldata).map some := by
  simp only [batchCalldata, bind_eq_ok_iff, pure, Except.pure, Except.ok.injEq] at hcalldata
  obtain ⟨_, -, checked, hformat, _, hvalid, rfl⟩ := hcalldata
  refine ⟨length_of_mapM hformat, ?_⟩
  rw [forEachFrom_eq_ok_iff (p := SorobanProofCalldata.WellSized)
    (fun _ _ _ => validateCalldata_eq_ok_iff)] at hvalid
  clear hformat
  induction checked with
  | nil => rfl
  | cons c checked ih =>
      obtain ⟨⟨-, -, -, hinputs⟩, hvalid⟩ := List.forall_mem_cons.1 hvalid
      obtain ⟨xs, hxs⟩ := exists_bytesN hinputs
      rw [List.map_cons, ih hvalid, submittedItems, submittedItems,
        List.filterMap_cons_some (makeProofItem_eq xs hxs), List.map_cons, makeProofItem_eq xs hxs]

variable {Address : Type} [DecidableEq Address]

/-- A batch that ends with flags has one for each of its items. -/
theorem length_flags {h : Host} {w : World Address} {auth : Address → Bool} {caller : Address}
    {proofs : List ProofItem} {bs : List Bool}
    (hflags : (Verifier.exec h w.ledger w.state ⟨auth, .verifyBatch caller proofs⟩).1
      = .ok (.flags bs)) : bs.length = proofs.length := by
  rcases Verifier.submission_cases h w.ledger w.state ⟨auth, .verifyBatch caller proofs⟩ rfl with
    ⟨hno, -⟩ | ⟨-, -, hrun⟩
  · exact absurd hflags (hno _)
  · rw [hflags] at hrun
    exact Verifier.length_of_submitAll hrun

/-- The call throws an error of the SDK, or its results are the contract's flags, one for each
    item. -/
def LinesUp (items : List VerifierBatchItem) (bs : List Bool)
    (r : Except JsException VerifyBatchResult) : Prop :=
  (∃ e, r = .error (.zk e)) ∨ ∃ result, r = .ok result ∧
    result.verified.length = items.length ∧ ∀ i : ℕ, result.verified[i]? = bs[i]?

/-- What is read off the record of items that pass the checks. -/
theorem linesUp_readBatchResult_iff {sdk : StellarSdk} {record : TransactionRecord}
    {items : List VerifierBatchItem} {bs : List Bool} (hitems : items ≠ [])
    (hbs : bs.length = items.length) :
    LinesUp items bs (liftZk (tryCatch (readBatchResult sdk record))) ↔
      (record.Complete sdk → record.Readable sdk → record.Carries sdk bs) := by
  constructor
  · intro hline hcomplete hreadable
    obtain ⟨⟨ledger, hledger⟩, resultXdr, fee, hresult, hnonempty, hfee⟩ := hcomplete
    obtain ⟨r, hr⟩ := decodeBoolArrayFromDiagnostics_eq_ok_iff_readable.2 hreadable
    rw [readBatchResult_eq_ok_iff.2 ⟨r, hr, ledger, resultXdr, fee, hledger, hresult, hnonempty,
      hfee, rfl⟩] at hline
    obtain ⟨e, herror⟩ | ⟨result, hok, hlen, hget⟩ := hline
    · cases herror
    · cases hok
      cases r with
      | none =>
          -- the default stands for a list of no results, and there is at least one item
          exact absurd hlen.symm (by simpa using hitems)
      | some flags =>
          obtain rfl : flags = bs := List.ext_getElem? hget
          exact decodeBoolArrayFromDiagnostics_eq_some_iff_carries.1 hr
  · intro hcarries
    cases hread : tryCatch (readBatchResult sdk record) with
    | error e => exact .inl ⟨e, rfl⟩
    | ok result =>
        rw [tryCatch_eq_ok_iff, readBatchResult_eq_ok_iff] at hread
        obtain ⟨r, hr, ledger, resultXdr, fee, hledger, hresult, hnonempty, hfee, rfl⟩ := hread
        have hcarried := hcarries ⟨⟨ledger, hledger⟩, resultXdr, fee, hresult, hnonempty, hfee⟩
          (decodeBoolArrayFromDiagnostics_eq_ok_iff_readable.1 ⟨r, hr⟩)
        rw [decodeBoolArrayFromDiagnostics_eq_some_iff_carries.2 hcarried, Except.ok.injEq] at hr
        refine .inr ⟨_, rfl, ?_⟩
        rw [← hr]
        exact ⟨hbs, fun i => rfl⟩

/-- **Batch results line up with the items.** Take any list of items that is not empty, a
    transaction in which the contract answers their calldata, if they pass the checks, with flags,
    and any record of it with status `SUCCESS`. The SDK throws one of its errors or returns those
    flags exactly when the first look at the items that is not fine does not break, and, if all are
    fine, the record carries the flags, provided it is complete and its events are readable. -/
theorem batch_results_line_up_iff (sdk : StellarSdk) (h : Host) (w : World Address)
    (auth : Address → Bool) (caller : Address) (items : List VerifierBatchItem)
    (hitems : items ≠ []) (bs : List Bool)
    (hflags : ∀ calldata, batchCalldata items = .ok calldata →
      (Verifier.exec h w.ledger w.state ⟨auth, .verifyBatch caller (submittedItems calldata)⟩).1
        = .ok (.flags bs))
    (node : Node) (record : TransactionRecord) (hsettles : node.Settles record)
    (hstatus : record.status = .success) :
    LinesUp items bs (verifyBatchOnChain sdk node items) ↔
      lookItems items ≠ .broken ∧ (lookItems items = .fine →
        record.Complete sdk → record.Readable sdk → record.Carries sdk bs) := by
  have houtcome := outcome_batchCalldata hitems
  rcases hcalldata : batchCalldata items with (e | _) | calldata
  · -- the checks throw an error of the SDK, and so does the call
    rw [hcalldata] at houtcome
    have hthrows : verifyBatchOnChain sdk node items = .error (.zk e) := by
      rw [verifyBatchOnChain, hcalldata]
      rfl
    rw [hthrows, ← houtcome]
    simp [LinesUp, outcome]
  · rw [hcalldata] at houtcome
    have hthrows : verifyBatchOnChain sdk node items = .error .typeError := by
      rw [verifyBatchOnChain, hcalldata]
      rfl
    rw [hthrows, ← houtcome]
    simp [LinesUp, outcome]
  · rw [hcalldata] at houtcome
    obtain ⟨hlength, hsubmitted⟩ := map_makeProofItem hcalldata
    have hbs : bs.length = items.length := by
      have hmap := congrArg List.length hsubmitted
      rw [List.length_map, List.length_map] at hmap
      rw [length_flags (hflags calldata hcalldata), ← hmap, hlength]
    rw [verifyBatchOnChain_eq hcalldata hsettles hstatus, linesUp_readBatchResult_iff hitems hbs,
      ← houtcome]
    simp [outcome]

/-- A signal that is an object with a property `toString` cannot even be described. -/
example : lookItems [⟨zeroProof, .array [.object [("toString", .null)]], none⟩] = .broken := by
  decide +kernel

/-! ## The single proof

`verifyOnChain` reads a parsed record, which also has the return value that the node derives from
the transaction's meta. It throws when neither that nor an event tells the answer. -/

/-- A parsed record of a successful transaction. -/
structure ParsedRecord (ScVal : Type) where
  txHash : String
  ledger : Option ℕ
  /-- The fee in the result. -/
  resultXdr : Option String
  returnValue : Option ScVal
  diagnosticEventsXdr : Option (List (DiagnosticEvent ScVal))

/-- `VerifyResult`. -/
structure VerifyResult where
  verified : Bool
  txHash : String
  ledger : ℕ
  fee : String

/-- The loop of `decodeReturnValueFromDiagnostics`. -/
def scanParsedEvents (sdk : StellarSdk) :
    List (DiagnosticEvent sdk.ScVal) → Except Thrown (Option Bool)
  | [] => return none
  | event :: rest => do
      match ← fnReturn sdk event with
      | some native => return some native.truthy
      | none => scanParsedEvents sdk rest

/-- `decodeReturnValueFromDiagnostics`. -/
def decodeReturnValueFromDiagnostics (sdk : StellarSdk)
    (diagnosticEventsXdr : Option (List (DiagnosticEvent sdk.ScVal))) :
    Except Thrown (Option Bool) :=
  match diagnosticEventsXdr with
  | none => return none
  | some events => scanParsedEvents sdk events

/-- `decodeVerifyReturnValue`. -/
def decodeVerifyReturnValue (sdk : StellarSdk) (result : ParsedRecord sdk.ScVal) :
    Except Thrown (Option Bool) :=
  match result.returnValue with
  | some returnValue => do
      let native ← libraryCall (sdk.scValToNative returnValue)
      return some native.truthy
  | none => decodeReturnValueFromDiagnostics sdk result.diagnosticEventsXdr

/-- What `verifyOnChain` makes of the record of a successful transaction. -/
def readVerifyResult (sdk : StellarSdk) (result : ParsedRecord sdk.ScVal) :
    Except Thrown VerifyResult :=
  match result.ledger, result.resultXdr with
  | some ledger, some fee => do
      match ← decodeVerifyReturnValue sdk result with
      | some verified => return ⟨verified, result.txHash, ledger, fee⟩
      | none => .error (.zk (.general ("Transaction " ++ result.txHash
          ++ " carried no decodable verify_proof return value") .contractInvocationFailed))
  | _, _ => .error (.zk (.general ("Transaction " ++ result.txHash
      ++ " did not include the expected success payload") .contractInvocationFailed))

/-! ## A transaction on a fresh contract -/

/-- The event of a `verify_batch` that returned `[true]`, in base64. -/
def sampleEvent : String :=
  "AAAAAQAAAAAAAAAAAAAAAQAAAAAAAAACAAAADwAAAAlmbl9yZXR1cm4AAAAAAAAPAAAADHZl"
    ++ "cmlmeV9iYXRjaAAAABAAAAABAAAAAQAAAAAAAAAB"

/-- A transaction result with a fee of 100 stroops, in base64. -/
def sampleResult : String := "AAAAAAAAAGQAAAAAAAAAAAAAAAA="

/-- The decoders on these two texts. -/
def StellarSdk.sample : StellarSdk where
  ScVal := Native
  scValToNative := .ok
  diagnosticEvent encoded :=
    if encoded = sampleEvent then
      .ok ⟨[.string "fn_return", .string "verify_batch"], .array [.boolean true]⟩
    else .error "XDR Read Error"
  feeCharged encoded :=
    if encoded = sampleResult then .ok "100" else .error "XDR Read Error"

/-- The all-zero proof for the input 7, until ledger 100. -/
def zeroBatchItem : VerifierBatchItem := ⟨zeroProof, .array [.string "7"], some (.ofNat 100)⟩

/-- The record of a transaction in ledger 51, with these events. -/
def sampleRecord (diagnosticEventsXdr : Option (List String)) : TransactionRecord :=
  ⟨.success, "hash", some 51, some sampleResult, diagnosticEventsXdr⟩

/-- A node that returns a record after one that is not found. -/
def sampleNode (record : TransactionRecord) : Node where
  prepare := .ok ()
  send := .ok "PENDING"
  polls := [.ok { record with status := .notFound }, .ok record]

theorem settles_sampleNode (record : TransactionRecord) : (sampleNode record).Settles record :=
  ⟨rfl, .inl rfl, [{ record with status := .notFound }], [], rfl, by simp⟩

/-- The event of the contract's answer is there, and the SDK returns the answer. -/
theorem batch_results_line_up_zero :
    LinesUp [zeroBatchItem] [true] (verifyBatchOnChain StellarSdk.sample
      (sampleNode (sampleRecord (some [sampleEvent]))) [zeroBatchItem]) := by
  refine (batch_results_line_up_iff StellarSdk.sample Host.scalar
    ⟨50, Verifier.zeroState 5 17280⟩ (fun _ => true) () [zeroBatchItem] (by simp) [true] ?_ _ _
    (settles_sampleNode _) rfl).2 ⟨by decide +kernel, fun _ _ _ => ?_⟩
  · intro calldata hcalldata
    have hzero : batchCalldata [zeroBatchItem]
        = .ok [{ zeroCalldata 7 with publicInputs := [toBe 32 7, toBe 32 100] }] := by
      decide +kernel
    rw [← Except.ok.inj (hzero.symm.trans hcalldata)]
    decide +kernel
  have hreturned : Returned StellarSdk.sample sampleEvent (.array [.boolean true]) :=
    ⟨⟨[.string "fn_return", .string "verify_batch"], .array [.boolean true]⟩, .string "fn_return",
      .string "verify_batch", [], by simp [StellarSdk.sample], rfl, rfl, rfl⟩
  exact ⟨[sampleEvent], [.boolean true], rfl, ⟨[], _, [], rfl, by simp, hreturned⟩, rfl⟩

/-- The same transaction in the record of a node that keeps no diagnostic events: the contract
    answered `[true]`, and the SDK returns no results at all. -/
theorem missing_events_report_nothing :
    let items := [zeroBatchItem]
    let calldata : List SorobanProofCalldata :=
      [{ zeroCalldata 7 with publicInputs := [toBe 32 7, toBe 32 100] }]
    let record := sampleRecord none
    batchCalldata items = .ok calldata ∧
      (Verifier.exec Host.scalar 50 (Verifier.zeroState 5 17280)
        ⟨fun _ => true, .verifyBatch () (submittedItems calldata)⟩).1 = .ok (.flags [true]) ∧
      (sampleNode record).Settles record ∧ record.status = .success ∧
      verifyBatchOnChain StellarSdk.sample (sampleNode record) items
        = .ok ⟨[], "hash", 51, "100"⟩ ∧
      ¬ LinesUp items [true] (verifyBatchOnChain StellarSdk.sample (sampleNode record) items) := by
  have hreport : verifyBatchOnChain StellarSdk.sample (sampleNode (sampleRecord none))
      [zeroBatchItem] = .ok ⟨[], "hash", 51, "100"⟩ := by decide +kernel
  refine ⟨by decide +kernel, by decide +kernel, settles_sampleNode _, rfl, hreport, ?_⟩
  rw [hreport]
  intro hline
  obtain ⟨e, herror⟩ | ⟨result, hok, hlen, -⟩ := hline
  · cases herror
  · cases hok
    cases hlen

end ZkStellar.Sdk

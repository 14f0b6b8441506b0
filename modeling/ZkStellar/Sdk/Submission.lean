import ZkStellar.Lib.Simulation
import ZkStellar.Sdk.BatchOnChain

set_option autoImplicit false

/-! # A submission through the network

`verifyOnChain` talks to a node in turns: network, account, simulation, submission, and then one
poll after another. Between its turns the chain moves on: other transactions change the contract
the simulation ran on, and the signed transaction may be lost, wait or be executed at any point,
also after the client has given up. `submission_sound` says what each way `verifyOnChain` can end
tells about the contract, in every interleaving with a node that answers truthfully. -/

namespace ZkStellar.Sdk.Submission

open Verifier (ProofItem Reply World)

/-! ## The function -/

/-- What `getTransaction` returns. -/
inductive Polled (ScVal : Type) where
  | notFound
  | failed (txHash : String) (ledger : ℕ)
  | success (record : ParsedRecord ScVal)

/-- What a node answers to the calls of `verifyOnChain`, or the message the library throws with. -/
structure Node (ScVal : Type) where
  /-- The passphrase. -/
  getNetwork : Except String String
  getAccount : Except String Unit
  prepareTransaction : Except String Unit
  /-- The status. -/
  sendTransaction : Except String String
  /-- The answers before the time is up. -/
  getTransaction : List (Except String (Polled ScVal))

/-- The check on the status of a submission. -/
def checkStatus (status : String) : Except Thrown Unit :=
  if status != "PENDING" && status != "DUPLICATE" then
    .error (.zk (.general ("Transaction submission failed with status " ++ status)
      .transactionRejected))
  else .ok ()

section

variable (sdk : StellarSdk)

/-- What one poll leads to: a result, or another poll. -/
def readPolled : Polled sdk.ScVal → Except Thrown (Option VerifyResult)
  | .notFound => .ok none
  | .failed txHash ledger => .error (.zk (.general ("Transaction " ++ txHash ++ " failed on ledger "
      ++ toString ledger) .transactionRejected))
  | .success record => do
      let result ← readVerifyResult sdk record
      return some result

/-- The error of a poll that comes too late. -/
def timedOut : SorobanZkError :=
  .general "Timed out waiting for transaction confirmation" .networkError

/-- The loop of `verifyOnChain`. -/
def awaitVerification : List (Except String (Polled sdk.ScVal)) → Except Thrown VerifyResult
  | [] => .error (.zk timedOut)
  | poll :: polls => do
      let polled ← libraryCall poll
      match ← readPolled sdk polled with
      | some result => return result
      | none => awaitVerification polls

/-- `verifyOnChain`. -/
def verifyOnChain (node : Node sdk.ScVal) (opts : VerifyOptions) :
    Except JsException VerifyResult := do
  let calldata ← resolveCalldata opts
  validateCalldata calldata
  liftZk <| tryCatch do
    let passphrase ← libraryCall node.getNetwork
    ownCall (assertBundleNetwork opts.bundle passphrase)
    libraryCall node.getAccount
    libraryCall node.prepareTransaction
    let status ← libraryCall node.sendTransaction
    checkStatus status
    awaitVerification sdk node.getTransaction

end

/-! ## Turn by turn -/

/-- The call `verifyOnChain` waits for, or what it ended with. -/
inductive Phase where
  | network
  | account
  | prepare
  | send
  | poll
  | done (r : Except SorobanZkError VerifyResult)

/-- An answer to one call; `timeUp` ends the polling. -/
inductive Answer (ScVal : Type) where
  | network (r : Except String String)
  | account (r : Except String Unit)
  | prepare (r : Except String Unit)
  | send (r : Except String String)
  | poll (r : Except String (Polled ScVal))
  | timeUp

/-- Go on from a part of the `try` block, or end with its error. -/
def Phase.after {α : Type} (r : Except Thrown α) (next : α → Phase) : Phase :=
  match tryCatch r with
  | .ok a => next a
  | .error e => .done (.error e)

/-- One turn; an answer nobody waits for is not heard. -/
def resume (sdk : StellarSdk) (bundle : Option ProofBundle) : Phase → Answer sdk.ScVal → Phase
  | .network, .network r =>
      .after (do let passphrase ← libraryCall r
                 ownCall (assertBundleNetwork bundle passphrase)) fun _ => .account
  | .account, .account r => .after (libraryCall r) fun _ => .prepare
  | .prepare, .prepare r => .after (libraryCall r) fun _ => .send
  | .send, .send r => .after (libraryCall r >>= checkStatus) fun _ => .poll
  | .poll, .poll r =>
      .after (libraryCall r >>= readPolled sdk) fun
        | some result => .done (.ok result)
        | none => .poll
  | .poll, .timeUp => .done (.error timedOut)
  | phase, _ => phase

/-- The answers of a node in the order they are asked for. -/
def Node.answers {ScVal : Type} (node : Node ScVal) : List (Answer ScVal) :=
  [.network node.getNetwork, .account node.getAccount, .prepare node.prepareTransaction,
    .send node.sendTransaction] ++ node.getTransaction.map .poll ++ [.timeUp]

section Turns

variable {sdk : StellarSdk} {bundle : Option ProofBundle}

theorem foldl_done (answers : List (Answer sdk.ScVal)) (r : Except SorobanZkError VerifyResult) :
    answers.foldl (resume sdk bundle) (.done r) = .done r := by
  induction answers with
  | nil => rfl
  | cons answer answers ih => exact ih

/-- A part of the `try` block, and then the rest of it. -/
theorem foldl_after {α : Type} (answers : List (Answer sdk.ScVal)) (part : Except Thrown α)
    (next : α → Phase) (rest : α → Except Thrown VerifyResult)
    (hrest : ∀ a, part = .ok a →
      answers.foldl (resume sdk bundle) (next a) = .done (tryCatch (rest a))) :
    answers.foldl (resume sdk bundle) (.after part next) = .done (tryCatch (part >>= rest)) := by
  rcases part with (e | message) | a
  · exact foldl_done answers _
  · exact foldl_done answers _
  · exact hrest a rfl

theorem foldl_polls (polls : List (Except String (Polled sdk.ScVal))) :
    (polls.map Answer.poll ++ [Answer.timeUp]).foldl (resume sdk bundle) .poll
      = .done (tryCatch (awaitVerification sdk polls)) := by
  induction polls with
  | nil => rfl
  | cons poll polls ih =>
      rw [List.map_cons, List.cons_append, List.foldl_cons]
      have hloop : awaitVerification sdk (poll :: polls)
          = (libraryCall poll >>= readPolled sdk) >>= fun
            | some result => .ok result
            | none => awaitVerification sdk polls := by
        rw [awaitVerification, bind_assoc]
        rfl
      rw [hloop]
      refine foldl_after _ _ _ _ fun result hresult => ?_
      rcases result with _ | result
      · exact ih
      · exact foldl_done _ _

/-- Turn by turn the answers of a node lead to what `verifyOnChain` returns or throws. -/
theorem foldl_resume {node : Node sdk.ScVal} {opts : VerifyOptions}
    {calldata : SorobanProofCalldata} (hresolve : resolveCalldata opts = .ok calldata)
    (hvalid : validateCalldata calldata = .ok ()) :
    ∃ r, node.answers.foldl (resume sdk opts.bundle) .network = .done r ∧
      verifyOnChain sdk node opts = liftZk r := by
  have hcode : verifyOnChain sdk node opts = liftZk (tryCatch
      ((libraryCall node.getNetwork >>= fun passphrase =>
          ownCall (assertBundleNetwork opts.bundle passphrase)) >>= fun _ =>
        libraryCall node.getAccount >>= fun _ =>
        libraryCall node.prepareTransaction >>= fun _ =>
        (libraryCall node.sendTransaction >>= checkStatus) >>= fun _ =>
        awaitVerification sdk node.getTransaction)) := by
    simp only [bind_assoc]
    rw [verifyOnChain, hresolve]
    simp only [bind, Except.bind, hvalid]
  refine ⟨_, ?_, hcode⟩
  refine foldl_after _ _ _ _ fun _ _ => ?_
  refine foldl_after _ _ _ _ fun _ _ => ?_
  refine foldl_after _ _ _ _ fun _ _ => ?_
  refine foldl_after _ _ _ _ fun _ _ => ?_
  exact foldl_polls node.getTransaction

end Turns

/-! ## The messages of contract errors -/

/-- The number `#[contracterror]` gives an error of the verifier. -/
def errorNumber : Verifier.Error → ℕ
  | .notInitialized => 1
  | .rateLimitExceeded => 2
  | .invalidWindowSize => 3
  | .proofExpired => 4
  | .callerNotAllowed => 5
  | .invalidVerifyingKey => 6
  | .noPendingAdmin => 7
  | .contractPaused => 8

/-- How the host's messages spell a contract error. -/
def rendering (n : ℕ) : List Char :=
  "Error(Contract,".toList ++ (' ' :: '#' :: (Nat.toDigits 10 n ++ [')']))

example : rendering 2 = "Error(Contract, #2)".toList := by decide

/-- The first contract error a message spells out is the one with this number. -/
def Names (n : ℕ) (message : String) : Prop :=
  ∃ pre post, message.toList = pre ++ (rendering n ++ post) ∧
    ∀ t ∈ pre.tails, t ≠ [] → contractErrorAt (t ++ (rendering n ++ post)) = none

/-- A code that stands for a contract error. -/
def OfContract (code : SorobanZkErrorCode) : Prop := ∃ n, contractErrorCodes n = some code

theorem contractErrorAt_rendering (n : ℕ) (post : List Char) :
    contractErrorAt (rendering n ++ post) = some n := by
  have hdigit : ∀ c ∈ Nat.toDigits 10 n, c.isDigit = true := fun c hc =>
    Nat.isDigit_of_mem_toDigits (by decide) (by decide) hc
  have htake : (Nat.toDigits 10 n ++ ')' :: post).takeWhile Char.isDigit
      = Nat.toDigits 10 n := by
    rw [List.takeWhile_append_of_pos hdigit, List.takeWhile_cons_of_neg (by decide),
      List.append_nil]
  have hdrop : (Nat.toDigits 10 n ++ ')' :: post).dropWhile Char.isDigit = ')' :: post := by
    rw [List.dropWhile_append_of_pos hdigit, List.dropWhile_cons_of_neg (by decide)]
  have hspaces : (' ' :: '#' :: (Nat.toDigits 10 n ++ ')' :: post)).dropWhile isWhitespace
      = '#' :: (Nat.toDigits 10 n ++ ')' :: post) := by
    rw [List.dropWhile_cons_of_pos (by decide), List.dropWhile_cons_of_neg (by decide)]
  have hsplit : ∀ opening : List Char,
      opening ++ (' ' :: '#' :: (Nat.toDigits 10 n ++ [')'])) ++ post
        = opening ++ (' ' :: '#' :: (Nat.toDigits 10 n ++ ')' :: post)) := by
    simp
  unfold rendering contractErrorAt
  rw [hsplit]
  generalize "Error(Contract,".toList = opening
  simp only [List.isPrefixOf_iff_prefix.2 (List.prefix_append _ _), if_true, List.drop_left,
    hspaces, htake, hdrop]
  simp [Nat.toDigits_ne_nil]

theorem findSome?_tails_append {pre rest : List Char} {n : ℕ}
    (hpre : ∀ t ∈ pre.tails, t ≠ [] → contractErrorAt (t ++ rest) = none)
    (hrest : contractErrorAt rest = some n) :
    (pre ++ rest).tails.findSome? contractErrorAt = some n := by
  induction pre with
  | nil =>
      rcases rest with _ | ⟨c, rest⟩
      · cases hrest
      · rw [List.nil_append, List.tails, List.findSome?_cons, hrest]
  | cons c pre ih =>
      rw [List.cons_append, List.tails, List.findSome?_cons]
      have hhead := hpre (c :: pre) (by simp) (by simp)
      rw [List.cons_append] at hhead
      rw [hhead]
      exact ih fun t ht hne => hpre t (by simp [ht]) hne

theorem extractContractErrorCode_of_names {n : ℕ} {message : String} (hnames : Names n message) :
    extractContractErrorCode message = contractErrorCodes n := by
  obtain ⟨pre, post, hmessage, hpre⟩ := hnames
  rw [extractContractErrorCode, hmessage,
    findSome?_tails_append hpre (contractErrorAt_rendering n post), Option.bind_some]

/-- A message becomes the error of the contract it spells, or one of three codes that stand for
    none. -/
theorem code_classifyError (message : String) :
    extractContractErrorCode message = some (classifyError message).code ∨
      extractContractErrorCode message = none ∧ (classifyError message).code ∈
        [.resourceLimitExceeded, .networkError, .contractInvocationFailed] := by
  unfold classifyError
  split
  next code hcode => exact .inl hcode
  next hnone =>
    refine .inr ⟨hnone, ?_⟩
    simp only
    split
    · simp [SorobanZkError.code]
    · split <;> simp [SorobanZkError.code]

/-! ## The client, the node and the network -/

/-- A call of `verifyOnChain` that gets as far as the network: its options, the caller it signs
    for, and the proof its calldata stands for. -/
structure Session (Address : Type) where
  opts : VerifyOptions
  caller : Address
  item : ProofItem
  formatted : ∃ calldata, resolveCalldata opts = .ok calldata ∧
    validateCalldata calldata = .ok () ∧ makeProofItem calldata = some item

/-- The contract, the client and its transaction. -/
structure System (Address : Type) where
  world : World Address
  phase : Phase
  /-- The contract the simulation ran on. -/
  simulated : Option (World Address)
  /-- Copies of the signed transaction on their way to the network. -/
  inFlight : ℕ
  /-- Copies that arrived and wait for a ledger. -/
  queued : ℕ
  /-- The contract before each execution of the transaction. -/
  executions : List (World Address)

/-- What happens next. -/
inductive Action (ScVal Address : Type) where
  /-- Something else on the chain. -/
  | chain (event : Verifier.Event Address)
  /-- The client hears an answer. -/
  | answer (a : Answer ScVal)
  | arrive
  | lose
  | execute
  | drop

/-- Before the first answer. -/
def System.start {Address : Type} (w : World Address) : System Address :=
  ⟨w, .network, none, 0, 0, []⟩

section

variable {Address : Type} [DecidableEq Address]

/-- The transaction of a session. -/
def Session.tx (session : Session Address) : Verifier.Tx Address :=
  ⟨fun a => a = session.caller, .verifyProof session.caller session.item⟩

variable (h : Host) (sdk : StellarSdk) (session : Session Address)

/-- What the contract answers the transaction. -/
def Session.outcome (w : World Address) : Outcome Verifier.Error Reply :=
  (Verifier.exec h w.ledger w.state session.tx).1

/-- The client hears an answer. The simulation ran on the contract as it is; after a good one the
    client signs the transaction and sends it off. -/
def System.hear (s : System Address) (a : Answer sdk.ScVal) : System Address :=
  match s.phase, resume sdk session.opts.bundle s.phase a with
  | .prepare, .send =>
      { s with phase := .send, simulated := some s.world, inFlight := s.inFlight + 1 }
  | .prepare, phase => { s with phase := phase, simulated := some s.world }
  | _, phase => { s with phase := phase }

/-- The system as a machine. -/
def network : Machine (System Address) (Action sdk.ScVal Address) Unit where
  step s
    | .chain event => ((), { s with world := ((Verifier.machine h).step s.world event).2 })
    | .answer a => ((), s.hear sdk session a)
    | .arrive => ((), { s with inFlight := s.inFlight - 1, queued := s.queued + 1 })
    | .lose => ((), { s with inFlight := s.inFlight - 1 })
    | .execute => ((), { s with
        queued := s.queued - 1
        world := ((Verifier.machine h).step s.world (.tx session.tx)).2
        executions := s.executions ++ [s.world] })
    | .drop => ((), { s with queued := s.queued - 1 })

/-- The record of a transaction that ended with an answer: the return value is there, and a ledger
    is the one it was executed in. -/
structure RecordOf (record : ParsedRecord sdk.ScVal) (w : World Address) (b : Bool) : Prop where
  returnValue : ∃ value, record.returnValue = some value ∧
    sdk.scValToNative value = .ok (.boolean b)
  ledger : ∀ ledger ∈ record.ledger, ledger = w.ledger.toNat

/-- The answer is true: a simulation succeeds as the transaction would and its failure names the
    contract's error, a submission is turned away before it has gone anywhere, and a record tells
    of an execution. No other message names a contract error. -/
def Truthful (s : System Address) : Answer sdk.ScVal → Prop
  | .network (.error message) | .account (.error message) | .send (.error message)
  | .poll (.error message) => extractContractErrorCode message = none
  | .prepare (.ok ()) => ∃ reply, session.outcome h s.world = .ok reply
  | .prepare (.error message) => extractContractErrorCode message = none ∨
      ∃ e, session.outcome h s.world = .err e ∧ Names (errorNumber e) message
  | .send (.ok status) => status = "PENDING" ∨ status = "DUPLICATE" ∨
      s.inFlight = 0 ∧ s.queued = 0 ∧ s.executions = []
  | .poll (.ok (.failed _ _)) => ∃ w ∈ s.executions, ∀ reply, session.outcome h w ≠ .ok reply
  | .poll (.ok (.success record)) => ∃ w ∈ s.executions, ∃ b,
      session.outcome h w = .ok (.flag b) ∧ RecordOf sdk record w b
  | _ => True

/-- Answers are truthful, and only a transaction that is there arrives, is lost, executed or
    dropped. -/
def Honest (s : System Address) : Action sdk.ScVal Address → Prop
  | .chain _ => True
  | .answer a => Truthful h sdk session s a
  | .arrive | .lose => 0 < s.inFlight
  | .execute | .drop => 0 < s.queued

end

/-- The answers among some actions. -/
def answersIn {ScVal Address : Type} (actions : List (Action ScVal Address)) :
    List (Answer ScVal) :=
  actions.filterMap fun
    | .answer a => some a
    | _ => none

/-! ## What an end tells -/

section Ends

variable {Address : Type} [DecidableEq Address] {h : Host} {sdk : StellarSdk}
  {session : Session Address} {s : System Address}

omit [DecidableEq Address] in
/-- No copy of the transaction can still be executed. -/
def System.Settled (s : System Address) : Prop := s.inFlight = 0 ∧ s.queued = 0

/-- The transaction was not executed and cannot be. -/
def System.Untouched (s : System Address) : Prop := s.Settled ∧ s.executions = []

/-- A result is the answer of the one execution there was. The error of a contract was found in the
    simulation, and then, as on another network, nothing is executed; after a rejection no
    execution ended with an answer. -/
def Ended (h : Host) (session : Session Address) (s : System Address) :
    Except SorobanZkError VerifyResult → Prop
  | .ok result => s.Settled ∧ ∃ w, s.executions = [w] ∧ result.ledger = w.ledger.toNat ∧
      session.outcome h w = .ok (.flag result.verified)
  | .error e =>
      (OfContract e.code → s.Untouched ∧ ∃ w cause, s.simulated = some w ∧
        session.outcome h w = .err cause ∧
        contractErrorCodes (errorNumber cause) = some e.code) ∧
      (e.code = .networkMismatch → s.Untouched) ∧
      (e.code = .transactionRejected →
        s.Settled ∧ ∀ w ∈ s.executions, ∀ reply, session.outcome h w ≠ .ok reply)

theorem not_ofContract {code : SorobanZkErrorCode}
    (hcode : code ∈ [.resourceLimitExceeded, .networkError, .contractInvocationFailed,
      .networkMismatch, .transactionRejected]) : ¬ OfContract code := by
  rintro ⟨n, hn⟩
  unfold contractErrorCodes at hn
  split at hn <;> cases hn <;> simp at hcode

/-- An error that tells nothing. -/
theorem ended_of_inconclusive {e : SorobanZkError}
    (hcode : e.code ∈ [.resourceLimitExceeded, .networkError, .contractInvocationFailed]) :
    Ended h session s (.error e) := by
  refine ⟨fun hof => ?_, fun hmismatch => ?_, fun hrejected => ?_⟩
  · refine absurd hof (not_ofContract ?_)
    simp only [List.mem_cons, List.not_mem_nil, or_false] at hcode ⊢
    tauto
  · simp [hmismatch] at hcode
  · simp [hrejected] at hcode

/-- A message that names no contract error tells nothing. -/
theorem ended_of_message {message : String} (hnone : extractContractErrorCode message = none) :
    Ended h session s (.error (classifyError message)) := by
  rcases code_classifyError message with hsome | ⟨-, hcode⟩
  · rw [hnone] at hsome
    cases hsome
  · exact ended_of_inconclusive hcode

/-- While a copy is on its way the end told nothing, so it will have told nothing wrong. -/
theorem Ended.of_not_settled {s' : System Address} {r : Except SorobanZkError VerifyResult}
    (hended : Ended h session s r) (hout : ¬ s.Settled) : Ended h session s' r := by
  rcases r with e | result
  · obtain ⟨hof, hmismatch, hrejected⟩ := hended
    exact ⟨fun hcode => absurd (hof hcode).1.1 hout, fun hcode => absurd (hmismatch hcode).1 hout,
      fun hcode => absurd (hrejected hcode).1 hout⟩
  · exact absurd hended.1 hout

end Ends

/-! ## The invariant -/

variable {Address : Type} [DecidableEq Address]

/-- What holds in every interleaving: at most one copy of the transaction is anywhere, none before
    the client has sent it, an execution that ended with an answer is in the event log, and an end
    told the truth. -/
structure Inv (h : Host) (session : Session Address) (s : System Address) : Prop where
  wellFormed : Verifier.WellFormed s.world.state
  once : s.inFlight + s.queued + s.executions.length ≤ 1
  unsent : s.phase = .network ∨ s.phase = .account ∨ s.phase = .prepare → s.Untouched
  executed : ∀ w ∈ s.executions, Verifier.WellFormed w.state ∧
    ∀ b, session.outcome h w = .ok (.flag b) →
      Verifier.itemEvent h session.caller session.item b ∈ s.world.state.events
  ended : ∀ r, s.phase = .done r → Ended h session s r

section Step

variable {h : Host} {sdk : StellarSdk} {session : Session Address} {s : System Address}

/-- The chain only adds to the log. -/
theorem wellFormed_step {w : World Address} (hwf : Verifier.WellFormed w.state)
    (event : Verifier.Event Address) :
    Verifier.WellFormed ((Verifier.machine h).step w event).2.state ∧
      w.state.events ⊆ ((Verifier.machine h).step w event).2.state.events := by
  cases event with
  | advance target => exact ⟨hwf, fun _ => id⟩
  | tx tx =>
      refine ⟨Verifier.wellFormed_exec hwf tx, ?_⟩
      show w.state.events ⊆ (Verifier.exec h w.ledger w.state tx).2.events
      rw [(Verifier.events_of_exec h w.ledger hwf tx).1]
      exact List.subset_append_left _ _

/-- An execution that ends with an answer publishes it. -/
theorem itemEvent_mem {w : World Address} (hwf : Verifier.WellFormed w.state) {b : Bool}
    (hanswer : session.outcome h w = .ok (.flag b)) :
    Verifier.itemEvent h session.caller session.item b
      ∈ ((Verifier.machine h).step w (.tx session.tx)).2.state.events := by
  show _ ∈ (Verifier.exec h w.ledger w.state session.tx).2.events
  rw [(Verifier.events_of_exec h w.ledger hwf session.tx).1, List.mem_append]
  refine .inr ?_
  unfold Session.outcome at hanswer
  rw [Verifier.published, hanswer]
  simp [Session.tx, Verifier.Call.submission, Verifier.answers]

theorem Inv.chain (hinv : Inv h session s) (event : Verifier.Event Address) :
    Inv h session { s with world := ((Verifier.machine h).step s.world event).2 } := by
  obtain ⟨hwf, hlog⟩ := wellFormed_step (h := h) hinv.wellFormed event
  exact { hinv with
    wellFormed := hwf
    executed := fun w hw =>
      ⟨(hinv.executed w hw).1, fun b hb => hlog ((hinv.executed w hw).2 b hb)⟩ }

/-- A copy of the transaction moves, and perhaps disappears. -/
theorem Inv.move (hinv : Inv h session s) {inFlight queued : ℕ}
    (hout : 0 < s.inFlight ∨ 0 < s.queued) (hmove : inFlight + queued ≤ s.inFlight + s.queued) :
    Inv h session { s with inFlight := inFlight, queued := queued } := by
  have hnot : ¬ s.Settled := by
    rintro ⟨hflight, hqueued⟩
    omega
  exact { hinv with
    once := (Nat.add_le_add_right hmove _).trans hinv.once
    unsent := fun hphase => absurd (hinv.unsent hphase).1 hnot
    ended := fun r hr => (hinv.ended r hr).of_not_settled hnot }

theorem Inv.execute (hinv : Inv h session s) (hqueued : 0 < s.queued) :
    Inv h session { s with
      queued := s.queued - 1
      world := ((Verifier.machine h).step s.world (.tx session.tx)).2
      executions := s.executions ++ [s.world] } := by
  obtain ⟨hwf, hlog⟩ := wellFormed_step (h := h) hinv.wellFormed (.tx session.tx)
  have hnot : ¬ s.Settled := by
    rintro ⟨-, hnone⟩
    omega
  refine ⟨hwf, ?_, fun hphase => absurd (hinv.unsent hphase).1 hnot, ?_,
    fun r hr => (hinv.ended r hr).of_not_settled hnot⟩
  · have honce := hinv.once
    simp only [List.length_append, List.length_singleton]
    omega
  · intro w hw
    rcases List.mem_append.1 hw with hold | hnew
    · exact ⟨(hinv.executed w hold).1, fun b hb => hlog ((hinv.executed w hold).2 b hb)⟩
    · obtain rfl := List.mem_singleton.1 hnew
      exact ⟨hinv.wellFormed, fun b hb => itemEvent_mem hinv.wellFormed hb⟩

/-- The client moves on. -/
theorem Inv.turn (hinv : Inv h session s) {phase : Phase} {simulated : Option (World Address)}
    (hunsent : phase = .network ∨ phase = .account ∨ phase = .prepare → s.Untouched)
    (hended : ∀ r, phase = .done r → Ended h session { s with simulated := simulated } r) :
    Inv h session { s with phase := phase, simulated := simulated } :=
  { hinv with
    unsent := hunsent
    ended := hended }

omit [DecidableEq Address] in
theorem hear_eq (hne : s.phase ≠ .prepare) (a : Answer sdk.ScVal) :
    s.hear sdk session a = { s with phase := resume sdk session.opts.bundle s.phase a } := by
  unfold System.hear
  split
  next hphase _ => exact absurd hphase hne
  next hphase _ => exact absurd hphase hne
  next => rfl

/-- An answer nobody waits for changes nothing. -/
theorem Inv.unheard (hinv : Inv h session s) (a : Answer sdk.ScVal)
    (hsame : resume sdk session.opts.bundle s.phase a = s.phase) :
    Inv h session (s.hear sdk session a) := by
  by_cases hprepare : s.phase = .prepare
  · unfold System.hear
    rw [hsame, hprepare]
    refine hinv.turn (fun _ => hinv.unsent (.inr (.inr hprepare))) fun r hr => ?_
    cases hr
  · rw [hear_eq hprepare, hsame]
    exact hinv

/-- The network of the node: the bundle's, another one, or none that it tells. -/
theorem inv_network (hinv : Inv h session s) (hphase : s.phase = .network)
    {r : Except String String} (htrue : Truthful h sdk session s (.network r)) :
    Inv h session (s.hear sdk session (.network r)) := by
  have huntouched := hinv.unsent (.inl hphase)
  rw [hear_eq (by simp [hphase]), hphase]
  rcases r with message | passphrase
  · refine hinv.turn (fun _ => huntouched) fun r hr => ?_
    cases hr
    exact ended_of_message htrue
  · cases hcheck : assertBundleNetwork session.opts.bundle passphrase with
    | ok u =>
        have hturn : resume sdk session.opts.bundle .network (.network (.ok passphrase))
            = .account := by
          simp [resume, libraryCall, bind, Except.bind, hcheck, ownCall, Phase.after, tryCatch]
        rw [hturn]
        exact hinv.turn (fun _ => huntouched) fun r hr => by cases hr
    | error e =>
        have hturn : resume sdk session.opts.bundle .network (.network (.ok passphrase))
            = .done (.error e) := by
          simp [resume, libraryCall, bind, Except.bind, hcheck, ownCall, Phase.after, tryCatch]
        have hcode : e.code = .networkMismatch := by
          unfold assertBundleNetwork throwIf at hcheck
          split at hcheck
          · cases hcheck
          · split at hcheck
            · cases hcheck
              rfl
            · cases hcheck
        rw [hturn]
        refine hinv.turn (fun _ => huntouched) fun r hr => ?_
        cases hr
        refine ⟨fun hof => ?_, fun _ => huntouched, fun hrejected => ?_⟩
        · exact absurd hof (not_ofContract (by simp [hcode]))
        · rw [hcode] at hrejected
          cases hrejected

theorem inv_account (hinv : Inv h session s) (hphase : s.phase = .account)
    {r : Except String Unit} (htrue : Truthful h sdk session s (.account r)) :
    Inv h session (s.hear sdk session (.account r)) := by
  have huntouched := hinv.unsent (.inr (.inl hphase))
  rw [hear_eq (by simp [hphase]), hphase]
  rcases r with message | _
  · refine hinv.turn (fun _ => huntouched) fun r hr => ?_
    cases hr
    exact ended_of_message htrue
  · exact hinv.turn (fun _ => huntouched) fun r hr => by cases hr

/-- The simulation: its failure tells why the contract refuses, its success sends the
    transaction. -/
theorem inv_prepare (hinv : Inv h session s) (hphase : s.phase = .prepare)
    {r : Except String Unit} (htrue : Truthful h sdk session s (.prepare r)) :
    Inv h session (s.hear sdk session (.prepare r)) := by
  have huntouched := hinv.unsent (.inr (.inr hphase))
  unfold System.hear
  rw [hphase]
  rcases r with message | _
  · refine hinv.turn (fun _ => huntouched) fun r hr => ?_
    cases hr
    rcases htrue with hnone | ⟨cause, hcause, hnames⟩
    · exact ended_of_message hnone
    · rcases code_classifyError message with hsome | ⟨-, hcode⟩
      · rw [extractContractErrorCode_of_names hnames] at hsome
        refine ⟨fun _ => ⟨huntouched, s.world, cause, rfl, hcause, hsome⟩, fun _ => huntouched,
          fun _ => ⟨huntouched.1, fun w hw => ?_⟩⟩
        rw [show s.executions = [] from huntouched.2] at hw
        cases hw
      · exact ended_of_inconclusive hcode
  · obtain ⟨⟨hflight, hqueued⟩, hnone⟩ := huntouched
    refine ⟨hinv.wellFormed, ?_, fun hearly => ?_, hinv.executed, fun r hr => by cases hr⟩
    · show s.inFlight + 1 + s.queued + s.executions.length ≤ 1
      rw [hflight, hqueued, hnone]
      rfl
    · rcases hearly with hearly | hearly | hearly <;> cases hearly

theorem inv_send (hinv : Inv h session s) (hphase : s.phase = .send)
    {r : Except String String} (htrue : Truthful h sdk session s (.send r)) :
    Inv h session (s.hear sdk session (.send r)) := by
  rw [hear_eq (by simp [hphase]), hphase]
  rcases r with message | status
  · refine hinv.turn (fun hearly => ?_) fun r hr => ?_
    · rcases hearly with hearly | hearly | hearly <;> cases hearly
    · cases hr
      exact ended_of_message htrue
  · by_cases hstatus : status = "PENDING" ∨ status = "DUPLICATE"
    · have hturn : resume sdk session.opts.bundle .send (.send (.ok status)) = .poll := by
        rcases hstatus with rfl | rfl <;> rfl
      rw [hturn]
      exact hinv.turn (by simp) fun r hr => by cases hr
    · obtain ⟨hpending, hduplicate⟩ := not_or.1 hstatus
      have hturn : resume sdk session.opts.bundle .send (.send (.ok status))
          = .done (.error (.general ("Transaction submission failed with status " ++ status)
              .transactionRejected)) := by
        simp [resume, libraryCall, bind, Except.bind, checkStatus, hpending, hduplicate,
          Phase.after, tryCatch]
      -- the status turned the transaction away, so there is none
      obtain ⟨hflight, hqueued, hnone⟩ := (htrue.resolve_left hpending).resolve_left hduplicate
      rw [hturn]
      refine hinv.turn (by simp) fun r hr => ?_
      cases hr
      refine ⟨fun hof => ?_, fun hcode => (by cases hcode), fun _ => ⟨⟨hflight, hqueued⟩, ?_⟩⟩
      · exact absurd hof (not_ofContract (by simp [SorobanZkError.code]))
      · intro w hw
        rw [show s.executions = [] from hnone] at hw
        cases hw

omit [DecidableEq Address] in
/-- The record of an execution is read as its answer, or not at all. -/
theorem readVerifyResult_recordOf {record : ParsedRecord sdk.ScVal} {w : World Address} {b : Bool}
    (hrecord : RecordOf sdk record w b) :
    (∃ result, readVerifyResult sdk record = .ok result ∧ result.verified = b ∧
        result.ledger = w.ledger.toNat) ∨
      ∃ message, readVerifyResult sdk record
        = .error (.zk (.general message .contractInvocationFailed)) := by
  obtain ⟨value, hvalue, hnative⟩ := hrecord.returnValue
  have hdecode : decodeVerifyReturnValue sdk record = .ok (some b) := by
    simp [decodeVerifyReturnValue, hvalue, hnative, libraryCall, bind, Except.bind, pure,
      Except.pure, Native.truthy]
  unfold readVerifyResult
  split
  next ledger fee hledger _ =>
    rw [hdecode]
    exact .inl ⟨_, rfl, rfl, hrecord.ledger ledger hledger⟩
  next => exact .inr ⟨_, rfl⟩

/-- The only execution, when one is known of. -/
theorem Inv.only (hinv : Inv h session s) {w : World Address} (hw : w ∈ s.executions) :
    s.Settled ∧ s.executions = [w] := by
  have honce := hinv.once
  have hpos := List.length_pos_of_mem hw
  have hone : s.executions.length = 1 := by omega
  refine ⟨⟨by omega, by omega⟩, ?_⟩
  obtain ⟨v, hv⟩ := List.length_eq_one_iff.1 hone
  rw [hv, List.mem_singleton] at hw
  rw [hv, hw]

theorem inv_poll (hinv : Inv h session s) (hphase : s.phase = .poll)
    {r : Except String (Polled sdk.ScVal)} (htrue : Truthful h sdk session s (.poll r)) :
    Inv h session (s.hear sdk session (.poll r)) := by
  rcases r with message | polled | ⟨txHash, ledger⟩ | record
  · rw [hear_eq (by simp [hphase]), hphase]
    refine hinv.turn (fun hearly => ?_) fun r hr => ?_
    · rcases hearly with hearly | hearly | hearly <;> cases hearly
    · cases hr
      exact ended_of_message htrue
  · exact hinv.unheard _ (by rw [hphase]; rfl)
  · obtain ⟨w, hw, hno⟩ := htrue
    obtain ⟨hsettled, hone⟩ := hinv.only hw
    rw [hear_eq (by simp [hphase]), hphase]
    refine hinv.turn (fun hearly => ?_) fun r hr => ?_
    · rcases hearly with hearly | hearly | hearly <;> cases hearly
    · cases hr
      refine ⟨fun hof => ?_, fun hcode => (by cases hcode), fun _ => ⟨hsettled, ?_⟩⟩
      · exact absurd hof (not_ofContract (by simp [SorobanZkError.code]))
      · intro v hv reply
        rw [show s.executions = [w] from hone, List.mem_singleton] at hv
        rw [hv]
        exact hno reply
  · obtain ⟨w, hw, b, hanswer, hrecord⟩ := htrue
    obtain ⟨hsettled, hone⟩ := hinv.only hw
    rw [hear_eq (by simp [hphase]), hphase]
    rcases readVerifyResult_recordOf hrecord with ⟨result, hread, rfl, hledger⟩ | ⟨message, hread⟩
    · have hturn : resume sdk session.opts.bundle .poll (.poll (.ok (.success record)))
          = .done (.ok result) := by
        simp [resume, libraryCall, bind, Except.bind, pure, Except.pure, readPolled, hread,
          Phase.after, tryCatch]
      rw [hturn]
      refine hinv.turn (by simp) fun r hr => ?_
      cases hr
      exact ⟨hsettled, w, hone, hledger, hanswer⟩
    · have hturn : resume sdk session.opts.bundle .poll (.poll (.ok (.success record)))
          = .done (.error (.general message .contractInvocationFailed)) := by
        simp [resume, libraryCall, bind, Except.bind, readPolled, hread, Phase.after, tryCatch]
      rw [hturn]
      refine hinv.turn (by simp) fun r hr => ?_
      cases hr
      exact ended_of_inconclusive (by simp [SorobanZkError.code])

/-- One truthful answer. -/
theorem inv_hear (hinv : Inv h session s) {a : Answer sdk.ScVal}
    (htrue : Truthful h sdk session s a) : Inv h session (s.hear sdk session a) := by
  cases hphase : s.phase with
  | network =>
      cases a with
      | network r => exact inv_network hinv hphase htrue
      | _ => exact hinv.unheard _ (by rw [hphase]; rfl)
  | account =>
      cases a with
      | account r => exact inv_account hinv hphase htrue
      | _ => exact hinv.unheard _ (by rw [hphase]; rfl)
  | prepare =>
      cases a with
      | prepare r => exact inv_prepare hinv hphase htrue
      | _ => exact hinv.unheard _ (by rw [hphase]; rfl)
  | send =>
      cases a with
      | send r => exact inv_send hinv hphase htrue
      | _ => exact hinv.unheard _ (by rw [hphase]; rfl)
  | poll =>
      cases a with
      | poll r => exact inv_poll hinv hphase htrue
      | timeUp =>
          rw [hear_eq (by simp [hphase]), hphase]
          refine hinv.turn (by simp [resume]) fun r hr => ?_
          cases hr
          exact ended_of_inconclusive (by simp [SorobanZkError.code, timedOut])
      | _ => exact hinv.unheard _ (by rw [hphase]; rfl)
  | done r => exact hinv.unheard _ (by rw [hphase]; rfl)

/-- One honest step of anything. -/
theorem inv_step (hinv : Inv h session s) {action : Action sdk.ScVal Address}
    (hhonest : Honest h sdk session s action) :
    Inv h session ((network h sdk session).step s action).2 := by
  cases action with
  | chain event => exact hinv.chain event
  | answer a => exact inv_hear hinv hhonest
  | arrive =>
      refine hinv.move (.inl hhonest) ?_
      have hpos : 0 < s.inFlight := hhonest
      omega
  | lose => exact hinv.move (.inl hhonest) (Nat.add_le_add_right (Nat.sub_le _ _) _)
  | execute => exact hinv.execute hhonest
  | drop => exact hinv.move (.inr hhonest) (Nat.add_le_add_left (Nat.sub_le _ _) _)

end Step

/-! ## Whole runs -/

section Runs

variable {h : Host} {sdk : StellarSdk} {session : Session Address}

/-- Where the client stands depends on the answers alone. -/
theorem phase_run (s : System Address) (actions : List (Action sdk.ScVal Address)) :
    ((network h sdk session).run s actions).phase
      = (answersIn actions).foldl (resume sdk session.opts.bundle) s.phase := by
  induction actions generalizing s with
  | nil => rfl
  | cons action actions ih =>
      rw [Machine.run, ih]
      cases action with
      | answer a =>
          have hphase : (s.hear sdk session a).phase
              = resume sdk session.opts.bundle s.phase a := by
            unfold System.hear
            split
            next hresume => exact hresume.symm
            next => rfl
            next => rfl
          show (answersIn actions).foldl _ (s.hear sdk session a).phase = _
          rw [hphase]
          rfl
      | _ => rfl

/-- A client that has ended has returned or thrown what `verifyOnChain` does with the node. -/
theorem verifyOnChain_of_done {node : Node sdk.ScVal}
    {actions : List (Action sdk.ScVal Address)} (hanswers : answersIn actions <+: node.answers)
    {w : World Address} {r : Except SorobanZkError VerifyResult}
    (hdone : ((network h sdk session).run (.start w) actions).phase = .done r) :
    verifyOnChain sdk node session.opts = liftZk r := by
  obtain ⟨calldata, hresolve, hvalid, -⟩ := session.formatted
  obtain ⟨rest, hrest⟩ := hanswers
  obtain ⟨r', hfold, hreturn⟩ : ∃ r',
      node.answers.foldl (resume sdk session.opts.bundle) .network = .done r' ∧
        verifyOnChain sdk node session.opts = liftZk r' := foldl_resume hresolve hvalid
  rw [phase_run] at hdone
  rw [← hrest, List.foldl_append] at hfold
  rw [show Phase.network = (System.start w).phase from rfl, hdone, foldl_done] at hfold
  rw [hreturn, Phase.done.inj hfold]

theorem inv_start {w : World Address} (hw : Verifier.Deployed h w) :
    Inv h session (.start w) where
  wellFormed := Verifier.wellFormed_of_deployed hw
  once := Nat.zero_le 1
  unsent _ := ⟨⟨rfl, rfl⟩, rfl⟩
  executed w hw := by cases hw
  ended r hr := by cases hr

/-- The proof is in date and satisfies the equation under the contract's key. -/
def Proved (h : Host) (w : World Address) (item : ProofItem) : Prop :=
  ∃ vk K π publicInput, w.state.vk = some vk ∧ vk.points h = some K ∧ item.points h = some π ∧
    item.kind w.ledger = .inDate publicInput ∧
    Groth16.Accepts h.pairing K π [Fr.fromBytes publicInput]

theorem proved_of_outcome {w : World Address} (hwf : Verifier.WellFormed w.state)
    (htrue : session.outcome h w = .ok (.flag true)) : Proved h w session.item := by
  have hverified : session.item ∈ Verifier.verifiedBy
      ⟨w, .tx session.tx, some (Verifier.exec h w.ledger w.state session.tx).1⟩ := by
    unfold Session.outcome at htrue
    rw [Verifier.verifiedBy, htrue]
    simp [Verifier.Event.items, Session.tx, Verifier.Call.submission, Verifier.answers]
  obtain ⟨-, vk, hvk, hverifies⟩ := Verifier.validSubmission_of_verifiedBy hwf session.tx hverified
  obtain ⟨limits, vk', hcfg⟩ := hwf.configured
  obtain rfl : vk' = vk := Option.some.inj (hcfg.vk_eq.symm.trans hvk)
  have hverdict : Verifier.itemVerdict h w.ledger vk' session.item = some (.ok true) := by
    unfold ProofItem.verifies Verifier.okVerdict at hverifies
    split at hverifies
    next heq => exact heq
    next => cases hverifies
  unfold Verifier.itemVerdict at hverdict
  split at hverdict
  · split at hverdict
    · cases hverdict
    · cases hverdict
    · next publicInput hkind =>
        obtain ⟨v, hv, hvtrue⟩ := Option.map_eq_some_iff.1 hverdict
        cases hvtrue
        obtain ⟨π, K, hπ, hK, haccepts⟩ := (Verifier.pairingVerdict_eq_some_iff hcfg.arity).1 hv
        exact ⟨vk', K, π, publicInput, hvk, hK, hπ, hkind, haccepts.1 rfl⟩
  · cases hverdict

end Runs

/-- **What a submission tells.** Take any interleaving of a call of `verifyOnChain` to a node that
    answers truthfully with the network, which may lose, delay and drop the transaction, and with
    other transactions on the chain. The transaction is executed at most once. When the client has
    ended, with what `verifyOnChain` returns or throws, a result is the answer of that execution,
    which is in the event log, and a verified proof is valid under the key the contract then had.
    The error of a contract is that of the simulation; after it and on another network nothing was
    or ever will be executed, and after a rejection no execution ended with an answer. -/
theorem submission_sound (h : Host) (sdk : StellarSdk) (session : Session Address)
    (w : World Address) (hw : Verifier.Deployed h w) (node : Node sdk.ScVal)
    (actions : List (Action sdk.ScVal Address)) (hanswers : answersIn actions <+: node.answers)
    (hhonest : (network h sdk session).Guarded (Honest h sdk session) (.start w) actions) :
    let s := (network h sdk session).run (.start w) actions
    s.executions.length ≤ 1 ∧ ∀ r, s.phase = .done r →
      verifyOnChain sdk node session.opts = liftZk r ∧ Ended h session s r ∧
        ∀ result, r = .ok result →
          Verifier.itemEvent h session.caller session.item result.verified
              ∈ s.world.state.events ∧
            (result.verified = true → ∃ v ∈ s.executions, Proved h v session.item) := by
  intro s
  have hinv : Inv h session s := hhonest.run_induction (inv_start hw)
    fun _ _ hstep hprev => inv_step hprev hstep
  refine ⟨(Nat.le_add_left _ _).trans hinv.once, fun r hr => ?_⟩
  refine ⟨verifyOnChain_of_done hanswers hr, hinv.ended r hr, fun result hresult => ?_⟩
  subst hresult
  obtain ⟨-, v, hone, -, hanswer⟩ := hinv.ended _ hr
  have hmem : v ∈ s.executions := by rw [hone]; exact List.mem_singleton_self v
  obtain ⟨hwf, hlog⟩ := hinv.executed v hmem
  refine ⟨hlog _ hanswer, fun hverified => ⟨v, hmem, proved_of_outcome hwf ?_⟩⟩
  rw [hanswer, hverified]

/-- A call with the all-zero proof for the input 7, until ledger 100. -/
def zeroSession : Session Unit where
  opts := ⟨some { zeroCalldata 7 with publicInputs := [toBe 32 7, toBe 32 100] }, none⟩
  caller := ()
  item := Verifier.zeroItem 7 100
  formatted := ⟨_, rfl, by decide +kernel, by decide +kernel⟩

/-- A node that finds the transaction in ledger 60, at the second poll. -/
def delayingNode : Node Native where
  getNetwork := .ok "network"
  getAccount := .ok ()
  prepareTransaction := .ok ()
  sendTransaction := .ok "PENDING"
  getTransaction := [.ok .notFound,
    .ok (.success ⟨"hash", some 60, some "100", some (.boolean true), none⟩)]

/-- Another proof comes first, and ten ledgers pass between the polls. -/
def delayedRun : List (Action Native Unit) :=
  [.answer (.network (.ok "network")), .answer (.account (.ok ())),
    .answer (.prepare (.ok ())), .arrive,
    .chain (.tx (Verifier.signed (.verifyProof () (Verifier.zeroItem 8 100)))),
    .answer (.send (.ok "PENDING")), .answer (.poll (.ok .notFound)), .chain (.advance 60),
    .execute, .answer (.poll (.ok
      (.success ⟨"hash", some 60, some "100", some (.boolean true), none⟩)))]

/-- The result is the answer of the execution in ledger 60. -/
theorem submission_sound_delayed :
    let s := (network Host.scalar StellarSdk.sample zeroSession).run
      (.start ⟨50, Verifier.zeroState 5 17280⟩) delayedRun
    verifyOnChain StellarSdk.sample delayingNode zeroSession.opts = .ok ⟨true, "hash", 60, "100"⟩ ∧
      ∃ v ∈ s.executions, Proved Host.scalar v (Verifier.zeroItem 7 100) := by
  intro s
  have hhonest : (network Host.scalar StellarSdk.sample zeroSession).Guarded
      (Honest Host.scalar StellarSdk.sample zeroSession)
      (.start ⟨50, Verifier.zeroState 5 17280⟩) delayedRun := by
    refine ⟨trivial, trivial, ⟨.flag true, by decide +kernel⟩, Nat.one_pos, trivial, .inl rfl,
      trivial, trivial, Nat.one_pos, ⟨_, List.mem_singleton_self _, true, by decide +kernel, ?_⟩,
      trivial⟩
    exact ⟨⟨_, rfl, rfl⟩, by decide +kernel⟩
  obtain ⟨hreturn, -, htells⟩ := (submission_sound Host.scalar StellarSdk.sample zeroSession
    ⟨50, Verifier.zeroState 5 17280⟩ (Verifier.deployed_zero 50 5 (by decide) []) delayingNode
    delayedRun ⟨[.timeUp], rfl⟩ hhonest).2 (.ok ⟨true, "hash", 60, "100"⟩) rfl
  exact ⟨hreturn, (htells _ rfl).2 rfl⟩

end ZkStellar.Sdk.Submission

import ZkStellar.Lib.Simulation
import ZkStellar.Verifier.Events
import ZkStellar.Verifier.RateLimit
import Mathlib.Data.Set.Insert

set_option autoImplicit false

/-! # What the verifier is for

The verifier without its encodings: no hashes, no storage entries that expire. Passes of the rate
limiter are numbers for every caller and window that are kept for ever, every answer goes into a log
with the item it was about, and an item has been verified as often as the log says. The contract
refines it (`verifier_refines`) for as long as the window never grows and the host grants the
lifetimes it is asked for: then an entry of the limiter is never missed after it has expired. -/

namespace ZkStellar.Verifier

variable {Address : Type}

namespace Abstract

/-! ## The abstract verifier -/

/-- An answer to an item. -/
structure Answer (Address : Type) where
  caller : Address
  item : ProofItem
  success : Bool

/-- Its state. `passes` is the number of calls let through for a caller in the window with a given
    start; the log is oldest first. -/
structure State (Address : Type) where
  admin : Address
  pending : Option Address
  paused : Bool
  allowlistEnabled : Bool
  allowed : Set Address
  limits : Limits
  vk : VerifyingKey
  passes : Address → UInt32 → ℕ
  log : List (Answer Address)

/-- A verifier just constructed. -/
def initial (admin : Address) (limits : Limits) (vk : VerifyingKey) : State Address where
  admin := admin
  pending := none
  paused := false
  allowlistEnabled := false
  allowed := ∅
  limits := limits
  vk := vk
  passes := fun _ _ => 0
  log := []

/-- The start of the window a ledger lies in. -/
def State.window (a : State Address) (ledger : UInt32) : UInt32 :=
  currentWindow ledger a.limits.windowSize

/-- How often these inputs were verified. -/
def State.successes (a : State Address) (publicInputs : List (BytesN 32)) : ℕ :=
  a.log.countP fun answer => answer.success ∧ answer.item.publicInputs = publicInputs

open Classical in
/-- Who is let in: nobody while the contract is paused, only listed callers while the allowlist is
    on. -/
noncomputable def State.access (a : State Address) (caller : Address) : Except Error Unit :=
  if a.paused then .error .contractPaused
  else if a.allowlistEnabled ∧ caller ∉ a.allowed then .error .callerNotAllowed
  else .ok ()

open Classical in
/-- The verdict on an item: a point that cannot be parsed traps, an expiry that has passed is an
    error, and an item in date is decided by the Groth16 equation. -/
noncomputable def verdict (h : Host) (ledger : UInt32) (vk : VerifyingKey) (item : ProofItem) :
    Option (Except Error Bool) :=
  if item.WellSized then
    match item.kind ledger with
    | .malformed => some (.ok false)
    | .expired => some (.error .proofExpired)
    | .inDate publicInput =>
        match item.points h, vk.points h with
        | some π, some K =>
            some (.ok (decide (Groth16.Accepts h.pairing K π [Fr.fromBytes publicInput])))
        | _, _ => none
  else none

/-- Log an answer. -/
def State.record (a : State Address) (caller : Address) (item : ProofItem) (success : Bool) :
    State Address :=
  { a with log := a.log ++ [⟨caller, item, success⟩] }

variable [DecidableEq Address]

/-- Count a pass. -/
def State.pass (a : State Address) (caller : Address) (start : UInt32) : State Address :=
  { a with
    passes := Function.update a.passes caller
      (Function.update (a.passes caller) start (a.passes caller start + 1)) }

/-- Try one item: access, the limit of the window, the verdict. The counters of the contract have
    32 and 64 bits, and it traps where they end. -/
noncomputable def attempt (h : Host) (ledger : UInt32) (caller : Address) (item : ProofItem)
    (a : State Address) : Option (Except Error Bool × State Address) :=
  match a.access caller with
  | .error e => some (.error e, a)
  | .ok () =>
      if a.passes caller (a.window ledger) + 1 = 2 ^ 32 then none
      else if a.limits.maxCalls.toNat ≤ a.passes caller (a.window ledger) then
        some (.error .rateLimitExceeded, a)
      else
        match verdict h ledger a.vk item with
        | none => none
        | some (.ok true) =>
            if a.successes item.publicInputs + 1 < 2 ^ 64 then
              some (.ok true, a.pass caller (a.window ledger))
            else none
        | some r => some (r, a.pass caller (a.window ledger))

/-- Try the items of a batch in turn; an error counts as `false`. -/
noncomputable def settle (h : Host) (ledger : UInt32) (caller : Address) :
    List ProofItem → State Address → Option (List Bool × State Address)
  | [], a => some ([], a)
  | item :: proofs, a =>
      match attempt h ledger caller item a with
      | none => none
      | some (r, a') =>
          (settle h ledger caller proofs (a'.record caller item (flagOf r))).map
            fun (bs, a) => (flagOf r :: bs, a)

/-- An admin call: its argument must pass a check, and the admin must have authorised it. -/
def guarded (check : Except Error Unit) (auth : Bool) (a update : State Address) :
    Outcome Error Reply × State Address :=
  match check with
  | .error e => (.err e, a)
  | .ok () => if auth then (.ok .unit, update) else (.trap, a)

/-- One transaction. -/
noncomputable def exec (h : Host) (ledger : UInt32) (a : State Address) (tx : Tx Address) :
    Outcome Error Reply × State Address :=
  let byAdmin := tx.auth a.admin
  match tx.call with
  | .setLimits m w =>
      guarded (if w = 0 then .error .invalidWindowSize else .ok ()) byAdmin a
        { a with limits := ⟨m, w⟩ }
  | .updateVk vk =>
      guarded
        (if vk.ic.length = expectedPublicInputCount then .ok () else .error .invalidVerifyingKey)
        byAdmin a { a with vk := vk }
  | .setAllowlistMode b => guarded (.ok ()) byAdmin a { a with allowlistEnabled := b }
  | .addToAllowlist addr => guarded (.ok ()) byAdmin a { a with allowed := insert addr a.allowed }
  | .removeFromAllowlist addr => guarded (.ok ()) byAdmin a { a with allowed := a.allowed \ {addr} }
  | .proposeAdmin new => guarded (.ok ()) byAdmin a { a with pending := some new }
  | .acceptAdmin =>
      match a.pending with
      | none => (.err .noPendingAdmin, a)
      | some new => guarded (.ok ()) (tx.auth new) a { a with admin := new, pending := none }
  | .setPaused b => guarded (.ok ()) byAdmin a { a with paused := b }
  | .verifyProof caller item =>
      if tx.auth caller then
        match attempt h ledger caller item a with
        | none => (.trap, a)
        | some (.error e, _) => (.err e, a)
        | some (.ok b, a') => (.ok (.flag b), a'.record caller item b)
      else (.trap, a)
  | .verifyBatch caller proofs =>
      if tx.auth caller then
        if a.paused ∧ proofs ≠ [] then (.err .contractPaused, a)
        else
          match settle h ledger caller proofs a with
          | none => (.trap, a)
          | some (bs, a') => (.ok (.flags bs), a')
      else (.trap, a)

/-- The abstract verifier at a ledger. -/
structure World (Address : Type) where
  ledger : UInt32
  state : State Address

/-- The abstract verifier as a machine. -/
noncomputable def machine (h : Host) :
    Machine (World Address) (Event Address) (Option (Outcome Error Reply)) where
  step w
    | .advance target => (none, { w with ledger := max w.ledger target })
    | .tx tx =>
        (some (exec h w.ledger w.state tx).1, { w with state := (exec h w.ledger w.state tx).2 })

end Abstract

/-! ## The representation -/

variable {h : Host}

/-- The entry of the limiter for a caller and a window stands for a number of passes, and can be
    read until so many ledgers after the start of the window. -/
def Holds (ledger windowSize : UInt32) (passes : ℕ) (start : UInt32) :
    Option (TempEntry UInt32) → Prop
  | none => passes = 0
  | some e => e.val.toNat = passes ∧
      ∀ l, ledger ≤ l → l.toNat ≤ start.toNat + windowSize.toNat → l ≤ e.liveUntil

theorem Holds.callCount_eq {s : State Address} {ledger windowSize start : UInt32} {n : ℕ}
    {caller : Address}
    (hholds : Holds ledger windowSize n start (s.temporary.get (.callCount caller start)))
    (hle : ledger.toNat ≤ start.toNat + windowSize.toNat) :
    (s.callCount ledger caller start).toNat = n := by
  unfold State.callCount
  rcases hentry : s.temporary.get (.callCount caller start) with _ | e
  · rw [hentry] at hholds
    simp only [TempStore.read, hentry]
    exact hholds.symm
  · rw [hentry] at hholds
    rw [TempStore.read_eq_some hentry (hholds.2 ledger (UInt32.le_refl _) hle)]
    exact hholds.1

/-- Later and under a smaller window an entry stands for the same passes. -/
theorem Holds.mono {ledger ledger' windowSize windowSize' start : UInt32} {n : ℕ}
    {entry : Option (TempEntry UInt32)} (hholds : Holds ledger windowSize n start entry)
    (hledger : ledger ≤ ledger') (hsize : windowSize' ≤ windowSize) :
    Holds ledger' windowSize' n start entry := by
  rcases entry with _ | e
  · exact hholds
  · refine ⟨hholds.1, fun l hl hcover => hholds.2 l (UInt32.le_trans hledger hl) ?_⟩
    exact hcover.trans (Nat.add_le_add_left (UInt32.le_iff_toNat_le.1 hsize) _)

/-- The contract's state `s` represents the abstract state `a` at a ledger; the logged items are
    among `items`. -/
structure Represents (h : Host) (items : List ProofItem) (ledger : UInt32) (s : State Address)
    (a : Abstract.State Address) : Prop where
  configured : Configured s a.limits a.vk
  admin : s.admin = some a.admin
  pending : s.pendingAdmin = a.pending
  paused : s.isPaused = a.paused
  allowlistEnabled : s.allowlistEnabled = a.allowlistEnabled
  allowed : ∀ addr, s.isAllowlisted addr = true ↔ addr ∈ a.allowed
  passes : ∀ caller start, Holds ledger a.limits.windowSize (a.passes caller start) start
    (s.temporary.get (.callCount caller start))
  counts : ∀ x, (s.verificationCount x).toNat
    = a.log.countP fun answer => answer.success ∧ answer.item.inputsHash h = x
  logged : ∀ answer ∈ a.log, answer.item ∈ items
  events : s.events = a.log.map fun answer => itemEvent h answer.caller answer.item answer.success

open Classical in
/-- Under a key for two inputs the contract's pairing check has the verdict of the equation. -/
theorem pairingVerdict_map_ok {vk : VerifyingKey} (hlen : vk.ic.length = expectedPublicInputCount)
    (item : ProofItem) (publicInput : BytesN 32) :
    (pairingVerdict h vk item publicInput).map (Except.ok : Bool → Except Error Bool)
      = match item.points h, vk.points h with
        | some π, some K =>
            some (.ok (decide (Groth16.Accepts h.pairing K π [Fr.fromBytes publicInput])))
        | _, _ => none := by
  cases hverdict : pairingVerdict h vk item publicInput with
  | some v =>
      obtain ⟨π, K, hπ, hK, hv⟩ := (pairingVerdict_eq_some_iff hlen).1 hverdict
      rw [hπ, hK]
      refine congrArg (fun b => some (Except.ok b)) ?_
      rw [Bool.eq_iff_iff, hv, decide_eq_true_iff]
  | none =>
      split
      next π K hπ hK =>
        have hsome := (pairingVerdict_eq_some_iff (h := h) hlen
          (v := decide (Groth16.Accepts h.pairing K π [Fr.fromBytes publicInput]))).2
          ⟨π, K, hπ, hK, decide_eq_true_iff⟩
        rw [hverdict] at hsome
        cases hsome
      next => rfl

theorem itemVerdict_eq_verdict (ledger : UInt32) {vk : VerifyingKey}
    (hlen : vk.ic.length = expectedPublicInputCount) (item : ProofItem) :
    itemVerdict h ledger vk item = Abstract.verdict h ledger vk item := by
  unfold itemVerdict Abstract.verdict
  split
  · cases item.kind ledger with
    | malformed => rfl
    | expired => rfl
    | inDate publicInput => exact pairingVerdict_map_ok hlen item publicInput
  · rfl

/-- The messages hashed for the counters of some items. -/
def inputMessages (items : List ProofItem) : List Bytes :=
  items.map fun item => concatBytes item.publicInputs

theorem publicInputs_eq_of_inputsHash_eq {items : List ProofItem}
    (hfree : h.CollisionFree (inputMessages items)) {a b : ProofItem} (ha : a ∈ items)
    (hb : b ∈ items) (heq : a.inputsHash h = b.inputsHash h) : a.publicInputs = b.publicInputs :=
  concatBytes_injective (by norm_num)
    (hfree _ (List.mem_map.2 ⟨a, ha, rfl⟩) _ (List.mem_map.2 ⟨b, hb, rfl⟩) heq)

theorem le_currentWindow_add (ledger windowSize : UInt32) (hsize : windowSize ≠ 0) :
    (currentWindow ledger windowSize).toNat ≤ ledger.toNat ∧
      ledger.toNat ≤ (currentWindow ledger windowSize).toNat + windowSize.toNat := by
  have hpos : 0 < windowSize.toNat := Nat.pos_of_ne_zero fun hzero => hsize (by
    rw [← UInt32.toNat_inj, hzero]; rfl)
  rw [toNat_currentWindow]
  have hlt := Nat.lt_div_mul_add (a := ledger.toNat) hpos
  have hle := Nat.div_mul_le_self ledger.toNat windowSize.toNat
  omega

/-- The limiter on the count of the current window. -/
theorem countCall_eq_counted [DecidableEq Address] {ledger : UInt32} {s : State Address}
    {limits : Limits} {vk : VerifyingKey} (hcfg : Configured s limits vk) (caller : Address) :
    countCall h ledger limits caller s
      = if s.windowCount ledger caller limits = maxCount then none
        else if limits.maxCalls ≤ s.windowCount ledger caller limits then
          some (.error .rateLimitExceeded, s)
        else if h.canExtend ledger limits.windowSize then
          some (.ok (), counted h ledger caller limits s)
        else none :=
  countCall_eq hcfg.windowSize_ne caller

theorem afterRecord_eq [DecidableEq Address] {item : ProofItem} {s : State Address} :
    afterRecord h item s
      = if (s.verificationCount (item.inputsHash h)).toNat + 1 < 2 ^ 64 then
          some (recorded h item s)
        else none := by
  split
  next hlt => exact afterRecord_eq_some.2 ⟨hlt, rfl⟩
  next hend =>
    rw [Option.eq_none_iff_forall_ne_some]
    intro s' hs'
    exact hend (afterRecord_eq_some.1 hs').1

namespace Represents

variable {items : List ProofItem} {ledger : UInt32} {s : State Address}
  {a : Abstract.State Address} {item : ProofItem}

theorem access_eq (hrep : Represents h items ledger s a) (caller : Address) :
    checkAccess s caller = a.access caller := by
  classical
  rw [checkAccess, Abstract.State.access, hrep.paused, hrep.allowlistEnabled]
  by_cases hin : caller ∈ a.allowed
  · simp [(hrep.allowed caller).2 hin, hin]
  · have hout : s.isAllowlisted caller = false :=
      Bool.eq_false_iff.2 fun hyes => hin ((hrep.allowed caller).1 hyes)
    simp [hout, hin]

/-- The entry for the current window is read as the number of passes. -/
theorem windowCount_eq (hrep : Represents h items ledger s a) (caller : Address) :
    (s.windowCount ledger caller a.limits).toNat = a.passes caller (a.window ledger) := by
  have hbounds := le_currentWindow_add ledger a.limits.windowSize hrep.configured.windowSize_ne
  exact (hrep.passes caller (a.window ledger)).callCount_eq hbounds.2

/-- Without collisions the counter of an item's inputs is the number of times they were verified. -/
theorem verificationCount_eq (hrep : Represents h items ledger s a)
    (hfree : h.CollisionFree (inputMessages items)) (hmem : item ∈ items) :
    (s.verificationCount (item.inputsHash h)).toNat = a.successes item.publicInputs := by
  rw [hrep.counts, Abstract.State.successes]
  refine List.countP_congr fun answer hanswer => ?_
  simp only [decide_eq_true_iff]
  refine and_congr_right fun _ => ⟨fun heq => ?_, fun heq => ?_⟩
  · exact publicInputs_eq_of_inputsHash_eq hfree (hrep.logged answer hanswer) hmem heq
  · rw [ProofItem.inputsHash, heq]
    rfl

/-! ### One item -/

theorem record_false (hrep : Represents h items ledger s a) (hmem : item ∈ items)
    (caller : Address) :
    Represents h items ledger (publishVerificationResult h caller false item.publicInputs s)
      (a.record caller item false) :=
  { hrep with
    configured := hrep.configured.of_frame frame_of_publish
    counts := fun x => by
      rw [Abstract.State.record, List.countP_append]
      exact (hrep.counts x).trans (by simp)
    logged := fun answer hanswer => by
      rcases List.mem_append.1 hanswer with hold | hnew
      · exact hrep.logged answer hold
      · rw [List.mem_singleton.1 hnew]
        exact hmem
    events := by
      rw [publishVerificationResult, State.publish, Abstract.State.record, List.map_append,
        ← hrep.events]
      rfl }

variable [DecidableEq Address]

theorem record_true (hrep : Represents h items ledger s a) (hmem : item ∈ items)
    (hroom : (s.verificationCount (item.inputsHash h)).toNat + 1 < 2 ^ 64) (caller : Address) :
    Represents h items ledger
      (publishVerificationResult h caller true item.publicInputs (recorded h item s))
      (a.record caller item true) := by
  have hframe : Frame s (recorded h item s) := by
    intro k hk
    exact Store.get_set_of_ne _ _ (hk _)
  exact {
    configured := hrep.configured.of_frame hframe
    admin := hframe.admin.trans hrep.admin
    pending := (hframe .pendingAdmin (by simp)).trans hrep.pending
    paused := hframe.isPaused.trans hrep.paused
    allowlistEnabled := hframe.allowlistEnabled.trans hrep.allowlistEnabled
    allowed := fun addr => by
      show (recorded h item s).isAllowlisted addr = true ↔ addr ∈ a.allowed
      rw [hframe.isAllowlisted, hrep.allowed]
    passes := hrep.passes
    counts := fun x => by
      rw [Abstract.State.record, List.countP_append, ← hrep.counts]
      refine (toNat_verificationCount_recorded hroom x).trans ?_
      simp [List.countP_singleton]
    logged := fun answer hanswer => by
      rcases List.mem_append.1 hanswer with hold | hnew
      · exact hrep.logged answer hold
      · rw [List.mem_singleton.1 hnew]
        exact hmem
    events := by
      rw [publishVerificationResult, State.publish, Abstract.State.record, List.map_append,
        ← hrep.events]
      rfl }

/-- The entry written for a counted call stands for one pass more. -/
theorem holds_counted (hrep : Represents h items ledger s a)
    (hgranted : h.canExtend ledger a.limits.windowSize = true) {caller : Address}
    (hmax : s.windowCount ledger caller a.limits ≠ maxCount) :
    Holds ledger a.limits.windowSize (a.passes caller (a.window ledger) + 1) (a.window ledger)
      ((counted h ledger caller a.limits s).temporary.get
        (.callCount caller (a.window ledger))) := by
  have hstart := (le_currentWindow_add ledger a.limits.windowSize
    hrep.configured.windowSize_ne).1
  have hget : (counted h ledger caller a.limits s).temporary.get
      (.callCount caller (a.window ledger)) = some ⟨s.windowCount ledger caller a.limits + 1, _⟩ :=
    setCallCount_get_self
  rw [hget]
  refine ⟨?_, fun l hl hle => h.le_extendedUntil _ _ _ _ hgranted hl (hle.trans ?_)⟩
  · rw [← hrep.windowCount_eq caller]
    exact toNat_add_one_of_ne hmax
  · exact Nat.add_le_add_right hstart _

/-- A counted call is one more pass in both. -/
theorem pass (hrep : Represents h items ledger s a)
    (hgranted : h.canExtend ledger a.limits.windowSize = true) (caller : Address)
    (hmax : s.windowCount ledger caller a.limits ≠ maxCount) :
    Represents h items ledger (counted h ledger caller a.limits s)
      (a.pass caller (a.window ledger)) :=
  { hrep with
    configured := hrep.configured.of_frame (.of_instanceStorage rfl)
    passes := fun caller' start => by
      show Holds ledger a.limits.windowSize (Function.update a.passes caller (Function.update
        (a.passes caller) (a.window ledger) (a.passes caller (a.window ledger) + 1)) caller' start)
        start _
      by_cases hkey : caller' = caller ∧ start = a.window ledger
      · rcases hkey with ⟨rfl, rfl⟩
        rw [Function.update_self, Function.update_self]
        exact hrep.holds_counted hgranted hmax
      · have hget : (counted h ledger caller a.limits s).temporary.get (.callCount caller' start)
            = s.temporary.get (.callCount caller' start) :=
          setCallCount_get_of_ne fun heq => by
            injection heq with hcaller hstart
            exact hkey ⟨hcaller, hstart⟩
        have hpasses : Function.update a.passes caller (Function.update (a.passes caller)
            (a.window ledger) (a.passes caller (a.window ledger) + 1)) caller' start
            = a.passes caller' start := by
          rcases eq_or_ne caller' caller with rfl | hcaller
          · rw [Function.update_self, Function.update_of_ne fun hstart => hkey ⟨rfl, hstart⟩]
          · rw [Function.update_of_ne hcaller]
        rw [hget, hpasses]
        exact hrep.passes caller' start }

/-- One item ends the same way in both, and what the next item of a batch finds corresponds. -/
theorem verifyOne_eq (hrep : Represents h items ledger s a)
    (hfree : h.CollisionFree (inputMessages items)) (hmem : item ∈ items)
    (hgranted : h.canExtend ledger a.limits.windowSize = true) (caller : Address) :
    (verifyOne h ledger caller item s = none ∧ Abstract.attempt h ledger caller item a = none) ∨
      ∃ r s' a', verifyOne h ledger caller item s = some (r, s') ∧
        Abstract.attempt h ledger caller item a = some (r, a') ∧
        Represents h items ledger (settleBatch h caller item r s s')
          (a'.record caller item (flagOf r)) := by
  have hcfg := hrep.configured
  rw [Verifier.verifyOne_eq hcfg, hrep.access_eq, Abstract.attempt]
  cases a.access caller with
  | error e => exact .inr ⟨.error e, s, a, rfl, rfl, hrep.record_false hmem caller⟩
  | ok _ =>
      have hlimiter : countCall h ledger a.limits caller s = _ := countCall_eq_counted hcfg caller
      have hpasses := hrep.windowCount_eq caller
      rw [hlimiter]
      by_cases hmax : s.windowCount ledger caller a.limits = maxCount
      · refine .inl ⟨by simp only [hmax, if_true], ?_⟩
        rw [hmax] at hpasses
        simp only [← hpasses]
        rfl
      have hne : ¬ a.passes caller (a.window ledger) + 1 = 2 ^ 32 := by
        rw [← hpasses]
        intro hend
        exact hmax (UInt32.toNat_inj.1 (Nat.succ.inj hend))
      simp only [hmax, if_false, hne]
      by_cases hfull : a.limits.maxCalls ≤ s.windowCount ledger caller a.limits
      · have hfull' : a.limits.maxCalls.toNat ≤ a.passes caller (a.window ledger) := by
          rw [← hpasses]
          exact UInt32.le_iff_toNat_le.1 hfull
        simp only [hfull, hfull', if_true]
        exact .inr ⟨_, s, a, rfl, rfl, hrep.record_false hmem caller⟩
      have hroom' : ¬ a.limits.maxCalls.toNat ≤ a.passes caller (a.window ledger) := by
        rw [← hpasses]
        exact fun hle => hfull (UInt32.le_iff_toNat_le.2 hle)
      -- the call is counted, and the verdict decides
      have hrep' := hrep.pass hgranted caller hmax
      simp only [hfull, hroom', if_false, hgranted, if_true,
        itemVerdict_eq_verdict ledger hcfg.arity]
      rcases Abstract.verdict h ledger a.vk item with _ | e | _ | _
      · exact .inl ⟨rfl, rfl⟩
      · exact .inr ⟨.error e, _, _, rfl, rfl, hrep'.record_false hmem caller⟩
      · exact .inr ⟨.ok false, _, _, rfl, rfl, hrep'.record_false hmem caller⟩
      · have hcounter : ((counted h ledger caller a.limits s).verificationCount
            (item.inputsHash h)).toNat = a.successes item.publicInputs :=
          hrep'.verificationCount_eq hfree hmem
        simp only [afterRecord_eq, hcounter]
        by_cases hlt : a.successes item.publicInputs + 1 < 2 ^ 64
        · simp only [if_pos hlt]
          rw [← hcounter] at hlt
          exact .inr ⟨.ok true, _, _, rfl, rfl, hrep'.record_true hmem hlt caller⟩
        · simp only [if_neg hlt]
          exact .inl ⟨rfl, trivial⟩

/-! ### A batch -/

omit [DecidableEq Address] in
theorem limits_eq (hrep : Represents h items ledger s a) : s.limits = some a.limits :=
  hrep.configured.limits_eq

/-- A batch that is not turned away is settled in both with one result. -/
theorem submitAll_eq (hfree : h.CollisionFree (inputMessages items)) {proofs : List ProofItem}
    (hmem : ∀ item ∈ proofs, item ∈ items) (hrep : Represents h items ledger s a)
    (hgranted : h.canExtend ledger a.limits.windowSize = true) (caller : Address) :
    (submitAll h ledger caller (settleBatch h caller) proofs s = none ∧
        Abstract.settle h ledger caller proofs a = none) ∨
      ∃ bs s' a', submitAll h ledger caller (settleBatch h caller) proofs s = some (bs, s') ∧
        Abstract.settle h ledger caller proofs a = some (bs, a') ∧
        Represents h items ledger s' a' := by
  induction proofs generalizing s a with
  | nil => exact .inr ⟨[], s, a, rfl, rfl, hrep⟩
  | cons item proofs ih =>
      simp only [submitAll, Abstract.settle]
      rcases hrep.verifyOne_eq hfree (hmem item List.mem_cons_self) hgranted caller with
        ⟨hs, ha⟩ | ⟨r, s₁, a₁, hs, ha, hrep₁⟩
      · exact .inl ⟨by rw [hs], by rw [ha]⟩
      -- the limits the rest of the batch meets are the same
      have hframe : Frame s (settleBatch h caller item r s s₁) :=
        frame_of_settleBatch (frame_of_verifyOne hs)
      have hlimits : (a₁.record caller item (flagOf r)).limits = a.limits := by
        have heq := hframe.limits
        rw [hrep₁.limits_eq, hrep.limits_eq] at heq
        exact Option.some.inj heq
      rw [← hlimits] at hgranted
      rcases ih (fun e he => hmem e (List.mem_cons_of_mem item he)) hrep₁ hgranted with
        ⟨hs', ha'⟩ | ⟨bs, s', a', hs', ha', hrep'⟩
      · exact .inl ⟨by simp only [hs, hs', Option.map_none],
          by simp only [ha, ha', Option.map_none]⟩
      · exact .inr ⟨flagOf r :: bs, s', a', by simp only [hs, hs', Option.map_some],
          by simp only [ha, ha', Option.map_some], hrep'⟩

/-! ### Admin calls -/

omit [DecidableEq Address] in
theorem withAdmin (hrep : Represents h items ledger s a) (auth : Address → Bool)
    {update : State Address → State Address} {a' : Abstract.State Address}
    (hupdate : auth a.admin = true → Represents h items ledger (update s) a') :
    let r := commit s (reply (fun _ => .unit) (withAdmin auth s update))
    let r' := Abstract.guarded (.ok ()) (auth a.admin) a a'
    r.1 = r'.1 ∧ Represents h items ledger r.2 r'.2 := by
  simp only [Verifier.withAdmin, hrep.admin, Abstract.guarded]
  cases hauth : auth a.admin with
  | false => exact ⟨rfl, hrep⟩
  | true => exact ⟨rfl, hupdate hauth⟩

theorem setLimits (hrep : Represents h items ledger s a) (m : UInt32) {w : UInt32} (hsize : w ≠ 0)
    (hle : w ≤ a.limits.windowSize) :
    Represents h items ledger (s.setInstance .limits ⟨m, w⟩) { a with limits := ⟨m, w⟩ } :=
  { hrep with
    configured := { hrep.configured with
      limits_eq := rfl
      windowSize_ne := hsize }
    passes := fun caller start => by
      exact (hrep.passes caller start).mono (UInt32.le_refl _) hle }

theorem updateVk (hrep : Represents h items ledger s a) {vk : VerifyingKey}
    (hlen : vk.ic.length = expectedPublicInputCount) :
    Represents h items ledger (s.setInstance .vk vk) { a with vk := vk } :=
  { hrep with
    configured := { hrep.configured with
      vk_eq := rfl
      arity := hlen } }

theorem setAllowlistMode (hrep : Represents h items ledger s a) (b : Bool) :
    Represents h items ledger (s.setInstance .allowlistEnabled b)
      { a with allowlistEnabled := b } :=
  { hrep with
    configured := { hrep.configured with }
    allowlistEnabled := rfl }

theorem addToAllowlist (hrep : Represents h items ledger s a) (addr : Address) :
    Represents h items ledger (s.setInstance (.allowlist addr) true)
      { a with allowed := insert addr a.allowed } :=
  { hrep with
    configured := { hrep.configured with }
    allowed := fun other => by
      rcases eq_or_ne other addr with rfl | hne
      · simp [State.isAllowlisted, State.setInstance]
      · rw [Set.mem_insert_iff, or_iff_right hne, ← hrep.allowed]
        simp [State.isAllowlisted, State.setInstance, hne] }

theorem removeFromAllowlist (hrep : Represents h items ledger s a) (addr : Address) :
    Represents h items ledger
      { s with instanceStorage := s.instanceStorage.remove (.allowlist addr) }
      { a with allowed := a.allowed \ {addr} } :=
  { hrep with
    configured := { hrep.configured with }
    allowed := fun other => by
      rcases eq_or_ne other addr with rfl | hne
      · simp [State.isAllowlisted]
      · rw [Set.mem_sdiff, Set.mem_singleton_iff, and_iff_left hne, ← hrep.allowed]
        simp [State.isAllowlisted, hne] }

theorem proposeAdmin (hrep : Represents h items ledger s a) (new : Address) :
    Represents h items ledger (s.setInstance .pendingAdmin new)
      { a with pending := some new } :=
  { hrep with
    configured := { hrep.configured with }
    pending := rfl }

theorem acceptAdmin (hrep : Represents h items ledger s a) (new : Address) :
    Represents h items ledger
      { s with instanceStorage := (s.instanceStorage.set .admin new).remove .pendingAdmin }
      { a with admin := new, pending := none } :=
  { hrep with
    configured := { hrep.configured with admin_ne := by simp [State.admin] }
    admin := rfl
    pending := rfl }

theorem setPaused (hrep : Represents h items ledger s a) (b : Bool) :
    Represents h items ledger (s.setInstance .paused b) { a with paused := b } :=
  { hrep with
    configured := { hrep.configured with }
    paused := rfl }

end Represents

/-! ## The refinement -/

variable [DecidableEq Address]

/-- What a step is given: the host grants the lifetime the limiter would ask for, and the window
    does not grow. -/
def Steady (h : Host) (w : World Address) (event : Event Address) : Prop :=
  ∀ limits ∈ w.state.limits, h.canExtend w.ledger limits.windowSize = true ∧
    ∀ limits' ∈ ((machine h).step w event).2.state.limits, limits'.windowSize ≤ limits.windowSize

instance (w : World Address) (event : Event Address) : Decidable (Steady h w event) :=
  inferInstanceAs (Decidable (∀ limits ∈ w.state.limits, _ ∧
    ∀ limits' ∈ ((machine h).step w event).2.state.limits, _))

/-- The submitted items of an event are among `items`. -/
def Submits (items : List ProofItem) (event : Event Address) : Prop :=
  ∀ item ∈ event.items, item ∈ items

section Exec

variable {items : List ProofItem} {ledger : UInt32} {s : State Address}
  {a : Abstract.State Address}

/-- A paused contract turns a batch away at its first item. -/
theorem verifyBatchLoop_of_paused (hpaused : s.isPaused = true) (caller : Address)
    {proofs : List ProofItem} (hne : proofs ≠ []) (results : List Bool) :
    verifyBatchLoop h ledger caller proofs results s = some (.error .contractPaused, s) := by
  obtain ⟨item, proofs, rfl⟩ := List.exists_cons_of_ne_nil hne
  simp [verifyBatchLoop, verifyOne, checkAccess, hpaused]

/-- One transaction has one outcome in both, and the final states correspond. -/
theorem exec_represents (hfree : h.CollisionFree (inputMessages items)) {tx : Tx Address}
    (hmem : Submits items (.tx tx)) (hrep : Represents h items ledger s a)
    (hsteady : Steady h ⟨ledger, s⟩ (.tx tx)) :
    (exec h ledger s tx).1 = (Abstract.exec h ledger a tx).1 ∧
      Represents h items ledger (exec h ledger s tx).2 (Abstract.exec h ledger a tx).2 := by
  obtain ⟨hgranted, hnarrow⟩ := hsteady a.limits hrep.limits_eq
  obtain ⟨auth, call⟩ := tx
  cases call with
  | setLimits m w =>
      simp only [exec, callBody, setLimits, Abstract.exec]
      by_cases hw : w = 0
      · simp only [if_pos hw]
        exact ⟨rfl, hrep⟩
      simp only [if_neg hw]
      refine hrep.withAdmin auth fun hauth => hrep.setLimits m hw ?_
      -- the update goes through, so the step has the new limits
      refine hnarrow ⟨m, w⟩ ?_
      simp only [machine, exec, callBody, setLimits, if_neg hw, withAdmin, hrep.admin, hauth]
      rfl
  | updateVk vk =>
      simp only [exec, callBody, updateVk, Abstract.exec]
      by_cases hlen : vk.ic.length = expectedPublicInputCount
      · simp only [hlen, ne_eq, not_true_eq_false, if_false, if_true]
        exact hrep.withAdmin auth fun _ => hrep.updateVk hlen
      · simp only [ne_eq, hlen, not_false_eq_true, if_true, if_false]
        exact ⟨rfl, hrep⟩
  | setAllowlistMode b => exact hrep.withAdmin auth fun _ => hrep.setAllowlistMode b
  | addToAllowlist addr => exact hrep.withAdmin auth fun _ => hrep.addToAllowlist addr
  | removeFromAllowlist addr => exact hrep.withAdmin auth fun _ => hrep.removeFromAllowlist addr
  | proposeAdmin new => exact hrep.withAdmin auth fun _ => hrep.proposeAdmin new
  | acceptAdmin =>
      simp only [exec, callBody, acceptAdmin, Abstract.exec, ← hrep.pending]
      cases s.pendingAdmin with
      | none => exact ⟨rfl, hrep⟩
      | some new =>
          simp only [Abstract.guarded]
          by_cases hauth : auth new
          · simp only [if_pos hauth]
            exact ⟨rfl, hrep.acceptAdmin new⟩
          · simp only [if_neg hauth]
            exact ⟨rfl, hrep⟩
  | setPaused b => exact hrep.withAdmin auth fun _ => hrep.setPaused b
  | verifyProof caller item =>
      have hitem : item ∈ items := hmem item (by simp [Event.items, Call.submission])
      rw [exec_verifyProof]
      simp only [Abstract.exec]
      by_cases hauth : auth caller
      · simp only [if_pos hauth]
        rcases hrep.verifyOne_eq hfree hitem hgranted caller with
          ⟨hs, ha⟩ | ⟨r, s', a', hs, ha, hrep'⟩
        · rw [hs, ha]
          exact ⟨rfl, hrep⟩
        · rw [hs, ha]
          cases r with
          | error e => exact ⟨rfl, hrep⟩
          | ok b => exact ⟨rfl, hrep'⟩
      · simp only [if_neg hauth]
        exact ⟨trivial, hrep⟩
  | verifyBatch caller proofs =>
      have hproofs : ∀ item ∈ proofs, item ∈ items := hmem
      rw [exec_verifyBatch]
      simp only [Abstract.exec]
      by_cases hauth : auth caller
      swap
      · simp only [if_neg hauth]
        exact ⟨trivial, hrep⟩
      simp only [if_pos hauth]
      by_cases hturned : a.paused ∧ proofs ≠ []
      · rw [verifyBatchLoop_of_paused (hrep.paused.trans hturned.1) caller hturned.2,
          if_pos hturned]
        exact ⟨rfl, hrep⟩
      rw [if_neg hturned]
      by_cases hpaused : a.paused
      · have hnil : proofs = [] := not_not.1 fun hne => hturned ⟨hpaused, hne⟩
        subst hnil
        exact ⟨rfl, hrep⟩
      · rw [verifyBatchLoop_eq hrep.configured (hrep.paused.trans (Bool.eq_false_iff.2 hpaused))]
        rcases hrep.submitAll_eq hfree hproofs hgranted caller with
          ⟨hs, ha⟩ | ⟨bs, s', a', hs, ha, hrep'⟩
        · rw [hs, ha]
          exact ⟨rfl, hrep⟩
        · rw [hs, ha]
          exact ⟨rfl, hrep'⟩

end Exec

/-- The represented worlds have the same ledger. -/
def RepresentsWorld (h : Host) (items : List ProofItem) (w : World Address)
    (v : Abstract.World Address) : Prop :=
  v.ledger = w.ledger ∧ Represents h items w.ledger w.state v.state

/-- On steady steps that submit only some given items, without collisions among the messages hashed
    for these, the contract and the abstract verifier simulate each other. -/
theorem simulation {items : List ProofItem} (hfree : h.CollisionFree (inputMessages items)) :
    Simulation (machine h) (Abstract.machine h)
      (fun (w : World Address) event => Steady h w event ∧ Submits items event)
      (RepresentsWorld h items) where
  outcome w v event hguard hrel := by
    rcases hguard with ⟨hsteady, hmem⟩
    obtain ⟨ledger, a⟩ := v
    rcases hrel with ⟨rfl, hrep⟩
    cases event with
    | advance target => rfl
    | tx tx => exact congrArg some (exec_represents hfree hmem hrep hsteady).1
  related w v event hguard hrel := by
    rcases hguard with ⟨hsteady, hmem⟩
    obtain ⟨ledger, a⟩ := v
    rcases hrel with ⟨rfl, hrep⟩
    cases event with
    | advance target =>
        refine ⟨rfl, { hrep with passes := fun caller start => ?_ }⟩
        exact (hrep.passes caller start).mono (le_ledger_max _ _) (UInt32.le_refl _)
    | tx tx => exact ⟨rfl, (exec_represents hfree hmem hrep hsteady).2⟩

theorem represents_initial {admin : Address} {maxCalls windowSize : UInt32} {vk : VerifyingKey}
    {s : State Address} (hs : construct admin maxCalls windowSize vk = some s)
    (items : List ProofItem) (ledger : UInt32) :
    Represents h items ledger s (Abstract.initial admin ⟨maxCalls, windowSize⟩ vk) := by
  unfold construct at hs
  split at hs
  next hchecks =>
    cases hs
    exact {
      configured := {
        admin_ne := by simp [State.admin]
        limits_eq := rfl
        windowSize_ne := (UInt32.pos_iff_ne_zero).1 hchecks.1
        vk_eq := rfl
        arity := hchecks.2 }
      admin := rfl
      pending := rfl
      paused := rfl
      allowlistEnabled := rfl
      allowed := fun addr => by simp [State.isAllowlisted, Abstract.initial]
      passes := fun caller start => rfl
      counts := fun x => rfl
      logged := fun answer hanswer => by cases hanswer
      events := rfl }
  next => cases hs

/-- The items some events submit. -/
def itemsOf (events : List (Event Address)) : List ProofItem := events.flatMap Event.items

/-- **The verifier refines the abstract one.** In every run from the constructor in which the window
    never grows, the host grants the lifetimes the limiter asks for, and the hashed inputs do not
    collide, the contract has the outcomes of the abstract verifier, and its final storage and event
    list represent the abstract state. In particular no expiry of a limiter entry ever shows. -/
theorem verifier_refines (h : Host) (admin : Address) (maxCalls windowSize : UInt32)
    (vk : VerifyingKey) (s : State Address)
    (hs : construct admin maxCalls windowSize vk = some s) (ledger : UInt32)
    (events : List (Event Address))
    (hfree : h.CollisionFree (inputMessages (itemsOf events)))
    (hsteady : (machine h).Guarded (Steady h) ⟨ledger, s⟩ events) :
    let start : Abstract.World Address :=
      ⟨ledger, Abstract.initial admin ⟨maxCalls, windowSize⟩ vk⟩
    (machine h).outcomes ⟨ledger, s⟩ events = (Abstract.machine h).outcomes start events ∧
      RepresentsWorld h (itemsOf events) ((machine h).run ⟨ledger, s⟩ events)
        ((Abstract.machine h).run start events) := by
  refine (simulation hfree).run ⟨rfl, represents_initial hs _ ledger⟩ ?_
  refine Machine.guarded_and hsteady fun event hevent item hitem => ?_
  exact List.mem_flatMap.2 ⟨event, hevent, hitem⟩

/-- Two calls in one window of ten ledgers with a limit of one, and one in the next window. -/
theorem verifier_refines_zero :
    (Abstract.machine Host.scalar).outcomes ⟨25, Abstract.initial () ⟨1, 10⟩ (.zero 1)⟩
        [.tx (signed (.verifyProof () (zeroItem 7 100))),
          .tx (signed (.verifyProof () (zeroItem 8 100))), .advance 30,
          .tx (signed (.verifyProof () (zeroItem 8 100)))]
      = [some (.ok (.flag true)), some (.err .rateLimitExceeded), none, some (.ok (.flag true))] :=
  (verifier_refines Host.scalar () 1 10 (.zero 1) (zeroState 1 10) (construct_zero (by decide)) 25
    [.tx (signed (.verifyProof () (zeroItem 7 100))),
      .tx (signed (.verifyProof () (zeroItem 8 100))), .advance 30,
      .tx (signed (.verifyProof () (zeroItem 8 100)))]
    (by decide +kernel) (by decide +kernel)).1.symm.trans (by decide +kernel)

end ZkStellar.Verifier

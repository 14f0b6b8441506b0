import ZkStellar.Verifier.Contract

set_option autoImplicit false

/-! # What `verify_one` can do

A submitted item is malformed, expired or in date at a ledger (`ProofItem.kind`), and on a contract
that was constructed the rest of `verify_one` follows from that and the two parsers
(`checkProof_eq`). `verify_one` writes nothing but the caller's counter for the current window and
the counter of the verified inputs; everything its checks read is left alone (`Frame`). -/

namespace ZkStellar.Verifier

variable {Address : Type} {h : Host} {ledger : UInt32}

/-! ## Windows -/

/-- The start of the window a ledger lies in. -/
def currentWindow (ledger windowSize : UInt32) : UInt32 := ledger - ledger % windowSize

theorem windowStart_eq {windowSize : UInt32} (hsize : windowSize ≠ 0) :
    windowStart ledger windowSize = some (currentWindow ledger windowSize) := by
  have hle : ledger % windowSize ≤ ledger := by
    rw [UInt32.le_iff_toNat_le, UInt32.toNat_mod]
    exact Nat.mod_le _ _
  simp [windowStart, checkedRem32, checkedSub32, hsize, hle, currentWindow]

theorem toNat_currentWindow (ledger windowSize : UInt32) :
    (currentWindow ledger windowSize).toNat
      = ledger.toNat / windowSize.toNat * windowSize.toNat := by
  have hle : ledger % windowSize ≤ ledger := by
    rw [UInt32.le_iff_toNat_le, UInt32.toNat_mod]
    exact Nat.mod_le _ _
  rw [currentWindow, UInt32.toNat_sub_of_le _ _ hle, UInt32.toNat_mod]
  have := Nat.div_add_mod' ledger.toNat windowSize.toNat
  omega

/-! ## The kinds of items -/

/-- How an item's public inputs read at a ledger. -/
inductive ItemKind where
  /-- Not two inputs, or an expiry that is no ledger number. -/
  | malformed
  /-- The expiry ledger has passed. -/
  | expired
  /-- In date, with the circuit's public input. -/
  | inDate (publicInput : BytesN 32)

/-- The kind of an item at a ledger. -/
def ProofItem.kind (ledger : UInt32) (item : ProofItem) : ItemKind :=
  match item.publicInputs with
  | [publicInput, expiry] =>
      match readExpiryLedger expiry with
      | none => .malformed
      | some expiryLedger => if ledger > expiryLedger then .expired else .inDate publicInput
  | _ => .malformed

theorem ProofItem.kind_eq_inDate_iff {item : ProofItem} {publicInput : BytesN 32} :
    item.kind ledger = .inDate publicInput ↔ ∃ expiry expiryLedger,
      item.publicInputs = [publicInput, expiry] ∧ readExpiryLedger expiry = some expiryLedger ∧
        ledger ≤ expiryLedger := by
  unfold ProofItem.kind
  constructor
  · intro hkind
    split at hkind
    · next hxs =>
        split at hkind
        · cases hkind
        · next e he =>
            split at hkind
            · cases hkind
            · next hle =>
                cases hkind
                exact ⟨_, e, hxs, he, UInt32.not_lt.1 hle⟩
    · cases hkind
  · rintro ⟨expiry, e, hxs, he, hle⟩
    simp only [hxs, he, gt_iff_lt, UInt32.not_lt.2 hle, if_false]

/-! ## Parsing and the equation -/

/-- The three proof arguments have the lengths the parsers insist on. -/
def ProofItem.WellSized (item : ProofItem) : Prop :=
  item.proofA.length = proofALen ∧ item.proofB.length = proofBLen ∧ item.proofC.length = proofALen

instance (item : ProofItem) : Decidable item.WellSized :=
  inferInstanceAs (Decidable (_ ∧ _ ∧ _))

/-- What the parsers read has the right length. -/
theorem ProofItem.wellSized_of_read {item : ProofItem} {a c : h.G1Affine} {b : h.G2Affine}
    (ha : readG1 h item.proofA = some a) (hb : readG2 h item.proofB = some b)
    (hc : readG1 h item.proofC = some c) : item.WellSized := by
  refine ⟨?_, ?_, ?_⟩ <;> by_contra hne
  · simp [readG1_eq_none_iff.2 hne] at ha
  · simp [readG2_eq_none_iff.2 hne] at hb
  · simp [readG1_eq_none_iff.2 hne] at hc

/-- The item's curve points. -/
def ProofItem.points (h : Host) (item : ProofItem) : Option (Groth16.Proof h.G1 h.G2) :=
  proofPoints h item.proofA item.proofB item.proofC

/-- The verdict of the pairing check for a circuit input under a key. -/
def pairingVerdict (h : Host) (vk : VerifyingKey) (item : ProofItem) (publicInput : BytesN 32) :
    Option Bool :=
  match item.points h, vk.points h with
  | some π, some K =>
      match K.ic with
      | [ic₀, ic₁] => some (decide (Groth16.pairingProduct h.pairing
          [π.a, -K.alpha, -(ic₀ + Fr.fromBytes publicInput • ic₁), -π.c]
          [π.b, K.beta, K.gamma, K.delta] = 1))
      | _ => none
  | _, _ => none

theorem exists_ic_of_points {vk : VerifyingKey} {K : Groth16.Key h.G1 h.G2}
    (hlen : vk.ic.length = expectedPublicInputCount) (hK : vk.points h = some K) :
    ∃ ic₀ ic₁, K.ic = [ic₀, ic₁] := by
  have hic := Host.length_of_decodeAll (VerifyingKey.points_eq_some hK).2.2.2.2
  simp only [List.length_map, hlen] at hic
  exact List.length_eq_two.1 hic.symm

/-- With a key of two input points the check has a verdict exactly when proof and key parse, and
    the verdict is the Groth16 equation. -/
theorem pairingVerdict_eq_some_iff {vk : VerifyingKey} {item : ProofItem}
    {publicInput : BytesN 32} (hlen : vk.ic.length = expectedPublicInputCount) {v : Bool} :
    pairingVerdict h vk item publicInput = some v ↔
      ∃ π K, item.points h = some π ∧ vk.points h = some K ∧
        (v = true ↔ Groth16.Accepts h.pairing K π [Fr.fromBytes publicInput]) := by
  have hiff : ∀ π K, vk.points h = some K → ∃ ic₀ ic₁, K.ic = [ic₀, ic₁] ∧
      (Groth16.pairingProduct h.pairing
          [π.a, -K.alpha, -(ic₀ + Fr.fromBytes publicInput • ic₁), -π.c]
          [π.b, K.beta, K.gamma, K.delta] = 1 ↔
        Groth16.Accepts h.pairing K π [Fr.fromBytes publicInput]) := by
    intro π K hK
    obtain ⟨ic₀, ic₁, hic⟩ := exists_ic_of_points hlen hK
    refine ⟨ic₀, ic₁, hic, ?_⟩
    have hone : [Fr.fromBytes publicInput].length = [ic₁].length := rfl
    rw [Groth16.pairingProduct_eq_one_iff, Groth16.accepts_iff_of_ic hic hone]
    simp [Groth16.inputCommitment]
  constructor
  · intro hverdict
    unfold pairingVerdict at hverdict
    split at hverdict
    · next π K hπ hK =>
        obtain ⟨ic₀, ic₁, hic, heq⟩ := hiff π K hK
        simp only [hic, Option.some.injEq] at hverdict
        exact ⟨π, K, hπ, hK, by rw [← heq, ← hverdict, decide_eq_true_iff]⟩
    · cases hverdict
  · rintro ⟨π, K, hπ, hK, hv⟩
    obtain ⟨ic₀, ic₁, hic, heq⟩ := hiff π K hK
    simp only [pairingVerdict, hπ, hK, hic, Option.some.injEq]
    rw [Bool.eq_iff_iff, decide_eq_true_iff, heq, hv]

/-- The host's check on the source's arguments gives that verdict. -/
theorem pairingCheck_eq_pairingVerdict {vk : VerifyingKey} {ic₀ ic₁ : BytesN 64}
    (hic : vk.ic = [ic₀, ic₁]) {item : ProofItem} {a c : h.G1Affine} {b : h.G2Affine}
    (ha : readG1 h item.proofA = some a) (hb : readG2 h item.proofB = some b)
    (hc : readG1 h item.proofC = some c) (publicInput : BytesN 32) :
    h.pairingCheck
        [a, Host.G1Affine.neg (h.g1Point vk.alpha),
          Host.G1Affine.neg (Host.G1Affine.add (h.g1Point ic₀)
            (Host.G1Affine.mul (h.g1Point ic₁) (Fr.fromBytes publicInput))),
          Host.G1Affine.neg c]
        [b, h.g2Point vk.beta, h.g2Point vk.gamma, h.g2Point vk.delta]
      = pairingVerdict h vk item publicInput := by
  unfold pairingVerdict ProofItem.points proofPoints VerifyingKey.points
  simp only [ha, hb, hc, hic, List.map_cons, List.map_nil]
  cases a <;> cases b <;> cases c <;> cases h.g1Point vk.alpha <;> cases h.g2Point vk.beta <;>
    cases h.g2Point vk.gamma <;> cases h.g2Point vk.delta <;> cases h.g1Point ic₀ <;>
    cases h.g1Point ic₁ <;> rfl

/-- What the checks after the rate limiter say of an item under a key: `none` is a trap. -/
def itemVerdict (h : Host) (ledger : UInt32) (vk : VerifyingKey) (item : ProofItem) :
    Option (Except Error Bool) :=
  if item.WellSized then
    match item.kind ledger with
    | .malformed => some (.ok false)
    | .expired => some (.error .proofExpired)
    | .inDate publicInput => (pairingVerdict h vk item publicInput).map .ok
  else none

theorem checkProof_eq {s : State Address} {vk : VerifyingKey} (hvk : s.vk = some vk)
    (hlen : vk.ic.length = expectedPublicInputCount) (item : ProofItem) :
    checkProof h ledger item s = itemVerdict h ledger vk item := by
  obtain ⟨ic₀, ic₁, hic⟩ := List.length_eq_two.1 hlen
  unfold checkProof itemVerdict
  cases ha : readG1 h item.proofA with
  | none => simp [ProofItem.WellSized, readG1_eq_none_iff.1 ha]
  | some a =>
      cases hb : readG2 h item.proofB with
      | none => simp [ProofItem.WellSized, readG2_eq_none_iff.1 hb]
      | some b =>
          cases hc : readG1 h item.proofC with
          | none => simp [ProofItem.WellSized, readG1_eq_none_iff.1 hc]
          | some c =>
              rw [if_pos (ProofItem.wellSized_of_read ha hb hc)]
              unfold ProofItem.kind
              rcases hxs : item.publicInputs with _ | ⟨x, _ | ⟨expiry, _ | ⟨y, ys⟩⟩⟩
              · rfl
              · rfl
              · simp only [List.length_cons, List.length_nil, expectedPublicInputCount,
                  circuitPublicInputCount, ne_eq, not_true, if_false, List.getElem?_cons_zero,
                  List.getElem?_cons_succ, hvk, hic]
                cases readExpiryLedger expiry with
                | none => rfl
                | some e =>
                    by_cases hexp : ledger > e
                    · simp only [hexp, if_true]
                    · simp only [hexp, if_false, pairingCheck_eq_pairingVerdict hic ha hb hc]
              · simp [expectedPublicInputCount, circuitPublicInputCount]

/-! ## The rate limiter -/

variable [DecidableEq Address]

/-- The highest value of a 32-bit counter. -/
def maxCount : UInt32 := 4294967295

theorem checkedAdd32_one (n : UInt32) :
    checkedAdd32 n 1 = if n = maxCount then none else some (n + 1) := by
  unfold checkedAdd32 maxCount
  have hn := n.toNat_lt
  by_cases hmax : n = 4294967295
  · subst hmax
    rfl
  · have hne : n.toNat ≠ 4294967295 := fun h => hmax (UInt32.toNat_inj.1 h)
    rw [if_neg hmax, if_pos]
    simp only [UInt32.toNat_one]
    omega

theorem countCall_eq {s : State Address} {limits : Limits} (hsize : limits.windowSize ≠ 0)
    (caller : Address) :
    countCall h ledger limits caller s
      = let start := currentWindow ledger limits.windowSize
        let count := s.callCount ledger caller start
        if count = maxCount then none
        else if limits.maxCalls ≤ count then some (.error .rateLimitExceeded, s)
        else if h.canExtend ledger limits.windowSize then
          some (.ok (), s.setCallCount h ledger caller start limits.windowSize (count + 1))
        else none := by
  unfold countCall
  rw [windowStart_eq hsize]
  simp only [checkedAdd32_one]
  by_cases hmax : s.callCount ledger caller (currentWindow ledger limits.windowSize) = maxCount
  · simp only [hmax, if_true]
  · simp only [hmax, if_false]
    -- the increment does not wrap, so comparing it with the limit is comparing the count
    have hiff : s.callCount ledger caller (currentWindow ledger limits.windowSize) + 1
          > limits.maxCalls ↔
        limits.maxCalls ≤ s.callCount ledger caller (currentWindow ledger limits.windowSize) := by
      generalize s.callCount ledger caller (currentWindow ledger limits.windowSize) = n at *
      have hlt : n.toNat + 1 < 2 ^ 32 := by
        have hn := n.toNat_lt
        have hne : n.toNat ≠ 4294967295 := fun h => hmax (UInt32.toNat_inj.1 h)
        omega
      rw [gt_iff_lt, UInt32.lt_iff_toNat_lt, UInt32.le_iff_toNat_le, UInt32.toNat_add,
        UInt32.toNat_one, Nat.mod_eq_of_lt hlt]
      omega
    simp only [hiff]

section CountCall

variable {s s' : State Address} {limits : Limits} {caller : Address}

/-- The limiter lets a call pass when the count is below the limit and the host grants the entry's
    new lifetime. -/
theorem countCall_eq_ok (hsize : limits.windowSize ≠ 0) :
    countCall h ledger limits caller s = some (.ok (), s') ↔
      s.callCount ledger caller (currentWindow ledger limits.windowSize) ≠ maxCount ∧
      s.callCount ledger caller (currentWindow ledger limits.windowSize) < limits.maxCalls ∧
      h.canExtend ledger limits.windowSize = true ∧
      s' = s.setCallCount h ledger caller (currentWindow ledger limits.windowSize)
        limits.windowSize
        (s.callCount ledger caller (currentWindow ledger limits.windowSize) + 1) := by
  rw [countCall_eq hsize]
  simp only
  generalize s.callCount ledger caller (currentWindow ledger limits.windowSize) = count
  by_cases hmax : count = maxCount
  · simp [hmax]
  · by_cases hle : limits.maxCalls ≤ count
    · simp [hmax, hle, UInt32.not_lt.2 hle]
    · cases h.canExtend ledger limits.windowSize <;>
        simp [hmax, hle, UInt32.not_le.1 hle, eq_comm]

theorem countCall_eq_error (hsize : limits.windowSize ≠ 0) {e : Error} :
    countCall h ledger limits caller s = some (.error e, s') ↔
      s.callCount ledger caller (currentWindow ledger limits.windowSize) ≠ maxCount ∧
      limits.maxCalls ≤ s.callCount ledger caller (currentWindow ledger limits.windowSize) ∧
      e = .rateLimitExceeded ∧ s' = s := by
  rw [countCall_eq hsize]
  simp only
  generalize s.callCount ledger caller (currentWindow ledger limits.windowSize) = count
  by_cases hmax : count = maxCount
  · simp [hmax]
  · by_cases hle : limits.maxCalls ≤ count
    · simp [hmax, hle, eq_comm]
    · cases h.canExtend ledger limits.windowSize <;> simp [hmax, hle]

end CountCall

section SetCallCount

variable {s : State Address} {caller : Address} {start windowSize next : UInt32}

@[simp] theorem setCallCount_instanceStorage :
    (s.setCallCount h ledger caller start windowSize next).instanceStorage = s.instanceStorage :=
  rfl

@[simp] theorem setCallCount_events :
    (s.setCallCount h ledger caller start windowSize next).events = s.events :=
  rfl

theorem setCallCount_get_self :
    (s.setCallCount h ledger caller start windowSize next).temporary.get (.callCount caller start)
      = some ⟨next, h.extendedUntil ledger
          (TempStore.lifetime s.temporary ledger (h.freshUntil ledger) (.callCount caller start))
          windowSize windowSize⟩ :=
  TempStore.get_retime_write_self s.temporary ledger _ (DataKey.callCount caller start) next
    fun liveUntil => h.extendedUntil ledger liveUntil windowSize windowSize

theorem setCallCount_get_of_ne {k : DataKey Address} (hk : k ≠ .callCount caller start) :
    (s.setCallCount h ledger caller start windowSize next).temporary.get k = s.temporary.get k := by
  simp only [State.setCallCount]
  exact TempStore.get_retime_write_of_ne _ _ _ (k := DataKey.callCount caller start) _ _ hk

/-- The new counter can be read at the ledger it was written at. -/
theorem setCallCount_callCount (hextend : h.canExtend ledger windowSize = true) :
    (s.setCallCount h ledger caller start windowSize next).callCount ledger caller start
      = next := by
  have hlive := h.le_extendedUntil ledger
    (TempStore.lifetime s.temporary ledger (h.freshUntil ledger) (.callCount caller start))
    windowSize ledger hextend (UInt32.le_refl _) (by omega)
  rw [State.callCount, TempStore.read_eq_some setCallCount_get_self hlive]
  rfl

end SetCallCount

/-! ## What stays as it is -/

/-- Everything in instance storage but the verification counters is the same. -/
def Frame (s s' : State Address) : Prop :=
  ∀ k, (∀ x, k ≠ .verificationCount x) → s'.instanceStorage.get k = s.instanceStorage.get k

namespace Frame

omit [DecidableEq Address]

variable {s s' s'' : State Address}

theorem refl (s : State Address) : Frame s s := fun _ _ => rfl

theorem trans (hs : Frame s s') (hs' : Frame s' s'') : Frame s s'' :=
  fun k hk => (hs' k hk).trans (hs k hk)

theorem of_instanceStorage (heq : s'.instanceStorage = s.instanceStorage) : Frame s s' :=
  fun k _ => by rw [heq]

theorem admin (hs : Frame s s') : s'.admin = s.admin := hs _ (by simp)

theorem limits (hs : Frame s s') : s'.limits = s.limits := hs _ (by simp)

theorem vk (hs : Frame s s') : s'.vk = s.vk := hs _ (by simp)

theorem isPaused (hs : Frame s s') : s'.isPaused = s.isPaused := by
  rw [State.isPaused, hs _ (by simp)]
  rfl

theorem allowlistEnabled (hs : Frame s s') : s'.allowlistEnabled = s.allowlistEnabled := by
  rw [State.allowlistEnabled, hs _ (by simp)]
  rfl

theorem isAllowlisted (hs : Frame s s') (addr : Address) :
    s'.isAllowlisted addr = s.isAllowlisted addr := by
  rw [State.isAllowlisted, hs _ (by simp)]
  rfl

theorem checkAccess (hs : Frame s s') (caller : Address) :
    checkAccess s' caller = checkAccess s caller := by
  rw [Verifier.checkAccess, hs.isPaused, hs.allowlistEnabled, hs.isAllowlisted]
  rfl

end Frame

/-- The contract holds an admin, usable limits and a key of the right arity. -/
structure Configured (s : State Address) (limits : Limits) (vk : VerifyingKey) : Prop where
  admin_ne : s.admin ≠ none
  limits_eq : s.limits = some limits
  windowSize_ne : limits.windowSize ≠ 0
  vk_eq : s.vk = some vk
  arity : vk.ic.length = expectedPublicInputCount

omit [DecidableEq Address] in
theorem Configured.of_frame {s s' : State Address} {limits : Limits} {vk : VerifyingKey}
    (hcfg : Configured s limits vk) (hs : Frame s s') : Configured s' limits vk where
  admin_ne := by rw [hs.admin]; exact hcfg.admin_ne
  limits_eq := hs.limits.trans hcfg.limits_eq
  windowSize_ne := hcfg.windowSize_ne
  vk_eq := hs.vk.trans hcfg.vk_eq
  arity := hcfg.arity

/-! ## `verify_one` in one equation -/

/-- Add one to the counter of the verified inputs. -/
def afterRecord (h : Host) (item : ProofItem) (s : State Address) : Option (State Address) :=
  recordVerificationAttempt (computeInputsHash h item.publicInputs) s

theorem afterRecord_eq_some {item : ProofItem} {s s' : State Address} :
    afterRecord h item s = some s' ↔
      (s.verificationCount (computeInputsHash h item.publicInputs)).toNat + 1 < 2 ^ 64 ∧
      s' = s.setInstance (.verificationCount (computeInputsHash h item.publicInputs))
        (s.verificationCount (computeInputsHash h item.publicInputs) + 1) := by
  simp only [afterRecord, recordVerificationAttempt, checkedAdd64, UInt64.toNat_one]
  by_cases hlt : (s.verificationCount (computeInputsHash h item.publicInputs)).toNat + 1 < 2 ^ 64
  · simp only [hlt, if_true, Option.map_some, Option.some.injEq, true_and]
    exact eq_comm
  · simp only [hlt, if_false, Option.map_none, reduceCtorEq, false_and]

theorem frame_of_afterRecord {item : ProofItem} {s s' : State Address}
    (hrec : afterRecord h item s = some s') : Frame s s' := by
  intro k hk
  rw [(afterRecord_eq_some.1 hrec).2]
  exact Store.get_set_of_ne _ _ (hk _)

theorem verifyOne_eq {s : State Address} {limits : Limits} {vk : VerifyingKey}
    (hcfg : Configured s limits vk) (caller : Address) (item : ProofItem) :
    verifyOne h ledger caller item s
      = match checkAccess s caller with
        | .error e => some (.error e, s)
        | .ok () =>
            match countCall h ledger limits caller s with
            | none => none
            | some (.error e, s) => some (.error e, s)
            | some (.ok (), s) =>
                match itemVerdict h ledger vk item with
                | none => none
                | some (.error e) => some (.error e, s)
                | some (.ok false) => some (.ok false, s)
                | some (.ok true) => (afterRecord h item s).map fun s => (.ok true, s) := by
  unfold verifyOne
  rw [hcfg.limits_eq]
  cases checkAccess s caller with
  | error e => rfl
  | ok u =>
      simp only []
      rcases hcount : countCall h ledger limits caller s with _ | ⟨e | u, s₁⟩
      · rfl
      · rfl
      · obtain ⟨-, -, -, hs₁⟩ := (countCall_eq_ok hcfg.windowSize_ne).1 hcount
        -- counting the call leaves the stored key alone
        have hvk : s₁.vk = some vk := by
          rw [hs₁]
          exact hcfg.vk_eq
        simp only [checkProof_eq hvk hcfg.arity]
        rcases itemVerdict h ledger vk item with _ | e | b
        · rfl
        · rfl
        · cases b <;> rfl

end ZkStellar.Verifier

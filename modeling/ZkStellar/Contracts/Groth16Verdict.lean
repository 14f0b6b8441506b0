import ZkStellar.Registry.Verification
import ZkStellar.Verifier.Gate

set_option autoImplicit false

/-! # The verdict of both contracts

The registry accumulates its input points in a loop, the verifier writes the sum for its two key
points out. Both hand the host the same four pairings, so on a key with two points they say the same
of the same proof, and what they say is the Groth16 equation. -/

namespace ZkStellar

variable {Address : Type} {h : Host}

/-- On a key with two input points the two contracts have the same verdict on an in-date item. -/
theorem itemVerdict_eq_runVerification {s : Registry.State Address} {id : UInt32}
    {vk : VerifyingKey} (hid : s.circuit id = some vk)
    (harity : vk.ic.length = Verifier.expectedPublicInputCount) {ledger : UInt32}
    {item : Verifier.ProofItem} {publicInput : BytesN 32}
    (hkind : item.kind ledger = .inDate publicInput) :
    Verifier.itemVerdict h ledger vk item
      = (Registry.runVerification h s id item.proofA item.proofB item.proofC [publicInput]).map
          .ok := by
  have hlen : [publicInput].length + 1 = vk.ic.length := harity.symm
  unfold Verifier.itemVerdict
  rw [hkind]
  by_cases hsized : item.WellSized
  · rw [if_pos hsized]
    refine congrArg (Option.map Except.ok) (Option.ext fun v => ?_)
    rw [Verifier.pairingVerdict_eq_some_iff harity, Registry.runVerification_eq_some_iff hid hlen]
    rfl
  · rw [if_neg hsized]
    cases hrun : Registry.runVerification h s id item.proofA item.proofB item.proofC
        [publicInput] with
    | none => rfl
    | some v =>
        obtain ⟨π, -, hπ, -⟩ := (Registry.runVerification_eq_some_iff hid hlen).1 hrun
        obtain ⟨ha, hb, hc⟩ := proofPoints_eq_some.1 hπ
        exact absurd (Verifier.ProofItem.wellSized_of_read ha hb hc) hsized

/-- **Both contracts decide the Groth16 equation.** On a stored key of any arity and a proof whose
    points the host can parse, the registry's verdict is the equation if the input count is right
    and `false` if it is not. A verifier with the same key and all its other gates open has on
    `[x, expiry]`, the expiry not passed, the registry's verdict on `[x]`. -/
theorem verdicts_are_groth16 [DecidableEq Address] (h : Host) (s : Registry.State Address)
    (id : UInt32) (vk : VerifyingKey) (hid : s.circuit id = some vk) (K : Groth16.Key h.G1 h.G2)
    (hK : vk.points h = some K) :
    (∀ proofA proofB proofC π publicInputs, proofPoints h proofA proofB proofC = some π →
      (publicInputs.length + 1 = vk.ic.length → ∃ v,
        Registry.runVerification h s id proofA proofB proofC publicInputs = some v ∧
          (v = true ↔ ∃ ic₀ ics, K.ic = ic₀ :: ics ∧
            h.pairing.apply π.a π.b = h.pairing.apply K.alpha K.beta
              * h.pairing.apply (Groth16.inputCommitment ic₀ ics (publicInputs.map Fr.fromBytes))
                  K.gamma
              * h.pairing.apply π.c K.delta)) ∧
      (publicInputs.length + 1 ≠ vk.ic.length →
        Registry.runVerification h s id proofA proofB proofC publicInputs = some false)) ∧
    ∀ (w : Verifier.World Address) (limits : Verifier.Limits) (auth : Address → Bool)
      (caller : Address) (proofA proofB proofC : Bytes) (x expiry : BytesN 32)
      (expiryLedger : UInt32),
      Verifier.Configured w.state limits vk → auth caller = true →
      Verifier.checkAccess w.state caller = .ok () →
      w.state.callCount w.ledger caller (Verifier.currentWindow w.ledger limits.windowSize)
        < limits.maxCalls →
      h.canExtend w.ledger limits.windowSize = true →
      (w.state.verificationCount (computeInputsHash h [x, expiry])).toNat + 1 < 2 ^ 64 →
      Verifier.readExpiryLedger expiry = some expiryLedger → w.ledger ≤ expiryLedger →
      (Verifier.exec h w.ledger w.state
          ⟨auth, .verifyProof caller ⟨proofA, proofB, proofC, [x, expiry]⟩⟩).1
        = match Registry.runVerification h s id proofA proofB proofC [x] with
          | some v => .ok (.flag v)
          | none => .trap := by
  constructor
  · intro proofA proofB proofC π publicInputs hπ
    refine ⟨fun hlen => ?_, Registry.runVerification_of_length_ne hid⟩
    classical
    refine ⟨decide (Groth16.Accepts h.pairing K π (Registry.statement publicInputs)),
      (Registry.runVerification_eq_some_iff hid hlen).2 ⟨π, K, hπ, hK, by simp⟩, ?_⟩
    rw [decide_eq_true_iff]
    have hic := Host.length_of_decodeAll (VerifyingKey.points_eq_some hK).2.2.2.2
    rw [List.length_map, ← hlen] at hic
    constructor
    · rintro ⟨ic₀, ics, hcons, -, heq⟩
      exact ⟨ic₀, ics, hcons, heq⟩
    · -- the length of the statement is not part of the equation: it comes from the arity check
      rintro ⟨ic₀, ics, hcons, heq⟩
      refine ⟨ic₀, ics, hcons, ?_, heq⟩
      rw [hcons, List.length_cons] at hic
      rw [Registry.statement, List.length_map]
      omega
  · intro w limits auth caller proofA proofB proofC x expiry expiryLedger hcfg hauth haccess hroom
      hextend hcount hexpiry hledger
    have hkind : (⟨proofA, proofB, proofC, [x, expiry]⟩ : Verifier.ProofItem).kind w.ledger
        = .inDate x :=
      Verifier.ProofItem.kind_eq_inDate_iff.2 ⟨expiry, expiryLedger, rfl, hexpiry, hledger⟩
    rw [Verifier.exec_verifyProof_of_room hcfg hauth haccess hroom hextend,
      itemVerdict_eq_runVerification hid hcfg.arity hkind]
    -- both contracts ran the same equation: what is left is what the verifier answers for
    -- a trap, `false` and `true`
    rcases Registry.runVerification h s id proofA proofB proofC [x] with _ | _ | _
    · rfl
    · rfl
    · exact if_pos hcount

/-- The all-zero proof under the all-zero key of one input, in both contracts. -/
theorem verdicts_are_groth16_zero :
    (Verifier.exec Host.scalar 100 (Verifier.zeroState 5 17280)
        (Verifier.signed (.verifyProof () (Verifier.zeroItem 7 100)))).1
      = match Registry.runVerification Host.scalar
            ((Registry.machine Host.scalar).run (Registry.construct ()) (Registry.zeroRun [])) 0
            zeroG1 zeroG2 zeroG1 [.ofNat 32 7] with
        | some v => .ok (.flag v)
        | none => .trap := by
  obtain ⟨K, hK⟩ := Option.isSome_iff_exists.1
    (by decide +kernel : ((VerifyingKey.zero 1).points Host.scalar).isSome = true)
  have hcfg : Verifier.Configured (Verifier.zeroState 5 17280) ⟨5, 17280⟩ (.zero 1) :=
    ⟨by decide, rfl, by decide, rfl, rfl⟩
  exact (verdicts_are_groth16 Host.scalar
    ((Registry.machine Host.scalar).run (Registry.construct ()) (Registry.zeroRun [])) 0 (.zero 1)
    rfl K hK).2 ⟨100, Verifier.zeroState 5 17280⟩ ⟨5, 17280⟩ (fun _ => true) () zeroG1 zeroG2 zeroG1
    (.ofNat 32 7) (.ofNat 32 100) 100 hcfg rfl rfl (by decide +kernel) (by decide +kernel)
    (by decide +kernel) (by decide +kernel) (by decide)

end ZkStellar

import ZkStellar.Registry.Independence
import ZkStellar.Verifier.Independence

set_option autoImplicit false

/-! # Bad entries of a batch, in both contracts

Both contracts document that a bad entry of a batch just comes back `false`. That holds exactly
when nothing in the batch makes the code trap, and an entry whose proof bytes have the wrong length
does, as soon as the earlier checks let it through to the parsers. -/

namespace ZkStellar

variable {Address : Type} [DecidableEq Address]

/-- **Batches and bad entries.** In the registry a batch keeps its promise exactly when every entry
    that reaches the parsers can be parsed. In a deployed verifier that is not paused, for a caller
    who authorised the call, it does exactly when the caller has no access or the items are
    processable. -/
theorem batches_isolated_iff (h : Host) :
    (∀ (auth : Address → Bool) (s : Registry.State Address) (batch : List Registry.BatchItem),
      Registry.BatchIsolated h auth s batch ↔ Registry.EntriesParse h s batch) ∧
    ∀ (w : Verifier.World Address) (auth : Address → Bool) (caller : Address)
      (proofs : List Verifier.ProofItem), Verifier.Deployed h w → w.state.isPaused = false →
      auth caller = true → ∃ limits vk, w.state.limits = some limits ∧ w.state.vk = some vk ∧
        (Verifier.BatchIsolated h w.ledger auth caller w.state proofs ↔
          ((w.state.allowlistEnabled = true → w.state.isAllowlisted caller = true) →
            Verifier.Processable h w.ledger limits vk
              (w.state.windowCount w.ledger caller limits).toNat
              (fun x => (w.state.verificationCount x).toNat) proofs)) := by
  refine ⟨fun auth s batch => Registry.batchIsolated_iff, ?_⟩
  intro w auth caller proofs hw hpaused hauth
  obtain ⟨limits, vk, hcfg⟩ := Verifier.configured_of_deployed hw
  exact ⟨limits, vk, hcfg.limits_eq, hcfg.vk_eq, Verifier.batchIsolated_iff hcfg hpaused hauth⟩

/-- The places at which a list of three can be split. -/
theorem split_of_three {α : Type} {a b c x : α} {pre post : List α}
    (hsplit : [a, b, c] = pre ++ x :: post) :
    pre = [] ∧ x = a ∨ pre = [a] ∧ x = b ∨ pre = [a, b] ∧ x = c := by
  rcases pre with _ | ⟨p, _ | ⟨q, _ | ⟨r, pre⟩⟩⟩
  · simp_all
  · simp_all
  · simp_all
  · simp at hsplit

/-- Between well-formed all-zero proofs an entry for a circuit nobody registered, with a byte
    missing, and an expired item: both batches keep their promise. -/
theorem batches_isolated_iff_zero :
    Registry.BatchIsolated Host.scalar (fun _ => true)
        ((Registry.machine Host.scalar).run (Registry.construct ()) (Registry.zeroRun []))
        [Registry.zeroItem 0, { Registry.truncatedItem 1 with id := 1 }, Registry.zeroItem 2] ∧
      Verifier.BatchIsolated Host.scalar 100 (fun _ => true) () (Verifier.zeroState 5 17280)
        [Verifier.zeroItem 0 100, Verifier.zeroItem 1 50, Verifier.zeroItem 2 100] := by
  obtain ⟨hregistry, hverifier⟩ := @batches_isolated_iff Unit _ Host.scalar
  refine ⟨(hregistry _ _ _).2 fun pre item post hsplit hactive _ _ vk hvk _ => ?_, ?_⟩
  · rcases split_of_three hsplit with ⟨-, rfl⟩ | ⟨-, rfl⟩ | ⟨-, rfl⟩
    · cases hvk
      exact ⟨Option.isSome_iff_ne_none.1 (by decide +kernel),
        Option.isSome_iff_ne_none.1 (by decide +kernel)⟩
    · exact absurd hactive (by decide +kernel)
    · cases hvk
      exact ⟨Option.isSome_iff_ne_none.1 (by decide +kernel),
        Option.isSome_iff_ne_none.1 (by decide +kernel)⟩
  · obtain ⟨limits, vk, hlimits, hvk, hiff⟩ := hverifier ⟨100, Verifier.zeroState 5 17280⟩
      (fun _ => true) () [Verifier.zeroItem 0 100, Verifier.zeroItem 1 50, Verifier.zeroItem 2 100]
      (Verifier.deployed_zero 100 5 (by decide) []) rfl rfl
    cases hlimits
    cases hvk
    have hparses : ∀ v e, (Verifier.zeroItem v e).Parses Host.scalar 100 (.zero 1) := by
      intro v e
      refine ⟨?_, fun x _ => ⟨Option.isSome_iff_ne_none.1 ?_,
        Option.isSome_iff_ne_none.1 (by decide +kernel)⟩⟩
      · simp only [Verifier.ProofItem.WellSized, Verifier.zeroItem]
        decide +kernel
      · simp only [Verifier.ProofItem.points, Verifier.zeroItem]
        decide +kernel
    refine hiff.2 ?_
    intro _ pre item post hsplit
    rcases split_of_three hsplit with ⟨rfl, rfl⟩ | ⟨rfl, rfl⟩ | ⟨rfl, rfl⟩
    all_goals exact ⟨fun _ => ⟨by decide +kernel, hparses _ _, by decide +kernel⟩,
      fun hle => absurd hle (by decide +kernel)⟩

/-- One entry with a byte missing takes down a batch with a valid one, in both contracts. -/
theorem truncated_entry_traps_batch :
    let registry := (Registry.machine Host.scalar).run (Registry.construct ())
      (Registry.zeroRun [])
    let world : Verifier.World Unit := ⟨100, Verifier.zeroState 5 17280⟩
    ¬ Registry.BatchIsolated Host.scalar (fun _ => true) registry
        [Registry.truncatedItem 1, Registry.zeroItem 0] ∧
      Verifier.Deployed Host.scalar world ∧ world.state.isPaused = false ∧
      ¬ Verifier.BatchIsolated Host.scalar world.ledger (fun _ => true) () world.state
        [Verifier.truncatedItem 1 100, Verifier.zeroItem 0 100] := by
  refine ⟨?_, Verifier.deployed_zero 100 5 (by decide) [], rfl, ?_⟩
  · rintro ⟨results, s', hexec, -⟩
    have htrap : (Registry.exec Host.scalar ((Registry.machine Host.scalar).run
        (Registry.construct ()) (Registry.zeroRun [])) ⟨fun _ => true, .verifyBatch
          [Registry.truncatedItem 1, Registry.zeroItem 0]⟩).1 = .trap := by decide +kernel
    rw [hexec] at htrap
    cases htrap
  · rintro ⟨results, s', hexec, -⟩
    have htrap : (Verifier.exec Host.scalar 100 (Verifier.zeroState 5 17280) ⟨fun _ => true,
        .verifyBatch () [Verifier.truncatedItem 1 100, Verifier.zeroItem 0 100]⟩).1
          = .trap := by decide +kernel
    rw [hexec] at htrap
    cases htrap

end ZkStellar

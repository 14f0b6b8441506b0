import ZkStellar.Circuits.MerkleInclusion
import ZkStellar.Sdk.Identity

set_option autoImplicit false

/-! # `circuits/poseidon_preimage` and `circuits/identity_commitment`

Both circuits open commitments with `Poseidon(1)`, which the SDK computes too. The inputs that the
SDK makes for them therefore satisfy them, and where Poseidon does not collide only the secret that
was committed to does, up to the order of the field (`satisfiable_iff`, `identity_anchor_iff`). -/

namespace ZkStellar

open MerkleInclusion (readDecimal readDecimal_toString)

/-! ## `circuits/poseidon_preimage` -/

namespace PoseidonPreimage

/-- The signals of `PoseidonPreimage`, those of its hash included. -/
structure Signals where
  secret : Fr
  commitment : Fr
  hashIn : Fr
  hashOut : Fr

/-- The constraints of `PoseidonPreimage`; `poseidon` is what `Poseidon(1)` computes. -/
structure Satisfies (poseidon : Fr → Fr) (w : Signals) : Prop where
  hash_in : w.hashIn = w.secret
  hash_out : w.hashOut = poseidon w.hashIn
  commitment : w.commitment = w.hashOut

/-- The circuit inputs that `generateProof` writes for two big integers. -/
structure Inputs where
  secret : String
  commitment : String

def inputsOf (secret commitment : ℤ) : Inputs := ⟨toString secret, toString commitment⟩

/-- An assignment has the input signals that strings stand for. -/
structure Reads (inputs : Inputs) (w : Signals) : Prop where
  secret : w.secret = readDecimal inputs.secret
  commitment : w.commitment = readDecimal inputs.commitment

section

variable (constants : Sdk.PoseidonPreparedConstants) (secret commitment : ℤ)

theorem satisfiable_iff :
    (∃ w, Satisfies (Sdk.poseidon1 constants) w ∧ Reads (inputsOf secret commitment) w) ↔
      (commitment : Fr) = Sdk.poseidon1 constants secret := by
  refine ⟨?_, ?_⟩
  · rintro ⟨w, hw, hreads⟩
    have hsecret : w.secret = secret := hreads.secret.trans (readDecimal_toString secret)
    have hcommitment : w.commitment = commitment :=
      hreads.commitment.trans (readDecimal_toString commitment)
    rw [← hcommitment, hw.commitment, hw.hash_out, hw.hash_in, hsecret]
  · intro heq
    refine ⟨⟨secret, commitment, secret, Sdk.poseidon1 constants secret⟩, ⟨rfl, rfl, heq⟩, ?_⟩
    exact ⟨(readDecimal_toString secret).symm, (readDecimal_toString commitment).symm⟩

end

end PoseidonPreimage

/-! ## `circuits/identity_commitment` -/

namespace IdentityCommitment

/-- The signals of `IdentityCommitment`, those of its two hashes included. -/
structure Signals where
  secret : Fr
  inner : Fr
  commitment2 : Fr
  h1In : Fr
  h1Out : Fr
  h2In : Fr
  h2Out : Fr

/-- The constraints of `IdentityCommitment`; `poseidon` is what `Poseidon(1)` computes. -/
structure Satisfies (poseidon : Fr → Fr) (w : Signals) : Prop where
  h1_in : w.h1In = w.secret
  h1_out : w.h1Out = poseidon w.h1In
  inner : w.inner = w.h1Out
  h2_in : w.h2In = w.h1Out
  h2_out : w.h2Out = poseidon w.h2In
  commitment2 : w.commitment2 = w.h2Out

/-- The public signals of an assignment, as they come with a proof: canonical and in decimal. -/
def publicSignals (w : Signals) : List String :=
  [toString (w.inner.val : ℤ), toString (w.commitment2.val : ℤ)]

/-- An assignment has the input signals that strings stand for. -/
structure Reads (inputs : Sdk.IdentityCircuitInputs) (w : Signals) : Prop where
  secret : w.secret = readDecimal inputs.secret
  inner : w.inner = readDecimal inputs.inner
  commitment2 : w.commitment2 = readDecimal inputs.commitment2

variable {constants : Sdk.PoseidonPreparedConstants}

theorem Satisfies.inner_eq {w : Signals} (hw : Satisfies (Sdk.poseidon1 constants) w) :
    w.inner = Sdk.poseidon1 constants w.secret := by
  rw [hw.inner, hw.h1_out, hw.h1_in]

theorem Satisfies.commitment2_eq {w : Signals} (hw : Satisfies (Sdk.poseidon1 constants) w) :
    w.commitment2 = Sdk.poseidon1 constants w.inner := by
  rw [hw.commitment2, hw.h2_out, hw.h2_in, hw.inner]

variable (constants)

/-- The anchor of a secret: the SDK's inputs satisfy the circuit, and the public signals of an
    assignment are parsed to the commitment. The public signals of every satisfying assignment pass
    the SDK's check, and where Poseidon does not collide on the four values that are hashed, they
    show the anchor only if the assignment has the secret, up to the order of the field. -/
theorem identity_anchor_iff (secret : ℤ) :
    ∃ commitment inputs, Sdk.buildIdentityCommitment constants secret = .ok commitment ∧
      Sdk.identityCircuitInputs constants secret = .ok inputs ∧
      (∃ w, Satisfies (Sdk.poseidon1 constants) w ∧ Reads inputs w ∧
        Sdk.parseIdentityPublicSignals (publicSignals w) = .ok commitment) ∧
      ∀ w, Satisfies (Sdk.poseidon1 constants) w → ∃ parsed,
        Sdk.parseIdentityPublicSignals (publicSignals w) = .ok parsed ∧
        Sdk.verifyIdentityCommitment constants parsed.inner parsed.outer = .ok true ∧
        (Set.InjOn (Sdk.poseidon1 constants)
            {(secret : Fr), w.secret, (commitment.inner : Fr), w.inner} →
          (parsed.outer = commitment.outer ↔ w.secret = secret)) := by
  have : NeZero bn254ScalarOrder := ⟨by decide⟩
  have hcast : ∀ x : Fr, ((x.val : ℤ) : Fr) = x := by
    intro x
    rw [Int.cast_natCast, ZMod.natCast_zmod_val]
  set inner := Sdk.poseidon1 constants secret with hinner
  set outer := Sdk.poseidon1 constants inner with houter
  have hbuild := Sdk.buildIdentityCommitment_eq constants secret
  have hinputs : Sdk.identityCircuitInputs constants secret
      = .ok ⟨toString secret, toString (inner.val : ℤ), toString (outer.val : ℤ)⟩ := by
    rw [Sdk.identityCircuitInputs, hbuild]
    rfl
  refine ⟨_, _, hbuild, hinputs, ?_, ?_⟩
  · refine ⟨⟨secret, inner, outer, secret, inner, inner, outer⟩, ⟨rfl, rfl, rfl, rfl, rfl, rfl⟩,
      ⟨?_, ?_, ?_⟩, Sdk.parseIdentityPublicSignals_toString _ _ []⟩
    · exact (readDecimal_toString secret).symm
    · rw [readDecimal_toString, hcast]
    · rw [readDecimal_toString, hcast]
  · intro w hw
    refine ⟨_, Sdk.parseIdentityPublicSignals_toString _ _ [], ?_, ?_⟩
    · rw [Sdk.verifyIdentityCommitment_eq, hcast, ← hw.commitment2_eq, beq_self_eq_true]
    · intro hfree
      rw [hcast] at hfree
      refine ⟨?_, ?_⟩
      · intro hsame
        have hanchor : w.commitment2 = outer := ZMod.val_injective _ (Int.ofNat_inj.1 hsame)
        rw [hw.commitment2_eq, houter] at hanchor
        have hfirst : w.inner = inner := hfree (by simp) (by simp [hinner]) hanchor
        rw [hw.inner_eq, hinner] at hfirst
        exact hfree (by simp) (by simp) hfirst
      · intro hsame
        rw [hw.commitment2_eq, hw.inner_eq, hsame, ← hinner, ← houter]

/-- The anchor of the secret 5, and an assignment with the secret 7. -/
theorem identity_anchor_iff_other :
    ∃ commitment w parsed, Sdk.buildIdentityCommitment Sdk.mixingConstants 5 = .ok commitment ∧
      Satisfies (Sdk.poseidon1 Sdk.mixingConstants) w ∧ w.secret = ((7 : ℤ) : Fr) ∧
      Set.InjOn (Sdk.poseidon1 Sdk.mixingConstants)
        {((5 : ℤ) : Fr), w.secret, (commitment.inner : Fr), w.inner} ∧
      Sdk.parseIdentityPublicSignals (publicSignals w) = .ok parsed ∧
      (parsed.outer = commitment.outer ↔ w.secret = ((5 : ℤ) : Fr)) ∧
      parsed.outer ≠ commitment.outer := by
  have : NeZero bn254ScalarOrder := ⟨by decide⟩
  obtain ⟨commitment, inputs, hbuild, -, -, hsound⟩ :=
    identity_anchor_iff Sdk.mixingConstants 5
  set inner := Sdk.poseidon1 Sdk.mixingConstants ((7 : ℤ) : Fr) with hinner
  set outer := Sdk.poseidon1 Sdk.mixingConstants inner
  have hw : Satisfies (Sdk.poseidon1 Sdk.mixingConstants)
      ⟨((7 : ℤ) : Fr), inner, outer, ((7 : ℤ) : Fr), inner, inner, outer⟩ :=
    ⟨rfl, rfl, rfl, rfl, rfl, rfl⟩
  obtain ⟨parsed, hparsed, -, hiff⟩ := hsound _ hw
  have hnodup : ([5, 7, Sdk.poseidonHash Sdk.mixingConstants [5],
      Sdk.poseidonHash Sdk.mixingConstants [7]].map
        fun z => Sdk.poseidonHash Sdk.mixingConstants [z]).Nodup := by
    decide +kernel
  have hfree : Set.InjOn (Sdk.poseidon1 Sdk.mixingConstants)
      {((5 : ℤ) : Fr), ((7 : ℤ) : Fr), (commitment.inner : Fr), inner} := by
    refine (Sdk.injOn_poseidon1_of_nodup _ hnodup).mono ?_
    have hcommitment : commitment.inner = Sdk.poseidonHash Sdk.mixingConstants [5] := by
      rw [Sdk.buildIdentityCommitment_eq] at hbuild
      rw [← Except.ok.inj hbuild, Sdk.poseidonHash_single]
    have hother : inner = (Sdk.poseidonHash Sdk.mixingConstants [7] : Fr) := by
      rw [Sdk.poseidonHash_single, Int.cast_natCast, ZMod.natCast_zmod_val]
    rw [hcommitment, hother]
    intro x hx
    simp only [Set.mem_insert_iff, Set.mem_singleton_iff] at hx
    rcases hx with hx | hx | hx | hx <;> exact ⟨_, by simp, hx⟩
  have hdiffer : ((7 : ℤ) : Fr) ≠ ((5 : ℤ) : Fr) := by decide +kernel
  exact ⟨commitment, _, parsed, hbuild, hw, rfl, hfree, hparsed, hiff hfree,
    fun heq => hdiffer ((hiff hfree).1 heq)⟩

end IdentityCommitment

end ZkStellar

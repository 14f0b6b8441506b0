import ZkStellar.Circuits.Field
import ZkStellar.Lib.Circom

set_option autoImplicit false

/-! # `circuits/range_proof`

The template `RangeProof(n)` as the constraints it puts on its signals. The bits bound the secret,
and nothing bounds the two limits: an upper limit that is too large cannot be met, but a lower limit
close to the field order counts as a negative number, below every secret. -/

namespace ZkStellar.RangeProof

open Circom Circuits

/-- The signals of `RangeProof(n)`, those of its two comparators included. -/
structure Signals (n : ℕ) where
  secret : Fr
  secretBits : Fin n → Fr
  min : Fr
  max : Fr
  commitment : Fr
  hashOut : Fr
  geMinBits : Fin (n + 1) → Fr
  geMinOut : Fr
  leMaxBits : Fin (n + 1) → Fr
  leMaxOut : Fr

/-- The constraints of `RangeProof(n)`; `poseidon` is what `Poseidon(1)` computes. -/
structure Satisfies (poseidon : Fr → Fr) {n : ℕ} (w : Signals n) : Prop where
  secret_bits : ∀ i, w.secretBits i * (w.secretBits i - 1) = 0
  lc : ∑ i, w.secretBits i * 2 ^ (i : ℕ) = w.secret
  hash : w.hashOut = poseidon w.secret
  commitment : w.commitment = w.hashOut
  geMin : LessEqThan n w.min w.secret w.geMinBits w.geMinOut
  geMin_out : w.geMinOut = 1
  leMax : LessEqThan n w.secret w.max w.leMaxBits w.leMaxOut
  leMax_out : w.leMaxOut = 1

section

variable {poseidon : Fr → Fr} {n : ℕ} {w : Signals n}

theorem secret_lt (hn : 2 ^ n ≤ bn254ScalarOrder) (hw : Satisfies poseidon w) :
    w.secret.val < 2 ^ n :=
  ((num2Bits_iff hn).1 ⟨hw.secret_bits, hw.lc⟩).1

/-- The upper limit is met by every satisfying assignment. -/
theorem le_max (hn : 2 ^ (n + 1) ≤ bn254ScalarOrder) (hw : Satisfies poseidon w) :
    w.secret.val ≤ w.max.val := by
  have hn' : 2 ^ n * 2 ≤ bn254ScalarOrder := by rwa [pow_succ] at hn
  have hlt := secret_lt (by omega) hw
  have hle := hw.leMax
  rw [hw.leMax_out] at hle
  rcases (lessEqThan_iff hn).1 ⟨_, hle⟩ with ⟨hle, -⟩ | hwrap
  · exact hle
  · omega

/-- The lower limit is met, or it lies so close to the field order that the secret is above it once
    it has wrapped around. -/
theorem min_le_or (hn : 2 ^ (n + 1) ≤ bn254ScalarOrder) (hw : Satisfies poseidon w) :
    w.min.val ≤ w.secret.val ∨ w.secret.val + bn254ScalarOrder < w.min.val + 2 ^ n := by
  have hge := hw.geMin
  rw [hw.geMin_out] at hge
  rcases (lessEqThan_iff hn).1 ⟨_, hge⟩ with ⟨hle, -⟩ | hwrap
  · exact .inl hle
  · exact .inr hwrap

end

/-- **The range proof.** A satisfying assignment of `RangeProof(64)` proves `min ≤ secret ≤ max` and
    opens the commitment exactly when the lower limit is at least `2 ^ 64` below the field order. -/
theorem in_range_iff (poseidon : Fr → Fr) (w : Signals 64) (hw : Satisfies poseidon w) :
    (w.min.val ≤ w.secret.val ∧ w.secret.val ≤ w.max.val ∧ w.commitment = poseidon w.secret) ↔
      w.min.val ≤ bn254ScalarOrder - 2 ^ 64 := by
  have hn : 2 ^ (64 + 1) ≤ bn254ScalarOrder := by decide
  have hlt := secret_lt (by decide) hw
  have horder : (2 : ℕ) ^ 64 * 2 ≤ bn254ScalarOrder := by decide
  constructor
  · rintro ⟨hmin, -⟩
    omega
  · intro hsmall
    refine ⟨?_, le_max hn hw, hw.commitment.trans hw.hash⟩
    rcases min_le_or hn hw with hle | hwrap
    · exact hle
    · omega

/-- The commitment of the secret 25 in the circuit's fixture. -/
def commitment25 : Fr :=
  12682035267164930304417569930452714852963638826457902245335528220669536912346

/-- The assignment that the comparators accept for the secret 25 and the limits `min` and 100. -/
def signals25 (min : Fr) : Signals 64 where
  secret := 25
  secretBits i := signal ((25 : Fr).val.testBit i)
  min := min
  max := 100
  commitment := commitment25
  hashOut := commitment25
  geMinBits i := signal ((min + 2 ^ 64 - (25 + 1)).val.testBit i)
  geMinOut := 1
  leMaxBits i := signal ((25 + 2 ^ 64 - (100 + 1) : Fr).val.testBit i)
  leMaxOut := 1

theorem satisfies_signals25 {min : Fr} (hmin : (min + 2 ^ 64 - (25 + 1)).val < 2 ^ 64) :
    Satisfies (fun _ => commitment25) (signals25 min) := by
  have hmax : (25 + 2 ^ 64 - (100 + 1) : Fr).val < 2 ^ 64 := by decide +kernel
  have hlt : (2 : ℕ) ^ 64 < 2 ^ (64 + 1) := by decide
  exact {
    secret_bits := fun _ => signal_boolean _
    lc := (num2Bits_testBit (by decide +kernel)).sum
    hash := rfl
    commitment := rfl
    geMin := ⟨num2Bits_testBit (hmin.trans hlt), by
      simp [signals25, Nat.testBit_lt_two_pow hmin]⟩
    geMin_out := rfl
    leMax := ⟨num2Bits_testBit (hmax.trans hlt), by
      simp [signals25, Nat.testBit_lt_two_pow hmax]⟩
    leMax_out := rfl }

/-- The fixture: 25 lies between 18 and 100. -/
theorem in_range_fixture : (18 : Fr).val ≤ (25 : Fr).val ∧ (25 : Fr).val ≤ (100 : Fr).val ∧
    commitment25 = (fun _ => commitment25) (25 : Fr) :=
  (in_range_iff (fun _ => commitment25) (signals25 18)
    (satisfies_signals25 (by decide +kernel))).2 (by decide +kernel)

/-- With the lower limit `-1` the same secret satisfies all constraints, and lies far below it. -/
theorem wrapped_min_accepted :
    Satisfies (fun _ => commitment25) (signals25 (-1)) ∧
      ¬ (signals25 (-1)).min.val ≤ (signals25 (-1)).secret.val :=
  ⟨satisfies_signals25 (by decide +kernel), by decide +kernel⟩

end ZkStellar.RangeProof

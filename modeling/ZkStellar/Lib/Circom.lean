import Mathlib.Algebra.BigOperators.Fin
import Mathlib.Algebra.Field.ZMod
import Mathlib.Data.Nat.Bits
import Mathlib.Tactic.LinearCombination
import Mathlib.Tactic.Ring

set_option autoImplicit false

/-! # Bits and comparisons in a prime field

`circomlib` has no order to work with: `Num2Bits` forces boolean signals to sum up to a field
element, and a comparison reads one bit of a shifted difference. Each template is the relation its
constraints put on its signals; a signal array is a function on its indices. What a comparison
decides about canonical representatives is `lessThan_iff`: it tests whether the shifted difference
stays below a power of two, which is the comparison only for operands known to be small. -/

namespace ZkStellar.Circom

variable {p : ℕ}

/-- `Num2Bits(k)`: `k` boolean signals with the weighted sum `x`. -/
structure Num2Bits {k : ℕ} (x : ZMod p) (bits : Fin k → ZMod p) : Prop where
  boolean : ∀ i, bits i * (bits i - 1) = 0
  sum : ∑ i, bits i * 2 ^ (i : ℕ) = x

/-- `LessThan(n)` on `a` and `b`, with the bits it decomposes `a + 2 ^ n - b` into. -/
structure LessThan (n : ℕ) (a b : ZMod p) (bits : Fin (n + 1) → ZMod p) (out : ZMod p) : Prop where
  num2Bits : Num2Bits (a + 2 ^ n - b) bits
  out_eq : out = 1 - bits (Fin.last n)

/-- `LessEqThan(n)` on `a` and `b`. -/
def LessEqThan (n : ℕ) (a b : ZMod p) (bits : Fin (n + 1) → ZMod p) (out : ZMod p) : Prop :=
  LessThan n a (b + 1) bits out

/-- `GreaterEqThan(n)` on `a` and `b`. -/
def GreaterEqThan (n : ℕ) (a b : ZMod p) (bits : Fin (n + 1) → ZMod p) (out : ZMod p) : Prop :=
  LessThan n b (a + 1) bits out

/-- The signal that carries a bit. -/
def signal (b : Bool) : ZMod p := if b then 1 else 0

@[simp] theorem signal_true : (signal true : ZMod p) = 1 := rfl

@[simp] theorem signal_false : (signal false : ZMod p) = 0 := rfl

theorem signal_boolean (b : Bool) : (signal b : ZMod p) * (signal b - 1) = 0 := by
  cases b <;> simp

theorem sum_signal {k : ℕ} (f : Fin k → Bool) :
    ∑ i, (signal (f i) : ZMod p) * 2 ^ (i : ℕ) = (Nat.ofBits f : ZMod p) := by
  induction k with
  | zero => simp
  | succ k ih =>
      have hhead : (signal (f 0) : ZMod p) = ((f 0).toNat : ZMod p) := by cases f 0 <;> simp
      have htail := ih (f ∘ Fin.succ)
      rw [Fin.sum_univ_succ, Nat.ofBits_succ]
      push_cast
      rw [← htail, Finset.mul_sum, hhead]
      simp only [Fin.val_zero, pow_zero, mul_one, Function.comp_apply, Fin.val_succ]
      rw [add_comm]
      congr 1
      exact Finset.sum_congr rfl fun i _ => by ring

/-- A number below `2 ^ k` is decomposed by its own bits. -/
theorem num2Bits_testBit {k : ℕ} {x : ZMod p} [NeZero p] (hx : x.val < 2 ^ k) :
    Num2Bits x fun i : Fin k => signal (x.val.testBit i) where
  boolean _ := signal_boolean _
  sum := by
    rw [sum_signal, Nat.ofBits_testBit, Nat.mod_eq_of_lt hx, ZMod.natCast_zmod_val]

theorem testBit_top {n y : ℕ} (hy : y < 2 ^ (n + 1)) : y.testBit n = false ↔ y < 2 ^ n := by
  have hdiv : y / 2 ^ n < 2 := Nat.div_lt_of_lt_mul (by rwa [pow_succ] at hy)
  rw [Nat.testBit_eq_decide_div_mod_eq, decide_eq_false_iff_not, Nat.mod_eq_of_lt hdiv,
    ← Nat.div_eq_zero_iff_lt (Nat.two_pow_pos n)]
  generalize y / 2 ^ n = q at hdiv
  omega

section Prime

variable [Fact p.Prime]

theorem boolean_iff {b : ZMod p} : b * (b - 1) = 0 ↔ b = 0 ∨ b = 1 := by
  rw [mul_eq_zero, sub_eq_zero]

theorem exists_signal {b : ZMod p} (hb : b * (b - 1) = 0) : ∃ c : Bool, b = signal c := by
  rcases boolean_iff.1 hb with rfl | rfl
  · exact ⟨false, rfl⟩
  · exact ⟨true, rfl⟩

/-- If `k` bits fit in the field, a decomposition bounds the number and consists of its bits. -/
theorem num2Bits_iff {k : ℕ} (hk : 2 ^ k ≤ p) {x : ZMod p} {bits : Fin k → ZMod p} :
    Num2Bits x bits ↔ x.val < 2 ^ k ∧ ∀ i, bits i = signal (x.val.testBit i) := by
  constructor
  · rintro ⟨hbool, hsum⟩
    choose f hf using fun i => exists_signal (hbool i)
    have hlt : Nat.ofBits f < p := (Nat.ofBits_lt_two_pow f).trans_le hk
    have hx : x.val = Nat.ofBits f := by
      rw [← hsum]
      simp only [hf]
      rw [sum_signal, ZMod.val_natCast, Nat.mod_eq_of_lt hlt]
    rw [hx]
    refine ⟨Nat.ofBits_lt_two_pow f, ?_⟩
    intro i
    rw [hf i, Nat.testBit_ofBits_lt f i i.isLt]
  · rintro ⟨hlt, hbits⟩
    obtain rfl : bits = fun i : Fin k => signal (x.val.testBit i) := funext hbits
    exact num2Bits_testBit hlt

/-- A comparison can be satisfied with output 1 exactly when the shifted difference has `n` bits. -/
theorem lessThan_iff {n : ℕ} (hn : 2 ^ (n + 1) ≤ p) {a b : ZMod p} :
    (∃ bits, LessThan n a b bits 1) ↔ (a + 2 ^ n - b).val < 2 ^ n := by
  constructor
  · rintro ⟨bits, hbits, hout⟩
    obtain ⟨hlt, heq⟩ := (num2Bits_iff hn).1 hbits
    rw [heq (Fin.last n), Fin.val_last] at hout
    refine (testBit_top hlt).1 ?_
    cases htop : (a + 2 ^ n - b).val.testBit n with
    | false => rfl
    | true => simp [htop] at hout
  · intro hlt
    have hlt' : (a + 2 ^ n - b).val < 2 ^ (n + 1) := hlt.trans (by rw [pow_succ]; omega)
    refine ⟨_, num2Bits_testBit hlt', ?_⟩
    rw [Fin.val_last, (testBit_top hlt').2 hlt, signal_false, sub_zero]

/-- What `LessEqThan(n)` with output 1 says of the canonical representatives: the operands are in
    order and less than `2 ^ n` apart, possibly after the larger one wrapped around. -/
theorem lessEqThan_iff {n : ℕ} (hn : 2 ^ (n + 1) ≤ p) {a b : ZMod p} :
    (∃ bits, LessEqThan n a b bits 1) ↔
      (a.val ≤ b.val ∧ b.val < a.val + 2 ^ n) ∨ b.val + p < a.val + 2 ^ n := by
  have ha : a.val < p := a.val_lt
  have hb : b.val < p := b.val_lt
  have hval : (a + 2 ^ n - (b + 1)).val = (a.val + 2 ^ n + (p - 1 - b.val)) % p := by
    rw [← ZMod.val_natCast]
    congr 1
    rw [Nat.sub_sub, Nat.cast_add, Nat.cast_sub (by omega)]
    push_cast
    rw [ZMod.natCast_zmod_val, ZMod.natCast_zmod_val, ZMod.natCast_self]
    ring
  have hn' : 2 ^ n * 2 ≤ p := by rwa [pow_succ] at hn
  rw [show (∃ bits, LessEqThan n a b bits 1) ↔ _ from lessThan_iff hn, hval]
  generalize a.val = x at ha
  generalize b.val = y at hb
  generalize 2 ^ n = m at hn'
  -- the sum is at least `m`, so it is only reduced below `m` by one order or by two
  by_cases hone : x + m + (p - 1 - y) < p
  · rw [Nat.mod_eq_of_lt hone]
    omega
  · by_cases htwo : x + m + (p - 1 - y) - p < p
    · rw [Nat.mod_eq_sub_mod (by omega), Nat.mod_eq_of_lt htwo]
      omega
    · rw [Nat.mod_eq_sub_mod (by omega), Nat.mod_eq_sub_mod (by omega),
        Nat.mod_eq_of_lt (by omega)]
      omega

end Prime

end ZkStellar.Circom

import Mathlib.Data.List.Prime
import Mathlib.NumberTheory.LucasPrimality

set_option autoImplicit false

/-! # Certified primes

A number `n` is prime when some `a` has order `n - 1` modulo `n`. A certificate names `a` and the
prime factors of `n - 1`; `certifies` is the test of it that the kernel evaluates, and
`prime_of_certifies` says what it proves. -/

namespace ZkStellar

/-- `a ^ k % n` by repeated squaring, for a `k` of at most so many bits. -/
def powMod (n : ℕ) : ℕ → ℕ → ℕ → ℕ
  | 0, _, _ => 1 % n
  | bits + 1, a, k =>
      if k % 2 = 0 then powMod n bits (a * a % n) (k / 2)
      else a * powMod n bits (a * a % n) (k / 2) % n

theorem powMod_eq (n bits a k : ℕ) (hk : k < 2 ^ bits) : powMod n bits a k = a ^ k % n := by
  induction bits generalizing a k with
  | zero =>
      obtain rfl : k = 0 := by simpa using hk
      rfl
  | succ bits ih =>
      have hhalf : k / 2 < 2 ^ bits := by
        rw [pow_succ] at hk
        omega
      have hsquare : powMod n bits (a * a % n) (k / 2) = a ^ (2 * (k / 2)) % n := by
        rw [ih _ _ hhalf, ← Nat.pow_mod, pow_mul, sq]
      rw [powMod, hsquare]
      split
      · next heven => rw [show 2 * (k / 2) = k by omega]
      · next hodd =>
          rw [Nat.mul_mod_mod, ← pow_succ']
          congr 2
          omega

/-- The test that `a` has order `n - 1` modulo `n`, the factors of `n - 1` being `qs`. -/
def certifies (n a : ℕ) (qs : List ℕ) : Bool :=
  decide (1 < n) && decide (qs.prod = n - 1) && powMod n (n.log2 + 1) a (n - 1) == 1 &&
    qs.all fun q => powMod n (n.log2 + 1) a ((n - 1) / q) != 1

/-- A certified number is prime if its factors are. -/
theorem prime_of_certifies {n : ℕ} (a : ℕ) (qs : List ℕ) (hqs : ∀ q ∈ qs, q.Prime)
    (hcertifies : certifies n a qs = true) : n.Prime := by
  simp only [certifies, Bool.and_eq_true, decide_eq_true_eq, beq_iff_eq, List.all_eq_true,
    bne_iff_ne, ne_eq] at hcertifies
  obtain ⟨⟨⟨hn, hprod⟩, hfull⟩, hparts⟩ := hcertifies
  have hpow : ∀ k ≤ n - 1, ((a : ZMod n) ^ k = 1 ↔ powMod n (n.log2 + 1) a k = 1) := by
    intro k hk
    have hlt : k < 2 ^ (n.log2 + 1) := by
      have hself : n < 2 ^ (n.log2 + 1) := Nat.lt_log2_self
      omega
    rw [powMod_eq n _ a k hlt, ← Nat.cast_pow, ← Nat.cast_one, ZMod.natCast_eq_natCast_iff',
      Nat.mod_eq_of_lt hn]
  refine lucas_primality n (a : ZMod n) ((hpow _ le_rfl).2 hfull) ?_
  intro q hq hdvd hone
  rw [← hprod] at hdvd
  obtain ⟨q', hq', hqq'⟩ := (Prime.dvd_prod_iff hq.prime).1 hdvd
  obtain rfl : q = q' := (Nat.prime_dvd_prime_iff_eq hq (hqs q' hq')).1 hqq'
  exact hparts q hq' ((hpow _ (Nat.div_le_self _ _)).1 hone)

end ZkStellar

import Mathlib.Algebra.Order.Field.Rat
import Mathlib.Data.List.DropRight
import Mathlib.Tactic.IntervalCases
import Mathlib.Tactic.Ring

set_option autoImplicit false

/-! # Fixed-point decimals

`Numeral` is a decimal numeral in canonical form: a whole part without superfluous zeros at the
front and a fraction without zeros at the end, which is absent rather than empty. An amount counted
in units of `10 ^ -places` is written by splitting it at the point, padding the fraction to the full
number of places and dropping the zeros it ends with (`fixedPoint`). The numeral has exactly the
amount's value (`value_fixedPoint`), so different amounts have different texts
(`text_fixedPoint_injective`). -/

namespace ZkStellar

/-! ## Digits -/

/-- The digits of a positive number do not start with a zero. -/
theorem head?_toDigits_ne_zero (n : ℕ) : 0 < n → (Nat.toDigits 10 n).head? ≠ some '0' := by
  induction n using Nat.strongRecOn with
  | ind n ih =>
      intro hn
      by_cases hlt : n < 10
      · rw [Nat.toDigits_of_lt_base hlt]
        interval_cases n <;> decide
      · rw [Nat.toDigits_of_base_le (by decide) (not_lt.1 hlt),
          List.head?_append_of_ne_nil _ Nat.toDigits_ne_nil]
        exact ih (n / 10) (by omega) (by omega)

theorem toDigits_eq_zero_of_head? {n : ℕ} (hhead : (Nat.toDigits 10 n).head? = some '0') :
    Nat.toDigits 10 n = ['0'] := by
  cases n with
  | zero => rfl
  | succ n => exact absurd hhead (head?_toDigits_ne_zero (n + 1) n.succ_pos)

/-- A list without the zeros it ends with, and those zeros. -/
theorem rdropWhile_zero_append (cs : List Char) :
    ∃ j, cs = cs.rdropWhile (· == '0') ++ List.replicate j '0' := by
  refine ⟨(cs.rtakeWhile (· == '0')).length, ?_⟩
  have hzeros : cs.rtakeWhile (· == '0')
      = List.replicate (cs.rtakeWhile (· == '0')).length '0' :=
    List.eq_replicate_of_mem fun c hc => by simpa using List.mem_rtakeWhile_imp hc
  rw [← hzeros, List.rdropWhile_append_rtakeWhile]

/-! ## Numerals -/

/-- A canonical decimal numeral. -/
structure Numeral where
  whole : List Char
  fraction : List Char
  whole_ne_nil : whole ≠ []
  isDigit_whole : ∀ c ∈ whole, c.isDigit = true
  no_leading_zero : whole.head? = some '0' → whole = ['0']
  isDigit_fraction : ∀ c ∈ fraction, c.isDigit = true
  no_trailing_zero : fraction.getLast? ≠ some '0'

namespace Numeral

/-- The text of a numeral: there is a point only if there is a fraction. -/
def text (N : Numeral) : List Char :=
  if N.fraction.isEmpty then N.whole else N.whole ++ '.' :: N.fraction

/-- The number a numeral denotes. -/
def value (N : Numeral) : ℚ :=
  Nat.ofDigitChars 10 (N.whole ++ N.fraction) 0 / 10 ^ N.fraction.length

theorem point_notMem {cs : List Char} (hdigits : ∀ c ∈ cs, c.isDigit = true) : '.' ∉ cs :=
  fun hmem => absurd (hdigits '.' hmem) (by decide)

/-- The whole part is what stands before the point. -/
theorem takeWhile_text (N : Numeral) : N.text.takeWhile (· ≠ '.') = N.whole := by
  have hwhole : ∀ c ∈ N.whole, decide (c ≠ '.') = true := by
    intro c hc
    rw [decide_eq_true_iff]
    rintro rfl
    exact point_notMem N.isDigit_whole hc
  unfold text
  split
  · exact List.takeWhile_eq_self_iff.2 hwhole
  · rw [List.takeWhile_append_of_pos hwhole]
    simp

/-- The fraction is what stands behind the point. -/
theorem drop_text (N : Numeral) : N.text.drop (N.whole.length + 1) = N.fraction := by
  unfold text
  split
  · next hempty =>
      rw [List.isEmpty_iff.1 hempty]
      exact List.drop_of_length_le (Nat.le_succ _)
  · rw [← List.drop_drop, List.drop_left]
    rfl

/-- Numerals with one text have one value. -/
theorem value_eq_of_text_eq {N M : Numeral} (htext : N.text = M.text) : N.value = M.value := by
  have hwhole : N.whole = M.whole := by rw [← takeWhile_text N, htext, takeWhile_text]
  have hfraction : N.fraction = M.fraction := by
    rw [← drop_text N, htext, hwhole, drop_text]
  rw [value, value, hwhole, hfraction]

end Numeral

/-! ## Amounts -/

/-- The digits behind the point of an amount in units of `10 ^ -places`. -/
def fractionDigits (places n : ℕ) : List Char :=
  ((Nat.toDigits 10 (n % 10 ^ places)).leftpad places '0').rdropWhile (· == '0')

theorem isDigit_of_mem_fractionDigits {places n : ℕ} {c : Char}
    (hc : c ∈ fractionDigits places n) : c.isDigit = true := by
  have hpadded := (List.rdropWhile_prefix _ _).subset hc
  rw [List.leftpad, List.mem_append] at hpadded
  rcases hpadded with hzero | hdigit
  · rw [List.eq_of_mem_replicate hzero]
    rfl
  · exact Nat.isDigit_of_mem_toDigits (by decide) (by decide) hdigit

/-- The digits behind the point, filled up with zeros to all the places, are those of the
    remainder. -/
theorem fractionDigits_spec {places : ℕ} (hplaces : 0 < places) (n : ℕ) :
    ∃ j, (fractionDigits places n).length + j = places ∧
      Nat.ofDigitChars 10 (fractionDigits places n) 0 * 10 ^ j = n % 10 ^ places := by
  obtain ⟨j, hj⟩ := rdropWhile_zero_append
    ((Nat.toDigits 10 (n % 10 ^ places)).leftpad places '0')
  refine ⟨j, ?_, ?_⟩
  · have hshort : (Nat.toDigits 10 (n % 10 ^ places)).length ≤ places :=
      (Nat.length_toDigits_le_iff (by decide) hplaces).2 (Nat.mod_lt _ (Nat.pow_pos (by decide)))
    have hlength := congrArg List.length hj
    rw [List.length_leftpad, max_eq_left hshort, List.length_append, List.length_replicate]
      at hlength
    exact hlength.symm
  · have hvalue := congrArg (fun cs => Nat.ofDigitChars 10 cs 0) hj
    simp only [List.leftpad, Nat.ofDigitChars_append, Nat.ofDigitChars_replicate_zero, mul_zero,
      Nat.ofDigitChars_ten_toDigits] at hvalue
    rw [hvalue, mul_comm]
    rfl

/-- An amount in units of `10 ^ -places`, as a numeral. -/
def fixedPoint (places n : ℕ) : Numeral where
  whole := Nat.toDigits 10 (n / 10 ^ places)
  fraction := fractionDigits places n
  whole_ne_nil := Nat.toDigits_ne_nil
  isDigit_whole _ hc := Nat.isDigit_of_mem_toDigits (by decide) (by decide) hc
  no_leading_zero := toDigits_eq_zero_of_head?
  isDigit_fraction _ hc := isDigit_of_mem_fractionDigits hc
  no_trailing_zero hlast := by
    have hne : fractionDigits places n ≠ [] := by
      intro hnil
      rw [hnil] at hlast
      cases hlast
    rw [List.getLast?_eq_some_getLast hne, Option.some.injEq] at hlast
    have hnot := List.rdropWhile_last_not _ _ hne
    exact hnot (beq_iff_eq.2 hlast)

/-- The numeral of an amount denotes the amount. -/
theorem value_fixedPoint {places : ℕ} (hplaces : 0 < places) (n : ℕ) :
    (fixedPoint places n).value * 10 ^ places = n := by
  obtain ⟨j, hlength, hvalue⟩ := fractionDigits_spec hplaces n
  have hdigits : Nat.ofDigitChars 10 ((fixedPoint places n).whole ++ (fixedPoint places n).fraction)
      0 * 10 ^ j = n := by
    rw [Nat.ofDigitChars_append, Nat.ofDigitChars_eq_ofDigitChars_zero]
    calc (10 ^ (fractionDigits places n).length * Nat.ofDigitChars 10 (Nat.toDigits 10
            (n / 10 ^ places)) 0 + Nat.ofDigitChars 10 (fractionDigits places n) 0) * 10 ^ j
        = 10 ^ ((fractionDigits places n).length + j) * (n / 10 ^ places)
          + Nat.ofDigitChars 10 (fractionDigits places n) 0 * 10 ^ j := by
          rw [Nat.ofDigitChars_ten_toDigits]
          ring
      _ = 10 ^ places * (n / 10 ^ places) + n % 10 ^ places := by rw [hlength, hvalue]
      _ = n := Nat.div_add_mod n (10 ^ places)
  have hpow : (10 : ℚ) ^ places = 10 ^ (fixedPoint places n).fraction.length * 10 ^ j := by
    rw [← pow_add]
    exact congrArg (fun k => (10 : ℚ) ^ k) hlength.symm
  rw [Numeral.value, hpow, ← mul_assoc, div_mul_cancel₀ _ (by positivity)]
  exact_mod_cast hdigits

/-- Different amounts have different texts. -/
theorem text_fixedPoint_injective {places : ℕ} (hplaces : 0 < places) :
    Function.Injective fun n => (fixedPoint places n).text := by
  intro n m htext
  have hvalue := Numeral.value_eq_of_text_eq htext
  have hn := value_fixedPoint hplaces n
  rw [hvalue, value_fixedPoint hplaces m] at hn
  exact_mod_cast hn.symm

end ZkStellar

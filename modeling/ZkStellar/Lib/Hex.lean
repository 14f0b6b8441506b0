import ZkStellar.Lib.Bytes
import Mathlib.Tactic.IntervalCases

set_option autoImplicit false

/-! # Hexadecimal text

Reading pairs of hexadecimal digits as bytes undoes writing a number in hexadecimal, padded with
zeros to an even width: the bytes are the number's big-endian bytes (`hexBytes_toDigits`). -/

namespace ZkStellar

/-- The value of a hexadecimal digit of either case. -/
def hexDigitValue (c : Char) : Option ℕ :=
  if c.isDigit then some (c.toNat - '0'.toNat)
  else if 'a' ≤ c ∧ c ≤ 'f' then some (c.toNat - 'a'.toNat + 10)
  else if 'A' ≤ c ∧ c ≤ 'F' then some (c.toNat - 'A'.toNat + 10)
  else none

/-- The bytes that pairs of hexadecimal digits spell, up to the first pair that spells none. -/
def hexBytes : List Char → Bytes
  | hi :: lo :: cs =>
      match hexDigitValue hi, hexDigitValue lo with
      | some a, some b => UInt8.ofNat (16 * a + b) :: hexBytes cs
      | _, _ => []
  | _ => []

theorem hexDigitValue_digitChar {d : ℕ} (hd : d < 16) :
    hexDigitValue (Nat.digitChar d) = some d := by
  interval_cases d <;> decide

/-- The two digits of a byte. -/
def hexPair (b : UInt8) : List Char := [Nat.digitChar (b.toNat / 16), Nat.digitChar (b.toNat % 16)]

/-- Reading the digits of a byte string gives the byte string back. -/
theorem hexBytes_flatMap_hexPair (bs : Bytes) : hexBytes (bs.flatMap hexPair) = bs := by
  induction bs with
  | nil => rfl
  | cons b bs ih =>
      have hb := b.toNat_lt
      have hbyte : UInt8.ofNat (16 * (b.toNat / 16) + b.toNat % 16) = b := by
        rw [Nat.div_add_mod]
        exact UInt8.ofNat_toNat
      simp only [List.flatMap_cons, hexPair, List.cons_append, List.nil_append, hexBytes,
        hexDigitValue_digitChar (d := b.toNat / 16) (by omega),
        hexDigitValue_digitChar (d := b.toNat % 16) (by omega), hbyte]
      rw [ih]

/-- Padded digits, split at the last one. -/
theorem leftpad_toDigits_succ {m : ℕ} (hm : 0 < m) (v : ℕ) :
    (Nat.toDigits 16 v).leftpad (m + 1) '0'
      = (Nat.toDigits 16 (v / 16)).leftpad m '0' ++ [Nat.digitChar (v % 16)] := by
  by_cases hv : v < 16
  · rw [Nat.toDigits_of_lt_base hv, Nat.div_eq_of_lt hv, Nat.mod_eq_of_lt hv, Nat.toDigits_zero]
    obtain ⟨m, rfl⟩ := Nat.exists_eq_succ_of_ne_zero hm.ne'
    simp [List.leftpad, ← List.replicate_succ']
  · rw [Nat.toDigits_of_base_le (by omega) (by omega)]
    simp [List.leftpad]

/-- A number below `256 ^ n`, written in hexadecimal and padded to `2 * n` digits, spells its `n`
    big-endian bytes. -/
theorem hexBytes_toDigits {n v : ℕ} (hn : 0 < n) (hv : v < 256 ^ n) :
    hexBytes ((Nat.toDigits 16 v).leftpad (2 * n) '0') = toBe n v := by
  have hdigits : (Nat.toDigits 16 v).leftpad (2 * n) '0' = (toBe n v).flatMap hexPair := by
    induction n, hn using Nat.le_induction generalizing v with
    | base =>
        have hlt : v / 16 < 16 := by omega
        rw [show 2 * 1 = 1 + 1 from rfl, leftpad_toDigits_succ one_pos, Nat.toDigits_of_lt_base hlt]
        have hmod : v % 256 = v := Nat.mod_eq_of_lt (by omega)
        simp [List.leftpad, toBe, hexPair, hmod]
    | succ n hn ih =>
        rw [show 2 * (n + 1) = 2 * n + 1 + 1 from rfl, leftpad_toDigits_succ (by omega),
          leftpad_toDigits_succ (by omega), Nat.div_div_eq_div_mul, ih]
        · have hhigh : v % 256 / 16 = v / 16 % 16 := by omega
          have hlow : v % 256 % 16 = v % 16 := by omega
          simp [toBe, hexPair, hhigh, hlow]
        · rw [pow_succ] at hv
          exact Nat.div_lt_of_lt_mul (by omega)
  rw [hdigits, hexBytes_flatMap_hexPair]

end ZkStellar

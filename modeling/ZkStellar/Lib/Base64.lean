import ZkStellar.Lib.Bytes
import Mathlib.Data.List.DropRight
import Mathlib.Tactic.IntervalCases

set_option autoImplicit false

/-! # Base64

A byte string is cut into groups of six bits (`sextets`), each written as a digit, and the text is
padded to a multiple of four. The decoder is a forgiving one: it reads the low bytes of UTF-16 code
units as digits of both alphabets, skips what is no digit and stops at the padding. The last section
is about the alphabet for URLs: rewriting a text to it and back loses nothing but the padding
(`base64Standard_base64Url`), and the length tells how much padding that was (`base64Text_eq`). -/

namespace ZkStellar

/-! ## Groups of six bits -/

/-- The groups of six bits of a byte string, filled up with zeros. -/
def sextets : Bytes → List ℕ
  | [] => []
  | [a] => [a.toNat / 4, a.toNat % 4 * 16]
  | [a, b] => [a.toNat / 4, a.toNat % 4 * 16 + b.toNat / 16, b.toNat % 16 * 4]
  | a :: b :: c :: bs =>
      a.toNat / 4 :: (a.toNat % 4 * 16 + b.toNat / 16) :: (b.toNat % 16 * 4 + c.toNat / 64) ::
        c.toNat % 64 :: sextets bs

/-- The bytes that groups of six bits make up; bits that do not fill a byte are dropped. -/
def octets : List ℕ → Bytes
  | p :: q :: r :: s :: vs =>
      UInt8.ofNat (p * 4 + q / 16) :: UInt8.ofNat (q * 16 + r / 4) :: UInt8.ofNat (r * 64 + s) ::
        octets vs
  | [p, q, r] => [UInt8.ofNat (p * 4 + q / 16), UInt8.ofNat (q * 16 + r / 4)]
  | [p, q] => [UInt8.ofNat (p * 4 + q / 16)]
  | _ => []

theorem sextets_lt (bs : Bytes) : ∀ v ∈ sextets bs, v < 64 := by
  induction bs using sextets.induct with
  | case1 => simp [sextets]
  | case2 a =>
      have ha := a.toNat_lt
      simp only [sextets, List.forall_mem_cons]
      exact ⟨by omega, by omega, by simp⟩
  | case3 a b =>
      have ha := a.toNat_lt
      have hb := b.toNat_lt
      simp only [sextets, List.forall_mem_cons]
      exact ⟨by omega, by omega, by omega, by simp⟩
  | case4 a b c bs ih =>
      have ha := a.toNat_lt
      have hb := b.toNat_lt
      have hc := c.toNat_lt
      simp only [sextets, List.forall_mem_cons]
      exact ⟨by omega, by omega, by omega, by omega, ih⟩

theorem length_sextets (bs : Bytes) : (sextets bs).length = (4 * bs.length + 2) / 3 := by
  induction bs using sextets.induct with
  | case1 => rfl
  | case2 a => simp [sextets]
  | case3 a b => simp [sextets]
  | case4 a b c bs ih =>
      simp only [sextets, List.length_cons, ih]
      omega

/-- A byte whose bits come from two groups. -/
theorem ofNat_eq_of_mod {a : UInt8} {n : ℕ} (h : n % 256 = a.toNat) : UInt8.ofNat n = a := by
  rw [← UInt8.toNat_inj, UInt8.toNat_ofNat', h]

/-- Cutting into groups of six bits is undone. -/
theorem octets_sextets (bs : Bytes) : octets (sextets bs) = bs := by
  induction bs using sextets.induct with
  | case1 => rfl
  | case2 a =>
      have ha := a.toNat_lt
      simp only [sextets, octets]
      rw [ofNat_eq_of_mod (a := a) (by omega)]
  | case3 a b =>
      have ha := a.toNat_lt
      have hb := b.toNat_lt
      simp only [sextets, octets]
      rw [ofNat_eq_of_mod (a := a) (by omega), ofNat_eq_of_mod (a := b) (by omega)]
  | case4 a b c bs ih =>
      have ha := a.toNat_lt
      have hb := b.toNat_lt
      have hc := c.toNat_lt
      simp only [sextets, octets]
      rw [ofNat_eq_of_mod (a := a) (by omega), ofNat_eq_of_mod (a := b) (by omega),
        ofNat_eq_of_mod (a := c) (by omega), ih]

/-! ## Digits -/

/-- The base64 digit of a number below 64. -/
def base64Digit (v : ℕ) : Char :=
  if v < 26 then Char.ofNat ('A'.toNat + v)
  else if v < 52 then Char.ofNat ('a'.toNat + (v - 26))
  else if v < 62 then Char.ofNat ('0'.toNat + (v - 52))
  else if v < 63 then '+' else '/'

/-- The value of a digit of either alphabet. -/
def base64Value (c : Char) : Option ℕ :=
  if 'A' ≤ c ∧ c ≤ 'Z' then some (c.toNat - 'A'.toNat)
  else if 'a' ≤ c ∧ c ≤ 'z' then some (c.toNat - 'a'.toNat + 26)
  else if '0' ≤ c ∧ c ≤ '9' then some (c.toNat - '0'.toNat + 52)
  else if c = '+' ∨ c = '-' then some 62
  else if c = '/' ∨ c = '_' then some 63
  else none

theorem base64Value_digit {v : ℕ} (hv : v < 64) : base64Value (base64Digit v) = some v := by
  have hall : ∀ v : Fin 64, base64Value (base64Digit v) = some v.val := by decide
  exact hall ⟨v, hv⟩

/-- A character without a value is no digit. -/
theorem base64Digit_ne {v : ℕ} (hv : v < 64) {c : Char} (hc : base64Value c = none) :
    base64Digit v ≠ c := by
  rintro rfl
  rw [base64Value_digit hv] at hc
  cases hc

/-! ## Texts -/

/-- The base64 text of a byte string, with padding. -/
def base64Text (bs : Bytes) : List Char :=
  (sextets bs).map base64Digit ++ List.replicate ((3 - bs.length % 3) % 3) '='

/-- The UTF-16 code units of a character. -/
def codeUnits (c : Char) : List ℕ :=
  if c.toNat < 0x10000 then [c.toNat]
  else [0xD800 + (c.toNat - 0x10000) / 0x400, 0xDC00 + (c.toNat - 0x10000) % 0x400]

/-- The characters that the low bytes of its code units stand for. -/
def lowBytes (c : Char) : List Char := (codeUnits c).map fun unit => Char.ofNat (unit % 256)

/-- The bytes of a base64 text. -/
def base64Bytes (text : List Char) : Bytes :=
  octets (((text.flatMap lowBytes).takeWhile (· != '=')).filterMap base64Value)

/-- Base64 texts are written with few characters. -/
theorem toNat_lt_of_mem_base64Text (bs : Bytes) : ∀ c ∈ base64Text bs, c.toNat < 256 := by
  have hall : ∀ v : Fin 64, (base64Digit v).toNat < 256 := by decide
  intro c hc
  rcases List.mem_append.1 hc with hdigit | hpadding
  · obtain ⟨v, hv, rfl⟩ := List.mem_map.1 hdigit
    exact hall ⟨v, sextets_lt bs v hv⟩
  · rw [List.eq_of_mem_replicate hpadding]
    decide

/-- A text of such characters is read as it is. -/
theorem flatMap_lowBytes {text : List Char} (htext : ∀ c ∈ text, c.toNat < 256) :
    text.flatMap lowBytes = text := by
  induction text with
  | nil => rfl
  | cons c text ih =>
      obtain ⟨hc, htext⟩ := List.forall_mem_cons.1 htext
      have hunit : codeUnits c = [c.toNat] := if_pos (by omega)
      rw [List.flatMap_cons, ih htext, lowBytes, hunit, List.map_singleton, Nat.mod_eq_of_lt hc,
        Char.ofNat_toNat, List.singleton_append]

theorem filterMap_base64Value {vs : List ℕ} (hvs : ∀ v ∈ vs, v < 64) :
    (vs.map base64Digit).filterMap base64Value = vs := by
  induction vs with
  | nil => rfl
  | cons v vs ih =>
      obtain ⟨hv, hvs⟩ := List.forall_mem_cons.1 hvs
      rw [List.map_cons, List.filterMap_cons_some (base64Value_digit hv), ih hvs]

/-- The text of a byte string reads back. -/
theorem base64Bytes_base64Text (bs : Bytes) : base64Bytes (base64Text bs) = bs := by
  have hdigits : ∀ c ∈ (sextets bs).map base64Digit, (c != '=') = true := by
    intro c hc
    obtain ⟨v, hv, rfl⟩ := List.mem_map.1 hc
    exact bne_iff_ne.2 (base64Digit_ne (sextets_lt bs v hv) (by decide))
  have hpadding : ∀ n, (List.replicate n '=').takeWhile (· != '=') = [] := by
    intro n
    cases n <;> rfl
  rw [base64Bytes, flatMap_lowBytes (toNat_lt_of_mem_base64Text bs), base64Text,
    List.takeWhile_append_of_pos hdigits, hpadding, List.append_nil,
    filterMap_base64Value (sextets_lt bs), octets_sextets]

example : base64Text [0x66, 0x6f, 0x6f, 0x62] = "Zm9vYg==".toList := by decide

/-- The low byte of the first character is that of the letter `Z`. -/
example : base64Bytes "Śm9vYg==".toList = [0x66, 0x6f, 0x6f, 0x62] := by decide

/-- How much padding fills a text of some length up to a multiple of four. -/
def base64Padding (length : ℕ) : List Char := List.replicate ((4 - length % 4) % 4) '='

/-- Padding fills the digits up. -/
theorem base64Text_eq (bs : Bytes) :
    (sextets bs).map base64Digit ++ base64Padding ((sextets bs).map base64Digit).length
      = base64Text bs := by
  have hcount : (4 - (4 * bs.length + 2) / 3 % 4) % 4 = (3 - bs.length % 3) % 3 := by
    obtain ⟨q, r, hr, hlength⟩ : ∃ q r, r < 3 ∧ bs.length = 3 * q + r :=
      ⟨bs.length / 3, bs.length % 3, by omega, by omega⟩
    rw [hlength]
    have hdigits : (4 * (3 * q + r) + 2) / 3 = 4 * q + (4 * r + 2) / 3 := by omega
    rw [hdigits]
    interval_cases r <;> omega
  rw [base64Padding, base64Text, List.length_map, length_sextets, hcount]

/-- A padded text is not padded further. -/
theorem base64Padding_base64Text (bs : Bytes) : base64Padding (base64Text bs).length = [] := by
  rw [← base64Text_eq, List.length_append, base64Padding, base64Padding, List.length_replicate]
  have hcount : ∀ n : ℕ, (4 - (n + (4 - n % 4) % 4) % 4) % 4 = 0 := by
    intro n
    omega
  rw [hcount, List.replicate_zero]

/-! ## The alphabet for URLs -/

/-- One character in place of another. -/
def replaceChar (old new c : Char) : Char := if c = old then new else c

/-- A text in the alphabet for URLs, without padding. -/
def base64Url (text : List Char) : List Char :=
  ((text.map (replaceChar '+' '-')).map (replaceChar '/' '_')).rdropWhile (· == '=')

/-- A text in the standard alphabet. -/
def base64Standard (text : List Char) : List Char :=
  (text.map (replaceChar '-' '+')).map (replaceChar '_' '/')

/-- Padding at the end is dropped. -/
theorem rdropWhile_append_replicate {α : Type} [BEq α] [LawfulBEq α] {l : List α} {a : α}
    (hl : ∀ x ∈ l, x ≠ a) (n : ℕ) : (l ++ List.replicate n a).rdropWhile (· == a) = l := by
  induction n with
  | zero =>
      rw [List.replicate_zero, List.append_nil, List.rdropWhile_eq_self_iff]
      intro hne heq
      exact hl _ (List.getLast_mem hne) (eq_of_beq heq)
  | succ n ih =>
      rw [List.replicate_succ', ← List.append_assoc, List.rdropWhile_concat_pos _ _ _ (by simp), ih]

/-- A text without padding. -/
theorem base64Text_rdropWhile (bs : Bytes) :
    (base64Text bs).rdropWhile (· == '=') = (sextets bs).map base64Digit := by
  refine rdropWhile_append_replicate ?_ _
  intro c hc
  obtain ⟨v, hv, rfl⟩ := List.mem_map.1 hc
  exact base64Digit_ne (sextets_lt bs v hv) (by decide)

/-- Digits of the standard alphabet are left alone. -/
theorem base64Standard_digits {vs : List ℕ} (hvs : ∀ v ∈ vs, v < 64) :
    base64Standard (vs.map base64Digit) = vs.map base64Digit := by
  have hall : ∀ v : Fin 64, replaceChar '_' '/' (replaceChar '-' '+' (base64Digit v))
      = base64Digit v := by decide
  simp only [base64Standard, List.map_map]
  refine List.map_congr_left ?_
  intro v hv
  simp only [Function.comp_apply]
  exact hall ⟨v, hvs v hv⟩

/-- So is a text in the standard alphabet. -/
theorem base64Standard_base64Text (bs : Bytes) :
    base64Standard (base64Text bs) = base64Text bs := by
  have hpadding : ∀ n, base64Standard (List.replicate n '=') = List.replicate n '=' := by
    intro n
    rw [base64Standard, List.map_replicate, List.map_replicate]
    rfl
  have happend : ∀ s t, base64Standard (s ++ t) = base64Standard s ++ base64Standard t := by
    intro s t
    simp only [base64Standard, List.map_append]
  rw [base64Text, happend, base64Standard_digits (sextets_lt bs), hpadding]

/-- A text in the alphabet for URLs has a digit for each digit. -/
theorem base64Url_base64Text (bs : Bytes) :
    base64Url (base64Text bs) = (sextets bs).map fun v =>
      replaceChar '/' '_' (replaceChar '+' '-' (base64Digit v)) := by
  have hpadding : ∀ n, ((List.replicate n '=').map (replaceChar '+' '-')).map
      (replaceChar '/' '_') = List.replicate n '=' := by
    intro n
    rw [List.map_replicate, List.map_replicate]
    rfl
  have hdigit : ∀ v : Fin 64, replaceChar '/' '_' (replaceChar '+' '-' (base64Digit v)) ≠ '=' := by
    decide
  rw [base64Url, base64Text, List.map_append, List.map_append, hpadding, List.map_map, List.map_map,
    rdropWhile_append_replicate]
  · rfl
  · intro c hc
    obtain ⟨v, hv, rfl⟩ := List.mem_map.1 hc
    exact hdigit ⟨v, sextets_lt bs v hv⟩

/-- On the way to the alphabet for URLs and back a text loses its padding, and nothing else. -/
theorem base64Standard_base64Url (bs : Bytes) :
    base64Standard (base64Url (base64Text bs)) = (sextets bs).map base64Digit := by
  have hback : ∀ v : Fin 64, replaceChar '_' '/' (replaceChar '-' '+'
      (replaceChar '/' '_' (replaceChar '+' '-' (base64Digit v)))) = base64Digit v := by decide
  rw [base64Url_base64Text, base64Standard, List.map_map, List.map_map]
  refine List.map_congr_left ?_
  intro v hv
  simp only [Function.comp_apply]
  exact hback ⟨v, sextets_lt bs v hv⟩

end ZkStellar

import ZkStellar.Sdk.Json

set_option autoImplicit false

/-! # Big integers as strings

The SDK reads big integers with `BigInt(s)` and prints them with `toString()`. Reading takes decimal
numerals with a sign, the three prefixed bases and whitespace around them; what is printed is read
back (`bigIntOf_toString`). -/

namespace ZkStellar.Sdk

/-- The number that digits spell in a base, if there are some and all of them are digits of it. -/
def digitsValue (base : ℕ) (cs : List Char) : Option ℕ :=
  if cs.isEmpty then none
  else cs.foldlM (fun n c =>
    match hexDigitValue c with
    | some d => if d < base then some (base * n + d) else none
    | none => none) 0

/-- The integer that a literal stands for. -/
def integerLiteral : List Char → Option ℤ
  | [] => some 0
  | '0' :: 'x' :: cs | '0' :: 'X' :: cs => (digitsValue 16 cs).map Int.ofNat
  | '0' :: 'o' :: cs | '0' :: 'O' :: cs => (digitsValue 8 cs).map Int.ofNat
  | '0' :: 'b' :: cs | '0' :: 'B' :: cs => (digitsValue 2 cs).map Int.ofNat
  | '+' :: cs => (digitsValue 10 cs).map Int.ofNat
  | '-' :: cs => (digitsValue 10 cs).map fun n => -(n : ℤ)
  | cs => (digitsValue 10 cs).map Int.ofNat

/-- `BigInt(s)`, which raises a `SyntaxError` on what is no literal. -/
def bigIntOf (s : String) : Option ℤ := integerLiteral (trim s).toList

/-! ## What is printed -/

theorem isWhitespace_of_isDigit {c : Char} (hc : c.isDigit = true) : isWhitespace c = false := by
  simp only [Char.isDigit, Bool.and_eq_true, decide_eq_true_eq] at hc
  have hlow : 48 ≤ c.toNat := hc.1
  have hhigh : c.toNat ≤ 57 := hc.2
  rw [isWhitespace]
  generalize c.toNat = n at hlow hhigh
  interval_cases n <;> decide

theorem trim_of_no_whitespace {s : String} (hs : ∀ c ∈ s.toList, isWhitespace c = false) :
    trim s = s := by
  have hleft : s.toList.dropWhile isWhitespace = s.toList := by
    rcases hlist : s.toList with _ | ⟨c, cs⟩
    · rfl
    · rw [List.dropWhile_cons_of_neg (by rw [hs c (hlist ▸ List.mem_cons_self)]; decide)]
  have hright : s.toList.rdropWhile isWhitespace = s.toList := by
    rw [List.rdropWhile_eq_self_iff]
    intro hne
    rw [hs _ (List.getLast_mem hne)]
    decide
  rw [trim, hleft, hright, String.ofList_toList]

/-- The value of decimal digits. -/
theorem digitsValue_toDigits (n : ℕ) : digitsValue 10 (Nat.toDigits 10 n) = some n := by
  have hdigits : ∀ c ∈ Nat.toDigits 10 n, c.isDigit = true := fun c hc =>
    Nat.isDigit_of_mem_toDigits (by decide) (by decide) hc
  have hfold : ∀ (cs : List Char), (∀ c ∈ cs, c.isDigit = true) → ∀ m : ℕ,
      cs.foldlM (fun n c =>
        match hexDigitValue c with
        | some d => if d < 10 then some (10 * n + d) else none
        | none => none) m = some (Nat.ofDigitChars 10 cs m) := by
    intro cs hcs
    induction cs with
    | nil => exact fun m => rfl
    | cons c cs ih =>
        intro m
        obtain ⟨hc, hcs⟩ := List.forall_mem_cons.1 hcs
        have hlt : c.toNat - 48 < 10 := by
          simp only [Char.isDigit, Bool.and_eq_true, decide_eq_true_eq] at hc
          have hhigh : c.toNat ≤ 57 := hc.2
          omega
        rw [List.foldlM_cons, hexDigitValue, if_pos hc]
        show (if c.toNat - 48 < 10 then some (10 * m + (c.toNat - 48)) else none) >>= _ = _
        rw [if_pos hlt, Nat.ofDigitChars_cons]
        exact ih hcs _
  rw [digitsValue, hfold _ hdigits, Nat.ofDigitChars_ten_toDigits]
  simp [Nat.toDigits_ne_nil]

/-- Digits without a prefix are decimal. -/
theorem integerLiteral_of_digits {cs : List Char} (hne : cs ≠ [])
    (hcs : ∀ c ∈ cs, c.isDigit = true) :
    integerLiteral cs = (digitsValue 10 cs).map Int.ofNat := by
  have hsecond : ∀ {c d : Char} {rest : List Char}, cs = c :: d :: rest → d.isDigit = true := by
    rintro c d rest rfl
    exact hcs d (by simp)
  have hfirst : ∀ {c : Char} {rest : List Char}, cs = c :: rest → c.isDigit = true := by
    rintro c rest rfl
    exact hcs c (by simp)
  unfold integerLiteral
  split
  · exact absurd rfl hne
  · exact absurd (hsecond rfl) (by decide)
  · exact absurd (hsecond rfl) (by decide)
  · exact absurd (hsecond rfl) (by decide)
  · exact absurd (hsecond rfl) (by decide)
  · exact absurd (hsecond rfl) (by decide)
  · exact absurd (hsecond rfl) (by decide)
  · exact absurd (hfirst rfl) (by decide)
  · exact absurd (hfirst rfl) (by decide)
  · rfl

/-- What is printed is read back. -/
theorem bigIntOf_toString (z : ℤ) : bigIntOf (toString z) = some z := by
  have hdigits : ∀ n : ℕ, ∀ c ∈ Nat.toDigits 10 n, c.isDigit = true := fun n c hc =>
    Nat.isDigit_of_mem_toDigits (by decide) (by decide) hc
  cases z with
  | ofNat n =>
      have htext : (toString (Int.ofNat n)).toList = Nat.toDigits 10 n := Nat.toList_repr
      have htrim : trim (toString (Int.ofNat n)) = toString (Int.ofNat n) := by
        refine trim_of_no_whitespace ?_
        rw [htext]
        exact fun c hc => isWhitespace_of_isDigit (hdigits n c hc)
      rw [bigIntOf, htrim, htext, integerLiteral_of_digits Nat.toDigits_ne_nil (hdigits n),
        digitsValue_toDigits]
      rfl
  | negSucc n =>
      have htext : (toString (Int.negSucc n)).toList = '-' :: Nat.toDigits 10 (n + 1) := by
        show ("-" ++ Nat.repr (n + 1)).toList = _
        rw [String.toList_append, Nat.toList_repr]
        rfl
      have htrim : trim (toString (Int.negSucc n)) = toString (Int.negSucc n) := by
        refine trim_of_no_whitespace ?_
        rw [htext, List.forall_mem_cons]
        exact ⟨by decide, fun c hc => isWhitespace_of_isDigit (hdigits _ c hc)⟩
      rw [bigIntOf, htrim, htext, integerLiteral, digitsValue_toDigits]
      rfl

end ZkStellar.Sdk

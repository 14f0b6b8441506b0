import Mathlib.Data.Nat.Digits.Lemmas
import Mathlib.Data.List.Basic
import Mathlib.Tactic.Ring

set_option autoImplicit false

/-! # Byte strings and big-endian numbers

Byte strings of a fixed width carry their length as a field (`BytesN`), so a 32-byte value that is
not 32 bytes long cannot be built. `beNat` reads a byte string as a big-endian number and `toBe`
writes a number in a given width; on strings of one length the two are inverse to each other. The
last section is about concatenating fixed-width strings: the concatenation determines the list. -/

namespace ZkStellar

/-- A byte string of any length. -/
abbrev Bytes := List UInt8

/-- A byte string of exactly `n` bytes. -/
@[ext] structure BytesN (n : ℕ) where
  bytes : Bytes
  length_eq : bytes.length = n
deriving DecidableEq

/-- Give a byte string the width `n`, if it has it. -/
def BytesN.ofBytes? (n : ℕ) (b : Bytes) : Option (BytesN n) :=
  if h : b.length = n then some ⟨b, h⟩ else none

theorem BytesN.ofBytes?_eq_some_iff {n : ℕ} {b : Bytes} {x : BytesN n} :
    BytesN.ofBytes? n b = some x ↔ b = x.bytes := by
  unfold BytesN.ofBytes?
  constructor
  · intro h
    split at h
    · cases h; rfl
    · cases h
  · rintro rfl
    rw [dif_pos x.length_eq]

@[simp] theorem BytesN.ofBytes?_bytes {n : ℕ} (x : BytesN n) :
    BytesN.ofBytes? n x.bytes = some x :=
  BytesN.ofBytes?_eq_some_iff.2 rfl

theorem BytesN.ofBytes?_eq_none_iff {n : ℕ} {b : Bytes} :
    BytesN.ofBytes? n b = none ↔ b.length ≠ n := by
  unfold BytesN.ofBytes?
  split <;> simp_all

/-! ## Big-endian numbers -/

/-- The number a byte string spells, most significant byte first. -/
def beNat (b : Bytes) : ℕ := Nat.ofDigits 256 (b.reverse.map UInt8.toNat)

/-- The `n` low-order base-256 digits of `v`, most significant byte first. -/
def toBe : ℕ → ℕ → Bytes
  | 0, _ => []
  | n + 1, v => toBe n (v / 256) ++ [UInt8.ofNat (v % 256)]

@[simp] theorem beNat_nil : beNat [] = 0 := rfl

theorem beNat_concat (b : Bytes) (x : UInt8) : beNat (b ++ [x]) = beNat b * 256 + x.toNat := by
  simp only [beNat, List.reverse_append, List.reverse_cons, List.reverse_nil, List.nil_append,
    List.singleton_append, List.map_cons, Nat.ofDigits_cons]
  ring

@[simp] theorem length_toBe (n v : ℕ) : (toBe n v).length = n := by
  induction n generalizing v with
  | zero => rfl
  | succ n ih => simp [toBe, ih]

/-- The high-order digits stand in front of the low-order ones. -/
theorem toBe_add (m n v : ℕ) : toBe (m + n) v = toBe m (v / 256 ^ n) ++ toBe n v := by
  induction n generalizing v with
  | zero => simp [toBe]
  | succ n ih =>
      rw [← Nat.add_assoc, toBe, ih, Nat.div_div_eq_div_mul, ← pow_succ', List.append_assoc]
      rfl

theorem beNat_toBe (n v : ℕ) : beNat (toBe n v) = v % 256 ^ n := by
  induction n generalizing v with
  | zero => simp [toBe, Nat.mod_one]
  | succ n ih =>
      have hbyte : (UInt8.ofNat (v % 256)).toNat = v % 256 := by simp
      rw [toBe, beNat_concat, ih, hbyte, pow_succ, mul_comm (256 ^ n), Nat.mod_mul]
      ring

theorem beNat_toBe_of_lt {n v : ℕ} (h : v < 256 ^ n) : beNat (toBe n v) = v := by
  rw [beNat_toBe, Nat.mod_eq_of_lt h]

theorem beNat_lt (b : Bytes) : beNat b < 256 ^ b.length := by
  have h := Nat.ofDigits_lt_base_pow_length (b := 256) (l := b.reverse.map UInt8.toNat)
    (by norm_num) (by
      intro x hx
      obtain ⟨y, -, rfl⟩ := List.mem_map.1 hx
      exact y.toNat_lt)
  simpa [beNat] using h

/-- Strings of one length that spell the same number are equal. -/
theorem beNat_inj {b b' : Bytes} (hlen : b.length = b'.length) (h : beNat b = beNat b') :
    b = b' := by
  have hdigits : ∀ c : Bytes, ∀ x ∈ c.reverse.map UInt8.toNat, x < 256 := by
    intro c x hx
    obtain ⟨y, -, rfl⟩ := List.mem_map.1 hx
    exact y.toNat_lt
  have hrev : b.reverse.map UInt8.toNat = b'.reverse.map UInt8.toNat :=
    Nat.ofDigits_inj_of_len_eq (by norm_num) (by simpa using hlen) (hdigits b) (hdigits b') h
  have hinj : Function.Injective UInt8.toNat := fun x y hxy => UInt8.toNat_inj.1 hxy
  exact List.reverse_injective (List.map_injective_iff.2 hinj hrev)

/-- The `n`-byte big-endian string of `v`. -/
def BytesN.ofNat (n v : ℕ) : BytesN n := ⟨toBe n v, length_toBe n v⟩

/-- The number a fixed-width string spells. -/
def BytesN.toNat {n : ℕ} (x : BytesN n) : ℕ := beNat x.bytes

theorem BytesN.toNat_lt {n : ℕ} (x : BytesN n) : x.toNat < 256 ^ n := by
  have h := beNat_lt x.bytes
  rwa [x.length_eq] at h

theorem BytesN.toNat_inj {n : ℕ} {x y : BytesN n} : x.toNat = y.toNat ↔ x = y := by
  constructor
  · intro h
    exact BytesN.ext (beNat_inj (x.length_eq.trans y.length_eq.symm) h)
  · rintro rfl
    rfl

theorem BytesN.toNat_ofNat {n v : ℕ} (h : v < 256 ^ n) : (BytesN.ofNat n v).toNat = v :=
  beNat_toBe_of_lt h

/-! ## Cutting into words -/

/-- The big-endian numbers a byte string spells when it is cut into words of `n` bytes. -/
def beWords (n : ℕ) (b : Bytes) : List ℕ :=
  (List.range (b.length / n)).map fun i => beNat ((b.drop (n * i)).take n)

@[simp] theorem beWords_nil (n : ℕ) : beWords n [] = [] := by simp [beWords]

/-- The first word is cut off, the others follow. -/
theorem beWords_append {n : ℕ} (hn : 0 < n) {a : Bytes} (ha : a.length = n) (b : Bytes) :
    beWords n (a ++ b) = beNat a :: beWords n b := by
  have hlength : (a ++ b).length / n = b.length / n + 1 := by
    rw [List.length_append, ha, Nat.add_div_left _ hn]
  rw [beWords, hlength, List.range_succ_eq_map, List.map_cons, List.map_map]
  congr 1
  · rw [Nat.mul_zero, List.drop_zero, List.take_left' ha]
  · refine List.map_congr_left ?_
    intro i _
    have hskip : n * (i + 1) = a.length + n * i := by rw [ha, Nat.mul_succ, Nat.add_comm]
    rw [Function.comp_apply, Nat.succ_eq_add_one, hskip, List.drop_length_add_append]

theorem beWords_of_length {n : ℕ} (hn : 0 < n) {a : Bytes} (ha : a.length = n) :
    beWords n a = [beNat a] := by
  simpa using beWords_append hn ha []

/-- Strings of one length, a multiple of the word size, are determined by their words. -/
theorem beWords_inj {n k : ℕ} (hn : 0 < n) {b b' : Bytes} (hb : b.length = n * k)
    (hb' : b'.length = n * k) (h : beWords n b = beWords n b') : b = b' := by
  induction k generalizing b b' with
  | zero => rw [List.eq_nil_of_length_eq_zero hb, List.eq_nil_of_length_eq_zero hb']
  | succ k ih =>
      have hcut : ∀ {c : Bytes}, c.length = n * (k + 1) → (c.take n).length = n ∧
          (c.drop n).length = n * k := by
        intro c hc
        rw [List.length_take, List.length_drop, hc, Nat.mul_succ]
        omega
      obtain ⟨htake, hdrop⟩ := hcut hb
      obtain ⟨htake', hdrop'⟩ := hcut hb'
      rw [← List.take_append_drop n b, ← List.take_append_drop n b', beWords_append hn htake,
        beWords_append hn htake', List.cons.injEq] at h
      rw [← List.take_append_drop n b, ← List.take_append_drop n b',
        beNat_inj (htake.trans htake'.symm) h.1, ih hdrop hdrop' h.2]

/-! ## Concatenating fixed-width strings -/

/-- The bytes of a list of fixed-width strings, one after another. -/
def concatBytes {n : ℕ} (xs : List (BytesN n)) : Bytes := xs.flatMap BytesN.bytes

@[simp] theorem length_concatBytes {n : ℕ} (xs : List (BytesN n)) :
    (concatBytes xs).length = xs.length * n := by
  induction xs with
  | nil => simp [concatBytes]
  | cons x xs ih =>
      simp only [concatBytes, List.flatMap_cons, List.length_append, x.length_eq,
        List.length_cons] at ih ⊢
      rw [ih, Nat.succ_mul, Nat.add_comm]

/-- The concatenation of non-empty fixed-width strings determines the list, its length included. -/
theorem concatBytes_injective {n : ℕ} (hn : 0 < n) :
    Function.Injective (concatBytes (n := n)) := by
  intro xs
  induction xs with
  | nil =>
      intro ys h
      have hlen := congrArg List.length h
      simp only [length_concatBytes, List.length_nil, Nat.zero_mul] at hlen
      have : ys.length = 0 := (Nat.mul_eq_zero.1 hlen.symm).resolve_right hn.ne'
      exact (List.eq_nil_of_length_eq_zero this).symm
  | cons x xs ih =>
      intro ys h
      cases ys with
      | nil =>
          have hlen := congrArg List.length h
          simp only [length_concatBytes, List.length_cons, List.length_nil, Nat.zero_mul] at hlen
          exact absurd hlen (Nat.mul_ne_zero (by omega) hn.ne')
      | cons y ys =>
          simp only [concatBytes, List.flatMap_cons] at h
          obtain ⟨hxy, hrest⟩ := List.append_inj h (x.length_eq.trans y.length_eq.symm)
          rw [BytesN.ext hxy, ih hrest]

end ZkStellar

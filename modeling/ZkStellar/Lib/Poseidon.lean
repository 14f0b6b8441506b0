import Mathlib.Data.Matrix.Mul
import Mathlib.Tactic.Abel

set_option autoImplicit false

/-! # Substitution-permutation rounds and their optimised form

A permutation of state vectors made of rounds: add the round constants, apply a map to all lanes
(full rounds) or to the first lane only (partial rounds), multiply by a matrix. There are four full
rounds, `rP` partial rounds and four more full rounds. The optimised form adds the constants after
the map and runs the partial rounds in a basis that changes from round to round, in which their
matrices are sparse. When the tables of the two are related as `Optimises` says, they are the same
function (`optimised_eq_textbook`). States are row vectors over any commutative ring, the map on
lanes is any map. -/

namespace ZkStellar.Poseidon

variable {R : Type*} [CommRing R] {n : ℕ}

/-- A state of `n + 1` lanes. -/
abbrev StateVec (R : Type*) (n : ℕ) := Fin (n + 1) → R

/-- A matrix between states. -/
abbrev StateMatrix (R : Type*) (n : ℕ) := Matrix (Fin (n + 1)) (Fin (n + 1)) R

/-- The map applied to all lanes. -/
def onAll (σ : R → R) (s : StateVec R n) : StateVec R n := fun i => σ (s i)

/-- The map applied to the first lane. -/
def onFirst (σ : R → R) (s : StateVec R n) : StateVec R n := Function.update s 0 (σ (s 0))

/-! ## The two forms -/

/-- The state after `i` rounds of the textbook form. -/
def textbookState (σ : R → R) (M : StateMatrix R n) (c : ℕ → StateVec R n) (rP : ℕ)
    (s : StateVec R n) : ℕ → StateVec R n
  | 0 => s
  | i + 1 =>
      let t := textbookState σ M c rP s i + c i
      Matrix.vecMul (if i < 4 ∨ 4 + rP ≤ i then onAll σ t else onFirst σ t) M

/-- The textbook form. -/
def textbook (σ : R → R) (M : StateMatrix R n) (c : ℕ → StateVec R n) (rP : ℕ)
    (s : StateVec R n) : StateVec R n := textbookState σ M c rP s (8 + rP)

/-- The tables of the optimised form: the constants of the full rounds before and after the partial
    rounds, those of the partial rounds, the matrix in front of the partial rounds and the matrices
    of the partial rounds. -/
structure Tables (R : Type*) (n : ℕ) where
  early : ℕ → StateVec R n
  late : ℕ → StateVec R n
  partialConstant : ℕ → R
  pre : StateMatrix R n
  sparse : ℕ → StateMatrix R n

namespace Tables

variable (T : Tables R n) (σ : R → R) (M : StateMatrix R n)

/-- The first vector of the basis. -/
def firstLane : StateVec R n := Pi.single 0 1

/-- A full round: map, constants, matrix. -/
def fullRound (k s : StateVec R n) : StateVec R n := Matrix.vecMul (onAll σ s + k) M

/-- The full rounds in front of the last one before the partial rounds. -/
def earlyState (s : StateVec R n) : ℕ → StateVec R n
  | 0 => s + T.early 0
  | j + 1 => fullRound σ M (T.early (j + 1)) (earlyState s j)

/-- A partial round. -/
def partialRound (p : ℕ) (s : StateVec R n) : StateVec R n :=
  Matrix.vecMul (onFirst σ s + T.partialConstant p • firstLane) (T.sparse p)

/-- The partial rounds. -/
def partialState (s : StateVec R n) : ℕ → StateVec R n
  | 0 => s
  | p + 1 => T.partialRound σ p (partialState s p)

/-- The full rounds after the partial rounds, up to the last one. -/
def lateState (s : StateVec R n) : ℕ → StateVec R n
  | 0 => s
  | j + 1 => fullRound σ M (T.late j) (lateState s j)

/-- The optimised form. -/
def optimised (rP : ℕ) (s : StateVec R n) : StateVec R n :=
  let s := T.earlyState σ M s 3
  let s := Matrix.vecMul (onAll σ s + T.early 4) T.pre
  let s := T.partialState σ s rP
  let s := T.lateState σ M s 3
  Matrix.vecMul (onAll σ s) M

end Tables

/-! ## How their tables are related -/

/-- The first row and the first column are those of the identity. -/
def FixesFirst (B : StateMatrix R n) : Prop :=
  ∀ i, B 0 i = (1 : StateMatrix R n) 0 i ∧ B i 0 = (1 : StateMatrix R n) i 0

/-- The bases `B` and the shifts `e` explain the optimised tables. -/
structure Optimises (T : Tables R n) (M : StateMatrix R n) (c : ℕ → StateVec R n) (rP : ℕ)
    (B : ℕ → StateMatrix R n) (e : ℕ → StateVec R n) : Prop where
  early_zero : T.early 0 = c 0
  early : ∀ j, j = 1 ∨ j = 2 ∨ j = 3 → Matrix.vecMul (T.early j) M = c j
  fixesFirst : ∀ p, p ≤ rP → FixesFirst (B p)
  base_last : B rP = 1
  pre : T.pre = M * B 0
  sparse : ∀ p, p < rP → M * B (p + 1) = B p * T.sparse p
  shift_first : ∀ p, p ≤ rP → e p 0 = 0
  shift_last : e rP = 0
  early_four : Matrix.vecMul (T.early 4) M = c 4 + e 0
  shift : ∀ p, p < rP →
    Matrix.vecMul (e p + T.partialConstant p • Tables.firstLane) M = c (5 + p) + e (p + 1)
  late : ∀ j, j < 3 → Matrix.vecMul (T.late j) M = c (5 + rP + j)

section

variable {T : Tables R n} {σ : R → R} {M : StateMatrix R n} {c : ℕ → StateVec R n} {rP : ℕ}
  {B : ℕ → StateMatrix R n} {e : ℕ → StateVec R n} {s : StateVec R n}

/-- A basis that fixes the first lane does not move the first component. -/
theorem FixesFirst.vecMul_zero {B : StateMatrix R n} (hB : FixesFirst B) (v : StateVec R n) :
    Matrix.vecMul v B 0 = v 0 := by
  simp only [Matrix.vecMul, dotProduct, (hB _).2, Matrix.one_apply]
  simp

/-- It maps the first vector to itself. -/
theorem FixesFirst.vecMul_firstLane {B : StateMatrix R n} (hB : FixesFirst B) :
    Matrix.vecMul Tables.firstLane B = Tables.firstLane := by
  funext i
  simp only [Tables.firstLane, Matrix.single_one_vecMul]
  rw [Matrix.row_apply, (hB i).1, Matrix.one_apply, Pi.single_apply]
  simp only [eq_comm]

/-- What the map does to the first lane, as a multiple of the first vector. -/
theorem onFirst_eq (σ : R → R) (s : StateVec R n) :
    onFirst σ s = s + (σ (s 0) - s 0) • Tables.firstLane := by
  funext i
  by_cases hi : i = 0
  · subst hi
    simp [onFirst, Tables.firstLane]
  · simp [onFirst, Tables.firstLane, hi]

/-- The map on the first lane commutes with such a change of basis. -/
theorem FixesFirst.onFirst_vecMul {B : StateMatrix R n} (hB : FixesFirst B) (v : StateVec R n) :
    onFirst σ (Matrix.vecMul v B) = Matrix.vecMul (onFirst σ v) B := by
  rw [onFirst_eq, onFirst_eq, hB.vecMul_zero, Matrix.add_vecMul, Matrix.smul_vecMul,
    hB.vecMul_firstLane]

/-- It also commutes with adding a vector that has nothing in the first lane. -/
theorem onFirst_add {v w : StateVec R n} (hw : w 0 = 0) : onFirst σ (v + w) = onFirst σ v + w := by
  rw [onFirst_eq, onFirst_eq, Pi.add_apply, hw, add_zero]
  abel

/-- The textbook state with the constants of the next round added. -/
def shifted (σ : R → R) (M : StateMatrix R n) (c : ℕ → StateVec R n) (rP : ℕ) (s : StateVec R n)
    (i : ℕ) : StateVec R n := textbookState σ M c rP s i + c i

theorem textbookState_full {i : ℕ} (hi : i < 4 ∨ 4 + rP ≤ i) :
    textbookState σ M c rP s (i + 1) = Matrix.vecMul (onAll σ (shifted σ M c rP s i)) M := by
  rw [textbookState, if_pos hi]
  rfl

theorem textbookState_partialRound {p : ℕ} (hp : p < rP) :
    textbookState σ M c rP s (4 + p + 1)
      = Matrix.vecMul (onFirst σ (shifted σ M c rP s (4 + p))) M := by
  rw [textbookState, if_neg (by omega)]
  rfl

/-- A full round of the optimised form, when its constants are those of the next round. -/
theorem fullRound_shifted {k : StateVec R n} {i : ℕ} (hi : i < 4 ∨ 4 + rP ≤ i)
    (hk : Matrix.vecMul k M = c (i + 1)) :
    Tables.fullRound σ M k (shifted σ M c rP s i) = shifted σ M c rP s (i + 1) := by
  rw [Tables.fullRound, Matrix.add_vecMul, hk, ← textbookState_full hi]
  rfl

/-! ## The simulation -/

theorem earlyState_eq (h : Optimises T M c rP B e) {j : ℕ} (hj : j ≤ 3) :
    T.earlyState σ M s j = shifted σ M c rP s j := by
  induction j with
  | zero => rw [Tables.earlyState, h.early_zero, shifted, textbookState]
  | succ j ih =>
      rw [Tables.earlyState, ih (by omega)]
      exact fullRound_shifted (.inl (by omega)) (h.early (j + 1) (by omega))

/-- In front of partial round `p` the state is the textbook state, shifted and in the basis of
    that round. -/
theorem partialState_eq (h : Optimises T M c rP B e) {p : ℕ} (hp : p ≤ rP) :
    T.partialState σ (Matrix.vecMul (shifted σ M c rP s 4 + e 0) (B 0)) p
      = Matrix.vecMul (shifted σ M c rP s (4 + p) + e p) (B p) := by
  induction p with
  | zero => rfl
  | succ p ih =>
      have hB := h.fixesFirst p (by omega)
      rw [Tables.partialState, ih (by omega), Tables.partialRound, hB.onFirst_vecMul,
        onFirst_add (h.shift_first p (by omega))]
      -- the round constant moves into the basis of the round
      calc
        _ = Matrix.vecMul (Matrix.vecMul (onFirst σ (shifted σ M c rP s (4 + p)) + e p
              + T.partialConstant p • Tables.firstLane) (B p)) (T.sparse p) := by
            rw [Matrix.add_vecMul (B p) (onFirst _ _ + e p), Matrix.smul_vecMul,
              hB.vecMul_firstLane]
        _ = Matrix.vecMul (Matrix.vecMul (onFirst σ (shifted σ M c rP s (4 + p))) M
              + Matrix.vecMul (e p + T.partialConstant p • Tables.firstLane) M) (B (p + 1)) := by
            rw [Matrix.vecMul_vecMul, ← h.sparse p (by omega), ← Matrix.vecMul_vecMul,
              add_assoc, Matrix.add_vecMul]
        _ = _ := by
            rw [h.shift p (by omega), ← textbookState_partialRound (by omega), ← add_assoc]
            have hindex : 5 + p = 4 + p + 1 := by omega
            rw [hindex]
            rfl

theorem lateState_eq (h : Optimises T M c rP B e) {j : ℕ} (hj : j ≤ 3) :
    T.lateState σ M (shifted σ M c rP s (4 + rP)) j = shifted σ M c rP s (4 + rP + j) := by
  induction j with
  | zero => rfl
  | succ j ih =>
      rw [Tables.lateState, ih (by omega)]
      refine fullRound_shifted (.inr (by omega)) ?_
      rw [h.late j (by omega)]
      congr 1
      omega

/-- The two forms are the same function. -/
theorem optimised_eq_textbook (h : Optimises T M c rP B e) :
    T.optimised σ M rP s = textbook σ M c rP s := by
  have hmiddle : Matrix.vecMul (onAll σ (shifted σ M c rP s 3) + T.early 4) T.pre
      = Matrix.vecMul (shifted σ M c rP s 4 + e 0) (B 0) := by
    rw [h.pre, ← Matrix.vecMul_vecMul, Matrix.add_vecMul, ← textbookState_full (.inl (by omega)),
      h.early_four, ← add_assoc]
    rfl
  have hpartial := partialState_eq (σ := σ) (s := s) h le_rfl
  rw [h.base_last, h.shift_last, add_zero, Matrix.vecMul_one] at hpartial
  rw [Tables.optimised, earlyState_eq h le_rfl, hmiddle, hpartial, lateState_eq h le_rfl,
    ← textbookState_full (.inr (by omega)), textbook]
  congr 1
  omega

end

end ZkStellar.Poseidon

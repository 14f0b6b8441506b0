import Mathlib.Algebra.BigOperators.Fin
import ZkStellar.Lib.Poseidon
import ZkStellar.Sdk.Values
import ZkStellar.Soroban.Host

set_option autoImplicit false

/-! # The Poseidon hash

`poseidon` runs the optimised form of the permutation on lists of big integers, every operation
reducing modulo the order of the scalar field. Its tables come with a package and are a parameter
here. Read as vectors over the field, its states are those of the optimised form
(`represents_permute`), so for tables that come from textbook constants it returns what the
textbook permutation returns (`poseidon_eq_textbook`). -/

namespace ZkStellar.Sdk

/-! ## Arithmetic -/

/-- `BN254_SCALAR_MODULUS`. -/
def bn254ScalarModulus : ℤ :=
  21888242871839275222246405745257275088548364400416034343698204186575808495617

/-- `N_ROUNDS_F`. -/
def nRoundsF : ℕ := 8

/-- `N_ROUNDS_P`. -/
def nRoundsP : List ℕ := [56, 57, 56, 60, 60, 63, 64, 63, 60, 66, 60, 65, 70, 60, 64, 68]

/-- `MAX_INPUTS`. -/
def maxInputs : ℕ := nRoundsP.length

/-- `mod`: the remainder of the language has the sign of the dividend. -/
def mod (value : ℤ) : ℤ :=
  let reduced := value.tmod bn254ScalarModulus
  if reduced ≥ 0 then reduced else reduced + bn254ScalarModulus

/-- `add`. -/
def add (a b : ℤ) : ℤ := mod (a + b)

/-- `mul`. -/
def mul (a b : ℤ) : ℤ := mod (a * b)

/-- `pow5`. -/
def pow5 (value : ℤ) : ℤ :=
  let squared := mul value value
  let fourth := mul squared squared
  mul value fourth

/-! ## The function -/

/-- `PoseidonPreparedConstants`: the tables, by the number of inputs less one. -/
structure PoseidonPreparedConstants where
  C : ℕ → ℕ → ℤ
  S : ℕ → ℕ → ℤ
  M : ℕ → ℕ → ℕ → ℤ
  P : ℕ → ℕ → ℕ → ℤ

/-- `state.reduce(f, acc)`, the first element being at `index`. -/
def reduceFrom (f : ℤ → ℤ → ℕ → ℤ) : ℕ → ℤ → List ℤ → ℤ
  | _, acc, [] => acc
  | index, acc, value :: values => reduceFrom f (index + 1) (f acc value index) values

/-- Add to each lane its constant. -/
def addConstants (C : ℕ → ℤ) (offset : ℕ) (state : List ℤ) : List ℤ :=
  state.mapIdx fun index value => add value (C (offset + index))

/-- Multiply by a matrix, column by column. -/
def mix (M : ℕ → ℕ → ℤ) (state : List ℤ) : List ℤ :=
  state.mapIdx fun column _ =>
    reduceFrom (fun acc value row => add acc (mul (M row column) value)) 0 0 state

/-- The body of the loops over full rounds. -/
def fullRound (C : ℕ → ℤ) (offset : ℕ) (M : ℕ → ℕ → ℤ) (state : List ℤ) : List ℤ :=
  mix M (addConstants C offset (state.map pow5))

/-- The inner loop over the lanes `k` of a partial round, for `k` from `1` on. -/
def updateLanes (S : ℕ → ℤ) (offset lanes : ℕ) (state : List ℤ) : List ℤ :=
  (List.range lanes).foldl
    (fun state j => state.set (j + 1)
      (add (state.getD (j + 1) 0) (mul (state.getD 0 0) (S (offset + (j + 1) - 1)))))
    state

/-- The body of the loop over partial rounds. -/
def partialRound (t : ℕ) (C S : ℕ → ℤ) (round : ℕ) (state : List ℤ) : List ℤ :=
  let state := state.set 0 (pow5 (state.getD 0 0))
  let state := state.set 0 (add (state.getD 0 0) (C ((nRoundsF / 2 + 1) * t + round)))
  let s0 := reduceFrom (fun acc value index =>
    add acc (mul value (S ((t * 2 - 1) * round + index)))) 0 0 state
  let state := updateLanes S ((t * 2 - 1) * round + t) (t - 1) state
  state.set 0 s0

/-- The rounds of `poseidon`, for a state of `t` lanes. -/
def permute (t partialRounds : ℕ) (C S : ℕ → ℤ) (M P : ℕ → ℕ → ℤ) (state : List ℤ) : List ℤ :=
  let state := addConstants C 0 state
  let state := (List.range (nRoundsF / 2 - 1)).foldl
    (fun state round => fullRound C ((round + 1) * t) M state) state
  let state := fullRound C (nRoundsF / 2 * t) P state
  let state := (List.range partialRounds).foldl
    (fun state round => partialRound t C S round state) state
  let state := (List.range (nRoundsF / 2 - 1)).foldl
    (fun state round =>
      fullRound C ((nRoundsF / 2 + 1) * t + partialRounds + round * t) M state) state
  mix M (state.map pow5)

/-- `poseidon`, for an array of big integers. -/
def poseidon (constants : PoseidonPreparedConstants) (inputs : List ℤ) :
    Except SorobanZkError ℤ := do
  throwIf (inputs.length = 0 || inputs.length > maxInputs)
    (.general ("poseidon() supports between 1 and " ++ toString maxInputs ++ " inputs")
      .invalidPublicInput)
  let preparedInputs := inputs.map mod
  let t := preparedInputs.length + 1
  let partialRounds := nRoundsP.getD (t - 2) 0
  let C := constants.C (t - 2)
  let S := constants.S (t - 2)
  let M := constants.M (t - 2)
  let P := constants.P (t - 2)
  return (permute t partialRounds C S M P (0 :: preparedInputs)).getD 0 0

/-! ## Lists as vectors over the field -/

theorem bn254ScalarModulus_eq : bn254ScalarModulus = (bn254ScalarOrder : ℤ) := rfl

theorem mod_eq_emod (value : ℤ) : mod value = value % bn254ScalarModulus := by
  have hpos : (0 : ℤ) < bn254ScalarModulus := by decide
  have hnonneg := Int.emod_nonneg value hpos.ne'
  have hlt := Int.emod_lt_of_pos value hpos
  have habs : (bn254ScalarModulus.natAbs : ℤ) = bn254ScalarModulus := rfl
  simp only [mod, Int.tmod_eq_emod]
  split_ifs <;> omega

/-- What `mod` returns is canonical. -/
theorem mod_mem (value : ℤ) : 0 ≤ mod value ∧ mod value < bn254ScalarModulus := by
  rw [mod_eq_emod]
  exact ⟨Int.emod_nonneg _ (by decide), Int.emod_lt_of_pos _ (by decide)⟩

@[simp] theorem cast_mod (value : ℤ) : (mod value : Fr) = (value : Fr) := by
  rw [mod_eq_emod, bn254ScalarModulus_eq]
  exact ZMod.intCast_mod value bn254ScalarOrder

@[simp] theorem cast_add (a b : ℤ) : (add a b : Fr) = a + b := by
  rw [add, cast_mod, Int.cast_add]

@[simp] theorem cast_mul (a b : ℤ) : (mul a b : Fr) = a * b := by
  rw [mul, cast_mod, Int.cast_mul]

@[simp] theorem cast_pow5 (a : ℤ) : (pow5 a : Fr) = (a : Fr) ^ 5 := by
  simp only [pow5, cast_mul]
  ring

variable {n : ℕ}

/-- A list of `n + 1` integers stands for a vector over the field. -/
structure Represents (s : List ℤ) (v : Poseidon.StateVec Fr n) : Prop where
  length : s.length = n + 1
  lane : ∀ i : Fin (n + 1), (s.getD i 0 : Fr) = v i

theorem Represents.mapIdx {s : List ℤ} {v : Poseidon.StateVec Fr n} (h : Represents s v)
    {f : ℕ → ℤ → ℤ} {g : Fin (n + 1) → Fr → Fr}
    (hf : ∀ (i : Fin (n + 1)) (x : ℤ), (f i x : Fr) = g i x) :
    Represents (s.mapIdx f) (fun i => g i (v i)) := by
  refine ⟨by rw [List.length_mapIdx, h.length], ?_⟩
  intro i
  have hi : (i : ℕ) < s.length := by rw [h.length]; exact i.isLt
  rw [List.getD_eq_getElem?_getD, List.getElem?_mapIdx, List.getElem?_eq_getElem hi,
    Option.map_some, Option.getD_some, hf, ← h.lane, List.getD_eq_getElem?_getD,
    List.getElem?_eq_getElem hi, Option.getD_some]

theorem Represents.map_pow5 {s : List ℤ} {v : Poseidon.StateVec Fr n} (h : Represents s v) :
    Represents (s.map pow5) (Poseidon.onAll (· ^ 5) v) := by
  refine ⟨by rw [List.length_map, h.length], ?_⟩
  intro i
  have hi : (i : ℕ) < s.length := by rw [h.length]; exact i.isLt
  rw [List.getD_eq_getElem?_getD, List.getElem?_map, List.getElem?_eq_getElem hi, Option.map_some,
    Option.getD_some, cast_pow5, Poseidon.onAll, ← h.lane, List.getD_eq_getElem?_getD,
    List.getElem?_eq_getElem hi, Option.getD_some]

theorem Represents.addConstants {s : List ℤ} {v : Poseidon.StateVec Fr n} (h : Represents s v)
    (C : ℕ → ℤ) (offset : ℕ) :
    Represents (addConstants C offset s) (v + fun i : Fin (n + 1) => (C (offset + i) : Fr)) :=
  h.mapIdx (g := fun i x => x + (C (offset + i) : Fr)) fun i x => cast_add x (C (offset + i))

/-- A fold that adds weighted elements. -/
theorem cast_reduceFrom {f : ℤ → ℤ → ℕ → ℤ} {w : ℕ → Fr}
    (hf : ∀ acc value index, (f acc value index : Fr) = acc + w index * value) (s : List ℤ)
    (index : ℕ) (acc : ℤ) :
    (reduceFrom f index acc s : Fr)
      = acc + ∑ j ∈ Finset.range s.length, w (index + j) * (s.getD j 0 : Fr) := by
  induction s generalizing index acc with
  | nil => simp [reduceFrom]
  | cons value values ih =>
      rw [reduceFrom, ih, hf, List.length_cons, Finset.sum_range_succ']
      simp only [List.getD_cons_succ, List.getD_cons_zero, Nat.add_zero]
      have hindex : ∀ j, index + 1 + j = index + (j + 1) := fun j => by omega
      simp only [hindex]
      ring

theorem Represents.reduce {s : List ℤ} {v : Poseidon.StateVec Fr n} (h : Represents s v)
    {f : ℤ → ℤ → ℕ → ℤ} {w : ℕ → Fr}
    (hf : ∀ acc value index, (f acc value index : Fr) = acc + w index * value) :
    (reduceFrom f 0 0 s : Fr) = ∑ i : Fin (n + 1), w i * v i := by
  rw [cast_reduceFrom hf, h.length, Finset.sum_range, Int.cast_zero, zero_add]
  exact Finset.sum_congr rfl fun i _ => by rw [Nat.zero_add, h.lane]

/-- A table as a matrix. -/
def matrixOf (n : ℕ) (M : ℕ → ℕ → ℤ) : Poseidon.StateMatrix Fr n :=
  Matrix.of fun row column => (M row column : Fr)

theorem Represents.mix {s : List ℤ} {v : Poseidon.StateVec Fr n} (h : Represents s v)
    (M : ℕ → ℕ → ℤ) : Represents (mix M s) (Matrix.vecMul v (matrixOf n M)) := by
  have hcolumns : Matrix.vecMul v (matrixOf n M)
      = fun column : Fin (n + 1) => ∑ row : Fin (n + 1), (M row column : Fr) * v row := by
    funext column
    simp only [Matrix.vecMul, dotProduct, matrixOf, Matrix.of_apply]
    exact Finset.sum_congr rfl fun row _ => mul_comm _ _
  rw [hcolumns]
  refine h.mapIdx (g := fun column _ => ∑ row : Fin (n + 1), (M row column : Fr) * v row)
    fun column _ => h.reduce (w := fun row => (M row column : Fr)) fun acc value row => ?_
  rw [cast_add, cast_mul]

theorem Represents.fullRound {s : List ℤ} {v : Poseidon.StateVec Fr n} (h : Represents s v)
    (C : ℕ → ℤ) (offset : ℕ) (M : ℕ → ℕ → ℤ) :
    Represents (fullRound C offset M s) (Poseidon.Tables.fullRound (· ^ 5) (matrixOf n M)
      (fun i : Fin (n + 1) => (C (offset + i) : Fr)) v) :=
  (h.map_pow5.addConstants C offset).mix M

/-! ### Partial rounds -/

theorem length_updateLanes (S : ℕ → ℤ) (offset lanes : ℕ) (s : List ℤ) :
    (updateLanes S offset lanes s).length = s.length := by
  induction lanes with
  | zero => rfl
  | succ lanes ih =>
      rw [updateLanes, List.range_succ, List.foldl_append, List.foldl_cons, List.foldl_nil,
        List.length_set]
      exact ih

/-- The inner loop changes the lanes `1` to `lanes`, reading lane `0` only besides. -/
theorem getD_updateLanes (S : ℕ → ℤ) (offset : ℕ) {lanes : ℕ} {s : List ℤ}
    (hlanes : lanes < s.length) (i : ℕ) :
    (updateLanes S offset lanes s).getD i 0 =
      if 0 < i ∧ i ≤ lanes then add (s.getD i 0) (mul (s.getD 0 0) (S (offset + i - 1)))
      else s.getD i 0 := by
  induction lanes generalizing i with
  | zero => rw [if_neg (by omega)]; rfl
  | succ lanes ih =>
      have hstep : updateLanes S offset (lanes + 1) s = (updateLanes S offset lanes s).set
          (lanes + 1) (add ((updateLanes S offset lanes s).getD (lanes + 1) 0)
            (mul ((updateLanes S offset lanes s).getD 0 0) (S (offset + (lanes + 1) - 1)))) := by
        rw [updateLanes, List.range_succ, List.foldl_append, List.foldl_cons, List.foldl_nil]
        rfl
      have hlen := length_updateLanes S offset lanes s
      rw [hstep, ih (by omega), ih (by omega), if_neg (by omega), if_neg (by omega)]
      by_cases hi : i = lanes + 1
      · subst hi
        rw [if_pos (by omega), List.getD_eq_getElem?_getD, List.getElem?_set_self (by omega)]
        rfl
      · rw [List.getD_eq_getElem?_getD, List.getElem?_set_ne (Ne.symm hi),
          ← List.getD_eq_getElem?_getD, ih (by omega)]
        by_cases hle : 0 < i ∧ i ≤ lanes
        · rw [if_pos hle, if_pos (by omega)]
        · rw [if_neg hle, if_neg (by omega)]

theorem Represents.set_zero {s : List ℤ} {v : Poseidon.StateVec Fr n} (h : Represents s v)
    (x : ℤ) : Represents (s.set 0 x) (Function.update v 0 (x : Fr)) := by
  refine ⟨by rw [List.length_set, h.length], ?_⟩
  intro i
  by_cases hi : i = 0
  · subst hi
    have hpos : 0 < s.length := by rw [h.length]; exact Nat.succ_pos n
    rw [List.getD_eq_getElem?_getD, Fin.val_zero, List.getElem?_set_self hpos,
      Function.update_self, Option.getD_some]
  · have hne : 0 ≠ (i : ℕ) := fun hzero => hi (Fin.ext hzero.symm)
    rw [List.getD_eq_getElem?_getD, List.getElem?_set_ne hne, Function.update_of_ne hi,
      ← List.getD_eq_getElem?_getD, h.lane]

/-- The sparse matrix of a partial round: the first column and the rest of the first row come from
    the table, the other entries are those of the identity. -/
def sparseOf (n : ℕ) (S : ℕ → ℤ) (round : ℕ) : Poseidon.StateMatrix Fr n :=
  Matrix.of fun i j =>
    if j.val = 0 then (S (((n + 1) * 2 - 1) * round + i) : Fr)
    else if i.val = 0 then (S (((n + 1) * 2 - 1) * round + (n + 1) + j - 1) : Fr)
    else if i = j then 1 else 0

theorem vecMul_sparseOf_zero (S : ℕ → ℤ) (round : ℕ) (v : Poseidon.StateVec Fr n) :
    Matrix.vecMul v (sparseOf n S round) 0
      = ∑ i : Fin (n + 1), (S (((n + 1) * 2 - 1) * round + i) : Fr) * v i := by
  simp only [Matrix.vecMul, dotProduct, sparseOf, Matrix.of_apply, Fin.val_zero, if_pos]
  exact Finset.sum_congr rfl fun i _ => mul_comm _ _

theorem vecMul_sparseOf_of_ne (S : ℕ → ℤ) (round : ℕ) (v : Poseidon.StateVec Fr n)
    {j : Fin (n + 1)} (hj : j ≠ 0) :
    Matrix.vecMul v (sparseOf n S round) j
      = v j + v 0 * (S (((n + 1) * 2 - 1) * round + (n + 1) + j - 1) : Fr) := by
  simp only [Matrix.vecMul, dotProduct, sparseOf, Matrix.of_apply, Fin.val_eq_zero_iff, if_neg hj]
  rw [Fin.sum_univ_succ, if_pos rfl]
  obtain ⟨k, rfl⟩ := Fin.exists_succ_eq.2 hj
  have hrest : ∀ i : Fin n, (if i.succ = 0
      then (S (((n + 1) * 2 - 1) * round + (n + 1) + k.succ - 1) : Fr)
      else if i.succ = k.succ then 1 else 0) = if i = k then 1 else 0 := fun i => by
    rw [if_neg (Fin.succ_ne_zero i)]
    simp only [Fin.succ_inj]
  simp only [hrest, mul_ite, mul_one, mul_zero, Finset.sum_ite_eq', Finset.mem_univ, if_true]
  exact add_comm _ _

/-- The first lane of a partial round: the fifth power and the constant after it. -/
theorem Represents.firstLane {s : List ℤ} {v : Poseidon.StateVec Fr n} (h : Represents s v)
    (c : ℤ) :
    Represents ((s.set 0 (pow5 (s.getD 0 0))).set 0
        (add ((s.set 0 (pow5 (s.getD 0 0))).getD 0 0) c))
      (Poseidon.onFirst (· ^ 5) v + (c : Fr) • Poseidon.Tables.firstLane) := by
  have hpower := h.set_zero (pow5 (s.getD 0 0))
  have hconstant := hpower.set_zero (add ((s.set 0 (pow5 (s.getD 0 0))).getD 0 0) c)
  have hlane : ((s.getD 0 0 : ℤ) : Fr) = v 0 := h.lane 0
  have hlane' := hpower.lane 0
  rw [Fin.val_zero, Function.update_self, cast_pow5, hlane] at hlane'
  rw [Function.update_idem, cast_add, hlane'] at hconstant
  convert hconstant using 1
  funext i
  by_cases hi : i = 0
  · subst hi
    simp [Poseidon.onFirst, Poseidon.Tables.firstLane]
  · simp [Poseidon.onFirst, Poseidon.Tables.firstLane, hi]

/-- The sparse matrix of a partial round, lane by lane. -/
theorem Represents.sparse {s : List ℤ} {v : Poseidon.StateVec Fr n} (h : Represents s v)
    (S : ℕ → ℤ) (round : ℕ) :
    Represents ((updateLanes S (((n + 1) * 2 - 1) * round + (n + 1)) n s).set 0
        (reduceFrom (fun acc value index =>
          add acc (mul value (S (((n + 1) * 2 - 1) * round + index)))) 0 0 s))
      (Matrix.vecMul v (sparseOf n S round)) := by
  have hsum : (reduceFrom (fun acc value index =>
      add acc (mul value (S (((n + 1) * 2 - 1) * round + index)))) 0 0 s : Fr)
      = Matrix.vecMul v (sparseOf n S round) 0 := by
    rw [vecMul_sparseOf_zero]
    refine h.reduce (w := fun i => (S (((n + 1) * 2 - 1) * round + i) : Fr))
      ?_
    intro acc value index
    rw [cast_add, cast_mul, mul_comm]
  -- the loop over the lanes leaves the first one; its sum was taken before and is stored last
  have hlanes : Represents (updateLanes S (((n + 1) * 2 - 1) * round + (n + 1)) n s)
      (Function.update (Matrix.vecMul v (sparseOf n S round)) 0 (v 0)) := by
    refine ⟨by rw [length_updateLanes, h.length], ?_⟩
    intro i
    rw [getD_updateLanes _ _ (by rw [h.length]; exact Nat.lt_succ_self n)]
    by_cases hi : i = 0
    · subst hi
      rw [if_neg (by simp), Function.update_self, h.lane]
    · have hpos : 0 < (i : ℕ) := Nat.pos_of_ne_zero fun hzero => hi (Fin.ext hzero)
      rw [if_pos ⟨hpos, Nat.lt_succ_iff.1 i.isLt⟩, Function.update_of_ne hi,
        vecMul_sparseOf_of_ne _ _ _ hi, cast_add, cast_mul, h.lane]
      rw [show ((s.getD 0 0 : ℤ) : Fr) = v 0 from h.lane 0]
  have hset := hlanes.set_zero (reduceFrom (fun acc value index =>
    add acc (mul value (S (((n + 1) * 2 - 1) * round + index)))) 0 0 s)
  rwa [hsum, Function.update_idem, Function.update_eq_self] at hset

theorem Represents.partialRound {s : List ℤ} {v : Poseidon.StateVec Fr n} (h : Represents s v)
    (C S : ℕ → ℤ) (round : ℕ) :
    Represents (partialRound (n + 1) C S round s)
      (Matrix.vecMul (Poseidon.onFirst (· ^ 5) v
          + (C (5 * (n + 1) + round) : Fr) • Poseidon.Tables.firstLane)
        (sparseOf n S round)) :=
  (h.firstLane (C (5 * (n + 1) + round))).sparse S round

/-! ### The whole function -/

/-- A loop that follows a sequence of vectors step by step. -/
theorem represents_foldl_range {step : List ℤ → ℕ → List ℤ} {V : ℕ → Poseidon.StateVec Fr n}
    (hstep : ∀ round s, Represents s (V round) → Represents (step s round) (V (round + 1)))
    {s : List ℤ} (h : Represents s (V 0)) (rounds : ℕ) :
    Represents ((List.range rounds).foldl step s) (V rounds) := by
  induction rounds with
  | zero => exact h
  | succ rounds ih =>
      rw [List.range_succ, List.foldl_append]
      exact hstep rounds _ ih

/-- The tables of the optimised form for states of `n + 1` lanes and `rP` partial rounds. -/
def tablesOf (n rP : ℕ) (C S : ℕ → ℤ) (P : ℕ → ℕ → ℤ) : Poseidon.Tables Fr n where
  early j := fun i => (C (j * (n + 1) + i) : Fr)
  late j := fun i => (C (5 * (n + 1) + rP + j * (n + 1) + i) : Fr)
  partialConstant p := (C (5 * (n + 1) + p) : Fr)
  pre := matrixOf n P
  sparse := sparseOf n S

section

variable {s : List ℤ} {v : Poseidon.StateVec Fr n} (rP : ℕ) (C S : ℕ → ℤ) (M P : ℕ → ℕ → ℤ)

/-- The constants that are added first. -/
theorem represents_first (h : Represents s v) :
    Represents (addConstants C 0 s)
      ((tablesOf n rP C S P).earlyState (· ^ 5) (matrixOf n M) v 0) := by
  have hearly : (tablesOf n rP C S P).early 0 = fun i : Fin (n + 1) => (C (0 + i) : Fr) := by
    funext i
    simp only [tablesOf, Nat.zero_mul]
  rw [Poseidon.Tables.earlyState, hearly]
  exact h.addConstants C 0

theorem represents_early (round : ℕ) (s : List ℤ)
    (h : Represents s ((tablesOf n rP C S P).earlyState (· ^ 5) (matrixOf n M) v round)) :
    Represents (fullRound C ((round + 1) * (n + 1)) M s)
      ((tablesOf n rP C S P).earlyState (· ^ 5) (matrixOf n M) v (round + 1)) :=
  h.fullRound C ((round + 1) * (n + 1)) M

theorem represents_partialRound (round : ℕ) (s : List ℤ)
    (h : Represents s ((tablesOf n rP C S P).partialState (· ^ 5) v round)) :
    Represents (partialRound (n + 1) C S round s)
      ((tablesOf n rP C S P).partialState (· ^ 5) v (round + 1)) :=
  h.partialRound C S round

theorem represents_late (round : ℕ) (s : List ℤ)
    (h : Represents s ((tablesOf n rP C S P).lateState (· ^ 5) (matrixOf n M) v round)) :
    Represents (fullRound C (5 * (n + 1) + rP + round * (n + 1)) M s)
      ((tablesOf n rP C S P).lateState (· ^ 5) (matrixOf n M) v (round + 1)) :=
  h.fullRound C (5 * (n + 1) + rP + round * (n + 1)) M

/-- The permutation of the code is the optimised form. -/
theorem represents_permute (h : Represents s v) :
    Represents (permute (n + 1) rP C S M P s)
      ((tablesOf n rP C S P).optimised (· ^ 5) (matrixOf n M) rP v) := by
  have hearly := represents_foldl_range (represents_early rP C S M P)
    (represents_first rP C S M P h) 3
  have hmiddle := hearly.fullRound C (4 * (n + 1)) P
  have hpartial := represents_foldl_range (represents_partialRound rP C S P) hmiddle rP
  have hlate := represents_foldl_range (represents_late rP C S M P) hpartial 3
  exact hlate.map_pow5.mix M

end

/-- A fold whose steps reduce ends with a canonical integer. -/
theorem reduceFrom_mem {f : ℤ → ℤ → ℕ → ℤ}
    (hf : ∀ acc value index, 0 ≤ f acc value index ∧ f acc value index < bn254ScalarModulus)
    (s : List ℤ) (index : ℕ) {acc : ℤ} (hacc : 0 ≤ acc ∧ acc < bn254ScalarModulus) :
    0 ≤ reduceFrom f index acc s ∧ reduceFrom f index acc s < bn254ScalarModulus := by
  induction s generalizing index acc with
  | nil => exact hacc
  | cons value values ih => exact ih (index + 1) (hf acc value index)

theorem getD_mix_mem (M : ℕ → ℕ → ℤ) (s : List ℤ) :
    0 ≤ (mix M s).getD 0 0 ∧ (mix M s).getD 0 0 < bn254ScalarModulus := by
  cases s with
  | nil =>
      have hpos : 0 < bn254ScalarModulus := by decide
      exact ⟨le_rfl, hpos⟩
  | cons value values =>
      rw [mix, List.mapIdx_cons, List.getD_cons_zero]
      exact reduceFrom_mem (fun _ _ _ => mod_mem _) _ _ ⟨le_rfl, by decide⟩

/-- A canonical integer is the representative of its class. -/
theorem eq_val_of_cast {x : ℤ} (hx : 0 ≤ x ∧ x < bn254ScalarModulus) {y : Fr}
    (hy : (x : Fr) = y) : x = y.val := by
  obtain ⟨m, rfl⟩ := Int.eq_ofNat_of_zero_le hx.1
  have hm : m < bn254ScalarOrder := by
    have hlt := hx.2
    rw [bn254ScalarModulus_eq] at hlt
    exact_mod_cast hlt
  rw [← hy, Int.cast_natCast, ZMod.val_natCast, Nat.mod_eq_of_lt hm]

/-- The state that the textbook permutation starts from. -/
def startState (inputs : List ℤ) : Poseidon.StateVec Fr inputs.length :=
  Fin.cons 0 fun i => (inputs.get i : Fr)

theorem represents_startState (inputs : List ℤ) :
    Represents (0 :: inputs.map mod) (startState inputs) := by
  refine ⟨by rw [List.length_cons, List.length_map], ?_⟩
  intro i
  cases i using Fin.cases with
  | zero => simp [startState]
  | succ i =>
      have hi : (i : ℕ) < inputs.length := i.isLt
      rw [Fin.val_succ, List.getD_cons_succ, List.getD_eq_getElem?_getD, List.getElem?_map,
        List.getElem?_eq_getElem hi, Option.map_some, Option.getD_some, cast_mod]
      rfl

/-- The number of partial rounds for `n` inputs. -/
def partialRoundsOf (n : ℕ) : ℕ := nRoundsP.getD (n - 1) 0

/-- The tables for `n` inputs. -/
def PoseidonPreparedConstants.tables (constants : PoseidonPreparedConstants) (n : ℕ) :
    Poseidon.Tables Fr n :=
  tablesOf n (partialRoundsOf n) (constants.C (n - 1)) (constants.S (n - 1)) (constants.P (n - 1))

/-- The matrix of the full rounds for `n` inputs. -/
def PoseidonPreparedConstants.mds (constants : PoseidonPreparedConstants) (n : ℕ) :
    Poseidon.StateMatrix Fr n :=
  matrixOf n (constants.M (n - 1))

section

variable {constants : PoseidonPreparedConstants} {inputs : List ℤ}

theorem poseidon_eq_permute (hlen : 0 < inputs.length ∧ inputs.length ≤ 16) :
    poseidon constants inputs = .ok ((permute (inputs.length + 1)
      (partialRoundsOf inputs.length) (constants.C (inputs.length - 1))
      (constants.S (inputs.length - 1)) (constants.M (inputs.length - 1))
      (constants.P (inputs.length - 1)) (0 :: inputs.map mod)).getD 0 0) := by
  have hmax : maxInputs = 16 := rfl
  have harity : throwIf (decide (inputs.length = 0) || decide (inputs.length > maxInputs))
      (SorobanZkError.general ("poseidon() supports between 1 and " ++ toString maxInputs
        ++ " inputs") .invalidPublicInput) = .ok () := by
    rw [throwIf_eq_ok_iff, hmax]
    simp only [Bool.or_eq_false_iff, decide_eq_false_iff_not]
    omega
  have hwidth : inputs.length + 1 - 2 = inputs.length - 1 := by omega
  simp only [poseidon, List.length_map, hwidth]
  rw [harity]
  rfl

/-- Poseidon returns an integer below the order of the field. -/
theorem exists_poseidon (hlen : 0 < inputs.length ∧ inputs.length ≤ 16) :
    ∃ v, poseidon constants inputs = .ok v ∧ 0 ≤ v ∧ v < bn254ScalarModulus :=
  ⟨_, poseidon_eq_permute hlen, getD_mix_mem _ _⟩

/-- For tables that come from the textbook constants `c`, Poseidon is the textbook permutation. -/
theorem poseidon_eq_textbook (hlen : 0 < inputs.length ∧ inputs.length ≤ 16)
    {c : ℕ → Poseidon.StateVec Fr inputs.length} {B : ℕ → Poseidon.StateMatrix Fr inputs.length}
    {e : ℕ → Poseidon.StateVec Fr inputs.length}
    (htables : Poseidon.Optimises (constants.tables inputs.length) (constants.mds inputs.length) c
      (partialRoundsOf inputs.length) B e) :
    poseidon constants inputs = .ok (Poseidon.textbook (· ^ 5) (constants.mds inputs.length) c
      (partialRoundsOf inputs.length) (startState inputs) 0).val := by
  have hrepresents := represents_permute (partialRoundsOf inputs.length)
    (constants.C (inputs.length - 1)) (constants.S (inputs.length - 1))
    (constants.M (inputs.length - 1)) (constants.P (inputs.length - 1))
    (represents_startState inputs)
  have htextbook : (constants.tables inputs.length).optimised (· ^ 5) (constants.mds inputs.length)
      (partialRoundsOf inputs.length) (startState inputs) = _ :=
    Poseidon.optimised_eq_textbook htables
  rw [poseidon_eq_permute hlen]
  exact congrArg Except.ok (eq_val_of_cast (getD_mix_mem _ _)
    ((hrepresents.lane 0).trans (congrFun htextbook 0)))

end

/-- Tables whose matrices are sparse already, so that no basis has to change. -/
def sparseConstants : PoseidonPreparedConstants where
  C _ i := i
  S _ i := if i % 3 = 0 then 2 else 1
  M _ row column := if row = 0 ∧ column = 0 then 2 else 1
  P _ row column := if row = 0 ∧ column = 0 then 2 else 1

/-- The textbook constants they come from, for one input. -/
def sparseTextbook (i : ℕ) : Poseidon.StateVec Fr 1 :=
  let T := sparseConstants.tables 1
  let M := sparseConstants.mds 1
  if i = 0 then T.early 0
  else if i ≤ 4 then Matrix.vecMul (T.early i) M
  else if i < 61 then Matrix.vecMul (T.partialConstant (i - 5) • Poseidon.Tables.firstLane) M
  else Matrix.vecMul (T.late (i - 61)) M

theorem sparseOf_sparseConstants (round : ℕ) :
    sparseOf 1 (sparseConstants.S 0) round = sparseConstants.mds 1 := by
  have h2 : (3 * round + 2) % 3 = 2 := by omega
  funext i j
  fin_cases i <;> fin_cases j <;>
    simp [sparseOf, sparseConstants, PoseidonPreparedConstants.mds, matrixOf, h2]

theorem optimises_sparseConstants :
    Poseidon.Optimises (sparseConstants.tables 1) (sparseConstants.mds 1) sparseTextbook 56
      (fun _ => 1) (fun _ => 0) where
  early_zero := rfl
  early j hj := by rw [sparseTextbook, if_neg (by omega), if_pos (by omega)]
  fixesFirst _ _ _ := ⟨rfl, rfl⟩
  base_last := rfl
  pre := by rw [mul_one]; rfl
  sparse p _ := by
    rw [mul_one, one_mul]
    exact (sparseOf_sparseConstants p).symm
  shift_first _ _ := rfl
  shift_last := rfl
  early_four := by rw [add_zero]; rfl
  shift p hp := by
    rw [zero_add, add_zero, sparseTextbook, if_neg (by omega), if_neg (by omega),
      if_pos (by omega), Nat.add_sub_cancel_left]
  late j hj := by
    have hindex : 5 + 56 + j - 61 = j := by omega
    rw [sparseTextbook, if_neg (by omega), if_neg (by omega), if_neg (by omega), hindex]

/-- Poseidon of one input with these tables. -/
theorem poseidon_eq_textbook_sparse :
    poseidon sparseConstants [5] = .ok (Poseidon.textbook (· ^ 5) (sparseConstants.mds 1)
      sparseTextbook 56 (startState [5]) 0).val :=
  poseidon_eq_textbook (by decide) optimises_sparseConstants

end ZkStellar.Sdk

import Mathlib.Algebra.BigOperators.Fin
import Mathlib.Data.Nat.Bitwise
import Mathlib.Data.Set.Function

set_option autoImplicit false

/-! # Perfect binary hash trees

`IsTree` says that the nodes of a table of levels are the hashes of their two children. A path from
a leaf goes up level by level, hashing the current value with a sibling on the side that a bit
chooses. The path whose bits are those of a leaf's index ends in the root (`climbs_of_isTree`), and
where the hash has no collisions among the pairs involved, every path that ends in the root is one
of these (`eq_of_climbs`). Without collisions the root also fixes all leaves
(`nodes_eq_of_root`). -/

namespace ZkStellar.HashTree

variable {α : Type*} (P : α → α → α)

/-- A tree with `depth` levels above its leaves, `node d j` being node `j` of level `d`. -/
def IsTree (depth : ℕ) (node : ℕ → ℕ → α) : Prop :=
  ∀ d j, d < depth → j < 2 ^ (depth - (d + 1)) →
    node (d + 1) j = P (node d (2 * j)) (node d (2 * j + 1))

/-- A value and its sibling as children: the value is the right one if the bit is set. -/
def children (right : Bool) (value sibling : α) : α × α :=
  if right then (sibling, value) else (value, sibling)

/-- The values on a path. -/
def Climbs (depth : ℕ) (right : ℕ → Bool) (sibling value : ℕ → α) : Prop :=
  ∀ i, i < depth → value (i + 1) = P (children (right i) (value i) (sibling i)).1
    (children (right i) (value i) (sibling i)).2

/-- The index of the other child of the same node. -/
def siblingIndex (j : ℕ) : ℕ := if j % 2 = 1 then j - 1 else j + 1

/-- The pairs that are hashed in a tree and on a path. -/
def hashedPairs (depth : ℕ) (node : ℕ → ℕ → α) (right : ℕ → Bool) (sibling value : ℕ → α) :
    Set (α × α) :=
  {x | (∃ d j, d < depth ∧ j < 2 ^ (depth - (d + 1)) ∧ x = (node d (2 * j), node d (2 * j + 1))) ∨
    ∃ i, i < depth ∧ x = children (right i) (value i) (sibling i)}

/-- The number that the first `n` bits spell, the first one being the lowest. -/
def position (right : ℕ → Bool) (n : ℕ) : ℕ := ∑ i ∈ Finset.range n, (right i).toNat * 2 ^ i

variable {P}

/-! ## Positions -/

theorem position_succ' (right : ℕ → Bool) (n : ℕ) :
    position right (n + 1) = 2 * position (fun i => right (i + 1)) n + (right 0).toNat := by
  rw [position, Finset.sum_range_succ', position, Finset.mul_sum]
  congr 1
  · exact Finset.sum_congr rfl fun i _ => by rw [pow_succ', Nat.mul_left_comm]
  · rw [pow_zero, mul_one]

theorem position_lt (right : ℕ → Bool) (n : ℕ) : position right n < 2 ^ n := by
  induction n generalizing right with
  | zero => simp [position]
  | succ n ih =>
      have hrest := ih fun i => right (i + 1)
      have hbit := (right 0).toNat_le
      rw [position_succ', pow_succ]
      omega

/-- Bit `i` of a position. -/
theorem position_div_mod (right : ℕ → Bool) {n i : ℕ} (hi : i < n) :
    position right n / 2 ^ i % 2 = (right i).toNat := by
  induction n generalizing right i with
  | zero => omega
  | succ n ih =>
      have hbit := (right 0).toNat_le
      rw [position_succ']
      cases i with
      | zero =>
          rw [pow_zero, Nat.div_one]
          omega
      | succ i =>
          rw [pow_succ', ← Nat.div_div_eq_div_mul]
          have hhalf : (2 * position (fun i => right (i + 1)) n + (right 0).toNat) / 2
              = position (fun i => right (i + 1)) n := by omega
          rw [hhalf]
          exact ih (fun i => right (i + 1)) (by omega)

/-- A level has twice as many nodes as the one above it. -/
theorem two_pow_sub {depth d : ℕ} (hd : d < depth) :
    2 ^ (depth - d) = 2 * 2 ^ (depth - (d + 1)) := by
  rw [← pow_succ']
  congr 1
  omega

theorem div_pow_lt {depth index i : ℕ} (hindex : index < 2 ^ depth) (hi : i ≤ depth) :
    index / 2 ^ i < 2 ^ (depth - i) := by
  refine Nat.div_lt_of_lt_mul ?_
  rwa [← pow_add, Nat.add_sub_cancel' hi]

section

variable {depth : ℕ} {node : ℕ → ℕ → α}

/-- A node and its sibling are the children of the node above them. -/
theorem children_eq (j : ℕ) (d : ℕ) :
    children (decide (j % 2 = 1)) (node d j) (node d (siblingIndex j))
      = (node d (2 * (j / 2)), node d (2 * (j / 2) + 1)) := by
  by_cases hj : j % 2 = 1
  · have hself : j = 2 * (j / 2) + 1 := by omega
    have hother : j - 1 = 2 * (j / 2) := by omega
    rw [children, if_pos (by simp [hj]), siblingIndex, if_pos hj, hother, ← hself]
  · have hself : j = 2 * (j / 2) := by omega
    rw [children, if_neg (by simp [hj]), siblingIndex, if_neg hj, ← hself]

/-- The nodes above a leaf are the values on the path of its index. -/
theorem climbs_of_isTree (h : IsTree P depth node) {index : ℕ} (hindex : index < 2 ^ depth) :
    Climbs P depth (fun i => decide (index / 2 ^ i % 2 = 1))
      (fun i => node i (siblingIndex (index / 2 ^ i))) (fun i => node i (index / 2 ^ i)) := by
  intro i hi
  have hhalf : index / 2 ^ i / 2 = index / 2 ^ (i + 1) := by
    rw [pow_succ, ← Nat.div_div_eq_div_mul]
  simp only [children_eq, hhalf]
  exact h i _ hi (div_pow_lt hindex hi)

/-- Without collisions, a path that ends in the root goes through the nodes above the leaf at its
    position, and its siblings are theirs. -/
theorem eq_of_climbs (h : IsTree P depth node) {right : ℕ → Bool} {sibling value : ℕ → α}
    (hclimbs : Climbs P depth right sibling value) (hroot : value depth = node depth 0)
    (hinj : Set.InjOn (fun x : α × α => P x.1 x.2)
      (hashedPairs depth node right sibling value)) {i : ℕ} (hi : i ≤ depth) :
    value i = node i (position right depth / 2 ^ i) ∧
      (i < depth → sibling i = node i (siblingIndex (position right depth / 2 ^ i))) := by
  set index := position right depth with hdef
  have hindex : index < 2 ^ depth := position_lt right depth
  have hstep : ∀ i, i < depth → value (i + 1) = node (i + 1) (index / 2 ^ (i + 1)) →
      value i = node i (index / 2 ^ i) ∧ sibling i = node i (siblingIndex (index / 2 ^ i)) := by
    intro i hi hvalue
    have hbound := div_pow_lt hindex hi
    have hbit : decide (index / 2 ^ i % 2 = 1) = right i := by
      rw [hdef, position_div_mod right hi]
      cases right i <;> rfl
    have hhalf : index / 2 ^ i / 2 = index / 2 ^ (i + 1) := by
      rw [pow_succ, ← Nat.div_div_eq_div_mul]
    -- equal hashes have equal pairs below them, both being among the pairs hashed
    have hpairs : children (right i) (value i) (sibling i)
        = children (right i) (node i (index / 2 ^ i))
          (node i (siblingIndex (index / 2 ^ i))) := by
      rw [← hbit, children_eq, hhalf, hbit]
      refine hinj (.inr ⟨i, hi, rfl⟩) (.inl ⟨i, _, hi, hbound, rfl⟩) ?_
      simp only
      rw [← hclimbs i hi, ← h i _ hi hbound, hvalue]
    cases hright : right i with
    | false =>
        simp only [hright, children, Bool.false_eq_true, if_false, Prod.mk.injEq] at hpairs
        exact hpairs
    | true =>
        simp only [hright, children, if_true, Prod.mk.injEq] at hpairs
        exact hpairs.symm
  -- from the root down, so the induction is on the distance to it
  have hvalues : ∀ k, k ≤ depth →
      value (depth - k) = node (depth - k) (index / 2 ^ (depth - k)) := by
    intro k hk
    induction k with
    | zero => rw [Nat.sub_zero, hroot, Nat.div_eq_of_lt hindex]
    | succ k ih =>
        have hnext : depth - (k + 1) + 1 = depth - k := by omega
        exact (hstep _ (by omega) (by rw [hnext]; exact ih (by omega))).1
  have hvalue : ∀ i, i ≤ depth → value i = node i (index / 2 ^ i) := fun i hi => by
    have hsub := hvalues (depth - i) (by omega)
    rwa [Nat.sub_sub_self hi] at hsub
  exact ⟨hvalue i hi, fun hlt => (hstep i hlt (hvalue (i + 1) hlt)).2⟩

end

/-! ## Two trees -/

/-- The pairs that are hashed in a tree. -/
def nodePairs (depth : ℕ) (node : ℕ → ℕ → α) : Set (α × α) :=
  {x | ∃ d j, d < depth ∧ j < 2 ^ (depth - (d + 1)) ∧ x = (node d (2 * j), node d (2 * j + 1))}

section

variable {depth : ℕ} {node node' : ℕ → ℕ → α}

/-- Trees with the same leaves have the same nodes. -/
theorem nodes_eq_of_leaves (h : IsTree P depth node) (h' : IsTree P depth node')
    (hleaves : ∀ j, j < 2 ^ depth → node 0 j = node' 0 j) {d j : ℕ} (hd : d ≤ depth)
    (hj : j < 2 ^ (depth - d)) : node d j = node' d j := by
  induction d generalizing j with
  | zero => exact hleaves j hj
  | succ d ih =>
      have hwidth := two_pow_sub (show d < depth by omega)
      rw [h d j hd hj, h' d j hd hj, ih (by omega) (by omega), ih (by omega) (by omega)]

/-- Without collisions, trees with the same root have the same nodes. -/
theorem nodes_eq_of_root (h : IsTree P depth node) (h' : IsTree P depth node')
    (hroot : node depth 0 = node' depth 0)
    (hinj : Set.InjOn (fun x : α × α => P x.1 x.2)
      (nodePairs depth node ∪ nodePairs depth node')) {d j : ℕ} (hd : d ≤ depth)
    (hj : j < 2 ^ (depth - d)) : node d j = node' d j := by
  -- from the root downwards
  induction hd using Nat.decreasingInduction generalizing j with
  | self =>
      rw [Nat.sub_self, pow_zero, Nat.lt_one_iff] at hj
      rw [hj, hroot]
  | of_succ d hd ih =>
      have hwidth := two_pow_sub (show d < depth by omega)
      have hparent : j / 2 < 2 ^ (depth - (d + 1)) := by omega
      have hsame := ih hparent
      rw [h d _ hd hparent, h' d _ hd hparent] at hsame
      have hpair := hinj (.inl ⟨d, _, hd, hparent, rfl⟩) (.inr ⟨d, _, hd, hparent, rfl⟩) hsame
      rw [Prod.mk.injEq] at hpair
      rcases Nat.mod_two_eq_zero_or_one j with hbit | hbit
      · rw [show j = 2 * (j / 2) by omega]
        exact hpair.1
      · rw [show j = 2 * (j / 2) + 1 by omega]
        exact hpair.2

end

end ZkStellar.HashTree

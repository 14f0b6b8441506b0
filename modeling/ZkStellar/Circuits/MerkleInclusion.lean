import ZkStellar.Circuits.Field
import ZkStellar.Lib.Circom
import ZkStellar.Sdk.Merkle

set_option autoImplicit false

/-! # `circuits/merkle_inclusion`

The template `MerkleInclusion` as the constraints it puts on its signals. A switcher orders a value
and its sibling by a bit, so the levels climb a path; the SDK's trees are hash trees over the same
field with the same Poseidon. The SDK's proofs therefore satisfy the circuit
(`inclusion_complete`), and where Poseidon has no collisions among the pairs involved, nothing else
does (`inclusion_sound`). -/

namespace ZkStellar.MerkleInclusion

open Circom Circuits

/-! ## The circuit -/

/-- The constraints of `DualMux`. -/
structure DualMux (in0 in1 s out0 out1 : Fr) : Prop where
  boolean : s * (1 - s) = 0
  out0_eq : out0 = (in1 - in0) * s + in0
  out1_eq : out1 = (in0 - in1) * s + in1

/-- The input signals of `MerkleInclusion`. -/
structure Inputs where
  leaf : Fr
  pathElements : ℕ → Fr
  pathIndices : ℕ → Fr
  root : Fr

/-- The remaining signals of `MerkleInclusion`: the hashes and the outputs of the switchers. -/
structure Signals where
  levelHashes : ℕ → Fr
  out0 : ℕ → Fr
  out1 : ℕ → Fr

/-- The constraints of `MerkleInclusion(depth)`; `poseidon` is what `Poseidon(2)` computes. -/
structure Satisfies (poseidon : Fr → Fr → Fr) (depth : ℕ) (x : Inputs) (w : Signals) : Prop where
  leaf : w.levelHashes 0 = x.leaf
  switchers : ∀ i, i < depth → DualMux (w.levelHashes i) (x.pathElements i) (x.pathIndices i)
    (w.out0 i) (w.out1 i)
  hashers : ∀ i, i < depth → w.levelHashes (i + 1) = poseidon (w.out0 i) (w.out1 i)
  root : x.root = w.levelHashes depth

/-! ## Switchers and paths -/

/-- A switcher orders its inputs by a bit. -/
theorem dualMux_iff {in0 in1 s out0 out1 : Fr} :
    DualMux in0 in1 s out0 out1 ↔
      ∃ right : Bool, s = signal right ∧ (out0, out1) = HashTree.children right in0 in1 := by
  constructor
  · rintro ⟨hboolean, rfl, rfl⟩
    obtain ⟨right, rfl⟩ := exists_signal (b := s) (by linear_combination -hboolean)
    refine ⟨right, rfl, ?_⟩
    cases right <;> simp [HashTree.children]
  · rintro ⟨right, rfl, houts⟩
    cases right with
    | false =>
        simp only [HashTree.children, Bool.false_eq_true, if_false, Prod.mk.injEq] at houts
        exact ⟨by simp, by simp [houts.1], by simp [houts.2]⟩
    | true =>
        simp only [HashTree.children, if_true, Prod.mk.injEq] at houts
        exact ⟨by simp, by simp [houts.1], by simp [houts.2]⟩

section

variable {poseidon : Fr → Fr → Fr} {depth : ℕ} {x : Inputs} {w : Signals}

/-- The direction bit of a level. -/
def direction (x : Inputs) (i : ℕ) : Bool := decide (x.pathIndices i = 1)

theorem pathIndices_eq (hw : Satisfies poseidon depth x w) {i : ℕ} (hi : i < depth) :
    x.pathIndices i = signal (direction x i) ∧
      (w.out0 i, w.out1 i)
        = HashTree.children (direction x i) (w.levelHashes i) (x.pathElements i) := by
  obtain ⟨right, hright, houts⟩ := dualMux_iff.1 (hw.switchers i hi)
  have hdirection : direction x i = right := by
    rw [direction, hright]
    cases right <;> simp
  rw [hdirection]
  exact ⟨hright, houts⟩

theorem climbs_of_satisfies (hw : Satisfies poseidon depth x w) :
    HashTree.Climbs poseidon depth (direction x) x.pathElements w.levelHashes := by
  intro i hi
  rw [hw.hashers i hi, ← (pathIndices_eq hw hi).2]

/-- The index that the direction bits spell. -/
def leafIndex (x : Inputs) : ℕ := ∑ i ∈ Finset.range Sdk.merkleDepth, (x.pathIndices i).val * 2 ^ i

theorem leafIndex_eq (hw : Satisfies poseidon Sdk.merkleDepth x w) :
    leafIndex x = HashTree.position (direction x) Sdk.merkleDepth := by
  refine Finset.sum_congr rfl ?_
  intro i hi
  rw [(pathIndices_eq hw (Finset.mem_range.1 hi)).1]
  cases direction x i with
  | false => simp
  | true => rw [signal_true, ZMod.val_one]; rfl

end

/-! ## Soundness -/

section

variable {constants : Sdk.PoseidonPreparedConstants} {leaves : List ℤ}

/-- The pairs that are hashed in the tree and in the circuit. -/
def pairsHashed (tree : Sdk.MerkleTree) (w : Signals) : Set (Fr × Fr) :=
  {p | (∃ d j, d < Sdk.merkleDepth ∧ j < 2 ^ (Sdk.merkleDepth - (d + 1)) ∧
      p = (Sdk.fieldNode tree.layers d (2 * j), Sdk.fieldNode tree.layers d (2 * j + 1))) ∨
    ∃ i, i < Sdk.merkleDepth ∧ p = (w.out0 i, w.out1 i)}

theorem hashedPairs_subset {poseidon : Fr → Fr → Fr} {tree : Sdk.MerkleTree} {x : Inputs}
    {w : Signals} (hw : Satisfies poseidon Sdk.merkleDepth x w) :
    HashTree.hashedPairs Sdk.merkleDepth (Sdk.fieldNode tree.layers) (direction x) x.pathElements
      w.levelHashes ⊆ pairsHashed tree w := by
  rintro p (htree | ⟨i, hi, rfl⟩)
  · exact .inl htree
  · exact .inr ⟨i, hi, (pathIndices_eq hw hi).2.symm⟩

/-- An assignment whose root is that of a tree of the SDK is the path of a leaf of the tree, unless
    Poseidon has a collision among the pairs that are hashed. -/
theorem inclusion_sound (hne : leaves ≠ []) (hlen : leaves.length ≤ 2 ^ 20) :
    ∃ tree, Sdk.buildMerkleTree constants leaves = .ok tree ∧ ∀ x w,
      Satisfies (Sdk.poseidon2 constants) 20 x w → x.root = (tree.root : Fr) →
      Set.InjOn (fun p : Fr × Fr => Sdk.poseidon2 constants p.1 p.2) (pairsHashed tree w) →
      (∀ i, i < 20 → x.pathIndices i = 0 ∨ x.pathIndices i = 1) ∧
      x.leaf = (leaves.getD (leafIndex x) 0 : Fr) ∧
      ∃ proof, Sdk.buildMerkleProof tree (.ofNat (leafIndex x)) = .ok proof ∧
        ∀ i, i < 20 → ∃ e : ℤ, proof.pathElements[i]? = some (some e) ∧
          x.pathElements i = (e : Fr) := by
  obtain ⟨tree, hok⟩ : ∃ tree, Sdk.buildMerkleTree constants leaves = .ok tree :=
    Sdk.buildMerkleTree_eq_ok_iff.2 ⟨hne, hlen⟩
  have hbuilt := Sdk.built_of_buildMerkleTree hok
  refine ⟨tree, hok, ?_⟩
  intro x w hw hroot hfree
  have htree := Sdk.isTree_of_isLayers hbuilt.layers
  -- both the tree and the assignment climb to the one root
  have htop : w.levelHashes Sdk.merkleDepth = Sdk.fieldNode tree.layers Sdk.merkleDepth 0 := by
    rw [Sdk.fieldNode, ← hbuilt.root, ← hroot]
    exact hw.root.symm
  -- without collisions two climbs that meet at the top agree at every level below
  have hpath := fun i (hi : i ≤ Sdk.merkleDepth) => HashTree.eq_of_climbs htree
    (climbs_of_satisfies hw) htop (hfree.mono (hashedPairs_subset hw)) hi
  rw [← leafIndex_eq hw] at hpath
  have hindex : leafIndex x < 2 ^ Sdk.merkleDepth := by
    rw [leafIndex_eq hw]
    exact HashTree.position_lt _ _
  obtain ⟨proof, hproof, hof⟩ := Sdk.buildMerkleProof_eq hbuilt hindex
  refine ⟨fun i hi => ?_, ?_, proof, hproof, fun i hi => ?_⟩
  · rw [(pathIndices_eq hw hi).1]
    cases direction x i with
    | false => exact .inl rfl
    | true => exact .inr rfl
  · have hbottom := (hpath 0 (Nat.zero_le _)).1
    rw [hw.leaf, pow_zero, Nat.div_one, Sdk.fieldNode, Sdk.nodeAt_leaf hbuilt hindex] at hbottom
    exact hbottom
  · exact ⟨_, hof.sibling i hi, (hpath i (le_of_lt hi)).2 hi⟩

end

/-! ## Completeness -/

/-- The field element that a decimal string stands for. -/
def readDecimal (s : String) : Fr :=
  match s.toList with
  | '-' :: cs => -(Nat.ofDigitChars 10 cs 0 : Fr)
  | cs => (Nat.ofDigitChars 10 cs 0 : Fr)

theorem readDecimal_toString (z : ℤ) : readDecimal (toString z) = (z : Fr) := by
  cases z with
  | ofNat n =>
      have htext : (toString (Int.ofNat n)).toList = Nat.toDigits 10 n := Nat.toList_repr
      have hdigit : ∀ c ∈ Nat.toDigits 10 n, c.isDigit := fun c hc =>
        Nat.isDigit_of_mem_toDigits (by decide) (by decide) hc
      have hvalue : Nat.ofDigitChars 10 (Nat.toDigits 10 n) 0 = n := Nat.ofDigitChars_ten_toDigits
      rw [readDecimal, htext]
      split
      · next cs hcs =>
          rw [hcs] at hdigit
          exact absurd (hdigit '-' List.mem_cons_self) (by decide)
      · rw [hvalue]
        simp
  | negSucc n =>
      have htext : (toString (Int.negSucc n)).toList = '-' :: Nat.toDigits 10 (n + 1) := by
        show ("-" ++ Nat.repr (n + 1)).toList = _
        rw [String.toList_append, Nat.toList_repr]
        rfl
      have hvalue : Nat.ofDigitChars 10 (Nat.toDigits 10 (n + 1)) 0 = n + 1 :=
        Nat.ofDigitChars_ten_toDigits
      rw [readDecimal, htext]
      simp only [hvalue, Int.cast_negSucc]

/-- The input signals that strings stand for. -/
def readInputs (inputs : Sdk.CircuitInputs) : Inputs where
  leaf := readDecimal inputs.leaf
  pathElements i := readDecimal (inputs.pathElements.getD i "")
  pathIndices i := (inputs.pathIndices.getD i 0 : Fr)
  root := readDecimal inputs.root

theorem getD_map_range {α : Type*} (f : ℕ → α) {n i : ℕ} (hi : i < n) (default : α) :
    ((List.range n).map f).getD i default = f i := by
  rw [List.getD_eq_getElem?_getD, List.getElem?_map, List.getElem?_range hi, Option.map_some,
    Option.getD_some]

section

variable (tree : Sdk.MerkleTree) (leaf : ℤ) (index : ℕ)

theorem leaf_circuitInputsOf :
    (readInputs (Sdk.circuitInputsOf tree leaf index)).leaf = (leaf : Fr) :=
  readDecimal_toString leaf

theorem root_circuitInputsOf :
    (readInputs (Sdk.circuitInputsOf tree leaf index)).root = (tree.root : Fr) :=
  readDecimal_toString tree.root

theorem pathElements_circuitInputsOf {i : ℕ} (hi : i < 20) :
    (readInputs (Sdk.circuitInputsOf tree leaf index)).pathElements i
      = Sdk.fieldNode tree.layers i (HashTree.siblingIndex (index / 2 ^ i)) := by
  have hget : (Sdk.circuitInputsOf tree leaf index).pathElements.getD i ""
      = toString (Sdk.nodeAt tree.layers i (HashTree.siblingIndex (index / 2 ^ i))) :=
    getD_map_range (fun d => toString (Sdk.nodeAt tree.layers d
      (HashTree.siblingIndex (index / 2 ^ d)))) hi ""
  show readDecimal ((Sdk.circuitInputsOf tree leaf index).pathElements.getD i "") = _
  rw [hget, readDecimal_toString]
  rfl

theorem pathIndices_circuitInputsOf {i : ℕ} (hi : i < 20) :
    (readInputs (Sdk.circuitInputsOf tree leaf index)).pathIndices i
      = signal (decide (index / 2 ^ i % 2 = 1)) := by
  have hget : (Sdk.circuitInputsOf tree leaf index).pathIndices.getD i 0 = index / 2 ^ i % 2 :=
    getD_map_range (fun d => index / 2 ^ d % 2) hi 0
  show ((Sdk.circuitInputsOf tree leaf index).pathIndices.getD i 0 : Fr) = _
  rw [hget]
  rcases Nat.mod_two_eq_zero_or_one (index / 2 ^ i) with hbit | hbit <;> simp [hbit]

end

/-- The signals on a path, with the switchers' outputs in order. -/
def pathSignals (x : Inputs) (right : ℕ → Bool) (value : ℕ → Fr) : Signals where
  levelHashes := value
  out0 i := (HashTree.children (right i) (value i) (x.pathElements i)).1
  out1 i := (HashTree.children (right i) (value i) (x.pathElements i)).2

/-- A path satisfies the constraints. -/
theorem satisfies_pathSignals {poseidon : Fr → Fr → Fr} {depth : ℕ} {x : Inputs}
    {right : ℕ → Bool} {value : ℕ → Fr}
    (hclimbs : HashTree.Climbs poseidon depth right x.pathElements value)
    (hindices : ∀ i, i < depth → x.pathIndices i = signal (right i)) (hleaf : x.leaf = value 0)
    (hroot : x.root = value depth) : Satisfies poseidon depth x (pathSignals x right value) where
  leaf := hleaf.symm
  switchers i hi := dualMux_iff.2 ⟨right i, hindices i hi, rfl⟩
  hashers := hclimbs
  root := hroot

section

variable {constants : Sdk.PoseidonPreparedConstants} {leaves : List ℤ} {tree : Sdk.MerkleTree}
  {index : ℕ}

/-- The signals on the path of an index, which are nodes of the tree. -/
def treeSignals (tree : Sdk.MerkleTree) (leaf : ℤ) (index : ℕ) : Signals :=
  pathSignals (readInputs (Sdk.circuitInputsOf tree leaf index))
    (fun i => decide (index / 2 ^ i % 2 = 1)) fun i => Sdk.fieldNode tree.layers i (index / 2 ^ i)

theorem satisfies_treeSignals (hbuilt : Sdk.Built constants leaves tree) (hindex : index < 2 ^ 20) :
    Satisfies (Sdk.poseidon2 constants) 20
      (readInputs (Sdk.circuitInputsOf tree (leaves.getD index 0) index))
      (treeSignals tree (leaves.getD index 0) index) := by
  refine satisfies_pathSignals ?_ (fun i hi => pathIndices_circuitInputsOf _ _ _ hi) ?_ ?_
  · intro i hi
    rw [pathElements_circuitInputsOf _ _ _ hi]
    exact HashTree.climbs_of_isTree (Sdk.isTree_of_isLayers hbuilt.layers) hindex i hi
  · rw [leaf_circuitInputsOf, pow_zero, Nat.div_one, Sdk.fieldNode,
      Sdk.nodeAt_leaf hbuilt hindex]
  · rw [root_circuitInputsOf, Nat.div_eq_of_lt hindex, hbuilt.root]
    rfl

/-- On the path of an index nothing is hashed that is not hashed in the tree. -/
theorem pairsHashed_treeSignals (leaf : ℤ) (hindex : index < 2 ^ 20) :
    pairsHashed tree (treeSignals tree leaf index)
      ⊆ HashTree.nodePairs Sdk.merkleDepth (Sdk.fieldNode tree.layers) := by
  rintro p (htree | ⟨i, hi, rfl⟩)
  · exact htree
  · refine ⟨i, index / 2 ^ i / 2, hi, ?_, ?_⟩
    · rw [Nat.div_div_eq_div_mul, ← pow_succ]
      exact HashTree.div_pow_lt hindex hi
    · rw [← HashTree.children_eq, ← pathElements_circuitInputsOf tree leaf index hi]
      rfl

end

/-- For every leaf of a tree the SDK's proof reads siblings in bounds, and the circuit inputs
    written from it satisfy the circuit with the tree's root and the padded leaf. -/
theorem inclusion_complete {constants : Sdk.PoseidonPreparedConstants} {leaves : List ℤ}
    {tree : Sdk.MerkleTree} (hok : Sdk.buildMerkleTree constants leaves = .ok tree) {index : ℕ}
    (hindex : index < 2 ^ 20) :
    (∀ d, d ≤ 20 → (tree.layers.getD d []).length = 2 ^ (20 - d)) ∧
      (∀ d j, d < 20 → j < 2 ^ (20 - (d + 1)) →
        Sdk.poseidon constants [Sdk.nodeAt tree.layers d (2 * j),
          Sdk.nodeAt tree.layers d (2 * j + 1)] = .ok (Sdk.nodeAt tree.layers (d + 1) j)) ∧
      ∃ proof inputs w, Sdk.buildMerkleProof tree (.ofNat index) = .ok proof ∧
        (∀ e ∈ proof.pathElements, e ≠ none) ∧
        Sdk.merkleProofToCircuitInputs proof = some inputs ∧
        inputs.pathElements.length = 20 ∧ inputs.pathIndices.length = 20 ∧
        Satisfies (Sdk.poseidon2 constants) 20 (readInputs inputs) w ∧
        (readInputs inputs).root = (tree.root : Fr) ∧
        (readInputs inputs).leaf = (leaves.getD index 0 : Fr) := by
  have hbuilt := Sdk.built_of_buildMerkleTree hok
  have hleaf : tree.leaves[index]? = some (leaves.getD index 0) := by
    rw [hbuilt.leaves]
    exact Sdk.getElem?_padLeaves leaves hindex
  refine ⟨hbuilt.layers.width, fun d j hd hj => ?_, ?_⟩
  · rw [hbuilt.layers.hash d j hd hj]
    exact Sdk.poseidon_eq_ok constants ⟨Nat.succ_pos 1, by rw [Sdk.maxArity]; simp⟩
  · obtain ⟨proof, hproof, hof⟩ := Sdk.buildMerkleProof_eq hbuilt hindex
    have hinputs := Sdk.merkleProofToCircuitInputs_eq hof hleaf
    have hlengths : ∀ leaf, (Sdk.circuitInputsOf tree leaf index).pathElements.length = 20 ∧
        (Sdk.circuitInputsOf tree leaf index).pathIndices.length = 20 := by
      simp [Sdk.circuitInputsOf, Sdk.merkleDepth]
    refine ⟨proof, _, _, hproof, fun e he => ?_, hinputs, (hlengths _).1, (hlengths _).2,
      satisfies_treeSignals hbuilt hindex, root_circuitInputsOf _ _ _, leaf_circuitInputsOf _ _ _⟩
    obtain ⟨d, hd⟩ := List.mem_iff_getElem?.1 he
    have hlt : d < Sdk.merkleDepth := by
      rw [← hof.length.1]
      exact (List.getElem?_eq_some_iff.1 hd).1
    rw [hof.sibling d hlt, Option.some.injEq] at hd
    rw [← hd]
    exact Option.some_ne_none _

/-! ## Fixed trees -/

/-- A leaf list with a negative number, and an index beyond it. -/
theorem inclusion_complete_padded :
    ∃ tree, Sdk.buildMerkleTree Sdk.mixingConstants [-3, 7] = .ok tree ∧
      ∃ proof inputs w, Sdk.buildMerkleProof tree (.ofNat 5) = .ok proof ∧
        Sdk.merkleProofToCircuitInputs proof = some inputs ∧
        Satisfies (Sdk.poseidon2 Sdk.mixingConstants) 20 (readInputs inputs) w ∧
        (readInputs inputs).root = (tree.root : Fr) ∧ (readInputs inputs).leaf = 0 := by
  obtain ⟨tree, hok⟩ : ∃ tree, Sdk.buildMerkleTree Sdk.mixingConstants [-3, 7] = .ok tree :=
    Sdk.buildMerkleTree_eq_ok_iff.2 ⟨List.cons_ne_nil _ _, (by decide : 2 ≤ 2 ^ 20)⟩
  obtain ⟨-, -, proof, inputs, w, hproof, -, hinputs, -, -, hw, hroot, hleaf⟩ :=
    inclusion_complete hok (show 5 < 2 ^ 20 by decide)
  exact ⟨tree, hok, proof, inputs, w, hproof, hinputs, hw, hroot, hleaf.trans (by simp)⟩

/-- The path of the second of two leaves. -/
theorem inclusion_sound_second :
    ∃ tree x w, Sdk.buildMerkleTree Sdk.mixingConstants [5, 7] = .ok tree ∧
      Satisfies (Sdk.poseidon2 Sdk.mixingConstants) 20 x w ∧ x.root = (tree.root : Fr) ∧
      Set.InjOn (fun p : Fr × Fr => Sdk.poseidon2 Sdk.mixingConstants p.1 p.2)
        (pairsHashed tree w) ∧ x.leaf = 7 ∧
      (∀ i, i < 20 → x.pathIndices i = 0 ∨ x.pathIndices i = 1) ∧
      x.leaf = (([5, 7] : List ℤ).getD (leafIndex x) 0 : Fr) ∧
      ∃ proof, Sdk.buildMerkleProof tree (.ofNat (leafIndex x)) = .ok proof ∧
        ∀ i, i < 20 → ∃ e : ℤ, proof.pathElements[i]? = some (some e) ∧
          x.pathElements i = (e : Fr) := by
  obtain ⟨tree, hok, hsound⟩ := @inclusion_sound Sdk.mixingConstants [5, 7]
    (List.cons_ne_nil _ _) (by decide)
  have hbuilt := Sdk.built_of_buildMerkleTree hok
  have hindex : 1 < 2 ^ 20 := by decide
  have hw := satisfies_treeSignals hbuilt hindex
  have hroot := root_circuitInputsOf tree (([5, 7] : List ℤ).getD 1 0) 1
  have hfree : Set.InjOn (fun p : Fr × Fr => Sdk.poseidon2 Sdk.mixingConstants p.1 p.2)
      (pairsHashed tree (treeSignals tree (([5, 7] : List ℤ).getD 1 0) 1)) := by
    refine (Sdk.injOn_of_nodup Sdk.nodup_hashes_swapped).mono ?_
    intro p hp
    obtain ⟨q, hq, hpq⟩ := Sdk.exists_of_mem_nodePairs hbuilt (pairsHashed_treeSignals _ hindex hp)
    exact ⟨q, List.mem_append_left _ hq, hpq⟩
  have hleaf : (readInputs (Sdk.circuitInputsOf tree (([5, 7] : List ℤ).getD 1 0) 1)).leaf = 7 := by
    rw [leaf_circuitInputsOf]
    simp
  exact ⟨tree, _, _, hok, hw, hroot, hfree, hleaf, hsound _ _ hw hroot hfree⟩

end ZkStellar.MerkleInclusion

import ZkStellar.Circuits.MerkleInclusion

set_option autoImplicit false

/-! # Committing to a set of values

`computeMerkleRoot` is what a set of leaves is committed to with. The padding is not marked and
Poseidon reads leaves modulo the order of the field, so lists that differ only there have one root;
where Poseidon does not collide on the pairs of the two trees, no other lists do
(`merkle_root_binding`). -/

namespace ZkStellar.Sdk

/-- `computeMerkleRoot`. -/
def computeMerkleRoot (constants : PoseidonPreparedConstants) (leaves : List ℤ) :
    Except SorobanZkError ℤ := do
  let tree ← buildMerkleTree constants leaves
  return tree.root

theorem computeMerkleRoot_eq_ok_iff {constants : PoseidonPreparedConstants} {leaves : List ℤ}
    {root : ℤ} : computeMerkleRoot constants leaves = .ok root ↔
      ∃ tree, buildMerkleTree constants leaves = .ok tree ∧ tree.root = root := by
  simp only [computeMerkleRoot, bind_eq_ok_iff, pure, Except.pure, Except.ok.injEq]

theorem exists_computeMerkleRoot (constants : PoseidonPreparedConstants) {leaves : List ℤ}
    (hne : leaves ≠ []) (hlen : leaves.length ≤ 2 ^ merkleDepth) :
    ∃ root, computeMerkleRoot constants leaves = .ok root := by
  obtain ⟨tree, hok⟩ : ∃ tree, buildMerkleTree constants leaves = .ok tree :=
    buildMerkleTree_eq_ok_iff.2 ⟨hne, hlen⟩
  exact ⟨tree.root, computeMerkleRoot_eq_ok_iff.2 ⟨tree, hok, rfl⟩⟩

/-- The pairs that are hashed for the root of some leaves. -/
def pairsOf (constants : PoseidonPreparedConstants) (leaves : List ℤ) : Set (Fr × Fr) :=
  {p | ∃ tree, buildMerkleTree constants leaves = .ok tree ∧
    p ∈ HashTree.nodePairs merkleDepth (fieldNode tree.layers)}

section

variable {constants : PoseidonPreparedConstants} {leaves leaves' : List ℤ} {tree tree' : MerkleTree}

theorem nodePairs_subset (hok : buildMerkleTree constants leaves = .ok tree) :
    HashTree.nodePairs merkleDepth (fieldNode tree.layers) ⊆ pairsOf constants leaves := by
  intro p hp
  exact ⟨tree, hok, hp⟩

/-- The leaves of a tree over the field. -/
theorem fieldNode_leaves (hbuilt : Built constants leaves tree) {j : ℕ}
    (hj : j < 2 ^ merkleDepth) : fieldNode tree.layers 0 j = (leaves.getD j 0 : Fr) := by
  rw [fieldNode, nodeAt_leaf hbuilt hj]

/-- Roots come out of Poseidon, so they are equal if they are equal in the field. -/
theorem root_eq_iff (hbuilt : Built constants leaves tree)
    (hbuilt' : Built constants leaves' tree') :
    tree.root = tree'.root ↔
      fieldNode tree.layers merkleDepth 0 = fieldNode tree'.layers merkleDepth 0 := by
  have hcanonical : ∀ {leaves : List ℤ} {tree : MerkleTree}, Built constants leaves tree →
      ∃ x : Fr, tree.root = x.val := by
    intro leaves tree hbuilt
    have hhash := hbuilt.layers.hash 19 0 (by decide) (by decide)
    have hpair := poseidon_pair constants (nodeAt tree.layers 19 0) (nodeAt tree.layers 19 1)
    rw [hbuilt.root, show merkleDepth = 19 + 1 from rfl, hhash, poseidonHash, hpair]
    exact ⟨_, rfl⟩
  refine ⟨?_, ?_⟩
  · intro heq
    rw [fieldNode, fieldNode, ← hbuilt.root, ← hbuilt'.root, heq]
  · intro heq
    obtain ⟨x, hx⟩ := hcanonical hbuilt
    obtain ⟨y, hy⟩ := hcanonical hbuilt'
    rw [fieldNode, fieldNode, ← hbuilt.root, ← hbuilt'.root, hx, hy] at heq
    have : NeZero bn254ScalarOrder := ⟨by decide⟩
    rw [Int.cast_natCast, Int.cast_natCast, ZMod.natCast_zmod_val, ZMod.natCast_zmod_val] at heq
    rw [hx, hy, heq]

end

/-- As long as Poseidon does not collide on the pairs hashed for them, two lists of leaves have the
    same root if and only if they agree modulo the order of the field, up to zeros at the end. -/
theorem merkle_root_binding {constants : PoseidonPreparedConstants} {leaves leaves' : List ℤ}
    {root root' : ℤ} (hroot : computeMerkleRoot constants leaves = .ok root)
    (hroot' : computeMerkleRoot constants leaves' = .ok root')
    (hfree : Set.InjOn (fun p : Fr × Fr => poseidon2 constants p.1 p.2)
      (pairsOf constants leaves ∪ pairsOf constants leaves')) :
    root = root' ↔ ∀ i, (leaves.getD i 0 : Fr) = (leaves'.getD i 0 : Fr) := by
  obtain ⟨tree, hok, rfl⟩ := computeMerkleRoot_eq_ok_iff.1 hroot
  obtain ⟨tree', hok', rfl⟩ := computeMerkleRoot_eq_ok_iff.1 hroot'
  have hbuilt := built_of_buildMerkleTree hok
  have hbuilt' := built_of_buildMerkleTree hok'
  have htree := isTree_of_isLayers hbuilt.layers
  have htree' := isTree_of_isLayers hbuilt'.layers
  rw [root_eq_iff hbuilt hbuilt']
  refine ⟨?_, ?_⟩
  · intro heq i
    have hinj := hfree.mono (Set.union_subset_union (nodePairs_subset hok) (nodePairs_subset hok'))
    by_cases hi : i < 2 ^ merkleDepth
    · have hnode := HashTree.nodes_eq_of_root htree htree' heq hinj (Nat.zero_le _) hi
      rwa [fieldNode_leaves hbuilt hi, fieldNode_leaves hbuilt' hi] at hnode
    · -- no leaf is beyond the tree
      have hlen := (buildMerkleTree_eq_ok_iff.1 ⟨tree, hok⟩).2
      have hlen' := (buildMerkleTree_eq_ok_iff.1 ⟨tree', hok'⟩).2
      rw [List.getD_eq_default _ _ (by omega), List.getD_eq_default _ _ (by omega)]
  · intro hleaves
    refine HashTree.nodes_eq_of_leaves htree htree' ?_ le_rfl (by simp)
    intro j hj
    rw [fieldNode_leaves hbuilt hj, fieldNode_leaves hbuilt' hj, hleaves]

theorem pairsOf_twoLeaves {constants : PoseidonPreparedConstants} {a b : ℤ} :
    pairsOf constants [a, b] ⊆ {p | ∃ q ∈ paddingPairs constants ++ firstPairs constants a b,
      p = ((q.1 : Fr), (q.2 : Fr))} := by
  rintro p ⟨tree, hok, hp⟩
  exact exists_of_mem_nodePairs (built_of_buildMerkleTree hok) hp

/-- Two leaves and the same leaves swapped. -/
theorem merkle_root_binding_swapped :
    ∃ root root', computeMerkleRoot mixingConstants [5, 7] = .ok root ∧
      computeMerkleRoot mixingConstants [7, 5] = .ok root' ∧
      Set.InjOn (fun p : Fr × Fr => poseidon2 mixingConstants p.1 p.2)
        (pairsOf mixingConstants [5, 7] ∪ pairsOf mixingConstants [7, 5]) ∧
      (root = root' ↔ ∀ i, (([5, 7] : List ℤ).getD i 0 : Fr) = (([7, 5] : List ℤ).getD i 0 : Fr)) ∧
      root ≠ root' := by
  obtain ⟨root, hroot⟩ : ∃ root, computeMerkleRoot mixingConstants [5, 7] = .ok root :=
    exists_computeMerkleRoot _ (List.cons_ne_nil _ _) (by decide)
  obtain ⟨root', hroot'⟩ : ∃ root, computeMerkleRoot mixingConstants [7, 5] = .ok root :=
    exists_computeMerkleRoot _ (List.cons_ne_nil _ _) (by decide)
  have hfree : Set.InjOn (fun p : Fr × Fr => poseidon2 mixingConstants p.1 p.2)
      (pairsOf mixingConstants [5, 7] ∪ pairsOf mixingConstants [7, 5]) := by
    refine (injOn_of_nodup nodup_hashes_swapped).mono ?_
    rintro p (hp | hp)
    · obtain ⟨q, hq, hpq⟩ := pairsOf_twoLeaves hp
      exact ⟨q, List.mem_append_left _ hq, hpq⟩
    · obtain ⟨q, hq, hpq⟩ := pairsOf_twoLeaves hp
      refine ⟨q, ?_, hpq⟩
      rcases List.mem_append.1 hq with hpadding | hfirst
      · exact List.mem_append_left _ (List.mem_append_left _ hpadding)
      · exact List.mem_append_right _ hfirst
  have hbinding := merkle_root_binding hroot hroot' hfree
  have hdiffer : ((5 : ℤ) : Fr) ≠ ((7 : ℤ) : Fr) := by decide +kernel
  exact ⟨root, root', hroot, hroot', hfree, hbinding,
    fun heq => hdiffer (hbinding.1 heq 0)⟩

end ZkStellar.Sdk

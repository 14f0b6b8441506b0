import ZkStellar.Lib.HashTree
import ZkStellar.Sdk.PoseidonBatch

set_option autoImplicit false

/-! # Merkle trees

`buildMerkleTree` pads the leaves with zeros, hashes level by level and keeps all levels;
`buildMerkleProof` reads the siblings of a leaf's ancestors off them, and
`merkleProofToCircuitInputs` writes them as strings. The levels are a hash tree over the field
(`isTree_of_isLayers`), and every sibling is there to be read
(`buildMerkleProof_eq`). -/

namespace ZkStellar.Sdk

/-- `MERKLE_DEPTH`. -/
def merkleDepth : ℕ := 20

/-- `MERKLE_MAX_LEAVES`. -/
def merkleMaxLeaves : ℕ := 1 <<< merkleDepth

/-- `MERKLE_ZERO_LEAF`. -/
def merkleZeroLeaf : ℤ := 0

/-! ## Trees -/

/-- `MerkleTree`. -/
structure MerkleTree where
  root : ℤ
  leaves : List ℤ
  layers : List (List ℤ)

/-- The inner loop of `buildMerkleTree`: hash neighbours. Poseidon rejects the element that is
    missing after a last one without a neighbour. -/
def hashLayer (constants : PoseidonPreparedConstants) : List ℤ → Except SorobanZkError (List ℤ)
  | [] => .ok []
  | [_] => .error (.general "poseidon() inputs must be bigint values" .invalidPublicInput)
  | left :: right :: rest => do
      let node ← poseidon constants [left, right]
      let nodes ← hashLayer constants rest
      return node :: nodes

/-- The outer loop of `buildMerkleTree`: the layers on top of `current`, `depth` of them. -/
def buildLayers (constants : PoseidonPreparedConstants) :
    ℕ → List ℤ → Except SorobanZkError (List (List ℤ))
  | 0, _ => .ok []
  | depth + 1, current => do
      let next ← hashLayer constants current
      let layers ← buildLayers constants depth next
      return next :: layers

/-- The leaves, padded with zeros. -/
def padLeaves (leaves : List ℤ) : List ℤ :=
  (List.range merkleMaxLeaves).map fun i =>
    if i < leaves.length then leaves.getD i 0 else merkleZeroLeaf

/-- `buildMerkleTree`, for an array of big integers. -/
def buildMerkleTree (constants : PoseidonPreparedConstants) (leaves : List ℤ) :
    Except SorobanZkError MerkleTree := do
  throwIf (leaves.length = 0)
    (.general "buildMerkleTree: leaves must be a non-empty array" .invalidPublicInput)
  throwIf (leaves.length > merkleMaxLeaves)
    (.general ("buildMerkleTree: too many leaves (" ++ toString leaves.length ++ " > "
      ++ toString merkleMaxLeaves ++ ")") .invalidPublicInput)
  let padded := padLeaves leaves
  let layers ← buildLayers constants merkleDepth padded
  return ⟨((padded :: layers).getLastD []).getD 0 0, padded, padded :: layers⟩

/-! ## Proofs -/

/-- `MerkleProof`; what is read out of bounds is missing. -/
structure MerkleProof where
  leaf : Option ℤ
  pathElements : List (Option ℤ)
  pathIndices : List ℕ
  root : ℤ
  leafIndex : JsNumber

/-- The loop of `buildMerkleProof`, from layer `d` on, `n` layers: the siblings and directions. -/
def walk (layers : List (List ℤ)) : ℕ → ℕ → ℕ → List (Option ℤ × ℕ)
  | 0, _, _ => []
  | n + 1, d, index =>
      let layer := layers.getD d []
      let isRight := index % 2
      let siblingIndex := if isRight ≠ 0 then index - 1 else index + 1
      (layer[siblingIndex]?, isRight) :: walk layers n (d + 1) (index / 2)

/-- `buildMerkleProof`. -/
def buildMerkleProof (tree : MerkleTree) (leafIndex : JsNumber) :
    Except SorobanZkError MerkleProof := do
  throwIf (!leafIndex.isInteger || (JsNumber.ofNat 0).gt leafIndex
      || !(JsNumber.ofNat merkleMaxLeaves).gt leafIndex)
    (.general ("buildMerkleProof: leafIndex must be an integer in [0, "
      ++ toString (merkleMaxLeaves - 1) ++ "]") .invalidPublicInput)
  let path := walk tree.layers merkleDepth 0 leafIndex.toNat
  return ⟨tree.leaves[leafIndex.toNat]?, path.map Prod.fst, path.map Prod.snd, tree.root, leafIndex⟩

/-- What `merkleProofToCircuitInputs` returns. -/
structure CircuitInputs where
  leaf : String
  pathElements : List String
  pathIndices : List ℕ
  root : String

/-- `merkleProofToCircuitInputs`: raises a `TypeError` on what is missing. -/
def merkleProofToCircuitInputs (proof : MerkleProof) : Option CircuitInputs := do
  let leaf ← proof.leaf
  let pathElements ← proof.pathElements.mapM id
  return ⟨toString leaf, pathElements.map toString, proof.pathIndices, toString proof.root⟩

/-! ## Layers -/

/-- Node `j` of layer `d`. -/
def nodeAt (layers : List (List ℤ)) (d j : ℕ) : ℤ := (layers.getD d []).getD j 0

theorem hashLayer_eq (constants : PoseidonPreparedConstants) {m : ℕ} {current : List ℤ}
    (hlen : current.length = 2 * m) :
    hashLayer constants current = .ok ((List.range m).map fun j =>
      poseidonHash constants [current.getD (2 * j) 0, current.getD (2 * j + 1) 0]) := by
  induction m generalizing current with
  | zero =>
      rw [List.eq_nil_of_length_eq_zero hlen]
      rfl
  | succ m ih =>
      match current, hlen with
      | left :: right :: rest, hlen =>
          have hrest : rest.length = 2 * m := by
            simp only [List.length_cons] at hlen
            omega
          -- the loop takes two nodes at a time, so the rest is the layer shifted by two
          have hshift : ∀ j, (left :: right :: rest).getD (2 * (j + 1)) 0 = rest.getD (2 * j) 0 ∧
              (left :: right :: rest).getD (2 * (j + 1) + 1) 0 = rest.getD (2 * j + 1) 0 := by
            intro j
            have hindex : 2 * (j + 1) = 2 * j + 1 + 1 := by omega
            rw [hindex]
            exact ⟨rfl, rfl⟩
          have hnode : poseidon constants [left, right]
              = .ok (poseidonHash constants [left, right]) :=
            poseidon_eq_ok constants ⟨Nat.succ_pos 1, by rw [maxArity]; simp⟩
          rw [hashLayer, hnode, ih hrest, List.range_succ_eq_map, List.map_cons, List.map_map]
          simp only [Function.comp_def, Nat.succ_eq_add_one, hshift]
          rw [Nat.mul_zero, List.getD_cons_zero, List.getD_cons_succ, List.getD_cons_zero]
          simp only [bind, Except.bind, pure, Except.pure]

/-- What the layers on top of `current` are. -/
structure IsLayers (constants : PoseidonPreparedConstants) (depth : ℕ)
    (layers : List (List ℤ)) : Prop where
  length : layers.length = depth + 1
  width : ∀ d, d ≤ depth → (layers.getD d []).length = 2 ^ (depth - d)
  hash : ∀ d j, d < depth → j < 2 ^ (depth - (d + 1)) → nodeAt layers (d + 1) j
    = poseidonHash constants [nodeAt layers d (2 * j), nodeAt layers d (2 * j + 1)]

theorem buildLayers_eq (constants : PoseidonPreparedConstants) {depth : ℕ} {current : List ℤ}
    (hlen : current.length = 2 ^ depth) :
    ∃ layers, buildLayers constants depth current = .ok layers ∧
      IsLayers constants depth (current :: layers) := by
  induction depth generalizing current with
  | zero =>
      refine ⟨[], rfl, rfl, fun d hd => ?_, fun d j hd => absurd hd (Nat.not_lt_zero d)⟩
      obtain rfl := Nat.le_zero.1 hd
      exact hlen
  | succ depth ih =>
      have hnext := hashLayer_eq constants (hlen.trans (pow_succ' 2 depth))
      set next := (List.range (2 ^ depth)).map fun j =>
        poseidonHash constants [current.getD (2 * j) 0, current.getD (2 * j + 1) 0] with hdef
      have hhalf : next.length = 2 ^ depth := by simp [hdef]
      -- the induction is on the depth: the layers above are built from the halved layer
      obtain ⟨layers, hlayers, hlength, hwidth, hhash⟩ := ih hhalf
      have hbuilt : buildLayers constants (depth + 1) current = .ok (next :: layers) := by
        rw [buildLayers, hnext]
        simp only [bind, Except.bind, hlayers]
        rfl
      refine ⟨next :: layers, hbuilt,
        by rw [List.length_cons, hlength], fun d hd => ?_, fun d j hd hj => ?_⟩
      · cases d with
        | zero => exact hlen
        | succ d =>
            rw [List.getD_cons_succ, hwidth d (by omega)]
            congr 1
            omega
      · cases d with
        | zero =>
            have hj' : j < 2 ^ depth := by simpa using hj
            rw [nodeAt, List.getD_cons_succ, List.getD_cons_zero, hdef,
              List.getD_eq_getElem?_getD, List.getElem?_map, List.getElem?_range hj',
              Option.map_some, Option.getD_some, nodeAt, nodeAt, List.getD_cons_zero]
        | succ d =>
            have hexp : depth + 1 - (d + 1 + 1) = depth - (d + 1) := by omega
            rw [hexp] at hj
            exact hhash d j (by omega) hj

/-! ## Trees -/

theorem length_padLeaves (leaves : List ℤ) : (padLeaves leaves).length = 2 ^ merkleDepth := by
  rw [padLeaves, List.length_map, List.length_range]
  rfl

theorem getElem?_padLeaves (leaves : List ℤ) {index : ℕ} (hindex : index < 2 ^ merkleDepth) :
    (padLeaves leaves)[index]? = some (leaves.getD index 0) := by
  have hmax : index < merkleMaxLeaves := hindex
  rw [padLeaves, List.getElem?_map, List.getElem?_range hmax, Option.map_some]
  by_cases hlt : index < leaves.length
  · rw [if_pos hlt]
  · rw [if_neg hlt, List.getD_eq_default _ _ (not_lt.1 hlt)]
    rfl

/-- What a tree that was built looks like. -/
structure Built (constants : PoseidonPreparedConstants) (leaves : List ℤ) (tree : MerkleTree) :
    Prop where
  layers : IsLayers constants merkleDepth tree.layers
  leaves : tree.leaves = padLeaves leaves
  bottom : tree.layers.getD 0 [] = tree.leaves
  root : tree.root = nodeAt tree.layers merkleDepth 0

/-- Every list of between one and `2 ^ 20` leaves has a tree. -/
theorem buildMerkleTree_eq_ok_iff {constants : PoseidonPreparedConstants} {leaves : List ℤ} :
    (∃ tree, buildMerkleTree constants leaves = .ok tree) ↔
      leaves ≠ [] ∧ leaves.length ≤ 2 ^ merkleDepth := by
  simp only [buildMerkleTree, bind_eq_ok_iff, throwIf_eq_ok_iff, exists_const]
  constructor
  · rintro ⟨_, hne, hle, -⟩
    refine ⟨?_, not_lt.1 (of_decide_eq_false hle)⟩
    rintro rfl
    simp at hne
  · rintro ⟨hne, hle⟩
    obtain ⟨layers, hlayers, -⟩ := buildLayers_eq constants (length_padLeaves leaves)
    exact ⟨_, by simpa using hne, decide_eq_false (not_lt.2 hle), layers, hlayers, rfl⟩

theorem built_of_buildMerkleTree {constants : PoseidonPreparedConstants} {leaves : List ℤ}
    {tree : MerkleTree} (hok : buildMerkleTree constants leaves = .ok tree) :
    Built constants leaves tree := by
  simp only [buildMerkleTree, bind_eq_ok_iff] at hok
  obtain ⟨_, -, _, -, layers, hlayers, hpure⟩ := hok
  obtain ⟨layers', hlayers', hIs⟩ := buildLayers_eq constants (length_padLeaves leaves)
  rw [hlayers, Except.ok.injEq] at hlayers'
  subst hlayers'
  have htree := Except.ok.inj hpure
  subst htree
  have hlast : (padLeaves leaves :: layers).getLastD []
      = (padLeaves leaves :: layers).getD merkleDepth [] := by
    rw [List.getLastD_eq_getLast?, List.getLast?_eq_getElem?, hIs.length, Nat.add_sub_cancel,
      List.getD_eq_getElem?_getD]
  exact
    { layers := hIs
      leaves := by dsimp only
      bottom := by rw [List.getD_cons_zero]
      root := by rw [nodeAt, ← hlast] }

/-- The bottom nodes are the leaves and the padding. -/
theorem nodeAt_leaf {constants : PoseidonPreparedConstants} {leaves : List ℤ} {tree : MerkleTree}
    (h : Built constants leaves tree) {j : ℕ} (hj : j < 2 ^ merkleDepth) :
    nodeAt tree.layers 0 j = leaves.getD j 0 := by
  rw [nodeAt, h.bottom, h.leaves, List.getD_eq_getElem?_getD, getElem?_padLeaves leaves hj,
    Option.getD_some]

/-! ## The tree over the field -/

/-- Poseidon of two field elements, the function that the circuits' template `Poseidon(2)`
    computes. -/
def poseidon2 (constants : PoseidonPreparedConstants) (x y : Fr) : Fr :=
  (poseidonHash constants [(x.val : ℤ), (y.val : ℤ)] : Fr)

/-- Poseidon depends on its inputs modulo the order of the field. -/
theorem poseidonHash_pair (constants : PoseidonPreparedConstants) (a b : ℤ) :
    (poseidonHash constants [a, b] : Fr) = poseidon2 constants a b := by
  have : NeZero bn254ScalarOrder := ⟨by decide⟩
  have hval : ∀ z : ℤ, mod ((z : Fr).val : ℤ) = mod z := fun z => by
    rw [mod_eq_emod, mod_eq_emod, ZMod.val_intCast, bn254ScalarModulus_eq, Int.emod_emod_of_dvd]
    exact dvd_refl _
  have hlen : ∀ x y : ℤ, 0 < [x, y].length ∧ [x, y].length ≤ 16 := fun x y =>
    ⟨Nat.succ_pos 1, by simp⟩
  rw [poseidon2, poseidonHash, poseidonHash, poseidon_eq_permute (hlen _ _),
    poseidon_eq_permute (hlen _ _)]
  simp only [List.map_cons, List.map_nil, hval]
  rfl

/-- In the SDK and in the circuits Poseidon of two inputs is one function. -/
theorem poseidon_pair (constants : PoseidonPreparedConstants) (a b : ℤ) :
    poseidon constants [a, b] = .ok (poseidon2 constants a b).val := by
  obtain ⟨v, hv, hcanonical⟩ : ∃ v, poseidon constants [a, b] = .ok v ∧
      0 ≤ v ∧ v < bn254ScalarModulus := exists_poseidon ⟨Nat.succ_pos 1, by simp⟩
  have hhash : poseidonHash constants [a, b] = v := by
    rw [poseidonHash, hv]
    rfl
  have hcast : (v : Fr) = poseidon2 constants a b := by rw [← hhash, poseidonHash_pair]
  rw [hv, ← eq_val_of_cast hcanonical hcast]

/-- The layers as levels of a tree over the field. -/
def fieldNode (layers : List (List ℤ)) (d j : ℕ) : Fr := (nodeAt layers d j : Fr)

theorem isTree_of_isLayers {constants : PoseidonPreparedConstants} {depth : ℕ}
    {layers : List (List ℤ)} (h : IsLayers constants depth layers) :
    HashTree.IsTree (poseidon2 constants) depth (fieldNode layers) := by
  intro d j hd hj
  rw [fieldNode, h.hash d j hd hj, poseidonHash_pair]
  rfl

/-! ## Proofs -/

theorem length_walk (layers : List (List ℤ)) (n d index : ℕ) :
    (walk layers n d index).length = n := by
  induction n generalizing d index with
  | zero => rfl
  | succ n ih => rw [walk, List.length_cons, ih]

/-- Step `i` of the walk is at the ancestor of the leaf on its layer. -/
theorem getElem?_walk (layers : List (List ℤ)) {n d index i : ℕ} (hi : i < n) :
    (walk layers n d index)[i]? = some
      ((layers.getD (d + i) [])[HashTree.siblingIndex (index / 2 ^ i)]?, index / 2 ^ i % 2) := by
  induction n generalizing d index i with
  | zero => omega
  | succ n ih =>
      cases i with
      | zero =>
          rw [walk, List.getElem?_cons_zero, pow_zero, Nat.div_one, Nat.add_zero d,
            HashTree.siblingIndex]
          by_cases hright : index % 2 = 1
          · rw [if_pos hright, if_pos (by omega)]
          · rw [if_neg hright, if_neg (by omega)]
      | succ i =>
          have hlayer : d + 1 + i = d + (i + 1) := by omega
          rw [walk, List.getElem?_cons_succ, ih (by omega), hlayer, Nat.div_div_eq_div_mul,
            ← pow_succ']

/-- The siblings of a leaf's ancestors are in bounds. -/
theorem siblingIndex_lt {depth index d : ℕ} (hindex : index < 2 ^ depth) (hd : d < depth) :
    HashTree.siblingIndex (index / 2 ^ d) < 2 ^ (depth - d) := by
  have hlt := HashTree.div_pow_lt hindex hd.le
  have heven := HashTree.two_pow_sub hd
  generalize index / 2 ^ d = j at hlt
  rw [HashTree.siblingIndex]
  split <;> omega

/-- The proof of the leaf at an index. -/
structure ProofOf (tree : MerkleTree) (index : ℕ) (proof : MerkleProof) : Prop where
  leaf : proof.leaf = tree.leaves[index]?
  root : proof.root = tree.root
  length : proof.pathElements.length = merkleDepth ∧ proof.pathIndices.length = merkleDepth
  sibling : ∀ d, d < merkleDepth → proof.pathElements[d]?
    = some (some (nodeAt tree.layers d (HashTree.siblingIndex (index / 2 ^ d))))
  direction : ∀ d, d < merkleDepth → proof.pathIndices[d]? = some (index / 2 ^ d % 2)

/-- Every index of a leaf has its proof, and all siblings it reads are in bounds. -/
theorem buildMerkleProof_eq {constants : PoseidonPreparedConstants} {leaves : List ℤ}
    {tree : MerkleTree} (h : Built constants leaves tree) {index : ℕ}
    (hindex : index < 2 ^ merkleDepth) :
    ∃ proof, buildMerkleProof tree (.ofNat index) = .ok proof ∧ ProofOf tree index proof := by
  have hrange : (!(JsNumber.ofNat index).isInteger || (JsNumber.ofNat 0).gt (.ofNat index)
      || !(JsNumber.ofNat merkleMaxLeaves).gt (.ofNat index)) = false := by
    have hmax : index < merkleMaxLeaves := hindex
    simp [hmax]
  refine ⟨_, by rw [buildMerkleProof, hrange]; rfl, ?_⟩
  rw [JsNumber.toNat_ofNat]
  refine ⟨rfl, rfl, ⟨?_, ?_⟩, fun d hd => ?_, fun d hd => ?_⟩
  · rw [List.length_map, length_walk]
  · rw [List.length_map, length_walk]
  · have hbound : HashTree.siblingIndex (index / 2 ^ d) < (tree.layers.getD d []).length := by
      rw [h.layers.width d hd.le]
      exact siblingIndex_lt hindex hd
    rw [List.getElem?_map, getElem?_walk _ hd, Option.map_some, Nat.zero_add,
      List.getElem?_eq_getElem hbound, nodeAt, List.getD_eq_getElem _ _ hbound]
  · rw [List.getElem?_map, getElem?_walk _ hd, Option.map_some]

theorem mapM_id_map_some {α : Type} (l : List α) : (l.map some).mapM id = some l := by
  induction l with
  | nil => rfl
  | cons a l ih => simp [List.mapM_cons, ih]

/-- The circuit inputs of a leaf at an index. -/
def circuitInputsOf (tree : MerkleTree) (leaf : ℤ) (index : ℕ) : CircuitInputs where
  leaf := toString leaf
  pathElements := (List.range merkleDepth).map fun d =>
    toString (nodeAt tree.layers d (HashTree.siblingIndex (index / 2 ^ d)))
  pathIndices := (List.range merkleDepth).map fun d => index / 2 ^ d % 2
  root := toString tree.root

/-- Nothing is missing in a proof, so it is written as strings. -/
theorem merkleProofToCircuitInputs_eq {tree : MerkleTree} {index : ℕ} {proof : MerkleProof}
    (h : ProofOf tree index proof) {leaf : ℤ} (hleaf : tree.leaves[index]? = some leaf) :
    merkleProofToCircuitInputs proof = some (circuitInputsOf tree leaf index) := by
  have hsiblings : proof.pathElements = ((List.range merkleDepth).map fun d =>
      nodeAt tree.layers d (HashTree.siblingIndex (index / 2 ^ d))).map some := by
    refine List.ext_getElem? ?_
    intro d
    by_cases hd : d < merkleDepth
    · rw [h.sibling d hd, List.getElem?_map, List.getElem?_map, List.getElem?_range hd]
      rfl
    · rw [List.getElem?_eq_none (by rw [h.length.1]; omega),
        List.getElem?_eq_none (by simp only [List.length_map, List.length_range]; omega)]
  have hindices : proof.pathIndices = (List.range merkleDepth).map fun d => index / 2 ^ d % 2 := by
    refine List.ext_getElem? ?_
    intro d
    by_cases hd : d < merkleDepth
    · rw [h.direction d hd, List.getElem?_map, List.getElem?_range hd]
      rfl
    · rw [List.getElem?_eq_none (by rw [h.length.2]; omega),
        List.getElem?_eq_none (by simp only [List.length_map, List.length_range]; omega)]
  rw [merkleProofToCircuitInputs, h.leaf, hleaf, hsiblings, hindices, h.root, mapM_id_map_some]
  simp only [Option.bind_eq_bind, Option.bind_some, List.map_map]
  rfl

/-! ## Trees over two leaves

Such a tree hashes the first two nodes of each level, and elsewhere padding with itself. -/

/-- A node above nothing but padding. -/
def paddingNode (constants : PoseidonPreparedConstants) : ℕ → ℤ
  | 0 => merkleZeroLeaf
  | d + 1 => poseidonHash constants [paddingNode constants d, paddingNode constants d]

/-- The second node of a level; above the leaves it is padding. -/
def secondNode (constants : PoseidonPreparedConstants) (b : ℤ) : ℕ → ℤ
  | 0 => b
  | d + 1 => paddingNode constants (d + 1)

/-- The first node of a level. -/
def firstNode (constants : PoseidonPreparedConstants) (a b : ℤ) : ℕ → ℤ
  | 0 => a
  | d + 1 => poseidonHash constants [firstNode constants a b d, secondNode constants b d]

/-- The pairs of padding. -/
def paddingPairs (constants : PoseidonPreparedConstants) : List (ℤ × ℤ) :=
  (List.range merkleDepth).map fun d => (paddingNode constants d, paddingNode constants d)

/-- The first pair of every level. -/
def firstPairs (constants : PoseidonPreparedConstants) (a b : ℤ) : List (ℤ × ℤ) :=
  (List.range merkleDepth).map fun d => (firstNode constants a b d, secondNode constants b d)

section

variable {constants : PoseidonPreparedConstants} {a b : ℤ} {tree : MerkleTree}

theorem nodeAt_twoLeaves (h : Built constants [a, b] tree) {d j : ℕ} (hd : d < merkleDepth)
    (hj : j < 2 ^ (merkleDepth - d)) : nodeAt tree.layers d j
      = if j = 0 then firstNode constants a b d
        else if j = 1 then secondNode constants b d else paddingNode constants d := by
  induction d generalizing j with
  | zero =>
      rw [nodeAt_leaf h hj]
      rcases j with _ | _ | j
      · rfl
      · rfl
      · rw [if_neg (by omega), if_neg (by omega), List.getD_eq_default]
        · rfl
        · simp
  | succ d ih =>
      have hwidth := HashTree.two_pow_sub (show d < merkleDepth by omega)
      rw [h.layers.hash d j (by omega) hj, ih (by omega) (by omega), ih (by omega) (by omega)]
      -- the children of a node right of the first are right of the first two
      rcases j with _ | j
      · rfl
      · rw [if_neg (by omega), if_neg (by omega), if_neg (by omega), if_neg (by omega),
          if_neg (by omega)]
        split <;> rfl

/-- What is hashed in a tree over two leaves. -/
theorem exists_of_mem_nodePairs (h : Built constants [a, b] tree) {p : Fr × Fr}
    (hp : p ∈ HashTree.nodePairs merkleDepth (fieldNode tree.layers)) :
    ∃ q ∈ paddingPairs constants ++ firstPairs constants a b, p = ((q.1 : Fr), (q.2 : Fr)) := by
  obtain ⟨d, j, hd, hj, rfl⟩ := hp
  have hwidth := HashTree.two_pow_sub hd
  have hlevel := List.mem_range.2 hd
  rw [fieldNode, fieldNode, nodeAt_twoLeaves h hd (by omega), nodeAt_twoLeaves h hd (by omega)]
  rcases j with _ | j
  · exact ⟨_, List.mem_append_right _ (List.mem_map_of_mem hlevel), rfl⟩
  · refine ⟨_, List.mem_append_left _ (List.mem_map_of_mem hlevel), ?_⟩
    rw [if_neg (by omega), if_neg (by omega), if_neg (by omega), if_neg (by omega)]

/-- Pairs with hashes that differ do not collide in the field either. -/
theorem injOn_of_nodup {pairs : List (ℤ × ℤ)}
    (hnodup : (pairs.map fun q => poseidonHash constants [q.1, q.2]).Nodup) :
    Set.InjOn (fun p : Fr × Fr => poseidon2 constants p.1 p.2)
      {p | ∃ q ∈ pairs, p = ((q.1 : Fr), (q.2 : Fr))} := by
  have hval : ∀ q : ℤ × ℤ, poseidonHash constants [q.1, q.2]
      = ((poseidon2 constants q.1 q.2).val : ℤ) := by
    intro q
    rw [poseidonHash, poseidon_pair]
    rfl
  rintro _ ⟨q, hq, rfl⟩ _ ⟨q', hq', rfl⟩ heq
  have hhash : poseidonHash constants [q.1, q.2] = poseidonHash constants [q'.1, q'.2] := by
    rw [hval, hval]
    exact congrArg (fun x : Fr => (x.val : ℤ)) heq
  rw [List.inj_on_of_nodup_map hnodup hq hq' hhash]

end

/-- No two of the pairs hashed for two leaves or for the same leaves swapped collide. -/
theorem nodup_hashes_swapped :
    ((paddingPairs mixingConstants ++ firstPairs mixingConstants 5 7
        ++ firstPairs mixingConstants 7 5).map
      fun q => poseidonHash mixingConstants [q.1, q.2]).Nodup := by
  have hnodes : ∀ a b : ℤ, (firstPairs mixingConstants a b).map
      (fun q => poseidonHash mixingConstants [q.1, q.2])
      = (List.range merkleDepth).map fun d => firstNode mixingConstants a b (d + 1) := fun a b => by
    simp only [firstPairs, List.map_map, Function.comp_def, firstNode]
  have hpadding : (paddingPairs mixingConstants).map
      (fun q => poseidonHash mixingConstants [q.1, q.2])
      = (List.range merkleDepth).map fun d => paddingNode mixingConstants (d + 1) := by
    simp only [paddingPairs, List.map_map, Function.comp_def, paddingNode]
  -- from the leaves upwards, so that a node is computed before those above it
  rw [List.map_append, List.map_append, hnodes, hnodes, hpadding, ← List.nodup_reverse]
  decide +kernel

end ZkStellar.Sdk

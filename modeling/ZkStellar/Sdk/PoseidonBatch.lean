import ZkStellar.Lib.ChunkTree
import ZkStellar.Sdk.Poseidon

set_option autoImplicit false

/-! # Hashing lists of any length

`poseidonBatch` hashes up to 16 inputs at once and longer lists by chunks. It returns the root of
the list (`poseidonBatch_eq`), so it has the collisions that roots have: a list of chunk digests
collides with the list it comes from, and where Poseidon has no collisions these are the only ones
(`poseidonBatch_injective_iff`). -/

namespace ZkStellar.Sdk

/-- `MAX_ARITY`. -/
def maxArity : ℕ := 16

/-- `poseidonBatch`, for an array of big integers. -/
def poseidonBatch (constants : PoseidonPreparedConstants) (inputs : List ℤ) :
    Except SorobanZkError ℤ :=
  if inputs.length = 0 then
    .error (.general "poseidonBatch: inputs must be a non-empty array" .invalidPublicInput)
  else if inputs.length ≤ maxArity then poseidon constants inputs
  else
    match _hdigests : (ChunkTree.chunks maxArity inputs).mapM (poseidon constants) with
    | .error e => .error e
    | .ok digests => poseidonBatch constants digests
termination_by inputs.length
decreasing_by
  rw [length_of_mapM _hdigests]
  exact ChunkTree.length_chunks_lt (by decide) (by omega)

section

variable (constants : PoseidonPreparedConstants)

/-- The value of a call of `poseidon` that returns. -/
def poseidonHash (inputs : List ℤ) : ℤ := (poseidon constants inputs).toOption.getD 0

theorem poseidon_eq_ok {inputs : List ℤ} (hlen : 0 < inputs.length ∧ inputs.length ≤ maxArity) :
    poseidon constants inputs = .ok (poseidonHash constants inputs) := by
  obtain ⟨v, hv, -⟩ : ∃ v, poseidon constants inputs = .ok v ∧ 0 ≤ v ∧ v < bn254ScalarModulus :=
    exists_poseidon hlen
  rw [poseidonHash, hv]
  rfl

theorem mapM_poseidon {lists : List (List ℤ)}
    (hlen : ∀ l ∈ lists, 0 < l.length ∧ l.length ≤ maxArity) :
    lists.mapM (poseidon constants) = .ok (lists.map (poseidonHash constants)) := by
  induction lists with
  | nil => rfl
  | cons l lists ih =>
      obtain ⟨hl, hlists⟩ := List.forall_mem_cons.1 hlen
      rw [List.mapM_cons, poseidon_eq_ok constants hl, ih hlists]
      rfl

/-- `poseidonBatch` returns the root of a list that is not empty. -/
theorem poseidonBatch_eq {inputs : List ℤ} (hne : inputs ≠ []) :
    poseidonBatch constants inputs = .ok (ChunkTree.root (poseidonHash constants) 14 inputs) := by
  induction hn : inputs.length using Nat.strong_induction_on generalizing inputs with
  | _ n ih =>
      have hpos : 0 < inputs.length := List.length_pos_of_ne_nil hne
      rw [poseidonBatch, if_neg (by omega)]
      by_cases hshort : inputs.length ≤ maxArity
      · rw [if_pos hshort, poseidon_eq_ok constants ⟨hpos, hshort⟩, ChunkTree.root_of_le hshort]
      · have hlong : 14 + 2 < inputs.length := not_le.1 hshort
        have hstep : ChunkTree.Shortens (poseidonHash constants) 14 inputs
          (ChunkTree.digests (poseidonHash constants) (14 + 2) inputs) := ⟨hlong, rfl⟩
        have hne' : ChunkTree.digests (poseidonHash constants) (14 + 2) inputs ≠ [] := by
          rw [ChunkTree.digests, ne_eq, List.map_eq_nil_iff]
          exact ChunkTree.chunks_ne_nil (by decide) hne
        have hdigests : (ChunkTree.chunks maxArity inputs).mapM (poseidon constants)
            = .ok (ChunkTree.digests (poseidonHash constants) (14 + 2) inputs) :=
          mapM_poseidon constants fun l hl => ChunkTree.length_of_mem_chunks (by decide) hl
        rw [if_neg hshort, ChunkTree.root_of_lt hlong]
        split
        · next e herror => rw [hdigests] at herror; cases herror
        · next digests hok =>
            rw [hdigests] at hok
            cases hok
            exact ih _ (hn ▸ hstep.length_lt) hne' rfl

/-- The lists that are hashed in `poseidonBatch`. -/
def hashedLists (inputs : List ℤ) : List (List ℤ) :=
  ChunkTree.hashed (poseidonHash constants) 14 inputs

/-- The list `b` consists of digests on the way of `poseidonBatch` from `a` to its result: it is
    the list of Poseidon hashes of the chunks of 16 elements of `a`, which has more than 16, or the
    list of digests of such a list, and so on. -/
def DigestsOf (a b : List ℤ) : Prop :=
  Relation.TransGen (ChunkTree.Shortens (poseidonHash constants) 14) a b

theorem not_digestsOf_nil {b : List ℤ} : ¬ DigestsOf constants [] b := by
  intro hdigests
  obtain ⟨_, hstep, -⟩ := Relation.TransGen.head'_iff.1 hdigests
  exact Nat.not_lt_zero _ hstep.1

/-- Poseidon has no collision among the lists. -/
def CollisionFree (lists : List (List ℤ)) : Prop :=
  ∀ x ∈ lists, ∀ y ∈ lists, poseidon constants x = poseidon constants y → x = y

end

section

variable {constants : PoseidonPreparedConstants} {a b : List ℤ}

/-- Where Poseidon has no collisions, `poseidonBatch` has none between two lists, unless one
    consists of digests of the other. -/
theorem poseidonBatch_injective_iff (ha : a ≠ []) (hb : b ≠ [])
    (hfree : CollisionFree constants (hashedLists constants a ++ hashedLists constants b)) :
    (poseidonBatch constants a = poseidonBatch constants b → a = b) ↔
      ¬ DigestsOf constants a b ∧ ¬ DigestsOf constants b a := by
  have hlen : ∀ l ∈ hashedLists constants a ++ hashedLists constants b,
      0 < l.length ∧ l.length ≤ maxArity := fun l hl => (List.mem_append.1 hl).elim
    (ChunkTree.length_of_mem_hashed ha l) (ChunkTree.length_of_mem_hashed hb l)
  have hhash : ∀ x ∈ hashedLists constants a ++ hashedLists constants b,
      ∀ y ∈ hashedLists constants a ++ hashedLists constants b,
      poseidonHash constants x = poseidonHash constants y → x = y := fun x hx y hy hxy =>
    hfree x hx y hy (by
      rw [poseidon_eq_ok constants (hlen x hx), poseidon_eq_ok constants (hlen y hy), hxy])
  -- equal roots relate the lists: equal, or one the digests of the other's chunks, repeatedly
  have hroot : ChunkTree.root (poseidonHash constants) 14 a
      = ChunkTree.root (poseidonHash constants) 14 b
      ↔ ChunkTree.Related (poseidonHash constants) 14 a b := ChunkTree.root_eq_iff hhash
    (fun c hc => List.mem_append_left _ hc) (fun c hc => List.mem_append_right _ hc)
  rw [poseidonBatch_eq constants ha, poseidonBatch_eq constants hb, Except.ok.injEq, hroot]
  constructor
  · intro hinj
    constructor
    · -- a list of digests is shorter than what it digests
      intro hab
      have hlt := ChunkTree.length_lt_of_transGen hab
      rw [hinj (.inr (.inl hab))] at hlt
      exact absurd hlt (lt_irrefl _)
    · intro hba
      have hlt := ChunkTree.length_lt_of_transGen hba
      rw [hinj (.inr (.inr hba))] at hlt
      exact absurd hlt (lt_irrefl _)
  · rintro ⟨hab, hba⟩ (heq | h | h)
    · exact heq
    · exact absurd h hab
    · exact absurd h hba

end

/-! ## A collision -/

/-- Tables under which Poseidon mixes its lanes, but for sixteen inputs, where it returns zero. -/
def mixingConstants : PoseidonPreparedConstants where
  C _ _ := 1
  S _ i := i
  M width row column := if width = 15 then 0 else if row = column then 2 else 1
  P _ row column := if row = column then 2 else 1

theorem getD_mix_zero (s : List ℤ) : (mix (fun _ _ => 0) s).getD 0 0 = 0 := by
  have hzero : (((mix (fun _ _ => 0) s).getD 0 0 : ℤ) : Fr) = 0 := by
    cases s with
    | nil => rfl
    | cons value values =>
        rw [mix, List.mapIdx_cons, List.getD_cons_zero, cast_reduceFrom (w := fun _ => 0)]
        · simp
        · intro acc value index
          simp
  exact (eq_val_of_cast (getD_mix_mem _ _) hzero).trans (by simp)

/-- Poseidon returns zero if its last matrix is zero. -/
theorem poseidonHash_of_zero {constants : PoseidonPreparedConstants} {inputs : List ℤ}
    (hlen : 0 < inputs.length ∧ inputs.length ≤ 16)
    (hM : constants.M (inputs.length - 1) = fun _ _ => 0) : poseidonHash constants inputs = 0 := by
  rw [poseidonHash, poseidon_eq_permute hlen, hM, permute, getD_mix_zero]
  rfl

theorem poseidonHash_sixteen {inputs : List ℤ} (hlen : inputs.length = 16) :
    poseidonHash mixingConstants inputs = 0 := by
  refine poseidonHash_of_zero (by omega) ?_
  rw [hlen]
  rfl

/-- The first sixteen inputs. -/
def sixteenInputs : List ℤ := (List.range 16).map Int.ofNat

/-- The digests of the two chunks of these inputs and a further one. -/
def twoDigests : List ℤ :=
  [0, 5751946845230170495475884353280938051038380211953473463726867490090245256032]

theorem chunks_seventeen :
    ChunkTree.chunks (14 + 2) (sixteenInputs ++ [16]) = [sixteenInputs, [16]] := by
  decide

theorem poseidonHash_sixteenth : poseidonHash mixingConstants [16] =
    5751946845230170495475884353280938051038380211953473463726867490090245256032 := by
  decide +kernel

theorem poseidonHash_twoDigests : poseidonHash mixingConstants twoDigests =
    2685638775896558716179450571747684963440697741425586380843324960454392988396 := by
  decide +kernel

theorem digests_seventeen :
    ChunkTree.digests (poseidonHash mixingConstants) (14 + 2) (sixteenInputs ++ [16])
      = twoDigests := by
  rw [ChunkTree.digests, chunks_seventeen, List.map_cons, List.map_cons, List.map_nil,
    poseidonHash_sixteen rfl, poseidonHash_sixteenth, twoDigests]

theorem hashedLists_seventeen :
    hashedLists mixingConstants (sixteenInputs ++ [16]) = [sixteenInputs, [16], twoDigests] := by
  have hlong : 14 + 2 < (sixteenInputs ++ [16]).length := by decide
  rw [hashedLists, ChunkTree.hashed_of_lt hlong, digests_seventeen, chunks_seventeen,
    ChunkTree.hashed_of_le (by decide)]
  rfl

theorem hashedLists_twoDigests : hashedLists mixingConstants twoDigests = [twoDigests] :=
  ChunkTree.hashed_of_le (by decide)

theorem collisionFree_seventeen :
    CollisionFree mixingConstants (hashedLists mixingConstants (sixteenInputs ++ [16])
      ++ hashedLists mixingConstants twoDigests) := by
  have hhash : ∀ x y, poseidon mixingConstants x = poseidon mixingConstants y →
      poseidonHash mixingConstants x = poseidonHash mixingConstants y := fun x y h => by
    rw [poseidonHash, poseidonHash, h]
  have h16 : poseidonHash mixingConstants sixteenInputs = 0 := poseidonHash_sixteen rfl
  rw [hashedLists_seventeen, hashedLists_twoDigests]
  intro x hx y hy hxy
  have heq := hhash x y hxy
  simp only [List.cons_append, List.nil_append, List.mem_cons, List.not_mem_nil, or_false] at hx hy
  rcases hx with rfl | rfl | rfl | rfl <;> rcases hy with rfl | rfl | rfl | rfl <;>
    first
      | rfl
      | (simp only [h16, poseidonHash_sixteenth, poseidonHash_twoDigests] at heq
         exact absurd heq (by decide))

/-- Without a collision of Poseidon, the seventeen inputs and the two digests have one hash. -/
theorem digests_collide :
    CollisionFree mixingConstants (hashedLists mixingConstants (sixteenInputs ++ [16])
      ++ hashedLists mixingConstants twoDigests) ∧
    ¬ (poseidonBatch mixingConstants (sixteenInputs ++ [16])
        = poseidonBatch mixingConstants twoDigests → sixteenInputs ++ [16] = twoDigests) := by
  refine ⟨collisionFree_seventeen, ?_⟩
  intro hinj
  have hlong : 14 + 2 < (sixteenInputs ++ [16]).length := by decide
  have hsame : poseidonBatch mixingConstants (sixteenInputs ++ [16])
      = poseidonBatch mixingConstants twoDigests := by
    rw [poseidonBatch_eq _ (by decide), poseidonBatch_eq _ (by decide),
      ChunkTree.root_of_lt hlong, digests_seventeen]
  exact absurd (congrArg List.length (hinj hsame)) (by decide)

/-- The lists that collide, one of them the digests of the other. -/
theorem poseidonBatch_injective_iff_seventeen :
    (poseidonBatch mixingConstants (sixteenInputs ++ [16])
        = poseidonBatch mixingConstants twoDigests → sixteenInputs ++ [16] = twoDigests) ↔
      ¬ DigestsOf mixingConstants (sixteenInputs ++ [16]) twoDigests ∧
        ¬ DigestsOf mixingConstants twoDigests (sixteenInputs ++ [16]) :=
  poseidonBatch_injective_iff (by decide) (List.cons_ne_nil _ _) collisionFree_seventeen

end ZkStellar.Sdk

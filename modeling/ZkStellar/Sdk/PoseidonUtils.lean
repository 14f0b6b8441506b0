import ZkStellar.Sdk.PoseidonBatch

set_option autoImplicit false

/-! # Commitments and hashes with a tag

`poseidonCommit` and `domainSeparatedHash` are single calls of Poseidon, which reads its inputs
modulo the order of the field (`poseidon_congr`). A tag is an input like the others: what
`domainSeparatedHash` returns is also the hash of every list that `poseidonBatch` reduces to the tag
and the inputs, and of no other list where Poseidon has no further collisions
(`tagged_hash_iff`). -/

namespace ZkStellar.Sdk

variable (constants : PoseidonPreparedConstants)

/-! ## The functions -/

/-- `domainSeparatedHash`, for big integers. -/
def domainSeparatedHash (domainTag : ℤ) (inputs : List ℤ) : Except SorobanZkError ℤ := do
  throwIf (inputs.length = 0)
    (.general "domainSeparatedHash: inputs must be a non-empty array" .invalidPublicInput)
  let total := 1 + inputs.length
  throwIf (total > maxArity)
    (.general ("domainSeparatedHash: domainTag + " ++ toString inputs.length
      ++ " inputs exceeds the maximum Poseidon arity of " ++ toString maxArity
      ++ ". Pre-hash inputs with poseidonBatch() first.") .invalidPublicInput)
  poseidon constants (domainTag :: inputs)

/-- `poseidonCommit`, for a big integer. -/
def poseidonCommit (secret : ℤ) : Except SorobanZkError ℤ := poseidon constants [secret]

/-! ## Inputs modulo the order of the field -/

/-- The elements of two lists are congruent modulo the order of the field. -/
def Congruent (a b : List ℤ) : Prop := a.map (Int.cast : ℤ → Fr) = b.map Int.cast

instance (a b : List ℤ) : Decidable (Congruent a b) :=
  inferInstanceAs (Decidable (a.map (Int.cast : ℤ → Fr) = b.map Int.cast))

theorem Congruent.length_eq {a b : List ℤ} (h : Congruent a b) : a.length = b.length := by
  simpa using congrArg List.length h

/-- Congruent elements have the same remainder. -/
theorem mod_congr {a b : ℤ} (h : (a : Fr) = b) : mod a = mod b := by
  rw [mod_eq_emod, mod_eq_emod, bn254ScalarModulus_eq]
  exact (ZMod.intCast_eq_intCast_iff' a b _).1 h

theorem Congruent.map_mod {a b : List ℤ} (h : Congruent a b) : a.map mod = b.map mod := by
  induction a generalizing b with
  | nil =>
      rw [Congruent, List.map_nil, eq_comm, List.map_eq_nil_iff] at h
      rw [h]
  | cons x a ih =>
      rcases b with _ | ⟨y, b⟩
      · cases h
      · rw [Congruent, List.map_cons, List.map_cons, List.cons.injEq] at h
        rw [List.map_cons, List.map_cons, mod_congr h.1, ih h.2]

/-- Poseidon depends on its inputs modulo the order of the field. -/
theorem poseidon_congr {a b : List ℤ} (h : Congruent a b) :
    poseidon constants a = poseidon constants b := by
  rw [poseidon, poseidon, h.map_mod, h.length_eq]

/-- Poseidon of one field element, the function that the circuits' template `Poseidon(1)`
    computes. -/
def poseidon1 (x : Fr) : Fr := (poseidonHash constants [(x.val : ℤ)] : Fr)

/-- In the SDK and in the circuits Poseidon of one input is one function. -/
theorem poseidon_single (a : ℤ) : poseidon constants [a] = .ok (poseidon1 constants a).val := by
  have : NeZero bn254ScalarOrder := ⟨by decide⟩
  have hcongr : Congruent [a] [((a : Fr).val : ℤ)] := by
    rw [Congruent, List.map_singleton, List.map_singleton, Int.cast_natCast, ZMod.natCast_zmod_val]
  obtain ⟨v, hv, hcanonical⟩ : ∃ v, poseidon constants [((a : Fr).val : ℤ)] = .ok v ∧
      0 ≤ v ∧ v < bn254ScalarModulus := exists_poseidon ⟨Nat.succ_pos 0, by simp⟩
  have hhash : poseidonHash constants [((a : Fr).val : ℤ)] = v := by
    rw [poseidonHash, hv]
    rfl
  rw [poseidon_congr constants hcongr, hv, poseidon1, hhash, ← eq_val_of_cast hcanonical rfl]

/-- Poseidon collides only on congruent lists. -/
def CollidesCongruently (lists : List (List ℤ)) : Prop :=
  ∀ x ∈ lists, ∀ y ∈ lists, poseidon constants x = poseidon constants y → Congruent x y

/-! ## Tags -/

variable {constants}

theorem domainSeparatedHash_eq_ok_iff {domainTag : ℤ} {inputs : List ℤ} {digest : ℤ} :
    domainSeparatedHash constants domainTag inputs = .ok digest ↔
      0 < inputs.length ∧ inputs.length < maxArity ∧
        poseidon constants (domainTag :: inputs) = .ok digest := by
  simp only [domainSeparatedHash, bind_eq_ok_iff, throwIf_eq_ok_iff, exists_and_left, exists_const,
    decide_eq_false_iff_not]
  refine and_congr ?_ (and_congr_left' ?_) <;> omega

/-- What a tag and some inputs are hashed to is the hash of a list, however long, if and only if the
    list is congruent to the tag and the inputs, or is reduced to one that is. -/
theorem tagged_hash_iff {domainTag : ℤ} {inputs values : List ℤ} {digest : ℤ}
    (hdigest : domainSeparatedHash constants domainTag inputs = .ok digest)
    (hfree : CollidesCongruently constants
      ((domainTag :: inputs) :: hashedLists constants values)) :
    poseidonBatch constants values = .ok digest ↔
      ∃ last, (last = values ∨ DigestsOf constants values last) ∧
        Congruent last (domainTag :: inputs) := by
  obtain ⟨-, hshort, hhash⟩ := domainSeparatedHash_eq_ok_iff.1 hdigest
  by_cases hvalues : values = []
  · -- the empty list has no hash, and nothing to be reduced to
    subst hvalues
    have hempty : poseidonBatch constants [] ≠ .ok digest := by simp [poseidonBatch]
    refine iff_of_false hempty ?_
    rintro ⟨last, rfl | hlast, hcongr⟩
    · exact absurd hcongr.length_eq (by simp)
    · exact not_digestsOf_nil constants hlast
  refine ⟨?_, ?_⟩
  · intro hbatch
    obtain ⟨last, hreduced, hlen, hroot, hmem⟩ :=
      ChunkTree.exists_last (poseidonHash constants) 14 values
    have hpos : 0 < last.length :=
      (ChunkTree.length_of_mem_hashed hvalues last hmem).1
    rw [poseidonBatch_eq constants hvalues, hroot, ← poseidon_eq_ok constants ⟨hpos, hlen⟩,
      ← hhash] at hbatch
    have hcongr := hfree last (List.mem_cons_of_mem _ hmem) _ List.mem_cons_self hbatch
    exact ⟨last, (Relation.reflTransGen_iff_eq_or_transGen.1 hreduced), hcongr⟩
  · rintro ⟨last, hlast, hcongr⟩
    have hlen : last.length ≤ 14 + 2 := by
      rw [hcongr.length_eq, List.length_cons]
      exact hshort
    have hpos : 0 < last.length := by
      rw [hcongr.length_eq, List.length_cons]
      exact Nat.succ_pos _
    have hroot : ChunkTree.root (poseidonHash constants) 14 values
        = ChunkTree.root (poseidonHash constants) 14 last := by
      rcases hlast with rfl | hlast
      · rfl
      · exact ChunkTree.root_eq_of_transGen hlast
    rw [poseidonBatch_eq constants hvalues, hroot, ChunkTree.root_of_le hlen,
      ← poseidon_eq_ok constants ⟨hpos, hlen⟩, poseidon_congr constants hcongr, hhash]

/-- The tag 1 with the input 2, and two values of which the first is congruent to the tag. -/
theorem tagged_hash_iff_shifted :
    ∃ digest, domainSeparatedHash mixingConstants 1 [2] = .ok digest ∧
      (poseidonBatch mixingConstants [bn254ScalarModulus + 1, 2] = .ok digest ↔
        ∃ last, (last = [bn254ScalarModulus + 1, 2] ∨
            DigestsOf mixingConstants [bn254ScalarModulus + 1, 2] last) ∧
          Congruent last [1, 2]) := by
  have hdigest : domainSeparatedHash mixingConstants 1 [2]
      = .ok (poseidonHash mixingConstants [1, 2]) :=
    domainSeparatedHash_eq_ok_iff.2 ⟨Nat.succ_pos 0, by decide,
      poseidon_eq_ok mixingConstants ⟨Nat.succ_pos 1, by decide⟩⟩
  refine ⟨_, hdigest, tagged_hash_iff hdigest ?_⟩
  have hcongr : Congruent [bn254ScalarModulus + 1, 2] [1, 2] := by
    simp [Congruent, bn254ScalarModulus_eq]
  have hlists : hashedLists mixingConstants [bn254ScalarModulus + 1, 2]
      = [[bn254ScalarModulus + 1, 2]] := ChunkTree.hashed_of_le (Nat.le_add_left 2 14)
  rw [hlists]
  simp only [CollidesCongruently, List.forall_mem_cons, List.not_mem_nil, false_implies,
    implies_true, and_true]
  exact ⟨⟨fun _ => rfl, fun _ => hcongr.symm⟩, fun _ => hcongr, fun _ => rfl⟩

end ZkStellar.Sdk

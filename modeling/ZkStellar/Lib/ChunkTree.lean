import Mathlib.Data.List.Basic
import Mathlib.Order.Lattice
import Mathlib.Logic.Relation

set_option autoImplicit false

/-! # Hashing long lists chunk by chunk

A hash of lists of at most `k` values is extended to all lists: a longer list is cut into chunks,
the chunks are hashed, and the list of their digests is hashed in the same way. The length of the
list is not hashed, so a list and the list of its chunks' digests have one root. Where the hash has
no collisions, nothing else has (`root_eq_iff`). -/

namespace ZkStellar.ChunkTree

variable {α : Type*} (H : List α → α) (k : ℕ)

/-- The consecutive chunks of `k` elements, the last one possibly shorter. -/
def chunks (l : List α) : List (List α) :=
  (List.range ((l.length + k - 1) / k)).map fun i => (l.drop (k * i)).take k

/-- The digests of the chunks. -/
def digests (l : List α) : List α := (chunks k l).map H

variable {k} in
/-- There are fewer chunks than elements. -/
theorem length_chunks_lt (hk : 2 ≤ k) {l : List α} (hl : k < l.length) :
    (chunks k l).length < l.length := by
  rw [chunks, List.length_map, List.length_range]
  refine (Nat.div_lt_iff_lt_mul (by omega)).2 ?_
  have hmul : l.length * 2 ≤ l.length * k := Nat.mul_le_mul_left _ hk
  omega

/-- The root of a list, for chunks of `k + 2` elements. -/
def root (l : List α) : α :=
  if l.length ≤ k + 2 then H l else root (digests H (k + 2) l)
termination_by l.length
decreasing_by
  rw [digests, List.length_map]
  exact length_chunks_lt (by omega) (by omega)

/-- The lists that are hashed on the way to the root. -/
def hashed (l : List α) : List (List α) :=
  if l.length ≤ k + 2 then [l] else chunks (k + 2) l ++ hashed (digests H (k + 2) l)
termination_by l.length
decreasing_by
  rw [digests, List.length_map]
  exact length_chunks_lt (by omega) (by omega)

/-- `l'` is the list of digests that `l` is replaced with. -/
def Shortens (l l' : List α) : Prop := k + 2 < l.length ∧ l' = digests H (k + 2) l

/-! ## Chunks -/

variable {H k}

/-- The chunks put together are the list. -/
theorem flatten_chunks (hk : 0 < k) (l : List α) : (chunks k l).flatten = l := by
  have hprefix : ∀ m, ((List.range m).map fun i => (l.drop (k * i)).take k).flatten
      = l.take (k * m) := by
    intro m
    induction m with
    | zero => simp
    | succ m ih =>
        rw [List.range_succ, List.map_append, List.flatten_append, ih, Nat.mul_succ, List.take_add]
        simp
  rw [chunks, hprefix]
  refine List.take_of_length_le ?_
  have hdiv := Nat.div_add_mod (l.length + k - 1) k
  have hmod := Nat.mod_lt (l.length + k - 1) hk
  omega

theorem chunks_injective (hk : 0 < k) : Function.Injective (chunks (α := α) k) :=
  fun l l' h => by rw [← flatten_chunks hk l, h, flatten_chunks hk]

theorem chunks_ne_nil (hk : 0 < k) {l : List α} (hl : l ≠ []) : chunks k l ≠ [] := by
  intro hnil
  have hflat := flatten_chunks hk l
  rw [hnil, List.flatten_nil] at hflat
  exact hl hflat.symm

/-- Chunks have between one and `k` elements. -/
theorem length_of_mem_chunks (hk : 0 < k) {l c : List α} (hc : c ∈ chunks k l) :
    0 < c.length ∧ c.length ≤ k := by
  obtain ⟨i, hi, rfl⟩ := List.mem_map.1 hc
  have hlt : k * i < l.length := by
    have hi' : i + 1 ≤ (l.length + k - 1) / k := List.mem_range.1 hi
    have hmul := (Nat.le_div_iff_mul_le hk).1 hi'
    rw [Nat.succ_mul, Nat.mul_comm] at hmul
    omega
  rw [List.length_take, List.length_drop]
  omega

theorem map_injOn {l l' : List (List α)} {S : List (List α)}
    (hfree : ∀ x ∈ S, ∀ y ∈ S, H x = H y → x = y) (hl : ∀ c ∈ l, c ∈ S) (hl' : ∀ c ∈ l', c ∈ S)
    (h : l.map H = l'.map H) : l = l' := by
  induction l generalizing l' with
  | nil => simpa using h.symm
  | cons c l ih =>
      cases l' with
      | nil => simp at h
      | cons c' l' =>
          rw [List.map_cons, List.map_cons, List.cons.injEq] at h
          obtain ⟨hc, hl⟩ := List.forall_mem_cons.1 hl
          obtain ⟨hc', hl'⟩ := List.forall_mem_cons.1 hl'
          rw [hfree c hc c' hc' h.1, ih hl hl' h.2]

/-! ## Roots -/

theorem root_of_le {l : List α} (hl : l.length ≤ k + 2) : root H k l = H l := by
  rw [root, if_pos hl]

theorem root_of_lt {l : List α} (hl : k + 2 < l.length) :
    root H k l = root H k (digests H (k + 2) l) := by
  rw [root, if_neg (not_le.2 hl)]

theorem hashed_of_le {l : List α} (hl : l.length ≤ k + 2) : hashed H k l = [l] := by
  rw [hashed, if_pos hl]

theorem hashed_of_lt {l : List α} (hl : k + 2 < l.length) :
    hashed H k l = chunks (k + 2) l ++ hashed H k (digests H (k + 2) l) := by
  rw [hashed, if_neg (not_le.2 hl)]

theorem Shortens.root_eq {l l' : List α} (h : Shortens H k l l') : root H k l = root H k l' := by
  obtain ⟨hlt, rfl⟩ := h
  exact root_of_lt hlt

theorem Shortens.length_lt {l l' : List α} (h : Shortens H k l l') : l'.length < l.length := by
  obtain ⟨hlt, rfl⟩ := h
  rw [digests, List.length_map]
  exact length_chunks_lt (by omega) hlt

theorem Shortens.hashed_subset {l l' : List α} (h : Shortens H k l l') :
    ∀ c ∈ hashed H k l', c ∈ hashed H k l := by
  obtain ⟨hlt, rfl⟩ := h
  intro c hc
  rw [hashed_of_lt hlt]
  exact List.mem_append_right _ hc

/-- The lists that are hashed have between one and `k + 2` elements. -/
theorem length_of_mem_hashed {l : List α} (hl : l ≠ []) :
    ∀ c ∈ hashed H k l, 0 < c.length ∧ c.length ≤ k + 2 := by
  induction hn : l.length using Nat.strong_induction_on generalizing l with
  | _ n ih =>
      by_cases hlong : k + 2 < l.length
      · have hstep : Shortens H k l (digests H (k + 2) l) := ⟨hlong, rfl⟩
        have hne : digests H (k + 2) l ≠ [] := by
          rw [digests, ne_eq, List.map_eq_nil_iff]
          exact chunks_ne_nil (by omega) hl
        intro c hc
        rw [hashed_of_lt hlong] at hc
        rcases List.mem_append.1 hc with hchunk | hrest
        · exact length_of_mem_chunks (by omega) hchunk
        · exact ih _ (hn ▸ hstep.length_lt) hne rfl c hrest
      · intro c hc
        rw [hashed_of_le (not_lt.1 hlong), List.mem_singleton] at hc
        subst hc
        exact ⟨List.length_pos_of_ne_nil hl, not_lt.1 hlong⟩

/-- A list has the root of every list of digests that it is replaced with. -/
theorem root_eq_of_transGen {l l' : List α} (h : Relation.TransGen (Shortens H k) l l') :
    root H k l = root H k l' := by
  induction h with
  | single h => exact h.root_eq
  | tail _ h ih => exact ih.trans h.root_eq

theorem length_lt_of_transGen {l l' : List α} (h : Relation.TransGen (Shortens H k) l l') :
    l'.length < l.length := by
  induction h with
  | single h => exact h.length_lt
  | tail _ h ih => exact h.length_lt.trans ih

theorem hashed_subset_of_reflTransGen {l l' : List α}
    (h : Relation.ReflTransGen (Shortens H k) l l') : ∀ c ∈ hashed H k l', c ∈ hashed H k l := by
  induction h with
  | refl => exact fun c hc => hc
  | tail _ h ih => exact fun c hc => ih c (h.hashed_subset c hc)

/-- Every list is replaced, step by step, with one that is hashed at once and has its root. -/
theorem exists_last (H : List α → α) (k : ℕ) (l : List α) :
    ∃ m, Relation.ReflTransGen (Shortens H k) l m ∧ m.length ≤ k + 2 ∧ root H k l = H m ∧
      m ∈ hashed H k l := by
  induction hn : l.length using Nat.strong_induction_on generalizing l with
  | _ n ih =>
      by_cases hlong : k + 2 < l.length
      · have hstep : Shortens H k l (digests H (k + 2) l) := ⟨hlong, rfl⟩
        obtain ⟨m, hm, hlen, hroot, hmem⟩ := ih _ (hn ▸ hstep.length_lt) _ rfl
        exact ⟨m, .head hstep hm, hlen, hstep.root_eq.trans hroot, hstep.hashed_subset m hmem⟩
      · have hshort := not_lt.1 hlong
        exact ⟨l, .refl, hshort, root_of_le hshort, by simp [hashed_of_le hshort]⟩

/-- Equal, or one of the two is replaced with the other. -/
def Related (H : List α → α) (k : ℕ) (l l' : List α) : Prop :=
  l = l' ∨ Relation.TransGen (Shortens H k) l l' ∨ Relation.TransGen (Shortens H k) l' l

theorem Related.symm {l l' : List α} (h : Related H k l l') : Related H k l' l := by
  obtain rfl | h | h := h
  · exact .inl rfl
  · exact .inr (.inr h)
  · exact .inr (.inl h)

section

variable {S : List (List α)} (hfree : ∀ x ∈ S, ∀ y ∈ S, H x = H y → x = y)

include hfree

/-- Two long lists with the same digests are equal. -/
theorem eq_of_digests_eq {l l' : List α} (hl : k + 2 < l.length) (hl' : k + 2 < l'.length)
    (hS : ∀ c ∈ hashed H k l, c ∈ S) (hS' : ∀ c ∈ hashed H k l', c ∈ S)
    (h : digests H (k + 2) l = digests H (k + 2) l') : l = l' := by
  rw [hashed_of_lt hl] at hS
  rw [hashed_of_lt hl'] at hS'
  exact chunks_injective (by omega) (map_injOn hfree
    (fun c hc => hS c (List.mem_append_left _ hc))
    (fun c hc => hS' c (List.mem_append_left _ hc)) h)

/-- What is related to the digests of a list is related to the list. -/
theorem Related.of_digests {l l' : List α} (hl : k + 2 < l.length)
    (hS : ∀ c ∈ hashed H k l, c ∈ S) (hS' : ∀ c ∈ hashed H k l', c ∈ S)
    (h : Related H k (digests H (k + 2) l) l') : Related H k l l' := by
  have hstep : Shortens H k l (digests H (k + 2) l) := ⟨hl, rfl⟩
  obtain rfl | h | h := h
  · exact .inr (.inl (.single hstep))
  · exact .inr (.inl (.head hstep h))
  · -- the last list on the way from `l'` has the digests of `l`, so it is `l`
    obtain ⟨m, hm, hlast⟩ := Relation.TransGen.tail'_iff.1 h
    obtain rfl : m = l := eq_of_digests_eq hfree hlast.1 hl
      (fun c hc => hS' c (hashed_subset_of_reflTransGen hm c hc)) hS hlast.2.symm
    rcases Relation.reflTransGen_iff_eq_or_transGen.1 hm with rfl | hm
    · exact .inl rfl
    · exact .inr (.inr hm)

/-- Lists with the same root are related. -/
theorem related_of_root_eq {l l' : List α} (hS : ∀ c ∈ hashed H k l, c ∈ S)
    (hS' : ∀ c ∈ hashed H k l', c ∈ S) (h : root H k l = root H k l') : Related H k l l' := by
  induction hn : l.length + l'.length using Nat.strong_induction_on generalizing l l' with
  | _ n ih =>
      have hstep : ∀ {m : List α}, k + 2 < m.length → Shortens H k m (digests H (k + 2) m) :=
        fun hm => ⟨hm, rfl⟩
      by_cases hl : k + 2 < l.length
      · have hlt := (hstep hl).length_lt
        refine Related.of_digests hfree hl hS hS' (ih _ (by omega)
          (fun c hc => hS c ((hstep hl).hashed_subset c hc)) hS' ?_ rfl)
        rw [← root_of_lt hl, h]
      · by_cases hl' : k + 2 < l'.length
        · have hlt := (hstep hl').length_lt
          refine (Related.of_digests hfree hl' hS' hS (ih _ (by omega)
            (fun c hc => hS' c ((hstep hl').hashed_subset c hc)) hS ?_ rfl)).symm
          rw [← root_of_lt hl', h]
        · -- both lists are hashed at once
          rw [root_of_le (not_lt.1 hl), root_of_le (not_lt.1 hl')] at h
          rw [hashed_of_le (not_lt.1 hl)] at hS
          rw [hashed_of_le (not_lt.1 hl')] at hS'
          exact .inl (hfree l (hS l (List.mem_singleton_self l)) l'
            (hS' l' (List.mem_singleton_self l')) h)

/-- Where the hash has no collisions, two lists have one root exactly when they are equal or one of
    them consists of digests on the other's way to the root. -/
theorem root_eq_iff {l l' : List α} (hS : ∀ c ∈ hashed H k l, c ∈ S)
    (hS' : ∀ c ∈ hashed H k l', c ∈ S) : root H k l = root H k l' ↔ Related H k l l' := by
  refine ⟨related_of_root_eq hfree hS hS', ?_⟩
  rintro (rfl | h | h)
  · rfl
  · exact root_eq_of_transGen h
  · exact (root_eq_of_transGen h).symm

end

end ZkStellar.ChunkTree

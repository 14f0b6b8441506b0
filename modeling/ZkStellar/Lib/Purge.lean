import ZkStellar.Lib.Execution

set_option autoImplicit false

/-! # Runs with some of their inputs deleted

To show that the inputs a predicate `keep` rejects do not interfere with the others, relate the
states of a run to those of the same run without them: a kept input looks the same in related states
and leaves related states, a deleted one leaves a state that is still related to the other run's
(`Machine.Unwinding`). Then deleting them changes nothing of what is seen of the other inputs
(`Unwinding.purge`). `seen` is what is seen of a step, its outcome or more; `Good` is what is known
of the steps of the full run. -/

namespace ZkStellar.Machine

variable {σ ι ο ω : Type} (m : Machine σ ι ο) (seen : σ → ι → ω) (keep : ι → Bool)

/-- The inputs of a run, each with what is seen of its step. -/
def views (s : σ) (is : List ι) : List (ι × ω) :=
  (m.trace s is).map fun e => (e.input, seen e.pre e.input)

/-- Those of the inputs that `keep` accepts. -/
def keptViews (s : σ) (is : List ι) : List (ι × ω) :=
  ((m.trace s is).filter fun e => keep e.input).map fun e => (e.input, seen e.pre e.input)

theorem views_concat (s : σ) (is : List ι) (i : ι) :
    m.views seen s (is ++ [i]) = m.views seen s is ++ [(i, seen (m.run s is) i)] := by
  simp [views]

variable {keep} in
theorem keptViews_concat {s : σ} {is : List ι} {i : ι} (hi : keep i = true) :
    m.keptViews seen keep s (is ++ [i])
      = m.keptViews seen keep s is ++ [(i, seen (m.run s is) i)] := by
  simp [keptViews, hi]

/-- `R` relates the states of a run to those of the run without the inputs `keep` rejects. -/
structure Unwinding (Good : σ → ι → Prop) (R : σ → σ → Prop) : Prop where
  kept : ∀ s t i, Good s i → R s t → keep i = true →
    seen s i = seen t i ∧ R (m.step s i).2 (m.step t i).2
  dropped : ∀ s t i, Good s i → R s t → keep i = false → R (m.step s i).2 t

variable {m seen keep}

theorem Unwinding.purge {Good : σ → ι → Prop} {R : σ → σ → Prop}
    (hunwind : m.Unwinding seen keep Good R) {s t : σ} (hst : R s t) {is : List ι}
    (hgood : ∀ e ∈ m.trace s is, Good e.pre e.input) :
    m.views seen t (is.filter keep) = m.keptViews seen keep s is ∧
      R (m.run s is) (m.run t (is.filter keep)) := by
  induction is generalizing s t with
  | nil => exact ⟨rfl, hst⟩
  | cons i is ih =>
      have hhead : Good s i := hgood ⟨s, i, _⟩ List.mem_cons_self
      have htail : ∀ e ∈ m.trace (m.step s i).2 is, Good e.pre e.input :=
        fun e he => hgood e (List.mem_cons_of_mem _ he)
      -- a kept input is a step of both runs, a dropped one of the full run only
      cases hi : keep i with
      | true =>
          obtain ⟨hseen, hnext⟩ := hunwind.kept s t i hhead hst hi
          obtain ⟨hviews, hend⟩ := ih hnext htail
          rw [List.filter_cons_of_pos hi]
          refine ⟨?_, hend⟩
          simp only [views, keptViews, trace, hi, List.filter_cons_of_pos, List.map_cons,
            hseen] at hviews ⊢
          rw [hviews]
      | false =>
          obtain ⟨hviews, hend⟩ := ih (hunwind.dropped s t i hhead hst hi) htail
          rw [List.filter_cons_of_neg (by simp [hi])]
          refine ⟨?_, hend⟩
          rw [hviews]
          simp [keptViews, trace, hi]

end ZkStellar.Machine

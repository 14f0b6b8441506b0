import ZkStellar.Lib.Execution

set_option autoImplicit false

/-! # Simulations between machines

Two machines over the same inputs simulate each other along a relation of their states when a step
from related states has one outcome and leads to related states. `Simulation.run` lifts this to
runs: the outcomes agree step by step and the final states are related. A step may need a guard on
the input and the state it meets; the run then has to meet the guard throughout
(`Machine.Guarded`). -/

namespace ZkStellar

variable {σ τ ι ο : Type}

/-- Every step of the run from `s` meets `guard`, in the state it starts from. -/
def Machine.Guarded (m : Machine σ ι ο) (guard : σ → ι → Prop) (s : σ) : List ι → Prop
  | [] => True
  | i :: is => guard s i ∧ m.Guarded guard (m.step s i).2 is

/-- A guard on the input alone is met throughout when all inputs meet it. -/
theorem Machine.guarded_of_forall {m : Machine σ ι ο} {good : ι → Prop} {s : σ} {is : List ι}
    (hgood : ∀ i ∈ is, good i) : m.Guarded (fun _ i => good i) s is := by
  induction is generalizing s with
  | nil => trivial
  | cons i is ih =>
      exact ⟨hgood i List.mem_cons_self, ih fun j hj => hgood j (List.mem_cons_of_mem i hj)⟩

/-- A guard with a part on the input alone. -/
theorem Machine.guarded_and {m : Machine σ ι ο} {guard : σ → ι → Prop} {good : ι → Prop} {s : σ}
    {is : List ι} (hguard : m.Guarded guard s is) (hgood : ∀ i ∈ is, good i) :
    m.Guarded (fun s i => guard s i ∧ good i) s is := by
  induction is generalizing s with
  | nil => trivial
  | cons i is ih =>
      rcases hguard with ⟨hi, his⟩
      exact ⟨⟨hi, hgood i List.mem_cons_self⟩,
        ih his fun j hj => hgood j (List.mem_cons_of_mem i hj)⟩

instance Machine.decidableGuarded (m : Machine σ ι ο) (guard : σ → ι → Prop)
    [∀ s i, Decidable (guard s i)] (s : σ) (is : List ι) : Decidable (m.Guarded guard s is) :=
  match is with
  | [] => .isTrue trivial
  | i :: is =>
      have := m.decidableGuarded guard (m.step s i).2 is
      inferInstanceAs (Decidable (guard s i ∧ m.Guarded guard (m.step s i).2 is))

/-- What holds at the start and is kept by every step that meets the guard holds at the end of a
    guarded run. -/
theorem Machine.Guarded.run_induction {m : Machine σ ι ο} {guard : σ → ι → Prop} {P : σ → Prop}
    {s : σ} {is : List ι} (hguard : m.Guarded guard s is) (start : P s)
    (step : ∀ s i, guard s i → P s → P (m.step s i).2) : P (m.run s is) := by
  induction is generalizing s with
  | nil => exact start
  | cons i is ih =>
      rcases hguard with ⟨hi, his⟩
      exact ih his (step s i hi start)

/-- The inputs of a run paired with their outcomes. -/
theorem Machine.map_trace_eq_zip (m : Machine σ ι ο) (s : σ) (is : List ι) :
    (m.trace s is).map (fun e => (e.input, e.outcome)) = is.zip (m.outcomes s is) := by
  induction is generalizing s with
  | nil => rfl
  | cons i is ih => rw [trace, outcomes, List.map_cons, List.zip_cons_cons, ih]

/-- From states related by `R`, an input that meets the guard has the same outcome in both machines
    and leads to related states. -/
structure Simulation (m : Machine σ ι ο) (n : Machine τ ι ο) (guard : σ → ι → Prop)
    (R : σ → τ → Prop) : Prop where
  outcome : ∀ s t i, guard s i → R s t → (m.step s i).1 = (n.step t i).1
  related : ∀ s t i, guard s i → R s t → R (m.step s i).2 (n.step t i).2

namespace Simulation

variable {m : Machine σ ι ο} {n : Machine τ ι ο} {guard : σ → ι → Prop} {R : σ → τ → Prop}

/-- A guarded run has the same outcomes in both machines and ends in related states. -/
theorem run (sim : Simulation m n guard R) {s : σ} {t : τ} (hrel : R s t) {is : List ι}
    (hguard : m.Guarded guard s is) :
    m.outcomes s is = n.outcomes t is ∧ R (m.run s is) (n.run t is) := by
  induction is generalizing s t with
  | nil => exact ⟨rfl, hrel⟩
  | cons i is ih =>
      rcases hguard with ⟨hi, his⟩
      obtain ⟨houtcomes, hend⟩ := ih (sim.related s t i hi hrel) his
      refine ⟨?_, hend⟩
      rw [Machine.outcomes, Machine.outcomes, sim.outcome s t i hi hrel, houtcomes]

end Simulation

end ZkStellar

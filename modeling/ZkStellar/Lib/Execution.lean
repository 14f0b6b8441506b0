import Mathlib.Data.List.Induction
import Mathlib.Algebra.Ring.Nat
import Mathlib.Logic.Basic

set_option autoImplicit false

/-! # Transactional calls and runs

The code of a contract, run on a state, traps or ends with a value or an error and a possibly
changed state. The host keeps the change only when the code ends with a value (`commit`). A machine
takes one call after another; `Machine.trace` records the state each call started from, the call
and its outcome, and `Machine.run_induction` is the rule by which an invariant that links the state
to the whole trace is shown of every run. -/

namespace ZkStellar

/-! ## Arithmetic with overflow checks -/

/-- `a + b` on 32-bit numbers, `none` on overflow. -/
def checkedAdd32 (a b : UInt32) : Option UInt32 :=
  if a.toNat + b.toNat < 2 ^ 32 then some (a + b) else none

/-- `a - b` on 32-bit numbers, `none` on underflow. -/
def checkedSub32 (a b : UInt32) : Option UInt32 := if b ≤ a then some (a - b) else none

/-- `a % b` on 32-bit numbers, `none` when `b` is zero. -/
def checkedRem32 (a b : UInt32) : Option UInt32 := if b = 0 then none else some (a % b)

/-- `a + b` on 64-bit numbers, `none` on overflow. -/
def checkedAdd64 (a b : UInt64) : Option UInt64 :=
  if a.toNat + b.toNat < 2 ^ 64 then some (a + b) else none

/-! ## Calls -/

/-- What the host reports of a call: its value, its typed error, or a trap. -/
inductive Outcome (ε α : Type) where
  | ok (value : α)
  | err (error : ε)
  | trap
deriving DecidableEq, Repr

/-- Keep the state a piece of contract code ends with when it ends with a value; roll back
    everything it did when it ends with an error or traps. -/
def commit {σ ε α : Type} (s : σ) : Option (Except ε α × σ) → Outcome ε α × σ
  | some (.ok a, s') => (.ok a, s')
  | some (.error e, _) => (.err e, s)
  | none => (.trap, s)

section Commit

variable {σ ε α : Type} {s s' : σ}

@[simp] theorem commit_ok (a : α) : commit (ε := ε) s (some (.ok a, s')) = (.ok a, s') := rfl

@[simp] theorem commit_error (e : ε) : commit (α := α) s (some (.error e, s')) = (.err e, s) := rfl

@[simp] theorem commit_none : commit (ε := ε) (α := α) s none = (.trap, s) := rfl

/-- A call that did not end with a value left the state as it was. -/
theorem commit_snd_of_not_ok {r : Option (Except ε α × σ)} (h : ∀ a, (commit s r).1 ≠ .ok a) :
    (commit s r).2 = s := by
  rcases r with _ | ⟨_ | b, s'⟩
  · rfl
  · rfl
  · exact absurd rfl (h b)

end Commit

/-! ## Answers to a list of items -/

section Answers

variable {α : Type}

/-- The items answered with `true`. -/
def answeredTrue (items : List α) (bs : List Bool) : List α :=
  ((items.zip bs).filter Prod.snd).map Prod.fst

@[simp] theorem answeredTrue_nil_left (bs : List Bool) : answeredTrue ([] : List α) bs = [] := rfl

@[simp] theorem answeredTrue_nil_right (items : List α) : answeredTrue items [] = [] := by
  simp [answeredTrue]

@[simp] theorem answeredTrue_cons (item : α) (items : List α) (b : Bool) (bs : List Bool) :
    answeredTrue (item :: items) (b :: bs)
      = if b then item :: answeredTrue items bs else answeredTrue items bs := by
  cases b <;> rfl

theorem answeredTrue_replicate_true (items : List α) :
    answeredTrue items (List.replicate items.length true) = items := by
  induction items with
  | nil => rfl
  | cons item items ih => simp [List.replicate_succ, ih]

theorem mem_of_mem_answeredTrue {items : List α} {bs : List Bool} {item : α}
    (hmem : item ∈ answeredTrue items bs) : item ∈ items := by
  simp only [answeredTrue, List.mem_map, List.mem_filter, Prod.exists] at hmem
  obtain ⟨e, b, ⟨hzip, -⟩, rfl⟩ := hmem
  exact (List.of_mem_zip hzip).1

end Answers

/-! ## Runs -/

/-- A deterministic machine: from a state an input yields an outcome and the next state. -/
structure Machine (σ ι ο : Type) where
  step : σ → ι → ο × σ

/-- One entry of a trace: the state before the step, the input and the outcome. -/
structure Entry (σ ι ο : Type) where
  pre : σ
  input : ι
  outcome : ο

namespace Machine

variable {σ ι ο : Type} (m : Machine σ ι ο)

/-- The state after feeding a list of inputs. -/
def run (s : σ) : List ι → σ
  | [] => s
  | i :: is => run (m.step s i).2 is

/-- The steps of a run, in order. -/
def trace (s : σ) : List ι → List (Entry σ ι ο)
  | [] => []
  | i :: is => ⟨s, i, (m.step s i).1⟩ :: trace (m.step s i).2 is

/-- The outcomes of a run, in order. -/
def outcomes (s : σ) : List ι → List ο
  | [] => []
  | i :: is => (m.step s i).1 :: outcomes (m.step s i).2 is

theorem run_append (s : σ) (is js : List ι) : m.run s (is ++ js) = m.run (m.run s is) js := by
  induction is generalizing s with
  | nil => rfl
  | cons i is ih => exact ih _

theorem trace_append (s : σ) (is js : List ι) :
    m.trace s (is ++ js) = m.trace s is ++ m.trace (m.run s is) js := by
  induction is generalizing s with
  | nil => rfl
  | cons i is ih => simp only [List.cons_append, trace, run, ih]

@[simp] theorem run_concat (s : σ) (is : List ι) (i : ι) :
    m.run s (is ++ [i]) = (m.step (m.run s is) i).2 :=
  m.run_append s is [i]

@[simp] theorem trace_concat (s : σ) (is : List ι) (i : ι) :
    m.trace s (is ++ [i])
      = m.trace s is ++ [⟨m.run s is, i, (m.step (m.run s is) i).1⟩] :=
  m.trace_append s is [i]

/-- Each entry of a trace is a step taken after some prefix of the inputs. -/
theorem exists_prefix_of_mem_trace {s : σ} {is : List ι} {e : Entry σ ι ο}
    (he : e ∈ m.trace s is) :
    ∃ pre post, is = pre ++ e.input :: post ∧ e.pre = m.run s pre := by
  induction is generalizing s with
  | nil => cases he
  | cons i is ih =>
      rcases List.mem_cons.1 he with rfl | he
      · exact ⟨[], is, rfl, rfl⟩
      · obtain ⟨pre, post, hsplit, hpre⟩ := ih he
        exact ⟨i :: pre, post, by rw [hsplit]; rfl, hpre⟩

/-- The induction rule for runs: a relation between trace and state that holds at the start and is
    kept by every step holds after every run. -/
theorem run_induction {s₀ : σ} {P : List (Entry σ ι ο) → σ → Prop} (start : P [] s₀)
    (step : ∀ tr s i, P tr s → P (tr ++ [⟨s, i, (m.step s i).1⟩]) (m.step s i).2)
    (is : List ι) : P (m.trace s₀ is) (m.run s₀ is) := by
  induction is using List.reverseRecOn with
  | nil => exact start
  | append_singleton is i ih =>
      rw [trace_concat, run_concat]
      exact step _ _ _ ih

/-- A state that some run from `s₀` ends in. -/
def Reachable (s₀ s : σ) : Prop := ∃ is, s = m.run s₀ is

/-- The invariant rule: what holds at the start and is kept by every step holds of every reachable
    state. -/
theorem Reachable.induction {s₀ s : σ} {P : σ → Prop} (h : m.Reachable s₀ s) (start : P s₀)
    (step : ∀ s i, P s → P (m.step s i).2) : P s := by
  obtain ⟨is, rfl⟩ := h
  exact m.run_induction (P := fun _ s => P s) start (fun _ s i => step s i) is

/-! ### Dry runs -/

/-- The outcome a step would have, the state being kept. -/
def simulate (s : σ) (i : ι) : ο := (m.step s i).1

/-- Simulating each input on the starting state gives the outcomes of the run exactly when every
    input has in the state it meets the outcome it has in the starting state. -/
theorem map_simulate_eq_outcomes_iff (s : σ) (is : List ι) :
    is.map (m.simulate s) = m.outcomes s is ↔
      ∀ pre i post, is = pre ++ i :: post → m.simulate (m.run s pre) i = m.simulate s i := by
  have key : ∀ t : σ, is.map (m.simulate s) = m.outcomes t is ↔
      ∀ pre i post, is = pre ++ i :: post → m.simulate (m.run t pre) i = m.simulate s i := by
    induction is with
    | nil => simp [outcomes]
    | cons i is ih =>
        intro t
        rw [List.map_cons, outcomes, List.cons.injEq, ih]
        constructor
        · rintro ⟨hhead, htail⟩ pre j post hsplit
          cases pre with
          | nil =>
              cases hsplit
              exact hhead.symm
          | cons k pre =>
              cases hsplit
              exact htail pre j post rfl
        · intro hall
          exact ⟨(hall [] i is rfl).symm, fun pre j post hsplit =>
            hall (i :: pre) j post (by rw [hsplit]; rfl)⟩
  exact key s

end Machine

end ZkStellar

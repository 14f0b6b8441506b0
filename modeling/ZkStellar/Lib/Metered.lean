import Mathlib.Data.List.Basic
import Mathlib.Tactic.Common

set_option autoImplicit false

/-! # Metered checks

A budget meters a sequence of checks: as long as it is not used up a check is answered by its own
verdict, afterwards every check is answered with `false`. Which checks use up a unit is a parameter
(`charge`). Two ways of charging may answer the same sequence differently; `answers_spent_eq_iff`
says when charging every check answers and spends as much as charging some of them. -/

namespace ZkStellar.Metered

variable {α : Type} (ok charge : α → Bool)

/-- The answers to a sequence of checks. -/
def answers : ℕ → List α → List Bool
  | _, [] => []
  | 0, _ :: vs => false :: answers 0 vs
  | b + 1, v :: vs => ok v :: answers (if charge v then b else b + 1) vs

/-- The units of the budget a sequence of checks uses up. -/
def spent : ℕ → List α → ℕ
  | _, [] => 0
  | 0, _ :: _ => 0
  | b + 1, v :: vs => if charge v then spent b vs + 1 else spent (b + 1) vs

/-- The units one check uses up. -/
def unit : ℕ → α → ℕ
  | 0, _ => 0
  | _ + 1, v => if charge v then 1 else 0

theorem unit_eq (b : ℕ) (v : α) :
    unit charge b v = if 0 < b ∧ charge v = true then 1 else 0 := by
  cases b <;> simp [unit]

theorem answers_cons (b : ℕ) (v : α) (vs : List α) :
    answers ok charge b (v :: vs)
      = (decide (0 < b) && ok v) :: answers ok charge (b - unit charge b v) vs := by
  cases b with
  | zero => simp [answers, unit]
  | succ b => by_cases hv : charge v <;> simp [answers, unit, hv]

theorem spent_cons (b : ℕ) (v : α) (vs : List α) :
    spent charge b (v :: vs) = unit charge b v + spent charge (b - unit charge b v) vs := by
  cases b with
  | zero => cases vs <;> rfl
  | succ b => by_cases hv : charge v <;> simp [spent, unit, hv, Nat.add_comm]

@[simp] theorem spent_zero (vs : List α) : spent charge 0 vs = 0 := by
  cases vs <;> rfl

theorem spent_eq (b : ℕ) (vs : List α) : spent charge b vs = min b (vs.countP charge) := by
  induction vs generalizing b with
  | nil => simp [spent]
  | cons v vs ih =>
      cases b with
      | zero => simp
      | succ b =>
          by_cases hv : charge v
          · simp only [spent, hv, if_true, ih, List.countP_cons_of_pos hv]
            omega
          · simp only [spent, hv, Bool.false_eq_true, if_false, ih, List.countP_cons_of_neg hv]

@[simp] theorem length_answers (b : ℕ) (vs : List α) :
    (answers ok charge b vs).length = vs.length := by
  induction vs generalizing b with
  | nil => rfl
  | cons v vs ih => cases b <;> simp [answers, ih]

/-- A check is answered by its verdict while fewer units than the budget were charged before it. -/
theorem getElem?_answers (b : ℕ) (vs : List α) (i : ℕ) :
    (answers ok charge b vs)[i]?
      = vs[i]?.map fun v => ok v && decide ((vs.take i).countP charge < b) := by
  induction vs generalizing b i with
  | nil => rfl
  | cons v vs ih =>
      cases b with
      | zero =>
          cases i with
          | zero => simp [answers]
          | succ i => simp [answers, ih]
      | succ b =>
          cases i with
          | zero => simp [answers]
          | succ i =>
              by_cases hv : charge v
              · simp [answers, ih, hv]
              · simp [answers, ih, hv]

/-- When every check is charged, the budget's worth of them is answered by their verdicts, and the
    rest with `false`. -/
theorem answers_of_charged {charge : α → Bool} (hcharge : ∀ v, charge v = true) (b : ℕ)
    (vs : List α) :
    answers ok charge b vs = (vs.take b).map ok ++ List.replicate (vs.length - b) false := by
  induction vs generalizing b with
  | nil => simp [answers]
  | cons v vs ih =>
      cases b with
      | zero => simp [answers, ih, List.replicate_succ]
      | succ b => simp [answers, ih, hcharge]

/-- Within the budget every entry that is `ok` passes. -/
theorem answers_replicate {v : α} (hok : ok v = true) {k b : ℕ} (hk : k ≤ b) :
    answers ok charge b (List.replicate k v) = List.replicate k true := by
  induction k generalizing b with
  | zero => cases b <;> rfl
  | succ k ih =>
      rw [List.replicate_succ, answers_cons, ih, List.replicate_succ, hok]
      · simp [show 0 < b by omega]
      · cases b with
        | zero => omega
        | succ b =>
            simp only [unit]
            split <;> omega

theorem answers_eq_iff (charge' : α → Bool) (b : ℕ) (vs : List α) :
    answers ok charge b vs = answers ok charge' b vs ↔
      ∀ i v, vs[i]? = some v → ok v = true →
        ((vs.take i).countP charge < b ↔ (vs.take i).countP charge' < b) := by
  constructor
  · intro heq i v hv hok
    have hi := congrArg (·[i]?) heq
    simpa [getElem?_answers, hv, hok] using hi
  · intro hall
    refine List.ext_getElem? ?_
    intro i
    rw [getElem?_answers, getElem?_answers]
    cases hv : vs[i]? with
    | none => rfl
    | some v =>
        cases hok : ok v with
        | false => simp [hok]
        | true => simp [hok, hall i v hv hok]

/-- Charging every check answers and spends the same as charging some, exactly when these are all,
    or when the charged ones alone use the budget up and no check with a positive verdict comes
    late enough to be hit only if every check is charged. -/
theorem answers_spent_eq_iff (b : ℕ) (vs : List α) :
    (answers ok (fun _ => true) b vs = answers ok charge b vs ∧
        spent (fun _ => true) b vs = spent charge b vs) ↔
      (∀ v ∈ vs, charge v = true) ∨ (b ≤ vs.countP charge ∧
        ∀ i v, vs[i]? = some v → ok v = true → i < b ∨ b ≤ (vs.take i).countP charge) := by
  have htrue : ∀ l : List α, l.countP (fun _ => true) = l.length := fun l => by simp
  have hlen : vs.countP charge ≤ vs.length := List.countP_le_length
  have hindex : ∀ i v, vs[i]? = some v → (vs.take i).countP (fun _ => true) = i := by
    intro i v hv
    rw [htrue, List.length_take]
    have := (List.getElem?_eq_some_iff.1 hv).1
    omega
  rw [answers_eq_iff, spent_eq, spent_eq, htrue]
  constructor
  · rintro ⟨hanswers, hspent⟩
    by_cases hall : ∀ v ∈ vs, charge v = true
    · exact .inl hall
    · right
      -- some check is free, so equal spending means that both spent the whole budget
      have hlt : vs.countP charge < vs.length :=
        Nat.lt_of_le_of_ne hlen fun heq => hall (List.countP_eq_length.1 heq)
      refine ⟨by omega, ?_⟩
      intro i v hv hok
      have hiff := hanswers i v hv hok
      rw [hindex i v hv] at hiff
      omega
  · rintro (hall | ⟨hbudget, hlate⟩)
    · have heq : vs.countP charge = vs.length := List.countP_eq_length.2 hall
      refine ⟨fun i v hv hok => ?_, by rw [heq]⟩
      -- nothing is free: the two meters agree at every position
      have htake : (vs.take i).countP charge = (vs.take i).countP (fun _ => true) := by
        rw [htrue]
        exact List.countP_eq_length.2 fun x hx => hall x (List.mem_of_mem_take hx)
      rw [htake]
    · refine ⟨fun i v hv hok => ?_, by omega⟩
      have hle : (vs.take i).countP charge ≤ (vs.take i).countP (fun _ => true) := by
        rw [htrue]
        exact List.countP_le_length
      rw [hindex i v hv] at hle ⊢
      rcases hlate i v hv hok with hi | hi <;> omega

end ZkStellar.Metered

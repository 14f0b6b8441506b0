import Mathlib.Data.Option.Basic

set_option autoImplicit false

/-! # Places where code can trap

A model that says `none` for every trap does not say where the trap was. Here a piece of code that
traps does so at a place (`orPanic`). Forgetting the places gives the plain model back
(`toOption_orPanic`, `toOption_bind`), and the rules for `Avoids` show place by place that those of
some kind are never reached. -/

namespace ZkStellar

section

variable {π α β : Type}

/-- Code that traps at a place when there is no value. -/
def orPanic (site : π) : Option α → Except π α
  | some a => .ok a
  | none => .error site

/-- No place of this kind is reached. -/
def Avoids (P : π → Prop) (x : Except π α) : Prop := ∀ site, x = .error site → ¬ P site

variable {P : π → Prop} {site : π} {a : α} {x : Except π α} {f : α → Except π β}

/-! ## Forgetting the places -/

@[simp] theorem toOption_orPanic (o : Option α) : (orPanic site o).toOption = o := by
  cases o <;> rfl

@[simp] theorem toOption_ok : (Except.ok a : Except π α).toOption = some a := rfl

@[simp] theorem toOption_error : (Except.error site : Except π α).toOption = none := rfl

theorem toOption_bind (x : Except π α) (f : α → Except π β) :
    (x >>= f).toOption = x.toOption.bind fun a => (f a).toOption := by
  cases x <;> rfl

theorem toOption_foldlM (f : α → β → Except π α) (a : α) (l : List β) :
    (l.foldlM f a).toOption = l.foldlM (fun a b => (f a b).toOption) a := by
  induction l generalizing a with
  | nil => rfl
  | cons b l ih =>
      simp only [List.foldlM_cons, toOption_bind, ih]
      rfl

theorem toOption_eq_some_iff : x.toOption = some a ↔ x = .ok a := by
  cases x <;> simp

/-! ## Avoiding places -/

theorem avoids_ok : Avoids P (.ok a : Except π α) := by
  intro site hsite
  cases hsite

theorem avoids_error (hsite : ¬ P site) : Avoids P (.error site : Except π α) := by
  intro site' hsite'
  cases hsite'
  exact hsite

/-- A place of another kind may be reached. -/
theorem avoids_orPanic (hsite : ¬ P site) (o : Option α) : Avoids P (orPanic site o) := by
  cases o with
  | none => exact avoids_error hsite
  | some a => exact avoids_ok

/-- Nothing is reached where there is a value. -/
theorem avoids_orPanic_of_eq_some {o : Option α} (ho : o = some a) : Avoids P (orPanic site o) := by
  rw [ho]
  exact avoids_ok

theorem Avoids.bind (hx : Avoids P x) (hf : ∀ a, x = .ok a → Avoids P (f a)) :
    Avoids P (x >>= f) := by
  cases x with
  | error site => exact avoids_error (hx site rfl)
  | ok a => exact hf a rfl

theorem avoids_foldlM {f : α → β → Except π α} {l : List β}
    (hf : ∀ b ∈ l, ∀ a, Avoids P (f a b)) (a : α) : Avoids P (l.foldlM f a) := by
  induction l generalizing a with
  | nil => exact avoids_ok
  | cons b l ih =>
      rw [List.foldlM_cons]
      exact (hf b List.mem_cons_self a).bind fun a' _ =>
        ih (fun b' hb' => hf b' (List.mem_cons_of_mem _ hb')) a'

end

end ZkStellar

import Mathlib.Algebra.BigOperators.Group.List.Basic
import Mathlib.Algebra.Group.Hom.Instances
import Mathlib.Algebra.Group.TypeTags.Hom
import Mathlib.Algebra.Module.Defs

set_option autoImplicit false

/-! # The Groth16 equation over an abstract pairing

A verifying key and a proof are group elements; a proof is accepted for a list of scalars when one
equation between pairings holds. Verifiers check it as "a product of four pairings is one", with
three of the first arguments negated; `pairingProduct_eq_one_iff` says that the two are the same
for every bilinear pairing. -/

namespace ZkStellar.Groth16

variable {R G₁ G₂ GT : Type*}

/-- A verifying key as group elements. -/
structure Key (G₁ G₂ : Type*) where
  alpha : G₁
  beta : G₂
  gamma : G₂
  delta : G₂
  ic : List G₁

/-- A proof as group elements. -/
structure Proof (G₁ G₂ : Type*) where
  a : G₁
  b : G₂
  c : G₁

section Pairing

variable [AddCommGroup G₁] [AddCommGroup G₂] [CommGroup GT]

/-- A bilinear pairing, its values written multiplicatively. -/
abbrev Pairing (G₁ G₂ GT : Type*) [AddCommGroup G₁] [AddCommGroup G₂] [CommGroup GT] :=
  G₁ →+ G₂ →+ Additive GT

/-- `e(p, q)`. -/
def Pairing.apply (e : Pairing G₁ G₂ GT) (p : G₁) (q : G₂) : GT := (e p q).toMul

@[simp] theorem Pairing.apply_neg (e : Pairing G₁ G₂ GT) (p : G₁) (q : G₂) :
    Pairing.apply e (-p) q = (Pairing.apply e p q)⁻¹ := by
  simp [Pairing.apply]

/-- The product of the pairings of corresponding entries. -/
def pairingProduct (e : Pairing G₁ G₂ GT) (ps : List G₁) (qs : List G₂) : GT :=
  (List.zipWith (Pairing.apply e) ps qs).prod

variable [Ring R] [Module R G₁]

/-- `ic₀ + Σ xᵢ • icᵢ₊₁`, the key's commitment to the public inputs. -/
def inputCommitment (ic₀ : G₁) (ics : List G₁) (xs : List R) : G₁ :=
  ic₀ + (List.zipWith (fun x p => x • p) xs ics).sum

/-- The Groth16 equation `e(A, B) = e(α, β) · e(IC(x), γ) · e(C, δ)`, with as many scalars as the
    key has input points. -/
def Accepts (e : Pairing G₁ G₂ GT) (vk : Key G₁ G₂) (π : Proof G₁ G₂) (xs : List R) : Prop :=
  ∃ ic₀ ics, vk.ic = ic₀ :: ics ∧ xs.length = ics.length ∧
    Pairing.apply e π.a π.b
      = Pairing.apply e vk.alpha vk.beta * Pairing.apply e (inputCommitment ic₀ ics xs) vk.gamma
        * Pairing.apply e π.c vk.delta

/-- With the key's input points at hand the equation is a single one. -/
theorem accepts_iff_of_ic {e : Pairing G₁ G₂ GT} {vk : Key G₁ G₂} {π : Proof G₁ G₂} {xs : List R}
    {ic₀ : G₁} {ics : List G₁} (hic : vk.ic = ic₀ :: ics) (hlen : xs.length = ics.length) :
    Accepts e vk π xs ↔ Pairing.apply e π.a π.b
      = Pairing.apply e vk.alpha vk.beta * Pairing.apply e (inputCommitment ic₀ ics xs) vk.gamma
        * Pairing.apply e π.c vk.delta := by
  constructor
  · rintro ⟨p, ps, hcons, -, heq⟩
    rw [hic] at hcons
    cases hcons
    exact heq
  · intro heq
    exact ⟨ic₀, ics, hic, hlen, heq⟩

omit [Ring R] [Module R G₁] in
/-- The product form of the equation, for any point `x` in the place of the input commitment. -/
theorem pairingProduct_eq_one_iff (e : Pairing G₁ G₂ GT) (a α x c : G₁) (b β γ δ : G₂) :
    pairingProduct e [a, -α, -x, -c] [b, β, γ, δ] = 1 ↔
      Pairing.apply e a b
        = Pairing.apply e α β * Pairing.apply e x γ * Pairing.apply e c δ := by
  simp only [pairingProduct, List.zipWith_cons_cons, List.zipWith_nil_left, List.prod_cons,
    List.prod_nil, Pairing.apply_neg, mul_one]
  rw [← mul_inv, ← mul_inv, ← mul_assoc, mul_inv_eq_one]

end Pairing

end ZkStellar.Groth16

import ZkStellar.Circuits.Field
import ZkStellar.Lib.Circom
import Mathlib.Data.Fin.VecNotation

set_option autoImplicit false

/-! # `circuits/threshold_2of3`

The template `Threshold2of3` as the constraints it puts on its signals. The activation flags are
boolean, so their sum is at most 3 and the comparator's bit test is the comparison; a member whose
flag is set has opened its commitment. -/

namespace ZkStellar.Threshold2of3

open Circom Circuits

/-- The keys, the message and the commitments of the three members. -/
structure Inputs where
  key : Fin 3 → Fr
  messageHash : Fr
  commitment : Fin 3 → Fr

/-- The remaining signals of `Threshold2of3`. -/
structure Signals where
  active : Fin 3 → Fr
  mhSquared : Fr
  atLeastTwoBits : Fin 4 → Fr
  atLeastTwoOut : Fr
  hashOut : Fin 3 → Fr

/-- The constraints of `Threshold2of3`; `poseidon` is what `Poseidon(1)` computes. -/
structure Satisfies (poseidon : Fr → Fr) (x : Inputs) (w : Signals) : Prop where
  mhSquared : w.mhSquared = x.messageHash * x.messageHash
  active : ∀ i, w.active i * (w.active i - 1) = 0
  atLeastTwo : GreaterEqThan 3 (w.active 0 + w.active 1 + w.active 2) 2 w.atLeastTwoBits
    w.atLeastTwoOut
  atLeastTwo_out : w.atLeastTwoOut = 1
  hash : ∀ i, w.hashOut i = poseidon (x.key i)
  opened : ∀ i, w.active i * (w.hashOut i - x.commitment i) = 0

/-- Member `i` opens its commitment with its key. -/
def Opens (poseidon : Fr → Fr) (x : Inputs) (i : Fin 3) : Prop :=
  poseidon (x.key i) = x.commitment i

/-- The comparator accepts three flags exactly when two of them are set. -/
theorem atLeastTwo_iff (c : Fin 3 → Bool) :
    (∃ bits, GreaterEqThan 3 (signal (c 0) + signal (c 1) + signal (c 2) : Fr) 2 bits 1) ↔
      ∃ i j, i ≠ j ∧ c i = true ∧ c j = true := by
  rw [show (∃ bits, GreaterEqThan 3 (signal (c 0) + signal (c 1) + signal (c 2) : Fr) 2 bits 1) ↔ _
    from lessThan_iff (by decide)]
  revert c
  decide +kernel

variable {poseidon : Fr → Fr} {x : Inputs}

theorem opens_of_active {w : Signals} (hw : Satisfies poseidon x w) {i : Fin 3}
    (hi : w.active i ≠ 0) : Opens poseidon x i := by
  rcases mul_eq_zero.1 (hw.opened i) with hzero | hopen
  · exact absurd hzero hi
  · rw [hw.hash, sub_eq_zero] at hopen
    exact hopen

/-- The assignment that activates two members. -/
theorem exists_satisfies {i j : Fin 3} (hij : i ≠ j) (hi : Opens poseidon x i)
    (hj : Opens poseidon x j) : ∃ w, Satisfies poseidon x w := by
  let c : Fin 3 → Bool := fun k => decide (k = i ∨ k = j)
  obtain ⟨bits, hbits⟩ := (atLeastTwo_iff c).2 ⟨i, j, hij, by simp [c], by simp [c]⟩
  have hopens : ∀ k, c k = true → Opens poseidon x k := by
    intro k hk
    rcases of_decide_eq_true hk with rfl | rfl
    · exact hi
    · exact hj
  refine ⟨⟨fun k => signal (c k), x.messageHash * x.messageHash, bits, 1,
    fun k => poseidon (x.key k)⟩, rfl, fun k => signal_boolean _, hbits, rfl, fun k => rfl, ?_⟩
  intro k
  cases hk : c k with
  | false => simp [hk]
  | true =>
      have hopen : poseidon (x.key k) = x.commitment k := hopens k hk
      simp [hopen]

/-- **A quorum, exactly.** The constraints can be satisfied for given keys, message and commitments
    if and only if two members open their commitments, and whoever is active in a satisfying
    assignment does. -/
theorem quorum_iff (poseidon : Fr → Fr) (x : Inputs) :
    ((∃ w, Satisfies poseidon x w) ↔
        ∃ i j, i ≠ j ∧ Opens poseidon x i ∧ Opens poseidon x j) ∧
      ∀ w, Satisfies poseidon x w → ∀ i, w.active i ≠ 0 → Opens poseidon x i := by
  refine ⟨⟨?_, ?_⟩, fun w hw i => opens_of_active hw⟩
  · rintro ⟨w, hw⟩
    choose c hc using fun i => exists_signal (hw.active i)
    have hge := hw.atLeastTwo
    rw [hw.atLeastTwo_out, hc 0, hc 1, hc 2] at hge
    obtain ⟨i, j, hij, hi, hj⟩ := (atLeastTwo_iff c).1 ⟨_, hge⟩
    have hactive : ∀ i, c i = true → w.active i ≠ 0 := by
      intro i hi
      rw [hc, hi]
      exact one_ne_zero
    exact ⟨i, j, hij, opens_of_active hw (hactive i hi), opens_of_active hw (hactive j hj)⟩
  · rintro ⟨i, j, hij, hi, hj⟩
    exact exists_satisfies hij hi hj

/-- The commitments of the circuit's fixture: those of the keys 111 and 222, and a third one. -/
def fixture : Inputs where
  key := ![111, 222, 0]
  messageHash := 12345
  commitment := ![
    13377623690824916797327209540443066247715962236839283896963055328700043345550,
    3370092681714607727019534888747304108045661953819543369463810453568040251648,
    19430878135540641438890585969007029177622584902384053006985767702837167003933]

/-- Members 0 and 1 open their commitments, so the fixture can be satisfied. -/
theorem quorum_fixture :
    ∃ w, Satisfies (fun k => if k = 111 then fixture.commitment 0 else fixture.commitment 1)
      fixture w :=
  (quorum_iff _ fixture).1.2 ⟨0, 1, by decide, by unfold Opens; decide +kernel,
    by unfold Opens; decide +kernel⟩

end ZkStellar.Threshold2of3

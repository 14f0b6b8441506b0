import ZkStellar.Registry.Contract

set_option autoImplicit false

/-! # `run_verification` decides the Groth16 equation

The index loop of `run_verification` is the key's input commitment, its `unwrap`s never fail once
the arity check has passed, and the verdict on parsable bytes is the Groth16 equation over the
public inputs read as scalars (`runVerification_eq_some_iff`). -/

namespace ZkStellar.Registry

variable {Address : Type} {h : Host}

/-- The scalars a list of public inputs denotes. -/
def statement (publicInputs : List (BytesN 32)) : List Fr := publicInputs.map Fr.fromBytes

/-! ## The accumulation loop -/

/-- A loop over the indices of `xs` whose body reads `xs[i]` and `ys[i]` is a fold over the
    pairs. -/
theorem foldlM_range_eq_foldl_zip {α β γ : Type} {xs : List α} {ys : List β}
    (hlen : xs.length ≤ ys.length) {body : γ → ℕ → Option γ} {f : γ → α → β → γ}
    (hbody : ∀ c i x y, xs[i]? = some x → ys[i]? = some y → body c i = some (f c x y)) (c : γ) :
    (List.range xs.length).foldlM body c
      = some ((xs.zip ys).foldl (fun c p => f c p.1 p.2) c) := by
  -- generalized to the first `k` indices
  have key : ∀ k ≤ xs.length, (List.range k).foldlM body c
      = some (((xs.zip ys).take k).foldl (fun c p => f c p.1 p.2) c) := by
    intro k hk
    induction k with
    | zero => rfl
    | succ k ih =>
        have hx : k < xs.length := by omega
        have hy : k < ys.length := by omega
        have hz : k < (xs.zip ys).length := by simp; omega
        rw [List.range_succ, List.foldlM_append, ih (by omega)]
        simp only [Option.bind_eq_bind, Option.bind_some, List.foldlM_cons, List.foldlM_nil]
        rw [hbody _ k xs[k] ys[k] (List.getElem?_eq_getElem hx) (List.getElem?_eq_getElem hy),
          List.take_add_one, List.getElem?_eq_getElem hz]
        simp [List.foldl_append]
  have h := key xs.length le_rfl
  rwa [List.take_of_length_le (by simp)] at h

/-- Folding points into a sum: valid exactly when every summand is. -/
theorem foldl_add_eq (l : List h.G1Affine) (p : h.G1Affine) :
    l.foldl Host.G1Affine.add p
      = p.bind fun x => (Host.decodeAll l).map fun xs => x + xs.sum := by
  induction l generalizing p with
  | nil => cases p <;> simp [Host.decodeAll]
  | cons q l ih =>
      rw [List.foldl_cons, ih]
      cases p with
      | none => rfl
      | some x =>
          cases q with
          | none => rfl
          | some y =>
              cases hl : Host.decodeAll l <;>
                simp [Host.G1Affine.add, Host.decodeAll, hl, add_assoc]

/-- Scaling decoded points decodes to the scaled points. -/
theorem decodeAll_map_mul (xs : List (BytesN 32)) (ics : List (BytesN 64))
    (hlen : xs.length = ics.length) :
    Host.decodeAll ((xs.zip ics).map fun p =>
        Host.G1Affine.mul (h.g1Point p.2) (Fr.fromBytes p.1))
      = (Host.decodeAll (ics.map h.g1Point)).map
          (List.zipWith (fun x p => x • p) (statement xs)) := by
  induction xs generalizing ics with
  | nil =>
      cases ics with
      | nil => rfl
      | cons q ics => cases hlen
  | cons x xs ih =>
      cases ics with
      | nil => cases hlen
      | cons q ics =>
          have hrest := ih ics (by simpa using hlen)
          cases hq : h.g1Point q with
          | none => simp [Host.decodeAll, Host.G1Affine.mul, hq]
          | some y =>
              simp only [List.zip_cons_cons, List.map_cons, Host.G1Affine.mul, hq, Option.map_some,
                Host.decodeAll, statement] at hrest ⊢
              rw [hrest]
              cases Host.decodeAll (ics.map h.g1Point) <;> simp

/-- With one key point more than inputs, the loop runs through, and its value is the input
    commitment, provided the key's points are valid. -/
theorem accumulateInputs_eq (ic₀ : BytesN 64) (ics : List (BytesN 64)) (xs : List (BytesN 32))
    (hlen : xs.length = ics.length) :
    accumulateInputs h (ic₀ :: ics) xs (h.g1Point ic₀)
      = some ((h.g1Point ic₀).bind fun p => (Host.decodeAll (ics.map h.g1Point)).map fun ps =>
          Groth16.inputCommitment p ps (statement xs)) := by
  unfold accumulateInputs
  rw [foldlM_range_eq_foldl_zip (f := fun vkX input point =>
      Host.G1Affine.add vkX (Host.G1Affine.mul (h.g1Point point) (Fr.fromBytes input))) hlen.le
    (fun vkX i x y hx hy => by simp only [List.getElem?_cons_succ, hx, hy])]
  rw [← List.foldl_map (f := fun p : BytesN 32 × BytesN 64 =>
      Host.G1Affine.mul (h.g1Point p.2) (Fr.fromBytes p.1)) (g := Host.G1Affine.add),
    foldl_add_eq, decodeAll_map_mul xs ics hlen]
  simp only [Option.map_map]
  rfl

/-! ## The verdict -/

section Verdict

variable {s : State Address} {id : UInt32} {proofA proofB proofC : Bytes}
  {publicInputs : List (BytesN 32)}

theorem runVerification_of_circuit_none (hid : s.circuit id = none) :
    runVerification h s id proofA proofB proofC publicInputs = some false := by
  simp only [runVerification, hid]

theorem runVerification_of_length_ne {vk : VerifyingKey} (hid : s.circuit id = some vk)
    (hlen : publicInputs.length + 1 ≠ vk.ic.length) :
    runVerification h s id proofA proofB proofC publicInputs = some false := by
  simp only [runVerification, hid, if_pos hlen]

/-- On a stored key of the right arity the call ends with a verdict exactly when the host can parse
    the proof and the key, and then the verdict is the Groth16 equation. -/
theorem runVerification_eq_some_iff {vk : VerifyingKey} (hid : s.circuit id = some vk)
    (hlen : publicInputs.length + 1 = vk.ic.length) {v : Bool} :
    runVerification h s id proofA proofB proofC publicInputs = some v ↔
      ∃ π K, proofPoints h proofA proofB proofC = some π ∧ vk.points h = some K ∧
        (v = true ↔ Groth16.Accepts h.pairing K π (statement publicInputs)) := by
  obtain ⟨alpha, beta, gamma, delta, ic⟩ := vk
  cases ic with
  | nil => cases hlen
  | cons ic₀ ics =>
    have hxs : publicInputs.length = ics.length := by simpa using hlen
    simp only [runVerification, hid, ne_eq, hlen, not_true, if_false, List.getElem?_cons_zero]
    -- as many scalars as decoded key points behind the first
    have hscalars : ∀ {ps}, Host.decodeAll (ics.map h.g1Point) = some ps →
        (statement publicInputs).length = ps.length := by
      intro ps hdec
      have hps := Host.length_of_decodeAll hdec
      rw [List.length_map] at hps
      rw [statement, List.length_map, hxs, hps]
    constructor
    · intro hrun
      split at hrun
      · next a b c _ ha hb hc hic =>
          cases hic
          rw [accumulateInputs_eq ic₀ ics publicInputs hxs] at hrun
          obtain ⟨a', α', x', c', b', β', γ', δ', rfl, hα, hx, rfl, rfl, hβ, hγ, hδ, hv⟩ :=
            h.pairingCheck_eq_some_iff.1 hrun
          obtain ⟨p, hp, hps⟩ := Option.bind_eq_some_iff.1 hx
          obtain ⟨ps, hdec, rfl⟩ := Option.map_eq_some_iff.1 hps
          have hic := Host.decodeAll_cons_eq_some.2 ⟨p, ps, hp, hdec, rfl⟩
          refine ⟨⟨a', b', c'⟩, ⟨α', β', γ', δ', p :: ps⟩, proofPoints_eq_some.2 ⟨ha, hb, hc⟩,
            VerifyingKey.points_of_eq hα hβ hγ hδ hic, ?_⟩
          rw [hv, Groth16.accepts_iff_of_ic rfl (hscalars hdec)]
      · cases hrun
    · rintro ⟨π, K, hπ, hK, hv⟩
      obtain ⟨ha, hb, hc⟩ := proofPoints_eq_some.1 hπ
      obtain ⟨hα, hβ, hγ, hδ, hic⟩ := VerifyingKey.points_eq_some hK
      obtain ⟨p, ps, hp, hdec, hKic⟩ := Host.decodeAll_cons_eq_some.1 hic
      simp only [ha, hb, hc]
      rw [accumulateInputs_eq ic₀ ics publicInputs hxs]
      refine h.pairingCheck_eq_some_iff.2 ⟨π.a, K.alpha, Groth16.inputCommitment p ps
        (statement publicInputs), π.c, π.b, K.beta, K.gamma, K.delta, rfl, hα, by simp [hp, hdec],
        rfl, rfl, hβ, hγ, hδ, ?_⟩
      rw [hv, Groth16.accepts_iff_of_ic hKic (hscalars hdec)]

/-- The host can parse what `run_verification` would hand it: nothing if the id has no key or the
    input count is off, else the three proof points and the key's points. -/
def Parses (h : Host) (s : State Address) (id : UInt32) (proofA proofB proofC : Bytes)
    (publicInputs : List (BytesN 32)) : Prop :=
  ∀ vk, s.circuit id = some vk → publicInputs.length + 1 = vk.ic.length →
    proofPoints h proofA proofB proofC ≠ none ∧ vk.points h ≠ none

theorem runVerification_ne_none_iff :
    runVerification h s id proofA proofB proofC publicInputs ≠ none ↔
      Parses h s id proofA proofB proofC publicInputs := by
  constructor
  · intro hrun vk hid hlen
    obtain ⟨v, hv⟩ := Option.ne_none_iff_exists'.1 hrun
    obtain ⟨π, K, hπ, hK, -⟩ := (runVerification_eq_some_iff hid hlen).1 hv
    simp [hπ, hK]
  · intro hparse
    cases hid : s.circuit id with
    | none => simp [runVerification_of_circuit_none hid]
    | some vk =>
        by_cases hlen : publicInputs.length + 1 = vk.ic.length
        · obtain ⟨hπ, hK⟩ := hparse vk hid hlen
          obtain ⟨π, hπ⟩ := Option.ne_none_iff_exists'.1 hπ
          obtain ⟨K, hK⟩ := Option.ne_none_iff_exists'.1 hK
          classical
          have hrun := (runVerification_eq_some_iff (h := h) hid hlen
            (v := decide (Groth16.Accepts h.pairing K π (statement publicInputs)))).2
            ⟨π, K, hπ, hK, by simp⟩
          simp [hrun]
        · simp [runVerification_of_length_ne hid hlen]

/-- A proof is accepted only if the id has a key of the right arity, the bytes parse, and the
    equation holds. -/
theorem runVerification_eq_true (hrun :
    runVerification h s id proofA proofB proofC publicInputs = some true) :
    ∃ vk π K, s.circuit id = some vk ∧ proofPoints h proofA proofB proofC = some π ∧
      vk.points h = some K ∧ Groth16.Accepts h.pairing K π (statement publicInputs) := by
  cases hid : s.circuit id with
  | none => simp [runVerification_of_circuit_none hid] at hrun
  | some vk =>
      by_cases hlen : publicInputs.length + 1 = vk.ic.length
      · obtain ⟨π, K, hπ, hK, hv⟩ := (runVerification_eq_some_iff hid hlen).1 hrun
        exact ⟨vk, π, K, rfl, hπ, hK, hv.1 rfl⟩
      · simp [runVerification_of_length_ne hid hlen] at hrun

end Verdict

end ZkStellar.Registry

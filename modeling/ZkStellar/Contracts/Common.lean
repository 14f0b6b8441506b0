import ZkStellar.Soroban.Host

set_option autoImplicit false

/-! # What the two contracts have in common

`contracts/registry` and `contracts/verifier` are separate crates that repeat a few definitions word
for word: the verifying key, the proof parsers, the input hash, and the last step, one pairing check
over four pairs of points. They are given once here. -/

namespace ZkStellar

/-- `VerifyingKey`: raw curve points, unchecked when they are stored. -/
structure VerifyingKey where
  alpha : BytesN 64
  beta : BytesN 128
  gamma : BytesN 128
  delta : BytesN 128
  ic : List (BytesN 64)
deriving DecidableEq

/-- `PROOF_A_LEN`, the size of a serialized G1 point. -/
abbrev proofALen : ℕ := 64

/-- `PROOF_B_LEN`, the size of a serialized G2 point. -/
abbrev proofBLen : ℕ := 128

section Parsing

variable (h : Host)

/-- `read_g1`: traps unless there are `PROOF_A_LEN` bytes. -/
def readG1 (bytes : Bytes) : Option h.G1Affine :=
  (BytesN.ofBytes? proofALen bytes).map h.g1Point

/-- `read_g2`: traps unless there are `PROOF_B_LEN` bytes. -/
def readG2 (bytes : Bytes) : Option h.G2Affine :=
  (BytesN.ofBytes? proofBLen bytes).map h.g2Point

/-- `compute_inputs_hash`: SHA-256 of the concatenated public inputs. -/
def computeInputsHash (publicInputs : List (BytesN 32)) : BytesN 32 :=
  h.sha256 (concatBytes publicInputs)

/-! ## What the host can parse -/

/-- The group elements of a stored key, if all its byte strings encode points. -/
def VerifyingKey.points (vk : VerifyingKey) : Option (Groth16.Key h.G1 h.G2) :=
  match h.g1Point vk.alpha, h.g2Point vk.beta, h.g2Point vk.gamma, h.g2Point vk.delta,
      Host.decodeAll (vk.ic.map h.g1Point) with
  | some alpha, some beta, some gamma, some delta, some ic => some ⟨alpha, beta, gamma, delta, ic⟩
  | _, _, _, _, _ => none

/-- The group elements of a submitted proof, if its byte strings have the right lengths and encode
    points. -/
def proofPoints (proofA proofB proofC : Bytes) : Option (Groth16.Proof h.G1 h.G2) :=
  match readG1 h proofA, readG2 h proofB, readG1 h proofC with
  | some (some a), some (some b), some (some c) => some ⟨a, b, c⟩
  | _, _, _ => none

variable {h}

theorem VerifyingKey.points_eq_some {vk : VerifyingKey} {K : Groth16.Key h.G1 h.G2}
    (hvk : vk.points h = some K) :
    h.g1Point vk.alpha = some K.alpha ∧ h.g2Point vk.beta = some K.beta ∧
      h.g2Point vk.gamma = some K.gamma ∧ h.g2Point vk.delta = some K.delta ∧
      Host.decodeAll (vk.ic.map h.g1Point) = some K.ic := by
  unfold VerifyingKey.points at hvk
  split at hvk
  · next ha hb hg hd hic =>
      cases hvk
      exact ⟨ha, hb, hg, hd, hic⟩
  · cases hvk

theorem VerifyingKey.points_of_eq {vk : VerifyingKey} {alpha : h.G1} {beta gamma delta : h.G2}
    {ic : List h.G1} (ha : h.g1Point vk.alpha = some alpha) (hb : h.g2Point vk.beta = some beta)
    (hg : h.g2Point vk.gamma = some gamma) (hd : h.g2Point vk.delta = some delta)
    (hic : Host.decodeAll (vk.ic.map h.g1Point) = some ic) :
    vk.points h = some ⟨alpha, beta, gamma, delta, ic⟩ := by
  simp only [VerifyingKey.points, ha, hb, hg, hd, hic]

theorem proofPoints_eq_some {proofA proofB proofC : Bytes} {π : Groth16.Proof h.G1 h.G2} :
    proofPoints h proofA proofB proofC = some π ↔
      readG1 h proofA = some (some π.a) ∧ readG2 h proofB = some (some π.b) ∧
        readG1 h proofC = some (some π.c) := by
  constructor
  · intro hp
    unfold proofPoints at hp
    split at hp
    · next ha hb hc =>
        cases hp
        exact ⟨ha, hb, hc⟩
    · cases hp
  · rintro ⟨ha, hb, hc⟩
    simp only [proofPoints, ha, hb, hc]

theorem readG1_eq_none_iff {bytes : Bytes} : readG1 h bytes = none ↔ bytes.length ≠ 64 := by
  rw [readG1, Option.map_eq_none_iff, BytesN.ofBytes?_eq_none_iff]

theorem readG2_eq_none_iff {bytes : Bytes} : readG2 h bytes = none ↔ bytes.length ≠ 128 := by
  rw [readG2, Option.map_eq_none_iff, BytesN.ofBytes?_eq_none_iff]

end Parsing

namespace Host

theorem decodeAll_cons_eq_some {α : Type} {x : Option α} {rest : List (Option α)} {l : List α} :
    decodeAll (x :: rest) = some l ↔
      ∃ a as, x = some a ∧ decodeAll rest = some as ∧ l = a :: as := by
  cases x with
  | none => simp [decodeAll]
  | some a => simp [decodeAll, eq_comm]

theorem length_of_decodeAll {α : Type} {l : List (Option α)} {l' : List α}
    (hl : decodeAll l = some l') : l.length = l'.length := by
  induction l generalizing l' with
  | nil => cases hl; rfl
  | cons x rest ih =>
      obtain ⟨a, rest', rfl, hrest, rfl⟩ := decodeAll_cons_eq_some.1 hl
      simp [ih hrest]

end Host

/-! ## The all-zero key

The all-zero encodings denote the point at infinity. A key made of them is as good as any other to
the contracts, and with it the all-zero proof verifies every statement. -/

/-- The key for so many public inputs all of whose points are infinity. -/
def VerifyingKey.zero (inputs : ℕ) : VerifyingKey where
  alpha := .ofNat 64 0
  beta := .ofNat 128 0
  gamma := .ofNat 128 0
  delta := .ofNat 128 0
  ic := List.replicate (inputs + 1) (.ofNat 64 0)

/-- The encoding of infinity in G1. -/
def zeroG1 : Bytes := toBe proofALen 0

/-- The encoding of infinity in G2. -/
def zeroG2 : Bytes := toBe proofBLen 0

end ZkStellar

import ZkStellar.Sdk.BigInt
import ZkStellar.Sdk.PoseidonUtils

set_option autoImplicit false

/-! # Identity commitments

The helpers for the circuit `identity_commitment`: a secret is hashed once for its inner and twice
for its outer commitment. -/

namespace ZkStellar.Sdk

variable (constants : PoseidonPreparedConstants)

/-- `IdentityCommitment`. -/
structure IdentityCommitment where
  inner : ℤ
  outer : ℤ
deriving DecidableEq

/-- `buildIdentityCommitment`, for a big integer. -/
def buildIdentityCommitment (secret : ℤ) : Except SorobanZkError IdentityCommitment := do
  let inner ← poseidon constants [secret]
  let outer ← poseidon constants [inner]
  return ⟨inner, outer⟩

/-- What `identityCircuitInputs` returns. -/
structure IdentityCircuitInputs where
  secret : String
  inner : String
  commitment2 : String

/-- `identityCircuitInputs`. -/
def identityCircuitInputs (secret : ℤ) : Except SorobanZkError IdentityCircuitInputs := do
  let commitment ← buildIdentityCommitment constants secret
  return ⟨toString secret, toString commitment.inner, toString commitment.outer⟩

/-- `verifyIdentityCommitment`, for big integers. -/
def verifyIdentityCommitment (inner outer : ℤ) : Except SorobanZkError Bool := do
  let hash ← poseidon constants [inner]
  return hash == outer

/-- What a function that reads big integers can throw. -/
inductive ReadException where
  | zk (e : SorobanZkError)
  | syntaxError
deriving DecidableEq

/-- `BigInt(s)`, among functions that throw other things too. -/
def readBigInt (s : String) : Except ReadException ℤ :=
  (bigIntOf s).elim (.error .syntaxError) .ok

/-- `parseIdentityPublicSignals`, for an array of strings. -/
def parseIdentityPublicSignals (publicSignals : List String) :
    Except ReadException IdentityCommitment := do
  throwIf (publicSignals.length < 2)
    (.zk (.general
      ("parseIdentityPublicSignals: expected at least 2 public signals (inner, outer), "
      ++ "got " ++ toString publicSignals.length) .invalidPublicInput))
  let inner ← readBigInt (publicSignals.getD 0 "")
  let outer ← readBigInt (publicSignals.getD 1 "")
  return ⟨inner, outer⟩

theorem buildIdentityCommitment_eq (secret : ℤ) :
    buildIdentityCommitment constants secret = .ok ⟨(poseidon1 constants secret).val,
      (poseidon1 constants (poseidon1 constants secret)).val⟩ := by
  have : NeZero bn254ScalarOrder := ⟨by decide⟩
  simp only [buildIdentityCommitment, poseidon_single, bind, Except.bind, pure, Except.pure,
    Int.cast_natCast, ZMod.natCast_zmod_val]

theorem poseidonHash_single (secret : ℤ) :
    poseidonHash constants [secret] = (poseidon1 constants secret).val := by
  rw [poseidonHash, poseidon_single]
  rfl

/-- Values with hashes that differ do not collide in the field either. -/
theorem injOn_poseidon1_of_nodup {values : List ℤ}
    (hnodup : (values.map fun z => poseidonHash constants [z]).Nodup) :
    Set.InjOn (poseidon1 constants) {x | ∃ z ∈ values, x = (z : Fr)} := by
  rintro _ ⟨z, hz, rfl⟩ _ ⟨z', hz', rfl⟩ heq
  have hhash : poseidonHash constants [z] = poseidonHash constants [z'] := by
    rw [poseidonHash_single, poseidonHash_single, heq]
  rw [List.inj_on_of_nodup_map hnodup hz hz' hhash]

/-- The check accepts exactly the hash of the inner commitment. -/
theorem verifyIdentityCommitment_eq (inner outer : ℤ) :
    verifyIdentityCommitment constants inner outer
      = .ok ((poseidon1 constants inner).val == outer) := by
  rw [verifyIdentityCommitment, poseidon_single]
  rfl

/-- Signals that were printed are parsed. -/
theorem parseIdentityPublicSignals_toString (inner outer : ℤ) (rest : List String) :
    parseIdentityPublicSignals (toString inner :: toString outer :: rest)
      = .ok ⟨inner, outer⟩ := by
  have hread : ∀ z : ℤ, readBigInt (toString z) = .ok z := by
    intro z
    rw [readBigInt, bigIntOf_toString]
    rfl
  have hcheck : decide ((toString inner :: toString outer :: rest).length < 2) = false := by simp
  simp only [parseIdentityPublicSignals, hcheck, throwIf, Bool.false_eq_true, if_false,
    List.getD_cons_zero, List.getD_cons_succ, hread, bind, Except.bind, pure, Except.pure]

end ZkStellar.Sdk

import ZkStellar.Lib.Bytes
import ZkStellar.Lib.Groth16
import Mathlib.Algebra.Group.TypeTags.Basic
import Mathlib.Algebra.Ring.Basic
import Mathlib.Data.ZMod.Basic

set_option autoImplicit false

/-! # The Soroban host, as far as the contracts use it

The contracts rest on host functions that are not part of this repository: SHA-256, BN254 group
arithmetic with the pairing check, and the lifetime of temporary storage entries. `Host` takes them
as parameters; its laws are the ones the host documents. Everything else the contracts do is
computed here from their own code. -/

namespace ZkStellar

/-- The order of the BN254 scalar field. -/
def bn254ScalarOrder : ℕ :=
  21888242871839275222246405745257275088548364400416034343698204186575808495617

/-- BN254 scalars. -/
abbrev Fr := ZMod bn254ScalarOrder

/-- `Bn254Fr::from_bytes`: a 32-byte string counts only through its value modulo the order. -/
def Fr.fromBytes (b : BytesN 32) : Fr := (b.toNat : Fr)

theorem Fr.fromBytes_inj_of_lt {x y : BytesN 32} (hx : x.toNat < bn254ScalarOrder)
    (hy : y.toNat < bn254ScalarOrder) (heq : Fr.fromBytes x = Fr.fromBytes y) : x = y := by
  have hmod := (ZMod.natCast_eq_natCast_iff' x.toNat y.toNat bn254ScalarOrder).1 heq
  rw [Nat.mod_eq_of_lt hx, Nat.mod_eq_of_lt hy] at hmod
  exact BytesN.toNat_inj.1 hmod

/-- The host functions the contracts call. -/
structure Host where
  sha256 : Bytes → BytesN 32
  G1 : Type
  G2 : Type
  GT : Type
  [groupG1 : AddCommGroup G1]
  [moduleG1 : Module Fr G1]
  [groupG2 : AddCommGroup G2]
  [groupGT : CommGroup GT]
  [decEqGT : DecidableEq GT]
  /-- The BN254 pairing. -/
  pairing : Groth16.Pairing G1 G2 GT
  /-- The point a 64-byte string encodes, if it encodes one. -/
  g1Point : BytesN 64 → Option G1
  /-- The point a 128-byte string encodes, if it encodes one. -/
  g2Point : BytesN 128 → Option G2
  /-- The live-until ledger of a temporary entry created at a ledger. -/
  freshUntil : UInt32 → UInt32
  /-- Whether `extend_ttl` may keep a temporary entry for so many ledgers more; it traps when that
      is beyond the network's maximum entry lifetime. -/
  canExtend : (ledger extendTo : UInt32) → Bool
  /-- The live-until ledger `extend_ttl` leaves behind. -/
  extendedUntil : (ledger liveUntil threshold extendTo : UInt32) → UInt32
  /-- A new entry can be read at the ledger it was created at. -/
  le_freshUntil : ∀ ledger, ledger ≤ freshUntil ledger
  /-- `extend_ttl(k, W, W)` leaves the entry readable at least through `ledger + W`. -/
  le_extendedUntil : ∀ ledger liveUntil window ledger', canExtend ledger window →
    ledger ≤ ledger' → ledger'.toNat ≤ ledger.toNat + window.toNat →
    ledger' ≤ extendedUntil ledger liveUntil window window

namespace Host

attribute [instance] groupG1 moduleG1 groupG2 groupGT decEqGT

variable (h : Host)

/-! ## Curve points in contract code

`Bn254G1Affine::from_bytes` only wraps bytes. They are decoded when a host function uses the point,
and the host traps if they encode none. Contract code therefore carries an invalid encoding along
(`none`) until the next host call on it; between `from_bytes` and the pairing check the contracts
do nothing else that could be observed. -/

/-- A `Bn254G1Affine` value. -/
abbrev G1Affine := Option h.G1

/-- A `Bn254G2Affine` value. -/
abbrev G2Affine := Option h.G2

variable {h} in
/-- `-p`. -/
def G1Affine.neg (p : h.G1Affine) : h.G1Affine := Option.map (fun x => -x) p

variable {h} in
/-- `p + q`. -/
def G1Affine.add (p q : h.G1Affine) : h.G1Affine :=
  Option.bind p fun x => Option.map (fun y => x + y) q

variable {h} in
/-- `p * x`. -/
def G1Affine.mul (p : h.G1Affine) (x : Fr) : h.G1Affine := Option.map (fun y => x • y) p

/-- All the points of a list, `none` if one of them is invalid. -/
def decodeAll {α : Type} : List (Option α) → Option (List α)
  | [] => some []
  | none :: _ => none
  | some a :: rest => (decodeAll rest).map (a :: ·)

/-- The host's pairing check: traps on an invalid point, else tells whether the product of the
    pairings is one. -/
def pairingCheck (ps : List h.G1Affine) (qs : List h.G2Affine) : Option Bool :=
  match decodeAll ps, decodeAll qs with
  | some ps, some qs => some (decide (Groth16.pairingProduct h.pairing ps qs = 1))
  | _, _ => none

/-- The check both contracts make, decided: it traps exactly on an invalid point, and on valid ones
    its verdict is the Groth16 equation. -/
theorem pairingCheck_eq_some_iff {a α x c : h.G1Affine} {b β γ δ : h.G2Affine} {v : Bool} :
    h.pairingCheck [a, α.neg, x.neg, c.neg] [b, β, γ, δ] = some v ↔
      ∃ a' α' x' c' b' β' γ' δ', a = some a' ∧ α = some α' ∧ x = some x' ∧ c = some c' ∧
        b = some b' ∧ β = some β' ∧ γ = some γ' ∧ δ = some δ' ∧
        (v = true ↔ Groth16.Pairing.apply h.pairing a' b'
          = Groth16.Pairing.apply h.pairing α' β' * Groth16.Pairing.apply h.pairing x' γ'
            * Groth16.Pairing.apply h.pairing c' δ') := by
  constructor
  · intro hcheck
    cases a <;> cases α <;> cases x <;> cases c <;> cases b <;> cases β <;> cases γ <;> cases δ <;>
      simp only [pairingCheck, decodeAll, G1Affine.neg, Option.map_some, Option.map_none,
        reduceCtorEq, Option.some.injEq] at hcheck
    refine ⟨_, _, _, _, _, _, _, _, rfl, rfl, rfl, rfl, rfl, rfl, rfl, rfl, ?_⟩
    rw [← hcheck, decide_eq_true_iff]
    exact Groth16.pairingProduct_eq_one_iff ..
  · rintro ⟨a', α', x', c', b', β', γ', δ', rfl, rfl, rfl, rfl, rfl, rfl, rfl, rfl, hv⟩
    simp only [pairingCheck, decodeAll, G1Affine.neg, Option.map_some, Option.some.injEq]
    rw [Bool.eq_iff_iff, decide_eq_true_iff, hv]
    exact Groth16.pairingProduct_eq_one_iff ..

/-! ## SHA-256

No finite hash is injective; what the contracts need is that the messages hashed in one history do
not collide. -/

/-- The hash separates the messages of a list. -/
def CollisionFree (messages : List Bytes) : Prop :=
  ∀ m ∈ messages, ∀ m' ∈ messages, h.sha256 m = h.sha256 m' → m = m'

instance (messages : List Bytes) : Decidable (h.CollisionFree messages) :=
  inferInstanceAs (Decidable (∀ m ∈ messages, ∀ m' ∈ messages, _ → _))

/-! ## A concrete host

The scalar field as its own group, with multiplication as the pairing. It agrees with BN254 on the
all-zero encodings, which denote the point at infinity. -/

/-- A stand-in for SHA-256: the message as a number with a leading one, modulo a 256-bit prime. -/
def residueHash (message : Bytes) : BytesN 32 :=
  BytesN.ofNat 32 (beNat (1 :: message) % (2 ^ 256 - 189))

/-- The scalar a byte string encodes in its first 32 bytes, the others being zero. -/
def scalarPoint {n : ℕ} (b : BytesN n) : Option Fr :=
  if beNat (b.bytes.drop 32) = 0 then some (beNat (b.bytes.take 32) : Fr) else none

/-- Multiplication of scalars as a pairing. -/
def scalarPairing : Groth16.Pairing Fr Fr (Multiplicative Fr) where
  toFun a :=
    { toFun := fun b => Additive.ofMul (Multiplicative.ofAdd (a * b))
      map_zero' := by simp
      map_add' := fun x y => by simp [mul_add] }
  map_zero' := by ext; simp
  map_add' a b := by ext; simp [add_mul]

/-- The maximum lifetime of an entry on the public network, in ledgers. -/
def maxEntryTtl : ℕ := 3110400

/-- `ledger + n`, or the last ledger if that is beyond it. -/
def saturatingLedger (ledger : UInt32) (n : ℕ) : UInt32 :=
  UInt32.ofNat (min (ledger.toNat + n) (2 ^ 32 - 1))

theorem toNat_saturatingLedger (ledger : UInt32) (n : ℕ) :
    (saturatingLedger ledger n).toNat = min (ledger.toNat + n) (2 ^ 32 - 1) := by
  rw [saturatingLedger, UInt32.toNat_ofNat']
  exact Nat.mod_eq_of_lt (by omega)

/-- The scalar host. -/
def scalar : Host where
  sha256 := residueHash
  G1 := Fr
  G2 := Fr
  GT := Multiplicative Fr
  decEqGT := inferInstanceAs (DecidableEq Fr)
  pairing := scalarPairing
  g1Point := scalarPoint
  g2Point := scalarPoint
  freshUntil ledger := saturatingLedger ledger 15
  canExtend _ extendTo := decide (extendTo.toNat < maxEntryTtl)
  extendedUntil ledger liveUntil threshold extendTo :=
    if liveUntil < saturatingLedger ledger extendTo.toNat ∧
        liveUntil.toNat - ledger.toNat ≤ threshold.toNat
    then saturatingLedger ledger extendTo.toNat else liveUntil
  le_freshUntil ledger := by
    rw [UInt32.le_iff_toNat_le, toNat_saturatingLedger]
    have := ledger.toNat_lt
    omega
  le_extendedUntil ledger liveUntil window ledger' _ hle hcover := by
    have hlt := ledger'.toNat_lt
    have hsat := toNat_saturatingLedger ledger window.toNat
    rw [UInt32.le_iff_toNat_le] at hle ⊢
    split
    · omega
    · next hkeep =>
        rw [UInt32.lt_iff_toNat_lt] at hkeep
        omega

end Host

end ZkStellar

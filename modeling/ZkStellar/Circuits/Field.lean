import ZkStellar.Lib.Primality
import ZkStellar.Soroban.Host
import Mathlib.Tactic.NormNum.Prime

set_option autoImplicit false

/-! # The field of the circuits

The circuits are constraint systems over the BN254 scalars. That these form a field rests on the
order being prime, which is certified factor by factor. -/

namespace ZkStellar.Circuits

theorem prime_12048837557 : Nat.Prime 12048837557 :=
  prime_of_certifies 2 [2, 2, 7, 7, 661, 93001]
    (by simp only [List.forall_mem_cons]; norm_num) (by decide +kernel)

theorem prime_5156902474397 : Nat.Prime 5156902474397 :=
  prime_of_certifies 2 [2, 2, 107, 12048837557]
    (by simp only [List.forall_mem_cons, prime_12048837557]; norm_num) (by decide +kernel)

theorem prime_1670836401704629 : Nat.Prime 1670836401704629 :=
  prime_of_certifies 2 [2, 2, 3, 3, 3, 3, 5156902474397]
    (by simp only [List.forall_mem_cons, prime_5156902474397]; norm_num) (by decide +kernel)

theorem prime_639533339 : Nat.Prime 639533339 :=
  prime_of_certifies 2 [2, 229, 853, 1637]
    (by simp only [List.forall_mem_cons]; norm_num) (by decide +kernel)

theorem prime_65865678001877903 : Nat.Prime 65865678001877903 :=
  prime_of_certifies 5 [2, 83, 379, 1637, 639533339]
    (by simp only [List.forall_mem_cons, prime_639533339]; norm_num) (by decide +kernel)

theorem prime_13818364434197438864469338081 : Nat.Prime 13818364434197438864469338081 :=
  prime_of_certifies 3 [2, 2, 2, 2, 2, 5, 823, 1593227, 65865678001877903]
    (by simp only [List.forall_mem_cons, prime_65865678001877903]; norm_num) (by decide +kernel)

theorem prime_405928799 : Nat.Prime 405928799 :=
  prime_of_certifies 22 [2, 11, 3691, 4999]
    (by simp only [List.forall_mem_cons]; norm_num) (by decide +kernel)

theorem prime_bn254ScalarOrder : bn254ScalarOrder.Prime := by
  have hodd : ∀ q ∈ [3, 3, 13, 29, 983, 11003, 237073, 405928799, 1670836401704629,
      13818364434197438864469338081], q.Prime := by
    simp only [List.forall_mem_cons, prime_405928799, prime_1670836401704629,
      prime_13818364434197438864469338081]
    norm_num
  refine prime_of_certifies 5 (List.replicate 28 2 ++ [3, 3, 13, 29, 983, 11003, 237073, 405928799,
    1670836401704629, 13818364434197438864469338081]) ?_ (by decide +kernel)
  intro q hq
  rcases List.mem_append.1 hq with htwo | hmem
  · exact List.eq_of_mem_replicate htwo ▸ Nat.prime_two
  · exact hodd q hmem

scoped instance : Fact bn254ScalarOrder.Prime := ⟨prime_bn254ScalarOrder⟩

end ZkStellar.Circuits

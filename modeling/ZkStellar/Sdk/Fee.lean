import ZkStellar.Lib.Decimal
import ZkStellar.Sdk.Expiry
import ZkStellar.Sdk.Rpc

set_option autoImplicit false

/-! # The fee of a verification

`estimateVerifyFee` adds the base fee to the resource fee of a simulation, in stroops, and renders
the sum in XLM with `stroopsToXlm`: the whole part, and behind a point the rest, filled up to seven
digits and without the zeros it ends with. For an amount that is not negative that is the amount's
canonical decimal numeral (`stroopsToXlm_exact`). -/

namespace ZkStellar.Sdk

/-! ## The functions -/

/-- `STROOPS_PER_XLM`. -/
def stroopsPerXlm : ℤ := 10000000

/-- `stroopsToXlm`. Division and remainder of big integers round towards zero. -/
def stroopsToXlm (stroops : ℤ) : String :=
  let whole := stroops.tdiv stroopsPerXlm
  let fraction :=
    ((toString (stroops.tmod stroopsPerXlm)).toList.leftpad 7 '0').rdropWhile (· == '0')
  if 0 < fraction.length then toString whole ++ "." ++ String.ofList fraction else toString whole

example : stroopsToXlm 12445 = "0.0012445" ∧ stroopsToXlm 10000000 = "1" ∧
    stroopsToXlm (-5) = "0.00000-5" := by decide +kernel

/-- `EstimateVerifyFeeResult`. -/
structure EstimateVerifyFeeResult where
  stroops : ℤ
  xlm : String
deriving DecidableEq

/-- What a simulation answers. -/
inductive SimulationResult where
  | error (message : String)
  /-- `BigInt(minResourceFee)`, or the message it throws with. -/
  | success (minResourceFee : Except String ℤ)

/-- What the node and the library answer to one call, or the message they throw with instead. -/
structure SimulationNode where
  networkPassphrase : Except String String
  /-- The account and the transaction. -/
  buildTransaction : Except String Unit
  simulateTransaction : Except String SimulationResult

/-- `estimateVerifyFee`, with the library's `BASE_FEE`. -/
def estimateVerifyFee (baseFee : ℤ) (node : SimulationNode) (opts : VerifyOptions) :
    Except JsException EstimateVerifyFeeResult := do
  let calldata ← resolveCalldata opts
  validateCalldata calldata
  liftZk <| tryCatch do
    let networkPassphrase ← libraryCall node.networkPassphrase
    ownCall (assertBundleNetwork opts.bundle networkPassphrase)
    libraryCall node.buildTransaction
    match ← libraryCall node.simulateTransaction with
    | .error message => .error (.zk (classifyError message))
    | .success minResourceFee =>
        let minResourceFee ← libraryCall minResourceFee
        let stroops := baseFee + minResourceFee
        return ⟨stroops, stroopsToXlm stroops⟩

/-- The estimate for a resource fee of 12345 stroops. -/
example : estimateVerifyFee 100
    ⟨.ok "network", .ok (), .ok (.success (.ok 12345))⟩
    ⟨some (zeroCalldata 7), none⟩ = .ok ⟨12445, "0.0012445"⟩ := by decide +kernel

/-! ## The rendered amount -/

theorem toString_natCast (n : ℕ) : toString (n : ℤ) = String.ofList (Nat.toDigits 10 n) :=
  Nat.repr_eq_ofList_toDigits

/-- The rendering of an amount is the text of its numeral with seven places. -/
theorem stroopsToXlm_natCast (s : ℕ) :
    stroopsToXlm s = String.ofList (fixedPoint 7 s).text := by
  have hwhole : toString ((s : ℤ).tdiv stroopsPerXlm) = String.ofList (fixedPoint 7 s).whole :=
    toString_natCast (s / 10 ^ 7)
  have hrest : toString ((s : ℤ).tmod stroopsPerXlm)
      = String.ofList (Nat.toDigits 10 (s % 10 ^ 7)) := toString_natCast (s % 10 ^ 7)
  have hfraction : ((Nat.toDigits 10 (s % 10 ^ 7)).leftpad 7 '0').rdropWhile (· == '0')
      = (fixedPoint 7 s).fraction := rfl
  have hpoint : "." = String.ofList ['.'] := rfl
  simp only [stroopsToXlm, Numeral.text, hwhole, hrest, String.toList_ofList, hfraction]
  cases (fixedPoint 7 s).fraction with
  | nil => rfl
  | cons c cs =>
      simp only [List.length_cons, Nat.zero_lt_succ, if_true, List.isEmpty_cons,
        Bool.false_eq_true, if_false]
      rw [hpoint, ← String.ofList_append, ← String.ofList_append, List.append_assoc,
        List.singleton_append]

/-- **Fees are rendered exactly.** The rendering of an amount is the text of a canonical numeral
    whose value times `10 ^ 7` is the amount, so different amounts are rendered differently. -/
theorem stroopsToXlm_exact :
    (∀ s : ℕ, ∃ N : Numeral, stroopsToXlm s = String.ofList N.text ∧ N.value * 10 ^ 7 = s) ∧
      ∀ s t : ℕ, stroopsToXlm s = stroopsToXlm t → s = t := by
  constructor
  · intro s
    exact ⟨fixedPoint 7 s, stroopsToXlm_natCast s, value_fixedPoint (by decide) s⟩
  · intro s t hsame
    rw [stroopsToXlm_natCast, stroopsToXlm_natCast, String.ofList_inj] at hsame
    exact text_fixedPoint_injective (by decide) hsame

end ZkStellar.Sdk

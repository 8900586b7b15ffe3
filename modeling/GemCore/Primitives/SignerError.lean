import GemCore.Primitives.Arith

/-!
# Errors and data shared by the chain signers

The error type of the signing crates and the unspent-output record the UTXO chains load
from the network (`primitives/src/signer_error.rs`, `primitives/src/utxo.rs`).

## Main definitions

* `SignerError` — the errors a signer reports.
* `UTXO` — an unspent output as the node reports it.
-/

namespace GemCore

/-- `SignerError`: what a chain signer or planner reports. -/
inductive SignerError where
  | invalidInput (message : String)
  | signingError (message : String)
  | dustThreshold
  | insufficientFunds
  | swapValueBelowMinimum
  deriving DecidableEq

/-- `UTXO`: the transaction id and the address are still text, `vout` is an `i32` and the
value an unbounded integer. -/
structure UTXO where
  transactionId : String
  vout : Int
  value : ℕ
  address : String
  deriving DecidableEq

/-- `UTXO::value_u64`: the value, if it fits 64 bits. -/
def UTXO.valueU64 (utxo : UTXO) : Except SignerError ℕ :=
  if utxo.value < u64Size then .ok utxo.value
  else .error (.invalidInput s!"UTXO amount is too large: {utxo.value}")

end GemCore

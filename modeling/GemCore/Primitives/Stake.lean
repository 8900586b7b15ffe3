import Mathlib.Data.Nat.Notation

/-!
# Staking

What a staking transaction is about (`primitives/src/stake_type.rs`, `delegation.rs`), with the
fields that amounts and votes depend on.

## Main definitions

* `Resource` — a resource of an account, and its texts.
* `StakeType` — the kinds of staking.
-/

namespace GemCore

/-- `Resource`. -/
inductive Resource where
  | bandwidth
  | energy
  deriving DecidableEq

/-- `Resource::as_ref`. -/
def Resource.asRef : Resource → String
  | .bandwidth => "bandwidth"
  | .energy => "energy"

/-- `Resource::from_str`, which ignores the case of ASCII letters. -/
def Resource.fromStr (text : String) : Option Resource :=
  [Resource.bandwidth, Resource.energy].find? fun resource =>
    text.toList.map Char.toLower = resource.asRef.toList

/-- `DelegationValidator`. -/
structure DelegationValidator where
  id : String

/-- `DelegationBase`. -/
structure DelegationBase where
  balance : ℕ
  rewards : ℕ
  validatorId : String

/-- `Delegation`. -/
structure Delegation where
  base : DelegationBase
  validator : DelegationValidator

/-- `RedelegateData`. -/
structure RedelegateData where
  delegation : Delegation
  toValidator : DelegationValidator

/-- `StakeType`. -/
inductive StakeType where
  | stake (validator : DelegationValidator)
  | unstake (delegation : Delegation)
  | redelegate (data : RedelegateData)
  | rewards (validators : List DelegationValidator)
  | withdraw (delegation : Delegation)
  | freeze (resource : Resource)
  | unfreeze (resource : Resource)

end GemCore

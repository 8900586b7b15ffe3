import GemCore.Transfer.Amount

/-!
# The amount screen and the confirmation of a transfer

The amount a user may type for a kind of transfer (`gemstone/src/services/amount/rules.rs`), the
transfer that is made of it, and what the confirmation of this transfer takes to be available
(`gemstone/src/services/transfer/rules.rs`, `services/confirm/rules.rs`).

## Main definitions

* `GemAmountType` — what an amount is typed for.
* `GemAmountType.input`, `GemAmountType.validate` — the amount screen.
* `GemTransferData` — the transfer, and `stakeTransferData`, `earnTransferData`, which make it.
* `GemTransferData.preloadInput` — what the confirmation calculates with.
-/

namespace GemCore.Transfer

/-! ## Assets and balances -/

/-- `Asset`, with the fields the amount rules read besides those of the calculation. -/
structure GemAsset extends Asset where
  symbol : String
  decimals : ℤ

/-- `GemAssetBalance`, with the balances the rules read. -/
structure GemAssetBalance where
  available : ℕ
  frozen : ℕ
  locked : ℕ
  withdrawable : ℕ
  metadataVotes : Option UInt32

/-- `GemAssetBalance::votes`. -/
def GemAssetBalance.votes (balance : GemAssetBalance) : UInt32 := balance.metadataVotes.getD 0

/-- `Resource`. -/
inductive Resource where
  | bandwidth
  | energy

/-- `Resource::as_ref`. -/
def Resource.asRef : Resource → String
  | bandwidth => "bandwidth"
  | energy => "energy"

/-- `DelegationValidator`: its id and name. -/
structure DelegationValidator where
  id : String
  name : String

/-- `Delegation`: what is delegated and earned, and to whom. -/
structure Delegation where
  balance : ℕ
  rewards : ℕ
  validator : DelegationValidator

/-- The staking of a chain: `StakeChain::from_str` and the columns of `StakeChainConfig` that the rules
read. -/
structure StakeChainConfig where
  minAmount : ℕ
  changeAmountOnUnstake : Bool
  reservedForFees : ℕ

/-- `stake_chain` and `get_stake_config`. -/
def stakeConfig : Chain → Option StakeChainConfig
  | .ethereum => some ⟨10000000000000000, true, 5000000000000000⟩
  | .smartChain => some ⟨1000000000000000000, true, 250000000000000⟩
  | .solana => some ⟨1000000000, false, 5000000⟩
  | .cosmos => some ⟨0, true, 25000⟩
  | .osmosis => some ⟨0, true, 10000⟩
  | .tron => some ⟨1000000, true, 10000000⟩
  | .aptos => some ⟨1100000000, false, 1000000⟩
  | .sui => some ⟨1000000000, false, 100000000⟩
  | .celestia => some ⟨0, true, 100000⟩
  | .injective => some ⟨0, true, 10000000000000000⟩
  | .sei => some ⟨0, true, 100000⟩
  | .hyperCore => some ⟨1000000, true, 0⟩
  | .monad => some ⟨100000000000000000, true, 50000000000000000⟩
  | _ => none

/-! ## The amount screen -/

/-- `GemAmountStakeType`. -/
inductive GemAmountStakeType where
  | stake
  | unstake (delegation : Delegation)
  | redelegate (delegation : Delegation)
  | withdraw (delegation : Delegation)
  | rewards (delegations : List Delegation)
  | freeze (resource : Resource)
  | unfreeze (resource : Resource)

/-- `GemAmountEarnType`. -/
inductive GemAmountEarnType where
  | deposit
  | withdraw (delegation : Delegation)

/-- `GemAmountPerpetualPosition`. -/
inductive GemAmountPerpetualPosition where
  | «open»
  | increase
  | reduce (available : ℕ)

/-- `GemAmountType`. A price is given by the bits of its floating-point number. -/
inductive GemAmountType where
  | transfer
  | deposit
  | withdraw
  | stake (stakeType : GemAmountStakeType)
  | earn (earnType : GemAmountEarnType)
  | perpetual (position : GemAmountPerpetualPosition) (price : UInt64) (leverage : UInt8)
      (sizeDecimals : ℤ)

/-- Floating-point arithmetic: `PerpetualFormatter::minimum_order_usd_amount`. -/
structure PerpetualFormatter where
  minimumOrderUsdAmount : UInt64 → ℤ → UInt8 → ℕ

/-- `GemBalanceRequirement`. -/
structure GemBalanceRequirement where
  required : ℤ
  available : ℤ
  shortfall : ℤ
  deriving DecidableEq

/-- `GemBalanceRequirement::new`. -/
def GemBalanceRequirement.new (required available : ℤ) : GemBalanceRequirement :=
  ⟨required, available, max (required - available) 0⟩

/-- `GemAmountError`. -/
inductive GemAmountError where
  | zero
  | belowMinimum (minimum : ℤ)
  | insufficientBalance (requirement : GemBalanceRequirement)
  deriving DecidableEq

/-- `GemAmountInput`. -/
structure GemAmountInput where
  availableValue : ℤ
  maxValue : ℤ
  reservedFee : Option ℤ
  canChangeValue : Bool
  showsAssetBalance : Bool

/-- `tron_stake_available`: the frozen balances that have not voted yet. -/
def tronStakeAvailable (asset : GemAsset) (balance : GemAssetBalance) : ℤ :=
  max (((balance.frozen + balance.locked : ℕ) : ℤ) -
    (balance.votes.toNat * 10 ^ (max asset.decimals 0).toNat : ℕ)) 0

/-- `unfreeze_available`. -/
def unfreezeAvailable (resource : Resource) (balance : GemAssetBalance) : ℤ :=
  match resource with
  | .bandwidth => balance.frozen
  | .energy => balance.locked

/-- `MIN_DEPOSIT_AMOUNT`. -/
def minDepositAmount : ℕ := 5000000

/-- `MIN_WITHDRAW_AMOUNT`. -/
def minWithdrawAmount : ℕ := 2000000

/-- `usdc_minimum`. -/
def usdcMinimum (asset : GemAsset) (minimum : ℕ) : ℤ := if asset.symbol = "USDC" then minimum else 0

/-- `validate`. -/
def validate (value available minimum : ℤ) : Except GemAmountError Unit :=
  if value ≤ 0 then .error .zero
  else if value < minimum then .error (.belowMinimum minimum)
  else if available < value then .error (.insufficientBalance (.new value available))
  else .ok ()

namespace GemAmountType

/-- `available_value`. -/
def availableValue (amountType : GemAmountType) (asset : GemAsset) (balance : GemAssetBalance) : ℤ :=
  match amountType with
  | transfer | deposit => balance.available
  | withdraw => balance.withdrawable
  | stake stakeType =>
    match stakeType with
    | .stake =>
      if asset.chain = .tron then tronStakeAvailable asset balance else balance.available
    | .freeze _ => balance.available
    | .unstake delegation | .redelegate delegation | .withdraw delegation => delegation.balance
    | .rewards delegations => (delegations.map Delegation.rewards).sum
    | .unfreeze resource => unfreezeAvailable resource balance
  | earn earnType =>
    match earnType with
    | .deposit => balance.available
    | .withdraw delegation => delegation.balance
  | perpetual position _ _ _ =>
    match position with
    | .open | .increase => balance.available
    | .reduce available => available

section Minimum

variable (lib : PerpetualFormatter)

/-- `minimum_value`. -/
def minimumValue (amountType : GemAmountType) (asset : GemAsset) : ℤ :=
  let stakeMinimum : ℤ := ((stakeConfig asset.chain).map StakeChainConfig.minAmount).getD 0
  match amountType with
  | transfer | earn _ => 0
  | deposit => usdcMinimum asset minDepositAmount
  | withdraw => usdcMinimum asset minWithdrawAmount
  | stake stakeType =>
    match stakeType with
    | .stake | .freeze _ => stakeMinimum
    | .redelegate _ => if asset.chain = .smartChain then stakeMinimum else 0
    | .withdraw _ | .unstake _ | .unfreeze _ | .rewards _ => 0
  | perpetual _ price leverage sizeDecimals => lib.minimumOrderUsdAmount price sizeDecimals leverage

/-- `reserve_for_fee`. -/
def reserveForFee (amountType : GemAmountType) (asset : GemAsset) : ℤ :=
  let reserved : ℤ := ((stakeConfig asset.chain).map StakeChainConfig.reservedForFees).getD 0
  match amountType with
  | stake .stake => if asset.chain ≠ .tron then reserved else 0
  | stake (.freeze _) => reserved
  | _ => 0

/-- `can_change_value`. -/
def canChangeValue (amountType : GemAmountType) (asset : GemAsset) : Bool :=
  match amountType with
  | stake stakeType =>
    match stakeType with
    | .unstake _ => ((stakeConfig asset.chain).map StakeChainConfig.changeAmountOnUnstake).getD true
    | .withdraw _ | .rewards _ => false
    | .stake | .redelegate _ | .freeze _ | .unfreeze _ => true
  | _ => true

/-- `shows_asset_balance`. -/
def showsAssetBalance (amountType : GemAmountType) (asset : GemAsset) : Bool :=
  match amountType with
  | stake (.rewards _) => true
  | _ => canChangeValue amountType asset

/-- `reserves_fee`. -/
def reservesFee (amountType : GemAmountType) (reserve maxAfterFee minimum : ℤ) : Bool :=
  match amountType with
  | stake .stake | stake (.freeze _) => 0 < reserve ∧ minimum < maxAfterFee
  | _ => false

/-- `GemAmountType::input`. -/
def input (amountType : GemAmountType) (asset : GemAsset) (balance : GemAssetBalance) :
    GemAmountInput :=
  let available := amountType.availableValue asset balance
  let reserve := amountType.reserveForFee asset
  let maxAfterFee := max (available - reserve) 0
  let reserved := amountType.reservesFee reserve maxAfterFee (amountType.minimumValue lib asset)
  { availableValue := available
    maxValue := if reserved then maxAfterFee else available
    reservedFee := if reserved then some reserve else none
    canChangeValue := amountType.canChangeValue asset
    showsAssetBalance := amountType.showsAssetBalance asset }

/-- `GemAmountType::validate`. -/
def validate (amountType : GemAmountType) (asset : GemAsset) (balance : GemAssetBalance)
    (value : ℤ) : Except GemAmountError Unit :=
  Transfer.validate value (amountType.availableValue asset balance)
    (amountType.minimumValue lib asset)

end Minimum

end GemAmountType

/-! ## Transfers -/

/-- `GemRecipient`. -/
structure GemRecipient where
  address : String
  name : Option String
  memo : Option String
  references : List String

/-- `GemRecipient::address`. -/
def GemRecipient.ofAddress (address : String) : GemRecipient := ⟨address, none, none, []⟩

/-- `GemRecipient::named`. -/
def GemRecipient.named (address name : String) : GemRecipient := ⟨address, some name, none, []⟩

/-- `StakeType`, with what each kind carries. -/
inductive GemStakeType where
  | stake (validator : DelegationValidator)
  | unstake (delegation : Delegation)
  | redelegate (delegation : Delegation) (toValidator : DelegationValidator)
  | rewards (validators : List DelegationValidator)
  | withdraw (delegation : Delegation)
  | freeze (resource : Resource)
  | unfreeze (resource : Resource)

/-- The kind of a `StakeType`. -/
def GemStakeType.kind : GemStakeType → StakeType
  | stake _ => .stake
  | unstake _ => .unstake
  | redelegate _ _ => .redelegate
  | rewards _ => .rewards
  | withdraw _ => .withdraw
  | freeze _ => .freeze
  | unfreeze _ => .unfreeze

/-- `EarnType`, with what each kind carries. -/
inductive GemEarnType where
  | deposit (provider : DelegationValidator)
  | withdraw (delegation : Delegation)

/-- The kind of an `EarnType`. -/
def GemEarnType.kind : GemEarnType → EarnType
  | deposit _ => .deposit
  | withdraw _ => .withdraw

/-- `GemTransactionInputType`, with what amounts depend on. -/
inductive GemTransactionInputType where
  | transfer (asset : GemAsset)
  | deposit (asset : GemAsset)
  | swap (fromAsset toAsset : GemAsset)
  | stake (asset : GemAsset) (stakeType : GemStakeType)
  | tokenApprove (asset : GemAsset)
  | generic (asset : GemAsset)
  | transferNft (asset : GemAsset)
  | account (asset : GemAsset)
  | perpetual (asset : GemAsset)
  | earn (asset : GemAsset) (earnType : GemEarnType)
  | withdrawal (asset : GemAsset)

namespace GemTransactionInputType

/-- `GemTransactionInputType::asset`. -/
def asset : GemTransactionInputType → GemAsset
  | transfer asset | deposit asset | swap asset _ | stake asset _ | tokenApprove asset
  | generic asset | transferNft asset | account asset | perpetual asset | earn asset _
  | withdrawal asset => asset

/-- `From<GemTransactionInputType>` for `TransactionInputType`: a withdrawal is a transfer. -/
def toInputType : GemTransactionInputType → TransactionInputType
  | transfer asset => .transfer asset.toAsset
  | deposit asset => .deposit asset.toAsset
  | swap fromAsset toAsset => .swap fromAsset.toAsset toAsset.toAsset
  | stake asset stakeType => .stake asset.toAsset stakeType.kind
  | tokenApprove asset => .tokenApprove asset.toAsset
  | generic asset => .generic asset.toAsset
  | transferNft asset => .transferNft asset.toAsset
  | account asset => .account asset.toAsset
  | perpetual asset => .perpetual asset.toAsset
  | earn asset earnType => .earn asset.toAsset earnType.kind
  | withdrawal asset => .transfer asset.toAsset

end GemTransactionInputType

/-- `GemTransferData`. -/
structure GemTransferData where
  inputType : GemTransactionInputType
  recipient : GemRecipient
  value : ℤ
  useMaxAmount : Bool
  minimumValue : Option ℤ

/-- The recipient of a staking transfer. -/
def GemStakeType.recipient : GemStakeType → GemRecipient
  | stake validator => .named validator.id validator.name
  | redelegate _ toValidator => .named toValidator.id toValidator.name
  | unstake delegation | withdraw delegation =>
    .named delegation.validator.id delegation.validator.name
  | rewards [] => .ofAddress ""
  | rewards (validator :: _) => .named validator.id validator.name
  | freeze resource | unfreeze resource => .ofAddress resource.asRef

/-- The kinds of which a maximum is kept. -/
def GemStakeType.keepsMax : GemStakeType → Bool
  | stake _ | freeze _ => true
  | _ => false

/-- `stake_transfer_data`. -/
def stakeTransferData (asset : GemAsset) (stakeType : GemStakeType) (value : ℤ)
    (useMaxAmount : Bool) : GemTransferData where
  inputType := .stake asset stakeType
  recipient := stakeType.recipient
  value := value
  useMaxAmount := useMaxAmount && stakeType.keepsMax
  minimumValue := none

/-- The provider of an earning transfer. -/
def GemEarnType.provider : GemEarnType → DelegationValidator
  | deposit provider => provider
  | withdraw delegation => delegation.validator

/-- `earn_transfer_data`, with the contract of its `ContractCallData`. -/
def earnTransferData (asset : GemAsset) (earnType : GemEarnType) (contractAddress : String)
    (value : ℤ) (useMaxAmount : Bool) : GemTransferData where
  inputType := .earn asset earnType
  recipient := .named contractAddress earnType.provider.name
  value := value
  useMaxAmount := useMaxAmount
  minimumValue := none

namespace GemTransferData

/-- `GemTransferData::available_value`. -/
def availableValue (transfer : GemTransferData) (balance : GemAssetBalance) :
    Except GemAmountError ℤ :=
  let asset := transfer.inputType.asset
  .ok <|
    match transfer.inputType with
    | .withdrawal _ => balance.withdrawable
    | .stake _ stakeType =>
      match stakeType with
      | .unstake delegation | .withdraw delegation => delegation.balance
      | .redelegate delegation _ => delegation.balance
      | .rewards _ => transfer.value
      | .unfreeze resource => unfreezeAvailable resource balance
      | .stake _ =>
        if asset.chain = .tron then tronStakeAvailable asset balance else balance.available
      | .freeze _ => balance.available
    | .earn _ earnType =>
      match earnType with
      | .withdraw delegation => delegation.balance
      | .deposit _ => balance.available
    | .transfer _ | .deposit _ | .swap _ _ | .tokenApprove _ | .generic _ | .transferNft _
    | .account _ | .perpetual _ => balance.available

/-- `preload_amount`: what the confirmation calculates with. -/
def preloadInput (transfer : GemTransferData) (balance : GemAssetBalance) (feeAsset : AssetId)
    (feeAssetBalance : ℕ) (fee : ℤ) : Except GemAmountError TransferAmountInput := do
  let availableValue ← transfer.availableValue balance
  .ok
    { inputType := transfer.inputType.toInputType
      value := transfer.value
      availableValue := availableValue
      feeAsset := feeAsset
      feeAssetBalance := feeAssetBalance
      fee := fee
      isMaxAmount := transfer.useMaxAmount
      minimumValue := transfer.minimumValue }

end GemTransferData

end GemCore.Transfer

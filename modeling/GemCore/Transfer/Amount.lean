import GemCore.Lib.Result
import GemCore.Primitives.TransactionLoad
import Mathlib.Algebra.Order.Group.Int

/-!
# The amount of a transfer

`TransferAmountInput::calculate` (`primitives/src/transfer_amount.rs`) turns what the user
typed and what the network asks into the amount that is signed. Amounts are unbounded
integers.

## Main definitions

* `TransferAmountInput.calculate` — the amount, or why there is none.
* `Spendable` — the inequalities that make an amount spendable.
* `NegativeMax` — a maximum that the fee turns negative.

## Main results

* `calculate_eq_ok_iff` — which amounts are returned.
* `calculate_sound_and_complete_iff` — the returned amounts are the spendable ones, except where the
  fee exceeds what is available of a maximum.
-/

namespace GemCore.Transfer

/-! ## Inputs -/

/-- `AssetType`. -/
inductive AssetType where
  | native | erc20 | bep20 | spl | spl2022 | trc20 | tip20 | token | ibc | jetton | synth | asa
  | perpetual | spot
  deriving DecidableEq

/-- `Asset`, without its name, symbol and decimals. -/
structure Asset where
  id : AssetId
  assetType : AssetType

/-- `Asset::chain`. -/
def Asset.chain (asset : Asset) : Chain := asset.id.chain

/-- `StakeType`. -/
inductive StakeType where
  | stake | unstake | redelegate | rewards | withdraw | freeze | unfreeze

/-- `EarnType`. -/
inductive EarnType where
  | deposit | withdraw

/-- `TransactionInputType`, all of its kinds, with what amounts depend on. -/
inductive TransactionInputType where
  | transfer (asset : Asset)
  | deposit (asset : Asset)
  | swap (fromAsset toAsset : Asset)
  | stake (asset : Asset) (stakeType : StakeType)
  | tokenApprove (asset : Asset)
  | generic (asset : Asset)
  | transferNft (asset : Asset)
  | account (asset : Asset)
  | perpetual (asset : Asset)
  | earn (asset : Asset) (earnType : EarnType)

/-- `TransactionInputType::get_asset`. -/
def TransactionInputType.getAsset : TransactionInputType → Asset
  | transfer asset | deposit asset | swap asset _ | stake asset _ | tokenApprove asset
  | generic asset | transferNft asset | account asset | perpetual asset | earn asset _ => asset

/-- `TransactionInputType::spends_balance`. -/
def TransactionInputType.spendsBalance : TransactionInputType → Bool
  | transfer _ | deposit _ | swap _ _ | generic _ => true
  | stake _ stakeType =>
    match stakeType with
    | .stake | .freeze => true
    | .unstake | .unfreeze | .redelegate | .rewards | .withdraw => false
  | earn _ earnType =>
    match earnType with
    | .deposit => true
    | .withdraw => false
  | perpetual _ | tokenApprove _ | account _ | transferNft _ => false

/-- `Chain::minimum_account_balance`. -/
def minimumAccountBalance : Chain → Option ℤ
  | .solana => some 890880
  | .polkadot => some 10000000000
  | _ => none

/-- `TransferAmountInput`. -/
structure TransferAmountInput where
  inputType : TransactionInputType
  value : ℤ
  availableValue : ℤ
  feeAsset : AssetId
  feeAssetBalance : ℤ
  fee : ℤ
  isMaxAmount : Bool
  minimumValue : Option ℤ

/-- `TransferAmount`. -/
structure TransferAmount where
  value : ℤ
  networkFee : ℤ
  isMaxAmount : Bool
  deriving DecidableEq

/-- `TransferAmountError`. -/
inductive TransferAmountError where
  | insufficientBalance (assetId : AssetId) (required available : ℤ)
  | insufficientNetworkFee (assetId : AssetId) (required available : ℤ)
  | minimumAccountBalanceTooLow (assetId : AssetId) (required available : ℤ)
  deriving DecidableEq

/-! ## The calculation -/

namespace TransferAmountInput

variable (input : TransferAmountInput)

/-- The type spends the balance of the asset. -/
def spendsBalance : Bool := input.inputType.spendsBalance

/-- The fee is paid in the asset that is spent. -/
def shouldDeductFee : Bool :=
  input.spendsBalance && input.inputType.getAsset.id == input.feeAsset

/-- The amount that is tried: of a maximum, what the fee leaves. -/
def amount : ℤ :=
  if input.isMaxAmount && input.shouldDeductFee then
    min input.value (input.availableValue - input.fee)
  else input.value

/-- What is taken from the balance of the asset. -/
def required : ℤ :=
  match input.spendsBalance, input.shouldDeductFee with
  | false, _ => 0
  | true, false => input.amount
  | true, true => input.amount + input.fee

/-- HyperCore takes no network fee for what does not spend. -/
def shouldSkipFeeCheck : Bool :=
  input.inputType.getAsset.chain == .hyperCore && !input.spendsBalance

/-- The balance the account has to keep. -/
def reserve : Option ℤ :=
  match minimumAccountBalance input.inputType.getAsset.chain with
  | some minimum =>
    if input.inputType.getAsset.assetType = .native ∧ !input.isMaxAmount ∧ input.spendsBalance then
      some minimum
    else none
  | none => none

/-- The error when more is required than there is. -/
def balanceError : TransferAmountError :=
  match input.reserve with
  | some minimum =>
    if input.amount ≤ input.availableValue then
      .minimumAccountBalanceTooLow input.inputType.getAsset.id minimum
        (input.availableValue - input.required)
    else .insufficientBalance input.inputType.getAsset.id input.required input.availableValue
  | none => .insufficientBalance input.inputType.getAsset.id input.required input.availableValue

/-- `TransferAmountInput::calculate`. -/
def calculate : Except TransferAmountError TransferAmount :=
  if input.required > input.availableValue then .error input.balanceError
  else if input.feeAssetBalance < input.fee ∧ !input.shouldSkipFeeCheck then
    .error (.insufficientNetworkFee input.feeAsset input.fee input.feeAssetBalance)
  else if input.reserve.any fun minimum => input.availableValue - input.required < minimum then
    .error (.minimumAccountBalanceTooLow input.inputType.getAsset.id (input.reserve.getD 0)
      (input.availableValue - input.required))
  else if input.minimumValue.any fun minimum => input.amount < minimum then
    .error (.insufficientBalance input.inputType.getAsset.id (input.minimumValue.getD 0)
      input.amount)
  else .ok ⟨input.amount, input.fee, input.isMaxAmount⟩

end TransferAmountInput

/-! ## Spendable amounts -/

section Spendable

variable (input : TransferAmountInput)

/-- What a transfer of an amount takes from the balance of the asset. -/
def spent (value : ℤ) : ℤ :=
  if input.inputType.spendsBalance then
    value + if input.inputType.getAsset.id = input.feeAsset then input.fee else 0
  else 0

/-- **Spendable**: an amount up to the one asked for that the balances can pay, together with the
fee, and that respects the reserve of the account and the minimum of the request. -/
structure Spendable (value : ℤ) : Prop where
  nonneg : 0 ≤ value
  le_value : value ≤ input.value
  available : input.inputType.spendsBalance = true → spent input value ≤ input.availableValue
  fee : input.fee ≤ input.feeAssetBalance ∨
    input.inputType.getAsset.chain = .hyperCore ∧ input.inputType.spendsBalance = false
  reserve : input.isMaxAmount = false → input.inputType.getAsset.assetType = .native →
    input.inputType.spendsBalance = true → ∀ minimum,
      minimumAccountBalance input.inputType.getAsset.chain = some minimum →
        minimum ≤ input.availableValue - spent input value
  minimum : ∀ minimum, input.minimumValue = some minimum → minimum ≤ value

/-- No balance of the input is negative. -/
structure Nonnegative : Prop where
  value : 0 ≤ input.value
  fee : 0 ≤ input.fee
  available : 0 ≤ input.availableValue
  feeAssetBalance : 0 ≤ input.feeAssetBalance

/-- The fee of a maximum exceeds what is available, the balance for fees can pay it all the same,
and no minimum is asked for that would reject the difference. -/
def NegativeMax : Prop :=
  input.isMaxAmount = true ∧ input.inputType.spendsBalance = true ∧
    input.inputType.getAsset.id = input.feeAsset ∧ input.availableValue < input.fee ∧
    input.fee ≤ input.feeAssetBalance ∧
    ∀ minimum, input.minimumValue = some minimum → minimum ≤ input.availableValue - input.fee

end Spendable

section Results

variable {input : TransferAmountInput} {a : TransferAmount}

/-- What is required is what the amount spends. -/
lemma required_eq_spent : input.required = spent input input.amount := by
  have hdeduct : input.shouldDeductFee =
      (input.inputType.spendsBalance && decide (input.inputType.getAsset.id = input.feeAsset)) :=
    rfl
  rw [TransferAmountInput.required, spent, TransferAmountInput.spendsBalance, hdeduct]
  cases input.inputType.spendsBalance with
  | false => rfl
  | true =>
    by_cases hfee : input.inputType.getAsset.id = input.feeAsset
    · simp [hfee]
    · simp [hfee]

/-- The reserve is kept. -/
lemma reserve_any_eq_false_iff {remaining : ℤ} :
    ¬(input.reserve.any fun minimum => remaining < minimum) = true ↔
      (input.isMaxAmount = false → input.inputType.getAsset.assetType = .native →
        input.inputType.spendsBalance = true → ∀ minimum,
          minimumAccountBalance input.inputType.getAsset.chain = some minimum →
            minimum ≤ remaining) := by
  rw [TransferAmountInput.reserve]
  cases minimumAccountBalance input.inputType.getAsset.chain with
  | none => simp
  | some minimum =>
    by_cases h : input.inputType.getAsset.assetType = .native ∧ !input.isMaxAmount ∧
        input.spendsBalance
    · obtain ⟨hnative, hmax, hspends⟩ := h
      have hmax : input.isMaxAmount = false := by simpa using hmax
      have hspends : input.inputType.spendsBalance = true := hspends
      simp [TransferAmountInput.spendsBalance, hnative, hmax, hspends]
    · simp only [if_neg h, Option.any_none, Bool.false_eq_true, not_false_eq_true, true_iff]
      intro hmax hnative hspends
      exact absurd ⟨hnative, by simp [hmax], hspends⟩ h

/-- **Which amounts are returned**: the one that is tried, when every check passes. -/
theorem calculate_eq_ok_iff : input.calculate = .ok a ↔
    spent input input.amount ≤ input.availableValue ∧
      (input.fee ≤ input.feeAssetBalance ∨
        input.inputType.getAsset.chain = .hyperCore ∧ input.inputType.spendsBalance = false) ∧
      (input.isMaxAmount = false → input.inputType.getAsset.assetType = .native →
        input.inputType.spendsBalance = true → ∀ minimum,
          minimumAccountBalance input.inputType.getAsset.chain = some minimum →
            minimum ≤ input.availableValue - spent input input.amount) ∧
      (∀ minimum, input.minimumValue = some minimum → minimum ≤ input.amount) ∧
      a = ⟨input.amount, input.fee, input.isMaxAmount⟩ := by
  have hfee : ¬(input.feeAssetBalance < input.fee ∧ (!input.shouldSkipFeeCheck) = true) ↔
      (input.fee ≤ input.feeAssetBalance ∨
        input.inputType.getAsset.chain = .hyperCore ∧ input.inputType.spendsBalance = false) := by
    rw [not_and_or, not_lt, TransferAmountInput.shouldSkipFeeCheck,
      TransferAmountInput.spendsBalance]
    simp
  have hminimum : ¬(input.minimumValue.any fun minimum => input.amount < minimum) = true ↔
      ∀ minimum, input.minimumValue = some minimum → minimum ≤ input.amount := by
    cases input.minimumValue <;> simp
  rw [TransferAmountInput.calculate, Lib.guard_eq_ok_iff, Lib.guard_eq_ok_iff, Lib.guard_eq_ok_iff,
    Lib.guard_eq_ok_iff, hfee, reserve_any_eq_false_iff, hminimum, required_eq_spent, gt_iff_lt,
    not_lt, Except.ok.injEq, eq_comm (b := a)]

/-- The amount that is tried is not negative unless the fee exceeds what a maximum has
available. -/
theorem amount_nonneg_iff (h : Nonnegative input) : 0 ≤ input.amount ↔
    ¬(input.isMaxAmount = true ∧ input.inputType.spendsBalance = true ∧
      input.inputType.getAsset.id = input.feeAsset ∧ input.availableValue < input.fee) := by
  have hvalue := h.value
  rw [TransferAmountInput.amount]
  split
  · rename_i hmax
    simp only [TransferAmountInput.shouldDeductFee, TransferAmountInput.spendsBalance,
      Bool.and_eq_true, beq_iff_eq] at hmax
    obtain ⟨hmax, hspends, hasset⟩ := hmax
    simp only [hmax, hspends, hasset, true_and, le_min_iff]
    omega
  · rename_i hmax
    simp only [TransferAmountInput.shouldDeductFee, TransferAmountInput.spendsBalance,
      Bool.and_eq_true, beq_iff_eq] at hmax
    exact ⟨fun _ h => hmax ⟨h.1, h.2.1, h.2.2.1⟩, fun _ => hvalue⟩

lemma amount_le_value : input.amount ≤ input.value := by
  rw [TransferAmountInput.amount]
  split
  · exact min_le_left _ _
  · exact le_rfl

/-- A maximum of everything that is available leaves nothing. -/
lemma spent_max (hspends : input.inputType.spendsBalance = true)
    (hmax : input.isMaxAmount = true) (hvalue : input.value = input.availableValue)
    (hfee : 0 ≤ input.fee) : spent input input.amount = input.availableValue := by
  rw [spent, if_pos hspends, TransferAmountInput.amount, TransferAmountInput.shouldDeductFee,
    TransferAmountInput.spendsBalance, hspends, hmax, hvalue]
  by_cases hasset : input.inputType.getAsset.id = input.feeAsset
  · simp only [hasset, beq_self_eq_true, Bool.and_self, if_true]
    rw [min_eq_right (by omega)]
    omega
  · simp [hasset]

/-- A fee that exceeds what is available of a maximum leaves a negative amount. -/
theorem amount_of_fee_gt (h : Nonnegative input) (hmax : input.isMaxAmount = true)
    (hspends : input.inputType.spendsBalance = true)
    (hasset : input.inputType.getAsset.id = input.feeAsset)
    (hlt : input.availableValue < input.fee) :
    input.amount = input.availableValue - input.fee := by
  have hvalue := h.value
  rw [TransferAmountInput.amount, TransferAmountInput.shouldDeductFee,
    TransferAmountInput.spendsBalance, hspends, hmax, hasset]
  simp only [beq_self_eq_true, Bool.and_self, if_true]
  exact min_eq_right (by omega)

/-- What is required is then what is available, so that the negative amount is returned. -/
theorem NegativeMax.calculate_eq (h : Nonnegative input) (hbad : NegativeMax input) :
    input.calculate = .ok ⟨input.availableValue - input.fee, input.fee, true⟩ := by
  obtain ⟨hmax, hspends, hasset, hlt, hfee, hminimum⟩ := hbad
  rw [calculate_eq_ok_iff, amount_of_fee_gt h hmax hspends hasset hlt, hmax]
  refine ⟨?_, .inl hfee, fun h => ?_, hminimum, rfl⟩
  · rw [spent, if_pos hspends, if_pos hasset]
    omega
  · cases h

/-- **Confirmed amounts are spendable, and spendable amounts are confirmed**, exactly when the
input is not a maximum that the fee turns negative.

**Proof sketch.** The checks of `calculate` are the inequalities of `Spendable` for the amount
that is tried (`calculate_eq_ok_iff`), without the one that says that the amount is not
negative; it fails only for a maximum whose fee exceeds what is available. -/
theorem calculate_sound_and_complete_iff (h : Nonnegative input) :
    ((∀ a, input.calculate = .ok a →
          Spendable input a.value ∧ a.networkFee = input.fee ∧ a.isMaxAmount = input.isMaxAmount) ∧
        (Spendable input input.amount →
          input.calculate = .ok ⟨input.amount, input.fee, input.isMaxAmount⟩) ∧
        (input.inputType.spendsBalance = true → input.isMaxAmount = true →
          input.value = input.availableValue → input.fee ≤ input.availableValue →
          ∀ a, input.calculate = .ok a → input.availableValue - spent input a.value = 0)) ↔
      ¬NegativeMax input := by
  constructor
  · rintro ⟨hsound, -, -⟩ hbad
    have hnonneg := (hsound _ (hbad.calculate_eq h)).1.nonneg
    have hlt := hbad.2.2.2.1
    simp only at hnonneg
    omega
  · intro hgood
    refine ⟨fun a ha => ?_, fun hs => ?_, fun hspends hmax hvalue _ a ha => ?_⟩
    · obtain ⟨havailable, hfee, hreserve, hminimum, rfl⟩ := calculate_eq_ok_iff.mp ha
      refine ⟨⟨?_, amount_le_value, fun _ => havailable, hfee, hreserve, hminimum⟩, rfl, rfl⟩
      rw [amount_nonneg_iff h]
      rintro ⟨hmax, hspends, hasset, hlt⟩
      apply hgood
      rw [amount_of_fee_gt h hmax hspends hasset hlt] at hminimum
      refine ⟨hmax, hspends, hasset, hlt, hfee.resolve_right fun h => ?_, hminimum⟩
      rw [hspends] at h
      cases h.2
    · have havailable : spent input input.amount ≤ input.availableValue := by
        cases hspends : input.inputType.spendsBalance with
        | true => exact hs.available hspends
        | false =>
          rw [spent, hspends, if_neg Bool.false_ne_true]
          exact h.available
      exact calculate_eq_ok_iff.mpr ⟨havailable, hs.fee, hs.reserve, hs.minimum, rfl⟩
    · obtain ⟨-, -, -, -, rfl⟩ := calculate_eq_ok_iff.mp ha
      rw [spent_max hspends hmax hvalue h.fee]
      omega

end Results

/-! ## Concrete amounts -/

/-- A maximum of 10 units of ether with a fee of 20, and a balance for fees. -/
def sampleMax (availableValue feeAssetBalance : ℤ) : TransferAmountInput where
  inputType := .transfer ⟨⟨.ethereum, none⟩, .native⟩
  value := availableValue
  availableValue := availableValue
  feeAsset := ⟨.ethereum, none⟩
  feeAssetBalance := feeAssetBalance
  fee := 20
  isMaxAmount := true
  minimumValue := none

/-- A maximum of 100 units is 80 units. -/
theorem calculate_sound_and_complete_iff_sample :
    (sampleMax 100 100).calculate = .ok ⟨80, 20, true⟩ ∧ Spendable (sampleMax 100 100) 80 := by
  have hok : (sampleMax 100 100).calculate = .ok ⟨80, 20, true⟩ := by decide
  have hnonneg : Nonnegative (sampleMax 100 100) :=
    ⟨by decide, by decide, by decide, by decide⟩
  have hgood : ¬NegativeMax (sampleMax 100 100) := fun h => absurd h.2.2.2.1 (by decide)
  exact ⟨hok, (((calculate_sound_and_complete_iff hnonneg).mpr hgood).1 _ hok).1⟩

/-- A maximum of 10 units with a fee of 20 is -10 units. -/
theorem calculate_negative_max :
    Nonnegative (sampleMax 10 100) ∧ (sampleMax 10 100).calculate = .ok ⟨-10, 20, true⟩ ∧
      ¬Spendable (sampleMax 10 100) (-10) :=
  ⟨⟨by decide, by decide, by decide, by decide⟩, by decide, fun h => absurd h.nonneg (by decide)⟩

end GemCore.Transfer

import GemCore.Transfer.Rules

/-!
# What the amount screen accepts the confirmation accepts

The balance an amount is typed against and the one its transfer is confirmed against are found by two
matches over two enumerations. They agree, but for rewards: these are confirmed against the value of
the transfer itself. An amount that was accepted can then fail only for the fee, the balance the
account has to keep, or a minimum of the transfer.

## Main definitions

* `IsBuilt` — the transfers that are made for a kind of amount.
* `Excused` — why a calculation fails, other than for the amount.
* `Consistent` — screen and confirmation agree.

## Main results

* `excused_of_calculate` — an amount that is available fails only for these reasons.
* `consistent` — screen and confirmation agree, for every kind of amount.
-/

namespace GemCore.Transfer

/-! ## What is to agree -/

/-- The staking of a transfer is that of the amount. -/
inductive IsStaking : GemAmountStakeType → GemStakeType → Prop where
  | stake (validator : DelegationValidator) : IsStaking .stake (.stake validator)
  | unstake (delegation : Delegation) : IsStaking (.unstake delegation) (.unstake delegation)
  | redelegate (delegation : Delegation) (toValidator : DelegationValidator) :
    IsStaking (.redelegate delegation) (.redelegate delegation toValidator)
  | withdraw (delegation : Delegation) : IsStaking (.withdraw delegation) (.withdraw delegation)
  | rewards (delegations : List Delegation) (validators : List DelegationValidator) :
    IsStaking (.rewards delegations) (.rewards validators)
  | freeze (resource : Resource) : IsStaking (.freeze resource) (.freeze resource)
  | unfreeze (resource : Resource) : IsStaking (.unfreeze resource) (.unfreeze resource)

/-- The earning of a transfer is that of the amount. -/
inductive IsEarning : GemAmountEarnType → GemEarnType → Prop where
  | deposit (provider : DelegationValidator) : IsEarning .deposit (.deposit provider)
  | withdraw (delegation : Delegation) : IsEarning (.withdraw delegation) (.withdraw delegation)

/-- **The transfers that are made for a kind of amount**, with any value and, where one is given, any
minimum. -/
inductive IsBuilt (asset : GemAsset) : GemAmountType → GemTransferData → Prop where
  | transfer (recipient : GemRecipient) (value : ℤ) (useMaxAmount : Bool) (minimum : Option ℤ) :
    IsBuilt asset .transfer ⟨.transfer asset, recipient, value, useMaxAmount, minimum⟩
  | deposit (recipient : GemRecipient) (value : ℤ) (useMaxAmount : Bool) (minimum : Option ℤ) :
    IsBuilt asset .deposit ⟨.deposit asset, recipient, value, useMaxAmount, minimum⟩
  | withdrawal (recipient : GemRecipient) (value : ℤ) (useMaxAmount : Bool)
    (minimum : Option ℤ) :
    IsBuilt asset .withdraw ⟨.withdrawal asset, recipient, value, useMaxAmount, minimum⟩
  | stake {stakeType : GemAmountStakeType} {stakeType' : GemStakeType}
    (h : IsStaking stakeType stakeType') (value : ℤ) (useMaxAmount : Bool) :
    IsBuilt asset (.stake stakeType) (stakeTransferData asset stakeType' value useMaxAmount)
  | earn {earnType : GemAmountEarnType} {earnType' : GemEarnType}
    (h : IsEarning earnType earnType') (contractAddress : String) (value : ℤ)
    (useMaxAmount : Bool) :
    IsBuilt asset (.earn earnType)
      (earnTransferData asset earnType' contractAddress value useMaxAmount)

/-- **Why a calculation fails, other than for the amount**: the fee cannot be paid, or not together
with the amount; the account does not keep enough; or there is a minimum. -/
inductive Excused (input : TransferAmountInput) : TransferAmountError → Prop where
  | networkFee (h : input.feeAssetBalance < input.fee) :
    Excused input (.insufficientNetworkFee input.feeAsset input.fee input.feeAssetBalance)
  | feeDeducted (hasset : input.shouldDeductFee = true) (hfee : 0 < input.fee)
    (hamount : input.amount ≤ input.availableValue)
    (h : input.availableValue < input.amount + input.fee) :
    Excused input (.insufficientBalance input.inputType.getAsset.id (input.amount + input.fee)
      input.availableValue)
  | minimumAccountBalance {minimum : ℤ} (hreserve : input.reserve = some minimum)
    (h : input.availableValue - input.required < minimum) :
    Excused input (.minimumAccountBalanceTooLow input.inputType.getAsset.id minimum
      (input.availableValue - input.required))
  | minimumValue {minimum : ℤ} (hminimum : input.minimumValue = some minimum)
    (h : input.amount < minimum) :
    Excused input (.insufficientBalance input.inputType.getAsset.id minimum input.amount)

/-- The amount is of rewards. -/
def GemAmountType.IsRewards (amountType : GemAmountType) : Prop :=
  ∃ delegations, amountType = .stake (.rewards delegations)

/-- **Screen and confirmation agree** on a kind of amount. -/
structure Consistent (lib : PerpetualFormatter) (amountType : GemAmountType) (asset : GemAsset)
    (balance : GemAssetBalance) : Prop where
  max_nonneg : 0 ≤ (amountType.input lib asset balance).maxValue
  max_le : (amountType.input lib asset balance).maxValue ≤
    (amountType.input lib asset balance).availableValue
  max_valid : amountType.minimumValue lib asset ≤
      (amountType.input lib asset balance).availableValue →
    0 < (amountType.input lib asset balance).availableValue →
      amountType.validate lib asset balance (amountType.input lib asset balance).maxValue = .ok ()
  available_eq : ∀ transfer, IsBuilt asset amountType transfer →
    (amountType.IsRewards → transfer.value = (amountType.input lib asset balance).maxValue) →
      transfer.availableValue balance = .ok (amountType.availableValue asset balance)
  available_rewards : ∀ transfer, IsBuilt asset amountType transfer → amountType.IsRewards →
    transfer.availableValue balance = .ok transfer.value
  accepted : ∀ transfer, IsBuilt asset amountType transfer →
    amountType.validate lib asset balance transfer.value = .ok () →
      ∀ feeAsset feeAssetBalance fee, ∃ input,
        transfer.preloadInput balance feeAsset feeAssetBalance fee = .ok input ∧
          input.amount ≤ input.availableValue ∧ ∀ e, input.calculate = .error e → Excused input e

/-! ## The screen -/

section Screen

variable (lib : PerpetualFormatter) (amountType : GemAmountType) (asset : GemAsset)
  (balance : GemAssetBalance)

lemma tronStakeAvailable_nonneg : 0 ≤ tronStakeAvailable asset balance := le_max_right _ _

lemma unfreezeAvailable_nonneg (resource : Resource) : 0 ≤ unfreezeAvailable resource balance := by
  cases resource with
  | bandwidth | energy => exact Int.natCast_nonneg _

/-- Nothing negative is available. -/
lemma availableValue_nonneg : 0 ≤ amountType.availableValue asset balance := by
  cases amountType with
  | transfer | deposit | withdraw => exact Int.natCast_nonneg _
  | stake stakeType =>
    cases stakeType with
    | stake =>
      rw [GemAmountType.availableValue]
      split
      · exact tronStakeAvailable_nonneg asset balance
      · exact Int.natCast_nonneg _
    | unfreeze resource => exact unfreezeAvailable_nonneg balance resource
    | unstake delegation | redelegate delegation | withdraw delegation => exact Int.natCast_nonneg _
    | rewards delegations | freeze resource => exact Int.natCast_nonneg _
  | earn earnType =>
    cases earnType with
    | deposit | withdraw delegation => exact Int.natCast_nonneg _
  | perpetual position price leverage sizeDecimals =>
    cases position with
    | «open» | increase => exact Int.natCast_nonneg _
    | reduce available => exact Int.natCast_nonneg _

lemma usdcMinimum_nonneg (minimum : ℕ) : 0 ≤ usdcMinimum asset minimum := by
  rw [usdcMinimum]
  split
  · exact Int.natCast_nonneg _
  · exact le_rfl

/-- No minimum is negative. -/
lemma minimumValue_nonneg : 0 ≤ amountType.minimumValue lib asset := by
  have hstake : (0 : ℤ) ≤ ((stakeConfig asset.chain).map StakeChainConfig.minAmount).getD 0 :=
    Int.natCast_nonneg _
  cases amountType with
  | transfer | earn earnType => exact le_rfl
  | deposit | withdraw => exact usdcMinimum_nonneg asset _
  | stake stakeType =>
    cases stakeType with
    | stake => exact hstake
    | freeze resource => exact hstake
    | redelegate delegation =>
      rw [GemAmountType.minimumValue]
      split
      · exact hstake
      · exact le_rfl
    | withdraw delegation | unstake delegation => exact le_rfl
    | unfreeze resource => exact le_rfl
    | rewards delegations => exact le_rfl
  | perpetual position price leverage sizeDecimals => exact Int.natCast_nonneg _

/-- A reserve is kept only where it is positive and leaves more than the minimum. -/
theorem lt_of_reservesFee {reserve maxAfterFee minimum : ℤ}
    (h : amountType.reservesFee reserve maxAfterFee minimum = true) :
    0 < reserve ∧ minimum < maxAfterFee := by
  unfold GemAmountType.reservesFee at h
  split at h
  · exact of_decide_eq_true h
  · exact of_decide_eq_true h
  · cases h

/-- The largest amount: all there is, or what a positive reserve leaves of it. -/
theorem maxValue_cases :
    (amountType.input lib asset balance).maxValue = amountType.availableValue asset balance ∨
      0 < amountType.reserveForFee asset ∧
        (amountType.input lib asset balance).maxValue =
          max (amountType.availableValue asset balance - amountType.reserveForFee asset) 0 ∧
        amountType.minimumValue lib asset < (amountType.input lib asset balance).maxValue := by
  rw [GemAmountType.input]
  dsimp only
  split
  case isFalse => exact .inl rfl
  case isTrue h =>
    obtain ⟨hreserve, hminimum⟩ := lt_of_reservesFee amountType h
    exact .inr ⟨hreserve, rfl, hminimum⟩

lemma maxValue_nonneg : 0 ≤ (amountType.input lib asset balance).maxValue := by
  rcases maxValue_cases lib amountType asset balance with h | ⟨-, h, -⟩
  · rw [h]
    exact availableValue_nonneg amountType asset balance
  · rw [h]
    exact le_max_right _ _

lemma maxValue_le : (amountType.input lib asset balance).maxValue ≤
    amountType.availableValue asset balance := by
  rcases maxValue_cases lib amountType asset balance with h | ⟨hreserve, h, -⟩
  · exact h.le
  · rw [h]
    exact max_le (by omega) (availableValue_nonneg amountType asset balance)

/-- An amount that is accepted. -/
lemma validate_eq_ok_iff {value available minimum : ℤ} :
    validate value available minimum = .ok () ↔ 0 < value ∧ minimum ≤ value ∧ value ≤ available := by
  rw [validate, Lib.guard_eq_ok_iff, Lib.guard_eq_ok_iff, Lib.guard_eq_ok_iff, not_le, not_lt, not_lt]
  exact and_congr_right fun _ => and_congr_right fun _ => and_iff_left rfl

/-- **The largest amount is accepted** where any is. -/
theorem validate_maxValue
    (hminimum : amountType.minimumValue lib asset ≤ amountType.availableValue asset balance)
    (hpos : 0 < amountType.availableValue asset balance) :
    amountType.validate lib asset balance (amountType.input lib asset balance).maxValue =
      .ok () := by
  refine validate_eq_ok_iff.mpr ?_
  have hle := maxValue_le lib amountType asset balance
  have hnonneg := minimumValue_nonneg lib amountType asset
  rcases maxValue_cases lib amountType asset balance with h | ⟨-, -, hlt⟩
  · rw [h]
    exact ⟨hpos, hminimum, le_rfl⟩
  · exact ⟨by omega, hlt.le, hle⟩

end Screen

/-! ## The confirmation -/

section Confirmation

variable {input : TransferAmountInput}

lemma reserve_nonneg {minimum : ℤ} (h : input.reserve = some minimum) : 0 ≤ minimum := by
  have hchain : ∀ chain m, minimumAccountBalance chain = some m → 0 ≤ m := by
    intro chain m hm
    unfold minimumAccountBalance at hm
    split at hm
    · rw [← Option.some.inj hm]
      decide
    · rw [← Option.some.inj hm]
      decide
    · cases hm
  rw [TransferAmountInput.reserve] at h
  split at h
  case h_1 m hm =>
    split at h
    · rw [← Option.some.inj h]
      exact hchain _ m hm
    · cases h
  case h_2 => cases h

/-- What is required exceeds what is available only for the fee. -/
lemma feeDeducted_of_lt (havailable : 0 ≤ input.availableValue)
    (hamount : input.amount ≤ input.availableValue)
    (h : input.availableValue < input.required) :
    input.shouldDeductFee = true ∧ 0 < input.fee ∧ input.required = input.amount + input.fee := by
  cases hspends : input.spendsBalance with
  | false =>
    have hrequired : input.required = 0 := by rw [TransferAmountInput.required, hspends]
    omega
  | true =>
    cases hdeduct : input.shouldDeductFee with
    | false =>
      have hrequired : input.required = input.amount := by
        rw [TransferAmountInput.required, hspends, hdeduct]
      omega
    | true =>
      have hrequired : input.required = input.amount + input.fee := by
        rw [TransferAmountInput.required, hspends, hdeduct]
      exact ⟨rfl, by omega, hrequired⟩

/-- **An amount that is available fails only for the fee, the reserve of the account, or a minimum.** -/
theorem excused_of_calculate {e : TransferAmountError} (havailable : 0 ≤ input.availableValue)
    (hamount : input.amount ≤ input.availableValue) (h : input.calculate = .error e) :
    Excused input e := by
  rw [TransferAmountInput.calculate] at h
  split at h
  case isTrue hlt =>
    obtain ⟨hdeduct, hfee, hrequired⟩ := feeDeducted_of_lt havailable hamount hlt
    obtain rfl := Except.error.inj h
    rw [TransferAmountInput.balanceError]
    cases hreserve : input.reserve with
    | none =>
      dsimp only
      rw [hrequired]
      exact .feeDeducted hdeduct hfee hamount (by omega)
    | some minimum =>
      have hnonneg := reserve_nonneg hreserve
      dsimp only
      rw [if_pos hamount]
      exact .minimumAccountBalance hreserve (by omega)
  case isFalse =>
    split at h
    case isTrue hfee =>
      obtain rfl := Except.error.inj h
      exact .networkFee hfee.1
    case isFalse =>
      split at h
      case isTrue hreserve =>
        obtain rfl := Except.error.inj h
        cases hsome : input.reserve with
        | none => rw [hsome] at hreserve; cases hreserve
        | some minimum =>
          rw [hsome] at hreserve
          exact .minimumAccountBalance hsome (of_decide_eq_true hreserve)
      case isFalse =>
        split at h
        case isTrue hminimum =>
          obtain rfl := Except.error.inj h
          cases hsome : input.minimumValue with
          | none => rw [hsome] at hminimum; cases hminimum
          | some minimum =>
            rw [hsome] at hminimum
            exact .minimumValue hsome (of_decide_eq_true hminimum)
        case isFalse => cases h

end Confirmation

section Agreement

variable (lib : PerpetualFormatter) {amountType : GemAmountType} {asset : GemAsset}
  (balance : GemAssetBalance) {transfer : GemTransferData}

/-- Rewards have no reserve. -/
lemma maxValue_rewards (asset : GemAsset) (delegations : List Delegation) :
    ((GemAmountType.stake (.rewards delegations)).input lib asset balance).maxValue =
      (GemAmountType.stake (.rewards delegations)).availableValue asset balance := rfl

/-- Rewards are confirmed against the value of their transfer. -/
lemma availableValue_of_rewards (h : IsBuilt asset amountType transfer)
    (hrewards : amountType.IsRewards) : transfer.availableValue balance = .ok transfer.value := by
  obtain ⟨delegations, rfl⟩ := hrewards
  cases h with
  | stake hstaking value useMaxAmount =>
    cases hstaking with
    | rewards _ validators => rfl

/-- **Screen and confirmation find the same balance**, except for rewards. -/
theorem availableValue_of_not_rewards (h : IsBuilt asset amountType transfer)
    (hrewards : ¬amountType.IsRewards) :
    transfer.availableValue balance = .ok (amountType.availableValue asset balance) := by
  cases h with
  | transfer | deposit | withdrawal => rfl
  | stake hstaking value useMaxAmount =>
    cases hstaking with
    | stake validator => rfl
    | unstake delegation | withdraw delegation => rfl
    | redelegate delegation toValidator => rfl
    | rewards delegations validators => exact absurd ⟨delegations, rfl⟩ hrewards
    | freeze resource | unfreeze resource => rfl
  | earn hearning contractAddress value useMaxAmount =>
    cases hearning with
    | deposit provider => rfl
    | withdraw delegation => rfl

/-- An accepted amount is available at the confirmation. -/
lemma exists_available (h : IsBuilt asset amountType transfer)
    (haccepted : amountType.validate lib asset balance transfer.value = .ok ()) :
    ∃ available, transfer.availableValue balance = .ok available ∧ 0 ≤ available ∧
      transfer.value ≤ available := by
  obtain ⟨hpos, -, hle⟩ := validate_eq_ok_iff.mp haccepted
  by_cases hrewards : amountType.IsRewards
  · exact ⟨_, availableValue_of_rewards balance h hrewards, hpos.le, le_rfl⟩
  · exact ⟨_, availableValue_of_not_rewards balance h hrewards,
      availableValue_nonneg amountType asset balance, hle⟩

/-- **Screen and confirmation agree.**

**Proof sketch.** By the kind of the amount, both matches read the same balance. The amount that is
calculated with is at most the one typed, so that what is required exceeds the balance only together
with the fee. -/
theorem consistent (lib : PerpetualFormatter) (amountType : GemAmountType) (asset : GemAsset)
    (balance : GemAssetBalance) : Consistent lib amountType asset balance where
  max_nonneg := maxValue_nonneg lib amountType asset balance
  max_le := maxValue_le lib amountType asset balance
  max_valid := validate_maxValue lib amountType asset balance
  available_eq := by
    intro transfer h hvalue
    by_cases hrewards : amountType.IsRewards
    · rw [availableValue_of_rewards balance h hrewards, hvalue hrewards]
      obtain ⟨delegations, rfl⟩ := hrewards
      rw [maxValue_rewards]
    · exact availableValue_of_not_rewards balance h hrewards
  available_rewards := fun transfer h => availableValue_of_rewards balance h
  accepted := by
    intro transfer h haccepted feeAsset feeAssetBalance fee
    obtain ⟨available, havailable, hnonneg, hle⟩ := exists_available lib balance h haccepted
    have hinput : transfer.preloadInput balance feeAsset feeAssetBalance fee =
        .ok ⟨transfer.inputType.toInputType, transfer.value, available, feeAsset, feeAssetBalance,
          fee, transfer.useMaxAmount, transfer.minimumValue⟩ := by
      rw [GemTransferData.preloadInput, havailable, Lib.ok_bind]
    refine ⟨_, hinput, le_trans amount_le_value hle, fun e he => ?_⟩
    exact excused_of_calculate hnonneg (le_trans amount_le_value hle) he

end Agreement

/-! ## Rewards -/

/-- A part of the rewards is accepted by the screen, and confirmed against itself. -/
theorem availableValue_ne_rewards :
    let asset : GemAsset := ⟨⟨⟨.cosmos, none⟩, .native⟩, "ATOM", 6⟩
    let balance : GemAssetBalance := ⟨0, 0, 0, 0, none⟩
    let validator : DelegationValidator := ⟨"validator", "validator"⟩
    let amountType : GemAmountType := .stake (.rewards [⟨10, 7, validator⟩])
    let transfer := stakeTransferData asset (.rewards [validator]) 3 false
    IsBuilt asset amountType transfer ∧
      amountType.validate ⟨fun _ _ _ => 0⟩ asset balance transfer.value = .ok () ∧
      transfer.availableValue balance = .ok 3 ∧ amountType.availableValue asset balance = 7 ∧
      transfer.availableValue balance ≠ .ok (amountType.availableValue asset balance) :=
  ⟨.stake (.rewards _ _) 3 false, by decide, rfl, rfl,
    fun h => absurd (Except.ok.inj h) (by decide)⟩

end GemCore.Transfer

import GemCore.Primitives.Saturating
import GemCore.Sui.Execution

/-!
# Transfers and stakes

The transactions that send the native coin or a token, or stake the native coin
(`gem_sui/src/tx_builder/transfer.rs`, `stake.rs`, `transaction.rs`). An amount comes from the gas
coin, from coin objects, from the funds of the address, or from several of these.

The builder is one that records its calls. Failures of other types are texts.

## Main definitions

* `OwnedCoins` — the coins of one type, and the funds of the address.
* `encodeTransfer`, `encodeTokenTransfer`, `encodeSplitAndStake` — the transactions.

## Main results

* `toNat_balanceTotal` — the balances of coins are added up as far as they fit.
* `encodeTransfer_eq_ok`, `encodeTokenTransfer_eq_ok`, `encodeSplitAndStake_eq_ok` — the commands of
  a transaction that is built.
-/

namespace GemCore.Sui

open Lib

/-! ## Coins -/

/-- The balances of coins, with saturation. -/
def balanceTotal (coins : List Coin) : UInt64 :=
  coins.foldl (fun total coin => saturatingAdd total coin.balance) 0

/-- `OwnedCoins`. -/
structure OwnedCoins where
  coinType : String
  coins : List Coin
  addressBalance : UInt64

/-- `OwnedCoins::coin_total`. -/
def OwnedCoins.coinTotal (owned : OwnedCoins) : UInt64 := balanceTotal owned.coins

/-- `OwnedCoins::total`. -/
def OwnedCoins.total (owned : OwnedCoins) : UInt64 :=
  saturatingAdd owned.coinTotal owned.addressBalance

/-- `validate_enough_balance`. -/
def validateEnoughBalance (coins : OwnedCoins) (amount : UInt64) : Option SuiError :=
  if coins.total = 0 then
    some (.invalidInput "no spendable coin objects or address balance")
  else if coins.total < amount then
    some (.invalidInput ("total amount (" ++ toString coins.total ++
      ") is less than amount to send (" ++ toString amount ++ ")"))
  else none

/-- `requires_hybrid_funding`. -/
def requiresHybridFunding (coins : OwnedCoins) (amount : UInt64) : Bool :=
  decide (coins.addressBalance < amount ∧ coins.coinTotal < amount)

/-! ## Requests -/

/-- `Gas`. -/
structure Gas where
  budget : UInt64
  price : UInt64

/-- `TransferInput`. -/
structure TransferInput where
  sender : String
  recipient : String
  amount : UInt64
  coins : OwnedCoins
  sendMax : Bool
  gas : Gas

/-- `TokenTransferInput`. -/
structure TokenTransferInput where
  sender : String
  recipient : String
  amount : UInt64
  tokens : OwnedCoins
  gas : Gas
  gasCoin : Coin

/-- `StakeInput`. -/
structure StakeInput where
  sender : String
  validator : String
  stakeAmount : UInt64
  gas : Gas
  coins : OwnedCoins

/-- `TransactionBuilderInput`; the price of the gas moves no coins. -/
structure TransactionBuilderInput where
  sender : String
  gasBudget : UInt64
  gasObjects : List ObjectInput

/-! ## The calls of the builder -/

/-- A computation that calls the builder. -/
abbrev PtbBuild : Type → Type := Build (List (Command Ref)) SuiError

namespace Ptb

/-- `gas`. -/
def gas : PtbBuild Ref := Build.update recorder.gas

/-- `pure` of a value that is written as these bytes. -/
def pureBytes (bytes : List UInt8) : PtbBuild Ref := Build.update (recorder.pureBytesUnique bytes)

/-- `pure` of a `u64`. -/
def pureU64 (value : UInt64) : PtbBuild Ref := pureBytes (leBytes 8 value.toNat)

/-- `pure` of an `Address`. -/
def pureAddress (address : Address) : PtbBuild Ref := pureBytes address.val

/-- `object`. -/
def object (input : ObjectInput) : PtbBuild Ref := Build.update (recorder.object input)

/-- `move_call`. -/
def moveCall (function : Function) (arguments : List Ref) : PtbBuild Ref :=
  Build.update (recorder.moveCall function arguments)

/-- `funds_withdrawal_coin`: a withdrawal, and the call that turns it into a coin. -/
def fundsWithdrawalCoin (coinType : TypeTag) (amount : UInt64) : PtbBuild Ref := do
  let withdrawal ← Build.update (recorder.fundsWithdrawal coinType amount)
  moveCall (redeemFunds coinType) [withdrawal]

/-- `split_coins` with one amount, and its result. -/
def splitCoin (coin amount : Ref) (error : SuiError) : PtbBuild Ref := do
  let results ← Build.update (recorder.splitCoins coin [amount])
  match results.getLast? with
  | some result => pure result
  | none => Build.ofExcept (.error error)

/-- `merge_coins`. -/
def mergeCoins (destination : Ref) (sources : List Ref) : PtbBuild Unit :=
  Build.update fun b => ((), recorder.mergeCoins destination sources b)

/-- `transfer_objects`. -/
def transferObjects (objects : List Ref) (address : Ref) : PtbBuild Unit :=
  Build.update fun b => ((), recorder.transferObjects objects address b)

/-- An error. -/
def fail {α : Type} (message : String) : PtbBuild α :=
  Build.ofExcept (.error (.invalidInput message))

end Ptb

/-! ## The transactions -/

section Transactions

variable (texts : TextLib) (tryBuild : Transaction → Except String Unit)

/-- `build_amount_coin`. -/
def buildAmountCoin (coinType : TypeTag) (amount addressBalance : UInt64) (coins : List Coin) :
    PtbBuild Ref := do
  if amount ≤ addressBalance then Ptb.fundsWithdrawalCoin coinType amount
  else
    let arguments ← Build.collect (fun coin : Coin => Ptb.object coin.toInput) coins
    match arguments with
    | [] => Ptb.fail "no coin sources for Sui amount"
    | primary :: others => do
      if others ≠ [] then Ptb.mergeCoins primary others
      if balanceTotal coins < amount then
        let withdrawn ← Ptb.fundsWithdrawalCoin coinType (amount - balanceTotal coins)
        Ptb.mergeCoins primary [withdrawn]
      let amountArgument ← Ptb.pureU64 amount
      Ptb.splitCoin primary amountArgument (.invalidInput "Sui split coin failed")

/-- `finish_transaction`: the builder, and the writer of the transaction, may fail. -/
def finishTransaction (ptb : List (Command Ref)) (input : TransactionBuilderInput) :
    Except SuiError Transaction := do
  let _sender ← parseAddress texts input.sender
  let transaction : Transaction := ⟨ptb, input.gasObjects, input.gasBudget⟩
  (tryBuild transaction).mapError .invalidInput
  .ok transaction

/-- A coin of the native funds: withdrawn from those of the address if they hold the amount, else
split off the gas coin. -/
def buildNativeCoin (coins : OwnedCoins) (amount : UInt64) : PtbBuild Ref := do
  if amount ≤ coins.addressBalance then
    let coinType ← Build.ofExcept ((texts.typeTag coins.coinType).mapError fun err =>
      .invalidInput ("invalid Sui native coin type " ++ coins.coinType ++ ": " ++ err))
    Ptb.fundsWithdrawalCoin coinType amount
  else
    let amountArgument ← Ptb.pureU64 amount
    let gasCoin ← Ptb.gas
    Ptb.splitCoin gasCoin amountArgument (.invalidInput "split_coins should return one argument")

/-- `build_transfer_ptb`. -/
def buildTransferPtb (input : TransferInput) : PtbBuild Unit := do
  match validateEnoughBalance input.coins input.amount with
  | some err => Build.ofExcept (.error err)
  | none =>
    if input.coins.coins.isEmpty then Ptb.fail "No SUI coins available for gas"
    else if !input.sendMax && requiresHybridFunding input.coins input.amount then
      Ptb.fail "Sui native transfer: amount requires combining Address Balance with Coin<SUI> objects, which is not supported"
    else
      let recipient ← Build.ofExcept ((texts.address input.recipient).mapError .invalidInput)
      if input.sendMax then
        let recipientArgument ← Ptb.pureAddress recipient
        let gasCoin ← Ptb.gas
        Ptb.transferObjects [gasCoin] recipientArgument
      else
        let sendCoin ← buildNativeCoin texts input.coins input.amount
        let recipientArgument ← Ptb.pureAddress recipient
        Ptb.transferObjects [sendCoin] recipientArgument

/-- `encode_transfer`. -/
def encodeTransfer (input : TransferInput) : Except SuiError Transaction := do
  let ((), ptb) ← buildTransferPtb texts input []
  finishTransaction texts tryBuild ptb
    ⟨input.sender, input.gas.budget, input.coins.coins.map Coin.toInput⟩

/-- `build_token_transfer_ptb`. -/
def buildTokenTransferPtb (input : TokenTransferInput) : PtbBuild Unit := do
  match validateEnoughBalance input.tokens input.amount with
  | some err => Build.ofExcept (.error err)
  | none =>
    let coinType ← Build.ofExcept ((texts.typeTag input.tokens.coinType).mapError fun err =>
      .invalidInput ("invalid Sui token coin type " ++ input.tokens.coinType ++ ": " ++ err))
    let recipient ← Build.ofExcept ((texts.address input.recipient).mapError .invalidInput)
    let amountCoin ←
      buildAmountCoin coinType input.amount input.tokens.addressBalance input.tokens.coins
    let recipientArgument ← Ptb.pureAddress recipient
    Ptb.transferObjects [amountCoin] recipientArgument

/-- `encode_token_transfer`. -/
def encodeTokenTransfer (input : TokenTransferInput) : Except SuiError Transaction := do
  let ((), ptb) ← buildTokenTransferPtb texts input []
  finishTransaction texts tryBuild ptb ⟨input.sender, input.gas.budget,
    [.immutable input.gasCoin.objectId input.gasCoin.version input.gasCoin.digest]⟩

/-- The smallest stake of the chain. -/
def minStakeAmount : UInt64 := 1000000000

/-- `build_split_and_stake_ptb`. -/
def buildSplitAndStakePtb (input : StakeInput) : PtbBuild Unit := do
  match validateEnoughBalance input.coins input.stakeAmount with
  | some err => Build.ofExcept (.error err)
  | none =>
    if input.coins.coins.isEmpty then Ptb.fail "No SUI coins available for gas"
    else if requiresHybridFunding input.coins input.stakeAmount then
      Ptb.fail "Sui stake: amount requires combining Address Balance with Coin<SUI> objects, which is not supported"
    else if input.stakeAmount < minStakeAmount then Ptb.fail "stake amount is too small"
    else
      let validator ← Build.ofExcept ((texts.address input.validator).mapError .invalidInput)
      let stakeCoin ← buildNativeCoin texts input.coins input.stakeAmount
      let sysState ← Ptb.object suiSystemStateObjectInput
      let validatorArgument ← Ptb.pureAddress validator
      let _result ← Ptb.moveCall requestAddStake [sysState, stakeCoin, validatorArgument]

/-- `encode_split_and_stake`. -/
def encodeSplitAndStake (input : StakeInput) : Except SuiError Transaction := do
  let ((), ptb) ← buildSplitAndStakePtb texts input []
  finishTransaction texts tryBuild ptb
    ⟨input.sender, input.gas.budget, input.coins.coins.map Coin.toInput⟩

end Transactions

/-! ## Totals -/

/-- The balances are added up as far as they fit. -/
lemma toNat_balanceTotal (coins : List Coin) :
    (balanceTotal coins).toNat = min (worth coins) (2 ^ 64 - 1) := by
  have hfold : ∀ total : UInt64,
      (coins.foldl (fun total coin => saturatingAdd total coin.balance) total).toNat =
        min (total.toNat + worth coins) (2 ^ 64 - 1) := by
    induction coins with
    | nil =>
      intro total
      have hlt := total.toNat_lt
      show total.toNat = min (total.toNat + 0) (2 ^ 64 - 1)
      omega
    | cons coin coins ih =>
      intro total
      show (coins.foldl _ (saturatingAdd total coin.balance)).toNat =
        min (total.toNat + (coin.balance.toNat + worth coins)) (2 ^ 64 - 1)
      rw [ih, toNat_saturatingAdd]
      omega
  rw [balanceTotal, hfold]
  show min (0 + worth coins) _ = _
  rw [zero_add]

/-- The total falls short of an amount exactly when the coins do. -/
lemma balanceTotal_lt_iff {coins : List Coin} {amount : UInt64} :
    balanceTotal coins < amount ↔ worth coins < amount.toNat := by
  have hlt := amount.toNat_lt
  rw [UInt64.lt_iff_toNat_lt, toNat_balanceTotal]
  omega

/-- What passes the check of the balance. -/
lemma le_of_validateEnoughBalance {coins : OwnedCoins} {amount : UInt64}
    (h : validateEnoughBalance coins amount = none) :
    amount.toNat ≤ worth coins.coins + coins.addressBalance.toNat := by
  rw [validateEnoughBalance] at h
  by_cases hzero : coins.total = 0
  · rw [if_pos hzero] at h
    cases h
  · rw [if_neg hzero] at h
    by_cases hless : coins.total < amount
    · rw [if_pos hless] at h
      cases h
    · rw [UInt64.lt_iff_toNat_lt, OwnedCoins.total, toNat_saturatingAdd, OwnedCoins.coinTotal,
        toNat_balanceTotal] at hless
      omega

/-! ## The commands -/

section Commands

variable {texts : TextLib} {tryBuild : Transaction → Except String Unit}

/-- The command that turns a withdrawal into a coin. -/
def redeemCommand (coinType : TypeTag) (amount : UInt64) : Command Ref :=
  .moveCall (redeemFunds coinType) [.withdrawal coinType amount]

/-- The command that splits an amount off a coin. -/
def splitCommand (coin : Ref) (amount : UInt64) : Command Ref :=
  .splitCoins coin [.pure (leBytes 8 amount.toNat)]

/-- The command that sends a coin. -/
def sendCommand (coin : Ref) (recipient : Address) : Command Ref :=
  .transferObjects [coin] (.pure recipient.val)

/-- The command that stakes a coin. -/
def stakeCommand (coin : Ref) (validator : Address) : Command Ref :=
  .moveCall requestAddStake
    [.object suiSystemStateObjectInput.reference, coin, .pure validator.val]

/-- **The commands that gather an amount**: the objects become one coin, and the funds of the address
make up for what it falls short of. -/
def gatherCommands (coinType : TypeTag) (amount : UInt64) (coins : List Coin) (primary : Ref)
    (others : List Ref) : List (Command Ref) :=
  let merged := if others ≠ [] then [.mergeCoins primary others] else []
  if balanceTotal coins < amount then
    merged ++ [redeemCommand coinType (amount - balanceTotal coins),
      .mergeCoins primary [.result merged.length]]
  else merged

lemma collect_object (coins : List Coin) (commands : List (Command Ref)) :
    Build.collect (fun coin : Coin => Ptb.object coin.toInput) coins commands =
      .ok (coins.map Coin.ref, commands) := by
  induction coins with
  | nil => rfl
  | cons coin coins ih =>
    show (Build.collect (fun coin : Coin => Ptb.object coin.toInput) coins commands).bind _ = _
    rw [ih]
    rfl

/-- An amount that the funds of the address hold is withdrawn. -/
lemma buildAmountCoin_of_le {coinType : TypeTag} {amount addressBalance : UInt64}
    (h : amount ≤ addressBalance) (coins : List Coin) :
    buildAmountCoin coinType amount addressBalance coins [] =
      .ok (.result 0, [redeemCommand coinType amount]) := by
  rw [buildAmountCoin, if_pos h]
  rfl

/-- Any other amount is gathered, and split off. -/
lemma buildAmountCoin_of_not_le {coinType : TypeTag} {amount addressBalance : UInt64}
    (h : ¬amount ≤ addressBalance) {coins : List Coin} {ref : Ref} {ptb : List (Command Ref)}
    (hrun : buildAmountCoin coinType amount addressBalance coins [] = .ok (ref, ptb)) :
    ∃ coin rest gathered, coins = coin :: rest ∧
      gathered = gatherCommands coinType amount coins coin.ref (rest.map Coin.ref) ∧
      ref = .nested gathered.length 0 ∧ ptb = gathered ++ [splitCommand coin.ref amount] := by
  rw [buildAmountCoin, if_neg h] at hrun
  obtain ⟨arguments, s, harguments, hrun⟩ := Build.bind_eq_ok_iff.mp hrun
  rw [collect_object] at harguments
  obtain ⟨rfl, rfl⟩ := Prod.mk.inj (Except.ok.inj harguments)
  cases coins with
  | nil => cases hrun
  | cons coin rest =>
    refine ⟨coin, rest, _, rfl, rfl, ?_⟩
    rw [gatherCommands]
    simp only [List.map_cons] at hrun
    split_ifs at hrun ⊢
    all_goals
      obtain ⟨rfl, rfl⟩ := Prod.mk.inj (Except.ok.inj hrun)
      exact ⟨rfl, rfl⟩

/-- A native coin is withdrawn, or split off the gas coin. -/
lemma buildNativeCoin_eq_ok {coins : OwnedCoins} {amount : UInt64} {ref : Ref}
    {ptb : List (Command Ref)} (h : buildNativeCoin texts coins amount [] = .ok (ref, ptb)) :
    (amount ≤ coins.addressBalance ∧ ∃ coinType, texts.typeTag coins.coinType = .ok coinType ∧
      ref = .result 0 ∧ ptb = [redeemCommand coinType amount]) ∨
    (¬amount ≤ coins.addressBalance ∧ ref = .nested 0 0 ∧ ptb = [splitCommand .gas amount]) := by
  rw [buildNativeCoin] at h
  by_cases hle : amount ≤ coins.addressBalance
  · rw [if_pos hle] at h
    obtain ⟨coinType, htype, hrun⟩ := Build.ofExcept_bind_eq_ok_iff.mp h
    obtain ⟨rfl, rfl⟩ := Prod.mk.inj (Except.ok.inj hrun)
    exact .inl ⟨hle, coinType, mapError_eq_ok_iff.mp htype, rfl, rfl⟩
  · rw [if_neg hle] at h
    obtain ⟨rfl, rfl⟩ := Prod.mk.inj (Except.ok.inj h)
    exact .inr ⟨hle, rfl, rfl⟩

/-- The transaction that is finished has the commands, the objects and the budget it is given. -/
theorem finishTransaction_eq_ok {ptb : List (Command Ref)} {input : TransactionBuilderInput}
    {transaction : Transaction} (h : finishTransaction texts tryBuild ptb input = .ok transaction) :
    transaction = ⟨ptb, input.gasObjects, input.gasBudget⟩ := by
  obtain ⟨sender, -, h⟩ := bind_eq_ok_iff.mp h
  obtain ⟨-, h⟩ := check_bind_eq_ok_iff.mp h
  exact (Except.ok.inj h).symm

/-- **A native transfer**: all of the gas coin, or a coin that is made for it. -/
theorem encodeTransfer_eq_ok {input : TransferInput} {transaction : Transaction}
    (h : encodeTransfer texts tryBuild input = .ok transaction) :
    ∃ recipient commands, texts.address input.recipient = .ok recipient ∧
      transaction = ⟨commands, input.coins.coins.map Coin.toInput, input.gas.budget⟩ ∧
      (if input.sendMax = true then commands = [sendCommand .gas recipient]
      else ∃ ref ptb, buildNativeCoin texts input.coins input.amount [] = .ok (ref, ptb) ∧
        commands = ptb ++ [sendCommand ref recipient]) := by
  obtain ⟨⟨⟨⟩, ptb⟩, hptb, hfinish⟩ := bind_eq_ok_iff.mp h
  have htransaction := finishTransaction_eq_ok hfinish
  rw [buildTransferPtb] at hptb
  cases hcheck : validateEnoughBalance input.coins input.amount with
  | some err =>
    rw [hcheck] at hptb
    cases hptb
  | none =>
    rw [hcheck] at hptb
    dsimp only at hptb
    by_cases hempty : input.coins.coins.isEmpty = true
    · rw [if_pos hempty] at hptb
      cases hptb
    · rw [if_neg hempty] at hptb
      by_cases hhybrid : (!input.sendMax && requiresHybridFunding input.coins input.amount) = true
      · rw [if_pos hhybrid] at hptb
        cases hptb
      · rw [if_neg hhybrid] at hptb
        obtain ⟨recipient, hrecipient, hptb⟩ := Build.ofExcept_bind_eq_ok_iff.mp hptb
        refine ⟨recipient, ptb, mapError_eq_ok_iff.mp hrecipient, htransaction, ?_⟩
        by_cases hmax : input.sendMax = true
        · rw [if_pos hmax] at hptb ⊢
          exact (Prod.mk.inj (Except.ok.inj hptb)).2.symm
        · rw [if_neg hmax] at hptb ⊢
          obtain ⟨ref, made, hcoin, hptb⟩ := Build.bind_eq_ok_iff.mp hptb
          exact ⟨ref, made, hcoin, (Prod.mk.inj (Except.ok.inj hptb)).2.symm⟩

/-- **A transfer of a token.** -/
theorem encodeTokenTransfer_eq_ok {input : TokenTransferInput} {transaction : Transaction}
    (h : encodeTokenTransfer texts tryBuild input = .ok transaction) :
    ∃ recipient coinType ref ptb, texts.address input.recipient = .ok recipient ∧
      input.amount.toNat ≤ worth input.tokens.coins + input.tokens.addressBalance.toNat ∧
      texts.typeTag input.tokens.coinType = .ok coinType ∧
      buildAmountCoin coinType input.amount input.tokens.addressBalance input.tokens.coins [] =
        .ok (ref, ptb) ∧
      transaction = ⟨ptb ++ [sendCommand ref recipient], [.immutable input.gasCoin.objectId
        input.gasCoin.version input.gasCoin.digest], input.gas.budget⟩ := by
  obtain ⟨⟨⟨⟩, ptb⟩, hptb, hfinish⟩ := bind_eq_ok_iff.mp h
  have htransaction := finishTransaction_eq_ok hfinish
  rw [buildTokenTransferPtb] at hptb
  cases hcheck : validateEnoughBalance input.tokens input.amount with
  | some err =>
    rw [hcheck] at hptb
    cases hptb
  | none =>
    rw [hcheck] at hptb
    obtain ⟨coinType, htype, hptb⟩ := Build.ofExcept_bind_eq_ok_iff.mp hptb
    obtain ⟨recipient, hrecipient, hptb⟩ := Build.ofExcept_bind_eq_ok_iff.mp hptb
    obtain ⟨ref, made, hcoin, hptb⟩ := Build.bind_eq_ok_iff.mp hptb
    refine ⟨recipient, coinType, ref, made, mapError_eq_ok_iff.mp hrecipient,
      le_of_validateEnoughBalance hcheck, mapError_eq_ok_iff.mp htype, hcoin, ?_⟩
    rw [htransaction, ← (Prod.mk.inj (Except.ok.inj hptb)).2]
    rfl

/-- **A stake.** -/
theorem encodeSplitAndStake_eq_ok {input : StakeInput} {transaction : Transaction}
    (h : encodeSplitAndStake texts tryBuild input = .ok transaction) :
    ∃ validator ref ptb, texts.address input.validator = .ok validator ∧
      buildNativeCoin texts input.coins input.stakeAmount [] = .ok (ref, ptb) ∧
      transaction = ⟨ptb ++ [stakeCommand ref validator],
        input.coins.coins.map Coin.toInput, input.gas.budget⟩ := by
  obtain ⟨⟨⟨⟩, ptb⟩, hptb, hfinish⟩ := bind_eq_ok_iff.mp h
  have htransaction := finishTransaction_eq_ok hfinish
  rw [buildSplitAndStakePtb] at hptb
  cases hcheck : validateEnoughBalance input.coins input.stakeAmount with
  | some err =>
    rw [hcheck] at hptb
    cases hptb
  | none =>
    rw [hcheck] at hptb
    dsimp only at hptb
    by_cases hempty : input.coins.coins.isEmpty = true
    · rw [if_pos hempty] at hptb
      cases hptb
    · rw [if_neg hempty] at hptb
      by_cases hhybrid : requiresHybridFunding input.coins input.stakeAmount = true
      · rw [if_pos hhybrid] at hptb
        cases hptb
      · rw [if_neg hhybrid] at hptb
        by_cases hmin : input.stakeAmount < minStakeAmount
        · rw [if_pos hmin] at hptb
          cases hptb
        · rw [if_neg hmin] at hptb
          obtain ⟨validator, hvalidator, hptb⟩ := Build.ofExcept_bind_eq_ok_iff.mp hptb
          obtain ⟨ref, made, hcoin, hptb⟩ := Build.bind_eq_ok_iff.mp hptb
          refine ⟨validator, ref, made, mapError_eq_ok_iff.mp hvalidator, hcoin, ?_⟩
          rw [htransaction, ← (Prod.mk.inj (Except.ok.inj hptb)).2]
          rfl

end Commands

end GemCore.Sui

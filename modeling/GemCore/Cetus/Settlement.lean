import GemCore.Cetus.Delivery

/-!
# What a swap owes

A swap transaction owes that it succeeds exactly if its pools take what they are offered and the output
after fees is not too small, that nothing is left of it, and that fee and output go where they belong.

The code keeps its promises but for two: the smallest output is computed in 64 bits, and wraps; and the
limit of a price that is out of the bounds of a pool may be so as well.

## Main definitions

* `PoolRoute.Chains` — each hop gives what the next one takes.
* `Terms`, `IsTerms` — what a request is about.
* `Swapped`, `Settles` — what there is after a swap, and when.
* `SwapKept` — what the transaction owes.

## Main results

* `swaps_spec` — when it keeps that.
-/

namespace GemCore.Cetus

open Lib
open Sui (TextLib Ref Command TypeTag Item Holdings Snapshot Reach Fails OnlyObjects Transaction
  isSuiCoin inputObjects gasAfter)

/-! ## Terms -/

/-- **Each hop gives what the next one takes.** -/
def PoolRoute.Chains (route : PoolRoute) : Prop :=
  List.IsChain (fun hop next => hop.outputCoinType = next.inputCoinType) route.hops

/-- What a request is about, once its texts have been read. -/
structure Terms where
  inputText : String
  outputText : String
  inputType : TypeTag
  outputType : TypeTag
  targets : List Target
  sender : Sui.Address
  destination : Sui.Address

/-- The texts of a request say this. -/
structure IsTerms (texts : TextLib) (resolver : ObjectResolver) (request : QuoteRequest)
    (slippageBps : UInt32) (route : PoolRoute) (terms : Terms) : Prop where
  inputText : route.inputCoinType = some terms.inputText
  outputText : route.outputCoinType = some terms.outputText
  inputType : texts.typeTag terms.inputText = .ok terms.inputType
  outputType : texts.typeTag terms.outputText = .ok terms.outputType
  targets : List.Forall₂ (IsTarget texts resolver slippageBps) route.hops terms.targets
  sender : texts.address request.walletAddress = .ok terms.sender
  destination : texts.address (destinationText request) = .ok terms.destination

/-- The pools are where the transaction looks for them. -/
structure Deployment.Of (texts : TextLib) (resolver : ObjectResolver) (publishedAt : String)
    (deployment : Deployment) : Prop where
  package : texts.address publishedAt = .ok deployment.package
  globalConfig : ∀ input, resolver.sharedObjectInput texts cetusGlobalConfig false = .ok input →
    input.reference = deployment.globalConfig
  partner : ∀ input, resolver.sharedObjectInput texts cetusPartner true = .ok input →
    input.reference = deployment.partner

/-! ## What is owed -/

section Owed

variable (texts : TextLib) (deployment : Deployment) (sui : TypeTag) (route : PoolRoute)
  (referralFee : ReferralFee) (input : BuildInput) (terms : Terms)

/-- The output goes into the gas coin. -/
abbrev Terms.ReturnsToGas : Prop := Cetus.ReturnsToGas terms.outputText terms.sender terms.destination

/-- **What there is after a swap** that gains this, with a gas coin of this value: the fee is paid on
one side, the output is handed out, and no coin, balance or receipt is left. -/
structure Swapped (gas gains : ℕ) (held : Holdings Receipt) : Prop where
  received : ∃ inputFee outputFee, IsFee texts referralFee terms.inputType route.inputFee inputFee ∧
    IsFee texts referralFee terms.outputType route.outputFee outputFee ∧
    held.received = inputFee ++ outputFee ++
      if terms.ReturnsToGas then [] else [(terms.destination, terms.outputType, gains)]
  gasCoin : held.items .gas = some (.coin sui (gas + if terms.ReturnsToGas then gains else 0))
  spent : ∀ ref, ref.command? ≠ none → ∀ item, held.items ref = some item → item.IsNumber
  withdrawn_le : held.withdrawn ≤ input.fromCoins.addressBalance.toNat
  calls : held.calls = terms.targets.length

/-- What is held before a swap. -/
def swapStart (gas : ℕ) : Holdings Receipt :=
  ⟨storeOf ((.gas, .coin sui gas) ::
    (inputObjects terms.inputText input.fromCoins).map (Sui.Coin.held terms.inputType)), 0, [], [], 0⟩

/-- A run of the commands. -/
def swapRun (answers : Answers) (gas : ℕ) (commands : List (Command Ref)) :
    Option (Holdings Receipt) :=
  Sui.execAll (network deployment answers
      ⟨some terms.inputType, input.fromCoins.addressBalance.toNat⟩) 0 commands
    (swapStart sui input terms gas)

/-- **The swap is filled**: the input is there, and each pool takes what it is offered. -/
def Fills (answers : Answers) (gas out : ℕ) : Prop :=
  (isSuiCoin terms.inputText = true → input.amount.toNat ≤ gas) ∧
    filled answers 0 (input.amount.toNat - route.inputFee) terms.targets = some out

/-- **The commands settle a swap** when it is filled, and the output after fees is at least this; they
abort when it is not. -/
structure Settles (commands : List (Command Ref)) (minOut : ℕ) : Prop where
  succeeds : ∀ answers gas out, Fills route input terms answers gas out →
    route.outputFee + minOut ≤ out →
    ∃ held, swapRun deployment sui input terms answers gas commands = some held ∧
      Swapped texts sui route referralFee input terms (gasAfter terms.inputText gas input.amount)
        (out - route.outputFee) held
  aborts : ∀ answers gas, (∀ out, Fills route input terms answers gas out →
    out < route.outputFee + minOut) →
    swapRun deployment sui input terms answers gas commands = none

/-- **What a swap transaction owes**: each limit does what it is for, and the commands settle the swap
with the minimum that is left of the quoted output after slippage. -/
structure SwapKept (resolver : ObjectResolver) (request : QuoteRequest) (slippageBps : UInt32)
    (transaction : Transaction) : Prop where
  limits : ∀ hop ∈ route.hops,
    PriceWithin hop slippageBps (sqrtPriceLimitWithSlippage hop slippageBps)
  settles : ∃ terms, IsTerms texts resolver request slippageBps route terms ∧
    Settles texts deployment sui route referralFee input terms transaction.commands
      (afterSlippage route.netAmountOut.toNat slippageBps)

end Owed

/-! ## The steps -/

section Steps

variable {texts : TextLib} {deployment : Deployment} {sui : TypeTag} {route : PoolRoute}
  {referralFee : ReferralFee} {input : BuildInput} {resolver : ObjectResolver}
  {request : QuoteRequest} {slippageBps : UInt32} {publishedAt : String}
  {commands : List (Command Ref)}

/-- The steps of a transaction, with the commands that there are after each. -/
structure Steps (texts : TextLib) (resolver : ObjectResolver) (deployment : Deployment)
    (request : QuoteRequest) (slippageBps : UInt32) (route : PoolRoute) (referralFee : ReferralFee)
    (input : BuildInput) (commands : List (Command Ref)) where
  inputText : String
  outputText : String
  sender : Sui.Address
  destination : Sui.Address
  (inputCoin swapCoin balance outputBalance outputCoin : Ref)
  swapAmount : UInt64
  repays : List PendingRepay
  (bought charged opened borrowed repaid closed paid checked : List (Command Ref))
  inputCoinType : route.inputCoinType = some inputText
  outputCoinType : route.outputCoinType = some outputText
  senderText : texts.address request.walletAddress = .ok sender
  destinationText : texts.address (destinationText request) = .ok destination
  buys : Sui.buildInputCoin texts inputText input.amount input.fromCoins [] =
    .ok (inputCoin, bought)
  charges : swapInput texts inputCoin input.amount route referralFee bought =
    .ok ((swapCoin, swapAmount), charged)
  firstHop : ∀ hop ∈ route.hops.head?, hop.amountIn = swapAmount
  opens : Sui.intoBalance texts inputText swapCoin charged = .ok (balance, opened)
  borrows : flashSwaps texts resolver slippageBps deployment.arguments route.hops true balance
    inputText [] opened = .ok ((outputBalance, repays), borrowed)
  repaysAll : repayFlashSwaps texts deployment.arguments repays borrowed = .ok ((), repaid)
  closes : Sui.fromBalance texts outputText outputBalance repaid = .ok (outputCoin, closed)
  pays : payOutputFee texts outputCoin route referralFee closed = .ok ((), paid)
  checks : checkMinOut outputCoin (applySlippageInBp route.netAmountOut slippageBps) paid =
    .ok ((), checked)
  delivers : deliverOutput outputCoin outputText sender destination checked = .ok ((), commands)

/-- **The steps of a transaction that is built.** -/
theorem exists_steps (hdeployed : deployment.Of texts resolver publishedAt)
    (hrun : buildSwapPtb texts resolver request slippageBps route referralFee publishedAt input [] =
      .ok ((), commands)) :
    Nonempty (Steps texts resolver deployment request slippageBps route referralFee input
      commands) := by
  obtain ⟨package, s₁, hpackage, hrun₁⟩ := Build.bind_eq_ok_iff.mp hrun
  obtain ⟨inputText, hinputText, hrun₂⟩ := Build.ofExcept_bind_eq_ok_iff.mp hrun₁
  obtain ⟨inputCoin, bought, hbuys, hrun₃⟩ := ofPtb_bind_eq_ok_iff.mp hrun₂
  obtain ⟨⟨swapCoin, swapAmount⟩, charged, hcharges, hrun₄⟩ := Build.bind_eq_ok_iff.mp hrun₃
  obtain ⟨firstHop, hfirstHop, hrun₅⟩ := Build.ofExcept_bind_eq_ok_iff.mp hrun₄
  by_cases hamount : firstHop.amountIn ≠ swapAmount
  · rw [if_pos hamount] at hrun₅
    cases hrun₅
  rw [if_neg hamount] at hrun₅
  obtain ⟨globalConfig, s₂, hglobalConfig, hrun₆⟩ := ofPtb_bind_eq_ok_iff.mp hrun₅
  obtain ⟨partner, s₃, hpartner, hrun₇⟩ := ofPtb_bind_eq_ok_iff.mp hrun₆
  obtain ⟨clock, s₄, hclock, hrun₈⟩ := ofPtb_bind_eq_ok_iff.mp hrun₇
  obtain ⟨balance, opened, hopens, hrun₉⟩ := ofPtb_bind_eq_ok_iff.mp hrun₈
  obtain ⟨⟨outputBalance, repays⟩, borrowed, hborrows, hrun₁₀⟩ := Build.bind_eq_ok_iff.mp hrun₉
  obtain ⟨⟨⟩, repaid, hrepays, hrun₁₁⟩ := Build.bind_eq_ok_iff.mp hrun₁₀
  obtain ⟨sender, s₅, hsender, hrun₁₂⟩ := Build.bind_eq_ok_iff.mp hrun₁₁
  obtain ⟨outputText, houtputText, hrun₁₃⟩ := Build.ofExcept_bind_eq_ok_iff.mp hrun₁₂
  obtain ⟨outputCoin, closed, hcloses, hrun₁₄⟩ := ofPtb_bind_eq_ok_iff.mp hrun₁₃
  obtain ⟨⟨⟩, paid, hpays, hrun₁₅⟩ := Build.bind_eq_ok_iff.mp hrun₁₄
  obtain ⟨⟨⟩, checked, hchecks, hrun₁₆⟩ := Build.bind_eq_ok_iff.mp hrun₁₅
  obtain ⟨destination, s₆, hdestination, hdelivers⟩ := Build.bind_eq_ok_iff.mp hrun₁₆
  obtain ⟨hpublished, rfl⟩ := suiAddress_eq_ok hpackage
  obtain rfl := Except.ok.inj (hpublished.symm.trans hdeployed.package)
  obtain ⟨configInput, hconfigInput, rfl, rfl⟩ := sharedObject_eq_ok hglobalConfig
  obtain ⟨partnerInput, hpartnerInput, rfl, rfl⟩ := sharedObject_eq_ok hpartner
  obtain ⟨rfl, rfl⟩ := Prod.mk.inj (Except.ok.inj hclock)
  obtain ⟨hsenderText, rfl⟩ := suiAddress_eq_ok hsender
  obtain ⟨hdestinationText, rfl⟩ := suiAddress_eq_ok hdestination
  rw [hdeployed.globalConfig _ hconfigInput, hdeployed.partner _ hpartnerInput] at hborrows hrepays
  have hfirst : ∀ hop ∈ route.hops.head?, hop.amountIn = swapAmount := by
    intro hop hhop
    have hhead := (okOr_eq_ok_iff.mp hfirstHop).symm.trans hhop
    rw [← Option.some.inj hhead]
    exact not_not.mp hamount
  exact ⟨{
    inputText, outputText, sender, destination, inputCoin, swapCoin, balance, outputBalance,
    outputCoin, swapAmount, repays, bought, opened, borrowed, closed, paid
    charged := _
    repaid := _
    checked := _
    buys := hbuys
    charges := hcharges
    firstHop := hfirst
    opens := hopens
    borrows := hborrows
    repaysAll := hrepays
    closes := hcloses
    pays := hpays
    checks := hchecks
    delivers := hdelivers
    inputCoinType := okOr_eq_ok_iff.mp hinputText
    outputCoinType := okOr_eq_ok_iff.mp houtputText
    senderText := hsenderText
    destinationText := hdestinationText }⟩

namespace Steps

variable (steps : Steps texts resolver deployment request slippageBps route referralFee input commands)

/-- The terms of the steps, with the types and targets that the texts say. -/
def terms (inputType outputType : TypeTag) (targets : List Target) : Terms :=
  ⟨steps.inputText, steps.outputText, inputType, outputType, targets, steps.sender,
    steps.destination⟩

/-- The texts can be read, and the hops feed each other. -/
lemma exists_isTerms (hchain : route.Chains) : ∃ inputType outputType targets,
    IsTerms texts resolver request slippageBps route (steps.terms inputType outputType targets) ∧
      Feeds inputType targets outputType := by
  obtain ⟨inputType, hinputType⟩ := Sui.exists_tag_of_moveCall steps.opens
  obtain ⟨targets, htargets⟩ := exists_targets steps.borrows
  have hhead : ∀ hop ∈ route.hops.head?, hop.inputCoinType = steps.inputText := by
    intro hop hhop
    have htext := steps.inputCoinType
    rw [PoolRoute.inputCoinType, hhop] at htext
    exact Option.some.inj htext
  obtain ⟨outputType, hfeeds, houtputType⟩ := exists_feeds htargets hchain hinputType hhead
  have hlast : (route.hops.getLast?.map Hop.outputCoinType).getD steps.inputText =
      steps.outputText :=
    congrArg (fun text : Option String => text.getD steps.inputText) steps.outputCoinType
  rw [hlast] at houtputType
  exact ⟨inputType, outputType, targets, ⟨steps.inputCoinType, steps.outputCoinType, hinputType,
    houtputType, htargets, steps.senderText, steps.destinationText⟩, hfeeds⟩

/-! ### Failing -/

section Fails

variable {answers : Answers} {funds : Sui.Funds} {h₀ : Holdings Receipt}

/-- What fails before the output is a coin. -/
lemma fails_of_repaid (h : Fails (network deployment answers funds) h₀ steps.repaid) :
    Fails (network deployment answers funds) h₀ commands :=
  ((((h.grow (Sui.grows_moveCall _ _ _ _ _) steps.closes).grow grows_payOutputFee steps.pays).grow
    (grows_checkMinOut _) steps.checks).grow (grows_deliverOutput _ _ _) steps.delivers)

/-- What fails before the hops are paid back. -/
lemma fails_of_borrowed (h : Fails (network deployment answers funds) h₀ steps.borrowed) :
    Fails (network deployment answers funds) h₀ commands :=
  steps.fails_of_repaid (h.grow (grows_repayFlashSwaps _ _) steps.repaysAll)

/-- What fails when the input is made. -/
lemma fails_of_bought (h : Fails (network deployment answers funds) h₀ steps.bought) :
    Fails (network deployment answers funds) h₀ commands :=
  steps.fails_of_borrowed (((h.grow (grows_swapInput _) steps.charges).grow
    (Sui.grows_moveCall _ _ _ _ _) steps.opens).grow (grows_flashSwaps _ _ _ _ _ _) steps.borrows)

end Fails

/-! ### Reaching -/

section Reach

variable {answers : Answers} {inputType outputType : TypeTag} {targets : List Target} {gas : ℕ}

/-- What is held before the steps. -/
lemma reach_swapStart {funds : Sui.Funds} (terms : Terms) (gas : ℕ)
    (hnodup : (input.fromCoins.coins.map Sui.Coin.objectId).Nodup) :
    Reach (network deployment answers funds) (swapStart sui input terms gas) []
      ⟨(.gas, .coin sui gas) :: (inputObjects terms.inputText input.fromCoins).map
        (Sui.Coin.held terms.inputType), 0, [], [], 0⟩ := by
  refine Sui.reach_nil _ ?_ sui terms.inputType gas
  rw [inputObjects]
  by_cases hnative : isSuiCoin terms.inputText = true
  · rw [if_pos hnative]
    exact List.nodup_nil
  · rw [if_neg hnative]
    exact hnodup

/-- **The balance that goes into the first hop.** -/
theorem reach_opened {h₀ : Holdings Receipt}
    (hinputType : texts.typeTag steps.inputText = .ok inputType)
    (hsui : isSuiCoin steps.inputText = true → inputType = sui)
    (h : Reach (network deployment answers ⟨some inputType, input.fromCoins.addressBalance.toNat⟩)
      h₀ [] ⟨(.gas, .coin sui gas) :: (inputObjects steps.inputText input.fromCoins).map
        (Sui.Coin.held inputType), 0, [], [], 0⟩)
    (hgas : isSuiCoin steps.inputText = true → input.amount.toNat ≤ gas) :
    ∃ left withdrawn fee, OnlyObjects left ∧ withdrawn ≤ input.fromCoins.addressBalance.toNat ∧
      IsFee texts referralFee inputType route.inputFee fee ∧
      steps.swapAmount.toNat = input.amount.toNat - route.inputFee ∧
      Reach (network deployment answers ⟨some inputType, input.fromCoins.addressBalance.toNat⟩) h₀
        steps.opened
        ⟨(steps.balance, .balance inputType (input.amount.toNat - route.inputFee)) ::
          (.gas, .coin sui (gasAfter steps.inputText gas input.amount)) :: left,
          withdrawn, fee, [], 0⟩ := by
  obtain ⟨left, withdrawn, hbought, honly, hwithdrawn⟩ :=
    Sui.reach_buildInputCoin steps.buys hinputType hsui rfl h hgas
  obtain ⟨hswapCoin, hswapAmount, fee, hfee, hcharged⟩ :=
    reach_swapInput steps.charges hbought (List.Perm.refl _)
  have hopens := steps.opens
  rw [hswapCoin] at hopens
  exact ⟨left, withdrawn, fee, honly, hwithdrawn, hfee, hswapAmount,
    Sui.reach_intoBalance hinputType hopens hcharged (List.Perm.refl _)⟩

/-- **The hops and their payment**: they fail when a pool does not take what it is offered. -/
theorem reach_or_fails_repaid {funds : Sui.Funds} {h₀ : Holdings Receipt}
    {snap : Snapshot Receipt} {rest : List (Ref × Item Receipt)} {amount : ℕ}
    (hinputType : texts.typeTag steps.inputText = .ok inputType)
    (htargets : List.Forall₂ (IsTarget texts resolver slippageBps) route.hops targets)
    (hfeeds : Feeds inputType targets outputType) (hamount : steps.swapAmount.toNat = amount)
    (h : Reach (network deployment answers funds) h₀ steps.opened snap)
    (hperm : snap.live.Perm ((steps.balance, .balance inputType amount) :: rest)) :
    (filled answers snap.calls amount targets = none ∧
      Fails (network deployment answers funds) h₀ commands) ∨
    ∃ out numbers, filled answers snap.calls amount targets = some out ∧ OnlyNumbers numbers ∧
      Reach (network deployment answers funds) h₀ steps.repaid { snap with
        live := (steps.outputBalance, .balance outputType out) :: (numbers ++ rest)
        calls := snap.calls + targets.length } := by
  have hfirst : true = true → ∀ hop ∈ route.hops.head?, hop.amountIn.toNat = amount :=
    fun _ hop hhop => (congrArg UInt64.toNat (steps.firstHop hop hhop)).trans hamount
  rcases reach_or_fails_flashSwaps htargets hinputType hfeeds hfirst steps.borrows h hperm with
    ⟨hnone, hfails⟩ | ⟨debts, numbers, out, hrepays, rfl, hdebts, howed, hnumbers, hborrowed⟩
  · exact .inl ⟨hnone, steps.fails_of_borrowed hfails⟩
  · have hrun := steps.repaysAll
    rw [hrepays, List.nil_append] at hrun
    have hmoved := (List.perm_append_comm_assoc
      [(steps.outputBalance, Item.balance outputType out)] (debts.flatMap Debt.items)
        (numbers ++ rest))
    obtain ⟨hreach, hfails⟩ := reach_or_fails_repayFlashSwaps hdebts hrun hborrowed hmoved
    rw [howed.filled_eq, ← htargets.length_eq]
    by_cases hpaid : ∀ debt ∈ debts, debt.payAmount = debt.amount
    · rw [if_pos hpaid]
      exact .inr ⟨out, numbers, rfl, hnumbers, hreach hpaid⟩
    · rw [if_neg hpaid]
      exact .inl ⟨rfl, steps.fails_of_repaid (hfails hpaid)⟩

/-- **What becomes of the output**: fee, check and delivery. -/
theorem reach_delivered {funds : Sui.Funds} {h₀ : Holdings Receipt} {snap : Snapshot Receipt}
    {rest : List (Ref × Item Receipt)} {out : ℕ}
    (houtputType : texts.typeTag steps.outputText = .ok outputType)
    (hsui : isSuiCoin steps.outputText = true → outputType = sui)
    (h : Reach (network deployment answers funds) h₀ steps.repaid snap)
    (hperm : snap.live.Perm ((steps.outputBalance, .balance outputType out) ::
      (.gas, .coin sui gas) :: rest))
    (hout : route.outputFee + (applySlippageInBp route.netAmountOut slippageBps).toNat ≤ out) :
    ∃ fee, IsFee texts referralFee outputType route.outputFee fee ∧
      Reach (network deployment answers funds) h₀ commands { snap with
        live := (.gas, .coin sui (gas +
          if ReturnsToGas steps.outputText steps.sender steps.destination then out - route.outputFee
          else 0)) :: rest
        received := snap.received ++ fee ++
          if ReturnsToGas steps.outputText steps.sender steps.destination then []
          else [(steps.destination, outputType, out - route.outputFee)] } := by
  have hclosed := Sui.reach_fromBalance houtputType steps.closes h hperm
  obtain ⟨fee, hfee, hpaid⟩ := reach_payOutputFee steps.pays hclosed (List.Perm.refl _) (by omega)
  have hchecked := reach_checkMinOut steps.checks hpaid (List.Perm.refl _) (by omega)
  exact ⟨fee, hfee, reach_deliverOutput steps.delivers hsui hchecked (List.Perm.refl _)⟩

/-- An output that is too small. -/
lemma fails_delivered {funds : Sui.Funds} {h₀ : Holdings Receipt} {snap : Snapshot Receipt}
    {rest : List (Ref × Item Receipt)} {out : ℕ}
    (houtputType : texts.typeTag steps.outputText = .ok outputType)
    (h : Reach (network deployment answers funds) h₀ steps.repaid snap)
    (hperm : snap.live.Perm ((steps.outputBalance, .balance outputType out) :: rest))
    (hout : out < route.outputFee + (applySlippageInBp route.netAmountOut slippageBps).toNat) :
    Fails (network deployment answers funds) h₀ commands := by
  have hclosed := Sui.reach_fromBalance houtputType steps.closes h hperm
  by_cases hfee : route.outputFee ≤ out
  · obtain ⟨fee, -, hpaid⟩ := reach_payOutputFee steps.pays hclosed (List.Perm.refl _) hfee
    have hchecked := fails_checkMinOut steps.checks hpaid (List.Perm.refl _) (by omega)
    exact hchecked.grow (grows_deliverOutput _ _ _) steps.delivers
  · have hpaid := fails_payOutputFee steps.pays hclosed (List.Perm.refl _) (not_le.mp hfee)
    exact (hpaid.grow (grows_checkMinOut _) steps.checks).grow (grows_deliverOutput _ _ _)
      steps.delivers

end Reach

/-! ### Settling -/

section Settle

variable {inputType outputType : TypeTag} {targets : List Target}

/-- **The commands settle a swap** with the minimum that they check. -/
theorem settles (hterms : IsTerms texts resolver request slippageBps route
      (steps.terms inputType outputType targets)) (hfeeds : Feeds inputType targets outputType)
    (hsui : ∀ coinType, isSuiCoin coinType = true → texts.typeTag coinType = .ok sui)
    (hnodup : (input.fromCoins.coins.map Sui.Coin.objectId).Nodup) :
    Settles texts deployment sui route referralFee input (steps.terms inputType outputType targets)
      commands (applySlippageInBp route.netAmountOut slippageBps).toNat := by
  have hinputSui : isSuiCoin steps.inputText = true → inputType = sui := fun hnative =>
    Except.ok.inj (hterms.inputType.symm.trans (hsui _ hnative))
  have houtputSui : isSuiCoin steps.outputText = true → outputType = sui := fun hnative =>
    Except.ok.inj (hterms.outputType.symm.trans (hsui _ hnative))
  constructor
  · rintro answers gas out ⟨hgas, hfilled⟩ hout
    have hstart := @reach_swapStart deployment sui input answers
      ⟨some inputType, input.fromCoins.addressBalance.toNat⟩
      (steps.terms inputType outputType targets) gas hnodup
    obtain ⟨left, withdrawn, inputFee, honly, hwithdrawn, hinputFee, hamount, hopened⟩ :=
      steps.reach_opened hterms.inputType hinputSui hstart hgas
    rcases steps.reach_or_fails_repaid hterms.inputType hterms.targets hfeeds hamount hopened
      (List.Perm.refl _) with ⟨hnone, -⟩ | ⟨out', numbers, hsome, hnumbers, hrepaid⟩
    · cases hnone.symm.trans hfilled
    obtain rfl := Option.some.inj (hsome.symm.trans hfilled)
    obtain ⟨outputFee, houtputFee, held, hrun, hof⟩ := steps.reach_delivered hterms.outputType
      houtputSui hrepaid (List.perm_middle.cons _) hout
    refine ⟨held, hrun, ⟨inputFee, outputFee, hinputFee, houtputFee, hof.received⟩,
      hof.get (List.Perm.refl _), fun ref href item hitem => ?_, ?_, ?_⟩
    · rcases List.mem_cons.mp ((hof.owns.mem_iff ref item).mp hitem) with hgasCoin | hmem
      · obtain ⟨rfl, -⟩ := Prod.mk.inj hgasCoin
        exact absurd rfl href
      · rcases List.mem_append.mp hmem with hmem | hmem
        · exact hnumbers _ hmem
        · exact absurd (honly ref (List.mem_map_of_mem hmem)) href
    · rw [hof.withdrawn]
      exact hwithdrawn
    · rw [hof.calls]
      exact Nat.zero_add _
  · intro answers gas hnot
    have hstart := @reach_swapStart deployment sui input answers
      ⟨some inputType, input.fromCoins.addressBalance.toNat⟩
      (steps.terms inputType outputType targets) gas hnodup
    by_cases hgas : isSuiCoin steps.inputText = true → input.amount.toNat ≤ gas
    · obtain ⟨left, withdrawn, inputFee, -, -, -, hamount, hopened⟩ :=
        steps.reach_opened hterms.inputType hinputSui hstart hgas
      rcases steps.reach_or_fails_repaid hterms.inputType hterms.targets hfeeds hamount hopened
        (List.Perm.refl _) with ⟨-, hfails⟩ | ⟨out, numbers, hsome, -, hrepaid⟩
      · exact hfails
      · exact steps.fails_delivered hterms.outputType hrepaid (List.Perm.refl _)
          (hnot out ⟨hgas, hsome⟩)
    · exact steps.fails_of_bought (Sui.fails_buildInputCoin steps.buys hstart hgas)

end Settle

end Steps

/-! ## One minimum -/

/-- A target is what the texts say. -/
lemma IsTarget.unique {hop : Hop} {target target' : Target}
    (h : IsTarget texts resolver slippageBps hop target)
    (h' : IsTarget texts resolver slippageBps hop target') : target = target' := by
  obtain ⟨poolInput, hpoolInput, hpool⟩ := h.pool
  obtain ⟨poolInput', hpoolInput', hpool'⟩ := h'.pool
  obtain rfl := Except.ok.inj (hpoolInput.symm.trans hpoolInput')
  cases target
  cases target'
  rw [Target.mk.injEq]
  exact ⟨hpool.symm.trans hpool', Except.ok.inj (h.coinA.symm.trans h'.coinA),
    Except.ok.inj (h.coinB.symm.trans h'.coinB), h.a2b.symm.trans h'.a2b, h.limit.symm.trans h'.limit⟩

/-- Terms are what the texts say. -/
lemma IsTerms.unique {terms terms' : Terms}
    (h : IsTerms texts resolver request slippageBps route terms)
    (h' : IsTerms texts resolver request slippageBps route terms') : terms = terms' := by
  have hinputText := Option.some.inj (h.inputText.symm.trans h'.inputText)
  have houtputText := Option.some.inj (h.outputText.symm.trans h'.outputText)
  have htargets : terms.targets = terms'.targets :=
    List.right_unique_forall₂' (fun _ _ _ htarget htarget' => htarget.unique htarget')
      h.targets h'.targets
  have hinputType := h'.inputType
  have houtputType := h'.outputType
  rw [← hinputText, h.inputType] at hinputType
  rw [← houtputText, h.outputType] at houtputType
  cases terms
  cases terms'
  rw [Terms.mk.injEq]
  exact ⟨hinputText, houtputText, Except.ok.inj hinputType, Except.ok.inj houtputType, htargets,
    Except.ok.inj (h.sender.symm.trans h'.sender),
    Except.ok.inj (h.destination.symm.trans h'.destination)⟩

/-- Pools that take what they are offered, and give this at last. -/
def obliging (count out : ℕ) : Answers := fun call swap =>
  some ⟨swap.amount, if call + 1 = count then out else 0⟩

lemma filled_obliging {targets : List Target} (hne : targets ≠ []) (calls amount out : ℕ) :
    filled (obliging (calls + targets.length) out) calls amount targets = some out := by
  induction targets generalizing calls amount with
  | nil => exact absurd rfl hne
  | cons target targets ih =>
    rw [filled, obliging]
    show (if amount = amount then filled _ _ _ _ else none) = _
    rw [if_pos rfl]
    by_cases hlast : targets = []
    · rw [hlast]
      exact congrArg some (if_pos rfl)
    · have hlength : calls + (target :: targets).length = calls + 1 + targets.length := by
        rw [List.length_cons, Nat.add_assoc, Nat.add_comm 1]
      rw [hlength]
      exact ih hlast _ _

/-- **The minimum of a swap is one.** -/
theorem Settles.le {terms : Terms} {minOut minOut' : ℕ} (hne : terms.targets ≠ [])
    (h : Settles texts deployment sui route referralFee input terms commands minOut)
    (h' : Settles texts deployment sui route referralFee input terms commands minOut') :
    minOut' ≤ minOut := by
  by_contra hlt
  have hfilled := filled_obliging hne 0 (input.amount.toNat - route.inputFee)
    (route.outputFee + minOut)
  obtain ⟨held, hrun, -⟩ := h.succeeds _ input.amount.toNat _ ⟨fun _ => le_refl _, hfilled⟩ (le_refl _)
  have habort := h'.aborts _ input.amount.toNat fun out hfills => by
    rw [Option.some.inj (hfills.2.symm.trans hfilled)]
    omega
  cases hrun.symm.trans habort

end Steps

/-! ## When a swap is settled -/

section Built

variable {texts : TextLib} {tryBuild : Transaction → Except String Unit} {sui : TypeTag}
  {deployment : Deployment} {resolver : ObjectResolver} {request : QuoteRequest}
  {slippageBps : UInt32} {route : PoolRoute} {referralFee : ReferralFee} {publishedAt : String}
  {input : BuildInput} {transaction : Transaction}

/-- **A transaction that is built settles its swap** with the minimum that it checks. -/
theorem exists_settles
    (hbuild : buildTransaction texts tryBuild resolver request slippageBps route referralFee
      publishedAt input = .ok transaction)
    (hchain : route.Chains)
    (hsui : ∀ coinType, isSuiCoin coinType = true → texts.typeTag coinType = .ok sui)
    (hnodup : (input.fromCoins.coins.map Sui.Coin.objectId).Nodup)
    (hdeployed : deployment.Of texts resolver publishedAt) :
    ∃ terms, IsTerms texts resolver request slippageBps route terms ∧ terms.targets ≠ [] ∧
      Settles texts deployment sui route referralFee input terms transaction.commands
        (applySlippageInBp route.netAmountOut slippageBps).toNat := by
  obtain ⟨⟨⟨⟩, ptb⟩, hrun, hfinish⟩ := bind_eq_ok_iff.mp hbuild
  have hcommands : transaction.commands = ptb :=
    congrArg Transaction.commands (Sui.finishTransaction_eq_ok (mapError_eq_ok_iff.mp hfinish))
  obtain ⟨steps⟩ := exists_steps hdeployed hrun
  obtain ⟨inputType, outputType, targets, hterms, hfeeds⟩ := steps.exists_isTerms hchain
  refine ⟨_, hterms, fun habsurd => ?_, ?_⟩
  · have hlength := hterms.targets.length_eq
    rw [habsurd, List.length_nil] at hlength
    have hinputText := hterms.inputText
    rw [PoolRoute.inputCoinType, List.length_eq_zero_iff.mp hlength] at hinputText
    cases hinputText
  · rw [hcommands]
    exact steps.settles hterms hfeeds hsui hnodup

/-- What a transaction owes tells its minimum. -/
lemma SwapKept.afterSlippage_eq {terms : Terms}
    (h : SwapKept texts deployment sui route referralFee input resolver request slippageBps
      transaction)
    (hterms : IsTerms texts resolver request slippageBps route terms) (hne : terms.targets ≠ [])
    (hsettles : Settles texts deployment sui route referralFee input terms transaction.commands
      (applySlippageInBp route.netAmountOut slippageBps).toNat) :
    (applySlippageInBp route.netAmountOut slippageBps).toNat =
      afterSlippage route.netAmountOut.toNat slippageBps := by
  obtain ⟨terms', hterms', hkept⟩ := h.settles
  obtain rfl := hterms'.unique hterms
  exact le_antisymm (hkept.le hne hsettles) (hsettles.le hne hkept)

end Built

/-- **When a swap transaction does what it owes**: exactly when the product of the minimum fits 64 bits
and the prices leave room for their limits.

**Proof sketch.** The commands settle the swap with the minimum that they check. Pools that take what
they are offered, and give just that minimum at last, tell it from any other one; so the transaction does
what it owes exactly if its minimum is the right one. -/
theorem swaps_spec (texts : TextLib) (tryBuild : Transaction → Except String Unit) (sui : TypeTag)
    (deployment : Deployment) {resolver : ObjectResolver} {request : QuoteRequest}
    {slippageBps : UInt32} {route : PoolRoute} {referralFee : ReferralFee} {publishedAt : String}
    {input : BuildInput} {transaction : Transaction}
    (hbuild : buildTransaction texts tryBuild resolver request slippageBps route referralFee
      publishedAt input = .ok transaction)
    (hchain : route.Chains)
    (hsui : ∀ coinType, isSuiCoin coinType = true → texts.typeTag coinType = .ok sui)
    (hnodup : (input.fromCoins.coins.map Sui.Coin.objectId).Nodup)
    (hdeployed : deployment.Of texts resolver publishedAt) :
    SwapKept texts deployment sui route referralFee input resolver request slippageBps transaction ↔
      route.netAmountOut.toNat * (10000 - min slippageBps.toNat 10000) < 2 ^ 64 ∧
        ∀ hop ∈ route.hops, PriceFits hop slippageBps := by
  obtain ⟨terms, hterms, hne, hsettles⟩ := exists_settles hbuild hchain hsui hnodup hdeployed
  constructor
  · intro h
    exact ⟨toNat_applySlippageInBp_eq_iff.mp (h.afterSlippage_eq hterms hne hsettles),
      fun hop hhop => priceWithin_iff.mp (h.limits hop hhop)⟩
  · rintro ⟨hmin, hprices⟩
    refine ⟨fun hop hhop => priceWithin_iff.mpr (hprices hop hhop), terms, hterms, ?_⟩
    rw [← toNat_applySlippageInBp_eq_iff.mpr hmin]
    exact hsettles

/-! ## Some swaps -/

/-- The parsers on the texts of the swaps below. -/
def swapTexts : TextLib where
  address text := okOr (decodeHexArray 32 text) "invalid address"
  digest _ := .error "invalid digest"
  typeTag text :=
    if isSuiCoin text then .ok ⟨Sui.suiCoinType⟩
    else if text = "0x9::usdc::USDC" ∨ text = "0xd::meme::MEME" then .ok ⟨text⟩
    else .error "invalid type"
  identifier _ := .ok ()
  decodeBase64 _ := .error "invalid base64"
  addressText _ := ""

/-- The address of a text. -/
def swapAddress (text : String) : Sui.Address :=
  (decodeHexArray 32 text).getD (FixedBytes.zeros 32)

/-- The account of the swaps below. -/
def swapAccount : String := "0x0000000000000000000000000000000000000000000000000000000000000007"

/-- The package of the pools. -/
def swapPackage : String := "0x000000000000000000000000000000000000000000000000000000000000000c"

/-- A pool. -/
def swapPool : String := "0x0000000000000000000000000000000000000000000000000000000000000021"

/-- Another pool. -/
def otherSwapPool : String := "0x0000000000000000000000000000000000000000000000000000000000000022"

/-- The shared objects have one version. -/
def swapResolver : ObjectResolver := ⟨fun _ => some 1⟩

/-- The pools. -/
def swapDeployment : Deployment where
  package := swapAddress swapPackage
  package_ne := by decide +kernel
  globalConfig := .shared (swapAddress cetusGlobalConfig) 1
  partner := .shared (swapAddress cetusPartner) 1

/-- A route over two pools, in both directions. -/
def swapRoute (amountOut feeAmount : UInt64) : PoolRoute where
  hops := [⟨swapPool, "0x9::usdc::USDC", "0x2::sui::SUI", true, 1000000, 300000000,
      319000000000000000000⟩,
    ⟨otherSwapPool, "0xd::meme::MEME", "0x2::sui::SUI", false, 300000000, amountOut,
      18446744073709551616⟩]
  feeAmount := feeAmount
  feeSide := .output

/-- A request for a swap to its own account. -/
def swapRequest : QuoteRequest :=
  ⟨⟨.sui, some "0x9::usdc::USDC"⟩, ⟨.sui, some "0xd::meme::MEME"⟩, 1000000, swapAccount, ""⟩

/-- An object with this last byte in its id. -/
def swapObject (id : UInt8) (balance : UInt64) : Sui.Coin :=
  ⟨balance, Sui.byteAddress id, 1, FixedBytes.zeros 32⟩

/-- What the swaps below are made of. -/
def swapBuildInput : BuildInput where
  transaction := ⟨swapAccount, 25000000, [(swapObject 18 100000000).toInput]⟩
  amount := 1000000
  fromCoins := ⟨"0x9::usdc::USDC", [swapObject 16 700000, swapObject 17 400000], 0⟩

/-- The transaction of a swap. -/
def swapBuilt (amountOut feeAmount : UInt64) : Except Failure Transaction :=
  buildTransaction swapTexts (fun _ => .ok ()) swapResolver swapRequest 50
    (swapRoute amountOut feeAmount) ⟨swapAccount, 50⟩ swapPackage swapBuildInput

lemma swapTexts_typeTag {coinType : String} (h : isSuiCoin coinType = true) :
    swapTexts.typeTag coinType = .ok ⟨Sui.suiCoinType⟩ := by
  rw [swapTexts]
  exact if_pos h

lemma swapAddress_of_eq_ok {text : String} {address : Sui.Address}
    (h : swapTexts.address text = .ok address) : swapAddress text = address := by
  rw [swapAddress, okOr_eq_ok_iff.mp h]
  rfl

lemma swapResolver_eq_ok {objectId : String} {mutable : Bool} {object : Sui.ObjectInput}
    (h : swapResolver.sharedObjectInput swapTexts objectId mutable = .ok object) :
    object.reference = .shared (swapAddress objectId) 1 := by
  obtain ⟨version, hversion, h₁⟩ := bind_eq_ok_iff.mp h
  obtain ⟨address, haddress, h₂⟩ := bind_eq_ok_iff.mp h₁
  obtain rfl := Except.ok.inj h₂
  obtain rfl := Except.ok.inj hversion
  rw [swapAddress_of_eq_ok (mapError_eq_ok_iff.mp haddress)]
  rfl

/-- The pools are where the transaction looks for them. -/
lemma swapDeployment_of : swapDeployment.Of swapTexts swapResolver swapPackage where
  package := by
    have hsome : (decodeHexArray 32 swapPackage).isSome = true := by decide +kernel
    obtain ⟨address, heq⟩ := Option.isSome_iff_exists.mp hsome
    have haddress : swapTexts.address swapPackage = .ok address :=
      (@okOr_eq_ok_iff _ _ _ "invalid address" _).mpr heq
    rw [haddress]
    exact congrArg Except.ok (swapAddress_of_eq_ok haddress).symm
  globalConfig _ h := swapResolver_eq_ok h
  partner _ h := swapResolver_eq_ok h

/-- The hops feed each other. -/
lemma chains_swapRoute (amountOut feeAmount : UInt64) : (swapRoute amountOut feeAmount).Chains :=
  .cons_cons rfl (.singleton _)

/-- The prices are those of pools. -/
lemma priceFits_swapRoute (amountOut feeAmount : UInt64) :
    ∀ hop ∈ (swapRoute amountOut feeAmount).hops, PriceFits hop 50 := by
  refine List.forall_mem_cons.mpr ⟨?_, List.forall_mem_singleton.mpr ?_⟩
  · exact priceFits_of_mem_bounds (show minSqrtPriceX64.toNat ≤ 319000000000000000000 by decide)
      (show 319000000000000000000 ≤ maxSqrtPriceX64.toNat by decide)
  · exact priceFits_of_mem_bounds (show minSqrtPriceX64.toNat ≤ 18446744073709551616 by decide)
      (show 18446744073709551616 ≤ maxSqrtPriceX64.toNat by decide)

/-- A swap that does what it owes. -/
theorem swaps_spec_sample : ∃ transaction, swapBuilt 5000000000 25000000 = .ok transaction ∧
    SwapKept swapTexts swapDeployment ⟨Sui.suiCoinType⟩ (swapRoute 5000000000 25000000)
      ⟨swapAccount, 50⟩ swapBuildInput swapResolver swapRequest 50 transaction := by
  have hbuilt : (swapBuilt 5000000000 25000000).toOption.isSome = true := by decide +kernel
  obtain ⟨transaction, htransaction⟩ := Option.isSome_iff_exists.mp hbuilt
  have hbuild := toOption_eq_some_iff.mp htransaction
  exact ⟨transaction, hbuild, (swaps_spec swapTexts (fun _ => .ok ()) ⟨Sui.suiCoinType⟩
    swapDeployment hbuild (chains_swapRoute _ _) (fun _ => swapTexts_typeTag) (by decide +kernel)
    swapDeployment_of).mpr ⟨by decide +kernel, priceFits_swapRoute _ _⟩⟩

/-- **A swap that is built and does not do what it owes**: the product of its minimum wraps. -/
theorem swaps_fall_short :
    (∀ hop ∈ (swapRoute 2000000000000000 0).hops, PriceFits hop 50) ∧
    (swapRoute 2000000000000000 0).Chains ∧
    (applySlippageInBp 2000000000000000 50).toNat < afterSlippage 2000000000000000 50 ∧
    ∃ transaction, swapBuilt 2000000000000000 0 = .ok transaction ∧
      ¬SwapKept swapTexts swapDeployment ⟨Sui.suiCoinType⟩ (swapRoute 2000000000000000 0)
        ⟨swapAccount, 50⟩ swapBuildInput swapResolver swapRequest 50 transaction := by
  have hless : (applySlippageInBp 2000000000000000 50).toNat < afterSlippage 2000000000000000 50 := by
    decide +kernel
  have hbuilt : (swapBuilt 2000000000000000 0).toOption.isSome = true := by decide +kernel
  obtain ⟨transaction, htransaction⟩ := Option.isSome_iff_exists.mp hbuilt
  have hbuild := toOption_eq_some_iff.mp htransaction
  refine ⟨priceFits_swapRoute _ _, chains_swapRoute _ _, hless, transaction, hbuild, fun h => ?_⟩
  obtain ⟨terms, hterms, hne, hsettles⟩ := exists_settles hbuild (chains_swapRoute _ _)
    (fun _ => swapTexts_typeTag) (by decide +kernel) swapDeployment_of
  have heq := h.afterSlippage_eq hterms hne hsettles
  exact absurd heq hless.ne

example : swapAddress swapPool ≠ swapAddress swapPackage := by decide +kernel

end GemCore.Cetus

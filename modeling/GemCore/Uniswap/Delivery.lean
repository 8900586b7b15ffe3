import GemCore.Uniswap.Router

/-!
# Command lists do what was quoted

A command list is run against pools that pay at least the quoted amount. With the fee on the
output, the list takes the input from the user, pays the referrer, pays the user and leaves
nothing in the router. With the fee on the input, the output of the swap goes to the user
directly, so that there is nothing in the router for a native output to be unwrapped from.

## Main definitions

* `Setting` — the call that a command list is built for.
* `QuotedPool` — the pools pay what was quoted.
* `Delivered` — what the user was promised.

## Main results

* `Setting.call_inputFee`, `Setting.call_outputFee` — the holdings after the call.
* `buildCommands_delivers_iff` — when the promise is kept.
-/

namespace GemCore.Uniswap

open Lib

open Ledger (only)

/-- The asset that a side of a request is paid in. -/
def assetFor (eth : Eth) (asset : AssetId) (token : Address) : Asset :=
  if requiresNativeWrapping eth asset then .native else .token token

/-- The assets that a swap goes through. -/
def touched (R : Router) (p : ParsedRequest) : List Asset :=
  [.native, .token p.tokenIn, .token p.tokenOut, .token R.weth]

/-- The amount that is swapped. -/
def swappedAmount (amountIn : U256) (feeTokenIsInput : Bool) : U256 :=
  if feeTokenIsInput then amountIn - inputFee amountIn evmReferralFee.bps else amountIn

/-- What the pools pay for it. -/
def poolOutput (R : Router) (amountIn : U256) (path : List UInt8) (feeTokenIsInput : Bool) : ℕ :=
  R.swap path (swappedAmount amountIn feeTokenIsInput).toNat

/-- The user's approval of an amount: a signed permit, or what was approved before. -/
def Approved (R : Router) (w : World) (token : Address) (n : ℕ) : Option Permit2Permit → Prop
  | some permit => R.permitValid permit = true ∧ permit.token = token ∧
      permit.spender = R.address ∧ n ≤ permit.amount.toNat
  | none => n ≤ (w.allowance token).toNat

section Promise

variable (eth : Eth) (R : Router) (w : World) (request : QuoteRequest) (p : ParsedRequest)
  (path : List UInt8) (permit : Option Permit2Permit) (feeRecipient : Address)
  (feeTokenIsInput : Bool) (quoteAmount : U256)

/-- The call a command list is built for: the wallet of the request calls the router of the
chain, the referrer is a third party, the path leads from one token to the other, and the
user has the input and has approved it. The router keeps nothing between calls. -/
structure Setting : Prop where
  weth : ∀ contract, eth.wethContract request.fromAsset.chain = some contract →
    eth.parse contract = some R.weth
  wallet : eth.parse request.walletAddress = some R.sender
  referrer : eth.parse evmReferralFee.address = some feeRecipient
  sender_ne_router : R.sender ≠ R.address
  referrer_ne_router : feeRecipient ≠ R.address
  referrer_ne_sender : feeRecipient ≠ R.sender
  sender_ne_mark : R.sender ≠ addressThis
  referrer_ne_mark : feeRecipient ≠ msgSender ∧ feeRecipient ≠ addressThis
  tokens_ne_mark : p.tokenIn ≠ markAddress 0 ∧ p.tokenOut ≠ markAddress 0
  path : ∃ hops, path = p.tokenIn.1 ++ hops ++ p.tokenOut.1
  funded : p.amountIn.toNat ≤ w.holds (assetFor eth request.fromAsset p.tokenIn) R.sender
  approved : requiresNativeWrapping eth request.fromAsset = false →
    Approved R w p.tokenIn p.amountIn.toNat permit
  empty : ∀ asset ∈ touched R p, w.holds asset R.address = 0

/-- The pools pay at least the amount the quoter answered, and the commands were built with at
most the value of the quote. -/
def QuotedPool : Prop :=
  ∃ quoted : U256, quoted.toNat ≤ poolOutput R p.amountIn path feeTokenIsInput ∧
    quoteAmount.toNat ≤ (toValue feeTokenIsInput quoted).toNat

/-- What the referrer is due. -/
def referralShare : ℕ :=
  (if feeTokenIsInput then p.amountIn.toNat else poolOutput R p.amountIn path feeTokenIsInput) *
    evmReferralFee.bps.toNat / 10000

/-- **What the user was promised**: exactly the input is taken, at least the quote arrives, the
referrer gets its share, and the router keeps nothing. -/
structure Delivered (w' : World) : Prop where
  user : ∃ received, quoteAmount.toNat ≤ received ∧
    ∀ asset, asset = assetFor eth request.fromAsset p.tokenIn ∨
        asset = assetFor eth request.toAsset p.tokenOut →
      (w'.holds + only (assetFor eth request.fromAsset p.tokenIn) R.sender p.amountIn.toNat)
          asset R.sender =
        (w.holds + only (assetFor eth request.toAsset p.tokenOut) R.sender received) asset R.sender
  referrer : ∀ feeToken, feeToken = (if feeTokenIsInput then p.tokenIn else p.tokenOut) →
    w'.holds (.token feeToken) feeRecipient =
      w.holds (.token feeToken) feeRecipient + referralShare R p path feeTokenIsInput
  router : ∀ asset ∈ touched R p, w'.holds asset R.address = 0

end Promise

/-! ## Requests -/

section Requests

variable {eth : Eth} {request : QuoteRequest} {p : ParsedRequest} {isEvmChain : Chain → Bool}
  {parseError : String}

/-- What a parsed request says about its request. -/
lemma parseRequest_eq_ok (h : parseRequest eth isEvmChain parseError request = .ok p) :
    request.fromAsset.chain = request.toAsset.chain ∧
      parseOrNativeAddress eth request.fromAsset = .ok p.tokenIn ∧
      parseOrNativeAddress eth request.toAsset = .ok p.tokenOut ∧
      p.amountIn.toNat = request.value := by
  rw [parseRequest, guard_eq_ok_iff, guard_eq_ok_iff, not_not] at h
  obtain ⟨hchain, -, h⟩ := h
  obtain ⟨tokenIn, hin, h⟩ := bind_eq_ok_iff.mp h
  obtain ⟨tokenOut, hout, h⟩ := bind_eq_ok_iff.mp h
  rw [guard_eq_ok_iff] at h
  obtain ⟨hlt, h⟩ := h
  obtain rfl := Except.ok.inj h
  refine ⟨hchain, hin, hout, ?_⟩
  rw [BitVec.toNat_ofNat, Nat.mod_eq_of_lt (not_le.mp hlt)]

/-- An asset that is wrapped is traded as the wrapped token of its chain. -/
lemma parseOrNativeAddress_wrapped {asset : AssetId} {token weth : Address}
    (hweth : ∀ contract, eth.wethContract asset.chain = some contract →
      eth.parse contract = some weth)
    (hwrap : requiresNativeWrapping eth asset = true)
    (h : parseOrNativeAddress eth asset = .ok token) : token = weth := by
  rw [requiresNativeWrapping, Bool.and_eq_true, Bool.and_eq_true] at hwrap
  obtain ⟨⟨hnative, hnone⟩, hsome⟩ := hwrap
  obtain ⟨contract, hcontract⟩ := Option.isSome_iff_exists.mp hsome
  have htoken : asset.tokenId = none := Option.isNone_iff_eq_none.mp hnative
  have hnone := Option.isNone_iff_eq_none.mp hnone
  simp only [parseOrNativeAddress, htoken, hnone, hcontract, Option.none_or] at h
  have hparse : eth.parse contract = some token := okOr_eq_ok_iff.mp h
  rw [hweth contract hcontract] at hparse
  exact (Option.some.inj hparse).symm

end Requests

/-! ## Amounts -/

section Amounts

variable (amountIn : U256)

/-- The fee on the input is computed modulo the word size. -/
lemma toNat_inputFee :
    (inputFee amountIn evmReferralFee.bps).toNat = amountIn.toNat * 50 % 2 ^ 256 / 10000 := by
  show (amountIn * BitVec.ofNat 256 50 / BitVec.ofNat 256 10000).toNat = _
  rw [BitVec.toNat_udiv, BitVec.toNat_mul]
  rfl

lemma inputFee_le : (inputFee amountIn evmReferralFee.bps).toNat ≤ amountIn.toNat := by
  rw [toNat_inputFee]
  have := Nat.mod_le (amountIn.toNat * 50) (2 ^ 256)
  omega

/-- The fee is the referral share exactly when the product does not overflow. -/
theorem inputFee_eq_iff :
    (inputFee amountIn evmReferralFee.bps).toNat = amountIn.toNat * 50 / 10000 ↔
      amountIn.toNat * 50 < 2 ^ 256 := by
  rw [toNat_inputFee]
  have := Nat.div_add_mod (amountIn.toNat * 50) (2 ^ 256)
  have := Nat.mod_lt (amountIn.toNat * 50) (show 0 < 2 ^ 256 by norm_num)
  omega

lemma toNat_swappedAmount_true : (swappedAmount amountIn true).toNat =
    amountIn.toNat - (inputFee amountIn evmReferralFee.bps).toNat := by
  rw [swappedAmount, if_pos rfl, BitVec.toNat_sub_of_le]
  exact inputFee_le amountIn

/-- What is quoted after a fee on the output is left when the pools pay the quoted amount. -/
theorem toValue_false_le {quoted : U256} {out : ℕ} (h : quoted.toNat ≤ out) :
    (toValue false quoted).toNat ≤ out - out * 50 / 10000 := by
  have hvalue : (toValue false quoted).toNat = quoted.toNat * 9950 % 2 ^ 256 / 10000 := by
    show (quoted * BitVec.ofNat 256 9950 / BitVec.ofNat 256 10000).toNat = _
    rw [BitVec.toNat_udiv, BitVec.toNat_mul]
    rfl
  rw [hvalue]
  have := Nat.mod_le (quoted.toNat * 9950) (2 ^ 256)
  omega

end Amounts

/-! ## Runs -/

section Runs

variable {R : Router} {w : World} {token tokenIn tokenOut : Address} {n : ℕ}

/-- Money put in leaves what is available available. -/
lemma Ready.credit {payerIsUser : Bool} (h : Ready R w payerIsUser token n) (asset : Asset)
    (account : Address) (m : ℕ) : Ready R (w.credit asset account m) payerIsUser token n := by
  refine ⟨le_trans h.holds ?_, h.allowed⟩
  show w.holds _ _ ≤ (w.holds + only asset account m) _ _
  rw [Pi.add_apply, Pi.add_apply]
  omega

/-- Both router interfaces swap in the same way. -/
lemma Router.step_buildV3SwapExactInCommand (recipient : Address) (amountIn amountOutMin : U256)
    (path : List UInt8) (payerIsUser : Bool) (abi : UniversalRouterAbi) :
    R.step w (buildV3SwapExactInCommand recipient amountIn amountOutMin path payerIsUser abi) =
      R.swapExactIn w ⟨recipient, amountIn, amountOutMin, path, payerIsUser⟩ := by
  cases abi <;> rfl

/-- The command that pays the fee on the input. -/
def inputFeeCommand (wrapInputEth : Bool) (tokenIn feeRecipient : Address) (fee : U256) :
    UniversalRouterCommand :=
  if wrapInputEth then .transfer ⟨tokenIn, feeRecipient, fee⟩
  else .permit2TransferFrom ⟨tokenIn, feeRecipient, fee⟩

/-- **The fee on the input** is drawn from the payer, whichever way it is paid. -/
theorem Router.step_inputFee {wrap : Bool} {feeRecipient : Address} {fee : U256}
    (hmark : feeRecipient ≠ msgSender ∧ feeRecipient ≠ addressThis)
    (htoken : tokenIn ≠ markAddress 0) (hfee : fee.toNat < contractBalance)
    (hready : Ready R w (!wrap) tokenIn n) (hle : fee.toNat ≤ n) :
    ∃ w', R.step w (inputFeeCommand wrap tokenIn feeRecipient fee) = some w' ∧
      w'.holds + only (.token tokenIn) (R.payer (!wrap)) fee.toNat =
        w.holds + only (.token tokenIn) feeRecipient fee.toNat ∧
      Ready R w' (!wrap) tokenIn (n - fee.toNat) := by
  have hstep : R.step w (inputFeeCommand wrap tokenIn feeRecipient fee) =
      (R.draw w (!wrap) tokenIn fee.toNat).map fun w =>
        w.credit (.token tokenIn) feeRecipient fee.toNat := by
    cases wrap with
    | false =>
      show Option.map _ _ = _
      rw [Router.resolve_of_ne hmark.1 hmark.2]
      rfl
    | true =>
      show w.pay _ _ _ _ = _
      rw [Router.resolve_of_ne hmark.1 hmark.2, assetOf_of_ne htoken,
        Router.amountOr_eq (.inl hfee)]
      rfl
  obtain ⟨w', hdraw, hsum, hrest⟩ := Router.draw_eq_some (n := fee.toNat)
    ⟨le_trans hle hready.holds, fun h => le_trans hle (hready.allowed h)⟩
  refine ⟨w'.credit (.token tokenIn) feeRecipient fee.toNat, by rw [hstep, hdraw]; rfl, ?_, ?_⟩
  · show w'.holds + only (.token tokenIn) feeRecipient _ + only (.token tokenIn) _ _ = _
    rw [← hsum, add_right_comm]
  · apply Ready.credit
    have hn : fee.toNat + (n - fee.toNat) = n := by omega
    apply hrest
    · rw [hn]
      exact hready.holds
    · rw [hn]
      exact hready.allowed

/-- **The fee on the output** is a part of what the router holds. -/
theorem Router.step_payPortion {feeRecipient : Address}
    (hmark : feeRecipient ≠ msgSender ∧ feeRecipient ≠ addressThis)
    (htoken : tokenOut ≠ markAddress 0) (hn : w.holds (.token tokenOut) R.address = n) :
    ∃ w', R.step w (.payPortion ⟨tokenOut, feeRecipient, BitVec.ofNat 256 50⟩) = some w' ∧
      w'.holds + only (.token tokenOut) R.address (n * 50 / 10000) =
        w.holds + only (.token tokenOut) feeRecipient (n * 50 / 10000) := by
  have hle : n * 50 / 10000 ≤ w.holds (.token tokenOut) R.address := by omega
  obtain ⟨w', hpay, hsum, -⟩ := World.pay_eq_some feeRecipient hle
  refine ⟨w', ?_, hsum⟩
  rw [← hpay, ← hn]
  simp only [Router.step, assetOf_of_ne htoken, Router.resolve_of_ne hmark.1 hmark.2]
  exact if_neg (by decide)

/-- **The end of the list**: what the router holds of the output goes to the sender. -/
theorem Router.step_sweep {quoteAmount : U256} (hsender : R.sender ≠ addressThis)
    (htoken : tokenOut ≠ markAddress 0) (hn : w.holds (.token tokenOut) R.address = n)
    (hmin : quoteAmount.toNat ≤ n) :
    ∃ w', R.step w (.sweep ⟨tokenOut, R.sender, quoteAmount⟩) = some w' ∧
      w'.holds + only (.token tokenOut) R.address n =
        w.holds + only (.token tokenOut) R.sender n := by
  obtain ⟨w', hpay, hsum, -⟩ := World.pay_eq_some R.sender hn.ge
  refine ⟨w', ?_, hsum⟩
  simp only [Router.step, assetOf_of_ne htoken, Router.resolve_sender hsender, hn]
  rw [if_neg (by omega), hpay]

lemma Router.step_unwrapWeth {quoteAmount : U256} (hsender : R.sender ≠ addressThis)
    (hn : w.holds (.token R.weth) R.address = n) (hmin : quoteAmount.toNat ≤ n) :
    ∃ w', R.step w (.unwrapWeth ⟨R.sender, quoteAmount⟩) = some w' ∧
      w'.holds + only (.token R.weth) R.address n = w.holds + only .native R.sender n := by
  obtain ⟨w', hdebit, hsum, -⟩ := World.debit_eq_some hn.ge
  refine ⟨w'.credit .native R.sender n, ?_, ?_⟩
  · simp only [Router.step, Router.resolve_sender hsender, hn]
    rw [if_neg (by omega), hdebit, Option.map_some]
  · show w'.holds + only .native R.sender n + only (.token R.weth) R.address n = _
    rw [← hsum, add_right_comm]

/-- There is nothing to unwrap in an empty router. -/
lemma Router.step_unwrapWeth_empty {quoteAmount : U256} {recipient : Address}
    (hn : w.holds (.token R.weth) R.address = 0) (hmin : 0 < quoteAmount.toNat) :
    R.step w (.unwrapWeth ⟨recipient, quoteAmount⟩) = none := by
  simp only [Router.step, hn]
  exact if_pos hmin

/-- **The start of the list**: native money is wrapped. -/
theorem Router.call_wrapEth {amount : U256} (hempty : w.holds .native R.address = 0)
    (hfunded : amount.toNat ≤ w.holds .native R.sender) (hne : R.sender ≠ R.address) :
    ∃ w', R.call amount.toNat [.wrapEth ⟨addressThis, amount⟩] w = some w' ∧
      w'.holds + only .native R.sender amount.toNat =
        w.holds + only (.token R.weth) R.address amount.toNat := by
  obtain ⟨w₁, hpay, hsum, -⟩ := World.pay_eq_some R.address hfunded
  have hbalance : w₁.holds .native R.address = amount.toNat := by
    have h := congrFun₂ hsum .native R.address
    simp only [Pi.add_apply, Ledger.only_self, Ledger.only_of_account_ne hne.symm] at h
    omega
  obtain ⟨w₂, hdebit, hsum₂, -⟩ := World.debit_eq_some hbalance.ge
  refine ⟨w₂.credit (.token R.weth) R.address amount.toNat, ?_, ?_⟩
  · rw [Router.call, hpay]
    simp only [Option.bind_some, Router.execute, Router.step, Router.amountOr_eq (.inr hbalance),
      Router.resolve_addressThis, hdebit, Option.map_some]
  · show w₂.holds + only (.token R.weth) R.address _ + only .native R.sender _ = _
    funext asset account
    have h := congrFun₂ hsum asset account
    have h₂ := congrFun₂ hsum₂ asset account
    simp only [Pi.add_apply] at h h₂ ⊢
    omega

/-- An approved amount may be spent after the permit. -/
lemma Router.call_permit {permit : Option Permit2Permit} (h : Approved R w token n permit) :
    ∃ w', R.call 0 (permit.elim [] fun permit => [.permit2Permit permit]) w = some w' ∧
      w'.holds = w.holds ∧ n ≤ (w'.allowance token).toNat := by
  have hzero : 0 ≤ w.holds .native R.sender := Nat.zero_le _
  obtain ⟨w₁, hpay, hsum, hallow⟩ := World.pay_eq_some R.address hzero
  have hholds : w₁.holds = w.holds := by simpa using hsum
  rw [Router.call, hpay]
  cases permit with
  | none => exact ⟨w₁, rfl, hholds, by rw [hallow]; exact h⟩
  | some permit =>
    obtain ⟨hvalid, htoken, hspender, hle⟩ := h
    refine ⟨{ w₁ with allowance := Function.update w₁.allowance token permit.amount }, ?_, hholds, ?_⟩
    · simp only [Option.elim, Option.bind_some, Router.execute, Router.step, hvalid, htoken,
        hspender, if_true]
    · show n ≤ (Function.update w₁.allowance token permit.amount token).toNat
      rw [Function.update_self]
      exact hle

lemma Router.call_append (value : ℕ) (xs ys : List UniversalRouterCommand) :
    R.call value (xs ++ ys) w = (R.call value xs w).bind (R.execute ys) := by
  rw [Router.call, Router.call, Option.bind_assoc]
  exact congrArg _ (funext fun _ => Router.execute_append xs ys)

end Runs

section Calls

variable {eth : Eth} {R : Router} {w : World} {request : QuoteRequest} {p : ParsedRequest}
  {path : List UInt8} {permit : Option Permit2Permit} {feeRecipient : Address}
  {feeTokenIsInput : Bool} {quoteAmount : U256} {isEvmChain : Chain → Bool} {parseError : String}

section Input

variable (s : Setting eth R w request p path permit feeRecipient)
  (hparse : parseRequest eth isEvmChain parseError request = .ok p)

include s hparse

lemma Setting.tokenIn_eq (hwrap : requiresNativeWrapping eth request.fromAsset = true) :
    p.tokenIn = R.weth :=
  parseOrNativeAddress_wrapped s.weth hwrap (parseRequest_eq_ok hparse).2.1

lemma Setting.tokenOut_eq (hunwrap : requiresNativeWrapping eth request.toAsset = true) :
    p.tokenOut = R.weth := by
  have hweth := s.weth
  rw [(parseRequest_eq_ok hparse).1] at hweth
  exact parseOrNativeAddress_wrapped hweth hunwrap (parseRequest_eq_ok hparse).2.2.1

/-- **The input is available** after the first commands: wrapped in the router, or approved. -/
theorem Setting.call_input {wrap : Bool} (hwrap : requiresNativeWrapping eth request.fromAsset = wrap) :
    ∃ w₁, R.call (callValue eth request) (inputCommands eth request p.amountIn permit) w = some w₁ ∧
      w₁.holds + only (assetFor eth request.fromAsset p.tokenIn) R.sender p.amountIn.toNat =
        w.holds + only (.token p.tokenIn) (R.payer (!wrap)) p.amountIn.toNat ∧
      Ready R w₁ (!wrap) p.tokenIn p.amountIn.toNat ∧
      (wrap = false → p.amountIn.toNat < contractBalance) ∧
      (wrap = true → w₁.holds (.token p.tokenIn) R.address = p.amountIn.toNat) := by
  have hfunded := s.funded
  cases wrap with
  | true =>
    have hempty := s.empty .native (by simp [touched])
    rw [assetFor, if_pos hwrap] at hfunded ⊢
    obtain ⟨w₁, hcall, hsum⟩ := Router.call_wrapEth hempty hfunded s.sender_ne_router
    rw [s.tokenIn_eq hparse hwrap]
    have hbalance : w₁.holds (.token R.weth) R.address = p.amountIn.toNat := by
      have hzero := s.empty (.token R.weth) (by simp [touched])
      have h := congrFun₂ hsum (.token R.weth) R.address
      simp only [Pi.add_apply, Ledger.only_self,
        Ledger.only_of_account_ne s.sender_ne_router.symm] at h
      omega
    refine ⟨w₁, ?_, hsum, ⟨hbalance.ge, fun h => ?_⟩, fun h => ?_, fun _ => hbalance⟩
    · simp only [callValue, inputCommands, hwrap, if_true, ← (parseRequest_eq_ok hparse).2.2.2]
      exact hcall
    · cases h
    · cases h
  | false =>
    rw [assetFor, hwrap, if_neg Bool.false_ne_true] at hfunded ⊢
    obtain ⟨w₁, hcall, hholds, hallow⟩ := Router.call_permit (s.approved hwrap)
    have hlt := (w₁.allowance p.tokenIn).isLt
    refine ⟨w₁, ?_, by rw [hholds]; rfl, ⟨?_, fun _ => hallow⟩, fun _ => ?_, fun h => ?_⟩
    · simp only [callValue, inputCommands, hwrap, if_neg Bool.false_ne_true]
      exact hcall
    · rw [hholds]
      exact hfunded
    · rw [contractBalance]
      omega
    · cases h

end Input

section Lists

variable (eth request p quoteAmount path permit) (abi : UniversalRouterAbi)

/-- The list, once the addresses are parsed. -/
def commandList (feeTokenIsInput : Bool) (feeRecipient recipient : Address) :
    List UniversalRouterCommand :=
  inputCommands eth request p.amountIn permit ++
    swapCommands eth request p.tokenIn p.tokenOut p.amountIn quoteAmount path feeTokenIsInput abi
      evmReferralFee feeRecipient recipient ++
    outputCommands eth request quoteAmount recipient

variable {eth request p path permit}

lemma Setting.buildCommands_eq (s : Setting eth R w request p path permit feeRecipient) :
    buildCommands eth request p.tokenIn p.tokenOut p.amountIn quoteAmount path permit
        feeTokenIsInput abi =
      .ok (commandList eth request p path permit quoteAmount abi feeTokenIsInput feeRecipient
        R.sender) := by
  have hfee : parseFeeRecipient eth evmReferralFee R.sender = .ok feeRecipient := by
    rw [parseFeeRecipient, if_pos (by decide), s.referrer]
    rfl
  rw [buildCommands, Eth.parseStr, s.wallet]
  show (do let feeRecipient ← parseFeeRecipient eth evmReferralFee R.sender; _) = _
  rw [hfee]
  rfl

end Lists

/-- The commands after the input is available, with the fee on the output. -/
lemma swapCommands_false (abi : UniversalRouterAbi) (feeRecipient recipient : Address) :
    swapCommands eth request p.tokenIn p.tokenOut p.amountIn quoteAmount path false abi
        evmReferralFee feeRecipient recipient ++ outputCommands eth request quoteAmount recipient =
      [buildV3SwapExactInCommand addressThis p.amountIn 0 path
          (!requiresNativeWrapping eth request.fromAsset) abi,
        .payPortion ⟨p.tokenOut, feeRecipient, BitVec.ofNat 256 50⟩,
        if requiresNativeWrapping eth request.toAsset then .unwrapWeth ⟨recipient, quoteAmount⟩
        else .sweep ⟨p.tokenOut, recipient, quoteAmount⟩] := by
  cases h : requiresNativeWrapping eth request.toAsset <;>
    simp [swapCommands, outputCommands, h, evmReferralFee]

/-- The commands after the input is available, with the fee on the input. -/
lemma swapCommands_true (abi : UniversalRouterAbi) (feeRecipient recipient : Address) :
    swapCommands eth request p.tokenIn p.tokenOut p.amountIn quoteAmount path true abi
        evmReferralFee feeRecipient recipient ++ outputCommands eth request quoteAmount recipient =
      [inputFeeCommand (requiresNativeWrapping eth request.fromAsset) p.tokenIn feeRecipient
          (inputFee p.amountIn evmReferralFee.bps),
        buildV3SwapExactInCommand recipient (swappedAmount p.amountIn true) quoteAmount path
          (!requiresNativeWrapping eth request.fromAsset) abi] ++
      outputCommands eth request quoteAmount recipient := by
  rfl

section Outcome

variable (s : Setting eth R w request p path permit feeRecipient)
  (hparse : parseRequest eth isEvmChain parseError request = .ok p) (abi : UniversalRouterAbi)

include s hparse

/-- The last command with the fee on the output. -/
lemma Setting.step_output {w : World} {n : ℕ} (hn : w.holds (.token p.tokenOut) R.address = n)
    (hmin : quoteAmount.toNat ≤ n) :
    ∃ w', R.step w (if requiresNativeWrapping eth request.toAsset then
          .unwrapWeth ⟨R.sender, quoteAmount⟩
        else .sweep ⟨p.tokenOut, R.sender, quoteAmount⟩) = some w' ∧
      w'.holds + only (.token p.tokenOut) R.address n =
        w.holds + only (assetFor eth request.toAsset p.tokenOut) R.sender n := by
  cases hunwrap : requiresNativeWrapping eth request.toAsset with
  | true =>
    rw [if_pos rfl, assetFor, if_pos hunwrap, s.tokenOut_eq hparse hunwrap]
    rw [s.tokenOut_eq hparse hunwrap] at hn
    exact Router.step_unwrapWeth s.sender_ne_mark hn hmin
  | false =>
    rw [if_neg Bool.false_ne_true, assetFor, hunwrap, if_neg Bool.false_ne_true]
    exact Router.step_sweep s.sender_ne_mark s.tokens_ne_mark.2 hn hmin

omit hparse in
/-- The swap, in either interface. -/
lemma Setting.step_swap (recipient : Address) {w₁ : World} {wrap : Bool} {amount minimum : U256}
    (hready : Ready R w₁ (!wrap) p.tokenIn amount.toNat)
    (hsmall : wrap = false → amount.toNat < contractBalance)
    (hexact : wrap = true → w₁.holds (.token p.tokenIn) R.address = amount.toNat)
    (hmin : minimum.toNat ≤ R.swap path amount.toNat) :
    ∃ w₂, R.step w₁ (buildV3SwapExactInCommand recipient amount minimum path (!wrap) abi) =
        some w₂ ∧
      w₂.holds + only (.token p.tokenIn) (R.payer (!wrap)) amount.toNat =
        w₁.holds + only (.token p.tokenOut) (R.resolve recipient) (R.swap path amount.toNat) := by
  obtain ⟨hops, hpath⟩ := s.path
  have hfirst : firstToken path = some p.tokenIn := by
    rw [hpath, List.append_assoc]
    exact firstToken_append _
  have hlast : lastToken path = some p.tokenOut := by
    rw [hpath]
    exact lastToken_append _
  have hamount : R.amountOr w₁ (.token p.tokenIn) amount = amount.toNat := by
    apply Router.amountOr_eq
    cases wrap with
    | true => exact .inr (hexact rfl)
    | false => exact .inl (hsmall rfl)
  rw [Router.step_buildV3SwapExactInCommand]
  exact Router.swapExactIn_eq_some hfirst hlast hamount hready hmin

/-- **The holdings after a call with the fee on the output.**

**Proof sketch.** The swap pays into the router, which held nothing, so the portion for the
referrer and the last command share what the pools paid. -/
theorem Setting.call_outputFee {out : ℕ} (hout : poolOutput R p.amountIn path false = out)
    (hmin : quoteAmount.toNat ≤ out - out * 50 / 10000) :
    ∃ w', R.call (callValue eth request) (commandList eth request p path permit quoteAmount abi
        false feeRecipient R.sender) w = some w' ∧
      w'.holds + only (assetFor eth request.fromAsset p.tokenIn) R.sender p.amountIn.toNat =
        w.holds + only (.token p.tokenOut) feeRecipient (out * 50 / 10000) +
          only (assetFor eth request.toAsset p.tokenOut) R.sender (out - out * 50 / 10000) := by
  have hempty := s.empty (.token p.tokenOut) (by simp [touched])
  have hself := s.sender_ne_router.symm
  obtain ⟨w₁, hinput, hsum₁, hready, hsmall, hexact⟩ := s.call_input hparse rfl
  have hzero : (0 : U256).toNat ≤ R.swap path p.amountIn.toNat := Nat.zero_le _
  obtain ⟨w₂, hswap, hsum₂⟩ := s.step_swap abi addressThis hready hsmall hexact hzero
  rw [Router.resolve_addressThis, show R.swap path p.amountIn.toNat = out from hout] at hsum₂
  have hbalance₂ : w₂.holds (.token p.tokenOut) R.address = out := by
    have h₁ := congrFun₂ hsum₁ (.token p.tokenOut) R.address
    have h₂ := congrFun₂ hsum₂ (.token p.tokenOut) R.address
    simp only [Pi.add_apply, Ledger.only_self, Ledger.only_of_account_ne hself] at h₁ h₂
    omega
  obtain ⟨w₃, hportion, hsum₃⟩ :=
    Router.step_payPortion s.referrer_ne_mark s.tokens_ne_mark.2 hbalance₂
  have hbalance₃ : w₃.holds (.token p.tokenOut) R.address = out - out * 50 / 10000 := by
    have h := congrFun₂ hsum₃ (.token p.tokenOut) R.address
    simp only [Pi.add_apply, Ledger.only_self,
      Ledger.only_of_account_ne s.referrer_ne_router.symm] at h
    omega
  obtain ⟨w₄, hlast, hsum₄⟩ := s.step_output hparse hbalance₃ hmin
  refine ⟨w₄, ?_, ?_⟩
  · rw [commandList, List.append_assoc, swapCommands_false, Router.call_append, hinput]
    simp only [Option.bind_some, Router.execute]
    rw [hswap, Option.bind_some, hportion, Option.bind_some, hlast]
    rfl
  · have hsplit := Ledger.only_add (Asset.token p.tokenOut) R.address (out * 50 / 10000)
      (out - out * 50 / 10000)
    rw [show out * 50 / 10000 + (out - out * 50 / 10000) = out by omega] at hsplit
    funext asset account
    have h₁ := congrFun₂ hsum₁ asset account
    have h₂ := congrFun₂ hsum₂ asset account
    have h₃ := congrFun₂ hsum₃ asset account
    have h₄ := congrFun₂ hsum₄ asset account
    have h := congrFun₂ hsplit asset account
    simp only [Pi.add_apply] at h h₁ h₂ h₃ h₄ ⊢
    omega

/-- The holdings after the swap with the fee on the input. The output is with the user. -/
theorem Setting.call_inputFee_swap
    (hmin : quoteAmount.toNat ≤ poolOutput R p.amountIn path true) :
    ∃ w', R.call (callValue eth request) (commandList eth request p path permit quoteAmount abi
          true feeRecipient R.sender) w =
        R.execute (outputCommands eth request quoteAmount R.sender) w' ∧
      w'.holds + only (assetFor eth request.fromAsset p.tokenIn) R.sender p.amountIn.toNat =
        w.holds + only (.token p.tokenIn) feeRecipient
            (inputFee p.amountIn evmReferralFee.bps).toNat +
          only (.token p.tokenOut) R.sender (poolOutput R p.amountIn path true) := by
  have hle := inputFee_le p.amountIn
  have hswapped := toNat_swappedAmount_true p.amountIn
  have hfee : (inputFee p.amountIn evmReferralFee.bps).toNat < contractBalance := by
    rw [toNat_inputFee, contractBalance]
    have := Nat.mod_lt (p.amountIn.toNat * 50) (show 0 < 2 ^ 256 by norm_num)
    omega
  obtain ⟨w₁, hinput, hsum₁, hready, hsmall, hexact⟩ := s.call_input hparse rfl
  obtain ⟨w₂, hpaid, hsum₂, hready₂⟩ :=
    Router.step_inputFee s.referrer_ne_mark s.tokens_ne_mark.1 hfee hready hle
  rw [← hswapped] at hready₂
  have hsmall₂ : requiresNativeWrapping eth request.fromAsset = false →
      (swappedAmount p.amountIn true).toNat < contractBalance := by
    intro h
    have := hsmall h
    omega
  have hexact₂ : requiresNativeWrapping eth request.fromAsset = true →
      w₂.holds (.token p.tokenIn) R.address = (swappedAmount p.amountIn true).toNat := by
    intro h
    have hbalance := hexact h
    have h₂ := congrFun₂ hsum₂ (.token p.tokenIn) R.address
    rw [h] at h₂
    simp only [Pi.add_apply, Ledger.only_of_account_ne s.referrer_ne_router.symm] at h₂
    rw [show R.payer (!true) = R.address from rfl, Ledger.only_self] at h₂
    omega
  obtain ⟨w₃, hswap, hsum₃⟩ := s.step_swap abi R.sender hready₂ hsmall₂ hexact₂ hmin
  rw [Router.resolve_sender s.sender_ne_mark] at hsum₃
  refine ⟨w₃, ?_, ?_⟩
  · rw [commandList, List.append_assoc, swapCommands_true, Router.call_append, hinput]
    simp only [Option.bind_some, List.cons_append, List.nil_append, Router.execute]
    rw [hpaid, Option.bind_some, hswap, Option.bind_some]
  · have hsplit := Ledger.only_add (Asset.token p.tokenIn)
      (R.payer (!requiresNativeWrapping eth request.fromAsset))
      (inputFee p.amountIn evmReferralFee.bps).toNat (swappedAmount p.amountIn true).toNat
    rw [show (inputFee p.amountIn evmReferralFee.bps).toNat +
      (swappedAmount p.amountIn true).toNat = p.amountIn.toNat by omega] at hsplit
    funext asset account
    have h₁ := congrFun₂ hsum₁ asset account
    have h₂ := congrFun₂ hsum₂ asset account
    have h₃ := congrFun₂ hsum₃ asset account
    have h := congrFun₂ hsplit asset account
    simp only [Pi.add_apply, poolOutput] at h h₁ h₂ h₃ ⊢
    omega

omit hparse in
/-- A call that pays the referrer and the user leaves nothing in the router. -/
theorem Setting.router_empty {w' : World} {spent feeAsset paid : Asset} {amount share n : ℕ}
    (hsum : w'.holds + only spent R.sender amount =
      w.holds + only feeAsset feeRecipient share + only paid R.sender n)
    (asset : Asset) (hasset : asset ∈ touched R p) : w'.holds asset R.address = 0 := by
  have hzero := s.empty asset hasset
  have h := congrFun₂ hsum asset R.address
  simp only [Pi.add_apply, Ledger.only_of_account_ne s.sender_ne_router.symm,
    Ledger.only_of_account_ne s.referrer_ne_router.symm] at h
  omega

/-- With the fee on the input, a native output that is not nothing cannot be unwrapped. -/
theorem Setting.call_inputFee_reverts
    (hmin : quoteAmount.toNat ≤ poolOutput R p.amountIn path true)
    (hunwrap : requiresNativeWrapping eth request.toAsset = true) (hpos : 0 < quoteAmount.toNat) :
    R.call (callValue eth request) (commandList eth request p path permit quoteAmount abi true
      feeRecipient R.sender) w = none := by
  obtain ⟨w', hcall, hsum⟩ := s.call_inputFee_swap hparse abi hmin
  have hempty := s.router_empty hsum (.token R.weth) (by simp [touched])
  rw [hcall, outputCommands, if_pos hunwrap, Router.execute,
    Router.step_unwrapWeth_empty hempty hpos, Option.bind_none]

/-- **The holdings after a call with the fee on the input**, where nothing is unwrapped. -/
theorem Setting.call_inputFee (hmin : quoteAmount.toNat ≤ poolOutput R p.amountIn path true)
    (hunwrap : requiresNativeWrapping eth request.toAsset = true → quoteAmount.toNat = 0) :
    ∃ w', R.call (callValue eth request) (commandList eth request p path permit quoteAmount abi
        true feeRecipient R.sender) w = some w' ∧
      w'.holds + only (assetFor eth request.fromAsset p.tokenIn) R.sender p.amountIn.toNat =
        w.holds + only (.token p.tokenIn) feeRecipient
            (inputFee p.amountIn evmReferralFee.bps).toNat +
          only (.token p.tokenOut) R.sender (poolOutput R p.amountIn path true) := by
  obtain ⟨w', hcall, hsum⟩ := s.call_inputFee_swap hparse abi hmin
  cases h : requiresNativeWrapping eth request.toAsset with
  | false =>
    refine ⟨w', ?_, hsum⟩
    rw [hcall, outputCommands, h, if_neg Bool.false_ne_true, Router.execute]
  | true =>
    have hempty := s.router_empty hsum (.token R.weth) (by simp [touched])
    obtain ⟨w'', hstep, hsame⟩ := Router.step_unwrapWeth s.sender_ne_mark hempty (hunwrap h).le
    refine ⟨w'', ?_, ?_⟩
    · rw [hcall, outputCommands, if_pos h, Router.execute, hstep]
      rfl
    · rw [Ledger.only_zero, Ledger.only_zero, add_zero, add_zero] at hsame
      rw [hsame, hsum]

end Outcome

section Delivery

/-- What the holdings after a call say about the promise. -/
lemma Setting.delivered_iff (s : Setting eth R w request p path permit feeRecipient)
    {w' : World} {feeToken : Address} {paid : Asset} {share n : ℕ}
    (htoken : feeToken = (if feeTokenIsInput then p.tokenIn else p.tokenOut))
    (hsum : w'.holds + only (assetFor eth request.fromAsset p.tokenIn) R.sender p.amountIn.toNat =
      w.holds + only (.token feeToken) feeRecipient share + only paid R.sender n) :
    Delivered eth R w request p path feeRecipient feeTokenIsInput quoteAmount w' ↔
      share = referralShare R p path feeTokenIsInput ∧ ∃ received, quoteAmount.toNat ≤ received ∧
        ∀ asset, asset = assetFor eth request.fromAsset p.tokenIn ∨
            asset = assetFor eth request.toAsset p.tokenOut →
          only paid R.sender n asset R.sender =
            only (assetFor eth request.toAsset p.tokenOut) R.sender received asset R.sender := by
  have hreferrer := congrFun₂ hsum (.token feeToken) feeRecipient
  simp only [Pi.add_apply, Ledger.only_self,
    Ledger.only_of_account_ne s.referrer_ne_sender] at hreferrer
  have huser := fun asset => congrFun₂ hsum asset R.sender
  simp only [Pi.add_apply, Ledger.only_of_account_ne s.referrer_ne_sender.symm] at huser
  constructor
  · intro h
    obtain ⟨received, hle, hreceived⟩ := h.user
    have hshare := h.referrer feeToken htoken
    refine ⟨by omega, received, hle, fun asset hasset => ?_⟩
    have h₁ := hreceived asset hasset
    have h₂ := huser asset
    simp only [Pi.add_apply] at h₁
    omega
  · rintro ⟨hshare, received, hle, hreceived⟩
    refine ⟨⟨received, hle, fun asset hasset => ?_⟩, ?_, fun asset hasset => ?_⟩
    · have h₁ := hreceived asset hasset
      have h₂ := huser asset
      simp only [Pi.add_apply]
      omega
    · intro token htoken'
      rw [htoken', ← htoken]
      omega
    · exact s.router_empty hsum asset hasset

/-- With the fee on the input, the user has the output of the swap itself. This is the promised
asset unless the output is native; then only an empty promise is kept. -/
theorem received_iff {n : ℕ}
    (hmin : quoteAmount.toNat ≤ n)
    (hunwrap : requiresNativeWrapping eth request.toAsset = true → quoteAmount.toNat = 0) :
    (∃ received, quoteAmount.toNat ≤ received ∧
        ∀ asset, asset = assetFor eth request.fromAsset p.tokenIn ∨
            asset = assetFor eth request.toAsset p.tokenOut →
          only (.token p.tokenOut) R.sender n asset R.sender =
            only (assetFor eth request.toAsset p.tokenOut) R.sender received asset R.sender) ↔
      (requiresNativeWrapping eth request.toAsset = true →
        requiresNativeWrapping eth request.fromAsset = false → p.tokenIn = p.tokenOut → n = 0) := by
  cases hout : requiresNativeWrapping eth request.toAsset with
  | false =>
    rw [assetFor, assetFor, hout, if_neg Bool.false_ne_true]
    exact ⟨fun _ h => absurd h Bool.false_ne_true, fun _ => ⟨n, hmin, fun _ _ => rfl⟩⟩
  | true =>
    rw [assetFor, assetFor, if_pos hout]
    constructor
    · rintro ⟨received, -, hreceived⟩ - hin htoken
      have h := hreceived (.token p.tokenIn) (.inl (by rw [hin, if_neg Bool.false_ne_true]))
      rw [htoken, Ledger.only_self, Ledger.only_of_asset_ne (by simp)] at h
      exact h
    · intro h
      refine ⟨0, (hunwrap hout).le, fun asset hasset => ?_⟩
      rw [Ledger.only_zero]
      cases hin : requiresNativeWrapping eth request.fromAsset with
      | true =>
        rw [hin, if_pos rfl, or_self] at hasset
        rw [hasset]
        exact Ledger.only_of_asset_ne (by simp)
      | false =>
        rw [hin, if_neg Bool.false_ne_true] at hasset
        by_cases htoken : p.tokenIn = p.tokenOut
        · rw [h rfl hin htoken, Ledger.only_zero]
        · apply Ledger.only_of_asset_ne
          rintro rfl
          simp [Ne.symm htoken] at hasset

/-- **The command list does what was quoted** exactly when the fee is on the output, or the fee
on the input does not overflow and the output is not native. A native output with the fee on
the input passes only as the empty promise of nothing.

**Proof sketch.** The holdings after the call are known in every case
(`Setting.call_outputFee`, `Setting.call_inputFee`, `Setting.call_inputFee_reverts`); what they
say about the promise is `Setting.delivered_iff`. -/
theorem buildCommands_delivers_iff (s : Setting eth R w request p path permit feeRecipient)
    (hparse : parseRequest eth isEvmChain parseError request = .ok p)
    (hpool : QuotedPool R p path feeTokenIsInput quoteAmount) (abi : UniversalRouterAbi) :
    (∃ commands w', buildCommands eth request p.tokenIn p.tokenOut p.amountIn quoteAmount path
          permit feeTokenIsInput abi = .ok commands ∧
        R.call (callValue eth request) commands w = some w' ∧
        Delivered eth R w request p path feeRecipient feeTokenIsInput quoteAmount w') ↔
      (feeTokenIsInput = true → p.amountIn.toNat * 50 < 2 ^ 256 ∧
        (requiresNativeWrapping eth request.toAsset = true → quoteAmount.toNat = 0 ∧
          (requiresNativeWrapping eth request.fromAsset = false → p.tokenIn = p.tokenOut →
            poolOutput R p.amountIn path true = 0))) := by
  obtain ⟨quoted, hquoted, hquote⟩ := hpool
  simp only [s.buildCommands_eq, Except.ok.injEq, exists_eq_left', exists_and_left]
  cases feeTokenIsInput with
  | false =>
    obtain ⟨w', hcall, hsum⟩ := s.call_outputFee hparse abi rfl
      (le_trans hquote (toValue_false_le hquoted))
    refine ⟨fun _ h => absurd h Bool.false_ne_true, fun _ => ⟨w', hcall, ?_⟩⟩
    exact (s.delivered_iff rfl hsum).mpr
      ⟨rfl, _, le_trans hquote (toValue_false_le hquoted), fun _ _ => rfl⟩
  | true =>
    have hmin : quoteAmount.toNat ≤ poolOutput R p.amountIn path true := le_trans hquote hquoted
    by_cases hunwrap : requiresNativeWrapping eth request.toAsset = true → quoteAmount.toNat = 0
    · obtain ⟨w', hcall, hsum⟩ := s.call_inputFee hparse abi hmin hunwrap
      have hdelivered : Delivered eth R w request p path feeRecipient true quoteAmount w' ↔ _ :=
        s.delivered_iff rfl hsum
      rw [received_iff hmin hunwrap] at hdelivered
      simp only [hcall, Option.some.injEq, exists_eq_left', hdelivered]
      have hshare : (inputFee p.amountIn evmReferralFee.bps).toNat = referralShare R p path true ↔
          p.amountIn.toNat * 50 < 2 ^ 256 := inputFee_eq_iff p.amountIn
      rw [hshare]
      tauto
    · have hpos : 0 < quoteAmount.toNat := by
        by_contra h
        exact hunwrap fun _ => by omega
      have hout : requiresNativeWrapping eth request.toAsset = true := by
        by_contra h
        exact hunwrap fun h' => absurd h' h
      simp only [s.call_inputFee_reverts hparse abi hmin hout hpos]
      simp only [reduceCtorEq, false_and, exists_false, hout, false_iff]
      intro h
      have := ((h trivial).2 trivial).1
      omega

end Delivery

end Calls

/-! ## Concrete calls -/

/-- The tables of Ethereum. -/
def sampleEth : Eth where
  parse := hexAddress
  parseTron _ := .error .notSupportedAsset
  wethContract chain :=
    if chain = .ethereum then some "0xC02aaA39b223FE8D0A0e5C4F27eAD9083C756Cc2" else none

/-- An address from its text. -/
def sampleAddress (text : String) : Address := (hexAddress text).getD (markAddress 0)

/-- A token of Ethereum. -/
def sampleToken : String := "0xA0b86991c6218b36c1d19D4a2e9Eb0cE3606eB48"

/-- The router of Ethereum, and pools that pay two for one. -/
def sampleRouter : Router where
  address := sampleAddress "0x66a9893cC07D91D95644AEDD05D03f95e1dBA8Af"
  sender := sampleAddress "0x514BCb1F9AAbb904e6106Bd1052B66d2706dBbb7"
  weth := sampleAddress "0xC02aaA39b223FE8D0A0e5C4F27eAD9083C756Cc2"
  swap _ n := 2 * n
  permitValid _ := false

/-- The user holds some of everything and has approved it; the router holds nothing. -/
def sampleWorld : World where
  holds _ account := if account = sampleRouter.sender then 10 ^ 6 else 0
  allowance _ := BitVec.allOnes 160

/-- A swap of 20000 units. -/
def sampleRequest (fromToken toToken : Option String) : QuoteRequest where
  fromAsset := ⟨.ethereum, fromToken⟩
  toAsset := ⟨.ethereum, toToken⟩
  value := 20000
  walletAddress := "0x514BCb1F9AAbb904e6106Bd1052B66d2706dBbb7"
  destinationAddress := "0x514BCb1F9AAbb904e6106Bd1052B66d2706dBbb7"

/-- The referrer. -/
def sampleReferrer : Address := sampleAddress evmReferralFee.address

/-- The path through one pool with a fee of 500. -/
def samplePath (p : ParsedRequest) : List UInt8 := p.tokenIn.1 ++ [0, 1, 244] ++ p.tokenOut.1

/-- The samples are calls command lists are built for. -/
lemma sampleSetting (fromToken toToken : Option String) (p : ParsedRequest)
    (hin : p.tokenIn ≠ markAddress 0) (hout : p.tokenOut ≠ markAddress 0)
    (hamount : p.amountIn = 20000) :
    Setting sampleEth sampleRouter sampleWorld (sampleRequest fromToken toToken) p (samplePath p)
      none sampleReferrer where
  weth contract h := by
    obtain rfl := Option.some.inj h
    decide +kernel
  wallet := by
    show hexAddress "0x514BCb1F9AAbb904e6106Bd1052B66d2706dBbb7" = some sampleRouter.sender
    decide +kernel
  referrer := by decide +kernel
  sender_ne_router := by decide +kernel
  referrer_ne_router := by decide +kernel
  referrer_ne_sender := by decide +kernel
  sender_ne_mark := by decide +kernel
  referrer_ne_mark := by decide +kernel
  tokens_ne_mark := ⟨hin, hout⟩
  path := ⟨[0, 1, 244], rfl⟩
  funded := by
    rw [hamount]
    show 20000 ≤ if sampleRouter.sender = sampleRouter.sender then 10 ^ 6 else 0
    rw [if_pos rfl]
    norm_num
  approved _ := by
    rw [hamount]
    show 20000 ≤ (BitVec.allOnes 160).toNat
    decide
  empty asset _ := by
    show (if sampleRouter.address = sampleRouter.sender then 10 ^ 6 else 0) = 0
    exact if_neg (by decide +kernel)

/-- From ether to the token, with the fee on the input. -/
def sampleParsed : ParsedRequest := ⟨sampleRouter.weth, sampleAddress sampleToken, 20000⟩

/-- From the token to ether. -/
def sampleParsedBack : ParsedRequest := ⟨sampleAddress sampleToken, sampleRouter.weth, 20000⟩

/-- The list from ether to the token delivers 39800 units for the 19900 that are swapped. -/
theorem buildCommands_delivers_iff_sample :
    ∃ commands w', buildCommands sampleEth (sampleRequest none (some sampleToken))
          sampleParsed.tokenIn sampleParsed.tokenOut sampleParsed.amountIn 39800
          (samplePath sampleParsed) none true .v21 = .ok commands ∧
        sampleRouter.call (callValue sampleEth (sampleRequest none (some sampleToken))) commands
          sampleWorld = some w' ∧
        Delivered sampleEth sampleRouter sampleWorld (sampleRequest none (some sampleToken))
          sampleParsed (samplePath sampleParsed) sampleReferrer true 39800 w' := by
  have hparse : parseRequest sampleEth (fun _ => true) "" (sampleRequest none (some sampleToken)) =
      .ok sampleParsed := by
    decide +kernel
  have hpool : QuotedPool sampleRouter sampleParsed (samplePath sampleParsed) true 39800 :=
    ⟨39800, by decide, by decide⟩
  have hsetting := sampleSetting none (some sampleToken) sampleParsed (by decide +kernel)
    (by decide +kernel) rfl
  refine (buildCommands_delivers_iff hsetting hparse hpool .v21).mpr fun _ => ⟨?_, fun h => ?_⟩
  · decide
  · exact absurd h (by decide)

/-- From the token to ether with the fee on the input: the pools pay 39800, but to the user, and
the router has no wrapped ether to unwrap one wei from. -/
theorem buildCommands_reverts_native_output :
    Setting sampleEth sampleRouter sampleWorld (sampleRequest (some sampleToken) none)
        sampleParsedBack (samplePath sampleParsedBack) none sampleReferrer ∧
      parseRequest sampleEth (fun _ => true) "" (sampleRequest (some sampleToken) none) =
        .ok sampleParsedBack ∧
      QuotedPool sampleRouter sampleParsedBack (samplePath sampleParsedBack) true 1 ∧
      ¬∃ commands w', buildCommands sampleEth (sampleRequest (some sampleToken) none)
          sampleParsedBack.tokenIn sampleParsedBack.tokenOut sampleParsedBack.amountIn 1
          (samplePath sampleParsedBack) none true .v2 = .ok commands ∧
        sampleRouter.call (callValue sampleEth (sampleRequest (some sampleToken) none)) commands
          sampleWorld = some w' := by
  have hparse : parseRequest sampleEth (fun _ => true) "" (sampleRequest (some sampleToken) none) =
      .ok sampleParsedBack := by
    decide +kernel
  have hsetting := sampleSetting (some sampleToken) none sampleParsedBack (by decide +kernel)
    (by decide +kernel) rfl
  refine ⟨hsetting, hparse, ⟨39800, by decide, by decide⟩, ?_⟩
  rintro ⟨commands, w', hbuild, hcall⟩
  rw [hsetting.buildCommands_eq] at hbuild
  obtain rfl := Except.ok.inj hbuild
  rw [hsetting.call_inputFee_reverts hparse .v2 (by decide) (by decide) (by decide)] at hcall
  cases hcall

-- two addresses and a fee between them
example : (samplePath sampleParsed).length = 43 := by decide +kernel

end GemCore.Uniswap

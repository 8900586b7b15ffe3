import GemCore.Cetus.Hops

/-!
# Fees and output

What a swap transaction does beside the calls of the pools: it takes its fee, checks that the smallest
output is there, and hands the output out.

## Main definitions

* `IsFee` — what the owner of a fee gets.
* `PoolRoute.inputFee`, `PoolRoute.outputFee` — the fee of each side.

## Main results

* `reach_swapInput` — the fee on the input.
* `reach_payOutputFee`, `fails_payOutputFee` — the fee on the output.
* `reach_checkMinOut`, `fails_checkMinOut` — the smallest output.
* `reach_deliverOutput` — who gets the output.
-/

namespace GemCore.Cetus

open Lib (Build leBytes)
open Sui (TextLib Ref Command TypeTag Item Holdings Snapshot Reach Fails isSuiCoin)

variable {texts : TextLib} {deployment : Deployment} {answers : Answers} {funds : Sui.Funds}
  {h₀ : Holdings Receipt} {commands commands' : List (Command Ref)} {snap : Snapshot Receipt}
  {rest : List (Ref × Item Receipt)} {route : PoolRoute} {referralFee : ReferralFee}
  {coin : Ref} {tag : TypeTag} {value : ℕ}

/-! ## Fees -/

/-- What the owner of a fee gets. -/
def IsFee (texts : TextLib) (referralFee : ReferralFee) (tag : TypeTag) (fee : ℕ)
    (received : List (Sui.Address × TypeTag × ℕ)) : Prop :=
  if fee = 0 then received = []
  else ∃ recipient, texts.address referralFee.address = .ok recipient ∧
    received = [(recipient, tag, fee)]

lemma isFee_nil : IsFee texts referralFee tag 0 [] := by
  rw [IsFee, if_pos rfl]

lemma isFee_singleton {fee : ℕ} (hfee : fee ≠ 0) {recipient : Sui.Address}
    (haddress : texts.address referralFee.address = .ok recipient) :
    IsFee texts referralFee tag fee [(recipient, tag, fee)] := by
  rw [IsFee, if_neg hfee]
  exact ⟨recipient, haddress, rfl⟩

/-- The fee that is taken from the input. -/
def PoolRoute.inputFee (route : PoolRoute) : ℕ :=
  match route.feeSide with
  | .input => route.feeAmount.toNat
  | .output => 0

/-- The fee that is taken from the output. -/
def PoolRoute.outputFee (route : PoolRoute) : ℕ :=
  match route.feeSide with
  | .input => 0
  | .output => route.feeAmount.toNat

lemma suiAddress_eq_ok {address : String} {a : Sui.Address}
    (h : suiAddress texts address commands = .ok (a, commands')) :
    texts.address address = .ok a ∧ commands' = commands := by
  obtain ⟨haddress, rfl⟩ := Build.ofExcept_eq_ok_iff.mp h
  exact ⟨Lib.mapError_eq_ok_iff.mp haddress, rfl⟩

/-- The commands that pay a fee. -/
def feeCommands (coin : Ref) (fee : UInt64) (recipient : Sui.Address) (index : ℕ) :
    List (Command Ref) :=
  [.splitCoins coin [.pure (leBytes 8 fee.toNat)],
    .transferObjects [.nested index 0] (.pure recipient.val)]

/-- **A fee is paid.** -/
theorem reach_fee (h : Reach (network deployment answers funds) h₀ commands snap)
    (hperm : snap.live.Perm ((coin, .coin tag value) :: rest)) {fee : UInt64}
    (hle : fee.toNat ≤ value) (recipient : Sui.Address) :
    Reach (network deployment answers funds) h₀
      (commands ++ feeCommands coin fee recipient commands.length) { snap with
        live := (coin, .coin tag (value - fee.toNat)) :: rest
        received := snap.received ++ [(recipient, tag, fee.toNat)] } := by
  have hsent := (h.split hperm hle).send (List.Perm.refl _) recipient
  rw [List.append_assoc] at hsent
  exact hsent

/-- A fee that is not there is not paid. -/
lemma fails_fee (h : Reach (network deployment answers funds) h₀ commands snap)
    (hperm : snap.live.Perm ((coin, .coin tag value) :: rest)) {fee : UInt64}
    (hlt : value < fee.toNat) (recipient : Sui.Address) :
    Fails (network deployment answers funds) h₀
      (commands ++ feeCommands coin fee recipient commands.length) := by
  have hfails := (h.fails_split hperm hlt).append
    [.transferObjects [.nested commands.length 0] (.pure recipient.val)]
  rw [List.append_assoc] at hfails
  exact hfails

/-- The commands of `transfer_coin`. -/
lemma transferCoin_eq (recipient : Sui.Address) : transferCoin coin recipient commands =
    .ok ((), commands ++ [.transferObjects [coin] (.pure recipient.val)]) := rfl

lemma splitCoin_eq (amount : Ref) (error : Sui.SuiError) :
    Sui.Ptb.splitCoin coin amount error commands =
      .ok (.nested commands.length 0, commands ++ [.splitCoins coin [amount]]) := rfl

/-- The commands of a fee on the input. -/
lemma payReferralFee_eq_ok {fee : UInt64} {ref : Ref}
    (hrun : payReferralFee texts coin fee referralFee commands = .ok (ref, commands')) :
    ref = coin ∧ ((fee = 0 ∧ commands' = commands) ∨ (fee ≠ 0 ∧
      ∃ recipient, texts.address referralFee.address = .ok recipient ∧
        commands' = commands ++ feeCommands coin fee recipient commands.length)) := by
  rw [payReferralFee] at hrun
  by_cases hfee : fee = 0
  · rw [if_pos hfee] at hrun
    obtain ⟨rfl, rfl⟩ := Build.pure_eq_ok_iff.mp hrun
    exact ⟨rfl, .inl ⟨hfee, rfl⟩⟩
  · rw [if_neg hfee] at hrun
    obtain ⟨amount, s₁, hamount, hrun₁⟩ := ofPtb_bind_eq_ok_iff.mp hrun
    obtain ⟨feeCoin, s₂, hsplit, hrun₂⟩ := ofPtb_bind_eq_ok_iff.mp hrun₁
    obtain ⟨recipient, s₃, hrecipient, hrun₃⟩ := Build.bind_eq_ok_iff.mp hrun₂
    obtain ⟨⟨⟩, s₄, hsend, hrun₄⟩ := ofPtb_bind_eq_ok_iff.mp hrun₃
    obtain ⟨rfl, rfl⟩ := Prod.mk.inj (Except.ok.inj hamount)
    obtain ⟨rfl, rfl⟩ := Prod.mk.inj (Except.ok.inj ((splitCoin_eq _ _).symm.trans hsplit))
    obtain ⟨haddress, rfl⟩ := suiAddress_eq_ok hrecipient
    obtain ⟨-, rfl⟩ := Prod.mk.inj (Except.ok.inj ((transferCoin_eq _).symm.trans hsend))
    obtain ⟨rfl, rfl⟩ := Build.pure_eq_ok_iff.mp hrun₄
    exact ⟨rfl, .inr ⟨hfee, recipient, haddress, List.append_assoc _ _ _⟩⟩

/-- The commands of a fee on the output. -/
lemma payOutputFee_eq_ok
    (hrun : payOutputFee texts coin route referralFee commands = .ok ((), commands')) :
    (route.outputFee = 0 ∧ commands' = commands) ∨
      (route.outputFee = route.feeAmount.toNat ∧ route.outputFee ≠ 0 ∧
        ∃ recipient, texts.address referralFee.address = .ok recipient ∧
          commands' = commands ++ feeCommands coin route.feeAmount recipient commands.length) := by
  rw [payOutputFee] at hrun
  by_cases hpays : route.feeSide = .output ∧ route.feeAmount > 0
  · rw [if_pos hpays] at hrun
    obtain ⟨amount, s₁, hamount, hrun₁⟩ := ofPtb_bind_eq_ok_iff.mp hrun
    obtain ⟨feeCoin, s₂, hsplit, hrun₂⟩ := ofPtb_bind_eq_ok_iff.mp hrun₁
    obtain ⟨recipient, s₃, hrecipient, hrun₃⟩ := Build.bind_eq_ok_iff.mp hrun₂
    obtain ⟨rfl, rfl⟩ := Prod.mk.inj (Except.ok.inj hamount)
    obtain ⟨rfl, rfl⟩ := Prod.mk.inj (Except.ok.inj ((splitCoin_eq _ _).symm.trans hsplit))
    obtain ⟨haddress, rfl⟩ := suiAddress_eq_ok hrecipient
    have hsend := ofPtb_eq_ok_iff.mp hrun₃
    obtain ⟨-, rfl⟩ := Prod.mk.inj (Except.ok.inj ((transferCoin_eq _).symm.trans hsend))
    have hfee : route.outputFee = route.feeAmount.toNat := by
      rw [PoolRoute.outputFee, hpays.1]
    refine .inr ⟨hfee, ?_, recipient, haddress, List.append_assoc _ _ _⟩
    rw [hfee]
    exact (UInt64.lt_iff_toNat_lt.mp hpays.2).ne'
  · rw [if_neg hpays] at hrun
    obtain ⟨-, rfl⟩ := Build.pure_eq_ok_iff.mp hrun
    refine .inl ⟨?_, rfl⟩
    rw [PoolRoute.outputFee]
    cases hside : route.feeSide with
    | input => rfl
    | output =>
      have hzero : route.feeAmount ≤ 0 := UInt64.not_lt.mp fun hpos => hpays ⟨hside, hpos⟩
      exact Nat.le_zero.mp (UInt64.le_iff_toNat_le.mp hzero)

/-- **The fee on the input** is taken from the coin. -/
theorem reach_swapInput {amount swapAmount : UInt64} {swapCoin : Ref}
    (hrun : swapInput texts coin amount route referralFee commands =
      .ok ((swapCoin, swapAmount), commands'))
    (h : Reach (network deployment answers funds) h₀ commands snap)
    (hperm : snap.live.Perm ((coin, .coin tag amount.toNat) :: rest)) :
    swapCoin = coin ∧ swapAmount.toNat = amount.toNat - route.inputFee ∧
      ∃ fee, IsFee texts referralFee tag route.inputFee fee ∧
        Reach (network deployment answers funds) h₀ commands' { snap with
          live := (coin, .coin tag (amount.toNat - route.inputFee)) :: rest
          received := snap.received ++ fee } := by
  rw [swapInput] at hrun
  rw [PoolRoute.inputFee]
  cases hside : route.feeSide with
  | output =>
    rw [hside] at hrun
    obtain ⟨hpair, rfl⟩ := Build.pure_eq_ok_iff.mp hrun
    obtain ⟨rfl, rfl⟩ := Prod.mk.inj hpair
    refine ⟨rfl, rfl, [], isFee_nil, ?_⟩
    rw [List.append_nil]
    exact h.perm hperm
  | input =>
    rw [hside] at hrun
    obtain ⟨ref, s₁, hpay, hrun₁⟩ := Build.bind_eq_ok_iff.mp hrun
    obtain ⟨rfl, hcommands⟩ := payReferralFee_eq_ok hpay
    by_cases hless : amount < route.feeAmount
    · rw [if_pos hless] at hrun₁
      cases hrun₁
    · rw [if_neg hless] at hrun₁
      obtain ⟨hpair, rfl⟩ := Build.pure_eq_ok_iff.mp hrun₁
      obtain ⟨rfl, rfl⟩ := Prod.mk.inj hpair
      have hle := UInt64.not_lt.mp hless
      refine ⟨rfl, UInt64.toNat_sub_of_le _ _ hle, ?_⟩
      rcases hcommands with ⟨hzero, rfl⟩ | ⟨hfee, recipient, haddress, rfl⟩
      · have hfee : route.feeAmount.toNat = 0 := congrArg UInt64.toNat hzero
        rw [hfee]
        refine ⟨[], isFee_nil, ?_⟩
        rw [List.append_nil]
        exact h.perm hperm
      · exact ⟨_, isFee_singleton (fun habsurd => hfee (UInt64.toNat.inj habsurd)) haddress,
          reach_fee h hperm (UInt64.le_iff_toNat_le.mp hle) recipient⟩

/-- **The fee on the output** is taken from the coin. -/
theorem reach_payOutputFee
    (hrun : payOutputFee texts coin route referralFee commands = .ok ((), commands'))
    (h : Reach (network deployment answers funds) h₀ commands snap)
    (hperm : snap.live.Perm ((coin, .coin tag value) :: rest)) (hle : route.outputFee ≤ value) :
    ∃ fee, IsFee texts referralFee tag route.outputFee fee ∧
      Reach (network deployment answers funds) h₀ commands' { snap with
        live := (coin, .coin tag (value - route.outputFee)) :: rest
        received := snap.received ++ fee } := by
  rcases payOutputFee_eq_ok hrun with ⟨hzero, rfl⟩ | ⟨hfee, hne, recipient, haddress, rfl⟩
  · rw [hzero]
    refine ⟨[], isFee_nil, ?_⟩
    rw [List.append_nil]
    exact h.perm hperm
  · rw [hfee] at hle hne ⊢
    exact ⟨_, isFee_singleton hne haddress, reach_fee h hperm hle recipient⟩

/-- A fee that the output does not hold. -/
lemma fails_payOutputFee
    (hrun : payOutputFee texts coin route referralFee commands = .ok ((), commands'))
    (h : Reach (network deployment answers funds) h₀ commands snap)
    (hperm : snap.live.Perm ((coin, .coin tag value) :: rest)) (hlt : value < route.outputFee) :
    Fails (network deployment answers funds) h₀ commands' := by
  rcases payOutputFee_eq_ok hrun with ⟨hzero, -⟩ | ⟨hfee, -, recipient, -, rfl⟩
  · rw [hzero] at hlt
    exact absurd hlt (Nat.not_lt_zero _)
  · rw [hfee] at hlt
    exact fails_fee h hperm hlt recipient

/-! ## The smallest output -/

/-- The commands of the check. -/
lemma checkMinOut_eq (minOut : UInt64) : checkMinOut coin minOut commands =
    .ok ((), commands ++ [.splitCoins coin [.pure (leBytes 8 minOut.toNat)]] ++
      [.mergeCoins coin [.nested commands.length 0]]) := rfl

/-- **The smallest output** is there, and the coin is what it was. -/
theorem reach_checkMinOut {minOut : UInt64}
    (hrun : checkMinOut coin minOut commands = .ok ((), commands'))
    (h : Reach (network deployment answers funds) h₀ commands snap)
    (hperm : snap.live.Perm ((coin, .coin tag value) :: rest)) (hle : minOut.toNat ≤ value) :
    Reach (network deployment answers funds) h₀ commands'
      { snap with live := (coin, .coin tag value) :: rest } := by
  obtain ⟨-, rfl⟩ := Prod.mk.inj (Except.ok.inj ((checkMinOut_eq minOut).symm.trans hrun))
  have hmerged := (h.split hperm hle).merge (List.Perm.swap _ _ _)
  rw [Nat.sub_add_cancel hle] at hmerged
  exact hmerged

/-- The smallest output is not there. -/
lemma fails_checkMinOut {minOut : UInt64}
    (hrun : checkMinOut coin minOut commands = .ok ((), commands'))
    (h : Reach (network deployment answers funds) h₀ commands snap)
    (hperm : snap.live.Perm ((coin, .coin tag value) :: rest)) (hlt : value < minOut.toNat) :
    Fails (network deployment answers funds) h₀ commands' := by
  obtain ⟨-, rfl⟩ := Prod.mk.inj (Except.ok.inj ((checkMinOut_eq minOut).symm.trans hrun))
  exact (h.fails_split hperm hlt).append _

/-! ## The output -/

section Deliver

variable {coinType : String} {sender destination : Sui.Address} {sui : TypeTag} {gas : ℕ}

/-- The output goes into the gas coin. -/
def ReturnsToGas (coinType : String) (sender destination : Sui.Address) : Prop :=
  destination = sender ∧ isSuiCoin coinType = true

instance : Decidable (ReturnsToGas coinType sender destination) :=
  inferInstanceAs (Decidable (_ ∧ _))

/-- **Who gets the output**: the gas coin of the sender, or the destination. -/
theorem reach_deliverOutput
    (hrun : deliverOutput coin coinType sender destination commands = .ok ((), commands'))
    (hsui : isSuiCoin coinType = true → tag = sui)
    (h : Reach (network deployment answers funds) h₀ commands snap)
    (hperm : snap.live.Perm ((coin, .coin tag value) :: (.gas, .coin sui gas) :: rest)) :
    Reach (network deployment answers funds) h₀ commands' { snap with
      live := (.gas, .coin sui
        (gas + if ReturnsToGas coinType sender destination then value else 0)) :: rest
      received := snap.received ++
        if ReturnsToGas coinType sender destination then []
        else [(destination, tag, value)] } := by
  rw [deliverOutput] at hrun
  by_cases hreturns : destination = sender ∧ isSuiCoin coinType = true
  · have hgasCoin : ReturnsToGas coinType sender destination := hreturns
    rw [if_pos hreturns] at hrun
    rw [if_pos hgasCoin, if_pos hgasCoin, List.append_nil]
    obtain ⟨ref, s₁, hgas, hrun₁⟩ := ofPtb_bind_eq_ok_iff.mp hrun
    obtain ⟨rfl, rfl⟩ := Prod.mk.inj (Except.ok.inj hgas)
    obtain ⟨-, rfl⟩ := Prod.mk.inj (Except.ok.inj hrun₁)
    obtain rfl := hsui hreturns.2
    exact h.merge (hperm.trans (List.Perm.swap _ _ _))
  · have hgasCoin : ¬ReturnsToGas coinType sender destination := hreturns
    rw [if_neg hreturns] at hrun
    rw [if_neg hgasCoin, if_neg hgasCoin]
    have hsend := ofPtb_eq_ok_iff.mp hrun
    obtain ⟨-, rfl⟩ := Prod.mk.inj (Except.ok.inj ((transferCoin_eq _).symm.trans hsend))
    exact h.send hperm destination

end Deliver

/-! ## What only appends -/

lemma grows_transferCoin (recipient : Sui.Address) : Build.Grows (transferCoin coin recipient) :=
  (Sui.grows_pureBytes _).bind fun _ => Sui.grows_transferObjects _ _

lemma grows_suiAddress (address : String) : Build.Grows (suiAddress texts address) :=
  Build.grows_ofExcept _

lemma grows_payOutputFee : Build.Grows (payOutputFee texts coin route referralFee) := by
  rw [payOutputFee]
  by_cases hpays : route.feeSide = .output ∧ route.feeAmount > 0
  · rw [if_pos hpays]
    exact (grows_ofPtb (Sui.grows_pureBytes _)).bind fun _ =>
      (grows_ofPtb (Sui.grows_splitCoin _ _ _)).bind fun _ =>
        (grows_suiAddress _).bind fun _ => grows_ofPtb (grows_transferCoin _)
  · rw [if_neg hpays]
    exact Build.grows_pure ()

lemma grows_payReferralFee (fee : UInt64) :
    Build.Grows (payReferralFee texts coin fee referralFee) := by
  intro commands ref commands' hrun
  rcases (payReferralFee_eq_ok hrun).2 with ⟨-, rfl⟩ | ⟨-, recipient, -, rfl⟩
  · exact List.prefix_refl _
  · exact List.prefix_append _ _

lemma grows_swapInput (amount : UInt64) :
    Build.Grows (swapInput texts coin amount route referralFee) := by
  rw [swapInput]
  cases route.feeSide with
  | output => exact Build.grows_pure _
  | input =>
    refine (grows_payReferralFee _).bind fun ref => ?_
    by_cases hless : amount < route.feeAmount
    · rw [if_pos hless]
      exact Build.grows_ofExcept _
    · rw [if_neg hless]
      exact Build.grows_pure _

lemma grows_checkMinOut (minOut : UInt64) : Build.Grows (checkMinOut coin minOut) :=
  (grows_ofPtb (Sui.grows_pureBytes _)).bind fun _ =>
    (grows_ofPtb (Sui.grows_splitCoin _ _ _)).bind fun _ => grows_ofPtb (Sui.grows_mergeCoins _ _)

lemma grows_deliverOutput (coinType : String) (sender destination : Sui.Address) :
    Build.Grows (deliverOutput coin coinType sender destination) := by
  rw [deliverOutput]
  by_cases hreturns : destination = sender ∧ isSuiCoin coinType = true
  · rw [if_pos hreturns]
    exact (grows_ofPtb (Build.grows_update fun _ => List.prefix_refl _)).bind fun _ =>
      grows_ofPtb (Sui.grows_mergeCoins _ _)
  · rw [if_neg hreturns]
    exact grows_ofPtb (grows_transferCoin _)

end GemCore.Cetus

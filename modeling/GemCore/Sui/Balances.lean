import GemCore.Sui.Funding

/-!
# Calls on coins and balances

The calls that turn coins into balances and back (`gem_sui/src/tx_builder/balance.rs`), and the coin
that a swap starts with (`build_input_coin` of `gem_sui/src/tx_builder/transaction.rs`).

## Main definitions

* `moveCall` — a call of a function whose type arguments are texts.
* `intoBalance`, `fromBalance`, `balanceZero` and the like.
* `buildInputCoin` — a coin of an amount.

## Main results

* `moveCall_eq_ok` — the command of a call.
* `reach_buildInputCoin`, `fails_buildInputCoin` — what becomes of the amount.
-/

namespace GemCore.Sui

open Lib

/-! ## Calls -/

section Calls

variable (texts : TextLib)

/-- `move_call`. -/
def moveCall (package : Address) (module function : String) (typeArgs : List String)
    (arguments : List Ref) : PtbBuild Ref := do
  let target ← Build.ofExcept (moveFunction texts package module function typeArgs)
  Ptb.moveCall target arguments

/-- `zero_coin`. -/
def zeroCoin (coinType : String) : PtbBuild Ref :=
  moveCall texts suiFrameworkPackageAddress "coin" "zero" [coinType] []

/-- `into_balance`. -/
def intoBalance (coinType : String) (coin : Ref) : PtbBuild Ref :=
  moveCall texts suiFrameworkPackageAddress "coin" "into_balance" [coinType] [coin]

/-- `from_balance`. -/
def fromBalance (coinType : String) (balance : Ref) : PtbBuild Ref :=
  moveCall texts suiFrameworkPackageAddress "coin" "from_balance" [coinType] [balance]

/-- `balance_zero`. -/
def balanceZero (coinType : String) : PtbBuild Ref :=
  moveCall texts suiFrameworkPackageAddress "balance" "zero" [coinType] []

/-- `balance_value`. -/
def balanceValue (coinType : String) (balance : Ref) : PtbBuild Ref :=
  moveCall texts suiFrameworkPackageAddress "balance" "value" [coinType] [balance]

/-- `destroy_zero_balance`. -/
def destroyZeroBalance (coinType : String) (balance : Ref) : PtbBuild Unit := do
  let _result ←
    moveCall texts suiFrameworkPackageAddress "balance" "destroy_zero" [coinType] [balance]

/-- `SUI_COIN_TYPE`. -/
def suiCoinType : String := "0x2::sui::SUI"

/-- `SUI_COIN_TYPE_FULL`. -/
def suiCoinTypeFull : String :=
  "0x0000000000000000000000000000000000000000000000000000000000000002::sui::SUI"

/-- `is_sui_coin`. -/
def isSuiCoin (coinType : String) : Bool :=
  decide (coinType = suiCoinType ∨ coinType = suiCoinTypeFull)

/-- `build_input_coin`. -/
def buildInputCoin (coinType : String) (amount : UInt64) (source : OwnedCoins) : PtbBuild Ref := do
  if amount = 0 then zeroCoin texts coinType
  else if isSuiCoin coinType then
    let amountArgument ← Ptb.pureU64 amount
    let gasCoin ← Ptb.gas
    Ptb.splitCoin gasCoin amountArgument (.invalidInput "Sui split coin failed")
  else if source.total < amount then Build.ofExcept (.error (.insufficientBalance coinType))
  else
    let typeTag ← Build.ofExcept ((texts.typeTag coinType).mapError fun err =>
      .invalidInput ("Invalid Sui coin type " ++ coinType ++ ": " ++ err))
    buildAmountCoin typeTag amount source.addressBalance source.coins

end Calls

variable {ρ : Type} {texts : TextLib} {env : Environment ρ} {h₀ : Holdings ρ}

/-- **The command of a call.** -/
theorem moveCall_eq_ok {package : Address} {module function : String} {typeArgs : List String}
    {arguments : List Ref} {commands commands' : List (Command Ref)} {ref : Ref}
    (h : moveCall texts package module function typeArgs arguments commands =
      .ok (ref, commands')) :
    ∃ tags, List.Forall₂ (fun text tag => texts.typeTag text = .ok tag) typeArgs tags ∧
      ref = .result commands.length ∧
      commands' = commands ++ [.moveCall ⟨package, module, function, tags⟩ arguments] := by
  obtain ⟨target, htarget, hrun⟩ := Build.ofExcept_bind_eq_ok_iff.mp h
  obtain ⟨tags, htags, htarget⟩ := bind_eq_ok_iff.mp htarget
  obtain ⟨-, -, htarget⟩ := bind_eq_ok_iff.mp htarget
  obtain ⟨-, -, htarget⟩ := bind_eq_ok_iff.mp htarget
  obtain rfl := Except.ok.inj htarget
  obtain ⟨rfl, rfl⟩ := Prod.mk.inj (Except.ok.inj hrun)
  refine ⟨tags, (tryMap_eq_ok_iff.mp htags).imp fun text tag htag => ?_, rfl, rfl⟩
  exact mapError_eq_ok_iff.mp htag

/-- The command of a call with one type argument. -/
lemma moveCall_one_eq_ok {package : Address} {module function coinType : String}
    {arguments : List Ref} {commands commands' : List (Command Ref)} {ref : Ref} {tag : TypeTag}
    (htag : texts.typeTag coinType = .ok tag)
    (h : moveCall texts package module function [coinType] arguments commands =
      .ok (ref, commands')) :
    ref = .result commands.length ∧
      commands' = commands ++ [.moveCall ⟨package, module, function, [tag]⟩ arguments] := by
  obtain ⟨tags, htags, href, hcommands⟩ := moveCall_eq_ok h
  cases htags with
  | cons hhead htail =>
    cases htail
    rw [htag] at hhead
    obtain rfl := Except.ok.inj hhead
    exact ⟨href, hcommands⟩

/-- The type argument of a call that is built can be read. -/
lemma exists_tag_of_moveCall {package : Address} {module function coinType : String}
    {arguments : List Ref} {commands commands' : List (Command Ref)} {ref : Ref}
    (h : moveCall texts package module function [coinType] arguments commands =
      .ok (ref, commands')) : ∃ tag, texts.typeTag coinType = .ok tag := by
  obtain ⟨tags, htags, -⟩ := moveCall_eq_ok h
  cases htags with
  | cons hhead htail => exact ⟨_, hhead⟩

/-! ### What only appends -/

section Appends

lemma grows_moveCall (package : Address) (module function : String) (typeArgs : List String)
    (arguments : List Ref) : Build.Grows (moveCall texts package module function typeArgs arguments) :=
  (Build.grows_ofExcept _).bind fun _ => Build.grows_update fun _ => List.prefix_append _ _

lemma grows_destroyZeroBalance (coinType : String) (balance : Ref) :
    Build.Grows (destroyZeroBalance texts coinType balance) :=
  (grows_moveCall _ _ _ _ _).bind fun _ => Build.grows_pure _

lemma grows_pureBytes (bytes : List UInt8) : Build.Grows (Ptb.pureBytes bytes) :=
  Build.grows_update fun _ => List.prefix_refl _

lemma grows_splitCoin (coin amount : Ref) (error : SuiError) :
    Build.Grows (Ptb.splitCoin coin amount error) := by
  refine (Build.grows_update fun _ => List.prefix_append _ _).bind fun results => ?_
  cases results.getLast? with
  | none => exact Build.grows_ofExcept _
  | some result => exact Build.grows_pure result

lemma grows_mergeCoins (destination : Ref) (sources : List Ref) :
    Build.Grows (Ptb.mergeCoins destination sources) :=
  Build.grows_update fun _ => List.prefix_append _ _

lemma grows_transferObjects (objects : List Ref) (address : Ref) :
    Build.Grows (Ptb.transferObjects objects address) :=
  Build.grows_update fun _ => List.prefix_append _ _

end Appends

/-! ## What the calls do -/

section Reached

variable {coinType : String} {tag : TypeTag} {commands commands' : List (Command Ref)}
  {snap : Snapshot ρ} {rest : List (Ref × Item ρ)} {ref argument : Ref} {value : ℕ}

lemma reach_zeroCoin (htag : texts.typeTag coinType = .ok tag)
    (hrun : zeroCoin texts coinType commands = .ok (ref, commands'))
    (h : Reach env h₀ commands snap) :
    Reach env h₀ commands' { snap with live := (ref, .coin tag 0) :: snap.live } := by
  obtain ⟨rfl, rfl⟩ := moveCall_one_eq_ok htag hrun
  exact h.coinZero

lemma reach_intoBalance (htag : texts.typeTag coinType = .ok tag)
    (hrun : intoBalance texts coinType argument commands = .ok (ref, commands'))
    (h : Reach env h₀ commands snap)
    (hperm : snap.live.Perm ((argument, .coin tag value) :: rest)) :
    Reach env h₀ commands' { snap with live := (ref, .balance tag value) :: rest } := by
  obtain ⟨rfl, rfl⟩ := moveCall_one_eq_ok htag hrun
  exact h.intoBalance hperm

lemma reach_fromBalance (htag : texts.typeTag coinType = .ok tag)
    (hrun : fromBalance texts coinType argument commands = .ok (ref, commands'))
    (h : Reach env h₀ commands snap)
    (hperm : snap.live.Perm ((argument, .balance tag value) :: rest)) :
    Reach env h₀ commands' { snap with live := (ref, .coin tag value) :: rest } := by
  obtain ⟨rfl, rfl⟩ := moveCall_one_eq_ok htag hrun
  exact h.fromBalance hperm

lemma reach_balanceZero (htag : texts.typeTag coinType = .ok tag)
    (hrun : balanceZero texts coinType commands = .ok (ref, commands'))
    (h : Reach env h₀ commands snap) :
    Reach env h₀ commands' { snap with live := (ref, .balance tag 0) :: snap.live } := by
  obtain ⟨rfl, rfl⟩ := moveCall_one_eq_ok htag hrun
  exact h.balanceZero

lemma reach_balanceValue (htag : texts.typeTag coinType = .ok tag)
    (hrun : balanceValue texts coinType argument commands = .ok (ref, commands'))
    (h : Reach env h₀ commands snap)
    (hperm : snap.live.Perm ((argument, .balance tag value) :: rest)) :
    Reach env h₀ commands' { snap with live := (ref, .number value) :: snap.live } := by
  obtain ⟨rfl, rfl⟩ := moveCall_one_eq_ok htag hrun
  exact h.balanceValue hperm

lemma reach_destroyZeroBalance (htag : texts.typeTag coinType = .ok tag)
    (hrun : destroyZeroBalance texts coinType argument commands = .ok ((), commands'))
    (h : Reach env h₀ commands snap)
    (hperm : snap.live.Perm ((argument, .balance tag 0) :: rest)) :
    Reach env h₀ commands' { snap with live := rest } := by
  obtain ⟨ref, commands'', hcall, hpure⟩ := Build.bind_eq_ok_iff.mp hrun
  obtain ⟨-, rfl⟩ := Build.pure_eq_ok_iff.mp hpure
  obtain ⟨-, rfl⟩ := moveCall_one_eq_ok htag hcall
  exact h.destroyZero hperm

end Reached

/-! ## The input coin -/

section InputCoin

variable {coinType : String} {tag sui : TypeTag} {amount : UInt64} {source : OwnedCoins} {gas : ℕ}
  {ref : Ref} {commands : List (Command Ref)}

/-- The objects beside the gas coin: those of another type. -/
def inputObjects (coinType : String) (source : OwnedCoins) : List Coin :=
  if isSuiCoin coinType then [] else source.coins

/-- The value of the gas coin once an amount has been taken. -/
def gasAfter (coinType : String) (gas : ℕ) (amount : UInt64) : ℕ :=
  if isSuiCoin coinType then gas - amount.toNat else gas

/-- **The input coin** is made unless it is to come from a gas coin that does not hold the amount. -/
theorem reach_buildInputCoin
    (hbuild : buildInputCoin texts coinType amount source [] = .ok (ref, commands))
    (htag : texts.typeTag coinType = .ok tag) (hsui : isSuiCoin coinType = true → tag = sui)
    (hfunds : env.funds = ⟨some tag, source.addressBalance.toNat⟩)
    (h : Reach env h₀ [] ⟨(.gas, .coin sui gas) ::
      (inputObjects coinType source).map (Coin.held tag), 0, [], [], 0⟩)
    (hgas : isSuiCoin coinType = true → amount.toNat ≤ gas) :
    ∃ left withdrawn, Reach env h₀ commands ⟨(ref, .coin tag amount.toNat) ::
        (.gas, .coin sui (gasAfter coinType gas amount)) :: left, withdrawn, [], [], 0⟩ ∧
      OnlyObjects left ∧ withdrawn ≤ source.addressBalance.toNat := by
  rw [buildInputCoin] at hbuild
  by_cases hzero : amount = 0
  · rw [if_pos hzero] at hbuild
    have hafter : gasAfter coinType gas amount = gas := by
      rw [gasAfter, hzero, UInt64.toNat_zero, Nat.sub_zero, ite_self]
    rw [hafter, hzero]
    exact ⟨_, _, reach_zeroCoin htag hbuild h, onlyObjects_map_held _, Nat.zero_le _⟩
  · rw [if_neg hzero] at hbuild
    by_cases hnative : isSuiCoin coinType = true
    · rw [if_pos hnative] at hbuild
      obtain ⟨rfl, rfl⟩ := Prod.mk.inj (Except.ok.inj hbuild)
      obtain rfl := hsui hnative
      rw [gasAfter, if_pos hnative]
      rw [inputObjects, if_pos hnative] at h
      exact ⟨[], _, h.split (List.Perm.refl _) (hgas hnative),
        fun ref hmem => absurd hmem List.not_mem_nil, Nat.zero_le _⟩
    · rw [if_neg hnative] at hbuild
      by_cases htotal : source.total < amount
      · rw [if_pos htotal] at hbuild
        cases hbuild
      · rw [if_neg htotal] at hbuild
        obtain ⟨tag', htag', hbuild⟩ := Build.ofExcept_bind_eq_ok_iff.mp hbuild
        rw [mapError_eq_ok_iff.mp htag'] at htag
        obtain rfl := Except.ok.inj htag
        have hle : amount.toNat ≤ worth source.coins + source.addressBalance.toNat := by
          rw [UInt64.lt_iff_toNat_lt, OwnedCoins.total, toNat_saturatingAdd, OwnedCoins.coinTotal,
            toNat_balanceTotal] at htotal
          omega
        rw [inputObjects, if_neg hnative] at h
        rw [gasAfter, if_neg hnative]
        obtain ⟨left, withdrawn, hreach, honly, hwithdrawn⟩ := reach_buildAmountCoin hbuild h
          (List.perm_append_singleton _ _).symm rfl hfunds hle
        exact ⟨left, withdrawn, hreach.perm ((List.perm_append_singleton _ _).cons _), honly,
          hwithdrawn⟩

/-- The input coin is not made of a gas coin that does not hold the amount. -/
lemma fails_buildInputCoin
    (hbuild : buildInputCoin texts coinType amount source [] = .ok (ref, commands))
    {live : List (Ref × Item ρ)}
    (h : Reach env h₀ [] ⟨(.gas, .coin sui gas) :: live, 0, [], [], 0⟩)
    (hgas : ¬(isSuiCoin coinType = true → amount.toNat ≤ gas)) : Fails env h₀ commands := by
  obtain ⟨hnative, hlt⟩ := Classical.not_imp.mp hgas
  rw [buildInputCoin] at hbuild
  by_cases hzero : amount = 0
  · rw [hzero] at hlt
    exact absurd (Nat.zero_le gas) hlt
  · rw [if_neg hzero, if_pos hnative] at hbuild
    obtain ⟨rfl, rfl⟩ := Prod.mk.inj (Except.ok.inj hbuild)
    exact h.fails_split (List.Perm.refl _) (not_le.mp hlt)

end InputCoin

end GemCore.Sui

import GemCore.Sui.Transfer

/-!
# How an amount is funded

The execution of the commands that make a coin of an amount: a withdrawal, or a part of the gas coin,
or a part of coin objects that are made one and completed by a withdrawal.

## Main definitions

* `OnlyObjects` — values that are no results of commands.
* `IsNativeType` — the types of native coins.

## Main results

* `reach_buildAmountCoin` — a coin of objects and funds of one type.
* `reach_buildNativeCoin`, `fails_buildNativeCoin` — a native coin.
-/

namespace GemCore.Sui

open Lib (Build leBytes)

variable {ρ : Type} {env : Environment ρ} {h₀ : Holdings ρ} {coinType : TypeTag} {amount : UInt64}

/-- No value is the result of a command. -/
def OnlyObjects (live : List (Ref × Item ρ)) : Prop :=
  ∀ ref ∈ live.map Prod.fst, ref.command? = none

/-- Coin objects are no results. -/
lemma onlyObjects_map_held (coins : List Coin) :
    OnlyObjects (coins.map (Coin.held (ρ := ρ) coinType)) := by
  intro ref hmem
  obtain ⟨entry, hentry, rfl⟩ := List.mem_map.mp hmem
  obtain ⟨coin, -, rfl⟩ := List.mem_map.mp hentry
  rfl

/-- What is left when only objects are: no result. -/
lemma Snapshot.Of.items_eq_none {snap : Snapshot ρ} {index : ℕ} {h : Holdings ρ}
    (hof : snap.Of index h) (honly : OnlyObjects snap.live) {ref : Ref} (href : ref.command? ≠ none) :
    h.items ref = none :=
  hof.owns.get_none fun hmem => href (honly ref hmem)

/-! ## Coins of objects and funds -/

/-- The coins that are merged into the first one. -/
lemma reach_merged {snap : Snapshot ρ} {coin : Coin} {rest : List Coin}
    {others : List (Ref × Item ρ)} (h : Reach env h₀ [] snap)
    (hperm : snap.live.Perm ((coin :: rest).map (Coin.held coinType) ++ others)) :
    Reach env h₀
      (if rest.map Coin.ref ≠ [] then [.mergeCoins coin.ref (rest.map Coin.ref)] else [])
      { snap with live := (coin.ref, .coin coinType (worth (coin :: rest))) :: others } := by
  by_cases hrest : rest.map Coin.ref ≠ []
  · have hrefs : (rest.map fun coin => (coin.ref, coin.balance.toNat)).map Prod.fst =
        rest.map Coin.ref := List.map_map
    have hvalues : (rest.map fun coin => (coin.ref, coin.balance.toNat)).map Prod.snd =
        rest.map fun coin => coin.balance.toNat := List.map_map
    have hheld : (rest.map fun coin => (coin.ref, coin.balance.toNat)).map
        (fun source => ((source.1, .coin coinType source.2) : Ref × Item ρ)) =
          rest.map (Coin.held coinType) := List.map_map
    rw [List.map_cons, ← hheld] at hperm
    have hmerge := h.mergeAll hperm
    rw [hrefs, hvalues] at hmerge
    rw [if_pos hrest]
    exact hmerge
  · rw [if_neg hrest]
    obtain rfl : rest = [] := List.map_eq_nil_iff.mp (not_not.mp hrest)
    exact h.perm hperm

/-- **An amount is gathered** in the first of the coins. -/
theorem reach_gatherCommands {snap : Snapshot ρ} {coin : Coin} {rest : List Coin}
    {others : List (Ref × Item ρ)} (h : Reach env h₀ [] snap)
    (hperm : snap.live.Perm ((coin :: rest).map (Coin.held coinType) ++ others))
    (hzero : snap.withdrawn = 0) (htype : env.funds.coinType = some coinType)
    (hle : amount.toNat ≤ worth (coin :: rest) + env.funds.balance) :
    ∃ value withdrawn, Reach env h₀
        (gatherCommands coinType amount (coin :: rest) coin.ref (rest.map Coin.ref))
        { snap with live := (coin.ref, .coin coinType value) :: others, withdrawn := withdrawn } ∧
      amount.toNat ≤ value ∧ withdrawn ≤ env.funds.balance := by
  have hmerged := reach_merged h hperm
  rw [gatherCommands]
  by_cases htotal : balanceTotal (coin :: rest) < amount
  · rw [if_pos htotal]
    have hless := balanceTotal_lt_iff.mp htotal
    have hexact : (balanceTotal (coin :: rest)).toNat = worth (coin :: rest) := by
      rw [toNat_balanceTotal]
      have hlt := amount.toNat_lt
      omega
    have hshort : (amount - balanceTotal (coin :: rest)).toNat =
        amount.toNat - worth (coin :: rest) := by
      rw [UInt64.toNat_sub_of_le _ _ (UInt64.le_of_lt htotal), hexact]
    have hcover : snap.withdrawn + (amount - balanceTotal (coin :: rest)).toNat ≤
        env.funds.balance := by
      rw [hzero, hshort]
      omega
    have hredeemed := hmerged.redeem htype hcover
    have hcompleted := hredeemed.merge (List.Perm.swap _ _ _)
    rw [List.append_assoc] at hcompleted
    refine ⟨_, _, hcompleted, ?_, hcover⟩
    rw [hshort]
    omega
  · rw [if_neg htotal]
    refine ⟨_, _, hmerged, not_lt.mp fun hlt => htotal (balanceTotal_lt_iff.mpr hlt), ?_⟩
    rw [hzero]
    exact Nat.zero_le _

/-- **A coin of an amount** is made of objects and funds of its type. -/
theorem reach_buildAmountCoin {addressBalance : UInt64} {coins : List Coin} {ref : Ref}
    {ptb : List (Command Ref)} {snap : Snapshot ρ} {others : List (Ref × Item ρ)}
    (hbuild : buildAmountCoin coinType amount addressBalance coins [] = .ok (ref, ptb))
    (h : Reach env h₀ [] snap)
    (hperm : snap.live.Perm (coins.map (Coin.held coinType) ++ others))
    (hzero : snap.withdrawn = 0) (hfunds : env.funds = ⟨some coinType, addressBalance.toNat⟩)
    (hle : amount.toNat ≤ worth coins + addressBalance.toNat) :
    ∃ left withdrawn, Reach env h₀ ptb { snap with
        live := (ref, .coin coinType amount.toNat) :: (left ++ others)
        withdrawn := withdrawn } ∧
      OnlyObjects left ∧ withdrawn ≤ addressBalance.toNat := by
  have htype : env.funds.coinType = some coinType := by rw [hfunds]
  have hbalance : env.funds.balance = addressBalance.toNat := by rw [hfunds]
  by_cases hwithdraw : amount ≤ addressBalance
  · rw [buildAmountCoin_of_le hwithdraw] at hbuild
    obtain ⟨rfl, rfl⟩ := Prod.mk.inj (Except.ok.inj hbuild)
    have hcover : snap.withdrawn + amount.toNat ≤ env.funds.balance := by
      rw [hzero, hbalance, zero_add]
      exact UInt64.le_iff_toNat_le.mp hwithdraw
    refine ⟨coins.map (Coin.held coinType), _, (h.redeem htype hcover).perm (hperm.cons _),
      onlyObjects_map_held coins, ?_⟩
    rw [← hbalance]
    exact hcover
  · obtain ⟨coin, rest, gathered, rfl, rfl, rfl, rfl⟩ := buildAmountCoin_of_not_le hwithdraw hbuild
    rw [← hbalance] at hle
    obtain ⟨value, withdrawn, hgathered, hvalue, hwithdrawn⟩ :=
      reach_gatherCommands h hperm hzero htype hle
    refine ⟨[(coin.ref, .coin coinType (value - amount.toNat))], withdrawn,
      hgathered.split (List.Perm.refl _) hvalue, fun ref hmem => ?_, hbalance ▸ hwithdrawn⟩
    rw [List.mem_singleton.mp hmem]
    rfl

/-! ## Native coins -/

section Native

variable {texts : TextLib} {owned : OwnedCoins} {sui : TypeTag} {gas : ℕ}

/-- The types of native coins: that of the gas coin, and that of the funds. -/
def IsNativeType (texts : TextLib) (owned : OwnedCoins) (sui coinType : TypeTag) : Prop :=
  coinType = sui ∨ texts.typeTag owned.coinType = .ok coinType

/-- **A native coin** is made when the funds of the address or the gas coin hold the amount. -/
theorem reach_buildNativeCoin {ref : Ref} {ptb : List (Command Ref)}
    (hbuild : buildNativeCoin texts owned amount [] = .ok (ref, ptb))
    (h : Reach env h₀ [] ⟨[(.gas, .coin sui gas)], 0, [], [], 0⟩)
    (hfunds : env.funds = ⟨(texts.typeTag owned.coinType).toOption, owned.addressBalance.toNat⟩)
    (hheld : amount ≤ owned.addressBalance ∨ amount.toNat ≤ gas) :
    ∃ coinType left withdrawn, Reach env h₀ ptb
        ⟨(ref, .coin coinType amount.toNat) :: left, withdrawn, [], [], 0⟩ ∧
      IsNativeType texts owned sui coinType ∧ OnlyObjects left ∧
      withdrawn ≤ owned.addressBalance.toNat := by
  have hgas : OnlyObjects [((.gas, .coin sui gas) : Ref × Item ρ)] := by
    intro ref hmem
    rw [List.mem_singleton.mp hmem]
    rfl
  rcases buildNativeCoin_eq_ok hbuild with ⟨hle, coinType, htype, rfl, rfl⟩ | ⟨hle, rfl, rfl⟩
  · have hcoinType : env.funds.coinType = some coinType := by
      rw [hfunds, htype]
      rfl
    have hcover : 0 + amount.toNat ≤ owned.addressBalance.toNat := by
      rw [zero_add]
      exact UInt64.le_iff_toNat_le.mp hle
    refine ⟨coinType, _, _, h.redeem hcoinType ?_, .inr htype, hgas, hcover⟩
    rw [hfunds]
    exact hcover
  · rcases hheld with habsurd | hheld
    · exact absurd habsurd hle
    · refine ⟨sui, _, _, h.split (List.Perm.refl _) hheld, .inl rfl, ?_, Nat.zero_le _⟩
      intro ref hmem
      rw [List.mem_singleton.mp hmem]
      rfl

/-- No native coin is made when neither does. -/
lemma fails_buildNativeCoin {ref : Ref} {ptb : List (Command Ref)}
    (hbuild : buildNativeCoin texts owned amount [] = .ok (ref, ptb))
    (h : Reach env h₀ [] ⟨[(.gas, .coin sui gas)], 0, [], [], 0⟩)
    (hheld : ¬(amount ≤ owned.addressBalance ∨ amount.toNat ≤ gas)) : Fails env h₀ ptb := by
  rw [not_or] at hheld
  rcases buildNativeCoin_eq_ok hbuild with ⟨hle, -⟩ | ⟨-, rfl, rfl⟩
  · exact absurd hle hheld.1
  · exact h.fails_split (List.Perm.refl _) (not_le.mp hheld.2)

end Native

end GemCore.Sui

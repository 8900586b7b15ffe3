import GemCore.Primitives.Saturating
import Mathlib.Data.UInt

/-!
# Routes over pools

A route of the Cetus pools, its amounts and its price limits
(`swapper/src/cetus_clmm/model.rs`, `sqrt_price_limit_with_slippage` of `tx_builder.rs` and
`apply_slippage_in_bp` of `gem_evm/src/slippage.rs`).

Products of 128-bit prices saturate. Products of 64-bit amounts wrap, as they do in a release build.

## Main definitions

* `Hop`, `PoolRoute` — a route.
* `sqrtPriceLimitWithSlippage`, `applySlippageInBp` — limits.
* `PriceWithin` — a limit that a pool accepts, on the right side of the price.

## Main results

* `priceWithin_iff`, `priceFits_of_mem_bounds` — when it is one.
* `toNat_applySlippageInBp_eq_iff` — when a minimum is what it should be.
-/

namespace GemCore.Cetus

/-! ## Routes -/

/-- `u128`. -/
abbrev U128 : Type := BitVec 128

/-- `FeeSide`. -/
inductive FeeSide where
  | input
  | output
  deriving DecidableEq

/-- `Hop`, up to the version of its pool. -/
structure Hop where
  poolId : String
  coinA : String
  coinB : String
  a2b : Bool
  amountIn : UInt64
  amountOut : UInt64
  afterSqrtPrice : U128

/-- `Hop::input_coin_type`. -/
def Hop.inputCoinType (hop : Hop) : String := if hop.a2b then hop.coinA else hop.coinB

/-- `Hop::output_coin_type`. -/
def Hop.outputCoinType (hop : Hop) : String := if hop.a2b then hop.coinB else hop.coinA

/-- `Hop::order_by_direction`. -/
def Hop.orderByDirection {α : Type} (hop : Hop) (sideA sideB : α) : α × α :=
  if hop.a2b then (sideA, sideB) else (sideB, sideA)

/-- `PoolRoute`. -/
structure PoolRoute where
  hops : List Hop
  feeAmount : UInt64
  feeSide : FeeSide

namespace PoolRoute

variable (route : PoolRoute)

/-- `PoolRoute::input_coin_type`; `none` where it panics. -/
def inputCoinType : Option String := route.hops.head?.map Hop.inputCoinType

/-- `PoolRoute::output_coin_type`; `none` where it panics. -/
def outputCoinType : Option String := route.hops.getLast?.map Hop.outputCoinType

/-- `PoolRoute::gross_amount_out`. -/
def grossAmountOut : UInt64 := (route.hops.getLast?.map Hop.amountOut).getD 0

/-- `PoolRoute::net_amount_out`. -/
def netAmountOut : UInt64 :=
  match route.feeSide with
  | .input => route.grossAmountOut
  | .output => saturatingSub route.grossAmountOut route.feeAmount

end PoolRoute

/-! ## Price limits -/

/-- `MIN_SQRT_PRICE_X64`. -/
def minSqrtPriceX64 : U128 := 4295048016

/-- `MAX_SQRT_PRICE_X64`. -/
def maxSqrtPriceX64 : U128 := 79226673515401279992447579055

/-- `u128::saturating_mul`. -/
def saturatingMul128 (a b : U128) : U128 := .ofNat 128 (min (a.toNat * b.toNat) (2 ^ 128 - 1))

/-- `u128::saturating_add`. -/
def saturatingAdd128 (a b : U128) : U128 := .ofNat 128 (min (a.toNat + b.toNat) (2 ^ 128 - 1))

/-- `u128::saturating_sub`. -/
def saturatingSub128 (a b : U128) : U128 := .ofNat 128 (a.toNat - b.toNat)

/-- `sqrt_price_limit_with_slippage`. -/
def sqrtPriceLimitWithSlippage (hop : Hop) (slippageBps : UInt32) : U128 :=
  if hop.afterSqrtPrice = 0 then
    if hop.a2b then minSqrtPriceX64 else maxSqrtPriceX64
  else
    let bps := BitVec.ofNat 128 slippageBps.toNat
    if hop.a2b then
      let limit := saturatingMul128 hop.afterSqrtPrice (saturatingSub128 10000 bps) / 10000
      if limit ≤ minSqrtPriceX64 then minSqrtPriceX64 else limit
    else
      let limit := saturatingAdd128
        (saturatingMul128 hop.afterSqrtPrice (saturatingAdd128 10000 bps)) 9999 / 10000
      if maxSqrtPriceX64 ≤ limit then maxSqrtPriceX64 else limit

/-- **A limit that does what it is for**: it lies within the bounds of a pool, on the side of the price
that the direction requires, and no product has been cut off. -/
structure PriceWithin (hop : Hop) (slippageBps : UInt32) (limit : U128) : Prop where
  min_le : minSqrtPriceX64.toNat ≤ limit.toNat
  le_max : limit.toNat ≤ maxSqrtPriceX64.toNat
  side : hop.afterSqrtPrice ≠ 0 →
    if hop.a2b then limit.toNat ≤ hop.afterSqrtPrice.toNat
    else hop.afterSqrtPrice.toNat ≤ limit.toNat
  exact : hop.afterSqrtPrice ≠ 0 →
    if hop.a2b then hop.afterSqrtPrice.toNat * (10000 - slippageBps.toNat) < 2 ^ 128
    else hop.afterSqrtPrice.toNat * (10000 + slippageBps.toNat) + 9999 < 2 ^ 128

/-- **The price of a hop leaves room for its limit**: it is not known, or the price and the price with
slippage do not leave the bounds of a pool where the limit is not cut off. -/
def PriceFits (hop : Hop) (slippageBps : UInt32) : Prop :=
  hop.afterSqrtPrice = 0 ∨
    if hop.a2b then
      minSqrtPriceX64.toNat ≤ hop.afterSqrtPrice.toNat ∧
        hop.afterSqrtPrice.toNat * (10000 - slippageBps.toNat) / 10000 ≤ maxSqrtPriceX64.toNat
    else
      hop.afterSqrtPrice.toNat ≤ maxSqrtPriceX64.toNat ∧
        minSqrtPriceX64.toNat ≤
          (hop.afterSqrtPrice.toNat * (10000 + slippageBps.toNat) + 9999) / 10000

section Limits

variable {hop : Hop} {slippageBps : UInt32}

lemma toNat_minSqrtPriceX64 : minSqrtPriceX64.toNat = 4295048016 := by decide

lemma toNat_maxSqrtPriceX64 : maxSqrtPriceX64.toNat = 79226673515401279992447579055 := by decide

/-- The limit of a swap from the first coin to the second one. -/
lemma toNat_limit_of_a2b (hprice : hop.afterSqrtPrice ≠ 0) (ha2b : hop.a2b = true) :
    (sqrtPriceLimitWithSlippage hop slippageBps).toNat =
      max (min (hop.afterSqrtPrice.toNat * (10000 - slippageBps.toNat)) (2 ^ 128 - 1) / 10000)
        minSqrtPriceX64.toNat := by
  have hbps := slippageBps.toNat_lt
  have hsub : (saturatingSub128 10000 (BitVec.ofNat 128 slippageBps.toNat)).toNat =
      10000 - slippageBps.toNat := by
    rw [saturatingSub128, BitVec.toNat_ofNat, BitVec.toNat_ofNat]
    show (10000 - slippageBps.toNat % 2 ^ 128) % 2 ^ 128 = _
    omega
  have hlimit : (saturatingMul128 hop.afterSqrtPrice
      (saturatingSub128 10000 (BitVec.ofNat 128 slippageBps.toNat)) / 10000).toNat =
        min (hop.afterSqrtPrice.toNat * (10000 - slippageBps.toNat)) (2 ^ 128 - 1) / 10000 := by
    rw [BitVec.toNat_udiv, saturatingMul128, BitVec.toNat_ofNat, hsub]
    show (min _ (2 ^ 128 - 1)) % 2 ^ 128 / 10000 = _
    rw [Nat.mod_eq_of_lt (by omega)]
  rw [sqrtPriceLimitWithSlippage, if_neg hprice]
  simp only [ha2b, if_true]
  by_cases hle : saturatingMul128 hop.afterSqrtPrice
      (saturatingSub128 10000 (BitVec.ofNat 128 slippageBps.toNat)) / 10000 ≤ minSqrtPriceX64
  · rw [if_pos hle]
    rw [BitVec.le_def, hlimit] at hle
    exact (max_eq_right hle).symm
  · rw [if_neg hle, hlimit]
    rw [BitVec.le_def, hlimit] at hle
    exact (max_eq_left (le_of_not_ge hle)).symm

/-- The limit of a swap from the second coin to the first one. -/
lemma toNat_limit_of_b2a (hprice : hop.afterSqrtPrice ≠ 0) (ha2b : hop.a2b = false) :
    (sqrtPriceLimitWithSlippage hop slippageBps).toNat =
      min (min (min (hop.afterSqrtPrice.toNat * (10000 + slippageBps.toNat)) (2 ^ 128 - 1) + 9999)
        (2 ^ 128 - 1) / 10000) maxSqrtPriceX64.toNat := by
  have hbps := slippageBps.toNat_lt
  have hadd : (saturatingAdd128 10000 (BitVec.ofNat 128 slippageBps.toNat)).toNat =
      10000 + slippageBps.toNat := by
    rw [saturatingAdd128, BitVec.toNat_ofNat, BitVec.toNat_ofNat]
    show min (10000 + slippageBps.toNat % 2 ^ 128) (2 ^ 128 - 1) % 2 ^ 128 = _
    omega
  have hlimit : (saturatingAdd128 (saturatingMul128 hop.afterSqrtPrice
      (saturatingAdd128 10000 (BitVec.ofNat 128 slippageBps.toNat))) 9999 / 10000).toNat =
        min (min (hop.afterSqrtPrice.toNat * (10000 + slippageBps.toNat)) (2 ^ 128 - 1) + 9999)
          (2 ^ 128 - 1) / 10000 := by
    rw [BitVec.toNat_udiv, saturatingAdd128, BitVec.toNat_ofNat, saturatingMul128,
      BitVec.toNat_ofNat, hadd]
    show (min ((min _ (2 ^ 128 - 1)) % 2 ^ 128 + 9999) (2 ^ 128 - 1)) % 2 ^ 128 / 10000 = _
    rw [Nat.mod_eq_of_lt (by omega), Nat.mod_eq_of_lt (by omega)]
  rw [sqrtPriceLimitWithSlippage, if_neg hprice]
  simp only [ha2b, Bool.false_eq_true, if_false]
  by_cases hle : maxSqrtPriceX64 ≤ saturatingAdd128 (saturatingMul128 hop.afterSqrtPrice
      (saturatingAdd128 10000 (BitVec.ofNat 128 slippageBps.toNat))) 9999 / 10000
  · rw [if_pos hle]
    rw [BitVec.le_def, hlimit] at hle
    exact (min_eq_right hle).symm
  · rw [if_neg hle, hlimit]
    rw [BitVec.le_def, hlimit] at hle
    exact (min_eq_left (le_of_not_ge hle)).symm

/-- **When the limit of a hop does what it is for.** -/
theorem priceWithin_iff : PriceWithin hop slippageBps (sqrtPriceLimitWithSlippage hop slippageBps) ↔
    PriceFits hop slippageBps := by
  have hbps := slippageBps.toNat_lt
  have hmin := toNat_minSqrtPriceX64
  have hmax := toNat_maxSqrtPriceX64
  by_cases hprice : hop.afterSqrtPrice = 0
  · refine ⟨fun _ => .inl hprice, fun _ => ?_⟩
    have hlimit : (sqrtPriceLimitWithSlippage hop slippageBps) =
        if hop.a2b then minSqrtPriceX64 else maxSqrtPriceX64 := if_pos hprice
    rw [hlimit]
    by_cases ha2b : hop.a2b = true
    · rw [if_pos ha2b]
      exact ⟨le_refl _, by omega, fun habsurd => absurd hprice habsurd,
        fun habsurd => absurd hprice habsurd⟩
    · rw [if_neg ha2b]
      exact ⟨by omega, le_refl _, fun habsurd => absurd hprice habsurd,
        fun habsurd => absurd hprice habsurd⟩
  · by_cases ha2b : hop.a2b = true
    · have hlimit := @toNat_limit_of_a2b hop slippageBps hprice ha2b
      have hle : hop.afterSqrtPrice.toNat * (10000 - slippageBps.toNat) / 10000 ≤
          hop.afterSqrtPrice.toNat := by
        refine Nat.div_le_of_le_mul ?_
        rw [Nat.mul_comm 10000]
        exact Nat.mul_le_mul_left _ (Nat.sub_le _ _)
      rw [PriceFits, or_iff_right hprice, if_pos ha2b]
      constructor
      · intro h
        have hside := h.side hprice
        have hexact := h.exact hprice
        have hmaxLimit := h.le_max
        rw [if_pos ha2b] at hside hexact
        omega
      · rintro ⟨hlow, hhigh⟩
        refine ⟨by omega, by omega, fun _ => ?_, fun _ => ?_⟩
        · rw [if_pos ha2b]
          omega
        · rw [if_pos ha2b]
          omega
    · have hlimit := @toNat_limit_of_b2a hop slippageBps hprice (by
        exact Bool.eq_false_iff.mpr ha2b)
      have hle : hop.afterSqrtPrice.toNat ≤
          (hop.afterSqrtPrice.toNat * (10000 + slippageBps.toNat) + 9999) / 10000 := by
        rw [Nat.le_div_iff_mul_le (by omega), Nat.mul_add]
        omega
      rw [PriceFits, or_iff_right hprice, if_neg ha2b]
      constructor
      · intro h
        have hside := h.side hprice
        have hexact := h.exact hprice
        have hminLimit := h.min_le
        rw [if_neg ha2b] at hside hexact
        omega
      · rintro ⟨hhigh, hlow⟩
        have hproduct : hop.afterSqrtPrice.toNat * (10000 + slippageBps.toNat) ≤
            79226673515401279992447579055 * (10000 + 4294967295) :=
          Nat.mul_le_mul (hmax ▸ hhigh) (by omega)
        refine ⟨by omega, by omega, fun _ => ?_, fun _ => ?_⟩
        · rw [if_neg ha2b]
          omega
        · rw [if_neg ha2b]
          omega

/-- Any price of a pool leaves room. -/
lemma priceFits_of_mem_bounds (hmin : minSqrtPriceX64.toNat ≤ hop.afterSqrtPrice.toNat)
    (hmax : hop.afterSqrtPrice.toNat ≤ maxSqrtPriceX64.toNat) : PriceFits hop slippageBps := by
  by_cases ha2b : hop.a2b = true
  · refine .inr ?_
    rw [if_pos ha2b]
    refine ⟨hmin, (Nat.div_le_of_le_mul ?_).trans hmax⟩
    rw [Nat.mul_comm 10000]
    exact Nat.mul_le_mul_left _ (Nat.sub_le _ _)
  · refine .inr ?_
    rw [if_neg ha2b]
    refine ⟨hmax, hmin.trans ?_⟩
    rw [Nat.le_div_iff_mul_le (by omega), Nat.mul_add]
    omega

end Limits

/-! ## Minimal amounts -/

/-- `apply_slippage_in_bp`. -/
def applySlippageInBp (amount : UInt64) (bps : UInt32) : UInt64 :=
  amount * .ofNat (10000 - min bps.toNat 10000) / 10000

/-- What is left of an amount after slippage. -/
def afterSlippage (amount : ℕ) (bps : UInt32) : ℕ := amount * (10000 - min bps.toNat 10000) / 10000

lemma toNat_applySlippageInBp (amount : UInt64) (bps : UInt32) :
    (applySlippageInBp amount bps).toNat =
      amount.toNat * (10000 - min bps.toNat 10000) % 2 ^ 64 / 10000 := by
  rw [applySlippageInBp, UInt64.toNat_div, UInt64.toNat_mul, UInt64.toNat_ofNat']
  show amount.toNat * ((10000 - min bps.toNat 10000) % 2 ^ 64) % 2 ^ 64 / 10000 = _
  rw [Nat.mod_eq_of_lt (by omega : 10000 - min bps.toNat 10000 < 2 ^ 64)]

/-- **A minimum is what it should be** unless the product wraps; then it is smaller. -/
theorem toNat_applySlippageInBp_eq_iff {amount : UInt64} {bps : UInt32} :
    (applySlippageInBp amount bps).toNat = afterSlippage amount.toNat bps ↔
      amount.toNat * (10000 - min bps.toNat 10000) < 2 ^ 64 := by
  rw [toNat_applySlippageInBp, afterSlippage]
  omega

end GemCore.Cetus

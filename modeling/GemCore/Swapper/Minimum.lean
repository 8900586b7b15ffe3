import Mathlib.Tactic.Ring
import GemCore.Swapper.Thorchain

/-!
# When a reported minimum is enough

A quote that is refused because the amount is too small names a minimum, and the swap screen offers
to use that amount. This module says for which requests the check that refused then passes, and
that no smaller amount passes: the checks of THORChain, which compare in units of eight decimals,
and the fee reserve of a maximum amount (`swapper/src/fees/reserve.rs`).

## Main definitions

* `maxQuoteValueWithFeeReserve` — `max_quote_value_with_fee_reserve`.
* `MinimumSuffices` — a check that refuses an amount passes at the minimum it reports, and at no
  smaller amount.
* `RoundsToMinimum` — the condition on a check of THORChain.
* `LeavesReserve` — the condition on the fee reserve.

## Main results

* `minimumSuffices_checkMinimum_iff`, `minimumSuffices_reserve_iff` — the two checks.
* `minimumSuffices_iff` — all checks of a request.
-/

namespace GemCore.Swapper

open Thorchain

/-! ## The fee reserve -/

/-- `RESERVED_NATIVE_FEES`. -/
def reservedTransactionFees : Chain → Option ℕ
  | .ethereum => some 1000000000000000
  | .arbitrum => some 300000000000000
  | .base => some 300000000000000
  | .optimism => some 500000000000000
  | .avalancheC => some 3000000000000000
  | .smartChain => some 2000000000000000
  | .polygon => some 20000000000000000
  | .gnosis => some 5000000000000000
  | .berachain => some 5000000000000000
  | .sui => some 50000000
  | .solana => some 5000000
  | .tron => some 2000000
  | .ton => some 20000000
  | .aptos => some 20000000
  | .monad => some 5000000000000000
  | .xLayer => some 5000000000000000
  | .plasma => some 5000000000000000
  | _ => none

/-- `quote_value_after_reserve`, with `use_max_amount` of the options. -/
def quoteValueAfterReserve (request : QuoteRequest) (useMaxAmount : Bool) (reserved : ℕ) :
    Except SwapperError ℕ :=
  if !useMaxAmount || !request.fromAsset.isNative then .ok request.value
  else if 2 ^ 256 ≤ request.value then
    .error (.computeQuoteError ("invalid amount: " ++ toString request.value))
  else if request.value ≤ reserved then .error (.inputAmountError (some (toString reserved)))
  else .ok (request.value - reserved)

/-- `max_quote_value_with_fee_reserve`. -/
def maxQuoteValueWithFeeReserve (request : QuoteRequest) (useMaxAmount : Bool) :
    Except SwapperError ℕ :=
  match reservedTransactionFees request.fromAsset.chain with
  | none => .ok request.value
  | some reserved => quoteValueAfterReserve request useMaxAmount reserved

/-- The check of the fee reserve, for a request of `value`. -/
def reserveCheck (request : QuoteRequest) (useMaxAmount : Bool) (value : ℕ) :
    Except SwapperError ℕ :=
  maxQuoteValueWithFeeReserve { request with value := value } useMaxAmount

/-! ## Reported minimums -/

section Suffices

variable {α : Type}

/-- If the check refuses `value` and reports a minimum, it passes at that minimum, and at no smaller
amount. -/
def MinimumSuffices (check : ℕ → Except SwapperError α) (value : ℕ) : Prop :=
  ∀ minimum, check value = .error (.inputAmountError (some minimum)) →
    ∃ m : ℕ, minimum = toString m ∧ (∃ a, check m = .ok a) ∧ ∀ v, (∃ a, check v = .ok a) → m ≤ v

lemma toString_nat_injective : Function.Injective (toString : ℕ → String) := by
  intro a b h
  have hlist : ∀ n : ℕ, (toString n).toList = Nat.toDigits 10 n := fun n => Nat.toList_repr
  have hdigits : Nat.toDigits 10 a = Nat.toDigits 10 b := by rw [← hlist, h, hlist]
  rw [← @Nat.ofDigitChars_ten_toDigits a, hdigits, Nat.ofDigitChars_ten_toDigits]

/-- A check that passes reports nothing. -/
lemma minimumSuffices_of_ok {check : ℕ → Except SwapperError α} {value : ℕ} {a : α}
    (h : check value = .ok a) : MinimumSuffices check value := by
  intro minimum hminimum
  rw [h] at hminimum
  cases hminimum

/-- A check that refuses an amount with a minimum is judged at that minimum. -/
theorem minimumSuffices_iff_of_error {check : ℕ → Except SwapperError α} {value m : ℕ}
    (h : check value = .error (.inputAmountError (some (toString m)))) :
    MinimumSuffices check value ↔
      (∃ a, check m = .ok a) ∧ ∀ v, (∃ a, check v = .ok a) → m ≤ v := by
  constructor
  · intro hsuffices
    obtain ⟨m', hm, hpass⟩ := hsuffices _ h
    rwa [toString_nat_injective hm]
  · intro hpass minimum hminimum
    rw [h] at hminimum
    have heq : some (toString m) = some minimum := by
      injection hminimum with hminimum
      injection hminimum
    exact ⟨m, (Option.some.inj heq).symm, hpass⟩

end Suffices

/-! ## The checks of THORChain -/

/-- **The condition on a check of THORChain**: the amount passes, or the asset has at least eight
decimals, or the minimum is a whole number of the units of the asset. -/
def RoundsToMinimum (minimum decimals : ℤ) (value : ℕ) : Prop :=
  minimum ≤ valueFrom value decimals ∨ 8 ≤ decimals ∨ 10 ^ (8 - decimals).natAbs ∣ minimum

lemma checkMinimum_eq_ok_iff {minimum value decimals : ℤ} :
    (∃ a, checkMinimum minimum value decimals = .ok a) ↔ minimum ≤ value := by
  unfold checkMinimum
  by_cases h : value < minimum
  · rw [if_pos h]
    exact iff_of_false (fun ⟨_, ha⟩ => nomatch ha) (by omega)
  · rw [if_neg h]
    exact iff_of_true ⟨(), rfl⟩ (by omega)

/-- The conversions for an asset with `k` decimals more than eight. -/
lemma valueFrom_more (n k : ℕ) : valueFrom n (8 + k) = ((n / 10 ^ k : ℕ) : ℤ) := by
  have hdiff : (8 + (k : ℤ)) - thorchainDecimals = k := by
    unfold thorchainDecimals
    omega
  unfold valueFrom
  dsimp only
  rw [hdiff, Int.natAbs_natCast]
  split_ifs with h
  · rw [Int.tdiv_eq_ediv_of_nonneg (by omega)]
    push_cast
    rfl
  · obtain rfl : k = 0 := by omega
    simp

lemma valueTo_more (n k : ℕ) : valueTo n (8 + k) = ((n * 10 ^ k : ℕ) : ℤ) := by
  have hdiff : (8 + (k : ℤ)) - thorchainDecimals = k := by
    unfold thorchainDecimals
    omega
  unfold valueTo
  dsimp only
  rw [hdiff, Int.natAbs_natCast]
  split_ifs with h
  · push_cast
    rfl
  · obtain rfl : k = 0 := by omega
    simp

/-- The conversions for an asset with `k` decimals fewer than eight. -/
lemma valueFrom_fewer (n k : ℕ) : valueFrom n (8 - k) = ((n * 10 ^ k : ℕ) : ℤ) := by
  have hdiff : (8 - (k : ℤ)) - thorchainDecimals = -k := by
    unfold thorchainDecimals
    omega
  unfold valueFrom
  dsimp only
  rw [hdiff, Int.natAbs_neg, Int.natAbs_natCast, if_neg (by omega)]
  push_cast
  rfl

lemma valueTo_fewer (n k : ℕ) : valueTo n (8 - k) = ((n / 10 ^ k : ℕ) : ℤ) := by
  have hdiff : (8 - (k : ℤ)) - thorchainDecimals = -k := by
    unfold thorchainDecimals
    omega
  unfold valueTo
  dsimp only
  rw [hdiff, Int.natAbs_neg, Int.natAbs_natCast, if_neg (by omega),
    Int.tdiv_eq_ediv_of_nonneg (by omega)]
  push_cast
  rfl

/-- **A reported minimum of THORChain** is enough exactly under the condition.

**Proof sketch.** With more than eight decimals the minimum is multiplied for the report and divided
again for the comparison. With fewer it is divided for the report, which drops a remainder, and what
is left is multiplied for the comparison. -/
theorem minimumSuffices_checkMinimum_iff (minimum decimals : ℤ) (value : ℕ) :
    MinimumSuffices (fun v : ℕ => checkMinimum minimum (valueFrom v decimals) decimals) value ↔
      RoundsToMinimum minimum decimals value := by
  by_cases hpass : minimum ≤ valueFrom value decimals
  · obtain ⟨a, ha⟩ := checkMinimum_eq_ok_iff.mpr hpass
    exact iff_of_true (minimumSuffices_of_ok ha) (.inl hpass)
  have hpow : ∀ k : ℕ, 0 < 10 ^ k := fun k => Nat.pow_pos (by norm_num)
  rcases le_total 8 decimals with hmore | hfewer
  · obtain ⟨k, hk⟩ := Int.eq_ofNat_of_zero_le (sub_nonneg.mpr hmore)
    obtain rfl : decimals = 8 + k := by omega
    rw [valueFrom_more] at hpass
    obtain ⟨n, rfl⟩ := Int.eq_ofNat_of_zero_le
      ((Int.natCast_nonneg _).trans (not_le.mp hpass).le)
    have herror : checkMinimum n (valueFrom value (8 + k)) (8 + k) =
        .error (.inputAmountError (some (toString (n * 10 ^ k)))) := by
      rw [valueFrom_more, checkMinimum, if_pos (by omega), valueTo_more]
      rfl
    refine iff_of_true ((minimumSuffices_iff_of_error herror).mpr ?_) (.inr (.inl hmore))
    simp only [checkMinimum_eq_ok_iff, valueFrom_more, Nat.cast_le]
    refine ⟨?_, fun v hv => ?_⟩
    · rw [Nat.mul_div_cancel _ (hpow k)]
    · exact (Nat.le_div_iff_mul_le (hpow k)).mp hv
  · obtain ⟨k, hk⟩ := Int.eq_ofNat_of_zero_le (sub_nonneg.mpr hfewer)
    obtain rfl : decimals = 8 - k := by omega
    rw [valueFrom_fewer] at hpass
    obtain ⟨n, rfl⟩ := Int.eq_ofNat_of_zero_le
      ((Int.natCast_nonneg _).trans (not_le.mp hpass).le)
    have herror : checkMinimum n (valueFrom value (8 - k)) (8 - k) =
        .error (.inputAmountError (some (toString (n / 10 ^ k)))) := by
      rw [valueFrom_fewer, checkMinimum, if_pos (by omega), valueTo_fewer]
      rfl
    have hcondition : RoundsToMinimum n (8 - k) value ↔ 10 ^ k ∣ n := by
      unfold RoundsToMinimum
      rw [valueFrom_fewer, show (8 - (8 - (k : ℤ))).natAbs = k by omega]
      have hcast : ((10 : ℤ) ^ k ∣ (n : ℤ)) ↔ 10 ^ k ∣ n := by exact_mod_cast Int.natCast_dvd_natCast
      rw [hcast]
      constructor
      · rintro (h | h | h)
        · exact absurd h hpass
        · obtain rfl : k = 0 := by omega
          simp
        · exact h
      · exact fun h => .inr (.inr h)
    rw [minimumSuffices_iff_of_error herror, hcondition]
    simp only [checkMinimum_eq_ok_iff, valueFrom_fewer, Nat.cast_le]
    constructor
    · rintro ⟨hle, -⟩
      exact (Nat.le_antisymm (Nat.div_mul_le_self n _) hle) ▸ Nat.dvd_mul_left _ _
    · intro hdvd
      refine ⟨(Nat.div_mul_cancel hdvd).ge, fun v hv => ?_⟩
      exact Nat.div_le_of_le_mul (by rwa [Nat.mul_comm])

/-! ## The check of the fee reserve -/

/-- **The condition on the fee reserve**: the request does not use the maximum, or not of a native
asset, or the chain has no reserve, or the amount is more than the reserve. -/
def LeavesReserve (request : QuoteRequest) (useMaxAmount : Bool) : Prop :=
  useMaxAmount = true → request.fromAsset.isNative = true →
    ∀ reserved, reservedTransactionFees request.fromAsset.chain = some reserved →
      reserved < request.value

lemma reservedTransactionFees_lt {chain : Chain} {reserved : ℕ}
    (h : reservedTransactionFees chain = some reserved) : reserved < 2 ^ 256 := by
  cases chain <;> simp only [reservedTransactionFees, Option.some.injEq, reduceCtorEq] at h <;> omega

/-- **A reported reserve** is never enough: the check that reports it refuses it. -/
theorem minimumSuffices_reserve_iff (request : QuoteRequest) (useMaxAmount : Bool) :
    MinimumSuffices (reserveCheck request useMaxAmount) request.value ↔
      LeavesReserve request useMaxAmount := by
  cases htable : reservedTransactionFees request.fromAsset.chain with
  | none =>
    have hok : reserveCheck request useMaxAmount request.value = .ok request.value := by
      unfold reserveCheck maxQuoteValueWithFeeReserve
      rw [htable]
    refine iff_of_true (minimumSuffices_of_ok hok) fun _ _ reserved hreserved => ?_
    rw [htable] at hreserved
    cases hreserved
  | some reserved =>
    have hcheck : ∀ value, reserveCheck request useMaxAmount value =
        quoteValueAfterReserve { request with value := value } useMaxAmount reserved := by
      intro value
      unfold reserveCheck maxQuoteValueWithFeeReserve
      rw [htable]
    have hleaves : LeavesReserve request useMaxAmount ↔ (useMaxAmount = true →
        request.fromAsset.isNative = true → reserved < request.value) := by
      unfold LeavesReserve
      simp only [htable, Option.some.injEq, forall_eq']
    by_cases happlies : useMaxAmount = true ∧ request.fromAsset.isNative = true
    · obtain ⟨hmax, hnative⟩ := happlies
      have hvalue : ∀ value, reserveCheck request useMaxAmount value =
          if 2 ^ 256 ≤ value then .error (.computeQuoteError ("invalid amount: " ++ toString value))
          else if value ≤ reserved then .error (.inputAmountError (some (toString reserved)))
          else .ok (value - reserved) := by
        intro value
        rw [hcheck, quoteValueAfterReserve, hmax, hnative]
        rfl
      have hsmall := reservedTransactionFees_lt htable
      by_cases hle : request.value ≤ reserved
      · have herror : reserveCheck request useMaxAmount request.value =
            .error (.inputAmountError (some (toString reserved))) := by
          rw [hvalue, if_neg (by omega), if_pos hle]
        rw [minimumSuffices_iff_of_error herror, hleaves]
        refine iff_of_false ?_ fun h => absurd (h hmax hnative) (by omega)
        rintro ⟨⟨a, ha⟩, -⟩
        rw [hvalue, if_neg (by omega), if_pos (le_refl _)] at ha
        cases ha
      · refine iff_of_true ?_ (hleaves.mpr fun _ _ => by omega)
        intro minimum hminimum
        rw [hvalue, if_neg hle] at hminimum
        split_ifs at hminimum
        cases hminimum
    · have hok : reserveCheck request useMaxAmount request.value = .ok request.value := by
        rw [hcheck, quoteValueAfterReserve, if_pos]
        cases hmax : useMaxAmount with
        | false => rfl
        | true =>
          have hnative : request.fromAsset.isNative = false := by
            rw [Bool.eq_false_iff]
            exact fun hnative => happlies ⟨hmax, hnative⟩
          rw [hnative]
          rfl
      refine iff_of_true (minimumSuffices_of_ok hok) (hleaves.mpr fun hmax hnative => ?_)
      exact absurd ⟨hmax, hnative⟩ happlies

/-! ## All checks -/

/-- **Reported minimums are enough**, for the dust check, the check of the recommended minimum and
the fee reserve of a request, exactly when the amounts of the node round to the units of the asset
and the amount is more than the reserve. -/
theorem minimumSuffices_iff (request : QuoteRequest) (useMaxAmount : Bool)
    (decimals dustThreshold recommendedMinAmountIn : ℤ) :
    (MinimumSuffices (dustCheck decimals dustThreshold) request.value ∧
      MinimumSuffices (recommendedCheck decimals recommendedMinAmountIn) request.value ∧
      MinimumSuffices (reserveCheck request useMaxAmount) request.value) ↔
    RoundsToMinimum (minValue dustThreshold) decimals request.value ∧
      RoundsToMinimum recommendedMinAmountIn decimals request.value ∧
      LeavesReserve request useMaxAmount :=
  and_congr (minimumSuffices_checkMinimum_iff _ _ _)
    (and_congr (minimumSuffices_checkMinimum_iff _ _ _) (minimumSuffices_reserve_iff _ _))

/-- A maximum request for SOL. -/
def sampleRequest (value : ℕ) : QuoteRequest where
  fromAsset := ⟨.solana, none⟩
  toAsset := ⟨.sui, none⟩
  value := value
  walletAddress := "address"
  destinationAddress := "address"

/-- **Two minimums that are refused again**: a recommended minimum of 661475 units for an asset of
six decimals is reported as 6614, which is 661400 units; and the reserve of 5000000 lamports is
reported to a maximum request of one, and refused. -/
theorem minimum_refused_again :
    (recommendedCheck 6 661475 1 = .error (.inputAmountError (some "6614")) ∧
      recommendedCheck 6 661475 6614 = .error (.inputAmountError (some "6614")) ∧
      ¬MinimumSuffices (recommendedCheck 6 661475) 1) ∧
    reserveCheck (sampleRequest 1) true 1 = .error (.inputAmountError (some "5000000")) ∧
      reserveCheck (sampleRequest 1) true 5000000 = .error (.inputAmountError (some "5000000")) ∧
      ¬MinimumSuffices (reserveCheck (sampleRequest 1) true) 1 := by
  refine ⟨⟨by decide +kernel, by decide +kernel, fun h => ?_⟩, by decide +kernel,
    by decide +kernel, fun h => ?_⟩
  · rcases (minimumSuffices_checkMinimum_iff _ _ _).mp h with h | h | h
    · exact absurd h (by decide +kernel)
    · exact absurd h (by norm_num)
    · exact absurd h (by norm_num)
  · have hleaves := (minimumSuffices_reserve_iff (sampleRequest 1) true).mp h rfl rfl 5000000 rfl
    exact absurd hleaves (by decide)

end GemCore.Swapper

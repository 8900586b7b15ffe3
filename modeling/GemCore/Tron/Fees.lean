import GemCore.Lib.Result
import GemCore.Primitives.Saturating
import Mathlib.Tactic.Ring

/-!
# Fees of token transfers

`calculate_token_fee_rate_with_data` of `gem_tron/src/provider/preload_mapper.rs`: what a call of a
contract costs, from the prices of the network and what the account has free. The prices are signed in
the answer of the network and cast to unsigned ones; sums and products wrap, as they do in a release
build.

## Main definitions

* `calculateTokenFeeRateWithData` — the fee and its limit.
* `Unwrapped` — no operation wraps and no price changes its sign.
* `FeeBounds` — what a fee promises.
* `Fits` — the prices and amounts for which all of this is so.

## Main results

* `feeSound_iff` — when fees are sound.
-/

namespace GemCore.Tron

/-! ## Usage and prices -/

/-- `ChainParameter`. -/
structure ChainParameter where
  key : String
  value : Option Int64

/-- `TronAccountUsage`. -/
structure TronAccountUsage where
  freeNetUsed : UInt64
  freeNetLimit : UInt64
  netUsed : UInt64
  netLimit : UInt64
  energyUsed : UInt64
  energyLimit : UInt64

namespace TronAccountUsage

/-- `available_staked_bandwidth`. -/
def availableStakedBandwidth (usage : TronAccountUsage) : UInt64 :=
  saturatingSub usage.netLimit usage.netUsed

/-- `available_bandwidth`. -/
def availableBandwidth (usage : TronAccountUsage) : UInt64 :=
  saturatingAdd (saturatingSub usage.freeNetLimit usage.freeNetUsed) usage.availableStakedBandwidth

/-- `available_energy`. -/
def availableEnergy (usage : TronAccountUsage) : UInt64 :=
  saturatingSub usage.energyLimit usage.energyUsed

/-- `missing_energy`. -/
def missingEnergy (usage : TronAccountUsage) (required : UInt64) : UInt64 :=
  saturatingSub required usage.availableEnergy

end TronAccountUsage

/-- `get_chain_parameter_value`. -/
def getChainParameterValue (parameters : List ChainParameter) (key : String) :
    Except String Int64 :=
  match (parameters.find? fun parameter => parameter.key = key).bind ChainParameter.value with
  | some value => .ok value
  | none => .error ("Missing chain parameter: " ++ key)

/-- The prices of energy, of bandwidth and of a memo. -/
structure Prices where
  energyPrice : Int64
  bandwidthPrice : Int64
  memoFee : Int64

/-- The prices that a fee depends on. -/
def getPrices (parameters : List ChainParameter) (hasMemo : Bool) : Except String Prices := do
  let energyPrice ← getChainParameterValue parameters "getEnergyFee"
  let bandwidthPrice ← getChainParameterValue parameters "getTransactionFee"
  let memoFee ← if hasMemo then getChainParameterValue parameters "getMemoFee" else .ok 0
  .ok ⟨energyPrice, bandwidthPrice, memoFee⟩

/-! ## The fee -/

/-- `DEFAULT_BANDWIDTH_BYTES`. -/
def defaultBandwidthBytes : UInt64 := 300

/-- `TokenTransferFee`. -/
structure TokenTransferFee where
  fee : UInt64
  feeLimit : UInt64
  energyPrice : UInt64

/-- `apply_buffer`. -/
def applyBuffer (value percent : UInt64) : UInt64 := value * (100 + percent) / 100

/-- `bandwidth_fee`. -/
def bandwidthFee (usage : TronAccountUsage) (required price : UInt64) : UInt64 :=
  if required ≤ usage.availableBandwidth then 0 else required * price

/-- `calculate_token_transfer_fee_for_bandwidth`. -/
def calculateTokenTransferFeeForBandwidth (usage : TronAccountUsage)
    (estimatedEnergy energyPrice bandwidthPrice bandwidthBytes memoFee bufferPercent : UInt64) :
    TokenTransferFee :=
  let energyWithBuffer := applyBuffer estimatedEnergy bufferPercent
  let chargeableEnergy := usage.missingEnergy energyWithBuffer
  let energyFee := chargeableEnergy * energyPrice
  let bandwidthFee := bandwidthFee usage bandwidthBytes bandwidthPrice
  { fee := energyFee + bandwidthFee + memoFee
    feeLimit := energyWithBuffer * energyPrice
    energyPrice := energyPrice }

/-- `calculate_token_fee_rate_with_data`. -/
def calculateTokenFeeRateWithData (parameters : List ChainParameter) (usage : TronAccountUsage)
    (estimatedEnergy dataBytes : UInt64) (hasMemo : Bool) (bufferPercent : UInt64) :
    Except String TokenTransferFee := do
  let prices ← getPrices parameters hasMemo
  .ok (calculateTokenTransferFeeForBandwidth usage estimatedEnergy prices.energyPrice.toUInt64
    prices.bandwidthPrice.toUInt64 (saturatingAdd defaultBandwidthBytes dataBytes)
    prices.memoFee.toUInt64 bufferPercent)

/-! ## What a fee promises -/

/-- A call: what the account has free, what the call needs, and the buffer. -/
structure Call where
  usage : TronAccountUsage
  estimatedEnergy : UInt64
  dataBytes : UInt64
  bufferPercent : UInt64

/-- The fee of a call. -/
def Call.fee (call : Call) (parameters : List ChainParameter) (hasMemo : Bool) :
    Except String TokenTransferFee :=
  calculateTokenFeeRateWithData parameters call.usage call.estimatedEnergy call.dataBytes hasMemo
    call.bufferPercent

/-- A call that needs no more than another one, by an account that has no less free. -/
structure Call.Le (call call' : Call) : Prop where
  estimatedEnergy : call.estimatedEnergy ≤ call'.estimatedEnergy
  dataBytes : call.dataBytes ≤ call'.dataBytes
  bufferPercent : call.bufferPercent ≤ call'.bufferPercent
  availableEnergy : call'.usage.availableEnergy ≤ call.usage.availableEnergy
  availableBandwidth : call'.usage.availableBandwidth ≤ call.usage.availableBandwidth

/-- A sum of unsigned integers is that of the numbers. -/
def AddExact (a b : UInt64) : Prop := (a + b).toNat = a.toNat + b.toNat

/-- A product of unsigned integers is that of the numbers. -/
def MulExact (a b : UInt64) : Prop := (a * b).toNat = a.toNat * b.toNat

/-- A price is cast to itself. -/
def CastExact (price : Int64) : Prop := (price.toUInt64.toNat : ℤ) = price.toInt

/-- **No operation wraps and no price changes its sign.** -/
structure Unwrapped (call : Call) (prices : Prices) : Prop where
  energyPrice : CastExact prices.energyPrice
  bandwidthPrice : CastExact prices.bandwidthPrice
  memoFee : CastExact prices.memoFee
  percent : AddExact 100 call.bufferPercent
  buffered : MulExact call.estimatedEnergy (100 + call.bufferPercent)
  energyFee : MulExact (call.usage.missingEnergy (applyBuffer call.estimatedEnergy call.bufferPercent))
    prices.energyPrice.toUInt64
  bytesFee : ¬ saturatingAdd defaultBandwidthBytes call.dataBytes ≤ call.usage.availableBandwidth →
    MulExact (saturatingAdd defaultBandwidthBytes call.dataBytes) prices.bandwidthPrice.toUInt64
  sum : AddExact (call.usage.missingEnergy (applyBuffer call.estimatedEnergy call.bufferPercent) *
      prices.energyPrice.toUInt64)
    (bandwidthFee call.usage (saturatingAdd defaultBandwidthBytes call.dataBytes)
      prices.bandwidthPrice.toUInt64)
  total : AddExact (call.usage.missingEnergy (applyBuffer call.estimatedEnergy call.bufferPercent) *
      prices.energyPrice.toUInt64 +
    bandwidthFee call.usage (saturatingAdd defaultBandwidthBytes call.dataBytes)
      prices.bandwidthPrice.toUInt64) prices.memoFee.toUInt64
  feeLimit : MulExact (applyBuffer call.estimatedEnergy call.bufferPercent)
    prices.energyPrice.toUInt64

/-- The energy of a call with its buffer. -/
def Call.buffered (call : Call) : ℕ :=
  call.estimatedEnergy.toNat * (100 + call.bufferPercent.toNat) / 100

/-- What the bytes of a call burn if the account is short of bandwidth. -/
def Call.bandwidthBurnt (call : Call) (bandwidthPrice : ℕ) : ℕ :=
  if 300 + call.dataBytes.toNat ≤ call.usage.availableBandwidth.toNat then 0
  else (300 + call.dataBytes.toNat) * bandwidthPrice

/-- What a call burns that uses so much energy. -/
def Call.burnt (call : Call) (prices : Prices) (energy : ℕ) : ℕ :=
  (energy - call.usage.availableEnergy.toNat) * prices.energyPrice.toInt.toNat +
    call.bandwidthBurnt prices.bandwidthPrice.toInt.toNat + prices.memoFee.toInt.toNat

/-- **What a fee promises**: its limit pays for the estimate, it covers what is burnt, it is no more than
the limit and the other costs, and a call that needs no more costs no more. -/
structure FeeBounds (parameters : List ChainParameter) (hasMemo : Bool) (call : Call)
    (prices : Prices) (result : TokenTransferFee) : Prop where
  limit : call.estimatedEnergy.toNat * prices.energyPrice.toInt.toNat ≤ result.feeLimit.toNat
  covers : ∀ energy ≤ call.buffered, call.burnt prices energy ≤ result.fee.toNat
  upper : result.fee.toNat ≤ result.feeLimit.toNat +
    call.bandwidthBurnt prices.bandwidthPrice.toInt.toNat + prices.memoFee.toInt.toNat
  mono : ∀ call' : Call, call'.Le call →
    ∃ result', call'.fee parameters hasMemo = .ok result' ∧ result'.fee.toNat ≤ result.fee.toNat

/-- **A sound fee**: an error, or one that is computed without wrapping and keeps its promises. -/
def FeeSound (parameters : List ChainParameter) (hasMemo : Bool) (call : Call) : Prop :=
  (∃ error, call.fee parameters hasMemo = .error error) ∨
    ∃ prices result, getPrices parameters hasMemo = .ok prices ∧
      call.fee parameters hasMemo = .ok result ∧ Unwrapped call prices ∧
      FeeBounds parameters hasMemo call prices result

/-- **The prices and amounts for which fees are sound**: no price is negative, and the products and
sums are below `2 ^ 64`. -/
structure Fits (call : Call) (prices : Prices) : Prop where
  energyPrice : 0 ≤ prices.energyPrice.toInt
  bandwidthPrice : 0 ≤ prices.bandwidthPrice.toInt
  memoFee : 0 ≤ prices.memoFee.toInt
  percent : 100 + call.bufferPercent.toNat < 2 ^ 64
  buffered : call.estimatedEnergy.toNat * (100 + call.bufferPercent.toNat) < 2 ^ 64
  feeLimit : call.buffered * prices.energyPrice.toInt.toNat < 2 ^ 64
  bytes : 300 + call.dataBytes.toNat < 2 ^ 64 ∨ prices.bandwidthPrice.toInt = 0
  fee : call.burnt prices call.buffered < 2 ^ 64

/-! ## Exact arithmetic -/

lemma addExact_iff {a b : UInt64} : AddExact a b ↔ a.toNat + b.toNat < 2 ^ 64 := by
  have ha := a.toNat_lt
  have hb := b.toNat_lt
  rw [AddExact, UInt64.toNat_add]
  omega

lemma mulExact_iff {a b : UInt64} : MulExact a b ↔ a.toNat * b.toNat < 2 ^ 64 := by
  rw [MulExact, UInt64.toNat_mul]
  exact ⟨fun h => h ▸ Nat.mod_lt _ (by decide), Nat.mod_eq_of_lt⟩

lemma castExact_iff {price : Int64} : CastExact price ↔ 0 ≤ price.toInt := by
  have hlt := price.toBitVec.isLt
  rw [CastExact, ← Int64.toNat_toBitVec, Int64.toInt, BitVec.toInt_eq_toNat_cond]
  split_ifs <;> omega

lemma CastExact.toNat {price : Int64} (h : CastExact price) :
    price.toUInt64.toNat = price.toInt.toNat := by
  rw [CastExact] at h
  omega

/-! ## The parts of a fee -/

variable {parameters : List ChainParameter} {hasMemo : Bool} {call call' : Call} {prices : Prices}

/-- The fee of a call for given prices. -/
def Call.feeFor (call : Call) (prices : Prices) : TokenTransferFee :=
  calculateTokenTransferFeeForBandwidth call.usage call.estimatedEnergy
    prices.energyPrice.toUInt64 prices.bandwidthPrice.toUInt64
    (saturatingAdd defaultBandwidthBytes call.dataBytes) prices.memoFee.toUInt64 call.bufferPercent

lemma Call.fee_of_prices (h : getPrices parameters hasMemo = .ok prices) :
    call.fee parameters hasMemo = .ok (call.feeFor prices) := by
  rw [Call.fee, calculateTokenFeeRateWithData, h]
  rfl

lemma toNat_applyBuffer (hpercent : AddExact 100 call.bufferPercent)
    (hbuffered : MulExact call.estimatedEnergy (100 + call.bufferPercent)) :
    (applyBuffer call.estimatedEnergy call.bufferPercent).toNat = call.buffered := by
  rw [applyBuffer, UInt64.toNat_div, hbuffered, hpercent]
  rfl

lemma toNat_saturatedBytes (call : Call) :
    (saturatingAdd defaultBandwidthBytes call.dataBytes).toNat =
      min (300 + call.dataBytes.toNat) (2 ^ 64 - 1) :=
  toNat_saturatingAdd _ _

/-- The bytes cost what they burn, unless their number saturates. -/
lemma toNat_bandwidthFee (hprice : CastExact prices.bandwidthPrice)
    (hmul : ¬ saturatingAdd defaultBandwidthBytes call.dataBytes ≤ call.usage.availableBandwidth →
      MulExact (saturatingAdd defaultBandwidthBytes call.dataBytes) prices.bandwidthPrice.toUInt64)
    (hbytes : 300 + call.dataBytes.toNat < 2 ^ 64 ∨ prices.bandwidthPrice.toInt = 0) :
    (bandwidthFee call.usage (saturatingAdd defaultBandwidthBytes call.dataBytes)
      prices.bandwidthPrice.toUInt64).toNat =
        call.bandwidthBurnt prices.bandwidthPrice.toInt.toNat := by
  have hsaturated := toNat_saturatedBytes call
  rw [bandwidthFee, Call.bandwidthBurnt]
  rcases hbytes with hbytes | hbytes
  · have hexact : (saturatingAdd defaultBandwidthBytes call.dataBytes).toNat =
        300 + call.dataBytes.toNat := by omega
    split_ifs with hle hle' hle'
    · rfl
    · rw [UInt64.le_iff_toNat_le] at hle
      omega
    · rw [UInt64.le_iff_toNat_le] at hle
      omega
    · rw [hmul hle, hexact, hprice.toNat]
  · have hzero := hprice.toNat
    rw [hbytes] at hzero ⊢
    split_ifs
    · rfl
    · exact (Nat.mul_zero _).symm
    · rw [UInt64.toNat_mul, hzero]
      rfl
    · rw [UInt64.toNat_mul, hzero]
      rfl

lemma toNat_missingEnergy (hpercent : AddExact 100 call.bufferPercent)
    (hbuffered : MulExact call.estimatedEnergy (100 + call.bufferPercent)) :
    (call.usage.missingEnergy (applyBuffer call.estimatedEnergy call.bufferPercent)).toNat =
      call.buffered - call.usage.availableEnergy.toNat := by
  rw [TronAccountUsage.missingEnergy, toNat_saturatingSub, toNat_applyBuffer hpercent hbuffered]

/-- **The fee as a number**, when nothing wraps. -/
theorem Unwrapped.toNat_fee (h : Unwrapped call prices) :
    (call.feeFor prices).fee.toNat =
      (call.buffered - call.usage.availableEnergy.toNat) * prices.energyPrice.toInt.toNat +
        (bandwidthFee call.usage (saturatingAdd defaultBandwidthBytes call.dataBytes)
          prices.bandwidthPrice.toUInt64).toNat + prices.memoFee.toInt.toNat := by
  change (_ + _ + _ : UInt64).toNat = _
  rw [h.total, h.sum, h.energyFee, toNat_missingEnergy h.percent h.buffered, h.energyPrice.toNat,
    h.memoFee.toNat]

lemma Unwrapped.toNat_feeLimit (h : Unwrapped call prices) :
    (call.feeFor prices).feeLimit.toNat = call.buffered * prices.energyPrice.toInt.toNat := by
  change (_ * _ : UInt64).toNat = _
  rw [h.feeLimit, toNat_applyBuffer h.percent h.buffered, h.energyPrice.toNat]

/-! ## When fees are sound -/

/-- **Nothing wraps** for the prices and amounts that fit. -/
theorem Fits.unwrapped (h : Fits call prices) : Unwrapped call prices := by
  have henergy : CastExact prices.energyPrice := castExact_iff.mpr h.energyPrice
  have hbandwidth : CastExact prices.bandwidthPrice := castExact_iff.mpr h.bandwidthPrice
  have hmemo : CastExact prices.memoFee := castExact_iff.mpr h.memoFee
  have hpercent : AddExact 100 call.bufferPercent := addExact_iff.mpr h.percent
  have hbuffered : MulExact call.estimatedEnergy (100 + call.bufferPercent) := by
    rw [mulExact_iff, hpercent]
    exact h.buffered
  have hfee := h.fee
  rw [Call.burnt] at hfee
  have henergyFee : MulExact
      (call.usage.missingEnergy (applyBuffer call.estimatedEnergy call.bufferPercent))
      prices.energyPrice.toUInt64 := by
    rw [mulExact_iff, toNat_missingEnergy hpercent hbuffered, henergy.toNat]
    omega
  have hbandwidthFee :
      ¬ saturatingAdd defaultBandwidthBytes call.dataBytes ≤ call.usage.availableBandwidth →
        MulExact (saturatingAdd defaultBandwidthBytes call.dataBytes)
          prices.bandwidthPrice.toUInt64 := by
    intro hshort
    have hsaturated := toNat_saturatedBytes call
    rw [UInt64.le_iff_toNat_le] at hshort
    rw [mulExact_iff, hbandwidth.toNat]
    rcases h.bytes with hbytes | hbytes
    · have hexact : (saturatingAdd defaultBandwidthBytes call.dataBytes).toNat =
          300 + call.dataBytes.toNat := by omega
      rw [hexact] at hshort ⊢
      rw [Call.bandwidthBurnt, if_neg hshort] at hfee
      omega
    · rw [hbytes]
      exact (Nat.mul_zero _).symm ▸ (by decide)
  have hcost := toNat_bandwidthFee hbandwidth hbandwidthFee h.bytes
  have hsum : AddExact
      (call.usage.missingEnergy (applyBuffer call.estimatedEnergy call.bufferPercent) *
        prices.energyPrice.toUInt64)
      (bandwidthFee call.usage (saturatingAdd defaultBandwidthBytes call.dataBytes)
        prices.bandwidthPrice.toUInt64) := by
    rw [addExact_iff, henergyFee, toNat_missingEnergy hpercent hbuffered, henergy.toNat, hcost]
    omega
  refine ⟨henergy, hbandwidth, hmemo, hpercent, hbuffered, henergyFee, hbandwidthFee, hsum, ?_, ?_⟩
  · rw [addExact_iff, hsum, henergyFee, toNat_missingEnergy hpercent hbuffered, henergy.toNat,
      hcost, hmemo.toNat]
    exact hfee
  · rw [mulExact_iff, toNat_applyBuffer hpercent hbuffered, henergy.toNat]
    exact h.feeLimit

/-- The fee is what the buffered energy burns. -/
lemma Fits.toNat_fee (h : Fits call prices) :
    (call.feeFor prices).fee.toNat = call.burnt prices call.buffered := by
  rw [h.unwrapped.toNat_fee, toNat_bandwidthFee h.unwrapped.bandwidthPrice h.unwrapped.bytesFee
    h.bytes]
  rfl

lemma Call.le_buffered (call : Call) : call.estimatedEnergy.toNat ≤ call.buffered := by
  rw [Call.buffered, Nat.le_div_iff_mul_le (by decide)]
  exact Nat.mul_le_mul_left _ (Nat.le_add_right _ _)

lemma Call.Le.buffered_le (h : call'.Le call) : call'.buffered ≤ call.buffered :=
  Nat.div_le_div_right (Nat.mul_le_mul (UInt64.le_iff_toNat_le.mp h.estimatedEnergy)
    (Nat.add_le_add_left (UInt64.le_iff_toNat_le.mp h.bufferPercent) _))

lemma Call.Le.bandwidthBurnt_le (h : call'.Le call) (price : ℕ) :
    call'.bandwidthBurnt price ≤ call.bandwidthBurnt price := by
  have hdata := UInt64.le_iff_toNat_le.mp h.dataBytes
  have havailable := UInt64.le_iff_toNat_le.mp h.availableBandwidth
  rw [Call.bandwidthBurnt, Call.bandwidthBurnt]
  split_ifs with hle hle'
  · exact Nat.le_refl _
  · exact Nat.zero_le _
  · omega
  · exact Nat.mul_le_mul_right _ (Nat.add_le_add_left hdata _)

/-- **A call that needs no more burns no more.** -/
theorem Call.Le.burnt_le (h : call'.Le call) {energy' energy : ℕ} (henergy : energy' ≤ energy) :
    call'.burnt prices energy' ≤ call.burnt prices energy := by
  have havailable := UInt64.le_iff_toNat_le.mp h.availableEnergy
  exact Nat.add_le_add_right (Nat.add_le_add
    (Nat.mul_le_mul_right _ (by omega)) (h.bandwidthBurnt_le _)) _

/-- What fits a call fits one that needs no more. -/
lemma Call.Le.fits (hle : call'.Le call) (h : Fits call prices) : Fits call' prices := by
  have hpercent := UInt64.le_iff_toNat_le.mp hle.bufferPercent
  have hdata := UInt64.le_iff_toNat_le.mp hle.dataBytes
  refine ⟨h.energyPrice, h.bandwidthPrice, h.memoFee, ?_, ?_, ?_, ?_, ?_⟩
  · exact (Nat.add_le_add_left hpercent _).trans_lt h.percent
  · exact (Nat.mul_le_mul (UInt64.le_iff_toNat_le.mp hle.estimatedEnergy)
      (Nat.add_le_add_left hpercent _)).trans_lt h.buffered
  · exact (Nat.mul_le_mul_right _ hle.buffered_le).trans_lt h.feeLimit
  · exact h.bytes.imp_left (Nat.add_le_add_left hdata _).trans_lt
  · exact (hle.burnt_le hle.buffered_le).trans_lt h.fee

/-- **The promises are kept** for the prices and amounts that fit. -/
theorem Fits.feeBounds (h : Fits call prices) (hprices : getPrices parameters hasMemo = .ok prices) :
    FeeBounds parameters hasMemo call prices (call.feeFor prices) where
  limit := by
    rw [h.unwrapped.toNat_feeLimit]
    exact Nat.mul_le_mul_right _ call.le_buffered
  covers energy henergy := by
    have hself : call.Le call := ⟨UInt64.le_refl _, UInt64.le_refl _, UInt64.le_refl _,
      UInt64.le_refl _, UInt64.le_refl _⟩
    rw [h.toNat_fee]
    exact hself.burnt_le henergy
  upper := by
    rw [h.toNat_fee, h.unwrapped.toNat_feeLimit]
    exact Nat.add_le_add_right (Nat.add_le_add_right
      (Nat.mul_le_mul_right _ (Nat.sub_le _ _)) _) _
  mono call' hle := by
    refine ⟨_, Call.fee_of_prices hprices, ?_⟩
    rw [h.toNat_fee, (hle.fits h).toNat_fee]
    exact hle.burnt_le hle.buffered_le

/-- A number of bytes that saturates is not covered. -/
lemma bytes_of_covers (h : Unwrapped call prices)
    (hcovers : call.burnt prices call.buffered ≤ (call.feeFor prices).fee.toNat) :
    300 + call.dataBytes.toNat < 2 ^ 64 ∨ prices.bandwidthPrice.toInt = 0 := by
  by_contra hnone
  obtain ⟨hbytes, hprice⟩ := not_or.mp hnone
  have hpos : 0 < prices.bandwidthPrice.toInt.toNat := by
    have := castExact_iff.mp h.bandwidthPrice
    omega
  have hsaturated : (saturatingAdd defaultBandwidthBytes call.dataBytes).toNat = 2 ^ 64 - 1 := by
    have := toNat_saturatedBytes call
    omega
  have havailable := call.usage.availableBandwidth.toNat_lt
  have hburnt : call.bandwidthBurnt prices.bandwidthPrice.toInt.toNat =
      (300 + call.dataBytes.toNat) * prices.bandwidthPrice.toInt.toNat := if_neg (by omega)
  have hless : (bandwidthFee call.usage (saturatingAdd defaultBandwidthBytes call.dataBytes)
      prices.bandwidthPrice.toUInt64).toNat <
        (300 + call.dataBytes.toNat) * prices.bandwidthPrice.toInt.toNat := by
    rw [bandwidthFee]
    split_ifs with hle
    · exact Nat.mul_pos (by omega) hpos
    · rw [h.bytesFee hle, hsaturated, h.bandwidthPrice.toNat]
      exact Nat.mul_lt_mul_of_pos_right (by omega) hpos
  rw [Call.burnt, hburnt, h.toNat_fee] at hcovers
  omega

lemma Unwrapped.fits (h : Unwrapped call prices)
    (hcovers : call.burnt prices call.buffered ≤ (call.feeFor prices).fee.toNat) :
    Fits call prices := by
  have hbytes := bytes_of_covers h hcovers
  refine ⟨castExact_iff.mp h.energyPrice, castExact_iff.mp h.bandwidthPrice,
    castExact_iff.mp h.memoFee, addExact_iff.mp h.percent, ?_, ?_, hbytes, ?_⟩
  · have hmul := mulExact_iff.mp h.buffered
    rwa [h.percent] at hmul
  · have hmul := mulExact_iff.mp h.feeLimit
    rwa [toNat_applyBuffer h.percent h.buffered, h.energyPrice.toNat] at hmul
  · exact hcovers.trans_lt (UInt64.toNat_lt _)

/-- **When fees are sound**: exactly if no price is negative and the products and sums fit.

**Proof sketch.** Nothing wraps exactly if the exact values fit, and then the fee is what the buffered
energy burns, which grows with the call. The number of bytes saturates instead of wrapping, which only
the promise to cover what is burnt excludes. -/
theorem feeSound_iff (parameters : List ChainParameter) (hasMemo : Bool) (call : Call) :
    FeeSound parameters hasMemo call ↔
      ∀ prices, getPrices parameters hasMemo = .ok prices → Fits call prices := by
  rcases hprices : getPrices parameters hasMemo with error | prices
  · refine ⟨fun _ => nofun, fun _ => Or.inl ⟨error, ?_⟩⟩
    rw [Call.fee, calculateTokenFeeRateWithData, hprices]
    rfl
  · constructor
    · rintro (⟨error, herror⟩ | ⟨prices', result, hprices', hresult, hunwrapped, hbounds⟩) p hp
      · rw [Call.fee_of_prices hprices] at herror
        cases herror
      · rw [Call.fee_of_prices hprices] at hresult
        cases hresult
        cases hprices.symm.trans hprices'
        cases hp
        exact hunwrapped.fits (hbounds.covers _ (Nat.le_refl _))
    · intro hfits
      have h := hfits prices rfl
      exact Or.inr ⟨prices, _, hprices, Call.fee_of_prices hprices, h.unwrapped,
        h.feeBounds hprices⟩

/-- **A fee of nothing** for a call that needs more energy than there is: the product with the buffer
wraps to a small number. -/
theorem not_feeSound_wrapped :
    ¬ FeeSound [⟨"getEnergyFee", some 420⟩, ⟨"getTransactionFee", some 1000⟩] false
      ⟨⟨0, 600, 0, 0, 0, 0⟩, 184467440737095517, 0, 0⟩ := by
  rintro (⟨error, herror⟩ | ⟨prices, result, -, -, hunwrapped, -⟩)
  · cases herror
  · exact absurd (mulExact_iff.mp hunwrapped.buffered) (by decide)

end GemCore.Tron

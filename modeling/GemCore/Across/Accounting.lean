import GemCore.Across.Provider

/-!
# The amounts in a quote add up

A quote promises the user an amount and carries the order that is to be relayed. Here the two
are compared in exact integers. The referral fee is computed before the gas is paid and taken
off the quoted amount, while the message takes it off what arrives: the two agree only when
the gas does not change the fee.

## Main definitions

* `QuoteInputs.lpfee`, `QuoteInputs.relayerFee`, `QuoteInputs.gasFee` — the fees as integers.
* `V3RelayData.payments` — who is paid what when the order is filled.
* `Accounted` — the quote agrees with the order, without loss on the way.
* `FeesFit` — the condition on the inputs.

## Main results

* `getQuote_accounted_iff` — the first holds exactly under the second.
-/

namespace GemCore.Across

open Lib

/-! ## Exact amounts -/

namespace QuoteInputs

variable (i : QuoteInputs)

/-- The fee of the liquidity providers. -/
def lpfee : ℤ := exactShare i.fromAmount.toNat i.lpfeePercent i.decimals

/-- The fee of the relayer. -/
def relayerFee : ℤ := exactShare i.fromAmount.toNat i.relayerFeePercent i.decimals

/-- The fee for gas. -/
def gasFee : ℤ := exactGasFee i.gasLimit.toNat i.gasPrice.toNat i.gasTokenPrice i.decimals

/-- What remains before the gas is paid. -/
def remainAmount : ℤ := i.fromAmount.toNat - i.lpfee - i.relayerFee

/-- What arrives. -/
def outputAmount : ℤ := i.remainAmount - i.gasFee

/-- The referral fee the code computes on an amount: `amount * bps / 10000`, the product
within 256 bits. -/
def referralFee (amount : ℤ) : ℕ := (referralFeeOf (BitVec.ofInt 256 amount) i.bps).toNat

end QuoteInputs

/-! ## What an order pays -/

/-- What a call pays, and to whom. -/
def Call.payment (call : Call) : Option (Address × U256) :=
  match call.callData with
  | .empty => some (call.target, call.value)
  | .withdraw _ => none
  | .transfer recipient value => some (recipient, value)

/-- What is paid when the order is filled: the calls of the message, or the whole amount to
the recipient. -/
def V3RelayData.payments (order : V3RelayData) : List (Address × U256) :=
  match order.message with
  | none => [(order.recipient, order.outputAmount)]
  | some message => message.calls.filterMap Call.payment

/-- The amounts of a quote add up, and none was changed by being put into 256 bits. -/
structure Accounted (i : QuoteInputs) (q : Quote) : Prop where
  /-- The fees are covered by the amount. -/
  fees_le : i.lpfee + i.relayerFee + i.gasFee ≤ i.fromAmount.toNat
  /-- What is relayed is the amount less the fees. -/
  output_eq : (q.routeData.outputAmount.toNat : ℤ) = i.outputAmount
  /-- The order pays out just that. -/
  payments_sum : (q.routeData.payments.map fun p => p.2.toNat).sum =
    q.routeData.outputAmount.toNat
  /-- The quoted amount is what the order pays the user. -/
  quoted : (q.routeData.payments.head?.map fun p => (p.1, p.2.toNat)) =
    some (i.recipient, q.toValue)
  /-- The quoted amount is at most the amount given. -/
  toValue_le : q.toValue ≤ i.fromAmount.toNat
  /-- The fees are put into 256 bits unchanged. -/
  lpfee_exact : (multiply i.fromAmount i.lpfeePercent i.decimals).toOption.map
    (fun fee => (fee.toNat : ℤ)) = some i.lpfee
  relayerFee_exact : (multiply i.fromAmount i.relayerFeePercent i.decimals).toOption.map
    (fun fee => (fee.toNat : ℤ)) = some i.relayerFee
  gasFee_exact : (Across.gasFee i.gasLimit i.gasPrice i.gasTokenPrice i.decimals).toOption.map
    (fun fee => (fee.toNat : ℤ)) = some i.gasFee
  /-- No referral fee is larger than what it is taken off. -/
  referralFee_le_remain : (i.referralFee i.remainAmount : ℤ) ≤ i.remainAmount
  referralFee_le_output : (i.referralFee i.remainAmount : ℤ) ≤ i.outputAmount

/-- The condition under which a quote is `Accounted`: the relayer fee and the gas fee are not
negative, the product of gas limit and price fits 256 bits (or is multiplied by a price of
zero), the fees of pool and relayer are covered, and paying for the gas does not change the
referral fee, which what arrives covers. -/
structure FeesFit (i : QuoteInputs) : Prop where
  relayerFee_nonneg : 0 ≤ i.relayerFee
  gasFee_nonneg : 0 ≤ i.gasFee
  gasProduct : i.gasLimit.toNat * i.gasPrice.toNat < 2 ^ 256 ∨ i.gasTokenPrice = some 0
  fees_le : i.lpfee + i.relayerFee ≤ i.fromAmount.toNat
  referralFee_eq : i.referralFee i.remainAmount = i.referralFee i.outputAmount
  referralFee_le : (i.referralFee i.outputAmount : ℤ) ≤ i.outputAmount

instance (i : QuoteInputs) : Decidable (FeesFit i) :=
  decidable_of_iff (0 ≤ i.relayerFee ∧ 0 ≤ i.gasFee ∧
      (i.gasLimit.toNat * i.gasPrice.toNat < 2 ^ 256 ∨ i.gasTokenPrice = some 0) ∧
      i.lpfee + i.relayerFee ≤ i.fromAmount.toNat ∧
      i.referralFee i.remainAmount = i.referralFee i.outputAmount ∧
      (i.referralFee i.outputAmount : ℤ) ≤ i.outputAmount)
    ⟨fun ⟨h₁, h₂, h₃, h₄, h₅, h₆⟩ => ⟨h₁, h₂, h₃, h₄, h₅, h₆⟩,
      fun ⟨h₁, h₂, h₃, h₄, h₅, h₆⟩ => ⟨h₁, h₂, h₃, h₄, h₅, h₆⟩⟩

/-! ## What the code computes -/

/-- The message for an amount pays the user what is left of it after the referral fee, and the
referrer that fee; without a rate there is no message. -/
theorem messageForMulticallHandler_eq_ok {T : Tables} {amount fee : U256} {asset : AssetId}
    {token user : Address} {chain : Chain} {referralFee : ReferralFee}
    {message : Option Instructions}
    (h : messageForMulticallHandler T amount asset token user chain referralFee =
      .ok (message, fee)) :
    fee = referralFeeOf amount referralFee.bps ∧
      ((referralFee.bps = 0 ∧ message = none) ∨
        referralFee.bps ≠ 0 ∧ ∃ instructions feeAddress, message = some instructions ∧
          instructions.calls.filterMap Call.payment = [(user, amount - fee), (feeAddress, fee)]) := by
  rw [messageForMulticallHandler] at h
  rw [referralFeeOf]
  split at h
  · rename_i hbps
    obtain ⟨rfl, rfl⟩ := Prod.mk.inj (Except.ok.inj h)
    rw [if_pos hbps]
    exact ⟨rfl, .inl ⟨hbps, rfl⟩⟩
  · rename_i hbps
    rw [if_neg hbps]
    obtain ⟨feeAddress, -, h⟩ := bind_eq_ok_iff.mp h
    obtain ⟨calls, hcalls, h⟩ := bind_eq_ok_iff.mp h
    obtain ⟨rfl, rfl⟩ := Prod.mk.inj (Except.ok.inj h)
    refine ⟨rfl, .inr ⟨hbps, _, feeAddress, rfl, ?_⟩⟩
    rw [payoutCalls] at hcalls
    split at hcalls
    · rw [unwrapWethCalls] at hcalls
      split at hcalls
      · obtain rfl := Except.ok.inj hcalls
        rfl
      · cases hcalls
    · obtain rfl := Except.ok.inj hcalls
      rfl

/-- An order with the message for its amount pays the user what is left after the referral
fee, and that fee. -/
theorem V3RelayData.payments_eq {T : Tables} {order : V3RelayData} {fee : U256} {asset : AssetId}
    {token user : Address} {chain : Chain} {referralFee : ReferralFee}
    (h : messageForMulticallHandler T order.outputAmount asset token user chain referralFee =
      .ok (order.message, fee)) (hrecipient : referralFee.bps = 0 → order.recipient = user) :
    ∃ rest, order.payments = (user, order.outputAmount -
        referralFeeOf order.outputAmount referralFee.bps) :: rest ∧
      (rest.map fun p => p.2.toNat).sum =
        (referralFeeOf order.outputAmount referralFee.bps).toNat := by
  obtain ⟨rfl, ⟨hbps, hnone⟩ | ⟨-, instructions, feeAddress, hsome, hpayments⟩⟩ :=
    messageForMulticallHandler_eq_ok h
  · refine ⟨[], ?_, ?_⟩
    · simp [V3RelayData.payments, hnone, hrecipient hbps, referralFeeOf, hbps]
    · simp [referralFeeOf, hbps]
  · refine ⟨[(feeAddress, referralFeeOf order.outputAmount referralFee.bps)], ?_, ?_⟩
    · rw [V3RelayData.payments, hsome]
      exact hpayments
    · simp

/-- Without a message the order goes to the user directly. -/
lemma fillRelayGasRequest_recipient {T : Tables} {amount : U256} {isNative : Bool}
    {inputAsset : AssetId} {outputToken depositor recipient : Address}
    {deployment : AcrossDeployment} {chain : Chain} {request : FillGasRequest}
    {order : V3RelayData}
    (h : fillRelayGasRequest T amount isNative inputAsset outputToken depositor recipient none
      deployment chain = .ok (request, order)) : order.recipient = recipient := by
  obtain ⟨recipient', hrecipient, h⟩ := bind_eq_ok_iff.mp h
  obtain ⟨inputToken, -, h⟩ := bind_eq_ok_iff.mp h
  obtain ⟨-, rfl⟩ := Prod.mk.inj (Except.ok.inj h)
  exact (Except.ok.inj hrecipient).symm

/-- The weekly rate is not negative. -/
lemma realizedLpFeePct_nonneg {model : RateModel} {convert : ℤ → UInt64} {before after : ℤ}
    {percent : ℤ} (h : LpFee.realizedLpFeePct model convert before after false = .ok percent) :
    0 ≤ percent := by
  obtain ⟨apy, -, h⟩ := bind_eq_ok_iff.mp h
  obtain rfl := Except.ok.inj h
  rw [if_neg (by simp)]
  exact Int.natCast_nonneg _

/-- How the amounts of a quote were computed, within 256 bits. -/
structure Computed (i : QuoteInputs) (q : Quote) (lpfee relayerFee gasFee : U256) : Prop where
  lpfeePercent_nonneg : 0 ≤ i.lpfeePercent
  lpfee_eq : multiply i.fromAmount i.lpfeePercent i.decimals = .ok lpfee
  relayerFee_eq : multiply i.fromAmount i.relayerFeePercent i.decimals = .ok relayerFee
  gasFee_eq : Across.gasFee i.gasLimit i.gasPrice i.gasTokenPrice i.decimals = .ok gasFee
  gasFee_le : gasFee ≤ i.fromAmount - lpfee - relayerFee
  output_eq : q.routeData.outputAmount = i.fromAmount - lpfee - relayerFee - gasFee
  toValue_eq : q.toValue = (q.routeData.outputAmount -
    referralFeeOf (i.fromAmount - lpfee - relayerFee) i.bps).toNat
  payments_eq : ∃ rest, q.routeData.payments = (i.recipient, q.routeData.outputAmount -
      referralFeeOf q.routeData.outputAmount i.bps) :: rest ∧
    (rest.map fun p => p.2.toNat).sum = (referralFeeOf q.routeData.outputAmount i.bps).toNat

/-- The amounts of every quote are computed in this way.

**Proof sketch.** `get_quote` is a sequence of steps that may fail; a quote means that each
has succeeded, and the steps that gather the inputs are among them. -/
theorem getQuote_computed {T : Tables} {N : Network} {request : QuoteRequest} {q : Quote}
    (h : getQuote T N request = .ok q) :
    ∃ i lpfee relayerFee gasFee, quoteInputs T N request = .ok i ∧
      Computed i q lpfee relayerFee gasFee := by
  obtain ⟨route, hroute, h⟩ := bind_eq_ok_iff.mp h
  obtain ⟨pool, hpool, h⟩ := bind_eq_ok_iff.mp h
  obtain ⟨⟨lpfee, relayerFee⟩, hfees, h⟩ := bind_eq_ok_iff.mp h
  obtain ⟨⟨relayData, referralFee, gas⟩, hfill, h⟩ := bind_eq_ok_iff.mp h
  obtain ⟨price, hprice, h⟩ := bind_eq_ok_iff.mp h
  obtain ⟨gasFee, hgasFee, h⟩ := bind_eq_ok_iff.mp h
  obtain ⟨hle, h⟩ := guard_eq_ok_iff.mp h
  obtain ⟨⟨message, fee⟩, hmessage, h⟩ := bind_eq_ok_iff.mp h
  obtain rfl := Except.ok.inj h
  have hfees' := hfees
  obtain ⟨lpfeePercent, hlp, hfees⟩ := bind_eq_ok_iff.mp hfees
  obtain ⟨lpfee', hlpfee, hfees⟩ := bind_eq_ok_iff.mp hfees
  obtain ⟨relayerFeePercent, hrelayer, hfees⟩ := bind_eq_ok_iff.mp hfees
  obtain ⟨relayerFee', hrelayerFee, hfees⟩ := bind_eq_ok_iff.mp hfees
  obtain ⟨rfl, rfl⟩ := Prod.mk.inj (Except.ok.inj hfees)
  have hinputs : quoteInputs T N request = .ok ⟨route.fromAmount, route.recipient, lpfeePercent,
      relayerFeePercent, route.capitalCost.decimals, gas.limit, gas.price, price,
      (referralConfig T request).bps⟩ := by
    rw [quoteInputs, hroute, ok_bind, hpool, ok_bind, hlp, ok_bind, hrelayer,
      ok_bind, hfees', ok_bind]
    simp only [hfill, ok_bind, hprice]
  obtain ⟨⟨message₁, fee₁⟩, hmessage₁, hfill⟩ := bind_eq_ok_iff.mp hfill
  obtain ⟨⟨gasRequest, relayData'⟩, hgasRequest, hfill⟩ := bind_eq_ok_iff.mp hfill
  obtain ⟨gas', -, hfill⟩ := bind_eq_ok_iff.mp hfill
  simp only [Except.ok.injEq, Prod.mk.injEq] at hfill
  obtain ⟨rfl, rfl, rfl⟩ := hfill
  obtain ⟨rfl, hmessage₁⟩ := messageForMulticallHandler_eq_ok hmessage₁
  refine ⟨_, lpfee', relayerFee', gasFee, hinputs, realizedLpFeePct_nonneg hlp, hlpfee,
    hrelayerFee, hgasFee, BitVec.not_lt.mp hle, rfl, rfl, V3RelayData.payments_eq hmessage ?_⟩
  -- Without a rate no message was built the first time, so the order goes to the user.
  intro hbps
  rcases hmessage₁ with ⟨-, rfl⟩ | ⟨hbps', -⟩
  · have hrecipient := fillRelayGasRequest_recipient hgasRequest
    exact hrecipient
  · exact absurd hbps hbps'

/-! ## When a quote adds up -/

section

variable {i : QuoteInputs} {q : Quote} {lpfee relayerFee gasFee : U256}

/-- The word of an amount that fits. -/
lemma ofInt_of_toNat_eq {word : U256} {amount : ℤ} (h : (word.toNat : ℤ) = amount) :
    BitVec.ofInt 256 amount = word := by
  rw [← h, BitVec.ofInt_natCast, BitVec.ofNat_toNat, BitVec.setWidth_eq]

/-- The fee of the liquidity providers is always exact. -/
lemma Computed.lpfee_exact (h : Computed i q lpfee relayerFee gasFee) :
    (lpfee.toNat : ℤ) = i.lpfee :=
  (multiply_exact_iff h.lpfee_eq).mpr (exactShare_nonneg h.lpfeePercent_nonneg)

/-- With fees that are exact and covered, so is what remains. -/
lemma Computed.remain_exact (h : Computed i q lpfee relayerFee gasFee)
    (hrelayer : (relayerFee.toNat : ℤ) = i.relayerFee)
    (hle : i.lpfee + i.relayerFee ≤ i.fromAmount.toNat) :
    ((i.fromAmount - lpfee - relayerFee).toNat : ℤ) = i.remainAmount := by
  have hlp := h.lpfee_exact
  rw [QuoteInputs.remainAmount, BitVec.toNat_sub, BitVec.toNat_sub]
  omega

/-- And so is what arrives. -/
lemma Computed.output_exact (h : Computed i q lpfee relayerFee gasFee)
    (hremain : ((i.fromAmount - lpfee - relayerFee).toNat : ℤ) = i.remainAmount)
    (hgas : (gasFee.toNat : ℤ) = i.gasFee) :
    (q.routeData.outputAmount.toNat : ℤ) = i.outputAmount := by
  have hle : gasFee.toNat ≤ (i.fromAmount - lpfee - relayerFee).toNat := h.gasFee_le
  rw [h.output_eq, QuoteInputs.outputAmount, BitVec.toNat_sub]
  omega

/-- Where the amounts are exact, the referral fees in the quote are those of the condition. -/
theorem Computed.fits_of_accounted (h : Computed i q lpfee relayerFee gasFee)
    (ha : Accounted i q) : FeesFit i := by
  have hrelayer : (relayerFee.toNat : ℤ) = i.relayerFee := by
    simpa [h.relayerFee_eq, Except.toOption] using ha.relayerFee_exact
  have hgas : (gasFee.toNat : ℤ) = i.gasFee := by
    simpa [h.gasFee_eq, Except.toOption] using ha.gasFee_exact
  obtain ⟨hgasNonneg, hproduct⟩ := (gasFee_exact_iff h.gasFee_eq).mp hgas
  have hle : i.lpfee + i.relayerFee ≤ i.fromAmount.toNat := by
    have := ha.fees_le
    omega
  have hremain := h.remain_exact hrelayer hle
  have houtput := h.output_exact hremain hgas
  obtain ⟨rest, hpayments, hrest⟩ := h.payments_eq
  -- The user is paid what is left after the fee on what arrives, and quoted what is left
  -- after the fee on what remains.
  have hfees : referralFeeOf (i.fromAmount - lpfee - relayerFee) i.bps =
      referralFeeOf q.routeData.outputAmount i.bps := by
    have hquoted := ha.quoted
    rw [hpayments, List.head?_cons, Option.map_some, Option.some.injEq, Prod.mk.injEq,
      h.toValue_eq] at hquoted
    have hsub := BitVec.toNat_inj.mp hquoted.2
    generalize referralFeeOf q.routeData.outputAmount i.bps = fee at hsub ⊢
    generalize referralFeeOf (i.fromAmount - lpfee - relayerFee) i.bps = fee' at hsub ⊢
    bv_omega
  have hsum : (referralFeeOf q.routeData.outputAmount i.bps).toNat ≤
      q.routeData.outputAmount.toNat := by
    have hpaid := ha.payments_sum
    rw [hpayments, List.map_cons, List.sum_cons, hrest] at hpaid
    omega
  refine ⟨?_, hgasNonneg, hproduct, hle, ?_, ?_⟩
  · omega
  · rw [QuoteInputs.referralFee, QuoteInputs.referralFee, ofInt_of_toNat_eq hremain,
      ofInt_of_toNat_eq houtput, hfees]
  · rw [QuoteInputs.referralFee, ofInt_of_toNat_eq houtput, ← houtput]
    exact_mod_cast hsum

/-- Under the condition the amounts are exact and the quote adds up. -/
lemma Computed.accounted_of_fits (h : Computed i q lpfee relayerFee gasFee)
    (hf : FeesFit i) : Accounted i q := by
  have hlp := h.lpfee_exact
  have hrelayer : (relayerFee.toNat : ℤ) = i.relayerFee :=
    (multiply_exact_iff h.relayerFee_eq).mpr hf.relayerFee_nonneg
  have hgas : (gasFee.toNat : ℤ) = i.gasFee :=
    (gasFee_exact_iff h.gasFee_eq).mpr ⟨hf.gasFee_nonneg, hf.gasProduct⟩
  have hremain := h.remain_exact hrelayer hf.fees_le
  have houtput := h.output_exact hremain hgas
  obtain ⟨rest, hpayments, hrest⟩ := h.payments_eq
  have hfees := hf.referralFee_eq
  have hle := hf.referralFee_le
  rw [QuoteInputs.referralFee, QuoteInputs.referralFee, ofInt_of_toNat_eq hremain,
    ofInt_of_toNat_eq houtput, BitVec.toNat_inj] at hfees
  rw [QuoteInputs.referralFee, ofInt_of_toNat_eq houtput] at hle
  have houtput_eq : i.outputAmount = i.remainAmount - i.gasFee := rfl
  have hremain_eq : i.remainAmount = i.fromAmount.toNat - i.lpfee - i.relayerFee := rfl
  have hgasNonneg := hf.gasFee_nonneg
  have hrelayerNonneg := hf.relayerFee_nonneg
  have hleNat : referralFeeOf q.routeData.outputAmount i.bps ≤ q.routeData.outputAmount := by
    rw [BitVec.le_def]
    omega
  have hsub := BitVec.toNat_sub_of_le hleNat
  have htoValue : q.toValue = q.routeData.outputAmount.toNat -
      (referralFeeOf q.routeData.outputAmount i.bps).toNat := by
    rw [h.toValue_eq, hfees, hsub]
  refine ⟨?_, houtput, ?_, ?_, ?_, ?_, ?_, ?_, ?_, ?_⟩
  · omega
  · rw [hpayments, List.map_cons, List.sum_cons, hrest, hsub]
    omega
  · rw [hpayments, List.head?_cons, Option.map_some, hsub, htoValue]
  · omega
  · rw [h.lpfee_eq, Except.toOption, Option.map_some, hlp]
  · rw [h.relayerFee_eq, Except.toOption, Option.map_some, hrelayer]
  · rw [h.gasFee_eq, Except.toOption, Option.map_some, hgas]
  all_goals
    rw [hf.referralFee_eq, QuoteInputs.referralFee, ofInt_of_toNat_eq houtput]
    omega

end

/-- The amounts of a quote add up exactly under the condition `FeesFit` on its inputs.

**Proof sketch.** The fee of the liquidity providers is always exact, since the weekly rate is
not negative. The other conversions are exact when the number is not negative and fits, and
then no subtraction wraps. What is left is the referral fee: the quote takes off the one on
the amount before gas, the message the one on what arrives. -/
theorem getQuote_accounted_iff {T : Tables} {N : Network} {request : QuoteRequest} {q : Quote}
    (h : getQuote T N request = .ok q) :
    ∃ i, quoteInputs T N request = .ok i ∧ (Accounted i q ↔ FeesFit i) := by
  obtain ⟨i, lpfee, relayerFee, gasFee, hinputs, hcomputed⟩ := getQuote_computed h
  exact ⟨i, hinputs, hcomputed.fits_of_accounted, hcomputed.accounted_of_fits⟩

/-! ## Concrete quotes -/

/-- The wrapped token of Ethereum. -/
def sampleWethEthereum : String := "0xC02aaA39b223FE8D0A0e5C4F27eAD9083C756Cc2"

/-- The wrapped token of Base. -/
def sampleWethBase : String := "0x4200000000000000000000000000000000000006"

/-- The tables for the route from Ethereum to Base, with the weekly rate of 0.0615 percent a
year. -/
def sampleTables : Tables where
  parse := hexAddress
  parseTron _ := .error .notSupportedAsset
  wethContract
    | .ethereum => some sampleWethEthereum
    | .base => some sampleWethBase
    | _ => none
  deploymentByChain
    | .ethereum => some ⟨1, "0x5c7BCd6E7De5423a257D81B442095A1a6ced35C5",
        "0x924a9f036260DdD5808007E1AA95f08eD08aA569"⟩
    | .base => some ⟨8453, "0x09aea4b2242abC8bb4BB78D537A67a245A7bEC64",
        "0x924a9f036260DdD5808007E1AA95f08eD08aA569"⟩
    | _ => none
  assetMappings := [⟨⟨10 ^ 14, 75 * 10 ^ 12, 3 * 10 ^ 17, 18⟩,
    [⟨.ethereum, some sampleWethEthereum⟩, ⟨.base, some sampleWethBase⟩]⟩]
  referralFee _ := some ⟨"0x0D9DAB1A248f63B0a48965bA8435e4de7497a3dC", 50⟩
  convertApyToWeeklyFee _ := 11830749673481
  parseError := "number too large to fit in target type"

/-- A result that decodes as an unsigned number. -/
def sampleResult (value : ℕ) : CallResult :=
  ⟨.ok (value ≠ 0), .ok (BitVec.ofNat 256 value), .ok (BitVec.ofNat 256 value), .ok value⟩

/-- A pool that is one percent used after the deposit, and a destination with a gas price. -/
def sampleNetwork (gasLimit gasPrice : ℕ) : Network where
  hubPool _ _ _ := .ok [sampleResult 0, sampleResult 0, sampleResult (10 ^ 24), sampleResult 0,
    sampleResult (10 ^ 16), sampleResult 1700000000]
  rateModel _ _ _ := .ok ⟨65 * 10 ^ 16, 0, 8 * 10 ^ 16, 10 ^ 18⟩
  destination _ _ _ := .ok [⟨.ok (BitVec.ofNat 256 gasLimit), .ok []⟩,
    ⟨.ok (BitVec.ofNat 256 gasPrice), .ok []⟩]

/-- Ether from Ethereum to Base. -/
def sampleRequest (value : ℕ) : QuoteRequest where
  fromAsset := ⟨.ethereum, none⟩
  toAsset := ⟨.base, none⟩
  value := value
  walletAddress := "0x514BCb1F9AAbb904e6106Bd1052B66d2706dBbb7"
  destinationAddress := "0x514BCb1F9AAbb904e6106Bd1052B66d2706dBbb7"

/-- A quote in which the gas is too cheap to change the referral fee adds up. -/
theorem getQuote_accounted_iff_sample :
    ∃ q i, getQuote sampleTables (sampleNetwork 5 10) (sampleRequest (10 ^ 18 + 250)) = .ok q ∧
      quoteInputs sampleTables (sampleNetwork 5 10) (sampleRequest (10 ^ 18 + 250)) = .ok i ∧
      Accounted i q := by
  have hok : (getQuote sampleTables (sampleNetwork 5 10)
      (sampleRequest (10 ^ 18 + 250))).toOption.isSome = true := by
    decide +kernel
  obtain ⟨q, hq⟩ := Option.isSome_iff_exists.mp hok
  rw [toOption_eq_some_iff] at hq
  obtain ⟨i, hi, hiff⟩ := getQuote_accounted_iff hq
  refine ⟨q, i, hq, hi, hiff.mpr ?_⟩
  have hfit : (quoteInputs sampleTables (sampleNetwork 5 10)
      (sampleRequest (10 ^ 18 + 250))).toOption.any (fun i => decide (FeesFit i)) = true := by
    decide +kernel
  rw [hi] at hfit
  exact of_decide_eq_true hfit

/-- A little more than the gas costs: the referral fee on the amount before gas is larger than
what arrives, and the quoted amount wraps. The order pays the user 79003459 wei. -/
theorem getQuote_wraps_near_minimum :
    ∃ q i, getQuote sampleTables (sampleNetwork 120000 1000000000) (sampleRequest 120013500000000) =
        .ok q ∧
      quoteInputs sampleTables (sampleNetwork 120000 1000000000) (sampleRequest 120013500000000) =
        .ok i ∧
      q.toValue = 2 ^ 256 - 599920996541 ∧ q.routeData.payments.map (fun p => p.2.toNat) =
        [79003459, 397002] ∧ ¬Accounted i q := by
  have hok : (getQuote sampleTables (sampleNetwork 120000 1000000000)
      (sampleRequest 120013500000000)).toOption.map (fun q =>
        (q.toValue, q.routeData.payments.map fun p => p.2.toNat)) =
      some (2 ^ 256 - 599920996541, [79003459, 397002]) := by
    decide +kernel
  have hin : (quoteInputs sampleTables (sampleNetwork 120000 1000000000)
      (sampleRequest 120013500000000)).toOption.map (fun i => i.fromAmount.toNat) =
      some 120013500000000 := by
    decide +kernel
  obtain ⟨q, hq, hvalues⟩ := Option.map_eq_some_iff.mp hok
  obtain ⟨i, hi, hamount⟩ := Option.map_eq_some_iff.mp hin
  obtain ⟨hvalue, hpayments⟩ := Prod.mk.inj hvalues
  refine ⟨q, i, toOption_eq_some_iff.mp hq, toOption_eq_some_iff.mp hi, hvalue, hpayments,
    fun h => ?_⟩
  have hle := h.toValue_le
  rw [hvalue, hamount] at hle
  omega

end GemCore.Across

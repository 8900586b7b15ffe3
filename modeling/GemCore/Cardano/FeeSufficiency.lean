import GemCore.Cardano.Planner

/-!
# When the planned Cardano fee is enough

The planner estimates the size of the signed transaction with a placeholder fee and with the
amount and the change that go with it, and settles the real ones afterwards. The CBOR head of
an integer grows at 24, `2^8`, `2^16` and `2^32`, so the final transaction can be larger than
the estimate. This module says for exactly which requests the fee still covers it.

## Main definitions

* `Parts` — what the estimated and the final transaction have in common.
* `Covers` — the condition on sizes and amounts.
* `FeeCovered` — the condition on a request.

## Main results

* `Parts.signedSize_eq` — the size of the transaction of a plan.
* `planTransfer_fee_covers_iff` — the planned fee covers the signed transaction iff the request
  satisfies `FeeCovered`.
-/

namespace GemCore.Cardano

open Lib

/-! ## The fee of a size -/

/-- Every further byte costs at least one lovelace. -/
lemma transactionFee_le_iff (m n : ℕ) : transactionFee m ≤ transactionFee n ↔ m ≤ n := by
  unfold transactionFee
  constructor
  · intro h
    by_contra hlt
    omega
  · intro h
    omega

/-- The constant part of a fee, which the placeholder exceeds by less than 15000. -/
theorem le_transactionFee (n : ℕ) : 155881 ≤ transactionFee n := by
  unfold transactionFee
  omega

/-! ## The condition -/

/-- **When the fee covers the transaction**, for a transaction of `size` bytes with amount and
fee zero, a change output of `changeSize` bytes with amount zero, and `available` lovelace in
the selected outputs.

* Spending the maximum: the heads of the final amount and fee together are no longer than
  those of the placeholder amount and the placeholder fee.
* With room for the placeholder fee: what is left is too small for a change output, or the
  heads of the final change and fee together are no longer than those of the placeholders.
* Without: what the amount leaves, all of which becomes the fee, pays for the transaction
  with the amount at its own width. -/
def Covers (size changeSize available requested : ℕ) (isMax : Bool) : Prop :=
  if isMax then
    let placeholder := available - feeEstimateLovelace
    let fee := transactionFee (size + headExtra placeholder + 4)
    headExtra (available - fee) + headExtra fee ≤ headExtra placeholder + 4
  else if requested ≤ available - feeEstimateLovelace then
    let placeholder := available - requested - feeEstimateLovelace
    let fee := transactionFee (size + headExtra requested + 4 +
      if 0 < placeholder then changeSize + headExtra placeholder else 0)
    available - requested - fee < minOutputLovelace ∨
      headExtra (available - requested - fee) + headExtra fee ≤ headExtra placeholder + 4
  else transactionFee (size + headExtra requested + 4) ≤ available - requested

/-- The size of a transaction with the given amount, fee and change, over the size of the one
with amount and fee zero and no change. -/
def sizeWith (size changeSize amount fee change : ℕ) : ℕ :=
  size + headExtra amount + headExtra fee + if 0 < change then changeSize + headExtra change else 0

@[simp] lemma sizeWith_zero (size changeSize amount fee : ℕ) :
    sizeWith size changeSize amount fee 0 = size + headExtra amount + headExtra fee := by
  simp [sizeWith]

/-- With change, the change output counts in full. -/
lemma sizeWith_pos {size changeSize amount fee change : ℕ} (h : 0 < change) :
    sizeWith size changeSize amount fee change =
      size + headExtra amount + headExtra fee + (changeSize + headExtra change) := by
  simp [sizeWith, h]

lemma headExtra_feeEstimate : headExtra feeEstimateLovelace = 4 := by decide

/-- Spending the maximum: amount and fee share the available sum. -/
lemma covers_max_iff {size changeSize available requested fee : ℕ}
    (hfee : fee = transactionFee (sizeWith size changeSize (available - feeEstimateLovelace)
      feeEstimateLovelace (available - (available - feeEstimateLovelace) - feeEstimateLovelace))) :
    transactionFee (sizeWith size changeSize (available - fee) fee 0) ≤ fee ↔
      Covers size changeSize available requested true := by
  have hchange : available - (available - feeEstimateLovelace) - feeEstimateLovelace = 0 := by
    omega
  rw [hchange, sizeWith_zero, headExtra_feeEstimate] at hfee
  have hcovers : Covers size changeSize available requested true ↔
      headExtra (available - fee) + headExtra fee ≤
        headExtra (available - feeEstimateLovelace) + 4 := by
    rw [hfee]
    rfl
  rw [hcovers, sizeWith_zero]
  nth_rewrite 3 [hfee]
  rw [transactionFee_le_iff]
  omega

/-- Room for the placeholder fee: the estimate has the final amount, and counts a change
output whenever the final transaction has one. -/
theorem covers_exact_iff {size changeSize available requested fee : ℕ} (hsize : 4 ≤ changeSize)
    (hroom : requested ≤ available - feeEstimateLovelace)
    (hfee : fee = transactionFee (sizeWith size changeSize requested feeEstimateLovelace
      (available - requested - feeEstimateLovelace)))
    (hspent : requested + fee ≤ available) :
    (if 0 < available - requested - fee ∧ available - requested - fee < minOutputLovelace then
      transactionFee (sizeWith size changeSize requested (available - requested) 0) ≤
        available - requested
    else transactionFee (sizeWith size changeSize requested fee (available - requested - fee)) ≤
      fee) ↔ Covers size changeSize available requested false := by
  have hmin := le_transactionFee (sizeWith size changeSize requested feeEstimateLovelace
    (available - requested - feeEstimateLovelace))
  rw [← hfee] at hmin
  have hcovers : Covers size changeSize available requested false ↔
      available - requested - fee < minOutputLovelace ∨
        headExtra (available - requested - fee) + headExtra fee ≤
          headExtra (available - requested - feeEstimateLovelace) + 4 := by
    unfold Covers
    rw [if_neg (by decide), if_pos hroom, hfee, sizeWith, headExtra_feeEstimate]
  rw [hcovers]
  by_cases hlarge : minOutputLovelace ≤ available - requested - fee
  · -- the change stays: both transactions have a change output
    have hplaceholder : 0 < available - requested - feeEstimateLovelace := by
      unfold minOutputLovelace at hlarge
      unfold feeEstimateLovelace
      omega
    have hpos : 0 < available - requested - fee := by
      unfold minOutputLovelace at hlarge
      omega
    rw [sizeWith_pos hplaceholder, headExtra_feeEstimate] at hfee
    rw [if_neg (by omega), sizeWith_pos hpos]
    nth_rewrite 3 [hfee]
    rw [transactionFee_le_iff]
    omega
  · -- no change in the final transaction: the estimate is never smaller
    refine iff_of_true ?_ (Or.inl (by omega))
    have hestimate : size + headExtra requested + headExtra (available - requested) ≤
        sizeWith size changeSize requested feeEstimateLovelace
          (available - requested - feeEstimateLovelace) := by
      by_cases hp : 0 < available - requested - feeEstimateLovelace
      · rw [sizeWith_pos hp, headExtra_feeEstimate]
        have := headExtra_le (available - requested)
        omega
      · have hsmall : available - requested ≤ feeEstimateLovelace := by omega
        have := headExtra_mono hsmall
        rw [headExtra_feeEstimate] at this
        rw [sizeWith, headExtra_feeEstimate, if_neg hp]
        omega
    have hpaid := (transactionFee_le_iff _ _).mpr hestimate
    rw [← hfee] at hpaid
    by_cases hzero : available - requested - fee = 0
    · have heq : available - requested = fee := by omega
      rw [if_neg (by omega), hzero, sizeWith_zero]
      rwa [heq] at hpaid
    · rw [if_pos (by omega), sizeWith_zero]
      omega

/-- No room for the placeholder fee: everything the amount leaves becomes the fee. -/
theorem covers_short_iff {size changeSize available requested fee : ℕ}
    (hroom : ¬requested ≤ available - feeEstimateLovelace)
    (hmin : 155881 ≤ fee) (hspent : requested + fee ≤ available) :
    (if 0 < available - requested - fee ∧ available - requested - fee < minOutputLovelace then
      transactionFee (sizeWith size changeSize requested (available - requested) 0) ≤
        available - requested
    else transactionFee (sizeWith size changeSize requested fee (available - requested - fee)) ≤
      fee) ↔ Covers size changeSize available requested false := by
  have hcovers : Covers size changeSize available requested false ↔
      transactionFee (size + headExtra requested + 4) ≤ available - requested := by
    unfold Covers
    rw [if_neg (by decide), if_neg hroom]
  have hbelow : available - requested < feeEstimateLovelace := by omega
  have hwidth : headExtra (available - requested) = 4 := by
    unfold feeEstimateLovelace at hbelow
    exact headExtra_eq_four (by omega) (by omega)
  rw [hcovers]
  by_cases hzero : available - requested - fee = 0
  · have heq : available - requested = fee := by omega
    rw [if_neg (by omega), hzero, sizeWith_zero, ← heq, hwidth]
  · have hfold : available - requested - fee < minOutputLovelace := by
      unfold feeEstimateLovelace at hbelow
      unfold minOutputLovelace
      omega
    rw [if_pos ⟨by omega, hfold⟩, sizeWith_zero, hwidth]

/-! ## The transaction of a plan -/

variable (lib : CardanoLib)

/-- What every transaction for a request and a selection is made from, whatever the amount,
the fee and the change. -/
structure Parts (input : TransactionLoadInput) (selected : List UTXO) where
  destination : List UInt8
  sender : List UInt8
  blockNumber : ℕ
  inputs : List TransactionInput
  destination_eq : parseAddress lib (transactionDestinationAddress input) = .ok destination
  sender_eq : parseAddress lib input.senderAddress = .ok sender
  blockNumber_eq : input.metadata.getBlockNumber = .ok blockNumber
  inputs_eq : tryMap utxoTransactionInput selected = .ok inputs

section Parts

variable {lib} {input : TransactionLoadInput} {selected : List UTXO}

/-- The transaction with the given amount, fee and change. -/
def Parts.transaction (parts : Parts lib input selected) (amount fee change : ℕ) :
    Transaction where
  inputs := parts.inputs
  outputs := ⟨parts.destination, amount⟩ :: if 0 < change then [⟨parts.sender, change⟩] else []
  fee := fee
  expirationBlockNumber := (parts.blockNumber + 7200) % u64Size
  memo := transactionMemo input

/-- `transaction_from_plan` builds the transaction from the parts. -/
lemma Parts.transactionFromPlan_eq (parts : Parts lib input selected)
    (amount fee change : ℕ) :
    transactionFromPlan lib input ⟨selected, amount, fee, change⟩ =
      .ok (parts.transaction amount fee change) := by
  have hchange : changeOutputs lib input.senderAddress change =
      .ok (if 0 < change then [⟨parts.sender, change⟩] else []) := by
    unfold changeOutputs
    rw [parts.sender_eq]
    by_cases h : 0 < change
    · rw [if_pos h, if_pos h]
      rfl
    · rw [if_neg h, if_neg h]
  unfold transactionFromPlan
  dsimp only
  rw [parts.destination_eq, parts.blockNumber_eq, hchange, parts.inputs_eq]
  rfl

/-- **The size of the transaction of a plan**, over that of the transaction with amount and
fee zero and no change. -/
theorem Parts.signedSize_eq (parts : Parts lib input selected) (amount fee change : ℕ) :
    (parts.transaction amount fee change).signedSize lib.blake2b256 =
      sizeWith ((parts.transaction 0 0 0).signedSize lib.blake2b256) (outputBase parts.sender)
        amount fee change := by
  have hbase : (parts.transaction amount fee change).baseSize lib.blake2b256 =
      (parts.transaction 0 0 0).baseSize lib.blake2b256 := rfl
  have hone : headWidth 1 = 1 := by decide
  have htwo : headWidth 2 = 1 := by decide
  have hzero : headExtra 0 = 0 := by decide
  unfold sizeWith
  rw [Transaction.signedSize, Transaction.signedSize, Transaction.length_signedBytes,
    Transaction.length_signedBytes, hbase]
  by_cases h : 0 < change
  · simp only [Parts.transaction, if_pos h, lt_irrefl, if_false, List.flatMap_cons,
      List.flatMap_nil, List.length_append, length_outputBytes, List.length_cons, List.length_nil,
      hzero, hone, htwo]
    omega
  · simp only [Parts.transaction, if_neg h, lt_irrefl, if_false, List.flatMap_cons,
      List.flatMap_nil, List.length_append, length_outputBytes, List.length_cons, List.length_nil,
      hzero, hone]
    omega

/-- The parts are determined by the request and the selection. -/
lemma Parts.eq (parts parts' : Parts lib input selected) : parts = parts' := by
  have hd := Except.ok.inj (parts.destination_eq.symm.trans parts'.destination_eq)
  have hs := Except.ok.inj (parts.sender_eq.symm.trans parts'.sender_eq)
  have hb := Except.ok.inj (parts.blockNumber_eq.symm.trans parts'.blockNumber_eq)
  have hi := Except.ok.inj (parts.inputs_eq.symm.trans parts'.inputs_eq)
  cases parts
  cases parts'
  subst hd hs hb hi
  rfl

/-- A transaction that was built once has its parts. -/
lemma exists_parts {plan : TransactionPlan} {transaction : Transaction} {sender : List UInt8}
    (hsender : parseAddress lib input.senderAddress = .ok sender)
    (h : transactionFromPlan lib input plan = .ok transaction) :
    Nonempty (Parts lib input plan.utxos) := by
  unfold transactionFromPlan at h
  rw [bind_eq_ok_iff] at h
  obtain ⟨destination, hdestination, h⟩ := h
  rw [bind_eq_ok_iff] at h
  obtain ⟨blockNumber, hblockNumber, h⟩ := h
  rw [bind_eq_ok_iff] at h
  obtain ⟨change, -, h⟩ := h
  rw [bind_eq_ok_iff] at h
  obtain ⟨inputs, hinputs, -⟩ := h
  exact ⟨⟨destination, sender, blockNumber, inputs, hdestination, hsender, hblockNumber, hinputs⟩⟩

/-- A parsed address is not empty. -/
lemma four_le_outputBase {address : String} {bytes : List UInt8}
    (h : parseAddress lib address = .ok bytes) : 4 ≤ outputBase bytes := by
  have hne : bytes ≠ [] := by
    rintro rfl
    unfold parseAddress at h
    split at h
    · cases h
    · rw [guard_eq_ok_iff] at h
      obtain ⟨-, h⟩ := h
      unfold fromBytes at h
      split at h
      · cases h
      · split_ifs at h
        all_goals cases h
  have hpos := List.length_pos_iff.mpr hne
  unfold outputBase headWidth
  omega

end Parts

/-! ## The planner -/

/-- A sum of amounts fits 64 bits. -/
lemma sumAmounts_lt : ∀ (utxos : List UTXO) {sum total : ℕ}, sum < u64Size →
    sumAmounts utxos sum = .ok total → total < u64Size := by
  intro utxos
  induction utxos with
  | nil =>
    intro sum total hsum h
    obtain rfl := Except.ok.inj h
    exact hsum
  | cons utxo rest ih =>
    intro sum total _ h
    simp only [sumAmounts, bind_eq_ok_iff] at h
    obtain ⟨amount, -, next, hnext, h⟩ := h
    refine ih ?_ h
    unfold orOverflow at hnext
    split at hnext
    · rename_i value hvalue
      obtain rfl := Except.ok.inj hnext
      exact (checkedAdd_eq_some hvalue).2
    · cases hnext

/-- The end of the planner: the amount and the fee fit the available sum, and what is left is
change, or part of the fee when it is too small. -/
theorem settleChange_eq_ok {selected : List UTXO} {available amount fee : ℕ}
    {plan : TransactionPlan} (havailable : available < u64Size)
    (h : settleChange selected available amount fee = .ok plan) :
    amount + fee ≤ available ∧ plan =
      if 0 < available - amount - fee ∧ available - amount - fee < minOutputLovelace then
        ⟨selected, amount, available - amount, 0⟩
      else ⟨selected, amount, fee, available - amount - fee⟩ := by
  unfold settleChange at h
  rw [bind_eq_ok_iff] at h
  obtain ⟨spent, hspent, h⟩ := h
  have hsum : amount + fee = spent := by
    unfold orOverflow at hspent
    split at hspent
    · rename_i value hvalue
      obtain rfl := Except.ok.inj hspent
      exact (checkedAdd_eq_some hvalue).1
    · cases hspent
  subst hsum
  rw [guard_eq_ok_iff] at h
  obtain ⟨hle, h⟩ := h
  have hrest : available - (amount + fee) = available - amount - fee := by omega
  dsimp only at h
  rw [hrest] at h
  refine ⟨by omega, ?_⟩
  split_ifs at h ⊢ with hsmall
  · obtain rfl := Except.ok.inj h
    have hfee : fee + (available - amount - fee) = available - amount := by omega
    rw [hfee, Nat.mod_eq_of_lt (by omega)]
  · exact (Except.ok.inj h).symm

/-- The fee of a plan covers the signed transaction that is serialised from it, under every
key and signature. -/
def FeeSuffices (input : TransactionLoadInput) (plan : TransactionPlan) : Prop :=
  ∃ transaction, transactionFromPlan lib input plan = .ok transaction ∧
    ∀ publicKey signature,
      transactionFee (transaction.signedBytes lib.blake2b256 publicKey signature).length ≤
        plan.fee

/-- **The condition on a request**: the outputs it spends, and the sizes of its transaction
without amounts and of its change output, satisfy `Covers`. -/
def FeeCovered (input : TransactionLoadInput) : Prop :=
  ∃ selected available, ∃ parts : Parts lib input selected,
    plannedUtxos lib input input.value = .ok selected ∧ sumAmounts selected 0 = .ok available ∧
    Covers ((parts.transaction 0 0 0).signedSize lib.blake2b256) (outputBase parts.sender)
      available input.value input.isMaxValue

/-- With the parts at hand the fee of a plan is compared with a size alone. -/
lemma feeSuffices_iff {input : TransactionLoadInput} {selected : List UTXO}
    (parts : Parts lib input selected) (amount fee change : ℕ) :
    FeeSuffices lib input ⟨selected, amount, fee, change⟩ ↔
      transactionFee (sizeWith ((parts.transaction 0 0 0).signedSize lib.blake2b256)
        (outputBase parts.sender) amount fee change) ≤ fee := by
  rw [← Parts.signedSize_eq]
  unfold FeeSuffices
  simp only [parts.transactionFromPlan_eq, Transaction.length_signedBytes_eq, Except.ok.injEq,
    exists_eq_left']
  constructor
  · intro h
    exact h ⟨List.replicate 32 0, rfl⟩ ⟨List.replicate 64 0, rfl⟩
  · intro h _ _
    exact h

/-- **Fee sufficiency**: the planned fee covers the signed transaction exactly when the
request satisfies `FeeCovered`.

**Proof sketch.** A plan and its estimate are made from the same parts, so both sizes are
given by `sizeWith`. What remains is arithmetic on the widths of the amount, the fee and the
change: `covers_max_iff` when spending the maximum, `covers_exact_iff` when the placeholder
fee fits beside the amount, `covers_short_iff` when it does not. -/
theorem planTransfer_fee_covers_iff (input : TransactionLoadInput) (plan : TransactionPlan)
    (h : planTransfer lib input = .ok plan) :
    FeeSuffices lib input plan ↔ FeeCovered lib input := by
  unfold planTransfer at h
  rw [bind_eq_ok_iff] at h
  obtain ⟨-, -, h⟩ := h
  rw [bind_eq_ok_iff] at h
  obtain ⟨requested, hrequested, h⟩ := h
  rw [bind_eq_ok_iff] at h
  obtain ⟨selected, hselected, h⟩ := h
  rw [bind_eq_ok_iff] at h
  obtain ⟨available, havailable, h⟩ := h
  rw [bind_eq_ok_iff] at h
  obtain ⟨fee, hfee, h⟩ := h
  rw [bind_eq_ok_iff] at h
  obtain ⟨amount, hamount, h⟩ := h
  have hvalue : requested = input.value := by
    unfold TransactionLoadInput.valueAsU64 at hrequested
    split_ifs at hrequested
    exact (Except.ok.inj hrequested).symm
  subst hvalue
  have hlt : available < u64Size := sumAmounts_lt selected (by decide) havailable
  obtain ⟨hspent, rfl⟩ := settleChange_eq_ok hlt h
  -- the estimate gives the parts of the transaction
  unfold estimateFee at hfee
  rw [havailable, bind_eq_ok_iff] at hfee
  obtain ⟨available', havailable', hfee⟩ := hfee
  obtain rfl := Except.ok.inj havailable'
  rw [bind_eq_ok_iff] at hfee
  obtain ⟨estimated, hestimated, hfee⟩ := hfee
  have hsender : ∃ sender, parseAddress lib input.senderAddress = .ok sender := by
    unfold plannedUtxos at hselected
    rw [bind_eq_ok_iff] at hselected
    obtain ⟨utxos, hutxos, -⟩ := hselected
    unfold utxosFromMetadata at hutxos
    rw [bind_eq_ok_iff] at hutxos
    obtain ⟨sender, hs, -⟩ := hutxos
    exact ⟨sender, hs⟩
  obtain ⟨sender, hsender⟩ := hsender
  obtain ⟨parts⟩ := exists_parts hsender hestimated
  dsimp only at parts
  rw [parts.transactionFromPlan_eq] at hestimated
  obtain rfl := Except.ok.inj hestimated
  have hfee := (Except.ok.inj hfee).symm
  rw [Parts.signedSize_eq] at hfee
  -- and the condition is about these parts
  have hcovered : FeeCovered lib input ↔
      Covers ((parts.transaction 0 0 0).signedSize lib.blake2b256) (outputBase parts.sender)
        available input.value input.isMaxValue := by
    constructor
    · rintro ⟨selected', available', parts', hs, ha, hc⟩
      obtain rfl := Except.ok.inj (hselected.symm.trans hs)
      obtain rfl := Except.ok.inj (havailable.symm.trans ha)
      rwa [Parts.eq parts parts']
    · intro hc
      exact ⟨selected, available, parts, hselected, havailable, hc⟩
  have hbase : 4 ≤ outputBase parts.sender := four_le_outputBase parts.sender_eq
  rw [hcovered]
  cases hmax : input.isMaxValue with
  | true =>
    rw [hmax] at hfee hamount
    simp only [plannedAmount, if_true] at hamount hfee
    split at hamount
    · rename_i value hvalue
      obtain rfl := Except.ok.inj hamount
      have hsum := checkedSub_eq_some hvalue
      have hrest : available - value - fee = 0 := by omega
      have hpaid : value = available - fee := by omega
      rw [hrest, if_neg (by omega), feeSuffices_iff lib parts, hpaid]
      exact covers_max_iff hfee
    · cases hamount
  | false =>
    rw [hmax] at hfee hamount
    simp only [plannedAmount, Bool.false_eq_true, if_false] at hamount hfee
    obtain rfl := Except.ok.inj hamount
    have hcases : FeeSuffices lib input
        (if 0 < available - input.value - fee ∧ available - input.value - fee < minOutputLovelace
          then ⟨selected, input.value, available - input.value, 0⟩
          else ⟨selected, input.value, fee, available - input.value - fee⟩) ↔
        (if 0 < available - input.value - fee ∧ available - input.value - fee < minOutputLovelace
          then transactionFee (sizeWith ((parts.transaction 0 0 0).signedSize lib.blake2b256)
            (outputBase parts.sender) input.value (available - input.value) 0) ≤
              available - input.value
          else transactionFee (sizeWith ((parts.transaction 0 0 0).signedSize lib.blake2b256)
            (outputBase parts.sender) input.value fee (available - input.value - fee)) ≤ fee) := by
      split_ifs
      · exact feeSuffices_iff lib parts _ _ _
      · exact feeSuffices_iff lib parts _ _ _
    rw [hcases]
    by_cases hroom : input.value ≤ available - feeEstimateLovelace
    · rw [Nat.min_eq_left hroom] at hfee
      exact covers_exact_iff hbase hroom hfee hspent
    · exact covers_short_iff hroom (hfee ▸ le_transactionFee _) hspent

/-! ## A covered and an uncovered request -/

/-- The bytes of `ownAddress`. -/
def ownAddressBytes : List UInt8 :=
  [0x01, 0xdf, 0x58, 0xee, 0x97, 0xce, 0x7a, 0x46, 0xcd, 0x8b, 0xde, 0xec, 0x4e, 0x5f, 0x3a,
    0x03, 0x29, 0x7e, 0xb1, 0x97, 0x82, 0x5e, 0xd5, 0x68, 0x11, 0x91, 0x11, 0x08, 0x04, 0xdf,
    0x22, 0x42, 0x4b, 0x68, 0x80, 0xb3, 0x9e, 0x4b, 0xac, 0x8c, 0x58, 0xde, 0x9f, 0xe6, 0xd2,
    0x3d, 0x79, 0xaa, 0xf4, 0x47, 0x56, 0x38, 0x9d, 0x82, 0x7a, 0xa0, 0x9b]

/-- The bytes of `toAddress`. -/
def toAddressBytes : List UInt8 :=
  [0x01, 0x55, 0x8d, 0xd9, 0x02, 0x61, 0x6f, 0x5c, 0xd0, 0x1e, 0xdc, 0xc6, 0x28, 0x70, 0xcb,
    0x47, 0x48, 0xc4, 0x54, 0x03, 0xf1, 0x22, 0x82, 0x18, 0xbe, 0xe5, 0xb6, 0x28, 0xb5, 0x26,
    0xf0, 0xca, 0x9e, 0x7a, 0x2c, 0x04, 0xd5, 0x48, 0xfb, 0xd6, 0xce, 0x86, 0xf3, 0x58, 0xbe,
    0x13, 0x9f, 0xe6, 0x80, 0x65, 0x25, 0x36, 0x43, 0x7d, 0x1d, 0x6f, 0xd5]

/-- A sender address. -/
def ownAddress : String := "addr1q8043m5heeaydnvtmmkyuhe6qv5havvhsf0d26q3jygsspxlyfpyk6yqkw0yhty" ++
  "vtr0flekj84u64az82cufmqn65zdsylzk23"

/-- A destination address. -/
def toAddress : String := "addr1q92cmkgzv9h4e5q7mnrzsuxtgayvg4qr7y3gyx97ukmz3dfx7r9fu73vqn25377ke" ++
  "6r0xk97zw07dqr9y5myxlgadl2s0dgke5"

/-- The library at the two addresses of the samples; they have no memo, so nothing is
hashed. -/
def sampleLib : CardanoLib where
  bech32Decode address :=
    if address = ownAddress then some ("addr", ownAddressBytes)
    else if address = toAddress then some ("addr", toAddressBytes)
    else none
  blake2b256 _ := .zeros 32

/-- The sender's one unspent output, of `total` lovelace. -/
def sampleUtxo (total : ℕ) : UTXO :=
  ⟨"554f2fd942a23d06835d26bbd78f0106fa94c8a551114a0bef81927f66467af0", 0, total, ownAddress⟩

/-- A transfer of `value` lovelace from one output of `total`. -/
def sampleInput (value total : ℕ) (isMaxValue : Bool) : TransactionLoadInput where
  inputType := .transfer ⟨.cardano, none⟩
  senderAddress := ownAddress
  destinationAddress := toAddress
  value := value
  memo := none
  isMaxValue := isMaxValue
  metadata := .cardano [sampleUtxo total] 189992800

theorem planTransfer_fee_covers_iff_sample :
    planTransfer sampleLib (sampleInput 2000000 6500000 false) =
        .ok ⟨[sampleUtxo 6500000], 2000000, 168655, 4331345⟩ ∧
      (FeeSuffices sampleLib (sampleInput 2000000 6500000 false)
          ⟨[sampleUtxo 6500000], 2000000, 168655, 4331345⟩ ↔
        FeeCovered sampleLib (sampleInput 2000000 6500000 false)) := by
  have h : planTransfer sampleLib (sampleInput 2000000 6500000 false) =
      .ok ⟨[sampleUtxo 6500000], 2000000, 168655, 4331345⟩ := by decide +kernel
  exact ⟨h, planTransfer_fee_covers_iff sampleLib _ _ h⟩

/-- Spending the maximum of `2^32 + 169999` lovelace, the placeholder amount is `2^32 - 1` and
takes four bytes, the final one eight: the planned fee of 165792 is 176 short. -/
theorem planTransfer_fee_short_at_boundary :
    planTransfer sampleLib (sampleInput 0 (2 ^ 32 + 169999) true) =
        .ok ⟨[sampleUtxo (2 ^ 32 + 169999)], 4294971503, 165792, 0⟩ ∧
      ¬FeeSuffices sampleLib (sampleInput 0 (2 ^ 32 + 169999) true)
        ⟨[sampleUtxo (2 ^ 32 + 169999)], 4294971503, 165792, 0⟩ := by
  refine ⟨by decide +kernel, ?_⟩
  rintro ⟨transaction, htransaction, hfee⟩
  have hneeded : (transactionFromPlan sampleLib (sampleInput 0 (2 ^ 32 + 169999) true)
      ⟨[sampleUtxo (2 ^ 32 + 169999)], 4294971503, 165792, 0⟩).toOption.map
        (fun transaction => transactionFee (transaction.signedSize sampleLib.blake2b256)) =
      some 165968 := by decide +kernel
  rw [htransaction] at hneeded
  have hsize : transactionFee (transaction.signedSize sampleLib.blake2b256) = 165968 :=
    Option.some.inj hneeded
  have hshort := hfee ⟨List.replicate 32 0, rfl⟩ ⟨List.replicate 64 0, rfl⟩
  rw [Transaction.length_signedBytes_eq, hsize] at hshort
  exact absurd hshort (by decide)

end GemCore.Cardano

import GemCore.Cardano.FeeSufficiency

/-!
# What a Cardano plan spends and pays

A plan spends unspent outputs of the request, each at most once, and what they are worth is the
amount, the fee and the change. The selection stops at a target that leaves 1.17 ada and a third of
the amount for the fee, so a request can be turned down although further outputs would pay for it
only when the fee is larger than that.

## Main definitions

* `total` — what unspent outputs are worth.
* `Conserves` — what a plan owes the request.
* `CannotPay` — unspent outputs that do not pay for the amount and the fee estimated for them.

## Main results

* `selectUtxos_spec` — the selection is everything or reaches the target.
* `estimateFee_perm` — the order of the outputs does not matter for the fee.
* `planTransfer_conserves` — conservation, and what a refusal says.
-/

namespace GemCore.Cardano

open Lib

/-! ## Sums -/

/-- What unspent outputs are worth. -/
def total (utxos : List UTXO) : ℕ := (utxos.map UTXO.value).sum

lemma orOverflow_eq_ok_iff {o : Option ℕ} {n : ℕ} : orOverflow o = .ok n ↔ o = some n := by
  cases o <;> simp [orOverflow]

lemma utxoAmount_eq_ok {utxo : UTXO} {amount : ℕ} (h : utxoAmount utxo = .ok amount) :
    amount = utxo.value := by
  unfold utxoAmount UTXO.valueU64 at h
  rw [bind_eq_ok_iff] at h
  obtain ⟨value, hvalue, h⟩ := h
  split_ifs at hvalue
  split_ifs at h
  rw [← Except.ok.inj h, ← Except.ok.inj hvalue]

/-- `sum_amounts` succeeds exactly when every amount can be read and the sum fits 64 bits. -/
theorem sumAmounts_eq_ok_iff (utxos : List UTXO) {sum n : ℕ} (hsum : sum < u64Size) :
    sumAmounts utxos sum = .ok n ↔
      (∀ utxo ∈ utxos, utxoAmount utxo = .ok utxo.value) ∧ sum + total utxos = n ∧ n < u64Size := by
  induction utxos generalizing sum with
  | nil =>
    simp only [sumAmounts, total, Except.ok.injEq, List.map_nil, List.sum_nil, Nat.add_zero,
      List.not_mem_nil, false_implies, implies_true, true_and]
    constructor
    · rintro rfl
      exact ⟨rfl, hsum⟩
    · exact fun h => h.1
  | cons utxo rest ih =>
    have htotal : total (utxo :: rest) = utxo.value + total rest := rfl
    rw [htotal]
    simp only [sumAmounts, bind_eq_ok_iff, orOverflow_eq_ok_iff, List.forall_mem_cons]
    constructor
    · rintro ⟨amount, hamount, next, hnext, h⟩
      obtain rfl := utxoAmount_eq_ok hamount
      obtain ⟨rfl, hlt⟩ := checkedAdd_eq_some hnext
      obtain ⟨hrest, hn, hfits⟩ := (ih hlt).mp h
      exact ⟨⟨hamount, hrest⟩, by omega, hfits⟩
    · rintro ⟨⟨hamount, hrest⟩, hn, hfits⟩
      have hlt : sum + utxo.value < u64Size := by omega
      exact ⟨utxo.value, hamount, sum + utxo.value, if_pos hlt,
        (ih hlt).mpr ⟨hrest, by omega, hfits⟩⟩

lemma total_eq_of_sumAmounts {utxos : List UTXO} {n : ℕ} (h : sumAmounts utxos 0 = .ok n) :
    total utxos = n ∧ n < u64Size := by
  obtain ⟨-, hn, hfits⟩ := (sumAmounts_eq_ok_iff utxos (by decide)).mp h
  exact ⟨by omega, hfits⟩

lemma total_perm {utxos utxos' : List UTXO} (h : utxos.Perm utxos') :
    total utxos = total utxos' := (h.map _).sum_nat

/-- The sum does not depend on the order. -/
lemma sumAmounts_perm {utxos utxos' : List UTXO} {n : ℕ} (hperm : utxos.Perm utxos')
    (h : sumAmounts utxos 0 = .ok n) : sumAmounts utxos' 0 = .ok n := by
  rw [sumAmounts_eq_ok_iff _ (by decide)] at h ⊢
  obtain ⟨hamount, hn, hfits⟩ := h
  exact ⟨fun utxo hmem => hamount utxo (hperm.mem_iff.mpr hmem), total_perm hperm ▸ hn, hfits⟩

/-! ## The selection -/

/-- **The selection loop** takes a front of the candidates, all of them or enough for the target. -/
theorem selectLoop_spec {target : ℕ} {candidates : List (UTXO × ℕ)} {selected result : List UTXO}
    {sum : ℕ} (hvalue : ∀ c ∈ candidates, c.2 = c.1.value)
    (h : selectLoop target candidates selected sum = .ok result) :
    ∃ taken rest, candidates.map Prod.fst = taken ++ rest ∧ result = selected ++ taken ∧
      (rest = [] ∨ target ≤ sum + total taken) := by
  induction candidates generalizing selected sum with
  | nil =>
    obtain rfl := Except.ok.inj h
    exact ⟨[], [], rfl, (List.append_nil _).symm, .inl rfl⟩
  | cons candidate candidates ih =>
    obtain ⟨utxo, amount⟩ := candidate
    obtain ⟨hamount, hvalues⟩ := List.forall_mem_cons.mp hvalue
    dsimp only at hamount
    subst hamount
    simp only [selectLoop, bind_eq_ok_iff, orOverflow_eq_ok_iff] at h
    obtain ⟨next, hnext, h⟩ := h
    obtain ⟨rfl, -⟩ := checkedAdd_eq_some hnext
    split_ifs at h with hreached
    · refine ⟨[utxo], candidates.map Prod.fst, rfl, (Except.ok.inj h).symm, .inr ?_⟩
      simpa [total] using hreached
    · obtain ⟨taken, rest, hsplit, rfl, hdone⟩ := ih hvalues h
      refine ⟨utxo :: taken, rest, by simp [hsplit], by simp, hdone.imp_right ?_⟩
      intro hle
      simp only [total, List.map_cons, List.sum_cons] at hle ⊢
      omega

lemma selectionTarget_eq_ok {amount target : ℕ} (h : selectionTarget amount = .ok target) :
    target = amount * 4 / 3 + feeEstimateLovelace + minOutputLovelace := by
  unfold selectionTarget at h
  rw [orOverflow_eq_ok_iff, Option.bind_eq_some_iff] at h
  obtain ⟨value, hvalue, h⟩ := h
  rw [Option.bind_eq_some_iff] at h
  obtain ⟨withFee, hfee, h⟩ := h
  obtain ⟨rfl, -⟩ := checkedAdd_eq_some hfee
  obtain ⟨rfl, -⟩ := checkedAdd_eq_some h
  unfold checkedMul at hvalue
  split_ifs at hvalue
  rw [← Option.some.inj hvalue]

/-- **What is selected**: everything for the maximum; otherwise a part of the outputs that is
everything or is worth a third more than the amount and 1.17 ada. -/
theorem selectUtxos_spec {utxos selected : List UTXO} {amount : ℕ} {maxAmount : Bool}
    (h : selectUtxos utxos amount maxAmount = .ok selected) :
    selected.Subperm utxos ∧ (maxAmount = true → selected = utxos) ∧
      (selected.Perm utxos ∨
        amount * 4 / 3 + feeEstimateLovelace + minOutputLovelace ≤ total selected) := by
  unfold selectUtxos at h
  cases maxAmount with
  | true =>
    obtain rfl := Except.ok.inj h
    exact ⟨List.Subperm.refl _, fun _ => rfl, .inl (List.Perm.refl _)⟩
  | false =>
    simp only [Bool.false_eq_true, if_false, bind_eq_ok_iff, guard_eq_ok_iff] at h
    obtain ⟨target, htarget, candidates, hcandidates, taken, htaken, -, h⟩ := h
    obtain rfl := Except.ok.inj h
    obtain rfl := selectionTarget_eq_ok htarget
    -- the candidates are the outputs with their values
    have hpairs : List.Forall₂ (fun utxo (c : UTXO × ℕ) => c = (utxo, utxo.value)) utxos
        candidates := by
      refine List.Forall₂.imp ?_ (tryMap_eq_ok_iff.mp hcandidates)
      intro utxo c hc
      obtain ⟨amount, hamount, hc⟩ := bind_eq_ok_iff.mp hc
      rw [← Except.ok.inj hc, utxoAmount_eq_ok hamount]
    have hmap : candidates = utxos.map fun utxo => (utxo, utxo.value) := by
      have := List.forall₂_map_left_iff.mpr (hpairs.imp fun _ _ hc => hc.symm)
      exact (List.forall₂_eq_eq_eq ▸ this).symm
    have hperm := List.perm_insertionSort
      (fun left right : UTXO × ℕ => right.2 ≤ left.2) candidates
    have hvalues : ∀ c ∈ candidates.insertionSort fun left right => right.2 ≤ left.2,
        c.2 = c.1.value := by
      intro c hc
      rw [hperm.mem_iff, hmap] at hc
      obtain ⟨utxo, -, rfl⟩ := List.mem_map.mp hc
      rfl
    obtain ⟨front, rest, hsplit, hfront, hdone⟩ := selectLoop_spec hvalues htaken
    rw [List.nil_append] at hfront
    subst hfront
    have hfirst : candidates.map Prod.fst = utxos := by
      rw [hmap, List.map_map]
      exact List.map_id utxos
    have hall : (taken ++ rest).Perm utxos := by
      have hfst := hperm.map Prod.fst
      rwa [hsplit, hfirst] at hfst
    refine ⟨(List.sublist_append_left _ _).subperm.trans hall.subperm, by simp, ?_⟩
    rcases hdone with rfl | hreached
    · rw [List.append_nil] at hall
      exact .inl hall
    · rw [Nat.zero_add] at hreached
      exact .inr hreached

/-! ## The estimated fee -/

/-- The size of a transaction does not depend on the order of its inputs. -/
lemma Transaction.signedSize_perm (blake2b256 : List UInt8 → FixedBytes 32)
    (transaction : Transaction) {inputs : List TransactionInput}
    (h : transaction.inputs.Perm inputs) :
    Transaction.signedSize blake2b256 { transaction with inputs := inputs } =
      transaction.signedSize blake2b256 := by
  have hlength := h.length_eq
  have hbytes : (transaction.inputs.flatMap inputBytes).length =
      (inputs.flatMap inputBytes).length := (h.flatMap_right inputBytes).length_eq
  have haux : Transaction.auxiliaryDataBytes { transaction with inputs := inputs } =
      transaction.auxiliaryDataBytes := rfl
  simp only [Transaction.signedSize, Transaction.signedBytes, Transaction.bodyBytes, haux,
    List.length_append, hbytes, hlength]

section Estimate

variable {lib : CardanoLib} {input : TransactionLoadInput} {selected utxos : List UTXO}

/-- The amount the fee is estimated with. -/
def placeholderAmount (available requested : ℕ) (maxAmount : Bool) : ℕ :=
  if maxAmount then available - feeEstimateLovelace
  else min requested (available - feeEstimateLovelace)

/-- The estimate, from the parts of the transaction. -/
lemma estimateFee_eq (parts : Parts lib input selected) {available : ℕ}
    (h : sumAmounts selected 0 = .ok available) (requested : ℕ) (maxAmount : Bool) :
    estimateFee lib input selected requested maxAmount =
      .ok (transactionFee (sizeWith ((parts.transaction 0 0 0).signedSize lib.blake2b256)
        (outputBase parts.sender) (placeholderAmount available requested maxAmount)
        feeEstimateLovelace (available - placeholderAmount available requested maxAmount -
          feeEstimateLovelace))) := by
  unfold estimateFee
  rw [h, ok_bind]
  dsimp only
  rw [parts.transactionFromPlan_eq, ok_bind, Parts.signedSize_eq]
  rfl

/-- An estimate was made from the parts of the transaction. -/
lemma exists_parts_of_estimateFee {requested fee : ℕ} {maxAmount : Bool} {sender : List UInt8}
    (hsender : parseAddress lib input.senderAddress = .ok sender)
    (h : estimateFee lib input selected requested maxAmount = .ok fee) :
    Nonempty (Parts lib input selected) := by
  unfold estimateFee at h
  rw [bind_eq_ok_iff] at h
  obtain ⟨available, -, h⟩ := h
  rw [bind_eq_ok_iff] at h
  obtain ⟨transaction, htransaction, -⟩ := h
  exact exists_parts hsender htransaction

/-- **The order of the outputs does not matter** for the estimate.

**Proof sketch.** Their inputs are in another order too, which has the same size. -/
theorem estimateFee_perm {requested fee : ℕ} {maxAmount : Bool} {sender : List UInt8}
    (hsender : parseAddress lib input.senderAddress = .ok sender) (hperm : selected.Perm utxos)
    (h : estimateFee lib input selected requested maxAmount = .ok fee) :
    estimateFee lib input utxos requested maxAmount = .ok fee := by
  obtain ⟨parts⟩ := exists_parts_of_estimateFee hsender h
  obtain ⟨available, havailable, -⟩ := bind_eq_ok_iff.mp h
  obtain ⟨inputs, hinputs, hmapped⟩ := List.perm_comp_forall₂ hperm.symm
    (tryMap_eq_ok_iff.mp parts.inputs_eq)
  let parts' : Parts lib input utxos :=
    ⟨parts.destination, parts.sender, parts.blockNumber, inputs, parts.destination_eq,
      parts.sender_eq, parts.blockNumber_eq, tryMap_eq_ok_iff.mpr hinputs⟩
  have hsize : (parts'.transaction 0 0 0).signedSize lib.blake2b256 =
      (parts.transaction 0 0 0).signedSize lib.blake2b256 :=
    Transaction.signedSize_perm lib.blake2b256 (parts.transaction 0 0 0) hmapped.symm
  rw [estimateFee_eq parts' (sumAmounts_perm hperm havailable), hsize]
  rw [estimateFee_eq parts havailable] at h
  exact h

end Estimate

/-! ## Where a refusal comes from -/

section Refusal

variable (lib : CardanoLib) (input : TransactionLoadInput)

lemma fromBytes_ne_insufficient (bytes : List UInt8) :
    fromBytes bytes ≠ .error .insufficientFunds := by
  cases bytes with
  | nil => simp [fromBytes]
  | cons header rest =>
    simp only [fromBytes]
    split_ifs <;> simp

lemma parseAddress_ne_insufficient (address : String) :
    parseAddress lib address ≠ .error .insufficientFunds := by
  unfold parseAddress
  split
  · simp
  · split_ifs
    · simp
    · exact fromBytes_ne_insufficient _

lemma changeOutputs_ne_insufficient (address : String) (change : ℕ) :
    changeOutputs lib address change ≠ .error .insufficientFunds := by
  unfold changeOutputs
  split_ifs
  · exact bind_ne_error (parseAddress_ne_insufficient lib _) (by simp)
  · simp

lemma utxoTransactionInput_ne_insufficient (utxo : UTXO) :
    utxoTransactionInput utxo ≠ .error .insufficientFunds := by
  unfold utxoTransactionInput
  split
  · simp
  · split_ifs <;> simp

lemma utxoAmount_ne_insufficient (utxo : UTXO) :
    utxoAmount utxo ≠ .error .insufficientFunds := by
  unfold utxoAmount UTXO.valueU64
  refine bind_ne_error ?_ fun amount _ => ?_
  · split_ifs <;> simp
  · split_ifs <;> simp

lemma orOverflow_ne_insufficient (o : Option ℕ) :
    orOverflow o ≠ .error .insufficientFunds := by
  cases o <;> simp [orOverflow]

lemma sumAmounts_ne_insufficient (utxos : List UTXO) (sum : ℕ) :
    sumAmounts utxos sum ≠ .error .insufficientFunds := by
  induction utxos generalizing sum with
  | nil => simp [sumAmounts]
  | cons utxo rest ih =>
    exact bind_ne_error (utxoAmount_ne_insufficient utxo) fun _ _ =>
      bind_ne_error (orOverflow_ne_insufficient _) fun _ _ => ih _

lemma selectLoop_ne_insufficient (target : ℕ) (candidates : List (UTXO × ℕ))
    (selected : List UTXO) (sum : ℕ) :
    selectLoop target candidates selected sum ≠ .error .insufficientFunds := by
  induction candidates generalizing selected sum with
  | nil => simp [selectLoop]
  | cons candidate rest ih =>
    refine bind_ne_error (orOverflow_ne_insufficient _) fun _ _ => ?_
    dsimp only
    split_ifs
    · simp
    · exact ih _ _

/-- The selection never refuses for want of funds. -/
lemma plannedUtxos_ne_insufficient (requested : ℕ) :
    plannedUtxos lib input requested ≠ .error .insufficientFunds := by
  refine bind_ne_error ?_ fun utxos _ => ?_
  · refine bind_ne_error (parseAddress_ne_insufficient lib _) fun sender _ => ?_
    refine bind_ne_error ?_ fun utxos _ => ?_
    · cases input.metadata <;> simp [TransactionLoadMetadata.getUtxos]
    refine bind_ne_error (tryMap_ne_error fun utxo _ => ?_) (by simp)
    refine bind_ne_error (utxoTransactionInput_ne_insufficient utxo) fun _ _ => ?_
    refine bind_ne_error (utxoAmount_ne_insufficient utxo) fun _ _ => ?_
    refine bind_ne_error (parseAddress_ne_insufficient lib _) fun _ _ => ?_
    split_ifs <;> simp
  · split_ifs
    · simp
    · unfold selectUtxos
      split_ifs
      · simp
      refine bind_ne_error (orOverflow_ne_insufficient _) fun _ _ => ?_
      refine bind_ne_error (tryMap_ne_error fun utxo _ => ?_) fun _ _ => ?_
      · exact bind_ne_error (utxoAmount_ne_insufficient utxo) (by simp)
      refine bind_ne_error (selectLoop_ne_insufficient _ _ _ _) fun _ _ => ?_
      split_ifs <;> simp

/-- Nor does the estimate of the fee. -/
lemma estimateFee_ne_insufficient (selected : List UTXO) (requested : ℕ) (maxAmount : Bool) :
    estimateFee lib input selected requested maxAmount ≠ .error .insufficientFunds := by
  refine bind_ne_error (sumAmounts_ne_insufficient _ _) fun available _ => ?_
  refine bind_ne_error ?_ (by simp)
  refine bind_ne_error (parseAddress_ne_insufficient lib _) fun _ _ => ?_
  refine bind_ne_error ?_ fun _ _ => ?_
  · cases input.metadata <;> simp [TransactionLoadMetadata.getBlockNumber]
  refine bind_ne_error (changeOutputs_ne_insufficient lib _ _) fun _ _ => ?_
  exact bind_ne_error
    (tryMap_ne_error fun utxo _ => utxoTransactionInput_ne_insufficient utxo) (by simp)

lemma checkInputType_ne_insufficient (inputType : TransactionInputType) :
    checkInputType inputType ≠ .error .insufficientFunds := by
  cases inputType with
  | transfer asset | swap asset _ _ =>
    simp only [checkInputType]
    split_ifs <;> simp
  | other => simp [checkInputType]

end Refusal

/-! ## The planner -/

section Plan

variable (lib : CardanoLib)

/-- What a plan owes a request with the given unspent outputs. -/
structure Conserves (input : TransactionLoadInput) (utxos : List UTXO) (plan : TransactionPlan) :
    Prop where
  spends : plan.utxos.Subperm utxos
  spends_all : input.isMaxValue = true → plan.utxos = utxos
  balanced : total plan.utxos = plan.amount + plan.fee + plan.change
  fits : total plan.utxos < u64Size
  change : plan.change = 0 ∨ minOutputLovelace ≤ plan.change
  amount : plan.amount = if input.isMaxValue then total plan.utxos - plan.fee else input.value
  outputs : ∃ transaction destination sender, transactionFromPlan lib input plan = .ok transaction ∧
    parseAddress lib (transactionDestinationAddress input) = .ok destination ∧
    parseAddress lib input.senderAddress = .ok sender ∧
    transaction.outputs = ⟨destination, plan.amount⟩ ::
      (if 0 < plan.change then [⟨sender, plan.change⟩] else []) ∧
    (transaction.outputs.map TransactionOutput.amount).sum = plan.amount + plan.change

/-- The outputs are worth less than the amount and the fee estimated for spending them. -/
def CannotPay (input : TransactionLoadInput) (utxos : List UTXO) : Prop :=
  ∃ fee, estimateFee lib input utxos input.value false = .ok fee ∧ total utxos < input.value + fee

variable {lib}

/-- What a selection says about the request. -/
lemma plannedUtxos_spec {input : TransactionLoadInput} {requested : ℕ} {selected : List UTXO}
    (h : plannedUtxos lib input requested = .ok selected) :
    ∃ utxos sender, input.metadata.getUtxos = .ok utxos ∧
      parseAddress lib input.senderAddress = .ok sender ∧
      selectUtxos utxos requested input.isMaxValue = .ok selected := by
  unfold plannedUtxos utxosFromMetadata at h
  rw [bind_eq_ok_iff] at h
  obtain ⟨utxos, hutxos, h⟩ := h
  rw [bind_eq_ok_iff] at hutxos
  obtain ⟨sender, hsender, hutxos⟩ := hutxos
  rw [bind_eq_ok_iff] at hutxos
  obtain ⟨utxos', hmetadata, hutxos⟩ := hutxos
  rw [bind_eq_ok_iff] at hutxos
  obtain ⟨-, -, hutxos⟩ := hutxos
  obtain rfl := Except.ok.inj hutxos
  rw [guard_eq_ok_iff] at h
  exact ⟨utxos', sender, hmetadata, hsender, h.2⟩

lemma valueAsU64_eq_ok {input : TransactionLoadInput} {requested : ℕ}
    (h : input.valueAsU64 = .ok requested) : requested = input.value := by
  unfold TransactionLoadInput.valueAsU64 at h
  split_ifs at h
  exact (Except.ok.inj h).symm

lemma valueAsU64_ne_insufficient (input : TransactionLoadInput) :
    input.valueAsU64 ≠ .error .insufficientFunds := by
  unfold TransactionLoadInput.valueAsU64
  split_ifs <;> simp

/-- A plan conserves what it spends. -/
lemma conserves_of_planTransfer {input : TransactionLoadInput} {plan : TransactionPlan}
    (h : planTransfer lib input = .ok plan) :
    ∃ utxos, input.metadata.getUtxos = .ok utxos ∧ Conserves lib input utxos plan := by
  unfold planTransfer at h
  rw [bind_eq_ok_iff] at h
  obtain ⟨-, -, h⟩ := h
  rw [bind_eq_ok_iff] at h
  obtain ⟨requested, hrequested, h⟩ := h
  obtain rfl := valueAsU64_eq_ok hrequested
  rw [bind_eq_ok_iff] at h
  obtain ⟨selected, hselected, h⟩ := h
  rw [bind_eq_ok_iff] at h
  obtain ⟨available, havailable, h⟩ := h
  rw [bind_eq_ok_iff] at h
  obtain ⟨fee, hfee, h⟩ := h
  rw [bind_eq_ok_iff] at h
  obtain ⟨amount, hamount, h⟩ := h
  obtain ⟨utxos, sender, hutxos, hsender, hselect⟩ := plannedUtxos_spec hselected
  obtain ⟨hsub, hmax, -⟩ := selectUtxos_spec hselect
  obtain ⟨rfl, hfits⟩ := total_eq_of_sumAmounts havailable
  obtain ⟨hspent, hplan⟩ := settleChange_eq_ok hfits h
  obtain ⟨parts⟩ := exists_parts_of_estimateFee hsender hfee
  have hrest : amount = if input.isMaxValue then total selected - fee else input.value := by
    unfold plannedAmount at hamount
    split_ifs at hamount ⊢
    · split at hamount
      · rename_i value hvalue
        have := checkedSub_eq_some hvalue
        have := Except.ok.inj hamount
        omega
      · cases hamount
    · exact (Except.ok.inj hamount).symm
  have houtputs : ∀ amount fee change, ∃ transaction destination sender,
      transactionFromPlan lib input ⟨selected, amount, fee, change⟩ = .ok transaction ∧
      parseAddress lib (transactionDestinationAddress input) = .ok destination ∧
      parseAddress lib input.senderAddress = .ok sender ∧
      transaction.outputs = ⟨destination, amount⟩ ::
        (if 0 < change then [⟨sender, change⟩] else []) ∧
      (transaction.outputs.map TransactionOutput.amount).sum = amount + change := by
    intro amount fee change
    refine ⟨_, _, _, parts.transactionFromPlan_eq amount fee change, parts.destination_eq,
      parts.sender_eq, rfl, ?_⟩
    by_cases hpos : 0 < change
    · simp [Parts.transaction, hpos]
    · simp [Parts.transaction, hpos]
      omega
  refine ⟨utxos, hutxos, ?_⟩
  subst hplan
  split_ifs with hsmall
  · exact ⟨hsub, hmax, by dsimp only; omega, hfits, .inl rfl, by
      dsimp only
      split_ifs at hrest ⊢ <;> omega, houtputs _ _ _⟩
  · refine ⟨hsub, hmax, by dsimp only; omega, hfits, ?_, hrest, houtputs _ _ _⟩
    dsimp only
    omega

/-- **Conservation.** A plan spends part of the unspent outputs, all of them for the maximum; they
are worth the amount, the fee and the change, and the outputs pay the amount and the change. A
refusal for want of funds says that the unspent outputs cannot pay, or that those the planner
selects cannot, and their fee is more than what the selection sets aside for it.

**Proof sketch.** The planner is taken apart step by step. Only its end refuses for want of funds;
there the selection is everything, and the order does not matter for the fee, or it has reached the
target. -/
theorem planTransfer_conserves (input : TransactionLoadInput) :
    (∀ plan, planTransfer lib input = .ok plan →
      ∃ utxos, input.metadata.getUtxos = .ok utxos ∧ Conserves lib input utxos plan) ∧
    (input.isMaxValue = false → planTransfer lib input = .error .insufficientFunds →
      ∃ utxos, input.metadata.getUtxos = .ok utxos ∧
        (CannotPay lib input utxos ∨ ∃ selected fee,
          plannedUtxos lib input input.value = .ok selected ∧ selected.Subperm utxos ∧
          estimateFee lib input selected input.value false = .ok fee ∧
          total selected < input.value + fee ∧
          feeEstimateLovelace + minOutputLovelace + input.value / 3 < fee)) := by
  refine ⟨fun plan h => conserves_of_planTransfer h, fun hmax h => ?_⟩
  unfold planTransfer at h
  obtain ⟨-, -, h⟩ := exists_of_bind_eq_error (checkInputType_ne_insufficient _) h
  obtain ⟨requested, hrequested, h⟩ :=
    exists_of_bind_eq_error (valueAsU64_ne_insufficient _) h
  obtain rfl := valueAsU64_eq_ok hrequested
  obtain ⟨selected, hselected, h⟩ :=
    exists_of_bind_eq_error (plannedUtxos_ne_insufficient _ _ _) h
  obtain ⟨available, havailable, h⟩ :=
    exists_of_bind_eq_error (sumAmounts_ne_insufficient _ _) h
  obtain ⟨fee, hfee, h⟩ :=
    exists_of_bind_eq_error (estimateFee_ne_insufficient _ _ _ _ _) h
  rw [hmax] at h hfee
  simp only [plannedAmount, Bool.false_eq_true, if_false, ok_bind] at h
  unfold settleChange at h
  obtain ⟨spent, hspent, h⟩ :=
    exists_of_bind_eq_error (orOverflow_ne_insufficient _) h
  obtain ⟨rfl, -⟩ := checkedAdd_eq_some (orOverflow_eq_ok_iff.mp hspent)
  obtain ⟨rfl, -⟩ := total_eq_of_sumAmounts havailable
  have hshort : total selected < input.value + fee := by
    by_contra hle
    rw [if_neg hle] at h
    dsimp only at h
    split_ifs at h
  obtain ⟨utxos, sender, hutxos, hsender, hselect⟩ := plannedUtxos_spec hselected
  obtain ⟨hsub, -, hall | htarget⟩ := selectUtxos_spec hselect
  · refine ⟨utxos, hutxos, .inl ⟨fee, estimateFee_perm hsender hall hfee, ?_⟩⟩
    rwa [← total_perm hall]
  · refine ⟨utxos, hutxos, .inr ⟨selected, fee, hselected, hsub, hfee, hshort, ?_⟩⟩
    omega

end Plan

/-! ## A refusal that more outputs would have avoided -/

/-- Letters fill a segment up. -/
lemma chunkMemoSegments_fill (rest : List Char) (n m : ℕ) (h : n + m ≤ 64) :
    chunkMemoSegments (List.replicate m 'a' ++ rest) (List.replicate n 'a') n =
      chunkMemoSegments rest (List.replicate (n + m) 'a') (n + m) := by
  induction m generalizing n with
  | zero => rfl
  | succ m ih =>
    have hsize : Char.utf8Size 'a' = 1 := by decide
    rw [List.replicate_succ, List.cons_append, chunkMemoSegments]
    have hsum : n + 1 + m = n + (m + 1) := by omega
    rw [hsize, if_neg (by omega), ← List.replicate_succ', ih (n + 1) (by omega), hsum]

/-- A memo of full segments, behind a full one. -/
lemma chunkMemoSegments_full (q : ℕ) :
    chunkMemoSegments (List.replicate (64 * q) 'a') (List.replicate 64 'a') 64 =
      List.replicate (q + 1) (List.replicate 64 'a') := by
  induction q with
  | zero => rfl
  | succ q ih =>
    have hsize : Char.utf8Size 'a' = 1 := by decide
    have hsplit : List.replicate (64 * (q + 1)) 'a' =
        'a' :: (List.replicate 63 'a' ++ List.replicate (64 * q) 'a') := by
      rw [List.replicate_append_replicate, ← List.replicate_succ]
      congr 1
      omega
    have hfill := chunkMemoSegments_fill (List.replicate (64 * q) 'a') 1 63 (by omega)
    rw [hsplit, chunkMemoSegments]
    rw [hsize, if_pos (by simp)]
    rw [List.replicate_one] at hfill
    rw [hfill, ih, ← List.replicate_succ]

/-- A memo of `64 * (q + 1)` letters. -/
lemma chunkMemoSegments_letters (q : ℕ) :
    chunkMemoSegments (List.replicate (64 * (q + 1)) 'a') [] 0 =
      List.replicate (q + 1) (List.replicate 64 'a') := by
  have hsplit : List.replicate (64 * (q + 1)) 'a' =
      List.replicate 64 'a' ++ List.replicate (64 * q) 'a' := by
    rw [List.replicate_append_replicate]
    congr 1
    omega
  have hfill := chunkMemoSegments_fill (List.replicate (64 * q) 'a') 0 64 (by omega)
  rw [List.replicate_zero] at hfill
  rw [hsplit, hfill, chunkMemoSegments_full]

/-- A memo of `64 * (q + 1)` letters. -/
def letters (q : ℕ) : String := String.ofList (List.replicate (64 * (q + 1)) 'a')

/-- Two unspent outputs of 1.5 ada. -/
def twoUtxos : List UTXO :=
  [sampleUtxo 1500000, { sampleUtxo 1500000 with vout := 1 }]

/-- A transfer of one lovelace with a memo of letters. -/
def lettersInput (q : ℕ) : TransactionLoadInput where
  inputType := .transfer ⟨.cardano, none⟩
  senderAddress := ownAddress
  destinationAddress := toAddress
  value := 1
  memo := some (letters q)
  isMaxValue := false
  metadata := .cardano twoUtxos 189992800

/-- The hash of the transaction both outputs come from. -/
def twoUtxosHash : FixedBytes 32 :=
  (decodeHexArray 32 (sampleUtxo 0).transactionId).getD (.zeros 32)

lemma parseAddress_toAddress : parseAddress sampleLib toAddress = .ok toAddressBytes := by
  decide +kernel

lemma parseAddress_ownAddress : parseAddress sampleLib ownAddress = .ok ownAddressBytes := by
  decide +kernel

/-- The parts of the transaction that spends the first output. -/
def firstParts (q : ℕ) : Parts sampleLib (lettersInput q) [sampleUtxo 1500000] :=
  ⟨toAddressBytes, ownAddressBytes, 189992800, [⟨twoUtxosHash, 0⟩], parseAddress_toAddress,
    parseAddress_ownAddress, rfl, by decide +kernel⟩

/-- The parts of the transaction that spends both outputs. -/
def bothParts (q : ℕ) : Parts sampleLib (lettersInput q) twoUtxos :=
  ⟨toAddressBytes, ownAddressBytes, 189992800, [⟨twoUtxosHash, 0⟩, ⟨twoUtxosHash, 1⟩],
    parseAddress_toAddress, parseAddress_ownAddress, rfl, by decide +kernel⟩

lemma transactionMemo_lettersInput (q : ℕ) :
    transactionMemo (lettersInput q) = some (letters q) := by
  have hmemo : (lettersInput q).getMemo = some (letters q) := by
    refine Option.filter_some_pos ?_
    rw [letters, String.toList_ofList]
    simp
  unfold transactionMemo
  rw [hmemo]

/-- What the memo adds to the size of a transaction. -/
lemma signedSize_letters {transaction : Transaction} {q : ℕ}
    (h : transaction.memo = some (letters q)) :
    transaction.signedSize sampleLib.blake2b256 =
      Transaction.signedSize sampleLib.blake2b256 { transaction with memo := none } + 51 +
        headWidth (q + 1) + 66 * (q + 1) := by
  have hdata : ∃ data, transaction.auxiliaryDataBytes = some data ∧
      data.length = 17 + headWidth (q + 1) + 66 * (q + 1) := by
    unfold Transaction.auxiliaryDataBytes
    rw [h, letters]
    dsimp only
    rw [String.toList_ofList, if_neg (by simp), chunkMemoSegments_letters]
    refine ⟨_, rfl, ?_⟩
    have htext : (text (List.replicate 64 'a')).length = 66 := by decide
    have hhead : (tag 259 ++ map 1 ++ unsigned 0 ++ map 1 ++ unsigned 0 ++ map 1 ++ unsigned 6676 ++
        map 1 ++ text ['m', 'e', 'm', 'o']).length = 17 := by decide
    rw [List.length_append, List.length_append, hhead, List.length_flatMap, List.map_replicate,
      htext, List.sum_replicate_nat, List.length_replicate, array, length_majorType,
      Nat.mul_comm]
  obtain ⟨data, hdata, hlength⟩ := hdata
  have hnone : Transaction.auxiliaryDataBytes { transaction with memo := none } = none := rfl
  have hhash : (auxiliaryHashBytes sampleLib.blake2b256 (some data)).length = 35 := rfl
  have hempty : (auxiliaryHashBytes sampleLib.blake2b256 none).length = 0 := rfl
  have hmaps : (map 5).length = 1 ∧ (map 4).length = 1 := by decide
  have hnull : null.length = 1 := rfl
  simp only [Transaction.signedSize, Transaction.signedBytes, Transaction.bodyBytes, hdata, hnone,
    hhash, hempty, hmaps, hnull, Option.isSome_some, Option.isSome_none, if_true,
    Bool.false_eq_true, if_false, Option.getD_some, Option.getD_none, List.length_append, hlength]
  omega

/-- The fee that is estimated when the first output is spent. -/
lemma estimateFee_first (q : ℕ) :
    estimateFee sampleLib (lettersInput q) [sampleUtxo 1500000] 1 false =
      .ok (transactionFee (sizeWith (217 + 51 + headWidth (q + 1) + 66 * (q + 1)) 61 1 170000
        1329999)) := by
  have hsum : sumAmounts [sampleUtxo 1500000] 0 = .ok 1500000 := by decide +kernel
  have hsize : Transaction.signedSize sampleLib.blake2b256
      { (firstParts q).transaction 0 0 0 with memo := none } = 217 := by
    show Transaction.signedSize sampleLib.blake2b256
      ⟨[⟨twoUtxosHash, 0⟩], [⟨toAddressBytes, 0⟩], 0, (189992800 + 7200) % u64Size,
        none⟩ = 217
    decide +kernel
  rw [estimateFee_eq (firstParts q) hsum,
    signedSize_letters (transactionMemo_lettersInput q), hsize]
  rfl

/-- The fee that is estimated when both outputs are spent. -/
lemma estimateFee_both (q : ℕ) :
    estimateFee sampleLib (lettersInput q) twoUtxos 1 false =
      .ok (transactionFee (sizeWith (253 + 51 + headWidth (q + 1) + 66 * (q + 1)) 61 1 170000
        2829999)) := by
  have hsum : sumAmounts twoUtxos 0 = .ok 3000000 := by decide +kernel
  have hsize : Transaction.signedSize sampleLib.blake2b256
      { (bothParts q).transaction 0 0 0 with memo := none } = 253 := by
    show Transaction.signedSize sampleLib.blake2b256
      ⟨[⟨twoUtxosHash, 0⟩, ⟨twoUtxosHash, 1⟩], [⟨toAddressBytes, 0⟩], 0,
        (189992800 + 7200) % u64Size, none⟩ = 253
    decide +kernel
  rw [estimateFee_eq (bothParts q) hsum,
    signedSize_letters (transactionMemo_lettersInput q), hsize]
  rfl

/-- The first output reaches the target of the selection, but does not pay the fee of 1,659,260
lovelace that is estimated for it. -/
lemma planTransfer_lettersInput :
    planTransfer sampleLib (lettersInput 511) = .error .insufficientFunds := by
  have hvalue : (lettersInput 511).valueAsU64 = .ok 1 := rfl
  have hselected : plannedUtxos sampleLib (lettersInput 511) 1 = .ok [sampleUtxo 1500000] := by
    show (do
      let utxos ← utxosFromMetadata sampleLib (.cardano twoUtxos 189992800) ownAddress
      if utxos = [] then .error (.invalidInput "missing input UTXOs")
      else selectUtxos utxos 1 false) = .ok [sampleUtxo 1500000]
    decide +kernel
  have hsum : sumAmounts [sampleUtxo 1500000] 0 = .ok 1500000 := by decide +kernel
  have hmax : (lettersInput 511).isMaxValue = false := rfl
  have hfirst : transactionFee (sizeWith (217 + 51 + headWidth (511 + 1) + 66 * (511 + 1)) 61 1
      170000 1329999) = 1659260 := by decide +kernel
  unfold planTransfer
  rw [show checkInputType (lettersInput 511).inputType = .ok () from rfl, ok_bind, hvalue,
    ok_bind, hselected, ok_bind, hsum, ok_bind, hmax, estimateFee_first, hfirst]
  decide +kernel

/-- **A refusal although the outputs could pay**: one lovelace with a memo of 32768 letters. Both
outputs together are worth 3,000,000 lovelace and pay the fee of 1,660,845. -/
theorem planTransfer_refuses_payable :
    (lettersInput 511).isMaxValue = false ∧
      planTransfer sampleLib (lettersInput 511) = .error .insufficientFunds ∧
      (lettersInput 511).metadata.getUtxos = .ok twoUtxos ∧
      ¬CannotPay sampleLib (lettersInput 511) twoUtxos := by
  refine ⟨rfl, planTransfer_lettersInput, rfl, ?_⟩
  have hboth : transactionFee (sizeWith (253 + 51 + headWidth (511 + 1) + 66 * (511 + 1)) 61 1
      170000 2829999) = 1660845 := by decide +kernel
  rintro ⟨fee, hfee, hshort⟩
  have hfee' : estimateFee sampleLib (lettersInput 511) twoUtxos 1 false = .ok fee := hfee
  rw [estimateFee_both, hboth] at hfee'
  obtain rfl := Except.ok.inj hfee'
  exact absurd hshort (by decide)

/-- A plan with change, and the refusal of the transfer with the long memo. -/
theorem planTransfer_conserves_sample :
    (∃ utxos, (sampleInput 2000000 6500000 false).metadata.getUtxos = .ok utxos ∧
      Conserves sampleLib (sampleInput 2000000 6500000 false) utxos
        ⟨[sampleUtxo 6500000], 2000000, 168655, 4331345⟩) ∧
    ∃ utxos, (lettersInput 511).metadata.getUtxos = .ok utxos ∧
      (CannotPay sampleLib (lettersInput 511) utxos ∨ ∃ selected fee,
        plannedUtxos sampleLib (lettersInput 511) 1 = .ok selected ∧ selected.Subperm utxos ∧
        estimateFee sampleLib (lettersInput 511) selected 1 false = .ok fee ∧
        total selected < 1 + fee ∧ feeEstimateLovelace + minOutputLovelace + 1 / 3 < fee) :=
  ⟨(planTransfer_conserves (sampleInput 2000000 6500000 false)).1 _ (by decide +kernel),
    (planTransfer_conserves (lettersInput 511)).2 rfl planTransfer_lettersInput⟩

-- in max mode there is no change
example : (planTransfer sampleLib (sampleInput 0 6500000 true)).toOption.map (·.change) =
    some 0 := by decide +kernel

end GemCore.Cardano

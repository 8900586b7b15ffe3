import GemCore.Bitcoin.Planner

/-!
# Conservation of value in UTXO plans

Every plan the planner returns spends a sub-multiset of the sender's outputs and splits their
sum exactly into payment, change and fee, on each of the five chains and for every fee rate.

The fee itself is whatever `estimateFee` returns after its cast to 64 bits: the law is about
the sum, not about the adequacy of the fee.

## Main definitions

* `Builds` — the outcome of one attempt to build a plan from a selection.
* `PlanSound` — what a returned plan guarantees for its request.

## Main results

* `selectLoop_builds` — the selection loop returns a plan built from a prefix of the sorted inputs,
  and from all of them when spending the maximum.
* `plan_sound` — every plan of `UtxoPlanner::plan` is sound.
-/

namespace GemCore.Bitcoin

open Lib

/-- The sum of the inputs' values, unbounded. -/
def inputTotal (inputs : List PlanInput) : ℕ := (inputs.map PlanInput.value).sum

/-- The sum of the outputs' values, unbounded. -/
def outputTotal (outputs : List PlanOutput) : ℕ := (outputs.map PlanOutput.value).sum

@[simp] lemma inputTotal_append (l l' : List PlanInput) :
    inputTotal (l ++ l') = inputTotal l + inputTotal l' := by simp [inputTotal]

@[simp] lemma inputTotal_cons (i : PlanInput) (l : List PlanInput) :
    inputTotal (i :: l) = i.value + inputTotal l := by simp [inputTotal]

@[simp] lemma inputTotal_nil : inputTotal [] = 0 := rfl

/-- The running sum does not wrap as long as the whole sum fits. -/
lemma inputTotal_next {selected rest : List PlanInput} {candidate : PlanInput}
    (hfit : inputTotal (selected ++ candidate :: rest) < u64Size) :
    inputTotal ((selected ++ [candidate]) ++ rest) < u64Size ∧
      inputTotal (selected ++ [candidate]) < u64Size ∧
      (inputTotal selected + candidate.value) % u64Size = inputTotal (selected ++ [candidate]) := by
  have hall : inputTotal ((selected ++ [candidate]) ++ rest) < u64Size := by
    simpa [List.append_assoc] using hfit
  have hpart : inputTotal (selected ++ [candidate]) < u64Size := by
    rw [inputTotal_append] at hall
    omega
  refine ⟨hall, hpart, ?_⟩
  rw [inputTotal_append, inputTotal_cons, inputTotal_nil] at hpart ⊢
  exact Nat.mod_eq_of_lt hpart

@[simp] lemma outputTotal_append (l l' : List PlanOutput) :
    outputTotal (l ++ l') = outputTotal l + outputTotal l' := by simp [outputTotal]

@[simp] lemma outputTotal_cons (o : PlanOutput) (l : List PlanOutput) :
    outputTotal (o :: l) = o.value + outputTotal l := by simp [outputTotal]

@[simp] lemma outputTotal_nil : outputTotal [] = 0 := rfl

variable (lib : ScriptLib)

/-! ## Plans built from a selection -/

/-- `p` is a plan for `target` that spends exactly `selected`: the payment comes first, the
memo second, at most one change output follows, and the value is conserved. -/
structure Builds (ctx : SpendContext) (target : SpendTarget) (selected : List PlanInput)
    (p : SpendPlan) : Prop where
  inputs_eq : p.inputs = selected
  conserved : inputTotal p.inputs = outputTotal p.outputs + p.fee
  outputs_eq : ∃ value change, p.outputs =
      ⟨value, ctx.paymentScript⟩ :: (ctx.memoOutput.toList ++ change) ∧
    (∀ o ∈ change, o.scriptPubkey = ctx.changeScript ∧
      dustThreshold lib ctx.chain ctx.changeScript ≤ o.value) ∧
    (∀ v, target = .exact v → value = v) ∧
    (target = .max → change = [] ∧ value ≠ 0 ∧
      dustThreshold lib ctx.chain ctx.paymentScript ≤ value)

/-- A memo output carries no value. -/
def ZeroMemo (ctx : SpendContext) : Prop := outputTotal ctx.memoOutput.toList = 0

/-- Payment and memo together are worth the payment. -/
lemma outputTotal_spendOutputs {ctx : SpendContext} (hmemo : ZeroMemo ctx) (value : ℕ) :
    outputTotal (spendOutputs value ctx.paymentScript ctx.memoOutput) = value := by
  unfold ZeroMemo at hmemo
  simp [spendOutputs, hmemo]

/-- The maximal plan spends the selection: fee and payment are its sum. -/
lemma buildMaxPlan_builds {ctx : SpendContext} (hmemo : ZeroMemo ctx)
    {selected : List PlanInput} {p : SpendPlan}
    (h : buildMaxPlan lib ctx selected (inputTotal selected) = .ok p) :
    Builds lib ctx .max selected p := by
  unfold buildMaxPlan at h
  dsimp only at h
  split at h
  · cases h
  · rename_i value hvalue
    split_ifs at h with hdust
    obtain rfl := Except.ok.inj h
    have hsum := checkedSub_eq_some hvalue
    push Not at hdust
    refine ⟨rfl, ?_, value, [], by simp [spendOutputs], by simp, by simp, ?_⟩
    · dsimp only
      rw [outputTotal_spendOutputs hmemo, hsum]
      omega
    · exact fun _ => ⟨rfl, hdust.1, hdust.2⟩

/-- The exact plan spends the selection: either the remainder is change above the dust
threshold, or it is part of the fee. The final `u64` addition does not wrap because fee and
remainder are both part of the selected sum. -/
theorem buildExactPlan_builds {ctx : SpendContext} (hmemo : ZeroMemo ctx) {value : ℕ}
    {selected : List PlanInput} {p : SpendPlan} (hfit : inputTotal selected < u64Size)
    (h : buildExactPlan lib ctx value selected (inputTotal selected) = some p) :
    Builds lib ctx (.exact value) selected p := by
  unfold buildExactPlan at h
  dsimp only at h
  split at h
  · cases h
  · rename_i remainder hrem
    split_ifs at h with hdust
    · -- change above the dust threshold
      obtain rfl := Option.some.inj h
      have hsum := checkedSub_bind_eq_some hrem
      refine ⟨rfl, ?_, value, [⟨remainder, ctx.changeScript⟩], by simp [spendOutputs], ?_, ?_,
        by simp⟩
      · rw [outputTotal_append, outputTotal_spendOutputs hmemo, hsum]
        simp only [outputTotal_cons, outputTotal_nil]
        omega
      · intro o ho
        obtain rfl := List.mem_singleton.mp ho
        exact ⟨rfl, hdust⟩
      · exact fun v hv => SpendTarget.exact.inj hv
    · -- the remainder is left to the fee
      split at h
      · cases h
      · rename_i rest hrest
        obtain rfl := Option.some.inj h
        have hsum := checkedSub_bind_eq_some hrest
        refine ⟨rfl, ?_, value, [], by simp [spendOutputs], by simp, ?_, by simp⟩
        · dsimp only
          rw [outputTotal_spendOutputs hmemo, Nat.mod_eq_of_lt (by omega), hsum]
          omega
        · exact fun v hv => SpendTarget.exact.inj hv

/-! ## The selection loop -/

/-- **The selection loop** returns a plan built from the inputs taken so far followed by a
prefix of the remaining ones, and by all of them when spending the maximum.

**Proof sketch.** Induction on the remaining inputs, with the running `u64` sum equal to the
unbounded sum of the selection: the whole sum fits 64 bits, so no addition wraps. At each
candidate the loop either returns what `buildMaxPlan` or `buildExactPlan` built from the
selection so far, or goes on. -/
theorem selectLoop_builds {ctx : SpendContext} (hmemo : ZeroMemo ctx) (target : SpendTarget)
    {p : SpendPlan} :
    ∀ (rest selected : List PlanInput), inputTotal (selected ++ rest) < u64Size →
      selectLoop lib ctx target rest selected (inputTotal selected) = .ok p →
      ∃ taken left, rest = taken ++ left ∧ Builds lib ctx target (selected ++ taken) p ∧
        (target = .max → left = []) := by
  intro rest
  induction rest with
  | nil =>
    intro selected _ h
    cases h
  | cons candidate rest ih =>
    intro selected hfit h
    obtain ⟨hfit', hpart, hsum⟩ := inputTotal_next hfit
    -- a plan found later is built from this candidate and what the loop takes after it
    have hlater : selectLoop lib ctx target rest (selected ++ [candidate])
        (inputTotal (selected ++ [candidate])) = .ok p →
        ∃ taken left, candidate :: rest = taken ++ left ∧
          Builds lib ctx target (selected ++ taken) p ∧ (target = .max → left = []) := by
      intro h'
      obtain ⟨taken, left, rfl, hb, hmax⟩ := ih _ hfit' h'
      exact ⟨candidate :: taken, left, rfl, by simpa using hb, hmax⟩
    unfold selectLoop at h
    dsimp only at h
    rw [hsum] at h
    cases target with
    | max =>
      dsimp only at h
      split_ifs at h with hrest
      · exact hlater h
      · obtain rfl : rest = [] := by simpa using hrest
        exact ⟨[candidate], [], rfl, buildMaxPlan_builds lib hmemo h, fun _ => rfl⟩
    | exact value =>
      dsimp only at h
      split at h
      · rename_i q hq
        obtain rfl := Except.ok.inj h
        exact ⟨[candidate], rest, rfl, buildExactPlan_builds lib hmemo hpart hq, by simp⟩
      · exact hlater h

/-- Selection from an unsorted list: the plan is built from a sub-multiset of it, and from a
permutation of all of it when spending the maximum. -/
theorem selectInputsAndBuildPlan_builds {ctx : SpendContext} (hmemo : ZeroMemo ctx)
    {target : SpendTarget} {spendable : List PlanInput} {p : SpendPlan}
    (h : selectInputsAndBuildPlan lib ctx target spendable = .ok p) :
    ∃ selected, Builds lib ctx target selected p ∧ selected.Subperm spendable ∧
      inputTotal selected < u64Size ∧ (target = .max → selected.Perm spendable) := by
  unfold selectInputsAndBuildPlan at h
  dsimp only at h
  split_ifs at h with hover
  set sorted := spendable.insertionSort selectsBefore with hsorted
  have hperm : sorted.Perm spendable := List.perm_insertionSort _ _
  have hfit : inputTotal ([] ++ sorted) < u64Size := by
    have : inputTotal sorted = (sorted.map PlanInput.value).sum := rfl
    have : 0 < u64Size := by decide
    simp only [List.nil_append]
    omega
  obtain ⟨taken, left, hsplit, hb, hmax⟩ := selectLoop_builds lib hmemo target sorted [] hfit h
  have hsub : taken.Subperm spendable :=
    (List.sublist_append_left taken left).subperm.trans (hsplit ▸ hperm.subperm)
  refine ⟨taken, by simpa using hb, hsub, ?_, fun ht => ?_⟩
  · rw [List.nil_append, hsplit, inputTotal_append] at hfit
    omega
  · rw [hmax ht, List.append_nil] at hsplit
    exact hsplit ▸ hperm

/-! ## The planner -/

/-- **What a plan guarantees for its request.**

* `inputs_supplied` — the inputs come, one for one, from a sub-multiset of the request's
  UTXOs, and from all of them when spending the maximum;
* `conserved` and `no_wrap` — inputs are outputs plus fee in unbounded arithmetic, and their
  sum is below `2^64`, so no partial sum the planner forms in 64 bits wraps;
* `outputs` — output 0 pays the destination, exactly the amount unless spending the maximum;
  the memo, if any, is a zero-value `OP_RETURN` at index 1; everything after it pays the sender
  at least the dust threshold; spending the maximum there is no change and the payment is
  non-zero and not dust;
* `memo_readable` — a scanner reads the memo bytes back from output 1;
* `validated` — the signer's own check accepts the plan. -/
structure PlanSound (request : SpendRequest) (p : SpendPlan) : Prop where
  inputs_supplied : ∃ senderHash used,
    senderPublicKeyHash lib request.chain request.senderAddress = .ok senderHash ∧
    used.Subperm request.utxos ∧
    tryMap (spendableInput lib request.chain senderHash) used = .ok p.inputs ∧
    (request.isMax = true → used.Perm request.utxos)
  conserved : inputTotal p.inputs = outputTotal p.outputs + p.fee
  no_wrap : inputTotal p.inputs < u64Size
  outputs : ∃ payment sender value change,
    scriptForAddress lib request.chain request.destinationAddress = .ok payment ∧
    scriptForAddress lib request.chain request.senderAddress = .ok sender ∧
    p.outputs = ⟨value, payment.scriptPubkey⟩ ::
      (request.memo.toList.map (fun memo => ⟨0, opReturn :: lib.pushSlice memo⟩) ++ change) ∧
    (request.isMax = false → value = request.amount) ∧
    (∀ o ∈ change, o.scriptPubkey = sender.scriptPubkey ∧
      dustThreshold lib request.chain sender.scriptPubkey ≤ o.value) ∧
    (request.isMax = true → change = [] ∧ value ≠ 0 ∧
      dustThreshold lib request.chain payment.scriptPubkey ≤ value)
  memo_readable : ∀ memo, request.memo = some memo →
    ∃ o, p.outputs[1]? = some o ∧ o.value = 0 ∧ opReturnData o.scriptPubkey = some memo
  validated : validatePlanAmounts request.chain p = .ok ()

/-- A memo is at most 80 bytes and becomes a zero-value `OP_RETURN` output. -/
lemma memoOutputOf_eq_ok {memo : Option (List UInt8)} {output : Option PlanOutput}
    (h : memoOutputOf lib memo = .ok output) :
    output.toList = memo.toList.map (fun m => ⟨0, opReturn :: lib.pushSlice m⟩) ∧
      ∀ m, memo = some m → m.length ≤ 80 := by
  cases memo with
  | none =>
    obtain rfl := Except.ok.inj h
    simp
  | some m =>
    simp only [memoOutputOf, bind_eq_ok_iff] at h
    obtain ⟨o, ho, hout⟩ := h
    obtain rfl := Except.ok.inj hout
    unfold opReturnOutput at ho
    rw [guard_eq_ok_iff] at ho
    obtain rfl := Except.ok.inj ho.2
    refine ⟨by simp, ?_⟩
    rintro m' hm
    obtain rfl := Option.some.inj hm
    omega

/-- A memo output carries no value. -/
lemma zeroMemo_of_memoOutputOf {memo : Option (List UInt8)} {ctx : SpendContext}
    (h : memoOutputOf lib memo = .ok ctx.memoOutput) : ZeroMemo ctx := by
  unfold ZeroMemo
  rw [(memoOutputOf_eq_ok lib h).1]
  cases memo <;> simp

/-- **Conservation**: every plan of `UtxoPlanner::plan` is sound.

**Proof sketch.** Take the planner's run apart: the guards do not fire, both addresses
decode, the memo becomes its output and the UTXOs become inputs. The selection then builds the
plan from a sub-multiset of these inputs (`selectInputsAndBuildPlan_builds`), which come from
the UTXOs one for one (`Lib.tryMap_subperm`). -/
theorem plan_sound (request : SpendRequest) (p : SpendPlan) (h : plan lib request = .ok p) :
    PlanSound lib request p := by
  unfold plan at h
  rw [guard_eq_ok_iff, guard_eq_ok_iff] at h
  obtain ⟨-, -, h⟩ := h
  rw [bind_eq_ok_iff] at h
  obtain ⟨payment, hpayment, h⟩ := h
  rw [guard_eq_ok_iff, bind_eq_ok_iff] at h
  obtain ⟨-, sender, hsender, h⟩ := h
  rw [bind_eq_ok_iff] at h
  obtain ⟨memoOutput, hmemo, h⟩ := h
  rw [bind_eq_ok_iff] at h
  obtain ⟨spendable, hspendable, h⟩ := h
  set ctx : SpendContext := ⟨request.chain, request.feeRate, payment.scriptPubkey,
    sender.scriptPubkey, memoOutput⟩ with hctx
  have hzero : ZeroMemo ctx := zeroMemo_of_memoOutputOf lib hmemo
  obtain ⟨hlist, hshort⟩ := memoOutputOf_eq_ok lib hmemo
  obtain ⟨selected, hb, hsub, hfit, hall⟩ := selectInputsAndBuildPlan_builds lib hzero h
  obtain ⟨value, change, hout, hchange, hexact, hmax⟩ := hb.outputs_eq
  have hinputs := hb.inputs_eq
  have hout' : p.outputs = ⟨value, payment.scriptPubkey⟩ ::
      (request.memo.toList.map (fun m => ⟨0, opReturn :: lib.pushSlice m⟩) ++ change) := by
    rw [hout, ← hlist]
  refine ⟨?_, hb.conserved, hinputs ▸ hfit, ⟨payment, sender, value, change, hpayment, hsender,
    hout', ?_, hchange, ?_⟩, ?_, ?_⟩
  · -- the inputs come from the request's UTXOs
    unfold spendableInputs at hspendable
    rw [bind_eq_ok_iff] at hspendable
    obtain ⟨senderHash, hhash, hmap⟩ := hspendable
    by_cases hm : request.isMax = true
    · have hp : selected.Perm spendable := hall (by simp [hm])
      obtain ⟨used, hused, hf⟩ := tryMap_perm hmap hp
      exact ⟨senderHash, used, hhash, hused.subperm, hinputs ▸ hf, fun _ => hused⟩
    · obtain ⟨used, hused, hf⟩ := tryMap_subperm hmap hsub
      exact ⟨senderHash, used, hhash, hused, hinputs ▸ hf, fun hm' => absurd hm' hm⟩
  · intro hm
    exact hexact _ (by simp [hm])
  · intro hm
    exact hmax (by simp [hm])
  · intro memo hm
    refine ⟨⟨0, opReturn :: lib.pushSlice memo⟩, by rw [hout', hm]; rfl, rfl, ?_⟩
    exact opReturnData_push lib memo (by have := hshort memo hm; omega)
  · unfold validatePlanAmounts
    exact if_pos hb.conserved

/-! ## A plan on the main chain -/

/-- The script of the address `1111111111111111111114oLvT2`, whose key hash is zero. -/
def zeroHashScript : Script :=
  [0x76, 0xa9, 0x14] ++ List.replicate 20 0 ++ [0x88, 0xac]

/-- The script library at the one address and the one transaction id of the sample request:
the decoders answer there as the real ones do and fail elsewhere. -/
def sampleLib : ScriptLib where
  decodeMainnet address :=
    if address = "1111111111111111111114oLvT2" then .ok (zeroHashScript, .p2pkh)
    else .error "base58 error"
  decodeBase58Check _ := .error "invalid checksum"
  decodeSegwit _ := none
  decodeCash _ := .error ("invalid checksum", "invalid checksum")
  decodeTxid text :=
    if text = String.ofList (List.replicate 64 '0') then some (List.replicate 32 0) else none
  pushSlice data :=
    if data.length ≤ 75 then UInt8.ofNat data.length :: data
    else 0x4c :: UInt8.ofNat data.length :: data
  minimalNonDust script := 3 * (148 + (8 + varintLen script.length + script.length))
  isOpReturn script := script.head? = some opReturn
  isP2pkh script := script.length = 25 ∧ script.take 3 = [0x76, 0xa9, 0x14] ∧
    script.drop 23 = [0x88, 0xac]
  isP2wpkh script := script.length = 22 ∧ script.take 2 = [0x00, 0x14]
  push_short data h := if_pos h
  push_pushdata1 data h _ := if_neg (by omega)

/-- A payment of 10000 satoshi to oneself, with a memo, from one output of 100000. -/
def sampleRequest : SpendRequest where
  chain := .bitcoin
  senderAddress := "1111111111111111111114oLvT2"
  destinationAddress := "1111111111111111111114oLvT2"
  amount := 10000
  isMax := false
  feeRate := 10
  memo := some [0x68, 0x69]
  utxos := [⟨String.ofList (List.replicate 64 '0'), 0, 100000, "1111111111111111111114oLvT2"⟩]

/-- The plan of the sample request. -/
def samplePlan : SpendPlan where
  inputs := [⟨⟨List.replicate 32 0, 0⟩, 100000, zeroHashScript, .p2pkh, 0xfffffffd⟩]
  outputs := [⟨10000, zeroHashScript⟩, ⟨0, [opReturn, 2, 0x68, 0x69]⟩, ⟨89761, zeroHashScript⟩]
  fee := 239

theorem plan_sound_sample :
    plan sampleLib sampleRequest = .ok samplePlan ∧
      PlanSound sampleLib sampleRequest samplePlan := by
  have h : plan sampleLib sampleRequest = .ok samplePlan := by decide
  exact ⟨h, plan_sound sampleLib sampleRequest samplePlan h⟩

end GemCore.Bitcoin

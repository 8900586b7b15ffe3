import GemCore.Bitcoin.FeeSufficiency

/-!
# When an exact spend is refused

The planner gathers inputs from the smallest up and stops at the first selection that covers the
amount and the fee of a transaction with change. It reports insufficient funds exactly if no
selection from the front of that order does, which is not the same as the funds being insufficient:
a small input may cost more than it is worth, and an input that pays for the amount and the fee
without change is not tried without change.

## Main definitions

* `PassesChecks` — a request that reaches the selection.
* `CanPay` — some inputs pay for the amount and for the fee without change.

## Main results

* `selectLoop_insufficient_iff` — when the selection gives up.
* `plan_insufficientFunds_iff` — when the planner reports insufficient funds.
-/

namespace GemCore.Bitcoin

open Lib

variable (lib : ScriptLib)

/-- A request for an exact amount that passes the checks before the selection. -/
structure PassesChecks (request : SpendRequest) (ctx : SpendContext)
    (spendable : List PlanInput) : Prop where
  isExact : request.isMax = false
  utxos_ne : request.utxos ≠ []
  amount_ne : request.amount ≠ 0
  context : spendContext lib request = .ok ctx
  not_dust : dustThreshold lib request.chain ctx.paymentScript ≤ request.amount
  inputs : spendableInputs lib request.chain request.senderAddress request.utxos = .ok spendable
  fits : inputTotal spendable < u64Size

/-- Some of the inputs pay for the amount and for the fee of a transaction without change. -/
def CanPay (ctx : SpendContext) (value : ℕ) (spendable : List PlanInput) : Prop :=
  ∃ selected : List PlanInput, selected.Subperm spendable ∧
    value + feeWithoutChange ctx value selected ≤ inputTotal selected

variable {lib} {ctx : SpendContext}

/-- A plan from a selection exists exactly if the selection covers the amount. -/
theorem buildExactPlan_eq_none_iff {value : ℕ} {selected : List PlanInput} :
    buildExactPlan lib ctx value selected (inputTotal selected) = none ↔
      ¬ CoversAmount lib ctx value selected := by
  refine ⟨buildExactPlan_eq_none lib, fun hcover => ?_⟩
  unfold buildExactPlan
  dsimp only
  split
  · rfl
  · rename_i remainder hrem
    have hsum := checkedSub_bind_eq_some hrem
    have hcovered : value + feeWithChange ctx value selected ≤ inputTotal selected := by
      unfold feeWithChange
      omega
    have hkeep : ¬ KeepsChange lib ctx value selected := fun h => hcover ⟨hcovered, .inl h⟩
    have hwithout : ¬ value + feeWithoutChange ctx value selected ≤ inputTotal selected :=
      fun h => hcover ⟨hcovered, .inr h⟩
    rw [if_neg]
    · split
      · rfl
      · rename_i rest hrest
        have hsum' := checkedSub_bind_eq_some hrest
        unfold feeWithoutChange at hwithout
        omega
    · unfold KeepsChange feeWithChange at hkeep
      omega

/-- **The selection gives up** exactly if no further inputs from the front, after those already
selected, cover the amount.

**Proof sketch.** Induction on the remaining inputs, with the running `u64` sum equal to the
unbounded sum of the selection. The loop goes past a candidate exactly if the selection with it
does not cover the amount. -/
theorem selectLoop_insufficient_iff {value : ℕ} :
    ∀ (rest selected : List PlanInput), inputTotal (selected ++ rest) < u64Size →
      (selectLoop lib ctx (.exact value) rest selected (inputTotal selected) =
          .error .insufficientFunds ↔
        ∀ taken, taken <+: rest → taken ≠ [] →
          ¬ CoversAmount lib ctx value (selected ++ taken)) := by
  intro rest
  induction rest with
  | nil =>
    intro selected _
    refine iff_of_true rfl ?_
    intro taken htaken hne
    exact absurd (List.prefix_nil.mp htaken) hne
  | cons candidate rest ih =>
    intro selected hfit
    obtain ⟨hfit', -, hsum⟩ := inputTotal_next hfit
    -- the selections from here: the candidate alone, or the candidate and more
    have hsplit : (∀ taken, taken <+: candidate :: rest → taken ≠ [] →
          ¬ CoversAmount lib ctx value (selected ++ taken)) ↔
        ¬ CoversAmount lib ctx value (selected ++ [candidate]) ∧
          ∀ taken, taken <+: rest → taken ≠ [] →
            ¬ CoversAmount lib ctx value ((selected ++ [candidate]) ++ taken) := by
      constructor
      · intro h
        refine ⟨h [candidate] (by simp) (by simp), ?_⟩
        intro taken htaken _
        simpa using h (candidate :: taken) (by simpa using htaken) (by simp)
      · rintro ⟨hfirst, hmore⟩ taken htaken hne
        obtain rfl | ⟨taken, rfl, hrest⟩ := List.prefix_cons_iff.mp htaken
        · exact absurd rfl hne
        cases taken with
        | nil => exact hfirst
        | cons next taken => simpa using hmore (next :: taken) hrest (by simp)
    rw [hsplit, ← buildExactPlan_eq_none_iff, ← ih _ hfit', selectLoop, hsum]
    cases buildExactPlan lib ctx value (selected ++ [candidate])
        (inputTotal (selected ++ [candidate])) with
    | none => simp
    | some p => simp

/-- The sum of the inputs does not depend on their order. -/
lemma inputTotal_perm {l l' : List PlanInput} (h : l.Perm l') : inputTotal l = inputTotal l' :=
  (h.map PlanInput.value).sum_nat

/-- A request that passes the checks is decided by the selection. -/
lemma PassesChecks.plan_eq {request : SpendRequest} {spendable : List PlanInput}
    (h : PassesChecks lib request ctx spendable) :
    plan lib request = selectLoop lib ctx (.exact request.amount)
      (spendable.insertionSort selectsBefore) [] 0 := by
  have hcontext := h.context
  simp only [spendContext, bind_eq_ok_iff, Except.ok.injEq] at hcontext
  obtain ⟨payment, hpayment, change, hchange, memoOutput, hmemo, rfl⟩ := hcontext
  have hdust := h.not_dust
  have hfits := h.fits
  rw [← inputTotal_perm (List.perm_insertionSort selectsBefore spendable)] at hfits
  unfold inputTotal at hfits
  rw [plan, if_neg h.utxos_ne, if_neg (by simp [h.amount_ne]), hpayment, ok_bind,
    if_neg (by simpa [h.isExact] using hdust), hchange, ok_bind, hmemo, ok_bind, h.inputs,
    ok_bind, h.isExact]
  simp only [selectInputsAndBuildPlan, if_false, Bool.false_eq_true]
  rw [if_neg (by omega)]

/-- **When an exact spend is refused**: the planner reports insufficient funds exactly if no
selection from the front of the inputs, smallest first, covers the amount and the fee with
change, and, when what is left is not worth a change output, also the fee without. -/
theorem plan_insufficientFunds_iff (lib : ScriptLib) (request : SpendRequest) (ctx : SpendContext)
    (spendable : List PlanInput) (h : PassesChecks lib request ctx spendable) :
    plan lib request = .error .insufficientFunds ↔
      ∀ taken, taken <+: spendable.insertionSort selectsBefore → taken ≠ [] →
        ¬ CoversAmount lib ctx request.amount taken := by
  have hfits : inputTotal ([] ++ spendable.insertionSort selectsBefore) < u64Size := by
    rw [List.nil_append, inputTotal_perm (List.perm_insertionSort selectsBefore spendable)]
    exact h.fits
  rw [h.plan_eq]
  exact selectLoop_insufficient_iff _ [] hfits

/-! ## Two refused requests that could be paid -/

/-- An output of the sender with a value. -/
def valueUtxo (vout : Int) (value : ℕ) : UTXO :=
  ⟨String.ofList (List.replicate 64 '0'), vout, value, "1BgGZ9tcN4rm9KBzDn7KprQz87SZ26SAMH"⟩

/-- A payment of 10000 satoshi to oneself, at one satoshi a byte. -/
def paymentRequest (utxos : List UTXO) : SpendRequest where
  chain := .bitcoin
  senderAddress := "1BgGZ9tcN4rm9KBzDn7KprQz87SZ26SAMH"
  destinationAddress := "1BgGZ9tcN4rm9KBzDn7KprQz87SZ26SAMH"
  amount := 10000
  isMax := false
  feeRate := 10
  memo := none
  utxos := utxos

/-- The script of the sender. -/
def unitScript : Script := [0x76, 0xa9, 0x14] ++ unitKeyHash ++ [0x88, 0xac]

/-- What the planner knows of these requests. -/
def paymentContext : SpendContext := ⟨.bitcoin, 10, unitScript, unitScript, none⟩

/-- The input for an output of the sender. -/
def valueInput (vout value : ℕ) : PlanInput :=
  ⟨⟨List.replicate 32 0, vout⟩, value, unitScript, .p2pkh, 0xfffffffd⟩

example : spendableInputs unitLib .bitcoin (paymentRequest []).senderAddress [valueUtxo 0 10192] =
    .ok [valueInput 0 10192] := by
  decide +kernel

lemma passesChecks_single : PassesChecks unitLib (paymentRequest [valueUtxo 0 10192])
    paymentContext [valueInput 0 10192] where
  isExact := rfl
  utxos_ne := by decide
  amount_ne := by decide
  context := rfl
  not_dust := by decide +kernel
  inputs := by decide +kernel
  fits := by decide

lemma passesChecks_dust : PassesChecks unitLib
    (paymentRequest [valueUtxo 0 100, valueUtxo 1 10250]) paymentContext
    [valueInput 0 100, valueInput 1 10250] where
  isExact := rfl
  utxos_ne := by decide
  amount_ne := by decide
  context := rfl
  not_dust := by decide +kernel
  inputs := by decide +kernel
  fits := by decide

/-- An input that pays for the amount and the fee without change is refused, and so is a pair of
inputs of which the larger one pays for the amount and any fee. -/
theorem plan_refuses_payable :
    (PassesChecks unitLib (paymentRequest [valueUtxo 0 10192]) paymentContext
        [valueInput 0 10192] ∧
      plan unitLib (paymentRequest [valueUtxo 0 10192]) = .error .insufficientFunds ∧
      CanPay paymentContext 10000 [valueInput 0 10192]) ∧
    (PassesChecks unitLib (paymentRequest [valueUtxo 0 100, valueUtxo 1 10250]) paymentContext
        [valueInput 0 100, valueInput 1 10250] ∧
      plan unitLib (paymentRequest [valueUtxo 0 100, valueUtxo 1 10250]) =
        .error .insufficientFunds ∧
      CanPay paymentContext 10000 [valueInput 0 100, valueInput 1 10250]) := by
  refine ⟨⟨passesChecks_single, by decide +kernel, [valueInput 0 10192], .refl _, ?_⟩,
    ⟨passesChecks_dust, by decide +kernel, [valueInput 1 10250], ?_, ?_⟩⟩
  · decide +kernel
  · exact (List.sublist_cons_self _ _).subperm
  · decide +kernel

-- a larger output is not refused
example : plan unitLib (paymentRequest [valueUtxo 0 20000]) ≠ .error .insufficientFunds := by
  decide +kernel

/-- Neither the small input by itself nor both together cover the amount and the fee. -/
theorem plan_insufficientFunds_iff_dust :
    plan unitLib (paymentRequest [valueUtxo 0 100, valueUtxo 1 10250]) = .error .insufficientFunds ∧
      ∀ taken, taken <+: [valueInput 0 100, valueInput 1 10250].insertionSort selectsBefore →
        taken ≠ [] → ¬ CoversAmount unitLib paymentContext 10000 taken := by
  have hrefused : plan unitLib (paymentRequest [valueUtxo 0 100, valueUtxo 1 10250]) =
      .error .insufficientFunds := by decide +kernel
  exact ⟨hrefused, (plan_insufficientFunds_iff unitLib _ _ _ passesChecks_dust).mp hrefused⟩

end GemCore.Bitcoin

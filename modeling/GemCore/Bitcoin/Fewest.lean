import GemCore.Bitcoin.Selection

/-!
# How many inputs an exact spend takes

The selection goes from the smallest input up, and an exact spend takes the fewest inputs at the
front that pay. A few large inputs that would do are found only if as many small ones do not come
before them. What a selection pays for depends on its sum and on how many inputs of either kind it
has, so that the largest inputs of each kind decide whether any fewer would do.

## Main definitions

* `Pays` — a plan can be built from a selection.
* `largestOf` — the most valuable inputs of a kind.
* `SmallestAsFew` — where the largest inputs pay, no more of the smallest do.

## Main results

* `selectLoop_selects` — what an exact spend selects, on every chain.
* `Pays.largest` — the largest inputs pay where others of the same kinds do.
* `plan_fewest_iff` — an exact spend takes the fewest inputs of the front, and when no fewer of any
  would do.
-/

namespace GemCore.Bitcoin

open Lib

variable (lib : ScriptLib) {ctx : SpendContext} {value : ℕ}

/-- `build_exact_plan` returns a plan for a selection with its sum. -/
def Pays (ctx : SpendContext) (value : ℕ) (selected : List PlanInput) : Prop :=
  buildExactPlan lib ctx value selected (inputTotal selected) ≠ none

/-- The `n` most valuable inputs of a kind. -/
def largestOf (kind : UnlockingScript) (n : ℕ) (inputs : List PlanInput) : List PlanInput :=
  ((inputs.filter (·.unlockingScript = kind)).insertionSort fun a b => b.value ≤ a.value).take n

/-- Wherever some of the most valuable inputs of each kind pay, as few or fewer of the smallest
inputs pay. -/
def SmallestAsFew (ctx : SpendContext) (value : ℕ) (inputs : List PlanInput) : Prop :=
  ∀ legacy segwit,
    Pays lib ctx value (largestOf .p2pkh legacy inputs ++ largestOf .p2wpkh segwit inputs) →
    ∃ taken, taken <+: inputs.insertionSort selectsBefore ∧ taken ≠ [] ∧
      taken.length ≤ (largestOf .p2pkh legacy inputs ++ largestOf .p2wpkh segwit inputs).length ∧
      Pays lib ctx value taken

variable {lib}

lemma pays_iff {selected : List PlanInput} :
    Pays lib ctx value selected ↔ CoversAmount lib ctx value selected := by
  rw [Pays, Ne, buildExactPlan_eq_none_iff, not_not]

/-! ## What is selected -/

lemma inputs_of_buildExactPlan {selected : List PlanInput} {amount : ℕ} {p : SpendPlan}
    (h : buildExactPlan lib ctx value selected amount = some p) : p.inputs = selected := by
  unfold buildExactPlan at h
  dsimp only at h
  split at h
  · cases h
  · split at h
    · cases h
      rfl
    · split at h
      · cases h
      · cases h
        rfl

/-- **What an exact spend selects**: as few from the front as pay.

**Proof sketch.** Induction on the remaining inputs; the running sum does not wrap. The loop returns
at the first candidate with which a plan exists. -/
theorem selectLoop_selects {p : SpendPlan} :
    ∀ (rest selected : List PlanInput), inputTotal (selected ++ rest) < u64Size →
      selectLoop lib ctx (.exact value) rest selected (inputTotal selected) = .ok p →
      ∃ taken, SelectsAfter lib ctx (.exact value) selected rest taken ∧
        p.inputs = selected ++ taken := by
  intro rest
  induction rest with
  | nil =>
    intro selected _ h
    cases h
  | cons candidate rest ih =>
    intro selected hfit h
    obtain ⟨hfit', -, hsum⟩ := inputTotal_next hfit
    rw [selectLoop, hsum] at h
    cases hplan : buildExactPlan lib ctx value (selected ++ [candidate])
        (inputTotal (selected ++ [candidate])) with
    | some q =>
      simp only [hplan, Except.ok.injEq] at h
      subst h
      have hcover : CoversAmount lib ctx value (selected ++ [candidate]) :=
        pays_iff.mp (by rw [Pays, hplan]; exact Option.some_ne_none q)
      refine ⟨[candidate], ⟨by simp, by simp, hcover, ?_⟩, inputs_of_buildExactPlan hplan⟩
      intro fewer _ hne hlt
      exact absurd (List.length_eq_zero_iff.mp (Nat.lt_one_iff.mp hlt)) hne
    | none =>
      simp only [hplan] at h
      have hnot := buildExactPlan_eq_none_iff.mp hplan
      obtain ⟨taken, ⟨hne, htaken, hcover, hleast⟩, hinputs⟩ := ih _ hfit' h
      refine ⟨candidate :: taken, ⟨by simp, by simpa using htaken, by simpa using hcover, ?_⟩,
        by simpa using hinputs⟩
      intro fewer hfewer hne' hlt
      obtain rfl | ⟨fewer, rfl, hrest⟩ := List.prefix_cons_iff.mp hfewer
      · exact absurd rfl hne'
      cases fewer with
      | nil => exact hnot
      | cons next fewer =>
        have hshort : (next :: fewer).length < taken.length := by simpa using hlt
        simpa using hleast (next :: fewer) hrest (by simp) hshort

/-! ## What a selection pays for -/

/-- What an input of a kind weighs. -/
def UnlockingScript.weight : UnlockingScript → ℕ
  | .p2pkh => 148 * 4
  | .p2wpkh => 41 * 4 + 108

/-- Whether an input of a kind has a witness. -/
def UnlockingScript.isWitness : UnlockingScript → Bool
  | .p2wpkh => true
  | .p2pkh => false

lemma map_inputWeight (inputs : List PlanInput) :
    inputs.map inputWeight =
      (inputs.map PlanInput.unlockingScript).map UnlockingScript.weight := by
  rw [List.map_map]
  refine List.map_congr_left fun input _ => ?_
  rw [inputWeight, Function.comp_apply]
  cases input.unlockingScript with
  | p2pkh => rfl
  | p2wpkh => rfl

/-- Two selections with the same kinds of inputs have the same fee. -/
lemma estimateFee_of_perm {chain : BitcoinChain} {s s' : List PlanInput}
    (h : (s.map PlanInput.unlockingScript).Perm (s'.map PlanInput.unlockingScript))
    (outputs : List PlanOutput) (feeRate : ℕ) :
    estimateFee chain s outputs feeRate = estimateFee chain s' outputs feeRate := by
  have hlength : s.length = s'.length := by
    simpa using h.length_eq
  have hweight : (s.map inputWeight).sum = (s'.map inputWeight).sum := by
    rw [map_inputWeight, map_inputWeight]
    exact (h.map _).sum_nat
  have hwitness : ∀ f : UnlockingScript → Bool,
      (s.any fun input => f input.unlockingScript) =
        s'.any fun input => f input.unlockingScript := by
    intro f
    have hany : ∀ l : List PlanInput, (l.any fun input => f input.unlockingScript) =
        (l.map PlanInput.unlockingScript).any f := fun l => by rw [List.any_map]; rfl
    rw [hany, hany, Bool.eq_iff_iff, List.any_eq_true, List.any_eq_true]
    constructor
    · rintro ⟨kind, hmem, hf⟩
      exact ⟨kind, h.mem_iff.mp hmem, hf⟩
    · rintro ⟨kind, hmem, hf⟩
      exact ⟨kind, h.mem_iff.mpr hmem, hf⟩
  have hbitcoin : estimateBitcoinFee s outputs feeRate = estimateBitcoinFee s' outputs feeRate := by
    have hany := hwitness UnlockingScript.isWitness
    unfold estimateBitcoinFee
    rw [hlength, hweight]
    exact congrArg (fun hasWitness => divCeil (divCeil (transactionBaseWeight s'.length
      outputs.length hasWitness + (s'.map inputWeight).sum +
      (outputs.map fun o => o.serializedLen * 4).sum) 4 * feeRate) satVbScale) hany
  cases chain with
  | zcash => simp only [estimateFee, estimateZcashFee, hlength]
  | bitcoin | bitcoinCash | litecoin | doge => simp only [estimateFee, hbitcoin]

/-- A selection worth more, of the same kinds of inputs, pays too. -/
lemma Pays.mono {s s' : List PlanInput} (h : Pays lib ctx value s)
    (hkinds : (s.map PlanInput.unlockingScript).Perm (s'.map PlanInput.unlockingScript))
    (htotal : inputTotal s ≤ inputTotal s') : Pays lib ctx value s' := by
  have hwith : feeWithChange ctx value s' = feeWithChange ctx value s :=
    (estimateFee_of_perm hkinds _ _).symm
  have hwithout : feeWithoutChange ctx value s' = feeWithoutChange ctx value s :=
    (estimateFee_of_perm hkinds _ _).symm
  rw [pays_iff] at h ⊢
  obtain ⟨hcovered, hrest⟩ := h
  unfold CoversAmount KeepsChange at *
  rw [hwith, hwithout]
  refine ⟨hcovered.trans htotal, hrest.imp ?_ ?_⟩
  · intro hkeep
    omega
  · intro hcovered
    exact hcovered.trans htotal

/-! ## The largest inputs -/

section Largest

variable {kind : UnlockingScript} {n : ℕ} {inputs s : List PlanInput}

/-- The inputs of a kind, the most valuable first. -/
def descending (kind : UnlockingScript) (inputs : List PlanInput) : List PlanInput :=
  (inputs.filter (·.unlockingScript = kind)).insertionSort fun a b => b.value ≤ a.value

lemma largestOf_eq : largestOf kind n inputs = (descending kind inputs).take n := rfl

lemma descending_pairwise :
    ((descending kind inputs).map PlanInput.value).Pairwise (· ≥ ·) := by
  have htotal : Std.Total (fun a b : PlanInput => b.value ≤ a.value) :=
    ⟨fun a b => Nat.le_total b.value a.value⟩
  have htrans : IsTrans PlanInput (fun a b : PlanInput => b.value ≤ a.value) :=
    ⟨fun _ _ _ hab hbc => Nat.le_trans hbc hab⟩
  exact List.pairwise_map.mpr (List.pairwise_insertionSort _ _)

lemma descending_perm :
    (descending kind inputs).Perm (inputs.filter (·.unlockingScript = kind)) :=
  List.perm_insertionSort _ _

lemma subperm_descending (h : s.Subperm inputs) :
    (s.filter (·.unlockingScript = kind)).Subperm (descending kind inputs) :=
  (h.filter _).trans descending_perm.symm.subperm

lemma largestOf_subperm :
    (largestOf kind n inputs).Subperm (inputs.filter (·.unlockingScript = kind)) :=
  (List.take_sublist n _).subperm.trans descending_perm.subperm

lemma map_largestOf : (largestOf kind n inputs).map PlanInput.unlockingScript =
    List.replicate (largestOf kind n inputs).length kind := by
  rw [List.eq_replicate_iff, List.length_map]
  refine ⟨rfl, ?_⟩
  intro k hk
  obtain ⟨input, hmem, rfl⟩ := List.mem_map.mp hk
  have hkind := (List.mem_filter.mp (largestOf_subperm.subset hmem)).2
  exact of_decide_eq_true hkind

lemma length_largestOf (h : s.Subperm inputs) :
    (largestOf kind (s.filter (·.unlockingScript = kind)).length inputs).length =
      (s.filter (·.unlockingScript = kind)).length := by
  rw [largestOf_eq, List.length_take]
  exact Nat.min_eq_left (subperm_descending h).length_le

/-- The largest inputs of a kind are worth at least as much as any others of the kind. -/
theorem inputTotal_le_largestOf (h : s.Subperm inputs) :
    inputTotal (s.filter (·.unlockingScript = kind)) ≤
      inputTotal (largestOf kind (s.filter (·.unlockingScript = kind)).length inputs) := by
  obtain ⟨t, hperm, hsub⟩ := @subperm_descending kind inputs s h
  have hsum := sum_le_sum_take_of_subperm descending_pairwise
    ⟨t.map PlanInput.value, hperm.map PlanInput.value, hsub.map PlanInput.value⟩
  rw [List.length_map, ← List.map_take] at hsum
  exact hsum

/-- A selection by kinds. -/
lemma filter_append_perm : (s.filter (·.unlockingScript = .p2pkh) ++
    s.filter (·.unlockingScript = .p2wpkh)).Perm s := by
  have hkind : ∀ input : PlanInput, decide (input.unlockingScript = .p2wpkh) =
      !decide (input.unlockingScript = .p2pkh) := by
    intro input
    cases input.unlockingScript <;> rfl
  simp only [hkind]
  exact List.filter_append_perm _ s

/-- **The largest inputs pay** where others of the same kinds do, and there are as many of them. -/
theorem Pays.largest (hpays : Pays lib ctx value s) (h : s.Subperm inputs) :
    ∃ legacy segwit, Pays lib ctx value
        (largestOf .p2pkh legacy inputs ++ largestOf .p2wpkh segwit inputs) ∧
      (largestOf .p2pkh legacy inputs ++ largestOf .p2wpkh segwit inputs).length = s.length := by
  have hperm := @filter_append_perm s
  refine ⟨(s.filter (·.unlockingScript = .p2pkh)).length,
    (s.filter (·.unlockingScript = .p2wpkh)).length, hpays.mono ?_ ?_, ?_⟩
  · have hreplicate : ∀ kind, (s.filter (·.unlockingScript = kind)).map PlanInput.unlockingScript =
        List.replicate (s.filter (·.unlockingScript = kind)).length kind := by
      intro kind
      rw [List.eq_replicate_iff, List.length_map]
      refine ⟨rfl, fun k hk => ?_⟩
      obtain ⟨input, hmem, rfl⟩ := List.mem_map.mp hk
      exact of_decide_eq_true (List.mem_filter.mp hmem).2
    refine (hperm.map PlanInput.unlockingScript).symm.trans (List.Perm.of_eq ?_)
    rw [List.map_append, List.map_append, map_largestOf, map_largestOf, length_largestOf h,
      length_largestOf h, hreplicate, hreplicate]
  · rw [← inputTotal_perm hperm, inputTotal_append, inputTotal_append]
    exact Nat.add_le_add (inputTotal_le_largestOf h) (inputTotal_le_largestOf h)
  · rw [List.length_append, length_largestOf h, length_largestOf h, ← List.length_append]
    exact hperm.length_eq

lemma largest_subperm (legacy segwit : ℕ) :
    (largestOf .p2pkh legacy inputs ++ largestOf .p2wpkh segwit inputs).Subperm inputs :=
  (List.Subperm.append largestOf_subperm largestOf_subperm).trans filter_append_perm.subperm

end Largest

/-! ## The fewest inputs -/

/-- A plan for an exact amount comes from a request that passes the checks. -/
lemma passesChecks_of_plan {request : SpendRequest} {p : SpendPlan}
    (hexact : request.isMax = false) (h : plan lib request = .ok p) :
    ∃ ctx spendable, PassesChecks lib request ctx spendable := by
  unfold plan at h
  rw [guard_eq_ok_iff, guard_eq_ok_iff] at h
  obtain ⟨hutxos, hamount, h⟩ := h
  rw [bind_eq_ok_iff] at h
  obtain ⟨payment, hpayment, h⟩ := h
  rw [guard_eq_ok_iff] at h
  simp only [bind_eq_ok_iff] at h
  obtain ⟨hdust, sender, hsender, memoOutput, hmemo, spendable, hspendable, h⟩ := h
  unfold selectInputsAndBuildPlan at h
  dsimp only at h
  rw [guard_eq_ok_iff] at h
  obtain ⟨hover, -⟩ := h
  refine ⟨⟨request.chain, request.feeRate, payment.scriptPubkey, sender.scriptPubkey, memoOutput⟩,
    spendable, hexact, hutxos, fun hzero => hamount ⟨hexact, hzero⟩, ?_, ?_, hspendable, ?_⟩
  · simp only [spendContext, bind_eq_ok_iff]
    exact ⟨payment, hpayment, sender, hsender, memoOutput, hmemo, rfl⟩
  · by_contra hlt
    exact hdust ⟨hexact, Nat.lt_of_not_le hlt⟩
  · rw [← inputTotal_perm (List.perm_insertionSort selectsBefore spendable)]
    have hpos : 0 < u64Size := by decide
    unfold inputTotal
    omega

/-- **The fewest inputs of an exact spend**: a plan spends the shortest front part of the ascending
order that pays. No fewer inputs of any kind pay exactly if, wherever some of the most valuable
inputs of each kind pay, as few or fewer of the smallest inputs pay.

**Proof sketch.** The loop stops at the first front part that pays. A selection with fewer inputs
can be exchanged for the largest inputs of the same kinds, which are worth more at the same fee;
and these are themselves a selection. -/
theorem plan_fewest_iff (lib : ScriptLib) (request : SpendRequest) (p : SpendPlan)
    (hexact : request.isMax = false) (h : plan lib request = .ok p) :
    ∃ ctx spendable, PassesChecks lib request ctx spendable ∧
      p.inputs <+: spendable.insertionSort selectsBefore ∧
      Pays lib ctx request.amount p.inputs ∧
      (∀ fewer, fewer <+: spendable.insertionSort selectsBefore → fewer ≠ [] →
        fewer.length < p.inputs.length → ¬ Pays lib ctx request.amount fewer) ∧
      ((∀ s : List PlanInput, s.Subperm spendable → s.length < p.inputs.length →
          buildExactPlan lib ctx request.amount s (inputTotal s) = none) ↔
        SmallestAsFew lib ctx request.amount spendable) := by
  obtain ⟨ctx, spendable, hchecks⟩ := passesChecks_of_plan hexact h
  refine ⟨ctx, spendable, hchecks, ?_⟩
  have hfits : inputTotal ([] ++ spendable.insertionSort selectsBefore) < u64Size := by
    rw [List.nil_append, inputTotal_perm (List.perm_insertionSort selectsBefore spendable)]
    exact hchecks.fits
  rw [hchecks.plan_eq] at h
  obtain ⟨taken, ⟨hne, htaken, hcover, hleast⟩, hinputs⟩ := selectLoop_selects _ [] hfits h
  rw [List.nil_append] at hinputs hcover
  rw [hinputs]
  refine ⟨htaken, pays_iff.mpr hcover, fun fewer hfewer hne' hlt hpays =>
    hleast fewer hfewer hne' hlt (pays_iff.mp hpays), ?_, ?_⟩
  · intro hfewest legacy segwit hpays
    refine ⟨taken, htaken, hne, ?_, pays_iff.mpr hcover⟩
    by_contra hlt
    exact hpays (hfewest _ (largest_subperm legacy segwit) (by omega))
  · intro hsmall s hs hlt
    by_contra hpays
    obtain ⟨legacy, segwit, hlargest, hlength⟩ := Pays.largest (show Pays lib ctx _ s from hpays) hs
    obtain ⟨front, hfront, hne', hle, hfrontPays⟩ := hsmall legacy segwit hlargest
    exact hleast front hfront hne' (by omega) (pays_iff.mp hfrontPays)

/-- A plan that spends two outputs of 6000 satoshi. -/
def doublePlan : SpendPlan :=
  ⟨[valueInput 0 6000, valueInput 1 6000], [⟨10000, unitScript⟩, ⟨1626, unitScript⟩], 374⟩

/-- Of two outputs of 6000 satoshi both are needed. -/
theorem plan_fewest_iff_double :
    plan unitLib (paymentRequest [valueUtxo 0 6000, valueUtxo 1 6000]) = .ok doublePlan ∧
    ∃ ctx spendable,
      PassesChecks unitLib (paymentRequest [valueUtxo 0 6000, valueUtxo 1 6000]) ctx spendable ∧
      doublePlan.inputs <+: spendable.insertionSort selectsBefore ∧
      Pays unitLib ctx 10000 doublePlan.inputs ∧
      (∀ fewer, fewer <+: spendable.insertionSort selectsBefore → fewer ≠ [] →
        fewer.length < doublePlan.inputs.length → ¬ Pays unitLib ctx 10000 fewer) ∧
      ((∀ s : List PlanInput, s.Subperm spendable → s.length < doublePlan.inputs.length →
          buildExactPlan unitLib ctx 10000 s (inputTotal s) = none) ↔
        SmallestAsFew unitLib ctx 10000 spendable) := by
  have hplan : plan unitLib (paymentRequest [valueUtxo 0 6000, valueUtxo 1 6000]) =
      .ok doublePlan := by decide +kernel
  exact ⟨hplan, plan_fewest_iff unitLib _ doublePlan rfl hplan⟩

/-- Two outputs of 6000 satoshi and one of 20000. -/
def tripleRequest : SpendRequest :=
  paymentRequest [valueUtxo 0 6000, valueUtxo 1 6000, valueUtxo 2 20000]

/-- The inputs for them. -/
def tripleInputs : List PlanInput := [valueInput 0 6000, valueInput 1 6000, valueInput 2 20000]

example : plan unitLib tripleRequest = .ok doublePlan := by decide +kernel

lemma passesChecks_triple : PassesChecks unitLib tripleRequest paymentContext tripleInputs where
  isExact := rfl
  utxos_ne := by decide
  amount_ne := by decide
  context := rfl
  not_dust := by decide +kernel
  inputs := by decide +kernel
  fits := by decide

/-- **Two small inputs are spent where one large input pays.** -/
theorem plan_takes_two_for_one :
    tripleRequest.isMax = false ∧ plan unitLib tripleRequest = .ok doublePlan ∧
      PassesChecks unitLib tripleRequest paymentContext tripleInputs ∧
      ¬∀ s : List PlanInput, s.Subperm tripleInputs → s.length < doublePlan.inputs.length →
        buildExactPlan unitLib paymentContext tripleRequest.amount s (inputTotal s) = none := by
  refine ⟨rfl, by decide +kernel, passesChecks_triple, fun hfewest => ?_⟩
  have hsub : [valueInput 2 20000].Subperm tripleInputs := by
    refine List.Sublist.subperm ?_
    exact List.singleton_sublist.mpr (by simp [tripleInputs])
  have hnone := hfewest [valueInput 2 20000] hsub (by decide)
  exact absurd hnone (by decide +kernel)

end GemCore.Bitcoin

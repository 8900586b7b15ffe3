import GemCore.Bitcoin.Conservation
import GemCore.Bitcoin.Transaction

/-!
# When the fee of a UTXO plan is enough

The planner prices a transaction by a weight it adds up from constants, before anything is
signed. The signed transaction weighs exactly as much, with one exception: as soon as one input
carries a witness, every P2PKH input carries an empty one, a byte that the estimate leaves out.
And the estimate, made in 128 bits, is cut to 64. This module says for exactly which requests
the fee of the plan still pays for the signed transaction.

## Main definitions

* `planWeight`, `emptyWitnesses` — the estimated weight, and the bytes it leaves out.
* `requiredFee` — what a signed transaction costs at a fee rate.
* `Selects` — which inputs a request spends.
* `FeeCovered` — the condition on a request.

## Main results

* `weight_signTransaction` — the weight of the signed transaction.
* `plan_fee_sufficient_iff` — the fee of a plan pays for the signed transaction iff the request
  satisfies `FeeCovered`.
-/

namespace GemCore.Bitcoin

open Lib

/-! ## The estimated weight -/

/-- Whether an input is spent through its witness. -/
def PlanInput.hasWitness (input : PlanInput) : Bool :=
  match input.unlockingScript with
  | .p2wpkh => true
  | .p2pkh => false

/-- The weight `estimate_bitcoin_fee` adds up. -/
def planWeight (inputs : List PlanInput) (outputs : List PlanOutput) : ℕ :=
  transactionBaseWeight inputs.length outputs.length (inputs.any PlanInput.hasWitness) +
    (inputs.map inputWeight).sum + (outputs.map fun o => o.serializedLen * 4).sum

lemma estimateBitcoinFee_eq (inputs : List PlanInput) (outputs : List PlanOutput)
    (feeRate : ℕ) : estimateBitcoinFee inputs outputs feeRate =
      divCeil (divCeil (planWeight inputs outputs) 4 * feeRate) satVbScale := rfl

/-- The estimate reads the scripts of the outputs only. -/
lemma planWeight_congr {inputs : List PlanInput} {outputs outputs' : List PlanOutput}
    (h : outputs.map PlanOutput.scriptPubkey = outputs'.map PlanOutput.scriptPubkey) :
    planWeight inputs outputs = planWeight inputs outputs' := by
  have hlen : outputs.length = outputs'.length := by
    simpa using congrArg List.length h
  have hsum : outputs.map (fun o => o.serializedLen * 4) =
      outputs'.map (fun o => o.serializedLen * 4) := by
    simpa [PlanOutput.serializedLen, Function.comp_def] using
      congrArg (List.map fun s : Script => (8 + varintLen s.length + s.length) * 4) h
  unfold planWeight
  rw [hlen, hsum]

/-- The bytes the estimate leaves out: the empty witness of each P2PKH input, in a transaction
that has a witness at all. -/
def emptyWitnesses (inputs : List PlanInput) : ℕ :=
  if inputs.any PlanInput.hasWitness then inputs.countP (fun input => !input.hasWitness) else 0

/-- What the signed transaction weighs. -/
def signedWeight (inputs : List PlanInput) (outputs : List PlanOutput) : ℕ :=
  planWeight inputs outputs + emptyWitnesses inputs

/-- The estimated weight is a multiple of four but for marker and flag. -/
lemma planWeight_mod (inputs : List PlanInput) (outputs : List PlanOutput) :
    planWeight inputs outputs % 4 = if inputs.any PlanInput.hasWitness then 2 else 0 := by
  have hin : (inputs.map inputWeight).sum % 4 = 0 := by
    induction inputs with
    | nil => rfl
    | cons input rest ih =>
      have hw : inputWeight input % 4 = 0 := by
        unfold inputWeight
        split <;> rfl
      simp only [List.map_cons, List.sum_cons]
      omega
  have hout : (outputs.map fun o => o.serializedLen * 4).sum % 4 = 0 := by
    induction outputs with
    | nil => rfl
    | cons output rest ih =>
      simp only [List.map_cons, List.sum_cons]
      omega
  unfold planWeight transactionBaseWeight
  split_ifs <;> omega

/-- **The virtual size the estimate misses**: one byte from the third P2PKH input on, and one
for every four more. -/
theorem divCeil_signedWeight (inputs : List PlanInput) (outputs : List PlanOutput) :
    divCeil (signedWeight inputs outputs) 4 =
      divCeil (planWeight inputs outputs) 4 + (emptyWitnesses inputs + 1) / 4 := by
  have hmod := planWeight_mod inputs outputs
  unfold signedWeight emptyWitnesses divCeil
  split_ifs at hmod ⊢ <;> omega

/-! ## The weight of the signed transaction -/

variable (lib : ScriptLib) (signer : SigningLib)

/-- Transaction ids are hashes of 32 bytes. -/
def ScriptLib.TxidsAre32 : Prop :=
  ∀ text txid, lib.decodeTxid text = some txid → txid.length = 32

/-- Every DER signature has the maximal length of a low-S signature. -/
def SigningLib.MaximalSignatures : Prop :=
  ∀ privateKey digest, (signer.signEcdsa privateKey digest).length = 71

/-- The bytes of an input outside its witness: outpoint, sequence and the script with its
length, which is empty or pushes a signature and a public key. -/
def inputBaseLen (input : PlanInput) : ℕ := if input.hasWitness then 41 else 148

/-- The bytes of the witness of an input: its element count and, in a P2WPKH input, signature
and public key behind their lengths. -/
def inputWitnessLen (input : PlanInput) : ℕ := if input.hasWitness then 108 else 1

variable {lib signer} {privateKey publicKey : List UInt8}

/-- The size of a signed input, by its type. -/
lemma Unlocked.sizes {input : PlanInput} {txin : TxIn} (hsig : signer.MaximalSignatures)
    (hkey : publicKey.length = 33) (htxid : input.previousOutput.txid.length = 32)
    (h : Unlocked lib signer privateKey publicKey input txin) :
    txin.serialize.length = inputBaseLen input ∧
      (encodeWitness txin.witness).length = inputWitnessLen input ∧
      (!txin.witness.isEmpty) = input.hasWitness := by
  obtain ⟨digest, sighashByte, hunlocked⟩ := h.unlocked
  have hder : (derSignature signer privateKey digest sighashByte).length = 72 := by
    simp [derSignature, hsig privateKey digest]
  have hpush : (unlockingScriptSig lib (derSignature signer privateKey digest sighashByte)
      publicKey).length = 107 := by
    unfold unlockingScriptSig
    rw [lib.push_short _ (by omega), lib.push_short _ (by omega)]
    simp only [List.length_append, List.length_cons]
    omega
  dsimp only at hunlocked
  unfold TxIn.serialize OutPoint.serialize inputBaseLen inputWitnessLen encodeWitness
    PlanInput.hasWitness
  rw [h.previousOutput_eq]
  split at hunlocked
  · rename_i hkind
    obtain ⟨hscript, hwitness⟩ := hunlocked
    simp [hkind, hscript, hwitness, hpush, htxid, varintLen]
  · rename_i hkind
    obtain ⟨hscript, hwitness⟩ := hunlocked
    simp [hkind, hscript, hwitness, hkey, hder, htxid, varintLen]

/-- The sizes of all signed inputs together. -/
lemma unlocked_sizes {inputs : List PlanInput} {txins : List TxIn}
    (hsig : signer.MaximalSignatures) (hkey : publicKey.length = 33)
    (htxid : ∀ input ∈ inputs, input.previousOutput.txid.length = 32)
    (h : List.Forall₂ (Unlocked lib signer privateKey publicKey) inputs txins) :
    (txins.flatMap TxIn.serialize).length = (inputs.map inputBaseLen).sum ∧
      (txins.flatMap fun txin => encodeWitness txin.witness).length =
        (inputs.map inputWitnessLen).sum ∧
      txins.any (fun txin => !txin.witness.isEmpty) = inputs.any PlanInput.hasWitness := by
  induction h with
  | nil => simp
  | @cons input txin inputs txins hun _ ih =>
    obtain ⟨hbase, hwitness, hany⟩ := hun.sizes hsig hkey (htxid input List.mem_cons_self)
    obtain ⟨ihbase, ihwitness, ihany⟩ := ih fun i hi => htxid i (List.mem_cons_of_mem _ hi)
    refine ⟨?_, ?_, ?_⟩
    · simp only [List.flatMap_cons, List.length_append, List.map_cons, List.sum_cons, hbase,
        ihbase]
    · simp only [List.flatMap_cons, List.length_append, List.map_cons, List.sum_cons, hwitness,
        ihwitness]
    · simp only [List.any_cons, hany, ihany]

/-- With a witness for every input, the inputs weigh what is estimated for them and one more
for each empty witness. -/
theorem inputWeight_sum_witness (inputs : List PlanInput) :
    4 * (inputs.map inputBaseLen).sum + (inputs.map inputWitnessLen).sum =
      (inputs.map inputWeight).sum + inputs.countP (fun input => !input.hasWitness) := by
  induction inputs with
  | nil => rfl
  | cons input rest ih =>
    cases hkind : input.unlockingScript <;>
      simp [inputBaseLen, inputWitnessLen, inputWeight, PlanInput.hasWitness, hkind] at ih ⊢ <;>
      omega

/-- Without any witness, the inputs weigh what is estimated for them. -/
lemma inputWeight_sum_base (inputs : List PlanInput)
    (h : inputs.any PlanInput.hasWitness = false) :
    4 * (inputs.map inputBaseLen).sum = (inputs.map inputWeight).sum := by
  induction inputs with
  | nil => rfl
  | cons input rest ih =>
    simp only [List.any_cons, Bool.or_eq_false_iff] at h
    have ih := ih h.2
    have hhead : 4 * inputBaseLen input = inputWeight input := by
      cases hkind : input.unlockingScript <;>
        simp [inputBaseLen, inputWeight, PlanInput.hasWitness, hkind] at h ⊢
    simp only [List.map_cons, List.sum_cons]
    omega

/-- Outputs are encoded in the length the planner counts. -/
lemma length_flatMap_serialize (outputs : List PlanOutput) :
    4 * (outputs.flatMap PlanOutput.serialize).length =
      (outputs.map fun o => o.serializedLen * 4).sum := by
  induction outputs with
  | nil => rfl
  | cons output rest ih =>
    simp only [List.flatMap_cons, List.length_append, PlanOutput.length_serialize,
      List.map_cons, List.sum_cons]
    omega

/-- **The weight of the signed transaction** of a plan with at least one input.

**Proof sketch.** The signed inputs have the plan's types, in order
(`signTransaction_signs`), so their base and witness bytes are known from the plan
(`unlocked_sizes`). Counting base bytes four times gives the estimate, and the witnesses the
estimate too, up to the empty ones (`inputWeight_sum_witness`). -/
theorem weight_signTransaction {chain : BitcoinChain} {plan : SpendPlan} {tx : Transaction}
    (hsig : signer.MaximalSignatures) (hne : plan.inputs ≠ [])
    (htxid : ∀ input ∈ plan.inputs, input.previousOutput.txid.length = 32)
    (h : signTransaction lib signer chain plan privateKey = .ok tx) :
    tx.weight = signedWeight plan.inputs plan.outputs := by
  obtain ⟨hout, publicKey, hkey, hun⟩ := signTransaction_signs lib signer h
  obtain ⟨hbase, hwitness, hany⟩ := unlocked_sizes hsig hkey htxid hun
  have hlen : tx.input.length = plan.inputs.length := hun.length_eq.symm
  have hempty : tx.input.isEmpty = false := by
    rw [List.isEmpty_eq_false_iff, ← List.length_pos_iff, hlen]
    exact List.length_pos_iff.mpr hne
  have houts := length_flatMap_serialize plan.outputs
  unfold Transaction.weight Transaction.serialize signedWeight planWeight emptyWitnesses
    transactionBaseWeight
  simp only [Transaction.usesSegwitSerialization, hany, hempty, Bool.or_false]
  split_ifs with hw
  · have hsum := inputWeight_sum_witness plan.inputs
    simp only [Transaction.serializeBase, Transaction.body, List.length_append,
      length_leBytes, length_encodeVarint, hbase, hwitness, hlen, hout, List.length_cons,
      List.length_nil]
    omega
  · have hsum := inputWeight_sum_base plan.inputs (by simpa using hw)
    simp only [Transaction.serializeBase, Transaction.body, List.length_append,
      length_leBytes, length_encodeVarint, hbase, hlen, hout]
    omega

/-! ## Which inputs a request spends -/

variable (lib)

/-- The fee the planner sets aside for a payment with change. -/
def feeWithChange (ctx : SpendContext) (value : ℕ) (selected : List PlanInput) : ℕ :=
  estimateFee ctx.chain selected
    (spendOutputs value ctx.paymentScript ctx.memoOutput ++ [⟨0, ctx.changeScript⟩]) ctx.feeRate

/-- The fee the planner sets aside for a payment without change. -/
def feeWithoutChange (ctx : SpendContext) (value : ℕ) (selected : List PlanInput) : ℕ :=
  estimateFee ctx.chain selected (spendOutputs value ctx.paymentScript ctx.memoOutput)
    ctx.feeRate

/-- What the inputs leave after amount and fee is worth a change output. -/
def KeepsChange (ctx : SpendContext) (value : ℕ) (selected : List PlanInput) : Prop :=
  value + feeWithChange ctx value selected + dustThreshold lib ctx.chain ctx.changeScript ≤
    inputTotal selected

instance (ctx : SpendContext) (value : ℕ) (selected : List PlanInput) :
    Decidable (KeepsChange lib ctx value selected) := inferInstanceAs (Decidable (_ ≤ _))

/-- The inputs reach the amount and the fee. -/
def CoversAmount (ctx : SpendContext) (value : ℕ) (selected : List PlanInput) : Prop :=
  value + feeWithChange ctx value selected ≤ inputTotal selected ∧
    (KeepsChange lib ctx value selected ∨
      value + feeWithoutChange ctx value selected ≤ inputTotal selected)

/-- The inputs `taken` that a request spends from the sorted list `rest`, after those in
`before`: all of them when spending the maximum, otherwise as few from the front as cover the
amount. -/
def SelectsAfter (ctx : SpendContext) (target : SpendTarget)
    (before rest taken : List PlanInput) : Prop :=
  taken ≠ [] ∧
  match target with
  | .max => taken = rest
  | .exact value => taken <+: rest ∧ CoversAmount lib ctx value (before ++ taken) ∧
      ∀ fewer, fewer <+: rest → fewer ≠ [] → fewer.length < taken.length →
        ¬ CoversAmount lib ctx value (before ++ fewer)

/-- The inputs a request spends from the sorted list `sorted`. -/
def Selects (ctx : SpendContext) (target : SpendTarget) (sorted selected : List PlanInput) :
    Prop :=
  SelectsAfter lib ctx target [] sorted selected

/-- The outputs the fee is estimated for. -/
def pricedOutputs (ctx : SpendContext) (target : SpendTarget) (selected : List PlanInput) :
    List PlanOutput :=
  match target with
  | .max => spendOutputs 0 ctx.paymentScript ctx.memoOutput
  | .exact value =>
    if KeepsChange lib ctx value selected then
      spendOutputs value ctx.paymentScript ctx.memoOutput ++ [⟨0, ctx.changeScript⟩]
    else spendOutputs value ctx.paymentScript ctx.memoOutput

/-- What the estimate is for the selected inputs, in exact arithmetic. -/
def exactEstimate (ctx : SpendContext) (target : SpendTarget) (selected : List PlanInput) : ℕ :=
  estimateBitcoinFee selected (pricedOutputs lib ctx target selected) ctx.feeRate

/-- The remainder below the dust threshold that a plan without change leaves to the fee. -/
def leftToFee (ctx : SpendContext) (target : SpendTarget) (selected : List PlanInput) : ℕ :=
  match target with
  | .max => 0
  | .exact value =>
    if KeepsChange lib ctx value selected then 0
    else inputTotal selected - value - exactEstimate lib ctx target selected

/-- `p` spends `selected`, pays the scripts that were priced, and its fee is the estimate and
what is left to it, unless the estimate is cut. -/
structure Priced (ctx : SpendContext) (target : SpendTarget) (selected : List PlanInput)
    (p : SpendPlan) : Prop where
  inputs_eq : p.inputs = selected
  scripts_eq : p.outputs.map PlanOutput.scriptPubkey =
    (pricedOutputs lib ctx target selected).map PlanOutput.scriptPubkey
  fee_lt : p.fee < u64Size
  fee_eq : exactEstimate lib ctx target selected < u64Size →
    p.fee = exactEstimate lib ctx target selected + leftToFee lib ctx target selected

variable {ctx : SpendContext}

/-- On the four chains the estimate is the exact one, cut to 64 bits. -/
lemma estimateFee_eq (hchain : ctx.chain ≠ .zcash) (inputs : List PlanInput)
    (outputs : List PlanOutput) (feeRate : ℕ) :
    estimateFee ctx.chain inputs outputs feeRate =
      estimateBitcoinFee inputs outputs feeRate % u64Size := by
  unfold estimateFee
  cases h : ctx.chain <;> simp_all

lemma estimateFee_lt (chain : BitcoinChain) (inputs : List PlanInput)
    (outputs : List PlanOutput) (feeRate : ℕ) :
    estimateFee chain inputs outputs feeRate < u64Size :=
  Nat.mod_lt _ (by decide)

/-- The maximal plan is priced. -/
lemma buildMaxPlan_priced (hchain : ctx.chain ≠ .zcash) {selected : List PlanInput}
    {p : SpendPlan} (h : buildMaxPlan lib ctx selected (inputTotal selected) = .ok p) :
    Priced lib ctx .max selected p := by
  unfold buildMaxPlan at h
  dsimp only at h
  split at h
  · cases h
  · split_ifs at h
    obtain rfl := Except.ok.inj h
    refine ⟨rfl, by simp [pricedOutputs, spendOutputs], estimateFee_lt _ _ _ _, ?_⟩
    intro hlt
    dsimp only
    rw [estimateFee_eq hchain]
    exact Nat.mod_eq_of_lt hlt

/-- No exact plan: the inputs do not cover the amount. -/
lemma buildExactPlan_eq_none {value : ℕ} {selected : List PlanInput}
    (h : buildExactPlan lib ctx value selected (inputTotal selected) = none) :
    ¬ CoversAmount lib ctx value selected := by
  unfold buildExactPlan at h
  dsimp only at h
  rintro ⟨hcover, hchange⟩
  split at h
  · rename_i hnone
    have hlt := checkedSub_bind_eq_none hnone
    unfold feeWithChange at hcover
    omega
  · rename_i remainder hrem
    have hsum := checkedSub_bind_eq_some hrem
    split_ifs at h with hdust
    split at h
    · rename_i hnone
      have hlt := checkedSub_bind_eq_none hnone
      unfold KeepsChange feeWithChange feeWithoutChange at hchange
      omega
    · cases h

/-- An exact plan covers the amount and is priced. -/
lemma buildExactPlan_priced (hchain : ctx.chain ≠ .zcash) {value : ℕ}
    {selected : List PlanInput} {p : SpendPlan} (hfit : inputTotal selected < u64Size)
    (h : buildExactPlan lib ctx value selected (inputTotal selected) = some p) :
    CoversAmount lib ctx value selected ∧ Priced lib ctx (.exact value) selected p := by
  unfold buildExactPlan at h
  dsimp only at h
  split at h
  · cases h
  · rename_i remainder hrem
    have hsum := checkedSub_bind_eq_some hrem
    have hcover : value + feeWithChange ctx value selected ≤ inputTotal selected := by
      unfold feeWithChange
      omega
    split_ifs at h with hdust
    · -- change above the dust threshold
      obtain rfl := Option.some.inj h
      have hkeep : KeepsChange lib ctx value selected := by
        unfold KeepsChange feeWithChange
        omega
      refine ⟨⟨hcover, .inl hkeep⟩, rfl, by simp [pricedOutputs, hkeep],
        estimateFee_lt _ _ _ _, ?_⟩
      intro hlt
      simp only [exactEstimate, leftToFee, pricedOutputs, hkeep, if_true] at hlt ⊢
      rw [estimateFee_eq hchain]
      exact Nat.mod_eq_of_lt hlt
    · -- the remainder is left to the fee
      have hkeep : ¬ KeepsChange lib ctx value selected := by
        unfold KeepsChange feeWithChange
        omega
      split at h
      · cases h
      · rename_i rest hrest
        obtain rfl := Option.some.inj h
        have hsum' := checkedSub_bind_eq_some hrest
        refine ⟨⟨hcover, .inr ?_⟩, rfl, by simp [pricedOutputs, hkeep],
          Nat.mod_lt _ (by decide), ?_⟩
        · unfold feeWithoutChange
          omega
        · intro hlt
          simp only [exactEstimate, leftToFee, pricedOutputs, hkeep, if_false] at hlt ⊢
          rw [estimateFee_eq hchain, Nat.mod_eq_of_lt hlt] at hsum' ⊢
          rw [Nat.mod_eq_of_lt (by omega)]
          omega

/-- **The selection loop** takes the inputs that `SelectsAfter` describes and prices them.

**Proof sketch.** Induction on the remaining inputs, with the running `u64` sum equal to the
unbounded sum of the selection. A candidate with which no plan exists does not cover the amount
(`buildExactPlan_eq_none`), so every shorter selection fails. -/
theorem selectLoop_priced (hchain : ctx.chain ≠ .zcash) (target : SpendTarget) {p : SpendPlan} :
    ∀ (rest selected : List PlanInput), inputTotal (selected ++ rest) < u64Size →
      selectLoop lib ctx target rest selected (inputTotal selected) = .ok p →
      ∃ taken, SelectsAfter lib ctx target selected rest taken ∧
        Priced lib ctx target (selected ++ taken) p := by
  intro rest
  induction rest with
  | nil =>
    intro selected _ h
    cases h
  | cons candidate rest ih =>
    intro selected hfit h
    obtain ⟨hfit', hpart, hsum⟩ := inputTotal_next hfit
    unfold selectLoop at h
    dsimp only at h
    rw [hsum] at h
    cases target with
    | max =>
      dsimp only at h
      split_ifs at h with hrest
      · obtain ⟨taken, ⟨-, rfl⟩, hp⟩ := ih _ hfit' h
        exact ⟨candidate :: taken, ⟨by simp, rfl⟩, by simpa using hp⟩
      · obtain rfl : rest = [] := by simpa using hrest
        exact ⟨[candidate], ⟨by simp, rfl⟩, buildMaxPlan_priced lib hchain h⟩
    | exact value =>
      dsimp only at h
      split at h
      · rename_i q hq
        obtain rfl := Except.ok.inj h
        obtain ⟨hcover, hp⟩ := buildExactPlan_priced lib hchain hpart hq
        refine ⟨[candidate], ⟨by simp, by simp, hcover, ?_⟩, hp⟩
        intro fewer _ hne hlen
        have : fewer.length = 0 := by simpa using hlen
        exact absurd (List.eq_nil_of_length_eq_zero this) hne
      · rename_i hnone
        obtain ⟨taken, ⟨-, htaken, hcover, hleast⟩, hp⟩ := ih _ hfit' h
        refine ⟨candidate :: taken, ⟨by simp, ?_, by simpa using hcover, ?_⟩, by simpa using hp⟩
        · simpa using htaken
        · intro fewer hfewer hne hlen
          obtain rfl | ⟨fewer, rfl, hrest⟩ := List.prefix_cons_iff.mp hfewer
          · exact absurd rfl hne
          cases fewer with
          | nil => exact buildExactPlan_eq_none lib hnone
          | cons next fewer =>
            simpa using hleast (next :: fewer) hrest (by simp) (by simpa using hlen)

/-- A request spends one selection only. -/
lemma Selects.unique {target : SpendTarget} {sorted selected selected' : List PlanInput}
    (h : Selects lib ctx target sorted selected) (h' : Selects lib ctx target sorted selected') :
    selected = selected' := by
  obtain ⟨hne, h⟩ := h
  obtain ⟨hne', h'⟩ := h'
  cases target with
  | max => exact h.trans h'.symm
  | exact value =>
    obtain ⟨htaken, hcover, hleast⟩ := h
    obtain ⟨htaken', hcover', hleast'⟩ := h'
    have hle : selected.length ≤ selected'.length := by
      by_contra hlt
      exact hleast selected' htaken' hne' (by omega) hcover'
    have hle' : selected'.length ≤ selected.length := by
      by_contra hlt
      exact hleast' selected htaken hne (by omega) hcover
    exact (List.prefix_of_prefix_length_le htaken htaken' hle).eq_of_length (by omega)

/-! ## The condition on a request -/

/-- What the planner knows of a request before it selects inputs. -/
def spendContext (request : SpendRequest) : Except SignerError SpendContext := do
  let payment ← scriptForAddress lib request.chain request.destinationAddress
  let change ← scriptForAddress lib request.chain request.senderAddress
  let memoOutput ← memoOutputOf lib request.memo
  .ok ⟨request.chain, request.feeRate, payment.scriptPubkey, change.scriptPubkey, memoOutput⟩

/-- What a request asks for: all of the sender's outputs, or an amount. -/
def SpendRequest.target (request : SpendRequest) : SpendTarget :=
  if request.isMax then .max else .exact request.amount

/-- `selected` are the inputs a request spends, in the order of the selection. -/
def Spends (request : SpendRequest) (ctx : SpendContext) (selected : List PlanInput) : Prop :=
  spendContext lib request = .ok ctx ∧
    ∃ spendable, spendableInputs lib request.chain request.senderAddress request.utxos =
        .ok spendable ∧
      Selects lib ctx request.target (spendable.insertionSort selectsBefore) selected

/-- A successful plan prices the inputs the request spends. -/
lemma plan_priced {request : SpendRequest} (hchain : request.chain ≠ .zcash) {p : SpendPlan}
    (h : plan lib request = .ok p) :
    ∃ ctx selected, ctx.feeRate = request.feeRate ∧ Spends lib request ctx selected ∧
      Priced lib ctx request.target selected p := by
  unfold plan at h
  rw [guard_eq_ok_iff, guard_eq_ok_iff] at h
  obtain ⟨-, -, h⟩ := h
  rw [bind_eq_ok_iff] at h
  obtain ⟨payment, hpayment, h⟩ := h
  rw [guard_eq_ok_iff] at h
  simp only [bind_eq_ok_iff] at h
  obtain ⟨-, sender, hsender, memoOutput, hmemo, spendable, hspendable, h⟩ := h
  change selectInputsAndBuildPlan lib _ request.target spendable = .ok p at h
  unfold selectInputsAndBuildPlan at h
  dsimp only at h
  rw [guard_eq_ok_iff] at h
  obtain ⟨hover, h⟩ := h
  set ctx : SpendContext := ⟨request.chain, request.feeRate, payment.scriptPubkey,
    sender.scriptPubkey, memoOutput⟩ with hctx
  have hfit : inputTotal ([] ++ spendable.insertionSort selectsBefore) < u64Size := by
    simp only [List.nil_append, inputTotal]
    have : 0 < u64Size := by decide
    omega
  obtain ⟨taken, hselects, hpriced⟩ :=
    selectLoop_priced lib (show ctx.chain ≠ .zcash from hchain) request.target _ [] hfit h
  refine ⟨ctx, taken, rfl, ⟨?_, spendable, hspendable, hselects⟩, hpriced⟩
  simp only [spendContext, hpayment, hsender, hmemo, ok_bind, hctx]

/-- What the empty witnesses cost at a fee rate, beyond the estimate. -/
def unpaidFee (inputs : List PlanInput) (outputs : List PlanOutput) (feeRate : ℕ) : ℕ :=
  divCeil ((divCeil (planWeight inputs outputs) 4 + (emptyWitnesses inputs + 1) / 4) * feeRate)
    satVbScale - estimateBitcoinFee inputs outputs feeRate

/-- **When the fee pays for the signed transaction**: the exact estimate for the inputs the
request spends fits 64 bits, and what the empty witnesses of these inputs cost is no more than
the remainder a plan without change leaves to the fee. In a plan with change, or one that spends
the maximum, nothing is left, so the empty witnesses must cost nothing: fewer than three P2PKH
inputs beside a P2WPKH input, or a fee rate so low that rounding absorbs the bytes. -/
def FeeCovered (request : SpendRequest) : Prop :=
  ∃ ctx selected, Spends lib request ctx selected ∧
    exactEstimate lib ctx request.target selected < u64Size ∧
    unpaidFee selected (pricedOutputs lib ctx request.target selected) request.feeRate ≤
      leftToFee lib ctx request.target selected

/-- What a transaction costs at a fee rate, in exact arithmetic. -/
def requiredFee (tx : Transaction) (feeRate : ℕ) : ℕ := divCeil (tx.vsize * feeRate) satVbScale

/-! ## The planned fee against the signed transaction -/

lemma divCeil_mono {a b : ℕ} (h : a ≤ b) (c : ℕ) : divCeil a c ≤ divCeil b c :=
  Nat.div_le_div_right (by omega)

/-- The outpoint of a spendable input is a decoded transaction id. -/
lemma spendableInput_txid (hlib : lib.TxidsAre32) {chain : BitcoinChain}
    {senderHash : List UInt8} {utxo : UTXO} {input : PlanInput}
    (h : spendableInput lib chain senderHash utxo = .ok input) :
    input.previousOutput.txid.length = 32 := by
  simp only [spendableInput, bind_eq_ok_iff] at h
  obtain ⟨address, -, h⟩ := h
  split at h
  · rw [guard_eq_ok_iff, bind_eq_ok_iff] at h
    obtain ⟨-, value, -, h⟩ := h
    rw [guard_eq_ok_iff, guard_eq_ok_iff] at h
    obtain ⟨-, -, h⟩ := h
    split at h
    · cases h
    · rename_i txid htxid
      obtain rfl := Except.ok.inj h
      exact hlib _ _ htxid
  · cases h

/-- The inputs a request spends have transaction ids of 32 bytes. -/
lemma Spends.txids (hlib : lib.TxidsAre32) {request : SpendRequest} {selected : List PlanInput}
    (h : Spends lib request ctx selected) :
    ∀ input ∈ selected, input.previousOutput.txid.length = 32 := by
  obtain ⟨-, spendable, hspendable, -, hselects⟩ := h
  have hsub : ∀ input ∈ selected, input ∈ spendable := by
    intro input hinput
    refine (List.mem_insertionSort selectsBefore).mp ?_
    cases htarget : request.target with
    | max =>
      rw [htarget] at hselects
      exact hselects ▸ hinput
    | exact value =>
      rw [htarget] at hselects
      exact hselects.1.subset hinput
  unfold spendableInputs at hspendable
  rw [bind_eq_ok_iff] at hspendable
  obtain ⟨senderHash, -, hmap⟩ := hspendable
  rw [tryMap_eq_ok_iff] at hmap
  intro input hinput
  replace hinput := hsub input hinput
  clear hsub hselects
  generalize request.utxos = utxos at hmap
  induction hmap with
  | nil => cases hinput
  | cons hhead _ ih =>
    cases hinput with
    | head => exact spendableInput_txid lib hlib hhead
    | tail _ hmem => exact ih hmem

/-- What the signed transaction of a priced plan costs. -/
lemma requiredFee_eq {target : SpendTarget} {selected : List PlanInput} {p : SpendPlan}
    {tx : Transaction} (hpriced : Priced lib ctx target selected p)
    (hweight : tx.weight = signedWeight p.inputs p.outputs) (feeRate : ℕ) :
    requiredFee tx feeRate =
      estimateBitcoinFee selected (pricedOutputs lib ctx target selected) feeRate +
        unpaidFee selected (pricedOutputs lib ctx target selected) feeRate := by
  have hvsize : tx.vsize = divCeil (planWeight selected (pricedOutputs lib ctx target selected)) 4 +
      (emptyWitnesses selected + 1) / 4 := by
    unfold Transaction.vsize
    rw [hweight, divCeil_signedWeight, hpriced.inputs_eq, planWeight_congr hpriced.scripts_eq]
  have hle : estimateBitcoinFee selected (pricedOutputs lib ctx target selected) feeRate ≤
      requiredFee tx feeRate := by
    rw [estimateBitcoinFee_eq, requiredFee, hvsize]
    exact divCeil_mono (Nat.mul_le_mul_right _ (by omega)) _
  unfold unpaidFee
  rw [← hvsize]
  change _ = _ + (requiredFee tx feeRate - _)
  omega

/-- **Fee sufficiency**: on Bitcoin, Litecoin, Doge and Bitcoin Cash, with signatures of the
maximal length, the fee of a plan pays for the signed transaction at the requested rate exactly
when the request satisfies `FeeCovered`.

**Proof sketch.** The plan prices the inputs the request spends (`plan_priced`), and the signed
transaction costs the exact estimate plus what the empty witnesses cost (`requiredFee_eq`). If
the estimate fits 64 bits, the fee is the estimate plus what is left to it, and the two
conditions agree. If it does not, the fee is below `2^64` and the cost is not. -/
theorem plan_fee_sufficient_iff (lib : ScriptLib) (signer : SigningLib)
    (hlib : lib.TxidsAre32) (hsig : signer.MaximalSignatures) (request : SpendRequest)
    (hchain : request.chain ≠ .zcash) (privateKey : List UInt8) (p : SpendPlan)
    (tx : Transaction) (hplan : plan lib request = .ok p)
    (hsign : signTransaction lib signer request.chain p privateKey = .ok tx) :
    requiredFee tx request.feeRate ≤ p.fee ↔ FeeCovered lib request := by
  obtain ⟨ctx, selected, hrate, hspends, hpriced⟩ := plan_priced lib hchain hplan
  have hne : p.inputs ≠ [] := by
    obtain ⟨-, _, -, hselects⟩ := hspends
    rw [hpriced.inputs_eq]
    exact hselects.1
  have hcost := requiredFee_eq lib hpriced
    (weight_signTransaction hsig hne (hpriced.inputs_eq ▸ hspends.txids lib hlib) hsign)
    request.feeRate
  have hestimate : exactEstimate lib ctx request.target selected =
      estimateBitcoinFee selected (pricedOutputs lib ctx request.target selected)
        request.feeRate := by
    rw [exactEstimate, hrate]
  rw [hcost]
  constructor
  · intro hle
    have hlt := hpriced.fee_lt
    have hfit : exactEstimate lib ctx request.target selected < u64Size := by omega
    have hfee := hpriced.fee_eq hfit
    exact ⟨ctx, selected, hspends, hfit, by omega⟩
  · rintro ⟨ctx', selected', hspends', hfit, hunpaid⟩
    obtain ⟨hctx, spendable, hspendable, hselects⟩ := hspends
    obtain ⟨hctx', spendable', hspendable', hselects'⟩ := hspends'
    obtain rfl : ctx = ctx' := Except.ok.inj (hctx.symm.trans hctx')
    obtain rfl : spendable = spendable' := Except.ok.inj (hspendable.symm.trans hspendable')
    obtain rfl := Selects.unique lib hselects hselects'
    have hfee := hpriced.fee_eq hfit
    omega

/-! ## Two requests whose fee is too low -/

/-- The public key of the private key one. -/
def unitPublicKey : List UInt8 :=
  [0x02, 0x79, 0xbe, 0x66, 0x7e, 0xf9, 0xdc, 0xbb, 0xac, 0x55, 0xa0, 0x62, 0x95, 0xce, 0x87,
    0x0b, 0x07, 0x02, 0x9b, 0xfc, 0xdb, 0x2d, 0xce, 0x28, 0xd9, 0x59, 0xf2, 0x81, 0x5b, 0x16,
    0xf8, 0x17, 0x98]

/-- The hash of `unitPublicKey`. -/
def unitKeyHash : List UInt8 :=
  [0x75, 0x1e, 0x76, 0xe8, 0x19, 0x91, 0x96, 0xd4, 0x54, 0x94, 0x1c, 0x45, 0xd1, 0xb3, 0xa3,
    0x23, 0xf1, 0x43, 0x3b, 0xd6]

/-- The script library at the two addresses of the private key one and at the zero transaction
id; elsewhere as `sampleLib`. -/
def unitLib : ScriptLib :=
  { sampleLib with
    decodeMainnet := fun address =>
      if address = "1BgGZ9tcN4rm9KBzDn7KprQz87SZ26SAMH" then
        .ok ([0x76, 0xa9, 0x14] ++ unitKeyHash ++ [0x88, 0xac], .p2pkh)
      else if address = "bc1qw508d6qejxtdg4y5r3zarvary0c5xw7kv8f3t4" then
        .ok ([0x00, 0x14] ++ unitKeyHash, .segwit (some .p2wpkh))
      else .error "base58 error" }

/-- A signer with the private key one. The signature is any string of the maximal length. -/
def unitSigner : SigningLib where
  publicKey key := if key = beBytes 32 1 then some unitPublicKey else none
  signEcdsa _ _ := List.replicate 71 0x30
  hash160 _ := unitKeyHash
  doubleSha256 _ := List.replicate 32 0
  legacySignatureHash _ _ _ := .ok (List.replicate 32 0)
  p2wpkhSignatureHash _ _ _ _ := .ok (List.replicate 32 0)
  signTransparent _ _ _ := .error (.signingError "unsupported")
  publicKey_length := by
    intro key publicKeyBytes h
    split_ifs at h
    obtain rfl := Option.some.inj h
    rfl

/-- An output of the sender at one of its two addresses. -/
def unitUtxo (vout : Int) (address : String) : UTXO :=
  ⟨String.ofList (List.replicate 64 '0'), vout, 100000, address⟩

/-- Spend everything: three P2PKH outputs and a P2WPKH output, at one satoshi a byte. -/
def mixedRequest : SpendRequest where
  chain := .bitcoin
  senderAddress := "bc1qw508d6qejxtdg4y5r3zarvary0c5xw7kv8f3t4"
  destinationAddress := "1BgGZ9tcN4rm9KBzDn7KprQz87SZ26SAMH"
  amount := 0
  isMax := true
  feeRate := 10
  memo := none
  utxos := [unitUtxo 0 "1BgGZ9tcN4rm9KBzDn7KprQz87SZ26SAMH",
    unitUtxo 1 "1BgGZ9tcN4rm9KBzDn7KprQz87SZ26SAMH",
    unitUtxo 2 "1BgGZ9tcN4rm9KBzDn7KprQz87SZ26SAMH",
    unitUtxo 3 "bc1qw508d6qejxtdg4y5r3zarvary0c5xw7kv8f3t4"]

/-- Spend one P2PKH output at a fee rate for which the estimate is `2^64 + 13`. -/
def wrappedRequest : SpendRequest :=
  { mixedRequest with
    feeRate := 960767920505705814
    utxos := [unitUtxo 0 "1BgGZ9tcN4rm9KBzDn7KprQz87SZ26SAMH"] }

/-- Plan and sign a request, and compare the fee with what the signed transaction costs. -/
def planAndSign (request : SpendRequest) : Except SignerError (ℕ × ℕ) := do
  let p ← plan unitLib request
  let tx ← signTransaction unitLib unitSigner request.chain p (beBytes 32 1)
  .ok (p.fee, requiredFee tx request.feeRate)

lemma planAndSign_eq_ok {request : SpendRequest} {fee cost : ℕ}
    (h : planAndSign request = .ok (fee, cost)) :
    ∃ p tx, plan unitLib request = .ok p ∧
      signTransaction unitLib unitSigner request.chain p (beBytes 32 1) = .ok tx ∧
      p.fee = fee ∧ requiredFee tx request.feeRate = cost := by
  simp only [planAndSign, bind_eq_ok_iff] at h
  obtain ⟨p, hp, tx, htx, h⟩ := h
  obtain ⟨hfee, hcost⟩ := Prod.mk.inj (Except.ok.inj h)
  exact ⟨p, tx, hp, htx, hfee, hcost⟩

lemma unitLib_txids : unitLib.TxidsAre32 := by
  intro text txid h
  simp only [unitLib, sampleLib] at h
  split_ifs at h
  obtain rfl := Option.some.inj h
  rfl

lemma unitSigner_maximal : unitSigner.MaximalSignatures := fun _ _ => rfl

/-- With three P2PKH inputs beside a P2WPKH input the fee is one satoshi short; with a fee rate
near `2^64` it is short by `2^64`. -/
theorem plan_fee_insufficient :
    unitLib.TxidsAre32 ∧ unitSigner.MaximalSignatures ∧
    (∃ p tx, plan unitLib mixedRequest = .ok p ∧
      signTransaction unitLib unitSigner .bitcoin p (beBytes 32 1) = .ok tx ∧
      p.fee = 557 ∧ requiredFee tx mixedRequest.feeRate = 558) ∧
    (∃ p tx, plan unitLib wrappedRequest = .ok p ∧
      signTransaction unitLib unitSigner .bitcoin p (beBytes 32 1) = .ok tx ∧
      p.fee = 13 ∧ requiredFee tx wrappedRequest.feeRate = 2 ^ 64 + 13) := by
  refine ⟨unitLib_txids, unitSigner_maximal, ?_, ?_⟩
  · exact planAndSign_eq_ok (by decide +kernel)
  · exact planAndSign_eq_ok (by decide +kernel)

/-- Two P2PKH inputs beside a P2WPKH input: their empty witnesses disappear in the rounding. -/
def pairRequest : SpendRequest := { mixedRequest with utxos := mixedRequest.utxos.drop 1 }

theorem plan_fee_sufficient_iff_pair :
    FeeCovered unitLib pairRequest ∧ ¬ FeeCovered unitLib mixedRequest := by
  constructor
  · obtain ⟨p, tx, hp, htx, hfee, hcost⟩ := planAndSign_eq_ok
      (show planAndSign pairRequest = .ok (409, 409) by decide +kernel)
    exact (plan_fee_sufficient_iff unitLib unitSigner unitLib_txids unitSigner_maximal
      pairRequest (by decide) _ p tx hp htx).mp (by omega)
  · obtain ⟨p, tx, hp, htx, hfee, hcost⟩ := planAndSign_eq_ok
      (show planAndSign mixedRequest = .ok (557, 558) by decide +kernel)
    intro hcovered
    have := (plan_fee_sufficient_iff unitLib unitSigner unitLib_txids unitSigner_maximal
      mixedRequest (by decide) _ p tx hp htx).mpr hcovered
    omega

-- an input of another kind alone pays exactly
example : planAndSign { mixedRequest with
    utxos := [unitUtxo 3 "bc1qw508d6qejxtdg4y5r3zarvary0c5xw7kv8f3t4"] } = .ok (113, 113) := by
  decide +kernel

end GemCore.Bitcoin

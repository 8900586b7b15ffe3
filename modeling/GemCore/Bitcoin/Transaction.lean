import GemCore.Bitcoin.Planner
import GemCore.Keystore.Secret
import GemCore.Lib.Lists

/-!
# Signed transactions of the Bitcoin-family chains

From a plan to the signed transaction and its bytes (`gem_bitcoin/src/signer/transaction.rs`,
`gem_bitcoin/src/signer/bitcoin_cash.rs`). Curve arithmetic, hashing and the two signature
hashes of the Bitcoin library are the fields of `SigningLib`; the signature
hash of Bitcoin Cash is this crate's own and is modelled. The Zcash format is not.

## Main definitions

* `Transaction`, `Transaction.serialize` — a transaction and its consensus encoding.
* `Transaction.vsize` — its virtual size.
* `signTransaction`, `signPlan` — `sign_plan`.

## Main results

* `signTransaction_signs` — what a signed transaction looks like: the plan's inputs in order, each
  unlocked as its type asks, and the plan's outputs.
-/

namespace GemCore.Bitcoin

open Lib

/-! ## Transactions and their encoding -/

/-- `TxIn`. -/
structure TxIn where
  previousOutput : OutPoint
  scriptSig : Script
  sequence : ℕ
  witness : List (List UInt8)

/-- `Transaction`; its outputs have the fields of the planner's. -/
structure Transaction where
  version : ℕ
  lockTime : ℕ
  input : List TxIn
  output : List PlanOutput

/-- `VarInt`: one byte up to `0xfc`, then a marker and two, four or eight bytes. -/
def encodeVarint (value : ℕ) : List UInt8 :=
  if value ≤ 0xfc then [UInt8.ofNat value]
  else if value ≤ 0xffff then 0xfd :: leBytes 2 value
  else if value ≤ 0xffffffff then 0xfe :: leBytes 4 value
  else 0xff :: leBytes 8 value

@[simp] lemma length_encodeVarint (value : ℕ) : (encodeVarint value).length = varintLen value := by
  unfold encodeVarint varintLen
  split_ifs <;> simp

/-- A byte string behind its length. -/
def encodeBytes (bytes : List UInt8) : List UInt8 := encodeVarint bytes.length ++ bytes

@[simp] lemma length_encodeBytes (bytes : List UInt8) :
    (encodeBytes bytes).length = varintLen bytes.length + bytes.length := by
  simp [encodeBytes]

/-- The encoding of an `OutPoint`. -/
def OutPoint.serialize (outpoint : OutPoint) : List UInt8 :=
  outpoint.txid ++ leBytes 4 outpoint.vout

/-- The encoding of a `TxIn`, without its witness. -/
def TxIn.serialize (input : TxIn) : List UInt8 :=
  input.previousOutput.serialize ++ encodeBytes input.scriptSig ++ leBytes 4 input.sequence

/-- The encoding of a `TxOut`. -/
def PlanOutput.serialize (output : PlanOutput) : List UInt8 :=
  leBytes 8 output.value ++ encodeBytes output.scriptPubkey

@[simp] lemma PlanOutput.length_serialize (output : PlanOutput) :
    output.serialize.length = output.serializedLen := by
  simp [PlanOutput.serialize, PlanOutput.serializedLen]
  omega

/-- The encoding of a `Witness`: the number of its elements, then each behind its length. -/
def encodeWitness (witness : List (List UInt8)) : List UInt8 :=
  encodeVarint witness.length ++ witness.flatMap encodeBytes

namespace Transaction

/-- `Transaction::uses_segwit_serialization`. -/
def usesSegwitSerialization (tx : Transaction) : Bool :=
  tx.input.any (fun input => !input.witness.isEmpty) || tx.input.isEmpty

/-- The inputs and the outputs, each list behind its length. -/
def body (tx : Transaction) : List UInt8 :=
  encodeVarint tx.input.length ++ tx.input.flatMap TxIn.serialize ++
    (encodeVarint tx.output.length ++ tx.output.flatMap PlanOutput.serialize)

/-- The encoding without witness data, which counts in full. -/
def serializeBase (tx : Transaction) : List UInt8 :=
  leBytes 4 tx.version ++ tx.body ++ leBytes 4 tx.lockTime

/-- `serialize`: with marker, flag and one witness for every input as soon as one input has
a witness. -/
def serialize (tx : Transaction) : List UInt8 :=
  if tx.usesSegwitSerialization then
    leBytes 4 tx.version ++ [0x00, 0x01] ++ tx.body ++
      tx.input.flatMap (fun input => encodeWitness input.witness) ++ leBytes 4 tx.lockTime
  else tx.serializeBase

/-- The weight of a transaction: four for a byte of the base encoding, one for a byte of
witness data. -/
def weight (tx : Transaction) : ℕ := 3 * tx.serializeBase.length + tx.serialize.length

/-- The virtual size: a quarter of the weight, rounded up. -/
def vsize (tx : Transaction) : ℕ := divCeil tx.weight 4

end Transaction

/-! ## Signing -/

/-- The third-party functions of the signer. -/
structure SigningLib where
  /-- `SecretKey::from_slice` and the compressed public key of the secret key. -/
  publicKey : List UInt8 → Option (List UInt8)
  /-- `sign_ecdsa` and `serialize_der`. -/
  signEcdsa : List UInt8 → List UInt8 → List UInt8
  /-- `hash160`. -/
  hash160 : List UInt8 → List UInt8
  /-- `double_sha256`. -/
  doubleSha256 : List UInt8 → List UInt8
  /-- `SighashCache::legacy_signature_hash` with `SIGHASH_ALL`. -/
  legacySignatureHash : Transaction → ℕ → Script → Except String (List UInt8)
  /-- `SighashCache::p2wpkh_signature_hash` with `SIGHASH_ALL`. -/
  p2wpkhSignatureHash : Transaction → ℕ → Script → ℕ → Except String (List UInt8)
  /-- `sign_transparent`: the Zcash transaction, in its own format. -/
  signTransparent : SpendPlan → ℕ → List UInt8 → Except SignerError String
  publicKey_length : ∀ key publicKeyBytes, publicKey key = some publicKeyBytes →
    publicKeyBytes.length = 33

variable (lib : ScriptLib) (signer : SigningLib)

/-- `build_unsigned_transaction`. -/
def buildUnsignedTransaction (plan : SpendPlan) : Transaction where
  version := 2
  lockTime := 0
  input := plan.inputs.map fun input => ⟨input.previousOutput, [], input.sequence, []⟩
  output := plan.outputs

/-- `der_signature`. -/
def derSignature (secretKey digest : List UInt8) (sighashByte : UInt8) : List UInt8 :=
  signer.signEcdsa secretKey digest ++ [sighashByte]

/-- `signature_push_bytes`: a script push is shorter than `2^32` bytes. -/
def signaturePushBytes (signature : List UInt8) : Except SignerError (List UInt8) :=
  if signature.length < 2 ^ 32 then .ok signature
  else .error (.signingError "invalid Bitcoin script push")

/-- `Builder::new().push_slice(signature).push_key(public_key)`. -/
def unlockingScriptSig (signature publicKey : List UInt8) : Script :=
  lib.pushSlice signature ++ lib.pushSlice publicKey

/-- The loop body of `sign_standard`: the script and the witness that unlock one input. -/
def signInput (transaction : Transaction) (secretKey publicKey : List UInt8)
    (entry : PlanInput × ℕ) : Except SignerError (Script × List (List UInt8)) :=
  let (input, index) := entry
  match input.unlockingScript with
  | .p2pkh => do
    let sighash ← (signer.legacySignatureHash transaction index input.scriptPubkey).mapError
      .signingError
    let signature ← signaturePushBytes (derSignature signer secretKey sighash 0x01)
    .ok (unlockingScriptSig lib signature publicKey, [])
  | .p2wpkh => do
    let sighash ← (signer.p2wpkhSignatureHash transaction index input.scriptPubkey
      input.value).mapError .signingError
    .ok ([], [derSignature signer secretKey sighash 0x01, publicKey])

/-- `sign_standard`. -/
def signStandard (plan : SpendPlan) (secretKey publicKey : List UInt8) :
    Except SignerError Transaction := do
  let transaction := buildUnsignedTransaction plan
  let signedInputs ← tryMap (signInput lib signer transaction secretKey publicKey)
    plan.inputs.zipIdx
  .ok { transaction with
    input := transaction.input.zipWith
      (fun input (scriptSig, witness) => { input with scriptSig, witness }) signedInputs }

/-- `SighashComponents`. -/
structure SighashComponents where
  hashPrevouts : List UInt8
  hashSequence : List UInt8
  hashOutputs : List UInt8

/-- `SighashComponents::new`. -/
def SighashComponents.new (transaction : Transaction) (plan : SpendPlan) :
    SighashComponents where
  hashPrevouts := signer.doubleSha256 (plan.inputs.flatMap fun input =>
    input.previousOutput.serialize)
  hashSequence := signer.doubleSha256 (plan.inputs.flatMap fun input =>
    leBytes 4 input.sequence)
  hashOutputs := signer.doubleSha256 (transaction.output.flatMap PlanOutput.serialize)

/-- `signature_hash` of Bitcoin Cash. -/
def cashSignatureHash (transaction : Transaction) (components : SighashComponents)
    (input : PlanInput) : List UInt8 :=
  signer.doubleSha256 (leBytes 4 transaction.version ++ components.hashPrevouts ++
    components.hashSequence ++ input.previousOutput.serialize ++
    encodeBytes input.scriptPubkey ++ leBytes 8 input.value ++
    leBytes 4 input.sequence ++ components.hashOutputs ++
    leBytes 4 transaction.lockTime ++ leBytes 4 0x41)

/-- The loop body of Bitcoin Cash's `sign_plan`. The signature hash reads the version and the
lock time of the transaction, which the loop does not change. -/
def signCashInput (transaction : Transaction) (components : SighashComponents)
    (secretKey publicKey : List UInt8) (input : PlanInput) : Except SignerError Script := do
  let sighash := cashSignatureHash signer transaction components input
  let signature ← signaturePushBytes (derSignature signer secretKey sighash 0x41)
  .ok (unlockingScriptSig lib signature publicKey)

/-- `bitcoin_cash::sign_plan`. -/
def signBitcoinCash (plan : SpendPlan) (secretKey publicKey : List UInt8) :
    Except SignerError Transaction := do
  let transaction := buildUnsignedTransaction plan
  let components := SighashComponents.new signer transaction plan
  let scripts ← tryMap (signCashInput lib signer transaction components secretKey publicKey)
    plan.inputs
  .ok { transaction with
    input := transaction.input.zipWith (fun input scriptSig => { input with scriptSig }) scripts }

/-- `validate_chain_input_types`. -/
def validateChainInputTypes (chain : BitcoinChain) (plan : SpendPlan) :
    Except SignerError Unit :=
  match chain with
  | .bitcoin | .litecoin | .doge => .ok ()
  | .bitcoinCash | .zcash =>
    if ∀ input ∈ plan.inputs, input.unlockingScript = .p2pkh then .ok ()
    else .error (.invalidInput s!"{chain.name} UTXO address type is unsupported")

/-- `script_for_public_key_hash`. -/
def scriptForPublicKeyHash (unlockingScript : UnlockingScript) (hash : List UInt8) : Script :=
  match unlockingScript with
  | .p2pkh => p2pkhScript lib hash
  | .p2wpkh => witnessV0Script lib hash

/-- `validate_public_key`. -/
def validatePublicKey (chain : BitcoinChain) (plan : SpendPlan) (publicKey : List UInt8) :
    Except SignerError Unit :=
  let keyHash := signer.hash160 publicKey
  if ∀ input ∈ plan.inputs,
      scriptForPublicKeyHash lib input.unlockingScript keyHash = input.scriptPubkey then .ok ()
  else .error (.invalidInput s!"{chain.name} private key does not match sender address")

/-- What `sign_plan` checks before it signs; the compressed public key of the sender. -/
def validatePlan (chain : BitcoinChain) (plan : SpendPlan) (privateKey : List UInt8) :
    Except SignerError (List UInt8) := do
  let publicKey ← okOr (signer.publicKey privateKey)
    (SignerError.invalidInput s!"invalid {chain.name} private key")
  validateChainInputTypes chain plan
  validatePublicKey lib signer chain plan publicKey
  validatePlanAmounts chain plan
  .ok publicKey

/-- The signed transaction of `sign_plan`, on the chains that share Bitcoin's format. -/
def signTransaction (chain : BitcoinChain) (plan : SpendPlan) (privateKey : List UInt8) :
    Except SignerError Transaction := do
  let publicKey ← validatePlan lib signer chain plan privateKey
  match chain with
  | .bitcoinCash => signBitcoinCash lib signer plan privateKey publicKey
  | .bitcoin | .litecoin | .doge | .zcash => signStandard lib signer plan privateKey publicKey

/-- `sign_plan`: the bytes of the signed transaction in hex; Zcash has its own format. -/
def signPlan (chain : BitcoinChain) (plan : SpendPlan) (privateKey : List UInt8)
    (zcashBranchId : Option ℕ) : Except SignerError String :=
  match chain with
  | .zcash => do
    let _ ← validatePlan lib signer chain plan privateKey
    let branchId ← okOr zcashBranchId (SignerError.invalidInput "missing Zcash branch id")
    signer.signTransparent plan branchId privateKey
  | .bitcoin | .bitcoinCash | .litecoin | .doge => do
    let transaction ← signTransaction lib signer chain plan privateKey
    .ok (Keystore.encodeHex transaction.serialize)

/-! ## What a signed transaction looks like -/

/-- `txin` spends the outpoint of `input` and carries a signature and the public key where the
type of the input asks for them: in the script of a P2PKH input, in the witness of a P2WPKH
input. -/
structure Unlocked (privateKey publicKey : List UInt8) (input : PlanInput) (txin : TxIn) :
    Prop where
  previousOutput_eq : txin.previousOutput = input.previousOutput
  sequence_eq : txin.sequence = input.sequence
  unlocked : ∃ digest sighashByte,
    let signature := derSignature signer privateKey digest sighashByte
    match input.unlockingScript with
    | .p2pkh => txin.scriptSig = unlockingScriptSig lib signature publicKey ∧ txin.witness = []
    | .p2wpkh => txin.scriptSig = [] ∧ txin.witness = [signature, publicKey]

/-- A push that is made is a push of the signature. -/
lemma signaturePushBytes_eq_ok {signature pushed : List UInt8}
    (h : signaturePushBytes signature = .ok pushed) : pushed = signature := by
  unfold signaturePushBytes at h
  split_ifs at h
  exact (Except.ok.inj h).symm

/-- What `sign_standard` finds for an input unlocks it. -/
lemma signInput_unlocked {transaction : Transaction} {privateKey publicKey : List UInt8}
    {input : PlanInput} {index : ℕ} {signed : Script × List (List UInt8)}
    (h : signInput lib signer transaction privateKey publicKey (input, index) = .ok signed) :
    Unlocked lib signer privateKey publicKey input
      ⟨input.previousOutput, signed.1, input.sequence, signed.2⟩ := by
  refine ⟨rfl, rfl, ?_⟩
  unfold signInput at h
  dsimp only at h
  split at h
  · simp only [bind_eq_ok_iff] at h
    obtain ⟨digest, -, signature, hsignature, h⟩ := h
    obtain rfl := Except.ok.inj h
    obtain rfl := signaturePushBytes_eq_ok hsignature
    refine ⟨digest, 0x01, ?_⟩
    simp only [and_self]
  · simp only [bind_eq_ok_iff] at h
    obtain ⟨digest, -, h⟩ := h
    obtain rfl := Except.ok.inj h
    refine ⟨digest, 0x01, ?_⟩
    simp only [and_self]

/-- The signed inputs of `sign_standard` unlock the plan's inputs, in order. -/
theorem signInputs_unlocked {transaction : Transaction} {privateKey publicKey : List UInt8}
    {inputs : List PlanInput} {start : ℕ} {signed : List (Script × List (List UInt8))}
    (h : List.Forall₂ (fun entry s =>
      signInput lib signer transaction privateKey publicKey entry = .ok s)
      (inputs.zipIdx start) signed) :
    List.Forall₂ (Unlocked lib signer privateKey publicKey) inputs
      ((inputs.map fun input => (⟨input.previousOutput, [], input.sequence, []⟩ : TxIn)).zipWith
        (fun input (scriptSig, witness) => { input with scriptSig, witness }) signed) := by
  induction inputs generalizing start signed with
  | nil => simp
  | cons input rest ih =>
    rw [List.zipIdx_cons] at h
    obtain ⟨s, signed', hs, hrest, rfl⟩ := List.forall₂_cons_left_iff.mp h
    simp only [List.map_cons, List.zipWith_cons_cons]
    exact .cons (signInput_unlocked lib signer hs) (ih hrest)

/-- What Bitcoin Cash's `sign_plan` finds for an input of its only type unlocks it. -/
theorem signCashInputs_unlocked {transaction : Transaction} {components : SighashComponents}
    {privateKey publicKey : List UInt8} {inputs : List PlanInput} {scripts : List Script}
    (hkind : ∀ input ∈ inputs, input.unlockingScript = .p2pkh)
    (h : List.Forall₂ (fun input s =>
      signCashInput lib signer transaction components privateKey publicKey input = .ok s)
      inputs scripts) :
    List.Forall₂ (Unlocked lib signer privateKey publicKey) inputs
      ((inputs.map fun input => (⟨input.previousOutput, [], input.sequence, []⟩ : TxIn)).zipWith
        (fun input scriptSig => { input with scriptSig }) scripts) := by
  induction h with
  | nil => simp
  | @cons input script rest scripts hs hrest ih =>
    simp only [List.map_cons, List.zipWith_cons_cons]
    refine .cons ?_ (ih fun i hi => hkind i (List.mem_cons_of_mem _ hi))
    simp only [signCashInput, bind_eq_ok_iff] at hs
    obtain ⟨signature, hsignature, hs⟩ := hs
    obtain rfl := Except.ok.inj hs
    obtain rfl := signaturePushBytes_eq_ok hsignature
    refine ⟨rfl, rfl, cashSignatureHash signer transaction components input, 0x41, ?_⟩
    simp only [hkind input List.mem_cons_self, and_self]

/-- **What a signed transaction looks like**: it has the plan's outputs, and its inputs unlock
the plan's inputs, in order, with one compressed public key.

**Proof sketch.** Take the checks apart. Each chain's loop then yields one signed input per
input of the plan (`signInputs_unlocked`, `signCashInputs_unlocked`); on Bitcoin Cash the check
of the input types leaves P2PKH only. -/
theorem signTransaction_signs {chain : BitcoinChain} {plan : SpendPlan}
    {privateKey : List UInt8} {tx : Transaction}
    (h : signTransaction lib signer chain plan privateKey = .ok tx) :
    tx.output = plan.outputs ∧ ∃ publicKey, publicKey.length = 33 ∧
      List.Forall₂ (Unlocked lib signer privateKey publicKey) plan.inputs tx.input := by
  simp only [signTransaction, validatePlan, bind_eq_ok_iff, okOr_eq_ok_iff] at h
  obtain ⟨publicKey, ⟨publicKey', hkey, _, htypes, _, -, _, -, heq⟩, h⟩ := h
  obtain rfl := Except.ok.inj heq
  have hlen := signer.publicKey_length _ _ hkey
  have hstandard : signStandard lib signer plan privateKey publicKey' = .ok tx →
      tx.output = plan.outputs ∧ ∃ publicKey, publicKey.length = 33 ∧
        List.Forall₂ (Unlocked lib signer privateKey publicKey) plan.inputs tx.input := by
    intro h
    simp only [signStandard, bind_eq_ok_iff, tryMap_eq_ok_iff] at h
    obtain ⟨signed, hsigned, h⟩ := h
    obtain rfl := Except.ok.inj h
    exact ⟨rfl, publicKey', hlen, signInputs_unlocked lib signer hsigned⟩
  cases chain with
  | bitcoinCash =>
    simp only [signBitcoinCash, bind_eq_ok_iff, tryMap_eq_ok_iff] at h
    obtain ⟨scripts, hscripts, h⟩ := h
    obtain rfl := Except.ok.inj h
    simp only [validateChainInputTypes] at htypes
    split_ifs at htypes with hkind
    exact ⟨rfl, publicKey', hlen, signCashInputs_unlocked lib signer hkind hscripts⟩
  | bitcoin | litecoin | doge | zcash => exact hstandard h

end GemCore.Bitcoin

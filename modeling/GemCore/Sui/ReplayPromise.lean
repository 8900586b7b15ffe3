import GemCore.Sui.Prepare

/-!
# What a replay promises

A transaction of JSON that is replayed is the one that was sent. It is not rejected if it is well
formed, its shared objects are declared mutable where a command changes or takes them, and no object it
uses pays for the gas. The last three fail: the only result of a `SplitCoins` with one amount is not
found under the number of the command, parameters that are taken by value do not make an object mutable,
and a payment that is named in the JSON is not compared with the inputs.

## Main definitions

* `WellFormed` — the transactions that are well formed.
* `TakenMutably` — a command takes an input by mutable reference or by value.
* `Promised` — what a replay promises.
* `Fits` — the transactions for which all of it holds.

## Main results

* `promised_iff` — when a replay keeps its promises.
-/

namespace GemCore.Sui

open Lib

/-! ## Well formed transactions -/

/-- How many results a command has; a function has as many as its declaration says. -/
def TransactionCommand.resultCount (returns : MoveCallCommand → UInt16) : TransactionCommand → ℕ
  | moveCall call => (returns call).toNat
  | splitCoins _ amounts => amounts.length
  | makeMoveVec _ _ | publish _ | upgrade _ => 1
  | transferObjects _ _ | mergeCoins _ _ => 0

/-- **An argument that is well formed** behind these commands: it names an input, the only result of an
earlier command or one of its results. -/
def WellFormedArgument (returns : MoveCallCommand → UInt16) (inputs : List TransactionInput)
    (done : List TransactionCommand) : TransactionArgument → Prop
  | .gasCoin gasCoin => gasCoin = true
  | .input input => input < inputs.length
  | .result result => ∃ command, done[result]? = some command ∧ command.resultCount returns = 1
  | .nestedResult result index =>
    ∃ command, done[result]? = some command ∧ index < command.resultCount returns

section Promise

variable (texts : TextLib) (rpc : Rpc) (chain : String → RpcObject)
  (keyOrder : HashSetOrder MoveFunctionKey) (idOrder : HashSetOrder String) (lib : BuilderLib)
  (returns : MoveCallCommand → UInt16) (transaction : TransactionBuilderJson)

/-- **The transactions that are well formed**: inputs and commands of the supported kinds with texts
that can be read, and arguments that are well formed. -/
structure WellFormed : Prop where
  inputs : ∀ input ∈ transaction.inputs, Readable texts chain input
  commands : ∀ before command after, transaction.commands = before ++ command :: after →
    ∃ read, readCommand texts command = some read ∧
      ∀ argument ∈ read.args, WellFormedArgument returns transaction.inputs before argument

/-- A command takes this input by mutable reference or by value. -/
def TransactionCommand.TakesMutably (index : ℕ) : TransactionCommand → Prop
  | moveCall call => ∃ function parameter, rpc.getFunction call.key = .ok function ∧
      (TransactionArgument.input index, parameter) ∈ call.arguments.zip function.parameters ∧
        (parameter.reference = some 2 ∨ parameter.reference = none)
  | transferObjects objects _ => TransactionArgument.input index ∈ objects
  | splitCoins coin _ => coin = .input index
  | mergeCoins destination sources =>
    destination = .input index ∨ TransactionArgument.input index ∈ sources
  | makeMoveVec _ elements => TransactionArgument.input index ∈ elements
  | publish _ | upgrade _ => False

/-- **Some command takes this input by mutable reference or by value**. -/
def TakenMutably (index : ℕ) : Prop :=
  ∃ command ∈ transaction.commands, command.TakesMutably rpc index

/-- The object of an input. -/
def IsInputObject (inputs : List TransactionInput) (object : Address) : Prop :=
  ∃ input ∈ inputs, ∃ objectId, input.objectId? = some objectId ∧ texts.address objectId = .ok object

/-- **What a replay promises**. -/
structure Promised (gasData : GasData) (sender : String) : Prop where
  /-- What is built is what the JSON says. -/
  faithful : ∀ replay outputs txb,
    prepareReplay texts rpc keyOrder idOrder transaction = .ok replay →
      replay.replay texts lib = .ok (outputs, txb) →
        Faithful texts chain transaction.inputs transaction.commands (lib.commands txb)
  /-- What is well formed is not rejected. -/
  accepted : Answered texts rpc chain idOrder transaction →
    WellFormed texts chain returns transaction →
      ∃ replay result, prepareReplay texts rpc keyOrder idOrder transaction = .ok replay ∧
        replay.replay texts lib = .ok result
  /-- A shared object that a command changes or takes is declared mutable. -/
  mutable : ∀ replay, prepareReplay texts rpc keyOrder idOrder transaction = .ok replay →
    ∀ (index : ℕ) objectId object version mutable,
      transaction.inputs[index]? = some (.unresolvedObject objectId) →
        AList.lookup index replay.objectInputs = some (.shared object version mutable) →
          TakenMutably rpc transaction index → mutable = true
  /-- No object of an input pays for the gas. -/
  gas : ∀ replay objects, prepareReplay texts rpc keyOrder idOrder transaction = .ok replay →
    gasObjects texts rpc replay gasData sender = .ok objects →
      ∀ object ∈ objects, ¬IsInputObject texts transaction.inputs object.objectId

/-- The results of a `SplitCoins` with one amount are asked for as a whole. -/
def UsesOnlySplit : Prop :=
  ∃ before command after read result coin amount,
    transaction.commands = before ++ command :: after ∧ readCommand texts command = some read ∧
      TransactionArgument.result result ∈ read.args ∧
        before[result]? = some (.splitCoins coin [amount])

/-- **The transactions for which all of it holds**, as far as the node has what they name: none that is
well formed asks for the results of a `SplitCoins` with one amount as a whole, each shared object that a
command changes or takes is taken by mutable reference by some function, and no payment that is named
is the object of an input. -/
structure Fits (gasData : GasData) : Prop where
  split : Answered texts rpc chain idOrder transaction →
    WellFormed texts chain returns transaction → ¬UsesOnlySplit texts transaction
  mutable : Answered texts rpc chain idOrder transaction →
    ∀ (index : ℕ) objectId object version,
      transaction.inputs[index]? = some (.unresolvedObject objectId) →
        fromRpcObject texts (chain objectId) = .ok ⟨object, .shared version⟩ →
          TakenMutably rpc transaction index →
            MutablyReferenced rpc transaction.commands index
  payment : Answered texts rpc chain idOrder transaction →
    ∀ payment objects, gasData.payment = some payment →
      tryMap (paymentObject texts) payment = .ok objects →
        ∀ object ∈ objects, ¬IsInputObject texts transaction.inputs object.objectId

end Promise

variable {texts : TextLib} {rpc : Rpc} {chain : String → RpcObject}
  {keyOrder : HashSetOrder MoveFunctionKey} {idOrder : HashSetOrder String} {lib : BuilderLib}
  {returns : MoveCallCommand → UInt16} {transaction : TransactionBuilderJson}

/-! ## What is rejected -/

/-- Arguments that are well formed are accepted, unless they ask for the results of a `SplitCoins` as a
whole. -/
theorem resolvable_of_wellFormedArgument {inputs : List TransactionInput}
    {done : List TransactionCommand} {argument : TransactionArgument}
    (hread : ∀ command ∈ done, ∃ read, readCommand texts command = some read)
    (hsplit : ∀ result coin amount, argument = .result result →
      done[result]? ≠ some (.splitCoins coin [amount]))
    (h : WellFormedArgument returns inputs done argument) : Resolvable inputs done argument := by
  cases argument with
  | gasCoin gasCoin => exact h
  | input input => exact h
  | result result =>
    obtain ⟨command, hcommand, hcount⟩ := h
    refine ⟨command, hcommand, ?_⟩
    cases command with
    | moveCall call => trivial
    | makeMoveVec type elements => trivial
    | splitCoins coin amounts =>
      obtain ⟨amount, rfl⟩ := List.length_eq_one_iff.mp hcount
      exact absurd hcommand (hsplit result coin amount rfl)
    | transferObjects objects address => cases hcount
    | mergeCoins destination sources => cases hcount
    | publish publish | upgrade upgrade =>
      obtain ⟨read, hread⟩ := hread _ (List.mem_of_getElem? hcommand)
      cases hread
  | nestedResult result index =>
    obtain ⟨command, hcommand, hcount⟩ := h
    refine ⟨command, hcommand, ?_⟩
    cases command with
    | moveCall call =>
      have hlt : (returns call).toNat < 2 ^ 16 := (returns call).toNat_lt
      show index < (index + 1) % 2 ^ 64
      have hindex : index < (returns call).toNat := hcount
      omega
    | makeMoveVec type elements =>
      show index < (index + 1) % 2 ^ 64
      have hindex : index < 1 := hcount
      omega
    | splitCoins coin amounts => exact hcount
    | transferObjects objects address => exact absurd hcount (Nat.not_lt_zero index)
    | mergeCoins destination sources => exact absurd hcount (Nat.not_lt_zero index)
    | publish publish | upgrade upgrade =>
      obtain ⟨read, hread⟩ := hread _ (List.mem_of_getElem? hcommand)
      cases hread

/-- **A transaction that is well formed is accepted** exactly if no result of a `SplitCoins` with one
amount is asked for as a whole. -/
theorem allAcceptable_iff (h : WellFormed texts chain returns transaction) :
    AllAcceptable texts transaction.inputs transaction.commands ↔
      ¬UsesOnlySplit texts transaction := by
  constructor
  · rintro hall ⟨before, command, after, read, result, coin, amount, hsplit, hread, hmem, hget⟩
    obtain ⟨read', hread', hresolvable⟩ := hall before command after hsplit
    obtain rfl : read = read' := Option.some.inj (hread.symm.trans hread')
    obtain ⟨command', hcommand', hsingle⟩ := hresolvable _ hmem
    obtain rfl := Option.some.inj (hget.symm.trans hcommand')
    exact hsingle
  · intro huses before command after hsplit
    obtain ⟨read, hread, hwellFormed⟩ := h.commands before command after hsplit
    refine ⟨read, hread, fun argument hargument => ?_⟩
    have hbefore : ∀ earlier ∈ before, ∃ read, readCommand texts earlier = some read := by
      intro earlier hearlier
      obtain ⟨left, right, rfl⟩ := List.append_of_mem hearlier
      obtain ⟨read', hread', -⟩ := h.commands left earlier (right ++ command :: after)
        (by rw [hsplit, List.append_assoc, List.cons_append])
      exact ⟨read', hread'⟩
    refine resolvable_of_wellFormedArgument hbefore ?_ (hwellFormed argument hargument)
    rintro result coin amount rfl hget
    exact huses ⟨before, command, after, read, result, coin, amount, hsplit, hread, hargument, hget⟩

/-! ## Shared objects -/

/-- The shared objects are declared as the functions take them. -/
lemma lookup_shared_iff (horder : rpc.InOrder texts chain) {replay : TransactionJsonReplay}
    (h : prepareReplay texts rpc keyOrder idOrder transaction = .ok replay) {index : ℕ}
    {objectId : String} (hinput : transaction.inputs[index]? = some (.unresolvedObject objectId))
    {object : Address} {version : UInt64} {mutable : Bool} :
    AList.lookup index replay.objectInputs = some (.shared object version mutable) ↔
      fromRpcObject texts (chain objectId) = .ok ⟨object, .shared version⟩ ∧
        (mutable = true ↔ MutablyReferenced rpc transaction.commands index) := by
  obtain ⟨-, mutability, hmutability, hobjects⟩ := prepareReplay_spec horder h
  obtain ⟨⟨object', owner⟩, hobject, hlookup⟩ := hobjects index objectId hinput
  rw [hlookup, hobject, ← hmutability]
  cases owner with
  | shared version' =>
    constructor
    · intro heq
      obtain ⟨rfl, rfl, rfl⟩ := ObjectInput.shared.inj (Option.some.inj heq)
      exact ⟨rfl, decide_eq_true_iff⟩
    · rintro ⟨heq, hmutable⟩
      obtain ⟨rfl, howner⟩ := ResolvedObjectInput.mk.inj (Except.ok.inj heq)
      obtain rfl := ResolvedObjectOwner.shared.inj howner
      have hdecide : decide (index ∈ mutability) = mutable := by
        rw [Bool.eq_iff_iff, decide_eq_true_iff, hmutable]
      rw [← hdecide]
      rfl
  | owned version' digest | immutable version' digest =>
    constructor
    · intro heq
      cases heq
    · rintro ⟨heq, -⟩
      cases heq

/-! ## Paying for the gas -/

/-- The objects of the inputs, as they are collected. -/
lemma mem_inputObjectIds {inputs : List TransactionInput} {ids : List Address}
    (h : inputObjectIds texts inputs = .ok ids) {object : Address}
    (hobject : IsInputObject texts inputs object) : object ∈ ids := by
  obtain ⟨input, hinput, objectId, hid, haddress⟩ := hobject
  have hmem : objectId ∈ inputs.filterMap TransactionInput.objectId? :=
    List.mem_filterMap.mpr ⟨input, hinput, hid⟩
  obtain ⟨index, hindex⟩ := List.mem_iff_getElem?.mp hmem
  obtain ⟨address, hget, hparse⟩ :=
    exists_getElem?_of_forall₂ (tryMap_eq_ok_iff.mp h).flip hindex
  rw [parseAddress, mapError_eq_ok_iff, haddress] at hparse
  obtain rfl := Except.ok.inj hparse
  exact List.mem_of_getElem? hget

/-- No object of an input is chosen among the coins of the sender. -/
lemma not_isInputObject_of_chosen {inputs : List TransactionInput} {sender : String}
    {objects : List ObjectInput} (h : chosenGasObjects texts rpc inputs sender = .ok objects)
    {object : ObjectInput} (hobject : object ∈ objects) :
    ¬IsInputObject texts inputs object.objectId := by
  obtain ⟨coins, -, h⟩ := bind_eq_ok_iff.mp h
  obtain ⟨ids, hids, h⟩ := bind_eq_ok_iff.mp h
  obtain ⟨-, h⟩ := guard_eq_ok_iff.mp h
  obtain rfl := Except.ok.inj h
  obtain ⟨coin, hcoin, rfl⟩ := List.mem_map.mp hobject
  intro hinput
  exact of_decide_eq_true (List.mem_filter.mp hcoin).2 (mem_inputObjectIds hids hinput)

/-! ## The promise -/

/-- **When a replay keeps its promises**: what is built is always what the JSON says, and the rest holds
exactly for the transactions that fit.

**Proof sketch.** The arguments are followed through the loop over the commands by the invariant
`Tracks`, which also says what the loop accepts. An input is declared mutable if a function takes it by
mutable reference, so it is declared as it should be if there is such a function wherever one is needed.
Coins that are chosen are not among the inputs, while a payment that is named is taken as it is. -/
theorem promised_iff (hlib : lib.Records) (horder : rpc.InOrder texts chain) (gasData : GasData)
    (sender : String) :
    Promised texts rpc chain keyOrder idOrder lib returns transaction gasData sender ↔
      Fits texts rpc chain idOrder returns transaction gasData := by
  constructor
  · intro h
    refine ⟨?_, ?_, ?_⟩
    · intro hanswered hwellFormed
      obtain ⟨replay, result, hprepare, hreplay⟩ := h.accepted hanswered hwellFormed
      have hresolves := resolves_of_prepareReplay horder hprepare
      obtain ⟨rfl, -⟩ := prepareReplay_spec horder hprepare
      exact (allAcceptable_iff hwellFormed).mp ((replay_ok_iff hlib hresolves).mp ⟨result, hreplay⟩).2
    · intro hanswered index objectId object version hinput hobject htaken
      obtain ⟨replay, hprepare⟩ :
          ∃ replay, prepareReplay texts rpc keyOrder idOrder transaction = .ok replay :=
        (prepareReplay_ok_iff horder).mpr hanswered
      by_contra hnot
      have hlookup : AList.lookup index replay.objectInputs = some (.shared object version false) :=
        (lookup_shared_iff horder hprepare hinput).mpr
          ⟨hobject, iff_of_false Bool.false_ne_true hnot⟩
      cases h.mutable replay hprepare index objectId object version false hinput hlookup htaken
    · intro hanswered payment objects hpayment hobjects
      cases payment with
      | nil =>
        obtain rfl := Except.ok.inj hobjects
        intro object hobject
        cases hobject
      | cons first payment =>
        obtain ⟨replay, hprepare⟩ :
            ∃ replay, prepareReplay texts rpc keyOrder idOrder transaction = .ok replay :=
          (prepareReplay_ok_iff horder).mpr hanswered
        refine h.gas replay objects hprepare ?_
        rw [gasObjects, hpayment]
        exact hobjects
  · intro h
    refine ⟨?_, ?_, ?_, ?_⟩
    · intro replay outputs txb hprepare hreplay
      have hresolves := resolves_of_prepareReplay horder hprepare
      obtain ⟨rfl, -⟩ := prepareReplay_spec horder hprepare
      exact faithful_of_replay hlib hresolves hreplay
    · intro hanswered hwellFormed
      obtain ⟨replay, hprepare⟩ :
          ∃ replay, prepareReplay texts rpc keyOrder idOrder transaction = .ok replay :=
        (prepareReplay_ok_iff horder).mpr hanswered
      have hresolves := resolves_of_prepareReplay horder hprepare
      obtain ⟨rfl, -⟩ := prepareReplay_spec horder hprepare
      obtain ⟨result, hreplay⟩ := (replay_ok_iff hlib hresolves).mpr
        ⟨hwellFormed.inputs, (allAcceptable_iff hwellFormed).mpr (h.split hanswered hwellFormed)⟩
      exact ⟨replay, result, hprepare, hreplay⟩
    · intro replay hprepare index objectId object version mutable hinput hlookup htaken
      have hanswered := (prepareReplay_ok_iff horder).mp ⟨replay, hprepare⟩
      obtain ⟨hobject, hmutable⟩ := (lookup_shared_iff horder hprepare hinput).mp hlookup
      exact hmutable.mpr (h.mutable hanswered index objectId object version hinput hobject htaken)
    · intro replay objects hprepare hgas
      have hanswered := (prepareReplay_ok_iff horder).mp ⟨replay, hprepare⟩
      obtain ⟨rfl, -⟩ := prepareReplay_spec horder hprepare
      unfold gasObjects at hgas
      split at hgas
      · next first payment hpayment =>
        exact h.payment hanswered _ objects hpayment hgas
      · exact fun object hobject => not_isInputObject_of_chosen hgas hobject
      · exact fun object hobject => not_isInputObject_of_chosen hgas hobject

/-! ## Two transfers -/

/-- The parsers on the texts of the transfers below. -/
def transferTexts : TextLib where
  address _ := .error "invalid address"
  digest _ := .error "invalid digest"
  typeTag _ := .error "invalid type"
  identifier _ := .ok ()
  decodeBase64 text :=
    if text = "6AMAAAAAAAA=" then .ok [232, 3, 0, 0, 0, 0, 0, 0]
    else if text = "AAAAAAAAAAAAAAAAAAAAAAAAAAAAAAAAAAAAAAAAAAA=" then .ok (List.replicate 32 0)
    else .error "invalid base64"
  addressText _ := ""

/-- A node without objects and functions. -/
def emptyRpc : Rpc where
  getFunction _ := .error "missing Sui function descriptor"
  getMultipleObjects objectIds := .ok (objectIds.map fun _ => ⟨none, none, none, none⟩)
  getGasCoins _ := .ok []

/-- The order of the first occurrences from behind. -/
def dedupOrder (α : Type) [DecidableEq α] : HashSetOrder α :=
  ⟨List.dedup, List.nodup_dedup, fun _ _ => List.mem_dedup⟩

/-- A transfer of 1000 that is split from the gas coin. -/
def splitTransfer (coin : TransactionArgument) : TransactionBuilderJson where
  inputs := [.pure "6AMAAAAAAAA=", .pure "AAAAAAAAAAAAAAAAAAAAAAAAAAAAAAAAAAAAAAAAAAA="]
  commands := [.splitCoins (.gasCoin true) [.input 0], .transferObjects [coin] (.input 1)]

lemma inOrder_emptyRpc : emptyRpc.InOrder transferTexts fun _ => ⟨none, none, none, none⟩ where
  objects _ _ h := (Except.ok.inj h).symm
  objectId _ _ _ h := nomatch h

/-- The places in a list of two. -/
lemma split_pair {α : Type} {a b command : α} {before after : List α}
    (h : [a, b] = before ++ command :: after) :
    (before = [] ∧ command = a) ∨ before = [a] ∧ command = b := by
  cases before with
  | nil => exact .inl ⟨rfl, (List.cons.inj h).1.symm⟩
  | cons first before =>
    obtain ⟨rfl, htail⟩ := List.cons.inj h
    cases before with
    | nil => exact .inr ⟨rfl, (List.cons.inj htail).1.symm⟩
    | cons second before =>
      exact absurd (List.cons.inj htail).2.symm
        (List.append_ne_nil_of_right_ne_nil _ (List.cons_ne_nil _ _))

/-- **The coin that was split off, as a whole, is rejected.** -/
theorem not_promised_result : ¬Promised transferTexts emptyRpc (fun _ => ⟨none, none, none, none⟩)
    (dedupOrder MoveFunctionKey) (dedupOrder String) recorder (fun _ => 0)
    (splitTransfer (.result 0)) ⟨none⟩ "0x2" := by
  intro h
  have hanswered : Answered transferTexts emptyRpc (fun _ => ⟨none, none, none, none⟩)
      (dedupOrder String) (splitTransfer (.result 0)) := by
    refine ⟨fun call hcall => ?_, fun hne => absurd rfl hne, fun objectId hmem => ?_⟩
    · simp [splitTransfer] at hcall
    · simp [splitTransfer] at hmem
  have hwellFormed : WellFormed transferTexts (fun _ => ⟨none, none, none, none⟩) (fun _ => 0)
      (splitTransfer (.result 0)) := by
    refine ⟨?_, fun before command after hsplit => ?_⟩
    · refine List.forall_mem_cons.mpr ⟨⟨.pure [232, 3, 0, 0, 0, 0, 0, 0], by decide +kernel⟩,
        List.forall_mem_singleton.mpr ⟨.pure (List.replicate 32 0), by decide +kernel⟩⟩
    · rcases split_pair hsplit with ⟨rfl, rfl⟩ | ⟨rfl, rfl⟩
      · refine ⟨_, rfl, List.forall_mem_cons.mpr ⟨rfl, List.forall_mem_singleton.mpr ?_⟩⟩
        exact Nat.zero_lt_two
      · refine ⟨_, rfl, List.forall_mem_cons.mpr ⟨⟨_, rfl, rfl⟩, List.forall_mem_singleton.mpr ?_⟩⟩
        exact Nat.one_lt_two
  obtain ⟨replay, result, hprepare, hreplay⟩ := h.accepted hanswered hwellFormed
  have hresolves := resolves_of_prepareReplay inOrder_emptyRpc hprepare
  obtain ⟨htransaction, -⟩ := prepareReplay_spec inOrder_emptyRpc hprepare
  rw [← htransaction] at hresolves
  obtain ⟨-, hall⟩ := (replay_ok_iff records_recorder hresolves).mp ⟨result, hreplay⟩
  rw [htransaction] at hall
  exact (allAcceptable_iff hwellFormed).mp hall ⟨[.splitCoins (.gasCoin true) [.input 0]],
    .transferObjects [.result 0] (.input 1), [], _, 0, .gasCoin true, .input 0, rfl, rfl,
    List.mem_cons_self, rfl⟩

/-- Asked for by its index, the coin is found. -/
theorem promised_nested : Promised transferTexts emptyRpc (fun _ => ⟨none, none, none, none⟩)
    (dedupOrder MoveFunctionKey) (dedupOrder String) recorder (fun _ => 0)
    (splitTransfer (.nestedResult 0 0)) ⟨none⟩ "0x2" := by
  refine (promised_iff records_recorder inOrder_emptyRpc ⟨none⟩ "0x2").mpr ⟨?_, ?_, ?_⟩
  · rintro - - ⟨before, command, after, read, result, coin, amount, hsplit, hread, hmem, -⟩
    rcases split_pair hsplit with ⟨rfl, rfl⟩ | ⟨rfl, rfl⟩
    all_goals
      obtain rfl := Option.some.inj hread
      simp [Command.args] at hmem
  · rintro - index objectId object version hinput -
    have hmem := List.mem_of_getElem? hinput
    simp [splitTransfer] at hmem
  · intro _ payment objects hpayment
    cases hpayment

end GemCore.Sui

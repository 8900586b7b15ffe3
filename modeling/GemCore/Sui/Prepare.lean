import GemCore.Sui.Replay

/-!
# Preparing a replay

What the node is asked for before a transaction is replayed, and what is made of its answers: the
objects of the inputs that are not resolved, each of them mutable if some function takes it by mutable
reference.

## Main definitions

* `Rpc.InOrder` — the node answers in the order of the requests.
* `Answered` — the node has what a transaction names.
* `MutablyReferenced` — a function takes this input by mutable reference.

## Main results

* `prepareReplay_spec` — the objects that are found.
* `prepareReplay_ok_iff` — a transaction is prepared if the node has what it names.
* `resolves_of_prepareReplay` — the objects are those of the inputs.
-/

namespace GemCore.Sui

open Lib

/-- **The node answers in the order of the requests**: it has an object under each id, and the objects
of several ids are answered one after the other. -/
structure Rpc.InOrder (texts : TextLib) (rpc : Rpc) (chain : String → RpcObject) : Prop where
  objects : ∀ objectIds objects, rpc.getMultipleObjects objectIds = .ok objects →
    objects = objectIds.map chain
  objectId : ∀ objectId text address, (chain objectId).objectId = some text →
    texts.address text = .ok address → texts.address objectId = .ok address

/-- **The node has what a transaction names**: the functions, and objects that can be inputs. -/
structure Answered (texts : TextLib) (rpc : Rpc) (chain : String → RpcObject)
    (idOrder : HashSetOrder String) (transaction : TransactionBuilderJson) : Prop where
  functions : ∀ call, TransactionCommand.moveCall call ∈ transaction.commands →
    ∃ function, rpc.getFunction call.key = .ok function
  objects : idOrder.iterate (transaction.inputs.filterMap TransactionInput.unresolved?) ≠ [] →
    ∃ objects, rpc.getMultipleObjects
      (idOrder.iterate (transaction.inputs.filterMap TransactionInput.unresolved?)) = .ok objects
  kinds : ∀ objectId, TransactionInput.unresolvedObject objectId ∈ transaction.inputs →
    ∃ object, fromRpcObject texts (chain objectId) = .ok object

/-- **A function takes this input by mutable reference**. -/
def MutablyReferenced (rpc : Rpc) (commands : List TransactionCommand) (index : ℕ) : Prop :=
  ∃ call function parameter, TransactionCommand.moveCall call ∈ commands ∧
    rpc.getFunction call.key = .ok function ∧
      (TransactionArgument.input index, parameter) ∈ call.arguments.zip function.parameters ∧
        parameter.reference = some 2

variable {texts : TextLib} {rpc : Rpc} {chain : String → RpcObject}
  {keyOrder : HashSetOrder MoveFunctionKey} {idOrder : HashSetOrder String}

/-! ## Functions -/

lemma mem_mutableInputs {arguments : List TransactionArgument} {function : FunctionDescriptor}
    {index : ℕ} : index ∈ mutableInputs arguments function ↔
      ∃ parameter, (TransactionArgument.input index, parameter) ∈ arguments.zip function.parameters ∧
        parameter.reference = some 2 := by
  rw [mutableInputs, List.mem_filterMap]
  constructor
  · rintro ⟨⟨argument, parameter⟩, hmem, hinput⟩
    obtain ⟨hzip, hmutable⟩ := List.mem_filter.mp hmem
    cases argument with
    | input input =>
      obtain rfl := Option.some.inj hinput
      exact ⟨parameter, hzip, eq_of_beq hmutable⟩
    | gasCoin gasCoin | result result | nestedResult command nested => cases hinput
  · rintro ⟨parameter, hzip, hreference⟩
    exact ⟨_, List.mem_filter.mpr ⟨hzip, beq_iff_eq.mpr hreference⟩, rfl⟩

lemma fetchFunction_eq_ok_iff {key key' : MoveFunctionKey} {function : FunctionDescriptor} :
    fetchFunction rpc key = .ok (key', function) ↔
      key = key' ∧ rpc.getFunction key = .ok function := by
  rw [fetchFunction, mapError_eq_ok_iff, map_eq_ok_iff]
  constructor
  · rintro ⟨answer, hanswer, hpair⟩
    obtain ⟨rfl, rfl⟩ := Prod.mk.inj hpair
    exact ⟨rfl, hanswer⟩
  · rintro ⟨rfl, hanswer⟩
    exact ⟨function, hanswer, rfl⟩

/-- The functions that are fetched are those of the node. -/
lemma getFunctions_spec {keys : List MoveFunctionKey}
    {cache : AssocMap MoveFunctionKey FunctionDescriptor} (h : getFunctions rpc keys = .ok cache)
    {key : MoveFunctionKey} (hkey : key ∈ keys) :
    ∃ function, rpc.getFunction key = .ok function ∧ AList.lookup key cache = some function := by
  obtain ⟨functions, hfunctions, h⟩ := bind_eq_ok_iff.mp h
  obtain rfl := Except.ok.inj h
  obtain ⟨key', -, function, hfound, hlookup⟩ :=
    AssocMap.exists_lookup_collect_of_tryMap hfunctions hkey fun _ _ hfound =>
      (fetchFunction_eq_ok_iff.mp hfound).1.symm
  obtain ⟨rfl, hanswer⟩ := fetchFunction_eq_ok_iff.mp hfound
  exact ⟨function, hanswer, hlookup⟩

/-- The functions are fetched if the node has them. -/
lemma exists_getFunctions {keys : List MoveFunctionKey}
    (h : ∀ key ∈ keys, ∃ function, rpc.getFunction key = .ok function) :
    ∃ cache, getFunctions rpc keys = .ok cache := by
  have hall : ∀ key ∈ keys, ∃ found, fetchFunction rpc key = .ok found := by
    intro key hkey
    obtain ⟨function, hfunction⟩ := h key hkey
    exact ⟨(key, function), fetchFunction_eq_ok_iff.mpr ⟨rfl, hfunction⟩⟩
  obtain ⟨functions, hfunctions⟩ := exists_tryMap_iff.mpr hall
  exact ⟨_, bind_eq_ok_iff.mpr ⟨functions, hfunctions, rfl⟩⟩

/-- The commands that are no move calls are passed over. -/
lemma mutableInputsOf_cons {cache : AssocMap MoveFunctionKey FunctionDescriptor}
    {command : TransactionCommand} {commands : List TransactionCommand}
    (h : ∀ call, command ≠ .moveCall call) :
    mutableInputsOf cache (command :: commands) = mutableInputsOf cache commands := by
  cases command with
  | moveCall call => exact absurd rfl (h call)
  | transferObjects objects address => rfl
  | splitCoins coin amounts => rfl
  | mergeCoins destination sources => rfl
  | makeMoveVec type elements => rfl
  | publish publish => rfl
  | upgrade upgrade => rfl

/-- The inputs that the loop finds. -/
lemma mutableInputsOf_spec {cache : AssocMap MoveFunctionKey FunctionDescriptor}
    {commands : List TransactionCommand}
    (hcache : ∀ call, TransactionCommand.moveCall call ∈ commands → ∃ function,
      rpc.getFunction call.key = .ok function ∧ AList.lookup call.key cache = some function) :
    ∃ inputs, mutableInputsOf cache commands = .ok inputs ∧
      ∀ index, index ∈ inputs ↔ MutablyReferenced rpc commands index := by
  induction commands with
  | nil =>
    refine ⟨[], rfl, fun index => ?_⟩
    constructor
    · intro h
      cases h
    · rintro ⟨call, function, parameter, hcall, -⟩
      cases hcall
  | cons command commands ih =>
    obtain ⟨inputs, hinputs, hmem⟩ := ih fun call hcall => hcache call (List.mem_cons_of_mem _ hcall)
    by_cases hcommand : ∃ call, command = .moveCall call
    · obtain ⟨call, rfl⟩ := hcommand
      obtain ⟨function, hfunction, hlookup⟩ := hcache call List.mem_cons_self
      refine ⟨mutableInputs call.arguments function ++ inputs, ?_, fun index => ?_⟩
      · rw [mutableInputsOf, hlookup, okOr_some, ok_bind, hinputs, ok_bind]
      · rw [List.mem_append, mem_mutableInputs, hmem]
        constructor
        · rintro (⟨parameter, hzip, hreference⟩ |
            ⟨call', function', parameter, hcall', hrest⟩)
          · exact ⟨call, function, parameter, List.mem_cons_self, hfunction, hzip, hreference⟩
          · exact ⟨call', function', parameter, List.mem_cons_of_mem _ hcall', hrest⟩
        · rintro ⟨call', function', parameter, hcall', hfunction', hzip, hreference⟩
          rcases List.mem_cons.mp hcall' with heq | htail
          · obtain rfl := TransactionCommand.moveCall.inj heq
            obtain rfl := Except.ok.inj (hfunction.symm.trans hfunction')
            exact .inl ⟨parameter, hzip, hreference⟩
          · exact .inr ⟨call', function', parameter, htail, hfunction', hzip, hreference⟩
    · have hno : ∀ call, command ≠ .moveCall call := fun call h => hcommand ⟨call, h⟩
      refine ⟨inputs, (mutableInputsOf_cons hno).trans hinputs, fun index => (hmem index).trans ?_⟩
      constructor
      · rintro ⟨call, function, parameter, hcall, hrest⟩
        exact ⟨call, function, parameter, List.mem_cons_of_mem _ hcall, hrest⟩
      · rintro ⟨call, function, parameter, hcall, hrest⟩
        rcases List.mem_cons.mp hcall with heq | htail
        · exact absurd heq.symm (hno call)
        · exact ⟨call, function, parameter, htail, hrest⟩

/-- The key of a move call is among those that are asked for. -/
lemma mem_keys {commands : List TransactionCommand} {key : MoveFunctionKey} :
    key ∈ keyOrder.iterate (commands.filterMap TransactionCommand.key?) ↔
      ∃ call, TransactionCommand.moveCall call ∈ commands ∧ call.key = key := by
  rw [keyOrder.mem_iterate, List.mem_filterMap]
  constructor
  · rintro ⟨command, hmem, hkey⟩
    cases command with
    | moveCall call => exact ⟨call, hmem, Option.some.inj hkey⟩
    | transferObjects objects address | splitCoins coin amounts
    | mergeCoins destination sources | makeMoveVec type elements | publish publish
    | upgrade upgrade => cases hkey
  · rintro ⟨call, hmem, rfl⟩
    exact ⟨.moveCall call, hmem, rfl⟩

/-- **The inputs that are mutable** are those that a function takes by mutable reference. -/
theorem inputMutability_spec {commands : List TransactionCommand} {inputs : List ℕ}
    (h : inputMutability rpc keyOrder commands = .ok inputs) :
    (∀ call, TransactionCommand.moveCall call ∈ commands →
      ∃ function, rpc.getFunction call.key = .ok function) ∧
      ∀ index, index ∈ inputs ↔ MutablyReferenced rpc commands index := by
  obtain ⟨cache, hcache, h⟩ := bind_eq_ok_iff.mp h
  have hspec : ∀ call, TransactionCommand.moveCall call ∈ commands → ∃ function,
      rpc.getFunction call.key = .ok function ∧ AList.lookup call.key cache = some function :=
    fun call hcall => getFunctions_spec hcache (mem_keys.mpr ⟨call, hcall, rfl⟩)
  obtain ⟨inputs', hinputs, hmem⟩ := mutableInputsOf_spec hspec
  obtain rfl : inputs' = inputs := Except.ok.inj (hinputs.symm.trans h)
  refine ⟨fun call hcall => ?_, hmem⟩
  obtain ⟨function, hfunction, -⟩ := hspec call hcall
  exact ⟨function, hfunction⟩

/-- The mutable inputs are found if the node has the functions. -/
lemma exists_inputMutability {commands : List TransactionCommand}
    (h : ∀ call, TransactionCommand.moveCall call ∈ commands →
      ∃ function, rpc.getFunction call.key = .ok function) :
    ∃ inputs, inputMutability rpc keyOrder commands = .ok inputs := by
  have hkeys : ∀ key ∈ keyOrder.iterate (commands.filterMap TransactionCommand.key?),
      ∃ function, rpc.getFunction key = .ok function := by
    intro key hkey
    obtain ⟨call, hcall, rfl⟩ := mem_keys.mp hkey
    exact h call hcall
  obtain ⟨cache, hcache⟩ := exists_getFunctions hkeys
  obtain ⟨inputs, hinputs, -⟩ := mutableInputsOf_spec fun call hcall =>
    getFunctions_spec hcache (mem_keys.mpr ⟨call, hcall, rfl⟩)
  exact ⟨inputs, bind_eq_ok_iff.mpr ⟨cache, hcache, hinputs⟩⟩

/-! ## Objects -/

lemma mem_unresolved {inputs : List TransactionInput} {objectId : String} :
    objectId ∈ idOrder.iterate (inputs.filterMap TransactionInput.unresolved?) ↔
      TransactionInput.unresolvedObject objectId ∈ inputs := by
  rw [idOrder.mem_iterate, List.mem_filterMap]
  constructor
  · rintro ⟨input, hmem, hinput⟩
    cases input with
    | unresolvedObject objectId' =>
      obtain rfl := Option.some.inj hinput
      exact hmem
    | pure bytes | object object | fundsWithdrawal fundsWithdrawal | unresolvedPure pure =>
      cases hinput
  · intro hmem
    exact ⟨_, hmem, rfl⟩

lemma mem_unresolvedInputs {inputs : List TransactionInput} {index : ℕ} {objectId : String} :
    (index, objectId) ∈ unresolvedInputs inputs ↔
      inputs[index]? = some (.unresolvedObject objectId) := by
  rw [unresolvedInputs, List.mem_filterMap]
  constructor
  · rintro ⟨⟨input, position⟩, hmem, hinput⟩
    obtain ⟨objectId', hunresolved, hpair⟩ := Option.map_eq_some_iff.mp hinput
    obtain ⟨rfl, rfl⟩ := Prod.mk.inj hpair
    cases input with
    | unresolvedObject objectId' =>
      obtain rfl := Option.some.inj hunresolved
      exact List.mem_zipIdx_iff_getElem?.mp hmem
    | pure bytes | object object | fundsWithdrawal fundsWithdrawal | unresolvedPure pure =>
      cases hunresolved
  · intro h
    exact ⟨(.unresolvedObject objectId, index), List.mem_zipIdx_iff_getElem?.mpr h, rfl⟩

/-- The objects that are fetched are those that the node has, one after the other. -/
theorem fetchObjects_spec (horder : rpc.InOrder texts chain) {objectIds : List String}
    {objects : List RpcObject} (h : fetchObjects rpc objectIds = .ok objects) :
    objects = objectIds.map chain := by
  cases objectIds with
  | nil => exact (Except.ok.inj h).symm
  | cons objectId objectIds => exact horder.objects _ _ (mapError_eq_ok_iff.mp h)

lemma resolveFetched_eq_ok_iff {entry : String × RpcObject} {objectId : String}
    {object : ResolvedObjectInput} :
    resolveFetched texts entry = .ok (objectId, object) ↔
      entry.1 = objectId ∧ fromRpcObject texts entry.2 = .ok object := by
  rw [resolveFetched, map_eq_ok_iff]
  constructor
  · rintro ⟨found, hfound, hpair⟩
    obtain ⟨rfl, rfl⟩ := Prod.mk.inj hpair
    exact ⟨rfl, hfound⟩
  · rintro ⟨rfl, hfound⟩
    exact ⟨object, hfound, rfl⟩

lemma mem_zip_map {objectIds : List String} {entry : String × RpcObject} :
    entry ∈ objectIds.zip (objectIds.map chain) ↔
      entry.1 ∈ objectIds ∧ entry.2 = chain entry.1 := by
  have hzip := List.zip_map' (f := id) (g := chain) (l := objectIds)
  rw [List.map_id] at hzip
  rw [hzip, List.mem_map]
  constructor
  · rintro ⟨objectId, hmem, rfl⟩
    exact ⟨hmem, rfl⟩
  · rintro ⟨hmem, heq⟩
    exact ⟨entry.1, hmem, Prod.ext rfl heq.symm⟩

/-- **The objects of the inputs**: each is what the node has under its id, mutable if its input is among
the mutable ones. -/
theorem objectInputs_spec (horder : rpc.InOrder texts chain) {inputs : List TransactionInput}
    {mutability : List ℕ} {found : AssocMap ℕ ObjectInput}
    (h : objectInputs texts rpc idOrder inputs mutability = .ok found) {index : ℕ} {objectId : String}
    (hinput : inputs[index]? = some (.unresolvedObject objectId)) :
    ∃ object, fromRpcObject texts (chain objectId) = .ok object ∧
      AList.lookup index found = some (object.input (decide (index ∈ mutability))) := by
  obtain ⟨objects, hobjects, h⟩ := bind_eq_ok_iff.mp h
  obtain ⟨fetched, hfetched, h⟩ := bind_eq_ok_iff.mp h
  obtain ⟨resolved, hresolved, h⟩ := bind_eq_ok_iff.mp h
  obtain rfl := Except.ok.inj h
  obtain rfl := fetchObjects_spec horder hobjects
  obtain ⟨⟨index', objectId'⟩, hmem, input, hread, hlookup⟩ :=
    AssocMap.exists_lookup_collect_of_tryMap hresolved (mem_unresolvedInputs.mpr hinput)
      fun _ _ hread => by
        obtain ⟨object, -, hpair⟩ := bind_eq_ok_iff.mp hread
        exact (congrArg Prod.fst (Except.ok.inj hpair)).symm
  obtain ⟨object, hobject, hpair⟩ := bind_eq_ok_iff.mp hread
  obtain ⟨rfl, rfl⟩ := Prod.mk.inj (Except.ok.inj hpair)
  obtain rfl : objectId' = objectId := by
    have heq := (mem_unresolvedInputs.mp hmem).symm.trans hinput
    exact TransactionInput.unresolvedObject.inj (Option.some.inj heq)
  obtain ⟨entry, hentry, hfetch⟩ := exists_mem_of_tryMap hfetched
    (AssocMap.mem_of_lookup_collect (okOr_eq_ok_iff.mp hobject))
  obtain ⟨rfl, hfound⟩ := resolveFetched_eq_ok_iff.mp hfetch
  rw [(mem_zip_map.mp hentry).2] at hfound
  exact ⟨object, hfound, hlookup⟩

/-- The objects are found if the node has them. -/
lemma exists_objectInputs (horder : rpc.InOrder texts chain) {transaction : TransactionBuilderJson}
    (h : Answered texts rpc chain idOrder transaction) (mutability : List ℕ) :
    ∃ found, objectInputs texts rpc idOrder transaction.inputs mutability = .ok found := by
  have hfetch : ∃ objects, fetchObjects rpc (idOrder.iterate
      (transaction.inputs.filterMap TransactionInput.unresolved?)) = .ok objects := by
    have hobjects := h.objects
    generalize idOrder.iterate
      (transaction.inputs.filterMap TransactionInput.unresolved?) = objectIds at hobjects
    cases objectIds with
    | nil => exact ⟨[], rfl⟩
    | cons objectId objectIds =>
      obtain ⟨objects, hobjects⟩ := hobjects (List.cons_ne_nil _ _)
      exact ⟨objects, mapError_eq_ok_iff.mpr hobjects⟩
  obtain ⟨objects, hobjects⟩ := hfetch
  obtain rfl := fetchObjects_spec horder hobjects
  have hresolve : ∀ entry ∈ (idOrder.iterate
      (transaction.inputs.filterMap TransactionInput.unresolved?)).zip ((idOrder.iterate
      (transaction.inputs.filterMap TransactionInput.unresolved?)).map chain),
      ∃ found, resolveFetched texts entry = .ok found := by
    intro entry hentry
    obtain ⟨hmem, hchain⟩ := mem_zip_map.mp hentry
    obtain ⟨object, hobject⟩ := h.kinds entry.1 (mem_unresolved.mp hmem)
    exact ⟨(entry.1, object), resolveFetched_eq_ok_iff.mpr ⟨rfl, hchain ▸ hobject⟩⟩
  obtain ⟨fetched, hfetched⟩ := exists_tryMap_iff.mpr hresolve
  have hinput : ∀ entry ∈ unresolvedInputs transaction.inputs, ∃ found,
      objectInputFromFetched entry.1 entry.2 (AssocMap.collect fetched) mutability = .ok found := by
    rintro ⟨index, objectId⟩ hentry
    have hmem : (objectId, chain objectId) ∈ (idOrder.iterate
        (transaction.inputs.filterMap TransactionInput.unresolved?)).zip ((idOrder.iterate
        (transaction.inputs.filterMap TransactionInput.unresolved?)).map chain) :=
      mem_zip_map.mpr ⟨mem_unresolved.mpr
        (List.mem_of_getElem? (mem_unresolvedInputs.mp hentry)), rfl⟩
    obtain ⟨-, -, object, -, hlookup⟩ := AssocMap.exists_lookup_collect_of_tryMap hfetched hmem
      fun _ _ hfound => (resolveFetched_eq_ok_iff.mp hfound).1.symm
    exact ⟨_, bind_eq_ok_iff.mpr ⟨object, okOr_eq_ok_iff.mpr hlookup, rfl⟩⟩
  obtain ⟨resolved, hresolved⟩ := exists_tryMap_iff.mpr hinput
  exact ⟨_, bind_eq_ok_iff.mpr ⟨_, hobjects, bind_eq_ok_iff.mpr
    ⟨fetched, hfetched, bind_eq_ok_iff.mpr ⟨resolved, hresolved, rfl⟩⟩⟩⟩

/-! ## The whole preparation -/

/-- **What is prepared**: the transaction as it is, and for each input that is not resolved what the
node has under its id, mutable if a function takes the input by mutable reference. -/
theorem prepareReplay_spec (horder : rpc.InOrder texts chain) {transaction : TransactionBuilderJson}
    {replay : TransactionJsonReplay}
    (h : prepareReplay texts rpc keyOrder idOrder transaction = .ok replay) :
    replay.transaction = transaction ∧ ∃ mutability : List ℕ,
      (∀ index, index ∈ mutability ↔ MutablyReferenced rpc transaction.commands index) ∧
        ∀ (index : ℕ) objectId, transaction.inputs[index]? = some (.unresolvedObject objectId) →
          ∃ object, fromRpcObject texts (chain objectId) = .ok object ∧
            AList.lookup index replay.objectInputs =
              some (object.input (decide (index ∈ mutability))) := by
  obtain ⟨mutability, hmutability, h⟩ := bind_eq_ok_iff.mp h
  obtain ⟨found, hfound, h⟩ := bind_eq_ok_iff.mp h
  obtain rfl := Except.ok.inj h
  exact ⟨rfl, mutability, (inputMutability_spec hmutability).2,
    fun index objectId hinput => objectInputs_spec horder hfound hinput⟩

/-- **A transaction is prepared** exactly if the node has what it names. -/
theorem prepareReplay_ok_iff (horder : rpc.InOrder texts chain)
    {transaction : TransactionBuilderJson} :
    (∃ replay, prepareReplay texts rpc keyOrder idOrder transaction = .ok replay) ↔
      Answered texts rpc chain idOrder transaction := by
  constructor
  · rintro ⟨replay, h⟩
    obtain ⟨mutability, hmutability, h⟩ := bind_eq_ok_iff.mp h
    obtain ⟨found, hfound, h⟩ := bind_eq_ok_iff.mp h
    refine ⟨(inputMutability_spec hmutability).1, ?_, ?_⟩
    · obtain ⟨objects, hobjects, -⟩ := bind_eq_ok_iff.mp hfound
      intro hne
      obtain ⟨objectId, objectIds, heq⟩ := List.exists_cons_of_ne_nil hne
      rw [heq] at hobjects ⊢
      exact ⟨objects, mapError_eq_ok_iff.mp hobjects⟩
    · intro objectId hmem
      obtain ⟨index, hindex⟩ := List.mem_iff_getElem?.mp hmem
      obtain ⟨object, hobject, -⟩ := objectInputs_spec horder hfound hindex
      exact ⟨object, hobject⟩
  · intro h
    obtain ⟨mutability, hmutability⟩ :
        ∃ inputs, inputMutability rpc keyOrder transaction.commands = .ok inputs :=
      exists_inputMutability h.functions
    obtain ⟨found, hfound⟩ := exists_objectInputs horder h mutability
    exact ⟨_, bind_eq_ok_iff.mpr ⟨mutability, hmutability,
      bind_eq_ok_iff.mpr ⟨found, hfound, rfl⟩⟩⟩

/-- Whether an input is declared mutable does not change what it refers to. -/
lemma reference_input (object : ResolvedObjectInput) (mutable : Bool) :
    (object.input mutable).reference = (object.input false).reference := by
  obtain ⟨objectId, owner⟩ := object
  cases owner with
  | shared initialSharedVersion => rfl
  | owned version digest => rfl
  | immutable version digest => rfl

/-- **The objects are those of the inputs**: each has the id that was asked for. -/
theorem resolves_of_prepareReplay (horder : rpc.InOrder texts chain)
    {transaction : TransactionBuilderJson} {replay : TransactionJsonReplay}
    (h : prepareReplay texts rpc keyOrder idOrder transaction = .ok replay) :
    Resolves texts chain transaction.inputs replay.objectInputs := by
  obtain ⟨-, mutability, -, hobjects⟩ := prepareReplay_spec horder h
  intro index objectId hinput
  obtain ⟨object, hobject, hlookup⟩ := hobjects index objectId hinput
  refine ⟨_, hlookup, ?_⟩
  obtain ⟨text, htext, hrest⟩ := bind_eq_ok_iff.mp hobject
  obtain ⟨owner, howner, hrest⟩ := bind_eq_ok_iff.mp hrest
  obtain ⟨address, haddress, hrest⟩ := bind_eq_ok_iff.mp hrest
  obtain ⟨resolved, hresolved, hrest⟩ := bind_eq_ok_iff.mp hrest
  have hid : object.objectId = address := by
    rw [← Except.ok.inj hrest]
  have hasked := horder.objectId objectId text address (okOr_eq_ok_iff.mp htext)
    (mapError_eq_ok_iff.mp haddress)
  rw [denoteInput, toOption_eq_some_iff.mpr hasked, toOption_eq_some_iff.mpr hobject,
    reference_input]
  exact if_pos hid

end GemCore.Sui

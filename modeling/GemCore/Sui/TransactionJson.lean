import GemCore.Lib.AssocMap
import GemCore.Sui.Builder

/-!
# Transactions as JSON

The JSON that applications send for a programmable transaction, and `TransactionJsonReplay`, which
resolves its objects, makes the calls of the builder and chooses the objects that pay for the gas
(`gem_sui/src/tx_builder/transaction_json`, `gem_sui/src/tx_builder/object_resolver.rs`).

The parsers of texts and the answers of the node are parameters. Of several requests that fail at
once, the failure of the first one is reported.

## Main definitions

* `TransactionBuilderJson` — the JSON.
* `TextLib`, `Rpc` — the parsers, and the answers of the node.
* `prepareReplay`, `TransactionJsonReplay.replay` — the two halves of a replay.
* `gasObjects` — the objects that pay.
-/

namespace GemCore.Sui

open Lib

/-! ## The JSON -/

/-- `ObjectRef`. -/
structure ObjectRef where
  objectId : String
  version : UInt64
  digest : String

/-- `SharedObjectRef`. -/
structure SharedObjectRef where
  objectId : String
  initialSharedVersion : UInt64
  mutable : Bool

/-- `TransactionObject`. -/
inductive TransactionObject where
  | immOrOwnedObject (object : ObjectRef)
  | sharedObject (object : SharedObjectRef)
  | receiving (object : ObjectRef)

/-- `TransactionObject::object_id`. -/
def TransactionObject.objectId : TransactionObject → String
  | immOrOwnedObject object | receiving object => object.objectId
  | sharedObject object => object.objectId

/-- `WithdrawalSource`. -/
inductive WithdrawalSource where
  | sender (sender : Bool)
  | sponsor (sponsor : Bool)

/-- `FundsWithdrawalInput`; the reservation and the type argument have one form each. -/
structure FundsWithdrawalInput where
  maxAmount : UInt64
  balance : String
  withdrawFrom : WithdrawalSource

/-- `TransactionInput`. -/
inductive TransactionInput where
  | pure (bytes : String)
  | object (object : TransactionObject)
  | unresolvedObject (objectId : String)
  | fundsWithdrawal (fundsWithdrawal : FundsWithdrawalInput)
  /-- The JSON value, as it is printed. -/
  | unresolvedPure (pure : String)

/-- `TransactionArgument`. -/
inductive TransactionArgument where
  | gasCoin (gasCoin : Bool)
  | input (input : ℕ)
  | result (result : ℕ)
  | nestedResult (command index : ℕ)

/-- `MoveCallCommand`. -/
structure MoveCallCommand where
  package : String
  module : String
  function : String
  typeArguments : List String
  arguments : List TransactionArgument

/-- `TransactionCommand`. -/
inductive TransactionCommand where
  | moveCall (moveCall : MoveCallCommand)
  | transferObjects (objects : List TransactionArgument) (address : TransactionArgument)
  | splitCoins (coin : TransactionArgument) (amounts : List TransactionArgument)
  | mergeCoins (destination : TransactionArgument) (sources : List TransactionArgument)
  | makeMoveVec (type : Option String) (elements : List TransactionArgument)
  /-- The JSON value, as it is printed. -/
  | publish (publish : String)
  /-- The JSON value, as it is printed. -/
  | upgrade (upgrade : String)

/-- `GasData`, up to the price, the budget and the owner. -/
structure GasData where
  payment : Option (List ObjectRef)

/-- `TransactionBuilderJson`: what is replayed. -/
structure TransactionBuilderJson where
  inputs : List TransactionInput
  commands : List TransactionCommand

/-! ## Texts -/

/-- `SuiError`. -/
inductive SuiError where
  | invalidInput (message : String)
  | insufficientBalance (coinType : String)
  | noGasCoins

/-- The parsers of the crates; an error is its text. -/
structure TextLib where
  /-- `Address::from_str`. -/
  address : String → Except String Address
  /-- `Digest::from_str`. -/
  digest : String → Except String Digest
  /-- `TypeTag::from_str`. -/
  typeTag : String → Except String TypeTag
  /-- `Identifier::new`, which keeps the text. -/
  identifier : String → Except String Unit
  /-- `decode_base64`. -/
  decodeBase64 : String → Except String (List UInt8)
  /-- `Address::to_string`. -/
  addressText : Address → String

section Texts

variable (texts : TextLib)

/-- `SuiAddress::parse`. -/
def parseAddress (address : String) : Except SuiError Address :=
  (texts.address address).mapError fun err =>
    .invalidInput ("Invalid Sui address " ++ address ++ ": " ++ err)

/-- `digest` of `builder.rs`. -/
def parseDigest (value : String) : Except SuiError Digest :=
  (texts.digest value).mapError fun err =>
    .invalidInput ("Invalid Sui object digest " ++ value ++ ": " ++ err)

/-- `object_input`. -/
def objectInput : TransactionObject → Except SuiError ObjectInput
  | .immOrOwnedObject object => do
    let objectId ← parseAddress texts object.objectId
    let digest ← parseDigest texts object.digest
    .ok (.owned objectId object.version digest)
  | .sharedObject object => do
    let objectId ← parseAddress texts object.objectId
    .ok (.shared objectId object.initialSharedVersion object.mutable)
  | .receiving object => do
    let objectId ← parseAddress texts object.objectId
    let digest ← parseDigest texts object.digest
    .ok (.receiving objectId object.version digest)

/-- The coin type of `funds_withdrawal_input`. -/
def withdrawalType (fundsWithdrawal : FundsWithdrawalInput) : Except SuiError TypeTag :=
  match fundsWithdrawal.withdrawFrom with
  | .sender _ =>
    (texts.typeTag fundsWithdrawal.balance).mapError fun err =>
      .invalidInput
        ("Invalid Sui withdrawal balance type " ++ fundsWithdrawal.balance ++ ": " ++ err)
  | .sponsor _ => .error (.invalidInput "Unsupported Sui funds withdrawal source")

/-- A type argument of `move_call`. -/
def typeArgument (value : String) : Except SuiError TypeTag :=
  (texts.typeTag value).mapError fun err =>
    .invalidInput ("Invalid Sui type argument " ++ value ++ ": " ++ err)

/-- An `Identifier`. -/
def identifier (name : String) : Except SuiError Unit :=
  (texts.identifier name).mapError .invalidInput

/-- The function of `tx_builder::move_call`. -/
def moveFunction (package : Address) (module function : String) (typeArgs : List String) :
    Except SuiError Function := do
  let typeArgs ← tryMap (typeArgument texts) typeArgs
  let _ ← identifier texts module
  let _ ← identifier texts function
  .ok ⟨package, module, function, typeArgs⟩

/-- The target of a move call. -/
def target (moveCall : MoveCallCommand) : Except SuiError Function := do
  let package ← parseAddress texts moveCall.package
  moveFunction texts package moveCall.module moveCall.function moveCall.typeArguments

/-- The type of a `MakeMoveVec`. -/
def vectorType : Option String → Except SuiError (Option TypeTag)
  | none => .ok none
  | some type =>
    ((texts.typeTag type).map some).mapError fun err =>
      .invalidInput ("Invalid Sui MakeMoveVec type: " ++ err)

end Texts

/-! ## Making the calls -/

/-- `CommandOutput`. -/
inductive CommandOutput (α : Type) where
  | single (argument : α)
  | nested (arguments : List α)
  | empty

section Replay

variable (texts : TextLib) (lib : BuilderLib)

/-- `replay_input`. -/
def replayInput (objectInputs : AssocMap ℕ ObjectInput) (index : ℕ) :
    TransactionInput → Build lib.Builder SuiError lib.Argument
  | .pure bytes => do
    let bytes ← Build.ofExcept ((texts.decodeBase64 bytes).mapError fun err =>
      .invalidInput ("Invalid Sui transaction encoding: " ++ err))
    Build.update (lib.pureBytesUnique bytes)
  | .object object => do
    let input ← Build.ofExcept (objectInput texts object)
    Build.update (lib.object input)
  | .unresolvedObject _ => do
    let input ← Build.ofExcept (okOr (AList.lookup index objectInputs)
      (.invalidInput "Missing resolved Sui object input"))
    Build.update (lib.object input)
  | .fundsWithdrawal fundsWithdrawal => do
    let coinType ← Build.ofExcept (withdrawalType texts fundsWithdrawal)
    Build.update (lib.fundsWithdrawal coinType fundsWithdrawal.maxAmount)
  | .unresolvedPure pure =>
    Build.ofExcept
      (.error (.invalidInput ("Sui transaction contains unresolved pure input: " ++ pure)))

/-- `output_argument`. -/
def outputArgument (outputs : List (CommandOutput lib.Argument)) :
    TransactionArgument → Except SuiError lib.Argument
  | .result result =>
    match outputs[result]? with
    | some (.single argument) => .ok argument
    | some (.nested _) | some .empty => .error (.invalidInput "Invalid Sui result argument")
    | none => .error (.invalidInput "Missing Sui result argument")
  | .nestedResult command index =>
    match outputs[command]? with
    | some (.single argument) =>
      -- the addition of a `usize` wraps
      okOr (lib.toNested argument ((index + 1) % 2 ^ 64))[index]?
        (.invalidInput "Invalid Sui nested result argument")
    | some (.nested arguments) =>
      okOr arguments[index]? (.invalidInput "Invalid Sui nested result argument")
    | some .empty => .error (.invalidInput "Invalid Sui nested result argument")
    | none => .error (.invalidInput "Missing Sui nested result argument")
  | .gasCoin _ | .input _ => .error (.invalidInput "Invalid Sui output argument")

/-- `input_or_output_argument`. -/
def inputOrOutputArgument (inputs : List lib.Argument)
    (outputs : List (CommandOutput lib.Argument)) (argument : TransactionArgument) :
    Build lib.Builder SuiError lib.Argument :=
  match argument with
  | .gasCoin true => Build.update lib.gas
  | .gasCoin false => Build.ofExcept (.error (.invalidInput "Invalid Sui gas coin argument"))
  | .input input =>
    Build.ofExcept (okOr inputs[input]? (.invalidInput "Missing Sui input argument"))
  | .result _ | .nestedResult _ _ => Build.ofExcept (outputArgument lib outputs argument)

/-- `replay_command`. -/
def replayCommand (inputs : List lib.Argument) (outputs : List (CommandOutput lib.Argument)) :
    TransactionCommand → Build lib.Builder SuiError (CommandOutput lib.Argument)
  | .moveCall moveCall => do
    let arguments ← Build.collect (inputOrOutputArgument lib inputs outputs) moveCall.arguments
    let function ← Build.ofExcept (target texts moveCall)
    let output ← Build.update (lib.moveCall function arguments)
    pure (.single output)
  | .transferObjects objects address => do
    let objects ← Build.collect (inputOrOutputArgument lib inputs outputs) objects
    let address ← inputOrOutputArgument lib inputs outputs address
    Build.update fun txb => (.empty, lib.transferObjects objects address txb)
  | .splitCoins coin amounts => do
    let coin ← inputOrOutputArgument lib inputs outputs coin
    let amounts ← Build.collect (inputOrOutputArgument lib inputs outputs) amounts
    let output ← Build.update (lib.splitCoins coin amounts)
    pure (.nested output)
  | .mergeCoins destination sources => do
    let destination ← inputOrOutputArgument lib inputs outputs destination
    let sources ← Build.collect (inputOrOutputArgument lib inputs outputs) sources
    Build.update fun txb => (.empty, lib.mergeCoins destination sources txb)
  | .makeMoveVec type elements => do
    let type ← Build.ofExcept (vectorType texts type)
    let elements ← Build.collect (inputOrOutputArgument lib inputs outputs) elements
    let output ← Build.update (lib.makeMoveVec type elements)
    pure (.single output)
  | .publish publish =>
    Build.ofExcept (.error (.invalidInput ("Unsupported Sui Publish command: " ++ publish)))
  | .upgrade upgrade =>
    Build.ofExcept (.error (.invalidInput ("Unsupported Sui Upgrade command: " ++ upgrade)))

/-- The loop of `replay`: the commands that are left, behind what those before have put out. -/
def replayCommands (inputs : List lib.Argument) :
    List TransactionCommand → List (CommandOutput lib.Argument) →
      Build lib.Builder SuiError (List (CommandOutput lib.Argument))
  | [], outputs => pure outputs
  | command :: commands, outputs => do
    let output ← replayCommand texts lib inputs outputs command
    replayCommands inputs commands (outputs ++ [output])

/-- The inputs of `replay`, numbered. -/
def replayInputs (objectInputs : AssocMap ℕ ObjectInput) (inputs : List TransactionInput) :
    Build lib.Builder SuiError (List lib.Argument) :=
  Build.collect (fun entry => replayInput texts lib objectInputs entry.2 entry.1) inputs.zipIdx

/-- `TransactionJsonReplay`. -/
structure TransactionJsonReplay where
  transaction : TransactionBuilderJson
  objectInputs : AssocMap ℕ ObjectInput

/-- `TransactionJsonReplay::replay`: what the commands have put out, and the builder. -/
def TransactionJsonReplay.replay (self : TransactionJsonReplay) :
    Except SuiError (List (CommandOutput lib.Argument) × lib.Builder) :=
  (do
    let inputs ← replayInputs texts lib self.objectInputs self.transaction.inputs
    replayCommands texts lib inputs self.transaction.commands [] :
      Build lib.Builder SuiError (List (CommandOutput lib.Argument))) lib.new

end Replay

/-! ## What the node answers -/

/-- `OpenSignature`. -/
structure OpenSignature where
  reference : Option ℤ

/-- `FunctionDescriptor`. -/
structure FunctionDescriptor where
  parameters : List OpenSignature

/-- `Owner`. -/
structure Owner where
  kind : Option ℤ
  version : Option UInt64

/-- `proto::Object`. -/
structure RpcObject where
  objectId : Option String
  version : Option UInt64
  digest : Option String
  owner : Option Owner

/-- `Coin`, up to its type. -/
structure Coin where
  balance : UInt64
  objectId : Address
  version : UInt64
  digest : Digest

/-- `Coin::to_input`. -/
def Coin.toInput (coin : Coin) : ObjectInput := .owned coin.objectId coin.version coin.digest

/-- `OwnerKind`. -/
inductive OwnerKind where
  | unknown | address | object | shared | immutable | consensusAddress

/-- `Owner::kind`. -/
def Owner.ownerKind (owner : Owner) : OwnerKind :=
  match owner.kind.getD 0 with
  | 1 => .address
  | 2 => .object
  | 3 => .shared
  | 4 => .immutable
  | 5 => .consensusAddress
  | _ => .unknown

/-- `MoveFunctionKey`. -/
structure MoveFunctionKey where
  package : String
  module : String
  function : String
  deriving DecidableEq

/-- The answers of the node; an error is its text. -/
structure Rpc where
  getFunction : MoveFunctionKey → Except String FunctionDescriptor
  getMultipleObjects : List String → Except String (List RpcObject)
  getGasCoins : String → Except String (List Coin)

/-- In which order a `HashSet` that is collected from a list is gone through: any order. -/
structure HashSetOrder (α : Type) where
  iterate : List α → List α
  nodup : ∀ l, (iterate l).Nodup
  mem_iterate : ∀ l a, a ∈ iterate l ↔ a ∈ l

/-! ## Resolving the objects -/

/-- `ResolvedObjectInput`, as the input it makes of an object. -/
inductive ResolvedObjectOwner where
  | shared (initialSharedVersion : UInt64)
  | owned (version : UInt64) (digest : Digest)
  | immutable (version : UInt64) (digest : Digest)

/-- `ResolvedObjectInput`. -/
structure ResolvedObjectInput where
  objectId : Address
  owner : ResolvedObjectOwner

/-- `ResolvedObjectInput::input`. -/
def ResolvedObjectInput.input (self : ResolvedObjectInput) (mutable : Bool) : ObjectInput :=
  match self.owner with
  | .shared initialSharedVersion => .shared self.objectId initialSharedVersion mutable
  | .owned version digest => .owned self.objectId version digest
  | .immutable version digest => .immutable self.objectId version digest

section Resolve

variable (texts : TextLib)

/-- `digest` of `object_resolver.rs`. -/
def resolvedDigest (value : Option String) (objectId : Address) : Except SuiError Digest := do
  let value ← okOr value
    (.invalidInput ("Sui object digest is missing: " ++ texts.addressText objectId))
  (texts.digest value).mapError fun err =>
    .invalidInput ("Invalid Sui object digest for " ++ texts.addressText objectId ++ ": " ++ err)

/-- The version and the digest of an object that is owned or immutable. -/
def versionAndDigest (object : RpcObject) (objectId : Address) :
    Except SuiError (UInt64 × Digest) := do
  let version ← okOr object.version
    (.invalidInput ("Sui object version is missing: " ++ texts.addressText objectId))
  let digest ← resolvedDigest texts object.digest objectId
  .ok (version, digest)

/-- The name of an `OwnerKind`. -/
def OwnerKind.debug : OwnerKind → String
  | unknown => "Unknown"
  | address => "Address"
  | object => "Object"
  | shared => "Shared"
  | immutable => "Immutable"
  | consensusAddress => "ConsensusAddress"

/-- The owner of `from_rpc_object`. -/
def resolvedOwner (object : RpcObject) (owner : Owner) (objectId : Address) :
    Except SuiError ResolvedObjectOwner :=
  match owner.ownerKind with
  | .shared =>
    (okOr owner.version (.invalidInput
      ("Sui shared object version is missing: " ++ texts.addressText objectId))).map .shared
  | .address | .object =>
    (versionAndDigest texts object objectId).map fun found => .owned found.1 found.2
  | .immutable =>
    (versionAndDigest texts object objectId).map fun found => .immutable found.1 found.2
  | .unknown | .consensusAddress =>
    .error (.invalidInput ("Unsupported Sui object owner kind for " ++
      texts.addressText objectId ++ ": " ++ owner.ownerKind.debug))

/-- `ResolvedObjectInput::from_rpc_object`. -/
def fromRpcObject (object : RpcObject) : Except SuiError ResolvedObjectInput := do
  let objectId ← okOr object.objectId (.invalidInput "missing Sui object id")
  let owner ← okOr object.owner
    (.invalidInput ("Sui object owner is missing: " ++ objectId))
  let address ← (texts.address objectId).mapError fun err =>
    .invalidInput ("Invalid Sui object id " ++ objectId ++ ": " ++ err)
  let owner ← resolvedOwner texts object owner address
  .ok ⟨address, owner⟩

end Resolve

/-- The function of a move call. -/
def MoveCallCommand.key (moveCall : MoveCallCommand) : MoveFunctionKey :=
  ⟨moveCall.package, moveCall.module, moveCall.function⟩

/-- The function of a command that is a move call. -/
def TransactionCommand.key? : TransactionCommand → Option MoveFunctionKey
  | moveCall call => some call.key
  | _ => none

/-- The object of an input that is not resolved. -/
def TransactionInput.unresolved? : TransactionInput → Option String
  | unresolvedObject objectId => some objectId
  | _ => none

/-- The object of an input, of `input_object_ids`. -/
def TransactionInput.objectId? : TransactionInput → Option String
  | object input => some input.objectId
  | unresolvedObject objectId => some objectId
  | pure _ | fundsWithdrawal _ | unresolvedPure _ => none

/-- `is_mutable_parameter`: `Reference::Mutable` is 2. -/
def isMutableParameter (parameter : OpenSignature) : Bool := parameter.reference == some 2

/-- The input of an argument. -/
def TransactionArgument.input? : TransactionArgument → Option ℕ
  | input index => some index
  | _ => none

/-- The inputs that a function takes by mutable reference. -/
def mutableInputs (arguments : List TransactionArgument) (function : FunctionDescriptor) : List ℕ :=
  ((arguments.zip function.parameters).filter fun pair => isMutableParameter pair.2).filterMap
    fun pair => pair.1.input?

section Prepare

variable (texts : TextLib) (rpc : Rpc) (keyOrder : HashSetOrder MoveFunctionKey)
  (idOrder : HashSetOrder String)

/-- A request of `get_functions`. -/
def fetchFunction (key : MoveFunctionKey) :
    Except SuiError (MoveFunctionKey × FunctionDescriptor) :=
  ((rpc.getFunction key).map fun function => (key, function)).mapError fun err =>
    .invalidInput ("Failed to read Sui Move function signature: " ++ err)

/-- `get_functions`. -/
def getFunctions (keys : List MoveFunctionKey) :
    Except SuiError (AssocMap MoveFunctionKey FunctionDescriptor) := do
  let functions ← tryMap (fetchFunction rpc) keys
  .ok (AssocMap.collect functions)

/-- The loop of `input_mutability`. -/
def mutableInputsOf (cache : AssocMap MoveFunctionKey FunctionDescriptor) :
    List TransactionCommand → Except SuiError (List ℕ)
  | [] => .ok []
  | .moveCall moveCall :: commands => do
    let function ← okOr (AList.lookup moveCall.key cache)
      (.invalidInput "Missing cached Sui Move function signature")
    let rest ← mutableInputsOf cache commands
    .ok (mutableInputs moveCall.arguments function ++ rest)
  | _ :: commands => mutableInputsOf cache commands

/-- `input_mutability`: the inputs that are in the map, all of them with `true`. -/
def inputMutability (commands : List TransactionCommand) : Except SuiError (List ℕ) := do
  let cache ← getFunctions rpc (keyOrder.iterate (commands.filterMap TransactionCommand.key?))
  mutableInputsOf cache commands

/-- What `object_inputs` fetches. -/
def fetchObjects (objectIds : List String) : Except SuiError (List RpcObject) :=
  match objectIds with
  | [] => .ok []
  | _ =>
    (rpc.getMultipleObjects objectIds).mapError fun err =>
      .invalidInput ("Failed to fetch Sui transaction objects: " ++ err)

/-- `object_input_from_fetched`. -/
def objectInputFromFetched (index : ℕ) (objectId : String)
    (fetched : AssocMap String ResolvedObjectInput) (inputMutability : List ℕ) :
    Except SuiError (ℕ × ObjectInput) := do
  let object ← okOr (AList.lookup objectId fetched)
    (.invalidInput ("Sui object was not returned by RPC: " ++ objectId))
  .ok (index, object.input (decide (index ∈ inputMutability)))

/-- The inputs that are not resolved, with their indices. -/
def unresolvedInputs (inputs : List TransactionInput) : List (ℕ × String) :=
  inputs.zipIdx.filterMap fun entry => entry.1.unresolved?.map fun objectId => (entry.2, objectId)

/-- What is made of an object that was fetched. -/
def resolveFetched (entry : String × RpcObject) : Except SuiError (String × ResolvedObjectInput) :=
  (fromRpcObject texts entry.2).map fun object => (entry.1, object)

/-- `object_inputs`. -/
def objectInputs (inputs : List TransactionInput) (inputMutability : List ℕ) :
    Except SuiError (AssocMap ℕ ObjectInput) := do
  let objectIds := idOrder.iterate (inputs.filterMap TransactionInput.unresolved?)
  let objects ← fetchObjects rpc objectIds
  let fetched ← tryMap (resolveFetched texts) (objectIds.zip objects)
  let resolved ← tryMap (fun entry =>
    objectInputFromFetched entry.1 entry.2 (AssocMap.collect fetched) inputMutability)
    (unresolvedInputs inputs)
  .ok (AssocMap.collect resolved)

/-- `prepare_replay`. -/
def prepareReplay (transaction : TransactionBuilderJson) :
    Except SuiError TransactionJsonReplay := do
  let inputMutability ← inputMutability rpc keyOrder transaction.commands
  let objectInputs ← objectInputs texts rpc idOrder transaction.inputs inputMutability
  .ok ⟨transaction, objectInputs⟩

/-! ## Paying for the gas -/

/-- `payment_object`. -/
def paymentObject (object : ObjectRef) : Except SuiError ObjectInput := do
  let objectId ← parseAddress texts object.objectId
  let digest ← parseDigest texts object.digest
  .ok (.owned objectId object.version digest)

/-- `input_object_ids`. -/
def inputObjectIds (inputs : List TransactionInput) : Except SuiError (List Address) :=
  tryMap (parseAddress texts) (inputs.filterMap TransactionInput.objectId?)

/-- The gas objects that are chosen among the coins of the sender. -/
def chosenGasObjects (inputs : List TransactionInput) (sender : String) :
    Except SuiError (List ObjectInput) := do
  let coins ← (rpc.getGasCoins sender).mapError .invalidInput
  let inputObjects ← inputObjectIds texts inputs
  let gasObjects := (coins.filter fun coin => coin.objectId ∉ inputObjects).map Coin.toInput
  if gasObjects = [] then .error .noGasCoins else .ok gasObjects

/-- `gas_objects`. -/
def gasObjects (replay : TransactionJsonReplay) (gasData : GasData) (sender : String) :
    Except SuiError (List ObjectInput) :=
  match gasData.payment with
  | some (object :: payment) => tryMap (paymentObject texts) (object :: payment)
  | some [] | none => chosenGasObjects texts rpc replay.transaction.inputs sender

end Prepare

end GemCore.Sui

import GemCore.Lib.Build
import GemCore.Lib.Bytes

/-!
# Programmable transactions and their builder

The commands of a programmable transaction of the Sui network, and the builder of the
`sui_transaction_builder` crate. The builder has its own numbering of inputs; what is relied on is what
the arguments it hands out refer to in the transaction.

## Main definitions

* `ObjectInput`, `Command` — inputs and commands.
* `Ref` — what an argument refers to.
* `BuilderLib`, `BuilderLib.Records` — the builder, and that it records the calls that are made of
  it.
* `recorder` — a builder that does.

## Main results

* `records_recorder` — the calls are recorded.
-/

namespace GemCore.Sui

/-! ## Commands -/

/-- An `Address`. -/
abbrev Address : Type := Lib.FixedBytes 32

instance : LawfulBEq Address := inferInstance

/-- A `Digest`. -/
abbrev Digest : Type := Lib.FixedBytes 32

/-- A `TypeTag`, by its text. -/
structure TypeTag where
  text : String
  deriving DecidableEq

/-- `ObjectInput`. -/
inductive ObjectInput where
  | owned (objectId : Address) (version : UInt64) (digest : Digest)
  | immutable (objectId : Address) (version : UInt64) (digest : Digest)
  | shared (objectId : Address) (initialSharedVersion : UInt64) (mutable : Bool)
  | receiving (objectId : Address) (version : UInt64) (digest : Digest)

/-- The object of an input. -/
def ObjectInput.objectId : ObjectInput → Address
  | owned objectId _ _ | immutable objectId _ _ | shared objectId _ _ | receiving objectId _ _ =>
    objectId

/-- What an input says of its object, up to whether it is declared mutable: the builder declares an
object mutable if one of its inputs is. -/
inductive ObjectReference where
  | owned (objectId : Address) (version : UInt64) (digest : Digest)
  | immutable (objectId : Address) (version : UInt64) (digest : Digest)
  | shared (objectId : Address) (initialSharedVersion : UInt64)
  | receiving (objectId : Address) (version : UInt64) (digest : Digest)
  deriving DecidableEq

/-- The reference of an input. -/
def ObjectInput.reference : ObjectInput → ObjectReference
  | owned objectId version digest => .owned objectId version digest
  | immutable objectId version digest => .immutable objectId version digest
  | shared objectId initialSharedVersion _ => .shared objectId initialSharedVersion
  | receiving objectId version digest => .receiving objectId version digest

/-- `Function`: the target of a call and its type arguments. -/
structure Function where
  package : Address
  module : String
  function : String
  typeArgs : List TypeTag
  deriving DecidableEq

/-- A command over arguments of any kind. -/
inductive Command (α : Type) where
  | moveCall (function : Function) (arguments : List α)
  | transferObjects (objects : List α) (address : α)
  | splitCoins (coin : α) (amounts : List α)
  | mergeCoins (destination : α) (sources : List α)
  | makeMoveVec (type : Option TypeTag) (elements : List α)

namespace Command

variable {α β : Type}

/-- The arguments of a command. -/
def args : Command α → List α
  | moveCall _ arguments => arguments
  | transferObjects objects address => objects ++ [address]
  | splitCoins coin amounts => coin :: amounts
  | mergeCoins destination sources => destination :: sources
  | makeMoveVec _ elements => elements

/-- The command with other arguments. -/
def map (f : α → β) : Command α → Command β
  | moveCall function arguments => .moveCall function (arguments.map f)
  | transferObjects objects address => .transferObjects (objects.map f) (f address)
  | splitCoins coin amounts => .splitCoins (f coin) (amounts.map f)
  | mergeCoins destination sources => .mergeCoins (f destination) (sources.map f)
  | makeMoveVec type elements => .makeMoveVec type (elements.map f)

end Command

/-- **What an argument refers to**: the gas coin, the content of an input, or a result of the command
with this number. -/
inductive Ref where
  | gas
  | pure (bytes : List UInt8)
  | object (reference : ObjectReference)
  | withdrawal (coinType : TypeTag) (maxAmount : UInt64)
  | result (command : ℕ)
  | nested (command index : ℕ)
  deriving DecidableEq

/-- The command of a result. -/
def Ref.command? : Ref → Option ℕ
  | result command => some command
  | nested command _ => some command
  | gas | pure _ | object _ | withdrawal _ _ => none

/-! ## The builder -/

/-- `sui_transaction_builder`: the calls of its `TransactionBuilder`, and what the builder makes of
them. -/
structure BuilderLib where
  /-- `TransactionBuilder`. -/
  Builder : Type
  /-- `Argument`. -/
  Argument : Type
  new : Builder
  gas : Builder → Argument × Builder
  pureBytesUnique : List UInt8 → Builder → Argument × Builder
  object : ObjectInput → Builder → Argument × Builder
  fundsWithdrawal : TypeTag → UInt64 → Builder → Argument × Builder
  moveCall : Function → List Argument → Builder → Argument × Builder
  transferObjects : List Argument → Argument → Builder → Builder
  splitCoins : Argument → List Argument → Builder → List Argument × Builder
  mergeCoins : Argument → List Argument → Builder → Builder
  makeMoveVec : Option TypeTag → List Argument → Builder → Argument × Builder
  /-- `Argument::to_nested`. -/
  toNested : Argument → ℕ → List Argument
  /-- What an argument refers to in the transaction. -/
  refers : Builder → Argument → Option Ref
  /-- The commands of the transaction. -/
  commands : Builder → List (Command Ref)

namespace BuilderLib

variable (lib : BuilderLib)

/-- Arguments go on to refer to what they did. -/
def Keeps (b b' : lib.Builder) : Prop :=
  ∀ argument ref, lib.refers b argument = some ref → lib.refers b' argument = some ref

/-- The call adds no command, and its argument refers to this. -/
def Provides (call : lib.Builder → lib.Argument × lib.Builder) (ref : Ref) : Prop :=
  ∀ b, lib.Keeps b (call b).2 ∧ lib.commands (call b).2 = lib.commands b ∧
    lib.refers (call b).2 (call b).1 = some ref

/-- The builder has one more command. -/
def Adds (b : lib.Builder) (command : Command Ref) (b' : lib.Builder) : Prop :=
  lib.Keeps b b' ∧ lib.commands b' = lib.commands b ++ [command]

/-- The arguments refer to these, one after the other. -/
def RefersTo (b : lib.Builder) (arguments : List lib.Argument) (refs : List Ref) : Prop :=
  arguments.map (lib.refers b) = refs.map some

/-- **The builder records the calls**: the arguments it hands out refer to what they were asked for,
and each command is added behind those before. -/
structure Records : Prop where
  commands_new : lib.commands lib.new = []
  gas : lib.Provides lib.gas .gas
  pureBytesUnique : ∀ bytes, lib.Provides (lib.pureBytesUnique bytes) (.pure bytes)
  object : ∀ input, lib.Provides (lib.object input) (.object input.reference)
  fundsWithdrawal : ∀ coinType maxAmount,
    lib.Provides (lib.fundsWithdrawal coinType maxAmount) (.withdrawal coinType maxAmount)
  moveCall : ∀ function arguments refs b, lib.RefersTo b arguments refs →
    lib.Adds b (.moveCall function refs) (lib.moveCall function arguments b).2 ∧
      lib.refers (lib.moveCall function arguments b).2 (lib.moveCall function arguments b).1 =
        some (.result (lib.commands b).length)
  transferObjects : ∀ objects address refs ref b, lib.RefersTo b objects refs →
    lib.refers b address = some ref →
      lib.Adds b (.transferObjects refs ref) (lib.transferObjects objects address b)
  splitCoins : ∀ coin amounts ref refs b, lib.refers b coin = some ref →
    lib.RefersTo b amounts refs →
      lib.Adds b (.splitCoins ref refs) (lib.splitCoins coin amounts b).2 ∧
        (lib.splitCoins coin amounts b).1.map (lib.refers (lib.splitCoins coin amounts b).2) =
          (List.range amounts.length).map fun index =>
            some (.nested (lib.commands b).length index)
  mergeCoins : ∀ destination sources ref refs b, lib.refers b destination = some ref →
    lib.RefersTo b sources refs →
      lib.Adds b (.mergeCoins ref refs) (lib.mergeCoins destination sources b)
  makeMoveVec : ∀ type elements refs b, lib.RefersTo b elements refs →
    lib.Adds b (.makeMoveVec type refs) (lib.makeMoveVec type elements b).2 ∧
      lib.refers (lib.makeMoveVec type elements b).2 (lib.makeMoveVec type elements b).1 =
        some (.result (lib.commands b).length)
  toNested : ∀ b argument command count, lib.refers b argument = some (.result command) →
    (lib.toNested argument count).map (lib.refers b) =
      (List.range count).map fun index => some (.nested command index)

variable {lib}

lemma Keeps.refl (b : lib.Builder) : lib.Keeps b b := fun _ _ h => h

lemma Keeps.trans {b b' b'' : lib.Builder} (h : lib.Keeps b b') (h' : lib.Keeps b' b'') :
    lib.Keeps b b'' := fun argument ref href => h' argument ref (h argument ref href)

/-- Several arguments go on to refer to what they did. -/
lemma Keeps.map {b b' : lib.Builder} (h : lib.Keeps b b') {α : Type} {arguments : List lib.Argument}
    {l : List α} {f : α → Ref}
    (hrefers : arguments.map (lib.refers b) = l.map fun a => some (f a)) :
    arguments.map (lib.refers b') = l.map fun a => some (f a) := by
  rw [← hrefers]
  refine List.map_congr_left fun argument hargument => ?_
  have hmem : lib.refers b argument ∈ l.map fun a => some (f a) :=
    hrefers ▸ List.mem_map_of_mem hargument
  obtain ⟨a, -, ha⟩ := List.mem_map.mp hmem
  rw [← ha]
  exact h argument (f a) ha.symm

end BuilderLib

/-! ## A builder that records -/

/-- The results of a command, as they are handed out. -/
def nestedRefs : Ref → ℕ → List Ref
  | .result command, count => (List.range count).map fun index => .nested command index
  | _, _ => []

/-- A builder whose arguments are what they refer to. -/
def recorder : BuilderLib where
  Builder := List (Command Ref)
  Argument := Ref
  new := []
  gas commands := (.gas, commands)
  pureBytesUnique bytes commands := (.pure bytes, commands)
  object input commands := (.object input.reference, commands)
  fundsWithdrawal coinType maxAmount commands := (.withdrawal coinType maxAmount, commands)
  moveCall function arguments commands :=
    (.result commands.length, commands ++ [.moveCall function arguments])
  transferObjects objects address commands := commands ++ [.transferObjects objects address]
  splitCoins coin amounts commands :=
    ((List.range amounts.length).map fun index => .nested commands.length index,
      commands ++ [.splitCoins coin amounts])
  mergeCoins destination sources commands := commands ++ [.mergeCoins destination sources]
  makeMoveVec type elements commands :=
    (.result commands.length, commands ++ [.makeMoveVec type elements])
  toNested := nestedRefs
  refers _ argument := some argument
  commands commands := commands

/-- The calls are recorded. -/
lemma records_recorder : recorder.Records where
  commands_new := rfl
  gas _ := ⟨fun _ _ h => h, rfl, rfl⟩
  pureBytesUnique _ _ := ⟨fun _ _ h => h, rfl, rfl⟩
  object _ _ := ⟨fun _ _ h => h, rfl, rfl⟩
  fundsWithdrawal _ _ _ := ⟨fun _ _ h => h, rfl, rfl⟩
  moveCall function arguments refs b h := by
    obtain rfl : arguments = refs := List.map_injective_iff.mpr (Option.some_injective Ref) h
    exact ⟨⟨fun _ _ h => h, rfl⟩, rfl⟩
  transferObjects objects address refs ref b h haddress := by
    obtain rfl : objects = refs := List.map_injective_iff.mpr (Option.some_injective Ref) h
    obtain rfl : address = ref := Option.some.inj haddress
    exact ⟨fun _ _ h => h, rfl⟩
  splitCoins coin amounts ref refs b hcoin h := by
    obtain rfl : amounts = refs := List.map_injective_iff.mpr (Option.some_injective Ref) h
    obtain rfl : coin = ref := Option.some.inj hcoin
    refine ⟨⟨fun _ _ h => h, rfl⟩, ?_⟩
    exact List.map_map
  mergeCoins destination sources ref refs b hdestination h := by
    obtain rfl : sources = refs := List.map_injective_iff.mpr (Option.some_injective Ref) h
    obtain rfl : destination = ref := Option.some.inj hdestination
    exact ⟨fun _ _ h => h, rfl⟩
  makeMoveVec type elements refs b h := by
    obtain rfl : elements = refs := List.map_injective_iff.mpr (Option.some_injective Ref) h
    exact ⟨⟨fun _ _ h => h, rfl⟩, rfl⟩
  toNested b argument command count h := by
    obtain rfl : argument = .result command := Option.some.inj h
    exact List.map_map

end GemCore.Sui

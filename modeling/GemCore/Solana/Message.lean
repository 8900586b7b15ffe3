import GemCore.Lib.Result
import GemCore.Lib.Bytes
import GemCore.Primitives.SignerError

/-!
# Compilation of Solana legacy messages

A list of instructions, each with its program and its accounts, becomes a message with one
list of keys, a header that tells their privileges and instructions that refer to the keys by
a byte (`gem_solana/src/signer/transaction.rs`). A `HashMap` is modelled by the function from
keys to entries.

## Main definitions

* `Instruction`, `Message` — what is compiled, and into what.
* `mergeAccount` — one account's flags joined to those found so far.
* `buildLegacyTransaction` — `build_legacy_transaction`.
-/

namespace GemCore.Solana

open Lib

/-- `Pubkey`. -/
abbrev Pubkey := FixedBytes 32

/-- `AccountMeta`: an account as an instruction uses it. -/
structure AccountMeta where
  pubkey : Pubkey
  isSigner : Bool
  isWritable : Bool

/-- `Instruction`. -/
structure Instruction where
  programId : Pubkey
  accounts : List AccountMeta
  data : List UInt8

/-- `CompiledInstruction`: keys are referred to by their index. -/
structure CompiledInstruction where
  programIdIndex : UInt8
  accounts : List UInt8
  data : List UInt8
  deriving DecidableEq

/-- `MessageHeader`. -/
structure MessageHeader where
  numRequiredSignatures : UInt8
  numReadonlySignedAccounts : UInt8
  numReadonlyUnsignedAccounts : UInt8
  deriving DecidableEq

/-- `Message`. -/
structure Message where
  header : MessageHeader
  accountKeys : List Pubkey
  recentBlockhash : FixedBytes 32
  instructions : List CompiledInstruction
  deriving DecidableEq

/-- `Transaction`: a message and a placeholder for each signature. -/
structure Transaction where
  signatures : List (FixedBytes 64)
  message : Message
  deriving DecidableEq

/-! ## Merging accounts -/

/-- `AccountFlags`. -/
structure AccountFlags where
  isSigner : Bool
  isWritable : Bool

/-- `merge_account`: the flags of a key are joined to those it has; a key without flags is
also appended to the order. -/
def mergeAccount (flags : Pubkey → Option AccountFlags) (order : List Pubkey) (pubkey : Pubkey)
    (isSigner isWritable : Bool) : (Pubkey → Option AccountFlags) × List Pubkey :=
  match flags pubkey with
  | some found =>
    (Function.update flags pubkey
      (some ⟨found.isSigner || isSigner, found.isWritable || isWritable⟩), order)
  | none => (Function.update flags pubkey (some ⟨isSigner, isWritable⟩), order ++ [pubkey])

/-- The variables of the merging loops. -/
structure Merge where
  flags : Pubkey → Option AccountFlags
  accountOrder : List Pubkey
  programOrder : List Pubkey

/-- One account of an instruction. -/
def Merge.account (state : Merge) (account : AccountMeta) : Merge :=
  let (flags, order) := mergeAccount state.flags state.accountOrder account.pubkey
    account.isSigner account.isWritable
  { state with flags := flags, accountOrder := order }

/-- The program of an instruction. -/
def Merge.program (state : Merge) (programId : Pubkey) : Merge :=
  let (flags, order) := mergeAccount state.flags state.programOrder programId false false
  { state with flags := flags, programOrder := order }

/-- The accounts of an instruction, then its program. -/
def Merge.instruction (state : Merge) (instruction : Instruction) : Merge :=
  (instruction.accounts.foldl Merge.account state).program instruction.programId

/-- The fee payer, then the instructions. -/
def mergeInstructions (feePayer : Pubkey) (instructions : List Instruction) : Merge :=
  instructions.foldl Merge.instruction
    (Merge.account ⟨fun _ => none, [], []⟩ ⟨feePayer, true, true⟩)

/-! ## Ordering keys -/

/-- The four privilege classes (`buckets`). -/
structure Buckets where
  writableSigners : List Pubkey
  readonlySigners : List Pubkey
  writableOthers : List Pubkey
  readonlyOthers : List Pubkey

/-- A key appended to the class of its flags. -/
def Buckets.push (buckets : Buckets) (pubkey : Pubkey) (flags : AccountFlags) : Buckets :=
  match flags.isSigner, flags.isWritable with
  | true, true => { buckets with writableSigners := buckets.writableSigners ++ [pubkey] }
  | true, false => { buckets with readonlySigners := buckets.readonlySigners ++ [pubkey] }
  | false, true => { buckets with writableOthers := buckets.writableOthers ++ [pubkey] }
  | false, false => { buckets with readonlyOthers := buckets.readonlyOthers ++ [pubkey] }

/-- The loop that sorts keys into classes. -/
def fillBuckets (flags : Pubkey → Option AccountFlags) :
    List Pubkey → Buckets → Except SignerError Buckets
  | [], buckets => .ok buckets
  | pubkey :: rest, buckets =>
    match flags pubkey with
    | none => .error (.invalidInput "missing Solana account flags")
    | some found => fillBuckets flags rest (buckets.push pubkey found)

/-- `account_keys`: the fee payer, then the classes in turn. -/
def accountKeys (feePayer : Pubkey) (buckets : Buckets) : List Pubkey :=
  feePayer :: (buckets.writableSigners.filter (· ≠ feePayer) ++ buckets.readonlySigners ++
    buckets.writableOthers ++ buckets.readonlyOthers)

/-! ## Compiling instructions -/

/-- One entry of `key_to_index`: a later index overwrites an earlier one of the same key. -/
def insertIndex (map : Pubkey → Option UInt8) (entry : Pubkey × ℕ) : Pubkey → Option UInt8 :=
  Function.update map entry.1 (some (UInt8.ofNat entry.2))

/-- `key_to_index`. -/
def keyToIndex (keys : List Pubkey) : Pubkey → Option UInt8 :=
  keys.zipIdx.foldl insertIndex fun _ => none

/-- `account_index`. -/
def accountIndex (map : Pubkey → Option UInt8) (pubkey : Pubkey) : Except SignerError UInt8 :=
  match map pubkey with
  | some index => .ok index
  | none => .error (.invalidInput "missing Solana account key")

/-- One compiled instruction. -/
def compileInstruction (map : Pubkey → Option UInt8) (instruction : Instruction) :
    Except SignerError CompiledInstruction := do
  let programIdIndex ← accountIndex map instruction.programId
  let accounts ← tryMap (fun account => accountIndex map account.pubkey) instruction.accounts
  .ok ⟨programIdIndex, accounts, instruction.data⟩

/-- `build_legacy_transaction`. -/
def buildLegacyTransaction (feePayer : Pubkey) (recentBlockhash : FixedBytes 32)
    (instructions : List Instruction) : Except SignerError Transaction := do
  let merge := mergeInstructions feePayer instructions
  let buckets ← fillBuckets merge.flags (merge.accountOrder ++ merge.programOrder) ⟨[], [], [], []⟩
  let numRequiredSignatures := buckets.writableSigners.length + buckets.readonlySigners.length
  let keys := accountKeys feePayer buckets
  if keys.length > 255 ∨ numRequiredSignatures > 255 then
    .error (.invalidInput "Solana transaction has too many account keys")
  else do
    let compiled ← tryMap (compileInstruction (keyToIndex keys)) instructions
    .ok {
      signatures := List.replicate numRequiredSignatures (.zeros 64)
      message := {
        header := {
          numRequiredSignatures := UInt8.ofNat numRequiredSignatures
          numReadonlySignedAccounts := UInt8.ofNat buckets.readonlySigners.length
          numReadonlyUnsignedAccounts := UInt8.ofNat buckets.readonlyOthers.length }
        accountKeys := keys
        recentBlockhash := recentBlockhash
        instructions := compiled } }

end GemCore.Solana

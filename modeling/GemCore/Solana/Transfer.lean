import GemCore.Primitives.Base58
import GemCore.Primitives.TransactionLoad
import GemCore.Solana.Message

/-!
# Transfers recognised in Solana transactions

`simple_transfer` of `gem_solana/src/transaction.rs`: a transaction that somebody else built is shown as a
plain transfer when all that it does is one transfer, with instructions beside it that create token
accounts, leave a memo or set the compute budget.

## Main definitions

* `VersionedTransaction` — a decoded transaction, with or without lookup tables.
* `systemTransfer`, `tokenTransfer` — the two instructions that are read.
* `decodeTransfer`, `simpleTransfer` — the loop over the instructions.
-/

namespace GemCore.Solana

open Lib

/-! ## Transactions -/

/-- `Pubkey::to_base58`. -/
def toBase58 (pubkey : Pubkey) : String := Base58.encode pubkey.val

/-- `AddressLookupTableLookup`: keys that a validator loads from the table of an account. -/
structure AddressTableLookup where
  accountKey : Pubkey
  writableIndexes : List UInt8
  readonlyIndexes : List UInt8

/-- `VersionedTransaction`. -/
inductive VersionedTransaction where
  | legacy (signatures : List (FixedBytes 64)) (message : Message)
  | v0 (signatures : List (FixedBytes 64)) (message : Message)
      (addressTableLookups : List AddressTableLookup)

/-- The message of a transaction, without its lookup tables. -/
def VersionedTransaction.message : VersionedTransaction → Message
  | legacy _ message => message
  | v0 _ message _ => message

/-- `account_keys`: the static ones. -/
def VersionedTransaction.accountKeys (transaction : VersionedTransaction) : List Pubkey :=
  transaction.message.accountKeys

/-- `instructions`. -/
def VersionedTransaction.instructions (transaction : VersionedTransaction) : List CompiledInstruction :=
  transaction.message.instructions

/-- `SolanaTransfer`. -/
structure SolanaTransfer where
  assetId : AssetId
  recipient : String
  value : ℕ

/-! ## Programs -/

/-- `SYSTEM_PROGRAM_ID`. -/
def systemProgramId : String := "11111111111111111111111111111111"

/-- `TOKEN_PROGRAM_ID`. -/
def tokenProgramId : String := "TokenkegQfeZyiNwAJbNbGKPFXCWuBvf9Ss623VQ5DA"

/-- `TOKEN_2022_PROGRAM_ID`. -/
def token2022ProgramId : String := "TokenzQdBNbLqP5VEhdkAS6EPFLC1PHnBqCXEpPxuEb"

/-- `ASSOCIATED_TOKEN_PROGRAM_ID`. -/
def associatedTokenProgramId : String := "ATokenGPvbdGVxr1b2hvZbsiqW5xWH25efTNsLJA8knL"

/-- `MEMO_PROGRAM_ID`. -/
def memoProgramId : String := "MemoSq4gqABAXKb96qnH8TysNcWxMyWCqXgDLGmfcHr"

/-- `COMPUTE_BUDGET_PROGRAM_ID`. -/
def computeBudgetProgramId : String := "ComputeBudget111111111111111111111111111111"

/-! ## Instructions -/

/-- The program of an instruction, where it is a static key. -/
def instructionProgram (instruction : CompiledInstruction) (accountKeys : List Pubkey) : Option String :=
  (accountKeys[instruction.programIdIndex.toNat]?).map toBase58

/-- `instruction_account`. -/
def instructionAccount (instruction : CompiledInstruction) (accountKeys : List Pubkey)
    (position : ℕ) : Option Pubkey := do
  let index ← instruction.accounts[position]?
  accountKeys[index.toNat]?

/-- `authorized`. -/
def authorized (account : Pubkey) : Option Pubkey → Bool
  | some signer => account = signer
  | none => true

/-- `system_transfer`. -/
def systemTransfer (instruction : CompiledInstruction) (accountKeys : List Pubkey)
    (signer : Option Pubkey) : Option SolanaTransfer :=
  if instruction.data.length ≠ 12 ∨ instruction.data.take 4 ≠ leBytes 4 2 then none
  else do
    let source ← instructionAccount instruction accountKeys 0
    if authorized source signer then
      let recipient ← instructionAccount instruction accountKeys 1
      some ⟨⟨.solana, none⟩, toBase58 recipient, ofLe (instruction.data.drop 4)⟩
    else none

/-- What `associated_token_owner` looks for in an instruction: the owner that it names for a token
account. -/
def createdOwner (accountKeys : List Pubkey) (tokenAccount : Pubkey)
    (instruction : CompiledInstruction) : Option Pubkey := do
  let program ← instructionProgram instruction accountKeys
  let createsAccount := instruction.data = [] ∨ instruction.data = [1]
  if program ≠ associatedTokenProgramId ∨ ¬ createsAccount then none
  else do
    let account ← instructionAccount instruction accountKeys 1
    if account ≠ tokenAccount then none
    else instructionAccount instruction accountKeys 2

/-- `associated_token_owner`. -/
def associatedTokenOwner (transaction : VersionedTransaction) (tokenAccount : Pubkey) :
    Option Pubkey :=
  transaction.instructions.findSome? (createdOwner transaction.accountKeys tokenAccount)

/-- `token_transfer`. -/
def tokenTransfer (transaction : VersionedTransaction) (instruction : CompiledInstruction)
    (accountKeys : List Pubkey) (signer : Option Pubkey) : Option SolanaTransfer :=
  if instruction.data.length ≠ 10 ∨ instruction.data.head? ≠ some 12 then none
  else do
    let authority ← instructionAccount instruction accountKeys 3
    if authorized authority signer then
      let mint ← instructionAccount instruction accountKeys 1
      let tokenAccount ← instructionAccount instruction accountKeys 2
      let recipient := (associatedTokenOwner transaction tokenAccount).getD tokenAccount
      some ⟨⟨.solana, some (toBase58 mint)⟩, toBase58 recipient,
        ofLe ((instruction.data.drop 1).take 8)⟩
    else none

/-! ## The loop -/

/-- The body of the loop: `none` where the loop is left, `some none` for an instruction that transfers
nothing. -/
def decodeInstruction (transaction : VersionedTransaction) (signer : Option Pubkey)
    (instruction : CompiledInstruction) : Option (Option SolanaTransfer) := do
  let accountKeys := transaction.accountKeys
  let program ← instructionProgram instruction accountKeys
  if program = systemProgramId then
    (systemTransfer instruction accountKeys signer).map some
  else if program = tokenProgramId ∨ program = token2022ProgramId then
    (tokenTransfer transaction instruction accountKeys signer).map some
  else if program = associatedTokenProgramId ∨ program = memoProgramId ∨
      program = computeBudgetProgramId then
    some none
  else none

/-- The loop of `decode_transfer`, with the transfer that was found so far. -/
def decodeTransferLoop (transaction : VersionedTransaction) (signer : Option Pubkey) :
    List CompiledInstruction → Option SolanaTransfer → Option SolanaTransfer
  | [], transfer => transfer
  | instruction :: rest, transfer => do
    match ← decodeInstruction transaction signer instruction with
    | none => decodeTransferLoop transaction signer rest transfer
    | some decoded =>
      if transfer.isSome then none else decodeTransferLoop transaction signer rest (some decoded)

/-- `decode_transfer`. -/
def decodeTransfer (transaction : VersionedTransaction) (signer : Option Pubkey) :
    Option SolanaTransfer :=
  decodeTransferLoop transaction signer transaction.instructions none

/-- `simple_transfer`. -/
def simpleTransfer (transaction : VersionedTransaction) (signer : Pubkey) : Option SolanaTransfer :=
  decodeTransfer transaction (some signer)

end GemCore.Solana

import GemCore.Solana.Compilation
import GemCore.Solana.Transfer

/-!
# A recognised transfer is all a transaction does

Which transactions `simple_transfer` recognises, what it shows of them, and that nothing else leaves the
accounts of the signer when a validator executes them, whatever keys it loads from lookup tables.

## Main definitions

* `IsSystemTransfer`, `IsTokenTransfer`, `IsAuxiliary` — what the instructions of a recognised
  transaction are.
* `CreatesFor` — an instruction that creates a token account for an owner.
* `Runtime` — what the programs of the chain take out of the accounts of a signer.

## Main results

* `decodeInstruction_spec` — the body of the loop.
* `decodeTransferLoop_eq_some_iff` — the loop.
* `simpleTransfer_spec` — when a transfer is recognised, and what it is.
-/

namespace GemCore.Solana

open Lib

/-! ## What the instructions have to be -/

/-- A `Transfer` of the system program, signed by `signer`: its data, its source and its recipient. -/
structure IsSystemTransfer (accountKeys : List Pubkey) (signer : Pubkey)
    (instruction : CompiledInstruction) (recipient : Pubkey) (amount : ℕ) : Prop where
  program : instructionProgram instruction accountKeys = some systemProgramId
  data : ∃ bytes : FixedBytes 8, instruction.data = leBytes 4 2 ++ bytes.val ∧
    amount = ofLe bytes.val
  source : instructionAccount instruction accountKeys 0 = some signer
  recipient : instructionAccount instruction accountKeys 1 = some recipient

/-- A `TransferChecked` of one of the token programs, signed by `signer`: its data, its mint, its
destination and its authority. -/
structure IsTokenTransfer (accountKeys : List Pubkey) (signer : Pubkey)
    (instruction : CompiledInstruction) (mint destination : Pubkey) (amount : ℕ) : Prop where
  program : instructionProgram instruction accountKeys = some tokenProgramId ∨
    instructionProgram instruction accountKeys = some token2022ProgramId
  data : ∃ (bytes : FixedBytes 8) (decimals : UInt8),
    instruction.data = 12 :: (bytes.val ++ [decimals]) ∧ amount = ofLe bytes.val
  authority : instructionAccount instruction accountKeys 3 = some signer
  mint : instructionAccount instruction accountKeys 1 = some mint
  destination : instructionAccount instruction accountKeys 2 = some destination

/-- An instruction of the programs that transfer nothing. -/
def IsAuxiliary (accountKeys : List Pubkey) (instruction : CompiledInstruction) : Prop :=
  instructionProgram instruction accountKeys = some associatedTokenProgramId ∨
    instructionProgram instruction accountKeys = some memoProgramId ∨
    instructionProgram instruction accountKeys = some computeBudgetProgramId

/-- What an instruction is shown as when it is a transfer. -/
inductive Shows (transaction : VersionedTransaction) (signer : Pubkey)
    (instruction : CompiledInstruction) : SolanaTransfer → Prop
  | system {recipient : Pubkey} {amount : ℕ}
      (h : IsSystemTransfer transaction.accountKeys signer instruction recipient amount) :
      Shows transaction signer instruction ⟨⟨.solana, none⟩, toBase58 recipient, amount⟩
  | token {mint destination : Pubkey} {amount : ℕ}
      (h : IsTokenTransfer transaction.accountKeys signer instruction mint destination amount) :
      Shows transaction signer instruction ⟨⟨.solana, some (toBase58 mint)⟩,
        toBase58 ((associatedTokenOwner transaction destination).getD destination), amount⟩

/-! ## One instruction -/

variable {transaction : VersionedTransaction} {signer : Pubkey} {instruction : CompiledInstruction}
  {accountKeys : List Pubkey} {t : SolanaTransfer}

lemma authorized_some_iff {account : Pubkey} :
    authorized account (some signer) = true ↔ account = signer := by
  simp [authorized]

/-- Twelve bytes of data that start with the number of a transfer. -/
lemma systemData_iff (data : List UInt8) :
    ¬ (data.length ≠ 12 ∨ data.take 4 ≠ leBytes 4 2) ↔
      ∃ bytes : FixedBytes 8, data = leBytes 4 2 ++ bytes.val := by
  constructor
  · intro h
    rw [not_or, not_not, not_not] at h
    obtain ⟨hlength, htake⟩ := h
    refine ⟨⟨data.drop 4, by rw [List.length_drop, hlength]⟩, ?_⟩
    calc data = data.take 4 ++ data.drop 4 := (List.take_append_drop 4 data).symm
      _ = leBytes 4 2 ++ data.drop 4 := by rw [htake]
  · rintro ⟨bytes, rfl⟩ h
    have hlength := bytes.property
    rcases h with h | h
    · exact h (by rw [List.length_append, length_leBytes, hlength])
    · exact h (List.take_left' (length_leBytes 4 2))

/-- Ten bytes of data that start with the number of a checked transfer. -/
lemma tokenData_iff (data : List UInt8) :
    ¬ (data.length ≠ 10 ∨ data.head? ≠ some 12) ↔
      ∃ (bytes : FixedBytes 8) (decimals : UInt8), data = 12 :: (bytes.val ++ [decimals]) := by
  constructor
  · intro h
    rw [not_or, not_not, not_not, List.head?_eq_some_iff] at h
    obtain ⟨hlength, rest, rfl⟩ := h
    have hrest : rest.length = 9 := by simpa using hlength
    obtain ⟨decimals, hdecimals⟩ : ∃ decimals, rest.drop 8 = [decimals] :=
      List.length_eq_one_iff.1 (by rw [List.length_drop, hrest])
    refine ⟨⟨rest.take 8, by rw [List.length_take, hrest]; rfl⟩, decimals, ?_⟩
    rw [← hdecimals, List.take_append_drop]
  · rintro ⟨bytes, decimals, rfl⟩ h
    have hlength := bytes.property
    rcases h with h | h
    · exact h (by simp [hlength])
    · exact h rfl

/-- When one of the system program is. -/
lemma systemTransfer_eq_some_iff
    (hprogram : instructionProgram instruction accountKeys = some systemProgramId) :
    systemTransfer instruction accountKeys (some signer) = some t ↔
      ∃ recipient amount, IsSystemTransfer accountKeys signer instruction recipient amount ∧
        t = ⟨⟨.solana, none⟩, toBase58 recipient, amount⟩ := by
  unfold systemTransfer
  split
  case isTrue h =>
    constructor
    · intro h'
      cases h'
    · rintro ⟨recipient, amount, ⟨_, ⟨bytes, hdata, _⟩, _, _⟩, _⟩
      exact absurd h ((systemData_iff _).2 ⟨bytes, hdata⟩)
  case isFalse h =>
    obtain ⟨bytes, hdata⟩ := (systemData_iff _).1 h
    have hamount : instruction.data.drop 4 = bytes.val := by
      rw [hdata, List.drop_left' (length_leBytes 4 2)]
    simp only [Option.bind_eq_bind, Option.bind_eq_some_iff]
    constructor
    · rintro ⟨source, hsource, ht⟩
      split at ht
      case isFalse => cases ht
      case isTrue hauthorized =>
        obtain ⟨recipient, hrecipient, ht⟩ := Option.bind_eq_some_iff.1 ht
        rw [authorized_some_iff] at hauthorized
        cases ht
        exact ⟨recipient, _, ⟨hprogram, ⟨bytes, hdata, by rw [hamount]⟩, hauthorized ▸ hsource,
          hrecipient⟩, rfl⟩
    · rintro ⟨recipient, amount, ⟨_, ⟨bytes', hdata', rfl⟩, hsource, hrecipient⟩, rfl⟩
      have hbytes : bytes = bytes' :=
        Subtype.ext (List.append_cancel_left (hdata.symm.trans hdata'))
      refine ⟨signer, hsource, ?_⟩
      rw [if_pos (authorized_some_iff.2 rfl), hrecipient, hamount, hbytes]
      rfl

/-- When an instruction of a token program is read as a transfer. -/
lemma tokenTransfer_eq_some_iff
    (hprogram : instructionProgram instruction transaction.accountKeys = some tokenProgramId ∨
      instructionProgram instruction transaction.accountKeys = some token2022ProgramId) :
    tokenTransfer transaction instruction transaction.accountKeys (some signer) = some t ↔
      ∃ mint destination amount,
        IsTokenTransfer transaction.accountKeys signer instruction mint destination amount ∧
        t = ⟨⟨.solana, some (toBase58 mint)⟩,
          toBase58 ((associatedTokenOwner transaction destination).getD destination), amount⟩ := by
  unfold tokenTransfer
  split
  case isTrue h =>
    constructor
    · intro h'
      cases h'
    · rintro ⟨mint, destination, amount, ⟨_, ⟨bytes, decimals, hdata, _⟩, _, _, _⟩, _⟩
      exact absurd h ((tokenData_iff _).2 ⟨bytes, decimals, hdata⟩)
  case isFalse h =>
    obtain ⟨bytes, decimals, hdata⟩ := (tokenData_iff _).1 h
    have hamount : (instruction.data.drop 1).take 8 = bytes.val := by
      rw [hdata, List.drop_one, List.tail_cons, List.take_left' bytes.property]
    simp only [Option.bind_eq_bind, Option.bind_eq_some_iff]
    constructor
    · rintro ⟨authority, hauthority, ht⟩
      split at ht
      case isFalse => cases ht
      case isTrue hauthorized =>
        obtain ⟨mint, hmint, ht⟩ := Option.bind_eq_some_iff.1 ht
        obtain ⟨destination, hdestination, ht⟩ := Option.bind_eq_some_iff.1 ht
        rw [authorized_some_iff] at hauthorized
        cases ht
        exact ⟨mint, destination, _, ⟨hprogram, ⟨bytes, decimals, hdata, by rw [hamount]⟩,
          hauthorized ▸ hauthority, hmint, hdestination⟩, rfl⟩
    · rintro ⟨mint, destination, amount, ⟨_, ⟨bytes', decimals', hdata', rfl⟩, hauthority, hmint,
        hdestination⟩, rfl⟩
      have hbytes : bytes = bytes' := by
        have htail := (List.cons.inj (hdata.symm.trans hdata')).2
        exact Subtype.ext (List.append_inj_left htail (bytes.property.trans bytes'.property.symm))
      refine ⟨signer, hauthority, ?_⟩
      rw [if_pos (authorized_some_iff.2 rfl), hmint, hamount, hbytes]
      simp [hdestination]

lemma shows_of_systemTransfer
    (hprogram : instructionProgram instruction transaction.accountKeys = some systemProgramId) :
    systemTransfer instruction transaction.accountKeys (some signer) = some t ↔
      Shows transaction signer instruction t := by
  rw [systemTransfer_eq_some_iff hprogram]
  constructor
  · rintro ⟨recipient, amount, h, rfl⟩
    exact .system h
  · rintro (⟨h⟩ | ⟨h⟩)
    · exact ⟨_, _, h, rfl⟩
    · rcases h.program with h | h <;> exact absurd (hprogram.symm.trans h) (by decide)

lemma shows_of_tokenTransfer
    (hprogram : instructionProgram instruction transaction.accountKeys = some tokenProgramId ∨
      instructionProgram instruction transaction.accountKeys = some token2022ProgramId) :
    tokenTransfer transaction instruction transaction.accountKeys (some signer) = some t ↔
      Shows transaction signer instruction t := by
  rw [tokenTransfer_eq_some_iff hprogram]
  constructor
  · rintro ⟨mint, destination, amount, h, rfl⟩
    exact .token h
  · rintro (⟨h⟩ | ⟨h⟩)
    · rcases hprogram with hprogram | hprogram <;>
        exact absurd (hprogram.symm.trans h.program) (by decide)
    · exact ⟨_, _, _, h, rfl⟩

/-- **What the body of the loop makes of an instruction**: it goes on without a transfer exactly at the
programs that transfer nothing, and finds a transfer exactly where one is shown. -/
theorem decodeInstruction_spec (transaction : VersionedTransaction) (signer : Pubkey)
    (instruction : CompiledInstruction) :
    (decodeInstruction transaction (some signer) instruction = some none ↔
      IsAuxiliary transaction.accountKeys instruction) ∧
    ∀ t, decodeInstruction transaction (some signer) instruction = some (some t) ↔
      Shows transaction signer instruction t := by
  have hnone : ∀ t, Shows transaction signer instruction t →
      instructionProgram instruction transaction.accountKeys = some systemProgramId ∨
      instructionProgram instruction transaction.accountKeys = some tokenProgramId ∨
      instructionProgram instruction transaction.accountKeys = some token2022ProgramId := by
    rintro t (⟨h⟩ | ⟨h⟩)
    · exact .inl h.program
    · exact .inr h.program
  unfold decodeInstruction IsAuxiliary
  cases hprogram : instructionProgram instruction transaction.accountKeys with
  | none => simpa [hprogram] using hnone
  | some program =>
    simp only [hprogram, Option.some.injEq, Option.bind_eq_bind, Option.bind_some] at hnone ⊢
    split
    case isTrue hsystem =>
      subst hsystem
      refine ⟨?_, fun t => ?_⟩
      · simp only [Option.map_eq_some_iff, reduceCtorEq, and_false, exists_false, false_iff]
        decide
      · rw [← shows_of_systemTransfer hprogram]
        simp
    case isFalse hsystem =>
      split
      case isTrue htoken =>
        refine ⟨?_, fun t => ?_⟩
        · simp only [Option.map_eq_some_iff, reduceCtorEq, and_false, exists_false, false_iff]
          rcases htoken with rfl | rfl
          · decide
          · decide
        · rw [← shows_of_tokenTransfer (by simpa [hprogram] using htoken)]
          simp
      case isFalse htoken =>
        have hshows : ∀ t, ¬ Shows transaction signer instruction t := fun t h =>
          (hnone t h).elim hsystem htoken
        split
        case isTrue haux => simp [haux, hshows]
        case isFalse haux => simp [haux, hshows]

/-! ## The loop -/

/-- **The loop**: a transfer comes out exactly when everything else transfers nothing and there is one,
which was found before or is shown by one of the instructions. -/
theorem decodeTransferLoop_eq_some_iff (instructions : List CompiledInstruction) :
    ∀ found, decodeTransferLoop transaction (some signer) instructions found = some t ↔
      (found = some t ∧ ∀ i ∈ instructions, IsAuxiliary transaction.accountKeys i) ∨
      found = none ∧ ∃ before instruction after, instructions = before ++ instruction :: after ∧
        (∀ i ∈ before ++ after, IsAuxiliary transaction.accountKeys i) ∧
        Shows transaction signer instruction t := by
  induction instructions with
  | nil => simp [decodeTransferLoop]
  | cons first rest ih =>
    intro found
    obtain ⟨haux, hshows⟩ := decodeInstruction_spec transaction signer first
    rw [exists_split_cons_iff, List.forall_mem_cons, ← haux, ← hshows]
    unfold decodeTransferLoop
    cases hdecoded : decodeInstruction transaction (some signer) first with
    | none => simp
    | some decoded =>
      cases decoded with
      | none => simpa using ih found
      | some d =>
        cases found with
        | some earlier => simp
        | none => simpa using ih (some d)

/-- A transaction is recognised exactly when one of its instructions is shown and all others transfer
nothing. -/
theorem simpleTransfer_eq_some_iff :
    simpleTransfer transaction signer = some t ↔
      ∃ before instruction after, transaction.instructions = before ++ instruction :: after ∧
        (∀ i ∈ before ++ after, IsAuxiliary transaction.accountKeys i) ∧
        Shows transaction signer instruction t := by
  rw [simpleTransfer, decodeTransfer, decodeTransferLoop_eq_some_iff]
  simp

/-! ## The recipient -/

/-- An instruction of the associated token program that names an owner for a token account. -/
structure NamesOwner (accountKeys : List Pubkey) (instruction : CompiledInstruction)
    (tokenAccount owner : Pubkey) : Prop where
  program : instructionProgram instruction accountKeys = some associatedTokenProgramId
  account : instructionAccount instruction accountKeys 1 = some tokenAccount
  owner : instructionAccount instruction accountKeys 2 = some owner

/-- That it is one which creates the account, as the source knows it. -/
def CreatesFor (accountKeys : List Pubkey) (instruction : CompiledInstruction)
    (tokenAccount owner : Pubkey) : Prop :=
  NamesOwner accountKeys instruction tokenAccount owner ∧
    (instruction.data = [] ∨ instruction.data = [1])

lemma createdOwner_eq_some_iff {tokenAccount owner : Pubkey} :
    createdOwner accountKeys tokenAccount instruction = some owner ↔
      CreatesFor accountKeys instruction tokenAccount owner := by
  unfold createdOwner CreatesFor
  simp only [Option.bind_eq_bind, Option.bind_eq_some_iff]
  constructor
  · rintro ⟨program, hprogram, h⟩
    split at h
    case isTrue => cases h
    case isFalse hcreates =>
      rw [not_or, not_not, not_not] at hcreates
      obtain ⟨account, haccount, h⟩ := Option.bind_eq_some_iff.1 h
      split at h
      case isTrue => cases h
      case isFalse hsame =>
        rw [not_not] at hsame
        exact ⟨⟨hcreates.1 ▸ hprogram, hsame ▸ haccount, h⟩, hcreates.2⟩
  · rintro ⟨⟨hprogram, haccount, howner⟩, hcreates⟩
    refine ⟨_, hprogram, ?_⟩
    simp [hcreates, haccount, howner]

/-- The first instruction that creates a token account names its owner. -/
lemma associatedTokenOwner_eq_some {tokenAccount owner : Pubkey}
    {before after : List CompiledInstruction}
    (hinstructions : transaction.instructions = before ++ instruction :: after)
    (hcreates : CreatesFor transaction.accountKeys instruction tokenAccount owner)
    (hfirst : ∀ i ∈ before, ∀ o, ¬ CreatesFor transaction.accountKeys i tokenAccount o) :
    associatedTokenOwner transaction tokenAccount = some owner := by
  rw [associatedTokenOwner, hinstructions, List.findSome?_append]
  have hnone : before.findSome? (createdOwner transaction.accountKeys tokenAccount) = none := by
    rw [List.findSome?_eq_none_iff]
    intro i hi
    rw [Option.eq_none_iff_forall_ne_some]
    exact fun o h => hfirst i hi o (createdOwner_eq_some_iff.1 h)
  rw [hnone, List.findSome?_cons, createdOwner_eq_some_iff.2 hcreates]
  rfl

/-- Without an instruction that names an owner there is none. -/
lemma associatedTokenOwner_eq_none {tokenAccount : Pubkey}
    (h : ∀ i ∈ transaction.instructions, ∀ o, ¬ NamesOwner transaction.accountKeys i tokenAccount o) :
    associatedTokenOwner transaction tokenAccount = none := by
  rw [associatedTokenOwner, List.findSome?_eq_none_iff]
  intro i hi
  rw [Option.eq_none_iff_forall_ne_some]
  exact fun o hcreated => h i hi o (createdOwner_eq_some_iff.1 hcreated).1

/-! ## What a validator executes -/

/-- Something taken out of the accounts of a signer. -/
structure Taking where
  assetId : AssetId
  destination : Pubkey
  amount : ℕ

/-- The programs of the chain: what an instruction, with its program, its accounts and its data, takes out
of the accounts of a signer apart from network fees and the rent of accounts that it creates. -/
structure Runtime where
  takes : Pubkey → Pubkey × List Pubkey × List UInt8 → List Taking

/-- What is documented of the programs. A transfer takes no more than its data say: a signer may also be
the delegate of somebody else's account. -/
structure Runtime.Lawful (runtime : Runtime) : Prop where
  auxiliary : ∀ signer program accounts data, toBase58 program = associatedTokenProgramId ∨
    toBase58 program = memoProgramId ∨ toBase58 program = computeBudgetProgramId →
    runtime.takes signer (program, accounts, data) = []
  system : ∀ signer program source recipient accounts (amount : FixedBytes 8),
    toBase58 program = systemProgramId →
    (runtime.takes signer (program, source :: recipient :: accounts,
      leBytes 4 2 ++ amount.val)).Sublist [⟨⟨.solana, none⟩, recipient, ofLe amount.val⟩]
  token : ∀ signer program source mint destination authority accounts (amount : FixedBytes 8)
    (decimals : UInt8), toBase58 program = tokenProgramId ∨ toBase58 program = token2022ProgramId →
    (runtime.takes signer (program, source :: mint :: destination :: authority :: accounts,
      12 :: (amount.val ++ [decimals]))).Sublist
        [⟨⟨.solana, some (toBase58 mint)⟩, destination, ofLe amount.val⟩]

/-- What an instruction takes when it is read through the static keys and those loaded from lookup
tables. -/
def Runtime.instructionTakes (runtime : Runtime) (signer : Pubkey) (keys : List Pubkey)
    (instruction : CompiledInstruction) : List Taking :=
  match instruction.resolve keys with
  | some resolved => runtime.takes signer resolved
  | none => []

/-- What a transaction takes. -/
def Runtime.transactionTakes (runtime : Runtime) (signer : Pubkey) (loaded : List Pubkey)
    (transaction : VersionedTransaction) : List Taking :=
  transaction.instructions.flatMap (runtime.instructionTakes signer (transaction.accountKeys ++ loaded))

/-- How an instruction is resolved: its program, its accounts, its data. -/
lemma resolve_spec {keys : List Pubkey} {program : Pubkey} {accounts : List Pubkey}
    {data : List UInt8} (h : instruction.resolve keys = some (program, accounts, data)) :
    keys[instruction.programIdIndex.toNat]? = some program ∧
      instruction.accounts.mapM (fun index => keys[index.toNat]?) = some accounts ∧
      data = instruction.data := by
  unfold CompiledInstruction.resolve at h
  obtain ⟨p, hp, h⟩ := Option.bind_eq_some_iff.1 h
  obtain ⟨a, ha, h⟩ := Option.bind_eq_some_iff.1 h
  cases h
  exact ⟨hp, ha, rfl⟩

/-- The program that is executed is the static key. -/
lemma toBase58_of_resolve {loaded : List Pubkey} {program : Pubkey} {id : String}
    (hprogram : (accountKeys ++ loaded)[instruction.programIdIndex.toNat]? = some program)
    (h : instructionProgram instruction accountKeys = some id) : toBase58 program = id := by
  obtain ⟨key, hkey, rfl⟩ := Option.map_eq_some_iff.1 h
  have hlt := (List.getElem?_eq_some_iff.1 hkey).1
  rw [List.getElem?_append_left hlt, hkey] at hprogram
  cases hprogram
  rfl

/-- The account that is used is the static key. -/
lemma getElem?_of_resolve {loaded accounts : List Pubkey} {position : ℕ} {account : Pubkey}
    (haccounts : instruction.accounts.mapM (fun index => (accountKeys ++ loaded)[index.toNat]?) =
      some accounts)
    (h : instructionAccount instruction accountKeys position = some account) :
    accounts[position]? = some account := by
  obtain ⟨index, hindex, hkey⟩ := Option.bind_eq_some_iff.1 h
  obtain ⟨used, hused, hposition⟩ := getElem?_of_mapM_eq_some haccounts hindex
  have hlt := (List.getElem?_eq_some_iff.1 hkey).1
  rw [List.getElem?_append_left hlt, hkey] at hused
  cases hused
  exact hposition

variable {runtime : Runtime} {loaded : List Pubkey}

lemma instructionTakes_auxiliary (hruntime : runtime.Lawful)
    (h : IsAuxiliary accountKeys instruction) :
    runtime.instructionTakes signer (accountKeys ++ loaded) instruction = [] := by
  unfold Runtime.instructionTakes
  cases hresolve : instruction.resolve (accountKeys ++ loaded) with
  | none => rfl
  | some resolved =>
    obtain ⟨program, accounts, data⟩ := resolved
    obtain ⟨hprogram, -, -⟩ := resolve_spec hresolve
    refine hruntime.auxiliary signer program accounts data ?_
    exact h.imp (toBase58_of_resolve hprogram)
      (Or.imp (toBase58_of_resolve hprogram) (toBase58_of_resolve hprogram))

lemma instructionTakes_system (hruntime : runtime.Lawful) {recipient : Pubkey} {amount : ℕ}
    (h : IsSystemTransfer accountKeys signer instruction recipient amount) :
    (runtime.instructionTakes signer (accountKeys ++ loaded) instruction).Sublist
      [⟨⟨.solana, none⟩, recipient, amount⟩] := by
  unfold Runtime.instructionTakes
  cases hresolve : instruction.resolve (accountKeys ++ loaded) with
  | none => exact List.nil_sublist _
  | some resolved =>
    obtain ⟨program, accounts, data⟩ := resolved
    obtain ⟨hprogram, haccounts, rfl⟩ := resolve_spec hresolve
    have hsource := getElem?_of_resolve haccounts h.source
    have hrecipient := getElem?_of_resolve haccounts h.recipient
    obtain ⟨bytes, hdata, rfl⟩ := h.data
    obtain ⟨rest, rfl⟩ : ∃ rest, accounts = signer :: recipient :: rest := by
      rcases accounts with _ | ⟨a, _ | ⟨b, rest⟩⟩
      · cases hsource
      · cases hrecipient
      · cases hsource
        cases hrecipient
        exact ⟨rest, rfl⟩
    simp only [hdata]
    exact hruntime.system signer program _ _ rest bytes (toBase58_of_resolve hprogram h.program)

/-- A token transfer takes what it names, or nothing. -/
lemma instructionTakes_token (hruntime : runtime.Lawful) {mint destination : Pubkey} {amount : ℕ}
    (h : IsTokenTransfer accountKeys signer instruction mint destination amount) :
    (runtime.instructionTakes signer (accountKeys ++ loaded) instruction).Sublist
      [⟨⟨.solana, some (toBase58 mint)⟩, destination, amount⟩] := by
  unfold Runtime.instructionTakes
  cases hresolve : instruction.resolve (accountKeys ++ loaded) with
  | none => exact List.nil_sublist _
  | some resolved =>
    obtain ⟨program, accounts, data⟩ := resolved
    obtain ⟨hprogram, haccounts, rfl⟩ := resolve_spec hresolve
    have hmint := getElem?_of_resolve haccounts h.mint
    have hdestination := getElem?_of_resolve haccounts h.destination
    have hauthority := getElem?_of_resolve haccounts h.authority
    obtain ⟨bytes, decimals, hdata, rfl⟩ := h.data
    -- The source is not read: any account may stand there.
    obtain ⟨source, rest, rfl⟩ :
        ∃ source rest, accounts = source :: mint :: destination :: signer :: rest := by
      rcases accounts with _ | ⟨a, _ | ⟨b, _ | ⟨c, _ | ⟨d, rest⟩⟩⟩⟩
      · cases hmint
      · cases hmint
      · cases hdestination
      · cases hauthority
      · cases hmint
        cases hdestination
        cases hauthority
        exact ⟨a, rest, rfl⟩
    simp only [hdata]
    exact hruntime.token signer program source _ _ _ rest bytes decimals
      (h.program.imp (toBase58_of_resolve hprogram) (toBase58_of_resolve hprogram))

/-- Only one instruction of a recognised transaction takes anything. -/
lemma transactionTakes_eq (hruntime : runtime.Lawful) {before after : List CompiledInstruction}
    (hinstructions : transaction.instructions = before ++ instruction :: after)
    (hothers : ∀ i ∈ before ++ after, IsAuxiliary transaction.accountKeys i) :
    runtime.transactionTakes signer loaded transaction =
      runtime.instructionTakes signer (transaction.accountKeys ++ loaded) instruction := by
  have hnone : ∀ l : List CompiledInstruction, (∀ i ∈ l, i ∈ before ++ after) →
      l.flatMap (runtime.instructionTakes signer (transaction.accountKeys ++ loaded)) = [] := by
    intro l hl
    rw [List.flatMap_eq_nil_iff]
    exact fun i hi => instructionTakes_auxiliary hruntime (hothers i (hl i hi))
  rw [Runtime.transactionTakes, hinstructions, List.flatMap_append, List.flatMap_cons,
    hnone before fun i hi => List.mem_append_left _ hi,
    hnone after fun i hi => List.mem_append_right _ hi, List.nil_append, List.append_nil]

/-! ## A recognised transfer is all a transaction does -/

/-- What is shown of a transaction whose instruction at one place is a transfer: the amount, the asset and
the recipient, with what the transaction takes when it is executed. -/
structure ShownAs (runtime : Runtime) (loaded : List Pubkey) (transaction : VersionedTransaction)
    (signer : Pubkey) (t : SolanaTransfer) (asset : AssetId) (destination : Pubkey) (amount : ℕ) :
    Prop where
  assetId : t.assetId = asset
  value : t.value = amount
  takes : (runtime.transactionTakes signer loaded transaction).Sublist [⟨asset, destination, amount⟩]

/-- **A recognised transfer is all that a transaction does.** It is recognised exactly when every
instruction but one is of the associated token, the memo or the compute budget program and that one is a
transfer of the system program or a checked transfer of a token program which the signer authorises. Then
that instruction has the amount, the asset and the destination that are shown, where the owner is shown
for a token account that is created, and nothing else is taken out of the accounts of the signer. -/
theorem simpleTransfer_spec (transaction : VersionedTransaction) (signer : Pubkey) (runtime : Runtime)
    (hruntime : runtime.Lawful) (loaded : List Pubkey) :
    ((∃ t, simpleTransfer transaction signer = some t) ↔
      ∃ before instruction after, transaction.instructions = before ++ instruction :: after ∧
        (∀ i ∈ before ++ after, IsAuxiliary transaction.accountKeys i) ∧
        ((∃ recipient amount,
            IsSystemTransfer transaction.accountKeys signer instruction recipient amount) ∨
          ∃ mint destination amount,
            IsTokenTransfer transaction.accountKeys signer instruction mint destination amount)) ∧
    ∀ t, simpleTransfer transaction signer = some t →
      ∃ before instruction after, transaction.instructions = before ++ instruction :: after ∧
        (∀ i ∈ before ++ after, IsAuxiliary transaction.accountKeys i) ∧
        ((∃ recipient amount,
            IsSystemTransfer transaction.accountKeys signer instruction recipient amount ∧
            ShownAs runtime loaded transaction signer t ⟨.solana, none⟩ recipient amount ∧
            t.recipient = toBase58 recipient) ∨
          ∃ mint destination amount,
            IsTokenTransfer transaction.accountKeys signer instruction mint destination amount ∧
            ShownAs runtime loaded transaction signer t ⟨.solana, some (toBase58 mint)⟩ destination
              amount ∧
            (∀ first creating rest owner, transaction.instructions = first ++ creating :: rest →
              CreatesFor transaction.accountKeys creating destination owner →
              (∀ i ∈ first, ∀ o, ¬ CreatesFor transaction.accountKeys i destination o) →
              t.recipient = toBase58 owner) ∧
            ((∀ i ∈ transaction.instructions, ∀ o,
                ¬ NamesOwner transaction.accountKeys i destination o) →
              t.recipient = toBase58 destination)) := by
  refine ⟨?_, ?_⟩
  · constructor
    · rintro ⟨t, ht⟩
      obtain ⟨before, instruction, after, hinstructions, hothers, hshows⟩ :=
        simpleTransfer_eq_some_iff.1 ht
      refine ⟨before, instruction, after, hinstructions, hothers, ?_⟩
      rcases hshows with ⟨h⟩ | ⟨h⟩
      · exact .inl ⟨_, _, h⟩
      · exact .inr ⟨_, _, _, h⟩
    · rintro ⟨before, instruction, after, hinstructions, hothers,
        ⟨recipient, amount, h⟩ | ⟨mint, destination, amount, h⟩⟩
      · exact ⟨_, simpleTransfer_eq_some_iff.2 ⟨before, instruction, after, hinstructions, hothers,
          .system h⟩⟩
      · exact ⟨_, simpleTransfer_eq_some_iff.2 ⟨before, instruction, after, hinstructions, hothers,
          .token h⟩⟩
  · intro t ht
    obtain ⟨before, instruction, after, hinstructions, hothers, hshows⟩ :=
      simpleTransfer_eq_some_iff.1 ht
    refine ⟨before, instruction, after, hinstructions, hothers, ?_⟩
    have htakes : runtime.transactionTakes signer loaded transaction = _ :=
      transactionTakes_eq hruntime hinstructions hothers
    rcases hshows with ⟨h⟩ | ⟨h⟩
    · exact .inl ⟨_, _, h, ⟨rfl, rfl, htakes ▸ instructionTakes_system hruntime h⟩, rfl⟩
    · refine .inr ⟨_, _, _, h, ⟨rfl, rfl, htakes ▸ instructionTakes_token hruntime h⟩, ?_, ?_⟩
      · intro first creating rest owner hsplit hcreates hfirst
        rw [associatedTokenOwner_eq_some hsplit hcreates hfirst]
        rfl
      · intro hnone
        rw [associatedTokenOwner_eq_none hnone]
        rfl

/-! ## A transaction with a lookup table -/

/-- The key of the token program. -/
def tokenProgram : Pubkey :=
  ⟨[6, 221, 246, 225, 215, 101, 161, 147, 217, 203, 225, 70, 206, 235, 121, 172, 28, 180, 133, 237, 95,
    91, 55, 145, 58, 140, 245, 133, 126, 255, 0, 169], rfl⟩

/-- A checked transfer by the key of ones whose source is the first key of a lookup table. -/
def sampleTransaction : VersionedTransaction :=
  .v0 [.zeros 64]
    { header := ⟨1, 0, 1⟩
      accountKeys := [sampleKey 1, sampleKey 3, sampleKey 4, tokenProgram]
      recentBlockhash := .zeros 32
      instructions := [⟨3, [4, 1, 2, 0], 12 :: (leBytes 8 19000000 ++ [6])⟩] }
    [⟨sampleKey 9, [0], []⟩]

/-- Programs that make the two transfers when the signer authorises them, and nothing else. -/
def sampleRuntime : Runtime where
  takes signer resolved :=
    let (program, accounts, data) := resolved
    if toBase58 program = systemProgramId then
      if data.take 4 = leBytes 4 2 ∧ accounts[0]? = some signer then
        (accounts[1]?.map fun recipient =>
          (⟨⟨.solana, none⟩, recipient, ofLe (data.drop 4)⟩ : Taking)).toList
      else []
    else if toBase58 program = tokenProgramId ∨ toBase58 program = token2022ProgramId then
      if data.head? = some 12 ∧ accounts[3]? = some signer then
        ((accounts[1]?.bind fun mint => accounts[2]?.map fun destination =>
          (⟨⟨.solana, some (toBase58 mint)⟩, destination, ofLe ((data.drop 1).take 8)⟩ :
            Taking))).toList
      else []
    else []

lemma sampleRuntime_lawful : sampleRuntime.Lawful where
  auxiliary signer program accounts data h := by
    simp only [sampleRuntime]
    rcases h with h | h | h <;> rw [h, if_neg (by decide), if_neg (by decide)]
  system signer program source recipient accounts amount h := by
    simp only [sampleRuntime]
    rw [if_pos h]
    split
    · rw [List.drop_left' (length_leBytes 4 2)]
      exact List.Sublist.refl _
    · exact List.nil_sublist _
  token signer program source mint destination authority accounts amount decimals h := by
    simp only [sampleRuntime]
    rw [if_neg (by rcases h with h | h <;> rw [h] <;> decide), if_pos h]
    split
    · rw [List.drop_one, List.tail_cons, List.take_left' amount.property]
      exact List.Sublist.refl _
    · exact List.nil_sublist _

/-- The sample transaction takes what it is shown to take. -/
theorem simpleTransfer_spec_sample :
    ∃ t destination, simpleTransfer sampleTransaction (sampleKey 1) = some t ∧
      (sampleRuntime.transactionTakes (sampleKey 1) [sampleKey 2] sampleTransaction).Sublist
        [⟨t.assetId, destination, t.value⟩] := by
  obtain ⟨t, ht⟩ : ∃ t, simpleTransfer sampleTransaction (sampleKey 1) = some t :=
    Option.isSome_iff_exists.1 (by decide +kernel)
  obtain ⟨-, -, -, -, -, ⟨recipient, amount, -, h, -⟩ | ⟨mint, destination, amount, -, h, -⟩⟩ :=
    (simpleTransfer_spec sampleTransaction (sampleKey 1) sampleRuntime sampleRuntime_lawful
      [sampleKey 2]).2 t ht
  · exact ⟨t, recipient, ht, by rw [h.assetId, h.value]; exact h.takes⟩
  · exact ⟨t, destination, ht, by rw [h.assetId, h.value]; exact h.takes⟩

/-- A transfer is recognised although the account that it takes the tokens from is no static key. -/
theorem recognised_with_loaded_source :
    (simpleTransfer sampleTransaction (sampleKey 1)).isSome = true ∧
    ∃ instruction ∈ sampleTransaction.instructions,
      instructionProgram instruction sampleTransaction.accountKeys = some tokenProgramId ∧
      instructionAccount instruction sampleTransaction.accountKeys 0 = none := by
  decide +kernel

end GemCore.Solana

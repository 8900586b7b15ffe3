import GemCore.Solana.Message

/-!
# What a compiled Solana message means

A validator reads privileges off the position of a key and the header, and accounts off the
indexes of an instruction. This module shows that what it reads is what the instructions
asked for.

## Main definitions

* `Signs`, `Writes`, `Uses` — what the fee payer and the instructions ask of a key.
* `CompiledInstruction.resolve` — an instruction read through the list of keys.
* `Compiled` — a message means what its instructions say.

## Main results

* `mergeInstructions_merged` — the merging loops collect exactly the keys in use, each with the
  union of its flags.
* `buildLegacyTransaction_compiled` — every message that is built means what its instructions say.
-/

namespace GemCore.Solana

open Lib

/-! ## Merging -/

/-- Some use in the list makes the key sign. -/
def signsIn (uses : List AccountMeta) (pubkey : Pubkey) : Bool :=
  uses.any fun use => use.pubkey = pubkey && use.isSigner

/-- Some use in the list makes the key writable. -/
def writesIn (uses : List AccountMeta) (pubkey : Pubkey) : Bool :=
  uses.any fun use => use.pubkey = pubkey && use.isWritable

/-- The uses so far are what the loop variables hold: a key has flags iff it is in use, namely
the union of its flags, and the two orders together list each key in use once. -/
structure Merged (uses : List AccountMeta) (state : Merge) : Prop where
  flags_eq : ∀ k, state.flags k = if k ∈ uses.map AccountMeta.pubkey then
    some ⟨signsIn uses k, writesIn uses k⟩ else none
  nodup : (state.accountOrder ++ state.programOrder).Nodup
  mem_order : ∀ k, k ∈ state.accountOrder ++ state.programOrder ↔
    k ∈ uses.map AccountMeta.pubkey

/-- A key without a use neither signs nor is writable. -/
lemma not_signsIn {uses : List AccountMeta} {k : Pubkey}
    (h : k ∉ uses.map AccountMeta.pubkey) : signsIn uses k = false ∧ writesIn uses k = false := by
  have hne : ∀ use ∈ uses, use.pubkey ≠ k := by
    intro use huse heq
    exact h (List.mem_map.mpr ⟨use, huse, heq⟩)
  constructor <;> exact List.any_eq_false.mpr fun use huse => by simp [hne use huse]

/-- **Step lemma**: one more use keeps the loop variables right, whichever of the two orders a
new key goes to. -/
theorem Merged.snoc {uses : List AccountMeta} {state state' : Merge} (h : Merged uses state)
    (use : AccountMeta) (order : List Pubkey)
    (hflags : state'.flags =
      (mergeAccount state.flags order use.pubkey use.isSigner use.isWritable).1)
    (horder : (state'.accountOrder ++ state'.programOrder).Perm
      (if use.pubkey ∈ uses.map AccountMeta.pubkey then state.accountOrder ++ state.programOrder
        else use.pubkey :: (state.accountOrder ++ state.programOrder))) :
    Merged (uses ++ [use]) state' := by
  refine ⟨?_, ?_, ?_⟩
  · intro k
    have hfound := h.flags_eq use.pubkey
    have hk := h.flags_eq k
    rw [hflags]
    unfold mergeAccount
    by_cases hmem : use.pubkey ∈ uses.map AccountMeta.pubkey
    · rw [if_pos hmem] at hfound
      rw [hfound]
      by_cases heq : k = use.pubkey
      · subst heq
        simp [signsIn, writesIn]
      · have hne : use.pubkey ≠ k := fun h => heq h.symm
        simp only [Function.update_of_ne heq, hk]
        simp [signsIn, writesIn, hne, heq]
    · rw [if_neg hmem] at hfound
      rw [hfound]
      by_cases heq : k = use.pubkey
      · subst heq
        obtain ⟨hs, hw⟩ := not_signsIn hmem
        unfold signsIn at hs
        unfold writesIn at hw
        simp [signsIn, writesIn, List.any_append, hs, hw]
      · have hne : use.pubkey ≠ k := fun h => heq h.symm
        simp only [Function.update_of_ne heq, hk]
        simp [signsIn, writesIn, hne, heq]
  · rw [horder.nodup_iff]
    split_ifs with hmem
    · exact h.nodup
    · exact List.nodup_cons.mpr ⟨fun hin => hmem ((h.mem_order _).mp hin), h.nodup⟩
  · intro k
    rw [horder.mem_iff, List.map_append, List.mem_append, List.map_singleton,
      List.mem_singleton]
    split_ifs with hmem
    · rw [h.mem_order]
      constructor
      · exact Or.inl
      · rintro (hk | rfl)
        · exact hk
        · exact hmem
    · rw [List.mem_cons, h.mem_order, or_comm]

/-- A key is new to the order iff it has no flags yet. -/
lemma Merged.order_eq {uses : List AccountMeta} {state : Merge} (h : Merged uses state)
    (order : List Pubkey) (k : Pubkey) (isSigner isWritable : Bool) :
    (mergeAccount state.flags order k isSigner isWritable).2 =
      if k ∈ uses.map AccountMeta.pubkey then order else order ++ [k] := by
  have hfound := h.flags_eq k
  unfold mergeAccount
  split_ifs at hfound ⊢ with hmem
  · rw [hfound]
  · rw [hfound]

lemma Merged.account {uses : List AccountMeta} {state : Merge} (h : Merged uses state)
    (account : AccountMeta) : Merged (uses ++ [account]) (state.account account) := by
  refine h.snoc account state.accountOrder rfl ?_
  change ((mergeAccount _ _ _ _ _).2 ++ state.programOrder).Perm _
  rw [h.order_eq]
  split_ifs
  · exact List.Perm.refl _
  · rw [List.append_assoc]
    exact List.perm_middle

lemma Merged.program {uses : List AccountMeta} {state : Merge} (h : Merged uses state)
    (programId : Pubkey) :
    Merged (uses ++ [⟨programId, false, false⟩]) (state.program programId) := by
  refine h.snoc ⟨programId, false, false⟩ state.programOrder rfl ?_
  change (state.accountOrder ++ (mergeAccount _ _ _ _ _).2).Perm _
  rw [h.order_eq]
  split_ifs
  · exact List.Perm.refl _
  · rw [← List.append_assoc]
    exact List.perm_append_singleton _ _

/-- **Run lemma**: the accounts of an instruction. -/
theorem Merged.accounts (accounts : List AccountMeta) : ∀ {uses : List AccountMeta} {state : Merge},
    Merged uses state → Merged (uses ++ accounts) (accounts.foldl Merge.account state) := by
  induction accounts with
  | nil =>
    intro uses state h
    simpa using h
  | cons account accounts ih =>
    intro uses state h
    simpa [List.append_assoc] using ih (h.account account)

/-- The uses of an instruction: its accounts, and its program as a read-only non-signer. -/
def Instruction.uses (instruction : Instruction) : List AccountMeta :=
  instruction.accounts ++ [⟨instruction.programId, false, false⟩]

/-- All uses of a message. -/
def messageUses (feePayer : Pubkey) (instructions : List Instruction) : List AccountMeta :=
  ⟨feePayer, true, true⟩ :: instructions.flatMap Instruction.uses

/-- **Run lemma**: the instructions of a message. -/
theorem Merged.instructions (instructions : List Instruction) :
    ∀ {uses : List AccountMeta} {state : Merge}, Merged uses state →
      Merged (uses ++ instructions.flatMap Instruction.uses)
        (instructions.foldl Merge.instruction state) := by
  induction instructions with
  | nil =>
    intro uses state h
    simpa using h
  | cons instruction instructions ih =>
    intro uses state h
    have hstep := (h.accounts instruction.accounts).program instruction.programId
    have hrun := ih hstep
    rw [List.append_assoc uses] at hrun
    rw [List.flatMap_cons, ← List.append_assoc]
    exact hrun

/-- The merging loops collect exactly the keys in use, each with the union of its flags. -/
theorem mergeInstructions_merged (feePayer : Pubkey) (instructions : List Instruction) :
    Merged (messageUses feePayer instructions) (mergeInstructions feePayer instructions) := by
  have hempty : Merged [] ⟨fun _ => none, [], []⟩ := ⟨fun _ => rfl, List.nodup_nil, by simp⟩
  exact Merged.instructions instructions (hempty.account ⟨feePayer, true, true⟩)

/-! ## Ordering -/

/-- Sorting keys with flags into classes appends to each class the keys that belong there. -/
theorem fillBuckets_eq {flags : Pubkey → Option AccountFlags} {signs writes : Pubkey → Bool} :
    ∀ (keys : List Pubkey) (buckets : Buckets),
      (∀ k ∈ keys, flags k = some ⟨signs k, writes k⟩) →
      fillBuckets flags keys buckets = .ok
        ⟨buckets.writableSigners ++ keys.filter fun k => signs k && writes k,
          buckets.readonlySigners ++ keys.filter fun k => signs k && !writes k,
          buckets.writableOthers ++ keys.filter fun k => !signs k && writes k,
          buckets.readonlyOthers ++ keys.filter fun k => !signs k && !writes k⟩ := by
  intro keys
  induction keys with
  | nil =>
    intro buckets _
    simp [fillBuckets]
  | cons key keys ih =>
    intro buckets h
    have hkey := h key (List.mem_cons_self ..)
    have hrest := fun k hk => h k (List.mem_cons_of_mem _ hk)
    unfold fillBuckets
    rw [hkey]
    dsimp only
    rw [ih _ hrest]
    cases hs : signs key <;> cases hw : writes key <;> simp [Buckets.push, hs, hw]

/-- The four classes together list the keys. -/
lemma classes_perm (signs writes : Pubkey → Bool) (keys : List Pubkey) :
    ((keys.filter fun k => signs k && writes k) ++ (keys.filter fun k => signs k && !writes k) ++
      (keys.filter fun k => !signs k && writes k) ++
      keys.filter fun k => !signs k && !writes k).Perm keys := by
  have hsigners := List.filter_append_perm writes (keys.filter signs)
  have hothers := List.filter_append_perm writes (keys.filter fun k => !signs k)
  simp only [List.filter_filter] at hsigners hothers
  have hall := (hsigners.append hothers).trans (List.filter_append_perm signs keys)
  simpa only [Bool.and_comm, List.append_assoc] using hall

/-- The fee payer comes first among the writable signers; the rest of the list is theirs. -/
theorem perm_cons_filter_ne {keys : List Pubkey} {k : Pubkey} (hnodup : keys.Nodup)
    (hmem : k ∈ keys) : (k :: keys.filter (· ≠ k)).Perm keys := by
  have herase : keys.filter (· ≠ k) = keys.erase k := by
    rw [hnodup.erase_eq_filter]
    congr 1
    funext k'
    by_cases h : k' = k <;> simp [h]
  rw [herase]
  exact (List.perm_cons_erase hmem).symm

/-! ## Indexes -/

/-- Entries of other keys leave the index of a key alone. -/
lemma foldl_insertIndex_not_mem {k : Pubkey} : ∀ (keys : List Pubkey) (start : ℕ)
    (map : Pubkey → Option UInt8), k ∉ keys →
    (keys.zipIdx start).foldl insertIndex map k = map k := by
  intro keys
  induction keys with
  | nil =>
    intro start map _
    rfl
  | cons key keys ih =>
    intro start map h
    rw [List.mem_cons, not_or] at h
    rw [List.zipIdx_cons, List.foldl_cons, ih _ _ h.2]
    exact Function.update_of_ne h.1 _ _

/-- Every key of the list has an index at which the list holds it. -/
lemma foldl_insertIndex_mem {k : Pubkey} : ∀ (keys : List Pubkey) (start : ℕ)
    (map : Pubkey → Option UInt8), k ∈ keys →
    ∃ i, keys[i]? = some k ∧
      (keys.zipIdx start).foldl insertIndex map k = some (UInt8.ofNat (start + i)) := by
  intro keys
  induction keys with
  | nil =>
    intro start map hk
    cases hk
  | cons key keys ih =>
    intro start map hk
    rw [List.zipIdx_cons, List.foldl_cons]
    by_cases hlater : k ∈ keys
    · obtain ⟨i, hi, hfold⟩ := ih (start + 1) (insertIndex map (key, start)) hlater
      refine ⟨i + 1, by simpa using hi, ?_⟩
      rw [hfold]
      congr 2
      omega
    · rcases List.mem_cons.mp hk with rfl | hk
      · refine ⟨0, rfl, ?_⟩
        rw [foldl_insertIndex_not_mem keys (start + 1) _ hlater]
        exact Function.update_self _ _ _
      · exact absurd hk hlater

/-- The index of a key leads back to it when indexes fit a byte. -/
lemma accountIndex_keyToIndex {keys : List Pubkey} (hlen : keys.length ≤ 255) {k : Pubkey}
    {index : UInt8} (hk : k ∈ keys) (h : accountIndex (keyToIndex keys) k = .ok index) :
    keys[index.toNat]? = some k := by
  obtain ⟨i, hi, hindex⟩ := foldl_insertIndex_mem keys 0 (fun _ => none) hk
  have hmap : keyToIndex keys k = some (UInt8.ofNat (0 + i)) := hindex
  unfold accountIndex at h
  rw [hmap] at h
  obtain rfl := Except.ok.inj h
  have hlt : i < keys.length := by
    by_contra hge
    rw [List.getElem?_eq_none (by omega)] at hi
    cases hi
  rw [UInt8.toNat_ofNat', zero_add, Nat.mod_eq_of_lt (by omega)]
  exact hi

/-- A compiled instruction as a validator reads it: program, accounts and data. -/
def CompiledInstruction.resolve (keys : List Pubkey) (compiled : CompiledInstruction) :
    Option (Pubkey × List Pubkey × List UInt8) := do
  let programId ← keys[compiled.programIdIndex.toNat]?
  let accounts ← compiled.accounts.mapM fun index => keys[index.toNat]?
  some (programId, accounts, compiled.data)

/-- A list of indexes leads back to the accounts. -/
lemma mapM_getElem_of_tryMap {keys : List Pubkey} (hlen : keys.length ≤ 255)
    (accounts : List AccountMeta) {indexes : List UInt8}
    (hmem : ∀ account ∈ accounts, account.pubkey ∈ keys)
    (h : tryMap (fun account => accountIndex (keyToIndex keys) account.pubkey) accounts =
      .ok indexes) :
    (indexes.mapM fun index => keys[index.toNat]?) = some (accounts.map AccountMeta.pubkey) := by
  rw [tryMap_eq_ok_iff] at h
  induction h with
  | nil => rfl
  | @cons account index accounts indexes hindex _ ih =>
    have hhead := accountIndex_keyToIndex hlen (hmem account (List.mem_cons_self ..)) hindex
    have htail := ih fun a ha => hmem a (List.mem_cons_of_mem _ ha)
    rw [List.mapM_cons, hhead, htail]
    rfl

/-- A compiled instruction leads back to the instruction. -/
lemma resolve_compileInstruction {keys : List Pubkey} (hlen : keys.length ≤ 255)
    {instruction : Instruction} {compiled : CompiledInstruction}
    (hmem : ∀ use ∈ instruction.uses, use.pubkey ∈ keys)
    (h : compileInstruction (keyToIndex keys) instruction = .ok compiled) :
    compiled.resolve keys =
      some (instruction.programId, instruction.accounts.map AccountMeta.pubkey,
        instruction.data) := by
  unfold compileInstruction at h
  simp only [bind_eq_ok_iff] at h
  obtain ⟨programIdIndex, hprogram, accounts, haccounts, h⟩ := h
  obtain rfl := Except.ok.inj h
  have hprogram' := accountIndex_keyToIndex hlen
    (hmem ⟨instruction.programId, false, false⟩ (by simp [Instruction.uses])) hprogram
  have haccounts' := mapM_getElem_of_tryMap hlen instruction.accounts
    (fun a ha => hmem a (List.mem_append_left _ ha)) haccounts
  unfold CompiledInstruction.resolve
  rw [hprogram', haccounts']
  rfl

/-- The compiled instructions lead back to the instructions, in order. -/
lemma resolve_instructions {keys : List Pubkey} (hlen : keys.length ≤ 255)
    {instructions : List Instruction} {compiled : List CompiledInstruction}
    (hmem : ∀ instruction ∈ instructions, ∀ use ∈ instruction.uses, use.pubkey ∈ keys)
    (h : tryMap (compileInstruction (keyToIndex keys)) instructions = .ok compiled) :
    compiled.map (CompiledInstruction.resolve keys) =
      instructions.map fun instruction => some (instruction.programId,
        instruction.accounts.map AccountMeta.pubkey, instruction.data) := by
  rw [tryMap_eq_ok_iff] at h
  induction h with
  | nil => rfl
  | @cons instruction first instructions compiled hfirst _ ih =>
    have hhead := resolve_compileInstruction hlen (hmem instruction (List.mem_cons_self ..)) hfirst
    have htail := ih fun i hi => hmem i (List.mem_cons_of_mem _ hi)
    rw [List.map_cons, List.map_cons, hhead, htail]

/-! ## Compiled messages -/

section Spec

variable (feePayer : Pubkey) (instructions : List Instruction)

/-- The fee payer signs, and so does every account an instruction marks as a signer. -/
def Signs (k : Pubkey) : Prop :=
  k = feePayer ∨ ∃ instruction ∈ instructions, ∃ account ∈ instruction.accounts,
    account.pubkey = k ∧ account.isSigner = true

/-- The fee payer is writable, and so is every account an instruction marks as such. -/
def Writes (k : Pubkey) : Prop :=
  k = feePayer ∨ ∃ instruction ∈ instructions, ∃ account ∈ instruction.accounts,
    account.pubkey = k ∧ account.isWritable = true

/-- The fee payer, every program and every account is in use. -/
def Uses (k : Pubkey) : Prop :=
  k = feePayer ∨ ∃ instruction ∈ instructions, k = instruction.programId ∨
    ∃ account ∈ instruction.accounts, account.pubkey = k

/-- The key at position `i` signs. -/
def MessageHeader.signerAt (header : MessageHeader) (i : ℕ) : Prop :=
  i < header.numRequiredSignatures.toNat

/-- The key at position `i` of `count` is writable. -/
def MessageHeader.writableAt (header : MessageHeader) (count i : ℕ) : Prop :=
  i < header.numRequiredSignatures.toNat - header.numReadonlySignedAccounts.toNat ∨
    header.numRequiredSignatures.toNat ≤ i ∧
      i < count - header.numReadonlyUnsignedAccounts.toNat

/-- **A message means what its instructions say.**

* `nodup`, `mem_iff`, `head` — each key in use is listed once, nothing else is, and the fee
  payer comes first;
* `classes` — the list is writable signers, read-only signers, writable non-signers and
  read-only non-signers in turn, of the lengths the header gives;
* `flags_at` — so a validator reads from the position of a key exactly the privileges it was
  asked for;
* `bounded`, `resolved` — indexes fit a byte, and each instruction read through the list of
  keys is the original one, in order. -/
structure Compiled (recentBlockhash : FixedBytes 32) (message : Message) : Prop where
  nodup : message.accountKeys.Nodup
  mem_iff : ∀ k, k ∈ message.accountKeys ↔ Uses feePayer instructions k
  head : message.accountKeys[0]? = some feePayer
  classes : ∃ ws rs wo ro : List Pubkey, message.accountKeys = ws ++ rs ++ wo ++ ro ∧
    message.header.numRequiredSignatures.toNat = ws.length + rs.length ∧
    message.header.numReadonlySignedAccounts.toNat = rs.length ∧
    message.header.numReadonlyUnsignedAccounts.toNat = ro.length ∧
    (∀ k ∈ ws, Signs feePayer instructions k ∧ Writes feePayer instructions k) ∧
    (∀ k ∈ rs, Signs feePayer instructions k ∧ ¬Writes feePayer instructions k) ∧
    (∀ k ∈ wo, ¬Signs feePayer instructions k ∧ Writes feePayer instructions k) ∧
    (∀ k ∈ ro, ¬Signs feePayer instructions k ∧ ¬Writes feePayer instructions k)
  flags_at : ∀ i k, message.accountKeys[i]? = some k →
    (message.header.signerAt i ↔ Signs feePayer instructions k) ∧
    (message.header.writableAt message.accountKeys.length i ↔ Writes feePayer instructions k)
  bounded : message.accountKeys.length ≤ 255
  resolved : message.instructions.map (CompiledInstruction.resolve message.accountKeys) =
    instructions.map fun instruction => some (instruction.programId,
      instruction.accounts.map AccountMeta.pubkey, instruction.data)
  blockhash : message.recentBlockhash = recentBlockhash

lemma signsIn_messageUses (k : Pubkey) :
    signsIn (messageUses feePayer instructions) k = true ↔ Signs feePayer instructions k := by
  simp only [signsIn, messageUses, Instruction.uses, Signs, List.any_cons, List.any_flatMap,
    List.any_append, List.any_nil, List.any_eq_true, Bool.or_eq_true, Bool.and_eq_true,
    decide_eq_true_eq, Bool.and_false, Bool.or_false, Bool.and_true, @eq_comm _ feePayer]

lemma writesIn_messageUses (k : Pubkey) :
    writesIn (messageUses feePayer instructions) k = true ↔ Writes feePayer instructions k := by
  simp only [writesIn, messageUses, Instruction.uses, Writes, List.any_cons, List.any_flatMap,
    List.any_append, List.any_nil, List.any_eq_true, Bool.or_eq_true, Bool.and_eq_true,
    decide_eq_true_eq, Bool.and_false, Bool.or_false, Bool.and_true, @eq_comm _ feePayer]

lemma mem_messageUses (k : Pubkey) :
    k ∈ (messageUses feePayer instructions).map AccountMeta.pubkey ↔
      Uses feePayer instructions k := by
  simp only [messageUses, Instruction.uses, Uses, List.map_cons, List.map_flatMap, List.mem_cons,
    List.mem_flatMap, List.map_append, List.mem_append, List.map_nil, List.mem_map,
    List.not_mem_nil, or_false]
  constructor
  all_goals
    rintro (h | ⟨instruction, hi, h | h⟩)
    · exact Or.inl h
    · exact Or.inr ⟨instruction, hi, Or.inr h⟩
    · exact Or.inr ⟨instruction, hi, Or.inl h⟩

end Spec

/-- What a position in four classes tells about the key there. -/
lemma mem_of_getElem_append {ws rs wo ro : List Pubkey} {i : ℕ} {k : Pubkey}
    (h : (ws ++ rs ++ wo ++ ro)[i]? = some k) :
    i < ws.length ∧ k ∈ ws ∨
    ws.length ≤ i ∧ i < ws.length + rs.length ∧ k ∈ rs ∨
    ws.length + rs.length ≤ i ∧ i < ws.length + rs.length + wo.length ∧ k ∈ wo ∨
    ws.length + rs.length + wo.length ≤ i ∧
      i < ws.length + rs.length + wo.length + ro.length ∧ k ∈ ro := by
  have hlt : i < (ws ++ rs ++ wo ++ ro).length := by
    by_contra hge
    rw [List.getElem?_eq_none (by omega)] at h
    cases h
  simp only [List.length_append] at hlt
  by_cases h1 : i < ws.length
  · rw [List.append_assoc, List.append_assoc, List.getElem?_append_left h1] at h
    exact Or.inl ⟨h1, List.mem_of_getElem? h⟩
  by_cases h2 : i < ws.length + rs.length
  · rw [List.append_assoc, List.append_assoc, List.getElem?_append_right (by omega),
      List.getElem?_append_left (by omega)] at h
    exact Or.inr (Or.inl ⟨by omega, h2, List.mem_of_getElem? h⟩)
  by_cases h3 : i < ws.length + rs.length + wo.length
  · rw [List.append_assoc, List.getElem?_append_right (by rw [List.length_append]; omega),
      List.getElem?_append_left (by rw [List.length_append]; omega)] at h
    exact Or.inr (Or.inr (Or.inl ⟨by omega, h3, List.mem_of_getElem? h⟩))
  · rw [List.getElem?_append_right (by simp only [List.length_append]; omega)] at h
    exact Or.inr (Or.inr (Or.inr ⟨by omega, hlt, List.mem_of_getElem? h⟩))

/-- **Compilation is faithful**: every message that `build_legacy_transaction` returns means
what its instructions say.

**Proof sketch.** The merging loops leave each key in use once, with the union of its flags
(`mergeInstructions_merged`). Sorting into classes is filtering by these flags
(`fillBuckets_eq`), and moving the fee payer to the front permutes the first class only. The
list has at most 255 keys, so an index fits its byte and leads back to its key. -/
theorem buildLegacyTransaction_compiled (feePayer : Pubkey)
    (recentBlockhash : FixedBytes 32) (instructions : List Instruction)
    (transaction : Transaction)
    (h : buildLegacyTransaction feePayer recentBlockhash instructions = .ok transaction) :
    Compiled feePayer instructions recentBlockhash transaction.message := by
  have hmerged := mergeInstructions_merged feePayer instructions
  set uses := messageUses feePayer instructions with huses
  set order := (mergeInstructions feePayer instructions).accountOrder ++
    (mergeInstructions feePayer instructions).programOrder with horder
  have hflags : ∀ k ∈ order, (mergeInstructions feePayer instructions).flags k =
      some ⟨signsIn uses k, writesIn uses k⟩ := by
    intro k hk
    rw [hmerged.flags_eq, if_pos ((hmerged.mem_order k).mp hk)]
  unfold buildLegacyTransaction at h
  dsimp only at h
  rw [← horder, fillBuckets_eq order _ hflags, bind_eq_ok_iff] at h
  obtain ⟨buckets, hbuckets, h⟩ := h
  obtain rfl := Except.ok.inj hbuckets
  simp only [List.nil_append] at h
  set ss := order.filter fun k => signsIn uses k && writesIn uses k with hss
  set rs := order.filter fun k => signsIn uses k && !writesIn uses k with hrs
  set wo := order.filter fun k => !signsIn uses k && writesIn uses k with hwo
  set ro := order.filter fun k => !signsIn uses k && !writesIn uses k with hro
  rw [guard_eq_ok_iff] at h
  obtain ⟨hsmall, h⟩ := h
  rw [bind_eq_ok_iff] at h
  obtain ⟨compiled, hcompiled, h⟩ := h
  obtain rfl := Except.ok.inj h
  -- the fee payer signs and is writable, so it is in the first class
  have hsigns := signsIn_messageUses feePayer instructions
  have hwrites := writesIn_messageUses feePayer instructions
  have hpayer : feePayer ∈ ss := by
    rw [hss, List.mem_filter, Bool.and_eq_true, hsigns, hwrites, hmerged.mem_order]
    exact ⟨by simp [huses, messageUses], Or.inl rfl, Or.inl rfl⟩
  have hws : (feePayer :: ss.filter (· ≠ feePayer)).Perm ss :=
    perm_cons_filter_ne (hmerged.nodup.filter _) hpayer
  have hkeys : accountKeys feePayer ⟨ss, rs, wo, ro⟩ =
      feePayer :: ss.filter (· ≠ feePayer) ++ rs ++ wo ++ ro := by
    simp [accountKeys]
  rw [hkeys] at hsmall hcompiled ⊢
  set ws := feePayer :: ss.filter (· ≠ feePayer) with hwsdef
  have hperm : (ws ++ rs ++ wo ++ ro).Perm order :=
    (((hws.append_right rs).append_right wo).append_right ro).trans
      (classes_perm (signsIn uses) (writesIn uses) order)
  have hlen : ws.length = ss.length := hws.length_eq
  have hmem : ∀ k, k ∈ ws ++ rs ++ wo ++ ro ↔ Uses feePayer instructions k := by
    intro k
    rw [hperm.mem_iff, hmerged.mem_order, huses, mem_messageUses]
  have hbound : (ws ++ rs ++ wo ++ ro).length ≤ 255 := by omega
  have hcount : ws.length + rs.length ≤ 255 ∧ rs.length ≤ 255 ∧ ro.length ≤ 255 := by
    simp only [List.length_append] at hbound
    omega
  have hbyte : ∀ n, n ≤ 255 → (UInt8.ofNat n).toNat = n := by
    intro n hn
    rw [UInt8.toNat_ofNat', Nat.mod_eq_of_lt (by omega)]
  -- the flags of each class, in the words of the instructions
  have hwsFlags : ∀ k ∈ ws, Signs feePayer instructions k ∧ Writes feePayer instructions k := by
    intro k hk
    have hk' := hws.mem_iff.mp hk
    rw [hss, List.mem_filter, Bool.and_eq_true, hsigns, hwrites] at hk'
    exact hk'.2
  have hrsFlags : ∀ k ∈ rs, Signs feePayer instructions k ∧ ¬Writes feePayer instructions k := by
    intro k hk
    rw [hrs, List.mem_filter, Bool.and_eq_true, hsigns, Bool.not_eq_true', ← Bool.not_eq_true,
      hwrites] at hk
    exact hk.2
  have hwoFlags : ∀ k ∈ wo, ¬Signs feePayer instructions k ∧ Writes feePayer instructions k := by
    intro k hk
    rw [hwo, List.mem_filter, Bool.and_eq_true, hwrites, Bool.not_eq_true', ← Bool.not_eq_true,
      hsigns] at hk
    exact hk.2
  have hroFlags : ∀ k ∈ ro, ¬Signs feePayer instructions k ∧ ¬Writes feePayer instructions k := by
    intro k hk
    rw [hro, List.mem_filter, Bool.and_eq_true, Bool.not_eq_true', ← Bool.not_eq_true, hsigns,
      Bool.not_eq_true', ← Bool.not_eq_true, hwrites] at hk
    exact hk.2
  refine ⟨hperm.nodup_iff.mpr hmerged.nodup, hmem, rfl, ?_, ?_, hbound, ?_, rfl⟩
  · refine ⟨ws, rs, wo, ro, rfl, ?_, ?_, ?_, hwsFlags, hrsFlags, hwoFlags, hroFlags⟩
    · dsimp only
      rw [← hlen, hbyte _ hcount.1]
    · exact hbyte _ hcount.2.1
    · exact hbyte _ hcount.2.2
  · intro i k hk
    have hposition := mem_of_getElem_append hk
    simp only [MessageHeader.signerAt, MessageHeader.writableAt, ← hlen, hbyte _ hcount.1,
      hbyte _ hcount.2.1, hbyte _ hcount.2.2, List.length_append]
    rcases hposition with ⟨hi, hin⟩ | ⟨hi, hi', hin⟩ | ⟨hi, hi', hin⟩ | ⟨hi, hi', hin⟩
    · obtain ⟨hsign, hwrite⟩ := hwsFlags k hin
      exact ⟨iff_of_true (by omega) hsign, iff_of_true (by omega) hwrite⟩
    · obtain ⟨hsign, hwrite⟩ := hrsFlags k hin
      exact ⟨iff_of_true (by omega) hsign, iff_of_false (by omega) hwrite⟩
    · obtain ⟨hsign, hwrite⟩ := hwoFlags k hin
      exact ⟨iff_of_false (by omega) hsign, iff_of_true (by omega) hwrite⟩
    · obtain ⟨hsign, hwrite⟩ := hroFlags k hin
      exact ⟨iff_of_false (by omega) hsign, iff_of_false (by omega) hwrite⟩
  · have hused : ∀ instruction ∈ instructions, ∀ use ∈ instruction.uses,
        use.pubkey ∈ ws ++ rs ++ wo ++ ro := by
      intro instruction hi use huse
      rw [hmem, ← mem_messageUses]
      exact List.mem_map.mpr ⟨use, List.mem_cons_of_mem _
        (List.mem_flatMap.mpr ⟨instruction, hi, huse⟩), rfl⟩
    exact resolve_instructions hbound hused hcompiled

/-- A key of 32 equal bytes. -/
def sampleKey (value : UInt8) : Pubkey := ⟨List.replicate 32 value, rfl⟩

/-- Two instructions of one program: the second asks for more of the account than the first. -/
def sampleInstructions : List Instruction :=
  [⟨sampleKey 3, [⟨sampleKey 2, false, false⟩], [1]⟩,
    ⟨sampleKey 3, [⟨sampleKey 2, false, true⟩, ⟨sampleKey 1, true, false⟩], [2]⟩]

/-- Their message. -/
def sampleMessage : Message where
  header := ⟨1, 0, 1⟩
  accountKeys := [sampleKey 1, sampleKey 2, sampleKey 3]
  recentBlockhash := .zeros 32
  instructions := [⟨2, [1], [1]⟩, ⟨2, [1, 0], [2]⟩]

theorem buildLegacyTransaction_compiled_sample :
    buildLegacyTransaction (sampleKey 1) ⟨List.replicate 32 0, rfl⟩ sampleInstructions =
        .ok ⟨[⟨List.replicate 64 0, rfl⟩], sampleMessage⟩ ∧
      Compiled (sampleKey 1) sampleInstructions ⟨List.replicate 32 0, rfl⟩ sampleMessage := by
  have h : buildLegacyTransaction (sampleKey 1) ⟨List.replicate 32 0, rfl⟩ sampleInstructions =
      .ok ⟨[⟨List.replicate 64 0, rfl⟩], sampleMessage⟩ := by decide +kernel
  exact ⟨h, buildLegacyTransaction_compiled _ _ _ _ h⟩

end GemCore.Solana

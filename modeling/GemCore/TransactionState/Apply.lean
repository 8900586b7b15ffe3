import GemCore.Lib.Proc
import GemCore.TransactionState.Store

/-!
# Applying a report to the table

`apply` and `rename` of `gemstone/src/services/transaction_state/mod.rs`: what the state service
does with a node's answer about a transaction, run by itself and with every call of the store
liable to fail.

A report may replace the hash of a transaction. The row then moves to the new id, or is given
up for the row that is already there.

## Main definitions

* `apply` — take a report over into the table.
* `HashReplaced` — exactly one row is left of the two ids, the reported columns set in it, and every
  other row is as it was.

## Main results

* `apply_keeps_one_row` — where the transaction is stored and the hash is another one, a run that
  returns has kept exactly one row; where neither id has a row it reports that and changes nothing.
-/

namespace GemCore.TransactionStateService

open Lib

variable {M : Type}

/-- A call of the store that only reads. -/
def callGetState (w : WalletId) (id : TransactionId) :
    Proc Store GemServiceError (Option TransactionState) :=
  Proc.call .store fun s => .ok (s.getState w id, s)

/-- The call of `delete_transaction`. -/
def callDelete (w : WalletId) (id : TransactionId) : Proc Store GemServiceError Unit :=
  Proc.call .store fun s => .ok ((), s.deleteTransaction w id)

/-- The call of `rename_transaction`. -/
def callRename (w : WalletId) (old new : TransactionId) : Proc Store GemServiceError Unit :=
  Proc.call .store fun s => (s.renameTransaction w old new).map fun s' => ((), s')

/-- The call of `update_transaction`. -/
def callUpdate (w : WalletId) (id : TransactionId) (fields : GemTransactionStateUpdate) :
    Proc Store GemServiceError Bool :=
  Proc.call .store fun s => .ok (s.updateTransaction w id fields)

/-- The id a transaction has under another hash. -/
def idWithHash (transaction : Transaction) (hash : String) : TransactionId :=
  { chain := transaction.assetId.chain, hash }

/-- `rename`: the id under which the transaction is stored from now on, and its state. -/
def rename (w : WalletId) (transaction : Transaction) (hash : String) :
    Proc Store GemServiceError (TransactionId × TransactionState) := do
  let newTransactionId := idWithHash transaction hash
  match ← callGetState w newTransactionId with
  | some existingState => do
    callDelete w transaction.id
    pure (newTransactionId, existingState)
  | none => do
    callRename w transaction.id newTransactionId
    pure (newTransactionId, transaction.state)

/-- The report `apply` works with: an overdue transaction the node has no answer for counts as
failed. -/
def received (timedOut : Bool) :
    Except String (TransactionUpdate M) → Except GemServiceError (TransactionUpdate M)
  | .ok update => .ok update
  | .error msg => if timedOut then .ok ⟨.failed, []⟩ else .error (.gateway msg)

/-- The state `apply` writes: the merged one, unless the transaction is overdue and would stay
uncompleted. -/
def nextState (timedOut : Bool) (current updated : TransactionState) : TransactionState :=
  let state := current.mergedWith updated
  if timedOut && !state.isCompleted then .failed else state

/-- The end of `apply`, once it is known which row the report is for. -/
def settle (w : WalletId) (id : TransactionId) (current next : TransactionState)
    (fields : GemTransactionStateUpdate) :
    Proc Store GemServiceError (Option GemTransactionStateResult) :=
  if next = current && !fields.hasFieldChanges then do
    let state ← callGetState w id
    pure (state.map fun state => ⟨id, state⟩)
  else do
    let updated ← callUpdate w id fields
    pure (if updated then some ⟨id, next⟩ else none)

/-- `apply`. -/
def apply (serde : Serde M) (w : WalletId) (transaction : Transaction)
    (update : Except String (TransactionUpdate M)) (now : ℤ) :
    Proc Store GemServiceError (Option GemTransactionStateResult) := do
  let timedOut := hasTimedOut serde transaction now
  let update ← Proc.ofExcept (received timedOut update)
  let (id, current) ← match newHash update.changes with
    | some hash => rename w transaction hash
    | none => pure (transaction.id, transaction.state)
  let next := nextState timedOut current update.state
  let fields ← Proc.ofExcept ((stateUpdate serde next update.changes).mapError .core)
  settle w id current next fields

/-- The reported fee, block number and metadata stand in the row. -/
def Applied (serde : Serde M) (changes : List (TransactionChange M)) (row : Row) : Prop :=
  (∀ fee, reported TransactionChange.fee? changes = some fee → row.transaction.fee = fee) ∧
  (∀ number, reported TransactionChange.blockNumber? changes = some number →
    row.transaction.blockNumber = some number) ∧
  (∀ text, reported (TransactionChange.metadata? serde) changes = some text →
    row.transaction.metadata = some text)

/-- Of the two ids only the new one has a row, and every other row is as it was. -/
structure OneRow (w : WalletId) (old new : TransactionId) (s s' : Store) : Prop where
  present : (s'.rows w new).isSome = true
  gone : old ≠ new → s'.rows w old = none
  others : ∀ w' id, ¬ (w' = w ∧ (id = old ∨ id = new)) → s'.rows w' id = s.rows w' id

/-- Exactly one row is left of the two ids, the reported columns set in it, and every other row
is as it was. -/
structure HashReplaced (serde : Serde M) (w : WalletId) (old new : TransactionId)
    (changes : List (TransactionChange M)) (s s' : Store) : Prop where
  oneRow : OneRow w old new s s'
  applied : ∀ row, s'.rows w new = some row → Applied serde changes row

/-! ## Replacing the hash -/

section

variable {w : WalletId} {transaction : Transaction} {hash : String} {s : Store}

/-- Giving up the old row leaves the one at the new id. -/
lemma oneRow_deleteTransaction {old new : TransactionId} (hne : new ≠ old)
    (hnew : (s.rows w new).isSome = true) : OneRow w old new s (s.deleteTransaction w old) where
  present := by
    simpa [Store.deleteTransaction, Store.erase, Store.setRows, hne] using hnew
  gone _ := by simp [Store.deleteTransaction, Store.erase]
  others w' id hother := by
    have : ¬ (w' = w ∧ id = old) := fun h => hother ⟨h.1, .inl h.2⟩
    simp [Store.deleteTransaction, Store.erase, Store.setRows, this]

/-- Renaming the old row moves it to the new id. -/
lemma oneRow_renameTransaction {old new : TransactionId} {s' : Store} (hne : new ≠ old)
    (hold : (s.rows w old).isSome = true) (hrename : s.renameTransaction w old new = .ok s') :
    OneRow w old new s s' := by
  have hsome : ¬ (s.rows w old = none ∨ old = new) := by
    rintro (h | h)
    · simp [h] at hold
    · exact hne h.symm
  rw [Store.renameTransaction, if_neg hsome] at hrename
  split at hrename
  · cases hrename
    refine ⟨?_, fun _ => ?_, fun w' id hother => ?_⟩
    · simpa [Store.move] using hold
    · simp [Store.move, Store.setRows, hne.symm]
    · have hnew' : ¬ (w' = w ∧ id = new) := fun h => hother ⟨h.1, .inr h.2⟩
      have hold' : ¬ (w' = w ∧ id = old) := fun h => hother ⟨h.1, .inl h.2⟩
      simp [Store.move, Store.setRows, hnew', hold']
  · cases hrename

/-- Updating the row at the new id changes only that row. -/
lemma OneRow.updateTransaction {old new : TransactionId} {s' : Store}
    (h : OneRow w old new s s') (fields : GemTransactionStateUpdate) :
    OneRow w old new s (s'.updateTransaction w new fields).2 where
  present := by
    simpa [Store.updateTransaction, Store.modify] using h.present
  gone hne := by
    simpa [Store.updateTransaction, Store.modify, Store.setRows, hne] using h.gone hne
  others w' id hother := by
    have : ¬ (w' = w ∧ id = new) := fun h => hother ⟨h.1, .inr h.2⟩
    simpa [Store.updateTransaction, Store.modify, Store.setRows, this] using h.others w' id hother

/-- A stored transaction that gets another hash has one row after `rename`, under the new id. -/
theorem rename_oneRow (hne : idWithHash transaction hash ≠ transaction.id)
    (hstored : (s.rows w transaction.id).isSome = true ∨
      (s.rows w (idWithHash transaction hash)).isSome = true) :
    (rename w transaction hash).All s
      (fun renamed s' => renamed.1 = idWithHash transaction hash ∧
        OneRow w transaction.id (idWithHash transaction hash) s s')
      (fun _ _ => True) fun _ => True := by
  apply Proc.All.bind
  apply Proc.All.call_ok
  intro state s₁ hcall
  cases hcall
  cases hnew : s.getState w (idWithHash transaction hash) with
  | some existing =>
    have hsome : (s.rows w (idWithHash transaction hash)).isSome = true := by
      obtain ⟨row, hrow, -⟩ := Option.map_eq_some_iff.mp hnew
      rw [hrow]
      rfl
    apply Proc.All.bind
    apply Proc.All.call_ok
    intro _ s₂ hdelete
    cases hdelete
    exact Proc.All.pure ⟨rfl, oneRow_deleteTransaction hne hsome⟩
  | none =>
    have hnone : s.rows w (idWithHash transaction hash) = none :=
      Option.map_eq_none_iff.mp hnew
    have hold : (s.rows w transaction.id).isSome = true := by simpa [hnone] using hstored
    apply Proc.All.bind
    apply Proc.All.call_ok
    intro _ s₂ hrename
    cases hs₃ : s.renameTransaction w transaction.id
        (idWithHash transaction hash) with
    | error e => simp [hs₃, Except.map] at hrename
    | ok s₃ =>
      simp only [hs₃, Except.map, Except.ok.injEq, Prod.mk.injEq, true_and] at hrename
      subst hrename
      exact Proc.All.pure ⟨rfl, oneRow_renameTransaction hne hold hs₃⟩

/-- Where neither id has a row, `rename` changes nothing. -/
lemma rename_absent (hold : s.rows w transaction.id = none)
    (hnew : s.rows w (idWithHash transaction hash) = none) :
    (rename w transaction hash).All s
      (fun renamed s' => renamed.1 = idWithHash transaction hash ∧ s' = s)
      (fun _ _ => True) fun _ => True := by
  apply Proc.All.bind
  apply Proc.All.call_ok
  intro state s₁ hcall
  cases hcall
  have hnone : s.getState w (idWithHash transaction hash) = none := by
    simp [Store.getState, hnew]
  rw [hnone]
  apply Proc.All.bind
  apply Proc.All.call_ok
  intro _ s₂ hrename
  simp only [Store.renameTransaction, hold, true_or, if_true, Except.map, Except.ok.injEq,
    Prod.mk.injEq, true_and] at hrename
  subst hrename
  exact Proc.All.pure ⟨rfl, rfl⟩

/-- `settle` leaves the table alone if there is nothing to write and the row's state is the one
wanted, and otherwise writes the row, if there is one. -/
theorem settle_spec (id : TransactionId) (current next : TransactionState)
    (fields : GemTransactionStateUpdate) :
    (settle w id current next fields).All s
      (fun result s' => result.map (·.transactionId) = (s.rows w id).map (fun _ => id) ∧
        (s' = s ∧ fields.hasFieldChanges = false ∨
          s' = (s.updateTransaction w id fields).2))
      (fun _ _ => True) fun _ => True := by
  rw [settle]
  split
  case isTrue hsame =>
    apply Proc.All.bind
    apply Proc.All.call_ok
    intro state s₁ hcall
    cases hcall
    refine Proc.All.pure ⟨?_, .inl ⟨rfl, by simpa using (Bool.and_eq_true_iff.mp hsame).2⟩⟩
    cases hrow : s.rows w id <;> simp [Store.getState, hrow]
  case isFalse hchange =>
    apply Proc.All.bind
    apply Proc.All.call_ok
    intro updated s₁ hcall
    cases hcall
    refine Proc.All.pure ⟨?_, .inr rfl⟩
    cases s.rows w id with
    | none => simp
    | some row => simp

end

/-- Nothing is reported for the columns of an update without field changes. -/
lemma applied_of_no_changes {serde : Serde M} {state : TransactionState}
    {changes : List (TransactionChange M)}
    (h : (reportedUpdate serde state changes).hasFieldChanges = false) (row : Row) :
    Applied serde changes row := by
  simp only [GemTransactionStateUpdate.hasFieldChanges, reportedUpdate, Bool.or_eq_false_iff,
    Option.isSome_eq_false_iff, Option.isNone_iff_eq_none] at h
  obtain ⟨⟨⟨hfee, hnumber⟩, hmetadata⟩, -⟩ := h
  simp [Applied, hfee, hnumber, hmetadata]

/-- An update sets the reported columns. -/
lemma applied_updated (serde : Serde M) (state : TransactionState)
    (changes : List (TransactionChange M)) (row : Row) :
    Applied serde changes (row.updated (reportedUpdate serde state changes)) := by
  refine ⟨fun fee h => ?_, fun number h => ?_, fun text h => ?_⟩ <;>
    simp [Row.updated, reportedUpdate, h]

/-- What is left to do after `rename` keeps the one row and sets the reported columns in it. -/
theorem settle_hashReplaced {serde : Serde M} {w : WalletId} {old new : TransactionId}
    {changes : List (TransactionChange M)} {s s₁ : Store} (h : OneRow w old new s s₁)
    (current next : TransactionState) :
    (settle w new current next (reportedUpdate serde next changes)).All s₁
      (fun result s' => (∃ state, result = some ⟨new, state⟩) ∧
        HashReplaced serde w old new changes s s')
      (fun _ _ => True) fun _ => True := by
  refine (settle_spec new current next _).mono ?_ (fun _ _ h => h) fun _ h => h
  rintro result s' ⟨hresult, hs'⟩
  obtain ⟨row₁, hrow₁⟩ := Option.isSome_iff_exists.mp h.present
  constructor
  · rw [hrow₁] at hresult
    obtain ⟨⟨id, state⟩, rfl, hid⟩ := Option.map_eq_some_iff.mp hresult
    cases hid
    exact ⟨state, rfl⟩
  · obtain ⟨rfl, hnone⟩ | rfl := hs'
    · exact ⟨h, fun row _ => applied_of_no_changes hnone row⟩
    · refine ⟨h.updateTransaction _, fun row hrow => ?_⟩
      simp only [Store.updateTransaction, Store.modify, Store.setRows_self, hrow₁,
        Option.map_some, Option.some.injEq] at hrow
      subst hrow
      exact applied_updated serde next changes row₁

/-- With a report that replaces the hash, `apply` is `rename` followed by `settle`. -/
theorem apply_eq_of_newHash (serde : Serde M) (w : WalletId) (transaction : Transaction)
    {update : TransactionUpdate M} (now : ℤ) {hash : String}
    (hhash : newHash update.changes = some hash) :
    apply serde w transaction (.ok update) now =
      rename w transaction hash >>= fun renamed =>
        Proc.ofExcept ((stateUpdate serde
          (nextState (hasTimedOut serde transaction now) renamed.2 update.state)
          update.changes).mapError .core) >>= fun fields =>
        settle w renamed.1 renamed.2
          (nextState (hasTimedOut serde transaction now) renamed.2 update.state) fields := by
  rw [apply]
  simp only [received, Proc.ofExcept_ok_bind, hhash]

/-- Run a report that replaces the hash: what holds after `rename` is carried to the end by the
fields that were reported. -/
theorem apply_all {serde : Serde M} {w : WalletId} {transaction : Transaction}
    {update : TransactionUpdate M} {now : ℤ} {hash : String} {s : Store}
    {P : TransactionId × TransactionState → Store → Prop}
    {Q : Option GemTransactionStateResult → Store → Prop}
    (hhash : newHash update.changes = some hash)
    (hrename : (rename w transaction hash).All s P (fun _ _ => True) fun _ => True)
    (hsettle : ∀ renamed s₁ next, P renamed s₁ →
      (settle w renamed.1 renamed.2 next (reportedUpdate serde next update.changes)).All s₁ Q
        (fun _ _ => True) fun _ => True) :
    (apply serde w transaction (.ok update) now).All s Q (fun _ _ => True) fun _ => True := by
  rw [apply_eq_of_newHash serde w transaction now hhash]
  apply Proc.All.bind
  refine hrename.mono ?_ (fun _ _ h => h) fun _ h => h
  intro renamed s₁ hP
  apply Proc.All.bind
  refine Proc.All.ofExcept ?_ fun _ _ => trivial
  intro fields hfields
  rw [eq_reportedUpdate (mapError_eq_ok_iff.mp hfields)]
  exact hsettle renamed s₁ _ hP

/-- The run of a report that replaces the hash of a stored transaction by another one. -/
theorem apply_stored (serde : Serde M) {w : WalletId} {transaction : Transaction}
    {update : TransactionUpdate M} (now : ℤ) {hash : String} {s : Store}
    (hhash : newHash update.changes = some hash)
    (hne : idWithHash transaction hash ≠ transaction.id)
    (hstored : (s.rows w transaction.id).isSome = true ∨
      (s.rows w (idWithHash transaction hash)).isSome = true) :
    (apply serde w transaction (.ok update) now).All s
      (fun result s' => (∃ state, result = some ⟨idWithHash transaction hash, state⟩) ∧
        HashReplaced serde w transaction.id (idWithHash transaction hash) update.changes s s')
      (fun _ _ => True) fun _ => True := by
  refine apply_all hhash (rename_oneRow hne hstored) ?_
  rintro ⟨_, current⟩ s₁ next ⟨rfl, hone⟩
  exact settle_hashReplaced hone current next

/-- The run of a report that replaces the hash of a transaction that is not stored. -/
theorem apply_absent (serde : Serde M) {w : WalletId} {transaction : Transaction}
    {update : TransactionUpdate M} (now : ℤ) {hash : String} {s : Store}
    (hhash : newHash update.changes = some hash) (hold : s.rows w transaction.id = none)
    (hnew : s.rows w (idWithHash transaction hash) = none) :
    (apply serde w transaction (.ok update) now).All s
      (fun result s' => result = none ∧ s'.rows = s.rows)
      (fun _ _ => True) fun _ => True := by
  refine apply_all hhash (rename_absent hold hnew) ?_
  rintro ⟨_, current⟩ s₁ next ⟨rfl, rfl⟩
  refine (settle_spec _ current next _).mono ?_ (fun _ _ h => h) fun _ h => h
  rintro result s' ⟨hresult, hs'⟩
  rw [hnew] at hresult
  refine ⟨Option.map_eq_none_iff.mp hresult, ?_⟩
  obtain ⟨rfl, -⟩ | rfl := hs'
  · rfl
  · funext w' id
    simp only [Store.updateTransaction, Store.modify, Store.setRows, hnew]
    split
    · obtain ⟨rfl, rfl⟩ := ‹_ ∧ _›
      exact hnew.symm
    · rfl

/-- Where the transaction is stored and its hash is replaced by another one, a run of `apply` that
returns leaves exactly one row of the two ids, under the new id and with the reported fee, block
number and metadata, and every other row as it was; where neither id has a row it returns
nothing and the table is as it was.

**Proof sketch.** `rename` either gives up the old row for the one at the new id or moves it
there, so one row is left; what follows only writes the row at the new id. -/
theorem apply_keeps_one_row (serde : Serde M) (w : WalletId) (transaction : Transaction)
    (update : TransactionUpdate M) (now : ℤ) (hash : String)
    (hhash : newHash update.changes = some hash) (s s' : Store) (faults rest : List Fault)
    (result : Option GemTransactionStateResult)
    (hrun : apply serde w transaction (.ok update) now s faults = (.ok result, s', rest)) :
    (idWithHash transaction hash ≠ transaction.id →
      (s.rows w transaction.id).isSome = true ∨
        (s.rows w (idWithHash transaction hash)).isSome = true →
      (∃ state, result = some ⟨idWithHash transaction hash, state⟩) ∧
      HashReplaced serde w transaction.id (idWithHash transaction hash) update.changes s s') ∧
    (s.rows w transaction.id = none → s.rows w (idWithHash transaction hash) = none →
      result = none ∧ s'.rows = s.rows) :=
  ⟨fun hne hstored => (apply_stored serde now hhash hne hstored).of_ok hrun,
    fun hold hnew => (apply_absent serde now hhash hold hnew).of_ok hrun⟩

/-- A serializer for examples: there is no metadata. -/
def exampleSerde : Serde Empty where
  metadataJson := Empty.elim
  swapToAsset := fun _ => none

/-- The wallet of the examples. -/
def exampleWallet : WalletId := .multicoin "0x1"

/-- A pending transaction. -/
def exampleTransaction : Transaction where
  id := ⟨.ethereum, "old"⟩
  assetId := ⟨.ethereum, none⟩
  state := .pending
  blockNumber := none
  fee := 0
  metadata := none
  createdAt := 0

/-- The table that holds the pending transaction. -/
def exampleStore : Store := Store.empty.addTransactions exampleWallet [exampleTransaction]

/-- A report of a fee and of a new hash. -/
def exampleUpdate (hash : String) : TransactionUpdate Empty :=
  ⟨.inTransit, [.hashChange "old" hash, .networkFee 7]⟩

/-- The stored transaction moves to the new hash. -/
theorem apply_keeps_one_row_example :
    ∃ s', HashReplaced exampleSerde exampleWallet exampleTransaction.id ⟨.ethereum, "new"⟩
      (exampleUpdate "new").changes exampleStore s' := by
  obtain ⟨result, s', rest, hrun⟩ : ∃ result s' rest, apply exampleSerde exampleWallet
      exampleTransaction (.ok (exampleUpdate "new")) 0 exampleStore [] =
        (.ok result, s', rest) := ⟨_, _, _, rfl⟩
  exact ⟨s', ((apply_keeps_one_row exampleSerde exampleWallet exampleTransaction
    (exampleUpdate "new") 0 "new" rfl exampleStore s' [] rest result hrun).1
      (by decide) (.inl (by decide))).2⟩

/-- Of a transaction that is not stored no row is left, and a report of the hash that the
transaction already has takes its row away. -/
theorem apply_leaves_no_row_example :
    ((apply exampleSerde exampleWallet exampleTransaction (.ok (exampleUpdate "new")) 0
        Store.empty []).1 = .ok none ∧
      ¬ HashReplaced exampleSerde exampleWallet exampleTransaction.id ⟨.ethereum, "new"⟩
        (exampleUpdate "new").changes Store.empty
        (apply exampleSerde exampleWallet exampleTransaction (.ok (exampleUpdate "new")) 0
          Store.empty []).2.1) ∧
    ((apply exampleSerde exampleWallet exampleTransaction (.ok (exampleUpdate "old")) 0
        exampleStore []).1 = .ok none ∧
      ¬ HashReplaced exampleSerde exampleWallet exampleTransaction.id ⟨.ethereum, "old"⟩
        (exampleUpdate "old").changes exampleStore
        (apply exampleSerde exampleWallet exampleTransaction (.ok (exampleUpdate "old")) 0
          exampleStore []).2.1) := by
  refine ⟨⟨by decide, fun h => ?_⟩, ⟨by decide, fun h => ?_⟩⟩
  · exact absurd h.oneRow.present (by decide)
  · exact absurd h.oneRow.present (by decide)

end GemCore.TransactionStateService

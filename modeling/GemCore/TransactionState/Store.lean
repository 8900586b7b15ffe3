import GemCore.Primitives.WalletId
import GemCore.TransactionState.Rules

/-!
# The table of transactions

What the state service relies on in its store
(`gemstone/src/services/transaction_state/store.rs`), as both of the apps implement it: one
table, keyed by wallet and transaction id, in which a row keeps its own number for as long as
it exists. Adding a transaction that has a row overwrites that row; giving a row an id that
another row has is refused.

## Main definitions

* `Row` — a stored transaction.
* `Store` — the table, with the integrity of its keys.
* `Store.getState` and its siblings — the calls of the store.
* `Store.HasRow` — the row with a given number.

## Main results

* `Store.hasRow_updateTransaction` and its siblings — where the rows after a call come from.
-/

namespace GemCore.TransactionStateService

/-- One row: its number, the transaction and the confirmation time column. -/
structure Row where
  number : ℕ
  transaction : Transaction
  confirmationEtaSeconds : Option ℕ

/-- A row under another id. -/
def Row.renamed (row : Row) (id : TransactionId) : Row :=
  { row with transaction := { row.transaction with id } }

/-- A row with the columns of an update set; a column the update does not name stays. -/
def Row.updated (row : Row) (fields : GemTransactionStateUpdate) : Row where
  number := row.number
  transaction :=
    { row.transaction with
      state := fields.state
      fee := fields.fee.getD row.transaction.fee
      blockNumber := fields.blockNumber.or row.transaction.blockNumber
      metadata := fields.metadata.or row.transaction.metadata }
  confirmationEtaSeconds := fields.confirmationEtaSeconds.or row.confirmationEtaSeconds

/-- The table. A row is found under the id of its transaction, no two rows have one number, and
`nextNumber` has not been given to a row yet. -/
structure Store where
  rows : WalletId → TransactionId → Option Row
  nextNumber : ℕ
  named : ∀ w id row, rows w id = some row → row.transaction.id = id
  fresh : ∀ w id row, rows w id = some row → row.number < nextNumber
  distinct : ∀ w id row w' id' row', rows w id = some row → rows w' id' = some row' →
    row.number = row'.number → w = w' ∧ id = id'

namespace Store

/-- The empty table. -/
def empty : Store where
  rows := fun _ _ => none
  nextNumber := 0
  named := by simp
  fresh := by simp
  distinct := by simp

/-- The rows with one place of a wallet's table overwritten. -/
def setRows (rows : WalletId → TransactionId → Option Row) (w : WalletId) (id : TransactionId)
    (row : Option Row) : WalletId → TransactionId → Option Row :=
  fun w' id' => if w' = w ∧ id' = id then row else rows w' id'

@[simp] lemma setRows_self (rows : WalletId → TransactionId → Option Row) (w : WalletId)
    (id : TransactionId) (row : Option Row) : setRows rows w id row w id = row := by
  simp [setRows]

/-- A place is overwritten or left as it is. -/
lemma setRows_eq_some {rows : WalletId → TransactionId → Option Row} {w w' : WalletId}
    {id id' : TransactionId} {row : Option Row} {row' : Row}
    (h : setRows rows w id row w' id' = some row') :
    (w' = w ∧ id' = id ∧ row = some row') ∨
      (¬ (w' = w ∧ id' = id) ∧ rows w' id' = some row') := by
  rw [setRows] at h
  split at h
  · exact .inl ⟨‹_ ∧ _›.1, ‹_ ∧ _›.2, h⟩
  · exact .inr ⟨‹_›, h⟩

/-- Take a row out of the table. -/
def erase (s : Store) (w : WalletId) (id : TransactionId) : Store where
  rows := setRows s.rows w id none
  nextNumber := s.nextNumber
  named _ _ _ h := by
    obtain ⟨_, _, hrow⟩ | ⟨_, hrow⟩ := setRows_eq_some h
    · cases hrow
    · exact s.named _ _ _ hrow
  fresh _ _ _ h := by
    obtain ⟨_, _, hrow⟩ | ⟨_, hrow⟩ := setRows_eq_some h
    · cases hrow
    · exact s.fresh _ _ _ hrow
  distinct _ _ _ _ _ _ h₁ h₂ := by
    obtain ⟨_, _, hrow₁⟩ | ⟨_, hrow₁⟩ := setRows_eq_some h₁
    · cases hrow₁
    · obtain ⟨_, _, hrow₂⟩ | ⟨_, hrow₂⟩ := setRows_eq_some h₂
      · cases hrow₂
      · exact s.distinct _ _ _ _ _ _ hrow₁ hrow₂

/-- Put a row with a number of its own at a free place or over the row there. -/
def put (s : Store) (w : WalletId) (row : Row)
    (hnew : ∀ w' id' row', s.rows w' id' = some row' → row'.number = row.number →
      w' = w ∧ id' = row.transaction.id) : Store where
  rows := setRows s.rows w row.transaction.id (some row)
  nextNumber := max s.nextNumber (row.number + 1)
  named _ _ _ h := by
    obtain ⟨_, hid, hrow⟩ | ⟨_, hrow⟩ := setRows_eq_some h
    · cases hrow
      exact hid.symm
    · exact s.named _ _ _ hrow
  fresh _ _ _ h := by
    obtain ⟨_, _, hrow⟩ | ⟨_, hrow⟩ := setRows_eq_some h
    · cases hrow
      omega
    · have := s.fresh _ _ _ hrow
      omega
  distinct _ _ _ _ _ _ h₁ h₂ hn := by
    obtain ⟨hw₁, hid₁, hrow₁⟩ | ⟨hne₁, hrow₁⟩ := setRows_eq_some h₁
    · obtain ⟨hw₂, hid₂, hrow₂⟩ | ⟨hne₂, hrow₂⟩ := setRows_eq_some h₂
      · exact ⟨hw₁.trans hw₂.symm, hid₁.trans hid₂.symm⟩
      · cases hrow₁
        exact absurd (hnew _ _ _ hrow₂ hn.symm) hne₂
    · obtain ⟨hw₂, hid₂, hrow₂⟩ | ⟨hne₂, hrow₂⟩ := setRows_eq_some h₂
      · cases hrow₂
        exact absurd (hnew _ _ _ hrow₁ hn) hne₁
      · exact s.distinct _ _ _ _ _ _ hrow₁ hrow₂ hn

/-- Change the row at a place, if there is one; its number and its id stay. -/
def modify (s : Store) (w : WalletId) (id : TransactionId) (f : Row → Row)
    (hnumber : ∀ row, (f row).number = row.number)
    (hid : ∀ row, (f row).transaction.id = row.transaction.id) : Store where
  rows := setRows s.rows w id ((s.rows w id).map f)
  nextNumber := s.nextNumber
  named _ _ _ h := by
    obtain ⟨_, rfl, hrow⟩ | ⟨_, hrow⟩ := setRows_eq_some h
    · obtain ⟨row, hs, rfl⟩ := Option.map_eq_some_iff.mp hrow
      rw [hid]
      exact s.named _ _ _ hs
    · exact s.named _ _ _ hrow
  fresh _ _ _ h := by
    obtain ⟨_, _, hrow⟩ | ⟨_, hrow⟩ := setRows_eq_some h
    · obtain ⟨row, hs, rfl⟩ := Option.map_eq_some_iff.mp hrow
      rw [hnumber]
      exact s.fresh _ _ _ hs
    · exact s.fresh _ _ _ hrow
  distinct w₁ id₁ row₁ w₂ id₂ row₂ h₁ h₂ hn := by
    have source : ∀ w' id' row', setRows s.rows w id ((s.rows w id).map f) w' id' = some row' →
        ∃ row, s.rows w' id' = some row ∧ row.number = row'.number := by
      intro w' id' row' h
      obtain ⟨rfl, rfl, hrow⟩ | ⟨_, hrow⟩ := setRows_eq_some h
      · obtain ⟨row, hs, rfl⟩ := Option.map_eq_some_iff.mp hrow
        exact ⟨row, hs, (hnumber row).symm⟩
      · exact ⟨row', hrow, rfl⟩
    obtain ⟨r₁, hs₁, hn₁⟩ := source _ _ _ h₁
    obtain ⟨r₂, hs₂, hn₂⟩ := source _ _ _ h₂
    exact s.distinct _ _ _ _ _ _ hs₁ hs₂ (by omega)

/-! ## The calls of the store -/

/-- `get_state`. -/
def getState (s : Store) (w : WalletId) (id : TransactionId) : Option TransactionState :=
  (s.rows w id).map (·.transaction.state)

/-- `delete_transaction`. -/
def deleteTransaction (s : Store) (w : WalletId) (id : TransactionId) : Store := s.erase w id

/-- Give the row at `old` the id `new`, which no row has. -/
def move (s : Store) (w : WalletId) (old new : TransactionId) (hfree : s.rows w new = none) :
    Store where
  rows := setRows (setRows s.rows w old none) w new ((s.rows w old).map (·.renamed new))
  nextNumber := s.nextNumber
  named _ _ _ h := by
    obtain ⟨_, rfl, hrow⟩ | ⟨_, hrow⟩ := setRows_eq_some h
    · obtain ⟨row, _, rfl⟩ := Option.map_eq_some_iff.mp hrow
      rfl
    · exact (s.erase w old).named _ _ _ hrow
  fresh _ _ _ h := by
    obtain ⟨_, _, hrow⟩ | ⟨_, hrow⟩ := setRows_eq_some h
    · obtain ⟨row, hs, rfl⟩ := Option.map_eq_some_iff.mp hrow
      have hlt : row.number < s.nextNumber := s.fresh _ _ _ hs
      exact hlt
    · exact (s.erase w old).fresh _ _ _ hrow
  distinct w₁ id₁ row₁ w₂ id₂ row₂ h₁ h₂ hn := by
    -- the moved row has left `old`, and only there was its number in use
    have moved : ∀ row row' w' id', (s.rows w old).map (·.renamed new) = some row →
        setRows s.rows w old none w' id' = some row' → row.number ≠ row'.number := by
      intro row row' w' id' hrow hrow' hnumber
      obtain ⟨source, hs, rfl⟩ := Option.map_eq_some_iff.mp hrow
      obtain ⟨_, _, hnone⟩ | ⟨hne, hs'⟩ := setRows_eq_some hrow'
      · cases hnone
      · obtain ⟨rfl, rfl⟩ := s.distinct _ _ _ _ _ _ hs hs' hnumber
        exact hne ⟨rfl, rfl⟩
    obtain ⟨hw₁, hid₁, hrow₁⟩ | ⟨_, hrow₁⟩ := setRows_eq_some h₁
    · obtain ⟨hw₂, hid₂, hrow₂⟩ | ⟨_, hrow₂⟩ := setRows_eq_some h₂
      · exact ⟨hw₁.trans hw₂.symm, hid₁.trans hid₂.symm⟩
      · exact absurd hn (moved _ _ _ _ hrow₁ hrow₂)
    · obtain ⟨_, _, hrow₂⟩ | ⟨_, hrow₂⟩ := setRows_eq_some h₂
      · exact absurd hn.symm (moved _ _ _ _ hrow₂ hrow₁)
      · exact (s.erase w old).distinct _ _ _ _ _ _ hrow₁ hrow₂ hn

/-- `rename_transaction`. Where no row has the old id there is nothing to change; an id that
another row has is refused. -/
def renameTransaction (s : Store) (w : WalletId) (old new : TransactionId) :
    Except GemServiceError Store :=
  if s.rows w old = none ∨ old = new then
    .ok s
  else if hfree : s.rows w new = none then
    .ok (s.move w old new hfree)
  else
    .error (.store "UNIQUE constraint failed")

/-- `update_transaction`: whether there was a row, and the table with the row's columns set. -/
def updateTransaction (s : Store) (w : WalletId) (id : TransactionId)
    (fields : GemTransactionStateUpdate) : Bool × Store :=
  ((s.rows w id).isSome, s.modify w id (·.updated fields) (fun _ => rfl) fun _ => rfl)

/-- The number of the row that holds a transaction once it is added. -/
def numberFor (s : Store) (w : WalletId) (id : TransactionId) : ℕ :=
  (s.rows w id).elim s.nextNumber (·.number)

lemma eq_place_of_numberFor {s : Store} {w w' : WalletId} {id id' : TransactionId} {row : Row}
    (h : s.rows w' id' = some row) (hn : row.number = s.numberFor w id) :
    w' = w ∧ id' = id := by
  cases hs : s.rows w id with
  | none =>
    have := s.fresh _ _ _ h
    simp only [numberFor, hs, Option.elim_none] at hn
    omega
  | some row' =>
    simp only [numberFor, hs, Option.elim_some] at hn
    exact s.distinct _ _ _ _ _ _ h hs hn

/-- One transaction of `add_transactions`. -/
def addTransaction (w : WalletId) (s : Store) (transaction : Transaction) : Store :=
  s.put w { number := s.numberFor w transaction.id, transaction, confirmationEtaSeconds := none }
    fun _ _ _ h hn => eq_place_of_numberFor h hn

/-- `add_transactions`. -/
def addTransactions (s : Store) (w : WalletId) (transactions : List Transaction) : Store :=
  transactions.foldl (addTransaction w) s

/-! ## Where the rows after a call come from -/

/-- Every row of `s'` is new or is a row of `s` in the same wallet, whose state it has changed as
`R` allows. -/
def Follows (R : TransactionState → TransactionState → Prop) (s s' : Store) : Prop :=
  s.nextNumber ≤ s'.nextNumber ∧ ∀ w id' row', s'.rows w id' = some row' →
    s.nextNumber ≤ row'.number ∨ ∃ id row, s.rows w id = some row ∧ row.number = row'.number ∧
      R row.transaction.state row'.transaction.state

namespace Follows

variable {R : TransactionState → TransactionState → Prop} {s s' s'' : Store}

/-- A row that is in both tables has changed its state as `R` allows. -/
lemma state (h : Follows R s s') {w : WalletId} {id id' : TransactionId} {row row' : Row}
    (hrow : s.rows w id = some row) (hrow' : s'.rows w id' = some row')
    (hn : row.number = row'.number) : R row.transaction.state row'.transaction.state := by
  obtain hnew | ⟨id₀, row₀, hrow₀, hn₀, hR⟩ := h.2 _ _ _ hrow'
  · have := s.fresh _ _ _ hrow
    omega
  · obtain ⟨_, rfl⟩ := s.distinct _ _ _ _ _ _ hrow hrow₀ (hn.trans hn₀.symm)
    rw [hrow] at hrow₀
    cases hrow₀
    exact hR

lemma refl (hR : ∀ a, R a a) (s : Store) : Follows R s s :=
  ⟨Nat.le_refl _, fun _ id' row' h => .inr ⟨id', row', h, rfl, hR _⟩⟩

lemma trans (hR : ∀ a b c, R a b → R b c → R a c) (h : Follows R s s')
    (h' : Follows R s' s'') : Follows R s s'' := by
  refine ⟨Nat.le_trans h.1 h'.1, fun w id'' row'' hrow'' => ?_⟩
  obtain hnew | ⟨id', row', hrow', hn', hR'⟩ := h'.2 _ _ _ hrow''
  · exact .inl (Nat.le_trans h.1 hnew)
  · obtain hnew | ⟨id, row, hrow, hn, hR₁⟩ := h.2 _ _ _ hrow'
    · exact .inl (hn' ▸ hnew)
    · exact .inr ⟨id, row, hrow, hn.trans hn', hR _ _ _ hR₁ hR'⟩

end Follows

section

variable {R : TransactionState → TransactionState → Prop}

/-- Deleting a row leaves the states of the others as they are. -/
lemma follows_deleteTransaction (hR : ∀ a, R a a) (s : Store) (w : WalletId)
    (id : TransactionId) : Follows R s (s.deleteTransaction w id) := by
  refine ⟨Nat.le_refl _, fun w' id' row' h => ?_⟩
  obtain ⟨_, _, hrow⟩ | ⟨_, hrow⟩ := setRows_eq_some h
  · cases hrow
  · exact .inr ⟨id', row', hrow, rfl, hR _⟩

/-- Renaming a row leaves all states as they are. -/
lemma follows_renameTransaction (hR : ∀ a, R a a) {s s' : Store} {w : WalletId}
    {old new : TransactionId} (h : s.renameTransaction w old new = .ok s') :
    Follows R s s' := by
  rw [renameTransaction] at h
  split at h
  · cases h
    exact .refl hR s
  · split at h
    · cases h
      refine ⟨Nat.le_refl _, fun w' id' row' hrow' => ?_⟩
      obtain ⟨rfl, _, hrow⟩ | ⟨_, hrow⟩ := setRows_eq_some hrow'
      · obtain ⟨row, hs, rfl⟩ := Option.map_eq_some_iff.mp hrow
        exact .inr ⟨old, row, hs, rfl, hR _⟩
      · obtain ⟨_, _, hnone⟩ | ⟨_, hs⟩ := setRows_eq_some hrow
        · cases hnone
        · exact .inr ⟨id', row', hs, rfl, hR _⟩
    · cases h

/-- An update changes the state of the row it is for, and no other. -/
lemma follows_updateTransaction (hR : ∀ a, R a a) {s : Store} {w : WalletId}
    {id : TransactionId} {fields : GemTransactionStateUpdate}
    (h : ∀ state, s.getState w id = some state → R state fields.state) :
    Follows R s (s.updateTransaction w id fields).2 := by
  refine ⟨Nat.le_refl _, fun w' id' row' hrow' => ?_⟩
  obtain ⟨rfl, rfl, hrow⟩ | ⟨_, hrow⟩ := setRows_eq_some hrow'
  · obtain ⟨row, hs, rfl⟩ := Option.map_eq_some_iff.mp hrow
    exact .inr ⟨id', row, hs, rfl, h _ (by rw [getState, hs]; rfl)⟩
  · exact .inr ⟨id', row', hrow, rfl, hR _⟩

/-- Adding a transaction changes the state of the row it has, if it has one. -/
theorem follows_addTransaction (hR : ∀ a, R a a) {s : Store} {w : WalletId}
    {transaction : Transaction}
    (h : ∀ state, s.getState w transaction.id = some state → R state transaction.state) :
    Follows R s (addTransaction w s transaction) := by
  refine ⟨Nat.le_max_left _ _, fun w' id' row' hrow' => ?_⟩
  obtain ⟨rfl, rfl, hrow⟩ | ⟨_, hrow⟩ := setRows_eq_some hrow'
  · cases hrow
    cases hs : s.rows w' transaction.id with
    | none => exact .inl (by simp [numberFor, hs])
    | some row =>
      exact .inr ⟨_, row, hs, by simp [numberFor, hs], h _ (by rw [getState, hs]; rfl)⟩
  · exact .inr ⟨id', row', hrow, rfl, hR _⟩

/-- The last of a list of transactions that has an id. -/
def lastAdded (transactions : List Transaction) (id : TransactionId) : Option Transaction :=
  transactions.reverse.find? (·.id = id)

/-- The row of a stored transaction stays where it is when transactions are added, and has the
state of the last one with its id. -/
theorem rows_addTransactions {s : Store} {w : WalletId} {id : TransactionId} {row : Row}
    (transactions : List Transaction) (h : s.rows w id = some row) :
    ∃ row', (s.addTransactions w transactions).rows w id = some row' ∧
      row'.number = row.number ∧ row'.transaction.state =
        (lastAdded transactions id).elim row.transaction.state (·.state) := by
  induction transactions using List.reverseRecOn with
  | nil => exact ⟨row, h, rfl, rfl⟩
  | append_singleton transactions transaction ih =>
    obtain ⟨row₁, hrow₁, hn₁, hstate₁⟩ := ih
    rw [addTransactions, List.foldl_append]
    change ∃ row', (addTransaction w (s.addTransactions w transactions) transaction).rows w id =
      some row' ∧ _
    by_cases hid : transaction.id = id
    · subst hid
      refine ⟨_, setRows_self _ _ _ _, ?_, ?_⟩
      · simp [numberFor, hrow₁, hn₁]
      · simp [lastAdded]
    · refine ⟨row₁, ?_, hn₁, ?_⟩
      · simpa [addTransaction, put, setRows, Ne.symm hid] using hrow₁
      · simpa [lastAdded, hid] using hstate₁

/-- Adding transactions changes the state of each row they are for to the last one added. -/
theorem follows_addTransactions (hR : ∀ a, R a a) {s : Store} {w : WalletId}
    {transactions : List Transaction}
    (h : ∀ id state transaction, s.getState w id = some state →
      lastAdded transactions id = some transaction → R state transaction.state) :
    Follows R s (s.addTransactions w transactions) := by
  have origin : Follows (fun _ _ => True) s (s.addTransactions w transactions) := by
    clear h
    rw [addTransactions]
    induction transactions generalizing s with
    | nil => exact .refl (fun _ => trivial) s
    | cons transaction transactions ih =>
      exact (follows_addTransaction (fun _ => trivial) fun _ _ => trivial).trans
        (fun _ _ _ _ _ => trivial) ih
  have elsewhere : ∀ w' id, w' ≠ w →
      (s.addTransactions w transactions).rows w' id = s.rows w' id := by
    intro w' id hw
    clear h origin
    rw [addTransactions]
    induction transactions generalizing s with
    | nil => rfl
    | cons transaction transactions ih =>
      rw [List.foldl_cons, ih]
      simp [addTransaction, put, setRows, hw]
  refine ⟨origin.1, fun w' id' row' hrow' => ?_⟩
  obtain hnew | ⟨id, row, hrow, hn, -⟩ := origin.2 _ _ _ hrow'
  · exact .inl hnew
  · refine .inr ⟨id, row, hrow, hn, ?_⟩
    by_cases hw : w' = w
    · subst hw
      obtain ⟨row'', hrow'', hn'', hstate⟩ := rows_addTransactions transactions hrow
      obtain ⟨_, rfl⟩ := (s.addTransactions w' transactions).distinct _ _ _ _ _ _ hrow'' hrow'
        (hn''.trans hn)
      rw [hrow'] at hrow''
      cases hrow''
      rw [hstate]
      cases hlast : lastAdded transactions id with
      | none => exact hR _
      | some transaction => exact h id _ transaction (by rw [getState, hrow]; rfl) hlast
    · rw [elsewhere w' id' hw] at hrow'
      obtain ⟨_, rfl⟩ := s.distinct _ _ _ _ _ _ hrow hrow' hn
      rw [hrow] at hrow'
      cases hrow'
      exact hR _

end

end Store

end GemCore.TransactionStateService

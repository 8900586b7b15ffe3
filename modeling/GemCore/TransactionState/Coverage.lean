import GemCore.TransactionState.Interleaving
import GemCore.TransactionState.Tracker

/-!
# Is every pending transaction polled?

`track_pending`, `track` and `poll` of `gemstone/src/services/transaction_state`, with the
wallets the polls work for and the table they work on. A transaction sent from one wallet of a
user to another is stored in both, under one id, and the map of the polls has one entry for it.

A poll makes its update's store calls one by one (`Update.advance`), and every other poll may run
between two of them.

## Main definitions

* `WalletPoll` — a poll with its wallet and where it stands.
* `WalletPoll.watching` — the id it is concerned with.
* `walletStep` — one event.
* `Covered` — some poll keeps asking for a pair.
* `EveryPendingPolled` — a pair whose poll was started is covered for as long as its row is stored
  and uncompleted.
* `Undisturbed` — the condition on an event.

## Main results

* `everyPendingPolled_of_undisturbed` — in a run of undisturbed events every pending transaction is
  polled.
* `not_everyPendingPolled_example` — a transfer between two wallets of one user is polled for one of
  them only.
-/

namespace GemCore.TransactionStateService

open Lib

variable {M : Type}

/-- Where a poll stands, with the transaction it has at hand. -/
inductive WalletStage (M : Type) where
  /-- It sleeps. -/
  | sleeping (current : Transaction)
  /-- It has called `update`, which waits for the node. -/
  | asking (current : Transaction)
  /-- The node has answered and `update` is making its store calls. -/
  | updating (update : Update M)
  /-- It has been told of a new id. -/
  | following (id : TransactionId)
  /-- It reads the transaction. -/
  | reading (id : TransactionId)
  /-- It has left its loop. -/
  | ending

/-- A running poll: its number, its wallet and where it stands. -/
structure WalletPoll (M : Type) where
  number : ℕ
  wallet : WalletId
  stage : WalletStage M

/-- The table, the map of the polls and the polls that run, by task. -/
structure WalletConfig (M : Type) where
  store : Store
  tracking : Tracking
  polls : ℕ → Option (WalletPoll M)

/-- What may happen. There is no `cancel`, and no poll is dropped before its end. -/
inductive WalletEvent (M : Type) where
  /-- `track_transaction` is called for a wallet's transaction, as task `n`. -/
  | start (n : ℕ) (w : WalletId) (transaction : Transaction)
  /-- A sleep is over: the poll checks whether it is tracking and calls `update`. -/
  | wake (n : ℕ)
  /-- The node answers, at a certain time. -/
  | answer (n : ℕ) (answer : Except String (TransactionUpdate M)) (now : ℤ)
  /-- The update makes its next store call, which may fail. -/
  | advance (n : ℕ) (failure : Option String)
  /-- The update returns. -/
  | result (n : ℕ)
  /-- The poll follows the id it was told. -/
  | follow (n : ℕ)
  /-- The poll reads the transaction from the store, which may fail. -/
  | read (n : ℕ) (failure : Option String)
  /-- The poll is over and is dropped. -/
  | drop (n : ℕ)
  /-- Transactions are stored. -/
  | add (w : WalletId) (transactions : List Transaction)
  /-- A transaction is taken out of the store. -/
  | remove (w : WalletId) (id : TransactionId)

/-- The polls that `track_pending` starts for the pairs it has read, as tasks from `first` on. -/
def trackPending (first : ℕ) (pending : List (WalletId × Transaction)) : List (WalletEvent M) :=
  (pending.zipIdx first).map fun (pair, n) => .start n pair.1 pair.2

/-- The polls that `track` starts. -/
def track (first : ℕ) (w : WalletId) (transactions : List Transaction) : List (WalletEvent M) :=
  trackPending first (transactions.map fun transaction => (w, transaction))

/-- The configuration with one poll set. -/
def WalletConfig.set (c : WalletConfig M) (n : ℕ) (poll : Option (WalletPoll M)) :
    WalletConfig M :=
  { c with polls := Function.update c.polls n poll }

/-- Where a poll stands once its update has returned. -/
def WalletStage.answered (current : Transaction) :
    Except GemServiceError (Option GemTransactionStateResult) → WalletStage M
  | .error _ => .sleeping current
  | .ok none => .ending
  | .ok (some result) =>
    if result.transactionId ≠ current.id then
      .following result.transactionId
    else
      .reading result.transactionId

/-- Where a poll stands once it has read the transaction. -/
def WalletStage.afterRead : Except GemServiceError (Option Row) → WalletStage M
  | .ok (some row) =>
    if row.transaction.state.isCompleted then .ending else .sleeping row.transaction
  | _ => .ending

/-- `get_transaction`, which may fail. -/
def Store.getTransaction (s : Store) (w : WalletId) (id : TransactionId) :
    Option String → Except GemServiceError (Option Row)
  | none => .ok (s.rows w id)
  | some msg => .error (.store msg)

/-- One event of a poll that runs. -/
def WalletPoll.step (serde : Serde M) (c : WalletConfig M) (n : ℕ) (poll : WalletPoll M) :
    WalletEvent M → Option (WalletConfig M)
  | .wake _ =>
    match poll.stage with
    | .sleeping current => some (c.set n (some { poll with
        stage := if c.tracking.isTracking poll.number then .asking current else .ending }))
    | _ => none
  | .answer _ answer now =>
    match poll.stage with
    | .asking current => some (c.set n (some { poll with
        stage := .updating (.begin serde current answer now) }))
    | _ => none
  | .advance _ failure =>
    match poll.stage with
    | .updating update =>
      (update.advance serde poll.wallet c.store failure).map fun next =>
        ({ c with store := next.2 } : WalletConfig M).set n
          (some { poll with stage := .updating { update with stage := next.1 } })
    | _ => none
  | .result _ =>
    match poll.stage with
    | .updating update =>
      match update.stage with
      | .finished result => some (c.set n (some { poll with
          stage := .answered update.transaction result }))
      | _ => none
    | _ => none
  | .follow _ =>
    match poll.stage with
    | .following id => some
      (({ c with tracking := c.tracking.follow poll.number id } : WalletConfig M).set n
        (some { poll with stage := .reading id }))
    | _ => none
  | .read _ failure =>
    match poll.stage with
    | .reading id => some (c.set n (some { poll with
        stage := .afterRead (c.store.getTransaction poll.wallet id failure) }))
    | _ => none
  | .drop _ =>
    match poll.stage with
    | .ending => some
      (({ c with tracking := c.tracking.drop poll.number } : WalletConfig M).set n none)
    | _ => none
  | .start _ _ _ | .add _ _ | .remove _ _ => none

/-- One event. -/
def walletStep (serde : Serde M) (c : WalletConfig M) (e : WalletEvent M) :
    Option (WalletConfig M) :=
  match e with
  | .start n w transaction =>
    if (c.polls n).isSome then
      none
    else
      match c.tracking.start transaction.id with
      | none => some c
      | some (number, tracking) => some
        (({ c with tracking } : WalletConfig M).set n
          (some { number, wallet := w, stage := .sleeping transaction }))
  | .add w transactions => some { c with store := c.store.addTransactions w transactions }
  | .remove w id => some { c with store := c.store.deleteTransaction w id }
  | .wake n | .answer n _ _ | .advance n _ | .result n | .follow n | .read n _ | .drop n =>
    (c.polls n).bind fun poll => poll.step serde c n e

/-- A table before any poll runs. -/
def WalletConfig.initial (s : Store) : WalletConfig M := ⟨s, .default, fun _ => none⟩

/-! ## Which pairs are polled -/

/-- The id of the row an update is concerned with: once it has moved on from the old id, the new
one; none once it has found that there is no row. -/
def Update.watching (update : Update M) : Option TransactionId :=
  match update.stage with
  | .lookup _ | .delete _ _ | .rename _ | .finished (.error _) => some update.transaction.id
  | .write id _ _ _ | .read id => some id
  | .finished (.ok result) => result.map (·.transactionId)

/-- The id a poll is concerned with, until it leaves its loop. -/
def WalletPoll.watching (poll : WalletPoll M) : Option TransactionId :=
  match poll.stage with
  | .sleeping current | .asking current => some current.id
  | .updating update => update.watching
  | .following id | .reading id => some id
  | .ending => none

/-- A poll that will have itself put into the map: it is told of a new id, or its update is
concerned with another id than the one it was called with. -/
def WalletPoll.isMoving (poll : WalletPoll M) : Bool :=
  match poll.stage with
  | .updating update => update.watching ≠ some update.transaction.id
  | .following _ => true
  | _ => false

/-- A poll that passes its next check: it is in the map or about to be put there. -/
def WalletPoll.Stays (tracking : Tracking) (poll : WalletPoll M) : Prop :=
  tracking.isTracking poll.number = true ∨ poll.isMoving = true

/-- Some poll of the wallet is in its loop, concerned with the id, and passes its next check. -/
def Covered (c : WalletConfig M) (w : WalletId) (id : TransactionId) : Prop :=
  ∃ n poll, c.polls n = some poll ∧ poll.wallet = w ∧ poll.watching = some id ∧
    poll.Stays c.tracking

/-- The row with this number is stored in a wallet, uncompleted. -/
def OpenRow (s : Store) (w : WalletId) (number : ℕ) : Prop :=
  ∃ id row, s.rows w id = some row ∧ row.number = number ∧
    row.transaction.state.isCompleted = false

/-- The row is stored and uncompleted at each moment of a run. -/
def StaysOpen (serde : Serde M) (w : WalletId) (number : ℕ) (c : WalletConfig M)
    (es : List (WalletEvent M)) : Prop :=
  ∀ es₁ es₂ c', es = es₁ ++ es₂ → runEvents (walletStep serde) c es₁ = some c' →
    OpenRow c'.store w number

/-- In a run of a table: once a row has been read and the poll of its pair has been started,
some poll keeps asking for that wallet and the id the row has by then, as long as the row is
stored and uncompleted. -/
def EveryPendingPolled (serde : Serde M) (s : Store) (es : List (WalletEvent M)) : Prop :=
  ∀ es₁ es₂ c₁ c₂ w id row, es = es₁ ++ es₂ →
    runEvents (walletStep serde) (.initial s) es₁ = some c₁ →
    runEvents (walletStep serde) c₁ es₂ = some c₂ →
    c₁.store.rows w id = some row →
    (∃ n transaction, .start n w transaction ∈ es₂ ∧ transaction.id = id) →
    StaysOpen serde w row.number c₁ es₂ →
    ∀ id' row', c₂.store.rows w id' = some row' → row'.number = row.number → Covered c₂ w id'

/-- The condition on an event. The numbers of polls have not run out, and a transaction that is
stored and uncompleted is started under an id that is free or is that of a poll on this very
transaction of this wallet. An update that has moved its row makes its remaining calls, and can
write the report out. A poll that follows a new id takes it from no other poll, unless that poll
is on the same transaction of the same wallet, or does without the id. Reading the transaction
does not fail. -/
def Undisturbed (serde : Serde M) (c : WalletConfig M) : WalletEvent M → Prop
  | .start _ w transaction =>
    c.tracking.lastPoll + 1 < 2 ^ 64 ∧
      ∀ number row, c.tracking.polls.lookup transaction.id = some number →
        c.store.rows w transaction.id = some row → row.transaction.state.isCompleted = false →
        ∃ n poll, c.polls n = some poll ∧ poll.number = number ∧ poll.wallet = w ∧
          poll.watching = some transaction.id
  | .advance n failure => ∀ poll update, c.polls n = some poll → poll.stage = .updating update →
      (update.watching ≠ some update.transaction.id → failure = none) ∧
      ∀ newId, update.stage = .rename newId → failure = none → ∃ fields,
        stateUpdate serde (nextState (hasTimedOut serde update.transaction update.now)
          update.transaction.state update.report.state) update.report.changes = .ok fields
  | .follow n => ∀ poll id, c.polls n = some poll → poll.stage = .following id →
      ∀ m other, c.polls m = some other → c.tracking.polls.lookup id = some other.number →
        other.watching = none ∨ other.Stays (c.tracking.follow poll.number id) ∨
          (other.wallet = poll.wallet ∧ other.watching = some id)
  | .read _ failure => failure = none
  | _ => True

/-! ## What a call of an update does to a watched row -/

section

variable {serde : Serde M} {w : WalletId} {update : Update M} {s s' : Store} {stage : Stage}
  {failure : Option String}

/-- A row keeps its place in a table that has the same rows. -/
lemma Store.place_unique {v : WalletId} {id id' : TransactionId} {row row' : Row}
    (hrow : s.rows v id = some row) (hrow' : s.rows v id' = some row')
    (hn : row'.number = row.number) : id' = id :=
  (s.distinct _ _ _ _ _ _ hrow' hrow hn).2

/-- Setting columns moves no row. -/
lemma Store.place_updateTransaction {v : WalletId} {id id' target : TransactionId}
    {row row' : Row} {fields : GemTransactionStateUpdate} (hrow : s.rows v id = some row)
    (hrow' : (s.updateTransaction w target fields).2.rows v id' = some row')
    (hn : row'.number = row.number) : id' = id := by
  obtain ⟨rfl, rfl, hmap⟩ | ⟨-, hold⟩ := setRows_eq_some hrow'
  · obtain ⟨source, hsource, rfl⟩ := Option.map_eq_some_iff.mp hmap
    exact s.place_unique hrow hsource hn
  · exact s.place_unique hrow hold hn

/-- Deleting a row moves none. -/
lemma Store.place_deleteTransaction {v : WalletId} {id id' target : TransactionId}
    {row row' : Row} (hrow : s.rows v id = some row)
    (hrow' : (s.deleteTransaction w target).rows v id' = some row')
    (hn : row'.number = row.number) : id' = id ∧ ¬ (v = w ∧ id = target) := by
  obtain ⟨-, -, hnone⟩ | ⟨hne, hold⟩ := setRows_eq_some hrow'
  · cases hnone
  · obtain rfl := s.place_unique hrow hold hn
    exact ⟨rfl, hne⟩

/-- A row keeps its place when another one is renamed. -/
lemma Store.place_renameTransaction {v : WalletId} {id id' old new : TransactionId}
    {row row' : Row} (h : s.renameTransaction w old new = .ok s') (hrow : s.rows v id = some row)
    (hrow' : s'.rows v id' = some row') (hn : row'.number = row.number) :
    if v = w ∧ id = old then id' = new else id' = id := by
  rw [renameTransaction] at h
  split at h
  case isTrue hsame =>
    cases h
    obtain rfl := s.place_unique hrow hrow' hn
    split
    case isTrue hplace =>
      obtain ⟨rfl, rfl⟩ := hplace
      rw [hrow] at hsame
      simpa using hsame
    case isFalse => rfl
  case isFalse =>
    split at h
    case isTrue hfree =>
      cases h
      obtain ⟨rfl, rfl, hmap⟩ | ⟨-, hmoved⟩ := setRows_eq_some hrow'
      · obtain ⟨source, hsource, rfl⟩ := Option.map_eq_some_iff.mp hmap
        obtain rfl := s.place_unique hrow hsource hn
        simp
      · obtain ⟨-, -, hnone⟩ | ⟨hne, hold⟩ := setRows_eq_some hmoved
        · cases hnone
        · obtain rfl := s.place_unique hrow hold hn
          rw [if_neg hne]
    case isFalse => cases h

/-- Once it is known which row a report is for, the update is concerned with that row. -/
theorem watching_settle (update : Update M) {timedOut : Bool} {id : TransactionId} {current : TransactionState}
    (h : id = update.transaction.id ∨ ∃ fields,
      stateUpdate serde (nextState timedOut current update.report.state) update.report.changes =
        .ok fields) :
    ({ update with stage := .settle serde timedOut update.report id current } :
      Update M).watching = some id := by
  simp only [Stage.settle]
  cases hfields : stateUpdate serde (nextState timedOut current update.report.state)
    update.report.changes with
  | error msg =>
    obtain rfl | ⟨fields, hok⟩ := h
    · rfl
    · rw [hfields] at hok
      cases hok
  | ok fields =>
    dsimp only
    split <;> rfl

/-- An update that begins is concerned with the transaction it was called with. -/
theorem watching_begin (serde : Serde M) (transaction : Transaction)
    (answer : Except String (TransactionUpdate M)) (now : ℤ) :
    (Update.begin serde transaction answer now).watching = some transaction.id ∧
      (Update.begin serde transaction answer now).transaction = transaction := by
  rw [Update.begin]
  split
  case h_1 report _ =>
    refine ⟨?_, rfl⟩
    rw [Stage.first]
    split
    · rfl
    · exact watching_settle ⟨transaction, answer, now, report, .lookup ""⟩ (.inl rfl)
  case h_2 => exact ⟨rfl, rfl⟩

/-- Only renaming moves a row, and the update that does it is concerned with that row. -/
theorem moved_by_advance (h : update.advance serde w s failure = some (stage, s'))
    {v : WalletId} {id id' : TransactionId} {row row' : Row} (hrow : s.rows v id = some row)
    (hrow' : s'.rows v id' = some row') (hn : row'.number = row.number) (hne : id' ≠ id) :
    v = w ∧ update.watching = some id ∧ update.transaction.id = id := by
  obtain ⟨transaction, answer, now, report, stage₀⟩ := update
  cases failure with
  | some msg =>
    obtain ⟨called, -, hpair⟩ := Option.map_eq_some_iff.mp h
    cases hpair
    exact absurd (s.place_unique hrow hrow' hn) hne
  | none =>
    simp only [Update.advance, Update.call] at h
    cases stage₀ with
    | finished result => cases h
    | lookup hash =>
      dsimp only at h
      split at h <;> cases h <;> exact absurd (s.place_unique hrow hrow' hn) hne
    | delete newId existing =>
      cases h
      exact absurd (Store.place_deleteTransaction hrow hrow' hn).1 hne
    | rename newId =>
      dsimp only at h
      split at h
      case h_1 renamed hrename =>
        cases h
        have hplace := Store.place_renameTransaction hrename hrow hrow' hn
        split at hplace
        case isTrue hold =>
          obtain ⟨rfl, rfl⟩ := hold
          exact ⟨rfl, rfl, rfl⟩
        case isFalse => exact absurd hplace hne
      case h_2 e hrename =>
        cases h
        exact absurd (s.place_unique hrow hrow' hn) hne
    | write id₀ current next fields =>
      cases h
      exact absurd (Store.place_updateTransaction hrow hrow' hn) hne
    | read id₀ =>
      cases h
      exact absurd (s.place_unique hrow hrow' hn) hne

/-- An update stays concerned with the row it is concerned with, wherever it goes. -/
theorem watching_advance (h : update.advance serde w s failure = some (stage, s'))
    (hfailure : update.watching ≠ some update.transaction.id → failure = none)
    (hwritable : ∀ newId, update.stage = .rename newId → failure = none → ∃ fields,
      stateUpdate serde (nextState (hasTimedOut serde update.transaction update.now)
        update.transaction.state update.report.state) update.report.changes = .ok fields)
    {id id' : TransactionId} {row row' : Row} (hwatching : update.watching = some id)
    (hrow : s.rows w id = some row) (hrow' : s'.rows w id' = some row')
    (hn : row'.number = row.number) :
    ({ update with stage } : Update M).watching = some id' := by
  obtain ⟨transaction, answer, now, report, stage₀⟩ := update
  cases failure with
  | some msg =>
    obtain ⟨called, -, hpair⟩ := Option.map_eq_some_iff.mp h
    cases hpair
    obtain rfl := s.place_unique hrow hrow' hn
    by_contra hmoved
    refine absurd (hfailure ?_) (by simp)
    rw [hwatching]
    exact fun hid => hmoved hid.symm
  | none =>
    simp only [Update.advance, Update.call] at h
    cases stage₀ with
    | finished result => cases h
    | lookup hash =>
      dsimp only at h
      split at h <;> cases h <;> obtain rfl := s.place_unique hrow hrow' hn <;> exact hwatching
    | delete newId existing =>
      cases h
      cases hwatching
      exact absurd ⟨rfl, rfl⟩ (Store.place_deleteTransaction hrow hrow' hn).2
    | rename newId =>
      cases hwatching
      dsimp only at h
      split at h
      case h_1 renamed hrename =>
        cases h
        have hplace := Store.place_renameTransaction hrename hrow hrow' hn
        rw [if_pos ⟨rfl, rfl⟩] at hplace
        obtain rfl := hplace
        exact watching_settle ⟨transaction, answer, now, report, .rename id'⟩
          (.inr (hwritable _ rfl rfl))
      case h_2 e hrename =>
        cases h
        obtain rfl := s.place_unique hrow hrow' hn
        rfl
    | write id₀ current next fields =>
      cases h
      cases hwatching
      obtain rfl := Store.place_updateTransaction hrow hrow' hn
      simp [Update.watching, Store.updateTransaction, hrow]
    | read id₀ =>
      cases h
      cases hwatching
      obtain rfl := s.place_unique hrow hrow' hn
      simp [Update.watching, Store.getState, hrow]

end

/-! ## What an event does to the polls -/

lemma WalletConfig.set_polls_eq_some {c : WalletConfig M} {n m : ℕ}
    {poll : Option (WalletPoll M)} {poll' : WalletPoll M} :
    (c.set n poll).polls m = some poll' ↔
      (m = n ∧ poll = some poll') ∨ (m ≠ n ∧ c.polls m = some poll') := by
  by_cases hm : m = n
  · subst hm
    simp [WalletConfig.set]
  · simp [WalletConfig.set, hm]

/-- The numbers of polls are in use once, and none is above the last one. -/
structure WalletConfig.Inv (c : WalletConfig M) : Prop where
  distinct : ∀ n m poll poll', n ≠ m → c.polls n = some poll → c.polls m = some poll' →
    poll.number ≠ poll'.number
  number_le : ∀ n poll, c.polls n = some poll → poll.number ≤ c.tracking.lastPoll

namespace WalletConfig.Inv

variable {c : WalletConfig M} {n : ℕ} {poll : WalletPoll M}

lemma initial (s : Store) : (WalletConfig.initial s : WalletConfig M).Inv where
  distinct _ _ _ _ _ h := by cases h
  number_le _ _ h := by cases h

/-- A poll moves on under its own number. -/
lemma replace (h : c.Inv) {store : Store} {tracking : Tracking}
    (htracking : tracking.lastPoll = c.tracking.lastPoll) (hpoll : c.polls n = some poll)
    {poll₁ : Option (WalletPoll M)} (hnumber : ∀ poll', poll₁ = some poll' →
      poll'.number = poll.number) :
    ((⟨store, tracking, c.polls⟩ : WalletConfig M).set n poll₁).Inv := by
  obtain ⟨hdistinct, hle⟩ := numbers_update h.distinct h.number_le (Nat.le_of_eq htracking.symm)
    fun poll' ha => .inl ⟨poll, hpoll, (hnumber poll' ha).symm⟩
  exact ⟨hdistinct, hle⟩

/-- A new poll has a number that none has had. -/
lemma start (h : c.Inv) (n : ℕ) (polls : AssocMap TransactionId ℕ) (w : WalletId)
    (stage : WalletStage M) :
    ((⟨c.store, ⟨c.tracking.lastPoll + 1, polls⟩, c.polls⟩ : WalletConfig M).set n
      (some ⟨c.tracking.lastPoll + 1, w, stage⟩)).Inv := by
  obtain ⟨hdistinct, hle⟩ := @numbers_update _ WalletPoll.number _ _ _ n
    (some ⟨c.tracking.lastPoll + 1, w, stage⟩) h.distinct h.number_le (Nat.le_succ _) fun _ ha =>
      .inr (by cases ha; exact ⟨Nat.lt_succ_self _, Nat.le_refl _⟩)
  exact ⟨hdistinct, hle⟩

end WalletConfig.Inv

/-! ## What an event does to the pairs that are polled -/

/-- An uncompleted row that is polled, or has changed its id, is polled afterwards, unless it is
completed or gone. -/
def KeepsCover (c c' : WalletConfig M) : Prop :=
  ∀ w id id' row row', c.store.rows w id = some row → c'.store.rows w id' = some row' →
    row'.number = row.number → row.transaction.state.isCompleted = false →
    Covered c w id ∨ id' ≠ id → Covered c' w id'

section

variable {serde : Serde M} {c c' : WalletConfig M} {n : ℕ} {poll : WalletPoll M}

/-- A poll that goes to another stage without a change of its id keeps every pair covered. -/
theorem keepsCover_set (hpoll : c.polls n = some poll) {stage : WalletStage M}
    (hkeep : ∀ id row, c.store.rows poll.wallet id = some row →
      row.transaction.state.isCompleted = false → poll.watching = some id →
      poll.Stays c.tracking → ({ poll with stage } : WalletPoll M).watching = some id ∧
        ({ poll with stage } : WalletPoll M).Stays c.tracking) :
    KeepsCover c (c.set n (some { poll with stage })) := by
  intro w id id' row row' hrow hrow' hn hopen hcovered
  obtain rfl := c.store.place_unique hrow hrow' hn
  obtain hcovered | hne := hcovered
  · obtain ⟨m, poll', hpoll', hwallet, hwatching, hstays⟩ := hcovered
    by_cases hm : m = n
    · subst hm
      rw [hpoll] at hpoll'
      cases hpoll'
      obtain rfl := hwallet
      obtain ⟨hwatching', hstays'⟩ := hkeep _ row hrow hopen hwatching hstays
      exact ⟨m, _, WalletConfig.set_polls_eq_some.mpr (.inl ⟨rfl, rfl⟩), rfl, hwatching', hstays'⟩
    · exact ⟨m, poll', WalletConfig.set_polls_eq_some.mpr (.inr ⟨hm, hpoll'⟩), hwallet, hwatching,
        hstays⟩
  · exact absurd rfl hne

/-- A call of an update keeps every pair covered: a row it moves is covered by its own poll. -/
theorem keepsCover_advance {update : Update M} {failure : Option String} {stage : Stage}
    {store : Store} (hpoll : c.polls n = some poll) (hstage : poll.stage = .updating update)
    (hundisturbed : Undisturbed serde c (.advance n failure))
    (h : update.advance serde poll.wallet c.store failure = some (stage, store)) :
    KeepsCover c (({ c with store } : WalletConfig M).set n
      (some { poll with stage := .updating { update with stage } })) := by
  obtain ⟨hfailure, hwritable⟩ := hundisturbed poll update hpoll hstage
  intro w id id' row row' hrow hrow' hn hopen hcovered
  change store.rows w id' = some row' at hrow'
  -- what the poll itself is concerned with it stays concerned with
  have own : poll.wallet = w → update.watching = some id →
      poll.Stays c.tracking ∨ id' ≠ update.transaction.id →
      Covered (({ c with store } : WalletConfig M).set n
        (some { poll with stage := .updating { update with stage } })) w id' := by
    rintro rfl hwatching hstays
    have hwatching' := watching_advance h hfailure hwritable hwatching hrow hrow' hn
    refine ⟨n, _, WalletConfig.set_polls_eq_some.mpr (.inl ⟨rfl, rfl⟩), rfl, hwatching', ?_⟩
    by_cases hsame : id' = update.transaction.id
    · obtain htracking | hmoving := hstays.resolve_right (fun hne => hne hsame)
      · exact .inl htracking
      · -- a row that had another id than the transaction does not come back to that id
        have hne : update.watching ≠ some update.transaction.id := by
          simpa [WalletPoll.isMoving, hstage] using hmoving
        have hid : id' ≠ id := by
          rintro rfl
          exact hne (hsame ▸ hwatching)
        have hmoved := moved_by_advance h hrow hrow' hn hid
        exact absurd (hmoved.2.1.trans (congrArg some hmoved.2.2.symm)) hne
    · refine .inr ?_
      simp only [WalletPoll.isMoving, hwatching', ne_eq, Option.some.injEq, hsame,
        not_false_eq_true, decide_true]
  by_cases hid : id' = id
  · obtain hcovered | hne := hcovered
    · obtain ⟨m, poll', hpoll', hwallet, hwatching, hstays⟩ := hcovered
      by_cases hm : m = n
      · subst hm
        rw [hpoll] at hpoll'
        cases hpoll'
        exact own hwallet (by simpa [WalletPoll.watching, hstage] using hwatching) (.inl hstays)
      · refine ⟨m, poll', WalletConfig.set_polls_eq_some.mpr (.inr ⟨hm, hpoll'⟩), hwallet, ?_,
          hstays⟩
        rw [hid]
        exact hwatching
    · exact absurd hid hne
  · obtain ⟨rfl, hwatching, htransaction⟩ := moved_by_advance h hrow hrow' hn hid
    exact own rfl hwatching (.inr fun hsame => hid (hsame.trans htransaction))

/-- A poll that follows a new id keeps every pair covered, if no poll is left without an entry
that needs one. -/
theorem keepsCover_follow {id₀ : TransactionId} (hpoll : c.polls n = some poll)
    (hstage : poll.stage = .following id₀) (hundisturbed : Undisturbed serde c (.follow n)) :
    KeepsCover c (({ c with tracking := c.tracking.follow poll.number id₀ } :
      WalletConfig M).set n (some { poll with stage := .reading id₀ })) := by
  intro w id id' row row' hrow hrow' hn hopen hcovered
  obtain rfl := c.store.place_unique hrow hrow' hn
  obtain hcovered | hne := hcovered
  · -- the poll itself is in the map now
    have htracking : (c.tracking.follow poll.number id₀).isTracking poll.number = true :=
      Tracking.isTracking_iff.mpr ⟨id₀, by simp [Tracking.follow]⟩
    have own : poll.wallet = w → id' = id₀ →
        Covered (({ c with tracking := c.tracking.follow poll.number id₀ } :
          WalletConfig M).set n (some { poll with stage := .reading id₀ })) w id' := by
      rintro rfl rfl
      exact ⟨n, _, WalletConfig.set_polls_eq_some.mpr (.inl ⟨rfl, rfl⟩), rfl, rfl, .inl htracking⟩
    obtain ⟨m, poll', hpoll', hwallet, hwatching, hstays⟩ := hcovered
    by_cases hm : m = n
    · subst hm
      rw [hpoll] at hpoll'
      cases hpoll'
      refine own hwallet ?_
      simpa [WalletPoll.watching, hstage, eq_comm] using hwatching
    · have stays : poll'.Stays (c.tracking.follow poll.number id₀) →
          Covered (({ c with tracking := c.tracking.follow poll.number id₀ } :
            WalletConfig M).set n (some { poll with stage := .reading id₀ })) w id' := fun h =>
        ⟨m, poll', WalletConfig.set_polls_eq_some.mpr (.inr ⟨hm, hpoll'⟩), hwallet, hwatching, h⟩
      by_cases hlost : c.tracking.polls.lookup id₀ = some poll'.number
      · obtain hnone | hkept | ⟨hsame, hid⟩ :=
          hundisturbed poll id₀ hpoll hstage m poll' hpoll' hlost
        · rw [hnone] at hwatching
          cases hwatching
        · exact stays hkept
        · rw [hid] at hwatching
          cases hwatching
          exact own (hsame.symm.trans hwallet) rfl
      · -- the entry that keeps the other poll in the map is not the one that is overwritten
        refine stays (hstays.imp_left fun h => ?_)
        obtain ⟨id₁, hid₁⟩ := Tracking.isTracking_iff.mp h
        refine Tracking.isTracking_iff.mpr ⟨id₁, ?_⟩
        have hne : id₁ ≠ id₀ := by
          rintro rfl
          exact hlost hid₁
        simp only [Tracking.follow, AssocMap.lookup_insert_eq, hne, if_false]
        exact hid₁
  · exact absurd rfl hne

/-- A poll that is dropped at its end keeps every pair covered. -/
lemma keepsCover_drop (hI : c.Inv) (hpoll : c.polls n = some poll)
    (hstage : poll.stage = .ending) :
    KeepsCover c (({ c with tracking := c.tracking.drop poll.number } :
      WalletConfig M).set n none) := by
  intro w id id' row row' hrow hrow' hn hopen hcovered
  obtain rfl := c.store.place_unique hrow hrow' hn
  obtain hcovered | hne := hcovered
  · obtain ⟨m, poll', hpoll', hwallet, hwatching, hstays⟩ := hcovered
    have hm : m ≠ n := by
      rintro rfl
      rw [hpoll] at hpoll'
      cases hpoll'
      simp [WalletPoll.watching, hstage] at hwatching
    refine ⟨m, poll', WalletConfig.set_polls_eq_some.mpr (.inr ⟨hm, hpoll'⟩), hwallet, hwatching,
      hstays.imp_left fun h => ?_⟩
    obtain ⟨id₁, hid₁⟩ := Tracking.isTracking_iff.mp h
    refine Tracking.isTracking_iff.mpr ⟨id₁, ?_⟩
    change (c.tracking.drop poll.number).polls.lookup id₁ = _
    rw [Tracking.lookup_drop, hid₁, if_neg]
    exact fun hnumber => hI.distinct m n poll' poll hm hpoll' hpoll (Option.some.inj hnumber)
  · exact absurd rfl hne

/-- Transactions that are stored or taken out leave the other rows under their ids. -/
theorem keepsCover_store {store : Store}
    (hplace : ∀ w id id' row row', c.store.rows w id = some row → store.rows w id' = some row' →
      row'.number = row.number → id' = id) : KeepsCover c { c with store } := by
  intro w id id' row row' hrow hrow' hn hopen hcovered
  obtain rfl := hplace w id id' row row' hrow hrow' hn
  exact hcovered.resolve_right (fun hne => hne rfl)

/-- A new poll keeps every pair covered. -/
lemma keepsCover_start {id₀ : TransactionId} {poll₀ : WalletPoll M} {number : ℕ}
    (hfree : c.polls n = none) (hid : id₀ ∉ c.tracking.polls) :
    KeepsCover c (({ c with tracking := ⟨number, c.tracking.polls.insert id₀ number⟩ } :
      WalletConfig M).set n (some poll₀)) := by
  intro w id id' row row' hrow hrow' hn hopen hcovered
  obtain rfl := c.store.place_unique hrow hrow' hn
  obtain ⟨m, poll', hpoll', hwallet, hwatching, hstays⟩ :=
    hcovered.resolve_right (fun hne => hne rfl)
  have hm : m ≠ n := by
    rintro rfl
    rw [hfree] at hpoll'
    cases hpoll'
  refine ⟨m, poll', WalletConfig.set_polls_eq_some.mpr (.inr ⟨hm, hpoll'⟩), hwallet, hwatching,
    hstays.imp_left fun h => ?_⟩
  obtain ⟨id₁, hid₁⟩ := Tracking.isTracking_iff.mp h
  refine Tracking.isTracking_iff.mpr ⟨id₁, ?_⟩
  have hne : id₁ ≠ id₀ := by
    rintro rfl
    rw [AList.lookup_eq_none.mpr hid] at hid₁
    cases hid₁
  change (c.tracking.polls.insert id₀ number).lookup id₁ = _
  rw [AssocMap.lookup_insert_eq, if_neg hne]
  exact hid₁

/-- Where the update has returned, the poll is concerned with the row it told of. -/
theorem keepsCover_result {update : Update M}
    {result : Except GemServiceError (Option GemTransactionStateResult)}
    (hpoll : c.polls n = some poll) (hstage : poll.stage = .updating update)
    (hfinished : update.stage = .finished result) :
    KeepsCover c (c.set n (some { poll with stage := .answered update.transaction result })) := by
  refine keepsCover_set hpoll fun id row _ _ hwatching hstays => ?_
  simp only [WalletPoll.watching, hstage, Update.watching, hfinished] at hwatching
  cases result with
  | error e => exact ⟨hwatching, hstays.imp_right (by simp [WalletPoll.isMoving, hstage,
      Update.watching, hfinished])⟩
  | ok result =>
    cases result with
    | none => cases hwatching
    | some result =>
      cases hwatching
      simp only [WalletStage.answered]
      split
      case isTrue hne => exact ⟨rfl, .inr rfl⟩
      case isFalse hsame =>
        refine ⟨rfl, hstays.imp_right ?_⟩
        simp [WalletPoll.isMoving, hstage, Update.watching, hfinished, not_not.mp hsame]

/-- What a running poll does keeps the numbers apart and every pair covered. -/
theorem WalletPoll.step_keeps {e : WalletEvent M} (hI : c.Inv) (hpoll : c.polls n = some poll)
    (hundisturbed : Undisturbed serde c e)
    (hn : ∀ m failure, e = .advance m failure ∨ e = .follow m → m = n)
    (hstep : poll.step serde c n e = some c') : c'.Inv ∧ KeepsCover c c' := by
  cases e with
  | start m w transaction | add w transactions | remove w id => cases hstep
  | wake m =>
    simp only [WalletPoll.step] at hstep
    split at hstep
    case h_1 current hstage =>
      cases hstep
      refine ⟨hI.replace rfl hpoll (by simp),
        keepsCover_set hpoll fun id row _ _ hwatching hstays => ?_⟩
      have htracking : c.tracking.isTracking poll.number = true :=
        hstays.resolve_right (by simp [WalletPoll.isMoving, hstage])
      simp only [htracking, if_true]
      exact ⟨by simpa [WalletPoll.watching, hstage] using hwatching, .inl htracking⟩
    case h_2 => cases hstep
  | answer m answer now =>
    simp only [WalletPoll.step] at hstep
    split at hstep
    case h_1 current hstage =>
      cases hstep
      refine ⟨hI.replace rfl hpoll (by simp),
        keepsCover_set hpoll fun id row _ _ hwatching hstays => ?_⟩
      have htracking : c.tracking.isTracking poll.number = true :=
        hstays.resolve_right (by simp [WalletPoll.isMoving, hstage])
      refine ⟨?_, .inl htracking⟩
      simp only [WalletPoll.watching, hstage] at hwatching
      exact (watching_begin serde current answer now).1.trans hwatching
    case h_2 => cases hstep
  | advance m failure =>
    obtain rfl := hn m failure (.inl rfl)
    simp only [WalletPoll.step] at hstep
    split at hstep
    case h_1 update hstage =>
      obtain ⟨⟨stage, store⟩, hadvance, hc'⟩ := Option.map_eq_some_iff.mp hstep
      cases hc'
      exact ⟨hI.replace rfl hpoll (by simp),
        keepsCover_advance hpoll hstage hundisturbed hadvance⟩
    case h_2 => cases hstep
  | result m =>
    simp only [WalletPoll.step] at hstep
    split at hstep
    case h_1 update hstage =>
      split at hstep
      case h_1 result hfinished =>
        cases hstep
        exact ⟨hI.replace rfl hpoll (by simp), keepsCover_result hpoll hstage hfinished⟩
      case h_2 => cases hstep
    case h_2 => cases hstep
  | follow m =>
    obtain rfl := hn m none (.inr rfl)
    simp only [WalletPoll.step] at hstep
    split at hstep
    case h_1 id hstage =>
      cases hstep
      refine ⟨hI.replace ?_ hpoll ?_, keepsCover_follow hpoll hstage hundisturbed⟩
      · rfl
      · simp
    case h_2 => cases hstep
  | read m failure =>
    obtain rfl : failure = none := hundisturbed
    simp only [WalletPoll.step] at hstep
    split at hstep
    case h_1 id₀ hstage =>
      cases hstep
      refine ⟨hI.replace rfl hpoll (by simp),
        keepsCover_set hpoll fun id row hrow hopen hwatching hstays => ?_⟩
      have htracking : c.tracking.isTracking poll.number = true :=
        hstays.resolve_right (by simp [WalletPoll.isMoving, hstage])
      obtain rfl : id₀ = id := by simpa [WalletPoll.watching, hstage] using hwatching
      refine ⟨?_, .inl htracking⟩
      simp [WalletPoll.watching, Store.getTransaction, hrow, WalletStage.afterRead, hopen,
        c.store.named _ _ _ hrow]
    case h_2 => cases hstep
  | drop m =>
    simp only [WalletPoll.step] at hstep
    split at hstep
    case h_1 hstage =>
      cases hstep
      refine ⟨hI.replace ?_ hpoll ?_, keepsCover_drop hI hpoll hstage⟩
      · rfl
      · simp
    case h_2 => cases hstep

/-- Storing transactions leaves the rows under their ids. -/
lemma Store.place_addTransactions {s : Store} {w v : WalletId} {transactions : List Transaction}
    {id id' : TransactionId} {row row' : Row} (hrow : s.rows v id = some row)
    (hrow' : (s.addTransactions w transactions).rows v id' = some row')
    (hn : row'.number = row.number) : id' = id := by
  induction transactions generalizing s row with
  | nil => exact s.place_unique hrow hrow' hn
  | cons transaction transactions ih =>
    rw [addTransactions, List.foldl_cons] at hrow'
    by_cases hplace : v = w ∧ id = transaction.id
    · obtain ⟨rfl, rfl⟩ := hplace
      refine ih (Store.setRows_self _ _ _ _) hrow' ?_
      simpa [numberFor, hrow] using hn
    · have hkept : (addTransaction w s transaction).rows v id = some row := by
        simpa [addTransaction, put, setRows, hplace] using hrow
      exact ih hkept hrow' hn

/-- Every undisturbed event keeps the numbers apart and every pair covered. -/
lemma walletStep_keeps {e : WalletEvent M} (hI : c.Inv) (hundisturbed : Undisturbed serde c e)
    (hstep : walletStep serde c e = some c') : c'.Inv ∧ KeepsCover c c' := by
  have running : ∀ m, (∀ m' failure, e = .advance m' failure ∨ e = .follow m' → m' = m) →
      (c.polls m).bind (fun poll => poll.step serde c m e) = some c' →
      c'.Inv ∧ KeepsCover c c' := by
    intro m hm hbind
    obtain ⟨poll, hpoll, hpollStep⟩ := Option.bind_eq_some_iff.mp hbind
    exact poll.step_keeps hI hpoll hundisturbed hm hpollStep
  cases e with
  | start m w transaction =>
    simp only [walletStep, Tracking.start] at hstep
    split at hstep
    case isTrue => cases hstep
    case isFalse hfree =>
      have hfree' : c.polls m = none := by simpa using hfree
      by_cases hid : transaction.id ∈ c.tracking.polls
      · simp only [hid, if_true, Option.some.injEq] at hstep
        subst hstep
        exact ⟨hI, keepsCover_store fun _ _ _ _ _ => c.store.place_unique⟩
      · have hmod : (c.tracking.lastPoll + 1) % 2 ^ 64 = c.tracking.lastPoll + 1 :=
          Nat.mod_eq_of_lt hundisturbed.1
        simp only [hid, if_false, hmod, Option.some.injEq] at hstep
        subst hstep
        exact ⟨hI.start m _ w _, keepsCover_start hfree' hid⟩
  | add w transactions =>
    cases hstep
    exact ⟨⟨hI.distinct, hI.number_le⟩, keepsCover_store fun _ _ _ _ _ =>
      Store.place_addTransactions⟩
  | remove w id =>
    cases hstep
    exact ⟨⟨hI.distinct, hI.number_le⟩, keepsCover_store fun _ _ _ _ _ hrow hrow' hn =>
      (Store.place_deleteTransaction hrow hrow' hn).1⟩
  | wake m | answer m answer now | advance m failure | result m | follow m | read m failure
  | drop m => exact running m (by simp) hstep

/-- Once its poll has been started, an uncompleted row is covered. -/
lemma covered_of_start {m : ℕ} {w : WalletId} {transaction : Transaction} {row : Row}
    (hundisturbed : Undisturbed serde c (.start m w transaction))
    (hstep : walletStep serde c (.start m w transaction) = some c')
    (hrow : c.store.rows w transaction.id = some row)
    (hopen : row.transaction.state.isCompleted = false) : Covered c' w transaction.id := by
  simp only [walletStep, Tracking.start] at hstep
  split at hstep
  case isTrue => cases hstep
  case isFalse =>
    by_cases hid : transaction.id ∈ c.tracking.polls
    · simp only [hid, if_true, Option.some.injEq] at hstep
      subst hstep
      obtain ⟨number, hnumber⟩ := Option.isSome_iff_exists.mp (AList.lookup_isSome.mpr hid)
      obtain ⟨n, poll, hpoll, rfl, hwallet, hwatching⟩ :=
        hundisturbed.2 number row hnumber hrow hopen
      exact ⟨n, poll, hpoll, hwallet, hwatching,
        .inl (Tracking.isTracking_iff.mpr ⟨transaction.id, hnumber⟩)⟩
    · simp only [hid, if_false, Option.some.injEq] at hstep
      subst hstep
      refine ⟨m, _, WalletConfig.set_polls_eq_some.mpr (.inl ⟨rfl, rfl⟩), rfl, rfl, .inl ?_⟩
      exact Tracking.isTracking_iff.mpr ⟨transaction.id, by simp [WalletConfig.set]⟩

/-- A row that is covered, or whose poll is still to be started under its id, is covered at the end
of a run in which it stays uncompleted and its poll is started. -/
theorem covered_of_run {w : WalletId} {id : TransactionId} {row : Row}
    {es : List (WalletEvent M)} (hI : c.Inv)
    (hundisturbed : Along (walletStep serde) (Undisturbed serde) c es)
    (hrun : runEvents (walletStep serde) c es = some c')
    (hrow : c.store.rows w id = some row) (hopen : StaysOpen serde w row.number c es)
    (hstart : Covered c w id ∨ ∃ n transaction, .start n w transaction ∈ es ∧ transaction.id = id)
    {id' : TransactionId} {row' : Row} (hrow' : c'.store.rows w id' = some row')
    (hn : row'.number = row.number) : Covered c' w id' := by
  induction es generalizing c id row with
  | nil =>
    cases hrun
    obtain rfl := c'.store.place_unique hrow hrow' hn
    exact hstart.resolve_right (by simp)
  | cons e es ih =>
    obtain ⟨c₁, hstep, hrest⟩ := runEvents_cons_eq_some.mp hrun
    obtain ⟨hI₁, hkeeps⟩ := walletStep_keeps hI hundisturbed.1 hstep
    -- the row before the event and after it
    have huncompleted : row.transaction.state.isCompleted = false := by
      obtain ⟨id₀, row₀, hrow₀, hn₀, hopen₀⟩ := hopen [] (e :: es) c rfl rfl
      obtain rfl := c.store.place_unique hrow hrow₀ hn₀
      rw [hrow] at hrow₀
      cases hrow₀
      exact hopen₀
    obtain ⟨id₁, row₁, hrow₁, hn₁, -⟩ := hopen [e] es c₁ rfl (by simp [runEvents, hstep])
    have hopen₁ : StaysOpen serde w row₁.number c₁ es := by
      rw [hn₁]
      intro es₁ es₂ c₂ hes hrun₁
      exact hopen (e :: es₁) es₂ c₂ (by rw [hes, List.cons_append])
        (runEvents_cons_eq_some.mpr ⟨c₁, hstep, hrun₁⟩)
    refine ih hI₁ (hundisturbed.2 c₁ hstep) hrest hrow₁ hopen₁ ?_ (hn.trans hn₁.symm)
    by_cases hcovered : Covered c w id ∨ id₁ ≠ id
    · exact .inl (hkeeps w id id₁ row row₁ hrow hrow₁ hn₁ huncompleted hcovered)
    · obtain ⟨hnot, hid₁⟩ := not_or.mp hcovered
      obtain rfl := not_not.mp hid₁
      obtain ⟨n, transaction, hmem, hid⟩ := hstart.resolve_left hnot
      obtain rfl | hmem := List.mem_cons.mp hmem
      · subst hid
        exact .inl (covered_of_start hundisturbed.1 hstep hrow huncompleted)
      · exact .inr ⟨n, transaction, hmem, hid⟩

end

/-- In a run of undisturbed events every pending transaction is polled: from the moment its poll
has been started until its row is completed or gone, some poll in its loop keeps asking for its
wallet and the id the row has.

**Proof sketch.** No event takes the cover from an uncompleted row, and an event that gives a row
another id leaves it covered by the poll that did so (`walletStep_keeps`). Starting the poll of a
row covers it, by that poll or by the one that has the id already (`covered_of_start`). -/
theorem everyPendingPolled_of_undisturbed (serde : Serde M) (s : Store)
    (es : List (WalletEvent M))
    (h : Along (walletStep serde) (Undisturbed serde) (.initial s) es) :
    EveryPendingPolled serde s es := by
  rintro es₁ es₂ c₁ c₂ w id row rfl hrun₁ hrun₂ hrow hstart hopen id' row' hrow' hn
  have hI : c₁.Inv := runEvents_invariant
    (fun _ _ _ hI hP hstep => (walletStep_keeps hI hP hstep).1) (.initial s)
    h.left_of_append hrun₁
  exact covered_of_run hI (h.of_append hrun₁) hrun₂ hrow hopen (.inr hstart) hrow' hn

/-- The other wallet of a user. -/
def exampleOther : WalletId := .multicoin "0x2"

/-- Its own transaction. -/
def exampleSecond : Transaction := { exampleTransaction with id := ⟨.ethereum, "second"⟩ }

/-- Pending transactions of two wallets are polled, the hash of the first is replaced, and its poll
follows it. -/
def exampleFollowed : List (WalletEvent Empty) :=
  trackPending 0 [(exampleWallet, exampleTransaction), (exampleOther, exampleSecond)] ++
    [.wake 0, .answer 0 (.ok (exampleUpdate "new")) 0, .advance 0 none, .advance 0 none,
      .advance 0 none, .result 0, .wake 1, .follow 0, .read 0 none]

/-- A poll that follows its transaction to another id, beside the poll of another wallet. -/
theorem everyPendingPolled_of_undisturbed_example :
    EveryPendingPolled exampleSerde (exampleStore.addTransactions exampleOther [exampleSecond])
      exampleFollowed := by
  refine everyPendingPolled_of_undisturbed exampleSerde _ exampleFollowed ?_
  have advanced : ∀ (c : WalletConfig Empty) poll update, c.polls 0 = some poll →
      poll.stage = .updating update → (∀ newId, update.stage = .rename newId → ∃ fields,
        stateUpdate exampleSerde (nextState (hasTimedOut exampleSerde update.transaction update.now)
          update.transaction.state update.report.state) update.report.changes = .ok fields) →
      Undisturbed exampleSerde c (.advance 0 none) := by
    intro c poll update hpoll hstage hwritable poll' update' hpoll' hstage'
    rw [hpoll] at hpoll'
    cases hpoll'
    rw [hstage] at hstage'
    cases hstage'
    exact ⟨fun _ => rfl, fun newId hrename _ => hwritable newId hrename⟩
  have started : ∀ (c : WalletConfig Empty) w transaction, c.tracking.lastPoll < 2 →
      c.tracking.polls.lookup transaction.id = none →
      Undisturbed exampleSerde c (.start 0 w transaction) := by
    intro c w transaction hlast hnone
    exact ⟨by omega, fun number row hnumber => by rw [hnone] at hnumber; cases hnumber⟩
  refine .cons (started _ _ _ (by decide) rfl) rfl (.cons (started _ _ _ (by decide) rfl) rfl
    (.cons trivial rfl (.cons trivial rfl (.cons ?_ rfl (.cons ?_ rfl (.cons ?_ rfl (.cons trivial rfl
    (.cons trivial rfl (.cons ?_ rfl (.cons rfl rfl trivial))))))))))
  · exact advanced _ _ _ rfl rfl fun newId hrename => by cases hrename
  · exact advanced _ _ _ rfl rfl fun newId hrename => ⟨_, rfl⟩
  · exact advanced _ _ _ rfl rfl fun newId hrename => by cases hrename
  · intro poll id hpoll hstage m other hother hlookup
    cases hpoll
    cases hstage
    cases hlookup

/-- A transfer between two wallets of one user, stored in both. -/
def exampleShared : Store := exampleStore.addTransactions exampleOther [exampleTransaction]

/-- The polls that `track_pending` starts for it. -/
def exampleTwoWallets : List (WalletEvent Empty) :=
  trackPending 0 [(exampleWallet, exampleTransaction), (exampleOther, exampleTransaction)]

/-- Starting polls leaves the table as it is. -/
lemma store_of_starts {serde : Serde M} {c c' : WalletConfig M} {es : List (WalletEvent M)}
    (hes : ∀ e ∈ es, ∃ n w transaction, e = .start n w transaction)
    (hrun : runEvents (walletStep serde) c es = some c') : c'.store = c.store := by
  induction es generalizing c with
  | nil =>
    cases hrun
    rfl
  | cons e es ih =>
    obtain ⟨c₁, hstep, hrest⟩ := runEvents_cons_eq_some.mp hrun
    refine (ih (fun e' he' => hes e' (List.mem_cons_of_mem e he')) hrest).trans ?_
    obtain ⟨n, w, transaction, rfl⟩ := hes e List.mem_cons_self
    simp only [walletStep] at hstep
    split at hstep
    · cases hstep
    · split at hstep <;> cases hstep <;> rfl

/-- The transaction is polled for the first wallet only. -/
theorem not_everyPendingPolled_example :
    ¬ EveryPendingPolled exampleSerde exampleShared exampleTwoWallets := by
  intro h
  have hrun : ∃ c row, runEvents (walletStep exampleSerde) (.initial exampleShared)
      exampleTwoWallets = some c ∧
      c.store.rows exampleOther exampleTransaction.id = some row ∧
      exampleShared.rows exampleOther exampleTransaction.id = some row ∧
      row.transaction.state.isCompleted = false ∧
      c.polls = Function.update (fun _ => none) 0
        (some ⟨1, exampleWallet, .sleeping exampleTransaction⟩) ∧ c.store = exampleShared :=
    ⟨_, _, rfl, rfl, rfl, rfl, rfl, rfl⟩
  obtain ⟨c, row, hrun, hrow, hrow₀, hopen, hpolls, hstore⟩ := hrun
  have hstarts : ∀ e ∈ exampleTwoWallets, ∃ n w transaction, e = .start n w transaction := by
    intro e he
    obtain ⟨⟨pair, n⟩, -, rfl⟩ := List.mem_map.mp he
    exact ⟨n, pair.1, pair.2, rfl⟩
  have hstays : StaysOpen exampleSerde exampleOther row.number (.initial exampleShared)
      exampleTwoWallets := by
    intro es₁ es₂ c' hes hrun'
    have hstarts₁ : ∀ e ∈ es₁, ∃ n w transaction, e = .start n w transaction := fun e he =>
      hstarts e (hes ▸ List.mem_append_left es₂ he)
    rw [store_of_starts hstarts₁ hrun']
    exact ⟨_, row, hrow₀, rfl, hopen⟩
  obtain ⟨n, poll, hpoll, hwallet, -⟩ := h [] exampleTwoWallets _ c exampleOther
    exampleTransaction.id row rfl rfl hrun hrow₀ ⟨1, exampleTransaction, .tail _ (.head _), rfl⟩ hstays
    exampleTransaction.id row hrow rfl
  rw [hpolls] at hpoll
  by_cases hn : n = 0
  · subst hn
    cases hpoll
    exact absurd hwallet (by decide)
  · simp [hn] at hpoll

end GemCore.TransactionStateService

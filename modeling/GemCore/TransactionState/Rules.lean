import Mathlib.Data.List.Induction
import GemCore.Lib.Result
import GemCore.Primitives.ChainConfig

/-!
# Transaction states and what an update changes

The states of a transaction (`primitives/src/transaction_state.rs`), what a node may report
about one (`transaction_update.rs`), and the pure rules of the state service
(`gemstone/src/services/transaction_state/rules.rs`, `model.rs`).

The metadata a node reports is only handed on to a serializer, so its type is a parameter,
and so are the two serializer functions.

## Main definitions

* `TransactionState`, `TransactionState.mergedWith` — the states, and the state
  after a report.
* `Transaction`, `TransactionUpdate` — a transaction and a report about it.
* `TransactionStateService.hasTimedOut` — whether a transaction is overdue.
* `TransactionStateService.newHash`, `TransactionStateService.stateUpdate` — what
  a report changes.

## Main results

* `TransactionStateService.eq_reportedUpdate` — for each column the last change that was
  reported for it counts.
-/

namespace GemCore

/-- `TransactionState`. -/
inductive TransactionState where
  | pending | confirmed | inTransit | failed | reverted | refunded
  deriving DecidableEq

namespace TransactionState

/-- `TransactionState::is_completed`. -/
def isCompleted : TransactionState → Bool
  | confirmed | failed | reverted | refunded => true
  | pending | inTransit => false

/-- `TransactionState::merged_with`. -/
def mergedWith (state updated : TransactionState) : TransactionState :=
  if state = pending || updated.isCompleted then updated else state

/-- A completed report is taken over as it is. -/
lemma mergedWith_of_isCompleted (state : TransactionState) {updated : TransactionState}
    (h : updated.isCompleted = true) : state.mergedWith updated = updated := by
  simp [mergedWith, h]

end TransactionState

/-- `TransactionId`. -/
structure TransactionId where
  chain : Chain
  hash : String
  deriving DecidableEq

/-- `Transaction`, with the columns the state service reads or writes. The metadata is its
JSON text, the time of creation is in nanoseconds. -/
structure Transaction where
  id : TransactionId
  assetId : AssetId
  state : TransactionState
  blockNumber : Option String
  fee : ℤ
  metadata : Option String
  createdAt : ℤ

/-- `TransactionChange`, over the type `M` of metadata. -/
inductive TransactionChange (M : Type) where
  | hashChange (old new : String)
  | metadata (metadata : M)
  | blockNumber (number : String)
  | networkFee (fee : ℤ)
  | confirmationEtaSeconds (seconds : ℕ)

/-- `TransactionUpdate`. -/
structure TransactionUpdate (M : Type) where
  state : TransactionState
  changes : List (TransactionChange M)

/-- `GemServiceError`. -/
inductive GemServiceError where
  | api (msg : String)
  | gateway (msg : String)
  | store (msg : String)
  | core (msg : String)
  | platform (msg : String)
  | invalidInput (msg : String)
  | notFound (msg : String)
  | unsupported (msg : String)
  | cancelled
  deriving DecidableEq

namespace TransactionStateService

variable {M : Type}

/-- The serializer: the JSON text of a metadata value, which may fail, and the destination
asset of a swap's metadata, if the text is that of a swap. -/
structure Serde (M : Type) where
  metadataJson : M → Except String String
  swapToAsset : String → Option AssetId

/-- `GemTransactionStateUpdate`. -/
structure GemTransactionStateUpdate where
  state : TransactionState
  fee : Option ℤ
  blockNumber : Option String
  metadata : Option String
  confirmationEtaSeconds : Option ℕ

/-- `GemTransactionStateUpdate::new`. -/
def GemTransactionStateUpdate.new (state : TransactionState) : GemTransactionStateUpdate :=
  { state, fee := none, blockNumber := none, metadata := none, confirmationEtaSeconds := none }

/-- `GemTransactionStateUpdate::has_field_changes`. -/
def GemTransactionStateUpdate.hasFieldChanges (update : GemTransactionStateUpdate) : Bool :=
  update.fee.isSome || update.blockNumber.isSome || update.metadata.isSome ||
    update.confirmationEtaSeconds.isSome

/-- `GemTransactionStateResult`, before the post-processing has added its failures. -/
structure GemTransactionStateResult where
  transactionId : TransactionId
  state : TransactionState
  deriving DecidableEq

/-- `destination_chain`. -/
def destinationChain (serde : Serde M) (transaction : Transaction) : Option Chain :=
  if transaction.state = .inTransit then
    (transaction.metadata.bind serde.swapToAsset).map (·.chain)
  else
    none

/-- `has_timed_out`. The difference of the times is cut to whole milliseconds. -/
def hasTimedOut (serde : Serde M) (transaction : Transaction) (now : ℤ) : Bool :=
  if transaction.state.isCompleted then
    false
  else
    let chain := transaction.assetId.chain
    let timeout :=
      swapTransactionTimeout chain ((destinationChain serde transaction).getD chain)
    decide ((timeout : ℤ) < (now - transaction.createdAt).tdiv 1000000)

/-- Only an uncompleted transaction times out. -/
lemma isCompleted_of_hasTimedOut {serde : Serde M} {transaction : Transaction} {now : ℤ}
    (h : hasTimedOut serde transaction now = true) : transaction.state.isCompleted = false := by
  cases hs : transaction.state.isCompleted with
  | false => rfl
  | true => simp [hasTimedOut, hs] at h

/-- `new_hash`. -/
def newHash (changes : List (TransactionChange M)) : Option String :=
  changes.findSome? fun
    | .hashChange _ new => some new
    | _ => none

/-- One turn of the loop of `state_update`. -/
def applyChange (serde : Serde M) (update : GemTransactionStateUpdate) :
    TransactionChange M → Except String GemTransactionStateUpdate
  | .networkFee fee => .ok { update with fee := some fee }
  | .blockNumber number => .ok { update with blockNumber := some number }
  | .metadata metadata => do
    let text ← serde.metadataJson metadata
    .ok { update with metadata := some text }
  | .confirmationEtaSeconds seconds => .ok { update with confirmationEtaSeconds := some seconds }
  | .hashChange _ _ => .ok update

/-- `state_update`. -/
def stateUpdate (serde : Serde M) (state : TransactionState)
    (changes : List (TransactionChange M)) : Except String GemTransactionStateUpdate :=
  changes.foldlM (applyChange serde) (.new state)

/-- The last of the changes that `pick` selects. -/
def reported {β : Type} (pick : TransactionChange M → Option β)
    (changes : List (TransactionChange M)) : Option β :=
  (changes.filterMap pick).getLast?

@[simp] lemma reported_concat {β : Type} (pick : TransactionChange M → Option β)
    (changes : List (TransactionChange M)) (change : TransactionChange M) :
    reported pick (changes ++ [change]) = (pick change).or (reported pick changes) := by
  rw [reported, List.filterMap_append]
  cases h : pick change with
  | none => simp [h, reported]
  | some b => simp [h]

/-- The fee a change reports. -/
def TransactionChange.fee? : TransactionChange M → Option ℤ
  | .networkFee fee => some fee
  | _ => none

/-- The block number a change reports. -/
def TransactionChange.blockNumber? : TransactionChange M → Option String
  | .blockNumber number => some number
  | _ => none

/-- The JSON text of the metadata a change reports. -/
def TransactionChange.metadata? (serde : Serde M) : TransactionChange M → Option String
  | .metadata metadata => (serde.metadataJson metadata).toOption
  | _ => none

/-- The confirmation time a change reports. -/
def TransactionChange.confirmationEtaSeconds? : TransactionChange M → Option ℕ
  | .confirmationEtaSeconds seconds => some seconds
  | _ => none

/-- What a report says about each column: the last change reported for it. -/
def reportedUpdate (serde : Serde M) (state : TransactionState)
    (changes : List (TransactionChange M)) : GemTransactionStateUpdate where
  state := state
  fee := reported TransactionChange.fee? changes
  blockNumber := reported TransactionChange.blockNumber? changes
  metadata := reported (TransactionChange.metadata? serde) changes
  confirmationEtaSeconds := reported TransactionChange.confirmationEtaSeconds? changes

/-- For each column the last change that was reported for it counts. -/
lemma eq_reportedUpdate {serde : Serde M} {state : TransactionState}
    {changes : List (TransactionChange M)} {fields : GemTransactionStateUpdate}
    (h : stateUpdate serde state changes = .ok fields) :
    fields = reportedUpdate serde state changes := by
  -- by induction on the list from its end, the order in which later changes overwrite
  induction changes using List.reverseRecOn generalizing fields with
  | nil =>
    cases h
    rfl
  | append_singleton changes change ih =>
    rw [stateUpdate, List.foldlM_append] at h
    obtain ⟨before, hbefore, hchange⟩ := Lib.bind_eq_ok_iff.mp h
    have hb : before = reportedUpdate serde state changes := ih hbefore
    rw [List.foldlM_cons] at hchange
    obtain ⟨after, hafter, hdone⟩ := Lib.bind_eq_ok_iff.mp hchange
    cases hdone
    subst hb
    cases change with
    | hashChange | networkFee | blockNumber | confirmationEtaSeconds =>
      cases hafter
      simp [reportedUpdate, TransactionChange.fee?, TransactionChange.blockNumber?,
        TransactionChange.metadata?, TransactionChange.confirmationEtaSeconds?]
    | metadata metadata =>
      obtain ⟨text, htext, hset⟩ := Lib.bind_eq_ok_iff.mp hafter
      cases hset
      simp [reportedUpdate, TransactionChange.fee?, TransactionChange.blockNumber?,
        TransactionChange.metadata?, TransactionChange.confirmationEtaSeconds?, htext,
        Except.toOption]

end TransactionStateService

end GemCore

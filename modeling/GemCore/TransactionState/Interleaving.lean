import GemCore.Lib.Interleave
import GemCore.TransactionState.Apply

/-!
# Updates at the same time

Several updates of the transactions of one wallet may be under way at once, and transactions may
be added meanwhile. Each update works from the row it read when it began, asks the node, and then
makes the store calls of `apply` one by one; between two calls the others go on.

A state that says what the calls have answered so far takes the place of the rest of the
program, so that what an update has merged with is at hand when it writes.

## Main definitions

* `Stage` — where an update stands: the call it makes next.
* `step` — one event: an update begins or makes its next call, or transactions are added.
* `Keeps` — a state may follow another one in a row.
* `NotOvertaken` — the row an update writes is not ahead of the state it has merged with, and no row
  is set back by adding its transaction again.

## Main results

* `remaining_advance` — the calls of an update are those of `apply`.
* `sticky_iff_notOvertaken` — along a run of events no row leaves a completed state, goes back from
  transit, or is timed out when completed, if and only if none of the events overtakes.
-/

namespace GemCore.TransactionStateService

open Lib

variable {M : Type}

/-- Where an update stands: the store call it makes next, with what it has computed. -/
inductive Stage where
  /-- `get_state` of the new id, in `rename`. -/
  | lookup (hash : String)
  /-- `delete_transaction` of the old id, in `rename`. -/
  | delete (newId : TransactionId) (existing : TransactionState)
  /-- `rename_transaction`. -/
  | rename (newId : TransactionId)
  /-- `update_transaction`, with the state `current` that the report was merged with. -/
  | write (id : TransactionId) (current next : TransactionState)
      (fields : GemTransactionStateUpdate)
  /-- `get_state` where there is nothing to write. -/
  | read (id : TransactionId)
  /-- The update is over. -/
  | finished (result : Except GemServiceError (Option GemTransactionStateResult))

/-- An update under way: the row it began with, the node's answer and the time at which it came,
the report this amounts to, and where it stands. -/
structure Update (M : Type) where
  transaction : Transaction
  answer : Except String (TransactionUpdate M)
  now : ℤ
  report : TransactionUpdate M
  stage : Stage

/-- Where an update stands once it is known which row the report is for. -/
def Stage.settle (serde : Serde M) (timedOut : Bool) (report : TransactionUpdate M)
    (id : TransactionId) (current : TransactionState) : Stage :=
  let next := nextState timedOut current report.state
  match stateUpdate serde next report.changes with
  | .error msg => .finished (.error (.core msg))
  | .ok fields =>
    if next = current && !fields.hasFieldChanges then .read id else .write id current next fields

/-- The first call of an update. -/
def Stage.first (serde : Serde M) (transaction : Transaction) (timedOut : Bool)
    (report : TransactionUpdate M) : Stage :=
  match newHash report.changes with
  | some hash => .lookup hash
  | none => .settle serde timedOut report transaction.id transaction.state

/-- The next call of an update: `none` if it is over, otherwise where it stands afterwards and the
table. -/
def Update.call (serde : Serde M) (w : WalletId) (update : Update M) (s : Store) :
    Option (Stage × Store) :=
  let timedOut := hasTimedOut serde update.transaction update.now
  match update.stage with
  | .lookup hash =>
    let newId := idWithHash update.transaction hash
    match s.getState w newId with
    | some existing => some (.delete newId existing, s)
    | none => some (.rename newId, s)
  | .delete newId existing =>
    some (.settle serde timedOut update.report newId existing,
      s.deleteTransaction w update.transaction.id)
  | .rename newId =>
    match s.renameTransaction w update.transaction.id newId with
    | .ok s' => some (.settle serde timedOut update.report newId update.transaction.state, s')
    | .error e => some (.finished (.error e), s)
  | .write id _ next fields =>
    some (.finished (.ok (if (s.updateTransaction w id fields).1 then some ⟨id, next⟩ else none)),
      (s.updateTransaction w id fields).2)
  | .read id =>
    some (.finished (.ok ((s.getState w id).map fun state => ⟨id, state⟩)), s)
  | .finished _ => none

/-- The next call of an update, which takes effect or fails with a message. A call that fails ends
the update. -/
def Update.advance (serde : Serde M) (w : WalletId) (update : Update M) (s : Store) :
    Option String → Option (Stage × Store)
  | none => update.call serde w s
  | some msg => (update.call serde w s).map fun _ => (.finished (.error (.store msg)), s)

/-! ## The calls are those of `apply` -/

/-- What is left of `apply` to run. -/
def Stage.remaining (serde : Serde M) (w : WalletId) (transaction : Transaction)
    (timedOut : Bool) (report : TransactionUpdate M) :
    Stage → Proc Store GemServiceError (Option GemTransactionStateResult)
  | .lookup hash => TransactionStateService.rename w transaction hash >>= afterRename
  | .delete newId existing => do
    callDelete w transaction.id
    afterRename (newId, existing)
  | .rename newId => do
    callRename w transaction.id newId
    afterRename (newId, transaction.state)
  | .write id _ next fields => do
    let updated ← callUpdate w id fields
    pure (if updated then some ⟨id, next⟩ else none)
  | .read id => do
    let state ← callGetState w id
    pure (state.map fun state => ⟨id, state⟩)
  | .finished result => Proc.ofExcept result
where
  /-- The part of `apply` that follows on `rename`. -/
  afterRename (renamed : TransactionId × TransactionState) :
      Proc Store GemServiceError (Option GemTransactionStateResult) := do
    let next := nextState timedOut renamed.2 report.state
    let fields ← Proc.ofExcept ((stateUpdate serde next report.changes).mapError .core)
    TransactionStateService.settle w renamed.1 renamed.2 next fields

section

variable (serde : Serde M) (w : WalletId) (transaction : Transaction) (timedOut : Bool)
  (report : TransactionUpdate M)

/-- Deciding what to write is the part of `apply` that makes no call. -/
lemma remaining_settle (id : TransactionId) (current : TransactionState) :
    (Stage.settle serde timedOut report id current).remaining serde w transaction timedOut
        report =
      Stage.remaining.afterRename serde w timedOut report (id, current) := by
  simp only [Stage.settle, Stage.remaining.afterRename]
  cases stateUpdate serde (nextState timedOut current report.state) report.changes with
  | error msg => rfl
  | ok fields =>
    simp only [Except.mapError, Proc.ofExcept_ok_bind, TransactionStateService.settle]
    split <;> simp [Stage.remaining, *]

/-- An update that has not made a call yet has the whole of `apply` to run. -/
lemma remaining_first {answer : Except String (TransactionUpdate M)} {now : ℤ}
    (hanswer : received (hasTimedOut serde transaction now) answer = .ok report) :
    (Stage.first serde transaction (hasTimedOut serde transaction now) report).remaining serde w
        transaction (hasTimedOut serde transaction now) report =
      apply serde w transaction answer now := by
  rw [apply]
  simp only [hanswer, Proc.ofExcept_ok_bind, Stage.first]
  cases newHash report.changes with
  | none => exact remaining_settle serde w transaction _ report transaction.id transaction.state
  | some hash => rfl

end

/-- The schedule of a call that fails with a message or takes effect. -/
def faultOf : Option String → Fault
  | some msg => .fail msg
  | none => .pass

/-- The calls of an update are those of `apply`: what is left to run before a call does with that
call what the stage does, and then what is left after it. -/
theorem remaining_advance {serde : Serde M} {w : WalletId} {update : Update M}
    {failure : Option String} {s s' : Store} {stage : Stage}
    (h : update.advance serde w s failure = some (stage, s')) (faults : List Fault) :
    update.stage.remaining serde w update.transaction
        (hasTimedOut serde update.transaction update.now) update.report s
        (faultOf failure :: faults) =
      stage.remaining serde w update.transaction
        (hasTimedOut serde update.transaction update.now) update.report s' faults := by
  obtain ⟨transaction, answer, now, report, stage₀⟩ := update
  cases failure with
  | some msg =>
    obtain ⟨called, hcalled, hpair⟩ := Option.map_eq_some_iff.mp h
    cases hpair
    cases stage₀ with
    | finished result => cases hcalled
    | lookup hash => rfl
    | delete newId existing | rename newId | write id current next fields | read id => rfl
  | none =>
    simp only [Update.advance, Update.call] at h
    cases stage₀ with
    | finished result => cases h
    | lookup hash =>
      have hlookup : ∀ state, s.getState w (idWithHash transaction hash) = state →
          (.ok (s.getState w (idWithHash transaction hash), s) :
            Except GemServiceError (Option TransactionState × Store)) = .ok (state, s) := by
        rintro state rfl
        rfl
      simp only [Stage.remaining, TransactionStateService.rename, Proc.bind_assoc]
      dsimp only at h
      split at h
      case h_1 existing hstate =>
        cases h
        exact (Proc.call_pass_bind (hlookup _ hstate) faults).trans
          (congrFun (congrFun (Proc.bind_assoc _ _ _) s) faults)
      case h_2 hstate =>
        cases h
        exact (Proc.call_pass_bind (hlookup _ hstate) faults).trans
          (congrFun (congrFun (Proc.bind_assoc _ _ _) s) faults)
    | delete newId existing =>
      cases h
      rw [remaining_settle]
      rfl
    | rename newId =>
      dsimp only at h
      split at h
      case h_1 renamed hrename =>
        cases h
        rw [remaining_settle]
        exact Proc.call_pass_bind (by rw [hrename]; rfl) faults
      case h_2 e hrename =>
        cases h
        exact Proc.call_pass_bind_error (by rw [hrename]; rfl) faults
    | write id current next fields | read id =>
      cases h
      rfl

/-! ## Events -/

/-- The table and the updates under way, by number. -/
structure Config (M : Type) where
  store : Store
  updates : ℕ → Option (Update M)

/-- What may happen: update `n` begins with the row that a transaction has, and the node answers
it at a certain time; update `n` makes its next call, which may fail; transactions are added. -/
inductive Event (M : Type) where
  | begin (n : ℕ) (id : TransactionId) (answer : Except String (TransactionUpdate M)) (now : ℤ)
  | advance (n : ℕ) (failure : Option String)
  | add (transactions : List Transaction)

/-- An update that has its answer. -/
def Update.begin (serde : Serde M) (transaction : Transaction)
    (answer : Except String (TransactionUpdate M)) (now : ℤ) : Update M :=
  match received (hasTimedOut serde transaction now) answer with
  | .ok report =>
    { transaction, answer, now, report
      stage := .first serde transaction (hasTimedOut serde transaction now) report }
  | .error e =>
    -- no report comes of an answer that is an error in time
    { transaction, answer, now, report := ⟨.failed, []⟩, stage := .finished (.error e) }

/-- One event, for the updates of one wallet. -/
def step (serde : Serde M) (w : WalletId) (c : Config M) : Event M → Option (Config M)
  | .begin n id answer now =>
    match c.updates n, c.store.rows w id with
    | none, some row => some
      { c with updates :=
          Function.update c.updates n (some (.begin serde row.transaction answer now)) }
    | _, _ => none
  | .advance n failure => do
    let update ← c.updates n
    let (stage, store) ← update.advance serde w c.store failure
    some { store, updates := Function.update c.updates n (some { update with stage }) }
  | .add transactions => some { c with store := c.store.addTransactions w transactions }

/-- A table with no update under way. -/
def Config.start (s : Store) : Config M := ⟨s, fun _ => none⟩

/-! ## What the rows must keep -/

/-- A row may go from one state to another: it does not leave the completed states, nor goes
from transit back to pending. -/
def Keeps (state next : TransactionState) : Prop :=
  (state.isCompleted = true → next.isCompleted = true) ∧ (state = .inTransit → next ≠ .pending)

instance (state next : TransactionState) : Decidable (Keeps state next) :=
  inferInstanceAs (Decidable (_ ∧ _))

lemma Keeps.refl (state : TransactionState) : Keeps state state :=
  ⟨id, by rintro rfl; decide⟩

lemma Keeps.trans {a b c : TransactionState} (h : Keeps a b) (h' : Keeps b c) : Keeps a c := by
  refine ⟨fun ha => h'.1 (h.1 ha), ?_⟩
  rintro rfl rfl
  cases b with
  | pending => exact h.2 rfl rfl
  | inTransit => exact h'.2 rfl rfl
  | confirmed | failed | reverted | refunded => exact absurd (h'.1 rfl) (by decide)

/-- Every row that is in both tables has kept its state or gone where it may. -/
def RowsKeep (w : WalletId) (s s' : Store) : Prop :=
  ∀ id id' row row', s.rows w id = some row → s'.rows w id' = some row' →
    row.number = row'.number → Keeps row.transaction.state row'.transaction.state

/-- The failed state an update writes comes from the timeout: the transaction it began with is
overdue, and the node has given no answer or one that leaves the state uncompleted. -/
def Update.ByTimeout (serde : Serde M) (update : Update M) (current : TransactionState) : Prop :=
  hasTimedOut serde update.transaction update.now = true ∧
    ((∃ msg, update.answer = .error msg) ∨
      (current.mergedWith update.report.state).isCompleted = false)

/-- A row that the event marks as failed by timeout has an uncompleted state. -/
def TimesOutOpen (serde : Serde M) (w : WalletId) (c : Config M) (e : Event M) : Prop :=
  ∀ n update id current next fields, e = .advance n none → c.updates n = some update →
    update.stage = .write id current next fields → update.ByTimeout serde current →
    ∀ state, c.store.getState w id = some state → state.isCompleted = false

/-- The row is ahead of the state an update has merged with: unless the node has answered with a
completed state, the row is completed and that state is not, or the row is in transit and the
update is about to write that it is pending. -/
def Update.overtaken (serde : Serde M) (update : Update M) (current state : TransactionState) :
    Bool :=
  match update.answer with
  | .error _ => state.isCompleted && !current.isCompleted
  | .ok report =>
    !report.state.isCompleted &&
      (state.isCompleted && !current.isCompleted ||
        state = .inTransit && current = .pending && report.state = .pending &&
          !hasTimedOut serde update.transaction update.now)

/-- The condition on an event: the row an update writes is not ahead of the state it has merged
with, and no row is set back by adding its transaction again. -/
def NotOvertaken (serde : Serde M) (w : WalletId) (c : Config M) : Event M → Prop
  | .advance n none => ∀ update id current next fields, c.updates n = some update →
      update.stage = .write id current next fields → ∀ state, c.store.getState w id = some state →
        update.overtaken serde current state = false
  | .add transactions => ∀ id state transaction, c.store.getState w id = some state →
      Store.lastAdded transactions id = some transaction → Keeps state transaction.state
  | _ => True

/-! ## What an update knows of itself -/

/-- What an update has computed by the time it stands at a stage. -/
def Update.Sound (serde : Serde M) (update : Update M) : Stage → Prop
  | .lookup _ | .delete _ _ | .rename _ => update.answer = .ok update.report
  | .write _ current next fields =>
    fields.state = next ∧
    next = nextState (hasTimedOut serde update.transaction update.now) current
      update.report.state ∧
    (update.answer = .ok update.report ∨ (∃ msg, update.answer = .error msg) ∧
      hasTimedOut serde update.transaction update.now = true ∧ update.report.state = .failed ∧
      current.isCompleted = false)
  | .read _ | .finished _ => True

section

variable {serde : Serde M} {w : WalletId}

/-- Deciding what to write is sound if the answer is. -/
lemma sound_settle {update : Update M} {current : TransactionState}
    (h : update.answer = .ok update.report ∨ (∃ msg, update.answer = .error msg) ∧
      hasTimedOut serde update.transaction update.now = true ∧ update.report.state = .failed ∧
      current.isCompleted = false) (id : TransactionId) :
    update.Sound serde (.settle serde (hasTimedOut serde update.transaction update.now)
      update.report id current) := by
  rw [Stage.settle]
  split
  · trivial
  · rename_i fields hfields
    split
    · trivial
    · have hstate : fields.state = _ := congrArg (·.state) (eq_reportedUpdate hfields)
      exact ⟨hstate, rfl, h⟩

lemma sound_begin (serde : Serde M) (transaction : Transaction)
    (answer : Except String (TransactionUpdate M)) (now : ℤ) :
    (Update.begin serde transaction answer now).Sound serde
      (Update.begin serde transaction answer now).stage := by
  rw [Update.begin]
  cases answer with
  | ok report =>
    simp only [received, Stage.first]
    split
    · rfl
    · exact sound_settle (.inl rfl) _
  | error msg =>
    cases htimeout : hasTimedOut serde transaction now with
    | false => trivial
    | true =>
      simp only [received, if_true, Stage.first, newHash, List.findSome?_nil]
      rw [← htimeout]
      exact sound_settle
        (.inr ⟨⟨msg, rfl⟩, htimeout, rfl, isCompleted_of_hasTimedOut htimeout⟩) _

/-- A call of an update leaves it sound. -/
lemma sound_advance {update : Update M} {s s' : Store} {failure : Option String}
    {stage : Stage} (hsound : update.Sound serde update.stage)
    (h : update.advance serde w s failure = some (stage, s')) : update.Sound serde stage := by
  cases failure with
  | some msg =>
    obtain ⟨called, -, hpair⟩ := Option.map_eq_some_iff.mp h
    cases hpair
    trivial
  | none =>
    simp only [Update.advance, Update.call] at h
    cases hstage : update.stage with
    | finished result => simp [hstage] at h
    | lookup hash =>
      rw [hstage] at h hsound
      dsimp only at h
      split at h <;> cases h <;> exact hsound
    | delete newId existing =>
      rw [hstage] at h hsound
      cases h
      exact sound_settle (.inl hsound) _
    | rename newId =>
      rw [hstage] at h hsound
      dsimp only at h
      split at h
      · cases h
        exact sound_settle (.inl hsound) _
      · cases h
        trivial
    | write id current next fields | read id =>
      rw [hstage] at h
      cases h
      trivial

/-- What an update has computed does not depend on where it stands. -/
lemma Update.Sound.withStage {update : Update M} {stage : Stage}
    (h : update.Sound serde stage) (stage' : Stage) :
    { update with stage := stage' }.Sound serde stage := by
  cases stage <;> exact h

/-- Every update under way is sound. -/
def AllSound (serde : Serde M) (c : Config M) : Prop :=
  ∀ n update, c.updates n = some update → update.Sound serde update.stage

/-- The next call of an update, and what is left of it to make. -/
lemma step_advance_eq_some {c c' : Config M} {n : ℕ} {failure : Option String} :
    step serde w c (.advance n failure) = some c' ↔
      ∃ update stage s', c.updates n = some update ∧
        update.advance serde w c.store failure = some (stage, s') ∧
        c' = ⟨s', Function.update c.updates n (some { update with stage })⟩ := by
  simp only [step, Option.bind_eq_bind, Option.bind_eq_some_iff, Prod.exists, Option.some.injEq]
  constructor
  · rintro ⟨update, hupdate, stage, s', hadvance, rfl⟩
    exact ⟨update, stage, s', hupdate, hadvance, rfl⟩
  · rintro ⟨update, stage, s', hupdate, hadvance, rfl⟩
    exact ⟨update, hupdate, stage, s', hadvance, rfl⟩

/-- Every event keeps the updates sound. -/
lemma allSound_step {c c' : Config M} {e : Event M} (hsound : AllSound serde c)
    (h : step serde w c e = some c') : AllSound serde c' := by
  intro n' update' hupdate'
  cases e with
  | begin n id answer now =>
    simp only [step] at h
    split at h
    · cases h
      by_cases hn : n' = n
      · subst hn
        simp only [Function.update_self, Option.some.injEq] at hupdate'
        subst hupdate'
        exact sound_begin serde _ answer now
      · exact hsound n' update' (by simpa [hn] using hupdate')
    · cases h
  | advance n failure =>
    obtain ⟨update, stage, s', hupdate, hadvance, rfl⟩ := step_advance_eq_some.mp h
    by_cases hn : n' = n
    · subst hn
      simp only [Function.update_self, Option.some.injEq] at hupdate'
      subst hupdate'
      exact (sound_advance (hsound n' update hupdate) hadvance).withStage stage
    · exact hsound n' update' (by simpa [hn] using hupdate')
  | add transactions =>
    cases h
    exact hsound n' update' hupdate'

/-- A call that is not a write that takes effect leaves all states as they are. -/
theorem follows_advance {R : TransactionState → TransactionState → Prop} (hR : ∀ a, R a a)
    {update : Update M} {s s' : Store} {failure : Option String} {stage : Stage}
    (h : update.advance serde w s failure = some (stage, s'))
    (hwrite : ∀ id current next fields, failure = none →
      update.stage = .write id current next fields →
      ∀ state, s.getState w id = some state → R state fields.state) :
    Store.Follows R s s' := by
  cases failure with
  | some msg =>
    obtain ⟨called, -, hpair⟩ := Option.map_eq_some_iff.mp h
    cases hpair
    exact .refl hR s
  | none =>
    simp only [Update.advance, Update.call] at h
    cases hstage : update.stage with
    | finished result => simp [hstage] at h
    | lookup hash =>
      rw [hstage] at h
      dsimp only at h
      split at h <;> cases h <;> exact .refl hR s
    | delete newId existing =>
      rw [hstage] at h
      cases h
      exact Store.follows_deleteTransaction hR s w _
    | rename newId =>
      rw [hstage] at h
      dsimp only at h
      split at h
      · rename_i hrename
        cases h
        exact Store.follows_renameTransaction hR hrename
      · cases h
        exact .refl hR s
    | write id current next fields =>
      rw [hstage] at h
      cases h
      exact Store.follows_updateTransaction hR (hwrite id current next fields rfl hstage)
    | read id =>
      rw [hstage] at h
      cases h
      exact .refl hR s

/-- What a report does to a row whose state is not the one it was merged with. -/
theorem keeps_nextState_iff (timedOut : Bool) (state current updated : TransactionState) :
    Keeps state (nextState timedOut current updated) ∧
        (timedOut = true → (current.mergedWith updated).isCompleted = false →
          state.isCompleted = false) ↔
      (!updated.isCompleted && (state.isCompleted && !current.isCompleted ||
        state = .inTransit && current = .pending && updated = .pending && !timedOut)) = false := by
  cases timedOut <;> cases updated <;> cases current <;> cases state <;> decide

/-- A write keeps the row's state, and times out no completed row, exactly if the row has not
overtaken the update. -/
theorem keeps_write_iff {update : Update M} {id : TransactionId}
    {current next : TransactionState} {fields : GemTransactionStateUpdate}
    (hsound : update.Sound serde (.write id current next fields)) (state : TransactionState) :
    Keeps state fields.state ∧
        (update.ByTimeout serde current → state.isCompleted = false) ↔
      update.overtaken serde current state = false := by
  obtain ⟨hfields, hnext, hanswer⟩ := hsound
  rw [hfields, hnext]
  obtain hok | ⟨⟨msg, herror⟩, htimeout, hreport, hcurrent⟩ := hanswer
  · rw [Update.overtaken, hok, ← keeps_nextState_iff]
    simp only [Update.ByTimeout, hok, reduceCtorEq, exists_false, false_or, and_imp]
  · have hby : update.ByTimeout serde current := ⟨htimeout, .inl ⟨msg, herror⟩⟩
    have hkeeps : Keeps state (nextState true current .failed) := by
      rw [nextState, TransactionState.mergedWith_of_isCompleted _ rfl]
      exact ⟨fun _ => rfl, fun _ => by decide⟩
    rw [htimeout, hreport]
    simp [Update.overtaken, herror, hcurrent, hby, hkeeps]

/-- A row that an event has written with the state of an update. -/
lemma rowsKeep_write {s : Store} {id : TransactionId} {fields : GemTransactionStateUpdate}
    (h : RowsKeep w s (s.updateTransaction w id fields).2) {state : TransactionState}
    (hstate : s.getState w id = some state) : Keeps state fields.state := by
  obtain ⟨row, hrow, rfl⟩ := Option.map_eq_some_iff.mp hstate
  refine h id id row (row.updated fields) hrow ?_ rfl
  simp [Store.updateTransaction, Store.modify, hrow]

/-- An event that meets the condition keeps the states of the rows. -/
lemma follows_of_notOvertaken {c c' : Config M} {e : Event M} (hsound : AllSound serde c)
    (h : NotOvertaken serde w c e) (hstep : step serde w c e = some c') :
    Store.Follows Keeps c.store c'.store := by
  cases e with
  | begin n id answer now =>
    simp only [step] at hstep
    split at hstep
    · cases hstep
      exact .refl Keeps.refl _
    · cases hstep
  | add transactions =>
    cases hstep
    exact Store.follows_addTransactions Keeps.refl h
  | advance n failure =>
    obtain ⟨update, stage, s', hupdate, hadvance, rfl⟩ := step_advance_eq_some.mp hstep
    refine follows_advance Keeps.refl hadvance ?_
    rintro id current next fields rfl hstage state hstate
    exact ((keeps_write_iff (hstage ▸ hsound n update hupdate) state).mpr
      (h update id current next fields hupdate hstage state hstate)).1

/-- An event that meets the condition times out no completed row. -/
lemma timesOutOpen_of_notOvertaken {c : Config M} {e : Event M} (hsound : AllSound serde c)
    (h : NotOvertaken serde w c e) : TimesOutOpen serde w c e := by
  rintro n update id current next fields rfl hupdate hstage hby state hstate
  exact ((keeps_write_iff (hstage ▸ hsound n update hupdate) state).mpr
    (h update id current next fields hupdate hstage state hstate)).2 hby

/-- An event that keeps the states of the rows, and times out no completed row, meets the
condition. -/
theorem notOvertaken_of_rowsKeep {c : Config M} {e : Event M} (hsound : AllSound serde c)
    (hkeeps : ∀ c', step serde w c e = some c' → RowsKeep w c.store c'.store)
    (htimeout : TimesOutOpen serde w c e) : NotOvertaken serde w c e := by
  cases e with
  | begin n id answer now => trivial
  | add transactions =>
    intro id state transaction hstate hlast
    obtain ⟨row, hrow, rfl⟩ := Option.map_eq_some_iff.mp hstate
    obtain ⟨row', hrow', hn, hstate'⟩ := Store.rows_addTransactions transactions hrow
    have := hkeeps _ rfl id id row row' hrow hrow' hn.symm
    rwa [hstate', hlast] at this
  | advance n failure =>
    cases failure with
    | some msg => trivial
    | none =>
      intro update id current next fields hupdate hstage state hstate
      have hwrite : Update.Sound serde update (.write id current next fields) :=
        hstage ▸ hsound n update hupdate
      have hrows := hkeeps _ (step_advance_eq_some.mpr ⟨update, _, _, hupdate,
        by simp only [Update.advance, Update.call, hstage]; rfl, rfl⟩)
      refine (keeps_write_iff hwrite state).mp ⟨rowsKeep_write hrows hstate, fun hby => ?_⟩
      exact htimeout n update id current next fields rfl hupdate hstage hby state hstate

/-- Between any two moments of a run from `c` the rows have kept their states. -/
def KeepsThroughout (serde : Serde M) (w : WalletId) (c : Config M) (es : List (Event M)) :
    Prop :=
  ∀ es₁ es₂ es₃ c₁ c₂, es = es₁ ++ es₂ ++ es₃ → runEvents (step serde w) c es₁ = some c₁ →
    runEvents (step serde w) c₁ es₂ = some c₂ → RowsKeep w c₁.store c₂.store

/-- The condition is enough for a whole run. -/
lemma keepsThroughout_of_along {c : Config M} {es : List (Event M)}
    (hsound : AllSound serde c) (h : Along (step serde w) (NotOvertaken serde w) c es) :
    KeepsThroughout serde w c es := by
  rintro es₁ es₂ es₃ c₁ c₂ rfl h₁ h₂
  have hmiddle : Along (step serde w) (NotOvertaken serde w) c₁ es₂ :=
    (h.left_of_append).of_append h₁
  have hsound₁ : AllSound serde c₁ :=
    runEvents_invariant (fun _ _ _ hs _ hstep => allSound_step hs hstep) hsound
      h.left_of_append.left_of_append h₁
  have hfollows : Store.Follows Keeps c₁.store c₂.store := by
    refine runEvents_related (R := fun c c' => Store.Follows Keeps c.store c'.store)
      (fun c => .refl Keeps.refl c.store) ?_ ?_ h₂
    · intro c c' c'' h h'
      exact h.trans (fun _ _ _ => Keeps.trans) h'
    exact along_of_along (fun _ _ _ hs _ hstep => allSound_step hs hstep)
      (fun _ _ hs hnot _ hstep => follows_of_notOvertaken hs hnot hstep) hsound₁ hmiddle
  intro id id' row row' hrow hrow' hn
  exact hfollows.state hrow hrow' hn

/-- The condition is needed at every event of a run. -/
lemma along_of_keepsThroughout {c : Config M} {es : List (Event M)}
    (hsound : AllSound serde c) (hkeeps : KeepsThroughout serde w c es)
    (htimeout : Along (step serde w) (TimesOutOpen serde w) c es) :
    Along (step serde w) (NotOvertaken serde w) c es := by
  induction es generalizing c with
  | nil => trivial
  | cons e es ih =>
    refine ⟨notOvertaken_of_rowsKeep hsound (fun c' hstep => ?_) htimeout.1, fun c' hstep => ?_⟩
    · exact hkeeps [] [e] es c c' rfl rfl (by simp [runEvents, hstep])
    · refine ih (allSound_step hsound hstep) ?_ (htimeout.2 c' hstep)
      rintro es₁ es₂ es₃ c₁ c₂ rfl h₁ h₂
      exact hkeeps (e :: es₁) es₂ es₃ c₁ c₂ rfl
        (runEvents_cons_eq_some.mpr ⟨c', hstep, h₁⟩) h₂

/-- In every run of updates and additions from a table: between any two moments no row that is
there at both has left a completed state or gone back from transit to pending, and no completed
row has been timed out, if and only if at every event the row that is written is not ahead of the
state the update has merged with and no row is set back by adding its transaction again.

**Proof sketch.** What an update is about to write is the merge of its report with the state it
has seen (`Update.Sound`, kept by every event). A table of cases shows when that merge suits a
row in another state. From one event to a run the relation on rows is a preorder. -/
theorem sticky_iff_notOvertaken (serde : Serde M) (w : WalletId) (s : Store)
    (es : List (Event M)) :
    KeepsThroughout serde w (.start s) es ∧
        Along (step serde w) (TimesOutOpen serde w) (.start s) es ↔
      Along (step serde w) (NotOvertaken serde w) (.start s) es := by
  have hstart : AllSound serde (.start s : Config M) := fun _ _ h => by cases h
  constructor
  · rintro ⟨hkeeps, htimeout⟩
    exact along_of_keepsThroughout hstart hkeeps htimeout
  · intro h
    refine ⟨keepsThroughout_of_along hstart h, ?_⟩
    exact along_of_along (fun _ _ _ hs _ hstep => allSound_step hs hstep)
      (fun _ _ hs hnot => timesOutOpen_of_notOvertaken hs hnot) hstart h

end

/-- An update that has asked the node while the transaction was pending is overtaken by one that
writes that it is confirmed, and sets the row back. -/
def exampleOvertaking : List (Event Empty) :=
  [.begin 0 exampleTransaction.id (.ok ⟨.pending, [.networkFee 7]⟩) 0,
    .begin 1 exampleTransaction.id (.ok ⟨.confirmed, []⟩) 0,
    .advance 1 none, .advance 0 none]

/-- A confirmed row becomes pending again. -/
theorem not_sticky_example :
    ¬ (KeepsThroughout exampleSerde exampleWallet (.start exampleStore) exampleOvertaking ∧
      Along (step exampleSerde exampleWallet) (TimesOutOpen exampleSerde exampleWallet)
        (.start exampleStore) exampleOvertaking) := by
  rintro ⟨hkeeps, -⟩
  have hrows : ∃ c₁ c₂ row row',
      runEvents (step exampleSerde exampleWallet) (.start exampleStore)
        (exampleOvertaking.take 3) = some c₁ ∧
      runEvents (step exampleSerde exampleWallet) c₁ (exampleOvertaking.drop 3) = some c₂ ∧
      c₁.store.rows exampleWallet exampleTransaction.id = some row ∧
      c₂.store.rows exampleWallet exampleTransaction.id = some row' ∧
      row.number = row'.number ∧ row.transaction.state = .confirmed ∧
      row'.transaction.state = .pending :=
    ⟨_, _, _, _, rfl, rfl, rfl, rfl, rfl, rfl, rfl⟩
  obtain ⟨c₁, c₂, row, row', h₁, h₂, hrow, hrow', hn, hstate, hstate'⟩ := hrows
  have := hkeeps (exampleOvertaking.take 3) (exampleOvertaking.drop 3) [] c₁ c₂ rfl h₁ h₂
    _ _ row row' hrow hrow' hn
  rw [hstate, hstate'] at this
  exact absurd this (by decide)

end GemCore.TransactionStateService

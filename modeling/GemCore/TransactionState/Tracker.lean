import GemCore.Lib.AssocMap
import GemCore.Lib.Interleave
import GemCore.TransactionState.Rules

/-!
# Who polls a transaction

`gemstone/src/services/transaction_state/tracker.rs`: a poll asks again and again for the state of
one transaction, following it when its hash is replaced. A map from transaction ids to the
numbers of polls keeps two polls off one transaction, and clearing it stops the polls that are
running.

A poll locks the map at its start, before each request, when it follows a new hash and when it
is dropped, and other polls run between any two of these. Each locking and each answer is one
event here. The ids a poll has taken and whether it was running at a call of `cancel` are
recorded beside it.

## Main definitions

* `Tracking` — the map, with `start`, `cancel`, `isTracking`, `follow` and `drop`.
* `Poll` — a running poll and where it stands.
* `pollStep` — one event.
* `OneOwner`, `NoCallAfterCancel`, `FreesOwn` — what the map is for.
* `Orderly` — a poll follows only while it is tracking, and only to an id no other poll has;
  `cancel` comes between no check and its request.

## Main results

* `ownership_of_orderly` — in a run of orderly events every transaction has one owner, no poll asks
  after it was cancelled, and a dropped poll frees what it owns and nothing else.
-/

namespace GemCore.TransactionStateService

open Lib

/-- `TrackingState`: the last number given to a poll, a `u64`, and the poll of each id. -/
structure Tracking where
  lastPoll : ℕ
  polls : AssocMap TransactionId ℕ

namespace Tracking

/-- `Tracking::default`. -/
def default : Tracking := ⟨0, ∅⟩

/-- `Tracking::start`: the number of the new poll, unless the transaction has one. -/
def start (tracking : Tracking) (id : TransactionId) : Option (ℕ × Tracking) :=
  if id ∈ tracking.polls then
    none
  else
    let poll := (tracking.lastPoll + 1) % 2 ^ 64
    some (poll, ⟨poll, tracking.polls.insert id poll⟩)

/-- `Tracking::cancel`. -/
def cancel (tracking : Tracking) : Tracking := { tracking with polls := ∅ }

/-- `TrackedTransactions::is_tracking`. -/
def isTracking (tracking : Tracking) (poll : ℕ) : Bool :=
  tracking.polls.anyValue (· = poll)

/-- `TrackedTransactions::follow`. -/
def follow (tracking : Tracking) (poll : ℕ) (id : TransactionId) : Tracking :=
  { tracking with polls := tracking.polls.insert id poll }

/-- `TrackedTransactions::drop`. -/
def drop (tracking : Tracking) (poll : ℕ) : Tracking :=
  { tracking with polls := tracking.polls.retain (· ≠ poll) }

lemma isTracking_iff {tracking : Tracking} {poll : ℕ} :
    tracking.isTracking poll = true ↔ ∃ id, tracking.polls.lookup id = some poll := by
  rw [isTracking, AssocMap.anyValue_iff]
  simp

/-- Dropping a poll takes out the ids it has in the map. -/
lemma lookup_drop (tracking : Tracking) (poll : ℕ) (id : TransactionId) :
    (tracking.drop poll).polls.lookup id =
      if tracking.polls.lookup id = some poll then none else tracking.polls.lookup id := by
  rw [drop, AssocMap.lookup_retain]
  cases tracking.polls.lookup id with
  | none => rfl
  | some number => by_cases h : number = poll <;> simp [h]

end Tracking

/-- Where a poll stands. -/
inductive PollStage where
  /-- It sleeps. -/
  | sleeping (current : TransactionId)
  /-- It has found that it is tracking and is about to ask. -/
  | checked (current : TransactionId)
  /-- Its request is under way. -/
  | updating (current : TransactionId)
  /-- It has been told of a new id. -/
  | following (id : TransactionId)
  /-- It reads the transaction. -/
  | reading (id : TransactionId)
  /-- It has left its loop. -/
  | ending

/-- A running poll: its number and where it stands; the ids it has taken, and whether it was
running when `cancel` was called. -/
structure Poll where
  number : ℕ
  stage : PollStage
  taken : List TransactionId
  cancelled : Bool

/-- The tracking value and the polls that run, by task. -/
structure PollConfig where
  tracking : Tracking
  polls : ℕ → Option Poll

/-- What may happen. -/
inductive PollEvent where
  /-- `poll` is called for a transaction, as task `n`. -/
  | start (n : ℕ) (id : TransactionId)
  /-- A sleep is over, and the poll checks whether it is tracking. -/
  | wake (n : ℕ)
  /-- `updater.update` is called. -/
  | call (n : ℕ)
  /-- The request is answered: with an error, with nothing, or with an id. -/
  | answer (n : ℕ) (result : Except GemServiceError (Option TransactionId))
  /-- The poll follows the id it was told. -/
  | follow (n : ℕ)
  /-- The store has given the state of the transaction. -/
  | read (n : ℕ) (stored : Except GemServiceError (Option TransactionState))
  /-- The poll is dropped, at an await or at its end. -/
  | drop (n : ℕ)
  /-- `cancel` is called. -/
  | cancel

/-- A poll that may be dropped: it is at an await or at its end. -/
def PollStage.isAwait : PollStage → Bool
  | sleeping _ | updating _ | reading _ | ending => true
  | checked _ | following _ => false

/-- Where a poll stands once its request is answered. -/
def PollStage.answered (current : TransactionId) :
    Except GemServiceError (Option TransactionId) → PollStage
  | .error _ => .sleeping current
  | .ok none => .ending
  | .ok (some id) => if id ≠ current then .following id else .reading id

/-- Where a poll stands once it has read the transaction. -/
def PollStage.afterRead (id : TransactionId) :
    Except GemServiceError (Option TransactionState) → PollStage
  | .ok (some state) => if state.isCompleted then .ending else .sleeping id
  | _ => .ending

/-- The configuration with one poll set. -/
def PollConfig.set (c : PollConfig) (n : ℕ) (poll : Option Poll) : PollConfig :=
  { c with polls := Function.update c.polls n poll }

lemma PollConfig.set_polls_eq_some {c : PollConfig} {n m : ℕ} {poll : Option Poll}
    {poll' : Poll} : (c.set n poll).polls m = some poll' ↔
      (m = n ∧ poll = some poll') ∨ (m ≠ n ∧ c.polls m = some poll') := by
  by_cases hm : m = n
  · subst hm
    simp [PollConfig.set]
  · simp [PollConfig.set, hm]

/-- One event of a poll that runs, apart from its start. -/
def Poll.step (c : PollConfig) (n : ℕ) (poll : Poll) : PollEvent → Option PollConfig
  | .wake _ =>
    match poll.stage with
    | .sleeping current => some (c.set n (some { poll with
        stage := if c.tracking.isTracking poll.number then .checked current else .ending }))
    | _ => none
  | .call _ =>
    match poll.stage with
    | .checked current => some (c.set n (some { poll with stage := .updating current }))
    | _ => none
  | .answer _ result =>
    match poll.stage with
    | .updating current => some (c.set n (some { poll with stage := .answered current result }))
    | _ => none
  | .follow _ =>
    match poll.stage with
    | .following id => some
      (({ c with tracking := c.tracking.follow poll.number id } : PollConfig).set n
        (some { poll with stage := .reading id, taken := id :: poll.taken }))
    | _ => none
  | .read _ stored =>
    match poll.stage with
    | .reading id => some (c.set n (some { poll with stage := .afterRead id stored }))
    | _ => none
  | .drop _ =>
    if poll.stage.isAwait then
      some (({ c with tracking := c.tracking.drop poll.number } : PollConfig).set n none)
    else
      none
  | .start _ _ | .cancel => none

/-- The task an event belongs to. -/
def PollEvent.task? : PollEvent → Option ℕ
  | .wake n | .call n | .answer n _ | .follow n | .read n _ | .drop n => some n
  | .start _ _ | .cancel => none

/-- One event. -/
def pollStep (c : PollConfig) (e : PollEvent) : Option PollConfig :=
  match e with
  | .start n id =>
    if (c.polls n).isSome then
      none
    else
      match c.tracking.start id with
      | none => some c
      | some (number, tracking) => some
        (({ c with tracking } : PollConfig).set n
          (some { number, stage := .sleeping id, taken := [id], cancelled := false }))
  | .cancel => some
    { tracking := c.tracking.cancel
      polls := fun n => (c.polls n).map fun poll => { poll with cancelled := true } }
  | .wake n | .call n | .answer n _ | .follow n | .read n _ | .drop n =>
    (c.polls n).bind fun poll => poll.step c n e

/-- No poll runs. -/
def PollConfig.initial : PollConfig := ⟨.default, fun _ => none⟩

/-! ## What the map is for -/

/-- No transaction id has been taken by two polls that run and are not cancelled. -/
def OneOwner (c : PollConfig) : Prop :=
  ∀ n m poll poll', n ≠ m → c.polls n = some poll → c.polls m = some poll' →
    poll.cancelled = false → poll'.cancelled = false → ∀ id ∈ poll.taken, id ∉ poll'.taken

/-- A poll that was running when `cancel` was called asks no more. -/
def NoCallAfterCancel (c : PollConfig) (e : PollEvent) : Prop :=
  ∀ n poll c', e = .call n → c.polls n = some poll → pollStep c e = some c' →
    poll.cancelled = false

/-- The ids a poll owns: those it has taken, unless it is cancelled. -/
def Poll.Owns (poll : Poll) (id : TransactionId) : Prop :=
  poll.cancelled = false ∧ id ∈ poll.taken

instance (poll : Poll) (id : TransactionId) : Decidable (poll.Owns id) :=
  inferInstanceAs (Decidable (_ ∧ _))

/-- Dropping a poll frees the ids it owns and leaves the others as they are. -/
def FreesOwn (c : PollConfig) (e : PollEvent) : Prop :=
  ∀ n poll c', e = .drop n → c.polls n = some poll → pollStep c e = some c' →
    ∀ id, c'.tracking.polls.lookup id =
      if poll.Owns id then none else c.tracking.polls.lookup id

/-- The condition on an event: the numbers of polls have not run out; a poll follows only while
it is tracking, and only to an id that no other poll has; `cancel` does not come between a check
and the request after it. -/
def Orderly (c : PollConfig) : PollEvent → Prop
  | .start _ _ => c.tracking.lastPoll + 1 < 2 ^ 64
  | .follow n => ∀ poll id, c.polls n = some poll → poll.stage = .following id →
      c.tracking.isTracking poll.number = true ∧
        ∀ other, c.tracking.polls.lookup id = some other → other = poll.number
  | .cancel => ∀ n poll current, c.polls n = some poll → poll.stage ≠ .checked current
  | _ => True

/-! ## The invariant -/

/-- The map says of every running poll which ids it owns, the numbers of polls are in use once,
and no poll that is about to ask is cancelled. -/
structure PollConfig.Inv (c : PollConfig) : Prop where
  owns : ∀ n poll, c.polls n = some poll → ∀ id,
    poll.Owns id ↔ c.tracking.polls.lookup id = some poll.number
  distinct : ∀ n m poll poll', n ≠ m → c.polls n = some poll → c.polls m = some poll' →
    poll.number ≠ poll'.number
  number_le : ∀ n poll, c.polls n = some poll → poll.number ≤ c.tracking.lastPoll
  lookup_le : ∀ id number, c.tracking.polls.lookup id = some number →
    number ≤ c.tracking.lastPoll
  checked : ∀ n poll current, c.polls n = some poll → poll.stage = .checked current →
    poll.cancelled = false

/-- Numbers stay in use once, and none gets above the last one, when a slot keeps its number, is
emptied, or gets a new number. -/
lemma numbers_update {α : Type} {number : α → ℕ} {slots : ℕ → Option α} {last last' n : ℕ}
    {slot : Option α}
    (hdistinct : ∀ m m' a b, m ≠ m' → slots m = some a → slots m' = some b → number a ≠ number b)
    (hle : ∀ m a, slots m = some a → number a ≤ last) (hlast : last ≤ last')
    (hslot : ∀ a, slot = some a → (∃ old, slots n = some old ∧ number old = number a) ∨
      last < number a ∧ number a ≤ last') :
    (∀ m m' a b, m ≠ m' → Function.update slots n slot m = some a →
      Function.update slots n slot m' = some b → number a ≠ number b) ∧
      ∀ m a, Function.update slots n slot m = some a → number a ≤ last' := by
  have hsource : ∀ m a, Function.update slots n slot m = some a →
      (∃ old, slots m = some old ∧ number old = number a) ∨
        m = n ∧ last < number a ∧ number a ≤ last' := by
    intro m a ha
    by_cases hm : m = n
    · subst hm
      rw [Function.update_self] at ha
      exact (hslot a ha).imp_right fun h => ⟨rfl, h⟩
    · rw [Function.update_of_ne hm] at ha
      exact .inl ⟨a, ha, rfl⟩
  refine ⟨fun m m' a b hne ha hb => ?_, fun m a ha => ?_⟩
  · obtain ⟨old, hold, hnumber⟩ | ⟨rfl, hlt, -⟩ := hsource m a ha <;>
      obtain ⟨old', hold', hnumber'⟩ | ⟨rfl, hlt', -⟩ := hsource m' b hb
    · rw [← hnumber, ← hnumber']
      exact hdistinct m m' old old' hne hold hold'
    · have := hle m old hold
      omega
    · have := hle m' old' hold'
      omega
    · exact absurd rfl hne
  · obtain ⟨old, hold, hnumber⟩ | ⟨-, -, hle'⟩ := hsource m a ha
    · have := hle m old hold
      omega
    · exact hle'

namespace PollConfig.Inv

variable {c : PollConfig} {n : ℕ} {poll : Poll}

lemma initial : PollConfig.initial.Inv where
  owns _ _ h := by cases h
  distinct _ _ _ _ _ h := by cases h
  number_le _ _ h := by cases h
  lookup_le _ _ h := by cases h
  checked _ _ _ h := by cases h

/-- A poll that is found in the map is not cancelled. -/
lemma not_cancelled (h : c.Inv) (hpoll : c.polls n = some poll)
    (htracking : c.tracking.isTracking poll.number = true) : poll.cancelled = false := by
  obtain ⟨id, hid⟩ := Tracking.isTracking_iff.mp htracking
  exact ((h.owns n poll hpoll id).mpr hid).1

/-- A poll moves on without touching the map. -/
lemma set_stage (h : c.Inv) (hpoll : c.polls n = some poll) (stage : PollStage)
    (hchecked : ∀ current, stage = .checked current → poll.cancelled = false) :
    (c.set n (some { poll with stage })).Inv := by
  constructor
  · intro m poll' hpoll' id
    obtain ⟨rfl, hsome⟩ | ⟨-, hold⟩ := set_polls_eq_some.mp hpoll'
    · cases hsome
      exact h.owns m poll hpoll id
    · exact h.owns m poll' hold id
  · exact (numbers_update h.distinct h.number_le le_rfl fun _ ha =>
      .inl ⟨poll, hpoll, by cases ha; rfl⟩).1
  · exact (numbers_update h.distinct h.number_le le_rfl fun _ ha =>
      .inl ⟨poll, hpoll, by cases ha; rfl⟩).2
  · exact h.lookup_le
  · intro m poll' current hpoll' hstage
    obtain ⟨rfl, hsome⟩ | ⟨-, hold⟩ := set_polls_eq_some.mp hpoll'
    · cases hsome
      exact hchecked current hstage
    · exact h.checked m poll' current hold hstage

/-- A new poll takes an id that no poll has, under a number that none has had. -/
theorem start (h : c.Inv) (n : ℕ) {id : TransactionId} (hid : id ∉ c.tracking.polls) :
    (({ c with tracking := ⟨c.tracking.lastPoll + 1,
        c.tracking.polls.insert id (c.tracking.lastPoll + 1)⟩ } : PollConfig).set n
      (some { number := c.tracking.lastPoll + 1, stage := .sleeping id, taken := [id],
              cancelled := false })).Inv := by
  have hnone : c.tracking.polls.lookup id = none := AList.lookup_eq_none.mpr hid
  constructor
  · intro m poll' hpoll' id'
    change _ ↔ (c.tracking.polls.insert id (c.tracking.lastPoll + 1)).lookup id' = _
    rw [AssocMap.lookup_insert_eq]
    obtain ⟨rfl, hsome⟩ | ⟨-, hold⟩ := set_polls_eq_some.mp hpoll'
    · cases hsome
      by_cases hid' : id' = id
      · simp [Poll.Owns, hid']
      · -- no id has a number above the last one
        have : c.tracking.polls.lookup id' ≠ some (c.tracking.lastPoll + 1) := by
          intro hlookup
          have := h.lookup_le id' _ hlookup
          omega
        simp [Poll.Owns, hid', this]
    · have hle := h.number_le m poll' hold
      have howns := h.owns m poll' hold id'
      by_cases hid' : id' = id
      · subst hid'
        rw [hnone] at howns
        have hne : c.tracking.lastPoll + 1 ≠ poll'.number := by omega
        simpa [hne] using howns
      · simpa [hid'] using howns
  · exact (numbers_update h.distinct h.number_le (Nat.le_succ _) fun _ ha =>
      .inr (by cases ha; exact ⟨Nat.lt_succ_self _, le_rfl⟩)).1
  · exact (numbers_update h.distinct h.number_le (Nat.le_succ _) fun _ ha =>
      .inr (by cases ha; exact ⟨Nat.lt_succ_self _, le_rfl⟩)).2
  · intro id' number hlookup
    change (c.tracking.polls.insert id (c.tracking.lastPoll + 1)).lookup id' = _ at hlookup
    change _ ≤ c.tracking.lastPoll + 1
    rw [AssocMap.lookup_insert_eq] at hlookup
    split at hlookup
    · cases hlookup
      exact Nat.le_refl _
    · exact Nat.le_succ_of_le (h.lookup_le id' number hlookup)
  · intro m poll' current hpoll' hstage
    obtain ⟨rfl, hsome⟩ | ⟨-, hold⟩ := set_polls_eq_some.mp hpoll'
    · cases hsome
      cases hstage
    · exact h.checked m poll' current hold hstage

/-- A poll that is tracking takes an id that no other poll has. -/
lemma follow (h : c.Inv) (hpoll : c.polls n = some poll) {id : TransactionId}
    (htracking : c.tracking.isTracking poll.number = true)
    (hfree : ∀ other, c.tracking.polls.lookup id = some other → other = poll.number) :
    (({ c with tracking := c.tracking.follow poll.number id } : PollConfig).set n
      (some { poll with stage := .reading id, taken := id :: poll.taken })).Inv := by
  have hcancelled := h.not_cancelled hpoll htracking
  constructor
  · intro m poll' hpoll' id'
    change _ ↔ (c.tracking.polls.insert id poll.number).lookup id' = _
    rw [AssocMap.lookup_insert_eq]
    obtain ⟨rfl, hsome⟩ | ⟨hne, hold⟩ := set_polls_eq_some.mp hpoll'
    · cases hsome
      have howns := h.owns m poll hpoll id'
      by_cases hid' : id' = id
      · simp [Poll.Owns, hcancelled, hid']
      · simpa [Poll.Owns, hid'] using howns
    · have howns := h.owns m poll' hold id'
      by_cases hid' : id' = id
      · subst hid'
        have hnumber := h.distinct m n poll' poll hne hold hpoll
        have hnot : ¬ poll'.Owns id' := fun ho => hnumber (hfree _ (howns.mp ho))
        simp [hnot, Ne.symm hnumber]
      · simpa [hid'] using howns
  · exact (numbers_update h.distinct h.number_le le_rfl fun _ ha =>
      .inl ⟨poll, hpoll, by cases ha; rfl⟩).1
  · exact (numbers_update h.distinct h.number_le le_rfl fun _ ha =>
      .inl ⟨poll, hpoll, by cases ha; rfl⟩).2
  · intro id' number hlookup
    change (c.tracking.polls.insert id poll.number).lookup id' = _ at hlookup
    rw [AssocMap.lookup_insert_eq] at hlookup
    split at hlookup
    · cases hlookup
      exact h.number_le n poll hpoll
    · exact h.lookup_le id' number hlookup
  · intro m poll' current hpoll' hstage
    obtain ⟨rfl, hsome⟩ | ⟨-, hold⟩ := set_polls_eq_some.mp hpoll'
    · cases hsome
      cases hstage
    · exact h.checked m poll' current hold hstage

/-- Clearing the map leaves the running polls without an id. -/
lemma cancel (h : c.Inv)
    (hchecked : ∀ n poll current, c.polls n = some poll → poll.stage ≠ .checked current) :
    ({ tracking := c.tracking.cancel
       polls := fun n => (c.polls n).map fun poll => { poll with cancelled := true } } :
      PollConfig).Inv := by
  constructor
  · intro m poll' hpoll' id
    obtain ⟨poll, hold, rfl⟩ := Option.map_eq_some_iff.mp hpoll'
    simp [Poll.Owns, Tracking.cancel]
  · intro m m' poll₁ poll₂ hne h₁ h₂
    obtain ⟨p₁, hold₁, rfl⟩ := Option.map_eq_some_iff.mp h₁
    obtain ⟨p₂, hold₂, rfl⟩ := Option.map_eq_some_iff.mp h₂
    exact h.distinct m m' p₁ p₂ hne hold₁ hold₂
  · intro m poll' hpoll'
    obtain ⟨poll, hold, rfl⟩ := Option.map_eq_some_iff.mp hpoll'
    exact h.number_le m poll hold
  · intro id number hlookup
    simp [Tracking.cancel] at hlookup
  · intro m poll' current hpoll' hstage
    obtain ⟨poll, hold, rfl⟩ := Option.map_eq_some_iff.mp hpoll'
    exact absurd hstage (hchecked m poll current hold)

/-- A poll that is dropped takes its own ids out of the map. -/
lemma drop (h : c.Inv) (hpoll : c.polls n = some poll) :
    (({ c with tracking := c.tracking.drop poll.number } : PollConfig).set n none).Inv := by
  constructor
  · intro m poll' hpoll' id
    change _ ↔ (c.tracking.drop poll.number).polls.lookup id = _
    rw [Tracking.lookup_drop]
    obtain ⟨-, hnone⟩ | ⟨hne, hold⟩ := set_polls_eq_some.mp hpoll'
    · cases hnone
    · have hnumber := h.distinct m n poll' poll hne hold hpoll
      rw [h.owns m poll' hold id]
      split
      case isTrue hlookup => simp [hlookup, Ne.symm hnumber]
      case isFalse => rfl
  · exact (numbers_update h.distinct h.number_le le_rfl fun _ ha => by cases ha).1
  · exact (numbers_update h.distinct h.number_le le_rfl fun _ ha => by cases ha).2
  · intro id number hlookup
    change (c.tracking.drop poll.number).polls.lookup id = _ at hlookup
    rw [Tracking.lookup_drop] at hlookup
    split at hlookup
    · cases hlookup
    · exact h.lookup_le id number hlookup
  · intro m poll' current hpoll' hstage
    obtain ⟨-, hnone⟩ | ⟨-, hold⟩ := set_polls_eq_some.mp hpoll'
    · cases hnone
    · exact h.checked m poll' current hold hstage

/-- What a running poll does keeps the invariant. -/
lemma poll_step {c' : PollConfig} {e : PollEvent} (h : c.Inv)
    (horderly : Orderly c e) (hn : e.task? = some n) (hpoll : c.polls n = some poll)
    (hstep : poll.step c n e = some c') : c'.Inv := by
  cases e with
  | start m id => cases hn
  | cancel => cases hn
  | wake m =>
    simp only [Poll.step] at hstep
    split at hstep
    · cases hstep
      apply h.set_stage hpoll
      intro current hstage
      split at hstage
      · exact h.not_cancelled hpoll ‹_›
      · cases hstage
    · cases hstep
  | call m =>
    simp only [Poll.step] at hstep
    split at hstep
    · cases hstep
      exact h.set_stage hpoll _ (by simp)
    · cases hstep
  | answer m result =>
    simp only [Poll.step] at hstep
    split at hstep
    · cases hstep
      apply h.set_stage hpoll
      intro current hstage
      unfold PollStage.answered at hstage
      split at hstage
      · cases hstage
      · cases hstage
      · split at hstage <;> cases hstage
    · cases hstep
  | follow m =>
    cases hn
    simp only [Poll.step] at hstep
    split at hstep
    · rename_i id hstage
      cases hstep
      obtain ⟨htracking, hfree⟩ := horderly poll id hpoll hstage
      exact h.follow hpoll htracking hfree
    · cases hstep
  | read m stored =>
    simp only [Poll.step] at hstep
    split at hstep
    · cases hstep
      apply h.set_stage hpoll
      intro current hstage
      unfold PollStage.afterRead at hstage
      split at hstage
      · split at hstage <;> cases hstage
      · cases hstage
    · cases hstep
  | drop m =>
    simp only [Poll.step] at hstep
    split at hstep
    · cases hstep
      exact h.drop hpoll
    · cases hstep

/-- Every orderly event keeps the invariant. -/
lemma step {c' : PollConfig} {e : PollEvent} (h : c.Inv) (horderly : Orderly c e)
    (hstep : pollStep c e = some c') : c'.Inv := by
  have running : ∀ m, e.task? = some m →
      (c.polls m).bind (fun poll => poll.step c m e) = some c' → c'.Inv := by
    intro m hm hbind
    obtain ⟨poll, hpoll, hpollStep⟩ := Option.bind_eq_some_iff.mp hbind
    exact h.poll_step horderly hm hpoll hpollStep
  cases e with
  | start m id =>
    simp only [pollStep, Tracking.start] at hstep
    split at hstep
    · cases hstep
    · by_cases hid : id ∈ c.tracking.polls
      · simp only [hid, if_true, Option.some.injEq] at hstep
        exact hstep ▸ h
      · have hmod : (c.tracking.lastPoll + 1) % 2 ^ 64 = c.tracking.lastPoll + 1 :=
          Nat.mod_eq_of_lt horderly
        simp only [hid, if_false, hmod, Option.some.injEq] at hstep
        exact hstep ▸ h.start m hid
  | cancel =>
    cases hstep
    exact h.cancel horderly
  | wake m | call m | answer m result | follow m | read m stored | drop m =>
    exact running m rfl hstep

/-- Under the invariant every transaction has one owner. -/
lemma oneOwner (h : c.Inv) : OneOwner c := by
  intro n m poll poll' hne hpoll hpoll' hrun hrun' id hid hid'
  have hlookup := (h.owns n poll hpoll id).mp ⟨hrun, hid⟩
  have hlookup' := (h.owns m poll' hpoll' id).mp ⟨hrun', hid'⟩
  rw [hlookup] at hlookup'
  exact h.distinct n m poll poll' hne hpoll hpoll' (Option.some.inj hlookup')

/-- Under the invariant no poll asks after it was cancelled. -/
lemma noCallAfterCancel (h : c.Inv) (e : PollEvent) : NoCallAfterCancel c e := by
  rintro n poll c' rfl hpoll hstep
  simp only [pollStep, hpoll, Option.bind_some, Poll.step] at hstep
  split at hstep
  · exact h.checked n poll _ hpoll ‹_›
  · cases hstep

/-- Under the invariant a dropped poll frees what it owns and nothing else. -/
lemma freesOwn (h : c.Inv) (e : PollEvent) : FreesOwn c e := by
  rintro n poll c' rfl hpoll hstep id
  simp only [pollStep, hpoll, Option.bind_some, Poll.step] at hstep
  split at hstep
  · cases hstep
    change (c.tracking.drop poll.number).polls.lookup id = _
    rw [Tracking.lookup_drop]
    simp only [h.owns n poll hpoll id]
  · cases hstep

end PollConfig.Inv

/-- What the map is for, in a run from the start: at its end every transaction has one owner, and at
each of its events no cancelled poll asks and a dropped poll frees what it owns. -/
def KeepsOwnership (es : List PollEvent) : Prop :=
  (∀ c, runEvents pollStep .initial es = some c → OneOwner c) ∧
    Along pollStep (fun c e => NoCallAfterCancel c e ∧ FreesOwn c e) .initial es

/-- In a run of orderly events, at every moment no id has been taken by two running polls that are
not cancelled, no poll that was running when `cancel` was called asks again, and dropping a poll
frees exactly the ids it owns.

**Proof sketch.** The map says of each running poll which ids it owns (`PollConfig.Inv`). Following
keeps this because the poll still is in the map and the id is not another's; cancelling keeps it
because no poll is between its check and its request. -/
theorem ownership_of_orderly (es : List PollEvent) (h : Along pollStep Orderly .initial es) :
    KeepsOwnership es := by
  have hstep : ∀ c e c', PollConfig.Inv c → Orderly c e → pollStep c e = some c' →
      PollConfig.Inv c' := fun _ _ _ hI ho hs => hI.step ho hs
  constructor
  · intro c hrun
    exact (runEvents_invariant hstep PollConfig.Inv.initial h hrun).oneOwner
  · exact along_of_along hstep (fun _ e hI _ => ⟨hI.noCallAfterCancel e, hI.freesOwn e⟩)
      PollConfig.Inv.initial h

/-- A poll follows a new hash, all polls are cancelled while the request of another is under way,
and both end. -/
def examplePolling : List PollEvent :=
  [.start 0 ⟨.ethereum, "a"⟩, .start 1 ⟨.ethereum, "c"⟩, .wake 0, .call 0,
    .answer 0 (.ok (some ⟨.ethereum, "b"⟩)), .follow 0, .wake 1, .call 1, .cancel,
    .read 0 (.ok (some .confirmed)), .drop 0, .answer 1 (.error (.gateway "")), .wake 1, .drop 1]

/-- A poll that follows while it is tracking, and a cancellation between the checks of two polls. -/
theorem ownership_of_orderly_example : KeepsOwnership examplePolling := by
  refine ownership_of_orderly examplePolling ?_
  have hstart : ∀ last < 2, last + 1 < 2 ^ 64 := by omega
  refine .cons (hstart 0 (by decide)) rfl (.cons (hstart 1 (by decide)) rfl (.cons trivial rfl
    (.cons trivial rfl (.cons trivial rfl (.cons ?_ rfl (.cons trivial rfl (.cons trivial rfl
    (.cons ?_ rfl (.cons trivial rfl (.cons trivial rfl (.cons trivial rfl (.cons trivial rfl
    (.cons trivial rfl trivial)))))))))))))
  · intro poll id hpoll hstage
    cases hpoll
    cases hstage
    exact ⟨by decide, fun other h => by cases h⟩
  · rintro (_ | _ | n) poll current hpoll <;> cases hpoll <;> simp

/-- A poll is cancelled while its request is under way, follows the new hash it is told, and goes
on asking. -/
def exampleResurrected : List PollEvent :=
  [.start 0 ⟨.ethereum, "a"⟩, .wake 0, .call 0, .cancel,
    .answer 0 (.ok (some ⟨.ethereum, "b"⟩)), .follow 0, .read 0 (.ok (some .pending)), .wake 0,
    .call 0]

/-- A cancelled poll asks again. -/
theorem not_ownership_example : ¬ KeepsOwnership exampleResurrected := by
  rintro ⟨-, halong⟩
  have hrun : ∃ c poll c',
      runEvents pollStep .initial (exampleResurrected.take 8) = some c ∧
      c.polls 0 = some poll ∧ pollStep c (.call 0) = some c' ∧ poll.cancelled = true :=
    ⟨_, _, _, rfl, rfl, rfl, rfl⟩
  obtain ⟨c, poll, c', hrun, hpoll, hcall, hcancelled⟩ := hrun
  have hparts : Along pollStep (fun c e => NoCallAfterCancel c e ∧ FreesOwn c e) .initial
      (exampleResurrected.take 8 ++ [.call 0]) := halong
  have := (hparts.of_append hrun).1.1 0 poll c' rfl hpoll hcall
  rw [hcancelled] at this
  cases this

end GemCore.TransactionStateService

import GemCore.Lib.Interleave

/-!
# The block parser and its queue

`daemon/src/parser`, `streamer/src/consumer.rs` and `consumers/indexer/fetch_blocks_consumer.rs`.
The parser of a chain compares the block it has reached with the latest one and plans the next
blocks. It reads their transactions and hands them on for storing, or, if it is far behind, puts
the blocks on a queue, from which a consumer takes them one at a time to do the same.

The parser, the consumer and the message broker are three parties that take steps in any order.
A step of a program is one call to the database, the node or the broker, with an outcome that may
be an error. A sleep, a shutdown and an error lead back to the beginning of a loop. Durations and
logs are left out. Blocks are counted in `i64`, whose sums wrap as they do in a release build.

## Main definitions

* `planNextBlock` — which blocks come next, and whether they are queued.
* `parserStep`, `consumerStep` — one call of a program.
* `step` — one event.
* `Covered` — a block waits in the queue, is handled, or was given up.

## Main results

* `blocks_covered_of_run` — under every interleaving, with any failures and restarts, every block
  after the one the parser began with and up to the one it has reached is covered.
* `advances_of_run` — a parser that has begun never goes back or jumps, unless it comes to the
  largest `i64`.
-/

namespace GemCore.Daemon

open Lib

/-! ### Plans -/

/-- `ParserStateRow`, the columns that decide about blocks. -/
structure ParserStateRow where
  currentBlock : Int64
  latestBlock : Int64
  awaitBlocks : Int32
  timeoutBetweenBlocks : Int32
  parallelBlocks : Int32
  isEnabled : Bool
  queueBehindBlocks : Option Int32

/-- `BlockPlanKind`. -/
inductive BlockPlanKind where
  | enqueue | parse

/-- `BlockRange`. -/
structure BlockRange where
  blocks : List UInt64
  endBlock : Int64
  remaining : Int64

/-- `BlockPlan`. -/
structure BlockPlan where
  range : BlockRange
  kind : BlockPlanKind

/-- `should_reload_catchup`. -/
def shouldReloadCatchup (remaining interval : Int64) : Bool :=
  decide (0 < interval) && remaining % interval == 0

/-- `(start_block..=end_block).map(|b| b as u64)`. -/
def blocksBetween (startBlock endBlock : Int64) : List UInt64 :=
  (List.range (endBlock.toInt - startBlock.toInt + 1).toNat).map fun k =>
    (startBlock + Int64.ofNat k).toUInt64

/-- `plan_next_block`. -/
def planNextBlock (state : ParserStateRow) (currentBlock latestBlock : Int64) : Option BlockPlan :=
  if !state.isEnabled then none else
  let startBlock := currentBlock + 1
  let endBlock := min (startBlock + state.parallelBlocks.toInt64 - 1)
    (latestBlock - state.awaitBlocks.toInt64)
  if endBlock < startBlock then none else
  let remaining := latestBlock - endBlock - state.awaitBlocks.toInt64
  let kind := match state.queueBehindBlocks with
    | some queueBehindBlocks =>
      if queueBehindBlocks.toInt64 < remaining then BlockPlanKind.enqueue else .parse
    | none => .parse
  some { range := { blocks := blocksBetween startBlock endBlock, endBlock, remaining }, kind }

lemma mem_blocksBetween {startBlock endBlock b : Int64} (hlow : startBlock ≤ b)
    (hhigh : b ≤ endBlock) : b.toUInt64 ∈ blocksBetween startBlock endBlock := by
  rw [Int64.le_iff_toInt_le] at hlow hhigh
  refine List.mem_map.mpr ⟨(b.toInt - startBlock.toInt).toNat, List.mem_range.mpr (by omega), ?_⟩
  have hoffset : Int64.ofNat (b.toInt - startBlock.toInt).toNat = b - startBlock := by
    rw [← Int64.ofInt_eq_ofNat, Int.toNat_of_nonneg (by omega), Int64.ofInt_sub,
      Int64.ofInt_toInt, Int64.ofInt_toInt]
  rw [hoffset, Int64.add_comm, Int64.sub_add_cancel]

/-- What a plan consists of: the blocks after the current one. -/
lemma planNextBlock_eq_some {state : ParserStateRow} {current latest : Int64} {plan : BlockPlan}
    (h : planNextBlock state current latest = some plan) :
    current + 1 ≤ plan.range.endBlock ∧
      plan.range.blocks = blocksBetween (current + 1) plan.range.endBlock := by
  unfold planNextBlock at h
  split at h
  case isTrue => cases h
  case isFalse =>
    simp only at h
    split at h
    case isTrue => cases h
    case isFalse hend =>
      cases h
      exact ⟨Int64.not_lt.mp hend, rfl⟩

/-- Below another number a number can be counted up. -/
lemma toInt_add_one {a b : Int64} (h : a < b) : (a + 1).toInt = a.toInt + 1 := by
  rw [Int64.lt_iff_toInt_lt] at h
  have hlow := a.le_toInt
  have hhigh := b.toInt_lt
  rw [Int64.toInt_add, Int64.toInt_one, Int.bmod_eq_of_le_mul_two] <;> omega

/-! ### The parties -/

/-- `TransactionsPayload` of one chain, with transactions of type `T`. -/
structure TransactionsPayload (T : Type) where
  blocks : List UInt64
  transactions : List T
  notifyDevices : Bool

variable {T : Type}

/-- `TransactionsPayload::new_with_notify`. -/
def TransactionsPayload.newWithNotify (blocks : List UInt64) (transactions : List T) :
    TransactionsPayload T :=
  { blocks, transactions, notifyDevices := true }

/-- The database, the node and the broker. -/
structure World (T : Type) where
  row : ParserStateRow
  /-- The queue of blocks. -/
  ready : List UInt64
  /-- The blocks that are delivered to the consumer and not acknowledged. -/
  unacked : List UInt64
  /-- The queue of transactions to store. -/
  stored : List (TransactionsPayload T)
  /-- What the node has answered for blocks. -/
  fetched : List (List UInt64 × List T)
  /-- The blocks that the broker has refused or thrown away, or the consumer has skipped. -/
  dropped : List UInt64
  /-- The block the parser has begun after. -/
  origin : Int64

/-- How a call goes. -/
structure Outcome (T : Type) where
  /-- It returns an error. -/
  fails : Bool
  /-- It takes effect although it, or an attempt that is repeated, returns an error. -/
  lands : Bool
  /-- The broker does not confirm the message. -/
  nacked : Bool
  /-- A shutdown is signalled. -/
  shutdown : Bool
  /-- The latest block of the node. -/
  number : UInt64
  /-- The transactions that the node finds. -/
  transactions : List T

/-- The part of a list that reaches the broker. -/
def Outcome.reaching {α : Type} (o : Outcome T) (messages : List α) : List α :=
  if o.lands || (!o.fails && !o.nacked) then messages else []

/-- The part of a list that the broker refuses, which nobody hears of. -/
def Outcome.refused {α : Type} (o : Outcome T) (messages : List α) : List α :=
  if !o.fails && o.nacked then messages else []

/-- What a call leaves on the queues, among the answers, and among the blocks given up. -/
def World.add (w : World T) (ready : List UInt64) (stored : List (TransactionsPayload T))
    (fetched : List (List UInt64 × List T)) (dropped : List UInt64) : World T :=
  { w with
    ready := w.ready ++ ready
    stored := w.stored ++ stored
    fetched := w.fetched ++ fetched
    dropped := w.dropped ++ dropped }

/-- `publish_with_routing_key(QueueName::FetchBlocks, ..)`. -/
def World.publishBlock (w : World T) (o : Outcome T) (block : UInt64) : World T :=
  w.add (o.reaching [block]) [] [] (o.refused [block])

/-- `publish(QueueName::StoreTransactions, ..)`. -/
def World.publishPayload (w : World T) (o : Outcome T) (payload : TransactionsPayload T) :
    World T :=
  w.add [] (o.reaching [payload]) [] (o.refused payload.blocks)

/-- `get_transactions_in_blocks`. -/
def World.fetch (w : World T) (o : Outcome T) (blocks : List UInt64) : World T :=
  w.add [] [] (if o.fails then [] else [(blocks, o.transactions)]) []

/-- `set_current_block`. -/
def World.setCurrentBlock (w : World T) (o : Outcome T) (block : Int64) : World T :=
  if o.lands || !o.fails then { w with row := { w.row with currentBlock := block } } else w

/-- `set_latest_block`. -/
def World.setLatestBlock (w : World T) (o : Outcome T) (block : Int64) : World T :=
  if o.lands || !o.fails then { w with row := { w.row with latestBlock := block } } else w

/-- Where the parser is: the call it makes next. -/
inductive Stage (T : Type) where
  /-- `get_state`, in the loop of `start`. -/
  | start
  /-- `get_block_latest_number`, in `get_latest_block`. -/
  | latestNumber (state : ParserStateRow)
  /-- `set_latest_block`, in `get_latest_block`. -/
  | setLatest (state : ParserStateRow) (latestBlock : Int64)
  /-- `set_current_block`, in `get_latest_block`. -/
  | jump (state : ParserStateRow) (latestBlock : Int64)
  /-- `get_state`, in the loop of `process_blocks`. -/
  | processBlocks
  /-- `publish_blocks`, of one block; more are left. -/
  | publishBlocks (plan : BlockPlan) (block : UInt64) (left : List UInt64)
  /-- `get_transactions_in_blocks`, in `parse_blocks`. -/
  | parseBlocks (plan : BlockPlan) (state : ParserStateRow)
  /-- `publish_transactions`, in `parse_blocks`. -/
  | publishTransactions (plan : BlockPlan) (state : ParserStateRow) (transactions : List T)
  /-- `set_current_block`, in `execute_plan`; then whether `process_blocks` goes on. -/
  | setCurrent (plan : BlockPlan) (again : Outcome T → Bool)

/-- The end of `start`'s loop after `get_latest_block`. -/
def afterLatest (state : ParserStateRow) (latestBlock : Int64) : Stage T :=
  if latestBlock ≤ state.currentBlock + state.awaitBlocks.toInt64 then .start else .processBlocks

/-- `publish_blocks`, and what follows it. -/
def publishBlocks (plan : BlockPlan) : List UInt64 → Stage T
  | [] => .setCurrent plan fun _ => true
  | block :: left => .publishBlocks plan block left

/-- Whether `execute_plan` lets `process_blocks` go on after blocks that have been parsed. -/
def goesOn (catchupReloadInterval : Int64) (plan : BlockPlan) (state : ParserStateRow)
    (o : Outcome T) : Bool :=
  !shouldReloadCatchup plan.range.remaining catchupReloadInterval &&
    !(decide (0 < state.timeoutBetweenBlocks) && o.shutdown)

/-- One call of the parser. -/
def parserStep (catchupReloadInterval : Int64) (w : World T) (o : Outcome T) :
    Stage T → Stage T × World T
  | .start =>
    if o.shutdown || o.fails || !w.row.isEnabled then (.start, w) else (.latestNumber w.row, w)
  | .latestNumber state =>
    if o.fails then (.start, w) else (.setLatest state (o.number.toInt64), w)
  | .setLatest state latestBlock =>
    -- what comes of the writes of the row is ignored
    (if state.currentBlock = 0 then .jump state latestBlock else afterLatest state latestBlock,
      w.setLatestBlock o latestBlock)
  | .jump state latestBlock =>
    (afterLatest state latestBlock,
      { w.setCurrentBlock o latestBlock with
        origin := if o.lands || !o.fails then latestBlock else w.origin })
  | .processBlocks =>
    if o.shutdown || o.fails then (.start, w) else
    match planNextBlock w.row w.row.currentBlock w.row.latestBlock with
    | none => (.start, w)
    | some plan =>
      match plan.kind with
      | .enqueue => (publishBlocks plan plan.range.blocks, w)
      | .parse => (.parseBlocks plan w.row, w)
  | .publishBlocks plan block left =>
    (if o.fails then .start else publishBlocks plan left, w.publishBlock o block)
  | .parseBlocks plan state =>
    (if o.fails then .start
      else if o.transactions.length = 0 then
        .setCurrent plan (goesOn catchupReloadInterval plan state)
      else .publishTransactions plan state o.transactions,
      w.fetch o plan.range.blocks)
  | .publishTransactions plan state transactions =>
    (if o.fails then .start else .setCurrent plan (goesOn catchupReloadInterval plan state),
      w.publishPayload o (.newWithNotify plan.range.blocks transactions))
  | .setCurrent plan again =>
    (if again o then .processBlocks else .start, w.setCurrentBlock o plan.range.endBlock)

/-- Where the consumer is, with the block of its message. -/
inductive Work (T : Type) where
  | idle
  /-- `get_transactions_in_blocks`, in `process`. -/
  | fetching (block : UInt64)
  /-- `publish_transactions`, in `process`. -/
  | storing (block : UInt64) (transactions : List T)
  /-- `ack` or `nack`, in `consume`. -/
  | settling (block : UInt64) (acks : Bool)

/-- `process_message` after an error of `process`: the message is skipped or goes back. -/
def World.skip (w : World T) (skipOnError : Bool) (block : UInt64) : World T :=
  w.add [] [] [] (if skipOnError then [block] else [])

/-- One call of the consumer. -/
def consumerStep (skipOnError : Bool) (w : World T) (o : Outcome T) : Work T → Work T × World T
  | .idle =>
    match w.unacked with
    | [] => (.idle, w)
    | block :: _ => (.fetching block, w)
  | .fetching block =>
    if o.fails then (.settling block skipOnError, w.skip skipOnError block)
    else
      (if o.transactions.length = 0 then .settling block true else .storing block o.transactions,
        w.fetch o [block])
  | .storing block transactions =>
    let w' := w.publishPayload o (.newWithNotify [block] transactions)
    if o.fails then (.settling block skipOnError, w'.skip skipOnError block)
    else (.settling block true, w')
  | .settling block acks =>
    (.idle, { w with
      unacked := w.unacked.erase block
      ready := if acks then w.ready else block :: w.ready })

/-- The parties together. -/
structure System (T : Type) where
  world : World T
  stage : Stage T
  work : Work T

/-- What may happen. -/
inductive Event (T : Type) where
  | parser (o : Outcome T)
  | consumer (o : Outcome T)
  /-- The parser is restarted. -/
  | restart
  /-- The broker delivers the next block. -/
  | deliver
  /-- The consumer's connection is lost, or the consumer is restarted. -/
  | disconnect (restarted : Bool)
  /-- The queue is full, and its oldest block is thrown away. -/
  | overflow
  /-- The row is configured, with the same current block. -/
  | configure (row : ParserStateRow)

/-- **One event.** -/
def step (catchupReloadInterval : Int64) (skipOnError : Bool) (s : System T) :
    Event T → Option (System T)
  | .parser o =>
    let next := parserStep catchupReloadInterval s.world o s.stage
    some { s with stage := next.1, world := next.2 }
  | .consumer o =>
    let next := consumerStep skipOnError s.world o s.work
    some { s with work := next.1, world := next.2 }
  | .restart => some { s with stage := .start }
  | .deliver =>
    match s.world.ready with
    | [] => none
    | block :: ready => some { s with world :=
        { s.world with ready, unacked := s.world.unacked ++ [block] } }
  | .disconnect restarted => some
    { s with
      work := if restarted then .idle else s.work
      world := { s.world with ready := s.world.unacked ++ s.world.ready, unacked := [] } }
  | .overflow =>
    match s.world.ready with
    | [] => none
    | block :: ready => some { s with world :=
        { s.world with ready, dropped := s.world.dropped ++ [block] } }
  | .configure row =>
    some { s with world :=
      { s.world with row := { row with currentBlock := s.world.row.currentBlock } } }

/-- The system when the parser and the consumer begin. -/
def System.initial (row : ParserStateRow) (ready : List UInt64) : System T :=
  { world :=
      { row, ready, unacked := [], stored := [], fetched := [], dropped := []
        origin := row.currentBlock }
    stage := .start
    work := .idle }

/-! ### What the parties keep -/

/-- The transactions of a block have been read, and handed on if there are any. -/
def Handled (w : World T) (block : UInt64) : Prop :=
  ∃ blocks transactions, (blocks, transactions) ∈ w.fetched ∧ block ∈ blocks ∧
    (transactions = [] ∨ .newWithNotify blocks transactions ∈ w.stored)

/-- **A block is not forgotten**: it waits for the consumer, it is handled, or it was given up. -/
def Covered (w : World T) (block : UInt64) : Prop :=
  block ∈ w.ready ∨ block ∈ w.unacked ∨ Handled w block ∨ block ∈ w.dropped

/-- What no party takes back. -/
structure Grows (w w' : World T) : Prop where
  covered : ∀ block, Covered w block → Covered w' block
  handled : ∀ block, Handled w block → Handled w' block
  fetched : w.fetched ⊆ w'.fetched
  dropped : w.dropped ⊆ w'.dropped
  current : w'.row.currentBlock = w.row.currentBlock
  origin : w'.origin = w.origin

lemma Grows.of {w w' : World T} (hready : ∀ block ∈ w.ready, Covered w' block)
    (hunacked : ∀ block ∈ w.unacked, Covered w' block) (hfetched : w.fetched ⊆ w'.fetched)
    (hstored : w.stored ⊆ w'.stored) (hdropped : w.dropped ⊆ w'.dropped)
    (hcurrent : w'.row.currentBlock = w.row.currentBlock) (horigin : w'.origin = w.origin) :
    Grows w w' := by
  have hhandled : ∀ block, Handled w block → Handled w' block := by
    rintro block ⟨blocks, transactions, hmem, hblock, htransactions⟩
    exact ⟨blocks, transactions, hfetched hmem, hblock, htransactions.imp id (@hstored _)⟩
  refine ⟨?_, hhandled, hfetched, hdropped, hcurrent, horigin⟩
  rintro block (h | h | h | h)
  · exact hready block h
  · exact hunacked block h
  · exact .inr (.inr (.inl (hhandled block h)))
  · exact .inr (.inr (.inr (hdropped h)))

lemma Grows.refl (w : World T) : Grows w w :=
  ⟨fun _ => id, fun _ => id, fun _ => id, fun _ => id, rfl, rfl⟩

lemma Grows.trans {w₁ w₂ w₃ : World T} (h : Grows w₁ w₂) (h' : Grows w₂ w₃) : Grows w₁ w₃ :=
  ⟨fun b hb => h'.covered b (h.covered b hb), fun b hb => h'.handled b (h.handled b hb),
    fun _ hx => h'.fetched (h.fetched hx), fun _ hx => h'.dropped (h.dropped hx),
    h'.current.trans h.current, h'.origin.trans h.origin⟩

lemma grows_add (w : World T) (ready : List UInt64) (stored : List (TransactionsPayload T))
    (fetched : List (List UInt64 × List T)) (dropped : List UInt64) :
    Grows w (w.add ready stored fetched dropped) :=
  .of (fun _ h => .inl (List.mem_append_left _ h)) (fun _ h => .inr (.inl h))
    (List.subset_append_left _ _) (List.subset_append_left _ _) (List.subset_append_left _ _)
    rfl rfl

/-- Another row with the same current block. -/
lemma grows_row (w : World T) {row : ParserStateRow}
    (h : row.currentBlock = w.row.currentBlock) : Grows w { w with row } :=
  .of (fun _ => .inl) (fun _ hb => .inr (.inl hb)) (fun _ => id) (fun _ => id) (fun _ => id) h rfl

/-- A block that has been published is on the queue, or refused. -/
lemma covered_publishBlock (w : World T) {o : Outcome T} (h : o.fails = false) (block : UInt64) :
    Covered (w.publishBlock o block) block := by
  cases hnacked : o.nacked with
  | false => exact .inl (by simp [World.publishBlock, World.add, Outcome.reaching, h, hnacked])
  | true =>
    exact .inr (.inr (.inr (by simp [World.publishBlock, World.add, Outcome.refused, h, hnacked])))

/-- Blocks whose transactions have been published are handled, or refused. -/
lemma handled_publishPayload {w : World T} {o : Outcome T} (h : o.fails = false)
    {blocks : List UInt64} {transactions : List T} (hfetched : (blocks, transactions) ∈ w.fetched) :
    ∀ block ∈ blocks, Handled (w.publishPayload o (.newWithNotify blocks transactions)) block ∨
      block ∈ (w.publishPayload o (.newWithNotify blocks transactions)).dropped := by
  intro block hblock
  cases hnacked : o.nacked with
  | false =>
    exact .inl ⟨blocks, transactions, List.mem_append_left _ hfetched, hblock,
      .inr (by simp [World.publishPayload, World.add, Outcome.reaching, h, hnacked])⟩
  | true =>
    exact .inr (by
      simp [World.publishPayload, World.add, Outcome.refused, TransactionsPayload.newWithNotify, h,
        hnacked, hblock])

/-- Blocks without transactions are handled when they have been read. -/
lemma handled_fetch {w : World T} {o : Outcome T} (h : o.fails = false) {blocks : List UInt64}
    (hempty : o.transactions.length = 0) : ∀ block ∈ blocks, Handled (w.fetch o blocks) block :=
  fun block hblock => ⟨blocks, o.transactions, by simp [World.fetch, World.add, h], hblock,
    .inl (List.length_eq_zero_iff.mp hempty)⟩

/-- A plan that starts at the current block. -/
def Planned (w : World T) (plan : BlockPlan) : Prop :=
  w.row.currentBlock + 1 ≤ plan.range.endBlock ∧
    plan.range.blocks = blocksBetween (w.row.currentBlock + 1) plan.range.endBlock

/-- What holds before each call of the parser. -/
def Stage.Ok (w : World T) : Stage T → Prop
  | start => True
  | latestNumber state => state.currentBlock = w.row.currentBlock
  | setLatest state _ => state.currentBlock = w.row.currentBlock
  | jump _ _ => w.row.currentBlock = 0
  | processBlocks => True
  | publishBlocks plan block left => Planned w plan ∧
    ∀ b ∈ plan.range.blocks, b ∈ block :: left ∨ Covered w b
  | parseBlocks plan _ => Planned w plan
  | publishTransactions plan _ transactions =>
    Planned w plan ∧ (plan.range.blocks, transactions) ∈ w.fetched
  | setCurrent plan _ => Planned w plan ∧ ∀ b ∈ plan.range.blocks, Covered w b

/-- What holds before each call of the consumer. -/
def Work.Ok (w : World T) : Work T → Prop
  | storing block transactions => ([block], transactions) ∈ w.fetched
  | settling block true => Handled w block ∨ block ∈ w.dropped
  | _ => True

/-- What holds between two events. -/
structure Inv (s : System T) : Prop where
  stage : s.stage.Ok s.world
  work : s.work.Ok s.world
  covered : ∀ b, s.world.origin < b → b ≤ s.world.row.currentBlock → Covered s.world b.toUInt64

lemma Planned.grows {w w' : World T} (h : Grows w w') {plan : BlockPlan} (hplan : Planned w plan) :
    Planned w' plan := by
  rw [Planned, h.current]
  exact hplan

lemma Stage.Ok.grows {w w' : World T} (h : Grows w w') {stage : Stage T} (hok : stage.Ok w) :
    stage.Ok w' := by
  cases stage with
  | start => trivial
  | processBlocks => trivial
  | latestNumber state | setLatest state latestBlock => exact Eq.trans hok h.current.symm
  | jump state latestBlock => exact h.current.trans hok
  | publishBlocks plan block left =>
    exact ⟨hok.1.grows h, fun b hb => (hok.2 b hb).imp id (h.covered b)⟩
  | parseBlocks plan state => exact Planned.grows h hok
  | publishTransactions plan state transactions => exact ⟨hok.1.grows h, h.fetched hok.2⟩
  | setCurrent plan again => exact ⟨hok.1.grows h, fun b hb => h.covered b (hok.2 b hb)⟩

lemma Work.Ok.grows {w w' : World T} (h : Grows w w') {work : Work T} (hok : work.Ok w) :
    work.Ok w' := by
  cases work with
  | idle => trivial
  | fetching block => trivial
  | storing block transactions => exact h.fetched hok
  | settling block acks =>
    cases acks
    · trivial
    · exact hok.imp (h.handled block) (@h.dropped _)

/-- What an event does: it keeps what holds between events, and a parser that has begun neither goes
back nor begins elsewhere, while there is a block after the current one. -/
structure Steps (s s' : System T) : Prop where
  inv : Inv s'
  advances : 0 < s.world.row.currentBlock → s.world.row.currentBlock ≠ Int64.maxValue →
    s'.world.origin = s.world.origin ∧ s.world.row.currentBlock ≤ s'.world.row.currentBlock

/-- An event that takes nothing back and does not move the parser. -/
lemma Inv.grows {s s' : System T} (hinv : Inv s) (h : Grows s.world s'.world)
    (hstage : s'.stage.Ok s'.world) (hwork : s'.work.Ok s'.world) : Steps s s' := by
  refine ⟨⟨hstage, hwork, fun b hlow hhigh => h.covered _ (hinv.covered b ?_ ?_)⟩,
    fun _ _ => ⟨h.origin, by rw [h.current]; exact Int64.le_refl _⟩⟩
  · rwa [h.origin] at hlow
  · rwa [h.current] at hhigh

/-! ### Runs -/

variable {interval : Int64} {skipOnError : Bool}

/-- What the consumer has done does not depend on the row. -/
lemma Work.Ok.row {w : World T} {work : Work T} (hok : work.Ok w) (row : ParserStateRow)
    (origin : Int64) : work.Ok { w with row, origin } := by
  cases work with
  | settling block acks => cases acks <;> exact hok
  | _ => exact hok

/-- The current block is written when all blocks up to it are covered. -/
lemma Inv.setCurrentBlock {s : System T} (hinv : Inv s) {plan : BlockPlan}
    (hplan : Planned s.world plan) (hall : ∀ b ∈ plan.range.blocks, Covered s.world b)
    (o : Outcome T) {stage : Stage T} (hstage : ∀ w, stage.Ok w) :
    Steps s { s with stage, world := s.world.setCurrentBlock o plan.range.endBlock } := by
  unfold World.setCurrentBlock
  split
  · refine ⟨⟨hstage _, hinv.work.row _ _, fun b hlow hhigh => ?_⟩, fun _ hmax => ⟨rfl, ?_⟩⟩
    · by_cases hold : b ≤ s.world.row.currentBlock
      · exact hinv.covered b hlow hold
      · refine hall _ ?_
        have hlt := Int64.not_le.mp hold
        have hcount := toInt_add_one hlt
        rw [Int64.lt_iff_toInt_lt] at hlt
        rw [hplan.2]
        exact mem_blocksBetween (Int64.le_iff_toInt_le.mpr (by omega)) hhigh
    · have hcount := toInt_add_one (Int64.lt_of_le_of_ne (Int64.le_maxValue _) hmax)
      have hend := Int64.le_iff_toInt_le.mp hplan.1
      show s.world.row.currentBlock ≤ plan.range.endBlock
      exact Int64.le_iff_toInt_le.mpr (by omega)
  · exact hinv.grows (.refl _) (hstage _) hinv.work

/-- Where the loops begin, nothing is asked. -/
lemma afterLatest_ok (w : World T) (state : ParserStateRow) (latestBlock : Int64) :
    (afterLatest state latestBlock : Stage T).Ok w := by
  unfold afterLatest
  split <;> trivial

lemma publishBlocks_ok {w : World T} {plan : BlockPlan} (hplan : Planned w plan)
    {blocks : List UInt64} (h : ∀ b ∈ plan.range.blocks, b ∈ blocks ∨ Covered w b) :
    (publishBlocks plan blocks : Stage T).Ok w := by
  cases blocks with
  | nil => exact ⟨hplan, fun b hb => (h b hb).resolve_left List.not_mem_nil⟩
  | cons block left => exact ⟨hplan, h⟩

/-- **A call of the parser.** -/
theorem Inv.parserStep {s : System T} (hinv : Inv s) (o : Outcome T) :
    Steps s { s with
      stage := (parserStep interval s.world o s.stage).1
      world := (parserStep interval s.world o s.stage).2 } := by
  obtain ⟨w, stage, work⟩ := s
  have hok := hinv.stage
  cases stage with
  | start =>
    simp only [Daemon.parserStep]
    split
    · exact hinv.grows (.refl w) trivial hinv.work
    · exact hinv.grows (.refl w) rfl hinv.work
  | latestNumber state =>
    simp only [Daemon.parserStep]
    split
    · exact hinv.grows (.refl w) trivial hinv.work
    · exact hinv.grows (.refl w) hok hinv.work
  | setLatest state latestBlock =>
    have hgrows : Grows w (w.setLatestBlock o latestBlock) := by
      unfold World.setLatestBlock
      split
      · exact grows_row w rfl
      · exact .refl w
    simp only [Daemon.parserStep]
    refine hinv.grows hgrows ?_ (hinv.work.grows hgrows)
    split
    case isTrue hzero => exact hgrows.current.trans (hok.symm.trans hzero)
    case isFalse => exact afterLatest_ok _ _ _
  | jump state latestBlock =>
    simp only [Daemon.parserStep, World.setCurrentBlock]
    refine ⟨⟨afterLatest_ok _ _ _, ?_, ?_⟩, fun hpos _ => ?_⟩
    · split <;> exact hinv.work.row _ _
    · split
      · intro b hlow hhigh
        exact absurd hlow (Int64.not_lt.mpr hhigh)
      · exact hinv.covered
    · exact absurd (hok ▸ hpos) Int64.lt_irrefl
  | processBlocks =>
    simp only [Daemon.parserStep]
    split
    · exact hinv.grows (.refl w) trivial hinv.work
    · cases hplan : planNextBlock w.row w.row.currentBlock w.row.latestBlock with
      | none => exact hinv.grows (.refl w) trivial hinv.work
      | some plan =>
        have hplanned : Planned w plan := planNextBlock_eq_some hplan
        cases hkind : plan.kind with
        | enqueue =>
          simp only [hkind]
          exact hinv.grows (.refl w) (publishBlocks_ok hplanned fun b hb => .inl hb) hinv.work
        | parse =>
          simp only [hkind]
          exact hinv.grows (.refl w) hplanned hinv.work
  | publishBlocks plan block left =>
    have hgrows : Grows w (w.publishBlock o block) := grows_add _ _ _ _ _
    simp only [Daemon.parserStep]
    refine hinv.grows hgrows ?_ (hinv.work.grows hgrows)
    split
    · trivial
    case isFalse hfails =>
      refine publishBlocks_ok (hok.1.grows hgrows) fun b hb => ?_
      rcases hok.2 b hb with hmem | hcovered
      · rcases List.mem_cons.mp hmem with rfl | hmem
        · exact .inr (covered_publishBlock w (by simpa using hfails) b)
        · exact .inl hmem
      · exact .inr (hgrows.covered b hcovered)
  | parseBlocks plan state =>
    have hgrows : Grows w (w.fetch o plan.range.blocks) := grows_add _ _ _ _ _
    simp only [Daemon.parserStep]
    refine hinv.grows hgrows ?_ (hinv.work.grows hgrows)
    split
    · trivial
    case isFalse hfails =>
      have hfails : o.fails = false := by simpa using hfails
      split
      case isTrue hempty =>
        exact ⟨Planned.grows hgrows hok, fun b hb =>
          .inr (.inr (.inl (handled_fetch hfails hempty b hb)))⟩
      case isFalse => exact ⟨Planned.grows hgrows hok, by simp [World.fetch, World.add, hfails]⟩
  | publishTransactions plan state transactions =>
    have hgrows : Grows w (w.publishPayload o (.newWithNotify plan.range.blocks transactions)) :=
      grows_add _ _ _ _ _
    simp only [Daemon.parserStep]
    refine hinv.grows hgrows ?_ (hinv.work.grows hgrows)
    split
    · trivial
    case isFalse hfails =>
      exact ⟨hok.1.grows hgrows, fun b hb => .inr (.inr
        (handled_publishPayload (by simpa using hfails) hok.2 b hb))⟩
  | setCurrent plan again =>
    simp only [Daemon.parserStep]
    refine hinv.setCurrentBlock hok.1 hok.2 o fun w => ?_
    split <;> trivial

/-- **A call of the consumer.** -/
theorem Inv.consumerStep {s : System T} (hinv : Inv s) (o : Outcome T) :
    Steps s { s with
      work := (consumerStep skipOnError s.world o s.work).1
      world := (consumerStep skipOnError s.world o s.work).2 } := by
  obtain ⟨w, stage, work⟩ := s
  have hok := hinv.work
  -- a message is settled once it is handled, given up, or put back
  have hskip : ∀ w' block, Grows w w' → Steps ⟨w, stage, work⟩ ⟨w'.skip skipOnError block, stage,
      .settling block skipOnError⟩ := by
    intro w' block h
    have hgrows : Grows w (w'.skip skipOnError block) := h.trans (grows_add _ _ _ _ _)
    refine hinv.grows hgrows (hinv.stage.grows hgrows) ?_
    cases skipOnError
    · trivial
    · exact .inr (by simp [World.skip, World.add])
  cases work with
  | idle =>
    simp only [Daemon.consumerStep]
    split <;> exact hinv.grows (.refl w) hinv.stage trivial
  | fetching block =>
    simp only [Daemon.consumerStep]
    split
    · exact hskip w block (.refl w)
    case isFalse hfails =>
      have hfails : o.fails = false := by simpa using hfails
      have hgrows : Grows w (w.fetch o [block]) := grows_add _ _ _ _ _
      refine hinv.grows hgrows (hinv.stage.grows hgrows) ?_
      dsimp only
      split
      case isTrue hempty => exact .inl (handled_fetch hfails hempty block List.mem_cons_self)
      case isFalse => exact List.mem_append_right _ (by simp [hfails])
  | storing block transactions =>
    have hgrows : Grows w (w.publishPayload o (.newWithNotify [block] transactions)) :=
      grows_add _ _ _ _ _
    simp only [Daemon.consumerStep]
    split
    · exact hskip _ block hgrows
    case isFalse hfails =>
      exact hinv.grows hgrows (hinv.stage.grows hgrows)
        (handled_publishPayload (by simpa using hfails) hok block List.mem_cons_self)
  | settling block acks =>
    simp only [Daemon.consumerStep]
    have hgrows : Grows w { w with
        unacked := w.unacked.erase block
        ready := if acks then w.ready else block :: w.ready } := by
      refine .of (fun b hb => ?_) (fun b hb => ?_) (fun _ => id) (fun _ => id) (fun _ => id) rfl rfl
      · cases acks
        · exact .inl (List.mem_cons_of_mem _ hb)
        · exact .inl hb
      · by_cases heq : b = block
        · subst heq
          cases acks with
          | false => exact .inl List.mem_cons_self
          | true => exact .inr (.inr hok)
        · exact .inr (.inl ((List.mem_erase_of_ne heq).mpr hb))
    exact hinv.grows hgrows (hinv.stage.grows hgrows) trivial

/-- **Every event keeps what holds between events.** -/
theorem Inv.step {s s' : System T} {event : Event T} (hinv : Inv s)
    (h : step interval skipOnError s event = some s') : Steps s s' := by
  have hother : ∀ {w' : World T}, Grows s.world w' → Steps s { s with world := w' } :=
    fun hgrows => hinv.grows hgrows (hinv.stage.grows hgrows) (hinv.work.grows hgrows)
  cases event with
  | parser o =>
    obtain rfl := Option.some.inj h
    exact hinv.parserStep o
  | consumer o =>
    obtain rfl := Option.some.inj h
    exact hinv.consumerStep o
  | restart =>
    obtain rfl := Option.some.inj h
    exact hinv.grows (.refl _) trivial hinv.work
  | deliver =>
    simp only [Daemon.step] at h
    split at h
    · cases h
    case h_2 block ready hready =>
      cases h
      refine hother (.of (fun b hb => ?_) (fun b hb => .inr (.inl (List.mem_append_left _ hb)))
        (fun _ => id) (fun _ => id) (fun _ => id) rfl rfl)
      rcases List.mem_cons.mp (hready ▸ hb) with rfl | hb
      · exact .inr (.inl (by simp))
      · exact .inl hb
  | disconnect restarted =>
    cases h
    have hgrows : Grows s.world
        { s.world with ready := s.world.unacked ++ s.world.ready, unacked := [] } :=
      .of (fun b hb => .inl (List.mem_append_right _ hb))
        (fun b hb => .inl (List.mem_append_left _ hb)) (fun _ => id) (fun _ => id) (fun _ => id)
        rfl rfl
    refine hinv.grows hgrows (hinv.stage.grows hgrows) ?_
    cases restarted
    · exact hinv.work.grows hgrows
    · trivial
  | overflow =>
    simp only [Daemon.step] at h
    split at h
    · cases h
    case h_2 block ready hready =>
      cases h
      refine hother (.of (fun b hb => ?_) (fun b hb => .inr (.inl hb)) (fun _ => id) (fun _ => id)
        (List.subset_append_left _ _) rfl rfl)
      rcases List.mem_cons.mp (hready ▸ hb) with rfl | hb
      · exact .inr (.inr (.inr (by simp)))
      · exact .inl hb
  | configure row =>
    cases h
    exact hother (grows_row s.world rfl)

lemma inv_initial (row : ParserStateRow) (ready : List UInt64) : Inv (.initial row ready : System T) :=
  ⟨trivial, trivial, fun _ hlow hhigh => absurd hlow (Int64.not_lt.mpr hhigh)⟩

/-- **No block is forgotten**: under every interleaving of the parser, the consumer and the broker,
with any failures, lost connections and restarts, each block after the one the parser has begun with
and up to the one it has reached waits in the queue, is handled, or was given up: refused or thrown
away by the broker, or skipped by the consumer after an error.

**Proof sketch.** The parser writes that it has reached a block only after it has published each block
of its plan or handed them on, and nobody else writes it. What the consumer takes off the queue it
acknowledges after it has handed it on or skipped it. -/
theorem blocks_covered_of_run {row : ParserStateRow} {ready : List UInt64} {events : List (Event T)}
    {s : System T}
    (h : runEvents (step interval skipOnError) (.initial row ready) events = some s) :
    ∀ b, s.world.origin < b → b ≤ s.world.row.currentBlock → Covered s.world b.toUInt64 :=
  (runEvents_invariant (P := fun _ _ => True) (fun _ _ _ hinv _ hstep => (hinv.step hstep).inv)
    (inv_initial row ready) (.of_forall (fun _ _ => trivial) _ _) h).covered

/-- A parser at block 5 that queues what is more than two blocks behind. -/
def sampleRow : ParserStateRow where
  currentBlock := 5
  latestBlock := 5
  awaitBlocks := 1
  timeoutBetweenBlocks := 0
  parallelBlocks := 2
  isEnabled := true
  queueBehindBlocks := some 2

/-- A call that succeeds. -/
def sampleOutcome : Outcome ℕ where
  fails := false
  lands := false
  nacked := false
  shutdown := false
  number := 20
  transactions := [1]

/-- The parser queues blocks 6 and 7, and the consumer handles block 6. -/
def sampleEvents : List (Event ℕ) :=
  List.replicate 7 (.parser sampleOutcome) ++ .deliver ::
    List.replicate 4 (.consumer sampleOutcome)

/-- Where the system is then. -/
def sampleEnd : System ℕ :=
  (runEvents (step 0 true) (.initial sampleRow []) sampleEvents).getD (.initial sampleRow [])

theorem blocks_covered_of_run_sample :
    runEvents (step 0 true) (.initial sampleRow []) sampleEvents = some sampleEnd ∧
      sampleEnd.world.ready = [7] ∧ sampleEnd.world.unacked = [] ∧ Covered sampleEnd.world 6 :=
  ⟨rfl, rfl, rfl, blocks_covered_of_run (show runEvents (step 0 true) (.initial sampleRow [])
    sampleEvents = some sampleEnd from rfl) 6 (by decide) (by decide)⟩

/-- **A parser that has begun never goes back, and jumps over nothing**: as long as its current
block is not the largest `i64`, no event takes the block back, and the blocks it answers for are
those after the one it was started with. -/
theorem advances_of_run {row : ParserStateRow} {ready : List UInt64} {events : List (Event T)}
    (hbegun : 0 < row.currentBlock)
    (hroom : Along (step interval skipOnError)
      (fun s _ => s.world.row.currentBlock ≠ Int64.maxValue) (.initial row ready) events) :
    Along (step interval skipOnError)
        (fun s event => ∀ s', step interval skipOnError s event = some s' →
          s'.world.origin = row.currentBlock ∧
            s.world.row.currentBlock ≤ s'.world.row.currentBlock)
        (.initial row ready) events ∧
      ∀ s, runEvents (step interval skipOnError) (.initial row ready) events = some s →
        row.currentBlock ≤ s.world.row.currentBlock := by
  have halong := along_of_along
    (I := fun s : System T => Inv s ∧ s.world.origin = row.currentBlock ∧
      0 < s.world.row.currentBlock)
    (Q := fun s event => ∀ s', step interval skipOnError s event = some s' →
      s'.world.origin = row.currentBlock ∧ s.world.row.currentBlock ≤ s'.world.row.currentBlock)
    (fun s event s' hI hmax hstep => by
      have hsteps := hI.1.step hstep
      have hadvances := hsteps.advances hI.2.2 hmax
      exact ⟨hsteps.inv, hadvances.1.trans hI.2.1, Int64.lt_of_lt_of_le hI.2.2 hadvances.2⟩)
    (fun s event hI hmax s' hstep => by
      have hadvances := (hI.1.step hstep).advances hI.2.2 hmax
      exact ⟨hadvances.1.trans hI.2.1, hadvances.2⟩)
    ⟨inv_initial row ready, rfl, hbegun⟩ hroom
  refine ⟨halong, fun s hrun => ?_⟩
  exact runEvents_related (R := fun s s' => s.world.row.currentBlock ≤ s'.world.row.currentBlock)
    (fun s => Int64.le_refl _) (fun _ _ _ => Int64.le_trans)
    (along_of_along (I := fun _ => True) (fun _ _ _ _ _ _ => trivial)
      (fun s event _ h s' hstep => (h s' hstep).2) trivial halong) hrun

/-- The run comes to block 7 when the parser has queued its blocks. -/
theorem advances_of_run_sample :
    sampleEnd.world.row.currentBlock = 7 ∧ sampleRow.currentBlock ≤ sampleEnd.world.row.currentBlock := by
  have hroom : Along (step 0 true) (fun s _ => s.world.row.currentBlock ≠ Int64.maxValue)
      (.initial sampleRow []) sampleEvents := by decide
  exact ⟨rfl, (advances_of_run (by decide) hroom).2 _
    (show runEvents (step 0 true) (.initial sampleRow []) sampleEvents = some sampleEnd from rfl)⟩

end GemCore.Daemon

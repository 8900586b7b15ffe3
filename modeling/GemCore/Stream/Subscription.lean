import Mathlib.Data.Finset.Basic
import GemCore.Lib.Interleave
import GemCore.Primitives.WalletId
import GemCore.TransactionState.Rules

/-!
# Which prices are subscribed to

`gemstone/src/services/stream/subscription.rs`: the service tells the server which assets it wants
prices of, and remembers in a set what it has told, so as not to say it again.

The set is locked for each access and not across the awaits between them, so an operation may have
sent its message and not yet recorded it while others run. Each lock and each await is one event
here. A lost connection takes the server's subscriptions with it and is followed by `reset`.

## Main definitions

* `Stage` — where an operation stands: the lock or the await it is at.
* `step` — one event: an operation begins or goes on, or the connection is replaced.
* `Config.server` — the server's set, from the messages on this connection.
* `Exclusive` — no message is sent, and no connection replaced, while another operation has sent and
  not recorded, and none is sent between a reconnect and its reset.

## Main results

* `agreement_of_exclusive` — in a run of exclusive events, whenever no operation is under way the
  recorded set is the server's, and what it skips the server has.
-/

namespace GemCore.Stream

open Lib

/-- The messages of `StreamMessage` that change what is subscribed to. -/
inductive StreamMessage where
  | subscribePrices (assets : List AssetId)
  | addPrices (assets : List AssetId)

/-- The server's set after a message. -/
def StreamMessage.deliver (assets : Finset AssetId) : StreamMessage → Finset AssetId
  | .subscribePrices new => new.toFinset
  | .addPrices new => assets ∪ new.toFinset

/-- `new_asset_ids`: those that are not subscribed to, each once. -/
def newAssetIds (subscribed : Finset AssetId) : List AssetId → List AssetId
  | [] => []
  | asset :: assets =>
    if asset ∈ subscribed then
      newAssetIds subscribed assets
    else
      asset :: newAssetIds (insert asset subscribed) assets

/-- `unique`. -/
def unique (assets : List AssetId) : List AssetId := newAssetIds ∅ assets

/-- `observable_asset_ids`. -/
def observableAssetIds (enabled alerts defaults : List AssetId) : List AssetId :=
  let assetIds := unique (enabled ++ alerts)
  if assetIds.isEmpty then defaults else assetIds

/-- Where an operation stands. -/
inductive Stage where
  /-- `setup_assets` locks the state to set the wallet. -/
  | setWallet (walletId : WalletId)
  /-- `resubscribe` locks the state to copy it. -/
  | copyState
  /-- `resubscribe` awaits whether there is a connection. -/
  | resubscribeConnected (walletId : WalletId) (subscribed : Finset AssetId)
  /-- `resubscribe` awaits the price alerts. -/
  | alerts (walletId : WalletId) (subscribed : Finset AssetId)
  /-- `resubscribe` awaits the assets the wallet has enabled. -/
  | enabled (walletId : WalletId) (subscribed : Finset AssetId) (alertAssetIds : List AssetId)
  /-- `resubscribe` sends. -/
  | sendSubscribe (assetIds : List AssetId)
  /-- `resubscribe` locks the state to record what it has sent. -/
  | recordSubscribe (target : Finset AssetId)
  /-- `add_prices` locks the state to find what is new. -/
  | findNew (assetIds : List AssetId)
  /-- `add_prices` awaits whether there is a connection. -/
  | addConnected (newAssetIds : List AssetId)
  /-- `add_prices` sends. -/
  | sendAdd (newAssetIds : List AssetId)
  /-- `add_prices` locks the state to record what it has sent. -/
  | recordAdd (newAssetIds : List AssetId)
  /-- `reset` locks the state to clear it. -/
  | clear

/-- `SubscriptionState`, the messages sent on this connection, and the operations under way. -/
structure Config where
  walletId : Option WalletId
  subscribed : Finset AssetId
  sent : List StreamMessage
  operations : ℕ → Option Stage

/-- The server's set. -/
def Config.server (c : Config) : Finset AssetId := c.sent.foldl StreamMessage.deliver ∅

/-- The operations of the service, apart from `reset`. -/
inductive Operation where
  | setupAssets (walletId : WalletId)
  | resubscribe
  | addPrices (assetIds : List AssetId)

/-- The first lock of an operation. -/
def Operation.first : Operation → Stage
  | .setupAssets walletId => .setWallet walletId
  | .resubscribe => .copyState
  | .addPrices assetIds => .findNew assetIds

/-- What an operation is answered. -/
inductive Answer where
  /-- It has the lock. -/
  | locked
  /-- Whether there is a connection. -/
  | connected (isConnected : Bool)
  /-- The assets of the price alerts, or of the wallet. -/
  | assets (result : Except GemServiceError (List AssetId))
  /-- Whether the message was sent. -/
  | sent (result : Except GemServiceError Unit)

/-- What may happen: operation `n` begins; it goes on with an answer; the connection is replaced,
and `reset` is under way as operation `n`. -/
inductive Event where
  | begin (n : ℕ) (operation : Operation)
  | advance (n : ℕ) (answer : Answer)
  | reconnect (n : ℕ)

/-- The configuration with operation `n` at a stage, or over. -/
def Config.set (c : Config) (n : ℕ) (stage : Option Stage) : Config :=
  { c with operations := Function.update c.operations n stage }

/-- An operation goes on with an answer, if the answer is to what it awaits. -/
def Stage.advance (defaults : List AssetId) (c : Config) (n : ℕ) :
    Stage → Answer → Option Config
  | .setWallet walletId, .locked =>
    some (({ c with walletId := some walletId } : Config).set n (some .copyState))
  | .copyState, .locked =>
    match c.walletId with
    | some walletId => some (c.set n (some (.resubscribeConnected walletId c.subscribed)))
    | none => some (c.set n none)
  | .resubscribeConnected walletId subscribed, .connected isConnected =>
    some (c.set n (if isConnected then some (.alerts walletId subscribed) else none))
  | .alerts walletId subscribed, .assets result =>
    match result with
    | .ok alertAssetIds => some (c.set n (some (.enabled walletId subscribed alertAssetIds)))
    | .error _ => some (c.set n none)
  | .enabled _ subscribed alertAssetIds, .assets result =>
    match result with
    | .ok enabledAssetIds =>
      let assetIds := observableAssetIds enabledAssetIds alertAssetIds defaults
      some (c.set n (if subscribed = assetIds.toFinset then none else
        some (.sendSubscribe assetIds)))
    | .error _ => some (c.set n none)
  | .sendSubscribe assetIds, .sent result =>
    match result with
    | .ok () => some (({ c with sent := c.sent ++ [.subscribePrices assetIds] } : Config).set n
        (some (.recordSubscribe assetIds.toFinset)))
    | .error _ => some (c.set n none)
  | .recordSubscribe target, .locked =>
    some (({ c with subscribed := target } : Config).set n none)
  | .findNew assetIds, .locked =>
    let new := newAssetIds c.subscribed assetIds
    some (c.set n (if new.isEmpty then none else some (.addConnected new)))
  | .addConnected new, .connected isConnected =>
    some (c.set n (if isConnected then some (.sendAdd new) else none))
  | .sendAdd new, .sent result =>
    match result with
    | .ok () => some (({ c with sent := c.sent ++ [.addPrices new] } : Config).set n
        (some (.recordAdd new)))
    | .error _ => some (c.set n none)
  | .recordAdd new, .locked =>
    some (({ c with subscribed := c.subscribed ∪ new.toFinset } : Config).set n none)
  | .clear, .locked => some (({ c with subscribed := ∅ } : Config).set n none)
  | _, _ => none

/-- One event. -/
def step (defaults : List AssetId) (c : Config) : Event → Option Config
  | .begin n operation =>
    if (c.operations n).isSome then none else some (c.set n (some operation.first))
  | .advance n answer => (c.operations n).bind fun stage => stage.advance defaults c n answer
  | .reconnect n =>
    if (c.operations n).isSome then none else
      some (({ c with sent := [] } : Config).set n (some .clear))

/-- Nothing is subscribed to, and nothing has been sent. -/
def Config.initial : Config := ⟨none, ∅, [], fun _ => none⟩

/-! ## Agreement -/

/-- No operation is under way. -/
def Config.Idle (c : Config) : Prop := ∀ n, c.operations n = none

/-- The recorded set is the server's; an asset that the server does not have is new to
`add_prices`, and `resubscribe` finds its target reached only if the server has it. -/
structure Config.Agrees (c : Config) : Prop where
  subscribed : c.subscribed = c.server
  added : ∀ assetIds, ∀ asset ∈ assetIds, asset ∉ c.server →
    asset ∈ newAssetIds c.subscribed assetIds
  reached : ∀ target, c.subscribed = target → c.server = target

/-- An operation has sent a message and not recorded it yet. -/
def Stage.isRecord : Stage → Bool
  | .recordSubscribe _ | .recordAdd _ => true
  | _ => false

/-- An operation is at its message. -/
def Stage.isSend : Stage → Bool
  | .sendSubscribe _ | .sendAdd _ => true
  | _ => false

/-- The condition on an event: no message is sent, and no connection replaced, while another
operation has sent and not recorded, and none is sent between a reconnect and its reset. -/
def Exclusive (c : Config) : Event → Prop
  | .begin _ _ => True
  | .advance n (.sent (.ok ())) => ∀ stage, c.operations n = some stage → stage.isSend = true →
      ∀ m other, c.operations m = some other → other.isRecord = false ∧ other ≠ .clear
  | .advance _ _ => True
  | .reconnect _ => ∀ m other, c.operations m = some other → other.isRecord = false

/-! ## The invariant -/

/-- The operation has nothing to record and nothing to clear. -/
def Stage.IsPlain (stage : Stage) : Prop := stage.isRecord = false ∧ stage ≠ .clear

/-- At most one operation has sent and not recorded, and not while a reset is due; what it will
record is then the server's set. The server's set is empty while a reset is due, and is the
recorded one if neither is the case. -/
structure Config.Inv (c : Config) : Prop where
  unique : ∀ n m stage stage', c.operations n = some stage → c.operations m = some stage' →
    stage.isRecord = true → stage'.isRecord = true → n = m
  noClear : ∀ n m stage, c.operations n = some stage → stage.isRecord = true →
    c.operations m ≠ some .clear
  subscribe : ∀ n target, c.operations n = some (.recordSubscribe target) → c.server = target
  add : ∀ n new, c.operations n = some (.recordAdd new) →
    c.server = c.subscribed ∪ new.toFinset
  cleared : ∀ n, c.operations n = some .clear → c.server = ∅
  agrees : (∀ n stage, c.operations n = some stage → stage.IsPlain) → c.subscribed = c.server

lemma Config.set_operations_eq_some {c : Config} {n m : ℕ} {stage : Option Stage}
    {stage' : Stage} : (c.set n stage).operations m = some stage' ↔
      (m = n ∧ stage = some stage') ∨ (m ≠ n ∧ c.operations m = some stage') := by
  by_cases hm : m = n
  · subst hm
    simp [Config.set]
  · simp [Config.set, hm]

namespace Config.Inv

variable {c : Config} {n : ℕ}

/-- If no operation has anything to record or to clear, agreement is all there is to keep. -/
theorem of_plain (hplain : ∀ m stage, c.operations m = some stage → stage.IsPlain)
    (h : c.subscribed = c.server) : c.Inv where
  unique m _ stage _ hm _ hrecord _ := by
    rw [(hplain m stage hm).1] at hrecord
    cases hrecord
  noClear m _ stage hm hrecord := by
    rw [(hplain m stage hm).1] at hrecord
    cases hrecord
  subscribe m target hm := by
    have := (hplain m _ hm).1
    cases this
  add m new hm := by
    have := (hplain m _ hm).1
    cases this
  cleared m hm := absurd rfl (hplain m _ hm).2
  agrees _ := h

lemma initial : Config.initial.Inv := of_plain (fun _ _ h => by cases h) rfl

/-- An operation with nothing to record or to clear goes on to another such stage, or is over. -/
theorem plain_step {c' : Config} (h : c.Inv) {stage' : Option Stage}
    (hbefore : ∀ stage, c.operations n = some stage → stage.IsPlain)
    (hafter : ∀ stage, stage' = some stage → stage.IsPlain)
    (hsubscribed : c'.subscribed = c.subscribed) (hsent : c'.sent = c.sent)
    (hoperations : c'.operations = (c.set n stage').operations) : c'.Inv := by
  have hserver : c'.server = c.server := by rw [Config.server, hsent, Config.server]
  -- what is to be recorded or cleared afterwards was so before
  have hold : ∀ m stage, c'.operations m = some stage → ¬ stage.IsPlain →
      c.operations m = some stage := by
    intro m stage hm hnot
    rw [hoperations] at hm
    obtain ⟨-, hsome⟩ | ⟨-, hm⟩ := set_operations_eq_some.mp hm
    · exact absurd (hafter stage hsome) hnot
    · exact hm
  have hrecord : ∀ stage : Stage, stage.isRecord = true → ¬ stage.IsPlain := by
    intro stage hs hp
    rw [hp.1] at hs
    cases hs
  have hclear : ¬ Stage.clear.IsPlain := fun hp => hp.2 rfl
  constructor
  · intro m m' stage₁ stage₂ h₁ h₂ hs₁ hs₂
    exact h.unique m m' stage₁ stage₂ (hold m _ h₁ (hrecord _ hs₁)) (hold m' _ h₂ (hrecord _ hs₂))
      hs₁ hs₂
  · intro m m' stage hm hs hm'
    exact h.noClear m m' stage (hold m _ hm (hrecord _ hs)) hs (hold m' _ hm' hclear)
  · intro m target hm
    rw [hserver]
    exact h.subscribe m target (hold m _ hm (hrecord _ rfl))
  · intro m new hm
    rw [hserver, hsubscribed]
    exact h.add m new (hold m _ hm (hrecord _ rfl))
  · intro m hm
    rw [hserver]
    exact h.cleared m (hold m _ hm hclear)
  · intro hplain
    rw [hsubscribed, hserver]
    apply h.agrees
    intro m stage hm
    by_cases hmn : m = n
    · subst hmn
      exact hbefore stage hm
    · refine hplain m stage ?_
      rw [hoperations]
      exact set_operations_eq_some.mpr (.inr ⟨hmn, hm⟩)

/-- Every other operation has nothing to record or to clear. -/
def OthersPlain (c : Config) (n : ℕ) : Prop :=
  ∀ m stage, m ≠ n → c.operations m = some stage → stage.IsPlain

/-- An operation has sent its message, and no other has anything to record or to clear. -/
theorem of_sent {c' : Config} {stage' : Stage} (hothers : OthersPlain c n)
    (hoperations : c'.operations = (c.set n (some stage')).operations)
    (hrecord : stage'.isRecord = true)
    (hsubscribe : ∀ target, stage' = .recordSubscribe target → c'.server = target)
    (hadd : ∀ new, stage' = .recordAdd new → c'.server = c'.subscribed ∪ new.toFinset) :
    c'.Inv := by
  have hcases : ∀ m stage, c'.operations m = some stage →
      m = n ∧ stage = stage' ∨ stage.IsPlain := by
    intro m stage hm
    rw [hoperations] at hm
    obtain ⟨hmn, hsome⟩ | ⟨hmn, hm⟩ := set_operations_eq_some.mp hm
    · exact .inl ⟨hmn, (Option.some.inj hsome).symm⟩
    · exact .inr (hothers m stage hmn hm)
  have hat : ∀ m stage, c'.operations m = some stage → stage.isRecord = true →
      m = n ∧ stage = stage' := by
    intro m stage hm hs
    obtain heq | hplain := hcases m stage hm
    · exact heq
    · rw [hplain.1] at hs
      cases hs
  have hno : ∀ m, c'.operations m ≠ some .clear := by
    intro m hm
    obtain ⟨-, rfl⟩ | hplain := hcases m _ hm
    · cases hrecord
    · exact hplain.2 rfl
  constructor
  · intro m m' stage₁ stage₂ h₁ h₂ hs₁ hs₂
    rw [(hat m stage₁ h₁ hs₁).1, (hat m' stage₂ h₂ hs₂).1]
  · intro m m' stage hm hs
    exact hno m'
  · intro m target hm
    exact hsubscribe target (hat m _ hm rfl).2.symm
  · intro m new hm
    exact hadd new (hat m _ hm rfl).2.symm
  · intro m hm
    exact absurd hm (hno m)
  · intro hplain
    have := hplain n stage' (by rw [hoperations]; exact set_operations_eq_some.mpr (.inl ⟨rfl, rfl⟩))
    rw [this.1] at hrecord
    cases hrecord

/-- The server has nothing, no operation has sent and not recorded, and the recorded set is empty
unless a reset is due. -/
theorem of_empty (hrecord : ∀ m stage, c.operations m = some stage → stage.isRecord = false)
    (hserver : c.server = ∅)
    (hsubscribed : c.subscribed = ∅ ∨ ∃ m, c.operations m = some .clear) : c.Inv where
  unique m _ stage _ hm _ hs _ := by
    rw [hrecord m stage hm] at hs
    cases hs
  noClear m _ stage hm hs := by
    rw [hrecord m stage hm] at hs
    cases hs
  subscribe m target hm := by
    have := hrecord m _ hm
    cases this
  add m new hm := by
    have := hrecord m _ hm
    cases this
  cleared _ _ := hserver
  agrees hplain := by
    obtain hempty | ⟨m, hm⟩ := hsubscribed
    · rw [hempty, hserver]
    · exact absurd rfl (hplain m _ hm).2

/-- While one operation has sent and not recorded, no other has anything to record or clear. -/
theorem othersPlain (h : c.Inv) {stage : Stage} (hn : c.operations n = some stage)
    (hrecord : stage.isRecord = true) : OthersPlain c n := by
  intro m other hmn hm
  constructor
  · by_contra hother
    exact hmn (h.unique m n other stage hm hn (by simpa using hother) hrecord)
  · rintro rfl
    exact h.noClear n m stage hn hrecord hm

/-- A message is added to what the server has. -/
lemma server_append (c : Config) (message : StreamMessage) :
    ({ c with sent := c.sent ++ [message] } : Config).server = message.deliver c.server := by
  simp [Config.server]

/-- An operation that sends nothing, and has nothing to record or to clear, goes on to such a stage,
or is over. -/
lemma advance_plain {defaults : List AssetId} {c' : Config} {stage : Stage} {answer : Answer}
    (h : c.Inv) (hn : c.operations n = some stage) (hplain : stage.IsPlain)
    (hquiet : stage.isSend = true → answer ≠ .sent (.ok ()))
    (hstep : stage.advance defaults c n answer = some c') : c'.Inv := by
  obtain ⟨next, hnext, hsubscribed, hsent, hoperations⟩ : ∃ next : Option Stage,
      (∀ s, next = some s → s.IsPlain) ∧ c'.subscribed = c.subscribed ∧ c'.sent = c.sent ∧
        c'.operations = (c.set n next).operations := by
    have hone : ∀ s : Stage, s.IsPlain → ∀ s', some s = some s' → s'.IsPlain := by
      rintro s hs _ ⟨⟩
      exact hs
    unfold Stage.advance at hstep
    split at hstep
    all_goals try split at hstep
    all_goals cases hstep
    all_goals first
      | refine ⟨_, ?_, rfl, rfl, rfl⟩
      | exact absurd rfl (hquiet rfl)
      | exact absurd rfl hplain.2
      | cases hplain.1
    all_goals try split
    all_goals first
      | exact hone _ ⟨rfl, by simp⟩
      | simp
  refine h.plain_step (fun s hs => ?_) hnext hsubscribed hsent hoperations
  rw [hn] at hs
  cases hs
  exact hplain

/-- After its message, what an operation has to record is what the server has. -/
lemma advance_sent {defaults : List AssetId} {c' : Config} {stage : Stage}
    (h : c.Inv) (hn : c.operations n = some stage) (hsend : stage.isSend = true)
    (hexclusive : Exclusive c (.advance n (.sent (.ok ()))))
    (hstep : stage.advance defaults c n (.sent (.ok ())) = some c') : c'.Inv := by
  have hall : ∀ m s, c.operations m = some s → s.IsPlain := hexclusive _ hn hsend
  cases stage with
  | sendSubscribe assetIds =>
    cases hstep
    refine of_sent (fun m s _ hm => hall m s hm) rfl rfl ?_ (by simp)
    rintro target ⟨⟩
    exact server_append c (.subscribePrices assetIds)
  | sendAdd new =>
    cases hstep
    refine of_sent (fun m s _ hm => hall m s hm) rfl rfl (by simp) ?_
    rintro new' ⟨⟩
    -- up to now the recorded set was the server's
    change ({ c with sent := c.sent ++ [.addPrices new] } : Config).server = c.subscribed ∪ _
    rw [server_append, h.agrees hall]
    rfl
  | _ => cases hsend

/-- What is recorded is what the server has. -/
lemma advance_record {defaults : List AssetId} {c' : Config} {stage : Stage} {answer : Answer}
    (h : c.Inv) (hn : c.operations n = some stage) (hrecord : stage.isRecord = true)
    (hstep : stage.advance defaults c n answer = some c') : c'.Inv := by
  have hothers : ∀ m s, (c.set n none).operations m = some s → s.IsPlain := by
    intro m s hm
    obtain ⟨-, hnone⟩ | ⟨hmn, hm⟩ := set_operations_eq_some.mp hm
    · cases hnone
    · exact h.othersPlain hn hrecord m s hmn hm
  cases stage with
  | recordSubscribe target =>
    cases answer <;> cases hstep
    exact of_plain hothers (h.subscribe n target hn).symm
  | recordAdd new =>
    cases answer <;> cases hstep
    exact of_plain hothers (h.add n new hn).symm
  | _ => cases hrecord

/-- A reset clears the recorded set. -/
lemma advance_clear {defaults : List AssetId} {c' : Config} {answer : Answer}
    (h : c.Inv) (hn : c.operations n = some .clear)
    (hstep : Stage.clear.advance defaults c n answer = some c') : c'.Inv := by
  cases answer <;> cases hstep
  refine of_empty ?_ (h.cleared n hn) (.inl rfl)
  intro m s hm
  obtain ⟨-, hnone⟩ | ⟨-, hm⟩ := set_operations_eq_some.mp hm
  · cases hnone
  · by_contra hrecord
    exact h.noClear m n s hm (by simpa using hrecord) hn

/-- An operation that goes on keeps the invariant. -/
lemma advance {defaults : List AssetId} {c' : Config} {stage : Stage} {answer : Answer}
    (h : c.Inv) (hn : c.operations n = some stage) (hexclusive : Exclusive c (.advance n answer))
    (hstep : stage.advance defaults c n answer = some c') : c'.Inv := by
  by_cases hclear : stage = .clear
  · exact h.advance_clear (hclear ▸ hn) (hclear ▸ hstep)
  by_cases hrecord : stage.isRecord = true
  · exact h.advance_record hn hrecord hstep
  by_cases hsent : stage.isSend = true ∧ answer = .sent (.ok ())
  · obtain ⟨hsend, rfl⟩ := hsent
    exact h.advance_sent hn hsend hexclusive hstep
  · exact h.advance_plain hn ⟨by simpa using hrecord, hclear⟩ (not_and.mp hsent) hstep

/-- Every exclusive event keeps the invariant. -/
lemma step {defaults : List AssetId} {c' : Config} {e : Event} (h : c.Inv)
    (hexclusive : Exclusive c e) (hstep : step defaults c e = some c') : c'.Inv := by
  cases e with
  | begin m operation =>
    simp only [Stream.step] at hstep
    split at hstep
    · cases hstep
    · rename_i hfree
      cases hstep
      refine h.plain_step (n := m) (fun s hs => ?_) ?_ rfl rfl rfl
      · rw [hs] at hfree
        exact absurd rfl hfree
      · rintro s ⟨⟩
        cases operation <;> exact ⟨rfl, by simp [Operation.first]⟩
  | advance m answer =>
    obtain ⟨stage, hm, hadvance⟩ := Option.bind_eq_some_iff.mp hstep
    exact h.advance hm hexclusive hadvance
  | reconnect m =>
    simp only [Stream.step] at hstep
    split at hstep
    · cases hstep
    · cases hstep
      refine of_empty ?_ rfl (.inr ⟨m, set_operations_eq_some.mpr (.inl ⟨rfl, rfl⟩)⟩)
      intro m' s hm'
      obtain ⟨-, hclear⟩ | ⟨-, hm'⟩ := set_operations_eq_some.mp hm'
      · cases hclear
        rfl
      · exact hexclusive m' s hm'

end Config.Inv

/-- What is not subscribed to is new. -/
lemma mem_newAssetIds {subscribed : Finset AssetId} {assetIds : List AssetId} {asset : AssetId}
    (hmem : asset ∈ assetIds) (hnot : asset ∉ subscribed) :
    asset ∈ newAssetIds subscribed assetIds := by
  induction assetIds generalizing subscribed with
  | nil => cases hmem
  | cons first rest ih =>
    rw [newAssetIds]
    obtain rfl | hmem := List.mem_cons.mp hmem
    · simp [hnot]
    · split
      · exact ih hmem hnot
      · by_cases heq : asset = first
        · simp [heq]
        · exact List.mem_cons_of_mem _ (ih hmem (by simp [heq, hnot]))

/-- In a run of exclusive events, whenever no operation is under way the recorded set is the
server's, so that neither `add_prices` nor `resubscribe` leaves out an asset that the server does
not have.

**Proof sketch.** Between its message and its record an operation is the only one that changes
either set (`Config.Inv`): for `resubscribe` the server's set is then what will be recorded, for
`add_prices` it is the recorded set with what will be added. Between a reconnect and its reset
the server's set stays empty. -/
theorem agreement_of_exclusive (defaults : List AssetId) (es : List Event)
    (h : Along (step defaults) Exclusive .initial es) (c : Config)
    (hrun : runEvents (step defaults) .initial es = some c) (hidle : c.Idle) : c.Agrees := by
  have hinv : c.Inv :=
    runEvents_invariant (fun _ _ _ hI he hs => Config.Inv.step hI he hs) .initial h hrun
  have hsubscribed : c.subscribed = c.server := by
    apply hinv.agrees
    intro n stage hn
    rw [hidle n] at hn
    cases hn
  refine ⟨hsubscribed, fun assetIds asset hmem hnot => ?_, fun target htarget => ?_⟩
  · exact mem_newAssetIds hmem (hsubscribed ▸ hnot)
  · rw [← hsubscribed, htarget]

/-- The native asset of a chain. -/
def exampleAsset : AssetId := ⟨.bitcoin, none⟩

/-- The wallet is set up, and its one asset is subscribed to: up to the message. -/
def exampleSubscribing : List Event :=
  [.begin 0 (.setupAssets (.multicoin "0x1")), .advance 0 .locked, .advance 0 .locked,
    .advance 0 (.connected true), .advance 0 (.assets (.ok [])),
    .advance 0 (.assets (.ok [exampleAsset])), .advance 0 (.sent (.ok ()))]

/-- The wallet is set up while prices are added: the connection is replaced when the first has
recorded, and before the other finds what is new. -/
def exampleInterleaved : List Event :=
  .begin 1 (.addPrices [exampleAsset]) :: exampleSubscribing ++
    [.advance 0 .locked, .reconnect 2, .advance 2 .locked, .advance 1 .locked,
      .advance 1 (.connected true), .advance 1 (.sent (.ok ())), .advance 1 .locked]

/-- Two operations and a reconnect. -/
theorem agreement_of_exclusive_example : ∃ c,
    runEvents (step []) .initial exampleInterleaved = some c ∧ c.Agrees := by
  refine ⟨_, rfl, agreement_of_exclusive [] exampleInterleaved ?_ _ rfl ?_⟩
  · refine .cons trivial rfl (.cons trivial rfl (.cons trivial rfl (.cons trivial rfl
      (.cons trivial rfl (.cons trivial rfl (.cons trivial rfl (.cons ?_ rfl (.cons trivial rfl
      (.cons ?_ rfl (.cons trivial rfl (.cons trivial rfl (.cons trivial rfl (.cons ?_ rfl
      (.cons trivial rfl trivial))))))))))))))
    · rintro stage - - (_ | _ | m) other hm <;> cases hm <;> exact ⟨rfl, by simp [Operation.first]⟩
    · rintro (_ | _ | m) other hm <;> cases hm
      rfl
    · rintro stage - - (_ | _ | _ | m) other hm <;> cases hm
      exact ⟨rfl, by simp⟩
  · rintro (_ | _ | _ | n) <;> rfl

/-- The connection is replaced, and the set cleared, after the message and before its record: what
was sent on the old connection counts as subscribed to on the new one. -/
theorem not_agreement_example : ∃ c,
    runEvents (step []) .initial (exampleSubscribing ++
      [.reconnect 1, .advance 1 .locked, .advance 0 .locked]) = some c ∧
      c.Idle ∧ ¬ c.Agrees := by
  refine ⟨_, rfl, fun n => ?_, fun h => ?_⟩
  · by_cases h₀ : n = 0
    · subst h₀
      rfl
    · by_cases h₁ : n = 1
      · subst h₁
        rfl
      · simp [Config.set, Config.initial, h₀, h₁]
  · exact absurd h.subscribed (by decide)

end GemCore.Stream

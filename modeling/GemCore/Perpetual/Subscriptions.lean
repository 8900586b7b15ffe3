import Mathlib.Data.Finset.Basic
import Mathlib.Data.Finset.Lattice.Lemmas

/-!
# Subscriptions of the perpetuals socket

`WebSocketSubscriptions` of `gem_hypercore/src/provider/websocket_subscriptions.rs`: which requests are
sent when something is subscribed or unsubscribed and when the socket connects. The subscriptions of
the account come with each connection; those that were requested are kept over reconnections.

## Main definitions

* `WebSocketSubscriptions` — the subscriptions, with their four operations.
* `World` — the subscriptions beside the set that the server has.
* `requestedBy`, `accountsKept` — what a history of calls asks for.
* `Agrees` — client and server agree after a history of calls.

## Main results

* `agreesOn_accountsKept` — they agree after every history.
-/

namespace GemCore.Perpetual

/-! ## Requests -/

/-- `HyperliquidSubscription`. -/
inductive HyperliquidSubscription where
  | accountState (address : String)
  | spotState (address : String)
  | openOrders (address : String)
  | candle (symbol interval : String)
  | marketData (symbol : String)
  | marketPrices
  deriving DecidableEq

/-- `HyperliquidMethod`. -/
inductive HyperliquidMethod where
  | subscribe
  | unsubscribe

/-- `HyperliquidRequest`. -/
structure HyperliquidRequest where
  method : HyperliquidMethod
  subscription : HyperliquidSubscription

/-- In which order a `HashSet` is gone through: any order of its elements. -/
structure SetOrder where
  iterate : Finset HyperliquidSubscription → List HyperliquidSubscription
  mem_iterate : ∀ s a, a ∈ iterate s ↔ a ∈ s

/-! ## The client -/

/-- `WebSocketSubscriptions`. -/
structure WebSocketSubscriptions where
  requested : Finset HyperliquidSubscription
  subscribed : Option (Finset HyperliquidSubscription)

/-- The filter of `connected`: each subscription that is not there yet is put in and asked for. -/
def subscribeAll : Finset HyperliquidSubscription → List HyperliquidSubscription →
    Finset HyperliquidSubscription × List HyperliquidRequest
  | subscribed, [] => (subscribed, [])
  | subscribed, subscription :: rest =>
    if subscription ∈ subscribed then subscribeAll subscribed rest
    else
      let all := subscribeAll (insert subscription subscribed) rest
      (all.1, ⟨.subscribe, subscription⟩ :: all.2)

namespace WebSocketSubscriptions

/-- `WebSocketSubscriptions::new`. -/
def new : WebSocketSubscriptions := ⟨∅, none⟩

/-- `WebSocketSubscriptions::subscribe`. -/
def subscribe (self : WebSocketSubscriptions) (subscription : HyperliquidSubscription) :
    WebSocketSubscriptions × List HyperliquidRequest :=
  let requested := insert subscription self.requested
  match self.subscribed with
  | none => (⟨requested, none⟩, [])
  | some subscribed =>
    if subscription ∈ subscribed then (⟨requested, some subscribed⟩, [])
    else (⟨requested, some (insert subscription subscribed)⟩, [⟨.subscribe, subscription⟩])

/-- `WebSocketSubscriptions::unsubscribe`. -/
def unsubscribe (self : WebSocketSubscriptions) (subscription : HyperliquidSubscription) :
    WebSocketSubscriptions × List HyperliquidRequest :=
  let requested := self.requested.erase subscription
  match self.subscribed with
  | none => (⟨requested, none⟩, [])
  | some subscribed =>
    if subscription ∈ subscribed then
      (⟨requested, some (subscribed.erase subscription)⟩, [⟨.unsubscribe, subscription⟩])
    else (⟨requested, some subscribed⟩, [])

/-- `WebSocketSubscriptions::connected`. -/
def connected (order : SetOrder) (self : WebSocketSubscriptions)
    (accountSubscriptions : List HyperliquidSubscription) :
    WebSocketSubscriptions × List HyperliquidRequest :=
  let all := subscribeAll ∅ (accountSubscriptions ++ order.iterate self.requested)
  (⟨self.requested, some all.1⟩, all.2)

/-- `WebSocketSubscriptions::disconnected`. -/
def disconnected (self : WebSocketSubscriptions) : WebSocketSubscriptions := ⟨self.requested, none⟩

end WebSocketSubscriptions

/-- A call. -/
inductive Call where
  | subscribe (subscription : HyperliquidSubscription)
  | unsubscribe (subscription : HyperliquidSubscription)
  | connected (accountSubscriptions : List HyperliquidSubscription)
  | disconnected

/-- What a call does and returns. -/
def WebSocketSubscriptions.call (order : SetOrder) (self : WebSocketSubscriptions) :
    Call → WebSocketSubscriptions × List HyperliquidRequest
  | .subscribe subscription => self.subscribe subscription
  | .unsubscribe subscription => self.unsubscribe subscription
  | .connected accountSubscriptions => self.connected order accountSubscriptions
  | .disconnected => (self.disconnected, [])

/-! ## The server -/

/-- What a request does to the set that the server has. -/
def receive (server : Finset HyperliquidSubscription) (request : HyperliquidRequest) :
    Finset HyperliquidSubscription :=
  match request.method with
  | .subscribe => insert request.subscription server
  | .unsubscribe => server.erase request.subscription

/-- **Requests that fit**, one after the other: none subscribes to what the server has, and none
unsubscribes from what it does not have. -/
def Proper : Finset HyperliquidSubscription → List HyperliquidRequest → Prop
  | _, [] => True
  | server, request :: rest =>
    (request.method = .subscribe → request.subscription ∉ server) ∧
      (request.method = .unsubscribe → request.subscription ∈ server) ∧
        Proper (receive server request) rest

/-- The client beside the set that the server has for its connection. -/
structure World where
  client : WebSocketSubscriptions
  server : Finset HyperliquidSubscription

/-- The set the server starts a call with: a connection starts without subscriptions. -/
def World.start (w : World) : Call → Finset HyperliquidSubscription
  | .connected _ => ∅
  | _ => w.server

/-- A call, after which the server has received the requests. -/
def World.step (order : SetOrder) (w : World) (call : Call) : World :=
  let result := w.client.call order call
  ⟨result.1, result.2.foldl receive (w.start call)⟩

/-- A history of calls. -/
def World.run (order : SetOrder) (calls : List Call) : World :=
  calls.foldl (World.step order) ⟨.new, ∅⟩

/-! ## What a history asks for -/

/-- Whether the last of `connected` and `disconnected` was `connected`. -/
def isConnected (calls : List Call) : Bool :=
  calls.foldl (fun connected call =>
    match call with
    | .connected _ => true
    | .disconnected => false
    | .subscribe _ | .unsubscribe _ => connected) false

/-- **What was requested and not yet unsubscribed**. -/
def requestedBy (calls : List Call) : Finset HyperliquidSubscription :=
  calls.foldl (fun requested call =>
    match call with
    | .subscribe subscription => insert subscription requested
    | .unsubscribe subscription => requested.erase subscription
    | .connected _ | .disconnected => requested) ∅

/-- The account subscriptions of the last connection. -/
def accountsOf (calls : List Call) : Finset HyperliquidSubscription :=
  calls.foldl (fun accounts call =>
    match call with
    | .connected accountSubscriptions => accountSubscriptions.toFinset
    | .subscribe _ | .unsubscribe _ | .disconnected => accounts) ∅

/-- **The account subscriptions of the last connection** that were not unsubscribed since. -/
def accountsKept (calls : List Call) : Finset HyperliquidSubscription :=
  calls.foldl (fun accounts call =>
    match call with
    | .connected accountSubscriptions => accountSubscriptions.toFinset
    | .unsubscribe subscription => accounts.erase subscription
    | .subscribe _ | .disconnected => accounts) ∅

/-- **Client and server agree** after these calls: while connected the server has what the account and
the history ask for; every request fits what the server has; and nothing is sent while disconnected. -/
structure AgreesOn (accounts : List Call → Finset HyperliquidSubscription) (order : SetOrder)
    (calls : List Call) : Prop where
  server : isConnected calls = true → (World.run order calls).server = accounts calls ∪ requestedBy calls
  proper : ∀ before call after, calls = before ++ call :: after →
    Proper ((World.run order before).start call) ((World.run order before).client.call order call).2
  silent : ∀ before call after, calls = before ++ call :: after →
    isConnected (before ++ [call]) = false → ((World.run order before).client.call order call).2 = []

/-! ## One call -/

/-- The requests of a connection fit, and the server has what they ask for. -/
lemma subscribeAll_spec (subscribed : Finset HyperliquidSubscription)
    (subscriptions : List HyperliquidSubscription) :
    (subscribeAll subscribed subscriptions).1 = subscribed ∪ subscriptions.toFinset ∧
      Proper subscribed (subscribeAll subscribed subscriptions).2 ∧
        (subscribeAll subscribed subscriptions).2.foldl receive subscribed =
          (subscribeAll subscribed subscriptions).1 := by
  induction subscriptions generalizing subscribed with
  | nil => exact ⟨(Finset.union_empty subscribed).symm, trivial, rfl⟩
  | cons subscription rest ih =>
    rw [List.toFinset_cons]
    by_cases hmem : subscription ∈ subscribed
    · rw [subscribeAll, if_pos hmem]
      obtain ⟨hset, hproper, hfold⟩ := ih subscribed
      refine ⟨?_, hproper, hfold⟩
      rw [hset, Finset.union_insert, Finset.insert_eq_of_mem (Finset.mem_union_left _ hmem)]
    · rw [subscribeAll, if_neg hmem]
      obtain ⟨hset, hproper, hfold⟩ := ih (insert subscription subscribed)
      refine ⟨?_, ⟨fun _ => hmem, ?_, hproper⟩, hfold⟩
      · rw [hset, Finset.insert_union, Finset.union_insert]
      · intro hmethod
        cases hmethod

/-- **The invariant**: the client knows what was requested, and while it is connected what the server
has. -/
structure Inv (calls : List Call) (w : World) : Prop where
  requested : w.client.requested = requestedBy calls
  connected : w.client.subscribed = if isConnected calls then some w.server else none
  server : isConnected calls = true → w.server = accountsKept calls ∪ requestedBy calls

lemma Inv.client_some {calls : List Call} {w : World} (h : Inv calls w)
    (hconnected : isConnected calls = true) : w.client = ⟨requestedBy calls, some w.server⟩ := by
  obtain ⟨⟨requested, subscribed⟩, server⟩ := w
  obtain rfl : requested = requestedBy calls := h.requested
  obtain rfl : subscribed = some server := h.connected.trans (if_pos hconnected)
  rfl

lemma Inv.client_none {calls : List Call} {w : World} (h : Inv calls w)
    (hconnected : isConnected calls = false) : w.client = ⟨requestedBy calls, none⟩ := by
  obtain ⟨⟨requested, subscribed⟩, server⟩ := w
  obtain rfl : requested = requestedBy calls := h.requested
  obtain rfl : subscribed = none := h.connected.trans (if_neg (by rw [hconnected]; decide))
  rfl

lemma isConnected_concat (calls : List Call) (call : Call) :
    isConnected (calls ++ [call]) =
      match call with
      | .connected _ => true
      | .disconnected => false
      | .subscribe _ | .unsubscribe _ => isConnected calls := by
  rw [isConnected, List.foldl_append]
  rfl

lemma requestedBy_concat (calls : List Call) (call : Call) :
    requestedBy (calls ++ [call]) =
      match call with
      | .subscribe subscription => insert subscription (requestedBy calls)
      | .unsubscribe subscription => (requestedBy calls).erase subscription
      | .connected _ | .disconnected => requestedBy calls := by
  rw [requestedBy, List.foldl_append]
  rfl

lemma accountsKept_concat (calls : List Call) (call : Call) :
    accountsKept (calls ++ [call]) =
      match call with
      | .connected accountSubscriptions => accountSubscriptions.toFinset
      | .unsubscribe subscription => (accountsKept calls).erase subscription
      | .subscribe _ | .disconnected => accountsKept calls := by
  rw [accountsKept, List.foldl_append]
  rfl

/-- A call keeps the invariant, its requests fit, and it makes none while disconnected. -/
structure Keeps (order : SetOrder) (calls : List Call) (w : World) (call : Call) : Prop where
  inv : Inv (calls ++ [call]) (w.step order call)
  proper : Proper (w.start call) (w.client.call order call).2
  silent : isConnected (calls ++ [call]) = false → (w.client.call order call).2 = []

lemma keeps_of_call {order : SetOrder} {calls : List Call} {w : World} {call : Call}
    {client : WebSocketSubscriptions} {requests : List HyperliquidRequest}
    (hcall : w.client.call order call = (client, requests))
    (hinv : Inv (calls ++ [call]) ⟨client, requests.foldl receive (w.start call)⟩)
    (hproper : Proper (w.start call) requests)
    (hsilent : isConnected (calls ++ [call]) = false → requests = []) :
    Keeps order calls w call := by
  refine ⟨?_, ?_, ?_⟩
  · rw [World.step, hcall]
    exact hinv
  · rw [hcall]
    exact hproper
  · rw [hcall]
    exact hsilent

/-- A call of `subscribe` keeps client and server in step. -/
lemma keeps_subscribe (order : SetOrder) {calls : List Call} {w : World} (h : Inv calls w)
    (subscription : HyperliquidSubscription) : Keeps order calls w (.subscribe subscription) := by
  by_cases hconnected : isConnected calls = true
  · have hclient := h.client_some hconnected
    have hserver := h.server hconnected
    by_cases hmem : subscription ∈ w.server
    · have hcall : w.client.call order (.subscribe subscription) =
          (⟨insert subscription (requestedBy calls), some w.server⟩, []) := by
        rw [hclient, WebSocketSubscriptions.call, WebSocketSubscriptions.subscribe]
        exact if_pos hmem
      refine keeps_of_call hcall ⟨?_, ?_, fun _ => ?_⟩ trivial fun _ => rfl
      · rw [requestedBy_concat]
      · rw [isConnected_concat, if_pos hconnected]
        rfl
      · rw [accountsKept_concat, requestedBy_concat, Finset.union_insert, ← hserver,
          Finset.insert_eq_of_mem hmem]
        rfl
    · have hcall : w.client.call order (.subscribe subscription) =
          (⟨insert subscription (requestedBy calls), some (insert subscription w.server)⟩,
            [⟨.subscribe, subscription⟩]) := by
        rw [hclient, WebSocketSubscriptions.call, WebSocketSubscriptions.subscribe]
        exact if_neg hmem
      refine keeps_of_call hcall ⟨?_, ?_, fun _ => ?_⟩ ⟨fun _ => hmem, ?_, trivial⟩ fun hnot => ?_
      · rw [requestedBy_concat]
      · rw [isConnected_concat, if_pos hconnected]
        rfl
      · rw [accountsKept_concat, requestedBy_concat, Finset.union_insert, ← hserver]
        rfl
      · intro hmethod
        cases hmethod
      · rw [isConnected_concat, hconnected] at hnot
        cases hnot
  · have hdisconnected := Bool.eq_false_of_not_eq_true hconnected
    have hcall : w.client.call order (.subscribe subscription) =
        (⟨insert subscription (requestedBy calls), none⟩, []) := by
      rw [h.client_none hdisconnected]
      rfl
    refine keeps_of_call hcall ⟨?_, ?_, fun hconnected' => ?_⟩ trivial fun _ => rfl
    · rw [requestedBy_concat]
    · rw [isConnected_concat, if_neg hconnected]
    · rw [isConnected_concat] at hconnected'
      exact absurd hconnected' hconnected

/-- A call of `unsubscribe` does too. -/
lemma keeps_unsubscribe (order : SetOrder) {calls : List Call} {w : World} (h : Inv calls w)
    (subscription : HyperliquidSubscription) : Keeps order calls w (.unsubscribe subscription) := by
  by_cases hconnected : isConnected calls = true
  · have hclient := h.client_some hconnected
    have hserver := h.server hconnected
    by_cases hmem : subscription ∈ w.server
    · have hcall : w.client.call order (.unsubscribe subscription) =
          (⟨(requestedBy calls).erase subscription, some (w.server.erase subscription)⟩,
            [⟨.unsubscribe, subscription⟩]) := by
        rw [hclient, WebSocketSubscriptions.call, WebSocketSubscriptions.unsubscribe]
        exact if_pos hmem
      refine keeps_of_call hcall ⟨?_, ?_, fun _ => ?_⟩ ⟨?_, fun _ => hmem, trivial⟩ fun hnot => ?_
      · rw [requestedBy_concat]
      · rw [isConnected_concat, if_pos hconnected]
        rfl
      · rw [accountsKept_concat, requestedBy_concat, ← Finset.erase_union_distrib, ← hserver]
        rfl
      · intro hmethod
        cases hmethod
      · rw [isConnected_concat, hconnected] at hnot
        cases hnot
    · have hcall : w.client.call order (.unsubscribe subscription) =
          (⟨(requestedBy calls).erase subscription, some w.server⟩, []) := by
        rw [hclient, WebSocketSubscriptions.call, WebSocketSubscriptions.unsubscribe]
        exact if_neg hmem
      refine keeps_of_call hcall ⟨?_, ?_, fun _ => ?_⟩ trivial fun _ => rfl
      · rw [requestedBy_concat]
      · rw [isConnected_concat, if_pos hconnected]
        rfl
      · rw [accountsKept_concat, requestedBy_concat, ← Finset.erase_union_distrib, ← hserver,
          Finset.erase_eq_of_notMem hmem]
        rfl
  · have hdisconnected := Bool.eq_false_of_not_eq_true hconnected
    have hcall : w.client.call order (.unsubscribe subscription) =
        (⟨(requestedBy calls).erase subscription, none⟩, []) := by
      rw [h.client_none hdisconnected]
      rfl
    refine keeps_of_call hcall ⟨?_, ?_, fun hconnected' => ?_⟩ trivial fun _ => rfl
    · rw [requestedBy_concat]
    · rw [isConnected_concat, if_neg hconnected]
    · rw [isConnected_concat] at hconnected'
      exact absurd hconnected' hconnected

lemma keeps_connected (order : SetOrder) {calls : List Call} {w : World} (h : Inv calls w)
    (accountSubscriptions : List HyperliquidSubscription) :
    Keeps order calls w (.connected accountSubscriptions) := by
  obtain ⟨hset, hproper, hfold⟩ :=
    subscribeAll_spec ∅ (accountSubscriptions ++ order.iterate w.client.requested)
  refine ⟨⟨?_, ?_, fun _ => ?_⟩, hproper, fun hnot => ?_⟩
  · rw [requestedBy_concat]
    exact h.requested
  · rw [isConnected_concat, if_pos rfl]
    exact congrArg some hfold.symm
  · rw [accountsKept_concat, requestedBy_concat]
    have hiterate : (order.iterate w.client.requested).toFinset = requestedBy calls := by
      ext subscription
      rw [List.mem_toFinset, order.mem_iterate, h.requested]
    calc (w.step order (.connected accountSubscriptions)).server
        = (subscribeAll ∅ (accountSubscriptions ++ order.iterate w.client.requested)).1 := hfold
      _ = accountSubscriptions.toFinset ∪ requestedBy calls := by
        rw [hset, Finset.empty_union, List.toFinset_append, hiterate]
  · rw [isConnected_concat] at hnot
    cases hnot

lemma keeps_disconnected (order : SetOrder) {calls : List Call} {w : World} (h : Inv calls w) :
    Keeps order calls w .disconnected := by
  refine ⟨⟨?_, ?_, fun hconnected => ?_⟩, trivial, fun _ => rfl⟩
  · rw [requestedBy_concat]
    exact h.requested
  · rw [isConnected_concat]
    rfl
  · rw [isConnected_concat] at hconnected
    cases hconnected

/-- **One call** keeps the invariant.

**Proof sketch.** While connected the client's set is that of the server, so it is asked whether a
subscription is there before a request is made, and a request changes both alike. A connection starts
from the empty set on both sides. -/
theorem keeps_call (order : SetOrder) {calls : List Call} {w : World} (h : Inv calls w)
    (call : Call) : Keeps order calls w call := by
  cases call with
  | subscribe subscription => exact keeps_subscribe order h subscription
  | unsubscribe subscription => exact keeps_unsubscribe order h subscription
  | connected accountSubscriptions => exact keeps_connected order h accountSubscriptions
  | disconnected => exact keeps_disconnected order h

/-! ## All histories -/

lemma run_concat (order : SetOrder) (calls : List Call) (call : Call) :
    World.run order (calls ++ [call]) = (World.run order calls).step order call := by
  rw [World.run, List.foldl_append]
  rfl

/-- The invariant holds after every history. -/
lemma inv_run (order : SetOrder) (calls : List Call) : Inv calls (World.run order calls) := by
  induction calls using List.reverseRecOn with
  | nil =>
    refine ⟨rfl, rfl, fun h => ?_⟩
    cases h
  | append_singleton calls call ih =>
    rw [run_concat]
    exact (keeps_call order ih call).inv

/-- **Client and server agree** after every history, the account subscriptions being those of the last
connection that were not unsubscribed since. -/
theorem agreesOn_accountsKept (order : SetOrder) (calls : List Call) : AgreesOn accountsKept order calls where
  server := (inv_run order calls).server
  proper before call _ _ := (keeps_call order (inv_run order before) call).proper
  silent before call _ _ := (keeps_call order (inv_run order before) call).silent

/-- **An account subscription that is unsubscribed** is one the server no longer has. -/
theorem not_agrees_unsubscribed : ¬∀ order, AgreesOn accountsOf order
    [.connected [.accountState "0xabc"], .unsubscribe (.accountState "0xabc")] := by
  intro h
  have hserver := (h ⟨Finset.toList, fun _ _ => Finset.mem_toList⟩).server rfl
  have hmem : HyperliquidSubscription.accountState "0xabc" ∈ accountsOf
      [.connected [.accountState "0xabc"], .unsubscribe (.accountState "0xabc")] ∪ requestedBy
      [.connected [.accountState "0xabc"], .unsubscribe (.accountState "0xabc")] := by decide
  rw [← hserver, (inv_run _ _).server rfl] at hmem
  revert hmem
  decide

end GemCore.Perpetual

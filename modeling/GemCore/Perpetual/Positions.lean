import Mathlib.Data.List.Infix
import GemCore.Lib.AssocMap
import GemCore.Lib.Interleave
import GemCore.Primitives.TransactionLoad

/-!
# Perpetual positions

The positions of one account on the exchange and the rows they are stored in. The exchange sends
the state of the account and the open orders in messages of their own, and `sync_positions` fetches
both. A handler reads the stored rows, makes a difference of them, and writes it: the mapping and the
differences are those of `gem_hypercore/src/provider/{perpetual_mapper,websocket_mapper}.rs`, the
handlers those of `gemstone/src/services/perpetual/mod.rs`.

Prices and all other data of a position are opaque.

## Main definitions

* `mapTpSlFromOrders`, `mapPosition` — rows.
* `diffClearinghousePositions`, `diffOpenOrdersPositions` — differences.
* `step` — handlers at the same time.
* `handled` — one message from its arrival to its end.
-/

namespace GemCore.Perpetual

open Lib (AssocMap)

/-! ## Data -/

/-- `PerpetualOrderType`. -/
inductive PerpetualOrderType where
  | market
  | limit
  deriving DecidableEq

section Types

variable (F D : Type)

/-- `OpenOrder`. -/
structure OpenOrder where
  coin : String
  oid : ℕ
  triggerPx : Option F
  limitPx : Option F
  isPositionTpsl : Bool
  orderType : String

/-- `PerpetualTriggerOrder`. -/
structure PerpetualTriggerOrder where
  price : F
  orderType : PerpetualOrderType
  orderId : String
  deriving DecidableEq

/-- `Position` of the exchange: its coin, and all the rest of it. -/
structure Position where
  coin : String
  details : D

/-- `PerpetualPosition`: the row of a position. -/
structure PerpetualPosition where
  id : String
  assetId : AssetId
  takeProfit : Option (PerpetualTriggerOrder F)
  stopLoss : Option (PerpetualTriggerOrder F)
  details : D

/-- `PositionsDiff`. -/
structure PositionsDiff where
  deletePositionIds : List String
  positions : List (PerpetualPosition F D)

/-- The rows of one wallet, by id. -/
abbrev Rows : Type := AssocMap String (PerpetualPosition F D)

/-- Take profit and stop loss. -/
abbrev Levels : Type := Option (PerpetualTriggerOrder F) × Option (PerpetualTriggerOrder F)

end Types

variable {F D : Type}

/-- The levels of a row. -/
def PerpetualPosition.levels (row : PerpetualPosition F D) : Levels F := (row.takeProfit, row.stopLoss)

/-- A row with other levels. -/
def PerpetualPosition.withLevels (row : PerpetualPosition F D) (levels : Levels F) :
    PerpetualPosition F D :=
  { row with takeProfit := levels.1, stopLoss := levels.2 }

/-! ## Mapping -/

/-- `str::contains`. -/
def containsText (text part : String) : Bool := decide (part.toList <:+: text.toList)

/-- `AssetId::sub_token_id` of two parts. -/
def subTokenId (first second : String) : String := first ++ "::" ++ second

/-- `AssetId::decode_token_id`: the parts between the separators. -/
def decodeTokenId : List Char → List (List Char)
  | [] => [[]]
  | ':' :: ':' :: rest => [] :: decodeTokenId rest
  | c :: rest =>
    match decodeTokenId rest with
    | [] => [[c]]
    | part :: parts => (c :: part) :: parts

/-- `create_perpetual_asset_id`. -/
def createPerpetualAssetId (coin : String) : AssetId :=
  { chain := .hyperCore, tokenId := some (subTokenId "perpetual" coin) }

/-- The coin of a row, as `diff_open_orders_positions` reads it. -/
def coinOf (assetId : AssetId) : Option String :=
  assetId.tokenId.bind fun tokenId => (decodeTokenId tokenId.toList)[1]?.map String.ofList

section Mapping

variable (toLowercase : String → String)

/-- `determine_order_type`. -/
def determineOrderType (orderType : String) : PerpetualOrderType :=
  if containsText (toLowercase orderType) "market" then .market else .limit

/-- The trigger of an order. -/
def triggerOrder (order : OpenOrder F) (price : F) : PerpetualTriggerOrder F :=
  { price, orderType := determineOrderType toLowercase order.orderType, orderId := toString order.oid }

/-- The step of the fold in `map_tp_sl_from_orders`. -/
def addOrder (levels : Levels F) (order : OpenOrder F) : Levels F :=
  match order.triggerPx with
  | none => levels
  | some price =>
    if containsText (toLowercase order.orderType) "take profit" then
      (some (triggerOrder toLowercase order price), levels.2)
    else if containsText (toLowercase order.orderType) "stop" then
      (levels.1, some (triggerOrder toLowercase order price))
    else
      levels

/-- `map_tp_sl_from_orders`. -/
def mapTpSlFromOrders (orders : List (OpenOrder F)) (coin : String) : Levels F :=
  (orders.filter fun order => order.isPositionTpsl && order.coin = coin).foldl
    (addOrder toLowercase) (none, none)

/-- `map_position`. -/
def mapPosition (position : Position D) (address : String) (orders : List (OpenOrder F)) :
    PerpetualPosition F D :=
  let levels := mapTpSlFromOrders toLowercase orders position.coin
  { id := toLowercase address ++ "_" ++ position.coin
    assetId := createPerpetualAssetId position.coin
    takeProfit := levels.1
    stopLoss := levels.2
    details := position.details }

/-- `map_positions`. -/
def mapPositions (positions : List (Position D)) (address : String) (orders : List (OpenOrder F)) :
    List (PerpetualPosition F D) :=
  positions.map fun position => mapPosition toLowercase position address orders

/-! ## Differences -/

/-- `diff_clearinghouse_positions`. -/
def diffClearinghousePositions (newPositions existingPositions : List (PerpetualPosition F D)) :
    PositionsDiff F D :=
  let existingMap := AssocMap.collect (existingPositions.map fun p => (p.id, p))
  let positions := newPositions.map fun pos =>
    match existingMap.lookup pos.id with
    | some existing => pos.withLevels existing.levels
    | none => pos
  let newIds := positions.map (·.id)
  { deletePositionIds := (existingPositions.filter fun p => p.id ∉ newIds).map (·.id)
    positions := positions }

/-- What `diff_open_orders_positions` makes of one row. -/
def updateLevels [DecidableEq F] (orders : List (OpenOrder F)) (pos : PerpetualPosition F D) :
    Option (PerpetualPosition F D) := do
  let coin ← coinOf pos.assetId
  let levels := mapTpSlFromOrders toLowercase orders coin
  if pos.takeProfit ≠ levels.1 ∨ pos.stopLoss ≠ levels.2 then
    some (pos.withLevels levels)
  else
    none

/-- `diff_open_orders_positions`. -/
def diffOpenOrdersPositions [DecidableEq F] (orders : List (OpenOrder F))
    (existingPositions : List (PerpetualPosition F D)) : PositionsDiff F D :=
  { deletePositionIds := []
    positions := existingPositions.filterMap (updateLevels toLowercase orders) }

/-- `stale_position_ids`. -/
def stalePositionIds (existingIds : List String) (positions : List (PerpetualPosition F D)) :
    List String :=
  existingIds.filter fun id => id ∉ positions.map (·.id)

end Mapping

/-! ## The store -/

/-- `GemPerpetualStore::get_positions`. -/
def getPositions (rows : Rows F D) : List (PerpetualPosition F D) := rows.entries.map (·.2)

/-- `GemPerpetualStore::update_positions`: rows are deleted, then written, in one transaction. -/
def updatePositions (rows : Rows F D) (positions : List (PerpetualPosition F D))
    (deleteIds : List String) : Rows F D :=
  AssocMap.insertAll (AssocMap.eraseAll rows deleteIds) (positions.map fun p => (p.id, p))

/-! ## Handlers -/

/-- What is handled: the two kinds of messages, and the answer of the exchange to `sync_positions`,
which asks for the orders only if there are positions. -/
inductive Message (F D : Type) where
  | accountState (positions : List (Position D))
  | openOrders (orders : List (OpenOrder F))
  | sync (positions : List (Position D)) (orders : List (OpenOrder F))

/-- The positions of an account state. -/
def Message.account : Message F D → Option (List (Position D))
  | .accountState positions => some positions
  | .openOrders _ => none
  | .sync positions _ => some positions

/-- The orders that are received. -/
def Message.orders : Message F D → Option (List (OpenOrder F))
  | .accountState _ => none
  | .openOrders orders => some orders
  | .sync positions orders => if positions.isEmpty then none else some orders

/-- What a handler writes after it has read `existing`. -/
def Message.diff [DecidableEq F] (toLowercase : String → String) (address : String)
    (existing : List (PerpetualPosition F D)) : Message F D → PositionsDiff F D
  | .accountState positions =>
    diffClearinghousePositions (mapPositions toLowercase positions address []) existing
  | .openOrders orders => diffOpenOrdersPositions toLowercase orders existing
  | .sync positions orders =>
    let summary := mapPositions toLowercase positions address
      (if positions.isEmpty then [] else orders)
    { deletePositionIds := stalePositionIds (existing.map (·.id)) summary, positions := summary }

/-- How far a handler is. -/
inductive Stage (F D : Type) where
  | received
  | read (existing : List (PerpetualPosition F D))
  | over

/-- A handler. -/
structure Handler (F D : Type) where
  message : Message F D
  stage : Stage F D

/-- The rows, the handlers, the latest account state that was completed, and the latest orders. -/
structure State (F D : Type) where
  rows : Rows F D
  handlers : List (Handler F D)
  account : List (Position D)
  orders : List (OpenOrder F)

/-- What can happen. -/
inductive Event (F D : Type) where
  | receive (message : Message F D)
  /-- A handler reads the rows. -/
  | read (handler : ℕ)
  /-- A handler writes its difference. -/
  | write (handler : ℕ)
  /-- The next call of a handler fails, and ends it. -/
  | fail (handler : ℕ)

section Step

variable [DecidableEq F] (toLowercase : String → String) (address : String)

/-- A handler goes on to a stage. -/
def State.setStage (s : State F D) (j : ℕ) (handler : Handler F D) (stage : Stage F D) :
    State F D :=
  { s with handlers := s.handlers.set j { handler with stage } }

/-- The end of a handler that has read `existing`. -/
def State.complete (s : State F D) (message : Message F D)
    (existing : List (PerpetualPosition F D)) : State F D :=
  let diff := message.diff toLowercase address existing
  { s with
    rows := updatePositions s.rows diff.positions diff.deletePositionIds
    account := message.account.getD s.account
    orders := message.orders.getD s.orders }

/-- One event. -/
def step (s : State F D) : Event F D → Option (State F D)
  | .receive message =>
    some { s with handlers := s.handlers ++ [{ message, stage := .received }] }
  | .read j =>
    match s.handlers[j]? with
    | some { message, stage := .received } =>
      some (s.setStage j { message, stage := .received } (.read (getPositions s.rows)))
    | _ => none
  | .write j =>
    match s.handlers[j]? with
    | some { message, stage := .read existing } =>
      some ((s.complete toLowercase address message existing).setStage j
        { message, stage := .read existing } .over)
    | _ => none
  | .fail j =>
    match s.handlers[j]? with
    | some { stage := .over, .. } => none
    | some handler => some (s.setStage j handler .over)
    | none => none

/-- One message from its arrival to its end, with nothing else in between. -/
def handled (s : State F D) (message : Message F D) : Option (State F D) :=
  Lib.runEvents (step toLowercase address) s
    [.receive message, .read s.handlers.length, .write s.handlers.length]

end Step

end GemCore.Perpetual

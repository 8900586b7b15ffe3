import GemCore.Perpetual.Positions

/-!
# The stored positions and the state of the exchange

Handled one after the other, the messages leave in the store the positions of the latest account
state with the levels of the latest orders, as long as no position is new to the store while the
latest orders hold levels for it: a new position is stored without levels, and the orders are not
kept to look them up. Handled at the same time, the handler of the open orders writes back whole
rows that it has read before, so a position that is closed in between comes back.

## Main definitions

* `Exact` — the store agrees with the exchange.
* `Supplied` — when a message keeps it so.
* `Revives` — a step puts a position into the store that is not in the account.
* `StillThere`, `Undisturbed` — when handlers at the same time do no harm.

## Main results

* `exact_iff_supplied` — messages one after the other.
* `revives_iff` — handlers at the same time.
-/

namespace GemCore.Perpetual

open Lib

variable {F D : Type} {toLowercase : String → String} {address : String}

section Statement

variable (toLowercase address)

/-- The id of the row of a coin. -/
def positionId (coin : String) : String := toLowercase address ++ "_" ++ coin

/-- The rows of positions with the levels of given orders. -/
def expected (orders : List (OpenOrder F)) (account : List (Position D)) : Rows F D :=
  AssocMap.collect (account.map fun p =>
    (positionId toLowercase address p.coin, mapPosition toLowercase p address orders))

/-- A beginning: the rows of positions with the levels of orders that were received before. -/
def State.start (orders : List (OpenOrder F)) (account : List (Position D)) : State F D :=
  { rows := expected toLowercase address orders account, handlers := [], account, orders }

/-- The store holds exactly the positions of the latest account state, each with the levels that the
latest orders give for its coin. -/
def Exact (s : State F D) : Prop :=
  ∀ id, s.rows.lookup id = (expected toLowercase address s.orders s.account).lookup id

/-- A message keeps the store exact: the positions of an account state that are new to the store
have no levels in the latest orders, and the coin of a stored position is read back from its row as
far as the orders are concerned. -/
def Supplied (s : State F D) : Message F D → Prop
  | .accountState positions => ∀ p ∈ positions,
      s.rows.lookup (positionId toLowercase address p.coin) = none →
      mapTpSlFromOrders toLowercase s.orders p.coin = (none, none)
  | .openOrders orders => ∀ p ∈ s.account, ∀ coin,
      coinOf (createPerpetualAssetId p.coin) = some coin →
      mapTpSlFromOrders toLowercase orders coin = mapTpSlFromOrders toLowercase orders p.coin
  | .sync _ _ => True

/-- A step puts a position into the store that the latest completed account state does not
contain. -/
def Revives (s s' : State F D) : Prop :=
  ∃ id, s.rows.lookup id = none ∧ (s'.rows.lookup id).isSome = true ∧
    ∀ p ∈ s'.account, positionId toLowercase address p.coin ≠ id

/-- The rows that a handler of open orders is about to write are still there. -/
def StillThere [DecidableEq F] (s : State F D) : Event F D → Prop
  | .write j => ∀ orders existing, s.handlers[j]? = some ⟨.openOrders orders, .read existing⟩ →
      ∀ row ∈ (diffOpenOrdersPositions toLowercase orders existing).positions,
        (s.rows.lookup row.id).isSome = true
  | _ => True

/-- The rows that a handler of an account state does not contain were there when it has read. -/
def Undisturbed (s : State F D) : Event F D → Prop
  | .write j => ∀ message existing positions, s.handlers[j]? = some ⟨message, .read existing⟩ →
      message.account = some positions → ∀ id, (s.rows.lookup id).isSome = true →
      (∃ p ∈ positions, positionId toLowercase address p.coin = id) ∨ id ∈ existing.map (·.id)
  | _ => True

end Statement

/-! ## Rows -/

lemma positionId_injective {coin coin' : String}
    (h : positionId toLowercase address coin = positionId toLowercase address coin') :
    coin = coin' := by
  have hlist := congrArg String.toList h
  simp only [positionId, String.toList_append, List.append_assoc, List.append_cancel_left_eq] at hlist
  exact String.toList_inj.mp hlist

/-- The positions by the ids of their rows. -/
def byId (toLowercase : String → String) (address : String) (account : List (Position D)) :
    AssocMap String (Position D) :=
  AssocMap.collect (account.map fun p => (positionId toLowercase address p.coin, p))

lemma mem_of_lookup_byId {account : List (Position D)} {id : String} {p : Position D}
    (h : (byId toLowercase address account).lookup id = some p) :
    p ∈ account ∧ positionId toLowercase address p.coin = id := by
  obtain ⟨q, hq, heq⟩ := List.mem_map.mp (AssocMap.mem_of_lookup_collect h)
  cases heq
  exact ⟨hq, rfl⟩

/-- Of the positions of one coin, one is kept. -/
lemma lookup_byId_of_mem {account : List (Position D)} {p : Position D} (h : p ∈ account) :
    ∃ q, (byId toLowercase address account).lookup (positionId toLowercase address p.coin) = some q ∧
      q.coin = p.coin := by
  obtain ⟨q, hq⟩ := Option.isSome_iff_exists.mp (AssocMap.lookup_collect_isSome.mpr
    (List.mem_map_of_mem (List.mem_map_of_mem
      (f := fun p : Position D => (positionId toLowercase address p.coin, p)) h)))
  exact ⟨q, hq, positionId_injective (mem_of_lookup_byId hq).2⟩

/-- Rows made from positions, one by one. -/
lemma lookup_collect_rows (row : Position D → PerpetualPosition F D) (account : List (Position D))
    (id : String) :
    (AssocMap.collect (account.map fun p => (positionId toLowercase address p.coin, row p))).lookup id
      = ((byId toLowercase address account).lookup id).map row := by
  rw [byId, ← AssocMap.lookup_collect_map, List.map_map]
  rfl

lemma lookup_expected (orders : List (OpenOrder F)) (account : List (Position D)) (id : String) :
    (expected toLowercase address orders account).lookup id
      = ((byId toLowercase address account).lookup id).map
          fun p => mapPosition toLowercase p address orders :=
  lookup_collect_rows _ account id

/-- What `update_positions` leaves. -/
lemma lookup_updatePositions (rows : Rows F D) (positions : List (PerpetualPosition F D))
    (deleteIds : List String) (id : String) :
    (updatePositions rows positions deleteIds).lookup id
      = ((AssocMap.collect (positions.map fun p => (p.id, p))).lookup id).or
          (if id ∈ deleteIds then none else rows.lookup id) := by
  rw [updatePositions, AssocMap.lookup_insertAll, AssocMap.lookup_eraseAll]

/-- Every row stands under its own id. -/
def Keyed (rows : Rows F D) : Prop := ∀ id row, rows.lookup id = some row → row.id = id

/-- The ids of the rows that are read. -/
lemma mem_getPositions_iff {rows : Rows F D} (h : Keyed rows) {row : PerpetualPosition F D} :
    row ∈ getPositions rows ↔ rows.lookup row.id = some row := by
  constructor
  · intro hmem
    obtain ⟨⟨id, _⟩, hentry, rfl⟩ := List.mem_map.mp hmem
    have hlookup := AList.mem_lookup_iff.mpr hentry
    rw [h id _ hlookup]
    exact hlookup
  · intro hlookup
    exact List.mem_map.mpr ⟨_, AList.mem_lookup_iff.mp hlookup, rfl⟩

/-- The rows that are read, through a function that keeps their ids. -/
lemma lookup_collect_getPositions {rows : Rows F D} (h : Keyed rows)
    (f : PerpetualPosition F D → Option (PerpetualPosition F D))
    (hf : ∀ row row', f row = some row' → row'.id = row.id) (id : String) :
    (AssocMap.collect (((getPositions rows).filterMap f).map fun p => (p.id, p))).lookup id
      = (rows.lookup id).bind f := by
  rw [← AssocMap.lookup_collect_filterMap f rows id, getPositions, List.filterMap_map,
    List.map_filterMap]
  congr 2
  refine List.filterMap_congr fun entry hentry => ?_
  have hid := h entry.1 entry.2 (AList.mem_lookup_iff.mpr hentry)
  cases hrow : f entry.2 with
  | none => simp [hrow]
  | some row => simp [hrow, hf _ _ hrow, hid]

/-! ## One message -/

section Sequential

variable {s s' : State F D}

/-- The coin of a row is the first part of the coin of its position. -/
lemma coinOf_createPerpetualAssetId (coin : String) :
    ∃ part parts, decodeTokenId coin.toList = part :: parts ∧
      coinOf (createPerpetualAssetId coin) = some (String.ofList part) := by
  have hne : ∀ l : List Char, ∃ part parts, decodeTokenId l = part :: parts := by
    intro l
    fun_cases decodeTokenId l <;> exact ⟨_, _, rfl⟩
  obtain ⟨part, parts, hparts⟩ := hne coin.toList
  refine ⟨part, parts, hparts, ?_⟩
  have hlist : (subTokenId "perpetual" coin).toList
      = 'p' :: 'e' :: 'r' :: 'p' :: 'e' :: 't' :: 'u' :: 'a' :: 'l' :: ':' :: ':' :: coin.toList := by
    simp [subTokenId]
  simp only [coinOf, createPerpetualAssetId, Option.bind_some, hlist]
  simp [decodeTokenId, hparts]

lemma Exact.keyed (h : Exact toLowercase address s) : Keyed s.rows := by
  intro id row hrow
  rw [h, lookup_expected] at hrow
  obtain ⟨p, hp, rfl⟩ := Option.map_eq_some_iff.mp hrow
  exact (mem_of_lookup_byId hp).2

/-- The stored row of a coin has the levels of the latest orders. -/
lemma Exact.levels (h : Exact toLowercase address s) {coin : String}
    {row : PerpetualPosition F D}
    (hrow : s.rows.lookup (positionId toLowercase address coin) = some row) :
    row.levels = mapTpSlFromOrders toLowercase s.orders coin := by
  rw [h, lookup_expected] at hrow
  obtain ⟨p, hp, rfl⟩ := Option.map_eq_some_iff.mp hrow
  rw [← positionId_injective (mem_of_lookup_byId hp).2]
  rfl

variable [DecidableEq F]

lemma handled_eq (message : Message F D) :
    handled toLowercase address s message = some
      { s.complete toLowercase address message (getPositions s.rows) with
        handlers := s.handlers ++ [{ message, stage := .over }] } := by
  simp [handled, runEvents, step, State.setStage, State.complete]

omit [DecidableEq F] in
/-- Rows that are not written again are deleted, if all rows were read. -/
lemma lookup_eraseUnwritten (h : Keyed s.rows) {positions : List (Position D)}
    {row : Position D → PerpetualPosition F D} {written : List (PerpetualPosition F D)}
    (hrow : ∀ p, (row p).id = positionId toLowercase address p.coin)
    (hwritten : written = positions.map row) {deleteIds : List String}
    (hdelete : ∀ old, s.rows.lookup old.id = some old → old.id ∉ written.map (·.id) →
      old.id ∈ deleteIds) (id : String) :
    (updatePositions s.rows written deleteIds).lookup id
      = ((byId toLowercase address positions).lookup id).map row := by
  have hpairs : written.map (fun p => (p.id, p))
      = positions.map fun p => (positionId toLowercase address p.coin, row p) := by
    rw [hwritten, List.map_map]
    exact List.map_congr_left fun p _ => by rw [Function.comp_apply, hrow]
  rw [lookup_updatePositions, hpairs, lookup_collect_rows]
  cases hid : (byId toLowercase address positions).lookup id with
  | some p => rfl
  | none =>
    have hnot : id ∉ written.map (·.id) := by
      intro hmem
      rw [hwritten, List.map_map] at hmem
      obtain ⟨p, hp, rfl⟩ := List.mem_map.mp hmem
      obtain ⟨q, hq, -⟩ := lookup_byId_of_mem hp
      rw [Function.comp_apply, hrow, hq] at hid
      cases hid
    show (if id ∈ deleteIds then none else s.rows.lookup id) = none
    split
    · rfl
    · cases hold : s.rows.lookup id with
      | none => rfl
      | some old =>
        have hid' := h id old hold
        subst hid'
        exact absurd (hdelete old hold hnot) ‹_›

/-- The levels that an account state keeps. -/
def keepLevels (existing : Option (PerpetualPosition F D)) (row : PerpetualPosition F D) :
    PerpetualPosition F D :=
  match existing with
  | some existing => row.withLevels existing.levels
  | none => row

/-- **What an account state leaves**: its positions, with the levels stored before. -/
theorem lookup_accountState (h : Keyed s.rows) (positions : List (Position D)) (id : String) :
    (s.complete toLowercase address (.accountState positions) (getPositions s.rows)).rows.lookup id
      = ((byId toLowercase address positions).lookup id).map fun p =>
          keepLevels (s.rows.lookup (positionId toLowercase address p.coin))
            (mapPosition toLowercase p address []) := by
  have hexisting : ∀ id, (AssocMap.collect ((getPositions s.rows).map fun p => (p.id, p))).lookup id
      = s.rows.lookup id := by
    intro id
    have hread := lookup_collect_getPositions h some (fun row row' hrow => by cases hrow; rfl) id
    rwa [List.filterMap_some, Option.bind_fun_some] at hread
  refine lookup_eraseUnwritten h (fun p => ?_) ?_ ?_ id
  · cases s.rows.lookup (positionId toLowercase address p.coin) with
    | none => rfl
    | some existing => rfl
  · show List.map _ (List.map _ _) = _
    rw [List.map_map]
    refine List.map_congr_left fun p _ => ?_
    rw [Function.comp_apply, hexisting]
    rfl
  · intro old hold hnot
    exact List.mem_map.mpr ⟨old, List.mem_filter.mpr ⟨(mem_getPositions_iff h).mpr hold,
      decide_eq_true hnot⟩, rfl⟩

/-- **What a sync leaves**: its positions, with the levels of the orders it has fetched. -/
theorem lookup_sync (h : Keyed s.rows) (positions : List (Position D)) (orders : List (OpenOrder F))
    (id : String) :
    (s.complete toLowercase address (.sync positions orders) (getPositions s.rows)).rows.lookup id
      = ((byId toLowercase address positions).lookup id).map fun p =>
          mapPosition toLowercase p address (if positions.isEmpty then [] else orders) := by
  refine lookup_eraseUnwritten h (fun p => rfl) rfl ?_ id
  intro old hold hnot
  exact List.mem_filter.mpr ⟨List.mem_map_of_mem ((mem_getPositions_iff h).mpr hold),
    decide_eq_true hnot⟩

omit [DecidableEq F] in
lemma withLevels_levels (row : PerpetualPosition F D) : row.withLevels row.levels = row := rfl

/-- **What open orders leave**: the rows as they are, with the levels of the coin read from the
row. -/
theorem lookup_openOrders (h : Keyed s.rows) (orders : List (OpenOrder F)) (id : String) :
    (s.complete toLowercase address (.openOrders orders) (getPositions s.rows)).rows.lookup id
      = (s.rows.lookup id).map fun row =>
          match coinOf row.assetId with
          | some coin => row.withLevels (mapTpSlFromOrders toLowercase orders coin)
          | none => row := by
  have hid : ∀ row row' : PerpetualPosition F D,
      updateLevels toLowercase orders row = some row' → row'.id = row.id := by
    intro row row' hrow
    simp only [updateLevels, Option.bind_eq_bind, Option.bind_eq_some_iff] at hrow
    obtain ⟨coin, -, hif⟩ := hrow
    split_ifs at hif
    cases hif
    rfl
  show (updatePositions s.rows
    ((getPositions s.rows).filterMap (updateLevels toLowercase orders)) []).lookup id = _
  rw [lookup_updatePositions, lookup_collect_getPositions h _ hid]
  cases s.rows.lookup id with
  | none => rfl
  | some row =>
    simp only [Option.bind_some, List.not_mem_nil, if_false, Option.map_some, updateLevels]
    cases coinOf row.assetId with
    | none => rfl
    | some coin =>
      simp only [Option.bind_eq_bind, Option.bind_some]
      split_ifs with hne
      · rfl
      · rw [not_or, not_not, not_not] at hne
        have hlevels : mapTpSlFromOrders toLowercase orders coin = row.levels :=
          Prod.ext hne.1.symm hne.2.symm
        rw [hlevels, withLevels_levels]
        rfl

omit [DecidableEq F] in
/-- Rows made from positions in two ways. -/
lemma map_byId_eq_iff {account : List (Position D)} {row row' : Position D → PerpetualPosition F D} :
    (∀ id, ((byId toLowercase address account).lookup id).map row
      = ((byId toLowercase address account).lookup id).map row') ↔
    ∀ id p, (byId toLowercase address account).lookup id = some p → row p = row' p := by
  constructor
  · intro h id p hp
    simpa [hp] using h id
  · intro h id
    cases hp : (byId toLowercase address account).lookup id with
    | none => rfl
    | some p => rw [Option.map_some, Option.map_some, h id p hp]

omit [DecidableEq F] in
lemma mapPosition_eq_withLevels (p : Position D) (orders orders' : List (OpenOrder F)) :
    mapPosition toLowercase p address orders = (mapPosition toLowercase p address orders').withLevels
      (mapTpSlFromOrders toLowercase orders p.coin) := rfl

omit [DecidableEq F] in
lemma withLevels_inj {row : PerpetualPosition F D} {levels levels' : Levels F}
    (h : row.withLevels levels = row.withLevels levels') : levels = levels' :=
  Prod.ext (congrArg PerpetualPosition.takeProfit h) (congrArg PerpetualPosition.stopLoss h)

/-- An account state keeps the store exact if and only if its new positions have no levels. -/
theorem exact_accountState_iff (h : Exact toLowercase address s) (positions : List (Position D)) :
    Exact toLowercase address
        (s.complete toLowercase address (.accountState positions) (getPositions s.rows)) ↔
      Supplied toLowercase address s (.accountState positions) := by
  have hexact : Exact toLowercase address
        (s.complete toLowercase address (.accountState positions) (getPositions s.rows)) ↔
      ∀ id p, (byId toLowercase address positions).lookup id = some p →
        keepLevels (s.rows.lookup (positionId toLowercase address p.coin))
          (mapPosition toLowercase p address []) = mapPosition toLowercase p address s.orders := by
    rw [← map_byId_eq_iff]
    refine forall_congr' fun id => ?_
    rw [lookup_accountState h.keyed, lookup_expected]
    rfl
  rw [hexact]
  constructor
  · intro hkeep p hp hnone
    obtain ⟨q, hq, hcoin⟩ := lookup_byId_of_mem hp
    have hrow := hkeep _ q hq
    rw [hcoin, hnone] at hrow
    rw [← hcoin]
    exact (congrArg PerpetualPosition.levels hrow).symm
  · intro hsupplied id p hp
    obtain ⟨hmem, rfl⟩ := mem_of_lookup_byId hp
    cases hrow : s.rows.lookup (positionId toLowercase address p.coin) with
    | none =>
      rw [mapPosition_eq_withLevels p s.orders [], hsupplied p hmem hrow]
      rfl
    | some row =>
      rw [mapPosition_eq_withLevels p s.orders [], ← h.levels hrow]
      rfl

/-- Open orders keep the store exact if and only if the coins are read back. -/
theorem exact_openOrders_iff (h : Exact toLowercase address s) (orders : List (OpenOrder F)) :
    Exact toLowercase address
        (s.complete toLowercase address (.openOrders orders) (getPositions s.rows)) ↔
      Supplied toLowercase address s (.openOrders orders) := by
  have hexact : Exact toLowercase address
        (s.complete toLowercase address (.openOrders orders) (getPositions s.rows)) ↔
      ∀ id p, (byId toLowercase address s.account).lookup id = some p →
        (match coinOf (createPerpetualAssetId p.coin) with
          | some coin => (mapPosition toLowercase p address s.orders).withLevels
              (mapTpSlFromOrders toLowercase orders coin)
          | none => mapPosition toLowercase p address s.orders)
        = mapPosition toLowercase p address orders := by
    rw [← map_byId_eq_iff]
    refine forall_congr' fun id => ?_
    rw [lookup_openOrders h.keyed, lookup_expected, h, lookup_expected, Option.map_map]
    rfl
  rw [hexact]
  constructor
  · intro hrows p hp coin hcoin
    obtain ⟨q, hq, hsame⟩ := lookup_byId_of_mem hp
    have hrow := hrows _ q hq
    rw [hsame, hcoin, mapPosition_eq_withLevels q orders s.orders, hsame] at hrow
    exact withLevels_inj hrow
  · intro hsupplied id p hp
    obtain ⟨part, -, -, hcoin⟩ := coinOf_createPerpetualAssetId p.coin
    rw [hcoin, mapPosition_eq_withLevels p orders s.orders,
      ← hsupplied p (mem_of_lookup_byId hp).1 _ hcoin]

/-- A sync always leaves an exact store. -/
lemma exact_sync (h : Keyed s.rows) (positions : List (Position D)) (orders : List (OpenOrder F)) :
    Exact toLowercase address
      (s.complete toLowercase address (.sync positions orders) (getPositions s.rows)) := by
  intro id
  rw [lookup_sync h, lookup_expected]
  cases positions with
  | nil => rfl
  | cons p positions => rfl

/-- **One message**: it keeps the store exact if and only if its condition is met. -/
theorem exact_handled_iff (h : Exact toLowercase address s) {message : Message F D}
    (hs : handled toLowercase address s message = some s') :
    Exact toLowercase address s' ↔ Supplied toLowercase address s message := by
  rw [handled_eq] at hs
  cases hs
  cases message with
  | accountState positions => exact exact_accountState_iff h positions
  | openOrders orders => exact exact_openOrders_iff h orders
  | sync positions orders => exact iff_of_true (exact_sync h.keyed positions orders) trivial

/-- **Messages one after the other** leave an exact store after each of them if and only if each
meets its condition in its turn. -/
theorem exact_iff_supplied (h : Exact toLowercase address s) (messages : List (Message F D)) :
    (∀ before after s', messages = before ++ after →
      runEvents (handled toLowercase address) s before = some s' → Exact toLowercase address s') ↔
    Along (handled toLowercase address) (Supplied toLowercase address) s messages := by
  constructor
  · intro hexact
    induction messages generalizing s with
    | nil => trivial
    | cons message messages ih =>
      obtain ⟨s₁, hs₁⟩ : ∃ s₁, handled toLowercase address s message = some s₁ :=
        ⟨_, handled_eq message⟩
      have hexact₁ := hexact [message] messages s₁ rfl (by simp [runEvents, hs₁])
      refine .cons ((exact_handled_iff h hs₁).mp hexact₁) hs₁ (ih hexact₁ ?_)
      intro before after s₂ heq hrun
      refine hexact (message :: before) after s₂ (by rw [heq]; rfl) ?_
      exact runEvents_cons_eq_some.mpr ⟨s₁, hs₁, hrun⟩
  · rintro halong before after s₂ rfl hrun
    exact runEvents_invariant (fun _ _ _ hI hP hs => (exact_handled_iff hI hs).mpr hP) h
      halong.left_of_append hrun

end Sequential

/-! ## Handlers at the same time -/

section Concurrent

variable [DecidableEq F] {s s' : State F D} {e : Event F D}

/-- **What an event does**: the rows, the account and the orders change only when a handler writes. -/
theorem step_cases (h : step toLowercase address s e = some s') :
    (∃ message, e = .receive message ∧
      s' = { s with handlers := s.handlers ++ [{ message, stage := .received }] }) ∨
    (∃ j message, e = .read j ∧ s.handlers[j]? = some ⟨message, .received⟩ ∧
      s' = s.setStage j ⟨message, .received⟩ (.read (getPositions s.rows))) ∨
    (∃ j message existing, e = .write j ∧ s.handlers[j]? = some ⟨message, .read existing⟩ ∧
      s' = (s.complete toLowercase address message existing).setStage j
        ⟨message, .read existing⟩ .over) ∨
    (∃ j handler, e = .fail j ∧ s.handlers[j]? = some handler ∧ s' = s.setStage j handler .over) := by
  cases e with
  | receive message =>
    cases h
    exact .inl ⟨message, rfl, rfl⟩
  | read j =>
    simp only [step] at h
    split at h
    case h_1 message hj =>
      cases h
      exact .inr (.inl ⟨j, message, rfl, hj, rfl⟩)
    case h_2 => cases h
  | write j =>
    simp only [step] at h
    split at h
    case h_1 message existing hj =>
      cases h
      exact .inr (.inr (.inl ⟨j, message, existing, rfl, hj, rfl⟩))
    case h_2 => cases h
  | fail j =>
    simp only [step] at h
    split at h
    case h_1 => cases h
    case h_2 handler _ hj =>
      cases h
      exact .inr (.inr (.inr ⟨j, handler, rfl, hj, rfl⟩))
    case h_3 => cases h

/-- The ids of the rows that are there when a handler has written. -/
lemma isSome_lookup_complete {message : Message F D} {existing : List (PerpetualPosition F D)}
    {id : String} :
    ((s.complete toLowercase address message existing).rows.lookup id).isSome = true ↔
      id ∈ (message.diff toLowercase address existing).positions.map (·.id) ∨
      id ∉ (message.diff toLowercase address existing).deletePositionIds ∧
        (s.rows.lookup id).isSome = true := by
  have hwritten : ((AssocMap.collect ((message.diff toLowercase address existing).positions.map
      fun p => (p.id, p))).lookup id).isSome = true ↔
      id ∈ (message.diff toLowercase address existing).positions.map (·.id) := by
    rw [AssocMap.lookup_collect_isSome, List.map_map]
    rfl
  rw [State.complete, lookup_updatePositions, Option.isSome_or, Bool.or_eq_true, hwritten]
  refine or_congr_right ?_
  split_ifs with hdelete
  · simp [hdelete]
  · simp [hdelete]

/-- A handler of an account state writes the rows of its positions. -/
lemma ids_diff_of_account {message : Message F D} {positions : List (Position D)}
    (h : message.account = some positions) (existing : List (PerpetualPosition F D)) :
    (message.diff toLowercase address existing).positions.map (·.id)
      = positions.map fun p => positionId toLowercase address p.coin := by
  cases message with
  | accountState ps =>
    cases h
    simp only [Message.diff, diffClearinghousePositions, mapPositions, List.map_map]
    refine List.map_congr_left fun p _ => ?_
    simp only [Function.comp_apply]
    split
    · rfl
    · rfl
  | openOrders orders => cases h
  | sync ps orders =>
    cases h
    simp only [Message.diff, mapPositions, List.map_map]
    exact List.map_congr_left fun p _ => rfl

/-- A handler of an account state deletes the rows it has read and does not write. -/
theorem mem_delete_of_account {message : Message F D} {positions : List (Position D)}
    (h : message.account = some positions) {existing : List (PerpetualPosition F D)} {id : String}
    (hread : id ∈ existing.map (·.id))
    (hnot : id ∉ (message.diff toLowercase address existing).positions.map (·.id)) :
    id ∈ (message.diff toLowercase address existing).deletePositionIds := by
  obtain ⟨row, hrow, rfl⟩ := List.mem_map.mp hread
  cases message with
  | accountState ps =>
    exact List.mem_map.mpr ⟨row, List.mem_filter.mpr ⟨hrow, decide_eq_true hnot⟩, rfl⟩
  | openOrders orders => cases h
  | sync ps orders => exact List.mem_filter.mpr ⟨hread, decide_eq_true hnot⟩

/-- In every run the positions of the latest completed account state are in the store. -/
def Stored (toLowercase : String → String) (address : String) (s : State F D) : Prop :=
  ∀ p ∈ s.account, (s.rows.lookup (positionId toLowercase address p.coin)).isSome = true

omit [DecidableEq F] in
lemma stored_start (orders : List (OpenOrder F)) (account : List (Position D)) :
    Stored toLowercase address (State.start toLowercase address orders account) := by
  intro p hp
  have hmem : p ∈ account := hp
  obtain ⟨q, hq, -⟩ := lookup_byId_of_mem hmem
  rw [State.start, lookup_expected, hq]
  rfl

/-- Open orders delete nothing. -/
lemma isSome_lookup_openOrders {orders : List (OpenOrder F)}
    {existing : List (PerpetualPosition F D)} {id : String} :
    ((s.complete toLowercase address (.openOrders orders) existing).rows.lookup id).isSome = true ↔
      id ∈ (diffOpenOrdersPositions toLowercase orders existing).positions.map (·.id) ∨
      (s.rows.lookup id).isSome = true := by
  rw [isSome_lookup_complete]
  simp [Message.diff, diffOpenOrdersPositions]

lemma Stored.step (h : Stored toLowercase address s)
    (hstep : step toLowercase address s e = some s') : Stored toLowercase address s' := by
  rcases step_cases hstep with ⟨message, rfl, rfl⟩ | ⟨j, message, rfl, -, rfl⟩ |
    ⟨j, message, existing, rfl, -, rfl⟩ | ⟨j, handler, rfl, -, rfl⟩
  · exact h
  · exact h
  · cases hmessage : message.account with
    | some positions =>
      intro p hp
      have hp' : p ∈ positions := by simpa [State.complete, State.setStage, hmessage] using hp
      refine isSome_lookup_complete.mpr (.inl ?_)
      rw [ids_diff_of_account hmessage]
      exact List.mem_map_of_mem hp'
    | none =>
      cases message with
      | accountState positions => cases hmessage
      | openOrders orders => exact fun p hp => isSome_lookup_openOrders.mpr (.inr (h p hp))
      | sync positions orders => cases hmessage
  · exact h

/-- A handler of an account state puts only its own positions into the store. -/
theorem not_revives_of_account {message : Message F D} {positions : List (Position D)}
    (h : message.account = some positions) {existing : List (PerpetualPosition F D)} :
    ¬ Revives toLowercase address s (s.complete toLowercase address message existing) := by
  rintro ⟨id, hnone, hsome, hnot⟩
  rcases isSome_lookup_complete.mp hsome with hmem | ⟨-, hold⟩
  · rw [ids_diff_of_account h] at hmem
    obtain ⟨p, hp, rfl⟩ := List.mem_map.mp hmem
    refine hnot p ?_ rfl
    rw [State.complete, h]
    exact hp
  · exact absurd hold (by simp [hnone])

/-- **One step**: no position comes back if and only if the rows that a handler of open orders
writes are still there. -/
theorem not_revives_iff (h : Stored toLowercase address s)
    (hstep : step toLowercase address s e = some s') :
    ¬ Revives toLowercase address s s' ↔ StillThere toLowercase s e := by
  rcases step_cases hstep with ⟨message, rfl, rfl⟩ | ⟨j, message, rfl, -, rfl⟩ |
    ⟨j, message, existing, rfl, hj, rfl⟩ | ⟨j, handler, rfl, -, rfl⟩
  · refine iff_of_true ?_ trivial
    rintro ⟨id, hnone, hsome, -⟩
    exact absurd hsome (by simp [hnone])
  · refine iff_of_true ?_ trivial
    rintro ⟨id, hnone, hsome, -⟩
    exact absurd hsome (by simp [State.setStage, hnone])
  · cases message with
    | openOrders orders =>
      constructor
      · intro hno orders' existing' hj' row hrow
        rw [hj] at hj'
        cases hj'
        by_contra hgone
        have hnone : s.rows.lookup row.id = none := by simpa using hgone
        refine hno ⟨row.id, hnone, isSome_lookup_openOrders.mpr (.inl (List.mem_map_of_mem hrow)), ?_⟩
        intro p hp hid
        have hstored := h p hp
        rw [hid, hnone] at hstored
        cases hstored
      · rintro hstill ⟨id, hnone, hsome, -⟩
        rcases isSome_lookup_openOrders.mp hsome with hmem | hold
        · obtain ⟨row, hrow, rfl⟩ := List.mem_map.mp hmem
          exact absurd (hstill orders existing hj row hrow) (by simp [hnone])
        · exact absurd hold (by simp [hnone])
    | accountState positions | sync positions orders =>
      refine iff_of_true (not_revives_of_account rfl) fun orders existing' hj' => ?_
      rw [hj] at hj'
      cases hj'
  · refine iff_of_true ?_ trivial
    rintro ⟨id, hnone, hsome, -⟩
    exact absurd hsome (by simp [State.setStage, hnone])

/-- The store has no position that the latest completed account state does not contain. -/
def Contained (toLowercase : String → String) (address : String) (s : State F D) : Prop :=
  ∀ id, (s.rows.lookup id).isSome = true →
    ∃ p ∈ s.account, positionId toLowercase address p.coin = id

omit [DecidableEq F] in
lemma contained_start (orders : List (OpenOrder F)) (account : List (Position D)) :
    Contained toLowercase address (State.start toLowercase address orders account) := by
  intro id hid
  rw [State.start, lookup_expected, Option.isSome_map] at hid
  obtain ⟨p, hp⟩ := Option.isSome_iff_exists.mp hid
  exact ⟨p, mem_of_lookup_byId hp⟩

/-- A step with neither a stale row nor a stale difference. -/
lemma Contained.step (h : Contained toLowercase address s) (hstill : StillThere toLowercase s e)
    (hundisturbed : Undisturbed toLowercase address s e)
    (hstep : step toLowercase address s e = some s') : Contained toLowercase address s' := by
  rcases step_cases hstep with ⟨message, rfl, rfl⟩ | ⟨j, message, rfl, -, rfl⟩ |
    ⟨j, message, existing, rfl, hj, rfl⟩ | ⟨j, handler, rfl, -, rfl⟩
  · exact h
  · exact h
  · cases hmessage : message.account with
    | some positions =>
      intro id hid
      have haccount : ((s.complete toLowercase address message existing).setStage j
          ⟨message, .read existing⟩ .over).account = positions := by
        rw [State.setStage, State.complete, hmessage]
        rfl
      rw [haccount]
      by_cases hmem : id ∈ (message.diff toLowercase address existing).positions.map (·.id)
      · rw [ids_diff_of_account hmessage] at hmem
        obtain ⟨p, hp, rfl⟩ := List.mem_map.mp hmem
        exact ⟨p, hp, rfl⟩
      · obtain ⟨hkept, hold⟩ := (isSome_lookup_complete.mp hid).resolve_left hmem
        rcases hundisturbed message existing positions hj hmessage id hold with hp | hread
        · exact hp
        · exact absurd (mem_delete_of_account hmessage hread hmem) hkept
    | none =>
      cases message with
      | accountState positions => cases hmessage
      | openOrders orders =>
        intro id hid
        rcases isSome_lookup_openOrders.mp hid with hmem | hold
        · obtain ⟨row, hrow, rfl⟩ := List.mem_map.mp hmem
          exact h row.id (hstill orders existing hj row hrow)
        · exact h id hold
      | sync positions orders => cases hmessage
  · exact h

/-- **Handlers at the same time**: no position comes back in a run if and only if each handler of
open orders writes only rows that are still there. -/
theorem revives_iff (h : Stored toLowercase address s) (events : List (Event F D)) :
    (∀ before e after s₁ s₂, events = before ++ e :: after →
      runEvents (step toLowercase address) s before = some s₁ →
      step toLowercase address s₁ e = some s₂ → ¬ Revives toLowercase address s₁ s₂) ↔
    Along (step toLowercase address) (StillThere toLowercase) s events := by
  constructor
  · intro hno
    induction events generalizing s with
    | nil => trivial
    | cons e events ih =>
      have hstill : ∀ s₂, step toLowercase address s e = some s₂ → StillThere toLowercase s e :=
        fun s₂ hs₂ => (not_revives_iff h hs₂).mp (hno [] e events s s₂ rfl rfl hs₂)
      refine ⟨?_, fun s₁ hs₁ => ih (h.step hs₁) ?_⟩
      · cases e with
        | receive message | read j | fail j => trivial
        | write j =>
          intro orders existing hj
          have hsome : (step toLowercase address s (.write j)).isSome = true := by simp [step, hj]
          obtain ⟨s₂, hs₂⟩ := Option.isSome_iff_exists.mp hsome
          exact hstill s₂ hs₂ orders existing hj
      · intro before e' after s₂ s₃ heq hrun hs₃
        refine hno (e :: before) e' after s₂ s₃ (by rw [heq]; rfl) ?_ hs₃
        exact runEvents_cons_eq_some.mpr ⟨s₁, hs₁, hrun⟩
  · rintro halong before e after s₁ s₂ rfl hrun hstep
    have hstored : Stored toLowercase address s₁ :=
      runEvents_invariant (P := fun _ _ => True) (fun _ _ _ hI _ hs => hI.step hs) h
        (.of_forall (fun _ _ => trivial) _ _) hrun
    exact (not_revives_iff hstored hstep).mpr (halong.of_append hrun).1

end Concurrent

/-- **The stored positions converge to the state of the exchange** as far as the handlers go.

Messages handled one after the other leave the positions of the latest account state with the levels
of the latest orders exactly if no position is new to the store while the latest orders have levels
for it, and the coins of the rows are read back. Handlers at the same time bring no closed position
back exactly if no handler of open orders writes a row that is gone, and the store has no other
positions than those of the latest completed account state if also no row was added that a handler of
an account state has not read. -/
theorem positions_converge [DecidableEq F] (toLowercase : String → String) (address : String)
    (orders : List (OpenOrder F)) (account : List (Position D)) :
    (∀ messages : List (Message F D),
      (∀ before after s, messages = before ++ after →
        runEvents (handled toLowercase address) (.start toLowercase address orders account) before
          = some s → Exact toLowercase address s) ↔
      Along (handled toLowercase address) (Supplied toLowercase address)
        (.start toLowercase address orders account) messages) ∧
    (∀ events : List (Event F D),
      (∀ before e after s s', events = before ++ e :: after →
        runEvents (step toLowercase address) (.start toLowercase address orders account) before
          = some s → step toLowercase address s e = some s' → ¬ Revives toLowercase address s s') ↔
      Along (step toLowercase address) (StillThere toLowercase)
        (.start toLowercase address orders account) events) ∧
    (∀ (events : List (Event F D)) (s : State F D),
      Along (step toLowercase address)
        (fun s e => StillThere toLowercase s e ∧ Undisturbed toLowercase address s e)
        (.start toLowercase address orders account) events →
      runEvents (step toLowercase address) (.start toLowercase address orders account) events
        = some s → Contained toLowercase address s) := by
  have hexact : Exact toLowercase address (.start toLowercase address orders account) :=
    fun id => rfl
  refine ⟨fun messages => exact_iff_supplied hexact messages,
    fun events => revives_iff (stored_start orders account) events, fun events s halong hrun => ?_⟩
  exact runEvents_invariant (fun _ _ _ hI hP hs => hI.step hP.1 hP.2 hs)
    (contained_start orders account) halong hrun

/-- A take-profit order at a price of 7 for the position of `BTC`. -/
def takeProfitOrder : OpenOrder ℕ :=
  { coin := "BTC", oid := 1, triggerPx := some 7, limitPx := none, isPositionTpsl := true
    orderType := "take profit market" }

/-- The position of `BTC`. -/
def bitcoin : Position Unit := { coin := "BTC", details := () }

/-- The orders come before the position: the position is stored without its take profit. -/
def ordersFirst : List (Message ℕ Unit) :=
  [.openOrders [takeProfitOrder], .accountState [bitcoin]]

/-- The position is closed while the open orders are handled. -/
def closedMeanwhile : List (Event ℕ Unit) :=
  [.receive (.openOrders [takeProfitOrder]), .read 0, .receive (.accountState []), .read 1, .write 1]

/-- A position that comes after its orders is stored without levels, and a position that is closed
while the open orders are handled comes back. -/
theorem positions_diverge :
    (∃ s, runEvents (handled id "0xa") (.start id "0xa" [] []) ordersFirst = some s ∧
      ¬ Exact id "0xa" s) ∧
    ∃ s s', runEvents (step id "0xa") (.start id "0xa" [] [bitcoin]) closedMeanwhile = some s ∧
      step id "0xa" s (.write 0) = some s' ∧ s.account.length = 0 ∧ Revives id "0xa" s s' := by
  constructor
  · refine ⟨_, rfl, fun h => ?_⟩
    have hrow := congrArg (Option.map PerpetualPosition.levels) (h "0xa_BTC")
    exact absurd hrow (by decide +kernel)
  · refine ⟨_, _, rfl, rfl, rfl, "0xa_BTC", ?_, ?_, ?_⟩
    · rfl
    · rfl
    · intro p hp
      cases hp

end GemCore.Perpetual

import GemCore.Lib.Owned
import GemCore.Sui.TransactionJson
import Mathlib.Algebra.BigOperators.Group.List.Basic

/-!
# Executing a programmable transaction

What the Sui network does with the commands of a transaction that moves coins. Each value has its type,
and is used exactly once: a coin, a balance, or a value of a program that is called; only integers may
be read several times, and left behind. The objects that pay for the gas are merged into the gas coin,
of which the budget is reserved; coins are split and merged without loss; a withdrawal takes funds of
the address.

Values are unbounded: the supply of a coin fits a `u64`.

## Main definitions

* `Transaction`, `Funds` — what is executed, and the funds of the address.
* `Item`, `Holdings` — values, and the state of an execution.
* `Environment`, `exec`, `execAll` — the execution, with the funds and the programs that are called.
* `start`, `Executes` — a whole transaction, and that it does not fail.
* `Snapshot`, `Reach`, `Fails` — what is held after some commands.

## Main results

* `Reach.split`, `Reach.mergeAll`, `Reach.send` and the like — what each command does with what is
  held.
* `start_payments` — the gas coin of objects that are there.
-/

namespace GemCore.Sui

open Lib

variable {ρ : Type}

/-! ## Targets -/

/-- `ObjectId::from` of a byte. -/
def byteAddress (byte : UInt8) : Address := ⟨List.replicate 31 0 ++ [byte], rfl⟩

/-- `sui_framework_package_address`. -/
def suiFrameworkPackageAddress : Address := byteAddress 2

/-- `sui_system_package_address`. -/
def suiSystemPackageAddress : Address := byteAddress 3

/-- `sui_system_state_object_input`. -/
def suiSystemStateObjectInput : ObjectInput := .shared (byteAddress 5) 1 true

/-- The function that turns a withdrawal into a coin. -/
def redeemFunds (coinType : TypeTag) : Function :=
  ⟨suiFrameworkPackageAddress, "coin", "redeem_funds", [coinType]⟩

/-- The function that stakes a coin. -/
def requestAddStake : Function := ⟨suiSystemPackageAddress, "sui_system", "request_add_stake", []⟩

/-! ## Values -/

/-- A `Transaction`, as far as it moves coins. -/
structure Transaction where
  commands : List (Command Ref)
  gasObjects : List ObjectInput
  gasBudget : UInt64

/-- The funds of an address that belong to no object, and their type if there is one. -/
structure Funds where
  coinType : Option TypeTag
  balance : ℕ

/-- The integer of an argument. -/
def amountOf : Ref → Option ℕ
  | .pure bytes => if bytes.length = 8 then some (ofLe bytes) else none
  | _ => none

/-- The address of an argument. -/
def addressOf : Ref → Option Address
  | .pure bytes => if h : bytes.length = 32 then some ⟨bytes, h⟩ else none
  | _ => none

/-- A value. `ρ` are those of the programs that are called. -/
inductive Item (ρ : Type) where
  | coin (coinType : TypeTag) (value : ℕ)
  | balance (coinType : TypeTag) (value : ℕ)
  | number (value : ℕ)
  | resource (resource : ρ)

/-- Integers may be left behind. -/
def Item.IsNumber : Item ρ → Prop
  | .number _ => True
  | .coin _ _ | .balance _ _ | .resource _ => False

/-- **The state of an execution**: the values that there are, what has been withdrawn, received and
staked, and how often programs have been called. -/
structure Holdings (ρ : Type) where
  items : Ref → Option (Item ρ)
  withdrawn : ℕ
  received : List (Address × TypeTag × ℕ)
  staked : List (Address × TypeTag × ℕ)
  calls : ℕ

namespace Holdings

variable (h : Holdings ρ)

/-- There is a value. -/
def put (ref : Ref) (item : Item ρ) : Holdings ρ :=
  { h with items := Function.update h.items ref (some item) }

/-- There is none any more. -/
def drop (ref : Ref) : Holdings ρ := { h with items := Function.update h.items ref none }

/-- The results of a command, from this one on. -/
def putResults (index : ℕ) : ℕ → List (Item ρ) → Holdings ρ → Holdings ρ
  | _, [], h => h
  | nested, item :: items, h => putResults index (nested + 1) items (h.put (.nested index nested) item)

/-- The integer of an argument. -/
def numberOf : Ref → Option ℕ
  | .pure bytes => amountOf (.pure bytes)
  | ref =>
    match h.items ref with
    | some (.number value) => some value
    | _ => none

/-- Split values off a coin. -/
def split (index : ℕ) (coin : Ref) (amounts : List ℕ) : Option (Holdings ρ) :=
  match h.items coin with
  | some (.coin coinType value) =>
    if amounts.sum ≤ value then
      some (putResults index 0 (amounts.map (.coin coinType))
        (h.put coin (.coin coinType (value - amounts.sum))))
    else none
  | _ => none

/-- Add a coin to another one of its type. -/
def merge (destination source : Ref) : Option (Holdings ρ) :=
  match h.items source, (h.drop source).items destination with
  | some (.coin coinType value), some (.coin coinType' balance) =>
    if coinType' = coinType then
      some ((h.drop source).put destination (.coin coinType (balance + value)))
    else none
  | _, _ => none

/-- Add the coins of a list to another one. -/
def mergeAll (destination : Ref) : List Ref → Holdings ρ → Option (Holdings ρ)
  | [], h => some h
  | source :: sources, h => (h.merge destination source).bind (mergeAll destination sources)

/-- Send the coins of a list to an address. -/
def sendAll (address : Address) : List Ref → Holdings ρ → Option (Holdings ρ)
  | [], h => some h
  | object :: objects, h =>
    match h.items object with
    | some (.coin coinType value) =>
      sendAll address objects
        { h.drop object with received := h.received ++ [(address, coinType, value)] }
    | _ => none

/-- Stake a coin. -/
def stake (coin : Ref) (validator : Address) : Option (Holdings ρ) :=
  match h.items coin with
  | some (.coin coinType value) =>
    some { h.drop coin with staked := h.staked ++ [(validator, coinType, value)] }
  | _ => none

/-- The call that stakes a coin. -/
def stakeCall : List Ref → Option (Holdings ρ)
  | [state, coin, validator] =>
    if state = .object suiSystemStateObjectInput.reference then
      (addressOf validator).bind (h.stake coin)
    else none
  | _ => none

/-- **The functions of the framework** on coins and balances. -/
def frameworkCall (funds : Funds) (index : ℕ) (module function : String) (typeArgs : List TypeTag)
    (arguments : List Ref) : Option (Holdings ρ) :=
  match module, function, typeArgs, arguments with
  | "coin", "redeem_funds", [coinType], [.withdrawal coinType' amount] =>
    if coinType' = coinType ∧ funds.coinType = some coinType ∧
        h.withdrawn + amount.toNat ≤ funds.balance then
      some { h.put (.result index) (.coin coinType amount.toNat) with
        withdrawn := h.withdrawn + amount.toNat }
    else none
  | "coin", "zero", [coinType], [] => some (h.put (.result index) (.coin coinType 0))
  | "coin", "into_balance", [coinType], [coin] =>
    match h.items coin with
    | some (.coin coinType' value) =>
      if coinType' = coinType then
        some ((h.drop coin).put (.result index) (.balance coinType value))
      else none
    | _ => none
  | "coin", "from_balance", [coinType], [balance] =>
    match h.items balance with
    | some (.balance coinType' value) =>
      if coinType' = coinType then
        some ((h.drop balance).put (.result index) (.coin coinType value))
      else none
    | _ => none
  | "balance", "zero", [coinType], [] => some (h.put (.result index) (.balance coinType 0))
  | "balance", "value", [coinType], [balance] =>
    match h.items balance with
    | some (.balance coinType' value) =>
      if coinType' = coinType then some (h.put (.result index) (.number value)) else none
    | _ => none
  | "balance", "destroy_zero", [coinType], [balance] =>
    match h.items balance with
    | some (.balance coinType' value) =>
      if coinType' = coinType ∧ value = 0 then some (h.drop balance) else none
    | _ => none
  | _, _, _, _ => none

end Holdings

/-! ## Commands -/

/-- The funds of the address, and the programs that are called, by the number of the command. -/
structure Environment (ρ : Type) where
  funds : Funds
  program : ℕ → Function → List Ref → Holdings ρ → Option (Holdings ρ)

/-- **One command**, with its number. -/
def exec (env : Environment ρ) (index : ℕ) (command : Command Ref) (h : Holdings ρ) :
    Option (Holdings ρ) :=
  match command with
  | .splitCoins coin amounts => (amounts.mapM h.numberOf).bind (h.split index coin)
  | .mergeCoins destination sources => h.mergeAll destination sources
  | .transferObjects objects address => (addressOf address).bind fun address =>
    h.sendAll address objects
  | .moveCall function arguments =>
    if function.package = suiFrameworkPackageAddress then
      h.frameworkCall env.funds index function.module function.function function.typeArgs arguments
    else if function = requestAddStake then h.stakeCall arguments
    else env.program index function arguments h
  | .makeMoveVec _ _ => none

/-- **The commands**, from the one with this number on. -/
def execAll (env : Environment ρ) : ℕ → List (Command Ref) → Holdings ρ → Option (Holdings ρ)
  | _, [], h => some h
  | index, command :: commands, h =>
    (exec env index command h).bind (execAll env (index + 1) commands)

/-- The commands of two parts. -/
lemma execAll_append (env : Environment ρ) (index : ℕ) (first second : List (Command Ref))
    (h : Holdings ρ) :
    execAll env index (first ++ second) h =
      (execAll env index first h).bind (execAll env (index + first.length) second) := by
  induction first generalizing index h with
  | nil => rfl
  | cons command first ih =>
    rw [List.cons_append, execAll, execAll, Option.bind_assoc]
    refine congrArg _ (funext fun h' => ?_)
    rw [ih, List.length_cons, Nat.add_right_comm, Nat.add_assoc]

/-! ## Transactions -/

/-- The input of a coin. -/
def Coin.ref (coin : Coin) : Ref := .object coin.toInput.reference

/-- A coin object, as it is held. -/
def Coin.held (coinType : TypeTag) (coin : Coin) : Ref × Item ρ :=
  (coin.ref, .coin coinType coin.balance.toNat)

/-- The total worth of coin objects. -/
def worth (coins : List Coin) : ℕ := (coins.map fun coin => coin.balance.toNat).sum

/-- The coin that is referred to. -/
def findCoin (coins : List Coin) (objectId : Address) (version : UInt64) (digest : Digest) :
    Option Coin :=
  coins.find? fun coin =>
    coin.objectId = objectId ∧ coin.version = version ∧ coin.digest = digest

/-- The value of an object that pays for the gas. -/
def paymentBalance (coins : List Coin) : ObjectInput → Option ℕ
  | .owned objectId version digest | .immutable objectId version digest =>
    (findCoin coins objectId version digest).map fun coin => coin.balance.toNat
  | .shared _ _ _ | .receiving _ _ _ => none

/-- The values at the start: the gas coin, and the objects that do not pay. -/
def initialItems (sui coinType : TypeTag) (coins : List Coin) (payments : List Address) (gas : ℕ) :
    List (Ref × Item ρ) :=
  (.gas, .coin sui gas) ::
    (coins.filter fun coin => coin.objectId ∉ payments).map (Coin.held coinType)

/-- **The start**: the objects that pay are the gas coin, and the budget is reserved from it. -/
def start (sui coinType : TypeTag) (transaction : Transaction) (coins : List Coin) :
    Option (Holdings ρ) := do
  let payments := transaction.gasObjects.map ObjectInput.objectId
  let balances ← transaction.gasObjects.mapM (paymentBalance coins)
  if payments.Nodup ∧ transaction.gasBudget.toNat ≤ balances.sum then
    some ⟨storeOf (initialItems sui coinType coins payments
      (balances.sum - transaction.gasBudget.toNat)), 0, [], [], 0⟩
  else none

/-- **The transaction does not fail**, and this is what there is after it: no result is left but
integers. -/
def Executes (env : Environment ρ) (sui coinType : TypeTag) (transaction : Transaction)
    (coins : List Coin) (h : Holdings ρ) : Prop :=
  ∃ h₀, start sui coinType transaction coins = some h₀ ∧
    execAll env 0 transaction.commands h₀ = some h ∧
    ∀ ref, ref.command? ≠ none → ∀ item, h.items ref = some item → item.IsNumber

/-! ## What is held -/

/-- What is held, in any order, and what has been withdrawn, received, staked and called. -/
structure Snapshot (ρ : Type) where
  live : List (Ref × Item ρ)
  withdrawn : ℕ
  received : List (Address × TypeTag × ℕ)
  staked : List (Address × TypeTag × ℕ)
  calls : ℕ

/-- **This is what is held** after as many commands. -/
structure Snapshot.Of (snap : Snapshot ρ) (index : ℕ) (h : Holdings ρ) : Prop where
  owns : Owns snap.live h.items
  below : ∀ ref ∈ snap.live.map Prod.fst, ∀ command, ref.command? = some command → command < index
  withdrawn : h.withdrawn = snap.withdrawn
  received : h.received = snap.received
  staked : h.staked = snap.staked
  calls : h.calls = snap.calls

namespace Snapshot.Of

variable {snap : Snapshot ρ} {index : ℕ} {h : Holdings ρ} {rest : List (Ref × Item ρ)} {ref : Ref}
  {item : Item ρ}

/-- More commands may be there. -/
lemma mono (hof : snap.Of index h) {index' : ℕ} (hle : index ≤ index') : snap.Of index' h :=
  { hof with below := fun ref hmem command href =>
      (hof.below ref hmem command href).trans_le hle }

/-- The order does not matter. -/
lemma perm (hof : snap.Of index h) {live : List (Ref × Item ρ)} (hperm : snap.live.Perm live) :
    { snap with live := live }.Of index h :=
  { hof with
    owns := hof.owns.perm hperm
    below := fun ref hmem => hof.below ref ((hperm.map Prod.fst).mem_iff.mpr hmem) }

/-- The result of a command is not there before it. -/
lemma not_mem (hof : snap.Of index h) (href : ref.command? = some index) :
    ref ∉ snap.live.map Prod.fst := fun hmem =>
  lt_irrefl index (hof.below ref hmem index href)

/-- A value is put. -/
lemma put (hof : snap.Of index h) (hnew : ref ∉ snap.live.map Prod.fst)
    (hbelow : ∀ command, ref.command? = some command → command < index) (item : Item ρ) :
    { snap with live := (ref, item) :: snap.live }.Of index (h.put ref item) where
  owns := hof.owns.put hnew item
  below ref' hmem := by
    rcases List.mem_cons.mp hmem with rfl | hmem
    · exact hbelow
    · exact hof.below ref' hmem
  withdrawn := hof.withdrawn
  received := hof.received
  staked := hof.staked
  calls := hof.calls

/-- The result of a command is put. -/
lemma result (hof : snap.Of index h) (item : Item ρ) :
    { snap with live := (.result index, item) :: snap.live }.Of (index + 1)
      (h.put (.result index) item) := by
  refine (hof.mono (Nat.le_succ index)).put (hof.not_mem rfl) (fun command href => ?_) item
  obtain rfl := Option.some.inj href
  exact Nat.lt_succ_self _

lemma get (hof : snap.Of index h) (hperm : snap.live.Perm ((ref, item) :: rest)) :
    h.items ref = some item := (hof.owns.perm hperm).get

/-- A value is taken. -/
lemma drop (hof : snap.Of index h) (hperm : snap.live.Perm ((ref, item) :: rest)) :
    { snap with live := rest }.Of index (h.drop ref) where
  owns := (hof.owns.perm hperm).take
  below ref' hmem := hof.below ref'
    ((hperm.map Prod.fst).mem_iff.mpr (List.mem_cons_of_mem _ hmem))
  withdrawn := hof.withdrawn
  received := hof.received
  staked := hof.staked
  calls := hof.calls

/-- A value is replaced. -/
lemma set (hof : snap.Of index h) (hperm : snap.live.Perm ((ref, item) :: rest))
    (item' : Item ρ) :
    { snap with live := (ref, item') :: rest }.Of index (h.put ref item') where
  owns := (hof.owns.perm hperm).set item'
  below ref' hmem := hof.below ref' ((hperm.map Prod.fst).mem_iff.mpr hmem)
  withdrawn := hof.withdrawn
  received := hof.received
  staked := hof.staked
  calls := hof.calls

end Snapshot.Of

section Reach

variable (env : Environment ρ) (h₀ : Holdings ρ)

/-- **The commands lead to this.** -/
def Reach (commands : List (Command Ref)) (snap : Snapshot ρ) : Prop :=
  ∃ h, execAll env 0 commands h₀ = some h ∧ snap.Of commands.length h

/-- The commands fail. -/
def Fails (commands : List (Command Ref)) : Prop := execAll env 0 commands h₀ = none

end Reach

variable {env : Environment ρ} {h₀ : Holdings ρ} {commands : List (Command Ref)} {snap : Snapshot ρ}

/-- Commands that fail, and more of them. -/
lemma Fails.append (h : Fails env h₀ commands) (more : List (Command Ref)) :
    Fails env h₀ (commands ++ more) := by
  rw [Fails, execAll_append, h]
  rfl

/-- Commands that fail, and a run that goes on. -/
lemma Fails.grow {ε α : Type} {x : Build (List (Command Ref)) ε α} {commands' : List (Command Ref)}
    {a : α} (h : Fails env h₀ commands) (hgrows : x.Grows) (hrun : x commands = .ok (a, commands')) :
    Fails env h₀ commands' := by
  obtain ⟨more, rfl⟩ := hgrows commands a commands' hrun
  exact h.append more

namespace Reach

variable {rest : List (Ref × Item ρ)} {coinType : TypeTag} {value : ℕ} {ref : Ref}

/-- One command more. -/
lemma step (h : Reach env h₀ commands snap) {command : Command Ref} {snap' : Snapshot ρ}
    (hstep : ∀ held, snap.Of commands.length held → ∃ held',
      exec env commands.length command held = some held' ∧ snap'.Of (commands.length + 1) held') :
    Reach env h₀ (commands ++ [command]) snap' := by
  obtain ⟨held, hrun, hof⟩ := h
  obtain ⟨held', hexec, hof'⟩ := hstep held hof
  refine ⟨held', ?_, ?_⟩
  · rw [execAll_append, hrun, Option.bind_some, Nat.zero_add, execAll, hexec]
    rfl
  · rw [List.length_append]
    exact hof'

/-- One command that fails. -/
lemma fails (h : Reach env h₀ commands snap) {command : Command Ref}
    (hstep : ∀ held, snap.Of commands.length held →
      exec env commands.length command held = none) :
    Fails env h₀ (commands ++ [command]) := by
  obtain ⟨held, hrun, hof⟩ := h
  rw [Fails, execAll_append, hrun, Option.bind_some, Nat.zero_add, execAll, hstep held hof]
  rfl

/-- The order does not matter. -/
lemma perm (h : Reach env h₀ commands snap) {live : List (Ref × Item ρ)}
    (hperm : snap.live.Perm live) : Reach env h₀ commands { snap with live := live } := by
  obtain ⟨held, hrun, hof⟩ := h
  exact ⟨held, hrun, hof.perm hperm⟩

/-! ### Coins -/

/-- The integer of an amount. -/
lemma numberOf_pure (held : Holdings ρ) (amount : UInt64) :
    held.numberOf (.pure (leBytes 8 amount.toNat)) = some amount.toNat := by
  show amountOf (.pure (leBytes 8 amount.toNat)) = _
  rw [amountOf, if_pos (length_leBytes 8 _), ofLe_leBytes_of_lt amount.toNat_lt]

lemma exec_split (held : Holdings ρ) (index : ℕ) (coin : Ref) (amount : UInt64) :
    exec env index (.splitCoins coin [.pure (leBytes 8 amount.toNat)]) held =
      held.split index coin [amount.toNat] := by
  rw [exec, mapM_eq_some_of_forall₂ (List.Forall₂.cons (numberOf_pure held amount) .nil)]
  rfl

/-- **An amount is split off a coin that holds it.** -/
theorem split (h : Reach env h₀ commands snap)
    (hperm : snap.live.Perm ((ref, .coin coinType value) :: rest)) {amount : UInt64}
    (hle : amount.toNat ≤ value) :
    Reach env h₀ (commands ++ [.splitCoins ref [.pure (leBytes 8 amount.toNat)]])
      { snap with live := (.nested commands.length 0, .coin coinType amount.toNat) ::
          (ref, .coin coinType (value - amount.toNat)) :: rest } := by
  refine h.step fun held hof =>
    ⟨(held.put ref (.coin coinType (value - amount.toNat))).put (.nested commands.length 0)
      (.coin coinType amount.toNat), ?_, ?_⟩
  · rw [exec_split, Holdings.split, hof.get hperm]
    show (if [amount.toNat].sum ≤ value then _ else none) = _
    rw [List.sum_singleton, if_pos hle]
    rfl
  · have hset := hof.set hperm (.coin coinType (value - amount.toNat))
    refine (hset.mono (Nat.le_succ _)).put (hset.not_mem rfl) (fun command href => ?_) _
    obtain rfl := Option.some.inj href
    exact Nat.lt_succ_self _

/-- No amount is split off a coin that does not hold it. -/
lemma fails_split (h : Reach env h₀ commands snap)
    (hperm : snap.live.Perm ((ref, .coin coinType value) :: rest)) {amount : UInt64}
    (hlt : value < amount.toNat) :
    Fails env h₀ (commands ++ [.splitCoins ref [.pure (leBytes 8 amount.toNat)]]) := by
  refine h.fails fun held hof => ?_
  rw [exec_split, Holdings.split, hof.get hperm]
  show (if [amount.toNat].sum ≤ value then _ else none) = _
  rw [List.sum_singleton, if_neg (not_le_of_gt hlt)]

/-- **A coin is sent.** -/
theorem send (h : Reach env h₀ commands snap)
    (hperm : snap.live.Perm ((ref, .coin coinType value) :: rest)) (address : Address) :
    Reach env h₀ (commands ++ [.transferObjects [ref] (.pure address.val)])
      { snap with
        live := rest, received := snap.received ++ [(address, coinType, value)] } := by
  refine h.step fun held hof =>
    ⟨{ held.drop ref with received := held.received ++ [(address, coinType, value)] }, ?_, ?_⟩
  · show (addressOf (.pure address.val)).bind _ = _
    rw [addressOf, dif_pos address.property, Option.bind_some, Holdings.sendAll, hof.get hperm]
    rfl
  · have hdrop := (hof.drop hperm).mono (Nat.le_succ _)
    exact { hdrop with received := congrArg (· ++ [(address, coinType, value)]) hof.received }

/-- **A coin is staked.** -/
theorem stake (h : Reach env h₀ commands snap)
    (hperm : snap.live.Perm ((ref, .coin coinType value) :: rest)) (validator : Address) :
    Reach env h₀ (commands ++ [.moveCall requestAddStake
        [.object suiSystemStateObjectInput.reference, ref, .pure validator.val]])
      { snap with
        live := rest, staked := snap.staked ++ [(validator, coinType, value)] } := by
  refine h.step fun held hof =>
    ⟨{ held.drop ref with staked := held.staked ++ [(validator, coinType, value)] }, ?_, ?_⟩
  · have hpackage : requestAddStake.package ≠ suiFrameworkPackageAddress := by decide
    rw [exec, if_neg hpackage, if_pos rfl, Holdings.stakeCall, if_pos rfl, addressOf,
      dif_pos validator.property, Option.bind_some, Holdings.stake, hof.get hperm]
  · have hdrop := (hof.drop hperm).mono (Nat.le_succ _)
    exact { hdrop with staked := congrArg (· ++ [(validator, coinType, value)]) hof.staked }

/-- A coin is merged into another one. -/
lemma merge_eq {held : Holdings ρ} {index : ℕ} {destination source : Ref} {w v : ℕ}
    (hof : snap.Of index held) (hperm : snap.live.Perm
      ((source, .coin coinType v) :: (destination, .coin coinType w) :: rest)) :
    ∃ held', held.merge destination source = some held' ∧
      { snap with live := (destination, .coin coinType (w + v)) :: rest }.Of index held' := by
  have hdrop := hof.drop hperm
  refine ⟨_, ?_, hdrop.set (List.Perm.refl _) (.coin coinType (w + v))⟩
  rw [Holdings.merge, hof.get hperm, hdrop.get (List.Perm.refl _)]
  exact if_pos rfl

/-- **Coins are merged into one.** -/
theorem mergeAll (h : Reach env h₀ commands snap) {destination : Ref} {w : ℕ}
    {sources : List (Ref × ℕ)}
    (hperm : snap.live.Perm ((destination, .coin coinType w) ::
      (sources.map fun source => (source.1, .coin coinType source.2)) ++ rest)) :
    Reach env h₀ (commands ++ [.mergeCoins destination (sources.map Prod.fst)])
      { snap with
        live := (destination, .coin coinType (w + (sources.map Prod.snd).sum)) :: rest } := by
  refine h.step fun held hof => ?_
  have hall : ∀ (sources : List (Ref × ℕ)) (snap : Snapshot ρ) (held : Holdings ρ) (w : ℕ),
      snap.Of commands.length held →
      snap.live.Perm ((destination, .coin coinType w) ::
        (sources.map fun source => (source.1, .coin coinType source.2)) ++ rest) →
      ∃ held', held.mergeAll destination (sources.map Prod.fst) = some held' ∧
        { snap with live := (destination, .coin coinType (w + (sources.map Prod.snd).sum)) ::
          rest }.Of commands.length held' := by
    intro sources
    induction sources with
    | nil =>
      intro snap held w hof hperm
      exact ⟨held, rfl, hof.perm hperm⟩
    | cons source sources ih =>
      intro snap held w hof hperm
      obtain ⟨held₁, hmerge, hof₁⟩ :=
        merge_eq hof (hperm.trans (List.Perm.swap _ _ _))
      obtain ⟨held₂, hmergeAll, hof₂⟩ := ih _ held₁ _ hof₁ (List.Perm.refl _)
      refine ⟨held₂, ?_, ?_⟩
      · rw [List.map_cons, Holdings.mergeAll, hmerge]
        exact hmergeAll
      · rw [Nat.add_assoc] at hof₂
        exact hof₂
  obtain ⟨held', hmerge, hof'⟩ := hall sources snap held w hof hperm
  exact ⟨held', hmerge, hof'.mono (Nat.le_succ _)⟩

/-- One coin is merged into another one. -/
lemma merge (h : Reach env h₀ commands snap) {destination source : Ref} {w v : ℕ}
    (hperm : snap.live.Perm
      ((destination, .coin coinType w) :: (source, .coin coinType v) :: rest)) :
    Reach env h₀ (commands ++ [.mergeCoins destination [source]])
      { snap with live := (destination, .coin coinType (w + v)) :: rest } := by
  have hmerge := @mergeAll _ _ _ _ _ rest coinType h destination w [(source, v)] hperm
  exact hmerge

/-! ### The functions of the framework -/

lemma exec_framework (held : Holdings ρ) (index : ℕ) (module function : String)
    (arguments : List Ref) :
    exec env index (.moveCall ⟨suiFrameworkPackageAddress, module, function, [coinType]⟩ arguments)
      held = held.frameworkCall env.funds index module function [coinType] arguments := by
  rw [exec, if_pos rfl]

/-- **A withdrawal is turned into a coin.** -/
theorem redeem (h : Reach env h₀ commands snap) (htype : env.funds.coinType = some coinType)
    {amount : UInt64} (hle : snap.withdrawn + amount.toNat ≤ env.funds.balance) :
    Reach env h₀ (commands ++ [.moveCall (redeemFunds coinType) [.withdrawal coinType amount]])
      { snap with
        live := (.result commands.length, .coin coinType amount.toNat) :: snap.live
        withdrawn := snap.withdrawn + amount.toNat } := by
  refine h.step fun held hof =>
    ⟨{ held.put (.result commands.length) (.coin coinType amount.toNat) with
      withdrawn := held.withdrawn + amount.toNat }, ?_, ?_⟩
  · rw [redeemFunds, exec_framework, Holdings.frameworkCall, hof.withdrawn,
      if_pos ⟨rfl, htype, hle⟩]
  · have hput := hof.result (.coin coinType amount.toNat)
    exact { hput with withdrawn := congrArg (· + amount.toNat) hof.withdrawn }

/-- A coin of no value. -/
lemma coinZero (h : Reach env h₀ commands snap) :
    Reach env h₀
      (commands ++ [.moveCall ⟨suiFrameworkPackageAddress, "coin", "zero", [coinType]⟩ []])
      { snap with live := (.result commands.length, .coin coinType 0) :: snap.live } :=
  h.step fun held hof => ⟨_, (exec_framework held _ _ _ _).trans rfl, hof.result (.coin coinType 0)⟩

/-- A coin becomes a balance. -/
lemma intoBalance (h : Reach env h₀ commands snap)
    (hperm : snap.live.Perm ((ref, .coin coinType value) :: rest)) :
    Reach env h₀
      (commands ++
        [.moveCall ⟨suiFrameworkPackageAddress, "coin", "into_balance", [coinType]⟩ [ref]])
      { snap with live := (.result commands.length, .balance coinType value) :: rest } := by
  refine h.step fun held hof => ⟨_, ?_, (hof.drop hperm).result (.balance coinType value)⟩
  rw [exec_framework, Holdings.frameworkCall, hof.get hperm]
  exact if_pos rfl

/-- A balance becomes a coin. -/
lemma fromBalance (h : Reach env h₀ commands snap)
    (hperm : snap.live.Perm ((ref, .balance coinType value) :: rest)) :
    Reach env h₀
      (commands ++
        [.moveCall ⟨suiFrameworkPackageAddress, "coin", "from_balance", [coinType]⟩ [ref]])
      { snap with live := (.result commands.length, .coin coinType value) :: rest } := by
  refine h.step fun held hof => ⟨_, ?_, (hof.drop hperm).result (.coin coinType value)⟩
  rw [exec_framework, Holdings.frameworkCall, hof.get hperm]
  exact if_pos rfl

/-- A balance of no value. -/
lemma balanceZero (h : Reach env h₀ commands snap) :
    Reach env h₀
      (commands ++ [.moveCall ⟨suiFrameworkPackageAddress, "balance", "zero", [coinType]⟩ []])
      { snap with live := (.result commands.length, .balance coinType 0) :: snap.live } :=
  h.step fun held hof =>
    ⟨_, (exec_framework held _ _ _ _).trans rfl, hof.result (.balance coinType 0)⟩

/-- The value of a balance, which stays. -/
lemma balanceValue (h : Reach env h₀ commands snap)
    (hperm : snap.live.Perm ((ref, .balance coinType value) :: rest)) :
    Reach env h₀
      (commands ++
        [.moveCall ⟨suiFrameworkPackageAddress, "balance", "value", [coinType]⟩ [ref]])
      { snap with live := (.result commands.length, .number value) :: snap.live } := by
  refine h.step fun held hof => ⟨_, ?_, hof.result (.number value)⟩
  rw [exec_framework, Holdings.frameworkCall, hof.get hperm]
  exact if_pos rfl

/-- A balance of no value is destroyed. -/
lemma destroyZero (h : Reach env h₀ commands snap)
    (hperm : snap.live.Perm ((ref, .balance coinType 0) :: rest)) :
    Reach env h₀
      (commands ++
        [.moveCall ⟨suiFrameworkPackageAddress, "balance", "destroy_zero", [coinType]⟩ [ref]])
      { snap with live := rest } := by
  refine h.step fun held hof => ⟨_, ?_, (hof.drop hperm).mono (Nat.le_succ _)⟩
  rw [exec_framework, Holdings.frameworkCall, hof.get hperm]
  exact if_pos ⟨rfl, rfl⟩

end Reach

/-! ## The start -/

section Start

variable {coins payers : List Coin}

/-- A coin is found by its reference. -/
lemma findCoin_of_mem (hnodup : (coins.map Coin.objectId).Nodup) {coin : Coin}
    (h : coin ∈ coins) : findCoin coins coin.objectId coin.version coin.digest = some coin := by
  induction coins with
  | nil => exact absurd h List.not_mem_nil
  | cons first coins ih =>
    obtain ⟨hfirst, hrest⟩ := List.nodup_cons.mp hnodup
    rw [findCoin, List.find?_cons]
    rcases List.mem_cons.mp h with rfl | hmem
    · rw [decide_eq_true ⟨rfl, rfl, rfl⟩]
    · have hne : first.objectId ≠ coin.objectId := fun heq =>
        hfirst (heq ▸ List.mem_map_of_mem hmem)
      rw [decide_eq_false fun h => hne h.1]
      exact ih hrest hmem

/-- The inputs that refer to a coin that can pay. -/
def ReferTo (inputOf : Coin → ObjectInput) : Prop :=
  ∀ coin, inputOf coin = coin.toInput ∨
    inputOf coin = .immutable coin.objectId coin.version coin.digest

/-- The ids of inputs that refer to coins. -/
lemma ReferTo.map_objectId {inputOf : Coin → ObjectInput} (h : ReferTo inputOf)
    (payers : List Coin) :
    (payers.map inputOf).map ObjectInput.objectId = payers.map Coin.objectId := by
  rw [List.map_map]
  refine List.map_congr_left fun coin _ => ?_
  show (inputOf coin).objectId = coin.objectId
  rcases h coin with heq | heq
  · rw [heq]
    rfl
  · rw [heq]
    rfl

/-- The balances of objects that are there. -/
lemma mapM_paymentBalance {inputOf : Coin → ObjectInput} (hinput : ReferTo inputOf)
    (hnodup : (coins.map Coin.objectId).Nodup) (hsubset : payers ⊆ coins) :
    (payers.map inputOf).mapM (paymentBalance coins) =
      some (payers.map fun coin => coin.balance.toNat) := by
  refine mapM_eq_some_of_forall₂ (List.forall₂_map_left_iff.mpr (List.forall₂_same.mpr ?_))
  intro coin hcoin
  have hfound := findCoin_of_mem hnodup (hsubset hcoin)
  rcases hinput coin with heq | heq
  · rw [heq, Coin.toInput, paymentBalance, hfound, Option.map_some]
  · rw [heq, paymentBalance, hfound, Option.map_some]

/-- Coins of distinct ids are referred to apart. -/
lemma nodup_map_ref (h : (coins.map Coin.objectId).Nodup) : (coins.map Coin.ref).Nodup := by
  rw [List.nodup_map_iff_inj_on h.of_map]
  intro coin hcoin coin' hcoin' heq
  have hids : coin.objectId = coin'.objectId := by
    have href := Ref.object.inj heq
    injection href
  exact List.inj_on_of_nodup_map h hcoin hcoin' hids

/-- The gas coin and objects of distinct ids are referred to apart. -/
lemma nodup_held (h : (coins.map Coin.objectId).Nodup) (sui coinType : TypeTag) (gas : ℕ) :
    ((((.gas, .coin sui gas) : Ref × Item ρ) :: coins.map (Coin.held coinType)).map
      Prod.fst).Nodup := by
  have hrefs : (coins.map (Coin.held (ρ := ρ) coinType)).map Prod.fst = coins.map Coin.ref :=
    List.map_map
  rw [List.map_cons, hrefs]
  refine List.nodup_cons.mpr ⟨fun hmem => ?_, nodup_map_ref h⟩
  obtain ⟨coin, -, heq⟩ := List.mem_map.mp hmem
  cases heq

/-- What is held at the start. -/
lemma reach_nil (env : Environment ρ) (h : (coins.map Coin.objectId).Nodup)
    (sui coinType : TypeTag) (gas : ℕ) :
    Reach env ⟨storeOf ((.gas, .coin sui gas) :: coins.map (Coin.held coinType)), 0, [], [], 0⟩
      [] ⟨(.gas, .coin sui gas) :: coins.map (Coin.held coinType), 0, [], [], 0⟩ := by
  refine ⟨_, rfl, owns_storeOf (nodup_held h sui coinType gas), fun ref hmem command href => ?_,
    rfl, rfl, rfl, rfl⟩
  rcases List.mem_cons.mp hmem with rfl | hmem
  · cases href
  · obtain ⟨entry, hentry, rfl⟩ := List.mem_map.mp hmem
    obtain ⟨coin, -, rfl⟩ := List.mem_map.mp hentry
    cases href

/-- **The gas coin of objects that are there**: the transaction starts when they hold the budget. -/
theorem start_payments {inputOf : Coin → ObjectInput} (hinput : ReferTo inputOf)
    (hnodup : (coins.map Coin.objectId).Nodup) (hsubset : payers ⊆ coins)
    (hpayers : (payers.map Coin.objectId).Nodup) (sui coinType : TypeTag)
    (commands : List (Command Ref)) (gasBudget : UInt64) :
    start (ρ := ρ) sui coinType ⟨commands, payers.map inputOf, gasBudget⟩ coins =
      if gasBudget.toNat ≤ worth payers then
        some ⟨storeOf (initialItems sui coinType coins (payers.map Coin.objectId)
          (worth payers - gasBudget.toNat)), 0, [], [], 0⟩
      else none := by
  rw [start]
  show Option.bind ((payers.map inputOf).mapM _) _ = _
  rw [mapM_paymentBalance hinput hnodup hsubset, Option.bind_some, hinput.map_objectId]
  by_cases h : gasBudget.toNat ≤ worth payers
  · rw [if_pos h, if_pos ⟨hpayers, h⟩]
    rfl
  · rw [if_neg h, if_neg fun h' => h h'.2]

end Start

end GemCore.Sui

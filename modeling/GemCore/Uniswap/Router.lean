import GemCore.Lib.Ledger
import GemCore.Uniswap.Commands

/-!
# What the Universal Router does

The meaning of a command list: a transition on what the parties hold and on what the router
may spend of the sender's tokens through Permit2. A command that reverts undoes the whole
list, so the list has a result or none.

## Main definitions

* `World` — the holdings and the allowances.
* `Router` — the router, who called it, and the pools behind it.
* `Router.step`, `Router.execute` — one command, and a list.
* `Router.call` — a call with value.

## Main results

* `Router.draw_eq_some`, `Router.swapExactIn_eq_some` — what tokens that are available pay for.
-/

namespace GemCore.Uniswap

open Lib

/-- What can be held. -/
inductive Asset where
  | native
  | token (address : Address)
  deriving DecidableEq

/-- What everyone holds, and how much of the sender's tokens the router may spend. -/
structure World where
  holds : Ledger Asset Address
  allowance : Address → BitVec 160

/-- The router, the account that calls it, the wrapped native token, the amount the pools of a
path give for an amount, and which signed permits are valid. -/
structure Router where
  address : Address
  sender : Address
  weth : Address
  swap : List UInt8 → ℕ → ℕ
  permitValid : Permit2Permit → Bool

/-- The amount that stands for the whole balance of the router. -/
def contractBalance : ℕ := 2 ^ 255

/-- The asset a token argument stands for: the zero address is the native asset. -/
def assetOf (token : Address) : Asset := if token = markAddress 0 then .native else .token token

/-- The first token of a path. -/
def firstToken (path : List UInt8) : Option Address :=
  if h : (path.take 20).length = 20 then some ⟨path.take 20, h⟩ else none

/-- The last token of a path. -/
def lastToken (path : List UInt8) : Option Address :=
  if h : (path.drop (path.length - 20)).length = 20 then some ⟨path.drop (path.length - 20), h⟩
  else none

namespace World

variable (w : World)

/-- Put money in. -/
def credit (asset : Asset) (account : Address) (n : ℕ) : World :=
  { w with holds := w.holds + Ledger.only asset account n }

/-- Take money out. -/
def debit (asset : Asset) (account : Address) (n : ℕ) : Option World :=
  (w.holds.debit asset account n).map fun holds => { w with holds := holds }

/-- Move money. -/
def pay (asset : Asset) (source target : Address) (n : ℕ) : Option World :=
  (w.debit asset source n).map fun w => w.credit asset target n

/-- Use up a part of an allowance. The largest allowance is not used up. -/
def useAllowance (token : Address) (n : ℕ) : World :=
  if w.allowance token = BitVec.allOnes 160 then w
  else { w with
    allowance := Function.update w.allowance token (w.allowance token - BitVec.ofNat 160 n) }

end World

namespace Router

variable (R : Router) (w : World)

/-- Addresses with a meaning of their own in commands. -/
def resolve (recipient : Address) : Address :=
  if recipient = msgSender then R.sender
  else if recipient = addressThis then R.address
  else recipient

/-- An amount, or the whole balance. -/
def amountOr (asset : Asset) (amount : U256) : ℕ :=
  if amount.toNat = contractBalance then w.holds asset R.address else amount.toNat

/-- Take tokens of the sender through Permit2, or tokens of the router. -/
def draw (payerIsUser : Bool) (token : Address) (n : ℕ) : Option World :=
  if payerIsUser then
    if n ≤ (w.allowance token).toNat then
      (w.debit (.token token) R.sender n).map fun w => w.useAllowance token n
    else none
  else w.debit (.token token) R.address n

/-- `V3_SWAP_EXACT_IN`: the payer pays the pools, the pools pay the recipient, at least the
minimum. -/
def swapExactIn (payload : V3SwapExactIn) : Option World := do
  let tokenIn ← firstToken payload.path
  let tokenOut ← lastToken payload.path
  let amount := amountOr R w (.token tokenIn) payload.amountIn
  let w ← draw R w payload.payerIsUser tokenIn amount
  let amountOut := R.swap payload.path amount
  if amountOut < payload.amountOutMin.toNat then none
  else some (w.credit (.token tokenOut) (resolve R payload.recipient) amountOut)

/-- One command. -/
def step : UniversalRouterCommand → Option World
  | .v3SwapExactIn payload => swapExactIn R w payload
  -- Bounds on the price of each hop are optional; the lists built here have none.
  | .v3SwapExactInV21 payload =>
    if payload.minHopPriceX36 = [] then swapExactIn R w payload.toV3SwapExactIn else none
  | .permit2TransferFrom payload =>
    (draw R w true payload.token payload.value.toNat).map fun w =>
      w.credit (.token payload.token) (resolve R payload.recipient) payload.value.toNat
  | .sweep payload =>
    let balance := w.holds (assetOf payload.token) R.address
    if balance < payload.amountMin.toNat then none
    else w.pay (assetOf payload.token) R.address (resolve R payload.recipient) balance
  | .transfer payload =>
    w.pay (assetOf payload.token) R.address (resolve R payload.recipient)
      (amountOr R w (assetOf payload.token) payload.value)
  | .payPortion payload =>
    if payload.bips.toNat = 0 ∨ 10000 < payload.bips.toNat then none
    else w.pay (assetOf payload.token) R.address (resolve R payload.recipient)
      (w.holds (assetOf payload.token) R.address * payload.bips.toNat / 10000)
  | .permit2Permit payload =>
    if R.permitValid payload then
      some { w with allowance :=
        if payload.spender = R.address then Function.update w.allowance payload.token payload.amount
        else w.allowance }
    else none
  | .wrapEth payload =>
    (w.debit .native R.address (amountOr R w .native payload.amountMin)).map fun w' =>
      w'.credit (.token R.weth) (resolve R payload.recipient)
        (amountOr R w .native payload.amountMin)
  | .unwrapWeth payload =>
    let balance := w.holds (.token R.weth) R.address
    if balance < payload.amountMin.toNat then none
    else (w.debit (.token R.weth) R.address balance).map fun w =>
      w.credit .native (resolve R payload.recipient) balance

/-- A list of commands. -/
def execute : List UniversalRouterCommand → World → Option World
  | [], w => some w
  | command :: commands, w => (step R w command).bind (execute commands)

/-- A call of the router with value. -/
def call (value : ℕ) (commands : List UniversalRouterCommand) (w : World) : Option World :=
  (w.pay .native R.sender R.address value).bind (execute R commands)

end Router

/-! ## What a step does to the holdings -/

section Steps

open Ledger (only)

variable {R : Router} {w : World} {asset : Asset} {token account source : Address} {n : ℕ}

lemma World.debit_eq_some (h : n ≤ w.holds asset account) :
    ∃ w', w.debit asset account n = some w' ∧ w'.holds + only asset account n = w.holds ∧
      w'.allowance = w.allowance := by
  obtain ⟨l, hl, hsum⟩ := Ledger.debit_eq_some h
  exact ⟨{ w with holds := l }, by rw [World.debit, hl]; rfl, hsum, rfl⟩

lemma World.pay_eq_some (target : Address) (h : n ≤ w.holds asset source) :
    ∃ w', w.pay asset source target n = some w' ∧
      w'.holds + only asset source n = w.holds + only asset target n ∧
      w'.allowance = w.allowance := by
  obtain ⟨w', hw, hsum, hallow⟩ := World.debit_eq_some h
  refine ⟨w'.credit asset target n, by rw [World.pay, hw]; rfl, ?_, hallow⟩
  show w'.holds + only asset target n + only asset source n = _
  rw [← hsum, add_right_comm]

@[simp] lemma World.useAllowance_holds : (w.useAllowance token n).holds = w.holds := by
  rw [World.useAllowance]
  split <;> rfl

/-- What is left of an allowance is enough for the rest of it. -/
lemma World.le_useAllowance {m : ℕ} (h : n + m ≤ (w.allowance token).toNat) :
    m ≤ ((w.useAllowance token n).allowance token).toNat := by
  rw [World.useAllowance]
  split
  · omega
  · have hlt := (w.allowance token).isLt
    have hn : (BitVec.ofNat 160 n).toNat = n := by
      rw [BitVec.toNat_ofNat, Nat.mod_eq_of_lt (by omega)]
    show m ≤ (Function.update w.allowance token _ token).toNat
    rw [Function.update_self, BitVec.toNat_sub_of_le (by rw [BitVec.le_def, hn]; omega), hn]
    omega

/-- The account that pays for a swap. -/
def Router.payer (R : Router) (payerIsUser : Bool) : Address :=
  if payerIsUser then R.sender else R.address

/-- The payer holds an amount of a token, and the router may take it. -/
structure Ready (R : Router) (w : World) (payerIsUser : Bool) (token : Address) (n : ℕ) : Prop where
  holds : n ≤ w.holds (.token token) (R.payer payerIsUser)
  allowed : payerIsUser = true → n ≤ (w.allowance token).toNat

/-- **Drawing tokens** takes them from the payer and leaves the rest available. -/
theorem Router.draw_eq_some {payerIsUser : Bool} (h : Ready R w payerIsUser token n) :
    ∃ w', R.draw w payerIsUser token n = some w' ∧
      w'.holds + only (.token token) (R.payer payerIsUser) n = w.holds ∧
      ∀ m, n + m ≤ w.holds (.token token) (R.payer payerIsUser) →
        (payerIsUser = true → n + m ≤ (w.allowance token).toNat) →
        Ready R w' payerIsUser token m := by
  have hrest : ∀ l : Ledger Asset Address,
      l + only (.token token) (R.payer payerIsUser) n = w.holds →
      ∀ m, n + m ≤ w.holds (.token token) (R.payer payerIsUser) →
        m ≤ l (.token token) (R.payer payerIsUser) := by
    intro l hl m hm
    rw [← hl, Pi.add_apply, Pi.add_apply, Ledger.only_self] at hm
    omega
  obtain ⟨w', hw, hsum, hallow⟩ := World.debit_eq_some h.holds
  cases payerIsUser with
  | false =>
    refine ⟨w', hw, hsum, fun m hm _ => ⟨hrest _ hsum m hm, fun h => ?_⟩⟩
    cases h
  | true =>
    have hn := h.allowed rfl
    refine ⟨w'.useAllowance token n, ?_, ?_, fun m hm hma => ⟨?_, fun _ => ?_⟩⟩
    · rw [Router.draw, if_pos rfl, if_pos hn]
      exact congrArg (Option.map _) hw
    · rw [World.useAllowance_holds, hsum]
    · rw [World.useAllowance_holds]
      exact hrest _ hsum m hm
    · apply World.le_useAllowance
      rw [hallow]
      exact hma rfl

lemma Router.resolve_of_ne {recipient : Address} (h₁ : recipient ≠ msgSender)
    (h₂ : recipient ≠ addressThis) : R.resolve recipient = recipient := by
  rw [Router.resolve, if_neg h₁, if_neg h₂]

lemma Router.resolve_sender (h : R.sender ≠ addressThis) : R.resolve R.sender = R.sender := by
  rw [Router.resolve, if_neg h, ite_self]

lemma Router.resolve_addressThis : R.resolve addressThis = R.address := by
  rw [Router.resolve, if_neg (by decide), if_pos rfl]

lemma assetOf_of_ne (h : token ≠ markAddress 0) : assetOf token = .token token :=
  if_neg h

/-- The whole balance is the amount, when they are equal. -/
lemma Router.amountOr_eq {amount : U256}
    (h : amount.toNat < contractBalance ∨ w.holds asset R.address = amount.toNat) :
    R.amountOr w asset amount = amount.toNat := by
  rw [Router.amountOr]
  split
  · omega
  · rfl

lemma firstToken_append (rest : List UInt8) : firstToken (token.1 ++ rest) = some token := by
  have h : (token.1 ++ rest).take 20 = token.1 := by
    rw [List.take_append_of_le_length (by rw [token.2]), List.take_of_length_le (by rw [token.2])]
  rw [firstToken, dif_pos (by rw [h, token.2])]
  exact congrArg some (Subtype.ext h)

lemma lastToken_append (rest : List UInt8) : lastToken (rest ++ token.1) = some token := by
  have h : (rest ++ token.1).drop ((rest ++ token.1).length - 20) = token.1 := by
    rw [List.length_append, token.2, Nat.add_sub_cancel, List.drop_left]
  rw [lastToken, dif_pos (by rw [h, token.2])]
  exact congrArg some (Subtype.ext h)

/-- **A swap**: the payer gives the amount, the recipient gets what the pools pay. -/
theorem Router.swapExactIn_eq_some {payload : V3SwapExactIn} {tokenIn tokenOut : Address}
    (hfirst : firstToken payload.path = some tokenIn)
    (hlast : lastToken payload.path = some tokenOut)
    (hamount : R.amountOr w (.token tokenIn) payload.amountIn = n)
    (hready : Ready R w payload.payerIsUser tokenIn n)
    (hmin : payload.amountOutMin.toNat ≤ R.swap payload.path n) :
    ∃ w', R.swapExactIn w payload = some w' ∧
      w'.holds + only (.token tokenIn) (R.payer payload.payerIsUser) n =
        w.holds + only (.token tokenOut) (R.resolve payload.recipient) (R.swap payload.path n) := by
  obtain ⟨w', hdraw, hsum, -⟩ := Router.draw_eq_some hready
  refine ⟨w'.credit (.token tokenOut) (R.resolve payload.recipient) (R.swap payload.path n), ?_, ?_⟩
  · rw [Router.swapExactIn]
    simp only [hfirst, hlast, hamount, hdraw, Option.bind_eq_bind, Option.bind_some]
    rw [if_neg (by omega)]
  · show w'.holds + only (.token tokenOut) _ _ + only (.token tokenIn) _ n = _
    rw [← hsum, add_right_comm]

lemma Router.execute_append (xs ys : List UniversalRouterCommand) :
    R.execute (xs ++ ys) w = (R.execute xs w).bind (R.execute ys) := by
  induction xs generalizing w with
  | nil => rfl
  | cons x xs ih =>
    show (R.step w x).bind (R.execute (xs ++ ys)) = ((R.step w x).bind (R.execute xs)).bind _
    rw [Option.bind_assoc]
    exact congrArg _ (funext fun _ => ih)

end Steps

end GemCore.Uniswap

import GemCore.Cetus.Transaction

/-!
# Pools

What the pools do with the calls of a swap. A flash swap hands out the coins of both sides, one of them
empty, and a receipt that is worth what has to be paid; only a call that pays exactly this, on the right
side of the same pool, takes the receipt back.

How a pool fills a swap is a parameter.

## Main definitions

* `Receipt`, `SwapCall`, `Answer` — receipts, and how pools fill swaps.
* `Deployment`, `poolProgram` — the program of the pools.

## Main results

* `reach_flash`, `reach_repay` — what the two calls do with what is held.
-/

namespace GemCore.Cetus

open Lib (Build leBytes ofLe)
open Sui (Ref Command TypeTag ObjectReference Item Holdings Snapshot Environment Reach Fails)

/-! ## The program -/

/-- A receipt of a flash swap. -/
structure Receipt where
  pool : ObjectReference
  coinA : TypeTag
  coinB : TypeTag
  a2b : Bool
  payAmount : ℕ

/-- What a flash swap is asked for. -/
structure SwapCall where
  pool : ObjectReference
  coinA : TypeTag
  coinB : TypeTag
  a2b : Bool
  amount : ℕ
  sqrtPriceLimit : ℕ

/-- How a pool fills a swap: what it takes, and what it gives. -/
structure Answer where
  payAmount : ℕ
  amountOut : ℕ

/-- How the swaps of a transaction are filled, by their number. -/
abbrev Answers : Type := ℕ → SwapCall → Option Answer

/-- Where the pools are. -/
structure Deployment where
  package : Sui.Address
  package_ne : package ≠ Sui.suiFrameworkPackageAddress
  globalConfig : ObjectReference
  partner : ObjectReference

/-- A `bool`. -/
def readBool : Ref → Option Bool
  | .pure [byte] => if byte = 1 then some true else if byte = 0 then some false else none
  | _ => none

/-- A `u128`. -/
def readU128 : Ref → Option ℕ
  | .pure bytes => if bytes.length = 16 then some (ofLe bytes) else none
  | _ => none

/-- The object of an argument. -/
def readObject : Ref → Option ObjectReference
  | .object reference => some reference
  | _ => none

/-- The results of a flash swap: the coins of both sides, one of them empty, and the receipt. -/
def flashed (index : ℕ) (pool : ObjectReference) (coinA coinB : TypeTag) (a2b : Bool)
    (answer : Answer) (h : Holdings Receipt) : Holdings Receipt :=
  { Holdings.putResults index 0 [.balance coinA (if a2b then 0 else answer.amountOut),
      .balance coinB (if a2b then answer.amountOut else 0),
      .resource ⟨pool, coinA, coinB, a2b, answer.payAmount⟩] h with calls := h.calls + 1 }

section Program

variable (deployment : Deployment) (answers : Answers)

/-- `pool::flash_swap_with_partner`. -/
def flashSwapWithPartner (index : ℕ) (coinA coinB : TypeTag)
    (config pool partner a2b byAmountIn amount limit clock : Ref) (h : Holdings Receipt) :
    Option (Holdings Receipt) := do
  let pool ← readObject pool
  let a2b ← readBool a2b
  let byAmountIn ← readBool byAmountIn
  let amount ← h.numberOf amount
  let limit ← readU128 limit
  if config = .object deployment.globalConfig ∧ partner = .object deployment.partner ∧
      clock = .object suiClockObjectInput.reference ∧ byAmountIn = true then
    let answer ← answers h.calls ⟨pool, coinA, coinB, a2b, amount, limit⟩
    some (flashed index pool coinA coinB a2b answer h)
  else none

/-- `pool::repay_flash_swap_with_partner`. -/
def repayFlashSwapWithPartner (coinA coinB : TypeTag) (config pool partner payA payB receipt : Ref)
    (h : Holdings Receipt) : Option (Holdings Receipt) := do
  let pool ← readObject pool
  match h.items receipt, h.items payA, (h.drop payA).items payB with
  | some (.resource r), some (.balance typeA valueA), some (.balance typeB valueB) =>
    if config = .object deployment.globalConfig ∧ partner = .object deployment.partner ∧
        r.pool = pool ∧ r.coinA = coinA ∧ r.coinB = coinB ∧ typeA = coinA ∧ typeB = coinB ∧
        valueA = (if r.a2b then r.payAmount else 0) ∧
        valueB = (if r.a2b then 0 else r.payAmount) then
      some (((h.drop payA).drop payB).drop receipt)
    else none
  | _, _, _ => none

/-- **The program of the pools.** -/
def poolProgram (index : ℕ) (function : Sui.Function) (arguments : List Ref)
    (h : Holdings Receipt) : Option (Holdings Receipt) :=
  if function.package = deployment.package ∧ function.module = "pool" then
    match function.function, function.typeArgs, arguments with
    | "flash_swap_with_partner", [coinA, coinB],
        [config, pool, partner, a2b, byAmountIn, amount, limit, clock] =>
      flashSwapWithPartner deployment answers index coinA coinB config pool partner a2b byAmountIn
        amount limit clock h
    | "repay_flash_swap_with_partner", [coinA, coinB], [config, pool, partner, payA, payB, receipt] =>
      repayFlashSwapWithPartner deployment coinA coinB config pool partner payA payB receipt h
    | _, _, _ => none
  else none

/-- The network with the pools. -/
def network (funds : Sui.Funds) : Environment Receipt := ⟨funds, poolProgram deployment answers⟩

end Program

/-! ## What the calls do -/

section Reached

variable {deployment : Deployment} {answers : Answers} {funds : Sui.Funds} {h₀ : Holdings Receipt}
  {commands : List (Command Ref)} {snap : Snapshot Receipt} {rest : List (Ref × Item Receipt)}
  {pool : ObjectReference} {coinA coinB : TypeTag} {a2b : Bool} {amount : ℕ} {limit : U128}

/-- A call of the pools. -/
lemma exec_pool (index : ℕ) (name : String) (arguments : List Ref) (held : Holdings Receipt) :
    Sui.exec (network deployment answers funds) index
        (.moveCall ⟨deployment.package, "pool", name, [coinA, coinB]⟩ arguments) held =
      poolProgram deployment answers index ⟨deployment.package, "pool", name, [coinA, coinB]⟩
        arguments held := by
  have hstake : (⟨deployment.package, "pool", name, [coinA, coinB]⟩ : Sui.Function) ≠
      Sui.requestAddStake := by
    intro heq
    have htypes := congrArg Sui.Function.typeArgs heq
    cases htypes
  rw [Sui.exec, if_neg deployment.package_ne, if_neg hstake]
  rfl

lemma readBool_bool (value : Bool) : readBool (.pure [if value then 1 else 0]) = some value := by
  cases value with
  | true => rfl
  | false => rfl

lemma readU128_leBytes (value : U128) : readU128 (.pure (leBytes 16 value.toNat)) =
    some value.toNat := by
  have hlt : value.toNat < 256 ^ 16 := value.isLt
  rw [readU128, if_pos (Lib.length_leBytes 16 _), Lib.ofLe_leBytes_of_lt hlt]

/-- The call of a flash swap. -/
def flashCommand (deployment : Deployment) (pool : ObjectReference) (coinA coinB : TypeTag)
    (a2b : Bool) (amount : Ref) (limit : U128) : Command Ref :=
  .moveCall ⟨deployment.package, "pool", "flash_swap_with_partner", [coinA, coinB]⟩
    [.object deployment.globalConfig, .object pool, .object deployment.partner,
      .pure [if a2b then 1 else 0], .pure [1], amount, .pure (leBytes 16 limit.toNat),
      .object suiClockObjectInput.reference]

/-- The call that pays a flash swap back. -/
def repayCommand (deployment : Deployment) (pool : ObjectReference) (coinA coinB : TypeTag)
    (payA payB receipt : Ref) : Command Ref :=
  .moveCall ⟨deployment.package, "pool", "repay_flash_swap_with_partner", [coinA, coinB]⟩
    [.object deployment.globalConfig, .object pool, .object deployment.partner, payA, payB, receipt]

lemma exec_flash {index : ℕ} {held : Holdings Receipt} {amountRef : Ref}
    (hamount : held.numberOf amountRef = some amount) :
    Sui.exec (network deployment answers funds) index
        (flashCommand deployment pool coinA coinB a2b amountRef limit) held =
      (answers held.calls ⟨pool, coinA, coinB, a2b, amount, limit.toNat⟩).map fun answer =>
        flashed index pool coinA coinB a2b answer held := by
  rw [flashCommand, exec_pool]
  show (if deployment.package = deployment.package ∧ "pool" = "pool" then
    flashSwapWithPartner deployment answers index coinA coinB _ _ _ _ _ _ _ _ held else none) = _
  rw [if_pos ⟨rfl, rfl⟩, flashSwapWithPartner, readObject, readBool_bool, hamount, readU128_leBytes]
  show (if _ then (answers held.calls _).bind _ else none) = _
  rw [if_pos ⟨rfl, rfl, rfl, rfl⟩]
  cases answers held.calls ⟨pool, coinA, coinB, a2b, amount, limit.toNat⟩ with
  | none => rfl
  | some answer => rfl

/-- **A flash swap that is filled.** -/
theorem reach_flash (h : Reach (network deployment answers funds) h₀ commands snap) {amountRef : Ref}
    (hamount : ∀ held, snap.Of commands.length held → held.numberOf amountRef = some amount)
    {answer : Answer}
    (hanswer : answers snap.calls ⟨pool, coinA, coinB, a2b, amount, limit.toNat⟩ = some answer) :
    Reach (network deployment answers funds) h₀
      (commands ++ [flashCommand deployment pool coinA coinB a2b amountRef limit])
      { snap with
        live := (.nested commands.length 2, .resource ⟨pool, coinA, coinB, a2b, answer.payAmount⟩) ::
          (.nested commands.length 1, .balance coinB (if a2b then answer.amountOut else 0)) ::
          (.nested commands.length 0, .balance coinA (if a2b then 0 else answer.amountOut)) ::
          snap.live
        calls := snap.calls + 1 } := by
  refine h.step fun held hof =>
    ⟨flashed commands.length pool coinA coinB a2b answer held, ?_, ?_⟩
  · rw [exec_flash (hamount held hof), hof.calls, hanswer, Option.map_some]
  · have hbelow : ∀ nested command, (Ref.nested commands.length nested).command? = some command →
        command < commands.length + 1 := fun nested command heq =>
      (Option.some.inj heq) ▸ Nat.lt_succ_self _
    have hnew : ∀ nested, Ref.nested commands.length nested ∉ snap.live.map Prod.fst :=
      fun nested => hof.not_mem rfl
    have h₁ := (hof.mono (Nat.le_succ _)).put (hnew 0) (hbelow 0)
      (.balance coinA (if a2b then 0 else answer.amountOut))
    have h₂ := h₁.put (fun hmem => by
      rcases List.mem_cons.mp hmem with heq | hmem
      · cases heq
      · exact hnew 1 hmem) (hbelow 1) (.balance coinB (if a2b then answer.amountOut else 0))
    have h₃ := h₂.put (fun hmem => by
      rcases List.mem_cons.mp hmem with heq | hmem
      · cases heq
      · rcases List.mem_cons.mp hmem with heq | hmem
        · cases heq
        · exact hnew 2 hmem) (hbelow 2) (.resource ⟨pool, coinA, coinB, a2b, answer.payAmount⟩)
    exact { h₃ with calls := congrArg (· + 1) hof.calls }

/-- A flash swap that is not filled. -/
lemma fails_flash (h : Reach (network deployment answers funds) h₀ commands snap) {amountRef : Ref}
    (hamount : ∀ held, snap.Of commands.length held → held.numberOf amountRef = some amount)
    (hanswer : answers snap.calls ⟨pool, coinA, coinB, a2b, amount, limit.toNat⟩ = none) :
    Fails (network deployment answers funds) h₀
      (commands ++ [flashCommand deployment pool coinA coinB a2b amountRef limit]) := by
  refine h.fails fun held hof => ?_
  rw [exec_flash (hamount held hof), hof.calls, hanswer, Option.map_none]

/-- A repayment of just what is owed uses up both balances and the receipt; another one fails. -/
lemma exec_repay {index : ℕ} {held : Holdings Receipt} {payA payB receipt : Ref} {r : Receipt}
    {valueA valueB : ℕ} (hreceipt : held.items receipt = some (.resource r))
    (hpayA : held.items payA = some (.balance coinA valueA))
    (hpayB : (held.drop payA).items payB = some (.balance coinB valueB)) (hpool : r.pool = pool)
    (hcoinA : r.coinA = coinA) (hcoinB : r.coinB = coinB) :
    Sui.exec (network deployment answers funds) index
        (repayCommand deployment pool coinA coinB payA payB receipt) held =
      if valueA = (if r.a2b then r.payAmount else 0) ∧ valueB = (if r.a2b then 0 else r.payAmount)
      then some (((held.drop payA).drop payB).drop receipt)
      else none := by
  rw [repayCommand, exec_pool]
  show (if deployment.package = deployment.package ∧ "pool" = "pool" then
    repayFlashSwapWithPartner deployment coinA coinB _ _ _ payA payB receipt held else none) = _
  rw [if_pos ⟨rfl, rfl⟩, repayFlashSwapWithPartner, readObject]
  show (match held.items receipt, held.items payA, (held.drop payA).items payB with
    | some (.resource r), some (.balance typeA valueA), some (.balance typeB valueB) =>
      if _ then some _ else none
    | _, _, _ => none) = _
  rw [hreceipt, hpayA, hpayB]
  by_cases hpaid : valueA = (if r.a2b then r.payAmount else 0) ∧
      valueB = (if r.a2b then 0 else r.payAmount)
  · rw [if_pos hpaid]
    exact if_pos ⟨rfl, rfl, hpool, hcoinA, hcoinB, rfl, rfl, hpaid⟩
  · rw [if_neg hpaid]
    exact if_neg fun h => hpaid h.2.2.2.2.2.2.2

/-- The third entry of a list goes to its front. -/
lemma perm_third {α : Type} (a b c : α) (l : List α) : (a :: b :: c :: l).Perm (c :: a :: b :: l) :=
  ((List.Perm.swap c b l).cons a).trans (List.Perm.swap c a (b :: l))

section Repay

variable {payA payB receipt : Ref} {pay valueA valueB : ℕ}

/-- **A flash swap that is paid back** with what its receipt says. -/
theorem reach_repay (h : Reach (network deployment answers funds) h₀ commands snap)
    (hperm : snap.live.Perm ((payA, .balance coinA valueA) :: (payB, .balance coinB valueB) ::
      (receipt, .resource ⟨pool, coinA, coinB, a2b, pay⟩) :: rest))
    (hpaid : valueA = (if a2b then pay else 0) ∧ valueB = (if a2b then 0 else pay)) :
    Reach (network deployment answers funds) h₀
      (commands ++ [repayCommand deployment pool coinA coinB payA payB receipt])
      { snap with live := rest } := by
  refine h.step fun held hof => ?_
  have h₁ := hof.drop hperm
  have h₂ := h₁.drop (List.Perm.refl _)
  have h₃ := h₂.drop (List.Perm.refl _)
  have hreceipt := hof.get (hperm.trans (perm_third _ _ _ _))
  exact ⟨_, (exec_repay hreceipt (hof.get hperm) (h₁.get (List.Perm.refl _)) rfl rfl rfl).trans
    (if_pos hpaid), h₃.mono (Nat.le_succ _)⟩

/-- A flash swap that is paid back with anything else. -/
lemma fails_repay (h : Reach (network deployment answers funds) h₀ commands snap)
    (hperm : snap.live.Perm ((payA, .balance coinA valueA) :: (payB, .balance coinB valueB) ::
      (receipt, .resource ⟨pool, coinA, coinB, a2b, pay⟩) :: rest))
    (hpaid : ¬(valueA = (if a2b then pay else 0) ∧ valueB = (if a2b then 0 else pay))) :
    Fails (network deployment answers funds) h₀
      (commands ++ [repayCommand deployment pool coinA coinB payA payB receipt]) := by
  refine h.fails fun held hof => ?_
  have h₁ := hof.drop hperm
  have hreceipt := hof.get (hperm.trans (perm_third _ _ _ _))
  exact (exec_repay hreceipt (hof.get hperm) (h₁.get (List.Perm.refl _)) rfl rfl rfl).trans
    (if_neg hpaid)

end Repay

end Reached

end GemCore.Cetus

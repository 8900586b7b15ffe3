import GemCore.Cetus.Pools
import GemCore.Lib.Lists

/-!
# Borrowing and paying back

The two loops of a swap transaction. After the first one, each hop is a debt: a receipt, the balance
that went into the hop, and an empty balance of the other side. The second one settles the debts when
each pool has taken what it was offered.

## Main definitions

* `Target`, `IsTarget` — a hop, as the pools see it.
* `borrow` — what the pools answer to hops that feed each other.
* `Debt` — what is owed after a hop.

## Main results

* `reach_flashSwaps`, `reach_repayFlashSwaps` — the loops.
-/

namespace GemCore.Cetus

open Lib (Build leBytes)
open Sui (TextLib Ref Command TypeTag ObjectReference Item Holdings Snapshot Environment Reach Fails)

/-! ## Targets -/

/-- A hop, as the pools see it. -/
structure Target where
  pool : ObjectReference
  coinA : TypeTag
  coinB : TypeTag
  a2b : Bool
  limit : U128

namespace Target

variable (target : Target)

/-- The type that goes in. -/
def inputType : TypeTag := if target.a2b then target.coinA else target.coinB

/-- The type that comes out. -/
def outputType : TypeTag := if target.a2b then target.coinB else target.coinA

/-- The call with this amount. -/
def call (amount : ℕ) : SwapCall :=
  ⟨target.pool, target.coinA, target.coinB, target.a2b, amount, target.limit.toNat⟩

end Target

/-- What a hop of a route is to the pools. -/
structure IsTarget (texts : TextLib) (resolver : ObjectResolver) (slippageBps : UInt32) (hop : Hop)
    (target : Target) : Prop where
  pool : ∃ input, resolver.sharedObjectInput texts hop.poolId true = .ok input ∧
    input.reference = target.pool
  coinA : texts.typeTag hop.coinA = .ok target.coinA
  coinB : texts.typeTag hop.coinB = .ok target.coinB
  a2b : hop.a2b = target.a2b
  limit : sqrtPriceLimitWithSlippage hop slippageBps = target.limit

section Targets

variable {texts : TextLib} {resolver : ObjectResolver} {slippageBps : UInt32} {hop : Hop}
  {target : Target}

lemma IsTarget.inputType (h : IsTarget texts resolver slippageBps hop target) :
    texts.typeTag hop.inputCoinType = .ok target.inputType := by
  rw [Hop.inputCoinType, Target.inputType, h.a2b]
  by_cases ha2b : target.a2b = true
  · rw [if_pos ha2b, if_pos ha2b, h.coinA]
  · rw [if_neg ha2b, if_neg ha2b, h.coinB]

lemma IsTarget.outputType (h : IsTarget texts resolver slippageBps hop target) :
    texts.typeTag hop.outputCoinType = .ok target.outputType := by
  rw [Hop.outputCoinType, Target.outputType, h.a2b]
  by_cases ha2b : target.a2b = true
  · rw [if_pos ha2b, if_pos ha2b, h.coinB]
  · rw [if_neg ha2b, if_neg ha2b, h.coinA]

/-- The types of the coins. -/
lemma IsTarget.coins (h : IsTarget texts resolver slippageBps hop target) {tags : List TypeTag}
    (htags : List.Forall₂ (fun text tag => texts.typeTag text = .ok tag) [hop.coinA, hop.coinB] tags) :
    tags = [target.coinA, target.coinB] := by
  cases htags with
  | cons hA htags =>
    cases htags with
    | cons hB htags =>
      cases htags
      rw [h.coinA] at hA
      rw [h.coinB] at hB
      rw [Except.ok.inj hA, Except.ok.inj hB]

end Targets

/-! ## The builder -/

section Builder

lemma ofPtb_eq_ok_iff {α : Type} {x : Sui.PtbBuild α} {commands commands' : List (Command Ref)}
    {a : α} : ofPtb x commands = .ok (a, commands') ↔ x commands = .ok (a, commands') :=
  Lib.mapError_eq_ok_iff

/-- A run that starts with calls of the builder. -/
lemma ofPtb_bind_eq_ok_iff {α β : Type} {x : Sui.PtbBuild α} {f : α → SwapBuild β}
    {commands commands'' : List (Command Ref)} {b : β} :
    (ofPtb x >>= f) commands = .ok (b, commands'') ↔
      ∃ a commands', x commands = .ok (a, commands') ∧ f a commands' = .ok (b, commands'') := by
  rw [Build.bind_eq_ok_iff]
  exact exists_congr fun a => exists_congr fun commands' => and_congr_left fun _ => ofPtb_eq_ok_iff

/-- A shared object. -/
lemma sharedObject_eq_ok {resolver : ObjectResolver} {texts : TextLib} {objectId : String}
    {mutable : Bool} {commands commands' : List (Command Ref)} {ref : Ref}
    (h : resolver.sharedObject texts objectId mutable commands = .ok (ref, commands')) :
    ∃ input, resolver.sharedObjectInput texts objectId mutable = .ok input ∧
      ref = .object input.reference ∧ commands' = commands := by
  obtain ⟨input, hinput, hrun⟩ := Build.ofExcept_bind_eq_ok_iff.mp h
  obtain ⟨rfl, rfl⟩ := Prod.mk.inj (Except.ok.inj hrun)
  exact ⟨input, hinput, rfl, rfl⟩

lemma grows_ofPtb {α : Type} {x : Sui.PtbBuild α} (h : Build.Grows x) : Build.Grows (ofPtb x) :=
  fun commands a commands' hrun => h commands a commands' (ofPtb_eq_ok_iff.mp hrun)

end Builder

/-! ## One hop -/

section Hops

variable {texts : TextLib} {resolver : ObjectResolver} {slippageBps : UInt32}
  {deployment : Deployment} {answers : Answers} {funds : Sui.Funds} {h₀ : Holdings Receipt}
  {commands commands' : List (Command Ref)} {snap : Snapshot Receipt}
  {rest : List (Ref × Item Receipt)}

/-- The shared objects and the package. -/
def Deployment.arguments (deployment : Deployment) : PoolArguments :=
  ⟨deployment.package, .object deployment.globalConfig, .object deployment.partner,
    .object suiClockObjectInput.reference⟩

/-- What is owed after a hop. -/
structure Debt where
  pending : PendingRepay
  target : Target
  amount : ℕ
  payAmount : ℕ

/-- What is held for a debt. -/
def Debt.items (debt : Debt) : List (Ref × Item Receipt) :=
  [(debt.pending.payInput, .balance debt.target.inputType debt.amount),
    (debt.pending.payZeroOutput, .balance debt.target.outputType 0),
    (debt.pending.receipt, .resource ⟨debt.target.pool, debt.target.coinA, debt.target.coinB,
      debt.target.a2b, debt.payAmount⟩)]

/-- A debt of a hop of the route. -/
structure Debt.Of (texts : TextLib) (resolver : ObjectResolver) (slippageBps : UInt32)
    (debt : Debt) : Prop where
  isTarget : IsTarget texts resolver slippageBps debt.pending.hop debt.target
  pool : debt.pending.pool = .object debt.target.pool

/-- A hop that is built can be read. -/
lemma exists_isTarget {pools : PoolArguments} {hop : Hop} {isFirst : Bool} {current : Ref}
    {coinType : String} {result : Ref × PendingRepay}
    (hrun : flashSwap texts resolver slippageBps pools hop isFirst current coinType commands =
      .ok (result, commands')) :
    ∃ target, IsTarget texts resolver slippageBps hop target := by
  obtain ⟨pool, s₁, hpool, hrun₁⟩ := ofPtb_bind_eq_ok_iff.mp hrun
  obtain ⟨amount, s₂, -, hrun₂⟩ := ofPtb_bind_eq_ok_iff.mp hrun₁
  obtain ⟨zero, s₃, -, hrun₃⟩ := ofPtb_bind_eq_ok_iff.mp hrun₂
  obtain ⟨a2b, s₄, -, hrun₄⟩ := ofPtb_bind_eq_ok_iff.mp hrun₃
  obtain ⟨byAmountIn, s₅, -, hrun₅⟩ := ofPtb_bind_eq_ok_iff.mp hrun₄
  obtain ⟨limit, s₆, -, hrun₆⟩ := ofPtb_bind_eq_ok_iff.mp hrun₅
  obtain ⟨returns, s₇, hreturns, -⟩ := ofPtb_bind_eq_ok_iff.mp hrun₆
  obtain ⟨input, hinput, -, -⟩ := sharedObject_eq_ok hpool
  obtain ⟨tags, htags, -, -⟩ := Sui.moveCall_eq_ok hreturns
  cases htags with
  | cons hA htags =>
    cases htags with
    | cons hB _ => exact ⟨⟨_, _, _, _, _⟩, ⟨input, hinput, rfl⟩, hA, hB, rfl, rfl⟩

/-- Hops that are built can be read. -/
lemma exists_targets {pools : PoolArguments} {hops : List Hop} :
    ∀ {isFirst : Bool} {current : Ref} {coinType : String} {pending : List PendingRepay}
      {result : Ref × List PendingRepay} {commands : List (Command Ref)},
      flashSwaps texts resolver slippageBps pools hops isFirst current coinType pending commands =
        .ok (result, commands') →
      ∃ targets, List.Forall₂ (IsTarget texts resolver slippageBps) hops targets := by
  induction hops with
  | nil => exact fun _ => ⟨[], .nil⟩
  | cons hop hops ih =>
    intro isFirst current coinType pending result commands hrun
    obtain ⟨⟨next, repay⟩, flashed, hflash, hrest⟩ := Build.bind_eq_ok_iff.mp hrun
    obtain ⟨target, htarget⟩ := exists_isTarget hflash
    obtain ⟨targets, htargets⟩ := ih hrest
    exact ⟨target :: targets, .cons htarget htargets⟩

/-- **The commands of a hop.** -/
theorem flashSwap_eq_ok {hop : Hop} {target : Target} {isFirst : Bool} {currentBalance : Ref}
    {currentCoinType : String} {outputBalance : Ref} {pending : PendingRepay}
    (htarget : IsTarget texts resolver slippageBps hop target)
    (hrun : flashSwap texts resolver slippageBps deployment.arguments hop isFirst currentBalance
      currentCoinType commands = .ok ((outputBalance, pending), commands')) :
    ∃ amount zero measured zeroed,
      (if isFirst then Sui.Ptb.pureU64 hop.amountIn
        else Sui.balanceValue texts currentCoinType currentBalance) commands =
          .ok (amount, measured) ∧
      Sui.balanceZero texts hop.outputCoinType measured = .ok (zero, zeroed) ∧
      Sui.destroyZeroBalance texts hop.inputCoinType
        (.nested zeroed.length (if target.a2b then 0 else 1))
        (zeroed ++ [flashCommand deployment target.pool target.coinA target.coinB target.a2b amount
          target.limit]) = .ok ((), commands') ∧
      outputBalance = .nested zeroed.length (if target.a2b then 1 else 0) ∧
      pending = ⟨hop, .object target.pool, currentBalance, zero, .nested zeroed.length 2⟩ := by
  obtain ⟨pool, s₁, hpool, hrun₁⟩ := ofPtb_bind_eq_ok_iff.mp hrun
  obtain ⟨amount, measured, hamount, hrun₂⟩ := ofPtb_bind_eq_ok_iff.mp hrun₁
  obtain ⟨zero, zeroed, hzero, hrun₃⟩ := ofPtb_bind_eq_ok_iff.mp hrun₂
  obtain ⟨a2b, s₂, ha2b, hrun₄⟩ := ofPtb_bind_eq_ok_iff.mp hrun₃
  obtain ⟨byAmountIn, s₃, hbyAmountIn, hrun₅⟩ := ofPtb_bind_eq_ok_iff.mp hrun₄
  obtain ⟨limit, s₄, hlimit, hrun₆⟩ := ofPtb_bind_eq_ok_iff.mp hrun₅
  obtain ⟨returns, s₅, hreturns, hrun₇⟩ := ofPtb_bind_eq_ok_iff.mp hrun₆
  obtain ⟨⟨recvA, recvB, receipt⟩, s₆, hnested, hrun₈⟩ := Build.bind_eq_ok_iff.mp hrun₇
  obtain ⟨⟨⟩, s₇, hdestroy, hrun₉⟩ := ofPtb_bind_eq_ok_iff.mp hrun₈
  obtain ⟨input, hinput, rfl, rfl⟩ := sharedObject_eq_ok hpool
  obtain ⟨rfl, rfl⟩ := Prod.mk.inj (Except.ok.inj ha2b)
  obtain ⟨rfl, rfl⟩ := Prod.mk.inj (Except.ok.inj hbyAmountIn)
  obtain ⟨rfl, rfl⟩ := Prod.mk.inj (Except.ok.inj hlimit)
  obtain ⟨tags, htags, rfl, rfl⟩ := Sui.moveCall_eq_ok hreturns
  obtain ⟨hresults, rfl⟩ := Prod.mk.inj (Except.ok.inj hnested)
  obtain ⟨rfl, hresults'⟩ := Prod.mk.inj hresults
  obtain ⟨rfl, rfl⟩ := Prod.mk.inj hresults'
  obtain ⟨hpair, rfl⟩ := Prod.mk.inj (Except.ok.inj hrun₉)
  obtain ⟨rfl, rfl⟩ := Prod.mk.inj hpair
  obtain ⟨input', hinput', hreference⟩ := htarget.pool
  obtain rfl := Except.ok.inj (hinput.symm.trans hinput')
  obtain rfl := htarget.coins htags
  have hdirection : hop.orderByDirection (Ref.nested zeroed.length 1) (.nested zeroed.length 0) =
      (.nested zeroed.length (if target.a2b then 1 else 0),
        .nested zeroed.length (if target.a2b then 0 else 1)) := by
    rw [Hop.orderByDirection, htarget.a2b]
    cases target.a2b with
    | true => rfl
    | false => rfl
  have hdestroyed : Sui.destroyZeroBalance texts hop.inputCoinType
      (hop.orderByDirection (Ref.nested zeroed.length 1) (.nested zeroed.length 0)).2 _ = _ := hdestroy
  rw [hdirection, htarget.a2b, htarget.limit, hreference] at hdestroyed
  refine ⟨amount, zero, measured, _, hamount, hzero, hdestroyed, congrArg Prod.fst hdirection, ?_⟩
  rw [hreference]

/-! ### What a hop does -/

/-- All values are integers. -/
def OnlyNumbers (live : List (Ref × Item Receipt)) : Prop := ∀ entry ∈ live, entry.2.IsNumber

lemma OnlyNumbers.append {first second : List (Ref × Item Receipt)} (hfirst : OnlyNumbers first)
    (hsecond : OnlyNumbers second) : OnlyNumbers (first ++ second) := fun entry hmem =>
  (List.mem_append.mp hmem).elim (hfirst entry) (hsecond entry)

/-- The amount of a hop: the first one is known, and the others are measured. -/
theorem reach_measured {hop : Hop} {isFirst : Bool} {current ref : Ref} {coinType : String}
    {tag : TypeTag} {amount : ℕ} (htag : texts.typeTag coinType = .ok tag)
    (hfirst : isFirst = true → hop.amountIn.toNat = amount)
    (hrun : (if isFirst then Sui.Ptb.pureU64 hop.amountIn
      else Sui.balanceValue texts coinType current) commands = .ok (ref, commands'))
    (h : Reach (network deployment answers funds) h₀ commands snap)
    (hperm : snap.live.Perm ((current, .balance tag amount) :: rest)) :
    ∃ numbers, OnlyNumbers numbers ∧
      Reach (network deployment answers funds) h₀ commands'
        { snap with live := numbers ++ snap.live } ∧
      ∀ (snap' : Snapshot Receipt) index held, snap'.Of index held → numbers ⊆ snap'.live →
        held.numberOf ref = some amount := by
  cases isFirst with
  | true =>
    obtain ⟨rfl, rfl⟩ := Prod.mk.inj (Except.ok.inj hrun)
    refine ⟨[], fun entry hmem => absurd hmem List.not_mem_nil, h, fun snap' index held _ _ => ?_⟩
    rw [← hfirst rfl]
    exact Reach.numberOf_pure held hop.amountIn
  | false =>
    obtain ⟨rfl, -⟩ := Sui.moveCall_one_eq_ok htag hrun
    refine ⟨[(.result commands.length, .number amount)], fun entry hmem => ?_,
      Sui.reach_balanceValue htag hrun h hperm, fun snap' index held hof hsub => ?_⟩
    · rw [List.mem_singleton.mp hmem]
      trivial
    · have hitem := (hof.owns.mem_iff _ _).mpr (hsub (List.mem_singleton_self _))
      rw [Holdings.numberOf, hitem]
      exact fun _ habsurd => by cases habsurd

/-- The first and the third entry of a list change places. -/
lemma perm_reverse {α : Type} (a b c : α) (l : List α) :
    (a :: b :: c :: l).Perm (c :: b :: a :: l) :=
  (perm_third a b c l).trans ((List.Perm.swap b a l).cons c)

/-- The results of a flash swap: the empty coins, the output, and the receipt. -/
theorem perm_flashed (target : Target) (index out pay : ℕ) (live : List (Ref × Item Receipt)) :
    List.Perm
      ((.nested index 2,
          .resource ⟨target.pool, target.coinA, target.coinB, target.a2b, pay⟩) ::
        (.nested index 1, .balance target.coinB (if target.a2b then out else 0)) ::
        (.nested index 0, .balance target.coinA (if target.a2b then 0 else out)) :: live)
      ((.nested index (if target.a2b then 0 else 1), .balance target.inputType 0) ::
        (.nested index (if target.a2b then 1 else 0), .balance target.outputType out) ::
        (.nested index 2,
          .resource ⟨target.pool, target.coinA, target.coinB, target.a2b, pay⟩) :: live) := by
  rw [Target.inputType, Target.outputType]
  cases target.a2b with
  | true => exact perm_reverse _ _ _ _
  | false => exact (perm_third _ _ _ _).symm

/-- **What a hop that is filled leaves**: its output, and a debt. -/
theorem reach_flashSwap {hop : Hop} {target : Target} {isFirst : Bool} {current output : Ref}
    {coinType : String} {pending : PendingRepay} {amount : ℕ} {answer : Answer}
    (htarget : IsTarget texts resolver slippageBps hop target)
    (htype : texts.typeTag coinType = .ok target.inputType)
    (hfirst : isFirst = true → hop.amountIn.toNat = amount)
    (hrun : flashSwap texts resolver slippageBps deployment.arguments hop isFirst current coinType
      commands = .ok ((output, pending), commands'))
    (h : Reach (network deployment answers funds) h₀ commands snap)
    (hperm : snap.live.Perm ((current, .balance target.inputType amount) :: rest))
    (hanswer : answers snap.calls (target.call amount) = some answer) :
    ∃ numbers, OnlyNumbers numbers ∧
      Debt.Of texts resolver slippageBps ⟨pending, target, amount, answer.payAmount⟩ ∧
      Reach (network deployment answers funds) h₀ commands' { snap with
        live := (output, .balance target.outputType answer.amountOut) ::
          (Debt.items ⟨pending, target, amount, answer.payAmount⟩ ++ (numbers ++ rest))
        calls := snap.calls + 1 } := by
  obtain ⟨amountRef, zero, measured, zeroed, hmeasured, hzero, hdestroy, rfl, rfl⟩ :=
    flashSwap_eq_ok htarget hrun
  obtain ⟨numbers, hnumbers, hreach, hvalue⟩ := reach_measured htype hfirst hmeasured h hperm
  have hzeroed := Sui.reach_balanceZero htarget.outputType hzero hreach
  have hflashed := reach_flash hzeroed (fun held hof => hvalue _ _ held hof fun entry hmem =>
    List.mem_cons_of_mem _ (List.mem_append_left _ hmem)) hanswer
  have hdestroyed := Sui.reach_destroyZeroBalance htarget.inputType hdestroy hflashed
    (perm_flashed target _ _ _ _)
  refine ⟨numbers, hnumbers, ⟨htarget, rfl⟩, hdestroyed.perm (List.Perm.cons _ ?_)⟩
  have hmoved := (hperm.append_left numbers).trans List.perm_middle
  exact ((hmoved.cons _).cons _).trans (perm_reverse _ _ _ _)

/-- A hop that is not filled fails. -/
lemma fails_flashSwap {hop : Hop} {target : Target} {isFirst : Bool} {current output : Ref}
    {coinType : String} {pending : PendingRepay} {amount : ℕ}
    (htarget : IsTarget texts resolver slippageBps hop target)
    (htype : texts.typeTag coinType = .ok target.inputType)
    (hfirst : isFirst = true → hop.amountIn.toNat = amount)
    (hrun : flashSwap texts resolver slippageBps deployment.arguments hop isFirst current coinType
      commands = .ok ((output, pending), commands'))
    (h : Reach (network deployment answers funds) h₀ commands snap)
    (hperm : snap.live.Perm ((current, .balance target.inputType amount) :: rest))
    (hanswer : answers snap.calls (target.call amount) = none) :
    Fails (network deployment answers funds) h₀ commands' := by
  obtain ⟨amountRef, zero, measured, zeroed, hmeasured, hzero, hdestroy, rfl, rfl⟩ :=
    flashSwap_eq_ok htarget hrun
  obtain ⟨numbers, hnumbers, hreach, hvalue⟩ := reach_measured htype hfirst hmeasured h hperm
  have hzeroed := Sui.reach_balanceZero htarget.outputType hzero hreach
  have hflashed := fails_flash hzeroed (fun held hof => hvalue _ _ held hof fun entry hmem =>
    List.mem_cons_of_mem _ (List.mem_append_left _ hmem)) hanswer
  exact hflashed.grow (Sui.grows_destroyZeroBalance _ _) hdestroy

/-! ## The loop over the hops -/

/-- **How pools fill hops that feed each other**, from this call on: each takes what it is offered, and
gives what the next one is offered. -/
def filled (answers : Answers) : ℕ → ℕ → List Target → Option ℕ
  | _, amount, [] => some amount
  | calls, amount, target :: targets => do
    let answer ← answers calls (target.call amount)
    if answer.payAmount = amount then filled answers (calls + 1) answer.amountOut targets else none

/-- The types of hops that feed each other. -/
inductive Feeds : TypeTag → List Target → TypeTag → Prop where
  | nil (tag : TypeTag) : Feeds tag [] tag
  | cons (target : Target) {targets : List Target} {last : TypeTag} :
      Feeds target.outputType targets last → Feeds target.inputType (target :: targets) last

/-- The types of a route whose hops feed each other. -/
lemma exists_feeds {hops : List Hop} {targets : List Target}
    (htargets : List.Forall₂ (IsTarget texts resolver slippageBps) hops targets)
    (hchain : List.IsChain (fun hop next : Hop => hop.outputCoinType = next.inputCoinType) hops) :
    ∀ {coinType : String} {tag : TypeTag}, texts.typeTag coinType = .ok tag →
      (∀ hop ∈ hops.head?, hop.inputCoinType = coinType) →
      ∃ last, Feeds tag targets last ∧
        texts.typeTag ((hops.getLast?.map Hop.outputCoinType).getD coinType) = .ok last := by
  induction htargets with
  | nil => exact fun htag _ => ⟨_, .nil _, htag⟩
  | @cons hop target hops targets htarget _ ih =>
    intro coinType tag htag hhead
    obtain ⟨hnext, hchain⟩ := List.isChain_cons.mp hchain
    have htype := htarget.inputType
    rw [hhead hop rfl, htag] at htype
    obtain rfl := Except.ok.inj htype
    obtain ⟨last, hfeeds, hlast⟩ :=
      ih hchain htarget.outputType fun next hmem => (hnext next hmem).symm
    refine ⟨last, .cons target hfeeds, ?_⟩
    rw [List.getLast?_cons]
    cases hget : hops.getLast? with
    | none | some final =>
      rw [hget] at hlast
      exact hlast

/-- Debts of calls that have been answered, and what came out last. -/
inductive Owed (answers : Answers) : ℕ → ℕ → List Debt → ℕ → Prop where
  | nil (calls amount : ℕ) : Owed answers calls amount [] amount
  | cons (debt : Debt) {debts : List Debt} {calls out amountOut : ℕ} :
      answers calls (debt.target.call debt.amount) = some ⟨debt.payAmount, amountOut⟩ →
      Owed answers (calls + 1) amountOut debts out → Owed answers calls debt.amount (debt :: debts) out

/-- The hops are filled when each debt is what is kept for it. -/
lemma Owed.filled_eq {calls amount out : ℕ} {debts : List Debt}
    (h : Owed answers calls amount debts out) :
    filled answers calls amount (debts.map Debt.target) =
      if ∀ debt ∈ debts, debt.payAmount = debt.amount then some out else none := by
  induction h with
  | nil calls amount => exact (if_pos fun debt hmem => absurd hmem List.not_mem_nil).symm
  | cons debt hanswer _ ih =>
    rw [List.map_cons, filled, hanswer]
    show (if debt.payAmount = debt.amount then filled answers _ _ _ else none) = _
    rw [ih]
    by_cases hpaid : debt.payAmount = debt.amount
    · rw [if_pos hpaid]
      refine if_congr ?_ rfl rfl
      rw [List.forall_mem_cons]
      exact (and_iff_right hpaid).symm
    · rw [if_neg hpaid, if_neg fun hall => hpaid (hall debt List.mem_cons_self)]

lemma grows_flashSwap (pools : PoolArguments) (hop : Hop) (isFirst : Bool) (current : Ref)
    (coinType : String) :
    Build.Grows (flashSwap texts resolver slippageBps pools hop isFirst current coinType) := by
  refine (grows_ofPtb ((Build.grows_ofExcept _).bind fun _ =>
    Build.grows_update fun _ => List.prefix_refl _)).bind fun pool => ?_
  refine (grows_ofPtb ?_).bind fun amount => ?_
  · cases isFirst with
    | true => exact Sui.grows_pureBytes _
    | false => exact Sui.grows_moveCall _ _ _ _ _
  refine (grows_ofPtb (Sui.grows_moveCall _ _ _ _ _)).bind fun zero => ?_
  refine (grows_ofPtb (Sui.grows_pureBytes _)).bind fun a2b => ?_
  refine (grows_ofPtb (Sui.grows_pureBytes _)).bind fun byAmountIn => ?_
  refine (grows_ofPtb (Sui.grows_pureBytes _)).bind fun limit => ?_
  refine (grows_ofPtb (Sui.grows_moveCall _ _ _ _ _)).bind fun returns => ?_
  refine Build.Grows.bind ?_ fun nested => ?_
  · rw [toNested3]
    split
    · exact Build.grows_pure _
    · exact Build.grows_ofExcept _
  exact (grows_ofPtb (Sui.grows_destroyZeroBalance _ _)).bind fun _ => Build.grows_pure _

lemma grows_flashSwaps (pools : PoolArguments) (hops : List Hop) :
    ∀ (isFirst : Bool) (current : Ref) (coinType : String) (pending : List PendingRepay),
      Build.Grows
        (flashSwaps texts resolver slippageBps pools hops isFirst current coinType pending) := by
  induction hops with
  | nil => exact fun _ _ _ _ => Build.grows_pure _
  | cons hop hops ih =>
    exact fun isFirst current coinType pending =>
      (grows_flashSwap pools hop isFirst current coinType).bind fun _ => ih _ _ _ _

/-- **The loop over the hops** fails at a hop that is not filled, or leaves a debt for each hop. -/
theorem reach_or_fails_flashSwaps {hops : List Hop} {targets : List Target}
    (htargets : List.Forall₂ (IsTarget texts resolver slippageBps) hops targets) :
    ∀ {isFirst : Bool} {current output : Ref} {coinType : String} {tag last : TypeTag}
      {amount : ℕ} {pending repays : List PendingRepay} {commands : List (Command Ref)}
      {snap : Snapshot Receipt} {rest : List (Ref × Item Receipt)},
      texts.typeTag coinType = .ok tag → Feeds tag targets last →
      (isFirst = true → ∀ hop ∈ hops.head?, hop.amountIn.toNat = amount) →
      flashSwaps texts resolver slippageBps deployment.arguments hops isFirst current coinType pending
        commands = .ok ((output, repays), commands') →
      Reach (network deployment answers funds) h₀ commands snap →
      snap.live.Perm ((current, .balance tag amount) :: rest) →
      (filled answers snap.calls amount targets = none ∧
        Fails (network deployment answers funds) h₀ commands') ∨
      ∃ debts numbers out, repays = pending ++ debts.map Debt.pending ∧
        debts.map Debt.target = targets ∧ (∀ debt ∈ debts, debt.Of texts resolver slippageBps) ∧
        Owed answers snap.calls amount debts out ∧ OnlyNumbers numbers ∧
        Reach (network deployment answers funds) h₀ commands' { snap with
          live := (output, .balance last out) :: (debts.flatMap Debt.items ++ (numbers ++ rest))
          calls := snap.calls + hops.length } := by
  induction htargets with
  | nil =>
    intro isFirst current output coinType tag last amount pending repays commands snap rest _ hfeeds _
      hrun h hperm
    cases hfeeds
    obtain ⟨hpair, rfl⟩ := Prod.mk.inj (Except.ok.inj hrun)
    obtain ⟨rfl, rfl⟩ := Prod.mk.inj hpair
    exact .inr ⟨[], [], amount, (List.append_nil _).symm, rfl,
      fun debt hmem => absurd hmem List.not_mem_nil, .nil _ _,
      fun entry hmem => absurd hmem List.not_mem_nil, h.perm hperm⟩
  | @cons hop target hops targets htarget _ ih =>
    intro isFirst current output coinType tag last amount pending repays commands snap rest htype
      hfeeds hfirst hrun h hperm
    obtain ⟨⟨next, repay⟩, flashed, hflash, hrest⟩ := Build.bind_eq_ok_iff.mp hrun
    have hamount : isFirst = true → hop.amountIn.toNat = amount := fun heq => hfirst heq hop rfl
    cases hfeeds with
    | cons _ hfeeds =>
      cases hanswer : answers snap.calls (target.call amount) with
      | none =>
        refine .inl ⟨?_, ?_⟩
        · rw [filled, hanswer]
          rfl
        · exact (fails_flashSwap htarget htype hamount hflash h hperm hanswer).grow
            (grows_flashSwaps _ _ _ _ _ _) hrest
      | some answer =>
        obtain ⟨numbers, hnumbers, hdebt, hreach⟩ :=
          reach_flashSwap htarget htype hamount hflash h hperm hanswer
        rcases ih htarget.outputType hfeeds (fun habsurd => by cases habsurd) hrest hreach
            (List.Perm.refl _) with ⟨hnone, hfails⟩ |
          ⟨debts, numbers', out, rfl, rfl, hdebts, howed, hnumbers', hreached⟩
        · refine .inl ⟨?_, hfails⟩
          rw [filled, hanswer]
          show (if answer.payAmount = amount then filled answers _ _ _ else none) = _
          rw [hnone, ite_self]
        · refine .inr ⟨⟨repay, target, amount, answer.payAmount⟩ :: debts, numbers' ++ numbers, out,
            List.append_assoc _ _ _, rfl, List.forall_mem_cons.mpr ⟨hdebt, hdebts⟩,
            .cons ⟨repay, target, amount, answer.payAmount⟩ hanswer howed, hnumbers'.append hnumbers, ?_⟩
          have hcalls : snap.calls + 1 + hops.length = snap.calls + (hop :: hops).length := by
            rw [List.length_cons, Nat.add_assoc, Nat.add_comm 1]
          rw [← hcalls, List.flatMap_cons, List.append_assoc, List.append_assoc]
          refine hreached.perm (List.Perm.cons _ ?_)
          exact ((List.perm_append_comm_assoc _ _ _).append_left _).trans
            (List.perm_append_comm_assoc _ _ _)

/-! ## The loop that pays back -/

/-- The command that pays a debt back. -/
lemma repayFlashSwap_eq_ok {debt : Debt} (hdebt : debt.Of texts resolver slippageBps)
    (hrun : repayFlashSwap texts deployment.arguments debt.pending commands = .ok ((), commands')) :
    commands' = commands ++ [repayCommand deployment debt.target.pool debt.target.coinA
      debt.target.coinB
      (if debt.target.a2b then debt.pending.payInput else debt.pending.payZeroOutput)
      (if debt.target.a2b then debt.pending.payZeroOutput else debt.pending.payInput)
      debt.pending.receipt] := by
  have hdirection : debt.pending.hop.orderByDirection debt.pending.payInput
      debt.pending.payZeroOutput =
      (if debt.target.a2b then debt.pending.payInput else debt.pending.payZeroOutput,
        if debt.target.a2b then debt.pending.payZeroOutput else debt.pending.payInput) := by
    rw [Hop.orderByDirection, hdebt.isTarget.a2b]
    cases debt.target.a2b with
    | true => rfl
    | false => rfl
  rw [repayFlashSwap, hdirection] at hrun
  obtain ⟨ref, s₁, hcall, hpure⟩ := ofPtb_bind_eq_ok_iff.mp hrun
  obtain ⟨-, rfl⟩ := Build.pure_eq_ok_iff.mp hpure
  obtain ⟨tags, htags, -, rfl⟩ := Sui.moveCall_eq_ok hcall
  obtain rfl := hdebt.isTarget.coins htags
  rw [hdebt.pool]
  rfl

/-- What is kept for a debt, in the order in which it is paid. -/
lemma Debt.perm_items (debt : Debt) (rest : List (Ref × Item Receipt)) :
    (debt.items ++ rest).Perm
      ((if debt.target.a2b then debt.pending.payInput else debt.pending.payZeroOutput,
          .balance debt.target.coinA (if debt.target.a2b then debt.amount else 0)) ::
        (if debt.target.a2b then debt.pending.payZeroOutput else debt.pending.payInput,
          .balance debt.target.coinB (if debt.target.a2b then 0 else debt.amount)) ::
        (debt.pending.receipt, .resource ⟨debt.target.pool, debt.target.coinA, debt.target.coinB,
          debt.target.a2b, debt.payAmount⟩) :: rest) := by
  rw [Debt.items, Target.inputType, Target.outputType]
  cases debt.target.a2b with
  | true => exact List.Perm.refl _
  | false => exact List.Perm.swap _ _ _

/-- What is paid is what is owed. -/
lemma paid_iff {a2b : Bool} {amount pay : ℕ} :
    ((if a2b then amount else 0) = (if a2b then pay else 0) ∧
      (if a2b then 0 else amount) = if a2b then 0 else pay) ↔ pay = amount := by
  cases a2b with
  | true => exact ⟨fun h => h.1.symm, fun h => ⟨h.symm, rfl⟩⟩
  | false => exact ⟨fun h => h.2.symm, fun h => ⟨rfl, h.symm⟩⟩

lemma grows_repayFlashSwaps (pools : PoolArguments) (repays : List PendingRepay) :
    Build.Grows (repayFlashSwaps texts pools repays) := by
  induction repays with
  | nil => exact Build.grows_pure ()
  | cons repay repays ih =>
    exact ((grows_ofPtb (Sui.grows_moveCall _ _ _ _ _)).bind fun _ => Build.grows_pure ()).bind
      fun _ => ih

/-- **The loop that pays back** settles the debts when what is kept for each is what is owed, and fails
when it is not. -/
theorem reach_or_fails_repayFlashSwaps {debts : List Debt}
    (hdebts : ∀ debt ∈ debts, debt.Of texts resolver slippageBps) :
    ∀ {commands : List (Command Ref)} {snap : Snapshot Receipt} {rest : List (Ref × Item Receipt)},
      repayFlashSwaps texts deployment.arguments (debts.map Debt.pending) commands =
        .ok ((), commands') →
      Reach (network deployment answers funds) h₀ commands snap →
      snap.live.Perm (debts.flatMap Debt.items ++ rest) →
      ((∀ debt ∈ debts, debt.payAmount = debt.amount) →
        Reach (network deployment answers funds) h₀ commands' { snap with live := rest }) ∧
      ((¬∀ debt ∈ debts, debt.payAmount = debt.amount) →
        Fails (network deployment answers funds) h₀ commands') := by
  induction debts with
  | nil =>
    intro commands snap rest hrun h hperm
    obtain ⟨-, rfl⟩ := Build.pure_eq_ok_iff.mp hrun
    exact ⟨fun _ => h.perm hperm,
      fun habsurd => (habsurd fun debt hmem => absurd hmem List.not_mem_nil).elim⟩
  | cons debt debts ih =>
    intro commands snap rest hrun h hperm
    obtain ⟨hdebt, hdebts⟩ := List.forall_mem_cons.mp hdebts
    obtain ⟨⟨⟩, repaid, hrepay, hrest⟩ := Build.bind_eq_ok_iff.mp hrun
    obtain rfl := repayFlashSwap_eq_ok hdebt hrepay
    rw [List.flatMap_cons, List.append_assoc] at hperm
    have hitems := hperm.trans (debt.perm_items _)
    by_cases hpaid : debt.payAmount = debt.amount
    · obtain ⟨hreach, hfails⟩ :=
        ih hdebts hrest (reach_repay h hitems (paid_iff.mpr hpaid)) (List.Perm.refl _)
      refine ⟨fun hall => hreach fun debt hmem => hall debt (List.mem_cons_of_mem _ hmem),
        fun hnot => hfails fun hall => hnot (List.forall_mem_cons.mpr ⟨hpaid, hall⟩)⟩
    · refine ⟨fun hall => absurd (hall debt List.mem_cons_self) hpaid, fun _ => ?_⟩
      exact (fails_repay h hitems fun habsurd => hpaid (paid_iff.mp habsurd)).grow
        (grows_repayFlashSwaps _ _) hrest

end Hops

end GemCore.Cetus

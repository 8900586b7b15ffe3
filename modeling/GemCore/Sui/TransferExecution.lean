import GemCore.Sui.Funding

/-!
# What transfers and stakes move

A transaction owes its request that it does not fail, and that the recipient or the validator gets
the amount that is asked for. The gas coin is what the two can disagree about: a native amount that
the funds of the address hold is withdrawn from them alone, while the budget comes from the objects
alone; and a transfer of everything sends the gas coin, and leaves the funds where they are.

## Main definitions

* `Moves`, `KeepsNothing` — what a transaction owes its request.
* `OwnedCoins.GasCovers` — the objects hold what they have to pay.

## Main results

* `transfers_spec` — when transfers and stakes do what they owe.
-/

namespace GemCore.Sui

open Lib (Build leBytes)

/-! ## What is owed -/

/-- The object of a reference. -/
def ObjectReference.objectId : ObjectReference → Address
  | owned objectId _ _ | immutable objectId _ _ | shared objectId _ | receiving objectId _ _ =>
    objectId

/-- No object is a payment and an input of a command. -/
def GasApart (transaction : Transaction) : Prop :=
  ∀ command ∈ transaction.commands, ∀ reference, Ref.object reference ∈ command.args →
    reference.objectId ∉ transaction.gasObjects.map ObjectInput.objectId

/-- The network, where no other programs are called. -/
def network (funds : Funds) : Environment Empty := ⟨funds, fun _ _ _ _ => none⟩

/-- **What a transaction owes its request**: it does not fail, this is received and this staked, and
the withdrawals are covered. -/
structure Moves (funds : Funds) (sui coinType : TypeTag) (transaction : Transaction)
    (coins : List Coin) (received staked : List (Address × TypeTag × ℕ)) (h : Holdings Empty) :
    Prop where
  executes : Executes (network funds) sui coinType transaction coins h
  received : h.received = received
  staked : h.staked = staked
  withdrawn_le : h.withdrawn ≤ funds.balance
  apart : GasApart transaction

/-- **Nothing is kept**: no coin is left, and the funds of the address are withdrawn. -/
def KeepsNothing (funds : Funds) (h : Holdings Empty) : Prop :=
  (∀ ref, h.items ref = none) ∧ h.withdrawn = funds.balance

/-- The funds of the address. -/
def OwnedCoins.funds (texts : TextLib) (owned : OwnedCoins) : Funds :=
  ⟨(texts.typeTag owned.coinType).toOption, owned.addressBalance.toNat⟩

/-- **The objects hold what they have to pay**: the budget, and the amount unless it is withdrawn. -/
def OwnedCoins.GasCovers (owned : OwnedCoins) (amount budget : UInt64) : Prop :=
  (if amount ≤ owned.addressBalance then budget.toNat else amount.toNat + budget.toNat) ≤
    worth owned.coins

instance (owned : OwnedCoins) (amount budget : UInt64) :
    Decidable (owned.GasCovers amount budget) :=
  inferInstanceAs (Decidable (_ ≤ _))

section Requests

variable (texts : TextLib) (sui : TypeTag) (transaction : Transaction)

/-- A native transfer does what it owes. -/
def TransferInput.Met (input : TransferInput) : Prop :=
  ∃ recipient coinType h, texts.address input.recipient = .ok recipient ∧
    IsNativeType texts input.coins sui coinType ∧
    Moves (input.coins.funds texts) sui sui transaction input.coins.coins
      [(recipient, coinType, input.amount.toNat)] [] h ∧
    (input.sendMax = true → KeepsNothing (input.coins.funds texts) h)

/-- A transfer of a token does what it owes. -/
def TokenTransferInput.Met (input : TokenTransferInput) : Prop :=
  ∃ recipient coinType h, texts.address input.recipient = .ok recipient ∧
    texts.typeTag input.tokens.coinType = .ok coinType ∧
    Moves (input.tokens.funds texts) sui coinType transaction (input.gasCoin :: input.tokens.coins)
      [(recipient, coinType, input.amount.toNat)] [] h

/-- A stake does what it owes. -/
def StakeInput.Met (input : StakeInput) : Prop :=
  ∃ validator coinType h, texts.address input.validator = .ok validator ∧
    IsNativeType texts input.coins sui coinType ∧
    Moves (input.coins.funds texts) sui sui transaction input.coins.coins []
      [(validator, coinType, input.stakeAmount.toNat)] h

end Requests

/-! ## Native coins -/

section Native

variable {texts : TextLib} {owned : OwnedCoins} {sui : TypeTag} {amount budget : UInt64}

/-- The start when all objects pay. -/
def nativeStart (sui : TypeTag) (coins : List Coin) (budget : UInt64) : Holdings Empty :=
  ⟨Lib.storeOf [(.gas, .coin sui (worth coins - budget.toNat))], 0, [], [], 0⟩

lemma referTo_toInput : ReferTo Coin.toInput := fun _ => .inl rfl

/-- **What happens when all objects pay.** -/
theorem executes_native_iff {coins : List Coin} (hnodup : (coins.map Coin.objectId).Nodup)
    {commands : List (Command Ref)} {env : Environment Empty} {h : Holdings Empty} :
    Executes env sui sui ⟨commands, coins.map Coin.toInput, budget⟩ coins h ↔
      budget.toNat ≤ worth coins ∧
        execAll env 0 commands (nativeStart sui coins budget) = some h ∧
        ∀ ref, ref.command? ≠ none → ∀ item, h.items ref = some item → item.IsNumber := by
  have hfilter : (coins.filter fun coin => coin.objectId ∉ coins.map Coin.objectId) = [] := by
    refine List.filter_eq_nil_iff.mpr fun coin hcoin => ?_
    rw [decide_eq_true_eq, not_not]
    exact List.mem_map_of_mem hcoin
  rw [Executes, start_payments referTo_toInput hnodup (List.Subset.refl coins) hnodup,
    initialItems, hfilter]
  by_cases hbudget : budget.toNat ≤ worth coins
  · rw [if_pos hbudget]
    constructor
    · rintro ⟨h₀, hstart, hrun, hresults⟩
      obtain rfl := Option.some.inj hstart
      exact ⟨hbudget, hrun, hresults⟩
    · rintro ⟨-, hrun, hresults⟩
      exact ⟨_, rfl, hrun, hresults⟩
  · rw [if_neg hbudget]
    constructor
    · rintro ⟨h₀, hstart, -⟩
      cases hstart
    · exact fun habsurd => absurd habsurd.1 hbudget

/-- At the start there is the gas coin. -/
lemma reach_nativeStart (env : Environment Empty) (sui : TypeTag) (coins : List Coin)
    (budget : UInt64) :
    Reach env (nativeStart sui coins budget) []
      ⟨[(.gas, .coin sui (worth coins - budget.toNat))], 0, [], [], 0⟩ :=
  @reach_nil _ [] env List.nodup_nil sui sui _

/-- The commands that make a native coin refer to no object. -/
lemma object_not_mem_of_buildNativeCoin {ref : Ref} {ptb : List (Command Ref)}
    (h : buildNativeCoin texts owned amount [] = .ok (ref, ptb)) {command : Command Ref}
    (hmem : command ∈ ptb) (reference : ObjectReference) :
    Ref.object reference ∉ command.args ∧ ref ≠ .object reference := by
  rcases buildNativeCoin_eq_ok h with ⟨-, coinType, -, rfl, rfl⟩ | ⟨-, rfl, rfl⟩
  · obtain rfl := List.mem_singleton.mp hmem
    refine ⟨fun hargs => ?_, fun heq => by cases heq⟩
    cases List.mem_singleton.mp hargs
  · obtain rfl := List.mem_singleton.mp hmem
    refine ⟨fun hargs => ?_, fun heq => by cases heq⟩
    rcases List.mem_cons.mp hargs with heq | hargs
    · cases heq
    · cases List.mem_singleton.mp hargs

/-- The one object that a command that sends a coin can refer to is the coin. -/
theorem eq_of_mem_args_sendCommand {ref : Ref} {recipient : Address} {reference : ObjectReference}
    (h : Ref.object reference ∈ (sendCommand ref recipient).args) : ref = .object reference := by
  rcases List.mem_cons.mp h with heq | hargs
  · exact heq.symm
  · cases List.mem_singleton.mp hargs

/-- The amount is there for the withdrawal, or in the gas coin beside the budget. -/
theorem gasCovers_iff : owned.GasCovers amount budget ↔
    budget.toNat ≤ worth owned.coins ∧
      (amount ≤ owned.addressBalance ∨ amount.toNat ≤ worth owned.coins - budget.toNat) := by
  rw [OwnedCoins.GasCovers]
  by_cases hle : amount ≤ owned.addressBalance
  · rw [if_pos hle]
    exact ⟨fun h => ⟨h, .inl hle⟩, fun h => h.1⟩
  · rw [if_neg hle]
    constructor
    · intro h
      exact ⟨by omega, .inr (by omega)⟩
    · rintro ⟨hbudget, hamount⟩
      rcases hamount with habsurd | hamount
      · exact absurd habsurd hle
      · omega

/-- A command that gives a coin away, to be received or staked. -/
structure GivesAway (ref : Ref) (value : ℕ) (received staked : TypeTag → List (Address × TypeTag × ℕ))
    (command : Command Ref) : Prop where
  reach : ∀ {env : Environment Empty} {h₀ commands coinType left withdrawn},
    Reach env h₀ commands ⟨(ref, .coin coinType value) :: left, withdrawn, [], [], 0⟩ →
      Reach env h₀ (commands ++ [command])
        ⟨left, withdrawn, received coinType, staked coinType, 0⟩

lemma givesAway_send (ref : Ref) (value : ℕ) (recipient : Address) :
    GivesAway ref value (fun coinType => [(recipient, coinType, value)]) (fun _ => [])
      (sendCommand ref recipient) :=
  ⟨fun h => h.send (List.Perm.refl _) recipient⟩

lemma givesAway_stake (ref : Ref) (value : ℕ) (validator : Address) :
    GivesAway ref value (fun _ => []) (fun coinType => [(validator, coinType, value)])
      (stakeCommand ref validator) :=
  ⟨fun h => h.stake (List.Perm.refl _) validator⟩

/-- **A native coin that is made and given away**: the transaction does what it owes exactly when the
objects hold what they have to pay. -/
theorem exists_moves_native_iff (sui : TypeTag) (budget : UInt64) {ref : Ref} {ptb : List (Command Ref)}
    (hnodup : (owned.coins.map Coin.objectId).Nodup)
    (hcoin : buildNativeCoin texts owned amount [] = .ok (ref, ptb)) {use : Command Ref}
    {received staked : TypeTag → List (Address × TypeTag × ℕ)}
    (huse : GivesAway ref amount.toNat received staked use)
    (hobject : ∀ reference, Ref.object reference ∈ use.args → ref ≠ .object reference →
      reference.objectId ∉ owned.coins.map Coin.objectId) :
    (∃ coinType h, IsNativeType texts owned sui coinType ∧
      Moves (owned.funds texts) sui sui
        ⟨ptb ++ [use], owned.coins.map Coin.toInput, budget⟩ owned.coins (received coinType)
        (staked coinType) h) ↔ owned.GasCovers amount budget := by
  have hstart := reach_nativeStart (network (owned.funds texts)) sui owned.coins budget
  rw [gasCovers_iff]
  by_cases hcover : amount ≤ owned.addressBalance ∨
      amount.toNat ≤ worth owned.coins - budget.toNat
  · obtain ⟨coinType, left, withdrawn, hmade, hnative, honly, hwithdrawn⟩ :=
      reach_buildNativeCoin hcoin hstart rfl hcover
    obtain ⟨h, hrun, hof⟩ := huse.reach hmade
    constructor
    · rintro ⟨coinType', h', -, hmoves⟩
      exact ⟨((executes_native_iff hnodup).mp hmoves.executes).1, hcover⟩
    · rintro ⟨hbudget, -⟩
      refine ⟨coinType, h, hnative, (executes_native_iff hnodup).mpr ⟨hbudget, hrun,
        fun ref' href item hitem => ?_⟩, hof.received, hof.staked, ?_,
        fun command hcommand reference hargs => ?_⟩
      · rw [hof.items_eq_none honly href] at hitem
        cases hitem
      · rw [hof.withdrawn]
        exact hwithdrawn
      · rw [referTo_toInput.map_objectId]
        have hne : ref ≠ .object reference := by
          rcases buildNativeCoin_eq_ok hcoin with ⟨-, coinType, -, rfl, -⟩ | ⟨-, rfl, -⟩
          · exact fun heq => by cases heq
          · exact fun heq => by cases heq
        rcases List.mem_append.mp hcommand with hmem | hmem
        · exact absurd hargs (object_not_mem_of_buildNativeCoin hcoin hmem reference).1
        · obtain rfl := List.mem_singleton.mp hmem
          exact hobject reference hargs hne
  · have hfails := (fails_buildNativeCoin hcoin hstart hcover).append [use]
    constructor
    · rintro ⟨coinType, h, -, hmoves⟩
      have hsome := ((executes_native_iff hnodup).mp hmoves.executes).2.1
      rw [hfails] at hsome
      cases hsome
    · exact fun habsurd => absurd habsurd.2 hcover

/-- The address that a text is parsed as. -/
lemma exists_parsed_iff {address : String} {parsed : Address}
    {p : Address → TypeTag → Holdings Empty → Prop} (h : texts.address address = .ok parsed) :
    (∃ recipient coinType held, texts.address address = .ok recipient ∧
      p recipient coinType held) ↔ ∃ coinType held, p parsed coinType held := by
  constructor
  · rintro ⟨recipient, coinType, held, hrecipient, hp⟩
    rw [h] at hrecipient
    obtain rfl := Except.ok.inj hrecipient
    exact ⟨coinType, held, hp⟩
  · rintro ⟨coinType, held, hp⟩
    exact ⟨parsed, coinType, held, h, hp⟩

/-- **A native transfer of an amount** does what it owes exactly when the objects hold what they have
to pay. -/
theorem TransferInput.met_iff_of_not_sendMax {tryBuild : Transaction → Except String Unit}
    {input : TransferInput} {transaction : Transaction}
    (h : encodeTransfer texts tryBuild input = .ok transaction)
    (hnodup : (input.coins.coins.map Coin.objectId).Nodup) (hmax : ¬input.sendMax = true) :
    input.Met texts sui transaction ↔ input.coins.GasCovers input.amount input.gas.budget := by
  obtain ⟨recipient, commands, hrecipient, rfl, hcommands⟩ := encodeTransfer_eq_ok h
  rw [if_neg hmax] at hcommands
  obtain ⟨ref, ptb, hcoin, rfl⟩ := hcommands
  have hmoves := exists_moves_native_iff sui input.gas.budget hnodup hcoin
    (givesAway_send ref input.amount.toNat recipient)
    fun reference hargs hne => absurd (eq_of_mem_args_sendCommand hargs) hne
  rw [TransferInput.Met, exists_parsed_iff hrecipient, ← hmoves]
  refine exists_congr fun coinType => exists_congr fun held => and_congr_right fun _ => ?_
  exact and_iff_left fun habsurd => absurd habsurd hmax

/-- **A stake** does what it owes exactly when the objects hold what they have to pay. -/
theorem StakeInput.met_iff {tryBuild : Transaction → Except String Unit}
    {input : StakeInput} {transaction : Transaction}
    (h : encodeSplitAndStake texts tryBuild input = .ok transaction)
    (hnodup : (suiSystemStateObjectInput.objectId ::
      input.coins.coins.map Coin.objectId).Nodup) :
    input.Met texts sui transaction ↔
      input.coins.GasCovers input.stakeAmount input.gas.budget := by
  obtain ⟨validator, ref, ptb, hvalidator, hcoin, rfl⟩ := encodeSplitAndStake_eq_ok h
  obtain ⟨hsystem, hnodup⟩ := List.nodup_cons.mp hnodup
  rw [StakeInput.Met, exists_parsed_iff hvalidator]
  refine exists_moves_native_iff sui _ hnodup hcoin (givesAway_stake ref _ validator) ?_
  intro reference hargs hne
  rcases List.mem_cons.mp hargs with heq | hargs
  · obtain rfl := Ref.object.inj heq
    exact hsystem
  · rcases List.mem_cons.mp hargs with heq | hargs
    · exact absurd heq.symm hne
    · cases List.mem_singleton.mp hargs

/-- **A native transfer of everything** does what it owes exactly when there are no funds beside the
objects, and these hold exactly the amount and the budget. -/
theorem TransferInput.met_iff_of_sendMax {tryBuild : Transaction → Except String Unit}
    {input : TransferInput} {transaction : Transaction}
    (h : encodeTransfer texts tryBuild input = .ok transaction)
    (hnodup : (input.coins.coins.map Coin.objectId).Nodup) (hmax : input.sendMax = true) :
    input.Met texts sui transaction ↔ input.coins.addressBalance = 0 ∧
      worth input.coins.coins = input.amount.toNat + input.gas.budget.toNat := by
  obtain ⟨recipient, commands, hrecipient, rfl, hcommands⟩ := encodeTransfer_eq_ok h
  rw [if_pos hmax] at hcommands
  subst hcommands
  obtain ⟨held, hrun, hof⟩ := (reach_nativeStart (network (input.coins.funds texts)) sui
    input.coins.coins input.gas.budget).send (List.Perm.refl _) recipient
  rw [TransferInput.Met, exists_parsed_iff hrecipient]
  constructor
  · rintro ⟨coinType, held', -, hmoves, hkeeps⟩
    obtain ⟨hbudget, hrun', -⟩ := (executes_native_iff hnodup).mp hmoves.executes
    obtain rfl := Option.some.inj (hrun.symm.trans hrun')
    have hreceived := List.head_eq_of_cons_eq (hof.received.symm.trans hmoves.received)
    have hamount : worth input.coins.coins - input.gas.budget.toNat = input.amount.toNat :=
      (Prod.mk.inj (Prod.mk.inj hreceived).2).2
    have hzero : 0 = input.coins.addressBalance.toNat :=
      hof.withdrawn.symm.trans (hkeeps hmax).2
    exact ⟨UInt64.toNat_inj.mp hzero.symm, by omega⟩
  · rintro ⟨hzero, hworth⟩
    have hamount : worth input.coins.coins - input.gas.budget.toNat = input.amount.toNat := by
      omega
    have hnone : ∀ ref, held.items ref = none := fun ref =>
      hof.owns.get_none List.not_mem_nil
    refine ⟨sui, held, .inl rfl, ⟨(executes_native_iff hnodup).mpr ⟨by omega, hrun,
      fun ref _ item hitem => ?_⟩, ?_, hof.staked, ?_, fun command hcommand reference hargs => ?_⟩,
      fun _ => ⟨hnone, ?_⟩⟩
    · rw [hnone ref] at hitem
      cases hitem
    · rw [← hamount]
      exact hof.received
    · rw [hof.withdrawn]
      exact Nat.zero_le _
    · obtain rfl := List.mem_singleton.mp hcommand
      cases eq_of_mem_args_sendCommand hargs
    · rw [hof.withdrawn]
      show 0 = input.coins.addressBalance.toNat
      rw [hzero]
      rfl

end Native

/-! ## Tokens -/

section Tokens

variable {texts : TextLib} {coinType sui : TypeTag} {amount : UInt64}

/-- The start when a coin of another type pays. -/
def tokenStart (sui coinType : TypeTag) (gasCoin : Coin) (tokens : List Coin) (budget : UInt64) :
    Holdings Empty :=
  ⟨Lib.storeOf ((.gas, .coin sui (gasCoin.balance.toNat - budget.toNat)) ::
    tokens.map (Coin.held coinType)), 0, [], [], 0⟩

/-- **What happens when a coin of another type pays.** -/
theorem executes_token_iff {gasCoin : Coin} {tokens : List Coin} {budget : UInt64}
    (hnodup : ((gasCoin :: tokens).map Coin.objectId).Nodup) {commands : List (Command Ref)}
    {env : Environment Empty} {h : Holdings Empty} :
    Executes env sui coinType
        ⟨commands, [.immutable gasCoin.objectId gasCoin.version gasCoin.digest], budget⟩
        (gasCoin :: tokens) h ↔
      budget.toNat ≤ gasCoin.balance.toNat ∧
        execAll env 0 commands (tokenStart sui coinType gasCoin tokens budget) = some h ∧
        ∀ ref, ref.command? ≠ none → ∀ item, h.items ref = some item → item.IsNumber := by
  have hinput : ReferTo fun coin => .immutable coin.objectId coin.version coin.digest :=
    fun _ => .inr rfl
  have hworth : worth [gasCoin] = gasCoin.balance.toNat := List.sum_singleton
  have hsubset : [gasCoin] ⊆ gasCoin :: tokens := List.cons_subset_cons _ (List.nil_subset _)
  have hfilter : ((gasCoin :: tokens).filter fun coin =>
      coin.objectId ∉ [gasCoin].map Coin.objectId) = tokens := by
    rw [List.filter_cons, if_neg (by
      rw [decide_eq_true_eq, not_not]
      exact List.mem_singleton.mpr rfl)]
    refine List.filter_eq_self.mpr fun coin hcoin => decide_eq_true fun hmem => ?_
    exact (List.nodup_cons.mp hnodup).1 (List.mem_singleton.mp hmem ▸ List.mem_map_of_mem hcoin)
  have hstart := @start_payments Empty _ _ _ hinput hnodup hsubset (List.nodup_singleton _) sui
    coinType commands budget
  rw [hworth, initialItems, hfilter, List.map_singleton] at hstart
  rw [Executes, hstart]
  by_cases hbudget : budget.toNat ≤ gasCoin.balance.toNat
  · rw [if_pos hbudget]
    constructor
    · rintro ⟨h₀, hh₀, hrun, hresults⟩
      obtain rfl := Option.some.inj hh₀
      exact ⟨hbudget, hrun, hresults⟩
    · rintro ⟨-, hrun, hresults⟩
      exact ⟨_, rfl, hrun, hresults⟩
  · rw [if_neg hbudget]
    constructor
    · rintro ⟨h₀, hh₀, -⟩
      cases hh₀
    · exact fun habsurd => absurd habsurd.1 hbudget

/-- The objects of the commands that make a coin of a token are tokens. -/
lemma exists_coin_of_mem_args {addressBalance : UInt64} {tokens : List Coin} {ref : Ref}
    {ptb : List (Command Ref)}
    (h : buildAmountCoin coinType amount addressBalance tokens [] = .ok (ref, ptb))
    {command : Command Ref} (hcommand : command ∈ ptb) {reference : ObjectReference}
    (hargs : Ref.object reference ∈ command.args) :
    ∃ coin ∈ tokens, Ref.object reference = coin.ref := by
  by_cases hwithdraw : amount ≤ addressBalance
  · rw [buildAmountCoin_of_le hwithdraw] at h
    obtain ⟨-, rfl⟩ := Prod.mk.inj (Except.ok.inj h)
    obtain rfl := List.mem_singleton.mp hcommand
    cases List.mem_singleton.mp hargs
  · obtain ⟨coin, rest, gathered, rfl, hgathered, rfl, rfl⟩ :=
      buildAmountCoin_of_not_le hwithdraw h
    have hfirst : ∀ {l : List Ref}, (∀ reference, Ref.object reference ∉ l) →
        Ref.object reference ∈ coin.ref :: l →
        ∃ token ∈ coin :: rest, Ref.object reference = token.ref := by
      intro l hnone hmem
      rcases List.mem_cons.mp hmem with heq | hmem
      · exact ⟨coin, List.mem_cons_self, heq⟩
      · exact absurd hmem (hnone reference)
    have hmerged : ∀ command ∈ (if rest.map Coin.ref ≠ [] then
        [Command.mergeCoins coin.ref (rest.map Coin.ref)] else []),
        Ref.object reference ∈ command.args →
        ∃ token ∈ coin :: rest, Ref.object reference = token.ref := by
      intro command hcommand hargs
      by_cases hrest : rest.map Coin.ref ≠ []
      · rw [if_pos hrest] at hcommand
        obtain rfl := List.mem_singleton.mp hcommand
        have hmem : Ref.object reference ∈ (coin :: rest).map Coin.ref := hargs
        obtain ⟨token, htoken, heq⟩ := List.mem_map.mp hmem
        exact ⟨token, htoken, heq.symm⟩
      · rw [if_neg hrest] at hcommand
        cases hcommand
    rcases List.mem_append.mp hcommand with hmem | hmem
    · rw [hgathered, gatherCommands] at hmem
      by_cases htotal : balanceTotal (coin :: rest) < amount
      · rw [if_pos htotal] at hmem
        rcases List.mem_append.mp hmem with hmem | hmem
        · exact hmerged command hmem hargs
        · rcases List.mem_cons.mp hmem with rfl | hmem
          · cases List.mem_singleton.mp hargs
          · obtain rfl := List.mem_singleton.mp hmem
            exact hfirst (fun _ hmem => by cases List.mem_singleton.mp hmem) hargs
      · rw [if_neg htotal] at hmem
        exact hmerged command hmem hargs
    · obtain rfl := List.mem_singleton.mp hmem
      exact hfirst (fun _ hmem => by cases List.mem_singleton.mp hmem) hargs

/-- The coin that is made is no object. -/
lemma ne_object_of_buildAmountCoin {addressBalance : UInt64} {tokens : List Coin} {ref : Ref}
    {ptb : List (Command Ref)}
    (h : buildAmountCoin coinType amount addressBalance tokens [] = .ok (ref, ptb))
    (reference : ObjectReference) : ref ≠ .object reference := by
  by_cases hwithdraw : amount ≤ addressBalance
  · rw [buildAmountCoin_of_le hwithdraw] at h
    obtain ⟨rfl, -⟩ := Prod.mk.inj (Except.ok.inj h)
    exact fun heq => by cases heq
  · obtain ⟨coin, rest, gathered, rfl, -, rfl, -⟩ := buildAmountCoin_of_not_le hwithdraw h
    exact fun heq => by cases heq

/-- **A transfer of a token** does what it owes exactly when the coin that pays holds the budget. -/
theorem TokenTransferInput.met_iff {tryBuild : Transaction → Except String Unit}
    {input : TokenTransferInput} {transaction : Transaction}
    (h : encodeTokenTransfer texts tryBuild input = .ok transaction)
    (hnodup : ((input.gasCoin :: input.tokens.coins).map Coin.objectId).Nodup) :
    input.Met texts sui transaction ↔
      input.gas.budget.toNat ≤ input.gasCoin.balance.toNat := by
  obtain ⟨recipient, coinType, ref, ptb, hrecipient, hle, htype, hcoin, rfl⟩ :=
    encodeTokenTransfer_eq_ok h
  have hfunds : input.tokens.funds texts =
      ⟨some coinType, input.tokens.addressBalance.toNat⟩ := by
    rw [OwnedCoins.funds, htype]
    rfl
  have hstart := reach_nil (network (input.tokens.funds texts)) (List.nodup_cons.mp hnodup).2 sui
    coinType (input.gasCoin.balance.toNat - input.gas.budget.toNat)
  obtain ⟨left, withdrawn, hmade, honly, hwithdrawn⟩ := reach_buildAmountCoin hcoin hstart
    (List.perm_append_singleton _ _).symm rfl hfunds hle
  obtain ⟨held, hrun, hof⟩ := hmade.send (List.Perm.refl _) recipient
  rw [TokenTransferInput.Met, exists_parsed_iff hrecipient]
  constructor
  · rintro ⟨coinType', held', -, hmoves⟩
    exact ((executes_token_iff hnodup).mp hmoves.executes).1
  · intro hbudget
    refine ⟨coinType, held, htype, (executes_token_iff hnodup).mpr ⟨hbudget, hrun,
      fun ref' href item hitem => ?_⟩, hof.received, hof.staked, ?_,
      fun command hcommand reference hargs hmem => ?_⟩
    · have hall : OnlyObjects (left ++ [((.gas, .coin sui (input.gasCoin.balance.toNat -
          input.gas.budget.toNat)) : Ref × Item Empty)]) := by
        intro ref'' hmem
        rw [List.map_append] at hmem
        rcases List.mem_append.mp hmem with hmem | hmem
        · exact honly ref'' hmem
        · rw [List.mem_singleton.mp hmem]
          rfl
      rw [hof.items_eq_none hall href] at hitem
      cases hitem
    · rw [hof.withdrawn]
      exact hwithdrawn
    · have hgas : reference.objectId = input.gasCoin.objectId := List.mem_singleton.mp hmem
      rcases List.mem_append.mp hcommand with hmade' | hsend
      · obtain ⟨coin, htoken, heq⟩ := exists_coin_of_mem_args hcoin hmade' hargs
        obtain rfl := Ref.object.inj heq
        exact (List.nodup_cons.mp hnodup).1 (hgas ▸ List.mem_map_of_mem htoken)
      · obtain rfl := List.mem_singleton.mp hsend
        exact ne_object_of_buildAmountCoin hcoin reference (eq_of_mem_args_sendCommand hargs)

end Tokens

/-! ## All requests -/

/-- **When transfers and stakes do what they owe.** A native transfer of an amount and a stake do
exactly when the objects hold the budget, and the amount too unless it is withdrawn; a native transfer
of everything, exactly when the address has no funds beside the objects and these hold exactly the
amount and the budget; a transfer of a token, exactly when the coin that pays holds the budget.

**Proof sketch.** The gas coin holds what the objects do, less the budget. A native coin is withdrawn,
or split off the gas coin; a token coin is withdrawn, or split off the first of the tokens after the
others and what they fall short of have been merged into it. It is then the only result that is left,
and the last command gives it away. -/
theorem transfers_spec (texts : TextLib) (sui : TypeTag)
    (tryBuild : Transaction → Except String Unit) :
    (∀ (input : TransferInput) (transaction : Transaction),
      encodeTransfer texts tryBuild input = .ok transaction →
      (input.coins.coins.map Coin.objectId).Nodup →
      (input.Met texts sui transaction ↔
        if input.sendMax = true then
          input.coins.addressBalance = 0 ∧
            worth input.coins.coins = input.amount.toNat + input.gas.budget.toNat
        else input.coins.GasCovers input.amount input.gas.budget)) ∧
    (∀ (input : StakeInput) (transaction : Transaction),
      encodeSplitAndStake texts tryBuild input = .ok transaction →
      (suiSystemStateObjectInput.objectId :: input.coins.coins.map Coin.objectId).Nodup →
      (input.Met texts sui transaction ↔ input.coins.GasCovers input.stakeAmount input.gas.budget)) ∧
    (∀ (input : TokenTransferInput) (transaction : Transaction),
      encodeTokenTransfer texts tryBuild input = .ok transaction →
      ((input.gasCoin :: input.tokens.coins).map Coin.objectId).Nodup →
      (input.Met texts sui transaction ↔
        input.gas.budget.toNat ≤ input.gasCoin.balance.toNat)) := by
  refine ⟨fun input transaction h hnodup => ?_, fun input transaction h hnodup => ?_,
    fun input transaction h hnodup => ?_⟩
  · by_cases hmax : input.sendMax = true
    · rw [if_pos hmax]
      exact TransferInput.met_iff_of_sendMax h hnodup hmax
    · rw [if_neg hmax]
      exact TransferInput.met_iff_of_not_sendMax h hnodup hmax
  · exact StakeInput.met_iff h hnodup
  · exact TokenTransferInput.met_iff h hnodup

/-! ## Some requests -/

/-- The parsers on the texts of the requests below. -/
def walletTexts : TextLib where
  address text :=
    if text = "0x0000000000000000000000000000000000000000000000000000000000000007" then
      .ok (byteAddress 7)
    else .error "invalid address"
  digest _ := .error "invalid digest"
  typeTag text := if text = "0x2::sui::SUI" ∨ text = "0x9::usdc::USDC" then .ok ⟨text⟩
    else .error "invalid type"
  identifier _ := .ok ()
  decodeBase64 _ := .error "invalid base64"
  addressText _ := ""

/-- The type of the gas coin. -/
def walletSui : TypeTag := ⟨"0x2::sui::SUI"⟩

/-- The account of the requests below. -/
def walletAddress : String := "0x0000000000000000000000000000000000000000000000000000000000000007"

/-- An object with this last byte in its id. -/
def walletCoin (id : UInt8) (balance : UInt64) : Coin :=
  ⟨balance, byteAddress id, 1, Lib.FixedBytes.zeros 32⟩

/-- A transfer of one coin. -/
def walletTransfer (objectBalance addressBalance : UInt64) (sendMax : Bool) : TransferInput where
  sender := walletAddress
  recipient := walletAddress
  amount := 1000000000
  coins := ⟨"0x2::sui::SUI", [walletCoin 16 objectBalance], addressBalance⟩
  sendMax := sendMax
  gas := ⟨25000000, 750⟩

/-- A stake of one coin. -/
def walletStake : StakeInput where
  sender := walletAddress
  validator := walletAddress
  stakeAmount := 1000000000
  gas := ⟨25000000, 750⟩
  coins := ⟨"0x2::sui::SUI", [walletCoin 16 800000000, walletCoin 17 300000000], 0⟩

/-- A transfer of a token, from two objects and the funds of the address. -/
def walletTokenTransfer : TokenTransferInput where
  sender := walletAddress
  recipient := walletAddress
  amount := 200000000
  tokens := ⟨"0x9::usdc::USDC", [walletCoin 16 100000000, walletCoin 17 50000000], 60000000⟩
  gas := ⟨25000000, 750⟩
  gasCoin := walletCoin 18 100000000

/-- Requests that are met. -/
theorem transfers_spec_sample :
    (∃ transaction, encodeTransfer walletTexts (fun _ => .ok ()) (walletTransfer 25000000 1000000000
        false) = .ok transaction ∧
      (walletTransfer 25000000 1000000000 false).Met walletTexts walletSui transaction) ∧
    (∃ transaction, encodeSplitAndStake walletTexts (fun _ => .ok ()) walletStake =
        .ok transaction ∧ walletStake.Met walletTexts walletSui transaction) ∧
    (∃ transaction, encodeTokenTransfer walletTexts (fun _ => .ok ()) walletTokenTransfer =
        .ok transaction ∧ walletTokenTransfer.Met walletTexts walletSui transaction) := by
  obtain ⟨htransfer, hstake, htoken⟩ := transfers_spec walletTexts walletSui fun _ => .ok ()
  refine ⟨⟨_, rfl, (htransfer _ _ rfl (by decide +kernel)).mpr ?_⟩,
    ⟨_, rfl, (hstake _ _ rfl (by decide +kernel)).mpr (by decide +kernel)⟩,
    ⟨_, rfl, (htoken _ _ rfl (by decide +kernel)).mpr (by decide +kernel)⟩⟩
  exact (by decide +kernel :
    (walletTransfer 25000000 1000000000 false).coins.GasCovers 1000000000 25000000)

/-- A request is built and not met, although what is held covers the amount and the budget. -/
def TransferInput.FallsShort (input : TransferInput) : Prop :=
  (input.coins.coins.map Coin.objectId).Nodup ∧
    input.amount.toNat + input.gas.budget.toNat ≤
      worth input.coins.coins + input.coins.addressBalance.toNat ∧
    ∃ transaction, encodeTransfer walletTexts (fun _ => .ok ()) input = .ok transaction ∧
      ¬input.Met walletTexts walletSui transaction

/-- **Requests that are built and not met**, although what is held covers the amount and the budget:
an amount that is withdrawn while the object does not hold the budget; an amount that the object holds,
but not together with the budget; and everything, with funds beside the object. -/
theorem transfers_fall_short :
    (walletTransfer 1 2000000000 false).FallsShort ∧
      (walletTransfer 1000000001 900000000 false).FallsShort ∧
      (walletTransfer 1025000000 1 true).FallsShort := by
  have hbuilt : ∀ input ∈ [walletTransfer 1 2000000000 false,
      walletTransfer 1000000001 900000000 false, walletTransfer 1025000000 1 true],
      ∃ transaction, encodeTransfer walletTexts (fun _ => .ok ()) input = .ok transaction :=
    List.forall_mem_cons.mpr ⟨⟨_, rfl⟩, List.forall_mem_cons.mpr ⟨⟨_, rfl⟩,
      List.forall_mem_singleton.mpr ⟨_, rfl⟩⟩⟩
  have hshort : ∀ input ∈ [walletTransfer 1 2000000000 false,
      walletTransfer 1000000001 900000000 false, walletTransfer 1025000000 1 true],
      (input.coins.coins.map Coin.objectId).Nodup ∧
      input.amount.toNat + input.gas.budget.toNat ≤
        worth input.coins.coins + input.coins.addressBalance.toNat ∧
      (if input.sendMax = true then input.coins.addressBalance ≠ 0
      else ¬input.coins.GasCovers input.amount input.gas.budget) := by
    decide +kernel
  have hall : ∀ input ∈ [walletTransfer 1 2000000000 false,
      walletTransfer 1000000001 900000000 false, walletTransfer 1025000000 1 true],
      input.FallsShort := by
    intro input hinput
    obtain ⟨transaction, h⟩ := hbuilt input hinput
    obtain ⟨hnodup, hheld, hfails⟩ := hshort input hinput
    refine ⟨hnodup, hheld, transaction, h, fun hmet => ?_⟩
    by_cases hmax : input.sendMax = true
    · rw [if_pos hmax] at hfails
      exact hfails ((TransferInput.met_iff_of_sendMax h hnodup hmax).mp hmet).1
    · rw [if_neg hmax] at hfails
      exact hfails ((TransferInput.met_iff_of_not_sendMax h hnodup hmax).mp hmet)
  exact ⟨hall _ (by simp), hall _ (by simp), hall _ (by simp)⟩

end GemCore.Sui

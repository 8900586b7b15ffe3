import GemCore.Lib.Tally
import GemCore.Primitives.Saturating
import GemCore.Primitives.Stake

/-!
# The votes of an account

`map_stake_data` of `gem_tron/src/provider/preload_mapper.rs`: the votes that replace those of an
account when it stakes, and what is taken back when no votes remain. The sums wrap, as they do in a
release build.

## Main definitions

* `mapStakeData` — `map_stake_data`.
* `Conserved` — no votes are lost or made up.
* `KeepsVotes` — the accounts and amounts for which this is so.

## Main results

* `unfreezeScan_spec` — what is taken back adds up.
* `conserved_iff` — when votes are conserved.
-/

namespace GemCore.Tron

open Lib

/-! ## Accounts -/

/-- `TronVote` of an account. -/
structure AccountVote where
  voteAddress : String
  voteCount : UInt64

/-- `TronFrozen`. -/
structure TronFrozen where
  frozenType : Option String
  amount : UInt64

/-- `TronFrozen::resource`. -/
def TronFrozen.resource (frozen : TronFrozen) : Option Resource :=
  match frozen.frozenType with
  | none => some .bandwidth
  | some resource => Resource.fromStr resource

/-- `TronAccount`, with what its staking data depends on. -/
structure TronAccount where
  votes : Option (List AccountVote)
  frozenV2 : Option (List TronFrozen)

/-- `TronVote` of a transaction. -/
structure TronVote where
  validator : String
  count : UInt64

/-- `TronUnfreeze`. -/
structure TronUnfreeze where
  resource : Resource
  amount : UInt64

/-- `TronStakeData`. -/
inductive TronStakeData where
  | votes (votes : List TronVote)
  | unfreeze (unfreezes : List TronUnfreeze)

/-! ## Staking data -/

/-- The order in which a `HashMap` is gone through: any order of its entries. -/
structure HashOrder where
  iterate : AssocMap String UInt64 → List (String × UInt64)
  perm : ∀ m, (iterate m).Perm (m.entries.map fun entry => (entry.1, entry.2))

/-- The votes of an account as a map: of two entries of one validator the later one is kept. -/
def votesOf (account : TronAccount) : AssocMap String UInt64 :=
  AssocMap.collect ((account.votes.getD []).map fun vote => (vote.voteAddress, vote.voteCount))

/-- `entry(key).and_modify(|value| *value = value.saturating_sub(amount))`. -/
def takeVotes (votes : AssocMap String UInt64) (validator : String) (amount : UInt64) :
    AssocMap String UInt64 :=
  match AList.lookup validator votes with
  | some count => AList.insert validator (saturatingSub count amount) votes
  | none => votes

/-- `*entry(key).or_default() += amount`. -/
def addVotes (votes : AssocMap String UInt64) (validator : String) (amount : UInt64) :
    AssocMap String UInt64 :=
  AList.insert validator ((AList.lookup validator votes).getD 0 + amount) votes

/-- The votes at the end of `map_stake_data`. -/
def votesData (order : HashOrder) (votes : AssocMap String UInt64) : List TronVote :=
  ((order.iterate votes).filter fun entry => 0 < entry.2).map fun entry => ⟨entry.1, entry.2⟩

/-- The frozen amounts of known resources. -/
def knownFrozen (frozen : List TronFrozen) : List (Resource × UInt64) :=
  frozen.filterMap fun frozen => frozen.resource.map fun resource => (resource, frozen.amount)

/-- The scan of `calculate_unfreeze_amounts`. -/
def unfreezeScan : UInt64 → List (Resource × UInt64) → List TronUnfreeze
  | _, [] => []
  | remaining, (resource, amount) :: entries =>
    if 0 < remaining then
      ⟨resource, minU64 remaining amount⟩ ::
        unfreezeScan (remaining - minU64 remaining amount) entries
    else []

/-- `calculate_unfreeze_amounts`. -/
def calculateUnfreezeAmounts (frozen : Option (List TronFrozen)) (total : UInt64) :
    List TronUnfreeze :=
  match frozen with
  | some frozen => unfreezeScan total ((knownFrozen frozen).filter fun entry => 0 < entry.2)
  | none => []

/-- The frozen amounts of a resource. -/
def frozenAmounts (account : TronAccount) (resource : Resource) : List UInt64 :=
  ((account.frozenV2.getD []).filter fun frozen => frozen.resource = some resource).map
    TronFrozen.amount

/-- `map_stake_data`. -/
def mapStakeData (order : HashOrder) (account : TronAccount) (stakeType : StakeType)
    (rawAmount voteAmount : UInt64) : Except String TronStakeData :=
  match stakeType with
  | .stake validator =>
    .ok (.votes (votesData order (addVotes (votesOf account) validator.id voteAmount)))
  | .unstake delegation =>
    let votes := AssocMap.retain (fun count => decide (0 < count))
      (takeVotes (votesOf account) delegation.base.validatorId voteAmount)
    if votes.entries.isEmpty then
      .ok (.unfreeze (calculateUnfreezeAmounts account.frozenV2 rawAmount))
    else .ok (.votes (votesData order votes))
  | .redelegate data =>
    .ok (.votes (votesData order (addVotes
      (takeVotes (votesOf account) data.delegation.base.validatorId voteAmount)
      data.toValidator.id voteAmount)))
  | .rewards _ | .withdraw _ | .freeze _ => .ok (.votes (votesData order (votesOf account)))
  | .unfreeze resource =>
    let available := (frozenAmounts account resource).foldl (· + ·) 0
    if available < rawAmount then
      .error ("Insufficient frozen " ++ resource.asRef ++ " balance: requested " ++
        toString rawAmount.toNat ++ ", available " ++ toString available.toNat)
    else .ok (.unfreeze [⟨resource, rawAmount⟩])

/-! ## Conservation -/

/-- The entries of an account for its validators. -/
def votePairs (account : TronAccount) : List (String × ℕ) :=
  (account.votes.getD []).map fun vote => (vote.voteAddress, vote.voteCount.toNat)

/-- The votes an account has for a validator. -/
def TronAccount.votesFor (account : TronAccount) (validator : String) : ℕ :=
  tally (votePairs account) validator

/-- The last entry of a validator, which is the one that is used. -/
def TronAccount.lastVotesFor (account : TronAccount) (validator : String) : ℕ :=
  valueOf UInt64.toNat (votesOf account) validator

/-- What an account has frozen of a resource. -/
def TronAccount.frozenOf (account : TronAccount) (resource : Resource) : ℕ :=
  ((frozenAmounts account resource).map UInt64.toNat).sum

/-- What an account has frozen of the known resources. -/
def TronAccount.frozenTotal (account : TronAccount) : ℕ :=
  ((knownFrozen (account.frozenV2.getD [])).map fun entry => entry.2.toNat).sum

/-- The entries of a transaction for its validators. -/
def resultPairs (votes : List TronVote) : List (String × ℕ) :=
  votes.map fun vote => (vote.validator, vote.count.toNat)

/-- A list of votes with distinct validators and positive counts. -/
structure WellFormedVotes (votes : List TronVote) : Prop where
  distinct : (votes.map TronVote.validator).Nodup
  positive : ∀ vote ∈ votes, 0 < vote.count

/-- Amounts that are positive, taken in their order from frozen entries of known resources, and add
up to what was asked for or to all there is. -/
structure TakenBack (account : TronAccount) (rawAmount : UInt64) (unfreezes : List TronUnfreeze) :
    Prop where
  positive : ∀ unfreeze ∈ unfreezes, 0 < unfreeze.amount
  taken : ∃ entries, entries.Sublist (knownFrozen (account.frozenV2.getD [])) ∧
    List.Forall₂ (fun unfreeze entry => unfreeze.resource = entry.1 ∧ unfreeze.amount ≤ entry.2)
      unfreezes entries
  sum : (unfreezes.map fun unfreeze => unfreeze.amount.toNat).sum =
    min rawAmount.toNat account.frozenTotal

/-- The votes that remain for a validator when some are taken from another one. -/
def TronAccount.votesLeft (account : TronAccount) (source : String) (voteAmount : UInt64)
    (validator : String) : ℕ :=
  account.votesFor validator - if validator = source then voteAmount.toNat else 0

/-- **No votes are lost or made up**: the staking data of an account is what the staking asks for. -/
def Conserved (order : HashOrder) (account : TronAccount) (stakeType : StakeType)
    (rawAmount voteAmount : UInt64) : Prop :=
  match stakeType with
  | .stake validator =>
    ∃ votes, mapStakeData order account stakeType rawAmount voteAmount = .ok (.votes votes) ∧
      WellFormedVotes votes ∧ ∀ v, tally (resultPairs votes) v =
        account.votesFor v + if v = validator.id then voteAmount.toNat else 0
  | .unstake delegation =>
    ((∃ v, 0 < account.votesLeft delegation.base.validatorId voteAmount v) →
      ∃ votes, mapStakeData order account stakeType rawAmount voteAmount = .ok (.votes votes) ∧
        WellFormedVotes votes ∧ ∀ v, tally (resultPairs votes) v =
          account.votesLeft delegation.base.validatorId voteAmount v) ∧
    ((∀ v, account.votesLeft delegation.base.validatorId voteAmount v = 0) →
      ∃ unfreezes,
        mapStakeData order account stakeType rawAmount voteAmount = .ok (.unfreeze unfreezes) ∧
          TakenBack account rawAmount unfreezes)
  | .redelegate data =>
    ∃ votes, mapStakeData order account stakeType rawAmount voteAmount = .ok (.votes votes) ∧
      WellFormedVotes votes ∧ tallyTotal (resultPairs votes) = tallyTotal (votePairs account) ∧
      ∀ v, v ≠ data.delegation.base.validatorId → v ≠ data.toValidator.id →
        tally (resultPairs votes) v = account.votesFor v
  | .rewards _ | .withdraw _ | .freeze _ =>
    ∃ votes, mapStakeData order account stakeType rawAmount voteAmount = .ok (.votes votes) ∧
      WellFormedVotes votes
  | .unfreeze resource =>
    account.frozenOf resource < 2 ^ 64 ∧
      ((∃ data, mapStakeData order account stakeType rawAmount voteAmount = .ok data) ↔
        rawAmount.toNat ≤ account.frozenOf resource) ∧
      ∀ data, mapStakeData order account stakeType rawAmount voteAmount = .ok data →
        data = .unfreeze [⟨resource, rawAmount⟩]

/-- **When votes are conserved**: the last entry of a validator has all of its votes, as far as the
staking needs them, a redelegation moves no more votes than there are, and no sum is too large. -/
def KeepsVotes (account : TronAccount) (stakeType : StakeType) (voteAmount : UInt64) : Prop :=
  match stakeType with
  | .stake validator =>
    (∀ v, account.lastVotesFor v = account.votesFor v) ∧
      account.votesFor validator.id + voteAmount.toNat < 2 ^ 64
  | .unstake delegation =>
    (∀ v, v ≠ delegation.base.validatorId → account.lastVotesFor v = account.votesFor v) ∧
      (account.lastVotesFor delegation.base.validatorId =
          account.votesFor delegation.base.validatorId ∨
        account.votesFor delegation.base.validatorId ≤ voteAmount.toNat)
  | .redelegate data =>
    let source := data.delegation.base.validatorId
    let target := data.toValidator.id
    (∀ v, v ≠ source → v ≠ target → account.lastVotesFor v = account.votesFor v) ∧
      if source = target then max (account.lastVotesFor source) voteAmount.toNat =
          account.votesFor source
      else max (account.lastVotesFor source) voteAmount.toNat + account.lastVotesFor target =
          account.votesFor source + account.votesFor target ∧
        account.lastVotesFor target + voteAmount.toNat < 2 ^ 64
  | .rewards _ | .withdraw _ | .freeze _ => True
  | .unfreeze resource => account.frozenOf resource < 2 ^ 64

/-! ## The votes as a map -/

variable {order : HashOrder} {account : TronAccount} {rawAmount voteAmount : UInt64}

lemma lastVotesFor_le (account : TronAccount) (v : String) :
    account.lastVotesFor v ≤ account.votesFor v := by
  have h := valueOf_collect_le_tally UInt64.toNat
    ((account.votes.getD []).map fun vote => (vote.voteAddress, vote.voteCount)) v
  rw [List.map_map] at h
  exact h

lemma valueOf_lt (votes : AssocMap String UInt64) (v : String) :
    valueOf UInt64.toNat votes v < 2 ^ 64 := by
  rw [valueOf]
  rcases AList.lookup v votes with _ | count
  · decide
  · exact count.toNat_lt

lemma valueOf_takeVotes (votes : AssocMap String UInt64) (validator : String) (amount : UInt64)
    (v : String) : valueOf UInt64.toNat (takeVotes votes validator amount) v =
      valueOf UInt64.toNat votes v - if v = validator then amount.toNat else 0 := by
  rw [takeVotes]
  split
  · rename_i count hcount
    rw [valueOf, AssocMap.lookup_insert_eq]
    split_ifs with hv
    · subst hv
      rw [valueOf, hcount]
      exact toNat_saturatingSub _ _
    · rfl
  · rename_i hnone
    split_ifs with hv
    · subst hv
      rw [valueOf, hnone]
      exact (Nat.zero_sub _).symm
    · rfl

lemma valueOf_addVotes (votes : AssocMap String UInt64) (validator : String) (amount : UInt64)
    (v : String) : valueOf UInt64.toNat (addVotes votes validator amount) v =
      if v = validator then (valueOf UInt64.toNat votes v + amount.toNat) % 2 ^ 64
      else valueOf UInt64.toNat votes v := by
  rw [addVotes, valueOf, AssocMap.lookup_insert_eq]
  split_ifs with hv
  · subst hv
    rw [valueOf]
    cases AList.lookup v votes with
    | none => rfl
    | some count => rfl
  · rfl

lemma valueOf_retain (votes : AssocMap String UInt64) (v : String) :
    valueOf UInt64.toNat (AssocMap.retain (fun count => decide (0 < count)) votes) v =
      valueOf UInt64.toNat votes v := by
  rw [valueOf, valueOf, AssocMap.lookup_retain]
  rcases AList.lookup v votes with _ | count
  · rfl
  · by_cases hpos : 0 < count
    · simp only [Option.filter_some, hpos, decide_true, if_true]
    · have hzero : count.toNat = 0 := by
        rw [UInt64.lt_iff_toNat_lt, UInt64.toNat_zero] at hpos
        omega
      simp only [Option.filter_some, hpos, decide_false, Bool.false_eq_true, if_false,
        Option.map_some, Option.getD_some, hzero]
      rfl

/-- The entries of the votes at the end are those of the map, without the zeros. -/
theorem resultPairs_votesData (order : HashOrder) (votes : AssocMap String UInt64) :
    (resultPairs (votesData order votes)).Perm
      ((votes.entries.map fun entry => (entry.1, entry.2.toNat)).filter fun pair => 0 < pair.2) := by
  have hpairs : resultPairs (votesData order votes) =
      (((order.iterate votes).map fun entry => (entry.1, entry.2.toNat)).filter
        fun pair => 0 < pair.2) := by
    rw [resultPairs, votesData, List.map_map, List.filter_map]
    have hpos : (fun entry : String × UInt64 => decide (0 < entry.2)) =
        (fun pair : String × ℕ => decide (0 < pair.2)) ∘
          fun entry : String × UInt64 => (entry.1, entry.2.toNat) := by
      funext entry
      exact decide_eq_decide.mpr UInt64.lt_iff_toNat_lt
    rw [← hpos]
    rfl
  rw [hpairs]
  refine List.Perm.filter _ ?_
  have hperm := (order.perm votes).map fun entry : String × UInt64 => (entry.1, entry.2.toNat)
  rw [List.map_map] at hperm
  exact hperm

lemma tally_votesData (order : HashOrder) (votes : AssocMap String UInt64) (v : String) :
    tally (resultPairs (votesData order votes)) v = valueOf UInt64.toNat votes v := by
  rw [tally_perm (resultPairs_votesData order votes), tally_filter_pos,
    tally_entries]

/-- **The votes at the end are well formed**, whatever the votes of the account are. -/
theorem wellFormed_votesData (order : HashOrder) (votes : AssocMap String UInt64) :
    WellFormedVotes (votesData order votes) := by
  constructor
  · have hkeys : ((order.iterate votes).map Prod.fst).Nodup := by
      have hperm := (order.perm votes).map Prod.fst
      rw [List.map_map] at hperm
      exact hperm.nodup_iff.mpr votes.nodupKeys
    rw [votesData, List.map_map]
    exact hkeys.sublist (List.filter_sublist.map _)
  · intro vote hvote
    rw [votesData, List.mem_map] at hvote
    obtain ⟨entry, hentry, rfl⟩ := hvote
    exact of_decide_eq_true (List.mem_filter.mp hentry).2

/-- A map without votes for anyone is empty once the zeros are dropped. -/
lemma retain_isEmpty_iff (votes : AssocMap String UInt64) :
    (AssocMap.retain (fun count => decide (0 < count)) votes).entries.isEmpty = true ↔
      ∀ v, valueOf UInt64.toNat votes v = 0 := by
  rw [List.isEmpty_iff]
  constructor
  · intro hempty v
    rw [← valueOf_retain, valueOf, AList.lookup, hempty]
    rfl
  · intro hzero
    rw [List.eq_nil_iff_forall_not_mem]
    intro entry hentry
    have hlookup := AList.mem_lookup_iff.mpr hentry
    have hpos : 0 < entry.2 := of_decide_eq_true (List.mem_filter.mp hentry).2
    have hvalue := hzero entry.1
    rw [← valueOf_retain, valueOf, Option.mem_def.mp hlookup] at hvalue
    rw [UInt64.lt_iff_toNat_lt] at hpos
    exact absurd hvalue hpos.ne'

/-! ## What is taken back -/

/-- **What is taken back adds up** to what was asked for, or to all there is.

**Proof sketch.** Induction on the entries: what is taken from the first one is subtracted from what
is asked for of the others. -/
theorem unfreezeScan_spec (remaining : UInt64) {entries : List (Resource × UInt64)}
    (hpos : ∀ entry ∈ entries, 0 < entry.2) :
    (∀ unfreeze ∈ unfreezeScan remaining entries, 0 < unfreeze.amount) ∧
      (∃ used, used.Sublist entries ∧
        List.Forall₂ (fun unfreeze entry => unfreeze.resource = entry.1 ∧ unfreeze.amount ≤ entry.2)
          (unfreezeScan remaining entries) used) ∧
      ((unfreezeScan remaining entries).map fun unfreeze => unfreeze.amount.toNat).sum =
        min remaining.toNat (entries.map fun entry => entry.2.toNat).sum := by
  induction entries generalizing remaining with
  | nil => exact ⟨nofun, ⟨[], List.Sublist.slnil, .nil⟩, (Nat.min_zero _).symm⟩
  | cons entry entries ih =>
    obtain ⟨resource, amount⟩ := entry
    obtain ⟨hamount, hrest⟩ := List.forall_mem_cons.mp hpos
    have hamount' : 0 < amount.toNat := UInt64.lt_iff_toNat_lt.mp hamount
    rw [unfreezeScan]
    split_ifs with hremaining
    · have hremaining' : 0 < remaining.toNat := UInt64.lt_iff_toNat_lt.mp hremaining
      have htake := toNat_minU64 remaining amount
      have hle : minU64 remaining amount ≤ remaining := by
        rw [UInt64.le_iff_toNat_le]
        omega
      obtain ⟨hpositive, ⟨used, hsub, hused⟩, hsum⟩ := ih (remaining - minU64 remaining amount) hrest
      have htaken : 0 < minU64 remaining amount ∧ minU64 remaining amount ≤ amount := by
        rw [UInt64.lt_iff_toNat_lt, UInt64.le_iff_toNat_le, UInt64.toNat_zero]
        omega
      refine ⟨List.forall_mem_cons.mpr ⟨htaken.1, hpositive⟩, ⟨_, hsub.cons_cons (resource, amount),
        .cons ⟨rfl, htaken.2⟩ hused⟩, ?_⟩
      · rw [List.map_cons, List.sum_cons, hsum, UInt64.toNat_sub_of_le _ _ hle, List.map_cons,
          List.sum_cons]
        dsimp only
        omega
    · have hzero : remaining.toNat = 0 := by
        rw [UInt64.lt_iff_toNat_lt, UInt64.toNat_zero] at hremaining
        omega
      refine ⟨nofun, ⟨[], List.nil_sublist _, .nil⟩, ?_⟩
      rw [hzero, Nat.zero_min]
      rfl

/-- Entries without an amount add nothing. -/
lemma sum_filter_pos (entries : List (Resource × UInt64)) :
    ((entries.filter fun entry => 0 < entry.2).map fun entry => entry.2.toNat).sum =
      (entries.map fun entry => entry.2.toNat).sum := by
  induction entries with
  | nil => rfl
  | cons entry entries ih =>
    rw [List.filter_cons, List.map_cons, List.sum_cons]
    split_ifs with hpos
    · rw [List.map_cons, List.sum_cons, ih]
    · have hzero : entry.2.toNat = 0 := by
        rw [decide_eq_true_eq, UInt64.lt_iff_toNat_lt, UInt64.toNat_zero] at hpos
        omega
      rw [ih, hzero, Nat.zero_add]

lemma takenBack_calculateUnfreezeAmounts (account : TronAccount) (rawAmount : UInt64) :
    TakenBack account rawAmount (calculateUnfreezeAmounts account.frozenV2 rawAmount) := by
  rcases h : account.frozenV2 with _ | frozen
  · refine ⟨nofun, ⟨[], List.nil_sublist _, .nil⟩, ?_⟩
    rw [TronAccount.frozenTotal, h]
    exact (Nat.min_zero _).symm
  · have hentries : ∀ entry ∈ (knownFrozen frozen).filter fun entry => 0 < entry.2, 0 < entry.2 :=
      fun entry hentry => of_decide_eq_true (List.mem_filter.mp hentry).2
    obtain ⟨hpositive, ⟨used, hsub, hused⟩, hsum⟩ := unfreezeScan_spec rawAmount hentries
    refine ⟨hpositive, ⟨used, ?_, hused⟩, ?_⟩
    · rw [h]
      exact hsub.trans List.filter_sublist
    · rw [TronAccount.frozenTotal, h]
      rw [sum_filter_pos] at hsum
      exact hsum

/-- A sum of frozen amounts wraps. -/
lemma toNat_foldl_add (amounts : List UInt64) (start : UInt64) :
    (amounts.foldl (· + ·) start).toNat =
      (start.toNat + (amounts.map UInt64.toNat).sum) % 2 ^ 64 := by
  induction amounts generalizing start with
  | nil =>
    rw [List.foldl_nil, List.map_nil, List.sum_nil, Nat.add_zero,
      Nat.mod_eq_of_lt start.toNat_lt]
  | cons amount amounts ih =>
    rw [List.foldl_cons, ih, UInt64.toNat_add, List.map_cons, List.sum_cons, Nat.mod_add_mod,
      Nat.add_assoc]

/-! ## When votes are conserved -/

lemma conserved_stake_iff (validator : DelegationValidator) :
    Conserved order account (.stake validator) rawAmount voteAmount ↔
      KeepsVotes account (.stake validator) voteAmount := by
  have htally : ∀ v, tally (resultPairs (votesData order
      (addVotes (votesOf account) validator.id voteAmount))) v =
        if v = validator.id then (account.lastVotesFor v + voteAmount.toNat) % 2 ^ 64
        else account.lastVotesFor v := by
    intro v
    rw [tally_votesData, valueOf_addVotes]
    rfl
  have hle := lastVotesFor_le account
  have hvote := voteAmount.toNat_lt
  constructor
  · rintro ⟨votes, hvotes, -, hsum⟩
    cases hvotes
    have hother : ∀ v, v ≠ validator.id → account.lastVotesFor v = account.votesFor v := by
      intro v hv
      have h := hsum v
      rwa [htally, if_neg hv, if_neg hv, Nat.add_zero] at h
    have hown := hsum validator.id
    rw [htally, if_pos rfl, if_pos rfl] at hown
    have hmod := Nat.mod_le (account.lastVotesFor validator.id + voteAmount.toNat) (2 ^ 64)
    have hlt := Nat.mod_lt (account.lastVotesFor validator.id + voteAmount.toNat)
      (show 0 < 2 ^ 64 by decide)
    have hlast := hle validator.id
    refine ⟨fun v => ?_, by omega⟩
    by_cases hv : v = validator.id
    · subst hv
      omega
    · exact hother v hv
  · rintro ⟨hlast, hfits⟩
    refine ⟨_, rfl, wellFormed_votesData _ _, fun v => ?_⟩
    rw [htally, hlast]
    split_ifs with hv
    · subst hv
      exact Nat.mod_eq_of_lt hfits
    · rfl

/-- An unstake conserves the votes exactly under its condition.

**Proof sketch.** What is sent for a validator is its last entry less what is taken, so that both sides
compare last entries with sums of entries, validator by validator. -/
lemma conserved_unstake_iff (delegation : Delegation) :
    Conserved order account (.unstake delegation) rawAmount voteAmount ↔
      KeepsVotes account (.unstake delegation) voteAmount := by
  set source := delegation.base.validatorId with hsource
  have hvalue : ∀ v, valueOf UInt64.toNat (takeVotes (votesOf account) source voteAmount) v =
      account.lastVotesFor v - if v = source then voteAmount.toNat else 0 :=
    fun v => valueOf_takeVotes _ _ _ _
  have htally : ∀ v, tally (resultPairs (votesData order
      (AssocMap.retain (fun count => decide (0 < count))
        (takeVotes (votesOf account) source voteAmount)))) v =
          account.lastVotesFor v - if v = source then voteAmount.toNat else 0 := by
    intro v
    rw [tally_votesData, valueOf_retain, hvalue]
  have hle := lastVotesFor_le account
  -- The last entries leave what the votes leave exactly under the condition.
  have hcondition : KeepsVotes account (.unstake delegation) voteAmount ↔
      ∀ v, account.lastVotesFor v - (if v = source then voteAmount.toNat else 0) =
        account.votesLeft source voteAmount v := by
    constructor
    · rintro ⟨hother, hown⟩ v
      rw [TronAccount.votesLeft]
      by_cases hv : v = source
      · rw [if_pos hv, hv]
        have := hle source
        rw [← hsource] at hown
        omega
      · rw [if_neg hv, hother v hv]
    · intro hall
      refine ⟨fun v hv => ?_, ?_⟩
      · have h := hall v
        rwa [TronAccount.votesLeft, if_neg hv, Nat.sub_zero, Nat.sub_zero] at h
      · have h := hall source
        rw [TronAccount.votesLeft, if_pos rfl] at h
        have := hle source
        rw [← hsource]
        omega
  rw [hcondition]
  by_cases hempty : (AssocMap.retain (fun count => decide (0 < count))
      (takeVotes (votesOf account) source voteAmount)).entries.isEmpty = true
  · have hdata : mapStakeData order account (.unstake delegation) rawAmount voteAmount =
        .ok (.unfreeze (calculateUnfreezeAmounts account.frozenV2 rawAmount)) := if_pos hempty
    have hzero : ∀ v, account.lastVotesFor v - (if v = source then voteAmount.toNat else 0) = 0 :=
      fun v => (hvalue v).symm.trans ((retain_isEmpty_iff _).mp hempty v)
    constructor
    · rintro ⟨hsome, -⟩ v
      rw [hzero]
      by_contra hne
      obtain ⟨votes, hvotes, -⟩ := hsome ⟨v, Nat.pos_of_ne_zero (Ne.symm hne)⟩
      rw [hdata] at hvotes
      cases hvotes
    · intro hall
      refine ⟨fun ⟨v, hv⟩ => ?_, fun _ => ⟨_, hdata, takenBack_calculateUnfreezeAmounts _ _⟩⟩
      rw [← hsource, ← hall, hzero] at hv
      exact absurd hv (Nat.lt_irrefl 0)
  · have hdata : mapStakeData order account (.unstake delegation) rawAmount voteAmount =
        .ok (.votes (votesData order (AssocMap.retain (fun count => decide (0 < count))
          (takeVotes (votesOf account) source voteAmount)))) := if_neg hempty
    obtain ⟨w, hw⟩ : ∃ w, 0 < account.lastVotesFor w -
        (if w = source then voteAmount.toNat else 0) := by
      by_contra hnone
      push Not at hnone
      refine hempty ((retain_isEmpty_iff _).mpr fun v => ?_)
      rw [hvalue]
      exact Nat.le_zero.mp (hnone v)
    constructor
    · rintro ⟨hsome, -⟩ v
      have hleft : 0 < account.votesLeft source voteAmount w :=
        lt_of_lt_of_le hw (Nat.sub_le_sub_right (hle w) _)
      obtain ⟨votes, hvotes, -, hsum⟩ := hsome ⟨w, hleft⟩
      rw [hdata] at hvotes
      cases hvotes
      rw [← htally]
      exact hsum v
    · intro hall
      refine ⟨fun _ => ⟨_, hdata, wellFormed_votesData _ _, fun v => (htally v).trans (hall v)⟩,
        fun hnone => ?_⟩
      rw [hall, hnone] at hw
      exact absurd hw (Nat.lt_irrefl 0)

/-- A redelegation conserves them exactly under its condition, by the same comparison. -/
lemma conserved_redelegate_iff (data : RedelegateData) :
    Conserved order account (.redelegate data) rawAmount voteAmount ↔
      KeepsVotes account (.redelegate data) voteAmount := by
  set source := data.delegation.base.validatorId with hsource
  set target := data.toValidator.id with htarget
  have htally : ∀ v, tally (resultPairs (votesData order
      (addVotes (takeVotes (votesOf account) source voteAmount) target voteAmount))) v =
        if v = target then (account.lastVotesFor v -
          (if v = source then voteAmount.toNat else 0) + voteAmount.toNat) % 2 ^ 64
        else account.lastVotesFor v - if v = source then voteAmount.toNat else 0 := by
    intro v
    rw [tally_votesData, valueOf_addVotes, valueOf_takeVotes]
    rfl
  have hle := lastVotesFor_le account
  have hfit : ∀ v, account.lastVotesFor v < 2 ^ 64 := valueOf_lt _
  have hvote := voteAmount.toNat_lt
  have hiff : Conserved order account (.redelegate data) rawAmount voteAmount ↔
      tallyTotal (resultPairs (votesData order
        (addVotes (takeVotes (votesOf account) source voteAmount) target voteAmount))) =
          tallyTotal (votePairs account) ∧
        ∀ v, v ≠ source → v ≠ target → account.lastVotesFor v = account.votesFor v := by
    constructor
    · rintro ⟨votes, hvotes, -, htotal, hother⟩
      cases hvotes
      refine ⟨htotal, fun v hv hv' => ?_⟩
      rw [← hother v hv hv', htally, if_neg hv', if_neg hv, Nat.sub_zero]
    · rintro ⟨htotal, hother⟩
      refine ⟨_, rfl, wellFormed_votesData _ _, htotal, fun v hv hv' => ?_⟩
      rw [htally, if_neg hv', if_neg hv, Nat.sub_zero, hother v hv hv']
  rw [hiff, KeepsVotes, ← hsource, ← htarget]
  rw [and_comm]
  refine and_congr_right fun hother => ?_
  have hrest : ∀ v, v ≠ source → v ≠ target → tally (resultPairs (votesData order
      (addVotes (takeVotes (votesOf account) source voteAmount) target voteAmount))) v =
        tally (votePairs account) v := by
    intro v hv hv'
    rw [htally, if_neg hv', if_neg hv, Nat.sub_zero, hother v hv hv']
    rfl
  by_cases hst : source = target
  · have hsum := tallyTotal_add fun v hv => hrest v hv (hst ▸ hv)
    have hown := htally source
    rw [if_pos hst, if_pos rfl] at hown
    have hlt : account.lastVotesFor source - voteAmount.toNat + voteAmount.toNat < 2 ^ 64 := by
      have := hfit source
      omega
    rw [Nat.mod_eq_of_lt hlt] at hown
    rw [if_pos hst]
    change _ ↔ _ = tally (votePairs account) source
    omega
  · have hsum := tallyTotal_add_pair hst hrest
    have hown := htally source
    have hown' := htally target
    rw [if_neg hst, if_pos rfl] at hown
    rw [if_pos rfl, if_neg (Ne.symm hst), Nat.sub_zero] at hown'
    rw [if_neg hst]
    have hs : account.lastVotesFor source ≤ tally (votePairs account) source := hle source
    have ht : account.lastVotesFor target ≤ tally (votePairs account) target := hle target
    have hft := hfit target
    change _ ↔ _ = tally (votePairs account) source + tally (votePairs account) target ∧ _
    omega

lemma conserved_unfreeze_iff (resource : Resource) :
    Conserved order account (.unfreeze resource) rawAmount voteAmount ↔
      KeepsVotes account (.unfreeze resource) voteAmount := by
  refine ⟨fun h => h.1, fun hfits => ?_⟩
  have hfits' : account.frozenOf resource < 2 ^ 64 := hfits
  have hsum : ((frozenAmounts account resource).foldl (· + ·) 0).toNat =
      account.frozenOf resource := by
    rw [toNat_foldl_add, UInt64.toNat_zero, Nat.zero_add]
    exact Nat.mod_eq_of_lt hfits'
  have hlt : (frozenAmounts account resource).foldl (· + ·) 0 < rawAmount ↔
      account.frozenOf resource < rawAmount.toNat := by
    rw [UInt64.lt_iff_toNat_lt, hsum]
  refine ⟨hfits', ?_, ?_⟩
  · simp only [mapStakeData]
    split_ifs with h
    · exact ⟨nofun, fun hle => absurd (hlt.mp h) (Nat.not_lt.mpr hle)⟩
    · exact ⟨fun _ => Nat.not_lt.mp (hlt.not.mp h), fun _ => ⟨_, rfl⟩⟩
  · intro data hdata
    simp only [mapStakeData] at hdata
    split_ifs at hdata
    exact (Except.ok.inj hdata).symm

/-- **When votes are conserved**: exactly for the accounts and amounts that keep them.

**Proof sketch.** The map holds the last entry of each validator, which is at most all of its votes;
each kind of staking changes the map at one or two validators, so that the sums agree exactly if the
last entries do and nothing is cut off or wraps. -/
theorem conserved_iff (order : HashOrder) (account : TronAccount) (stakeType : StakeType)
    (rawAmount voteAmount : UInt64) :
    Conserved order account stakeType rawAmount voteAmount ↔
      KeepsVotes account stakeType voteAmount := by
  cases stakeType with
  | stake validator => exact conserved_stake_iff validator
  | unstake delegation => exact conserved_unstake_iff delegation
  | redelegate data => exact conserved_redelegate_iff data
  | rewards _ | withdraw _ | freeze _ =>
    exact ⟨fun _ => trivial, fun _ => ⟨_, rfl, wellFormed_votesData _ _⟩⟩
  | unfreeze resource => exact conserved_unfreeze_iff resource

/-- The entries of a map in the order in which they stand. -/
def HashOrder.standing : HashOrder := ⟨fun m => m.entries.map fun entry => (entry.1, entry.2),
  fun _ => List.Perm.refl _⟩

/-- **Votes out of nothing**: five votes move from a validator without any to another one. -/
theorem not_conserved_redelegate :
    ¬ Conserved .standing ⟨some [⟨"validator", 5⟩], none⟩
      (.redelegate ⟨⟨⟨0, 0, "absent"⟩, ⟨"absent"⟩⟩, ⟨"other"⟩⟩) 5000000 5 := by
  rintro ⟨votes, hvotes, -, htotal, -⟩
  cases hvotes
  exact absurd htotal (by decide +kernel)

end GemCore.Tron

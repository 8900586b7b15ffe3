import GemCore.Dynode.MemoryCache
import Mathlib.Algebra.Order.BigOperators.Group.List

/-!
# Runs of the response cache

Calls of the response cache at times that do not go back. The entries of a chain never take more than
its share of the memory, and what is asked for is the response that was put in last, unless it has
expired or had to go.

## Main definitions

* `IsEvicted` — an entry that has not expired is dropped in a call.
* `CacheKept` — what holds of a run.

## Main results

* `cacheKept_of_sorted` — it holds of every run.
-/

namespace GemCore.Dynode

open Lib (AssocMap)

variable {χ : Type} [DecidableEq χ]

/-! ## What a run keeps -/

/-- The call puts in a response under this key. -/
def SetsKey (chain : χ) (key : String) (call : ℕ × CacheCall χ) : Prop :=
  ∃ response ttl, call.2 = .set chain key response ttl

/-- What a call that puts in a response finds, once the response is in and what has expired is out. -/
def validBefore (cache : MemoryCache χ) (now : ℕ) (chain : χ) (key : String)
    (response : CachedResponse) (ttl : ℕ) : Entries :=
  unexpired now (AList.insert key (.new now response ttl) (cache.entries chain))

/-- **An entry that has not expired is dropped** in a call. -/
def IsEvicted (order : AgeOrder) (cache : MemoryCache χ) (chain : χ) (key : String)
    (call : ℕ × CacheCall χ) : Prop :=
  ∃ key' response ttl entry, call.2 = .set chain key' response ttl ∧ chain ∈ cache.chains ∧
    AList.lookup key (validBefore cache call.1 chain key' response ttl) = some entry ∧
      AList.lookup key ((cache.call order call).entries chain) = none

/-- An entry that has not expired is dropped in one of several calls. -/
def EvictedIn (order : AgeOrder) (cache : MemoryCache χ) (chain : χ) (key : String)
    (calls : List (ℕ × CacheCall χ)) : Prop :=
  ∃ first call rest, calls = first ++ call :: rest ∧
    IsEvicted order (cache.run order first) chain key call

/-- **What holds of a run**. -/
structure CacheKept (order : AgeOrder) (maxMemory : ℕ) (configured : List χ)
    (calls : List (ℕ × CacheCall χ)) : Prop where
  /-- The entries of a chain take no more than its share. -/
  bounded : ∀ before after, calls = before ++ after → ∀ chain ∈ configured,
    total (((MemoryCache.new maxMemory configured).run order before).entries chain) ≤
      maxMemory / configured.dedup.length
  /-- All entries together fit into the memory. -/
  together : ∀ before after, calls = before ++ after → (configured.dedup.map fun chain =>
    total (((MemoryCache.new maxMemory configured).run order before).entries chain)).sum ≤ maxMemory
  /-- The oldest entries are dropped, as far as they have to be. -/
  evicts : ∀ before time chain key response ttl after,
    calls = before ++ (time, .set chain key response ttl) :: after → chain ∈ configured →
      Evicts (maxMemory / configured.dedup.length)
        (validBefore ((MemoryCache.new maxMemory configured).run order before) time chain key response
          ttl)
        (((MemoryCache.new maxMemory configured).run order
          (before ++ [(time, .set chain key response ttl)])).entries chain)
  /-- What was not put in is not found. -/
  unset : ∀ before time chain key after, calls = before ++ (time, .get chain key) :: after →
    (∀ call ∈ before, ¬SetsKey chain key call) →
      (((MemoryCache.new maxMemory configured).run order before).get time chain key).1 = none
  /-- The response that was put in last is found, unless it has expired or was dropped. -/
  latest : ∀ before time₀ chain key response ttl between time after,
    calls = before ++ (time₀, .set chain key response ttl) :: between ++
      (time, .get chain key) :: after →
    (∀ call ∈ between, ¬SetsKey chain key call) → chain ∈ configured →
      let start := (MemoryCache.new maxMemory configured).run order before
      let since := (time₀, .set chain key response ttl) :: between
      let answer := ((start.run order since).get time chain key).1
      ((CacheEntry.new time₀ response ttl).isExpired time = true → answer = none) ∧
        (EvictedIn order start chain key since → answer = none) ∧
          ((CacheEntry.new time₀ response ttl).isExpired time = false →
            ¬EvictedIn order start chain key since → answer = some response)

/-! ## One call -/

section Call

variable {order : AgeOrder} {cache : MemoryCache χ} {chain : χ} {key : String}

lemma lookup_unexpired (now : ℕ) (entries : Entries) (key : String) :
    AList.lookup key (unexpired now entries) =
      (AList.lookup key entries).filter fun entry => !entry.isExpired now :=
  AssocMap.lookup_retain _ entries key

/-- An entry is dropped or stays as it is. -/
lemma lookup_evictIfNeeded (order : AgeOrder) (now maxSize : ℕ) (entries : Entries) (key : String) :
    AList.lookup key (evictIfNeeded order now maxSize entries) = none ∨
      AList.lookup key (evictIfNeeded order now maxSize entries) =
        AList.lookup key (unexpired now entries) := by
  obtain ⟨byAge, count, -, -, heq, -⟩ := (evictIfNeeded_spec order now maxSize entries).stops
  rw [heq, AssocMap.lookup_eraseAll]
  split
  case isTrue => exact .inl rfl
  case isFalse => exact .inr rfl

@[simp] lemma chains_call (call : ℕ × CacheCall χ) : (cache.call order call).chains = cache.chains := by
  obtain ⟨now, call⟩ := call
  cases call with
  | get chain key =>
    show (cache.get now chain key).2.chains = cache.chains
    unfold MemoryCache.get
    split
    · split
      · split
        · rfl
        · rfl
      · rfl
    · rfl
  | set chain key response ttl =>
    show (cache.set order now chain key response ttl).chains = cache.chains
    unfold MemoryCache.set
    split
    · rfl
    · rfl

@[simp] lemma maxMemory_call (call : ℕ × CacheCall χ) :
    (cache.call order call).maxMemory = cache.maxMemory := by
  obtain ⟨now, call⟩ := call
  cases call with
  | get chain key =>
    show (cache.get now chain key).2.maxMemory = cache.maxMemory
    unfold MemoryCache.get
    split
    · split
      · split
        · rfl
        · rfl
      · rfl
    · rfl
  | set chain key response ttl =>
    show (cache.set order now chain key response ttl).maxMemory = cache.maxMemory
    unfold MemoryCache.set
    split
    · rfl
    · rfl

/-- **What a call leaves of a chain**: its entries as they were, without one that has expired, or as
they are after a response was put in. -/
theorem entries_call (order : AgeOrder) (cache : MemoryCache χ) (call : ℕ × CacheCall χ) (chain : χ) :
    (cache.call order call).entries chain = cache.entries chain ∨
      (∃ key entry, call.2 = .get chain key ∧ AList.lookup key (cache.entries chain) = some entry ∧
        entry.isExpired call.1 = true ∧
          (cache.call order call).entries chain = AList.erase key (cache.entries chain)) ∨
        ∃ key response ttl, call.2 = .set chain key response ttl ∧ chain ∈ cache.chains ∧
          (cache.call order call).entries chain = evictIfNeeded order call.1 cache.maxSizePerChain
            (AList.insert key (.new call.1 response ttl) (cache.entries chain)) := by
  obtain ⟨now, call⟩ := call
  cases call with
  | get chain' key =>
    rw [show cache.call order (now, .get chain' key) = (cache.get now chain' key).2 from rfl]
    unfold MemoryCache.get
    split
    · split
      · next entry hentry =>
        split
        case isTrue hexpired =>
          by_cases hchain : chain = chain'
          · subst hchain
            exact .inr (.inl ⟨key, entry, rfl, hentry, hexpired, Function.update_self _ _ _⟩)
          · exact .inl (Function.update_of_ne hchain _ _)
        case isFalse hexpired => exact .inl rfl
      · exact .inl rfl
    · exact .inl rfl
  | set chain' key response ttl =>
    rw [show cache.call order (now, .set chain' key response ttl) =
      cache.set order now chain' key response ttl from rfl]
    unfold MemoryCache.set
    split
    case isTrue hmem =>
      by_cases hchain : chain = chain'
      · subst hchain
        exact .inr (.inr ⟨key, response, ttl, rfl, hmem, Function.update_self _ _ _⟩)
      · exact .inl (Function.update_of_ne hchain _ _)
    case isFalse hmem => exact .inl rfl

/-- A response that is put in. -/
lemma entries_set {now : ℕ} {response : CachedResponse} {ttl : ℕ} (hmem : chain ∈ cache.chains) :
    (cache.call order (now, .set chain key response ttl)).entries chain =
      evictIfNeeded order now cache.maxSizePerChain
        (AList.insert key (.new now response ttl) (cache.entries chain)) := by
  show (cache.set order now chain key response ttl).entries chain = _
  rw [MemoryCache.set, if_pos hmem]
  exact Function.update_self _ _ _

/-- **The share of a chain is kept** by a call. -/
theorem total_call_le (h : total (cache.entries chain) ≤ cache.maxSizePerChain)
    (call : ℕ × CacheCall χ) : total ((cache.call order call).entries chain) ≤ cache.maxSizePerChain := by
  rcases entries_call order cache call chain with heq | ⟨key, entry, -, hentry, -, heq⟩ |
    ⟨key, response, ttl, -, -, heq⟩
  · rw [heq]
    exact h
  · rw [heq]
    have herase := total_erase hentry
    omega
  · rw [heq]
    obtain ⟨byAge, count, -, -, -, hfits, -⟩ := (evictIfNeeded_spec order call.1 cache.maxSizePerChain
      (AList.insert key (.new call.1 response ttl) (cache.entries chain))).stops
    exact hfits

/-! ## The latest response -/

/-- **The invariant** behind a response that was put in, while no other one was put in under its key: it
is there, or it was dropped before it had expired, or it has expired. -/
def IsLatest (cache : MemoryCache χ) (chain : χ) (key : String) (entry : CacheEntry) (evicted : Prop)
    (now : ℕ) : Prop :=
  (AList.lookup key (cache.entries chain) = some entry ∧ ¬evicted) ∨
    (AList.lookup key (cache.entries chain) = none ∧ (evicted ∨ entry.isExpired now = true))

omit [DecidableEq χ] in
/-- What comes of an entry when others are dropped. -/
lemma isLatest_of_evictIfNeeded {cache' : MemoryCache χ} {entries : Entries} {entry : CacheEntry}
    {evicted : Prop} {now maxSize : ℕ}
    (hentries : cache'.entries chain = evictIfNeeded order now maxSize entries)
    (hlookup : AList.lookup key entries = some entry)
    (hevicted : evicted ↔ AList.lookup key (unexpired now entries) = some entry ∧
      AList.lookup key (cache'.entries chain) = none) :
    IsLatest cache' chain key entry evicted now := by
  by_cases hexpired : entry.isExpired now = true
  · have hvalid : AList.lookup key (unexpired now entries) = none := by
      rw [lookup_unexpired, hlookup, Option.filter_some, hexpired]
      rfl
    refine .inr ⟨?_, .inr hexpired⟩
    rcases lookup_evictIfNeeded order now maxSize entries key with hnone | heq
    · rw [hentries, hnone]
    · rw [hentries, heq, hvalid]
  · have hvalid : AList.lookup key (unexpired now entries) = some entry := by
      rw [lookup_unexpired, hlookup, Option.filter_some, Bool.eq_false_of_not_eq_true hexpired]
      rfl
    rcases lookup_evictIfNeeded order now maxSize entries key with hnone | heq
    · exact .inr ⟨hentries ▸ hnone, .inl (hevicted.mpr ⟨hvalid, hentries ▸ hnone⟩)⟩
    · have hsome : AList.lookup key (cache'.entries chain) = some entry := by
        rw [hentries, heq, hvalid]
      refine .inl ⟨hsome, fun h => ?_⟩
      rw [(hevicted.mp h).2] at hsome
      cases hsome

/-- A response that was put in now. -/
lemma isLatest_set {now : ℕ} {response : CachedResponse} {ttl : ℕ} (hmem : chain ∈ cache.chains) :
    IsLatest (cache.call order (now, .set chain key response ttl)) chain key (.new now response ttl)
      (IsEvicted order cache chain key (now, .set chain key response ttl)) now := by
  refine isLatest_of_evictIfNeeded (entries_set hmem) (AList.lookup_insert _) ?_
  constructor
  · rintro ⟨key', response', ttl', entry, hcall, -, hentry, hnone⟩
    obtain ⟨-, rfl, rfl, rfl⟩ := CacheCall.set.inj hcall
    refine ⟨?_, hnone⟩
    rw [validBefore, lookup_unexpired, AList.lookup_insert] at hentry
    rw [lookup_unexpired, AList.lookup_insert, hentry]
    obtain ⟨heq, -⟩ := Option.filter_eq_some_iff.mp hentry
    rw [← Option.some.inj heq]
  · rintro ⟨hentry, hnone⟩
    exact ⟨key, response, ttl, _, rfl, hmem, hentry, hnone⟩

/-- **One more call** that puts nothing in under the key.

**Proof sketch.** A call that asks for a response takes it out only if it has expired. A call that puts
one in under another key leaves the entry, drops it as expired, or evicts it. What was gone stays gone,
and what had expired has still expired. -/
theorem IsLatest.call {entry : CacheEntry} {evicted : Prop} {now : ℕ}
    (h : IsLatest cache chain key entry evicted now) {call : ℕ × CacheCall χ} (hle : now ≤ call.1)
    (hnot : ¬SetsKey chain key call) :
    IsLatest (cache.call order call) chain key entry
      (evicted ∨ IsEvicted order cache chain key call) call.1 := by
  have hsets : ∀ key' response ttl, call.2 = .set chain key' response ttl → key ≠ key' := by
    rintro key' response ttl hcall rfl
    exact hnot ⟨response, ttl, hcall⟩
  have hkeep : (∀ key' response ttl, call.2 ≠ .set chain key' response ttl) →
      ¬IsEvicted order cache chain key call := by
    rintro hno ⟨key', response, ttl, entry', hcall, -⟩
    exact hno key' response ttl hcall
  rcases entries_call order cache call chain with heq | ⟨key', entry', hcall, hentry', hexpired,
    heq⟩ | ⟨key', response, ttl, hcall, hmem, heq⟩
  · rw [IsLatest, heq]
    have hnever : ∀ value, AList.lookup key (cache.entries chain) = some value →
        ¬IsEvicted order cache chain key call := by
      rintro value hvalue ⟨-, -, -, -, -, -, -, hnone⟩
      rw [heq, hvalue] at hnone
      cases hnone
    rcases h with ⟨hsome, hnotEvicted⟩ | ⟨hnone, hgone⟩
    · exact .inl ⟨hsome, not_or.mpr ⟨hnotEvicted, hnever entry hsome⟩⟩
    · exact .inr ⟨hnone, hgone.imp .inl (CacheEntry.isExpired_mono hle)⟩
  · have hno : ¬IsEvicted order cache chain key call := hkeep fun key'' response ttl hset => by
      rw [hcall] at hset
      cases hset
    rw [IsLatest, heq, AssocMap.lookup_erase_eq]
    by_cases hkey : key = key'
    · subst hkey
      rw [if_pos rfl]
      rcases h with ⟨hsome, -⟩ | ⟨hnone, hgone⟩
      · obtain rfl := Option.some.inj (hsome.symm.trans hentry')
        exact .inr ⟨rfl, .inr hexpired⟩
      · exact .inr ⟨rfl, hgone.imp .inl (CacheEntry.isExpired_mono hle)⟩
    · rw [if_neg hkey]
      rcases h with ⟨hsome, hnotEvicted⟩ | ⟨hnone, hgone⟩
      · exact .inl ⟨hsome, not_or.mpr ⟨hnotEvicted, hno⟩⟩
      · exact .inr ⟨hnone, hgone.imp .inl (CacheEntry.isExpired_mono hle)⟩
  · have hne := hsets key' response ttl hcall
    have hinsert : AList.lookup key (AList.insert key' (.new call.1 response ttl)
        (cache.entries chain)) = AList.lookup key (cache.entries chain) :=
      AList.lookup_insert_ne hne
    rcases h with ⟨hsome, hnotEvicted⟩ | ⟨hnone, hgone⟩
    · refine isLatest_of_evictIfNeeded heq (hinsert.trans hsome) ?_
      constructor
      · rintro (hevicted | ⟨key'', response', ttl', entry', hcall', -, hentry', hgone⟩)
        · exact absurd hevicted hnotEvicted
        · obtain ⟨-, rfl, rfl, rfl⟩ := CacheCall.set.inj (hcall.symm.trans hcall')
          refine ⟨?_, hgone⟩
          rw [validBefore, lookup_unexpired, hinsert, hsome] at hentry'
          rw [lookup_unexpired, hinsert, hsome, hentry']
          obtain ⟨hsame, -⟩ := Option.filter_eq_some_iff.mp hentry'
          rw [← Option.some.inj hsame]
      · rintro ⟨hentry, hgone⟩
        exact .inr ⟨key', response, ttl, entry, hcall, hmem, hentry, hgone⟩
    · refine .inr ⟨?_, hgone.imp .inl (CacheEntry.isExpired_mono hle)⟩
      rw [heq]
      rcases lookup_evictIfNeeded order call.1 cache.maxSizePerChain (AList.insert key'
        (.new call.1 response ttl) (cache.entries chain)) key with hgone | hkept
      · exact hgone
      · rw [hkept, lookup_unexpired, hinsert, hnone]
        rfl

end Call

/-! ## Runs -/

section Runs

variable {order : AgeOrder} {cache : MemoryCache χ} {chain : χ} {key : String}

lemma run_concat_call (calls : List (ℕ × CacheCall χ)) (call : ℕ × CacheCall χ) :
    cache.run order (calls ++ [call]) = (cache.run order calls).call order call := by
  rw [MemoryCache.run, List.foldl_append]
  rfl

@[simp] lemma chains_run (calls : List (ℕ × CacheCall χ)) :
    (cache.run order calls).chains = cache.chains := by
  induction calls using List.reverseRecOn with
  | nil => rfl
  | append_singleton calls call ih => rw [run_concat_call, chains_call, ih]

@[simp] lemma maxSizePerChain_run (order : AgeOrder) (cache : MemoryCache χ)
    (calls : List (ℕ × CacheCall χ)) :
    (cache.run order calls).maxSizePerChain = cache.maxSizePerChain := by
  induction calls using List.reverseRecOn with
  | nil => rfl
  | append_singleton calls call ih =>
    rw [run_concat_call, ← ih, MemoryCache.maxSizePerChain, MemoryCache.maxSizePerChain, chains_call,
      maxMemory_call]

/-- The share of a chain is kept along a run. -/
lemma total_run_le (h : total (cache.entries chain) ≤ cache.maxSizePerChain)
    (calls : List (ℕ × CacheCall χ)) :
    total ((cache.run order calls).entries chain) ≤ cache.maxSizePerChain := by
  induction calls using List.reverseRecOn with
  | nil => exact h
  | append_singleton calls call ih =>
    rw [run_concat_call, ← maxSizePerChain_run order cache calls]
    exact total_call_le (maxSizePerChain_run order cache calls ▸ ih) call

/-- The share of a chain that is cached. -/
lemma maxSizePerChain_new {maxMemory : ℕ} {configured : List χ} (h : chain ∈ configured) :
    (MemoryCache.new maxMemory configured).maxSizePerChain = maxMemory / configured.dedup.length := by
  have hpos : 0 < configured.dedup.length := List.length_pos_of_mem (List.mem_dedup.mpr h)
  rw [MemoryCache.maxSizePerChain, MemoryCache.new]
  show maxMemory / max configured.dedup.length 1 = _
  rw [max_eq_left hpos]

/-- What was not put in is not there. -/
lemma lookup_run_of_unset (h : AList.lookup key (cache.entries chain) = none)
    {calls : List (ℕ × CacheCall χ)} (hnot : ∀ call ∈ calls, ¬SetsKey chain key call) :
    AList.lookup key ((cache.run order calls).entries chain) = none := by
  induction calls using List.reverseRecOn with
  | nil => exact h
  | append_singleton calls call ih =>
    have hnone := ih fun call' hcall' => hnot call' (List.mem_append_left _ hcall')
    rw [run_concat_call]
    rcases entries_call order (cache.run order calls) call chain with heq |
      ⟨key', entry, -, -, -, heq⟩ | ⟨key', response, ttl, hcall, -, heq⟩
    · rw [heq, hnone]
    · rw [heq, AssocMap.lookup_erase_eq, hnone, ite_self]
    · have hne : key ≠ key' := by
        rintro rfl
        exact hnot call (List.mem_append_right _ List.mem_cons_self) ⟨response, ttl, hcall⟩
      rw [heq]
      rcases lookup_evictIfNeeded order call.1 (cache.run order calls).maxSizePerChain
        (AList.insert key' (.new call.1 response ttl) ((cache.run order calls).entries chain)) key
        with hgone | hkept
      · exact hgone
      · rw [hkept, lookup_unexpired, AList.lookup_insert_ne hne, hnone]
        rfl

lemma evictedIn_concat {calls : List (ℕ × CacheCall χ)} {call : ℕ × CacheCall χ} :
    EvictedIn order cache chain key (calls ++ [call]) ↔
      EvictedIn order cache chain key calls ∨
        IsEvicted order (cache.run order calls) chain key call := by
  constructor
  · rintro ⟨first, call', rest, hsplit, hevicted⟩
    rcases List.eq_nil_or_concat rest with rfl | ⟨rest, last, rfl⟩
    · obtain ⟨rfl, hlast⟩ := List.append_inj' hsplit rfl
      obtain rfl := List.singleton_inj.mp hlast
      exact .inr hevicted
    · have hconcat : calls ++ [call] = (first ++ call' :: rest) ++ [last] := by
        rw [hsplit, List.concat_eq_append, List.append_assoc, List.cons_append]
      obtain ⟨rfl, -⟩ := List.append_inj' hconcat rfl
      exact .inl ⟨first, call', rest, rfl, hevicted⟩
  · rintro (⟨first, call', rest, rfl, hevicted⟩ | hevicted)
    · exact ⟨first, call', rest ++ [call], by rw [List.append_assoc, List.cons_append], hevicted⟩
    · exact ⟨calls, call, [], rfl, hevicted⟩

/-- **The latest response** along a run that puts in no other one under its key. -/
theorem isLatest_run {now : ℕ} (response : CachedResponse) (ttl : ℕ) (hmem : chain ∈ cache.chains)
    {between : List (ℕ × CacheCall χ)} (hnot : ∀ call ∈ between, ¬SetsKey chain key call)
    {time : ℕ} (hsorted : (now :: between.map Prod.fst ++ [time]).Pairwise (· ≤ ·)) :
    ∃ last ≤ time, IsLatest
      (cache.run order ((now, .set chain key response ttl) :: between)) chain key
      (.new now response ttl)
      (EvictedIn order cache chain key ((now, .set chain key response ttl) :: between)) last := by
  induction between using List.reverseRecOn generalizing time with
  | nil =>
    have hle : now ≤ time := (List.pairwise_pair.mp hsorted)
    have hevicted : EvictedIn order cache chain key [(now, .set chain key response ttl)] ↔
        IsEvicted order cache chain key (now, .set chain key response ttl) := by
      rw [← List.nil_append [(now, CacheCall.set chain key response ttl)], evictedIn_concat]
      refine or_iff_right ?_
      rintro ⟨first, call, rest, hsplit, -⟩
      exact absurd hsplit.symm (List.append_ne_nil_of_right_ne_nil _ (List.cons_ne_nil _ _))
    refine ⟨now, hle, ?_⟩
    rw [hevicted]
    exact isLatest_set hmem
  | append_singleton between call ih =>
    have hprefix : (now :: between.map Prod.fst ++ [call.1]).Pairwise (· ≤ ·) := by
      rw [List.map_append, ← List.cons_append, List.append_assoc] at hsorted
      exact hsorted.sublist (List.Sublist.append_left (List.sublist_append_left _ _) _)
    have hle : call.1 ≤ time := by
      rw [List.map_append, ← List.cons_append, List.pairwise_append] at hsorted
      exact hsorted.2.2 call.1 (List.mem_append_right _ List.mem_cons_self) time List.mem_cons_self
    obtain ⟨last, hlast, hlatest⟩ :=
      ih (fun call' hcall' => hnot call' (List.mem_append_left _ hcall')) hprefix
    refine ⟨call.1, hle, ?_⟩
    rw [← List.cons_append, evictedIn_concat, run_concat_call]
    exact hlatest.call hlast (hnot call (List.mem_append_right _ List.mem_cons_self))

/-- The share of a chain, after any calls. -/
lemma total_run_new_le (maxMemory : ℕ) {configured : List χ} (h : chain ∈ configured)
    (calls : List (ℕ × CacheCall χ)) :
    total (((MemoryCache.new maxMemory configured).run order calls).entries chain) ≤
      maxMemory / configured.dedup.length := by
  rw [← maxSizePerChain_new h]
  exact total_run_le (Nat.zero_le _) calls

/-- **What holds of every run** at times that do not go back.

**Proof sketch.** The entries of a chain fit into its share after each call, and the shares of all chains
into the memory. The response that was put in last is followed by the invariant `IsLatest`, from the
call that puts it in to the one that asks for it; an entry is taken out only when it has expired or has
to go, and what has expired by the time of a call has expired later. -/
theorem cacheKept_of_sorted (order : AgeOrder) (maxMemory : ℕ) (configured : List χ)
    (calls : List (ℕ × CacheCall χ)) (hsorted : (calls.map Prod.fst).Pairwise (· ≤ ·)) :
    CacheKept order maxMemory configured calls where
  bounded before _ _ _ hmem := total_run_new_le maxMemory hmem before
  together before _ _ := by
    have hshare : ∀ size ∈ configured.dedup.map fun chain =>
        total (((MemoryCache.new maxMemory configured).run order before).entries chain),
        size ≤ maxMemory / configured.dedup.length := by
      intro size hsize
      obtain ⟨chain, hchain, rfl⟩ := List.mem_map.mp hsize
      exact total_run_new_le maxMemory (List.mem_dedup.mp hchain) before
    calc (configured.dedup.map fun chain =>
          total (((MemoryCache.new maxMemory configured).run order before).entries chain)).sum
        ≤ configured.dedup.length • (maxMemory / configured.dedup.length) := by
          have hsum := List.sum_le_card_nsmul _ _ hshare
          rwa [List.length_map] at hsum
      _ ≤ maxMemory := Nat.mul_div_le _ _
  evicts before time chain key response ttl _ _ hmem := by
    have hchain : chain ∈ ((MemoryCache.new maxMemory configured).run order before).chains := by
      rw [chains_run]
      exact List.mem_dedup.mpr hmem
    rw [run_concat_call, entries_set hchain, maxSizePerChain_run, maxSizePerChain_new hmem]
    exact evictIfNeeded_spec _ _ _ _
  unset before time chain key _ _ hnot := by
    have hnone : AList.lookup key
        (((MemoryCache.new maxMemory configured).run order before).entries chain) = none :=
      lookup_run_of_unset rfl hnot
    rw [MemoryCache.get, hnone]
    split
    · rfl
    · rfl
  latest before time₀ chain key response ttl between time after hcalls hnot hmem := by
    have hchain : chain ∈ ((MemoryCache.new maxMemory configured).run order before).chains := by
      rw [chains_run]
      exact List.mem_dedup.mpr hmem
    have htimes : (time₀ :: between.map Prod.fst ++ [time]).Pairwise (· ≤ ·) := by
      rw [hcalls] at hsorted
      refine hsorted.sublist ?_
      rw [List.map_append, List.map_append, List.map_cons, List.map_cons]
      exact ((List.sublist_append_right _ _).append
        (List.cons_sublist_cons.mpr (List.nil_sublist _)))
    obtain ⟨last, hlast, hlatest⟩ := isLatest_run response ttl hchain hnot htimes
    have hget : chain ∈ (((MemoryCache.new maxMemory configured).run order before).run order
        ((time₀, .set chain key response ttl) :: between)).chains := by
      rw [chains_run]
      exact hchain
    intro start since answer
    have hanswer : answer = (AList.lookup key ((start.run order since).entries chain)).bind
        fun entry => if entry.isExpired time then none else some entry.response := by
      show ((start.run order since).get time chain key).1 = _
      rw [MemoryCache.get, if_pos hget]
      split
      · next entry hentry =>
        rw [hentry, Option.bind_some]
        split
        · rfl
        · rfl
      · next hnone =>
        rw [hnone]
        rfl
    rw [hanswer]
    rcases hlatest with ⟨hsome, hkept⟩ | ⟨hnone, hgone⟩
    · rw [hsome, Option.bind_some]
      refine ⟨fun hexpired => if_pos hexpired, fun hevicted => absurd hevicted hkept, ?_⟩
      intro hvalid _
      exact if_neg (by rw [hvalid]; decide)
    · rw [hnone, Option.bind_none]
      refine ⟨fun _ => rfl, fun _ => rfl, ?_⟩
      intro hvalid hkept
      rcases hgone with hevicted | hexpired
      · exact absurd hevicted hkept
      · rw [CacheEntry.isExpired_mono hlast hexpired] at hvalid
        cases hvalid

end Runs

/-- A stable sort by age. -/
def AgeOrder.stable : AgeOrder where
  sorted cache := (cache.entries.map fun entry => (entry.1, entry.2.createdAt)).mergeSort
    fun entry later => entry.2 ≤ later.2
  perm _ := List.mergeSort_perm _ _
  pairwise cache := by
    have hsorted := @List.pairwise_mergeSort (String × ℕ) (fun entry later => entry.2 ≤ later.2)
      (fun a b c => by simpa using le_trans) (fun a b => by simpa using le_total a.2 b.2)
      (cache.entries.map fun entry => (entry.1, entry.2.createdAt))
    exact hsorted.imp fun h => of_decide_eq_true h

/-- A response is found a moment later and then evicted for another one, which expires. -/
theorem cacheKept_sample : CacheKept .stable 100 ["ethereum"]
    [(1, .set "ethereum" "key" ⟨[], statusOk, jsonContentType⟩ 60), (2, .get "ethereum" "key"),
      (3, .set "ethereum" "other" ⟨[], statusOk, jsonContentType⟩ 60),
      (4, .get "ethereum" "key"), (64, .get "ethereum" "other")] :=
  cacheKept_of_sorted .stable 100 ["ethereum"] _ (by decide)

end GemCore.Dynode

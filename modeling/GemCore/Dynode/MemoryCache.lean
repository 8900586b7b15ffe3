import GemCore.Dynode.Proxy
import Mathlib.Algebra.BigOperators.Group.List.Basic

/-!
# The memory of the response cache

`MemoryCache` of `dynode/src/cache/memory.rs`, and `CacheEntry` of `dynode/src/cache/types.rs`. Each
chain has its share of the memory. When a response is put in, expired entries are dropped, and then the
oldest ones until the rest fits.

## Main definitions

* `evictIfNeeded` — the expired entries and the oldest ones are dropped.
* `MemoryCache.get`, `MemoryCache.set` — the two calls.
* `Evicts` — what may be dropped, and in which order.

## Main results

* `evictIfNeeded_spec` — what is dropped.
-/

namespace GemCore.Dynode

open Lib (AssocMap)

/-! ## Entries -/

/-- `CacheEntry`; the instants are in nanoseconds. -/
structure CacheEntry where
  response : CachedResponse
  expiresAt : Option ℕ
  createdAt : ℕ

namespace CacheEntry

/-- `CacheEntry::new`. -/
def new (now : ℕ) (response : CachedResponse) (ttl : ℕ) : CacheEntry :=
  ⟨response, if ttl = 0 then none else some (now + ttl), now⟩

/-- `CacheEntry::is_expired`. -/
def isExpired (now : ℕ) (self : CacheEntry) : Bool := self.expiresAt.any fun exp => exp < now

/-- `CacheEntry::size`. -/
def size (self : CacheEntry) : ℕ :=
  self.response.body.length + self.response.contentType.utf8ByteSize + 64

/-- What has expired stays so. -/
lemma isExpired_mono {now later : ℕ} (hle : now ≤ later) {entry : CacheEntry}
    (h : entry.isExpired now = true) : entry.isExpired later = true := by
  obtain ⟨response, expiresAt, createdAt⟩ := entry
  cases expiresAt with
  | none => exact h
  | some exp =>
    have hlt : exp < now := of_decide_eq_true h
    exact decide_eq_true (hlt.trans_le hle)

end CacheEntry

/-- The entries of a chain. -/
abbrev Entries : Type := AssocMap String CacheEntry

/-- The size of all entries. -/
def total (cache : Entries) : ℕ := (cache.entries.map fun entry => entry.2.size).sum

/-- `sort_unstable_by_key` on the entries and their age: any order in which none stands before an older
one. -/
structure AgeOrder where
  sorted : Entries → List (String × ℕ)
  perm : ∀ cache, (sorted cache).Perm (cache.entries.map fun entry => (entry.1, entry.2.createdAt))
  pairwise : ∀ cache, (sorted cache).Pairwise fun entry later => entry.2 ≤ later.2

/-! ## Eviction -/

/-- The loop of `evict_if_needed`: entries are taken out until the rest fits. -/
def evictOldest (maxSize : ℕ) : List String → Entries → ℕ → Entries
  | [], cache, _ => cache
  | key :: rest, cache, size =>
    if size ≤ maxSize then cache
    else
      match AList.lookup key cache with
      | some entry => evictOldest maxSize rest (AList.erase key cache) (size - entry.size)
      | none => evictOldest maxSize rest cache size

/-- The entries that have not expired. -/
def unexpired (now : ℕ) (cache : Entries) : Entries :=
  AssocMap.retain (fun entry => !entry.isExpired now) cache

/-- `evict_if_needed`. -/
def evictIfNeeded (order : AgeOrder) (now maxSize : ℕ) (cache : Entries) : Entries :=
  let cache := unexpired now cache
  if total cache ≤ maxSize then cache
  else evictOldest maxSize ((order.sorted cache).map Prod.fst) cache (total cache)

/-! ## The cache -/

/-- `MemoryCache`: the chains that are cached, and their entries. -/
structure MemoryCache (χ : Type) where
  chains : List χ
  entries : χ → Entries
  maxMemory : ℕ

/-- A call. -/
inductive CacheCall (χ : Type) where
  | get (chain : χ) (key : String)
  | set (chain : χ) (key : String) (response : CachedResponse) (ttl : ℕ)

namespace MemoryCache

variable {χ : Type} [DecidableEq χ]

/-- `MemoryCache::new`: the chains that have rules, each once. -/
def new (maxMemory : ℕ) (chains : List χ) : MemoryCache χ := ⟨chains.dedup, fun _ => ∅, maxMemory⟩

/-- `max_size_per_chain`. -/
def maxSizePerChain (self : MemoryCache χ) : ℕ := self.maxMemory / max self.chains.length 1

/-- The cache with other entries of a chain. -/
def withEntries (self : MemoryCache χ) (chain : χ) (cache : Entries) : MemoryCache χ :=
  { self with entries := Function.update self.entries chain cache }

/-- `get`: the response, and the cache afterwards. -/
def get (now : ℕ) (self : MemoryCache χ) (chain : χ) (key : String) :
    Option CachedResponse × MemoryCache χ :=
  if chain ∈ self.chains then
    match AList.lookup key (self.entries chain) with
    | some entry =>
      if entry.isExpired now then
        (none, self.withEntries chain (AList.erase key (self.entries chain)))
      else (some entry.response, self)
    | none => (none, self)
  else (none, self)

/-- `set`. -/
def set (order : AgeOrder) (now : ℕ) (self : MemoryCache χ) (chain : χ) (key : String)
    (response : CachedResponse) (ttl : ℕ) : MemoryCache χ :=
  if chain ∈ self.chains then
    self.withEntries chain (evictIfNeeded order now self.maxSizePerChain
      (AList.insert key (.new now response ttl) (self.entries chain)))
  else self

/-- A call at a time. -/
def call (order : AgeOrder) (self : MemoryCache χ) (call : ℕ × CacheCall χ) : MemoryCache χ :=
  match call.2 with
  | .get chain key => (self.get call.1 chain key).2
  | .set chain key response ttl => self.set order call.1 chain key response ttl

/-- Calls at times. -/
def run (order : AgeOrder) (self : MemoryCache χ) (calls : List (ℕ × CacheCall χ)) : MemoryCache χ :=
  calls.foldl (MemoryCache.call order) self

end MemoryCache

/-! ## What may be dropped -/

/-- **What may be dropped** of entries that have not expired: nothing while they fit, the older ones
before the others, and no more than is needed: the entries stand in a list by age, and the first ones
that have to go are those that went. -/
structure Evicts (limit : ℕ) (valid kept : Entries) : Prop where
  onlyOver : ∀ key entry, AList.lookup key valid = some entry → AList.lookup key kept = none →
    limit < total valid
  oldestFirst : ∀ key entry key' entry', AList.lookup key valid = some entry →
    AList.lookup key kept = none → AList.lookup key' valid = some entry' →
      entry'.createdAt < entry.createdAt → AList.lookup key' kept = none
  stops : ∃ (byAge : List (String × ℕ)) (count : ℕ),
    byAge.Perm (valid.entries.map fun entry => (entry.1, entry.2.createdAt)) ∧
      byAge.Pairwise (fun entry later => entry.2 ≤ later.2) ∧
        kept = AssocMap.eraseAll valid ((byAge.map Prod.fst).take count) ∧
          total kept ≤ limit ∧ ∀ fewer < count,
            limit < total (AssocMap.eraseAll valid ((byAge.map Prod.fst).take fewer))

/-! ## Sizes -/

/-- The size of what is taken out. -/
lemma total_erase {cache : Entries} {key : String} {entry : CacheEntry}
    (h : AList.lookup key cache = some entry) :
    total (AList.erase key cache) + entry.size = total cache := by
  have hmem : key ∈ cache.entries.keys :=
    AList.lookup_isSome.mp (Option.isSome_iff_exists.mpr ⟨entry, h⟩)
  obtain ⟨entry', before, after, hnot, hentries, herase⟩ := List.exists_of_kerase hmem
  obtain rfl : entry = entry' := by
    have hentry' : AList.lookup key cache = some entry' := by
      refine AList.mem_lookup_iff.mpr ?_
      rw [hentries]
      exact List.mem_append_right _ List.mem_cons_self
    exact Option.some.inj (h.symm.trans hentry')
  have htotal : total (AList.erase key cache) = ((before ++ after).map fun e => e.2.size).sum := by
    rw [total, ← herase]
    rfl
  rw [htotal, total, hentries]
  simp only [List.map_append, List.sum_append, List.map_cons, List.sum_cons]
  omega

/-- No keys, no size. -/
lemma total_eq_zero {cache : Entries} (h : cache.keys = []) : total cache = 0 := by
  have hentries : cache.entries = [] := List.map_eq_nil_iff.mp h
  rw [total, hentries]
  rfl

/-- **The loop**: it takes out the first keys that have to go.

**Proof sketch.** Induction on the keys that are left, which are those of the cache. If the rest does
not fit, the first key is taken out and its size is taken off, so the counter is the size of the rest
again. With no keys left the size is 0. -/
theorem evictOldest_spec (maxSize : ℕ) {keys : List String} {cache : Entries}
    (hperm : keys.Perm cache.keys) :
    ∃ count, evictOldest maxSize keys cache (total cache) = AssocMap.eraseAll cache (keys.take count) ∧
      total (AssocMap.eraseAll cache (keys.take count)) ≤ maxSize ∧
        ∀ fewer < count, maxSize < total (AssocMap.eraseAll cache (keys.take fewer)) := by
  induction keys generalizing cache with
  | nil =>
    refine ⟨0, rfl, ?_, fun fewer h => absurd h (Nat.not_lt_zero fewer)⟩
    have hzero := total_eq_zero hperm.symm.eq_nil
    show total cache ≤ maxSize
    omega
  | cons key keys ih =>
    by_cases hfits : total cache ≤ maxSize
    · refine ⟨0, ?_, hfits, fun fewer h => absurd h (Nat.not_lt_zero fewer)⟩
      rw [evictOldest, if_pos hfits]
      rfl
    · have hmem : key ∈ cache := hperm.mem_iff.mp List.mem_cons_self
      obtain ⟨entry, hentry⟩ := Option.isSome_iff_exists.mp (AList.lookup_isSome.mpr hmem)
      have herase : keys.Perm (AList.erase key cache).keys := by
        rw [AList.keys_erase]
        exact (List.cons_perm_iff_perm_erase.mp hperm).2
      obtain ⟨count, heq, hle, hmore⟩ := ih herase
      refine ⟨count + 1, ?_, hle, fun fewer hfewer => ?_⟩
      · rw [evictOldest, if_neg hfits, hentry]
        show evictOldest maxSize keys (AList.erase key cache) (total cache - entry.size) = _
        rw [← total_erase hentry, Nat.add_sub_cancel]
        exact heq
      · cases fewer with
        | zero => exact not_le.mp hfits
        | succ fewer => exact hmore fewer (Nat.lt_of_succ_lt_succ hfewer)

/-- A sorted list has the older entries in front. -/
lemma mem_take_of_lt {byAge : List (String × ℕ)}
    (hpairwise : byAge.Pairwise fun entry later => entry.2 ≤ later.2) {count : ℕ}
    {entry older : String × ℕ} (hentry : entry ∈ byAge.take count) (hmem : older ∈ byAge)
    (hlt : older.2 < entry.2) : older ∈ byAge.take count := by
  by_contra hnot
  have hdrop : older ∈ byAge.drop count := by
    rw [← List.take_append_drop count byAge, List.mem_append] at hmem
    exact hmem.resolve_left hnot
  rw [← List.take_append_drop count byAge, List.pairwise_append] at hpairwise
  exact absurd (hpairwise.2.2 entry hentry older hdrop) (not_le.mpr hlt)

/-- What is taken out of entries by age, as far as it has to be. -/
lemma evicts_of_take {limit : ℕ} {valid kept : Entries} {byAge : List (String × ℕ)} {count : ℕ}
    (hperm : byAge.Perm (valid.entries.map fun entry => (entry.1, entry.2.createdAt)))
    (hpairwise : byAge.Pairwise fun entry later => entry.2 ≤ later.2)
    (hkept : kept = AssocMap.eraseAll valid ((byAge.map Prod.fst).take count))
    (hfits : total kept ≤ limit)
    (hmore : ∀ fewer < count,
      limit < total (AssocMap.eraseAll valid ((byAge.map Prod.fst).take fewer))) :
    Evicts limit valid kept := by
  have hgone : ∀ key entry, AList.lookup key valid = some entry → (AList.lookup key kept = none ↔
      (key, entry.createdAt) ∈ byAge.take count) := by
    intro key entry hentry
    have hlisted : (key, entry.createdAt) ∈ byAge :=
      hperm.mem_iff.mpr (List.mem_map.mpr ⟨⟨key, entry⟩, AList.mem_lookup_iff.mp hentry, rfl⟩)
    rw [hkept, AssocMap.lookup_eraseAll, ← List.map_take]
    constructor
    · intro h
      split at h
      case isTrue hmem =>
        obtain ⟨⟨key', created⟩, htake, rfl⟩ := List.mem_map.mp hmem
        obtain ⟨⟨key'', entry'⟩, hmem', hpair⟩ :=
          List.mem_map.mp (hperm.mem_iff.mp (List.mem_of_mem_take htake))
        obtain ⟨rfl, rfl⟩ := Prod.mk.inj hpair
        obtain rfl : entry = entry' :=
          Option.some.inj (hentry.symm.trans (AList.mem_lookup_iff.mpr hmem'))
        exact htake
      case isFalse hmem =>
        rw [hentry] at h
        cases h
    · intro h
      exact if_pos (List.mem_map.mpr ⟨_, h, rfl⟩)
  refine ⟨?_, ?_, byAge, count, hperm, hpairwise, hkept, hfits, hmore⟩
  · intro key entry hentry hnone
    have htake := (hgone key entry hentry).mp hnone
    have hcount : 0 < count := by
      rcases Nat.eq_zero_or_pos count with rfl | hpos
      · cases htake
      · exact hpos
    exact hmore 0 hcount
  · intro key entry key' entry' hentry hnone hentry' hlt
    refine (hgone key' entry' hentry').mpr (mem_take_of_lt hpairwise ((hgone key entry hentry).mp hnone)
      ?_ hlt)
    exact hperm.mem_iff.mpr (List.mem_map.mpr ⟨⟨key', entry'⟩, AList.mem_lookup_iff.mp hentry', rfl⟩)

/-- **What is dropped**: of the entries that have not expired the oldest ones, until the rest fits. -/
theorem evictIfNeeded_spec (order : AgeOrder) (now maxSize : ℕ) (cache : Entries) :
    Evicts maxSize (unexpired now cache) (evictIfNeeded order now maxSize cache) := by
  rw [evictIfNeeded]
  by_cases hfits : total (unexpired now cache) ≤ maxSize
  · rw [if_pos hfits]
    have hnone : unexpired now cache = AssocMap.eraseAll (unexpired now cache)
        (((order.sorted (unexpired now cache)).map Prod.fst).take 0) := rfl
    exact evicts_of_take (order.perm _) (order.pairwise _) hnone hfits
      fun fewer h => absurd h (Nat.not_lt_zero fewer)
  · rw [if_neg hfits]
    have hkeys : ((order.sorted (unexpired now cache)).map Prod.fst).Perm (unexpired now cache).keys := by
      have hperm := (order.perm (unexpired now cache)).map Prod.fst
      rw [List.map_map] at hperm
      exact hperm
    obtain ⟨count, heq, hle, hmore⟩ := evictOldest_spec maxSize hkeys
    exact evicts_of_take (order.perm _) (order.pairwise _) heq (heq ▸ hle) hmore

end GemCore.Dynode

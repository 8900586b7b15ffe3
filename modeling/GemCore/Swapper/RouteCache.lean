import GemCore.Lib.Renewal
import Mathlib.Order.Lattice

/-!
# Discovered routes

`DiscoveryCache` of `swapper/src/route_cache.rs`: which probes of a pair of assets found a candidate.
The facts of a pair are one entry of a cache, whose deadline every update moves. The time of a call is
given to it.

## Main definitions

* `Cache` — `Cache`, with `get` and `update`.
* `recordDiscovery`, `candidatesForProbes`, `missingProbes` — the operations of `DiscoveryCache`.
* `runCalls` — a sequence of calls.

## Main results

* `factAt_runCalls` — what the cache holds after any calls.
* `discovery_facts` — which facts are reported.
-/

namespace GemCore.RouteCache

open Lib (AssocMap)
open Lib.Renewal (Log Stands valueAt)

/-! ## The cache -/

/-- `Cached`. -/
structure Cached (Value : Type) where
  value : Value
  expiresAt : ℕ

/-- `Cache`. -/
structure Cache (Key Value : Type) [DecidableEq Key] where
  values : AssocMap Key (Cached Value)
  ttl : ℕ

section Cache

variable {Key Value : Type} [DecidableEq Key]

/-- `Cache::get`, which removes an expired entry. -/
def Cache.get (cache : Cache Key Value) (key : Key) (now : ℕ) : Option Value × Cache Key Value :=
  let values :=
    match AList.lookup key cache.values with
    | some cached => if cached.expiresAt ≤ now then AList.erase key cache.values else cache.values
    | none => cache.values
  ((AList.lookup key values).map Cached.value, { cache with values := values })

/-- `Cache::update`, which removes all expired entries. -/
def Cache.update (cache : Cache Key Value) (key : Key) (default : Value) (change : Value → Value)
    (now : ℕ) : Cache Key Value :=
  let values := AssocMap.retain (fun cached => decide (now < cached.expiresAt)) cache.values
  let cached := (AList.lookup key values).getD ⟨default, now + cache.ttl⟩
  { cache with values := AList.insert key ⟨change cached.value, now + cache.ttl⟩ values }

end Cache

/-! ## Discoveries -/

variable {Key Candidate Probe : Type} [LinearOrder Key] [DecidableEq Candidate] [DecidableEq Probe]

/-- `DiscoveryCache`. -/
abbrev DiscoveryCache (Candidate Probe Key : Type) [LinearOrder Key] [DecidableEq Probe] : Type :=
  Cache (Key × Key) (AssocMap Probe (Option Candidate))

/-- `DiscoveryCache::pair_key`. -/
def pairKey (source target : Key) : Key × Key :=
  if source ≤ target then (source, target) else (target, source)

/-- The filter of `candidates_for_probes`: of equal candidates the first one is kept. -/
def firsts (candidates : List Candidate) : List Candidate :=
  (candidates.zipIdx.filter fun entry => entry.1 ∉ candidates.take entry.2).map Prod.fst

/-- `candidates_for_probes`. -/
def candidatesForProbes (cache : DiscoveryCache Candidate Probe Key) (source target : Key)
    (probes : List Probe) (now : ℕ) : List Candidate × DiscoveryCache Candidate Probe Key :=
  let (discovery, cache) := cache.get (pairKey source target) now
  match discovery with
  | none => ([], cache)
  | some discovery =>
    (firsts (probes.filterMap fun probe => (AList.lookup probe discovery).join), cache)

/-- `missing_probes`. -/
def missingProbes (cache : DiscoveryCache Candidate Probe Key) (source target : Key)
    (probes : List Probe) (now : ℕ) : List Probe × DiscoveryCache Candidate Probe Key :=
  let (discovery, cache) := cache.get (pairKey source target) now
  (probes.filter fun probe =>
    match discovery with
    | none => true
    | some discovery => (AList.lookup probe discovery).isNone, cache)

/-- `HashMap::extend`, by the entries of another map. -/
def extend (discovery facts : AssocMap Probe (Option Candidate)) :
    AssocMap Probe (Option Candidate) :=
  AssocMap.insertAll discovery (facts.entries.map fun entry => (entry.1, entry.2))

/-- `record_discovery`. -/
def recordDiscovery (cache : DiscoveryCache Candidate Probe Key) (source target : Key)
    (facts : List (Probe × Option Candidate)) (now : ℕ) : DiscoveryCache Candidate Probe Key :=
  let facts := AssocMap.collect facts
  if facts.entries.isEmpty then cache
  else cache.update (pairKey source target) ∅ (fun discovery => extend discovery facts) now

/-- A call. -/
inductive Call (Candidate Probe Key : Type) where
  | record (source target : Key) (facts : List (Probe × Option Candidate))
  | candidates (source target : Key) (probes : List Probe)
  | missing (source target : Key) (probes : List Probe)

/-- The cache after a call at a time. -/
def runCall (cache : DiscoveryCache Candidate Probe Key)
    (call : ℕ × Call Candidate Probe Key) : DiscoveryCache Candidate Probe Key :=
  match call.2 with
  | .record source target facts => recordDiscovery cache source target facts call.1
  | .candidates source target probes => (candidatesForProbes cache source target probes call.1).2
  | .missing source target probes => (missingProbes cache source target probes call.1).2

/-- The cache after a sequence of calls, from an empty one. -/
def runCalls (ttl : ℕ) (calls : List (ℕ × Call Candidate Probe Key)) :
    DiscoveryCache Candidate Probe Key :=
  calls.foldl runCall ⟨∅, ttl⟩

/-! ## Facts -/

/-- The facts that were recorded for a pair, in either order of its assets, with their times. -/
def factsOf (source target : Key) (calls : List (ℕ × Call Candidate Probe Key)) :
    Log Probe (Option Candidate) :=
  calls.filterMap fun call =>
    match call.2 with
    | .record source' target' facts =>
      if (source' = source ∧ target' = target ∨ source' = target ∧ target' = source) ∧ facts ≠ []
      then some (call.1, facts)
      else none
    | .candidates _ _ _ | .missing _ _ _ => none

/-- The fact that a cache holds about a probe of a pair at a time. -/
def factAt (cache : DiscoveryCache Candidate Probe Key) (key : Key × Key) (now : ℕ)
    (probe : Probe) : Option (Option Candidate) :=
  match AList.lookup key cache.values with
  | some cached => if now < cached.expiresAt then AList.lookup probe cached.value else none
  | none => none

omit [DecidableEq Candidate] [DecidableEq Probe] in
/-- Two pairs have one key if they are the same up to order. -/
lemma pairKey_eq_iff {source target source' target' : Key} :
    pairKey source' target' = pairKey source target ↔
      source' = source ∧ target' = target ∨ source' = target ∧ target' = source := by
  have hkey : ∀ {a b c d : Key}, (a, b) = (c, d) ↔ a = c ∧ b = d := Prod.mk.injEq _ _ _ _ ▸ Iff.rfl
  rw [pairKey, pairKey]
  split_ifs with h h' h'
  · rw [hkey]
    refine ⟨Or.inl, ?_⟩
    rintro (heq | ⟨rfl, rfl⟩)
    · exact heq
    · have := le_antisymm h h'
      exact ⟨this, this.symm⟩
  · rw [hkey]
    refine ⟨Or.inr, ?_⟩
    rintro (⟨rfl, rfl⟩ | heq)
    · exact absurd h h'
    · exact heq
  · rw [hkey]
    refine ⟨fun heq => Or.inr heq.symm, ?_⟩
    rintro (⟨rfl, rfl⟩ | heq)
    · exact absurd h' h
    · exact heq.symm
  · rw [hkey]
    refine ⟨fun heq => Or.inl heq.symm, ?_⟩
    rintro (heq | ⟨rfl, rfl⟩)
    · exact heq.symm
    · have := le_antisymm (not_le.mp h).le (not_le.mp h').le
      exact ⟨this, this.symm⟩

/-- One more candidate is kept unless it is there already. -/
lemma firsts_concat (candidates : List Candidate) (candidate : Candidate) :
    firsts (candidates ++ [candidate]) =
      if candidate ∈ candidates then firsts candidates else firsts candidates ++ [candidate] := by
  have hfilter : (candidates.zipIdx.filter fun entry =>
      entry.1 ∉ (candidates ++ [candidate]).take entry.2) =
        candidates.zipIdx.filter fun entry => entry.1 ∉ candidates.take entry.2 := by
    refine List.filter_congr fun entry hentry => ?_
    have hlt := List.snd_lt_of_mem_zipIdx hentry
    rw [List.take_append_of_le_length (by omega)]
  rw [firsts, List.zipIdx_append, List.filter_append, hfilter, List.map_append]
  simp only [List.zipIdx_singleton, List.filter_singleton, Nat.zero_add, List.take_left]
  split_ifs with h
  · simp [h, firsts]
  · simp [h, firsts]

/-- **The candidates that are reported are distinct, and stand in the order of the probes.** -/
theorem firsts_spec (candidates : List Candidate) :
    (firsts candidates).Nodup ∧ (firsts candidates).Sublist candidates ∧
      ∀ candidate, candidate ∈ firsts candidates ↔ candidate ∈ candidates := by
  induction candidates using List.reverseRecOn with
  | nil => exact ⟨List.nodup_nil, List.Sublist.slnil, fun _ => Iff.rfl⟩
  | append_singleton candidates candidate ih =>
    obtain ⟨hnodup, hsub, hmem⟩ := ih
    rw [firsts_concat]
    split_ifs with h
    · refine ⟨hnodup, hsub.trans (List.sublist_append_left _ _), fun c => ?_⟩
      rw [hmem, List.mem_append, List.mem_singleton]
      refine ⟨Or.inl, ?_⟩
      rintro (hc | rfl)
      · exact hc
      · exact h
    · refine ⟨?_, hsub.append_right _, fun c => ?_⟩
      · refine hnodup.append (List.nodup_singleton _) ?_
        rw [List.disjoint_singleton]
        exact fun hc => h ((hmem _).mp hc)
      · rw [List.mem_append, hmem, List.mem_append]

/-! ## What one call does -/

variable {cache : DiscoveryCache Candidate Probe Key} {key key' : Key × Key} {now now' : ℕ}

omit [DecidableEq Candidate] in
lemma lookup_extend (discovery : AssocMap Probe (Option Candidate))
    (facts : List (Probe × Option Candidate)) (probe : Probe) :
    AList.lookup probe (extend discovery (AssocMap.collect facts)) =
      (AList.lookup probe (AssocMap.collect facts)).or (AList.lookup probe discovery) := by
  have hentries := AssocMap.lookup_collect_filterMap some (AssocMap.collect facts) probe
  simp only [Option.map_some, List.filterMap_eq_map'] at hentries
  rw [extend, AssocMap.lookup_insertAll]
  congr 1
  rw [hentries]
  cases AList.lookup probe (AssocMap.collect facts) <;> rfl

omit [DecidableEq Candidate] in
/-- Looking a pair up changes no fact that is still alive. -/
lemma factAt_get (hnow : now ≤ now') (probe : Probe) :
    factAt (cache.get key now).2 key' now' probe = factAt cache key' now' probe := by
  rw [Cache.get, factAt, factAt]
  rcases hlookup : AList.lookup key cache.values with _ | cached
  · rfl
  · simp only
    split_ifs with hexpired
    · rw [AssocMap.lookup_erase_eq]
      split_ifs with hkey
      · subst hkey
        rw [hlookup]
        exact (if_neg (by omega)).symm
      · rfl
    · rfl

omit [DecidableEq Candidate] in
/-- What looking a pair up returns. -/
lemma lookup_get (cache : DiscoveryCache Candidate Probe Key) (key : Key × Key) (now : ℕ) :
    (cache.get key now).1 = none ∧ (∀ probe, factAt cache key now probe = none) ∨
      ∃ discovery, (cache.get key now).1 = some discovery ∧
        ∀ probe, factAt cache key now probe = AList.lookup probe discovery := by
  rw [Cache.get]
  simp only [factAt]
  rcases hlookup : AList.lookup key cache.values with _ | cached
  · refine Or.inl ⟨?_, fun _ => rfl⟩
    rw [hlookup]
    rfl
  · simp only
    split_ifs with hexpired halive halive
    · omega
    · refine Or.inl ⟨?_, fun _ => rfl⟩
      rw [AssocMap.lookup_erase_eq, if_pos rfl]
      rfl
    · refine Or.inr ⟨cached.value, ?_, fun _ => rfl⟩
      rw [hlookup]
      rfl
    · omega

omit [DecidableEq Candidate] in
/-- **What recording does**: the facts of the pair start anew or go on, those of other pairs stay. -/
theorem factAt_recordDiscovery {source target : Key} {facts : List (Probe × Option Candidate)}
    (hfacts : facts ≠ []) (hnow : now ≤ now') (probe : Probe) :
    factAt (recordDiscovery cache source target facts now) key now' probe =
      if key = pairKey source target then
        if now' < now + cache.ttl then
          (AList.lookup probe (AssocMap.collect facts)).or (factAt cache key now probe)
        else none
      else factAt cache key now' probe := by
  have hempty : (AssocMap.collect facts).entries.isEmpty = false := by
    rw [List.isEmpty_eq_false_iff]
    intro h
    obtain ⟨fact, hfact⟩ := List.exists_mem_of_ne_nil _ hfacts
    have hkey := AssocMap.mem_keys_collect.mpr (List.mem_map_of_mem (f := Prod.fst) hfact)
    rw [AList.keys, h] at hkey
    cases hkey
  rw [recordDiscovery, hempty, if_neg Bool.false_ne_true, Cache.update, factAt,
    AssocMap.lookup_insert_eq]
  by_cases hkey : key = pairKey source target
  · subst hkey
    simp only [if_true, lookup_extend, AssocMap.lookup_retain, factAt]
    congr 2
    rcases AList.lookup (pairKey source target) cache.values with _ | cached
    · rfl
    · by_cases hcached : now < cached.expiresAt
      · simp [Option.filter, hcached]
      · simp [Option.filter, hcached]
  · simp only [if_neg hkey, AssocMap.lookup_retain, factAt]
    rcases AList.lookup key cache.values with _ | cached
    · rfl
    · by_cases hcached : now < cached.expiresAt
      · simp [Option.filter, hcached]
      · have hlate : ¬ now' < cached.expiresAt := by omega
        simp [Option.filter, hcached, hlate]

/-! ## Runs -/

/-- Asking for candidates changes the cache as looking the pair up does. -/
lemma candidatesForProbes_snd (cache : DiscoveryCache Candidate Probe Key) (source target : Key)
    (probes : List Probe) (now : ℕ) :
    (candidatesForProbes cache source target probes now).2 =
      (cache.get (pairKey source target) now).2 := by
  rw [candidatesForProbes]
  rcases cache.get (pairKey source target) now with ⟨_ | discovery, cache'⟩
  · rfl
  · rfl

lemma ttl_runCall (cache : DiscoveryCache Candidate Probe Key)
    (call : ℕ × Call Candidate Probe Key) : (runCall cache call).ttl = cache.ttl := by
  obtain ⟨time, call⟩ := call
  cases call with
  | record source target facts =>
    change (recordDiscovery cache source target facts time).ttl = cache.ttl
    rw [recordDiscovery]
    split_ifs
    · rfl
    · rfl
  | candidates source target probes =>
    change (candidatesForProbes cache source target probes time).2.ttl = cache.ttl
    rw [candidatesForProbes_snd]
    rfl
  | missing source target probes => rfl

/-- The facts of a pair after one more call. -/
lemma factAt_runCall (cache : DiscoveryCache Candidate Probe Key)
    {call : ℕ × Call Candidate Probe Key} (source target : Key) (hnow : call.1 ≤ now)
    (probe : Probe) :
    factAt (runCall cache call) (pairKey source target) now probe =
      match factsOf source target [call] with
      | [] => factAt cache (pairKey source target) now probe
      | write :: _ =>
        if now < write.1 + cache.ttl then
          (AList.lookup probe (AssocMap.collect write.2)).or
            (factAt cache (pairKey source target) write.1 probe)
        else none := by
  obtain ⟨time, call⟩ := call
  cases call with
  | record source' target' facts =>
    change factAt (recordDiscovery cache source' target' facts time) _ now probe = _
    by_cases hfacts : facts = []
    · subst hfacts
      simp [factsOf, recordDiscovery, AssocMap.collect]
    · rw [factAt_recordDiscovery hfacts hnow]
      by_cases hpair : source' = source ∧ target' = target ∨ source' = target ∧ target' = source
      · rw [if_pos (pairKey_eq_iff.mpr hpair).symm]
        simp [factsOf, hpair, hfacts]
      · rw [if_neg fun h => hpair (pairKey_eq_iff.mp h.symm)]
        simp [factsOf, hpair]
  | candidates source' target' probes =>
    change factAt (candidatesForProbes cache source' target' probes time).2 _ now probe = _
    rw [candidatesForProbes_snd]
    exact factAt_get hnow probe
  | missing source' target' probes => exact factAt_get hnow probe

/-- **What the cache holds after any calls** is what stands of the recorded facts of the pair.

**Proof sketch.** Induction on the calls from the end: a call at a time changes the facts of a pair as
one more write of its log does, if it records any, and not at all otherwise. -/
theorem factAt_runCalls (ttl : ℕ) {calls : List (ℕ × Call Candidate Probe Key)} (source target : Key)
    (htimes : (calls.map Prod.fst ++ [now]).Pairwise (· ≤ ·)) (probe : Probe) :
    factAt (runCalls ttl calls) (pairKey source target) now probe =
      valueAt ttl (factsOf source target calls) now probe := by
  have httl : ∀ calls : List (ℕ × Call Candidate Probe Key), (runCalls ttl calls).ttl = ttl := by
    intro calls
    induction calls using List.reverseRecOn with
    | nil => rfl
    | append_singleton calls call ih =>
      rw [runCalls, List.foldl_append, List.foldl_cons, List.foldl_nil, ttl_runCall]
      exact ih
  induction calls using List.reverseRecOn generalizing now with
  | nil => rfl
  | append_singleton calls call ih =>
    have hnow : call.1 ≤ now := (List.pairwise_append.mp htimes).2.2 _ (by simp) _ (by simp)
    have hbefore : ∀ {time}, call.1 ≤ time → (calls.map Prod.fst ++ [time]).Pairwise (· ≤ ·) := by
      intro time htime
      have hprefix := (List.pairwise_append.mp htimes).1
      rw [List.map_append] at hprefix
      refine List.pairwise_append.mpr ⟨(List.pairwise_append.mp hprefix).1,
        List.pairwise_singleton _ _, fun a ha b hb => ?_⟩
      rw [List.mem_singleton.mp hb]
      exact ((List.pairwise_append.mp hprefix).2.2 a ha _ (by simp)).trans htime
    have hlog : factsOf source target (calls ++ [call]) =
        factsOf source target calls ++ factsOf source target [call] := List.filterMap_append
    rw [runCalls, List.foldl_append, List.foldl_cons, List.foldl_nil, ← runCalls,
      factAt_runCall _ source target hnow, httl, hlog]
    rcases hcall : factsOf source target [call] with _ | ⟨write, rest⟩
    · rw [List.append_nil]
      exact ih (hbefore hnow)
    · have hwrite : rest = [] ∧ write.1 = call.1 := by
        rw [factsOf, List.filterMap_cons] at hcall
        split at hcall
        · cases hcall
        · rename_i entry hentry
          obtain ⟨rfl, rfl⟩ := List.cons.inj hcall
          refine ⟨rfl, ?_⟩
          split at hentry
          · split_ifs at hentry
            exact (Option.some.inj hentry) ▸ rfl
          · cases hentry
          · cases hentry
      obtain ⟨rfl, htime⟩ := hwrite
      rw [Lib.Renewal.valueAt_concat]
      simp only [ih (hbefore htime.ge)]

/-- **Which facts are reported** after any calls at non-decreasing times: the last one recorded for the
pair and the probe, in either order of the pair, as long as less than the lifetime passes between two
recordings of the pair from then on, and after the last one. The candidates are those of these facts,
distinct and in the order of the probes; the other probes are missing. -/
theorem discovery_facts (ttl : ℕ) {calls : List (ℕ × Call Candidate Probe Key)} {now : ℕ}
    (htimes : (calls.map Prod.fst ++ [now]).Pairwise (· ≤ ·)) (source target : Key)
    (probes : List Probe) :
    ∃ fact : Probe → Option (Option Candidate),
      (∀ probe found, fact probe = some found ↔
        Stands ttl (factsOf source target calls) now probe found) ∧
      (let reported := (candidatesForProbes (runCalls ttl calls) source target probes now).1
       reported.Nodup ∧ reported.Sublist (probes.filterMap fun probe => (fact probe).join) ∧
        ∀ candidate, candidate ∈ reported ↔ ∃ probe ∈ probes, fact probe = some (some candidate)) ∧
      (missingProbes (runCalls ttl calls) source target probes now).1 =
        probes.filter fun probe => (fact probe).isNone := by
  have hfact := factAt_runCalls ttl source target htimes
  refine ⟨fun probe => factAt (runCalls ttl calls) (pairKey source target) now probe,
    fun probe found => ?_, ?_, ?_⟩
  · beta_reduce
    rw [hfact, Lib.Renewal.valueAt_eq_some_iff]
  · have hreported : (candidatesForProbes (runCalls ttl calls) source target probes now).1 =
        firsts (probes.filterMap fun probe =>
          (factAt (runCalls ttl calls) (pairKey source target) now probe).join) := by
      rw [candidatesForProbes]
      rcases lookup_get (runCalls ttl calls) (pairKey source target) now with
        ⟨hnone, hfacts⟩ | ⟨discovery, hsome, hfacts⟩
      · simp [hnone, hfacts, firsts]
      · simp [hsome, hfacts]
    obtain ⟨hnodup, hsub, hmem⟩ := firsts_spec (probes.filterMap fun probe =>
      (factAt (runCalls ttl calls) (pairKey source target) now probe).join)
    rw [hreported]
    refine ⟨hnodup, hsub, fun candidate => ?_⟩
    rw [hmem, List.mem_filterMap]
    simp only [Option.join_eq_some_iff]
  · rw [missingProbes]
    rcases lookup_get (runCalls ttl calls) (pairKey source target) now with
      ⟨hnone, hfacts⟩ | ⟨discovery, hsome, hfacts⟩
    · simp [hnone, hfacts]
    · simp [hsome, hfacts]

/-- Two recordings for one pair, the second one when the first one is nearly too old. -/
def twoRecordings : List (ℕ × Call String ℕ ℕ) :=
  [(0, .record 1 2 [(60, some "0x1")]), (9, .record 2 1 [(200, none)])]

theorem discovery_facts_twoRecordings :
    ∃ fact : ℕ → Option (Option String), fact 60 = some (some "0x1") ∧
      (missingProbes (runCalls 10 twoRecordings) 1 2 [60, 200, 300] 15).1 =
        [60, 200, 300].filter fun probe => (fact probe).isNone := by
  obtain ⟨fact, hfact, -, hmissing⟩ := @discovery_facts ℕ String ℕ _ _ _ 10 twoRecordings 15
    (by decide) 1 2 [60, 200, 300]
  refine ⟨fact, (hfact 60 (some "0x1")).mpr ?_, hmissing⟩
  exact ⟨[], 0, _, [(9, [(200, none)])], rfl, rfl, by decide, by decide⟩

/-- The last fact about a probe of a pair is less than the lifetime old. -/
def Young (ttl : ℕ) (source target : Key) (calls : List (ℕ × Call Candidate Probe Key)) (now : ℕ)
    (probe : Probe) : Prop :=
  ∃ before time facts after, factsOf source target calls = before ++ (time, facts) :: after ∧
    probe ∈ facts.map Prod.fst ∧ (∀ write ∈ after, probe ∉ write.2.map Prod.fst) ∧
    now < time + ttl

/-- **A fact outlives its lifetime**: a later recording for another probe of the pair keeps it. -/
theorem not_reported_iff_young :
    ¬ ∀ (ttl : ℕ) (calls : List (ℕ × Call String ℕ ℕ)) (now source target probe : ℕ),
      (calls.map Prod.fst ++ [now]).Pairwise (· ≤ ·) →
      ((missingProbes (runCalls ttl calls) source target [probe] now).1 = [] ↔
        Young ttl source target calls now probe) := by
  intro h
  obtain ⟨before, time, facts, after, hlog, hprobe, -, hyoung⟩ :=
    (h 10 twoRecordings 15 1 2 60 (by decide)).mp (by decide +kernel)
  have hmem : (time, facts) ∈ [(0, [(60, some "0x1")]), (9, [(200, none)])] := by
    have hlog' : factsOf 1 2 twoRecordings = [(0, [(60, some "0x1")]), (9, [(200, none)])] := rfl
    rw [← hlog', hlog]
    exact List.mem_append_right _ List.mem_cons_self
  rcases List.mem_cons.mp hmem with hwrite | hwrite
  · cases hwrite
    exact absurd hyoung (by decide)
  · cases List.mem_singleton.mp hwrite
    exact absurd hprobe (by decide)

end GemCore.RouteCache

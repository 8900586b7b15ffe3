import GemCore.Lib.Result
import Mathlib.Data.List.AList
import Mathlib.Data.List.Dedup
import Mathlib.Data.List.Induction

/-!
# Maps as association lists

Mathlib's association lists with values of one type, as finite maps: lookups after an insertion or a
removal in one equation each, and keeping the entries whose values pass a test.

## Main definitions

* `AssocMap` — finite maps.
* `AssocMap.retain`, `AssocMap.anyValue` — the entries whose values pass a test, and whether there
  is one.
* `AssocMap.collect` — a list of pairs as a map; of two values of one key the later one is kept.
* `AssocMap.insertAll`, `AssocMap.eraseAll` — several entries put in or taken out.

## Main results

* `AssocMap.lookup_insert_eq`, `AssocMap.lookup_erase_eq`, `AssocMap.lookup_retain` — the value of a
  key afterwards.
* `AssocMap.anyValue_iff` — some value passes a test exactly if some key has one that does.
* `AssocMap.keys_collect_perm` — the keys of a list of pairs, each once.
* `AssocMap.lookup_collect_eq_some_iff` — the last pair of a key counts.
* `AssocMap.lookup_insertAll`, `AssocMap.lookup_eraseAll` — the value of a key afterwards.
* `AssocMap.lookup_collect_filterMap` — the entries of a map through a partial function.
-/

namespace Lib

variable {κ ν : Type} [DecidableEq κ]

/-- Finite maps from `κ` to `ν`. -/
abbrev AssocMap (κ ν : Type) : Type := AList fun _ : κ => ν

namespace AssocMap

lemma lookup_insert_eq (m : AssocMap κ ν) (k k' : κ) (v : ν) :
    AList.lookup k' (AList.insert k v m) = if k' = k then some v else AList.lookup k' m := by
  split
  case isTrue h =>
    subst h
    exact AList.lookup_insert m
  case isFalse h => exact AList.lookup_insert_ne h

lemma lookup_erase_eq (m : AssocMap κ ν) (k k' : κ) :
    AList.lookup k' (AList.erase k m) = if k' = k then none else AList.lookup k' m := by
  split
  case isTrue h =>
    subst h
    exact AList.lookup_erase k' m
  case isFalse h => exact AList.lookup_erase_ne h

/-- The entries whose values pass a test. -/
def retain (keep : ν → Bool) (m : AssocMap κ ν) : AssocMap κ ν where
  entries := m.entries.filter fun entry => keep entry.2
  nodupKeys := .sublist List.filter_sublist m.nodupKeys

lemma lookup_retain (keep : ν → Bool) (m : AssocMap κ ν) (k : κ) :
    AList.lookup k (retain keep m) = (AList.lookup k m).filter keep := by
  ext v
  rw [Option.filter_eq_some_iff, ← Option.mem_def, ← Option.mem_def, AList.mem_lookup_iff,
    AList.mem_lookup_iff]
  simp [retain]

/-- Whether some value passes a test. -/
def anyValue (test : ν → Bool) (m : AssocMap κ ν) : Bool := m.entries.any fun entry => test entry.2

lemma anyValue_iff {test : ν → Bool} {m : AssocMap κ ν} :
    anyValue test m = true ↔ ∃ k v, AList.lookup k m = some v ∧ test v = true := by
  simp only [anyValue, List.any_eq_true]
  constructor
  · rintro ⟨⟨k, v⟩, hmem, htest⟩
    exact ⟨k, v, AList.mem_lookup_iff.mpr hmem, htest⟩
  · rintro ⟨k, v, h, htest⟩
    exact ⟨⟨k, v⟩, AList.mem_lookup_iff.mp h, htest⟩

/-- A list of pairs as a map, inserted one after the other. -/
def collect (pairs : List (κ × ν)) : AssocMap κ ν :=
  pairs.foldl (fun m pair => AList.insert pair.1 pair.2 m) ∅

/-- The pairs in the order in which the last insertion comes first. -/
lemma collect_concat (pairs : List (κ × ν)) (pair : κ × ν) :
    collect (pairs ++ [pair]) = AList.insert pair.1 pair.2 (collect pairs) := by
  simp [collect, List.foldl_append]

/-- A value in the map is one of the pairs. -/
lemma mem_of_lookup_collect {pairs : List (κ × ν)} {k : κ} {v : ν}
    (h : AList.lookup k (collect pairs) = some v) : (k, v) ∈ pairs := by
  induction pairs using List.reverseRecOn with
  | nil => simp [collect] at h
  | append_singleton pairs pair ih =>
    rw [collect_concat, lookup_insert_eq] at h
    split_ifs at h with hk
    · cases h
      subst hk
      exact List.mem_append_right _ (List.mem_singleton_self _)
    · exact List.mem_append_left _ (ih h)

lemma mem_keys_collect {pairs : List (κ × ν)} {k : κ} :
    k ∈ (collect pairs).keys ↔ k ∈ pairs.map Prod.fst := by
  induction pairs using List.reverseRecOn with
  | nil => simp [collect]
  | append_singleton pairs pair ih =>
    have hmem : k ∈ (AList.insert pair.1 pair.2 (collect pairs)).keys ↔
        k = pair.1 ∨ k ∈ (collect pairs).keys := AList.mem_insert (collect pairs)
    rw [collect_concat, hmem, ih]
    simp [or_comm]

/-- **The keys of a list of pairs, each once.** -/
theorem keys_collect_perm (pairs : List (κ × ν)) :
    (collect pairs).keys.Perm (pairs.map Prod.fst).dedup := by
  refine (List.perm_ext_iff_of_nodup (AList.keys_nodup _) (List.nodup_dedup _)).mpr fun k => ?_
  rw [mem_keys_collect, List.mem_dedup]

/-- **The value of a key is that of its last pair.** -/
theorem lookup_collect_eq_some_iff {pairs : List (κ × ν)} {k : κ} {v : ν} :
    AList.lookup k (collect pairs) = some v ↔
      ∃ before after, pairs = before ++ (k, v) :: after ∧ k ∉ after.map Prod.fst := by
  induction pairs using List.reverseRecOn with
  | nil => simp [collect]
  | append_singleton pairs pair ih =>
    rw [collect_concat, lookup_insert_eq]
    split
    case isTrue hk =>
      constructor
      · intro h
        refine ⟨pairs, [], ?_, List.not_mem_nil⟩
        rw [hk, ← Option.some.inj h]
      · rintro ⟨before, after, heq, hnot⟩
        rcases List.eq_nil_or_concat after with rfl | ⟨after, last, rfl⟩
        · obtain ⟨-, hlast⟩ := List.append_inj' heq rfl
          rw [List.singleton_inj.mp hlast]
        · have hconcat : pairs ++ [pair] = (before ++ (k, v) :: after) ++ [last] := by
            rw [heq, List.concat_eq_append, List.append_assoc, List.cons_append]
          obtain ⟨-, hlast⟩ := List.append_inj' hconcat rfl
          rw [List.singleton_inj.mp hlast] at hk
          exact absurd (by simp [hk]) hnot
    case isFalse hk =>
      rw [ih]
      constructor
      · rintro ⟨before, after, rfl, hnot⟩
        refine ⟨before, after ++ [pair], by simp, ?_⟩
        rw [List.map_append, List.mem_append]
        rintro (hmem | hmem)
        · exact hnot hmem
        · exact hk (List.mem_singleton.mp hmem)
      · rintro ⟨before, after, heq, hnot⟩
        rcases List.eq_nil_or_concat after with rfl | ⟨after, last, rfl⟩
        · obtain ⟨-, hlast⟩ := List.append_inj' heq rfl
          exact absurd (by rw [List.singleton_inj.mp hlast]) hk
        · have hconcat : pairs ++ [pair] = (before ++ (k, v) :: after) ++ [last] := by
            rw [heq, List.concat_eq_append, List.append_assoc, List.cons_append]
          obtain ⟨hpairs, -⟩ := List.append_inj' hconcat rfl
          exact ⟨before, after, hpairs, fun hmem => hnot (by simp [hmem])⟩

/-- Whether a list of pairs has a key. -/
lemma lookup_collect_isSome {pairs : List (κ × ν)} {k : κ} :
    (AList.lookup k (collect pairs)).isSome ↔ k ∈ pairs.map Prod.fst := by
  rw [AList.lookup_isSome, AList.mem_keys, mem_keys_collect]

/-- Values are changed where they stand. -/
lemma lookup_collect_map {ω : Type} (f : ν → ω) (pairs : List (κ × ν)) (k : κ) :
    AList.lookup k (collect (pairs.map fun pair => (pair.1, f pair.2)))
      = (AList.lookup k (collect pairs)).map f := by
  induction pairs using List.reverseRecOn with
  | nil => simp [collect]
  | append_singleton pairs pair ih =>
    rw [List.map_append, List.map_singleton, collect_concat, collect_concat, lookup_insert_eq,
      lookup_insert_eq, ih]
    split
    · rfl
    · rfl

/-- The pairs of a list without repeated keys. -/
lemma lookup_collect_of_nodup {pairs : List (κ × ν)} (h : (pairs.map Prod.fst).Nodup) {k : κ}
    {v : ν} : AList.lookup k (collect pairs) = some v ↔ (k, v) ∈ pairs := by
  refine ⟨mem_of_lookup_collect, fun hmem => ?_⟩
  obtain ⟨v', hv'⟩ := Option.isSome_iff_exists.mp
    (lookup_collect_isSome.mpr (List.mem_map_of_mem hmem))
  have hmem' := mem_of_lookup_collect hv'
  have hpair := List.inj_on_of_nodup_map h hmem' hmem rfl
  rw [hv', (Prod.mk.inj hpair).2]

/-- A map of what a fallible function finds: the value of a key is one that was found for it. -/
theorem exists_lookup_collect_of_tryMap {ε α : Type} {f : α → Except ε (κ × ν)} {l : List α}
    {pairs : List (κ × ν)} (h : tryMap f l = .ok pairs) {a : α} (ha : a ∈ l) {k : κ}
    (hkey : ∀ k' v, f a = .ok (k', v) → k' = k) :
    ∃ a' ∈ l, ∃ v, f a' = .ok (k, v) ∧ AList.lookup k (collect pairs) = some v := by
  have hall := tryMap_eq_ok_iff.mp h
  obtain ⟨i, hi, rfl⟩ := List.getElem_of_mem ha
  have hpair := hall.get hi (hall.length_eq ▸ hi)
  have hmem : k ∈ pairs.map Prod.fst :=
    List.mem_map.mpr ⟨_, List.get_mem pairs _, hkey _ _ hpair⟩
  obtain ⟨v, hv⟩ := Option.isSome_iff_exists.mp (lookup_collect_isSome.mpr hmem)
  obtain ⟨a', ha', hfound⟩ := exists_mem_of_tryMap h (mem_of_lookup_collect hv)
  exact ⟨a', ha', v, hfound, hv⟩

/-- Several entries, one after the other. -/
def insertAll (m : AssocMap κ ν) (pairs : List (κ × ν)) : AssocMap κ ν :=
  pairs.foldl (fun m pair => AList.insert pair.1 pair.2 m) m

lemma lookup_insertAll (m : AssocMap κ ν) (pairs : List (κ × ν)) (k : κ) :
    AList.lookup k (insertAll m pairs)
      = (AList.lookup k (collect pairs)).or (AList.lookup k m) := by
  induction pairs using List.reverseRecOn with
  | nil => simp [insertAll, collect]
  | append_singleton pairs pair ih =>
    have hfold : insertAll m (pairs ++ [pair]) = AList.insert pair.1 pair.2 (insertAll m pairs) := by
      simp [insertAll, List.foldl_append]
    rw [hfold, collect_concat, lookup_insert_eq, lookup_insert_eq, ih]
    split
    · rfl
    · rfl

/-- Several entries are taken out. -/
def eraseAll (m : AssocMap κ ν) (keys : List κ) : AssocMap κ ν :=
  keys.foldl (fun m k => AList.erase k m) m

lemma lookup_eraseAll (m : AssocMap κ ν) (keys : List κ) (k : κ) :
    AList.lookup k (eraseAll m keys) = if k ∈ keys then none else AList.lookup k m := by
  induction keys generalizing m with
  | nil => simp [eraseAll]
  | cons key keys ih =>
    show AList.lookup k (eraseAll (AList.erase key m) keys) = _
    rw [ih, lookup_erase_eq]
    by_cases hkeys : k ∈ keys
    · simp [hkeys]
    · by_cases hkey : k = key
      · simp [hkey]
      · simp [hkeys, hkey]

/-- The entries of a map through a partial function. -/
lemma lookup_collect_filterMap {ω : Type} (f : ν → Option ω) (m : AssocMap κ ν) (k : κ) :
    AList.lookup k (collect (m.entries.filterMap fun entry => (f entry.2).map fun w => (entry.1, w)))
      = (AList.lookup k m).bind f := by
  have hkeys : ((m.entries.filterMap fun entry =>
      (f entry.2).map fun w => (entry.1, w)).map Prod.fst).Nodup := by
    refine List.Nodup.sublist ?_ m.nodupKeys
    rw [List.map_filterMap]
    generalize m.entries = entries
    induction entries with
    | nil => exact .slnil
    | cons entry entries ih =>
      rw [List.filterMap_cons]
      cases f entry.2 with
      | none => exact ih.cons _
      | some w => exact ih.cons_cons _
  ext w
  rw [lookup_collect_of_nodup hkeys, Option.bind_eq_some_iff, List.mem_filterMap]
  constructor
  · rintro ⟨entry, hmem, hentry⟩
    obtain ⟨w', hw', heq⟩ := Option.map_eq_some_iff.mp hentry
    cases heq
    exact ⟨entry.2, AList.mem_lookup_iff.mpr hmem, hw'⟩
  · rintro ⟨v, hv, hw⟩
    exact ⟨⟨k, v⟩, AList.mem_lookup_iff.mp hv, by rw [hw]; rfl⟩

end AssocMap

end Lib

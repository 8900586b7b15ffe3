import Mathlib.Algebra.GroupWithZero.Nat
import GemCore.Lib.AssocMap
import Mathlib.Algebra.BigOperators.Group.Finset.Piecewise
import Mathlib.Algebra.Order.BigOperators.Group.List
import Mathlib.Algebra.Order.Group.Nat

/-!
# Tallies

What the entries of a list of pairs add up to, for one key and for all of them. A key may have several
entries; a map keeps one of them, so that what it holds for a key is at most its tally.

## Main definitions

* `tally`, `tallyTotal` — the sum of the values of a key, and of all values.

## Main results

* `tallyTotal_eq_sum` — the sum of all values is that of the tallies.
* `tallyTotal_add_pair` — lists that differ at two keys.
* `tally_entries`, `lookup_collect_le_tally` — the tally of a map, and a list made a map.
-/

namespace Lib

variable {κ ν : Type} [DecidableEq κ]

/-- The sum of the values of a key. -/
def tally (pairs : List (κ × ℕ)) (k : κ) : ℕ := ((pairs.filter fun pair => pair.1 = k).map Prod.snd).sum

/-- The sum of all values. -/
def tallyTotal (pairs : List (κ × ℕ)) : ℕ := (pairs.map Prod.snd).sum

@[simp] lemma tally_nil (k : κ) : tally [] k = 0 := rfl

lemma tally_cons (pair : κ × ℕ) (pairs : List (κ × ℕ)) (k : κ) :
    tally (pair :: pairs) k = (if pair.1 = k then pair.2 else 0) + tally pairs k := by
  by_cases h : pair.1 = k
  · simp [tally, h]
  · simp [tally, h]

omit [DecidableEq κ] in
lemma tallyTotal_cons (pair : κ × ℕ) (pairs : List (κ × ℕ)) :
    tallyTotal (pair :: pairs) = pair.2 + tallyTotal pairs := by
  simp [tallyTotal]

/-- The order of the entries does not matter. -/
lemma tally_perm {pairs pairs' : List (κ × ℕ)} (h : pairs.Perm pairs') : tally pairs = tally pairs' := by
  funext k
  exact ((h.filter _).map _).sum_eq

/-- Entries without a value do not count. -/
lemma tally_filter_pos (pairs : List (κ × ℕ)) (k : κ) :
    tally (pairs.filter fun pair => 0 < pair.2) k = tally pairs k := by
  induction pairs with
  | nil => rfl
  | cons pair pairs ih =>
    rw [List.filter_cons, tally_cons]
    split_ifs with hpos hk hk
    · rw [tally_cons, if_pos hk, ih]
    · rw [tally_cons, if_neg hk, ih]
    · rw [ih]
      simp only [decide_eq_true_eq] at hpos
      omega
    · rw [ih]
      omega

/-- A value is at most the tally of its key. -/
lemma le_tally {pairs : List (κ × ℕ)} {pair : κ × ℕ} (h : pair ∈ pairs) :
    pair.2 ≤ tally pairs pair.1 :=
  List.le_sum_of_mem
    (List.mem_map_of_mem (List.mem_filter.mpr ⟨h, decide_eq_true rfl⟩))

/-- A key without entries has no tally. -/
lemma tally_eq_zero {pairs : List (κ × ℕ)} {k : κ} (h : k ∉ pairs.map Prod.fst) :
    tally pairs k = 0 := by
  have hfilter : (pairs.filter fun pair => pair.1 = k) = [] := by
    rw [List.filter_eq_nil_iff]
    intro pair hmem hk
    exact h (of_decide_eq_true hk ▸ List.mem_map_of_mem hmem)
  rw [tally, hfilter]
  rfl

/-- **The sum of all values is that of the tallies.** -/
theorem tallyTotal_eq_sum {pairs : List (κ × ℕ)} {s : Finset κ} (h : ∀ pair ∈ pairs, pair.1 ∈ s) :
    tallyTotal pairs = ∑ k ∈ s, tally pairs k := by
  induction pairs with
  | nil => simp [tallyTotal]
  | cons pair pairs ih =>
    obtain ⟨hpair, hpairs⟩ := List.forall_mem_cons.mp h
    simp only [tally_cons, Finset.sum_add_distrib, Finset.sum_ite_eq, if_pos hpair]
    rw [tallyTotal_cons, ih hpairs]

/-- The keys of two lists. -/
def tallyKeys (pairs pairs' : List (κ × ℕ)) : Finset κ := ((pairs ++ pairs').map Prod.fst).toFinset

lemma mem_tallyKeys_left {pairs : List (κ × ℕ)} (pairs' : List (κ × ℕ)) :
    ∀ pair ∈ pairs, pair.1 ∈ tallyKeys pairs pairs' := fun _ h =>
  List.mem_toFinset.mpr (List.mem_map_of_mem (List.mem_append_left _ h))

lemma mem_tallyKeys_right (pairs : List (κ × ℕ)) {pairs' : List (κ × ℕ)} :
    ∀ pair ∈ pairs', pair.1 ∈ tallyKeys pairs pairs' := fun _ h =>
  List.mem_toFinset.mpr (List.mem_map_of_mem (List.mem_append_right _ h))

/-- Lists that differ at one key differ there by as much as in total. -/
lemma tallyTotal_add {pairs pairs' : List (κ × ℕ)} {a : κ}
    (h : ∀ k, k ≠ a → tally pairs k = tally pairs' k) :
    tallyTotal pairs + tally pairs' a = tallyTotal pairs' + tally pairs a := by
  set s := insert a (tallyKeys pairs pairs') with hs
  have ha : a ∈ s := Finset.mem_insert_self _ _
  have hleft : tallyTotal pairs = ∑ k ∈ s, tally pairs k :=
    tallyTotal_eq_sum fun pair hp => Finset.mem_insert_of_mem (mem_tallyKeys_left _ pair hp)
  have hright : tallyTotal pairs' = ∑ k ∈ s, tally pairs' k :=
    tallyTotal_eq_sum fun pair hp => Finset.mem_insert_of_mem (mem_tallyKeys_right _ pair hp)
  have hrest : ∑ k ∈ s.erase a, tally pairs k = ∑ k ∈ s.erase a, tally pairs' k :=
    Finset.sum_congr rfl fun k hk => h k (Finset.ne_of_mem_erase hk)
  rw [hleft, hright, ← Finset.add_sum_erase s _ ha, ← Finset.add_sum_erase s _ ha, hrest]
  omega

/-- **Lists that differ at two keys** differ there by as much as in total. -/
theorem tallyTotal_add_pair {pairs pairs' : List (κ × ℕ)} {a b : κ} (hab : a ≠ b)
    (h : ∀ k, k ≠ a → k ≠ b → tally pairs k = tally pairs' k) :
    tallyTotal pairs + (tally pairs' a + tally pairs' b) =
      tallyTotal pairs' + (tally pairs a + tally pairs b) := by
  set s := insert a (insert b (tallyKeys pairs pairs')) with hs
  have ha : a ∈ s := Finset.mem_insert_self _ _
  have hb : b ∈ s.erase a :=
    Finset.mem_erase.mpr ⟨hab.symm, Finset.mem_insert_of_mem (Finset.mem_insert_self _ _)⟩
  have hmem : ∀ k ∈ tallyKeys pairs pairs', k ∈ s := fun k hk =>
    Finset.mem_insert_of_mem (Finset.mem_insert_of_mem hk)
  have hleft : tallyTotal pairs = ∑ k ∈ s, tally pairs k :=
    tallyTotal_eq_sum fun pair hp => hmem _ (mem_tallyKeys_left _ pair hp)
  have hright : tallyTotal pairs' = ∑ k ∈ s, tally pairs' k :=
    tallyTotal_eq_sum fun pair hp => hmem _ (mem_tallyKeys_right _ pair hp)
  have hrest : ∑ k ∈ (s.erase a).erase b, tally pairs k =
      ∑ k ∈ (s.erase a).erase b, tally pairs' k :=
    Finset.sum_congr rfl fun k hk =>
      h k (Finset.ne_of_mem_erase (Finset.mem_of_mem_erase hk)) (Finset.ne_of_mem_erase hk)
  rw [hleft, hright, ← Finset.add_sum_erase s _ ha, ← Finset.add_sum_erase s _ ha,
    ← Finset.add_sum_erase _ _ hb, ← Finset.add_sum_erase _ _ hb, hrest]
  omega

/-! ## Maps -/

/-- What a map holds for a key, as a number. -/
def valueOf (value : ν → ℕ) (m : AssocMap κ ν) (k : κ) : ℕ := ((AList.lookup k m).map value).getD 0

/-- The tally of a map. -/
lemma tally_entries (value : ν → ℕ) (m : AssocMap κ ν) (k : κ) :
    tally (m.entries.map fun entry => (entry.1, value entry.2)) k = valueOf value m k := by
  have hnodup := m.nodupKeys
  rw [valueOf, AList.lookup]
  generalize m.entries = entries at hnodup
  induction entries with
  | nil => rfl
  | cons entry entries ih =>
    obtain ⟨hnotMem, hrest⟩ := List.nodupKeys_cons.mp hnodup
    rw [List.map_cons, tally_cons]
    by_cases hk : entry.1 = k
    · subst hk
      have hzero : tally (entries.map fun entry => (entry.1, value entry.2)) entry.1 = 0 := by
        refine tally_eq_zero fun h => hnotMem ?_
        rw [List.map_map] at h
        exact h
      rw [if_pos rfl, hzero, List.dlookup_cons_eq]
      rfl
    · rw [if_neg hk, Nat.zero_add, ih hrest, List.dlookup_cons_ne _ _ (Ne.symm hk)]

/-- **A list made a map** holds at most the tally. -/
theorem valueOf_collect_le_tally (value : ν → ℕ) (pairs : List (κ × ν)) (k : κ) :
    valueOf value (AssocMap.collect pairs) k ≤
      tally (pairs.map fun pair => (pair.1, value pair.2)) k := by
  rw [valueOf]
  rcases h : AList.lookup k (AssocMap.collect pairs) with _ | v
  · exact Nat.zero_le _
  · exact le_tally (List.mem_map_of_mem (f := fun pair : κ × ν => (pair.1, value pair.2))
      (AssocMap.mem_of_lookup_collect h))

end Lib

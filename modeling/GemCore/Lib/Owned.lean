import Mathlib.Data.List.Nodup
import Mathlib.Data.List.Perm.Basic

/-!
# Owned values

A store from which a value is taken by its key, and into which one is put under a fresh key, as the
store of a linear program. What such a store holds is listed, in any order, and each operation changes
one entry of the list.

## Main definitions

* `Owns` — the store holds exactly these values.
* `storeOf` — a store with these values.

## Main results

* `Owns.take`, `Owns.put`, `Owns.set` — the operations.
* `owns_storeOf` — the values of a list with distinct keys.
-/

namespace Lib

variable {K V : Type}

/-- **The store holds exactly these values.** -/
structure Owns (live : List (K × V)) (store : K → Option V) : Prop where
  nodup : (live.map Prod.fst).Nodup
  mem_iff : ∀ key value, store key = some value ↔ (key, value) ∈ live

namespace Owns

variable {live rest : List (K × V)} {store : K → Option V} {key : K} {value : V}

/-- The order of the list does not matter. -/
lemma perm (h : Owns live store) {live' : List (K × V)} (hperm : live.Perm live') :
    Owns live' store where
  nodup := (hperm.map Prod.fst).nodup_iff.mp h.nodup
  mem_iff key value := (h.mem_iff key value).trans hperm.mem_iff

lemma get (h : Owns ((key, value) :: rest) store) : store key = some value :=
  (h.mem_iff key value).mpr List.mem_cons_self

/-- A key that is not listed has no value. -/
lemma get_none (h : Owns live store) (hkey : key ∉ live.map Prod.fst) : store key = none := by
  cases hget : store key with
  | none => rfl
  | some value =>
    exact absurd (List.mem_map_of_mem ((h.mem_iff key value).mp hget)) hkey

variable [DecidableEq K]

/-- **A value is taken.** -/
theorem take (h : Owns ((key, value) :: rest) store) :
    Owns rest (Function.update store key none) := by
  obtain ⟨hnot, hnodup⟩ := List.nodup_cons.mp h.nodup
  refine ⟨hnodup, fun key' value' => ?_⟩
  by_cases hkey : key' = key
  · rw [hkey, Function.update_self]
    constructor
    · intro habsurd
      cases habsurd
    · intro hmem
      exact absurd (List.mem_map_of_mem hmem) hnot
  · rw [Function.update_of_ne hkey, h.mem_iff, List.mem_cons]
    constructor
    · rintro (heq | hmem)
      · exact absurd (congrArg Prod.fst heq) hkey
      · exact hmem
    · exact .inr

/-- **A value is put under a fresh key.** -/
theorem put (h : Owns live store) (hkey : key ∉ live.map Prod.fst) (value : V) :
    Owns ((key, value) :: live) (Function.update store key (some value)) := by
  refine ⟨List.nodup_cons.mpr ⟨hkey, h.nodup⟩, fun key' value' => ?_⟩
  rw [List.mem_cons]
  by_cases heq : key' = key
  · rw [heq, Function.update_self]
    constructor
    · intro hvalue
      exact .inl (Prod.ext rfl (Option.some.inj hvalue).symm)
    · rintro (hvalue | hmem)
      · rw [(Prod.mk.inj hvalue).2]
      · exact absurd (List.mem_map_of_mem hmem) hkey
  · rw [Function.update_of_ne heq, h.mem_iff]
    constructor
    · exact .inr
    · rintro (hvalue | hmem)
      · exact absurd (congrArg Prod.fst hvalue) heq
      · exact hmem

/-- A value is replaced. -/
lemma set (h : Owns ((key, value) :: rest) store) (value' : V) :
    Owns ((key, value') :: rest) (Function.update store key (some value')) := by
  have hnot := (List.nodup_cons.mp h.nodup).1
  have hput := h.take.put hnot value'
  rwa [Function.update_idem] at hput

end Owns

variable [DecidableEq K]

/-- A store with these values. -/
def storeOf (live : List (K × V)) (key : K) : Option V :=
  (live.find? fun entry => entry.1 = key).map Prod.snd

/-- The values of a list with distinct keys. -/
lemma owns_storeOf {live : List (K × V)} (h : (live.map Prod.fst).Nodup) :
    Owns live (storeOf live) := by
  refine ⟨h, fun key value => ?_⟩
  rw [storeOf]
  induction live with
  | nil =>
    constructor
    · intro habsurd
      cases habsurd
    · intro habsurd
      cases habsurd
  | cons entry live ih =>
    obtain ⟨hnot, hnodup⟩ := List.nodup_cons.mp h
    rw [List.find?_cons, List.mem_cons]
    by_cases hkey : entry.1 = key
    · rw [decide_eq_true hkey]
      constructor
      · intro hvalue
        exact .inl (Prod.ext hkey.symm (Option.some.inj hvalue).symm)
      · rintro (heq | hmem)
        · rw [← heq]
          rfl
        · exact absurd (hkey ▸ List.mem_map_of_mem hmem) hnot
    · rw [decide_eq_false hkey]
      refine (ih hnodup).trans ⟨.inr, ?_⟩
      rintro (heq | hmem)
      · exact absurd (congrArg Prod.fst heq).symm hkey
      · exact hmem

end Lib

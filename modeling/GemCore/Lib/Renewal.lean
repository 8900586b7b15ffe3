import GemCore.Lib.AssocMap
import Mathlib.Data.List.Chain

/-!
# Stores with one deadline

A store whose entries share one deadline, which every write moves: an entry stands as long as no time
passes between two writes, or after the last one, that is as long as the lifetime. The writes are kept
as a log with their times, the oldest first.

## Main definitions

* `Log` — writes with their times.
* `valueAt` — the value of a key at a time.
* `Stands` — the value that was written last stands.

## Main results

* `valueAt_concat` — one more write.
* `valueAt_eq_some_iff` — the value of a key is the one that stands.
-/

namespace Lib.Renewal

variable {κ ν : Type} [DecidableEq κ]

/-- Writes of entries with their times, the oldest first. -/
abbrev Log (κ ν : Type) : Type := List (ℕ × List (κ × ν))

/-- One write: what is past its deadline is dropped before. -/
def renew (ttl : ℕ) (store : Option (ℕ × AssocMap κ ν)) (write : ℕ × List (κ × ν)) :
    Option (ℕ × AssocMap κ ν) :=
  match store with
  | some (last, entries) =>
    some (write.1, AssocMap.insertAll (if write.1 < last + ttl then entries else ∅) write.2)
  | none => some (write.1, AssocMap.insertAll ∅ write.2)

/-- The value of a key in a store at a time. -/
def lookupAt (ttl : ℕ) (store : Option (ℕ × AssocMap κ ν)) (now : ℕ) (k : κ) : Option ν :=
  match store with
  | some (last, entries) => if now < last + ttl then AList.lookup k entries else none
  | none => none

/-- **The value of a key at a time** after the writes of a log. -/
def valueAt (ttl : ℕ) (log : Log κ ν) (now : ℕ) (k : κ) : Option ν :=
  lookupAt ttl (log.foldl (renew ttl) none) now k

/-- **A value stands**: it was written last for its key, and from then on no time as long as the
lifetime passed without a write. -/
def Stands (ttl : ℕ) (log : Log κ ν) (now : ℕ) (k : κ) (v : ν) : Prop :=
  ∃ before time entries after, log = before ++ (time, entries) :: after ∧
    AList.lookup k (AssocMap.collect entries) = some v ∧
    (∀ write ∈ after, k ∉ write.2.map Prod.fst) ∧
    List.IsChain (fun a b => b < a + ttl) (time :: (after.map Prod.fst ++ [now]))

variable {ttl : ℕ} {log : Log κ ν} {now : ℕ} {k : κ} {v : ν}

/-- **One more write**: its entries come first, and the others if they were there at its time. -/
theorem valueAt_concat (write : ℕ × List (κ × ν)) :
    valueAt ttl (log ++ [write]) now k =
      if now < write.1 + ttl then
        (AList.lookup k (AssocMap.collect write.2)).or (valueAt ttl log write.1 k)
      else none := by
  rw [valueAt, valueAt, List.foldl_append, List.foldl_cons, List.foldl_nil]
  rcases log.foldl (renew ttl) none with _ | ⟨last, entries⟩
  · simp only [renew, lookupAt, AssocMap.lookup_insertAll, AList.lookup_empty]
  · simp only [renew, lookupAt, AssocMap.lookup_insertAll]
    split_ifs
    · rfl
    · rw [AList.lookup_empty]
    · rfl

/-- What stands after one more write: a value of it, or one that stood at its time. -/
theorem stands_concat (write : ℕ × List (κ × ν)) :
    Stands ttl (log ++ [write]) now k v ↔ now < write.1 + ttl ∧
      (AList.lookup k (AssocMap.collect write.2) = some v ∨
        k ∉ write.2.map Prod.fst ∧ Stands ttl log write.1 k v) := by
  constructor
  · rintro ⟨before, time, entries, after, hlog, hvalue, hafter, hchain⟩
    rcases List.eq_nil_or_concat after with rfl | ⟨after', last, rfl⟩
    · have hwrite := List.append_inj_right' hlog rfl
      obtain rfl := List.singleton_inj.mp hwrite
      exact ⟨(List.isChain_cons_cons.mp hchain).1, Or.inl hvalue⟩
    · rw [List.concat_eq_append, ← List.cons_append, ← List.append_assoc] at hlog
      have hwrite := List.append_inj_right' hlog rfl
      replace hlog := List.append_inj_left' hlog rfl
      obtain rfl := List.singleton_inj.mp hwrite
      rw [List.concat_eq_append] at hafter hchain
      rw [List.map_append, List.append_assoc, ← List.cons_append, List.map_singleton,
        List.singleton_append, List.isChain_append_cons_cons] at hchain
      refine ⟨hchain.2.1, Or.inr ⟨hafter write (by simp), before, time, entries, after', hlog,
        hvalue, fun w hw => hafter w (List.mem_append_left _ hw), hchain.1⟩⟩
  · rintro ⟨hnow, hvalue | ⟨hnot, before, time, entries, after, rfl, hvalue, hafter, hchain⟩⟩
    · exact ⟨log, write.1, write.2, [], rfl, hvalue, nofun, List.isChain_pair.mpr hnow⟩
    · refine ⟨before, time, entries, after ++ [write], by simp, hvalue, ?_, ?_⟩
      · intro w hw
        rcases List.mem_append.mp hw with hw | hw
        · exact hafter w hw
        · exact List.mem_singleton.mp hw ▸ hnot
      · rw [List.map_append, List.append_assoc, ← List.cons_append, List.map_singleton,
          List.singleton_append, List.isChain_append_cons_cons]
        exact ⟨hchain, hnow, List.isChain_singleton _⟩

/-- **The value of a key is the one that stands.**

**Proof sketch.** Induction on the log from its end: both sides of the equivalence follow the last
write. -/
theorem valueAt_eq_some_iff : valueAt ttl log now k = some v ↔ Stands ttl log now k v := by
  induction log using List.reverseRecOn generalizing now with
  | nil =>
    refine ⟨nofun, ?_⟩
    rintro ⟨before, time, entries, after, hlog, -⟩
    cases before <;> cases hlog
  | append_singleton log write ih =>
    rw [valueAt_concat, stands_concat, ← ih]
    rcases h : AList.lookup k (AssocMap.collect write.2) with _ | w
    · have hnot : k ∉ write.2.map Prod.fst := by
        rw [← AssocMap.lookup_collect_isSome, h]
        exact Bool.false_ne_true
      simp [hnot]
    · have hmem : k ∈ write.2.map Prod.fst := by
        rw [← AssocMap.lookup_collect_isSome, h]
        rfl
      simp [hmem]

end Lib.Renewal

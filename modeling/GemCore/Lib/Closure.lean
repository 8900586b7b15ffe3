import Mathlib.Data.Finset.Card
import Mathlib.Data.List.Sort

/-!
# The nodes that are reached in a graph

A depth-first walk that collects, in order and without repetition, the nodes that are reached
from a node. The graph may be cyclic: a node that was collected is not entered again. Nodes
without an entry in the graph are left out.

## Main definitions

* `collect` — the walk.
* `Step` — an edge between two nodes of the graph.

## Main results

* `collect_spec` — what a call of the walk adds.
* `mem_collect_iff` — the walk from a node collects what is reached from it.
* `collect_sorted`, `collect_nodup` — in order, each node once.
-/

namespace Lib

variable {K : Type} [LinearOrder K]

/-- The nodes collected so far, then those reached from `k` that are not among them. -/
def collect (next : K → Option (List K)) : ℕ → K → List K → List K
  | 0, _, seen => seen
  | fuel + 1, k, seen =>
    if k ∈ seen then seen
    else
      match next k with
      | none => seen
      | some ks => ks.foldl (fun acc k' => collect next fuel k' acc) (seen.orderedInsert (· ≤ ·) k)

/-- An edge from a node to a node that has an entry in the graph. -/
def Step (next : K → Option (List K)) (a b : K) : Prop :=
  (∃ ks, next a = some ks ∧ b ∈ ks) ∧ (next b).isSome

/-- What a walk from the nodes in `starts` adds to `seen`. -/
structure Collects (next : K → Option (List K)) (starts : Set K) (seen result : List K) :
    Prop where
  grows : ∀ x ∈ seen, x ∈ result
  reached : ∀ x ∈ result, x ∈ seen ∨
    ∃ k ∈ starts, (next k).isSome ∧ Relation.ReflTransGen (Step next) k x
  starts_mem : ∀ k ∈ starts, (next k).isSome → k ∈ result
  closed : ∀ x ∈ result, x ∉ seen → ∀ y, Step next x y → y ∈ result
  sorted : seen.Pairwise (· ≤ ·) → result.Pairwise (· ≤ ·)
  nodup : seen.Nodup → result.Nodup

variable {next : K → Option (List K)}

/-- A walk from nowhere adds nothing. -/
lemma Collects.refl {starts : Set K} {seen : List K}
    (h : ∀ k ∈ starts, (next k).isSome → k ∈ seen) : Collects next starts seen seen where
  grows _ hx := hx
  reached _ hx := .inl hx
  starts_mem := h
  closed _ hx hnew := absurd hx hnew
  sorted hs := hs
  nodup hs := hs

/-- One walk after another. -/
lemma Collects.trans {starts starts' : Set K} {a b c : List K}
    (h : Collects next starts a b) (h' : Collects next starts' b c) :
    Collects next (starts ∪ starts') a c where
  grows x hx := h'.grows x (h.grows x hx)
  reached x hx := by
    rcases h'.reached x hx with hx | ⟨k, hk, hsome, hreach⟩
    · rcases h.reached x hx with hx | ⟨k, hk, hsome, hreach⟩
      · exact .inl hx
      · exact .inr ⟨k, .inl hk, hsome, hreach⟩
    · exact .inr ⟨k, .inr hk, hsome, hreach⟩
  starts_mem k hk hsome := by
    rcases hk with hk | hk
    · exact h'.grows k (h.starts_mem k hk hsome)
    · exact h'.starts_mem k hk hsome
  closed x hx hnew y hy := by
    by_cases hxb : x ∈ b
    · exact h'.grows y (h.closed x hxb hnew y hy)
    · exact h'.closed x hx hxb y hy
  sorted hs := h'.sorted (h.sorted hs)
  nodup hs := h'.nodup (h.nodup hs)

/-- The nodes that have an entry and are not collected yet. -/
def unseen (nodes : Finset K) (seen : List K) : Finset K := nodes.filter (· ∉ seen)

lemma card_unseen_mono {nodes : Finset K} {seen seen' : List K} (h : ∀ x ∈ seen, x ∈ seen') :
    (unseen nodes seen').card ≤ (unseen nodes seen).card := by
  apply Finset.card_le_card
  intro x hx
  simp only [unseen, Finset.mem_filter] at hx ⊢
  exact ⟨hx.1, fun hs => hx.2 (h x hs)⟩

lemma card_unseen_insert_lt {nodes : Finset K} {seen : List K} {k : K} (hk : k ∈ nodes)
    (hnew : k ∉ seen) :
    (unseen nodes (seen.orderedInsert (· ≤ ·) k)).card < (unseen nodes seen).card := by
  apply Finset.card_lt_card
  rw [Finset.ssubset_iff_of_subset]
  · exact ⟨k, by simp [unseen, hk, hnew], by simp [unseen]⟩
  · intro x hx
    simp only [unseen, Finset.mem_filter, List.mem_orderedInsert] at hx ⊢
    exact ⟨hx.1, fun hs => hx.2 (.inr hs)⟩

/-- Walks from the nodes of a list, one after the other. -/
lemma foldl_collects {nodes : Finset K} {walk : K → List K → List K} {bound : ℕ}
    (hwalk : ∀ k seen, (unseen nodes seen).card < bound → Collects next {k} seen (walk k seen)) :
    ∀ (ks : List K) (seen : List K), (unseen nodes seen).card < bound →
      Collects next {k | k ∈ ks} seen (ks.foldl (fun acc k => walk k acc) seen) := by
  intro ks
  induction ks with
  | nil =>
    intro seen _
    exact Collects.refl (by simp)
  | cons k ks ih =>
    intro seen hbound
    have hfirst := hwalk k seen hbound
    have hrest := ih (walk k seen) ((card_unseen_mono hfirst.grows).trans_lt hbound)
    have hstarts : {j | j ∈ k :: ks} = {k} ∪ {j | j ∈ ks} := by
      ext j
      simp
    rw [hstarts]
    exact hfirst.trans hrest

/-- **A call of the walk**, with more rounds than there are nodes left, adds what is reached
from its node.

**Proof sketch.** Induction on the rounds. A node that has an entry and is new is inserted, and
there is one node less to come; the walks from its successors then see every edge out of it. -/
theorem collect_spec {nodes : Finset K} (hnodes : ∀ k, (next k).isSome → k ∈ nodes) :
    ∀ (fuel : ℕ) (k : K) (seen : List K), (unseen nodes seen).card < fuel →
      Collects next {k} seen (collect next fuel k seen) := by
  intro fuel
  induction fuel with
  | zero =>
    intro k seen h
    omega
  | succ fuel ih =>
    intro k seen hfuel
    unfold collect
    split_ifs with hk
    · exact Collects.refl (by simpa using fun _ => hk)
    · cases hnext : next k with
      | none => exact Collects.refl (by simp [hnext])
      | some ks =>
        have hsome : (next k).isSome := by simp [hnext]
        have hlt := card_unseen_insert_lt (hnodes k hsome) hk
        have hrest : Collects next {j | j ∈ ks} (seen.orderedInsert (· ≤ ·) k) _ :=
          foldl_collects ih ks (seen.orderedInsert (· ≤ ·) k) (by omega)
        have hinserted : k ∈ seen.orderedInsert (· ≤ ·) k := by simp
        refine ⟨?_, ?_, ?_, ?_, ?_, ?_⟩
        · intro x hx
          exact hrest.grows x (by simp [hx])
        · intro x hx
          rcases hrest.reached x hx with hx | ⟨j, hj, hjsome, hreach⟩
          · rcases (List.mem_orderedInsert _).mp hx with rfl | hx
            · exact .inr ⟨x, rfl, hsome, .refl⟩
            · exact .inl hx
          · exact .inr ⟨k, rfl, hsome, .head ⟨⟨ks, hnext, hj⟩, hjsome⟩ hreach⟩
        · intro j hj _
          rw [Set.mem_singleton_iff.mp hj]
          exact hrest.grows k hinserted
        · intro x hx hnew y hy
          by_cases hxk : x = k
          · subst hxk
            obtain ⟨⟨ks', hks', hy'⟩, hysome⟩ := hy
            obtain rfl : ks = ks' := Option.some.inj (hnext.symm.trans hks')
            exact hrest.starts_mem y hy' hysome
          · exact hrest.closed x hx (by simp [hxk, hnew]) y hy
        · intro hs
          exact hrest.sorted (hs.orderedInsert k seen)
        · intro hs
          apply hrest.nodup
          rw [(List.perm_orderedInsert _ k seen).nodup_iff]
          exact List.nodup_cons.mpr ⟨hk, hs⟩

section Start

variable {nodes : Finset K} (hnodes : ∀ k, (next k).isSome → k ∈ nodes) {fuel : ℕ}
  (hfuel : nodes.card < fuel)

include hnodes hfuel

lemma collect_collects (k : K) : Collects next {k} [] (collect next fuel k []) := by
  refine collect_spec hnodes fuel k [] (lt_of_le_of_lt ?_ hfuel)
  exact Finset.card_le_card (Finset.filter_subset _ _)

/-- **The walk from a node** collects the nodes that are reached from it. -/
theorem mem_collect_iff {k x : K} (hk : (next k).isSome) :
    x ∈ collect next fuel k [] ↔ Relation.ReflTransGen (Step next) k x := by
  have h := collect_collects hnodes hfuel k
  constructor
  · intro hx
    rcases h.reached x hx with hx | ⟨j, rfl, -, hreach⟩
    · cases hx
    · exact hreach
  · intro hreach
    induction hreach with
    | refl => exact h.starts_mem k rfl hk
    | tail _ hstep ih => exact h.closed _ ih List.not_mem_nil _ hstep

lemma collect_sorted (k : K) : (collect next fuel k []).Pairwise (· ≤ ·) :=
  (collect_collects hnodes hfuel k).sorted List.Pairwise.nil

lemma collect_nodup (k : K) : (collect next fuel k []).Nodup :=
  (collect_collects hnodes hfuel k).nodup List.nodup_nil

end Start

end Lib

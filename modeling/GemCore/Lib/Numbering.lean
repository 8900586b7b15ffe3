import Mathlib.Data.Set.Function
import Mathlib.Tactic.Common

/-!
# Repairing a numbering of a graph

The nodes of a finite acyclic graph carry distinct numbers. A pass visits every node and gives
a fresh number to each successor whose number is smaller; passes are repeated until one changes
nothing. Every edge then leads to a larger number, and the number of passes is bounded by the
length of the longest path.

## Main definitions

* `Numbering` — the numbers and the next fresh one.
* `Numbering.pass`, `Numbering.repair` — one pass, and passes until nothing changes.
* `Numbering.Valid` — the numbers in use are distinct and the next one is fresh.
* `Numbering.Settled` — the edges into nodes of small rank lead to larger numbers.

## Main results

* `Numbering.pass_settled` — a pass settles the edges into the nodes of one more rank.
* `Numbering.repair_terminates` — as many passes as there are ranks, and one, are enough.
* `Numbering.repair_forward` — after the repair every edge leads to a larger number.
-/

namespace Lib

/-- Numbers for the nodes, and the next fresh number. -/
structure Numbering (K : Type) where
  index : K → ℕ
  next : ℕ

namespace Numbering

variable {K : Type} [DecidableEq K]

/-- Give a node the next fresh number. -/
def renew (n : Numbering K) (k : K) : Numbering K :=
  ⟨Function.update n.index k n.next, n.next + 1⟩

/-- Renew a node whose number is below `bound`, and record that something changed. -/
def bump (bound : ℕ) (s : Numbering K × Bool) (k : K) : Numbering K × Bool :=
  if s.1.index k < bound then (s.1.renew k, true) else s

/-- Visit a node: its successors get numbers above its own, read once. -/
def visit (edges : K → List K) (s : Numbering K × Bool) (k : K) : Numbering K × Bool :=
  (edges k).foldl (bump (s.1.index k)) s

/-- Visit every node once. -/
def pass (edges : K → List K) (keys : List K) (n : Numbering K) : Numbering K × Bool :=
  keys.foldl (visit edges) (n, false)

/-- Passes until one changes nothing, at most `fuel` of them. -/
def repair (edges : K → List K) (keys : List K) : ℕ → Numbering K → Option (Numbering K)
  | 0, _ => none
  | fuel + 1, n =>
    let (n', changed) := pass edges keys n
    if changed then repair edges keys fuel n' else some n'

/-! ## What a bump does -/

lemma index_bump_le (bound : ℕ) (s : Numbering K × Bool) (k j : K)
    (h : s.1.index k < s.1.next) : s.1.index j ≤ (bump bound s k).1.index j := by
  unfold bump
  split_ifs with hlt
  · by_cases hj : j = k
    · subst hj
      simp only [renew, Function.update_self]
      omega
    · simp [renew, Function.update_of_ne hj]
  · exact le_rfl

lemma next_bump_le (bound : ℕ) (s : Numbering K × Bool) (k : K) :
    s.1.next ≤ (bump bound s k).1.next := by
  unfold bump
  split_ifs
  · simp [renew]
  · exact le_rfl

/-- A bump changes the number of its own node only. -/
lemma index_bump_of_ne {bound : ℕ} {s : Numbering K × Bool} {k j : K} (h : j ≠ k) :
    (bump bound s k).1.index j = s.1.index j := by
  unfold bump
  split_ifs
  · simp [renew, Function.update_of_ne h]
  · rfl

/-- A node above the bound keeps its number. -/
lemma bump_of_le {bound : ℕ} {s : Numbering K × Bool} {k : K} (h : bound ≤ s.1.index k) :
    bump bound s k = s := if_neg (by omega)

/-! ## Valid numberings -/

/-- The numbers of the nodes in `nodes` are distinct and below the next fresh number. -/
structure Valid (nodes : Set K) (n : Numbering K) : Prop where
  lt_next : ∀ k ∈ nodes, n.index k < n.next
  injOn : Set.InjOn n.index nodes

variable {nodes : Set K}

omit [DecidableEq K] in
lemma Valid.mono {nodes' : Set K} {n : Numbering K} (h : n.Valid nodes)
    (hsub : nodes' ⊆ nodes) : n.Valid nodes' :=
  ⟨fun k hk => h.lt_next k (hsub hk), h.injOn.mono hsub⟩

/-- A node may join when it gets the next fresh number. -/
lemma Valid.renew_insert {n : Numbering K} (h : n.Valid nodes) (k : K) :
    (n.renew k).Valid (insert k nodes) := by
  have hindex : ∀ j, (n.renew k).index j = if j = k then n.next else n.index j := by
    intro j
    simp only [Numbering.renew, Function.update_apply]
  have hlt : ∀ j ∈ insert k nodes, j ≠ k → n.index j < n.next := by
    intro j hj hjk
    exact h.lt_next j ((Set.mem_insert_iff.mp hj).resolve_left hjk)
  constructor
  · intro j hj
    change (n.renew k).index j < n.next + 1
    rw [hindex]
    split_ifs with hjk
    · omega
    · have := hlt j hj hjk
      omega
  · intro i hi j hj heq
    rw [hindex, hindex] at heq
    split_ifs at heq with hik hjk hjk
    · rw [hik, hjk]
    · have := hlt j hj hjk
      omega
    · have := hlt i hi hik
      omega
    · exact h.injOn ((Set.mem_insert_iff.mp hi).resolve_left hik)
        ((Set.mem_insert_iff.mp hj).resolve_left hjk) heq

lemma Valid.renew {n : Numbering K} (h : n.Valid nodes) (k : K) :
    (n.renew k).Valid nodes :=
  (h.renew_insert k).mono (Set.subset_insert k nodes)

lemma Valid.bump {bound : ℕ} {s : Numbering K × Bool} (h : s.1.Valid nodes) (k : K) :
    (bump bound s k).1.Valid nodes := by
  unfold Numbering.bump
  split_ifs
  · exact h.renew k
  · exact h

/-! ## Ranked graphs -/

section Ranked

variable {edges : K → List K} {rank : K → ℕ}

/-- The edges stay among the nodes and lead to nodes of larger rank. -/
structure Ranked (nodes : Set K) (edges : K → List K) (rank : K → ℕ) : Prop where
  mem : ∀ k ∈ nodes, ∀ r ∈ edges k, r ∈ nodes
  rank_lt : ∀ k ∈ nodes, ∀ r ∈ edges k, rank k < rank r

/-- Every edge into a node of rank below `i` leads to a larger number. -/
def Settled (nodes : Set K) (edges : K → List K) (rank : K → ℕ) (i : ℕ) (n : Numbering K) :
    Prop :=
  ∀ k ∈ nodes, ∀ r ∈ edges k, rank r < i → n.index k < n.index r

/-- What a pass that starts from `n` with the ranks below `i` settled keeps: those nodes keep
their numbers, and the edges out of the nodes in `visited` are settled one rank further. -/
structure Progress (nodes : Set K) (edges : K → List K) (rank : K → ℕ) (i : ℕ)
    (n : Numbering K) (visited : Set K) (n' : Numbering K) : Prop where
  valid : n'.Valid nodes
  kept : ∀ k ∈ nodes, rank k < i → n'.index k = n.index k
  settled : ∀ k ∈ nodes, k ∈ visited → ∀ r ∈ edges k, rank r ≤ i → n'.index k < n'.index r

/-- The successors of a node, one by one: each ends with a number no smaller than the bound, and
the progress made so far is kept. -/
theorem foldl_bump_progress (hranked : Ranked nodes edges rank) {i : ℕ} {n : Numbering K}
    (hsettled : Settled nodes edges rank i n) {visited : Set K} {k : K} (hk : k ∈ nodes)
    (bound : ℕ) (hbound : rank k < i → bound = n.index k) :
    ∀ (targets : List K) (s : Numbering K × Bool), (∀ r ∈ targets, r ∈ edges k) →
      bound < s.1.next → Progress nodes edges rank i n visited s.1 →
      Progress nodes edges rank i n visited (targets.foldl (bump bound) s).1 ∧
        (∀ r ∈ targets, bound ≤ (targets.foldl (bump bound) s).1.index r) ∧
        (∀ j ∈ nodes, s.1.index j ≤ (targets.foldl (bump bound) s).1.index j) := by
  intro targets
  induction targets with
  | nil =>
    intro s _ _ hp
    exact ⟨hp, by simp, fun _ _ => le_rfl⟩
  | cons r targets ih =>
    intro s hsub hnext hp
    have hr := hsub r List.mem_cons_self
    have hrn := hranked.mem k hk r hr
    have hlt := hp.valid.lt_next r hrn
    have hstep : Progress nodes edges rank i n visited (bump bound s r).1 := by
      refine ⟨hp.valid.bump r, ?_, ?_⟩
      · intro j hj hji
        by_cases hjr : j = r
        · -- the edge into a settled node is settled, so the node is not bumped
          subst hjr
          have hki : rank k < i := (hranked.rank_lt k hk j hr).trans hji
          have hforward := hsettled k hk j hr hji
          rw [bump_of_le]
          · exact hp.kept j hj hji
          · rw [hbound hki, hp.kept j hj hji]
            exact hforward.le
        · rw [index_bump_of_ne hjr]
          exact hp.kept j hj hji
      · intro j hj hv t ht hti
        have hold := hp.settled j hj hv t ht hti
        have hgrow := index_bump_le bound s r t hlt
        have hji : rank j < i := (hranked.rank_lt j hj t ht).trans_le hti
        by_cases hjr : j = r
        · subst hjr
          have hki : rank k < i := (hranked.rank_lt k hk j hr).trans hji
          have hforward := hsettled k hk j hr hji
          have hsame : bump bound s j = s := by
            apply bump_of_le
            rw [hbound hki, hp.kept j hj hji]
            exact hforward.le
          rwa [hsame]
        · rw [index_bump_of_ne hjr]
          omega
    obtain ⟨hprog, hge, hmono⟩ := ih (bump bound s r)
      (fun t ht => hsub t (List.mem_cons_of_mem _ ht)) (hnext.trans_le (next_bump_le ..)) hstep
    refine ⟨hprog, ?_, ?_⟩
    · intro t ht
      rcases List.mem_cons.mp ht with rfl | ht
      · have hafter : bound ≤ (bump bound s t).1.index t := by
          unfold bump
          split_ifs with hb
          · simp only [renew, Function.update_self]
            omega
          · omega
        exact hafter.trans (hmono t hrn)
      · exact hge t ht
    · intro j hj
      exact (index_bump_le bound s r j hlt).trans (hmono j hj)

/-- **A visit** extends the progress by the visited node. -/
theorem visit_progress (hranked : Ranked nodes edges rank) {i : ℕ} {n : Numbering K}
    (hsettled : Settled nodes edges rank i n) {visited : Set K} {k : K} (hk : k ∈ nodes)
    {s : Numbering K × Bool} (hp : Progress nodes edges rank i n visited s.1) :
    Progress nodes edges rank i n (insert k visited) (visit edges s k).1 := by
  obtain ⟨hprog, hge, -⟩ := foldl_bump_progress hranked hsettled hk (s.1.index k)
    (hp.kept k hk) (edges k) s (fun _ h => h) (hp.valid.lt_next k hk) hp
  refine ⟨hprog.valid, hprog.kept, ?_⟩
  intro j hj hv r hr hri
  rcases Set.mem_insert_iff.mp hv with rfl | hv
  · have hji : rank j < i := (hranked.rank_lt j hj r hr).trans_le hri
    have hsame : (visit edges s j).1.index j = s.1.index j := by
      rw [hp.kept j hj hji]
      exact hprog.kept j hj hji
    have hle : s.1.index j ≤ (visit edges s j).1.index r := hge r hr
    have hne : (visit edges s j).1.index j ≠ (visit edges s j).1.index r := by
      intro heq
      have := hprog.valid.injOn hj (hranked.mem j hj r hr) heq
      have := hranked.rank_lt j hj r hr
      simp_all
    omega
  · exact hprog.settled j hj hv r hr hri

/-- **A pass** settles the edges into the nodes of one more rank. -/
theorem pass_settled (hranked : Ranked nodes edges rank) {keys : List K}
    (hkeys : ∀ k, k ∈ keys ↔ k ∈ nodes) {i : ℕ} {n : Numbering K} (hvalid : n.Valid nodes)
    (hsettled : Settled nodes edges rank i n) :
    (pass edges keys n).1.Valid nodes ∧
      Settled nodes edges rank (i + 1) (pass edges keys n).1 := by
  have hfold : ∀ (rest : List K) (visited : Set K) (s : Numbering K × Bool),
      (∀ k ∈ rest, k ∈ nodes) → Progress nodes edges rank i n visited s.1 →
      Progress nodes edges rank i n (visited ∪ {k | k ∈ rest}) (rest.foldl (visit edges) s).1 := by
    intro rest
    induction rest with
    | nil =>
      intro visited s _ hp
      simpa using hp
    | cons k rest ih =>
      intro visited s hsub hp
      have hnext := ih (insert k visited) (visit edges s k)
        (fun j hj => hsub j (List.mem_cons_of_mem _ hj))
        (visit_progress hranked hsettled (hsub k List.mem_cons_self) hp)
      have hset : visited ∪ {j | j ∈ k :: rest} = insert k visited ∪ {j | j ∈ rest} := by
        ext j
        simp only [Set.mem_union, Set.mem_ofPred_eq, List.mem_cons, Set.mem_insert_iff]
        tauto
      rw [hset]
      exact hnext
  have hstart : Progress nodes edges rank i n ∅ n := ⟨hvalid, fun _ _ _ => rfl, by simp⟩
  have hend := hfold keys ∅ (n, false) (fun k hk => (hkeys k).mp hk) hstart
  refine ⟨hend.valid, ?_⟩
  intro k hk r hr hri
  exact hend.settled k hk (Or.inr ((hkeys k).mpr hk)) r hr (by omega)

end Ranked

/-! ## The end of the repair -/

section Forward

variable {edges : K → List K}

/-- Something that changed stays changed. -/
lemma foldl_bump_changed (bound : ℕ) (targets : List K) (s : Numbering K × Bool)
    (h : s.2 = true) : (targets.foldl (bump bound) s).2 = true := by
  induction targets generalizing s with
  | nil => exact h
  | cons r targets ih =>
    apply ih
    unfold bump
    split_ifs
    · rfl
    · exact h

lemma foldl_visit_changed (keys : List K) (s : Numbering K × Bool) (h : s.2 = true) :
    (keys.foldl (visit edges) s).2 = true := by
  induction keys generalizing s with
  | nil => exact h
  | cons k keys ih => exact ih _ (foldl_bump_changed _ _ s h)

/-- Visiting the successors changes nothing only if all their numbers are large enough. -/
theorem foldl_bump_unchanged (bound : ℕ) (targets : List K) (s : Numbering K × Bool)
    (h : (targets.foldl (bump bound) s).2 = false) :
    targets.foldl (bump bound) s = s ∧ ∀ r ∈ targets, bound ≤ s.1.index r := by
  induction targets generalizing s with
  | nil => simp
  | cons r targets ih =>
    by_cases hlt : s.1.index r < bound
    · have hb : bump bound s r = (s.1.renew r, true) := if_pos hlt
      rw [List.foldl_cons, hb, foldl_bump_changed _ _ _ rfl] at h
      cases h
    · have hb : bump bound s r = s := if_neg hlt
      rw [List.foldl_cons, hb] at h ⊢
      obtain ⟨heq, hge⟩ := ih s h
      refine ⟨heq, ?_⟩
      intro t ht
      rcases List.mem_cons.mp ht with rfl | ht
      · omega
      · exact hge t ht

/-- A pass changes nothing only if every edge leads to a number no smaller. -/
lemma foldl_visit_unchanged (keys : List K) (s : Numbering K × Bool)
    (h : (keys.foldl (visit edges) s).2 = false) :
    keys.foldl (visit edges) s = s ∧
      ∀ k ∈ keys, ∀ r ∈ edges k, s.1.index k ≤ s.1.index r := by
  induction keys generalizing s with
  | nil => simp
  | cons k keys ih =>
    rw [List.foldl_cons] at h ⊢
    have hkept : (visit edges s k).2 = false := by
      by_contra hchanged
      rw [foldl_visit_changed keys _ (by simpa using hchanged)] at h
      cases h
    obtain ⟨heq, hge⟩ := foldl_bump_unchanged _ _ s hkept
    have hvisit : visit edges s k = s := heq
    rw [hvisit] at h ⊢
    obtain ⟨heq', hge'⟩ := ih s h
    refine ⟨heq', ?_⟩
    intro j hj
    rcases List.mem_cons.mp hj with rfl | hj
    · exact hge
    · exact hge' j hj

/-- Every edge leads to a larger number: nothing changes in a pass. -/
lemma pass_unchanged {keys : List K} {n : Numbering K}
    (h : ∀ k ∈ keys, ∀ r ∈ edges k, n.index k ≤ n.index r) :
    pass edges keys n = (n, false) := by
  have hbump : ∀ (bound : ℕ) (targets : List K), (∀ r ∈ targets, bound ≤ n.index r) →
      targets.foldl (bump bound) (n, false) = (n, false) := by
    intro bound targets
    induction targets with
    | nil => simp
    | cons r targets ih =>
      intro hge
      have hb : bump bound (n, false) r = (n, false) := bump_of_le (hge r List.mem_cons_self)
      rw [List.foldl_cons, hb]
      exact ih fun t ht => hge t (List.mem_cons_of_mem _ ht)
  unfold pass
  induction keys with
  | nil => rfl
  | cons k keys ih =>
    have hv : visit edges (n, false) k = (n, false) :=
      hbump (n.index k) (edges k) (h k List.mem_cons_self)
    rw [List.foldl_cons, hv]
    exact ih fun j hj => h j (List.mem_cons_of_mem _ hj)

variable {rank : K → ℕ} {keys : List K}

/-- **Termination**: when all ranks are below `bound` and those below `i` are settled, one pass
more than `bound - i` is enough. -/
theorem repair_terminates (hranked : Ranked nodes edges rank)
    (hkeys : ∀ k, k ∈ keys ↔ k ∈ nodes) {bound : ℕ} (hbound : ∀ k ∈ nodes, rank k < bound) :
    ∀ (fuel i : ℕ) (n : Numbering K), i ≤ bound → bound < fuel + i → n.Valid nodes →
      Settled nodes edges rank i n → ∃ n', repair edges keys fuel n = some n' := by
  intro fuel
  induction fuel with
  | zero =>
    intro i n hi hfuel hvalid hsettled
    omega
  | succ fuel ih =>
    intro i n hi hfuel hvalid hsettled
    obtain ⟨hvalid', hsettled'⟩ := pass_settled hranked hkeys hvalid hsettled
    by_cases hdone : bound ≤ i
    · have hforward : ∀ k ∈ keys, ∀ r ∈ edges k, n.index k ≤ n.index r := by
        intro k hk r hr
        have hkn := (hkeys k).mp hk
        have hri := hbound r (hranked.mem k hkn r hr)
        exact (hsettled k hkn r hr (by omega)).le
      exact ⟨n, by simp [repair, pass_unchanged hforward]⟩
    · obtain ⟨n', hn'⟩ := ih (i + 1) _ (by omega) (by omega) hvalid' hsettled'
      by_cases hchanged : (pass edges keys n).2
      · exact ⟨n', by simp [repair, hchanged, hn']⟩
      · exact ⟨(pass edges keys n).1, by simp [repair, hchanged]⟩

/-- More passes than needed change nothing. -/
lemma repair_mono {fuel fuel' : ℕ} (hle : fuel ≤ fuel') {n n' : Numbering K}
    (h : repair edges keys fuel n = some n') : repair edges keys fuel' n = some n' := by
  induction fuel generalizing fuel' n with
  | zero => cases h
  | succ fuel ih =>
    obtain ⟨fuel', rfl⟩ : ∃ m, fuel' = m + 1 := ⟨fuel' - 1, by omega⟩
    unfold repair at h ⊢
    dsimp only at h ⊢
    split_ifs at h ⊢
    · exact ih (by omega) h
    · exact h

/-- **Soundness**: the repair returns a valid numbering in which every edge leads to a larger
number. -/
theorem repair_forward (hranked : Ranked nodes edges rank) (hkeys : ∀ k, k ∈ keys ↔ k ∈ nodes)
    {fuel : ℕ} {n n' : Numbering K} (hvalid : n.Valid nodes)
    (h : repair edges keys fuel n = some n') :
    n'.Valid nodes ∧ ∀ k ∈ nodes, ∀ r ∈ edges k, n'.index k < n'.index r := by
  induction fuel generalizing n with
  | zero => cases h
  | succ fuel ih =>
    unfold repair at h
    dsimp only at h
    split_ifs at h with hchanged
    · exact ih (pass_settled hranked hkeys hvalid (i := 0) (by intro _ _ _ _ h; omega)).1 h
    · obtain rfl := Option.some.inj h
      obtain ⟨heq, hge⟩ := foldl_visit_unchanged keys (n, false) (by simpa [pass] using hchanged)
      have hn : (pass edges keys n).1 = n := congrArg Prod.fst heq
      rw [hn]
      refine ⟨hvalid, ?_⟩
      intro k hk r hr
      have hle : n.index k ≤ n.index r := hge k ((hkeys k).mpr hk) r hr
      have hne : n.index k ≠ n.index r := by
        intro heq
        have hkr := hvalid.injOn hk (hranked.mem k hk r hr) heq
        have hlt := hranked.rank_lt k hk r hr
        rw [hkr] at hlt
        omega
      omega

end Forward

end Numbering

end Lib

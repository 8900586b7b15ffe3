import GemCore.Ton.Bag

/-!
# The index of a bag of cells

`build_index` numbers the cells level by level and then repairs the numbers until every reference
leads to a larger one; `ordered_indexed_cells` turns the numbers into positions. Both loops end, and
the positions order the distinct cells of the trees, whatever cells they share.

## Main definitions

* `Graded` — the hash of a cell says how deep it is and what it refers to.
* `Indexing` — what the index knows while levels are still pending.
* `Indexed` — the entries in an order that references follow.

## Main results

* `Made.graded` — cells that are made and that SHA-256 separates are graded.
* `indexFrontier_terminates` — as many rounds as the tree is deep index every cell.
* `buildIndex_indexed` — the repaired index orders the cells of the trees.
* `buildIndex_spec` — the loops end and the positions order the bag.
-/

namespace GemCore.Ton

/-! ## Graded trees -/

/-- Induction from the roots of trees towards the leaves. -/
lemma cellsOf_induction {P : Cell → Prop} (hstep : ∀ c, P c → ∀ r ∈ c.references, P r)
    {roots : List Cell} (hroots : ∀ root ∈ roots, P root) : ∀ c ∈ cellsOf roots, P c := by
  have hcells : ∀ root, P root → ∀ c ∈ root.cells, P c := by
    intro root
    induction root using Cell.induction with
    | h root ih =>
      intro hroot c hc
      rcases Cell.mem_cells.mp hc with rfl | ⟨r, hr, hcr⟩
      · exact hroot
      · exact ih r hr (hstep root hroot r hr) c hcr
  intro c hc
  obtain ⟨root, hroot, hcr⟩ := mem_cellsOf.mp hc
  exact hcells root (hroots root hroot) c hcr

/-- Trees in which the hash of a cell says how deep the cell is and which hashes it refers to. -/
structure Graded (roots : List Cell) : Prop where
  depth_lt : ∀ c ∈ cellsOf roots, ∀ r ∈ c.references, r.depth < c.depth
  depth_eq : ∀ a ∈ cellsOf roots, ∀ b ∈ cellsOf roots, a.hash = b.hash → a.depth = b.depth
  references_eq : ∀ a ∈ cellsOf roots, ∀ b ∈ cellsOf roots, a.hash = b.hash →
    a.references.map Cell.hash = b.references.map Cell.hash

/-- No cell is deeper than the deepest root. -/
lemma Graded.depth_le {roots : List Cell} (h : Graded roots) :
    ∀ c ∈ cellsOf roots, c.depth ≤ maxDepth roots := by
  have hall : ∀ c ∈ cellsOf roots, c ∈ cellsOf roots ∧ c.depth ≤ maxDepth roots := by
    apply cellsOf_induction
    · rintro c ⟨hc, hle⟩ r hr
      have hlt := h.depth_lt c hc r hr
      exact ⟨references_mem_cellsOf hc hr, by omega⟩
    · intro root hroot
      exact ⟨mem_cellsOf.mpr ⟨root, hroot, root.self_mem_cells⟩, depth_le_foldr hroot⟩
  intro c hc
  exact (hall c hc).2

/-- Trees of cells that are what `Cell::try_new` makes of their parts, and that SHA-256 separates. -/
structure Made (lib : HashLib) (roots : List Cell) : Prop where
  tryNew_eq : ∀ c ∈ cellsOf roots, Cell.tryNew lib c.data c.bitLen c.references = some c
  free : ∀ a ∈ cellsOf roots, ∀ b ∈ cellsOf roots,
    lib.sha256 a.repr = lib.sha256 b.repr → a.repr = b.repr

namespace Made

variable {lib : HashLib} {roots : List Cell}

lemma hash_eq (h : Made lib roots) {c : Cell} (hc : c ∈ cellsOf roots) :
    c.hash = lib.sha256 c.repr :=
  (Cell.tryNew_eq_some lib (h.tryNew_eq c hc)).2.2.2.2.2.2.2

/-- Cells with equal hashes refer to the same hashes. -/
lemma references_eq (h : Made lib roots) {a b : Cell} (ha : a ∈ cellsOf roots)
    (hb : b ∈ cellsOf roots) (hhash : a.hash = b.hash) :
    a.references.map Cell.hash = b.references.map Cell.hash := by
  have hlength {c : Cell} (hc : c ∈ cellsOf roots) : ∀ r ∈ c.references, r.hash.length = 32 := by
    intro r hr
    rw [h.hash_eq (references_mem_cellsOf hc hr)]
    exact lib.sha256_length _
  rw [h.hash_eq ha, h.hash_eq hb] at hhash
  exact (Cell.repr_parts lib (h.tryNew_eq a ha) (h.tryNew_eq b hb) (hlength ha) (hlength hb)
    (h.free a ha b hb hhash)).2.2

/-- Cells with equal hashes are equally deep: so are their references. -/
lemma depth_eq (h : Made lib roots) :
    ∀ a b : Cell, a ∈ cellsOf roots → b ∈ cellsOf roots → a.hash = b.hash → a.depth = b.depth := by
  intro a
  induction a using Cell.induction with
  | h a ih =>
    intro b ha hb hhash
    have hhashes := h.references_eq ha hb hhash
    have hdepths : a.references.map Cell.depth = b.references.map Cell.depth := by
      have hlength : a.references.length = b.references.length := by
        simpa using congrArg List.length hhashes
      apply List.ext_getElem (by simpa using hlength)
      intro i hi hi'
      rw [List.length_map] at hi hi'
      rw [List.getElem_map, List.getElem_map]
      apply ih _ (List.getElem_mem hi) _ (references_mem_cellsOf ha (List.getElem_mem hi))
        (references_mem_cellsOf hb (List.getElem_mem hi'))
      have hget := congrArg (fun l => l[i]?) hhashes
      simpa [List.getElem?_eq_getElem hi, List.getElem?_eq_getElem hi'] using hget
    have hda := (Cell.tryNew_eq_some lib (h.tryNew_eq a ha)).2.2.2.1
    have hdb := (Cell.tryNew_eq_some lib (h.tryNew_eq b hb)).2.2.2.1
    have hempty : a.references.isEmpty = b.references.isEmpty := by
      simpa using congrArg List.isEmpty hdepths
    unfold depthOf at hda hdb
    rw [hempty, hdepths, hdb] at hda
    exact (Option.some.inj hda).symm

/-- **The cells of a bag are graded.** -/
theorem graded (h : Made lib roots) : Graded roots where
  depth_lt c hc _ hr := Cell.depth_lt_of_tryNew lib (h.tryNew_eq c hc) hr
  depth_eq a ha b hb := h.depth_eq a b ha hb
  references_eq _ ha _ hb := h.references_eq ha hb

end Made

/-- Well-formed trees are made. -/
lemma Separated.made {lib : HashLib} {roots : List Cell} (h : Separated lib roots) :
    Made lib roots where
  tryNew_eq _ hc := (h.of_mem hc).tryNew_eq
  free := h.free

/-! ## Indexing level by level -/

namespace IndexedCells

lemma insert_perm (s : IndexedCells) (c : Cell) :
    (s.insert c).cells.Perm ((c.hash, c) :: s.cells) := List.perm_orderedInsert _ _ _

lemma mem_insert {s : IndexedCells} {c : Cell} {entry : Hash × Cell} :
    entry ∈ (s.insert c).cells ↔ entry = (c.hash, c) ∨ entry ∈ s.cells := by
  rw [(s.insert_perm c).mem_iff, List.mem_cons]

lemma mem_keys_insert {s : IndexedCells} {c : Cell} {hash : Hash} :
    hash ∈ (s.insert c).keys ↔ hash = c.hash ∨ hash ∈ s.keys := by
  have hperm : (s.insert c).keys.Perm (c.hash :: s.keys) := (s.insert_perm c).map _
  rw [hperm.mem_iff, List.mem_cons]

lemma nodup_keys_insert {s : IndexedCells} {c : Cell} (hnodup : s.keys.Nodup)
    (hnew : c.hash ∉ s.keys) : (s.insert c).keys.Nodup := by
  have hperm : (s.insert c).keys.Perm (c.hash :: s.keys) := (s.insert_perm c).map _
  exact hperm.nodup_iff.mpr (List.nodup_cons.mpr ⟨hnew, hnodup⟩)

/-- With distinct keys, a list is looked up as its entries say. -/
lemma lookup_eq_some_iff_mem {l : List (Hash × Cell)} (hnodup : (l.map Prod.fst).Nodup)
    {hash : Hash} {c : Cell} : l.lookup hash = some c ↔ (hash, c) ∈ l := by
  induction l with
  | nil => simp
  | cons entry l ih =>
    obtain ⟨h, d⟩ := entry
    obtain ⟨hnew, hrest⟩ := List.nodup_cons.mp hnodup
    rw [List.lookup_cons, List.mem_cons, Prod.mk.injEq]
    by_cases hh : hash = h
    · subst hh
      have hout : (hash, c) ∉ l := fun hmem => hnew (List.mem_map.mpr ⟨(hash, c), hmem, rfl⟩)
      simp [hout, eq_comm]
    · have hbeq : (hash == h) = false := by simpa using hh
      simp only [hbeq, hh, false_and, false_or]
      exact ih hrest

lemma get_eq_some_iff {s : IndexedCells} (hnodup : s.keys.Nodup) {hash : Hash} {c : Cell} :
    s.get hash = some c ↔ (hash, c) ∈ s.cells := lookup_eq_some_iff_mem hnodup

end IndexedCells

/-- What the index knows while the cells in `pending` are still to come: its entries are cells
of the trees under their hashes, numbered validly, and every reference is in the index or
pending. -/
structure Indexing (roots : List Cell) (s : IndexedCells) (pending : List Cell) : Prop where
  nodup : s.keys.Nodup
  entries : ∀ hash c, (hash, c) ∈ s.cells → c.hash = hash ∧ c ∈ cellsOf roots
  valid : s.numbering.Valid {hash | hash ∈ s.keys}
  closed : ∀ hash c, (hash, c) ∈ s.cells → ∀ r ∈ c.references, r.hash ∈ s.keys ∨ r ∈ pending
  roots_mem : ∀ root ∈ roots, root.hash ∈ s.keys ∨ root ∈ pending
  pending_mem : ∀ c ∈ pending, c ∈ cellsOf roots

/-- At the start the roots are pending. -/
lemma indexing_empty (roots : List Cell) : Indexing roots .empty roots where
  nodup := List.nodup_nil
  entries := by simp [IndexedCells.empty]
  valid := ⟨by simp [IndexedCells.empty, IndexedCells.keys],
    by simp [IndexedCells.empty, IndexedCells.keys]⟩
  closed := by simp [IndexedCells.empty]
  roots_mem := fun _ hroot => .inr hroot
  pending_mem := fun c hc => mem_cellsOf.mpr ⟨c, hc, c.self_mem_cells⟩

/-- **One cell** is indexed: it is no longer pending, and its references are. -/
theorem indexCell_indexing {roots : List Cell} {c : Cell} {s : IndexedCells}
    {next todo : List Cell} (h : Indexing roots s (c :: todo ++ next)) :
    Indexing roots (indexCell (s, next) c).1 (todo ++ (indexCell (s, next) c).2) := by
  have hc : c ∈ cellsOf roots := h.pending_mem c (by simp)
  unfold indexCell
  by_cases hin : c.hash ∈ s.keys
  · rw [if_pos (by simpa [IndexedCells.contains] using hin)]
    -- the cell is known, so whatever waited for it is in the index
    have hdrop : ∀ r : Cell, r.hash ∈ s.keys ∨ r ∈ c :: todo ++ next →
        r.hash ∈ s.keys ∨ r ∈ todo ++ next := by
      intro r hr
      rcases hr with hr | hr
      · exact .inl hr
      · rcases List.mem_cons.mp hr with rfl | hr
        · exact .inl hin
        · exact .inr hr
    exact ⟨h.nodup, h.entries, h.valid, fun hash d hd r hr => hdrop r (h.closed hash d hd r hr),
      fun root hroot => hdrop root (h.roots_mem root hroot),
      fun d hd => h.pending_mem d (List.mem_cons_of_mem _ hd)⟩
  · rw [if_neg (by simpa [IndexedCells.contains] using hin)]
    have hgrow : ∀ r : Cell, r.hash ∈ s.keys ∨ r ∈ c :: todo ++ next →
        r.hash ∈ (s.insert c).keys ∨ r ∈ todo ++ (next ++ c.references) := by
      intro r hr
      rw [IndexedCells.mem_keys_insert]
      rcases hr with hr | hr
      · exact .inl (.inr hr)
      · rcases List.mem_cons.mp hr with rfl | hr
        · exact .inl (.inl rfl)
        · refine .inr ?_
          rw [← List.append_assoc]
          exact List.mem_append_left _ hr
    refine ⟨IndexedCells.nodup_keys_insert h.nodup hin, ?_, ?_, ?_,
      fun root hroot => hgrow root (h.roots_mem root hroot), ?_⟩
    · intro hash d hd
      rcases IndexedCells.mem_insert.mp hd with heq | hd
      · obtain ⟨rfl, rfl⟩ := Prod.mk.inj heq
        exact ⟨rfl, hc⟩
      · exact h.entries hash d hd
    · refine (h.valid.renew_insert c.hash).mono ?_
      intro hash hhash
      exact IndexedCells.mem_keys_insert.mp hhash
    · intro hash d hd r hr
      rcases IndexedCells.mem_insert.mp hd with heq | hd
      · obtain ⟨rfl, rfl⟩ := Prod.mk.inj heq
        exact .inr (by simp [hr])
      · exact hgrow r (h.closed hash d hd r hr)
    · intro d hd
      rw [← List.append_assoc] at hd
      rcases List.mem_append.mp hd with hd | hd
      · exact h.pending_mem d (List.mem_cons_of_mem _ hd)
      · exact references_mem_cellsOf hc hd

/-- **One level** is indexed: what is pending afterwards was pending before or is a reference of
the level. -/
theorem foldl_indexCell {roots : List Cell} :
    ∀ (todo : List Cell) (s : IndexedCells) (next : List Cell),
      Indexing roots s (todo ++ next) →
      Indexing roots (todo.foldl indexCell (s, next)).1 (todo.foldl indexCell (s, next)).2 ∧
        ∀ c ∈ (todo.foldl indexCell (s, next)).2, c ∈ next ∨ ∃ p ∈ todo, c ∈ p.references := by
  intro todo
  induction todo with
  | nil =>
    intro s next h
    exact ⟨by simpa using h, fun c hc => .inl hc⟩
  | cons c todo ih =>
    intro s next h
    obtain ⟨hind, hfrom⟩ := ih (indexCell (s, next) c).1 (indexCell (s, next) c).2
      (indexCell_indexing h)
    refine ⟨hind, ?_⟩
    intro d hd
    rcases hfrom d hd with hd | ⟨p, hp, hdp⟩
    · unfold indexCell at hd
      split_ifs at hd
      · exact .inl hd
      · rcases List.mem_append.mp hd with hd | hd
        · exact .inl hd
        · exact .inr ⟨c, List.mem_cons_self, hd⟩
    · exact .inr ⟨p, List.mem_cons_of_mem _ hp, hdp⟩

/-- **The levels end**: the references of a level are less deep than the level, so as many
rounds as the deepest pending cell needs index everything. -/
theorem indexFrontier_terminates {roots : List Cell} (hroots : Graded roots) :
    ∀ (fuel : ℕ) (frontier : List Cell) (s : IndexedCells), Indexing roots s frontier →
      (∀ c ∈ frontier, c.depth < fuel) →
      ∃ s', indexFrontier fuel frontier s = some s' ∧ Indexing roots s' [] := by
  intro fuel
  induction fuel with
  | zero =>
    intro frontier s h hdepth
    cases frontier with
    | nil => exact ⟨s, rfl, h⟩
    | cons c frontier => exact absurd (hdepth c List.mem_cons_self) (by omega)
  | succ fuel ih =>
    intro frontier s h hdepth
    cases frontier with
    | nil => exact ⟨s, rfl, h⟩
    | cons c frontier =>
      obtain ⟨hind, hfrom⟩ := foldl_indexCell (c :: frontier) s [] (by simpa using h)
      apply ih _ _ hind
      intro d hd
      rcases hfrom d hd with hd | ⟨p, hp, hdp⟩
      · cases hd
      · have hlt := hroots.depth_lt p (h.pending_mem p hp) d hdp
        have hp' := hdepth p hp
        omega

/-- More rounds than needed change nothing. -/
lemma indexFrontier_mono {fuel fuel' : ℕ} (hle : fuel ≤ fuel') {frontier : List Cell}
    {s s' : IndexedCells} (h : indexFrontier fuel frontier s = some s') :
    indexFrontier fuel' frontier s = some s' := by
  induction fuel generalizing fuel' frontier s with
  | zero =>
    cases frontier with
    | nil => cases fuel' <;> exact h
    | cons c frontier => cases h
  | succ fuel ih =>
    obtain ⟨fuel', rfl⟩ : ∃ m, fuel' = m + 1 := ⟨fuel' - 1, by omega⟩
    cases frontier with
    | nil => exact h
    | cons c frontier =>
      unfold indexFrontier at h ⊢
      exact ih (by omega) h

/-! ## Repairing the order -/

section Index

variable {roots : List Cell} {s : IndexedCells} (hroots : Graded roots)
  (hs : Indexing roots s [])

include hroots hs

/-- When nothing is pending, the hash of every cell of the trees is in the index. -/
theorem Indexing.mem_keys {c : Cell} (hc : c ∈ cellsOf roots) : c.hash ∈ s.keys := by
  have hall : ∀ d ∈ cellsOf roots, d ∈ cellsOf roots ∧ d.hash ∈ s.keys := by
    apply cellsOf_induction
    · rintro d ⟨hd, hkey⟩ r hr
      refine ⟨references_mem_cellsOf hd hr, ?_⟩
      -- the entry under the hash of the cell refers to the same hashes
      obtain ⟨⟨hash, e⟩, he, heq⟩ := List.mem_map.mp hkey
      obtain ⟨hhash, hmem⟩ := hs.entries hash e he
      dsimp only at heq
      have hsame := hroots.references_eq e hmem d hd (hhash.trans heq)
      have hr' : r.hash ∈ e.references.map Cell.hash := by
        rw [hsame]
        exact List.mem_map_of_mem hr
      obtain ⟨r', hr', hrr⟩ := List.mem_map.mp hr'
      rcases hs.closed hash e he r' hr' with hkey' | hpending
      · rwa [hrr] at hkey'
      · cases hpending
    · intro root hroot
      refine ⟨mem_cellsOf.mpr ⟨root, hroot, root.self_mem_cells⟩, ?_⟩
      rcases hs.roots_mem root hroot with hkey | hpending
      · exact hkey
      · cases hpending
  exact (hall c hc).2

/-- The entry under the hash of a cell of the trees. -/
lemma Indexing.exists_get {c : Cell} (hc : c ∈ cellsOf roots) :
    ∃ e, s.get c.hash = some e ∧ (c.hash, e) ∈ s.cells ∧ e ∈ cellsOf roots ∧ e.hash = c.hash := by
  obtain ⟨⟨hash, e⟩, he, heq⟩ := List.mem_map.mp (hs.mem_keys hroots hc)
  dsimp only at heq
  subst heq
  obtain ⟨hhash, hmem⟩ := hs.entries _ e he
  exact ⟨e, (IndexedCells.get_eq_some_iff hs.nodup).mpr he, he, hmem, hhash⟩

/-- The references of a cell of the trees are the edges of its hash. -/
lemma Indexing.hash_mem_edges {c r : Cell} (hc : c ∈ cellsOf roots) (hr : r ∈ c.references) :
    r.hash ∈ s.edges c.hash := by
  obtain ⟨e, hget, -, hmem, hhash⟩ := hs.exists_get hroots hc
  have hr' : r.hash ∈ e.references.map Cell.hash := by
    rw [hroots.references_eq e hmem c hc hhash]
    exact List.mem_map_of_mem hr
  unfold IndexedCells.edges
  simp only [hget, List.mem_filter, IndexedCells.contains, decide_eq_true_eq]
  exact ⟨hr', hs.mem_keys hroots (references_mem_cellsOf hc hr)⟩

/-- The rank of a hash: how far its cell is from the largest depth. -/
lemma Indexing.ranked : Lib.Numbering.Ranked {hash | hash ∈ s.keys} s.edges
    (fun hash => maxDepth roots - ((s.get hash).map Cell.depth).getD 0) := by
  have hedge : ∀ k, k ∈ s.keys → ∀ t ∈ s.edges k, ∃ c r, s.get k = some c ∧ r.hash = t ∧
      r ∈ c.references ∧ c ∈ cellsOf roots := by
    intro k hk t ht
    obtain ⟨⟨k', c⟩, hc, rfl⟩ := List.mem_map.mp hk
    have hget := (IndexedCells.get_eq_some_iff hs.nodup).mpr hc
    dsimp only at ht
    unfold IndexedCells.edges at ht
    simp only [hget, List.mem_filter, List.mem_map] at ht
    obtain ⟨⟨r, hr, rfl⟩, -⟩ := ht
    exact ⟨c, r, hget, rfl, hr, (hs.entries k' c hc).2⟩
  constructor
  · intro k hk t ht
    obtain ⟨c, r, -, rfl, hr, hc⟩ := hedge k hk t ht
    exact hs.mem_keys hroots (references_mem_cellsOf hc hr)
  · intro k hk t ht
    obtain ⟨c, r, hgetk, rfl, hr, hc⟩ := hedge k hk t ht
    have hr' := references_mem_cellsOf hc hr
    obtain ⟨e, hgett, -, hmem, hhash⟩ := hs.exists_get hroots hr'
    have hlt := hroots.depth_lt c hc r hr
    have hle := hroots.depth_le c hc
    have hsame := hroots.depth_eq e hmem r hr' hhash
    simp only [hgetk, hgett, Option.map_some, Option.getD_some]
    omega

end Index

/-- The hashes of the cells of some trees, each once, in an order in which references point
forward. -/
structure Indexed (roots : List Cell) (ordered : List (Hash × Cell)) : Prop where
  nodup : (ordered.map Prod.fst).Nodup
  entries : ∀ hash c, (hash, c) ∈ ordered → c.hash = hash ∧ c ∈ cellsOf roots
  complete : ∀ c ∈ cellsOf roots, c.hash ∈ ordered.map Prod.fst
  forward : ∀ c ∈ cellsOf roots, ∀ r ∈ c.references, ∀ i j : ℕ,
    (ordered.map Prod.fst)[i]? = some c.hash → (ordered.map Prod.fst)[j]? = some r.hash → i < j

/-- The entries of a finished index, sorted by a numbering in which every edge leads to a larger
number. -/
theorem Indexing.indexed {roots : List Cell} {s : IndexedCells} {numbering : Lib.Numbering Hash}
    (hroots : Graded roots) (hs : Indexing roots s [])
    (hforward : ∀ k ∈ s.keys, ∀ t ∈ s.edges k, numbering.index k < numbering.index t) :
    Indexed roots (orderedIndexedCells { s with numbering }) := by
  have hperm : (orderedIndexedCells { s with numbering }).Perm s.cells :=
    List.perm_insertionSort _ _
  have hkeys : ((orderedIndexedCells { s with numbering }).map Prod.fst).Perm s.keys :=
    hperm.map _
  have hsorted : (orderedIndexedCells { s with numbering }).Pairwise
      (fun a b => numbering.index a.1 ≤ numbering.index b.1) := by
    have htotal : Std.Total (fun a b : Hash × Cell =>
        numbering.index a.1 ≤ numbering.index b.1) := ⟨fun _ _ => Nat.le_total _ _⟩
    have htrans : IsTrans (Hash × Cell) (fun a b =>
        numbering.index a.1 ≤ numbering.index b.1) := ⟨fun _ _ _ => Nat.le_trans⟩
    exact List.pairwise_insertionSort _ _
  have hsorted' : ((orderedIndexedCells { s with numbering }).map Prod.fst).Pairwise
      (fun a b => numbering.index a ≤ numbering.index b) := List.pairwise_map.mpr hsorted
  refine ⟨hkeys.nodup_iff.mpr hs.nodup, ?_, ?_, ?_⟩
  · intro hash c hc
    exact hs.entries hash c (hperm.mem_iff.mp hc)
  · intro c hc
    exact hkeys.mem_iff.mpr (hs.mem_keys hroots hc)
  · intro c hc r hr i j hi hj
    have hlt := hforward c.hash (hs.mem_keys hroots hc) r.hash (hs.hash_mem_edges hroots hc hr)
    by_contra hle
    rcases Nat.lt_or_eq_of_le (Nat.le_of_not_lt hle) with hji | rfl
    · obtain ⟨hjlen, hjget⟩ := List.getElem?_eq_some_iff.mp hj
      obtain ⟨hilen, higet⟩ := List.getElem?_eq_some_iff.mp hi
      have hle' := List.pairwise_iff_getElem.mp hsorted' j i hjlen hilen hji
      rw [hjget, higet] at hle'
      exact absurd hlt (Nat.not_lt.mpr hle')
    · rw [hj] at hi
      rw [Option.some.inj hi] at hlt
      exact Nat.lt_irrefl _ hlt

/-- **The index** of some trees is finished after a number of rounds bounded by their depth, and
its entries in order are the cells of the trees with references pointing forward. -/
theorem buildIndex_indexed {roots : List Cell} (hroots : Graded roots) :
    ∃ s, (∀ fuel, maxDepth roots + 2 ≤ fuel → buildIndex fuel roots = some s) ∧
      Indexed roots (orderedIndexedCells s) := by
  obtain ⟨s, hrun, hs⟩ := indexFrontier_terminates hroots (maxDepth roots + 1) roots .empty
    (indexing_empty roots) (fun c hc => Nat.lt_succ_of_le (depth_le_foldr hc))
  have hranked := hs.ranked hroots
  have hkeys : ∀ k, k ∈ s.keys ↔ k ∈ {hash | hash ∈ s.keys} := fun _ => Iff.rfl
  obtain ⟨numbering, hrepair⟩ := Lib.Numbering.repair_terminates hranked hkeys
    (fun k _ => show maxDepth roots - _ < maxDepth roots + 1 by omega) (maxDepth roots + 2) 0
    s.numbering (by omega) (by omega) hs.valid (by intro _ _ _ _ h; omega)
  obtain ⟨-, hforward⟩ := Lib.Numbering.repair_forward hranked hkeys hs.valid hrepair
  refine ⟨{ s with numbering }, ?_, hs.indexed hroots hforward⟩
  intro fuel hfuel
  have hlevels := indexFrontier_mono (show maxDepth roots + 1 ≤ fuel by omega) hrun
  simp only [buildIndex, hlevels, Lib.Numbering.repair_mono hfuel hrepair,
    Option.bind_eq_bind, Option.bind_some]

/-! ## Positions -/

/-- The index of a hash is its position. -/
lemma realIndex_eq_some_iff {ordered : List (Hash × Cell)} (hnodup : (ordered.map Prod.fst).Nodup)
    {hash : Hash} {i : ℕ} :
    realIndex ordered hash = some i ↔ (ordered.map Prod.fst)[i]? = some hash := by
  have hkey : ∀ j (hj : j < ordered.length), (ordered.map Prod.fst)[j]? = some ordered[j].1 := by
    intro j hj
    rw [List.getElem?_map, List.getElem?_eq_getElem hj, Option.map_some]
  unfold realIndex
  rw [List.findIdx?_eq_some_iff_getElem]
  constructor
  · rintro ⟨hlen, hget, -⟩
    rw [hkey i hlen, of_decide_eq_true hget]
  · intro hi
    have hlen : i < ordered.length := by
      simpa using (List.getElem?_eq_some_iff.mp hi).1
    have hget : ordered[i].1 = hash := Option.some.inj ((hkey i hlen).symm.trans hi)
    refine ⟨hlen, decide_eq_true hget, ?_⟩
    intro j hji heq
    have hne := List.nodup_iff_getElem?_ne_getElem?.mp hnodup j i hji (by simpa using hlen)
    rw [hkey j (hji.trans hlen), hi, of_decide_eq_true heq] at hne
    exact hne rfl

/-- Every cell of the trees has a position. -/
lemma Indexed.exists_realIndex {roots : List Cell} {ordered : List (Hash × Cell)}
    (h : Indexed roots ordered) {c : Cell} (hc : c ∈ cellsOf roots) :
    ∃ i < ordered.length, realIndex ordered c.hash = some i := by
  obtain ⟨i, hi⟩ := List.mem_iff_getElem?.mp (h.complete c hc)
  refine ⟨i, ?_, (realIndex_eq_some_iff h.nodup).mpr hi⟩
  simpa using (List.getElem?_eq_some_iff.mp hi).1

/-- **The loops end and the positions order the bag.** For any trees of cells, with any sharing,
both loops of `build_index` end after a number of rounds bounded by the depth of the trees. Each
position below the number of distinct cells is then the index of a cell, each cell has one, two cells
have the same one exactly when they are the same as `Cell::try_new` hashes them, and the references
of a cell have larger ones.

**Proof sketch.** A pass of the repair settles the edges into the hashes of one more rank, where the
rank of a hash is how far its cell is from the largest depth; in a settled numbering nothing is
renewed. -/
theorem buildIndex_spec (lib : HashLib) (roots : List Cell) (hroots : Made lib roots) :
    ∃ s, (∀ fuel, maxDepth roots + 2 ≤ fuel → buildIndex fuel roots = some s) ∧
      (∀ c ∈ cellsOf roots, ∃ i < (orderedIndexedCells s).length,
        realIndex (orderedIndexedCells s) c.hash = some i) ∧
      (∀ i < (orderedIndexedCells s).length, ∃ c ∈ cellsOf roots,
        realIndex (orderedIndexedCells s) c.hash = some i) ∧
      (∀ a ∈ cellsOf roots, ∀ b ∈ cellsOf roots,
        (realIndex (orderedIndexedCells s) a.hash = realIndex (orderedIndexedCells s) b.hash ↔
          a.repr = b.repr)) ∧
      (∀ c ∈ cellsOf roots, ∀ r ∈ c.references, ∃ i j,
        realIndex (orderedIndexedCells s) c.hash = some i ∧
          realIndex (orderedIndexedCells s) r.hash = some j ∧ i < j) := by
  obtain ⟨s, hrun, hindexed⟩ := buildIndex_indexed hroots.graded
  refine ⟨s, hrun, fun c hc => hindexed.exists_realIndex hc, ?_, ?_, ?_⟩
  · intro i hi
    obtain ⟨hhash, hmem⟩ := hindexed.entries _ _ (List.getElem_mem hi)
    refine ⟨(orderedIndexedCells s)[i].2, hmem, ?_⟩
    rw [realIndex_eq_some_iff hindexed.nodup, List.getElem?_map, List.getElem?_eq_getElem hi]
    exact congrArg some hhash.symm
  · intro a ha b hb
    have hhash : a.hash = b.hash ↔ a.repr = b.repr := by
      rw [hroots.hash_eq ha, hroots.hash_eq hb]
      exact ⟨hroots.free a ha b hb, congrArg lib.sha256⟩
    rw [← hhash]
    constructor
    · intro hsame
      obtain ⟨i, -, hi⟩ := hindexed.exists_realIndex ha
      have hi' := hsame.symm.trans hi
      rw [realIndex_eq_some_iff hindexed.nodup] at hi hi'
      exact Option.some.inj (hi.symm.trans hi')
    · intro hsame
      rw [hsame]
  · intro c hc r hr
    obtain ⟨i, -, hi⟩ := hindexed.exists_realIndex hc
    obtain ⟨j, -, hj⟩ := hindexed.exists_realIndex (references_mem_cellsOf hc hr)
    exact ⟨i, j, hi, hj, hindexed.forward c hc r hr i j
      ((realIndex_eq_some_iff hindexed.nodup).mp hi) ((realIndex_eq_some_iff hindexed.nodup).mp hj)⟩

/-! ## A tree with a shared cell -/

/-- The hash of a cell with the three bits `101`. -/
def leafHash : Hash :=
  Lib.beBytes 32 0xc8235418b5cd55bc46073ea5cf9f3aac5a594ed782bee88dcd0acfd8ede4c756

/-- The hash of a cell with the byte `ff` that refers to the leaf. -/
def midHash : Hash :=
  Lib.beBytes 32 0x3bd488dbaa94047feb0bf4698b644d239c4debb72fdb7a9df86cd117d0313c79

/-- The hash of a cell with the bit `1` that refers to both. -/
def topHash : Hash :=
  Lib.beBytes 32 0x62f2189a46258c8ae94b46abdecb3e528349c13f31b2de0ccd0b24412eacc82d

/-- The hash functions at the cells and the payload of the sample tree. -/
def sampleHashLib : HashLib where
  sha256 bytes :=
    if bytes = [0x00, 0x01, 0xb0] then leafHash
    else if bytes = [0x01, 0x02, 0xff, 0x00, 0x00] ++ leafHash then midHash
    else if bytes = [0x02, 0x01, 0xc0, 0x00, 0x00, 0x00, 0x01] ++ leafHash ++ midHash then topHash
    else List.replicate 32 0
  crc32c bytes := if bytes = Lib.beBytes 23 0xb5ee9c7241010301000c000201c002010102ff020001b0 then
      0xd90d2c3e else 0
  sha256_length bytes := by split_ifs <;> simp [leafHash, midHash, topHash]

/-- The three cells: the leaf is a reference of the other two, so it has to move behind the
second. -/
def sampleLeaf : Cell := ⟨[0xa0], 3, [], 0, leafHash⟩

def sampleMid : Cell := ⟨[0xff], 8, [sampleLeaf], 1, midHash⟩

def sampleRoot : Cell := ⟨[0x80], 1, [sampleLeaf, sampleMid], 2, topHash⟩

lemma sampleRoot_made : Made sampleHashLib [sampleRoot] := by
  have hcells : ∀ c ∈ cellsOf [sampleRoot], c = sampleRoot ∨ c = sampleMid ∨ c = sampleLeaf := by
    intro c hc
    have hlist : cellsOf [sampleRoot] = [sampleRoot, sampleLeaf, sampleMid, sampleLeaf] := rfl
    rw [hlist] at hc
    simp only [List.mem_cons, List.not_mem_nil, or_false] at hc
    tauto
  constructor
  · intro c hc
    obtain rfl | rfl | rfl := hcells c hc <;> rfl
  · intro a ha b hb heq
    obtain rfl | rfl | rfl := hcells a ha <;> obtain rfl | rfl | rfl := hcells b hb <;>
      first
      | rfl
      | exact absurd heq (by decide +kernel)

theorem buildIndex_spec_sample :
    ∃ s, (∀ fuel, 4 ≤ fuel → buildIndex fuel [sampleRoot] = some s) ∧ ∃ i j,
      realIndex (orderedIndexedCells s) sampleMid.hash = some i ∧
        realIndex (orderedIndexedCells s) sampleLeaf.hash = some j ∧ i < j := by
  obtain ⟨s, hrun, -, -, -, hforward⟩ := buildIndex_spec sampleHashLib [sampleRoot] sampleRoot_made
  have hlist : cellsOf [sampleRoot] = [sampleRoot, sampleLeaf, sampleMid, sampleLeaf] := rfl
  refine ⟨s, hrun, hforward sampleMid ?_ sampleLeaf (List.mem_singleton_self _)⟩
  rw [hlist]
  exact List.mem_cons_of_mem _ (List.mem_cons_of_mem _ List.mem_cons_self)

end GemCore.Ton

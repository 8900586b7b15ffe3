import GemCore.Ton.Checked
import GemCore.Ton.RoundTrip

/-!
# Bags of cells from the network

What the parser accepts of any input: every cell is within the limits of a cell, the references have no
cycle, and no step of the parser panics as long as its sums fit a `usize`. The bag is written again, and what is written is parsed as the
same bag exactly when the bag has no more roots than distinct cells: equal cells are written once, but
each root is listed, and the parser rejects a header with more roots than cells.

## Main definitions

* `Rebuilt` — a list of cells that is closed under references.
* `BagOfCells.Sound` — the cells of a bag are within the limits.
* `BagOfCells.Stable` — a bag is written, and parsed as it was.

## Main results

* `rebuilt_of_parse` — what is accepted.
* `network_iff` — when a bag from the network is safe and stable.
-/

namespace GemCore.Ton

open Lib

variable {width : PointerWidth} (lib : HashLib)

/-! ## Rebuilding -/

/-- Well-formed cells with all cells that they refer to. -/
structure Rebuilt (cells : List Cell) : Prop where
  wellFormed : ∀ c ∈ cells, WellFormed lib c
  closed : ∀ c ∈ cells, ∀ r ∈ c.references, r ∈ cells

variable {lib}

/-- What `Cell::new` makes of padded data and well-formed references is well formed. -/
theorem wellFormed_of_new {data : List UInt8} {bitLen : ℕ} {references : List Cell} {c : Cell}
    (hpad : ZeroPadded data bitLen) (hrefs : ∀ r ∈ references, WellFormed lib r)
    (h : Cell.new lib data bitLen references = .ok c) :
    WellFormed lib c ∧ c.references = references := by
  have hnew := okOr_eq_ok_iff.mp h
  obtain ⟨-, -, -, -, rfl, rfl, rfl, -⟩ := Cell.tryNew_eq_some lib hnew
  exact ⟨.mk c hrefs hpad hnew, rfl⟩

/-- **One cell** is rebuilt from its raw form: it is well formed, and its references are among the cells
that were rebuilt before. -/
theorem rebuilt_buildCell {built : List Cell} (h : Rebuilt lib built) {raw : RawCell}
    (hpad : ZeroPadded raw.data raw.bitLen) {k : ℕ} {cells : List (Option Cell)}
    (hrun : buildCell lib (List.replicate (k + 1) none ++ built.map some) (raw, k) = .ok cells) :
    ∃ c, cells = List.replicate k none ++ (c :: built).map some ∧ Rebuilt lib (c :: built) := by
  obtain ⟨references, hreferences, hrest⟩ := bind_eq_ok_iff.mp hrun
  obtain ⟨c, hnew, hcells⟩ := bind_eq_ok_iff.mp hrest
  have hmem : ∀ r ∈ references, r ∈ built := by
    intro r hr
    obtain ⟨reference, -, hlookup⟩ := exists_mem_of_tryMap hreferences hr
    rw [guard_eq_ok_iff, okOr_eq_ok_iff, Option.join_eq_some_iff] at hlookup
    have hin := List.mem_of_getElem? hlookup.2
    simpa using hin
  obtain ⟨hc, rfl⟩ := wellFormed_of_new hpad (fun r hr => h.wellFormed r (hmem r hr)) hnew
  refine ⟨c, ?_, List.forall_mem_cons.mpr ⟨hc, h.wellFormed⟩, ?_⟩
  · rw [← Except.ok.inj hcells, List.replicate_succ', List.append_assoc,
      List.set_append_right _ _ (by simp)]
    simp
  · intro d hd r hr
    rcases List.mem_cons.mp hd with rfl | hd
    · exact List.mem_cons_of_mem _ (hmem r hr)
    · exact List.mem_cons_of_mem _ (h.closed d hd r hr)

/-- **The loop** over the raw cells, from the last to the first. -/
theorem rebuilt_foldlM {raws : List RawCell} (hpad : ∀ raw ∈ raws, ZeroPadded raw.data raw.bitLen)
    (k : ℕ) : ∀ {built : List Cell} {cells : List (Option Cell)}, k ≤ raws.length → Rebuilt lib built →
      (raws.zipIdx.take k).reverse.foldlM (buildCell lib)
        (List.replicate k none ++ built.map some) = .ok cells →
      ∃ built', cells = built'.map some ∧ Rebuilt lib built' ∧ built'.length = k + built.length := by
  induction k with
  | zero =>
    intro built cells _ h hrun
    cases hrun
    exact ⟨built, by simp, h, (Nat.zero_add _).symm⟩
  | succ k ih =>
    intro built cells hk h hrun
    have hget : raws[k]? = some raws[k] := List.getElem?_eq_getElem hk
    have hlast : raws.zipIdx[k]? = some (raws[k], k) := by simp [hget]
    rw [List.take_add_one, hlast, Option.toList_some, List.reverse_append, List.reverse_singleton,
      List.singleton_append, List.foldlM_cons] at hrun
    obtain ⟨next, hcell, hrun⟩ := bind_eq_ok_iff.mp hrun
    obtain ⟨c, rfl, hc⟩ := rebuilt_buildCell h (hpad _ (List.getElem_mem hk)) hcell
    obtain ⟨built', hcells, hbuilt', hlength⟩ := ih (Nat.le_of_succ_le hk) hc hrun
    refine ⟨built', hcells, hbuilt', ?_⟩
    rw [hlength, List.length_cons]
    omega

/-- **The cells of a bag** are well formed, and their references are among them. -/
theorem rebuilt_of_buildCellTree {raws : List RawCell}
    (hpad : ∀ raw ∈ raws, ZeroPadded raw.data raw.bitLen) {cells : List Cell}
    (h : buildCellTree lib raws = .ok cells) : Rebuilt lib cells ∧ cells.length = raws.length := by
  obtain ⟨slots, hslots, h⟩ := bind_eq_ok_iff.mp h
  have hstart : Rebuilt lib [] := ⟨fun _ hc => (nomatch hc), fun _ hc => (nomatch hc)⟩
  have hlength : raws.zipIdx.length = raws.length := List.length_zipIdx
  have hall : (raws.zipIdx.take raws.length).reverse.foldlM (buildCell lib)
      (List.replicate raws.length none ++ [].map some) = .ok slots := by
    rwa [List.take_of_length_le hlength.le, List.map_nil, List.append_nil]
  obtain ⟨built, rfl, hbuilt, hcount⟩ := rebuilt_foldlM hpad raws.length le_rfl hstart hall
  rw [tryMap_eq_ok_iff, List.forall₂_map_left_iff] at h
  have heq : built = cells := by
    rw [← List.forall₂_eq_eq_eq]
    exact h.imp fun a b hab => Except.ok.inj hab
  subst heq
  exact ⟨hbuilt, hcount⟩

/-- **What is accepted**: at most 4096 cells, closed under references, with the roots among them. -/
theorem rebuilt_of_parse {bytes : List UInt8} (hfit : Checked.SumsFit width bytes) {bag : BagOfCells}
    (h : BagOfCells.parse width lib bytes = .ok bag) :
    ∃ cells, Rebuilt lib cells ∧ cells.length ≤ 4096 ∧ (∀ root ∈ bag.roots, root ∈ cells) ∧
      bag.roots ≠ [] := by
  have hrange := Checked.inRange_new hfit.1
  obtain ⟨⟨⟨raws, indexes⟩, reader⟩, hread, h⟩ := bind_eq_ok_iff.mp h
  obtain ⟨-, hcount, hpad, hne⟩ := (Checked.coversAt_readBag lib bytes hrange hfit.2).2 _ _ hread
  rw [guard_eq_ok_iff] at h
  obtain ⟨cells, hcells, h⟩ := bind_eq_ok_iff.mp h.2
  obtain ⟨roots, hroots, h⟩ := bind_eq_ok_iff.mp h
  cases h
  obtain ⟨hrebuilt, hlength⟩ := rebuilt_of_buildCellTree hpad hcells
  refine ⟨cells, hrebuilt, hlength.le.trans hcount, ?_, ?_⟩
  · intro root hroot
    obtain ⟨index, -, hlookup⟩ := exists_mem_of_tryMap hroots hroot
    exact List.mem_of_getElem? (okOr_eq_ok_iff.mp hlookup)
  · show roots ≠ []
    have hlengths := (tryMap_eq_ok_iff.mp hroots).length_eq
    exact List.ne_nil_of_length_pos (hlengths ▸ List.length_pos_iff.mpr hne)

/-- Cells that are closed under references hold every cell of their trees. -/
lemma Rebuilt.subset {cells roots : List Cell} (h : Rebuilt lib cells)
    (hroots : ∀ root ∈ roots, root ∈ cells) : ∀ c ∈ cellsOf roots, c ∈ cells :=
  cellsOf_induction h.closed hroots

/-- There are no more distinct cells in the trees than cells. -/
lemma Rebuilt.distinctCellsOf_le {cells roots : List Cell} (h : Rebuilt lib cells)
    (hroots : ∀ root ∈ roots, root ∈ cells) : distinctCellsOf roots ≤ cells.length := by
  classical
  have hsub : (cellsOf roots).toFinset ⊆ cells.toFinset := fun c hc =>
    List.mem_toFinset.mpr (h.subset hroots c (List.mem_toFinset.mp hc))
  calc distinctCellsOf roots = (cellsOf roots).toFinset.card := by
        unfold distinctCellsOf
        congr
    _ ≤ cells.toFinset.card := Finset.card_le_card hsub
    _ ≤ cells.length := List.toFinset_card_le _

/-- No cell is reached from its own references: those are less deep. -/
lemma WellFormed.not_mem_cellsOf {c : Cell} (h : WellFormed lib c) :
    c ∉ cellsOf c.references := by
  intro hc
  obtain ⟨r, hr, hcr⟩ := mem_cellsOf.mp hc
  have hle := (h.references r hr).depth_le lib hcr
  have hlt := h.depth_lt hr
  omega

/-! ## The counts of a header -/

/-- Where a piece of the input starts, every value that a read returns has a property. -/
def Yields {α : Type} (read : Read α) (chunk : List UInt8) (P : α → Prop) : Prop :=
  ∀ before behind : List UInt8, (before ++ chunk ++ behind).length < 2 ^ 29 → ∀ a r',
    read (readerAt (before ++ chunk ++ behind) before.length) = .ok (a, r') → P a

namespace Yields

variable {α β : Type} {P : α → Prop}

/-- What comes behind a piece that is read. -/
lemma bind {read : Read β} {next : β → Read α} {chunk chunk' : List UInt8} {b : β}
    (h : Reads read chunk b) (hnext : Yields (next b) chunk' P) :
    Yields (read >>= next) (chunk ++ chunk') P := by
  intro before behind hlen a r' hrun
  have hfirst := h before (chunk' ++ behind) (by simpa [List.append_assoc] using hlen)
  refine hnext (before ++ chunk) behind (by simpa [List.append_assoc] using hlen) a r' ?_
  change (read (readerAt _ _) >>= fun s => next s.1 s.2) = _ at hrun
  simp only [List.append_assoc] at hfirst hrun ⊢
  rwa [hfirst, ok_bind] at hrun

/-- What comes behind anything else. -/
lemma any {read : Read β} {next : β → Read α}
    (hnext : ∀ b r a r', next b r = .ok (a, r') → P a) : Yields (read >>= next) [] P := by
  intro before behind _ a r' hrun
  obtain ⟨⟨b, r⟩, -, hrest⟩ := bind_eq_ok_iff.mp hrun
  exact hnext b r a r' hrest

lemma orInvalid {read : Read α} {chunk : List UInt8} (message : String) (h : Yields read chunk P) :
    Yields (orInvalid message read) chunk P :=
  fun before behind hlen a r' hrun => h before behind hlen a r' (mapError_eq_ok_iff.mp hrun)

end Yields

variable (width) in
/-- **The number of cells** that is written in a header is read, whatever comes behind it. -/
theorem yields_cellsCount {refBytes offBytes cellsCount : ℕ} (withCrc32c : Bool) (hrefs : 1 ≤ refBytes)
    (hrefs' : refBytes ≤ 4) (hoff : 1 ≤ offBytes) (hoff' : offBytes ≤ 8)
    (hcells : cellsCount < 256 ^ refBytes) :
    Yields (BocHeader.parse width) (beBytes 4 bocMagic ++
      ([(if withCrc32c then bitMask 6 else 0) ||| UInt8.ofNat refBytes] ++
        ([UInt8.ofNat offBytes] ++ (writeVarUint cellsCount refBytes ++ []))))
      fun header => header.cellsCount = cellsCount := by
  obtain ⟨hflags, -, -⟩ := flags_bits withCrc32c hrefs'
  have hoffset : (UInt8.ofNat offBytes).toNat = offBytes := by
    rw [UInt8.toNat_ofNat']
    exact Nat.mod_eq_of_lt (by omega)
  have hfields : Yields (BocHeader.readFields width) (beBytes 4 bocMagic ++
      ([(if withCrc32c then bitMask 6 else 0) ||| UInt8.ofNat refBytes] ++
        ([UInt8.ofNat offBytes] ++ (writeVarUint cellsCount refBytes ++ []))))
      fun fields => fields.cellsCount = cellsCount := by
    unfold BocHeader.readFields
    refine Yields.bind (reads_readU32 (by decide)) ?_
    rw [if_neg (by simp)]
    refine Yields.bind (reads_readU8 _) ?_
    simp only [hflags]
    rw [if_neg (by omega)]
    refine Yields.bind (reads_readU8 _) ?_
    simp only [hoffset]
    rw [if_neg (by omega)]
    refine Yields.bind (reads_readVarUint hrefs' hcells) ?_
    refine Yields.any fun rootsCount r fields r' hrun => ?_
    obtain ⟨⟨absentCount, r₁⟩, -, hrest⟩ := bind_eq_ok_iff.mp hrun
    obtain ⟨⟨total, r₂⟩, -, hend⟩ := bind_eq_ok_iff.mp hrest
    cases hend
    rfl
  apply Yields.orInvalid
  intro before behind hlen header r' hrun
  obtain ⟨⟨fields, r⟩, hread, hend⟩ := bind_eq_ok_iff.mp hrun
  dsimp only at hend
  have hcount := hfields before behind hlen fields r hread
  by_cases hvalid : (!fields.validCounts width) = true
  · rw [if_pos hvalid] at hend
    cases hend
  · rw [if_neg hvalid] at hend
    cases hend
    exact hcount

/-- **A bag that is accepted** has as many roots as its header says, which are no more than the cells. -/
theorem exists_header_of_parse {bytes : List UInt8} (hfit : bytes.length * 8 < width.usize)
    {bag : BagOfCells} (h : BagOfCells.parse width lib bytes = .ok bag) :
    ∃ header r, BocHeader.parse width (BitReader.new width bytes) = .ok (header, r) ∧
      bag.roots.length ≤ header.cellsCount ∧ header.cellsCount ≤ 4096 := by
  have hrange := Checked.inRange_new hfit
  obtain ⟨⟨⟨raws, indexes⟩, reader⟩, hread, hrest⟩ := bind_eq_ok_iff.mp h
  obtain ⟨⟨header, r₁⟩, hheader, hbody⟩ := bind_eq_ok_iff.mp hread
  obtain ⟨hrange₁, hin⟩ := Checked.inRange_parseHeader hrange hheader
  obtain ⟨⟨found, r₂⟩, hindexes, htail⟩ := bind_eq_ok_iff.mp hbody
  have hcount := (((Checked.covers_readVarUint _).many _ _ hrange₁).2 _ _ hindexes).2.1
  have hfound : found = indexes := by
    obtain ⟨_, -, htail⟩ := bind_eq_ok_iff.mp htail
    obtain ⟨_, -, htail⟩ := bind_eq_ok_iff.mp htail
    obtain ⟨_, -, htail⟩ := bind_eq_ok_iff.mp htail
    exact (congrArg (fun result => result.1.2) (Except.ok.inj htail) :)
  rw [guard_eq_ok_iff] at hrest
  obtain ⟨cells, -, hlast⟩ := bind_eq_ok_iff.mp hrest.2
  obtain ⟨roots, hroots, hend⟩ := bind_eq_ok_iff.mp hlast
  cases hend
  refine ⟨header, r₁, hheader, ?_, hin.cellsCount_le⟩
  calc roots.length = indexes.length := (tryMap_eq_ok_iff.mp hroots).length_eq.symm
    _ = header.rootsCount := by rw [← hfound, hcount]
    _ ≤ header.cellsCount := hin.rootsCount_le

/-! ## Writing a bag again -/

section Payload

variable {roots : List Cell} {ordered : List (Hash × Cell)} (hroots : Separated lib roots)
  (h : Ordered roots ordered) (hcount : ordered.length ≤ 4096)

variable (width) in
include hroots h hcount in
/-- **The written bag is parsed as it was** exactly when it has no more roots than cells. -/
theorem parse_bagPayload_iff (hne : roots ≠ []) (hmany : roots.length ≤ 4096) (withCrc32c : Bool) :
    BagOfCells.parse width lib (bagPayload withCrc32c ordered roots ++
        crcBytes lib withCrc32c (bagPayload withCrc32c ordered roots)) = .ok ⟨roots⟩ ↔
      roots.length ≤ ordered.length := by
  refine ⟨fun hparse => ?_, fun hle => parse_payload lib hroots h hcount hne hle withCrc32c⟩
  set raws := ordered.map fun entry => rawCell ordered entry.2 with hraws
  have hlength : raws.length = ordered.length := List.length_map _
  have hwritable := h.writable_rawCells lib hroots
  rw [← hraws] at hwritable
  set bytes := bagPayload withCrc32c ordered roots ++
    crcBytes lib withCrc32c (bagPayload withCrc32c ordered roots) with hbytes
  have hfit : bytes.length < 2 ^ 29 := by
    have hcrc : (crcBytes lib withCrc32c (bagPayload withCrc32c ordered roots)).length ≤ 4 := by
      unfold crcBytes
      split_ifs <;> simp
    have hlt : (bagPayload withCrc32c ordered roots).length + 4 < 2 ^ 29 :=
      length_payload_lt (hlength.le.trans hcount) hwritable
        (by rw [rootPositions, List.length_map]; exact hmany) withCrc32c
    rw [hbytes, List.length_append]
    omega
  obtain ⟨header, r, hheader, hle, -⟩ := exists_header_of_parse
    (show bytes.length * 8 < width.usize by have := width.le_usize; omega) hparse
  have hstart : ∃ behind, bytes = beBytes 4 bocMagic ++
      ([(if withCrc32c then bitMask 6 else 0) ||| UInt8.ofNat (bytesNeeded raws.length)] ++
        ([UInt8.ofNat (bytesNeeded (max (raws.map fun raw => raw.size (bytesNeeded raws.length)).sum 1))] ++
          (writeVarUint raws.length (bytesNeeded raws.length) ++ []))) ++ behind := by
    rw [hbytes, bagPayload, payload_eq, ← hraws]
    simp only [headerBytes, bagHeader, List.append_assoc, List.nil_append]
    exact ⟨_, rfl⟩
  obtain ⟨behind, hstart⟩ := hstart
  have hcells := yields_cellsCount width withCrc32c (bytesNeeded_pos raws.length)
    ((refBytes_le_two (hlength.le.trans hcount)).trans (by decide)) (bytesNeeded_pos _)
    ((offBytes_le_three (hlength.le.trans hcount) hwritable).trans (by decide))
    (lt_pow_bytesNeeded raws.length) [] behind (by rwa [List.nil_append, ← hstart]) header r
  rw [List.nil_append, ← hstart] at hcells
  rw [BitReader.new_eq hfit] at hheader
  rw [← hlength, ← hcells hheader]
  exact hle

end Payload

namespace BagOfCells

/-- Every cell of a bag has at most 1023 bits and four references, data in as many bytes as the bits
need with zero padding, and is not reached from its own references. -/
def Sound (bag : BagOfCells) : Prop :=
  ∀ c ∈ cellsOf bag.roots, c.bitLen ≤ 1023 ∧ c.references.length ≤ 4 ∧
    c.data.length = bytesFor c.bitLen ∧ ZeroPadded c.data c.bitLen ∧ c ∉ cellsOf c.references

/-- A bag is written, in so many rounds, and what is written is parsed as the same bag. -/
def Stable (width : PointerWidth) (lib : HashLib) (bag : BagOfCells) (withCrc32c : Bool) : Prop :=
  ∃ bytes rounds, (∀ fuel, rounds ≤ fuel → bag.serialize lib fuel withCrc32c = some (.ok bytes)) ∧
    parse width lib bytes = .ok bag

end BagOfCells

/-- The cells of a bag are within the limits. -/
lemma Rebuilt.sound {cells : List Cell} (h : Rebuilt lib cells) {bag : BagOfCells}
    (hroots : ∀ root ∈ bag.roots, root ∈ cells) : bag.Sound := by
  intro c hc
  have hwf := h.wellFormed c (h.subset hroots c hc)
  exact ⟨hwf.bitLen_le, hwf.length_references, hwf.length_data, hwf.zeroPadded, hwf.not_mem_cellsOf⟩

/-- **When a bag is stable**: when it has no more roots than distinct cells. -/
theorem stable_iff {bag : BagOfCells} (hroots : Separated lib bag.roots)
    (hcount : distinctCellsOf bag.roots ≤ 4096) (hne : bag.roots ≠ [])
    (hmany : bag.roots.length ≤ 4096) (withCrc32c : Bool) :
    bag.Stable width lib withCrc32c ↔ bag.roots.length ≤ distinctCellsOf bag.roots := by
  obtain ⟨roots⟩ := bag
  obtain ⟨s, hindex, hordered⟩ := buildIndex_ordered lib hroots
  have hlength := hordered.length_eq
  have hwrite : ∀ fuel, maxDepth roots + 2 ≤ fuel →
      (BagOfCells.mk roots).serialize lib fuel withCrc32c =
        some (.ok (bagPayload withCrc32c (orderedIndexedCells s) roots ++
          crcBytes lib withCrc32c (bagPayload withCrc32c (orderedIndexedCells s) roots))) := by
    intro fuel hfuel
    unfold BagOfCells.serialize
    simp only [hindex fuel hfuel, Option.bind_eq_bind, Option.bind_some]
    exact congrArg some (serializeOrdered_eq lib hordered withCrc32c)
  have hparse := parse_bagPayload_iff width hroots hordered (hlength.le.trans hcount) hne hmany withCrc32c
  rw [← hlength, ← hparse]
  constructor
  · rintro ⟨bytes, rounds, hbytes, hback⟩
    have heq := (hbytes _ (le_max_left rounds (maxDepth roots + 2))).symm.trans
      (hwrite _ (le_max_right _ _))
    rw [← Except.ok.inj (Option.some.inj heq)]
    exact hback
  · exact fun hback => ⟨_, _, hwrite, hback⟩

/-- **Bags from the network**: no step of the parser panics exactly when its sums fit; and a bag that
is accepted, whose cells SHA-256 separates, is safe and stable exactly when they do and the bag has no
more roots than distinct cells. -/
theorem network_iff (width : PointerWidth) (lib : HashLib) :
    (∀ bytes, Checked.parse width lib bytes =
      if Checked.SumsFit width bytes then some (BagOfCells.parse width lib bytes) else none) ∧
    ∀ bytes bag, BagOfCells.parse width lib bytes = .ok bag →
      (∀ a ∈ cellsOf bag.roots, ∀ b ∈ cellsOf bag.roots,
        lib.sha256 a.repr = lib.sha256 b.repr → a.repr = b.repr) →
      ((Checked.parse width lib bytes = some (.ok bag) ∧ bag.Sound ∧
          ∀ withCrc32c, bag.Stable width lib withCrc32c) ↔
        Checked.SumsFit width bytes ∧ bag.roots.length ≤ distinctCellsOf bag.roots) := by
  refine ⟨Checked.parse_eq lib width, fun bytes bag hparse hfree => ?_⟩
  rw [Checked.parse_eq, hparse]
  by_cases hfit : Checked.SumsFit width bytes
  · obtain ⟨cells, hrebuilt, hcount, hroots, hne⟩ := rebuilt_of_parse hfit hparse
    obtain ⟨header, -, -, hle, hcells⟩ := exists_header_of_parse hfit.1 hparse
    have hseparated : Separated lib bag.roots :=
      ⟨fun root hroot => hrebuilt.wellFormed root (hroots root hroot), hfree⟩
    have hdistinct := (hrebuilt.distinctCellsOf_le hroots).trans hcount
    simp only [stable_iff hseparated hdistinct hne (hle.trans hcells), hfit, if_true, true_and,
      hrebuilt.sound hroots, forall_const]
  · simp only [hfit, if_false, reduceCtorEq, false_and]

/-- The tree with the shared leaf, where the leaf stands twice. -/
def twoLeavesBytes : List UInt8 :=
  [0xb5, 0xee, 0x9c, 0x72, 0x01, 0x01, 0x04, 0x01, 0x00, 0x0f, 0x00] ++
    [0x02, 0x01, 0xc0, 0x03, 0x01] ++ [0x01, 0x02, 0xff, 0x02] ++ [0x00, 0x01, 0xb0] ++
    [0x00, 0x01, 0xb0]

/-- The equal leaves are merged. -/
theorem network_iff_sample :
    BagOfCells.parse .bits32 sampleHashLib twoLeavesBytes = .ok ⟨[sampleRoot]⟩ ∧
      Checked.parse .bits32 sampleHashLib twoLeavesBytes = some (.ok ⟨[sampleRoot]⟩) ∧
      BagOfCells.Sound ⟨[sampleRoot]⟩ ∧
      ∀ withCrc32c, BagOfCells.Stable .bits32 sampleHashLib ⟨[sampleRoot]⟩ withCrc32c := by
  have hread : readBag .bits32 sampleHashLib twoLeavesBytes (BitReader.new .bits32 twoLeavesBytes) =
      .ok (([⟨[0x80], 1, [3, 1]⟩, ⟨[0xff], 8, [2]⟩, ⟨[0xa0], 3, []⟩, ⟨[0xa0], 3, []⟩], [0]),
        ⟨twoLeavesBytes, 208, 208⟩) := by
    decide +kernel
  have hparse : BagOfCells.parse .bits32 sampleHashLib twoLeavesBytes = .ok ⟨[sampleRoot]⟩ := by
    rw [BagOfCells.parse, hread]
    rfl
  have hpos : 0 < distinctCellsOf [sampleRoot] :=
    Finset.card_pos.mpr ⟨sampleRoot, by simp [cellsOf_singleton, sampleRoot.self_mem_cells]⟩
  exact ⟨hparse, ((network_iff .bits32 sampleHashLib).2 twoLeavesBytes ⟨[sampleRoot]⟩ hparse
    sampleRoot_made.free).2 ⟨by decide +kernel, hpos⟩⟩

/-! ## Sums that do not fit, and two roots that are equal -/

/-- The hash functions at the cell without bits and at a bag of it. -/
def emptyHashLib : HashLib where
  sha256 bytes :=
    if bytes = [0x00, 0x00] then
      Lib.beBytes 32 0x96a296d224f285c67bee93c30f8a309157f0daa35dc5b87e410b78630a09cfc7
    else List.replicate 32 0
  crc32c bytes := if bytes = beBytes 14 0xb5ee9c7241010102000200000000 then 0xe68d4dc9 else 0
  sha256_length bytes := by split_ifs <;> simp

/-- The cell without bits. -/
def emptyCell : Cell :=
  ⟨[], 0, [], 0, Lib.beBytes 32 0x96a296d224f285c67bee93c30f8a309157f0daa35dc5b87e410b78630a09cfc7⟩

/-- A bag of the empty cell that counts `2 ^ 32 - 1` absent cells. -/
def absentBytes : List UInt8 :=
  [0xb5, 0xee, 0x9c, 0x72, 0x04, 0x01] ++ beBytes 4 1 ++ beBytes 4 1 ++ beBytes 4 (2 ^ 32 - 1) ++
    [0x02] ++ beBytes 4 0 ++ [0x00, 0x00]

/-- With pointers of 32 bits the sum of the counts overflows; in a release build it is zero. -/
example : Checked.parse .bits32 emptyHashLib absentBytes = none ∧
    (BagOfCells.parse .bits32 emptyHashLib absentBytes).isOk = true := by
  decide +kernel

/-- A bag of two empty cells, both of them roots. -/
def twoRootsBytes : List UInt8 :=
  [0xb5, 0xee, 0x9c, 0x72, 0x01, 0x01, 0x02, 0x02, 0x00, 0x04, 0x00, 0x01, 0x00, 0x00, 0x00, 0x00]

lemma parse_twoRootsBytes :
    BagOfCells.parse .bits64 emptyHashLib twoRootsBytes = .ok ⟨[emptyCell, emptyCell]⟩ := by
  have hread : readBag .bits64 emptyHashLib twoRootsBytes (BitReader.new .bits64 twoRootsBytes) =
      .ok (([⟨[], 0, []⟩, ⟨[], 0, []⟩], [0, 1]), ⟨twoRootsBytes, 128, 128⟩) := by decide +kernel
  rw [BagOfCells.parse, hread]
  rfl

/-- Two equal roots are written as one cell with two roots, which is rejected. -/
theorem not_stable_two_roots :
    BagOfCells.parse .bits64 emptyHashLib twoRootsBytes = .ok ⟨[emptyCell, emptyCell]⟩ ∧
      (∀ a ∈ cellsOf [emptyCell, emptyCell], ∀ b ∈ cellsOf [emptyCell, emptyCell],
        emptyHashLib.sha256 a.repr = emptyHashLib.sha256 b.repr → a.repr = b.repr) ∧
      ∀ withCrc32c, ¬ BagOfCells.Stable .bits64 emptyHashLib ⟨[emptyCell, emptyCell]⟩ withCrc32c := by
  have hcells : cellsOf [emptyCell, emptyCell] = [emptyCell, emptyCell] := rfl
  have hfree : ∀ a ∈ cellsOf [emptyCell, emptyCell], ∀ b ∈ cellsOf [emptyCell, emptyCell],
      emptyHashLib.sha256 a.repr = emptyHashLib.sha256 b.repr → a.repr = b.repr := by
    intro a ha b hb _
    rw [hcells, List.mem_pair, or_self] at ha hb
    rw [ha, hb]
  refine ⟨parse_twoRootsBytes, hfree, fun withCrc32c hstable => ?_⟩
  obtain ⟨cells, hrebuilt, -, hroots, -⟩ := rebuilt_of_parse (by decide +kernel) parse_twoRootsBytes
  have hseparated : Separated emptyHashLib [emptyCell, emptyCell] :=
    ⟨fun root hroot => hrebuilt.wellFormed root (hroots root hroot), hfree⟩
  have hdistinct : distinctCellsOf [emptyCell, emptyCell] = 1 := by
    rw [distinctCellsOf, hcells]
    simp
  have hle := (stable_iff hseparated (by rw [hdistinct]; decide) (List.cons_ne_nil _ _) (by decide)
    withCrc32c).1 hstable
  rw [hdistinct] at hle
  exact absurd hle (by decide)

end GemCore.Ton

import Mathlib.Data.List.Forall2
import Mathlib.Data.Nat.Digits.Defs

/-!
# Lists with a separator, lists that grow at the end, descending lists

## Main results

* `append_separator_inj` — a separator that is in neither first part tells the parts apart.
* `getElem?_concat_eq_some`, `getElem?_concat_of_eq_some` — the entries of a list with one more.
* `drop_length_append` — the last entries of a list with one more.
* `sum_le_sum_take_of_subperm` — the front of a descending list is worth the most.
* `append_of_splitOnceAt` — the parts of a list at a separator.
* `foldl_reverse_eq_ofDigits` — the number of some digits, read from the highest.
* `length_le_of_spaced` — how many times with a distance fit into a window.
-/

namespace Lib

/-- A property of a list's entries is decided on the list, not on every value of their type. -/
instance (priority := 1100) decidableForallMem {α : Type} {p : α → Prop} [DecidablePred p]
    (l : List α) : Decidable (∀ x ∈ l, p x) :=
  List.decidableBAll p l

/-- So is a property of the value there may be. -/
instance (priority := 1100) decidableForallMemOption {α : Type} {p : α → Prop} [DecidablePred p]
    (o : Option α) : Decidable (∀ x ∈ o, p x) :=
  Option.decidableForallMem o

variable {α : Type} {l : List α} {x a : α} {i : ℕ}

/-- Two lists with a separator behind their first part. -/
lemma append_separator_inj {c : α} {a b x y : List α} (ha : c ∉ a) (hb : c ∉ b) :
    a ++ c :: x = b ++ c :: y ↔ a = b ∧ x = y := by
  induction a generalizing b with
  | nil =>
    cases b with
    | nil => simp
    | cons d b => simp [(List.ne_of_not_mem_cons hb)]
  | cons d a ih =>
    cases b with
    | nil => simp [(List.ne_of_not_mem_cons ha).symm]
    | cons e b =>
      have hab := ih (List.not_mem_of_not_mem_cons ha) (List.not_mem_of_not_mem_cons hb)
      simp only [List.cons_append, List.cons.injEq, hab, and_assoc]

/-- An entry of a list with one more. -/
lemma getElem?_concat_eq_some (h : (l ++ [x])[i]? = some a) :
    l[i]? = some a ∨ i = l.length ∧ a = x := by
  have hi : i < (l ++ [x]).length := (List.getElem?_eq_some_iff.mp h).1
  rw [List.length_append, List.length_singleton] at hi
  rcases Nat.lt_succ_iff_lt_or_eq.mp hi with hi | rfl
  · rw [List.getElem?_append_left hi] at h
    exact .inl h
  · rw [List.getElem?_concat_length] at h
    exact .inr ⟨rfl, (Option.some.inj h).symm⟩

/-- An entry stays where it is. -/
lemma getElem?_concat_of_eq_some (h : l[i]? = some a) : (l ++ [x])[i]? = some a := by
  rw [List.getElem?_append_left (List.getElem?_eq_some_iff.mp h).1, h]

/-- What an entry of one of two related lists is related to. -/
lemma exists_getElem?_of_forall₂ {β : Type} {r : α → β → Prop} {l' : List β}
    (h : List.Forall₂ r l l') {b : β} (hb : l'[i]? = some b) :
    ∃ a, l[i]? = some a ∧ r a b := by
  obtain ⟨hi, rfl⟩ := List.getElem?_eq_some_iff.mp hb
  have hi' : i < l.length := h.length_eq ▸ hi
  exact ⟨l[i], List.getElem?_eq_getElem hi', h.get hi' hi⟩

/-- Elements at one place are a pair. -/
lemma getElem_mem_zip {β : Type} {l : List α} {l' : List β} {i : ℕ} (h : i < l.length)
    (h' : i < l'.length) : (l[i], l'[i]) ∈ l.zip l' := by
  refine List.mem_of_getElem? (i := i) ?_
  rw [List.getElem?_zip_eq_some]
  exact ⟨List.getElem?_eq_getElem h, List.getElem?_eq_getElem h'⟩

/-- What an element of the second of two related lists is related to. -/
lemma exists_mem_of_forall₂ {β : Type} {r : α → β → Prop} {l' : List β}
    (h : List.Forall₂ r l l') {b : β} (hb : b ∈ l') : ∃ a ∈ l, r a b := by
  obtain ⟨i, hi, rfl⟩ := List.getElem_of_mem hb
  have hi' : i < l.length := h.length_eq ▸ hi
  exact ⟨l[i], List.getElem_mem hi', h.get hi' hi⟩

/-- The last entries of a list after one more. -/
lemma drop_length_append (l : List α) (x : α) {n : ℕ} (hn : 0 < n) :
    (l ++ [x]).drop ((l ++ [x]).length - n)
      = (if (l.drop (l.length - n)).length ≥ n then (l.drop (l.length - n)).tail
          else l.drop (l.length - n)) ++ [x] := by
  have hlen : (l.drop (l.length - n)).length = min n l.length := by
    rw [List.length_drop]
    omega
  rw [hlen]
  by_cases h : n ≤ l.length
  · rw [if_pos (by omega), List.tail_drop, List.drop_append_of_le_length
      (by rw [List.length_append, List.length_singleton]; omega)]
    congr 2
    rw [List.length_append, List.length_singleton]
    omega
  · rw [if_neg (by omega), List.drop_append_of_le_length
      (by rw [List.length_append, List.length_singleton]; omega)]
    congr 2
    rw [List.length_append, List.length_singleton]
    omega

/-- Of a list in descending order no sublist is worth more than as many elements at the front.

**Proof sketch.** Induction on the list. A sublist that leaves the first element out has one that
is not larger in its place, and the rest of the sublist is bounded by the induction. -/
theorem sum_le_sum_take_of_sublist {l s : List ℕ} (hl : l.Pairwise (· ≥ ·)) (h : s.Sublist l) :
    s.sum ≤ (l.take s.length).sum := by
  induction l generalizing s with
  | nil =>
    rw [List.sublist_nil.mp h]
    exact Nat.zero_le _
  | cons x l ih =>
    obtain ⟨hx, hl⟩ := List.pairwise_cons.mp hl
    cases s with
    | nil => exact Nat.zero_le _
    | cons y s =>
      have hrest : s.Sublist l := h.tail
      have hy : y ≤ x := by
        cases h with
        | cons _ h => exact hx y (h.subset List.mem_cons_self)
        | cons_cons _ _ => exact Nat.le_refl _
      have hsum := ih hl hrest
      rw [List.length_cons, List.take_succ_cons, List.sum_cons, List.sum_cons]
      omega

/-- The same for any choice of elements. -/
lemma sum_le_sum_take_of_subperm {l s : List ℕ} (hl : l.Pairwise (· ≥ ·)) (h : s.Subperm l) :
    s.sum ≤ (l.take s.length).sum := by
  obtain ⟨s', hperm, hsub⟩ := h
  rw [← hperm.sum_nat, ← hperm.length_eq]
  exact sum_le_sum_take_of_sublist hl hsub

/-- The parts of a list before and behind the first place where a separator of several entries
stands. -/
def splitOnceAt [DecidableEq α] (separator : List α) : List α → Option (List α × List α)
  | [] => if separator = [] then some ([], []) else none
  | x :: l =>
    if separator.isPrefixOf (x :: l) then some ([], (x :: l).drop separator.length)
    else (splitOnceAt separator l).map fun parts => (x :: parts.1, parts.2)

/-- The parts and the separator between them are the list. -/
lemma append_of_splitOnceAt [DecidableEq α] {separator before after : List α}
    (h : splitOnceAt separator l = some (before, after)) : l = before ++ separator ++ after := by
  induction l generalizing before with
  | nil =>
    rw [splitOnceAt] at h
    split at h
    case isTrue hnil =>
      obtain ⟨rfl, rfl⟩ := Prod.mk.inj (Option.some.inj h)
      rw [hnil, List.append_nil, List.append_nil]
    case isFalse => cases h
  | cons y l ih =>
    rw [splitOnceAt] at h
    split at h
    case isTrue hstart =>
      obtain ⟨rfl, rfl⟩ := Prod.mk.inj (Option.some.inj h)
      obtain ⟨rest, hrest⟩ := List.isPrefixOf_iff_prefix.mp hstart
      rw [List.nil_append, ← hrest, List.drop_left]
    case isFalse =>
      obtain ⟨⟨front, back⟩, hsplit, heq⟩ := Option.map_eq_some_iff.mp h
      obtain ⟨rfl, rfl⟩ := Prod.mk.inj heq
      rw [ih hsplit]
      rfl

/-- The number some digits denote, read from the highest. -/
lemma foldl_reverse_eq_ofDigits (base : ℕ) (digits : List ℕ) :
    digits.reverse.foldl (fun acc d => acc * base + d) 0 = Nat.ofDigits base digits := by
  rw [List.foldl_reverse, Nat.ofDigits_eq_foldr]
  congr 1
  funext d acc
  rw [Nat.add_comm, Nat.mul_comm]
  rfl

/-- Times that keep a distance, from the first to the last. -/
lemma add_mul_le_of_spaced {width last first : ℕ} {times : List ℕ}
    (h : (first :: times).Pairwise fun a b => a + width ≤ b)
    (hlast : ∀ t ∈ first :: times, t ≤ last) : first + width * times.length ≤ last := by
  induction times generalizing first with
  | nil => simpa using hlast first List.mem_cons_self
  | cons next times ih =>
    obtain ⟨hfirst, hrest⟩ := List.pairwise_cons.mp h
    have hnext := ih hrest fun t ht => hlast t (List.mem_cons_of_mem _ ht)
    have hstep := hfirst next List.mem_cons_self
    rw [List.length_cons, Nat.mul_succ]
    omega

/-- **As many times as fit into a window** if they keep a distance. -/
theorem length_le_of_spaced {width window now : ℕ} (hwidth : 0 < width) {times : List ℕ}
    (h : times.Pairwise fun a b => a + width ≤ b) (hnow : ∀ t ∈ times, t ≤ now)
    (hwindow : ∀ t ∈ times, now < t + window) :
    times.length ≤ (window - 1) / width + 1 := by
  cases times with
  | nil => exact Nat.zero_le _
  | cons first times =>
    have hspan := add_mul_le_of_spaced h hnow
    have hfirst := hwindow first List.mem_cons_self
    rw [List.length_cons, Nat.add_le_add_iff_right, Nat.le_div_iff_mul_le hwidth, Nat.mul_comm]
    omega

/-- The least element does not depend on the order. -/
lemma min?_perm {l l' : List ℤ} (h : l.Perm l') : l.min? = l'.min? := by
  refine Option.ext fun a => ?_
  simp only [List.min?_eq_some_iff, h.mem_iff]

/-- The greatest element does not depend on the order. -/
lemma max?_perm {l l' : List ℤ} (h : l.Perm l') : l.max? = l'.max? := by
  refine Option.ext fun a => ?_
  simp only [List.max?_eq_some_iff, h.mem_iff]

/-- That one element has a property and all others another one, read off the front. -/
theorem exists_split_cons_iff {α : Type} {P Q : α → Prop} {a : α} {l : List α} :
    (∃ before x after, a :: l = before ++ x :: after ∧ (∀ y ∈ before ++ after, P y) ∧ Q x) ↔
      (Q a ∧ ∀ y ∈ l, P y) ∨
      P a ∧ ∃ before x after, l = before ++ x :: after ∧ (∀ y ∈ before ++ after, P y) ∧ Q x := by
  constructor
  · rintro ⟨before, x, after, hl, hP, hQ⟩
    cases before with
    | nil =>
      cases hl
      exact .inl ⟨hQ, hP⟩
    | cons b before =>
      cases hl
      obtain ⟨hb, hP⟩ := List.forall_mem_cons.1 hP
      exact .inr ⟨hb, before, x, after, rfl, hP, hQ⟩
  · rintro (⟨hQ, hP⟩ | ⟨hPa, before, x, after, rfl, hP, hQ⟩)
    · exact ⟨[], a, l, rfl, hP, hQ⟩
    · exact ⟨a :: before, x, after, rfl, List.forall_mem_cons.2 ⟨hPa, hP⟩, hQ⟩

end Lib

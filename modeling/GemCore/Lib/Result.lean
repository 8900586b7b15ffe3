import Mathlib.Data.List.Perm.Subperm

/-!
# Fallible computations

`Except` as the result type of a program that can fail: how a successful run of a bind is
taken apart, and the loop that applies a fallible function to every element of a list and
stops at the first failure.

## Main definitions

* `okOr` — an optional value, or an error.
* `tryMap` — apply a fallible function to each element, left to right.

## Main results

* `bind_eq_ok_iff` — a bind succeeds iff both halves do.
* `tryMap_eq_ok_iff` — `tryMap` succeeds with `l'` iff the function succeeds pointwise.
* `tryMap_subperm` — part of the results comes from a part of the arguments.
-/

namespace Lib

variable {ε α β : Type}

/-- A bind succeeds exactly when its first half succeeds and the second half succeeds on
the value it returned. -/
theorem bind_eq_ok_iff {x : Except ε α} {f : α → Except ε β} {b : β} :
    (x >>= f) = .ok b ↔ ∃ a, x = .ok a ∧ f a = .ok b := by
  cases x with
  | error e | ok a => simp [bind, Except.bind]

lemma ok_bind {a : α} {f : α → Except ε β} : (Except.ok a >>= f) = f a := rfl

/-- A bind does not fail in a way in which neither half fails. -/
lemma bind_ne_error {x : Except ε α} {f : α → Except ε β} {e : ε} (hx : x ≠ .error e)
    (hf : ∀ a, x = .ok a → f a ≠ .error e) : (x >>= f) ≠ .error e := by
  cases x with
  | error e' => exact fun h => hx (by rw [Except.error.inj h])
  | ok a => exact hf a rfl

/-- A bind that fails in a way in which its first half does not fail in its second half. -/
theorem exists_of_bind_eq_error {x : Except ε α} {f : α → Except ε β} {e : ε} (hx : x ≠ .error e)
    (h : (x >>= f) = .error e) : ∃ a, x = .ok a ∧ f a = .error e := by
  cases x with
  | error e' => exact absurd (by rw [Except.error.inj h]) hx
  | ok a => exact ⟨a, rfl, h⟩

/-- A guard in front of a computation succeeds exactly when it does not fire and the
computation succeeds. -/
theorem guard_eq_ok_iff {p : Prop} [Decidable p] {e : ε} {x : Except ε β} {b : β} :
    (if p then .error e else x) = .ok b ↔ ¬p ∧ x = .ok b := by
  by_cases h : p <;> simp [h]

/-- `Option::ok_or`: an absent value is the error `e`. -/
def okOr (o : Option α) (e : ε) : Except ε α := o.elim (.error e) .ok

@[simp] lemma okOr_some {a : α} {e : ε} : okOr (some a) e = .ok a := rfl

lemma okOr_eq_ok_iff {o : Option α} {e : ε} {a : α} : okOr o e = .ok a ↔ o = some a := by
  cases o <;> simp [okOr]

/-- A result that is changed. -/
lemma map_eq_ok_iff {x : Except ε α} {f : α → β} {b : β} :
    x.map f = .ok b ↔ ∃ a, x = .ok a ∧ f a = b := by
  cases x <;> simp [Except.map]

/-- Translating the error does not change when a computation succeeds. -/
lemma mapError_eq_ok_iff {ε' : Type} {x : Except ε α} {f : ε → ε'} {a : α} :
    x.mapError f = .ok a ↔ x = .ok a := by
  cases x <;> simp [Except.mapError]

lemma mapError_ok {ε' : Type} {a : α} {f : ε → ε'} :
    (Except.ok a : Except ε α).mapError f = .ok a := rfl

/-- A check returns nothing, so only whether it succeeds matters. -/
lemma check_bind_eq_ok_iff {x : Except ε Unit} {f : Unit → Except ε β} {b : β} :
    (x >>= f) = .ok b ↔ x = .ok () ∧ f () = .ok b := by
  rw [bind_eq_ok_iff]
  exact ⟨fun ⟨_, h⟩ => h, fun h => ⟨(), h⟩⟩

/-- Apply a fallible function to every element, left to right, stopping at the first
failure. -/
def tryMap (f : α → Except ε β) : List α → Except ε (List β)
  | [] => .ok []
  | a :: l => do
    let b ← f a
    let l' ← tryMap f l
    .ok (b :: l')

/-- `tryMap` succeeds exactly when the function succeeds on every element, in order. -/
theorem tryMap_eq_ok_iff {f : α → Except ε β} {l : List α} {l' : List β} :
    tryMap f l = .ok l' ↔ List.Forall₂ (fun a b => f a = .ok b) l l' := by
  induction l generalizing l' with
  | nil => cases l' <;> simp [tryMap]
  | cons a l ih =>
    cases l' with
    | nil =>
      simp only [tryMap, bind_eq_ok_iff]
      simp
    | cons b l' =>
      simp only [tryMap, bind_eq_ok_iff, Except.ok.injEq, List.cons.injEq,
        List.forall₂_cons, ← ih]
      constructor
      · rintro ⟨b', hb, l'', hl, rfl, rfl⟩
        exact ⟨hb, hl⟩
      · rintro ⟨hb, hl⟩
        exact ⟨b, hb, l', hl, rfl, rfl⟩

/-- `tryMap` succeeds if the function succeeds everywhere. -/
lemma exists_tryMap_iff {f : α → Except ε β} {l : List α} :
    (∃ l', tryMap f l = .ok l') ↔ ∀ a ∈ l, ∃ b, f a = .ok b := by
  constructor
  · rintro ⟨l', h⟩ a ha
    obtain ⟨i, hi, rfl⟩ := List.getElem_of_mem ha
    have hall := tryMap_eq_ok_iff.mp h
    exact ⟨_, hall.get hi (hall.length_eq ▸ hi)⟩
  · intro h
    induction l with
    | nil => exact ⟨[], rfl⟩
    | cons a l ih =>
      obtain ⟨b, hb⟩ := h a List.mem_cons_self
      obtain ⟨l', hl'⟩ := ih fun a' ha' => h a' (List.mem_cons_of_mem a ha')
      exact ⟨b :: l', by rw [tryMap, hb, ok_bind, hl', ok_bind]⟩

/-- What each result of `tryMap` is the result of. -/
lemma exists_mem_of_tryMap {f : α → Except ε β} {l : List α} {l' : List β}
    (h : tryMap f l = .ok l') {b : β} (hb : b ∈ l') : ∃ a ∈ l, f a = .ok b := by
  obtain ⟨i, hi, rfl⟩ := List.getElem_of_mem hb
  have hall := tryMap_eq_ok_iff.mp h
  have hi' : i < l.length := hall.length_eq ▸ hi
  exact ⟨l[i], List.getElem_mem hi', hall.get hi' hi⟩

/-- What two passes do of an element, the second with the results of the first. -/
theorem forall₂_of_tryMap_zip {γ : Type} {f : α → Except ε β} {g : α → β → Except ε γ} {l : List α}
    {l' : List β} {l'' : List γ} (h : tryMap f l = .ok l')
    (h' : tryMap (fun pair => g pair.1 pair.2) (l.zip l') = .ok l'') :
    List.Forall₂ (fun a c => ∃ b, f a = .ok b ∧ g a b = .ok c) l l'' := by
  have hall := tryMap_eq_ok_iff.mp h
  have hall' := tryMap_eq_ok_iff.mp h'
  clear h h'
  induction hall generalizing l'' with
  | nil =>
    cases hall'
    exact .nil
  | cons hf _ ih =>
    cases hall' with
    | cons hg hrest => exact .cons ⟨_, hf, hg⟩ (ih hrest)

/-- `tryMap` of a function that succeeds everywhere. -/
lemma tryMap_eq_map {f : α → Except ε β} {g : α → β} {l : List α}
    (h : ∀ a ∈ l, f a = .ok (g a)) : tryMap f l = .ok (l.map g) := by
  induction l with
  | nil => rfl
  | cons a l ih =>
    rw [tryMap, h a List.mem_cons_self, ok_bind, ih fun b hb => h b (List.mem_cons_of_mem _ hb)]
    rfl

/-- `tryMap` does not fail in a way in which the function does not fail. -/
lemma tryMap_ne_error {f : α → Except ε β} {l : List α} {e : ε}
    (h : ∀ a ∈ l, f a ≠ .error e) : tryMap f l ≠ .error e := by
  induction l with
  | nil => exact fun h => nomatch h
  | cons a l ih =>
    refine bind_ne_error (h a List.mem_cons_self) fun b _ => ?_
    exact bind_ne_error (ih fun a' ha' => h a' (List.mem_cons_of_mem _ ha')) fun _ _ h => nomatch h

/-- A sublist of the results of `tryMap` is the result of `tryMap` on a sublist. -/
theorem tryMap_sublist {f : α → Except ε β} {l : List α} {m m' : List β}
    (h : tryMap f l = .ok m) (hs : m'.Sublist m) :
    ∃ l', l'.Sublist l ∧ tryMap f l' = .ok m' := by
  simp only [tryMap_eq_ok_iff] at h ⊢
  induction h generalizing m' with
  | nil =>
    obtain rfl := List.sublist_nil.mp hs
    exact ⟨[], List.Sublist.refl _, .nil⟩
  | @cons a b l m hab _ ih =>
    cases hs with
    | cons _ hs =>
      obtain ⟨l', hl', hf⟩ := ih hs
      exact ⟨l', hl'.cons a, hf⟩
    | cons_cons _ hs =>
      obtain ⟨l', hl', hf⟩ := ih hs
      exact ⟨a :: l', hl'.cons_cons a, .cons hab hf⟩

/-- A permutation of the results of `tryMap` is the result of `tryMap` on a permutation. -/
theorem tryMap_perm {f : α → Except ε β} {l : List α} {m m' : List β}
    (h : tryMap f l = .ok m) (hp : m'.Perm m) :
    ∃ l', l'.Perm l ∧ tryMap f l' = .ok m' := by
  simp only [tryMap_eq_ok_iff] at h ⊢
  obtain ⟨l', hf, hl'⟩ := List.perm_comp_forall₂ hp h.flip
  exact ⟨l', hl', hf.flip⟩

/-- Part of the results of `tryMap` comes from a part of the arguments, each taken at most
as often as it occurs. -/
theorem tryMap_subperm {f : α → Except ε β} {l : List α} {m m' : List β}
    (h : tryMap f l = .ok m) (hs : m'.Subperm m) :
    ∃ l', l'.Subperm l ∧ tryMap f l' = .ok m' := by
  obtain ⟨s, hp, hsub⟩ := hs
  obtain ⟨l₁, hl₁, hf₁⟩ := tryMap_sublist h hsub
  obtain ⟨l₂, hl₂, hf₂⟩ := tryMap_perm hf₁ hp.symm
  exact ⟨l₂, hl₂.subperm.trans hl₁.subperm, hf₂⟩

/-- A list that is read element by element. -/
lemma mapM_eq_some_of_forall₂ {α β γ : Type} {f : α → Option β} {g : γ → β} {l : List α}
    {l' : List γ} (h : List.Forall₂ (fun a c => f a = some (g c)) l l') :
    l.mapM f = some (l'.map g) := by
  induction h with
  | nil => rfl
  | cons hfirst _ ih => simp [List.mapM_cons, hfirst, ih]

/-- Reading element by element keeps the length. -/
lemma length_of_mapM_eq_some {α β : Type} {f : α → Option β} {l : List α} {l' : List β}
    (h : l.mapM f = some l') : l'.length = l.length := by
  induction l generalizing l' with
  | nil =>
    cases h
    rfl
  | cons a l ih =>
    rw [List.mapM_cons] at h
    obtain ⟨b, -, h⟩ := Option.bind_eq_some_iff.mp h
    obtain ⟨rest, hrest, h⟩ := Option.bind_eq_some_iff.mp h
    cases h
    rw [List.length_cons, List.length_cons, ih hrest]

lemma toOption_eq_some_iff {ε α : Type} {x : Except ε α} {a : α} :
    x.toOption = some a ↔ x = .ok a := by
  cases x <;> simp [Except.toOption]

/-- The element at a position of a mapped list. -/
lemma getElem?_of_mapM_eq_some {α β : Type} {f : α → Option β} {l : List α} {l' : List β}
    (h : l.mapM f = some l') {n : ℕ} {a : α} (ha : l[n]? = some a) :
    ∃ b, f a = some b ∧ l'[n]? = some b := by
  induction l generalizing l' n with
  | nil => simp at ha
  | cons first l ih =>
    rw [List.mapM_cons] at h
    obtain ⟨b, hb, h⟩ := Option.bind_eq_some_iff.1 h
    obtain ⟨rest, hrest, h⟩ := Option.bind_eq_some_iff.1 h
    cases h
    cases n with
    | zero =>
      cases ha
      exact ⟨b, hb, rfl⟩
    | succ n => exact ih hrest ha

end Lib

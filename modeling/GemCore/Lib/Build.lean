import Mathlib.Data.List.Forall2

/-!
# Computations that add to a state

Computations over a state that may fail, as of a program that calls a builder. What such a program
has found out about the state stays true when the state is only added to.

## Main definitions

* `Build` — the computations.
* `Build.collect` — one computation for each entry of a list, from left to right, up to the first
  that fails.
* `Build.Grows` — a computation that only appends to its state.

## Main results

* `Build.bind_eq_ok_iff` — a run of two parts.
* `Build.collect_spec` — what holds of each entry's result after the whole list.
* `Build.exists_collect` — a list of which no entry fails.
* `Build.Grows.bind` — computations that only append to a list.
-/

namespace Lib

/-- A computation over a state that may fail. -/
abbrev Build (σ ε α : Type) : Type := StateT σ (Except ε) α

namespace Build

variable {σ ε α β : Type}

/-- A computation that does not touch the state. -/
def ofExcept (x : Except ε α) : Build σ ε α := fun s => x.map fun a => (a, s)

/-- A change of the state that does not fail. -/
def update (f : σ → α × σ) : Build σ ε α := fun s => .ok (f s)

/-- A run of two parts. -/
lemma bind_eq_ok_iff {x : Build σ ε α} {f : α → Build σ ε β} {s s'' : σ} {b : β} :
    (x >>= f) s = .ok (b, s'') ↔ ∃ a s', x s = .ok (a, s') ∧ f a s' = .ok (b, s'') := by
  show (x s >>= fun p => f p.1 p.2) = _ ↔ _
  cases x s with
  | error e =>
    constructor
    · intro h
      cases h
    · rintro ⟨a, s', h, -⟩
      cases h
  | ok p =>
    constructor
    · intro h
      exact ⟨p.1, p.2, rfl, h⟩
    · rintro ⟨a, s', h, hf⟩
      obtain rfl := Except.ok.inj h
      exact hf

lemma ofExcept_eq_ok_iff {x : Except ε α} {s s' : σ} {a : α} :
    ofExcept x s = .ok (a, s') ↔ x = .ok a ∧ s' = s := by
  cases x with
  | error e =>
    constructor
    · intro h
      cases h
    · rintro ⟨h, -⟩
      cases h
  | ok b =>
    constructor
    · intro h
      obtain ⟨rfl, rfl⟩ := Prod.mk.inj (Except.ok.inj h)
      exact ⟨rfl, rfl⟩
    · rintro ⟨h, rfl⟩
      obtain rfl := Except.ok.inj h
      rfl

/-- A run that starts with something that does not touch the state. -/
lemma ofExcept_bind_eq_ok_iff {x : Except ε α} {f : α → Build σ ε β} {s s'' : σ} {b : β} :
    (ofExcept x >>= f) s = .ok (b, s'') ↔ ∃ a, x = .ok a ∧ f a s = .ok (b, s'') := by
  rw [bind_eq_ok_iff]
  constructor
  · rintro ⟨a, s', hrun, hf⟩
    obtain ⟨hx, rfl⟩ := ofExcept_eq_ok_iff.mp hrun
    exact ⟨a, hx, hf⟩
  · rintro ⟨a, hx, hf⟩
    exact ⟨a, s, ofExcept_eq_ok_iff.mpr ⟨hx, rfl⟩, hf⟩

lemma update_eq_ok_iff {f : σ → α × σ} {s s' : σ} {a : α} :
    (update f : Build σ ε α) s = .ok (a, s') ↔ f s = (a, s') :=
  ⟨Except.ok.inj, fun h => congrArg Except.ok h⟩

lemma pure_eq_ok_iff {s s' : σ} {a b : α} :
    (pure a : Build σ ε α) s = .ok (b, s') ↔ a = b ∧ s = s' := by
  constructor
  · intro h
    exact Prod.mk.inj (Except.ok.inj h)
  · rintro ⟨rfl, rfl⟩
    rfl

/-- One computation for each entry of a list, from left to right. -/
def collect (f : α → Build σ ε β) : List α → Build σ ε (List β)
  | [] => pure []
  | a :: l => do
    let b ← f a
    let rest ← collect f l
    pure (b :: rest)

/-- **What holds of each result after the whole list**: each computation only adds to the state, and
what it finds out stays true when the state is added to. -/
theorem collect_spec {f : α → Build σ ε β} (inv : σ → Prop) (grows : σ → σ → Prop)
    (found : σ → α → β → Prop) (hrefl : ∀ s, grows s s)
    (htrans : ∀ s s' s'', grows s s' → grows s' s'' → grows s s'')
    (hkeep : ∀ s s' a b, grows s s' → found s a b → found s' a b)
    {l : List α}
    (hstep : ∀ a ∈ l, ∀ s b s', inv s → f a s = .ok (b, s') → inv s' ∧ grows s s' ∧ found s' a b)
    {s s' : σ} {results : List β} (hinv : inv s) (h : collect f l s = .ok (results, s')) :
    inv s' ∧ grows s s' ∧ List.Forall₂ (found s') l results := by
  induction l generalizing s results with
  | nil =>
    obtain ⟨rfl, rfl⟩ := pure_eq_ok_iff.mp h
    exact ⟨hinv, hrefl s, .nil⟩
  | cons a l ih =>
    obtain ⟨b, s₁, hb, h⟩ := bind_eq_ok_iff.mp h
    obtain ⟨rest, s₂, hrest, h⟩ := bind_eq_ok_iff.mp h
    obtain ⟨rfl, rfl⟩ := pure_eq_ok_iff.mp h
    obtain ⟨hinv₁, hgrows₁, hfound⟩ := hstep a List.mem_cons_self s b s₁ hinv hb
    obtain ⟨hinv₂, hgrows₂, hall⟩ :=
      ih (fun x hx => hstep x (List.mem_cons_of_mem a hx)) hinv₁ hrest
    exact ⟨hinv₂, htrans _ _ _ hgrows₁ hgrows₂, .cons (hkeep _ _ _ _ hgrows₂ hfound) hall⟩

/-- A list of which no entry fails. -/
lemma exists_collect {f : α → Build σ ε β} (inv : σ → Prop) {l : List α}
    (hstep : ∀ a ∈ l, ∀ s, inv s → ∃ b s', f a s = .ok (b, s') ∧ inv s') {s : σ} (hinv : inv s) :
    ∃ results s', collect f l s = .ok (results, s') ∧ inv s' := by
  induction l generalizing s with
  | nil => exact ⟨[], s, rfl, hinv⟩
  | cons a l ih =>
    obtain ⟨b, s₁, hb, hinv₁⟩ := hstep a List.mem_cons_self s hinv
    obtain ⟨rest, s₂, hrest, hinv₂⟩ :=
      ih (fun x hx => hstep x (List.mem_cons_of_mem a hx)) hinv₁
    exact ⟨b :: rest, s₂,
      bind_eq_ok_iff.mpr ⟨b, s₁, hb, bind_eq_ok_iff.mpr ⟨rest, s₂, hrest, rfl⟩⟩, hinv₂⟩

/-! ### Computations that append -/

/-- The state is a list, and is only appended to. -/
def Grows {τ : Type} (x : Build (List τ) ε α) : Prop :=
  ∀ s a s', x s = .ok (a, s') → s <+: s'

section Grows

variable {τ : Type}

lemma Grows.bind {x : Build (List τ) ε α} {f : α → Build (List τ) ε β} (hx : Grows x)
    (hf : ∀ a, Grows (f a)) : Grows (x >>= f) := by
  intro s b s'' h
  obtain ⟨a, s', hrun, hf'⟩ := bind_eq_ok_iff.mp h
  exact (hx s a s' hrun).trans (hf a s' b s'' hf')

lemma grows_pure (a : α) : Grows (pure a : Build (List τ) ε α) := by
  intro s b s' h
  obtain ⟨-, rfl⟩ := pure_eq_ok_iff.mp h
  exact List.prefix_refl s

lemma grows_ofExcept (x : Except ε α) : Grows (ofExcept x : Build (List τ) ε α) := by
  intro s b s' h
  obtain ⟨-, rfl⟩ := ofExcept_eq_ok_iff.mp h
  exact List.prefix_refl s'

lemma grows_update {f : List τ → α × List τ} (h : ∀ s, s <+: (f s).2) :
    Grows (update f : Build (List τ) ε α) := by
  intro s a s' hrun
  have hprefix := h s
  rwa [update_eq_ok_iff.mp hrun] at hprefix

end Grows

end Build

end Lib

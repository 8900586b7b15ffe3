import Mathlib.Data.Nat.Notation

/-!
# Systems driven by events

A system is a partial step function: in a given state an event is possible, and leads to the next
state, or it is not. What several parties do at the same time is then a list of events, one for
each atomic step of one of them, and what holds under every interleaving is what holds along
every list.

## Main definitions

* `runEvents` — the state after a list of events.
* `Along` — every event of a list meets a condition in the state it happens in.

## Main results

* `runEvents_invariant` — what every step keeps holds in every state reached.
* `runEvents_related` — a preorder that every step is in relates the ends of every run.
* `along_of_along` — conditions on steps are compared under an invariant.
-/

namespace Lib

variable {σ ε : Type} {step : σ → ε → Option σ}

/-- The state after a list of events, if each of them is possible in its turn. -/
def runEvents (step : σ → ε → Option σ) : σ → List ε → Option σ
  | s, [] => some s
  | s, e :: es => (step s e).bind fun s' => runEvents step s' es

/-- Every event of a list meets `P` in the state it happens in. -/
def Along (step : σ → ε → Option σ) (P : σ → ε → Prop) : σ → List ε → Prop
  | _, [] => True
  | s, e :: es => P s e ∧ ∀ s', step s e = some s' → Along step P s' es

/-- A condition along a run is checked event by event. -/
instance Along.decidable {P : σ → ε → Prop} [∀ s e, Decidable (P s e)] :
    ∀ (s : σ) (es : List ε), Decidable (Along step P s es)
  | _, [] => inferInstanceAs (Decidable True)
  | s, e :: es =>
    have := fun s' => Along.decidable (P := P) s' es
    inferInstanceAs (Decidable (P s e ∧ ∀ s' ∈ step s e, Along step P s' es))

@[simp] lemma runEvents_nil (s : σ) : runEvents step s [] = some s := rfl

lemma runEvents_cons_eq_some {s s' : σ} {e : ε} {es : List ε} :
    runEvents step s (e :: es) = some s' ↔
      ∃ s₁, step s e = some s₁ ∧ runEvents step s₁ es = some s' := by
  simp [runEvents, Option.bind_eq_some_iff]

/-- A condition that every event meets in every state. -/
lemma Along.of_forall {P : σ → ε → Prop} (h : ∀ s e, P s e) (s : σ) (es : List ε) :
    Along step P s es := by
  induction es generalizing s with
  | nil => trivial
  | cons e es ih => exact ⟨h s e, fun s' _ => ih s'⟩

/-- A condition along a run, one event at a time. -/
lemma Along.cons {P : σ → ε → Prop} {s s₁ : σ} {e : ε} {es : List ε} (hP : P s e)
    (hstep : step s e = some s₁) (h : Along step P s₁ es) : Along step P s (e :: es) := by
  refine ⟨hP, fun s' hs' => ?_⟩
  rw [hstep] at hs'
  cases hs'
  exact h

/-- A condition along a run holds along its second part. -/
lemma Along.of_append {P : σ → ε → Prop} {s s' : σ} {es es' : List ε}
    (h : Along step P s (es ++ es')) (hrun : runEvents step s es = some s') :
    Along step P s' es' := by
  induction es generalizing s with
  | nil =>
    cases hrun
    exact h
  | cons e es ih =>
    obtain ⟨s₁, hstep, hrest⟩ := runEvents_cons_eq_some.mp hrun
    exact ih (h.2 s₁ hstep) hrest

/-- A condition along a run holds along its first part. -/
lemma Along.left_of_append {P : σ → ε → Prop} {s : σ} {es es' : List ε}
    (h : Along step P s (es ++ es')) : Along step P s es := by
  induction es generalizing s with
  | nil => trivial
  | cons e es ih => exact ⟨h.1, fun s' hs' => ih (h.2 s' hs')⟩

/-- What every step keeps, if the condition on the step is met, holds in every state reached. -/
theorem runEvents_invariant {I : σ → Prop} {P : σ → ε → Prop}
    (hstep : ∀ s e s', I s → P s e → step s e = some s' → I s') {s s' : σ} {es : List ε}
    (hI : I s) (hP : Along step P s es) (hrun : runEvents step s es = some s') : I s' := by
  induction es generalizing s with
  | nil =>
    cases hrun
    exact hI
  | cons e es ih =>
    obtain ⟨s₁, hs₁, hrest⟩ := runEvents_cons_eq_some.mp hrun
    exact ih (hstep s e s₁ hI hP.1 hs₁) (hP.2 s₁ hs₁) hrest

/-- A condition on steps follows from another one along every run, if it does so at each step
under an invariant. -/
theorem along_of_along {I : σ → Prop} {P Q : σ → ε → Prop}
    (hstep : ∀ s e s', I s → P s e → step s e = some s' → I s')
    (hPQ : ∀ s e, I s → P s e → Q s e) {s : σ} {es : List ε} (hI : I s)
    (hP : Along step P s es) : Along step Q s es := by
  induction es generalizing s with
  | nil => trivial
  | cons e es ih =>
    exact ⟨hPQ s e hI hP.1, fun s' hs' => ih (hstep s e s' hI hP.1 hs') (hP.2 s' hs')⟩

/-- A preorder that every step is in relates the ends of every run. -/
lemma runEvents_related {R : σ → σ → Prop} (hrefl : ∀ s, R s s)
    (htrans : ∀ s₁ s₂ s₃, R s₁ s₂ → R s₂ s₃ → R s₁ s₃) {s s' : σ} {es : List ε}
    (hR : Along step (fun s e => ∀ s', step s e = some s' → R s s') s es)
    (hrun : runEvents step s es = some s') : R s s' := by
  induction es generalizing s with
  | nil =>
    cases hrun
    exact hrefl _
  | cons e es ih =>
    obtain ⟨s₁, hs₁, hrest⟩ := runEvents_cons_eq_some.mp hrun
    exact htrans _ _ _ (hR.1 s₁ hs₁) (ih (hR.2 s₁ hs₁) hrest)

end Lib

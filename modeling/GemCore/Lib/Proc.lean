import Mathlib.Data.Nat.Notation

/-!
# Programs whose calls may fail or be cut off

A program over a state, made of atomic calls. A schedule says for each call in turn whether
it takes effect, fails with a message, or never returns because the process stops there; a
call that does not take effect leaves the state as it was. Once the schedule is used up every
call takes effect, so the empty schedule is the undisturbed run.

Three judgements are given for such programs: `Proc.All` speaks about every schedule, and so
about every point at which a run can break off, `Proc.Quiet` about the undisturbed run, and
`Proc.Respects` about the runs from two states.

## Main definitions

* `Proc` — programs with state `σ`, errors `ε` and results `α`.
* `Proc.call` — an atomic call.
* `Proc.attempt` — run a program and keep its error as a value; stopping is not caught.
* `Proc.All`, `Proc.Quiet` — what holds after every run, and after the undisturbed one.
* `Proc.Spares` — a schedule that disturbs no call of a run.
* `Proc.ReadOnly` — programs that leave the state as it is.
* `Proc.Respects` — programs that do not tell related states apart.

## Main results

* `Proc.All.bind`, `Proc.All.call`, `Proc.All.attempt` — rules for every schedule.
* `Proc.Quiet.bind`, `Proc.Quiet.call`, `Proc.Quiet.attempt` — rules for the undisturbed run.
* `Proc.Respects.bind`, `Proc.Respects.call` — rules for two runs.
-/

namespace Lib

/-- What happens to one call. -/
inductive Fault where
  /-- The call takes effect. -/
  | pass
  /-- The call fails with a message and has no effect. -/
  | fail (message : String)
  /-- The process stops before the call takes effect. -/
  | stop
  deriving DecidableEq

/-- How a run ends. -/
inductive Outcome (ε α : Type) where
  | ok (a : α)
  | error (e : ε)
  /-- The process stopped on the way. -/
  | stopped
  deriving DecidableEq

/-- A program over `σ`: it consumes the schedule from the front. -/
def Proc (σ ε α : Type) : Type := σ → List Fault → Outcome ε α × σ × List Fault

namespace Proc

variable {σ τ ε ε' α β : Type}

/-- Sequencing: an error or a stop of the first part ends the run. -/
protected def bind (x : Proc σ ε α) (f : α → Proc σ ε β) : Proc σ ε β := fun s faults =>
  match x s faults with
  | (.ok a, s', rest) => f a s' rest
  | (.error e, s', rest) => (.error e, s', rest)
  | (.stopped, s', rest) => (.stopped, s', rest)

instance : Monad (Proc σ ε) where
  pure a := fun s faults => (.ok a, s, faults)
  bind := Proc.bind

lemma bind_apply (x : Proc σ ε α) (f : α → Proc σ ε β) (s : σ) (faults : List Fault) :
    (x >>= f) s faults = match x s faults with
      | (.ok a, s', rest) => f a s' rest
      | (.error e, s', rest) => (.error e, s', rest)
      | (.stopped, s', rest) => (.stopped, s', rest) :=
  rfl

/-- A run of a sequence that is not cut off has come through the first part, or has failed
in it. -/
theorem bind_cases {x : Proc σ ε α} {f : α → Proc σ ε β} {s s' : σ} {faults rest : List Fault}
    {o : Outcome ε β} (h : (x >>= f) s faults = (o, s', rest)) (ho : o ≠ .stopped) :
    (∃ a s₁ rest₁, x s faults = (.ok a, s₁, rest₁) ∧ f a s₁ rest₁ = (o, s', rest)) ∨
      ∃ e, x s faults = (.error e, s', rest) ∧ o = .error e := by
  rw [bind_apply] at h
  rcases hx : x s faults with ⟨a | e | _, s₁, rest₁⟩
  · rw [hx] at h
    exact .inl ⟨a, s₁, rest₁, rfl, h⟩
  · rw [hx] at h
    obtain ⟨ho', hs⟩ := Prod.ext_iff.mp h
    exact .inr ⟨e, congrArg (Prod.mk _) hs, ho'.symm⟩
  · rw [hx] at h
    exact absurd (congrArg Prod.fst h).symm ho

/-- Fail without touching the state. -/
def throw (e : ε) : Proc σ ε α := fun s faults => (.error e, s, faults)

/-- A pure computation that may fail. -/
def ofExcept (x : Except ε α) : Proc σ ε α := fun s faults =>
  match x with
  | .ok a => (.ok a, s, faults)
  | .error e => (.error e, s, faults)

lemma ofExcept_ok_bind (a : α) (f : α → Proc σ ε β) :
    (Proc.ofExcept (.ok a) : Proc σ ε α) >>= f = f a :=
  rfl

/-- Read the state; no call is made. -/
def read (f : σ → α) : Proc σ ε α := fun s faults => (.ok (f s), s, faults)

/-- One atomic call, with `failure` turning the message of a failed call into an error. -/
def call (failure : String → ε) (f : σ → Except ε (α × σ)) : Proc σ ε α := fun s faults =>
  match faults with
  | .stop :: rest => (.stopped, s, rest)
  | .fail message :: rest => (.error (failure message), s, rest)
  | faults =>
    match f s with
    | .ok (a, s') => (.ok a, s', faults.tail)
    | .error e => (.error e, s, faults.tail)

lemma bind_assoc {γ : Type} (x : Proc σ ε α) (f : α → Proc σ ε β) (g : β → Proc σ ε γ) :
    x >>= f >>= g = x >>= fun a => f a >>= g := by
  funext s faults
  simp only [bind_apply]
  rcases x s faults with ⟨_ | _ | _, s', rest⟩ <;> rfl

/-- A call that is not disturbed and succeeds. -/
lemma call_pass_bind {failure : String → ε} {f : σ → Except ε (α × σ)} {g : α → Proc σ ε β}
    {s s' : σ} {a : α} (h : f s = .ok (a, s')) (faults : List Fault) :
    (call failure f >>= g) s (.pass :: faults) = g a s' faults := by
  simp [bind_apply, call, h]

/-- A call that is not disturbed and fails by itself. -/
lemma call_pass_bind_error {failure : String → ε} {f : σ → Except ε (α × σ)}
    {g : α → Proc σ ε β} {s : σ} {e : ε} (h : f s = .error e) (faults : List Fault) :
    (call failure f >>= g) s (.pass :: faults) = (.error e, s, faults) := by
  simp [bind_apply, call, h]

/-- Run a program and keep its error as a value. -/
def attempt (x : Proc σ ε α) : Proc σ ε' (Except ε α) := fun s faults =>
  match x s faults with
  | (.ok a, s', rest) => (.ok (.ok a), s', rest)
  | (.error e, s', rest) => (.ok (.error e), s', rest)
  | (.stopped, s', rest) => (.stopped, s', rest)

/-- Run a program on a part of a larger state. -/
def zoom (get : τ → σ) (set : σ → τ → τ) (x : Proc σ ε α) : Proc τ ε α := fun t faults =>
  match x (get t) faults with
  | (o, s', rest) => (o, set s' t, rest)

/-- Translate the errors of a program. -/
def mapError (f : ε → ε') (x : Proc σ ε α) : Proc σ ε' α := do
  match ← x.attempt with
  | .ok a => pure a
  | .error e => throw (f e)

/-! ## Every schedule -/

/-- The condition on an outcome and the state it is reached in, one part for each way a run
can end. -/
def Post (Q : α → σ → Prop) (E : ε → σ → Prop) (S : σ → Prop) : Outcome ε α → σ → Prop
  | .ok a, s => Q a s
  | .error e, s => E e s
  | .stopped, s => S s

/-- Under every schedule the run from `s` ends in a result with `Q`, in an error with `E`,
or is cut off with `S`. -/
def All (x : Proc σ ε α) (s : σ) (Q : α → σ → Prop) (E : ε → σ → Prop) (S : σ → Prop) : Prop :=
  ∀ faults, Post Q E S (x s faults).1 (x s faults).2.1

namespace All

variable {s : σ} {Q : α → σ → Prop} {E : ε → σ → Prop} {S : σ → Prop}

lemma of_run {x : Proc σ ε α} (h : x.All s Q E S) {faults rest : List Fault}
    {o : Outcome ε α} {s' : σ} (hx : x s faults = (o, s', rest)) : Post Q E S o s' := by
  have := h faults
  rwa [hx] at this

lemma of_ok {x : Proc σ ε α} (h : x.All s Q E S) {faults rest : List Fault} {a : α} {s' : σ}
    (hx : x s faults = (.ok a, s', rest)) : Q a s' :=
  h.of_run hx

lemma of_error {x : Proc σ ε α} (h : x.All s Q E S) {faults rest : List Fault} {e : ε}
    {s' : σ} (hx : x s faults = (.error e, s', rest)) : E e s' :=
  h.of_run hx

/-- The rule of consequence. -/
lemma mono {x : Proc σ ε α} {Q' : α → σ → Prop} {E' : ε → σ → Prop} {S' : σ → Prop}
    (h : x.All s Q E S) (hQ : ∀ a s', Q a s' → Q' a s') (hE : ∀ e s', E e s' → E' e s')
    (hS : ∀ s', S s' → S' s') : x.All s Q' E' S' := by
  intro faults
  have hp := h faults
  generalize x s faults = r at hp ⊢
  rcases r with ⟨_ | _ | _, s', rest⟩
  · exact hQ _ _ hp
  · exact hE _ _ hp
  · exact hS _ hp

lemma pure {a : α} (h : Q a s) : (pure a : Proc σ ε α).All s Q E S :=
  fun _ => h

lemma throw {e : ε} (h : E e s) : (Proc.throw e : Proc σ ε α).All s Q E S :=
  fun _ => h

lemma read {f : σ → α} (h : Q (f s) s) : (Proc.read f : Proc σ ε α).All s Q E S :=
  fun _ => h

lemma ofExcept {x : Except ε α} (hQ : ∀ a, x = .ok a → Q a s)
    (hE : ∀ e, x = .error e → E e s) : (Proc.ofExcept x).All s Q E S := by
  intro faults
  cases x with
  | ok a => exact hQ a rfl
  | error e => exact hE e rfl

/-- Sequencing: the second part starts wherever the first one can end. -/
lemma bind {x : Proc σ ε α} {f : α → Proc σ ε β} {Q : β → σ → Prop}
    (h : x.All s (fun a s' => (f a).All s' Q E S) E S) : (x >>= f).All s Q E S := by
  intro faults
  have hp := h faults
  rw [bind_apply]
  generalize x s faults = r at hp ⊢
  rcases r with ⟨_ | _ | _, s', rest⟩
  · exact hp rest
  · exact hp
  · exact hp

/-- A call takes effect, fails by itself, is made to fail, or the process stops at it; only
the first of these changes the state. -/
theorem call {failure : String → ε} {f : σ → Except ε (α × σ)}
    (hQ : ∀ a s', f s = .ok (a, s') → Q a s') (hE : ∀ e, f s = .error e → E e s)
    (hfail : ∀ message, E (failure message) s) (hS : S s) :
    (Proc.call failure f).All s Q E S := by
  intro faults
  rcases faults with _ | ⟨_ | message | _, rest⟩
  case cons.fail => exact hfail message
  case cons.stop => exact hS
  all_goals
    simp only [Proc.call]
    rcases hf : f s with e | ⟨a, s'⟩
    · exact hE e hf
    · exact hQ a s' hf

/-- The rule for a call where only the runs that return matter. -/
lemma call_ok {failure : String → ε} {f : σ → Except ε (α × σ)}
    (hQ : ∀ a s', f s = .ok (a, s') → Q a s') :
    (Proc.call failure f).All s Q (fun _ _ => True) fun _ => True :=
  call hQ (fun _ _ => trivial) (fun _ => trivial) trivial

/-- `attempt` turns an error into a result; a stop goes through. -/
lemma attempt {x : Proc σ ε α} {Q : Except ε α → σ → Prop} {E : ε' → σ → Prop}
    (h : x.All s (fun a => Q (.ok a)) (fun e => Q (.error e)) S) :
    (Proc.attempt x : Proc σ ε' (Except ε α)).All s Q E S := by
  intro faults
  have hp := h faults
  rw [Proc.attempt]
  generalize x s faults = r at hp ⊢
  rcases r with ⟨_ | _ | _, s', rest⟩ <;> exact hp

lemma mapError {x : Proc σ ε α} {f : ε → ε'} {E : ε' → σ → Prop}
    (h : x.All s Q (fun e => E (f e)) S) : (Proc.mapError f x).All s Q E S := by
  apply bind
  apply attempt
  exact h.mono (fun a s' ha => pure ha) (fun e s' he => throw he) fun _ hs => hs

lemma zoom {get : τ → σ} {set : σ → τ → τ} {t : τ} {x : Proc σ ε α} {Q : α → τ → Prop}
    {E : ε → τ → Prop} {S : τ → Prop}
    (h : x.All (get t) (fun a s' => Q a (set s' t)) (fun e s' => E e (set s' t))
      fun s' => S (set s' t)) : (Proc.zoom get set x).All t Q E S := by
  intro faults
  have hp := h faults
  rw [Proc.zoom]
  generalize x (get t) faults = r at hp ⊢
  rcases r with ⟨_ | _ | _, s', rest⟩ <;> exact hp

end All

/-! ## Programs that only read -/

/-- Under every schedule the state is in the end what it was. -/
def ReadOnly (x : Proc σ ε α) : Prop :=
  ∀ s, x.All s (fun _ s' => s' = s) (fun _ s' => s' = s) fun s' => s' = s

namespace ReadOnly

lemma pure (a : α) : (pure a : Proc σ ε α).ReadOnly := fun _ => All.pure rfl

lemma throw (e : ε) : (Proc.throw e : Proc σ ε α).ReadOnly := fun _ => All.throw rfl

lemma ofExcept (x : Except ε α) : (Proc.ofExcept x : Proc σ ε α).ReadOnly :=
  fun _ => All.ofExcept (fun _ _ => rfl) fun _ _ => rfl

lemma bind {x : Proc σ ε α} {f : α → Proc σ ε β} (hx : x.ReadOnly)
    (hf : ∀ a, (f a).ReadOnly) : (x >>= f).ReadOnly := by
  intro s
  apply All.bind
  apply (hx s).mono _ (fun _ _ h => h) fun _ h => h
  rintro a s' rfl
  exact hf a s'

lemma mapError {x : Proc σ ε α} (hx : x.ReadOnly) (f : ε → ε') : (mapError f x).ReadOnly :=
  fun s => All.mapError (hx s)

end ReadOnly

/-! ## Programs that depend on a part of the state -/

/-- From related states and with one schedule, the runs end alike and in related states. -/
def Respects (R : σ → σ → Prop) (x : Proc σ ε α) : Prop :=
  ∀ s t, R s t → ∀ faults, (x s faults).1 = (x t faults).1 ∧
    R (x s faults).2.1 (x t faults).2.1 ∧ (x s faults).2.2 = (x t faults).2.2

namespace Respects

variable {R : σ → σ → Prop}

lemma pure (a : α) : (pure a : Proc σ ε α).Respects R := fun _ _ h _ => ⟨rfl, h, rfl⟩

lemma throw (e : ε) : (Proc.throw e : Proc σ ε α).Respects R := fun _ _ h _ => ⟨rfl, h, rfl⟩

lemma ofExcept (x : Except ε α) : (Proc.ofExcept x : Proc σ ε α).Respects R := by
  cases x with
  | ok a => exact pure a
  | error e => exact throw e

lemma read {f : σ → α} (hf : ∀ s t, R s t → f s = f t) :
    (Proc.read f : Proc σ ε α).Respects R := by
  intro s t h faults
  exact ⟨congrArg Outcome.ok (hf s t h), h, rfl⟩

/-- A call respects the relation if its effect does. -/
lemma call {failure : String → ε} {f : σ → Except ε (α × σ)}
    (hf : ∀ s t, R s t → (∃ e, f s = .error e ∧ f t = .error e) ∨
      ∃ a s' t', f s = .ok (a, s') ∧ f t = .ok (a, t') ∧ R s' t') :
    (Proc.call failure f).Respects R := by
  intro s t h faults
  rcases faults with _ | ⟨_ | message | _, rest⟩
  case cons.fail => exact ⟨rfl, h, rfl⟩
  case cons.stop => exact ⟨rfl, h, rfl⟩
  all_goals
    simp only [Proc.call]
    rcases hf s t h with ⟨e, hs, ht⟩ | ⟨a, s', t', hs, ht, h'⟩
    · rw [hs, ht]
      exact ⟨rfl, h, rfl⟩
    · rw [hs, ht]
      exact ⟨rfl, h', rfl⟩

lemma bind {x : Proc σ ε α} {f : α → Proc σ ε β} (hx : x.Respects R)
    (hf : ∀ a, (f a).Respects R) : (x >>= f).Respects R := by
  intro s t h faults
  obtain ⟨h₁, h₂, h₃⟩ := hx s t h faults
  rw [bind_apply, bind_apply]
  generalize x s faults = r, x t faults = r' at h₁ h₂ h₃ ⊢
  obtain ⟨o, s', rest⟩ := r
  obtain ⟨o', t', rest'⟩ := r'
  obtain rfl : o = o' := h₁
  obtain rfl : rest = rest' := h₃
  cases o with
  | ok a => exact hf a s' t' h₂ rest
  | error e | stopped => exact ⟨rfl, h₂, rfl⟩

lemma attempt {x : Proc σ ε α} (hx : x.Respects R) :
    (Proc.attempt x : Proc σ ε' (Except ε α)).Respects R := by
  intro s t h faults
  obtain ⟨h₁, h₂, h₃⟩ := hx s t h faults
  rw [Proc.attempt, Proc.attempt]
  generalize x s faults = r, x t faults = r' at h₁ h₂ h₃ ⊢
  obtain ⟨o, s', rest⟩ := r
  obtain ⟨o', t', rest'⟩ := r'
  obtain rfl : o = o' := h₁
  cases o <;> exact ⟨rfl, h₂, h₃⟩

/-- A program on a part of the state, when the relation says that part is related and does
not otherwise depend on it. -/
theorem zoom {get : τ → σ} {set : σ → τ → τ} {T : τ → τ → Prop} {x : Proc σ ε α}
    (hx : x.Respects R) (hget : ∀ t t', T t t' → R (get t) (get t'))
    (hset : ∀ t t' s s', T t t' → R s s' → T (set s t) (set s' t')) :
    (Proc.zoom get set x).Respects T := by
  intro t t' h faults
  obtain ⟨h₁, h₂, h₃⟩ := hx _ _ (hget t t' h) faults
  exact ⟨h₁, hset t t' _ _ h h₂, h₃⟩

end Respects

/-! ## The undisturbed run -/

/-- The undisturbed run from `s` ends with outcome `o` in state `s'`. -/
def Calm (x : Proc σ ε α) (s : σ) (o : Outcome ε α) (s' : σ) : Prop := x s [] = (o, s', [])

namespace Calm

variable {s s' s'' : σ}

lemma bind {x : Proc σ ε α} {f : α → Proc σ ε β} {a : α} {o : Outcome ε β}
    (hx : x.Calm s (.ok a) s') (hf : (f a).Calm s' o s'') : (x >>= f).Calm s o s'' := by
  rw [Calm, bind_apply, hx]
  exact hf

lemma bind_error {x : Proc σ ε α} {f : α → Proc σ ε β} {e : ε}
    (hx : x.Calm s (.error e) s') : (x >>= f).Calm s (.error e) s' := by
  rw [Calm, bind_apply, hx]

lemma pure (a : α) : (pure a : Proc σ ε α).Calm s (.ok a) s := rfl

lemma throw (e : ε) : (Proc.throw e : Proc σ ε α).Calm s (.error e) s := rfl

lemma read (f : σ → α) : (Proc.read f : Proc σ ε α).Calm s (.ok (f s)) s := rfl

lemma ofExcept {x : Except ε α} {a : α} (h : x = .ok a) :
    (Proc.ofExcept x : Proc σ ε α).Calm s (.ok a) s := by
  rw [h]
  rfl

lemma ofExcept_error {x : Except ε α} {e : ε} (h : x = .error e) :
    (Proc.ofExcept x : Proc σ ε α).Calm s (.error e) s := by
  rw [h]
  rfl

lemma call {failure : String → ε} {f : σ → Except ε (α × σ)} {a : α}
    (h : f s = .ok (a, s')) : (Proc.call failure f).Calm s (.ok a) s' := by
  simp [Calm, Proc.call, h]

lemma call_error {failure : String → ε} {f : σ → Except ε (α × σ)} {e : ε}
    (h : f s = .error e) : (Proc.call failure f : Proc σ ε α).Calm s (.error e) s := by
  simp [Calm, Proc.call, h]

lemma attempt {x : Proc σ ε α} {a : α} (h : x.Calm s (.ok a) s') :
    (Proc.attempt x : Proc σ ε' (Except ε α)).Calm s (.ok (.ok a)) s' := by
  rw [Calm, Proc.attempt, h]

lemma attempt_error {x : Proc σ ε α} {e : ε} (h : x.Calm s (.error e) s') :
    (Proc.attempt x : Proc σ ε' (Except ε α)).Calm s (.ok (.error e)) s' := by
  rw [Calm, Proc.attempt, h]

end Calm

/-- The schedule disturbs no call of the run from `s`: it ends as the undisturbed run does. -/
def Spares (x : Proc σ ε α) (s : σ) (faults : List Fault) : Prop :=
  (x s faults).1 = (x s []).1 ∧ (x s faults).2.1 = (x s []).2.1

/-- The undisturbed run from `s` ends in a result with `Q` or in an error with `E`. -/
def Quiet (x : Proc σ ε α) (s : σ) (Q : α → σ → Prop) (E : ε → σ → Prop) : Prop :=
  ∃ o s', x.Calm s o s' ∧ Post Q E (fun _ => False) o s'

namespace Quiet

variable {s : σ} {Q : α → σ → Prop} {E : ε → σ → Prop}

lemma pure {a : α} (h : Q a s) : (pure a : Proc σ ε α).Quiet s Q E := ⟨_, _, Calm.pure a, h⟩

lemma throw {e : ε} (h : E e s) : (Proc.throw e : Proc σ ε α).Quiet s Q E :=
  ⟨_, _, Calm.throw e, h⟩

lemma read {f : σ → α} (h : Q (f s) s) : (Proc.read f : Proc σ ε α).Quiet s Q E :=
  ⟨_, _, Calm.read f, h⟩

lemma ofExcept {x : Except ε α} (hQ : ∀ a, x = .ok a → Q a s) (hE : ∀ e, x = .error e → E e s) :
    (Proc.ofExcept x).Quiet s Q E := by
  cases x with
  | ok a => exact ⟨_, _, Calm.ofExcept rfl, hQ a rfl⟩
  | error e => exact ⟨_, _, Calm.ofExcept_error rfl, hE e rfl⟩

lemma call {failure : String → ε} {f : σ → Except ε (α × σ)}
    (hQ : ∀ a s', f s = .ok (a, s') → Q a s') (hE : ∀ e, f s = .error e → E e s) :
    (Proc.call failure f).Quiet s Q E := by
  rcases hf : f s with e | ⟨a, s'⟩
  · exact ⟨_, _, Calm.call_error hf, hE e hf⟩
  · exact ⟨_, _, Calm.call hf, hQ a s' hf⟩

lemma bind {x : Proc σ ε α} {f : α → Proc σ ε β} {Q : β → σ → Prop}
    (h : x.Quiet s (fun a s' => (f a).Quiet s' Q E) E) : (x >>= f).Quiet s Q E := by
  obtain ⟨o, s', hx, hp⟩ := h
  cases o with
  | ok a =>
    obtain ⟨o', s'', hf, hp⟩ := hp
    exact ⟨o', s'', hx.bind hf, hp⟩
  | error e => exact ⟨_, s', hx.bind_error, hp⟩
  | stopped => exact hp.elim

lemma attempt {x : Proc σ ε α} {Q : Except ε α → σ → Prop} {E : ε' → σ → Prop}
    (h : x.Quiet s (fun a => Q (.ok a)) fun e => Q (.error e)) :
    (Proc.attempt x : Proc σ ε' (Except ε α)).Quiet s Q E := by
  obtain ⟨o, s', hx, hp⟩ := h
  cases o with
  | ok a => exact ⟨_, s', hx.attempt, hp⟩
  | error e => exact ⟨_, s', hx.attempt_error, hp⟩
  | stopped => exact hp.elim

lemma zoom {get : τ → σ} {set : σ → τ → τ} {t : τ} {x : Proc σ ε α} {Q : α → τ → Prop}
    {E : ε → τ → Prop}
    (h : x.Quiet (get t) (fun a s' => Q a (set s' t)) fun e s' => E e (set s' t)) :
    (Proc.zoom get set x).Quiet t Q E := by
  obtain ⟨o, s', hx, hp⟩ := h
  refine ⟨o, set s' t, ?_, ?_⟩
  · rw [Calm, Proc.zoom, hx]
  · cases o <;> exact hp

/-- A run that is not disturbed ends as the undisturbed one. -/
lemma of_spares {x : Proc σ ε α} (h : x.Quiet s Q E) {faults : List Fault}
    (hspares : x.Spares s faults) : Post Q E (fun _ => False) (x s faults).1 (x s faults).2.1 := by
  obtain ⟨o, s', hcalm, hp⟩ := h
  rw [hspares.1, hspares.2, hcalm]
  exact hp

/-- The rule of consequence. -/
lemma mono {x : Proc σ ε α} {Q' : α → σ → Prop} {E' : ε → σ → Prop} (h : x.Quiet s Q E)
    (hQ : ∀ a s', Q a s' → Q' a s') (hE : ∀ e s', E e s' → E' e s') : x.Quiet s Q' E' := by
  obtain ⟨o, s', hx, hp⟩ := h
  refine ⟨o, s', hx, ?_⟩
  cases o with
  | ok a => exact hQ a s' hp
  | error e => exact hE e s' hp
  | stopped => exact hp

end Quiet

end Proc

end Lib

import Mathlib.Data.Nat.Notation

/-!
# Dialogues

A program that puts questions to its surroundings and goes on with each answer, where the type of
an answer depends on the question. What such a program may ask, and what it returns, is said about
its tree alone, with the record of the questions and answers so far: `Dialogue.Abides`. A dialogue
that takes place somewhere, with whatever answers, then keeps to it: `Talk.Abides`.

## Main definitions

* `Dialogue` — the programs, with a `Monad` instance.
* `Dialogue.Abides` — what a dialogue may ask and how it may end.
* `Talk` — a dialogue under way, with its record.
* `Talk.Puts` — the questions of a talk, the one that waits for its answer included.

## Main results

* `Dialogue.Abides.bind`, `Dialogue.Abides.tryBind` — the rules for a sequence.
* `Talk.Abides.step` — an answer keeps a talk to its rules.
* `Talk.Abides.of_puts` — every question that has been put met the rules.
-/

namespace Lib

/-- A program with questions `Q`, answers `A` and result `α`. -/
inductive Dialogue (Q : Type) (A : Q → Type) (α : Type) where
  | done (a : α)
  | ask (question : Q) (next : A question → Dialogue Q A α)

namespace Dialogue

variable {Q : Type} {A : Q → Type} {α β ε : Type}

/-- Sequencing. -/
protected def bind : Dialogue Q A α → (α → Dialogue Q A β) → Dialogue Q A β
  | done a, f => f a
  | ask question next, f => ask question fun answer => (next answer).bind f

instance : Monad (Dialogue Q A) where
  pure := done
  bind := Dialogue.bind

/-- Put a question. -/
def query (question : Q) : Dialogue Q A (A question) := ask question done

/-- A pure computation that may fail. -/
def ofExcept (x : Except ε α) : ExceptT ε (Dialogue Q A) α := ExceptT.mk (done x)

/-- Questions with their answers. -/
abbrev Record (Q : Type) (A : Q → Type) : Type := List ((question : Q) × A question)

/-- What a dialogue keeps to after a record: each question meets `ok` with the record so far, and
the result meets `post` with the whole record. -/
def Abides (ok : Record Q A → Q → Prop) (post : Record Q A → α → Prop) :
    Record Q A → Dialogue Q A α → Prop
  | record, done a => post record a
  | record, ask question next =>
    ok record question ∧ ∀ answer, Abides ok post (record ++ [⟨question, answer⟩]) (next answer)

variable {ok : Record Q A → Q → Prop} {record : Record Q A}

/-- **A sequence**: the second part starts from what the first one promises. -/
theorem Abides.bind {post : Record Q A → α → Prop} {post' : Record Q A → β → Prop}
    {d : Dialogue Q A α} {f : α → Dialogue Q A β} (h : Abides ok post record d)
    (hf : ∀ record a, post record a → Abides ok post' record (f a)) :
    Abides ok post' record (d >>= f) := by
  show Abides ok post' record (d.bind f)
  induction d generalizing record with
  | done a => exact hf record a h
  | ask question next ih => exact ⟨h.1, fun answer => ih answer (h.2 answer)⟩

/-- **A sequence that may fail**: an error of the first part is the result. -/
theorem Abides.tryBind {post : Record Q A → Except ε α → Prop}
    {post' : Record Q A → Except ε β → Prop} {x : ExceptT ε (Dialogue Q A) α}
    {f : α → ExceptT ε (Dialogue Q A) β} (h : Abides ok post record x.run)
    (herror : ∀ record e, post record (.error e) → post' record (.error e))
    (hok : ∀ record a, post record (.ok a) → Abides ok post' record (f a).run) :
    Abides ok post' record (x >>= f).run := by
  refine Abides.bind h fun record r hr => ?_
  cases r with
  | ok a => exact hok record a hr
  | error e => exact herror record e hr

end Dialogue

/-- A dialogue under way. -/
structure Talk (Q : Type) (A : Q → Type) (α : Type) where
  dialogue : Dialogue Q A α
  record : Dialogue.Record Q A

namespace Talk

open Dialogue (Record)

variable {Q : Type} {A : Q → Type} {α : Type}

/-- The next question is answered. -/
def step (answers : (question : Q) → A question) (talk : Talk Q A α) : Option (Talk Q A α) :=
  match talk.dialogue with
  | .done _ => none
  | .ask question next => some
    { dialogue := next (answers question)
      record := talk.record ++ [⟨question, answers question⟩] }

variable {answers : (question : Q) → A question} {talk talk' : Talk Q A α}

/-- **What an answer does.** -/
theorem step_eq_some_iff :
    talk.step answers = some talk' ↔ ∃ question next, talk.dialogue = .ask question next ∧
      talk' = { dialogue := next (answers question)
                record := talk.record ++ [⟨question, answers question⟩] } := by
  unfold step
  split
  case h_1 a h => simp [h]
  case h_2 question next h =>
    rw [h]
    constructor
    · intro heq
      cases heq
      exact ⟨question, next, rfl, rfl⟩
    · rintro ⟨q, n, heq, rfl⟩
      cases heq
      rfl

/-- A talk that is not over goes on with any answer. -/
lemma step_isSome (h : ∀ a, talk.dialogue ≠ .done a) : (talk.step answers).isSome := by
  unfold step
  split
  case h_1 a hd => exact absurd hd (h a)
  case h_2 => rfl

/-- A talk has put a question after a record, and may still wait for the answer. -/
def Puts (talk : Talk Q A α) (before : Record Q A) (question : Q) : Prop :=
  (∃ answer after, talk.record = before ++ ⟨question, answer⟩ :: after) ∨
    talk.record = before ∧ ∃ next, talk.dialogue = .ask question next

/-- A talk keeps to the rules: what is left of it does, and every question of its record met them
when it was put. -/
structure Abides (ok : Record Q A → Q → Prop) (post : Record Q A → α → Prop)
    (talk : Talk Q A α) : Prop where
  ahead : talk.dialogue.Abides ok post talk.record
  asked : ∀ before question answer after,
    talk.record = before ++ ⟨question, answer⟩ :: after → ok before question

variable {ok : Record Q A → Q → Prop} {post : Record Q A → α → Prop}

/-- **Every question that has been put met the rules.** -/
theorem Abides.of_puts (h : Abides ok post talk) {before : Record Q A} {question : Q}
    (hputs : talk.Puts before question) : ok before question := by
  rcases hputs with ⟨answer, after, hrecord⟩ | ⟨rfl, next, hd⟩
  · exact h.asked before question answer after hrecord
  · have hahead := h.ahead
    rw [hd] at hahead
    exact hahead.1

/-- How a talk that is over has ended. -/
lemma Abides.of_done (h : Abides ok post talk) {a : α} (hd : talk.dialogue = .done a) :
    post talk.record a := by
  have hahead := h.ahead
  rw [hd] at hahead
  exact hahead

/-- A talk that begins. -/
lemma Abides.start {d : Dialogue Q A α} (h : d.Abides ok post []) :
    Abides ok post { dialogue := d, record := [] } :=
  ⟨h, fun before question answer after heq => absurd heq.symm (by simp)⟩

/-- **An answer keeps a talk to its rules.** -/
theorem Abides.step (h : Abides ok post talk) (hstep : talk.step answers = some talk') :
    Abides ok post talk' := by
  obtain ⟨question, next, hd, rfl⟩ := step_eq_some_iff.mp hstep
  have hahead := h.ahead
  rw [hd] at hahead
  refine ⟨hahead.2 _, fun before q a after heq => ?_⟩
  -- the question is the last one of the record, or it stands in the old one
  rcases List.eq_nil_or_concat after with rfl | ⟨rest, last, rfl⟩
  · obtain ⟨rfl, hlast⟩ := List.append_inj' heq rfl
    cases hlast
    exact hahead.1
  · have hcut : talk.record ++ [⟨question, answers question⟩]
        = (before ++ ⟨q, a⟩ :: rest) ++ [last] := by simpa using heq
    exact h.asked before q a rest (List.append_inj' hcut rfl).1

end Talk

end Lib

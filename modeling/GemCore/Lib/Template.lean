import GemCore.Lib.Decimal
import GemCore.Lib.Lists

/-!
# Templates

A fixed text with parts to fill in. Each part stands behind a text of its own and is closed by an element
that does not occur in it, so that the parts can be told from the text.

## Main definitions

* `fill` — the text with its parts.
* `unfill` — the parts of a text.

## Main results

* `unfill_fill` — the parts are read back.
* `fill_inj` — the text determines its parts.
* `length_fill` — how long the text is.
-/

namespace Lib

variable {α : Type}

/-- The text with its parts: a slot has what stands before its part and what closes it. -/
def fill : List (List α × α) → List (List α) → List α
  | (before, close) :: template, part :: parts => before ++ (part ++ close :: fill template parts)
  | _, _ => []

/-- Parts in which nothing closes a slot. -/
abbrev Fits (template : List (List α × α)) (parts : List (List α)) : Prop :=
  List.Forall₂ (fun slot part => slot.2 ∉ part) template parts

/-- Read the parts, with what stands behind the text. -/
def unfill [DecidableEq α] : List (List α × α) → List α → Option (List (List α) × List α)
  | [], text => some ([], text)
  | (before, close) :: template, text => do
    if text.take before.length = before then
      let (part, text) ← splitOnce (· == close) (text.drop before.length)
      let (parts, rest) ← unfill template text
      some (part :: parts, rest)
    else none

/-- **The parts are read back**, whatever stands behind the text. -/
theorem unfill_fill [DecidableEq α] {template : List (List α × α)} {parts : List (List α)}
    (h : Fits template parts) (rest : List α) :
    unfill template (fill template parts ++ rest) = some (parts, rest) := by
  induction h with
  | nil => rfl
  | @cons slot part template parts hslot _ ih =>
    obtain ⟨before, close⟩ := slot
    have hsplit : splitOnce (· == close) (part ++ close :: (fill template parts ++ rest)) =
        some (part, fill template parts ++ rest) := by
      refine splitOnce_append (fun y hy => ?_) (beq_self_eq_true close)
      exact beq_eq_false_iff_ne.mpr fun heq => hslot (heq ▸ hy)
    have htext : fill ((before, close) :: template) (part :: parts) ++ rest =
        before ++ (part ++ close :: (fill template parts ++ rest)) := by
      simp only [fill, List.append_assoc, List.cons_append]
    rw [htext, unfill, List.take_left, if_pos rfl, List.drop_left, hsplit]
    simp only [Option.bind_eq_bind, Option.bind_some, ih]

/-- **The text determines its parts.** -/
theorem fill_inj {template : List (List α × α)} {parts parts' : List (List α)}
    (h : Fits template parts) (h' : Fits template parts') :
    fill template parts = fill template parts' ↔ parts = parts' := by
  classical
  refine ⟨fun heq => ?_, fun heq => heq ▸ rfl⟩
  have hread := unfill_fill h []
  rw [heq, unfill_fill h' []] at hread
  exact (congrArg Prod.fst (Option.some.inj hread)).symm

lemma length_fill {template : List (List α × α)} {parts : List (List α)}
    (h : Fits template parts) : (fill template parts).length =
      (template.map fun slot => slot.1.length + 1).sum + (parts.map List.length).sum := by
  induction h with
  | nil => rfl
  | cons _ _ ih =>
    simp only [fill, List.length_append, List.length_cons, ih, List.map_cons, List.sum_cons]
    omega

/-- What occurs in the text occurs in the template or in a part. -/
lemma mem_fill {template : List (List α × α)} {parts : List (List α)} {a : α}
    (h : a ∈ fill template parts) :
    (∃ slot ∈ template, a ∈ slot.1 ∨ a = slot.2) ∨ ∃ part ∈ parts, a ∈ part := by
  induction template generalizing parts with
  | nil => cases h
  | cons slot template ih =>
    cases parts with
    | nil => cases h
    | cons part parts =>
      rw [fill, List.mem_append, List.mem_append, List.mem_cons] at h
      rcases h with h | h | h | h
      · exact .inl ⟨slot, List.mem_cons_self, .inl h⟩
      · exact .inr ⟨part, List.mem_cons_self, h⟩
      · exact .inl ⟨slot, List.mem_cons_self, .inr h⟩
      · rcases ih h with ⟨s, hs, hmem⟩ | ⟨p, hp, hmem⟩
        · exact .inl ⟨s, List.mem_cons_of_mem _ hs, hmem⟩
        · exact .inr ⟨p, List.mem_cons_of_mem _ hp, hmem⟩

end Lib

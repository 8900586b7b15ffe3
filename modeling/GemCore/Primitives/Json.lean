import Mathlib.Algebra.GroupWithZero.Nat
import Mathlib.Algebra.Group.Int.Defs
import Mathlib.Order.Basic

/-!
# JSON values

A parsed JSON document, as the `serde_json` crate holds it. A number without a fraction or an
exponent is an integer of 64 bits; every other number is a float, of which only the text is
kept. The entries of an object stand in the order of the document.

## Main definitions

* `Json` — `serde_json::Value`.
* `Json.lookup` — an entry of an object.
* `JsonNumber.int` — the integer a number denotes.

## Main results

* `Json.induction` — induction over the values inside a value.
-/

namespace GemCore

/-- `serde_json::Number`. -/
inductive JsonNumber where
  | posInt (n : UInt64)
  | negInt (n : Int64)
  | float (text : String)

namespace JsonNumber

/-- `as_u64`. -/
def asU64 : JsonNumber → Option ℕ
  | posInt n => some n.toNat
  | negInt _ => none
  | float _ => none

/-- `as_i64`. -/
def asI64 : JsonNumber → Option ℤ
  | posInt n => if n.toNat < 2 ^ 63 then some n.toNat else none
  | negInt n => some n.toInt
  | float _ => none

/-- `Display`: integers are written in decimal. -/
def text : JsonNumber → String
  | posInt n => toString n.toNat
  | negInt n => toString n.toInt
  | float text => text

/-- The integer a number denotes, if it is one. -/
def int : JsonNumber → Option ℤ
  | posInt n => some n.toNat
  | negInt n => some n.toInt
  | float _ => none

/-- A number that is read as unsigned denotes that integer. -/
lemma int_of_asU64 {x : JsonNumber} {n : ℕ} (h : x.asU64 = some n) : x.int = some (n : ℤ) := by
  cases x with
  | posInt m =>
    obtain rfl : m.toNat = n := by simpa [asU64] using h
    rfl
  | negInt m | float text => simp [asU64] at h

/-- A number that is not read as unsigned is read as signed as it is. -/
lemma int_of_asU64_eq_none {x : JsonNumber} (h : x.asU64 = none) : x.int = x.asI64 := by
  cases x with
  | posInt m => simp [asU64] at h
  | negInt m => rfl
  | float text => rfl

/-- A number that is read as signed denotes that integer. -/
lemma int_of_asI64 {x : JsonNumber} {z : ℤ} (h : x.asI64 = some z) : x.int = some z := by
  cases x with
  | posInt m =>
    simp only [asI64] at h
    split_ifs at h
    exact h
  | negInt m => exact h
  | float text => simp [asI64] at h

/-- A number that is not read as signed is read as unsigned as it is. -/
lemma int_of_asI64_eq_none {x : JsonNumber} (h : x.asI64 = none) :
    x.int = x.asU64.map Int.ofNat := by
  cases x with
  | posInt m => rfl
  | negInt m => simp [asI64] at h
  | float text => rfl

/-- The integers of a document fit 64 bits, with or without a sign. -/
lemma int_range {x : JsonNumber} {z : ℤ} (h : x.int = some z) : -2 ^ 63 ≤ z ∧ z < 2 ^ 64 := by
  cases x with
  | posInt m =>
    have hlt := m.toNat_lt
    obtain rfl : (m.toNat : ℤ) = z := by simpa [int] using h
    omega
  | negInt m =>
    have hle := m.le_toInt
    have hlt := m.toInt_lt
    obtain rfl : m.toInt = z := by simpa [int] using h
    omega
  | float text => simp [int] at h

/-- An integer is displayed in decimal. -/
lemma text_of_int {x : JsonNumber} {z : ℤ} (h : x.int = some z) : x.text = toString z := by
  cases x with
  | posInt m =>
    obtain rfl : (m.toNat : ℤ) = z := by simpa [int] using h
    rfl
  | negInt m =>
    obtain rfl : m.toInt = z := by simpa [int] using h
    rfl
  | float text => simp [int] at h

end JsonNumber

/-- `serde_json::Value`. -/
inductive Json where
  | null
  | bool (b : Bool)
  | num (n : JsonNumber)
  | str (s : String)
  | arr (items : List Json)
  | obj (entries : List (String × Json))

namespace Json

/-- **Induction over a value**: an array from its items, an object from the values of its
entries. -/
theorem induction {P : Json → Prop} (null : P .null) (bool : ∀ b, P (.bool b))
    (num : ∀ n, P (.num n)) (str : ∀ s, P (.str s))
    (arr : ∀ items, (∀ x ∈ items, P x) → P (.arr items))
    (obj : ∀ entries, (∀ e ∈ entries, P e.2) → P (.obj entries)) (j : Json) : P j := by
  refine @Json.rec P (fun items => ∀ x ∈ items, P x) (fun entries => ∀ e ∈ entries, P e.2)
    (fun e => P e.2) null bool num str arr obj ?_ ?_ ?_ ?_ ?_ j
  · exact List.forall_mem_nil _
  · intro x items hx hitems
    exact List.forall_mem_cons.mpr ⟨hx, hitems⟩
  · exact List.forall_mem_nil _
  · intro e entries he hentries
    exact List.forall_mem_cons.mpr ⟨he, hentries⟩
  · intro _ _ h
    exact h

/-- The entry of an object under a key. -/
def lookup (entries : List (String × Json)) (key : String) : Option Json := entries.lookup key

/-- `Value::get` with a key: nothing on a value that is not an object. -/
def get (key : String) : Json → Option Json
  | obj entries => lookup entries key
  | _ => none

/-- `Value::as_str`. -/
def asStr : Json → Option String
  | str s => some s
  | _ => none

/-- `Value::as_bool`. -/
def asBool : Json → Option Bool
  | bool b => some b
  | _ => none

/-- `Value::as_array`. -/
def asArray : Json → Option (List Json)
  | arr items => some items
  | _ => none

/-- `Value::as_object`. -/
def asObject : Json → Option (List (String × Json))
  | obj entries => some entries
  | _ => none

end Json

end GemCore

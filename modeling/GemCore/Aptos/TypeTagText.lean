import GemCore.Aptos.TypeTag
import GemCore.Lib.Lists
import GemCore.Primitives.Serde

/-!
# The texts of type tags

Which texts the parser of type tags accepts, and that it reads the usual text of a type tag as that type
tag, with any white space around the arguments. What is accepted is wider than the usual texts: empty
arguments are left out, and nothing is asked of the names of a module and a struct.

## Main definitions

* `cutAtCommas` — the parts of a text between the commas outside brackets.
* `Reads` — the texts that are accepted, with the type tag they are read as.
* `IsText` — the usual texts, with white space.

## Main results

* `splitTypeArgs_eq_ok_iff`, `splitStruct_eq_ok_iff` — the two loops.
* `parseTypeTagAtDepth_eq_ok_iff` — the parser accepts exactly the texts `Reads`.
* `IsText.reads_and_balanced` — the usual texts are among them.
* `parseTypeTag_spec` — the two together.
-/

namespace GemCore.Aptos

open Lib

/-! ## The first opening bracket -/

/-- Without an opening bracket there is none to find. -/
lemma findTopLevelChar_eq_none {value : List Char} (h : '<' ∉ value) :
    findTopLevelChar '<' value 0 = none := by
  induction value with
  | nil => rfl
  | cons c rest ih =>
    rw [List.mem_cons, not_or] at h
    have hdepth : nextDepth 0 c = 0 := by
      simp [nextDepth, Ne.symm h.1]
    rw [findTopLevelChar, if_neg fun hc => h.1 hc.2.symm, hdepth, ih h.2]
    rfl

/-- The first opening bracket is outside all brackets. -/
lemma findTopLevelChar_append {base : List Char} (h : '<' ∉ base) (rest : List Char) :
    findTopLevelChar '<' (base ++ '<' :: rest) 0 = some (base, rest) := by
  induction base with
  | nil => rfl
  | cons c base ih =>
    rw [List.mem_cons, not_or] at h
    have hdepth : nextDepth 0 c = 0 := by
      simp [nextDepth, Ne.symm h.1]
    rw [List.cons_append, findTopLevelChar, if_neg fun hc => h.1 hc.2.symm, hdepth, ih h.2]
    rfl

/-- The last character of a text with a bracket. -/
lemma getLast?_bracket (base text : List Char) (c : Char) :
    (base ++ '<' :: (text ++ [c])).getLast? = some c := by
  rw [← List.cons_append, ← List.append_assoc, List.getLast?_concat]

/-- **Where a struct tag is cut apart**: at its first opening bracket, up to a closing one at its end. -/
theorem splitStruct_eq_ok_iff {value base : List Char} {args : Option (List Char)} :
    splitStruct value = .ok (base, args) ↔
      '<' ∉ base ∧ ((args = none ∧ value = base) ∨
        ∃ text, args = some text ∧ value = base ++ '<' :: (text ++ ['>'])) := by
  unfold splitStruct
  by_cases hmem : '<' ∈ value
  · obtain ⟨first, rest, rfl, hfirst⟩ := List.eq_append_cons_of_mem hmem
    simp only [findTopLevelChar_append hfirst, guard_eq_ok_iff, not_not]
    constructor
    · rintro ⟨hlast, h⟩
      cases h
      refine ⟨hfirst, .inr ⟨_, rfl, ?_⟩⟩
      rcases rest.eq_nil_or_concat with rfl | ⟨text, c, rfl⟩
      · simp at hlast
      · rw [List.concat_eq_append, getLast?_bracket] at hlast
        cases hlast
        rw [List.concat_eq_append, List.dropLast_concat]
    · rintro ⟨hbase, ⟨rfl, hvalue⟩ | ⟨text, rfl, hvalue⟩⟩
      · exact absurd (hvalue ▸ hmem) hbase
      · obtain ⟨rfl, rfl⟩ := (append_separator_inj hfirst hbase).1 hvalue
        exact ⟨getLast?_bracket _ _ _, by rw [List.dropLast_concat]⟩
  · simp only [findTopLevelChar_eq_none hmem, Except.ok.injEq, Prod.mk.injEq]
    constructor
    · rintro ⟨rfl, rfl⟩
      exact ⟨hmem, .inl ⟨rfl, rfl⟩⟩
    · rintro ⟨hbase, ⟨rfl, hvalue⟩ | ⟨text, rfl, hvalue⟩⟩
      · exact ⟨hvalue, rfl⟩
      · exact absurd (by rw [hvalue]; simp) hmem

/-! ## Arguments -/

/-- A text in front of the first of some texts. -/
def prepend (text : List Char) : List (List Char) → List (List Char)
  | [] => [text]
  | first :: rest => (text ++ first) :: rest

/-- The texts between the commas outside brackets, where no bracket closes that was not opened. -/
def cutAtCommas : ℕ → List Char → Option (List (List Char))
  | _, [] => some [[]]
  | depth, c :: rest =>
    if c = '>' ∧ depth = 0 then none
    else if c = ',' ∧ depth = 0 then (cutAtCommas depth rest).map ([] :: ·)
    else (cutAtCommas (nextDepth depth c) rest).map (prepend [c])

lemma prepend_nil {texts : List (List Char)} (h : texts ≠ []) : prepend [] texts = texts := by
  cases texts with
  | nil => exact absurd rfl h
  | cons first rest => rfl

lemma prepend_append (text text' : List Char) (texts : List (List Char)) :
    prepend (text ++ text') texts = prepend text (prepend text' texts) := by
  cases texts with
  | nil => rfl
  | cons first rest => simp [prepend]

lemma cutAtCommas_ne_nil {depth : ℕ} {input : List Char} {texts : List (List Char)}
    (h : cutAtCommas depth input = some texts) : texts ≠ [] := by
  cases input with
  | nil =>
    cases h
    exact List.cons_ne_nil _ _
  | cons c rest =>
    rw [cutAtCommas] at h
    split_ifs at h
    · obtain ⟨_, _, rfl⟩ := Option.map_eq_some_iff.1 h
      exact List.cons_ne_nil _ _
    · obtain ⟨texts, _, rfl⟩ := Option.map_eq_some_iff.1 h
      cases texts <;> exact List.cons_ne_nil _ _

lemma foldl_pushArg (texts args : List (List Char)) :
    texts.foldl pushArg args = args ++ (texts.map trim).filter (· ≠ []) := by
  induction texts generalizing args with
  | nil => simp
  | cons text texts ih =>
    rw [List.foldl_cons, ih]
    by_cases h : trim text = [] <;> simp [pushArg, h]

/-- **The loop over the arguments** cuts at the commas outside brackets. -/
theorem splitTypeArgsLoop_eq (input : List Char) : ∀ (depth : ℕ) (current : List Char)
    (args : List (List Char)), splitTypeArgsLoop input depth current args =
      (okOr (cutAtCommas depth input) (.invalidInput "Invalid Aptos type arguments")).map
        fun texts => (prepend current texts).foldl pushArg args := by
  induction input with
  | nil =>
    intro depth current args
    simp [splitTypeArgsLoop, cutAtCommas, Except.map, prepend]
  | cons c rest ih =>
    intro depth current args
    rw [splitTypeArgsLoop, cutAtCommas]
    split_ifs with hclose hcomma
    · rfl
    · rw [ih]
      cases hcut : cutAtCommas depth rest with
      | none => rfl
      | some texts =>
        simp only [okOr_some, Option.map_some, Except.map,
          prepend_nil (cutAtCommas_ne_nil hcut)]
        simp [prepend]
    · rw [ih]
      cases hcut : cutAtCommas (nextDepth depth c) rest with
      | none => rfl
      | some texts => simp [Except.map, ← prepend_append]

lemma splitTypeArgs_eq_ok_iff {input : List Char} {args : List (List Char)} :
    splitTypeArgs input = .ok args ↔
      ∃ texts, cutAtCommas 0 input = some texts ∧ args = (texts.map trim).filter (· ≠ []) := by
  rw [splitTypeArgs, splitTypeArgsLoop_eq, map_eq_ok_iff]
  simp only [okOr_eq_ok_iff]
  constructor
  all_goals
    rintro ⟨texts, htexts, rfl⟩
    exact ⟨texts, htexts, by rw [prepend_nil (cutAtCommas_ne_nil htexts), foldl_pushArg]; rfl⟩

/-! ## What the parser reads -/

variable {lib : HexLib}

/-- A base without opening brackets: an address in any text that is read as one, a module and a name. -/
def ReadsBase (lib : HexLib) (base : List Char) (address : AccountAddress)
    (moduleName name : List Char) : Prop :=
  '<' ∉ base ∧ ∃ text, splitColons base = [text, moduleName, name] ∧
    AccountAddress.fromHex lib text = .ok address

/-- **The texts of a type tag** for the parser, up to white space around them: a name; a vector of an
inner text; a base; or a base with a text in brackets whose parts between commas, as far as anything
remains of them, are texts of the arguments. -/
inductive Reads (lib : HexLib) : TypeTag → List Char → Prop
  | primitive {name : String} {tag : TypeTag} {value : List Char} (h : (name, tag) ∈ primitiveTypes)
      (htext : trim value = name.toList) : Reads lib tag value
  | vector {inner : TypeTag} {text value : List Char} (htext : trim value = vectorMark ++ (text ++ ['>']))
      (h : Reads lib inner text) : Reads lib (.vector inner) value
  | plain {address : AccountAddress} {moduleName name value : List Char}
      (hbase : ReadsBase lib (trim value) address moduleName name) :
      Reads lib (.struct address moduleName name []) value
  | generic {address : AccountAddress} {base moduleName name text value : List Char}
      {texts : List (List Char)} {typeArgs : List TypeTag}
      (hbase : ReadsBase lib base address moduleName name)
      (htext : trim value = base ++ '<' :: (text ++ ['>'])) (hcut : cutAtCommas 0 text = some texts)
      (hargs : List.Forall₂ (Reads lib) typeArgs ((texts.map trim).filter (· ≠ []))) :
      Reads lib (.struct address moduleName name typeArgs) value

lemma parseBase_eq_ok_iff {base moduleName name : List Char} {address : AccountAddress} :
    parseBase lib base = .ok (address, moduleName, name) ↔ ∃ text,
      splitColons base = [text, moduleName, name] ∧ AccountAddress.fromHex lib text = .ok address := by
  unfold parseBase
  split
  case h_1 text moduleName' name' hsplit =>
    simp only [bind_eq_ok_iff, hsplit]
    constructor
    · rintro ⟨address', haddress, h⟩
      cases h
      exact ⟨text, rfl, haddress⟩
    · rintro ⟨text', hparts, haddress⟩
      cases hparts
      exact ⟨address, haddress, rfl⟩
  case h_2 hne =>
    constructor
    · intro h
      cases h
    · rintro ⟨text, hparts, -⟩
      exact absurd hparts (hne _ _ _)

/-- What the parser makes of a struct tag, from what it makes of the arguments. -/
def parseStruct (lib : HexLib) (parse : List Char → Except SignerError TypeTag) (value : List Char) :
    Except SignerError TypeTag := do
  let (base, args) ← splitStruct value
  let (address, moduleName, name) ← parseBase lib base
  match args with
  | some args => do
    let args ← splitTypeArgs args
    let typeArgs ← tryMap parse args
    .ok (.struct address moduleName name typeArgs)
  | none => .ok (.struct address moduleName name [])

/-- What is read as a struct type. -/
lemma parseStruct_eq_ok_iff {parse : List Char → Except SignerError TypeTag} {value : List Char}
    {t : TypeTag} :
    parseStruct lib parse value = .ok t ↔
      (∃ address moduleName name, ReadsBase lib value address moduleName name ∧
        t = .struct address moduleName name []) ∨
      ∃ address moduleName name base text texts typeArgs, ReadsBase lib base address moduleName name ∧
        value = base ++ '<' :: (text ++ ['>']) ∧ cutAtCommas 0 text = some texts ∧
        List.Forall₂ (fun text t => parse text = .ok t) ((texts.map trim).filter (· ≠ [])) typeArgs ∧
        t = .struct address moduleName name typeArgs := by
  unfold parseStruct
  simp only [bind_eq_ok_iff, Prod.exists]
  constructor
  · rintro ⟨base, args, hsplit, address, moduleName, name, hparts, h⟩
    obtain ⟨hbase, ⟨rfl, rfl⟩ | ⟨text, rfl, rfl⟩⟩ := splitStruct_eq_ok_iff.1 hsplit
    · cases h
      exact .inl ⟨address, moduleName, name, ⟨hbase, parseBase_eq_ok_iff.1 hparts⟩, rfl⟩
    · simp only [bind_eq_ok_iff] at h
      obtain ⟨args, hargs, typeArgs, htypes, h⟩ := h
      cases h
      obtain ⟨texts, hcut, rfl⟩ := splitTypeArgs_eq_ok_iff.1 hargs
      exact .inr ⟨address, moduleName, name, base, text, texts, typeArgs,
        ⟨hbase, parseBase_eq_ok_iff.1 hparts⟩, rfl, hcut, tryMap_eq_ok_iff.1 htypes, rfl⟩
  · rintro (⟨address, moduleName, name, ⟨hbase, hparts⟩, rfl⟩ |
      ⟨address, moduleName, name, base, text, texts, typeArgs, ⟨hbase, hparts⟩, rfl, hcut, hargs, rfl⟩)
    · exact ⟨value, none, splitStruct_eq_ok_iff.2 ⟨hbase, .inl ⟨rfl, rfl⟩⟩, address, moduleName, name,
        parseBase_eq_ok_iff.2 hparts, rfl⟩
    · refine ⟨base, some text, splitStruct_eq_ok_iff.2 ⟨hbase, .inr ⟨text, rfl, rfl⟩⟩, address,
        moduleName, name, parseBase_eq_ok_iff.2 hparts, ?_⟩
      simp only [bind_eq_ok_iff]
      exact ⟨_, splitTypeArgs_eq_ok_iff.2 ⟨texts, hcut, rfl⟩, typeArgs, tryMap_eq_ok_iff.2 hargs, rfl⟩

lemma parseTypeTagAtDepth_succ (left : ℕ) (value : List Char) :
    parseTypeTagAtDepth lib (left + 1) value =
      match primitiveTypes.lookup (String.ofList (trim value)) with
      | some tag => .ok tag
      | none =>
        if vectorMark <+: trim value ∧ (trim value).getLast? = some '>' then do
          let inner ← parseTypeTagAtDepth lib left ((trim value).drop vectorMark.length).dropLast
          .ok (.vector inner)
        else parseStruct lib (parseTypeTagAtDepth lib left) (trim value) := by
  rw [parseTypeTagAtDepth]
  rfl

lemma nestingArgs_le_iff {typeArgs : List TypeTag} {n : ℕ} :
    TypeTag.nestingArgs typeArgs ≤ n ↔ ∀ t ∈ typeArgs, t.nesting < n := by
  induction typeArgs with
  | nil => simp [TypeTag.nestingArgs]
  | cons first rest ih =>
    rw [TypeTag.nestingArgs, List.forall_mem_cons, ← ih]
    omega

/-- A vector text: its mark in front and a closing bracket at its end. -/
lemma vectorText_iff {value : List Char} :
    vectorMark <+: value ∧ value.getLast? = some '>' ↔
      ∃ text, value = vectorMark ++ (text ++ ['>']) := by
  constructor
  · rintro ⟨⟨rest, rfl⟩, hlast⟩
    rcases rest.eq_nil_or_concat with rfl | ⟨text, c, rfl⟩
    · cases hlast
    · rw [List.concat_eq_append, ← List.append_assoc, List.getLast?_concat] at hlast
      cases hlast
      exact ⟨text, by rw [List.concat_eq_append]⟩
  · rintro ⟨text, rfl⟩
    exact ⟨List.prefix_append _ _, by rw [← List.append_assoc, List.getLast?_concat]⟩

/-! ## Which of the texts it is -/

lemma lookup_of_mem {name : String} {tag : TypeTag} (h : (name, tag) ∈ primitiveTypes) :
    primitiveTypes.lookup name = some tag := by
  simp only [primitiveTypes, List.mem_cons, Prod.mk.injEq, List.not_mem_nil, or_false] at h
  rcases h with ⟨rfl, rfl⟩ | ⟨rfl, rfl⟩ | ⟨rfl, rfl⟩ | ⟨rfl, rfl⟩ | ⟨rfl, rfl⟩ | ⟨rfl, rfl⟩ |
    ⟨rfl, rfl⟩ | ⟨rfl, rfl⟩ | ⟨rfl, rfl⟩ | ⟨rfl, rfl⟩ <;> rfl

lemma mem_of_lookup {name : String} {tag : TypeTag} (h : primitiveTypes.lookup name = some tag) :
    (name, tag) ∈ primitiveTypes := by
  obtain ⟨before, after, hsplit, -⟩ := List.lookup_eq_some_iff.1 h
  rw [hsplit]
  simp

/-- A name of a type has neither brackets nor colons, and its type no arguments. -/
theorem primitive_spec {name : String} {tag : TypeTag} (h : (name, tag) ∈ primitiveTypes) :
    '<' ∉ name.toList ∧ (splitColons name.toList).length = 1 ∧ tag.nesting = 0 := by
  have hnames : ∀ p ∈ primitiveTypes, '<' ∉ p.1.toList ∧ (splitColons p.1.toList).length = 1 ∧
      p.2.nesting = 0 := by decide
  exact hnames _ h

lemma lookup_eq_none_of_mem {value : List Char} (h : '<' ∈ value) :
    primitiveTypes.lookup (String.ofList value) = none := by
  cases hlookup : primitiveTypes.lookup (String.ofList value) with
  | none => rfl
  | some tag =>
    have hname := (primitive_spec (mem_of_lookup hlookup)).1
    rw [String.toList_ofList] at hname
    exact absurd h hname

lemma lookup_eq_none_of_base {value moduleName name : List Char} {address : AccountAddress}
    (h : ReadsBase lib value address moduleName name) :
    primitiveTypes.lookup (String.ofList value) = none := by
  obtain ⟨-, text, hparts, -⟩ := h
  cases hlookup : primitiveTypes.lookup (String.ofList value) with
  | none => rfl
  | some tag =>
    have hname := (primitive_spec (mem_of_lookup hlookup)).2.1
    rw [String.toList_ofList, hparts] at hname
    simp at hname

/-- The base of a struct is not what stands in front of the bracket of a vector. -/
theorem not_vectorText_of_base {base moduleName name rest : List Char} {address : AccountAddress}
    (h : ReadsBase lib base address moduleName name) :
    ∀ text, base ++ '<' :: rest ≠ vectorMark ++ (text ++ ['>']) := by
  intro text heq
  obtain ⟨hbase, part, hparts, -⟩ := h
  have hmark : vectorMark ++ (text ++ ['>']) = "vector".toList ++ '<' :: (text ++ ['>']) := rfl
  obtain ⟨rfl, -⟩ := (append_separator_inj hbase (by decide)).1 (heq.trans hmark)
  have hlength : (splitColons "vector".toList).length = 1 := by decide
  rw [hparts] at hlength
  cases hlength

/-- **What the parser accepts**: the texts of type tags that are nested less than its depth. -/
theorem parseTypeTagAtDepth_eq_ok_iff (left : ℕ) : ∀ (value : List Char) (t : TypeTag),
    parseTypeTagAtDepth lib left value = .ok t ↔ t.nesting < left ∧ Reads lib t value := by
  induction left with
  | zero =>
    intro value t
    constructor
    · intro h
      cases h
    · rintro ⟨h, -⟩
      cases h
  | succ left ih =>
    intro value t
    rw [parseTypeTagAtDepth_succ]
    constructor
    · intro h
      split at h
      case h_1 tag hlookup =>
        cases h
        have hmem := mem_of_lookup hlookup
        exact ⟨by rw [(primitive_spec hmem).2.2]; exact Nat.succ_pos left,
          .primitive hmem (String.toList_ofList).symm⟩
      case h_2 =>
        split at h
        case isTrue hvector =>
          obtain ⟨text, htext⟩ := vectorText_iff.1 hvector
          obtain ⟨inner, hinner, h⟩ := bind_eq_ok_iff.1 h
          cases h
          rw [htext, List.drop_left, List.dropLast_concat, ih] at hinner
          exact ⟨Nat.succ_lt_succ hinner.1, .vector htext hinner.2⟩
        case isFalse =>
          rcases parseStruct_eq_ok_iff.1 h with ⟨address, moduleName, name, hbase, rfl⟩ |
            ⟨address, moduleName, name, base, text, texts, typeArgs, hbase, htext, hcut, hargs, rfl⟩
          · exact ⟨Nat.succ_pos left, .plain hbase⟩
          · refine ⟨Nat.lt_succ_of_le (nestingArgs_le_iff.2 fun t ht => ?_),
              .generic hbase htext hcut (hargs.flip.imp fun t text h => ((ih text t).1 h).2)⟩
            obtain ⟨text, -, h⟩ := exists_mem_of_tryMap (tryMap_eq_ok_iff.2 hargs) ht
            exact ((ih text t).1 h).1
    · rintro ⟨hnesting, h⟩
      cases h with
      | primitive hmem htext => rw [htext, String.ofList_toList, lookup_of_mem hmem]
      | @vector inner text _ htext h =>
        have hmem : '<' ∈ trim value := by
          rw [htext]
          exact List.mem_append_left _ (by decide)
        have hinner : parseTypeTagAtDepth lib left text = .ok inner :=
          (ih text inner).2 ⟨Nat.lt_of_succ_lt_succ hnesting, h⟩
        rw [lookup_eq_none_of_mem hmem]
        simp only [if_pos (vectorText_iff.2 ⟨text, htext⟩)]
        rw [htext, List.drop_left, List.dropLast_concat, hinner]
        rfl
      | plain hbase =>
        rw [lookup_eq_none_of_base hbase]
        have hvector : ¬ (vectorMark <+: trim value ∧ (trim value).getLast? = some '>') := by
          rintro ⟨⟨rest, hrest⟩, -⟩
          refine hbase.1 ?_
          rw [← hrest]
          exact List.mem_append_left _ (by decide)
        simp only [if_neg hvector]
        exact parseStruct_eq_ok_iff.2 (.inl ⟨_, _, _, hbase, rfl⟩)
      | generic hbase htext hcut hargs =>
        have hmem : '<' ∈ trim value := by
          rw [htext]
          simp
        have hvector : ¬ (vectorMark <+: trim value ∧ (trim value).getLast? = some '>') := by
          rw [vectorText_iff, htext]
          rintro ⟨text, h⟩
          exact not_vectorText_of_base hbase text h
        rw [lookup_eq_none_of_mem hmem]
        simp only [if_neg hvector]
        refine parseStruct_eq_ok_iff.2 (.inr ⟨_, _, _, _, _, _, _, hbase, htext, hcut, ?_, rfl⟩)
        have hnested := nestingArgs_le_iff.1 (Nat.le_of_lt_succ hnesting)
        exact ((List.forall₂_and_left _ _).2 ⟨hnested, hargs⟩).flip.imp fun text t h => (ih text t).2 h

/-- **What is accepted**: the texts of type tags that are nested 64 times at most. -/
theorem parseTypeTag_eq_ok_iff {value : List Char} {t : TypeTag} :
    parseTypeTag lib value = .ok t ↔ t.nesting ≤ maxTypeTagDepth ∧ Reads lib t value := by
  rw [parseTypeTag, parseTypeTagAtDepth_eq_ok_iff, Nat.lt_succ_iff]

/-! ## The usual texts -/

/-- White space on both sides of a text. -/
def Padded (text value : List Char) : Prop :=
  ∃ before after, (∀ c ∈ before, isWhitespace c = true) ∧ (∀ c ∈ after, isWhitespace c = true) ∧
    value = before ++ text ++ after

/-- The identifiers of Move: letters, digits and underscores, no digit in front. -/
def IsIdentifier (name : List Char) : Prop :=
  (∀ c ∈ name, c.isAlphanum ∨ c = '_') ∧ ∃ c rest, name = c :: rest ∧ c.isDigit = false

/-- A text of an address: hex digits behind the mark. -/
def AddressText (lib : HexLib) (address : AccountAddress) (text : List Char) : Prop :=
  ∃ digits, text = '0' :: 'x' :: digits ∧ (∀ c ∈ digits, (hexDigit c).isSome = true) ∧
    AccountAddress.fromHex lib text = .ok address

/-- The base of a struct tag: `address::module::Name`. -/
def BaseText (lib : HexLib) (address : AccountAddress) (moduleName name base : List Char) : Prop :=
  IsIdentifier moduleName ∧ IsIdentifier name ∧ ∃ text, AddressText lib address text ∧
    base = text ++ "::".toList ++ moduleName ++ "::".toList ++ name

/-- **The usual texts of a type tag**, whose names are identifiers, with any white space around them and
around the arguments: `address::module::Name<arg, ...>`, `vector<T>` and the names of the other types. -/
inductive IsText (lib : HexLib) : TypeTag → List Char → Prop
  | primitive {name : String} {tag : TypeTag} {value : List Char} (h : (name, tag) ∈ primitiveTypes)
      (hvalue : Padded name.toList value) : IsText lib tag value
  | vector {inner : TypeTag} {text value : List Char} (h : IsText lib inner text)
      (hvalue : Padded (vectorMark ++ (text ++ ['>'])) value) : IsText lib (.vector inner) value
  | plain {address : AccountAddress} {base moduleName name value : List Char}
      (hbase : BaseText lib address moduleName name base) (hvalue : Padded base value) :
      IsText lib (.struct address moduleName name []) value
  | generic {address : AccountAddress} {base moduleName name value : List Char}
      {texts : List (List Char)} {typeArgs : List TypeTag}
      (hbase : BaseText lib address moduleName name base) (hne : typeArgs ≠ [])
      (hargs : List.Forall₂ (IsText lib) typeArgs texts)
      (hvalue : Padded (base ++ '<' :: ([','].intercalate texts ++ ['>'])) value) :
      IsText lib (.struct address moduleName name typeArgs) value

/-! ## White space around texts -/

/-- A text with no white space at its ends. -/
structure Bare (text : List Char) : Prop where
  ne_nil : text ≠ []
  head : ∀ c ∈ text.head?, isWhitespace c = false
  last : ∀ c ∈ text.getLast?, isWhitespace c = false

lemma Padded.refl (text : List Char) : Padded text text :=
  ⟨[], [], by simp, by simp, by simp⟩

lemma Padded.trim_eq {text value : List Char} (h : Padded text value) (hbare : Bare text) :
    trim value = text := by
  obtain ⟨before, after, hbefore, hafter, rfl⟩ := h
  exact trim_pad hbefore hafter hbare.head hbare.last

/-- White space is no character of an identifier. -/
lemma isWhitespace_of_identifier {c : Char} (h : c.isAlphanum = true ∨ c = '_') :
    isWhitespace c = false := by
  have hrange : (48 ≤ c.toNat ∧ c.toNat ≤ 57) ∨ (65 ≤ c.toNat ∧ c.toNat ≤ 90) ∨
      (97 ≤ c.toNat ∧ c.toNat ≤ 122) ∨ c.toNat = 95 := by
    rcases h with h | rfl
    · rw [show c.isAlphanum = ((decide (65 ≤ c.val ∧ c.val ≤ 90) ||
          decide (97 ≤ c.val) && decide (c.val ≤ 122)) ||
          decide (48 ≤ c.val) && decide (c.val ≤ 57)) from rfl] at h
      simp only [Bool.or_eq_true, Bool.and_eq_true, decide_eq_true_eq, UInt32.le_iff_toNat_le] at h
      change ((65 ≤ c.toNat ∧ c.toNat ≤ 90 ∨ 97 ≤ c.toNat ∧ c.toNat ≤ 122) ∨
        48 ≤ c.toNat ∧ c.toNat ≤ 57) at h
      omega
    · exact .inr (.inr (.inr rfl))
  simp only [isWhitespace, Bool.or_eq_false_iff, Bool.and_eq_false_iff, decide_eq_false_iff_not,
    beq_eq_false_iff_ne]
  omega

/-- A hex digit is no separator of a type tag. -/
lemma hexDigit_ne {c d : Char} (h : (hexDigit c).isSome = true) (hd : hexDigit d = none) : c ≠ d := by
  rintro rfl
  rw [hd] at h
  cases h

/-- The characters that separate the parts of a type tag. -/
def separators : List Char := ['<', '>', ',', ':']

lemma IsIdentifier.not_separator {name : List Char} (h : IsIdentifier name) :
    ∀ c ∈ name, c ∉ separators := by
  intro c hc hmem
  have hall : ∀ d ∈ separators, ¬ (d.isAlphanum = true ∨ d = '_') := by decide
  exact hall c hmem (h.1 c hc)

lemma AddressText.not_separator {address : AccountAddress} {text : List Char}
    (h : AddressText lib address text) : ∀ c ∈ text, c ∉ separators := by
  obtain ⟨digits, rfl, hdigits, -⟩ := h
  have hall : ∀ d ∈ separators, hexDigit d = none ∧ d ≠ '0' ∧ d ≠ 'x' := by decide
  intro c hc hmem
  obtain ⟨hnone, hzero, hx⟩ := hall c hmem
  rcases List.mem_cons.1 hc with rfl | hc
  · exact hzero rfl
  · rcases List.mem_cons.1 hc with rfl | hc
    · exact hx rfl
    · exact hexDigit_ne (hdigits c hc) hnone rfl

lemma splitColons_of_not_mem {text : List Char} (h : ':' ∉ text) : splitColons text = [text] := by
  induction text with
  | nil => rfl
  | cons c rest ih =>
    rw [List.mem_cons, not_or] at h
    rw [splitColons]
    · rw [ih h.2]
    · rintro rest' rfl -
      exact h.1 rfl

lemma splitColons_append {text : List Char} (h : ':' ∉ text) (rest : List Char) :
    splitColons (text ++ ':' :: ':' :: rest) = text :: splitColons rest := by
  induction text with
  | nil => rfl
  | cons c text ih =>
    rw [List.mem_cons, not_or] at h
    rw [List.cons_append, splitColons]
    · rw [ih h.2]
    · rintro rest' rfl -
      exact h.1 rfl

/-- The base of a struct tag has neither brackets nor commas. -/
lemma BaseText.not_mem {address : AccountAddress} {moduleName name base : List Char}
    (h : BaseText lib address moduleName name base) : ∀ c ∈ base, c ∉ ['<', '>', ','] := by
  obtain ⟨hmodule, hname, text, haddress, rfl⟩ := h
  have hsub : ∀ c, c ∈ ['<', '>', ','] → c ∈ separators := by decide
  intro c hc hmem
  simp only [List.mem_append] at hc
  rcases hc with (((hc | hc) | hc) | hc) | hc
  · exact haddress.not_separator c hc (hsub c hmem)
  · revert c
    decide
  · exact hmodule.not_separator c hc (hsub c hmem)
  · revert c
    decide
  · exact hname.not_separator c hc (hsub c hmem)

lemma BaseText.reads {address : AccountAddress} {moduleName name base : List Char}
    (h : BaseText lib address moduleName name base) : ReadsBase lib base address moduleName name := by
  refine ⟨fun hmem => h.not_mem _ hmem (by decide), ?_⟩
  obtain ⟨hmodule, hname, text, haddress, rfl⟩ := h
  have hcolon : ∀ {part : List Char}, (∀ c ∈ part, c ∉ separators) → ':' ∉ part :=
    fun h hmem => h _ hmem (by decide)
  refine ⟨text, ?_, haddress.choose_spec.2.2⟩
  have hbase : text ++ "::".toList ++ moduleName ++ "::".toList ++ name =
      text ++ ':' :: ':' :: (moduleName ++ ':' :: ':' :: name) := by simp
  rw [hbase, splitColons_append (hcolon haddress.not_separator),
    splitColons_append (hcolon hmodule.not_separator),
    splitColons_of_not_mem (hcolon hname.not_separator)]

lemma BaseText.bare {address : AccountAddress} {moduleName name base : List Char}
    (h : BaseText lib address moduleName name base) :
    Bare base ∧ ∀ text, Bare (base ++ '<' :: (text ++ ['>'])) := by
  obtain ⟨hmodule, ⟨hall, first, rest, rfl, -⟩, text, ⟨digits, rfl, -⟩, rfl⟩ := h
  refine ⟨⟨by simp, ?_, ?_⟩, fun text => ⟨by simp, ?_, ?_⟩⟩
  · intro c hc
    cases hc
    decide
  · intro c hc
    rw [List.getLast?_append_of_ne_nil _ (List.cons_ne_nil _ _)] at hc
    exact isWhitespace_of_identifier (hall c (List.mem_of_getLast? hc))
  · intro c hc
    cases hc
    decide
  · intro c hc
    rw [getLast?_bracket] at hc
    cases hc
    decide

/-! ## Brackets of the usual texts -/

/-- A text that the scan for commas passes at every depth. -/
def Balanced (text : List Char) : Prop :=
  ∀ depth rest, cutAtCommas depth (text ++ rest) = (cutAtCommas depth rest).map (prepend text)

/-- A text that the scan for commas passes inside brackets. -/
def Nested (text : List Char) : Prop :=
  ∀ depth rest,
    cutAtCommas (depth + 1) (text ++ rest) = (cutAtCommas (depth + 1) rest).map (prepend text)

lemma map_prepend_nil (depth : ℕ) (rest : List Char) :
    (cutAtCommas depth rest).map (prepend []) = cutAtCommas depth rest := by
  cases h : cutAtCommas depth rest with
  | none => rfl
  | some texts => rw [Option.map_some, prepend_nil (cutAtCommas_ne_nil h)]

lemma map_prepend_append (text text' : List Char) (o : Option (List (List Char))) :
    (o.map (prepend text')).map (prepend text) = o.map (prepend (text ++ text')) := by
  cases o with
  | none => rfl
  | some texts => simp only [Option.map_some, prepend_append]

lemma Balanced.nested {text : List Char} (h : Balanced text) : Nested text :=
  fun depth rest => h (depth + 1) rest

lemma Nested.append {text text' : List Char} (h : Nested text) (h' : Nested text') :
    Nested (text ++ text') := by
  intro depth rest
  rw [List.append_assoc, h, h', map_prepend_append]

/-- A comma inside brackets separates nothing. -/
lemma nested_comma : Nested [','] := by
  intro depth rest
  rw [List.singleton_append, cutAtCommas, if_neg (by simp), if_neg (by simp)]
  rfl

/-- A text without brackets and commas. -/
lemma balanced_of_not_mem {text : List Char} (h : ∀ c ∈ text, c ∉ ['<', '>', ',']) :
    Balanced text := by
  intro depth rest
  induction text with
  | nil => rw [List.nil_append, map_prepend_nil]
  | cons c text ih =>
    obtain ⟨hc, htext⟩ := List.forall_mem_cons.1 h
    simp only [List.mem_cons, List.not_mem_nil, or_false, not_or] at hc
    rw [List.cons_append, cutAtCommas, if_neg fun h => hc.2.1 h.1, if_neg fun h => hc.2.2 h.1,
      nextDepth, if_neg hc.1, if_neg hc.2.1, ih htext, map_prepend_append]
    rfl

lemma Balanced.append {text text' : List Char} (h : Balanced text) (h' : Balanced text') :
    Balanced (text ++ text') := by
  intro depth rest
  rw [List.append_assoc, h, h', map_prepend_append]

/-- What is inside brackets need not be passed outside them. -/
lemma Nested.bracket {text : List Char} (h : Nested text) : Balanced ('<' :: (text ++ ['>'])) := by
  intro depth rest
  have hclose : cutAtCommas (depth + 1) ('>' :: rest) = (cutAtCommas depth rest).map (prepend ['>']) := by
    rw [cutAtCommas, if_neg (by simp), if_neg (by simp)]
    rfl
  rw [List.cons_append, cutAtCommas, if_neg (by simp), if_neg (by simp), List.append_assoc,
    List.singleton_append]
  show (cutAtCommas (depth + 1) (text ++ '>' :: rest)).map (prepend ['<']) = _
  rw [h, hclose, map_prepend_append, map_prepend_append]
  rfl

lemma nested_intercalate {texts : List (List Char)} (h : ∀ text ∈ texts, Balanced text) :
    Nested ([','].intercalate texts) := by
  induction texts with
  | nil => exact (balanced_of_not_mem (by simp)).nested
  | cons first rest ih =>
    obtain ⟨hfirst, hrest⟩ := List.forall_mem_cons.1 h
    cases rest with
    | nil => simpa using hfirst.nested
    | cons second rest =>
      rw [List.intercalate_cons_cons]
      exact (hfirst.nested.append nested_comma).append (ih hrest)

/-- Texts with commas between them are cut apart again. -/
lemma cutAtCommas_intercalate {texts : List (List Char)} (hne : texts ≠ [])
    (h : ∀ text ∈ texts, Balanced text) : cutAtCommas 0 ([','].intercalate texts) = some texts := by
  induction texts with
  | nil => exact absurd rfl hne
  | cons first rest ih =>
    obtain ⟨hfirst, hrest⟩ := List.forall_mem_cons.1 h
    cases rest with
    | nil =>
      have hcut := hfirst 0 []
      simpa [cutAtCommas, prepend] using hcut
    | cons second rest =>
      rw [List.intercalate_cons_cons, List.append_assoc, hfirst, List.singleton_append, cutAtCommas,
        if_neg (by decide), if_pos (by decide), ih (List.cons_ne_nil _ _) hrest]
      simp [prepend]

/-! ## The usual texts are read -/

lemma bare_primitive {name : String} {tag : TypeTag} (h : (name, tag) ∈ primitiveTypes) :
    Bare name.toList ∧ ∀ c ∈ name.toList, c ∉ ['<', '>', ','] := by
  have hnames : ∀ p ∈ primitiveTypes, p.1.toList ≠ [] ∧
      (∀ c ∈ p.1.toList.head?, isWhitespace c = false) ∧
      (∀ c ∈ p.1.toList.getLast?, isWhitespace c = false) ∧
      ∀ c ∈ p.1.toList, c ∉ ['<', '>', ','] := by decide
  obtain ⟨hne, hhead, hlast, hnone⟩ := hnames _ h
  exact ⟨⟨hne, hhead, hlast⟩, hnone⟩

lemma bare_vector (text : List Char) : Bare (vectorMark ++ (text ++ ['>'])) := by
  refine ⟨by simp, ?_, ?_⟩
  · intro c hc
    cases hc
    decide
  · intro c hc
    rw [← List.append_assoc, List.getLast?_concat] at hc
    cases hc
    decide

lemma balanced_of_isWhitespace {text : List Char} (h : ∀ c ∈ text, isWhitespace c = true) :
    Balanced text := by
  refine balanced_of_not_mem fun c hc hmem => ?_
  have hnone : ∀ d ∈ ['<', '>', ','], isWhitespace d = false := by decide
  exact absurd (h c hc) (by rw [hnone c hmem]; exact Bool.false_ne_true)

lemma Padded.balanced {text value : List Char} (h : Padded text value) (htext : Balanced text) :
    Balanced value := by
  obtain ⟨before, after, hbefore, hafter, rfl⟩ := h
  exact ((balanced_of_isWhitespace hbefore).append htext).append (balanced_of_isWhitespace hafter)

/-- What remains of a usual text without the white space around it is one. -/
lemma IsText.trim {t : TypeTag} {value : List Char} (h : IsText lib t value) :
    trim value ≠ [] ∧ IsText lib t (trim value) := by
  cases h with
  | primitive hmem hvalue =>
    have hbare := (bare_primitive hmem).1
    rw [hvalue.trim_eq hbare]
    exact ⟨hbare.ne_nil, .primitive hmem (Padded.refl _)⟩
  | vector h hvalue =>
    rw [hvalue.trim_eq (bare_vector _)]
    exact ⟨(bare_vector _).ne_nil, .vector h (Padded.refl _)⟩
  | plain hbase hvalue =>
    rw [hvalue.trim_eq hbase.bare.1]
    exact ⟨hbase.bare.1.ne_nil, .plain hbase (Padded.refl _)⟩
  | generic hbase hne hargs hvalue =>
    have hbare := hbase.bare.2
    rw [hvalue.trim_eq (hbare _)]
    exact ⟨(hbare _).ne_nil, .generic hbase hne hargs (Padded.refl _)⟩

/-- **The usual texts are read**, and their brackets are balanced.

**Proof sketch.** By induction on how deep the arguments are nested: the texts of the arguments are read
and balanced, so the scan cuts at the commas between them and passes the brackets around them. -/
theorem IsText.reads_and_balanced (n : ℕ) : ∀ {t : TypeTag} {value : List Char}, t.nesting < n →
    IsText lib t value → Reads lib t value ∧ Balanced value := by
  induction n with
  | zero => exact fun h => absurd h (Nat.not_lt_zero _)
  | succ n ih =>
    intro t value hnesting h
    cases h with
    | primitive hmem hvalue =>
      obtain ⟨hbare, hnone⟩ := bare_primitive hmem
      exact ⟨.primitive hmem (hvalue.trim_eq hbare), hvalue.balanced (balanced_of_not_mem hnone)⟩
    | @vector inner text _ h hvalue =>
      obtain ⟨hreads, hbalanced⟩ := ih (Nat.lt_of_succ_lt_succ hnesting) h
      refine ⟨.vector (hvalue.trim_eq (bare_vector _)) hreads, hvalue.balanced ?_⟩
      have hname : Balanced ("vector".toList ++ '<' :: (text ++ ['>'])) :=
        (balanced_of_not_mem (by decide)).append hbalanced.nested.bracket
      exact hname
    | plain hbase hvalue =>
      refine ⟨.plain ?_, hvalue.balanced (balanced_of_not_mem hbase.not_mem)⟩
      rw [hvalue.trim_eq hbase.bare.1]
      exact hbase.reads
    | @generic address base moduleName name _ texts typeArgs hbase hne hargs hvalue =>
      have hargs' : List.Forall₂ (fun t text => t.nesting < n ∧ IsText lib t text) typeArgs texts :=
        (List.forall₂_and_left _ _).2 ⟨nestingArgs_le_iff.1 (Nat.le_of_lt_succ hnesting), hargs⟩
      have hbalanced : ∀ text ∈ texts, Balanced text := by
        intro text htext
        obtain ⟨t, ht, h⟩ := exists_mem_of_forall₂ hargs' htext
        exact (ih h.1 h.2).2
      have hne' : texts ≠ [] := by
        rintro rfl
        cases hargs
        exact hne rfl
      refine ⟨.generic hbase.reads (hvalue.trim_eq (hbase.bare.2 _))
        (cutAtCommas_intercalate hne' hbalanced) ?_, hvalue.balanced ?_⟩
      · have hkept : (texts.map GemCore.trim).filter (· ≠ []) = texts.map GemCore.trim := by
          refine List.filter_eq_self.2 fun trimmed htrimmed => ?_
          obtain ⟨text, htext, rfl⟩ := List.mem_map.1 htrimmed
          obtain ⟨t, ht, h⟩ := exists_mem_of_forall₂ hargs' htext
          exact decide_eq_true h.2.trim.1
        rw [hkept, List.forall₂_map_right_iff]
        exact hargs'.imp fun t text h => (ih h.1 h.2.trim.2).1
      · exact (balanced_of_not_mem hbase.not_mem).append (nested_intercalate hbalanced).bracket

/-! ## The text that is written -/

/-- Hex digits that are written are read. -/
lemma hexDigit_of_isLowerHex {c : Char} (h : Keystore.isLowerHex c = true) :
    (hexDigit c).isSome = true := by
  simp only [Keystore.isLowerHex, Bool.or_eq_true, Bool.and_eq_true, decide_eq_true_eq] at h
  unfold hexDigit
  rcases h with h | h
  · rw [if_pos h]
    rfl
  · by_cases hdecimal : '0' ≤ c ∧ c ≤ '9'
    · rw [if_pos hdecimal]
      rfl
    · rw [if_neg hdecimal, if_pos h]
      rfl

/-- The text of an address is read as that address. -/
lemma addressText_text (address : AccountAddress) : AddressText lib address address.text := by
  have hlower : ∀ c ∈ (Keystore.encodeHex address.val).toList, Keystore.isLowerHex c = true :=
    List.all_eq_true.mp (Keystore.isLowerHex_encodeHex address.val)
  refine ⟨_, rfl, fun c hc => hexDigit_of_isLowerHex (hlower c hc), ?_⟩
  have htrim : trim address.text = address.text := by
    refine Serde.trim_of_forall fun c hc => ?_
    rcases List.mem_cons.1 hc with rfl | hc
    · decide
    · rcases List.mem_cons.1 hc with rfl | hc
      · decide
      · exact (Serde.isLowerHex_spec (hlower c hc)).1
  have hdecode : decodeHex (String.ofList address.text) = some address.val := by
    have hmark : dropHexMark address.text = (Keystore.encodeHex address.val).toList := rfl
    rw [decodeHex, String.toList_ofList, htrim, hmark]
    exact Serde.decodeStripped_encodeHex address.val
  have hbytes : AccountAddress.fromBytes address.val = .ok address := by
    rw [AccountAddress.fromBytes, dif_pos address.property.le]
    refine congrArg Except.ok (Subtype.ext ?_)
    show List.replicate (32 - address.val.length) 0 ++ address.val = address.val
    rw [address.property]
    rfl
  have hread : AccountAddress.fromHex lib address.text = .ok address := by
    rw [AccountAddress.fromHex, hdecode, okOr_some, ok_bind, hbytes]
  exact hread

namespace TypeTag

mutual

/-- That the names in a type tag are identifiers. -/
def WellNamed : TypeTag → Prop
  | vector inner => inner.WellNamed
  | struct _ moduleName name typeArgs =>
    IsIdentifier moduleName ∧ IsIdentifier name ∧ WellNamedArgs typeArgs
  | _ => True

/-- That the names in a list of arguments are identifiers. -/
def WellNamedArgs : List TypeTag → Prop
  | [] => True
  | first :: rest => first.WellNamed ∧ WellNamedArgs rest

end

end TypeTag

lemma wellNamedArgs_iff {typeArgs : List TypeTag} :
    TypeTag.WellNamedArgs typeArgs ↔ ∀ t ∈ typeArgs, t.WellNamed := by
  induction typeArgs with
  | nil => simp [TypeTag.WellNamedArgs]
  | cons first rest ih => rw [TypeTag.WellNamedArgs, ih, List.forall_mem_cons]

lemma renderArgs_eq_map (typeArgs : List TypeTag) :
    TypeTag.renderArgs typeArgs = typeArgs.map TypeTag.render := by
  induction typeArgs with
  | nil => rfl
  | cons first rest ih =>
    show first.render :: TypeTag.renderArgs rest = _
    rw [ih, List.map_cons]

/-- White space around a usual text leaves it one. -/
lemma IsText.pad {t : TypeTag} {value : List Char} (h : IsText lib t value) :
    IsText lib t (' ' :: value) := by
  have hpad : ∀ {text : List Char}, Padded text value → Padded text (' ' :: value) := by
    rintro text ⟨before, after, hbefore, hafter, rfl⟩
    exact ⟨' ' :: before, after, List.forall_mem_cons.2 ⟨by decide, hbefore⟩, hafter, rfl⟩
  cases h with
  | primitive hmem hvalue => exact .primitive hmem (hpad hvalue)
  | vector h hvalue => exact .vector h (hpad hvalue)
  | plain hbase hvalue => exact .plain hbase (hpad hvalue)
  | generic hbase hne hargs hvalue => exact .generic hbase hne hargs (hpad hvalue)

/-- A comma and a space between texts is a comma between texts with a space in front. -/
theorem intercalate_space (first : List Char) (rest : List (List Char)) :
    ", ".toList.intercalate (first :: rest) = [','].intercalate (first :: rest.map (' ' :: ·)) := by
  have hhead : ∀ (c : Char) (text : List Char) (texts : List (List Char)),
      [','].intercalate ((c :: text) :: texts) = c :: [','].intercalate (text :: texts) := by
    intro c text texts
    cases texts with
    | nil => simp
    | cons next texts => simp [List.intercalate_cons_cons]
  induction rest generalizing first with
  | nil => simp
  | cons second rest ih =>
    rw [List.intercalate_cons_cons, List.map_cons, List.intercalate_cons_cons, hhead, ← ih]
    simp

/-- A name is a usual text. -/
lemma isText_name {name : String} {tag : TypeTag} (h : (name, tag) ∈ primitiveTypes) :
    IsText lib tag name.toList := .primitive h (Padded.refl _)

lemma render_vector (inner : TypeTag) :
    (TypeTag.vector inner).render = vectorMark ++ (inner.render ++ ['>']) :=
  List.append_assoc vectorMark inner.render ['>']

lemma render_struct (address : AccountAddress) (moduleName name : List Char)
    (typeArgs : List TypeTag) :
    (TypeTag.struct address moduleName name typeArgs).render =
      address.text ++ "::".toList ++ moduleName ++ "::".toList ++ name ++
        if typeArgs.isEmpty then []
        else '<' :: (", ".toList.intercalate (typeArgs.map TypeTag.render) ++ ['>']) := by
  rw [← renderArgs_eq_map]
  rfl

/-- **The text that is written is a usual one.** -/
theorem isText_render (n : ℕ) : ∀ {t : TypeTag}, t.nesting < n → t.WellNamed →
    IsText lib t t.render := by
  induction n with
  | zero => exact fun h => absurd h (Nat.not_lt_zero _)
  | succ n ih =>
    intro t hnesting hnamed
    cases t with
    | vector inner =>
      refine .vector (ih (Nat.lt_of_succ_lt_succ hnesting) hnamed) ?_
      exact render_vector inner ▸ Padded.refl _
    | struct address moduleName name typeArgs =>
      obtain ⟨hmodule, hname, hargs⟩ := hnamed
      have hbase : BaseText lib address moduleName name
          (address.text ++ "::".toList ++ moduleName ++ "::".toList ++ name) :=
        ⟨hmodule, hname, address.text, addressText_text address, rfl⟩
      have hnested := nestingArgs_le_iff.1 (Nat.le_of_lt_succ hnesting)
      rw [wellNamedArgs_iff] at hargs
      rw [render_struct]
      cases typeArgs with
      | nil =>
        refine .plain hbase ?_
        simpa using Padded.refl _
      | cons first rest =>
        rw [List.map_cons, intercalate_space]
        refine .generic hbase (List.cons_ne_nil _ _) (.cons ?_ ?_) (Padded.refl _)
        · exact ih (hnested first List.mem_cons_self) (hargs first List.mem_cons_self)
        · rw [List.map_map, List.forall₂_map_right_iff, List.forall₂_same]
          intro t ht
          exact (ih (hnested t (List.mem_cons_of_mem _ ht)) (hargs t (List.mem_cons_of_mem _ ht))).pad
    | bool => exact @isText_name lib "bool" .bool (by simp [primitiveTypes])
    | u8 => exact @isText_name lib "u8" .u8 (by simp [primitiveTypes])
    | u16 => exact @isText_name lib "u16" .u16 (by simp [primitiveTypes])
    | u32 => exact @isText_name lib "u32" .u32 (by simp [primitiveTypes])
    | u64 => exact @isText_name lib "u64" .u64 (by simp [primitiveTypes])
    | u128 => exact @isText_name lib "u128" .u128 (by simp [primitiveTypes])
    | u256 => exact @isText_name lib "u256" .u256 (by simp [primitiveTypes])
    | address => exact @isText_name lib "address" .address (by simp [primitiveTypes])
    | signer => exact @isText_name lib "signer" .signer (by simp [primitiveTypes])

/-! ## The parser and the texts -/

/-- A text with a bracket that is read ends with a closing one. -/
lemma Reads.getLast?_eq {t : TypeTag} {value : List Char} (h : Reads lib t value)
    (hmem : '<' ∈ trim value) : (trim value).getLast? = some '>' := by
  cases h with
  | primitive hname htext =>
    rw [htext] at hmem
    exact absurd hmem (primitive_spec hname).1
  | vector htext h => rw [htext, ← List.append_assoc, List.getLast?_concat]
  | plain hbase => exact absurd hmem hbase.1
  | generic hbase htext hcut hargs => rw [htext, getLast?_bracket]

/-- **Type tags are parsed exactly.** Every usual text of a type tag that is nested 64 times at most is
parsed as it, in particular the text that is written; and exactly the texts `Reads` are accepted, none of
which has anything behind its last closing bracket. The parser is total: it ends on every text. -/
theorem parseTypeTag_spec (lib : HexLib) :
    (∀ t value, t.nesting ≤ 64 → IsText lib t value → parseTypeTag lib value = .ok t) ∧
    (∀ t : TypeTag, t.nesting ≤ 64 → t.WellNamed → parseTypeTag lib t.render = .ok t) ∧
    (∀ t value, parseTypeTag lib value = .ok t ↔ t.nesting ≤ 64 ∧ Reads lib t value) ∧
    ∀ t value, parseTypeTag lib value = .ok t → '<' ∈ trim value →
      (trim value).getLast? = some '>' := by
  have hparse : ∀ t value, t.nesting ≤ 64 → IsText lib t value → parseTypeTag lib value = .ok t := by
    intro t value hnesting h
    exact parseTypeTag_eq_ok_iff.2 ⟨hnesting, (h.reads_and_balanced _ (Nat.lt_succ_self _)).1⟩
  refine ⟨hparse, ?_, fun t value => parseTypeTag_eq_ok_iff, ?_⟩
  · intro t hnesting hnamed
    exact hparse t _ hnesting (isText_render _ (Nat.lt_succ_self _) hnamed)
  · intro t value h
    exact (parseTypeTag_eq_ok_iff.1 h).2.getLast?_eq

/-- Crates whose errors have no text. -/
def sampleHexLib : HexLib := ⟨fun _ => ""⟩

/-- A struct tag with spaces around its arguments. -/
theorem parseTypeTag_spec_sample :
    parseTypeTag sampleHexLib "0x1::pool::Pool< u8 ,vector<bool>>".toList =
      .ok (.struct .one "pool".toList "Pool".toList [.u8, .vector .bool]) := by
  refine (parseTypeTag_spec sampleHexLib).1 _ _ (by decide) ?_
  have hvector : IsText sampleHexLib (.vector .bool) "vector<bool>".toList :=
    .vector (@isText_name _ "bool" .bool (by simp [primitiveTypes])) (Padded.refl _)
  have hu8 : IsText sampleHexLib .u8 " u8 ".toList :=
    @IsText.primitive _ "u8" _ _ (by simp [primitiveTypes]) ⟨[' '], [' '], by decide, by decide, rfl⟩
  have hbase : BaseText sampleHexLib .one "pool".toList "Pool".toList "0x1::pool::Pool".toList :=
    ⟨⟨by decide, _, _, rfl, rfl⟩, ⟨by decide, _, _, rfl, rfl⟩, "0x1".toList, ⟨['1'], rfl, by decide, rfl⟩,
      rfl⟩
  exact .generic hbase (List.cons_ne_nil _ _) (.cons hu8 (.cons hvector .nil)) (Padded.refl _)

/-- Arguments that are empty are left out, and a name may hold spaces, commas and a closing bracket. -/
theorem parseTypeTag_lenient :
    parseTypeTag sampleHexLib "0x1::pool::Pool<,u8,>".toList =
      .ok (.struct .one "pool".toList "Pool".toList [.u8]) ∧
    parseTypeTag sampleHexLib "0x1::pool::Pool<>".toList =
      .ok (.struct .one "pool".toList "Pool".toList []) ∧
    parseTypeTag sampleHexLib "0x1::my pool,::Pool>".toList =
      .ok (.struct .one "my pool,".toList "Pool>".toList []) :=
  ⟨rfl, rfl, rfl⟩

end GemCore.Aptos

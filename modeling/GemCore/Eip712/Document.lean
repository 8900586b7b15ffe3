import GemCore.Eip712.Conformance

/-!
# The digest of a document

A document carries its schema, the name of its primary type, a domain and a message. The signer
returns a digest exactly if domain and message denote values of their types, and then it is the
digest of the specification. One check goes beyond the specification: a domain with a `chainId`
that its type does not declare is refused.

## Main definitions

* `IsDocument` — the members of a document.
* `ChainIdBound` — a `chainId` in the domain is declared.

## Main results

* `hashTypedData_eq_ok_iff_denotes` — when there is a digest, and which.
-/

namespace GemCore.Eip712

open Lib

/-! ## The types of a document -/

/-- A field of a struct type in JSON. -/
def DeclaresField (j : Json) (f : String × Ty) : Prop :=
  j.get "name" = some (.str f.1) ∧ j.get "type" = some (.str f.2.text)

/-- A struct type in JSON. -/
def DeclaresStruct (entry : String × Json) (s : String × List (String × Ty)) : Prop :=
  entry.1 = s.1 ∧ ∃ items, entry.2 = .arr items ∧ List.Forall₂ DeclaresField items s.2

/-- The types table of a schema in JSON. -/
def DeclaresTypes (S : Schema) (types : Json) : Prop :=
  ∃ entries, types = .obj entries ∧ List.Forall₂ DeclaresStruct entries S.structs

/-- A document with the types of a schema. -/
structure IsDocument (S : Schema) (primaryType : String) (domain message value : Json) : Prop where
  types : ∃ types, value.get "types" = some types ∧ DeclaresTypes S types
  primaryType : value.get "primaryType" = some (.str primaryType)
  domain : (value.get "domain").getD .null = domain
  message : value.get "message" = some message

/-- The domain's type has a field `chainId`. -/
def Schema.DeclaresChainId (S : Schema) : Prop :=
  ∃ fs, S.fields "EIP712Domain" = some fs ∧ ∃ f ∈ fs, f.1 = "chainId"

/-- A `chainId` in the domain is declared by its type. -/
def ChainIdBound (S : Schema) (domain : Json) : Prop :=
  (domain.get "chainId").isSome → S.DeclaresChainId

/-- A member of a value makes it an object. -/
lemma exists_entries_of_get {value j : Json} {key : String} (h : value.get key = some j) :
    ∃ entries, value = .obj entries := by
  cases value with
  | obj entries => exact ⟨entries, rfl⟩
  | _ => cases h

lemma fromValue_of_declaresField {j : Json} {f : String × Ty} (h : DeclaresField j f) :
    TypeField.fromValue j = some (toField f) := by
  obtain ⟨entries, rfl⟩ := exists_entries_of_get h.1
  obtain ⟨hname, htype⟩ := h
  simp only [Json.get] at hname htype
  simp [TypeField.fromValue, hname, htype, Json.asStr, toField]

/-- The types table is read back. -/
lemma typesFromValue_of_declaresTypes {S : Schema} {types : Json} (h : DeclaresTypes S types) :
    typesFromValue types = some S.table := by
  obtain ⟨entries, rfl, hentries⟩ := h
  rw [typesFromValue, Json.asObject]
  refine mapM_eq_some_of_forall₂ (hentries.imp ?_)
  rintro entry s ⟨hname, items, hitems, hfields⟩
  have hread := mapM_eq_some_of_forall₂ (hfields.imp fun _ _ => fromValue_of_declaresField)
  simp [structFromValue, hitems, Json.asArray, hread, hname]

/-- A struct is found in the table as it is found in the schema. -/
lemma lookup_of_declaresStruct {entries : List (String × Json)}
    {structs : List (String × List (String × Ty))}
    (h : List.Forall₂ DeclaresStruct entries structs) {name : String}
    {fs : List (String × Ty)} (hfs : structs.lookup name = some fs) :
    ∃ items, Json.lookup entries name = some (.arr items) ∧
      List.Forall₂ DeclaresField items fs := by
  induction h with
  | nil => cases hfs
  | @cons entry s entries structs hfirst _ ih =>
    obtain ⟨key, value⟩ := entry
    obtain ⟨rfl, items, rfl, hitems⟩ := hfirst
    rw [List.lookup_cons] at hfs
    rw [Json.lookup, List.lookup_cons]
    cases hkey : name == s.1 with
    | true =>
      rw [hkey] at hfs
      obtain rfl := Option.some.inj hfs
      exact ⟨items, rfl, hitems⟩
    | false =>
      rw [hkey] at hfs
      exact ih hfs

/-- The names of the fields in JSON. -/
lemma any_name_iff {items : List Json} {fs : List (String × Ty)}
    (h : List.Forall₂ DeclaresField items fs) :
    (items.any fun j => (j.get "name").bind Json.asStr == some "chainId") = true ↔
      ∃ f ∈ fs, f.1 = "chainId" := by
  induction h with
  | nil => simp
  | cons hfirst _ ih =>
    rw [List.any_cons, Bool.or_eq_true, List.exists_mem_cons_iff, ih]
    simp [hfirst.1, Json.asStr]

/-- `null` denotes nothing. -/
lemma Denotes.ne_null {crates : Crates} {S : Schema} {t : Ty} {j : Json} {v : Val}
    (h : Denotes crates S t j v) : j ≠ .null := by
  rintro rfl
  cases h

/-- A field of a struct that denotes a value has an entry that is not `null`. -/
theorem DenotesFields.exists_entry {crates : Crates} {S : Schema}
    {entries : List (String × Json)} {fs : List (String × Ty)} {vs : List (String × Val)}
    (h : DenotesFields crates S entries fs vs) {f : String × Ty} (hf : f ∈ fs) {name : String}
    (hname : f.1 = name) : ∃ j, Json.lookup entries name = some j ∧ j ≠ .null := by
  subst hname
  induction fs generalizing vs with
  | nil => cases hf
  | cons g fs ih =>
    cases h with
    | cons hentry hvalue hvalues =>
      rcases List.mem_cons.mp hf with rfl | hf
      · exact ⟨_, hentry, hvalue.ne_null⟩
      · exact ih hvalues hf

section Documents

variable {S : Schema} {primaryType : String} {domain message value : Json}
  (hdoc : IsDocument S primaryType domain message value)

include hdoc

lemma IsDocument.deserialize :
    TypedData.deserialize value = some ⟨S.table, primaryType, domain, message⟩ := by
  obtain ⟨types, htypes, hdeclares⟩ := hdoc.types
  obtain ⟨entries, rfl⟩ := exists_entries_of_get htypes
  have hprimary := hdoc.primaryType
  have hmessage := hdoc.message
  have hdomain := hdoc.domain
  simp only [Json.get] at htypes hprimary hmessage hdomain
  simp [TypedData.deserialize, TypedData.fromMembers, htypes, hprimary, hmessage, hdomain,
    typesFromValue_of_declaresTypes hdeclares, Json.asStr]

/-- The check on the raw document sees the fields of the domain's type. -/
lemma IsDocument.schemaHasChainId_iff : schemaHasChainId value = true ↔ S.DeclaresChainId := by
  obtain ⟨types, htypes, entries, rfl, hentries⟩ := hdoc.types
  obtain ⟨fs, hfs⟩ := Option.isSome_iff_exists.mp (Schema.isSome_fields_iff.mpr S.domain)
  obtain ⟨items, hitems, hfields⟩ := lookup_of_declaresStruct hentries hfs
  rw [schemaHasChainId, htypes, Option.bind_some, Json.get, hitems, Option.bind_some, Json.asArray,
    any_name_iff hfields]
  constructor
  · intro h
    exact ⟨fs, hfs, h⟩
  · rintro ⟨fs', hfs', h⟩
    obtain rfl : fs = fs' := Option.some.inj (hfs.symm.trans hfs')
    exact h

lemma IsDocument.domain_chainId :
    (value.get "domain").bind (Json.get "chainId") = domain.get "chainId" := by
  have hdomain := hdoc.domain
  cases hget : value.get "domain" with
  | none =>
    obtain rfl : Json.null = domain := by simpa [hget] using hdomain
    rfl
  | some j =>
    obtain rfl : j = domain := by simpa [hget] using hdomain
    rfl

/-- On a domain that denotes a value, the check fails only on a `chainId` that is not declared. -/
theorem IsDocument.binding_eq_ok_iff {crates : Crates} {d : Val}
    (hd : Denotes crates S (.struct "EIP712Domain") domain d) :
    validateEip712DomainChainIdBinding value = .ok () ↔ ChainIdBound S domain := by
  -- a declared `chainId` has a value, and `null` denotes none
  have hpresent : S.DeclaresChainId → ∃ j, domain.get "chainId" = some j ∧ j ≠ .null := by
    rintro ⟨fs, hfs, f, hf, hname⟩
    cases hd with
    | @struct _ fs' entries vs hfs' hvs =>
      obtain rfl : fs = fs' := Option.some.inj (hfs.symm.trans hfs')
      exact DenotesFields.exists_entry hvs hf hname
  rw [validateEip712DomainChainIdBinding, hdoc.domain_chainId, ChainIdBound]
  cases hschema : schemaHasChainId value with
  | true =>
    have hdeclares := hdoc.schemaHasChainId_iff.mp hschema
    obtain ⟨j, hj, hnull⟩ := hpresent hdeclares
    rw [hj]
    cases j with
    | null => exact absurd rfl hnull
    | _ => exact ⟨fun _ _ => hdeclares, fun _ => rfl⟩
  | false =>
    have hdeclares : ¬S.DeclaresChainId := by
      rw [← hdoc.schemaHasChainId_iff, hschema]
      decide
    cases hget : domain.get "chainId" with
    | none => simp
    | some j => simp [hdeclares]

/-- **The digest of a document**, on a parsed document.

**Proof sketch.** The types are read back as the table of the schema, so both structs are hashed as
the specification says; the check of the chain is the only other thing that can fail. -/
theorem IsDocument.hashTypedDataValue_eq_ok_iff_denotes {crates : Crates}
    (hprimary : (S.fields primaryType).isSome) {word : Word} :
    hashTypedDataValue crates value = .ok word ↔ ChainIdBound S domain ∧
      ∃ d m, Denotes crates S (.struct "EIP712Domain") domain d ∧
        Denotes crates S (.struct primaryType) message m ∧
        word = typedDataHash crates (encodeVal crates (S.typeHash crates) d)
          (encodeVal crates (S.typeHash crates) m) := by
  have hdomain : (S.fields "EIP712Domain").isSome := Schema.isSome_fields_iff.mpr S.domain
  have hlookup : (S.table.lookup "EIP712Domain").isSome = true := by
    rw [Schema.lookup_table, Option.isSome_map]
    exact hdomain
  rw [hashTypedDataValue_eq_ok_iff, hdoc.deserialize]
  constructor
  · rintro ⟨hbinding, parsed, domainWord, messageWord, hparsed, hd, hm, rfl⟩
    obtain rfl := Option.some.inj hparsed
    rw [domainHash, if_pos hlookup] at hd
    obtain ⟨d, hdenotes, rfl⟩ := (hashStruct_conforms hdomain).mp hd
    obtain ⟨m, hmessage, rfl⟩ := (hashStruct_conforms hprimary).mp hm
    exact ⟨(hdoc.binding_eq_ok_iff hdenotes).mp hbinding, d, m, hdenotes, hmessage, rfl⟩
  · rintro ⟨hbound, d, m, hd, hm, rfl⟩
    refine ⟨(hdoc.binding_eq_ok_iff hd).mpr hbound, _, _, _, rfl, ?_, ?_, rfl⟩
    · rw [domainHash, if_pos hlookup]
      exact (hashStruct_conforms hdomain).mpr ⟨d, hd, rfl⟩
    · exact (hashStruct_conforms hprimary).mpr ⟨m, hm, rfl⟩

end Documents

/-- **The digest follows the specification.** Let the types of a document be those of a schema. The
signer returns a digest exactly if the domain and the message denote values of their types and a
`chainId` in the domain is declared, and the digest is then the hash of `0x1901`, the domain's
`hashStruct` and the message's. -/
theorem hashTypedData_eq_ok_iff_denotes {crates : Crates} {S : Schema} {primaryType json : String}
    {domain message value : Json} (hjson : crates.parseJson json = .ok value)
    (hdoc : IsDocument S primaryType domain message value)
    (hprimary : (S.fields primaryType).isSome) (word : Word) :
    hashTypedData crates json = .ok word ↔ ChainIdBound S domain ∧
      ∃ d m, Denotes crates S (.struct "EIP712Domain") domain d ∧
        Denotes crates S (.struct primaryType) message m ∧
        word = crates.keccak256 ([0x19, 0x01] ++
          (encodeVal crates (S.typeHash crates) d).val ++
          (encodeVal crates (S.typeHash crates) m).val) := by
  rw [hashTypedData, hjson]
  exact hdoc.hashTypedDataValue_eq_ok_iff_denotes hprimary

/-! ## Small documents -/

/-- The names of the atomic types. -/
def atomicTexts : List String :=
  ["bool", "address", "string", "bytes"] ++ (List.finRange 32).map (fun w => (Ty.uint w).text) ++
    (List.finRange 32).map (fun w => (Ty.int w).text) ++
    (List.finRange 32).map fun w => (Ty.fixedBytes w).text

lemma mem_atomicTexts {t : Ty} (h : t.IsAtomic) : t.text ∈ atomicTexts := by
  cases t with
  | struct name | array element length => exact h.elim
  | uint w | int w | fixedBytes w => simp [atomicTexts]
  | _ => simp [atomicTexts, Ty.text]

/-- A name is a struct name if it passes three checks. -/
lemma isStructName_of_checks {name : String} (hempty : name ≠ "") (hbracket : NoBracket name)
    (hatomic : name ∉ atomicTexts) : IsStructName name where
  nonempty := hempty
  noBracket := hbracket
  notAtomic _ ht heq := hatomic (heq ▸ mem_atomicTexts ht)

/-- A recursive type beside the type of the domain. -/
def nodeSchema : Schema where
  structs := [("EIP712Domain", [("name", .string)]),
    ("Node", [("flag", .bool), ("next", .array (.struct "Node") none)])]
  isStructName := by
    have hnames : IsStructName "EIP712Domain" ∧ IsStructName "Node" :=
      ⟨isStructName_of_checks (by decide) (by decide) (by decide +kernel),
        isStructName_of_checks (by decide) (by decide) (by decide +kernel)⟩
    simpa using hnames
  declared := by
    intro s hs f hf name hname
    simp only [List.mem_cons, List.not_mem_nil, or_false] at hs
    rcases hs with rfl | rfl
    · simp only [List.mem_cons, List.not_mem_nil, or_false] at hf
      subst hf
      cases hname
    · simp only [List.mem_cons, List.not_mem_nil, or_false] at hf
      rcases hf with rfl | rfl
      · cases hname
      · cases hname
        simp
  domain := by simp

/-- A field of a types table. -/
def fieldJson (name type : String) : Json := .obj [("name", .str name), ("type", .str type)]

/-- A document over these types. -/
def nodeDocument (domain message : Json) : Json := .obj
  [("types", .obj
      [("EIP712Domain", .arr [fieldJson "name" "string"]),
        ("Node", .arr [fieldJson "flag" "bool", fieldJson "next" "Node[]"])]),
    ("primaryType", .str "Node"), ("domain", domain), ("message", message)]

lemma isDocument_nodeDocument (domain message : Json) :
    IsDocument nodeSchema "Node" domain message (nodeDocument domain message) where
  types := ⟨_, rfl, _, rfl, .cons ⟨rfl, _, rfl, .cons ⟨rfl, rfl⟩ .nil⟩
    (.cons ⟨rfl, _, rfl, .cons ⟨rfl, rfl⟩ (.cons ⟨rfl, rfl⟩ .nil)⟩ .nil)⟩
  primaryType := rfl
  domain := rfl
  message := rfl

/-- A domain, with and without the number of a chain. -/
def plainDomain : Json := .obj [("name", .str "app")]

@[inherit_doc plainDomain]
def chainDomain : Json := .obj [("name", .str "app"), ("chainId", .num (.posInt 1))]

/-- A node without successors, and a node with that one as its successor. -/
def leafNode (flag : Json) : Json := .obj [("flag", flag), ("next", .arr [])]

@[inherit_doc leafNode]
def parentNode : Json := .obj [("flag", .bool true), ("next", .arr [leafNode (.bool false)])]

/-- The text of a document over these types, from the texts of its domain and its message. -/
def nodeText (domain message : String) : String :=
  "\x7b\"types\":\x7b\"EIP712Domain\":[\x7b\"name\":\"name\",\"type\":\"string\"\x7d]," ++
    "\"Node\":[\x7b\"name\":\"flag\",\"type\":\"bool\"\x7d," ++
    "\x7b\"name\":\"next\",\"type\":\"Node[]\"\x7d]\x7d," ++
    "\"primaryType\":\"Node\",\"domain\":" ++ domain ++ ",\"message\":" ++ message ++ "\x7d"

/-- Libraries that have read one document; a stand-in hashes. -/
def sampleCrates (text : String) (value : Json) : Crates where
  keccak256 bytes := toBeBytes (ofBe bytes)
  parseU256 s := (parseUsize s.toList).elim (.error "invalid digit") .ok
  parseI256 s := (parseUsize s.toList).elim (.error "invalid digit") fun n => .ok n
  parseJson s := if s = text then .ok value else .error "expected value"
  display _ := ""
  hexError _ := ""
  serdeError _ := ""

lemma parseJson_sampleCrates (text : String) (value : Json) :
    (sampleCrates text value).parseJson text = .ok value := if_pos rfl

/-- The document with a node that has a successor. -/
def parentText : String :=
  nodeText "\x7b\"name\":\"app\"\x7d"
    "\x7b\"flag\":true,\"next\":[\x7b\"flag\":false,\"next\":[]\x7d]\x7d"

/-- The document whose domain has the number of a chain. -/
def chainText : String :=
  nodeText "\x7b\"name\":\"app\",\"chainId\":1\x7d" "\x7b\"flag\":true,\"next\":[]\x7d"

/-- The document with a number for a boolean. -/
def numberText : String :=
  nodeText "\x7b\"name\":\"app\"\x7d" "\x7b\"flag\":7,\"next\":[]\x7d"

lemma denotes_leafNode (crates : Crates) (b : Bool) :
    Denotes crates nodeSchema (.struct "Node") (leafNode (.bool b))
      (.struct "Node" [("flag", .bool b), ("next", .array [])]) :=
  .struct rfl (.cons rfl .bool (.cons rfl (.array (by simp) .nil) .nil))

lemma denotes_numberNode (crates : Crates) :
    Denotes crates nodeSchema (.struct "Node") (leafNode (.num (.posInt 7)))
      (.struct "Node" [("flag", .bool (decide ((7 : ℤ) ≠ 0))), ("next", .array [])]) :=
  .struct rfl (.cons rfl (.boolNumber rfl) (.cons rfl (.array (by simp) .nil) .nil))

lemma denotes_parentNode (crates : Crates) :
    Denotes crates nodeSchema (.struct "Node") parentNode
      (.struct "Node" [("flag", .bool true),
        ("next", .array [.struct "Node" [("flag", .bool false), ("next", .array [])]])]) :=
  .struct rfl (.cons rfl .bool (.cons rfl
    (.array (by simp) (.cons (denotes_leafNode crates false) .nil)) .nil))

lemma denotes_plainDomain (crates : Crates) :
    Denotes crates nodeSchema (.struct "EIP712Domain") plainDomain
      (.struct "EIP712Domain" [("name", .string "app")]) :=
  .struct rfl (.cons rfl .string .nil)

/-- A message of a recursive type has a digest. -/
theorem hashTypedData_parentNode :
    ∃ word, hashTypedData (sampleCrates parentText (nodeDocument plainDomain parentNode))
      parentText = .ok word := by
  have hbound : ChainIdBound nodeSchema plainDomain := by
    intro h
    cases h
  exact ⟨_, (hashTypedData_eq_ok_iff_denotes (parseJson_sampleCrates _ _)
    (isDocument_nodeDocument plainDomain parentNode) rfl _).mpr
    ⟨hbound, _, _, denotes_plainDomain _, denotes_parentNode _, rfl⟩⟩

/-- A document of well-formed types whose domain and message are values of their types is refused
when the domain has a `chainId` that is not declared; and a message in which a boolean is given as a
number, or fixed bytes are too short, is accepted. -/
theorem hashTypedData_chainDomain :
    (IsDocument nodeSchema "Node" chainDomain (leafNode (.bool true))
        (nodeDocument chainDomain (leafNode (.bool true))) ∧
      (∃ d, Denotes (sampleCrates "" .null) nodeSchema (.struct "EIP712Domain") chainDomain d) ∧
      (∃ m, Denotes (sampleCrates "" .null) nodeSchema (.struct "Node")
        (leafNode (.bool true)) m) ∧
      ∀ word, hashTypedData
        (sampleCrates chainText (nodeDocument chainDomain (leafNode (.bool true)))) chainText ≠
          .ok word) ∧
    (∃ word, hashTypedData
      (sampleCrates numberText (nodeDocument plainDomain (leafNode (.num (.posInt 7)))))
        numberText = .ok word) ∧
    encodeFixedBytes (sampleCrates "" .null) "bytes4" (.str "0x12") = .ok (rightPad [0x12]) := by
  refine ⟨⟨isDocument_nodeDocument _ _, ⟨_, .struct rfl (.cons rfl .string .nil)⟩,
    ⟨_, denotes_leafNode _ true⟩, ?_⟩, ?_, by decide +kernel⟩
  · intro word h
    have hrefused : hashTypedData
        (sampleCrates chainText (nodeDocument chainDomain (leafNode (.bool true)))) chainText =
        .error (.invalidInput
          "EIP712Domain type schema must declare chainId when domain.chainId is present") := by
      rw [hashTypedData, parseJson_sampleCrates]
      rfl
    rw [hrefused] at h
    cases h
  · have hbound : ChainIdBound nodeSchema plainDomain := by
      intro h
      cases h
    have hdoc := isDocument_nodeDocument plainDomain (leafNode (.num (.posInt 7)))
    have haccepted := (hdoc.hashTypedDataValue_eq_ok_iff_denotes rfl).mpr
      ⟨hbound, _, _, denotes_plainDomain (sampleCrates numberText
        (nodeDocument plainDomain (leafNode (.num (.posInt 7))))), denotes_numberNode _, rfl⟩
    rw [hashTypedData, parseJson_sampleCrates, mapError_ok, ok_bind]
    exact ⟨_, haccepted⟩

end GemCore.Eip712

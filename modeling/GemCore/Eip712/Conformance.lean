import GemCore.Eip712.Spec

/-!
# The signer hashes what the specification says

On a document whose types are those of a schema, the signer's encoders succeed exactly on what
denotes a value of the type they are called with, and return the encoding of that value.

## Main definitions

* `Schema.table` — the types table of a schema.
* `Conforms` — the signer encodes a piece of JSON as the specification does.

## Main results

* `encodeType_table` — the text of a type is that of the specification.
* `encodeAtomic_eq_ok_iff` — atomic values.
* `conforms` — all values.
* `hashStruct_conforms` — all structs.
-/

namespace GemCore.Eip712

open Lib

/-! ## The table of a schema -/

/-- A field with the text of its type. -/
def toField (f : String × Ty) : TypeField := ⟨f.1, f.2.text⟩

/-- The types table of a schema. -/
def Schema.table (S : Schema) : Types := S.structs.map fun s => (s.1, s.2.map toField)

section Table

variable {S : Schema}

lemma Schema.lookup_table (name : String) :
    S.table.lookup name = (S.fields name).map (List.map toField) := by
  rw [Schema.table, Schema.fields]
  induction S.structs with
  | nil => rfl
  | cons s rest ih =>
    rw [List.map_cons, List.lookup_cons, List.lookup_cons]
    cases name == s.1 with
    | true => rfl
    | false => exact ih

/-- A struct is declared if its name is listed. -/
lemma Schema.isSome_fields_iff {name : String} :
    (S.fields name).isSome ↔ name ∈ S.structs.map Prod.fst := by
  rw [Schema.fields, List.lookup_isSome_iff, List.mem_map]
  constructor
  · rintro ⟨s, hs, hname⟩
    exact ⟨s, hs, (eq_of_beq hname).symm⟩
  · rintro ⟨s, hs, rfl⟩
    exact ⟨s, hs, beq_self_eq_true s.1⟩

lemma Schema.mem_of_fields {name : String} {fs : List (String × Ty)}
    (h : S.fields name = some fs) : (name, fs) ∈ S.structs := by
  obtain ⟨before, after, heq, -⟩ := List.lookup_eq_some_iff.mp h
  simp [heq]

lemma Schema.isStructName_of_fields {name : String} (h : (S.fields name).isSome) :
    IsStructName name := by
  obtain ⟨fs, hfs⟩ := Option.isSome_iff_exists.mp h
  exact S.isStructName _ (mem_of_fields hfs)

/-- The types of the fields of a struct are declared. -/
lemma Schema.declared_of_mem {name : String} {fs : List (String × Ty)}
    (h : S.fields name = some fs) {f : String × Ty} (hf : f ∈ fs) : f.2.Declared S :=
  fun other hbase =>
    isSome_fields_iff.mpr (S.declared _ (mem_of_fields h) f hf other hbase)

lemma Ty.Declared.proper {t : Ty} (h : t.Declared S) : t.Proper :=
  fun name hbase => Schema.isStructName_of_fields (h name hbase)

/-- No atomic type is declared as a struct. -/
lemma Schema.fields_of_isAtomic {t : Ty} (h : t.IsAtomic) : S.fields t.text = none := by
  rw [← Option.not_isSome_iff_eq_none]
  intro hsome
  exact (isStructName_of_fields hsome).notAtomic t h rfl

/-- What is reached from a declared struct is declared. -/
lemma Schema.isSome_fields_of_reaches {a b : String} (ha : (S.fields a).isSome)
    (h : Relation.ReflTransGen S.Uses a b) : (S.fields b).isSome := by
  cases h with
  | refl => exact ha
  | tail _ hlast =>
    obtain ⟨fs, hfs, f, hf, hbase⟩ := hlast
    exact declared_of_mem hfs hf b hbase

/-! ## The text of a type -/

/-- The base names of the fields of a struct type. -/
def nextTypes (types : Types) (base : String) : Option (List String) :=
  (types.lookup base).map fun fields => fields.map fun field => baseTypeName field.type

/-- The walk over the types table is the walk over a graph. -/
lemma collectTypeDependencies_eq_collect (types : Types) (fuel : ℕ) :
    ∀ (typeName : String) (results : List String),
      collectTypeDependencies types fuel typeName results =
        collect (nextTypes types) fuel (baseTypeName typeName) results := by
  induction fuel with
  | zero =>
    intro typeName results
    rfl
  | succ fuel ih =>
    intro typeName results
    rw [collectTypeDependencies, collect]
    by_cases hmem : baseTypeName typeName ∈ results
    · simp [hmem]
    · simp only [hmem, if_false, nextTypes]
      cases types.lookup (baseTypeName typeName) with
      | none => rfl
      | some fields => simp only [Option.map_some, List.foldl_map, ih]

/-- In the table of a schema the edges of the graph are the uses of one struct by another. -/
theorem step_nextTypes_iff {a b : String} :
    Step (nextTypes S.table) a b ↔ S.Uses a b := by
  simp only [Step, nextTypes, Schema.lookup_table, Option.map_map, Option.map_eq_some_iff,
    Function.comp_apply, List.map_map, Option.isSome_map, Schema.Uses]
  constructor
  · rintro ⟨⟨_, ⟨fs, hfs, rfl⟩, hb⟩, hsome⟩
    obtain ⟨f, hf, rfl⟩ := List.mem_map.mp hb
    refine ⟨fs, hfs, f, hf, ?_⟩
    have hbase := baseTypeName_text (Schema.declared_of_mem hfs hf).proper
    simp only [Function.comp_apply, toField, hbase] at hsome ⊢
    rcases f.2.base_cases with ⟨name, hname⟩ | hatomic
    · rw [hname]
      rfl
    · rw [Schema.fields_of_isAtomic hatomic] at hsome
      cases hsome
  · rintro ⟨fs, hfs, f, hf, hbase⟩
    have hdeclared := Schema.declared_of_mem hfs hf
    refine ⟨⟨_, ⟨fs, hfs, rfl⟩, List.mem_map.mpr ⟨f, hf, ?_⟩⟩, hdeclared b hbase⟩
    simp only [Function.comp_apply, toField, baseTypeName_text hdeclared.proper, hbase]
    rfl

/-- The nodes of the graph of a types table. -/
lemma mem_of_nextTypes {types : Types} {base : String} (h : (nextTypes types base).isSome) :
    base ∈ (types.map Prod.fst).toFinset := by
  rw [nextTypes, Option.isSome_map, List.lookup_isSome_iff] at h
  obtain ⟨entry, hentry, hbase⟩ := h
  rw [List.mem_toFinset, List.mem_map]
  exact ⟨entry, hentry, (eq_of_beq hbase).symm⟩

/-- The dependencies of a struct are the structs that are reached from it, in order. -/
theorem collectTypeDependencies_table {name : String} (h : (S.fields name).isSome) :
    (collectTypeDependencies S.table (S.table.length + 1) name []).erase name =
      ((S.reachable name).erase name).sort (· ≤ ·) := by
  have hbase : baseTypeName name = name :=
    baseTypeName_of_noBracket (Schema.isStructName_of_fields h).noBracket
  have hcard : (S.table.map Prod.fst).toFinset.card < S.table.length + 1 := by
    have hle := (S.table.map Prod.fst).toFinset_card_le
    rw [List.length_map] at hle
    omega
  rw [collectTypeDependencies_eq_collect, hbase]
  set found := collect (nextTypes S.table) (S.table.length + 1) name [] with hfound
  have hsorted : found.Pairwise (· ≤ ·) :=
    collect_sorted (fun _ => mem_of_nextTypes) hcard name
  have hnodup : found.Nodup := collect_nodup (fun _ => mem_of_nextTypes) hcard name
  have hmem : ∀ x, x ∈ found ↔ Relation.ReflTransGen S.Uses name x := by
    intro x
    have hsome : (nextTypes S.table name).isSome := by
      rw [nextTypes, Option.isSome_map, Schema.lookup_table, Option.isSome_map]
      exact h
    rw [hfound, mem_collect_iff (fun _ => mem_of_nextTypes) hcard hsome]
    have hstep : Step (nextTypes S.table) = S.Uses := by
      ext a b
      exact step_nextTypes_iff
    rw [hstep]
  have hset : (found.erase name).toFinset = (S.reachable name).erase name := by
    ext x
    rw [List.mem_toFinset, hnodup.mem_erase_iff, Finset.mem_erase, hmem,
      Schema.mem_reachable_iff]
    refine and_congr_right fun _ => ⟨fun hx => ⟨?_, hx⟩, And.right⟩
    exact Schema.isSome_fields_iff.mp (Schema.isSome_fields_of_reaches h hx)
  rw [← hset]
  exact ((List.toFinset_sort _ (hnodup.erase name)).mpr
    (hsorted.sublist List.erase_sublist)).symm

/-- **The text of a type** is that of the specification.

**Proof sketch.** The walk collects the structs that are reached, in order and each once, so it
lists what the specification lists; every one of them is declared, so its text is found. -/
theorem encodeType_table {name : String} (h : (S.fields name).isSome) :
    encodeType S.table name = .ok (S.encodeType name) := by
  have hpart : ∀ other ∈ S.typeList name, encodeTypePart S.table other =
      .ok (S.memberText other) := by
    intro other hother
    have hsome : (S.fields other).isSome := by
      rw [Schema.typeList, List.mem_cons, Finset.mem_sort, Finset.mem_erase,
        Schema.mem_reachable_iff, ← Schema.isSome_fields_iff] at hother
      rcases hother with rfl | ⟨-, hsome, -⟩
      · exact h
      · exact hsome
    obtain ⟨fs, hfs⟩ := Option.isSome_iff_exists.mp hsome
    have htexts : (fs.map toField).map (fun field => field.type ++ " " ++ field.name) =
        fs.map fun f => f.2.text ++ " " ++ f.1 := List.map_map
    rw [encodeTypePart, Schema.lookup_table, hfs, Option.map_some, okOr_some, ok_bind,
      structText, htexts, Schema.memberText, hfs, Option.getD_some]
  have hdeclared : (S.table.lookup name).isNone = false := by
    rw [Schema.lookup_table, Option.isNone_map]
    simpa using h
  rw [encodeType, hdeclared, collectTypeDependencies_table h]
  rw [if_neg (by simp)]
  change (tryMap (encodeTypePart S.table) (S.typeList name) >>= _) = _
  rw [tryMap_eq_map hpart]
  rfl

lemma hashType_table {crates : Crates} {name : String} (h : (S.fields name).isSome) :
    hashType crates S.table name = .ok (S.typeHash crates name) := by
  rw [hashType, encodeType_table h]
  rfl

end Table

/-! ## Atomic values -/

/-- The width of an unsigned number. -/
lemma bitLen_le_iff {n bits : ℕ} : bitLen n ≤ bits ↔ n < 2 ^ bits := by
  unfold bitLen
  split_ifs with h
  · subst h
    simp
  · rw [← Nat.log2_lt h]
    omega

/-- The width of a signed number. -/
lemma signedBits_le_iff {z : ℤ} {bits : ℕ} (hbits : 0 < bits) :
    signedBits z ≤ bits ↔ -2 ^ (bits - 1) ≤ z ∧ z < 2 ^ (bits - 1) := by
  obtain ⟨k, rfl⟩ : ∃ k, bits = k + 1 := ⟨bits - 1, by omega⟩
  have hcast : (2 : ℤ) ^ k = ((2 ^ k : ℕ) : ℤ) := by push_cast; rfl
  have hpos : 0 < 2 ^ k := Nat.two_pow_pos k
  rw [Nat.add_sub_cancel, hcast]
  unfold signedBits
  by_cases hzero : z = 0
  · subst hzero
    rw [if_pos (.inl rfl), Int.natAbs_zero]
    simp only [bitLen, if_true, Nat.zero_le, true_iff]
    omega
  by_cases hpower : z < 0 ∧ z.natAbs = 2 ^ z.natAbs.log2
  · -- a negative power of two fits as soon as its absolute value does
    rw [if_pos (.inr hpower)]
    obtain ⟨hneg, habs⟩ := hpower
    rw [bitLen_le_iff]
    have hexp : z.natAbs < 2 ^ (k + 1) ↔ z.natAbs ≤ 2 ^ k := by
      rw [habs, Nat.pow_lt_pow_iff_right (by decide), Nat.pow_le_pow_iff_right (by decide)]
      omega
    rw [hexp]
    omega
  · rw [if_neg (by tauto)]
    rw [Nat.add_le_add_iff_right, bitLen_le_iff]
    have hne : z < 0 → z.natAbs ≠ 2 ^ k := by
      intro hneg habs
      exact hpower ⟨hneg, by rw [habs, Nat.log2_two_pow]⟩
    omega

section Atomic

variable {crates : Crates} {S : Schema}

/-- A value is read as a number from its text, or is one. -/
lemma parseUintValue_eq_ok_iff {j : Json} {n : ℕ} : parseUintValue crates j = .ok n ↔
    (∃ s, j = .str s ∧ crates.parseU256 s = .ok n) ∨
      ∃ x, j = .num x ∧ x.int = some (n : ℤ) := by
  cases j with
  | str s => simp [parseUintValue, mapError_eq_ok_iff]
  | num x =>
    simp only [parseUintValue]
    cases hu : x.asU64 with
    | some u =>
      have hint := JsonNumber.int_of_asU64 hu
      constructor
      · intro h
        obtain rfl := Except.ok.inj h
        exact .inr ⟨x, rfl, hint⟩
      · rintro (⟨s, hj, -⟩ | ⟨y, hj, hy⟩)
        · cases hj
        · obtain rfl := Json.num.inj hj
          obtain rfl : u = n := by exact_mod_cast Option.some.inj (hint.symm.trans hy)
          rfl
    | none =>
      have hint := JsonNumber.int_of_asU64_eq_none hu
      cases hi : x.asI64 with
      | some i =>
        simp only [hi] at hint
        by_cases hpos : 0 ≤ i
        · simp [hint, hpos]
          omega
        · simp [hint, hpos]
          omega
      | none => simp [hint, hi]
  | _ => simp [parseUintValue]

lemma parseIntValue_eq_ok_iff {j : Json} {z : ℤ} : parseIntValue crates j = .ok z ↔
    (∃ s, j = .str s ∧ crates.parseI256 s = .ok z) ∨ ∃ x, j = .num x ∧ x.int = some z := by
  cases j with
  | str s => simp [parseIntValue, mapError_eq_ok_iff]
  | num x =>
    simp only [parseIntValue]
    cases hi : x.asI64 with
    | some i =>
      have hint := JsonNumber.int_of_asI64 hi
      simp [hint]
    | none =>
      have hint := JsonNumber.int_of_asI64_eq_none hi
      cases hu : x.asU64 with
      | some u => simp [hint, hu]
      | none => simp [hint, hu]
  | _ => simp [parseIntValue]

lemma boolValue_eq_ok_iff {j : Json} {b : Bool} : boolValue crates j = .ok b ↔
    j = .bool b ∨ ∃ x z, j = .num x ∧ x.int = some z ∧ b = decide (z ≠ 0) := by
  cases j with
  | bool b' => simp [boolValue]
  | num x =>
    simp only [boolValue]
    cases hu : x.asU64 with
    | some u =>
      have hint := JsonNumber.int_of_asU64 hu
      simp [hint, eq_comm]
    | none =>
      have hint := JsonNumber.int_of_asU64_eq_none hu
      cases hi : x.asI64 with
      | some i => simp [hint, hi, eq_comm]
      | none => simp [hint, hi]
  | _ => simp [boolValue]

/-- What the bytes of a hex text are, for the decoder of the signer. -/
lemma decodeHexText_eq_ok_iff {s : String} {bytes : List UInt8} :
    decodeHexText crates s = .ok bytes ↔ hexText s = some bytes := okOr_eq_ok_iff

lemma fixedBytesValue_eq_ok_iff {typeName : String} {j : Json} {bytes : List UInt8} :
    fixedBytesValue crates typeName j = .ok bytes ↔ ∃ s, j = .str s ∧ hexText s = some bytes := by
  cases j with
  | str s =>
    have hempty : hexText "" = some [] := rfl
    by_cases h : s = ""
    · subst h
      simp [fixedBytesValue, hempty, eq_comm]
    · simp [fixedBytesValue, h, decodeHexText_eq_ok_iff]
  | _ => simp [fixedBytesValue]

/-- The words of an address and of fixed bytes are the padded bytes. -/
lemma leftPad_eq_addressWord (bytes : FixedBytes 20) :
    leftPad bytes.val = addressWord bytes := by
  apply Subtype.ext
  simp [leftPad, addressWord, bytes.property]

lemma rightPad_eq_fixedBytesWord {w : Fin 32} (bytes : FixedBytes (byteSize w)) :
    rightPad bytes.val = fixedBytesWord w bytes := by
  have hle : byteSize w ≤ 32 := w.isLt
  apply Subtype.ext
  simp [rightPad, fixedBytesWord, bytes.property, hle]

/-- The word of a boolean is that of zero or one. -/
lemma boolWord_eq : ∀ b : Bool,
    (if b = true then leftPad [1] else leftPad []) = toBeBytes b.toNat := by decide

variable {typeHash : String → Word}

lemma encodeUint_text_eq_ok_iff {w : Fin 32} {j : Json} {word : Word} :
    encodeUint crates (Ty.uint w).text j = .ok word ↔
      ∃ v, Denotes crates S (.uint w) j v ∧ word = encodeVal crates typeHash v := by
  have hbits : parseNumericBits (Ty.uint w).text "uint" = .ok (8 * byteSize w) := by
    revert w
    decide +kernel
  simp only [encodeUint, hbits, ok_bind, bind_eq_ok_iff, guard_eq_ok_iff,
    parseUintValue_eq_ok_iff, Nat.not_lt, bitLen_le_iff, Except.ok.injEq]
  constructor
  · rintro ⟨n, ⟨s, rfl, htext⟩ | ⟨x, rfl, hnumber⟩, hrange, rfl⟩
    · exact ⟨_, .uintText htext hrange, rfl⟩
    · exact ⟨_, .uintNumber hnumber hrange, rfl⟩
  · rintro ⟨v, hv, rfl⟩
    cases hv with
    | uintText htext hrange => exact ⟨_, .inl ⟨_, rfl, htext⟩, hrange, rfl⟩
    | uintNumber hnumber hrange => exact ⟨_, .inr ⟨_, rfl, hnumber⟩, hrange, rfl⟩

lemma encodeInt_text_eq_ok_iff {w : Fin 32} {j : Json} {word : Word} :
    encodeInt crates (Ty.int w).text j = .ok word ↔
      ∃ v, Denotes crates S (.int w) j v ∧ word = encodeVal crates typeHash v := by
  have hbits : parseNumericBits (Ty.int w).text "int" = .ok (8 * byteSize w) := by
    revert w
    decide +kernel
  have hpos : 0 < 8 * byteSize w := by simp [byteSize]
  have hsize : ¬(8 * byteSize w = 0 ∨ 32 * 8 < 8 * byteSize w) := by
    have := w.isLt
    simp only [byteSize]
    omega
  simp only [encodeInt, hbits, ok_bind, bind_eq_ok_iff, adjustSignedValue,
    guard_eq_ok_iff, parseIntValue_eq_ok_iff, Nat.not_lt, signedBits_le_iff hpos,
    Except.ok.injEq]
  constructor
  · rintro ⟨z, ⟨s, rfl, htext⟩ | ⟨x, rfl, hnumber⟩, _, ⟨-, hrange, rfl⟩, rfl⟩
    · exact ⟨_, .intText htext hrange, rfl⟩
    · exact ⟨_, .intNumber hnumber hrange, rfl⟩
  · rintro ⟨v, hv, rfl⟩
    cases hv with
    | intText htext hrange => exact ⟨_, .inl ⟨_, rfl, htext⟩, _, ⟨hsize, hrange, rfl⟩, rfl⟩
    | intNumber hnumber hrange => exact ⟨_, .inr ⟨_, rfl, hnumber⟩, _, ⟨hsize, hrange, rfl⟩, rfl⟩

lemma encodeFixedBytes_text_eq_ok_iff {w : Fin 32} {j : Json} {word : Word} :
    encodeFixedBytes crates (Ty.fixedBytes w).text j = .ok word ↔
      ∃ v, Denotes crates S (.fixedBytes w) j v ∧ word = encodeVal crates typeHash v := by
  have hsize : parseFixedBytesSize (Ty.fixedBytes w).text = .ok (byteSize w) := by
    revert w
    decide +kernel
  simp only [encodeFixedBytes, hsize, ok_bind, bind_eq_ok_iff, guard_eq_ok_iff,
    fixedBytesValue_eq_ok_iff, Nat.not_lt, Except.ok.injEq]
  constructor
  · rintro ⟨short, ⟨s, rfl, htext⟩, hle, rfl⟩
    exact ⟨_, .fixedBytes htext hle, rightPad_eq_fixedBytesWord (padTo w short hle)⟩
  · rintro ⟨v, hv, rfl⟩
    cases hv with
    | fixedBytes htext hle =>
      exact ⟨_, ⟨_, rfl, htext⟩, hle, rightPad_eq_fixedBytesWord (padTo w _ hle)⟩

lemma encodeBool_eq_ok_iff {j : Json} {word : Word} : encodeBool crates j = .ok word ↔
    ∃ v, Denotes crates S .bool j v ∧ word = encodeVal crates typeHash v := by
  simp only [encodeBool, bind_eq_ok_iff, boolValue_eq_ok_iff, Except.ok.injEq, boolWord_eq]
  constructor
  · rintro ⟨b, rfl | ⟨x, z, rfl, hnumber, rfl⟩, rfl⟩
    · exact ⟨_, .bool, rfl⟩
    · exact ⟨_, .boolNumber hnumber, rfl⟩
  · rintro ⟨v, hv, rfl⟩
    cases hv with
    | bool => exact ⟨_, .inl rfl, rfl⟩
    | boolNumber hnumber => exact ⟨_, .inr ⟨_, _, rfl, hnumber, rfl⟩, rfl⟩

lemma encodeAddress_eq_ok_iff {j : Json} {word : Word} : encodeAddress crates j = .ok word ↔
    ∃ v, Denotes crates S .address j v ∧ word = encodeVal crates typeHash v := by
  constructor
  · intro h
    cases j with
    | str s =>
      simp only [encodeAddress, bind_eq_ok_iff, guard_eq_ok_iff, not_not,
        decodeHexText_eq_ok_iff, Except.ok.injEq] at h
      obtain ⟨raw, htext, hlength, rfl⟩ := h
      exact ⟨.address ⟨raw, hlength⟩, .address htext, leftPad_eq_addressWord ⟨raw, hlength⟩⟩
    | _ => cases h
  · rintro ⟨v, hv, rfl⟩
    cases hv with
    | @address s bytes htext =>
      simp only [encodeAddress, bind_eq_ok_iff, guard_eq_ok_iff, not_not,
        decodeHexText_eq_ok_iff, Except.ok.injEq]
      exact ⟨bytes.val, htext, bytes.property, leftPad_eq_addressWord bytes⟩

lemma encodeString_eq_ok_iff {j : Json} {word : Word} : encodeString crates j = .ok word ↔
    ∃ v, Denotes crates S .string j v ∧ word = encodeVal crates typeHash v := by
  constructor
  · intro h
    cases j with
    | str s => exact ⟨.string s, .string, (Except.ok.inj h).symm⟩
    | _ => cases h
  · rintro ⟨v, hv, rfl⟩
    cases hv with
    | string => rfl

lemma encodeBytes_eq_ok_iff {j : Json} {word : Word} : encodeBytes crates j = .ok word ↔
    ∃ v, Denotes crates S .bytes j v ∧ word = encodeVal crates typeHash v := by
  constructor
  · intro h
    cases j with
    | str s =>
      simp only [encodeBytes, bind_eq_ok_iff, decodeHexText_eq_ok_iff, Except.ok.injEq] at h
      obtain ⟨bytes, htext, rfl⟩ := h
      exact ⟨.bytes bytes, .bytes htext, rfl⟩
    | _ => cases h
  · rintro ⟨v, hv, rfl⟩
    cases hv with
    | bytes htext =>
      simp only [encodeBytes, bind_eq_ok_iff, decodeHexText_eq_ok_iff, Except.ok.injEq]
      exact ⟨_, htext, rfl⟩

/-- **Atomic values**: the encoder that the name of an atomic type selects succeeds on what denotes
a value of that type. -/
theorem encodeAtomic_eq_ok_iff {t : Ty} (ht : t.IsAtomic) {typeName : String} {j : Json}
    {word : Word} : encodeAtomic crates typeName t.text j = .ok word ↔
      ∃ v, Denotes crates S t j v ∧ word = encodeVal crates typeHash v := by
  cases t with
  | uint w =>
    have hname : ∀ w : Fin 32, (Ty.uint w).text ≠ "string" ∧ (Ty.uint w).text ≠ "bytes" ∧
        (Ty.uint w).text ≠ "bool" ∧ (Ty.uint w).text ≠ "address" ∧
        startsWith "uint" (Ty.uint w).text = true := by decide +kernel
    obtain ⟨h₁, h₂, h₃, h₄, h₅⟩ := hname w
    rw [encodeAtomic, if_neg h₁, if_neg h₂, if_neg h₃, if_neg h₄, if_pos h₅]
    exact encodeUint_text_eq_ok_iff
  | int w =>
    have hname : ∀ w : Fin 32, (Ty.int w).text ≠ "string" ∧ (Ty.int w).text ≠ "bytes" ∧
        (Ty.int w).text ≠ "bool" ∧ (Ty.int w).text ≠ "address" ∧
        startsWith "uint" (Ty.int w).text = false ∧
        startsWith "int" (Ty.int w).text = true := by decide +kernel
    obtain ⟨h₁, h₂, h₃, h₄, h₅, h₆⟩ := hname w
    rw [encodeAtomic, if_neg h₁, if_neg h₂, if_neg h₃, if_neg h₄, h₅, if_neg (by decide),
      if_pos h₆]
    exact encodeInt_text_eq_ok_iff
  | fixedBytes w =>
    have hname : ∀ w : Fin 32, (Ty.fixedBytes w).text ≠ "string" ∧
        (Ty.fixedBytes w).text ≠ "bytes" ∧ (Ty.fixedBytes w).text ≠ "bool" ∧
        (Ty.fixedBytes w).text ≠ "address" ∧ startsWith "uint" (Ty.fixedBytes w).text = false ∧
        startsWith "int" (Ty.fixedBytes w).text = false ∧
        startsWith "bytes" (Ty.fixedBytes w).text = true := by decide +kernel
    obtain ⟨h₁, h₂, h₃, h₄, h₅, h₆, h₇⟩ := hname w
    rw [encodeAtomic, if_neg h₁, if_neg h₂, if_neg h₃, if_neg h₄, h₅, if_neg (by decide), h₆,
      if_neg (by decide), if_pos h₇]
    exact encodeFixedBytes_text_eq_ok_iff
  | bool => exact encodeBool_eq_ok_iff
  | address => exact encodeAddress_eq_ok_iff
  | string => exact encodeString_eq_ok_iff
  | bytes => exact encodeBytes_eq_ok_iff
  | struct name | array element length => exact ht.elim

end Atomic

/-! ## Structs and arrays -/

section Values

variable {crates : Crates} {S : Schema}

/-- The signer encodes a piece of JSON, taken as a value of a type, as the specification does. -/
def Conforms (crates : Crates) (S : Schema) (t : Ty) (j : Json) : Prop :=
  ∀ word, encodeValue crates S.table t.text j = .ok word ↔
    ∃ v, Denotes crates S t j v ∧ word = encodeVal crates (S.typeHash crates) v

/-- The items of an array, one after the other. -/
lemma items_eq_ok_iff {t : Ty} {items : List Json} (h : ∀ x ∈ items, Conforms crates S t x) :
    ∀ words, List.Forall₂ (fun item word => encodeValue crates S.table t.text item = .ok word)
        items words ↔
      ∃ vs, DenotesItems crates S t items vs ∧
        words = encodeVals crates (S.typeHash crates) vs := by
  induction items with
  | nil =>
    intro words
    constructor
    · intro hwords
      cases hwords
      exact ⟨[], .nil, rfl⟩
    · rintro ⟨vs, hvs, rfl⟩
      cases hvs
      exact .nil
  | cons x items ih =>
    have hrest := ih fun y hy => h y (List.mem_cons_of_mem x hy)
    have hfirst := h x List.mem_cons_self
    intro words
    constructor
    · intro hwords
      cases hwords with
      | cons hword hwords =>
        obtain ⟨v, hv, rfl⟩ := (hfirst _).mp hword
        obtain ⟨vs, hvs, rfl⟩ := (hrest _).mp hwords
        exact ⟨v :: vs, .cons hv hvs, rfl⟩
    · rintro ⟨vs, hvs, rfl⟩
      cases hvs with
      | cons hv hvs => exact .cons ((hfirst _).mpr ⟨_, hv, rfl⟩) ((hrest _).mpr ⟨_, hvs, rfl⟩)

/-- The fields of a struct, one after the other. -/
lemma fields_eq_ok_iff {entries : List (String × Json)} {fs : List (String × Ty)}
    (h : ∀ f ∈ fs, ∀ e ∈ entries, Conforms crates S f.2 e.2) :
    ∀ words, FieldWords crates S.table entries (fs.map toField) words ↔
      ∃ vs, DenotesFields crates S entries fs vs ∧
        words = encodeFields crates (S.typeHash crates) vs := by
  induction fs with
  | nil =>
    intro words
    constructor
    · intro hwords
      cases hwords
      exact ⟨[], .nil, rfl⟩
    · rintro ⟨vs, hvs, rfl⟩
      cases hvs
      exact .nil
  | cons f fs ih =>
    have hrest := ih fun g hg => h g (List.mem_cons_of_mem f hg)
    have hfirst : ∀ {j : Json}, Json.lookup entries f.1 = some j → Conforms crates S f.2 j := by
      intro j hj
      obtain ⟨before, after, heq, -⟩ := List.lookup_eq_some_iff.mp hj
      exact h f List.mem_cons_self (f.1, j) (by simp [heq])
    intro words
    constructor
    · intro hwords
      cases hwords with
      | cons hword hwords =>
        obtain ⟨j, hj, hword⟩ := hword
        obtain ⟨v, hv, rfl⟩ := (hfirst hj _).mp hword
        obtain ⟨vs, hvs, rfl⟩ := (hrest _).mp hwords
        exact ⟨(f.1, v) :: vs, .cons hj hv hvs, rfl⟩
    · rintro ⟨vs, hvs, rfl⟩
      cases hvs with
      | cons hj hv hvs =>
        exact .cons ⟨_, hj, (hfirst hj _).mpr ⟨_, hv, rfl⟩⟩ ((hrest _).mpr ⟨_, hvs, rfl⟩)

/-- A struct is hashed as the specification says if its fields are encoded so. -/
theorem hashStruct_table_eq_ok_iff {name : String} (hname : (S.fields name).isSome) {j : Json}
    (h : ∀ fs, S.fields name = some fs → ∀ f ∈ fs, ∀ entries, j = .obj entries →
      ∀ e ∈ entries, Conforms crates S f.2 e.2) {word : Word} :
    hashStruct crates S.table name j = .ok word ↔
      ∃ v, Denotes crates S (.struct name) j v ∧
        word = encodeVal crates (S.typeHash crates) v := by
  obtain ⟨fs, hfs⟩ := Option.isSome_iff_exists.mp hname
  rw [hashStruct_eq_ok_iff, Schema.lookup_table, hfs, Option.map_some, hashType_table hname]
  constructor
  · rintro ⟨_, entries, typeHash, words, hfields, rfl, htype, hwords, rfl⟩
    obtain rfl := Option.some.inj hfields
    obtain rfl := Except.ok.inj htype
    obtain ⟨vs, hvs, rfl⟩ := (fields_eq_ok_iff (fun f hf => h fs hfs f hf entries rfl) words).mp hwords
    exact ⟨.struct name vs, .struct hfs hvs, rfl⟩
  · rintro ⟨v, hv, rfl⟩
    cases hv with
    | @struct _ fs' entries vs hfs' hvs =>
      obtain rfl : fs = fs' := Option.some.inj (hfs.symm.trans hfs')
      exact ⟨_, entries, _, _, rfl, rfl, rfl,
        (fields_eq_ok_iff (fun f hf => h fs hfs f hf entries rfl) _).mpr ⟨vs, hvs, rfl⟩, rfl⟩

/-- An array is hashed as the specification says if its items are encoded so. -/
theorem conforms_array {t : Ty} {length : Option UInt64} (ht : t.text ≠ "") {j : Json}
    (h : ∀ items, j = .arr items → ∀ x ∈ items, Conforms crates S t x) :
    Conforms crates S (.array t length) j := by
  intro word
  rw [encodeValue_array_eq_ok_iff (parseArrayType_array ht)]
  constructor
  · rintro ⟨items, words, rfl, hlength, hwords, rfl⟩
    obtain ⟨vs, hvs, rfl⟩ := (items_eq_ok_iff (h items rfl) words).mp hwords
    refine ⟨.array vs, .array (fun n hn => hlength _ (by simp [hn])) hvs, rfl⟩
  · rintro ⟨v, hv, rfl⟩
    cases hv with
    | @array _ _ items vs hlength hvs =>
      refine ⟨items, _, rfl, ?_, (items_eq_ok_iff (h items rfl) _).mpr ⟨vs, hvs, rfl⟩, rfl⟩
      intro len hlen
      obtain ⟨n, hn, rfl⟩ := Option.map_eq_some_iff.mp hlen
      exact hlength n hn

/-- A value of an atomic type is encoded as the specification says. -/
lemma conforms_atomic {t : Ty} (ht : t.IsAtomic) (j : Json) : Conforms crates S t j := by
  intro word
  have hbracket := noBracket_of_isAtomic ht
  have hbase : baseTypeName t.text = t.text := baseTypeName_of_noBracket hbracket
  have hlookup : S.table.lookup (baseTypeName t.text) = none := by
    rw [hbase, Schema.lookup_table, Schema.fields_of_isAtomic ht]
    rfl
  rw [encodeValue_atomic_eq_ok_iff (parseArrayType_of_noBracket hbracket) hlookup, hbase,
    encodeAtomic_eq_ok_iff ht, and_iff_right_iff_imp]
  rintro ⟨v, hv, -⟩ rfl
  cases hv

/-- A value of a declared struct is hashed as the specification says if its members are encoded
so. -/
theorem conforms_struct {name : String} (hname : (S.fields name).isSome) {j : Json}
    (h : ∀ entries, j = .obj entries → ∀ e ∈ entries, ∀ t : Ty, t.Declared S →
      Conforms crates S t e.2) : Conforms crates S (.struct name) j := by
  intro word
  have hbracket := (Schema.isStructName_of_fields hname).noBracket
  have hbase : baseTypeName (Ty.struct name).text = name := baseTypeName_of_noBracket hbracket
  obtain ⟨fs, hfs⟩ := Option.isSome_iff_exists.mp hname
  have hlookup : S.table.lookup (baseTypeName (Ty.struct name).text) = some (fs.map toField) := by
    rw [hbase, Schema.lookup_table, hfs]
    rfl
  have hparse : parseArrayType (Ty.struct name).text = .ok none :=
    parseArrayType_of_noBracket hbracket
  rw [encodeValue_struct_eq hparse hlookup, hbase]
  refine hashStruct_table_eq_ok_iff hname ?_
  intro fs' hfs' f hf entries hentries e he
  exact h entries hentries e he f.2 (Schema.declared_of_mem hfs' hf)

/-- One step: a value is encoded as the specification says if the values inside it are. -/
theorem conforms_of_children {j : Json}
    (harr : ∀ items, j = .arr items → ∀ x ∈ items, ∀ t : Ty, t.Declared S → Conforms crates S t x)
    (hobj : ∀ entries, j = .obj entries → ∀ e ∈ entries, ∀ t : Ty, t.Declared S →
      Conforms crates S t e.2) (t : Ty) (ht : t.Declared S) : Conforms crates S t j := by
  cases t with
  | array element length =>
    have hdeclared : element.Declared S := ht
    exact conforms_array hdeclared.proper.text_ne_empty
      fun items hitems x hx => harr items hitems x hx element hdeclared
  | struct name => exact conforms_struct (ht name rfl) hobj
  | uint w | int w | fixedBytes w | bool | address | string | bytes =>
    exact conforms_atomic (by trivial) j

/-- **Every value** of a declared type is encoded as the specification says.

**Proof sketch.** Induction on the document. The text of the type gives its outermost constructor;
an array is encoded by its items and a struct by its members, which are smaller documents. -/
theorem conforms (j : Json) : ∀ t : Ty, t.Declared S → Conforms crates S t j := by
  induction j using Json.induction with
  | arr items ih =>
    refine conforms_of_children ?_ (by simp)
    intro items' hitems
    obtain rfl := Json.arr.inj hitems
    exact ih
  | obj entries ih =>
    refine conforms_of_children (by simp) ?_
    intro entries' hentries
    obtain rfl := Json.obj.inj hentries
    exact ih
  | null | bool b | num n | str s => exact conforms_of_children (by simp) (by simp)

/-- A declared struct is hashed as the specification says. -/
lemma hashStruct_conforms {name : String} (hname : (S.fields name).isSome) {j : Json}
    {word : Word} : hashStruct crates S.table name j = .ok word ↔
      ∃ v, Denotes crates S (.struct name) j v ∧
        word = encodeVal crates (S.typeHash crates) v :=
  hashStruct_table_eq_ok_iff hname fun _ hfs f hf _ _ e _ =>
    conforms e.2 f.2 (Schema.declared_of_mem hfs hf)

end Values

end GemCore.Eip712

import GemCore.Lib.Bytes
import Mathlib.Tactic.NormNum

/-!
# CBOR

Data items in the concise binary object representation, with definite lengths. An item starts
with a head: a major type, and an argument in the first byte or in one, two, four or eight bytes
behind it. The reader takes any head; in its strict form it refuses an argument that has a
shorter one.

## Main definitions

* `Cbor` — data items.
* `Cbor.encode` — an item with the shortest heads.
* `Cbor.item`, `Cbor.decode` — the reader of one item, and of one item and nothing else.

## Main results

* `Cbor.head_headBytes` — a shortest head is read back, also by the strict reader.
* `Cbor.item_encode` — an item is read back from the front of an input.
* `Cbor.decode_encode` — an item is read back from its bytes.
-/

namespace Lib

/-- A data item. A negative integer `-1 - n` has the argument `n`; a float keeps its bytes. -/
inductive Cbor where
  | unsigned (n : ℕ)
  | negative (n : ℕ)
  | bytes (data : List UInt8)
  | text (s : String)
  | array (items : List Cbor)
  | map (entries : List (Cbor × Cbor))
  | tag (number : ℕ) (content : Cbor)
  | simple (n : ℕ)
  | float (data : List UInt8)

namespace Cbor

/-! ## Heads -/

/-- The shortest head of a major type with an argument below `2 ^ 64`. -/
def headBytes (major n : ℕ) : List UInt8 :=
  if n < 24 then [UInt8.ofNat (32 * major + n)]
  else if n < 2 ^ 8 then UInt8.ofNat (32 * major + 24) :: beBytes 1 n
  else if n < 2 ^ 16 then UInt8.ofNat (32 * major + 25) :: beBytes 2 n
  else if n < 2 ^ 32 then UInt8.ofNat (32 * major + 26) :: beBytes 4 n
  else UInt8.ofNat (32 * major + 27) :: beBytes 8 n

/-- The least argument that needs the bytes behind a first byte. -/
def leastArgument (info : ℕ) : ℕ :=
  if info = 24 then 24
  else if info = 25 then 2 ^ 8
  else if info = 26 then 2 ^ 16
  else 2 ^ 32

/-- The argument of a head, by the low bits of its first byte. -/
def argument (strict : Bool) (info : ℕ) (rest : List UInt8) : Option (ℕ × List UInt8) :=
  if info < 24 then some (info, rest)
  else if info ≤ 27 then do
    let (data, rest) ← takeBytes (2 ^ (info - 24)) rest
    if strict = true ∧ ofBe data < leastArgument info then none else some (ofBe data, rest)
  else none

/-- The major type and the low bits of a first byte. -/
def initial (b : UInt8) : ℕ × ℕ := (b.toNat / 32, b.toNat % 32)

/-- The value of an item of major type 7: a simple value, or a float. -/
def special (info : ℕ) (rest : List UInt8) : Option (Cbor × List UInt8) :=
  if info < 24 then some (.simple info, rest)
  else if info = 24 then do
    let (data, rest) ← takeBytes 1 rest
    if ofBe data < 32 then none else some (.simple (ofBe data), rest)
  else if info ≤ 27 then do
    let (data, rest) ← takeBytes (2 ^ (info - 24)) rest
    some (.float data, rest)
  else none

/-! ## Reading -/

section Reading

variable (strict : Bool)

mutual

/-- One item from the front of an input. -/
def item : ℕ → List UInt8 → Option (Cbor × List UInt8)
  | 0, _ => none
  | _ + 1, [] => none
  | fuel + 1, b :: rest =>
    if (initial b).1 = 7 then special (initial b).2 rest
    else do
      let (n, rest) ← argument strict (initial b).2 rest
      if (initial b).1 = 0 then some (.unsigned n, rest)
      else if (initial b).1 = 1 then some (.negative n, rest)
      else if (initial b).1 = 2 then do
        let (data, rest) ← takeBytes n rest
        some (.bytes data, rest)
      else if (initial b).1 = 3 then do
        let (data, rest) ← takeBytes n rest
        let s ← String.fromUTF8? ⟨data.toArray⟩
        some (.text s, rest)
      else if (initial b).1 = 4 then do
        let (contents, rest) ← items fuel n rest
        some (.array contents, rest)
      else if (initial b).1 = 5 then do
        let (contents, rest) ← entries fuel n rest
        some (.map contents, rest)
      else do
        let (content, rest) ← item fuel rest
        some (.tag n content, rest)

/-- As many items as an array has. -/
def items : ℕ → ℕ → List UInt8 → Option (List Cbor × List UInt8)
  | _, 0, rest => some ([], rest)
  | 0, _ + 1, _ => none
  | fuel + 1, n + 1, rest => do
    let (first, rest) ← item fuel rest
    let (others, rest) ← items fuel n rest
    some (first :: others, rest)

/-- As many pairs of items as a map has. -/
def entries : ℕ → ℕ → List UInt8 → Option (List (Cbor × Cbor) × List UInt8)
  | _, 0, rest => some ([], rest)
  | 0, _ + 1, _ => none
  | fuel + 1, n + 1, rest => do
    let (key, rest) ← item fuel rest
    let (value, rest) ← item fuel rest
    let (others, rest) ← entries fuel n rest
    some ((key, value) :: others, rest)

end

/-- One item and nothing behind it. Every item takes a byte, which bounds the rounds. -/
def decode (input : List UInt8) : Option Cbor :=
  match item strict (3 * input.length) input with
  | some (v, []) => some v
  | _ => none

end Reading

/-! ## Writing -/

/-- The bytes of a text. -/
def utf8 (s : String) : List UInt8 := s.toUTF8.data.toList

mutual

/-- An item with the shortest heads. -/
def encode : Cbor → List UInt8
  | unsigned n => headBytes 0 n
  | negative n => headBytes 1 n
  | bytes data => headBytes 2 data.length ++ data
  | text s => headBytes 3 (utf8 s).length ++ utf8 s
  | array contents => headBytes 4 contents.length ++ encodeItems contents
  | map contents => headBytes 5 contents.length ++ encodeEntries contents
  | tag number content => headBytes 6 number ++ encode content
  | simple n => if n < 24 then [UInt8.ofNat (224 + n)] else [248, UInt8.ofNat n]
  | float data => UInt8.ofNat (249 + data.length / 4) :: data

/-- The items of an array. -/
def encodeItems : List Cbor → List UInt8
  | [] => []
  | v :: vs => encode v ++ encodeItems vs

/-- The entries of a map. -/
def encodeEntries : List (Cbor × Cbor) → List UInt8
  | [] => []
  | (key, value) :: rest => encode key ++ (encode value ++ encodeEntries rest)

end

/-- The integers and lengths of an item fit a head, and its simple values and floats have a form. -/
inductive Fits : Cbor → Prop where
  | unsigned {n : ℕ} (h : n < 2 ^ 64) : Fits (.unsigned n)
  | negative {n : ℕ} (h : n < 2 ^ 64) : Fits (.negative n)
  | bytes {data : List UInt8} (h : data.length < 2 ^ 64) : Fits (.bytes data)
  | text {s : String} (h : (utf8 s).length < 2 ^ 64) : Fits (.text s)
  | array {contents : List Cbor} (h : contents.length < 2 ^ 64) (hall : ∀ v ∈ contents, Fits v) :
    Fits (.array contents)
  | map {contents : List (Cbor × Cbor)} (h : contents.length < 2 ^ 64)
    (hkeys : ∀ e ∈ contents, Fits e.1) (hvalues : ∀ e ∈ contents, Fits e.2) : Fits (.map contents)
  | tag {number : ℕ} {content : Cbor} (h : number < 2 ^ 64) (hcontent : Fits content) :
    Fits (.tag number content)
  | simple {n : ℕ} (h : n < 24 ∨ 32 ≤ n ∧ n < 2 ^ 8) : Fits (.simple n)
  | float {data : List UInt8} (h : data.length = 2 ∨ data.length = 4 ∨ data.length = 8) :
    Fits (.float data)

/-! ## Reading what was written -/

section RoundTrip

variable {strict : Bool}

lemma initial_ofNat {major info : ℕ} (hmajor : major < 8) (hinfo : info < 32) :
    initial (UInt8.ofNat (32 * major + info)) = (major, info) := by
  have hnat : (UInt8.ofNat (32 * major + info)).toNat = 32 * major + info := by
    rw [UInt8.toNat_ofNat']
    omega
  rw [initial, hnat]
  exact Prod.ext (by dsimp only; omega) (by dsimp only; omega)

/-- An argument in bytes of its own. -/
lemma argument_beBytes {info n : ℕ} (hinfo : 24 ≤ info) (hinfo' : info ≤ 27)
    (hleast : leastArgument info ≤ n) (hn : n < 256 ^ 2 ^ (info - 24)) (rest : List UInt8) :
    argument strict info (beBytes (2 ^ (info - 24)) n ++ rest) = some (n, rest) := by
  rw [argument, if_neg (by omega), if_pos hinfo', takeBytes_append rest (length_beBytes _ _)]
  show (if strict = true ∧ ofBe (beBytes _ n) < leastArgument info then none
    else some (ofBe (beBytes _ n), rest)) = _
  rw [ofBe_beBytes_of_lt hn, if_neg (by omega)]

/-- **A shortest head is read back**, whatever the reader. -/
theorem head_headBytes {major n : ℕ} (hmajor : major < 8) (hn : n < 2 ^ 64)
    (rest : List UInt8) : ∃ b data, headBytes major n = b :: data ∧ (initial b).1 = major ∧
      argument strict (initial b).2 (data ++ rest) = some (n, rest) := by
  rw [headBytes]
  split_ifs with h24 h8 h16 h32
  · refine ⟨_, [], rfl, ?_⟩
    rw [initial_ofNat hmajor (by omega)]
    exact ⟨rfl, if_pos h24⟩
  all_goals
    refine ⟨_, _, rfl, ?_⟩
    rw [initial_ofNat hmajor (by omega)]
    exact ⟨rfl, argument_beBytes (by omega) (by omega) (by rw [leastArgument]; norm_num; omega)
      (by norm_num; omega) rest⟩

lemma length_headBytes_pos (major n : ℕ) : 0 < (headBytes major n).length := by
  rw [headBytes]
  split_ifs <;> simp

lemma length_encode_pos (v : Cbor) : 0 < (encode v).length := by
  have hhead := length_headBytes_pos
  cases v with
  | unsigned n => rw [encode]; exact hhead 0 n
  | negative n => rw [encode]; exact hhead 1 n
  | bytes data | text s | array contents | map contents | tag number content =>
    rw [encode, List.length_append]; exact Nat.add_pos_left (hhead _ _) _
  | simple n => rw [encode]; split <;> simp
  | float data => rw [encode]; simp

lemma fromUTF8?_utf8 (s : String) : String.fromUTF8? ⟨(utf8 s).toArray⟩ = some s :=
  fromUTF8?_eq_some_iff.mpr rfl

/-- An item is read back from the front of an input with enough rounds. -/
def ReadsBack (strict : Bool) (v : Cbor) : Prop :=
  ∀ fuel rest, 3 * (encode v).length ≤ fuel + 1 →
    item strict fuel (encode v ++ rest) = some (v, rest)

/-- One head and what is read behind it. -/
lemma item_head {major n fuel : ℕ} (hmajor : major < 7) (hn : n < 2 ^ 64)
    (rest : List UInt8) :
    item strict (fuel + 1) (headBytes major n ++ rest) =
      (if major = 0 then some (.unsigned n, rest)
      else if major = 1 then some (.negative n, rest)
      else if major = 2 then do
        let (data, rest) ← takeBytes n rest
        some (.bytes data, rest)
      else if major = 3 then do
        let (data, rest) ← takeBytes n rest
        let s ← String.fromUTF8? ⟨data.toArray⟩
        some (.text s, rest)
      else if major = 4 then do
        let (contents, rest) ← items strict fuel n rest
        some (.array contents, rest)
      else if major = 5 then do
        let (contents, rest) ← entries strict fuel n rest
        some (.map contents, rest)
      else do
        let (content, rest) ← item strict fuel rest
        some (.tag n content, rest)) := by
  obtain ⟨b, data, hbytes, hmaj, harg⟩ := head_headBytes (by omega : major < 8) hn rest
  rw [hbytes, List.cons_append, item, if_neg (by omega), harg, hmaj]
  rfl

lemma items_encode {contents : List Cbor} (h : ∀ v ∈ contents, ReadsBack strict v) :
    ∀ fuel rest, 3 * (encodeItems contents).length ≤ fuel →
      items strict fuel contents.length (encodeItems contents ++ rest) = some (contents, rest) := by
  induction contents with
  | nil =>
    intro fuel rest _
    cases fuel <;> rfl
  | cons v contents ih =>
    intro fuel rest hfuel
    have hpos := length_encode_pos v
    rw [encodeItems, List.length_append] at hfuel
    cases fuel with
    | zero => omega
    | succ fuel =>
      have hfirst := h v List.mem_cons_self fuel (encodeItems contents ++ rest) (by omega)
      have hothers := ih (fun v hv => h v (List.mem_cons_of_mem _ hv)) fuel rest (by omega)
      rw [encodeItems, List.append_assoc, List.length_cons, items, hfirst]
      simp only [Option.bind_eq_bind, Option.bind_some, hothers]

lemma entries_encode {contents : List (Cbor × Cbor)}
    (hkeys : ∀ e ∈ contents, ReadsBack strict e.1) (hvalues : ∀ e ∈ contents, ReadsBack strict e.2) :
    ∀ fuel rest, 3 * (encodeEntries contents).length ≤ fuel →
      entries strict fuel contents.length (encodeEntries contents ++ rest) =
        some (contents, rest) := by
  induction contents with
  | nil =>
    intro fuel rest _
    cases fuel <;> rfl
  | cons e contents ih =>
    intro fuel rest hfuel
    obtain ⟨key, value⟩ := e
    have hpos := length_encode_pos key
    rw [encodeEntries, List.length_append, List.length_append] at hfuel
    cases fuel with
    | zero => omega
    | succ fuel =>
      have hkey := hkeys _ List.mem_cons_self fuel
        (encode value ++ (encodeEntries contents ++ rest)) (by dsimp only; omega)
      have hvalue := hvalues _ List.mem_cons_self fuel (encodeEntries contents ++ rest)
        (by dsimp only; omega)
      have hothers := ih (fun e he => hkeys e (List.mem_cons_of_mem _ he))
        (fun e he => hvalues e (List.mem_cons_of_mem _ he)) fuel rest (by omega)
      rw [encodeEntries, List.append_assoc, List.append_assoc, List.length_cons, entries, hkey]
      simp only [Option.bind_eq_bind, Option.bind_some, hvalue, hothers]

/-- **An item is read back** from the front of an input, also by the strict reader.

**Proof sketch.** Induction on the item. Its head is read back and tells the kind of the item; the
contents are read one by one, each from at least one byte, which is what the rounds are counted
by. -/
theorem item_encode {v : Cbor} (h : Fits v) : ReadsBack strict v := by
  induction h with
  | @unsigned n h =>
    rintro (_ | fuel) rest hfuel
    · have := length_encode_pos (.unsigned n)
      omega
    · rw [encode, item_head (by norm_num) h, if_pos rfl]
  | @negative n h =>
    rintro (_ | fuel) rest hfuel
    · have := length_encode_pos (.negative n)
      omega
    · rw [encode, item_head (by norm_num) h]
      rfl
  | @bytes data h =>
    rintro (_ | fuel) rest hfuel
    · have := length_encode_pos (.bytes data)
      omega
    · rw [encode, List.append_assoc, item_head (by norm_num) h]
      simp [takeBytes_append rest rfl]
  | @text s h =>
    rintro (_ | fuel) rest hfuel
    · have := length_encode_pos (.text s)
      omega
    · rw [encode, List.append_assoc, item_head (by norm_num) h]
      simp [takeBytes_append rest rfl, fromUTF8?_utf8]
  | @array contents h _ ih =>
    rintro (_ | fuel) rest hfuel
    · have := length_encode_pos (.array contents)
      omega
    · rw [encode, List.length_append] at hfuel
      have hpos := length_headBytes_pos 4 contents.length
      rw [encode, List.append_assoc, item_head (by norm_num) h]
      simp [items_encode ih fuel rest (by omega)]
  | @map contents h _ _ ihkeys ihvalues =>
    rintro (_ | fuel) rest hfuel
    · have := length_encode_pos (.map contents)
      omega
    · rw [encode, List.length_append] at hfuel
      have hpos := length_headBytes_pos 5 contents.length
      rw [encode, List.append_assoc, item_head (by norm_num) h]
      simp [entries_encode ihkeys ihvalues fuel rest (by omega)]
  | @tag number content h _ ih =>
    rintro (_ | fuel) rest hfuel
    · have := length_encode_pos (.tag number content)
      omega
    · rw [encode, List.length_append] at hfuel
      have hpos := length_headBytes_pos 6 number
      rw [encode, List.append_assoc, item_head (by norm_num) h]
      simp [ih fuel rest (by omega)]
  | @simple n h =>
    rintro (_ | fuel) rest hfuel
    · have := length_encode_pos (.simple n)
      omega
    · rw [encode]
      split
      · rename_i hlt
        have hinitial := @initial_ofNat 7 n (by norm_num) (by omega)
        rw [show 224 + n = 32 * 7 + n by omega, List.singleton_append, item, hinitial, if_pos rfl,
          special, if_pos hlt]
      · have hn : 32 ≤ n ∧ n < 2 ^ 8 := h.resolve_left ‹_›
        have hofBe : ofBe [UInt8.ofNat n] = n := by
          rw [ofBe, List.foldl_cons, List.foldl_nil, UInt8.toNat_ofNat']
          omega
        show special 24 (UInt8.ofNat n :: rest) = _
        have htake : takeBytes 1 (UInt8.ofNat n :: rest) = some ([UInt8.ofNat n], rest) := by
          simp [takeBytes]
        simp [special, htake, hofBe, hn.1]
  | @float data h =>
    rintro (_ | fuel) rest hfuel
    · have := length_encode_pos (.float data)
      omega
    · rw [encode, List.cons_append]
      obtain h | h | h := h
      · rw [h, item]
        show special 25 (data ++ rest) = _
        simp [special, takeBytes_append rest h]
      · rw [h, item]
        show special 26 (data ++ rest) = _
        simp [special, takeBytes_append rest h]
      · rw [h, item]
        show special 27 (data ++ rest) = _
        simp [special, takeBytes_append rest h]

/-- **An item is read back from its bytes**, with none left over. -/
theorem decode_encode {v : Cbor} (h : Fits v) : decode strict (encode v) = some v := by
  have hread := @item_encode strict v h (3 * (encode v).length) [] (by omega)
  rw [List.append_nil] at hread
  rw [decode, hread]

end RoundTrip

end Cbor

end Lib

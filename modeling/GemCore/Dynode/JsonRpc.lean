import GemCore.Lib.Lists
import GemCore.Primitives.Base64
import GemCore.Primitives.JsonText

/-!
# JSON-RPC calls and the keys of the cache

`dynode/src/jsonrpc_types.rs`: the calls and replies of JSON-RPC, how a reply is read, and the keys
under which the proxy caches what it has fetched. The key of a call joins the host, the path, the
method and the text of the params with colons; the key of any other request joins the host, the HTTP
method, the path and the base64 text of the body.

## Main definitions

* `Serde` — the JSON parser.
* `JsonRpcCall`, `JsonRpcResult` — calls and replies.
* `JsonRpcResult.fromSlice` — how a reply is read.
* `Cacheable`, `Cacheable.key` — what can be cached, and under which key.
* `Cacheable.Separable` — the parts of a key can be told apart.

## Main results

* `Cacheable.same_of_key_eq` — separable requests with one key are the same request.
-/

namespace GemCore.Dynode

open Lib

/-- The parser of the `serde_json` crate: the document of a body, with the entries of each object in
the order of the text and repeated ones kept, or the message of the error. -/
structure Serde where
  parse : List UInt8 → Except String Json

/-! ## Documents and values -/

/-- `IndexMap::insert`: a key that is there keeps its place. -/
def insertEntry (entries : List (String × Json)) (key : String) (x : Json) : List (String × Json) :=
  if entries.any (fun e => e.1 == key) then entries.map fun e => if e.1 = key then (key, x) else e
  else entries ++ [(key, x)]

mutual

/-- `Value::deserialize` of a document: of a repeated key the last value is kept. -/
def collapse : Json → Json
  | .arr items => .arr (collapseItems items)
  | .obj entries => .obj (collapseEntries [] entries)
  | .null => .null
  | .bool b => .bool b
  | .num n => .num n
  | .str s => .str s

/-- The items of an array. -/
def collapseItems : List Json → List Json
  | [] => []
  | x :: items => collapse x :: collapseItems items

/-- The entries of an object, inserted one after the other. -/
def collapseEntries (done : List (String × Json)) : List (String × Json) → List (String × Json)
  | [] => done
  | (key, x) :: entries => collapseEntries (insertEntry done key (collapse x)) entries

end

/-- `serde_json::from_slice::<Value>`. -/
def Serde.fromSlice (serde : Serde) (body : List UInt8) : Except String Json :=
  (serde.parse body).map collapse

/-- A field of a struct in a map: `none` if it stands there twice, which is an error. -/
def uniqueField (entries : List (String × Json)) (key : String) : Option (Option Json) :=
  match entries.filter fun e => e.1 = key with
  | [] => some none
  | [e] => some (some e.2)
  | _ => none

/-! ## Calls and replies -/

/-- `JsonRpcCall`. -/
structure JsonRpcCall where
  jsonrpc : String
  method : String
  params : Json
  id : UInt64

/-- `Value::is_null`. -/
def isNull : Json → Bool
  | .null => true
  | _ => false

/-- `JsonRpcCall::cache_key`. -/
def JsonRpcCall.cacheKey (call : JsonRpcCall) (host path : String) : String :=
  let base := host ++ ":POST:" ++ path ++ ":" ++ call.method
  if isNull call.params then base else base ++ ":" ++ call.params.text

/-- The params as they are sent: nothing for `null`. -/
def JsonRpcCall.sentParams (call : JsonRpcCall) : Option String :=
  if isNull call.params then none else some call.params.text

/-- `JsonRpcResponse`. -/
structure JsonRpcResponse where
  jsonrpc : String
  result : Json
  id : Option UInt64

/-- `JsonRpcError`. -/
structure JsonRpcError where
  code : Int32
  message : String

/-- `JsonRpcErrorResponse`. -/
structure JsonRpcErrorResponse where
  jsonrpc : String
  error : JsonRpcError
  id : Option UInt64

/-- `JsonRpcResult`. -/
inductive JsonRpcResult where
  | success (response : JsonRpcResponse)
  | error (response : JsonRpcErrorResponse)

/-- `default_jsonrpc_version`. -/
def defaultJsonrpcVersion : String := "2.0"

/-- The entry of an id: left out if there is none. -/
def idEntry : Option UInt64 → List (String × Json)
  | none => []
  | some id => [("id", .num (.posInt id))]

/-- `serde_json::to_value`. -/
def JsonRpcResult.toValue : JsonRpcResult → Json
  | success r => .obj ([("jsonrpc", .str r.jsonrpc), ("result", r.result)] ++ idEntry r.id)
  | error r =>
    .obj ([("jsonrpc", .str r.jsonrpc),
      ("error", .obj [("code", .num (codeNumber r.error.code)), ("message", .str r.error.message)])]
        ++ idEntry r.id)
where
  /-- An `i32` as a number. -/
  codeNumber (code : Int32) : JsonNumber :=
    if code.toInt < 0 then .negInt code.toInt64 else .posInt (UInt64.ofNat code.toInt.toNat)

/-- `Option<u64>`. -/
def readId : Json → Option (Option UInt64)
  | .null => some none
  | .num (.posInt n) => some (some n)
  | _ => none

/-- `i32`. -/
def readCode : Json → Option Int32
  | .num n => n.asI64.bind fun z =>
    if -2 ^ 31 ≤ z ∧ z < 2 ^ 31 then some (Int32.ofInt z) else none
  | _ => none

/-- The version, or the default if the field is missing. -/
def readVersion : Option Json → Option String
  | none => some defaultJsonrpcVersion
  | some x => x.asStr

/-- The id, or none if the field is missing. -/
def readIdField : Option Json → Option (Option UInt64)
  | none => some none
  | some x => readId x

/-- `JsonRpcResponse::deserialize`: from a map, or from its fields in order. -/
def JsonRpcResponse.deserialize : Json → Option JsonRpcResponse
  | .obj entries => do
    let jsonrpc ← readVersion (← uniqueField entries "jsonrpc")
    let result ← (← uniqueField entries "result")
    let id ← readIdField (← uniqueField entries "id")
    some { jsonrpc := jsonrpc, result := collapse result, id := id }
  | .arr [jsonrpc, result] => do
    some { jsonrpc := ← jsonrpc.asStr, result := collapse result, id := none }
  | .arr [jsonrpc, result, id] => do
    some { jsonrpc := ← jsonrpc.asStr, result := collapse result, id := ← readId id }
  | _ => none

/-- `JsonRpcError::deserialize`. -/
def JsonRpcError.deserialize : Json → Option JsonRpcError
  | .obj entries => do
    let code ← readCode (← (← uniqueField entries "code"))
    let message ← Json.asStr (← (← uniqueField entries "message"))
    some { code := code, message := message }
  | .arr [code, message] => do
    some { code := ← readCode code, message := ← message.asStr }
  | _ => none

/-- `JsonRpcErrorResponse::deserialize`. -/
def JsonRpcErrorResponse.deserialize : Json → Option JsonRpcErrorResponse
  | .obj entries => do
    let jsonrpc ← readVersion (← uniqueField entries "jsonrpc")
    let error ← JsonRpcError.deserialize (← (← uniqueField entries "error"))
    let id ← readIdField (← uniqueField entries "id")
    some { jsonrpc := jsonrpc, error := error, id := id }
  | .arr [jsonrpc, error] => do
    some { jsonrpc := ← jsonrpc.asStr, error := ← JsonRpcError.deserialize error, id := none }
  | .arr [jsonrpc, error, id] => do
    some { jsonrpc := ← jsonrpc.asStr, error := ← JsonRpcError.deserialize error, id := ← readId id }
  | _ => none

/-- `JsonRpcResult::deserialize`, untagged: a success is tried before an error. -/
def JsonRpcResult.deserialize (document : Json) : Option JsonRpcResult :=
  match JsonRpcResponse.deserialize document with
  | some response => some (success response)
  | none => (JsonRpcErrorResponse.deserialize document).map error

/-- `serde_json::from_slice::<JsonRpcResult>`. -/
def JsonRpcResult.fromSlice (serde : Serde) (body : List UInt8) : Except String JsonRpcResult :=
  match serde.parse body with
  | .error e => .error e
  | .ok document =>
    match deserialize document with
    | some result => .ok result
    | none => .error "data did not match any variant of untagged enum JsonRpcResult"

/-- A reply that is an object without a `result` is never read as a success, whatever else it
has. -/
theorem JsonRpcResponse.deserialize_eq_none {entries : List (String × Json)}
    (h : ∀ e ∈ entries, e.1 ≠ "result") : JsonRpcResponse.deserialize (.obj entries) = none := by
  have hnone : uniqueField entries "result" = some none := by
    have hfilter : entries.filter (fun e => e.1 = "result") = [] :=
      List.filter_eq_nil_iff.mpr fun e he => by simpa using h e he
    simp only [uniqueField, hfilter]
  simp only [deserialize, hnone, Option.bind_eq_bind, Option.bind_some, Option.bind_none,
    Option.bind_eq_none_iff]
  intro _ _ _ _
  trivial

/-! ## Requests -/

/-- `JsonRpcRequest`. -/
inductive JsonRpcRequest where
  | single (call : JsonRpcCall)
  | batch (calls : List JsonRpcCall)

/-- `RequestType`. -/
inductive RequestType where
  | regular (path method : String) (body : List UInt8)
  | jsonRpc (request : JsonRpcRequest)

/-- `RequestType::cache_key`. -/
def RequestType.cacheKey (host : String) : RequestType → Option String
  | regular path method body =>
    some (host ++ ":" ++ method ++ ":" ++ path ++ ":" ++ String.ofList (encodeBase64Url body))
  | jsonRpc _ => none

/-- `ChainCacheRules`, with the times to live in milliseconds: by the contract a call or a request
is for, by the method of a call and by the path of a request. -/
structure ChainCacheRules where
  callTtl : JsonRpcCall → Option ℕ
  rpcTtl : String → Option ℕ
  requestTtl : String → String → List UInt8 → Option ℕ

/-- `should_cache_call`. -/
def ChainCacheRules.shouldCacheCall (rules : ChainCacheRules) (call : JsonRpcCall) : Option ℕ :=
  match rules.callTtl call with
  | some ttl => some ttl
  | none => rules.rpcTtl call.method

/-- `should_cache_request`. -/
def ChainCacheRules.shouldCacheRequest (rules : ChainCacheRules) : RequestType → Option ℕ
  | .regular path method body => rules.requestTtl path method body
  | .jsonRpc _ => none

/-! ## Keys -/

/-- What can have an entry in the cache: a call, alone or in a batch, or a plain request. -/
inductive Cacheable where
  | call (host path : String) (call : JsonRpcCall)
  | plain (host path method : String) (body : List UInt8)

namespace Cacheable

/-- The key of the entry. -/
def key : Cacheable → String
  | call host path c => c.cacheKey host path
  | plain host path method body =>
    host ++ ":" ++ method ++ ":" ++ path ++ ":" ++ String.ofList (encodeBase64Url body)

/-- How long an entry lives, if there may be one. -/
def ttl (rules : ChainCacheRules) : Cacheable → Option ℕ
  | call _ _ c => rules.shouldCacheCall c
  | plain _ path method body => rules.shouldCacheRequest (.regular path method body)

/-- The same request up to the id. -/
def Same : Cacheable → Cacheable → Prop
  | call host path c, call host' path' c' =>
    host = host' ∧ path = path' ∧ c.method = c'.method ∧ c.sentParams = c'.sentParams
  | plain host path method body, plain host' path' method' body' =>
    host = host' ∧ path = path' ∧ method = method' ∧ body = body'
  | call _ _ _, plain _ _ _ _ => False
  | plain _ _ _ _, call _ _ _ => False

/-- The parts of the key can be told apart: there is no colon in the host, the path and the method,
and the base64 text of a plain `POST` is not the name of a method whose calls are cached. -/
def Separable (rules : ChainCacheRules) : Cacheable → Prop
  | call host path c => ':' ∉ host.toList ∧ ':' ∉ path.toList ∧ ':' ∉ c.method.toList
  | plain host path method body =>
    ':' ∉ host.toList ∧ ':' ∉ path.toList ∧ ':' ∉ method.toList ∧
      ∀ c : JsonRpcCall, c.method.toList = encodeBase64Url body → rules.shouldCacheCall c = none

/-- What stands behind the host in the key of a call. -/
lemma key_call_toList (host path : String) (c : JsonRpcCall) :
    (key (call host path c)).toList =
      host.toList ++ ':' :: ("POST".toList ++ ':' :: (path.toList ++ ':' :: (c.method.toList ++
        match c.sentParams with
        | none => []
        | some params => ':' :: params.toList))) := by
  by_cases h : isNull c.params = true <;>
    simp [key, JsonRpcCall.cacheKey, JsonRpcCall.sentParams, h]

/-- What stands behind the host in the key of a plain request. -/
lemma key_plain_toList (host path method : String) (body : List UInt8) :
    (key (plain host path method body)).toList =
      host.toList ++ ':' :: (method.toList ++ ':' :: (path.toList ++ ':' ::
        encodeBase64Url body)) := by
  simp [key, String.toList_append]

/-- The method and the params of a call can be read from the end of its key. -/
theorem method_params_inj {m m' : String} {p p' : Option String} (hm : ':' ∉ m.toList)
    (hm' : ':' ∉ m'.toList)
    (h : (m.toList ++ match p with
      | none => []
      | some params => ':' :: params.toList) =
      m'.toList ++ match p' with
      | none => []
      | some params => ':' :: params.toList) : m = m' ∧ p = p' := by
  cases p with
  | none =>
    cases p' with
    | none =>
      simp only [List.append_nil] at h
      exact ⟨String.toList_inj.mp h, rfl⟩
    | some params =>
      refine absurd ?_ hm
      rw [← List.append_nil m.toList, h]
      simp
  | some params =>
    cases p' with
    | none =>
      refine absurd ?_ hm'
      rw [← List.append_nil m'.toList, ← h]
      simp
    | some params' =>
      obtain ⟨hmethod, hparams⟩ := (append_separator_inj hm hm').mp h
      exact ⟨String.toList_inj.mp hmethod, by rw [String.toList_inj.mp hparams]⟩

/-- A call and a plain request with one key: the base64 text is the name of the method. -/
theorem method_eq_of_key_eq {host path host' path' method : String} {c : JsonRpcCall}
    {body : List UInt8} {rules : ChainCacheRules} (ha : Separable rules (call host path c))
    (hb : Separable rules (plain host' path' method body))
    (h : key (call host path c) = key (plain host' path' method body)) :
    c.method.toList = encodeBase64Url body := by
  obtain ⟨hhost, hpath, hmethod⟩ := ha
  obtain ⟨hhost', hpath', hmethod', -⟩ := hb
  have hlist := congrArg String.toList h
  rw [key_call_toList, key_plain_toList, append_separator_inj hhost hhost',
    append_separator_inj (by decide) hmethod', append_separator_inj hpath hpath'] at hlist
  obtain ⟨-, -, -, hend⟩ := hlist
  cases hparams : c.sentParams with
  | none => simpa [hparams] using hend
  | some params =>
    refine absurd ?_ (colon_notMem_encodeBase64Url body)
    rw [← hend, hparams]
    simp

/-- **Separable requests that can be cached and have one key are the same request.** -/
theorem same_of_key_eq {rules : ChainCacheRules} {a b : Cacheable} (ha : Separable rules a)
    (hb : Separable rules b) (hta : (a.ttl rules).isSome) (htb : (b.ttl rules).isSome)
    (h : a.key = b.key) : Same a b := by
  cases a with
  | call host path c =>
    cases b with
    | call host' path' c' =>
      obtain ⟨hhost, hpath, hmethod⟩ := ha
      obtain ⟨hhost', hpath', hmethod'⟩ := hb
      have hlist := congrArg String.toList h
      rw [key_call_toList, key_call_toList, append_separator_inj hhost hhost',
        append_separator_inj (by decide) (by decide), append_separator_inj hpath hpath'] at hlist
      obtain ⟨h1, -, h2, hend⟩ := hlist
      obtain ⟨h3, h4⟩ := method_params_inj hmethod hmethod' hend
      exact ⟨String.toList_inj.mp h1, String.toList_inj.mp h2, h3, h4⟩
    | plain host' path' method body =>
      rw [ttl, hb.2.2.2 c (method_eq_of_key_eq ha hb h)] at hta
      exact absurd hta (by simp)
  | plain host path method body =>
    cases b with
    | call host' path' c =>
      rw [ttl, ha.2.2.2 c (method_eq_of_key_eq hb ha h.symm)] at htb
      exact absurd htb (by simp)
    | plain host' path' method' body' =>
      obtain ⟨hhost, hpath, hmethod, -⟩ := ha
      obtain ⟨hhost', hpath', hmethod', -⟩ := hb
      have hlist := congrArg String.toList h
      rw [key_plain_toList, key_plain_toList, append_separator_inj hhost hhost',
        append_separator_inj hmethod hmethod', append_separator_inj hpath hpath'] at hlist
      obtain ⟨h1, h2, h3, h4⟩ := hlist
      exact ⟨String.toList_inj.mp h1, String.toList_inj.mp h3, String.toList_inj.mp h2,
        encodeBase64Url_injective h4⟩

end Cacheable

end GemCore.Dynode

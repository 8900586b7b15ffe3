import GemCore.Dynode.JsonRpc
import GemCore.Lib.Tasks
import GemCore.Primitives.Hex

/-!
# The caching proxy

`dynode/src/proxy/service.rs`, `proxy/jsonrpc.rs` and `proxy/jsonrpc/cache.rs`: how a request is
answered from the cache and from the node. A batch is looked up call by call; the calls without an
answer are sent to the node in one batch, its array is brought into the order of the calls by their
ids, and the answers of both kinds are merged.

Each lookup, each store and each exchange with the node is one operation of a task over the cache of
the chain; requests of one chain run at the same time. What the node answers is arbitrary.

## Main definitions

* `Reply`, `ProxyResponse` — what the node answers, and the proxy.
* `orderBatch`, `mergeBatchResults` — how a batch is put together.
* `handleBatchRequest`, `handleSingleRequest`, `handleRequest` — the tasks.

## Main results

* `orderBatch_spec` — an array that is accepted answers each call once.
* `mergeBatchResults_spec` — each place is filled from its own source.
-/

namespace GemCore.Dynode

open Lib

/-- `CachedResponse`. -/
structure CachedResponse where
  body : List UInt8
  status : ℕ
  contentType : String

/-- `StatusCode::OK`. -/
def statusOk : ℕ := 200

/-- `JSON_CONTENT_TYPE`. -/
def jsonContentType : String := "application/json"

/-- What is sent to the node. -/
inductive Outgoing where
  | plain (path method : String) (body : List UInt8)
  | single (call : JsonRpcCall)
  | batch (calls : List JsonRpcCall)

/-- What the node answers. -/
structure Reply where
  status : ℕ
  contentType : Option String
  body : List UInt8

/-- `CacheStatus`. -/
inductive CacheStatus where
  | hit | partialHit | miss

/-- `ProxyResponse`, without the headers. -/
structure ProxyResponse where
  status : ℕ
  body : List UInt8
  cacheStatus : CacheStatus

/-- `ProxyRequest`: what is read of it here. -/
structure ProxyRequest where
  host : String
  pathWithQuery : String
  requestType : RequestType

/-- A task over the cache of the chain. -/
abbrev CacheTask (α : Type) : Type := Task String CachedResponse Outgoing (Except String Reply) α

/-- An entry in the log of such a task. -/
abbrev CacheOp : Type := Op String CachedResponse Outgoing (Except String Reply)

/-! ## Reading the cache -/

/-- `cache::result`. -/
def result (serde : Serde) (call : JsonRpcCall) (cached : CachedResponse) : Option JsonRpcResult :=
  match serde.fromSlice cached.body with
  | .ok value => some (.success { jsonrpc := call.jsonrpc, result := value, id := some call.id })
  | .error _ => none

/-- `cache::get`. -/
def get (serde : Serde) (request : ProxyRequest) (call : JsonRpcCall) :
    CacheTask (Option JsonRpcResult) := do
  let cached ← Task.read (call.cacheKey request.host request.pathWithQuery)
  pure (cached.bind (result serde call))

/-- The lookup of a call, if it may be cached. -/
def getIf (serde : Serde) (request : ProxyRequest) (call : JsonRpcCall) (ttl : Option ℕ) :
    CacheTask (Option JsonRpcResult) :=
  if ttl.isSome then get serde request call else pure none

/-- `cache::get_many`, over the calls with their times to live. -/
def getMany (serde : Serde) (request : ProxyRequest) :
    List (JsonRpcCall × Option ℕ) → CacheTask (List (Option JsonRpcResult))
  | [] => pure []
  | (call, ttl) :: rest => do
    let found ← getIf serde request call ttl
    let others ← getMany serde request rest
    pure (found :: others)

/-! ## Writing the cache -/

/-- `cache::set_result`. -/
def setResult (request : ProxyRequest) (call : JsonRpcCall) (value : Json) : CacheTask Unit :=
  Task.write (call.cacheKey request.host request.pathWithQuery)
    { body := value.toVec, status := statusOk, contentType := jsonContentType }

/-- `response.get("id").and_then(Value::as_u64)`. -/
def responseId (response : Json) : Option UInt64 :=
  match response.get "id" with
  | some (.num (.posInt id)) => some id
  | _ => none

/-- One round of the loop of `cache::set_many`. -/
def setOne (request : ProxyRequest) (call : JsonRpcCall) (ttl : Option ℕ) (response : Json) :
    CacheTask Unit :=
  match ttl, response.get "result" with
  | some _, some value => setResult request call value
  | _, _ => pure ()

/-- The loop of `cache::set_many`. -/
def setEach (request : ProxyRequest) : List ((JsonRpcCall × Option ℕ) × Json) → CacheTask Unit
  | [] => pure ()
  | ((call, ttl), response) :: rest => do
    setOne request call ttl response
    setEach request rest

/-- `cache::set_many`: nothing is stored unless each response is the one to its call. -/
def setMany (request : ProxyRequest) (calls : List JsonRpcCall) (ttls : List (Option ℕ))
    (responses : List Json) : CacheTask Unit :=
  if calls.length ≠ ttls.length ∨ calls.length ≠ responses.length then pure ()
  else if (calls.zip responses).any fun x => responseId x.2 ≠ some x.1.id then pure ()
  else setEach request ((calls.zip ttls).zip responses)

/-! ## Putting a batch together -/

/-- Whether the ids of some calls are distinct. -/
def distinctIds (calls : List JsonRpcCall) : Bool :=
  (calls.map JsonRpcCall.id).dedup.length = calls.length

/-- `collect::<HashMap<_, _>>`: of two results with one id the later one is kept. -/
def resultsById (results : List Json) : AssocMap UInt64 Json :=
  AssocMap.collect (results.filterMap fun x => (responseId x).map fun id => (id, x))

/-- `order_batch`. -/
def orderBatch (calls : List JsonRpcCall) : Json → Except String Json
  | .arr results =>
    if !distinctIds calls then .ok (.arr results)
    else if results.length ≠ calls.length then .error "invalid JSON-RPC batch response length"
    else if (resultsById results).keys.length ≠ calls.length ∨
        !(resultsById results).keys.all fun id => id ∈ calls.map JsonRpcCall.id then
      .error "invalid JSON-RPC batch response IDs"
    else .ok (.arr (calls.filterMap fun call => (resultsById results).lookup call.id))
  | response => .ok response

/-- The calls without an answer in the cache, with their times to live. -/
def missingCalls (calls : List (JsonRpcCall × Option ℕ)) (cached : List (Option JsonRpcResult)) :
    List (JsonRpcCall × Option ℕ) :=
  ((calls.zip cached).filter fun x => x.2.isNone).map Prod.fst

/-- `merge_batch_results`. -/
def mergeBatchResults : List (Option JsonRpcResult) → List Json → Except String (List Json)
  | [], [] => .ok []
  | [], _ :: _ => .error "invalid JSON-RPC partial batch response length"
  | some found :: cached, upstream => do
    let merged ← mergeBatchResults cached upstream
    .ok (found.toValue :: merged)
  | none :: cached, x :: upstream => do
    let merged ← mergeBatchResults cached upstream
    .ok (x :: merged)
  | none :: _, [] => .error "invalid JSON-RPC partial batch response length"

lemma distinctIds_iff {calls : List JsonRpcCall} :
    distinctIds calls = true ↔ (calls.map JsonRpcCall.id).Nodup := by
  simp only [distinctIds, decide_eq_true_eq]
  constructor
  · intro h
    have hself : (calls.map JsonRpcCall.id).dedup = calls.map JsonRpcCall.id :=
      (List.dedup_sublist _).eq_of_length (by rw [h, List.length_map])
    rw [← hself]
    exact List.nodup_dedup _
  · intro h
    rw [h.dedup, List.length_map]

/-- As many distinct ids as results: each result has an id of its own. -/
lemma ids_perm_of_length_eq {results : List Json}
    (h : (resultsById results).keys.length = results.length) :
    (results.map responseId).Perm ((resultsById results).keys.map some) := by
  have hperm := AssocMap.keys_collect_perm
    (results.filterMap fun x => (responseId x).map fun id => (id, x))
  have hfst : (results.filterMap fun x => (responseId x).map fun id => (id, x)).map Prod.fst =
      results.filterMap responseId := by
    rw [List.map_filterMap]
    congr 1
    funext x
    cases responseId x <;> rfl
  rw [hfst] at hperm
  have hdedup : (results.filterMap responseId).dedup.length = results.length :=
    hperm.length_eq.symm.trans h
  have hle := (List.dedup_sublist (results.filterMap responseId)).length_le
  have hle' := List.length_filterMap_le responseId results
  -- nothing was left out, and nothing stood there twice
  have hself : (results.filterMap responseId).dedup = results.filterMap responseId :=
    (List.dedup_sublist _).eq_of_length (by omega)
  have hsome : ∀ x ∈ results, (responseId x).isSome :=
    (List.filterMap_length_eq_length).mp (by omega)
  have hmap : results.map responseId = (results.filterMap responseId).map some := by
    clear h hperm hfst hdedup hle hle' hself
    induction results with
    | nil => rfl
    | cons x results ih =>
      obtain ⟨id, hid⟩ := Option.isSome_iff_exists.mp (hsome x List.mem_cons_self)
      rw [List.map_cons, ih fun y hy => hsome y (List.mem_cons_of_mem x hy), List.filterMap_cons,
        hid]
      rfl
  rw [hmap, ← hself]
  exact (hperm.map some).symm

/-- An array that answers some calls: its ids are those of the calls, each once. -/
def AnswersCalls (calls : List JsonRpcCall) (results : List Json) : Prop :=
  (results.map responseId).Perm (calls.map fun call => some call.id)

/-- **What `order_batch` accepts answers each call once**, and it returns for each call the result
with its id.

**Proof sketch.** There are as many distinct ids as calls, so each result has an id of its own; they
are all ids of calls, and as many, so they are the ids of the calls. -/
theorem orderBatch_spec {calls : List JsonRpcCall} {results : List Json} {ordered : Json}
    (hids : (calls.map JsonRpcCall.id).Nodup)
    (h : orderBatch calls (.arr results) = .ok ordered) :
    ∃ items, ordered = .arr items ∧ AnswersCalls calls results ∧
      List.Forall₂ (fun call x => x ∈ results ∧ responseId x = some call.id) calls items := by
  have hkeysNodup : (resultsById results).keys.Nodup := AList.keys_nodup _
  simp only [orderBatch, distinctIds_iff.mpr hids, Bool.not_true, Bool.false_eq_true, if_false]
    at h
  split_ifs at h with hlen hcheck
  simp only [ne_eq, not_or, Decidable.not_not, Bool.not_eq_true', Bool.not_eq_false,
    List.all_eq_true, decide_eq_true_eq] at hlen hcheck
  obtain ⟨hcard, hsub⟩ := hcheck
  cases h
  have hkeys : (resultsById results).keys.Perm (calls.map JsonRpcCall.id) := by
    refine (List.subperm_of_subset hkeysNodup hsub).perm_of_length_le ?_
    rw [List.length_map, hcard]
  have hperm := ids_perm_of_length_eq (hcard.trans hlen.symm)
  refine ⟨_, rfl, ?_, ?_⟩
  · have hsome := hkeys.map some
    rw [List.map_map] at hsome
    exact hperm.trans hsome
  · have hfound : ∀ call ∈ calls, ∃ x, (resultsById results).lookup call.id = some x ∧
        x ∈ results ∧ responseId x = some call.id := by
      intro call hcall
      have hmem : call.id ∈ (resultsById results).keys :=
        hkeys.mem_iff.mpr (List.mem_map_of_mem hcall)
      obtain ⟨x, hx⟩ := Option.isSome_iff_exists.mp (AList.lookup_isSome.mpr hmem)
      obtain ⟨y, hy, hid⟩ := List.mem_filterMap.mp (AssocMap.mem_of_lookup_collect hx)
      obtain ⟨id, hid, heq⟩ := Option.map_eq_some_iff.mp hid
      cases heq
      exact ⟨x, hx, hy, hid⟩
    clear hids hlen hcard hsub hkeys
    induction calls with
    | nil => exact .nil
    | cons call calls ih =>
      obtain ⟨x, hx, hmem, hid⟩ := hfound call List.mem_cons_self
      rw [List.filterMap_cons, hx]
      exact .cons ⟨hmem, hid⟩ (ih fun c hc => hfound c (List.mem_cons_of_mem call hc))

@[simp] lemma missingCalls_some (x : JsonRpcCall × Option ℕ) (found : JsonRpcResult)
    (calls : List (JsonRpcCall × Option ℕ)) (cached : List (Option JsonRpcResult)) :
    missingCalls (x :: calls) (some found :: cached) = missingCalls calls cached := by
  simp [missingCalls]

@[simp] lemma missingCalls_none (x : JsonRpcCall × Option ℕ)
    (calls : List (JsonRpcCall × Option ℕ)) (cached : List (Option JsonRpcResult)) :
    missingCalls (x :: calls) (none :: cached) = x :: missingCalls calls cached := by
  simp [missingCalls]

/-- **Each place of a merged batch is filled from its own source**: if the answers from the cache
and those of the node suit their calls, so do the merged ones. -/
theorem mergeBatchResults_spec {P : JsonRpcCall → Json → Prop}
    {calls : List (JsonRpcCall × Option ℕ)} {cached : List (Option JsonRpcResult)}
    {upstream merged : List Json}
    (hcached : List.Forall₂ (fun x r => ∀ found, r = some found → P x.1 found.toValue) calls cached)
    (hupstream : List.Forall₂ (fun x y => P x.1 y) (missingCalls calls cached) upstream)
    (h : mergeBatchResults cached upstream = .ok merged) :
    List.Forall₂ (fun x y => P x.1 y) calls merged := by
  induction hcached generalizing upstream merged with
  | nil =>
    cases hupstream
    cases h
    exact .nil
  | @cons x r calls cached hx _ ih =>
    cases r with
    | some found =>
      rw [missingCalls_some] at hupstream
      simp only [mergeBatchResults] at h
      obtain ⟨rest, hrest, heq⟩ := bind_eq_ok_iff.mp h
      cases heq
      exact .cons (hx found rfl) (ih hupstream hrest)
    | none =>
      rw [missingCalls_none] at hupstream
      cases hupstream with
      | cons hy hupstream =>
        simp only [mergeBatchResults] at h
        obtain ⟨rest, hrest, heq⟩ := bind_eq_ok_iff.mp h
        cases heq
        exact .cons hy (ih hupstream hrest)

/-! ## Error texts -/

/-- `split_whitespace` and `join(" ")`. -/
def joinWords (text : String) : String :=
  String.intercalate " " ((splitWhitespace text.toList).map String.ofList)

/-- `format_parse_error`. -/
def formatParseError (status : ℕ) (body : List UInt8) (error : String) : String :=
  match String.fromUTF8? ⟨body.toArray⟩ with
  | some text =>
    if body.length ≤ 256 then "status=" ++ toString status ++ ", body: " ++ joinWords text
    else "status=" ++ toString status ++ ", parse error: " ++ error
  | none => "status=" ++ toString status ++ ", parse error: " ++ error

/-! ## The tasks -/

section Handlers

variable (serde : Serde) (rules : ChainCacheRules) (request : ProxyRequest)

/-- The node's answers are stored if the status says so. -/
def storeMany (missing : List (JsonRpcCall × Option ℕ)) (reply : Reply) (results : List Json) :
    CacheTask Unit :=
  if reply.status = statusOk then
    setMany request (missing.map Prod.fst) (missing.map Prod.snd) results
  else pure ()

/-- The node's array for the missing calls: it is ordered, stored and merged. -/
def mergeArray (missing : List (JsonRpcCall × Option ℕ)) (cached : List (Option JsonRpcResult))
    (reply : Reply) (response : Json) : CacheTask (Except String ProxyResponse) :=
  match orderBatch (missing.map Prod.fst) response with
  | .error e => pure (.error e)
  | .ok ordered =>
    match ordered.asArray with
    | none => pure (.error "invalid JSON-RPC batch response")
    | some results => do
      storeMany request missing reply results
      match mergeBatchResults cached results with
      | .error e => pure (.error e)
      | .ok merged =>
        pure (.ok { status := reply.status, body := (Json.arr merged).toVec,
                    cacheStatus := if cached.any Option.isSome then .partialHit else .miss })

/-- The whole batch is sent again, and what comes back is only brought into order. -/
def refetch (calls : List JsonRpcCall) : CacheTask (Except String ProxyResponse) := do
  match ← Task.query (.batch calls) with
  | .error e => pure (.error e)
  | .ok reply =>
    match serde.fromSlice reply.body with
    | .error e => pure (.error (formatParseError reply.status reply.body e))
    | .ok (.arr items) =>
      match orderBatch calls (.arr items) with
      | .error e => pure (.error e)
      | .ok ordered =>
        pure (.ok { status := reply.status, body := ordered.toVec, cacheStatus := .miss })
    | .ok _ => pure (.ok { status := reply.status, body := reply.body, cacheStatus := .miss })

/-- The calls without an answer in the cache are sent to the node. -/
def fetchMissing (calls : List JsonRpcCall) (missing : List (JsonRpcCall × Option ℕ))
    (cached : List (Option JsonRpcResult)) : CacheTask (Except String ProxyResponse) := do
  match ← Task.query (.batch (missing.map Prod.fst)) with
  | .error e => pure (.error e)
  | .ok reply =>
    match serde.fromSlice reply.body with
    | .error e => pure (.error (formatParseError reply.status reply.body e))
    | .ok (.arr items) => mergeArray request missing cached reply (.arr items)
    | .ok _ =>
      if cached.any Option.isSome then refetch serde calls
      else pure (.ok { status := reply.status, body := reply.body, cacheStatus := .miss })

/-- The times to live of a batch: none is cached if two calls have one id. -/
def cacheTtls (calls : List JsonRpcCall) : List (JsonRpcCall × Option ℕ) :=
  calls.map fun call => (call, if distinctIds calls then rules.shouldCacheCall call else none)

/-- `handle_batch_request`. -/
def handleBatchRequest (calls : List JsonRpcCall) : CacheTask (Except String ProxyResponse) := do
  let cached ← getMany serde request (cacheTtls rules calls)
  let missing := missingCalls (cacheTtls rules calls) cached
  if missing.isEmpty then
    pure (.ok { status := statusOk,
                body := (Json.arr (cached.reduceOption.map JsonRpcResult.toValue)).toVec,
                cacheStatus := .hit })
  else fetchMissing serde request calls missing cached

/-- What `fetch_single_response` stores: the result of a success. -/
def storeSingle (call : JsonRpcCall) (ttl : Option ℕ) (reply : Reply) (outcome : JsonRpcResult) :
    CacheTask Unit :=
  if reply.status = statusOk then
    match outcome, ttl with
    | .success success, some _ => setResult request call success.result
    | _, _ => pure ()
  else pure ()

/-- `fetch_single_response`, and the answer made of it. -/
def fetchSingleResponse (call : JsonRpcCall) (ttl : Option ℕ) :
    CacheTask (Except String ProxyResponse) := do
  match ← Task.query (.single call) with
  | .error e => pure (.error e)
  | .ok reply =>
    match JsonRpcResult.fromSlice serde reply.body with
    | .error e => pure (.error (formatParseError reply.status reply.body e))
    | .ok outcome => do
      storeSingle request call ttl reply outcome
      pure (.ok { status := reply.status, body := reply.body, cacheStatus := .miss })

/-- `handle_single_request`. -/
def handleSingleRequest (call : JsonRpcCall) : CacheTask (Except String ProxyResponse) := do
  let ttl := rules.shouldCacheCall call
  match ← getIf serde request call ttl with
  | some found =>
    pure (.ok { status := statusOk, body := found.toValue.toVec, cacheStatus := .hit })
  | none => fetchSingleResponse serde request call ttl

/-- What is stored of the answer to a plain request: the answer as it is. -/
def storePlain (ttl : Option ℕ) (key : Option String) (reply : Reply) : CacheTask Unit :=
  if reply.status = statusOk ∧ reply.body ≠ [] then
    match ttl, key with
    | some _, some key =>
      Task.write key { body := reply.body, status := reply.status,
                       contentType := reply.contentType.getD jsonContentType }
    | _, _ => pure ()
  else pure ()

/-- The rest of `ProxyRequestService::handle_request`, for requests that are not JSON-RPC. -/
def fetchPlain (path method : String) (body : List UInt8) (ttl : Option ℕ) (key : Option String) :
    CacheTask (Except String ProxyResponse) := do
  match ← Task.query (.plain path method body) with
  | .error e => pure (.error e)
  | .ok reply => do
    storePlain ttl key reply
    pure (.ok { status := reply.status, body := reply.body, cacheStatus := .miss })

/-- The lookup in `try_cache_hit`, if there is a key. -/
def lookup : Option String → CacheTask (Option CachedResponse)
  | some key => Task.read key
  | none => pure none

/-- `ProxyRequestService::handle_request`, for requests that are not JSON-RPC. -/
def handlePlainRequest (path method : String) (body : List UInt8) :
    CacheTask (Except String ProxyResponse) := do
  let requestType := RequestType.regular path method body
  let ttl := rules.shouldCacheRequest requestType
  let key := ttl.bind fun _ => requestType.cacheKey request.host
  match ← lookup key with
  | some cached => pure (.ok { status := cached.status, body := cached.body, cacheStatus := .hit })
  | none => fetchPlain path method body ttl key

/-- `ProxyRequestService::handle_request`. -/
def handleRequest : CacheTask (Except String ProxyResponse) :=
  match request.requestType with
  | .jsonRpc (.single call) => handleSingleRequest serde rules request call
  | .jsonRpc (.batch calls) => handleBatchRequest serde rules request calls
  | .regular path method body => handlePlainRequest rules request path method body

end Handlers

end GemCore.Dynode

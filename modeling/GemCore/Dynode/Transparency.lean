import GemCore.Dynode.Proxy

/-!
# The cache is transparent

What a client of the proxy gets for a batch, when any number of requests of the chain run at the
same time and entries of the cache expire or are evicted at any moment. Each element is the node's
answer to the call at its place, from this exchange or from an earlier one that was stored under the
key of the call; an array of the node that does not answer the calls it was sent is an error; and a
reply of the node to a batch that is no array is handed on as it is.

## Main definitions

* `asks` — the exchanges of a task with the node.
* `Stored` — where an entry comes from.
* `BatchAnswered` — what the client of a batch gets.

## Main results

* `handleRequest_meets` — what each request promises.
* `transparent_of_run` — in every run, every batch is answered call by call, every entry comes from
  a result the node gave with status 200, and separable requests share an entry only if they are the
  same.
-/

namespace GemCore.Dynode

open Lib

variable {serde : Serde} {rules : ChainCacheRules} {request : ProxyRequest}

/-! ## Logs -/

/-- The exchanges with the node in a log. -/
def asks (log : List CacheOp) : List (Outgoing × Except String Reply) :=
  log.filterMap fun
    | .asked question answer => some (question, answer)
    | .read _ _ => none
    | .wrote _ _ => none

@[simp] lemma asks_append (log log' : List CacheOp) : asks (log ++ log') = asks log ++ asks log' :=
  List.filterMap_append

@[simp] lemma asks_asked (question : Outgoing) (answer : Except String Reply) :
    asks [.asked question answer] = [(question, answer)] := rfl

/-- A log that is longer by lookups and stores only. -/
def Extends (log log' : List CacheOp) : Prop := log ⊆ log' ∧ asks log' = asks log

lemma Extends.refl (log : List CacheOp) : Extends log log := ⟨List.Subset.refl _, rfl⟩

lemma Extends.trans {log log' log'' : List CacheOp} (h : Extends log log')
    (h' : Extends log' log'') : Extends log log'' :=
  ⟨List.Subset.trans h.1 h'.1, h'.2.trans h.2⟩

lemma Extends.read (log : List CacheOp) (key : String) (value : Option CachedResponse) :
    Extends log (log ++ [.read key value]) :=
  ⟨List.subset_append_left _ _, by simp [asks]⟩

lemma Extends.wrote (log : List CacheOp) (key : String) (value : CachedResponse) :
    Extends log (log ++ [.wrote key value]) :=
  ⟨List.subset_append_left _ _, by simp [asks]⟩

/-! ## Lookups -/

/-- The answer to a call that is made of what was found under its key. -/
def Found (serde : Serde) (request : ProxyRequest) (log : List CacheOp) (call : JsonRpcCall)
    (found : JsonRpcResult) : Prop :=
  ∃ cached value, .read (call.cacheKey request.host request.pathWithQuery) (some cached) ∈ log ∧
    serde.fromSlice cached.body = .ok value ∧
    found = .success { jsonrpc := call.jsonrpc, result := value, id := some call.id }

lemma Found.mono {log log' : List CacheOp} {call : JsonRpcCall} {found : JsonRpcResult}
    (h : Found serde request log call found) (hsub : log ⊆ log') :
    Found serde request log' call found := by
  obtain ⟨cached, value, hmem, hvalue, hfound⟩ := h
  exact ⟨cached, value, hsub hmem, hvalue, hfound⟩

section Meets

variable {may : List CacheOp → String → CachedResponse → Prop} {log : List CacheOp}

/-- One lookup, with its entry in the log. -/
lemma read_meets (key : String) :
    (Task.read key : CacheTask (Option CachedResponse)).Meets may (fun log' cached =>
      Extends log log' ∧ .read key cached ∈ log') log :=
  Task.Meets.read fun cached =>
    ⟨.read log key cached, List.mem_append_right _ (List.mem_singleton_self _)⟩

/-- A lookup only reads, and what it returns was found. -/
lemma getIf_meets (call : JsonRpcCall) (ttl : Option ℕ) :
    (getIf serde request call ttl).Meets may (fun log' r => Extends log log' ∧
      ∀ found, r = some found → Found serde request log' call found) log := by
  unfold getIf
  split_ifs
  · refine Task.Meets.bind (read_meets _) fun log' cached ⟨hext, hmem⟩ => ?_
    refine Task.Meets.pure ⟨hext, fun found hfound => ?_⟩
    obtain ⟨c, rfl, hc⟩ := Option.bind_eq_some_iff.mp hfound
    unfold result at hc
    split at hc
    case h_1 value hvalue =>
      cases hc
      exact ⟨c, value, hmem, hvalue, rfl⟩
    case h_2 => cases hc
  · exact Task.Meets.pure ⟨.refl log, fun found h => by cases h⟩

/-- The lookups of a batch, by induction over its calls. -/
lemma getMany_meets (calls : List (JsonRpcCall × Option ℕ)) :
    (getMany serde request calls).Meets may (fun log' cached => Extends log log' ∧
      List.Forall₂ (fun x r => ∀ found, r = some found → Found serde request log' x.1 found) calls
        cached) log := by
  induction calls generalizing log with
  | nil => exact Task.Meets.pure ⟨.refl log, .nil⟩
  | cons x calls ih =>
    refine Task.Meets.bind (getIf_meets x.1 x.2) fun log₁ r ⟨hext₁, hr⟩ => ?_
    refine Task.Meets.bind ih fun log₂ cached ⟨hext₂, hcached⟩ => ?_
    refine Task.Meets.pure ⟨hext₁.trans hext₂, .cons (fun found h => ?_) hcached⟩
    exact (hr found h).mono hext₂.1

end Meets

/-! ## Where entries come from -/

/-- The node's reply is an object with a `result`, or no object at all. -/
def HasResult (document : Json) : Prop :=
  ∀ entries, document = .obj entries → ∃ e ∈ entries, e.1 = "result"

/-- The result of a call in a reply of the node to a batch: the call was among those sent, the
status is 200, and the element with the id of the call has a `result`. -/
def BatchResult (serde : Serde) (log : List CacheOp) (call : JsonRpcCall) (value : Json) : Prop :=
  ∃ sent reply items x, (.batch sent, .ok reply) ∈ asks log ∧ reply.status = statusOk ∧
    serde.fromSlice reply.body = .ok (.arr items) ∧ call ∈ sent ∧ x ∈ items ∧
    responseId x = some call.id ∧ x.get "result" = some value

/-- The result of a call in a reply of the node to that call alone: the status is 200, the reply has
a `result` and is read as a success. -/
def SingleResult (serde : Serde) (log : List CacheOp) (call : JsonRpcCall) (value : Json) : Prop :=
  ∃ reply document response, (.single call, .ok reply) ∈ asks log ∧ reply.status = statusOk ∧
    serde.parse reply.body = .ok document ∧ HasResult document ∧
    JsonRpcResult.deserialize document = some (.success response) ∧ response.result = value

/-- What a request may store: for one of its calls that can be cached, under the key of the call,
the result the node gave to it with status 200; for a plain request, the node's answer with status
200. -/
def Stored (serde : Serde) (rules : ChainCacheRules) (request : ProxyRequest) (log : List CacheOp)
    (key : String) (stored : CachedResponse) : Prop :=
  match request.requestType with
  | .jsonRpc (.single call) =>
    (rules.shouldCacheCall call).isSome ∧
      key = (Cacheable.call request.host request.pathWithQuery call).key ∧
      ∃ value, SingleResult serde log call value ∧ stored.body = value.toVec
  | .jsonRpc (.batch calls) =>
    ∃ call ∈ calls, (rules.shouldCacheCall call).isSome ∧
      key = (Cacheable.call request.host request.pathWithQuery call).key ∧
      ∃ value, BatchResult serde log call value ∧ stored.body = value.toVec
  | .regular path method body =>
    (rules.requestTtl path method body).isSome ∧
      key = (Cacheable.plain request.host path method body).key ∧
      ∃ reply, (.plain path method body, .ok reply) ∈ asks log ∧ reply.status = statusOk ∧
        reply.body ≠ [] ∧ stored.body = reply.body

/-- What may be stored stays so. -/
lemma Stored.mono {log log' : List CacheOp} {key : String} {stored : CachedResponse}
    (hsub : asks log ⊆ asks log') (h : Stored serde rules request log key stored) :
    Stored serde rules request log' key stored := by
  match htype : request.requestType with
  | .jsonRpc (.single call) =>
    simp only [Stored, htype] at h ⊢
    obtain ⟨httl, hkey, value, ⟨reply, document, response, hmem, hrest⟩, hbody⟩ := h
    exact ⟨httl, hkey, value, ⟨reply, document, response, hsub hmem, hrest⟩, hbody⟩
  | .jsonRpc (.batch calls) =>
    simp only [Stored, htype] at h ⊢
    obtain ⟨call, hcall, httl, hkey, value, ⟨sent, reply, items, x, hmem, hrest⟩, hbody⟩ := h
    exact ⟨call, hcall, httl, hkey, value, ⟨sent, reply, items, x, hsub hmem, hrest⟩, hbody⟩
  | .regular path method body =>
    simp only [Stored, htype] at h ⊢
    obtain ⟨httl, hkey, reply, hmem, hrest⟩ := h
    exact ⟨httl, hkey, reply, hsub hmem, hrest⟩

/-! ## Stores -/

section Stores

variable {log : List CacheOp}

/-- One round of storing a batch. -/
lemma setOne_meets {calls : List JsonRpcCall}
    (htype : request.requestType = .jsonRpc (.batch calls)) {call : JsonRpcCall} {ttl : Option ℕ}
    {response : Json} (hcall : call ∈ calls) (httl : ttl.isSome → (rules.shouldCacheCall call).isSome)
    (hresult : ∀ value, response.get "result" = some value → BatchResult serde log call value) :
    (setOne request call ttl response).Meets (Stored serde rules request)
      (fun log' _ => Extends log log') log := by
  unfold setOne
  split
  case h_1 _ value hvalue =>
    refine Task.Meets.write ?_ (.wrote log _ _)
    unfold Stored
    simp only [htype]
    exact ⟨call, hcall, httl rfl, rfl, value, hresult value hvalue, rfl⟩
  case h_2 => exact Task.Meets.pure (.refl log)

/-- Storing a batch, by induction over its calls: each result is stored for the call at its
place. -/
theorem setEach_meets {calls : List JsonRpcCall}
    (htype : request.requestType = .jsonRpc (.batch calls))
    (rounds : List ((JsonRpcCall × Option ℕ) × Json))
    (hcalls : ∀ x ∈ rounds, x.1.1 ∈ calls ∧ (x.1.2.isSome → (rules.shouldCacheCall x.1.1).isSome) ∧
      ∀ value, x.2.get "result" = some value → BatchResult serde log x.1.1 value) :
    (setEach request rounds).Meets (Stored serde rules request) (fun log' _ => Extends log log')
      log := by
  induction rounds generalizing log with
  | nil => exact Task.Meets.pure (.refl log)
  | cons x rounds ih =>
    obtain ⟨hcall, httl, hresult⟩ := hcalls x List.mem_cons_self
    refine Task.Meets.bind (setOne_meets htype hcall httl hresult) fun log₁ _ hext₁ => ?_
    refine (ih fun y hy => ?_).mono fun log₂ _ hext₂ => hext₁.trans hext₂
    obtain ⟨hcall', httl', hresult'⟩ := hcalls y (List.mem_cons_of_mem x hy)
    refine ⟨hcall', httl', fun value hvalue => ?_⟩
    obtain ⟨sent, reply, items, z, hmem, hrest⟩ := hresult' value hvalue
    exact ⟨sent, reply, items, z, hext₁.2.symm ▸ hmem, hrest⟩

/-- Nothing is stored unless the status is 200, and then only the result of the call itself. -/
theorem storeMany_meets {calls : List JsonRpcCall}
    (htype : request.requestType = .jsonRpc (.batch calls))
    {missing : List (JsonRpcCall × Option ℕ)} {reply : Reply} {items results : List Json}
    (hmissing : ∀ x ∈ missing, x.1 ∈ calls ∧ (x.2.isSome → (rules.shouldCacheCall x.1).isSome))
    (hasked : (.batch (missing.map Prod.fst), .ok reply) ∈ asks log)
    (hitems : serde.fromSlice reply.body = .ok (.arr items))
    (hresults : List.Forall₂ (fun call x => x ∈ items ∧ responseId x = some call.id)
      (missing.map Prod.fst) results) :
    (storeMany request missing reply results).Meets (Stored serde rules request)
      (fun log' _ => Extends log log') log := by
  unfold storeMany setMany
  split_ifs with hstatus
  · exact Task.Meets.pure (.refl log)
  · exact Task.Meets.pure (.refl log)
  · have hzip : missing = (missing.map Prod.fst).zip (missing.map Prod.snd) :=
      List.zip_of_prod rfl rfl
    rw [← hzip]
    refine setEach_meets htype _ fun y hy => ?_
    obtain ⟨hcall, httl⟩ := hmissing y.1 (List.of_mem_zip hy).1
    obtain ⟨hitem, hid⟩ :=
      (List.forall₂_iff_zip.mp ((List.forall₂_map_left_iff).mp hresults)).2 hy
    have hsent : y.1.1 ∈ missing.map Prod.fst := List.mem_map_of_mem (List.of_mem_zip hy).1
    exact ⟨hcall, httl, fun value hvalue =>
      ⟨_, reply, items, y.2, hasked, hstatus, hitems, hsent, hitem, hid, hvalue⟩⟩
  · exact Task.Meets.pure (.refl log)

end Stores

/-! ## Batches -/

/-- The node's answer to a call: of an array that answers the calls that were sent, the element with
the id of the call. -/
def UpstreamAnswer (serde : Serde) (log : List CacheOp) (call : JsonRpcCall) (x : Json) : Prop :=
  ∃ sent reply items, (.batch sent, .ok reply) ∈ asks log ∧
    serde.fromSlice reply.body = .ok (.arr items) ∧ AnswersCalls sent items ∧ call ∈ sent ∧
    x ∈ items ∧ responseId x = some call.id

/-- The answer to a call: from the cache, or the node's. -/
def Answered (serde : Serde) (request : ProxyRequest) (log : List CacheOp) (call : JsonRpcCall)
    (x : Json) : Prop :=
  (∃ found, Found serde request log call found ∧ x = found.toValue) ∨
    UpstreamAnswer serde log call x

/-- A reply of the node to a batch that is no array, as it is. -/
def HandedOn (serde : Serde) (log : List CacheOp) (response : ProxyResponse) : Prop :=
  ∃ sent reply value, (.batch sent, .ok reply) ∈ asks log ∧ serde.fromSlice reply.body = .ok value ∧
    value.asArray = none ∧ response.body = reply.body ∧ response.status = reply.status

/-- The arrays of the node so far answered the calls that were sent. -/
def NoBadArray (serde : Serde) (log : List CacheOp) : Prop :=
  ∀ sent reply items, (.batch sent, .ok reply) ∈ asks log →
    serde.fromSlice reply.body = .ok (.arr items) → AnswersCalls sent items

/-- What a batch promises: an error; or, if all arrays of the node answered the calls that were
sent, an array with the answer to each call at its place, or the node's reply as it is. -/
def BatchPost (serde : Serde) (request : ProxyRequest) (calls : List JsonRpcCall)
    (log : List CacheOp) (outcome : Except String ProxyResponse) : Prop :=
  ∀ response, outcome = .ok response → NoBadArray serde log ∧
    ((∃ elements, response.body = (Json.arr elements).toVec ∧
      List.Forall₂ (Answered serde request log) calls elements) ∨ HandedOn serde log response)

lemma NoBadArray.extends {log log' : List CacheOp} (h : NoBadArray serde log)
    (hext : Extends log log') : NoBadArray serde log' := by
  intro sent reply items hmem
  exact h sent reply items (hext.2 ▸ hmem)

lemma NoBadArray.asked {log : List CacheOp} (h : NoBadArray serde log) {sent : List JsonRpcCall}
    {reply : Reply} (hgood : ∀ items, serde.fromSlice reply.body = .ok (.arr items) →
      AnswersCalls sent items) :
    NoBadArray serde (log ++ [.asked (.batch sent) (.ok reply)]) := by
  intro sent' reply' items hmem hitems
  rw [asks_append, asks_asked, List.mem_append, List.mem_singleton] at hmem
  rcases hmem with hmem | heq
  · exact h sent' reply' items hmem hitems
  · cases heq
    exact hgood items hitems

section Batch

variable {log : List CacheOp} {calls : List JsonRpcCall}
  (htype : request.requestType = .jsonRpc (.batch calls)) (hids : (calls.map JsonRpcCall.id).Nodup)

lemma batchPost_error (e : String) : BatchPost serde request calls log (.error e) :=
  fun _ h => by cases h

/-- A non-array is handed on. -/
lemma batchPost_handedOn {sent : List JsonRpcCall} {reply : Reply} {value : Json}
    {status : CacheStatus} (hgood : NoBadArray serde log)
    (hvalue : serde.fromSlice reply.body = .ok value) (harray : value.asArray = none) :
    BatchPost serde request calls (log ++ [.asked (.batch sent) (.ok reply)])
      (.ok { status := reply.status, body := reply.body, cacheStatus := status }) := by
  intro response h
  cases h
  refine ⟨hgood.asked fun items hitems => ?_, .inr ⟨sent, reply, value, ?_, hvalue, harray, rfl, rfl⟩⟩
  · rw [hitems] at hvalue
    cases hvalue
    cases harray
  · simp

/-- A value that is not matched as an array has no items. -/
lemma asArray_eq_none {value : Json} (h : ∀ items, value ≠ .arr items) : value.asArray = none := by
  cases value with
  | arr items => exact absurd rfl (h items)
  | _ => rfl

/-- The elements of an ordered array are the node's answers. -/
lemma upstreamAnswers {sent : List JsonRpcCall} {reply : Reply} {items elements : List Json}
    (hasked : (.batch sent, .ok reply) ∈ asks log)
    (hitems : serde.fromSlice reply.body = .ok (.arr items)) (hanswers : AnswersCalls sent items)
    (hforall : List.Forall₂ (fun call x => x ∈ items ∧ responseId x = some call.id) sent elements) :
    List.Forall₂ (UpstreamAnswer serde log) sent elements := by
  obtain ⟨hlen, hzip⟩ := List.forall₂_iff_zip.mp hforall
  refine List.forall₂_iff_zip.mpr ⟨hlen, fun {call x} hmem => ?_⟩
  obtain ⟨hx, hid⟩ := hzip hmem
  exact ⟨sent, reply, items, hasked, hitems, hanswers, (List.of_mem_zip hmem).1, hx, hid⟩

include hids in
/-- The batch that is sent again. -/
lemma refetch_meets (hgood : NoBadArray serde log) :
    (refetch serde calls).Meets (Stored serde rules request) (BatchPost serde request calls) log := by
  refine Task.Meets.bind (Task.Meets.query _) ?_
  rintro log' answer rfl
  cases answer with
  | error e => exact Task.Meets.pure (batchPost_error e)
  | ok reply =>
    simp only
    split
    case h_1 => exact Task.Meets.pure (batchPost_error _)
    case h_2 items hitems =>
      split
      case h_1 => exact Task.Meets.pure (batchPost_error _)
      case h_2 ordered hordered =>
        obtain ⟨elements, rfl, hanswers, hforall⟩ := orderBatch_spec hids hordered
        refine Task.Meets.pure fun response h => ?_
        cases h
        refine ⟨hgood.asked fun items' hitems' => ?_, .inl ⟨elements, rfl, ?_⟩⟩
        · rw [hitems] at hitems'
          cases hitems'
          exact hanswers
        · exact (upstreamAnswers (by simp) hitems hanswers hforall).imp fun _ _ h => .inr h
    case h_3 value hnot hvalue =>
      exact Task.Meets.pure (batchPost_handedOn hgood hvalue (asArray_eq_none fun items h =>
        hnot items h))

include htype in
/-- The node's array for the missing calls. -/
lemma mergeArray_meets {missing : List (JsonRpcCall × Option ℕ)}
    {pairs : List (JsonRpcCall × Option ℕ)} {cached : List (Option JsonRpcResult)} {reply : Reply}
    {items : List Json} (hpairs : pairs.map Prod.fst = calls)
    (hmissing : missing = missingCalls pairs cached)
    (hmissingIds : ((missing.map Prod.fst).map JsonRpcCall.id).Nodup)
    (httl : ∀ x ∈ missing, x.1 ∈ calls ∧ (x.2.isSome → (rules.shouldCacheCall x.1).isSome))
    (hcached : List.Forall₂ (fun x r => ∀ found, r = some found →
      Found serde request log x.1 found) pairs cached)
    (hgood : NoBadArray serde log) (hitems : serde.fromSlice reply.body = .ok (.arr items)) :
    (mergeArray request missing cached reply (.arr items)).Meets (Stored serde rules request)
      (BatchPost serde request calls)
      (log ++ [.asked (.batch (missing.map Prod.fst)) (.ok reply)]) := by
  unfold mergeArray
  split
  case h_1 => exact Task.Meets.pure (batchPost_error _)
  case h_2 ordered hordered =>
    obtain ⟨results, rfl, hanswers, hforall⟩ := orderBatch_spec hmissingIds hordered
    have hasked : (Outgoing.batch (missing.map Prod.fst), Except.ok reply) ∈
        asks (log ++ [.asked (.batch (missing.map Prod.fst)) (.ok reply)]) := by simp
    have hgood' : NoBadArray serde (log ++ [.asked (.batch (missing.map Prod.fst)) (.ok reply)]) :=
      hgood.asked fun items' hitems' => by
        rw [hitems] at hitems'
        cases hitems'
        exact hanswers
    refine Task.Meets.bind (storeMany_meets htype httl hasked hitems hforall)
      fun log₁ _ hext => ?_
    split
    case h_1 => exact Task.Meets.pure (batchPost_error _)
    case h_2 merged hmerged =>
      refine Task.Meets.pure fun response h => ?_
      cases h
      refine ⟨hgood'.extends hext, .inl ⟨merged, rfl, ?_⟩⟩
      have hupstream := upstreamAnswers (hext.2.symm ▸ hasked) hitems hanswers hforall
      rw [List.forall₂_map_left_iff] at hupstream
      rw [← hpairs, List.forall₂_map_left_iff]
      refine mergeBatchResults_spec (hcached.imp fun x r hr found hfound => ?_) ?_ hmerged
      · exact .inl ⟨found, (hr found hfound).mono
          (List.Subset.trans (List.subset_append_left _ _) hext.1), rfl⟩
      · rw [← hmissing]
        exact hupstream.imp fun _ _ h => .inr h

/-- The missing calls are calls of the batch. -/
lemma missingCalls_sublist (pairs : List (JsonRpcCall × Option ℕ))
    (cached : List (Option JsonRpcResult)) : (missingCalls pairs cached).Sublist pairs := by
  induction pairs generalizing cached with
  | nil => simp [missingCalls]
  | cons x pairs ih =>
    cases cached with
    | nil => simp [missingCalls]
    | cons r cached =>
      cases r with
      | some found =>
        rw [missingCalls_some]
        exact (ih cached).cons x
      | none =>
        rw [missingCalls_none]
        exact (ih cached).cons_cons x

/-- If nothing is missing, the answers of the cache are the whole batch. -/
lemma merge_of_missing_eq_nil {pairs : List (JsonRpcCall × Option ℕ)}
    {cached : List (Option JsonRpcResult)} (hlen : pairs.length = cached.length)
    (h : missingCalls pairs cached = []) :
    mergeBatchResults cached [] = .ok (cached.reduceOption.map JsonRpcResult.toValue) := by
  induction pairs generalizing cached with
  | nil =>
    obtain rfl : cached = [] := List.eq_nil_of_length_eq_zero hlen.symm
    rfl
  | cons x pairs ih =>
    cases cached with
    | nil => cases hlen
    | cons r cached =>
      cases r with
      | some found =>
        rw [missingCalls_some] at h
        rw [mergeBatchResults, ih (Nat.succ.inj hlen) h]
        rfl
      | none => simp at h

include htype hids in
/-- **What a batch promises.** -/
theorem handleBatchRequest_meets :
    (handleBatchRequest serde rules request calls).Meets (Stored serde rules request)
      (BatchPost serde request calls) [] := by
  have hpairs : (cacheTtls rules calls).map Prod.fst = calls := by
    simp [cacheTtls, List.map_map, Function.comp_def]
  have hempty : NoBadArray serde [] := fun _ _ _ h => by cases h
  refine Task.Meets.bind (getMany_meets (cacheTtls rules calls)) fun log₁ cached ⟨hext, hcached⟩ => ?_
  have hgood : NoBadArray serde log₁ := hempty.extends hext
  have hsub := missingCalls_sublist (cacheTtls rules calls) cached
  dsimp only
  split_ifs with hmissing
  · have hnil := List.isEmpty_iff.mp hmissing
    refine Task.Meets.pure fun response h => ?_
    cases h
    refine ⟨hgood, .inl ⟨_, rfl, ?_⟩⟩
    rw [← hpairs, List.forall₂_map_left_iff]
    refine mergeBatchResults_spec (hcached.imp fun x r hr found hfound =>
      .inl ⟨found, hr found hfound, rfl⟩) ?_ (merge_of_missing_eq_nil hcached.length_eq hnil)
    rw [hnil]
    exact .nil
  · have hmissingIds : (((missingCalls (cacheTtls rules calls) cached).map Prod.fst).map
        JsonRpcCall.id).Nodup := by
      refine List.Nodup.sublist ((hsub.map Prod.fst).map JsonRpcCall.id) ?_
      rw [hpairs]
      exact hids
    have httl : ∀ x ∈ missingCalls (cacheTtls rules calls) cached,
        x.1 ∈ calls ∧ (x.2.isSome → (rules.shouldCacheCall x.1).isSome) := by
      intro x hx
      obtain ⟨call, hcall, rfl⟩ := List.mem_map.mp (hsub.subset hx)
      refine ⟨hcall, fun h => ?_⟩
      split_ifs at h
      · exact h
      · cases h
    refine Task.Meets.bind (Task.Meets.query _) ?_
    rintro log' answer rfl
    cases answer with
    | error e => exact Task.Meets.pure (batchPost_error e)
    | ok reply =>
      simp only
      split
      case h_1 => exact Task.Meets.pure (batchPost_error _)
      case h_2 items hitems =>
        exact mergeArray_meets htype hpairs rfl hmissingIds httl hcached hgood hitems
      case h_3 value hnot hvalue =>
        have harray : value.asArray = none := asArray_eq_none fun items h => hnot items h
        split_ifs
        · refine refetch_meets hids (hgood.asked fun items hitems => ?_)
          rw [hitems] at hvalue
          cases hvalue
          cases harray
        · exact Task.Meets.pure (batchPost_handedOn hgood hvalue harray)

end Batch

/-! ## Batches with repeated ids -/

section Repeated

variable {may : List CacheOp → String → CachedResponse → Prop} {log : List CacheOp}

/-- A round without a time to live stores nothing. -/
lemma setEach_quiet (rounds : List ((JsonRpcCall × Option ℕ) × Json))
    (h : ∀ x ∈ rounds, x.1.2 = none) :
    (setEach request rounds).Meets may (fun _ _ => True) log := by
  induction rounds generalizing log with
  | nil => exact Task.Meets.pure trivial
  | cons x rounds ih =>
    have hone : (setOne request x.1.1 x.1.2 x.2).Meets may (fun _ _ => True) log := by
      rw [h x List.mem_cons_self]
      exact Task.Meets.pure trivial
    exact Task.Meets.bind hone fun log₁ _ _ => ih fun y hy => h y (List.mem_cons_of_mem x hy)

lemma storeMany_quiet {missing : List (JsonRpcCall × Option ℕ)} (reply : Reply)
    (results : List Json) (h : ∀ x ∈ missing, x.2 = none) :
    (storeMany request missing reply results).Meets may (fun _ _ => True) log := by
  unfold storeMany setMany
  split_ifs
  · exact Task.Meets.pure trivial
  · exact Task.Meets.pure trivial
  · refine setEach_quiet _ fun y hy => ?_
    have hzip : missing = (missing.map Prod.fst).zip (missing.map Prod.snd) :=
      List.zip_of_prod rfl rfl
    rw [← hzip] at hy
    exact h y.1 (List.of_mem_zip hy).1
  · exact Task.Meets.pure trivial

lemma mergeArray_quiet {missing : List (JsonRpcCall × Option ℕ)}
    (cached : List (Option JsonRpcResult)) (reply : Reply) (response : Json)
    (h : ∀ x ∈ missing, x.2 = none) :
    (mergeArray request missing cached reply response).Meets may (fun _ _ => True) log := by
  unfold mergeArray
  split
  case h_1 => exact Task.Meets.pure trivial
  case h_2 =>
    split
    case h_1 => exact Task.Meets.pure trivial
    case h_2 =>
      refine Task.Meets.bind (storeMany_quiet reply _ h) fun _ _ _ => ?_
      split <;> exact Task.Meets.pure trivial

lemma refetch_quiet (calls : List JsonRpcCall) :
    (refetch serde calls).Meets may (fun _ _ => True) log := by
  refine Task.Meets.bind (Task.Meets.query _) fun log' answer _ => ?_
  cases answer with
  | error e => exact Task.Meets.pure trivial
  | ok reply =>
    simp only
    split
    · exact Task.Meets.pure trivial
    · split <;> exact Task.Meets.pure trivial
    · exact Task.Meets.pure trivial

/-- A batch in which two calls have one id stores nothing. -/
lemma handleBatchRequest_quiet {calls : List JsonRpcCall}
    (hids : ¬(calls.map JsonRpcCall.id).Nodup) :
    (handleBatchRequest serde rules request calls).Meets may (fun _ _ => True) log := by
  have hdistinct : distinctIds calls = false :=
    Bool.eq_false_iff.mpr fun h => hids (distinctIds_iff.mp h)
  refine Task.Meets.bind (getMany_meets (cacheTtls rules calls)) fun log₁ cached _ => ?_
  have hnone : ∀ x ∈ missingCalls (cacheTtls rules calls) cached, x.2 = none := by
    intro x hx
    obtain ⟨call, _, rfl⟩ :=
      List.mem_map.mp ((missingCalls_sublist (cacheTtls rules calls) cached).subset hx)
    simp [hdistinct]
  dsimp only
  split_ifs
  · exact Task.Meets.pure trivial
  · refine Task.Meets.bind (Task.Meets.query _) fun log' answer _ => ?_
    cases answer with
    | error e => exact Task.Meets.pure trivial
    | ok reply =>
      simp only
      split
      · exact Task.Meets.pure trivial
      · exact mergeArray_quiet cached reply _ hnone
      · split_ifs
        · exact refetch_quiet calls
        · exact Task.Meets.pure trivial

end Repeated

/-! ## Other requests -/

section Others

variable {log : List CacheOp}

/-- A success of `JsonRpcResult` comes from a reply with a `result`. -/
lemma hasResult_of_success {document : Json} {response : JsonRpcResponse}
    (h : JsonRpcResult.deserialize document = some (.success response)) : HasResult document := by
  rintro entries rfl
  by_contra hno
  push Not at hno
  rw [JsonRpcResult.deserialize, JsonRpcResponse.deserialize_eq_none hno] at h
  simp only [Option.map_eq_some_iff] at h
  obtain ⟨r, -, hr⟩ := h
  cases hr

/-- A single call stores the result of a success with status 200 only. -/
lemma storeSingle_meets {call : JsonRpcCall}
    (htype : request.requestType = .jsonRpc (.single call)) {reply : Reply} {outcome : JsonRpcResult}
    (hasked : (.single call, .ok reply) ∈ asks log)
    (houtcome : JsonRpcResult.fromSlice serde reply.body = .ok outcome) :
    (storeSingle request call (rules.shouldCacheCall call) reply outcome).Meets
      (Stored serde rules request) (fun _ _ => True) log := by
  unfold storeSingle
  split_ifs with hstatus
  · split
    case h_1 response ttl httl =>
      refine Task.Meets.write ?_ trivial
      simp only [Stored, htype]
      unfold JsonRpcResult.fromSlice at houtcome
      split at houtcome
      case h_1 => cases houtcome
      case h_2 document hdocument =>
        split at houtcome
        case h_1 result hresult =>
          cases houtcome
          exact ⟨by rw [httl]; rfl, rfl, response.result, ⟨reply, document, response, hasked, hstatus,
            hdocument, hasResult_of_success hresult, hresult, rfl⟩, rfl⟩
        case h_2 => cases houtcome
    case h_2 => exact Task.Meets.pure trivial
  · exact Task.Meets.pure trivial

lemma handleSingleRequest_meets {call : JsonRpcCall}
    (htype : request.requestType = .jsonRpc (.single call)) :
    (handleSingleRequest serde rules request call).Meets (Stored serde rules request)
      (fun _ _ => True) log := by
  refine Task.Meets.bind (getIf_meets call (rules.shouldCacheCall call)) fun log₁ found _ => ?_
  cases found with
  | some found => exact Task.Meets.pure trivial
  | none =>
    refine Task.Meets.bind (Task.Meets.query _) ?_
    rintro log' answer rfl
    cases answer with
    | error e => exact Task.Meets.pure trivial
    | ok reply =>
      simp only
      split
      case h_1 => exact Task.Meets.pure trivial
      case h_2 outcome houtcome =>
        exact Task.Meets.bind (storeSingle_meets htype (by simp) houtcome)
          fun _ _ _ => Task.Meets.pure trivial

/-- A plain request stores the node's answer with status 200 only. -/
lemma handlePlainRequest_meets {path method : String} {body : List UInt8}
    (htype : request.requestType = .regular path method body) :
    (handlePlainRequest rules request path method body).Meets (Stored serde rules request)
      (fun _ _ => True) log := by
  have hlookup : ∀ key, (lookup key).Meets (Stored serde rules request) (fun _ _ => True) log := by
    intro key
    cases key with
    | some key => exact Task.Meets.read fun _ => trivial
    | none => exact Task.Meets.pure trivial
  refine Task.Meets.bind (hlookup _) fun log₁ found _ => ?_
  cases found with
  | some found => exact Task.Meets.pure trivial
  | none =>
    refine Task.Meets.bind (Task.Meets.query _) ?_
    rintro log' answer rfl
    cases answer with
    | error e => exact Task.Meets.pure trivial
    | ok reply =>
      refine Task.Meets.bind (?_ : Task.Meets _ (fun _ _ => True) _ _)
        fun _ _ _ => Task.Meets.pure trivial
      unfold storePlain
      split_ifs with hstatus
      · split
        case h_1 ttl key httl hkey =>
          refine Task.Meets.write ?_ trivial
          simp only [Stored, htype]
          simp only [ChainCacheRules.shouldCacheRequest] at httl hkey
          rw [httl] at hkey
          cases hkey
          exact ⟨by rw [httl]; rfl, rfl, reply, by simp, hstatus.1, hstatus.2, rfl⟩
        case h_2 => exact Task.Meets.pure trivial
      · exact Task.Meets.pure trivial

end Others

/-! ## Runs -/

/-- What each request promises about its result. -/
def RequestPost (serde : Serde) (request : ProxyRequest) (log : List CacheOp)
    (outcome : Except String ProxyResponse) : Prop :=
  ∀ calls, request.requestType = .jsonRpc (.batch calls) → (calls.map JsonRpcCall.id).Nodup →
    BatchPost serde request calls log outcome

/-- **What each request promises.** -/
theorem handleRequest_meets (serde : Serde) (rules : ChainCacheRules) (request : ProxyRequest) :
    (handleRequest serde rules request).Meets (Stored serde rules request)
      (RequestPost serde request) [] := by
  unfold handleRequest
  split
  case h_1 call htype =>
    refine (handleSingleRequest_meets htype).mono fun log outcome _ calls hcalls => ?_
    rw [htype] at hcalls
    cases hcalls
  case h_2 calls htype =>
    by_cases hids : (calls.map JsonRpcCall.id).Nodup
    · refine (handleBatchRequest_meets htype hids).mono fun log outcome h calls' hcalls _ => ?_
      rw [htype] at hcalls
      cases hcalls
      exact h
    · refine (handleBatchRequest_quiet hids).mono fun log outcome _ calls' hcalls hids' => ?_
      rw [htype] at hcalls
      cases hcalls
      exact absurd hids' hids
  case h_3 path method body htype =>
    refine (handlePlainRequest_meets htype).mono fun log outcome _ calls hcalls => ?_
    rw [htype] at hcalls
    cases hcalls

/-- The requests of a chain and its cache. -/
abbrev CachePool : Type :=
  Pool String CachedResponse Outgoing (Except String Reply) ProxyRequest (Except String ProxyResponse)

/-- The answer to a call of a batch: a result that some request of the pool has stored under the key
of the call, under the id of the call; or the node's. -/
def AnsweredIn (serde : Serde) (rules : ChainCacheRules) (s : CachePool) (request : ProxyRequest)
    (log : List CacheOp) (call : JsonRpcCall) (x : Json) : Prop :=
  (∃ job ∈ s.jobs, ∃ stored value,
    Stored serde rules job.request job.log
      (Cacheable.call request.host request.pathWithQuery call).key stored ∧
    serde.fromSlice stored.body = .ok value ∧
    x = (JsonRpcResult.success { jsonrpc := call.jsonrpc, result := value, id := some call.id }).toValue)
  ∨ UpstreamAnswer serde log call x

/-- What the client of a batch gets: an error; or, if every array of the node answered the calls it
was sent, the answer to each call at its place, or the node's reply that is no array. -/
def BatchAnswered (serde : Serde) (rules : ChainCacheRules) (s : CachePool) (request : ProxyRequest)
    (calls : List JsonRpcCall) (log : List CacheOp) : Except String ProxyResponse → Prop
  | .error _ => True
  | .ok response => NoBadArray serde log ∧
    ((∃ elements, response.body = (Json.arr elements).toVec ∧
      List.Forall₂ (AnsweredIn serde rules s request log) calls elements) ∨
      HandedOn serde log response)

/-- In every run of the proxy of a chain: a batch with distinct ids is answered call by call, or with
an error, or with the node's reply if that is no array; no array that does not answer the calls it
was sent leads to anything but an error; what is stored is a result the node gave with status 200;
and separable requests share a key only if they are the same.

**Proof sketch.** Each request keeps its promise (`handleRequest_meets`) under every interleaving
(`Pool.meets_of_run`), and whatever is read from the cache was written by a request of the pool
(`Pool.accounted_of_run`), which kept its promise when it wrote. -/
theorem transparent_of_run (serde : Serde) (rules : ChainCacheRules)
    {events : List (PoolEvent String (Except String Reply) ProxyRequest)} {s : CachePool}
    (hrun : runEvents (Pool.step (handleRequest serde rules)) Pool.empty events = some s) :
    (∀ job ∈ s.jobs, ∀ calls outcome, job.request.requestType = .jsonRpc (.batch calls) →
      (calls.map JsonRpcCall.id).Nodup → job.task = .done outcome →
        BatchAnswered serde rules s job.request calls job.log outcome) ∧
    (∀ job ∈ s.jobs, ∀ key stored, .wrote key stored ∈ job.log →
      Stored serde rules job.request job.log key stored) ∧
    (∀ a b : Cacheable, a.Separable rules → b.Separable rules → (a.ttl rules).isSome →
      (b.ttl rules).isSome → a.key = b.key → a.Same b) := by
  have hkeeps := Pool.meets_of_run (fun request log op key stored h =>
    Stored.mono (by simp) h) (handleRequest_meets serde rules) hrun
  have haccounted := Pool.accounted_of_run hrun
  refine ⟨?_, fun job hjob => (hkeeps job hjob).2, fun a b ha hb hta htb h =>
    Cacheable.same_of_key_eq ha hb hta htb h⟩
  intro job hjob calls outcome htype hids hdone
  have hmeets := (hkeeps job hjob).1
  rw [hdone] at hmeets
  cases outcome with
  | error e => trivial
  | ok response =>
    obtain ⟨hgood, hanswer⟩ := hmeets calls htype hids response rfl
    refine ⟨hgood, hanswer.imp_left ?_⟩
    rintro ⟨elements, hbody, hforall⟩
    refine ⟨elements, hbody, hforall.imp fun call x hx => ?_⟩
    refine hx.imp_left ?_
    rintro ⟨found, ⟨cached, value, hread, hvalue, rfl⟩, rfl⟩
    obtain ⟨job', hjob', hwrote⟩ := haccounted.reads job hjob _ _ hread
    exact ⟨job', hjob', cached, value, (hkeeps job' hjob').2 _ _ hwrote, hvalue, rfl⟩

/-! ## Two batches -/

/-- A call of a method. -/
def sampleCall (method : String) (id : UInt64) : JsonRpcCall :=
  { jsonrpc := "2.0", method := method, params := .null, id := id }

/-- The node's answer to a call. -/
def sampleAnswer (id : UInt64) : Json :=
  .obj [("jsonrpc", .str "2.0"), ("result", .str "0x1"), ("id", .num (.posInt id))]

/-- A parser that knows some texts. -/
def sampleSerde : Serde where
  parse body :=
    let known := [.str "0x1", sampleAnswer 7, .arr [sampleAnswer 7],
      .arr [sampleAnswer 3, sampleAnswer 1]]
    match known.find? (·.toVec = body) with
    | some value => .ok value
    | none => .error "expected value"

/-- Calls of this method are cached. -/
def sampleRules : ChainCacheRules where
  callTtl _ := none
  rpcTtl method := if method = "eth_chainId" then some 3600000 else none
  requestTtl _ _ _ := none

/-- A batch. -/
def sampleRequest (calls : List JsonRpcCall) : ProxyRequest :=
  { host := "example.com", pathWithQuery := "/", requestType := .jsonRpc (.batch calls) }

/-- An answer of the node. -/
def sampleReply (body : Json) : Except String Reply :=
  .ok { status := 200, contentType := none, body := body.toVec }

/-- A batch of one call arrives, finds nothing in the cache, and the node answers. -/
def sampleEvents (body : Json) : List (PoolEvent String (Except String Reply) ProxyRequest) :=
  [.start (sampleRequest [sampleCall "eth_chainId" 7]), .advance 0 none,
    .advance 0 (some (sampleReply body))]

/-- A batch of three calls, of which the second is in the cache. -/
def sampleBatch : List JsonRpcCall :=
  [sampleCall "eth_blockNumber" 1, sampleCall "eth_chainId" 2, sampleCall "eth_gasPrice" 3]

/-- The answer to the first batch is stored, and the node answers the rest of the second one in
another order. -/
def sampleRun : List (PoolEvent String (Except String Reply) ProxyRequest) :=
  sampleEvents (.arr [sampleAnswer 7]) ++ [.advance 0 none, .start (sampleRequest sampleBatch),
    .advance 1 none, .advance 1 (some (sampleReply (.arr [sampleAnswer 3, sampleAnswer 1])))]

/-- Each call has its own answer, in the order of the batch. -/
theorem transparent_of_run_sample :
    ∃ s : CachePool, runEvents (Pool.step (handleRequest sampleSerde sampleRules)) Pool.empty
      sampleRun = some s ∧
      (∃ job ∈ s.jobs, ∃ response, job.task = .done (.ok response) ∧
        response.body = (Json.arr [sampleAnswer 1, sampleAnswer 2, sampleAnswer 3]).toVec) ∧
      (∀ job ∈ s.jobs, ∀ calls outcome, job.request.requestType = .jsonRpc (.batch calls) →
        (calls.map JsonRpcCall.id).Nodup → job.task = .done outcome →
          BatchAnswered sampleSerde sampleRules s job.request calls job.log outcome) := by
  obtain ⟨s, hs, hdone⟩ : ∃ s : CachePool,
      runEvents (Pool.step (handleRequest sampleSerde sampleRules)) Pool.empty sampleRun = some s ∧
      ∃ job ∈ s.jobs, ∃ response, job.task = .done (.ok response) ∧
        response.body = (Json.arr [sampleAnswer 1, sampleAnswer 2, sampleAnswer 3]).toVec :=
    ⟨_, rfl, _, .tail _ (.head _), _, rfl, rfl⟩
  exact ⟨s, hs, hdone, (transparent_of_run sampleSerde sampleRules hs).1⟩

/-- **A reply of the node that is no array is handed on**: the client of a batch gets an object, with
status 200, that has no element for the call. -/
theorem exists_batch_without_elements :
    ∃ (s : CachePool) (job : _) (response : ProxyResponse),
      runEvents (Pool.step (handleRequest sampleSerde sampleRules)) Pool.empty
        (sampleEvents (sampleAnswer 7)) = some s ∧ job ∈ s.jobs ∧
      job.request.requestType = .jsonRpc (.batch [sampleCall "eth_chainId" 7]) ∧
      ([sampleCall "eth_chainId" 7].map JsonRpcCall.id).Nodup ∧ job.task = .done (.ok response) ∧
      response.status = 200 ∧ ∀ elements, response.body ≠ (Json.arr elements).toVec := by
  refine ⟨_, _, _, rfl, List.mem_singleton_self _, rfl, by simp, rfl, rfl, fun elements h => ?_⟩
  exact Json.toVec_arr_ne_obj _ _ h.symm

end GemCore.Dynode

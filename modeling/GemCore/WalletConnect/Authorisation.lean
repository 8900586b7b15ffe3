import GemCore.WalletConnect.Service

/-!
# What a WalletConnect request may ask

One request on its own, whatever it is answered. The signer is called after the connection of the
topic has been read twice: the first time to check the origin and to read what is asked for, the
second time to check the chain, to pick the account and to compare the sender. What has been read
in the meantime is in the record of the dialogue, so the judgement is on the tree of
`processRequest` alone.

## Main definitions

* `Authorised` — what the record says when the signer is called.
* `Permitted` — when a call may be made.
* `Replied` — how a request may end.

## Main results

* `processRequest_abides` — every request keeps to these.
-/

namespace GemCore.WalletConnect

open Lib (Dialogue)
open WalletService (Account Wallet)

variable {T : Carrier}

/-- What a request has asked and heard. -/
abbrev Heard (T : Carrier) : Type := Dialogue.Record (Call T) (Answer T)

/-- The calls of the signer. -/
def Call.signs : Call T → Bool
  | .signMessage _ => true
  | .signTransaction _ => true
  | _ => false

/-- The methods that ask for a signature. -/
def WalletConnectAction.signs : WalletConnectAction T → Bool
  | .signMessage .. => true
  | .signTransaction .. => true
  | .signAllTransactions .. => true
  | .sendTransaction .. => true
  | _ => false

/-- The one transaction of a method, and what is to be done with it. -/
def WalletConnectAction.transaction :
    WalletConnectAction T → Option (Chain × T.WalletConnectTransactionType × String × TransactionAction)
  | .signTransaction chain type data => some (chain, type, data, .sign)
  | .signAllTransactions chain type [data] => some (chain, type, data, .sign)
  | .sendTransaction chain type data => some (chain, type, data, .send)
  | _ => none

/-- The connection of a topic has been read. -/
def HasRead (heard : Heard T) (topic : String) (connection : WalletConnection) : Prop :=
  ⟨.getConnection topic, .ok (some connection)⟩ ∈ heard

/-- The signer has given a signature. -/
def Signed (heard : Heard T) : Prop :=
  ∃ signature, (∃ request, ⟨.signMessage request, .ok signature⟩ ∈ heard) ∨
    ∃ request, ⟨.signTransaction request, .ok signature⟩ ∈ heard

section Lib

variable (lib : WalletConnectLib T) (request : SessionRequest)

/-- The origin of the request has passed against the connection read first, and the request was
read as `action`. -/
def ReadAs (heard : Heard T) (action : WalletConnectAction T) : Prop :=
  ∃ connection chainId,
    heard.head? = some ⟨.getConnection request.topic, .ok (some connection)⟩ ∧
    isOriginRejected (validateOrigin lib.host connection.session.metadata.url request.origin
      request.validation) = false ∧
    request.chainId = some chainId ∧
    lib.parseRequest request.topic request.method request.params chainId
      connection.session.metadata.url = .ok action

/-- The session and the wallet are those of a connection that was read for the topic, the chain is
one of that session, and the account is one of that wallet on the chain. -/
structure Admitted (heard : Heard T) (sessionId : String) (chain : Chain) (wallet : Wallet)
    (account : Account) (session : WalletConnectionSession) : Prop where
  topic : sessionId = request.topic
  read : HasRead heard request.topic { session, wallet }
  inSession : chain ∈ session.chains
  inWallet : account ∈ wallet.accounts
  onChain : account.chain = chain

/-- What the record says when the signer is called. -/
def Authorised (heard : Heard T) : Call T → Prop
  | .signMessage m =>
    Admitted request heard m.sessionId m.chain m.wallet m.account m.session ∧
    ∃ signType data, ReadAs lib request heard (.signMessage m.chain signType data) ∧
      m.message = lib.decodeSignMessage m.chain signType data
  | .signTransaction t =>
    Admitted request heard t.sessionId t.chain t.wallet t.account t.session ∧
    ∃ action type data transaction, ReadAs lib request heard action ∧
      action.transaction = some (t.chain, type, data, t.action) ∧
      lib.decodeSendTransaction type data = .ok transaction ∧
      lib.transferData t.chain t.session.metadata transaction t.action = .ok t.transfer ∧
      ∀ evm kind, transaction = .ethereum evm kind →
        eqIgnoreAsciiCase evm.sender t.account.address = true
  | _ => True

/-- When a call may be made: only by a request that was not seen before, at most three calls after
the first, and the signer only when authorised and not called before. -/
structure Permitted (fresh : Bool) (heard : Heard T) (call : Call T) : Prop where
  fresh : fresh = true
  few : heard.length < 4
  signer : call.signs = true →
    Authorised lib request heard call ∧ ∀ entry ∈ heard, entry.1.signs = false

/-- How a request may end: a repetition without a reply, and any other one with a reply, which is a
rejection if a signature was asked for and none was given. -/
def Replied (fresh : Bool) (heard : Heard T) (outcome : WalletConnectOutcome T) : Prop :=
  if fresh then
    outcome.response.isSome = true ∧
    ((∀ action, ReadAs lib request heard action → action.signs = true) → ¬ Signed heard →
      ∃ failure, outcome = .rejected failure)
  else
    outcome = .ignored

end Lib

variable {lib : WalletConnectLib T} {request : SessionRequest} {action : WalletConnectAction T}
  {heard : Heard T} {n : ℕ}

/-- The request was read as `action`, the signer has not been called, and at most `n` calls have
been made. -/
structure Reading (lib : WalletConnectLib T) (request : SessionRequest)
    (action : WalletConnectAction T) (n : ℕ) (heard : Heard T) : Prop where
  readAs : ReadAs lib request heard action
  quiet : ∀ entry ∈ heard, entry.1.signs = false
  few : heard.length ≤ n

lemma ReadAs.append (h : ReadAs lib request heard action) (more : Heard T) :
    ReadAs lib request (heard ++ more) action := by
  obtain ⟨connection, chainId, hhead, hrest⟩ := h
  refine ⟨connection, chainId, ?_, hrest⟩
  rw [List.head?_append, hhead]
  rfl

/-- Calls of others than the signer. -/
lemma Reading.append (h : Reading lib request action n heard)
    (entry : (call : Call T) × Answer T call) (hentry : entry.1.signs = false) :
    Reading lib request action (n + 1) (heard ++ [entry]) := by
  refine ⟨h.readAs.append _, fun e he => ?_, ?_⟩
  · rcases List.mem_append.mp he with he | he
    · exact h.quiet e he
    · rw [List.mem_singleton.mp he]
      exact hentry
  · simpa using h.few

lemma Reading.permitted (h : Reading lib request action n heard) (hn : n < 4) {call : Call T}
    (hcall : call.signs = false) : Permitted lib request true heard call :=
  ⟨rfl, h.few.trans_lt hn, fun hsigns => absurd (hcall.symm.trans hsigns) (by simp)⟩

/-- `session_account` gives an account of the wallet on a chain of the session. -/
theorem sessionAccount_eq_ok {connection : WalletConnection} {chain : Chain} {account : Account}
    (h : sessionAccount connection chain = .ok account) :
    chain ∈ connection.session.chains ∧ account ∈ connection.wallet.accounts ∧
      account.chain = chain := by
  obtain ⟨_, hchain, h⟩ := Lib.bind_eq_ok_iff.mp h
  have hmem : chain ∈ connection.session.chains := by
    by_contra hnot
    simp [validateSessionChain, hnot] at hchain
  split at h
  case h_1 found hfind =>
    cases h
    exact ⟨hmem, List.mem_of_find?_eq_some hfind, by simpa using List.find?_some hfind⟩
  case h_2 => cases h

/-- `validate_transaction_sender` lets only the account itself send on an Ethereum chain. -/
theorem validateTransactionSender_eq_ok {transaction : WalletConnectTransaction T}
    {account : Account} (h : validateTransactionSender transaction account = .ok ())
    {evm : WCEthereumTransactionData} {kind : T.EvmTransactionKind}
    (htx : transaction = .ethereum evm kind) :
    eqIgnoreAsciiCase evm.sender account.address = true := by
  subst htx
  by_contra hne
  simp [validateTransactionSender, hne] at h

/-! ## The parts of a request -/

/-- `connection` makes one call, and returns what it has read. -/
lemma connection_abides {ok : Heard T → Call T → Prop} {topic : String}
    {post : Heard T → Except GemServiceError WalletConnection → Prop}
    (hok : ok heard (.getConnection topic))
    (hread : ∀ c, post (heard ++ [⟨.getConnection topic, .ok (some c)⟩]) (.ok c))
    (herror : ∀ answer e, post (heard ++ [⟨.getConnection topic, answer⟩]) (.error e)) :
    (connection topic : TryService T WalletConnection).run.Abides ok post heard := by
  refine ⟨hok, fun answer => ?_⟩
  match answer with
  | .error e => exact herror _ e
  | .ok none => exact herror _ _
  | .ok (some c) => exact hread c

/-- A pure part makes no call. -/
lemma ofExcept_abides {α : Type} {ok : Heard T → Call T → Prop} (heard : Heard T)
    (x : Except GemServiceError α) :
    (Dialogue.ofExcept x : TryService T α).run.Abides ok
      (fun heard' r => heard' = heard ∧ r = x) heard :=
  ⟨rfl, rfl⟩

/-- `connection_account` reads the connection once more, and picks its account. -/
theorem connectionAccount_abides (h : Reading lib request action n heard) (hn : n < 4)
    (chain : Chain) :
    (connectionAccount request.topic chain : TryService T _).run.Abides
      (Permitted lib request true)
      (fun heard' r => Reading lib request action (n + 1) heard' ∧ ∀ c account,
        r = .ok (c, account) → HasRead heard' request.topic c ∧ sessionAccount c chain = .ok account)
      heard := by
  have hconnection : (connection request.topic : TryService T _).run.Abides
      (Permitted lib request true) (fun heard' r => Reading lib request action (n + 1) heard' ∧
        ∀ c, r = .ok c → HasRead heard' request.topic c) heard := by
    refine connection_abides (h.permitted hn rfl) (fun c => ⟨h.append _ rfl, fun c' hc => ?_⟩)
      fun answer e => ⟨h.append _ rfl, fun c hc => by cases hc⟩
    cases hc
    exact List.mem_append_right _ (List.mem_singleton_self _)
  refine hconnection.tryBind ?_ ?_
  · exact fun heard' e hpost => ⟨hpost.1, fun c account hr => by cases hr⟩
  · intro heard' c hpost
    refine Dialogue.Abides.tryBind (ofExcept_abides heard' _) ?_ ?_
    · rintro _ e ⟨rfl, -⟩
      exact ⟨hpost.1, fun c account hr => by cases hr⟩
    · rintro _ account ⟨rfl, haccount⟩
      refine ⟨hpost.1, fun c' account' hr => ?_⟩
      cases hr
      exact ⟨hpost.2 c rfl, haccount.symm⟩

/-- A result of the signer is a signature. -/
def GivenBySigner {α : Type} (heard : Heard T) (r : Except GemServiceError α) : Prop :=
  ∀ a, r = .ok a → Signed heard

lemma givenBySigner_error {α : Type} (heard : Heard T) (e : GemServiceError) :
    GivenBySigner heard (.error e : Except GemServiceError α) :=
  fun a h => by cases h

/-- An account and a connection that were read are what `Admitted` asks for. -/
theorem admitted_of_read {c : WalletConnection} {chain : Chain} {account : Account}
    (hread : HasRead heard request.topic c) (haccount : sessionAccount c chain = .ok account) :
    Admitted request heard request.topic chain c.wallet account c.session := by
  obtain ⟨hchain, hmem, hon⟩ := sessionAccount_eq_ok haccount
  exact ⟨rfl, hread, hchain, hmem, hon⟩

/-- What has been read stays so. -/
lemma Admitted.append {sessionId : String} {chain : Chain} {wallet : Wallet} {account : Account}
    {session : WalletConnectionSession}
    (h : Admitted request heard sessionId chain wallet account session) (more : Heard T) :
    Admitted request (heard ++ more) sessionId chain wallet account session :=
  { h with read := List.mem_append_left _ h.read }

/-- The signing of a message. -/
lemma signMessage_abides {chain : Chain} {signType : T.SignDigestType} {data domain : String}
    (h : Reading lib request (.signMessage chain signType data) 1 heard) :
    (signMessage lib request.topic chain signType data domain).run.Abides
      (Permitted lib request true) GivenBySigner heard := by
  refine (connectionAccount_abides h (by decide) chain).tryBind
    (fun heard' e _ => givenBySigner_error heard' e) ?_
  rintro heard₁ ⟨c, account⟩ ⟨h₁, hc⟩
  obtain ⟨hread, haccount⟩ := hc c account rfl
  refine ⟨h₁.permitted (by decide) rfl, fun simulated => ?_⟩
  have h₂ := h₁.append ⟨.simulateSignMessage chain signType data domain, simulated⟩ rfl
  match simulated with
  | .error e => exact givenBySigner_error _ e
  | .ok simulation =>
    refine ⟨⟨rfl, by have := h₂.few; omega, fun _ => ⟨⟨?_, ?_⟩, h₂.quiet⟩⟩, fun signed => ?_⟩
    · exact (admitted_of_read hread haccount).append _
    · exact ⟨signType, data, h₂.readAs, rfl⟩
    · intro signature hsigned
      exact ⟨signature, .inl ⟨_, List.mem_append_right _ (List.mem_singleton.mpr (by rw [← hsigned]))⟩⟩

/-- The signing of a transaction. -/
lemma signTransaction_abides {chain : Chain} {type : T.WalletConnectTransactionType}
    {data : String} {act : TransactionAction} (h : Reading lib request action 1 heard)
    (haction : action.transaction = some (chain, type, data, act)) :
    (signTransaction lib request.topic chain type data act).run.Abides
      (Permitted lib request true) GivenBySigner heard := by
  refine (connectionAccount_abides h (by decide) chain).tryBind
    (fun heard' e _ => givenBySigner_error heard' e) ?_
  rintro heard₁ ⟨c, account⟩ ⟨h₁, hc⟩
  obtain ⟨hread, haccount⟩ := hc c account rfl
  refine (ofExcept_abides heard₁ _).tryBind (fun heard' e _ => givenBySigner_error heard' e) ?_
  rintro _ transaction ⟨rfl, hdecode⟩
  refine (ofExcept_abides _ _).tryBind (fun heard' e _ => givenBySigner_error heard' e) ?_
  rintro heard₁ _ ⟨rfl, hsender⟩
  refine ⟨h₁.permitted (by decide) rfl, fun simulated => ?_⟩
  have h₂ := h₁.append ⟨.simulateSendTransaction chain type data, simulated⟩ rfl
  match simulated with
  | .error e => exact givenBySigner_error _ e
  | .ok simulation =>
    refine (ofExcept_abides _ _).tryBind (fun heard' e _ => givenBySigner_error heard' e) ?_
    rintro _ transfer ⟨rfl, htransfer⟩
    refine ⟨⟨rfl, by have := h₂.few; omega, fun _ => ⟨⟨?_, ?_⟩, h₂.quiet⟩⟩, fun signed => ?_⟩
    · exact (admitted_of_read hread haccount).append _
    · exact ⟨action, type, data, transaction, h₂.readAs, haction,
        Lib.mapError_eq_ok_iff.mp hdecode.symm, htransfer.symm,
        fun evm kind htx => validateTransactionSender_eq_ok hsender.symm htx⟩
    · intro signature hsigned
      exact ⟨signature, .inr ⟨_, List.mem_append_right _ (List.mem_singleton.mpr (by rw [← hsigned]))⟩⟩

/-- A response that is no rejection needs a signature, or a method that does not ask for one. -/
def Earned {α : Type} (lib : WalletConnectLib T) (request : SessionRequest) (heard : Heard T)
    (r : Except GemServiceError α) : Prop :=
  ∀ a, r = .ok a → Signed heard ∨ ∃ action, ReadAs lib request heard action ∧ action.signs = false

lemma earned_error {α : Type} (heard : Heard T) (e : GemServiceError) :
    Earned lib request heard (.error e : Except GemServiceError α) :=
  fun a h => by cases h

/-- The answer made of a signature. -/
lemma earned_of_signer {α β : Type} {x : TryService T α} {f : α → β}
    (h : x.run.Abides (Permitted lib request true) GivenBySigner heard) :
    (do let a ← x; pure (f a) : TryService T β).run.Abides (Permitted lib request true)
      (Earned lib request) heard :=
  h.tryBind (fun heard' e _ => earned_error heard' e) fun _ a hsigned _ _ => .inl (hsigned a rfl)

/-- The answer to a method that asks for no signature. -/
lemma earned_pure (h : ReadAs lib request heard action) (haction : action.signs = false)
    (response : Response T) :
    (pure response : TryService T (Response T)).run.Abides (Permitted lib request true)
      (Earned lib request) heard :=
  fun _ _ => .inr ⟨action, h, haction⟩

/-- `get_accounts` does not call the signer. -/
lemma getAccounts_abides (h : Reading lib request action 1 heard) (chain : Chain) :
    (getAccounts request.topic chain : TryService T _).run.Abides (Permitted lib request true)
      (fun heard' _ => ReadAs lib request heard' action) heard := by
  have hconnection : (connection request.topic : TryService T _).run.Abides
      (Permitted lib request true) (fun heard' _ => ReadAs lib request heard' action) heard :=
    connection_abides (h.permitted (by decide) rfl) (fun c => h.readAs.append _)
      fun answer e => h.readAs.append _
  refine hconnection.tryBind (fun _ _ hreadAs => hreadAs) fun heard' c hreadAs => ?_
  refine (ofExcept_abides heard' _).tryBind ?_ ?_
  · rintro _ e ⟨rfl, -⟩
    exact hreadAs
  · rintro _ _ ⟨rfl, -⟩
    exact hreadAs

/-- The branches of `handle_request`. -/
lemma handleAction_abides (h : Reading lib request action 1 heard) (domain : String) :
    (handleAction lib request.topic domain action).run.Abides (Permitted lib request true)
      (Earned lib request) heard := by
  match action with
  | .signMessage chain signType data => exact earned_of_signer (signMessage_abides h)
  | .signTransaction chain type data => exact earned_of_signer (signTransaction_abides h rfl)
  | .sendTransaction chain type data => exact earned_of_signer (signTransaction_abides h rfl)
  | .signAllTransactions chain type [data] =>
    exact earned_of_signer (signTransaction_abides h rfl)
  | .signAllTransactions chain type [] => exact earned_error heard _
  | .signAllTransactions chain type (_ :: _ :: _) => exact earned_error heard _
  | .getAccounts chain =>
    refine (getAccounts_abides h chain).tryBind (fun heard' e _ => earned_error heard' e) ?_
    exact fun heard' accounts hreadAs => earned_pure hreadAs rfl _
  | .chainOperation .addChain => exact earned_pure h.readAs rfl _
  | .chainOperation (.switchChain _) => exact earned_pure h.readAs rfl _
  | .chainOperation .getChainId => exact earned_pure h.readAs rfl _
  | .unsupported _ => exact earned_pure h.readAs rfl _

/-- `outcomeOf` gives a reply, and a rejection for every error. -/
lemma replied_outcomeOf {r : Except GemServiceError (Response T)}
    (h : Earned lib request heard r) : Replied lib request true heard (outcomeOf r) := by
  match r with
  | .ok response =>
    refine ⟨rfl, fun hsigns hnone => ?_⟩
    rcases h response rfl with hsigned | ⟨action, hreadAs, haction⟩
    · exact absurd hsigned hnone
    · exact absurd ((hsigns action hreadAs).symm.trans haction) (by simp)
  | .error e => cases e <;> exact ⟨rfl, fun _ _ => ⟨_, rfl⟩⟩

lemma replied_rejected (failure : Option Failure) :
    Replied lib request true heard (.rejected failure) :=
  ⟨rfl, fun _ _ => ⟨failure, rfl⟩⟩

/-- `process_request` after the connection has been read. -/
lemma processConnected_abides {c : WalletConnection}
    (hhead : heard.head? = some ⟨.getConnection request.topic, .ok (some c)⟩)
    (hquiet : ∀ entry ∈ heard, entry.1.signs = false) (hlen : heard.length ≤ 1) :
    (processConnected lib request c).Abides (Permitted lib request true)
      (Replied lib request true) heard := by
  by_cases horigin : isOriginRejected (validateOrigin lib.host c.session.metadata.url
      request.origin request.validation) = true
  · rw [processConnected, if_pos horigin]
    exact replied_rejected _
  · rw [processConnected, if_neg horigin]
    match hchain : request.chainId with
    | none => exact replied_rejected none
    | some chainId =>
      refine Dialogue.Abides.bind ?_ fun heard' r hearned => replied_outcomeOf hearned
      refine (ofExcept_abides heard _).tryBind (fun heard' e _ => earned_error heard' e) ?_
      rintro heard action ⟨rfl, hparse⟩
      refine handleAction_abides ⟨⟨c, chainId, hhead, ?_, hchain, ?_⟩, hquiet, hlen⟩ _
      · simpa using horigin
      · exact Lib.mapError_eq_ok_iff.mp hparse.symm

/-- **Every request keeps to its rules**, whatever it is answered.

**Proof sketch.** The record is followed through the branches: it starts with the connection, the
origin is checked against that, and no branch calls the signer before the second read, nor twice. -/
theorem processRequest_abides (lib : WalletConnectLib T) (request : SessionRequest) (fresh : Bool) :
    (processRequest lib request fresh).Abides (Permitted lib request fresh)
      (Replied lib request fresh) [] := by
  cases fresh with
  | false => exact rfl
  | true =>
    have hconnection : (connection request.topic : TryService T _).run.Abides
        (Permitted lib request true)
        (fun heard r => heard.length ≤ 1 ∧ (∀ entry ∈ heard, entry.1.signs = false) ∧
          ∀ c, r = .ok c →
            heard.head? = some ⟨.getConnection request.topic, .ok (some c)⟩) [] := by
      refine connection_abides ⟨rfl, by simp, fun h => by cases h⟩ (fun c => ?_) fun answer e => ?_
      · refine ⟨le_rfl, fun entry hentry => ?_, fun c' hc => by cases hc; rfl⟩
        rw [List.mem_singleton.mp hentry]
        rfl
      · refine ⟨le_rfl, fun entry hentry => ?_, fun c' hc => by cases hc⟩
        rw [List.mem_singleton.mp hentry]
        rfl
    refine hconnection.bind fun heard r ⟨hlen, hquiet, hhead⟩ => ?_
    match r with
    | .error e => exact replied_rejected none
    | .ok c =>
      exact processConnected_abides (hhead c rfl) hquiet hlen

end GemCore.WalletConnect

import GemCore.Lib.Dialogue
import GemCore.WalletService.Registry

/-!
# WalletConnect requests

`process_request` of `gemstone/src/services/wallet_connect/mod.rs` with the rules it uses. A
request of an application is answered once: it is checked against the messages seen before, the
connection is read from the store, the origin is verified against the address of the application,
and a signing method then reads the connection again, picks the account, simulates, and asks the
signer. Every `await` of the source is a question of the dialogue here.

Reading a request, decoding what it carries and encoding the answers is left to `WalletConnectLib`.

## Main definitions

* `recordSeenMessage` — the bounded list of messages.
* `sessionAccount`, `validateTransactionSender`, `validateOrigin` — the checks.
* `processRequest` — the whole of it.
-/

namespace GemCore.WalletConnect

open Lib (Dialogue)
open WalletService (Account Wallet)

/-! ## Data -/

/-- `WalletConnectionState`. -/
inductive WalletConnectionState where
  | started
  | active
  | expired

/-- `WalletConnectionVerificationStatus`. -/
inductive WalletConnectionVerificationStatus where
  | verified
  | unknown
  | invalid
  | malicious

/-- `ApplicationMetadata`, without the source of it. -/
structure ApplicationMetadata where
  name : String
  description : String
  url : String
  icon : String

/-- `WalletConnectionSession`, times in seconds. -/
structure WalletConnectionSession where
  id : String
  sessionId : String
  state : WalletConnectionState
  chains : List Chain
  createdAt : ℤ
  expireAt : ℤ
  metadata : ApplicationMetadata

/-- `WalletConnection`. -/
structure WalletConnection where
  session : WalletConnectionSession
  wallet : Wallet

/-- What the service hands on without looking into it. -/
structure Carrier where
  SignDigestType : Type
  WalletConnectTransactionType : Type
  EvmTransactionKind : Type
  /-- The transactions that are not of an Ethereum chain. -/
  EncodedTransaction : Type
  SimulationResult : Type
  SignMessage : Type
  GemTransferData : Type
  WalletConnectResponseType : Type

/-- `GemWalletConnectSessionRequest`. -/
structure SessionRequest where
  topic : String
  requestId : String
  method : String
  params : String
  chainId : Option String
  origin : Option String
  validation : WalletConnectionVerificationStatus

/-- `WCEthereumTransactionData`. -/
structure WCEthereumTransactionData where
  chainId : Option ℕ
  sender : String
  recipient : String
  value : Option String
  gas : Option String
  gasLimit : Option String
  gasPrice : Option String
  maxFeePerGas : Option String
  maxPriorityFeePerGas : Option String
  nonce : Option String
  data : Option String

/-- `GemWalletConnectTransactionAction`. -/
inductive TransactionAction where
  | sign
  | send

/-- `WalletConnectChainOperation`. -/
inductive ChainOperation where
  | addChain
  | switchChain (chain : Chain)
  | getChainId

/-- `GemWalletConnectRpcError`. -/
structure RpcError where
  code : ℤ
  message : String

/-- `GemWalletConnectFailure`. -/
inductive Failure where
  | maliciousOrigin
  | failed (message : String)

section Types

variable (T : Carrier)

/-- `WalletConnectTransaction`. -/
inductive WalletConnectTransaction where
  | ethereum (data : WCEthereumTransactionData) (kind : T.EvmTransactionKind)
  | solana (data : T.EncodedTransaction)
  | sui (data : T.EncodedTransaction)
  | ton (data : T.EncodedTransaction)
  | tron (data : T.EncodedTransaction)

/-- `WalletConnectAction`. -/
inductive WalletConnectAction where
  | signMessage (chain : Chain) (signType : T.SignDigestType) (data : String)
  | signTransaction (chain : Chain) (type : T.WalletConnectTransactionType) (data : String)
  | signAllTransactions (chain : Chain) (type : T.WalletConnectTransactionType)
      (transactions : List String)
  | sendTransaction (chain : Chain) (type : T.WalletConnectTransactionType) (data : String)
  | chainOperation (operation : ChainOperation)
  | getAccounts (chain : Chain)
  | unsupported (method : String)

/-- `GemWalletConnectMessageRequest`. -/
structure MessageRequest where
  sessionId : String
  chain : Chain
  wallet : Wallet
  account : Account
  session : WalletConnectionSession
  simulation : T.SimulationResult
  message : T.SignMessage

/-- `GemWalletConnectTransactionRequest`. -/
structure TransactionRequest where
  sessionId : String
  chain : Chain
  wallet : Wallet
  account : Account
  session : WalletConnectionSession
  simulation : T.SimulationResult
  transfer : T.GemTransferData
  action : TransactionAction

/-- `GemWalletConnectResponse`. -/
inductive Response where
  | response (value : T.WalletConnectResponseType)
  | null
  | error (error : RpcError)

/-- `GemWalletConnectOutcome`. -/
structure WalletConnectOutcome where
  response : Option (Response T)
  failure : Option Failure

/-- What the service calls of the WalletConnect crates. A text in an error is the message. -/
structure WalletConnectLib where
  /-- `gem_evm::domain::host`. -/
  host : String → String
  /-- `parse_request`: topic, method, parameters, chain id and domain. -/
  parseRequest : String → String → String → String → String → Except String (WalletConnectAction T)
  /-- `decode_sign_message`. -/
  decodeSignMessage : Chain → T.SignDigestType → String → T.SignMessage
  /-- `decode_send_transaction`. -/
  decodeSendTransaction :
    T.WalletConnectTransactionType → String → Except String (WalletConnectTransaction T)
  /-- `transfer_data`. -/
  transferData : Chain → ApplicationMetadata → WalletConnectTransaction T → TransactionAction →
    Except GemServiceError T.GemTransferData
  /-- `encode_sign_message`. -/
  encodeSignMessage : Chain → String → T.WalletConnectResponseType
  /-- `encode_sign_transaction`. -/
  encodeSignTransaction : Chain → String → T.WalletConnectResponseType
  /-- `encode_sign_all_transactions`. -/
  encodeSignAllTransactions : List String → T.WalletConnectResponseType
  /-- `encode_send_transaction`. -/
  encodeSendTransaction : Chain → String → T.WalletConnectResponseType
  /-- `encode_get_accounts`. -/
  encodeGetAccounts : Chain → List Account → T.WalletConnectResponseType

/-- What the service waits for. -/
inductive Call where
  | getConnection (sessionId : String)
  | simulateSignMessage (chain : Chain) (signType : T.SignDigestType) (data domain : String)
  | simulateSendTransaction (chain : Chain) (type : T.WalletConnectTransactionType) (data : String)
  | signMessage (request : MessageRequest T)
  | signTransaction (request : TransactionRequest T)

/-- The answers. -/
@[reducible] def Answer : Call T → Type
  | .getConnection _ => Except GemServiceError (Option WalletConnection)
  | .simulateSignMessage .. => Except GemServiceError T.SimulationResult
  | .simulateSendTransaction .. => Except GemServiceError T.SimulationResult
  | .signMessage _ => Except GemServiceError String
  | .signTransaction _ => Except GemServiceError String

/-- Programs of the service. -/
abbrev Service (α : Type) : Type := Dialogue (Call T) (Answer T) α

/-- Programs of the service that may fail. -/
abbrev TryService (α : Type) : Type := ExceptT GemServiceError (Dialogue (Call T) (Answer T)) α

end Types

variable {T : Carrier}

/-! ## Rules -/

/-- `SEEN_MESSAGES_LIMIT`. -/
def seenMessagesLimit : ℕ := 512

/-- `request_message_id`. -/
def requestMessageId (topic requestId : String) : String :=
  "request-" ++ topic ++ "-" ++ requestId

/-- `record_seen_message`: whether the message is new, and the list afterwards. -/
def recordSeenMessage (seen : List String) (messageId : String) (limit : ℕ) : Bool × List String :=
  if messageId ∈ seen then
    (false, seen)
  else
    let seen := if seen.length ≥ limit then seen.tail else seen
    (true, seen ++ [messageId])

/-- `validate_session_chain`. -/
def validateSessionChain (session : WalletConnectionSession) (chain : Chain) :
    Except GemServiceError Unit :=
  if chain ∈ session.chains then
    .ok ()
  else
    .error (.invalidInput ("chain " ++ chain.asRef ++ " is not part of the session"))

/-- `session_account`. -/
def sessionAccount (connection : WalletConnection) (chain : Chain) :
    Except GemServiceError Account := do
  validateSessionChain connection.session chain
  match connection.wallet.accounts.find? (·.chain = chain) with
  | some account => .ok account
  | none => .error (.notFound ("wallet has no " ++ chain.asRef ++ " account"))

/-- `str::eq_ignore_ascii_case`. -/
def eqIgnoreAsciiCase (a b : String) : Bool := a.toLower = b.toLower

/-- `validate_transaction_sender`. -/
def validateTransactionSender (transaction : WalletConnectTransaction T) (account : Account) :
    Except GemServiceError Unit :=
  match transaction with
  | .ethereum data _ =>
    if !eqIgnoreAsciiCase data.sender account.address then
      .error (.invalidInput ("transaction sender " ++ data.sender ++ " is not the session account " ++
        account.address))
    else
      .ok ()
  | _ => .ok ()

/-- `user_rejected_error`. -/
def userRejectedError : RpcError := { code := 4001, message := "User rejected the request" }

/-- `method_not_found_error`. -/
def methodNotFoundError : RpcError := { code := -32601, message := "Method not found" }

/-- `is_origin_rejected`. -/
def isOriginRejected : WalletConnectionVerificationStatus → Bool
  | .invalid | .malicious => true
  | .unknown | .verified => false

/-- `WalletConnectVerifier::validate_verified_origin`. -/
def validateVerifiedOrigin (host : String → String) (metadataUrl : String)
    (verifiedOrigin : Option String) : WalletConnectionVerificationStatus :=
  match verifiedOrigin with
  | none => .invalid
  | some origin =>
    if (host metadataUrl).isEmpty || (host origin).isEmpty then
      .invalid
    else if host metadataUrl = host origin then
      .verified
    else
      .invalid

/-- `validate_origin`. -/
def validateOrigin (host : String → String) (metadataUrl : String) (origin : Option String) :
    WalletConnectionVerificationStatus → WalletConnectionVerificationStatus
  | .verified => validateVerifiedOrigin host metadataUrl origin
  | .malicious => .malicious
  | .invalid => .invalid
  | .unknown => .unknown

/-- `GemWalletConnectOutcome::rejected`. -/
def WalletConnectOutcome.rejected (failure : Option Failure) : WalletConnectOutcome T :=
  { response := some (.error userRejectedError), failure }

/-- `GemWalletConnectOutcome::ignored`. -/
def WalletConnectOutcome.ignored : WalletConnectOutcome T := { response := none, failure := none }

/-- The text of an error. -/
def errorText : GemServiceError → String
  | .api msg | .gateway msg | .store msg | .core msg | .platform msg | .invalidInput msg
  | .notFound msg | .unsupported msg => msg
  | .cancelled => "cancelled"

/-! ## The service -/

/-- `GemConnectionStore::get_connection`. -/
def storeGetConnection (sessionId : String) : TryService T (Option WalletConnection) :=
  ExceptT.mk (Dialogue.query (Call.getConnection sessionId))

/-- `GemSimulationService::simulate_sign_message`. -/
def simulateSignMessage (chain : Chain) (signType : T.SignDigestType) (data domain : String) :
    TryService T T.SimulationResult :=
  ExceptT.mk (Dialogue.query (Call.simulateSignMessage chain signType data domain))

/-- `GemSimulationService::simulate_send_transaction`. -/
def simulateSendTransaction (chain : Chain) (type : T.WalletConnectTransactionType)
    (data : String) : TryService T T.SimulationResult :=
  ExceptT.mk (Dialogue.query (Call.simulateSendTransaction chain type data))

/-- `GemWalletConnectSigner::sign_message`. -/
def signerSignMessage (request : MessageRequest T) : TryService T String :=
  ExceptT.mk (Dialogue.query (Call.signMessage request))

/-- `GemWalletConnectSigner::sign_transaction`. -/
def signerSignTransaction (request : TransactionRequest T) : TryService T String :=
  ExceptT.mk (Dialogue.query (Call.signTransaction request))

/-- `connection`. -/
def connection (sessionId : String) : TryService T WalletConnection := do
  match ← storeGetConnection sessionId with
  | some connection => pure connection
  | none => throw (GemServiceError.notFound ("WalletConnect session " ++ sessionId ++ " not found"))

/-- `connection_account`. -/
def connectionAccount (sessionId : String) (chain : Chain) :
    TryService T (WalletConnection × Account) := do
  let connection ← connection sessionId
  let account ← Dialogue.ofExcept (sessionAccount connection chain)
  pure (connection, account)

/-- `get_accounts`. -/
def getAccounts (sessionId : String) (chain : Chain) : TryService T (List Account) := do
  let connection ← connection sessionId
  let _ ← Dialogue.ofExcept (validateSessionChain connection.session chain)
  pure (connection.wallet.accounts.filter (·.chain = chain))

section Lib

variable (lib : WalletConnectLib T)

/-- `sign_transaction`. -/
def signTransaction (sessionId : String) (chain : Chain) (type : T.WalletConnectTransactionType)
    (data : String) (action : TransactionAction) : TryService T String := do
  let (connection, account) ← connectionAccount sessionId chain
  let transaction ← Dialogue.ofExcept ((lib.decodeSendTransaction type data).mapError .core)
  let _ ← Dialogue.ofExcept (validateTransactionSender transaction account)
  let simulation ← simulateSendTransaction chain type data
  let transfer ← Dialogue.ofExcept
    (lib.transferData chain connection.session.metadata transaction action)
  signerSignTransaction
    { sessionId, chain, wallet := connection.wallet, account, session := connection.session,
      simulation, transfer, action }

/-- The branch of `handle_request` for a message. -/
def signMessage (sessionId : String) (chain : Chain) (signType : T.SignDigestType)
    (data domain : String) : TryService T String := do
  let (connection, account) ← connectionAccount sessionId chain
  let simulation ← simulateSignMessage chain signType data domain
  signerSignMessage
    { sessionId, chain, wallet := connection.wallet, account, session := connection.session,
      simulation, message := lib.decodeSignMessage chain signType data }

/-- The branches of `handle_request`. -/
def handleAction (sessionId domain : String) :
    WalletConnectAction T → TryService T (Response T)
  | .signMessage chain signType data => do
    let signature ← signMessage lib sessionId chain signType data domain
    pure (.response (lib.encodeSignMessage chain signature))
  | .signTransaction chain type data => do
    let transactionId ← signTransaction lib sessionId chain type data .sign
    pure (.response (lib.encodeSignTransaction chain transactionId))
  | .signAllTransactions chain type [data] => do
    let signed ← signTransaction lib sessionId chain type data .sign
    pure (.response (lib.encodeSignAllTransactions [signed]))
  | .signAllTransactions _ _ _ =>
    throw (.unsupported "signAllTransactions with multiple transactions is not yet supported")
  | .sendTransaction chain type data => do
    let transactionId ← signTransaction lib sessionId chain type data .send
    pure (.response (lib.encodeSendTransaction chain transactionId))
  | .getAccounts chain => do
    let accounts ← getAccounts sessionId chain
    pure (.response (lib.encodeGetAccounts chain accounts))
  | .chainOperation .addChain => pure .null
  | .chainOperation (.switchChain _) => pure .null
  | .chainOperation .getChainId => pure (.error methodNotFoundError)
  | .unsupported _ => pure (.error methodNotFoundError)

/-- `handle_request`. -/
def handleRequest (topic method params chainId domain : String) : TryService T (Response T) := do
  let action ← Dialogue.ofExcept ((lib.parseRequest topic method params chainId domain).mapError .core)
  handleAction lib topic domain action

/-- What `process_request` makes of the result of `handle_request`. -/
def outcomeOf : Except GemServiceError (Response T) → WalletConnectOutcome T
  | .ok response => { response := some response, failure := none }
  | .error .cancelled => .rejected none
  | .error e => .rejected (some (.failed (errorText e)))

/-- `process_request` after the connection has been read. -/
def processConnected (request : SessionRequest) (connection : WalletConnection) :
    Service T (WalletConnectOutcome T) :=
  let domain := connection.session.metadata.url
  if isOriginRejected (validateOrigin lib.host domain request.origin request.validation) then
    pure (.rejected (some .maliciousOrigin))
  else
    match request.chainId with
    | none => pure (.rejected none)
    | some chainId => do
      let result ← (handleRequest lib request.topic request.method request.params chainId domain).run
      pure (outcomeOf result)

/-- `process_request`, given what `should_process_message` has answered. -/
def processRequest (request : SessionRequest) (fresh : Bool) : Service T (WalletConnectOutcome T) :=
  if !fresh then
    pure .ignored
  else do
    match ← (connection request.topic).run with
    | .ok connection => processConnected lib request connection
    | .error _ => pure (.rejected none)

end Lib

end GemCore.WalletConnect

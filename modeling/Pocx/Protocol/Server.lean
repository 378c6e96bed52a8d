import Pocx.Protocol.Errors

set_option autoImplicit false

namespace Pocx.Protocol

open Json (Value)

/-- What is used of `serde_json`. The parameters that cannot be deserialised and the texts that
cannot be parsed come with the texts of their errors. -/
structure Serde where
  fromStr : String → Except String Value
  responseToString : JsonRpcResponse Value → String
  valuesToString : List Value → String
  miningInfoParamsError : Value → String
  submitNonceParamsError : Value → String
  responseError : String → String

/-- A response is printed and parsed without a change. -/
def Serde.ReadsBack (serde : Serde) (response : JsonRpcResponse Value) : Prop :=
  serde.fromStr (serde.responseToString response) = .ok response.toJson

/-- A handler with a state of its own. -/
structure JsonRpcHandler (σ : Type) where
  getMiningInfo : Option String → StateM σ (Except ProtocolError MiningInfo)
  submitNonce : SubmitNonceParams → Option String →
    StateM σ (Except ProtocolError SubmitNonceResult)

def successResponse (result : Value) (id : JsonRpcId) : JsonRpcResponse Value :=
  .success "2.0" result id

def errorResponse (error : JsonRpcError) (id : JsonRpcId) : JsonRpcResponse Value :=
  .error "2.0" error id

/-- `char::is_ascii_hexdigit` -/
def isAsciiHexdigit (c : Char) : Bool :=
  '0' ≤ c && c ≤ '9' || 'A' ≤ c && c ≤ 'F' || 'a' ≤ c && c ≤ 'f'

def validateSubmitNonceParams (params : SubmitNonceParams) : Except ProtocolError Unit := do
  if params.blockHash.isEmpty then
    throw (.invalidParams "block_hash cannot be empty")
  if !params.blockHash.toList.all isAsciiHexdigit then
    throw (.invalidParams "block_hash must contain only hex characters")
  if params.accountId.utf8ByteSize ≠ 40 then
    throw (.invalidParams "account_id must be exactly 40 hex characters")
  if !params.accountId.toList.all isAsciiHexdigit then
    throw (.invalidParams "account_id must contain only hex characters")
  if params.generationSignature.isEmpty then
    throw (.invalidParams "generation_signature cannot be empty")
  if !params.generationSignature.toList.all isAsciiHexdigit then
    throw (.invalidParams "generation_signature must contain only hex characters")
  if params.seed.isEmpty then
    throw (.invalidParams "seed cannot be empty")

inductive Call
  | getMiningInfo
  | submitNonce (params : SubmitNonceParams)
  | unknown (method : String)

def readId (rawRequest : Value) : JsonRpcId :=
  match rawRequest.get "id" with
  | some (.string text) => .string text
  | some (.posInt n) => .number n
  | _ => .null

section dispatcher

variable {σ : Type} (serde : Serde) (handler : JsonRpcHandler σ) (authToken : Option String)

/-- The parameters of a call, or the error with which `handle_single_request` returns early. -/
def readCall (method : String) (params : Value) : Except ProtocolError Call :=
  if method = methodGetMiningInfo then
    match GetMiningInfoParams.ofJson params with
    | some _ => .ok .getMiningInfo
    | none => .error (.invalidParams (serde.miningInfoParamsError params))
  else if method = methodSubmitNonce then
    match SubmitNonceParams.ofJson params with
    | some submitParams => do
      validateSubmitNonceParams submitParams
      return .submitNonce submitParams
    | none => .error (.invalidParams (serde.submitNonceParamsError params))
  else .ok (.unknown method)

/-- What `handle_single_request` does before it calls the handler. -/
def readRequest (rawRequest : Value) : Except ProtocolError (JsonRpcId × Call) := do
  let jsonrpc := ((rawRequest.get "jsonrpc").bind Value.asStr).getD ""
  if jsonrpc ≠ "2.0" then
    throw (.invalidRequest "Invalid JSON-RPC version")
  match (rawRequest.get "method").bind Value.asStr with
  | none => throw (.invalidRequest "Missing method")
  | some method =>
    let call ← readCall serde method ((rawRequest.get "params").getD .null)
    return (readId rawRequest, call)

/-- The arms of `handle_single_request`, with the id of the request. -/
def perform (id : JsonRpcId) : Call → StateM σ (JsonRpcResponse Value)
  | .getMiningInfo => do
    match ← handler.getMiningInfo authToken with
    | .ok miningInfo => return successResponse miningInfo.toJson id
    | .error err => return errorResponse err.toJsonRpcError id
  | .submitNonce params => do
    match ← handler.submitNonce params authToken with
    | .ok submitResult => return successResponse submitResult.toJson id
    | .error err => return errorResponse err.toJsonRpcError id
  | .unknown method => return errorResponse (methodNotFoundError method) id

def handleSingleRequest (rawRequest : Value) : StateM σ (Except ProtocolError String) :=
  match readRequest serde rawRequest with
  | .error err => return .error err
  | .ok (id, call) => do
    let response ← perform handler authToken id call
    return .ok (serde.responseToString response)

/-- What is pushed to the responses of a batch. -/
def pushed : Except ProtocolError String → List Value
  | .ok responseStr =>
    match serde.fromStr responseStr with
    | .ok responseValue => [responseValue]
    | .error _ => []
  | .error err => [(errorResponse err.toJsonRpcError .null).toJson]

/-- The loop of `handle_batch_request`. -/
def batchResponses : List Value → StateM σ (List Value)
  | [] => return []
  | request :: rest => do
    let response ← handleSingleRequest serde handler authToken request
    return pushed serde response ++ (← batchResponses rest)

def handleBatchRequest (requests : List Value) : StateM σ (Except ProtocolError String) :=
  if requests.isEmpty then return .error (.invalidRequest "Empty batch request")
  else do
    let responses ← batchResponses serde handler authToken requests
    return .ok (serde.valuesToString responses)

def processRequest (requestBody : String) : StateM σ (Except ProtocolError String) :=
  match serde.fromStr requestBody with
  | .error text => return .error (.parseError text)
  | .ok (.array requests) => handleBatchRequest serde handler authToken requests
  | .ok rawRequest => handleSingleRequest serde handler authToken rawRequest

def handleRequest (requestBody : String) : StateM σ String := do
  match ← processRequest serde handler authToken requestBody with
  | .ok response => return response
  | .error err => return serde.responseToString (errorResponse err.toJsonRpcError .null)

/-- The response to a request that is no batch, before it is printed. -/
def respond (rawRequest : Value) : StateM σ (JsonRpcResponse Value) :=
  match readRequest serde rawRequest with
  | .error err => return errorResponse err.toJsonRpcError .null
  | .ok (id, call) => perform handler authToken id call

end dispatcher

def IsArray : Value → Prop
  | .array _ => True
  | _ => False

section dispatcher

variable {σ : Type} {serde : Serde} (handler : JsonRpcHandler σ) (authToken : Option String)
  (state : σ)

theorem processRequest_single {body : String} {request : Value}
    (parsed : serde.fromStr body = .ok request) (single : ¬ IsArray request) :
    processRequest serde handler authToken body =
      handleSingleRequest serde handler authToken request := by
  rw [processRequest, parsed]
  cases request with
  | array items => exact absurd trivial single
  | _ => rfl

/-- A request that is no batch is answered with the text of its response. -/
theorem handleRequest_single {body : String} {request : Value}
    (parsed : serde.fromStr body = .ok request) (single : ¬ IsArray request) :
    (handleRequest serde handler authToken body).run state =
      (serde.responseToString ((respond serde handler authToken request).run state).1,
        ((respond serde handler authToken request).run state).2) := by
  rw [handleRequest, processRequest_single handler authToken parsed single, handleSingleRequest,
    respond]
  cases readRequest serde request with
  | error err => rfl
  | ok read => rfl

theorem handleSingleRequest_pushed {request : Value}
    (readsBack : serde.ReadsBack ((respond serde handler authToken request).run state).1) :
    pushed serde ((handleSingleRequest serde handler authToken request).run state).1 =
        [((respond serde handler authToken request).run state).1.toJson] ∧
      ((handleSingleRequest serde handler authToken request).run state).2 =
        ((respond serde handler authToken request).run state).2 := by
  rw [Serde.ReadsBack, respond] at readsBack
  rw [handleSingleRequest, respond]
  cases read : readRequest serde request with
  | error err => exact ⟨rfl, rfl⟩
  | ok call =>
    rw [read] at readsBack
    have printed : ((do
        let response ← perform handler authToken call.1 call.2
        return .ok (serde.responseToString response) :
          StateM σ (Except ProtocolError String)).run state).1 =
        .ok (serde.responseToString ((perform handler authToken call.1 call.2).run state).1) := rfl
    refine ⟨?_, rfl⟩
    dsimp only at readsBack ⊢
    rw [printed, pushed, readsBack]

/-- A turn of the loop pushes the response to its request. -/
theorem batchResponses_cons {request : Value} {rest : List Value}
    (readsBack : serde.ReadsBack ((respond serde handler authToken request).run state).1) :
    (batchResponses serde handler authToken (request :: rest)).run state =
      (((respond serde handler authToken request).run state).1.toJson ::
          ((batchResponses serde handler authToken rest).run
            ((respond serde handler authToken request).run state).2).1,
        ((batchResponses serde handler authToken rest).run
          ((respond serde handler authToken request).run state).2).2) := by
  obtain ⟨response, after⟩ := handleSingleRequest_pushed handler authToken state readsBack
  have turn : (batchResponses serde handler authToken (request :: rest)).run state =
      (pushed serde ((handleSingleRequest serde handler authToken request).run state).1 ++
          ((batchResponses serde handler authToken rest).run
            ((handleSingleRequest serde handler authToken request).run state).2).1,
        ((batchResponses serde handler authToken rest).run
          ((handleSingleRequest serde handler authToken request).run state).2).2) := rfl
  rw [turn, response, after]
  rfl

end dispatcher

/-- Each text is answered alone, in the state that the one before has left. -/
inductive AnsweredAlone {σ : Type} (serde : Serde) (handler : JsonRpcHandler σ)
    (authToken : Option String) : σ → List String → List Value → σ → Prop
  | nil (state : σ) : AnsweredAlone serde handler authToken state [] [] state
  | cons {state after final : σ} {body text : String} {response : Value} {bodies : List String}
      {responses : List Value}
      (alone : (handleRequest serde handler authToken body).run state = (text, after))
      (printed : serde.fromStr text = .ok response)
      (rest : AnsweredAlone serde handler authToken after bodies responses final) :
      AnsweredAlone serde handler authToken state (body :: bodies) (response :: responses) final

section dispatcher

variable {σ : Type} {serde : Serde} (handler : JsonRpcHandler σ) (authToken : Option String)

/-- The loop answers each request as if it had come alone. -/
theorem batchResponses_alone {bodies : List String} {requests : List Value}
    (parsed : List.Forall₂ (fun body request => serde.fromStr body = .ok request) bodies requests)
    (single : ∀ request ∈ requests, ¬ IsArray request)
    (readsBack : ∀ request ∈ requests, ∀ state,
      serde.ReadsBack ((respond serde handler authToken request).run state).1) (state : σ) :
    AnsweredAlone serde handler authToken state bodies
      ((batchResponses serde handler authToken requests).run state).1
      ((batchResponses serde handler authToken requests).run state).2 := by
  induction parsed generalizing state with
  | nil => exact .nil state
  | @cons body request bodies requests first _ ih =>
    rw [List.forall_mem_cons] at single readsBack
    rw [batchResponses_cons handler authToken state (readsBack.1 state)]
    exact .cons (handleRequest_single handler authToken state first single.1) (readsBack.1 state)
      (ih single.2 readsBack.2 _)

theorem handleRequest_batch {body : String} {requests : List Value}
    (parsed : serde.fromStr body = .ok (.array requests)) (nonempty : requests ≠ []) (state : σ) :
    (handleRequest serde handler authToken body).run state =
      (serde.valuesToString ((batchResponses serde handler authToken requests).run state).1,
        ((batchResponses serde handler authToken requests).run state).2) := by
  rw [handleRequest, processRequest, parsed]
  dsimp only
  rw [handleBatchRequest, if_neg (by rwa [List.isEmpty_iff])]
  rfl

end dispatcher

/-- A response to a request has its id and either a result or an error. -/
def Answers (id : JsonRpcId) (response : Value) : Prop :=
  response.get "id" = some id.toJson ∧
    ((response.get "result").isSome = true ↔ (response.get "error").isNone = true)

/-- A call whose parameters can be deserialised and are valid, or of an unknown method. -/
def Accepted (method : String) (params : Value) : Prop :=
  (method = methodGetMiningInfo → (GetMiningInfoParams.ofJson params).isSome = true) ∧
    (method = methodSubmitNonce → ∃ submitParams,
      SubmitNonceParams.ofJson params = some submitParams ∧
        validateSubmitNonceParams submitParams = .ok ())

theorem readCall_ok_iff (serde : Serde) (method : String) (params : Value) :
    (∃ call, readCall serde method params = .ok call) ↔ Accepted method params := by
  have apart : methodSubmitNonce ≠ methodGetMiningInfo := by decide
  rw [readCall, Accepted]
  by_cases mining : method = methodGetMiningInfo
  · subst mining
    rw [if_pos rfl]
    cases decoded : GetMiningInfoParams.ofJson params with
    | none => simp
    | some none => simp [apart.symm]
  rw [if_neg mining]
  by_cases submit : method = methodSubmitNonce
  · subst submit
    rw [if_pos rfl]
    cases decoded : SubmitNonceParams.ofJson params with
    | none => simp
    | some submitParams =>
      cases valid : validateSubmitNonceParams submitParams <;>
        simp [apart, valid, bind, Except.bind, pure, Except.pure]
  rw [if_neg submit]
  simp [mining, submit]

theorem readRequest_eq (serde : Serde) {request : Value} {method : String}
    (version : request.get "jsonrpc" = some (.string "2.0"))
    (named : request.get "method" = some (.string method)) :
    readRequest serde request =
      (readCall serde method ((request.get "params").getD .null)).map (readId request, ·) := by
  have current : ¬ ((some (Value.string "2.0")).bind Value.asStr).getD "" ≠ "2.0" := by
    simp [Value.asStr]
  rw [readRequest, version, named, if_neg current]
  simp only [Option.bind_some, Value.asStr]
  cases readCall serde method ((request.get "params").getD .null) <;> rfl

theorem answers_success (result : Value) (id : JsonRpcId) :
    Answers id (successResponse result id).toJson := by
  simp [Answers, successResponse, JsonRpcResponse.toJson, Value.lookup_cons]

theorem answers_error (error : JsonRpcError) (id : JsonRpcId) :
    Answers id (errorResponse error id).toJson := by
  simp [Answers, errorResponse, JsonRpcResponse.toJson, Value.lookup_cons]

/-- Whatever the handler does, the response has the id of the request. -/
theorem perform_answers {σ : Type} (handler : JsonRpcHandler σ) (authToken : Option String)
    (id : JsonRpcId) (call : Call) (state : σ) :
    Answers id ((perform handler authToken id call).run state).1.toJson := by
  cases call with
  | getMiningInfo =>
    rw [perform, StateT.run_bind]
    rcases (handler.getMiningInfo authToken).run state with ⟨err | miningInfo, after⟩
    · exact answers_error _ id
    · exact answers_success _ id
  | submitNonce params =>
    rw [perform, StateT.run_bind]
    rcases (handler.submitNonce params authToken).run state with ⟨err | submitResult, after⟩
    · exact answers_error _ id
    · exact answers_success _ id
  | unknown method => exact answers_error _ id

/-- A single request is answered under its id exactly when its call is accepted; a batch is
answered request by request. -/
theorem responses_match_requests {σ : Type} (serde : Serde) (handler : JsonRpcHandler σ)
    (authToken : Option String) (state : σ) :
    (∀ body request method id, serde.fromStr body = .ok request →
      request.get "jsonrpc" = some (.string "2.0") → request.get "method" = some (.string method) →
      request.get "id" = some (JsonRpcId.toJson id) → id ≠ .null →
      serde.ReadsBack ((respond serde handler authToken request).run state).1 →
      ((∃ response, serde.fromStr ((handleRequest serde handler authToken body).run state).1 =
          .ok response ∧ Answers id response) ↔
        Accepted method ((request.get "params").getD .null))) ∧
    ∀ body requests bodies, serde.fromStr body = .ok (.array requests) → requests ≠ [] →
      List.Forall₂ (fun body request => serde.fromStr body = .ok request) bodies requests →
      (∀ request ∈ requests, ¬ IsArray request) →
      (∀ request ∈ requests, ∀ state,
        serde.ReadsBack ((respond serde handler authToken request).run state).1) →
      ∃ responses final, (handleRequest serde handler authToken body).run state =
          (serde.valuesToString responses, final) ∧
        AnsweredAlone serde handler authToken state bodies responses final := by
  refine ⟨?_, ?_⟩
  · intro body request method id parsed version named identified present readsBack
    have single : ¬ IsArray request := by
      cases request with
      | array items => cases version
      | _ => exact not_false
    have own : readId request = id := by
      rw [readId, identified]
      cases id with
      | null => exact absurd rfl present
      | _ => rfl
    have read := readRequest_eq serde version named
    rw [own] at read
    rw [handleRequest_single handler authToken state parsed single, readsBack,
      ← readCall_ok_iff serde]
    simp only [Except.ok.injEq, exists_eq_left']
    rw [respond, read]
    cases readCall serde method ((request.get "params").getD .null) with
    | error err =>
      have dropped : ¬ Answers id (errorResponse err.toJsonRpcError .null).toJson := by
        rintro ⟨same, -⟩
        rw [(answers_error err.toJsonRpcError .null).1] at same
        cases id with
        | null => exact present rfl
        | _ => cases same
      exact iff_of_false dropped nofun
    | ok call => exact iff_of_true (perform_answers handler authToken id call state) ⟨call, rfl⟩
  · intro body requests bodies parsed nonempty each single readsBack
    exact ⟨_, _, handleRequest_batch handler authToken parsed nonempty state,
      batchResponses_alone handler authToken each single readsBack state⟩

/-- A `Serde` for some texts and the one response to them. -/
def Serde.ofTexts (texts : List (String × Value)) (response : String) : Serde where
  fromStr text := match texts.lookup text with
    | some value => .ok value
    | none => .error "expected value at line 1 column 1"
  responseToString _ := response
  valuesToString _ := response
  miningInfoParamsError _ := "invalid type: null, expected struct GetMiningInfoParams"
  submitNonceParamsError _ := "invalid type: null, expected struct SubmitNonceParams"
  responseError _ := "data did not match any variant of untagged enum JsonRpcResponse"

def busyHandler : JsonRpcHandler Unit where
  getMiningInfo _ := return .error .rateLimited
  submitNonce _ _ := return .error .rateLimited

def ping : String := "\x7b\"jsonrpc\":\"2.0\",\"method\":\"ping\",\"id\":7\x7d"

def pingRequest : Value :=
  .ofFields [("jsonrpc", .string "2.0"), ("method", .string "ping"), ("id", .posInt 7)]

def pingAnswer : String :=
  "\x7b\"jsonrpc\":\"2.0\",\"error\":\x7b\"code\":-32601,\"message\":\"Method not found\"," ++
    "\"data\":\x7b\"method\":\"ping\"\x7d\x7d,\"id\":7\x7d"

def mining : String :=
  "\x7b\"jsonrpc\":\"2.0\",\"method\":\"get_mining_info\",\"params\":\x7b\x7d,\"id\":8\x7d"

def miningRequest : Value :=
  .ofFields [("jsonrpc", .string "2.0"), ("method", .string methodGetMiningInfo),
    ("params", .ofFields []), ("id", .posInt 8)]

def firstInfo : MiningInfo where
  generationSignature := "00"
  baseTarget := 1
  height := 5
  blockHash := "ab"
  targetQuality := none
  minimumCompressionLevel := none
  targetCompressionLevel := none

def infoHandler : JsonRpcHandler Unit where
  getMiningInfo _ := return .ok firstInfo
  submitNonce _ _ := return .error .rateLimited

def miningAnswer : String :=
  "\x7b\"jsonrpc\":\"2.0\",\"result\":\x7b\"generation_signature\":\"00\",\"base_target\":1," ++
    "\"height\":5,\"block_hash\":\"ab\"\x7d,\"id\":8\x7d"

def pingAndMining : String := "[" ++ ping ++ "," ++ mining ++ "]"

/-- The texts of a ping, a request of the mining info and both in a batch, and of their
responses. -/
def pingSerde : Serde :=
  { Serde.ofTexts
      [(ping, pingRequest), (mining, miningRequest),
        (pingAndMining, .array [pingRequest, miningRequest]),
        (pingAnswer, (errorResponse (methodNotFoundError "ping") (.number 7)).toJson),
        (miningAnswer, (successResponse firstInfo.toJson (.number 8)).toJson)] pingAnswer with
    responseToString := fun
      | .error .. => pingAnswer
      | .success .. => miningAnswer
    valuesToString := fun _ => "[" ++ pingAnswer ++ "," ++ miningAnswer ++ "]" }

theorem pingSerde_fromStr :
    pingSerde.fromStr ping = .ok pingRequest ∧ pingSerde.fromStr mining = .ok miningRequest ∧
      pingSerde.fromStr pingAndMining = .ok (.array [pingRequest, miningRequest]) ∧
      pingSerde.fromStr pingAnswer =
        .ok (errorResponse (methodNotFoundError "ping") (.number 7)).toJson ∧
      pingSerde.fromStr miningAnswer =
        .ok (successResponse firstInfo.toJson (.number 8)).toJson := by
  refine ⟨rfl, rfl, rfl, rfl, rfl⟩

/-- An unknown method, alone and in a batch with one that the handler answers. -/
theorem unknown_method_answered :
    (∃ response, pingSerde.fromStr ((handleRequest pingSerde infoHandler none ping).run ()).1 =
      .ok response ∧ Answers (.number 7) response) ∧
    ∃ responses final, (handleRequest pingSerde infoHandler none pingAndMining).run () =
        (pingSerde.valuesToString responses, final) ∧
      AnsweredAlone pingSerde infoHandler none () [ping, mining] responses final := by
  obtain ⟨single, batch⟩ := responses_match_requests pingSerde infoHandler none ()
  obtain ⟨alone, second, together, answer, secondAnswer⟩ := pingSerde_fromStr
  have readsBack : pingSerde.ReadsBack
      ((respond pingSerde infoHandler none pingRequest).run ()).1 := answer
  have secondReadsBack : pingSerde.ReadsBack
      ((respond pingSerde infoHandler none miningRequest).run ()).1 := secondAnswer
  refine ⟨?_, ?_⟩
  · rw [single ping pingRequest "ping" (.number 7) alone (by simp [pingRequest])
      (by simp [pingRequest, Value.lookup_cons])
      (by simp [pingRequest, Value.lookup_cons, JsonRpcId.toJson])
      (by decide) readsBack]
    exact ⟨fun mining => absurd mining (by decide), fun submit => absurd submit (by decide)⟩
  · apply batch _ [pingRequest, miningRequest] [ping, mining] together (List.cons_ne_nil _ _)
      (.cons alone (.cons second .nil))
    · rw [List.forall_mem_cons, List.forall_mem_singleton]
      exact ⟨not_false, not_false⟩
    · rw [List.forall_mem_cons, List.forall_mem_singleton]
      exact ⟨fun _ => readsBack, fun _ => secondReadsBack⟩

/-- The parameters of a request may be left out in JSON-RPC. -/
def noParams : String :=
  "\x7b\"jsonrpc\":\"2.0\",\"method\":\"get_mining_info\",\"id\":7\x7d"

def noParamsRequest : Value :=
  .ofFields [("jsonrpc", .string "2.0"), ("method", .string methodGetMiningInfo),
    ("id", .posInt 7)]

def noParamsAnswer : String :=
  "\x7b\"jsonrpc\":\"2.0\",\"error\":\x7b\"code\":-32602,\"message\":\"Invalid params\",\"data\":" ++
    "\x7b\"details\":\"invalid type: null, expected struct GetMiningInfoParams\"\x7d\x7d,\"id\":null\x7d"

def noParamsResponse : JsonRpcResponse Value :=
  errorResponse (ProtocolError.invalidParams
    "invalid type: null, expected struct GetMiningInfoParams").toJsonRpcError .null

def noParamsSerde : Serde :=
  .ofTexts [(noParams, noParamsRequest), (noParamsAnswer, noParamsResponse.toJson)] noParamsAnswer

/-- An early return loses the id. -/
theorem missing_params_lose_id :
    noParamsSerde.fromStr noParams = .ok noParamsRequest ∧
      noParamsRequest.get "jsonrpc" = some (.string "2.0") ∧
      noParamsRequest.get "method" = some (.string methodGetMiningInfo) ∧
      noParamsRequest.get "id" = some (JsonRpcId.toJson (.number 7)) ∧
      noParamsSerde.ReadsBack noParamsResponse ∧
      ¬ ∃ response, noParamsSerde.fromStr
          ((handleRequest noParamsSerde busyHandler none noParams).run ()).1 = .ok response ∧
        Answers (.number 7) response := by
  have parsed : noParamsSerde.fromStr noParams = .ok noParamsRequest := rfl
  have version : noParamsRequest.get "jsonrpc" = some (.string "2.0") := by
    simp [noParamsRequest]
  have named : noParamsRequest.get "method" = some (.string methodGetMiningInfo) := by
    simp [noParamsRequest, Value.lookup_cons]
  have identified : noParamsRequest.get "id" = some (JsonRpcId.toJson (.number 7)) := by
    simp [noParamsRequest, Value.lookup_cons, JsonRpcId.toJson]
  have absent : noParamsRequest.get "params" = none := by
    simp [noParamsRequest, Value.lookup_cons]
  have differ : (noParamsAnswer == noParams) = false := by decide +kernel
  have apart : noParamsAnswer ≠ noParams := beq_eq_false_iff_ne.mp differ
  have readsBack : noParamsSerde.ReadsBack noParamsResponse := by
    simp [Serde.ReadsBack, noParamsSerde, Serde.ofTexts, Value.lookup_cons, apart]
  have response : ((respond noParamsSerde busyHandler none noParamsRequest).run ()).1 =
      noParamsResponse := by
    rw [respond, readRequest_eq _ version named, absent]
    rfl
  have answered : noParamsSerde.fromStr
      ((handleRequest noParamsSerde busyHandler none noParams).run ()).1 =
        .ok noParamsResponse.toJson := by
    rw [handleRequest_single busyHandler none () parsed not_false, response]
    dsimp only
    rw [readsBack]
  refine ⟨parsed, version, named, identified, readsBack, ?_⟩
  rintro ⟨response, parsed, same, -⟩
  rw [answered] at parsed
  obtain rfl := Except.ok.inj parsed
  rw [noParamsResponse, (answers_error _ .null).1] at same
  cases same

end Pocx.Protocol

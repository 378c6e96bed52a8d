import Pocx.Protocol.Server

set_option autoImplicit false

namespace Pocx.Protocol

open Json (Value)

/-- The error that `parse_response` makes of the error of a response. -/
def fromJsonRpcError (error : JsonRpcError) : ProtocolError :=
  if error.code = wrongHeight then
    match error.data with
    | some data =>
      match data.get "expected", data.get "submitted" with
      | some expected, some submitted =>
        .wrongHeight (expected.asU64.getD 0) (submitted.asU64.getD 0)
      | _, _ => .invalidSubmission error.message
    | none => .invalidSubmission error.message
  else if error.code = staleSubmission then .staleSubmission
  else if error.code = authRequired then .authRequired
  else if error.code = authInvalid then .authInvalid
  else if error.code = rateLimited then .rateLimited
  else if error.code = notAssigned then .notAssigned error.message
  else if error.code = parseError then .parseError error.message
  else if error.code = invalidRequest then .invalidRequest error.message
  else if error.code = methodNotFound then .methodNotFound error.message
  else if error.code = invalidParams then .invalidParams error.message
  else if error.code = internalError then .internalError error.message
  else if error.code = invalidSubmission then .invalidSubmission error.message
  else .other ("Unknown error code " ++ toString error.code.toInt ++ ": " ++ error.message)

def parseResponse {T : Type} (serde : Serde) (decode : Value → Option T) (responseText : String) :
    Except ProtocolError T :=
  match serde.fromStr responseText with
  | .error text => .error (.jsonError text)
  | .ok value =>
    match JsonRpcResponse.ofJson decode value with
    | none => .error (.jsonError (serde.responseError responseText))
    | some (.success _ result _) => .ok result
    | some (.error _ error _) => .error (fromJsonRpcError error)

/-- What arrives of an error: of a text that is sent as data only the message is read. -/
def ProtocolError.received : ProtocolError → ProtocolError
  | .parseError _ => .parseError "Parse error"
  | .invalidRequest _ => .invalidRequest "Invalid request"
  | .methodNotFound _ => .methodNotFound "Method not found"
  | .invalidParams _ => .invalidParams "Invalid params"
  | .internalError _ => .internalError "Internal error"
  | .invalidSubmission _ => .invalidSubmission "Invalid submission"
  | .networkError _ => .internalError "Network error"
  | .jsonError _ => .parseError "JSON error"
  | .other _ => .internalError "Error"
  | error => error

theorem fromJsonRpcError_toJsonRpcError (error : ProtocolError) :
    fromJsonRpcError error.toJsonRpcError = error.received := by
  cases error with
  | wrongHeight expected submitted =>
    simp [fromJsonRpcError, ProtocolError.toJsonRpcError, ProtocolError.received, Value.lookup_cons,
      Value.asU64]
  | _ => rfl

/-- Every error arrives with the code that it was sent with. -/
theorem ProtocolError.received_errorCode (error : ProtocolError) :
    error.received.errorCode = error.errorCode := by
  cases error <;> rfl

/-- What a handler answers arrives: an error of a variant without a code of its own only by its
code. -/
def Survives {T : Type} (sent received : Except ProtocolError T) : Prop :=
  match sent with
  | .ok result => received = .ok result
  | .error (.networkError err) =>
    ∃ error, received = .error error ∧ error.errorCode = (ProtocolError.networkError err).errorCode
  | .error (.jsonError err) =>
    ∃ error, received = .error error ∧ error.errorCode = (ProtocolError.jsonError err).errorCode
  | .error (.other msg) =>
    ∃ error, received = .error error ∧ error.errorCode = (ProtocolError.other msg).errorCode
  | .error error => received = .error error

/-- The text of an error is the message of its variant, where it is not sent as the message. -/
def PlainText {T : Type} : Except ProtocolError T → Prop
  | .error (.parseError msg) => msg = "Parse error"
  | .error (.invalidRequest msg) => msg = "Invalid request"
  | .error (.methodNotFound method) => method = "Method not found"
  | .error (.invalidParams msg) => msg = "Invalid params"
  | .error (.internalError msg) => msg = "Internal error"
  | .error (.invalidSubmission reason) => reason = "Invalid submission"
  | _ => True

theorem survives_error_iff {T : Type} (error : ProtocolError) :
    Survives (T := T) (.error error) (.error error.received) ↔
      PlainText (.error error : Except ProtocolError T) := by
  cases error <;> simp [Survives, PlainText, ProtocolError.received, ProtocolError.errorCode,
    eq_comm]

section parse

variable {T : Type} {serde : Serde} {text : String} {id : JsonRpcId}

theorem parseResponse_success {decode : Value → Option T} {value : Value} {result : T}
    (parsed : serde.fromStr text = .ok (successResponse value id).toJson)
    (read : decode value = some result) : parseResponse serde decode text = .ok result := by
  rw [parseResponse, parsed]
  dsimp only [successResponse]
  rw [JsonRpcResponse.ofJson_success read]

theorem parseResponse_error (decode : Value → Option T) {error : ProtocolError}
    (parsed : serde.fromStr text = .ok (errorResponse error.toJsonRpcError id).toJson) :
    parseResponse serde decode text = .error error.received := by
  rw [parseResponse, parsed]
  dsimp only [errorResponse]
  rw [JsonRpcResponse.ofJson_error decode _ error.toJsonRpcError_data]
  dsimp only
  rw [fromJsonRpcError_toJsonRpcError]

/-- A response with the answer of a handler. -/
def answerResponse (encode : T → Value) (id : JsonRpcId) :
    Except ProtocolError T → JsonRpcResponse Value
  | .ok result => successResponse (encode result) id
  | .error error => errorResponse error.toJsonRpcError id

theorem survives_iff {encode : T → Value} {decode : Value → Option T}
    (read : ∀ result, decode (encode result) = some result) (answer : Except ProtocolError T)
    (parsed : serde.fromStr text = .ok (answerResponse encode id answer).toJson) :
    Survives answer (parseResponse serde decode text) ↔ PlainText answer := by
  cases answer with
  | ok result =>
    rw [parseResponse_success parsed (read result)]
    exact iff_of_true rfl trivial
  | error error =>
    rw [parseResponse_error decode parsed]
    exact survives_error_iff error

end parse

section dispatcher

variable {σ : Type} {serde : Serde} (handler : JsonRpcHandler σ) (authToken : Option String)
  (state : σ)

theorem perform_getMiningInfo (id : JsonRpcId) :
    ((perform handler authToken id .getMiningInfo).run state).1 =
      answerResponse MiningInfo.toJson id ((handler.getMiningInfo authToken).run state).1 := by
  rw [perform, StateT.run_bind]
  rcases (handler.getMiningInfo authToken).run state with ⟨err | miningInfo, after⟩ <;> rfl

theorem perform_submitNonce (id : JsonRpcId) (params : SubmitNonceParams) :
    ((perform handler authToken id (.submitNonce params)).run state).1 =
      answerResponse SubmitNonceResult.toJson id
        ((handler.submitNonce params authToken).run state).1 := by
  rw [perform, StateT.run_bind]
  rcases (handler.submitNonce params authToken).run state with ⟨err | submitResult, after⟩ <;> rfl

theorem readRequest_single {request : Value} {id : JsonRpcId} {call : Call}
    (accepted : readRequest serde request = .ok (id, call)) : ¬ IsArray request := by
  cases request with
  | array items => cases accepted
  | _ => exact not_false

/-- The text of the answer to an accepted request. -/
theorem handleRequest_accepted {body : String} {request : Value} {id : JsonRpcId} {call : Call}
    (parsed : serde.fromStr body = .ok request)
    (accepted : readRequest serde request = .ok (id, call))
    (readsBack : serde.ReadsBack ((respond serde handler authToken request).run state).1) :
    serde.fromStr ((handleRequest serde handler authToken body).run state).1 =
      .ok ((perform handler authToken id call).run state).1.toJson := by
  rw [handleRequest_single handler authToken state parsed (readRequest_single accepted)]
  dsimp only
  rw [readsBack, respond, accepted]

/-- An answer arrives as it was given, but for the texts that an error sends as data. -/
theorem answer_survives_iff (serde : Serde) (handler : JsonRpcHandler σ)
    (authToken : Option String) (state : σ) (body : String) (request : Value) (id : JsonRpcId)
    (call : Call) (parsed : serde.fromStr body = .ok request)
    (accepted : readRequest serde request = .ok (id, call))
    (readsBack : serde.ReadsBack ((respond serde handler authToken request).run state).1) :
    (call = .getMiningInfo →
      (Survives ((handler.getMiningInfo authToken).run state).1
          (parseResponse serde MiningInfo.ofJson
            ((handleRequest serde handler authToken body).run state).1) ↔
        PlainText ((handler.getMiningInfo authToken).run state).1)) ∧
    ∀ params, call = .submitNonce params →
      (Survives ((handler.submitNonce params authToken).run state).1
          (parseResponse serde SubmitNonceResult.ofJson
            ((handleRequest serde handler authToken body).run state).1) ↔
        PlainText ((handler.submitNonce params authToken).run state).1) := by
  have text := handleRequest_accepted handler authToken state parsed accepted readsBack
  refine ⟨?_, ?_⟩
  · rintro rfl
    rw [perform_getMiningInfo] at text
    exact survives_iff MiningInfo.ofJson_toJson _ text
  · rintro params rfl
    rw [perform_submitNonce] at text
    exact survives_iff SubmitNonceResult.ofJson_toJson _ text

end dispatcher

/-- A request for mining information. -/
def miningInfoText : String :=
  "\x7b\"jsonrpc\":\"2.0\",\"method\":\"get_mining_info\",\"params\":\x7b\x7d,\"id\":7\x7d"

def miningInfoRequest : Value :=
  .ofFields [("jsonrpc", .string "2.0"), ("method", .string methodGetMiningInfo),
    ("params", .object []), ("id", .posInt 7)]

theorem miningInfoRequest_accepted (serde : Serde) :
    readRequest serde miningInfoRequest = .ok (.number 7, .getMiningInfo) := by
  have version : miningInfoRequest.get "jsonrpc" = some (.string "2.0") := by
    simp [miningInfoRequest]
  have named : miningInfoRequest.get "method" = some (.string methodGetMiningInfo) := by
    simp [miningInfoRequest, Value.lookup_cons]
  have params : miningInfoRequest.get "params" = some (.object []) := by
    simp [miningInfoRequest, Value.lookup_cons]
  have own : readId miningInfoRequest = .number 7 := by
    simp [readId, miningInfoRequest, Value.lookup_cons]
  rw [readRequest_eq serde version named, params, own]
  rfl

/-- A handler with one answer. -/
def fixedHandler (answer : Except ProtocolError MiningInfo) : JsonRpcHandler Unit where
  getMiningInfo _ := return answer
  submitNonce _ _ := return .error .rateLimited

def fixedSerde (answer : Except ProtocolError MiningInfo) (text : String) : Serde :=
  .ofTexts [(miningInfoText, miningInfoRequest),
    (text, (answerResponse MiningInfo.toJson (.number 7) answer).toJson)] text

theorem fixedSerde_fromStr (answer : Except ProtocolError MiningInfo) (text : String) :
    (fixedSerde answer text).fromStr miningInfoText = .ok miningInfoRequest := rfl

theorem fixedSerde_readsBack (answer : Except ProtocolError MiningInfo) {text : String}
    (apart : (text == miningInfoText) = false) :
    (fixedSerde answer text).ReadsBack
      ((respond (fixedSerde answer text) (fixedHandler answer) none miningInfoRequest).run ()).1 := by
  have response : ((respond (fixedSerde answer text) (fixedHandler answer) none
      miningInfoRequest).run ()).1 = answerResponse MiningInfo.toJson (.number 7) answer := by
    rw [respond, miningInfoRequest_accepted]
    exact perform_getMiningInfo (fixedHandler answer) none () (.number 7)
  rw [response]
  have differ : text ≠ miningInfoText := beq_eq_false_iff_ne.mp apart
  simp [Serde.ReadsBack, fixedSerde, Serde.ofTexts, Value.lookup_cons, differ]

def rateLimitedText : String :=
  "\x7b\"jsonrpc\":\"2.0\",\"error\":\x7b\"code\":-32006,\"message\":\"Rate limited\"\x7d,\"id\":7\x7d"

theorem rate_limit_survives :
    Survives (.error .rateLimited : Except ProtocolError MiningInfo)
      (parseResponse (fixedSerde (.error .rateLimited) rateLimitedText) MiningInfo.ofJson
        ((handleRequest (fixedSerde (.error .rateLimited) rateLimitedText)
          (fixedHandler (.error .rateLimited)) none miningInfoText).run ()).1) := by
  have readsBack := @fixedSerde_readsBack (.error .rateLimited) rateLimitedText (by decide +kernel)
  have iff := answer_survives_iff _ (fixedHandler (.error .rateLimited)) none () miningInfoText
    miningInfoRequest (.number 7) .getMiningInfo (fixedSerde_fromStr _ _)
    (miningInfoRequest_accepted _) readsBack
  exact (iff.1 rfl).mpr trivial

def lockedText : String :=
  "\x7b\"jsonrpc\":\"2.0\",\"error\":\x7b\"code\":-32603,\"message\":\"Internal error\"," ++
    "\"data\":\x7b\"details\":\"database is locked\"\x7d\x7d,\"id\":7\x7d"

def lockedAnswer : Except ProtocolError MiningInfo := .error (.internalError "database is locked")

/-- The text of an internal error is lost. -/
theorem internal_error_loses_text :
    (fixedSerde lockedAnswer lockedText).ReadsBack
        ((respond (fixedSerde lockedAnswer lockedText) (fixedHandler lockedAnswer) none
          miningInfoRequest).run ()).1 ∧
      ¬ Survives lockedAnswer
        (parseResponse (fixedSerde lockedAnswer lockedText) MiningInfo.ofJson
          ((handleRequest (fixedSerde lockedAnswer lockedText) (fixedHandler lockedAnswer) none
            miningInfoText).run ()).1) := by
  have readsBack := @fixedSerde_readsBack lockedAnswer lockedText (by decide +kernel)
  refine ⟨readsBack, ?_⟩
  intro survives
  have text := handleRequest_accepted (fixedHandler lockedAnswer) none ()
    (fixedSerde_fromStr lockedAnswer lockedText) (miningInfoRequest_accepted _) readsBack
  rw [perform_getMiningInfo] at text
  have plain : "database is locked" = "Internal error" :=
    (survives_iff MiningInfo.ofJson_toJson _ text).mp survives
  exact absurd plain (by decide)

end Pocx.Protocol

import Pocx.Protocol.Types

set_option autoImplicit false

namespace Pocx.Protocol

open Json (Value)

def parseError : Int32 := -32700
def invalidRequest : Int32 := -32600
def methodNotFound : Int32 := -32601
def invalidParams : Int32 := -32602
def internalError : Int32 := -32603

def invalidSubmission : Int32 := -32001
def wrongHeight : Int32 := -32002
def staleSubmission : Int32 := -32003
def authRequired : Int32 := -32004
def authInvalid : Int32 := -32005
def rateLimited : Int32 := -32006
def notAssigned : Int32 := -32007

/-- The errors of the libraries are given by their texts. -/
inductive ProtocolError
  | parseError (msg : String)
  | invalidRequest (msg : String)
  | methodNotFound (method : String)
  | invalidParams (msg : String)
  | internalError (msg : String)
  | invalidSubmission (reason : String)
  | wrongHeight (expected submitted : UInt64)
  | staleSubmission
  | authRequired
  | authInvalid
  | rateLimited
  | notAssigned (reason : String)
  | networkError (err : String)
  | jsonError (err : String)
  | other (msg : String)
deriving DecidableEq

namespace ProtocolError

def errorCode : ProtocolError → Int32
  | .parseError _ => Protocol.parseError
  | .invalidRequest _ => Protocol.invalidRequest
  | .methodNotFound _ => Protocol.methodNotFound
  | .invalidParams _ => Protocol.invalidParams
  | .internalError _ => Protocol.internalError
  | .invalidSubmission _ => Protocol.invalidSubmission
  | .wrongHeight _ _ => Protocol.wrongHeight
  | .staleSubmission => Protocol.staleSubmission
  | .authRequired => Protocol.authRequired
  | .authInvalid => Protocol.authInvalid
  | .rateLimited => Protocol.rateLimited
  | .notAssigned _ => Protocol.notAssigned
  | .networkError _ => Protocol.internalError
  | .jsonError _ => Protocol.parseError
  | .other _ => Protocol.internalError

/-- `json!` with one text. -/
def textData (name text : String) : Option Value := some (.ofFields [(name, .string text)])

def toJsonRpcError : ProtocolError → JsonRpcError
  | .parseError msg =>
    { code := Protocol.parseError
      message := "Parse error"
      data := textData "details" msg }
  | .invalidRequest msg =>
    { code := Protocol.invalidRequest
      message := "Invalid request"
      data := textData "details" msg }
  | .methodNotFound method =>
    { code := Protocol.methodNotFound
      message := "Method not found"
      data := textData "method" method }
  | .invalidParams msg =>
    { code := Protocol.invalidParams
      message := "Invalid params"
      data := textData "details" msg }
  | .internalError msg =>
    { code := Protocol.internalError
      message := "Internal error"
      data := textData "details" msg }
  | .invalidSubmission reason =>
    { code := Protocol.invalidSubmission
      message := "Invalid submission"
      data := textData "reason" reason }
  | .wrongHeight expected submitted =>
    { code := Protocol.wrongHeight
      message := "Wrong height"
      data := some (.ofFields [("reason", .string "wrong_height"),
        ("expected", .posInt expected), ("submitted", .posInt submitted)]) }
  | .staleSubmission =>
    { code := Protocol.staleSubmission
      message := "Stale submission"
      data := textData "reason" "stale" }
  | .authRequired =>
    { code := Protocol.authRequired
      message := "Authentication required"
      data := none }
  | .authInvalid =>
    { code := Protocol.authInvalid
      message := "Invalid authentication"
      data := none }
  | .rateLimited =>
    { code := Protocol.rateLimited
      message := "Rate limited"
      data := none }
  | .notAssigned reason =>
    { code := Protocol.notAssigned
      message := reason
      data := none }
  | .networkError err =>
    { code := Protocol.internalError
      message := "Network error"
      data := textData "details" err }
  | .jsonError err =>
    { code := Protocol.parseError
      message := "JSON error"
      data := textData "details" err }
  | .other msg =>
    { code := Protocol.internalError
      message := "Error"
      data := textData "details" msg }

/-- What is sent has the code of the error. -/
theorem toJsonRpcError_code (error : ProtocolError) :
    error.toJsonRpcError.code = error.errorCode := by
  cases error <;> rfl

theorem toJsonRpcError_data (error : ProtocolError) :
    error.toJsonRpcError.data ≠ some .null := by
  cases error <;> simp [toJsonRpcError, textData, Value.ofFields]

end ProtocolError

/-- `errors::method_not_found` -/
def methodNotFoundError (method : String) : JsonRpcError where
  code := methodNotFound
  message := "Method not found"
  data := ProtocolError.textData "method" method

end Pocx.Protocol

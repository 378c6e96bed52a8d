import Pocx.Lib.Json

set_option autoImplicit false

namespace Pocx.Protocol

open Json (Value structFields requiredField optionalField)

inductive JsonRpcId
  | string (text : String)
  | number (n : UInt64)
  | null
deriving DecidableEq

structure JsonRpcError where
  code : Int32
  message : String
  data : Option Value

inductive JsonRpcResponse (T : Type)
  | success (jsonrpc : String) (result : T) (id : JsonRpcId)
  | error (jsonrpc : String) (error : JsonRpcError) (id : JsonRpcId)

structure GetMiningInfoParams where
deriving DecidableEq

structure MiningInfo where
  generationSignature : String
  baseTarget : UInt64
  height : UInt64
  blockHash : String
  targetQuality : Option UInt64
  minimumCompressionLevel : Option UInt8
  targetCompressionLevel : Option UInt8
deriving DecidableEq

structure SubmitNonceParams where
  blockHash : String
  height : UInt64
  generationSignature : String
  baseTarget : UInt64
  accountId : String
  seed : String
  nonce : UInt64
  compression : UInt8
  rawQuality : UInt64
deriving DecidableEq

structure SubmitNonceResult where
  rawQuality : UInt64
  pocTime : UInt64
deriving DecidableEq

def methodGetMiningInfo : String := "get_mining_info"

def methodSubmitNonce : String := "submit_nonce"

section encode

/-- `skip_serializing_if = "Option::is_none"` -/
def skipNone (name : String) (field : Option Value) : List (String × Value) :=
  (field.map fun value => (name, value)).toList

def JsonRpcId.toJson : JsonRpcId → Value
  | .string text => .string text
  | .number n => .posInt n
  | .null => .null

def JsonRpcError.toJson (error : JsonRpcError) : Value :=
  .ofFields ([("code", Json.ofI32 error.code), ("message", .string error.message)] ++
    skipNone "data" error.data)

/-- The enum is untagged. -/
def JsonRpcResponse.toJson : JsonRpcResponse Value → Value
  | .success jsonrpc result id =>
    .ofFields [("jsonrpc", .string jsonrpc), ("result", result), ("id", id.toJson)]
  | .error jsonrpc failure id =>
    .ofFields [("jsonrpc", .string jsonrpc), ("error", failure.toJson), ("id", id.toJson)]

def MiningInfo.toJson (info : MiningInfo) : Value :=
  .ofFields ([("generation_signature", .string info.generationSignature),
      ("base_target", .posInt info.baseTarget), ("height", .posInt info.height),
      ("block_hash", .string info.blockHash)] ++
    skipNone "target_quality" (info.targetQuality.map .posInt) ++
    skipNone "minimum_compression_level" (info.minimumCompressionLevel.map Json.ofU8) ++
    skipNone "target_compression_level" (info.targetCompressionLevel.map Json.ofU8))

def SubmitNonceResult.toJson (result : SubmitNonceResult) : Value :=
  .ofFields [("raw_quality", .posInt result.rawQuality), ("poc_time", .posInt result.pocTime)]

end encode

section decode

def JsonRpcId.ofJson : Value → Option JsonRpcId
  | .string text => some (.string text)
  | .posInt n => some (.number n)
  | .null => some .null
  | _ => none

def JsonRpcError.ofJson (value : Value) : Option JsonRpcError :=
  match structFields ["code", "message", "data"] value with
  | some [code, message, data] => do
    return {
      code := ← requiredField Json.toI32 code
      message := ← requiredField Value.asStr message
      data := ← optionalField some data }
  | _ => none

/-- The variants of the untagged enum are tried in order. -/
def JsonRpcResponse.ofJson {T : Type} (decode : Value → Option T) (value : Value) :
    Option (JsonRpcResponse T) :=
  let success : Option (JsonRpcResponse T) :=
    match structFields ["jsonrpc", "result", "id"] value with
    | some [jsonrpc, result, id] => do
      return .success (← requiredField Value.asStr jsonrpc) (← requiredField decode result)
        (← requiredField JsonRpcId.ofJson id)
    | _ => none
  let failure : Option (JsonRpcResponse T) :=
    match structFields ["jsonrpc", "error", "id"] value with
    | some [jsonrpc, failure, id] => do
      return .error (← requiredField Value.asStr jsonrpc)
        (← requiredField JsonRpcError.ofJson failure) (← requiredField JsonRpcId.ofJson id)
    | _ => none
  success <|> failure

def GetMiningInfoParams.ofJson (value : Value) : Option GetMiningInfoParams :=
  (structFields [] value).map fun _ => {}

def MiningInfo.ofJson (value : Value) : Option MiningInfo :=
  match structFields ["generation_signature", "base_target", "height", "block_hash",
    "target_quality", "minimum_compression_level", "target_compression_level"] value with
  | some [generationSignature, baseTarget, height, blockHash, targetQuality,
      minimumCompressionLevel, targetCompressionLevel] => do
    return {
      generationSignature := ← requiredField Value.asStr generationSignature
      baseTarget := ← requiredField Value.asU64 baseTarget
      height := ← requiredField Value.asU64 height
      blockHash := ← requiredField Value.asStr blockHash
      targetQuality := ← optionalField Value.asU64 targetQuality
      minimumCompressionLevel := ← optionalField Json.toU8 minimumCompressionLevel
      targetCompressionLevel := ← optionalField Json.toU8 targetCompressionLevel }
  | _ => none

def SubmitNonceParams.ofJson (value : Value) : Option SubmitNonceParams :=
  match structFields ["block_hash", "height", "generation_signature", "base_target", "account_id",
    "seed", "nonce", "compression", "raw_quality"] value with
  | some [blockHash, height, generationSignature, baseTarget, accountId, seed, nonce, compression,
      rawQuality] => do
    return {
      blockHash := ← requiredField Value.asStr blockHash
      height := ← requiredField Value.asU64 height
      generationSignature := ← requiredField Value.asStr generationSignature
      baseTarget := ← requiredField Value.asU64 baseTarget
      accountId := ← requiredField Value.asStr accountId
      seed := ← requiredField Value.asStr seed
      nonce := ← requiredField Value.asU64 nonce
      compression := ← requiredField Json.toU8 compression
      rawQuality := ← requiredField Value.asU64 rawQuality }
  | _ => none

def SubmitNonceResult.ofJson (value : Value) : Option SubmitNonceResult :=
  match structFields ["raw_quality", "poc_time"] value with
  | some [rawQuality, pocTime] => do
    return {
      rawQuality := ← requiredField Value.asU64 rawQuality
      pocTime := ← requiredField Value.asU64 pocTime }
  | _ => none

end decode

section roundTrip

theorem JsonRpcId.ofJson_toJson (id : JsonRpcId) : JsonRpcId.ofJson id.toJson = some id := by
  cases id <;> rfl

theorem MiningInfo.ofJson_toJson (info : MiningInfo) : MiningInfo.ofJson info.toJson = some info := by
  obtain ⟨generationSignature, baseTarget, height, blockHash, targetQuality, minimum, target⟩ := info
  rw [MiningInfo.toJson, MiningInfo.ofJson, Json.structFields_ofFields]
  cases targetQuality <;> cases minimum <;> cases target <;>
    simp [skipNone, Value.lookup_cons, requiredField, Value.asStr, Value.asU64]

theorem SubmitNonceResult.ofJson_toJson (result : SubmitNonceResult) :
    SubmitNonceResult.ofJson result.toJson = some result := by
  rw [SubmitNonceResult.toJson, SubmitNonceResult.ofJson, Json.structFields_ofFields]
  simp [Value.lookup_cons, requiredField, Value.asU64]

/-- The data of an error is not null. -/
theorem JsonRpcError.ofJson_toJson (error : JsonRpcError) (present : error.data ≠ some .null) :
    JsonRpcError.ofJson error.toJson = some error := by
  obtain ⟨code, message, data⟩ := error
  rw [JsonRpcError.toJson, JsonRpcError.ofJson, Json.structFields_ofFields]
  cases data with
  | none => simp [skipNone, Value.lookup_cons, requiredField, Value.asStr]
  | some value =>
    have apart : value ≠ .null := fun null => present (congrArg some null)
    simp [skipNone, Value.lookup_cons, requiredField, Value.asStr, Json.optionalField_some apart rfl]

theorem JsonRpcResponse.ofJson_success {T : Type} {decode : Value → Option T} {jsonrpc : String}
    {value : Value} {result : T} (read : decode value = some result) (id : JsonRpcId) :
    JsonRpcResponse.ofJson decode (JsonRpcResponse.toJson (.success jsonrpc value id)) =
      some (.success jsonrpc result id) := by
  rw [JsonRpcResponse.toJson, JsonRpcResponse.ofJson, Json.structFields_ofFields]
  simp [Value.lookup_cons, requiredField, Value.asStr, read, JsonRpcId.ofJson_toJson]

/-- A response without a result is read as an error. -/
theorem JsonRpcResponse.ofJson_error {T : Type} (decode : Value → Option T) (jsonrpc : String)
    {error : JsonRpcError} (present : error.data ≠ some .null) (id : JsonRpcId) :
    JsonRpcResponse.ofJson decode (JsonRpcResponse.toJson (.error jsonrpc error id)) =
      some (.error jsonrpc error id) := by
  rw [JsonRpcResponse.toJson, JsonRpcResponse.ofJson, Json.structFields_ofFields,
    Json.structFields_ofFields]
  simp [Value.lookup_cons, requiredField, Value.asStr, JsonRpcError.ofJson_toJson error present,
    JsonRpcId.ofJson_toJson]

end roundTrip

end Pocx.Protocol

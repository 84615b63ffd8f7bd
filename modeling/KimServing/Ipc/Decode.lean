import KimServing.Ipc.Encode

/-! # Decoding of messages by the C++ side

The reading functions look a field up and check the type and the width of its
value; they answer `none` where the source answers `false`. A message is read
after its field names were compared exactly, and validated last. Integers beyond
64 bits reach the reader as doubles, so no integer test accepts them.
-/
namespace KimServing.Ipc
open Library

def exactFields (object : Json) (fields : List String) : Bool :=
  object.isObject && object.keys.length == fields.length &&
    fields.all (fun field => (object.find field).isSome)

def unsignedValue : Json → Option ℕ
  | .int i => if 0 ≤ i ∧ i < 2 ^ 64 then some i.toNat else none
  | _ => none

def signedValue : Json → Option ℤ
  | .int i => if -2 ^ 63 ≤ i ∧ i < 0 then some i else none
  | _ => none

def readUnsigned (width : ℕ) (object : Json) (key : String) : Option ℕ := do
  let value ← object.find key
  let raw ← unsignedValue value
  if 2 ^ width - 1 < raw then none else some raw

def signed32Value (value : Json) : Option ℤ :=
  match unsignedValue value with
  | some raw => if 2 ^ 31 - 1 < raw then none else some raw
  | none => do
    let raw ← signedValue value
    if raw < -2 ^ 31 ∨ 2 ^ 31 - 1 < raw then none else some raw

def readSigned32 (object : Json) (key : String) : Option ℤ := do
  let value ← object.find key
  signed32Value value

def readString (object : Json) (key : String) : Option (List UInt8) :=
  match object.find key with
  | some (.str s) => some s
  | _ => none

def readBoolean (object : Json) (key : String) : Option Bool :=
  match object.find key with
  | some (.bool b) => some b
  | _ => none

def readFiniteDouble (object : Json) (key : String) : Option Double := do
  let value ← match object.find key with
    | some (.int i) => some (Double.ofInt i)
    | some (.float x) => some x
    | _ => none
  if value.isFinite then some value else none

def readOptionalUnsigned64 (object : Json) (key : String) : Option (Option ℕ) := do
  match ← object.find key with
  | .null => some none
  | value => some (some (← unsignedValue value))

def readOptionalSigned32 (object : Json) (key : String) : Option (Option ℤ) := do
  match ← object.find key with
  | .null => some none
  | value => some (some (← signed32Value value))

def tokenIdsValue : Json → Option (List ℤ)
  | .arr items => items.mapM signed32Value
  | _ => none

def readTokenIds (object : Json) (key : String) : Option (List ℤ) := do
  let value ← object.find key
  tokenIdsValue value

def readStopSequences (object : Json) (key : String) : Option (List (List ℤ)) :=
  match object.find key with
  | some (.arr items) => items.mapM tokenIdsValue
  | _ => none

def statusValue (object : Json) : Option Status :=
  if exactFields object ["code", "message"] = false then none
  else do
    let code ← readString object "code"
    let message ← readString object "message"
    let parsed ← parseStatusCode code
    return ⟨parsed, message⟩

def readStatusJson (object : Json) (key : String) : Option Status := do
  let value ← object.find key
  statusValue value

def manifestValue (object : Json) : Option ModelManifest :=
  if exactFields object ["model_id", "revision", "tokenizer_fingerprint",
      "chat_template_fingerprint", "engine_fingerprint", "eos_token_id", "pad_token_id",
      "max_input_tokens", "max_output_tokens", "max_sequence_tokens", "precision",
      "max_batch_size"] = false then none
  else do
    let modelId ← readString object "model_id"
    let revision ← readString object "revision"
    let tokenizerFingerprint ← readString object "tokenizer_fingerprint"
    let chatTemplateFingerprint ← readString object "chat_template_fingerprint"
    let engineFingerprint ← readString object "engine_fingerprint"
    let eosTokenId ← readSigned32 object "eos_token_id"
    let padTokenId ← readSigned32 object "pad_token_id"
    let maxInputTokens ← readUnsigned 32 object "max_input_tokens"
    let maxOutputTokens ← readUnsigned 32 object "max_output_tokens"
    let maxSequenceTokens ← readUnsigned 32 object "max_sequence_tokens"
    let precision ← readString object "precision"
    let maxBatchSize ← readUnsigned 32 object "max_batch_size"
    return ⟨modelId, revision, tokenizerFingerprint, chatTemplateFingerprint, engineFingerprint,
      eosTokenId, padTokenId, maxInputTokens, maxOutputTokens, maxSequenceTokens, precision,
      maxBatchSize⟩

def readManifestJson (object : Json) (key : String) : Option ModelManifest := do
  let value ← object.find key
  manifestValue value

def limitsValue (object : Json) : Option WorkerLimits :=
  if exactFields object ["max_active_requests", "max_total_input_tokens",
      "max_reserved_output_tokens", "max_frame_payload_bytes", "max_session_egress_frames",
      "max_session_egress_bytes", "max_request_egress_frames", "max_request_egress_bytes"] = false
  then none
  else do
    let maxActiveRequests ← readUnsigned 32 object "max_active_requests"
    let maxTotalInputTokens ← readUnsigned 64 object "max_total_input_tokens"
    let maxReservedOutputTokens ← readUnsigned 64 object "max_reserved_output_tokens"
    let maxFramePayloadBytes ← readUnsigned 32 object "max_frame_payload_bytes"
    let maxSessionEgressFrames ← readUnsigned 32 object "max_session_egress_frames"
    let maxSessionEgressBytes ← readUnsigned 64 object "max_session_egress_bytes"
    let maxRequestEgressFrames ← readUnsigned 32 object "max_request_egress_frames"
    let maxRequestEgressBytes ← readUnsigned 64 object "max_request_egress_bytes"
    return ⟨maxActiveRequests, maxTotalInputTokens, maxReservedOutputTokens, maxFramePayloadBytes,
      maxSessionEgressFrames, maxSessionEgressBytes, maxRequestEgressFrames, maxRequestEgressBytes⟩

def readLimitsJson (object : Json) (key : String) : Option WorkerLimits := do
  let value ← object.find key
  limitsValue value

def samplingValue (object : Json) : Option SamplingParameters :=
  if exactFields object ["temperature", "top_k", "top_p", "random_seed"] = false then none
  else do
    let temperature ← readFiniteDouble object "temperature"
    let topK ← readSigned32 object "top_k"
    let topP ← readFiniteDouble object "top_p"
    let randomSeed ← readUnsigned 64 object "random_seed"
    return ⟨temperature, topK, topP, randomSeed⟩

def readSamplingJson (object : Json) (key : String) : Option SamplingParameters := do
  let value ← object.find key
  samplingValue value

def usageValue (object : Json) : Option Usage :=
  if exactFields object ["prompt_tokens", "completion_tokens"] = false then none
  else do
    let promptTokens ← readUnsigned 64 object "prompt_tokens"
    let completionTokens ← readUnsigned 64 object "completion_tokens"
    return ⟨promptTokens, completionTokens⟩

def readUsageJson (object : Json) (key : String) : Option Usage := do
  let value ← object.find key
  usageValue value

/-! ## Messages -/

def decodeError {α : Type*} (message : String) : Except Status α := .error (invalid message)

def decoded (m : Message) : Except Status Message := do
  m.validate
  return m

/-- The shape that the decoders share: exact fields, readable values, validation. -/
def decodeRecord {α : Type*} (fields : List String) (fieldsText valuesText : String)
    (read : Json → Option α) (wrap : α → Message) (object : Json) : Except Status Message :=
  if exactFields object fields = false then decodeError fieldsText
  else
    match read object with
    | none => decodeError valuesText
    | some m => decoded (wrap m)

def readHello (object : Json) : Option Hello := do
  let protocolVersion ← readUnsigned 32 object "protocol_version"
  let modelId ← readString object "model_id"
  let revision ← readString object "revision"
  return ⟨protocolVersion, modelId, revision⟩

def decodeHello : Json → Except Status Message :=
  decodeRecord ["type", "protocol_version", "model_id", "revision"]
    "Hello contains missing or unexpected fields" "Hello contains invalid field types"
    readHello .hello

def readHelloAck (object : Json) : Option HelloAck := do
  let protocolVersion ← readUnsigned 32 object "protocol_version"
  let workerEpoch ← readUnsigned 64 object "worker_epoch"
  let manifest ← readManifestJson object "manifest"
  let limits ← readLimitsJson object "limits"
  return ⟨protocolVersion, workerEpoch, manifest, limits⟩

def decodeHelloAck : Json → Except Status Message :=
  decodeRecord ["type", "protocol_version", "worker_epoch", "manifest", "limits"]
    "HelloAck contains missing or unexpected fields" "HelloAck contains invalid fields"
    readHelloAck .helloAck

def readRequestEnvelope (object : Json) : Option (ℕ × ℕ × ℕ) := do
  let protocolVersion ← readUnsigned 32 object "protocol_version"
  let workerEpoch ← readUnsigned 64 object "worker_epoch"
  let requestId ← readUnsigned 64 object "request_id"
  return (protocolVersion, workerEpoch, requestId)

def readSubmit (object : Json) : Option Submit := do
  let (protocolVersion, workerEpoch, requestId) ← readRequestEnvelope object
  let priority ← readSigned32 object "priority"
  let timeoutMs ← readOptionalUnsigned64 object "timeout_ms"
  let traceId ← readString object "trace_id"
  let inputTokenIds ← readTokenIds object "input_token_ids"
  let maxNewTokens ← readUnsigned 32 object "max_new_tokens"
  let streaming ← readBoolean object "streaming"
  let sampling ← readSamplingJson object "sampling"
  let endId ← readOptionalSigned32 object "end_id"
  let padId ← readOptionalSigned32 object "pad_id"
  let stopSequences ← readStopSequences object "stop_sequences"
  return ⟨protocolVersion, workerEpoch, requestId, priority, timeoutMs, traceId, inputTokenIds,
    maxNewTokens, streaming, sampling, endId, padId, stopSequences⟩

def decodeSubmit : Json → Except Status Message :=
  decodeRecord ["type", "protocol_version", "worker_epoch", "request_id", "priority",
      "timeout_ms", "trace_id", "input_token_ids", "max_new_tokens", "streaming", "sampling",
      "end_id", "pad_id", "stop_sequences"]
    "Submit contains missing or unexpected fields" "Submit contains invalid fields"
    readSubmit .submit

def readAccepted (object : Json) : Option Accepted := do
  let (protocolVersion, workerEpoch, requestId) ← readRequestEnvelope object
  return ⟨protocolVersion, workerEpoch, requestId⟩

def decodeAccepted : Json → Except Status Message :=
  decodeRecord ["type", "protocol_version", "worker_epoch", "request_id"]
    "Accepted contains missing or unexpected fields" "Accepted contains invalid fields"
    readAccepted .accepted

def readRejected (object : Json) : Option Rejected := do
  let (protocolVersion, workerEpoch, requestId) ← readRequestEnvelope object
  let status ← readStatusJson object "status"
  return ⟨protocolVersion, workerEpoch, requestId, status⟩

def decodeRejected : Json → Except Status Message :=
  decodeRecord ["type", "protocol_version", "worker_epoch", "request_id", "status"]
    "Rejected contains missing or unexpected fields" "Rejected contains invalid fields"
    readRejected .rejected

def readCancel (object : Json) : Option Cancel := do
  let (protocolVersion, workerEpoch, requestId) ← readRequestEnvelope object
  return ⟨protocolVersion, workerEpoch, requestId⟩

def decodeCancel : Json → Except Status Message :=
  decodeRecord ["type", "protocol_version", "worker_epoch", "request_id"]
    "Cancel contains missing or unexpected fields" "Cancel contains invalid fields"
    readCancel .cancel

def readTokenDelta (object : Json) : Option TokenDelta := do
  let (protocolVersion, workerEpoch, requestId) ← readRequestEnvelope object
  let sequenceNo ← readUnsigned 64 object "sequence_no"
  let tokenIds ← readTokenIds object "token_ids"
  return ⟨protocolVersion, workerEpoch, requestId, sequenceNo, tokenIds⟩

def decodeTokenDelta : Json → Except Status Message :=
  decodeRecord ["type", "protocol_version", "worker_epoch", "request_id", "sequence_no",
      "token_ids"]
    "TokenDelta contains missing or unexpected fields" "TokenDelta contains invalid fields"
    readTokenDelta .tokenDelta

def readFinishReason (object : Json) : Except Status (Option FinishReason) :=
  match object.find "finish_reason" with
  | none => decodeError "Terminal finish_reason is missing"
  | some .null => .ok none
  | some (.str name) =>
    match parseFinishReason name with
    | none => decodeError "Terminal finish_reason is unknown"
    | some reason => .ok (some reason)
  | some _ => decodeError "Terminal finish_reason has invalid type"

def readTerminal (object : Json) : Option (ℕ × ℕ × ℕ × Status × Usage) := do
  let (protocolVersion, workerEpoch, requestId) ← readRequestEnvelope object
  let status ← readStatusJson object "status"
  let usage ← readUsageJson object "usage"
  return (protocolVersion, workerEpoch, requestId, status, usage)

def decodeTerminal (object : Json) : Except Status Message :=
  if exactFields object ["type", "protocol_version", "worker_epoch", "request_id", "status",
      "finish_reason", "usage"] = false then
    decodeError "Terminal contains missing or unexpected fields"
  else
    match readTerminal object with
    | none => decodeError "Terminal contains invalid fields"
    | some (protocolVersion, workerEpoch, requestId, status, usage) => do
      let finishReason ← readFinishReason object
      decoded (.terminal ⟨protocolVersion, workerEpoch, requestId, status, finishReason, usage⟩)

def readHealth (object : Json) : Option Health := do
  let protocolVersion ← readUnsigned 32 object "protocol_version"
  let workerEpoch ← readUnsigned 64 object "worker_epoch"
  let probeId ← readUnsigned 64 object "probe_id"
  return ⟨protocolVersion, workerEpoch, probeId⟩

def decodeHealth : Json → Except Status Message :=
  decodeRecord ["type", "protocol_version", "worker_epoch", "probe_id"]
    "Health contains missing or unexpected fields" "Health contains invalid fields"
    readHealth .health

def readStats (object : Json) : Option Stats := do
  let protocolVersion ← readUnsigned 32 object "protocol_version"
  let workerEpoch ← readUnsigned 64 object "worker_epoch"
  let probeId ← readUnsigned 64 object "probe_id"
  let ready ← readBoolean object "ready"
  let status ← readStatusJson object "status"
  let uptimeMs ← readUnsigned 64 object "uptime_ms"
  let activeRequests ← readUnsigned 64 object "active_requests"
  let reservedInputTokens ← readUnsigned 64 object "reserved_input_tokens"
  let reservedOutputTokens ← readUnsigned 64 object "reserved_output_tokens"
  let sessionEgressFrames ← readUnsigned 64 object "session_egress_frames"
  let sessionEgressBytes ← readUnsigned 64 object "session_egress_bytes"
  let highWatermarkFrames ← readUnsigned 64 object "session_egress_high_watermark_frames"
  let highWatermarkBytes ← readUnsigned 64 object "session_egress_high_watermark_bytes"
  let rejectedRequests ← readUnsigned 64 object "rejected_requests"
  let backpressureRequests ← readUnsigned 64 object "backpressure_requests"
  let cancelledRequests ← readUnsigned 64 object "cancelled_requests"
  return ⟨protocolVersion, workerEpoch, probeId, ready, status, uptimeMs, activeRequests,
    reservedInputTokens, reservedOutputTokens, sessionEgressFrames, sessionEgressBytes,
    highWatermarkFrames, highWatermarkBytes, rejectedRequests, backpressureRequests,
    cancelledRequests⟩

def decodeStats : Json → Except Status Message :=
  decodeRecord ["type", "protocol_version", "worker_epoch", "probe_id", "ready", "status",
      "uptime_ms", "active_requests", "reserved_input_tokens", "reserved_output_tokens",
      "session_egress_frames", "session_egress_bytes", "session_egress_high_watermark_frames",
      "session_egress_high_watermark_bytes", "rejected_requests", "backpressure_requests",
      "cancelled_requests"]
    "Stats contains missing or unexpected fields" "Stats contains invalid fields"
    readStats .stats

def decodeValue (object : Json) : Except Status Message :=
  if object.isObject = false then decodeError "payload must be a JSON object"
  else
    match readString object "type" with
    | none => decodeError "message type must be a string"
    | some type =>
      if type = utf8 "hello" then decodeHello object
      else if type = utf8 "hello_ack" then decodeHelloAck object
      else if type = utf8 "submit" then decodeSubmit object
      else if type = utf8 "accepted" then decodeAccepted object
      else if type = utf8 "rejected" then decodeRejected object
      else if type = utf8 "cancel" then decodeCancel object
      else if type = utf8 "token_delta" then decodeTokenDelta object
      else if type = utf8 "terminal" then decodeTerminal object
      else if type = utf8 "health" then decodeHealth object
      else if type = utf8 "stats" then decodeStats object
      else decodeError "unknown message type"

def decodePayload (parse : List UInt8 → Except (List UInt8) Json) (payload : List UInt8) :
    Except Status Message :=
  match parse payload with
  | .error what => .error ⟨.invalidInput, utf8 "invalid JSON payload: " ++ what⟩
  | .ok object => decodeValue object

end KimServing.Ipc

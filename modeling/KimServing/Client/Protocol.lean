import KimServing.Ipc.Messages

/-! # Decoding of server messages by the Python client

The Python side checks each value as it builds the message. A Python string is
represented by its UTF-8 bytes, and a raised exception is an error value. Python
integers have no width, so the checks carry their bounds.
-/
namespace KimServing.Client
open Library

inductive PyError where
  | protocolError (text : List UInt8)
  | keyError (key : String)
  | overflowError
  | valueError
  | unicodeEncodeError
  | eofError (text : String)
  deriving DecidableEq

structure Status where
  code : List UInt8
  message : List UInt8
  deriving DecidableEq

def Status.isOk (s : Status) : Bool := s.code == utf8 "ok"

structure HelloAck where
  workerEpoch : ℕ
  manifest : Ipc.ModelManifest
  limits : Ipc.WorkerLimits
  deriving DecidableEq

structure Terminal where
  requestId : ℕ
  status : Status
  finishReason : Option (List UInt8)
  usage : Ipc.Usage
  deriving DecidableEq

structure Stats where
  probeId : ℕ
  ready : Bool
  status : Status
  uptimeMs : ℕ
  activeRequests : ℕ
  reservedInputTokens : ℕ
  reservedOutputTokens : ℕ
  sessionEgressFrames : ℕ
  sessionEgressBytes : ℕ
  sessionEgressHighWatermarkFrames : ℕ
  sessionEgressHighWatermarkBytes : ℕ
  rejectedRequests : ℕ
  backpressureRequests : ℕ
  cancelledRequests : ℕ
  deriving DecidableEq

inductive ServerMessage where
  | helloAck (m : HelloAck)
  | accepted (requestId : ℕ)
  | rejected (requestId : ℕ) (status : Status)
  | tokenDelta (requestId sequenceNo : ℕ) (tokenIds : List ℤ)
  | terminal (m : Terminal)
  | stats (m : Stats)
  deriving DecidableEq

def STATUS_CODES : List String :=
  ["ok", "invalid_input", "invalid_shape", "already_exists", "not_ready", "resource_exhausted",
    "slo_predicted_miss", "unavailable", "queue_full", "engine_not_found", "context_unavailable",
    "cuda_error", "tensorrt_error", "internal_error", "timeout", "cancelled"]

def FINISH_REASONS : List String :=
  ["eos", "length", "stop", "cancelled", "timeout", "backpressure"]

def raiseError {α : Type} (text : List UInt8) : Except PyError α := .error (.protocolError text)

def raiseText {α : Type} (text : String) : Except PyError α := raiseError (utf8 text)

def getItem (value : Json) (key : String) : Except PyError Json :=
  match value.find key with
  | some item => .ok item
  | none => .error (.keyError key)

def requireExactFields (value : Json) (expected : List String) (description : String) :
    Except PyError Unit :=
  if value.isObject = false ∨ ¬(value.keys ⊆ expected ∧ expected ⊆ value.keys) then
    raiseText (description ++ " contains missing or unexpected fields")
  else .ok ()

def requireString (value : Json) (description : String) (nonEmpty : Bool) :
    Except PyError (List UInt8) :=
  match value with
  | .str s =>
    if nonEmpty ∧ s = [] then raiseText (description ++ " must be a non-empty string") else .ok s
  | _ =>
    raiseText (description ++ " must be a " ++ (if nonEmpty then "non-empty " else "") ++ "string")

def requireBool (value : Json) (description : String) : Except PyError Bool :=
  match value with
  | .bool b => .ok b
  | _ => raiseText (description ++ " must be a boolean")

def requireInt (value : Json) (description : String) (minimum maximum : ℤ) : Except PyError ℤ :=
  match value with
  | .int i =>
    if i < minimum ∨ maximum < i then
      raiseText (description ++ " is outside the supported integer range")
    else .ok i
  | _ => raiseText (description ++ " is outside the supported integer range")

def requireNat (value : Json) (description : String) (minimum : ℕ) (maximum : ℤ := 2 ^ 64 - 1) :
    Except PyError ℕ :=
  Int.toNat <$> requireInt value description minimum maximum

def requireProtocol (value : Json) : Except PyError Unit := do
  let version ← requireNat value "protocol_version" 0 (2 ^ 32 - 1)
  if version ≠ Ipc.kProtocolVersion then
    raiseError (utf8 "unsupported protocol version " ++ Json.decimal version)
  else .ok ()

def requireEpoch (value : Json) (expectedEpoch : Option ℤ) : Except PyError ℕ := do
  let epoch ← requireNat value "worker_epoch" 1
  if expectedEpoch.isSome ∧ expectedEpoch ≠ some (epoch : ℤ) then
    raiseText "worker_epoch does not match the active Worker"
  else .ok epoch

def statusFromJson (value : Json) : Except PyError Status := do
  requireExactFields value ["code", "message"] "status"
  let code ← requireString (← getItem value "code") "status.code" true
  if code ∉ STATUS_CODES.map utf8 then
    raiseError (utf8 "unknown status code " ++ code)
  else
    return ⟨code, ← requireString (← getItem value "message") "status.message" false⟩

def manifestFromJson (value : Json) : Except PyError Ipc.ModelManifest := do
  requireExactFields value ["model_id", "revision", "tokenizer_fingerprint",
    "chat_template_fingerprint", "engine_fingerprint", "eos_token_id", "pad_token_id",
    "max_input_tokens", "max_output_tokens", "max_sequence_tokens", "precision",
    "max_batch_size"] "manifest"
  let modelId ← requireString (← getItem value "model_id") "model_id" true
  let revision ← requireString (← getItem value "revision") "revision" true
  let tokenizerFingerprint ←
    requireString (← getItem value "tokenizer_fingerprint") "tokenizer_fingerprint" true
  let chatTemplateFingerprint ←
    requireString (← getItem value "chat_template_fingerprint") "chat_template_fingerprint" true
  let engineFingerprint ←
    requireString (← getItem value "engine_fingerprint") "engine_fingerprint" true
  let eosTokenId ← requireInt (← getItem value "eos_token_id") "eos_token_id" 0 (2 ^ 31 - 1)
  let padTokenId ← requireInt (← getItem value "pad_token_id") "pad_token_id" 0 (2 ^ 31 - 1)
  let maxInputTokens ←
    requireNat (← getItem value "max_input_tokens") "max_input_tokens" 1 (2 ^ 32 - 1)
  let maxOutputTokens ←
    requireNat (← getItem value "max_output_tokens") "max_output_tokens" 1 (2 ^ 32 - 1)
  let maxSequenceTokens ←
    requireNat (← getItem value "max_sequence_tokens") "max_sequence_tokens" 1 (2 ^ 32 - 1)
  let precision ← requireString (← getItem value "precision") "precision" true
  let maxBatchSize ← requireNat (← getItem value "max_batch_size") "max_batch_size" 1 (2 ^ 32 - 1)
  if maxSequenceTokens < maxInputTokens ∨ maxSequenceTokens < maxOutputTokens then
    raiseText "manifest token limits exceed max_sequence_tokens"
  else
    return ⟨modelId, revision, tokenizerFingerprint, chatTemplateFingerprint, engineFingerprint,
      eosTokenId, padTokenId, maxInputTokens, maxOutputTokens, maxSequenceTokens, precision,
      maxBatchSize⟩

def limitsFromJson (value : Json) : Except PyError Ipc.WorkerLimits := do
  requireExactFields value ["max_active_requests", "max_total_input_tokens",
    "max_reserved_output_tokens", "max_frame_payload_bytes", "max_session_egress_frames",
    "max_session_egress_bytes", "max_request_egress_frames", "max_request_egress_bytes"] "limits"
  let maxActiveRequests ←
    requireNat (← getItem value "max_active_requests") "max_active_requests" 1 (2 ^ 32 - 1)
  let maxTotalInputTokens ←
    requireNat (← getItem value "max_total_input_tokens") "max_total_input_tokens" 1
  let maxReservedOutputTokens ←
    requireNat (← getItem value "max_reserved_output_tokens") "max_reserved_output_tokens" 1
  let maxFramePayloadBytes ←
    requireNat (← getItem value "max_frame_payload_bytes") "max_frame_payload_bytes" 1 (2 ^ 32 - 1)
  let maxSessionEgressFrames ← requireNat (← getItem value "max_session_egress_frames")
    "max_session_egress_frames" 1 (2 ^ 32 - 1)
  let maxSessionEgressBytes ←
    requireNat (← getItem value "max_session_egress_bytes") "max_session_egress_bytes" 1
  let maxRequestEgressFrames ← requireNat (← getItem value "max_request_egress_frames")
    "max_request_egress_frames" 1 (2 ^ 32 - 1)
  let maxRequestEgressBytes ←
    requireNat (← getItem value "max_request_egress_bytes") "max_request_egress_bytes" 1
  if maxSessionEgressFrames < maxRequestEgressFrames ∨
      maxSessionEgressBytes < maxRequestEgressBytes ∨
      maxRequestEgressBytes < maxFramePayloadBytes then
    raiseText "Worker limit hierarchy is inconsistent"
  else
    return ⟨maxActiveRequests, maxTotalInputTokens, maxReservedOutputTokens, maxFramePayloadBytes,
      maxSessionEgressFrames, maxSessionEgressBytes, maxRequestEgressFrames, maxRequestEgressBytes⟩

def usageFromJson (value : Json) : Except PyError Ipc.Usage := do
  requireExactFields value ["prompt_tokens", "completion_tokens"] "usage"
  let promptTokens ← requireNat (← getItem value "prompt_tokens") "prompt_tokens" 0
  let completionTokens ← requireNat (← getItem value "completion_tokens") "completion_tokens" 0
  return ⟨promptTokens, completionTokens⟩

def requestEnvelope (message : Json) (expectedEpoch : ℤ) : Except PyError ℕ := do
  requireProtocol (← getItem message "protocol_version")
  let _ ← requireEpoch (← getItem message "worker_epoch") (some expectedEpoch)
  requireNat (← getItem message "request_id") "request_id" 1

/-! ## Messages -/

def decodeHelloAck (message : Json) (expectedEpoch : Option ℤ) : Except PyError ServerMessage := do
  requireExactFields message
    ["type", "protocol_version", "worker_epoch", "manifest", "limits"] "HelloAck"
  requireProtocol (← getItem message "protocol_version")
  let epoch ← requireEpoch (← getItem message "worker_epoch") expectedEpoch
  let manifest ← manifestFromJson (← getItem message "manifest")
  let limits ← limitsFromJson (← getItem message "limits")
  return .helloAck ⟨epoch, manifest, limits⟩

def decodeAccepted (message : Json) (expectedEpoch : ℤ) : Except PyError ServerMessage := do
  requireExactFields message ["type", "protocol_version", "worker_epoch", "request_id"] "Accepted"
  return .accepted (← requestEnvelope message expectedEpoch)

def decodeRejected (message : Json) (expectedEpoch : ℤ) : Except PyError ServerMessage := do
  requireExactFields message
    ["type", "protocol_version", "worker_epoch", "request_id", "status"] "Rejected"
  let status ← statusFromJson (← getItem message "status")
  if status.isOk then raiseText "Rejected status must not be ok"
  else return .rejected (← requestEnvelope message expectedEpoch) status

def tokenValues : Json → Except PyError (List Json)
  | .arr (item :: items) => .ok (item :: items)
  | _ => raiseText "token_ids must be a non-empty array"

def decodeTokenDelta (message : Json) (expectedEpoch : ℤ) : Except PyError ServerMessage := do
  requireExactFields message ["type", "protocol_version", "worker_epoch", "request_id",
    "sequence_no", "token_ids"] "TokenDelta"
  let values ← tokenValues (← getItem message "token_ids")
  let tokens ← values.mapM (fun token => requireInt token "token_id" 0 (2 ^ 31 - 1))
  let requestId ← requestEnvelope message expectedEpoch
  let sequenceNo ← requireNat (← getItem message "sequence_no") "sequence_no" 0
  return .tokenDelta requestId sequenceNo tokens

def finishReasonFromJson : Json → Except PyError (Option (List UInt8))
  | .null => .ok none
  | value => do
    let reason ← requireString value "finish_reason" true
    if reason ∉ FINISH_REASONS.map utf8 then raiseError (utf8 "unknown finish reason " ++ reason)
    else return some reason

def decodeTerminal (message : Json) (expectedEpoch : ℤ) : Except PyError ServerMessage := do
  requireExactFields message ["type", "protocol_version", "worker_epoch", "request_id", "status",
    "finish_reason", "usage"] "Terminal"
  let status ← statusFromJson (← getItem message "status")
  let finishReason ← finishReasonFromJson (← getItem message "finish_reason")
  if status.isOk ∧ finishReason = none then
    raiseText "successful Terminal requires finish_reason"
  else do
    let requestId ← requestEnvelope message expectedEpoch
    let usage ← usageFromJson (← getItem message "usage")
    return .terminal ⟨requestId, status, finishReason, usage⟩

def decodeStats (message : Json) (expectedEpoch : ℤ) : Except PyError ServerMessage := do
  requireExactFields message ["type", "protocol_version", "worker_epoch", "probe_id", "ready",
    "status", "uptime_ms", "active_requests", "reserved_input_tokens", "reserved_output_tokens",
    "session_egress_frames", "session_egress_bytes", "session_egress_high_watermark_frames",
    "session_egress_high_watermark_bytes", "rejected_requests", "backpressure_requests",
    "cancelled_requests"] "Stats"
  requireProtocol (← getItem message "protocol_version")
  let _ ← requireEpoch (← getItem message "worker_epoch") (some expectedEpoch)
  let status ← statusFromJson (← getItem message "status")
  let ready ← requireBool (← getItem message "ready") "ready"
  if ready ≠ status.isOk then raiseText "Stats ready and status are inconsistent"
  else do
    let probeId ← requireNat (← getItem message "probe_id") "probe_id" 1
    let uptimeMs ← requireNat (← getItem message "uptime_ms") "uptime_ms" 0
    let activeRequests ← requireNat (← getItem message "active_requests") "active_requests" 0
    let reservedInputTokens ←
      requireNat (← getItem message "reserved_input_tokens") "reserved_input_tokens" 0
    let reservedOutputTokens ←
      requireNat (← getItem message "reserved_output_tokens") "reserved_output_tokens" 0
    let sessionEgressFrames ←
      requireNat (← getItem message "session_egress_frames") "session_egress_frames" 0
    let sessionEgressBytes ←
      requireNat (← getItem message "session_egress_bytes") "session_egress_bytes" 0
    let highWatermarkFrames ← requireNat (← getItem message "session_egress_high_watermark_frames")
      "session_egress_high_watermark_frames" 0
    let highWatermarkBytes ← requireNat (← getItem message "session_egress_high_watermark_bytes")
      "session_egress_high_watermark_bytes" 0
    let rejectedRequests ← requireNat (← getItem message "rejected_requests") "rejected_requests" 0
    let backpressureRequests ←
      requireNat (← getItem message "backpressure_requests") "backpressure_requests" 0
    let cancelledRequests ←
      requireNat (← getItem message "cancelled_requests") "cancelled_requests" 0
    if highWatermarkFrames < sessionEgressFrames ∨ highWatermarkBytes < sessionEgressBytes then
      raiseText "Stats high watermark is below the current value"
    else
      return .stats ⟨probeId, ready, status, uptimeMs, activeRequests, reservedInputTokens,
        reservedOutputTokens, sessionEgressFrames, sessionEgressBytes, highWatermarkFrames,
        highWatermarkBytes, rejectedRequests, backpressureRequests, cancelledRequests⟩

def decodeServerMessage (value : Json) (expectedEpoch : Option ℤ) : Except PyError ServerMessage :=
  if value.isObject = false then raiseText "payload must be a JSON object"
  else do
    let type ← requireString ((value.find "type").getD .null) "message type" true
    if type = utf8 "hello_ack" then decodeHelloAck value expectedEpoch
    else
      match expectedEpoch with
      | none => raiseText "lifecycle message arrived before HelloAck"
      | some epoch =>
        if type = utf8 "accepted" then decodeAccepted value epoch
        else if type = utf8 "rejected" then decodeRejected value epoch
        else if type = utf8 "token_delta" then decodeTokenDelta value epoch
        else if type = utf8 "terminal" then decodeTerminal value epoch
        else if type = utf8 "stats" then decodeStats value epoch
        else raiseError (utf8 "message type " ++ type ++ utf8 " is not allowed from Worker")

end KimServing.Client

import KimServing.Ipc.Messages

/-! # Encoding of messages and frames

A message becomes a JSON object, the object its compact text, and the text a
frame with a length of four bytes in front. Every step can refuse: validation,
a string that is not UTF-8, and the payload limit.
-/
namespace KimServing.Ipc
open Library

def natJson (n : ℕ) : Json := .int n
def nameJson (s : String) : Json := .str (utf8 s)
def tokenIdsJson (tokenIds : List ℤ) : Json := .arr (tokenIds.map Json.int)
def optionalInteger (value : Option ℤ) : Json := (value.map Json.int).getD .null

def statusJson (s : Status) : Json :=
  .obj [("code", nameJson (statusCodeName s.code)), ("message", .str s.message)]

def manifestJson (m : ModelManifest) : Json :=
  .obj [("model_id", .str m.modelId),
    ("revision", .str m.revision),
    ("tokenizer_fingerprint", .str m.tokenizerFingerprint),
    ("chat_template_fingerprint", .str m.chatTemplateFingerprint),
    ("engine_fingerprint", .str m.engineFingerprint),
    ("eos_token_id", .int m.eosTokenId),
    ("pad_token_id", .int m.padTokenId),
    ("max_input_tokens", natJson m.maxInputTokens),
    ("max_output_tokens", natJson m.maxOutputTokens),
    ("max_sequence_tokens", natJson m.maxSequenceTokens),
    ("precision", .str m.precision),
    ("max_batch_size", natJson m.maxBatchSize)]

def limitsJson (l : WorkerLimits) : Json :=
  .obj [("max_active_requests", natJson l.maxActiveRequests),
    ("max_total_input_tokens", natJson l.maxTotalInputTokens),
    ("max_reserved_output_tokens", natJson l.maxReservedOutputTokens),
    ("max_frame_payload_bytes", natJson l.maxFramePayloadBytes),
    ("max_session_egress_frames", natJson l.maxSessionEgressFrames),
    ("max_session_egress_bytes", natJson l.maxSessionEgressBytes),
    ("max_request_egress_frames", natJson l.maxRequestEgressFrames),
    ("max_request_egress_bytes", natJson l.maxRequestEgressBytes)]

def samplingJson (s : SamplingParameters) : Json :=
  .obj [("temperature", .float s.temperature), ("top_k", .int s.topK), ("top_p", .float s.topP),
    ("random_seed", natJson s.randomSeed)]

def usageJson (u : Usage) : Json :=
  .obj [("prompt_tokens", natJson u.promptTokens), ("completion_tokens", natJson u.completionTokens)]

def finishReasonJson (reason : Option FinishReason) : Json :=
  (reason.map (fun r => nameJson (finishReasonName r))).getD .null

def messageTypeName : Message → String
  | .hello _ => "hello"
  | .helloAck _ => "hello_ack"
  | .submit _ => "submit"
  | .accepted _ => "accepted"
  | .rejected _ => "rejected"
  | .cancel _ => "cancel"
  | .tokenDelta _ => "token_delta"
  | .terminal _ => "terminal"
  | .health _ => "health"
  | .stats _ => "stats"

def messageJson : Message → Json
  | .hello m => .obj [("type", nameJson "hello"),
      ("protocol_version", natJson m.protocolVersion),
      ("model_id", .str m.modelId),
      ("revision", .str m.revision)]
  | .helloAck m => .obj [("type", nameJson "hello_ack"),
      ("protocol_version", natJson m.protocolVersion),
      ("worker_epoch", natJson m.workerEpoch),
      ("manifest", manifestJson m.manifest),
      ("limits", limitsJson m.limits)]
  | .submit m => .obj [("type", nameJson "submit"),
      ("protocol_version", natJson m.protocolVersion),
      ("worker_epoch", natJson m.workerEpoch),
      ("request_id", natJson m.requestId),
      ("priority", .int m.priority),
      ("timeout_ms", optionalInteger (m.timeoutMs.map Int.ofNat)),
      ("trace_id", .str m.traceId),
      ("input_token_ids", tokenIdsJson m.inputTokenIds),
      ("max_new_tokens", natJson m.maxNewTokens),
      ("streaming", .bool m.streaming),
      ("sampling", samplingJson m.sampling),
      ("end_id", optionalInteger m.endId),
      ("pad_id", optionalInteger m.padId),
      ("stop_sequences", .arr (m.stopSequences.map tokenIdsJson))]
  | .accepted m => .obj [("type", nameJson "accepted"),
      ("protocol_version", natJson m.protocolVersion),
      ("worker_epoch", natJson m.workerEpoch),
      ("request_id", natJson m.requestId)]
  | .rejected m => .obj [("type", nameJson "rejected"),
      ("protocol_version", natJson m.protocolVersion),
      ("worker_epoch", natJson m.workerEpoch),
      ("request_id", natJson m.requestId),
      ("status", statusJson m.status)]
  | .cancel m => .obj [("type", nameJson "cancel"),
      ("protocol_version", natJson m.protocolVersion),
      ("worker_epoch", natJson m.workerEpoch),
      ("request_id", natJson m.requestId)]
  | .tokenDelta m => .obj [("type", nameJson "token_delta"),
      ("protocol_version", natJson m.protocolVersion),
      ("worker_epoch", natJson m.workerEpoch),
      ("request_id", natJson m.requestId),
      ("sequence_no", natJson m.sequenceNo),
      ("token_ids", tokenIdsJson m.tokenIds)]
  | .terminal m => .obj [("type", nameJson "terminal"),
      ("protocol_version", natJson m.protocolVersion),
      ("worker_epoch", natJson m.workerEpoch),
      ("request_id", natJson m.requestId),
      ("status", statusJson m.status),
      ("finish_reason", finishReasonJson m.finishReason),
      ("usage", usageJson m.usage)]
  | .health m => .obj [("type", nameJson "health"),
      ("protocol_version", natJson m.protocolVersion),
      ("worker_epoch", natJson m.workerEpoch),
      ("probe_id", natJson m.probeId)]
  | .stats m => .obj [("type", nameJson "stats"),
      ("protocol_version", natJson m.protocolVersion),
      ("worker_epoch", natJson m.workerEpoch),
      ("probe_id", natJson m.probeId),
      ("ready", .bool m.ready),
      ("status", statusJson m.status),
      ("uptime_ms", natJson m.uptimeMs),
      ("active_requests", natJson m.activeRequests),
      ("reserved_input_tokens", natJson m.reservedInputTokens),
      ("reserved_output_tokens", natJson m.reservedOutputTokens),
      ("session_egress_frames", natJson m.sessionEgressFrames),
      ("session_egress_bytes", natJson m.sessionEgressBytes),
      ("session_egress_high_watermark_frames", natJson m.sessionEgressHighWatermarkFrames),
      ("session_egress_high_watermark_bytes", natJson m.sessionEgressHighWatermarkBytes),
      ("rejected_requests", natJson m.rejectedRequests),
      ("backpressure_requests", natJson m.backpressureRequests),
      ("cancelled_requests", natJson m.cancelledRequests)]

section
variable [JsonLib]

def encodePayload (m : Message) : Except Status (List UInt8) := do
  m.validate
  if (messageJson m).printable then .ok (messageJson m).dump
  else
    .error ⟨.invalidInput,
      utf8 "failed to encode JSON payload: " ++ JsonLib.dumpError (messageJson m)⟩

theorem encodePayload_eq_ok {m : Message} {payload : List UInt8} :
    encodePayload m = .ok payload ↔
      m.validate = .ok () ∧ (messageJson m).printable = true ∧ payload = (messageJson m).dump := by
  unfold encodePayload
  cases m.validate with
  | error => simp [bind, Except.bind]
  | ok =>
    simp only [bind, Except.bind, true_and]
    split
    · next h => simp [h, eq_comm]
    · next h => simp [h]

theorem encodePayload_ne_nil {m : Message} {payload : List UInt8}
    (h : encodePayload m = .ok payload) : payload ≠ [] := by
  obtain ⟨-, -, rfl⟩ := encodePayload_eq_ok.mp h
  cases m <;> simp [messageJson, Json.dump, Json.bracket]

end

structure FrameCodecConfig where
  maxPayloadBytes : ℕ := kDefaultMaxFramePayloadBytes
  deriving DecidableEq

def lengthPrefix (n : ℕ) : List UInt8 :=
  [(n / 2 ^ 24).toUInt8, (n / 2 ^ 16).toUInt8, (n / 2 ^ 8).toUInt8, n.toUInt8]

def encodeFrame (payload : List UInt8) (config : FrameCodecConfig) : Except Status (List UInt8) :=
  if config.maxPayloadBytes = 0 then .error (invalid "max_payload_bytes must be positive")
  else if payload = [] then .error (invalid "frame payload must not be empty")
  else if config.maxPayloadBytes < payload.length ∨ 2 ^ 32 - 1 < payload.length then
    .error (.error .resourceExhausted "frame payload exceeds max_payload_bytes")
  else .ok (lengthPrefix payload.length ++ payload)

theorem encodeFrame_eq_ok {payload frame : List UInt8} {config : FrameCodecConfig} :
    encodeFrame payload config = .ok frame ↔
      payload ≠ [] ∧ payload.length ≤ config.maxPayloadBytes ∧ payload.length ≤ 2 ^ 32 - 1 ∧
      frame = lengthPrefix payload.length ++ payload := by
  unfold encodeFrame
  constructor
  · intro h
    split_ifs at h with hzero hempty hlarge
    exact ⟨hempty, by omega, by omega, (Except.ok.inj h).symm⟩
  · rintro ⟨hempty, hmax, hwidth, rfl⟩
    have hpos : 0 < payload.length := List.length_pos_of_ne_nil hempty
    rw [if_neg (by omega), if_neg hempty, if_neg (by omega)]

/-- A library as far as the runs in this development need it: a whole double has the text
that both libraries give it. -/
@[reducible] def plainJson : JsonLib := ⟨fun q => Json.intText q.num ++ utf8 ".0", fun _ => []⟩

/-- A parser that knows one text. -/
def reads (text : List UInt8) (value : Json) (payload : List UInt8) : Except (List UInt8) Json :=
  if payload = text then .ok value else .error (utf8 "parse error")

end KimServing.Ipc

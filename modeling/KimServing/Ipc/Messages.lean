import KimServing.Library.Json
import KimServing.Runtime.GenerationTypes

/-! # Wire messages and their validation

The ten messages of the protocol with the checks that both the encoder and the
decoder run. Integer fields are mathematical integers.
-/
namespace KimServing.Ipc
open Library

def kProtocolVersion : ℕ := 1
def kDefaultMaxFramePayloadBytes : ℕ := 1024 * 1024

structure ModelManifest where
  modelId : List UInt8
  revision : List UInt8
  tokenizerFingerprint : List UInt8
  chatTemplateFingerprint : List UInt8
  engineFingerprint : List UInt8
  eosTokenId : ℤ := 0
  padTokenId : ℤ := 0
  maxInputTokens : ℕ := 0
  maxOutputTokens : ℕ := 0
  maxSequenceTokens : ℕ := 0
  precision : List UInt8
  maxBatchSize : ℕ := 0
  deriving DecidableEq

structure WorkerLimits where
  maxActiveRequests : ℕ := 0
  maxTotalInputTokens : ℕ := 0
  maxReservedOutputTokens : ℕ := 0
  maxFramePayloadBytes : ℕ := 0
  maxSessionEgressFrames : ℕ := 0
  maxSessionEgressBytes : ℕ := 0
  maxRequestEgressFrames : ℕ := 0
  maxRequestEgressBytes : ℕ := 0
  deriving DecidableEq

structure SamplingParameters where
  temperature : Double := .finite 1
  topK : ℤ := 1
  topP : Double := .finite 1
  randomSeed : ℕ := 0
  deriving DecidableEq

inductive FinishReason where
  | eos | length | stop | cancelled | timeout | backpressure
  deriving DecidableEq

structure Usage where
  promptTokens : ℕ := 0
  completionTokens : ℕ := 0
  deriving DecidableEq

structure Hello where
  protocolVersion : ℕ := kProtocolVersion
  modelId : List UInt8
  revision : List UInt8
  deriving DecidableEq

structure HelloAck where
  protocolVersion : ℕ := kProtocolVersion
  workerEpoch : ℕ
  manifest : ModelManifest
  limits : WorkerLimits
  deriving DecidableEq

structure Submit where
  protocolVersion : ℕ := kProtocolVersion
  workerEpoch : ℕ
  requestId : ℕ
  priority : ℤ := 0
  timeoutMs : Option ℕ := none
  traceId : List UInt8 := []
  inputTokenIds : List ℤ
  maxNewTokens : ℕ
  streaming : Bool := false
  sampling : SamplingParameters := {}
  endId : Option ℤ := none
  padId : Option ℤ := none
  stopSequences : List (List ℤ) := []
  deriving DecidableEq

structure Accepted where
  protocolVersion : ℕ := kProtocolVersion
  workerEpoch : ℕ
  requestId : ℕ
  deriving DecidableEq

structure Rejected where
  protocolVersion : ℕ := kProtocolVersion
  workerEpoch : ℕ
  requestId : ℕ
  status : Status
  deriving DecidableEq

structure Cancel where
  protocolVersion : ℕ := kProtocolVersion
  workerEpoch : ℕ
  requestId : ℕ
  deriving DecidableEq

structure TokenDelta where
  protocolVersion : ℕ := kProtocolVersion
  workerEpoch : ℕ
  requestId : ℕ
  sequenceNo : ℕ
  tokenIds : List ℤ
  deriving DecidableEq

structure Terminal where
  protocolVersion : ℕ := kProtocolVersion
  workerEpoch : ℕ
  requestId : ℕ
  status : Status
  finishReason : Option FinishReason
  usage : Usage
  deriving DecidableEq

structure Health where
  protocolVersion : ℕ := kProtocolVersion
  workerEpoch : ℕ
  probeId : ℕ
  deriving DecidableEq

structure Stats where
  protocolVersion : ℕ := kProtocolVersion
  workerEpoch : ℕ
  probeId : ℕ
  ready : Bool
  status : Status
  uptimeMs : ℕ
  activeRequests : ℕ
  reservedInputTokens : ℕ
  reservedOutputTokens : ℕ
  sessionEgressFrames : ℕ
  sessionEgressBytes : ℕ
  sessionEgressHighWatermarkFrames : ℕ
  sessionEgressHighWatermarkBytes : ℕ
  rejectedRequests : ℕ
  backpressureRequests : ℕ
  cancelledRequests : ℕ
  deriving DecidableEq

inductive Message where
  | hello (m : Hello)
  | helloAck (m : HelloAck)
  | submit (m : Submit)
  | accepted (m : Accepted)
  | rejected (m : Rejected)
  | cancel (m : Cancel)
  | tokenDelta (m : TokenDelta)
  | terminal (m : Terminal)
  | health (m : Health)
  | stats (m : Stats)
  deriving DecidableEq

def Message.requestId? : Message → Option ℕ
  | .submit m | .accepted m | .rejected m | .cancel m | .tokenDelta m
  | .terminal m => some m.requestId
  | _ => none

/-! ## Names -/

def statusCodeName : StatusCode → String
  | .ok => "ok"
  | .invalidInput => "invalid_input"
  | .invalidShape => "invalid_shape"
  | .alreadyExists => "already_exists"
  | .notReady => "not_ready"
  | .resourceExhausted => "resource_exhausted"
  | .sloPredictedMiss => "slo_predicted_miss"
  | .unavailable => "unavailable"
  | .queueFull => "queue_full"
  | .engineNotFound => "engine_not_found"
  | .contextUnavailable => "context_unavailable"
  | .cudaError => "cuda_error"
  | .tensorRTError => "tensorrt_error"
  | .internalError => "internal_error"
  | .timeout => "timeout"
  | .cancelled => "cancelled"

def statusCodes : List StatusCode :=
  [.ok, .invalidInput, .invalidShape, .alreadyExists, .notReady, .resourceExhausted,
    .sloPredictedMiss, .unavailable, .queueFull, .engineNotFound, .contextUnavailable,
    .cudaError, .tensorRTError, .internalError, .timeout, .cancelled]

def parseStatusCode (name : List UInt8) : Option StatusCode :=
  statusCodes.find? (fun code => utf8 (statusCodeName code) == name)

def finishReasonName : FinishReason → String
  | .eos => "eos"
  | .length => "length"
  | .stop => "stop"
  | .cancelled => "cancelled"
  | .timeout => "timeout"
  | .backpressure => "backpressure"

def finishReasons : List FinishReason :=
  [.eos, .length, .stop, .cancelled, .timeout, .backpressure]

def parseFinishReason (name : List UInt8) : Option FinishReason :=
  finishReasons.find? (fun reason => utf8 (finishReasonName reason) == name)

theorem statusCodeName_injective : Function.Injective statusCodeName := by
  intro a b h
  cases a <;> cases b <;> first | rfl | exact absurd h (by decide)

theorem finishReasonName_injective : Function.Injective finishReasonName := by
  intro a b h
  cases a <;> cases b <;> first | rfl | exact absurd h (by decide)

theorem find_name {α : Type*} {name : α → String} (hname : Function.Injective name) {xs : List α}
    (hall : ∀ x, x ∈ xs) {x : α} {s : List UInt8} :
    xs.find? (fun y => utf8 (name y) == s) = some x ↔ s = utf8 (name x) := by
  constructor
  · intro h
    have hx : utf8 (name x) = s := by simpa using List.find?_some h
    exact hx.symm
  · rintro rfl
    cases hf : xs.find? (fun y => utf8 (name y) == utf8 (name x)) with
    | none => exact absurd (List.find?_eq_none.mp hf x (hall x)) (by simp)
    | some y =>
      have hy : utf8 (name y) = utf8 (name x) := by simpa using List.find?_some hf
      rw [hname (utf8_injective hy)]

theorem parseStatusCode_eq_some {code : StatusCode} {name : List UInt8} :
    parseStatusCode name = some code ↔ name = utf8 (statusCodeName code) :=
  find_name statusCodeName_injective (fun c => by cases c <;> decide)

theorem parseFinishReason_eq_some {reason : FinishReason} {name : List UInt8} :
    parseFinishReason name = some reason ↔ name = utf8 (finishReasonName reason) :=
  find_name finishReasonName_injective (fun r => by cases r <;> decide)

/-! ## Validation -/

def invalid (message : String) : Status := .error .invalidInput message

def refuseIf (condition : Prop) [Decidable condition] (message : String) : Except Status Unit :=
  if condition then .error (invalid message) else .ok ()

def validateProtocol (version : ℕ) : Except Status Unit :=
  refuseIf (version ≠ kProtocolVersion) "unsupported protocol_version"

def validateEpoch (epoch : ℕ) : Except Status Unit :=
  refuseIf (epoch = 0) "worker_epoch must be positive"

def validateRequestId (requestId : ℕ) : Except Status Unit :=
  refuseIf (requestId = 0) "request_id must be positive"

def validateTokenId (tokenId : ℤ) (field : String) : Except Status Unit :=
  refuseIf (tokenId < 0) (field ++ " must be non-negative")

def validateTokenIds (tokenIds : List ℤ) (requireNonEmpty : Bool) (field : String) :
    Except Status Unit := do
  refuseIf (requireNonEmpty ∧ tokenIds = []) (field ++ " must not be empty")
  tokenIds.forM (fun tokenId => validateTokenId tokenId field)

def validateStatusValue (status : Status) : Except Status Unit :=
  refuseIf (statusCodeName status.code = "") "unknown StatusCode value"

def ModelManifest.validate (m : ModelManifest) : Except Status Unit := do
  refuseIf (m.modelId = [] ∨ m.revision = [] ∨ m.tokenizerFingerprint = [] ∨
      m.chatTemplateFingerprint = [] ∨ m.engineFingerprint = [] ∨ m.precision = [])
    "ModelManifest string fields must not be empty"
  refuseIf (m.eosTokenId < 0 ∨ m.padTokenId < 0) "ModelManifest token ids must be non-negative"
  refuseIf (m.maxInputTokens = 0 ∨ m.maxOutputTokens = 0 ∨ m.maxSequenceTokens = 0 ∨
      m.maxBatchSize = 0)
    "ModelManifest limits must be positive"
  refuseIf (m.maxSequenceTokens < m.maxInputTokens ∨ m.maxSequenceTokens < m.maxOutputTokens)
    "ModelManifest token limits exceed max_sequence_tokens"

def WorkerLimits.validate (l : WorkerLimits) : Except Status Unit := do
  refuseIf (l.maxActiveRequests = 0 ∨ l.maxTotalInputTokens = 0 ∨ l.maxReservedOutputTokens = 0 ∨
      l.maxFramePayloadBytes = 0 ∨ l.maxSessionEgressFrames = 0 ∨ l.maxSessionEgressBytes = 0 ∨
      l.maxRequestEgressFrames = 0 ∨ l.maxRequestEgressBytes = 0)
    "WorkerLimits values must be positive"
  refuseIf (l.maxSessionEgressFrames < l.maxRequestEgressFrames ∨
      l.maxSessionEgressBytes < l.maxRequestEgressBytes ∨
      l.maxRequestEgressBytes < l.maxFramePayloadBytes)
    "WorkerLimits hierarchy is inconsistent"

def SamplingParameters.validate (s : SamplingParameters) : Except Status Unit := do
  refuseIf (s.temperature.positive = false) "temperature must be finite and positive"
  refuseIf (s.topK < 0) "top_k must be non-negative"
  refuseIf (s.topP.inUnit = false) "top_p must be in (0, 1]"

def Hello.validate (m : Hello) : Except Status Unit := do
  validateProtocol m.protocolVersion
  refuseIf (m.modelId = [] ∨ m.revision = []) "Hello model_id and revision must not be empty"

def HelloAck.validate (m : HelloAck) : Except Status Unit := do
  validateProtocol m.protocolVersion
  validateEpoch m.workerEpoch
  m.manifest.validate
  m.limits.validate

def validateRequestEnvelope (protocolVersion workerEpoch requestId : ℕ) : Except Status Unit := do
  validateProtocol protocolVersion
  validateEpoch workerEpoch
  validateRequestId requestId

def Submit.validate (m : Submit) : Except Status Unit := do
  validateRequestEnvelope m.protocolVersion m.workerEpoch m.requestId
  refuseIf (m.timeoutMs = some 0) "timeout_ms must be positive when present"
  validateTokenIds m.inputTokenIds true "input_token_ids"
  refuseIf (m.maxNewTokens = 0) "max_new_tokens must be positive"
  m.sampling.validate
  m.endId.toList.forM (fun tokenId => validateTokenId tokenId "end_id")
  m.padId.toList.forM (fun tokenId => validateTokenId tokenId "pad_id")
  m.stopSequences.forM (fun tokenIds => validateTokenIds tokenIds true "stop_sequences")

def Accepted.validate (m : Accepted) : Except Status Unit :=
  validateRequestEnvelope m.protocolVersion m.workerEpoch m.requestId

def Rejected.validate (m : Rejected) : Except Status Unit := do
  validateRequestEnvelope m.protocolVersion m.workerEpoch m.requestId
  validateStatusValue m.status
  refuseIf (m.status.isOk = true) "Rejected status must not be ok"

def Cancel.validate (m : Cancel) : Except Status Unit :=
  validateRequestEnvelope m.protocolVersion m.workerEpoch m.requestId

def TokenDelta.validate (m : TokenDelta) : Except Status Unit := do
  validateRequestEnvelope m.protocolVersion m.workerEpoch m.requestId
  validateTokenIds m.tokenIds true "token_ids"

def Terminal.validate (m : Terminal) : Except Status Unit := do
  validateRequestEnvelope m.protocolVersion m.workerEpoch m.requestId
  validateStatusValue m.status
  refuseIf (m.status.isOk = true ∧ m.finishReason = none) "successful Terminal requires finish_reason"
  refuseIf (m.finishReason.map finishReasonName = some "") "unknown FinishReason value"

def validateProbe (protocolVersion workerEpoch probeId : ℕ) : Except Status Unit := do
  validateProtocol protocolVersion
  validateEpoch workerEpoch
  refuseIf (probeId = 0) "probe_id must be positive"

def Health.validate (m : Health) : Except Status Unit :=
  validateProbe m.protocolVersion m.workerEpoch m.probeId

def Stats.validate (m : Stats) : Except Status Unit := do
  validateProbe m.protocolVersion m.workerEpoch m.probeId
  validateStatusValue m.status
  refuseIf (m.ready ≠ m.status.isOk) "Stats ready and status are inconsistent"
  refuseIf (m.sessionEgressHighWatermarkFrames < m.sessionEgressFrames ∨
      m.sessionEgressHighWatermarkBytes < m.sessionEgressBytes)
    "Stats egress high watermark is below current value"

def Message.validate : Message → Except Status Unit
  | .hello m | .helloAck m | .submit m | .accepted m | .rejected m | .cancel m | .tokenDelta m
  | .terminal m | .health m | .stats m => m.validate

/-! ## What validation accepts -/

theorem refuseIf_eq_ok {condition : Prop} [Decidable condition] {message : String} :
    refuseIf condition message = .ok () ↔ ¬condition := by
  unfold refuseIf
  split
  · next h => simp [h]
  · next h => simp [h]

theorem andThen_eq_ok {first second : Except Status Unit} :
    (first >>= fun _ => second) = .ok () ↔ first = .ok () ∧ second = .ok () := by
  cases first with
  | error | ok => simp [bind, Except.bind]

theorem forM_eq_ok {α : Type*} {check : α → Except Status Unit} {xs : List α} :
    xs.forM check = .ok () ↔ ∀ x ∈ xs, check x = .ok () := by
  induction xs with
  | nil => simp [pure, Except.pure]
  | cons x xs ih =>
    rw [List.forall_mem_cons, ← ih]
    exact andThen_eq_ok

theorem validateStatusValue_ok (status : Status) : validateStatusValue status = .ok () := by
  rw [validateStatusValue, refuseIf_eq_ok]
  cases status.code <;> decide

theorem validateTokenIds_eq_ok {tokenIds : List ℤ} {field : String} :
    validateTokenIds tokenIds true field = .ok () ↔
      tokenIds ≠ [] ∧ ∀ tokenId ∈ tokenIds, 0 ≤ tokenId := by
  rw [validateTokenIds, andThen_eq_ok, refuseIf_eq_ok, forM_eq_ok]
  simp only [validateTokenId, refuseIf_eq_ok, true_and, Int.not_lt]

theorem validateRequestEnvelope_eq_ok {protocolVersion workerEpoch requestId : ℕ} :
    validateRequestEnvelope protocolVersion workerEpoch requestId = .ok () ↔
      protocolVersion = 1 ∧ 0 < workerEpoch ∧ 0 < requestId := by
  simp only [validateRequestEnvelope, validateProtocol, validateEpoch, validateRequestId,
    andThen_eq_ok, refuseIf_eq_ok]
  unfold kProtocolVersion
  omega

theorem Terminal.validate_eq_ok {m : Terminal} :
    m.validate = .ok () ↔
      (m.protocolVersion = 1 ∧ 0 < m.workerEpoch ∧ 0 < m.requestId) ∧
      (m.status.isOk = true → m.finishReason ≠ none) := by
  have hname : m.finishReason.map finishReasonName ≠ some "" := by
    cases m.finishReason with
    | none => simp
    | some reason => cases reason <;> decide
  simp [Terminal.validate, andThen_eq_ok, refuseIf_eq_ok, validateRequestEnvelope_eq_ok,
    validateStatusValue_ok, hname]

theorem validateProbe_eq_ok {protocolVersion workerEpoch probeId : ℕ} :
    validateProbe protocolVersion workerEpoch probeId = .ok () ↔
      protocolVersion = 1 ∧ 0 < workerEpoch ∧ 0 < probeId := by
  simp only [validateProbe, validateProtocol, validateEpoch, andThen_eq_ok, refuseIf_eq_ok]
  unfold kProtocolVersion
  omega

theorem Rejected.validate_eq_ok {m : Rejected} :
    m.validate = .ok () ↔
      (m.protocolVersion = 1 ∧ 0 < m.workerEpoch ∧ 0 < m.requestId) ∧ m.status.isOk = false := by
  simp [Rejected.validate, andThen_eq_ok, refuseIf_eq_ok, validateRequestEnvelope_eq_ok,
    validateStatusValue_ok]

theorem TokenDelta.validate_eq_ok {m : TokenDelta} :
    m.validate = .ok () ↔
      (m.protocolVersion = 1 ∧ 0 < m.workerEpoch ∧ 0 < m.requestId) ∧
      m.tokenIds ≠ [] ∧ ∀ tokenId ∈ m.tokenIds, 0 ≤ tokenId := by
  rw [TokenDelta.validate, andThen_eq_ok, validateRequestEnvelope_eq_ok, validateTokenIds_eq_ok]

theorem Stats.validate_eq_ok {m : Stats} :
    m.validate = .ok () ↔
      (m.protocolVersion = 1 ∧ 0 < m.workerEpoch ∧ 0 < m.probeId) ∧ m.ready = m.status.isOk ∧
      m.sessionEgressFrames ≤ m.sessionEgressHighWatermarkFrames ∧
      m.sessionEgressBytes ≤ m.sessionEgressHighWatermarkBytes := by
  simp only [Stats.validate, andThen_eq_ok, refuseIf_eq_ok, validateProbe_eq_ok,
    validateStatusValue_ok, true_and, ne_eq, Decidable.not_not, not_or, Nat.not_lt]

theorem Submit.validate_eq_ok {m : Submit} :
    m.validate = .ok () ↔
      (m.protocolVersion = 1 ∧ 0 < m.workerEpoch ∧ 0 < m.requestId) ∧ m.timeoutMs ≠ some 0 ∧
      (m.inputTokenIds ≠ [] ∧ ∀ tokenId ∈ m.inputTokenIds, 0 ≤ tokenId) ∧ 0 < m.maxNewTokens ∧
      m.sampling.validate = .ok () ∧ (∀ token ∈ m.endId, 0 ≤ token) ∧
      (∀ token ∈ m.padId, 0 ≤ token) ∧
      ∀ sequence ∈ m.stopSequences, sequence ≠ [] ∧ ∀ token ∈ sequence, 0 ≤ token := by
  simp only [Submit.validate, andThen_eq_ok, refuseIf_eq_ok, validateRequestEnvelope_eq_ok,
    validateTokenIds_eq_ok, forM_eq_ok, validateTokenId, Option.mem_toList, Option.mem_def,
    Int.not_lt, Nat.pos_iff_ne_zero, ne_eq]

theorem ModelManifest.validate_eq_ok {m : ModelManifest} :
    m.validate = .ok () ↔
      (m.modelId ≠ [] ∧ m.revision ≠ [] ∧ m.tokenizerFingerprint ≠ [] ∧
        m.chatTemplateFingerprint ≠ [] ∧ m.engineFingerprint ≠ [] ∧ m.precision ≠ []) ∧
      (0 ≤ m.eosTokenId ∧ 0 ≤ m.padTokenId) ∧
      (0 < m.maxInputTokens ∧ 0 < m.maxOutputTokens ∧ 0 < m.maxSequenceTokens ∧
        0 < m.maxBatchSize) ∧
      m.maxInputTokens ≤ m.maxSequenceTokens ∧ m.maxOutputTokens ≤ m.maxSequenceTokens := by
  simp only [ModelManifest.validate, andThen_eq_ok, refuseIf_eq_ok, not_or, Int.not_lt, Nat.not_lt,
    Nat.pos_iff_ne_zero, ne_eq]

theorem WorkerLimits.validate_eq_ok {l : WorkerLimits} :
    l.validate = .ok () ↔
      (0 < l.maxActiveRequests ∧ 0 < l.maxTotalInputTokens ∧ 0 < l.maxReservedOutputTokens ∧
        0 < l.maxFramePayloadBytes ∧ 0 < l.maxSessionEgressFrames ∧ 0 < l.maxSessionEgressBytes ∧
        0 < l.maxRequestEgressFrames ∧ 0 < l.maxRequestEgressBytes) ∧
      l.maxRequestEgressFrames ≤ l.maxSessionEgressFrames ∧
      l.maxRequestEgressBytes ≤ l.maxSessionEgressBytes ∧
      l.maxFramePayloadBytes ≤ l.maxRequestEgressBytes := by
  simp only [WorkerLimits.validate, andThen_eq_ok, refuseIf_eq_ok, not_or, Nat.not_lt,
    Nat.pos_iff_ne_zero, ne_eq]

theorem HelloAck.validate_eq_ok {m : HelloAck} :
    m.validate = .ok () ↔ m.protocolVersion = 1 ∧ 0 < m.workerEpoch ∧
      m.manifest.validate = .ok () ∧ m.limits.validate = .ok () := by
  simp only [HelloAck.validate, validateProtocol, validateEpoch, andThen_eq_ok, refuseIf_eq_ok,
    ne_eq, Decidable.not_not, Nat.pos_iff_ne_zero]
  rfl

/-! ## What a refusal says -/

def RefusesInvalid (check : Except Status Unit) : Prop :=
  ∀ status, check = .error status → status.code = .invalidInput

namespace RefusesInvalid

theorem ofRefuseIf {condition : Prop} [Decidable condition] {message : String} :
    RefusesInvalid (refuseIf condition message) := by
  intro status h
  unfold refuseIf at h
  split at h
  · cases h
    rfl
  · cases h

theorem andThen {first second : Except Status Unit} (hfirst : RefusesInvalid first)
    (hsecond : RefusesInvalid second) : RefusesInvalid (first >>= fun _ => second) := by
  intro status h
  cases first with
  | error => exact hfirst status h
  | ok => exact hsecond status h

theorem forM {α : Type*} {check : α → Except Status Unit} {xs : List α}
    (hcheck : ∀ x, RefusesInvalid (check x)) : RefusesInvalid (xs.forM check) := by
  induction xs with
  | nil =>
    nofun
  | cons x xs ih => exact (hcheck x).andThen ih

end RefusesInvalid

theorem validateRequestEnvelope_refusesInvalid (protocolVersion workerEpoch requestId : ℕ) :
    RefusesInvalid (validateRequestEnvelope protocolVersion workerEpoch requestId) :=
  .andThen .ofRefuseIf (.andThen .ofRefuseIf .ofRefuseIf)

theorem validateTokenIds_refusesInvalid (tokenIds : List ℤ) (requireNonEmpty : Bool)
    (field : String) : RefusesInvalid (validateTokenIds tokenIds requireNonEmpty field) :=
  .andThen .ofRefuseIf (.forM fun _ => .ofRefuseIf)

theorem validateProbe_refusesInvalid (protocolVersion workerEpoch probeId : ℕ) :
    RefusesInvalid (validateProbe protocolVersion workerEpoch probeId) :=
  .andThen .ofRefuseIf (.andThen .ofRefuseIf .ofRefuseIf)

theorem Message.validate_refusesInvalid (m : Message) : RefusesInvalid m.validate := by
  cases m with
  | hello => exact .andThen .ofRefuseIf .ofRefuseIf
  | helloAck =>
    refine .andThen .ofRefuseIf (.andThen .ofRefuseIf (.andThen ?_ ?_))
    · exact .andThen .ofRefuseIf (.andThen .ofRefuseIf (.andThen .ofRefuseIf .ofRefuseIf))
    · exact .andThen .ofRefuseIf .ofRefuseIf
  | submit =>
    refine .andThen (validateRequestEnvelope_refusesInvalid _ _ _) (.andThen .ofRefuseIf
      (.andThen (validateTokenIds_refusesInvalid _ _ _) (.andThen .ofRefuseIf (.andThen ?_
        (.andThen (.forM fun _ => .ofRefuseIf) (.andThen (.forM fun _ => .ofRefuseIf)
          (.forM fun _ => validateTokenIds_refusesInvalid _ _ _)))))))
    exact .andThen .ofRefuseIf (.andThen .ofRefuseIf .ofRefuseIf)
  | accepted | cancel => exact validateRequestEnvelope_refusesInvalid _ _ _
  | rejected =>
    exact .andThen (validateRequestEnvelope_refusesInvalid _ _ _) (.andThen .ofRefuseIf .ofRefuseIf)
  | tokenDelta =>
    exact .andThen (validateRequestEnvelope_refusesInvalid _ _ _)
      (validateTokenIds_refusesInvalid _ _ _)
  | terminal =>
    exact .andThen (validateRequestEnvelope_refusesInvalid _ _ _)
      (.andThen .ofRefuseIf (.andThen .ofRefuseIf .ofRefuseIf))
  | health => exact validateProbe_refusesInvalid _ _ _
  | stats =>
    exact .andThen (validateProbe_refusesInvalid _ _ _)
      (.andThen .ofRefuseIf (.andThen .ofRefuseIf .ofRefuseIf))

end KimServing.Ipc

import KimServing.Backend.ExecutorRequest
import KimServing.Client.EncoderAgreement
import KimServing.Client.GenerationClient
import KimServing.Gateway.OpenAi
import Mathlib.Data.Rat.Floor

/-! # From a chat request to the worker

The service tokenizes a parsed command, checks it against the manifest and builds the
request that the client sends. Four more validators stand behind it: two of the client,
one of the protocol and one of the backend. All of them accept what the service built,
provided that the prompt has a token and the timeout is a number of milliseconds that the
protocol can carry; the service does not check these two.
-/
namespace KimServing.Gateway
open Library

/-! ## Configuration -/

structure GatewayRuntimeOptions where
  acceptTimeoutSeconds : Double := .finite 10
  requestTimeoutSeconds : Double := .finite 120
  healthTimeoutSeconds : Double := .finite 1
  cancelDrainTimeoutSeconds : Double := .finite 30
  shutdownGraceSeconds : Double := .finite 30
  maxSseDeltaEventsPerRequest : ℤ := 32
  samplingTopK : ℤ := 1
  deriving DecidableEq

def GatewayRuntimeOptions.postInit (o : GatewayRuntimeOptions) : Except GatewayException Unit := do
  let numeric := [o.acceptTimeoutSeconds, o.requestTimeoutSeconds, o.healthTimeoutSeconds,
    o.cancelDrainTimeoutSeconds, o.shutdownGraceSeconds]
  OpenAi.raiseIf (numeric.any (fun value => !value.isFinite || value.atMost (.finite 0)) = true)
    (.valueError (utf8 "Gateway Runtime timeouts must be finite and positive"))
  OpenAi.raiseIf (o.maxSseDeltaEventsPerRequest ≤ 0)
    (.valueError (utf8 "Gateway SSE capacity must be positive"))
  OpenAi.raiseIf (o.samplingTopK ≤ 0 ∨ 2 ^ 31 - 1 < o.samplingTopK)
    (.valueError (utf8 "Gateway sampling_top_k is outside the supported range"))

structure RequestIdAllocator where
  current : ℤ
  positive : 1 ≤ current
  bounded : current < 2 ^ 63

namespace RequestIdAllocator

def init (random : Fin (2 ^ 62)) : RequestIdAllocator where
  current := random + 1
  positive := by omega
  bounded := by
    have hrandom : (random : ℕ) < 2 ^ 62 := random.isLt
    omega

def next (a : RequestIdAllocator) : ℤ × RequestIdAllocator :=
  (a.current,
    if h : 2 ^ 63 ≤ a.current + 1 then ⟨1, by decide, by decide⟩
    else ⟨a.current + 1, by have := a.positive; omega, Int.not_le.mp h⟩)

end RequestIdAllocator

structure Tokenizer where
  encodeChat : List ChatMessage → Except (List UInt8) (List ℤ)
  encodeText : List UInt8 → Except (List UInt8) (List ℤ)

structure GatewayRequest where
  model : List UInt8
  messages : List ChatMessage
  maxNewTokens : ℤ
  streaming : Bool
  temperature : Double := .finite 1
  topP : Double := .finite 1
  randomSeed : ℤ := 0
  stop : List (List UInt8) := []
  traceId : List UInt8 := []
  deriving DecidableEq

def ChatCompletionCommand.toGatewayRequest (command : ChatCompletionCommand)
    (traceId : List UInt8) : GatewayRequest where
  model := command.model
  messages := command.messages
  maxNewTokens := command.maxNewTokens
  streaming := command.stream
  temperature := command.temperature
  topP := command.topP
  randomSeed := command.randomSeed
  stop := command.stop
  traceId := traceId

structure GatewayService where
  tokenizer : Tokenizer
  manifest : Client.ModelManifest
  options : GatewayRuntimeOptions := {}
  requestIds : RequestIdAllocator
  stopping : Bool := false
  ready : Bool := false

/-! ## Submitting -/

def toMilliseconds : Double → Except GatewayException ℤ
  | .finite q => .ok ((q * 1000).num.tdiv (q * 1000).den)
  | .infinite _ => .error .overflowError
  | .nan => .error (.valueError (utf8 "cannot convert float NaN to integer"))

namespace GatewayService

def invalidInput (message : List UInt8) (param : String) : GatewayException :=
  .gatewayError ⟨message, 400, "invalid_request_error", utf8 "invalid_input", some (utf8 param)⟩

def tokenize (result : Except (List UInt8) (List ℤ)) : Except GatewayException (List ℤ) :=
  match result with
  | .ok tokenIds => .ok tokenIds
  | .error text => .error (invalidInput text "messages")

def checkReadiness (s : GatewayService) (readiness : Option GatewayError) :
    Except GatewayException Unit :=
  match s.ready, readiness with
  | false, some e => .error (.gatewayError e)
  | _, _ => .ok ()

/-- `submit` up to the call of the client, with the request that it passes on. Each
rejection is counted under the code of the error. `repr` is the Python text of a string. -/
def buildRequest (repr : List UInt8 → List UInt8) (s : GatewayService)
    (readiness : Option GatewayError) (request : GatewayRequest) :
    Except GatewayException (Client.GenerationRequest × RequestIdAllocator) := do
  OpenAi.raiseIf (s.stopping = true)
    (.gatewayError ⟨utf8 "Gateway is stopping", 503, "server_error", utf8 "not_ready", none⟩)
  OpenAi.raiseIf (request.model ≠ s.manifest.modelId)
    (.gatewayError ⟨utf8 "model " ++ repr request.model ++ utf8 " is not served by this Gateway", 404,
      "invalid_request_error", utf8 "model_not_found", some (utf8 "model")⟩)
  s.checkReadiness readiness
  let inputTokenIds ← tokenize (s.tokenizer.encodeChat request.messages)
  let stopSequences ← request.stop.mapM fun value => tokenize (s.tokenizer.encodeText value)
  OpenAi.raiseIf (stopSequences.any List.isEmpty = true)
    (invalidInput (utf8 "stop sequence must produce at least one Token ID") "stop")
  OpenAi.raiseIf (s.manifest.maxInputTokens < inputTokenIds.length)
    (invalidInput (utf8 "tokenized prompt exceeds max_input_tokens") "messages")
  OpenAi.raiseIf (s.manifest.maxOutputTokens < request.maxNewTokens)
    (invalidInput (utf8 "max_tokens exceeds the model output limit") "max_tokens")
  OpenAi.raiseIf (s.manifest.maxSequenceTokens < inputTokenIds.length + request.maxNewTokens)
    (invalidInput (utf8 "prompt and requested output exceed max_sequence_tokens") "max_tokens")
  let timeoutMs ← toMilliseconds s.options.requestTimeoutSeconds
  return ({
    requestId := s.requestIds.next.1
    inputTokenIds := inputTokenIds
    maxNewTokens := request.maxNewTokens
    timeoutMs := some timeoutMs
    traceId := request.traceId
    streaming := request.streaming
    sampling := {
      temperature := .float request.temperature
      topK := s.options.samplingTopK
      topP := .float request.topP
      randomSeed := request.randomSeed }
    endId := some s.manifest.eosTokenId
    padId := some s.manifest.padTokenId
    stopSequences := stopSequences }, s.requestIds.next.2)

end GatewayService

/-! ## What the checks establish -/

theorem GatewayRuntimeOptions.postInit_ok {o : GatewayRuntimeOptions} (h : o.postInit = .ok ()) :
    0 < o.samplingTopK ∧ o.samplingTopK ≤ 2 ^ 31 - 1 := by
  have hmeets : Meets (fun _ => True) (fun _ => 0 < o.samplingTopK ∧ o.samplingTopK ≤ 2 ^ 31 - 1)
      o.postInit := by
    refine (OpenAi.raiseIf_allowed trivial).bind fun _ _ => ?_
    refine (OpenAi.raiseIf_allowed trivial).bind fun _ _ => ?_
    exact (OpenAi.raiseIf_allowed trivial).mono fun _ htopK => by omega
  exact hmeets.returned h

structure Tokenizer.Bounded (t : Tokenizer) : Prop where
  chat : ∀ messages ids, t.encodeChat messages = .ok ids → ∀ i ∈ ids, 0 ≤ i ∧ i < 2 ^ 31
  text : ∀ value ids, t.encodeText value = .ok ids → ∀ i ∈ ids, 0 ≤ i ∧ i < 2 ^ 31

def CarriedTimeout (seconds : Double) : Prop :=
  ∃ q, seconds = .finite q ∧ 1 ≤ 1000 * q ∧ 1000 * q < 2 ^ 64

theorem tdiv_eq_floor {q : ℚ} (h : 0 ≤ q) : q.num.tdiv q.den = ⌊q⌋ := by
  rw [Int.tdiv_eq_ediv_of_nonneg (Rat.num_nonneg.mpr h)]
  exact Rat.floor_def'.symm

theorem toMilliseconds_carried {seconds : Double} {timeoutMs : ℤ}
    (hconvert : toMilliseconds seconds = .ok timeoutMs) :
    1 ≤ timeoutMs ∧ timeoutMs ≤ 2 ^ 64 - 1 ↔ CarriedTimeout seconds := by
  cases seconds with
  | finite q =>
    cases hconvert
    constructor
    · rintro ⟨hlow, hhigh⟩
      have hpositive : 0 ≤ q * 1000 := by
        by_contra hnegative
        have hnum : 0 ≤ -(q * 1000).num := by
          have hneg := Rat.num_neg.mpr (not_le.mp hnegative)
          omega
        have hdiv := Int.tdiv_nonneg hnum (Int.natCast_nonneg (q * 1000).den)
        rw [Int.neg_tdiv] at hdiv
        omega
      rw [tdiv_eq_floor hpositive] at hlow hhigh
      have hfirst := Int.le_floor.mp hlow
      have hlast := Int.floor_lt.mp (Int.lt_of_le_sub_one hhigh)
      push_cast at hfirst hlast
      exact ⟨q, rfl, by linarith, by linarith⟩
    · rintro ⟨q', heq, hlow, hhigh⟩
      cases heq
      rw [tdiv_eq_floor (by linarith)]
      have hlt : ⌊q * 1000⌋ < 2 ^ 64 := Int.floor_lt.mpr (by push_cast; linarith)
      exact ⟨Int.le_floor.mpr (by push_cast; linarith), by omega⟩
  | infinite | nan => cases hconvert

namespace GatewayService
variable {repr : List UInt8 → List UInt8} {s : GatewayService} {readiness : Option GatewayError}

structure Built (s : GatewayService) (request : GatewayRequest)
    (built : Client.GenerationRequest) : Prop where
  requestId : 1 ≤ built.requestId ∧ built.requestId ≤ 2 ^ 64 - 1
  inputTokenIds : s.tokenizer.encodeChat request.messages = .ok built.inputTokenIds
  maxNewTokens : built.maxNewTokens = request.maxNewTokens
  priority : built.priority = 0
  timeoutMs : ∃ t, toMilliseconds s.options.requestTimeoutSeconds = .ok t ∧ built.timeoutMs = some t
  sampling : built.sampling =
    ⟨.float request.temperature, s.options.samplingTopK, .float request.topP, request.randomSeed⟩
  endId : built.endId = some s.manifest.eosTokenId
  padId : built.padId = some s.manifest.padTokenId
  stopSequences : ∀ ids ∈ built.stopSequences, ids ≠ [] ∧
    ∃ value, s.tokenizer.encodeText value = .ok ids
  input_le : (built.inputTokenIds.length : ℤ) ≤ s.manifest.maxInputTokens
  output_le : built.maxNewTokens ≤ s.manifest.maxOutputTokens
  sequence_le : built.inputTokenIds.length + built.maxNewTokens ≤ s.manifest.maxSequenceTokens

theorem tokenize_meets (result : Except (List UInt8) (List ℤ)) :
    Meets (fun _ => True) (fun ids => result = .ok ids) (tokenize result) := by
  cases result with
  | ok => exact Meets.ok rfl
  | error => exact Meets.error trivial

theorem buildRequest_meets (request : GatewayRequest) :
    Meets (fun _ => True) (fun result => s.Built request result.1)
      (s.buildRequest repr readiness request) := by
  have hreadiness : Meets (fun _ => True) (fun _ => True) (s.checkReadiness readiness) := by
    unfold checkReadiness
    split <;> trivial
  have htext (value : List UInt8) (_ : value ∈ request.stop) :
      Meets (fun _ => True) (fun ids => ∃ value, s.tokenizer.encodeText value = .ok ids)
        (tokenize (s.tokenizer.encodeText value)) :=
    (tokenize_meets _).mono fun ids hids => ⟨value, hids⟩
  refine (OpenAi.raiseIf_allowed trivial).bind fun _ _ => ?_
  refine (OpenAi.raiseIf_allowed trivial).bind fun _ _ => hreadiness.bind fun _ _ => ?_
  refine (tokenize_meets _).bind fun inputTokenIds hinput => ?_
  refine (Meets.mapM htext).bind fun stopSequences hstops => ?_
  refine (OpenAi.raiseIf_allowed trivial).bind fun _ hempty => ?_
  refine (OpenAi.raiseIf_allowed trivial).bind fun _ hinputs => ?_
  refine (OpenAi.raiseIf_allowed trivial).bind fun _ houtputs => ?_
  refine (OpenAi.raiseIf_allowed trivial).bind fun _ hsequence => ?_
  have hconvert : Meets (fun _ => True)
      (fun t => toMilliseconds s.options.requestTimeoutSeconds = .ok t)
      (toMilliseconds s.options.requestTimeoutSeconds) := by
    cases h : toMilliseconds s.options.requestTimeoutSeconds with
    | ok => exact rfl
    | error => trivial
  refine hconvert.bind fun timeoutMs htimeout => ?_
  have hid : s.requestIds.next.1 ≤ 2 ^ 64 - 1 := by
    have hbounded := s.requestIds.bounded
    show s.requestIds.current ≤ 2 ^ 64 - 1
    omega
  refine ⟨⟨s.requestIds.positive, hid⟩, hinput, rfl, rfl, ⟨timeoutMs, htimeout, rfl⟩, rfl, rfl, rfl,
    fun ids hids => ⟨?_, hstops.2 ids hids⟩, Int.not_lt.mp hinputs, Int.not_lt.mp houtputs,
    Int.not_lt.mp hsequence⟩
  rintro rfl
  exact hempty (List.any_eq_true.mpr ⟨[], hids, rfl⟩)

theorem Built.valid {command : ChatCompletionCommand} {traceId : List UInt8}
    {built : Client.GenerationRequest} (hoptions : s.options.postInit = .ok ())
    (hmanifest : Client.validateManifest s.manifest = .ok ())
    (htokenizer : s.tokenizer.Bounded) (hsound : OpenAi.Sound s.manifest command)
    (hprompt : s.tokenizer.encodeChat command.messages ≠ .ok [])
    (htimeout : CarriedTimeout s.options.requestTimeoutSeconds)
    (hbuilt : s.Built (command.toGatewayRequest traceId) built) : built.Valid := by
  obtain ⟨htopK, htopKmax⟩ := GatewayRuntimeOptions.postInit_ok hoptions
  obtain ⟨heos, hpad, hinput, houtput, hsequence⟩ := Client.validateManifest_limits hmanifest
  have hinputIds : s.tokenizer.encodeChat command.messages = .ok built.inputTokenIds :=
    hbuilt.inputTokenIds
  have hnew : built.maxNewTokens = command.maxNewTokens := hbuilt.maxNewTokens
  constructor
  case requestId => exact hbuilt.requestId
  case inputTokenIds =>
    refine ⟨fun hnil => hprompt (hnil ▸ hinputIds), fun i hi => ?_⟩
    have hbound := htokenizer.chat _ _ hinputIds i hi
    omega
  case maxNewTokens =>
    have hbound := hsound.maxNewTokens
    omega
  case priority =>
    rw [hbuilt.priority]
    decide
  case timeoutMs =>
    obtain ⟨t, ht, hsome⟩ := hbuilt.timeoutMs
    intro t' ht'
    rw [hsome] at ht'
    cases ht'
    exact (toMilliseconds_carried ht).mpr htimeout
  case sampling =>
    obtain ⟨q, htemperature, hq, -⟩ := hsound.temperature
    obtain ⟨p, htopP, hp, hp1⟩ := hsound.topP
    have hseed := hsound.randomSeed
    rw [hbuilt.sampling]
    refine ⟨?_, ⟨htopK.le, htopKmax⟩, ?_, ⟨hseed.1, ?_⟩⟩
    · show command.temperature.positive = true
      rw [htemperature]
      exact decide_eq_true hq
    · show command.topP.inUnit = true
      rw [htopP]
      exact decide_eq_true ⟨hp, hp1⟩
    · show command.randomSeed ≤ 2 ^ 64 - 1
      omega
  case endId =>
    rw [hbuilt.endId]
    rintro i ⟨⟩
    exact heos
  case padId =>
    rw [hbuilt.padId]
    rintro i ⟨⟩
    exact hpad
  case stopSequences =>
    intro ids hids
    obtain ⟨hne, value, hvalue⟩ := hbuilt.stopSequences ids hids
    refine ⟨hne, fun i hi => ?_⟩
    have hbound := htokenizer.text value ids hvalue i hi
    omega

end GatewayService

/-! ## The worker -/

def workerManifest (m : Client.ModelManifest) : Ipc.ModelManifest where
  modelId := m.modelId
  revision := m.revision
  tokenizerFingerprint := m.tokenizerFingerprint
  chatTemplateFingerprint := m.chatTemplateFingerprint
  engineFingerprint := m.engineFingerprint
  eosTokenId := m.eosTokenId
  padTokenId := m.padTokenId
  maxInputTokens := m.maxInputTokens.toNat
  maxOutputTokens := m.maxOutputTokens.toNat
  maxSequenceTokens := m.maxSequenceTokens.toNat
  precision := m.precision
  maxBatchSize := m.maxBatchSize.toNat

def runtimeRequest (m : Ipc.Submit) (deadline : ℤ) : GenerationRequest where
  context := ⟨m.requestId, m.priority, deadline, m.traceId⟩
  inputTokenIds := m.inputTokenIds
  maxNewTokens := m.maxNewTokens
  streaming := m.streaming
  sampling := ⟨m.sampling.temperature, m.sampling.topK, m.sampling.topP, m.sampling.randomSeed⟩
  endId := m.endId
  padId := m.padId
  stopSequences := m.stopSequences

theorem convertSubmit_runtimeRequest {c : RuntimeBridgeConfig} {m : Ipc.Submit} {now : ℤ}
    {request : GenerationRequest} (h : convertSubmit c m now = .ok request) :
    ∃ deadline, request = runtimeRequest m deadline := by
  unfold convertSubmit at h
  split_ifs at h
  cases hdeadline : submitDeadline m.timeoutMs now with
  | error =>
    simp [hdeadline] at h
  | ok deadline =>
    rw [hdeadline] at h
    cases h
    exact ⟨deadline, rfl⟩

/-- The backend has nothing against a request but an expired deadline, or sampling parameters
that its own check refuses. -/
def AcceptedInTime (sampling : SamplingParams) (status : Status) : Prop :=
  status = .success ∨ status = .error .timeout "request deadline has expired" ∨
    (sampling.topK ≤ 0 ∨ sampling.topP.inUnit = false ∨ sampling.temperature.positive = false) ∧
      status = .error .invalidInput "invalid sampling parameters"

theorem backend_accepts {built : Client.GenerationRequest} {manifest : Ipc.ModelManifest}
    (hvalid : built.Valid) (hpriority : built.priority = 0)
    (hinput : built.inputTokenIds.length ≤ manifest.maxInputTokens)
    (houtput : built.maxNewTokens ≤ manifest.maxOutputTokens)
    (hsequence : built.inputTokenIds.length + built.maxNewTokens ≤ manifest.maxSequenceTokens)
    (workerEpoch : ℤ) (engineDir : List UInt8) (deadline : ℤ) (sampling : SamplingParams)
    (mailbox : GenerationMailboxConfig) (now : ℤ) :
    AcceptedInTime sampling ((makeBackendConfig engineDir manifest).validateRequest
      { runtimeRequest (Client.submitView built workerEpoch) deadline with sampling }
      (some mailbox) now) := by
  have hnegative {ids : List ℤ} (h : ∀ i ∈ ids, 0 ≤ i ∧ i ≤ 2 ^ 31 - 1) :
      hasNegativeToken ids = false := by
    refine List.any_eq_false.mpr fun i hi => ?_
    simpa using (h i hi).1
  have hspecial {token : Option ℤ} (h : ∀ i ∈ token, 0 ≤ i ∧ i ≤ 2 ^ 31 - 1) :
      token.any (fun i => decide (i < 0)) = false := by
    cases token with
    | none => rfl
    | some i => simpa using (h i rfl).1
  have hid : ¬(some mailbox = none ∨ built.requestId.toNat = 0) := by
    have hpos := hvalid.requestId.1
    rintro (hnone | hzero)
    · cases hnone
    · omega
  have hinputs : ¬(built.inputTokenIds = [] ∨
      manifest.maxInputTokens < built.inputTokenIds.length ∨
      hasNegativeToken built.inputTokenIds = true) := by
    simp [hvalid.inputTokenIds.1, hnegative hvalid.inputTokenIds.2, Nat.not_lt.mpr hinput]
  have hbudget : ¬(manifest.maxSequenceTokens < built.inputTokenIds.length ∨
      built.maxNewTokens.toNat = 0 ∨ manifest.maxOutputTokens < built.maxNewTokens.toNat ∨
      manifest.maxSequenceTokens - built.inputTokenIds.length < built.maxNewTokens.toNat) := by
    have hpos := hvalid.maxNewTokens.1
    omega
  have htokens : ¬(built.endId.any (fun i => decide (i < 0)) = true ∨
      built.padId.any (fun i => decide (i < 0)) = true) := by
    simp [hspecial hvalid.endId, hspecial hvalid.padId]
  have hstop : ¬built.stopSequences.any hasInvalidStopSequence = true := by
    rw [Bool.not_eq_true]
    refine List.any_eq_false.mpr fun ids hids => ?_
    obtain ⟨hne, hbound⟩ := hvalid.stopSequences ids hids
    simp [hasInvalidStopSequence, hne, hnegative hbound]
  unfold TrtLlmBackendConfig.validateRequest
  rw [if_neg (by exact hid), if_neg (by exact not_not.mpr hpriority), if_neg (by exact hinputs),
    if_neg (by exact hbudget)]
  split
  next hsampling => exact Or.inr (Or.inr ⟨hsampling, rfl⟩)
  next =>
    rw [if_neg (by exact htokens), if_neg (by exact hstop)]
    split
    · exact Or.inr (Or.inl rfl)
    · exact Or.inl rfl

/-! ## All validators -/

/-- What the service passes on is accepted everywhere behind it: by the client, against
the manifest of the worker, by the protocol and by the checks of the backend on sizes, tokens
and stop sequences. The worker narrows the sampling parameters to floats, so these stand for
any that the backend may see. -/
structure AcceptedBehind (manifest : Client.ModelManifest) (built : Client.GenerationRequest) :
    Prop where
  client : Client.validateRequest built = .ok ()
  worker : Client.GenerationClient.validateRequestAgainstWorker built (workerManifest manifest) = .ok ()
  protocol : ∀ workerEpoch, 1 ≤ workerEpoch →
    (Client.submitView built workerEpoch).validate = .ok ()
  backend : ∀ workerEpoch engineDir deadline sampling mailbox now,
    AcceptedInTime sampling ((makeBackendConfig engineDir (workerManifest manifest)).validateRequest
      { runtimeRequest (Client.submitView built workerEpoch) deadline with sampling }
      (some mailbox) now)
  converted : ∀ c workerEpoch start request,
    convertSubmit c (Client.submitView built workerEpoch) start = .ok request →
    ∀ engineDir sampling mailbox now,
      AcceptedInTime sampling ((makeBackendConfig engineDir
        (workerManifest manifest)).validateRequest { request with sampling } (some mailbox) now)

/-- All validators accept what the service built exactly if the prompt has a token and the
protocol can carry the timeout. -/
theorem accepted_behind_gateway {repr : List UInt8 → List UInt8} {s : GatewayService} {value : Json}
    {command : ChatCompletionCommand} {readiness : Option GatewayError} {traceId : List UInt8}
    {built : Client.GenerationRequest} {requestIds : RequestIdAllocator}
    (hoptions : s.options.postInit = .ok ())
    (hmanifest : Client.validateManifest s.manifest = .ok ())
    (hcommand : OpenAi.parseChatCompletionRequest value s.manifest = .ok command)
    (htokenizer : s.tokenizer.Bounded)
    (hbuilt : s.buildRequest repr readiness (command.toGatewayRequest traceId) =
      .ok (built, requestIds)) :
    AcceptedBehind s.manifest built ↔ s.tokenizer.encodeChat command.messages ≠ .ok [] ∧
      CarriedTimeout s.options.requestTimeoutSeconds := by
  have hsound := (OpenAi.parseChatCompletionRequest_meets value s.manifest).returned hcommand
  have hfacts : s.Built (command.toGatewayRequest traceId) built :=
    (GatewayService.buildRequest_meets _).returned hbuilt
  constructor
  · intro haccepted
    have hvalid := Client.validateRequest_valid haccepted.client
    obtain ⟨t, ht, hsome⟩ := hfacts.timeoutMs
    refine ⟨fun hnil => hvalid.inputTokenIds.1 ?_,
      (toMilliseconds_carried ht).mp (hvalid.timeoutMs t hsome)⟩
    exact Except.ok.inj (hfacts.inputTokenIds.symm.trans hnil)
  rintro ⟨hprompt, htimeout⟩
  have hvalid := hfacts.valid hoptions hmanifest htokenizer hsound hprompt htimeout
  obtain ⟨-, -, hmaxInput, hmaxOutput, hmaxSequence⟩ := Client.validateManifest_limits hmanifest
  have hinput : built.inputTokenIds.length ≤ (workerManifest s.manifest).maxInputTokens := by
    have hle := hfacts.input_le
    show built.inputTokenIds.length ≤ s.manifest.maxInputTokens.toNat
    omega
  have houtput : built.maxNewTokens ≤ (workerManifest s.manifest).maxOutputTokens := by
    have hle := hfacts.output_le
    show built.maxNewTokens ≤ s.manifest.maxOutputTokens.toNat
    omega
  have hsequence : built.inputTokenIds.length + built.maxNewTokens ≤
      (workerManifest s.manifest).maxSequenceTokens := by
    have hle := hfacts.sequence_le
    show built.inputTokenIds.length + built.maxNewTokens ≤ s.manifest.maxSequenceTokens.toNat
    omega
  have hbackend := backend_accepts hvalid hfacts.priority hinput houtput hsequence
  constructor
  case client => exact Client.validateRequest_of_valid hvalid
  case worker =>
    rw [Client.GenerationClient.validateRequestAgainstWorker, if_neg (Nat.not_lt.mpr hinput),
      if_neg (Int.not_lt.mpr houtput), if_neg (Int.not_lt.mpr hsequence)]
  case protocol => exact fun workerEpoch => Client.submitView_validate hvalid
  case backend => exact hbackend
  case converted =>
    intro c workerEpoch start request hconvert engineDir sampling mailbox now
    obtain ⟨deadline, rfl⟩ := convertSubmit_runtimeRequest hconvert
    exact hbackend workerEpoch engineDir deadline sampling mailbox now

def plainTokenizer : Tokenizer := ⟨fun _ => .ok [1, 2], fun _ => .ok [3]⟩

def sevenService (seconds : Double) : GatewayService where
  tokenizer := plainTokenizer
  manifest := OpenAi.sevenB
  options := { requestTimeoutSeconds := seconds }
  requestIds := .init ⟨0, by decide⟩
  ready := true

theorem plainTokenizer_bounded : plainTokenizer.Bounded := by
  constructor
  · rintro messages ids h
    cases h
    decide
  · rintro value ids h
    cases h
    decide

def clientAnswer (s : GatewayService) (value : Json) : Option (Except Client.PyError Unit) := do
  let command ← (OpenAi.parseChatCompletionRequest value s.manifest).toOption
  let built ← (s.buildRequest id none (command.toGatewayRequest [])).toOption
  return Client.validateRequest built.1

theorem clientAnswer_eq_some {s : GatewayService} {value : Json}
    {answer : Except Client.PyError Unit} (h : clientAnswer s value = some answer) :
    ∃ command built requestIds,
      OpenAi.parseChatCompletionRequest value s.manifest = .ok command ∧
      s.buildRequest id none (command.toGatewayRequest []) = .ok (built, requestIds) ∧
      Client.validateRequest built = answer := by
  obtain ⟨command, hcommand, h⟩ := Option.bind_eq_some_iff.mp h
  obtain ⟨⟨built, requestIds⟩, hbuilt, h⟩ := Option.bind_eq_some_iff.mp h
  cases hparse : OpenAi.parseChatCompletionRequest value s.manifest with
  | error =>
    rw [hparse] at hcommand
    cases hcommand
  | ok =>
    rw [hparse] at hcommand
    cases hcommand
    cases hbuild : s.buildRequest id none (command.toGatewayRequest []) with
    | error =>
      rw [hbuild] at hbuilt
      cases hbuilt
    | ok =>
      rw [hbuild] at hbuilt
      cases hbuilt
      exact ⟨command, built, requestIds, rfl, hbuild, Option.some.inj h⟩

theorem accepted_behind_gateway_seven :
    CarriedTimeout (.finite 120) ∧ ∃ built requestIds command,
      (sevenService (.finite 120)).buildRequest id none
        (ChatCompletionCommand.toGatewayRequest command []) = .ok (built, requestIds) ∧
      AcceptedBehind OpenAi.sevenB built := by
  have hanswer : clientAnswer (sevenService (.finite 120)) (OpenAi.oneMessage (.int 1)) =
      some (.ok ()) := by decide +kernel
  have htimeout : CarriedTimeout (.finite 120) := ⟨120, rfl, by norm_num, by norm_num⟩
  obtain ⟨command, built, requestIds, hcommand, hbuilt, -⟩ := clientAnswer_eq_some hanswer
  have haccepted := (@accepted_behind_gateway id (sevenService (.finite 120)) _ command none [] built
    requestIds (by decide +kernel) (by decide +kernel) hcommand plainTokenizer_bounded hbuilt).mpr
    ⟨fun h => (by cases h), htimeout⟩
  exact ⟨htimeout, built, requestIds, command, hbuilt, haccepted⟩

/-- A timeout of half a millisecond passes the options and fails at the client. -/
theorem short_timeout_refused :
    (sevenService (.finite (1 / 2000))).options.postInit = .ok () ∧
      Client.validateManifest OpenAi.sevenB = .ok () ∧ plainTokenizer.Bounded ∧
      ∃ command built requestIds,
        OpenAi.parseChatCompletionRequest (OpenAi.oneMessage (.int 1)) OpenAi.sevenB = .ok command ∧
        (sevenService (.finite (1 / 2000))).buildRequest id none (command.toGatewayRequest []) =
          .ok (built, requestIds) ∧
        Client.validateRequest built = .error
          (.protocolError (utf8 "timeout_ms is outside the supported integer range")) := by
  have hanswer : clientAnswer (sevenService (.finite (1 / 2000))) (OpenAi.oneMessage (.int 1)) =
      some (.error (.protocolError (utf8 "timeout_ms is outside the supported integer range"))) := by
    decide +kernel
  obtain ⟨command, built, requestIds, hcommand, hbuilt, hrefused⟩ := clientAnswer_eq_some hanswer
  exact ⟨by decide +kernel, by decide +kernel, plainTokenizer_bounded, command, built, requestIds,
    hcommand, hbuilt, hrefused⟩

end KimServing.Gateway

import KimServing.Client.Encode

/-! # The worker understands the client's messages

The dictionary of a valid message is the object that the C++ encoder writes for
the same message, up to the spelling of the two real parameters, so the C++
decoder reads every field of it back.
-/
namespace KimServing.Client
open Library Ipc

variable {workerEpoch : ℤ} {r : GenerationRequest}

def submitView (r : GenerationRequest) (workerEpoch : ℤ) : Ipc.Submit where
  workerEpoch := workerEpoch.toNat
  requestId := r.requestId.toNat
  priority := r.priority
  timeoutMs := r.timeoutMs.map Int.toNat
  traceId := r.traceId
  inputTokenIds := r.inputTokenIds
  maxNewTokens := r.maxNewTokens.toNat
  streaming := r.streaming
  sampling :=
    { temperature := r.sampling.temperature.toDouble
      topK := r.sampling.topK
      topP := r.sampling.topP.toDouble
      randomSeed := r.sampling.randomSeed.toNat }
  endId := r.endId
  padId := r.padId
  stopSequences := r.stopSequences

theorem asDouble_json (number : Number) : asDouble number.json = .float number.toDouble := by
  cases number <;> rfl

theorem intJson_toNat {i : ℤ} (h : 0 ≤ i) : Json.int i = natJson i.toNat := by
  rw [natJson, Int.toNat_of_nonneg h]

theorem respell_submitDict (h : r.Valid) (hepoch : 1 ≤ workerEpoch) :
    respell (submitDict r workerEpoch) = messageJson (.submit (submitView r workerEpoch)) := by
  have htimeout : optionalInteger r.timeoutMs =
      optionalInteger ((r.timeoutMs.map Int.toNat).map Int.ofNat) := by
    cases ht : r.timeoutMs with
    | none => rfl
    | some t =>
      have hpos : 1 ≤ t := (h.timeoutMs t ht).1
      simp only [Option.map_some]
      rw [Int.ofNat_eq_natCast, Int.toNat_of_nonneg (by omega)]
  have hsampling : respellSampling (samplingDict r.sampling) =
      samplingJson (submitView r workerEpoch).sampling := by
    simp [respellSampling, samplingDict, Json.mapField, asDouble_json, samplingJson,
      submitView, intJson_toNat h.sampling.randomSeed.1]
  have hid : 0 ≤ r.requestId := by have := h.requestId.1; omega
  have hnew : 0 ≤ r.maxNewTokens := by have := h.maxNewTokens.1; omega
  simp [respell, submitDict, Json.mapField, messageJson, hsampling, htimeout, submitView,
    intJson_toNat hid, intJson_toNat hnew, intJson_toNat (show 0 ≤ workerEpoch by omega)]

theorem submitView_inRange (h : r.Valid) (hepoch : 1 ≤ workerEpoch ∧ workerEpoch ≤ 2 ^ 64 - 1) :
    (submitView r workerEpoch).InRange where
  envelope := by
    have hid := h.requestId
    refine ⟨show kProtocolVersion < 2 ^ 32 by decide, ?_, ?_⟩
    · show workerEpoch.toNat < 2 ^ 64
      omega
    · show r.requestId.toNat < 2 ^ 64
      omega
  priority := h.priority
  timeoutMs := by
    intro t ht
    obtain ⟨i, hi, rfl⟩ := Option.map_eq_some_iff.mp ht
    have hbound := h.timeoutMs i hi
    omega
  inputTokenIds := fun i hi => by
    have hbound := h.inputTokenIds.2 i hi
    exact ⟨by omega, hbound.2⟩
  maxNewTokens := by
    have hbound := h.maxNewTokens
    show r.maxNewTokens.toNat < 2 ^ 32
    omega
  topK := by
    have hbound := h.sampling.topK
    exact ⟨by show -2 ^ 31 ≤ r.sampling.topK; omega, hbound.2⟩
  randomSeed := by
    have hbound := h.sampling.randomSeed
    show r.sampling.randomSeed.toNat < 2 ^ 64
    omega
  endId := fun i hi => by
    have hbound := h.endId i hi
    exact ⟨by omega, hbound.2⟩
  padId := fun i hi => by
    have hbound := h.padId i hi
    exact ⟨by omega, hbound.2⟩
  stopSequences := fun s hs i hi => by
    have hbound := (h.stopSequences s hs).2 i hi
    exact ⟨by omega, hbound.2⟩

theorem submitView_validate (h : r.Valid) (hepoch : 1 ≤ workerEpoch) :
    (submitView r workerEpoch).validate = .ok () := by
  have hid := h.requestId.1
  have hnew := h.maxNewTokens.1
  have htimeout : r.timeoutMs.map Int.toNat ≠ some 0 := by
    intro hzero
    obtain ⟨t, ht, h0⟩ := Option.map_eq_some_iff.mp hzero
    have hpos := (h.timeoutMs t ht).1
    omega
  have hoptional {token : Option ℤ} (hbound : ∀ i ∈ token, 0 ≤ i ∧ i ≤ 2 ^ 31 - 1)
      {field : String} :
      token.toList.forM (fun tokenId => validateTokenId tokenId field) = .ok () := by
    refine forM_eq_ok.mpr fun i hi => refuseIf_eq_ok.mpr ?_
    have hi := (hbound i (Option.mem_toList.mp hi)).1
    omega
  have htokens {ids : List ℤ} (hne : ids ≠ []) (hbound : ∀ i ∈ ids, 0 ≤ i ∧ i ≤ 2 ^ 31 - 1)
      {field : String} : validateTokenIds ids true field = .ok () :=
    validateTokenIds_eq_ok.mpr ⟨hne, fun i hi => (hbound i hi).1⟩
  have hsampling : (submitView r workerEpoch).sampling.validate = .ok () := by
    have htopK : ¬r.sampling.topK < 0 := by
      have hbound := h.sampling.topK.1
      omega
    simp only [Ipc.SamplingParameters.validate, andThen_eq_ok, refuseIf_eq_ok]
    exact ⟨ne_false_of_eq_true h.sampling.temperature, htopK,
      ne_false_of_eq_true h.sampling.topP⟩
  have henvelope : kProtocolVersion = 1 ∧ 0 < workerEpoch.toNat ∧ 0 < r.requestId.toNat :=
    ⟨rfl, by omega, by omega⟩
  have hpositive : ¬r.maxNewTokens.toNat = 0 := by omega
  simp only [Ipc.Submit.validate, andThen_eq_ok, refuseIf_eq_ok]
  exact ⟨validateRequestEnvelope_eq_ok.mpr henvelope, htimeout,
    htokens h.inputTokenIds.1 h.inputTokenIds.2, hpositive, hsampling, hoptional h.endId,
    hoptional h.padId,
    forM_eq_ok.mpr fun s hs => htokens (h.stopSequences s hs).1 (h.stopSequences s hs).2⟩

theorem decodeValue_submitDict (h : r.Valid) (hepoch : 1 ≤ workerEpoch ∧ workerEpoch ≤ 2 ^ 64 - 1) :
    Ipc.decodeValue (submitDict r workerEpoch) = .ok (.submit (submitView r workerEpoch)) := by
  have hdecode := decodeValue_messageJson (m := .submit (submitView r workerEpoch))
    (submitView_inRange h hepoch) (submitView_validate h hepoch.1)
  rw [decodeValue_of_type (messageJson_type _)] at hdecode
  rw [decodeValue_of_type (show (submitDict r workerEpoch).find "type" = _ from rfl)]
  simp only [messageTypeName, String.reduceEq, reduceIte] at hdecode ⊢
  rwa [← decodeSubmit_respell, respell_submitDict h hepoch.1]

/-- The submission carries the request. The two real parameters arrive as doubles,
which changes an integer temperature when it needs more than 53 bits. -/
structure SubmitMatches (r : GenerationRequest) (workerEpoch : ℤ) (m : Ipc.Submit) : Prop where
  protocolVersion : m.protocolVersion = kProtocolVersion
  workerEpoch : m.workerEpoch = workerEpoch
  requestId : m.requestId = r.requestId
  priority : m.priority = r.priority
  timeoutMs : m.timeoutMs.map Int.ofNat = r.timeoutMs
  traceId : m.traceId = r.traceId
  inputTokenIds : m.inputTokenIds = r.inputTokenIds
  maxNewTokens : m.maxNewTokens = r.maxNewTokens
  streaming : m.streaming = r.streaming
  temperature : m.sampling.temperature = r.sampling.temperature.toDouble
  temperature_exact : (∀ i, r.sampling.temperature = .int i → i < 2 ^ 53) →
    r.sampling.temperature.eqDouble m.sampling.temperature = true
  topK : m.sampling.topK = r.sampling.topK
  topP : r.sampling.topP.eqDouble m.sampling.topP = true
  randomSeed : m.sampling.randomSeed = r.sampling.randomSeed
  endId : m.endId = r.endId
  padId : m.padId = r.padId
  stopSequences : m.stopSequences = r.stopSequences

theorem Number.eqDouble_of_lt {i : ℤ} (h : i.natAbs < 2 ^ 53) :
    (Number.int i).eqDouble (Number.int i).toDouble = true := by
  simp [toDouble, Double.ofInt_of_lt h, eqDouble]

theorem positive_of_ofInt {i : ℤ} (h : (Double.ofInt i).positive = true) : 0 < i := by
  by_contra hle
  rw [Double.ofInt] at h
  split at h
  · have hpos : (0 : ℚ) < i.sign * Double.roundNat i.natAbs := by simpa [Double.positive] using h
    have hint : 0 < i.sign * Double.roundNat i.natAbs := by exact_mod_cast hpos
    rcases Int.lt_or_eq_of_le (Int.not_lt.mp hle) with hneg | rfl
    · rw [Int.sign_eq_neg_one_of_neg hneg] at hint
      omega
    · simp at hint
  · cases h

theorem submitView_matches (h : r.Valid) (hepoch : 1 ≤ workerEpoch) :
    SubmitMatches r workerEpoch (submitView r workerEpoch) where
  protocolVersion := rfl
  workerEpoch := Int.toNat_of_nonneg (by omega)
  requestId := Int.toNat_of_nonneg (by have := h.requestId.1; omega)
  priority := rfl
  timeoutMs := by
    show (r.timeoutMs.map Int.toNat).map Int.ofNat = r.timeoutMs
    cases ht : r.timeoutMs with
    | none => rfl
    | some t =>
      have hpos := (h.timeoutMs t ht).1
      exact congrArg some (Int.toNat_of_nonneg (by omega))
  traceId := rfl
  inputTokenIds := rfl
  maxNewTokens := Int.toNat_of_nonneg (by have := h.maxNewTokens.1; omega)
  streaming := rfl
  temperature := rfl
  temperature_exact := by
    intro hsmall
    show r.sampling.temperature.eqDouble r.sampling.temperature.toDouble = true
    have hpositive := h.sampling.temperature
    cases ht : r.sampling.temperature with
    | int i =>
      rw [ht] at hpositive
      have hpos := positive_of_ofInt hpositive
      have hlt := hsmall i ht
      exact Number.eqDouble_of_lt (by omega)
    | float => simp [Number.toDouble, Number.eqDouble]
  topK := rfl
  topP := by
    show r.sampling.topP.eqDouble r.sampling.topP.toDouble = true
    have hunit := h.sampling.topP
    cases hp : r.sampling.topP with
    | int =>
      rw [hp] at hunit
      obtain rfl := Double.eq_one_of_inUnit_ofInt hunit
      exact Number.eqDouble_of_lt (by decide)
    | float => simp [Number.toDouble, Number.eqDouble]
  randomSeed := Int.toNat_of_nonneg h.sampling.randomSeed.1
  endId := rfl
  padId := rfl
  stopSequences := rfl

/-! ## The other messages -/

theorem validateManifest_hello {manifest : ModelManifest} (h : validateManifest manifest = .ok ()) :
    manifest.modelId ≠ [] ∧ manifest.revision ≠ [] := by
  have hstrings := raiseIf_eq_ok.mp (sequence_eq_ok.mp h).1
  simp only [not_or] at hstrings
  exact ⟨hstrings.1, hstrings.2.1⟩

theorem decodeValue_helloDict {manifest : ModelManifest}
    (h : validateManifest manifest = .ok ()) :
    Ipc.decodeValue (helloDict manifest) =
      .ok (.hello { modelId := manifest.modelId, revision := manifest.revision }) := by
  obtain ⟨hid, hrevision⟩ := validateManifest_hello h
  refine decodeValue_messageJson
    (m := .hello { modelId := manifest.modelId, revision := manifest.revision })
    (show kProtocolVersion < 2 ^ 32 by decide) ?_
  simp [Ipc.Message.validate, Ipc.Hello.validate, andThen_eq_ok, validateProtocol,
    refuseIf_eq_ok, hid, hrevision]

theorem decodeValue_cancelDict {requestId : ℤ} (hid : 1 ≤ requestId ∧ requestId ≤ 2 ^ 64 - 1)
    (hepoch : 1 ≤ workerEpoch ∧ workerEpoch ≤ 2 ^ 64 - 1) :
    Ipc.decodeValue (cancelDict requestId workerEpoch) =
      .ok (.cancel { workerEpoch := workerEpoch.toNat, requestId := requestId.toNat }) := by
  rw [cancelDict, intJson_toNat (show 0 ≤ workerEpoch by omega),
    intJson_toNat (show 0 ≤ requestId by omega)]
  refine decodeValue_messageJson
    (m := .cancel { workerEpoch := workerEpoch.toNat, requestId := requestId.toNat }) ?_
    (validateRequestEnvelope_eq_ok.mpr ⟨rfl, by show 0 < workerEpoch.toNat; omega,
      by show 0 < requestId.toNat; omega⟩)
  exact ⟨show kProtocolVersion < 2 ^ 32 by decide, by show workerEpoch.toNat < 2 ^ 64; omega,
    by show requestId.toNat < 2 ^ 64; omega⟩

theorem decodeValue_healthDict {probeId : ℤ} (hid : 1 ≤ probeId ∧ probeId ≤ 2 ^ 64 - 1)
    (hepoch : 1 ≤ workerEpoch ∧ workerEpoch ≤ 2 ^ 64 - 1) :
    Ipc.decodeValue (healthDict probeId workerEpoch) =
      .ok (.health { workerEpoch := workerEpoch.toNat, probeId := probeId.toNat }) := by
  rw [healthDict, intJson_toNat (show 0 ≤ workerEpoch by omega),
    intJson_toNat (show 0 ≤ probeId by omega)]
  have hvalid : (Ipc.Health.mk kProtocolVersion workerEpoch.toNat probeId.toNat).validate =
      .ok () := by
    have he : ¬workerEpoch.toNat = 0 := by omega
    have hp : ¬probeId.toNat = 0 := by omega
    simp [Ipc.Health.validate, validateProbe, andThen_eq_ok, validateProtocol,
      validateEpoch, refuseIf_eq_ok, he, hp]
  refine decodeValue_messageJson
    (m := .health { workerEpoch := workerEpoch.toNat, probeId := probeId.toNat }) ?_ hvalid
  exact ⟨show kProtocolVersion < 2 ^ 32 by decide, by show workerEpoch.toNat < 2 ^ 64; omega,
    by show probeId.toNat < 2 ^ 64; omega⟩

/-! ## Delivery -/

section
variable (dumps : Json → Except PyError (List UInt8))
variable (parse : List UInt8 → Except (List UInt8) Json)

/-- The worker's parser returns the dictionary that the client printed. -/
def Preserves (message : Json) : Prop :=
  ∀ text, dumps message = .ok text → ∃ value, parse text = .ok value ∧ value.normal = message.normal

variable {dumps parse}

theorem decodePayload_of_preserves {message : Json} {payload : List UInt8}
    (h : Preserves dumps parse message) (hencode : encodeJson dumps message = .ok payload) :
    Ipc.decodePayload parse payload = Ipc.decodeValue message := by
  obtain ⟨text, htext, hprint⟩ := bind_eq_ok.mp hencode
  obtain ⟨value, hparse, hnormal⟩ := h text htext
  have hpayload : payload = text := by
    split at hprint
    · exact (Except.ok.inj hprint).symm
    · cases hprint
  subst hpayload
  rw [Ipc.decodePayload, hparse]
  show Ipc.decodeValue value = _
  rw [← decodeValue_normal, hnormal, decodeValue_normal]

variable (dumps parse)

/-- Every message that the client encodes is read by the worker with the client's
values, where the temperature is taken as a float. -/
theorem client_messages_understood :
    (∀ manifest payload, encodeHello dumps manifest = .ok payload →
      Preserves dumps parse (helloDict manifest) →
      Ipc.decodePayload parse payload =
        .ok (.hello { modelId := manifest.modelId, revision := manifest.revision })) ∧
    (∀ request workerEpoch payload, encodeSubmit dumps request workerEpoch = .ok payload →
      Preserves dumps parse (submitDict request workerEpoch) →
      ∃ m, Ipc.decodePayload parse payload = .ok (.submit m) ∧
        SubmitMatches request workerEpoch m) ∧
    (∀ requestId workerEpoch payload, encodeCancel dumps requestId workerEpoch = .ok payload →
      Preserves dumps parse (cancelDict requestId workerEpoch) →
      ∃ m : Ipc.Cancel, Ipc.decodePayload parse payload = .ok (.cancel m) ∧
        m.protocolVersion = kProtocolVersion ∧ m.workerEpoch = workerEpoch ∧
        m.requestId = requestId) ∧
    (∀ probeId workerEpoch payload, encodeHealth dumps probeId workerEpoch = .ok payload →
      Preserves dumps parse (healthDict probeId workerEpoch) →
      ∃ m : Ipc.Health, Ipc.decodePayload parse payload = .ok (.health m) ∧
        m.protocolVersion = kProtocolVersion ∧ m.workerEpoch = workerEpoch ∧
        m.probeId = probeId) := by
  refine ⟨fun manifest payload hencode hpreserves => ?_,
    fun request workerEpoch payload hencode hpreserves => ?_,
    fun requestId workerEpoch payload hencode hpreserves => ?_,
    fun probeId workerEpoch payload hencode hpreserves => ?_⟩
  · obtain ⟨hvalid, hjson⟩ := sequence_eq_ok.mp hencode
    rw [decodePayload_of_preserves hpreserves hjson, decodeValue_helloDict hvalid]
  · obtain ⟨hvalid, hencode⟩ := sequence_eq_ok.mp hencode
    obtain ⟨hepoch, hjson⟩ := sequence_eq_ok.mp hencode
    have hrequest := validateRequest_valid hvalid
    have hrange := checkInt_eq_ok.mp hepoch
    refine ⟨submitView request workerEpoch, ?_, submitView_matches hrequest hrange.1⟩
    rw [decodePayload_of_preserves hpreserves hjson, decodeValue_submitDict hrequest hrange]
  · obtain ⟨hid, hencode⟩ := sequence_eq_ok.mp hencode
    obtain ⟨hepoch, hjson⟩ := sequence_eq_ok.mp hencode
    have hid := checkInt_eq_ok.mp hid
    have hepoch := checkInt_eq_ok.mp hepoch
    refine ⟨_, (decodePayload_of_preserves hpreserves hjson).trans
      (decodeValue_cancelDict hid hepoch), rfl, ?_, ?_⟩
    · exact Int.toNat_of_nonneg (by omega)
    · exact Int.toNat_of_nonneg (by omega)
  · obtain ⟨hid, hencode⟩ := sequence_eq_ok.mp hencode
    obtain ⟨hepoch, hjson⟩ := sequence_eq_ok.mp hencode
    have hid := checkInt_eq_ok.mp hid
    have hepoch := checkInt_eq_ok.mp hepoch
    refine ⟨_, (decodePayload_of_preserves hpreserves hjson).trans
      (decodeValue_healthDict hid hepoch), rfl, ?_, ?_⟩
    · exact Int.toNat_of_nonneg (by omega)
    · exact Int.toNat_of_nonneg (by omega)

end

def preciseRequest : GenerationRequest :=
  { requestId := 7, inputTokenIds := [5], maxNewTokens := 1, timeoutMs := some 100
    sampling := { temperature := .int (2 ^ 53 + 1) } }

def preciseText : List UInt8 :=
  utf8 "\x7b\"type\":\"submit\",\"protocol_version\":1,\"worker_epoch\":1,\"request_id\":7," ++
  utf8 "\"priority\":0,\"timeout_ms\":100,\"trace_id\":\"\",\"input_token_ids\":[5]," ++
  utf8 "\"max_new_tokens\":1,\"streaming\":true,\"sampling\":\x7b\"temperature\":9007199254740993," ++
  utf8 "\"top_k\":1,\"top_p\":1.0,\"random_seed\":0\x7d,\"end_id\":null,\"pad_id\":null," ++
  utf8 "\"stop_sequences\":[]\x7d"

theorem compactText_preciseRequest :
    @compactText plainJson (submitDict preciseRequest 1) = preciseText := by
  decide +kernel

theorem encodeSubmit_preciseRequest :
    encodeSubmit (fun value => .ok (@compactText plainJson value)) preciseRequest 1 =
      .ok preciseText := by
  have hvalid : validateRequest preciseRequest = .ok () := by decide +kernel
  rw [← compactText_preciseRequest, encodeSubmit, hvalid]
  rfl

/-- The client prints the text, and the worker's parser finds the dictionary in it. -/
theorem client_messages_understood_preciseRequest :
    encodeSubmit (fun value => .ok (@compactText plainJson value)) preciseRequest 1 =
        .ok preciseText ∧
      ∃ m, Ipc.decodePayload (reads preciseText (submitDict preciseRequest 1)) preciseText =
          .ok (.submit m) ∧ SubmitMatches preciseRequest 1 m := by
  refine ⟨encodeSubmit_preciseRequest, (client_messages_understood _ _).2.1 _ _ _
    encodeSubmit_preciseRequest fun text htext => ?_⟩
  obtain rfl : preciseText = text :=
    compactText_preciseRequest.symm.trans (Except.ok.inj htext)
  exact ⟨_, if_pos rfl, rfl⟩

/-- The printed integer arrives intact and is rounded by the worker. -/
theorem precise_temperature_rounded :
    encodeSubmit (fun value => .ok (@compactText plainJson value)) preciseRequest 1 =
        .ok preciseText ∧
      Ipc.decodePayload (reads preciseText (submitDict preciseRequest 1)) preciseText =
        .ok (.submit (submitView preciseRequest 1)) ∧
      preciseRequest.sampling.temperature.eqDouble
        (submitView preciseRequest 1).sampling.temperature = false := by
  refine ⟨encodeSubmit_preciseRequest, ?_, by decide +kernel⟩
  have hread : reads preciseText (submitDict preciseRequest 1) preciseText =
      .ok (submitDict preciseRequest 1) := if_pos rfl
  rw [Ipc.decodePayload, hread]
  decide +kernel

end KimServing.Client

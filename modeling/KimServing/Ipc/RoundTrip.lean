import KimServing.Ipc.DecodeSpec

/-! # Reading an encoded message back

The integer fields of the messages are machine integers. `Message.InRange` says
that every field fits its type; a valid message in range is what the decoder
reads from the object that the encoder writes.
-/
namespace KimServing.Ipc
open Library Option

variable {object : Json} {key : String} {names : List String}

def Signed32 (i : ℤ) : Prop := -2 ^ 31 ≤ i ∧ i ≤ 2 ^ 31 - 1

instance : DecidablePred Signed32 := fun i =>
  inferInstanceAs (Decidable (-2 ^ 31 ≤ i ∧ i ≤ 2 ^ 31 - 1))

structure ModelManifest.InRange (m : ModelManifest) : Prop where
  eosTokenId : Signed32 m.eosTokenId
  padTokenId : Signed32 m.padTokenId
  maxInputTokens : m.maxInputTokens < 2 ^ 32
  maxOutputTokens : m.maxOutputTokens < 2 ^ 32
  maxSequenceTokens : m.maxSequenceTokens < 2 ^ 32
  maxBatchSize : m.maxBatchSize < 2 ^ 32

structure WorkerLimits.InRange (l : WorkerLimits) : Prop where
  maxActiveRequests : l.maxActiveRequests < 2 ^ 32
  maxTotalInputTokens : l.maxTotalInputTokens < 2 ^ 64
  maxReservedOutputTokens : l.maxReservedOutputTokens < 2 ^ 64
  maxFramePayloadBytes : l.maxFramePayloadBytes < 2 ^ 32
  maxSessionEgressFrames : l.maxSessionEgressFrames < 2 ^ 32
  maxSessionEgressBytes : l.maxSessionEgressBytes < 2 ^ 64
  maxRequestEgressFrames : l.maxRequestEgressFrames < 2 ^ 32
  maxRequestEgressBytes : l.maxRequestEgressBytes < 2 ^ 64

def Usage.InRange (u : Usage) : Prop := u.promptTokens < 2 ^ 64 ∧ u.completionTokens < 2 ^ 64

def EnvelopeInRange (protocolVersion workerEpoch requestId : ℕ) : Prop :=
  protocolVersion < 2 ^ 32 ∧ workerEpoch < 2 ^ 64 ∧ requestId < 2 ^ 64

instance (protocolVersion workerEpoch requestId : ℕ) :
    Decidable (EnvelopeInRange protocolVersion workerEpoch requestId) :=
  inferInstanceAs (Decidable (_ ∧ _ ∧ _))

structure Submit.InRange (m : Submit) : Prop where
  envelope : EnvelopeInRange m.protocolVersion m.workerEpoch m.requestId
  priority : Signed32 m.priority
  timeoutMs : ∀ t ∈ m.timeoutMs, t < 2 ^ 64
  inputTokenIds : ∀ i ∈ m.inputTokenIds, Signed32 i
  maxNewTokens : m.maxNewTokens < 2 ^ 32
  topK : Signed32 m.sampling.topK
  randomSeed : m.sampling.randomSeed < 2 ^ 64
  endId : ∀ i ∈ m.endId, Signed32 i
  padId : ∀ i ∈ m.padId, Signed32 i
  stopSequences : ∀ s ∈ m.stopSequences, ∀ i ∈ s, Signed32 i

structure Stats.InRange (m : Stats) : Prop where
  envelope : EnvelopeInRange m.protocolVersion m.workerEpoch m.probeId
  uptimeMs : m.uptimeMs < 2 ^ 64
  activeRequests : m.activeRequests < 2 ^ 64
  reservedInputTokens : m.reservedInputTokens < 2 ^ 64
  reservedOutputTokens : m.reservedOutputTokens < 2 ^ 64
  sessionEgressFrames : m.sessionEgressFrames < 2 ^ 64
  sessionEgressBytes : m.sessionEgressBytes < 2 ^ 64
  highWatermarkFrames : m.sessionEgressHighWatermarkFrames < 2 ^ 64
  highWatermarkBytes : m.sessionEgressHighWatermarkBytes < 2 ^ 64
  rejectedRequests : m.rejectedRequests < 2 ^ 64
  backpressureRequests : m.backpressureRequests < 2 ^ 64
  cancelledRequests : m.cancelledRequests < 2 ^ 64

def Message.InRange : Message → Prop
  | .hello m => m.protocolVersion < 2 ^ 32
  | .helloAck m => m.protocolVersion < 2 ^ 32 ∧ m.workerEpoch < 2 ^ 64 ∧ m.manifest.InRange ∧
      m.limits.InRange
  | .submit m => m.InRange
  | .accepted m | .rejected m
  | .cancel m => EnvelopeInRange m.protocolVersion m.workerEpoch m.requestId
  | .tokenDelta m => EnvelopeInRange m.protocolVersion m.workerEpoch m.requestId ∧
      m.sequenceNo < 2 ^ 64 ∧ ∀ i ∈ m.tokenIds, Signed32 i
  | .terminal m => EnvelopeInRange m.protocolVersion m.workerEpoch m.requestId ∧ m.usage.InRange
  | .health m => EnvelopeInRange m.protocolVersion m.workerEpoch m.probeId
  | .stats m => m.InRange

/-! ## Nested values -/

theorem sameFields_obj {fields : List (String × Json)} (h : fields.map Prod.fst = names) :
    (Json.obj fields).SameFields names := by
  subst h
  exact ⟨rfl, List.dedup_subset _, List.subset_dedup _⟩

theorem find_bind_eq_some {α : Type} {value : Json} {read : Json → Option α} {a : α}
    (hfind : object.find key = some value) (hread : read value = some a) :
    (object.find key >>= read) = some a := by
  rw [hfind, bind_eq_bind, bind_some, hread]

theorem statusValue_statusJson (s : Status) : statusValue (statusJson s) = some s :=
  statusValue_eq_some.mpr ⟨sameFields_obj rfl, rfl, rfl⟩

theorem readUnsigned_of_find {width : ℕ} (hwidth : width ≤ 64) {n : ℕ}
    (hfind : object.find key = some (natJson n)) (hn : n < 2 ^ width) :
    readUnsigned width object key = some n :=
  (readUnsigned_eq_some hwidth).mpr ⟨hfind, hn⟩

theorem exactFields_obj {fields : List (String × Json)} (hnames : names.Nodup)
    (h : fields.map Prod.fst = names) : exactFields (.obj fields) names = true :=
  (exactFields_eq_true hnames).mpr (sameFields_obj h)

theorem usageValue_usageJson {u : Usage} (h : u.InRange) : usageValue (usageJson u) = some u := by
  have hp := readUnsigned_of_find le_rfl (show (usageJson u).find "prompt_tokens" = _ from rfl) h.1
  have hc := readUnsigned_of_find le_rfl (show (usageJson u).find "completion_tokens" = _ from rfl) h.2
  have hf : exactFields (usageJson u) ["prompt_tokens", "completion_tokens"] = true :=
    exactFields_obj (by decide) rfl
  simp [usageValue, hf, hp, hc]

theorem limitsValue_limitsJson {l : WorkerLimits} (h : l.InRange) :
    limitsValue (limitsJson l) = some l := by
  have h32 {key : String} {n : ℕ} := @readUnsigned_of_find (limitsJson l) key 32 (by decide) n
  have h64 {key : String} {n : ℕ} := @readUnsigned_of_find (limitsJson l) key 64 (by decide) n
  exact limitsValue_eq_some.mpr ⟨sameFields_obj rfl, h32 rfl h.maxActiveRequests,
    h64 rfl h.maxTotalInputTokens, h64 rfl h.maxReservedOutputTokens, h32 rfl h.maxFramePayloadBytes,
    h32 rfl h.maxSessionEgressFrames, h64 rfl h.maxSessionEgressBytes,
    h32 rfl h.maxRequestEgressFrames, h64 rfl h.maxRequestEgressBytes⟩

theorem manifestValue_manifestJson {m : ModelManifest} (h : m.InRange) :
    manifestValue (manifestJson m) = some m := by
  have hs {key : String} {t : List UInt8} := (@readString_eq_some (manifestJson m) key t).mpr
  have hi {key : String} {i : ℤ} := (@readSigned32_eq_some (manifestJson m) key i).mpr
  have h32 {key : String} {n : ℕ} := @readUnsigned_of_find (manifestJson m) key 32 (by decide) n
  exact manifestValue_eq_some.mpr ⟨sameFields_obj rfl,
    ⟨hs rfl, hs rfl, hs rfl, hs rfl, hs rfl, hs rfl⟩,
    ⟨hi ⟨rfl, h.eosTokenId⟩, hi ⟨rfl, h.padTokenId⟩⟩, h32 rfl h.maxInputTokens,
    h32 rfl h.maxOutputTokens, h32 rfl h.maxSequenceTokens, h32 rfl h.maxBatchSize⟩

theorem readFiniteDouble_of_find {x : Double} (hfind : object.find key = some (.float x))
    (hx : x.isFinite = true) : readFiniteDouble object key = some x := by
  rw [readFiniteDouble, hfind]
  simp [hx]

theorem samplingValue_samplingJson {s : SamplingParameters} (hvalid : s.validate = .ok ())
    (htopK : Signed32 s.topK) (hseed : s.randomSeed < 2 ^ 64) :
    samplingValue (samplingJson s) = some s := by
  simp only [SamplingParameters.validate, andThen_eq_ok, refuseIf_eq_ok] at hvalid
  have hf : exactFields (samplingJson s) ["temperature", "top_k", "top_p", "random_seed"] = true :=
    exactFields_obj (by decide) rfl
  have htemperature : s.temperature.isFinite = true := by
    cases h : s.temperature <;> simp_all [Double.positive, Double.isFinite]
  have htopP : s.topP.isFinite = true := by
    cases h : s.topP <;> simp_all [Double.inUnit, Double.isFinite]
  have hx {key : String} {x : Double} := @readFiniteDouble_of_find (samplingJson s) key x
  have hk : readSigned32 (samplingJson s) "top_k" = some s.topK :=
    readSigned32_eq_some.mpr ⟨rfl, htopK⟩
  have hr : readUnsigned 64 (samplingJson s) "random_seed" = some s.randomSeed :=
    readUnsigned_of_find le_rfl rfl hseed
  rw [samplingValue, if_neg (by simp [hf]), hx rfl htemperature, hk, hx rfl htopP, hr]
  rfl

theorem readOptionalSigned32_of_find {value : Option ℤ}
    (hfind : object.find key = some (optionalInteger value)) (h : ∀ i ∈ value, Signed32 i) :
    readOptionalSigned32 object key = some value := by
  cases value with
  | none => rw [readOptionalSigned32, hfind]; rfl
  | some i =>
    have hi : signed32Value (.int i) = some i := signed32Value_eq_some.mpr ⟨rfl, h i rfl⟩
    rw [readOptionalSigned32, hfind]
    simp [optionalInteger, hi]

theorem readOptionalUnsigned64_of_value {value : Json} {n : ℕ}
    (hfind : object.find key = some value) (hn : unsignedValue value = some n) :
    readOptionalUnsigned64 object key = some (some n) := by
  simp only [readOptionalUnsigned64, hfind, bind_eq_bind, bind_some]
  split
  · cases hn
  · rw [hn, bind_some]

theorem readOptionalUnsigned64_of_find {value : Option ℕ}
    (hfind : object.find key = some (optionalInteger (value.map Int.ofNat)))
    (h : ∀ n ∈ value, n < 2 ^ 64) : readOptionalUnsigned64 object key = some value := by
  cases value with
  | none => rw [readOptionalUnsigned64, hfind]; rfl
  | some n => exact readOptionalUnsigned64_of_value hfind (unsignedValue_eq_some.mpr ⟨rfl, h n rfl⟩)

theorem mapM_tokenIdsValue {sequences : List (List ℤ)}
    (h : ∀ s ∈ sequences, ∀ i ∈ s, Signed32 i) :
    (sequences.map tokenIdsJson).mapM tokenIdsValue = some sequences := by
  induction sequences with
  | nil => rfl
  | cons s rest ih =>
    obtain ⟨hs, hrest⟩ := List.forall_mem_cons.mp h
    rw [List.map_cons, List.mapM_cons, tokenIdsValue_eq_some.mpr ⟨rfl, hs⟩, ih hrest]
    rfl

/-! ## Messages -/

theorem decodeValue_of_type {name : String} (htype : object.find "type" = some (nameJson name)) :
    decodeValue object =
      if name = "hello" then decodeHello object
      else if name = "hello_ack" then decodeHelloAck object
      else if name = "submit" then decodeSubmit object
      else if name = "accepted" then decodeAccepted object
      else if name = "rejected" then decodeRejected object
      else if name = "cancel" then decodeCancel object
      else if name = "token_delta" then decodeTokenDelta object
      else if name = "terminal" then decodeTerminal object
      else if name = "health" then decodeHealth object
      else if name = "stats" then decodeStats object
      else decodeError "unknown message type" := by
  have hobject : object.isObject = true := by
    cases object <;> first | rfl | cases htype
  have hread : readString object "type" = some (utf8 name) := readString_eq_some.mpr htype
  simp only [decodeValue, hobject, hread, utf8_inj, Bool.true_eq_false, if_false]

theorem readRequestEnvelope_of_find {protocolVersion workerEpoch requestId : ℕ}
    (h : EnvelopeInRange protocolVersion workerEpoch requestId)
    (hversion : object.find "protocol_version" = some (natJson protocolVersion))
    (hepoch : object.find "worker_epoch" = some (natJson workerEpoch))
    (hid : object.find "request_id" = some (natJson requestId)) :
    readRequestEnvelope object = some (protocolVersion, workerEpoch, requestId) := by
  rw [readRequestEnvelope, readUnsigned_of_find (by decide) hversion h.1,
    readUnsigned_of_find (by decide) hepoch h.2.1, readUnsigned_of_find (by decide) hid h.2.2]
  rfl

theorem readStatusJson_of_find {s : Status} (hfind : object.find key = some (statusJson s)) :
    readStatusJson object key = some s :=
  readStatusJson_eq_some.mpr ⟨_, hfind, statusValue_statusJson s⟩

theorem readSubmit_messageJson {m : Submit} (h : m.InRange) (hvalid : m.validate = .ok ()) :
    readSubmit (messageJson (.submit m)) = some m := by
  have hsampling : m.sampling.validate = .ok () := by
    simp only [Submit.validate, andThen_eq_ok] at hvalid
    exact hvalid.2.2.2.2.1
  have hstop : readStopSequences (messageJson (.submit m)) "stop_sequences" =
      some m.stopSequences := mapM_tokenIdsValue h.stopSequences
  have htokens : readTokenIds (messageJson (.submit m)) "input_token_ids" = some m.inputTokenIds :=
    tokenIdsValue_eq_some.mpr ⟨rfl, h.inputTokenIds⟩
  have hread : readSamplingJson (messageJson (.submit m)) "sampling" = some m.sampling :=
    find_bind_eq_some rfl (samplingValue_samplingJson hsampling h.topK h.randomSeed)
  have hpriority : readSigned32 (messageJson (.submit m)) "priority" = some m.priority :=
    readSigned32_eq_some.mpr ⟨rfl, h.priority⟩
  have hmax : readUnsigned 32 (messageJson (.submit m)) "max_new_tokens" = some m.maxNewTokens :=
    readUnsigned_of_find (by decide) rfl h.maxNewTokens
  have hid {key : String} {value : Option ℤ} :=
    @readOptionalSigned32_of_find (messageJson (.submit m)) key value
  rw [readSubmit, readRequestEnvelope_of_find h.envelope rfl rfl rfl, hstop, htokens, hread,
    hpriority, hmax, hid rfl h.endId, hid rfl h.padId, readOptionalUnsigned64_of_find rfl h.timeoutMs]
  rfl

theorem decodeRecord_of_read {α : Type} (hnames : names.Nodup) {fieldsText valuesText : String}
    {read : Json → Option α} {wrap : α → Message} {a : α} (hfields : object.SameFields names)
    (hread : read object = some a) (hvalid : (wrap a).validate = .ok ()) :
    decodeRecord names fieldsText valuesText read wrap object = .ok (wrap a) :=
  (decodeRecord_eq_ok hnames).mpr ⟨hfields, a, hread, hvalid, rfl⟩

theorem readHelloAck_messageJson {m : HelloAck} (h : (Message.helloAck m).InRange) :
    readHelloAck (messageJson (.helloAck m)) = some m := by
  obtain ⟨hversion, hepoch, hmanifest, hlimits⟩ := h
  have hv : readUnsigned 32 (messageJson (.helloAck m)) "protocol_version" = some m.protocolVersion :=
    readUnsigned_of_find (by decide) rfl hversion
  have he : readUnsigned 64 (messageJson (.helloAck m)) "worker_epoch" = some m.workerEpoch :=
    readUnsigned_of_find (by decide) rfl hepoch
  have hm : readManifestJson (messageJson (.helloAck m)) "manifest" = some m.manifest :=
    find_bind_eq_some rfl (manifestValue_manifestJson hmanifest)
  have hl : readLimitsJson (messageJson (.helloAck m)) "limits" = some m.limits :=
    find_bind_eq_some rfl (limitsValue_limitsJson hlimits)
  rw [readHelloAck, hv, he, hm, hl]
  rfl

theorem readTokenDelta_messageJson {m : TokenDelta} (h : (Message.tokenDelta m).InRange) :
    readTokenDelta (messageJson (.tokenDelta m)) = some m := by
  obtain ⟨henvelope, hsequence, htokens⟩ := h
  have hs : readUnsigned 64 (messageJson (.tokenDelta m)) "sequence_no" = some m.sequenceNo :=
    readUnsigned_of_find (by decide) rfl hsequence
  have ht : readTokenIds (messageJson (.tokenDelta m)) "token_ids" = some m.tokenIds :=
    tokenIdsValue_eq_some.mpr ⟨rfl, htokens⟩
  rw [readTokenDelta, readRequestEnvelope_of_find henvelope rfl rfl rfl, hs, ht]
  rfl

theorem readHealth_messageJson {m : Health} (h : (Message.health m).InRange) :
    readHealth (messageJson (.health m)) = some m := by
  have hv : readUnsigned 32 (messageJson (.health m)) "protocol_version" = some m.protocolVersion :=
    readUnsigned_of_find (by decide) rfl h.1
  have he : readUnsigned 64 (messageJson (.health m)) "worker_epoch" = some m.workerEpoch :=
    readUnsigned_of_find (by decide) rfl h.2.1
  have hp : readUnsigned 64 (messageJson (.health m)) "probe_id" = some m.probeId :=
    readUnsigned_of_find (by decide) rfl h.2.2
  rw [readHealth, hv, he, hp]
  rfl

theorem readStats_messageJson {m : Stats} (h : m.InRange) :
    readStats (messageJson (.stats m)) = some m := by
  have h64 {key : String} {n : ℕ} := @readUnsigned_of_find (messageJson (.stats m)) key 64 (by decide) n
  exact readStats_eq_some.mpr ⟨⟨readUnsigned_of_find (by decide) rfl h.envelope.1,
      h64 rfl h.envelope.2.1, h64 rfl h.envelope.2.2, rfl, readStatusJson_of_find rfl⟩,
    ⟨h64 rfl h.uptimeMs, h64 rfl h.activeRequests, h64 rfl h.reservedInputTokens,
      h64 rfl h.reservedOutputTokens⟩,
    ⟨h64 rfl h.sessionEgressFrames, h64 rfl h.sessionEgressBytes, h64 rfl h.highWatermarkFrames,
      h64 rfl h.highWatermarkBytes⟩,
    h64 rfl h.rejectedRequests, h64 rfl h.backpressureRequests, h64 rfl h.cancelledRequests⟩

theorem decodeTerminal_messageJson {m : Terminal} (h : (Message.terminal m).InRange)
    (hvalid : m.validate = .ok ()) :
    decodeTerminal (messageJson (.terminal m)) = .ok (.terminal m) :=
  decodeTerminal_eq_ok.mpr ⟨sameFields_obj rfl, m.protocolVersion, m.workerEpoch, m.requestId,
    m.status, m.usage, m.finishReason, readRequestEnvelope_of_find h.1 rfl rfl rfl,
    ⟨_, rfl, statusValue_statusJson m.status⟩, ⟨_, rfl, usageValue_usageJson h.2⟩, rfl, hvalid, rfl⟩

theorem messageJson_type (m : Message) :
    (messageJson m).find "type" = some (nameJson (messageTypeName m)) := by
  cases m <;> rfl

theorem decodeValue_messageJson {m : Message} (hrange : m.InRange) (hvalid : m.validate = .ok ()) :
    decodeValue (messageJson m) = .ok m := by
  rw [decodeValue_of_type (messageJson_type m)]
  cases m with simp only [messageTypeName, String.reduceEq, reduceIte]
  | hello m =>
    refine decodeRecord_of_read (by decide) (sameFields_obj rfl) ?_ hvalid
    have hv : readUnsigned 32 (messageJson (.hello m)) "protocol_version" = some m.protocolVersion :=
      readUnsigned_of_find (by decide) rfl hrange
    rw [readHello, hv]
    rfl
  | helloAck =>
    exact decodeRecord_of_read (by decide) (sameFields_obj rfl) (readHelloAck_messageJson hrange) hvalid
  | submit =>
    exact decodeRecord_of_read (by decide) (sameFields_obj rfl)
      (readSubmit_messageJson hrange hvalid) hvalid
  | accepted =>
    refine decodeRecord_of_read (by decide) (sameFields_obj rfl) ?_ hvalid
    rw [readAccepted, readRequestEnvelope_of_find hrange rfl rfl rfl]
    rfl
  | rejected =>
    refine decodeRecord_of_read (by decide) (sameFields_obj rfl) ?_ hvalid
    rw [readRejected, readRequestEnvelope_of_find hrange rfl rfl rfl, readStatusJson_of_find rfl]
    rfl
  | cancel =>
    refine decodeRecord_of_read (by decide) (sameFields_obj rfl) ?_ hvalid
    rw [readCancel, readRequestEnvelope_of_find hrange rfl rfl rfl]
    rfl
  | tokenDelta =>
    exact decodeRecord_of_read (by decide) (sameFields_obj rfl) (readTokenDelta_messageJson hrange)
      hvalid
  | terminal => exact decodeTerminal_messageJson hrange hvalid
  | health =>
    exact decodeRecord_of_read (by decide) (sameFields_obj rfl) (readHealth_messageJson hrange) hvalid
  | stats =>
    exact decodeRecord_of_read (by decide) (sameFields_obj rfl) (readStats_messageJson hrange) hvalid

end KimServing.Ipc

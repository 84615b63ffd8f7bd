import KimServing.Client.DecoderAgreement
import KimServing.Ipc.PayloadCodec

/-! # Encoding of client messages by the Python side

The encoders validate their arguments, build a dictionary and print it. Integers
of the caller have no width, and a parameter annotated as a float may hold an
integer, which is printed as one. Strings with lone surrogates are representable
but cannot be encoded.
-/
namespace KimServing.Client
open Library Ipc

inductive Number where
  | int (i : ℤ)
  | float (x : Double)
  deriving DecidableEq

namespace Number

def json : Number → Json
  | .int i => .int i
  | .float x => .float x

def toDouble : Number → Double
  | .int i => Double.ofInt i
  | .float x => x

def eqDouble : Number → Double → Bool
  | .int i, .finite q => decide ((i : ℚ) = q)
  | .int _, _ => false
  | .float x, y => decide (x = y)

end Number

structure ModelManifest where
  modelId : List UInt8
  revision : List UInt8
  tokenizerFingerprint : List UInt8
  chatTemplateFingerprint : List UInt8
  engineFingerprint : List UInt8
  eosTokenId : ℤ
  padTokenId : ℤ
  maxInputTokens : ℤ
  maxOutputTokens : ℤ
  maxSequenceTokens : ℤ
  precision : List UInt8
  maxBatchSize : ℤ
  deriving DecidableEq

structure SamplingParameters where
  temperature : Number := .float (.finite 1)
  topK : ℤ := 1
  topP : Number := .float (.finite 1)
  randomSeed : ℤ := 0
  deriving DecidableEq

structure GenerationRequest where
  requestId : ℤ
  inputTokenIds : List ℤ
  maxNewTokens : ℤ
  priority : ℤ := 0
  timeoutMs : Option ℤ := none
  traceId : List UInt8 := []
  streaming : Bool := true
  sampling : SamplingParameters := {}
  endId : Option ℤ := none
  padId : Option ℤ := none
  stopSequences : List (List ℤ) := []
  deriving DecidableEq

/-! ## Validation -/

def checkInt (value : ℤ) (description : String) (minimum : ℤ := 0)
    (maximum : ℤ := 2 ^ 64 - 1) : Except PyError Unit := do
  let _ ← requireInt (.int value) description minimum maximum

def requireFloat (value : Json) (description : String) : Except PyError Double :=
  match value with
  | .int i =>
    -- an integer beyond the range of floats raises in the conversion
    if (Double.ofInt i).isFinite then .ok (Double.ofInt i) else .error .overflowError
  | .float x => if x.isFinite then .ok x else raiseText (description ++ " must be finite")
  | _ => raiseText (description ++ " must be numeric")

def raiseIf (condition : Prop) [Decidable condition] (text : String) : Except PyError Unit :=
  if condition then raiseText text else .ok ()

def validateManifest (manifest : ModelManifest) : Except PyError Unit := do
  raiseIf (manifest.modelId = [] ∨ manifest.revision = [] ∨ manifest.tokenizerFingerprint = [] ∨
      manifest.chatTemplateFingerprint = [] ∨ manifest.engineFingerprint = [] ∨
      manifest.precision = [])
    "ModelManifest string fields must not be empty"
  [manifest.eosTokenId, manifest.padTokenId].forM fun tokenId =>
    checkInt tokenId "manifest token id" 0 (2 ^ 31 - 1)
  [(manifest.maxInputTokens, "max_input_tokens"), (manifest.maxOutputTokens, "max_output_tokens"),
    (manifest.maxSequenceTokens, "max_sequence_tokens"),
    (manifest.maxBatchSize, "max_batch_size")].forM fun item =>
    checkInt item.1 item.2 1 (2 ^ 32 - 1)
  raiseIf (manifest.maxSequenceTokens < manifest.maxInputTokens ∨
      manifest.maxSequenceTokens < manifest.maxOutputTokens)
    "manifest token limits exceed max_sequence_tokens"

def validateSampling (sampling : SamplingParameters) : Except PyError Unit := do
  let temperature ← requireFloat sampling.temperature.json "temperature"
  raiseIf (temperature.positive = false) "temperature must be positive"
  checkInt sampling.topK "top_k" 0 (2 ^ 31 - 1)
  let topP ← requireFloat sampling.topP.json "top_p"
  raiseIf (topP.inUnit = false) "top_p must be in (0, 1]"
  checkInt sampling.randomSeed "random_seed"

def validateRequest (request : GenerationRequest) : Except PyError Unit := do
  checkInt request.requestId "request_id" 1
  raiseIf (request.inputTokenIds = []) "input_token_ids must not be empty"
  request.inputTokenIds.forM fun tokenId => checkInt tokenId "input_token_id" 0 (2 ^ 31 - 1)
  checkInt request.maxNewTokens "max_new_tokens" 1 (2 ^ 32 - 1)
  checkInt request.priority "priority" (-2 ^ 31) (2 ^ 31 - 1)
  request.timeoutMs.toList.forM fun timeout => checkInt timeout "timeout_ms" 1
  -- a string and a boolean pass the two checks that follow by their type
  let _ ← requireString (.str request.traceId) "trace_id" false
  let _ ← requireBool (.bool request.streaming) "streaming"
  validateSampling request.sampling
  [request.endId, request.padId].forM fun token =>
    token.toList.forM fun tokenId => checkInt tokenId "optional token id" 0 (2 ^ 31 - 1)
  request.stopSequences.forM fun sequence => do
    raiseIf (sequence = []) "stop_sequences entries must not be empty"
    sequence.forM fun tokenId => checkInt tokenId "stop token id" 0 (2 ^ 31 - 1)

/-! ## Encoders -/

def helloDict (manifest : ModelManifest) : Json :=
  .obj [("type", nameJson "hello"),
    ("protocol_version", natJson kProtocolVersion),
    ("model_id", .str manifest.modelId),
    ("revision", .str manifest.revision)]

def samplingDict (sampling : SamplingParameters) : Json :=
  .obj [("temperature", sampling.temperature.json), ("top_k", .int sampling.topK),
    ("top_p", sampling.topP.json), ("random_seed", .int sampling.randomSeed)]

def submitDict (request : GenerationRequest) (workerEpoch : ℤ) : Json :=
  .obj [("type", nameJson "submit"),
    ("protocol_version", natJson kProtocolVersion),
    ("worker_epoch", .int workerEpoch),
    ("request_id", .int request.requestId),
    ("priority", .int request.priority),
    ("timeout_ms", optionalInteger request.timeoutMs),
    ("trace_id", .str request.traceId),
    ("input_token_ids", tokenIdsJson request.inputTokenIds),
    ("max_new_tokens", .int request.maxNewTokens),
    ("streaming", .bool request.streaming),
    ("sampling", samplingDict request.sampling),
    ("end_id", optionalInteger request.endId),
    ("pad_id", optionalInteger request.padId),
    ("stop_sequences", .arr (request.stopSequences.map tokenIdsJson))]

def cancelDict (requestId workerEpoch : ℤ) : Json :=
  .obj [("type", nameJson "cancel"),
    ("protocol_version", natJson kProtocolVersion),
    ("worker_epoch", .int workerEpoch),
    ("request_id", .int requestId)]

def healthDict (probeId workerEpoch : ℤ) : Json :=
  .obj [("type", nameJson "health"),
    ("protocol_version", natJson kProtocolVersion),
    ("worker_epoch", .int workerEpoch),
    ("probe_id", .int probeId)]

section
variable (dumps : Json → Except PyError (List UInt8))

/-- `dumps` is the compact printer of the library, which raises on floats that are
not finite; its text cannot be encoded when a string is not UTF-8. -/
def encodeJson (message : Json) : Except PyError (List UInt8) := do
  let text ← dumps message
  if message.printable then .ok text else .error .unicodeEncodeError

def encodeHello (manifest : ModelManifest) : Except PyError (List UInt8) := do
  validateManifest manifest
  encodeJson dumps (helloDict manifest)

def encodeSubmit (request : GenerationRequest) (workerEpoch : ℤ) :
    Except PyError (List UInt8) := do
  validateRequest request
  checkInt workerEpoch "worker_epoch" 1
  encodeJson dumps (submitDict request workerEpoch)

def encodeCancel (requestId workerEpoch : ℤ) : Except PyError (List UInt8) := do
  checkInt requestId "request_id" 1
  checkInt workerEpoch "worker_epoch" 1
  encodeJson dumps (cancelDict requestId workerEpoch)

def encodeHealth (probeId workerEpoch : ℤ) : Except PyError (List UInt8) := do
  checkInt probeId "probe_id" 1
  checkInt workerEpoch "worker_epoch" 1
  encodeJson dumps (healthDict probeId workerEpoch)

end

section
variable [JsonLib]

mutual

/-- The text of `json.dumps`, which keeps the order of the fields. -/
def compactText : Json → List UInt8
  | .arr items => Json.bracket 0x5b 0x5d (compactItems items)
  | .obj fields => Json.bracket 0x7b 0x7d ((compactFields fields).map Json.fieldText)
  | value => value.dump

def compactItems : List Json → List (List UInt8)
  | [] => []
  | item :: items => compactText item :: compactItems items

def compactFields : List (String × Json) → List (String × List UInt8)
  | [] => []
  | (key, value) :: fields => (key, compactText value) :: compactFields fields

end

end

/-! ## What validation accepts -/

theorem checkInt_eq_ok {value minimum maximum : ℤ} {description : String} :
    checkInt value description minimum maximum = .ok () ↔ minimum ≤ value ∧ value ≤ maximum := by
  simp only [checkInt, requireInt]
  split
  · next h =>
    simp only [raiseText, raiseError, bind, Except.bind, reduceCtorEq, false_iff]
    omega
  · next h =>
    simp only [bind, Except.bind, pure, Except.pure, true_iff]
    omega

theorem raiseIf_eq_ok {condition : Prop} [Decidable condition] {text : String} :
    raiseIf condition text = .ok () ↔ ¬condition := by
  unfold raiseIf raiseText raiseError
  split <;> simp [*]

theorem requireFloat_eq_ok {number : Number} {description : String} {x : Double} :
    requireFloat number.json description = .ok x ↔
      number.toDouble = x ∧ number.toDouble.isFinite = true := by
  cases number with
  | int =>
    simp only [Number.json, requireFloat, Number.toDouble]
    split <;> simp [*]
  | float =>
    simp only [Number.json, requireFloat, Number.toDouble]
    split <;> simp [raiseText, raiseError, *]

theorem sequence_eq_ok {β : Type} {first : Except PyError Unit} {second : Except PyError β} {b : β} :
    (first >>= fun _ => second) = .ok b ↔ first = .ok () ∧ second = .ok b := by
  cases first <;> simp [bind, Except.bind]

theorem forEach_eq_ok {α : Type} {check : α → Except PyError Unit} {xs : List α} :
    xs.forM check = .ok () ↔ ∀ x ∈ xs, check x = .ok () := by
  induction xs with
  | nil => simp [pure, Except.pure]
  | cons x xs ih =>
    rw [List.forall_mem_cons, ← ih]
    exact sequence_eq_ok

structure SamplingParameters.Valid (s : SamplingParameters) : Prop where
  temperature : s.temperature.toDouble.positive = true
  topK : 0 ≤ s.topK ∧ s.topK ≤ 2 ^ 31 - 1
  topP : s.topP.toDouble.inUnit = true
  randomSeed : 0 ≤ s.randomSeed ∧ s.randomSeed ≤ 2 ^ 64 - 1

theorem validateSampling_valid {s : SamplingParameters} (h : validateSampling s = .ok ()) :
    s.Valid := by
  obtain ⟨t, ht, h⟩ := bind_eq_ok.mp h
  obtain ⟨rfl, -⟩ := requireFloat_eq_ok.mp ht
  obtain ⟨hpositive, h⟩ := sequence_eq_ok.mp h
  obtain ⟨htopK, h⟩ := sequence_eq_ok.mp h
  obtain ⟨p, hp, h⟩ := bind_eq_ok.mp h
  obtain ⟨rfl, -⟩ := requireFloat_eq_ok.mp hp
  obtain ⟨hunit, hseed⟩ := sequence_eq_ok.mp h
  exact ⟨by simpa using raiseIf_eq_ok.mp hpositive, checkInt_eq_ok.mp htopK,
    by simpa using raiseIf_eq_ok.mp hunit, checkInt_eq_ok.mp hseed⟩

structure GenerationRequest.Valid (r : GenerationRequest) : Prop where
  requestId : 1 ≤ r.requestId ∧ r.requestId ≤ 2 ^ 64 - 1
  inputTokenIds : r.inputTokenIds ≠ [] ∧ ∀ i ∈ r.inputTokenIds, 0 ≤ i ∧ i ≤ 2 ^ 31 - 1
  maxNewTokens : 1 ≤ r.maxNewTokens ∧ r.maxNewTokens ≤ 2 ^ 32 - 1
  priority : -2 ^ 31 ≤ r.priority ∧ r.priority ≤ 2 ^ 31 - 1
  timeoutMs : ∀ t ∈ r.timeoutMs, 1 ≤ t ∧ t ≤ 2 ^ 64 - 1
  sampling : r.sampling.Valid
  endId : ∀ i ∈ r.endId, 0 ≤ i ∧ i ≤ 2 ^ 31 - 1
  padId : ∀ i ∈ r.padId, 0 ≤ i ∧ i ≤ 2 ^ 31 - 1
  stopSequences : ∀ s ∈ r.stopSequences, s ≠ [] ∧ ∀ i ∈ s, 0 ≤ i ∧ i ≤ 2 ^ 31 - 1

theorem validateRequest_valid {r : GenerationRequest} (h : validateRequest r = .ok ()) :
    r.Valid := by
  obtain ⟨hid, h⟩ := sequence_eq_ok.mp h
  obtain ⟨hinput, h⟩ := sequence_eq_ok.mp h
  obtain ⟨htokens, h⟩ := sequence_eq_ok.mp h
  obtain ⟨hmaxNew, h⟩ := sequence_eq_ok.mp h
  obtain ⟨hpriority, h⟩ := sequence_eq_ok.mp h
  obtain ⟨htimeout, h⟩ := sequence_eq_ok.mp h
  obtain ⟨-, -, h⟩ := bind_eq_ok.mp h
  obtain ⟨-, -, h⟩ := bind_eq_ok.mp h
  obtain ⟨hsampling, h⟩ := sequence_eq_ok.mp h
  obtain ⟨hoptional, hstop⟩ := sequence_eq_ok.mp h
  simp only [forEach_eq_ok, checkInt_eq_ok, sequence_eq_ok, raiseIf_eq_ok, List.forall_mem_cons,
    Option.mem_toList] at htokens htimeout hoptional hstop
  exact ⟨checkInt_eq_ok.mp hid, ⟨raiseIf_eq_ok.mp hinput, htokens⟩, checkInt_eq_ok.mp hmaxNew,
    checkInt_eq_ok.mp hpriority, htimeout, validateSampling_valid hsampling, hoptional.1,
    hoptional.2.1, hstop⟩

theorem requireFloat_of_isFinite {number : Number} (h : number.toDouble.isFinite = true)
    (description : String) : requireFloat number.json description = .ok number.toDouble :=
  requireFloat_eq_ok.mpr ⟨rfl, h⟩

theorem validateSampling_of_valid {s : SamplingParameters} (h : s.Valid) :
    validateSampling s = .ok () := by
  have hpositive := requireFloat_of_isFinite (Double.isFinite_of_positive h.temperature) "temperature"
  have hunit := requireFloat_of_isFinite (Double.isFinite_of_inUnit h.topP) "top_p"
  refine bind_eq_ok.mpr ⟨_, hpositive, sequence_eq_ok.mpr ⟨?_, sequence_eq_ok.mpr ⟨?_, ?_⟩⟩⟩
  · exact raiseIf_eq_ok.mpr (ne_false_of_eq_true h.temperature)
  · exact checkInt_eq_ok.mpr h.topK
  · refine bind_eq_ok.mpr ⟨_, hunit, sequence_eq_ok.mpr ⟨?_, checkInt_eq_ok.mpr h.randomSeed⟩⟩
    exact raiseIf_eq_ok.mpr (ne_false_of_eq_true h.topP)

theorem validateRequest_of_valid {r : GenerationRequest} (h : r.Valid) :
    validateRequest r = .ok () := by
  have hinput : r.inputTokenIds.forM
      (fun tokenId => checkInt tokenId "input_token_id" 0 (2 ^ 31 - 1)) = .ok () :=
    forEach_eq_ok.mpr fun i hi => checkInt_eq_ok.mpr (h.inputTokenIds.2 i hi)
  have htimeout : r.timeoutMs.toList.forM (fun timeout => checkInt timeout "timeout_ms" 1) =
      .ok () :=
    forEach_eq_ok.mpr fun t ht => checkInt_eq_ok.mpr (h.timeoutMs t (Option.mem_toList.mp ht))
  have hoptional {token : Option ℤ} (hbound : ∀ i ∈ token, 0 ≤ i ∧ i ≤ 2 ^ 31 - 1) :
      token.toList.forM (fun tokenId => checkInt tokenId "optional token id" 0 (2 ^ 31 - 1)) =
        .ok () :=
    forEach_eq_ok.mpr fun i hi => checkInt_eq_ok.mpr (hbound i (Option.mem_toList.mp hi))
  refine sequence_eq_ok.mpr ⟨checkInt_eq_ok.mpr h.requestId, ?_⟩
  refine sequence_eq_ok.mpr ⟨raiseIf_eq_ok.mpr h.inputTokenIds.1, ?_⟩
  refine sequence_eq_ok.mpr ⟨hinput, sequence_eq_ok.mpr ⟨checkInt_eq_ok.mpr h.maxNewTokens, ?_⟩⟩
  refine sequence_eq_ok.mpr ⟨checkInt_eq_ok.mpr h.priority, sequence_eq_ok.mpr ⟨htimeout, ?_⟩⟩
  refine bind_eq_ok.mpr ⟨_, rfl, bind_eq_ok.mpr ⟨_, rfl, ?_⟩⟩
  refine sequence_eq_ok.mpr ⟨validateSampling_of_valid h.sampling, sequence_eq_ok.mpr ⟨?_, ?_⟩⟩
  · refine forEach_eq_ok.mpr fun token htoken => ?_
    rcases List.mem_pair.mp htoken with rfl | rfl
    · exact hoptional h.endId
    · exact hoptional h.padId
  · refine forEach_eq_ok.mpr fun sequence hsequence => ?_
    obtain ⟨hne, hbound⟩ := h.stopSequences sequence hsequence
    exact sequence_eq_ok.mpr ⟨raiseIf_eq_ok.mpr hne,
      forEach_eq_ok.mpr fun i hi => checkInt_eq_ok.mpr (hbound i hi)⟩

theorem validateManifest_limits {m : ModelManifest} (h : validateManifest m = .ok ()) :
    (0 ≤ m.eosTokenId ∧ m.eosTokenId ≤ 2 ^ 31 - 1) ∧
      (0 ≤ m.padTokenId ∧ m.padTokenId ≤ 2 ^ 31 - 1) ∧
      1 ≤ m.maxInputTokens ∧ (1 ≤ m.maxOutputTokens ∧ m.maxOutputTokens ≤ 2 ^ 32 - 1) ∧
      1 ≤ m.maxSequenceTokens := by
  obtain ⟨-, h⟩ := sequence_eq_ok.mp h
  obtain ⟨htokens, h⟩ := sequence_eq_ok.mp h
  obtain ⟨hlimits, -⟩ := sequence_eq_ok.mp h
  simp only [forEach_eq_ok, checkInt_eq_ok, List.forall_mem_cons] at htokens hlimits
  exact ⟨htokens.1, htokens.2.1, hlimits.1.1, hlimits.2.1, hlimits.2.2.1.1⟩

end KimServing.Client

import KimServing.Client.Protocol
import KimServing.Ipc.RoundTrip

/-! # The two decoders accept the same messages

Each reading function of either side is described by the value it finds under
its key. With these descriptions both decoders of a message become the same list
of facts about the object, once the checks of the Python side are matched with
the validation that the C++ side runs last.
-/
namespace KimServing.Client
open Library Option Ipc

/-! ## The Python checks -/

variable {value : Json} {description name : String} {requestId : ℕ} {expectedEpoch : Option ℤ}
  {epoch : ℤ} {view : ServerMessage}

variable {m : Ipc.Message}

theorem getItem_eq_ok {item : Json} {key : String} :
    getItem value key = .ok item ↔ value.find key = some item := by
  unfold getItem
  cases value.find key <;> simp

theorem requireExactFields_eq_ok {expected : List String} {u : Unit} :
    requireExactFields value expected description = .ok u ↔ value.SameFields expected := by
  unfold requireExactFields Json.SameFields raiseText raiseError
  split
  · next h =>
    simp only [reduceCtorEq, false_iff]
    rintro ⟨hobject, hsame⟩
    rcases h with h | h
    · cases hobject.symm.trans h
    · exact h hsame
  · next h => simpa using h

theorem requireString_eq_ok {nonEmpty : Bool} {s : List UInt8} :
    requireString value description nonEmpty = .ok s ↔
      value = .str s ∧ (nonEmpty = true → s ≠ []) := by
  cases value with
  | str =>
    simp only [requireString, raiseText, raiseError, Json.str.injEq]
    split
    · next h =>
      simp only [reduceCtorEq, false_iff]
      rintro ⟨rfl, hs⟩
      exact hs h.1 h.2
    · next h =>
      simp only [Except.ok.injEq]
      constructor
      · rintro rfl
        exact ⟨rfl, fun hn hs => h ⟨hn, hs⟩⟩
      · exact fun hs => hs.1
  | _ => simp [requireString, raiseText, raiseError]

theorem requireBool_eq_ok {b : Bool} : requireBool value description = .ok b ↔ value = .bool b := by
  cases value <;> simp [requireBool, raiseText, raiseError]

theorem requireInt_eq_ok {minimum maximum i : ℤ} :
    requireInt value description minimum maximum = .ok i ↔
      value = .int i ∧ minimum ≤ i ∧ i ≤ maximum := by
  cases value with
  | int =>
    simp only [requireInt, raiseText, raiseError, Json.int.injEq]
    split
    · simp only [reduceCtorEq, false_iff]
      omega
    · simp only [Except.ok.injEq]
      omega
  | _ => simp [requireInt, raiseText, raiseError]

theorem requireNat_eq_ok {minimum n : ℕ} {maximum : ℤ} :
    requireNat value description minimum maximum = .ok n ↔
      value = .int n ∧ minimum ≤ n ∧ n ≤ maximum := by
  unfold requireNat
  cases h : requireInt value description minimum maximum with
  | error =>
    simp only [Functor.map, Except.map, reduceCtorEq, false_iff]
    rintro ⟨rfl, hlow, hhigh⟩
    have hok : requireInt (.int n) description minimum maximum = .ok (n : ℤ) :=
      requireInt_eq_ok.mpr ⟨rfl, Int.ofNat_le.mpr hlow, hhigh⟩
    cases h.symm.trans hok
  | ok =>
    obtain ⟨rfl, hlow, hhigh⟩ := requireInt_eq_ok.mp h
    simp only [Functor.map, Except.map, Except.ok.injEq, Json.int.injEq]
    omega

/-! ## Fields in sequence

A field is looked up, checked and bound; these rules turn a sequence of fields
into a sequence of facts. -/

section
variable {β : Type} {value : Json} {key description : String} {b : β}

theorem natField {minimum : ℕ} {maximum : ℤ} {f : ℕ → Except PyError β} :
    (getItem value key >>= fun item => requireNat item description minimum maximum >>= f) = .ok b ↔
      ∃ n : ℕ, (value.find key = some (.int n) ∧ minimum ≤ n ∧ n ≤ maximum) ∧ f n = .ok b := by
  simp only [bind_eq_ok, getItem_eq_ok, requireNat_eq_ok]
  exact ⟨fun ⟨_, hfind, n, ⟨hitem, hn⟩, hf⟩ => ⟨n, ⟨hitem ▸ hfind, hn⟩, hf⟩,
    fun ⟨n, ⟨hfind, hn⟩, hf⟩ => ⟨_, hfind, n, ⟨rfl, hn⟩, hf⟩⟩

theorem wordField {f : ℕ → Except PyError β} :
    (getItem value key >>= fun item => requireNat item description 0 >>= f) = .ok b ↔
      ∃ n : ℕ, (value.find key = some (.int n) ∧ n < 2 ^ 64) ∧ f n = .ok b := by
  have hbound (n : ℕ) : (0 ≤ n ∧ (n : ℤ) ≤ 2 ^ 64 - 1) ↔ n < 2 ^ 64 := by omega
  simp only [natField, hbound]

theorem intField {minimum maximum : ℤ} {f : ℤ → Except PyError β} :
    (getItem value key >>= fun item => requireInt item description minimum maximum >>= f) = .ok b ↔
      ∃ i : ℤ, (value.find key = some (.int i) ∧ minimum ≤ i ∧ i ≤ maximum) ∧ f i = .ok b := by
  simp only [bind_eq_ok, getItem_eq_ok, requireInt_eq_ok]
  exact ⟨fun ⟨_, hfind, i, ⟨hitem, hi⟩, hf⟩ => ⟨i, ⟨hitem ▸ hfind, hi⟩, hf⟩,
    fun ⟨i, ⟨hfind, hi⟩, hf⟩ => ⟨_, hfind, i, ⟨rfl, hi⟩, hf⟩⟩

theorem stringField {nonEmpty : Bool} {f : List UInt8 → Except PyError β} :
    (getItem value key >>= fun item => requireString item description nonEmpty >>= f) = .ok b ↔
      ∃ s, (value.find key = some (.str s) ∧ (nonEmpty = true → s ≠ [])) ∧ f s = .ok b := by
  simp only [bind_eq_ok, getItem_eq_ok, requireString_eq_ok]
  exact ⟨fun ⟨_, hfind, s, ⟨hitem, hs⟩, hf⟩ => ⟨s, ⟨hitem ▸ hfind, hs⟩, hf⟩,
    fun ⟨s, ⟨hfind, hs⟩, hf⟩ => ⟨_, hfind, s, ⟨rfl, hs⟩, hf⟩⟩

theorem itemThen {α : Type} {read : Json → Except PyError α} {f : α → Except PyError β} :
    (getItem value key >>= fun item => read item >>= f) = .ok b ↔
      ∃ item, value.find key = some item ∧ ∃ a, read item = .ok a ∧ f a = .ok b := by
  simp only [bind_eq_ok, getItem_eq_ok]

theorem fieldsThen {expected : List String} {f : Unit → Except PyError β} :
    (requireExactFields value expected description >>= f) = .ok b ↔
      value.SameFields expected ∧ f () = .ok b := by
  simp only [bind_eq_ok, requireExactFields_eq_ok]
  exact ⟨fun ⟨u, h, hf⟩ => ⟨h, hf⟩, fun ⟨h, hf⟩ => ⟨(), h, hf⟩⟩

end

theorem requireProtocol_eq_ok {u : Unit} : requireProtocol value = .ok u ↔ value = .int 1 := by
  simp only [requireProtocol, bind_eq_ok, requireNat_eq_ok]
  constructor
  · rintro ⟨n, ⟨rfl, -⟩, h⟩
    split at h
    · cases h
    · next hn =>
      have hone : n = 1 := by simpa [kProtocolVersion] using hn
      rw [hone]
      rfl
  · rintro rfl
    exact ⟨1, ⟨rfl, by omega, by omega⟩, by simp [kProtocolVersion]⟩

theorem requireEpoch_eq_ok {n : ℕ} :
    requireEpoch value expectedEpoch = .ok n ↔
      value = .int n ∧ 0 < n ∧ n < 2 ^ 64 ∧ ∀ e, expectedEpoch = some e → e = n := by
  simp only [requireEpoch, bind_eq_ok, requireNat_eq_ok]
  constructor
  · rintro ⟨m, ⟨rfl, hlow, hhigh⟩, h⟩
    split at h
    · cases h
    · next hne =>
      cases h
      refine ⟨rfl, by omega, by omega, ?_⟩
      rintro e rfl
      simpa using hne
  · rintro ⟨rfl, hlow, hhigh, he⟩
    refine ⟨n, ⟨rfl, by omega, by omega⟩, if_neg ?_⟩
    rintro ⟨hsome, hne⟩
    obtain ⟨e, rfl⟩ := isSome_iff_exists.mp hsome
    exact hne (congrArg some (he e rfl))

/-! ## Nested values -/

def viewStatus (s : KimServing.Status) : Status := ⟨utf8 (statusCodeName s.code), s.message⟩

theorem viewStatus_isOk (s : KimServing.Status) : (viewStatus s).isOk = s.isOk := by
  have hname : utf8 (statusCodeName s.code) = utf8 "ok" ↔ s.code = .ok := by
    rw [utf8_inj]
    exact statusCodeName_injective.eq_iff (b := .ok)
  rw [Bool.eq_iff_iff, KimServing.Status.isOk_iff, ← hname]
  exact beq_iff_eq

theorem mem_STATUS_CODES {code : List UInt8} :
    code ∈ STATUS_CODES.map utf8 ↔ ∃ c, code = utf8 (statusCodeName c) := by
  have hnames : STATUS_CODES = statusCodes.map statusCodeName := rfl
  rw [hnames, List.map_map, List.mem_map]
  constructor
  · rintro ⟨c, -, rfl⟩
    exact ⟨c, rfl⟩
  · rintro ⟨c, rfl⟩
    exact ⟨c, by cases c <;> decide, rfl⟩

theorem mem_FINISH_REASONS {reason : List UInt8} :
    reason ∈ FINISH_REASONS.map utf8 ↔ ∃ r, reason = utf8 (finishReasonName r) := by
  have hnames : FINISH_REASONS = finishReasons.map finishReasonName := rfl
  rw [hnames, List.map_map, List.mem_map]
  constructor
  · rintro ⟨r, -, rfl⟩
    exact ⟨r, rfl⟩
  · rintro ⟨r, rfl⟩
    exact ⟨r, by cases r <;> decide, rfl⟩

theorem statusCodeName_ne_nil (c : StatusCode) : utf8 (statusCodeName c) ≠ [] := by
  cases c <;> decide

theorem finishReasonName_ne_nil (r : Ipc.FinishReason) : utf8 (finishReasonName r) ≠ [] := by
  cases r <;> decide

theorem statusFromJson_eq_ok {s : Status} :
    statusFromJson value = .ok s ↔ ∃ t, statusValue value = some t ∧ s = viewStatus t := by
  simp only [statusFromJson, fieldsThen, stringField, statusValue_eq_some]
  constructor
  · rintro ⟨hfields, code, ⟨hcode, -⟩, h⟩
    split at h
    · cases h
    · next hmem =>
      obtain ⟨c, rfl⟩ := mem_STATUS_CODES.mp (by simpa using hmem)
      obtain ⟨message, ⟨hmessage, -⟩, h⟩ := stringField.mp h
      cases h
      exact ⟨⟨c, message⟩, ⟨hfields, hcode, hmessage⟩, rfl⟩
  · rintro ⟨t, ⟨hfields, hcode, hmessage⟩, rfl⟩
    refine ⟨hfields, _, ⟨hcode, fun _ => statusCodeName_ne_nil t.code⟩, ?_⟩
    rw [if_neg (by simpa using mem_STATUS_CODES.mpr ⟨t.code, rfl⟩)]
    exact stringField.mpr ⟨_, ⟨hmessage, by simp⟩, rfl⟩

theorem usageFromJson_eq_ok {u : Ipc.Usage} :
    usageFromJson value = .ok u ↔ usageValue value = some u := by
  simp only [usageFromJson, usageValue, fieldsThen, wordField,
    ← exactFields_eq_true (show ["prompt_tokens", "completion_tokens"].Nodup by decide)]
  by_cases hfields : exactFields value ["prompt_tokens", "completion_tokens"] = false
  · simp [hfields]
  · rw [if_neg hfields]
    simp only [bind, bind_eq_some_iff, readUnsigned_eq_some le_rfl, pure,
      Except.pure, Option.some.injEq, Except.ok.injEq]
    exact and_iff_right (by simpa using hfields)

theorem manifestFromJson_eq_ok {m : Ipc.ModelManifest} :
    manifestFromJson value = .ok m ↔ manifestValue value = some m ∧ m.validate = .ok () := by
  rw [manifestFromJson, fieldsThen, manifestValue_eq_some, ModelManifest.validate_eq_ok]
  simp only [stringField, intField, natField, readString_eq_some, readSigned32_eq_some,
    readUnsigned_eq_some (show 32 ≤ 64 by decide)]
  constructor
  · rintro ⟨hfields, s₁, ⟨h₁, n₁⟩, s₂, ⟨h₂, n₂⟩, s₃, ⟨h₃, n₃⟩, s₄, ⟨h₄, n₄⟩, s₅, ⟨h₅, n₅⟩,
      i₆, ⟨h₆, l₆, u₆⟩, i₇, ⟨h₇, l₇, u₇⟩, k₈, ⟨h₈, l₈, u₈⟩, k₉, ⟨h₉, l₉, u₉⟩, k₁₀, ⟨h₁₀, l₁₀, u₁₀⟩,
      s₁₁, ⟨h₁₁, n₁₁⟩, k₁₂, ⟨h₁₂, l₁₂, u₁₂⟩, h⟩
    split at h
    · cases h
    · next hbounds =>
      cases h
      refine ⟨⟨hfields, ⟨h₁, h₂, h₃, h₄, h₅, h₁₁⟩, ⟨⟨h₆, ?_, u₆⟩, h₇, ?_, u₇⟩,
        ⟨h₈, ?_⟩, ⟨h₉, ?_⟩, ⟨h₁₀, ?_⟩, h₁₂, ?_⟩, ⟨n₁ trivial, n₂ trivial, n₃ trivial, n₄ trivial, n₅ trivial,
          n₁₁ trivial⟩,
        ⟨l₆, l₇⟩, ⟨l₈, l₉, l₁₀, l₁₂⟩, ?_, ?_⟩ <;> dsimp only <;> omega
  · rintro ⟨⟨hfields, ⟨h₁, h₂, h₃, h₄, h₅, h₁₁⟩, ⟨⟨h₆, -, u₆⟩, h₇, -, u₇⟩, ⟨h₈, u₈⟩, ⟨h₉, u₉⟩,
      ⟨h₁₀, u₁₀⟩, h₁₂, u₁₂⟩, ⟨n₁, n₂, n₃, n₄, n₅, n₁₁⟩, ⟨l₆, l₇⟩, ⟨l₈, l₉, l₁₀, l₁₂⟩, hin, hout⟩
    refine ⟨hfields, _, ⟨h₁, fun _ => n₁⟩, _, ⟨h₂, fun _ => n₂⟩, _, ⟨h₃, fun _ => n₃⟩,
      _, ⟨h₄, fun _ => n₄⟩, _, ⟨h₅, fun _ => n₅⟩, _, ⟨h₆, l₆, u₆⟩, _, ⟨h₇, l₇, u₇⟩,
      _, ⟨h₈, l₈, by omega⟩, _, ⟨h₉, l₉, by omega⟩, _, ⟨h₁₀, l₁₀, by omega⟩,
      _, ⟨h₁₁, fun _ => n₁₁⟩, _, ⟨h₁₂, l₁₂, by omega⟩, ?_⟩
    rw [if_neg (by omega)]
    rfl

theorem limitsFromJson_eq_ok {l : Ipc.WorkerLimits} :
    limitsFromJson value = .ok l ↔ limitsValue value = some l ∧ l.validate = .ok () := by
  rw [limitsFromJson, fieldsThen, limitsValue_eq_some, WorkerLimits.validate_eq_ok]
  simp only [natField, readUnsigned_eq_some (show 32 ≤ 64 by decide),
    readUnsigned_eq_some le_rfl]
  constructor
  · rintro ⟨hfields, k₁, ⟨h₁, l₁, u₁⟩, k₂, ⟨h₂, l₂, u₂⟩, k₃, ⟨h₃, l₃, u₃⟩, k₄, ⟨h₄, l₄, u₄⟩,
      k₅, ⟨h₅, l₅, u₅⟩, k₆, ⟨h₆, l₆, u₆⟩, k₇, ⟨h₇, l₇, u₇⟩, k₈, ⟨h₈, l₈, u₈⟩, h⟩
    split at h
    · cases h
    · next hbounds =>
      cases h
      refine ⟨⟨hfields, ⟨h₁, ?_⟩, ⟨h₂, ?_⟩, ⟨h₃, ?_⟩, ⟨h₄, ?_⟩, ⟨h₅, ?_⟩, ⟨h₆, ?_⟩, ⟨h₇, ?_⟩, h₈, ?_⟩,
        ⟨l₁, l₂, l₃, l₄, l₅, l₆, l₇, l₈⟩, ?_, ?_, ?_⟩ <;> dsimp only <;> omega
  · rintro ⟨⟨hfields, ⟨h₁, u₁⟩, ⟨h₂, u₂⟩, ⟨h₃, u₃⟩, ⟨h₄, u₄⟩, ⟨h₅, u₅⟩, ⟨h₆, u₆⟩, ⟨h₇, u₇⟩, h₈, u₈⟩,
      ⟨l₁, l₂, l₃, l₄, l₅, l₆, l₇, l₈⟩, hframes, hbytes, hpayload⟩
    refine ⟨hfields, _, ⟨h₁, l₁, by omega⟩, _, ⟨h₂, l₂, by omega⟩, _, ⟨h₃, l₃, by omega⟩,
      _, ⟨h₄, l₄, by omega⟩, _, ⟨h₅, l₅, by omega⟩, _, ⟨h₆, l₆, by omega⟩, _, ⟨h₇, l₇, by omega⟩,
      _, ⟨h₈, l₈, by omega⟩, ?_⟩
    rw [if_neg (by omega)]
    rfl

/-! ## Messages -/

def EnvelopeAt (value : Json) (workerEpoch requestId : ℕ) : Prop :=
  value.find "protocol_version" = some (.int 1) ∧
    (value.find "worker_epoch" = some (.int workerEpoch) ∧ 0 < workerEpoch ∧ workerEpoch < 2 ^ 64) ∧
    value.find "request_id" = some (.int requestId) ∧ 0 < requestId ∧ requestId < 2 ^ 64

theorem readRequestEnvelope_valid {protocolVersion workerEpoch : ℕ} :
    readRequestEnvelope value = some (protocolVersion, workerEpoch, requestId) ∧
      (protocolVersion = 1 ∧ 0 < workerEpoch ∧ 0 < requestId) ↔
    protocolVersion = 1 ∧ EnvelopeAt value workerEpoch requestId := by
  simp only [readRequestEnvelope, bind, bind_eq_some_iff,
    readUnsigned_eq_some (show 32 ≤ 64 by decide), readUnsigned_eq_some le_rfl, pure,
    Option.some.injEq, Prod.mk.injEq, EnvelopeAt]
  constructor
  · rintro ⟨⟨v, ⟨hv, -⟩, e, ⟨he, ue⟩, r, ⟨hr, ur⟩, rfl, rfl, rfl⟩, rfl, le, lr⟩
    exact ⟨rfl, hv, ⟨he, le, ue⟩, hr, lr, ur⟩
  · rintro ⟨rfl, hv, ⟨he, le, ue⟩, hr, lr, ur⟩
    exact ⟨⟨1, ⟨hv, by omega⟩, workerEpoch, ⟨he, ue⟩, requestId, ⟨hr, ur⟩, rfl, rfl, rfl⟩, rfl, le, lr⟩

theorem requestEnvelope_eq_ok {expectedEpoch : ℤ} :
    requestEnvelope value expectedEpoch = .ok requestId ↔
      ∃ workerEpoch : ℕ, expectedEpoch = workerEpoch ∧ EnvelopeAt value workerEpoch requestId := by
  simp only [requestEnvelope, bind_eq_ok, getItem_eq_ok, requireProtocol_eq_ok, requireEpoch_eq_ok,
    requireNat_eq_ok, Option.some.injEq, EnvelopeAt]
  constructor
  · rintro ⟨v, hv, -, rfl, e, he, n, ⟨rfl, ln, un, hexpected⟩, r, hr, rfl, lr, ur⟩
    exact ⟨n, hexpected _ rfl, hv, ⟨he, ln, un⟩, hr, lr, by omega⟩
  · rintro ⟨n, rfl, hv, ⟨he, ln, un⟩, hr, lr, ur⟩
    exact ⟨_, hv, (), rfl, _, he, n, ⟨rfl, ln, un, fun _ h => h.symm⟩, _, hr, rfl, lr, by omega⟩

def serverView : Ipc.Message → Option ServerMessage
  | .helloAck m => some (.helloAck ⟨m.workerEpoch, m.manifest, m.limits⟩)
  | .accepted m => some (.accepted m.requestId)
  | .rejected m => some (.rejected m.requestId (viewStatus m.status))
  | .tokenDelta m => some (.tokenDelta m.requestId m.sequenceNo m.tokenIds)
  | .terminal m => some (.terminal ⟨m.requestId, viewStatus m.status,
      m.finishReason.map (fun r => utf8 (finishReasonName r)), m.usage⟩)
  | .stats m => some (.stats ⟨m.probeId, m.ready, viewStatus m.status, m.uptimeMs, m.activeRequests,
      m.reservedInputTokens, m.reservedOutputTokens, m.sessionEgressFrames, m.sessionEgressBytes,
      m.sessionEgressHighWatermarkFrames, m.sessionEgressHighWatermarkBytes, m.rejectedRequests,
      m.backpressureRequests, m.cancelledRequests⟩)
  | _ => none

def serverEpoch : Ipc.Message → ℕ
  | .helloAck m | .accepted m | .rejected m | .tokenDelta m | .terminal m
  | .stats m => m.workerEpoch
  | _ => 0

/-- The decoders of one message type agree when the Python side expects the epoch of
the message. -/
def Agree (python : Json → ℤ → Except PyError ServerMessage)
    (cpp : Json → Except KimServing.Status Ipc.Message) : Prop :=
  ∀ value epoch view, python value epoch = .ok view ↔
    ∃ m, cpp value = .ok m ∧ serverView m = some view ∧ epoch = serverEpoch m

theorem accepted_agree : Agree decodeAccepted Ipc.decodeAccepted := by
  intro value epoch view
  rw [decodeAccepted, fieldsThen, Ipc.decodeAccepted]
  simp only [bind_eq_ok, requestEnvelope_eq_ok, pure, Except.pure, Except.ok.injEq,
    decodeRecord_eq_ok (show ["type", "protocol_version", "worker_epoch", "request_id"].Nodup by
      decide)]
  constructor
  · rintro ⟨hfields, r, ⟨e, rfl, henvelope⟩, rfl⟩
    obtain ⟨hread, hvalid⟩ := readRequestEnvelope_valid.mpr ⟨rfl, henvelope⟩
    refine ⟨.accepted ⟨1, e, r⟩, ⟨hfields, ⟨1, e, r⟩, ?_, ?_, rfl⟩, rfl, rfl⟩
    · simp [readAccepted, hread]
    · exact validateRequestEnvelope_eq_ok.mpr hvalid
  · rintro ⟨m, ⟨hfields, a, hread, hvalid, rfl⟩, hview, rfl⟩
    simp only [readAccepted, bind, bind_eq_some_iff, pure, Option.some.injEq] at hread
    obtain ⟨⟨v, e, r⟩, hread, rfl⟩ := hread
    obtain ⟨-, henvelope⟩ := readRequestEnvelope_valid.mp
      ⟨hread, validateRequestEnvelope_eq_ok.mp hvalid⟩
    cases hview
    exact ⟨hfields, r, ⟨e, rfl, henvelope⟩, rfl⟩

theorem rejected_agree : Agree decodeRejected Ipc.decodeRejected := by
  intro value epoch view
  rw [decodeRejected, fieldsThen, Ipc.decodeRejected]
  simp only [itemThen, statusFromJson_eq_ok,
    decodeRecord_eq_ok (show ["type", "protocol_version", "worker_epoch", "request_id",
      "status"].Nodup by decide)]
  constructor
  · rintro ⟨hfields, item, hitem, -, ⟨s, hs, rfl⟩, h⟩
    split at h
    · cases h
    · next hok =>
      obtain ⟨r, hr, h⟩ := bind_eq_ok.mp h
      cases h
      obtain ⟨e, rfl, henvelope⟩ := requestEnvelope_eq_ok.mp hr
      obtain ⟨hread, hvalid⟩ := readRequestEnvelope_valid.mpr ⟨rfl, henvelope⟩
      refine ⟨.rejected ⟨1, e, r, s⟩, ⟨hfields, ⟨1, e, r, s⟩, ?_, ?_, rfl⟩, rfl, rfl⟩
      · simp [readRejected, hread, readStatusJson, hitem, hs]
      · rw [viewStatus_isOk] at hok
        exact Rejected.validate_eq_ok.mpr ⟨hvalid, by simpa using hok⟩
  · rintro ⟨m, ⟨hfields, a, hread, hvalid, rfl⟩, hview, rfl⟩
    simp only [readRejected, readStatusJson, bind, bind_eq_some_iff, pure,
      Option.some.injEq] at hread
    obtain ⟨⟨v, e, r⟩, hread, s, ⟨item, hitem, hs⟩, rfl⟩ := hread
    obtain ⟨henv, hok⟩ := Rejected.validate_eq_ok.mp hvalid
    obtain ⟨-, henvelope⟩ := readRequestEnvelope_valid.mp ⟨hread, henv⟩
    cases hview
    refine ⟨hfields, item, hitem, _, ⟨s, hs, rfl⟩, ?_⟩
    rw [if_neg (by rw [viewStatus_isOk]; simpa using hok)]
    exact bind_eq_ok.mpr ⟨r, requestEnvelope_eq_ok.mpr ⟨e, rfl, henvelope⟩, rfl⟩

theorem tokens_eq_ok {tokenIds : List ℤ} :
    (tokenValues value >>= fun values =>
      values.mapM (fun token => requireInt token "token_id" 0 (2 ^ 31 - 1))) = .ok tokenIds ↔
      tokenIdsValue value = some tokenIds ∧ tokenIds ≠ [] ∧ ∀ i ∈ tokenIds, 0 ≤ i := by
  have hmap : ∀ (items : List Json) (tokenIds : List ℤ),
      items.mapM (fun token => requireInt token "token_id" 0 (2 ^ 31 - 1)) = .ok tokenIds ↔
        items = tokenIds.map Json.int ∧ ∀ i ∈ tokenIds, 0 ≤ i ∧ i ≤ 2 ^ 31 - 1 := by
    intro items
    induction items with
    | nil => intro tokenIds; cases tokenIds <;> simp [pure, Except.pure]
    | cons item items ih =>
      intro tokenIds
      simp only [List.mapM_cons, bind_eq_ok, requireInt_eq_ok, ih, pure, Except.pure,
        Except.ok.injEq]
      exact cons_eq_map_int
  simp only [bind_eq_ok, hmap, tokenIdsValue_eq_some]
  constructor
  · rintro ⟨values, hvalues, rfl, hall⟩
    match value, hvalues with
    | .arr (item :: items), hvalues =>
      simp only [tokenValues, Except.ok.injEq] at hvalues
      refine ⟨⟨by rw [tokenIdsJson, hvalues], fun i hi => ⟨?_, (hall i hi).2⟩⟩, ?_,
        fun i hi => (hall i hi).1⟩
      · have := (hall i hi).1
        omega
      · rintro rfl
        simp at hvalues
  · rintro ⟨⟨rfl, hbounds⟩, hne, hpos⟩
    refine ⟨_, ?_, rfl, fun i hi => ⟨hpos i hi, (hbounds i hi).2⟩⟩
    cases tokenIds with
    | nil => exact absurd rfl hne
    | cons => rfl

theorem tokenDelta_agree : Agree decodeTokenDelta Ipc.decodeTokenDelta := by
  intro value epoch view
  rw [decodeTokenDelta, fieldsThen, Ipc.decodeTokenDelta]
  simp only [itemThen, decodeRecord_eq_ok (show ["type", "protocol_version", "worker_epoch",
    "request_id", "sequence_no", "token_ids"].Nodup by decide)]
  constructor
  · rintro ⟨hfields, item, hitem, values, hvalues, h⟩
    obtain ⟨tokenIds, htokens, h⟩ := bind_eq_ok.mp h
    obtain ⟨r, hr, h⟩ := bind_eq_ok.mp h
    obtain ⟨n, hn, h⟩ := wordField.mp h
    cases h
    obtain ⟨e, rfl, henvelope⟩ := requestEnvelope_eq_ok.mp hr
    obtain ⟨hids, hne, hpos⟩ := tokens_eq_ok.mp (bind_eq_ok.mpr ⟨values, hvalues, htokens⟩)
    obtain ⟨hread, hvalid⟩ := readRequestEnvelope_valid.mpr ⟨rfl, henvelope⟩
    have hseq := (readUnsigned_eq_some le_rfl).mpr hn
    refine ⟨.tokenDelta ⟨1, e, r, n, tokenIds⟩, ⟨hfields, ⟨1, e, r, n, tokenIds⟩, ?_, ?_, rfl⟩, rfl,
      rfl⟩
    · simp [readTokenDelta, hread, hseq, readTokenIds, hitem, hids]
    · exact TokenDelta.validate_eq_ok.mpr ⟨hvalid, hne, hpos⟩
  · rintro ⟨m, ⟨hfields, a, hread, hvalid, rfl⟩, hview, rfl⟩
    simp only [readTokenDelta, readTokenIds, bind, bind_eq_some_iff, pure,
      Option.some.injEq, readUnsigned_eq_some le_rfl] at hread
    obtain ⟨⟨v, e, r⟩, hread, n, hn, tokenIds, ⟨item, hitem, hids⟩, rfl⟩ := hread
    obtain ⟨henv, hne, hpos⟩ := TokenDelta.validate_eq_ok.mp hvalid
    obtain ⟨-, henvelope⟩ := readRequestEnvelope_valid.mp ⟨hread, henv⟩
    obtain ⟨values, hvalues, htokens⟩ := bind_eq_ok.mp (tokens_eq_ok.mpr ⟨hids, hne, hpos⟩)
    cases hview
    exact ⟨hfields, item, hitem, values, hvalues, bind_eq_ok.mpr ⟨tokenIds, htokens,
      bind_eq_ok.mpr ⟨r, requestEnvelope_eq_ok.mpr ⟨e, rfl, henvelope⟩,
        wordField.mpr ⟨n, hn, rfl⟩⟩⟩⟩

theorem finishReasonFromJson_eq_ok {reason : Option (List UInt8)} :
    finishReasonFromJson value = .ok reason ↔
      ∃ r, value = finishReasonJson r ∧
        reason = r.map (fun r => utf8 (finishReasonName r)) := by
  cases value with
  | null =>
    simp only [finishReasonFromJson, Except.ok.injEq]
    constructor
    · rintro rfl
      exact ⟨none, rfl, rfl⟩
    · rintro ⟨r, hr, rfl⟩
      cases r with
      | none => rfl
      | some => simp [finishReasonJson, nameJson] at hr
  | str =>
    simp only [finishReasonFromJson, bind_eq_ok, requireString_eq_ok, Json.str.injEq]
    constructor
    · rintro ⟨t, ⟨rfl, -⟩, h⟩
      split at h
      · cases h
      · next hmem =>
        obtain ⟨r, rfl⟩ := mem_FINISH_REASONS.mp (by simpa using hmem)
        cases h
        exact ⟨some r, rfl, rfl⟩
    · rintro ⟨r, hr, rfl⟩
      cases r with
      | none => cases hr
      | some r =>
        cases hr
        refine ⟨_, ⟨rfl, fun _ => finishReasonName_ne_nil r⟩, ?_⟩
        rw [if_neg (by simpa using mem_FINISH_REASONS.mpr ⟨r, rfl⟩)]
        rfl
  | _ =>
    simp only [finishReasonFromJson, bind_eq_ok, requireString_eq_ok, reduceCtorEq, false_and,
      exists_false, false_iff]
    rintro ⟨r, hr, -⟩
    cases r <;> cases hr

theorem terminal_agree : Agree decodeTerminal Ipc.decodeTerminal := by
  intro value epoch view
  rw [decodeTerminal, fieldsThen]
  simp only [decodeTerminal_eq_ok, itemThen, statusFromJson_eq_ok, finishReasonFromJson_eq_ok]
  constructor
  · rintro ⟨hfields, i, hi, -, ⟨s, hstatus, rfl⟩, k, hk, -, ⟨f, rfl, rfl⟩, h⟩
    split at h
    · cases h
    · next hreason =>
      obtain ⟨r, hr, h⟩ := bind_eq_ok.mp h
      obtain ⟨j, hj, u, hu, h⟩ := itemThen.mp h
      cases h
      obtain ⟨e, rfl, henvelope⟩ := requestEnvelope_eq_ok.mp hr
      obtain ⟨hread, hvalid⟩ := readRequestEnvelope_valid.mpr ⟨rfl, henvelope⟩
      refine ⟨_, ⟨hfields, 1, e, r, s, u, f, hread, ⟨i, hi, hstatus⟩,
        ⟨j, hj, usageFromJson_eq_ok.mp hu⟩, hk, ?_, rfl⟩, rfl, rfl⟩
      refine Terminal.validate_eq_ok.mpr ⟨hvalid, ?_⟩
      rintro hok rfl
      exact hreason ⟨by rw [viewStatus_isOk]; exact hok, rfl⟩
  · rintro ⟨m, ⟨hfields, v, e, r, s, u, f, hread, ⟨i, hi, hs⟩, ⟨j, hj, hu⟩, hf, hvalid, rfl⟩, hview,
      rfl⟩
    obtain ⟨henv, hreason⟩ := Terminal.validate_eq_ok.mp hvalid
    obtain ⟨-, henvelope⟩ := readRequestEnvelope_valid.mp ⟨hread, henv⟩
    cases hview
    refine ⟨hfields, i, hi, _, ⟨s, hs, rfl⟩, _, hf, _, ⟨f, rfl, rfl⟩, ?_⟩
    rw [if_neg (by
      rintro ⟨hok, hnone⟩
      rw [viewStatus_isOk] at hok
      exact hreason hok (by simpa using hnone))]
    exact bind_eq_ok.mpr ⟨r, requestEnvelope_eq_ok.mpr ⟨e, rfl, henvelope⟩,
      itemThen.mpr ⟨j, hj, u, usageFromJson_eq_ok.mpr hu, rfl⟩⟩

theorem stats_agree : Agree decodeStats Ipc.decodeStats := by
  intro value epoch view
  rw [decodeStats, fieldsThen, Ipc.decodeStats]
  simp only [decodeRecord_eq_ok (show ["type", "protocol_version", "worker_epoch", "probe_id",
    "ready", "status", "uptime_ms", "active_requests", "reserved_input_tokens",
    "reserved_output_tokens", "session_egress_frames", "session_egress_bytes",
    "session_egress_high_watermark_frames", "session_egress_high_watermark_bytes",
    "rejected_requests", "backpressure_requests", "cancelled_requests"].Nodup by decide),
    readStats_eq_some, readBoolean_eq_some, readStatusJson_eq_some,
    readUnsigned_eq_some (show 32 ≤ 64 by decide), readUnsigned_eq_some le_rfl,
    itemThen, requireProtocol_eq_ok, requireEpoch_eq_ok, statusFromJson_eq_ok, requireBool_eq_ok]
  constructor
  · rintro ⟨hfields, -, hv, -, rfl, -, he, e, ⟨rfl, hpos, hlt, hexpected⟩, i, hi, -,
      ⟨s, hstatus, rfl⟩, -, hb, b, rfl, h⟩
    split at h
    · cases h
    · next hready =>
      obtain ⟨n₁, ⟨h₁, l₁, u₁⟩, h⟩ := natField.mp h
      simp only [wordField] at h
      obtain ⟨n₂, h₂, n₃, h₃, n₄, h₄, n₅, h₅, n₆, h₆, n₇, h₇, n₈, h₈, n₉, h₉, n₁₀, h₁₀, n₁₁, h₁₁,
        n₁₂, h₁₂, h⟩ := h
      split at h
      · cases h
      · next hmarks =>
        cases h
        have u₁ : n₁ < 2 ^ 64 := by omega
        refine ⟨_, ⟨hfields, ⟨1, e, n₁, b, s, n₂, n₃, n₄, n₅, n₆, n₇, n₈, n₉, n₁₀, n₁₁, n₁₂⟩,
          ⟨⟨⟨hv, Nat.one_lt_two_pow (by decide)⟩, ⟨he, hlt⟩, ⟨h₁, u₁⟩, hb, i, hi, hstatus⟩,
            ⟨h₂, h₃, h₄, h₅⟩, ⟨h₆, h₇, h₈, h₉⟩, h₁₀, h₁₁, h₁₂⟩, ?_, rfl⟩, rfl, hexpected _ rfl⟩
        refine Stats.validate_eq_ok.mpr ⟨⟨rfl, hpos, l₁⟩, ?_, ?_⟩
        · simpa [viewStatus_isOk] using hready
        · simpa only [not_or, Nat.not_lt] using hmarks
  · rintro ⟨_, ⟨hfields, m, ⟨⟨⟨hv, -⟩, ⟨he, hlt⟩, ⟨h₁, u₁⟩, hb, i, hi, hs⟩,
      ⟨h₂, h₃, h₄, h₅⟩, ⟨h₆, h₇, h₈, h₉⟩, h₁₀, h₁₁, h₁₂⟩, hvalid, rfl⟩, hview, rfl⟩
    obtain ⟨⟨hversion, hpos, hprobe⟩, hready, hmarks⟩ := Stats.validate_eq_ok.mp hvalid
    cases hview
    rw [hversion] at hv
    refine ⟨hfields, _, hv, (), rfl, _, he, _, ⟨rfl, hpos, hlt, fun _ h => (Option.some.inj h).symm⟩,
      i, hi, _, ⟨_, hs, rfl⟩, _, hb, _, rfl, ?_⟩
    rw [if_neg (by rw [viewStatus_isOk]; exact fun h => h hready)]
    refine natField.mpr ⟨_, ⟨h₁, hprobe, by omega⟩, ?_⟩
    simp only [wordField]
    refine ⟨_, h₂, _, h₃, _, h₄, _, h₅, _, h₆, _, h₇, _, h₈, _, h₉, _, h₁₀, _, h₁₁, _, h₁₂, ?_⟩
    rw [if_neg (by simpa only [not_or, Nat.not_lt] using hmarks)]
    rfl

theorem helloAck_agree :
    Agree (fun value epoch => decodeHelloAck value (some epoch)) Ipc.decodeHelloAck := by
  intro value epoch view
  dsimp only
  rw [decodeHelloAck, fieldsThen, Ipc.decodeHelloAck]
  simp only [decodeRecord_eq_ok (show ["type", "protocol_version", "worker_epoch", "manifest",
    "limits"].Nodup by decide), readHelloAck, readManifestJson, readLimitsJson,
    bind_eq_bind, bind_eq_some_iff, readUnsigned_eq_some (show 32 ≤ 64 by decide),
    readUnsigned_eq_some le_rfl, pure_def, Option.some.injEq, itemThen,
    requireProtocol_eq_ok, requireEpoch_eq_ok, manifestFromJson_eq_ok, limitsFromJson_eq_ok]
  constructor
  · rintro ⟨hfields, -, hv, -, rfl, -, he, e, ⟨rfl, hpos, hlt, hexpected⟩, im, him, manifest,
      ⟨hmanifest, hmvalid⟩, il, hil, limits, ⟨hlimits, hlvalid⟩, h⟩
    cases h
    exact ⟨_, ⟨hfields, _, ⟨1, ⟨hv, by decide⟩, e, ⟨he, hlt⟩, manifest, ⟨im, him, hmanifest⟩, limits,
      ⟨il, hil, hlimits⟩, rfl⟩, HelloAck.validate_eq_ok.mpr ⟨rfl, hpos, hmvalid, hlvalid⟩, rfl⟩,
      rfl, hexpected _ rfl⟩
  · rintro ⟨m, ⟨hfields, -, ⟨v, ⟨hv, -⟩, e, ⟨he, hlt⟩, manifest, ⟨im, him, hmanifest⟩, limits,
      ⟨il, hil, hlimits⟩, rfl⟩, hvalid, rfl⟩, hview, rfl⟩
    obtain ⟨rfl, hpos, hmvalid, hlvalid⟩ := HelloAck.validate_eq_ok.mp hvalid
    cases hview
    exact ⟨hfields, _, hv, (), rfl, _, he, e, ⟨rfl, hpos, hlt, fun _ h => h.symm⟩, im, him, manifest, ⟨hmanifest, hmvalid⟩, il, hil, limits, ⟨hlimits, hlvalid⟩, rfl⟩

/-! ## All server messages -/

def serverTypes : List String :=
  ["hello_ack", "accepted", "rejected", "token_delta", "terminal", "stats"]

def decoderOf (name : String) (value : Json) (epoch : ℤ) : Except PyError ServerMessage :=
  if name = "hello_ack" then decodeHelloAck value (some epoch)
  else if name = "accepted" then decodeAccepted value epoch
  else if name = "rejected" then decodeRejected value epoch
  else if name = "token_delta" then decodeTokenDelta value epoch
  else if name = "terminal" then decodeTerminal value epoch
  else decodeStats value epoch

theorem isObject_of_find {item : Json} {key : String} (h : value.find key = some item) :
    value.isObject = true := by
  cases value <;> first | rfl | cases h

theorem decodeServerMessage_of_type (hname : name ∈ serverTypes)
    (htype : value.find "type" = some (nameJson name)) (epoch : ℤ) :
    decodeServerMessage value (some epoch) = decoderOf name value epoch := by
  have hnonempty : utf8 name ≠ [] := by
    simp only [serverTypes, List.mem_cons, List.not_mem_nil, or_false] at hname
    rcases hname with rfl | rfl | rfl | rfl | rfl | rfl <;> decide
  have hread : requireString ((value.find "type").getD .null) "message type" true =
      .ok (utf8 name) := by
    rw [htype]
    exact requireString_eq_ok.mpr ⟨rfl, fun _ => hnonempty⟩
  simp only [decodeServerMessage, isObject_of_find htype, hread, utf8_inj, Bool.true_eq_false,
    if_false, decoderOf, bind, Except.bind]
  simp only [serverTypes, List.mem_cons, List.not_mem_nil, or_false] at hname
  rcases hname with rfl | rfl | rfl | rfl | rfl | rfl <;> simp

theorem decoderOf_eq_ok (hname : name ∈ serverTypes)
    (htype : value.find "type" = some (nameJson name)) (epoch : ℤ) (view : ServerMessage) :
    decoderOf name value epoch = .ok view ↔
      ∃ m, Ipc.decodeValue value = .ok m ∧ serverView m = some view ∧ epoch = serverEpoch m := by
  rw [decodeValue_of_type htype]
  simp only [serverTypes, List.mem_cons, List.not_mem_nil, or_false] at hname
  rcases hname with rfl | rfl | rfl | rfl | rfl | rfl <;>
    simp only [decoderOf, String.reduceEq, reduceIte]
  · exact helloAck_agree value epoch view
  · exact accepted_agree value epoch view
  · exact rejected_agree value epoch view
  · exact tokenDelta_agree value epoch view
  · exact terminal_agree value epoch view
  · exact stats_agree value epoch view

theorem cpp_epoch (hname : name ∈ serverTypes)
    (htype : value.find "type" = some (nameJson name)) (h : Ipc.decodeValue value = .ok m) :
    value.find "worker_epoch" = some (.int (serverEpoch m)) ∧ ∃ view, serverView m = some view := by
  have hepoch {n : ℕ} (hn : readUnsigned 64 value "worker_epoch" = some n) :
      value.find "worker_epoch" = some (.int n) :=
    ((readUnsigned_eq_some le_rfl).mp hn).1
  have henvelope {v e r : ℕ} (ht : readRequestEnvelope value = some (v, e, r)) :
      value.find "worker_epoch" = some (.int e) := by
    obtain ⟨_, _, ht⟩ := bind_eq_some_iff.mp ht
    obtain ⟨e, he, ht⟩ := bind_eq_some_iff.mp ht
    obtain ⟨_, _, ht⟩ := bind_eq_some_iff.mp ht
    cases ht
    exact hepoch he
  rw [decodeValue_of_type htype] at h
  simp only [serverTypes, List.mem_cons, List.not_mem_nil, or_false] at hname
  rcases hname with rfl | rfl | rfl | rfl | rfl | rfl <;>
    simp only [String.reduceEq, reduceIte] at h
  · obtain ⟨-, a, hread, -, rfl⟩ := (decodeRecord_eq_ok (by decide)).mp h
    obtain ⟨_, _, hread⟩ := bind_eq_some_iff.mp hread
    obtain ⟨e, he, hread⟩ := bind_eq_some_iff.mp hread
    simp only [bind, bind_eq_some_iff, pure, Option.some.injEq] at hread
    obtain ⟨_, _, _, _, rfl⟩ := hread
    exact ⟨hepoch he, _, rfl⟩
  · obtain ⟨-, a, hread, -, rfl⟩ := (decodeRecord_eq_ok (by decide)).mp h
    simp only [readAccepted, bind, bind_eq_some_iff, pure, Option.some.injEq] at hread
    obtain ⟨_, ht, rfl⟩ := hread
    exact ⟨henvelope ht, _, rfl⟩
  · obtain ⟨-, a, hread, -, rfl⟩ := (decodeRecord_eq_ok (by decide)).mp h
    simp only [readRejected, bind, bind_eq_some_iff, pure, Option.some.injEq] at hread
    obtain ⟨_, ht, _, _, rfl⟩ := hread
    exact ⟨henvelope ht, _, rfl⟩
  · obtain ⟨-, a, hread, -, rfl⟩ := (decodeRecord_eq_ok (by decide)).mp h
    simp only [readTokenDelta, bind, bind_eq_some_iff, pure, Option.some.injEq] at hread
    obtain ⟨_, ht, _, _, _, _, rfl⟩ := hread
    exact ⟨henvelope ht, _, rfl⟩
  · obtain ⟨-, v, e, r, s, u, f, ht, -, -, -, -, rfl⟩ := decodeTerminal_eq_ok.mp h
    exact ⟨henvelope ht, _, rfl⟩
  · obtain ⟨-, a, hread, -, rfl⟩ := (decodeRecord_eq_ok (by decide)).mp h
    exact ⟨hepoch (readStats_eq_some.mp hread).1.2.1, _, rfl⟩

theorem cpp_server (hname : name ∈ serverTypes)
    (htype : value.find "type" = some (nameJson name)) (h : Ipc.decodeValue value = .ok m) :
    (∃ n : ℕ, value.find "worker_epoch" = some (.int n)) ∧ ∃ view, serverView m = some view :=
  (cpp_epoch hname htype h).imp_left fun hepoch => ⟨_, hepoch⟩

theorem decoderOf_agree (hname : name ∈ serverTypes)
    (htype : value.find "type" = some (nameJson name))
    (hepoch : value.find "worker_epoch" = some (.int epoch)) (view : ServerMessage) :
    decoderOf name value epoch = .ok view ↔
      ∃ m, Ipc.decodeValue value = .ok m ∧ serverView m = some view := by
  rw [decoderOf_eq_ok hname htype]
  refine exists_congr fun m => and_congr_right fun hm => and_iff_left ?_
  have hserver := (cpp_epoch hname htype hm).1
  rw [hepoch] at hserver
  simpa using hserver

theorem python_server (hname : name ∈ serverTypes)
    (htype : value.find "type" = some (nameJson name))
    (h : decodeServerMessage value expectedEpoch = .ok view) :
    ∃ n : ℕ, value.find "worker_epoch" = some (.int n) := by
  cases expectedEpoch with
  | some epoch =>
    rw [decodeServerMessage_of_type hname htype] at h
    obtain ⟨m, hm, -⟩ := (decoderOf_eq_ok hname htype epoch view).mp h
    exact ⟨_, (cpp_epoch hname htype hm).1⟩
  | none =>
    -- before the handshake only a hello_ack gets past the type
    rw [decodeServerMessage, if_neg (by simp [isObject_of_find htype])] at h
    obtain ⟨type, -, h⟩ := bind_eq_ok.mp h
    split at h
    · rw [decodeHelloAck, fieldsThen] at h
      simp only [itemThen, requireEpoch_eq_ok] at h
      obtain ⟨-, -, -, -, -, -, he, n, ⟨rfl, -⟩, -⟩ := h
      exact ⟨n, he⟩
    · cases h

theorem messageJson_epoch (hserver : messageTypeName m ∈ serverTypes) :
    (messageJson m).find "worker_epoch" = some (.int (serverEpoch m)) := by
  cases m with
  | hello | submit | cancel | health => simp [messageTypeName, serverTypes] at hserver
  | _ => rfl

/-- Both decoders accept the same server messages and read the same fields from
them, and every server message that is encoded is accepted. -/
theorem decoders_agree [JsonLib] (parse : List UInt8 → Except (List UInt8) Json) :
    (∀ (payload : List UInt8) (value : Json) (name : String), parse payload = .ok value →
      name ∈ serverTypes → value.find "type" = some (nameJson name) →
      (∀ epoch, value.find "worker_epoch" = some (.int epoch) →
        ((∃ m, Ipc.decodePayload parse payload = .ok m) ↔
          ∃ view, decodeServerMessage value (some epoch) = .ok view) ∧
        ∀ m view, Ipc.decodePayload parse payload = .ok m →
          decodeServerMessage value (some epoch) = .ok view → serverView m = some view) ∧
      ((∀ epoch, value.find "worker_epoch" ≠ some (.int epoch)) →
        (∀ m, Ipc.decodePayload parse payload ≠ .ok m) ∧
        ∀ expectedEpoch view, decodeServerMessage value expectedEpoch ≠ .ok view)) ∧
    ∀ (m : Ipc.Message) (payload : List UInt8), m.InRange →
      messageTypeName m ∈ serverTypes → Ipc.encodePayload m = .ok payload →
      ∃ view, serverView m = some view ∧
        decodeServerMessage (messageJson m) (some (serverEpoch m)) = .ok view := by
  refine ⟨fun payload value name hparse hname htype => ?_, fun m payload hrange hname hencode => ?_⟩
  · have hdecode : Ipc.decodePayload parse payload = Ipc.decodeValue value := by
      simp only [Ipc.decodePayload, hparse]
    rw [hdecode]
    refine ⟨fun epoch hepoch => ?_, fun hno => ⟨fun m hm => ?_, fun expected view hview => ?_⟩⟩
    · rw [decodeServerMessage_of_type hname htype]
      have hagree := decoderOf_agree hname htype hepoch
      refine ⟨⟨?_, ?_⟩, ?_⟩
      · rintro ⟨m, hm⟩
        obtain ⟨view, hview⟩ := (cpp_server hname htype hm).2
        exact ⟨view, (hagree view).mpr ⟨m, hm, hview⟩⟩
      · rintro ⟨view, hview⟩
        obtain ⟨m, hm, -⟩ := (hagree view).mp hview
        exact ⟨m, hm⟩
      · intro m view hm hview
        obtain ⟨m', hm', hserver⟩ := (hagree view).mp hview
        rw [hm] at hm'
        cases hm'
        exact hserver
    · obtain ⟨n, hn⟩ := (cpp_server hname htype hm).1
      exact hno n hn
    · obtain ⟨n, hn⟩ := python_server hname htype hview
      exact hno n hn
  · obtain ⟨hvalid, -, -⟩ := encodePayload_eq_ok.mp hencode
    have htype := messageJson_type m
    have hread := decodeValue_messageJson hrange hvalid
    obtain ⟨view, hview⟩ := (cpp_server hname htype hread).2
    refine ⟨view, hview, ?_⟩
    rw [decodeServerMessage_of_type hname htype]
    exact (decoderOf_agree hname htype (messageJson_epoch hname) view).mpr ⟨m, hread, hview⟩

def acceptedThree : Ipc.Message := .accepted ⟨1, 7, 3⟩

def acceptedText : List UInt8 := @Json.dump plainJson (messageJson acceptedThree)

/-- The text of an Accepted and its object, as both sides read them. -/
theorem decoders_agree_accepted :
    (∃ m, Ipc.decodePayload (reads acceptedText (messageJson acceptedThree)) acceptedText =
        .ok m) ∧
      ∃ view, serverView acceptedThree = some view ∧
        decodeServerMessage (messageJson acceptedThree) (some 7) = .ok view := by
  have hagree := @decoders_agree plainJson
    (reads acceptedText (messageJson acceptedThree))
  have hencoded := hagree.2 acceptedThree _ ⟨by decide, by decide, by decide⟩ (by decide)
    ((@encodePayload_eq_ok plainJson _ _).mpr ⟨rfl, rfl, rfl⟩)
  obtain ⟨view, hview, hread⟩ := hencoded
  exact ⟨((hagree.1 acceptedText _ "accepted" (if_pos rfl) (by decide) rfl).1 7 rfl).1.mpr
    ⟨view, hread⟩, view, hview, hread⟩

end KimServing.Client

import KimServing.Worker.BridgeMessages
import KimServing.Worker.EgressInvariant

/-! # The size of terminal frames

The bridge cuts a status text to a number of raw bytes, while the egress compares
the escaped frame with the reserve. The frame of a terminal is computed exactly
here, field by field, which decides for every event whether it fits.
-/
namespace KimServing
open Library Ipc List

def digitCount (n : ℕ) : ℕ := (Json.decimal n).length

def finishReasonWidth : Option Ipc.FinishReason → ℕ
  | some reason => (utf8 (finishReasonName reason)).length + 2
  | none => 4

/-- The size of the frame of a terminal: 173 bytes of punctuation, keys and
length, and its values. -/
def terminalFrameBytes (t : Ipc.Terminal) : ℕ :=
  173 + finishReasonWidth t.finishReason + (utf8 (statusCodeName t.status.code)).length +
    Json.escapedWidth t.status.message + digitCount t.requestId + digitCount t.workerEpoch +
    digitCount t.usage.promptTokens + digitCount t.usage.completionTokens

theorem escapedWidth_statusCodeName (code : StatusCode) :
    Json.escapedWidth (utf8 (statusCodeName code)) = (utf8 (statusCodeName code)).length := by
  cases code <;> decide

theorem escapedWidth_finishReasonName (reason : Ipc.FinishReason) :
    Json.escapedWidth (utf8 (finishReasonName reason)) =
      (utf8 (finishReasonName reason)).length := by
  cases reason <;> decide

section
variable [JsonLib]

variable {t : Ipc.Terminal}

theorem length_natJson (n : ℕ) : (natJson n).dump.length = digitCount n := rfl

theorem length_statusJson (status : Status) :
    (statusJson status).dump.length =
      24 + (utf8 (statusCodeName status.code)).length + Json.escapedWidth status.message := by
  have hcode : (Json.strText (utf8 "code")).length = 6 := by decide
  have hmessage : (Json.strText (utf8 "message")).length = 9 := by decide
  rw [statusJson, Json.length_dump_obj (by simp)]
  simp only [map_cons, map_nil, sum_cons, sum_nil, length_cons,
    length_nil, Json.fieldWidth, nameJson, Json.dump, Json.length_strText (utf8 (statusCodeName _)),
    Json.length_strText status.message, escapedWidth_statusCodeName, hcode, hmessage]
  omega

theorem length_usageJson (usage : Usage) :
    (usageJson usage).dump.length =
      39 + digitCount usage.promptTokens + digitCount usage.completionTokens := by
  have hprompt : (Json.strText (utf8 "prompt_tokens")).length = 15 := by decide
  have hcompletion : (Json.strText (utf8 "completion_tokens")).length = 19 := by decide
  rw [usageJson, Json.length_dump_obj (by simp)]
  simp only [map_cons, map_nil, sum_cons, sum_nil, length_cons,
    length_nil, Json.fieldWidth, length_natJson, hprompt, hcompletion]
  omega

theorem length_finishReasonJson (reason : Option Ipc.FinishReason) :
    (finishReasonJson reason).dump.length = finishReasonWidth reason := by
  cases reason with
  | none =>
    have hnull : (utf8 "null").length = 4 := by decide
    exact hnull
  | some reason =>
    have hname : (finishReasonJson (some reason)).dump.length =
        (Json.strText (utf8 (finishReasonName reason))).length := rfl
    rw [hname, Json.length_strText, escapedWidth_finishReasonName]
    rfl

theorem length_encodePayload_terminal {payload : List UInt8}
    (h : encodePayload (.terminal t) = .ok payload) :
    payload.length + 4 = terminalFrameBytes t := by
  obtain ⟨hvalid, -, rfl⟩ := encodePayload_eq_ok.mp h
  have hversion : t.protocolVersion = 1 := (Terminal.validate_eq_ok.mp hvalid).1.1
  have hone : digitCount 1 = 1 := by decide
  have htype : (nameJson "terminal").dump.length = 10 := by
    have : (Json.strText (utf8 "terminal")).length = 10 := by decide
    exact this
  have hkeys : (Json.strText (utf8 "type")).length = 6 ∧
      (Json.strText (utf8 "protocol_version")).length = 18 ∧
      (Json.strText (utf8 "worker_epoch")).length = 14 ∧
      (Json.strText (utf8 "request_id")).length = 12 ∧
      (Json.strText (utf8 "status")).length = 8 ∧
      (Json.strText (utf8 "finish_reason")).length = 15 ∧
      (Json.strText (utf8 "usage")).length = 7 := by decide
  obtain ⟨k₁, k₂, k₃, k₄, k₅, k₆, k₇⟩ := hkeys
  rw [messageJson, Json.length_dump_obj (by simp)]
  simp only [map_cons, map_nil, sum_cons, sum_nil, length_cons,
    length_nil, Json.fieldWidth, length_natJson, length_statusJson, length_usageJson,
    length_finishReasonJson, htype, hversion, hone, k₁, k₂, k₃, k₄, k₅, k₆, k₇, terminalFrameBytes]
  omega

omit [JsonLib] in
theorem printable_terminal (h : Utf8.valid t.status.message = true) :
    (messageJson (.terminal t)).printable = true := by
  have hcode : ∀ code, Utf8.valid (utf8 (statusCodeName code)) = true := by
    intro code
    cases code <;> decide
  have hreason : (finishReasonJson t.finishReason).printable = true := by
    cases t.finishReason with
    | none => rfl
    | some reason => cases reason <;> decide
  have htype : Utf8.valid (utf8 "terminal") = true := by decide
  simp [messageJson, statusJson, usageJson, natJson, nameJson, Json.printable,
    Json.printableFields, hcode, hreason, htype, h]

theorem sizeMessage_terminal {maxFramePayloadBytes : ℕ} (hvalid : t.validate = .ok ())
    (hutf8 : Utf8.valid t.status.message = true) (hwidth : maxFramePayloadBytes < 2 ^ 32) :
    (∃ sized, sizeMessage (.terminal t) maxFramePayloadBytes = .ok sized) ↔
      terminalFrameBytes t ≤ maxFramePayloadBytes + 4 := by
  have hencode : encodePayload (.terminal t) = .ok (messageJson (.terminal t)).dump :=
    encodePayload_eq_ok.mpr ⟨hvalid, printable_terminal hutf8, rfl⟩
  have hlength := length_encodePayload_terminal hencode
  constructor
  · rintro ⟨sized, hs⟩
    obtain ⟨payload, hp, -, hmax, -, -⟩ := sizeMessage_eq_ok.mp hs
    rw [hencode] at hp
    cases hp
    omega
  · intro h
    exact ⟨_, sizeMessage_eq_ok.mpr ⟨_, hencode, encodePayload_ne_nil hencode, by omega, by omega,
      rfl⟩⟩

theorem sizeMessage_terminal_frameBytes {maxFramePayloadBytes : ℕ} {sized : SizedMessage}
    (h : sizeMessage (.terminal t) maxFramePayloadBytes = .ok sized) :
    sized.frameBytes = terminalFrameBytes t := by
  obtain ⟨payload, hp, -, -, -, rfl⟩ := sizeMessage_eq_ok.mp h
  exact length_encodePayload_terminal hp

end

def reserveExceeded : SessionEgressEnqueueResult :=
  enqueueFailure .invalidMessage (invalid "Terminal exceeds its SessionEgress byte reserve")

theorem enqueueTerminal_reserveExceeded [JsonLib] {e : SessionEgress} {requestId : ℕ}
    {t : Ipc.Terminal} {sized : SizedMessage} {queue : RequestQueue} (hid : t.requestId = requestId)
    (hs : sizeMessage (.terminal t) e.config.maxFramePayloadBytes = .ok sized)
    (haccepting : e.accepting = true) (hqueue : e.requests.lookup requestId = some queue)
    (hopen : queue.terminalEnqueued = false)
    (hexceeds : e.config.terminalReserveBytes < sized.frameBytes) :
    (e.enqueueTerminal requestId (.terminal t)).1 = reserveExceeded := by
  simp [SessionEgress.enqueueTerminal, hid, hs, haccepting, hqueue, hopen, hexceeds, reserveExceeded]

theorem enqueueTerminal_ne_reserveExceeded [JsonLib] {e : SessionEgress} {requestId : ℕ}
    {t : Ipc.Terminal} {sized : SizedMessage}
    (hs : sizeMessage (.terminal t) e.config.maxFramePayloadBytes = .ok sized)
    (hfits : sized.frameBytes ≤ e.config.terminalReserveBytes) :
    (e.enqueueTerminal requestId (.terminal t)).1 ≠ reserveExceeded := by
  have htext : ∀ text, text ≠ "Terminal exceeds its SessionEgress byte reserve" →
      ∀ code, enqueueFailure code (invalid text) ≠ reserveExceeded := by
    intro text hne code h
    simp only [enqueueFailure, reserveExceeded, invalid, Status.error,
      SessionEgressEnqueueResult.mk.injEq, Status.mk.injEq, true_and] at h
    exact hne (utf8_injective h.2)
  have hcode : ∀ code status, code ≠ .invalidMessage →
      enqueueFailure code status ≠ reserveExceeded := by
    intro code status hne h
    exact hne (congrArg SessionEgressEnqueueResult.code h)
  simp only [SessionEgress.enqueueTerminal, hs, if_neg (Nat.not_lt.mpr hfits)]
  split_ifs with hid hstopped
  · exact htext _ (by decide) _
  · exact hcode _ _ (by decide)
  · cases hq : e.requests.lookup requestId with
    | none => exact hcode _ _ (by decide)
    | some =>
      dsimp only
      split_ifs with hterminal hfull
      · exact htext _ (by decide) _
      · exact hcode _ _ (by decide)
      · show enqueued ≠ reserveExceeded
        decide

theorem digitCount_le {n : ℕ} (h : n < 2 ^ 64) : digitCount n ≤ 20 :=
  Json.length_decimal_le (by decide) (h.trans (by decide))

theorem terminalFrameBytes_backpressure (c : RuntimeBridgeConfig) (t : TerminalEvent)
    (hepoch : c.workerEpoch < 2 ^ 64) (hid : t.requestId < 2 ^ 64)
    (hprompt : t.usage.promptTokens < 2 ^ 64) (hcompletion : t.usage.completionTokens < 2 ^ 64) :
    terminalFrameBytes (wireTerminal c true t) ≤ 2048 := by
  have hwidth : Json.escapedWidth (utf8 "request cancelled because IPC egress was full") +
      finishReasonWidth (some .backpressure) + (utf8 (statusCodeName .queueFull)).length ≤ 100 := by
    decide
  have h₁ := digitCount_le hepoch
  have h₂ := digitCount_le hid
  have h₃ := digitCount_le hprompt
  have h₄ := digitCount_le hcompletion
  simp only [terminalFrameBytes, wireTerminal, ↓reduceIte, Status.error]
  omega

def boundedFrameBytes (workerEpoch : ℕ) (t : TerminalEvent) : ℕ :=
  173 + finishReasonWidth (t.finishReason.map wireFinishReason) +
    (utf8 (statusCodeName t.status.code)).length +
    Json.escapedWidth (t.status.message.take 1024) + digitCount t.requestId +
    digitCount workerEpoch + digitCount t.usage.promptTokens + digitCount t.usage.completionTokens

theorem terminalFrameBytes_bounded (workerEpoch : ℕ) (limits : WorkerLimits) (t : TerminalEvent) :
    terminalFrameBytes (wireTerminal (.ofLimits workerEpoch limits) false t) =
      boundedFrameBytes workerEpoch t := rfl

/-- With the settings of the worker program, the terminal of an event fits its
reserve exactly if it reports backpressure or its escaped frame is short enough. -/
theorem boundedTerminal_fits_iff [JsonLib] (workerEpoch : ℕ) (limits : WorkerLimits)
    (backpressureRequested : Bool) (t : TerminalEvent)
    (hrequest : 2048 ≤ limits.maxRequestEgressBytes)
    (hframe : 2048 ≤ limits.maxFramePayloadBytes) (hwidth : limits.maxFramePayloadBytes < 2 ^ 32)
    (hepoch : workerEpoch < 2 ^ 64) (hid : t.requestId < 2 ^ 64)
    (hprompt : t.usage.promptTokens < 2 ^ 64) (hcompletion : t.usage.completionTokens < 2 ^ 64)
    (hascii : ∀ b ∈ t.status.message, b ≤ 0x7f)
    (hvalid : (wireTerminal (.ofLimits workerEpoch limits) backpressureRequested t).validate =
      .ok ()) :
    ((∃ sized, sizeMessage
        (.terminal (wireTerminal (.ofLimits workerEpoch limits) backpressureRequested t))
        limits.maxFramePayloadBytes = .ok sized ∧
        sized.frameBytes ≤ (RuntimeBridgeConfig.ofLimits workerEpoch limits).terminalReserveBytes) ∧
      ∀ e : SessionEgress,
        e.config = (RuntimeBridgeConfig.ofLimits workerEpoch limits).makeEgressConfig →
        (e.enqueueTerminal t.requestId (.terminal
          (wireTerminal (.ofLimits workerEpoch limits) backpressureRequested t))).1 ≠
          reserveExceeded) ↔
      backpressureRequested = true ∨ boundedFrameBytes workerEpoch t ≤ 2048 := by
  have hreserve : (RuntimeBridgeConfig.ofLimits workerEpoch limits).terminalReserveBytes = 2048 :=
    Nat.min_eq_left hrequest
  have hutf8 : Utf8.valid (wireTerminal (.ofLimits workerEpoch limits) backpressureRequested
      t).status.message = true := by
    cases backpressureRequested with
    | true =>
      have htext : Utf8.valid (utf8 "request cancelled because IPC egress was full") = true := by
        decide
      exact htext
    | false => exact Utf8.valid_of_ascii (fun b hb => hascii b (List.mem_of_mem_take hb))
  -- The frame is short enough for the reserve exactly under the stated condition.
  have hfits : terminalFrameBytes
      (wireTerminal (.ofLimits workerEpoch limits) backpressureRequested t) ≤ 2048 ↔
      backpressureRequested = true ∨ boundedFrameBytes workerEpoch t ≤ 2048 := by
    cases backpressureRequested with
    | true =>
      simp only [true_or, iff_true]
      exact terminalFrameBytes_backpressure _ t hepoch hid hprompt hcompletion
    | false =>
      simp only [Bool.false_eq_true, false_or, terminalFrameBytes_bounded]
  rw [← hfits, hreserve]
  constructor
  · rintro ⟨⟨sized, hs, hle⟩, -⟩
    rwa [sizeMessage_terminal_frameBytes hs] at hle
  · intro hle
    obtain ⟨sized, hs⟩ := (sizeMessage_terminal hvalid hutf8 hwidth).mpr (by omega)
    have hsize := sizeMessage_terminal_frameBytes hs
    refine ⟨⟨sized, hs, by omega⟩, ?_⟩
    intro e he
    have hpayload : limits.maxFramePayloadBytes = e.config.maxFramePayloadBytes := by rw [he]; rfl
    rw [hpayload] at hs
    refine enqueueTerminal_ne_reserveExceeded hs ?_
    rw [he]
    show sized.frameBytes ≤ (RuntimeBridgeConfig.ofLimits workerEpoch limits).terminalReserveBytes
    omega

def ordinaryLimits : WorkerLimits :=
  { maxActiveRequests := 8, maxTotalInputTokens := 4096, maxReservedOutputTokens := 4096
    maxFramePayloadBytes := 65536, maxSessionEgressFrames := 1024, maxSessionEgressBytes := 4194304
    maxRequestEgressFrames := 128, maxRequestEgressBytes := 2097152 }

def quotedError : TerminalEvent :=
  ⟨7, ⟨.internalError, List.replicate 1024 0x22⟩, none, ⟨1, 0⟩⟩

theorem quotedError_ascii : ∀ b ∈ quotedError.status.message, b ≤ 0x7f := by
  intro b hb
  rw [eq_of_mem_replicate hb]
  decide

theorem escapedWidth_quotes {message : List UInt8} {n : ℕ} (h : message = List.replicate n 0x22) :
    Json.escapedWidth (message.take 1024) = min 1024 n * 2 := by
  rw [h, take_replicate, Json.escapedWidth_replicate]
  rfl

theorem boundedFrameBytes_quotedError : boundedFrameBytes 1 quotedError = 2243 := by
  rw [boundedFrameBytes, escapedWidth_quotes (show quotedError.status.message = _ from rfl)]
  decide

/-- The quotes are doubled by the encoder, and the egress refuses the terminal. -/
theorem quotedError_exceeds :
    ∃ e e', SessionEgress.create (RuntimeBridgeConfig.ofLimits 1 ordinaryLimits).makeEgressConfig =
        .ok e ∧
      exec (@SessionEgress.step plainJson) e [.registerRequest 7] = some e' ∧
      (wireTerminal (.ofLimits 1 ordinaryLimits) false quotedError).validate = .ok () ∧
      (∀ b ∈ quotedError.status.message, b ≤ 0x7f) ∧
      (@SessionEgress.enqueueTerminal plainJson e' 7
        (.terminal (wireTerminal (.ofLimits 1 ordinaryLimits) false quotedError))).1 =
        reserveExceeded := by
  refine ⟨_, _, rfl, rfl, rfl, quotedError_ascii, ?_⟩
  have hvalid : (wireTerminal (.ofLimits 1 ordinaryLimits) false quotedError).validate = .ok () := rfl
  have hutf8 : Utf8.valid (wireTerminal (.ofLimits 1 ordinaryLimits) false
      quotedError).status.message = true :=
    Utf8.valid_of_ascii (fun b hb => quotedError_ascii b (List.mem_of_mem_take hb))
  have hbytes : terminalFrameBytes (wireTerminal (.ofLimits 1 ordinaryLimits) false quotedError) =
      2243 := by
    rw [terminalFrameBytes_bounded, boundedFrameBytes_quotedError]
  obtain ⟨sized, hs⟩ := (@sizeMessage_terminal plainJson _ ordinaryLimits.maxFramePayloadBytes hvalid
    hutf8 (by decide)).mpr (by rw [hbytes]; decide)
  have hsize := @sizeMessage_terminal_frameBytes plainJson _ _ _ hs
  rw [hbytes] at hsize
  exact @enqueueTerminal_reserveExceeded plainJson _ _ _ _ {} rfl hs rfl rfl rfl (by rw [hsize]; decide)

def fittingError : TerminalEvent :=
  ⟨7, ⟨.internalError, List.replicate 926 0x22⟩, none, ⟨1, 0⟩⟩

/-- With 926 quotes the terminal fits, one byte short of the reserve. -/
theorem boundedTerminal_fits_quotes :
    boundedFrameBytes 1 fittingError = 2047 ∧
      ∃ sized, @sizeMessage plainJson (.terminal (wireTerminal (.ofLimits 1 ordinaryLimits) false
          fittingError)) ordinaryLimits.maxFramePayloadBytes = .ok sized ∧
        sized.frameBytes ≤ 2048 := by
  have hbytes : boundedFrameBytes 1 fittingError = 2047 := by
    rw [boundedFrameBytes, escapedWidth_quotes (show fittingError.status.message = _ from rfl)]
    decide
  refine ⟨hbytes, ((@boundedTerminal_fits_iff plainJson 1 ordinaryLimits false fittingError
    (by decide) (by decide) (by decide) (by decide) (by decide) (by decide) (by decide) ?_ rfl).mpr
    (Or.inr (by rw [hbytes]; decide))).1⟩
  intro b hb
  rw [eq_of_mem_replicate hb]
  decide

end KimServing

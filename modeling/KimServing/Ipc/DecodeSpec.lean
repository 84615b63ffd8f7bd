import KimServing.Ipc.Decode

/-! # What the C++ decoder accepts

Each reading function is described by the value it finds under its key, and the
decoders by the fields they require and the record they build from them.
-/
namespace KimServing.Ipc
open Library Option

/-! ## Reading functions -/

variable {object value : Json} {key : String}

theorem exactFields_eq_true {fields : List String} (hfields : fields.Nodup) :
    exactFields object fields = true ↔ object.SameFields fields := by
  rw [Json.sameFields_iff hfields]
  simp [exactFields, and_assoc]

theorem unsignedValue_eq_some {n : ℕ} :
    unsignedValue value = some n ↔ value = .int n ∧ n < 2 ^ 64 := by
  cases value with
  | int =>
    simp only [unsignedValue, Json.int.injEq]
    split
    · simp only [Option.some.injEq]
      omega
    · simp only [reduceCtorEq, false_iff, not_and]
      omega
  | _ => simp [unsignedValue]

theorem readUnsigned_eq_some {width : ℕ} (hwidth : width ≤ 64) {n : ℕ} :
    readUnsigned width object key = some n ↔ object.find key = some (.int n) ∧ n < 2 ^ width := by
  have hpow : 2 ^ width ≤ 2 ^ 64 := Nat.pow_le_pow_right (by decide) hwidth
  have hpos : 0 < 2 ^ width := Nat.two_pow_pos width
  simp only [readUnsigned, bind, bind_eq_some_iff, unsignedValue_eq_some]
  constructor
  · rintro ⟨value, hfind, raw, ⟨rfl, -⟩, h⟩
    split at h
    · cases h
    · cases h
      exact ⟨hfind, by omega⟩
  · rintro ⟨hfind, hn⟩
    exact ⟨_, hfind, n, ⟨rfl, by omega⟩, if_neg (by omega)⟩

theorem signed32Value_eq_some {i : ℤ} :
    signed32Value value = some i ↔ value = .int i ∧ -2 ^ 31 ≤ i ∧ i ≤ 2 ^ 31 - 1 := by
  cases value with
  | int j =>
    simp only [signed32Value, unsignedValue, signedValue, Json.int.injEq]
    by_cases hunsigned : 0 ≤ j ∧ j < 2 ^ 64
    · simp only [if_pos hunsigned]
      split
      · simp only [reduceCtorEq, false_iff]
        omega
      · simp only [Option.some.injEq]
        omega
    · simp only [if_neg hunsigned]
      by_cases hsigned : -2 ^ 63 ≤ j ∧ j < 0
      · simp only [if_pos hsigned, bind, bind_some]
        split
        · simp only [reduceCtorEq, false_iff]
          omega
        · simp only [Option.some.injEq]
          omega
      · simp only [if_neg hsigned, bind, bind_none, reduceCtorEq, false_iff]
        omega
  | _ => simp [signed32Value, unsignedValue, signedValue]

theorem readSigned32_eq_some {i : ℤ} :
    readSigned32 object key = some i ↔
      object.find key = some (.int i) ∧ -2 ^ 31 ≤ i ∧ i ≤ 2 ^ 31 - 1 := by
  simp only [readSigned32, bind, bind_eq_some_iff, signed32Value_eq_some]
  constructor
  · rintro ⟨value, hfind, rfl, hi⟩
    exact ⟨hfind, hi⟩
  · rintro ⟨hfind, hi⟩
    exact ⟨_, hfind, rfl, hi⟩

theorem readString_eq_some {s : List UInt8} :
    readString object key = some s ↔ object.find key = some (.str s) := by
  unfold readString
  split
  · next t h => simp [h]
  · next h => simpa using h s

theorem readBoolean_eq_some {b : Bool} :
    readBoolean object key = some b ↔ object.find key = some (.bool b) := by
  unfold readBoolean
  split
  · next c h => simp [h]
  · next h => simpa using h b

theorem readStatusJson_eq_some {s : Status} :
    readStatusJson object key = some s ↔
      ∃ item, object.find key = some item ∧ statusValue item = some s :=
  bind_eq_some_iff

theorem cons_eq_map_int {P : ℤ → Prop} {item : Json} {items : List Json} {tokenIds : List ℤ} :
    (∃ i, (item = .int i ∧ P i) ∧
      ∃ rest, (items = rest.map Json.int ∧ ∀ j ∈ rest, P j) ∧ i :: rest = tokenIds) ↔
    item :: items = tokenIds.map Json.int ∧ ∀ i ∈ tokenIds, P i := by
  constructor
  · rintro ⟨i, ⟨rfl, hi⟩, rest, ⟨rfl, hrest⟩, rfl⟩
    exact ⟨rfl, List.forall_mem_cons.mpr ⟨hi, hrest⟩⟩
  · cases tokenIds with
    | nil => simp
    | cons i rest =>
      rintro ⟨h, hall⟩
      obtain ⟨rfl, rfl⟩ := List.cons.inj h
      obtain ⟨hi, hrest⟩ := List.forall_mem_cons.mp hall
      exact ⟨i, ⟨rfl, hi⟩, rest, ⟨rfl, hrest⟩, rfl⟩

theorem tokenIdsValue_eq_some {tokenIds : List ℤ} :
    tokenIdsValue value = some tokenIds ↔
      value = tokenIdsJson tokenIds ∧ ∀ i ∈ tokenIds, -2 ^ 31 ≤ i ∧ i ≤ 2 ^ 31 - 1 := by
  cases value with
  | arr items =>
    simp only [tokenIdsValue, tokenIdsJson, Json.arr.injEq]
    induction items generalizing tokenIds with
    | nil => cases tokenIds <;> simp
    | cons item items ih =>
      simp only [List.mapM_cons, bind, bind_eq_some_iff, pure, Option.some.injEq,
        signed32Value_eq_some, ih]
      exact cons_eq_map_int
  | _ => simp [tokenIdsValue, tokenIdsJson]

theorem statusValue_eq_some {s : Status} :
    statusValue object = some s ↔ object.SameFields ["code", "message"] ∧
      object.find "code" = some (.str (utf8 (statusCodeName s.code))) ∧
      object.find "message" = some (.str s.message) := by
  rw [← exactFields_eq_true (by decide), statusValue]
  by_cases hfields : exactFields object ["code", "message"] = false
  · simp [hfields]
  · rw [if_neg hfields]
    simp only [bind, bind_eq_some_iff, readString_eq_some, parseStatusCode_eq_some, pure,
      Option.some.injEq]
    constructor
    · rintro ⟨code, hcode, message, hmessage, c, rfl, rfl⟩
      exact ⟨by simpa using hfields, hcode, hmessage⟩
    · rintro ⟨-, hcode, hmessage⟩
      exact ⟨_, hcode, _, hmessage, s.code, rfl, rfl⟩

theorem manifestValue_eq_some {m : ModelManifest} :
    manifestValue object = some m ↔
      object.SameFields ["model_id", "revision", "tokenizer_fingerprint",
        "chat_template_fingerprint", "engine_fingerprint", "eos_token_id", "pad_token_id",
        "max_input_tokens", "max_output_tokens", "max_sequence_tokens", "precision",
        "max_batch_size"] ∧
      (readString object "model_id" = some m.modelId ∧
        readString object "revision" = some m.revision ∧
        readString object "tokenizer_fingerprint" = some m.tokenizerFingerprint ∧
        readString object "chat_template_fingerprint" = some m.chatTemplateFingerprint ∧
        readString object "engine_fingerprint" = some m.engineFingerprint ∧
        readString object "precision" = some m.precision) ∧
      (readSigned32 object "eos_token_id" = some m.eosTokenId ∧
        readSigned32 object "pad_token_id" = some m.padTokenId) ∧
      readUnsigned 32 object "max_input_tokens" = some m.maxInputTokens ∧
      readUnsigned 32 object "max_output_tokens" = some m.maxOutputTokens ∧
      readUnsigned 32 object "max_sequence_tokens" = some m.maxSequenceTokens ∧
      readUnsigned 32 object "max_batch_size" = some m.maxBatchSize := by
  rw [← exactFields_eq_true (by decide), manifestValue]
  split
  · next hfields => simp [hfields]
  · next hfields =>
    constructor
    · intro h
      iterate 12 obtain ⟨_, _, h⟩ := bind_eq_some_iff.mp h
      cases h
      simp [*]
    · rintro ⟨-, ⟨h₁, h₂, h₃, h₄, h₅, h₁₁⟩, ⟨h₆, h₇⟩, h₈, h₉, h₁₀, h₁₂⟩
      simp only [h₁, h₂, h₃, h₄, h₅, h₆, h₇, h₈, h₉, h₁₀, h₁₁, h₁₂, bind_eq_bind,
        bind_some]
      rfl

theorem limitsValue_eq_some {l : WorkerLimits} :
    limitsValue object = some l ↔
      object.SameFields ["max_active_requests", "max_total_input_tokens",
        "max_reserved_output_tokens", "max_frame_payload_bytes", "max_session_egress_frames",
        "max_session_egress_bytes", "max_request_egress_frames", "max_request_egress_bytes"] ∧
      readUnsigned 32 object "max_active_requests" = some l.maxActiveRequests ∧
      readUnsigned 64 object "max_total_input_tokens" = some l.maxTotalInputTokens ∧
      readUnsigned 64 object "max_reserved_output_tokens" = some l.maxReservedOutputTokens ∧
      readUnsigned 32 object "max_frame_payload_bytes" = some l.maxFramePayloadBytes ∧
      readUnsigned 32 object "max_session_egress_frames" = some l.maxSessionEgressFrames ∧
      readUnsigned 64 object "max_session_egress_bytes" = some l.maxSessionEgressBytes ∧
      readUnsigned 32 object "max_request_egress_frames" = some l.maxRequestEgressFrames ∧
      readUnsigned 64 object "max_request_egress_bytes" = some l.maxRequestEgressBytes := by
  rw [← exactFields_eq_true (by decide), limitsValue]
  split
  · next hfields => simp [hfields]
  · next hfields =>
    constructor
    · intro h
      iterate 8 obtain ⟨_, _, h⟩ := bind_eq_some_iff.mp h
      cases h
      simp [*]
    · rintro ⟨-, h₁, h₂, h₃, h₄, h₅, h₆, h₇, h₈⟩
      simp only [h₁, h₂, h₃, h₄, h₅, h₆, h₇, h₈, bind_eq_bind, bind_some]
      rfl

/-! ## Decoders -/

theorem bind_eq_ok {ε α β : Type} {x : Except ε α} {f : α → Except ε β} {b : β} :
    (x >>= f) = .ok b ↔ ∃ a, x = .ok a ∧ f a = .ok b := by
  cases x with
  | error | ok => simp [bind, Except.bind]

theorem decoded_eq_ok {m m' : Message} :
    decoded m = .ok m' ↔ m.validate = .ok () ∧ m' = m := by
  unfold decoded
  cases m.validate with
  | error => simp [bind, Except.bind]
  | ok => simp [bind, Except.bind, pure, Except.pure, eq_comm]

theorem decodeRecord_eq_ok {α : Type} {fields : List String} (hfields : fields.Nodup)
    {fieldsText valuesText : String} {read : Json → Option α} {wrap : α → Message} {m : Message} :
    decodeRecord fields fieldsText valuesText read wrap object = .ok m ↔
      object.SameFields fields ∧ ∃ a, read object = some a ∧ (wrap a).validate = .ok () ∧
        m = wrap a := by
  rw [← exactFields_eq_true hfields, decodeRecord]
  split
  · next h => simp [h, decodeError]
  · next h =>
    have htrue : exactFields object fields = true := by simpa using h
    cases hr : read object with
    | none => simp [decodeError]
    | some => simp [decoded_eq_ok, htrue]

theorem readFinishReason_eq_ok {reason : Option FinishReason} :
    readFinishReason object = .ok reason ↔
      object.find "finish_reason" = some (finishReasonJson reason) := by
  unfold readFinishReason
  split
  · next h => simp [h, decodeError]
  · next h => cases reason <;> simp [h, finishReasonJson, nameJson]
  · next name h =>
    cases hp : parseFinishReason name with
    | none =>
      simp only [decodeError, reduceCtorEq, h, Option.some.injEq, false_iff]
      cases reason with
      | none => simp [finishReasonJson]
      | some r =>
        intro hname
        have hr : name = utf8 (finishReasonName r) := by
          simpa [finishReasonJson, nameJson] using hname
        rw [parseFinishReason_eq_some.mpr hr] at hp
        cases hp
    | some =>
      have hname := parseFinishReason_eq_some.mp hp
      cases reason with
      | none => simp [h, finishReasonJson]
      | some =>
        simp only [Except.ok.injEq, Option.some.injEq, h, hname, finishReasonJson, map_some,
          getD_some, nameJson, Json.str.injEq, utf8_inj,
          finishReasonName_injective.eq_iff]
  · next value hnull hstr h =>
    simp only [decodeError, reduceCtorEq, h, Option.some.injEq, false_iff]
    rintro rfl
    cases reason with
    | none => exact hnull rfl
    | some => exact hstr _ rfl

theorem decodeTerminal_eq_ok {m : Message} :
    decodeTerminal object = .ok m ↔
      object.SameFields ["type", "protocol_version", "worker_epoch", "request_id", "status",
        "finish_reason", "usage"] ∧
      ∃ v e r s u f, readRequestEnvelope object = some (v, e, r) ∧
        (∃ item, object.find "status" = some item ∧ statusValue item = some s) ∧
        (∃ item, object.find "usage" = some item ∧ usageValue item = some u) ∧
        object.find "finish_reason" = some (finishReasonJson f) ∧
        (⟨v, e, r, s, f, u⟩ : Terminal).validate = .ok () ∧
        m = .terminal ⟨v, e, r, s, f, u⟩ := by
  rw [← exactFields_eq_true (by decide), decodeTerminal]
  split
  · next h => simp [h, decodeError]
  · next h =>
    have htrue : exactFields object ["type", "protocol_version", "worker_epoch", "request_id",
        "status", "finish_reason", "usage"] = true := by simpa using h
    constructor
    · intro hd
      split at hd
      · cases hd
      · next v e r s u hread =>
        obtain ⟨f, hf, hd⟩ := bind_eq_ok.mp hd
        obtain ⟨hvalid, rfl⟩ := decoded_eq_ok.mp hd
        simp only [readTerminal, readStatusJson, readUsageJson, bind,
          bind_eq_some_iff, pure, Option.some.injEq, Prod.mk.injEq] at hread
        obtain ⟨⟨v', e', r'⟩, henv, s', hs, u', hu, rfl, rfl, rfl, rfl, rfl⟩ := hread
        exact ⟨htrue, _, _, _, _, _, f, henv, hs, hu, readFinishReason_eq_ok.mp hf, hvalid, rfl⟩
    · rintro ⟨-, v, e, r, s, u, f, henv, ⟨i, hi, hs⟩, ⟨j, hj, hu⟩, hf, hvalid, rfl⟩
      have hread : readTerminal object = some (v, e, r, s, u) := by
        simp [readTerminal, readStatusJson, readUsageJson, henv, hi, hs, hj, hu]
      simp only [hread]
      exact bind_eq_ok.mpr ⟨f, readFinishReason_eq_ok.mpr hf, decoded_eq_ok.mpr ⟨hvalid, rfl⟩⟩

theorem readStats_eq_some {m : Stats} :
    readStats object = some m ↔
      (readUnsigned 32 object "protocol_version" = some m.protocolVersion ∧
        readUnsigned 64 object "worker_epoch" = some m.workerEpoch ∧
        readUnsigned 64 object "probe_id" = some m.probeId ∧
        readBoolean object "ready" = some m.ready ∧
        readStatusJson object "status" = some m.status) ∧
      (readUnsigned 64 object "uptime_ms" = some m.uptimeMs ∧
        readUnsigned 64 object "active_requests" = some m.activeRequests ∧
        readUnsigned 64 object "reserved_input_tokens" = some m.reservedInputTokens ∧
        readUnsigned 64 object "reserved_output_tokens" = some m.reservedOutputTokens) ∧
      (readUnsigned 64 object "session_egress_frames" = some m.sessionEgressFrames ∧
        readUnsigned 64 object "session_egress_bytes" = some m.sessionEgressBytes ∧
        readUnsigned 64 object "session_egress_high_watermark_frames" =
          some m.sessionEgressHighWatermarkFrames ∧
        readUnsigned 64 object "session_egress_high_watermark_bytes" =
          some m.sessionEgressHighWatermarkBytes) ∧
      readUnsigned 64 object "rejected_requests" = some m.rejectedRequests ∧
      readUnsigned 64 object "backpressure_requests" = some m.backpressureRequests ∧
      readUnsigned 64 object "cancelled_requests" = some m.cancelledRequests := by
  unfold readStats
  constructor
  · intro h
    iterate 16 obtain ⟨_, _, h⟩ := bind_eq_some_iff.mp h
    cases h
    simp [*]
  · rintro ⟨⟨h₁, h₂, h₃, h₄, h₅⟩, ⟨h₆, h₇, h₈, h₉⟩, ⟨h₁₀, h₁₁, h₁₂, h₁₃⟩, h₁₄, h₁₅, h₁₆⟩
    simp only [h₁, h₂, h₃, h₄, h₅, h₆, h₇, h₈, h₉, h₁₀, h₁₁, h₁₂, h₁₃, h₁₄, h₁₅, h₁₆,
      bind_eq_bind, bind_some]
    rfl
end KimServing.Ipc

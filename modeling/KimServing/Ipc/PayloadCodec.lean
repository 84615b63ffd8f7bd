import KimServing.Ipc.RoundTrip
import KimServing.Library.JsonNormal

/-! # The payload codec

The reading functions look at a value only through its fields, so they read the
normal form like the value itself. What the decoder accepts is, up to the
spelling of two numbers, what the encoder writes for the decoded message.
-/
namespace KimServing.Ipc
open Library Json Option List

/-! ## Reading a normal form -/

variable {value : Json} {key : String}

@[simp] theorem exactFields_normal (value : Json) (fields : List String) :
    exactFields value.normal fields = exactFields value fields := by
  simp only [exactFields, isObject_normal, (keys_normal value).length_eq, find_normal,
    isSome_map]

@[simp] theorem unsignedValue_normal (value : Json) :
    unsignedValue value.normal = unsignedValue value := by
  cases value <;> rfl

@[simp] theorem signedValue_normal (value : Json) :
    signedValue value.normal = signedValue value := by
  cases value <;> rfl

@[simp] theorem signed32Value_normal (value : Json) :
    signed32Value value.normal = signed32Value value := by
  simp only [signed32Value, unsignedValue_normal, signedValue_normal]

theorem find_bind_normal {α : Type} {read : Json → Option α}
    (h : ∀ value, read value.normal = read value) (value : Json) (key : String) :
    (value.normal.find key >>= read) = (value.find key >>= read) := by
  rw [find_normal]
  cases value.find key with
  | none => rfl
  | some item => exact h item

@[simp] theorem readUnsigned_normal (width : ℕ) (value : Json) (key : String) :
    readUnsigned width value.normal key = readUnsigned width value key :=
  find_bind_normal (fun item => by rw [unsignedValue_normal]) value key

@[simp] theorem readSigned32_normal (value : Json) (key : String) :
    readSigned32 value.normal key = readSigned32 value key :=
  find_bind_normal signed32Value_normal value key

@[simp] theorem readString_normal (value : Json) (key : String) :
    readString value.normal key = readString value key := by
  simp only [readString, find_normal]
  rcases value.find key with _ | (_ | _ | _ | _ | _ | _ | _) <;> rfl

@[simp] theorem readBoolean_normal (value : Json) (key : String) :
    readBoolean value.normal key = readBoolean value key := by
  simp only [readBoolean, find_normal]
  rcases value.find key with _ | (_ | _ | _ | _ | _ | _ | _) <;> rfl

@[simp] theorem readFiniteDouble_normal (value : Json) (key : String) :
    readFiniteDouble value.normal key = readFiniteDouble value key := by
  simp only [readFiniteDouble, find_normal]
  rcases value.find key with _ | (_ | _ | _ | _ | _ | _ | _) <;> rfl

@[simp] theorem readOptionalUnsigned64_normal (value : Json) (key : String) :
    readOptionalUnsigned64 value.normal key = readOptionalUnsigned64 value key := by
  refine find_bind_normal (fun item => ?_) value key
  cases item <;> simp [normal, unsignedValue]

@[simp] theorem readOptionalSigned32_normal (value : Json) (key : String) :
    readOptionalSigned32 value.normal key = readOptionalSigned32 value key := by
  refine find_bind_normal (fun item => ?_) value key
  cases item <;> simp [normal, signed32Value, unsignedValue, signedValue]

@[simp] theorem tokenIdsValue_normal (value : Json) :
    tokenIdsValue value.normal = tokenIdsValue value := by
  cases value with
  | arr =>
    simp only [normal, tokenIdsValue, normalItems_eq, mapM_map, Function.comp_def,
      signed32Value_normal]
  | _ => rfl

@[simp] theorem readTokenIds_normal (value : Json) (key : String) :
    readTokenIds value.normal key = readTokenIds value key :=
  find_bind_normal tokenIdsValue_normal value key

@[simp] theorem readStopSequences_normal (value : Json) (key : String) :
    readStopSequences value.normal key = readStopSequences value key := by
  simp only [readStopSequences, find_normal]
  rcases value.find key with _ | (_ | _ | _ | _ | _ | items | _)
  case some.arr =>
    simp only [map_some, normal, normalItems_eq, mapM_map, Function.comp_def,
      tokenIdsValue_normal]
  all_goals rfl

@[simp] theorem statusValue_normal (value : Json) : statusValue value.normal = statusValue value := by
  simp only [statusValue, exactFields_normal, readString_normal]

@[simp] theorem readStatusJson_normal (value : Json) (key : String) :
    readStatusJson value.normal key = readStatusJson value key :=
  find_bind_normal statusValue_normal value key

@[simp] theorem readManifestJson_normal (value : Json) (key : String) :
    readManifestJson value.normal key = readManifestJson value key := by
  refine find_bind_normal (fun item => ?_) value key
  simp only [manifestValue, exactFields_normal, readString_normal, readSigned32_normal,
    readUnsigned_normal]

@[simp] theorem readLimitsJson_normal (value : Json) (key : String) :
    readLimitsJson value.normal key = readLimitsJson value key := by
  refine find_bind_normal (fun item => ?_) value key
  simp only [limitsValue, exactFields_normal, readUnsigned_normal]

@[simp] theorem readSamplingJson_normal (value : Json) (key : String) :
    readSamplingJson value.normal key = readSamplingJson value key := by
  refine find_bind_normal (fun item => ?_) value key
  simp only [samplingValue, exactFields_normal, readFiniteDouble_normal, readSigned32_normal,
    readUnsigned_normal]

@[simp] theorem readUsageJson_normal (value : Json) (key : String) :
    readUsageJson value.normal key = readUsageJson value key := by
  refine find_bind_normal (fun item => ?_) value key
  simp only [usageValue, exactFields_normal, readUnsigned_normal]

@[simp] theorem readRequestEnvelope_normal (value : Json) :
    readRequestEnvelope value.normal = readRequestEnvelope value := by
  simp only [readRequestEnvelope, readUnsigned_normal]

theorem decodeRecord_normal {α : Type*} {fields : List String} {fieldsText valuesText : String}
    {read : Json → Option α} {wrap : α → Message} (h : ∀ value, read value.normal = read value)
    (value : Json) :
    decodeRecord fields fieldsText valuesText read wrap value.normal =
      decodeRecord fields fieldsText valuesText read wrap value := by
  simp only [decodeRecord, exactFields_normal, h]

theorem decodeTerminal_normal (value : Json) :
    decodeTerminal value.normal = decodeTerminal value := by
  have hreason : readFinishReason value.normal = readFinishReason value := by
    simp only [readFinishReason, find_normal]
    rcases value.find "finish_reason" with _ | (_ | _ | _ | _ | _ | _ | _) <;> rfl
  simp only [decodeTerminal, exactFields_normal, readTerminal, readRequestEnvelope_normal,
    readStatusJson_normal, readUsageJson_normal, hreason]

theorem decodeValue_normal (value : Json) : decodeValue value.normal = decodeValue value := by
  have hhello : decodeHello value.normal = decodeHello value :=
    decodeRecord_normal (fun v => by simp only [readHello, readUnsigned_normal,
      readString_normal]) value
  have hack : decodeHelloAck value.normal = decodeHelloAck value :=
    decodeRecord_normal (fun v => by simp only [readHelloAck, readUnsigned_normal,
      readManifestJson_normal, readLimitsJson_normal]) value
  have hsubmit : decodeSubmit value.normal = decodeSubmit value :=
    decodeRecord_normal (fun v => by simp only [readSubmit, readRequestEnvelope_normal,
      readSigned32_normal, readOptionalUnsigned64_normal, readString_normal, readTokenIds_normal,
      readUnsigned_normal, readBoolean_normal, readSamplingJson_normal,
      readOptionalSigned32_normal, readStopSequences_normal]) value
  have haccepted : decodeAccepted value.normal = decodeAccepted value :=
    decodeRecord_normal (fun v => by simp only [readAccepted, readRequestEnvelope_normal]) value
  have hrejected : decodeRejected value.normal = decodeRejected value :=
    decodeRecord_normal (fun v => by simp only [readRejected, readRequestEnvelope_normal,
      readStatusJson_normal]) value
  have hcancel : decodeCancel value.normal = decodeCancel value :=
    decodeRecord_normal (fun v => by simp only [readCancel, readRequestEnvelope_normal]) value
  have hdelta : decodeTokenDelta value.normal = decodeTokenDelta value :=
    decodeRecord_normal (fun v => by simp only [readTokenDelta, readRequestEnvelope_normal,
      readUnsigned_normal, readTokenIds_normal]) value
  have hhealth : decodeHealth value.normal = decodeHealth value :=
    decodeRecord_normal (fun v => by simp only [readHealth, readUnsigned_normal]) value
  have hstats : decodeStats value.normal = decodeStats value :=
    decodeRecord_normal (fun v => by simp only [readStats, readUnsigned_normal,
      readBoolean_normal, readStatusJson_normal]) value
  simp only [decodeValue, isObject_normal, readString_normal, hhello, hack, hsubmit, haccepted,
    hrejected, hcancel, hdelta, decodeTerminal_normal, hhealth, hstats]

/-! ## Printing -/

def ModelManifest.strings (m : ModelManifest) : List (List UInt8) :=
  [m.modelId, m.revision, m.tokenizerFingerprint, m.chatTemplateFingerprint, m.engineFingerprint,
    m.precision]

def Message.strings : Message → List (List UInt8)
  | .hello m => [m.modelId, m.revision]
  | .helloAck m => m.manifest.strings
  | .submit m => [m.traceId]
  | .rejected m | .terminal m | .stats m => [m.status.message]
  | _ => []

theorem printable_statusJson (s : Status) :
    (statusJson s).printable = Utf8.valid s.message := by
  have hcode : Utf8.valid (utf8 (statusCodeName s.code)) = true := by
    cases s.code <;> decide
  simp [statusJson, nameJson, Json.printable, Json.printableFields, hcode]

theorem printable_tokenIdsJson (tokenIds : List ℤ) : (tokenIdsJson tokenIds).printable = true := by
  rw [tokenIdsJson, Json.printable]
  induction tokenIds with
  | nil => rfl
  | cons i rest ih => simpa [Json.printableItems, Json.printable] using ih

theorem printable_stopSequences (sequences : List (List ℤ)) :
    Json.printableItems (sequences.map tokenIdsJson) = true := by
  induction sequences with
  | nil => rfl
  | cons tokenIds rest ih => simp [Json.printableItems, printable_tokenIdsJson, ih]

theorem printable_optionalInteger (value : Option ℤ) : (optionalInteger value).printable = true := by
  cases value <;> rfl

theorem printable_finishReasonJson (reason : Option FinishReason) :
    (finishReasonJson reason).printable = true := by
  rcases reason with _ | reason
  · rfl
  · cases reason <;> decide

theorem printable_messageJson (m : Message) :
    (messageJson m).printable = m.strings.all Utf8.valid := by
  have htype : (nameJson (messageTypeName m)).printable = true := by
    cases m <;> rfl
  cases m <;>
    simp only [messageTypeName] at htype <;>
    simp [messageJson, Json.printable, Json.printableFields, htype, natJson, Message.strings,
      ModelManifest.strings, manifestJson, limitsJson, samplingJson, usageJson,
      printable_statusJson, printable_tokenIdsJson, printable_stopSequences,
      printable_optionalInteger, printable_finishReasonJson]

/-! ## Writing back what was read -/

def asDouble : Json → Json
  | .int i => .float (Double.ofInt i)
  | value => value

def respellSampling (value : Json) : Json :=
  (value.mapField "temperature" asDouble).mapField "top_p" asDouble

/-- The value with the temperature and the top-p of a submission spelled as doubles. -/
def respell (value : Json) : Json := value.mapField "sampling" respellSampling

theorem carries_of_readUnsigned {width : ℕ} (hwidth : width ≤ 64) {n : ℕ}
    (h : readUnsigned width value key = some n) : value.Carries key (natJson n) :=
  carries_of_find ((readUnsigned_eq_some hwidth).mp h).1

theorem carries_of_readSigned32 {i : ℤ} (h : readSigned32 value key = some i) :
    value.Carries key (.int i) :=
  carries_of_find (readSigned32_eq_some.mp h).1

theorem carries_of_readString {s : List UInt8} (h : readString value key = some s) :
    value.Carries key (.str s) :=
  carries_of_find (readString_eq_some.mp h)

theorem carries_of_readBoolean {b : Bool} (h : readBoolean value key = some b) :
    value.Carries key (.bool b) :=
  carries_of_find (readBoolean_eq_some.mp h)

theorem carries_of_readOptionalUnsigned64 {n : Option ℕ}
    (h : readOptionalUnsigned64 value key = some n) :
    value.Carries key (optionalInteger (n.map Int.ofNat)) := by
  obtain ⟨item, hfind, h⟩ := bind_eq_some_iff.mp h
  refine carries_of_find ?_
  rw [hfind]
  split at h
  · cases h
    rfl
  · obtain ⟨k, hk, h⟩ := bind_eq_some_iff.mp h
    cases h
    rw [(unsignedValue_eq_some.mp hk).1]
    rfl

theorem carries_of_readOptionalSigned32 {i : Option ℤ}
    (h : readOptionalSigned32 value key = some i) : value.Carries key (optionalInteger i) := by
  obtain ⟨item, hfind, h⟩ := bind_eq_some_iff.mp h
  refine carries_of_find ?_
  rw [hfind]
  split at h
  · cases h
    rfl
  · obtain ⟨k, hk, h⟩ := bind_eq_some_iff.mp h
    cases h
    rw [(signed32Value_eq_some.mp hk).1]
    rfl

theorem carries_of_readTokenIds {tokenIds : List ℤ} (h : readTokenIds value key = some tokenIds) :
    value.Carries key (tokenIdsJson tokenIds) := by
  obtain ⟨item, hfind, h⟩ := bind_eq_some_iff.mp h
  rw [(tokenIdsValue_eq_some.mp h).1] at hfind
  exact carries_of_find hfind

theorem mapM_tokenIdsValue_eq_some {items : List Json} {sequences : List (List ℤ)}
    (h : items.mapM tokenIdsValue = some sequences) : items = sequences.map tokenIdsJson := by
  induction items generalizing sequences with
  | nil =>
    cases h
    rfl
  | cons item items ih =>
    rw [mapM_cons] at h
    obtain ⟨tokenIds, hitem, h⟩ := bind_eq_some_iff.mp h
    obtain ⟨rest, hrest, h⟩ := bind_eq_some_iff.mp h
    cases h
    rw [map_cons, ← ih hrest, (tokenIdsValue_eq_some.mp hitem).1]

theorem carries_of_readStopSequences {sequences : List (List ℤ)}
    (h : readStopSequences value key = some sequences) :
    value.Carries key (.arr (sequences.map tokenIdsJson)) := by
  unfold readStopSequences at h
  split at h
  · next items hfind => exact carries_of_find (mapM_tokenIdsValue_eq_some h ▸ hfind)
  · cases h

theorem carries_of_bind {α : Type} {read : Json → Option α} {write : α → Json} {a : α}
    (hread : ∀ item, read item = some a → item.normal = (write a).normal)
    (h : (value.find key >>= read) = some a) : value.Carries key (write a) := by
  obtain ⟨item, hfind, h⟩ := bind_eq_some_iff.mp h
  rw [Carries, hfind, map_some, hread item h]

theorem carries_of_readStatusJson {s : Status} (h : readStatusJson value key = some s) :
    value.Carries key (statusJson s) := by
  refine carries_of_bind (fun item hitem => ?_) h
  obtain ⟨hsame, hcode, hmessage⟩ := statusValue_eq_some.mp hitem
  exact normal_eq_obj hsame (by decide) rfl ⟨carries_of_find hcode, carries_of_find hmessage⟩

theorem carries_of_readManifestJson {m : ModelManifest} (h : readManifestJson value key = some m) :
    value.Carries key (manifestJson m) := by
  refine carries_of_bind (fun item hitem => ?_) h
  obtain ⟨hsame, ⟨h₁, h₂, h₃, h₄, h₅, h₁₁⟩, ⟨h₆, h₇⟩, h₈, h₉, h₁₀, h₁₂⟩ :=
    manifestValue_eq_some.mp hitem
  have h32 {k : String} {n : ℕ} := @carries_of_readUnsigned item k 32 (by decide) n
  exact normal_eq_obj hsame (by decide) rfl ⟨carries_of_readString h₁, carries_of_readString h₂, carries_of_readString h₃,
    carries_of_readString h₄, carries_of_readString h₅, carries_of_readSigned32 h₆,
    carries_of_readSigned32 h₇, h32 h₈, h32 h₉, h32 h₁₀, carries_of_readString h₁₁, h32 h₁₂⟩

theorem carries_of_readLimitsJson {l : WorkerLimits} (h : readLimitsJson value key = some l) :
    value.Carries key (limitsJson l) := by
  refine carries_of_bind (fun item hitem => ?_) h
  obtain ⟨hsame, h₁, h₂, h₃, h₄, h₅, h₆, h₇, h₈⟩ := limitsValue_eq_some.mp hitem
  have h32 {k : String} {n : ℕ} := @carries_of_readUnsigned item k 32 (by decide) n
  have h64 {k : String} {n : ℕ} := @carries_of_readUnsigned item k 64 (by decide) n
  exact normal_eq_obj hsame (by decide) rfl ⟨h32 h₁, h64 h₂, h64 h₃, h32 h₄, h32 h₅, h64 h₆, h32 h₇, h64 h₈⟩

theorem carries_of_readUsageJson {u : Usage} (h : readUsageJson value key = some u) :
    value.Carries key (usageJson u) := by
  refine carries_of_bind (fun item hitem => ?_) h
  rw [usageValue] at hitem
  split at hitem
  · cases hitem
  · next hfields =>
    obtain ⟨p, hp, hitem⟩ := bind_eq_some_iff.mp hitem
    obtain ⟨c, hc, hitem⟩ := bind_eq_some_iff.mp hitem
    cases hitem
    have hsame := (exactFields_eq_true (by decide)).mp (eq_true_of_ne_false hfields)
    exact normal_eq_obj hsame (by decide) rfl ⟨carries_of_readUnsigned le_rfl hp, carries_of_readUnsigned le_rfl hc⟩

theorem find_of_readFiniteDouble {x : Double} (h : readFiniteDouble value key = some x) :
    ∃ item, value.find key = some item ∧ asDouble item = .float x := by
  unfold readFiniteDouble at h
  split at h
  · next i hfind =>
    refine ⟨_, hfind, ?_⟩
    simp only [bind_eq_bind, bind_some] at h
    split at h
    · rw [asDouble, Option.some.inj h]
    · cases h
  · next y hfind =>
    refine ⟨_, hfind, ?_⟩
    simp only [bind_eq_bind, bind_some] at h
    split at h
    · exact congrArg Json.float (Option.some.inj h)
    · cases h
  · cases h

theorem normal_respellSampling {item : Json} {s : SamplingParameters}
    (h : samplingValue item = some s) : (respellSampling item).normal = (samplingJson s).normal := by
  rw [samplingValue] at h
  split at h
  · cases h
  · next hfields =>
    have hsame := (exactFields_eq_true (by decide)).mp (eq_true_of_ne_false hfields)
    obtain ⟨t, ht, h⟩ := bind_eq_some_iff.mp h
    obtain ⟨k, hk, h⟩ := bind_eq_some_iff.mp h
    obtain ⟨p, hp, h⟩ := bind_eq_some_iff.mp h
    obtain ⟨r, hr, h⟩ := bind_eq_some_iff.mp h
    cases h
    obtain ⟨t', htfind, ht'⟩ := find_of_readFiniteDouble ht
    obtain ⟨p', hpfind, hp'⟩ := find_of_readFiniteDouble hp
    have hkeep (key : String) {w : Json} (h₁ : key ≠ "temperature") (h₂ : key ≠ "top_p")
        (h : item.Carries key w) : (respellSampling item).Carries key w :=
      carries_mapField_of_ne h₂ (carries_mapField_of_ne h₁ h)
    have htemperature : (respellSampling item).Carries "temperature" (.float t) :=
      carries_mapField_of_ne (by decide) (ht' ▸ carries_mapField htfind)
    have htopP : (respellSampling item).Carries "top_p" (.float p) := by
      have hfind : (item.mapField "temperature" asDouble).find "top_p" = some p' := by
        rw [find_mapField, if_neg (by decide), hpfind]
      exact hp' ▸ carries_mapField hfind
    exact normal_eq_obj (sameFields_mapField (sameFields_mapField hsame)) (by decide) rfl
      ⟨htemperature, hkeep "top_k" (by decide) (by decide) (carries_of_readSigned32 hk), htopP,
        hkeep "random_seed" (by decide) (by decide) (carries_of_readUnsigned le_rfl hr)⟩

theorem carries_of_readSamplingJson {s : SamplingParameters}
    (h : readSamplingJson value "sampling" = some s) :
    (respell value).Carries "sampling" (samplingJson s) := by
  obtain ⟨item, hfind, h⟩ := bind_eq_some_iff.mp h
  have hcarries : (respell value).Carries "sampling" (respellSampling item) :=
    carries_mapField hfind
  rwa [Carries, normal_respellSampling h] at hcarries

/-! ## Messages -/

theorem respell_of_sameFields {names : List String} (h : value.SameFields names)
    (hsampling : "sampling" ∉ names) : (respell value).normal = value.normal := by
  refine normal_eq_of_fields (sameFields_mapField h) h fun key hkey => ?_
  have hne : key ≠ "sampling" := fun heq => hsampling (heq ▸ hkey)
  rw [respell, find_mapField, if_neg hne]

theorem carries_of_readRequestEnvelope {v e r : ℕ}
    (h : readRequestEnvelope value = some (v, e, r)) :
    value.Carries "protocol_version" (natJson v) ∧ value.Carries "worker_epoch" (natJson e) ∧
      value.Carries "request_id" (natJson r) := by
  obtain ⟨v', hv, h⟩ := bind_eq_some_iff.mp h
  obtain ⟨e', he, h⟩ := bind_eq_some_iff.mp h
  obtain ⟨r', hr, h⟩ := bind_eq_some_iff.mp h
  cases h
  exact ⟨carries_of_readUnsigned (by decide) hv, carries_of_readUnsigned (by decide) he,
    carries_of_readUnsigned (by decide) hr⟩

theorem normal_respell_of_fields {names : List String} {fields : List (String × Json)}
    (hsame : value.SameFields names) (hnodup : names.Nodup) (hsampling : "sampling" ∉ names)
    (hnames : fields.map Prod.fst = names)
    (h : fields.Forall fun field => value.Carries field.1 field.2) :
    (respell value).normal = (Json.obj fields).normal := by
  rw [respell_of_sameFields hsame hsampling]
  exact normal_eq_obj hsame hnodup hnames h

/-- What a decoder accepts under this type is, spelled with doubles, what is written. -/
def Respells (type : String) (decode : Json → Except Status Message) : Prop :=
  ∀ value m, value.Carries "type" (nameJson type) → decode value = .ok m →
    (respell value).normal = (messageJson m).normal

theorem respell_of_decodeHello : Respells "hello" decodeHello := by
  intro value m htype h
  obtain ⟨hsame, a, hread, -, rfl⟩ := (decodeRecord_eq_ok (by decide)).mp h
  simp only [readHello, bind, bind_eq_some_iff, pure, Option.some.injEq] at hread
  obtain ⟨v, hv, i, hi, r, hr, rfl⟩ := hread
  exact normal_respell_of_fields hsame (by decide) (by decide) rfl
    ⟨htype, carries_of_readUnsigned (by decide) hv, carries_of_readString hi,
      carries_of_readString hr⟩

theorem respell_of_decodeHelloAck : Respells "hello_ack" decodeHelloAck := by
  intro value m htype h
  obtain ⟨hsame, a, hread, -, rfl⟩ := (decodeRecord_eq_ok (by decide)).mp h
  simp only [readHelloAck, bind, bind_eq_some_iff, pure, Option.some.injEq] at hread
  obtain ⟨v, hv, e, he, manifest, hm, limits, hl, rfl⟩ := hread
  exact normal_respell_of_fields hsame (by decide) (by decide) rfl
    ⟨htype, carries_of_readUnsigned (by decide) hv, carries_of_readUnsigned (by decide) he,
      carries_of_readManifestJson hm, carries_of_readLimitsJson hl⟩

theorem respell_of_decodeSubmit : Respells "submit" decodeSubmit := by
  intro value m htype h
  obtain ⟨hsame, a, hread, -, rfl⟩ := (decodeRecord_eq_ok (by decide)).mp h
  obtain ⟨⟨v, e, r⟩, henvelope, hread⟩ := bind_eq_some_iff.mp hread
  obtain ⟨priority, hpriority, hread⟩ := bind_eq_some_iff.mp hread
  obtain ⟨timeout, htimeout, hread⟩ := bind_eq_some_iff.mp hread
  obtain ⟨trace, htrace, hread⟩ := bind_eq_some_iff.mp hread
  obtain ⟨input, hinput, hread⟩ := bind_eq_some_iff.mp hread
  obtain ⟨maxNew, hmaxNew, hread⟩ := bind_eq_some_iff.mp hread
  obtain ⟨streaming, hstreaming, hread⟩ := bind_eq_some_iff.mp hread
  obtain ⟨sampling, hsampling, hread⟩ := bind_eq_some_iff.mp hread
  obtain ⟨endId, hend, hread⟩ := bind_eq_some_iff.mp hread
  obtain ⟨padId, hpad, hread⟩ := bind_eq_some_iff.mp hread
  obtain ⟨stop, hstop, hread⟩ := bind_eq_some_iff.mp hread
  cases hread
  obtain ⟨hv, he, hr⟩ := carries_of_readRequestEnvelope henvelope
  have hkeep (key : String) {item : Json} (hne : key ≠ "sampling") (hc : value.Carries key item) :
      (respell value).Carries key item := carries_mapField_of_ne hne hc
  exact normal_eq_obj (sameFields_mapField hsame) (by decide) rfl
    ⟨hkeep "type" (by decide) htype, hkeep "protocol_version" (by decide) hv,
      hkeep "worker_epoch" (by decide) he, hkeep "request_id" (by decide) hr,
      hkeep "priority" (by decide) (carries_of_readSigned32 hpriority),
      hkeep "timeout_ms" (by decide) (carries_of_readOptionalUnsigned64 htimeout),
      hkeep "trace_id" (by decide) (carries_of_readString htrace),
      hkeep "input_token_ids" (by decide) (carries_of_readTokenIds hinput),
      hkeep "max_new_tokens" (by decide) (carries_of_readUnsigned (by decide) hmaxNew),
      hkeep "streaming" (by decide) (carries_of_readBoolean hstreaming),
      carries_of_readSamplingJson hsampling,
      hkeep "end_id" (by decide) (carries_of_readOptionalSigned32 hend),
      hkeep "pad_id" (by decide) (carries_of_readOptionalSigned32 hpad),
      hkeep "stop_sequences" (by decide) (carries_of_readStopSequences hstop)⟩

theorem respell_of_decodeAccepted : Respells "accepted" decodeAccepted := by
  intro value m htype h
  obtain ⟨hsame, a, hread, -, rfl⟩ := (decodeRecord_eq_ok (by decide)).mp h
  obtain ⟨⟨v, e, r⟩, henvelope, hread⟩ := bind_eq_some_iff.mp hread
  cases hread
  exact normal_respell_of_fields hsame (by decide) (by decide) rfl ⟨htype, carries_of_readRequestEnvelope henvelope⟩

theorem respell_of_decodeRejected : Respells "rejected" decodeRejected := by
  intro value m htype h
  obtain ⟨hsame, a, hread, -, rfl⟩ := (decodeRecord_eq_ok (by decide)).mp h
  obtain ⟨⟨v, e, r⟩, henvelope, hread⟩ := bind_eq_some_iff.mp hread
  obtain ⟨hv, he, hr⟩ := carries_of_readRequestEnvelope henvelope
  obtain ⟨status, hstatus, hread⟩ := bind_eq_some_iff.mp hread
  cases hread
  exact normal_respell_of_fields hsame (by decide) (by decide) rfl ⟨htype, hv, he, hr, carries_of_readStatusJson hstatus⟩

theorem respell_of_decodeCancel : Respells "cancel" decodeCancel := by
  intro value m htype h
  obtain ⟨hsame, a, hread, -, rfl⟩ := (decodeRecord_eq_ok (by decide)).mp h
  obtain ⟨⟨v, e, r⟩, henvelope, hread⟩ := bind_eq_some_iff.mp hread
  cases hread
  exact normal_respell_of_fields hsame (by decide) (by decide) rfl ⟨htype, carries_of_readRequestEnvelope henvelope⟩

theorem respell_of_decodeTokenDelta : Respells "token_delta" decodeTokenDelta := by
  intro value m htype h
  obtain ⟨hsame, a, hread, -, rfl⟩ := (decodeRecord_eq_ok (by decide)).mp h
  obtain ⟨⟨v, e, r⟩, henvelope, hread⟩ := bind_eq_some_iff.mp hread
  obtain ⟨hv, he, hr⟩ := carries_of_readRequestEnvelope henvelope
  obtain ⟨n, hn, hread⟩ := bind_eq_some_iff.mp hread
  obtain ⟨tokenIds, htokens, hread⟩ := bind_eq_some_iff.mp hread
  cases hread
  exact normal_respell_of_fields hsame (by decide) (by decide) rfl ⟨htype, hv, he, hr, carries_of_readUnsigned (by decide) hn, carries_of_readTokenIds htokens⟩

theorem respell_of_decodeTerminal : Respells "terminal" decodeTerminal := by
  intro value m htype h
  obtain ⟨hsame, v, e, r, s, u, f, henvelope, hstatus, husage, hreason, -, rfl⟩ :=
    decodeTerminal_eq_ok.mp h
  obtain ⟨hv, he, hr⟩ := carries_of_readRequestEnvelope henvelope
  exact normal_respell_of_fields hsame (by decide) (by decide) rfl ⟨htype, hv, he, hr, carries_of_readStatusJson (readStatusJson_eq_some.mpr hstatus),
    carries_of_find hreason, carries_of_readUsageJson (bind_eq_some_iff.mpr husage)⟩

theorem respell_of_decodeHealth : Respells "health" decodeHealth := by
  intro value m htype h
  obtain ⟨hsame, a, hread, -, rfl⟩ := (decodeRecord_eq_ok (by decide)).mp h
  simp only [readHealth, bind, bind_eq_some_iff, pure, Option.some.injEq] at hread
  obtain ⟨v, hv, e, he, p, hp, rfl⟩ := hread
  exact normal_respell_of_fields hsame (by decide) (by decide) rfl
    ⟨htype, carries_of_readUnsigned (by decide) hv, carries_of_readUnsigned (by decide) he,
      carries_of_readUnsigned (by decide) hp⟩

theorem respell_of_decodeStats : Respells "stats" decodeStats := by
  intro value m htype h
  obtain ⟨hsame, a, hread, -, rfl⟩ := (decodeRecord_eq_ok (by decide)).mp h
  obtain ⟨⟨h₁, h₂, h₃, h₄, h₅⟩, ⟨h₆, h₇, h₈, h₉⟩, ⟨h₁₀, h₁₁, h₁₂, h₁₃⟩, h₁₄, h₁₅, h₁₆⟩ :=
    readStats_eq_some.mp hread
  have h64 {k : String} {n : ℕ} := @carries_of_readUnsigned value k 64 (by decide) n
  exact normal_respell_of_fields hsame (by decide) (by decide) rfl ⟨htype, carries_of_readUnsigned (by decide) h₁, h64 h₂, h64 h₃, carries_of_readBoolean h₄,
    carries_of_readStatusJson h₅, h64 h₆, h64 h₇, h64 h₈, h64 h₉, h64 h₁₀, h64 h₁₁, h64 h₁₂,
    h64 h₁₃, h64 h₁₄, h64 h₁₅, h64 h₁₆⟩

def decoders : List (String × (Json → Except Status Message)) :=
  [("hello", decodeHello), ("hello_ack", decodeHelloAck), ("submit", decodeSubmit),
    ("accepted", decodeAccepted), ("rejected", decodeRejected), ("cancel", decodeCancel),
    ("token_delta", decodeTokenDelta), ("terminal", decodeTerminal), ("health", decodeHealth),
    ("stats", decodeStats)]

section
variable {value : Json} {m : Message}

/-- The first decoder whose name is the type is the one that runs. -/
theorem decoder_of_foldr (table : List (String × (Json → Except Status Message)))
    {type : List UInt8} {e : Status}
    (h : table.foldr (fun decoder rest => if type = utf8 decoder.1 then decoder.2 value else rest)
      (.error e) = .ok m) :
    ∃ decoder ∈ table, type = utf8 decoder.1 ∧ decoder.2 value = .ok m := by
  induction table with
  | nil => cases h
  | cons decoder table ih =>
    rcases ite_eq_iff.mp h with ⟨hname, hok⟩ | ⟨-, hrest⟩
    · exact ⟨decoder, mem_cons_self, hname, hok⟩
    · obtain ⟨found, hmem, hfound⟩ := ih hrest
      exact ⟨found, mem_cons_of_mem decoder hmem, hfound⟩

theorem decodeValue_inv (h : decodeValue value = .ok m) :
    ∃ decoder ∈ decoders, value.find "type" = some (nameJson decoder.1) ∧
      decoder.2 value = .ok m := by
  rw [decodeValue] at h
  rcases ite_eq_iff.mp h with ⟨-, h⟩ | ⟨-, h⟩
  · cases h
  · cases htype : readString value "type" with
    | none =>
      rw [htype] at h
      cases h
    | some type =>
      rw [htype] at h
      obtain ⟨decoder, hmem, rfl, hok⟩ := decoder_of_foldr decoders h
      exact ⟨decoder, hmem, readString_eq_some.mp htype, hok⟩

theorem respells_decoders : decoders.Forall fun decoder => Respells decoder.1 decoder.2 :=
  ⟨respell_of_decodeHello, respell_of_decodeHelloAck, respell_of_decodeSubmit,
    respell_of_decodeAccepted, respell_of_decodeRejected, respell_of_decodeCancel,
    respell_of_decodeTokenDelta, respell_of_decodeTerminal, respell_of_decodeHealth,
    respell_of_decodeStats⟩

theorem respell_of_decodeValue (h : decodeValue value = .ok m) :
    (respell value).normal = (messageJson m).normal := by
  obtain ⟨decoder, hmem, htype, h⟩ := decodeValue_inv h
  exact forall_iff_forall_mem.mp respells_decoders decoder hmem value m (carries_of_find htype) h

theorem decodeRecord_validate {α : Type*} {fields : List String} {fieldsText valuesText : String}
    {read : Json → Option α} {wrap : α → Message}
    (h : decodeRecord fields fieldsText valuesText read wrap value = .ok m) :
    m.validate = .ok () := by
  unfold decodeRecord at h
  split at h
  · cases h
  · split at h
    · cases h
    · obtain ⟨hvalid, rfl⟩ := decoded_eq_ok.mp h
      exact hvalid

theorem decodeValue_validate (h : decodeValue value = .ok m) : m.validate = .ok () := by
  obtain ⟨decoder, hmem, -, h⟩ := decodeValue_inv h
  simp only [decoders, mem_cons, not_mem_nil, or_false] at hmem
  rcases hmem with rfl | rfl | rfl | rfl | rfl | rfl | rfl | rfl | rfl | rfl
  case inr.inr.inr.inr.inr.inr.inr.inl =>
    obtain ⟨-, v, e, r, s, u, f, -, -, -, -, hvalid, rfl⟩ := decodeTerminal_eq_ok.mp h
    exact hvalid
  all_goals exact decodeRecord_validate h

theorem printable_respell (h : value.printable = true) : (respell value).printable = true := by
  have hnumber : ∀ item : Json, item.printable = true → (asDouble item).printable = true := by
    intro item hitem
    cases item <;> first | rfl | exact hitem
  exact printable_mapField (fun _ hitem =>
    printable_mapField hnumber (printable_mapField hnumber hitem)) h

theorem valid_of_find (key : String) {s : List UInt8} (h : value.normal.printable = true)
    (hfind : value.find key = some (.str s)) : Utf8.valid s = true := by
  have hnormal : value.normal.find key = some (.str s) := by
    rw [find_normal, hfind]
    rfl
  exact printable_of_find h hnormal

theorem normal_printable_of_find {item : Json} (key : String) (h : value.normal.printable = true)
    (hfind : value.find key = some item) : item.normal.printable = true := by
  have hnormal : value.normal.find key = some item.normal := by
    rw [find_normal, hfind, map_some]
  exact printable_of_find h hnormal

theorem strings_valid (h : (messageJson m).normal.printable = true) :
    ∀ s ∈ m.strings, Utf8.valid s = true := by
  have hfield (key : String) {s : List UInt8} (hfind : (messageJson m).find key = some (.str s)) :=
    valid_of_find key h hfind
  have hstatus {s : Status} (hfind : (messageJson m).find "status" = some (statusJson s)) :
      Utf8.valid s.message = true :=
    valid_of_find "message" (normal_printable_of_find "status" h hfind) rfl
  refine forall_iff_forall_mem.mp ?_
  cases m with
  | hello => exact ⟨hfield "model_id" rfl, hfield "revision" rfl⟩
  | helloAck m =>
    have hmanifest (key : String) {s : List UInt8}
        (hfind : (manifestJson m.manifest).find key = some (.str s)) : Utf8.valid s = true :=
      valid_of_find key (normal_printable_of_find "manifest" h rfl) hfind
    exact ⟨hmanifest "model_id" rfl, hmanifest "revision" rfl,
      hmanifest "tokenizer_fingerprint" rfl, hmanifest "chat_template_fingerprint" rfl,
      hmanifest "engine_fingerprint" rfl, hmanifest "precision" rfl⟩
  | submit => exact hfield "trace_id" rfl
  | rejected | terminal | stats => exact hstatus rfl
  | _ => trivial

end

/-! ## The spelling of numbers -/

theorem readFiniteDouble_mapField (key : String) (value : Json) (k : String) :
    readFiniteDouble (value.mapField key asDouble) k = readFiniteDouble value k := by
  by_cases hk : k = key
  · rw [readFiniteDouble, readFiniteDouble, find_mapField, if_pos hk]
    rcases value.find k with _ | (_ | _ | _ | _ | _ | _ | _) <;>
      simp only [map_none, map_some, asDouble]
  · rw [readFiniteDouble, readFiniteDouble, find_mapField, if_neg hk]

theorem exactFields_mapField (key : String) (f : Json → Json) (value : Json)
    (fields : List String) : exactFields (value.mapField key f) fields = exactFields value fields := by
  have hkeys : (value.mapField key f).keys = value.keys := keys_mapField key f value
  have hsome (k : String) : ((value.mapField key f).find k).isSome = (value.find k).isSome := by
    rw [find_mapField]
    split
    · exact isSome_map
    · rfl
  simp only [exactFields, hkeys, hsome, isObject_mapField]

theorem samplingValue_respell (value : Json) :
    samplingValue (respellSampling value) = samplingValue value := by
  have hfind (k : String) (h₁ : k ≠ "temperature") (h₂ : k ≠ "top_p") :
      (respellSampling value).find k = value.find k := by
    rw [respellSampling, find_mapField, if_neg h₂, find_mapField, if_neg h₁]
  have hseed : readUnsigned 64 (respellSampling value) "random_seed" =
      readUnsigned 64 value "random_seed" := by
    rw [readUnsigned, readUnsigned, hfind "random_seed" (by decide) (by decide)]
  have htopK : readSigned32 (respellSampling value) "top_k" = readSigned32 value "top_k" := by
    rw [readSigned32, readSigned32, hfind "top_k" (by decide) (by decide)]
  simp only [samplingValue, hseed, htopK]
  simp only [respellSampling, exactFields_mapField, readFiniteDouble_mapField]

theorem decodeSubmit_respell (value : Json) : decodeSubmit (respell value) = decodeSubmit value := by
  have hfind (k : String) (hk : k ≠ "sampling") : (respell value).find k = value.find k := by
    rw [respell, find_mapField, if_neg hk]
  have hsampling : readSamplingJson (respell value) "sampling" =
      readSamplingJson value "sampling" := by
    rw [readSamplingJson, readSamplingJson, respell, find_mapField, if_pos rfl]
    cases value.find "sampling" with
    | none => rfl
    | some item => exact samplingValue_respell item
  have hread : readSubmit (respell value) = readSubmit value := by
    simp only [readSubmit, hsampling, readRequestEnvelope, readUnsigned, readSigned32,
      readOptionalUnsigned64, readString, readTokenIds, readBoolean, readOptionalSigned32,
      readStopSequences, hfind, ne_eq, String.reduceEq, not_false_eq_true]
  simp only [decodeSubmit, decodeRecord, hread]
  rw [respell, exactFields_mapField]

/-! ## The codec -/

section
variable [JsonLib]

theorem encodePayload_ok_iff (m : Message) :
    (∃ payload, encodePayload m = .ok payload) ↔
      m.validate = .ok () ∧ ∀ s ∈ m.strings, Utf8.valid s = true := by
  rw [← List.all_eq_true, ← printable_messageJson]
  constructor
  · rintro ⟨payload, h⟩
    obtain ⟨hvalid, hprintable, -⟩ := encodePayload_eq_ok.mp h
    exact ⟨hvalid, hprintable⟩
  · rintro ⟨hvalid, hprintable⟩
    exact ⟨_, encodePayload_eq_ok.mpr ⟨hvalid, hprintable, rfl⟩⟩

/-- The parser returns the object of a printed message, with its keys in order;
strings of parsed values are UTF-8. -/
theorem payload_codec (parse : List UInt8 → Except (List UInt8) Json) :
    (∀ (m : Message) (payload : List UInt8), m.InRange →
      parse (messageJson m).dump = .ok (messageJson m).normal →
      encodePayload m = .ok payload → decodePayload parse payload = .ok m) ∧
    (∀ m : Message, (∃ payload, encodePayload m = .ok payload) ↔
      m.validate = .ok () ∧ ∀ s ∈ m.strings, Utf8.valid s = true) ∧
    (∀ (payload : List UInt8) (value : Json) (m : Message), parse payload = .ok value →
      value.printable = true → decodePayload parse payload = .ok m →
      encodePayload m = .ok (messageJson m).dump ∧
        (messageJson m).normal = (respell value).normal) := by
  refine ⟨fun m payload hrange hparse hencode => ?_, encodePayload_ok_iff,
    fun payload value m hparse hprintable hdecode => ?_⟩
  · obtain ⟨hvalid, -, rfl⟩ := encodePayload_eq_ok.mp hencode
    rw [decodePayload, hparse]
    exact (decodeValue_normal _).trans (decodeValue_messageJson hrange hvalid)
  · rw [decodePayload, hparse] at hdecode
    have hsame := respell_of_decodeValue hdecode
    have hstrings : ∀ s ∈ m.strings, Utf8.valid s = true :=
      strings_valid (hsame ▸ printable_normal (printable_respell hprintable))
    refine ⟨encodePayload_eq_ok.mpr ⟨decodeValue_validate hdecode, ?_, rfl⟩, hsame.symm⟩
    rw [printable_messageJson]
    exact List.all_eq_true.mpr hstrings

end

def greedySubmit : Submit :=
  { workerEpoch := 1, requestId := 7, inputTokenIds := [5, 6], maxNewTokens := 2, endId := some 2
    stopSequences := [[3]] }

theorem greedySubmit_inRange : (Message.submit greedySubmit).InRange where
  envelope := by decide
  priority := by decide
  timeoutMs := by decide
  inputTokenIds := by decide
  maxNewTokens := by decide
  topK := by decide
  randomSeed := by decide
  endId := by decide
  padId := by decide
  stopSequences := by decide

def integerTemperature : Json :=
  (messageJson (.submit greedySubmit)).mapField "sampling"
    (Json.mapField "temperature" fun _ => .int 1)

/-- The encoded submission is read back, and so is its text with a temperature of `1` for
`1.0`. -/
theorem payload_codec_greedySubmit :
    decodePayload (reads (@Json.dump plainJson (messageJson (.submit greedySubmit)))
        (messageJson (.submit greedySubmit)).normal)
        (@Json.dump plainJson (messageJson (.submit greedySubmit))) = .ok (.submit greedySubmit) ∧
      @Json.dump plainJson integerTemperature ≠
        @Json.dump plainJson (messageJson (.submit greedySubmit)) ∧
      (messageJson (.submit greedySubmit)).normal = (respell integerTemperature).normal := by
  have hencoded := (@encodePayload_eq_ok plainJson (.submit greedySubmit) _).mpr ⟨rfl, rfl, rfl⟩
  have hread : reads (@Json.dump plainJson integerTemperature) integerTemperature
      (@Json.dump plainJson integerTemperature) = .ok integerTemperature := if_pos rfl
  exact ⟨(@payload_codec plainJson _).1 _ _ greedySubmit_inRange (if_pos rfl) hencoded,
    by decide +kernel,
    ((@payload_codec plainJson _).2.2 _ integerTemperature (.submit greedySubmit) hread
      (by decide +kernel) (by decide +kernel)).2⟩

end KimServing.Ipc

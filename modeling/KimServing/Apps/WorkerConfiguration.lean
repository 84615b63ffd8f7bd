import KimServing.Ipc.DecodeSpec
import KimServing.Library.Traverse
import KimServing.Runtime.SloBuckets

/-! # The SLO profile in the worker's configuration

The loader reads a configuration that people write, so each check throws a text that names
the field. Numbers of the profile are finite once they are read; the policy they are for is
built over the rationals.
-/
namespace KimServing.WorkerConfigurationLoader
open Library Ipc

def requireExactFields (object : Json) (fields : List String) (description : String) :
    Except String Unit :=
  if object.isObject = false ∨ object.keys.length ≠ fields.length then
    .error (description ++ " contains missing or unexpected fields")
  else
    match fields.find? (fun field => (object.find field).isNone) with
    | some field => .error (description ++ " is missing field " ++ field)
    | none => .ok ()

def requireString (object : Json) (key : String) : Except String (List UInt8) :=
  match object.find key with
  | some (.str s) => if s = [] then .error (key ++ " must not be empty") else .ok s
  | _ => .error (key ++ " must be a string")

/-- An integer of a machine type with the given bounds. The parser stores integers in 64
bits and larger ones as doubles. -/
def requireInteger (least greatest : ℤ) (object : Json) (key : String) : Except String ℤ :=
  match object.find key with
  | some (.int i) =>
    if i < -2 ^ 63 ∨ 2 ^ 64 ≤ i then .error (key ++ " must be an integer")
    else if i < least ∨ greatest < i then .error (key ++ " is outside the supported range")
    else .ok i
  | _ => .error (key ++ " must be an integer")

def requireSize (object : Json) (key : String) : Except String UInt64 := do
  let value ← requireInteger 0 (2 ^ 64 - 1) object key
  return UInt64.ofNat value.toNat

def requireNumber (object : Json) (key : String) (allowZero : Bool) : Except String ℚ := do
  let result ← match object.find key with
    | some (.int i) => .ok (Double.ofInt i)
    | some (.float x) => .ok x
    | _ => .error (key ++ " must be numeric")
  match result with
  | .finite q =>
    if (if allowZero then q < 0 else q ≤ 0) then .error (key ++ " is outside the supported range")
    else .ok q
  | _ => .error (key ++ " is outside the supported range")

def parseSloEntry (entry : Json) : Except String (SloProfileEntry ℚ) := do
  requireExactFields entry ["max_input_tokens", "active_requests", "predicted_ttft_p95_ms"]
    "slo_policy entry"
  let maxInputTokens ← requireSize entry "max_input_tokens"
  let activeRequests ← requireSize entry "active_requests"
  let predictedTtftP95Ms ← requireNumber entry "predicted_ttft_p95_ms" false
  return ⟨maxInputTokens, activeRequests, predictedTtftP95Ms⟩

def requireEntries (object : Json) : Except String (List Json) :=
  match object.find "entries" with
  | some (.arr (entry :: rest)) => .ok (entry :: rest)
  | _ => .error "slo_policy.entries must be a non-empty array"

def parseSloPolicy (object : Json) : Except String (SloAdmissionPolicyConfig ℚ) := do
  requireExactFields object ["model_id", "revision", "engine_fingerprint", "ttft_slo_ms",
    "safety_margin_ms", "entries"] "slo_policy"
  let entries ← requireEntries object
  let modelId ← requireString object "model_id"
  let revision ← requireString object "revision"
  let engineFingerprint ← requireString object "engine_fingerprint"
  let ttftSloMs ← requireNumber object "ttft_slo_ms" false
  let safetyMarginMs ← requireNumber object "safety_margin_ms" true
  let entries ← entries.mapM parseSloEntry
  return ⟨modelId, revision, engineFingerprint, ttftSloMs, safetyMarginMs, entries⟩

/-! ## What is accepted -/

variable {object : Json} {key : String}

theorem requireString_ok {s : List UInt8} (hfind : object.find key = some (.str s)) (hs : s ≠ []) :
    requireString object key = .ok s := by
  simp only [requireString, hfind, if_neg hs]

theorem requireSize_ok {i : ℤ} (hfind : object.find key = some (.int i)) (hi : 0 ≤ i)
    (hlt : i < 2 ^ 64) : requireSize object key = .ok (UInt64.ofNat i.toNat) := by
  have hread : requireInteger 0 (2 ^ 64 - 1) object key = .ok i := by
    simp only [requireInteger, hfind]
    rw [if_neg (by omega), if_neg (by omega)]
  rw [requireSize, hread]
  rfl

theorem requireNumber_ok {q : ℚ} {allowZero : Bool}
    (hfind : object.find key = some (.float (.finite q)))
    (hq : ¬ (if allowZero then q < 0 else q ≤ 0)) : requireNumber object key allowZero = .ok q := by
  simp only [requireNumber, hfind, bind, Except.bind]
  rw [if_neg hq]

theorem requireExactFields_ok {fields : List String} {values : List (String × Json)}
    (hfields : values.map Prod.fst = fields) (hnodup : fields.Nodup) (description : String) :
    requireExactFields (.obj values) fields description = .ok () := by
  have hkeys : (Json.obj values).keys = fields := by
    rw [Json.keys, hfields, hnodup.dedup]
  have hfound : fields.find? (fun field => ((Json.obj values).find field).isNone) = none := by
    rw [List.find?_eq_none]
    intro field hfield
    rw [← hkeys, Json.mem_keys, Option.isSome_iff_ne_none] at hfield
    rwa [Option.isNone_iff_eq_none]
  rw [requireExactFields, if_neg (by simp [Json.isObject, hkeys]), hfound]

theorem parseSloEntry_ok {entry : Json} {maxInputTokens activeRequests : ℤ} {predicted : ℚ}
    (hfields : requireExactFields entry
      ["max_input_tokens", "active_requests", "predicted_ttft_p95_ms"] "slo_policy entry" = .ok ())
    (hfindTokens : entry.find "max_input_tokens" = some (.int maxInputTokens))
    (hfindActive : entry.find "active_requests" = some (.int activeRequests))
    (hfindPredicted : entry.find "predicted_ttft_p95_ms" = some (.float (.finite predicted)))
    (htokens : 0 ≤ maxInputTokens ∧ maxInputTokens < 2 ^ 64)
    (hactive : 0 ≤ activeRequests ∧ activeRequests < 2 ^ 64) (hpredicted : 0 < predicted) :
    parseSloEntry entry =
      .ok ⟨UInt64.ofNat maxInputTokens.toNat, UInt64.ofNat activeRequests.toNat, predicted⟩ := by
  refine bind_eq_ok.mpr ⟨(), hfields, ?_⟩
  refine bind_eq_ok.mpr ⟨_, requireSize_ok hfindTokens htokens.1 htokens.2, ?_⟩
  refine bind_eq_ok.mpr ⟨_, requireSize_ok hfindActive hactive.1 hactive.2, ?_⟩
  exact bind_eq_ok.mpr
    ⟨_, requireNumber_ok hfindPredicted (by simpa using hpredicted), rfl⟩

theorem parseSloPolicy_ok {object : Json} {modelId revision engineFingerprint : List UInt8}
    {ttftSloMs safetyMarginMs : ℚ} {entries : List Json} {parsed : List (SloProfileEntry ℚ)}
    (hfields : requireExactFields object ["model_id", "revision", "engine_fingerprint",
      "ttft_slo_ms", "safety_margin_ms", "entries"] "slo_policy" = .ok ())
    (hfindModel : object.find "model_id" = some (.str modelId))
    (hfindRevision : object.find "revision" = some (.str revision))
    (hfindFingerprint : object.find "engine_fingerprint" = some (.str engineFingerprint))
    (hfindSlo : object.find "ttft_slo_ms" = some (.float (.finite ttftSloMs)))
    (hfindMargin : object.find "safety_margin_ms" = some (.float (.finite safetyMarginMs)))
    (hfindEntries : object.find "entries" = some (.arr entries))
    (hmodel : modelId ≠ []) (hrevision : revision ≠ []) (hfingerprint : engineFingerprint ≠ [])
    (hslo : 0 < ttftSloMs) (hmargin : 0 ≤ safetyMarginMs) (hne : entries ≠ [])
    (hparsed : entries.mapM parseSloEntry = .ok parsed) :
    parseSloPolicy object =
      .ok ⟨modelId, revision, engineFingerprint, ttftSloMs, safetyMarginMs, parsed⟩ := by
  obtain ⟨entry, rest, rfl⟩ := List.exists_cons_of_ne_nil hne
  have hentries : requireEntries object = .ok (entry :: rest) := by
    rw [requireEntries, hfindEntries]
  refine bind_eq_ok.mpr ⟨(), hfields, ?_⟩
  refine bind_eq_ok.mpr ⟨_, hentries, ?_⟩
  refine bind_eq_ok.mpr ⟨_, requireString_ok hfindModel hmodel, ?_⟩
  refine bind_eq_ok.mpr ⟨_, requireString_ok hfindRevision hrevision, ?_⟩
  refine bind_eq_ok.mpr ⟨_, requireString_ok hfindFingerprint hfingerprint, ?_⟩
  refine bind_eq_ok.mpr ⟨_, requireNumber_ok hfindSlo (by simpa using hslo), ?_⟩
  refine bind_eq_ok.mpr ⟨_, requireNumber_ok hfindMargin (by simpa using hmargin), ?_⟩
  exact bind_eq_ok.mpr ⟨parsed, hparsed, rfl⟩

/-! ## What an accepted value looks like -/

theorem lt_of_requireSize {i : ℤ} {n : UInt64} (hfind : object.find key = some (.int i))
    (h : requireSize object key = .ok n) : i < 2 ^ 64 := by
  obtain ⟨value, hvalue, -⟩ := bind_eq_ok.mp h
  simp only [requireInteger, hfind] at hvalue
  split at hvalue
  · cases hvalue
  next hrange => omega

theorem finite_of_requireNumber {x : Double} {q : ℚ} {allowZero : Bool}
    (hfind : object.find key = some (.float x)) (h : requireNumber object key allowZero = .ok q) :
    x.isFinite = true := by
  simp only [requireNumber, hfind, bind, Except.bind] at h
  cases x with
  | finite => rfl
  | infinite | nan => cases h

theorem lt_of_parseSloEntry {i : ℤ} {entry : SloProfileEntry ℚ}
    (hfind : object.find "max_input_tokens" = some (.int i)) (h : parseSloEntry object = .ok entry) :
    i < 2 ^ 64 := by
  obtain ⟨_, -, h⟩ := bind_eq_ok.mp h
  obtain ⟨n, hn, -⟩ := bind_eq_ok.mp h
  exact lt_of_requireSize hfind hn

theorem parseSloPolicy_read {ttftSloMs safetyMarginMs : Double} {entries : List Json}
    {config : SloAdmissionPolicyConfig ℚ}
    (hfindSlo : object.find "ttft_slo_ms" = some (.float ttftSloMs))
    (hfindMargin : object.find "safety_margin_ms" = some (.float safetyMarginMs))
    (hfindEntries : object.find "entries" = some (.arr entries))
    (h : parseSloPolicy object = .ok config) :
    ttftSloMs.isFinite = true ∧ safetyMarginMs.isFinite = true ∧
      entries.mapM parseSloEntry = .ok config.entries := by
  obtain ⟨_, -, h⟩ := bind_eq_ok.mp h
  obtain ⟨found, hfound, h⟩ := bind_eq_ok.mp h
  obtain ⟨_, -, h⟩ := bind_eq_ok.mp h
  obtain ⟨_, -, h⟩ := bind_eq_ok.mp h
  obtain ⟨_, -, h⟩ := bind_eq_ok.mp h
  obtain ⟨slo, hslo, h⟩ := bind_eq_ok.mp h
  obtain ⟨margin, hmargin, h⟩ := bind_eq_ok.mp h
  obtain ⟨parsed, hparsed, h⟩ := bind_eq_ok.mp h
  cases h
  have hsame : found = entries := by
    rw [requireEntries, hfindEntries] at hfound
    cases entries with
    | nil => cases hfound
    | cons => exact (Except.ok.inj hfound).symm
  exact ⟨finite_of_requireNumber hfindSlo hslo, finite_of_requireNumber hfindMargin hmargin,
    hsame ▸ hparsed⟩

end KimServing.WorkerConfigurationLoader

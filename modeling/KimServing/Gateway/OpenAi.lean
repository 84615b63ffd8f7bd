import KimServing.Client.Encode
import KimServing.Library.Outcomes

/-! # Parsing of chat completion requests

A request body is any JSON value. Every check that fails raises a gateway error with
the field it is about, and what passes all checks is a command within the limits of the
model. The conversion of an integer to a float has no check in front of it and raises
an exception of its own.
-/
namespace KimServing.Gateway
open Library

structure GatewayError where
  message : List UInt8
  httpStatus : ℕ
  errorType : String
  code : List UInt8
  param : Option (List UInt8) := none
  deriving DecidableEq

inductive GatewayException where
  | gatewayError (e : GatewayError)
  | keyError (key : String)
  | typeError
  | valueError (text : List UInt8)
  | overflowError
  deriving DecidableEq

structure ChatMessage where
  role : List UInt8
  content : List UInt8
  deriving DecidableEq

structure ChatCompletionCommand where
  model : List UInt8
  messages : List ChatMessage
  stream : Bool
  includeUsage : Bool
  maxNewTokens : ℤ
  temperature : Double
  topP : Double
  randomSeed : ℤ
  stop : List (List UInt8)
  deriving DecidableEq

namespace OpenAi

def invalid (message : List UInt8) (param : Option (List UInt8) := none) : GatewayException :=
  .gatewayError {
    message
    httpStatus := 400
    errorType := "invalid_request_error"
    code := utf8 "invalid_request"
    param }

def raiseIf (condition : Prop) [Decidable condition] (e : GatewayException) :
    Except GatewayException Unit :=
  if condition then .error e else .ok ()

/-! ## Operations of Python -/

def getItem (value : Json) (key : String) : Except GatewayException Json :=
  match value.find key with
  | some item => .ok item
  | none => .error (.keyError key)

def toFloat : Json → Except GatewayException Double
  | .int i => if (Double.ofInt i).isFinite then .ok (Double.ofInt i) else .error .overflowError
  | .float x => .ok x
  | _ => .error .typeError

def isNumber : Json → Bool
  | .int _ | .float _ => true
  | _ => false

def exactFields (value : Json) (fields : List String) : Bool :=
  value.isObject && decide (value.keys ⊆ fields) && decide (fields ⊆ value.keys)

/-! ## The checks -/

def string (value : Json) (param : List UInt8) (nonEmpty : Bool := true) :
    Except GatewayException (List UInt8) :=
  let qualifier := if nonEmpty then "non-empty " else ""
  let e := invalid (param ++ utf8 (" must be a " ++ qualifier ++ "string")) (some param)
  match value with
  | .str s => if nonEmpty ∧ s = [] then .error e else .ok s
  | _ => .error e

def integer (value : Json) (param : List UInt8) (minimum maximum : ℤ) :
    Except GatewayException ℤ :=
  let e := invalid (param ++ utf8 " is outside the supported range") (some param)
  match value with
  | .int i => if i < minimum ∨ maximum < i then .error e else .ok i
  | _ => .error e

def number (value : Json) (param : List UInt8) (minimumExclusive maximum : ℚ) :
    Except GatewayException Double := do
  raiseIf (isNumber value = false) (invalid (param ++ utf8 " must be numeric") (some param))
  let converted ← toFloat value
  raiseIf (converted.isFinite = false ∨ converted.atMost (.finite minimumExclusive) = true ∨
      (Double.finite maximum).less converted = true)
    (invalid (param ++ utf8 " is outside the supported range") (some param))
  return converted

def boolean (value : Json) (e : GatewayException) : Except GatewayException Bool :=
  match value with
  | .bool b => .ok b
  | _ => .error e

def roles : List (List UInt8) := [utf8 "system", utf8 "user", utf8 "assistant"]

scoped instance lawfulText : LawfulBEq (List UInt8) := inferInstance

def message (value : Json) (index : ℕ) : Except GatewayException ChatMessage := do
  let param := utf8 "messages[" ++ Json.decimal index ++ utf8 "]"
  raiseIf (exactFields value ["role", "content"] = false)
    (invalid (param ++ utf8 " must contain exactly role and content") (some param))
  let role ← string (← getItem value "role") (param ++ utf8 ".role")
  raiseIf (role ∉ roles)
    (invalid (param ++ utf8 ".role is unsupported by the fixed chat template")
      (some (param ++ utf8 ".role")))
  let content ← string (← getItem value "content") (param ++ utf8 ".content") false
  return ⟨role, content⟩

def messages (value : Json) : Except GatewayException (List ChatMessage) :=
  match value with
  | .arr (first :: rest) => (first :: rest).zipIdx.mapM fun item => message item.1 item.2
  | _ => .error (invalid (utf8 "messages must be a non-empty array") (some (utf8 "messages")))

def stopSequences (values : List Json) : Except GatewayException (List (List UInt8)) := do
  raiseIf (values.isEmpty = true ∨ 4 < values.length)
    (invalid (utf8 "stop must contain between 1 and 4 sequences") (some (utf8 "stop")))
  let result ← values.mapM fun item => string item (utf8 "stop")
  raiseIf (result.dedup.length ≠ result.length)
    (invalid (utf8 "stop sequences must be unique") (some (utf8 "stop")))
  return result

def stop : Json → Except GatewayException (List (List UInt8))
  | .null => .ok []
  | .str s => stopSequences [.str s]
  | .arr items => stopSequences items
  | _ =>
    .error (invalid (utf8 "stop must be a string or an array of strings") (some (utf8 "stop")))

/-! ## The request -/

def supported : List String :=
  ["model", "messages", "stream", "stream_options", "max_tokens", "max_completion_tokens",
    "temperature", "top_p", "seed", "stop", "n", "user", "frequency_penalty", "presence_penalty"]

def checkFields (value : Json) : Except GatewayException Unit := do
  let unexpected := value.keys.filter fun key => key ∉ supported
  match unexpected.insertionSort (· ≤ ·) with
  | field :: _ =>
    .error (invalid (utf8 ("unsupported request field " ++ field)) (some (utf8 field)))
  | [] =>
    if (value.find "model").isNone ∨ (value.find "messages").isNone then
      let missing := if (value.find "model").isNone then "model" else "messages"
      .error (invalid (utf8 ("missing required field " ++ missing)) (some (utf8 missing)))
    else .ok ()

def maxNewTokens (value : Json) (manifest : Client.ModelManifest) : Except GatewayException ℤ := do
  raiseIf ((value.find "max_tokens").isSome ∧ (value.find "max_completion_tokens").isSome)
    (invalid (utf8 "max_tokens and max_completion_tokens are mutually exclusive")
      (some (utf8 "max_tokens")))
  let maxValue := (value.find "max_completion_tokens").getD
    ((value.find "max_tokens").getD (.int (min 32 manifest.maxOutputTokens)))
  integer maxValue (utf8 "max_tokens") 1 manifest.maxOutputTokens

def checkPenalty (value : Json) (penalty : String) : Except GatewayException Unit :=
  match value.find penalty with
  | none => .ok ()
  | some item => do
    let e := invalid (utf8 (penalty ++ " must be numeric")) (some (utf8 penalty))
    raiseIf (isNumber item = false) e
    let converted ← toFloat item
    raiseIf (converted.isFinite = false) e
    raiseIf (converted ≠ .finite 0)
      (invalid (utf8 ("only " ++ penalty ++ "=0 is supported")) (some (utf8 penalty)))

def includeUsage (value : Json) (stream : Bool) : Except GatewayException Bool :=
  match (value.find "stream_options").getD .null with
  | .null => .ok false
  | options => do
    raiseIf (stream = false)
      (invalid (utf8 "stream_options requires stream=true") (some (utf8 "stream_options")))
    let e := invalid (utf8 "stream_options must contain exactly boolean include_usage")
      (some (utf8 "stream_options"))
    raiseIf (exactFields options ["include_usage"] = false) e
    boolean (← getItem options "include_usage") e

def parseChatCompletionRequest (value : Json) (manifest : Client.ModelManifest) :
    Except GatewayException ChatCompletionCommand := do
  raiseIf (value.isObject = false) (invalid (utf8 "request body must be a JSON object"))
  checkFields value
  let model ← string (← getItem value "model") (utf8 "model")
  let messages ← messages (← getItem value "messages")
  let stream ← boolean ((value.find "stream").getD (.bool false))
    (invalid (utf8 "stream must be a boolean") (some (utf8 "stream")))
  let n ← integer ((value.find "n").getD (.int 1)) (utf8 "n") 1 1
  raiseIf (n ≠ 1) (invalid (utf8 "only n=1 is supported") (some (utf8 "n")))
  let maxNewTokens ← maxNewTokens value manifest
  let temperature ← number ((value.find "temperature").getD (.float (.finite 1)))
    (utf8 "temperature") 0 2
  let topP ← number ((value.find "top_p").getD (.float (.finite 1))) (utf8 "top_p") 0 1
  let randomSeed ← integer ((value.find "seed").getD (.int 0)) (utf8 "seed") 0 (2 ^ 32 - 1)
  let stop ← stop ((value.find "stop").getD .null)
  ["frequency_penalty", "presence_penalty"].forM (checkPenalty value)
  match value.find "user" with
  | none => pure ()
  | some user => let _ ← string user (utf8 "user")
  let includeUsage ← includeUsage value stream
  return { model, messages, stream, includeUsage, maxNewTokens, temperature, topP, randomSeed, stop }

/-! ## What the checks accept -/

def convertible : Json → Bool
  | .int i => (Double.ofInt i).isFinite
  | _ => true

theorem raiseIf_allowed {allowed : GatewayException → Prop} {condition : Prop}
    [Decidable condition] {e : GatewayException} (h : allowed e) :
    Meets allowed (fun _ => ¬condition) (raiseIf condition e) :=
  Meets.ite (fun _ => h) (fun hfalse => hfalse)

section Checks
variable {allowed : GatewayException → Prop} (hallowed : ∀ e, allowed (.gatewayError e))
include hallowed

variable {value : Json}

theorem raiseIf_meets {condition : Prop} [Decidable condition] {message : List UInt8}
    {param : Option (List UInt8)} :
    Meets allowed (fun _ => ¬condition) (raiseIf condition (invalid message param)) :=
  raiseIf_allowed (hallowed _)

theorem string_meets (value : Json) (param : List UInt8) (nonEmpty : Bool) :
    Meets allowed (fun s => nonEmpty = true → s ≠ []) (string value param nonEmpty) := by
  cases value with
  | str =>
    refine Meets.ite (fun _ => hallowed _) (fun h => Meets.ok ?_)
    intro hnonEmpty hempty
    exact h ⟨hnonEmpty, hempty⟩
  | _ => exact hallowed _

theorem integer_meets (value : Json) (param : List UInt8) (minimum maximum : ℤ) :
    Meets allowed (fun i => minimum ≤ i ∧ i ≤ maximum) (integer value param minimum maximum) := by
  cases value with
  | int =>
    refine Meets.ite (fun _ => hallowed _) (fun h => Meets.ok ?_)
    exact ⟨by omega, by omega⟩
  | _ => exact hallowed _

omit hallowed in
theorem toFloat_meets (hnumber : isNumber value = true) (hoverflow : allowed .overflowError) :
    Meets allowed (fun _ => True) (toFloat value) := by
  cases value with
  | int i =>
    rw [toFloat]
    generalize Double.ofInt i = x
    exact Meets.ite (fun _ => Meets.ok trivial) (fun _ => hoverflow)
  | float => exact Meets.ok trivial
  | _ => cases hnumber

theorem number_meets (hoverflow : allowed .overflowError) (value : Json) (param : List UInt8)
    (minimumExclusive maximum : ℚ) :
    Meets allowed (fun x => ∃ q, x = .finite q ∧ minimumExclusive < q ∧ q ≤ maximum)
      (number value param minimumExclusive maximum) := by
  refine (raiseIf_meets hallowed).bind fun _ hnumber => ?_
  refine (toFloat_meets (by simpa using hnumber) hoverflow).bind fun x _ => ?_
  refine (raiseIf_meets hallowed).bind fun _ hrange => ?_
  rw [not_or, not_or] at hrange
  obtain ⟨hfinite, hmin, hmax⟩ := hrange
  cases x with
  | finite q =>
    refine ⟨q, rfl, ?_, ?_⟩
    · by_contra hle
      rw [not_lt] at hle
      rcases hle.lt_or_eq with hlt | rfl
      · exact hmin (by simp [Double.atMost, Double.less, hlt])
      · exact hmin (by simp [Double.atMost])
    · simpa [Double.less] using hmax
  | infinite | nan => exact absurd rfl hfinite

theorem boolean_meets (value : Json) (message : List UInt8) (param : Option (List UInt8)) :
    Meets allowed (fun _ => True) (boolean value (invalid message param)) := by
  unfold boolean
  split
  · trivial
  · exact hallowed _

omit hallowed in
theorem getItem_meets {key : String} (h : (value.find key).isSome = true) :
    Meets allowed (fun item => value.find key = some item) (getItem value key) := by
  obtain ⟨item, hitem⟩ := Option.isSome_iff_exists.mp h
  rw [getItem, hitem]
  rfl

omit hallowed in
theorem find_of_exactFields {fields : List String} (h : exactFields value fields = true)
    {field : String} (hfield : field ∈ fields) : (value.find field).isSome = true := by
  simp only [exactFields, Bool.and_eq_true, decide_eq_true_eq] at h
  exact Json.mem_keys.mp (h.2 hfield)

theorem message_meets (value : Json) (index : ℕ) :
    Meets allowed (fun m => m.role ∈ roles) (message value index) := by
  refine (raiseIf_meets hallowed).bind fun _ hfields => ?_
  rw [Bool.not_eq_false] at hfields
  refine (getItem_meets (find_of_exactFields hfields (by simp))).bind fun item _ => ?_
  refine (string_meets hallowed item _ true).bind fun role _ => ?_
  refine (raiseIf_meets hallowed).bind fun _ hrole => ?_
  refine (getItem_meets (find_of_exactFields hfields (by simp))).bind fun item' _ => ?_
  refine (string_meets hallowed item' _ false).bind fun content _ => ?_
  exact not_not.mp hrole

theorem messages_meets (value : Json) :
    Meets allowed (fun ms => ms ≠ [] ∧ ∀ m ∈ ms, m.role ∈ roles) (messages value) := by
  unfold messages
  split
  next first rest =>
    have hread := Meets.mapM fun item (_ : item ∈ (first :: rest).zipIdx) =>
      message_meets hallowed item.1 item.2
    refine hread.mono fun ms hms => ⟨?_, hms.2⟩
    rintro rfl
    simp at hms
  next => exact hallowed _

theorem stopSequences_meets (values : List Json) :
    Meets allowed (fun result => result.length ≤ 4 ∧ result.Nodup ∧ ∀ s ∈ result, s ≠ [])
      (stopSequences values) := by
  refine (raiseIf_meets hallowed).bind fun _ hcount => ?_
  have hread := Meets.mapM fun item (_ : item ∈ values) =>
    string_meets hallowed item (utf8 "stop") true
  refine hread.bind fun result hresult => ?_
  refine (raiseIf_meets hallowed).bind fun _ hunique => ?_
  refine ⟨?_, ?_, fun s hs => hresult.2 s hs rfl⟩
  · rw [hresult.1]
    exact Nat.le_of_not_lt (not_or.mp hcount).2
  · have hdedup := (List.dedup_sublist result).eq_of_length (not_not.mp hunique)
    exact List.dedup_eq_self.mp hdedup

theorem stop_meets (value : Json) :
    Meets allowed (fun result => result.length ≤ 4 ∧ result.Nodup ∧ ∀ s ∈ result, s ≠ [])
      (stop value) := by
  unfold stop
  split
  · exact ⟨by simp, List.nodup_nil, by simp⟩
  · exact stopSequences_meets hallowed _
  · exact stopSequences_meets hallowed _
  · exact hallowed _

theorem checkFields_meets (value : Json) :
    Meets allowed (fun _ => (value.find "model").isSome = true ∧
      (value.find "messages").isSome = true) (checkFields value) := by
  unfold checkFields
  dsimp only
  split
  · exact hallowed _
  · refine Meets.ite (fun _ => hallowed _) (fun h => Meets.ok ?_)
    simpa [not_or, Option.isSome_iff_ne_none] using h

theorem maxNewTokens_meets (value : Json) (manifest : Client.ModelManifest) :
    Meets allowed (fun i => 1 ≤ i ∧ i ≤ manifest.maxOutputTokens) (maxNewTokens value manifest) :=
  (raiseIf_meets hallowed).bind fun _ _ => integer_meets hallowed _ _ _ _

theorem checkPenalty_meets (hoverflow : allowed .overflowError) (value : Json) (penalty : String) :
    Meets allowed (fun _ => True) (checkPenalty value penalty) := by
  unfold checkPenalty
  split
  next => trivial
  next item _ =>
    refine (raiseIf_meets hallowed).bind fun _ hnumber => ?_
    refine (toFloat_meets (by simpa using hnumber) hoverflow).bind fun x _ => ?_
    refine (raiseIf_meets hallowed).bind fun _ _ => ?_
    exact (raiseIf_meets hallowed).mono fun _ _ => trivial

theorem includeUsage_meets (value : Json) (stream : Bool) :
    Meets allowed (fun b => b = true → stream = true) (includeUsage value stream) := by
  unfold includeUsage
  split
  · exact fun h => absurd h Bool.false_ne_true
  · refine (raiseIf_meets hallowed).bind fun _ hstream => ?_
    refine (raiseIf_meets hallowed).bind fun _ hfields => ?_
    rw [Bool.not_eq_false] at hfields
    refine (getItem_meets (find_of_exactFields hfields (by simp))).bind fun item _ => ?_
    exact (boolean_meets hallowed item _ _).mono fun _ _ _ => by simpa using hstream

end Checks

/-! ## Every request -/

structure Sound (manifest : Client.ModelManifest) (command : ChatCompletionCommand) : Prop where
  maxNewTokens : 1 ≤ command.maxNewTokens ∧ command.maxNewTokens ≤ manifest.maxOutputTokens
  temperature : ∃ q, command.temperature = .finite q ∧ 0 < q ∧ q ≤ 2
  topP : ∃ q, command.topP = .finite q ∧ 0 < q ∧ q ≤ 1
  randomSeed : 0 ≤ command.randomSeed ∧ command.randomSeed < 2 ^ 32
  stop : command.stop.length ≤ 4 ∧ command.stop.Nodup ∧ ∀ s ∈ command.stop, s ≠ []
  messages : command.messages ≠ [] ∧ ∀ m ∈ command.messages, m.role ∈ roles
  includeUsage : command.includeUsage = true → command.stream = true

def IsGatewayError (e : GatewayException) : Prop := ∃ error, e = .gatewayError error

def Escapes (e : GatewayException) : Prop := IsGatewayError e ∨ e = .overflowError

theorem parseChatCompletionRequest_meets (value : Json) (manifest : Client.ModelManifest) :
    Meets Escapes (Sound manifest) (parseChatCompletionRequest value manifest) := by
  have hallowed : ∀ e, Escapes (.gatewayError e) := fun e => Or.inl ⟨e, rfl⟩
  have hoverflow : Escapes .overflowError := Or.inr rfl
  refine (raiseIf_meets hallowed).bind fun _ _ => ?_
  refine (checkFields_meets hallowed value).bind fun _ hpresent => ?_
  refine (getItem_meets hpresent.1).bind fun modelItem _ => ?_
  refine (string_meets hallowed modelItem _ true).bind fun model _ => ?_
  refine (getItem_meets hpresent.2).bind fun messagesItem _ => ?_
  refine (messages_meets hallowed messagesItem).bind fun messages hmessages => ?_
  refine (boolean_meets hallowed _ _ _).bind fun stream _ => ?_
  refine (integer_meets hallowed _ _ _ _).bind fun n _ => ?_
  refine (raiseIf_meets hallowed).bind fun _ _ => ?_
  refine (maxNewTokens_meets hallowed value manifest).bind fun maxNewTokens hmax => ?_
  refine (number_meets hallowed hoverflow _ _ _ _).bind fun temperature htemperature => ?_
  refine (number_meets hallowed hoverflow _ _ _ _).bind fun topP htopP => ?_
  refine (integer_meets hallowed _ _ _ _).bind fun randomSeed hseed => ?_
  refine (stop_meets hallowed _).bind fun stop hstop => ?_
  have hpenalties : Meets Escapes (fun _ => True)
      (["frequency_penalty", "presence_penalty"].forM (checkPenalty value)) :=
    (checkPenalty_meets hallowed hoverflow value _).bind fun _ _ =>
      (checkPenalty_meets hallowed hoverflow value _).bind fun _ _ => trivial
  refine hpenalties.bind fun _ _ => ?_
  have hcommand (u : Unit) : Meets Escapes (Sound manifest) (do
      let includeUsage ← OpenAi.includeUsage value stream
      return ⟨model, messages, stream, includeUsage, maxNewTokens, temperature, topP, randomSeed,
        stop⟩) :=
    (includeUsage_meets hallowed value stream).bind fun includeUsage husage =>
      ⟨hmax, htemperature, htopP, ⟨hseed.1, Int.lt_of_le_sub_one hseed.2⟩, hstop, hmessages, husage⟩
  split
  · exact hcommand ()
  · exact (string_meets hallowed _ _ true).bind fun _ _ => hcommand ()

/-! ## When a conversion is reached -/

section Overflow
variable {value : Json}

theorem toFloat_eq_overflow : toFloat value = .error .overflowError ↔ convertible value = false := by
  cases value with
  | int i =>
    simp only [toFloat, convertible]
    generalize Double.ofInt i = x
    cases x.isFinite <;> simp
  | _ => simp [toFloat, convertible]

theorem isNumber_of_convertible (h : convertible value = false) : isNumber value = true := by
  cases value with
  | int => rfl
  | _ => cases h

theorem not_isGatewayError_overflow : ¬ IsGatewayError .overflowError := nofun

theorem gatewayError_allowed (e : GatewayError) : IsGatewayError (.gatewayError e) := ⟨e, rfl⟩

theorem raiseIf_bind_eq_overflow {α : Type} {condition : Prop} [Decidable condition]
    {message : List UInt8} {param : Option (List UInt8)} {f : Unit → Except GatewayException α}
    {R : Prop} (hf : f () = .error .overflowError ↔ R) :
    (raiseIf condition (invalid message param) >>= f) = .error .overflowError ↔
      ¬ condition ∧ R := by
  rw [(raiseIf_meets gatewayError_allowed).bind_eq_error_right not_isGatewayError_overflow
    (fun _ _ => hf), raiseIf]
  split <;> simp [*, Except.isOk, Except.toBool]

theorem number_eq_overflow {param : List UInt8} {minimumExclusive maximum : ℚ} :
    number value param minimumExclusive maximum = .error .overflowError ↔
      convertible value = false := by
  refine (raiseIf_bind_eq_overflow (R := convertible value = false) ?_).trans
    (and_iff_right_of_imp fun h => by simp [isNumber_of_convertible h])
  rw [← toFloat_eq_overflow]
  refine Meets.bind_eq_error_left (Q := fun _ => True) not_isGatewayError_overflow fun _ => ?_
  exact (raiseIf_meets gatewayError_allowed).bind fun _ _ => Meets.ok trivial

theorem checkPenalty_eq_overflow {penalty : String} :
    checkPenalty value penalty = .error .overflowError ↔
      convertible ((value.find penalty).getD .null) = false := by
  unfold checkPenalty
  cases value.find penalty with
  | none => simp [convertible]
  | some item =>
    refine (raiseIf_bind_eq_overflow (R := convertible item = false) ?_).trans
      (and_iff_right_of_imp fun h => by simp [isNumber_of_convertible h])
    rw [← toFloat_eq_overflow]
    refine Meets.bind_eq_error_left (Q := fun _ => True) not_isGatewayError_overflow fun _ => ?_
    exact (raiseIf_meets gatewayError_allowed).bind fun _ _ =>
      (raiseIf_meets gatewayError_allowed).mono fun _ _ => trivial

theorem getItem_bind_eq_overflow {α β : Type} {key : String} {check : Json → Except GatewayException α}
    {f : α → Except GatewayException β} {R : Prop}
    (hcheck : ∀ item, Meets IsGatewayError (fun _ => True) (check item))
    (hf : ∀ a, f a = .error .overflowError ↔ R) :
    (getItem value key >>= fun item => check item >>= f) = .error .overflowError ↔
      (∃ item ∈ value.find key, (check item).isOk = true) ∧ R := by
  unfold getItem
  cases value.find key with
  | none => simp [bind, Except.bind]
  | some item =>
    change (check item >>= f) = _ ↔ _
    simpa using (hcheck item).bind_eq_error_right not_isGatewayError_overflow fun a _ => hf a

end Overflow

/-- A conversion is reached with an integer that is too large for a float: the checks in front
of it pass, in the order in which the parser makes them. -/
def Overflows (value : Json) (manifest : Client.ModelManifest) : Prop :=
  ¬ value.isObject = false ∧ (checkFields value).isOk = true ∧
  (∃ item ∈ value.find "model", (string item (utf8 "model")).isOk = true) ∧
  (∃ item ∈ value.find "messages", (messages item).isOk = true) ∧
  (boolean ((value.find "stream").getD (.bool false))
    (invalid (utf8 "stream must be a boolean") (some (utf8 "stream")))).isOk = true ∧
  (integer ((value.find "n").getD (.int 1)) (utf8 "n") 1 1).isOk = true ∧
  (maxNewTokens value manifest).isOk = true ∧
  (convertible ((value.find "temperature").getD (.float (.finite 1))) = false ∨
    (number ((value.find "temperature").getD (.float (.finite 1)))
      (utf8 "temperature") 0 2).isOk = true ∧
    (convertible ((value.find "top_p").getD (.float (.finite 1))) = false ∨
      (number ((value.find "top_p").getD (.float (.finite 1))) (utf8 "top_p") 0 1).isOk = true ∧
      (integer ((value.find "seed").getD (.int 0)) (utf8 "seed") 0 (2 ^ 32 - 1)).isOk = true ∧
      (stop ((value.find "stop").getD .null)).isOk = true ∧
      (convertible ((value.find "frequency_penalty").getD .null) = false ∨
        (checkPenalty value "frequency_penalty").isOk = true ∧
        convertible ((value.find "presence_penalty").getD .null) = false)))
  deriving Decidable

theorem parseChatCompletionRequest_eq_overflow (value : Json) (manifest : Client.ModelManifest) :
    parseChatCompletionRequest value manifest = .error .overflowError ↔
      Overflows value manifest := by
  have hgateway := gatewayError_allowed
  have hno := not_isGatewayError_overflow
  refine raiseIf_bind_eq_overflow ?_
  refine (checkFields_meets hgateway value).bind_eq_error_right hno fun _ _ => ?_
  refine getItem_bind_eq_overflow
    (fun item => (string_meets hgateway item _ true).mono fun _ _ => trivial) fun model => ?_
  refine getItem_bind_eq_overflow
    (fun item => (messages_meets hgateway item).mono fun _ _ => trivial) fun messages => ?_
  refine (boolean_meets hgateway _ _ _).bind_eq_error_right hno fun stream _ => ?_
  refine (integer_meets hgateway _ _ _ _).bind_eq_error_right hno fun n hn => ?_
  refine (raiseIf_bind_eq_overflow ?_).trans (and_iff_right (by omega))
  refine (maxNewTokens_meets hgateway value manifest).bind_eq_error_right hno fun maxNewTokens _ => ?_
  refine Meets.bind_eq_error number_eq_overflow fun temperature _ => ?_
  refine Meets.bind_eq_error number_eq_overflow fun topP _ => ?_
  refine (integer_meets hgateway _ _ _ _).bind_eq_error_right hno fun randomSeed _ => ?_
  refine (stop_meets hgateway _).bind_eq_error_right hno fun stop _ => ?_
  refine (Meets.bind_eq_error_left (Q := fun _ => True) hno fun _ => ?_).trans ?_
  · have hcommand (u : Unit) : Meets IsGatewayError (fun _ => True) (do
        let includeUsage ← OpenAi.includeUsage value stream
        return (⟨model, messages, stream, includeUsage, maxNewTokens, temperature, topP, randomSeed,
          stop⟩ : ChatCompletionCommand)) :=
      (includeUsage_meets hgateway value stream).bind fun _ _ => Meets.ok trivial
    split
    · exact hcommand ()
    · exact (string_meets hgateway _ _ true).bind fun _ _ => hcommand ()
  · refine Meets.bind_eq_error checkPenalty_eq_overflow fun _ _ => ?_
    exact (Meets.bind_eq_error_left (Q := fun _ => True) hno fun _ => Meets.ok trivial).trans
      checkPenalty_eq_overflow

/-- Whatever the body of a request is, the parser raises a gateway error or returns a
sound command, unless it reaches the conversion of an integer that is too large for a float. -/
theorem chat_request_parsed (value : Json) (manifest : Client.ModelManifest) :
    ((∃ e, parseChatCompletionRequest value manifest = .error (.gatewayError e)) ∨
      ∃ command, parseChatCompletionRequest value manifest = .ok command ∧
        Sound manifest command) ↔ ¬ Overflows value manifest := by
  rw [← parseChatCompletionRequest_eq_overflow]
  have hmeets := parseChatCompletionRequest_meets value manifest
  cases hparse : parseChatCompletionRequest value manifest with
  | ok command => simp [hmeets.returned hparse]
  | error e =>
    rcases hmeets.raised hparse with ⟨error, rfl⟩ | rfl <;> simp

def sevenB : Client.ModelManifest :=
  { modelId := utf8 "kim-7b", revision := utf8 "r1", tokenizerFingerprint := utf8 "sha256:0"
    chatTemplateFingerprint := utf8 "sha256:1", engineFingerprint := utf8 "sha256:2"
    eosTokenId := 2, padTokenId := 2, maxInputTokens := 1024, maxOutputTokens := 256
    maxSequenceTokens := 1280, precision := utf8 "fp16", maxBatchSize := 8 }

def oneMessage (temperature : Json) : Json :=
  .obj [("model", .str (utf8 "kim-7b")),
    ("messages", .arr [.obj [("role", .str (utf8 "user")), ("content", .str (utf8 "hi"))]]),
    ("temperature", temperature)]

example : ¬ Overflows (oneMessage (.int 1)) sevenB := by decide +kernel

-- Without a model the request is refused before the conversion.
example : ¬ Overflows (.obj [("temperature", .int (10 ^ 400))]) sevenB := by decide +kernel

/-- A temperature of ten to the four hundredth power is not a float. -/
theorem large_integer_escapes :
    Client.validateManifest sevenB = .ok () ∧
      parseChatCompletionRequest (oneMessage (.int (10 ^ 400))) sevenB = .error .overflowError := by
  decide +kernel

end OpenAi

end KimServing.Gateway

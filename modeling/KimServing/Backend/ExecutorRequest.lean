import KimServing.Backend.TrtLlmExecutorBackend
import KimServing.Worker.RuntimeBridge

/-! # What reaches the executor

A Submit is converted by the bridge, checked by the backend and handed to the executor,
each with a clock reading of its own. Time points and durations are signed words of 64
bits, and a signed operation that overflows has no result. The token budget is a word of
32 bits on the wire, a size in the runtime and a signed word of 32 bits at the executor.
-/
namespace KimServing
open Library

def int64 (x : ℤ) : Option ℤ := if -2 ^ 63 ≤ x ∧ x < 2 ^ 63 then some x else none

theorem int64_eq_some {x : ℤ} (hlow : -2 ^ 63 ≤ x) (hhigh : x < 2 ^ 63) : int64 x = some x :=
  if_pos ⟨hlow, hhigh⟩

def toInt32 (n : ℕ) : ℤ := Int.bmod n (2 ^ 32)

def machineDeadline (timeoutMs : ℕ) (now : ℤ) : Option (Except Status ℤ) :=
  if 2 ^ 63 - 1 < timeoutMs then
    some (.error (failure .invalidInput "Submit timeout exceeds the Runtime range"))
  else do
    let timeout ← int64 timeoutMs
    let remaining ← int64 (maxTimePoint - now)
    if remaining.tdiv (10 ^ 6) < timeout then
      return .error (failure .invalidInput "Submit deadline exceeds the Runtime range")
    let nanoseconds ← int64 (timeout * 10 ^ 6)
    let deadline ← int64 (now + nanoseconds)
    return .ok deadline

def kBeamWidth : ℕ := 1

structure ExecutorRequest where
  inputTokenIds : List ℤ
  maxTokens : ℤ
  streaming : Bool
  beamWidth : ℕ
  topK : ℤ
  topP : Double
  temperature : Double
  seed : ℕ
  excludeInputFromOutput : Bool
  returnAllGeneratedTokens : Bool
  endId : Option ℤ
  padId : Option ℤ
  stopWords : Option (List (List ℤ))
  allottedTimeMs : Option ℤ
  deriving DecidableEq

def allottedTime (context : RequestContext) (now : ℤ) : Option (Option ℤ) :=
  if context.hasDeadline then do
    let left ← int64 (context.deadline - now)
    return some (max (left.tdiv (10 ^ 6)) 1)
  else some none

def makeExecutorRequest (request : GenerationRequest) (now : ℤ) : Option ExecutorRequest := do
  let allottedTimeMs ← allottedTime request.context now
  return {
    inputTokenIds := request.inputTokenIds
    maxTokens := toInt32 request.maxNewTokens
    streaming := request.streaming
    beamWidth := kBeamWidth
    topK := request.sampling.topK
    topP := request.sampling.topP
    temperature := request.sampling.temperature
    seed := request.sampling.randomSeed
    excludeInputFromOutput := true
    returnAllGeneratedTokens := false
    endId := request.endId
    padId := request.padId
    stopWords := if request.stopSequences = [] then none else some request.stopSequences
    allottedTimeMs := allottedTimeMs }

def makeBackendConfig (engineDir : List UInt8) (manifest : Ipc.ModelManifest) :
    TrtLlmBackendConfig :=
  { engineDir := engineDir
    maxInputTokens := manifest.maxInputTokens
    maxOutputTokens := manifest.maxOutputTokens
    maxSequenceTokens := manifest.maxSequenceTokens }

/-! ## Timeouts -/

theorem submitDeadline_eq_ok {timeoutMs : ℕ} {now deadline : ℤ} (hnow : 0 ≤ now) :
    submitDeadline (some timeoutMs) now = .ok deadline ↔
      (timeoutMs : ℤ) ≤ (2 ^ 63 - 1 - now) / 10 ^ 6 ∧ deadline = now + timeoutMs * 10 ^ 6 := by
  unfold submitDeadline
  dsimp only
  by_cases hrange : 2 ^ 63 - 1 < timeoutMs
  · rw [if_pos hrange]
    refine iff_of_false (by simp) fun ⟨hle, _⟩ => ?_
    omega
  · rw [if_neg hrange]
    by_cases hlate : (maxTimePoint - now) / 10 ^ 6 < timeoutMs
    · rw [if_pos hlate]
      exact iff_of_false (by simp) fun ⟨hle, _⟩ => absurd hle (Int.not_le.mpr hlate)
    · rw [if_neg hlate]
      constructor
      · intro h
        cases h
        exact ⟨Int.not_lt.mp hlate, rfl⟩
      · rintro ⟨-, rfl⟩
        rfl

theorem machineDeadline_eq (timeoutMs : ℕ) {now : ℤ} (hnow : 0 ≤ now) (hmax : now ≤ 2 ^ 63 - 1) :
    machineDeadline timeoutMs now = some (submitDeadline (some timeoutMs) now) := by
  have hlast : maxTimePoint = 2 ^ 63 - 1 := rfl
  have hremaining : int64 (maxTimePoint - now) = some (maxTimePoint - now) :=
    int64_eq_some (by omega) (by omega)
  have hdiv : (maxTimePoint - now).tdiv (10 ^ 6) = (maxTimePoint - now) / 10 ^ 6 :=
    Int.tdiv_eq_ediv_of_nonneg (by omega)
  unfold machineDeadline submitDeadline
  dsimp only
  by_cases hrange : 2 ^ 63 - 1 < timeoutMs
  · rw [if_pos hrange, if_pos hrange]
  · have htimeout : int64 timeoutMs = some (timeoutMs : ℤ) := int64_eq_some (by omega) (by omega)
    rw [if_neg hrange, if_neg hrange, htimeout, hremaining]
    simp only [Option.bind_eq_bind, Option.bind_some, hdiv]
    by_cases hlate : (maxTimePoint - now) / 10 ^ 6 < timeoutMs
    · rw [if_pos hlate, if_pos hlate]
      rfl
    · have hscaled : int64 (timeoutMs * 10 ^ 6) = some (timeoutMs * 10 ^ 6 : ℤ) :=
        int64_eq_some (by omega) (by omega)
      have hsum : int64 (now + timeoutMs * 10 ^ 6) = some (now + timeoutMs * 10 ^ 6 : ℤ) :=
        int64_eq_some (by omega) (by omega)
      rw [if_neg hlate, if_neg hlate, hscaled, Option.bind_some, hsum]
      rfl

theorem allottedTime_bounded {context : RequestContext} {timeoutMs : ℕ} {start now : ℤ}
    (hdeadline : context.deadline = start + timeoutMs * 10 ^ 6)
    (hfits : context.deadline ≤ 2 ^ 63 - 1) (hpositive : 1 ≤ timeoutMs) (hstart : 0 ≤ start)
    (hlater : start ≤ now) (hmax : now ≤ 2 ^ 63 - 1) :
    ∃ allotted, allottedTime context now = some allotted ∧
      ∀ time ∈ allotted, 1 ≤ time ∧ time ≤ timeoutMs := by
  unfold allottedTime
  split
  · have hleft : int64 (context.deadline - now) = some (context.deadline - now) :=
      int64_eq_some (by omega) (by omega)
    refine ⟨some (max ((context.deadline - now).tdiv (10 ^ 6)) 1), by simp [hleft, bind], ?_⟩
    intro time htime
    cases htime
    refine ⟨le_max_right _ _, max_le ?_ (by omega)⟩
    rcases le_or_gt 0 (context.deadline - now) with hopen | hpast
    · rw [Int.tdiv_eq_ediv_of_nonneg hopen]
      omega
    · -- A deadline in the past leaves nothing, or less than nothing.
      have hneg : context.deadline - now = -(now - context.deadline) := by omega
      rw [hneg, Int.neg_tdiv, Int.tdiv_eq_ediv_of_nonneg (by omega)]
      omega
  · exact ⟨none, rfl, by simp⟩

/-- From the Submit to the executor no operation overflows, the deadline is exact when
there is one, and the executor gets no more time than the Submit asks for. -/
theorem timeout_conversion (c : RuntimeBridgeConfig) (b : TrtLlmBackendConfig)
    (mailbox : Option GenerationMailboxConfig) (m : Ipc.Submit) (timeoutMs : ℕ) (t₀ t₁ t₂ : ℤ)
    (htimeout : m.timeoutMs = some timeoutMs) (hpositive : 1 ≤ timeoutMs) (h₀ : 0 ≤ t₀)
    (h₁ : t₀ ≤ t₁) (h₂ : t₁ ≤ t₂) (hmax : t₂ ≤ 2 ^ 63 - 1) :
    machineDeadline timeoutMs t₀ = some (submitDeadline (some timeoutMs) t₀) ∧
    ((∃ deadline, submitDeadline (some timeoutMs) t₀ = .ok deadline) ↔
      (timeoutMs : ℤ) ≤ (2 ^ 63 - 1 - t₀) / 10 ^ 6) ∧
    ∀ request, convertSubmit c m t₀ = .ok request →
      request.context.deadline = t₀ + timeoutMs * 10 ^ 6 ∧
      ((b.validateRequest request mailbox t₁).isOk = true →
        ∃ handed, makeExecutorRequest request t₂ = some handed ∧
          ∀ time ∈ handed.allottedTimeMs, 1 ≤ time ∧ time ≤ timeoutMs) := by
  refine ⟨machineDeadline_eq timeoutMs h₀ (by omega), ?_, fun request hrequest => ?_⟩
  · simp only [submitDeadline_eq_ok h₀, exists_and_left, exists_eq, and_true]
  · have hdeadline := (convertSubmit_ok hrequest).1
    rw [htimeout] at hdeadline
    obtain ⟨hbound, hexact⟩ := (submitDeadline_eq_ok h₀).mp hdeadline
    refine ⟨hexact, fun _ => ?_⟩
    obtain ⟨allotted, hallotted, htimes⟩ :=
      allottedTime_bounded hexact (by omega) hpositive h₀ (h₁.trans h₂) hmax
    exact ⟨_, by rw [makeExecutorRequest, hallotted]; rfl, htimes⟩

def shortSubmit : Ipc.Submit :=
  { workerEpoch := 1, requestId := 7, inputTokenIds := [1], maxNewTokens := 4, timeoutMs := some 2 }

def shortRequest : GenerationRequest :=
  { context := { requestId := 7, deadline := 2000005 }, inputTokenIds := [1], maxNewTokens := 4 }

theorem timeout_conversion_short :
    convertSubmit { workerEpoch := 1 } shortSubmit 5 = .ok shortRequest ∧
      (TrtLlmBackendConfig.validateRequest {} shortRequest (some {}) 6).isOk = true ∧
      ∃ handed, makeExecutorRequest shortRequest 1000006 = some handed ∧
        ∀ time ∈ handed.allottedTimeMs, 1 ≤ time ∧ time ≤ 2 := by
  have hconvert : convertSubmit { workerEpoch := 1 } shortSubmit 5 = .ok shortRequest := by
    decide +kernel
  have hvalid : (TrtLlmBackendConfig.validateRequest {} shortRequest (some {}) 6).isOk = true := by
    decide +kernel
  obtain ⟨-, -, hconverted⟩ := timeout_conversion { workerEpoch := 1 } {} (some {}) shortSubmit 2 5 6
    1000006 rfl (by omega) (by omega) (by omega) (by omega) (by omega)
  exact ⟨hconvert, hvalid, (hconverted shortRequest hconvert).2 hvalid⟩

/-! ## The output budget -/

theorem toInt32_eq_iff (n : ℕ) : toInt32 n = n ↔ n < 2 ^ 31 := by
  have hmod : ((2 ^ 32 : ℕ) : ℤ) = 4294967296 := by norm_num
  unfold toInt32
  rw [Int.bmod_eq_iff (Nat.two_pow_pos 32), hmod, Int.sub_self]
  constructor
  · rintro ⟨-, hlt, -⟩
    omega
  · intro hlt
    exact ⟨by omega, by omega, Int.dvd_zero _⟩

theorem makeExecutorRequest_maxTokens {request : GenerationRequest} {now : ℤ}
    {handed : ExecutorRequest} (h : makeExecutorRequest request now = some handed) :
    handed.maxTokens = toInt32 request.maxNewTokens := by
  obtain ⟨allotted, -, hhanded⟩ := Option.bind_eq_some_iff.mp h
  rw [← Option.some.inj hhanded]

/-- A Submit that was converted and handed on reaches the executor with the budget it
asked for exactly when the budget fits the executor's type. -/
theorem output_budget_unchanged (c : RuntimeBridgeConfig) (m : Ipc.Submit)
    (request : GenerationRequest) (handed : ExecutorRequest) (t₀ t₂ : ℤ)
    (hsubmit : m.validate = .ok ()) (hconvert : convertSubmit c m t₀ = .ok request)
    (hhanded : makeExecutorRequest request t₂ = some handed) :
    (handed.maxTokens = m.maxNewTokens ∧ 0 < handed.maxTokens) ↔ m.maxNewTokens < 2 ^ 31 := by
  have hpositive := (Ipc.Submit.validate_eq_ok.mp hsubmit).2.2.2.1
  rw [makeExecutorRequest_maxTokens hhanded, (convertSubmit_ok hconvert).2.2, ← toInt32_eq_iff]
  refine ⟨And.left, fun hsame => ⟨hsame, ?_⟩⟩
  rw [hsame]
  exact_mod_cast hpositive

theorem output_budget_unchanged_short :
    ∃ handed, makeExecutorRequest shortRequest 6 = some handed ∧ handed.maxTokens = 4 ∧
      0 < handed.maxTokens := by
  obtain ⟨hsame, hpositive⟩ := (output_budget_unchanged { workerEpoch := 1 } shortSubmit shortRequest
    _ 5 6 rfl (by decide +kernel) rfl).mpr (by decide)
  exact ⟨_, rfl, hsame, hpositive⟩

def hugeManifest : Ipc.ModelManifest :=
  { modelId := [0x6d], revision := [0x31], tokenizerFingerprint := [0x74],
    chatTemplateFingerprint := [0x63], engineFingerprint := [0x65], precision := [0x66],
    eosTokenId := 0, padTokenId := 0, maxInputTokens := 1, maxOutputTokens := 2 ^ 32 - 2,
    maxSequenceTokens := 2 ^ 32 - 1, maxBatchSize := 1 }

def hugeSubmit : Ipc.Submit :=
  { workerEpoch := 1, requestId := 7, inputTokenIds := [1], maxNewTokens := 2 ^ 31 }

def hugeRequest : GenerationRequest :=
  { context := { requestId := 7 }, inputTokenIds := [1], maxNewTokens := 2 ^ 31 }

/-- Every check accepts a budget of 2^31 tokens, and the executor gets a negative one. -/
theorem output_budget_wraps :
    hugeManifest.validate = .ok () ∧
      ((makeBackendConfig [] hugeManifest).validateConfig true).isOk = true ∧
      hugeSubmit.validate = .ok () ∧
      convertSubmit { workerEpoch := 1 } hugeSubmit 5 = .ok hugeRequest ∧
      ((makeBackendConfig [] hugeManifest).validateRequest hugeRequest (some {}) 6).isOk = true ∧
      (makeExecutorRequest hugeRequest 7).map ExecutorRequest.maxTokens = some (-2 ^ 31) := by
  decide +kernel

end KimServing

import KimServing.Library.Utf8
import KimServing.Runtime.AdmissionController
import Mathlib.Data.List.Sort

/-! # The SLO policy in front of admission

A profile from offline measurements predicts the time to the first token for a
size of the input and a number of active requests. The policy refuses a request
early when the smallest bucket that covers it misses the target. Predictions, target
and margin are numbers of any kind that can be added and compared.
-/
namespace KimServing
open Library

structure SloProfileEntry (K : Type*) where
  maxInputTokens : UInt64
  activeRequests : UInt64
  predictedTtftP95Ms : K
  deriving DecidableEq

structure SloAdmissionPolicyConfig (K : Type*) where
  modelId : List UInt8
  revision : List UInt8
  engineFingerprint : List UInt8
  ttftSloMs : K
  safetyMarginMs : K
  entries : List (SloProfileEntry K)
  deriving DecidableEq

structure SloAdmissionDecision (K : Type*) where
  admitted : Bool
  predictedTtftP95Ms : K
  deriving DecidableEq

structure SloAdmissionPolicy (K : Type*) where
  config : SloAdmissionPolicyConfig K
  deriving DecidableEq

namespace SloProfileEntry
variable {K : Type*}

def before (left right : SloProfileEntry K) : Prop :=
  left.maxInputTokens < right.maxInputTokens ∨
    left.maxInputTokens = right.maxInputTokens ∧ left.activeRequests ≤ right.activeRequests

instance (left right : SloProfileEntry K) : Decidable (left.before right) :=
  inferInstanceAs (Decidable (_ ∨ _))

def sameBucket (left right : SloProfileEntry K) : Bool :=
  left.maxInputTokens == right.maxInputTokens && left.activeRequests == right.activeRequests

def covers (entry : SloProfileEntry K) (inputTokens prospectiveActive : UInt64) : Bool :=
  decide (inputTokens ≤ entry.maxInputTokens) && decide (prospectiveActive ≤ entry.activeRequests)

end SloProfileEntry

namespace SloAdmissionPolicy
variable {K : Type*} [Zero K] [Add K] [LE K] [LT K] [DecidableLE K] [DecidableLT K]

def hasDuplicate : List (SloProfileEntry K) → Bool
  | left :: right :: rest => left.sameBucket right || hasDuplicate (right :: rest)
  | _ => false

/-- The constructor, which throws on an empty name, a target, a prediction or a bucket
that is not positive, a negative margin, and a bucket that occurs twice. -/
def create (config : SloAdmissionPolicyConfig K) : Except String (SloAdmissionPolicy K) :=
  if config.modelId = [] ∨ config.revision = [] ∨ config.engineFingerprint = [] ∨
      config.ttftSloMs ≤ 0 ∨ config.safetyMarginMs < 0 ∨ config.entries = [] then
    .error "invalid SLO Admission policy configuration"
  else if config.entries.any (fun entry => decide (entry.maxInputTokens = 0) ||
      decide (entry.activeRequests = 0) || decide (entry.predictedTtftP95Ms ≤ 0)) then
    .error "invalid SLO profile entry"
  else
    let entries := config.entries.insertionSort SloProfileEntry.before
    if hasDuplicate entries then .error "duplicate SLO profile bucket"
    else .ok ⟨{ config with entries := entries }⟩

omit [LT K] [DecidableLT K] in
def evaluate (p : SloAdmissionPolicy K) (inputTokens : UInt64) (admission : AdmissionSnapshot) :
    SloAdmissionDecision K :=
  if inputTokens = 0 ∨ admission.accepting = false then ⟨false, 0⟩
  else if admission.maxActiveRequests ≤ admission.activeRequests then ⟨true, 0⟩
  else
    match p.config.entries.find? (fun entry =>
      entry.covers inputTokens (admission.activeRequests + 1)) with
    | none => ⟨false, 0⟩
    | some entry =>
      ⟨decide (entry.predictedTtftP95Ms + p.config.safetyMarginMs ≤ p.config.ttftSloMs),
        entry.predictedTtftP95Ms⟩

omit [LT K] [DecidableLT K] in
theorem accepting_of_evaluate {p : SloAdmissionPolicy K} {inputTokens : UInt64}
    {admission : AdmissionSnapshot} (h : (p.evaluate inputTokens admission).admitted = true) :
    admission.accepting = true := by
  rw [← Bool.not_eq_false]
  intro hclosed
  rw [evaluate, if_pos (.inr hclosed)] at h
  cases h

end SloAdmissionPolicy

end KimServing

import KimServing.Library.Json
import KimServing.Runtime.GenerationTypes

/-! # Requests to the runtime

Time points are nanoseconds of the steady clock, whose last value stands for a
request without a deadline.
-/
namespace KimServing
open Library

def maxTimePoint : ℤ := 2 ^ 63 - 1

structure RequestContext where
  requestId : ℕ := 0
  priority : ℤ := 0
  deadline : ℤ := maxTimePoint
  traceId : List UInt8 := []
  deriving DecidableEq

def RequestContext.hasDeadline (c : RequestContext) : Bool := c.deadline ≠ maxTimePoint

structure SamplingParams where
  temperature : Double := .finite 1
  topK : ℤ := 1
  topP : Double := .finite 1
  randomSeed : ℕ := 0
  deriving DecidableEq

structure GenerationRequest where
  context : RequestContext := {}
  inputTokenIds : List ℤ := []
  maxNewTokens : ℕ := 32
  streaming : Bool := false
  sampling : SamplingParams := {}
  endId : Option ℤ := none
  padId : Option ℤ := none
  stopSequences : List (List ℤ) := []
  deriving DecidableEq

end KimServing

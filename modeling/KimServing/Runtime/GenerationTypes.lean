import KimServing.Library.Utf8
import Mathlib.Data.Int.Notation

/-! # Status values and generation events

The data that the runtime, the wire protocol and the worker share. Strings of
the C++ code are byte sequences; a literal stands for its UTF-8 bytes. Counters
are naturals and token ids integers.
-/
namespace KimServing
open Library

inductive StatusCode where
  | ok | invalidInput | invalidShape | alreadyExists | notReady | resourceExhausted
  | sloPredictedMiss | unavailable | queueFull | engineNotFound | contextUnavailable
  | cudaError | tensorRTError | internalError | timeout | cancelled
  deriving DecidableEq

structure Status where
  code : StatusCode := .ok
  message : List UInt8 := []
  deriving DecidableEq

namespace Status

def error (code : StatusCode) (message : String) : Status := ⟨code, utf8 message⟩
def success : Status := {}
def isOk (s : Status) : Bool := s.code == .ok

@[simp] theorem success_isOk : success.isOk = true := rfl

theorem isOk_iff {s : Status} : s.isOk = true ↔ s.code = .ok := beq_iff_eq
theorem isOk_false_iff {s : Status} : s.isOk = false ↔ s.code ≠ .ok := beq_eq_false_iff_ne

end Status

inductive FinishReason where
  | eos | length | stop | cancelled | timeout | backpressure
  deriving DecidableEq

structure TokenDelta where
  requestId : ℕ
  sequenceNo : ℕ
  tokenIds : List ℤ
  deriving DecidableEq

structure GenerationUsage where
  promptTokens : ℕ
  completionTokens : ℕ
  deriving DecidableEq

structure TerminalEvent where
  requestId : ℕ
  status : Status
  finishReason : Option FinishReason
  usage : GenerationUsage
  deriving DecidableEq

inductive GenerationEvent where
  | delta (d : TokenDelta)
  | terminal (t : TerminalEvent)
  deriving DecidableEq

def tokenTotal (ds : List TokenDelta) : ℕ := (ds.map (fun d => d.tokenIds.length)).sum

@[simp] theorem tokenTotal_nil : tokenTotal [] = 0 := rfl

@[simp] theorem tokenTotal_cons (d : TokenDelta) (ds : List TokenDelta) :
    tokenTotal (d :: ds) = d.tokenIds.length + tokenTotal ds := by simp [tokenTotal]
@[simp] theorem tokenTotal_append (xs ys : List TokenDelta) :
    tokenTotal (xs ++ ys) = tokenTotal xs + tokenTotal ys := by simp [tokenTotal]

end KimServing

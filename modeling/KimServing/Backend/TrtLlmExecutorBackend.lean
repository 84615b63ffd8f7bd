import KimServing.Library.Runs
import KimServing.Library.Table
import KimServing.Runtime.GenerationRequest
import KimServing.Runtime.TerminalGate
import Mathlib.Logic.Function.Basic

/-! # The TensorRT-LLM backend

Any number of threads start, stop, submit and cancel, and a response pump runs from a
start to the next stop. A program counter stands before the next critical section of its
thread or call into the executor, and one step runs it. A section that takes the lock of
a request inside the table lock keeps the table lock over several steps. Request states
go by the order of their creation, and an index in a table stands for a pointer.
-/
namespace KimServing
open Library Function

structure TrtLlmBackendConfig where
  engineDir : List UInt8 := []
  maxInputTokens : ℕ := 512
  maxSequenceTokens : ℕ := 544
  maxOutputTokens : ℕ := 32
  iterStatsMaxIterations : ℤ := 100000
  deriving DecidableEq

inductive ExecutorFinishReason where
  | endId | stopWords | length | timedOut | cancelled | notFinished
  deriving DecidableEq

structure ExecutorResult where
  outputTokenIds : List (List ℤ)
  isFinal : Bool
  finishReasons : List ExecutorFinishReason
  deriving DecidableEq

structure ExecutorResponse where
  requestId : ℕ
  outcome : List UInt8 ⊕ ExecutorResult
  deriving DecidableEq

def toFinishReason : ExecutorFinishReason → Option FinishReason
  | .endId => some .eos
  | .stopWords => some .stop
  | .length => some .length
  | .timedOut => some .timeout
  | .cancelled => some .cancelled
  | .notFinished => none

def statusForFinishReason : FinishReason → Status
  | .eos | .length | .stop => .success
  | .cancelled => .error .cancelled "generation request was cancelled"
  | .timeout => .error .timeout "generation request timed out"
  | .backpressure => .error .queueFull "generation output mailbox is full"

def hasNegativeToken (tokens : List ℤ) : Bool := tokens.any (fun token => decide (token < 0))

def hasInvalidStopSequence (sequence : List ℤ) : Bool :=
  sequence.isEmpty || hasNegativeToken sequence

namespace TrtLlmBackendConfig

/-- What the file system says of the engine directory is a choice of the environment. -/
def validateConfig (c : TrtLlmBackendConfig) (engineFound : Bool) : Status :=
  if engineFound = false then ⟨.engineNotFound, utf8 "invalid engine directory: " ++ c.engineDir⟩
  else if c.maxInputTokens = 0 ∨ c.maxOutputTokens = 0 ∨
      c.maxSequenceTokens < c.maxInputTokens ∨ c.maxSequenceTokens < c.maxOutputTokens then
    .error .invalidInput "invalid backend token limits"
  else if c.iterStatsMaxIterations ≤ 0 then
    .error .invalidInput "iter_stats_max_iterations must be positive"
  else .success

def validateRequest (c : TrtLlmBackendConfig) (request : GenerationRequest)
    (mailbox : Option GenerationMailboxConfig) (now : ℤ) : Status :=
  if mailbox = none ∨ request.context.requestId = 0 then
    .error .invalidInput "request id and mailbox are required"
  else if request.context.priority ≠ 0 then
    .error .invalidInput "request priority is not supported yet"
  else if request.inputTokenIds = [] ∨ c.maxInputTokens < request.inputTokenIds.length ∨
      hasNegativeToken request.inputTokenIds then
    .error .invalidInput "invalid input token ids"
  else if c.maxSequenceTokens < request.inputTokenIds.length ∨ request.maxNewTokens = 0 ∨
      c.maxOutputTokens < request.maxNewTokens ∨
      c.maxSequenceTokens - request.inputTokenIds.length < request.maxNewTokens then
    .error .invalidInput "invalid max_new_tokens"
  else if request.sampling.topK ≤ 0 ∨ request.sampling.topP.inUnit = false ∨
      request.sampling.temperature.positive = false then
    .error .invalidInput "invalid sampling parameters"
  else if request.endId.any (fun token => decide (token < 0)) ∨
      request.padId.any (fun token => decide (token < 0)) then
    .error .invalidInput "invalid special token id"
  else if request.stopSequences.any hasInvalidStopSequence then
    .error .invalidInput "invalid stop sequence"
  else if request.context.hasDeadline ∧ request.context.deadline ≤ now then
    .error .timeout "request deadline has expired"
  else .success

end TrtLlmBackendConfig

/-! ## Threads -/

inductive BackendState where
  | stopped | running | stopping | failed
  deriving DecidableEq

inductive BackendThread where
  | call (k : ℕ)
  | pump
  deriving DecidableEq

/-- Where a thread stands in `finalizeRequest`: before the mailbox, between the two
halves of `finalize`, and before the tables. -/
inductive FinalizePc where
  | offer | finish | erase
  deriving DecidableEq

structure Finalization where
  request : ℕ
  status : Status
  finishReason : Option FinishReason
  deriving DecidableEq

inductive BackendOp where
  | start
  | submit (request : GenerationRequest) (mailbox : Option GenerationMailboxConfig)
  | cancel (externalId : ℕ)
  | stop

inductive BackendPc where
  | idle
  | startLifecycle
  | startCheck
  | startValidate
  | startExecutor
  | startReset (status : Status)
  | startResetFinish (status : Status)
  | submitValidate (request : GenerationRequest) (mailbox : Option GenerationMailboxConfig)
  | submitConvert (request : GenerationRequest) (mailbox : GenerationMailboxConfig)
  | submitTable (request : GenerationRequest) (mailbox : GenerationMailboxConfig)
  | cancelTable (externalId : ℕ)
  | cancelMark (request executorId : ℕ)
  | cancelExecutor (executorId : ℕ) (marked : Bool)
  | stopLifecycle
  | stopTable
  | stopMark (pending : List (Sigma (fun _ : ℕ => ℕ))) (active : List ℕ)
  | stopCancel (active : List ℕ)
  | stopJoin
  | stopSnapshot
  | stopFinalizeAll (pending : List ℕ)
  | stopFinalize (pc : FinalizePc) (request : ℕ) (pending : List ℕ)
  | stopFinish
  | unlock (status : Status)
  | returned (status : Status)

/-- Where the response pump stands, with the responses that it still has to handle. -/
inductive ResponsePumpPc where
  | notStarted
  | checkRunning
  | await
  | handle (responses : List ExecutorResponse)
  | markInvalid (request executorId : ℕ) (rest : List ExecutorResponse)
  | markRunning (request executorId : ℕ) (tokens : List ℤ) (result : ExecutorResult)
    (rest : List ExecutorResponse)
  | commit (request executorId : ℕ) (tokens : List ℤ) (result : ExecutorResult)
    (rest : List ExecutorResponse)
  | committing (request : ℕ) (result : ExecutorResult) (rest : List ExecutorResponse)
  | markBackpressure (request executorId : ℕ) (rest : List ExecutorResponse)
  | finalize (pc : FinalizePc) (f : Finalization) (cancelAfter : Option ℕ)
    (rest : List ExecutorResponse)
  | cancelExecutor (executorId : ℕ) (rest : List ExecutorResponse)
  | markFailed (status : Status)
  | snapshotAll (status : Status)
  | finalizeAll (status : Status) (pending : List ℕ)
  | finalizeOne (pc : FinalizePc) (f : Finalization) (status : Status) (pending : List ℕ)
  | finished

structure Backend where
  config : TrtLlmBackendConfig
  state : BackendState := .stopped
  executor : Bool := false
  requests : AList (fun _ : ℕ => ℕ) := ∅
  externalToExecutor : AList (fun _ : ℕ => ℕ) := ∅
  objects : ℕ → Gate := fun _ => .initial 0 0 0 {}
  count : ℕ := 0
  owner : ℕ → Option BackendThread := fun _ => none
  tableLock : Option BackendThread := none
  lifecycleLock : Option ℕ := none
  calls : ℕ → BackendPc := fun _ => .idle
  pump : ResponsePumpPc := .notStarted
  executorCancels : List ℕ := []

inductive Thrown where
  | exception (what : List UInt8)
  | other
  deriving DecidableEq

/-- What the clock, the file system and the executor answer to one step. -/
structure BackendEnv where
  now : ℤ := 0
  engineFound : Bool := true
  threw : Option Thrown := none
  executorId : ℕ := 0
  responses : List ExecutorResponse := []
  /-- The position of the entry that a loop visits next: tables have no order. -/
  pick : ℕ := 0

namespace Backend

def setCall (s : Backend) (k : ℕ) (pc : BackendPc) : Backend :=
  { s with calls := update s.calls k pc }

def setObject (s : Backend) (n : ℕ) (g : Gate) : Backend :=
  { s with objects := update s.objects n g }

def setOwner (s : Backend) (n : ℕ) (t : Option BackendThread) : Backend :=
  { s with owner := update s.owner n t }

def snapshotRequests (s : Backend) : List ℕ := s.requests.entries.map Sigma.snd

def register (s : Backend) (request : GenerationRequest) (mailbox : GenerationMailboxConfig)
    (executorId : ℕ) : Backend :=
  let externalId := request.context.requestId
  { s.setObject s.count
      (.initial externalId executorId request.inputTokenIds.length mailbox) with
    count := s.count + 1
    requests := s.requests.insert executorId s.count
    externalToExecutor := s.externalToExecutor.insert externalId executorId }

/-- The section of `submit` under the table lock. An executor that throws has enqueued
nothing, and one that returns a known id makes the emplace fail. -/
def enqueueRequest (s : Backend) (request : GenerationRequest) (mailbox : GenerationMailboxConfig)
    (threw : Option (List UInt8)) (executorId : ℕ) : Status × Backend :=
  let externalId := request.context.requestId
  if s.state ≠ .running ∨ s.executor = false then
    (.error .cancelled "backend is not running", s)
  else if (s.externalToExecutor.lookup externalId).isSome then
    (⟨.invalidInput, utf8 ("duplicate request id: " ++ toString externalId)⟩, s)
  else
    match threw with
    | some what =>
      (⟨.tensorRTError, utf8 "failed to enqueue request: " ++ what⟩,
        { s with externalToExecutor := s.externalToExecutor.erase externalId })
    | none =>
      if (s.requests.lookup executorId).isSome then
        (.error .tensorRTError ("failed to enqueue request: " ++
          "TensorRT-LLM returned a duplicate executor request id"),
          { s with
            externalToExecutor := s.externalToExecutor.erase externalId
            requests := s.requests.erase executorId
            executorCancels := s.executorCancels ++ [executorId] })
      else
        (.success, s.register request mailbox executorId)

def eraseRequest (s : Backend) (n : ℕ) : Backend :=
  if s.requests.lookup (s.objects n).state.executorId = some n then
    { s with
      externalToExecutor := s.externalToExecutor.erase (s.objects n).state.externalId
      requests := s.requests.erase (s.objects n).state.executorId }
  else s

/-- A call of a request state or of its mailbox. An index that no request has is no
pointer. -/
def locked (s : Backend) (n : ℕ) (call : GateCall) : Option Backend :=
  if n < s.count then ((s.objects n).step call).map (s.setObject n) else none

/-- One step of `finalizeRequest`, with the place after it. A mailbox that refuses the
terminal event ends it without touching the tables. -/
def finalizeStep (s : Backend) (t : BackendThread) (f : Finalization) :
    FinalizePc → Option (Backend × Option FinalizePc)
  | .offer =>
    match (s.objects f.request).state.offerTerminal f.status f.finishReason with
    | .error .mailboxRejected =>
      (s.locked f.request (.finalize f.status f.finishReason)).map (fun s => (s, none))
    | .error _ =>
      (s.locked f.request (.finalize f.status f.finishReason)).map (fun s => (s, some .erase))
    | .ok _ =>
      (s.locked f.request (.finalize f.status f.finishReason)).map
        (fun s => (s.setOwner f.request (some t), some .finish))
  | .finish =>
    if s.owner f.request = some t then
      (s.locked f.request .finish).map (fun s => (s.setOwner f.request none, some .erase))
    else none
  | .erase => if s.tableLock = none then some (s.eraseRequest f.request, none) else none

/-! ## The calls -/

def BackendOp.entry : BackendOp → BackendPc
  | .start => .startLifecycle
  | .submit request mailbox => .submitValidate request mailbox
  | .cancel externalId => .cancelTable externalId
  | .stop => .stopLifecycle

def begin (s : Backend) (k : ℕ) (op : BackendOp) : Option Backend :=
  match s.calls k with
  | .idle => some (s.setCall k (BackendOp.entry op))
  | _ => none

def settledState (s : Backend) : BackendState :=
  if s.requests.keys = [] ∧ s.externalToExecutor.keys = [] then .stopped else .failed

def startStep (s : Backend) (k : ℕ) (env : BackendEnv) : Option Backend :=
  match s.calls k with
  | .startLifecycle =>
    if s.lifecycleLock = none then some (setCall { s with lifecycleLock := some k } k .startCheck)
    else none
  | .startCheck =>
    if s.tableLock = none then
      some (s.setCall k (
        if s.state = .running then .unlock .success
        else if s.state ≠ .stopped then
          .unlock (.error .internalError "backend must be stopped before restarting")
        else if s.requests.keys ≠ [] ∨ s.externalToExecutor.keys ≠ [] then
          .unlock (.error .internalError "backend still contains unfinished requests")
        else .startValidate))
    else none
  | .startValidate =>
    let status := s.config.validateConfig env.engineFound
    some (s.setCall k (if status.isOk then .startExecutor else .unlock status))
  | .startExecutor =>
    match env.threw with
    | some (.exception what) =>
      some (s.setCall k (.startReset
        ⟨.tensorRTError, utf8 "failed to start TensorRT-LLM backend: " ++ what⟩))
    | some .other => none
    | none =>
      if s.tableLock = none then
        some (setCall { s with
          executor := true
          pump := .checkRunning
          state := .running } k (.unlock .success))
      else none
  | .startReset status =>
    if s.tableLock = none then
      some (setCall { s with state := .stopping } k (.startResetFinish status))
    else none
  | .startResetFinish status =>
    if s.tableLock = none then
      some (setCall { s with
        executor := false
        state := s.settledState } k (.unlock status))
    else none
  | _ => none

def submitStep (s : Backend) (k : ℕ) (env : BackendEnv) : Option Backend :=
  match s.calls k with
  | .submitValidate request mailbox =>
    let status := s.config.validateRequest request mailbox env.now
    match status.isOk, mailbox with
    | true, some mailbox => some (s.setCall k (.submitConvert request mailbox))
    | _, _ => some (s.setCall k (.returned status))
  | .submitConvert request mailbox =>
    match env.threw with
    | some (.exception what) =>
      some (s.setCall k (.returned
        ⟨.invalidInput, utf8 "failed to create TensorRT-LLM request: " ++ what⟩))
    | some .other => none
    | none => some (s.setCall k (.submitTable request mailbox))
  | .submitTable request mailbox =>
    if s.tableLock = none then
      match env.threw with
      | some .other => none
      | some (.exception what) =>
        let result := s.enqueueRequest request mailbox (some what) env.executorId
        some (result.2.setCall k (.returned result.1))
      | none =>
        let result := s.enqueueRequest request mailbox none env.executorId
        some (result.2.setCall k (.returned result.1))
    else none
  | _ => none

def cancelStep (s : Backend) (k : ℕ) : Option Backend :=
  match s.calls k with
  | .cancelTable externalId =>
    if s.tableLock = none then
      match s.externalToExecutor.lookup externalId, s.executor with
      | some executorId, true =>
        match s.requests.lookup executorId with
        | some n =>
          some (setCall { s with tableLock := some (.call k) } k (.cancelMark n executorId))
        | none => some (s.setCall k (.returned .success))
      | _, _ => some (s.setCall k (.returned .success))
    else none
  | .cancelMark n executorId =>
    (s.locked n .markCancelling).map (fun t =>
      t.setCall k (.cancelExecutor executorId (s.objects n).state.markCancelling.1))
  | .cancelExecutor executorId marked =>
    some (setCall { s with
      tableLock := none
      executorCancels :=
        if marked then s.executorCancels ++ [executorId] else s.executorCancels }
      k (.returned .success))
  | _ => none

def stoppedBefore : Status := .error .cancelled "backend stopped before request completed"

def pumpDone (s : Backend) : Bool :=
  match s.pump with
  | .notStarted | .finished => true
  | _ => false

def stopStep (s : Backend) (k : ℕ) (env : BackendEnv) : Option Backend :=
  match s.calls k with
  | .stopLifecycle =>
    if s.lifecycleLock = none then some (setCall { s with lifecycleLock := some k } k .stopTable)
    else none
  | .stopTable =>
    if s.tableLock = none then
      if s.state = .stopped then some (s.setCall k (.unlock .success))
      else
        some (setCall { s with
          state := .stopping
          tableLock := some (.call k) } k (.stopMark s.requests.entries []))
    else none
  | .stopMark [] active => some (setCall { s with tableLock := none } k (.stopCancel active))
  | .stopMark pending active =>
    match pending[env.pick]? with
    | none => none
    | some ⟨executorId, n⟩ =>
      (s.locked n .markCancelling).map (fun t =>
        t.setCall k (.stopMark (pending.eraseIdx env.pick)
          (if (s.objects n).state.markCancelling.1 then active ++ [executorId] else active)))
  | .stopCancel active =>
    some (setCall { s with
      executorCancels :=
        if s.executor then s.executorCancels ++ active else s.executorCancels } k .stopJoin)
  | .stopJoin =>
    if s.pumpDone then some (setCall { s with pump := .notStarted } k .stopSnapshot) else none
  | .stopSnapshot =>
    if s.tableLock = none then some (s.setCall k (.stopFinalizeAll s.snapshotRequests)) else none
  | .stopFinalizeAll [] => some (s.setCall k .stopFinish)
  | .stopFinalizeAll pending =>
    (pending[env.pick]?).map (fun n =>
      s.setCall k (.stopFinalize .offer n (pending.eraseIdx env.pick)))
  | .stopFinalize pc n pending =>
    (s.finalizeStep (.call k) ⟨n, stoppedBefore, some .cancelled⟩ pc).map (fun (s, next) =>
      s.setCall k (match next with
        | some pc => .stopFinalize pc n pending
        | none => .stopFinalizeAll pending))
  | .stopFinish =>
    if s.tableLock = none then
      some (setCall { s with
        executor := false
        state := s.settledState } k (.unlock .success))
    else none
  | _ => none

def unlockStep (s : Backend) (k : ℕ) : Option Backend :=
  match s.calls k with
  | .unlock status => some (setCall { s with lifecycleLock := none } k (.returned status))
  | _ => none

/-! ## The response pump -/

def invalidBeamCount : Status :=
  .error .tensorRTError "TensorRT-LLM response has an invalid beam count"

/-- After `findRequest`: an error ends the request, and so does a result that is not of
beam width one. -/
def inspect (n : ℕ) (response : ExecutorResponse) (rest : List ExecutorResponse) :
    ResponsePumpPc :=
  match response.outcome with
  | .inl message => .finalize .offer ⟨n, ⟨.tensorRTError, message⟩, none⟩ none rest
  | .inr result =>
    match result.outputTokenIds with
    | [tokens] => .markRunning n response.requestId tokens result rest
    | _ => .markInvalid n response.requestId rest

def conclude (n : ℕ) (result : ExecutorResult) (rest : List ExecutorResponse) : ResponsePumpPc :=
  if result.isFinal = false then .handle rest
  else
    match result.finishReasons with
    | [reason] =>
      match toFinishReason reason with
      | some reason => .finalize .offer ⟨n, statusForFinishReason reason, some reason⟩ none rest
      | none =>
        .finalize .offer ⟨n, .error .tensorRTError
          "final TensorRT-LLM response is not marked finished", none⟩ none rest
    | _ =>
      .finalize .offer ⟨n, .error .tensorRTError
        "final TensorRT-LLM response has no valid finish reason", none⟩ none rest

def pumpFailure : Thrown → Status
  | .exception what => ⟨.tensorRTError, utf8 "response pump failed: " ++ what⟩
  | .other => .error .tensorRTError "response pump failed with an unknown exception"

def pumpStep (s : Backend) (env : BackendEnv) : Option Backend :=
  match s.pump with
  | .notStarted => none
  | .checkRunning =>
    if s.tableLock = none then
      some { s with pump := if s.state = .running then .await else .finished }
    else none
  | .await =>
    match env.threw with
    | some thrown => some { s with pump := .markFailed (pumpFailure thrown) }
    | none => some { s with pump := .handle env.responses }
  | .handle [] => some { s with pump := .checkRunning }
  | .handle (response :: rest) =>
    match env.threw with
    | some thrown => some { s with pump := .markFailed (pumpFailure thrown) }
    | none =>
      if s.tableLock = none then
        match s.requests.lookup response.requestId with
        | none => some { s with pump := .handle rest }
        | some n => some { s with pump := inspect n response rest }
      else none
  | .markInvalid n executorId rest =>
    (s.locked n .markCancelling).map (fun s => { s with
      pump := .finalize .offer ⟨n, invalidBeamCount, none⟩ (some executorId) rest })
  | .markRunning n executorId tokens result rest =>
    (s.locked n .markRunning).map (fun s => { s with
      pump :=
        if tokens = [] then conclude n result rest else .commit n executorId tokens result rest })
  | .commit n executorId tokens result rest =>
    match (s.objects n).state.offerDelta tokens with
    | .ok _ =>
      (s.locked n (.tryCommitDelta tokens)).map (fun s => { s.setOwner n (some .pump) with
        pump := .committing n result rest })
    | .error code =>
      (s.locked n (.tryCommitDelta tokens)).map (fun s => { s with
        pump :=
          match code with
          | .backpressure => .markBackpressure n executorId rest
          | .terminal => .handle rest
          | _ => conclude n result rest })
  | .committing n result rest =>
    if s.owner n = some .pump then
      (s.locked n .finish).map (fun s => { s.setOwner n none with pump := conclude n result rest })
    else none
  | .markBackpressure n executorId rest =>
    (s.locked n .markCancelling).map (fun s => { s with
      pump := .finalize .offer ⟨n, statusForFinishReason .backpressure, some .backpressure⟩
        (some executorId) rest })
  | .finalize pc f cancelAfter rest =>
    (s.finalizeStep .pump f pc).map (fun (s, next) => { s with
      pump :=
        match next, cancelAfter with
        | some pc, _ => .finalize pc f cancelAfter rest
        | none, some executorId => .cancelExecutor executorId rest
        | none, none => .handle rest })
  | .cancelExecutor executorId rest =>
    if s.tableLock = none then
      some { s with
        executorCancels :=
          if s.executor then s.executorCancels ++ [executorId] else s.executorCancels
        pump := .handle rest }
    else none
  | .markFailed status =>
    if s.tableLock = none then
      if s.state = .running then some { s with state := .failed, pump := .snapshotAll status }
      else some { s with pump := .finished }
    else none
  | .snapshotAll status =>
    if s.tableLock = none then some { s with pump := .finalizeAll status s.snapshotRequests }
    else none
  | .finalizeAll _ [] => some { s with pump := .finished }
  | .finalizeAll status pending =>
    (pending[env.pick]?).map (fun n => { s with
      pump := .finalizeOne .offer ⟨n, status, none⟩ status (pending.eraseIdx env.pick) })
  | .finalizeOne pc f status pending =>
    (s.finalizeStep .pump f pc).map (fun (s, next) => { s with
      pump :=
        match next with
        | some pc => .finalizeOne pc f status pending
        | none => .finalizeAll status pending })
  | .finished => none

end Backend

inductive BackendAction where
  | begin (k : ℕ) (op : BackendOp)
  | start (k : ℕ) (env : BackendEnv)
  | submit (k : ℕ) (env : BackendEnv)
  | cancel (k : ℕ)
  | stop (k : ℕ) (env : BackendEnv)
  | unlock (k : ℕ)
  | pump (env : BackendEnv)
  /-- The consumer of a mailbox waits for an event or closes it. -/
  | waitPop (n : ℕ)
  | close (n : ℕ)

def Backend.step (s : Backend) : BackendAction → Option Backend
  | .begin k op => s.begin k op
  | .start k env => s.startStep k env
  | .submit k env => s.submitStep k env
  | .cancel k => s.cancelStep k
  | .stop k env => s.stopStep k env
  | .unlock k => s.unlockStep k
  | .pump env => s.pumpStep env
  | .waitPop n => s.locked n .waitPop
  | .close n => s.locked n .close

end KimServing

import KimServing.Library.Occurrences
import KimServing.Library.Runs
import KimServing.Runtime.GenerationRequest
import KimServing.Runtime.RequestState
import KimServing.Worker.BridgeMessages
import Mathlib.Logic.Function.Basic

/-! # The runtime bridge and its threads

The handler runs on the reader thread of the IPC session, every accepted request
has a pump, and a writer, a monitor and a caller of `stop` run beside them. A
program counter stands before the next critical section, atomic access or call
into another component of its thread, and one step runs that section. Each
received Submit gets the next index; records, mailboxes and pumps go by index,
since a request id can come back.
-/
namespace KimServing
open Library Function Ipc

def failure (code : StatusCode) (message : String) : Status := .error code message

/-! ## Converting a Submit -/

def floatMax : ℕ := (2 ^ 24 - 1) * 2 ^ 104

def submitDeadline (timeoutMs : Option ℕ) (now : ℤ) : Except Status ℤ :=
  match timeoutMs with
  | none => .ok maxTimePoint
  | some timeout =>
    if 2 ^ 63 - 1 < timeout then
      .error (failure .invalidInput "Submit timeout exceeds the Runtime range")
    else if (maxTimePoint - now) / 10 ^ 6 < timeout then
      .error (failure .invalidInput "Submit deadline exceeds the Runtime range")
    else .ok (now + timeout * 10 ^ 6)

def convertSubmit (c : RuntimeBridgeConfig) (input : Submit) (now : ℤ) :
    Except Status GenerationRequest :=
  if input.workerEpoch ≠ c.workerEpoch then
    .error (failure .invalidInput "Submit worker epoch does not match the active Worker")
  else if input.priority < -2 ^ 31 ∨ 2 ^ 31 - 1 < input.priority then
    .error (failure .invalidInput "Submit priority is outside the Runtime range")
  else if input.sampling.temperature.exceeds floatMax ∨ input.sampling.topP.exceeds floatMax then
    .error (failure .invalidInput "Submit sampling value is outside the Runtime range")
  else do
    let deadline ← submitDeadline input.timeoutMs now
    return {
      context := ⟨input.requestId, input.priority, deadline, input.traceId⟩
      inputTokenIds := input.inputTokenIds
      maxNewTokens := input.maxNewTokens
      streaming := input.streaming
      sampling := ⟨input.sampling.temperature, input.sampling.topK, input.sampling.topP,
        input.sampling.randomSeed⟩
      endId := input.endId
      padId := input.padId
      stopSequences := input.stopSequences }

theorem convertSubmit_ok {c : RuntimeBridgeConfig} {m : Submit} {now : ℤ}
    {request : GenerationRequest} (h : convertSubmit c m now = .ok request) :
    submitDeadline m.timeoutMs now = .ok request.context.deadline ∧
      request.context.requestId = m.requestId ∧ request.maxNewTokens = m.maxNewTokens := by
  unfold convertSubmit at h
  split_ifs at h
  cases hdeadline : submitDeadline m.timeoutMs now with
  | error =>
    simp [hdeadline] at h
  | ok =>
    rw [hdeadline] at h
    cases h
    exact ⟨rfl, rfl, rfl⟩

/-! ## State -/

inductive BridgeState where
  | created | running | stopping | stopped | failed
  deriving DecidableEq

/-- The flags of a request; the two of the forwarding gate come last. -/
structure RequestRecord where
  requestId : ℕ := 0
  cancelRequested : Bool := false
  backpressureRequested : Bool := false
  terminalEnqueued : Bool := false
  pumpFinished : Bool := false
  forwardingAllowed : Bool := false
  abandoned : Bool := false
  deriving DecidableEq

inductive CancelPc where
  | check | exchange | count | call
  deriving DecidableEq

/-- What the handler does after `beginShutdown` has returned. -/
inductive HandlerResume where
  | exit
  | fail (status : Status)
  | idle

structure BridgeFigures where
  running : Bool
  rejectedRequests : ℕ
  backpressureRequests : ℕ
  cancelledRequests : ℕ

inductive HandlerPc where
  | idle
  | reap (m : Message)
  | convert (n : ℕ) (m : Submit)
  | submit (n : ℕ) (request : GenerationRequest)
  | register (n : ℕ)
  | emplace (n : ℕ)
  | spawn (n : ℕ)
  | spawnFailed (n : ℕ) (status : Status)
  | erase (n : ℕ) (status : Status)
  | abandon (n : ℕ) (status : Status)
  | undo (n : ℕ) (status : Status)
  | countRejected (n : ℕ) (status : Status)
  | reject (n : ℕ) (status : Status)
  | accept (n : ℕ)
  | acceptFailed (n : ℕ) (status : Status)
  | acceptCancel (n : ℕ) (status : Status) (pc : CancelPc)
  | allow (n : ℕ)
  | lookup (requestId : ℕ)
  | cancel (n : ℕ) (pc : CancelPc)
  | snapshot (probeId : ℕ)
  | egressSnapshot (probeId : ℕ) (figures : BridgeFigures)
  | stats (m : Stats)
  | shutdown (status : Status) (resume : HandlerResume)
  | shuttingDown (resume : HandlerResume)
  | exited

def HandlerResume.pc : HandlerResume → HandlerPc
  | .exit => .exited
  | .fail status => .shutdown status .exit
  | .idle => .idle

inductive PumpResume where
  | loop | stopSession
  deriving DecidableEq

inductive PumpPc where
  | notStarted
  | waitGate
  | checkStop
  | pop
  | delta (d : TokenDelta)
  | forward (d : TokenDelta)
  | countBackpressure
  | markBackpressure
  | cancelling (pc : CancelPc)
  | terminal (t : TerminalEvent)
  | enqueueTerminal (wire : Terminal)
  | markTerminal
  | shutdown (status : Status) (resume : PumpResume)
  | shuttingDown (resume : PumpResume)
  | sessionStop
  | finish
  | finished

def PumpResume.pc : PumpResume → PumpPc
  | .loop => .checkStop
  | .stopSession => .sessionStop

inductive WriterPc where
  | checkStop
  | pop
  | checkSend (m : Message)
  | send (m : Message)
  | wait (m : Message)
  | shutdown (status : Status)
  | shuttingDown
  | sessionStop
  | exited

inductive MonitorPc where
  | wait
  | checkTimeout
  | checkClosed
  | shutdown (status : Status)
  | shuttingDown
  | exited

inductive StopperPc where
  | notCalled
  | shutdown
  | shuttingDown
  | sessionStop
  | joinMonitor
  | joinWriter
  | takeRequests
  | joinPumps (owned : List ℕ)
  | joinPump (n : ℕ) (owned : List ℕ)
  | finish
  | report
  | returned (status : Status)

/-- The progress of the one `beginShutdown` that found no other before it. -/
inductive ShutdownPc where
  | idle
  | stopEgress (owned : List ℕ)
  | loop (owned : List ℕ)
  | cancelling (n : ℕ) (pc : CancelPc) (owned : List ℕ)
  | threw (owned : List ℕ)
  | finished

/-- The bridge with its threads. The last fields are histories: the ids of the
received Submits with the newest first, what the runtime has accepted and which
requests it was told to cancel, what was queued for each Submit and taken by the
writer, and what the writer has taken and sent. -/
structure Bridge where
  config : RuntimeBridgeConfig
  egress : SessionEgress
  state : BridgeState := .running
  stopRequested : Bool := false
  terminalStatus : Status := .success
  requests : List (ℕ × ℕ) := []
  rejectedRequests : ℕ := 0
  backpressureRequests : ℕ := 0
  cancelledRequests : ℕ := 0
  records : ℕ → RequestRecord := fun _ => {}
  gates : ℕ → Gate := fun _ => .initial 0 0 0 {}
  handler : HandlerPc := .idle
  pumps : ℕ → PumpPc := fun _ => .notStarted
  writer : WriterPc := .checkStop
  monitor : MonitorPc := .wait
  stopper : StopperPc := .notCalled
  shutdown : ShutdownPc := .idle
  ids : List ℕ := []
  accepted : ℕ → Bool := fun _ => false
  cancelCalled : ℕ → Bool := fun _ => false
  owned : List ℕ := []
  enqueued : ℕ → List Message := fun _ => []
  delivered : ℕ → List Message := fun _ => []
  popped : List Message := []
  sent : List Message := []

inductive Submission where
  | refused (status : Status)
  | accepted (executorId promptTokens : ℕ) (mailbox : GenerationMailboxConfig)

structure Environment where
  now : ℤ := 0
  submission : Submission := .refused {}
  spawnError : Option (List UInt8) := none
  cancelThrows : Bool := false
  sendStatus : Status := .success
  stalled : Bool := false
  closeStatus : Status := .success
  /-- The entry that a loop over a hash map visits next. -/
  pick : ℕ := 0
  runtimeRunning : Bool := true
  sessionReady : Bool := true
  activeRequests : ℕ := 0
  reservedInputTokens : ℕ := 0
  reservedOutputTokens : ℕ := 0
  sessionFrames : ℕ := 0
  sessionBytes : ℕ := 0

namespace Bridge

def updateRecord (s : Bridge) (n : ℕ) (f : RequestRecord → RequestRecord) : Bridge :=
  { s with records := update s.records n (f (s.records n)) }

def setPump (s : Bridge) (n : ℕ) (pc : PumpPc) : Bridge :=
  { s with pumps := update s.pumps n pc }

def setGate (s : Bridge) (n : ℕ) (g : Gate) : Bridge :=
  { s with gates := update s.gates n g }

def noteEnqueued (s : Bridge) (n : ℕ) (m : Message) (e : SessionEgress) : Bridge :=
  { s with egress := e, enqueued := update s.enqueued n (s.enqueued n ++ [m]) }

def notePopped (s : Bridge) (m : Message) (e : SessionEgress) : Bridge :=
  { s with
    egress := e
    popped := s.popped ++ [m]
    delivered :=
      match m.requestId?.bind (fun requestId => lastIndex requestId s.ids) with
      | some n => update s.delivered n (s.delivered n ++ [m])
      | none => s.delivered }

def allowForwarding (s : Bridge) (n : ℕ) : Bridge :=
  s.updateRecord n (fun r => { r with forwardingAllowed := true })

def abandonForwarding (s : Bridge) (n : ℕ) : Bridge :=
  s.updateRecord n (fun r => { r with abandoned := true })

def runtimeCancel (s : Bridge) (requestId : ℕ) : Bridge :=
  { s with
    cancelCalled := fun n =>
      s.cancelCalled n || (s.accepted n && (s.records n).requestId == requestId) }

def findRequest (s : Bridge) (requestId : ℕ) : Option ℕ := s.requests.lookup requestId

def eraseRequest (s : Bridge) (requestId : ℕ) : Bridge :=
  { s with requests := s.requests.filter (fun entry => entry.1 ≠ requestId) }

/-! ## Procedures that several threads run -/

inductive CancelOutcome where
  | next (pc : CancelPc)
  | returned
  | threw

def cancelStep (s : Bridge) (n : ℕ) (countCancel throws : Bool) : CancelPc → Bridge × CancelOutcome
  | .check => (s, if (s.records n).terminalEnqueued then .returned else .next .exchange)
  | .exchange =>
    if (s.records n).cancelRequested then (s, .returned)
    else
      (s.updateRecord n (fun r => { r with cancelRequested := true }),
        .next (if countCancel then .count else .call))
  | .count => ({ s with cancelledRequests := s.cancelledRequests + 1 }, .next .call)
  | .call => (s.runtimeCancel (s.records n).requestId, if throws then .threw else .returned)

def cancelThrew : Status := failure .internalError "GenerationRuntime cancel threw an exception"

/-- The critical section of `beginShutdown`. The first one takes the requests and
goes on with them; the others only report their status. -/
def enterShutdown (s : Bridge) (status : Status) : Bridge × Bool :=
  if s.stopRequested then
    (if status.isOk = false ∧ s.terminalStatus.isOk = true then
        { s with terminalStatus := status, state := .failed }
      else s, false)
  else
    ({ s with
      stopRequested := true
      state := if status.isOk then .stopping else .failed
      terminalStatus := if status.isOk then s.terminalStatus else status
      shutdown := .stopEgress (s.requests.map Prod.snd)
      owned := s.requests.map Prod.snd }, true)

def shutdownStep (s : Bridge) (env : Environment) : Option Bridge :=
  match s.shutdown with
  | .idle => none
  | .stopEgress owned => some { s with egress := s.egress.stop, shutdown := .loop owned }
  | .loop [] => some { s with shutdown := .finished }
  | .loop owned =>
    if env.pick ∈ owned then
      some { s.abandonForwarding env.pick with
        shutdown := .cancelling env.pick .check (owned.erase env.pick) }
    else none
  | .cancelling n pc owned =>
    let (s, outcome) := s.cancelStep n true env.cancelThrows pc
    match outcome with
    | .next pc => some { s with shutdown := .cancelling n pc owned }
    | .returned => some { s with shutdown := .loop owned }
    | .threw => some { s with shutdown := .threw owned }
  | .threw owned => some { (s.enterShutdown cancelThrew).1 with shutdown := .loop owned }
  | .finished => none

/-- `IpcSession::stop` joins the reader thread, so it returns when the handler is
between two messages, and no message is handled afterwards. -/
def joinReader (s : Bridge) : Option Bridge :=
  match s.handler with
  | .idle => some { s with handler := .exited }
  | .exited => some s
  | _ => none

/-! ## The handler -/

def reapCompletedRequests (s : Bridge) : Bridge :=
  { s with
    requests := s.requests.filter (fun entry =>
      !((s.records entry.2).pumpFinished && (s.records entry.2).terminalEnqueued)) }

def dispatch (s : Bridge) : Message → HandlerPc
  | .submit m => .convert (s.ids.length - 1) m
  | .cancel m =>
    if m.workerEpoch ≠ s.config.workerEpoch then
      .shutdown (failure .invalidInput "Cancel worker epoch does not match the active Worker") .exit
    else .lookup m.requestId
  | .health m =>
    if m.workerEpoch ≠ s.config.workerEpoch then
      .shutdown (failure .invalidInput "Health worker epoch does not match the active Worker") .exit
    else .snapshot m.probeId
  | _ => .shutdown (failure .invalidInput "RuntimeBridge received an unsupported message") .exit

/-- The answer to a health probe, from figures that were read one after the other. -/
def makeStats (s : Bridge) (env : Environment) (probeId : ℕ) (figures : BridgeFigures) :
    Stats :=
  let ready := figures.running && env.runtimeRunning && env.sessionReady
  let frames := s.egress.controlFrames + s.egress.requestFrames + env.sessionFrames
  let bytes := s.egress.controlBytes + s.egress.requestBytes + env.sessionBytes
  { workerEpoch := s.config.workerEpoch
    probeId := probeId
    ready := ready
    status := if ready then .success else failure .notReady "Worker is not ready"
    uptimeMs := 0
    activeRequests := env.activeRequests
    reservedInputTokens := env.reservedInputTokens
    reservedOutputTokens := env.reservedOutputTokens
    sessionEgressFrames := frames
    sessionEgressBytes := bytes
    sessionEgressHighWatermarkFrames := max frames s.egress.highWatermarkFrames
    sessionEgressHighWatermarkBytes := max bytes s.egress.highWatermarkBytes
    rejectedRequests := figures.rejectedRequests
    backpressureRequests := figures.backpressureRequests
    cancelledRequests := figures.cancelledRequests }

section Threads
variable [JsonLib]

def handlerStep (s : Bridge) (env : Environment) : Option Bridge :=
  match s.handler with
  | .idle => none
  | .reap m => some { s.reapCompletedRequests with handler := s.dispatch m }
  | .convert n m =>
    match convertSubmit s.config m env.now with
    | .error status => some { s with handler := .countRejected n status }
    | .ok request => some { s with handler := .submit n request }
  | .submit n _ =>
    match env.submission with
    | .refused status => some { s with handler := .countRejected n status }
    | .accepted executorId promptTokens mailbox =>
      some { s.setGate n (.initial (s.records n).requestId executorId promptTokens mailbox) with
        accepted := update s.accepted n true
        handler := .register n }
  | .register n =>
    let (status, e) := s.egress.registerRequest (s.records n).requestId
    if status.isOk then some { s with egress := e, handler := .emplace n }
    else
      some { s with
        egress := e
        handler := .undo n
          (failure .resourceExhausted "RuntimeBridge could not reserve request egress") }
  | .emplace n =>
    if (s.findRequest (s.records n).requestId).isSome then
      some { s with
        handler := .abandon n (failure .alreadyExists "RuntimeBridge request id is still owned") }
    else
      some { s with
        requests := ((s.records n).requestId, n) :: s.requests
        handler := .spawn n }
  | .spawn n =>
    match env.spawnError with
    | none => some { s.setPump n .waitGate with handler := .accept n }
    | some what =>
      some { s with
        handler := .spawnFailed n
          ⟨.internalError, utf8 "failed to start EventForwarder: " ++ what⟩ }
  | .spawnFailed n status => some { s.abandonForwarding n with handler := .erase n status }
  | .erase n status =>
    some { s.eraseRequest (s.records n).requestId with handler := .abandon n status }
  | .abandon n status =>
    some { s with
      egress := (s.egress.abandonRequest (s.records n).requestId).2
      handler := .undo n status }
  | .undo n status =>
    some { s.runtimeCancel (s.records n).requestId with handler := .countRejected n status }
  | .countRejected n status =>
    some { s with rejectedRequests := s.rejectedRequests + 1, handler := .reject n status }
  | .reject n status =>
    let m := wireRejected s.config (s.records n).requestId status
    let (result, e) := s.egress.enqueueControl m
    if result.code = .enqueued then some { s.noteEnqueued n m e with handler := .idle }
    else some { s with egress := e, handler := .shutdown result.status .exit }
  | .accept n =>
    let m := wireAccepted s.config (s.records n).requestId
    let (result, e) := s.egress.enqueueControl m
    if result.code = .enqueued then some { s.noteEnqueued n m e with handler := .allow n }
    else some { s with egress := e, handler := .acceptFailed n result.status }
  | .acceptFailed n status =>
    some { s.abandonForwarding n with handler := .acceptCancel n status .check }
  | .acceptCancel n status pc =>
    let (s, outcome) := s.cancelStep n true env.cancelThrows pc
    match outcome with
    | .next pc => some { s with handler := .acceptCancel n status pc }
    | .returned => some { s with handler := .shutdown status .exit }
    | .threw => some { s with handler := .shutdown cancelThrew (.fail status) }
  | .allow n => some { s.allowForwarding n with handler := .idle }
  | .lookup requestId =>
    match s.findRequest requestId with
    | none => some { s with handler := .idle }
    | some n => some { s with handler := .cancel n .check }
  | .cancel n pc =>
    let (s, outcome) := s.cancelStep n true env.cancelThrows pc
    match outcome with
    | .next pc => some { s with handler := .cancel n pc }
    | .returned => some { s with handler := .idle }
    | .threw => some { s with handler := .shutdown cancelThrew .idle }
  | .snapshot probeId =>
    some { s with
      handler := .egressSnapshot probeId ⟨s.state == .running && !s.stopRequested,
        s.rejectedRequests, s.backpressureRequests, s.cancelledRequests⟩ }
  | .egressSnapshot probeId figures =>
    some { s with handler := .stats (s.makeStats env probeId figures) }
  | .stats m =>
    let (result, e) := s.egress.enqueueControl (.stats m)
    if result.code = .enqueued then some { s with egress := e, handler := .idle }
    else some { s with egress := e, handler := .shutdown result.status .exit }
  | .shutdown status resume =>
    let (s, first) := s.enterShutdown status
    some { s with handler := if first then .shuttingDown resume else resume.pc }
  | .shuttingDown resume =>
    match s.shutdown with
    | .finished => some { s with handler := resume.pc }
    | _ => none
  | .exited => none

/-! ## The pumps -/

def pumpStep (s : Bridge) (n : ℕ) (env : Environment) : Option Bridge :=
  match s.pumps n with
  | .notStarted => none
  | .waitGate =>
    if (s.records n).abandoned then some (s.setPump n .finish)
    else if (s.records n).forwardingAllowed then some (s.setPump n .checkStop)
    else none
  | .checkStop => some (s.setPump n (if s.stopRequested then .finish else .pop))
  | .pop =>
    let pc : PumpPc :=
      match (s.gates n).state.mailbox.waitPop.1 with
      | .timeout => .checkStop
      | .closed => .shutdown
          (failure .internalError "Accepted request Mailbox closed without Terminal") .stopSession
      | .event (.delta d) => .delta d
      | .event (.terminal t) => .terminal t
    some ((s.setGate n (s.gates n).popStep).setPump n pc)
  | .delta d => some (s.setPump n (if (s.records n).cancelRequested then .checkStop else .forward d))
  | .forward d =>
    let m : Message := .tokenDelta (wireDelta s.config d)
    let (result, e) := s.egress.enqueueDelta (s.records n).requestId m
    match result.code with
    | .enqueued => some ((s.noteEnqueued n m e).setPump n .checkStop)
    | .requestFull | .sessionFull => some ({ s with egress := e }.setPump n .countBackpressure)
    | .stopped => some ({ s with egress := e }.setPump n .finish)
    | _ => some ({ s with egress := e }.setPump n (.shutdown result.status .stopSession))
  | .countBackpressure =>
    some ({ s with backpressureRequests := s.backpressureRequests + 1 }.setPump n .markBackpressure)
  | .markBackpressure =>
    some ((s.updateRecord n (fun r => { r with backpressureRequested := true })).setPump n
      (.cancelling .check))
  | .cancelling pc =>
    let (s, outcome) := s.cancelStep n false env.cancelThrows pc
    match outcome with
    | .next pc => some (s.setPump n (.cancelling pc))
    | .returned => some (s.setPump n .checkStop)
    | .threw => some (s.setPump n (.shutdown cancelThrew .loop))
  | .terminal t =>
    some (s.setPump n (.enqueueTerminal
      (wireTerminal s.config (s.records n).backpressureRequested t)))
  | .enqueueTerminal wire =>
    let m : Message := .terminal wire
    let (result, e) := s.egress.enqueueTerminal (s.records n).requestId m
    match result.code with
    | .enqueued => some ((s.noteEnqueued n m e).setPump n .markTerminal)
    | .stopped => some ({ s with egress := e }.setPump n .finish)
    | _ => some ({ s with egress := e }.setPump n (.shutdown result.status .stopSession))
  | .markTerminal =>
    some ((s.updateRecord n (fun r => { r with terminalEnqueued := true })).setPump n .finish)
  | .shutdown status resume =>
    let (s, first) := s.enterShutdown status
    some (s.setPump n (if first then .shuttingDown resume else resume.pc))
  | .shuttingDown resume =>
    match s.shutdown with
    | .finished => some (s.setPump n resume.pc)
    | _ => none
  | .sessionStop => s.joinReader.map (fun s => s.setPump n .finish)
  | .finish =>
    some ((s.updateRecord n (fun r => { r with pumpFinished := true })).setPump n .finished)
  | .finished => none

end Threads

/-! ## The writer, the monitor and the caller of stop -/

def writerStep (s : Bridge) (env : Environment) : Option Bridge :=
  match s.writer with
  | .checkStop => some { s with writer := if s.stopRequested then .exited else .pop }
  | .pop =>
    let (result, e) := s.egress.waitPop s.config.mailboxWaitTimeout
    match result with
    | .timeout => some { s with egress := e, writer := .checkStop }
    | .stopped => some { s with egress := e, writer := .exited }
    | .message m => some { s.notePopped m e with writer := .checkSend m }
  | .checkSend m => some { s with writer := if s.stopRequested then .checkStop else .send m }
  | .send m =>
    if env.sendStatus.isOk then some { s with sent := s.sent ++ [m], writer := .checkStop }
    else if env.sendStatus.code ≠ .queueFull ∨ env.stalled then
      some { s with writer := .shutdown env.sendStatus }
    else some { s with writer := .wait m }
  | .wait m => some { s with writer := .checkSend m }
  | .shutdown status =>
    let (s, first) := s.enterShutdown status
    some { s with writer := if first then .shuttingDown else .sessionStop }
  | .shuttingDown =>
    match s.shutdown with
    | .finished => some { s with writer := .sessionStop }
    | _ => none
  | .sessionStop => s.joinReader.map (fun s => { s with writer := .exited })
  | .exited => none

def monitorStep (s : Bridge) (env : Environment) : Option Bridge :=
  match s.monitor with
  | .wait =>
    if env.closeStatus.code = .timeout then some { s with monitor := .checkTimeout }
    else if env.closeStatus.isOk then some { s with monitor := .checkClosed }
    else some { s with monitor := .shutdown env.closeStatus }
  | .checkTimeout => some { s with monitor := if s.stopRequested then .exited else .wait }
  | .checkClosed =>
    some { s with
      monitor :=
        if s.stopRequested then .exited
        else .shutdown (failure .unavailable "IPC session closed") }
  | .shutdown status =>
    let (s, first) := s.enterShutdown status
    some { s with monitor := if first then .shuttingDown else .exited }
  | .shuttingDown =>
    match s.shutdown with
    | .finished => some { s with monitor := .exited }
    | _ => none
  | .exited => none

def pumpJoined (s : Bridge) (n : ℕ) : Bool :=
  match s.pumps n with
  | .notStarted | .finished => true
  | _ => false

def stopperStep (s : Bridge) (env : Environment) : Option Bridge :=
  match s.stopper with
  | .notCalled => some { s with stopper := .shutdown }
  | .shutdown =>
    let (s, first) := s.enterShutdown .success
    some { s with stopper := if first then .shuttingDown else .sessionStop }
  | .shuttingDown =>
    match s.shutdown with
    | .finished => some { s with stopper := .sessionStop }
    | _ => none
  | .sessionStop => s.joinReader.map (fun s => { s with stopper := .joinMonitor })
  | .joinMonitor =>
    match s.monitor with
    | .exited => some { s with stopper := .joinWriter }
    | _ => none
  | .joinWriter =>
    match s.writer with
    | .exited => some { s with stopper := .takeRequests }
    | _ => none
  | .takeRequests =>
    some { s with requests := [], stopper := .joinPumps (s.requests.map Prod.snd) }
  | .joinPumps [] => some { s with stopper := .finish }
  | .joinPumps owned =>
    if env.pick ∈ owned then
      some { s.abandonForwarding env.pick with
        stopper := .joinPump env.pick (owned.erase env.pick) }
    else none
  | .joinPump n owned =>
    if s.pumpJoined n then some { s with stopper := .joinPumps owned } else none
  | .finish =>
    some { s with
      state := if s.state = .failed then .failed else .stopped
      stopper := .report }
  | .report => some { s with stopper := .returned s.terminalStatus }
  | .returned _ => none

/-! ## Steps -/

def openRecord (s : Bridge) (submit : Submit) : Bridge :=
  { s with
    records := update s.records s.ids.length { requestId := submit.requestId }
    ids := submit.requestId :: s.ids
    handler := .reap (.submit submit) }

def receive (s : Bridge) (m : Message) : Option Bridge :=
  match s.handler with
  | .idle =>
    match m with
    | .submit submit => some (s.openRecord submit)
    | _ => some { s with handler := .reap m }
  | _ => none

def backend (s : Bridge) (n : ℕ) (call : GateCall) : Option Bridge :=
  if s.accepted n = false ∨ call = .waitPop then none
  else ((s.gates n).step call).map (fun g => s.setGate n g)

end Bridge

inductive BridgeAction where
  | receive (m : Message)
  | handler (env : Environment)
  | pump (n : ℕ) (env : Environment)
  | backend (n : ℕ) (call : GateCall)
  | writer (env : Environment)
  | monitor (env : Environment)
  | stopper (env : Environment)
  | shutdown (env : Environment)

def Bridge.step [JsonLib] (s : Bridge) : BridgeAction → Option Bridge
  | .receive m => s.receive m
  | .handler env => s.handlerStep env
  | .pump n env => s.pumpStep n env
  | .backend n call => s.backend n call
  | .writer env => s.writerStep env
  | .monitor env => s.monitorStep env
  | .stopper env => s.stopperStep env
  | .shutdown env => s.shutdownStep env

def Bridge.initial (c : RuntimeBridgeConfig) (e : SessionEgress) : Bridge :=
  { config := c, egress := e }

end KimServing

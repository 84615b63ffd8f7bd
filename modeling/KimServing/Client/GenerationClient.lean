import KimServing.Client.Encode
import KimServing.Client.EventBuffer
import Mathlib.Data.List.AList
import Mathlib.Logic.Function.Basic

/-! # The generation client and its threads

Any number of threads call `submit`, `cancel`, `health`, `connect` and `close`,
and each connection has a reader. A program counter stands before the next
critical section of its thread or the next call into a socket, a queue or an
event buffer, and one step runs that section. Request states and response queues
go by index, since threads keep them after the tables have forgotten them.
-/
namespace KimServing.Client
open Library Function

structure GenerationClientConfig where
  expectedManifest : Ipc.ModelManifest
  maxFramePayloadBytes : ℕ := Ipc.kDefaultMaxFramePayloadBytes
  maxPendingRequests : ℕ := 8
  maxDeltaEventsPerRequest : ℕ := 64
  deriving DecidableEq

/-- The socket, with the acknowledgement that came over it. The client sets and
clears the two and its flag `_connected` together. -/
structure Connection where
  serial : ℕ
  helloAck : HelloAck
  deriving DecidableEq

/-- An exception out of an encoder, a decoder, a socket or a thread. -/
inductive CallError where
  | python (e : PyError)
  | osError (text : List UInt8)
  | runtimeError (text : List UInt8)
  deriving DecidableEq

inductive ClientError where
  | generationClientError (text : List UInt8)
  | workerUnavailable (text : List UInt8)
  | clientCapacity (text : List UInt8)
  | requestRejected (requestId : ℤ) (status : Status)
  | valueError (text : List UInt8)
  | timeoutError (text : List UInt8)
  | call (e : CallError)
  deriving DecidableEq

def notConnected : ClientError := .workerUnavailable (utf8 "GenerationClient is not connected")

def unavailable (message : List UInt8) : Status := ⟨utf8 "unavailable", message⟩

inductive ClientMessage where
  | submit (request : GenerationRequest) (workerEpoch : ℕ)
  | cancel (requestId : ℤ) (workerEpoch : ℕ)
  | health (probeId : ℕ) (workerEpoch : ℕ)
  deriving DecidableEq

inductive Caller where
  | submit (n : ℕ) (requestId : ℤ)
  | cancel
  | health (probeId response : ℕ)
  | reader
  deriving DecidableEq

inductive FailCaller where
  | send (caller : Caller)
  | acceptance (n : ℕ) (requestId : ℤ)
  | close
  | reader
  | readerStart (e : CallError)
  deriving DecidableEq

/-- What a call gives its caller. A handle keeps the event buffer of a request state. -/
inductive Outcome where
  | handle (n : ℕ) (requestId : ℤ)
  | cancelled (sent : Bool)
  | stats (stats : Stats)
  | returned
  | raised (e : ClientError)
  deriving DecidableEq

inductive Pc where
  | submit (request : GenerationRequest)
  | encode (caller : Caller) (message : ClientMessage)
  | acquire (caller : Caller) (message : ClientMessage)
  | capture (caller : Caller) (message : ClientMessage)
  | sending (caller : Caller) (message : ClientMessage) (serial : ℕ)
  | forget (n : ℕ) (requestId : ℤ) (e : ClientError)
  | waitAccepted (n : ℕ) (requestId : ℤ)
  | cancel (requestId : ℤ)
  | health
  | waitStats (probeId response : ℕ)
  | popProbe (probeId : ℕ) (result : Except ClientError Stats)
  | close
  | connect
  | handshake
  | startReader
  | launchReader (reader : ℕ)
  | readLoop
  | receiving (connection : Connection)
  | dispatch (message : ServerMessage)
  | deliver (n : ℕ) (terminal : Terminal)
  | fail (caller : FailCaller) (status : Status)
  | failRequests (caller : FailCaller) (status : Status) (requests responses : List ℕ)
      (reader : Option ℕ)
  | failProbes (caller : FailCaller) (status : Status) (responses : List ℕ) (reader : Option ℕ)
  | failJoin (caller : FailCaller) (status : Status) (reader : Option ℕ)
  | failReader (caller : FailCaller) (status : Status) (reader : Option ℕ)
  | failForget (caller : FailCaller) (status : Status) (reader : ℕ)
  | finished (outcome : Outcome)
  deriving DecidableEq

def Pc.isFinished : Pc → Bool
  | .finished _ => true
  | _ => false

structure Thread where
  pc : Pc := .finished .returned
  connection : Option ℕ := none

/-- The client with its threads. The last fields are histories: the connection on which
a request or a probe was registered, the thread that submitted a request, whether its
Submit was sent, the terminal that the worker sent for it, whether its `submit` removed it
from the table, what its handle has yielded, and what was sent and dispatched. -/
structure GenerationClient where
  config : GenerationClientConfig
  connection : Option Connection := none
  requests : AList (fun _ : ℤ => ℕ) := ∅
  probes : AList (fun _ : ℕ => ℕ) := ∅
  nextProbeId : ℕ := 1
  readerThread : Option ℕ := none
  lifecycleLock : Option ℕ := none
  sendLock : Option ℕ := none
  states : ℕ → RequestState := fun _ => { requestId := 0, events := { maxDeltaEvents := 0 } }
  stateCount : ℕ := 0
  responses : ℕ → Option (Option Stats) := fun _ => none
  responseCount : ℕ := 0
  threads : ℕ → Thread := fun _ => {}
  threadCount : ℕ := 0
  connections : ℕ := 0
  stateOrigin : ℕ → ℕ := fun _ => 0
  responseOrigin : ℕ → ℕ := fun _ => 0
  owner : ℕ → ℕ := fun _ => 0
  submitted : ℕ → Bool := fun _ => false
  received : ℕ → Option Terminal := fun _ => none
  withdrawn : ℕ → Bool := fun _ => false
  yielded : ℕ → List Yield := fun _ => []
  sent : List (ℕ × ClientMessage) := []
  dispatched : List ServerMessage := []

inductive Choice where
  | go
  | raised (e : CallError)
  | timedOut
  | message (m : ServerMessage)

namespace GenerationClient

def setPc (s : GenerationClient) (k : ℕ) (pc : Pc) : GenerationClient :=
  { s with threads := update s.threads k { s.threads k with pc := pc } }

def updateState (s : GenerationClient) (n : ℕ) (f : RequestState → RequestState) :
    GenerationClient :=
  { s with states := update s.states n (f (s.states n)) }

def putResponse (s : GenerationClient) (q : ℕ) (answer : Option Stats) : GenerationClient :=
  match s.responses q with
  | none => { s with responses := update s.responses q (some answer) }
  | some _ => s

def isAlive (s : GenerationClient) (k : ℕ) : Bool := !(s.threads k).pc.isFinished

/-! ## Submitting -/

def validateRequestAgainstWorker (request : GenerationRequest) (manifest : Ipc.ModelManifest) :
    Except ClientError Unit :=
  if manifest.maxInputTokens < request.inputTokenIds.length then
    .error (.valueError (utf8 "request input exceeds Worker max_input_tokens"))
  else if (manifest.maxOutputTokens : ℤ) < request.maxNewTokens then
    .error (.valueError (utf8 "request output exceeds Worker max_output_tokens"))
  else if (manifest.maxSequenceTokens : ℤ) < request.inputTokenIds.length + request.maxNewTokens then
    .error (.valueError (utf8 "request exceeds Worker max_sequence_tokens"))
  else .ok ()

def checkSubmit (s : GenerationClient) (c : Connection) (request : GenerationRequest) :
    Except ClientError Unit := do
  validateRequestAgainstWorker request c.helloAck.manifest
  if (s.requests.lookup request.requestId).isSome then
    .error (.generationClientError
      (utf8 "request " ++ Json.intText request.requestId ++ utf8 " is already active"))
  else if min s.config.maxPendingRequests c.helloAck.limits.maxActiveRequests ≤
      s.requests.entries.length then
    .error (.clientCapacity (utf8 "GenerationClient request capacity is full"))
  else .ok ()

def register (s : GenerationClient) (k : ℕ) (c : Connection) (request : GenerationRequest) :
    GenerationClient :=
  { s with
    states := update s.states s.stateCount
      { requestId := request.requestId
        events := { maxDeltaEvents := s.config.maxDeltaEventsPerRequest } }
    stateCount := s.stateCount + 1
    requests := s.requests.insert request.requestId s.stateCount
    stateOrigin := update s.stateOrigin s.stateCount c.serial
    owner := update s.owner s.stateCount k
    threads := update s.threads k
      ⟨.encode (.submit s.stateCount request.requestId)
        (.submit request c.helloAck.workerEpoch), some c.serial⟩ }

def beginSubmit (s : GenerationClient) (k : ℕ) (request : GenerationRequest) : GenerationClient :=
  match s.connection with
  | none => s.setPc k (.finished (.raised notConnected))
  | some c =>
    match s.checkSubmit c request with
    | .error e => s.setPc k (.finished (.raised e))
    | .ok () => s.register k c request

def forget (s : GenerationClient) (k : ℕ) (requestId : ℤ) (e : ClientError) : GenerationClient :=
  { s.setPc k (.finished (.raised e)) with
    requests := s.requests.erase requestId
    withdrawn :=
      match s.requests.lookup requestId with
      | some n => update s.withdrawn n true
      | none => s.withdrawn }

def acceptanceTimeout (requestId : ℤ) : Status :=
  unavailable (utf8 "timed out waiting for request " ++ Json.intText requestId ++
    utf8 " acceptance")

/-- The wait of `submit` for an answer; it wakes when there is one or in the end. -/
def awaitAccepted (s : GenerationClient) (k n : ℕ) (requestId : ℤ) (timedOut : Bool) :
    Option GenerationClient :=
  let state := s.states n
  if state.accepted then some (s.setPc k (.finished (.handle n requestId)))
  else
    match state.rejected, state.failure with
    | some status, _ => some (s.setPc k (.finished (.raised (.requestRejected requestId status))))
    | none, some status =>
      some (s.setPc k (.finished (.raised (.workerUnavailable status.message))))
    | none, none =>
      if timedOut then some (s.setPc k (.fail (.acceptance n requestId) (acceptanceTimeout requestId)))
      else none

/-! ## Cancelling and probing -/

def beginCancel (s : GenerationClient) (k : ℕ) (requestId : ℤ) : GenerationClient :=
  match s.connection with
  | none => s.setPc k (.finished (.raised notConnected))
  | some c =>
    match s.requests.lookup requestId with
    | none => s.setPc k (.finished (.cancelled false))
    | some n =>
      if (s.states n).accepted = false ∨ (s.states n).terminalReceived then
        s.setPc k (.finished (.cancelled false))
      else if (s.states n).cancelSent then s.setPc k (.finished (.cancelled true))
      else
        { s.updateState n (fun r => { r with cancelSent := true }) with
          threads := update s.threads k
            ⟨.encode .cancel (.cancel requestId c.helloAck.workerEpoch), some c.serial⟩ }

def registerProbe (s : GenerationClient) (k : ℕ) (c : Connection) : GenerationClient :=
  { s with
    probes := s.probes.insert s.nextProbeId s.responseCount
    nextProbeId := s.nextProbeId + 1
    responseCount := s.responseCount + 1
    responseOrigin := update s.responseOrigin s.responseCount c.serial
    threads := update s.threads k
      ⟨.encode (.health s.nextProbeId s.responseCount)
        (.health s.nextProbeId c.helloAck.workerEpoch), some c.serial⟩ }

def beginHealth (s : GenerationClient) (k : ℕ) : GenerationClient :=
  match s.connection with
  | none => s.setPc k (.finished (.raised notConnected))
  | some c => s.registerProbe k c

def statsResult : Option Stats → Except ClientError Stats
  | some stats => .ok stats
  | none => .error (.workerUnavailable (utf8 "Worker disconnected during health probe"))

def statsOutcome : Except ClientError Stats → Outcome
  | .ok stats => .stats stats
  | .error e => .raised e

/-! ## Sending -/

def callErrorText : CallError → List UInt8
  | .python (.protocolError text) => text
  | .python (.eofError text) => utf8 text
  | .python (.keyError key) => utf8 ("'" ++ key ++ "'")
  | .python _ => []
  | .osError text | .runtimeError text => text

def errorText : ClientError → List UInt8
  | .generationClientError text | .workerUnavailable text | .clientCapacity text => text
  | .requestRejected requestId status =>
    utf8 "request " ++ Json.intText requestId ++ utf8 " was rejected: " ++ status.code ++
      utf8 ": " ++ status.message
  | .valueError text | .timeoutError text => text
  | .call e => callErrorText e

def readerStatus : ClientError → Status
  | .call (.python (.protocolError text)) => unavailable (utf8 "IPC protocol failure: " ++ text)
  | .call (.python (.eofError text)) => unavailable (utf8 "Worker IPC disconnected: " ++ utf8 text)
  | .call (.osError text) => unavailable (utf8 "Worker IPC disconnected: " ++ text)
  | e => unavailable (utf8 "GenerationClient reader failed: " ++ errorText e)

def onRaise (e : ClientError) : Caller → Pc
  | .submit n requestId => .forget n requestId e
  | .cancel => .finished (.raised e)
  | .health probeId _ => .popProbe probeId (.error e)
  | .reader => .fail .reader (readerStatus e)

def onSent : Caller → Pc
  | .submit n requestId => .waitAccepted n requestId
  | .cancel => .finished (.cancelled true)
  | .health probeId response => .waitStats probeId response
  | .reader => .readLoop

def writeFailure (text : List UInt8) : Status :=
  unavailable (utf8 "Worker IPC write failed: " ++ text)

def noteSent (submitted : ℕ → Bool) : Caller → ℕ → Bool
  | .submit n _ => update submitted n true
  | _ => submitted

def sendStep (s : GenerationClient) (k : ℕ) (caller : Caller) (message : ClientMessage)
    (serial : ℕ) : Choice → Option GenerationClient
  | .go => some { s.setPc k (onSent caller) with
      sendLock := none
      submitted := noteSent s.submitted caller
      sent := s.sent ++ [(serial, message)] }
  | .raised (.osError text) => some (s.setPc k (.fail (.send caller) (writeFailure text)))
  | .raised e => some { s.setPc k (onRaise (.call e) caller) with sendLock := none }
  | _ => none

/-! ## Failing -/

def collect (s : GenerationClient) (k : ℕ) (caller : FailCaller) (status : Status) :
    GenerationClient :=
  let requests := s.requests.entries.map Sigma.snd
  let responses := s.probes.entries.map Sigma.snd
  { s.setPc k (.failRequests caller status requests responses s.readerThread) with
    connection := none
    requests := ∅
    probes := ∅
    states := fun n =>
      if n ∈ requests then { s.states n with failure := some status } else s.states n }

def syntheticTerminal (requestId : ℤ) (status : Status) : Terminal :=
  ⟨requestId.toNat, unavailable status.message, none, {}⟩

def failRequest (s : GenerationClient) (n : ℕ) (status : Status) : GenerationClient :=
  if (s.states n).accepted ∧ (s.states n).terminalReceived = false then
    s.updateState n (fun r =>
      { r with events := (r.events.putTerminal (syntheticTerminal r.requestId status)).1 })
  else s

def joinsReader : FailCaller → Bool
  | .acceptance _ _ | .close => true
  | _ => false

def afterFail (s : GenerationClient) (k : ℕ) (status : Status) : FailCaller → GenerationClient
  | .send caller =>
    { s.setPc k (onRaise (.workerUnavailable status.message) caller) with sendLock := none }
  | .acceptance _ _ => s.setPc k (.finished (.raised (.workerUnavailable status.message)))
  | .close => { s.setPc k (.finished .returned) with lifecycleLock := none }
  | .reader => s.setPc k (.finished .returned)
  | .readerStart e => { s.setPc k (.finished (.raised (.call e))) with lifecycleLock := none }

def failStep (s : GenerationClient) (k : ℕ) : Pc → Option GenerationClient
  | .fail caller status => some (s.collect k caller status)
  | .failRequests caller status [] responses reader =>
    some (s.setPc k (.failProbes caller status responses reader))
  | .failRequests caller status (n :: rest) responses reader =>
    some ((s.failRequest n status).setPc k (.failRequests caller status rest responses reader))
  | .failProbes caller status [] reader =>
    some (s.setPc k (if joinsReader caller then .failJoin caller status reader
      else .failReader caller status reader))
  | .failProbes caller status (q :: rest) reader =>
    some ((s.putResponse q none).setPc k (.failProbes caller status rest reader))
  | .failJoin caller status reader =>
    if reader.all (fun r => r == k || !s.isAlive r) then
      some (s.setPc k (.failReader caller status reader))
    else none
  | .failReader caller status none => some (s.afterFail k status caller)
  | .failReader caller status (some reader) =>
    if s.isAlive reader then some (s.afterFail k status caller)
    else some (s.setPc k (.failForget caller status reader))
  | .failForget caller status reader =>
    some ({ s with
      readerThread := if s.readerThread = some reader then none else s.readerThread }.afterFail k
        status caller)
  | _ => none

/-! ## Receiving -/

inductive Dispatched where
  | done
  | deliver (n : ℕ) (terminal : Terminal)
  | sendCancel (requestId : ℕ) (workerEpoch : ℕ)

def raiseProtocol {α : Type} (text : String) : Except ClientError α :=
  .error (.call (.python (.protocolError (utf8 text))))

def findState (s : GenerationClient) (requestId : ℕ) : Except ClientError ℕ :=
  match s.requests.lookup (requestId : ℤ) with
  | some n => .ok n
  | none => .error (.call (.python (.protocolError
      (utf8 "message references unknown request " ++ Json.decimal requestId))))

def dispatchAccepted (s : GenerationClient) (requestId : ℕ) : Except ClientError GenerationClient :=
  do
    let n ← s.findState requestId
    if (s.states n).accepted ∨ (s.states n).rejected.isSome then
      raiseProtocol "request received duplicate acceptance"
    else .ok (s.updateState n (fun r => { r with accepted := true }))

def dispatchRejected (s : GenerationClient) (requestId : ℕ) (status : Status) :
    Except ClientError GenerationClient := do
  let n ← s.findState requestId
  if (s.states n).accepted then raiseProtocol "Accepted request was later Rejected"
  else
    .ok { s.updateState n (fun r => { r with rejected := some status }) with
      requests := s.requests.erase requestId }

def dispatchDelta (s : GenerationClient) (c : Connection) (d : TokenDelta) :
    Except ClientError (GenerationClient × Dispatched) := do
  let n ← s.findState d.requestId
  match (s.states n).onDelta d with
  | .error e => .error (.call (.python e))
  | .ok (state, cancels) =>
    .ok (s.updateState n (fun _ => state),
      if cancels then .sendCancel d.requestId c.helloAck.workerEpoch else .done)

def dispatchTerminal (s : GenerationClient) (t : Terminal) :
    Except ClientError (GenerationClient × Dispatched) := do
  let n ← s.findState t.requestId
  match (s.states n).checkEvent with
  | .error e => .error (.call (.python e))
  | .ok () =>
    .ok ({ s.updateState n (fun r => { r with terminalReceived := true }) with
      requests := s.requests.erase t.requestId
      received := update s.received n (some t) }, .deliver n t)

def dispatch (s : GenerationClient) (message : ServerMessage) :
    Except ClientError (GenerationClient × Dispatched) :=
  match s.connection with
  | none => .error notConnected
  | some c =>
    match message with
    | .stats m =>
      match s.probes.lookup m.probeId with
      | some q => .ok (s.putResponse q (some m), .done)
      | none => .ok (s, .done)
    | .helloAck _ => raiseProtocol "duplicate HelloAck"
    | .accepted requestId => (·, .done) <$> s.dispatchAccepted requestId
    | .rejected requestId status => (·, .done) <$> s.dispatchRejected requestId status
    | .tokenDelta requestId sequenceNo tokenIds =>
      s.dispatchDelta c ⟨requestId, sequenceNo, tokenIds⟩
    | .terminal t => s.dispatchTerminal t

def onDispatched : Dispatched → Pc
  | .done => .readLoop
  | .deliver n terminal => .deliver n terminal
  | .sendCancel requestId workerEpoch => .encode .reader (.cancel requestId workerEpoch)

def readerDispatch (s : GenerationClient) (k : ℕ) (message : ServerMessage) : GenerationClient :=
  match s.dispatch message with
  | .error e => s.setPc k (.fail .reader (readerStatus e))
  | .ok (s, next) =>
    { s.setPc k (onDispatched next) with dispatched := s.dispatched ++ [message] }

def readerDeliver (s : GenerationClient) (k n : ℕ) (terminal : Terminal) : GenerationClient :=
  if (s.states n).events.terminal.isSome then
    s.setPc k (.fail .reader (unavailable
      (utf8 "IPC protocol failure: request received duplicate Terminal")))
  else
    (s.updateState n (fun r => { r with events := (r.events.putTerminal terminal).1 })).setPc k
      .readLoop

/-! ## Connecting -/

def beginConnect (s : GenerationClient) (k : ℕ) : Option GenerationClient :=
  if s.lifecycleLock.isSome then none
  else if s.connection.isSome ∨ s.readerThread.any s.isAlive then
    some (s.setPc k (.finished (.raised
      (.generationClientError (utf8 "GenerationClient is already connected")))))
  else some { s.setPc k .handshake with lifecycleLock := some k }

def checkHelloAck (s : GenerationClient) : ServerMessage → Except ClientError HelloAck
  | .helloAck ack =>
    if ack.manifest ≠ s.config.expectedManifest then
      raiseProtocol "Worker ModelManifest does not match Gateway"
    else if s.config.maxFramePayloadBytes < ack.limits.maxFramePayloadBytes then
      raiseProtocol "Worker frame limit exceeds GenerationClient capacity"
    else .ok ack
  | _ => raiseProtocol "Worker did not reply with HelloAck"

def raiseConnect (s : GenerationClient) (k : ℕ) (e : ClientError) : GenerationClient :=
  { s.setPc k (.finished (.raised e)) with lifecycleLock := none }

def publish (s : GenerationClient) (k : ℕ) (ack : HelloAck) : GenerationClient :=
  { s with
    connection := some ⟨s.connections + 1, ack⟩
    connections := s.connections + 1
    threads := update s.threads k ⟨.startReader, some (s.connections + 1)⟩ }

/-- The reader is stored before it runs, and a thread that does not run yet is not alive. -/
def createReader (s : GenerationClient) (k : ℕ) : GenerationClient :=
  { s.setPc k (.launchReader s.threadCount) with
    threadCount := s.threadCount + 1
    readerThread := some s.threadCount }

def launchReader (s : GenerationClient) (k reader : ℕ) : GenerationClient :=
  { s with
    threads := update
      (update s.threads k { s.threads k with pc := .finished .returned })
      reader ⟨.readLoop, (s.threads k).connection⟩
    lifecycleLock := none }

def readerStartFailure (e : CallError) : Status :=
  unavailable (utf8 "failed to start reader: " ++ callErrorText e)

/-! ## Steps -/

def stepAt (s : GenerationClient) (k : ℕ) : Pc → Choice → Option GenerationClient
  | .submit request, .go => some (s.beginSubmit k request)
  -- the encoders validate their arguments and raise on what they refuse
  | .encode caller message, .go => some (s.setPc k (.acquire caller message))
  | .encode caller _, .raised e => some (s.setPc k (onRaise (.call e) caller))
  | .acquire caller message, .go =>
    if s.sendLock.isSome then none
    else some { s.setPc k (.capture caller message) with sendLock := some k }
  | .capture caller message, .go =>
    match s.connection with
    | none => some { s.setPc k (onRaise notConnected caller) with sendLock := none }
    | some c => some (s.setPc k (.sending caller message c.serial))
  | .sending caller message serial, choice => s.sendStep k caller message serial choice
  | .forget _ requestId e, .go => some (s.forget k requestId e)
  | .waitAccepted n requestId, .go => s.awaitAccepted k n requestId false
  | .waitAccepted n requestId, .timedOut => s.awaitAccepted k n requestId true
  | .cancel requestId, .go => some (s.beginCancel k requestId)
  | .health, .go => some (s.beginHealth k)
  | .waitStats probeId q, .go =>
    (s.responses q).map fun answer => s.setPc k (.popProbe probeId (statsResult answer))
  | .waitStats probeId _, .timedOut =>
    some (s.setPc k (.popProbe probeId
      (.error (.timeoutError (utf8 "timed out waiting for Worker Stats")))))
  | .popProbe probeId result, .go =>
    some { s.setPc k (.finished (statsOutcome result)) with probes := s.probes.erase probeId }
  | .close, .go =>
    if s.lifecycleLock.isSome then none
    else
      some { s.setPc k (.fail .close (unavailable (utf8 "GenerationClient closed"))) with
        lifecycleLock := some k }
  | .connect, .go => s.beginConnect k
  | .handshake, .message m =>
    match s.checkHelloAck m with
    | .error e => some (s.raiseConnect k e)
    | .ok ack => some (s.publish k ack)
  | .handshake, .raised e => some (s.raiseConnect k (.call e))
  | .startReader, .go => some (s.createReader k)
  | .startReader, .raised e => some (s.setPc k (.fail (.readerStart e) (readerStartFailure e)))
  | .launchReader reader, .go => some (s.launchReader k reader)
  | .launchReader _, .raised e => some (s.setPc k (.fail (.readerStart e) (readerStartFailure e)))
  | .readLoop, .go =>
    match s.connection with
    | none => some (s.setPc k (.finished .returned))
    | some c => some (s.setPc k (.receiving c))
  | .receiving _, .message m => some (s.setPc k (.dispatch m))
  | .receiving _, .raised e => some (s.setPc k (.fail .reader (readerStatus (.call e))))
  | .dispatch m, .go => some (s.readerDispatch k m)
  | .deliver n terminal, .go => some (s.readerDeliver k n terminal)
  | pc, .go => s.failStep k pc
  | _, _ => none

def threadStep (s : GenerationClient) (k : ℕ) (choice : Choice) : Option GenerationClient :=
  s.stepAt k (s.threads k).pc choice

def start (s : GenerationClient) (pc : Pc) : GenerationClient :=
  { s with
    threads := update s.threads s.threadCount ⟨pc, none⟩
    threadCount := s.threadCount + 1 }

def nextEvent (s : GenerationClient) (n : ℕ) : Option GenerationClient :=
  match (s.states n).events.get with
  | none => none
  | some (events, result) =>
    some { s.updateState n (fun r => { r with events := events }) with
      yielded := update s.yielded n (s.yielded n ++ [result]) }

end GenerationClient

inductive ClientAction where
  | submit (request : GenerationRequest)
  | cancel (requestId : ℤ)
  | health
  | close
  | connect
  | thread (k : ℕ) (choice : Choice)
  | nextEvent (n : ℕ)

def GenerationClient.step (s : GenerationClient) : ClientAction → Option GenerationClient
  | .submit request => some (s.start (.submit request))
  | .cancel requestId => some (s.start (.cancel requestId))
  | .health => some (s.start .health)
  | .close => some (s.start .close)
  | .connect => some (s.start .connect)
  | .thread k choice => s.threadStep k choice
  | .nextEvent n => s.nextEvent n

end KimServing.Client

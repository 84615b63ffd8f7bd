import KimServing.Ipc.Decode
import KimServing.Ipc.FrameDecoder
import KimServing.Library.Runs
import Mathlib.Logic.Function.Basic

/-! # The server side of an IPC session

A reader thread takes bytes from the connection, a writer thread sends queued
frames, and any thread may send a message or stop the session. A program counter
stands before the next critical section of the session lock or call into the
connection, and one step runs it. What the connection and the message handler do
is chosen by the environment.
-/
namespace KimServing.Ipc
open Library Incremental

inductive IpcSessionState where
  | created | handshaking | ready | stopping | stopped | failed
  deriving DecidableEq

structure IpcSessionConfig where
  frameCodec : FrameCodecConfig := {}
  maxEgressFrames : ℕ := 1024
  maxEgressBytes : ℕ := 4 * 1024 * 1024
  readBufferBytes : ℕ := 16 * 1024
  deriving DecidableEq

structure PendingFrame where
  bytes : List UInt8
  markReadyAfterWrite : Bool := false
  deriving DecidableEq

/-- Where the reader stands. In a batch it knows whether the batch started while
the session was handshaking, the index of the next payload and the payloads. -/
inductive SessionReaderPc where
  | notStarted
  | read
  | readFailed (status : Status)
  | peerClosed
  | received (payloads : List (List UInt8))
  | next (startedHandshaking : Bool) (index : ℕ) (payloads : List (List UInt8))
  | handshake (m : Message) (startedHandshaking : Bool) (index : ℕ) (rest : List (List UInt8))
  | dispatch (m : Message) (startedHandshaking : Bool) (index : ℕ) (rest : List (List UInt8))
  | handle (m : Message) (startedHandshaking : Bool) (index : ℕ) (rest : List (List UInt8))
  | failing (status : Status)
  | exited

inductive SessionWriterPc where
  | notStarted
  | wait
  | write (frame : PendingFrame)
  | writeFailed (status : Status)
  | markReady
  | failing (status : Status)
  | exited

inductive SessionStopPc where
  | notCalled
  | testReader
  | joinReader
  | testWriter
  | joinWriter
  | finish
  | returned (status : Status)

/-- The session with its threads. The last fields are histories: the bytes that
were read, the Hellos that the handshake has answered, the messages that the
handler got, the messages whose enqueue was ok, and the frames that were written
completely. -/
structure IpcSession where
  config : IpcSessionConfig
  serverHelloAck : HelloAck
  state : IpcSessionState := .created
  stopRequested : Bool := false
  terminalStatus : Status := .success
  egress : List PendingFrame := []
  queuedEgressBytes : ℕ := 0
  reader : SessionReaderPc := .notStarted
  decoder : FrameDecoder := { config := config.frameCodec }
  writer : SessionWriterPc := .notStarted
  readerJoinable : Bool := false
  writerJoinable : Bool := false
  stoppers : ℕ → SessionStopPc := fun _ => .notCalled
  bytes : List UInt8 := []
  greetings : List Hello := []
  handled : List Message := []
  accepted : List Message := []
  written : List (List UInt8) := []

/-- What the connection or the handler answers to a step. -/
inductive SessionChoice where
  | go
  | failed (status : Status)
  | closed
  | bytes (chunk : List UInt8)
  | threw (what : List UInt8)

def isClientInbound : Message → Bool
  | .accepted _ | .rejected _ | .tokenDelta _ | .terminal _ | .stats _ => true
  | _ => false

def isServerInbound : Message → Bool
  | .submit _ | .cancel _ | .health _ => true
  | _ => false

def encodeMessage [JsonLib] (config : FrameCodecConfig) (m : Message) : Except Status (List UInt8) := do
  let payload ← encodePayload m
  encodeFrame payload config

namespace IpcSession

def create (config : IpcSessionConfig) (serverHelloAck : HelloAck) : IpcSession :=
  { config := config, serverHelloAck := serverHelloAck }

def closed : Status := .error .unavailable "IPC session is closed"

section Enqueue
variable [JsonLib]

def validateConfiguration (s : IpcSession) (connectionValid : Bool) : Except Status Unit := do
  if connectionValid = false then
    .error (.error .notReady "IPC session requires an open UDS connection")
  refuseIf (s.config.frameCodec.maxPayloadBytes = 0 ∨ s.config.maxEgressFrames = 0 ∨
      s.config.maxEgressBytes = 0 ∨ s.config.readBufferBytes = 0)
    "IPC session capacity values must be positive"
  refuseIf (s.config.maxEgressBytes < s.config.frameCodec.maxPayloadBytes + 4)
    "IPC egress byte limit must hold one maximum-sized frame"
  refuseIf (s.serverHelloAck.limits.maxFramePayloadBytes ≠ s.config.frameCodec.maxPayloadBytes ∨
      s.serverHelloAck.limits.maxSessionEgressFrames ≠ s.config.maxEgressFrames ∨
      s.serverHelloAck.limits.maxSessionEgressBytes ≠ s.config.maxEgressBytes)
    "server IPC session config must match advertised WorkerLimits"
  let _ ← encodePayload (.helloAck s.serverHelloAck)
  return ()

def start (s : IpcSession) (connectionValid : Bool) : Except Status IpcSession := do
  s.validateConfiguration connectionValid
  if s.state ≠ .created then
    .error (.error .alreadyExists "IPC session has already been started")
  else
    return { s with
      state := .handshaking
      stopRequested := false
      terminalStatus := .success
      reader := .read
      writer := .wait
      readerJoinable := true
      writerJoinable := true }

def enqueueMessage (s : IpcSession) (m : Message) (requireReady markReadyAfterWrite : Bool) :
    Status × IpcSession :=
  match encodeMessage s.config.frameCodec m with
  | .error status => (status, s)
  | .ok bytes =>
    if s.stopRequested ∨ s.state = .failed ∨ s.state = .stopped then (closed, s)
    else if requireReady = true ∧ s.state ≠ .ready then
      (.error .notReady "IPC handshake is not complete", s)
    else if requireReady = false ∧ s.state ≠ .handshaking then
      (.error .notReady "IPC session is not handshaking", s)
    else if s.config.maxEgressFrames ≤ s.egress.length ∨
        s.config.maxEgressBytes - s.queuedEgressBytes < bytes.length then
      (.error .queueFull "IPC session egress queue is full", s)
    else
      (.success, { s with
        queuedEgressBytes := s.queuedEgressBytes + bytes.length
        egress := s.egress ++ [⟨bytes, markReadyAfterWrite⟩]
        accepted := s.accepted ++ [m] })

def send (s : IpcSession) (m : Message) : Status × IpcSession :=
  if isClientInbound m = false then (invalid "message type is not allowed for this IPC role", s)
  else s.enqueueMessage m true false

def handleHandshake (s : IpcSession) (m : Message) : Status × IpcSession :=
  match m with
  | .hello hello =>
    if hello.modelId ≠ s.serverHelloAck.manifest.modelId ∨
        hello.revision ≠ s.serverHelloAck.manifest.revision then
      (invalid "IPC client model manifest identity mismatch", s)
    else
      let (status, s) := s.enqueueMessage (.helloAck s.serverHelloAck) false true
      (status, if status.isOk then { s with greetings := s.greetings ++ [hello] } else s)
  | _ => (invalid "server expected Hello as the first IPC message", s)

end Enqueue

def fail (s : IpcSession) (status : Status) : IpcSession :=
  if s.state = .failed ∨ s.state = .stopped ∨ s.state = .stopping then s
  else
    { s with
      terminalStatus :=
        if status.isOk then .error .internalError "IPC session failed without an error status"
        else status
      state := .failed
      stopRequested := true }

def markReady (s : IpcSession) : IpcSession :=
  if s.state = .handshaking then { s with state := .ready } else s

section Threads
variable [JsonLib] (parse : List UInt8 → Except (List UInt8) Json)

def readerStep (s : IpcSession) (choice : SessionChoice) : Option IpcSession :=
  match s.reader with
  | .notStarted => none
  | .read =>
    match choice with
    | .failed status => if status.isOk then none else some { s with reader := .readFailed status }
    | .closed => some { s with reader := .peerClosed }
    | .bytes chunk =>
      if chunk = [] ∨ s.config.readBufferBytes < chunk.length then none
      else
        let (decoder, result) := s.decoder.feed chunk
        some { s with
          bytes := s.bytes ++ chunk
          decoder := decoder
          reader := if result.isOk then .received result.payloads else .failing result.status }
    | _ => none
  | .readFailed status =>
    some { s with reader := if s.stopRequested then .exited else .failing status }
  | .peerClosed =>
    some { s with
      reader :=
        if s.stopRequested then .exited
        else if s.decoder.hasPartialFrame then
          .failing (invalid "IPC peer disconnected with a partial frame")
        else .failing (.error .unavailable "IPC peer disconnected") }
  | .received payloads =>
    some { s with reader := .next (s.state = .handshaking) 0 payloads }
  | .next _ _ [] => some { s with reader := .read }
  | .next startedHandshaking index (payload :: rest) =>
    if startedHandshaking = true ∧ 0 < index then
      some { s with
        reader := .failing (invalid "IPC peer pipelined a message before handshake completion") }
    else
      match decodePayload parse payload with
      | .error status => some { s with reader := .failing status }
      | .ok m =>
        some { s with
          reader :=
            if s.state = .handshaking then .handshake m startedHandshaking index rest
            else .dispatch m startedHandshaking index rest }
  | .handshake m startedHandshaking index rest =>
    let (status, s) := s.handleHandshake m
    some { s with
      reader :=
        if status.isOk then .next startedHandshaking (index + 1) rest else .failing status }
  | .dispatch m startedHandshaking index rest =>
    some { s with
      reader :=
        if s.state ≠ .ready then
          .failing (.error .notReady "IPC message arrived before handshake completion")
        else if isServerInbound m = false then
          .failing (invalid "message type is not allowed from this IPC peer")
        else .handle m startedHandshaking index rest }
  | .handle m startedHandshaking index rest =>
    match choice with
    | .go =>
      some { s with
        handled := s.handled ++ [m]
        reader := .next startedHandshaking (index + 1) rest }
    | .threw what =>
      some { s with
        handled := s.handled ++ [m]
        reader := .failing ⟨.internalError, utf8 "IPC message handler failed: " ++ what⟩ }
    | _ => none
  | .failing status => some { s.fail status with reader := .exited }
  | .exited => none

def writerStep (s : IpcSession) (choice : SessionChoice) : Option IpcSession :=
  match s.writer with
  | .notStarted => none
  | .wait =>
    if s.stopRequested then some { s with writer := .exited }
    else
      match s.egress with
      | [] => none
      | frame :: rest =>
        some { s with
          egress := rest
          queuedEgressBytes := s.queuedEgressBytes - frame.bytes.length
          writer := .write frame }
  | .write frame =>
    match choice with
    | .go =>
      some { s with
        written := s.written ++ [frame.bytes]
        writer := if frame.markReadyAfterWrite then .markReady else .wait }
    | .failed status => if status.isOk then none else some { s with writer := .writeFailed status }
    | _ => none
  | .writeFailed status =>
    some { s with writer := if s.stopRequested then .exited else .failing status }
  | .markReady => some { s.markReady with writer := .wait }
  | .failing status => some { s.fail status with writer := .exited }
  | .exited => none

end Threads

def setStopper (s : IpcSession) (k : ℕ) (pc : SessionStopPc) : IpcSession :=
  { s with stoppers := Function.update s.stoppers k pc }

def stopStep (s : IpcSession) (k : ℕ) : Option IpcSession :=
  match s.stoppers k with
  | .notCalled =>
    match s.state with
    | .created => some ({ s with state := .stopped }.setStopper k (.returned .success))
    | .stopped => some (s.setStopper k (.returned s.terminalStatus))
    | .failed => some ({ s with stopRequested := true }.setStopper k .testReader)
    | _ => some ({ s with stopRequested := true, state := .stopping }.setStopper k .testReader)
  | .testReader => some (s.setStopper k (if s.readerJoinable then .joinReader else .testWriter))
  | .joinReader =>
    match s.reader with
    | .exited => some ({ s with readerJoinable := false }.setStopper k .testWriter)
    | _ => none
  | .testWriter => some (s.setStopper k (if s.writerJoinable then .joinWriter else .finish))
  | .joinWriter =>
    match s.writer with
    | .exited => some ({ s with writerJoinable := false }.setStopper k .finish)
    | _ => none
  | .finish =>
    some (setStopper { s with
      state := if s.state = .failed then .failed else .stopped
      egress := []
      queuedEgressBytes := 0 } k (.returned s.terminalStatus))
  | .returned _ => none

end IpcSession

inductive SessionAction where
  | start (connectionValid : Bool)
  | reader (choice : SessionChoice)
  | writer (choice : SessionChoice)
  | send (m : Message)
  | stop (k : ℕ)

def IpcSession.step [JsonLib] (parse : List UInt8 → Except (List UInt8) Json) (s : IpcSession) :
    SessionAction → Option IpcSession
  | .start connectionValid =>
    match s.start connectionValid with
    | .error _ => some s
    | .ok s => some s
  | .reader choice => s.readerStep parse choice
  | .writer choice => s.writerStep choice
  | .send m => some (s.send m).2
  | .stop k => s.stopStep k

end KimServing.Ipc

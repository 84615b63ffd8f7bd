import KimServing.Ipc.Encode
import Mathlib.Data.List.AList

/-! # The bounded queues in front of the session writer

Control messages have a partition of their own. Every registered request owns a
queue and one reserved terminal frame, and the writer serves the queues in turn.
Each operation is one critical section of the egress lock; messages are encoded
before it, only to learn the size of their frames.
-/
namespace KimServing.Ipc
open Library

structure SessionEgressConfig where
  maxFramePayloadBytes : ℕ := kDefaultMaxFramePayloadBytes
  maxSessionFrames : ℕ := 1024
  maxSessionBytes : ℕ := 4 * 1024 * 1024
  maxRequestFrames : ℕ := 128
  maxRequestBytes : ℕ := 2 * 1024 * 1024
  controlReserveFrames : ℕ := 16
  controlReserveBytes : ℕ := 64 * 1024
  terminalReserveBytes : ℕ := 2048
  deriving DecidableEq

inductive SessionEgressEnqueueCode where
  | enqueued | stopped | duplicateRequest | unknownRequest | invalidMessage | controlFull
  | requestFull | sessionFull
  deriving DecidableEq

structure SessionEgressEnqueueResult where
  code : SessionEgressEnqueueCode
  status : Status
  deriving DecidableEq

inductive SessionEgressWaitResult where
  | message (m : Message)
  | timeout
  | stopped
  deriving DecidableEq

structure SizedMessage where
  message : Message
  frameBytes : ℕ
  deriving DecidableEq

structure RequestQueue where
  messages : List SizedMessage := []
  queuedBytes : ℕ := 0
  scheduled : Bool := false
  terminalEnqueued : Bool := false
  deriving DecidableEq

structure SessionEgress where
  config : SessionEgressConfig
  control : List SizedMessage := []
  requests : AList (fun _ : ℕ => RequestQueue) := ∅
  roundRobin : List ℕ := []
  controlFrames : ℕ := 0
  controlBytes : ℕ := 0
  requestFrames : ℕ := 0
  requestBytes : ℕ := 0
  terminalReservations : ℕ := 0
  highWatermarkFrames : ℕ := 0
  highWatermarkBytes : ℕ := 0
  accepting : Bool := true

namespace SessionEgressConfig

def requestFrameCapacity (c : SessionEgressConfig) : ℕ :=
  c.maxSessionFrames - c.controlReserveFrames

def requestByteCapacity (c : SessionEgressConfig) : ℕ := c.maxSessionBytes - c.controlReserveBytes

/-- The checks of the constructor, which throws the text of the first that fails. -/
def validateConfiguration (c : SessionEgressConfig) : Except String Unit := do
  if c.maxFramePayloadBytes = 0 ∨ c.maxSessionFrames = 0 ∨ c.maxSessionBytes = 0 ∨
      c.maxRequestFrames = 0 ∨ c.maxRequestBytes = 0 ∨ c.controlReserveFrames = 0 ∨
      c.controlReserveBytes = 0 ∨ c.terminalReserveBytes = 0 then
    .error "SessionEgress capacity values must be positive"
  if c.maxSessionFrames ≤ c.controlReserveFrames ∨ c.maxSessionBytes ≤ c.controlReserveBytes then
    .error "SessionEgress control reserve must leave request capacity"
  if c.requestFrameCapacity < c.maxRequestFrames ∨ c.requestByteCapacity < c.maxRequestBytes then
    .error "SessionEgress request capacity exceeds session data capacity"
  if c.maxRequestBytes < c.terminalReserveBytes then
    .error "SessionEgress Terminal reserve exceeds request capacity"

end SessionEgressConfig

def enqueueFailure (code : SessionEgressEnqueueCode) (status : Status) :
    SessionEgressEnqueueResult := ⟨code, status⟩

def enqueued : SessionEgressEnqueueResult := ⟨.enqueued, .success⟩

def queueFull (message : String) : Status := .error .queueFull message
def unavailable (message : String) : Status := .error .unavailable message

def Message.isTerminal : Message → Bool
  | .terminal _ => true
  | _ => false

section Sizing
variable [JsonLib]

def sizeMessage (m : Message) (maxFramePayloadBytes : ℕ) : Except Status SizedMessage := do
  let payload ← encodePayload m
  let frame ← encodeFrame payload ⟨maxFramePayloadBytes⟩
  return ⟨m, frame.length⟩

end Sizing

namespace SessionEgress

def create (config : SessionEgressConfig) : Except String SessionEgress := do
  config.validateConfiguration
  return { config := config }

def updateHighWatermarks (e : SessionEgress) : SessionEgress :=
  { e with
    highWatermarkFrames := max e.highWatermarkFrames (e.controlFrames + e.requestFrames)
    highWatermarkBytes := max e.highWatermarkBytes (e.controlBytes + e.requestBytes) }

def removeScheduledRequest (e : SessionEgress) (requestId : ℕ) : SessionEgress :=
  { e with roundRobin := e.roundRobin.filter (fun id => id ≠ requestId) }

def registerRequest (e : SessionEgress) (requestId : ℕ) : Status × SessionEgress :=
  if requestId = 0 then (invalid "SessionEgress request id must be positive", e)
  else if e.accepting = false then (unavailable "SessionEgress is stopped", e)
  else if (e.requests.lookup requestId).isSome then
    (.error .alreadyExists "SessionEgress request id is already registered", e)
  else if e.config.requestFrameCapacity < e.requestFrames + e.terminalReservations + 1 ∨
      e.config.requestByteCapacity <
        e.requestBytes + (e.terminalReservations + 1) * e.config.terminalReserveBytes then
    (queueFull "SessionEgress cannot reserve capacity for another Terminal", e)
  else
    (.success, { e with
      requests := e.requests.insert requestId {}
      terminalReservations := e.terminalReservations + 1 })

def abandonRequest (e : SessionEgress) (requestId : ℕ) : Bool × SessionEgress :=
  match e.requests.lookup requestId with
  | none => (false, e)
  | some queue =>
    let e := { e with
      requestFrames := e.requestFrames - queue.messages.length
      requestBytes := e.requestBytes - queue.queuedBytes
      terminalReservations :=
        if queue.terminalEnqueued then e.terminalReservations else e.terminalReservations - 1 }
    (true, { e.removeScheduledRequest requestId with requests := e.requests.erase requestId })

def isControl : Message → Bool
  | .accepted _ | .rejected _ | .stats _ => true
  | _ => false

/-- A sized message joins the queue of its request, which is scheduled if it was idle. -/
def push (e : SessionEgress) (requestId : ℕ) (queue : RequestQueue) (sized : SizedMessage) :
    SessionEgress :=
  updateHighWatermarks { e with
    requests := e.requests.insert requestId { queue with
      messages := queue.messages ++ [sized]
      queuedBytes := queue.queuedBytes + sized.frameBytes
      scheduled := true }
    requestFrames := e.requestFrames + 1
    requestBytes := e.requestBytes + sized.frameBytes
    roundRobin := if queue.scheduled then e.roundRobin else e.roundRobin ++ [requestId] }

section Enqueue
variable [JsonLib]

def enqueueControl (e : SessionEgress) (m : Message) : SessionEgressEnqueueResult × SessionEgress :=
  if isControl m = false then
    (enqueueFailure .invalidMessage
      (invalid "SessionEgress control queue received a non-control message"), e)
  else
    match sizeMessage m e.config.maxFramePayloadBytes with
    | .error status => (enqueueFailure .invalidMessage status, e)
    | .ok sized =>
      if e.accepting = false then
        (enqueueFailure .stopped (unavailable "SessionEgress is stopped"), e)
      else if e.config.controlReserveFrames < e.controlFrames + 1 ∨
          e.config.controlReserveBytes - e.controlBytes < sized.frameBytes then
        (enqueueFailure .controlFull (queueFull "SessionEgress control reserve is full"), e)
      else
        (enqueued, updateHighWatermarks { e with
          controlBytes := e.controlBytes + sized.frameBytes
          controlFrames := e.controlFrames + 1
          control := e.control ++ [sized] })

def enqueueDelta (e : SessionEgress) (requestId : ℕ) (m : Message) :
    SessionEgressEnqueueResult × SessionEgress :=
  match m with
  | .tokenDelta delta =>
    if delta.requestId ≠ requestId then
      (enqueueFailure .invalidMessage (invalid "SessionEgress Delta request id mismatch"), e)
    else
      match sizeMessage m e.config.maxFramePayloadBytes with
      | .error status => (enqueueFailure .invalidMessage status, e)
      | .ok sized =>
        if e.accepting = false then
          (enqueueFailure .stopped (unavailable "SessionEgress is stopped"), e)
        else
          match e.requests.lookup requestId with
          | none =>
            (enqueueFailure .unknownRequest
              (invalid "SessionEgress Delta request is not registered"), e)
          | some queue =>
            if queue.terminalEnqueued then
              (enqueueFailure .invalidMessage
                (invalid "SessionEgress cannot enqueue Delta after Terminal"), e)
            else if e.config.maxRequestFrames < queue.messages.length + 2 ∨
                e.config.maxRequestBytes <
                  sized.frameBytes + queue.queuedBytes + e.config.terminalReserveBytes then
              (enqueueFailure .requestFull (queueFull "per-request SessionEgress queue is full"), e)
            else if e.config.requestFrameCapacity <
                  e.requestFrames + 1 + e.terminalReservations ∨
                e.config.requestByteCapacity < sized.frameBytes + e.requestBytes +
                  e.terminalReservations * e.config.terminalReserveBytes then
              (enqueueFailure .sessionFull (queueFull "SessionEgress request partition is full"), e)
            else (enqueued, e.push requestId queue sized)
  | _ => (enqueueFailure .invalidMessage (invalid "SessionEgress Delta request id mismatch"), e)

def enqueueTerminal (e : SessionEgress) (requestId : ℕ) (m : Message) :
    SessionEgressEnqueueResult × SessionEgress :=
  match m with
  | .terminal terminal =>
    if terminal.requestId ≠ requestId then
      (enqueueFailure .invalidMessage (invalid "SessionEgress Terminal request id mismatch"), e)
    else
      match sizeMessage m e.config.maxFramePayloadBytes with
      | .error status => (enqueueFailure .invalidMessage status, e)
      | .ok sized =>
        if e.accepting = false then
          (enqueueFailure .stopped (unavailable "SessionEgress is stopped"), e)
        else
          match e.requests.lookup requestId with
          | none =>
            (enqueueFailure .unknownRequest
              (invalid "SessionEgress Terminal request is not registered"), e)
          | some queue =>
            if queue.terminalEnqueued then
              (enqueueFailure .invalidMessage
                (invalid "SessionEgress request already has a Terminal"), e)
            else if e.config.terminalReserveBytes < sized.frameBytes then
              (enqueueFailure .invalidMessage
                (invalid "Terminal exceeds its SessionEgress byte reserve"), e)
            else if e.config.maxRequestFrames < queue.messages.length + 1 ∨
                e.config.maxRequestBytes - queue.queuedBytes < sized.frameBytes then
              (enqueueFailure .requestFull
                (queueFull "per-request SessionEgress Terminal reserve is full"), e)
            else
              (enqueued, push { e with terminalReservations := e.terminalReservations - 1 }
                requestId { queue with terminalEnqueued := true } sized)
  | _ => (enqueueFailure .invalidMessage (invalid "SessionEgress Terminal request id mismatch"), e)

end Enqueue

/-- The queue of a request after its oldest message left; a request whose last
message was its terminal is forgotten. -/
def popQueue (e : SessionEgress) (requestId : ℕ) (rest : List ℕ) (queue : RequestQueue)
    (queued : SizedMessage) (messages : List SizedMessage) : SessionEgress :=
  let queue := { queue with
    messages := messages, queuedBytes := queue.queuedBytes - queued.frameBytes }
  let e := { e with
    requestFrames := e.requestFrames - 1
    requestBytes := e.requestBytes - queued.frameBytes }
  if messages ≠ [] then
    { e with requests := e.requests.insert requestId queue, roundRobin := rest ++ [requestId] }
  else if queued.message.isTerminal then
    { e with requests := e.requests.erase requestId, roundRobin := rest }
  else
    { e with
      requests := e.requests.insert requestId { queue with scheduled := false }
      roundRobin := rest }

def popScheduled (e : SessionEgress) : List ℕ → Option (Message × SessionEgress)
  | [] => none
  | requestId :: rest =>
    match e.requests.lookup requestId with
    | none => popScheduled e rest
    | some queue =>
      match queue.messages with
      | [] => popScheduled e rest
      | queued :: messages => some (queued.message, e.popQueue requestId rest queue queued messages)

/-- A wait that finds nothing ends as a timeout. One that blocks and is woken
later behaves as a call made at that later moment. -/
def waitPop (e : SessionEgress) (timeout : ℤ) : SessionEgressWaitResult × SessionEgress :=
  if timeout < 0 then (.timeout, e)
  else
    match e.control with
    | queued :: control =>
      (.message queued.message, { e with
        control := control
        controlFrames := e.controlFrames - 1
        controlBytes := e.controlBytes - queued.frameBytes })
    | [] =>
      match e.popScheduled e.roundRobin with
      | some (m, e') => (.message m, e')
      | none => (if e.accepting then .timeout else .stopped, { e with roundRobin := [] })

def stop (e : SessionEgress) : SessionEgress :=
  if e.accepting = false then e
  else
    { e with
      accepting := false, control := [], requests := ∅, roundRobin := []
      controlFrames := 0, controlBytes := 0, requestFrames := 0, requestBytes := 0
      terminalReservations := 0 }

end SessionEgress

/-! ## What the operations can do -/

section Sizing
variable [JsonLib]

theorem sizeMessage_eq_ok {m : Message} {maxFramePayloadBytes : ℕ} {sized : SizedMessage} :
    sizeMessage m maxFramePayloadBytes = .ok sized ↔
      ∃ payload, encodePayload m = .ok payload ∧ payload ≠ [] ∧
        payload.length ≤ maxFramePayloadBytes ∧ payload.length ≤ 2 ^ 32 - 1 ∧
        sized = ⟨m, payload.length + 4⟩ := by
  unfold sizeMessage
  cases hp : encodePayload m with
  | error => simp [bind, Except.bind]
  | ok payload =>
    simp only [bind, Except.bind, Except.ok.injEq, exists_eq_left']
    cases hf : encodeFrame payload ⟨maxFramePayloadBytes⟩ with
    | error =>
      refine ⟨by simp, ?_⟩
      rintro ⟨hempty, hmax, hwidth, -⟩
      have := encodeFrame_eq_ok.mpr ⟨hempty, hmax, hwidth, rfl⟩
      simp [hf] at this
    | ok =>
      obtain ⟨hempty, hmax, hwidth, rfl⟩ := encodeFrame_eq_ok.mp hf
      have hlength : (lengthPrefix payload.length ++ payload).length = payload.length + 4 := by
        simp only [lengthPrefix, List.length_append, List.length_cons, List.length_nil]
        omega
      simp only [pure, Except.pure, Except.ok.injEq, hlength]
      exact ⟨fun h => ⟨hempty, hmax, hwidth, h.symm⟩, fun h => h.2.2.2.symm⟩

theorem sizeMessage_message {m : Message} {maxFramePayloadBytes : ℕ} {sized : SizedMessage}
    (h : sizeMessage m maxFramePayloadBytes = .ok sized) : sized.message = m := by
  obtain ⟨payload, -, -, -, -, rfl⟩ := sizeMessage_eq_ok.mp h
  rfl

end Sizing

namespace SessionEgress

theorem registerRequest_cases (e : SessionEgress) (requestId : ℕ) :
    ((e.registerRequest requestId).1.isOk = false ∧ (e.registerRequest requestId).2 = e) ∨
    (requestId ≠ 0 ∧ e.accepting = true ∧ e.requests.lookup requestId = none ∧
      e.requestFrames + e.terminalReservations + 1 ≤ e.config.requestFrameCapacity ∧
      e.requestBytes + (e.terminalReservations + 1) * e.config.terminalReserveBytes ≤
        e.config.requestByteCapacity ∧
      e.registerRequest requestId = (.success, { e with
        requests := e.requests.insert requestId {}
        terminalReservations := e.terminalReservations + 1 })) := by
  unfold registerRequest
  split_ifs with hzero haccepting hknown hfull
  · exact Or.inl ⟨rfl, rfl⟩
  · exact Or.inl ⟨rfl, rfl⟩
  · exact Or.inl ⟨rfl, rfl⟩
  · exact Or.inl ⟨rfl, rfl⟩
  · refine Or.inr ⟨hzero, by simpa using haccepting, by simpa using hknown, ?_, ?_, rfl⟩ <;> omega

section Enqueue
variable [JsonLib]

theorem enqueueControl_cases (e : SessionEgress) (m : Message) :
    (∃ r, r.code ≠ .enqueued ∧ e.enqueueControl m = (r, e)) ∨
    (∃ sized, isControl m = true ∧ sizeMessage m e.config.maxFramePayloadBytes = .ok sized ∧
      e.accepting = true ∧ e.controlFrames + 1 ≤ e.config.controlReserveFrames ∧
      sized.frameBytes ≤ e.config.controlReserveBytes - e.controlBytes ∧
      e.enqueueControl m = (enqueued, updateHighWatermarks { e with
        controlBytes := e.controlBytes + sized.frameBytes
        controlFrames := e.controlFrames + 1
        control := e.control ++ [sized] })) := by
  unfold enqueueControl
  by_cases hcontrol : isControl m = false
  · rw [if_pos hcontrol]
    exact Or.inl ⟨_, by simp [enqueueFailure], rfl⟩
  rw [if_neg hcontrol]
  cases hs : sizeMessage m e.config.maxFramePayloadBytes with
  | error => exact Or.inl ⟨_, by simp [enqueueFailure], rfl⟩
  | ok sized =>
    dsimp only
    split_ifs with haccepting hfull
    · exact Or.inl ⟨_, by simp [enqueueFailure], rfl⟩
    · exact Or.inl ⟨_, by simp [enqueueFailure], rfl⟩
    · refine Or.inr ⟨sized, by simpa using hcontrol, rfl, by simpa using haccepting, ?_, ?_, rfl⟩ <;>
        omega

theorem enqueueDelta_cases (e : SessionEgress) (requestId : ℕ) (m : Message) :
    (∃ r, r.code ≠ .enqueued ∧ e.enqueueDelta requestId m = (r, e)) ∨
    (∃ delta sized queue, m = .tokenDelta delta ∧ delta.requestId = requestId ∧
      sizeMessage m e.config.maxFramePayloadBytes = .ok sized ∧ e.accepting = true ∧
      e.requests.lookup requestId = some queue ∧ queue.terminalEnqueued = false ∧
      queue.messages.length + 2 ≤ e.config.maxRequestFrames ∧
      sized.frameBytes + queue.queuedBytes + e.config.terminalReserveBytes ≤
        e.config.maxRequestBytes ∧
      e.requestFrames + 1 + e.terminalReservations ≤ e.config.requestFrameCapacity ∧
      sized.frameBytes + e.requestBytes + e.terminalReservations * e.config.terminalReserveBytes ≤
        e.config.requestByteCapacity ∧
      e.enqueueDelta requestId m = (enqueued, e.push requestId queue sized)) := by
  cases m with
  | tokenDelta delta =>
    simp only [enqueueDelta]
    by_cases hid : delta.requestId = requestId
    · rw [if_neg (by simpa using hid)]
      cases hs : sizeMessage (.tokenDelta delta) e.config.maxFramePayloadBytes with
      | error => exact Or.inl ⟨_, by simp [enqueueFailure], rfl⟩
      | ok sized =>
        dsimp only
        by_cases haccepting : e.accepting = false
        · rw [if_pos haccepting]
          exact Or.inl ⟨_, by simp [enqueueFailure], rfl⟩
        rw [if_neg haccepting]
        cases hq : e.requests.lookup requestId with
        | none => exact Or.inl ⟨_, by simp [enqueueFailure], rfl⟩
        | some queue =>
          dsimp only
          split_ifs with hterminal hfull hsession
          · exact Or.inl ⟨_, by simp [enqueueFailure], rfl⟩
          · exact Or.inl ⟨_, by simp [enqueueFailure], rfl⟩
          · exact Or.inl ⟨_, by simp [enqueueFailure], rfl⟩
          · refine Or.inr ⟨delta, sized, queue, rfl, hid, rfl, by simpa using haccepting, rfl,
              by simpa using hterminal, ?_, ?_, ?_, ?_, rfl⟩ <;> omega
    · rw [if_pos hid]
      exact Or.inl ⟨_, by simp [enqueueFailure], rfl⟩
  | _ => exact Or.inl ⟨_, by simp [enqueueFailure], rfl⟩

theorem enqueueTerminal_cases (e : SessionEgress) (requestId : ℕ) (m : Message) :
    (∃ r, r.code ≠ .enqueued ∧ e.enqueueTerminal requestId m = (r, e)) ∨
    (∃ terminal sized queue, m = .terminal terminal ∧ terminal.requestId = requestId ∧
      sizeMessage m e.config.maxFramePayloadBytes = .ok sized ∧ e.accepting = true ∧
      e.requests.lookup requestId = some queue ∧ queue.terminalEnqueued = false ∧
      sized.frameBytes ≤ e.config.terminalReserveBytes ∧
      queue.messages.length + 1 ≤ e.config.maxRequestFrames ∧
      sized.frameBytes ≤ e.config.maxRequestBytes - queue.queuedBytes ∧
      e.enqueueTerminal requestId m =
        (enqueued, push { e with terminalReservations := e.terminalReservations - 1 }
          requestId { queue with terminalEnqueued := true } sized)) := by
  cases m with
  | terminal terminal =>
    simp only [enqueueTerminal]
    by_cases hid : terminal.requestId = requestId
    · rw [if_neg (by simpa using hid)]
      cases hs : sizeMessage (.terminal terminal) e.config.maxFramePayloadBytes with
      | error => exact Or.inl ⟨_, by simp [enqueueFailure], rfl⟩
      | ok sized =>
        dsimp only
        by_cases haccepting : e.accepting = false
        · rw [if_pos haccepting]
          exact Or.inl ⟨_, by simp [enqueueFailure], rfl⟩
        rw [if_neg haccepting]
        cases hq : e.requests.lookup requestId with
        | none => exact Or.inl ⟨_, by simp [enqueueFailure], rfl⟩
        | some queue =>
          dsimp only
          split_ifs with hterminal hreserve hfull
          · exact Or.inl ⟨_, by simp [enqueueFailure], rfl⟩
          · exact Or.inl ⟨_, by simp [enqueueFailure], rfl⟩
          · exact Or.inl ⟨_, by simp [enqueueFailure], rfl⟩
          · refine Or.inr ⟨terminal, sized, queue, rfl, hid, rfl, by simpa using haccepting, rfl,
              by simpa using hterminal, ?_, ?_, ?_, rfl⟩ <;> omega
    · rw [if_pos hid]
      exact Or.inl ⟨_, by simp [enqueueFailure], rfl⟩
  | _ => exact Or.inl ⟨_, by simp [enqueueFailure], rfl⟩

end Enqueue

end SessionEgress

inductive EgressOp where
  | registerRequest (requestId : ℕ)
  | abandonRequest (requestId : ℕ)
  | enqueueControl (m : Message)
  | enqueueDelta (requestId : ℕ) (m : Message)
  | enqueueTerminal (requestId : ℕ) (m : Message)
  | waitPop (timeout : ℤ)
  | stop
  deriving DecidableEq

def SessionEgress.step [JsonLib] (e : SessionEgress) : EgressOp → Option SessionEgress
  | .registerRequest requestId => some (e.registerRequest requestId).2
  | .abandonRequest requestId => some (e.abandonRequest requestId).2
  | .enqueueControl m => some (e.enqueueControl m).2
  | .enqueueDelta requestId m => some (e.enqueueDelta requestId m).2
  | .enqueueTerminal requestId m => some (e.enqueueTerminal requestId m).2
  | .waitPop timeout => some (e.waitPop timeout).2
  | .stop => some e.stop

end KimServing.Ipc

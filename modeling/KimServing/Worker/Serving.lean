import KimServing.Backend.TrtLlmExecutorBackend
import KimServing.Runtime.GenerationRuntime
import KimServing.Worker.ThreadFrames

/-! # The books that know request ids

A Submit is entered into four books, and each of them refuses an id that it knows: the
admission, the id tables of the backend, the registrations of the egress and the map of
the bridge. The call of the runtime that the bridge makes is cut here at the locks of
the first two. At the end of a request they are cleaned up one after the other. The
mailbox takes the terminal event, which the pump can see from then on; the lease is
released; `finalize` returns; the tables are cleaned up.
-/
namespace KimServing
open Library Function

/-! ## The tables of the backend -/

/-- The two id tables. A request state goes by the index of its Submit. -/
structure RequestTables where
  requests : AList (fun _ : ℕ => ℕ) := ∅
  externalToExecutor : AList (fun _ : ℕ => ℕ) := ∅

inductive TableResult where
  | entered | duplicateId | duplicateExecutorId
  deriving DecidableEq

def TableResult.status (externalId : ℕ) : TableResult → Status
  | .entered => .success
  | .duplicateId => ⟨.invalidInput, utf8 ("duplicate request id: " ++ toString externalId)⟩
  | .duplicateExecutorId => .error .tensorRTError ("failed to enqueue request: " ++
      "TensorRT-LLM returned a duplicate executor request id")

namespace RequestTables

/-- The critical section of `enqueueRequest`, when the executor has given this id. -/
def enqueue (t : RequestTables) (externalId executorId n : ℕ) : TableResult × RequestTables :=
  if (t.externalToExecutor.lookup externalId).isSome then (.duplicateId, t)
  else if (t.requests.lookup executorId).isSome then
    (.duplicateExecutorId,
      ⟨t.requests.erase executorId, t.externalToExecutor.erase externalId⟩)
  else
    (.entered,
      ⟨t.requests.insert executorId n, t.externalToExecutor.insert externalId executorId⟩)

def erase (t : RequestTables) (request : RequestState) (n : ℕ) : RequestTables :=
  if t.requests.lookup request.executorId = some n then
    ⟨t.requests.erase request.executorId, t.externalToExecutor.erase request.externalId⟩
  else t

end RequestTables

namespace Backend

def tables (s : Backend) : RequestTables := ⟨s.requests, s.externalToExecutor⟩

theorem enqueueRequest_tables {s : Backend} (hrunning : s.state = .running)
    (hexecutor : s.executor = true) (request : GenerationRequest)
    (mailbox : GenerationMailboxConfig) (executorId : ℕ) :
    (s.enqueueRequest request mailbox none executorId).1 =
        (s.tables.enqueue request.context.requestId executorId s.count).1.status
          request.context.requestId ∧
      (s.enqueueRequest request mailbox none executorId).2.tables =
        (s.tables.enqueue request.context.requestId executorId s.count).2 := by
  have hready : ¬(s.state ≠ .running ∨ s.executor = false) := by simp [hrunning, hexecutor]
  unfold enqueueRequest RequestTables.enqueue
  dsimp only
  rw [if_neg hready]
  by_cases hid : (s.tables.externalToExecutor.lookup request.context.requestId).isSome = true
  · rw [if_pos hid, if_pos (by exact hid)]
    exact ⟨rfl, rfl⟩
  · rw [if_neg hid, if_neg (by exact hid)]
    by_cases hexecutorId : (s.tables.requests.lookup executorId).isSome = true
    · rw [if_pos hexecutorId, if_pos (by exact hexecutorId)]
      exact ⟨rfl, rfl⟩
    · rw [if_neg hexecutorId, if_neg (by exact hexecutorId)]
      exact ⟨rfl, rfl⟩

theorem eraseRequest_tables (s : Backend) (n : ℕ) :
    (s.eraseRequest n).tables = s.tables.erase (s.objects n).state n := by
  unfold eraseRequest RequestTables.erase
  by_cases hself : s.tables.requests.lookup (s.objects n).state.executorId = some n
  · rw [if_pos hself, if_pos (by exact hself)]
    rfl
  · rw [if_neg hself, if_neg (by exact hself)]

end Backend

/-! ## The bridge with the books under it -/

inductive Layer where
  | admission | backend | egress | bridge
  deriving DecidableEq

/-- The leases are kept by Submit, and `acquired` says that the Submit which the handler
has handed in holds one. The last two fields are histories: for which requests
`finalizeRequest` has come to its end, and which Submits were refused as duplicates. -/
structure Serving where
  bridge : Bridge
  admission : AdmissionState
  tables : RequestTables := {}
  acquired : Bool := false
  leases : ℕ → Option AdmissionRequest := fun _ => none
  finalized : ℕ → Bool := fun _ => false
  duplicates : List (ℕ × Layer) := []

/-- The moves of a call of `GenerationRuntime::submit`. It can fail before it asks for a
lease, and between that and the tables. -/
inductive SubmitMove where
  | refuse (status : Status)
  | acquire
  | drop (status : Status)
  | enqueue (executorId promptTokens : ℕ) (mailbox : GenerationMailboxConfig)

inductive ServingAction where
  | bridge (a : BridgeAction)
  | submit (move : SubmitMove)
  | release (n : ℕ)
  | erase (n : ℕ)

namespace Serving

def initial (c : RuntimeBridgeConfig) (e : Ipc.SessionEgress) (admission : AdmissionConfig) :
    Serving :=
  { bridge := .initial c e, admission := { config := admission, accepting := true } }

def note (s : Serving) (n : ℕ) (layer : Layer) : Serving :=
  { s with duplicates := s.duplicates ++ [(n, layer)] }

def giveBack (s : Serving) (n : ℕ) : Serving :=
  match s.leases n with
  | none => s
  | some lease =>
    { s with
      admission := s.admission.release lease
      leases := update s.leases n none }

/-- A step that has to wait. Request ids are machine words, the runtime answers a Submit
in several steps, and `finalize` returns after the release of the lease. -/
def waits (s : Serving) : BridgeAction → Bool
  | .receive (.submit m) => decide (2 ^ 64 ≤ m.requestId)
  | .handler _ =>
    match s.bridge.handler with
    | .submit _ _ => true
    | _ => false
  | .backend n .finish => decide ((s.bridge.gates n).holder = some .terminal) && (s.leases n).isSome
  | _ => false

def found (s : Serving) : BridgeAction → List (ℕ × Layer)
  | .handler _ =>
    match s.bridge.handler with
    | .register n =>
      if (s.bridge.egress.registerRequest (s.bridge.records n).requestId).1.code = .alreadyExists then
        [(n, .egress)]
      else []
    | .emplace n =>
      if (s.bridge.findRequest (s.bridge.records n).requestId).isSome then [(n, .bridge)] else []
    | _ => []
  | _ => []

/-- The commit of the terminal event holds the request lock while it releases the lease. -/
def release (s : Serving) (n : ℕ) : Option Serving :=
  if (s.bridge.gates n).holder = some .terminal then some (s.giveBack n) else none

/-- The last step of a `finalizeRequest` that found the terminal event committed. -/
def erase (s : Serving) (n : ℕ) : Option Serving :=
  if s.bridge.accepted n = true ∧ (s.bridge.gates n).state.phase = .terminal then
    some { s with
      tables := s.tables.erase (s.bridge.gates n).state n
      finalized := update s.finalized n true }
  else none

section Steps
variable [JsonLib]

def bridgeStep (s : Serving) (a : BridgeAction) : Option Serving :=
  if s.waits a then none
  else
    (s.bridge.step a).map (fun b =>
      { s with bridge := b, duplicates := s.duplicates ++ s.found a })

def answer (s : Serving) (submission : Submission) : Option Serving :=
  (s.bridge.step (.handler { submission := submission })).map
    (fun b => { s with bridge := b, acquired := false })

def acquire (s : Serving) (n : ℕ) (lease : AdmissionRequest) : Option Serving :=
  let (code, admission) := s.admission.tryAcquire lease
  match code with
  | .admitted =>
    some { s with
      admission := admission
      acquired := true
      leases := update s.leases n (some lease) }
  | .duplicateRequestId => (s.note n .admission).answer (.refused (admissionFailure code))
  | _ => s.answer (.refused (admissionFailure code))

def enqueue (s : Serving) (n externalId executorId promptTokens : ℕ)
    (mailbox : GenerationMailboxConfig) : Option Serving :=
  let (result, tables) := s.tables.enqueue externalId executorId n
  match result with
  | .entered => { s with tables := tables }.answer (.accepted executorId promptTokens mailbox)
  | .duplicateId => ((s.giveBack n).note n .backend).answer (.refused (result.status externalId))
  | .duplicateExecutorId =>
    { s.giveBack n with tables := tables }.answer (.refused (result.status externalId))

def submitStep (s : Serving) (move : SubmitMove) : Option Serving :=
  match s.bridge.handler with
  | .submit n request =>
    match move, s.acquired with
    | .refuse status, false => s.answer (.refused status)
    | .acquire, false => s.acquire n request.toAdmission
    | .drop status, true => (s.giveBack n).answer (.refused status)
    | .enqueue executorId promptTokens mailbox, true =>
      s.enqueue n request.context.requestId executorId promptTokens mailbox
    | _, _ => none
  | _ => none

def step (s : Serving) : ServingAction → Option Serving
  | .bridge a => s.bridgeStep a
  | .submit move => s.submitStep move
  | .release n => s.release n
  | .erase n => s.erase n

end Steps

end Serving

end KimServing

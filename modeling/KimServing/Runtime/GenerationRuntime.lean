import KimServing.Library.Runs
import KimServing.Runtime.AdmissionLease
import KimServing.Runtime.GenerationMailbox
import KimServing.Runtime.GenerationRequest
import KimServing.Runtime.SloAdmissionPolicy

/-! # The generation runtime

Calls of the runtime run in any number of threads. `start` and `stop` hold the
lifecycle lock alone, `submit` and `cancel` share it. A program counter stands before
the next critical section or call into the backend, and one step runs it. The backend
answers as it likes, keeps copies of the mailboxes that it is given and commits
terminals to them at any time; consumers pop, copy and drop theirs.
-/
namespace KimServing
open Library

inductive RuntimeState where
  | stopped | running | failed
  deriving DecidableEq

inductive RuntimeOp where
  | start
  | submit (request : GenerationRequest)
  | cancel (requestId : ℕ)
  | stop

/-- Where a call stands. An evaluated snapshot is kept until the reservation. -/
inductive CallPc where
  | idle
  | startLock
  | startBackend
  | startOpen
  | startCleanup
  | submitValidate (request : GenerationRequest)
  | submitLock (request : GenerationRequest)
  | submitEvaluate (request : GenerationRequest)
  | submitAcquire (request : GenerationRequest) (evaluated : AdmissionSnapshot)
  | submitMailbox (request : GenerationRequest)
  | submitBackend (request : GenerationRequest)
  | submitDrop (status : Status)
  | cancelLock (requestId : ℕ)
  | cancelBackend (requestId : ℕ)
  | stopLock
  | stopClose
  | stopBackend
  | stopSnapshot
  | unlockShared (status : Status)
  | unlockExclusive (status : Status)
  | returned (status : Status)
  deriving DecidableEq

def RuntimeOp.entry : RuntimeOp → CallPc
  | .start => .startLock
  | .submit request => .submitValidate request
  | .cancel requestId => if requestId = 0 then .returned .success else .cancelLock requestId
  | .stop => .stopLock

/-- A mailbox object with its references: that of the call which creates it, those
that the backend keeps and those of consumers. A backend thread that has committed
the terminal gives the lease back in a later step. -/
structure MailboxObject where
  mailbox : GenerationMailbox
  callRef : Bool := true
  backendRefs : ℕ := 0
  consumerRefs : ℕ := 0
  releasing : Bool := false
  destroyed : Bool := false
  deriving DecidableEq

def MailboxObject.referenced (b : MailboxObject) : Bool :=
  b.callRef || decide (0 < b.backendRefs) || decide (0 < b.consumerRefs)

inductive ReleaseCause where
  | terminal
  | destroyed
  | noMailbox
  deriving DecidableEq

/-- A call with what it has created: the lease, first in the decision and then in the
mailbox, and the mailbox. The other fields are histories: which call it is, whether the
lease was ever valid, how often and why it was given back, whether the submission was
accepted, and the running period in which the call passed its checks. -/
structure Call where
  pc : CallPc := .idle
  op : Option RuntimeOp := none
  lease : AdmissionLease := {}
  box : Option MailboxObject := none
  admitted : Bool := false
  releases : ℕ := 0
  releasedBy : Option ReleaseCause := none
  accepted : Bool := false
  checkedIn : Option ℕ := none
  evaluatedIn : Option ℕ := none
  acquiredIn : Option ℕ := none
  handedIn : Option ℕ := none
  answeredIn : Option ℕ := none

/-- The runtime with its calls. A period is counted whenever the state becomes running. -/
structure GenerationRuntime (K : Type) where
  mailboxConfig : GenerationMailboxConfig
  admission : AdmissionState
  sloPolicy : Option (SloAdmissionPolicy K) := none
  state : RuntimeState := .stopped
  writer : Option ℕ := none
  readers : Finset ℕ := ∅
  calls : ℕ → Call := fun _ => {}
  period : ℕ := 0

/-- What the clock, the allocator or the backend answers to a step. -/
inductive CallChoice where
  | go
  | expired
  | failed (status : Status)
  | threw (what : List UInt8)
  | threwUnknown

/-- The text of a prediction in a status. -/
class TtftText (K : Type) where
  text : K → List UInt8

/-- A whole number of milliseconds, with the six decimals of `std::to_string`. -/
instance : TtftText ℕ := ⟨fun ms => utf8 (toString ms ++ ".000000")⟩

def validateRequestForAdmission (request : GenerationRequest) (expired : Bool) : Status :=
  if request.context.requestId = 0 then
    .error .invalidInput "request id must be greater than zero"
  else if request.inputTokenIds = [] then .error .invalidInput "input tokens must not be empty"
  else if request.maxNewTokens = 0 then
    .error .invalidInput "max_new_tokens must be greater than zero"
  else if request.context.hasDeadline = true ∧ expired = true then
    .error .timeout "request deadline has expired"
  else .success

def admissionFailure : AdmissionCode → Status
  | .invalidRequest => .error .invalidInput "invalid Admission request"
  | .notAccepting => .error .notReady "Generation Runtime is not accepting requests"
  | .duplicateRequestId => .error .alreadyExists "request id is already active"
  | .activeRequestLimit => .error .resourceExhausted "active request capacity is exhausted"
  | .inputTokenLimit => .error .resourceExhausted "input token capacity is exhausted"
  | .outputTokenLimit => .error .resourceExhausted "reserved output token capacity is exhausted"
  | .admitted => .error .internalError "admitted request did not contain a valid lease"

def sloPolicyFailure {K : Type} [TtftText K] (predictedTtftP95Ms : K) : Status :=
  ⟨.sloPredictedMiss,
    utf8 "SLO policy predicted TTFT P95 " ++ TtftText.text predictedTtftP95Ms ++ utf8 " ms"⟩

def hasOutstandingResources (snapshot : AdmissionSnapshot) : Bool :=
  decide (snapshot.activeRequests ≠ 0) || decide (snapshot.reservedInputTokens ≠ 0) ||
    decide (snapshot.reservedOutputTokens ≠ 0)

def GenerationRequest.toAdmission (request : GenerationRequest) : AdmissionRequest where
  requestId := .ofNat request.context.requestId
  inputTokens := .ofNat request.inputTokenIds.length
  reservedOutputTokens := .ofNat request.maxNewTokens

def threwStatus (intro : String) (what : List UInt8) : Status := ⟨.internalError, utf8 intro ++ what⟩

namespace GenerationRuntime
variable {K : Type}

/-- The constructor, which throws on an empty capacity or a policy that its own
constructor refuses. -/
def create [Zero K] [LE K] [LT K] [DecidableLE K] [DecidableLT K]
    (admission : AdmissionConfig) (mailbox : GenerationMailboxConfig)
    (sloPolicy : Option (SloAdmissionPolicyConfig K)) : Except String (GenerationRuntime K) := do
  let admission ← AdmissionState.create admission
  if mailbox.maxQueuedDeltas = 0 ∨ mailbox.maxQueuedTokens = 0 then
    .error "GenerationRuntime Mailbox capacity must be positive"
  else
    match sloPolicy with
    | none => return { mailboxConfig := mailbox, admission := admission }
    | some config =>
      let policy ← SloAdmissionPolicy.create config
      return { mailboxConfig := mailbox, admission := admission, sloPolicy := some policy }

def setCall (s : GenerationRuntime K) (k : ℕ) (c : Call) : GenerationRuntime K :=
  { s with calls := Function.update s.calls k c }

def setPc (s : GenerationRuntime K) (k : ℕ) (pc : CallPc) : GenerationRuntime K :=
  s.setCall k { s.calls k with pc := pc }

def stamp (s : GenerationRuntime K) : Option ℕ := if s.state = .running then some s.period else none

def giveBack (s : GenerationRuntime K) (k : ℕ) (c : Call) (cause : ReleaseCause) :
    GenerationRuntime K :=
  if c.lease.valid then
    setCall { s with admission := s.admission.release c.lease.request } k
      { c with lease := {}, releases := c.releases + 1, releasedBy := some cause }
  else s.setCall k c

def begin (s : GenerationRuntime K) (k : ℕ) (op : RuntimeOp) : Option (GenerationRuntime K) :=
  match (s.calls k).pc with
  | .idle =>
    some (s.setCall k { s.calls k with
      pc := op.entry
      op := some op })
  | _ => none

def notRunning : Status := .error .notReady "GenerationRuntime is not running"

def startStep (s : GenerationRuntime K) (k : ℕ) (choice : CallChoice) :
    Option (GenerationRuntime K) :=
  match (s.calls k).pc with
  | .startLock =>
    if s.writer = none ∧ s.readers = ∅ then
      let s := { s with writer := some k }
      match s.state with
      | .running => some (s.setPc k (.unlockExclusive .success))
      | .failed =>
        some (s.setPc k (.unlockExclusive
          (.error .notReady "failed GenerationRuntime must be stopped before restart")))
      | .stopped => some (s.setPc k .startBackend)
    else none
  | .startBackend =>
    match choice with
    | .go => some (s.setPc k .startOpen)
    | .failed status =>
      if status.isOk then none else some (s.setPc k (.unlockExclusive status))
    | .threw what =>
      some (s.setPc k (.unlockExclusive (threwStatus "Backend start threw an exception: " what)))
    | .threwUnknown =>
      some (s.setPc k (.unlockExclusive
        (.error .internalError "Backend start threw an unknown exception")))
    | .expired => none
  | .startOpen =>
    match s.admission.open with
    | (true, admission) =>
      some ({ s with admission := admission, state := .running, period := s.period + 1 }.setPc k
        (.unlockExclusive .success))
    | (false, admission) => some ({ s with admission := admission }.setPc k .startCleanup)
  | .startCleanup =>
    some ({ s with state := .failed }.setPc k (.unlockExclusive
      (.error .internalError "Admission could not open after Backend start")))
  | _ => none

section Submit
variable [Zero K] [Add K] [LE K] [DecidableLE K] [TtftText K]

/-- A step of `submit`. The locals of a call that fails are destroyed before it gives
up the lock. -/
def submitStep (s : GenerationRuntime K) (k : ℕ) (choice : CallChoice) :
    Option (GenerationRuntime K) :=
  match (s.calls k).pc with
  | .submitValidate request =>
    let status := validateRequestForAdmission request (match choice with
      | .expired => true
      | _ => false)
    some (s.setPc k (if status.isOk then .submitLock request else .returned status))
  | .submitLock request =>
    if s.writer = none then
      some (setCall { s with readers := insert k s.readers } k { s.calls k with
        pc := if s.state = .running then .submitEvaluate request else .unlockShared notRunning
        checkedIn := s.stamp })
    else none
  | .submitEvaluate request =>
    let snapshot := s.admission.snapshot
    let c := { s.calls k with evaluatedIn := s.stamp }
    match s.sloPolicy with
    | none => some (s.setCall k { c with pc := .submitAcquire request snapshot })
    | some policy =>
      let decision := policy.evaluate (.ofNat request.inputTokenIds.length) snapshot
      some (s.setCall k { c with
        pc := if decision.admitted then .submitAcquire request snapshot
          else .unlockShared (sloPolicyFailure decision.predictedTtftP95Ms) })
  | .submitAcquire request _ =>
    let (code, admission) := s.admission.tryAcquire request.toAdmission
    let c := { s.calls k with acquiredIn := s.stamp }
    some (setCall { s with admission := admission } k (
      if code = .admitted then
        { c with
          pc := .submitMailbox request
          lease := ⟨true, request.toAdmission, false⟩
          admitted := true }
      else { c with pc := .unlockShared (admissionFailure code) }))
  | .submitMailbox request =>
    match choice with
    | .go =>
      match GenerationMailbox.create s.mailboxConfig with
      | .ok mailbox =>
        some (s.setCall k { s.calls k with
          pc := .submitBackend request
          box := some { mailbox := mailbox }
          handedIn := s.stamp })
      | .error what =>
        some (s.setPc k (.submitDrop (threwStatus "failed to create Mailbox: " (utf8 what))))
    | .threw what => some (s.setPc k (.submitDrop (threwStatus "failed to create Mailbox: " what)))
    | .threwUnknown => some (s.setPc k (.submitDrop (.error .internalError "failed to create Mailbox")))
    | _ => none
  | .submitBackend _ =>
    match choice, (s.calls k).box with
    | .go, some b =>
      some (s.setCall k { s.calls k with
        pc := .unlockShared .success
        box := some { b with callRef := false, consumerRefs := b.consumerRefs + 1 }
        accepted := true
        answeredIn := s.stamp })
    | .failed status, _ => if status.isOk then none else some (s.setPc k (.submitDrop status))
    | .threw what, _ =>
      some (s.setPc k (.submitDrop (threwStatus "Backend submit threw an exception: " what)))
    | .threwUnknown, _ =>
      some (s.setPc k (.submitDrop
        (.error .internalError "Backend submit threw an unknown exception")))
    | _, _ => none
  | .submitDrop status =>
    let c := { s.calls k with pc := .unlockShared status }
    match c.box with
    | none => some (s.giveBack k c .noMailbox)
    | some b =>
      let b := { b with callRef := false }
      if b.referenced then some (s.setCall k { c with box := some b })
      else some (s.giveBack k { c with box := some { b with destroyed := true } } .destroyed)
  | _ => none

end Submit

def cancelStep (s : GenerationRuntime K) (k : ℕ) : Option (GenerationRuntime K) :=
  match (s.calls k).pc with
  | .cancelLock requestId =>
    if s.writer = none then
      some (setPc { s with readers := insert k s.readers } k
        (if s.state = .running then .cancelBackend requestId else .unlockShared .success))
    else none
  | .cancelBackend _ => some (s.setPc k (.unlockShared .success))
  | _ => none

def stopStep (s : GenerationRuntime K) (k : ℕ) (choice : CallChoice) :
    Option (GenerationRuntime K) :=
  match (s.calls k).pc with
  | .stopLock =>
    if s.writer = none ∧ s.readers = ∅ then
      some (setPc { s with writer := some k } k
        (if s.state = .stopped then .unlockExclusive .success else .stopClose))
    else none
  | .stopClose => some ({ s with admission := s.admission.close }.setPc k .stopBackend)
  | .stopBackend =>
    match choice with
    | .go => some (s.setPc k .stopSnapshot)
    | .threw _ | .threwUnknown =>
      some ({ s with state := .failed }.setPc k (.unlockExclusive
        (.error .internalError "Backend stop threw an exception")))
    | _ => none
  | .stopSnapshot =>
    if hasOutstandingResources s.admission.snapshot then
      some ({ s with state := .failed }.setPc k (.unlockExclusive
        (.error .internalError "Backend stopped with outstanding Admission resources")))
    else some ({ s with state := .stopped }.setPc k (.unlockExclusive .success))
  | _ => none

def unlockStep (s : GenerationRuntime K) (k : ℕ) : Option (GenerationRuntime K) :=
  match (s.calls k).pc with
  | .unlockShared status => some ({ s with readers := s.readers.erase k }.setPc k (.returned status))
  | .unlockExclusive status => some ({ s with writer := none }.setPc k (.returned status))
  | _ => none

end GenerationRuntime

inductive MailboxOp where
  | pushDelta (delta : TokenDelta)
  | pushTerminal (event : TerminalEvent)
  | releaseLease
  | backendCopy
  | backendDrop
  | waitPop
  | close
  | consumerCopy
  | consumerDrop
  | destroy
  deriving DecidableEq

namespace GenerationRuntime
variable {K : Type}

/-- A mailbox operation. The backend works with a copy of its own, which it can take
from the argument of `submit`. The destructor runs when no reference is left. -/
def mailboxStep (s : GenerationRuntime K) (k : ℕ) (op : MailboxOp) : Option (GenerationRuntime K) :=
  let c := s.calls k
  match c.box with
  | none => none
  | some b =>
    let update (b : MailboxObject) := some (s.setCall k { c with box := some b })
    if b.destroyed then none
    else
      match op with
      | .pushDelta delta =>
        if b.backendRefs = 0 then none
        else update { b with mailbox := (b.mailbox.tryPushDelta delta).getD b.mailbox }
      | .pushTerminal event =>
        if b.backendRefs = 0 ∨ b.releasing = true then none
        else
          match b.mailbox.pushTerminal event with
          | none => some s
          | some mailbox => update { b with mailbox := mailbox, releasing := true }
      | .releaseLease =>
        if b.releasing then
          some (s.giveBack k { c with box := some { b with releasing := false } } .terminal)
        else none
      | .backendCopy =>
        match c.pc with
        | .submitBackend _ => update { b with backendRefs := b.backendRefs + 1 }
        | _ => if b.backendRefs = 0 then none else update { b with backendRefs := b.backendRefs + 1 }
      | .backendDrop =>
        if b.backendRefs ≤ (if b.releasing then 1 else 0) then none
        else update { b with backendRefs := b.backendRefs - 1 }
      | .waitPop => if b.consumerRefs = 0 then none else update { b with mailbox := b.mailbox.waitPop.2 }
      | .close => if b.consumerRefs = 0 then none else update { b with mailbox := b.mailbox.close }
      | .consumerCopy =>
        if b.consumerRefs = 0 then none else update { b with consumerRefs := b.consumerRefs + 1 }
      | .consumerDrop =>
        if b.consumerRefs = 0 then none else update { b with consumerRefs := b.consumerRefs - 1 }
      | .destroy =>
        if b.referenced then none
        else some (s.giveBack k { c with box := some { b with destroyed := true } } .destroyed)

end GenerationRuntime

inductive RuntimeAction where
  | begin (k : ℕ) (op : RuntimeOp)
  | start (k : ℕ) (choice : CallChoice)
  | submit (k : ℕ) (choice : CallChoice)
  | cancel (k : ℕ)
  | stop (k : ℕ) (choice : CallChoice)
  | unlock (k : ℕ)
  | mailbox (k : ℕ) (op : MailboxOp)

def GenerationRuntime.step {K : Type} [Zero K] [Add K] [LE K] [DecidableLE K] [TtftText K]
    (s : GenerationRuntime K) : RuntimeAction → Option (GenerationRuntime K)
  | .begin k op => s.begin k op
  | .start k choice => s.startStep k choice
  | .submit k choice => s.submitStep k choice
  | .cancel k => s.cancelStep k
  | .stop k choice => s.stopStep k choice
  | .unlock k => s.unlockStep k
  | .mailbox k op => s.mailboxStep k op

end KimServing

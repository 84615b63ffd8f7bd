import KimServing.Library.Runs
import KimServing.Runtime.GenerationMailbox

/-! # The life of one request and its terminal gate

A request state guards the phase, the sequence number and the usage of one
request with its own lock and publishes through the mailbox. A call that
publishes enters the mailbox while it holds the request lock and updates the
request only when the mailbox has taken the event. A consumer needs the mailbox
lock alone, so it can run between these two halves; the gate keeps them apart.
-/
namespace KimServing

inductive RequestPhase where
  | accepted | running | cancelling | terminal
  deriving DecidableEq

def RequestPhase.rank : RequestPhase → ℕ
  | .accepted => 0
  | .running => 1
  | .cancelling => 2
  | .terminal => 3

inductive DeltaCommitResult where
  | committed | empty | backpressure | cancelling | terminal
  deriving DecidableEq

inductive TerminalCommitResult where
  | committed | alreadyCommitted | mailboxRejected
  deriving DecidableEq

structure RequestState where
  externalId : ℕ
  executorId : ℕ
  promptTokens : ℕ
  mailbox : GenerationMailbox
  phase : RequestPhase := .accepted
  completionTokens : ℕ := 0
  nextSequenceNo : ℕ := 0
  deriving DecidableEq

namespace RequestState

variable {rs : RequestState}

def markRunning (rs : RequestState) : Bool × RequestState :=
  if rs.phase = .accepted then (true, { rs with phase := .running })
  else (rs.phase == .running, rs)

def markCancelling (rs : RequestState) : Bool × RequestState :=
  if rs.phase ≠ .accepted ∧ rs.phase ≠ .running then (false, rs)
  else (true, { rs with phase := .cancelling })

def offerDelta (rs : RequestState) (tokenIds : List ℤ) : Except DeltaCommitResult RequestState :=
  if rs.phase = .terminal then .error .terminal
  else if rs.phase = .cancelling then .error .cancelling
  else if tokenIds = [] then .error .empty
  else
    match rs.mailbox.tryPushDelta ⟨rs.externalId, rs.nextSequenceNo, tokenIds⟩ with
    | none => .error .backpressure
    | some mb => .ok { rs with mailbox := mb }

def recordDelta (rs : RequestState) (tokenCount : ℕ) : RequestState :=
  { rs with
    nextSequenceNo := rs.nextSequenceNo + 1
    completionTokens := rs.completionTokens + tokenCount
    phase := if rs.phase = .accepted then .running else rs.phase }

theorem recordDelta_phase_ne_terminal {tokenCount : ℕ} (h : rs.phase ≠ .terminal) :
    (rs.recordDelta tokenCount).phase ≠ .terminal := by
  simp only [recordDelta]
  split
  · simp
  · exact h

def terminalEvent (rs : RequestState) (status : Status) (finishReason : Option FinishReason) :
    TerminalEvent :=
  ⟨rs.externalId, status, finishReason, ⟨rs.promptTokens, rs.completionTokens⟩⟩

def offerTerminal (rs : RequestState) (status : Status) (finishReason : Option FinishReason) :
    Except TerminalCommitResult RequestState :=
  if rs.phase = .terminal then .error .alreadyCommitted
  else
    match rs.mailbox.pushTerminal (rs.terminalEvent status finishReason) with
    | none => .error .mailboxRejected
    | some mb => .ok { rs with mailbox := mb }

def recordTerminal (rs : RequestState) : RequestState := { rs with phase := .terminal }

def tryCommitDelta (rs : RequestState) (tokenIds : List ℤ) : DeltaCommitResult × RequestState :=
  match rs.offerDelta tokenIds with
  | .error result => (result, rs)
  | .ok offered => (.committed, offered.recordDelta tokenIds.length)

def finalize (rs : RequestState) (status : Status) (finishReason : Option FinishReason) :
    TerminalCommitResult × RequestState :=
  match rs.offerTerminal status finishReason with
  | .error result => (result, rs)
  | .ok offered => (.committed, offered.recordTerminal)

theorem offerDelta_ok {rs' : RequestState} {tokenIds : List ℤ}
    (h : rs.offerDelta tokenIds = .ok rs') :
    rs.phase ≠ .terminal ∧ rs.phase ≠ .cancelling ∧ rs.mailbox.closed = false ∧
      rs.mailbox.terminalCommitted = false ∧
      rs' = { rs with mailbox := { rs.mailbox with
        deltas := rs.mailbox.deltas ++ [⟨rs.externalId, rs.nextSequenceNo, tokenIds⟩]
        queuedTokens := rs.mailbox.queuedTokens + tokenIds.length } } := by
  unfold offerDelta at h
  split_ifs at h with ht hc
  split at h
  · cases h
  · next mb hpush =>
    cases h
    obtain ⟨-, hclosed, hundecided, -, -, rfl⟩ := GenerationMailbox.tryPushDelta_eq_some.mp hpush
    exact ⟨ht, hc, hclosed, hundecided, rfl⟩

theorem offerTerminal_ok {rs' : RequestState} {status : Status}
    {finishReason : Option FinishReason} (h : rs.offerTerminal status finishReason = .ok rs') :
    rs.phase ≠ .terminal ∧ rs.mailbox.closed = false ∧ rs.mailbox.terminalCommitted = false ∧
      rs' = { rs with mailbox := { rs.mailbox with
        terminal := some (rs.terminalEvent status finishReason), terminalCommitted := true } } := by
  unfold offerTerminal at h
  split_ifs at h with ht
  split at h
  · cases h
  · next mb hpush =>
    cases h
    obtain ⟨hclosed, hundecided, rfl⟩ := GenerationMailbox.pushTerminal_eq_some.mp hpush
    exact ⟨ht, hclosed, hundecided, rfl⟩

theorem offerDelta_error {tokenIds : List ℤ} {r : DeltaCommitResult}
    (h : rs.offerDelta tokenIds = .error r) : r ≠ .committed := by
  rintro rfl
  unfold offerDelta at h
  repeat' split at h
  all_goals cases h

theorem offerTerminal_error {status : Status} {finishReason : Option FinishReason}
    {r : TerminalCommitResult} (h : rs.offerTerminal status finishReason = .error r) :
    r ≠ .committed := by
  rintro rfl
  unfold offerTerminal at h
  repeat' split at h
  all_goals cases h

end RequestState

/-- A call that holds the request lock after the mailbox took its event. -/
inductive PendingCommit where
  | delta (tokenCount : ℕ)
  | terminal
  deriving DecidableEq

/-- What a call on the request state or on its mailbox returned. -/
inductive GateResult where
  | markedRunning (b : Bool)
  | markedCancelling (b : Bool)
  | delta (r : DeltaCommitResult)
  | terminal (r : TerminalCommitResult)
  | popped (r : MailboxWaitResult)
  deriving DecidableEq

/-- A request state with its mailbox under concurrent calls. `committed` and
`log` are histories: the deltas the mailbox has taken, and the results of the
calls that have returned. -/
structure Gate where
  state : RequestState
  holder : Option PendingCommit := none
  committed : List TokenDelta := []
  log : List GateResult := []
  deriving DecidableEq

inductive GateCall where
  | markRunning
  | markCancelling
  | tryCommitDelta (tokenIds : List ℤ)
  | finalize (status : Status) (finishReason : Option FinishReason)
  /-- The call that holds the request lock completes and returns. -/
  | finish
  | waitPop
  | close
  deriving DecidableEq

namespace Gate

def initial (externalId executorId promptTokens : ℕ) (config : GenerationMailboxConfig) : Gate :=
  { state := ⟨externalId, executorId, promptTokens, { config := config }, .accepted, 0, 0⟩ }

def answer (g : Gate) (rs : RequestState) (r : GateResult) : Gate :=
  { g with state := rs, log := g.log ++ [r] }

def lockedStep (g : Gate) : GateCall → Option Gate
  | .markRunning => some (g.answer g.state.markRunning.2 (.markedRunning g.state.markRunning.1))
  | .markCancelling =>
    some (g.answer g.state.markCancelling.2 (.markedCancelling g.state.markCancelling.1))
  | .tryCommitDelta tokenIds =>
    match g.state.offerDelta tokenIds with
    | .error r => some (g.answer g.state (.delta r))
    | .ok rs => some { g with
        state := rs
        holder := some (.delta tokenIds.length)
        committed := g.committed ++ [⟨g.state.externalId, g.state.nextSequenceNo, tokenIds⟩] }
  | .finalize status finishReason =>
    match g.state.offerTerminal status finishReason with
    | .error r => some (g.answer g.state (.terminal r))
    | .ok rs => some { g with state := rs, holder := some .terminal }
  | _ => none

def finishStep (g : Gate) : PendingCommit → Gate
  | .delta tokenCount =>
    { g.answer (g.state.recordDelta tokenCount) (.delta .committed) with holder := none }
  | .terminal => { g.answer g.state.recordTerminal (.terminal .committed) with holder := none }

def setMailbox (g : Gate) (mb : GenerationMailbox) : Gate :=
  { g with state := { g.state with mailbox := mb } }

def popStep (g : Gate) : Gate :=
  { g.setMailbox g.state.mailbox.waitPop.2 with
    log := g.log ++ [.popped g.state.mailbox.waitPop.1] }

def step (g : Gate) : GateCall → Option Gate
  | .waitPop => some g.popStep
  | .close => some (g.setMailbox g.state.mailbox.close)
  | .finish => g.holder.map g.finishStep
  | call => if g.holder.isSome then none else g.lockedStep call

def waits (g : Gate) : List MailboxWaitResult :=
  g.log.filterMap (fun r => match r with | .popped w => some w | _ => none)

def eventsOf (ws : List MailboxWaitResult) : List GenerationEvent :=
  ws.filterMap (fun w => match w with | .event e => some e | _ => none)

def deltasOf (es : List GenerationEvent) : List TokenDelta :=
  es.filterMap (fun e => match e with | .delta d => some d | _ => none)

def popped (g : Gate) : List GenerationEvent := eventsOf g.waits
def delivered (g : Gate) : List TokenDelta := deltasOf g.popped

end Gate

end KimServing

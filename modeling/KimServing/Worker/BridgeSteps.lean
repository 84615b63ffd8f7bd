import KimServing.Worker.RuntimeBridge

/-! # What a step of a thread can do

For each thread one relation lists the states that it can go to, with the branch that
it takes. A message that the egress refuses leaves the egress as it was, and a thread
that enters `beginShutdown` is the first one there or only reports its status.
-/
namespace KimServing
open Library Function

def PumpPc.received : MailboxWaitResult → PumpPc
  | .timeout => .checkStop
  | .closed => .shutdown
      (failure .internalError "Accepted request Mailbox closed without Terminal") .stopSession
  | .event (.delta d) => .delta d
  | .event (.terminal t) => .terminal t

namespace Bridge

/-! ## Procedures that several threads run -/

@[simp]
def CancelOutcome.resume {α : Type} (next : CancelPc → α) (returned threw : α) : CancelOutcome → α
  | .next pc => next pc
  | .returned => returned
  | .threw => threw

/-- The state that the first `beginShutdown` leaves. -/
abbrev entered (s : Bridge) (terminalStatus : Status) (state : BridgeState) : Bridge :=
  { s with
    stopRequested := true
    state := state
    terminalStatus := terminalStatus
    shutdown := .stopEgress (s.requests.map Prod.snd)
    owned := s.requests.map Prod.snd }

structure Cancelling where
  records : ℕ → RequestRecord
  cancelledRequests : ℕ
  cancelCalled : ℕ → Bool

abbrev cancelled (s : Bridge) (c : Cancelling) : Bridge :=
  { s with
    records := c.records, cancelledRequests := c.cancelledRequests, cancelCalled := c.cancelCalled }

variable {s s' : Bridge} {n : ℕ} {env : Environment}

theorem enterShutdown_cases (s : Bridge) (status : Status) :
    (s.stopRequested = true ∧ ∃ terminalStatus state,
      s.enterShutdown status = ({ s with terminalStatus := terminalStatus, state := state }, false)) ∨
    (s.stopRequested = false ∧ ∃ terminalStatus state,
      s.enterShutdown status = (s.entered terminalStatus state, true)) := by
  unfold enterShutdown
  cases hstop : s.stopRequested with
  | true =>
    refine Or.inl ⟨rfl, ?_⟩
    rw [if_pos rfl]
    split
    · exact ⟨_, _, rfl⟩
    · exact ⟨s.terminalStatus, s.state, by rw [← hstop]⟩
  | false =>
    rw [if_neg (by simp)]
    exact Or.inr ⟨rfl, _, _, rfl⟩

theorem enterShutdown_success (s : Bridge) :
    (s.stopRequested = true ∧ s.enterShutdown .success = (s, false)) ∨
    (s.stopRequested = false ∧
      s.enterShutdown .success = (s.entered s.terminalStatus .stopping, true)) := by
  unfold enterShutdown
  cases hstop : s.stopRequested with
  | true => exact Or.inl ⟨rfl, by simp [Status.isOk, Status.success]⟩
  | false => exact Or.inr ⟨rfl, by simp [Status.isOk, Status.success]⟩

theorem cancelStep_cases (s : Bridge) (n : ℕ) (countCancel throws : Bool) (pc : CancelPc) :
    (pc = .check ∧ (s.records n).terminalEnqueued = true ∧
      s.cancelStep n countCancel throws pc = (s, .returned)) ∨
    (pc = .check ∧ (s.records n).terminalEnqueued = false ∧
      s.cancelStep n countCancel throws pc = (s, .next .exchange)) ∨
    (pc = .exchange ∧ (s.records n).cancelRequested = true ∧
      s.cancelStep n countCancel throws pc = (s, .returned)) ∨
    (pc = .exchange ∧ (s.records n).cancelRequested = false ∧
      s.cancelStep n countCancel throws pc =
        (s.updateRecord n (fun r => { r with cancelRequested := true }),
          .next (if countCancel then .count else .call))) ∨
    (pc = .count ∧ s.cancelStep n countCancel throws pc =
      ({ s with cancelledRequests := s.cancelledRequests + 1 }, .next .call)) ∨
    (pc = .call ∧ s.cancelStep n countCancel throws pc =
      (s.runtimeCancel (s.records n).requestId, if throws then .threw else .returned)) := by
  cases pc with
  | check => cases h : (s.records n).terminalEnqueued <;> simp [cancelStep, h]
  | exchange => cases h : (s.records n).cancelRequested <;> simp [cancelStep, h]
  | count | call => simp [cancelStep]

theorem cancelStep_cancelled (s : Bridge) (n : ℕ) (countCancel throws : Bool) (pc : CancelPc) :
    ∃ c, (s.cancelStep n countCancel throws pc).1 = s.cancelled c := by
  rcases s.cancelStep_cases n countCancel throws pc with
    ⟨-, -, h⟩ | ⟨-, -, h⟩ | ⟨-, -, h⟩ | ⟨-, -, h⟩ | ⟨-, h⟩ | ⟨-, h⟩ <;>
  · rw [h]
    exact ⟨⟨_, _, _⟩, rfl⟩

theorem cancelStep_records {countCancel throws : Bool} {pc : CancelPc} {outcome : CancelOutcome}
    {c : Cancelling} (h : s.cancelStep n countCancel throws pc = (s.cancelled c, outcome)) (k : ℕ) :
    c.records k = s.records k ∨ c.records k = { s.records k with cancelRequested := true } := by
  have hrecords : c.records = (s.cancelStep n countCancel throws pc).1.records := by rw [h]
  rw [hrecords]
  rcases s.cancelStep_cases n countCancel throws pc with
    ⟨-, -, h⟩ | ⟨-, -, h⟩ | ⟨-, -, h⟩ | ⟨-, -, h⟩ | ⟨-, h⟩ | ⟨-, h⟩
  case inr.inr.inr.inl =>
    rw [h]
    by_cases hk : k = n
    · subst hk
      exact Or.inr (update_self ..)
    · exact Or.inl (update_of_ne hk _ _)
  all_goals
    rw [h]
    exact Or.inl rfl

theorem joinReader_cases (h : s.joinReader = some s') :
    (s.handler = .idle ∨ s.handler = .exited) ∧ s' = { s with handler := .exited } := by
  unfold joinReader at h
  cases hpc : s.handler with
  | idle =>
    simp only [hpc, Option.some.injEq] at h
    exact ⟨Or.inl rfl, h.symm⟩
  | exited =>
    simp only [hpc, Option.some.injEq] at h
    exact ⟨Or.inr rfl, by rw [← h, ← hpc]⟩
  | _ => simp [hpc] at h

theorem receive_cases {m : Ipc.Message} (h : s.receive m = some s') :
    s.handler = .idle ∧ ((∃ submit, m = .submit submit ∧ s' = s.openRecord submit) ∨
      (∀ submit, m ≠ .submit submit) ∧ s' = { s with handler := .reap m }) := by
  unfold receive at h
  split at h
  · refine ⟨‹_›, ?_⟩
    split at h
    · exact Or.inl ⟨_, rfl, (Option.some.inj h).symm⟩
    · next hm => exact Or.inr ⟨hm, (Option.some.inj h).symm⟩
  · cases h

theorem backend_cases {call : GateCall} (h : s.backend n call = some s') :
    call ≠ .waitPop ∧ ∃ g, (s.gates n).step call = some g ∧ s' = s.setGate n g := by
  unfold backend at h
  split at h
  · cases h
  · next hguard =>
    obtain ⟨g, hg, rfl⟩ := Option.map_eq_some_iff.mp h
    exact ⟨fun hcall => hguard (Or.inr hcall), g, hg, rfl⟩

section Moves
variable (s : Bridge) (n : ℕ) (env : Environment)

/-- The writer pops a message, sends it, and shuts down on a failure. -/
inductive WriterMove : Bridge → Prop
  | checkStop (hpc : s.writer = .checkStop) :
      WriterMove { s with writer := if s.stopRequested then .exited else .pop }
  | timeout (hpc : s.writer = .pop)
      (hr : (s.egress.waitPop s.config.mailboxWaitTimeout).1 = .timeout) :
      WriterMove { s with
        egress := (s.egress.waitPop s.config.mailboxWaitTimeout).2, writer := .checkStop }
  | stopped (hpc : s.writer = .pop)
      (hr : (s.egress.waitPop s.config.mailboxWaitTimeout).1 = .stopped) :
      WriterMove { s with
        egress := (s.egress.waitPop s.config.mailboxWaitTimeout).2, writer := .exited }
  | take m (hpc : s.writer = .pop)
      (hr : (s.egress.waitPop s.config.mailboxWaitTimeout).1 = .message m) :
      WriterMove { s.notePopped m (s.egress.waitPop s.config.mailboxWaitTimeout).2 with
        writer := .checkSend m }
  | checkSend m (hpc : s.writer = .checkSend m) :
      WriterMove { s with writer := if s.stopRequested then .checkStop else .send m }
  | sent m (hpc : s.writer = .send m) :
      WriterMove { s with sent := s.sent ++ [m], writer := .checkStop }
  | failed m (hpc : s.writer = .send m) (hfailed : ¬env.sendStatus.isOk = true) :
      WriterMove { s with writer := .shutdown env.sendStatus }
  | full m (hpc : s.writer = .send m) : WriterMove { s with writer := .wait m }
  | wait m (hpc : s.writer = .wait m) : WriterMove { s with writer := .checkSend m }
  | enter status terminalStatus state (hpc : s.writer = .shutdown status)
      (hstop : s.stopRequested = false) :
      WriterMove { s.entered terminalStatus state with writer := .shuttingDown }
  | report status terminalStatus state (hpc : s.writer = .shutdown status) :
      WriterMove { s with
        terminalStatus := terminalStatus, state := state, writer := .sessionStop }
  | resume (hpc : s.writer = .shuttingDown) (hfinished : s.shutdown = .finished) :
      WriterMove { s with writer := .sessionStop }
  | join (hpc : s.writer = .sessionStop) (hidle : s.handler = .idle ∨ s.handler = .exited) :
      WriterMove { s with handler := .exited, writer := .exited }

/-- The monitor waits for the session to close. -/
inductive MonitorMove : Bridge → Prop
  | timeout (hpc : s.monitor = .wait) : MonitorMove { s with monitor := .checkTimeout }
  | closed (hpc : s.monitor = .wait) (hcode : env.closeStatus.code ≠ .timeout) :
      MonitorMove { s with monitor := .checkClosed }
  | failed (hpc : s.monitor = .wait) (hcode : env.closeStatus.code ≠ .timeout)
      (hfailed : ¬env.closeStatus.isOk = true) :
      MonitorMove { s with monitor := .shutdown env.closeStatus }
  | checkTimeout (hpc : s.monitor = .checkTimeout) :
      MonitorMove { s with monitor := if s.stopRequested then .exited else .wait }
  | checkClosed (hpc : s.monitor = .checkClosed) :
      MonitorMove { s with
        monitor :=
          if s.stopRequested then .exited
          else .shutdown (failure .unavailable "IPC session closed") }
  | enter status terminalStatus state (hpc : s.monitor = .shutdown status)
      (hstop : s.stopRequested = false) :
      MonitorMove { s.entered terminalStatus state with monitor := .shuttingDown }
  | report status terminalStatus state (hpc : s.monitor = .shutdown status) :
      MonitorMove { s with terminalStatus := terminalStatus, state := state, monitor := .exited }
  | resume (hpc : s.monitor = .shuttingDown) (hfinished : s.shutdown = .finished) :
      MonitorMove { s with monitor := .exited }

/-- The call of `stop` shuts down, joins the threads and reports. -/
inductive StopperMove : Bridge → Prop
  | call (hpc : s.stopper = .notCalled) : StopperMove { s with stopper := .shutdown }
  | enter (hpc : s.stopper = .shutdown) (hstop : s.stopRequested = false) :
      StopperMove { s.entered s.terminalStatus .stopping with stopper := .shuttingDown }
  | report (hpc : s.stopper = .shutdown) (hstop : s.stopRequested = true) :
      StopperMove { s with stopper := .sessionStop }
  | resume (hpc : s.stopper = .shuttingDown) (hfinished : s.shutdown = .finished) :
      StopperMove { s with stopper := .sessionStop }
  | join (hpc : s.stopper = .sessionStop) (hidle : s.handler = .idle ∨ s.handler = .exited) :
      StopperMove { s with handler := .exited, stopper := .joinMonitor }
  | joinMonitor (hpc : s.stopper = .joinMonitor) (hexited : s.monitor = .exited) :
      StopperMove { s with stopper := .joinWriter }
  | joinWriter (hpc : s.stopper = .joinWriter) (hexited : s.writer = .exited) :
      StopperMove { s with stopper := .takeRequests }
  | takeRequests (hpc : s.stopper = .takeRequests) :
      StopperMove { s with requests := [], stopper := .joinPumps (s.requests.map Prod.snd) }
  | joinedPumps (hpc : s.stopper = .joinPumps []) : StopperMove { s with stopper := .finish }
  | joinPumps owned (hpc : s.stopper = .joinPumps owned) (hpick : env.pick ∈ owned) :
      StopperMove { s.abandonForwarding env.pick with
        stopper := .joinPump env.pick (owned.erase env.pick) }
  | joinPump k owned (hpc : s.stopper = .joinPump k owned) (hjoined : s.pumpJoined k = true) :
      StopperMove { s with stopper := .joinPumps owned }
  | finish state (hpc : s.stopper = .finish) :
      StopperMove { s with state := state, stopper := .report }
  | returns (hpc : s.stopper = .report) :
      StopperMove { s with stopper := .returned s.terminalStatus }

/-- The first `beginShutdown` stops the egress and cancels what it owns. -/
inductive ShutdownMove : Bridge → Prop
  | stopEgress owned (hpc : s.shutdown = .stopEgress owned) :
      ShutdownMove { s with egress := s.egress.stop, shutdown := .loop owned }
  | finish (hpc : s.shutdown = .loop []) : ShutdownMove { s with shutdown := .finished }
  | pick owned (hpc : s.shutdown = .loop owned) (hpick : env.pick ∈ owned) :
      ShutdownMove { s.abandonForwarding env.pick with
        shutdown := .cancelling env.pick .check (owned.erase env.pick) }
  | cancelling k pc owned c outcome (hpc : s.shutdown = .cancelling k pc owned)
      (hc : s.cancelStep k true env.cancelThrows pc = (s.cancelled c, outcome)) :
      ShutdownMove { s.cancelled c with
        shutdown := outcome.resume (.cancelling k · owned) (.loop owned) (.threw owned) }
  | enter owned terminalStatus state (hpc : s.shutdown = .threw owned)
      (hstop : s.stopRequested = false) :
      ShutdownMove { s.entered terminalStatus state with shutdown := .loop owned }
  | report owned terminalStatus state (hpc : s.shutdown = .threw owned) :
      ShutdownMove { s with
        terminalStatus := terminalStatus, state := state, shutdown := .loop owned }

variable [JsonLib]

/-- The handler answers one message of the client. -/
inductive HandlerMove : Bridge → Prop
  | reap m (hpc : s.handler = .reap m) :
      HandlerMove { s.reapCompletedRequests with handler := s.dispatch m }
  | invalid k m status (hpc : s.handler = .convert k m) :
      HandlerMove { s with handler := .countRejected k status }
  | converted k m request (hpc : s.handler = .convert k m)
      (hc : convertSubmit s.config m env.now = .ok request) :
      HandlerMove { s with handler := .submit k request }
  | refused k request status (hpc : s.handler = .submit k request) :
      HandlerMove { s with handler := .countRejected k status }
  | admitted k request executorId promptTokens mailbox (hpc : s.handler = .submit k request) :
      HandlerMove {
        s.setGate k (.initial (s.records k).requestId executorId promptTokens mailbox) with
        accepted := update s.accepted k true
        handler := .register k }
  | registered k (hpc : s.handler = .register k)
      (hok : (s.egress.registerRequest (s.records k).requestId).1.isOk = true) :
      HandlerMove { s with
        egress := (s.egress.registerRequest (s.records k).requestId).2, handler := .emplace k }
  | unregistered k status (hpc : s.handler = .register k) :
      HandlerMove { s with handler := .undo k status }
  | emplaced k (hpc : s.handler = .emplace k)
      (hfree : ¬(s.findRequest (s.records k).requestId).isSome = true) :
      HandlerMove { s with
        requests := ((s.records k).requestId, k) :: s.requests, handler := .spawn k }
  | known k status (hpc : s.handler = .emplace k)
      (hfound : (s.findRequest (s.records k).requestId).isSome = true) :
      HandlerMove { s with handler := .abandon k status }
  | spawned k (hpc : s.handler = .spawn k) :
      HandlerMove { s.setPump k .waitGate with handler := .accept k }
  | unspawned k status (hpc : s.handler = .spawn k) :
      HandlerMove { s with handler := .spawnFailed k status }
  | spawnFailed k status (hpc : s.handler = .spawnFailed k status) :
      HandlerMove { s.abandonForwarding k with handler := .erase k status }
  | erase k status (hpc : s.handler = .erase k status) :
      HandlerMove { s.eraseRequest (s.records k).requestId with handler := .abandon k status }
  | abandon k status (hpc : s.handler = .abandon k status) :
      HandlerMove { s with
        egress := (s.egress.abandonRequest (s.records k).requestId).2, handler := .undo k status }
  | undo k status (hpc : s.handler = .undo k status) :
      HandlerMove { s.runtimeCancel (s.records k).requestId with
        handler := .countRejected k status }
  | countRejected k status (hpc : s.handler = .countRejected k status) :
      HandlerMove { s with
        rejectedRequests := s.rejectedRequests + 1, handler := .reject k status }
  | rejected k status m (hpc : s.handler = .reject k status)
      (hm : m = wireRejected s.config (s.records k).requestId status)
      (hcode : (s.egress.enqueueControl m).1.code = .enqueued) :
      HandlerMove { s.noteEnqueued k m (s.egress.enqueueControl m).2 with handler := .idle }
  | unrejected k status error (hpc : s.handler = .reject k status)
      (hcode : (s.egress.enqueueControl
        (wireRejected s.config (s.records k).requestId status)).1.code ≠ .enqueued) :
      HandlerMove { s with handler := .shutdown error .exit }
  | accepted k m (hpc : s.handler = .accept k)
      (hm : m = wireAccepted s.config (s.records k).requestId)
      (hcode : (s.egress.enqueueControl m).1.code = .enqueued) :
      HandlerMove { s.noteEnqueued k m (s.egress.enqueueControl m).2 with handler := .allow k }
  | unaccepted k error (hpc : s.handler = .accept k)
      (hcode : (s.egress.enqueueControl
        (wireAccepted s.config (s.records k).requestId)).1.code ≠ .enqueued) :
      HandlerMove { s with handler := .acceptFailed k error }
  | acceptFailed k status (hpc : s.handler = .acceptFailed k status) :
      HandlerMove { s.abandonForwarding k with handler := .acceptCancel k status .check }
  | acceptCancel k status pc c outcome (hpc : s.handler = .acceptCancel k status pc)
      (hc : s.cancelStep k true env.cancelThrows pc = (s.cancelled c, outcome)) :
      HandlerMove { s.cancelled c with
        handler := outcome.resume (.acceptCancel k status) (.shutdown status .exit)
          (.shutdown cancelThrew (.fail status)) }
  | allow k (hpc : s.handler = .allow k) :
      HandlerMove { s.allowForwarding k with handler := .idle }
  | unknown requestId (hpc : s.handler = .lookup requestId) :
      HandlerMove { s with handler := .idle }
  | found requestId k (hpc : s.handler = .lookup requestId)
      (hfound : s.findRequest requestId = some k) :
      HandlerMove { s with handler := .cancel k .check }
  | cancel k pc c outcome (hpc : s.handler = .cancel k pc)
      (hc : s.cancelStep k true env.cancelThrows pc = (s.cancelled c, outcome)) :
      HandlerMove { s.cancelled c with
        handler := outcome.resume (.cancel k) .idle (.shutdown cancelThrew .idle) }
  | snapshot probeId figures (hpc : s.handler = .snapshot probeId) :
      HandlerMove { s with handler := .egressSnapshot probeId figures }
  | egressSnapshot probeId figures m (hpc : s.handler = .egressSnapshot probeId figures) :
      HandlerMove { s with handler := .stats m }
  | stats m (hpc : s.handler = .stats m) :
      HandlerMove { s with egress := (s.egress.enqueueControl (.stats m)).2, handler := .idle }
  | noStats m error (hpc : s.handler = .stats m)
      (hcode : (s.egress.enqueueControl (.stats m)).1.code ≠ .enqueued) :
      HandlerMove { s with handler := .shutdown error .exit }
  | enter status terminalStatus state resume (hpc : s.handler = .shutdown status resume)
      (hstop : s.stopRequested = false) :
      HandlerMove { s.entered terminalStatus state with handler := .shuttingDown resume }
  | report status terminalStatus state resume (hpc : s.handler = .shutdown status resume) :
      HandlerMove { s with terminalStatus := terminalStatus, state := state, handler := resume.pc }
  | resume resume (hpc : s.handler = .shuttingDown resume) (hfinished : s.shutdown = .finished) :
      HandlerMove { s with handler := resume.pc }

/-- The pump of a request forwards its deltas and its terminal. -/
inductive PumpMove : Bridge → Prop
  | abandoned (hpc : s.pumps n = .waitGate) : PumpMove (s.setPump n .finish)
  | allowed (hpc : s.pumps n = .waitGate) (hallowed : (s.records n).forwardingAllowed = true) :
      PumpMove (s.setPump n .checkStop)
  | checkStop (hpc : s.pumps n = .checkStop) :
      PumpMove (s.setPump n (if s.stopRequested then .finish else .pop))
  | take (hpc : s.pumps n = .pop) :
      PumpMove ((s.setGate n (s.gates n).popStep).setPump n
        (.received (s.gates n).state.mailbox.waitPop.1))
  | skip d (hpc : s.pumps n = .delta d) (hflag : (s.records n).cancelRequested = true) :
      PumpMove (s.setPump n .checkStop)
  | pass d (hpc : s.pumps n = .delta d) (hflag : (s.records n).cancelRequested = false) :
      PumpMove (s.setPump n (.forward d))
  | forwarded d m (hpc : s.pumps n = .forward d) (hm : m = .tokenDelta (wireDelta s.config d))
      (hcode : (s.egress.enqueueDelta (s.records n).requestId m).1.code = .enqueued) :
      PumpMove ((s.noteEnqueued n m (s.egress.enqueueDelta (s.records n).requestId m).2).setPump n
        .checkStop)
  | dropped d (hpc : s.pumps n = .forward d) : PumpMove (s.setPump n .countBackpressure)
  | forwardStopped d (hpc : s.pumps n = .forward d) : PumpMove (s.setPump n .finish)
  | forwardFailed d error (hpc : s.pumps n = .forward d)
      (hcode : (s.egress.enqueueDelta (s.records n).requestId
        (.tokenDelta (wireDelta s.config d))).1.code ∉
          [Ipc.SessionEgressEnqueueCode.enqueued, .requestFull, .sessionFull, .stopped]) :
      PumpMove (s.setPump n (.shutdown error .stopSession))
  | countBackpressure count (hpc : s.pumps n = .countBackpressure) :
      PumpMove ({ s with backpressureRequests := count }.setPump n .markBackpressure)
  | markBackpressure (hpc : s.pumps n = .markBackpressure) :
      PumpMove ((s.updateRecord n (fun r => { r with backpressureRequested := true })).setPump n
        (.cancelling .check))
  | cancelling pc c outcome (hpc : s.pumps n = .cancelling pc)
      (hc : s.cancelStep n false env.cancelThrows pc = (s.cancelled c, outcome)) :
      PumpMove ((s.cancelled c).setPump n
        (outcome.resume .cancelling .checkStop (.shutdown cancelThrew .loop)))
  | prepare t (hpc : s.pumps n = .terminal t) :
      PumpMove (s.setPump n (.enqueueTerminal
        (wireTerminal s.config (s.records n).backpressureRequested t)))
  | finished wire m (hpc : s.pumps n = .enqueueTerminal wire) (hm : m = .terminal wire)
      (hcode : (s.egress.enqueueTerminal (s.records n).requestId m).1.code = .enqueued) :
      PumpMove ((s.noteEnqueued n m (s.egress.enqueueTerminal (s.records n).requestId m).2).setPump n
        .markTerminal)
  | terminalStopped wire (hpc : s.pumps n = .enqueueTerminal wire) : PumpMove (s.setPump n .finish)
  | terminalFailed wire error (hpc : s.pumps n = .enqueueTerminal wire)
      (hcode : (s.egress.enqueueTerminal (s.records n).requestId (.terminal wire)).1.code ∉
        [Ipc.SessionEgressEnqueueCode.enqueued, .stopped]) :
      PumpMove (s.setPump n (.shutdown error .stopSession))
  | markTerminal (hpc : s.pumps n = .markTerminal) :
      PumpMove ((s.updateRecord n (fun r => { r with terminalEnqueued := true })).setPump n .finish)
  | enter status terminalStatus state resume (hpc : s.pumps n = .shutdown status resume)
      (hstop : s.stopRequested = false) :
      PumpMove ((s.entered terminalStatus state).setPump n (.shuttingDown resume))
  | report status terminalStatus state resume (hpc : s.pumps n = .shutdown status resume) :
      PumpMove ({ s with terminalStatus := terminalStatus, state := state }.setPump n resume.pc)
  | resume resume (hpc : s.pumps n = .shuttingDown resume) (hfinished : s.shutdown = .finished) :
      PumpMove (s.setPump n resume.pc)
  | join (hpc : s.pumps n = .sessionStop) (hidle : s.handler = .idle ∨ s.handler = .exited) :
      PumpMove ({ s with handler := .exited }.setPump n .finish)
  | finish (hpc : s.pumps n = .finish) :
      PumpMove ((s.updateRecord n (fun r => { r with pumpFinished := true })).setPump n .finished)

end Moves

/-! ## Every step is a move -/

theorem writerStep_move (h : s.writerStep env = some s') : s.WriterMove env s' := by
  cases hpc : s.writer with
  | checkStop | checkSend | wait =>
    simp only [writerStep, hpc] at h
    cases h
    constructor
    exact hpc
  | pop =>
    simp only [writerStep, hpc] at h
    split at h <;> cases h
    · exact .timeout hpc ‹_›
    · exact .stopped hpc ‹_›
    · exact .take _ hpc ‹_›
  | send m =>
    simp only [writerStep, hpc] at h
    split_ifs at h with hok <;> cases h
    · exact .sent m hpc
    · exact .failed m hpc hok
    · exact .full m hpc
  | shutdown status =>
    simp only [writerStep, hpc] at h
    rcases s.enterShutdown_cases status with ⟨-, _, _, he⟩ | ⟨hstop, _, _, he⟩ <;> rw [he] at h <;>
      cases h
    · exact .report status _ _ hpc
    · exact .enter status _ _ hpc hstop
  | shuttingDown =>
    simp only [writerStep, hpc] at h
    split at h <;> cases h
    exact .resume hpc ‹_›
  | sessionStop =>
    simp only [writerStep, hpc] at h
    obtain ⟨t, ht, rfl⟩ := Option.map_eq_some_iff.mp h
    obtain ⟨hidle, rfl⟩ := joinReader_cases ht
    exact .join hpc hidle
  | exited => simp [writerStep, hpc] at h

theorem monitorStep_move (h : s.monitorStep env = some s') : s.MonitorMove env s' := by
  cases hpc : s.monitor with
  | wait =>
    simp only [monitorStep, hpc] at h
    split_ifs at h with hcode hok <;> cases h
    · exact .timeout hpc
    · exact .closed hpc hcode
    · exact .failed hpc hcode hok
  | checkTimeout | checkClosed =>
    simp only [monitorStep, hpc] at h
    cases h
    constructor
    exact hpc
  | shutdown status =>
    simp only [monitorStep, hpc] at h
    rcases s.enterShutdown_cases status with ⟨-, _, _, he⟩ | ⟨hstop, _, _, he⟩ <;> rw [he] at h <;>
      cases h
    · exact .report status _ _ hpc
    · exact .enter status _ _ hpc hstop
  | shuttingDown =>
    simp only [monitorStep, hpc] at h
    split at h <;> cases h
    exact .resume hpc ‹_›
  | exited => simp [monitorStep, hpc] at h

theorem stopperStep_move (h : s.stopperStep env = some s') : s.StopperMove env s' := by
  cases hpc : s.stopper with
  | notCalled | takeRequests | finish | report =>
    simp only [stopperStep, hpc] at h
    cases h
    constructor
    exact hpc
  | shutdown =>
    simp only [stopperStep, hpc] at h
    rcases s.enterShutdown_success with ⟨hstop, he⟩ | ⟨hstop, he⟩ <;> rw [he] at h <;> cases h
    · exact .report hpc hstop
    · exact .enter hpc hstop
  | shuttingDown =>
    simp only [stopperStep, hpc] at h
    split at h <;> cases h
    exact .resume hpc ‹_›
  | sessionStop =>
    simp only [stopperStep, hpc] at h
    obtain ⟨t, ht, rfl⟩ := Option.map_eq_some_iff.mp h
    obtain ⟨hidle, rfl⟩ := joinReader_cases ht
    exact .join hpc hidle
  | joinMonitor =>
    simp only [stopperStep, hpc] at h
    split at h <;> cases h
    exact .joinMonitor hpc ‹_›
  | joinWriter =>
    simp only [stopperStep, hpc] at h
    split at h <;> cases h
    exact .joinWriter hpc ‹_›
  | joinPumps owned =>
    cases owned with
    | nil =>
      simp only [stopperStep, hpc] at h
      cases h
      exact .joinedPumps hpc
    | cons k ks =>
      simp only [stopperStep, hpc] at h
      split at h <;> cases h
      exact .joinPumps _ hpc ‹_›
  | joinPump n owned =>
    simp only [stopperStep, hpc] at h
    split at h <;> cases h
    exact .joinPump n owned hpc ‹_›
  | returned => simp [stopperStep, hpc] at h

theorem shutdownStep_move (h : s.shutdownStep env = some s') : s.ShutdownMove env s' := by
  cases hpc : s.shutdown with
  | stopEgress owned =>
    simp only [shutdownStep, hpc] at h
    cases h
    exact .stopEgress owned hpc
  | loop owned =>
    cases owned with
    | nil =>
      simp only [shutdownStep, hpc] at h
      cases h
      exact .finish hpc
    | cons k ks =>
      simp only [shutdownStep, hpc] at h
      split at h <;> cases h
      exact .pick _ hpc ‹_›
  | cancelling n pc owned =>
    obtain ⟨c, hc⟩ := s.cancelStep_cancelled n true env.cancelThrows pc
    simp only [shutdownStep, hpc, hc] at h
    split at h <;> cases h <;> exact .cancelling n pc owned c _ hpc (Prod.ext hc ‹_›)
  | threw owned =>
    simp only [shutdownStep, hpc] at h
    rcases s.enterShutdown_cases cancelThrew with ⟨-, _, _, he⟩ | ⟨hstop, _, _, he⟩ <;>
      rw [he] at h <;> cases h
    · exact .report owned _ _ hpc
    · exact .enter owned _ _ hpc hstop
  | _ => simp [shutdownStep, hpc] at h

section Threads
variable [JsonLib]

theorem enqueueControl_refused {m : Ipc.Message}
    (h : (s.egress.enqueueControl m).1.code ≠ .enqueued) :
    (s.egress.enqueueControl m).2 = s.egress := by
  rcases s.egress.enqueueControl_cases m with ⟨r, -, he⟩ | ⟨sized, -, -, -, -, -, he⟩
  · rw [he]
  · rw [he] at h
    exact absurd rfl h

theorem handlerStep_move (h : s.handlerStep env = some s') : s.HandlerMove env s' := by
  cases hpc : s.handler with
  | reap | spawnFailed | erase | abandon | undo | countRejected |
      acceptFailed | allow | snapshot | egressSnapshot =>
    simp only [handlerStep, hpc] at h
    cases h
    constructor
    exact hpc
  | convert n m =>
    simp only [handlerStep, hpc] at h
    split at h <;> cases h
    · exact .invalid n m _ hpc
    · exact .converted n m _ hpc ‹_›
  | submit n request =>
    simp only [handlerStep, hpc] at h
    split at h <;> cases h
    · exact .refused n request _ hpc
    · exact .admitted n request _ _ _ hpc
  | register n =>
    simp only [handlerStep, hpc] at h
    split at h
    · cases h
      exact .registered n hpc ‹_›
    · next hfailed =>
      rcases s.egress.registerRequest_cases (s.records n).requestId with
        ⟨-, hsame⟩ | ⟨-, -, -, -, -, hok⟩
      · rw [hsame] at h
        cases h
        exact .unregistered n _ hpc
      · exact absurd (by rw [hok]; rfl) hfailed
  | emplace n =>
    simp only [handlerStep, hpc] at h
    split at h <;> cases h
    · exact .known n _ hpc ‹_›
    · exact .emplaced n hpc ‹_›
  | spawn n =>
    simp only [handlerStep, hpc] at h
    split at h <;> cases h
    · exact .spawned n hpc
    · exact .unspawned n _ hpc
  | reject n status =>
    simp only [handlerStep, hpc] at h
    split at h
    · cases h
      exact .rejected n status _ hpc rfl ‹_›
    · next hcode =>
      rw [enqueueControl_refused hcode] at h
      cases h
      exact .unrejected n status _ hpc hcode
  | accept n =>
    simp only [handlerStep, hpc] at h
    split at h
    · cases h
      exact .accepted n _ hpc rfl ‹_›
    · next hcode =>
      rw [enqueueControl_refused hcode] at h
      cases h
      exact .unaccepted n _ hpc hcode
  | acceptCancel n status pc =>
    obtain ⟨c, hc⟩ := s.cancelStep_cancelled n true env.cancelThrows pc
    simp only [handlerStep, hpc, hc] at h
    split at h <;> cases h <;> exact .acceptCancel n status pc c _ hpc (Prod.ext hc ‹_›)
  | lookup requestId =>
    simp only [handlerStep, hpc] at h
    split at h <;> cases h
    · exact .unknown requestId hpc
    · exact .found requestId _ hpc ‹_›
  | cancel n pc =>
    obtain ⟨c, hc⟩ := s.cancelStep_cancelled n true env.cancelThrows pc
    simp only [handlerStep, hpc, hc] at h
    split at h <;> cases h <;> exact .cancel n pc c _ hpc (Prod.ext hc ‹_›)
  | stats m =>
    simp only [handlerStep, hpc] at h
    split at h
    · cases h
      exact .stats m hpc
    · next hcode =>
      rw [enqueueControl_refused hcode] at h
      cases h
      exact .noStats m _ hpc hcode
  | shutdown status resume =>
    simp only [handlerStep, hpc] at h
    rcases s.enterShutdown_cases status with ⟨-, _, _, he⟩ | ⟨hstop, _, _, he⟩ <;> rw [he] at h <;>
      cases h
    · exact .report status _ _ resume hpc
    · exact .enter status _ _ resume hpc hstop
  | shuttingDown resume =>
    simp only [handlerStep, hpc] at h
    split at h <;> cases h
    exact .resume resume hpc ‹_›
  | _ => simp [handlerStep, hpc] at h

theorem forward_move {d : TokenDelta} (hpc : s.pumps n = .forward d)
    (h : s.pumpStep n env = some s') : s.PumpMove n env s' := by
  simp only [pumpStep, hpc] at h
  rcases s.egress.enqueueDelta_cases (s.records n).requestId (.tokenDelta (wireDelta s.config d)) with
    ⟨r, hcode, he⟩ | ⟨_, _, _, -, -, -, -, -, -, -, -, -, -, he⟩
  · rw [he] at h
    cases hr : r.code with
    | enqueued => exact absurd hr hcode
    | requestFull | sessionFull =>
      simp only [hr] at h
      cases h
      exact .dropped d hpc
    | stopped =>
      simp only [hr] at h
      cases h
      exact .forwardStopped d hpc
    | _ =>
      simp only [hr] at h
      cases h
      exact .forwardFailed d _ hpc (by rw [he, hr]; decide)
  · rw [he] at h
    cases h
    have hmove : s.PumpMove n env _ := .forwarded d _ hpc rfl (by rw [he]; rfl)
    rw [he] at hmove
    exact hmove

theorem enqueueTerminal_move {wire : Ipc.Terminal} (hpc : s.pumps n = .enqueueTerminal wire)
    (h : s.pumpStep n env = some s') : s.PumpMove n env s' := by
  simp only [pumpStep, hpc] at h
  rcases s.egress.enqueueTerminal_cases (s.records n).requestId (.terminal wire) with
    ⟨r, hcode, he⟩ | ⟨_, _, _, -, -, -, -, -, -, -, -, -, he⟩
  · rw [he] at h
    cases hr : r.code with
    | enqueued => exact absurd hr hcode
    | stopped =>
      simp only [hr] at h
      cases h
      exact .terminalStopped wire hpc
    | _ =>
      simp only [hr] at h
      cases h
      exact .terminalFailed wire _ hpc (by rw [he, hr]; decide)
  · rw [he] at h
    cases h
    have hmove : s.PumpMove n env _ := .finished wire _ hpc rfl (by rw [he]; rfl)
    rw [he] at hmove
    exact hmove

theorem pumpStep_move (h : s.pumpStep n env = some s') : s.PumpMove n env s' := by
  cases hpc : s.pumps n with
  | waitGate =>
    simp only [pumpStep, hpc] at h
    split_ifs at h with habandoned hallowed <;> cases h
    · exact .abandoned hpc
    · exact .allowed hpc hallowed
  | checkStop | countBackpressure | markBackpressure | terminal | markTerminal | finish =>
    simp only [pumpStep, hpc] at h
    cases h
    constructor
    exact hpc
  | pop =>
    simp only [pumpStep, hpc] at h
    cases h
    have htake : s.PumpMove n env _ := .take hpc
    rcases hr : (s.gates n).state.mailbox.waitPop.1 with (d | t) | _ | _ <;>
    · rw [hr] at htake
      exact htake
  | delta d =>
    simp only [pumpStep, hpc] at h
    cases h
    cases hflag : (s.records n).cancelRequested with
    | true => exact .skip d hpc hflag
    | false => exact .pass d hpc hflag
  | forward => exact forward_move hpc h
  | cancelling pc =>
    obtain ⟨c, hc⟩ := s.cancelStep_cancelled n false env.cancelThrows pc
    simp only [pumpStep, hpc, hc] at h
    split at h <;> cases h <;> exact .cancelling pc c _ hpc (Prod.ext hc ‹_›)
  | enqueueTerminal => exact enqueueTerminal_move hpc h
  | shutdown status resume =>
    simp only [pumpStep, hpc] at h
    rcases s.enterShutdown_cases status with ⟨-, _, _, he⟩ | ⟨hstop, _, _, he⟩ <;> rw [he] at h <;>
      cases h
    · exact .report status _ _ resume hpc
    · exact .enter status _ _ resume hpc hstop
  | shuttingDown resume =>
    simp only [pumpStep, hpc] at h
    split at h <;> cases h
    exact .resume resume hpc ‹_›
  | sessionStop =>
    simp only [pumpStep, hpc] at h
    obtain ⟨t, ht, rfl⟩ := Option.map_eq_some_iff.mp h
    obtain ⟨hidle, rfl⟩ := joinReader_cases ht
    exact .join hpc hidle
  | _ => simp [pumpStep, hpc] at h

end Threads

end Bridge
end KimServing

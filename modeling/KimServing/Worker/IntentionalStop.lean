import KimServing.Worker.PumpLabels
import KimServing.Worker.Registration
import KimServing.Worker.ShutdownCoverage

/-! # A stop that nothing else disturbs

When the peer stays and sends what it may, every message encodes and finds room, and
no call of the runtime throws, nobody but the caller of `stop` ends the session. Two
threads can still be overtaken by the stop: the handler may queue its answer after the
egress was stopped, and the writer may send after the session was stopped. Both
report the refusal as an error of the bridge. In every run where neither happens the
stop returns an ok status.
-/
namespace KimServing
open Library Ipc

def sessionClosed : Status := unavailable "IPC session is closed"

def StopperPc.stopsSession : StopperPc → Bool
  | .notCalled | .shutdown | .shuttingDown => false
  | _ => true

def Ipc.Message.Expected (workerEpoch : ℕ) : Message → Prop
  | .submit _ => True
  | .cancel m | .health m => m.workerEpoch = workerEpoch
  | _ => False

namespace Bridge

def answer? (s : Bridge) : Option Message :=
  match s.handler with
  | .reject n status => some (wireRejected s.config (s.records n).requestId status)
  | .accept n => some (wireAccepted s.config (s.records n).requestId)
  | .stats m => some (.stats m)
  | _ => none

def event? (s : Bridge) (n : ℕ) : Option Message :=
  match s.pumps n with
  | .forward d => some (.tokenDelta (wireDelta s.config d))
  | .enqueueTerminal wire => some (.terminal wire)
  | _ => none

/-- The stop does not overtake the handler before an answer or the writer before a send. -/
def NotOvertaken (s : Bridge) : BridgeAction → Prop
  | .handler _ => ∀ _ ∈ s.answer?, s.egress.accepting = true
  | .writer env => env.sendStatus.isOk = true
  | _ => True

section Guards
variable [JsonLib]

/-- A message has a frame, and a Terminal one that fits its reserve. -/
def Encodes (s : Bridge) (m : Message) : Prop :=
  ∃ sized ∈ (sizeMessage m s.egress.config.maxFramePayloadBytes).toOption,
    m.isTerminal = true → sized.frameBytes ≤ s.egress.config.terminalReserveBytes

/-- Nothing goes wrong in this step, apart from what a stop may bring with it: a send
fails only when the session was stopped, and the session closes only then. -/
def Untroubled (s : Bridge) : BridgeAction → Prop
  | .receive m => s.Conforming (.receive m) ∧ m.Expected s.config.workerEpoch
  | .handler env => env.cancelThrows = false ∧
      ∀ m ∈ s.answer?, s.Encodes m ∧ (s.egress.enqueueControl m).1.code ≠ .controlFull
  | .pump n env => env.cancelThrows = false ∧ ∀ m ∈ s.event? n, s.Encodes m ∧
      (s.egress.enqueueDelta (s.records n).requestId m).1.code ≠ .sessionFull
  | .backend _ call => call ≠ .close
  | .writer env => env.sendStatus.isOk = true ∨
      s.stopper.stopsSession = true ∧ env.sendStatus = sessionClosed
  | .monitor env => env.closeStatus.code = .timeout ∨
      s.stopper.stopsSession = true ∧ env.closeStatus.isOk = true
  | .stopper _ => True
  | .shutdown env => env.cancelThrows = false

end Guards

/-! ## Where the threads stand -/

end Bridge

def HandlerPc.Calm (workerEpoch : ℕ) : HandlerPc → Prop
  | .reap m => m.Expected workerEpoch
  | .acceptFailed _ _ | .acceptCancel _ _ _ | .shutdown _ _ | .shuttingDown _ => False
  | _ => True

def PumpPc.Calm : PumpPc → Prop
  | .shutdown _ _ | .shuttingDown _ | .sessionStop => False
  | _ => True

def WriterPc.Calm : WriterPc → Prop
  | .shutdown _ | .shuttingDown | .sessionStop => False
  | _ => True

def MonitorPc.Calm (stopRequested : Bool) : MonitorPc → Prop
  | .checkClosed => stopRequested = true
  | .shutdown _ | .shuttingDown => False
  | _ => True

def StopperPc.Calm (stopRequested : Bool) : StopperPc → Prop
  | .notCalled | .shutdown => True
  | .returned status => stopRequested = true ∧ status.isOk = true
  | _ => stopRequested = true

theorem MonitorPc.Calm.stop {pc : MonitorPc} {stopRequested : Bool} (h : pc.Calm stopRequested) :
    pc.Calm true := by
  cases pc with
  | checkClosed => rfl
  | _ => exact h

theorem StopperPc.Calm.requested {pc : StopperPc} {stopRequested : Bool}
    (h : pc.Calm stopRequested) (hstops : pc.stopsSession = true) : stopRequested = true := by
  cases pc with
  | notCalled | shutdown => cases hstops
  | returned => exact h.1
  | _ => exact h

namespace Bridge

variable {env : Environment} {m : Message}

/-- No thread is about to report an error. -/
structure Calm (s : Bridge) : Prop where
  status : s.terminalStatus.isOk = true
  handler : s.handler.Calm s.config.workerEpoch
  pumps : ∀ n, (s.pumps n).Calm
  writer : s.writer.Calm
  monitor : s.monitor.Calm s.stopRequested
  stopper : s.stopper.Calm s.stopRequested
  shutdown : ∀ owned, s.shutdown ≠ .threw owned

theorem initial_calm (c : RuntimeBridgeConfig) (e : SessionEgress) : (initial c e).Calm :=
  ⟨rfl, trivial, fun _ => trivial, trivial, trivial, trivial, nofun⟩

variable {s s' : Bridge} {n : ℕ}

theorem Calm.setPump (hc : s.Calm) {pc : PumpPc} (hpc : pc.Calm) : (s.setPump n pc).Calm := by
  refine { hc with pumps := fun k => ?_ }
  by_cases hk : k = n
  · subst hk
    simpa [Bridge.setPump] using hpc
  · simpa [Bridge.setPump, hk] using hc.pumps k

theorem cancelStep_returns {countCancel : Bool} {pc : CancelPc} {outcome : CancelOutcome}
    {t : Bridge} (h : s.cancelStep n countCancel false pc = (t, outcome)) : outcome ≠ .threw := by
  rcases s.cancelStep_cases n countCancel false pc with
    ⟨-, -, hc⟩ | ⟨-, -, hc⟩ | ⟨-, -, hc⟩ | ⟨-, -, hc⟩ | ⟨-, hc⟩ | ⟨-, hc⟩ <;>
  · cases h.symm.trans hc
    simp

theorem receive_calm (hc : s.Calm) (hm : m.Expected s.config.workerEpoch)
    (h : s.receive m = some s') : s'.Calm := by
  obtain ⟨-, ⟨submit, -, rfl⟩ | ⟨-, rfl⟩⟩ := receive_cases h
  · exact { hc with handler := trivial }
  · exact { hc with handler := hm }

theorem writerStep_calm (hc : s.Calm) (hsend : env.sendStatus.isOk = true)
    (h : s.writerStep env = some s') : s'.Calm := by
  have hwriter := hc.writer
  cases writerStep_move h with
  | checkStop | checkSend =>
    refine { hc with writer := ?_ }
    dsimp only
    split <;> trivial
  | failed m hpc hfailed => exact absurd hsend hfailed
  | enter _ _ _ hpc | report _ _ _ hpc | resume hpc | join hpc =>
    rw [hpc] at hwriter
    exact hwriter.elim
  | _ => exact { hc with writer := trivial }

theorem monitorStep_calm (hc : s.Calm) (hclose : env.closeStatus.code = .timeout ∨
      s.stopper.stopsSession = true ∧ env.closeStatus.isOk = true)
    (h : s.monitorStep env = some s') : s'.Calm := by
  have hmonitor := hc.monitor
  cases monitorStep_move h with
  | timeout => exact { hc with monitor := trivial }
  | closed hpc hcode =>
    -- The session closes only after it was stopped, and then the stop was requested.
    obtain ⟨hstops, -⟩ := hclose.resolve_left hcode
    exact { hc with monitor := hc.stopper.requested hstops }
  | failed hpc hcode hfailed => exact absurd (hclose.resolve_left hcode).2 hfailed
  | checkTimeout =>
    refine { hc with monitor := ?_ }
    dsimp only
    split <;> trivial
  | checkClosed hpc =>
    rw [hpc] at hmonitor
    refine { hc with monitor := ?_ }
    dsimp only
    rw [if_pos (show s.stopRequested = true from hmonitor)]
    trivial
  | enter _ _ _ hpc | report _ _ _ hpc | resume hpc =>
    rw [hpc] at hmonitor
    exact hmonitor.elim

theorem stopperStep_calm (hc : s.Calm) (h : s.stopperStep env = some s') : s'.Calm := by
  have hstopper := hc.stopper
  cases stopperStep_move h with
  | call => exact { hc with stopper := trivial }
  | enter => exact { hc with monitor := hc.monitor.stop, stopper := rfl, shutdown := by simp }
  | report hpc hstop => exact { hc with stopper := hstop }
  | join hpc =>
    rw [hpc] at hstopper
    exact { hc with handler := trivial, stopper := hstopper }
  | returns hpc =>
    rw [hpc] at hstopper
    exact { hc with stopper := ⟨hstopper, hc.status⟩ }
  | _ =>
    rw [‹s.stopper = _›] at hstopper
    exact { hc with stopper := hstopper }

theorem shutdownStep_calm (hc : s.Calm) (hthrows : env.cancelThrows = false)
    (h : s.shutdownStep env = some s') : s'.Calm := by
  cases shutdownStep_move h with
  | enter owned _ _ hpc | report owned _ _ hpc => exact absurd hpc (hc.shutdown owned)
  | cancelling k pc owned c outcome hpc hcancel =>
    rw [hthrows] at hcancel
    refine { hc with shutdown := ?_ }
    cases outcome with
    | threw => exact absurd rfl (cancelStep_returns hcancel)
    | _ => simp
  | _ => exact { hc with shutdown := by simp }

/-! ## The pumps -/

theorem RegInv.pump_registered (hs : s.Inv) (hr : s.RegInv)
    (hwaiting : (s.pumps n).stage ≠ .waiting) (hclosed : (s.pumps n).stage ≠ .closed)
    (hopen : s.egress.accepting = true) :
    s.egress.registration (s.records n).requestId = some false := by
  obtain ⟨hlast, forwarded, hword⟩ := hs.pump_word hwaiting hclosed
  rw [(hr.newest hopen _ n hlast).written (by rw [hword]; exact List.cons_ne_nil _ _), hword]
  exact wordRegistration_acceptedWord _ _ _ _

section Pumps
variable [JsonLib]

theorem enqueueDelta_answer {e : SessionEgress} {d : Ipc.TokenDelta} {sized : SizedMessage}
    (hsize : sizeMessage (.tokenDelta d) e.config.maxFramePayloadBytes = .ok sized)
    (hregistered : e.accepting = true → e.registration d.requestId = some false) :
    (e.enqueueDelta d.requestId (.tokenDelta d)).1.code ∈
      [SessionEgressEnqueueCode.enqueued, .requestFull, .sessionFull, .stopped] := by
  simp only [SessionEgress.enqueueDelta, ne_eq, not_true_eq_false, if_false, hsize]
  cases haccepting : e.accepting with
  | false => simp [enqueueFailure]
  | true =>
    obtain ⟨queue, hq, hopen⟩ :=
      SessionEgress.registration_eq_some.mp (hregistered haccepting)
    simp only [Bool.true_eq_false, if_false, hq, hopen, Bool.false_eq_true]
    split_ifs <;> simp [enqueueFailure, Ipc.enqueued]

theorem enqueueTerminal_answer {e : SessionEgress} (he : EgressInv e) {w : Terminal}
    {sized : SizedMessage}
    (hsize : sizeMessage (.terminal w) e.config.maxFramePayloadBytes = .ok sized)
    (hreserve : sized.frameBytes ≤ e.config.terminalReserveBytes)
    (hregistered : e.accepting = true → e.registration w.requestId = some false) :
    (e.enqueueTerminal w.requestId (.terminal w)).1.code ∈
      [SessionEgressEnqueueCode.enqueued, .stopped] := by
  cases haccepting : e.accepting with
  | false =>
    simp [SessionEgress.enqueueTerminal, hsize, haccepting, enqueueFailure]
  | true =>
    obtain ⟨queue, hq, hopen⟩ :=
      SessionEgress.registration_eq_some.mp (hregistered haccepting)
    rw [he.enqueueTerminal_enqueued haccepting hq hopen rfl hsize hreserve]
    simp [Ipc.enqueued]

theorem Encodes.sized {m : Message} (h : s.Encodes m) :
    ∃ sized, sizeMessage m s.egress.config.maxFramePayloadBytes = .ok sized ∧
      (m.isTerminal = true → sized.frameBytes ≤ s.egress.config.terminalReserveBytes) := by
  obtain ⟨sized, hmem, hreserve⟩ := h
  refine ⟨sized, ?_, hreserve⟩
  cases hsize : sizeMessage m s.egress.config.maxFramePayloadBytes with
  | error =>
    rw [hsize] at hmem
    cases hmem
  | ok =>
    rw [hsize] at hmem
    cases hmem
    rfl

theorem pumpStep_calm (hs : s.Inv) (hr : s.RegInv) (hl : s.LabelInv) (hc : s.Calm)
    {env : Environment} (hthrows : env.cancelThrows = false)
    (hencodes : ∀ m ∈ s.event? n, s.Encodes m) (h : s.pumpStep n env = some s') : s'.Calm := by
  have hpump := hc.pumps n
  have hlabel := hl.pumps n
  cases pumpStep_move h with
  | enter _ _ _ _ hpc | report _ _ _ _ hpc | resume _ hpc | join hpc =>
    rw [hpc] at hpump
    exact hpump.elim
  | checkStop =>
    refine hc.setPump ?_
    split <;> trivial
  | take hpc =>
    -- The mailbox of a pump that polls is open, so the pump does not find it closed.
    have hopen := hl.opened n (Or.inl (by rw [hpc]; simp [PumpPc.polls, PumpPc.stage]))
    obtain ⟨-, -, hnot, -⟩ := (hl.gates n (hl.started n (by rw [hpc]; simp))).pop hopen
    refine Calm.setPump (s := s.setGate n (s.gates n).popStep) { hc with } ?_
    rcases hresult : (s.gates n).state.mailbox.waitPop.1 with (d | t) | _ | _
    · trivial
    · trivial
    · trivial
    · exact absurd hresult hnot
  | forwardFailed d error hpc hcode =>
    rw [hpc] at hlabel
    have hid : (wireDelta s.config d).requestId = (s.records n).requestId := hlabel
    obtain ⟨sized, hsize, -⟩ :=
      (hencodes (.tokenDelta (wireDelta s.config d)) (by simp [event?, hpc])).sized
    have hanswer := enqueueDelta_answer hsize (fun hopen => by
      rw [hid]
      exact hr.pump_registered hs (by rw [hpc]; simp [PumpPc.stage])
        (by rw [hpc]; simp [PumpPc.stage]) hopen)
    rw [hid] at hanswer
    exact absurd hanswer hcode
  | terminalFailed wire error hpc hcode =>
    rw [hpc] at hlabel
    have hid : wire.requestId = (s.records n).requestId := hlabel
    obtain ⟨sized, hsize, hreserve⟩ := (hencodes (.terminal wire) (by simp [event?, hpc])).sized
    have hanswer := enqueueTerminal_answer hs.view.inv hsize (hreserve rfl) (fun hopen => by
      rw [hid]
      exact hr.pump_registered hs (by rw [hpc]; simp [PumpPc.stage])
        (by rw [hpc]; simp [PumpPc.stage]) hopen)
    rw [hid] at hanswer
    exact absurd hanswer hcode
  | cancelling pc c outcome hpc hcancel =>
    rw [hthrows] at hcancel
    refine Calm.setPump (s := s.cancelled c) { hc with } ?_
    cases outcome with
    | threw => exact absurd rfl (cancelStep_returns hcancel)
    | _ => trivial
  | _ =>
    refine Calm.setPump ?_ (by trivial)
    exact { hc with }

end Pumps

/-! ## The handler -/

theorem answer?_control (hm : m ∈ s.answer?) : SessionEgress.isControl m = true := by
  unfold answer? at hm
  split at hm <;> cases hm <;> rfl

theorem dispatch_calm (hm : m.Expected s.config.workerEpoch) :
    (s.dispatch m).Calm s.config.workerEpoch := by
  cases m with
  | submit => trivial
  | cancel m | health m =>
    have hepoch : m.workerEpoch = s.config.workerEpoch := hm
    rw [dispatch, if_neg (not_not.mpr hepoch)]
    trivial
  | _ => exact hm.elim

section Handler
variable [JsonLib]

theorem enqueueControl_answer {e : SessionEgress} {m : Message} {sized : SizedMessage}
    (hm : SessionEgress.isControl m = true)
    (hsize : sizeMessage m e.config.maxFramePayloadBytes = .ok sized)
    (haccepting : e.accepting = true) (hroom : (e.enqueueControl m).1.code ≠ .controlFull) :
    (e.enqueueControl m).1.code = .enqueued := by
  simp only [SessionEgress.enqueueControl, hm, Bool.true_eq_false, if_false, hsize,
    haccepting] at hroom ⊢
  split_ifs at hroom ⊢
  · exact absurd rfl hroom
  · rfl

theorem handlerStep_calm (hc : s.Calm) {env : Environment} (hthrows : env.cancelThrows = false)
    (hqueued : ∀ m ∈ s.answer?, (s.egress.enqueueControl m).1.code = .enqueued)
    (h : s.handlerStep env = some s') : s'.Calm := by
  have hhandler := hc.handler
  cases handlerStep_move h with
  | acceptFailed _ _ hpc | acceptCancel _ _ _ _ _ hpc | enter _ _ _ _ hpc | report _ _ _ _ hpc
  | resume _ hpc =>
    rw [hpc] at hhandler
    exact hhandler.elim
  | reap m hpc =>
    rw [hpc] at hhandler
    exact { hc with handler := dispatch_calm hhandler }
  | spawned k =>
    have hstarted : (s.setPump k .waitGate).Calm := hc.setPump trivial
    exact { hstarted with handler := trivial }
  | unrejected _ _ _ hpc hcode | unaccepted _ _ hpc hcode | noStats _ _ hpc hcode =>
    exact absurd (hqueued _ (by simp [answer?, hpc])) hcode
  | cancel k pc c outcome hpc hcancel =>
    rw [hthrows] at hcancel
    refine { hc with handler := ?_ }
    cases outcome with
    | threw => exact absurd rfl (cancelStep_returns hcancel)
    | _ => trivial
  | _ => exact { hc with handler := trivial }

end Handler

/-! ## Whole runs -/

structure CalmInv (s : Bridge) : Prop where
  inv : s.Inv
  registrations : s.RegInv
  labels : s.LabelInv
  calm : s.Calm

section Runs
variable [JsonLib]

variable {a : BridgeAction}

theorem Untroubled.conforming (h : s.Untroubled a) : s.Conforming a := by
  cases a with
  | receive => exact h.1
  | _ => trivial

theorem step_calm (hs : s.CalmInv) (hfair : s.Untroubled a) (hcalm : s.NotOvertaken a)
    (h : s.step a = some s') : s'.Calm := by
  obtain ⟨hinv, hregistrations, hlabels, hc⟩ := hs
  cases a with
  | receive => exact receive_calm hc hfair.2 h
  | handler =>
    refine handlerStep_calm hc hfair.1 (fun m hm => ?_) h
    obtain ⟨hencodes, hroom⟩ := hfair.2 m hm
    obtain ⟨sized, hsize, -⟩ := hencodes.sized
    exact enqueueControl_answer (answer?_control hm) hsize (hcalm m hm) hroom
  | pump =>
    exact pumpStep_calm hinv hregistrations hlabels hc hfair.1 (fun m hm => (hfair.2 m hm).1) h
  | backend =>
    obtain ⟨-, g, -, rfl⟩ := backend_cases h
    exact { hc with }
  | writer => exact writerStep_calm hc hcalm h
  | monitor => exact monitorStep_calm hc hfair h
  | stopper => exact stopperStep_calm hc h
  | shutdown => exact shutdownStep_calm hc hfair h

theorem step_calmInv (hs : s.CalmInv) (hfair : s.Untroubled a) (hcalm : s.NotOvertaken a)
    (h : s.step a = some s') : s'.CalmInv where
  inv := hs.inv.of_simulates (step_simulates hs.inv hfair.conforming h)
  registrations := step_regInv hs.inv hs.registrations hfair.conforming h
  labels := step_labelInv hs.inv hs.labels (fun n ha => by subst ha; exact hfair rfl) h
  calm := step_calm hs hfair hcalm h

end Runs

end Bridge

/-- In every run where nothing else goes wrong, and where the stop overtakes neither an
answer of the handler nor a send of the writer, the bridge records no error, and `stop`
returns an ok status. -/
theorem intentional_stop_ok [JsonLib] (c : RuntimeBridgeConfig) (e : SessionEgress)
    (actions : List BridgeAction) (s : Bridge)
    (he : SessionEgress.create c.makeEgressConfig = .ok e)
    (hfair : Along Bridge.step Bridge.Untroubled (.initial c e) actions)
    (hcalm : Along Bridge.step Bridge.NotOvertaken (.initial c e) actions)
    (hrun : exec Bridge.step (.initial c e) actions = some s) :
    s.terminalStatus.isOk = true ∧
      ∀ status, s.stopper = .returned status → status.isOk = true := by
  have hs : s.CalmInv := exec_invariant
    (fun _ _ _ ht hg hstep => Bridge.step_calmInv ht hg.1 hg.2 hstep)
    ⟨Bridge.initial_inv he, Bridge.initial_regInv he, Bridge.initial_labelInv c e,
      Bridge.initial_calm c e⟩ (hfair.and hcalm) hrun
  refine ⟨hs.calm.status, fun status hstatus => ?_⟩
  have hstopper := hs.calm.stopper
  rw [hstatus] at hstopper
  exact hstopper.2

instance Ipc.Message.decidableExpected (workerEpoch : ℕ) :
    ∀ m : Message, Decidable (m.Expected workerEpoch)
  | .submit _ => isTrue trivial
  | .cancel m | .health m => inferInstanceAs (Decidable (m.workerEpoch = workerEpoch))
  | .hello _ | .helloAck _ | .accepted _ | .rejected _ | .tokenDelta _ | .terminal _
  | .stats _ => isFalse id

namespace Bridge

instance decidableReceive (s : Bridge) :
    ∀ m : Message, Decidable (s.Conforming (.receive m))
  | .submit m => inferInstanceAs (Decidable (s.ids.count m.requestId ≤ finals m.requestId s.popped))
  | .cancel _ | .health _ | .hello _ | .helloAck _ | .accepted _ | .rejected _
  | .tokenDelta _ | .terminal _ | .stats _ => isTrue trivial

instance decidableNotOvertaken (s : Bridge) : ∀ a : BridgeAction, Decidable (s.NotOvertaken a)
  | .handler _ => inferInstanceAs (Decidable (∀ _ ∈ s.answer?, s.egress.accepting = true))
  | .writer env => inferInstanceAs (Decidable (env.sendStatus.isOk = true))
  | .receive _ | .pump _ _ | .backend _ _ | .monitor _ | .stopper _ | .shutdown _ => isTrue trivial

variable [JsonLib]

instance decidableEncodes (s : Bridge) (m : Message) : Decidable (s.Encodes m) :=
  inferInstanceAs (Decidable (∃ sized ∈ (sizeMessage m _).toOption, _ → _))

instance decidableUntroubled (s : Bridge) : ∀ a : BridgeAction, Decidable (s.Untroubled a)
  | .receive m =>
    inferInstanceAs (Decidable (s.Conforming (.receive m) ∧ m.Expected s.config.workerEpoch))
  | .handler env => inferInstanceAs (Decidable (env.cancelThrows = false ∧
      ∀ m ∈ s.answer?, s.Encodes m ∧ (s.egress.enqueueControl m).1.code ≠ .controlFull))
  | .pump n env => inferInstanceAs (Decidable (env.cancelThrows = false ∧ ∀ m ∈ s.event? n,
      s.Encodes m ∧ (s.egress.enqueueDelta (s.records n).requestId m).1.code ≠ .sessionFull))
  | .backend _ call => inferInstanceAs (Decidable (call ≠ .close))
  | .writer env => inferInstanceAs (Decidable (env.sendStatus.isOk = true ∨
      s.stopper.stopsSession = true ∧ env.sendStatus = sessionClosed))
  | .monitor env => inferInstanceAs (Decidable (env.closeStatus.code = .timeout ∨
      s.stopper.stopsSession = true ∧ env.closeStatus.isOk = true))
  | .stopper _ => isTrue trivial
  | .shutdown env => inferInstanceAs (Decidable (env.cancelThrows = false))

end Bridge

def StopperPc.returned? : StopperPc → Option Status
  | .returned status => some status
  | _ => none

theorem StopperPc.returned?_eq {pc : StopperPc} {status : Status} (h : pc.returned? = some status) :
    pc = .returned status := by
  cases pc <;> cases h
  rfl

def probing : List BridgeAction :=
  [.receive (.health { workerEpoch := 1, probeId := 3 }), .handler {}, .handler {}, .handler {}]

def beginStop : List BridgeAction := [.stopper {}, .stopper {}, .shutdown {}, .shutdown {}]

def endStop : List BridgeAction :=
  [.stopper {}, .stopper {}, .monitor { closeStatus := ⟨.timeout, []⟩ }, .monitor {}, .stopper {},
    .writer {}, .stopper {}, .stopper {}, .stopper {}, .stopper {}, .stopper {}]

/-- The probe is answered, and then the bridge is stopped. -/
theorem intentional_stop_ok_answered :
    ∃ s status, exec (@Bridge.step plainJson) ordinaryBridge
        (probing ++ [.handler {}] ++ beginStop ++ endStop) = some s ∧
      s.stopper = .returned status ∧ status.isOk = true ∧ s.terminalStatus.isOk = true := by
  have hrun : Along (@Bridge.step plainJson) (@Bridge.Untroubled plainJson)
        ordinaryBridge (probing ++ [.handler {}] ++ beginStop ++ endStop) ∧
      Along (@Bridge.step plainJson) Bridge.NotOvertaken
        ordinaryBridge (probing ++ [.handler {}] ++ beginStop ++ endStop) ∧
      (exec (@Bridge.step plainJson) ordinaryBridge
        (probing ++ [.handler {}] ++ beginStop ++ endStop)).any
          (fun s => s.stopper.returned?.isSome) = true := by
    decide +kernel
  obtain ⟨hfair, hcalm, hany⟩ := hrun
  obtain ⟨s, hs, hreturned⟩ := (Option.any_eq_true _ _).mp hany
  obtain ⟨status, hstatus⟩ := Option.isSome_iff_exists.mp hreturned
  have hstopper := StopperPc.returned?_eq hstatus
  obtain ⟨hok, hreturns⟩ := @intentional_stop_ok plainJson _ _ _ s rfl hfair hcalm hs
  exact ⟨s, status, hs, hstopper, hreturns status hstopper, hok⟩

/-- The egress is stopped while the handler is on its way to answer the probe. Nothing
else goes wrong, and yet the refusal of the answer is what `stop` returns. -/
theorem intentional_stop_reported :
    ∃ s, Along (@Bridge.step plainJson) (@Bridge.Untroubled plainJson) ordinaryBridge
        (probing ++ beginStop ++ [.handler {}, .handler {}] ++ endStop) ∧
      exec (@Bridge.step plainJson) ordinaryBridge
        (probing ++ beginStop ++ [.handler {}, .handler {}] ++ endStop) = some s ∧
      s.stopper = .returned (unavailable "SessionEgress is stopped") ∧
      s.terminalStatus = unavailable "SessionEgress is stopped" := by
  have hrun : Along (@Bridge.step plainJson) (@Bridge.Untroubled plainJson) ordinaryBridge
        (probing ++ beginStop ++ [.handler {}, .handler {}] ++ endStop) ∧
      (exec (@Bridge.step plainJson) ordinaryBridge
        (probing ++ beginStop ++ [.handler {}, .handler {}] ++ endStop)).any (fun s =>
          s.stopper.returned? = some (unavailable "SessionEgress is stopped") ∧
          s.terminalStatus = unavailable "SessionEgress is stopped") = true := by
    decide +kernel
  obtain ⟨hfair, hany⟩ := hrun
  obtain ⟨s, hs, hstatus⟩ := (Option.any_eq_true _ _).mp hany
  obtain ⟨hreturned, hterminal⟩ := of_decide_eq_true hstatus
  exact ⟨s, hfair, hs, StopperPc.returned?_eq hreturned, hterminal⟩

end KimServing

import KimServing.Worker.BridgeSteps
import KimServing.Worker.EgressView
import KimServing.Worker.LaneInvariant

/-! # The bridge refines the request lanes

The lanes of a bridge are read off its records, mailboxes, pumps and egress. Each
step of a thread either leaves them alone or is one step of the lanes, so what
the lanes guarantee holds in every interleaving of the threads.
-/
namespace KimServing
open Library Function PumpPc Ipc

def PumpPc.stage : PumpPc → Stage
  | .notStarted | .waitGate => .waiting
  | .checkStop | .pop => .polling
  | .delta d => .holding d
  | .forward d => .forwarding d
  | .countBackpressure | .markBackpressure | .cancelling _ => .dropping
  | .terminal _ | .enqueueTerminal _ => .ending
  | .shutdown _ .loop | .shuttingDown .loop => .polling
  | _ => .closed

def PumpPc.Plain (pc : PumpPc) : Prop :=
  pc ≠ .markTerminal ∧ pc ≠ .cancelling .count ∧ pc ≠ .cancelling .call

def HandlerPc.decision (ids : List ℕ) : HandlerPc → Option (ℕ × Bool)
  | .reap (.submit _) => some (ids.length - 1, false)
  | .convert n _ | .submit n _ | .register n | .emplace n | .spawn n | .spawnFailed n _ | .erase n _
  | .abandon n _ | .undo n _ | .countRejected n _ | .reject n _ | .accept n => some (n, false)
  | .allow n => some (n, true)
  | _ => none

namespace Bridge

variable {pc pc' : PumpPc} {env : Environment} {f : RequestRecord → RequestRecord}
  {m : Message} {r : RequestRecord} {word : List Message}

def lane (s : Bridge) (n : ℕ) : Lane where
  requestId := (s.records n).requestId
  gate := s.gates n
  stage := (s.pumps n).stage
  cancelled := (s.records n).cancelRequested
  allowed := (s.records n).forwardingAllowed
  enqueued := s.enqueued n
  delivered := s.delivered n

def toLanes (s : Bridge) : Lanes where
  lanes := s.lane
  ids := s.ids
  decision := s.handler.decision s.ids
  pending := s.egress.pending
  accepting := s.egress.accepting
  popped := s.popped

/-- A step of the bridge as the lanes see it. -/
def Refines (s s' : Bridge) : Prop :=
  s'.toLanes = s.toLanes ∨ s.toLanes.Step s.config s'.toLanes

/-- A pump marks its terminal after it has written it and is done then, and it
calls the runtime after it has set the cancel flag. -/
structure PumpOk (r : RequestRecord) (word : List Message) (pc : PumpPc) : Prop where
  marked : r.terminalEnqueued = true → pc.stage = .closed
  marking : r.terminalEnqueued = true ∨ pc = .markTerminal → word ≠ []
  cancelling : pc = .cancelling .count ∨ pc = .cancelling .call → r.cancelRequested = true

structure Inv (s : Bridge) : Prop where
  view : EgressView s.egress
  pumps : ∀ n, PumpOk (s.records n) (s.enqueued n) (s.pumps n)
  lanes : LanesInv s.config s.toLanes
  decision : DecisionInv s.config s.toLanes

/-- A step that the lanes can do as well, or do not see. -/
structure Simulates (s s' : Bridge) : Prop where
  config : s'.config = s.config
  view : EgressView s'.egress
  pumps : ∀ n, PumpOk (s'.records n) (s'.enqueued n) (s'.pumps n)
  refines : s.Refines s'

theorem Inv.of_simulates {s s' : Bridge} (hs : s.Inv) (h : s.Simulates s') : s'.Inv := by
  obtain ⟨hconfig, hview, hpumps, hsame | hstep⟩ := h
  · exact ⟨hview, hpumps, by rw [hconfig, hsame]; exact hs.lanes,
      by rw [hconfig, hsame]; exact hs.decision⟩
  · obtain ⟨hlanes, hdecision⟩ := hstep.preserves hs.lanes hs.decision
    exact ⟨hview, hpumps, by rw [hconfig]; exact hlanes, by rw [hconfig]; exact hdecision⟩

/-! ## How updates move the lanes -/

variable {s s' : Bridge} {n : ℕ}

theorem setPump_ok (h : ∀ k, PumpOk (s.records k) (s.enqueued k) (s.pumps k))
    (hpc : PumpOk (s.records n) (s.enqueued n) pc) (k : ℕ) :
    PumpOk ((s.setPump n pc).records k) ((s.setPump n pc).enqueued k) ((s.setPump n pc).pumps k) := by
  by_cases hk : k = n
  · subst hk
    simpa [setPump] using hpc
  · simpa [setPump, hk] using h k

theorem updateRecord_ok (h : ∀ k, PumpOk (s.records k) (s.enqueued k) (s.pumps k))
    (hf : PumpOk (f (s.records n)) (s.enqueued n) (s.pumps n)) (k : ℕ) :
    PumpOk ((s.updateRecord n f).records k) (s.enqueued k) (s.pumps k) := by
  by_cases hk : k = n
  · subst hk
    simpa [updateRecord] using hf
  · simpa [updateRecord, hk] using h k

theorem toLanes_setLane {l : Lane} (hself : s'.lane n = l)
    (hother : ∀ k, k ≠ n → s'.lane k = s.lane k) (hids : s'.ids = s.ids)
    (hdecision : s'.handler.decision s'.ids = s.handler.decision s.ids)
    (hegress : s'.egress = s.egress) (hpopped : s'.popped = s.popped) :
    s'.toLanes = s.toLanes.setLane n l := by
  have hlane : s'.lane = update s.lane n l := by
    funext k
    by_cases hk : k = n
    · subst hk
      rw [hself, update_self]
    · rw [hother k hk, update_of_ne hk]
  simp only [toLanes, Lanes.setLane, hlane, hids, hegress, hpopped]
  rw [← hids, hdecision, hids]

/-! ## Procedures that several threads run -/

theorem cancelFlag_toLanes (s : Bridge) (n : ℕ) :
    (s.updateRecord n (fun r => { r with cancelRequested := true })).toLanes =
      s.toLanes.setLane n { s.lane n with cancelled := true } := by
  refine toLanes_setLane (by simp [lane, updateRecord]) ?_ rfl rfl rfl rfl
  intro k hk
  simp [lane, updateRecord, hk]

theorem cancelFlag_ok (h : ∀ k, PumpOk (s.records k) (s.enqueued k) (s.pumps k)) (n k : ℕ) :
    PumpOk ((s.updateRecord n (fun r => { r with cancelRequested := true })).records k)
      (s.enqueued k) (s.pumps k) :=
  updateRecord_ok h ⟨(h n).marked, (h n).marking, fun _ => rfl⟩ k

theorem Inv.simulates_self (hs : s.Inv) : s.Simulates s := ⟨rfl, hs.view, hs.pumps, Or.inl rfl⟩

theorem cancelStep_simulates (hs : s.Inv) {countCancel throws : Bool} {pc : CancelPc}
    {outcome : CancelOutcome} {c : Cancelling}
    (hc : s.cancelStep n countCancel throws pc = (s.cancelled c, outcome)) :
    s.Simulates (s.cancelled c) := by
  rw [show s.cancelled c = (s.cancelStep n countCancel throws pc).1 by rw [hc]]
  rcases s.cancelStep_cases n countCancel throws pc with
    ⟨-, -, h⟩ | ⟨-, -, h⟩ | ⟨-, -, h⟩ | ⟨-, -, h⟩ | ⟨-, h⟩ | ⟨-, h⟩ <;> rw [h]
  · exact hs.simulates_self
  · exact hs.simulates_self
  · exact hs.simulates_self
  · refine ⟨rfl, hs.view, cancelFlag_ok hs.pumps n, Or.inr ?_⟩
    rw [cancelFlag_toLanes]
    exact .cancel n
  · exact { hs.simulates_self with }
  · exact { hs.simulates_self with }

theorem abandonForwarding_toLanes (s : Bridge) (n : ℕ) :
    (s.abandonForwarding n).toLanes = s.toLanes := by
  have hlane : (s.abandonForwarding n).lane = s.lane := by
    funext k
    by_cases hk : k = n
    · subst hk
      simp [lane, abandonForwarding, updateRecord]
    · simp [lane, abandonForwarding, updateRecord, hk]
  exact congrArg (fun l => { s.toLanes with lanes := l }) hlane

theorem abandonForwarding_simulates (hs : s.Inv) (n : ℕ) : s.Simulates (s.abandonForwarding n) :=
  ⟨rfl, hs.view, updateRecord_ok hs.pumps
    ⟨(hs.pumps n).marked, (hs.pumps n).marking, (hs.pumps n).cancelling⟩,
    Or.inl (abandonForwarding_toLanes s n)⟩

theorem shutdownStep_simulates (hs : s.Inv) (h : s.shutdownStep env = some s') :
    s.Simulates s' := by
  cases shutdownStep_move h with
  | stopEgress owned =>
    obtain ⟨hview, hstopped⟩ := hs.view.stop
    refine ⟨rfl, hview, hs.pumps, Or.inr ?_⟩
    have hpending : s.egress.stop.pending = fun _ => [] := funext (hview.pending_stopped hstopped)
    have hlanes : toLanes { s with egress := s.egress.stop, shutdown := .loop owned } =
        { s.toLanes with accepting := false, pending := fun _ => [] } := by
      rw [← hpending, ← hstopped]
      rfl
    rw [hlanes]
    exact .stop
  | pick => exact { abandonForwarding_simulates hs env.pick with }
  | cancelling k pc owned c outcome hpc hc => exact { cancelStep_simulates hs hc with }
  | _ => exact { hs.simulates_self with }

theorem exit_simulates (hs : s.Inv) (hidle : s.handler = .idle ∨ s.handler = .exited) :
    s.Simulates { s with handler := .exited } := by
  refine ⟨rfl, hs.view, hs.pumps, Or.inl ?_⟩
  have hdecision : s.handler.decision s.ids = none := by
    rcases hidle with hpc | hpc <;> rw [hpc] <;> rfl
  simp only [toLanes, hdecision]
  rfl

/-! ## The writer, the monitor and the caller of stop -/

theorem notePopped_lane (s : Bridge) (m : Message) (e : SessionEgress) :
    (s.notePopped m e).lane = s.toLanes.deliver m := by
  funext k
  unfold notePopped Lanes.deliver
  simp only [toLanes]
  cases m.requestId?.bind (fun requestId => lastIndex requestId s.ids) with
  | none => rfl
  | some n =>
    by_cases hk : k = n
    · subst hk
      simp [lane]
    · simp [lane, hk]

theorem writerStep_simulates (hs : s.Inv) (h : s.writerStep env = some s') : s.Simulates s' := by
  have hpop := hs.view.waitPop s.config.mailboxWaitTimeout
  cases writerStep_move h with
  | timeout hpc hr | stopped hpc hr =>
    rcases hpop with ⟨-, hsame⟩ | ⟨m, hm, -⟩
    · rw [hsame]
      exact { hs.simulates_self with }
    · cases hr.symm.trans hm
  | take m hpc hr =>
    rcases hpop with ⟨hnone, -⟩ | ⟨m', hm, hview, hbefore, hafter, hpending⟩
    · exact absurd hr (hnone m)
    · cases hr.symm.trans hm
      refine ⟨rfl, hview, hs.pumps, Or.inr ?_⟩
      have htake := Lanes.Step.take (c := s.config) (p := s.toLanes) m _ hbefore hpending
      have haccepting : s.toLanes.accepting =
          (s.egress.waitPop s.config.mailboxWaitTimeout).2.accepting := hbefore.trans hafter.symm
      rw [haccepting, ← s.notePopped_lane m (s.egress.waitPop s.config.mailboxWaitTimeout).2]
        at htake
      exact htake
  | join hpc hidle => exact { exit_simulates hs hidle with }
  | _ => exact { hs.simulates_self with }

theorem monitorStep_simulates (hs : s.Inv) (h : s.monitorStep env = some s') : s.Simulates s' := by
  cases monitorStep_move h with
  | _ => exact { hs.simulates_self with }

theorem stopperStep_simulates (hs : s.Inv) (h : s.stopperStep env = some s') : s.Simulates s' := by
  cases stopperStep_move h with
  | join hpc hidle => exact { exit_simulates hs hidle with }
  | joinPumps => exact { abandonForwarding_simulates hs env.pick with }
  | _ => exact { hs.simulates_self with }

/-! ## The client and the backend -/

/-- The client sends a request id again only after the last word about every
earlier Submit with that id. -/
def Conforming (s : Bridge) : BridgeAction → Prop
  | .receive (.submit m) => s.ids.count m.requestId ≤ finals m.requestId s.popped
  | _ => True

theorem openRecord_ok (h : ∀ k, PumpOk (s.records k) (s.enqueued k) (s.pumps k))
    {submit : Submit}
    (hstage : (s.pumps s.ids.length).stage = .waiting ∨ (s.pumps s.ids.length).stage = .closed)
    (k : ℕ) : PumpOk ((s.openRecord submit).records k) (s.enqueued k) (s.pumps k) := by
  by_cases hk : k = s.ids.length
  · subst hk
    simp only [openRecord, update_self]
    refine ⟨by simp, ?_, ?_⟩
    · rintro (hmarked | hpc)
      · cases hmarked
      · exact (h _).marking (Or.inr hpc)
    · rintro (hpc | hpc) <;> simp [hpc, stage] at hstage
  · simpa [openRecord, hk] using h k

theorem openRecord_toLanes (s : Bridge) (submit : Submit) :
    (s.openRecord submit).toLanes = s.toLanes.openLane submit.requestId := by
  have hlane : (s.openRecord submit).lane = (s.toLanes.openLane submit.requestId).lanes := by
    funext k
    by_cases hk : k = s.ids.length
    · subst hk
      simp [lane, openRecord, Lanes.openLane, Lanes.setLane, toLanes]
    · simp [lane, openRecord, Lanes.openLane, Lanes.setLane, toLanes, hk]
  simp only [toLanes, hlane]
  rfl

theorem receive_simulates (hs : s.Inv) (hclient : s.Conforming (.receive m))
    (h : s.receive m = some s') : s.Simulates s' := by
  obtain ⟨hpc, hcases⟩ := receive_cases h
  have hdecision : s.handler.decision s.ids = none := by rw [hpc]; rfl
  rcases hcases with ⟨submit, rfl, rfl⟩ | ⟨hother, rfl⟩
  · obtain ⟨hword, -⟩ := hs.lanes.fresh s.ids.length (Nat.le_refl _)
    obtain ⟨-, hstage, -⟩ := (hs.lanes.lanes s.ids.length).blank hword
    refine ⟨rfl, hs.view, openRecord_ok hs.pumps hstage, Or.inr ?_⟩
    rw [openRecord_toLanes]
    exact .receive submit.requestId hdecision hclient
  · refine ⟨rfl, hs.view, hs.pumps, Or.inl ?_⟩
    cases m with
    | submit submit => exact absurd rfl (hother submit)
    | _ => simp only [toLanes, hdecision]; rfl

theorem backend_simulates (hs : s.Inv) {call : GateCall} (h : s.backend n call = some s') :
    s.Simulates s' := by
  obtain ⟨hcall, g, hg, rfl⟩ := backend_cases h
  refine ⟨rfl, hs.view, hs.pumps, Or.inr ?_⟩
  have hlanes : (s.setGate n g).toLanes = s.toLanes.setLane n { s.lane n with gate := g } := by
    refine toLanes_setLane (by simp [lane, setGate]) ?_ rfl rfl rfl rfl
    intro k hk
    simp [lane, setGate, hk]
  rw [hlanes]
  exact .publish n call g hg hcall

/-! ## The pumps -/

theorem PumpOk.go (h : PumpOk r word pc) (hstage : pc.stage ≠ .closed) (hplain : pc'.Plain) :
    PumpOk r word pc' := by
  refine ⟨fun hmarked => absurd (h.marked hmarked) hstage, ?_, ?_⟩
  · rintro (hmarked | hpc)
    · exact h.marking (Or.inl hmarked)
    · exact absurd hpc hplain.1
  · rintro (hpc | hpc)
    · exact absurd hpc hplain.2.1
    · exact absurd hpc hplain.2.2

theorem PumpOk.close (h : PumpOk r word pc) (hstage : pc'.stage = .closed) (hplain : pc'.Plain) :
    PumpOk r word pc' := by
  refine ⟨fun _ => hstage, ?_, ?_⟩
  · rintro (hmarked | hpc)
    · exact h.marking (Or.inl hmarked)
    · exact absurd hpc hplain.1
  · rintro (hpc | hpc)
    · exact absurd hpc hplain.2.1
    · exact absurd hpc hplain.2.2

theorem PumpOk.stay (h : PumpOk r word pc) (hstage : pc'.stage = pc.stage) (hplain : pc'.Plain) :
    PumpOk r word pc' := by
  by_cases hclosed : pc.stage = .closed
  · exact h.close (hstage.trans hclosed) hplain
  · exact h.go hclosed hplain

theorem noteEnqueued_ok (h : ∀ k, PumpOk (s.records k) (s.enqueued k) (s.pumps k))
    (n : ℕ) (m : Message) (k : ℕ) :
    PumpOk (s.records k) (update s.enqueued n (s.enqueued n ++ [m]) k) (s.pumps k) := by
  by_cases hk : k = n
  · subst hk
    refine ⟨(h k).marked, fun _ => ?_, (h k).cancelling⟩
    simp
  · simpa [hk] using h k

theorem setPump_toLanes (s : Bridge) (n : ℕ) (pc : PumpPc) :
    (s.setPump n pc).toLanes = s.toLanes.setLane n { s.lane n with stage := pc.stage } := by
  refine toLanes_setLane (by simp [lane, setPump]) ?_ rfl rfl rfl rfl
  intro k hk
  simp [lane, setPump, hk]

theorem setPump_stay (s : Bridge) {n : ℕ} (hstage : pc.stage = (s.pumps n).stage) :
    (s.setPump n pc).toLanes = s.toLanes := by
  rw [setPump_toLanes, hstage]
  exact congrArg (fun l => { s.toLanes with lanes := l }) (update_eq_self n s.lane)

theorem Simulates.stay (hs : s.Inv) (hstage : pc.stage = (s.pumps n).stage)
    (hok : PumpOk (s.records n) (s.enqueued n) pc) : s.Simulates (s.setPump n pc) :=
  ⟨rfl, hs.view, setPump_ok hs.pumps hok, Or.inl (setPump_stay s hstage)⟩

theorem Simulates.move (hs : s.Inv) (hmove : (s.lane n).Moves pc.stage)
    (hok : PumpOk (s.records n) (s.enqueued n) pc) : s.Simulates (s.setPump n pc) := by
  refine ⟨rfl, hs.view, setPump_ok hs.pumps hok, Or.inr ?_⟩
  rw [setPump_toLanes]
  exact .move n _ hmove

theorem Simulates.leave (hs : s.Inv) (hstage : pc.stage = .closed) (hplain : pc.Plain) :
    s.Simulates (s.setPump n pc) :=
  .move hs (by rw [hstage]; exact .leave) ((hs.pumps n).close hstage hplain)

theorem noteEnqueued_toLanes {e : SessionEgress}
    (h : EgressView.Appended s.egress e (s.records n).requestId m) :
    (s.noteEnqueued n m e).toLanes = s.toLanes.append n (s.lane n) m := by
  have hlane : (s.noteEnqueued n m e).lane =
      update s.lane n { s.lane n with enqueued := s.enqueued n ++ [m] } := by
    funext k
    by_cases hk : k = n
    · subst hk
      simp [lane, noteEnqueued]
    · simp [lane, noteEnqueued, hk]
  have hpending : e.pending = update s.egress.pending (s.records n).requestId
      (s.egress.pending (s.records n).requestId ++ [m]) := by
    funext r
    rw [h.pending r]
    by_cases hr : r = (s.records n).requestId
    · subst hr
      simp
    · simp [hr]
  have haccepting : e.accepting = s.egress.accepting := h.after.trans h.before.symm
  simp only [toLanes, hlane]
  simp only [noteEnqueued, hpending, haccepting]
  rfl

theorem noteEnqueued_setPump_toLanes {e : SessionEgress}
    (h : EgressView.Appended s.egress e (s.records n).requestId m) :
    ((s.noteEnqueued n m e).setPump n pc).toLanes =
      s.toLanes.append n { s.lane n with stage := pc.stage } m := by
  rw [setPump_toLanes, noteEnqueued_toLanes h]
  simp [Lanes.append, Lanes.setLane, lane, noteEnqueued]

theorem setGate_setPump_toLanes (s : Bridge) (n : ℕ) (g : Gate) (pc : PumpPc) :
    ((s.setGate n g).setPump n pc).toLanes =
      s.toLanes.setLane n { s.lane n with gate := g, stage := pc.stage } := by
  refine toLanes_setLane (by simp [lane, setGate, setPump]) ?_ rfl rfl rfl rfl
  intro k hk
  simp [lane, setGate, setPump, hk]

theorem updateRecord_toLanes (s : Bridge) (n : ℕ)
    (hid : (f (s.records n)).requestId = (s.records n).requestId)
    (hcancel : (f (s.records n)).cancelRequested = (s.records n).cancelRequested)
    (hallowed : (f (s.records n)).forwardingAllowed = (s.records n).forwardingAllowed) :
    (s.updateRecord n f).toLanes = s.toLanes := by
  have hlane : (s.updateRecord n f).lane = s.lane := by
    funext k
    by_cases hk : k = n
    · subst hk
      simp [lane, updateRecord, hid, hcancel, hallowed]
    · simp [lane, updateRecord, hk]
  exact congrArg (fun l => { s.toLanes with lanes := l }) hlane

theorem Inv.go (hs : s.Inv) (hpc : s.pumps n = pc) (hstage : pc.stage ≠ .closed)
    (hplain : pc'.Plain) : PumpOk (s.records n) (s.enqueued n) pc' :=
  PumpOk.go (hpc ▸ hs.pumps n) hstage hplain

theorem cancelling_simulates (hs : s.Inv) {throws : Bool} {pc : CancelPc} {c : Cancelling}
    {outcome : CancelOutcome} (hpc : s.pumps n = .cancelling pc)
    (hc : s.cancelStep n false throws pc = (s.cancelled c, outcome)) :
    s.Simulates ((s.cancelled c).setPump n
      (outcome.resume .cancelling .checkStop (.shutdown cancelThrew .loop))) := by
  have hok := hs.pumps n
  rw [hpc] at hok
  have hopen : (s.records n).terminalEnqueued = false := by
    by_contra hmarked
    cases hok.marked (by simpa using hmarked)
  have hdropping : (s.lane n).stage = .dropping := by simp [lane, hpc, stage]
  have hstage : ∀ pc', stage (.cancelling pc') = (s.pumps n).stage := fun _ => by
    rw [hpc]
    rfl
  rcases s.cancelStep_cases n false throws pc with
    ⟨-, hmarked, h⟩ | ⟨-, -, h⟩ | ⟨-, hflag, h⟩ | ⟨-, -, h⟩ | ⟨rfl, h⟩ | ⟨rfl, h⟩ <;>
    obtain ⟨hstate, rfl⟩ := Prod.mk.inj (h.symm.trans hc) <;> rw [← hstate]
  · cases hopen.symm.trans hmarked
  · exact .stay hs (hstage _) (hok.go (by simp [stage]) (by simp [PumpPc.Plain]))
  · exact .move hs (.resume hdropping hflag) (hok.go (by simp [stage]) (by simp [PumpPc.Plain]))
  · refine ⟨rfl, hs.view, setPump_ok (cancelFlag_ok hs.pumps n) ⟨?_, ?_, ?_⟩, Or.inr ?_⟩
    · simp [updateRecord, hopen]
    · simp [updateRecord, hopen]
    · simp [updateRecord]
    · rw [setPump_stay _ (by exact hstage _), cancelFlag_toLanes]
      exact .cancel n
  · have hstay := Simulates.stay hs (hstage .call)
      ⟨by simp [hopen], by simp [hopen], fun _ => hok.cancelling (Or.inl rfl)⟩
    exact { hstay with }
  · -- The flag was set before the runtime is called, so later deltas are dropped.
    have hflag := hok.cancelling (Or.inr rfl)
    have hresume : ∀ pc', pc'.stage = .polling → s.Simulates (s.setPump n pc') := by
      intro pc' hpc'
      refine .move hs (by rw [hpc']; exact .resume hdropping hflag)
        (hok.go (by simp [stage]) ⟨?_, ?_, ?_⟩) <;>
      · rintro rfl
        cases hpc'
    cases throws with
    | true => exact { hresume (.shutdown cancelThrew .loop) rfl with }
    | false => exact { hresume .checkStop rfl with }

theorem flag_simulates (hs : s.Inv)
    (hflags : ∀ r, (f r).requestId = r.requestId ∧ (f r).cancelRequested = r.cancelRequested ∧
      (f r).forwardingAllowed = r.forwardingAllowed) (hstage : pc.stage = (s.pumps n).stage)
    (hbefore : PumpOk (f (s.records n)) (s.enqueued n) (s.pumps n))
    (hafter : PumpOk (f (s.records n)) (s.enqueued n) pc) :
    s.Simulates ((s.updateRecord n f).setPump n pc) := by
  obtain ⟨hid, hcancel, hallowed⟩ := hflags (s.records n)
  refine ⟨rfl, hs.view, setPump_ok (updateRecord_ok hs.pumps hbefore) ?_, Or.inl ?_⟩
  · simpa [updateRecord] using hafter
  · rw [setPump_stay _ (by simpa [updateRecord] using hstage)]
    exact updateRecord_toLanes s n hid hcancel hallowed

section Pumps
variable [JsonLib]

theorem forwarded_simulates (hs : s.Inv) {d : TokenDelta} (hpc : s.pumps n = .forward d)
    (hcode : (s.egress.enqueueDelta (s.records n).requestId
      (.tokenDelta (wireDelta s.config d))).1.code = .enqueued) :
    s.Simulates ((s.noteEnqueued n (.tokenDelta (wireDelta s.config d))
      (s.egress.enqueueDelta (s.records n).requestId
        (.tokenDelta (wireDelta s.config d))).2).setPump n .checkStop) := by
  rcases hs.view.enqueueDelta (s.records n).requestId (.tokenDelta (wireDelta s.config d)) with
    ⟨hrefused, -⟩ | ⟨-, happend⟩
  · exact absurd hcode hrefused
  · have hword := noteEnqueued_ok hs.pumps n (.tokenDelta (wireDelta s.config d))
    have hgo : PumpOk (s.records n) _ .checkStop :=
      (hword n).go (by simp [hpc, stage]) (by simp [PumpPc.Plain])
    refine ⟨rfl, happend.view, setPump_ok hword hgo, Or.inr ?_⟩
    rw [noteEnqueued_setPump_toLanes happend]
    have hlabel : d.requestId = (s.lane n).requestId := Option.some.inj happend.label
    exact .forward n d (by simp [toLanes, lane, hpc, stage]) hlabel happend.before

theorem finished_simulates (hs : s.Inv) {wire : Terminal}
    (hpc : s.pumps n = .enqueueTerminal wire)
    (hcode : (s.egress.enqueueTerminal (s.records n).requestId (.terminal wire)).1.code =
      .enqueued) :
    s.Simulates ((s.noteEnqueued n (.terminal wire)
      (s.egress.enqueueTerminal (s.records n).requestId (.terminal wire)).2).setPump n
        .markTerminal) := by
  rcases hs.view.enqueueTerminal (s.records n).requestId (.terminal wire) with
    ⟨hrefused, -⟩ | ⟨-, happend⟩
  · exact absurd hcode hrefused
  · have hok := noteEnqueued_ok hs.pumps n (.terminal wire)
    refine ⟨rfl, happend.view, setPump_ok hok ⟨fun _ => rfl, fun _ => ?_, by simp⟩, Or.inr ?_⟩
    · simp [noteEnqueued]
    rw [noteEnqueued_setPump_toLanes happend]
    have hlabel : wire.requestId = (s.lane n).requestId := Option.some.inj happend.label
    exact .finish n wire (by simp [toLanes, lane, hpc, stage]) hlabel happend.before

theorem pumpStep_simulates (hs : s.Inv) {env : Environment} (h : s.pumpStep n env = some s') :
    s.Simulates s' := by
  have hok := hs.pumps n
  cases pumpStep_move h with
  | abandoned | forwardStopped | forwardFailed | terminalStopped | terminalFailed =>
    exact .leave hs rfl (by simp [PumpPc.Plain])
  | allowed hpc hallowed =>
    exact .move hs (.enter (by simp [lane, hpc, stage]) hallowed)
      (hs.go hpc (by simp [stage]) (by simp [PumpPc.Plain]))
  | checkStop hpc =>
    split
    · exact .leave hs rfl (by simp [PumpPc.Plain])
    · exact .stay hs (by rw [hpc]; rfl) (hs.go hpc (by simp [stage]) (by simp [PumpPc.Plain]))
  | take hpc =>
    have hwait := Lanes.Step.wait (c := s.config) (p := s.toLanes) n
      (by simp [toLanes, lane, hpc, stage])
    rcases hw : (s.gates n).state.mailbox.waitPop.1 with (d | t) | _ | _ <;>
    · refine ⟨rfl, hs.view, setPump_ok hs.pumps (hs.go hpc (by simp [stage])
        (by simp [received, PumpPc.Plain])), Or.inr ?_⟩
      rw [setGate_setPump_toLanes]
      simp only [toLanes, lane, hw] at hwait
      exact hwait
  | skip d hpc hflag =>
    exact .move hs (.skip d (by simp [lane, hpc, stage]) hflag)
      (hs.go hpc (by simp [stage]) (by simp [PumpPc.Plain]))
  | pass d hpc hflag =>
    exact .move hs (.pass d (by simp [lane, hpc, stage]) hflag)
      (hs.go hpc (by simp [stage]) (by simp [PumpPc.Plain]))
  | forwarded d m hpc hm hcode =>
    subst hm
    exact forwarded_simulates hs hpc hcode
  | dropped d hpc =>
    exact .move hs (.refuse d (by simp [lane, hpc, stage]))
      (hs.go hpc (by simp [stage]) (by simp [PumpPc.Plain]))
  | countBackpressure count hpc =>
    have hstay : s.Simulates (s.setPump n .markBackpressure) :=
      .stay hs (by rw [hpc]; rfl) (hs.go hpc (by simp [stage]) (by simp [PumpPc.Plain]))
    exact { hstay with }
  | markBackpressure hpc =>
    have hgo : PumpOk (s.records n) (s.enqueued n) (.cancelling .check) :=
      hs.go hpc (by simp [stage]) (by simp [PumpPc.Plain])
    exact flag_simulates hs (fun _ => ⟨rfl, rfl, rfl⟩) (by rw [hpc]; rfl) { hok with } { hgo with }
  | cancelling pc c outcome hpc hc => exact cancelling_simulates hs hpc hc
  | prepare t hpc =>
    exact .stay hs (by rw [hpc]; rfl) (hs.go hpc (by simp [stage]) (by simp [PumpPc.Plain]))
  | finished wire m hpc hm hcode =>
    subst hm
    exact finished_simulates hs hpc hcode
  | markTerminal hpc =>
    have hword : s.enqueued n ≠ [] := hok.marking (Or.inr hpc)
    refine flag_simulates hs (fun _ => ⟨rfl, rfl, rfl⟩) (by rw [hpc]; rfl)
      ⟨fun _ => ?_, fun _ => hword, hok.cancelling⟩ ⟨fun _ => rfl, fun _ => hword, by simp⟩
    rw [hpc]
    rfl
  | enter status terminalStatus state resume hpc | report status terminalStatus state resume hpc =>
    rw [hpc] at hok
    have hstay : ∀ pc : PumpPc, pc = .shuttingDown resume ∨ pc = resume.pc →
        s.Simulates (s.setPump n pc) := by
      intro pc hnext
      have hstage : pc.stage = (PumpPc.shutdown status resume).stage := by
        rcases hnext with rfl | rfl <;> cases resume <;> rfl
      refine .stay hs (by rw [hpc, hstage]) (hok.stay hstage ?_)
      rcases hnext with rfl | rfl <;> cases resume <;> simp [PumpPc.Plain, PumpResume.pc]
    first
    | exact { hstay (.shuttingDown resume) (Or.inl rfl) with }
    | exact { hstay resume.pc (Or.inr rfl) with }
  | resume resume hpc =>
    rw [hpc] at hok
    have hstage : resume.pc.stage = (shuttingDown resume).stage := by cases resume <;> rfl
    refine .stay hs (by rw [hpc, hstage]) (hok.stay hstage ?_)
    cases resume <;> simp [PumpPc.Plain, PumpResume.pc]
  | join hpc hidle =>
    obtain ⟨-, -, -, hsame⟩ := exit_simulates hs hidle
    refine ⟨rfl, hs.view, setPump_ok hs.pumps (hok.close rfl (by simp [PumpPc.Plain])), ?_⟩
    unfold Refines
    rw [setPump_stay _ (by simp [hpc, stage])]
    exact hsame
  | finish hpc =>
    have hdone : PumpOk (s.records n) (s.enqueued n) .finished :=
      hok.close rfl (by simp [PumpPc.Plain])
    exact flag_simulates hs (fun _ => ⟨rfl, rfl, rfl⟩) (by rw [hpc]; rfl) { hok with } { hdone with }

end Pumps

/-! ## The handler -/

theorem Simulates.go {t : Bridge} (h : s.Simulates { t with handler := s.handler })
    (hids : t.ids = s.ids) (hdecision : t.handler.decision s.ids = s.handler.decision s.ids) :
    s.Simulates t := by
  refine { h with refines := ?_ }
  have hsame : t.toLanes = toLanes { t with handler := s.handler } := by
    simp only [toLanes, hids, hdecision]
    rfl
  unfold Refines
  rw [hsame]
  exact h.refines

theorem Simulates.settle (hs : s.Inv) {pc : HandlerPc} (hdecision : pc.decision s.ids = none) :
    s.Simulates { s with handler := pc } := by
  refine ⟨rfl, hs.view, hs.pumps, Or.inr ?_⟩
  have hlanes : toLanes { s with handler := pc } = { s.toLanes with decision := none } := by
    simp only [toLanes, hdecision]
    rfl
  rw [hlanes]
  exact .settle

theorem Inv.lastIndex_deciding (hs : s.Inv) (h : s.handler.decision s.ids = some (n, false)) :
    lastIndex (s.records n).requestId s.ids = some n := by
  have hlength : n + 1 = s.ids.length := (hs.decision.deciding n h).1
  exact lastIndex_of_newest (hs.lanes.known n (show n < s.ids.length by omega)) hlength

theorem Inv.pending_deciding (hs : s.Inv) (h : s.handler.decision s.ids = some (n, false)) :
    s.egress.pending (s.records n).requestId = [] := by
  have hword := (hs.decision.deciding n h).2
  have hlast := hs.lastIndex_deciding h
  cases haccepting : s.egress.accepting with
  | false => exact hs.lanes.stopped haccepting _
  | true =>
    have hwhole := (hs.lanes.newest _ n hlast).2 haccepting
    rw [hword] at hwhole
    exact (List.append_eq_nil_iff.mp hwhole).2

section Handler
variable [JsonLib]

theorem answer_simulates (hs : s.Inv) (hpc : s.handler.decision s.ids = some (n, false))
    {m : Message} (hlabel : m.requestId? = some (s.records n).requestId)
    (hcode : (s.egress.enqueueControl m).1.code = .enqueued) {pc : HandlerPc}
    (hstep : s.egress.accepting = true → s.toLanes.Step s.config
      { s.toLanes.append n (s.lane n) m with decision := pc.decision s.ids }) :
    s.Simulates { s.noteEnqueued n m (s.egress.enqueueControl m).2 with handler := pc } := by
  have happend := hs.view.enqueueControl_appended hlabel (hs.pending_deciding hpc) hcode
  refine ⟨rfl, happend.view, noteEnqueued_ok hs.pumps n m, Or.inr ?_⟩
  have hstep := hstep happend.before
  rw [← noteEnqueued_toLanes happend] at hstep
  exact hstep

omit [JsonLib] in
theorem admitted_simulates (hs : s.Inv) {request : GenerationRequest}
    (hpc : s.handler = .submit n request) (executorId promptTokens : ℕ)
    (mailbox : GenerationMailboxConfig) :
    s.Simulates { s.setGate n
        (.initial (s.records n).requestId executorId promptTokens mailbox) with
      accepted := update s.accepted n true
      handler := .register n } := by
  refine ⟨rfl, hs.view, hs.pumps, Or.inr ?_⟩
  have hinstall := Lanes.Step.install (c := s.config) (p := s.toLanes) n
    (.initial (s.records n).requestId executorId promptTokens mailbox)
    (by simp only [toLanes, hpc]; rfl) (Gate.initial_inv _ _ _ _) rfl
  have hlanes : toLanes { s.setGate n
        (.initial (s.records n).requestId executorId promptTokens mailbox) with
      accepted := update s.accepted n true, handler := .register n } =
      s.toLanes.setLane n { s.lane n with
        gate := .initial (s.records n).requestId executorId promptTokens mailbox } :=
    toLanes_setLane (by simp [lane, setGate]) (fun k hk => by simp [lane, setGate, hk]) rfl
      (by rw [hpc]; rfl) rfl rfl
  rw [hlanes]
  exact hinstall

omit [JsonLib] in
theorem spawned_simulates (hs : s.Inv) (hpc : s.handler = .spawn n) :
    s.Simulates { s.setPump n .waitGate with handler := .accept n } := by
  have hdecision : s.handler.decision s.ids = some (n, false) := by rw [hpc]; rfl
  have hword : s.enqueued n = [] := (hs.decision.deciding n hdecision).2
  have hopen : (s.records n).terminalEnqueued = false := by
    by_contra hmarked
    exact (hs.pumps n).marking (Or.inl (by simpa using hmarked)) hword
  have hok : PumpOk (s.records n) (s.enqueued n) .waitGate :=
    ⟨by simp [hopen], by simp [hopen], by simp⟩
  have hstart : s.Simulates (s.setPump n .waitGate) := by
    refine ⟨rfl, hs.view, setPump_ok hs.pumps hok, Or.inr ?_⟩
    rw [setPump_toLanes]
    exact .start n hdecision
  exact .go { hstart with } rfl (by rw [hpc]; rfl)

omit [JsonLib] in
theorem allow_simulates (hs : s.Inv) (hpc : s.handler = .allow n) :
    s.Simulates { s.allowForwarding n with handler := .idle } := by
  have hdecision : s.handler.decision s.ids = some (n, true) := by rw [hpc]; rfl
  have hok := updateRecord_ok (n := n) (f := fun r => { r with forwardingAllowed := true })
    hs.pumps { hs.pumps n with }
  refine ⟨rfl, hs.view, hok, Or.inr ?_⟩
  have hlanes : (s.allowForwarding n).toLanes =
      s.toLanes.setLane n { s.lane n with allowed := true } := by
    refine toLanes_setLane (by simp [lane, allowForwarding, updateRecord]) ?_ rfl rfl rfl rfl
    intro k hk
    simp [lane, allowForwarding, updateRecord, hk]
  have hallow := Lanes.Step.allow (c := s.config) (p := s.toLanes) n hdecision
  rw [show s.toLanes.lanes n = s.lane n from rfl, ← hlanes] at hallow
  exact hallow

theorem handlerStep_simulates (hs : s.Inv) {env : Environment} (h : s.handlerStep env = some s') :
    s.Simulates s' := by
  -- An operation of the egress that no lane shows.
  have hquiet : ∀ e : SessionEgress, EgressView e → e.accepting = s.egress.accepting →
      (∀ r, e.pending r = s.egress.pending r) → s.Simulates { s with egress := e } := by
    intro e hview haccepting hpending
    refine ⟨rfl, hview, hs.pumps, Or.inl ?_⟩
    simp only [toLanes, haccepting, funext hpending]
    rfl
  cases handlerStep_move h with
  | reap m hpc =>
    refine .go { hs.simulates_self with } rfl ?_
    rw [hpc]
    cases m with
    | cancel | health => unfold dispatch; dsimp only; split <;> rfl
    | _ => rfl
  | admitted k request executorId promptTokens mailbox hpc => exact admitted_simulates hs hpc _ _ _
  | registered k hpc =>
    obtain ⟨hview, haccepting, hpending⟩ := hs.view.registerRequest (s.records k).requestId
    exact .go { hquiet _ hview haccepting hpending with } rfl (by rw [hpc]; rfl)
  | spawned k hpc => exact spawned_simulates hs hpc
  | spawnFailed k status hpc | acceptFailed k status hpc =>
    exact .go { abandonForwarding_simulates hs k with } rfl (by rw [hpc]; rfl)
  | abandon k status hpc =>
    obtain ⟨hview, haccepting, hpending⟩ :=
      hs.view.abandonRequest (hs.pending_deciding (n := k) (by rw [hpc]; rfl))
    exact .go { hquiet _ hview haccepting hpending with } rfl (by rw [hpc]; rfl)
  | rejected k status m hpc hm hcode =>
    have hdecision : s.handler.decision s.ids = some (k, false) := by rw [hpc]; rfl
    subst hm
    exact answer_simulates hs hdecision rfl hcode (fun hopen => .reject k status hdecision hopen)
  | accepted k m hpc hm hcode =>
    have hdecision : s.handler.decision s.ids = some (k, false) := by rw [hpc]; rfl
    subst hm
    exact answer_simulates hs hdecision rfl hcode (fun hopen => .accept k hdecision hopen)
  | unrejected | unaccepted => exact .settle hs rfl
  | acceptCancel k status pc c outcome hpc hc | cancel k pc c outcome hpc hc =>
    exact .go { cancelStep_simulates hs hc with } rfl (by rw [hpc]; cases outcome <;> rfl)
  | allow k hpc => exact allow_simulates hs hpc
  | stats m hpc =>
    obtain ⟨hview, haccepting, hpending, -⟩ := hs.view.enqueueControl (.stats m)
    exact .go { hquiet _ hview haccepting (hpending rfl) with } rfl (by rw [hpc]; rfl)
  | report status terminalStatus state resume hpc | resume resume hpc =>
    exact .go { hs.simulates_self with } rfl (by rw [hpc]; cases resume <;> rfl)
  | _ => exact .go { hs.simulates_self with } rfl (by rw [‹s.handler = _›]; rfl)

end Handler

end Bridge

end KimServing

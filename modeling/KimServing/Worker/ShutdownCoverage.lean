import KimServing.Worker.Custody
import KimServing.Worker.ThreadFrames
import KimServing.Worker.WireGrammar

/-! # A stop cancels what the bridge owns

When `stop` has returned, every accepted request has ended or was cancelled, in
every interleaving in which no acceptance is queued for a request that the
shutdown has left out. Without this condition a request is lost: the shutdown
looks at the map before the handler enters the request, and the acceptance is
queued before the shutdown stops the egress.
-/
namespace KimServing
open Library Ipc

namespace Bridge
variable {s s' : Bridge}

def GatesInv (s : Bridge) : Prop := ∀ n, Gate.GateInv (s.gates n)

theorem GatesInv.of_quiet (hg : s.GatesInv) {calls : ℕ → GateCall → Prop} (h : Quiet calls s s') :
    s'.GatesInv := by
  intro n
  rcases h.gates n with hsame | ⟨call, -, hstep⟩
  · rw [hsame]
    exact hg n
  · exact Gate.step_inv (hg n) hstep

section Runs
variable [JsonLib]

theorem step_gates (hg : s.GatesInv) {a : BridgeAction} (h : s.step a = some s') : s'.GatesInv := by
  cases a with
  | receive =>
    obtain ⟨-, ⟨submit, -, rfl⟩ | ⟨-, rfl⟩⟩ := receive_cases h <;> exact hg
  | handler =>
    cases handlerStep_move h with
    | admitted n =>
      intro k
      by_cases hk : k = n
      · subst hk
        simpa [setGate] using Gate.initial_inv _ _ _ _
      · simpa [setGate, hk] using hg k
    | _ => exact hg
  | _ => exact hg.of_quiet (step_quiet rfl h)

theorem step_custody (hs : s.Custody) (hg : s.GatesInv) {a : BridgeAction}
    (hguard : s.AcceptsOwned a) (h : s.step a = some s') : s'.Custody := by
  cases a with
  | receive => exact hs.receive h
  | handler => exact handlerStep_custody hs hguard h
  | pump n => exact pumpStep_custody hs (hg n) h
  | backend => exact backend_custody hs h
  | writer => exact writerStep_custody hs h
  | monitor => exact monitorStep_custody hs h
  | stopper => exact stopperStep_custody hs h
  | shutdown => exact shutdownStep_custody hs h

theorem run_custody {c : RuntimeBridgeConfig} {e : SessionEgress} {actions : List BridgeAction}
    (hguard : Along step AcceptsOwned (initial c e) actions)
    (hrun : exec step (initial c e) actions = some s) : s.Custody := by
  have hs := exec_invariant (I := fun t => t.Custody ∧ t.GatesInv)
    (fun _ _ _ ht hg hstep => ⟨step_custody ht.1 ht.2 hg hstep, step_gates ht.2 hstep⟩)
    ⟨initial_custody c e, fun _ => Gate.initial_inv _ _ _ _⟩ hguard hrun
  exact hs.1

end Runs

end Bridge

/-- In every run that queues no acceptance for a request the shutdown has left out:
once `stop` has returned, every accepted request has its terminal event in the
mailbox or was cancelled at the runtime. -/
theorem stop_settles_accepted [JsonLib] (c : RuntimeBridgeConfig) (e : SessionEgress)
    (actions : List BridgeAction) (s : Bridge) (status : Status) (n : ℕ)
    (hguard : Along Bridge.step Bridge.AcceptsOwned (.initial c e) actions)
    (hrun : exec Bridge.step (.initial c e) actions = some s)
    (hstopped : s.stopper = .returned status) (haccepted : s.accepted n = true) :
    (s.gates n).state.mailbox.terminalCommitted = true ∨ s.cancelCalled n = true := by
  exact (Bridge.run_custody hguard hrun).settled_of_returned hstopped haccepted

instance Bridge.decidableAcceptsOwned [JsonLib] (s : Bridge) :
    ∀ a : BridgeAction, Decidable (s.AcceptsOwned a)
  | .handler _ => inferInstanceAs (Decidable (∀ n ∈ s.handler.accepting, s.stopRequested = true →
      n ∉ s.owned → (s.egress.enqueueControl
        (wireAccepted s.config (s.records n).requestId)).1.code ≠ .enqueued))
  | .receive _ | .pump _ _ | .backend _ _ | .writer _ | .monitor _ | .stopper _
  | .shutdown _ => isTrue trivial

def Bridge.stoppedServing (s : Bridge) : Bool :=
  (match s.stopper with | .returned _ => true | _ => false) && s.accepted 0

theorem Bridge.stoppedServing_iff {s : Bridge} :
    s.stoppedServing = true ↔ (∃ status, s.stopper = .returned status) ∧ s.accepted 0 = true := by
  unfold stoppedServing
  cases s.stopper <;> simp

/-- The rest of a stop after the first `beginShutdown` has ended: the monitor, the
writer and the pump of the first Submit end, and their threads are joined. -/
def joinThreads : List BridgeAction :=
  [.stopper {}, .stopper {}, .monitor { closeStatus := ⟨.timeout, []⟩ }, .monitor {}, .stopper {},
    .writer {}, .stopper {}, .stopper {}, .stopper {}, .pump 0 {}, .pump 0 {}, .stopper {},
    .stopper {}, .stopper {}, .stopper {}]

def lateStop : List BridgeAction :=
  [.receive (.submit plainSubmit), .handler {}, .handler {}, .handler admission, .handler {},
    .handler {}, .handler {}, .handler {}, .handler {}, .stopper {}, .stopper {}, .shutdown {},
    .shutdown {}, .shutdown {}, .shutdown {}, .shutdown {}, .shutdown {}, .shutdown {}] ++ joinThreads

theorem stop_settles_accepted_lateStop :
    ∃ s status, exec (@Bridge.step plainJson) ordinaryBridge lateStop = some s ∧
      s.stopper = .returned status ∧ s.accepted 0 = true ∧
      ((s.gates 0).state.mailbox.terminalCommitted = true ∨ s.cancelCalled 0 = true) := by
  have hrun : Along (@Bridge.step plainJson) (@Bridge.AcceptsOwned plainJson)
        ordinaryBridge lateStop ∧
      (exec (@Bridge.step plainJson) ordinaryBridge lateStop).any Bridge.stoppedServing =
        true := by
    decide +kernel
  obtain ⟨hguard, hany⟩ := hrun
  obtain ⟨s, hs, hserving⟩ := (Option.any_eq_true _ _).mp hany
  obtain ⟨⟨status, hstopped⟩, haccepted⟩ := Bridge.stoppedServing_iff.mp hserving
  exact ⟨s, status, hs, hstopped, haccepted,
    @stop_settles_accepted plainJson _ _ _ s status 0 hguard hs hstopped haccepted⟩

/-- The shutdown looks at the map while the handler is between the admission and
the entry of the request, and stops the egress after the acceptance was queued. -/
def earlyStop : List BridgeAction :=
  [.receive (.submit plainSubmit), .handler {}, .handler {}, .handler admission, .handler {},
    .stopper {}, .stopper {}, .handler {}, .handler {}, .handler {}, .handler {}, .shutdown {},
    .shutdown {}] ++ joinThreads

/-- The stop returns, and nobody has cancelled the accepted request. -/
theorem stop_loses_accepted :
    ∃ s, exec (@Bridge.step plainJson) ordinaryBridge earlyStop = some s ∧
      (∃ status, s.stopper = .returned status) ∧ s.accepted 0 = true ∧
      (s.gates 0).state.mailbox.terminalCommitted = false ∧ s.cancelCalled 0 = false := by
  have hrun : (exec (@Bridge.step plainJson) ordinaryBridge earlyStop).any (fun s =>
      s.stoppedServing && !((s.gates 0).state.mailbox.terminalCommitted || s.cancelCalled 0)) =
        true := by
    decide +kernel
  obtain ⟨s, hs, hlost⟩ := (Option.any_eq_true _ _).mp hrun
  simp only [Bool.and_eq_true, Bridge.stoppedServing_iff, Bool.not_eq_true', Bool.or_eq_false_iff]
    at hlost
  exact ⟨s, hs, hlost.1.1, hlost.1.2, hlost.2⟩

end KimServing

import KimServing.Worker.BridgeRefinement

/-! # What the other threads leave alone

The handler alone receives Submits, takes answers of the runtime and enters requests
into the map. The writer, the monitor, the caller of `stop` and the shutdown change no
pump and no mailbox either. A pump and the backend work on one request. The flags of a
record are only ever set.
-/
namespace KimServing
open Library

structure RequestRecord.Grows (r r' : RequestRecord) : Prop where
  requestId : r'.requestId = r.requestId
  terminalEnqueued : r.terminalEnqueued = true → r'.terminalEnqueued = true
  pumpFinished : r.pumpFinished = true → r'.pumpFinished = true

theorem RequestRecord.Grows.refl (r : RequestRecord) : r.Grows r := ⟨rfl, id, id⟩

namespace Bridge
variable {s t s' : Bridge} {n : ℕ}

variable {env : Environment}

structure Quiet (calls : ℕ → GateCall → Prop) (s t : Bridge) : Prop where
  config : t.config = s.config
  ids : t.ids = s.ids
  accepted : t.accepted = s.accepted
  requests : t.requests ⊆ s.requests
  records : ∀ k, (s.records k).Grows (t.records k)
  gates : ∀ k, t.gates k = s.gates k ∨ ∃ call, calls k call ∧ (s.gates k).step call = some (t.gates k)
  handler : t.handler = s.handler ∨ s.handler = .idle ∧ t.handler = .exited

structure Kept (calls : ℕ → GateCall → Prop) (s t : Bridge) : Prop where
  ids : t.ids = s.ids
  accepted : t.accepted = s.accepted
  requests : t.requests ⊆ s.requests
  records : ∀ k, (s.records k).Grows (t.records k)
  gates : ∀ k, t.gates k = s.gates k ∨ ∃ call, calls k call ∧ (s.gates k).step call = some (t.gates k)

theorem Quiet.kept {calls : ℕ → GateCall → Prop} (h : Quiet calls s t) : Kept calls s t :=
  { h with }

theorem Kept.gate_ids {calls : ℕ → GateCall → Prop} (h : Kept calls s t) (k : ℕ) :
    (t.gates k).state.externalId = (s.gates k).state.externalId ∧
      (t.gates k).state.executorId = (s.gates k).state.executorId := by
  rcases h.gates k with hsame | ⟨call, -, hstep⟩
  · rw [hsame]
    exact ⟨rfl, rfl⟩
  · exact Gate.step_ids hstep

structure Aside (s t : Bridge) : Prop where
  config : t.config = s.config
  ids : t.ids = s.ids
  accepted : t.accepted = s.accepted
  requests : t.requests ⊆ s.requests
  records : ∀ k, (s.records k).Grows (t.records k)
  gates : t.gates = s.gates
  pumps : t.pumps = s.pumps
  enqueued : t.enqueued = s.enqueued
  handler : t.handler = s.handler ∨ s.handler = .idle ∧ t.handler = .exited

theorem Aside.quiet (h : s.Aside t) (calls : ℕ → GateCall → Prop) : Quiet calls s t :=
  { h with gates := fun k => Or.inl (by rw [h.gates]) }

theorem Aside.refl (s : Bridge) : s.Aside s :=
  ⟨rfl, rfl, rfl, fun _ h => h, fun _ => .refl _, rfl, rfl, rfl, Or.inl rfl⟩

theorem updateRecord_aside (s : Bridge) (n : ℕ) {f : RequestRecord → RequestRecord}
    (hf : (s.records n).Grows (f (s.records n))) : s.Aside (s.updateRecord n f) := by
  refine ⟨rfl, rfl, rfl, fun _ h => h, fun k => ?_, rfl, rfl, rfl, Or.inl rfl⟩
  by_cases hk : k = n
  · subst hk
    simpa [updateRecord] using hf
  · simpa [updateRecord, hk] using .refl _

theorem abandonForwarding_aside (s : Bridge) (n : ℕ) : s.Aside (s.abandonForwarding n) :=
  s.updateRecord_aside n ⟨rfl, id, id⟩

theorem allowForwarding_aside (s : Bridge) (n : ℕ) : s.Aside (s.allowForwarding n) :=
  s.updateRecord_aside n ⟨rfl, id, id⟩

theorem cancelStep_aside {countCancel throws : Bool} {pc : CancelPc} {outcome : CancelOutcome}
    {c : Cancelling} (hc : s.cancelStep n countCancel throws pc = (s.cancelled c, outcome)) :
    s.Aside (s.cancelled c) := by
  refine { Aside.refl s with records := fun k => ?_ }
  rcases cancelStep_records hc k with h | h
  · rw [show (s.cancelled c).records k = _ from h]
    exact .refl _
  · rw [show (s.cancelled c).records k = _ from h]
    exact ⟨rfl, id, id⟩

theorem exit_aside (h : s.handler = .idle ∨ s.handler = .exited) :
    s.Aside { s with handler := .exited } := by
  rcases h with hidle | hexited
  · exact { Aside.refl s with handler := Or.inr ⟨hidle, rfl⟩ }
  · exact { Aside.refl s with handler := Or.inl hexited.symm }

theorem writerStep_aside (h : s.writerStep env = some s') : s.Aside s' := by
  cases writerStep_move h with
  | join hpc hidle => exact { exit_aside hidle with }
  | _ => exact { Aside.refl s with }

theorem monitorStep_aside (h : s.monitorStep env = some s') : s.Aside s' := by
  cases monitorStep_move h with
  | _ => exact { Aside.refl s with }

theorem stopperStep_aside (h : s.stopperStep env = some s') : s.Aside s' := by
  cases stopperStep_move h with
  | join hpc hidle => exact { exit_aside hidle with }
  | takeRequests => exact { Aside.refl s with requests := List.nil_subset _ }
  | joinPumps => exact { s.abandonForwarding_aside env.pick with }
  | _ => exact { Aside.refl s with }

theorem shutdownStep_aside (h : s.shutdownStep env = some s') : s.Aside s' := by
  cases shutdownStep_move h with
  | pick => exact { s.abandonForwarding_aside env.pick with }
  | cancelling k pc owned c outcome hpc hc => exact { cancelStep_aside hc with }
  | _ => exact { Aside.refl s with }

theorem backend_quiet {call : GateCall} (h : s.backend n call = some s') :
    Quiet (fun k c => k = n ∧ c = call) s s' := by
  obtain ⟨-, g, hg, rfl⟩ := backend_cases h
  refine { (Aside.refl s).quiet (fun k c => k = n ∧ c = call) with gates := fun k => ?_ }
  by_cases hk : k = n
  · subst hk
    exact Or.inr ⟨call, ⟨rfl, rfl⟩, by simpa [setGate] using hg⟩
  · exact Or.inl (by simp [setGate, hk])

theorem Aside.setPump (h : s.Aside t) (calls : ℕ → GateCall → Prop) (pc : PumpPc) :
    Quiet calls s (t.setPump n pc) :=
  { h.quiet calls with }

theorem pumpStep_quiet [JsonLib] (h : s.pumpStep n env = some s') :
    Quiet (fun k c => k = n ∧ c = .waitPop) s s' := by
  have hself := (Aside.refl s).quiet fun k c => k = n ∧ c = .waitPop
  cases pumpStep_move h with
  | take =>
    refine { hself with gates := fun k => ?_ }
    by_cases hk : k = n
    · subst hk
      exact Or.inr ⟨.waitPop, ⟨rfl, rfl⟩, by simp [setPump, setGate, Gate.step]⟩
    · exact Or.inl (by simp [setPump, setGate, hk])
  | cancelling pc c outcome hpc hc => exact (cancelStep_aside hc).setPump _ _
  | markBackpressure => exact (s.updateRecord_aside n ⟨rfl, id, id⟩).setPump _ _
  | markTerminal => exact (s.updateRecord_aside n ⟨rfl, fun _ => rfl, id⟩).setPump _ _
  | finish => exact (s.updateRecord_aside n ⟨rfl, id, fun _ => rfl⟩).setPump _ _
  | join hpc hidle => exact (exit_aside hidle).setPump _ _
  | _ => exact { hself with }

theorem handlerStep_kept [JsonLib] (hsubmit : ∀ k request, s.handler ≠ .submit k request)
    (hemplace : ∀ k, s.handler ≠ .emplace k) (h : s.handlerStep env = some s') :
    Kept (fun _ _ => False) s s' := by
  have hself := ((Aside.refl s).quiet fun _ _ => False).kept
  cases handlerStep_move h with
  | admitted k request _ _ _ hpc => exact absurd hpc (hsubmit k request)
  | emplaced k hpc => exact absurd hpc (hemplace k)
  | reap | erase => exact { hself with requests := List.filter_sublist.subset }
  | spawnFailed k | acceptFailed k => exact { ((s.abandonForwarding_aside k).quiet _).kept with }
  | allow k => exact { ((s.allowForwarding_aside k).quiet _).kept with }
  | acceptCancel _ _ _ _ _ _ hc | cancel _ _ _ _ _ hc =>
    exact { ((cancelStep_aside hc).quiet _).kept with }
  | _ => exact { hself with }

end Bridge

def BridgeAction.beside : BridgeAction → Bool
  | .receive _ | .handler _ => false
  | _ => true

def BridgeAction.calls : BridgeAction → ℕ → GateCall → Prop
  | .pump n _ => fun k call => k = n ∧ call = .waitPop
  | .backend n c => fun k call => k = n ∧ call = c
  | _ => fun _ _ => False

theorem Bridge.step_quiet [JsonLib] {s s' : Bridge} {a : BridgeAction} (ha : a.beside = true)
    (h : s.step a = some s') : Quiet a.calls s s' := by
  cases a with
  | receive | handler => cases ha
  | pump => exact pumpStep_quiet h
  | backend => exact backend_quiet h
  | writer => exact (writerStep_aside h).quiet _
  | monitor => exact (monitorStep_aside h).quiet _
  | stopper => exact (stopperStep_aside h).quiet _
  | shutdown => exact (shutdownStep_aside h).quiet _

end KimServing

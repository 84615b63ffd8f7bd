import KimServing.Worker.WireGrammar

/-! # What the peer has been sent

The writer takes one message at a time and sends it before it takes the next. A
message that it does not send is its last one, so the peer gets the messages in the
order in which they were taken, without a gap.
-/
namespace KimServing
open Library

def WriterPc.Between (stopRequested : Bool) (popped sent : List Ipc.Message) : WriterPc → Prop
  | .checkSend m | .send m | .wait m => popped = sent ++ [m]
  | .pop => popped = sent
  | .checkStop => popped = sent ∨ stopRequested = true ∧ sent <+: popped
  | _ => sent <+: popped

namespace Bridge

def SentInv (s : Bridge) : Prop := s.writer.Between s.stopRequested s.popped s.sent

theorem initial_sentInv (c : RuntimeBridgeConfig) (e : Ipc.SessionEgress) : (initial c e).SentInv :=
  Or.inl rfl

variable {s t s' : Bridge} {n : ℕ}

theorem SentInv.sent_prefix (h : s.SentInv) : s.sent <+: s.popped := by
  unfold SentInv at h
  cases hpc : s.writer with
  | checkSend | send | wait =>
    rw [hpc] at h
    exact h ▸ List.prefix_append _ _
  | pop =>
    rw [hpc] at h
    exact h ▸ List.prefix_rfl
  | checkStop =>
    rw [hpc] at h
    rcases h with h | ⟨-, h⟩
    · exact h ▸ List.prefix_rfl
    · exact h
  | _ =>
    rw [hpc] at h
    exact h

structure Unsent (s t : Bridge) : Prop where
  popped : t.popped = s.popped
  sent : t.sent = s.sent
  writer : t.writer = s.writer
  stopRequested : s.stopRequested = true → t.stopRequested = true

theorem SentInv.aside (hs : s.SentInv) (h : s.Unsent t) : t.SentInv := by
  unfold SentInv at hs ⊢
  rw [h.writer, h.popped, h.sent]
  cases hpc : s.writer with
  | checkStop =>
    rw [hpc] at hs
    exact hs.imp_right (And.imp_left h.stopRequested)
  | _ =>
    rw [hpc] at hs
    exact hs

theorem writerStep_sentInv (hs : s.SentInv) {env : Environment} (h : s.writerStep env = some s') :
    s'.SentInv := by
  have hsent := hs.sent_prefix
  unfold SentInv at hs ⊢
  cases writerStep_move h with
  | checkStop hpc =>
    rw [hpc] at hs
    cases hstop : s.stopRequested with
    | true => exact hsent
    | false => exact hs.resolve_right (by simp [hstop])
  | timeout hpc | sent m hpc =>
    rw [hpc] at hs
    exact Or.inl hs
  | take m hpc =>
    rw [hpc] at hs
    exact congrArg (· ++ _) hs
  | checkSend m hpc =>
    rw [hpc] at hs
    cases hstop : s.stopRequested with
    | true => exact Or.inr ⟨rfl, hsent⟩
    | false => exact hs
  | full m hpc | wait m hpc =>
    rw [hpc] at hs
    exact hs
  | _ => exact hsent

section Threads
variable [JsonLib]

theorem step_unsent {a : BridgeAction} (ha : ∀ env, a ≠ .writer env) (h : s.step a = some s') :
    s.Unsent s' := by
  cases a with
  | receive =>
    obtain ⟨-, ⟨submit, -, rfl⟩ | ⟨-, rfl⟩⟩ := receive_cases h <;> exact ⟨rfl, rfl, rfl, id⟩
  | handler => cases handlerStep_move h with | _ => exact ⟨rfl, rfl, rfl, fun _ => by trivial⟩
  | pump => cases pumpStep_move h with | _ => exact ⟨rfl, rfl, rfl, fun _ => by trivial⟩
  | backend =>
    obtain ⟨-, g, -, rfl⟩ := backend_cases h
    exact ⟨rfl, rfl, rfl, id⟩
  | writer env => exact absurd rfl (ha env)
  | monitor => cases monitorStep_move h with | _ => exact ⟨rfl, rfl, rfl, fun _ => by trivial⟩
  | stopper => cases stopperStep_move h with | _ => exact ⟨rfl, rfl, rfl, fun _ => by trivial⟩
  | shutdown => cases shutdownStep_move h with | _ => exact ⟨rfl, rfl, rfl, fun _ => by trivial⟩

theorem step_sentInv (hs : s.SentInv) {a : BridgeAction} (h : s.step a = some s') : s'.SentInv := by
  cases a with
  | writer => exact writerStep_sentInv hs h
  | _ => exact hs.aside (step_unsent (by simp) h)

end Threads

end Bridge

/-- The peer has been sent a beginning of what the writer has taken, and about a request id a
beginning of the words of its Submits, in the order of the Submits. -/
theorem sent_in_order [JsonLib] {c : RuntimeBridgeConfig} {s : Bridge} (h : Bridge.Reached c s)
    (requestId : ℕ) :
    s.sent <+: s.popped ∧
    s.sent.filter (fun m => m.requestId? = some requestId) <+:
      (indices requestId s.ids).flatMap s.delivered := by
  obtain ⟨hs, hsent⟩ := h.induct (I := Bridge.SentInv) (fun e _ => Bridge.initial_sentInv c e)
    (fun _ _ _ _ ht _ hstep => Bridge.step_sentInv ht hstep)
  have hpopped : s.popped.filter (fun m => m.requestId? = some requestId) =
      (indices requestId s.ids).flatMap s.delivered := hs.lanes.popped requestId
  refine ⟨hsent.sent_prefix, ?_⟩
  rw [← hpopped]
  exact hsent.sent_prefix.filter _

theorem sent_in_order_sentRun :
    ∃ s, @Bridge.Reached Ipc.plainJson (.ofLimits 1 ordinaryLimits) s ∧
      s.sent.map Ipc.messageTypeName = sentTypes ∧ s.sent <+: s.popped := by
  obtain ⟨s, hs, hsent, -⟩ := Bridge.sentRun_reached
  exact ⟨s, hs, hsent, (@sent_in_order Ipc.plainJson _ s hs 7).1⟩

end KimServing

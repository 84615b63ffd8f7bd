import KimServing.Ipc.SessionSafety

/-! # How often a session acknowledges

The session stays in the handshake from the first Hello until the writer has written the
acknowledgement, so a second Hello that is taken up in between is acknowledged as well. If
none is, one acknowledgement is all that is ever queued.
-/
namespace KimServing.Ipc
open Library

def isHelloAck : Message → Bool
  | .helloAck _ => true
  | _ => false

theorem isHelloAck_of_isClientInbound {m : Message} (h : isClientInbound m = true) :
    isHelloAck m = false := by
  cases m with
  | helloAck => cases h
  | _ => rfl

def isHello : Message → Bool
  | .hello _ => true
  | _ => false

def SessionReaderPc.greets : SessionReaderPc → Bool
  | .handshake m _ _ _ => isHello m
  | _ => false

/-- The reader does not take up a Hello in the handshake when one has been answered. -/
def SessionReaderPc.HelloInTime (parse : List UInt8 → Except (List UInt8) Json) (s : IpcSession) :
    SessionReaderPc → Prop
  | .next _ _ (payload :: _) => s.state = .handshaking → s.greetings ≠ [] →
    (decodePayload parse payload).toOption.all (fun m => !isHello m) = true
  | _ => True

/-- A second Hello is taken up only when the writer has marked the session as ready. -/
def HelloInTime (parse : List UInt8 → Except (List UInt8) Json) (s : IpcSession) :
    SessionAction → Prop
  | .reader _ => s.reader.HelloInTime parse s
  | _ => True

namespace IpcSession

/-- Every acknowledgement answers a Hello, of which there is one at most. -/
structure AckInv (s : IpcSession) : Prop where
  acks : s.accepted.countP isHelloAck = s.greetings.length
  once : s.greetings.length ≤ 1
  first : s.reader.greets = true → s.greetings = []

variable {s s' : IpcSession}

theorem AckInv.congr (h : s.AckInv) (haccepted : s'.accepted = s.accepted)
    (hgreetings : s'.greetings = s.greetings)
    (hreader : s'.reader = s.reader ∨ s'.reader.greets = false) : s'.AckInv := by
  refine ⟨by rw [haccepted, hgreetings, h.acks], hgreetings ▸ h.once, fun hgreets => ?_⟩
  rw [hgreetings]
  rcases hreader with hreader | hreader
  · exact h.first (hreader ▸ hgreets)
  · cases hreader.symm.trans hgreets

theorem AckInv.fail (h : s.AckInv) (status : Status) : (s.fail status).AckInv := by
  rcases s.fail_cases status with ⟨-, heq⟩ | ⟨-, recorded, -, heq⟩
  · rw [heq]
    exact h
  · rw [heq]
    exact h.congr rfl rfl (Or.inl rfl)

theorem AckInv.moves (h : s.AckInv) {pc : SessionReaderPc} (hpc : pc.greets = false) :
    AckInv { s with reader := pc } := h.congr rfl rfl (Or.inr hpc)

theorem writerStep_ackInv (h : s.AckInv) {choice : SessionChoice}
    (hstep : s.writerStep choice = some s') : s'.AckInv := by
  unfold writerStep at hstep
  split at hstep
  · cases hstep
  · split at hstep
    · cases hstep
      exact h.congr rfl rfl (Or.inl rfl)
    · split at hstep
      · cases hstep
      · cases hstep
        exact h.congr rfl rfl (Or.inl rfl)
  · split at hstep
    · cases hstep
      exact h.congr rfl rfl (Or.inl rfl)
    · split at hstep
      · cases hstep
      · cases hstep
        exact h.congr rfl rfl (Or.inl rfl)
    · cases hstep
  · cases hstep
    exact h.congr rfl rfl (Or.inl rfl)
  · cases hstep
    rcases s.markReady_cases with ⟨-, heq⟩ | ⟨-, heq⟩ <;> rw [heq] <;>
      exact h.congr rfl rfl (Or.inl rfl)
  · next status _ =>
    cases hstep
    exact (h.fail status).congr rfl rfl (Or.inl rfl)
  · cases hstep

theorem stopStep_ackInv (h : s.AckInv) {k : ℕ} (hstep : s.stopStep k = some s') : s'.AckInv := by
  unfold stopStep at hstep
  repeat' split at hstep
  all_goals first
    | cases hstep; done
    | (rw [← Option.some.inj hstep]
       exact h.congr rfl rfl (Or.inl rfl))

section Queue
variable [JsonLib]

theorem start_ackInv (h : s.AckInv) {connectionValid : Bool}
    (hstart : s.start connectionValid = .ok s') : s'.AckInv := by
  obtain ⟨-, -, rfl⟩ := start_eq_ok.mp hstart
  exact h.congr rfl rfl (Or.inr rfl)

theorem send_ackInv (h : s.AckInv) (m : Message) : (s.send m).2.AckInv := by
  unfold send
  split
  · exact h
  · next hm =>
    rcases s.enqueueMessage_cases m true false with ⟨-, heq⟩ | ⟨bytes, -, -, -, -, -, heq⟩
    · rw [heq]
      exact h
    · have hno : isHelloAck m = false := isHelloAck_of_isClientInbound (by simpa using hm)
      rw [heq]
      refine { h with acks := ?_ }
      simpa [List.countP_append, hno] using h.acks

theorem AckInv.handleHandshake (h : s.AckInv) {m : Message} {started : Bool} {index : ℕ}
    {rest : List (List UInt8)} (hpc : s.reader = .handshake m started index rest)
    {pc : SessionReaderPc} (hgreets : pc.greets = false) :
    AckInv { (s.handleHandshake m).2 with reader := pc } := by
  cases m with
  | hello =>
    have hfirst : s.greetings = [] := h.first (by rw [hpc]; rfl)
    unfold IpcSession.handleHandshake
    dsimp only
    split
    · exact h.moves hgreets
    · rcases s.enqueueMessage_cases (.helloAck s.serverHelloAck) false true with
        ⟨hstatus, heq⟩ | ⟨bytes, -, -, -, -, -, heq⟩
      · rw [hstatus, heq]
        exact h.moves hgreets
      · have hacks := h.acks
        have hok : Status.success.isOk = true := rfl
        rw [hfirst, List.length_nil] at hacks
        rw [heq]
        simp only [hok, if_true, hfirst]
        refine ⟨?_, Nat.le_refl 1, fun hpc => ?_⟩
        · rw [List.countP_append, hacks]
          rfl
        · cases hgreets.symm.trans hpc
  | _ => exact h.moves hgreets

variable {parse : List UInt8 → Except (List UInt8) Json}

theorem readerStep_ackInv (h : s.AckInv) {choice : SessionChoice}
    (htime : HelloInTime parse s (.reader choice)) (hstep : s.readerStep parse choice = some s') :
    s'.AckInv := by
  cases hpc : s.reader with
  | notStarted | exited => simp [readerStep, hpc] at hstep
  | read =>
    simp only [readerStep, hpc] at hstep
    split at hstep
    · split at hstep
      · cases hstep
      · cases hstep
        exact h.moves rfl
    · cases hstep
      exact h.moves rfl
    · split at hstep
      · cases hstep
      · cases hstep
        refine h.congr rfl rfl (Or.inr ?_)
        dsimp only
        split <;> rfl
    · cases hstep
  | readFailed =>
    simp only [readerStep, hpc] at hstep
    cases hstep
    exact h.moves (by split <;> rfl)
  | peerClosed | dispatch =>
    simp only [readerStep, hpc] at hstep
    cases hstep
    exact h.moves (by split_ifs <;> rfl)
  | received =>
    simp only [readerStep, hpc] at hstep
    cases hstep
    exact h.moves rfl
  | next started index payloads =>
    cases payloads with
    | nil =>
      simp only [readerStep, hpc] at hstep
      cases hstep
      exact h.moves rfl
    | cons =>
      simp only [readerStep, hpc] at hstep
      split at hstep
      · cases hstep
        exact h.moves rfl
      · split at hstep
        · cases hstep
          exact h.moves rfl
        · next m hdecode =>
          cases hstep
          refine { h with first := fun hgreets => ?_ }
          dsimp only at hgreets
          split at hgreets
          · next hstate =>
            simp only [HelloInTime, SessionReaderPc.HelloInTime, hpc, hdecode] at htime
            have hhello : isHello m = true := hgreets
            by_contra hgreeted
            simpa [Except.toOption, hhello] using htime hstate hgreeted
          · cases hgreets
  | handshake =>
    simp only [readerStep, hpc] at hstep
    cases hstep
    exact h.handleHandshake hpc (by split <;> rfl)
  | handle =>
    simp only [readerStep, hpc] at hstep
    split at hstep
    · cases hstep
      exact h.congr rfl rfl (Or.inr rfl)
    · cases hstep
      exact h.congr rfl rfl (Or.inr rfl)
    · cases hstep
  | failing status =>
    simp only [readerStep, hpc] at hstep
    cases hstep
    exact (h.fail status).moves rfl

theorem step_ackInv (h : s.AckInv) {a : SessionAction} (htime : HelloInTime parse s a)
    (hstep : s.step parse a = some s') : s'.AckInv := by
  cases a with
  | start =>
    simp only [step] at hstep
    split at hstep
    · cases hstep
      exact h
    · next hstart =>
      cases hstep
      exact start_ackInv h hstart
  | reader => exact readerStep_ackInv h htime hstep
  | writer => exact writerStep_ackInv h hstep
  | send m =>
    cases hstep
    exact send_ackInv h m
  | stop => exact stopStep_ackInv h hstep

end Queue
end IpcSession

/-- A session acknowledges once, if no second Hello is taken up before the writer has
marked the session as ready. -/
theorem acknowledges_once [JsonLib] (parse : List UInt8 → Except (List UInt8) Json)
    (config : IpcSessionConfig) (ack : HelloAck) (actions : List SessionAction) (s : IpcSession)
    (hrun : exec (IpcSession.step parse) (.create config ack) actions = some s)
    (htime : Along (IpcSession.step parse) (HelloInTime parse) (.create config ack)
      actions) :
    s.accepted.countP isHelloAck ≤ 1 := by
  have hinv : s.AckInv := exec_invariant (fun t a u ht hg hu => IpcSession.step_ackInv ht hg hu)
    (s := .create config ack) ⟨rfl, Nat.zero_le _, fun h => by cases h⟩ htime hrun
  rw [hinv.acks]
  exact hinv.once

section Checks
variable (parse : List UInt8 → Except (List UInt8) Json) (s : IpcSession)

instance : ∀ pc : SessionReaderPc, Decidable (pc.HelloInTime parse s)
  | .next _ _ (_ :: _) => inferInstanceAs (Decidable (_ → _ → _))
  | .next _ _ [] | .notStarted | .read | .readFailed _ | .peerClosed | .received _
  | .handshake .. | .dispatch .. | .handle .. | .failing _ | .exited => isTrue trivial

instance : ∀ a, Decidable (HelloInTime parse s a)
  | .reader _ => inferInstanceAs (Decidable (s.reader.HelloInTime parse s))
  | .start _ | .writer _ | .send _ | .stop _ => isTrue trivial

end Checks

theorem acknowledges_once_healthRun :
    ∃ s, exec (@IpcSession.step plainJson plainParse) plainSession healthRun = some s ∧
      s.handled ≠ [] ∧ s.accepted.countP isHelloAck ≤ 1 := by
  obtain ⟨s, hs, hhandled⟩ := healthRun_handles
  have htime : Along (@IpcSession.step plainJson plainParse)
      (HelloInTime plainParse) plainSession healthRun := by
    decide +kernel
  exact ⟨s, hs, hhandled,
    @acknowledges_once plainJson plainParse _ _ healthRun s hs htime⟩

/-- The second Hello comes in a read of its own, while the first acknowledgement waits for
the writer. -/
def greetTwiceRun : List SessionAction :=
  [.start true, .reader (.bytes (plainFrame plainHello)), .reader .go, .reader .go, .reader .go,
    .reader .go, .reader (.bytes (plainFrame plainHello)), .reader .go, .reader .go, .reader .go]

theorem acknowledges_twice :
    ∃ s, exec (@IpcSession.step plainJson plainParse) plainSession greetTwiceRun = some s ∧
      s.accepted.countP isHelloAck = 2 := by
  have hrun : (exec (@IpcSession.step plainJson plainParse) plainSession greetTwiceRun).any
      (fun s => decide (s.accepted.countP isHelloAck = 2)) = true := by
    decide +kernel
  obtain ⟨s, hs, hacks⟩ := (Option.any_eq_true _ _).mp hrun
  exact ⟨s, hs, of_decide_eq_true hacks⟩

end KimServing.Ipc

import KimServing.Client.Protocol
import KimServing.Library.Runs

/-! # The event buffer of a request

The reader puts the events of a request into a bounded buffer from which a handle
takes them. A full buffer refuses a delta, remembers that it did, and has the
request cancelled; the deltas that the worker sends until then are still offered.
-/
namespace KimServing.Client
open Library

structure TokenDelta where
  requestId : ℕ
  sequenceNo : ℕ
  tokenIds : List ℤ
  deriving DecidableEq

structure EventBuffer where
  maxDeltaEvents : ℕ
  deltas : List TokenDelta := []
  terminal : Option Terminal := none
  terminalDelivered : Bool := false
  overflowed : Bool := false
  deriving DecidableEq

inductive Yield where
  | delta (d : TokenDelta)
  | terminal (t : Terminal)
  | stopIteration
  deriving DecidableEq

namespace EventBuffer

def putDelta (b : EventBuffer) (d : TokenDelta) : EventBuffer × Bool :=
  if b.terminal.isSome then (b, false)
  else if b.maxDeltaEvents ≤ b.deltas.length then ({ b with overflowed := true }, false)
  else ({ b with deltas := b.deltas ++ [d] }, true)

def putTerminal (b : EventBuffer) (t : Terminal) : EventBuffer × Bool :=
  if b.terminal.isSome then (b, false) else ({ b with terminal := some t }, true)

/-- The caller waits while there is nothing to give; a call that times out changes
nothing. -/
def get (b : EventBuffer) : Option (EventBuffer × Yield) :=
  match b.deltas, b.terminal with
  | d :: rest, _ => some ({ b with deltas := rest }, .delta d)
  | [], none => none
  | [], some t =>
    if b.terminalDelivered then some (b, .stopIteration)
    else some ({ b with terminalDelivered := true }, .terminal t)

end EventBuffer

structure RequestState where
  requestId : ℤ
  events : EventBuffer
  accepted : Bool := false
  rejected : Option Status := none
  failure : Option Status := none
  nextSequenceNo : ℕ := 0
  terminalReceived : Bool := false
  cancelSent : Bool := false
  deriving DecidableEq

namespace RequestState

def checkEvent (r : RequestState) : Except PyError Unit :=
  if r.accepted = false then raiseText "request event arrived before Accepted"
  else if r.terminalReceived then raiseText "request event arrived after Terminal"
  else .ok ()

def onDelta (r : RequestState) (d : TokenDelta) : Except PyError (RequestState × Bool) := do
  r.checkEvent
  if d.sequenceNo ≠ r.nextSequenceNo then raiseText "TokenDelta sequence is not contiguous"
  else
    let r := { r with nextSequenceNo := r.nextSequenceNo + 1 }
    match r.events.putDelta d with
    | (events, true) => .ok ({ r with events := events }, false)
    | (events, false) =>
      .ok ({ r with events := events, cancelSent := true }, !r.cancelSent)

end RequestState

/-! ## One request with its consumer -/

structure Delivery where
  request : RequestState
  yielded : List Yield := []
  deriving DecidableEq

/-- The worker numbers its deltas in order. The terminal is marked under the lock of the
client and put into the buffer after it. -/
inductive DeliveryAction where
  | delta (tokenIds : List ℤ)
  | receiveTerminal
  | putTerminal (t : Terminal)
  | nextEvent
  deriving DecidableEq

namespace Delivery

def step (s : Delivery) : DeliveryAction → Option Delivery
  | .delta tokenIds =>
    match s.request.onDelta ⟨s.request.requestId.toNat, s.request.nextSequenceNo, tokenIds⟩ with
    | .error _ => none
    | .ok (request, _) => some { s with request := request }
  | .receiveTerminal =>
    if s.request.terminalReceived then none
    else some { s with request := { s.request with terminalReceived := true } }
  | .putTerminal t =>
    if s.request.terminalReceived = false ∨ s.request.events.terminal.isSome then none
    else
      some { s with request := { s.request with events := (s.request.events.putTerminal t).1 } }
  | .nextEvent =>
    match s.request.events.get with
    | none => none
    | some (events, result) =>
      some { s with
        request := { s.request with events := events }
        yielded := s.yielded ++ [result] }

def start (requestId maxDeltaEvents : ℕ) : Delivery where
  request := { requestId, events := { maxDeltaEvents }, accepted := true }

def numbers (results : List Yield) : List ℕ :=
  results.filterMap fun
    | .delta d => some d.sequenceNo
    | _ => none

/-- Once the buffer has refused a delta, it is still full whenever another one comes. -/
def StaysFull (s : Delivery) : DeliveryAction → Prop
  | .delta _ => s.request.events.overflowed = true →
      s.request.events.maxDeltaEvents ≤ s.request.events.deltas.length
  | _ => True

instance (s : Delivery) : ∀ a, Decidable (StaysFull s a)
  | .delta _ => inferInstanceAs (Decidable (_ → _))
  | .receiveTerminal | .putTerminal _ | .nextEvent => isTrue trivial

/-- What was yielded and what is buffered is numbered without a gap, up to the newest
delta unless one was refused. -/
structure Inv (s : Delivery) : Prop where
  accepted : s.request.accepted = true
  terminal : s.request.terminalReceived = false → s.request.events.terminal = none
  range : ∃ k ≤ s.request.nextSequenceNo,
    numbers s.yielded ++ s.request.events.deltas.map TokenDelta.sequenceNo = List.range k ∧
    (s.request.events.overflowed = false → k = s.request.nextSequenceNo)

theorem start_inv (requestId maxDeltaEvents : ℕ) : Inv (start requestId maxDeltaEvents) :=
  ⟨rfl, fun _ => rfl, 0, Nat.le_refl 0, rfl, fun _ => rfl⟩

theorem delta_inv {s t : Delivery} {tokenIds : List ℤ} (hs : Inv s)
    (hfull : StaysFull s (.delta tokenIds)) (h : step s (.delta tokenIds) = some t) : Inv t := by
  obtain ⟨k, hk, hrange, hnewest⟩ := hs.range
  simp only [step, RequestState.onDelta, RequestState.checkEvent, hs.accepted] at h
  cases hreceived : s.request.terminalReceived with
  | true => simp [hreceived, raiseText, raiseError, bind, Except.bind] at h
  | false =>
    have hterminal := hs.terminal hreceived
    simp only [hreceived, EventBuffer.putDelta, hterminal, bind, Except.bind] at h
    by_cases hle : s.request.events.maxDeltaEvents ≤ s.request.events.deltas.length
    · simp [hle] at h
      subst h
      exact ⟨rfl, fun _ => rfl, k, Nat.le_succ_of_le hk, hrange, by simp⟩
    · have hnot : s.request.events.overflowed = false := by
        cases ho : s.request.events.overflowed with
        | true => exact absurd (hfull ho) hle
        | false => rfl
      simp [hle] at h
      subst h
      obtain rfl := hnewest hnot
      refine ⟨rfl, fun _ => rfl, s.request.nextSequenceNo + 1, Nat.le_refl _, ?_, fun _ => rfl⟩
      rw [List.range_succ, ← hrange]
      simp

theorem nextEvent_inv {s t : Delivery} (hs : Inv s) (h : step s .nextEvent = some t) : Inv t := by
  obtain ⟨k, hk, hrange, hnewest⟩ := hs.range
  simp only [step, EventBuffer.get] at h
  rcases hd : s.request.events.deltas with _ | ⟨d, rest⟩
  · rw [hd] at hrange
    rcases ht : s.request.events.terminal with _ | u
    · simp [hd, ht] at h
    · have hreceived : s.request.terminalReceived = true := by
        by_contra hnot
        have hnone := hs.terminal (by simpa using hnot)
        cases ht.symm.trans hnone
      simp only [hd, ht] at h
      split at h
      · next heq =>
        cases h
      · next events result heq =>
        cases h
        split at heq
        · cases heq
          exact ⟨hs.accepted, hs.terminal, k, hk, by simpa [numbers, hd] using hrange, hnewest⟩
        · cases heq
          refine ⟨hs.accepted, fun hno => ?_, k, hk, by simpa [numbers, hd] using hrange, hnewest⟩
          simp [hreceived] at hno
  · simp only [hd] at h
    cases h
    refine ⟨hs.accepted, hs.terminal, k, hk, ?_, hnewest⟩
    rw [hd] at hrange
    simpa [numbers] using hrange

theorem step_inv {s t : Delivery} {a : DeliveryAction} (hs : Inv s) (hfull : StaysFull s a)
    (h : step s a = some t) : Inv t := by
  cases a with
  | delta => exact delta_inv hs hfull h
  | receiveTerminal =>
    simp only [step] at h
    split at h
    · cases h
    · cases h
      exact { hs with terminal := fun hno => by simp at hno }
  | putTerminal =>
    simp only [step] at h
    split at h
    · cases h
    · next hcond =>
      cases h
      simp only [not_or, Bool.not_eq_false, Bool.not_eq_true] at hcond
      refine ⟨hs.accepted, fun hno => ?_, ?_⟩
      · simp [hcond.1] at hno
      · simpa [EventBuffer.putTerminal, hcond.2] using hs.range
  | nextEvent => exact nextEvent_inv hs h

/-- A handle yields the first deltas of the worker as long as a buffer that has refused
one stays full. -/
theorem yields_contiguous (requestId maxDeltaEvents : ℕ) (run : List DeliveryAction) (s : Delivery)
    (hfull : Along step StaysFull (start requestId maxDeltaEvents) run)
    (hrun : exec step (start requestId maxDeltaEvents) run = some s) :
    ∃ k, numbers s.yielded = List.range k := by
  have hs : Inv s := exec_invariant (fun _ _ _ hi hg h => step_inv hi hg h)
    (start_inv requestId maxDeltaEvents) hfull hrun
  obtain ⟨k, -, hrange, -⟩ := hs.range
  have hfirst : numbers s.yielded <+: List.range k := ⟨_, hrange⟩
  refine ⟨(numbers s.yielded).length, ?_⟩
  have htake := List.prefix_iff_eq_take.mp hfirst
  rw [List.take_range, Nat.min_eq_left (by simpa using hfirst.length_le)] at htake
  exact htake

/-- The consumer empties the buffer before the refused delta's successor arrives. -/
def gapRun : List DeliveryAction :=
  [.delta [10], .delta [11], .nextEvent, .delta [12], .nextEvent]

/-- The delta after the refused one is delivered. -/
theorem refused_delta_leaves_gap :
    ∃ s, exec step (start 1 1) gapRun = some s ∧ s.request.events.overflowed = true ∧
      numbers s.yielded = [0, 2] ∧ ¬∃ k, numbers s.yielded = List.range k := by
  have hgap : ∀ k, [0, 2] ≠ List.range k := by
    intro k hk
    obtain rfl : 2 = k := by simpa using congrArg List.length hk
    exact absurd hk (by decide)
  have hrun : (exec step (start 1 1) gapRun).any (fun s =>
      s.request.events.overflowed && numbers s.yielded == [0, 2]) = true := by decide
  obtain ⟨s, hs, hgood⟩ := (Option.any_eq_true _ _).mp hrun
  rw [Bool.and_eq_true, beq_iff_eq] at hgood
  exact ⟨s, hs, hgood.1, hgood.2, fun ⟨k, hk⟩ => hgap k (hgood.2 ▸ hk)⟩

def patientRun : List DeliveryAction :=
  [.delta [10], .delta [11], .delta [12], .receiveTerminal,
    .putTerminal ⟨1, ⟨utf8 "cancelled", []⟩, none, ⟨1, 3⟩⟩, .nextEvent, .nextEvent, .nextEvent]

theorem yields_contiguous_patientRun :
    ∃ s, exec step (start 1 1) patientRun = some s ∧ s.request.events.overflowed = true ∧
      ∃ k, numbers s.yielded = List.range k := by
  have hrun : (exec step (start 1 1) patientRun).any (fun s =>
      s.request.events.overflowed) = true := by decide
  obtain ⟨s, hs, hgood⟩ := (Option.any_eq_true _ _).mp hrun
  exact ⟨s, hs, hgood, yields_contiguous 1 1 patientRun s (by decide) hs⟩

end Delivery

end KimServing.Client

import KimServing.Client.Protocol
import KimServing.Gateway.IncrementalDecoder
import KimServing.Library.Runs

/-! # A gateway session

One task pumps the events of a handle through the incremental decoder into a
bounded buffer, and a consumer takes them out again. A delta that the buffer
refuses, or that cannot be decoded, makes the pump drop all further deltas and
cancel the request; the terminal event of the worker still decides the status.
-/
namespace KimServing.Gateway
open Library List

structure GatewayTerminal where
  status : Client.Status
  finishReason : Option (List UInt8)
  usage : Ipc.Usage
  deriving DecidableEq

inductive GatewayEvent where
  | textDelta (text : List ℕ)
  | terminal (t : GatewayTerminal)
  deriving DecidableEq

/-! ## The buffer -/

structure AsyncEventBuffer where
  maxDeltaEvents : ℕ
  deltas : List (List ℕ) := []
  terminal : Option GatewayTerminal := none
  terminalDelivered : Bool := false
  abandoned : Bool := false
  deriving DecidableEq

namespace AsyncEventBuffer

def putDelta (b : AsyncEventBuffer) (text : List ℕ) : AsyncEventBuffer × Bool :=
  if b.terminal.isSome ∨ b.abandoned then (b, false)
  else if b.maxDeltaEvents ≤ b.deltas.length then (b, false)
  else ({ b with deltas := b.deltas ++ [text] }, true)

def putTerminal (b : AsyncEventBuffer) (t : GatewayTerminal) : AsyncEventBuffer × Bool :=
  if b.terminal.isSome then (b, false) else ({ b with terminal := some t }, true)

/-- The event that `get` returns, where `some none` is the end of the iteration and
`none` means that the caller waits. -/
def get (b : AsyncEventBuffer) : Option (AsyncEventBuffer × Option GatewayEvent) :=
  match b.deltas, b.terminal with
  | text :: rest, _ => some ({ b with deltas := rest }, some (.textDelta text))
  | [], none => none
  | [], some t =>
    if b.terminalDelivered then some (b, none)
    else some ({ b with terminalDelivered := true }, some (.terminal t))

def abandon (b : AsyncEventBuffer) : AsyncEventBuffer :=
  { b with abandoned := true, deltas := [] }

end AsyncEventBuffer

/-! ## The session -/

inductive HandleResult where
  | tokenDelta (tokenIds : List ℤ)
  | terminal (t : Client.Terminal)
  | stopIteration
  | raised (unavailable : Bool) (text : String)
  deriving DecidableEq

structure GatewaySession where
  buffer : AsyncEventBuffer
  decoder : IncrementalDecoder := {}
  droppingDeltas : Bool := false
  localFailure : Option Client.Status := none
  cancelSent : Bool := false
  done : Bool := false
  deriving DecidableEq

namespace GatewaySession

def cancel (s : GatewaySession) (sent : Bool) : GatewaySession :=
  if s.done ∨ s.cancelSent then s else { s with cancelSent := sent }

def finish (s : GatewaySession) (t : GatewayTerminal) : GatewaySession :=
  { s with buffer := (s.buffer.putTerminal t).1, done := true }

/-- One round of `_pump`. Only the call on the buffer is visible to the consumer, so
its events may come before or after the round, but not inside. -/
def pump (decode : Decode) (s : GatewaySession) (result : HandleResult) (sent : Bool) :
    GatewaySession :=
  match result with
  | .tokenDelta tokenIds =>
    if s.droppingDeltas then s
    else
      match s.decoder.append decode tokenIds with
      | (decoder, .error text) =>
        { s with
          decoder := decoder
          localFailure := some ⟨utf8 "internal_error", utf8 text⟩
          droppingDeltas := true }.cancel sent
      | (decoder, .ok text) =>
        let s := { s with decoder := decoder }
        if text = [] then s
        else
          match s.buffer.putDelta text with
          | (buffer, true) => { s with buffer := buffer }
          | (buffer, false) =>
            { s with buffer := buffer, droppingDeltas := true }.cancel sent
  | .terminal t =>
    s.finish ⟨s.localFailure.getD t.status,
      if s.localFailure.isSome then none else t.finishReason, t.usage⟩
  | .stopIteration =>
    s.finish ⟨⟨utf8 "internal_error", utf8 "generation ended without Terminal"⟩, none, {}⟩
  | .raised unavailable text =>
    s.finish ⟨⟨utf8 (if unavailable then "unavailable" else "internal_error"), utf8 text⟩, none, {}⟩

end GatewaySession

/-! ## Runs -/

inductive SessionAction where
  | pump (result : HandleResult) (sent : Bool)
  | nextEvent
  | cancel (sent : Bool)
  | abandon
  deriving DecidableEq

structure SessionRun where
  session : GatewaySession
  returned : List GatewayEvent := []
  received : List ℤ := []
  deriving DecidableEq

namespace SessionRun

def step (decode : Decode) (r : SessionRun) : SessionAction → Option SessionRun
  | .pump result sent =>
    if r.session.done then none
    else
      some { r with
        session := r.session.pump decode result sent
        received := match result with
          | .tokenDelta tokenIds => r.received ++ tokenIds
          | _ => r.received }
  | .nextEvent =>
    match r.session.buffer.get with
    | none => none
    | some (buffer, event) =>
      some { r with
        session := { r.session with buffer := buffer }
        returned := r.returned ++ event.toList }
  | .cancel sent => some { r with session := r.session.cancel sent }
  | .abandon => some { r with session := { r.session with buffer := r.session.buffer.abandon } }

def start (maxDeltaEvents : ℕ) : SessionRun := { session := { buffer := { maxDeltaEvents } } }

def textOf (events : List GatewayEvent) : List ℕ :=
  events.flatMap fun
    | .textDelta text => text
    | .terminal _ => []

/-! ## Complete texts -/

/-- The consumer keeps up: a delta with a text finds room in the buffer, and nobody
abandons the session. -/
def KeepsUp (decode : Decode) (r : SessionRun) : SessionAction → Prop
  | .pump (.tokenDelta tokenIds) _ =>
    r.session.droppingDeltas = true ∨
      (r.session.decoder.append decode tokenIds).2.toOption.getD [] = [] ∨
      r.session.buffer.deltas.length < r.session.buffer.maxDeltaEvents
  | .abandon => False
  | _ => True

instance (decode : Decode) (r : SessionRun) : ∀ a, Decidable (KeepsUp decode r a)
  | .pump (.tokenDelta _) _ => inferInstanceAs (Decidable (_ ∨ _ ∨ _))
  | .pump (.terminal _) _ | .pump .stopIteration _ | .pump (.raised _ _) _
  | .nextEvent | .cancel _ => isTrue trivial
  | .abandon => isFalse id

/-- While the consumer keeps up, what it got and what is buffered is the text of all
tokens, and a returned terminal comes after all of it. -/
structure Inv (text : List ℤ → List ℕ) (r : SessionRun) : Prop where
  dropping : r.session.droppingDeltas = false
  failure : r.session.localFailure = none
  decoder : r.session.decoder = ⟨r.received, text r.received⟩
  abandoned : r.session.buffer.abandoned = false
  done : r.session.done = r.session.buffer.terminal.isSome
  sum : textOf r.returned ++ r.session.buffer.deltas.flatten = text r.received
  last : ∀ before t after, r.returned = before ++ .terminal t :: after →
    r.session.done = true ∧ textOf before = text r.received

section
variable {text : List ℤ → List ℕ} {r r' : SessionRun}

theorem textOf_append (xs ys : List GatewayEvent) : textOf (xs ++ ys) = textOf xs ++ textOf ys :=
  flatMap_append

theorem start_inv (hempty : text [] = []) (maxDeltaEvents : ℕ) : Inv text (start maxDeltaEvents) where
  dropping := rfl
  failure := rfl
  decoder := by rw [start, hempty]
  abandoned := rfl
  done := rfl
  sum := hempty.symm
  last := fun before t after h => by simp [start] at h

theorem snoc_eq_append_cons {α : Type} {xs before after : List α} {x y : α}
    (h : xs ++ [x] = before ++ y :: after) :
    (after = [] ∧ xs = before ∧ x = y) ∨ ∃ after', xs = before ++ y :: after' := by
  rcases eq_nil_or_concat' after with rfl | ⟨after', z, rfl⟩
  · obtain ⟨hxs, hx⟩ := append_inj' h rfl
    exact Or.inl ⟨rfl, hxs, singleton_inj.mp hx⟩
  · rw [← cons_append, ← append_assoc] at h
    exact Or.inr ⟨after', (append_inj' h rfl).1⟩

theorem Inv.not_returned (hr : Inv text r) (hdone : r.session.done = false)
    (before : List GatewayEvent) (t : GatewayTerminal) (after : List GatewayEvent) :
    r.returned ≠ before ++ .terminal t :: after := by
  intro h
  have hlast := (hr.last before t after h).1
  cases hdone.symm.trans hlast

theorem pump_delta_inv (hextends : ∀ xs ys, text xs <+: text (xs ++ ys)) (hr : Inv text r)
    (hdone : r.session.done = false) {tokenIds : List ℤ} {sent : Bool}
    (hkeeps : KeepsUp (fun ids => .ok (text ids)) r (.pump (.tokenDelta tokenIds) sent)) :
    Inv text { r with
      session := r.session.pump (fun ids => .ok (text ids)) (.tokenDelta tokenIds) sent
      received := r.received ++ tokenIds } := by
  obtain ⟨gained, hgained⟩ := hextends r.received tokenIds
  have happend : r.session.decoder.append (fun ids => .ok (text ids)) tokenIds =
      (⟨r.received ++ tokenIds, text (r.received ++ tokenIds)⟩, .ok gained) := by
    let d : IncrementalDecoder := ⟨r.received, text r.received⟩
    have hd : d.decoded = text d.tokens := rfl
    have htotal := IncrementalDecoder.append_total hd tokenIds
    rw [if_pos ⟨gained, hgained⟩, ← hgained, drop_left] at htotal
    rw [hr.decoder, htotal, hgained]
  have hsum : textOf r.returned ++ (r.session.buffer.deltas.flatten ++ gained) =
      text (r.received ++ tokenIds) := by
    rw [← append_assoc, hr.sum, hgained]
  have hterminal : r.session.buffer.terminal.isSome = false := hr.done ▸ hdone
  simp only [GatewaySession.pump, hr.dropping, happend, Bool.false_eq_true, if_false]
  by_cases hnone : gained = []
  · -- the text did not change
    subst hnone
    rw [if_pos rfl]
    exact ⟨rfl, hr.failure, rfl, hr.abandoned, hr.done, by simpa using hsum,
      fun before t after h => absurd h (hr.not_returned hdone before t after)⟩
  · rw [if_neg hnone]
    have hroom : ¬r.session.buffer.maxDeltaEvents ≤ r.session.buffer.deltas.length := by
      simp only [KeepsUp, hr.dropping, happend, Except.toOption, Option.getD_some, hnone,
        Bool.false_eq_true, false_or] at hkeeps
      omega
    have hput : r.session.buffer.putDelta gained =
        ({ r.session.buffer with deltas := r.session.buffer.deltas ++ [gained] }, true) := by
      rw [AsyncEventBuffer.putDelta, if_neg (by simp [hterminal, hr.abandoned]), if_neg hroom]
    rw [hput]
    exact ⟨rfl, hr.failure, rfl, hr.abandoned, hr.done, by simpa using hsum,
      fun before t after h => absurd h (hr.not_returned hdone before t after)⟩

theorem finish_inv (hr : Inv text r) (hdone : r.session.done = false) (t : GatewayTerminal) :
    Inv text { r with session := r.session.finish t } := by
  have hterminal : r.session.buffer.terminal.isSome = false := hr.done ▸ hdone
  have hput : r.session.buffer.putTerminal t = ({ r.session.buffer with terminal := some t }, true) := by
    rw [AsyncEventBuffer.putTerminal, if_neg (by simp [hterminal])]
  simp only [GatewaySession.finish, hput]
  exact ⟨hr.dropping, hr.failure, hr.decoder, hr.abandoned, rfl, hr.sum,
    fun before t after h => absurd h (hr.not_returned hdone before t after)⟩

theorem cancel_inv (hr : Inv text r) (sent : Bool) :
    Inv text { r with session := r.session.cancel sent } := by
  unfold GatewaySession.cancel
  split
  · exact hr
  · exact { hr with }

theorem nextEvent_inv (hr : Inv text r) {buffer : AsyncEventBuffer} {event : Option GatewayEvent}
    (h : r.session.buffer.get = some (buffer, event)) :
    Inv text { r with
      session := { r.session with buffer := buffer }
      returned := r.returned ++ event.toList } := by
  unfold AsyncEventBuffer.get at h
  split at h
  · next delta rest hdeltas =>
    cases h
    have hsum := hr.sum
    rw [hdeltas, flatten_cons, ← append_assoc] at hsum
    refine { hr with sum := ?_, last := ?_ }
    · rw [textOf_append]
      simpa [textOf] using hsum
    · intro before t after hsplit
      -- a delta is the newest event, so the terminal stands before it
      rcases snoc_eq_append_cons hsplit with ⟨-, -, heq⟩ | ⟨after', hold⟩
      · cases heq
      · exact hr.last before t after' hold
  · cases h
  · next t hdeltas hterminal =>
    split at h
    · cases h
      refine { hr with sum := ?_, last := ?_ }
      · simpa using hr.sum
      · simpa using hr.last
    · cases h
      have hsum : textOf r.returned = text r.received := by simpa [hdeltas] using hr.sum
      refine { hr with sum := ?_, last := ?_ }
      · rw [textOf_append]
        simpa [textOf, hdeltas] using hsum
      · intro before u after hsplit
        rcases snoc_eq_append_cons hsplit with ⟨-, rfl, -⟩ | ⟨after', hold⟩
        · exact ⟨by rw [hr.done, hterminal]; rfl, hsum⟩
        · exact hr.last before u after' hold

theorem step_inv (hextends : ∀ xs ys, text xs <+: text (xs ++ ys)) {a : SessionAction}
    (hr : Inv text r) (hkeeps : KeepsUp (fun ids => .ok (text ids)) r a)
    (h : step (fun ids => .ok (text ids)) r a = some r') : Inv text r' := by
  cases a with
  | pump result =>
    simp only [step] at h
    cases hdone : r.session.done with
    | true => simp [hdone] at h
    | false =>
      simp only [hdone, Bool.false_eq_true, if_false] at h
      cases h
      cases result with
      | tokenDelta => exact pump_delta_inv hextends hr hdone hkeeps
      | terminal | stopIteration | raised => exact finish_inv hr hdone _
  | nextEvent =>
    simp only [step] at h
    cases hget : r.session.buffer.get with
    | none => simp [hget] at h
    | some =>
      simp only [hget] at h
      cases h
      exact nextEvent_inv hr hget
  | cancel sent =>
    cases h
    exact cancel_inv hr sent
  | abandon => exact absurd hkeeps id

end

/-- When the consumer keeps up, the text before a terminal is the text of all tokens. -/
theorem terminal_after_whole_text (text : List ℤ → List ℕ) (hempty : text [] = [])
    (hextends : ∀ xs ys, text xs <+: text (xs ++ ys)) (maxDeltaEvents : ℕ)
    (run : List SessionAction) (r : SessionRun)
    (hkeeps : Along (step fun ids => .ok (text ids)) (KeepsUp fun ids => .ok (text ids))
      (start maxDeltaEvents) run)
    (hrun : exec (step fun ids => .ok (text ids)) (start maxDeltaEvents) run = some r) :
    ∀ before t after, r.returned = before ++ .terminal t :: after → t.status.isOk = true →
      textOf before = text r.received := by
  intro before t after hreturned _
  have hr : Inv text r := exec_invariant (fun _ _ _ hs hg h => step_inv hextends hs hg h)
    (start_inv hempty maxDeltaEvents) hkeeps hrun
  exact (hr.last before t after hreturned).2

def letters (ids : List ℤ) : List ℕ := ids.map fun i => 96 + i.toNat

theorem letters_extends (xs ys : List ℤ) : letters xs <+: letters (xs ++ ys) := by
  rw [letters, letters, map_append]
  exact prefix_append _ _

def okTerminal : Client.Terminal :=
  ⟨1, ⟨utf8 "ok", []⟩, some (utf8 "length"), ⟨2, 2⟩⟩

def promptConsumer : List SessionAction :=
  [.pump (.tokenDelta [1]) false, .nextEvent, .pump (.tokenDelta [2]) false, .nextEvent,
    .pump (.terminal okTerminal) false, .nextEvent]

theorem terminal_after_whole_text_prompt :
    ∃ r, exec (step fun ids => .ok (letters ids)) (start 1) promptConsumer = some r ∧
      textOf [.textDelta [97], .textDelta [98]] = letters r.received :=
  ⟨_, rfl, terminal_after_whole_text letters rfl letters_extends 1 promptConsumer _ (by decide) rfl
    [.textDelta [97], .textDelta [98]] ⟨okTerminal.status, okTerminal.finishReason, okTerminal.usage⟩
    [] rfl (by decide)⟩

def lateConsumer : List SessionAction :=
  [.pump (.tokenDelta [1]) false, .pump (.tokenDelta [2]) true, .pump (.terminal okTerminal) false,
    .nextEvent, .nextEvent]

/-- The dropped delta is not reported: the terminal is the successful one of the worker. -/
theorem ok_terminal_after_part_of_text :
    ∃ r, exec (step fun ids => .ok (letters ids)) (start 1) lateConsumer = some r ∧
      r.returned = [.textDelta [97],
        .terminal ⟨okTerminal.status, okTerminal.finishReason, okTerminal.usage⟩] ∧
      okTerminal.status.isOk = true ∧ r.received = [1, 2] ∧
      textOf [.textDelta [97]] ≠ letters r.received :=
  ⟨_, rfl, rfl, by decide, rfl, by decide⟩

end SessionRun

end KimServing.Gateway

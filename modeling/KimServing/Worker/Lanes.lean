import KimServing.Library.Occurrences
import KimServing.Runtime.TerminalGate
import KimServing.Worker.BridgeMessages
import Mathlib.Logic.Function.Basic

/-! # Request lanes

What the worker is for, seen from the wire: every received Submit has a lane, in
which the handler and one pump write messages that the writer takes in order.
The egress is one queue per request id, and the threads are the few facts about
them that decide what may be written next.
-/
namespace KimServing
open Library Function List Ipc

inductive Stage where
  | waiting
  | polling
  | holding (d : TokenDelta)
  | forwarding (d : TokenDelta)
  | dropping
  | ending
  | closed
  deriving DecidableEq

structure Lane where
  requestId : ℕ
  gate : Gate
  stage : Stage
  cancelled : Bool
  allowed : Bool
  enqueued : List Message
  delivered : List Message

/-- The lanes of a session. While the handler is busy with a Submit, `decision`
holds its index and whether it was accepted already. -/
structure Lanes where
  lanes : ℕ → Lane
  ids : List ℕ
  decision : Option (ℕ × Bool)
  pending : ℕ → List Message
  accepting : Bool
  popped : List Message

def Ipc.Message.isFinal : Message → Bool
  | .rejected _ | .terminal _ => true
  | _ => false

def finals (requestId : ℕ) (messages : List Message) : ℕ :=
  messages.countP (fun m => m.isFinal && decide (m.requestId? = some requestId))

def deltaMessage (c : RuntimeBridgeConfig) (d : TokenDelta) : Message :=
  .tokenDelta (wireDelta c d)

def acceptedWord (c : RuntimeBridgeConfig) (requestId : ℕ) (forwarded : List TokenDelta) :
    List Message :=
  wireAccepted c requestId :: forwarded.map (deltaMessage c)

/-! ## Steps -/

inductive Lane.Moves (l : Lane) : Stage → Prop where
  | enter (hstage : l.stage = .waiting) (hallowed : l.allowed = true) : l.Moves .polling
  | leave : l.Moves .closed
  | skip (d : TokenDelta) (hstage : l.stage = .holding d) (hcancelled : l.cancelled = true) :
      l.Moves .polling
  | pass (d : TokenDelta) (hstage : l.stage = .holding d) (hcancelled : l.cancelled = false) :
      l.Moves (.forwarding d)
  | refuse (d : TokenDelta) (hstage : l.stage = .forwarding d) : l.Moves .dropping
  | resume (hstage : l.stage = .dropping) (hcancelled : l.cancelled = true) : l.Moves .polling

def Stage.afterWait : MailboxWaitResult → Stage
  | .event (.delta d) => .holding d
  | .event (.terminal _) => .ending
  | .timeout => .polling
  | .closed => .closed

namespace Lanes

def setLane (p : Lanes) (n : ℕ) (l : Lane) : Lanes :=
  { p with lanes := update p.lanes n l }

def openLane (p : Lanes) (requestId : ℕ) : Lanes :=
  { p.setLane p.ids.length { p.lanes p.ids.length with
      requestId := requestId, cancelled := false, allowed := false } with
    ids := requestId :: p.ids
    decision := some (p.ids.length, false) }

def append (p : Lanes) (n : ℕ) (l : Lane) (m : Message) : Lanes :=
  { p.setLane n { l with enqueued := l.enqueued ++ [m] } with
    pending := update p.pending l.requestId (p.pending l.requestId ++ [m]) }

def deliver (p : Lanes) (m : Message) : ℕ → Lane :=
  match m.requestId?.bind (fun requestId => lastIndex requestId p.ids) with
  | some n =>
    update p.lanes n { p.lanes n with delivered := (p.lanes n).delivered ++ [m] }
  | none => p.lanes

/-- One step of some thread. A client may send a request id again once it has got
the last word about every earlier Submit with that id. -/
inductive Step (c : RuntimeBridgeConfig) (p : Lanes) : Lanes → Prop where
  | receive (requestId : ℕ) (hidle : p.decision = none)
      (hclient : p.ids.count requestId ≤ finals requestId p.popped) :
      p.Step c (p.openLane requestId)
  | install (n : ℕ) (g : Gate) (hdecision : p.decision = some (n, false)) (hgate : g.GateInv)
      (hnew : g.delivered = []) : p.Step c (p.setLane n { p.lanes n with gate := g })
  | start (n : ℕ) (hdecision : p.decision = some (n, false)) :
      p.Step c (p.setLane n { p.lanes n with stage := .waiting })
  | settle : p.Step c { p with decision := none }
  | accept (n : ℕ) (hdecision : p.decision = some (n, false)) (haccepting : p.accepting = true) :
      p.Step c { p.append n (p.lanes n) (wireAccepted c (p.lanes n).requestId) with
        decision := some (n, true) }
  | reject (n : ℕ) (status : Status) (hdecision : p.decision = some (n, false))
      (haccepting : p.accepting = true) :
      p.Step c { p.append n (p.lanes n) (wireRejected c (p.lanes n).requestId status) with
        decision := none }
  | allow (n : ℕ) (hdecision : p.decision = some (n, true)) :
      p.Step c { p.setLane n { p.lanes n with allowed := true } with decision := none }
  | cancel (n : ℕ) : p.Step c (p.setLane n { p.lanes n with cancelled := true })
  | publish (n : ℕ) (call : GateCall) (g : Gate) (hgate : (p.lanes n).gate.step call = some g)
      (hcall : call ≠ .waitPop) : p.Step c (p.setLane n { p.lanes n with gate := g })
  | move (n : ℕ) (stage : Stage) (hmove : (p.lanes n).Moves stage) :
      p.Step c (p.setLane n { p.lanes n with stage := stage })
  | wait (n : ℕ) (hstage : (p.lanes n).stage = .polling) :
      p.Step c (p.setLane n { p.lanes n with
        gate := (p.lanes n).gate.popStep
        stage := .afterWait (p.lanes n).gate.state.mailbox.waitPop.1 })
  | forward (n : ℕ) (d : TokenDelta) (hstage : (p.lanes n).stage = .forwarding d)
      (hlabel : d.requestId = (p.lanes n).requestId) (haccepting : p.accepting = true) :
      p.Step c (p.append n { p.lanes n with stage := .polling } (deltaMessage c d))
  | finish (n : ℕ) (t : Terminal) (hstage : (p.lanes n).stage = .ending)
      (hlabel : t.requestId = (p.lanes n).requestId) (haccepting : p.accepting = true) :
      p.Step c (p.append n { p.lanes n with stage := .closed } (.terminal t))
  | take (m : Message) (pending : ℕ → List Message) (haccepting : p.accepting = true)
      (hpending : ∀ r, p.pending r =
        if m.requestId? = some r then m :: pending r else pending r) :
      p.Step c { p with lanes := p.deliver m, pending := pending, popped := p.popped ++ [m] }
  | stop : p.Step c { p with accepting := false, pending := fun _ => [] }

end Lanes

/-! ## What a lane has written -/

/-- The deltas written so far against those taken from the mailbox. A cancelled
request may have dropped a suffix; until then nothing is missing. -/
def Forwarded (received : List TokenDelta) (cancelled : Bool) (forwarded : List TokenDelta) :
    Stage → Prop
  | .waiting => forwarded = [] ∧ received = []
  | .polling => forwarded <+: received ∧ (forwarded = received ∨ cancelled = true)
  | .holding d => ∃ earlier, received = earlier ++ [d] ∧ forwarded <+: earlier ∧
      (forwarded = earlier ∨ cancelled = true)
  | .forwarding d => received = forwarded ++ [d]
  | _ => forwarded <+: received

theorem Forwarded.received_first {received forwarded : List TokenDelta} {cancelled : Bool} {stage : Stage}
    (h : Forwarded received cancelled forwarded stage) : forwarded <+: received := by
  cases stage with
  | waiting => rw [h.1]; exact nil_prefix
  | polling => exact h.1
  | holding =>
    obtain ⟨earlier, rfl, hle, -⟩ := h
    exact hle.trans (prefix_append _ _)
  | forwarding d => exact ⟨[d], h.symm⟩
  | dropping | ending | closed => exact h

theorem Forwarded.cancel {received forwarded : List TokenDelta} {cancelled : Bool} {stage : Stage}
    (h : Forwarded received cancelled forwarded stage) :
    Forwarded received true forwarded stage := by
  cases stage with
  | polling => exact ⟨h.1, Or.inr rfl⟩
  | holding =>
    obtain ⟨earlier, hr, hle, -⟩ := h
    exact ⟨earlier, hr, hle, Or.inr rfl⟩
  | _ => exact h

/-- Nothing, a rejection, an open word or one with its last word. -/
inductive LanePhase (c : RuntimeBridgeConfig) (l : Lane) : Prop where
  | blank (hword : l.enqueued = []) (hallowed : l.allowed = false)
      (hstage : l.stage = .waiting ∨ l.stage = .closed) (hreceived : l.gate.delivered = [])
  | refused (status : Status) (hword : l.enqueued = [wireRejected c l.requestId status])
      (hallowed : l.allowed = false) (hstage : l.stage = .waiting ∨ l.stage = .closed)
  | flowing (forwarded : List TokenDelta) (hword : l.enqueued = acceptedWord c l.requestId forwarded)
      (hlabels : ∀ d ∈ forwarded, d.requestId = l.requestId)
      (hforwarded : Forwarded l.gate.delivered l.cancelled forwarded l.stage)
  | ended (forwarded : List TokenDelta) (t : Terminal)
      (hword : l.enqueued = acceptedWord c l.requestId forwarded ++ [.terminal t])
      (hlabels : ∀ d ∈ forwarded, d.requestId = l.requestId)
      (hlabel : t.requestId = l.requestId) (hforwarded : forwarded <+: l.gate.delivered)
      (hstage : l.stage = .closed)

structure LaneInv (c : RuntimeBridgeConfig) (l : Lane) : Prop where
  gate : l.gate.GateInv
  phase : LanePhase c l

namespace LaneInv
variable {c : RuntimeBridgeConfig} {l : Lane}

theorem cancel (hl : LaneInv c l) : LaneInv c { l with cancelled := true } := by
  refine ⟨hl.gate, ?_⟩
  cases hl.phase with
  | blank hword hallowed hstage hreceived => exact .blank hword hallowed hstage hreceived
  | refused status hword hallowed hstage => exact .refused status hword hallowed hstage
  | flowing forwarded hword hlabels hforwarded =>
    exact .flowing forwarded hword hlabels hforwarded.cancel
  | ended forwarded t hword hlabels hlabel hforwarded hstage =>
    exact .ended forwarded t hword hlabels hlabel hforwarded hstage

theorem deliver (hl : LaneInv c l) {delivered : List Message} :
    LaneInv c { l with delivered := delivered } := by
  refine ⟨hl.gate, ?_⟩
  cases hl.phase with
  | blank hword hallowed hstage hreceived => exact .blank hword hallowed hstage hreceived
  | refused status hword hallowed hstage => exact .refused status hword hallowed hstage
  | flowing forwarded hword hlabels hforwarded => exact .flowing forwarded hword hlabels hforwarded
  | ended forwarded t hword hlabels hlabel hforwarded hstage =>
    exact .ended forwarded t hword hlabels hlabel hforwarded hstage

theorem publish (hl : LaneInv c l) {call : GateCall} {g : Gate} (h : l.gate.step call = some g)
    (hcall : call ≠ .waitPop) : LaneInv c { l with gate := g } := by
  have hsame := Gate.step_delivered h hcall
  refine ⟨Gate.step_inv hl.gate h, ?_⟩
  cases hl.phase with
  | blank hword hallowed hstage hreceived =>
    exact .blank hword hallowed hstage (hsame.trans hreceived)
  | refused status hword hallowed hstage => exact .refused status hword hallowed hstage
  | flowing forwarded hword hlabels hforwarded =>
    exact .flowing forwarded hword hlabels (by rw [hsame]; exact hforwarded)
  | ended forwarded t hword hlabels hlabel hforwarded hstage =>
    exact .ended forwarded t hword hlabels hlabel (by rw [hsame]; exact hforwarded) hstage

theorem blank (hl : LaneInv c l) (hword : l.enqueued = []) :
    l.allowed = false ∧ (l.stage = .waiting ∨ l.stage = .closed) ∧ l.gate.delivered = [] := by
  cases hl.phase with
  | blank _ hallowed hstage hreceived => exact ⟨hallowed, hstage, hreceived⟩
  | refused status h | flowing forwarded h | ended forwarded t h => rw [hword] at h; cases h

theorem flowing (hl : LaneInv c l) (hwaiting : l.stage ≠ .waiting) (hclosed : l.stage ≠ .closed) :
    ∃ forwarded, l.enqueued = acceptedWord c l.requestId forwarded ∧
      (∀ d ∈ forwarded, d.requestId = l.requestId) ∧
      Forwarded l.gate.delivered l.cancelled forwarded l.stage := by
  cases hl.phase with
  | blank _ _ hstage | refused _ _ _ hstage => exact absurd hstage (by simp [hwaiting, hclosed])
  | flowing forwarded hword hlabels hforwarded => exact ⟨forwarded, hword, hlabels, hforwarded⟩
  | ended _ _ _ _ _ _ hstage => exact absurd hstage hclosed

theorem move (hl : LaneInv c l) {stage : Stage} (hmove : l.Moves stage) :
    LaneInv c { l with stage := stage } := by
  refine ⟨hl.gate, ?_⟩
  cases hmove with
  | enter hstage hallowed =>
    cases hl.phase with
    | blank _ h | refused _ _ h => rw [hallowed] at h; cases h
    | flowing forwarded hword hlabels hforwarded =>
      rw [hstage] at hforwarded
      obtain ⟨rfl, hreceived⟩ := hforwarded
      exact .flowing [] hword hlabels ⟨List.nil_prefix, Or.inl hreceived.symm⟩
    | ended _ _ _ _ _ _ h => rw [hstage] at h; cases h
  | leave =>
    cases hl.phase with
    | blank hword hallowed hstage hreceived =>
      exact .blank hword hallowed (Or.inr rfl) hreceived
    | refused status hword hallowed => exact .refused status hword hallowed (Or.inr rfl)
    | flowing forwarded hword hlabels hforwarded =>
      exact .flowing forwarded hword hlabels hforwarded.received_first
    | ended forwarded t hword hlabels hlabel hforwarded =>
      exact .ended forwarded t hword hlabels hlabel hforwarded rfl
  | skip d hstage hcancelled | resume hstage hcancelled =>
    obtain ⟨forwarded, hword, hlabels, hforwarded⟩ := hl.flowing (by simp [hstage]) (by simp [hstage])
    exact .flowing forwarded hword hlabels ⟨hforwarded.received_first, Or.inr hcancelled⟩
  | pass d hstage hcancelled =>
    obtain ⟨forwarded, hword, hlabels, hforwarded⟩ := hl.flowing (by simp [hstage]) (by simp [hstage])
    rw [hstage] at hforwarded
    obtain ⟨earlier, hreceived, -, hall⟩ := hforwarded
    rw [hcancelled] at hall
    have heq : forwarded = earlier := by simpa using hall
    exact .flowing forwarded hword hlabels (by rw [heq]; exact hreceived)
  | refuse d hstage =>
    obtain ⟨forwarded, hword, hlabels, hforwarded⟩ := hl.flowing (by simp [hstage]) (by simp [hstage])
    exact .flowing forwarded hword hlabels hforwarded.received_first

theorem wait (hl : LaneInv c l) (hstage : l.stage = .polling) :
    LaneInv c { l with
      gate := l.gate.popStep, stage := .afterWait l.gate.state.mailbox.waitPop.1 } := by
  refine ⟨Gate.inv_pop hl.gate, ?_⟩
  obtain ⟨forwarded, hword, hlabels, hforwarded⟩ := hl.flowing (by simp [hstage]) (by simp [hstage])
  rw [hstage] at hforwarded
  obtain ⟨hle, hall⟩ := hforwarded
  have hreceived := l.gate.popStep_delivered
  refine .flowing forwarded hword hlabels ?_
  simp only [hreceived]
  rcases l.gate.state.mailbox.waitPop.1 with (d | t) | _ | _
  · exact ⟨l.gate.delivered, rfl, hle, hall⟩
  · simpa [Stage.afterWait, Forwarded] using hle
  · simpa [Stage.afterWait, Forwarded] using ⟨hle, hall⟩
  · simpa [Stage.afterWait, Forwarded] using hle

theorem accept (hl : LaneInv c l) (hword : l.enqueued = []) :
    LaneInv c { l with enqueued := l.enqueued ++ [wireAccepted c l.requestId] } := by
  obtain ⟨hallowed, hstage, hreceived⟩ := hl.blank hword
  refine ⟨hl.gate, .flowing [] (by simp [hword, acceptedWord]) (by simp) ?_⟩
  dsimp only
  rcases hstage with h | h
  · rw [h]
    exact ⟨rfl, hreceived⟩
  · rw [h]
    exact nil_prefix

theorem reject (hl : LaneInv c l) (hword : l.enqueued = []) (status : Status) :
    LaneInv c { l with enqueued := l.enqueued ++ [wireRejected c l.requestId status] } := by
  obtain ⟨hallowed, hstage, hreceived⟩ := hl.blank hword
  exact ⟨hl.gate, .refused status (by simp [hword]) hallowed hstage⟩

theorem forward (hl : LaneInv c l) {d : TokenDelta} (hstage : l.stage = .forwarding d)
    (hlabel : d.requestId = l.requestId) :
    LaneInv c { l with stage := .polling, enqueued := l.enqueued ++ [deltaMessage c d] } := by
  obtain ⟨forwarded, hword, hlabels, hforwarded⟩ := hl.flowing (by simp [hstage]) (by simp [hstage])
  rw [hstage] at hforwarded
  refine ⟨hl.gate, .flowing (forwarded ++ [d]) (by simp [hword, acceptedWord]) ?_ ?_⟩
  · intro d' hd'
    rcases mem_append.mp hd' with h | h
    · exact hlabels d' h
    · rw [mem_singleton.mp h]
      exact hlabel
  · exact ⟨by rw [hforwarded], Or.inl hforwarded.symm⟩

theorem finish (hl : LaneInv c l) {t : Terminal} (hstage : l.stage = .ending)
    (hlabel : t.requestId = l.requestId) :
    LaneInv c { l with stage := .closed, enqueued := l.enqueued ++ [.terminal t] } := by
  obtain ⟨forwarded, hword, hlabels, hforwarded⟩ := hl.flowing (by simp [hstage]) (by simp [hstage])
  exact ⟨hl.gate, .ended forwarded t (by rw [hword]) hlabels hlabel hforwarded.received_first rfl⟩

theorem allow (hl : LaneInv c l) (hhead : l.enqueued.head? = some (wireAccepted c l.requestId)) :
    LaneInv c { l with allowed := true } := by
  refine ⟨hl.gate, ?_⟩
  cases hl.phase with
  | blank hword | refused status hword => rw [hword] at hhead; cases hhead
  | flowing forwarded hword hlabels hforwarded => exact .flowing forwarded hword hlabels hforwarded
  | ended forwarded t hword hlabels hlabel hforwarded hstage =>
    exact .ended forwarded t hword hlabels hlabel hforwarded hstage

theorem countP_isFinal_acceptedWord (c : RuntimeBridgeConfig) (r : ℕ)
    (forwarded : List TokenDelta) :
    (acceptedWord c r forwarded).countP Message.isFinal = 0 := by
  rw [countP_eq_zero]
  intro m hm
  rcases mem_cons.mp hm with rfl | hm
  · simp [wireAccepted, Message.isFinal]
  · obtain ⟨d, -, rfl⟩ := mem_map.mp hm
    simp [deltaMessage, Message.isFinal]

theorem countP_isFinal_le (hl : LaneInv c l) : l.enqueued.countP Message.isFinal ≤ 1 := by
  cases hl.phase with
  | blank hword => simp [hword]
  | refused status hword => simp [hword, wireRejected, Message.isFinal]
  | flowing forwarded hword => rw [hword, countP_isFinal_acceptedWord]; omega
  | ended forwarded t hword =>
    rw [hword, countP_append, countP_isFinal_acceptedWord]
    simp [Message.isFinal]

theorem delivered_eq (hl : LaneInv c l) {delivered : List Message}
    (hfirst : delivered <+: l.enqueued) {m : Message} (hm : m ∈ delivered)
    (hfinal : m.isFinal = true) : delivered = l.enqueued := by
  -- The last word is the last message, so a prefix that holds it is the whole word.
  have hlast : ∃ init last, l.enqueued = init ++ [last] ∧ init.countP Message.isFinal = 0 := by
    cases hl.phase with
    | blank hword =>
      rw [hword] at hfirst
      rw [prefix_nil.mp hfirst] at hm
      cases hm
    | refused status hword => exact ⟨[], _, hword, rfl⟩
    | flowing forwarded hword =>
      have hzero := countP_isFinal_acceptedWord c l.requestId forwarded
      rw [← hword, countP_eq_zero] at hzero
      exact absurd hfinal (hzero m (hfirst.subset hm))
    | ended forwarded t hword => exact ⟨_, _, hword, countP_isFinal_acceptedWord _ _ _⟩
  obtain ⟨init, last, hword, hinit⟩ := hlast
  rw [hword] at hfirst ⊢
  rcases prefix_concat_iff.mp hfirst with h | h
  · exact h
  · exact absurd hfinal (countP_eq_zero.mp hinit m (h.subset hm))

end LaneInv

end KimServing

import KimServing.Worker.BridgeRefinement
import KimServing.Worker.TerminalReserve
import Mathlib.Logic.Relation

/-! # The grammar of the wire

For every Submit the writer takes a part of one rejection, or of an acceptance,
deltas numbered from zero and one terminal. The lanes of the bridge keep this in
every interleaving of the handler, the pumps, the writer, the monitor and a
shutdown with any backend, as long as the client waits for the last word about a
request id before it uses the id again.
-/
namespace KimServing
open Library Ipc

namespace Bridge

theorem initial_inv {c : RuntimeBridgeConfig} {e : SessionEgress}
    (he : SessionEgress.create c.makeEgressConfig = .ok e) : (initial c e).Inv := by
  obtain ⟨hvalid, rfl⟩ := SessionEgress.create_eq_ok he
  refine ⟨.initial hvalid, fun n => ⟨by simp [initial], by simp [initial], by simp [initial]⟩, ?_,
    .idle rfl⟩
  refine ⟨fun n => ⟨Gate.initial_inv _ _ _ _, .blank rfl rfl (Or.inl rfl) rfl⟩,
    fun n _ => ⟨rfl, rfl⟩, ?_, ?_, ?_, ?_, ?_, ?_⟩
  · nofun
  · nofun
  · nofun
  · intro r _
    rfl
  · nofun
  · intro r
    rfl

variable [JsonLib] {s s' : Bridge}

theorem step_simulates (hs : s.Inv) {a : BridgeAction} (hclient : s.Conforming a)
    (h : s.step a = some s') : s.Simulates s' := by
  cases a with
  | receive => exact receive_simulates hs hclient h
  | handler => exact handlerStep_simulates hs h
  | pump => exact pumpStep_simulates hs h
  | backend => exact backend_simulates hs h
  | writer => exact writerStep_simulates hs h
  | monitor => exact monitorStep_simulates hs h
  | stopper => exact stopperStep_simulates hs h
  | shutdown => exact shutdownStep_simulates hs h

theorem run_inv (hs : s.Inv) {actions : List BridgeAction} (hclient : Along step Conforming s actions)
    (hrun : exec step s actions = some s') : s'.Inv :=
  exec_invariant (fun _ _ _ ht hg hstep => ht.of_simulates (step_simulates ht hg hstep)) hs hclient
    hrun

end Bridge

/-- What the writer may take for one Submit of a request, when these deltas were
committed to its mailbox. -/
def WireWord (requestId : ℕ) (committed : List TokenDelta) (word : List Message) : Prop :=
  (∃ rejected : Rejected, rejected.requestId = requestId ∧ word <+: [.rejected rejected]) ∨
  ∃ (accepted : Ipc.Accepted) (deltas : List Ipc.TokenDelta) (terminal : Terminal),
    accepted.requestId = requestId ∧ (∀ d ∈ deltas, d.requestId = requestId) ∧
    terminal.requestId = requestId ∧
    deltas.map Ipc.TokenDelta.sequenceNo = List.range deltas.length ∧
    deltas.map Ipc.TokenDelta.tokenIds <+: committed.map TokenDelta.tokenIds ∧
    word <+: .accepted accepted :: deltas.map Message.tokenDelta ++ [.terminal terminal]

theorem forwarded_numbered {committed forwarded : List TokenDelta}
    (hnumbered : committed.map TokenDelta.sequenceNo = List.range committed.length)
    (hfirst : forwarded <+: committed) :
    forwarded.map TokenDelta.sequenceNo = List.range forwarded.length := by
  have htake := List.prefix_iff_eq_take.mp hfirst
  conv_lhs => rw [htake]
  rw [List.map_take, hnumbered, List.take_range, Nat.min_eq_left hfirst.length_le]

theorem acceptedWord_wireWord {c : RuntimeBridgeConfig} {requestId : ℕ}
    {committed forwarded : List TokenDelta} {word : List Message} {terminal : Terminal}
    (hnumbered : committed.map TokenDelta.sequenceNo = List.range committed.length)
    (hfirst : forwarded <+: committed) (hlabels : ∀ d ∈ forwarded, d.requestId = requestId)
    (hlabel : terminal.requestId = requestId)
    (hword : word <+: acceptedWord c requestId forwarded ++ [.terminal terminal]) :
    WireWord requestId committed word := by
  refine Or.inr ⟨⟨kProtocolVersion, c.workerEpoch, requestId⟩, forwarded.map (wireDelta c),
    terminal, rfl, ?_, hlabel, ?_, ?_, ?_⟩
  · intro d hd
    obtain ⟨d', hd', rfl⟩ := List.mem_map.mp hd
    exact hlabels d' hd'
  · simpa [Function.comp_def, wireDelta] using forwarded_numbered hnumbered hfirst
  · simpa [Function.comp_def, wireDelta] using hfirst.map TokenDelta.tokenIds
  · rw [List.map_map]
    exact hword

theorem LaneInv.wireWord {c : RuntimeBridgeConfig} {l : Lane} (hl : LaneInv c l)
    (hfirst : l.delivered <+: l.enqueued) :
    WireWord l.requestId l.gate.committed l.delivered := by
  have hreceived : l.gate.delivered <+: l.gate.committed := ⟨_, hl.gate.kept.symm⟩
  cases hl.phase with
  | blank hword =>
    rw [hword, List.prefix_nil] at hfirst
    exact Or.inl ⟨⟨kProtocolVersion, 0, l.requestId, .success⟩, rfl, by simp [hfirst]⟩
  | refused status hword =>
    rw [hword] at hfirst
    exact Or.inl ⟨_, rfl, hfirst⟩
  | flowing forwarded hword hlabels hforwarded =>
    rw [hword] at hfirst
    let terminal : Terminal := ⟨kProtocolVersion, 0, l.requestId, .success, none, {}⟩
    have hwhole : l.delivered <+: acceptedWord c l.requestId forwarded ++ [.terminal terminal] :=
      hfirst.trans (List.prefix_append _ _)
    exact acceptedWord_wireWord hl.gate.numbered (hforwarded.received_first.trans hreceived)
      hlabels rfl hwhole
  | ended forwarded t hword hlabels hlabel hforwarded =>
    rw [hword] at hfirst
    exact acceptedWord_wireWord hl.gate.numbered (hforwarded.trans hreceived) hlabels hlabel hfirst

/-- In every run, what the writer has taken for a request id is one word of the
wire grammar per Submit of that id, in the order of the Submits. -/
theorem wire_grammar [JsonLib] (c : RuntimeBridgeConfig) (e : SessionEgress)
    (actions : List BridgeAction) (s : Bridge) (requestId : ℕ)
    (he : SessionEgress.create c.makeEgressConfig = .ok e)
    (hclient : Along Bridge.step Bridge.Conforming (.initial c e) actions)
    (hrun : exec Bridge.step (.initial c e) actions = some s) :
    s.popped.filter (fun m => m.requestId? = some requestId) =
      (indices requestId s.ids).flatMap s.delivered ∧
    ∀ n ∈ indices requestId s.ids, WireWord requestId (s.gates n).committed (s.delivered n) := by
  have hs : s.Inv := Bridge.run_inv (Bridge.initial_inv he) hclient hrun
  refine ⟨hs.lanes.popped requestId, ?_⟩
  intro n hn
  have hword := (hs.lanes.lanes n).wireWord (hs.lanes.delivered_prefix hn)
  have hid : (s.lane n).requestId = requestId :=
    indices_unique (hs.lanes.known n (lt_of_mem_indices hn)) hn
  rw [show (s.toLanes.lanes n).requestId = requestId from hid] at hword
  exact hword

/-! ### A request from its Submit to its Terminal -/

def plainSubmit : Submit :=
  { workerEpoch := 1, requestId := 7, inputTokenIds := [1], maxNewTokens := 4 }

def admission : Environment := { submission := .accepted 1 1 {} }

def ordinaryBridge : Bridge :=
  .initial (.ofLimits 1 ordinaryLimits)
    { config := (RuntimeBridgeConfig.ofLimits 1 ordinaryLimits).makeEgressConfig }

def twoDeltas : List BridgeAction :=
  .receive (.submit plainSubmit) :: [.handler {}, .handler {}, .handler admission, .handler {},
    .handler {}, .handler {}, .handler {}, .handler {}, .backend 0 (.tryCommitDelta [1]),
    .backend 0 .finish, .backend 0 (.tryCommitDelta [2]), .backend 0 .finish,
    .backend 0 (.finalize .success (some .eos)), .backend 0 .finish]

def forwardDelta : List BridgeAction := List.replicate 4 (.pump 0 {})

def forwardTerminal : List BridgeAction := List.replicate 4 (.pump 0 {})

def plainRun : List BridgeAction :=
  twoDeltas ++ [.pump 0 {}] ++ forwardDelta ++ forwardDelta ++ forwardTerminal

/-- The writer takes and sends each of the four messages. -/
def sentRun : List BridgeAction := plainRun ++ List.replicate 16 (.writer {})

theorem sentRun_conforming :
    Along (@Bridge.step plainJson) Bridge.Conforming ordinaryBridge sentRun :=
  ⟨Nat.le_refl 0, fun _ _ => .of_forall (by simp [Bridge.Conforming, forwardDelta, forwardTerminal])⟩

def sentTypes : List String := ["accepted", "token_delta", "token_delta", "terminal"]

theorem sentRun_sends :
    ∃ s, exec (@Bridge.step plainJson) ordinaryBridge sentRun = some s ∧
      s.sent.map messageTypeName = sentTypes ∧ s.egress.accepting = true ∧
      lastIndex 7 s.ids = some 0 ∧ (s.enqueued 0).map messageTypeName = sentTypes := by
  have hrun : (exec (@Bridge.step plainJson) ordinaryBridge sentRun).any (fun s =>
      s.sent.map messageTypeName = sentTypes ∧ s.egress.accepting = true ∧
        lastIndex 7 s.ids = some 0 ∧ (s.enqueued 0).map messageTypeName = sentTypes) = true := by
    decide +kernel
  obtain ⟨s, hs, hsent⟩ := (Option.any_eq_true _ _).mp hrun
  exact ⟨s, hs, of_decide_eq_true hsent⟩

theorem wire_grammar_sentRun :
    ∃ s, exec (@Bridge.step plainJson) ordinaryBridge sentRun = some s ∧
      s.sent.map messageTypeName = sentTypes ∧
      ∀ n ∈ indices 7 s.ids, WireWord 7 (s.gates n).committed (s.delivered n) := by
  obtain ⟨s, hs, hsent, -⟩ := sentRun_sends
  exact ⟨s, hs, hsent, (@wire_grammar plainJson (.ofLimits 1 ordinaryLimits) _ sentRun s 7 rfl
    sentRun_conforming hs).2⟩

/-! ## What holds in every state of a conforming run -/

namespace Bridge

/-- A state that the bridge can be in with this configuration and a conforming client. -/
def Reached [JsonLib] (c : RuntimeBridgeConfig) (s : Bridge) : Prop :=
  ∃ e actions, SessionEgress.create c.makeEgressConfig = .ok e ∧
    Along step Conforming (initial c e) actions ∧ exec step (initial c e) actions = some s

theorem Reached.induct [JsonLib] {c : RuntimeBridgeConfig} {s : Bridge} {I : Bridge → Prop}
    (h : Reached c s)
    (hinitial : ∀ e, SessionEgress.create c.makeEgressConfig = .ok e → I (initial c e))
    (hstep : ∀ t a u, t.Inv → I t → t.Conforming a → t.step a = some u → I u) : s.Inv ∧ I s := by
  obtain ⟨e, actions, he, hclient, hrun⟩ := h
  refine exec_invariant (I := fun t => t.Inv ∧ I t) (fun t a u ht hg h => ?_)
    ⟨initial_inv he, hinitial e he⟩ hclient hrun
  exact ⟨ht.1.of_simulates (step_simulates ht.1 hg h), hstep t a u ht.1 ht.2 hg h⟩

theorem sentRun_reached : ∃ s, @Reached plainJson (.ofLimits 1 ordinaryLimits) s ∧
    s.sent.map messageTypeName = sentTypes ∧ s.egress.accepting = true ∧
    lastIndex 7 s.ids = some 0 ∧ (s.enqueued 0).map messageTypeName = sentTypes := by
  obtain ⟨s, hs, hsent⟩ := sentRun_sends
  exact ⟨s, ⟨_, sentRun, rfl, sentRun_conforming, hs⟩, hsent⟩

end Bridge

/-- The lanes abstract from the threads of the bridge: whatever these do with a conforming
client is a run of the lanes. -/
theorem bridge_refines_lanes [JsonLib] {c : RuntimeBridgeConfig} {s : Bridge}
    (h : Bridge.Reached c s) :
    Relation.ReflTransGen (Lanes.Step c)
      (Bridge.initial c { config := c.makeEgressConfig }).toLanes s.toLanes := by
  refine (h.induct (I := fun t => t.config = c ∧ Relation.ReflTransGen (Lanes.Step c)
    (Bridge.initial c { config := c.makeEgressConfig }).toLanes t.toLanes) ?_ ?_).2.2
  · intro e he
    obtain ⟨-, rfl⟩ := SessionEgress.create_eq_ok he
    exact ⟨rfl, .refl⟩
  · rintro t a u hinv ⟨hconfig, hreach⟩ hg hstep
    have hsim := Bridge.step_simulates hinv hg hstep
    refine ⟨hsim.config.trans hconfig, ?_⟩
    rcases hsim.refines with hsame | hmove
    · rw [hsame]
      exact hreach
    · exact hreach.tail (hconfig ▸ hmove)

theorem bridge_refines_lanes_sentRun :
    ∃ s, @Bridge.Reached plainJson (.ofLimits 1 ordinaryLimits) s ∧
      s.sent.map messageTypeName = sentTypes ∧
      ∃ start, Relation.ReflTransGen (Lanes.Step (.ofLimits 1 ordinaryLimits)) start s.toLanes := by
  obtain ⟨s, hs, hsent, -⟩ := Bridge.sentRun_reached
  exact ⟨s, hs, hsent, _, @bridge_refines_lanes plainJson _ s hs⟩

end KimServing

import KimServing.Ipc.SessionSafety
import KimServing.Worker.RuntimeBridge
import KimServing.Worker.WorkerServer

/-! # The bridge on its session

The bridge runs its handler on the reader thread of the session, hands its messages to the
session and waits for its end; the owner, the writer and the pumps of the bridge may all stop
the session. `IpcSession::stop` tests `joinable` and calls `join` outside of its lock. Two
callers that test before one of them has joined both issue a join on the same thread; if no
test falls between the test and the join of another caller, each thread is joined once.
-/
namespace KimServing
open Library Option Ipc

inductive SessionCaller where
  | owner
  | writer
  | pump (n : ℕ)
  deriving DecidableEq

def SessionCaller.index : SessionCaller → ℕ
  | .owner => 0
  | .writer => 1
  | .pump n => n + 2

theorem SessionCaller.index_injective : Function.Injective SessionCaller.index := by
  intro c d h
  cases c <;> cases d <;> simp [SessionCaller.index] at h ⊢
  exact h

/-- The callers that have found a thread joinable and have not joined it yet, and all that
have issued a join. -/
structure Joins where
  passed : List SessionCaller := []
  issued : List SessionCaller := []

namespace Joins

def pass (j : Joins) (c : SessionCaller) : Joins := { j with passed := j.passed ++ [c] }
def issue (j : Joins) (c : SessionCaller) : Joins := { j with issued := j.issued ++ [c] }
def complete (j : Joins) (c : SessionCaller) : Joins := { j with passed := j.passed.erase c }

end Joins

structure BridgeSession where
  bridge : Bridge
  session : IpcSession
  /-- The handler has got the message that the reader holds. -/
  handling : Bool := false
  readerJoins : Joins := {}
  writerJoins : Joins := {}

inductive BridgeSessionAction where
  | bridge (a : BridgeAction)
  | reader (choice : SessionChoice)
  | writer (choice : SessionChoice)
  | stop (c : SessionCaller)

def Ipc.IpcSession.waitUntilClosed (s : IpcSession) : Status :=
  if s.state = .failed ∨ s.state = .stopped then s.terminalStatus
  else .error .timeout "timed out waiting for IPC session close"

def Bridge.stopsSession (b : Bridge) : SessionCaller → Bool
  | .owner => match b.stopper with | .sessionStop => true | _ => false
  | .writer => match b.writer with | .sessionStop => true | _ => false
  | .pump n => match b.pumps n with | .sessionStop => true | _ => false

namespace BridgeSession

def inStop (s : BridgeSession) (c : SessionCaller) : Bool :=
  s.bridge.stopsSession c && (match s.session.stoppers c.index with | .returned _ => false | _ => true)

section Steps
variable [JsonLib]

def bridgeStep (s : BridgeSession) : BridgeAction → Option BridgeSession
  | .receive _ => none
  | .writer env =>
    match s.bridge.writer with
    | .send m =>
      (s.bridge.writerStep { env with sendStatus := (s.session.send m).1 }).map
        (fun b => { s with bridge := b, session := (s.session.send m).2 })
    | _ =>
      if s.inStop .writer then none
      else (s.bridge.writerStep env).map (fun b => { s with bridge := b })
  | .monitor env =>
    (s.bridge.monitorStep { env with closeStatus := s.session.waitUntilClosed }).map
      (fun b => { s with bridge := b })
  | .stopper env =>
    if s.inStop .owner then none
    else (s.bridge.stopperStep env).map (fun b => { s with bridge := b })
  | .pump n env =>
    if s.inStop (.pump n) then none
    else (s.bridge.pumpStep n env).map (fun b => { s with bridge := b })
  | a => (s.bridge.step a).map (fun b => { s with bridge := b })

/-- The reader of the session. It waits while the handler of the bridge is at work, and
gets an exception from a handler that has given up. -/
def readerStep (parse : List UInt8 → Except (List UInt8) Json) (s : BridgeSession)
    (choice : SessionChoice) : Option BridgeSession :=
  match s.session.reader with
  | .handle m _ _ _ =>
    if s.handling = false then
      (s.bridge.receive m).map (fun b => { s with bridge := b, handling := true })
    else
      match s.bridge.handler, choice with
      | .idle, .go =>
        (s.session.readerStep parse .go).map (fun t => { s with session := t, handling := false })
      | .exited, .threw what =>
        (s.session.readerStep parse (.threw what)).map
          (fun t => { s with session := t, handling := false })
      | _, _ => none
  | _ => (s.session.readerStep parse choice).map (fun t => { s with session := t })

/-- A thread inside `IpcSession::stop`. A join is issued in one step and returns in another. -/
def stopStep (s : BridgeSession) (c : SessionCaller) : Option BridgeSession :=
  if s.inStop c = false then none
  else
    match s.session.stoppers c.index with
    | .testReader =>
      (s.session.stopStep c.index).map (fun t => { s with
        session := t
        readerJoins := if s.session.readerJoinable then s.readerJoins.pass c else s.readerJoins })
    | .joinReader =>
      if c ∈ s.readerJoins.issued then
        (s.session.stopStep c.index).map
          (fun t => { s with session := t, readerJoins := s.readerJoins.complete c })
      else some { s with readerJoins := s.readerJoins.issue c }
    | .testWriter =>
      (s.session.stopStep c.index).map (fun t => { s with
        session := t
        writerJoins := if s.session.writerJoinable then s.writerJoins.pass c else s.writerJoins })
    | .joinWriter =>
      if c ∈ s.writerJoins.issued then
        (s.session.stopStep c.index).map
          (fun t => { s with session := t, writerJoins := s.writerJoins.complete c })
      else some { s with writerJoins := s.writerJoins.issue c }
    | _ => (s.session.stopStep c.index).map (fun t => { s with session := t })

def step (parse : List UInt8 → Except (List UInt8) Json) (s : BridgeSession) :
    BridgeSessionAction → Option BridgeSession
  | .bridge a => s.bridgeStep a
  | .reader choice => s.readerStep parse choice
  | .writer choice => (s.session.writerStep choice).map (fun t => { s with session := t })
  | .stop c => s.stopStep c

end Steps

def initial (c : RuntimeBridgeConfig) (e : SessionEgress) (session : IpcSession) :
    BridgeSession :=
  { bridge := .initial c e, session := session }

/-- No caller has found the thread joinable that this call tests and has yet to return
from its join. -/
def JoinsApart (s : BridgeSession) : SessionStopPc → Prop
  | .testReader => s.readerJoins.passed = []
  | .testWriter => s.writerJoins.passed = []
  | _ => True

def TestsApart (s : BridgeSession) : BridgeSessionAction → Prop
  | .stop c => s.JoinsApart (s.session.stoppers c.index)
  | _ => True

end BridgeSession

/-! ## Joins of one thread -/

/-- The account of the joins of one thread, with the callers that stand before or in a join. -/
structure JoinInv (joinable : Bool) (j : Joins) (joining : SessionCaller → Prop) : Prop where
  once : j.issued.length ≤ 1
  stands : ∀ c, joining c → j.passed = [c]
  pending : j.passed ≠ [] → ∀ c ∈ j.issued, c ∈ j.passed
  fresh : j.passed = [] → joinable = true → j.issued = []

namespace JoinInv
variable {joinable : Bool} {j : Joins} {joining joining' : SessionCaller → Prop} {c : SessionCaller}

theorem mono (h : JoinInv joinable j joining) (hsub : ∀ d, joining' d → joining d) :
    JoinInv joinable j joining' :=
  { h with stands := fun d hd => h.stands d (hsub d hd) }

theorem pass (h : JoinInv joinable j joining) (hjoinable : joinable = true)
    (hapart : j.passed = []) (hsub : ∀ d, joining' d → joining d ∨ d = c) :
    JoinInv joinable (j.pass c) joining' := by
  have hissued : j.issued = [] := h.fresh hapart hjoinable
  refine ⟨h.once, fun d hd => ?_, fun _ d hd => ?_, fun hpassed => ?_⟩
  · rcases hsub d hd with hd | rfl
    · have hstands := h.stands d hd
      cases hapart.symm.trans hstands
    · simp [Joins.pass, hapart]
  · simp [Joins.pass, hissued] at hd
  · simp [Joins.pass] at hpassed

theorem issue (h : JoinInv joinable j joining) (hjoining : joining c) (hnew : c ∉ j.issued) :
    JoinInv joinable (j.issue c) joining := by
  have hpassed : j.passed = [c] := h.stands c hjoining
  have hissued : j.issued = [] := by
    refine List.eq_nil_iff_forall_not_mem.mpr fun d hd => ?_
    have hmem := h.pending (by simp [hpassed]) d hd
    rw [hpassed, List.mem_singleton] at hmem
    exact hnew (hmem ▸ hd)
  refine ⟨?_, h.stands, fun _ d hd => ?_, fun hnil => ?_⟩
  · simp [Joins.issue, hissued]
  · simpa [Joins.issue, hissued, hpassed] using hd
  · simp [Joins.issue, hpassed] at hnil

theorem complete (h : JoinInv joinable j joining) (hjoining : joining c)
    (hsub : ∀ d, joining' d → joining d ∧ d ≠ c) : JoinInv false (j.complete c) joining' := by
  have hpassed : j.passed = [c] := h.stands c hjoining
  refine ⟨h.once, fun d hd => ?_, fun hpending => ?_, nofun⟩
  · obtain ⟨hd, hne⟩ := hsub d hd
    rw [h.stands d hd, List.cons.injEq] at hpassed
    exact absurd hpassed.1 hne
  · simp [Joins.complete, hpassed] at hpending

end JoinInv

namespace Ipc.IpcSession

structure SameCalls (s t : IpcSession) : Prop where
  stoppers : t.stoppers = s.stoppers
  readerJoinable : t.readerJoinable = s.readerJoinable
  writerJoinable : t.writerJoinable = s.writerJoinable

variable {s t : IpcSession}

theorem SameCalls.fail (s : IpcSession) (status : Status) : s.SameCalls (s.fail status) := by
  rcases s.fail_cases status with ⟨-, heq⟩ | ⟨-, recorded, -, heq⟩ <;> rw [heq] <;>
    exact ⟨rfl, rfl, rfl⟩

theorem SameCalls.moves (h : s.SameCalls t) (reader : SessionReaderPc) (writer : SessionWriterPc) :
    s.SameCalls { t with reader := reader, writer := writer } :=
  { h with }

theorem writerStep_sameCalls {choice : SessionChoice} (h : s.writerStep choice = some t) :
    s.SameCalls t := by
  unfold writerStep at h
  repeat' split at h
  all_goals first
    | cases h; done
    | (rw [← Option.some.inj h]
       exact ⟨rfl, rfl, rfl⟩)
    | (rw [← Option.some.inj h]
       rcases s.markReady_cases with ⟨-, heq⟩ | ⟨-, heq⟩ <;> rw [heq] <;> exact ⟨rfl, rfl, rfl⟩)
    | (rw [← Option.some.inj h]
       exact (SameCalls.fail s _).moves _ _)

section
variable [JsonLib]

theorem enqueueMessage_sameCalls (s : IpcSession) (m : Message) (requireReady mark : Bool) :
    s.SameCalls (s.enqueueMessage m requireReady mark).2 := by
  rcases s.enqueueMessage_cases m requireReady mark with ⟨-, heq⟩ | ⟨bytes, -, -, -, -, -, heq⟩ <;>
    rw [heq] <;> exact ⟨rfl, rfl, rfl⟩

theorem send_sameCalls (s : IpcSession) (m : Message) : s.SameCalls (s.send m).2 := by
  unfold send
  split
  · exact ⟨rfl, rfl, rfl⟩
  · exact s.enqueueMessage_sameCalls m true false

theorem handleHandshake_sameCalls (s : IpcSession) (m : Message) :
    s.SameCalls (s.handleHandshake m).2 := by
  cases m with
  | hello =>
    have hsame := s.enqueueMessage_sameCalls (.helloAck s.serverHelloAck) false true
    unfold handleHandshake
    dsimp only
    split
    · exact ⟨rfl, rfl, rfl⟩
    · dsimp only
      split
      · exact { hsame with }
      · exact hsame
  | _ => exact ⟨rfl, rfl, rfl⟩

theorem readerStep_sameCalls {parse : List UInt8 → Except (List UInt8) Json}
    {choice : SessionChoice} (h : s.readerStep parse choice = some t) : s.SameCalls t := by
  cases hpc : s.reader with
  | handshake m =>
    simp only [readerStep, hpc] at h
    cases h
    exact (s.handleHandshake_sameCalls m).moves _ _
  | failing status =>
    simp only [readerStep, hpc] at h
    cases h
    exact (SameCalls.fail s status).moves _ _
  | next started index payloads =>
    cases payloads with
    | nil =>
      simp only [readerStep, hpc] at h
      cases h
      exact ⟨rfl, rfl, rfl⟩
    | cons =>
      simp only [readerStep, hpc] at h
      repeat' split at h
      all_goals
        rw [← Option.some.inj h]
        exact ⟨rfl, rfl, rfl⟩
  | _ =>
    simp only [readerStep, hpc] at h
    repeat' split at h
    all_goals first
      | cases h; done
      | (rw [← Option.some.inj h]
         exact ⟨rfl, rfl, rfl⟩)

end
end Ipc.IpcSession

namespace BridgeSession

variable {c d : SessionCaller} {session : IpcSession} {moved pc : SessionStopPc}

structure JoinsInv (s : BridgeSession) : Prop where
  reader : JoinInv s.session.readerJoinable s.readerJoins
    (fun c => s.session.stoppers c.index = .joinReader)
  writer : JoinInv s.session.writerJoinable s.writerJoins
    (fun c => s.session.stoppers c.index = .joinWriter)

variable {s t : BridgeSession}

theorem JoinsInv.congr (h : s.JoinsInv) (hsame : s.session.SameCalls t.session)
    (hreader : t.readerJoins = s.readerJoins) (hwriter : t.writerJoins = s.writerJoins) :
    t.JoinsInv := by
  constructor
  · rw [hsame.readerJoinable, hreader, hsame.stoppers]
    exact h.reader
  · rw [hsame.writerJoinable, hwriter, hsame.stoppers]
    exact h.writer

theorem stoppers_setStopper (h : (session.setStopper c.index moved).stoppers d.index = pc) :
    d = c ∧ moved = pc ∨ d ≠ c ∧ session.stoppers d.index = pc := by
  unfold IpcSession.setStopper at h
  dsimp only at h
  by_cases hd : d = c
  · rw [hd, Function.update_self] at h
    exact Or.inl ⟨hd, h⟩
  · rw [Function.update_of_ne (SessionCaller.index_injective.ne hd)] at h
    exact Or.inr ⟨hd, h⟩

theorem stands_of_moved (hmoved : moved ≠ pc)
    (h : (session.setStopper c.index moved).stoppers d.index = pc) :
    session.stoppers d.index = pc := by
  rcases stoppers_setStopper h with ⟨-, heq⟩ | ⟨-, h⟩
  · exact absurd heq hmoved
  · exact h

theorem others_of_moved (hmoved : moved ≠ pc)
    (h : (session.setStopper c.index moved).stoppers d.index = pc) :
    session.stoppers d.index = pc ∧ d ≠ c := by
  rcases stoppers_setStopper h with ⟨-, heq⟩ | ⟨hd, h⟩
  · exact absurd heq hmoved
  · exact ⟨h, hd⟩

theorem stands_or_moved (h : (session.setStopper c.index moved).stoppers d.index = pc) :
    session.stoppers d.index = pc ∨ d = c := by
  rcases stoppers_setStopper h with ⟨hd, -⟩ | ⟨-, h⟩
  · exact Or.inr hd
  · exact Or.inl h

theorem JoinsInv.passes (h : s.JoinsInv) (hsame : s.session.SameCalls session)
    (hreader : pc ≠ .joinReader) (hwriter : pc ≠ .joinWriter) :
    JoinsInv { s with session := session.setStopper c.index pc } := by
  have h : JoinsInv { s with session := session } := h.congr hsame rfl rfl
  exact ⟨h.reader.mono fun d hd => stands_of_moved hreader hd,
    h.writer.mono fun d hd => stands_of_moved hwriter hd⟩

theorem stopStep_joins (h : s.JoinsInv) (hapart : s.TestsApart (.stop c))
    (hstep : s.stopStep c = some t) : t.JoinsInv := by
  unfold stopStep at hstep
  split at hstep
  · cases hstep
  cases hpc : s.session.stoppers c.index with
  | notCalled =>
    simp only [hpc, IpcSession.stopStep] at hstep
    split at hstep
    all_goals
      rw [← Option.some.inj hstep]
      exact h.passes ⟨rfl, rfl, rfl⟩ (by simp) (by simp)
  | testReader =>
    simp only [hpc, IpcSession.stopStep, map_some] at hstep
    cases hstep
    simp only [TestsApart, JoinsApart, hpc] at hapart
    cases hjoinable : s.session.readerJoinable with
    | false => exact h.passes ⟨rfl, rfl, rfl⟩ (by simp) (by simp)
    | true =>
      exact ⟨h.reader.pass hjoinable hapart fun d hd => stands_or_moved hd,
        h.writer.mono fun d hd => stands_of_moved (by simp) hd⟩
  | joinReader =>
    simp only [hpc] at hstep
    split at hstep
    · simp only [IpcSession.stopStep, hpc] at hstep
      split at hstep
      · rw [map_some, Option.some.injEq] at hstep
        subst hstep
        exact ⟨h.reader.complete hpc fun d hd => others_of_moved (by simp) hd,
          h.writer.mono fun d hd => stands_of_moved (by simp) hd⟩
      · cases hstep
    · next hnew =>
      cases hstep
      exact ⟨h.reader.issue hpc hnew, h.writer⟩
  | testWriter =>
    simp only [hpc, IpcSession.stopStep, map_some] at hstep
    cases hstep
    simp only [TestsApart, JoinsApart, hpc] at hapart
    cases hjoinable : s.session.writerJoinable with
    | false => exact h.passes ⟨rfl, rfl, rfl⟩ (by simp) (by simp)
    | true =>
      exact ⟨h.reader.mono fun d hd => stands_of_moved (by simp) hd,
        h.writer.pass hjoinable hapart fun d hd => stands_or_moved hd⟩
  | joinWriter =>
    simp only [hpc] at hstep
    split at hstep
    · simp only [IpcSession.stopStep, hpc] at hstep
      split at hstep
      · rw [map_some, Option.some.injEq] at hstep
        subst hstep
        exact ⟨h.reader.mono fun d hd => stands_of_moved (by simp) hd,
          h.writer.complete hpc fun d hd => others_of_moved (by simp) hd⟩
      · cases hstep
    · next hnew =>
      cases hstep
      exact ⟨h.reader, h.writer.issue hpc hnew⟩
  | finish =>
    simp only [hpc, IpcSession.stopStep, map_some] at hstep
    cases hstep
    exact h.passes ⟨rfl, rfl, rfl⟩ (by simp) (by simp)
  | returned => simp [hpc, IpcSession.stopStep] at hstep

section Runs
variable [JsonLib] {parse : List UInt8 → Except (List UInt8) Json}

theorem bridgeStep_joins (h : s.JoinsInv) {a : BridgeAction} (hstep : s.bridgeStep a = some t) :
    t.JoinsInv := by
  have hframe (b : Bridge) : JoinsInv { s with bridge := b } := ⟨h.reader, h.writer⟩
  cases a with
  | receive => cases hstep
  | writer =>
    simp only [bridgeStep] at hstep
    split at hstep
    · next m _ =>
      obtain ⟨b, -, rfl⟩ := map_eq_some_iff.mp hstep
      exact h.congr (s.session.send_sameCalls m) rfl rfl
    · split at hstep
      · cases hstep
      · obtain ⟨b, -, rfl⟩ := map_eq_some_iff.mp hstep
        exact hframe b
  | stopper | pump =>
    simp only [bridgeStep] at hstep
    split at hstep
    · cases hstep
    · obtain ⟨b, -, rfl⟩ := map_eq_some_iff.mp hstep
      exact hframe b
  | _ =>
    obtain ⟨b, -, rfl⟩ := map_eq_some_iff.mp hstep
    exact hframe b

theorem readerStep_joins (h : s.JoinsInv) {choice : SessionChoice}
    (hstep : s.readerStep parse choice = some t) : t.JoinsInv := by
  unfold readerStep at hstep
  repeat' split at hstep
  · obtain ⟨b, -, rfl⟩ := map_eq_some_iff.mp hstep
    exact ⟨h.reader, h.writer⟩
  · obtain ⟨session, hsession, rfl⟩ := map_eq_some_iff.mp hstep
    exact h.congr (IpcSession.readerStep_sameCalls hsession) rfl rfl
  · obtain ⟨session, hsession, rfl⟩ := map_eq_some_iff.mp hstep
    exact h.congr (IpcSession.readerStep_sameCalls hsession) rfl rfl
  · cases hstep
  · obtain ⟨session, hsession, rfl⟩ := map_eq_some_iff.mp hstep
    exact h.congr (IpcSession.readerStep_sameCalls hsession) rfl rfl

theorem step_joins (h : s.JoinsInv) {a : BridgeSessionAction} (hapart : s.TestsApart a)
    (hstep : s.step parse a = some t) : t.JoinsInv := by
  cases a with
  | bridge => exact bridgeStep_joins h hstep
  | reader => exact readerStep_joins h hstep
  | writer =>
    obtain ⟨session, hsession, rfl⟩ := map_eq_some_iff.mp hstep
    exact h.congr (IpcSession.writerStep_sameCalls hsession) rfl rfl
  | stop => exact stopStep_joins h hapart hstep

end Runs

end BridgeSession

/-- The threads of the session are joined once, if no test of `joinable` falls between the
test and the join of another caller. -/
theorem session_joined_once [JsonLib] (parse : List UInt8 → Except (List UInt8) Json)
    (c : RuntimeBridgeConfig) (e : SessionEgress) (config : IpcSessionConfig)
    (ack : HelloAck) (session : IpcSession) (actions : List BridgeSessionAction)
    (s : BridgeSession) (hstart : (IpcSession.create config ack).start true = .ok session)
    (hrun : exec (BridgeSession.step parse) (.initial c e session) actions = some s)
    (hapart : Along (BridgeSession.step parse) BridgeSession.TestsApart (.initial c e session)
      actions) :
    s.readerJoins.issued.length ≤ 1 ∧ s.writerJoins.issued.length ≤ 1 := by
  have hcalls : session.stoppers = fun _ => .notCalled := by
    obtain ⟨-, -, rfl⟩ := IpcSession.start_eq_ok.mp hstart
    rfl
  have hinit : (BridgeSession.initial c e session).JoinsInv := by
    have hnone (c : SessionCaller) : session.stoppers c.index = .notCalled := by rw [hcalls]
    constructor <;> refine ⟨Nat.zero_le 1, fun d hd => ?_, fun hne => absurd rfl hne, fun _ _ => rfl⟩
    all_goals
      simp [BridgeSession.initial, hnone d] at hd
  have hinv := exec_invariant (fun _ _ _ ht hg hu => BridgeSession.step_joins ht hg hu) hinit hapart
    hrun
  exact ⟨hinv.reader.once, hinv.writer.once⟩

section Checks
variable (s : BridgeSession)

instance : ∀ pc : SessionStopPc, Decidable (s.JoinsApart pc)
  | .testReader | .testWriter => inferInstanceAs (Decidable (_ = _))
  | .notCalled | .joinReader | .joinWriter | .finish | .returned _ => isTrue trivial

instance : ∀ a, Decidable (s.TestsApart a)
  | .stop _ => inferInstanceAs (Decidable (s.JoinsApart _))
  | .bridge _ | .reader _ | .writer _ => isTrue trivial

end Checks

def narrowSession : IpcSession :=
  { (narrowServer 6).makeSession with
    state := .handshaking, reader := .read, writer := .wait
    readerJoinable := true, writerJoinable := true }

theorem narrowSession_started :
    @IpcSession.start plainJson (narrowServer 6).makeSession true = .ok narrowSession :=
  (@IpcSession.start_eq_ok _ _ plainJson true).mpr ⟨by decide +kernel, rfl, rfl⟩

def narrowBridgeSession : BridgeSession :=
  .initial (narrowServer 6).bridge { config := (narrowServer 6).bridge.makeEgressConfig }
    narrowSession

/-- The peer probes and goes away while the writer of the bridge holds the answer. The
writer fails to send it and comes to stop the session, as does the owner of the bridge. -/
def probeAndLeave : List BridgeSessionAction :=
  [.reader (.bytes (plainFrame plainHello)), .reader .go, .reader .go, .reader .go,
    .reader .go, .writer .go, .writer .go, .writer .go,
    .reader (.bytes (plainFrame plainHealth)), .reader .go, .reader .go, .reader .go,
    .reader .go, .bridge (.handler {}), .bridge (.handler {}), .bridge (.handler {}),
    .bridge (.handler {}), .reader .go, .reader .go, .bridge (.writer {}), .bridge (.writer {}),
    .bridge (.writer {}), .reader .closed, .reader .go, .reader .go, .bridge (.writer {}),
    .bridge (.writer {}), .bridge (.shutdown {}), .bridge (.shutdown {}), .bridge (.writer {}),
    .bridge (.stopper {}), .bridge (.stopper {})]

def joinInTurn : List BridgeSessionAction :=
  probeAndLeave ++ [.stop .owner, .stop .owner, .stop .owner, .stop .owner, .stop .writer,
    .stop .writer]

theorem session_joined_once_inTurn :
    ∃ s, exec (@BridgeSession.step plainJson plainParse) narrowBridgeSession joinInTurn =
        some s ∧
      s.readerJoins.issued = [.owner] ∧ s.readerJoins.issued.length ≤ 1 := by
  have hrun : Along (@BridgeSession.step plainJson plainParse) BridgeSession.TestsApart
      narrowBridgeSession joinInTurn ∧
      (exec (@BridgeSession.step plainJson plainParse) narrowBridgeSession joinInTurn).any
        (fun s => decide (s.readerJoins.issued = [.owner])) = true := by
    decide +kernel
  obtain ⟨s, hs, hissued⟩ := (Option.any_eq_true _ _).mp hrun.2
  exact ⟨s, hs, of_decide_eq_true hissued, (@session_joined_once plainJson plainParse
    _ _ _ _ narrowSession joinInTurn s narrowSession_started hs hrun.1).1⟩

def joinAtOnce : List BridgeSessionAction :=
  probeAndLeave ++ [.stop .owner, .stop .writer, .stop .owner, .stop .writer, .stop .owner,
    .stop .writer]

theorem session_joined_twice :
    ∃ s, exec (@BridgeSession.step plainJson plainParse) narrowBridgeSession joinAtOnce =
        some s ∧
      s.readerJoins.issued = [.owner, .writer] := by
  have hrun : (exec (@BridgeSession.step plainJson plainParse) narrowBridgeSession
      joinAtOnce).any (fun s => decide (s.readerJoins.issued = [.owner, .writer])) = true := by
    decide +kernel
  obtain ⟨s, hs, hissued⟩ := (Option.any_eq_true _ _).mp hrun
  exact ⟨s, hs, of_decide_eq_true hissued⟩

end KimServing

import KimServing.Gateway.Session
import Mathlib.Algebra.BigOperators.Group.List.Basic
import Mathlib.Logic.Function.Basic

/-! # The gauges of the gateway

All sessions of a gateway share its metrics: an accepted session raises a gauge that
its pump lowers with the terminal, and every delta of a buffer is counted while it is
there. The pump is modelled here by what it does between two suspensions, so that the
steps of all sessions interleave. The gauges are exact in every run: no delta and no
terminal is counted twice, and the clamps of the source at zero change nothing.
-/
namespace KimServing.Gateway
open Library Function List

/-! ## The metrics -/

structure GatewayMetrics where
  accepted : ℕ := 0
  active : ℤ := 0
  activeHighWatermark : ℤ := 0
  terminals : List UInt8 → ℕ := fun _ => 0
  sseBufferedEvents : ℤ := 0
  sseBufferHighWatermark : ℤ := 0

def clampZero (value : ℤ) : ℤ := max 0 value

namespace GatewayMetrics

def countAccepted (m : GatewayMetrics) : GatewayMetrics :=
  { m with
    accepted := m.accepted + 1
    active := m.active + 1
    activeHighWatermark := max m.activeHighWatermark (m.active + 1) }

def sseDeltaEnqueued (m : GatewayMetrics) : GatewayMetrics :=
  { m with
    sseBufferedEvents := m.sseBufferedEvents + 1
    sseBufferHighWatermark := max m.sseBufferHighWatermark (m.sseBufferedEvents + 1) }

-- The clamp is a parameter, so that a run can be compared with one that has no clamp.
variable (clamp : ℤ → ℤ)

def terminal (m : GatewayMetrics) (code : List UInt8) : GatewayMetrics :=
  { m with
    terminals := update m.terminals code (m.terminals code + 1)
    active := clamp (m.active - 1) }

def sseDeltasReleased (m : GatewayMetrics) (count : ℕ) : GatewayMetrics :=
  { m with sseBufferedEvents := clamp (m.sseBufferedEvents - count) }

end GatewayMetrics

/-! ## The pump in steps -/

/-- Where a pump is suspended. `handling` says that the terminal comes from one of its
exception handlers. -/
inductive PumpPc where
  | nextEvent
  | putDelta (text : List ℕ)
  | cancelling
  | putTerminal (t : GatewayTerminal) (handling : Bool)
  | returned
  deriving DecidableEq

structure PumpTask where
  session : GatewaySession
  pc : PumpPc := .nextEvent
  counted : List GatewayTerminal := []
  deriving DecidableEq

inductive TaskAction where
  | event (result : HandleResult)
  | putDelta
  | cancelled (answer : Except String Bool)
  | putTerminal
  | get
  | cancel (sent : Bool)
  | abandon

namespace PumpTask

def buffered (p : PumpTask) : ℕ := p.session.buffer.deltas.length

def handle (p : PumpTask) (unavailable : Bool) (text : String) : PumpTask :=
  { p with
    pc := .putTerminal ⟨⟨utf8 (if unavailable then "unavailable" else "internal_error"), utf8 text⟩,
      none, {}⟩ true }

/-- `next_event` has returned or raised. A call of the tokenizer that raises something
else than a tokenizer error ends like a call that raises here. -/
def event (decode : Decode) (p : PumpTask) : HandleResult → PumpTask
  | .tokenDelta tokenIds =>
    if p.session.droppingDeltas then p
    else
      match p.session.decoder.append decode tokenIds with
      | (decoder, .error text) =>
        { p with
          session := { p.session with
            decoder := decoder
            localFailure := some ⟨utf8 "internal_error", utf8 text⟩
            droppingDeltas := true }
          pc := .cancelling }
      | (decoder, .ok text) =>
        { p with
          session := { p.session with decoder := decoder }
          pc := if text = [] then .nextEvent else .putDelta text }
  | .terminal t =>
    { p with
      pc := .putTerminal ⟨p.session.localFailure.getD t.status,
        if p.session.localFailure.isSome then none else t.finishReason, t.usage⟩ false }
  | .stopIteration =>
    { p with
      pc := .putTerminal ⟨⟨utf8 "internal_error", utf8 "generation ended without Terminal"⟩, none, {}⟩
        true }
  | .raised unavailable text => p.handle unavailable text

variable (clamp : ℤ → ℤ)

def putDelta (m : GatewayMetrics) (p : PumpTask) (text : List ℕ) : GatewayMetrics × PumpTask :=
  match p.session.buffer.putDelta text with
  | (buffer, true) =>
    (m.sseDeltaEnqueued, { p with session := { p.session with buffer := buffer }, pc := .nextEvent })
  | (buffer, false) =>
    (m, { p with
      session := { p.session with buffer := buffer, droppingDeltas := true }
      pc := .cancelling })

/-- The call of `put_terminal` in `_finish`, and what follows it. A duplicate raises:
inside the `try` this leads to the handler, inside a handler it ends the pump. -/
def putTerminal (m : GatewayMetrics) (p : PumpTask) (t : GatewayTerminal) (handling : Bool) :
    GatewayMetrics × PumpTask :=
  match p.session.buffer.putTerminal t with
  | (buffer, true) =>
    (m.terminal clamp t.status.code, { p with
      session := { p.session with buffer := buffer, done := true }
      pc := .returned
      counted := p.counted ++ [t] })
  | (_, false) =>
    if handling then (m, { p with session := { p.session with done := true }, pc := .returned })
    else (m, p.handle false "Gateway Session received duplicate Terminal")

def get (m : GatewayMetrics) (p : PumpTask) : Option (GatewayMetrics × PumpTask) :=
  match p.session.buffer.get with
  | none => none
  | some (buffer, event) =>
    let m := match event with
      | some (.textDelta _) => m.sseDeltasReleased clamp 1
      | _ => m
    some (m, { p with session := { p.session with buffer := buffer } })

def abandon (m : GatewayMetrics) (p : PumpTask) : GatewayMetrics × PumpTask :=
  let released := p.session.buffer.deltas.length
  (if released = 0 then m else m.sseDeltasReleased clamp released,
    { p with session := { p.session with buffer := p.session.buffer.abandon } })

def step (decode : Decode) (m : GatewayMetrics) (p : PumpTask) :
    TaskAction → Option (GatewayMetrics × PumpTask)
  | .event result => if p.pc = .nextEvent then some (m, p.event decode result) else none
  | .putDelta =>
    match p.pc with
    | .putDelta text => some (p.putDelta m text)
    | _ => none
  | .cancelled answer =>
    if p.pc = .cancelling then
      match answer with
      | .ok sent => some (m, { p with session := p.session.cancel sent, pc := .nextEvent })
      | .error text => some (m, p.handle false text)
    else none
  | .putTerminal =>
    match p.pc with
    | .putTerminal t handling => some (p.putTerminal clamp m t handling)
    | _ => none
  | .get => p.get clamp m
  | .cancel sent => some (m, { p with session := p.session.cancel sent })
  | .abandon => some (p.abandon clamp m)

end PumpTask

/-! ## All sessions -/

inductive GatewayAction where
  | accept (maxDeltaEvents : ℕ)
  | task (i : ℕ) (a : TaskAction)

structure GatewaySessions where
  metrics : GatewayMetrics := {}
  sessions : List PumpTask := []

namespace GatewaySessions

def step (clamp : ℤ → ℤ) (decode : Decode) (s : GatewaySessions) :
    GatewayAction → Option GatewaySessions
  | .accept maxDeltaEvents =>
    some {
      metrics := s.metrics.countAccepted
      sessions := s.sessions ++ [{ session := { buffer := { maxDeltaEvents } } }] }
  | .task i a =>
    match s.sessions[i]? with
    | none => none
    | some p =>
      match p.step clamp decode s.metrics a with
      | none => none
      | some (metrics, p) => some { metrics := metrics, sessions := s.sessions.set i p }

end GatewaySessions

/-! ## One session -/

namespace PumpTask
variable {clamp : ℤ → ℤ} {decode : Decode} {m m' : GatewayMetrics} {p p' : PumpTask}

structure Inv (p : PumpTask) : Prop where
  counted : p.counted = p.session.buffer.terminal.toList
  returned : p.pc = .returned ↔ p.session.buffer.terminal.isSome = true
  done : p.session.done = p.session.buffer.terminal.isSome

inductive Effect (clamp : ℤ → ℤ) (m : GatewayMetrics) (p : PumpTask) :
    GatewayMetrics → PumpTask → Prop
  | keep {p' : PumpTask} : p'.buffered = p.buffered → p'.counted = p.counted → Effect clamp m p m p'
  | enqueue {p' : PumpTask} : p'.buffered = p.buffered + 1 → p'.counted = p.counted →
    Effect clamp m p m.sseDeltaEnqueued p'
  | release {p' : PumpTask} (count : ℕ) : p.buffered = p'.buffered + count → p'.counted = p.counted →
    Effect clamp m p (m.sseDeltasReleased clamp count) p'
  | finish {p' : PumpTask} (t : GatewayTerminal) : p'.buffered = p.buffered → p.counted = [] →
    p'.counted = [t] → Effect clamp m p (m.terminal clamp t.status.code) p'

theorem Inv.open_of_pc (hp : p.Inv) (hpc : p.pc ≠ .returned) :
    p.session.buffer.terminal = none := by
  cases hterminal : p.session.buffer.terminal with
  | none => rfl
  | some => exact absurd (hp.returned.mpr (by rw [hterminal]; rfl)) hpc

theorem Inv.goOn (hp : p.Inv) (hpc : p.pc ≠ .returned) {q : PumpTask}
    (hterminal : q.session.buffer.terminal = p.session.buffer.terminal)
    (hdone : q.session.done = p.session.done) (hcounted : q.counted = p.counted)
    (hq : q.pc ≠ .returned) : q.Inv where
  counted := by rw [hcounted, hterminal, hp.counted]
  returned := by simp [hq, hterminal, hp.open_of_pc hpc]
  done := by rw [hdone, hterminal, hp.done]

theorem Inv.beside (hp : p.Inv) {q : PumpTask}
    (hterminal : q.session.buffer.terminal = p.session.buffer.terminal)
    (hdone : q.session.done = p.session.done) (hcounted : q.counted = p.counted)
    (hpc : q.pc = p.pc) : q.Inv where
  counted := by rw [hcounted, hterminal, hp.counted]
  returned := by rw [hpc, hterminal, hp.returned]
  done := by rw [hdone, hterminal, hp.done]

theorem event_effect (hp : p.Inv) (hpc : p.pc = .nextEvent) (result : HandleResult) :
    (p.event decode result).Inv ∧ Effect clamp m p m (p.event decode result) := by
  have hopen : p.pc ≠ .returned := by rw [hpc]; exact PumpPc.noConfusion
  unfold event
  split
  · split
    · exact ⟨hp, .keep rfl rfl⟩
    · split
      · exact ⟨hp.goOn hopen rfl rfl rfl PumpPc.noConfusion, .keep rfl rfl⟩
      · refine ⟨hp.goOn hopen rfl rfl rfl ?_, .keep rfl rfl⟩
        dsimp only
        split <;> exact PumpPc.noConfusion
  all_goals exact ⟨hp.goOn hopen rfl rfl rfl PumpPc.noConfusion, .keep rfl rfl⟩

theorem putDelta_effect (hp : p.Inv) {text : List ℕ} (hpc : p.pc = .putDelta text) :
    (p.putDelta m text).2.Inv ∧ Effect clamp m p (p.putDelta m text).1 (p.putDelta m text).2 := by
  have hopen : p.pc ≠ .returned := by rw [hpc]; exact PumpPc.noConfusion
  unfold putDelta AsyncEventBuffer.putDelta
  split_ifs
  · exact ⟨hp.goOn hopen rfl rfl rfl PumpPc.noConfusion, .keep rfl rfl⟩
  · exact ⟨hp.goOn hopen rfl rfl rfl PumpPc.noConfusion, .keep rfl rfl⟩
  · exact ⟨hp.goOn hopen rfl rfl rfl PumpPc.noConfusion, .enqueue (by simp [buffered]) rfl⟩

theorem putTerminal_effect (hp : p.Inv) {t : GatewayTerminal} {handling : Bool}
    (hpc : p.pc = .putTerminal t handling) :
    (p.putTerminal clamp m t handling).2.Inv ∧
      Effect clamp m p (p.putTerminal clamp m t handling).1 (p.putTerminal clamp m t handling).2 := by
  have hterminal := hp.open_of_pc (by rw [hpc]; exact PumpPc.noConfusion)
  have hcounted : p.counted = [] := by rw [hp.counted, hterminal]; rfl
  simp only [putTerminal, AsyncEventBuffer.putTerminal, hterminal, Option.isSome_none,
    Bool.false_eq_true, if_false, hcounted, nil_append]
  exact ⟨⟨rfl, by simp, rfl⟩, .finish t rfl hcounted rfl⟩

theorem get_effect (hp : p.Inv) (h : p.get clamp m = some (m', p')) :
    p'.Inv ∧ Effect clamp m p m' p' := by
  unfold get AsyncEventBuffer.get at h
  split at h
  · cases h
  next buffer event hget =>
    cases h
    split at hget
    · next text rest hdeltas =>
      cases hget
      refine ⟨hp.beside rfl rfl rfl rfl, .release 1 ?_ rfl⟩
      simp [buffered, hdeltas]
    · cases hget
    · split at hget
      · cases hget
        exact ⟨hp.beside rfl rfl rfl rfl, .keep rfl rfl⟩
      · cases hget
        exact ⟨hp.beside rfl rfl rfl rfl, .keep rfl rfl⟩

theorem abandon_effect (hp : p.Inv) :
    (p.abandon clamp m).2.Inv ∧ Effect clamp m p (p.abandon clamp m).1 (p.abandon clamp m).2 := by
  refine ⟨hp.beside rfl rfl rfl rfl, ?_⟩
  unfold abandon
  by_cases hempty : p.session.buffer.deltas.length = 0
  · simp only [hempty, if_true]
    exact .keep (by simp [buffered, AsyncEventBuffer.abandon, hempty]) rfl
  · simp only [hempty, if_false]
    exact .release _ (by simp [buffered, AsyncEventBuffer.abandon]) rfl

theorem cancel_buffer (s : GatewaySession) (sent : Bool) :
    (s.cancel sent).buffer = s.buffer ∧ (s.cancel sent).done = s.done := by
  unfold GatewaySession.cancel
  split <;> exact ⟨rfl, rfl⟩

theorem step_effect (hp : p.Inv) {a : TaskAction} (h : p.step clamp decode m a = some (m', p')) :
    p'.Inv ∧ Effect clamp m p m' p' := by
  cases a with
  | event result =>
    simp only [step] at h
    split at h
    next hpc =>
      cases h
      exact event_effect hp hpc result
    next => cases h
  | putDelta =>
    simp only [step] at h
    split at h
    next text hpc =>
      have heffect := @putDelta_effect clamp m p hp text hpc
      rwa [Option.some.inj h] at heffect
    next => cases h
  | cancelled answer =>
    simp only [step] at h
    split at h
    next hpc =>
      have hopen : p.pc ≠ .returned := by rw [hpc]; exact PumpPc.noConfusion
      cases answer with
      | ok sent =>
        cases h
        obtain ⟨hbuffer, hdone⟩ := cancel_buffer p.session sent
        refine ⟨hp.goOn hopen (by rw [hbuffer]) hdone rfl PumpPc.noConfusion, .keep ?_ rfl⟩
        rw [buffered, buffered, hbuffer]
      | error =>
        cases h
        exact ⟨hp.goOn hopen rfl rfl rfl PumpPc.noConfusion, .keep rfl rfl⟩
    next => cases h
  | putTerminal =>
    simp only [step] at h
    split at h
    next t handling hpc =>
      have heffect := @putTerminal_effect clamp m p hp t handling hpc
      rwa [Option.some.inj h] at heffect
    next => cases h
  | get => exact get_effect hp h
  | cancel sent =>
    cases h
    obtain ⟨hbuffer, hdone⟩ := cancel_buffer p.session sent
    refine ⟨hp.beside (by rw [hbuffer]) hdone rfl rfl, .keep ?_ rfl⟩
    rw [buffered, buffered, hbuffer]
  | abandon =>
    cases h
    exact abandon_effect hp

end PumpTask

/-! ## The gauges -/

def totalBuffered (sessions : List PumpTask) : ℕ := (sessions.map PumpTask.buffered).sum

def uncounted (sessions : List PumpTask) : ℕ := sessions.countP (·.counted.isEmpty)

def countedWith (code : List UInt8) (sessions : List PumpTask) : ℕ :=
  (sessions.map fun p => p.counted.countP (·.status.code == code)).sum

section Split
variable (before : List PumpTask) (p : PumpTask) (after : List PumpTask)

theorem totalBuffered_split :
    totalBuffered (before ++ p :: after) = p.buffered + totalBuffered (before ++ after) := by
  simp only [totalBuffered, map_append, map_cons, sum_append, sum_cons]
  omega

theorem uncounted_split : uncounted (before ++ p :: after) =
    (if p.counted.isEmpty then 1 else 0) + uncounted (before ++ after) := by
  simp only [uncounted, countP_append, countP_cons]
  omega

theorem countedWith_split (code : List UInt8) : countedWith code (before ++ p :: after) =
    p.counted.countP (·.status.code == code) + countedWith code (before ++ after) := by
  simp only [countedWith, map_append, map_cons, sum_append, sum_cons]
  omega

end Split

namespace GatewaySessions
variable {clamp : ℤ → ℤ} {decode : Decode} {s t : GatewaySessions}

variable {a : GatewayAction} {m : GatewayMetrics}

structure GaugeInv (s : GatewaySessions) : Prop where
  sessions : ∀ p ∈ s.sessions, p.Inv
  accepted : s.metrics.accepted = s.sessions.length
  active : s.metrics.active = uncounted s.sessions
  buffered : s.metrics.sseBufferedEvents = totalBuffered s.sessions
  terminals : ∀ code, s.metrics.terminals code = countedWith code s.sessions

theorem initial_gaugeInv : GaugeInv {} where
  sessions := by simp
  accepted := rfl
  active := rfl
  buffered := rfl
  terminals := fun _ => rfl

theorem step_cases (hs : ∀ p ∈ s.sessions, p.Inv) (h : s.step clamp decode a = some t) :
    (∃ maxDeltaEvents, t = {
      metrics := s.metrics.countAccepted
      sessions := s.sessions ++ [{ session := { buffer := { maxDeltaEvents } } }] }) ∨
    ∃ before p p' after metrics, s.sessions = before ++ p :: after ∧
      t = ⟨metrics, before ++ p' :: after⟩ ∧ p'.Inv ∧
      PumpTask.Effect clamp s.metrics p metrics p' := by
  cases a with
  | accept maxDeltaEvents => exact Or.inl ⟨maxDeltaEvents, (Option.some.inj h).symm⟩
  | task i =>
    simp only [step] at h
    split at h
    next => cases h
    next p hp =>
      split at h
      next => cases h
      next metrics p' hstep =>
        cases h
        obtain ⟨hi, rfl⟩ := List.getElem?_eq_some_iff.mp hp
        obtain ⟨before, after, hsplit, -, hset⟩ := @exists_of_set _ i p' _ hi
        obtain ⟨hinv, heffect⟩ := PumpTask.step_effect (hs _ (getElem_mem hi)) hstep
        exact Or.inr ⟨before, _, p', after, metrics, hsplit, by rw [hset], hinv, heffect⟩

theorem GaugeInv.accept (hs : s.GaugeInv) (maxDeltaEvents : ℕ) : GaugeInv {
    metrics := s.metrics.countAccepted
    sessions := s.sessions ++ [{ session := { buffer := { maxDeltaEvents } } }] } where
  sessions := by
    simp only [mem_append, mem_singleton]
    rintro p (hp | rfl)
    · exact hs.sessions p hp
    · exact ⟨rfl, by simp, rfl⟩
  accepted := by simp [GatewayMetrics.countAccepted, hs.accepted]
  active := by
    rw [uncounted_split, append_nil]
    simp [GatewayMetrics.countAccepted, hs.active, Int.add_comm]
  buffered := by
    rw [totalBuffered_split, append_nil]
    simp [GatewayMetrics.countAccepted, PumpTask.buffered, hs.buffered]
  terminals code := by
    rw [countedWith_split, append_nil]
    simp [GatewayMetrics.countAccepted, hs.terminals]

theorem GaugeInv.step (hs : s.GaugeInv) (h : s.step id decode a = some t) : t.GaugeInv := by
  rcases step_cases hs.sessions h with ⟨n, rfl⟩ |
    ⟨before, p, p', after, metrics, hsessions, rfl, hp', heffect⟩
  · exact hs.accept n
  have haccepted : s.metrics.accepted = (before ++ p' :: after).length := by
    simpa [hsessions] using hs.accepted
  have hactive := hs.active
  have hbuffered := hs.buffered
  have hterminals := hs.terminals
  simp only [hsessions, uncounted_split, totalBuffered_split, countedWith_split]
    at hactive hbuffered hterminals
  have hall : ∀ q ∈ before ++ p' :: after, q.Inv := by
    intro q hq
    rcases mem_append.mp hq with hq | hq
    · exact hs.sessions q (by simp [hsessions, hq])
    · rcases mem_cons.mp hq with rfl | hq
      · exact hp'
      · exact hs.sessions q (by simp [hsessions, hq])
  cases heffect with
  | keep hbuf hcount =>
    refine ⟨hall, haccepted, ?_, ?_, fun code => ?_⟩
    · rw [uncounted_split, hcount, hactive]
    · rw [totalBuffered_split, hbuf, hbuffered]
    · rw [countedWith_split, hcount, hterminals]
  | enqueue hbuf hcount =>
    refine ⟨hall, haccepted, ?_, ?_, fun code => ?_⟩
    · rw [uncounted_split, hcount]
      exact hactive
    · simp only [GatewayMetrics.sseDeltaEnqueued, totalBuffered_split, hbuf, hbuffered]
      omega
    · rw [countedWith_split, hcount]
      exact hterminals code
  | release count hbuf hcount =>
    refine ⟨hall, haccepted, ?_, ?_, fun code => ?_⟩
    · rw [uncounted_split, hcount]
      exact hactive
    · simp only [GatewayMetrics.sseDeltasReleased, totalBuffered_split, hbuf, hbuffered, id]
      omega
    · rw [countedWith_split, hcount]
      exact hterminals code
  | finish terminal hbuf hnone hcount =>
    refine ⟨hall, haccepted, ?_, ?_, fun code => ?_⟩
    · simp only [GatewayMetrics.terminal, uncounted_split, hcount, hactive, hnone, id,
        isEmpty_nil, isEmpty_cons, Bool.false_eq_true, if_true, if_false]
      omega
    · rw [totalBuffered_split, hbuf]
      exact hbuffered
    · rw [countedWith_split, hcount]
      have hold := hterminals code
      rw [hnone, countP_nil] at hold
      simp only [GatewayMetrics.terminal, countP_singleton, beq_iff_eq]
      by_cases hcode : terminal.status.code = code
      · subst hcode
        rw [update_self, if_pos rfl]
        omega
      · rw [update_of_ne (Ne.symm hcode), if_neg hcode, hold]

/-! ## The clamps -/

theorem sseDeltasReleased_clampZero {count : ℕ} (h : (count : ℤ) ≤ m.sseBufferedEvents) :
    m.sseDeltasReleased clampZero count = m.sseDeltasReleased id count := by
  simp only [GatewayMetrics.sseDeltasReleased, clampZero, id, max_eq_right (Int.sub_nonneg.mpr h)]

theorem terminal_clampZero (h : 1 ≤ m.active) (code : List UInt8) :
    m.terminal clampZero code = m.terminal id code := by
  simp only [GatewayMetrics.terminal, clampZero, id, max_eq_right (Int.sub_nonneg.mpr h)]

theorem task_clampZero {p : PumpTask} (hp : p.Inv)
    (hbuffered : (p.buffered : ℤ) ≤ m.sseBufferedEvents) (hactive : p.counted = [] → 1 ≤ m.active)
    (a : TaskAction) : p.step clampZero decode m a = p.step id decode m a := by
  cases a with
  | putTerminal =>
    cases hpc : p.pc with
    | putTerminal =>
      have hopen := hp.open_of_pc (by rw [hpc]; exact PumpPc.noConfusion)
      have hcounted : p.counted = [] := by rw [hp.counted, hopen]; rfl
      simp only [PumpTask.step, hpc, PumpTask.putTerminal, terminal_clampZero (hactive hcounted)]
    | _ => simp only [PumpTask.step, hpc]
  | get =>
    cases hdeltas : p.session.buffer.deltas with
    | nil =>
      cases hterminal : p.session.buffer.terminal with
      | none => simp only [PumpTask.step, PumpTask.get, AsyncEventBuffer.get, hdeltas, hterminal]
      | some =>
        cases hdelivered : p.session.buffer.terminalDelivered <;>
          simp [PumpTask.step, PumpTask.get, AsyncEventBuffer.get, hdeltas, hterminal, hdelivered]
    | cons =>
      have hone : ((1 : ℕ) : ℤ) ≤ m.sseBufferedEvents := by
        rw [PumpTask.buffered, hdeltas, length_cons] at hbuffered
        omega
      simp only [PumpTask.step, PumpTask.get, AsyncEventBuffer.get, hdeltas,
        sseDeltasReleased_clampZero hone]
  | abandon =>
    have hall : (p.session.buffer.deltas.length : ℤ) ≤ m.sseBufferedEvents := hbuffered
    simp only [PumpTask.step, PumpTask.abandon, sseDeltasReleased_clampZero hall]
  | event | putDelta | cancelled | cancel => rfl

theorem GaugeInv.step_clampZero (hs : s.GaugeInv) (a : GatewayAction) :
    s.step clampZero decode a = s.step id decode a := by
  cases a with
  | accept => rfl
  | task i a =>
    cases hi : s.sessions[i]? with
    | none => simp only [GatewaySessions.step, hi]
    | some p =>
      obtain ⟨before, after, hsplit⟩ := append_of_mem (mem_of_getElem? hi)
      have hbuffered := hs.buffered
      have hactive := hs.active
      rw [hsplit, totalBuffered_split] at hbuffered
      rw [hsplit, uncounted_split] at hactive
      have hagree := @task_clampZero decode s.metrics p
        (hs.sessions p (mem_of_getElem? hi)) (by omega)
        (fun hcounted => by rw [hcounted, isEmpty_nil, if_pos rfl] at hactive; omega) a
      simp only [GatewaySessions.step, hi, hagree]

/-! ## The watermarks -/

theorem active_mark (hs : s.GaugeInv) (hle : s.metrics.active ≤ s.metrics.activeHighWatermark)
    (h : s.step id decode a = some t) :
    t.metrics.activeHighWatermark = max s.metrics.activeHighWatermark t.metrics.active := by
  rcases step_cases hs.sessions h with ⟨n, rfl⟩ |
    ⟨before, p, p', after, metrics, hsessions, rfl, hp', heffect⟩
  · rfl
  · cases heffect with
    | finish =>
      have hless : s.metrics.active - 1 ≤ s.metrics.activeHighWatermark := by omega
      exact (max_eq_left hless).symm
    | _ => exact (max_eq_left hle).symm

theorem buffer_mark (hs : s.GaugeInv)
    (hle : s.metrics.sseBufferedEvents ≤ s.metrics.sseBufferHighWatermark)
    (h : s.step id decode a = some t) :
    t.metrics.sseBufferHighWatermark =
      max s.metrics.sseBufferHighWatermark t.metrics.sseBufferedEvents := by
  rcases step_cases hs.sessions h with ⟨n, rfl⟩ |
    ⟨before, p, p', after, metrics, hsessions, rfl, hp', heffect⟩
  · exact (max_eq_left hle).symm
  · cases heffect with
    | enqueue => rfl
    | release count =>
      have hless : s.metrics.sseBufferedEvents - count ≤ s.metrics.sseBufferHighWatermark := by
        omega
      exact (max_eq_left hless).symm
    | _ => exact (max_eq_left hle).symm

/-! ## All runs -/

/-- The gauges of a gateway are exact in every run of its sessions. -/
theorem gauges_exact {acts : List GatewayAction} (h : exec (step clampZero decode) {} acts = some s) :
    s.metrics.sseBufferedEvents = totalBuffered s.sessions ∧
      s.metrics.active = uncounted s.sessions ∧
      (∀ p ∈ s.sessions, p.counted = p.session.buffer.terminal.toList ∧
        (p.session.done = true → p.counted.length = 1)) ∧
      (∀ code, s.metrics.terminals code = countedWith code s.sessions) ∧
      exec (step id decode) {} acts = some s ∧
      IsGreatest (Readings (step clampZero decode) (·.metrics.active) {} acts)
        s.metrics.activeHighWatermark ∧
      IsGreatest (Readings (step clampZero decode) (·.metrics.sseBufferedEvents) {} acts)
        s.metrics.sseBufferHighWatermark := by
  have hstep : ∀ s a t, GaugeInv s → s.step clampZero decode a = some t → GaugeInv t :=
    fun s a t hs ht => hs.step ((hs.step_clampZero a).symm.trans ht)
  have hs : GaugeInv s := exec_preserves hstep initial_gaugeInv h
  refine ⟨hs.buffered, hs.active, ?_, hs.terminals, ?_, ?_, ?_⟩
  · intro p hp
    have hinv := hs.sessions p hp
    refine ⟨hinv.counted, fun hdone => ?_⟩
    rw [hinv.done, Option.isSome_iff_exists] at hdone
    obtain ⟨t, ht⟩ := hdone
    rw [hinv.counted, ht]
    rfl
  · rw [← h]
    exact exec_congr (fun s a hs => (hs.step_clampZero a).symm) hstep acts initial_gaugeInv
  · exact exec_isGreatest hstep
      (fun s a t hs hle ht => active_mark hs hle ((hs.step_clampZero a).symm.trans ht))
      initial_gaugeInv rfl h
  · exact exec_isGreatest hstep
      (fun s a t hs hle ht => buffer_mark hs hle ((hs.step_clampZero a).symm.trans ht))
      initial_gaugeInv rfl h

/-- Two sessions: the first one delivers a delta and ends, the buffer of the second one
refuses a delta and is abandoned. -/
def twoSessions : List GatewayAction :=
  [.accept 2, .accept 1,
    .task 0 (.event (.tokenDelta [65])), .task 0 .putDelta,
    .task 1 (.event (.tokenDelta [66])), .task 1 .putDelta,
    .task 1 (.event (.tokenDelta [67])), .task 1 .putDelta, .task 1 (.cancelled (.ok true)),
    .task 0 .get,
    .task 0 (.event (.terminal ⟨1, ⟨utf8 "ok", []⟩, some (utf8 "stop"), {}⟩)), .task 0 .putTerminal,
    .task 1 .abandon]

def decodeCodePoints : Decode := fun ids => .ok (ids.map Int.toNat)

theorem gauges_exact_twoSessions :
    ∃ s, exec (step clampZero decodeCodePoints) {} twoSessions = some s ∧
      s.metrics.active = 1 ∧ s.metrics.sseBufferedEvents = 0 ∧
      s.metrics.sseBufferHighWatermark = 2 ∧
      IsGreatest (Readings (step clampZero decodeCodePoints) (·.metrics.sseBufferedEvents) {}
        twoSessions) 2 := by
  have hrun : (exec (step clampZero decodeCodePoints) {} twoSessions).any (fun s =>
      decide (s.metrics.sseBufferHighWatermark = 2 ∧ uncounted s.sessions = 1 ∧
        totalBuffered s.sessions = 0)) = true := by decide +kernel
  obtain ⟨s, hs, hfacts⟩ := (Option.any_eq_true _ _).mp hrun
  obtain ⟨hmark, huncounted, htotal⟩ := of_decide_eq_true hfacts
  obtain ⟨hbuffered, hactive, -, -, -, -, hgreatest⟩ := gauges_exact hs
  rw [huncounted] at hactive
  rw [htotal] at hbuffered
  rw [hmark] at hgreatest
  exact ⟨s, hs, hactive, hbuffered, hmark, hgreatest⟩

end GatewaySessions

end KimServing.Gateway

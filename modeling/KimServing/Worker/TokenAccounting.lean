import KimServing.Worker.ShutdownCoverage

/-! # What an ok terminal accounts for

The usage of a terminal counts the deltas that the backend has committed. A pump
forwards them in order, but skips those that it takes after the request was
cancelled, and forwards the terminal that follows unchanged. So a terminal with
an ok status accounts for the forwarded tokens when none was skipped.
-/
namespace KimServing
open Library Function List Ipc

def wireTokenIds (word : List Message) : List (List ℤ) :=
  word.filterMap (fun m => match m with | .tokenDelta d => some d.tokenIds | _ => none)

def wireTokens (word : List Message) : ℕ := ((wireTokenIds word).map List.length).sum

theorem wireTokenIds_append (xs ys : List Message) :
    wireTokenIds (xs ++ ys) = wireTokenIds xs ++ wireTokenIds ys :=
  filterMap_append

namespace PumpPc

def carried : PumpPc → List (List ℤ)
  | .delta d | .forward d => [d.tokenIds]
  | _ => []

def closing : PumpPc → Bool
  | .markTerminal | .finish | .finished => true
  | _ => false

def terminal? : PumpPc → Option TerminalEvent
  | .terminal t => some t
  | _ => none

def prepared? : PumpPc → Option Terminal
  | .enqueueTerminal wire => some wire
  | _ => none

structure Goes (pc pc' : PumpPc) : Prop where
  carried : pc'.carried.Sublist pc.carried
  closing : pc.closing = true → pc'.closing = true
  terminal : pc'.terminal? = none
  prepared : pc'.prepared? = none
  started : pc' ≠ .notStarted

def plain : PumpPc → Bool
  | .notStarted | .delta _ | .forward _ | .terminal _ | .enqueueTerminal _ => false
  | _ => true

theorem Goes.of_plain {pc pc' : PumpPc} (hclosing : pc.closing = true → pc'.closing = true)
    (hplain : pc'.plain = true) : pc.Goes pc' := by
  have hcarried : pc'.carried = [] := by cases pc' <;> first | rfl | cases hplain
  refine ⟨hcarried ▸ nil_sublist _, hclosing, ?_, ?_, ?_⟩
  · cases pc' <;> first | rfl | cases hplain
  · cases pc' <;> first | rfl | cases hplain
  · rintro rfl
    cases hplain

end PumpPc

def HandlerPc.opening (ids : List ℕ) : HandlerPc → Option ℕ
  | .reap (.submit _) => some (ids.length - 1)
  | .convert n _ | .submit n _ | .register n | .emplace n | .spawn n => some n
  | _ => none

structure Sheet where
  gates : ℕ → Gate
  pumps : ℕ → PumpPc
  enqueued : ℕ → List Message
  count : ℕ
  opening : Option ℕ

namespace Sheet

def setGate (p : Sheet) (n : ℕ) (g : Gate) : Sheet :=
  { p with gates := update p.gates n g }

def setPump (p : Sheet) (n : ℕ) (pc : PumpPc) : Sheet :=
  { p with pumps := update p.pumps n pc }

def note (p : Sheet) (n : ℕ) (m : Message) : Sheet :=
  { p with enqueued := update p.enqueued n (p.enqueued n ++ [m]) }

inductive Step (p : Sheet) : Sheet → Prop where
  | idle : p.Step p
  | settle : p.Step { p with opening := none }
  | receive (hidle : p.opening = none) :
      p.Step { p with count := p.count + 1, opening := some p.count }
  | install (n : ℕ) (g : Gate) (hopening : p.opening = some n) (hgate : g.GateInv) :
      p.Step (p.setGate n g)
  | spawn (n : ℕ) (hopening : p.opening = some n) :
      p.Step { p.setPump n .waitGate with opening := none }
  | control (n : ℕ) (m : Message) (hdelta : wireTokenIds [m] = [])
      (hterminal : ∀ t, m ≠ .terminal t) : p.Step (p.note n m)
  | publish (n : ℕ) (call : GateCall) (g : Gate) (hgate : (p.gates n).step call = some g)
      (hcall : call ≠ .waitPop) : p.Step (p.setGate n g)
  | move (n : ℕ) (pc : PumpPc) (hgoes : (p.pumps n).Goes pc) (hstarted : p.pumps n ≠ .notStarted) :
      p.Step (p.setPump n pc)
  | wait (n : ℕ) (pc : PumpPc) (hpc : p.pumps n = .pop)
      (hdelta : ∀ d, (p.gates n).state.mailbox.waitPop.1 = .event (.delta d) → pc = .delta d)
      (hterminal : ∀ t, (p.gates n).state.mailbox.waitPop.1 = .event (.terminal t) →
        pc = .terminal t)
      (hother : (∀ e, (p.gates n).state.mailbox.waitPop.1 ≠ .event e) → PumpPc.pop.Goes pc) :
      p.Step ((p.setGate n (p.gates n).popStep).setPump n pc)
  | forward (n : ℕ) (c : RuntimeBridgeConfig) (d : TokenDelta) (hpc : p.pumps n = .forward d) :
      p.Step ((p.note n (.tokenDelta (wireDelta c d))).setPump n .checkStop)
  | prepare (n : ℕ) (t : TerminalEvent) (wire : Terminal) (hpc : p.pumps n = .terminal t)
      (husage : wire.usage.completionTokens = t.usage.completionTokens)
      (hall : wire.status.isOk = true →
        (wireTokenIds (p.enqueued n)).length = (p.gates n).delivered.length) :
      p.Step (p.setPump n (.enqueueTerminal wire))
  | finish (n : ℕ) (wire : Terminal) (hpc : p.pumps n = .enqueueTerminal wire) :
      p.Step ((p.note n (.terminal wire)).setPump n .markTerminal)

/-- What a pump has written and carries, against what it took. -/
structure Tally (g : Gate) (pc : PumpPc) (word : List Message) : Prop where
  taken : (wireTokenIds word ++ pc.carried).Sublist (g.delivered.map TokenDelta.tokenIds)
  ended : ∀ t, pc.terminal? = some t → GenerationEvent.terminal t ∈ g.popped
  prepared : ∀ wire, pc.prepared? = some wire → wire.status.isOk = true →
    wire.usage.completionTokens = wireTokens word
  closed : ∀ wire, .terminal wire ∈ word → pc.closing = true ∧
    (wire.status.isOk = true → wire.usage.completionTokens = wireTokens word)
  blank : pc = .notStarted → wireTokenIds word = []

structure Inv (p : Sheet) : Prop where
  gates : ∀ n, (p.gates n).GateInv
  tally : ∀ n, Tally (p.gates n) (p.pumps n) (p.enqueued n)
  opening : ∀ n, p.opening = some n → n < p.count ∧ p.pumps n = .notStarted
  unused : ∀ n, p.count ≤ n → p.pumps n = .notStarted

theorem completion_of_popped {g : Gate} (hg : g.GateInv) {t : TerminalEvent}
    (ht : GenerationEvent.terminal t ∈ g.popped) :
    t.usage.completionTokens = tokenTotal g.delivered := by
  obtain ⟨last, hpopped, hlast⟩ := hg.events
  have hsome : last = some t := by
    rw [hpopped] at ht
    cases last with
    | none => simp at ht
    | some =>
      simp only [Option.toList_some, map_cons, map_nil, mem_append, mem_map,
        mem_singleton, reduceCtorEq, and_false, exists_false, false_or,
        GenerationEvent.terminal.injEq] at ht
      rw [ht]
  obtain ⟨⟨hempty, -, -⟩, -, husage⟩ := hlast t hsome
  have hkept := hg.kept
  rw [hempty, append_nil] at hkept
  rw [husage, hkept]

namespace Tally
variable {g : Gate} {pc pc' : PumpPc} {word : List Message}

theorem goes (h : Tally g pc word) (hgoes : pc.Goes pc') : Tally g pc' word := by
  refine ⟨((List.Sublist.refl _).append hgoes.carried).trans h.taken, ?_, ?_, ?_, ?_⟩
  · intro t ht
    cases hgoes.terminal.symm.trans ht
  · intro wire hw
    cases hgoes.prepared.symm.trans hw
  · intro wire hw
    exact ⟨hgoes.closing (h.closed wire hw).1, (h.closed wire hw).2⟩
  · intro hpc
    exact absurd hpc hgoes.started

theorem not_mem (h : Tally g pc word) (hpc : pc.closing = false) (wire : Terminal) :
    .terminal wire ∉ word := by
  intro hw
  rw [(h.closed wire hw).1] at hpc
  cases hpc

theorem publish (h : Tally g pc word) {g' : Gate} {call : GateCall} (hg : g.step call = some g')
    (hcall : call ≠ .waitPop) : Tally g' pc word := by
  refine { h with taken := ?_, ended := ?_ }
  · rw [Gate.step_delivered hg hcall]
    exact h.taken
  · rw [Gate.step_popped hg hcall]
    exact h.ended

theorem control (h : Tally g pc word) {m : Message} (hdelta : wireTokenIds [m] = [])
    (hterminal : ∀ t, m ≠ .terminal t) : Tally g pc (word ++ [m]) := by
  have hids : wireTokenIds (word ++ [m]) = wireTokenIds word := by
    rw [wireTokenIds_append, hdelta, append_nil]
  have htokens : wireTokens (word ++ [m]) = wireTokens word := by rw [wireTokens, hids, wireTokens]
  refine ⟨by rw [hids]; exact h.taken, h.ended, by rw [htokens]; exact h.prepared, ?_,
    by rw [hids]; exact h.blank⟩
  intro wire hw
  rw [htokens]
  rcases mem_append.mp hw with hw | hw
  · exact h.closed wire hw
  · exact absurd (mem_singleton.mp hw).symm (hterminal wire)

theorem wait (h : Tally g .pop word)
    (hdelta : ∀ d, g.state.mailbox.waitPop.1 = .event (.delta d) → pc = .delta d)
    (hterminal : ∀ t, g.state.mailbox.waitPop.1 = .event (.terminal t) → pc = .terminal t)
    (hother : (∀ e, g.state.mailbox.waitPop.1 ≠ .event e) → PumpPc.pop.Goes pc) :
    Tally g.popStep pc word := by
  have hdelivered := g.popStep_delivered
  have hpopped := g.popStep_popped
  have htaken : (wireTokenIds word).Sublist (g.delivered.map TokenDelta.tokenIds) := by
    simpa [PumpPc.carried] using h.taken
  have hsilent := h.not_mem rfl
  cases hw : g.state.mailbox.waitPop.1 with
  | event e =>
    rw [hw] at hdelivered hpopped
    cases e with
    | delta d =>
      obtain rfl := hdelta d hw
      refine ⟨?_, nofun, nofun,
        fun wire hwire => absurd hwire (hsilent wire), nofun⟩
      rw [hdelivered, map_append]
      exact htaken.append (List.Sublist.refl _)
    | terminal t =>
      obtain rfl := hterminal t hw
      refine ⟨?_, ?_, nofun,
        fun wire hwire => absurd hwire (hsilent wire), nofun⟩
      · rw [hdelivered]
        simpa [PumpPc.carried] using htaken
      · intro u hu
        cases hu
        rw [hpopped]
        exact mem_append_right _ (mem_singleton.mpr rfl)
  | _ =>
    rw [hw] at hdelivered hpopped
    have hgoes := h.goes (hother (by simp [hw]))
    simp only [append_nil] at hdelivered hpopped
    exact ⟨by rw [hdelivered]; exact hgoes.taken, by rw [hpopped]; exact hgoes.ended,
      hgoes.prepared, hgoes.closed, hgoes.blank⟩

theorem forward {d : TokenDelta} (h : Tally g (.forward d) word) (c : RuntimeBridgeConfig) :
    Tally g .checkStop (word ++ [.tokenDelta (wireDelta c d)]) := by
  refine ⟨?_, nofun, nofun, ?_,
    nofun⟩
  · rw [wireTokenIds_append]
    simpa [PumpPc.carried, wireTokenIds, wireDelta] using h.taken
  · intro wire hw
    rcases mem_append.mp hw with hw | hw
    · exact absurd hw (h.not_mem rfl wire)
    · cases mem_singleton.mp hw

theorem prepare {t : TerminalEvent} (h : Tally g (.terminal t) word) (hg : g.GateInv)
    {wire : Terminal} (husage : wire.usage.completionTokens = t.usage.completionTokens)
    (hall : wire.status.isOk = true → (wireTokenIds word).length = g.delivered.length) :
    Tally g (.enqueueTerminal wire) word := by
  have htaken : (wireTokenIds word).Sublist (g.delivered.map TokenDelta.tokenIds) := by
    simpa [PumpPc.carried] using h.taken
  refine ⟨by simpa [PumpPc.carried] using htaken, nofun, ?_, ?_,
    nofun⟩
  · intro wire' hw hok
    cases hw
    rw [husage, completion_of_popped hg (h.ended t rfl), wireTokens,
      htaken.eq_of_length (by rw [length_map, hall hok]), tokenTotal, map_map]
    rfl
  · intro wire' hw
    exact absurd hw (h.not_mem rfl wire')

theorem finish {wire : Terminal} (h : Tally g (.enqueueTerminal wire) word) :
    Tally g .markTerminal (word ++ [.terminal wire]) := by
  have hids : wireTokenIds (word ++ [.terminal wire]) = wireTokenIds word := by
    rw [wireTokenIds_append]
    exact append_nil _
  have htokens : wireTokens (word ++ [.terminal wire]) = wireTokens word := by
    rw [wireTokens, hids, wireTokens]
  refine ⟨by rw [hids]; exact h.taken, nofun, nofun, ?_,
    nofun⟩
  intro wire' hw
  rw [htokens]
  refine ⟨rfl, fun hok => ?_⟩
  rcases mem_append.mp hw with hw | hw
  · exact absurd hw (h.not_mem rfl wire')
  · cases mem_singleton.mp hw
    exact h.prepared wire rfl hok

theorem install (h : Tally g .notStarted word) {g' : Gate} : Tally g' .notStarted word := by
  refine { h with taken := ?_, ended := nofun }
  rw [h.blank rfl]
  exact nil_sublist _

theorem spawn (h : Tally g .notStarted word) : Tally g .waitGate word := by
  refine ⟨h.taken, nofun, nofun, ?_,
    nofun⟩
  intro wire hw
  exact absurd hw (h.not_mem rfl wire)

end Tally

section Inv
variable {p p' : Sheet}

theorem Inv.row (hp : p.Inv) {n : ℕ} {g : Gate} {pc : PumpPc} {word : List Message}
    (hgate : g.GateInv) (htally : Tally g pc word)
    (hpc : p.pumps n = .notStarted → pc = .notStarted) :
    Inv { p with
      gates := update p.gates n g
      pumps := update p.pumps n pc
      enqueued := update p.enqueued n word } := by
  have hpumps : ∀ m, p.pumps m = .notStarted → update p.pumps n pc m = .notStarted := by
    intro m hm
    by_cases hmn : m = n
    · subst hmn
      rw [update_self]
      exact hpc hm
    · rw [update_of_ne hmn]
      exact hm
  refine ⟨fun m => ?_, fun m => ?_, fun m hm => ?_, fun m hm => hpumps m (hp.unused m hm)⟩
  · by_cases hmn : m = n
    · subst hmn
      simpa using hgate
    · simpa [hmn] using hp.gates m
  · by_cases hmn : m = n
    · subst hmn
      simpa using htally
    · simpa [hmn] using hp.tally m
  · exact ⟨(hp.opening m hm).1, hpumps m (hp.opening m hm).2⟩

theorem Inv.settle (hp : p.Inv) : Inv { p with opening := none } :=
  { hp with opening := nofun }

theorem step_inv (hp : p.Inv) (h : p.Step p') : p'.Inv := by
  cases h with
  | idle => exact hp
  | settle => exact hp.settle
  | receive =>
    refine ⟨hp.gates, hp.tally, fun n hn => ?_, fun n hn => hp.unused n (Nat.le_of_succ_le hn)⟩
    cases hn
    exact ⟨Nat.lt_succ_self _, hp.unused _ le_rfl⟩
  | install n g hopening hgate =>
    have hpc := (hp.opening n hopening).2
    have hrow := hp.row (n := n) hgate ((hpc ▸ hp.tally n).install) (fun _ => rfl)
    rwa [← hpc, update_eq_self, update_eq_self] at hrow
  | spawn n hopening =>
    have hpc := (hp.opening n hopening).2
    have htally := hp.tally n
    rw [hpc] at htally
    refine ⟨hp.gates, fun m => ?_, nofun, fun m hm => ?_⟩
    · by_cases hmn : m = n
      · subst hmn
        simpa [setPump] using htally.spawn
      · simpa [setPump, hmn] using hp.tally m
    · have hmn : m ≠ n := by
        have := (hp.opening n hopening).1
        have hle : p.count ≤ m := hm
        omega
      simpa [setPump, hmn] using hp.unused m hm
  | control n m hdelta hterminal =>
    have hrow := hp.row (n := n) (hp.gates n) ((hp.tally n).control hdelta hterminal) id
    rwa [update_eq_self, update_eq_self] at hrow
  | publish n call g hgate hcall =>
    have hrow := hp.row (n := n) (Gate.step_inv (hp.gates n) hgate)
      ((hp.tally n).publish hgate hcall) id
    rwa [update_eq_self, update_eq_self] at hrow
  | move n pc hgoes hstarted =>
    have hrow := hp.row (n := n) (hp.gates n) ((hp.tally n).goes hgoes)
      (fun hpc => absurd hpc hstarted)
    rwa [update_eq_self, update_eq_self] at hrow
  | wait n pc hpc hdelta hterminal hother =>
    have htally := hp.tally n
    rw [hpc] at htally
    have hrow := hp.row (n := n) (Gate.inv_pop (hp.gates n))
      (htally.wait hdelta hterminal hother) (fun h => by rw [hpc] at h; cases h)
    rwa [update_eq_self] at hrow
  | forward n c d hpc =>
    have htally := hp.tally n
    rw [hpc] at htally
    have hrow := hp.row (n := n) (hp.gates n) (htally.forward c)
      (fun h => by rw [hpc] at h; cases h)
    rwa [update_eq_self] at hrow
  | prepare n t wire hpc husage hall =>
    have htally := hp.tally n
    rw [hpc] at htally
    have hrow := hp.row (n := n) (hp.gates n) (htally.prepare (hp.gates n) husage hall)
      (fun h => by rw [hpc] at h; cases h)
    rwa [update_eq_self, update_eq_self] at hrow
  | finish n wire hpc =>
    have htally := hp.tally n
    rw [hpc] at htally
    have hrow := hp.row (n := n) (hp.gates n) htally.finish
      (fun h => by rw [hpc] at h; cases h)
    rwa [update_eq_self] at hrow

end Inv

end Sheet

/-! ## The bridge keeps its sheet -/

namespace Bridge
variable {s s' : Bridge}

def sheet (s : Bridge) : Sheet where
  gates := s.gates
  pumps := s.pumps
  enqueued := s.enqueued
  count := s.ids.length
  opening := s.handler.opening s.ids

structure SameRows (s s' : Bridge) : Prop where
  gates : s'.gates = s.gates
  pumps : s'.pumps = s.pumps
  enqueued : s'.enqueued = s.enqueued
  ids : s'.ids = s.ids

theorem SameRows.settle (h : s.SameRows s') (hopening : s'.handler.opening s'.ids = none) :
    s.sheet.Step s'.sheet := by
  have heq : s'.sheet = { s.sheet with opening := none } := by
    simp only [sheet, h.gates, h.pumps, h.enqueued, h.ids, ← hopening]
  rw [heq]
  exact .settle

theorem Aside.sheet (h : s.Aside s') : s'.sheet = s.sheet := by
  have hopening : s'.handler.opening s'.ids = s.handler.opening s.ids := by
    rcases h.handler with hsame | ⟨hidle, hexited⟩
    · rw [hsame, h.ids]
    · rw [hidle, hexited]
      rfl
  unfold Bridge.sheet
  rw [hopening, h.gates, h.pumps, h.enqueued, h.ids]

theorem Aside.move (h : s.Aside s') {n : ℕ} {pc : PumpPc} (hgoes : (s.pumps n).Goes pc)
    (hstarted : s.pumps n ≠ .notStarted) : s.sheet.Step (s'.setPump n pc).sheet := by
  rw [show (s'.setPump n pc).sheet = s'.sheet.setPump n pc from rfl, h.sheet]
  exact .move n pc hgoes hstarted

theorem sheet_of_opening {o : Option ℕ} (h : s.handler.opening s.ids = o) :
    s.sheet = { s with count := s.ids.length, opening := o } := by
  rw [← h]
  rfl

theorem dispatch_opening (s : Bridge) (m : Message) :
    (s.dispatch m).opening s.ids = (HandlerPc.reap m).opening s.ids := by
  cases m <;> simp only [dispatch] <;> try split
  all_goals rfl

theorem resume_opening (resume : HandlerResume) (ids : List ℕ) : resume.pc.opening ids = none := by
  cases resume <;> rfl

section Threads
variable [JsonLib]

theorem handlerStep_sheet {env : Environment} (h : s.handlerStep env = some s') :
    s.sheet.Step s'.sheet := by
  cases handlerStep_move h with
  | reap m hpc =>
    have hsame : (s.dispatch m).opening s.ids = s.handler.opening s.ids := by
      rw [hpc, dispatch_opening]
    rw [sheet_of_opening hsame.symm]
    exact .idle
  | admitted k _ _ _ _ hpc =>
    rw [sheet_of_opening (show s.handler.opening s.ids = some k by rw [hpc]; rfl)]
    exact .install k _ rfl (Gate.initial_inv _ _ _ _)
  | spawned k hpc =>
    rw [sheet_of_opening (show s.handler.opening s.ids = some k by rw [hpc]; rfl)]
    exact .spawn k rfl
  | converted k _ _ hpc | registered k hpc | emplaced k hpc =>
    rw [sheet_of_opening (show s.handler.opening s.ids = some k by rw [hpc]; rfl)]
    exact .idle
  | rejected k status m hpc hm =>
    rw [sheet_of_opening (show s.handler.opening s.ids = none by rw [hpc]; rfl)]
    exact .control k m (by rw [hm]; rfl) (fun t => by simp [hm, wireRejected])
  | accepted k m hpc hm =>
    rw [sheet_of_opening (show s.handler.opening s.ids = none by rw [hpc]; rfl)]
    exact .control k m (by rw [hm]; rfl) (fun t => by simp [hm, wireAccepted])
  | acceptCancel _ _ _ _ outcome | cancel _ _ _ outcome =>
    exact SameRows.settle ⟨rfl, rfl, rfl, rfl⟩ (by cases outcome <;> rfl)
  | report | resume => exact SameRows.settle ⟨rfl, rfl, rfl, rfl⟩ (resume_opening _ _)
  | _ => exact SameRows.settle ⟨rfl, rfl, rfl, rfl⟩ rfl

/-- The terminal that a pump is about to prepare is ok only if it has skipped no
delta of its request. -/
def NothingSkipped (s : Bridge) : BridgeAction → Prop
  | .pump n _ => ∀ t ∈ (s.pumps n).terminal?,
      (wireTerminal s.config (s.records n).backpressureRequested t).status.isOk = true →
        (wireTokenIds (s.enqueued n)).length = (s.gates n).delivered.length
  | _ => True

theorem pumpStep_sheet {n : ℕ} {env : Environment} (hguard : s.NothingSkipped (.pump n env))
    (h : s.pumpStep n env = some s') : s.sheet.Step s'.sheet := by
  have hstarted : s.pumps n ≠ .notStarted := by
    intro hpc
    simp [pumpStep, hpc] at h
  have hgo : ∀ {t : Bridge} {pc : PumpPc}, s.Aside t →
      ((s.pumps n).closing = true → pc.closing = true) → pc.plain = true →
      s.sheet.Step (t.setPump n pc).sheet :=
    fun haside hclosing hplain => haside.move (.of_plain hclosing hplain) hstarted
  cases pumpStep_move h with
  | take hpc =>
    refine Sheet.Step.wait (p := s.sheet) n _ hpc ?_ ?_ ?_
    · intro d hd
      rw [show (s.gates n).state.mailbox.waitPop.1 = .event (.delta d) from hd]
      rfl
    · intro t ht
      rw [show (s.gates n).state.mailbox.waitPop.1 = .event (.terminal t) from ht]
      rfl
    · intro hother
      have hother : ∀ e, (s.gates n).state.mailbox.waitPop.1 ≠ .event e := hother
      cases hw : (s.gates n).state.mailbox.waitPop.1 with
      | event e => exact absurd hw (hother e)
      | _ => exact .of_plain (fun h => by cases h) rfl
  | pass d hpc =>
    refine (Aside.refl s).move ?_ hstarted
    rw [hpc]
    exact ⟨List.Sublist.refl _, fun h => (by cases h), rfl, rfl, fun h => (by cases h)⟩
  | forwarded d m hpc hm =>
    subst hm
    exact .forward n s.config d hpc
  | prepare t hpc =>
    refine Sheet.Step.prepare (p := s.sheet) n t _ hpc rfl ?_
    exact hguard t (by simp [hpc, PumpPc.terminal?])
  | finished wire m hpc hm =>
    subst hm
    exact .finish n wire hpc
  | checkStop hpc =>
    exact hgo (.refl s) (by simp [hpc, PumpPc.closing]) (by split <;> rfl)
  | cancelling pc c outcome hpc hc =>
    exact hgo (cancelStep_aside hc) (by simp [hpc, PumpPc.closing]) (by cases outcome <;> rfl)
  | markBackpressure hpc =>
    exact hgo (s.updateRecord_aside n ⟨rfl, id, id⟩) (by simp [hpc, PumpPc.closing]) rfl
  | markTerminal =>
    exact hgo (s.updateRecord_aside n ⟨rfl, fun _ => rfl, id⟩) (fun _ => rfl) rfl
  | finish => exact hgo (s.updateRecord_aside n ⟨rfl, id, fun _ => rfl⟩) (fun _ => rfl) rfl
  | join _ hidle => exact hgo (exit_aside hidle) (fun _ => rfl) rfl
  | report _ _ _ resume hpc | resume resume hpc =>
    exact hgo { Aside.refl s with } (by simp [hpc, PumpPc.closing]) (by cases resume <;> rfl)
  | _ => exact hgo { Aside.refl s with } (by simp [‹s.pumps n = _›, PumpPc.closing]) rfl

end Threads

section Runs
variable [JsonLib]

theorem step_sheet {a : BridgeAction} (hguard : s.NothingSkipped a) (h : s.step a = some s') :
    s.sheet.Step s'.sheet := by
  cases a with
  | receive m =>
    obtain ⟨hpc, hcases⟩ := receive_cases h
    have hidle : s.handler.opening s.ids = none := by rw [hpc]; rfl
    rcases hcases with ⟨submit, -, rfl⟩ | ⟨hsubmit, rfl⟩
    · rw [sheet_of_opening hidle]
      exact .receive rfl
    · refine SameRows.settle ⟨rfl, rfl, rfl, rfl⟩ ?_
      cases m <;> first | rfl | exact absurd rfl (hsubmit _)
  | handler => exact handlerStep_sheet h
  | pump => exact pumpStep_sheet hguard h
  | backend n call =>
    obtain ⟨hcall, g, hstep, rfl⟩ := backend_cases h
    exact .publish n call g hstep hcall
  | writer => exact (writerStep_aside h).sheet ▸ .idle
  | monitor => exact (monitorStep_aside h).sheet ▸ .idle
  | stopper => exact (stopperStep_aside h).sheet ▸ .idle
  | shutdown => exact (shutdownStep_aside h).sheet ▸ .idle

omit [JsonLib] in
theorem initial_sheet (c : RuntimeBridgeConfig) (e : SessionEgress) :
    (initial c e).sheet.Inv := by
  refine ⟨fun n => Gate.initial_inv _ _ _ _, fun n => ?_, nofun, fun n _ => rfl⟩
  exact ⟨nil_sublist _, nofun, nofun,
    nofun, fun _ => rfl⟩

end Runs

end Bridge

/-- In every run in which no pump prepares an ok terminal after it has skipped a
delta: an ok terminal that was queued counts the tokens that were queued before it. -/
theorem ok_terminal_accounts [JsonLib] (c : RuntimeBridgeConfig) (e : SessionEgress)
    (actions : List BridgeAction) (s : Bridge) (n : ℕ) (t : Terminal)
    (hguard : Along Bridge.step Bridge.NothingSkipped (.initial c e) actions)
    (hrun : exec Bridge.step (.initial c e) actions = some s)
    (hqueued : .terminal t ∈ s.enqueued n) (hok : t.status.isOk = true) :
    t.usage.completionTokens = wireTokens (s.enqueued n) := by
  have hs : s.sheet.Inv := exec_invariant (I := fun u => u.sheet.Inv)
    (fun _ _ _ ht hg hstep => Sheet.step_inv ht (Bridge.step_sheet hg hstep))
    (Bridge.initial_sheet c e) hguard hrun
  exact ((hs.tally n).closed t hqueued).2 hok

instance Bridge.decidableNothingSkipped (s : Bridge) :
    ∀ a : BridgeAction, Decidable (s.NothingSkipped a)
  | .pump n _ => inferInstanceAs (Decidable (∀ t ∈ (s.pumps n).terminal?,
      (wireTerminal s.config (s.records n).backpressureRequested t).status.isOk = true →
        (wireTokenIds (s.enqueued n)).length = (s.gates n).delivered.length))
  | .receive _ | .handler _ | .backend _ _ | .writer _ | .monitor _ | .stopper _
  | .shutdown _ => isTrue trivial

def Bridge.okTerminals (s : Bridge) (n : ℕ) : List Terminal :=
  (s.enqueued n).filterMap (fun m =>
    match m with
    | .terminal t => if t.status.isOk then some t else none
    | _ => none)

theorem Bridge.mem_okTerminals {s : Bridge} {n : ℕ} {t : Terminal} :
    t ∈ s.okTerminals n ↔ .terminal t ∈ s.enqueued n ∧ t.status.isOk = true := by
  simp only [okTerminals, mem_filterMap]
  constructor
  · rintro ⟨m, hm, ht⟩
    cases m with
    | terminal =>
      simp only [Option.ite_none_right_eq_some, Option.some.injEq] at ht
      exact ⟨ht.2 ▸ hm, ht.2 ▸ ht.1⟩
    | _ => cases ht
  · rintro ⟨hm, hok⟩
    exact ⟨_, hm, by simp [hok]⟩

theorem ok_terminal_accounts_plainRun :
    ∃ s t, exec (@Bridge.step plainJson) ordinaryBridge plainRun = some s ∧
      .terminal t ∈ s.enqueued 0 ∧ t.status.isOk = true ∧
      t.usage.completionTokens = wireTokens (s.enqueued 0) := by
  have hrun : Along (@Bridge.step plainJson) Bridge.NothingSkipped ordinaryBridge plainRun ∧
      (exec (@Bridge.step plainJson) ordinaryBridge plainRun).any
        (fun s => (s.okTerminals 0).any (fun _ => true)) = true := by
    decide +kernel
  obtain ⟨hguard, hany⟩ := hrun
  obtain ⟨s, hs, hterminal⟩ := (Option.any_eq_true _ _).mp hany
  obtain ⟨t, ht, -⟩ := List.any_eq_true.mp hterminal
  obtain ⟨hqueued, hok⟩ := Bridge.mem_okTerminals.mp ht
  exact ⟨s, t, hs, hqueued, hok,
    @ok_terminal_accounts plainJson _ _ _ s 0 t hguard hs hqueued hok⟩

def cancelBetween : List BridgeAction :=
  twoDeltas ++ [.pump 0 {}] ++ forwardDelta ++
    [.receive (.cancel { workerEpoch := 1, requestId := 7 }), .handler {}, .handler {}, .handler {},
      .handler {}] ++ [.pump 0 {}, .pump 0 {}, .pump 0 {}] ++ forwardTerminal

/-- The pump skips the second delta, and the ok terminal counts it. -/
theorem ok_terminal_counts_skipped :
    ∃ s t, exec (@Bridge.step plainJson) ordinaryBridge cancelBetween = some s ∧
      .terminal t ∈ s.enqueued 0 ∧ t.status.isOk = true ∧
      t.usage.completionTokens = 2 ∧ wireTokens (s.enqueued 0) = 1 := by
  have hrun : (exec (@Bridge.step plainJson) ordinaryBridge cancelBetween).any
      (fun s => (s.okTerminals 0).any (fun t => t.usage.completionTokens == 2) &&
        wireTokens (s.enqueued 0) == 1) = true := by
    decide +kernel
  obtain ⟨s, hs, hfound⟩ := (Option.any_eq_true _ _).mp hrun
  rw [Bool.and_eq_true, List.any_eq_true, beq_iff_eq] at hfound
  obtain ⟨⟨t, ht, husage⟩, hwire⟩ := hfound
  obtain ⟨hqueued, hok⟩ := Bridge.mem_okTerminals.mp ht
  exact ⟨s, t, hs, hqueued, hok, beq_iff_eq.mp husage, hwire⟩

end KimServing

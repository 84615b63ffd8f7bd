import KimServing.Worker.ThreadFrames

/-! # The pump of a request gets the events of that request

A mailbox is created with the id of its request, and everything that the backend
publishes through the request state carries this id. A mailbox closes when its
Terminal is taken, so a pump that still polls has an open one, unless somebody
closes it from outside.
-/
namespace KimServing
open Library Function

namespace Gate
variable {g g' : Gate} {r : ℕ}

structure Labelled (g : Gate) (r : ℕ) : Prop where
  externalId : g.state.externalId = r
  deltas : ∀ d ∈ g.state.mailbox.deltas, d.requestId = r
  terminal : ∀ t, g.state.mailbox.terminal = some t → t.requestId = r

theorem initial_labelled (r executorId promptTokens : ℕ) (config : GenerationMailboxConfig) :
    (initial r executorId promptTokens config).Labelled r := by
  exact ⟨rfl, by simp [initial], by simp [initial]⟩

theorem Labelled.step (hg : g.Labelled r) {call : GateCall} (hcall : call ≠ .waitPop)
    (h : g.step call = some g') : g'.Labelled r := by
  cases step_effect h with
  | pop => exact absurd rfl hcall
  | close => exact { hg with }
  | finish pending => cases pending <;> exact { hg with }
  | quiet rs result _ hquiet =>
    have hmailbox : (g.answer rs result).state.mailbox = g.state.mailbox := hquiet.mailbox
    exact ⟨hquiet.externalId.trans hg.externalId, hmailbox ▸ hg.deltas, hmailbox ▸ hg.terminal⟩
  | takes =>
    refine { hg with deltas := fun d hd => ?_ }
    rcases List.mem_append.mp hd with hd | hd
    · exact hg.deltas d hd
    · rw [List.mem_singleton.mp hd]
      exact hg.externalId
  | ends =>
    refine { hg with terminal := fun t ht => ?_ }
    rw [← Option.some.inj ht]
    exact hg.externalId

theorem step_keeps_open {call : GateCall} (hcall : call ≠ .waitPop) (hclose : call ≠ .close)
    (h : g.step call = some g') : g'.state.mailbox.closed = g.state.mailbox.closed := by
  cases step_effect h with
  | pop => exact absurd rfl hcall
  | close => exact absurd rfl hclose
  | finish pending => cases pending <;> rfl
  | quiet rs result _ hquiet => exact congrArg GenerationMailbox.closed hquiet.mailbox
  | takes | ends => rfl

end Gate

def PumpPc.Labelled (r : ℕ) : PumpPc → Prop
  | .delta d | .forward d => d.requestId = r
  | .terminal t => t.requestId = r
  | .enqueueTerminal wire => wire.requestId = r
  | _ => True

def PumpPc.polls (pc : PumpPc) : Prop := pc.stage ≠ .ending ∧ pc.stage ≠ .closed

theorem Gate.Labelled.pop {g : Gate} {r : ℕ} (hg : g.Labelled r)
    (hopen : g.state.mailbox.closed = false) :
    g.popStep.Labelled r ∧ (PumpPc.received g.state.mailbox.waitPop.1).Labelled r ∧
      g.state.mailbox.waitPop.1 ≠ .closed ∧
      ((PumpPc.received g.state.mailbox.waitPop.1).polls →
        g.popStep.state.mailbox.closed = false) := by
  rcases g.state.mailbox.waitPop_cases with
    ⟨d, rest, hd, h⟩ | ⟨t, hd, ht, h⟩ | ⟨hd, ht, h⟩
  · simp only [Gate.popStep, Gate.setMailbox, h]
    refine ⟨{ hg with deltas := fun d' hd' => ?_ }, ?_, by simp, fun _ => hopen⟩
    · exact hg.deltas d' (by rw [hd]; exact List.mem_cons_of_mem _ hd')
    · exact hg.deltas d (by rw [hd]; exact List.mem_cons_self)
  · simp only [Gate.popStep, Gate.setMailbox, h]
    refine ⟨{ hg with terminal := by simp }, hg.terminal t ht, by simp, ?_⟩
    intro hpolls
    exact absurd rfl hpolls.1
  · simp only [Gate.popStep, Gate.setMailbox, h, hopen]
    exact ⟨{ hg with }, trivial, by simp, fun _ => trivial⟩

def HandlerPc.admitted : HandlerPc → Option ℕ
  | .register n | .emplace n | .spawn n => some n
  | _ => none

theorem HandlerPc.decision_of_admitted {pc : HandlerPc} {n : ℕ} (h : pc.admitted = some n)
    (ids : List ℕ) : pc.decision ids = some (n, false) := by
  cases pc <;> cases h <;> rfl

namespace Bridge

/-- Gates and pumps carry events of their own request only. -/
structure LabelInv (s : Bridge) : Prop where
  known : ∀ n, s.accepted n = true → n < s.ids.length
  admitted : ∀ n, s.handler.admitted = some n → s.accepted n = true
  started : ∀ n, s.pumps n ≠ .notStarted → s.accepted n = true
  gates : ∀ n, s.accepted n = true → (s.gates n).Labelled (s.records n).requestId
  pumps : ∀ n, (s.pumps n).Labelled (s.records n).requestId
  opened : ∀ n, (s.pumps n).polls ∨ s.handler.admitted = some n →
    (s.gates n).state.mailbox.closed = false

theorem initial_labelInv (c : RuntimeBridgeConfig) (e : Ipc.SessionEgress) :
    (initial c e).LabelInv :=
  ⟨nofun, nofun, fun _ h => absurd rfl h, nofun, fun _ => trivial, fun _ _ => rfl⟩

variable {s t s' : Bridge} {n : ℕ}

structure SameLabels (s t : Bridge) : Prop where
  ids : t.ids = s.ids
  accepted : t.accepted = s.accepted
  gates : t.gates = s.gates
  pumps : t.pumps = s.pumps
  requestId : ∀ k, (t.records k).requestId = (s.records k).requestId

theorem SameLabels.refl (s : Bridge) : s.SameLabels s := ⟨rfl, rfl, rfl, rfl, fun _ => rfl⟩

theorem LabelInv.congr (hl : s.LabelInv) (h : s.SameLabels t)
    (hadmitted : ∀ k, t.handler.admitted = some k → s.handler.admitted = some k) :
    t.LabelInv where
  known k hk := by
    rw [h.accepted] at hk
    rw [h.ids]
    exact hl.known k hk
  admitted k hk := by
    rw [h.accepted]
    exact hl.admitted k (hadmitted k hk)
  started k hk := by
    rw [h.pumps] at hk
    rw [h.accepted]
    exact hl.started k hk
  gates k hk := by
    rw [h.accepted] at hk
    rw [h.gates, h.requestId]
    exact hl.gates k hk
  pumps k := by
    rw [h.pumps, h.requestId]
    exact hl.pumps k
  opened k hk := by
    rw [h.pumps] at hk
    rw [h.gates]
    exact hl.opened k (hk.imp_right (hadmitted k))

theorem LabelInv.setPump (hl : s.LabelInv) {pc : PumpPc} (haccepted : s.accepted n = true)
    (hlabel : pc.Labelled (s.records n).requestId)
    (hopen : pc.polls → (s.gates n).state.mailbox.closed = false) : (s.setPump n pc).LabelInv where
  known := hl.known
  admitted := hl.admitted
  started k hk := by
    by_cases hkn : k = n
    · rw [hkn]
      exact haccepted
    · simp only [Bridge.setPump, update_of_ne hkn] at hk
      exact hl.started k hk
  gates := hl.gates
  pumps k := by
    by_cases hkn : k = n
    · subst hkn
      simpa [Bridge.setPump] using hlabel
    · simpa [Bridge.setPump, hkn] using hl.pumps k
  opened k hk := by
    by_cases hkn : k = n
    · subst hkn
      simp only [Bridge.setPump, update_self] at hk
      rcases hk with hpolls | hadmitted
      · exact hopen hpolls
      · exact hl.opened k (Or.inr hadmitted)
    · simp only [Bridge.setPump, update_of_ne hkn] at hk
      exact hl.opened k hk

theorem LabelInv.setGate (hl : s.LabelInv) {g : Gate}
    (hlabel : s.accepted n = true → g.Labelled (s.records n).requestId)
    (hopen : (s.pumps n).polls ∨ s.handler.admitted = some n → g.state.mailbox.closed = false) :
    (s.setGate n g).LabelInv where
  known := hl.known
  admitted := hl.admitted
  started := hl.started
  gates k hk := by
    by_cases hkn : k = n
    · subst hkn
      simpa [Bridge.setGate] using hlabel hk
    · simpa [Bridge.setGate, hkn] using hl.gates k hk
  pumps := hl.pumps
  opened k hk := by
    by_cases hkn : k = n
    · subst hkn
      simpa [Bridge.setGate] using hopen hk
    · simpa [Bridge.setGate, hkn] using hl.opened k hk

/-! ## Steps -/

theorem Aside.sameLabels (h : s.Aside t) : s.SameLabels t :=
  { h with requestId := fun k => (h.records k).requestId }

theorem LabelInv.aside (hl : s.LabelInv) (h : s.SameLabels t) (hhandler : t.handler = s.handler) :
    t.LabelInv :=
  hl.congr h (fun _ hk => hhandler ▸ hk)

theorem LabelInv.leave (hl : s.LabelInv) (h : s.SameLabels t) (hhandler : t.handler.admitted = none) :
    t.LabelInv :=
  hl.congr h (fun k hk => by rw [hhandler] at hk; cases hk)

theorem LabelInv.of_aside (hl : s.LabelInv) (h : s.Aside t) : t.LabelInv := by
  rcases h.handler with hsame | ⟨-, hexited⟩
  · exact hl.aside h.sameLabels hsame
  · exact hl.leave h.sameLabels (by rw [hexited]; rfl)

theorem receive_labelInv (hl : s.LabelInv) {m : Ipc.Message} (h : s.receive m = some s') :
    s'.LabelInv := by
  obtain ⟨-, ⟨submit, -, rfl⟩ | ⟨-, rfl⟩⟩ := receive_cases h
  · -- The new index was not accepted before, so nothing is known about its mailbox.
    have hfresh : s.accepted s.ids.length ≠ true := fun haccepted =>
      Nat.lt_irrefl _ (hl.known _ haccepted)
    have hunstarted : s.pumps s.ids.length = .notStarted := by
      by_contra hstarted
      exact hfresh (hl.started _ hstarted)
    have hother : ∀ k, k ≠ s.ids.length →
        ((s.openRecord submit).records k).requestId = (s.records k).requestId := by
      intro k hk
      simp [openRecord, hk]
    refine ⟨fun k hk => ?_, fun k hk => ?_, hl.started, fun k hk => ?_, fun k => ?_,
      fun k hk => hl.opened k (hk.imp_right (fun hadmitted => by cases hadmitted))⟩
    · exact Nat.lt_succ_of_lt (hl.known k hk)
    · cases hk
    · rw [hother k (fun heq => hfresh (heq ▸ hk))]
      exact hl.gates k hk
    · by_cases hk : k = s.ids.length
      · rw [hk, show (s.openRecord submit).pumps = s.pumps from rfl, hunstarted]
        trivial
      · rw [hother k hk]
        exact hl.pumps k
  · exact hl.leave { SameLabels.refl s with } rfl

theorem backend_labelInv (hl : s.LabelInv) {call : GateCall} (hclose : call ≠ .close)
    (h : s.backend n call = some s') : s'.LabelInv := by
  obtain ⟨hcall, g, hg, rfl⟩ := backend_cases h
  refine hl.setGate (fun haccepted => (hl.gates n haccepted).step hcall hg) (fun hpolls => ?_)
  rw [Gate.step_keeps_open hcall hclose hg]
  exact hl.opened n hpolls

theorem LabelInv.move (hl : s.LabelInv) (h : s.SameLabels t)
    (hadmitted : ∀ k, t.handler.admitted = some k → s.handler.admitted = some k) {pc : PumpPc}
    (hpc : s.pumps n ≠ .notStarted) (hlabel : pc.Labelled (s.records n).requestId)
    (hpolls : pc.polls → (s.pumps n).polls) : (t.setPump n pc).LabelInv := by
  refine (hl.congr h hadmitted).setPump ?_ ?_ (fun hpc => ?_)
  · rw [h.accepted]
    exact hl.started n hpc
  · rw [h.requestId]
    exact hlabel
  · rw [h.gates]
    exact hl.opened n (Or.inl (hpolls hpc))

theorem Inv.not_admitted (hs : s.Inv) (hwaiting : (s.pumps n).stage ≠ .waiting)
    (hclosed : (s.pumps n).stage ≠ .closed) : s.handler.admitted ≠ some n := by
  intro hadmitted
  obtain ⟨forwarded, hword, -⟩ := (hs.lanes.lanes n).flowing hwaiting hclosed
  rw [(hs.decision.deciding n (HandlerPc.decision_of_admitted hadmitted _)).2] at hword
  cases hword

theorem pop_labelInv (hs : s.Inv) (hl : s.LabelInv) (hpc : s.pumps n = .pop) :
    ((s.setGate n (s.gates n).popStep).setPump n
      (.received (s.gates n).state.mailbox.waitPop.1)).LabelInv := by
  have haccepted : s.accepted n = true := hl.started n (by rw [hpc]; simp)
  have hopen := hl.opened n (Or.inl (by rw [hpc]; simp [PumpPc.polls, PumpPc.stage]))
  obtain ⟨hgate, hlabel, -, hstill⟩ := (hl.gates n haccepted).pop hopen
  have hmoved := hl.setPump haccepted hlabel (fun _ => hopen)
  refine hmoved.setGate (n := n) (g := (s.gates n).popStep) (fun _ => hgate) ?_
  rintro (hpolls | hadmitted)
  · rw [show (s.setPump n _).pumps n = _ from update_self ..] at hpolls
    exact hstill hpolls
  · exact absurd hadmitted
      (hs.not_admitted (by rw [hpc]; simp [PumpPc.stage]) (by rw [hpc]; simp [PumpPc.stage]))

section Threads
variable [JsonLib]

omit [JsonLib] in
theorem admitted_labelInv (hs : s.Inv) (hl : s.LabelInv) {request : GenerationRequest}
    (hpc : s.handler = .submit n request) (executorId promptTokens : ℕ)
    (mailbox : GenerationMailboxConfig) :
    LabelInv { s.setGate n (.initial (s.records n).requestId executorId promptTokens mailbox) with
      accepted := update s.accepted n true
      handler := .register n } := by
  have hlength : n + 1 = s.ids.length :=
    (hs.decision.deciding n (by simp only [toLanes, hpc]; rfl)).1
  refine ⟨fun k hk => ?_, fun k hk => ?_, fun k hk => ?_, fun k hk => ?_, hl.pumps, fun k hk => ?_⟩
  · by_cases hkn : k = n
    · exact (show k < s.ids.length by omega)
    · simp only [update_of_ne hkn] at hk
      exact hl.known k hk
  · cases hk
    simp
  · by_cases hkn : k = n
    · simp [hkn]
    · simp only [update_of_ne hkn]
      exact hl.started k hk
  · by_cases hkn : k = n
    · subst hkn
      simpa [setGate] using Gate.initial_labelled _ _ _ _
    · simp only [update_of_ne hkn] at hk
      simpa [setGate, hkn] using hl.gates k hk
  · by_cases hkn : k = n
    · subst hkn
      simp [setGate, Gate.initial]
    · rcases hk with hpolls | hadmitted
      · simpa [setGate, hkn] using hl.opened k (Or.inl hpolls)
      · exact absurd (Option.some.inj hadmitted).symm hkn

theorem handlerStep_labelInv (hs : s.Inv) (hl : s.LabelInv) {env : Environment}
    (h : s.handlerStep env = some s') : s'.LabelInv := by
  cases handlerStep_move h with
  | admitted k request executorId promptTokens mailbox hpc =>
    exact admitted_labelInv hs hl hpc executorId promptTokens mailbox
  | spawned k hpc =>
    have hadmitted : s.handler.admitted = some k := by rw [hpc]; rfl
    have hstarted : (s.setPump k .waitGate).LabelInv :=
      hl.setPump (hl.admitted k hadmitted) trivial (fun _ => hl.opened k (Or.inr hadmitted))
    exact hstarted.leave { SameLabels.refl (s.setPump k .waitGate) with } rfl
  | registered k hpc | emplaced k hpc =>
    exact hl.congr { SameLabels.refl s with } (fun j hj => by rw [hpc]; exact hj)
  | reap m =>
    refine hl.leave { SameLabels.refl s with } ?_
    cases m with
    | cancel | health => dsimp only [dispatch]; split <;> rfl
    | _ => rfl
  | spawnFailed k | acceptFailed k =>
    exact hl.leave { (s.abandonForwarding_aside k).sameLabels with } rfl
  | allow k => exact hl.leave { (s.allowForwarding_aside k).sameLabels with } rfl
  | acceptCancel _ _ _ _ outcome _ hc | cancel _ _ _ outcome _ hc =>
    exact hl.leave { (cancelStep_aside hc).sameLabels with } (by cases outcome <;> rfl)
  | report _ _ _ resume | resume resume =>
    exact hl.leave { SameLabels.refl s with } (by cases resume <;> rfl)
  | _ => exact hl.leave { SameLabels.refl s with } rfl

theorem pumpStep_labelInv (hs : s.Inv) (hl : s.LabelInv) {env : Environment}
    (h : s.pumpStep n env = some s') : s'.LabelInv := by
  have hstarted : s.pumps n ≠ .notStarted := by
    intro hpc
    simp [pumpStep, hpc] at h
  have hlabel := hl.pumps n
  have hgo : ∀ {t : Bridge} {pc : PumpPc}, s.Aside t → pc.Labelled (s.records n).requestId →
      (pc.polls → (s.pumps n).polls) → (t.setPump n pc).LabelInv := by
    intro t pc haside hpc hpolls
    refine hl.move haside.sameLabels (fun k hk => ?_) hstarted hpc hpolls
    rcases haside.handler with hsame | ⟨-, hexited⟩
    · rwa [hsame] at hk
    · rw [hexited] at hk
      cases hk
  cases pumpStep_move h with
  | take hpc => exact pop_labelInv hs hl hpc
  | checkStop hpc =>
    refine hgo (.refl s) ?_ (fun _ => by simp [hpc, PumpPc.polls, PumpPc.stage])
    split <;> trivial
  | pass d hpc | prepare t hpc =>
    rw [hpc] at hlabel
    exact hgo (.refl s) hlabel (by simp [hpc, PumpPc.polls, PumpPc.stage])
  | cancelling pc c outcome hpc hc =>
    exact hgo (cancelStep_aside hc) (by cases outcome <;> trivial)
      (fun _ => by simp [hpc, PumpPc.polls, PumpPc.stage])
  | markBackpressure hpc =>
    exact hgo (s.updateRecord_aside n ⟨rfl, id, id⟩) trivial
      (by simp [hpc, PumpPc.polls, PumpPc.stage])
  | markTerminal =>
    exact hgo (s.updateRecord_aside n ⟨rfl, fun _ => rfl, id⟩) trivial (fun h => absurd rfl h.2)
  | finish =>
    exact hgo (s.updateRecord_aside n ⟨rfl, id, fun _ => rfl⟩) trivial (fun h => absurd rfl h.2)
  | join _ hidle => exact hgo (exit_aside hidle) trivial (fun h => absurd rfl h.2)
  | enter _ _ _ resume hpc =>
    exact hgo { Aside.refl s with } trivial (by rw [hpc]; cases resume <;> exact id)
  | report _ _ _ resume hpc | resume resume hpc =>
    exact hgo { Aside.refl s with } (by cases resume <;> trivial)
      (by rw [hpc]; cases resume <;> exact id)
  | forwarded d m hpc =>
    have hmoved : (s.setPump n .checkStop).LabelInv :=
      hgo (.refl s) trivial (by simp [hpc, PumpPc.polls, PumpPc.stage])
    exact hmoved.aside { SameLabels.refl (s.setPump n .checkStop) with } rfl
  | finished =>
    have hmoved : (s.setPump n .markTerminal).LabelInv :=
      hgo (.refl s) trivial (fun h => absurd rfl h.2)
    exact hmoved.aside { SameLabels.refl (s.setPump n .markTerminal) with } rfl
  | _ =>
    exact hgo { Aside.refl s with } trivial
      (by simp [‹s.pumps n = _›, PumpPc.polls, PumpPc.stage])

theorem step_labelInv (hs : s.Inv) (hl : s.LabelInv) {a : BridgeAction}
    (hopen : ∀ n, a ≠ .backend n .close) (h : s.step a = some s') : s'.LabelInv := by
  cases a with
  | receive => exact receive_labelInv hl h
  | handler => exact handlerStep_labelInv hs hl h
  | pump => exact pumpStep_labelInv hs hl h
  | backend n => exact backend_labelInv hl (fun hclose => hopen n (hclose ▸ rfl)) h
  | writer => exact hl.of_aside (writerStep_aside h)
  | monitor => exact hl.of_aside (monitorStep_aside h)
  | stopper => exact hl.of_aside (stopperStep_aside h)
  | shutdown => exact hl.of_aside (shutdownStep_aside h)

end Threads

end Bridge

end KimServing

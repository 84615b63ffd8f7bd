import KimServing.Worker.EgressRegistration
import KimServing.Worker.WireGrammar

/-! # The registrations follow the words

A request is registered at the egress from the moment the handler has reserved its
terminal until the writer takes it, and only then. So a pump that has something to
forward finds its request registered, and a request id whose last word was taken is
free for the next Submit.
-/
namespace KimServing
open Library Function List Ipc

def HandlerPc.registers : HandlerPc → Option ℕ
  | .emplace n | .spawn n | .spawnFailed n _ | .erase n _ | .abandon n _ | .accept n => some n
  | _ => none

def HandlerPc.gaveUp : HandlerPc → Bool
  | .acceptFailed _ _ | .acceptCancel _ _ _ | .shutdown _ .exit | .shutdown _ (.fail _)
  | .shuttingDown .exit | .shuttingDown (.fail _) | .exited => true
  | _ => false

def Ipc.Message.isRejected : Message → Bool
  | .rejected _ => true
  | _ => false

def wordRegistration (enqueued delivered : List Message) : Option Bool :=
  if enqueued.any Message.isTerminal then
    if delivered.any Message.isTerminal then none else some true
  else if enqueued.any Message.isRejected then none
  else some false

theorem wordRegistration_acceptedWord (c : RuntimeBridgeConfig) (r : ℕ)
    (forwarded : List TokenDelta) (delivered : List Message) :
    wordRegistration (acceptedWord c r forwarded) delivered = some false := by
  simp [wordRegistration, acceptedWord, wireAccepted, deltaMessage, comp_def,
    Message.isTerminal, Message.isRejected]

theorem acceptedWord_no_terminal (c : RuntimeBridgeConfig) (r : ℕ) (forwarded : List TokenDelta) :
    (acceptedWord c r forwarded).any Message.isTerminal = false := by
  simp [acceptedWord, wireAccepted, deltaMessage, comp_def, Message.isTerminal]

theorem wordRegistration_of_final {word : List Message} {m : Message} (hm : m ∈ word)
    (hfinal : m.isFinal = true) : wordRegistration word word = none := by
  unfold wordRegistration
  split
  · rfl
  · next hterminal =>
    have hrejected : m.isRejected = true := by
      cases m with
      | rejected => rfl
      | terminal => exact absurd (any_eq_true.mpr ⟨_, hm, rfl⟩) hterminal
      | _ => cases hfinal
    rw [if_pos (any_eq_true.mpr ⟨m, hm, hrejected⟩)]

namespace Bridge

variable {e : SessionEgress} {env : Environment} {m : Message}

structure Expects (s : Bridge) (n : ℕ) (registration : Option Bool) : Prop where
  undecided : s.handler.registers = some n → registration = some false
  blank : s.handler.registers ≠ some n → s.enqueued n = [] → s.handler.gaveUp = false →
    registration = none
  written : s.enqueued n ≠ [] → registration = wordRegistration (s.enqueued n) (s.delivered n)

/-- The newest word of an id says whether the egress has a queue for it. -/
structure RegInv (s : Bridge) : Prop where
  control : ∀ queued ∈ s.egress.control, SessionEgress.isControl queued.message = true
  newest : s.egress.accepting = true → ∀ r n, lastIndex r s.ids = some n →
    s.Expects n (s.egress.registration r)
  unknown : s.egress.accepting = true → ∀ r, lastIndex r s.ids = none →
    s.egress.registration r = none

theorem initial_regInv {c : RuntimeBridgeConfig}
    (he : SessionEgress.create c.makeEgressConfig = .ok e) : (initial c e).RegInv := by
  obtain ⟨-, rfl⟩ := SessionEgress.create_eq_ok he
  exact ⟨by simp [initial], nofun, fun _ r _ => rfl⟩

variable {s t s' : Bridge} {n : ℕ}

def Follows (pc pc' : HandlerPc) : Prop :=
  (pc'.registers = pc.registers ∧ (pc'.gaveUp = false → pc.gaveUp = false)) ∨
    (pc'.registers = none ∧ pc'.gaveUp = true)

theorem RegInv.congr (hs : s.RegInv)
    (hcontrol : ∀ queued ∈ t.egress.control, SessionEgress.isControl queued.message = true)
    (haccepting : t.egress.accepting = true → s.egress.accepting = true)
    (hregistration : t.egress.accepting = true →
      ∀ r, t.egress.registration r = s.egress.registration r)
    (hids : t.ids = s.ids) (henqueued : t.enqueued = s.enqueued)
    (hdelivered : t.delivered = s.delivered) (hhandler : Follows s.handler t.handler) :
    t.RegInv := by
  refine ⟨hcontrol, fun hopen r n hlast => ?_, fun hopen r hlast => ?_⟩
  · rw [hids] at hlast
    rw [hregistration hopen]
    obtain ⟨hundecided, hblank, hwritten⟩ := hs.newest (haccepting hopen) r n hlast
    refine ⟨fun h => ?_, fun h hword hgave => ?_, ?_⟩
    · rcases hhandler with ⟨hsame, -⟩ | ⟨hnone, -⟩
      · exact hundecided (hsame ▸ h)
      · cases hnone.symm.trans h
    · rcases hhandler with ⟨hsame, hback⟩ | ⟨-, hgone⟩
      · exact hblank (hsame ▸ h) (henqueued ▸ hword) (hback hgave)
      · cases hgone.symm.trans hgave
    · rw [henqueued, hdelivered]
      exact hwritten
  · rw [hids] at hlast
    rw [hregistration hopen]
    exact hs.unknown (haccepting hopen) r hlast

structure Unwritten (s t : Bridge) : Prop where
  egress : t.egress = s.egress
  ids : t.ids = s.ids
  enqueued : t.enqueued = s.enqueued
  delivered : t.delivered = s.delivered

theorem RegInv.frame (hs : s.RegInv) (h : s.Unwritten t) (hhandler : Follows s.handler t.handler) :
    t.RegInv :=
  hs.congr (by rw [h.egress]; exact hs.control) (by rw [h.egress]; exact id)
    (fun _ r => by rw [h.egress]) h.ids h.enqueued h.delivered hhandler

theorem Follows.refl (pc : HandlerPc) : Follows pc pc := Or.inl ⟨rfl, id⟩

theorem RegInv.aside (hs : s.RegInv) (h : s.Unwritten t) (hhandler : t.handler = s.handler) :
    t.RegInv :=
  hs.frame h (hhandler ▸ .refl _)

theorem RegInv.focus (hs : s.RegInv) {r : ℕ} (hlast : lastIndex r s.ids = some n)
    (hcontrol : ∀ queued ∈ t.egress.control, SessionEgress.isControl queued.message = true)
    (haccepting : t.egress.accepting = true → s.egress.accepting = true) (hids : t.ids = s.ids)
    (hwords : ∀ k, k ≠ n → t.enqueued k = s.enqueued k ∧ t.delivered k = s.delivered k)
    (hother : ∀ r', r' ≠ r → t.egress.registration r' = s.egress.registration r')
    (hhandler : t.handler = s.handler ∨ s.handler.gaveUp = false ∧
      (∀ k, s.handler.registers = some k → k = n) ∧ ∀ k, t.handler.registers = some k → k = n)
    (hself : t.egress.accepting = true → t.Expects n (t.egress.registration r)) : t.RegInv := by
  refine ⟨hcontrol, fun hopen r' k hk => ?_, fun hopen r' hnone => ?_⟩
  · rw [hids] at hk
    by_cases hr : r' = r
    · subst hr
      rw [hlast] at hk
      rw [← Option.some.inj hk]
      exact hself hopen
    · have hkn : k ≠ n := by
        rintro rfl
        exact hr (indices_unique (mem_indices_of_lastIndex hk) (mem_indices_of_lastIndex hlast))
      obtain ⟨hundecided, hblank, hwritten⟩ := hs.newest (haccepting hopen) r' k hk
      rw [hother r' hr]
      refine ⟨fun h => ?_, fun h hword hgave => ?_, ?_⟩
      · rcases hhandler with hsame | ⟨-, -, hafter⟩
        · exact hundecided (hsame ▸ h)
        · exact absurd (hafter k h) hkn
      · rw [(hwords k hkn).1] at hword
        rcases hhandler with hsame | ⟨hgave', hbefore, -⟩
        · exact hblank (hsame ▸ h) hword (hsame ▸ hgave)
        · exact hblank (fun h' => hkn (hbefore k h')) hword hgave'
      · rw [(hwords k hkn).1, (hwords k hkn).2]
        exact hwritten
  · rw [hids] at hnone
    have hr : r' ≠ r := by
      rintro rfl
      cases hlast.symm.trans hnone
    rw [hother r' hr]
    exact hs.unknown (haccepting hopen) r' hnone

theorem HandlerPc.decision_of_registers {pc : HandlerPc} (h : pc.registers = some n)
    (ids : List ℕ) : pc.decision ids = some (n, false) := by
  cases pc <;> cases h <;> rfl

theorem Inv.registers_ne (hs : s.Inv) (hword : s.enqueued n ≠ []) :
    s.handler.registers ≠ some n := by
  intro h
  exact hword (hs.decision.deciding n (HandlerPc.decision_of_registers h _)).2

theorem Expects.of_word {registration : Option Bool} (hregisters : s.handler.registers ≠ some n)
    (hword : s.enqueued n ≠ [])
    (h : registration = wordRegistration (s.enqueued n) (s.delivered n)) :
    s.Expects n registration :=
  ⟨fun hn => absurd hn hregisters, fun _ hnil => absurd hnil hword, fun _ => h⟩

/-! ## The other threads -/

theorem exit_regInv (hr : s.RegInv) : RegInv { s with handler := .exited } :=
  hr.frame ⟨rfl, rfl, rfl, rfl⟩ (Or.inr ⟨rfl, rfl⟩)

theorem shutdownStep_regInv (hs : s.Inv) (hr : s.RegInv) (h : s.shutdownStep env = some s') :
    s'.RegInv := by
  cases shutdownStep_move h with
  | stopEgress =>
    obtain ⟨hview, hstopped⟩ := hs.view.stop
    have hclosed : s.egress.stop.accepting ≠ true := by simp [hstopped]
    refine hr.congr ?_ (fun h => absurd h hclosed) (fun h => absurd h hclosed) rfl rfl rfl
      (.refl _)
    simp [(hview.inv.stopped hstopped).1]
  | _ => exact hr.aside ⟨rfl, rfl, rfl, rfl⟩ rfl

theorem monitorStep_regInv (hr : s.RegInv) (h : s.monitorStep env = some s') : s'.RegInv := by
  cases monitorStep_move h with
  | _ => exact hr.aside ⟨rfl, rfl, rfl, rfl⟩ rfl

theorem stopperStep_regInv (hr : s.RegInv) (h : s.stopperStep env = some s') : s'.RegInv := by
  cases stopperStep_move h with
  | join => exact (exit_regInv hr).aside ⟨rfl, rfl, rfl, rfl⟩ rfl
  | _ => exact hr.aside ⟨rfl, rfl, rfl, rfl⟩ rfl

/-! ## The writer -/

theorem pop_regInv (hs : s.Inv) (hr : s.RegInv)
    (hlanes : LanesInv s.config (s.notePopped m e).toLanes)
    (hcontrol : ∀ queued ∈ e.control, SessionEgress.isControl queued.message = true)
    (haccepting : s.egress.accepting = true) (hregistration : ∀ r, e.registration r =
      if m.isTerminal = true ∧ m.requestId? = some r then none else s.egress.registration r) :
    (s.notePopped m e).RegInv := by
  cases hm : m.requestId?.bind (fun requestId => lastIndex requestId s.ids) with
  | none =>
    -- No Submit has the id of this message, so there was nothing registered for it.
    have hunknown : ∀ r, m.requestId? = some r → s.egress.registration r = none := by
      intro r hmr
      rw [hmr] at hm
      exact hr.unknown haccepting r hm
    refine hr.congr hcontrol (fun _ => haccepting) (fun _ r => ?_) rfl rfl ?_ (.refl _)
    · refine (hregistration r).trans ?_
      split
      · next h => exact (hunknown r h.2).symm
      · rfl
    · simp only [notePopped, hm]
  | some n =>
    obtain ⟨r, hmr, hlast⟩ := Option.bind_eq_some_iff.mp hm
    have hdelivered : (s.notePopped m e).delivered =
        update s.delivered n (s.delivered n ++ [m]) := by
      simp only [notePopped, hm]
    have hfirst : (s.notePopped m e).delivered n <+: s.enqueued n := (hlanes.newest r n hlast).1
    rw [hdelivered, update_self] at hfirst
    have hmem : m ∈ s.enqueued n := hfirst.subset (by simp)
    refine hr.focus hlast hcontrol (fun _ => haccepting) rfl ?_ ?_ (Or.inl rfl) ?_
    · intro k hk
      exact ⟨rfl, by rw [hdelivered, update_of_ne hk]⟩
    · intro r' hr'
      refine (hregistration r').trans (if_neg ?_)
      rintro ⟨-, h⟩
      exact hr' (Option.some.inj (h.symm.trans hmr))
    · intro _
      have hword : s.enqueued n ≠ [] := ne_nil_of_mem hmem
      refine .of_word (hs.registers_ne hword) hword ?_
      rw [hdelivered, update_self]
      refine (hregistration r).trans ?_
      rw [(hr.newest haccepting r n hlast).written hword]
      by_cases hterminal : m.isTerminal = true
      · have hany : (s.enqueued n).any Message.isTerminal = true :=
          any_eq_true.mpr ⟨m, hmem, hterminal⟩
        simp only [notePopped, wordRegistration, hany, hterminal, hmr]
        simp [hterminal]
      · simp [notePopped, wordRegistration, hterminal]

theorem writerStep_regInv (hs : s.Inv) (hr : s.RegInv) (h : s.writerStep env = some s') :
    s'.RegInv := by
  have hafter : s'.Inv := hs.of_simulates (writerStep_simulates hs h)
  have hpop := s.egress.waitPop_registration hs.view hr.control s.config.mailboxWaitTimeout
  cases writerStep_move h with
  | timeout hpc hresult | stopped hpc hresult =>
    rcases hpop with ⟨-, hsame⟩ | ⟨m, hm, -⟩
    · exact hr.aside ⟨hsame, rfl, rfl, rfl⟩ rfl
    · cases hresult.symm.trans hm
  | take m hpc hresult =>
    rcases hpop with ⟨hnone, -⟩ | ⟨m', hm, hcontrol, hregistration⟩
    · exact absurd hresult (hnone m)
    · cases hresult.symm.trans hm
      have haccepting : s.egress.accepting = true := by
        rcases hs.view.waitPop s.config.mailboxWaitTimeout with ⟨hnone, -⟩ | ⟨-, -, -, hopen, -⟩
        · exact absurd hm (hnone m)
        · exact hopen
      exact (pop_regInv hs hr hafter.lanes hcontrol haccepting hregistration).aside
        ⟨rfl, rfl, rfl, rfl⟩ rfl
  | join => exact (exit_regInv hr).aside ⟨rfl, rfl, rfl, rfl⟩ rfl
  | _ => exact hr.aside ⟨rfl, rfl, rfl, rfl⟩ rfl

/-! ## The pumps -/

theorem Inv.pump_word (hs : s.Inv) (hwaiting : (s.pumps n).stage ≠ .waiting)
    (hclosed : (s.pumps n).stage ≠ .closed) :
    lastIndex (s.records n).requestId s.ids = some n ∧
      ∃ forwarded, s.enqueued n = acceptedWord s.config (s.records n).requestId forwarded := by
  obtain ⟨forwarded, hword, -⟩ := (hs.lanes.lanes n).flowing hwaiting hclosed
  exact ⟨hs.lanes.lastIndex_of_flowing hwaiting hclosed, forwarded, hword⟩

theorem append_regInv (hs : s.Inv) (hr : s.RegInv) (hwaiting : (s.pumps n).stage ≠ .waiting)
    (hclosed : (s.pumps n).stage ≠ .closed) {pc : PumpPc}
    (hcontrol : e.control = s.egress.control)
    (haccepting : e.accepting = true → s.egress.accepting = true)
    (hother : ∀ r, r ≠ (s.records n).requestId → e.registration r = s.egress.registration r)
    (hself : e.registration (s.records n).requestId =
      wordRegistration (s.enqueued n ++ [m]) (s.delivered n)) :
    ((s.noteEnqueued n m e).setPump n pc).RegInv := by
  obtain ⟨hlast, forwarded, hword⟩ := hs.pump_word hwaiting hclosed
  refine hr.focus (t := (s.noteEnqueued n m e).setPump n pc) hlast ?_ haccepting rfl ?_ hother
    (Or.inl rfl) ?_
  · intro queued hqueued
    exact hr.control queued (hcontrol ▸ hqueued)
  · intro k hk
    exact ⟨update_of_ne hk _ _, rfl⟩
  · intro _
    have hnew : ((s.noteEnqueued n m e).setPump n pc).enqueued n = s.enqueued n ++ [m] :=
      update_self ..
    refine .of_word (hs.registers_ne (by rw [hword]; exact cons_ne_nil _ _)) ?_ ?_
    · rw [hnew]
      simp
    · rw [hnew]
      exact hself

section Pumps
variable [JsonLib]

theorem forwarded_regInv (hs : s.Inv) (hr : s.RegInv) {d : TokenDelta}
    (hpc : s.pumps n = .forward d)
    (hcode : (s.egress.enqueueDelta (s.records n).requestId
      (.tokenDelta (wireDelta s.config d))).1.code = .enqueued) {pc : PumpPc} :
    RegInv ((s.noteEnqueued n (.tokenDelta (wireDelta s.config d))
      (s.egress.enqueueDelta (s.records n).requestId
        (.tokenDelta (wireDelta s.config d))).2).setPump n pc) := by
  have hwaiting : (s.pumps n).stage ≠ .waiting := by simp [hpc, PumpPc.stage]
  have hclosed : (s.pumps n).stage ≠ .closed := by simp [hpc, PumpPc.stage]
  rcases hs.view.enqueueDelta (s.records n).requestId (.tokenDelta (wireDelta s.config d)) with
    ⟨hrefused, -⟩ | ⟨-, happend⟩
  · exact absurd hcode hrefused
  obtain ⟨hlast, forwarded, hword⟩ := hs.pump_word hwaiting hclosed
  obtain ⟨hcontrol, hregistration⟩ := s.egress.enqueueDelta_registration
    (s.records n).requestId (.tokenDelta (wireDelta s.config d))
  refine append_regInv hs hr hwaiting hclosed hcontrol (fun _ => happend.before)
    (fun r _ => hregistration r) ?_
  have hgrown : s.enqueued n ++ [.tokenDelta (wireDelta s.config d)] =
      acceptedWord s.config (s.records n).requestId (forwarded ++ [d]) := by
    rw [hword]
    simp [acceptedWord, deltaMessage]
  rw [hregistration, hgrown, wordRegistration_acceptedWord,
    (hr.newest happend.before _ n hlast).written (by rw [hword]; exact cons_ne_nil _ _),
    hword, wordRegistration_acceptedWord]

theorem finished_regInv (hs : s.Inv) (hr : s.RegInv) {wire : Terminal}
    (hpc : s.pumps n = .enqueueTerminal wire)
    (hcode : (s.egress.enqueueTerminal (s.records n).requestId (.terminal wire)).1.code = .enqueued)
    {pc : PumpPc} :
    RegInv ((s.noteEnqueued n (.terminal wire)
      (s.egress.enqueueTerminal (s.records n).requestId (.terminal wire)).2).setPump n pc) := by
  have hwaiting : (s.pumps n).stage ≠ .waiting := by simp [hpc, PumpPc.stage]
  have hclosed : (s.pumps n).stage ≠ .closed := by simp [hpc, PumpPc.stage]
  rcases s.egress.enqueueTerminal_registration (s.records n).requestId (.terminal wire) with
    ⟨hrefused, -⟩ | ⟨-, -, hcontrol, hregistration⟩
  · exact absurd hcode hrefused
  have haccepting : s.egress.accepting = true := by
    rcases hs.view.enqueueTerminal (s.records n).requestId (.terminal wire) with
      ⟨hrefused, -⟩ | ⟨-, happend⟩
    · exact absurd hcode hrefused
    · exact happend.before
  obtain ⟨hlast, forwarded, hword⟩ := hs.pump_word hwaiting hclosed
  refine append_regInv hs hr hwaiting hclosed hcontrol (fun _ => haccepting) ?_ ?_
  · intro r hne
    rw [hregistration, if_neg hne]
  · -- Nothing but the new message is a Terminal, and it was not delivered yet.
    have hfirst : s.delivered n <+: s.enqueued n := (hs.lanes.newest _ n hlast).1
    have hnone : (s.delivered n).any Message.isTerminal = false := by
      rw [any_eq_false]
      intro m hm
      have hall := acceptedWord_no_terminal s.config (s.records n).requestId forwarded
      rw [← hword, any_eq_false] at hall
      exact hall m (hfirst.subset hm)
    rw [hregistration, if_pos rfl]
    simp [wordRegistration, hnone, Message.isTerminal]

theorem pumpStep_regInv (hs : s.Inv) (hr : s.RegInv) {env : Environment}
    (h : s.pumpStep n env = some s') : s'.RegInv := by
  cases pumpStep_move h with
  | forwarded d m hpc hm hcode =>
    subst hm
    exact forwarded_regInv hs hr hpc hcode
  | finished wire m hpc hm hcode =>
    subst hm
    exact finished_regInv hs hr hpc hcode
  | join => exact (exit_regInv hr).aside ⟨rfl, rfl, rfl, rfl⟩ rfl
  | _ => exact hr.aside ⟨rfl, rfl, rfl, rfl⟩ rfl

end Pumps

/-! ## The handler -/

theorem RegInv.go (hr : s.RegInv) (h : s.Unwritten t)
    (hregisters : t.handler.registers = s.handler.registers) (hgave : s.handler.gaveUp = false) :
    t.RegInv :=
  hr.frame h (Or.inl ⟨hregisters, fun _ => hgave⟩)

theorem decide_regInv (hs : s.Inv) (hr : s.RegInv)
    (hdecision : s.handler.decision s.ids = some (n, false)) (hgave : s.handler.gaveUp = false)
    {pc : HandlerPc} (hcontrol : e.control = s.egress.control)
    (haccepting : e.accepting = s.egress.accepting) (hpc : ∀ k, pc.registers = some k → k = n)
    (hregistration : ∀ r, e.registration r =
      if r = (s.records n).requestId then pc.registers.map (fun _ => false)
      else s.egress.registration r) : RegInv { s with egress := e, handler := pc } := by
  have hword : s.enqueued n = [] := (hs.decision.deciding n hdecision).2
  refine hr.focus (hs.lastIndex_deciding hdecision) ?_ (fun h => haccepting ▸ h) rfl
    (fun k _ => ⟨rfl, rfl⟩) ?_ (Or.inr ⟨hgave, ?_, hpc⟩) ?_
  · intro queued hqueued
    exact hr.control queued (hcontrol ▸ hqueued)
  · intro r hne
    exact (hregistration r).trans (if_neg hne)
  · intro k hk
    have := HandlerPc.decision_of_registers hk s.ids
    rw [hdecision] at this
    cases this
    rfl
  · intro _
    have hself := (hregistration (s.records n).requestId).trans (if_pos rfl)
    refine ⟨fun h => ?_, fun h _ _ => ?_, fun h => absurd hword h⟩
    · rw [hself, show pc.registers = some n from h]
      rfl
    · rw [hself]
      cases hregisters : pc.registers with
      | none => rfl
      | some k => exact absurd (hregisters.trans (by rw [hpc k hregisters])) h

section Handler
variable [JsonLib]

theorem answer_regInv (hs : s.Inv) (hr : s.RegInv)
    (hdecision : s.handler.decision s.ids = some (n, false)) (hgave : s.handler.gaveUp = false)
    {m : Message} {pc : HandlerPc} (hpc : pc.registers = none)
    (hself : s.egress.accepting = true →
      s.egress.registration (s.records n).requestId = wordRegistration [m] (s.delivered n)) :
    RegInv { s.noteEnqueued n m (s.egress.enqueueControl m).2 with handler := pc } := by
  have hword : s.enqueued n = [] := (hs.decision.deciding n hdecision).2
  have haccepting := (hs.view.enqueueControl m).2.1
  refine hr.focus (hs.lastIndex_deciding hdecision) (s.egress.enqueueControl_control m hr.control)
    (fun h => haccepting ▸ h) rfl ?_ (fun r _ => s.egress.enqueueControl_registration m r)
    (Or.inr ⟨hgave, ?_, ?_⟩) ?_
  · intro k hk
    exact ⟨update_of_ne hk _ _, rfl⟩
  · intro k hk
    have := HandlerPc.decision_of_registers hk s.ids
    rw [hdecision] at this
    cases this
    rfl
  · intro k hk
    cases hpc.symm.trans hk
  · intro hopen
    have hnew : (s.noteEnqueued n m (s.egress.enqueueControl m).2).enqueued n = [m] := by
      simp [noteEnqueued, hword]
    refine .of_word (by rw [hpc]; simp) (by rw [hnew]; simp) ?_
    rw [hnew]
    exact (s.egress.enqueueControl_registration m _).trans (hself (haccepting ▸ hopen))

theorem handlerStep_regInv (hs : s.Inv) (hr : s.RegInv) {env : Environment}
    (h : s.handlerStep env = some s') : s'.RegInv := by
  have hdecides : ∀ {pc : HandlerPc} {k : ℕ}, s.handler = pc → pc.decision s.ids = some (k, false) →
      s.handler.decision s.ids = some (k, false) := fun hpc h => hpc ▸ h
  cases handlerStep_move h with
  | accepted k m hpc hm =>
    have hdecision := hdecides hpc rfl
    subst hm
    refine answer_regInv hs hr hdecision (by rw [hpc]; rfl) rfl (fun hopen => ?_)
    rw [(hr.newest hopen _ k (hs.lastIndex_deciding hdecision)).undecided (by rw [hpc]; rfl)]
    exact (wordRegistration_acceptedWord s.config (s.records k).requestId [] _).symm
  | rejected k status m hpc hm =>
    have hdecision := hdecides hpc rfl
    subst hm
    refine answer_regInv hs hr hdecision (by rw [hpc]; rfl) rfl (fun hopen => ?_)
    rw [(hr.newest hopen _ k (hs.lastIndex_deciding hdecision)).blank
      (by rw [hpc]; simp [HandlerPc.registers])
      (hs.decision.deciding k hdecision).2 (by rw [hpc]; rfl)]
    rfl
  | registered k hpc hok =>
    rcases s.egress.registerRequest_registration (s.records k).requestId with
      ⟨hfailed, -⟩ | ⟨-, -, hcontrol, hregistration⟩
    · cases hfailed.symm.trans hok
    · exact decide_regInv hs hr (hdecides hpc rfl) (by rw [hpc]; rfl) hcontrol
        (hs.view.registerRequest _).2.1 (fun j hj => (Option.some.inj hj).symm) hregistration
  | abandon k status hpc =>
    have hdecision := hdecides hpc rfl
    exact decide_regInv hs hr hdecision (by rw [hpc]; rfl) (s.egress.abandonRequest_control _)
      (hs.view.abandonRequest (hs.pending_deciding hdecision)).2.1 (by simp [HandlerPc.registers])
      (s.egress.abandonRequest_registration _)
  | reap m hpc =>
    refine hr.go ⟨rfl, rfl, rfl, rfl⟩ ?_ (by rw [hpc]; rfl)
    rw [hpc]
    cases m with
    | cancel | health => dsimp only [dispatch]; split <;> rfl
    | _ => rfl
  | stats m hpc =>
    obtain ⟨-, haccepting, -⟩ := hs.view.enqueueControl (.stats m)
    refine hr.congr (s.egress.enqueueControl_control _ hr.control) (fun h => haccepting ▸ h)
      (fun _ r => s.egress.enqueueControl_registration _ r) rfl rfl rfl (Or.inl ?_)
    rw [hpc]
    exact ⟨rfl, fun _ => rfl⟩
  | unaccepted | unrejected | acceptFailed => exact hr.frame ⟨rfl, rfl, rfl, rfl⟩ (Or.inr ⟨rfl, rfl⟩)
  | acceptCancel k status pc c outcome =>
    exact hr.frame ⟨rfl, rfl, rfl, rfl⟩ (Or.inr (by cases outcome <;> exact ⟨rfl, rfl⟩))
  | cancel k pc c outcome hpc =>
    exact hr.go ⟨rfl, rfl, rfl, rfl⟩ (by rw [hpc]; cases outcome <;> rfl) (by rw [hpc]; rfl)
  | enter _ _ _ resume hpc | report _ _ _ resume hpc | resume resume hpc =>
    refine hr.frame ⟨rfl, rfl, rfl, rfl⟩ ?_
    rw [hpc]
    cases resume <;> simp [Follows, HandlerPc.registers, HandlerPc.gaveUp, HandlerResume.pc]
  | _ => exact hr.go ⟨rfl, rfl, rfl, rfl⟩ (by rw [‹s.handler = _›]; rfl) (by rw [‹s.handler = _›]; rfl)

end Handler

theorem RegInv.registration_free (hs : s.Inv) (hr : s.RegInv) {r : ℕ}
    (hclient : s.ids.count r ≤ finals r s.popped) (hopen : s.egress.accepting = true) :
    s.egress.registration r = none := by
  cases hlast : lastIndex r s.ids with
  | none => exact hr.unknown hopen r hlast
  | some n =>
    obtain ⟨hall, m, hm, hfinal⟩ :=
      hs.lanes.all_delivered hclient (mem_indices_of_lastIndex hlast)
    have hall : s.delivered n = s.enqueued n := hall
    rw [(hr.newest hopen r n hlast).written (ne_nil_of_mem hm), hall]
    exact wordRegistration_of_final hm hfinal

theorem receive_regInv (hs : s.Inv) (hr : s.RegInv) (hclient : s.Conforming (.receive m))
    (h : s.receive m = some s') : s'.RegInv := by
  obtain ⟨hpc, ⟨submit, rfl, rfl⟩ | ⟨-, rfl⟩⟩ := receive_cases h
  · have hfresh : s.enqueued s.ids.length = [] := (hs.lanes.fresh s.ids.length (Nat.le_refl _)).1
    refine ⟨hr.control, fun hopen r k hk => ?_, fun hopen r hnone => ?_⟩
    · change (if submit.requestId = r then _ else _) = _ at hk
      split at hk
      · next hid =>
        rw [← Option.some.inj hk, ← hid]
        refine ⟨fun h => (by cases h), fun _ _ _ => ?_, fun h => absurd hfresh h⟩
        exact hr.registration_free hs hclient hopen
      · obtain ⟨-, hblank, hwritten⟩ := hr.newest hopen r k hk
        refine ⟨fun h => (by cases h), fun _ hword _ => ?_, hwritten⟩
        exact hblank (by rw [hpc]; simp [HandlerPc.registers]) hword (by rw [hpc]; rfl)
    · change (if submit.requestId = r then _ else _) = _ at hnone
      split at hnone
      · cases hnone
      · exact hr.unknown hopen r hnone
  · exact hr.go ⟨rfl, rfl, rfl, rfl⟩ (by rw [hpc]; rfl) (by rw [hpc]; rfl)

variable [JsonLib]

theorem step_regInv (hs : s.Inv) (hr : s.RegInv) {a : BridgeAction} (hclient : s.Conforming a)
    (h : s.step a = some s') : s'.RegInv := by
  cases a with
  | receive => exact receive_regInv hs hr hclient h
  | handler => exact handlerStep_regInv hs hr h
  | pump => exact pumpStep_regInv hs hr h
  | backend =>
    obtain ⟨-, g, -, rfl⟩ := backend_cases h
    exact hr.aside ⟨rfl, rfl, rfl, rfl⟩ rfl
  | writer => exact writerStep_regInv hs hr h
  | monitor => exact monitorStep_regInv hr h
  | stopper => exact stopperStep_regInv hr h
  | shutdown => exact shutdownStep_regInv hs hr h

end Bridge

/-- With a conforming client, while the egress accepts messages: a request is registered, and its
terminal reserved, from its first word until the writer takes its terminal. A rejected request is
not registered, and neither is an id that no Submit has used. -/
theorem registrations_follow_words [JsonLib] {c : RuntimeBridgeConfig} {s : Bridge}
    (h : Bridge.Reached c s) (haccepting : s.egress.accepting = true) (r : ℕ) :
    (lastIndex r s.ids = none → s.egress.registration r = none) ∧
    ∀ n, lastIndex r s.ids = some n → s.enqueued n ≠ [] →
      s.egress.registration r = wordRegistration (s.enqueued n) (s.delivered n) := by
  obtain ⟨-, hreg⟩ := h.induct (I := Bridge.RegInv) (fun _ he => Bridge.initial_regInv he)
    (fun _ _ _ hinv ht hg hstep => Bridge.step_regInv hinv ht hg hstep)
  exact ⟨hreg.unknown haccepting r, fun n hn => (hreg.newest haccepting r n hn).written⟩

theorem registrations_follow_words_sentRun :
    ∃ s, @Bridge.Reached plainJson (.ofLimits 1 ordinaryLimits) s ∧
      s.sent.map messageTypeName = sentTypes ∧
      s.egress.registration 7 = wordRegistration (s.enqueued 0) (s.delivered 0) := by
  obtain ⟨s, hs, hsent, haccepting, hlast, hword⟩ := Bridge.sentRun_reached
  refine ⟨s, hs, hsent,
    (@registrations_follow_words plainJson _ s hs haccepting 7).2 0 hlast fun hempty => ?_⟩
  rw [hempty] at hword
  cases hword

end KimServing

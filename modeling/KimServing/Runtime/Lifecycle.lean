import KimServing.Runtime.Conservation

/-! # The lifecycle of the runtime

Admission is open exactly while the runtime runs, a stopped runtime holds nothing, and
a submission that is accepted made all its checks in one running period. The new
invariant is about one call and the state that it meets, so a step of another call
matters only when that call holds the lock alone.
-/
namespace KimServing
open Library

namespace CallPc

def stopping : CallPc → Bool
  | .stopLock | .stopClose | .stopBackend | .stopSnapshot | .unlockExclusive _ | .returned _ => true
  | _ => false

def checks : CallPc → ℕ
  | .submitEvaluate _ => 1
  | .submitAcquire .. => 2
  | .submitMailbox _ => 3
  | .submitBackend _ => 4
  | _ => 0

theorem working_of_checks {pc : CallPc} (h : pc.checks ≠ 0) : pc.working = true := by
  cases pc <;> first | rfl | exact absurd rfl h

end CallPc

namespace Call

def stamps (c : Call) : List (Option ℕ) :=
  [c.checkedIn, c.evaluatedIn, c.acquiredIn, c.handedIn, c.answeredIn]

/-- What a call knows of the state. A `stop` that is about to return success has
stopped the runtime, and a submission makes its checks in the current period. -/
structure Timely (c : Call) (state : RuntimeState) (period : ℕ) : Prop where
  stopping : c.op = some .stop → c.pc.stopping = true
  stopped : c.op = some .stop → c.pc = .unlockExclusive .success → state = .stopped
  stamped : ∀ stamp ∈ c.stamps.take c.pc.checks, stamp = some period
  accepted : c.accepted = true → ∃ p, ∀ stamp ∈ c.stamps, stamp = some p

variable {c d : Call} {state state' : RuntimeState} {period period' : ℕ}

theorem not_checked (hchecks : c.pc.checks = 0) :
    ∀ stamp ∈ c.stamps.take c.pc.checks, stamp = some period := by
  rw [hchecks]
  exact fun _ hmem => absurd hmem List.not_mem_nil

theorem Timely.rest (h : c.Timely state period) (hpc : c.pc.stopping = false) (hop : d.op = c.op)
    (haccepted : d.accepted = c.accepted) (hstamps : c.accepted = true → d.stamps = c.stamps)
    (hchecks : d.pc.checks = 0) : d.Timely state' period' := by
  have hnot : d.op ≠ some .stop := fun hstop => by
    cases hpc.symm.trans (h.stopping (hop ▸ hstop))
  refine ⟨fun hstop => absurd hstop hnot, fun hstop => absurd hstop hnot, not_checked hchecks,
    fun ha => ?_⟩
  rw [haccepted] at ha
  rw [hstamps ha]
  exact h.accepted ha

theorem Timely.check (h : c.Timely state period) (hpc : c.pc.stopping = false) (hop : d.op = c.op)
    (haccepted : d.accepted = false)
    (hstamped : ∀ stamp ∈ d.stamps.take d.pc.checks, stamp = some period) :
    d.Timely state period := by
  have hnot : d.op ≠ some .stop := fun hstop => by
    cases hpc.symm.trans (h.stopping (hop ▸ hstop))
  exact ⟨fun hstop => absurd hstop hnot, fun hstop => absurd hstop hnot, hstamped,
    fun ha => by cases ha.symm.trans haccepted⟩

theorem Timely.elsewhere (h : c.Timely state period) (hshared : c.pc.shared = false)
    (hexclusive : c.pc.exclusive = false) : c.Timely state' period' := by
  have hchecks : c.pc.checks = 0 := by
    by_contra hne
    cases (CallPc.working_of_not_shared hshared).symm.trans (CallPc.working_of_checks hne)
  refine ⟨h.stopping, fun _ hpc => ?_, not_checked hchecks, h.accepted⟩
  rw [hpc] at hexclusive
  cases hexclusive

end Call

namespace GenerationRuntime
variable {K : Type} {s t : GenerationRuntime K} {k : ℕ}

def TimelyInv (s : GenerationRuntime K) : Prop := ∀ k, (s.calls k).Timely s.state s.period

namespace TimelyInv

theorem own (h : s.TimelyInv) (hlock : s.LockInv) (he : Effect s k t)
    (hk : (t.calls k).Timely t.state t.period) : t.TimelyInv := by
  intro j
  by_cases hj : j = k
  · subst hj
    exact hk
  · have hquiet := he.quiet
    rw [hquiet.others j hj]
    obtain ⟨hstate, hperiod⟩ | hexclusive := hquiet.state
    · rw [hstate, hperiod]
      exact h j
    · obtain ⟨hshared, hother⟩ := hlock.alone hexclusive j
      exact (h j).elsewhere hshared (hother hj)

theorem «begin» (hcalls : s.CallsInv) {op : RuntimeOp} (hs : s.begin k op = some t) :
    (t.calls k).Timely t.state t.period := by
  obtain ⟨hpc, rfl⟩ := begin_eq_some hs
  have hfresh := (hcalls k).fresh (by rw [hpc]; rfl)
  rw [setCall_calls_self]
  refine ⟨fun hstop => ?_, fun hstop hunlock => ?_, ?_, fun ha => ?_⟩
  · cases hstop
    rfl
  · cases hstop
    cases hunlock
  · refine Call.not_checked ?_
    cases op with
    | cancel =>
      dsimp only [RuntimeOp.entry]
      split <;> rfl
    | _ => rfl
  · cases ha.symm.trans hfresh.accepted

theorem startStep (h : s.TimelyInv) {choice : CallChoice} (hs : s.startStep k choice = some t) :
    (t.calls k).Timely t.state t.period := by
  have hk := h k
  unfold GenerationRuntime.startStep at hs
  cases hpc : (s.calls k).pc
  all_goals simp only [hpc] at hs
  all_goals repeat' split at hs
  all_goals cases hs
  all_goals rw [setPc, setCall_calls_self]
  all_goals exact hk.rest (by rw [hpc]; rfl) rfl rfl (fun _ => rfl) rfl

theorem cancelStep (h : s.TimelyInv) (hs : s.cancelStep k = some t) :
    (t.calls k).Timely t.state t.period := by
  have hk := h k
  unfold GenerationRuntime.cancelStep at hs
  cases hpc : (s.calls k).pc
  all_goals simp only [hpc] at hs
  all_goals repeat' split at hs
  all_goals cases hs
  all_goals rw [setPc, setCall_calls_self]
  all_goals exact hk.rest (by rw [hpc]; rfl) rfl rfl (fun _ => rfl) rfl

theorem stopStep (h : s.TimelyInv) {choice : CallChoice} (hs : s.stopStep k choice = some t) :
    (t.calls k).Timely t.state t.period := by
  have hk := h k
  have hnext {pc : CallPc} {state : RuntimeState} {period : ℕ} (hstopping : pc.stopping = true)
      (hstopped : pc = .unlockExclusive .success → state = .stopped) (hchecks : pc.checks = 0) :
      Call.Timely { s.calls k with pc := pc } state period :=
    ⟨fun _ => hstopping, fun _ => hstopped, Call.not_checked hchecks, hk.accepted⟩
  unfold GenerationRuntime.stopStep at hs
  cases hpc : (s.calls k).pc
  case stopLock =>
    simp only [hpc] at hs
    split at hs <;> cases hs
    rw [setPc, setCall_calls_self]
    by_cases hstate : s.state = .stopped
    · rw [if_pos hstate]
      exact hnext rfl (fun _ => hstate) rfl
    · rw [if_neg hstate]
      exact hnext rfl (fun hunlock => by cases hunlock) rfl
  case stopClose =>
    simp only [hpc] at hs
    cases hs
    rw [setPc, setCall_calls_self]
    exact hnext rfl (fun hunlock => by cases hunlock) rfl
  case stopBackend =>
    simp only [hpc] at hs
    split at hs <;> cases hs
    all_goals rw [setPc, setCall_calls_self]
    all_goals exact hnext rfl (fun hunlock => by cases hunlock) rfl
  case stopSnapshot =>
    simp only [hpc] at hs
    split at hs <;> cases hs
    all_goals rw [setPc, setCall_calls_self]
    · exact hnext rfl (fun hunlock => by cases hunlock) rfl
    · exact hnext rfl (fun _ => rfl) rfl
  all_goals
    simp only [hpc] at hs
    cases hs

theorem unlockStep (h : s.TimelyInv) (hs : s.unlockStep k = some t) :
    (t.calls k).Timely t.state t.period := by
  have hk := h k
  unfold GenerationRuntime.unlockStep at hs
  split at hs <;> cases hs
  · next hpc =>
    rw [setPc, setCall_calls_self]
    exact hk.rest (by rw [hpc]; rfl) rfl rfl (fun _ => rfl) rfl
  · rw [setPc, setCall_calls_self]
    exact ⟨fun _ => rfl, fun _ hunlock => (by cases hunlock), Call.not_checked rfl, hk.accepted⟩

theorem mailboxStep (h : s.TimelyInv) {op : MailboxOp} (hs : s.mailboxStep k op = some t) :
    (t.calls k).Timely t.state t.period := by
  have hk := h k
  have hgiven (b : MailboxObject) (cause : ReleaseCause) :
      (Call.given { s.calls k with box := some b } cause).Timely s.state s.period := by
    unfold Call.given
    split <;> exact { hk with }
  obtain ⟨b, -, -, heffect⟩ := mailboxStep_cases hs
  cases heffect with
  | nothing => exact hk
  | used =>
    rw [setCall_calls_self]
    exact { hk with }
  | released | destroyed =>
    rw [giveBack_calls, setCall_calls_self, giveBack_state, giveBack_period]
    exact hgiven _ _

end TimelyInv

section Submit
variable [Zero K] [Add K] [LE K] [DecidableLE K] [TtftText K]

theorem TimelyInv.submitStep (h : s.TimelyInv) (hcalls : s.CallsInv) (hlife : s.LifeInv)
    {choice : CallChoice} (hs : s.submitStep k choice = some t) :
    (t.calls k).Timely t.state t.period := by
  have hk := h k
  have hstamped := hk.stamped
  have hstamp (hworking : (s.calls k).pc.working = true) : s.stamp = some s.period := by
    rw [stamp, if_pos (hlife.working k hworking)]
  unfold GenerationRuntime.submitStep at hs
  cases hpc : (s.calls k).pc
  case submitValidate request =>
    simp only [hpc] at hs
    cases hs
    rw [setPc, setCall_calls_self]
    refine hk.rest (by rw [hpc]; rfl) rfl rfl (fun _ => rfl) ?_
    generalize validateRequestForAdmission request _ = status
    dsimp only
    split <;> rfl
  case submitLock request =>
    have hfresh := (hcalls k).fresh (by rw [hpc]; rfl)
    simp only [hpc] at hs
    split at hs <;> cases hs
    rw [setCall_calls_self]
    refine hk.check (by rw [hpc]; rfl) rfl hfresh.accepted ?_
    by_cases hstate : s.state = .running
    · simp [Call.stamps, CallPc.checks, hstate, stamp]
    · exact Call.not_checked (by simp [hstate, CallPc.checks])
  case submitEvaluate request =>
    have hfresh := (hcalls k).fresh (by rw [hpc]; rfl)
    have hnow := hstamp (by rw [hpc]; rfl)
    rw [hpc] at hstamped
    simp only [hpc] at hs
    split at hs <;> cases hs
    · rw [setCall_calls_self]
      refine hk.check (by rw [hpc]; rfl) rfl hfresh.accepted ?_
      simpa [Call.stamps, CallPc.checks, hnow] using hstamped
    · rw [setCall_calls_self]
      refine hk.check (by rw [hpc]; rfl) rfl hfresh.accepted ?_
      dsimp only
      split
      · simpa [Call.stamps, CallPc.checks, hnow] using hstamped
      · simp [CallPc.checks]
  case submitAcquire request evaluated =>
    have hfresh := (hcalls k).fresh (by rw [hpc]; rfl)
    have hnow := hstamp (by rw [hpc]; rfl)
    rw [hpc] at hstamped
    simp only [hpc] at hs
    split at hs <;> cases hs
    · rw [setCall_calls_self]
      refine hk.check (by rw [hpc]; rfl) rfl hfresh.accepted ?_
      simpa [Call.stamps, CallPc.checks, hnow] using hstamped
    · rw [setCall_calls_self]
      exact hk.check (by rw [hpc]; rfl) rfl hfresh.accepted (Call.not_checked rfl)
  case submitMailbox request =>
    have hunaccepted := (hcalls k).unaccepted (by simp [hpc, CallPc.phase])
    have hnow := hstamp (by rw [hpc]; rfl)
    have hdrop (status : Status) :
        ((s.setPc k (.submitDrop status)).calls k).Timely s.state s.period := by
      rw [setPc, setCall_calls_self]
      exact hk.rest (by rw [hpc]; rfl) rfl rfl (fun _ => rfl) rfl
    rw [hpc] at hstamped
    simp only [hpc] at hs
    split at hs
    · split at hs <;> cases hs
      · rw [setCall_calls_self]
        refine hk.check (by rw [hpc]; rfl) rfl hunaccepted ?_
        simpa [Call.stamps, CallPc.checks, hnow] using hstamped
      · exact hdrop _
    · cases hs
      exact hdrop _
    · cases hs
      exact hdrop _
    · cases hs
  case submitBackend request =>
    have hnow := hstamp (by rw [hpc]; rfl)
    have hdrop (status : Status) :
        ((s.setPc k (.submitDrop status)).calls k).Timely s.state s.period := by
      rw [setPc, setCall_calls_self]
      exact hk.rest (by rw [hpc]; rfl) rfl rfl (fun _ => rfl) rfl
    simp only [hpc] at hs
    split at hs
    · cases hs
      rw [setCall_calls_self]
      have hnot : (s.calls k).op ≠ some .stop := fun hstop => by
        have := hk.stopping hstop
        rw [hpc] at this
        cases this
      rw [hpc] at hstamped
      refine ⟨fun hstop => absurd hstop hnot, fun hstop => absurd hstop hnot, Call.not_checked rfl,
        fun _ => ⟨s.period, ?_⟩⟩
      simpa [Call.stamps, CallPc.checks, hnow] using hstamped
    · split at hs <;> cases hs
      exact hdrop _
    · cases hs
      exact hdrop _
    · cases hs
      exact hdrop _
    · cases hs
  case submitDrop status =>
    have hrest {d : Call} (hop : d.op = (s.calls k).op) (haccepted : d.accepted = (s.calls k).accepted)
        (hstamps : d.stamps = (s.calls k).stamps) (hchecks : d.pc.checks = 0) :
        d.Timely s.state s.period :=
      hk.rest (by rw [hpc]; rfl) hop haccepted (fun _ => hstamps) hchecks
    simp only [hpc] at hs
    split at hs
    · cases hs
      rw [giveBack_calls, setCall_calls_self, giveBack_state, giveBack_period]
      unfold Call.given
      split <;> exact hrest rfl rfl rfl rfl
    · split at hs <;> cases hs
      · rw [setCall_calls_self]
        exact hrest rfl rfl rfl rfl
      · rw [giveBack_calls, setCall_calls_self, giveBack_state, giveBack_period]
        unfold Call.given
        split <;> exact hrest rfl rfl rfl rfl
  all_goals
    simp only [hpc] at hs
    cases hs

theorem TimelyInv.step (h : s.TimelyInv) (hinv : s.RuntimeInv) {a : RuntimeAction}
    (hs : s.step a = some t) : t.TimelyInv := by
  refine h.own hinv.lock (step_effect hs) ?_
  cases a with
  | «begin» k op => exact TimelyInv.begin hinv.calls hs
  | start => exact h.startStep hs
  | submit => exact h.submitStep hinv.calls hinv.life hs
  | cancel => exact h.cancelStep hs
  | stop => exact h.stopStep hs
  | unlock => exact h.unlockStep hs
  | mailbox => exact h.mailboxStep hs

end Submit

def Precedes (s t : GenerationRuntime K) : Prop :=
  s.period ≤ t.period ∧ (s.period = t.period → t.state = .running → s.state = .running)

theorem Precedes.trans {u : GenerationRuntime K} (hst : s.Precedes t) (htu : t.Precedes u) :
    s.Precedes u := by
  refine ⟨hst.1.trans htu.1, fun hperiod hrunning => ?_⟩
  have htu' : t.period = u.period := le_antisymm htu.1 (hperiod ▸ hst.1)
  exact hst.2 (hperiod.trans htu'.symm) (htu.2 htu' hrunning)

theorem CallsInv.ended (h : s.CallsInv) (hnone : (s.calls k).lease.valid = false)
    (haccepted : (s.calls k).accepted = true) :
    ∃ b, (s.calls k).box = some b ∧
      (b.mailbox.terminalCommitted = true ∨ b.destroyed = true) := by
  obtain hfresh | ⟨-, haccounted⟩ := (h k).accounted
  · cases haccepted.symm.trans hfresh.accepted
  · cases haccounted with
    | out hvalid => cases hvalid.symm.trans hnone
    | terminal b hbox _ _ _ hcommitted => exact ⟨b, hbox, .inl hcommitted⟩
    | destroyed b hbox _ _ _ _ hdestroyed => exact ⟨b, hbox, .inr hdestroyed⟩
    | noMailbox _ _ _ _ hrefused => cases haccepted.symm.trans hrefused

section Runs
variable [Zero K] [Add K] [LE K] [DecidableLE K] [TtftText K]

end Runs

section Contract
variable [Zero K] [Add K] [LE K] [LT K] [DecidableLE K] [DecidableLT K] [TtftText K]

end Contract

end GenerationRuntime

end KimServing

import KimServing.Runtime.CallLife

/-! # Conservation of admission

The budgets are those of the leases that are out, in every state that the runtime can
reach. Each lease goes back once, and a submission that fails leaves nothing behind.
-/
namespace KimServing
open Library

/-- How the lease of an admitted submission stands. It is out until the terminal event is
committed, by a thread that has yet to give it back, or the mailbox is destroyed. -/
inductive Call.Accounted (c : Call) : Prop where
  | out (hvalid : c.lease.valid = true) (hreleases : c.releases = 0)
    (hbox : ∀ b, c.box = some b → b.destroyed = false ∧ b.mailbox.terminalCommitted = b.releasing)
  | terminal (b : MailboxObject) (hbox : c.box = some b) (hinvalid : c.lease.valid = false)
    (hreleases : c.releases = 1) (hcause : c.releasedBy = some .terminal)
    (hcommitted : b.mailbox.terminalCommitted = true)
  | destroyed (b : MailboxObject) (hbox : c.box = some b) (hinvalid : c.lease.valid = false)
    (hreleases : c.releases = 1) (hcause : c.releasedBy = some .destroyed)
    (hopen : b.mailbox.terminalCommitted = false) (hdestroyed : b.destroyed = true)
  | noMailbox (hbox : c.box = none) (hinvalid : c.lease.valid = false) (hreleases : c.releases = 1)
    (hcause : c.releasedBy = some .noMailbox) (hrefused : c.accepted = false)

namespace Call
variable {c : Call} {b : MailboxObject}

theorem Boxed.accounted (h : c.Boxed b) : c.Accounted := by
  cases h.leased with
  | out hvalid hreleases _ hlive hterminal =>
    refine .out hvalid hreleases fun b' hb' => ?_
    obtain rfl : b = b' := Option.some.inj (h.box.symm.trans hb')
    exact ⟨hlive, hterminal⟩
  | terminal hinvalid hreleases hcause hcommitted =>
    exact .terminal b h.box hinvalid hreleases hcause hcommitted
  | destroyed hinvalid hreleases hcause hopen hdestroyed =>
    exact .destroyed b h.box hinvalid hreleases hcause hopen hdestroyed

theorem Reserved.accounted (h : c.Reserved) : c.Accounted :=
  .out h.lease h.releases fun b hb => by cases hb.symm.trans h.box

theorem Sound.boxed (h : c.Sound) (hbox : c.box = some b) : c.Boxed b := by
  have hmatch {b' : MailboxObject} (hb : c.Boxed b') : c.Boxed b := by
    obtain rfl : b' = b := Option.some.inj (hb.box.symm.trans hbox)
    exact hb
  unfold Sound at h
  cases hphase : c.pc.phase <;> rw [hphase] at h
  case early => cases hbox.symm.trans h.box
  case reserved => cases hbox.symm.trans h.box
  case handing =>
    obtain ⟨-, b', hb, -⟩ := h
    exact hmatch hb
  case dropping =>
    obtain hreserved | ⟨-, b', hb, -⟩ := h
    · cases hbox.symm.trans hreserved.box
    · exact hmatch hb
  case ending =>
    obtain hfresh | hunboxed | ⟨b', hb, -⟩ := h
    · cases hbox.symm.trans hfresh.box
    · cases hbox.symm.trans hunboxed.box
    · exact hmatch hb

theorem Sound.accounted (h : c.Sound) : c.Fresh ∨ c.admitted = true ∧ c.Accounted := by
  unfold Sound at h
  cases hphase : c.pc.phase <;> rw [hphase] at h
  case early => exact .inl h
  case reserved => exact .inr ⟨h.admitted, h.accounted⟩
  case handing =>
    obtain ⟨-, b, hboxed, -⟩ := h
    exact .inr ⟨hboxed.admitted, hboxed.accounted⟩
  case dropping =>
    obtain hreserved | ⟨-, b, hboxed, -⟩ := h
    · exact .inr ⟨hreserved.admitted, hreserved.accounted⟩
    · exact .inr ⟨hboxed.admitted, hboxed.accounted⟩
  case ending =>
    obtain hfresh | hunboxed | ⟨b, hboxed, -⟩ := h
    · exact .inl hfresh
    · exact .inr ⟨hunboxed.admitted, .noMailbox hunboxed.box hunboxed.lease hunboxed.releases
        hunboxed.releasedBy hunboxed.accepted⟩
    · exact .inr ⟨hboxed.admitted, hboxed.accounted⟩

theorem Sound.unaccepted (h : c.Sound) (hphase : c.pc.phase ≠ .ending) : c.accepted = false := by
  unfold Sound at h
  cases heq : c.pc.phase <;> rw [heq] at h
  case early => exact h.accepted
  case reserved => exact h.accepted
  case handing => exact h.1
  case dropping =>
    obtain hreserved | ⟨haccepted, -⟩ := h
    · exact hreserved.accepted
    · exact haccepted
  case ending => exact absurd heq hphase

theorem Boxed.lease_of_destroyed (h : c.Boxed b) (hdestroyed : b.destroyed = true) :
    c.lease.valid = false := by
  cases h.leased with
  | out _ _ _ hlive => cases hdestroyed.symm.trans hlive
  | terminal hinvalid | destroyed hinvalid => exact hinvalid

theorem Sound.lease_of_refused (h : c.Sound) (hphase : c.pc.phase = .ending)
    (hrefused : c.accepted = false) : c.lease.valid = false := by
  unfold Sound at h
  rw [hphase] at h
  obtain hfresh | hunboxed | ⟨b, hboxed, -, hdropped, -⟩ := h
  · exact hfresh.lease
  · exact hunboxed.lease
  · exact hboxed.lease_of_destroyed (hdropped hrefused)

theorem Sound.refused (h : c.Sound) {status : Status} (hpc : c.pc = .returned status)
    (hfailed : status.isOk = false) : c.accepted = false := by
  unfold Sound at h
  rw [hpc] at h
  rw [← Bool.not_eq_true]
  intro haccepted
  obtain hfresh | hunboxed | ⟨b, -, -, -, hsuccess⟩ := h
  · cases haccepted.symm.trans hfresh.accepted
  · cases haccepted.symm.trans hunboxed.accepted
  · obtain hlocked | hreturned := hsuccess haccepted
    · cases hlocked
    · cases hreturned
      cases hfailed

end Call

namespace GenerationRuntime
variable {K : Type} {s t : GenerationRuntime K} {k : ℕ}

structure RuntimeInv (s : GenerationRuntime K) : Prop where
  lock : s.LockInv
  leases : ∃ held, s.Holds held
  life : s.LifeInv
  calls : s.CallsInv

theorem CallsInv.unreserved (h : s.CallsInv) {request : GenerationRequest}
    {evaluated : AdmissionSnapshot} (hpc : (s.calls k).pc = .submitAcquire request evaluated) :
    (s.calls k).lease.valid = false :=
  ((h k).fresh (by rw [hpc]; rfl)).lease

section Steps
variable [Zero K] [Add K] [LE K] [DecidableLE K] [TtftText K]

theorem CallsInv.step (h : s.CallsInv) {a : RuntimeAction} (hkeeps : s.KeepsNoMailbox a)
    (hs : s.step a = some t) : t.CallsInv := by
  cases a with
  | «begin» k op => exact h.begin hs
  | start => exact h.controlStep _ (.inl hs)
  | submit => exact h.submitStep hkeeps hs
  | cancel => exact h.controlStep .go (.inr (.inl hs))
  | stop => exact h.controlStep _ (.inr (.inr hs))
  | unlock => exact h.unlockStep hs
  | mailbox => exact h.mailboxStep hs

theorem RuntimeInv.step (h : s.RuntimeInv) {a : RuntimeAction} (hkeeps : s.KeepsNoMailbox a)
    (hs : s.step a = some t) : t.RuntimeInv := by
  have heffect := step_effect hs
  obtain ⟨held, hheld⟩ := h.leases
  exact ⟨h.lock.effect heffect, hheld.effect heffect (fun _ _ hpc => h.calls.unreserved hpc),
    h.life.effect h.lock hheld heffect, h.calls.step hkeeps hs⟩

end Steps

theorem create_eq [Zero K] [LE K] [LT K] [DecidableLE K] [DecidableLT K] {config : AdmissionConfig}
    {mailbox : GenerationMailboxConfig} {slo : Option (SloAdmissionPolicyConfig K)}
    (h : create config mailbox slo = .ok s) :
    ∃ policy, s = { mailboxConfig := mailbox, admission := { config := config }, sloPolicy := policy } := by
  unfold create AdmissionState.create at h
  split at h
  · cases h
  · dsimp only [bind, Except.bind] at h
    split at h
    · cases h
    · split at h
      · cases h
        exact ⟨none, rfl⟩
      · split at h
        · cases h
        · cases h
          exact ⟨some _, rfl⟩

theorem RuntimeInv.initial (config : AdmissionConfig) (mailbox : GenerationMailboxConfig)
    (policy : Option (SloAdmissionPolicy K)) :
    RuntimeInv { mailboxConfig := mailbox, admission := { config := config }, sloPolicy := policy } where
  lock := ⟨fun k => by simp [CallPc.shared], fun k => by simp [CallPc.exclusive], fun _ _ => rfl⟩
  leases := ⟨∅, fun k => by simp [AdmissionLease.valid],
    ⟨List.nodup_nil, by simp, by simp, rfl, rfl, by simp, by simp, by simp⟩⟩
  life := ⟨nofun, nofun, nofun,
    nofun, nofun, nofun, fun _ _ => rfl⟩
  calls := fun k => ⟨rfl, rfl, rfl, rfl, rfl, rfl⟩

structure OwnInv (k : ℕ) (before : AdmissionState) (s : GenerationRuntime K) : Prop where
  submitting : (s.calls k).pc.submitting = true
  reserved : (s.calls k).lease.valid = true →
    (before.tryAcquire (s.calls k).lease.request).1 = .admitted ∧
      s.admission = (before.tryAcquire (s.calls k).lease.request).2
  free : (s.calls k).lease.valid = false → s.admission = before

namespace OwnInv
variable {before : AdmissionState}

theorem keep (h : OwnInv k before s) (hadmission : t.admission = s.admission)
    (hlease : (t.calls k).lease = (s.calls k).lease) (hpc : (t.calls k).pc.submitting = true) :
    OwnInv k before t := by
  refine ⟨hpc, ?_, ?_⟩ <;> rw [hlease, hadmission]
  · exact h.reserved
  · exact h.free

theorem effect (h : OwnInv k before s) (hcalls : s.CallsInv) (he : Effect s k t) :
    OwnInv k before t := by
  have hexclusive := CallPc.exclusive_of_submitting h.submitting
  cases he with
  | nothing => exact h
  | walk c hlease hpc =>
    refine h.keep rfl ?_ ?_ <;> rw [setCall_calls_self]
    · exact hlease
    · exact hpc.submitting h.submitting
  | lockShared c _ hlease _ _ _ _ hsubmitting =>
    refine h.keep rfl ?_ ?_ <;> rw [setCall_calls_self]
    · exact hlease
    · exact hsubmitting h.submitting
  | lockExclusive pc _ _ hbefore =>
    have := h.submitting
    obtain hpc | hpc := hbefore <;> rw [hpc] at this <;> cases this
  | acquired c r request evaluated hpc hadmitted hlease hfollows =>
    have hbefore := h.free (hcalls.unreserved hpc)
    refine ⟨?_, fun _ => ?_, fun hinvalid => ?_⟩
    all_goals rw [setCall_calls_self] at *
    · exact hfollows.submitting h.submitting
    · rw [hlease, ← hbefore]
      exact ⟨hadmitted, rfl⟩
    · rw [hlease] at hinvalid
      cases hinvalid
  | gaveBack c hvalid hlease hpc =>
    obtain ⟨hadmitted, hadmission⟩ := h.reserved hvalid
    refine ⟨?_, fun hvalid => ?_, fun _ => ?_⟩
    · rw [setCall_calls_self]
      exact hpc.submitting h.submitting
    · rw [setCall_calls_self, hlease] at hvalid
      cases hvalid
    · exact (congrArg (·.release (s.calls k).lease.request) hadmission).trans
        (AdmissionState.release_tryAcquire hadmitted)
  | unlockedShared =>
    refine h.keep rfl ?_ ?_ <;> rw [setPc, setCall_calls_self]
    rfl
  | opened hpc | notOpened hpc | cleanedUp _ hpc | closed hpc | unlockedExclusive _ hpc =>
    rw [hpc] at hexclusive; cases hexclusive
  | stopFailed _ hpc | stopped hpc =>
    cases hexclusive.symm.trans (CallPc.exclusive_of_closing hpc)

end OwnInv

section Runs
variable [Zero K] [Add K] [LE K] [DecidableLE K] [TtftText K]

theorem RuntimeInv.run (h : s.RuntimeInv) {actions : List RuntimeAction}
    (hkeeps : Along GenerationRuntime.step KeepsNoMailbox s actions)
    (hrun : exec GenerationRuntime.step s actions = some t) : t.RuntimeInv :=
  exec_invariant (fun _ _ _ hs hk hstep => hs.step hk hstep) h hkeeps hrun

theorem CallsInv.canRelease (h : s.CallsInv) {b : MailboxObject} (hbox : (s.calls k).box = some b)
    (hreleasing : b.releasing = true) : ∃ t, s.step (.mailbox k .releaseLease) = some t ∧
      (t.calls k).lease.valid = false ∧ (t.calls k).releasedBy = some .terminal := by
  have hboxed := (h k).boxed hbox
  have hlive := hboxed.live (by simp [MailboxObject.referenced, hboxed.releasing hreleasing])
  have hstep : s.step (.mailbox k .releaseLease) = some (s.giveBack k
      { s.calls k with box := some { b with releasing := false } } .terminal) := by
    simp [GenerationRuntime.step, GenerationRuntime.mailboxStep, hbox, hlive, hreleasing]
  refine ⟨_, hstep, ?_⟩
  rw [giveBack_calls, setCall_calls_self]
  cases hboxed.leased with
  | out hvalid =>
    rw [Call.given, if_pos hvalid]
    exact ⟨rfl, rfl⟩
  | terminal _ _ _ _ hidle | destroyed _ _ _ _ _ hidle => cases hidle.symm.trans hreleasing

theorem CallsInv.canDestroy (h : s.CallsInv) {b : MailboxObject} (hbox : (s.calls k).box = some b)
    (hlive : b.destroyed = false) (hunused : b.referenced = false) :
    ∃ t, s.step (.mailbox k .destroy) = some t ∧ (t.calls k).lease.valid = false := by
  have hboxed := (h k).boxed hbox
  have hstep : s.step (.mailbox k .destroy) = some (s.giveBack k
      { s.calls k with box := some { b with destroyed := true } } .destroyed) := by
    simp [GenerationRuntime.step, GenerationRuntime.mailboxStep, hbox, hlive, hunused]
  refine ⟨_, hstep, ?_⟩
  rw [giveBack_calls, setCall_calls_self]
  exact (hboxed.destroy hunused).lease_of_destroyed rfl

theorem RuntimeInv.ownRun (h : s.RuntimeInv) {request : GenerationRequest}
    {own : List RuntimeAction} (hown : ∀ a ∈ own, a.call = k)
    (hkeeps : Along GenerationRuntime.step KeepsNoMailbox s (.begin k (.submit request) :: own))
    (hrun : exec GenerationRuntime.step s (.begin k (.submit request) :: own) = some t)
    (hfree : (t.calls k).lease.valid = false) : t.admission = s.admission := by
  obtain ⟨u, hbegin, hrun⟩ := exec_cons.mp hrun
  have hu := h.step hkeeps.1 hbegin
  have hstart : OwnInv k s.admission u := by
    obtain ⟨hpc, rfl⟩ := begin_eq_some hbegin
    have hlease := ((h.calls k).fresh (by rw [hpc]; rfl)).lease
    refine ⟨?_, fun hvalid => ?_, fun _ => rfl⟩
    · rw [setCall_calls_self]
      rfl
    · rw [setCall_calls_self] at hvalid
      cases hvalid.symm.trans hlease
  have hguard : Along GenerationRuntime.step (fun v a => v.KeepsNoMailbox a ∧ a.call = k) u own :=
    (hkeeps.2 u hbegin).and (.of_forall fun _ => hown)
  have hinv := exec_invariant (I := fun v => v.RuntimeInv ∧ OwnInv k s.admission v)
    (fun v a w hv hg hstep => ⟨hv.1.step hg.1 hstep,
      hv.2.effect hv.1.calls (hg.2 ▸ step_effect hstep)⟩)
    ⟨hu, hstart⟩ hguard hrun
  exact hinv.2.free hfree

end Runs

section Contract
variable [Zero K] [Add K] [LE K] [LT K] [DecidableLE K] [DecidableLT K] [TtftText K]

/-- In every state of every run, for any backend that keeps no mailbox of a submission it
refuses: the budgets are those of the leases that are out and keep to the limits; each
lease goes back once, after the terminal event of its mailbox or with a mailbox that has
none, and the step that gives it back is always possible; and a submission that fails
holds nothing, and when it ran alone left admission as it was. -/
theorem admission_conserved {config : AdmissionConfig} {mailbox : GenerationMailboxConfig}
    {slo : Option (SloAdmissionPolicyConfig K)} {s₀ s : GenerationRuntime K}
    {actions : List RuntimeAction} (hcreate : create config mailbox slo = .ok s₀)
    (hkeeps : Along GenerationRuntime.step KeepsNoMailbox s₀ actions)
    (hrun : exec GenerationRuntime.step s₀ actions = some s) :
    (∃ held, s.Holds held ∧ s.admission.snapshot.activeRequests.toNat = held.card) ∧
    s.admission.config = config ∧
    (∀ k, (s.calls k).admitted = true → (s.calls k).Accounted) ∧
    (∀ k, (s.calls k).admitted = false →
      (s.calls k).lease.valid = false ∧ (s.calls k).releases = 0) ∧
    (∀ k b, (s.calls k).box = some b → b.releasing = true →
      ∃ t, s.step (.mailbox k .releaseLease) = some t ∧ (t.calls k).lease.valid = false ∧
        (t.calls k).releasedBy = some .terminal) ∧
    (∀ k b, (s.calls k).box = some b → b.destroyed = false → b.referenced = false →
      ∃ t, s.step (.mailbox k .destroy) = some t ∧ (t.calls k).lease.valid = false) ∧
    (∀ k status, (s.calls k).pc = .returned status → status.isOk = false →
      (s.calls k).lease.valid = false ∧
        (s.calls k).releases = if (s.calls k).admitted then 1 else 0) ∧
    (∀ before own k request s₁ status, actions = before ++ .begin k (.submit request) :: own →
      exec GenerationRuntime.step s₀ before = some s₁ → (∀ a ∈ own, a.call = k) →
      (s.calls k).pc = .returned status → status.isOk = false → s.admission = s₁.admission) := by
  obtain ⟨policy, rfl⟩ := create_eq hcreate
  have hinitial := RuntimeInv.initial (K := K) config mailbox policy
  have hinv := hinitial.run hkeeps hrun
  have hfailed (k : ℕ) (status : Status) (hpc : (s.calls k).pc = .returned status)
      (hstatus : status.isOk = false) : (s.calls k).lease.valid = false :=
    (hinv.calls k).lease_of_refused (by rw [hpc]; rfl) ((hinv.calls k).refused hpc hstatus)
  refine ⟨?_, ?_, fun k hadmitted => ?_, fun k hadmitted => ?_,
    fun k b => hinv.calls.canRelease, fun k b => hinv.calls.canDestroy,
    fun k status hpc hstatus => ⟨hfailed k status hpc hstatus, ?_⟩, ?_⟩
  · obtain ⟨held, hheld⟩ := hinv.leases
    exact ⟨held, hheld, hheld.accounts.activeRequests_toNat⟩
  · exact exec_preserves (I := fun u => u.admission.config = config)
      (fun _ _ _ hu hstep => (step_effect hstep).quiet.config.trans hu) rfl hrun
  · obtain hfresh | ⟨-, haccounted⟩ := (hinv.calls k).accounted
    · cases hadmitted.symm.trans hfresh.admitted
    · exact haccounted
  · obtain hfresh | ⟨hcontra, -⟩ := (hinv.calls k).accounted
    · exact ⟨hfresh.lease, hfresh.releases⟩
    · cases hadmitted.symm.trans hcontra
  · obtain hfresh | ⟨hadmitted, haccounted⟩ := (hinv.calls k).accounted
    · rw [hfresh.admitted]
      exact hfresh.releases
    · rw [if_pos hadmitted]
      cases haccounted with
      | out hvalid _ _ => cases hvalid.symm.trans (hfailed k status hpc hstatus)
      | terminal _ _ _ hreleases | destroyed _ _ _ hreleases
      | noMailbox _ _ hreleases => exact hreleases
  · rintro before own k request s₁ status rfl hbefore hown hpc hstatus
    obtain ⟨hkeepsBefore, hkeepsOwn⟩ := hkeeps.append hbefore
    obtain ⟨u, hu, hrunOwn⟩ := exec_append.mp hrun
    obtain rfl : s₁ = u := Option.some.inj (hbefore.symm.trans hu)
    exact (hinitial.run hkeepsBefore hbefore).ownRun hown hkeepsOwn hrunOwn
      (hfailed k status hpc hstatus)

end Contract

def defaultRuntime : GenerationRuntime ℕ := { mailboxConfig := {}, admission := { config := {} } }

def oneSubmission : List RuntimeAction :=
  [.begin 0 .start, .start 0 .go, .start 0 .go, .start 0 .go, .unlock 0,
    .begin 1 (.submit { context := { requestId := 7 }, inputTokenIds := [1, 2], maxNewTokens := 4 }),
    .submit 1 .go, .submit 1 .go, .submit 1 .go, .submit 1 .go, .submit 1 .go,
    .mailbox 1 .backendCopy, .submit 1 .go, .unlock 1,
    .mailbox 1 (.pushTerminal ⟨7, .success, some .length, ⟨2, 4⟩⟩), .mailbox 1 .releaseLease]

theorem keepsNoMailbox_oneSubmission :
    Along GenerationRuntime.step KeepsNoMailbox defaultRuntime oneSubmission :=
  .of_forall fun t a ha => by
    simp only [oneSubmission, List.mem_cons, List.not_mem_nil, or_false] at ha
    rcases ha with rfl | rfl | rfl | rfl | rfl | rfl | rfl | rfl | rfl | rfl | rfl | rfl | rfl | rfl |
      rfl | rfl
    all_goals first | exact trivial | exact fun _ _ hgo => absurd rfl hgo

theorem admission_conserved_oneSubmission :
    ∃ s, exec GenerationRuntime.step defaultRuntime oneSubmission = some s ∧
      (s.calls 1).releases = 1 ∧ (s.calls 1).Accounted := by
  have hrun : (exec GenerationRuntime.step defaultRuntime oneSubmission).any
      (fun s => (s.calls 1).admitted && (s.calls 1).releases == 1) = true := by decide +kernel
  obtain ⟨s, hs, hcall⟩ := (Option.any_eq_true _ _).mp hrun
  rw [Bool.and_eq_true, beq_iff_eq] at hcall
  have hcreate : create {} {} none = .ok defaultRuntime := rfl
  exact ⟨s, hs, hcall.2,
    (admission_conserved hcreate keepsNoMailbox_oneSubmission hs).2.2.1 1 hcall.1⟩

end GenerationRuntime

end KimServing

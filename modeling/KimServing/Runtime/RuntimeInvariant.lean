import KimServing.Runtime.RuntimeEffects

/-! # The lifecycle lock, the budgets and the state of the runtime

Three invariants of every step, each by the list of effects: who holds the lock, whose
leases the budgets are, and how the state of the runtime goes with admission.
-/
namespace KimServing
open Library

namespace GenerationRuntime
variable {K : Type} {s t : GenerationRuntime K} {k : ℕ}

@[simp] theorem setCall_calls_self (c : Call) : (s.setCall k c).calls k = c :=
  Function.update_self ..

theorem setCall_calls_ne {j : ℕ} (h : j ≠ k) (c : Call) :
    (s.setCall k c).calls j = s.calls j := Function.update_of_ne h ..

theorem forall_setCall {P : ℕ → Call → Prop} {c : Call} (hself : P k c)
    (hothers : ∀ j, j ≠ k → P j (s.calls j)) (j : ℕ) : P j ((s.setCall k c).calls j) := by
  by_cases h : j = k
  · subst h
    rw [setCall_calls_self]
    exact hself
  · rw [setCall_calls_ne h]
    exact hothers j h

structure LockInv (s : GenerationRuntime K) : Prop where
  readers : ∀ k, k ∈ s.readers ↔ (s.calls k).pc.shared = true
  writer : ∀ k, s.writer = some k ↔ (s.calls k).pc.exclusive = true
  apart : ∀ k, s.writer = some k → s.readers = ∅

namespace LockInv

theorem unheld (h : s.LockInv) (hfree : s.writer = none) (j : ℕ) :
    (s.calls j).pc.exclusive = false := by
  rw [← Bool.not_eq_true, ← h.writer, hfree]
  simp

theorem alone (h : s.LockInv) (hk : (s.calls k).pc.exclusive = true) (j : ℕ) :
    (s.calls j).pc.shared = false ∧ (j ≠ k → (s.calls j).pc.exclusive = false) := by
  have hwriter := (h.writer k).mpr hk
  constructor
  · rw [← Bool.not_eq_true, ← h.readers, h.apart k hwriter]
    exact Finset.notMem_empty j
  · intro hne
    rw [← Bool.not_eq_true, ← h.writer, hwriter]
    exact fun heq => hne (Option.some.inj heq).symm

theorem setCall (h : s.LockInv) {c : Call} {admission : AdmissionState} {state : RuntimeState}
    {period : ℕ} (hshared : c.pc.shared = (s.calls k).pc.shared)
    (hexclusive : c.pc.exclusive = (s.calls k).pc.exclusive) :
    (GenerationRuntime.setCall { s with
      admission := admission
      state := state
      period := period } k c).LockInv where
  readers := forall_setCall (P := fun j d => j ∈ s.readers ↔ d.pc.shared = true)
    (by rw [hshared]; exact h.readers k) (fun j _ => h.readers j)
  writer := forall_setCall (P := fun j d => s.writer = some j ↔ d.pc.exclusive = true)
    (by rw [hexclusive]; exact h.writer k) (fun j _ => h.writer j)
  apart := h.apart

theorem effect (h : s.LockInv) (he : Effect s k t) : t.LockInv := by
  cases he with
  | nothing => exact h
  | walk c _ hpc | acquired c _ _ _ _ _ _ hpc | gaveBack c _ _ hpc =>
    exact h.setCall hpc.shared hpc.exclusive
  | lockShared c hfree _ hbefore hshared hexclusive =>
    refine ⟨forall_setCall (P := fun j d => j ∈ insert k s.readers ↔ d.pc.shared = true) ?_ ?_,
      forall_setCall (P := fun j d => s.writer = some j ↔ d.pc.exclusive = true) ?_
        (fun j _ => h.writer j), fun j hj => ?_⟩
    · simp [hshared]
    · intro j hj
      rw [Finset.mem_insert, h.readers]
      exact or_iff_right hj
    · simp [hfree, hexclusive]
    · rw [show s.writer = some j from hj] at hfree
      cases hfree
  | lockExclusive pc hfree hreaders hbefore hexclusive hshared =>
    refine ⟨forall_setCall (P := fun j d => j ∈ s.readers ↔ d.pc.shared = true) ?_
        (fun j _ => h.readers j),
      forall_setCall (P := fun j d => some k = some j ↔ d.pc.exclusive = true) ?_ ?_,
      fun _ _ => hreaders⟩
    · simp [hreaders, hshared]
    · simp [hexclusive]
    · intro j hj
      simp [h.unheld hfree j, Ne.symm hj]
  | opened hpc | notOpened hpc | cleanedUp _ hpc | closed hpc =>
    exact h.setCall (by rw [hpc]; rfl) (by rw [hpc]; rfl)
  | stopFailed _ hpc | stopped hpc =>
    have hexclusive := CallPc.exclusive_of_closing hpc
    exact h.setCall (h.alone hexclusive k).1.symm hexclusive.symm
  | unlockedShared status hpc =>
    refine ⟨forall_setCall (P := fun j d => j ∈ s.readers.erase k ↔ d.pc.shared = true) ?_ ?_,
      forall_setCall (P := fun j d => s.writer = some j ↔ d.pc.exclusive = true) ?_
        (fun j _ => h.writer j), fun j hj => ?_⟩
    · simp [CallPc.shared]
    · intro j hj
      rw [Finset.mem_erase, h.readers]
      exact and_iff_right hj
    · rw [h.writer, hpc]
      exact Iff.rfl
    · exact (congrArg (Finset.erase · k) (h.apart j hj)).trans (Finset.erase_empty k)
  | unlockedExclusive status hpc =>
    have halone := h.alone (k := k) (by rw [hpc]; rfl)
    refine ⟨forall_setCall (P := fun j d => j ∈ s.readers ↔ d.pc.shared = true) ?_
        (fun j _ => h.readers j),
      forall_setCall (P := fun j d => none = some j ↔ d.pc.exclusive = true) ?_ ?_,
      nofun⟩
    · rw [h.readers, hpc]
      exact Iff.rfl
    · simp [CallPc.exclusive]
    · intro j hj
      simp [(halone j).2 hj]

end LockInv

/-- These are the calls whose lease is out, and the budgets are theirs. -/
structure Holds (s : GenerationRuntime K) (held : Finset ℕ) : Prop where
  places : ∀ k, k ∈ held ↔ (s.calls k).lease.valid = true
  accounts : s.admission.Accounts held (fun k => (s.calls k).lease.request)

namespace Holds
variable {held : Finset ℕ}

theorem keep (h : s.Holds held) {c : Call} {state : RuntimeState} {writer : Option ℕ}
    {readers : Finset ℕ} {period : ℕ} (accepting : Bool)
    (hlease : c.lease = (s.calls k).lease) :
    (GenerationRuntime.setCall { s with
      admission := { s.admission with accepting := accepting }
      state := state
      writer := writer
      readers := readers
      period := period } k c).Holds held where
  places := forall_setCall (P := fun j d => j ∈ held ↔ d.lease.valid = true)
    (by rw [hlease]; exact h.places k) (fun j _ => h.places j)
  accounts := (h.accounts.setAccepting accepting).congr fun j _ =>
    forall_setCall (P := fun j d => d.lease.request = (s.calls j).lease.request)
      (by rw [hlease]) (fun _ _ => rfl) j

theorem acquire (h : s.Holds held) {c : Call} {r : AdmissionRequest}
    (hfresh : (s.calls k).lease.valid = false)
    (hadmitted : (s.admission.tryAcquire r).1 = .admitted) (hlease : c.lease = ⟨true, r, false⟩) :
    (GenerationRuntime.setCall { s with
      admission := (s.admission.tryAcquire r).2 } k c).Holds (insert k held) := by
  have hk : k ∉ held := by rw [h.places, hfresh]; exact Bool.false_ne_true
  refine ⟨forall_setCall (P := fun j d => j ∈ insert k held ↔ d.lease.valid = true) ?_ ?_, ?_⟩
  · simp [hlease, AdmissionLease.valid]
  · intro j hj
    rw [Finset.mem_insert, h.places]
    exact or_iff_right hj
  · have hrequest : ((GenerationRuntime.setCall { s with
        admission := (s.admission.tryAcquire r).2 } k c).calls k).lease.request = r := by
      rw [setCall_calls_self, hlease]
    have hothers := h.accounts.congr fun j (hj : j ∈ held) =>
      congrArg (·.lease.request) (setCall_calls_ne (s := { s with
        admission := (s.admission.tryAcquire r).2 }) (show j ≠ k from fun heq => hk (heq ▸ hj)) c)
    have := hothers.acquire hk (by rw [hrequest]; exact hadmitted)
    rwa [hrequest] at this

theorem release (h : s.Holds held) {c : Call} (hvalid : (s.calls k).lease.valid = true)
    (hlease : c.lease = {}) :
    (GenerationRuntime.setCall { s with
      admission := s.admission.release (s.calls k).lease.request } k c).Holds (held.erase k) := by
  refine ⟨forall_setCall (P := fun j d => j ∈ held.erase k ↔ d.lease.valid = true) ?_ ?_, ?_⟩
  · simp [hlease, AdmissionLease.valid]
  · intro j hj
    rw [Finset.mem_erase, h.places]
    exact and_iff_right hj
  · exact (h.accounts.release ((h.places k).mpr hvalid)).congr fun j hj =>
      congrArg (·.lease.request) (setCall_calls_ne (Finset.ne_of_mem_erase hj) c)

theorem open_fst (h : s.Holds held) :
    s.admission.open.1 = true ↔ ∀ k, (s.calls k).lease.valid = false := by
  rw [h.accounts.open_iff, Finset.eq_empty_iff_forall_notMem]
  exact forall_congr' fun k => by rw [h.places, Bool.not_eq_true]

theorem noneOutstanding (h : s.Holds held)
    (hnone : hasOutstandingResources s.admission.snapshot = false) :
    ∀ k, (s.calls k).lease.valid = false := by
  simp only [hasOutstandingResources, Bool.or_eq_false_iff, decide_eq_false_iff_not, not_not] at hnone
  have hcard : held.card = 0 := by
    rw [← h.accounts.activeRequests_toNat]
    exact congrArg UInt64.toNat hnone.1.1
  intro k
  rw [← Bool.not_eq_true, ← h.places, Finset.card_eq_zero.mp hcard]
  exact Finset.notMem_empty k

theorem effect (h : s.Holds held) (he : Effect s k t)
    (hfresh : ∀ request evaluated, (s.calls k).pc = .submitAcquire request evaluated →
      (s.calls k).lease.valid = false) : ∃ held', t.Holds held' := by
  cases he with
  | nothing => exact ⟨held, h⟩
  | walk c hlease | lockShared c _ hlease => exact ⟨held, h.keep _ hlease⟩
  | lockExclusive | cleanedUp | stopFailed | stopped | unlockedShared | unlockedExclusive =>
    exact ⟨held, h.keep _ rfl⟩
  | opened | notOpened =>
    rw [AdmissionState.open_snd]
    exact ⟨held, h.keep _ rfl⟩
  | closed => exact ⟨held, h.keep false rfl⟩
  | acquired c r request evaluated hpc hadmitted hlease =>
    exact ⟨_, h.acquire (hfresh request evaluated hpc) hadmitted hlease⟩
  | gaveBack c hvalid hlease => exact ⟨_, h.release hvalid hlease⟩

end Holds

/-- How the state of the runtime goes with admission and with the calls that are made. -/
structure LifeInv (s : GenerationRuntime K) : Prop where
  working : ∀ k, (s.calls k).pc.working = true → s.state = .running
  opening : ∀ k, (s.calls k).pc.opening = true → s.state = .stopped
  cleanup : ∀ k, (s.calls k).pc ≠ .startCleanup
  accepting : s.admission.accepting = true → s.state = .running
  running : s.state = .running → s.admission.accepting = true ∨ ∃ k, (s.calls k).pc.closing = true
  closing : ∀ k, (s.calls k).pc.closing = true → s.admission.accepting = false
  stopped : s.state = .stopped → ∀ k, (s.calls k).lease.valid = false

namespace LifeInv

variable {admission : AdmissionState}

theorem goOn (h : s.LifeInv) {c : Call} {writer : Option ℕ} {readers : Finset ℕ}
    (haccepting : admission.accepting = s.admission.accepting)
    (hworking : c.pc.working = true → s.state = .running)
    (hopening : c.pc.opening = true → s.state = .stopped) (hcleanup : c.pc ≠ .startCleanup)
    (hclosing : c.pc.closing = (s.calls k).pc.closing)
    (hlease : s.state = .stopped → c.lease.valid = false) :
    (GenerationRuntime.setCall { s with
      admission := admission
      writer := writer
      readers := readers } k c).LifeInv where
  working := forall_setCall (P := fun _ d => d.pc.working = true → s.state = .running)
    hworking (fun j _ => h.working j)
  opening := forall_setCall (P := fun _ d => d.pc.opening = true → s.state = .stopped)
    hopening (fun j _ => h.opening j)
  cleanup := forall_setCall (P := fun _ d => d.pc ≠ .startCleanup) hcleanup (fun j _ => h.cleanup j)
  accepting ha := h.accepting (haccepting ▸ ha)
  running hrunning := by
    obtain ha | ⟨j, hj⟩ := h.running hrunning
    · exact .inl (haccepting.trans ha)
    · refine .inr ⟨j, ?_⟩
      by_cases hjk : j = k
      · subst hjk
        rw [setCall_calls_self, hclosing]
        exact hj
      · rw [setCall_calls_ne hjk]
        exact hj
  closing := forall_setCall (P := fun _ d => d.pc.closing = true → admission.accepting = false)
    (fun hc => haccepting.trans (h.closing k (hclosing ▸ hc)))
    (fun j _ hc => haccepting.trans (h.closing j hc))
  stopped hstopped := forall_setCall (P := fun _ d => d.lease.valid = false)
    (hlease hstopped) (fun j _ => h.stopped hstopped j)

theorem follow (h : s.LifeInv) {c : Call}
    (haccepting : admission.accepting = s.admission.accepting) (hpc : c.pc.Follows (s.calls k).pc)
    (hlease : s.state = .stopped → c.lease.valid = false) :
    (GenerationRuntime.setCall { s with admission := admission } k c).LifeInv :=
  h.goOn haccepting (fun hw => h.working k (hpc.working hw))
    (fun ho => h.opening k (hpc.opening ho)) (fun hc => h.cleanup k (hpc.cleanup hc)) hpc.closing
    hlease

theorem alone (hlock : s.LockInv) (hk : (s.calls k).pc.exclusive = true) {state : RuntimeState}
    {period : ℕ} {pc : CallPc} (hworking : pc.working = false) (hopening : pc.opening = false)
    (haccepting : admission.accepting = true → state = .running)
    (hrunning : state = .running → admission.accepting = true ∨ pc.closing = true)
    (hclosing : pc.closing = true → admission.accepting = false)
    (hstopped : state = .stopped → ∀ j, (s.calls j).lease.valid = false) :
    (setPc { s with
      admission := admission
      state := state
      period := period } k pc).LifeInv := by
  have hothers (j : ℕ) (hj : j ≠ k) : (s.calls j).pc.working = false ∧
      (s.calls j).pc.opening = false ∧ (s.calls j).pc.closing = false := by
    obtain ⟨hshared, hexclusive⟩ := hlock.alone hk j
    exact ⟨CallPc.working_of_not_shared hshared, CallPc.opening_of_not_exclusive (hexclusive hj),
      CallPc.closing_of_not_exclusive (hexclusive hj)⟩
  have hnoOpening := forall_setCall (s := s) (k := k) (c := { s.calls k with pc := pc })
    (P := fun _ d => d.pc.opening = false) hopening (fun j hj => (hothers j hj).2.1)
  refine ⟨?_, fun j ho => ?_, fun j hc => ?_, haccepting, fun hrun => ?_, ?_, fun hstop => ?_⟩
  · exact forall_setCall (P := fun _ d => d.pc.working = true → state = .running)
      (fun hw => by rw [hworking] at hw; cases hw)
      (fun j hj hw => by rw [(hothers j hj).1] at hw; cases hw)
  · cases ho.symm.trans (hnoOpening j)
  · cases (congrArg CallPc.opening hc).symm.trans (hnoOpening j)
  · obtain ha | hc := hrunning hrun
    · exact .inl ha
    · exact .inr ⟨k, by rw [setPc, setCall_calls_self]; exact hc⟩
  · exact forall_setCall (P := fun _ d => d.pc.closing = true → admission.accepting = false)
      hclosing (fun j hj hc => by rw [(hothers j hj).2.2] at hc; cases hc)
  · exact forall_setCall (P := fun _ d => d.lease.valid = false) (hstopped hstop k)
      (fun j _ => hstopped hstop j)

theorem effect {held : Finset ℕ} (h : s.LifeInv) (hlock : s.LockInv) (hheld : s.Holds held)
    (he : Effect s k t) : t.LifeInv := by
  cases he with
  | nothing => exact h
  | walk c hlease hpc =>
    exact h.follow rfl hpc (fun hstopped => by rw [hlease]; exact h.stopped hstopped k)
  | lockShared c hfree hlease hbefore hshared hexclusive hworking =>
    have hopening := CallPc.opening_of_not_exclusive hexclusive
    refine h.goOn rfl hworking (fun ho => by rw [hopening] at ho; cases ho)
      (fun hc => by rw [hc] at hopening; cases hopening) ?_
      (fun hstopped => by rw [hlease]; exact h.stopped hstopped k)
    rw [CallPc.closing_of_not_exclusive hexclusive, CallPc.closing_of_not_exclusive hbefore]
  | lockExclusive pc hfree hreaders hbefore hexclusive hshared hopening hclosing =>
    refine h.goOn rfl (fun hw => ?_) (fun ho => (hopening ho).1) (fun hc => ?_) ?_
      (fun hstopped => h.stopped hstopped k)
    · rw [CallPc.working_of_not_shared hshared] at hw
      cases hw
    · exact (hopening (by rw [show pc = .startCleanup from hc]; rfl)).2 hc
    · exact hclosing.trans (CallPc.closing_of_not_exclusive (hlock.unheld hfree k)).symm
  | opened hpc hopen =>
    exact alone hlock (by rw [hpc]; rfl) rfl rfl (fun _ => rfl)
      (fun _ => .inl (by rw [AdmissionState.open_snd, hopen]; rfl)) nofun
      nofun
  | notOpened hpc hopen =>
    have hstopped := h.opening k (by rw [hpc]; rfl)
    rw [hheld.open_fst.mpr (h.stopped hstopped)] at hopen
    cases hopen
  | cleanedUp status hpc => exact absurd hpc (h.cleanup k)
  | closed hpc =>
    exact alone hlock (by rw [hpc]; rfl) rfl rfl nofun (fun _ => .inr rfl)
      (fun _ => rfl) h.stopped
  | stopFailed status hpc =>
    refine alone hlock (CallPc.exclusive_of_closing hpc) rfl rfl (fun ha => ?_)
      nofun nofun nofun
    rw [h.closing k hpc] at ha
    cases ha
  | stopped hpc hnone =>
    refine alone hlock (CallPc.exclusive_of_closing hpc) rfl rfl (fun ha => ?_)
      nofun nofun (fun _ => hheld.noneOutstanding hnone)
    rw [h.closing k hpc] at ha
    cases ha
  | acquired c r request evaluated hpc hadmitted hlease hfollows =>
    refine h.follow ?_ hfollows (fun hstopped => ?_)
    · obtain ⟨-, -, -, -, -, heq⟩ := AdmissionState.tryAcquire_admitted hadmitted
      rw [heq]
    · rw [h.working k (by rw [hpc]; rfl)] at hstopped
      cases hstopped
  | gaveBack c hvalid hlease hpc =>
    refine h.follow ?_ hpc (fun _ => by rw [hlease]; rfl)
    unfold AdmissionState.release
    split <;> rfl
  | unlockedShared status hpc | unlockedExclusive status hpc =>
    exact h.goOn rfl nofun nofun (by simp) (by rw [hpc]; rfl)
      (fun hstopped => h.stopped hstopped k)

end LifeInv

end GenerationRuntime

end KimServing

import KimServing.Backend.BackendEffects

/-! # One response pump at a time

A start makes a new response pump, and the join of a stop ends one. The two hold the
lifecycle lock over their whole call, so a start that makes a pump finds none, and a stop
that has joined the pump is not overtaken by a start.
-/
namespace KimServing
open Library Function Option

namespace Backend
variable {s s' : Backend} {k : ℕ}

variable {env : BackendEnv}

structure LifeInv (s : Backend) : Prop where
  held : ∀ k, (s.calls k).holdsLifecycle = true → s.lifecycleLock = some k
  joined : ∀ k, (s.calls k).withoutPump = true → s.pump = .notStarted
  stopped : s.state = .stopped → s.pump = .notStarted

theorem initial_life (config : TrtLlmBackendConfig) : LifeInv { config := config } where
  held _ h := by cases h
  joined _ h := by cases h
  stopped _ := rfl

def OthersStay (s s' : Backend) (k : ℕ) : Prop := ∀ j ≠ k, s'.calls j = s.calls j

theorem othersStay_setCall {s₁ : Backend} (h : s₁.calls = s.calls) (k : ℕ) (pc : BackendPc) :
    OthersStay s (s₁.setCall k pc) k := by
  intro j hj
  show update s₁.calls k pc j = s.calls j
  rw [update_of_ne hj, h]

@[simp] theorem calls_setCall (s : Backend) (k : ℕ) (pc : BackendPc) :
    (s.setCall k pc).calls k = pc := update_self (β := fun _ => BackendPc) k pc s.calls

theorem LifeInv.aside (hs : LifeInv s) (hstay : OthersStay s s' k)
    (hpc : (s'.calls k).holdsLifecycle = false) (hlock : s'.lifecycleLock = s.lifecycleLock)
    (hpump : s'.pump = s.pump) (hstate : s'.state = s.state) : LifeInv s' := by
  have hholds : ∀ j, (s'.calls j).holdsLifecycle = true → s'.calls j = s.calls j := by
    intro j hj
    refine hstay j ?_
    rintro rfl
    cases hpc.symm.trans hj
  refine ⟨?_, ?_, ?_⟩
  · intro j hj
    rw [hlock]
    exact hs.held j (hholds j hj ▸ hj)
  · intro j hj
    rw [hpump]
    have hsame := hholds j (BackendPc.holdsLifecycle_of_withoutPump hj)
    exact hs.joined j (hsame ▸ hj)
  · rw [hpump, hstate]
    exact hs.stopped

theorem LifeInv.inside (hs : LifeInv s) (hstay : OthersStay s s' k)
    (halone : s.lifecycleLock = none ∨ s.lifecycleLock = some k)
    (hheld : (s'.calls k).holdsLifecycle = true → s'.lifecycleLock = some k)
    (hjoined : (s'.calls k).withoutPump = true → s'.pump = .notStarted)
    (hstopped : s'.state = .stopped → s'.pump = .notStarted) : LifeInv s' := by
  have honly : ∀ j, (s'.calls j).holdsLifecycle = true → j = k := by
    intro j hj
    by_contra hne
    rw [hstay j hne] at hj
    rcases halone with hnone | hsome
    · rw [hs.held j hj] at hnone
      cases hnone
    · rw [hs.held j hj] at hsome
      exact hne (Option.some.inj hsome)
  refine ⟨?_, ?_, hstopped⟩
  · intro j hj
    cases honly j hj
    exact hheld hj
  · intro j hj
    cases honly j (BackendPc.holdsLifecycle_of_withoutPump hj)
    exact hjoined hj

theorem LifeInv.alone (hs : LifeInv s) (h : (s.calls k).holdsLifecycle = true) :
    s.lifecycleLock = none ∨ s.lifecycleLock = some k := Or.inr (hs.held k h)

theorem LifeInv.goesOn (hs : LifeInv s) {s₁ : Backend} {pc : BackendPc}
    (hbefore : (s.calls k).holdsLifecycle = true)
    (hjoined : pc.withoutPump = true → s.pump = .notStarted) (hcalls : s₁.calls = s.calls)
    (hlock : s₁.lifecycleLock = s.lifecycleLock) (hpump : s₁.pump = s.pump)
    (hstate : s₁.state = .stopped → s.pump = .notStarted) : LifeInv (s₁.setCall k pc) := by
  refine hs.inside (k := k) (othersStay_setCall hcalls k pc) (hs.alone hbefore) ?_ ?_ ?_
  · exact fun _ => hlock.trans (hs.held k hbefore)
  · rw [calls_setCall]
    exact fun h => hpump.trans (hjoined h)
  · exact fun h => hpump.trans (hstate h)

theorem pumpDone_eq (h : s.pumpDone = true) : s.pump = .notStarted ∨ s.pump = .finished := by
  unfold pumpDone at h
  split at h
  · next hpump => exact Or.inl hpump
  · next hpump => exact Or.inr hpump
  · cases h

theorem CallMove.life {a : BackendAction} (hs : LifeInv s) (h : s.CallMove k a s') : LifeInv s' := by
  cases h with
  | outside s₁ pc rests lock state hpc =>
    exact hs.aside (othersStay_setCall rests.calls k pc) (by rw [calls_setCall]; exact hpc) lock
      rests.pump state
  | enters pc free hpc =>
    refine hs.inside (othersStay_setCall rfl k _) (Or.inl free) (fun _ => rfl) ?_ hs.stopped
    rw [calls_setCall, hpc]
    exact nofun
  | inside s₁ pc rests lock before hpc next state =>
    exact hs.goesOn before (fun h => (next h).elim (hs.joined k) hs.stopped) rests.calls lock
      rests.pump (fun h => (state h).elim hs.stopped fun h => hs.joined k h.1)
  | leaves status before =>
    refine hs.inside (othersStay_setCall rfl k _) (hs.alone before) ?_ ?_ hs.stopped
    all_goals
      rw [calls_setCall]
      exact nofun
  | launches before =>
    refine hs.inside (othersStay_setCall rfl k _) (hs.alone (by rw [before]; rfl))
      (fun _ => hs.held k (by rw [before]; rfl)) ?_ nofun
    rw [calls_setCall]
    exact nofun
  | joins before =>
    exact hs.inside (othersStay_setCall rfl k _) (hs.alone (by rw [before]; rfl))
      (fun _ => hs.held k (by rw [before]; rfl)) (fun _ => rfl) (fun _ => rfl)
  | enqueues request mailbox threw executorId status =>
    obtain ⟨hcalls, hpump, hlock, hstate⟩ :=
      s.enqueueRequest_control request mailbox threw executorId
    exact hs.aside (othersStay_setCall hcalls k _) (by rw [calls_setCall]; rfl) hlock hpump hstate
  | finalizes s₁ pc n pending next before step =>
    obtain ⟨hcalls, hpump, hlock, hstate⟩ := finalizeStep_control step
    have hnone : s.pump = .notStarted := hs.joined k (by rw [before]; rfl)
    exact hs.goesOn (by rw [before]; rfl) (fun _ => hnone) hcalls hlock hpump (fun _ => hnone)

theorem LifeInv.pump (hs : LifeInv s) (h : s.pumpStep env = some s') : LifeInv s' := by
  have hstarted : s.pump ≠ .notStarted := by
    intro hnone
    simp [pumpStep, hnone] at h
  obtain ⟨-, hcalls, hlock, hstopped⟩ := pumpStep_effect h
  refine ⟨fun k hk => ?_, fun k hk => ?_, fun hstate => ?_⟩
  · rw [hlock]
    exact hs.held k (hcalls ▸ hk)
  · exact absurd (hs.joined k (hcalls ▸ hk)) hstarted
  · exact absurd (hs.stopped (hstopped hstate)) hstarted

theorem LifeInv.step (hs : LifeInv s) {a : BackendAction} (h : s.step a = some s') :
    LifeInv s' := by
  have hconsumer : ∀ n call, s.locked n call = some s' → LifeInv s' := by
    intro n call h
    obtain ⟨-, g, -, rfl⟩ := locked_eq_some.mp h
    exact { hs with }
  cases a with
  | begin | start | submit | cancel | stop | unlock => exact (step_move rfl h).life hs
  | pump => exact hs.pump h
  | waitPop n | close n => exact hconsumer n _ h

end Backend

end KimServing

import KimServing.Runtime.Conservation

/-! # The policy and the reservation

A submission asks the policy about one snapshot of admission and reserves in a second
critical section. The decision is about the state that the reservation meets when no
other submission came or went in between, and two submissions that overlap can both be
admitted where the policy allows one.
-/
namespace KimServing
open Library

namespace GenerationRuntime
variable {K : Type} {s t : GenerationRuntime K} {k : ℕ}

section Policy
variable [Zero K] [Add K] [LE K] [DecidableLE K] [TtftText K]

variable {a : RuntimeAction}

def withinSlo (s : GenerationRuntime K) : RuntimeAction → Bool
  | .submit k _ =>
    match (s.calls k).pc, s.sloPolicy with
    | .submitAcquire request _, some policy =>
      if (s.admission.tryAcquire request.toAdmission).1 = .admitted then
        (policy.evaluate (.ofNat request.inputTokenIds.length) s.admission.snapshot).admitted
      else true
    | _, _ => true
  | _ => true

omit [Zero K] [Add K] [LE K] [DecidableLE K] [TtftText K] in
def undisturbed (s : GenerationRuntime K) : RuntimeAction → Bool
  | .submit k _ =>
    match (s.calls k).pc with
    | .submitAcquire _ evaluated => s.admission.activeRequests == evaluated.activeRequests
    | _ => true
  | _ => true

structure EvaluatedInv (s : GenerationRuntime K) : Prop where
  limit : ∀ k request evaluated, (s.calls k).pc = .submitAcquire request evaluated →
    evaluated.maxActiveRequests = s.admission.config.maxActiveRequests
  admitted : ∀ k request evaluated, (s.calls k).pc = .submitAcquire request evaluated →
    ∀ policy, s.sloPolicy = some policy →
      (policy.evaluate (.ofNat request.inputTokenIds.length) evaluated).admitted = true

/-- The policy, if there is one, has just been asked about the request and admits it. -/
def Asked (s : GenerationRuntime K) (request : GenerationRequest) (evaluated : AdmissionSnapshot) :
    Prop :=
  evaluated = s.admission.snapshot ∧ ∀ policy, s.sloPolicy = some policy →
    (policy.evaluate (.ofNat request.inputTokenIds.length) evaluated).admitted = true

theorem submitStep_submitAcquire {choice : CallChoice} (h : s.submitStep k choice = some t)
    {request : GenerationRequest} {evaluated : AdmissionSnapshot}
    (hpc : (t.calls k).pc = .submitAcquire request evaluated) : s.Asked request evaluated := by
  unfold submitStep at h
  cases hbefore : (s.calls k).pc
  case submitEvaluate request' =>
    simp only [hbefore] at h
    split at h <;> cases h
    · next hnone =>
      rw [setCall_calls_self] at hpc
      cases hpc
      exact ⟨rfl, fun policy hsome => by cases hnone.symm.trans hsome⟩
    · next policy hsome =>
      rw [setCall_calls_self] at hpc
      dsimp only at hpc
      split at hpc <;> cases hpc
      next hadmitted =>
      refine ⟨rfl, fun policy' hsome' => ?_⟩
      obtain rfl : policy = policy' := Option.some.inj (hsome.symm.trans hsome')
      exact hadmitted
  case submitValidate request' =>
    simp only [hbefore] at h
    cases h
    rw [setPc, setCall_calls_self] at hpc
    generalize validateRequestForAdmission request' _ = status at hpc
    dsimp only at hpc
    split at hpc <;> cases hpc
  case submitLock request' =>
    simp only [hbefore] at h
    split at h <;> cases h
    rw [setCall_calls_self] at hpc
    dsimp only at hpc
    split at hpc <;> cases hpc
  all_goals simp only [hbefore] at h
  all_goals repeat' split at h
  all_goals cases h
  all_goals
    simp only [setPc, giveBack_calls, setCall_calls_self, Call.given_pc] at hpc
    cases hpc

theorem step_submitAcquire (h : s.step a = some t) {request : GenerationRequest}
    {evaluated : AdmissionSnapshot} (hpc : (t.calls a.call).pc = .submitAcquire request evaluated) :
    (s.calls a.call).pc = .submitAcquire request evaluated ∨ s.Asked request evaluated := by
  cases a with
  | submit => exact .inr (submitStep_submitAcquire h hpc)
  | «begin» k op =>
    obtain ⟨-, rfl⟩ := begin_eq_some h
    rw [RuntimeAction.call, setCall_calls_self] at hpc
    cases op with
    | cancel =>
      dsimp only [RuntimeOp.entry] at hpc
      split at hpc <;> cases hpc
    | _ => cases hpc
  | mailbox =>
    obtain ⟨b, -, -, heffect⟩ := mailboxStep_cases h
    cases heffect
    all_goals
      simp only [RuntimeAction.call, giveBack_calls, setCall_calls_self, Call.given_pc] at hpc
      exact .inl hpc
  | start k choice =>
    have h : s.startStep k choice = some t := h
    unfold startStep at h
    cases hbefore : (s.calls k).pc
    all_goals simp only [hbefore] at h
    all_goals repeat' split at h
    all_goals cases h
    all_goals
      rw [RuntimeAction.call, setPc, setCall_calls_self] at hpc
      cases hpc
  | cancel k =>
    have h : s.cancelStep k = some t := h
    unfold cancelStep at h
    repeat' split at h
    all_goals cases h
    all_goals
      rw [RuntimeAction.call, setPc, setCall_calls_self] at hpc
      cases hpc
  | stop k choice =>
    have h : s.stopStep k choice = some t := h
    unfold stopStep at h
    repeat' split at h
    all_goals cases h
    all_goals
      rw [RuntimeAction.call, setPc, setCall_calls_self] at hpc
      cases hpc
  | unlock k =>
    have h : s.unlockStep k = some t := h
    unfold unlockStep at h
    split at h <;> cases h
    all_goals
      rw [RuntimeAction.call, setPc, setCall_calls_self] at hpc
      cases hpc

theorem EvaluatedInv.step (h : s.EvaluatedInv) (hs : s.step a = some t) : t.EvaluatedInv := by
  have hquiet := (step_effect hs).quiet
  have hcall (k : ℕ) (request : GenerationRequest) (evaluated : AdmissionSnapshot)
      (hpc : (t.calls k).pc = .submitAcquire request evaluated) :
      (s.calls k).pc = .submitAcquire request evaluated ∨ s.Asked request evaluated := by
    by_cases hk : k = a.call
    · subst hk
      exact step_submitAcquire hs hpc
    · rw [hquiet.others k hk] at hpc
      exact .inl hpc
  refine ⟨fun k request evaluated hpc => ?_, fun k request evaluated hpc => ?_⟩
  · rw [hquiet.config]
    obtain hbefore | ⟨rfl, -⟩ := hcall k request evaluated hpc
    · exact h.limit k request evaluated hbefore
    · rfl
  · rw [hquiet.policy]
    obtain hbefore | ⟨-, hadmitted⟩ := hcall k request evaluated hpc
    · exact h.admitted k request evaluated hbefore
    · exact hadmitted

omit [TtftText K] in
theorem EvaluatedInv.withinSlo (h : s.EvaluatedInv) (hsame : s.undisturbed a = true) :
    s.withinSlo a = true := by
  cases a with
  | submit k =>
    dsimp only [GenerationRuntime.withinSlo]
    split
    · next request evaluated policy hpc hpolicy =>
      split
      · next hreserved =>
        simp only [undisturbed, hpc, beq_iff_eq] at hsame
        have hadmitted := h.admitted k request evaluated hpc policy hpolicy
        obtain ⟨haccepting, -⟩ := AdmissionState.tryAcquire_admitted hreserved
        have hopen : s.admission.snapshot.accepting = evaluated.accepting :=
          haccepting.trans (SloAdmissionPolicy.accepting_of_evaluate hadmitted).symm
        have hactive : s.admission.snapshot.activeRequests = evaluated.activeRequests := hsame
        have hlimit : s.admission.snapshot.maxActiveRequests = evaluated.maxActiveRequests :=
          (h.limit k request evaluated hpc).symm
        unfold SloAdmissionPolicy.evaluate at hadmitted ⊢
        rw [hopen, hactive, hlimit]
        exact hadmitted
      · rfl
    · rfl
  | _ => rfl

end Policy

section Contract
variable [Zero K] [Add K] [LE K] [LT K] [DecidableLE K] [DecidableLT K] [TtftText K]

/-- In every run in which each reservation meets as many active requests as the policy
was asked about, the policy admits each reservation for the state that it meets. -/
theorem reservation_within_slo {config : AdmissionConfig} {mailbox : GenerationMailboxConfig}
    {slo : SloAdmissionPolicyConfig K} {s₀ : GenerationRuntime K} {actions : List RuntimeAction}
    (hcreate : create config mailbox (some slo) = .ok s₀)
    (hsame : Along GenerationRuntime.step (fun s a => s.undisturbed a = true) s₀ actions) :
    Along GenerationRuntime.step (fun s a => s.withinSlo a = true) s₀ actions := by
  obtain ⟨policy, rfl⟩ := create_eq hcreate
  exact hsame.of_invariant (I := EvaluatedInv) (fun _ _ _ hs _ hstep => hs.step hstep)
    (fun _ _ hs hg => hs.withinSlo hg)
    ⟨fun _ _ _ hpc => (by cases hpc), fun _ _ _ hpc => (by cases hpc)⟩

end Contract

def oneAtATime : SloAdmissionPolicyConfig ℕ where
  modelId := [109]
  revision := [114]
  engineFingerprint := [101]
  ttftSloMs := 100
  safetyMarginMs := 0
  entries := [⟨16, 1, 50⟩]

def sloRuntime : GenerationRuntime ℕ where
  mailboxConfig := {}
  admission := { config := {} }
  sloPolicy := some ⟨oneAtATime⟩

theorem create_sloRuntime : create {} {} (some oneAtATime) = .ok sloRuntime := rfl

def smallRequest (requestId : ℕ) : GenerationRequest :=
  { context := { requestId := requestId }, inputTokenIds := [1, 2], maxNewTokens := 4 }

def bothBegun : List RuntimeAction :=
  [.begin 0 .start, .start 0 .go, .start 0 .go, .start 0 .go, .unlock 0,
    .begin 1 (.submit (smallRequest 7)), .begin 2 (.submit (smallRequest 8))]

/-- The second submission asks the policy after the first has its reservation. -/
def twoInTurn : List RuntimeAction :=
  bothBegun ++ List.replicate 4 (.submit 1 .go) ++ List.replicate 4 (.submit 2 .go)

def twoAtATime : SloAdmissionPolicyConfig ℕ := { oneAtATime with entries := [⟨16, 2, 50⟩] }

def sharedRuntime : GenerationRuntime ℕ := { sloRuntime with sloPolicy := some ⟨twoAtATime⟩ }

theorem create_sharedRuntime : create {} {} (some twoAtATime) = .ok sharedRuntime := rfl

theorem reservation_within_slo_twoInTurn :
    (exec GenerationRuntime.step sharedRuntime twoInTurn).any
        (fun s => (s.calls 1).admitted && (s.calls 2).admitted) = true ∧
      Along GenerationRuntime.step (fun s a => s.withinSlo a = true) sharedRuntime twoInTurn :=
  ⟨by decide +kernel, reservation_within_slo create_sharedRuntime (by decide +kernel)⟩

def twoAtOnce : List RuntimeAction :=
  bothBegun ++ List.replicate 3 (.submit 1 .go) ++ List.replicate 3 (.submit 2 .go) ++
    [.submit 1 .go, .submit 2 .go]

/-- Both are admitted, and the policy would have refused the second in the state that
its reservation met. -/
theorem reservation_beyond_slo :
    create {} {} (some oneAtATime) = .ok sloRuntime ∧
    (∃ s, exec GenerationRuntime.step sloRuntime twoAtOnce = some s ∧
      (s.calls 1).admitted = true ∧ (s.calls 2).admitted = true) ∧
    ¬ Along GenerationRuntime.step (fun s a => s.withinSlo a = true) sloRuntime twoAtOnce := by
  have hrun : (exec GenerationRuntime.step sloRuntime twoAtOnce).any
      (fun s => (s.calls 1).admitted && (s.calls 2).admitted) = true := by decide +kernel
  obtain ⟨s, hs, hboth⟩ := (Option.any_eq_true _ _).mp hrun
  rw [Bool.and_eq_true] at hboth
  exact ⟨create_sloRuntime, ⟨s, hs, hboth⟩, by decide +kernel⟩

end GenerationRuntime

end KimServing

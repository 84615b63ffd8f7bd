import KimServing.Library.Runs
import KimServing.Runtime.AdmissionController
import Mathlib.Logic.Function.Basic

/-! # Leases as objects

A lease is a move-only object. The program constructs leases at places, moves them
about, assigns over them and destroys them, and the shared admission state outlives
the controller. Whatever it does, the budgets are those of the valid leases.
-/
namespace KimServing
open Library Function

/-- A lease object. A moved or released one has no pointer to the shared state. -/
structure AdmissionLease where
  hasState : Bool := false
  request : AdmissionRequest := {}
  released : Bool := true
  deriving DecidableEq

namespace AdmissionLease

def valid (l : AdmissionLease) : Bool := l.hasState && !l.released

def moved : AdmissionLease := {}

end AdmissionLease

/-- The controller, the lease objects at their places, and the state that they share. -/
structure LeaseSystem where
  admission : AdmissionState
  controllerAlive : Bool := true
  leases : ℕ → Option AdmissionLease := fun _ => none

inductive LeaseOp where
  | «open»
  | close
  | destroyController
  | tryAcquire (place : ℕ) (request : AdmissionRequest)
  | construct (place : ℕ)
  | moveConstruct (place source : ℕ)
  | moveAssign (place source : ℕ)
  | release (place : ℕ)
  | destroy (place : ℕ)
  deriving DecidableEq

namespace LeaseSystem

def setLease (s : LeaseSystem) (place : ℕ) (l : Option AdmissionLease) : LeaseSystem :=
  { s with leases := update s.leases place l }

def releaseAt (s : LeaseSystem) (place : ℕ) (l : AdmissionLease) : LeaseSystem :=
  if l.valid = false then s
  else
    setLease { s with admission := s.admission.release l.request } place
      (some { hasState := false, request := {}, released := true })

def takeOver (s : LeaseSystem) (place source : ℕ) (l : AdmissionLease) : LeaseSystem :=
  (s.setLease source (some .moved)).setLease place (some l)

/-- An operation that the program cannot make in this state has no successor: a call
of a destroyed controller, an object that does not exist, a place that is taken. -/
def step (s : LeaseSystem) : LeaseOp → Option LeaseSystem
  | .open => if s.controllerAlive then some { s with admission := s.admission.open.2 } else none
  | .close => if s.controllerAlive then some { s with admission := s.admission.close } else none
  | .destroyController =>
    if s.controllerAlive then
      some { s with admission := s.admission.close, controllerAlive := false }
    else none
  | .tryAcquire place request =>
    if s.controllerAlive ∧ s.leases place = none then
      let (code, admission) := s.admission.tryAcquire request
      some (setLease { s with admission := admission } place
        (some (if code = .admitted then ⟨true, request, false⟩ else {})))
    else none
  | .construct place => if s.leases place = none then some (s.setLease place (some {})) else none
  | .moveConstruct place source =>
    match s.leases place, s.leases source with
    | none, some l => some (s.takeOver place source l)
    | _, _ => none
  | .moveAssign place source =>
    match s.leases place, s.leases source with
    | some old, some l =>
      if place = source then some s else some ((s.releaseAt place old).takeOver place source l)
    | _, _ => none
  | .release place =>
    match s.leases place with
    | some l => some (s.releaseAt place l)
    | none => none
  | .destroy place =>
    match s.leases place with
    | some l => some ((s.releaseAt place l).setLease place none)
    | none => none

variable {s s' : LeaseSystem}

def requestAt (s : LeaseSystem) (place : ℕ) : AdmissionRequest :=
  match s.leases place with
  | some l => l.request
  | none => {}

def ValidAt (s : LeaseSystem) (place : ℕ) : Prop := ∃ l, s.leases place = some l ∧ l.valid = true

/-- These are the places of the valid leases, and the budgets are theirs. -/
structure Holds (s : LeaseSystem) (held : Finset ℕ) : Prop where
  places : ∀ place, place ∈ held ↔ s.ValidAt place
  accounts : s.admission.Accounts held s.requestAt

theorem setLease_self (place : ℕ) (l : Option AdmissionLease) :
    (s.setLease place l).leases place = l := update_self ..

theorem setLease_ne {place other : ℕ} (h : other ≠ place) (l : Option AdmissionLease) :
    (s.setLease place l).leases other = s.leases other := update_of_ne h ..

theorem releaseAt_ne {place other : ℕ} (h : other ≠ place) (l : AdmissionLease) :
    (s.releaseAt place l).leases other = s.leases other := by
  unfold releaseAt
  split
  · rfl
  · exact setLease_ne h _

theorem validAt_congr {place : ℕ} (h : s'.leases place = s.leases place) :
    s'.ValidAt place ↔ s.ValidAt place := by rw [ValidAt, ValidAt, h]

theorem requestAt_congr {place : ℕ} (h : s'.leases place = s.leases place) :
    s'.requestAt place = s.requestAt place := by rw [requestAt, requestAt, h]

namespace Holds
variable {held : Finset ℕ} {place source : ℕ} {l : AdmissionLease}

theorem setInvalid (h : s.Holds held) (hplace : place ∉ held) {l : Option AdmissionLease}
    (hl : ∀ lease, l = some lease → lease.valid = false) : (s.setLease place l).Holds held := by
  refine ⟨fun other => ?_, h.accounts.congr fun other hother => ?_⟩
  · by_cases hother : other = place
    · subst hother
      refine iff_of_false hplace ?_
      rintro ⟨lease, hlease, hvalid⟩
      rw [setLease_self] at hlease
      rw [hl lease hlease] at hvalid
      cases hvalid
    · rw [h.places, validAt_congr (setLease_ne hother l)]
  · have hne : other ≠ place := fun heq => hplace (heq ▸ hother)
    exact requestAt_congr (setLease_ne hne l)

theorem notMem_of_none (h : s.Holds held) (hplace : s.leases place = none) : place ∉ held := by
  rw [h.places]
  rintro ⟨l, hl, -⟩
  cases hplace.symm.trans hl

theorem release (h : s.Holds held) (hl : s.leases place = some l) :
    (s.releaseAt place l).Holds (held.erase place) := by
  unfold releaseAt
  split
  · next hinvalid =>
    have hplace : place ∉ held := by
      rw [h.places]
      rintro ⟨other, hother, hvalid⟩
      rw [hl] at hother
      cases hother
      cases hinvalid.symm.trans hvalid
    rw [Finset.erase_eq_of_notMem hplace]
    exact h
  · next hvalid =>
    have hplace : place ∈ held := (h.places place).mpr ⟨l, hl, by simpa using hvalid⟩
    have hrequest : l.request = s.requestAt place := by rw [requestAt, hl]
    have hreleased := h.accounts.release hplace
    refine ⟨fun other => ?_, ?_⟩
    · by_cases hother : other = place
      · subst hother
        refine iff_of_false (Finset.notMem_erase _ _) ?_
        rintro ⟨lease, hlease, hv⟩
        rw [setLease_self] at hlease
        cases hlease
        cases hv
      · rw [Finset.mem_erase, h.places, validAt_congr (setLease_ne hother _)]
        exact and_iff_right hother
    · rw [hrequest]
      exact hreleased.congr fun other hother =>
        requestAt_congr (setLease_ne (Finset.mem_erase.mp hother).1 _)

theorem takeOver (h : s.Holds held) (hne : place ≠ source) (hplace : place ∉ held)
    (hl : s.leases source = some l) :
    ∃ held', (s.takeOver place source l).Holds held' := by
  have hrequest : (s.takeOver place source l).requestAt place = s.requestAt source := by
    rw [requestAt, LeaseSystem.takeOver, setLease_self, requestAt, hl]
  have hothers {other : ℕ} (hp : other ≠ place) (hs : other ≠ source) :
      (s.takeOver place source l).leases other = s.leases other := by
    rw [LeaseSystem.takeOver, setLease_ne hp, setLease_ne hs]
  have hsource : ¬ (s.takeOver place source l).ValidAt source := by
    rintro ⟨lease, hlease, hv⟩
    rw [LeaseSystem.takeOver, setLease_ne hne.symm, setLease_self] at hlease
    cases hlease
    cases hv
  have hvalid : (s.takeOver place source l).ValidAt place ↔ s.ValidAt source := by
    rw [ValidAt, ValidAt, LeaseSystem.takeOver, setLease_self, hl]
  by_cases hheld : source ∈ held
  · refine ⟨insert place (held.erase source), fun other => ?_,
      h.accounts.move hheld hplace hrequest fun other hother => ?_⟩
    · rw [Finset.mem_insert, Finset.mem_erase]
      by_cases hp : other = place
      · subst hp
        exact iff_of_true (Or.inl rfl) (hvalid.mpr ((h.places source).mp hheld))
      · by_cases hs : other = source
        · subst hs
          exact iff_of_false (by simp [hne.symm]) hsource
        · rw [validAt_congr (hothers hp hs), ← h.places]
          simp [hp, hs]
    · obtain ⟨hs, hmem⟩ := Finset.mem_erase.mp hother
      exact requestAt_congr (hothers (fun hp => hplace (hp ▸ hmem)) hs)
  · have hinvalid : l.valid = false := by
      by_contra hv
      exact hheld ((h.places source).mpr ⟨l, hl, by simpa using hv⟩)
    refine ⟨held, (h.setInvalid hheld ?_).setInvalid hplace ?_⟩
    · rintro lease ⟨⟩
      rfl
    · rintro lease ⟨⟩
      exact hinvalid

theorem acquire (h : s.Holds held) (hplace : s.leases place = none) {request : AdmissionRequest}
    (hadmitted : (s.admission.tryAcquire request).1 = .admitted) :
    (setLease { s with admission := (s.admission.tryAcquire request).2 } place
      (some ⟨true, request, false⟩)).Holds (insert place held) := by
  have hfree := h.notMem_of_none hplace
  have hother {other : ℕ} (hne : other ≠ place) :
      (setLease { s with admission := (s.admission.tryAcquire request).2 } place
        (some ⟨true, request, false⟩)).leases other = s.leases other := setLease_ne hne _
  refine ⟨fun other => ?_, ?_⟩
  · rw [Finset.mem_insert]
    by_cases hne : other = place
    · subst hne
      exact iff_of_true (Or.inl rfl) ⟨_, setLease_self .., rfl⟩
    · rw [validAt_congr (hother hne), h.places]
      simp [hne]
  · have hrequest : (setLease { s with admission := (s.admission.tryAcquire request).2 } place
        (some ⟨true, request, false⟩)).requestAt place = request := by
      rw [requestAt, setLease_self]
    have haccounts : s.admission.Accounts held (setLease { s with
        admission := (s.admission.tryAcquire request).2 } place
        (some ⟨true, request, false⟩)).requestAt :=
      h.accounts.congr fun other hmem => requestAt_congr (hother fun heq => hfree (heq ▸ hmem))
    have hacquired := haccounts.acquire hfree (by rw [hrequest]; exact hadmitted)
    rw [hrequest] at hacquired
    exact hacquired

theorem step (h : s.Holds held) {op : LeaseOp} (hstep : s.step op = some s') :
    ∃ held', s'.Holds held' := by
  cases op with
  | «open» =>
    simp only [LeaseSystem.step] at hstep
    split at hstep <;> cases hstep
    refine ⟨held, h.places, ?_⟩
    unfold AdmissionState.open
    split
    · exact h.accounts
    · exact h.accounts.setAccepting true
  | close | destroyController =>
    simp only [LeaseSystem.step] at hstep
    split at hstep <;> cases hstep
    exact ⟨held, h.places, h.accounts.setAccepting false⟩
  | tryAcquire place request =>
    simp only [LeaseSystem.step] at hstep
    split at hstep <;> cases hstep
    next hcall =>
    by_cases hadmitted : (s.admission.tryAcquire request).1 = .admitted
    · rw [if_pos hadmitted]
      exact ⟨_, h.acquire hcall.2 hadmitted⟩
    · rw [if_neg hadmitted, AdmissionState.tryAcquire_refused hadmitted]
      refine ⟨held, h.setInvalid (h.notMem_of_none hcall.2) ?_⟩
      rintro lease ⟨⟩
      rfl
  | construct =>
    simp only [LeaseSystem.step] at hstep
    split at hstep <;> cases hstep
    next hfree =>
    refine ⟨held, h.setInvalid (h.notMem_of_none hfree) ?_⟩
    rintro lease ⟨⟩
    rfl
  | moveConstruct place source =>
    simp only [LeaseSystem.step] at hstep
    split at hstep <;> cases hstep
    next hfree hl =>
    have hne : place ≠ source := by
      rintro rfl
      cases hl.symm.trans hfree
    exact h.takeOver hne (h.notMem_of_none hfree) hl
  | moveAssign place source =>
    simp only [LeaseSystem.step] at hstep
    split at hstep
    · next old l hold hl =>
      split at hstep <;> cases hstep
      · exact ⟨held, h⟩
      · next hne =>
        have hsource : (s.releaseAt place old).leases source = some l :=
          (releaseAt_ne (Ne.symm hne) old).trans hl
        exact (h.release hold).takeOver hne (Finset.notMem_erase _ _) hsource
    · cases hstep
  | release =>
    simp only [LeaseSystem.step] at hstep
    split at hstep <;> cases hstep
    next hl => exact ⟨_, h.release hl⟩
  | destroy =>
    simp only [LeaseSystem.step] at hstep
    split at hstep <;> cases hstep
    next hl =>
    refine ⟨_, (h.release hl).setInvalid (Finset.notMem_erase _ _) ?_⟩
    rintro lease ⟨⟩

end Holds

def create (config : AdmissionConfig) : Except String LeaseSystem := do
  let admission ← AdmissionState.create config
  return { admission := admission }

theorem create_holds {config : AdmissionConfig} (h : create config = .ok s) : s.Holds ∅ := by
  unfold create AdmissionState.create at h
  split at h
  · cases h
  · cases h
    refine ⟨fun place => iff_of_false (Finset.notMem_empty _) ?_, ?_⟩
    · rintro ⟨l, hl, -⟩
      cases hl
    · exact ⟨List.nodup_nil, by simp, by simp, rfl, rfl, Nat.zero_le _, UInt64.zero_le,
        UInt64.zero_le⟩

theorem releaseAt_config (s : LeaseSystem) (place : ℕ) (l : AdmissionLease) :
    (s.releaseAt place l).admission.config = s.admission.config := by
  unfold releaseAt
  split
  · rfl
  · exact AdmissionState.release_config _ _

theorem step_config {op : LeaseOp} (hstep : s.step op = some s') :
    s'.admission.config = s.admission.config := by
  cases op
  all_goals
    simp only [step] at hstep
    repeat' split at hstep
    all_goals cases hstep
  all_goals first
    | rfl
    | exact AdmissionState.open_config _
    | exact AdmissionState.tryAcquire_config _ _
    | exact releaseAt_config ..

theorem run_holds {config : AdmissionConfig} (hcreate : create config = .ok s)
    {ops : List LeaseOp} (hrun : exec step s ops = some s') :
    s'.admission.config = config ∧ ∃ held, s'.Holds held := by
  have hconfig : s.admission.config = config := by
    unfold create AdmissionState.create at hcreate
    split at hcreate
    · cases hcreate
    · cases hcreate
      rfl
  exact exec_preserves (I := fun t => t.admission.config = config ∧ ∃ held, t.Holds held)
    (fun _ _ _ ⟨hc, _, ht⟩ hstep => ⟨(step_config hstep).trans hc, ht.step hstep⟩)
    ⟨hconfig, ∅, create_holds hcreate⟩ hrun

end LeaseSystem

/-- Whatever is done with the controller and its leases, the budgets are those of the
valid leases, and each of the operations does what the budgets allow. -/
theorem lease_algebra (config : AdmissionConfig) (s₀ : LeaseSystem)
    (hcreate : LeaseSystem.create config = .ok s₀) (ops : List LeaseOp) (s : LeaseSystem)
    (hrun : exec LeaseSystem.step s₀ ops = some s) :
    ∃ held : Finset ℕ, (∀ place, place ∈ held ↔ s.ValidAt place) ∧
      s.admission.activeRequestIds.Nodup ∧
      (∀ id, id ∈ s.admission.activeRequestIds ↔ ∃ place ∈ held, (s.requestAt place).requestId = id) ∧
      (∀ id ∈ s.admission.activeRequestIds,
        ∃! place, place ∈ held ∧ (s.requestAt place).requestId = id) ∧
      s.admission.reservedInputTokens.toNat = ∑ place ∈ held, (s.requestAt place).inputTokens.toNat ∧
      s.admission.reservedOutputTokens.toNat =
        ∑ place ∈ held, (s.requestAt place).reservedOutputTokens.toNat ∧
      s.admission.activeRequests.toNat = held.card ∧
      held.card ≤ config.maxActiveRequests.toNat ∧
      s.admission.reservedInputTokens ≤ config.maxTotalInputTokens ∧
      s.admission.reservedOutputTokens ≤ config.maxReservedOutputTokens ∧
      (∀ r : AdmissionRequest,
        ((s.admission.tryAcquire r).1 = .admitted ↔
          (r.requestId ≠ 0 ∧ r.inputTokens ≠ 0 ∧ r.reservedOutputTokens ≠ 0) ∧
          s.admission.accepting = true ∧ r.requestId ∉ s.admission.activeRequestIds ∧
          held.card < config.maxActiveRequests.toNat ∧
          s.admission.reservedInputTokens.toNat + r.inputTokens.toNat ≤
            config.maxTotalInputTokens.toNat ∧
          s.admission.reservedOutputTokens.toNat + r.reservedOutputTokens.toNat ≤
            config.maxReservedOutputTokens.toNat) ∧
        ((s.admission.tryAcquire r).1 = .admitted →
          (s.admission.tryAcquire r).2.reservedInputTokens.toNat =
            s.admission.reservedInputTokens.toNat + r.inputTokens.toNat ∧
          (s.admission.tryAcquire r).2.reservedOutputTokens.toNat =
            s.admission.reservedOutputTokens.toNat + r.reservedOutputTokens.toNat) ∧
        ((s.admission.tryAcquire r).1 ≠ .admitted → (s.admission.tryAcquire r).2 = s.admission)) ∧
      (∀ place l, s.leases place = some l → l.valid = true →
        l.request.requestId ∈ s.admission.activeRequestIds ∧
        l.request.inputTokens ≤ s.admission.reservedInputTokens ∧
        l.request.reservedOutputTokens ≤ s.admission.reservedOutputTokens) ∧
      (s.admission.open.1 = true ↔ held = ∅) := by
  obtain ⟨rfl, held, hplaces, h⟩ := LeaseSystem.run_holds hcreate hrun
  refine ⟨held, hplaces, h.nodup, h.active, fun id hid => ?_, h.input, h.output,
    h.activeRequests_toNat, h.activeLimit, h.inputLimit, h.outputLimit,
    fun r => ⟨h.tryAcquire_iff r, fun hadmitted => ?_, AdmissionState.tryAcquire_refused⟩,
    fun place l hl hvalid => ?_, h.open_iff⟩
  · obtain ⟨place, hplace, heq⟩ := (h.active id).mp hid
    refine ⟨place, ⟨hplace, heq⟩, fun other hother => ?_⟩
    exact h.distinct other hother.1 place hplace (hother.2.trans heq.symm)
  · obtain ⟨-, -, -, hinput, houtput, heq⟩ := AdmissionState.tryAcquire_admitted hadmitted
    rw [heq]
    exact ⟨(AdmissionState.Accounts.toNat_add_of_le_sub h.inputLimit hinput).1,
      (AdmissionState.Accounts.toNat_add_of_le_sub h.outputLimit houtput).1⟩
  · have hcovered := h.covers ((hplaces place).mpr ⟨l, hl, hvalid⟩)
    rw [LeaseSystem.requestAt, hl] at hcovered
    exact hcovered

/-- A lease is acquired, assigned over an empty one and released there. -/
theorem lease_algebra_moved :
    ∃ s₀ s, LeaseSystem.create {} = .ok s₀ ∧
      exec LeaseSystem.step s₀ [.open, .tryAcquire 0 ⟨7, 3, 2⟩, .construct 1, .moveAssign 1 0] =
        some s ∧
      s.admission.activeRequestIds = [7] ∧ s.ValidAt 1 ∧ s.admission.open.1 = false := by
  have hinv := lease_algebra {} _ rfl
    [.open, .tryAcquire 0 ⟨7, 3, 2⟩, .construct 1, .moveAssign 1 0] _ rfl
  obtain ⟨held, hplaces, -, -, -, -, -, -, -, -, -, -, -, hopen⟩ := hinv
  refine ⟨_, _, rfl, rfl, rfl, ⟨_, rfl, rfl⟩, ?_⟩
  rw [Bool.eq_false_iff, ne_eq, hopen]
  rintro rfl
  exact Finset.notMem_empty 1 ((hplaces 1).mpr ⟨_, rfl, rfl⟩)

end KimServing

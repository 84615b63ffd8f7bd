import KimServing.Runtime.SloAdmissionPolicy
import Mathlib.Algebra.Order.Ring.Rat

/-! # Which bucket of the profile decides

The constructor sorts the profile by input size and then by active requests, and looks
for a repeated bucket among neighbours only. A sorted profile without such neighbours is
strictly sorted, so it does not depend on the order in which it was given, and the first
bucket that covers a request is the smallest one.
-/
namespace KimServing

namespace SloProfileEntry
variable {K : Type*} {a b c : SloProfileEntry K}

def strictlyBefore (a b : SloProfileEntry K) : Prop :=
  a.maxInputTokens < b.maxInputTokens ∨
    a.maxInputTokens = b.maxInputTokens ∧ a.activeRequests < b.activeRequests

def Covers (entry : SloProfileEntry K) (inputTokens activeRequests : ℕ) : Prop :=
  inputTokens ≤ entry.maxInputTokens.toNat ∧ activeRequests ≤ entry.activeRequests.toNat

def Within (a b : SloProfileEntry K) : Prop :=
  a.maxInputTokens ≤ b.maxInputTokens ∧ a.activeRequests ≤ b.activeRequests

theorem before_total (a b : SloProfileEntry K) : a.before b ∨ b.before a := by
  simp only [before, UInt64.lt_iff_toNat_lt, UInt64.le_iff_toNat_le, ← UInt64.toNat_inj]
  omega

theorem before_trans (hab : a.before b) (hbc : b.before c) : a.before c := by
  simp only [before, UInt64.lt_iff_toNat_lt, UInt64.le_iff_toNat_le, ← UInt64.toNat_inj] at *
  omega

instance : Std.Total (before (K := K)) := ⟨before_total⟩
instance : IsTrans (SloProfileEntry K) before := ⟨fun _ _ _ => before_trans⟩

theorem strictlyBefore_trans (hab : a.strictlyBefore b) (hbc : b.strictlyBefore c) :
    a.strictlyBefore c := by
  simp only [strictlyBefore, UInt64.lt_iff_toNat_lt, ← UInt64.toNat_inj] at *
  omega

theorem strictlyBefore_of_before (h : a.before b) (hbucket : a.sameBucket b = false) :
    a.strictlyBefore b := by
  simp only [sameBucket, Bool.and_eq_false_iff, beq_eq_false_iff_ne, ne_eq, before, strictlyBefore,
    UInt64.lt_iff_toNat_lt, UInt64.le_iff_toNat_le, ← UInt64.toNat_inj] at *
  omega

theorem not_before_of_strictlyBefore (h : a.strictlyBefore b) : ¬ b.before a := by
  simp only [before, strictlyBefore, UInt64.lt_iff_toNat_lt, UInt64.le_iff_toNat_le,
    ← UInt64.toNat_inj] at *
  omega

theorem not_within_of_strictlyBefore (h : a.strictlyBefore b) : ¬ b.Within a := by
  simp only [Within, strictlyBefore, UInt64.lt_iff_toNat_lt, UInt64.le_iff_toNat_le,
    ← UInt64.toNat_inj] at *
  omega

theorem maxInputTokens_le_of_strictlyBefore (h : a.strictlyBefore b) :
    a.maxInputTokens ≤ b.maxInputTokens := by
  simp only [strictlyBefore, UInt64.lt_iff_toNat_lt, UInt64.le_iff_toNat_le,
    ← UInt64.toNat_inj] at *
  omega

end SloProfileEntry

open SloProfileEntry List

namespace SloAdmissionPolicy
variable {K : Type*}

/-! ## The sorted profile -/

variable {entries : List (SloProfileEntry K)}

theorem pairwise_strictlyBefore (hsorted : entries.Pairwise before)
    (hdistinct : hasDuplicate entries = false) : entries.Pairwise strictlyBefore := by
  induction entries with
  | nil => exact .nil
  | cons a rest ih =>
    obtain ⟨hfirst, hrest⟩ := pairwise_cons.mp hsorted
    cases rest with
    | nil => exact pairwise_singleton _ _
    | cons b =>
      simp only [hasDuplicate, Bool.or_eq_false_iff] at hdistinct
      have hstrict := ih hrest hdistinct.2
      have hab : a.strictlyBefore b :=
        strictlyBefore_of_before (hfirst b mem_cons_self) hdistinct.1
      refine pairwise_cons.mpr ⟨?_, hstrict⟩
      intro c hc
      rcases mem_cons.mp hc with rfl | hc
      · exact hab
      · exact strictlyBefore_trans hab ((pairwise_cons.mp hstrict).1 c hc)

theorem sameBucket_comm (a b : SloProfileEntry K) : a.sameBucket b = b.sameBucket a := by
  simp only [sameBucket, Bool.beq_comm]

theorem not_sameBucket_of_strictlyBefore {a b : SloProfileEntry K} (h : a.strictlyBefore b) :
    a.sameBucket b = false := by
  simp only [sameBucket, Bool.and_eq_false_iff, beq_eq_false_iff_ne, ne_eq, strictlyBefore,
    UInt64.lt_iff_toNat_lt, ← UInt64.toNat_inj] at *
  omega

theorem hasDuplicate_insertionSort : hasDuplicate (entries.insertionSort before) = false ↔
    entries.Pairwise fun a b => a.sameBucket b = false := by
  have hperm := entries.perm_insertionSort before
  rw [← hperm.pairwise_iff fun {a b} h => (sameBucket_comm b a).trans h]
  constructor
  · intro hdistinct
    exact (pairwise_strictlyBefore (entries.pairwise_insertionSort before) hdistinct).imp
      not_sameBucket_of_strictlyBefore
  generalize entries.insertionSort before = sorted
  intro hsorted
  induction sorted with
  | nil => rfl
  | cons a rest ih =>
    obtain ⟨hfirst, hrest⟩ := pairwise_cons.mp hsorted
    cases rest with
    | nil => rfl
    | cons b =>
      rw [hasDuplicate, hfirst b mem_cons_self, ih hrest]
      rfl

theorem strictlyBefore_or (h : entries.Pairwise strictlyBefore) {a b : SloProfileEntry K}
    (ha : a ∈ entries) (hb : b ∈ entries) (hne : a ≠ b) :
    a.strictlyBefore b ∨ b.strictlyBefore a := by
  let either (a b : SloProfileEntry K) : Prop := a.strictlyBefore b ∨ b.strictlyBefore a
  have hsymm : Std.Symm either := ⟨fun _ _ => Or.symm⟩
  have heither : entries.Pairwise either := h.imp Or.inl
  exact heither.forall ha hb hne

theorem insertionSort_eq_of_perm {first second : List (SloProfileEntry K)}
    (hperm : second.Perm first) (hdistinct : hasDuplicate (first.insertionSort before) = false) :
    second.insertionSort before = first.insertionSort before := by
  have hsorted := first.pairwise_insertionSort before
  have hstrict := pairwise_strictlyBefore hsorted hdistinct
  have hsame : (second.insertionSort before).Perm (first.insertionSort before) :=
    (second.perm_insertionSort before).trans (hperm.trans (first.perm_insertionSort before).symm)
  refine hsame.eq_of_pairwise ?_ (second.pairwise_insertionSort before) hsorted
  intro a b ha hb hab hba
  by_contra hne
  rcases strictlyBefore_or hstrict (hsame.subset ha) hb hne with h | h
  · exact not_before_of_strictlyBefore h hba
  · exact not_before_of_strictlyBefore h hab

theorem strictlyBefore_of_find (h : entries.Pairwise strictlyBefore)
    {test : SloProfileEntry K → Bool} {first other : SloProfileEntry K}
    (hfirst : entries.find? test = some first) (hother : other ∈ entries)
    (htest : test other = true) (hne : other ≠ first) : first.strictlyBefore other := by
  induction entries with
  | nil => cases hother
  | cons a rest ih =>
    obtain ⟨ha, hrest⟩ := pairwise_cons.mp h
    rw [List.find?_cons] at hfirst
    cases hmatch : test a with
    | true =>
      rw [hmatch] at hfirst
      cases hfirst
      exact ha other ((mem_cons.mp hother).resolve_left hne)
    | false =>
      rw [hmatch] at hfirst
      refine ih hrest hfirst ((mem_cons.mp hother).resolve_left ?_)
      rintro rfl
      cases hmatch.symm.trans htest

/-! ## The constructor and the decision -/

section Create
variable [Zero K] [LE K] [LT K] [DecidableLE K] [DecidableLT K]

def Checked (config : SloAdmissionPolicyConfig K) : Prop :=
  ¬ (config.modelId = [] ∨ config.revision = [] ∨ config.engineFingerprint = [] ∨
    config.ttftSloMs ≤ 0 ∨ config.safetyMarginMs < 0 ∨ config.entries = []) ∧
  ∀ entry ∈ config.entries, entry.maxInputTokens ≠ 0 ∧ entry.activeRequests ≠ 0 ∧
    ¬ entry.predictedTtftP95Ms ≤ 0

theorem create_eq_ok {config : SloAdmissionPolicyConfig K} {p : SloAdmissionPolicy K} :
    create config = .ok p ↔ Checked config ∧
      hasDuplicate (config.entries.insertionSort before) = false ∧
      p = ⟨{ config with entries := config.entries.insertionSort before }⟩ := by
  unfold create Checked
  by_cases hheader : config.modelId = [] ∨ config.revision = [] ∨ config.engineFingerprint = [] ∨
      config.ttftSloMs ≤ 0 ∨ config.safetyMarginMs < 0 ∨ config.entries = []
  · rw [if_pos hheader]
    exact ⟨nofun, fun h => absurd hheader h.1.1⟩
  rw [if_neg hheader]
  have hentries : (config.entries.any (fun entry => decide (entry.maxInputTokens = 0) ||
      decide (entry.activeRequests = 0) || decide (entry.predictedTtftP95Ms ≤ 0)) = true) ↔
      ¬ ∀ entry ∈ config.entries, entry.maxInputTokens ≠ 0 ∧ entry.activeRequests ≠ 0 ∧
        ¬ entry.predictedTtftP95Ms ≤ 0 := by
    simp only [any_eq_true, Bool.or_eq_true, decide_eq_true_eq]
    push Not
    refine exists_congr (fun entry => and_congr_right (fun _ => ?_))
    tauto
  by_cases hany : ∀ entry ∈ config.entries, entry.maxInputTokens ≠ 0 ∧ entry.activeRequests ≠ 0 ∧
      ¬ entry.predictedTtftP95Ms ≤ 0
  · rw [if_neg (fun h => hentries.mp h hany)]
    dsimp only
    cases hdup : hasDuplicate (config.entries.insertionSort before) with
    | true =>
      rw [if_pos rfl]
      exact ⟨nofun, fun h => (by cases h.2.1)⟩
    | false =>
      rw [if_neg (by simp), Except.ok.injEq]
      exact ⟨fun h => ⟨⟨hheader, hany⟩, rfl, h.symm⟩, fun h => h.2.2.symm⟩
  · rw [if_pos (hentries.mpr hany)]
    exact ⟨nofun, fun h => absurd h.1.2 hany⟩

end Create

theorem covers_iff {entry : SloProfileEntry K} {inputTokens : UInt64}
    {admission : AdmissionSnapshot}
    (hactive : admission.activeRequests < admission.maxActiveRequests) :
    entry.covers inputTokens (admission.activeRequests + 1) = true ↔
      entry.Covers inputTokens.toNat (admission.activeRequests.toNat + 1) := by
  have hlt := UInt64.lt_iff_toNat_lt.mp hactive
  have hmax := admission.maxActiveRequests.toNat_lt
  have hadd : (admission.activeRequests + 1).toNat = admission.activeRequests.toNat + 1 := by
    rw [UInt64.toNat_add]
    exact Nat.mod_eq_of_lt (by simp; omega)
  simp only [covers, Covers, Bool.and_eq_true, decide_eq_true_eq, UInt64.le_iff_toNat_le, hadd]

section Evaluate
variable [Zero K] [Add K] [LE K] [DecidableLE K]

theorem evaluate_of_none {p : SloAdmissionPolicy K} {inputTokens : UInt64}
    {admission : AdmissionSnapshot}
    (hactive : admission.activeRequests < admission.maxActiveRequests)
    (h : ∀ entry ∈ p.config.entries,
      ¬ entry.Covers inputTokens.toNat (admission.activeRequests.toNat + 1)) :
    (p.evaluate inputTokens admission).admitted = false := by
  have hfind : p.config.entries.find? (fun entry =>
      entry.covers inputTokens (admission.activeRequests + 1)) = none := by
    rw [List.find?_eq_none]
    intro entry hentry hcovers
    exact h entry hentry ((covers_iff hactive).mp hcovers)
  have hfull : ¬ admission.maxActiveRequests ≤ admission.activeRequests := by
    rw [UInt64.le_iff_toNat_le, Nat.not_le]
    exact UInt64.lt_iff_toNat_lt.mp hactive
  unfold evaluate
  rw [if_neg hfull, hfind]
  split <;> rfl

theorem evaluate_of_covers {p : SloAdmissionPolicy K}
    (hstrict : p.config.entries.Pairwise strictlyBefore) {inputTokens : UInt64}
    {admission : AdmissionSnapshot} (haccepting : admission.accepting = true)
    (hinput : 0 < inputTokens) (hactive : admission.activeRequests < admission.maxActiveRequests)
    (hcovered : ∃ entry ∈ p.config.entries,
      entry.Covers inputTokens.toNat (admission.activeRequests.toNat + 1)) :
    ∃ entry ∈ p.config.entries,
      entry.Covers inputTokens.toNat (admission.activeRequests.toNat + 1) ∧
      (∀ other ∈ p.config.entries,
        other.Covers inputTokens.toNat (admission.activeRequests.toNat + 1) → other ≠ entry →
          entry.strictlyBefore other) ∧
      p.evaluate inputTokens admission =
        ⟨decide (entry.predictedTtftP95Ms + p.config.safetyMarginMs ≤ p.config.ttftSloMs),
          entry.predictedTtftP95Ms⟩ := by
  obtain ⟨covering, hmem, hcovers⟩ := hcovered
  have hsome : (p.config.entries.find? (fun entry =>
      entry.covers inputTokens (admission.activeRequests + 1))).isSome :=
    List.find?_isSome.mpr ⟨covering, hmem, (covers_iff hactive).mpr hcovers⟩
  obtain ⟨entry, hfind⟩ := Option.isSome_iff_exists.mp hsome
  refine ⟨entry, mem_of_find?_eq_some hfind, ?_, ?_, ?_⟩
  · exact (covers_iff hactive).mp (List.find?_some (p := fun entry : SloProfileEntry K =>
      entry.covers inputTokens (admission.activeRequests + 1)) hfind)
  · intro other hother hcoversOther hne
    exact strictlyBefore_of_find hstrict hfind hother ((covers_iff hactive).mpr hcoversOther) hne
  · have hopen : ¬ (inputTokens = 0 ∨ admission.accepting = false) := by
      rw [haccepting]
      rintro (h | h)
      · rw [h] at hinput
        exact absurd hinput (by decide)
      · cases h
    have hfull : ¬ admission.maxActiveRequests ≤ admission.activeRequests := by
      rw [UInt64.le_iff_toNat_le, Nat.not_le]
      exact UInt64.lt_iff_toNat_lt.mp hactive
    rw [evaluate, if_neg hopen, if_neg hfull, hfind]

end Evaluate

section Policy
variable [Zero K] [Add K] [LinearOrder K] {config : SloAdmissionPolicyConfig K}
  {p : SloAdmissionPolicy K}

omit [Add K] in
theorem entries_of_create (h : create config = .ok p) :
    p.config.entries.Pairwise strictlyBefore ∧ (∀ e, e ∈ p.config.entries ↔ e ∈ config.entries) ∧
      p.config.safetyMarginMs = config.safetyMarginMs ∧ p.config.ttftSloMs = config.ttftSloMs := by
  obtain ⟨-, hdistinct, rfl⟩ := create_eq_ok.mp h
  exact ⟨pairwise_strictlyBefore (config.entries.pairwise_insertionSort before) hdistinct,
    fun _ => mem_insertionSort before, rfl, rfl⟩

omit [Add K] in
theorem create_of_perm (h : create config = .ok p) {entries : List (SloProfileEntry K)}
    (hperm : entries.Perm config.entries) :
    create { config with entries := entries } = .ok p := by
  obtain ⟨⟨hheader, hchecked⟩, hdistinct, rfl⟩ := create_eq_ok.mp h
  have hsort := insertionSort_eq_of_perm hperm hdistinct
  refine create_eq_ok.mpr ⟨⟨?_, fun entry hentry => hchecked entry (hperm.subset hentry)⟩, ?_, ?_⟩
  · have hempty : entries = [] ↔ config.entries = [] := by
      rw [← length_eq_zero_iff, ← length_eq_zero_iff, hperm.length_eq]
    simpa only [hempty] using hheader
  · rw [hsort]
    exact hdistinct
  · rw [hsort]

/-- The choice of a bucket: it does not depend on the order of the profile, and it falls on
a smallest bucket that covers the request, whose prediction alone decides. -/
theorem bucket_selection (h : create config = .ok p) :
    (∀ entries, entries.Perm config.entries →
      ∃ p', create { config with entries := entries } = .ok p' ∧
        ∀ inputTokens admission, p'.evaluate inputTokens admission =
          p.evaluate inputTokens admission) ∧
    ∀ inputTokens admission, admission.accepting = true → 0 < inputTokens →
      admission.activeRequests < admission.maxActiveRequests →
      ((∃ entry ∈ config.entries,
          entry.Covers inputTokens.toNat (admission.activeRequests.toNat + 1)) →
        ∃ entry ∈ config.entries,
          entry.Covers inputTokens.toNat (admission.activeRequests.toNat + 1) ∧
          (∀ other ∈ config.entries,
            other.Covers inputTokens.toNat (admission.activeRequests.toNat + 1) → other ≠ entry →
              ¬ other.Within entry) ∧
          (∀ other ∈ config.entries,
            other.Covers inputTokens.toNat (admission.activeRequests.toNat + 1) →
              entry.maxInputTokens ≤ other.maxInputTokens) ∧
          (p.evaluate inputTokens admission).predictedTtftP95Ms = entry.predictedTtftP95Ms ∧
          ((p.evaluate inputTokens admission).admitted = true ↔
            entry.predictedTtftP95Ms + config.safetyMarginMs ≤ config.ttftSloMs)) ∧
      ((∀ entry ∈ config.entries,
          ¬ entry.Covers inputTokens.toNat (admission.activeRequests.toNat + 1)) →
        (p.evaluate inputTokens admission).admitted = false) := by
  obtain ⟨hstrict, hmem, hmargin, hslo⟩ := entries_of_create h
  refine ⟨fun entries hperm => ⟨p, create_of_perm h hperm, fun _ _ => rfl⟩, ?_⟩
  intro inputTokens admission haccepting hinput hactive
  simp only [← hmem]
  refine ⟨?_, evaluate_of_none hactive⟩
  intro hcovered
  obtain ⟨entry, hentry, hcovers, hfirst, heval⟩ :=
    evaluate_of_covers hstrict haccepting hinput hactive hcovered
  refine ⟨entry, hentry, hcovers, ?_, ?_, ?_, ?_⟩
  · intro other hother hcoversOther hne
    exact not_within_of_strictlyBefore (hfirst other hother hcoversOther hne)
  · intro other hother hcoversOther
    by_cases hne : other = entry
    · rw [hne]
      exact UInt64.le_refl _
    · exact maxInputTokens_le_of_strictlyBefore (hfirst other hother hcoversOther hne)
  · rw [heval]
  · rw [heval, hmargin, hslo, decide_eq_true_iff]

end Policy

def smallProfile : SloAdmissionPolicyConfig ℚ :=
  { modelId := [1], revision := [1], engineFingerprint := [1], ttftSloMs := 50, safetyMarginMs := 3,
    entries := [⟨512, 4, 60⟩, ⟨128, 4, 40⟩, ⟨512, 2, 45⟩, ⟨128, 2, 30⟩] }

def openWorker (activeRequests : UInt64) : AdmissionSnapshot :=
  ⟨true, activeRequests, 0, 0, 8, 4096, 256⟩

theorem bucket_selection_smallProfile :
    ∃ p, create smallProfile = .ok p ∧ p.evaluate 200 (openWorker 0) = ⟨true, 45⟩ ∧
      p.evaluate 200 (openWorker 2) = ⟨false, 60⟩ ∧
      ∃ entry ∈ smallProfile.entries, entry.Covers 200 1 ∧ entry.predictedTtftP95Ms = 45 := by
  have hcreate : create smallProfile = .ok ⟨{ smallProfile with
      entries := smallProfile.entries.insertionSort before }⟩ := by decide +kernel
  have heval : evaluate ⟨{ smallProfile with
      entries := smallProfile.entries.insertionSort before }⟩ 200 (openWorker 0) = ⟨true, 45⟩ := by
    decide +kernel
  obtain ⟨entry, hentry, hcovers, -, -, hprediction, -⟩ :=
    ((bucket_selection hcreate).2 200 (openWorker 0) rfl (by decide) (by decide)).1
      ⟨⟨512, 2, 45⟩, by decide +kernel, by decide, by decide⟩
  rw [heval] at hprediction
  exact ⟨_, hcreate, heval, by decide +kernel, entry, hentry, hcovers, hprediction.symm⟩

/-! ## Smaller requests on a less loaded worker -/

def Increasing [LE K] (entries : List (SloProfileEntry K)) : Prop :=
  ∀ a ∈ entries, ∀ b ∈ entries, a.Within b → a.predictedTtftP95Ms ≤ b.predictedTtftP95Ms

def Meets [Add K] [LE K] (config : SloAdmissionPolicyConfig K) (entry : SloProfileEntry K) : Prop :=
  entry.predictedTtftP95Ms + config.safetyMarginMs ≤ config.ttftSloMs

/-- Where a bucket has a smaller input size and more active requests than one that meets the
target, it stands in for it on small requests unless the profile has a bucket of its size
in between. The buckets that stand in for others meet the target as well. -/
def Orderly [Add K] [LE K] (config : SloAdmissionPolicyConfig K) : Prop :=
  ∀ a ∈ config.entries, ∀ b ∈ config.entries, a.maxInputTokens < b.maxInputTokens →
    b.activeRequests < a.activeRequests →
    (∀ c ∈ config.entries, c.maxInputTokens = a.maxInputTokens →
      b.activeRequests ≤ c.activeRequests → a.activeRequests ≤ c.activeRequests) →
    Meets config b → Meets config a

structure FirstCovering (entries : List (SloProfileEntry K)) (entry : SloProfileEntry K)
    (inputTokens activeRequests : ℕ) : Prop where
  mem : entry ∈ entries
  covers : entry.Covers inputTokens activeRequests
  first : ∀ other ∈ entries, other.Covers inputTokens activeRequests → other ≠ entry →
    entry.strictlyBefore other

namespace FirstCovering
variable {a b : SloProfileEntry K} {n k : ℕ}

theorem unique (ha : FirstCovering entries a n k) (hb : FirstCovering entries b n k) : a = b := by
  by_contra hne
  have hab := ha.first b hb.mem hb.covers (Ne.symm hne)
  have hba := hb.first a ha.mem ha.covers hne
  simp only [strictlyBefore, UInt64.lt_iff_toNat_lt, ← UInt64.toNat_inj] at hab hba
  omega

theorem of_corner (h : entries.Pairwise strictlyBefore) (hmem : b ∈ entries) :
    FirstCovering entries b b.maxInputTokens.toNat b.activeRequests.toNat := by
  refine ⟨hmem, ⟨le_rfl, le_rfl⟩, ?_⟩
  intro other hother hcovers hne
  refine (strictlyBefore_or h hother hmem hne).resolve_left ?_
  intro hbefore
  exact not_within_of_strictlyBefore hbefore
    ⟨UInt64.le_iff_toNat_le.mpr hcovers.1, UInt64.le_iff_toNat_le.mpr hcovers.2⟩

/-- The bucket `a` decides on a request of its own size at the load of the smaller bucket `b`. -/
theorem of_least (h : entries.Pairwise strictlyBefore) (hmem : a ∈ entries)
    (hload : b.activeRequests < a.activeRequests)
    (hleast : ∀ c ∈ entries, c.maxInputTokens = a.maxInputTokens →
      b.activeRequests ≤ c.activeRequests → a.activeRequests ≤ c.activeRequests) :
    FirstCovering entries a a.maxInputTokens.toNat b.activeRequests.toNat := by
  refine ⟨hmem, ⟨le_rfl, (UInt64.lt_iff_toNat_lt.mp hload).le⟩, ?_⟩
  intro other hother hcovers hne
  refine (strictlyBefore_or h hother hmem hne).resolve_left ?_
  rintro (hless | ⟨hsame, hless⟩)
  · exact absurd hcovers.1 (Nat.not_le.mpr (UInt64.lt_iff_toNat_lt.mp hless))
  · have hle := hleast other hother hsame (UInt64.le_iff_toNat_le.mpr hcovers.2)
    rw [UInt64.le_iff_toNat_le] at hle
    rw [UInt64.lt_iff_toNat_lt] at hless
    omega

end FirstCovering

section Monotone
variable [Zero K] [Add K] [LinearOrder K] {config : SloAdmissionPolicyConfig K}
  {p : SloAdmissionPolicy K} {inputTokens : UInt64} {admission : AdmissionSnapshot}

theorem admitted_iff (h : create config = .ok p) (haccepting : admission.accepting = true)
    (hinput : 0 < inputTokens) (hactive : admission.activeRequests < admission.maxActiveRequests) :
    (p.evaluate inputTokens admission).admitted = true ↔
      ∃ entry, FirstCovering p.config.entries entry inputTokens.toNat
        (admission.activeRequests.toNat + 1) ∧ Meets config entry := by
  obtain ⟨hstrict, -, hmargin, hslo⟩ := entries_of_create h
  by_cases hcovered : ∃ entry ∈ p.config.entries,
      entry.Covers inputTokens.toNat (admission.activeRequests.toNat + 1)
  · obtain ⟨entry, hmem, hcovers, hfirst, heval⟩ :=
      evaluate_of_covers hstrict haccepting hinput hactive hcovered
    have hentry : FirstCovering p.config.entries entry _ _ := ⟨hmem, hcovers, hfirst⟩
    rw [heval, decide_eq_true_iff, hmargin, hslo]
    constructor
    · exact fun hmeets => ⟨entry, hentry, hmeets⟩
    · rintro ⟨other, hother, hmeets⟩
      rwa [hother.unique hentry] at hmeets
  · constructor
    · intro hadmitted
      push Not at hcovered
      rw [evaluate_of_none hactive hcovered] at hadmitted
      cases hadmitted
    · rintro ⟨entry, hentry, -⟩
      exact absurd ⟨entry, hentry.mem, hentry.covers⟩ hcovered

omit [Zero K] in
theorem Orderly.meets [AddRightMono K] (horderly : Orderly config)
    (hincreasing : Increasing config.entries) {small large : SloProfileEntry K} {n n' k k' : ℕ}
    (hn : n' ≤ n) (hk : k' ≤ k) (hlarge : FirstCovering config.entries large n k)
    (hsmall : FirstCovering config.entries small n' k') (hmeets : Meets config large) :
    Meets config small := by
  have hcovers : large.Covers n' k' := ⟨hn.trans hlarge.covers.1, hk.trans hlarge.covers.2⟩
  by_cases hne : large = small
  · rwa [← hne]
  have hbefore := hsmall.first large hlarge.mem hcovers hne
  by_cases hload : small.activeRequests ≤ large.activeRequests
  · have hwithin : small.Within large := ⟨maxInputTokens_le_of_strictlyBefore hbefore, hload⟩
    calc small.predictedTtftP95Ms + config.safetyMarginMs
        ≤ large.predictedTtftP95Ms + config.safetyMarginMs := by
          gcongr
          exact hincreasing small hsmall.mem large hlarge.mem hwithin
      _ ≤ config.ttftSloMs := hmeets
  have hless : large.activeRequests < small.activeRequests := by
    rwa [UInt64.le_iff_toNat_le, Nat.not_le, ← UInt64.lt_iff_toNat_lt] at hload
  have hinput : small.maxInputTokens < large.maxInputTokens := by
    rcases hbefore with h | ⟨-, h⟩
    · exact h
    · rw [UInt64.lt_iff_toNat_lt] at h hless
      omega
  refine horderly small hsmall.mem large hlarge.mem hinput hless ?_ hmeets
  -- A bucket of this size between both loads covers the small request and would come first.
  intro c hc hsize hbetween
  by_cases hself : c = small
  · rw [hself]
    exact UInt64.le_refl _
  have hcoversC : c.Covers n' k' := by
    refine ⟨?_, hcovers.2.trans (UInt64.le_iff_toNat_le.mp hbetween)⟩
    rw [hsize]
    exact hsmall.covers.1
  have hbeforeC := hsmall.first c hc hcoversC hself
  rw [strictlyBefore, hsize, UInt64.lt_iff_toNat_lt, UInt64.lt_iff_toNat_lt] at hbeforeC
  rw [UInt64.le_iff_toNat_le]
  omega

end Monotone

def Monotone [Zero K] [Add K] [LE K] [DecidableLE K] (p : SloAdmissionPolicy K) : Prop :=
  ∀ (inputTokens fewerTokens fewerRequests : UInt64) (admission : AdmissionSnapshot),
    admission.accepting = true → admission.activeRequests < admission.maxActiveRequests →
    (p.evaluate inputTokens admission).admitted = true →
    1 ≤ fewerTokens → fewerTokens ≤ inputTokens → fewerRequests ≤ admission.activeRequests →
    (p.evaluate fewerTokens { admission with activeRequests := fewerRequests }).admitted = true

/-- For predictions that grow with both measures: an admitted request stays admitted when it is
smaller and the worker is less loaded exactly if the profile is orderly. -/
theorem admission_monotone [Zero K] [Add K] [LinearOrder K] [AddRightMono K]
    {config : SloAdmissionPolicyConfig K} {p : SloAdmissionPolicy K} (h : create config = .ok p)
    (hincreasing : Increasing config.entries) : p.Monotone ↔ Orderly config := by
  obtain ⟨hstrict, hmem, -, -⟩ := entries_of_create h
  have hsame {entry : SloProfileEntry K} {n k : ℕ} :
      FirstCovering p.config.entries entry n k ↔ FirstCovering config.entries entry n k := by
    constructor
    · exact fun hentry => ⟨(hmem _).mp hentry.mem, hentry.covers,
        fun other hother => hentry.first other ((hmem _).mpr hother)⟩
    · exact fun hentry => ⟨(hmem _).mpr hentry.mem, hentry.covers,
        fun other hother => hentry.first other ((hmem _).mp hother)⟩
  constructor
  · -- The stand-in and the bucket it replaces decide at one load, so one snapshot tells them apart.
    intro hmonotone a ha b hb hsize hload hleast hmeets
    obtain ⟨⟨-, hchecked⟩, -, -⟩ := create_eq_ok.mp h
    have hpositive : b.activeRequests.toNat ≠ 0 :=
      fun hzero => (hchecked b hb).2.1 (UInt64.toNat_inj.mp hzero)
    have ha0 : a.maxInputTokens.toNat ≠ 0 :=
      fun hzero => (hchecked a ha).1 (UInt64.toNat_inj.mp hzero)
    let admission : AdmissionSnapshot := ⟨true, b.activeRequests - 1, 0, 0, b.activeRequests, 0, 0⟩
    have hone : (b.activeRequests - 1).toNat = b.activeRequests.toNat - 1 :=
      UInt64.toNat_sub_of_le _ _ (UInt64.le_iff_toNat_le.mpr (Nat.one_le_iff_ne_zero.mpr hpositive))
    have hactive : admission.activeRequests < admission.maxActiveRequests := by
      rw [UInt64.lt_iff_toNat_lt, hone]
      exact Nat.pred_lt hpositive
    have hsucc : admission.activeRequests.toNat + 1 = b.activeRequests.toNat := by
      rw [hone]
      omega
    have hinputA : 0 < a.maxInputTokens := UInt64.lt_iff_toNat_lt.mpr (Nat.pos_of_ne_zero ha0)
    have hinputB : 0 < b.maxInputTokens := by
      rw [UInt64.lt_iff_toNat_lt] at hsize hinputA ⊢
      omega
    have hlarge : (p.evaluate b.maxInputTokens admission).admitted = true := by
      rw [admitted_iff h rfl hinputB hactive, hsucc]
      exact ⟨b, .of_corner hstrict ((hmem b).mpr hb), hmeets⟩
    have hsmall := hmonotone b.maxInputTokens a.maxInputTokens admission.activeRequests admission
      rfl hactive hlarge (UInt64.le_iff_toNat_le.mpr (Nat.one_le_iff_ne_zero.mpr ha0))
      (UInt64.le_of_lt hsize) (UInt64.le_refl _)
    obtain ⟨entry, hentry, hmeetsEntry⟩ := (admitted_iff h rfl hinputA hactive).mp hsmall
    rw [hsucc] at hentry
    have hfirst := FirstCovering.of_least hstrict ((hmem a).mpr ha) hload
      (fun c hc => hleast c ((hmem c).mp hc))
    rwa [← hfirst.unique hentry] at hmeetsEntry
  · intro horderly inputTokens fewerTokens fewerRequests admission haccepting hactive hadmitted
      hpositive htokens hrequests
    rw [UInt64.le_iff_toNat_le] at hpositive htokens hrequests
    have hinput : 0 < inputTokens := by
      rw [UInt64.lt_iff_toNat_lt]
      exact lt_of_lt_of_le hpositive htokens
    have hfewer : 0 < fewerTokens := UInt64.lt_iff_toNat_lt.mpr hpositive
    let quieter : AdmissionSnapshot := { admission with activeRequests := fewerRequests }
    have hfewerActive : quieter.activeRequests < quieter.maxActiveRequests := by
      rw [UInt64.lt_iff_toNat_lt] at hactive ⊢
      exact lt_of_le_of_lt hrequests hactive
    have hquieter : quieter.accepting = true := haccepting
    have hload : fewerRequests.toNat + 1 ≤ admission.activeRequests.toNat + 1 := by omega
    obtain ⟨large, hlarge, hmeets⟩ := (admitted_iff h haccepting hinput hactive).mp hadmitted
    have hcovered : large.Covers fewerTokens.toNat (fewerRequests.toNat + 1) :=
      ⟨htokens.trans hlarge.covers.1, hload.trans hlarge.covers.2⟩
    obtain ⟨small, hmemS, hcoversS, hfirstS, -⟩ :=
      evaluate_of_covers hstrict hquieter hfewer hfewerActive ⟨large, hlarge.mem, hcovered⟩
    have hsmall : FirstCovering p.config.entries small _ _ := ⟨hmemS, hcoversS, hfirstS⟩
    refine (admitted_iff h hquieter hfewer hfewerActive).mpr ⟨small, hsmall, ?_⟩
    exact horderly.meets hincreasing htokens hload (hsame.mp hlarge) (hsame.mp hsmall) hmeets

instance (a b : SloProfileEntry K) : Decidable (a.Within b) := inferInstanceAs (Decidable (_ ∧ _))

/-- No grid: small requests were measured under a heavy load only, and meet the target there. -/
def lightProfile : SloAdmissionPolicyConfig ℚ :=
  { smallProfile with entries := [⟨16, 8, 10⟩, ⟨512, 2, 20⟩] }

theorem admission_monotone_lightProfile :
    ∃ p, create lightProfile = .ok p ∧ Orderly lightProfile ∧
      (p.evaluate 300 (openWorker 1)).admitted = true ∧
      (p.evaluate 10 (openWorker 0)).admitted = true := by
  have hcreate : create lightProfile = .ok ⟨{ lightProfile with
      entries := lightProfile.entries.insertionSort before }⟩ := by decide +kernel
  have hadmitted : (evaluate ⟨{ lightProfile with
      entries := lightProfile.entries.insertionSort before }⟩ 300 (openWorker 1)).admitted = true :=
    by decide +kernel
  have horderly : Orderly lightProfile := by
    unfold Orderly Meets
    decide +kernel
  have hincreasing : Increasing lightProfile.entries := by
    unfold Increasing
    decide +kernel
  refine ⟨_, hcreate, horderly, hadmitted, ?_⟩
  exact (admission_monotone hcreate hincreasing).mpr horderly 300 10 0 (openWorker 1) rfl
    (by decide) hadmitted (by decide) (by decide) (by decide)

/-- Large requests were measured under a light load only, and small ones under a heavy load
only. -/
def sparseProfile : SloAdmissionPolicyConfig ℚ :=
  { smallProfile with entries := [⟨16, 8, 100⟩, ⟨512, 2, 20⟩] }

/-- The large request is admitted and the small one is refused on the same idle worker. -/
theorem smaller_request_refused :
    ∃ p, create sparseProfile = .ok p ∧ Increasing sparseProfile.entries ∧
      (p.evaluate 300 (openWorker 0)).admitted = true ∧
      (p.evaluate 8 (openWorker 0)).admitted = false := by
  refine ⟨⟨{ sparseProfile with entries := sparseProfile.entries.insertionSort before }⟩,
    by decide +kernel, ?_, by decide +kernel, by decide +kernel⟩
  unfold Increasing
  decide +kernel

end SloAdmissionPolicy

end KimServing

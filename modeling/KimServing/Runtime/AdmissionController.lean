import Mathlib.Algebra.BigOperators.Group.Finset.Basic
import Mathlib.Algebra.Order.BigOperators.Group.Finset
import Mathlib.Data.Finset.Card
import Mathlib.Data.Finset.Image
import Mathlib.Tactic.Common

/-! # Admission

The budgets of the runtime: how many requests are active and how many input and
output tokens they have reserved. Every operation is one critical section of the
admission lock. The counters are machine words, and the limits are compared with
differences of them, so an account that has lost track of its leases would wrap.
-/
namespace KimServing

structure AdmissionConfig where
  maxActiveRequests : UInt64 := 8
  maxTotalInputTokens : UInt64 := 4096
  maxReservedOutputTokens : UInt64 := 256
  deriving DecidableEq

structure AdmissionRequest where
  requestId : UInt64 := 0
  inputTokens : UInt64 := 0
  reservedOutputTokens : UInt64 := 0
  deriving DecidableEq

structure AdmissionSnapshot where
  accepting : Bool
  activeRequests : UInt64
  reservedInputTokens : UInt64
  reservedOutputTokens : UInt64
  maxActiveRequests : UInt64
  maxTotalInputTokens : UInt64
  maxReservedOutputTokens : UInt64
  deriving DecidableEq

inductive AdmissionCode where
  | admitted | invalidRequest | notAccepting | duplicateRequestId
  | activeRequestLimit | inputTokenLimit | outputTokenLimit
  deriving DecidableEq

structure AdmissionState where
  config : AdmissionConfig
  accepting : Bool := false
  activeRequestIds : List UInt64 := []
  reservedInputTokens : UInt64 := 0
  reservedOutputTokens : UInt64 := 0
  deriving DecidableEq

namespace AdmissionState

def create (config : AdmissionConfig) : Except String AdmissionState :=
  if config.maxActiveRequests = 0 ∨ config.maxTotalInputTokens = 0 ∨
      config.maxReservedOutputTokens = 0 then
    .error "admission capacity limits must be greater than zero"
  else .ok { config := config }

def activeRequests (a : AdmissionState) : UInt64 := .ofNat a.activeRequestIds.length

def «open» (a : AdmissionState) : Bool × AdmissionState :=
  if a.activeRequestIds ≠ [] ∨ a.reservedInputTokens ≠ 0 ∨ a.reservedOutputTokens ≠ 0 then (false, a)
  else (true, { a with accepting := true })

def close (a : AdmissionState) : AdmissionState := { a with accepting := false }

def tryAcquire (a : AdmissionState) (r : AdmissionRequest) : AdmissionCode × AdmissionState :=
  if r.requestId = 0 ∨ r.inputTokens = 0 ∨ r.reservedOutputTokens = 0 then (.invalidRequest, a)
  else if a.accepting = false then (.notAccepting, a)
  else if r.requestId ∈ a.activeRequestIds then (.duplicateRequestId, a)
  else if a.config.maxActiveRequests ≤ a.activeRequests then (.activeRequestLimit, a)
  else if a.config.maxTotalInputTokens - a.reservedInputTokens < r.inputTokens then
    (.inputTokenLimit, a)
  else if a.config.maxReservedOutputTokens - a.reservedOutputTokens < r.reservedOutputTokens then
    (.outputTokenLimit, a)
  else
    (.admitted, { a with
      activeRequestIds := r.requestId :: a.activeRequestIds
      reservedInputTokens := a.reservedInputTokens + r.inputTokens
      reservedOutputTokens := a.reservedOutputTokens + r.reservedOutputTokens })

def release (a : AdmissionState) (r : AdmissionRequest) : AdmissionState :=
  if r.requestId ∈ a.activeRequestIds then
    { a with
      activeRequestIds := a.activeRequestIds.erase r.requestId
      reservedInputTokens := a.reservedInputTokens - r.inputTokens
      reservedOutputTokens := a.reservedOutputTokens - r.reservedOutputTokens }
  else a

def snapshot (a : AdmissionState) : AdmissionSnapshot where
  accepting := a.accepting
  activeRequests := a.activeRequests
  reservedInputTokens := a.reservedInputTokens
  reservedOutputTokens := a.reservedOutputTokens
  maxActiveRequests := a.config.maxActiveRequests
  maxTotalInputTokens := a.config.maxTotalInputTokens
  maxReservedOutputTokens := a.config.maxReservedOutputTokens

variable {a : AdmissionState} {r : AdmissionRequest}

theorem tryAcquire_admitted (h : (a.tryAcquire r).1 = .admitted) :
    a.accepting = true ∧ r.requestId ∉ a.activeRequestIds ∧
    a.activeRequests < a.config.maxActiveRequests ∧
    r.inputTokens ≤ a.config.maxTotalInputTokens - a.reservedInputTokens ∧
    r.reservedOutputTokens ≤ a.config.maxReservedOutputTokens - a.reservedOutputTokens ∧
    (a.tryAcquire r).2 = { a with
      activeRequestIds := r.requestId :: a.activeRequestIds
      reservedInputTokens := a.reservedInputTokens + r.inputTokens
      reservedOutputTokens := a.reservedOutputTokens + r.reservedOutputTokens } := by
  unfold tryAcquire at h ⊢
  split_ifs at h ⊢ with h1 h2 h3 h4 h5 h6
  exact ⟨by simpa using h2, h3, UInt64.not_le.mp h4, UInt64.not_lt.mp h5, UInt64.not_lt.mp h6, rfl⟩

theorem tryAcquire_refused (h : (a.tryAcquire r).1 ≠ .admitted) : (a.tryAcquire r).2 = a := by
  unfold tryAcquire at h ⊢
  split_ifs at h ⊢
  all_goals first | rfl | exact absurd rfl h

theorem tryAcquire_config (a : AdmissionState) (r : AdmissionRequest) :
    (a.tryAcquire r).2.config = a.config := by
  unfold tryAcquire
  split_ifs <;> rfl

theorem release_config (a : AdmissionState) (r : AdmissionRequest) :
    (a.release r).config = a.config := by
  unfold release
  split <;> rfl

theorem open_snd (a : AdmissionState) :
    a.open.2 = { a with accepting := a.open.1 || a.accepting } := by
  unfold AdmissionState.open
  split <;> rfl

theorem open_config (a : AdmissionState) : a.open.2.config = a.config := by
  unfold AdmissionState.open
  split <;> rfl

theorem release_tryAcquire (h : (a.tryAcquire r).1 = .admitted) :
    (a.tryAcquire r).2.release r = a := by
  obtain ⟨-, -, -, -, -, heq⟩ := tryAcquire_admitted h
  rw [heq, release, if_pos List.mem_cons_self, List.erase_cons_head]
  simp

/-- The budgets are those of the leases in `held`, whose ids are distinct, and
they keep to the limits. -/
structure Accounts {ι : Type*} (a : AdmissionState) (held : Finset ι)
    (lease : ι → AdmissionRequest) : Prop where
  nodup : a.activeRequestIds.Nodup
  active : ∀ id, id ∈ a.activeRequestIds ↔ ∃ i ∈ held, (lease i).requestId = id
  distinct : ∀ i ∈ held, ∀ j ∈ held, (lease i).requestId = (lease j).requestId → i = j
  input : a.reservedInputTokens.toNat = ∑ i ∈ held, (lease i).inputTokens.toNat
  output : a.reservedOutputTokens.toNat = ∑ i ∈ held, (lease i).reservedOutputTokens.toNat
  activeLimit : held.card ≤ a.config.maxActiveRequests.toNat
  inputLimit : a.reservedInputTokens ≤ a.config.maxTotalInputTokens
  outputLimit : a.reservedOutputTokens ≤ a.config.maxReservedOutputTokens

namespace Accounts
variable {ι : Type*} [DecidableEq ι] {held : Finset ι} {lease : ι → AdmissionRequest} {i : ι}

omit [DecidableEq ι] in
theorem length_eq (h : a.Accounts held lease) : a.activeRequestIds.length = held.card := by
  have himage : a.activeRequestIds.toFinset = held.image (fun i => (lease i).requestId) := by
    ext id
    rw [List.mem_toFinset, h.active, Finset.mem_image]
  rw [← List.toFinset_card_of_nodup h.nodup, himage]
  exact Finset.card_image_of_injOn (fun i hi j hj hij => h.distinct i hi j hj hij)

omit [DecidableEq ι] in
theorem activeRequests_toNat (h : a.Accounts held lease) : a.activeRequests.toNat = held.card := by
  have hlt := a.config.maxActiveRequests.toNat_lt
  have hle := h.activeLimit
  rw [activeRequests, UInt64.toNat_ofNat', h.length_eq]
  exact Nat.mod_eq_of_lt (by omega)

theorem toNat_add_of_le_sub {x y limit : UInt64} (hx : x ≤ limit) (hy : y ≤ limit - x) :
    (x + y).toNat = x.toNat + y.toNat ∧ x + y ≤ limit := by
  have hlt := limit.toNat_lt
  rw [UInt64.le_iff_toNat_le] at hx hy
  rw [UInt64.toNat_sub_of_le _ _ (UInt64.le_iff_toNat_le.mpr hx)] at hy
  have hsum : (x + y).toNat = x.toNat + y.toNat := by
    rw [UInt64.toNat_add]
    exact Nat.mod_eq_of_lt (by omega)
  exact ⟨hsum, UInt64.le_iff_toNat_le.mpr (by omega)⟩

theorem acquire (h : a.Accounts held lease) (hi : i ∉ held)
    (hadmitted : (a.tryAcquire (lease i)).1 = .admitted) :
    (a.tryAcquire (lease i)).2.Accounts (insert i held) lease := by
  obtain ⟨-, hnew, hcount, hinput, houtput, heq⟩ := tryAcquire_admitted hadmitted
  obtain ⟨hinputSum, hinputLimit⟩ := toNat_add_of_le_sub h.inputLimit hinput
  obtain ⟨houtputSum, houtputLimit⟩ := toNat_add_of_le_sub h.outputLimit houtput
  have hfresh : ∀ j ∈ held, (lease j).requestId ≠ (lease i).requestId :=
    fun j hj hid => hnew ((h.active _).mpr ⟨j, hj, hid⟩)
  rw [heq]
  refine ⟨List.nodup_cons.mpr ⟨hnew, h.nodup⟩, fun id => ?_, ?_, ?_, ?_, ?_, hinputLimit,
    houtputLimit⟩
  · simp only [List.mem_cons, h.active, Finset.mem_insert, or_and_right, exists_or, exists_eq_left]
    exact or_congr_left eq_comm
  · intro j hj k hk hid
    rcases Finset.mem_insert.mp hj with hji | hj' <;> rcases Finset.mem_insert.mp hk with hki | hk'
    · rw [hji, hki]
    · exact absurd (hji ▸ hid.symm) (hfresh k hk')
    · exact absurd (hki ▸ hid) (hfresh j hj')
    · exact h.distinct j hj' k hk' hid
  · rw [Finset.sum_insert hi, hinputSum, h.input, Nat.add_comm]
  · rw [Finset.sum_insert hi, houtputSum, h.output, Nat.add_comm]
  · rw [UInt64.lt_iff_toNat_lt, h.activeRequests_toNat] at hcount
    rw [Finset.card_insert_of_notMem hi]
    exact hcount

omit [DecidableEq ι] in
theorem tryAcquire_iff (h : a.Accounts held lease) (r : AdmissionRequest) :
    (a.tryAcquire r).1 = .admitted ↔
      (r.requestId ≠ 0 ∧ r.inputTokens ≠ 0 ∧ r.reservedOutputTokens ≠ 0) ∧ a.accepting = true ∧
      r.requestId ∉ a.activeRequestIds ∧ held.card < a.config.maxActiveRequests.toNat ∧
      a.reservedInputTokens.toNat + r.inputTokens.toNat ≤ a.config.maxTotalInputTokens.toNat ∧
      a.reservedOutputTokens.toNat + r.reservedOutputTokens.toNat ≤
        a.config.maxReservedOutputTokens.toNat := by
  have hcount : a.config.maxActiveRequests ≤ a.activeRequests ↔
      a.config.maxActiveRequests.toNat ≤ held.card := by
    rw [UInt64.le_iff_toNat_le, h.activeRequests_toNat]
  have hbudget {limit reserved x : UInt64} (hle : reserved ≤ limit) :
      limit - reserved < x ↔ limit.toNat < reserved.toNat + x.toNat := by
    rw [UInt64.lt_iff_toNat_lt, UInt64.toNat_sub_of_le _ _ hle]
    have := UInt64.le_iff_toNat_le.mp hle
    omega
  unfold tryAcquire
  simp only [hcount, hbudget h.inputLimit, hbudget h.outputLimit]
  split_ifs with hzero hclosed hknown hfull hinput houtput
  · refine iff_of_false (by simp) fun hall => ?_
    rcases hzero with hz | hz | hz
    · exact hall.1.1 hz
    · exact hall.1.2.1 hz
    · exact hall.1.2.2 hz
  · exact iff_of_false (by simp) fun hall => by simp [hclosed] at hall
  · exact iff_of_false (by simp) fun hall => hall.2.2.1 hknown
  · exact iff_of_false (by simp) fun hall => Nat.not_lt.mpr hfull hall.2.2.2.1
  · exact iff_of_false (by simp) fun hall => Nat.not_le.mpr hinput hall.2.2.2.2.1
  · exact iff_of_false (by simp) fun hall => Nat.not_le.mpr houtput hall.2.2.2.2.2
  · simp only [not_or] at hzero
    exact iff_of_true rfl ⟨hzero, by simpa using hclosed, hknown, Nat.not_le.mp hfull,
      Nat.not_lt.mp hinput, Nat.not_lt.mp houtput⟩

omit [DecidableEq ι] in
theorem open_iff (h : a.Accounts held lease) : a.open.1 = true ↔ held = ∅ := by
  have hnil : a.activeRequestIds = [] ↔ held = ∅ := by
    rw [← List.length_eq_zero_iff, h.length_eq, Finset.card_eq_zero]
  unfold AdmissionState.open
  split
  · next hbusy =>
    refine iff_of_false (by simp) fun hempty => ?_
    have hinput : a.reservedInputTokens.toNat = 0 := by rw [h.input, hempty, Finset.sum_empty]
    have houtput : a.reservedOutputTokens.toNat = 0 := by rw [h.output, hempty, Finset.sum_empty]
    rcases hbusy with hids | hin | hout
    · exact hids (hnil.mpr hempty)
    · exact hin (UInt64.toNat_inj.mp hinput)
    · exact hout (UInt64.toNat_inj.mp houtput)
  · next hidle =>
    simp only [ne_eq, not_or, not_not] at hidle
    exact iff_of_true rfl (hnil.mp hidle.1)

omit [DecidableEq ι] in
theorem covers (h : a.Accounts held lease) (hi : i ∈ held) :
    (lease i).requestId ∈ a.activeRequestIds ∧ (lease i).inputTokens ≤ a.reservedInputTokens ∧
      (lease i).reservedOutputTokens ≤ a.reservedOutputTokens := by
  refine ⟨(h.active _).mpr ⟨i, hi, rfl⟩, ?_, ?_⟩
  · rw [UInt64.le_iff_toNat_le, h.input]
    exact Finset.single_le_sum (f := fun i => (lease i).inputTokens.toNat)
      (fun _ _ => Nat.zero_le _) hi
  · rw [UInt64.le_iff_toNat_le, h.output]
    exact Finset.single_le_sum (f := fun i => (lease i).reservedOutputTokens.toNat)
      (fun _ _ => Nat.zero_le _) hi

theorem release (h : a.Accounts held lease) (hi : i ∈ held) :
    (a.release (lease i)).Accounts (held.erase i) lease := by
  obtain ⟨hmem, hinputLe, houtputLe⟩ := h.covers hi
  have hinput := Finset.add_sum_erase held (fun i => (lease i).inputTokens.toNat) hi
  have houtput := Finset.add_sum_erase held (fun i => (lease i).reservedOutputTokens.toNat) hi
  rw [← h.input] at hinput
  rw [← h.output] at houtput
  have hinputLimit := UInt64.le_iff_toNat_le.mp h.inputLimit
  have houtputLimit := UInt64.le_iff_toNat_le.mp h.outputLimit
  rw [AdmissionState.release, if_pos hmem]
  refine ⟨h.nodup.erase _, fun id => ?_, ?_, ?_, ?_, ?_, ?_, ?_⟩
  · rw [h.nodup.mem_erase_iff, h.active]
    constructor
    · rintro ⟨hne, j, hj, rfl⟩
      exact ⟨j, Finset.mem_erase.mpr ⟨fun hji => hne (by rw [hji]), hj⟩, rfl⟩
    · rintro ⟨j, hj, rfl⟩
      obtain ⟨hji, hj⟩ := Finset.mem_erase.mp hj
      exact ⟨fun hid => hji (h.distinct j hj i hi hid), j, hj, rfl⟩
  · intro j hj k hk hid
    exact h.distinct j (Finset.mem_of_mem_erase hj) k (Finset.mem_of_mem_erase hk) hid
  · rw [UInt64.toNat_sub_of_le _ _ hinputLe]
    omega
  · rw [UInt64.toNat_sub_of_le _ _ houtputLe]
    omega
  · exact (Finset.card_le_card (Finset.erase_subset _ _)).trans h.activeLimit
  · rw [UInt64.le_iff_toNat_le, UInt64.toNat_sub_of_le _ _ hinputLe]
    exact (Nat.sub_le _ _).trans hinputLimit
  · rw [UInt64.le_iff_toNat_le, UInt64.toNat_sub_of_le _ _ houtputLe]
    exact (Nat.sub_le _ _).trans houtputLimit

theorem reindex (h : a.Accounts held lease) {κ : Type*} {held' : Finset κ}
    {lease' : κ → AdmissionRequest} (place : κ → ι) (hinj : Set.InjOn place held')
    (himage : held'.image place = held) (hlease : ∀ k ∈ held', lease' k = lease (place k)) :
    a.Accounts held' lease' := by
  subst himage
  refine ⟨h.nodup, fun id => ?_, fun k hk l hl hid => ?_, ?_, ?_, ?_, h.inputLimit, h.outputLimit⟩
  · rw [h.active]
    constructor
    · rintro ⟨i, hi, rfl⟩
      obtain ⟨k, hk, rfl⟩ := Finset.mem_image.mp hi
      exact ⟨k, hk, by rw [hlease k hk]⟩
    · rintro ⟨k, hk, rfl⟩
      exact ⟨place k, Finset.mem_image_of_mem place hk, by rw [hlease k hk]⟩
  · rw [hlease k hk, hlease l hl] at hid
    exact hinj hk hl (h.distinct _ (Finset.mem_image_of_mem place hk) _
      (Finset.mem_image_of_mem place hl) hid)
  · rw [h.input, Finset.sum_image hinj]
    exact Finset.sum_congr rfl fun k hk => by rw [hlease k hk]
  · rw [h.output, Finset.sum_image hinj]
    exact Finset.sum_congr rfl fun k hk => by rw [hlease k hk]
  · rw [← Finset.card_image_of_injOn hinj]
    exact h.activeLimit

theorem congr (h : a.Accounts held lease) {lease' : ι → AdmissionRequest}
    (heq : ∀ i ∈ held, lease' i = lease i) : a.Accounts held lease' :=
  h.reindex id (Set.injOn_id _) Finset.image_id heq

theorem move (h : a.Accounts held lease) {j : ι} (hi : i ∈ held) (hj : j ∉ held)
    {lease' : ι → AdmissionRequest} (hmoved : lease' j = lease i)
    (hothers : ∀ k ∈ held.erase i, lease' k = lease k) :
    a.Accounts (insert j (held.erase i)) lease' := by
  have hne : ∀ k ∈ held, k ≠ j := fun k hk hkj => hj (hkj ▸ hk)
  refine h.reindex (fun k => if k = j then i else k) ?_ ?_ ?_
  · intro k hk l hl hkl
    simp only [Finset.coe_insert, Finset.coe_erase, Set.mem_insert_iff, Set.mem_sdiff] at hk hl
    grind
  · ext k
    simp only [Finset.mem_image, Finset.mem_insert, Finset.mem_erase]
    grind
  · intro k hk
    rcases Finset.mem_insert.mp hk with rfl | hk
    · rw [if_pos rfl, hmoved]
    · rw [if_neg (hne k (Finset.mem_of_mem_erase hk)), hothers k hk]

omit [DecidableEq ι] in
theorem setAccepting (h : a.Accounts held lease) (accepting : Bool) :
    Accounts { a with accepting := accepting } held lease :=
  { h with }

end Accounts

end AdmissionState

end KimServing

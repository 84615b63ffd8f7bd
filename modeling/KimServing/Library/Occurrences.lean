import Mathlib.Data.List.Basic
import Mathlib.Data.List.Count
import Mathlib.Tactic.Common

/-! # Positions in a history

A history lists its newest entry first, and the position of an entry is the
number of entries before it in time. Positions never change while a history
grows, so data about an entry can be kept under its position.
-/
namespace KimServing.Library
open Function List
variable {α : Type*} [DecidableEq α]

variable {a : α} {l : List α}

def lastIndex (a : α) : List α → Option ℕ
  | [] => none
  | b :: bs => if b = a then some bs.length else lastIndex a bs

def indices (a : α) : List α → List ℕ
  | [] => []
  | b :: bs => if b = a then indices a bs ++ [bs.length] else indices a bs

theorem lt_of_mem_indices {n : ℕ} (h : n ∈ indices a l) : n < l.length := by
  induction l with
  | nil => cases h
  | cons b bs ih =>
    simp only [indices] at h
    rw [length_cons]
    split at h
    · rcases mem_append.mp h with h | h
      · exact Nat.lt_succ_of_lt (ih h)
      · rw [mem_singleton.mp h]
        exact Nat.lt_succ_self _
    · exact Nat.lt_succ_of_lt (ih h)

theorem indices_nodup (a : α) (l : List α) : (indices a l).Nodup := by
  induction l with
  | nil => exact nodup_nil
  | cons b bs ih =>
    simp only [indices]
    split
    · refine nodup_append.mpr ⟨ih, by simp, ?_⟩
      rintro n hn m hm rfl
      rw [mem_singleton.mp hm] at hn
      exact Nat.lt_irrefl _ (lt_of_mem_indices hn)
    · exact ih

theorem length_indices (a : α) (l : List α) : (indices a l).length = l.count a := by
  induction l with
  | nil => rfl
  | cons b bs ih =>
    simp only [indices, count_cons, beq_iff_eq]
    split <;> simp [ih]

theorem indices_of_lastIndex {n : ℕ} (h : lastIndex a l = some n) :
    ∃ earlier, indices a l = earlier ++ [n] := by
  induction l with
  | nil => cases h
  | cons b bs ih =>
    simp only [lastIndex, indices] at h ⊢
    split at h
    · next hb =>
      cases h
      exact ⟨indices a bs, by rw [if_pos hb]⟩
    · next hb =>
      rw [if_neg hb]
      exact ih h

theorem mem_indices_of_lastIndex {n : ℕ} (h : lastIndex a l = some n) : n ∈ indices a l := by
  obtain ⟨earlier, he⟩ := indices_of_lastIndex h
  simp [he]

theorem indices_unique {b : α} {n : ℕ} (ha : n ∈ indices a l) (hb : n ∈ indices b l) : a = b := by
  induction l with
  | nil => cases ha
  | cons x xs ih =>
    simp only [indices] at ha hb
    split at ha
    · next hxa =>
      split at hb
      · next hxb => exact hxa.symm.trans hxb
      · have hlt := lt_of_mem_indices hb
        rcases mem_append.mp ha with ha | ha
        · exact ih ha hb
        · rw [mem_singleton.mp ha] at hlt
          exact absurd hlt (Nat.lt_irrefl _)
    · have hlt := lt_of_mem_indices ha
      split at hb
      · rcases mem_append.mp hb with hb | hb
        · exact ih ha hb
        · rw [mem_singleton.mp hb] at hlt
          exact absurd hlt (Nat.lt_irrefl _)
      · exact ih ha hb

theorem lastIndex_of_newest {n : ℕ} (h : n ∈ indices a l) (hn : n + 1 = l.length) :
    lastIndex a l = some n := by
  cases l with
  | nil => cases h
  | cons =>
    rw [length_cons] at hn
    simp only [indices, lastIndex] at h ⊢
    split at h
    · next hb =>
      rw [if_pos hb]
      congr 1
      omega
    · have := lt_of_mem_indices h
      omega

section Words
variable {β : Type*}

theorem flatMap_indices_update {a : α} {l : List α} {n : ℕ} (h : lastIndex a l = some n)
    (words : ℕ → List β) (x : β) :
    (indices a l).flatMap (update words n (words n ++ [x])) =
      (indices a l).flatMap words ++ [x] := by
  obtain ⟨earlier, he⟩ := indices_of_lastIndex h
  have hnodup := indices_nodup a l
  rw [he] at hnodup ⊢
  have hfresh : n ∉ earlier := by
    intro hmem
    exact (nodup_append.mp hnodup).2.2 n hmem n (mem_singleton_self n) rfl
  have hsame : earlier.flatMap (update words n (words n ++ [x])) =
      earlier.flatMap words := by
    refine flatMap_congr ?_
    intro i hi
    refine update_of_ne ?_ _ _
    rintro rfl
    exact hfresh hi
  simp [flatMap_append, hsame]

theorem flatMap_indices_update_of_ne {a b : α} {l : List α} {n : ℕ} (h : n ∈ indices b l)
    (hab : a ≠ b) (words : ℕ → List β) (w : List β) :
    (indices a l).flatMap (update words n w) = (indices a l).flatMap words := by
  refine flatMap_congr ?_
  intro i hi
  refine update_of_ne ?_ _ _
  rintro rfl
  exact hab (indices_unique hi h)

theorem countP_flatMap_le {l : List ℕ} {words : ℕ → List β} {p : β → Bool}
    (hle : ∀ i ∈ l, (words i).countP p ≤ 1) : (l.flatMap words).countP p ≤ l.length := by
  induction l with
  | nil => simp
  | cons i l ih =>
    have hhead := hle i mem_cons_self
    have htail := ih (fun j hj => hle j (mem_cons_of_mem i hj))
    simp only [flatMap_cons, countP_append, length_cons]
    omega

theorem exists_marked {l : List ℕ} {words : ℕ → List β} {p : β → Bool}
    (hle : ∀ i ∈ l, (words i).countP p ≤ 1) (h : l.length ≤ (l.flatMap words).countP p) :
    ∀ i ∈ l, ∃ x ∈ words i, p x = true := by
  induction l with
  | nil => simp
  | cons i l ih =>
    have htail : (l.flatMap words).countP p ≤ l.length := countP_flatMap_le (fun j hj =>
      hle j (mem_cons_of_mem i hj))
    have hhead := hle i mem_cons_self
    simp only [flatMap_cons, countP_append, length_cons] at h
    intro j hj
    rcases mem_cons.mp hj with rfl | hj
    · exact countP_pos_iff.mp (by omega)
    · exact ih (fun k hk => hle k (mem_cons_of_mem i hk)) (by omega) j hj

end Words

end KimServing.Library

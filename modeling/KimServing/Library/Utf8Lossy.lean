import KimServing.Library.Incremental
import KimServing.Library.Utf8

/-! # Decoding UTF-8 with replacement

The decoder reads bytes one at a time. A byte that cannot continue the pending
character ends it with the replacement character and is read again as a first
byte; bytes that end inside a character leave one replacement character.
-/
namespace KimServing.Library.Utf8
open Incremental

def replacement : ℕ := 0xfffd

/-- The ranges that the missing bytes of a character have to lie in, and the bits of
the bytes read so far. -/
structure Pending where
  ranges : List (UInt8 × UInt8) := []
  bits : ℕ := 0
  deriving DecidableEq

def firstBits (b : UInt8) (following : ℕ) : ℕ := b.toNat % 2 ^ (6 - following)

def pushFirst (b : UInt8) : Pending × List ℕ :=
  match follow b with
  | none => ({}, [replacement])
  | some [] => ({}, [b.toNat])
  | some ranges => (⟨ranges, firstBits b ranges.length⟩, [])

def push (p : Pending) (b : UInt8) : Pending × List ℕ :=
  match p.ranges with
  | [] => pushFirst b
  | (low, high) :: rest =>
    if low ≤ b ∧ b ≤ high then
      let bits := p.bits * 2 ^ 6 + b.toNat % 2 ^ 6
      if rest = [] then ({}, [bits]) else (⟨rest, bits⟩, [])
    else ((pushFirst b).1, replacement :: (pushFirst b).2)

def Pending.tail (p : Pending) : List ℕ := if p.ranges = [] then [] else [replacement]

def lossy (bytes : List UInt8) : List ℕ :=
  (run push {} bytes).2 ++ (run push {} bytes).1.tail

/-- The bytes end between two characters. -/
def Complete (bytes : List UInt8) : Prop := (run push {} bytes).1.ranges = []

instance : DecidablePred Complete := fun bytes =>
  inferInstanceAs (Decidable ((run push {} bytes).1.ranges = []))

/-- Cutting the bytes here does not show: the cut is between two characters, or the
character that it divides is the replacement character itself. -/
def CleanCut (before after : List UInt8) : Prop :=
  Complete before ∨ (run push (run push {} before).1 after).2.head? = some replacement

instance (before after : List UInt8) : Decidable (CleanCut before after) :=
  inferInstanceAs (Decidable (_ ∨ _))

theorem lossy_append (xs ys : List UInt8) :
    lossy (xs ++ ys) = (run push {} xs).2 ++
      ((run push (run push {} xs).1 ys).2 ++ (run push (run push {} xs).1 ys).1.tail) := by
  rw [lossy, run_append, List.append_assoc]

theorem run_of_validFrom {p : Pending} {bytes : List UInt8}
    (h : validFrom p.ranges bytes = true) : (run push p bytes).1.ranges = [] := by
  induction bytes generalizing p with
  | nil =>
    cases hp : p.ranges with
    | nil => exact hp
    | cons =>
      rw [hp] at h
      cases h
  | cons b bytes ih =>
    rw [run_cons]
    apply ih
    rcases p with ⟨ranges, bits⟩
    cases ranges with
    | nil =>
      simp only [validFrom] at h
      simp only [push, pushFirst]
      cases hf : follow b with
      | none => simp [hf] at h
      | some ranges =>
        rw [hf] at h
        cases ranges with
        | nil | cons => exact h
    | cons =>
      simp only [validFrom, Bool.and_eq_true, decide_eq_true_eq] at h
      simp only [push, if_pos h.1]
      split
      · next hrest => exact hrest ▸ h.2
      · exact h.2

theorem complete_of_valid {bytes : List UInt8} (h : valid bytes = true) : Complete bytes :=
  run_of_validFrom h

theorem length_tail_le (p : Pending) (bytes : List UInt8) :
    p.tail.length ≤ ((run push p bytes).2 ++ (run push p bytes).1.tail).length := by
  induction bytes generalizing p with
  | nil => exact Nat.le_refl _
  | cons b bytes ih =>
    rw [run_cons]
    rcases p with ⟨ranges, bits⟩
    cases ranges with
    | nil => exact Nat.zero_le _
    | cons r rest =>
      simp only [push]
      split
      · split
        · simp [Pending.tail]
        · next hrest =>
          have hnext := ih ⟨rest, bits * 2 ^ 6 + b.toNat % 2 ^ 6⟩
          simpa [Pending.tail, hrest] using hnext
      · simp [Pending.tail]

theorem length_lossy_le (xs ys : List UInt8) : (lossy xs).length ≤ (lossy (xs ++ ys)).length := by
  have htail := length_tail_le (run push {} xs).1 ys
  rw [List.length_append] at htail
  rw [lossy_append, lossy]
  simp only [List.length_append]
  omega

theorem lossy_isPrefix_iff {xs ys : List UInt8} (h : Complete (xs ++ ys)) :
    lossy xs <+: lossy (xs ++ ys) ↔ CleanCut xs ys := by
  have htail : (run push (run push {} xs).1 ys).1.tail = [] := by
    rw [Complete, run_append] at h
    exact if_pos h
  rw [lossy_append, lossy, List.prefix_append_right_inj, htail, List.append_nil, CleanCut, Complete]
  by_cases hpending : (run push {} xs).1.ranges = []
  · simp [Pending.tail, hpending]
  · simp only [Pending.tail, hpending, if_false, false_or]
    cases (run push (run push {} xs).1 ys).2 with
    | nil => simp
    | cons => simp [eq_comm]

end KimServing.Library.Utf8

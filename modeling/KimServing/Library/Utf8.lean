import Mathlib.Algebra.Order.Ring.Nat
import Mathlib.Data.Nat.Notation
import Mathlib.Tactic.Common

/-! # Byte strings and UTF-8

Strings of C++ programs are byte sequences. A literal stands for its UTF-8
bytes, and a checker reads a byte sequence with the list of the ranges that the
next bytes of an unfinished character have to lie in.
-/
namespace KimServing.Library

def utf8 (s : String) : List UInt8 := s.toUTF8.data.toList

theorem utf8_injective : Function.Injective utf8 := by
  intro s t h
  apply String.toByteArray_inj.mp
  exact ByteArray.ext (Array.toList_inj.mp h)

theorem utf8_inj {s t : String} : utf8 s = utf8 t ↔ s = t := utf8_injective.eq_iff

namespace Utf8

variable {bs : List UInt8}

def follow (b : UInt8) : Option (List (UInt8 × UInt8)) :=
  if b ≤ 0x7f then some []
  else if b < 0xc2 then none
  else if b ≤ 0xdf then some [(0x80, 0xbf)]
  else if b = 0xe0 then some [(0xa0, 0xbf), (0x80, 0xbf)]
  else if b = 0xed then some [(0x80, 0x9f), (0x80, 0xbf)]
  else if b ≤ 0xef then some [(0x80, 0xbf), (0x80, 0xbf)]
  else if b = 0xf0 then some [(0x90, 0xbf), (0x80, 0xbf), (0x80, 0xbf)]
  else if b ≤ 0xf3 then some [(0x80, 0xbf), (0x80, 0xbf), (0x80, 0xbf)]
  else if b = 0xf4 then some [(0x80, 0x8f), (0x80, 0xbf), (0x80, 0xbf)]
  else none

def validFrom : List (UInt8 × UInt8) → List UInt8 → Bool
  | pending, [] => pending.isEmpty
  | (low, high) :: pending, b :: bs => decide (low ≤ b ∧ b ≤ high) && validFrom pending bs
  | [], b :: bs =>
    match follow b with
    | none => false
    | some pending => validFrom pending bs

def valid (bs : List UInt8) : Bool := validFrom [] bs

theorem valid_of_ascii (h : ∀ b ∈ bs, b ≤ 0x7f) : valid bs = true := by
  induction bs with
  | nil => rfl
  | cons b bs ih =>
    have hb : follow b = some [] := if_pos (h b List.mem_cons_self)
    simp only [valid, validFrom, hb]
    exact ih (fun c hc => h c (List.mem_cons_of_mem b hc))

def Continues (b : UInt8) : Prop := 0x80 ≤ b ∧ b ≤ 0xbf
  deriving Decidable

theorem follow_continues {b : UInt8} {pending : List (UInt8 × UInt8)}
    (h : follow b = some pending) :
    ¬ Continues b ∧ ∀ range ∈ pending, 0x80 ≤ range.1 ∧ range.2 ≤ 0xbf := by
  unfold follow at h
  unfold Continues
  split_ifs at h with h1 h2 h3 h4 h5 h6 h7 h8 h9
  all_goals cases h
  all_goals refine ⟨?_, by
    simp only [List.forall_mem_cons, List.not_mem_nil, false_implies, implies_true, and_true] <;>
      decide⟩
  all_goals
    simp only [UInt8.le_iff_toNat_le, UInt8.lt_iff_toNat_lt, ← UInt8.toNat_inj] at *
    simp only [UInt8.reduceToNat] at *
    omega

theorem validFrom_take_iff {pending : List (UInt8 × UInt8)} (n : ℕ)
    (hpending : ∀ range ∈ pending, 0x80 ≤ range.1 ∧ range.2 ≤ 0xbf)
    (h : validFrom pending bs = true) :
    validFrom pending (bs.take n) = true ↔ ∀ b ∈ bs[n]?, ¬ Continues b := by
  induction bs generalizing pending n with
  | nil => simp [h]
  | cons b bs ih =>
    cases pending with
    | nil =>
      simp only [validFrom] at h
      cases hb : follow b with
      | none => simp [hb] at h
      | some =>
        obtain ⟨hfirst, hranges⟩ := follow_continues hb
        simp only [hb] at h
        cases n with
        | zero => simpa [validFrom] using hfirst
        | succ n => simpa [validFrom, hb] using ih n hranges h
    | cons =>
      obtain ⟨hrange, hranges⟩ := List.forall_mem_cons.mp hpending
      simp only [validFrom, Bool.and_eq_true, decide_eq_true_eq] at h
      obtain ⟨⟨hlow, hhigh⟩, h⟩ := h
      cases n with
      | zero =>
        have hb : Continues b := ⟨UInt8.le_trans hrange.1 hlow, UInt8.le_trans hhigh hrange.2⟩
        simpa [validFrom] using hb
      | succ n => simpa [validFrom, hlow, hhigh] using ih n hranges h

theorem valid_take_iff (n : ℕ) (h : valid bs = true) :
    valid (bs.take n) = true ↔ ∀ b ∈ bs[n]?, ¬ Continues b :=
  validFrom_take_iff n (fun _ hr => absurd hr List.not_mem_nil) h

end Utf8

end KimServing.Library

import Mathlib.Data.List.Basic
import Mathlib.Tactic.Common

/-! # What a computation with exceptions may end with

A computation meets a specification when it returns a value with the postcondition or
raises one of the allowed exceptions. The rules follow the way computations are built.
-/
namespace KimServing.Library
variable {ε α β : Type} {allowed allowed' : ε → Prop} {P : α → Prop} {Q : β → Prop}

def Meets (allowed : ε → Prop) (P : α → Prop) : Except ε α → Prop
  | .ok a => P a
  | .error e => allowed e

namespace Meets
variable {x y : Except ε α} {f : α → Except ε β}

variable {e : ε}

theorem ok {a : α} (h : P a) : Meets allowed P (.ok a : Except ε α) := h

theorem error (h : allowed e) : Meets allowed P (.error e : Except ε α) := h

theorem bind (hx : Meets allowed P x) (hf : ∀ a, P a → Meets allowed Q (f a)) :
    Meets allowed Q (x >>= f) := by
  cases x with
  | error => exact hx
  | ok a => exact hf a hx

theorem mono {P' : α → Prop} (hx : Meets allowed P x) (h : ∀ a, P a → P' a) :
    Meets allowed P' x := by
  cases x with
  | error => exact hx
  | ok a => exact h a hx

theorem ite {c : Prop} [Decidable c] (hx : c → Meets allowed P x) (hy : ¬c → Meets allowed P y) :
    Meets allowed P (if c then x else y) := by
  split
  next h => exact hx h
  next h => exact hy h

theorem mapM {xs : List α} (h : ∀ a ∈ xs, Meets allowed Q (f a)) :
    Meets allowed (fun ys => ys.length = xs.length ∧ ∀ b ∈ ys, Q b) (xs.mapM f) := by
  induction xs with
  | nil => exact ⟨rfl, by simp⟩
  | cons a xs ih =>
    rw [List.mapM_cons]
    refine (h a List.mem_cons_self).bind fun b hb => ?_
    refine (ih fun c hc => h c (List.mem_cons_of_mem a hc)).bind fun ys hys => ?_
    refine ⟨by simp [hys.1], ?_⟩
    rw [List.forall_mem_cons]
    exact ⟨hb, hys.2⟩

theorem returned {a : α} (hx : Meets allowed P x) (h : x = .ok a) : P a := by
  subst h
  exact hx

theorem raised (hx : Meets allowed P x) (h : x = .error e) : allowed e := by
  subst h
  exact hx

/-! When a sequence raises an exception: the first part raises it, or the second one is
reached and raises it. -/

theorem bind_eq_error {R₁ R₂ : Prop} (hx : x = .error e ↔ R₁)
    (hf : ∀ a, x = .ok a → (f a = .error e ↔ R₂)) :
    (x >>= f) = .error e ↔ R₁ ∨ x.isOk = true ∧ R₂ := by
  rw [← hx]
  cases x with
  | ok a => exact (hf a rfl).trans (by simp [Except.isOk, Except.toBool])
  | error e' =>
    change (Except.error e' : Except ε β) = .error e ↔ _
    simp [Except.isOk, Except.toBool]

theorem error_iff_false (hx : Meets allowed P x) (he : ¬ allowed e) : x = .error e ↔ False :=
  iff_false_intro fun h => he (hx.raised h)

theorem bind_eq_error_right (hx : Meets allowed P x) (he : ¬ allowed e) {R : Prop}
    (hf : ∀ a, P a → (f a = .error e ↔ R)) : (x >>= f) = .error e ↔ x.isOk = true ∧ R :=
  (bind_eq_error (hx.error_iff_false he) fun a ha => hf a (hx.returned ha)).trans
    (by simp)

theorem bind_eq_error_left (he : ¬ allowed e) (hf : ∀ a, Meets allowed Q (f a)) :
    (x >>= f) = .error e ↔ x = .error e :=
  (bind_eq_error Iff.rfl fun a _ => (hf a).error_iff_false he).trans (by simp)

end Meets

end KimServing.Library

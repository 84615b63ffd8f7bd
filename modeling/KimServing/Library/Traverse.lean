import Mathlib.Data.List.Forall2

/-! # Lists read element by element

A reader that may fail is applied to every element of a list and stops at the first
failure. A list that was read is related to its source element by element, so what two
sources exclude of each other carries over to what was read from them.
-/
namespace KimServing.Library
open List
variable {ε α β : Type} {f : α → Except ε β} {xs : List α} {ys : List β}

theorem mapM_eq_ok : xs.mapM f = .ok ys ↔ List.Forall₂ (fun x y => f x = .ok y) xs ys := by
  induction xs generalizing ys with
  | nil =>
    rw [mapM_nil, forall₂_nil_left_iff]
    exact ⟨fun h => (Except.ok.inj h).symm, fun h => by rw [h]; rfl⟩
  | cons x xs ih =>
    rw [mapM_cons, forall₂_cons_left_iff]
    constructor
    · intro h
      cases hx : f x with
      | error =>
        rw [hx] at h
        cases h
      | ok y =>
        cases hxs : xs.mapM f with
        | error =>
          rw [hx, hxs] at h
          cases h
        | ok rest =>
          rw [hx, hxs] at h
          exact ⟨y, rest, rfl, ih.mp hxs, (Except.ok.inj h).symm⟩
    · rintro ⟨y, rest, hx, hxs, rfl⟩
      rw [hx, ih.mpr hxs]
      rfl

theorem mapM_ok {g : α → β} (h : ∀ x ∈ xs, f x = .ok (g x)) : xs.mapM f = .ok (xs.map g) := by
  rw [mapM_eq_ok, forall₂_map_right_iff, forall₂_same]
  exact h

theorem exists_source_of_mem (h : List.Forall₂ (fun x y => f x = .ok y) xs ys) {y : β}
    (hy : y ∈ ys) : ∃ x ∈ xs, f x = .ok y := by
  induction h with
  | nil => cases hy
  | @cons x y' xs ys hx _ ih =>
    rcases mem_cons.mp hy with rfl | hy
    · exact ⟨x, mem_cons_self, hx⟩
    · obtain ⟨x', hx', hread⟩ := ih hy
      exact ⟨x', mem_cons_of_mem _ hx', hread⟩

theorem exists_read_of_mem (h : List.Forall₂ (fun x y => f x = .ok y) xs ys) {x : α}
    (hx : x ∈ xs) : ∃ y ∈ ys, f x = .ok y := by
  induction h with
  | nil => cases hx
  | @cons x' y xs ys hread _ ih =>
    rcases mem_cons.mp hx with rfl | hx
    · exact ⟨y, mem_cons_self, hread⟩
    · obtain ⟨y', hy', hread'⟩ := ih hx
      exact ⟨y', mem_cons_of_mem _ hy', hread'⟩

theorem pairwise_read (h : List.Forall₂ (fun x y => f x = .ok y) xs ys) {R : α → α → Prop}
    {S : β → β → Prop} (hxs : xs.Pairwise R)
    (hread : ∀ x x' y y', R x x' → f x = .ok y → f x' = .ok y' → S y y') : ys.Pairwise S := by
  induction h with
  | nil => exact .nil
  | @cons x y xs ys hx hrest ih =>
    obtain ⟨hfirst, hxs⟩ := pairwise_cons.mp hxs
    refine pairwise_cons.mpr ⟨?_, ih hxs⟩
    intro y' hy'
    obtain ⟨x', hx', hread'⟩ := exists_source_of_mem hrest hy'
    exact hread x x' y y' (hfirst x' hx') hx hread'

end KimServing.Library

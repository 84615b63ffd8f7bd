import Mathlib.Data.List.Induction
import Mathlib.Order.Basic
import Mathlib.Order.Bounds.Basic
import Mathlib.Tactic.Common

/-! # Executions of guarded transition systems

A system is a partial step function: an action that is not enabled has no
successor. Executions are words of actions, and a guard restricts which action
an environment may take in which state. Every safety result about a system is
two facts about one step, put together by the rules of this file.
-/
namespace KimServing.Library
open List
variable {S A : Type*}

variable {as : List A} {t : S} {I : S → Prop}

/-- The state after a word of actions, when each of them was enabled. -/
def exec (step : S → A → Option S) : S → List A → Option S
  | s, [] => some s
  | s, a :: as => (step s a).bind (fun t => exec step t as)

/-- Every action of the word is taken in a state that meets the guard. -/
def Along (step : S → A → Option S) (guard : S → A → Prop) : S → List A → Prop
  | _, [] => True
  | s, a :: as => guard s a ∧ ∀ t, step s a = some t → Along step guard t as

variable {step : S → A → Option S} {guard : S → A → Prop}

theorem of_guard {c : Prop} [Decidable c] {s : S} (h : (if c then some s else none) = some t) :
    c ∧ s = t := by
  obtain ⟨hc, h⟩ := Option.ite_none_right_eq_some.mp h
  exact ⟨hc, Option.some.inj h⟩

@[simp] theorem exec_nil (s : S) : exec step s [] = some s := rfl

theorem exec_cons {s u : S} {a : A} :
    exec step s (a :: as) = some u ↔ ∃ t, step s a = some t ∧ exec step t as = some u := by
  simp only [exec, Option.bind_eq_some_iff]

theorem exec_append {s u : S} {bs : List A} :
    exec step s (as ++ bs) = some u ↔ ∃ t, exec step s as = some t ∧ exec step t bs = some u := by
  induction as generalizing s with
  | nil => simp
  | cons a as ih =>
    simp only [cons_append, exec_cons, ih]
    constructor
    · rintro ⟨t, ht, v, hv, hu⟩
      exact ⟨v, ⟨t, ht, hv⟩, hu⟩
    · rintro ⟨v, ⟨t, ht, hv⟩, hu⟩
      exact ⟨t, ht, v, hv, hu⟩

theorem Along.of_forall {s : S} (h : ∀ t, ∀ a ∈ as, guard t a) : Along step guard s as := by
  induction as generalizing s with
  | nil => exact trivial
  | cons a as ih =>
    exact ⟨h s a mem_cons_self, fun t _ => ih (fun u b hb => h u b (mem_cons_of_mem a hb))⟩

theorem Along.append {s : S} {bs : List A} (h : Along step guard s (as ++ bs))
    (ht : exec step s as = some t) : Along step guard s as ∧ Along step guard t bs := by
  induction as generalizing s with
  | nil =>
    cases ht
    exact ⟨trivial, h⟩
  | cons a as ih =>
    obtain ⟨u, hu, ht⟩ := exec_cons.mp ht
    refine ⟨⟨h.1, fun v hv => ?_⟩, (ih (h.2 u hu) ht).2⟩
    obtain rfl : u = v := Option.some.inj (hu.symm.trans hv)
    exact (ih (h.2 u hu) ht).1

theorem Along.and {first second : S → A → Prop} {s : S} (hfirst : Along step first s as)
    (hsecond : Along step second s as) : Along step (fun t a => first t a ∧ second t a) s as := by
  induction as generalizing s with
  | nil => exact trivial
  | cons a as ih =>
    exact ⟨⟨hfirst.1, hsecond.1⟩, fun t ht => ih (hfirst.2 t ht) (hsecond.2 t ht)⟩

/-- A word of actions is checked state by state. -/
instance Along.decidable [∀ s a, Decidable (guard s a)] :
    ∀ (s : S) (as : List A), Decidable (Along step guard s as)
  | _, [] => isTrue trivial
  | s, a :: as =>
    match h : step s a with
    | none => decidable_of_iff (guard s a) ⟨fun hg => ⟨hg, fun t ht => by simp [h] at ht⟩, And.left⟩
    | some t =>
      have := Along.decidable t as
      decidable_of_iff (guard s a ∧ Along step guard t as)
        ⟨fun hg => ⟨hg.1, fun u hu => Option.some.inj (h.symm.trans hu) ▸ hg.2⟩,
          fun hg => ⟨hg.1, hg.2 t h⟩⟩

theorem exec_invariant (hstep : ∀ s a t, I s → guard s a → step s a = some t → I t) {s : S}
    (hs : I s) (hg : Along step guard s as) (he : exec step s as = some t) : I t := by
  induction as generalizing s with
  | nil =>
    cases he
    exact hs
  | cons a as ih =>
    obtain ⟨u, hu, he⟩ := exec_cons.mp he
    exact ih (hstep s a u hs hg.1 hu) (hg.2 u hu) he

theorem Along.of_invariant {second : S → A → Prop}
    (hstep : ∀ s a t, I s → guard s a → step s a = some t → I t)
    (himp : ∀ s a, I s → guard s a → second s a) {s : S} (hs : I s) (hg : Along step guard s as) :
    Along step second s as := by
  induction as generalizing s with
  | nil => exact trivial
  | cons a as ih =>
    exact ⟨himp s a hs hg.1, fun t ht => ih (hstep s a t hs hg.1 ht) (hg.2 t ht)⟩

theorem exec_preserves (hstep : ∀ s a t, I s → step s a = some t → I t) {s : S} (hs : I s)
    (he : exec step s as = some t) : I t := by
  induction as generalizing s with
  | nil =>
    cases he
    exact hs
  | cons a as ih =>
    obtain ⟨u, hu, he⟩ := exec_cons.mp he
    exact ih (hstep s a u hs hu) he

theorem exec_congr {other : S → A → Option S} (hagree : ∀ s a, I s → other s a = step s a)
    (hstep : ∀ s a t, I s → step s a = some t → I t) {s : S} (as : List A) (hs : I s) :
    exec other s as = exec step s as := by
  induction as generalizing s with
  | nil => rfl
  | cons a as ih =>
    cases hu : step s a with
    | none => simp only [exec, hagree s a hs, hu, Option.bind_none]
    | some u => simp only [exec, hagree s a hs, hu, Option.bind_some, ih (hstep s a u hs hu)]

theorem exec_related {R : S → S → Prop} (hrefl : ∀ s, R s s)
    (htrans : ∀ s t u, R s t → R t u → R s u) (hstep : ∀ s a t, I s → step s a = some t → I t)
    (hrel : ∀ s a t, I s → step s a = some t → R s t) {s : S} (hs : I s)
    (he : exec step s as = some t) : R s t := by
  induction as generalizing s with
  | nil =>
    cases he
    exact hrefl _
  | cons a as ih =>
    obtain ⟨u, hu, he⟩ := exec_cons.mp he
    exact htrans s u t (hrel s a u hs hu) (ih (hstep s a u hs hu) he)

def Readings {α : Type*} (step : S → A → Option S) (gauge : S → α) (s : S) (as : List A) : Set α :=
  {g | ∃ bs t, bs <+: as ∧ exec step s bs = some t ∧ gauge t = g}

theorem exec_isGreatest {α : Type*} [LinearOrder α] {gauge mark : S → α}
    (hstep : ∀ s a t, I s → step s a = some t → I t)
    (hmark : ∀ s a t, I s → gauge s ≤ mark s → step s a = some t →
      mark t = max (mark s) (gauge t)) {s : S} (hs : I s) (hstart : mark s = gauge s)
    (he : exec step s as = some t) : IsGreatest (Readings step gauge s as) (mark t) := by
  induction as using List.reverseRecOn generalizing t with
  | nil =>
    obtain rfl : s = t := Option.some.inj he
    refine ⟨⟨[], s, prefix_rfl, rfl, hstart.symm⟩, ?_⟩
    rintro g ⟨bs, u, hbs, hu, rfl⟩
    obtain rfl := prefix_nil.mp hbs
    obtain rfl : s = u := Option.some.inj hu
    exact hstart.ge
  | append_singleton as a ih =>
    obtain ⟨u, hu, hlast⟩ := exec_append.mp he
    obtain ⟨v, hv, hend⟩ := exec_cons.mp hlast
    obtain rfl : v = t := Option.some.inj hend
    obtain ⟨⟨bs, w, hbs, hw, hreading⟩, hupper⟩ := ih hu
    have hle : gauge u ≤ mark u := hupper ⟨as, u, prefix_rfl, hu, rfl⟩
    rw [hmark u a v (exec_preserves hstep hs hu) hle hv]
    constructor
    · rcases le_total (gauge v) (mark u) with hmax | hmax
      · rw [max_eq_left hmax]
        exact ⟨bs, w, hbs.trans (prefix_append as [a]), hw, hreading⟩
      · rw [max_eq_right hmax]
        exact ⟨as ++ [a], v, prefix_rfl, he, rfl⟩
    · rintro g ⟨cs, x, hcs, hx, rfl⟩
      rcases prefix_concat_iff.mp hcs with rfl | hcs
      · obtain rfl : v = x := Option.some.inj (he.symm.trans hx)
        exact le_max_right _ _
      · exact (hupper ⟨cs, x, hcs, hx, rfl⟩).trans (le_max_left _ _)

end KimServing.Library

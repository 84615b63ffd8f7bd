import Mathlib.Data.List.Basic
import Mathlib.Tactic.Common

/-! # Incremental readers

A reader takes one symbol at a time and may emit values. Cutting its input into
chunks changes nothing as long as a chunk is read like its symbols one by one.
-/
namespace KimServing.Library.Incremental
open List
variable {S B O R : Type*}

def run (push : S → B → S × List O) : S → List B → S × List O
  | s, [] => (s, [])
  | s, b :: bs =>
    let (t, emitted) := push s b
    let (u, rest) := run push t bs
    (u, emitted ++ rest)

variable {push : S → B → S × List O}

@[simp] theorem run_nil (s : S) : run push s [] = (s, []) := rfl

theorem run_cons (s : S) (b : B) (bs : List B) :
    run push s (b :: bs) =
      ((run push (push s b).1 bs).1, (push s b).2 ++ (run push (push s b).1 bs).2) := rfl

theorem run_cons_of {s t : S} {b : B} {bs : List B} {emitted : List O} (h : push s b = (t, emitted)) :
    run push s (b :: bs) = ((run push t bs).1, emitted ++ (run push t bs).2) := by
  rw [run_cons, h]

theorem run_append (s : S) (xs ys : List B) :
    run push s (xs ++ ys) =
      ((run push (run push s xs).1 ys).1,
        (run push s xs).2 ++ (run push (run push s xs).1 ys).2) := by
  induction xs generalizing s with
  | nil => rfl
  | cons x xs ih => rw [cons_append, run_cons, ih, run_cons, append_assoc]

theorem run_append_of {s t : S} {xs : List B} {emitted : List O}
    (h : run push s xs = (t, emitted)) (ys : List B) :
    run push s (xs ++ ys) = ((run push t ys).1, emitted ++ (run push t ys).2) := by
  rw [run_append, h]

theorem run_flatten {s : S} {word : O → List B} {values : List O}
    (h : ∀ x ∈ values, run push s (word x) = (s, [x])) :
    run push s (values.map word).flatten = (s, values) := by
  induction values with
  | nil => rfl
  | cons x values ih =>
    obtain ⟨hx, hrest⟩ := forall_mem_cons.mp h
    rw [map_cons, flatten_cons, run_append_of hx, ih hrest]
    rfl

def feedAll (feed : S → List B → S × R) : S → List (List B) → S × List R
  | s, [] => (s, [])
  | s, chunk :: chunks =>
    let (t, answer) := feed s chunk
    let (u, answers) := feedAll feed t chunks
    (u, answer :: answers)

theorem feedAll_cons (feed : S → List B → S × R) (s : S) (chunk : List B)
    (chunks : List (List B)) :
    feedAll feed s (chunk :: chunks) =
      ((feedAll feed (feed s chunk).1 chunks).1,
        (feed s chunk).2 :: (feedAll feed (feed s chunk).1 chunks).2) := rfl

section
variable {I G : S → Prop}

theorem run_invariant (hpush : ∀ s b, I s → I (push s b).1) {s : S} (hs : I s) (word : List B) :
    I (run push s word).1 := by
  induction word generalizing s with
  | nil => exact hs
  | cons b bs ih => exact ih (hpush s b hs)

theorem run_backwards (hgood : ∀ s b, G (push s b).1 → G s) {s : S} {word : List B}
    (h : G (run push s word).1) : G s := by
  induction word generalizing s with
  | nil => exact h
  | cons b bs ih => exact hgood s b (ih h)

/-- A reader whose answer to a chunk is made from what the symbols of the chunk emit
reads any chunking like the whole word, as long as it ends in a good state. -/
theorem feedAll_eq_run {feed : S → List B → S × R} {answer : List O → R} {values : R → List O}
    (hvalues : ∀ emitted, values (answer emitted) = emitted)
    (hpush : ∀ s b, I s → I (push s b).1) (hgood : ∀ s b, G (push s b).1 → G s)
    (hfeed : ∀ s chunk, I s → G (run push s chunk).1 →
      feed s chunk = ((run push s chunk).1, answer (run push s chunk).2))
    {s : S} (hs : I s) {chunks : List (List B)} (hend : G (run push s chunks.flatten).1) :
    (feedAll feed s chunks).1 = (run push s chunks.flatten).1 ∧
      (feedAll feed s chunks).2.flatMap values = (run push s chunks.flatten).2 ∧
      ∀ r ∈ (feedAll feed s chunks).2, ∃ emitted, r = answer emitted := by
  induction chunks generalizing s with
  | nil => exact ⟨rfl, rfl, fun r hr => absurd hr not_mem_nil⟩
  | cons chunk chunks ih =>
    rw [flatten_cons, run_append] at hend
    obtain ⟨hstate, hemitted, hanswers⟩ := ih (run_invariant hpush hs chunk) hend
    have hchunk := hfeed s chunk hs (run_backwards hgood hend)
    simp only [feedAll_cons, hchunk, flatten_cons, run_append, flatMap_cons, hvalues,
      forall_mem_cons]
    exact ⟨hstate, congrArg _ hemitted, ⟨_, rfl⟩, hanswers⟩

end

end KimServing.Library.Incremental

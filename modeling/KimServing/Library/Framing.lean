import Mathlib.Algebra.Order.Ring.Nat
import Mathlib.Data.List.Basic
import Mathlib.Data.List.Nodup
import Mathlib.Tactic.Common

/-! # Parts that say how long they are

A part is written after its length, in a code of fixed width. So a concatenation of
parts can be read back from the front, whatever the parts contain. A stream of records
whose keys are written in such parts tells which of the keys are there.
-/
namespace KimServing.Library
open List

def bigEndian : ℕ → ℕ → List UInt8
  | 0, _ => []
  | width + 1, n => bigEndian width (n / 256) ++ [n.toUInt8]

@[simp] theorem length_bigEndian (width n : ℕ) : (bigEndian width n).length = width := by
  induction width generalizing n with
  | zero => rfl
  | succ width ih => simp [bigEndian, ih]

theorem bigEndian_injective {width n m : ℕ} (hn : n < 256 ^ width) (hm : m < 256 ^ width)
    (h : bigEndian width n = bigEndian width m) : n = m := by
  induction width generalizing n m with
  | zero => omega
  | succ width ih =>
    rw [Nat.pow_succ] at hn hm
    obtain ⟨hhigh, hlow⟩ := append_inj h (by simp)
    have hdiv := ih (by omega) (by omega) hhigh
    have hmod : n % 256 = m % 256 := by
      have hbyte := congrArg UInt8.toNat (List.cons.inj hlow).1
      simpa [Nat.toUInt8] using hbyte
    omega

section Parts
variable {α : Type*}

/-- A code for lengths: all words have one width, and lengths below the bound differ. -/
structure SizeCode (size : ℕ → List α) (bound : ℕ) : Prop where
  width : ∀ n m, (size n).length = (size m).length
  injective : ∀ n m, n < bound → m < bound → size n = size m → n = m

theorem bigEndian_sizeCode (width : ℕ) : SizeCode (bigEndian width) (256 ^ width) :=
  ⟨by simp, fun _ _ => bigEndian_injective⟩

def prefixed (size : ℕ → List α) (part : List α) : List α := size part.length ++ part

theorem prefixed_inj {size : ℕ → List α} {bound : ℕ} (hsize : SizeCode size bound)
    {x y u v : List α} (hx : x.length < bound) (hy : y.length < bound)
    (h : prefixed size x ++ u = prefixed size y ++ v) : x = y ∧ u = v := by
  rw [prefixed, prefixed, append_assoc, append_assoc] at h
  obtain ⟨hlength, hrest⟩ := append_inj h (hsize.width _ _)
  exact append_inj hrest (hsize.injective _ _ hx hy hlength)

end Parts

section Records
variable {K α : Type*} (name : K → List α) (nameSize size : ℕ → List α)

def record (k : K) (content : List α) : List α :=
  prefixed nameSize (name k) ++ prefixed size content

def recordStream (keys : List K) (content : K → Option (List α)) : List α :=
  keys.flatMap fun k => ((content k).map (record name nameSize size k)).getD []

variable {name nameSize size}

theorem recordStream_cons (k : K) (keys : List K) (content : K → Option (List α)) :
    recordStream name nameSize size (k :: keys) content =
      ((content k).map (record name nameSize size k)).getD [] ++
        recordStream name nameSize size keys content := rfl

theorem recordStream_start (keys : List K) (content : K → Option (List α)) :
    recordStream name nameSize size keys content = [] ∨
      ∃ k ∈ keys, ∃ rest,
        recordStream name nameSize size keys content = prefixed nameSize (name k) ++ rest := by
  induction keys with
  | nil => exact Or.inl rfl
  | cons k keys ih =>
    rw [recordStream_cons]
    cases content k with
    | none =>
      rcases ih with hnil | ⟨j, hj, rest, hstart⟩
      · exact Or.inl hnil
      · exact Or.inr ⟨j, mem_cons_of_mem k hj, rest, hstart⟩
    | some =>
      exact Or.inr ⟨k, mem_cons_self, _, append_assoc _ _ _⟩

variable {nameBound bound : ℕ} (hnameSize : SizeCode nameSize nameBound)
include hnameSize

theorem record_ne_recordStream {k : K} {keys : List K} {c rest : List α}
    {content : K → Option (List α)} (hwidth : ∀ n, nameSize n ≠ [])
    (hshort : ∀ j ∈ k :: keys, (name j).length < nameBound)
    (hname : ∀ j ∈ keys, name k ≠ name j) :
    record name nameSize size k c ++ rest ≠ recordStream name nameSize size keys content := by
  intro h
  rcases @recordStream_start K α name nameSize size keys content with
    hnil | ⟨j, hj, rest', hstart⟩
  · rw [hnil] at h
    simp [record, prefixed, hwidth] at h
  · rw [hstart, record, append_assoc] at h
    exact hname j hj (prefixed_inj hnameSize (hshort k mem_cons_self)
      (hshort j (mem_cons_of_mem k hj)) h).1

theorem recordStream_injective (hsize : SizeCode size bound) {keys : List K} {f g : K → Option (List α)}
    (hwidth : ∀ n, nameSize n ≠ []) (hshort : ∀ k ∈ keys, (name k).length < nameBound)
    (hnames : (keys.map name).Nodup) (hf : ∀ k ∈ keys, ∀ c ∈ f k, c.length < bound)
    (hg : ∀ k ∈ keys, ∀ c ∈ g k, c.length < bound)
    (h : recordStream name nameSize size keys f = recordStream name nameSize size keys g) :
    ∀ k ∈ keys, f k = g k := by
  induction keys with
  | nil => simp
  | cons k keys ih =>
    rw [map_cons, nodup_cons] at hnames
    have hother : ∀ j ∈ keys, name k ≠ name j := fun j hj heq =>
      hnames.1 (heq ▸ mem_map_of_mem hj)
    have hrest := ih (fun j hj => hshort j (mem_cons_of_mem k hj)) hnames.2
      (fun j hj => hf j (mem_cons_of_mem k hj)) (fun j hj => hg j (mem_cons_of_mem k hj))
    rw [recordStream_cons, recordStream_cons] at h
    rw [forall_mem_cons]
    cases hfk : f k with
    | none =>
      cases hgk : g k with
      | none =>
        rw [hfk, hgk] at h
        exact ⟨rfl, hrest h⟩
      | some =>
        rw [hfk, hgk] at h
        exact absurd h.symm (record_ne_recordStream hnameSize hwidth hshort hother)
    | some c =>
      cases hgk : g k with
      | none =>
        rw [hfk, hgk] at h
        exact absurd h (record_ne_recordStream hnameSize hwidth hshort hother)
      | some d =>
        have hc := hf k mem_cons_self c hfk
        have hd := hg k mem_cons_self d hgk
        rw [hfk, hgk, Option.map_some, Option.map_some, Option.getD_some, Option.getD_some, record,
          record, append_assoc, append_assoc] at h
        obtain ⟨rfl, htail⟩ := prefixed_inj hsize hc hd (append_cancel_left h)
        exact ⟨rfl, hrest htail⟩

end Records

end KimServing.Library

import Mathlib.Algebra.BigOperators.Ring.List
import Mathlib.Algebra.Order.BigOperators.Group.List
import Mathlib.Algebra.Order.Ring.Nat
import Mathlib.Data.List.AList

/-! # Totals over a table

A table maps keys to values, and a program keeps running totals over its
entries. Each update of the table changes a total by what the entry of one key
contributes; the rest of the total is that of the table without the key.
-/
namespace KimServing.Library
variable {K V : Type*} [DecidableEq K]

variable {k : K}

def sumBy (f : V → ℕ) (table : AList (fun _ : K => V)) : ℕ :=
  (table.entries.map (fun entry => f entry.2)).sum

omit [DecidableEq K] in
@[simp] theorem sumBy_empty (f : V → ℕ) : sumBy f (∅ : AList (fun _ : K => V)) = 0 := rfl

theorem sumBy_insert (f : V → ℕ) (table : AList (fun _ : K => V)) (k : K) (v : V) :
    sumBy f (table.insert k v) = f v + sumBy f (table.erase k) := by
  have herase : (table.erase k).entries = table.entries.kerase k := rfl
  simp [sumBy, AList.entries_insert, herase]

theorem sum_kerase (f : V → ℕ) {v : V} {entries : List (Sigma (fun _ : K => V))}
    (h : entries.dlookup k = some v) :
    (entries.map (fun entry => f entry.2)).sum =
      f v + ((entries.kerase k).map (fun entry => f entry.2)).sum := by
  induction entries with
  | nil => cases h
  | cons entry rest ih =>
    obtain ⟨j, w⟩ := entry
    by_cases hk : k = j
    · subst hk
      rw [List.dlookup_cons_eq] at h
      cases h
      have herase : List.kerase k (⟨k, v⟩ :: rest) = rest := List.kerase_cons_eq rfl
      rw [herase, List.map_cons, List.sum_cons]
    · rw [List.dlookup_cons_ne _ _ hk] at h
      have herase : List.kerase k (⟨j, w⟩ :: rest) = ⟨j, w⟩ :: rest.kerase k :=
        List.kerase_cons_ne hk
      rw [herase, List.map_cons, List.map_cons, List.sum_cons, List.sum_cons, ih h]
      omega

theorem sumBy_erase (f : V → ℕ) {table : AList (fun _ : K => V)} {v : V}
    (h : table.lookup k = some v) : sumBy f table = f v + sumBy f (table.erase k) :=
  sum_kerase f h

theorem erase_of_lookup_none {table : AList (fun _ : K => V)} (h : table.lookup k = none) :
    table.erase k = table :=
  AList.ext (List.kerase_of_notMem_keys (AList.lookup_eq_none.mp h))

theorem erase_insert_new {table : AList (fun _ : K => V)} (v : V) (h : table.lookup k = none) :
    (table.insert k v).erase k = table := by
  refine AList.ext ?_
  have hkey : k ∉ table := AList.lookup_eq_none.mp h
  show List.kerase k (table.insert k v).entries = table.entries
  rw [AList.entries_insert_of_notMem hkey]
  exact List.kerase_cons_eq rfl

theorem sumBy_insert_new (f : V → ℕ) {table : AList (fun _ : K => V)} (v : V)
    (h : table.lookup k = none) : sumBy f (table.insert k v) = f v + sumBy f table := by
  rw [sumBy_insert, erase_of_lookup_none h]

theorem sumBy_eq_countP {f : V → ℕ} {p : V → Bool} {table : AList (fun _ : K => V)}
    (h : ∀ k v, table.lookup k = some v → f v = if p v then 1 else 0) :
    sumBy f table = table.entries.countP (fun entry => p entry.2) := by
  have hmem : ∀ entry ∈ table.entries, f entry.2 = if p entry.2 then 1 else 0 :=
    fun entry he => h entry.1 entry.2 (AList.mem_lookup_iff.mpr he)
  unfold sumBy
  generalize table.entries = entries at hmem
  induction entries with
  | nil => rfl
  | cons entry rest ih =>
    have hrest := ih (fun other ho => hmem other (List.mem_cons_of_mem entry ho))
    rw [List.map_cons, List.sum_cons, List.countP_cons, hrest, hmem entry List.mem_cons_self,
      Nat.add_comm]

omit [DecidableEq K] in
theorem sumBy_add (f g : V → ℕ) (table : AList (fun _ : K => V)) :
    sumBy (fun v => f v + g v) table = sumBy f table + sumBy g table :=
  List.sum_map_add

omit [DecidableEq K] in
theorem sumBy_mul (f : V → ℕ) (factor : ℕ) (table : AList (fun _ : K => V)) :
    sumBy (fun v => f v * factor) table = sumBy f table * factor :=
  List.sum_map_mul_right _ _ _

theorem sumBy_le {f : V → ℕ} {bound : ℕ} {table : AList (fun _ : K => V)}
    (h : ∀ k v, table.lookup k = some v → f v ≤ bound) :
    sumBy f table ≤ table.keys.length * bound := by
  have hmem : ∀ part ∈ table.entries.map (fun entry => f entry.2), part ≤ bound := by
    intro part hpart
    obtain ⟨entry, hentry, rfl⟩ := List.mem_map.mp hpart
    exact h entry.1 entry.2 (AList.mem_lookup_iff.mpr hentry)
  simpa [sumBy, AList.keys, List.keys] using List.sum_le_card_nsmul _ bound hmem

theorem length_keys_erase {table : AList (fun _ : K => V)} {v : V} (h : table.lookup k = some v) :
    (table.erase k).keys.length + 1 = table.keys.length := by
  have hmem : k ∈ table.keys := AList.lookup_isSome.mp (by rw [h]; rfl)
  have hpos := List.length_pos_of_mem hmem
  rw [AList.keys_erase, List.length_erase_of_mem hmem]
  omega

theorem lookup_insert_eq (table : AList (fun _ : K => V)) (j k : K) (v : V) :
    (table.insert k v).lookup j = if j = k then some v else table.lookup j := by
  split
  · next h =>
    subst h
    exact AList.lookup_insert table
  · next h => exact AList.lookup_insert_ne h

theorem lookup_erase_eq (table : AList (fun _ : K => V)) (j k : K) :
    (table.erase k).lookup j = if j = k then none else table.lookup j := by
  split
  · next h =>
    subst h
    exact AList.lookup_erase j table
  · next h => exact AList.lookup_erase_ne h

theorem lookup_of_lookup_erase {table : AList (fun _ : K => V)} {j : K} {v : V}
    (h : (table.erase k).lookup j = some v) : table.lookup j = some v := by
  rw [lookup_erase_eq] at h
  split at h
  · cases h
  · exact h

theorem lookup_eq_none_of_keys {table : AList (fun _ : K => V)} (h : table.keys = []) (k : K) :
    table.lookup k = none := AList.lookup_eq_none.mpr (by simp [AList.mem_keys, h])

/-! ## A table and its index -/

section Index
variable {X : Type*} [DecidableEq X]

/-- An index finds the key of each value of the table by the name of the value, and finds
nothing else. -/
structure Indexed (name : V → X) (table : AList (fun _ : K => V))
    (index : AList (fun _ : X => K)) : Prop where
  found : ∀ k v, table.lookup k = some v → index.lookup (name v) = some k
  exact : ∀ x k, index.lookup x = some k → ∃ v, table.lookup k = some v ∧ name v = x

variable {name : V → X} {table : AList (fun _ : K => V)} {index : AList (fun _ : X => K)}

theorem Indexed.congr {name' : V → X} (h : Indexed name table index)
    (hname : ∀ k v, table.lookup k = some v → name' v = name v) : Indexed name' table index where
  found k v hv := by
    rw [hname k v hv]
    exact h.found k v hv
  exact x k hk := by
    obtain ⟨v, hv, hx⟩ := h.exact x k hk
    exact ⟨v, hv, (hname k v hv).trans hx⟩

theorem Indexed.key_eq (h : Indexed name table index) {j k : K} {v w : V}
    (hv : table.lookup j = some v) (hw : table.lookup k = some w) (heq : name v = name w) :
    j = k := by
  have hj := h.found j v hv
  rw [heq, h.found k w hw] at hj
  exact (Option.some.inj hj).symm

theorem Indexed.insert (h : Indexed name table index) {k : K} {v : V}
    (hk : table.lookup k = none) (hv : index.lookup (name v) = none) :
    Indexed name (table.insert k v) (index.insert (name v) k) where
  found j w hw := by
    rw [lookup_insert_eq] at hw ⊢
    split at hw
    · next hj =>
      cases hw
      rw [if_pos rfl, hj]
    · have hindex := h.found j w hw
      rw [if_neg ?_, hindex]
      intro heq
      rw [heq, hv] at hindex
      cases hindex
  exact x j hj := by
    rw [lookup_insert_eq] at hj
    split at hj
    · next hx =>
      cases hj
      exact ⟨v, AList.lookup_insert table, hx.symm⟩
    · obtain ⟨w, hw, hx⟩ := h.exact x j hj
      refine ⟨w, ?_, hx⟩
      rw [lookup_insert_eq, if_neg ?_, hw]
      rintro rfl
      cases hk.symm.trans hw

theorem Indexed.erase (h : Indexed name table index) {k : K} {v : V}
    (hk : table.lookup k = some v) : Indexed name (table.erase k) (index.erase (name v)) where
  found j w hw := by
    rw [lookup_erase_eq] at hw ⊢
    split at hw
    · cases hw
    · next hj =>
      rw [if_neg (fun heq => hj (h.key_eq hw hk heq))]
      exact h.found j w hw
  exact x j hj := by
    rw [lookup_erase_eq] at hj
    split at hj
    · cases hj
    · next hx =>
      obtain ⟨w, hw, rfl⟩ := h.exact x j hj
      refine ⟨w, ?_, rfl⟩
      rw [lookup_erase_eq, if_neg ?_, hw]
      rintro rfl
      rw [hk] at hw
      cases hw
      exact hx rfl

end Index

end KimServing.Library

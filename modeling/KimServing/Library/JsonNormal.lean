import KimServing.Library.Json

/-! # JSON values as maps

The field list of an object stands for a map. The normal form of a value keeps
one field per key, in the order of the keys, at every depth; two values are the
same JSON value when their normal forms are equal.
-/
namespace KimServing.Library.Json
open List

/-! ## First occurrences -/

section Fields
variable {α : Type*}

theorem lookup_filter_ne (fields : List (String × α)) {key other : String} (h : key ≠ other) :
    (fields.filter (fun field => field.1 ≠ other)).lookup key = fields.lookup key := by
  induction fields with
  | nil => rfl
  | cons field rest ih =>
    obtain ⟨k, v⟩ := field
    by_cases hk : k = other
    · subst hk
      have hne : (key == k) = false := beq_eq_false_iff_ne.mpr h
      rw [filter_cons_of_neg (by simp), ih, lookup_cons, hne]
    · rw [filter_cons_of_pos (by simpa using hk), lookup_cons, lookup_cons, ih]

theorem lookup_firsts (fields : List (String × α)) (key : String) :
    (firsts fields).lookup key = fields.lookup key := by
  induction fields with
  | nil => rfl
  | cons field rest ih =>
    obtain ⟨k, v⟩ := field
    rw [firsts, lookup_cons, lookup_cons]
    by_cases hk : key = k
    · simp [hk]
    · rw [beq_eq_false_iff_ne.mpr hk, lookup_filter_ne _ hk, ih]

theorem firsts_nodup (fields : List (String × α)) : ((firsts fields).map Prod.fst).Nodup := by
  induction fields with
  | nil => exact nodup_nil
  | cons field rest ih =>
    rw [firsts, map_cons, nodup_cons]
    refine ⟨?_, ih.sublist (filter_sublist.map Prod.fst)⟩
    simp [mem_filter]

theorem lookup_eq_some_iff_mem {fields : List (String × α)} (h : (fields.map Prod.fst).Nodup)
    {key : String} {value : α} : fields.lookup key = some value ↔ (key, value) ∈ fields := by
  induction fields with
  | nil => simp
  | cons field rest ih =>
    obtain ⟨k, v⟩ := field
    rw [map_cons, nodup_cons] at h
    rw [lookup_cons, mem_cons]
    by_cases hk : key = k
    · subst hk
      have hrest : (key, value) ∉ rest := fun hmem => h.1 (mem_map.mpr ⟨_, hmem, rfl⟩)
      simp [hrest, eq_comm]
    · rw [beq_eq_false_iff_ne.mpr hk, ih h.2]
      simp [hk]

theorem sortFields_perm (fields : List (String × α)) : (sortFields fields).Perm (firsts fields) :=
  perm_insertionSort _ _

theorem sortFields_nodup (fields : List (String × α)) :
    ((sortFields fields).map Prod.fst).Nodup :=
  ((sortFields_perm fields).map Prod.fst).nodup_iff.mpr (firsts_nodup fields)

theorem lookup_sortFields (fields : List (String × α)) (key : String) :
    (sortFields fields).lookup key = fields.lookup key := by
  rw [← lookup_firsts fields key]
  refine Option.ext fun value => ?_
  rw [lookup_eq_some_iff_mem (sortFields_nodup fields),
    lookup_eq_some_iff_mem (firsts_nodup fields), (sortFields_perm fields).mem_iff]

theorem sortFields_sorted (fields : List (String × α)) :
    (sortFields fields).Pairwise (fun a b => a.1 ≤ b.1) := by
  have : Std.Total (fun a b : String × α => a.1 ≤ b.1) := ⟨fun a b => String.le_total a.1 b.1⟩
  have : IsTrans (String × α) (fun a b => a.1 ≤ b.1) := ⟨fun _ _ _ => String.le_trans⟩
  exact pairwise_insertionSort _ _

theorem sortFields_congr {xs ys : List (String × α)} (h : ∀ key, xs.lookup key = ys.lookup key) :
    sortFields xs = sortFields ys := by
  have hmem : ∀ field, field ∈ sortFields xs ↔ field ∈ sortFields ys := by
    rintro ⟨key, value⟩
    rw [← lookup_eq_some_iff_mem (sortFields_nodup xs),
      ← lookup_eq_some_iff_mem (sortFields_nodup ys), lookup_sortFields, lookup_sortFields, h key]
  have hperm : (sortFields xs).Perm (sortFields ys) :=
    (perm_ext_iff_of_nodup (sortFields_nodup xs).of_map (sortFields_nodup ys).of_map).mpr hmem
  refine hperm.eq_of_pairwise ?_ (sortFields_sorted xs) (sortFields_sorted ys)
  intro a b ha hb hab hba
  exact inj_on_of_nodup_map (sortFields_nodup xs) ha ((hmem b).mpr hb) (String.le_antisymm hab hba)

end Fields

/-! ## The normal form -/

mutual

def normal : Json → Json
  | .null => .null
  | .bool b => .bool b
  | .int i => .int i
  | .float x => .float x
  | .str s => .str s
  | .arr items => .arr (normalItems items)
  | .obj fields => .obj (sortFields (normalFields fields))

def normalItems : List Json → List Json
  | [] => []
  | item :: items => normal item :: normalItems items

def normalFields : List (String × Json) → List (String × Json)
  | [] => []
  | (key, value) :: fields => (key, normal value) :: normalFields fields

end

variable {item value : Json} {key : String} {names : List String} {f : Json → Json}

theorem normalItems_eq (items : List Json) : normalItems items = items.map normal := by
  induction items with
  | nil => rfl
  | cons item items ih => rw [normalItems, ih, map_cons]

theorem lookup_normalFields (fields : List (String × Json)) (key : String) :
    (normalFields fields).lookup key = (fields.lookup key).map normal := by
  induction fields with
  | nil => rfl
  | cons field rest ih =>
    obtain ⟨k, v⟩ := field
    rw [normalFields, lookup_cons, lookup_cons]
    cases key == k with
    | true => rfl
    | false => exact ih

@[simp] theorem isObject_normal (value : Json) : value.normal.isObject = value.isObject := by
  cases value <;> rfl

theorem find_normal (value : Json) (key : String) :
    value.normal.find key = (value.find key).map normal := by
  cases value with
  | obj => rw [normal, find, find, lookup_sortFields, lookup_normalFields]
  | _ => rfl

theorem keys_normal (value : Json) : value.normal.keys.Perm value.keys := by
  have hnodup : ∀ v : Json, v.keys.Nodup := by
    intro v
    cases v with
    | obj => exact nodup_dedup _
    | _ => exact nodup_nil
  refine (perm_ext_iff_of_nodup (hnodup _) (hnodup _)).mpr fun key => ?_
  rw [mem_keys, mem_keys, find_normal, Option.isSome_map]

theorem normal_eq_of_find {v w : Json} (hv : v.isObject = true) (hw : w.isObject = true)
    (h : ∀ key, (v.find key).map normal = (w.find key).map normal) : v.normal = w.normal := by
  cases v with
  | obj =>
    cases w with
    | obj =>
      rw [normal, normal, sortFields_congr fun key => ?_]
      rw [lookup_normalFields, lookup_normalFields]
      exact h key
    | _ => cases hw
  | _ => cases hv

theorem normal_eq_of_fields {v w : Json} (hv : v.SameFields names) (hw : w.SameFields names)
    (h : ∀ key ∈ names, (v.find key).map normal = (w.find key).map normal) :
    v.normal = w.normal := by
  refine normal_eq_of_find hv.1 hw.1 fun key => ?_
  by_cases hkey : key ∈ names
  · exact h key hkey
  · have hnone : ∀ u : Json, u.SameFields names → u.find key = none := by
      intro u hu
      rw [← Option.not_isSome_iff_eq_none, ← mem_keys]
      exact fun hmem => hkey (hu.2.1 hmem)
    rw [hnone v hv, hnone w hw]

/-! ## Comparing an object field by field -/

/-- The object has this item under the key, up to the normal form. -/
def Carries (value : Json) (key : String) (item : Json) : Prop :=
  (value.find key).map normal = some item.normal

theorem carries_of_find (h : value.find key = some item) : value.Carries key item := by
  rw [Carries, h, Option.map_some]

theorem normal_eq_obj {fields : List (String × Json)} (hsame : value.SameFields names)
    (hnodup : names.Nodup) (hnames : fields.map Prod.fst = names)
    (h : fields.Forall fun field => value.Carries field.1 field.2) :
    value.normal = (Json.obj fields).normal := by
  subst hnames
  have hobj : (Json.obj fields).SameFields (fields.map Prod.fst) :=
    ⟨rfl, dedup_subset _, subset_dedup _⟩
  refine normal_eq_of_fields hsame hobj fun key hkey => ?_
  obtain ⟨field, hfield, rfl⟩ := mem_map.mp hkey
  have hfind : (Json.obj fields).find field.1 = some field.2 :=
    (lookup_eq_some_iff_mem hnodup).mpr hfield
  rw [forall_iff_forall_mem.mp h field hfield, hfind, Option.map_some]

def mapField (key : String) (f : Json → Json) : Json → Json
  | .obj fields =>
    .obj (fields.map fun field => if field.1 = key then (field.1, f field.2) else field)
  | value => value

theorem find_mapField (key : String) (f : Json → Json) (value : Json) (k : String) :
    (value.mapField key f).find k = if k = key then (value.find k).map f else value.find k := by
  cases value with
  | obj fields =>
    simp only [mapField, find]
    induction fields with
    | nil => simp
    | cons field rest ih =>
      obtain ⟨name, item⟩ := field
      rw [map_cons]
      by_cases hk : k = name
      · subst hk
        by_cases hname : k = key <;> simp [hname]
      · have hb : (k == name) = false := beq_eq_false_iff_ne.mpr hk
        by_cases hname : name = key
        · rw [if_pos hname, lookup_cons, lookup_cons, hb]
          exact ih
        · rw [if_neg hname, lookup_cons, lookup_cons, hb]
          exact ih
  | _ => simp [mapField, find]

theorem keys_mapField (key : String) (f : Json → Json) (value : Json) :
    (value.mapField key f).keys = value.keys := by
  cases value with
  | obj =>
    simp only [mapField, keys, map_map]
    congr 1
    refine map_congr_left fun field _ => ?_
    simp only [Function.comp_apply]
    split <;> rfl
  | _ => rfl

@[simp] theorem isObject_mapField (key : String) (f : Json → Json) (value : Json) :
    (value.mapField key f).isObject = value.isObject := by
  cases value <;> rfl

theorem sameFields_mapField (h : value.SameFields names) :
    (value.mapField key f).SameFields names := by
  simpa only [SameFields, keys_mapField, isObject_mapField] using h

theorem carries_mapField_of_ne {k : String} (hk : k ≠ key) (h : value.Carries k item) :
    (value.mapField key f).Carries k item := by
  rw [Carries, find_mapField, if_neg hk]
  exact h

theorem carries_mapField (hfind : value.find key = some item) :
    (value.mapField key f).Carries key (f item) := by
  rw [Carries, find_mapField, if_pos rfl, hfind]
  rfl

/-! ## Printable values -/

theorem printableFields_eq_true {fields : List (String × Json)} :
    printableFields fields = true ↔ ∀ field ∈ fields, field.2.printable = true := by
  induction fields with
  | nil => simp [printableFields]
  | cons field fields ih =>
    rw [printableFields, Bool.and_eq_true, ih, forall_mem_cons]

theorem printable_of_find (hvalue : value.printable = true) (hfind : value.find key = some item) :
    item.printable = true := by
  cases value with
  | obj =>
    obtain ⟨before, after, hfields, -⟩ := lookup_eq_some_iff.mp hfind
    exact printableFields_eq_true.mp hvalue (key, item) (by simp [hfields])
  | _ => cases hfind

theorem mem_of_mem_sortFields {α : Type*} {fields : List (String × α)} {field : String × α}
    (h : field ∈ sortFields fields) : field ∈ fields := by
  have hfirsts : field ∈ firsts fields := (sortFields_perm fields).mem_iff.mp h
  clear h
  induction fields with
  | nil => exact hfirsts
  | cons first rest ih =>
    rcases mem_cons.mp hfirsts with rfl | hrest
    · exact mem_cons_self
    · exact mem_cons_of_mem _ (ih (mem_filter.mp hrest).1)

mutual

theorem printable_normal : ∀ {value : Json}, value.printable = true → value.normal.printable = true
  | .null, _ | .bool _, _ | .int _, _ | .float _, _ => rfl
  | .str _, h => h
  | .arr _, h => printable_normalItems h
  | .obj _, h =>
    printableFields_eq_true.mpr fun field hfield =>
      printableFields_eq_true.mp (printable_normalFields h) field (mem_of_mem_sortFields hfield)

theorem printable_normalItems : ∀ {items : List Json}, printableItems items = true →
    printableItems (normalItems items) = true
  | [], _ => rfl
  | _ :: _, h => by
    rw [printableItems, Bool.and_eq_true] at h
    rw [normalItems, printableItems, printable_normal h.1, printable_normalItems h.2]
    rfl

theorem printable_normalFields : ∀ {fields : List (String × Json)}, printableFields fields = true →
    printableFields (normalFields fields) = true
  | [], _ => rfl
  | (_, _) :: _, h => by
    rw [printableFields, Bool.and_eq_true] at h
    rw [normalFields, printableFields, printable_normal h.1, printable_normalFields h.2]
    rfl

end

theorem printable_mapField (hf : ∀ item, item.printable = true → (f item).printable = true)
    (h : value.printable = true) : (value.mapField key f).printable = true := by
  cases value with
  | obj =>
    refine printableFields_eq_true.mpr fun field hfield => ?_
    obtain ⟨old, hold, rfl⟩ := mem_map.mp hfield
    have hprintable := printableFields_eq_true.mp h old hold
    split
    · exact hf _ hprintable
    · exact hprintable
  | _ => exact h

end KimServing.Library.Json

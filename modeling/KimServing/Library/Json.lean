import KimServing.Library.Utf8
import Mathlib.Data.List.Dedup
import Mathlib.Data.List.Sort
import Mathlib.Data.Nat.Digits.Lemmas
import Mathlib.Data.Rat.Init

/-! # JSON values and their compact text

A value as a parser delivers it: integers of any size, doubles apart from them,
strings as bytes. The field list of an object denotes the map of its first
occurrences, so lookups never see a repeated key. Objects are printed in the
order of their keys.
-/
namespace KimServing.Library
open List

/-- The values of an IEEE double, with one zero and one quiet value. -/
inductive Double where
  | finite (q : ℚ)
  | infinite (negative : Bool)
  | nan
  deriving DecidableEq

namespace Double

def isFinite : Double → Bool
  | .finite _ => true
  | _ => false

def positive : Double → Bool
  | .finite q => decide (0 < q)
  | _ => false

def inUnit : Double → Bool
  | .finite q => decide (0 < q ∧ q ≤ 1)
  | _ => false

theorem isFinite_of_positive {x : Double} (h : x.positive = true) : x.isFinite = true := by
  cases x with
  | finite => rfl
  | _ => cases h

theorem isFinite_of_inUnit {x : Double} (h : x.inUnit = true) : x.isFinite = true := by
  cases x with
  | finite => rfl
  | _ => cases h

def exceeds (x : Double) (bound : ℕ) : Bool :=
  match x with
  | .finite q => decide (bound * q.den < q.num)
  | .infinite negative => !negative
  | .nan => false

def less : Double → Double → Bool
  | .finite q, .finite r => decide (q < r)
  | .finite _, .infinite negative => !negative
  | .infinite negative, .finite _ => negative
  | .infinite negative, .infinite negative' => negative && !negative'
  | _, _ => false

def atMost (x y : Double) : Bool := x.less y || (x == y && x != .nan)

def greatest (first : Double) (rest : List Double) : Double :=
  rest.foldl (fun best x => if best.less x then x else best) first

theorem greatest_mem (first : Double) (rest : List Double) :
    greatest first rest ∈ first :: rest := by
  induction rest generalizing first with
  | nil => exact mem_cons_self
  | cons x rest ih =>
    simp only [greatest, foldl_cons]
    split
    · exact mem_cons_of_mem _ (ih x)
    · rcases mem_cons.mp (ih first) with h | h
      · exact mem_cons.mpr (.inl h)
      · exact mem_cons_of_mem _ (mem_cons_of_mem _ h)

def roundNat (n : ℕ) : ℕ :=
  let ulp := 2 ^ (n.log2 - 52)
  let low := n / ulp
  if 2 * (n % ulp) < ulp ∨ (2 * (n % ulp) = ulp ∧ low % 2 = 0) then low * ulp else (low + 1) * ulp

def ofInt (i : ℤ) : Double :=
  if roundNat i.natAbs < 2 ^ 1024 then .finite (i.sign * roundNat i.natAbs)
  else .infinite (decide (i < 0))

theorem roundNat_of_lt {n : ℕ} (h : n < 2 ^ 53) : roundNat n = n := by
  have hlog : n.log2 - 52 = 0 := by
    by_cases hn : n = 0
    · subst hn
      rfl
    · have hlt := (Nat.log2_lt hn).mpr h
      omega
  simp [roundNat, hlog, Nat.mod_one]

theorem two_le_roundNat {n : ℕ} (h : 2 ^ 53 ≤ n) : 2 ≤ roundNat n := by
  have hn : n ≠ 0 := by
    omega
  have hlog : 53 ≤ n.log2 := (Nat.le_log2 hn).mpr h
  have hulp : 2 ^ 1 ≤ 2 ^ (n.log2 - 52) := Nat.pow_le_pow_right Nat.two_pos (by omega)
  have hle : 2 ^ (n.log2 - 52) ≤ n :=
    (Nat.pow_le_pow_right Nat.two_pos (Nat.sub_le _ _)).trans (Nat.log2_self_le hn)
  have hlow : 1 ≤ n / 2 ^ (n.log2 - 52) := (Nat.one_le_div_iff (Nat.two_pow_pos _)).mpr hle
  simp only [roundNat]
  split
  · exact le_trans hulp (Nat.le_mul_of_pos_left _ hlow)
  · exact le_trans hulp (Nat.le_mul_of_pos_left _ (Nat.succ_pos _))

theorem ofInt_of_lt {i : ℤ} (h : i.natAbs < 2 ^ 53) : ofInt i = .finite i := by
  have hsmall : roundNat i.natAbs < 2 ^ 1024 := by
    rw [roundNat_of_lt h]
    exact h.trans (Nat.pow_lt_pow_right Nat.one_lt_two (by decide))
  rw [ofInt, if_pos hsmall, roundNat_of_lt h]
  congr 1
  rw [← Int.cast_natCast, ← Int.cast_mul, Int.sign_mul_natAbs]

theorem eq_one_of_inUnit_ofInt {i : ℤ} (h : (ofInt i).inUnit = true) : i = 1 := by
  by_cases hi : i.natAbs < 2 ^ 53
  · rw [ofInt_of_lt hi] at h
    have hunit : (0 : ℚ) < i ∧ (i : ℚ) ≤ 1 := by simpa [inUnit] using h
    have hpos : 0 < i := by exact_mod_cast hunit.1
    have hle : i ≤ 1 := by exact_mod_cast hunit.2
    omega
  · have hround := two_le_roundNat (Nat.le_of_not_lt hi)
    rw [ofInt] at h
    split at h
    · have hunit : (0 : ℚ) < i.sign * roundNat i.natAbs ∧
          (i.sign * roundNat i.natAbs : ℚ) ≤ 1 := by simpa [inUnit] using h
      have hpos : 0 < i.sign * roundNat i.natAbs := by exact_mod_cast hunit.1
      have hle : i.sign * roundNat i.natAbs ≤ 1 := by exact_mod_cast hunit.2
      rcases lt_trichotomy i 0 with hneg | rfl | hposi
      · rw [Int.sign_eq_neg_one_of_neg hneg] at hpos
        omega
      · simp at hpos
      · rw [Int.sign_eq_one_of_pos hposi] at hle
        omega
    · cases h

end Double

inductive Json where
  | null
  | bool (b : Bool)
  | int (i : ℤ)
  | float (x : Double)
  | str (s : List UInt8)
  | arr (items : List Json)
  | obj (fields : List (String × Json))

/-- What a JSON library adds to the values: the text of a double, and the text of
the exception for a value it cannot print. -/
class JsonLib where
  doubleText : ℚ → List UInt8
  dumpError : Json → List UInt8

namespace Json

def isObject : Json → Bool
  | .obj _ => true
  | _ => false

def keys : Json → List String
  | .obj fields => (fields.map Prod.fst).dedup
  | _ => []

def find : Json → String → Option Json
  | .obj fields, key => fields.lookup key
  | _, _ => none

theorem mem_keys {value : Json} {key : String} : key ∈ value.keys ↔ (value.find key).isSome := by
  cases value with
  | obj fields =>
    simp only [keys, find, mem_dedup]
    induction fields with
    | nil => simp
    | cons field rest ih =>
      obtain ⟨k, v⟩ := field
      by_cases h : key = k
      · simp [h]
      · have hb : (key == k) = false := beq_eq_false_iff_ne.mpr h
        rw [map_cons, mem_cons, ih, lookup_cons, hb]
        simp [h]
  | _ => simp [keys, find]

def SameFields (value : Json) (fields : List String) : Prop :=
  value.isObject = true ∧ value.keys ⊆ fields ∧ fields ⊆ value.keys

theorem sameFields_iff {value : Json} {fields : List String} (hfields : fields.Nodup) :
    value.SameFields fields ↔
      value.isObject = true ∧ value.keys.length = fields.length ∧
        ∀ field ∈ fields, (value.find field).isSome := by
  have hkeys : value.keys.Nodup := by
    cases value with
    | obj => exact nodup_dedup _
    | _ => exact nodup_nil
  have hsubset : fields ⊆ value.keys ↔ ∀ field ∈ fields, (value.find field).isSome :=
    ⟨fun h field hf => mem_keys.mp (h hf), fun h field hf => mem_keys.mpr (h field hf)⟩
  rw [SameFields, ← hsubset]
  refine and_congr_right (fun _ => ?_)
  constructor
  · rintro ⟨hle, hge⟩
    exact ⟨Nat.le_antisymm (hkeys.subperm hle).length_le (hfields.subperm hge).length_le, hge⟩
  · rintro ⟨hlength, hge⟩
    have hperm := (hfields.subperm hge).perm_of_length_le (Nat.le_of_eq hlength)
    exact ⟨hperm.symm.subset, hge⟩

def decimal (n : ℕ) : List UInt8 :=
  if n = 0 then [0x30] else ((Nat.digits 10 n).map (fun d => 0x30 + d.toUInt8)).reverse

def intText : ℤ → List UInt8
  | .ofNat n => decimal n
  | .negSucc n => 0x2d :: decimal (n + 1)

def hexDigit (n : ℕ) : UInt8 := if n < 10 then 0x30 + n.toUInt8 else 0x57 + n.toUInt8

/-- One byte of a string in the text: quotes, backslashes and control characters
are escaped. -/
def escapeByte (b : UInt8) : List UInt8 :=
  if b = 0x22 then [0x5c, 0x22]
  else if b = 0x5c then [0x5c, 0x5c]
  else if b = 0x08 then [0x5c, 0x62]
  else if b = 0x09 then [0x5c, 0x74]
  else if b = 0x0a then [0x5c, 0x6e]
  else if b = 0x0c then [0x5c, 0x66]
  else if b = 0x0d then [0x5c, 0x72]
  else if b < 0x20 then
    [0x5c, 0x75, 0x30, 0x30, hexDigit (b.toNat / 16), hexDigit (b.toNat % 16)]
  else [b]

def strText (s : List UInt8) : List UInt8 := 0x22 :: s.flatMap escapeByte ++ [0x22]

def fieldText (field : String × List UInt8) : List UInt8 :=
  strText (utf8 field.1) ++ 0x3a :: field.2

def bracket (opening closing : UInt8) (texts : List (List UInt8)) : List UInt8 :=
  opening :: List.intercalate [0x2c] texts ++ [closing]

def firsts {α : Type*} : List (String × α) → List (String × α)
  | [] => []
  | field :: rest => field :: (firsts rest).filter (fun other => other.1 ≠ field.1)

def sortFields {α : Type*} (fields : List (String × α)) : List (String × α) :=
  (firsts fields).insertionSort (fun a b => a.1 ≤ b.1)

variable [JsonLib]

mutual

def dump : Json → List UInt8
  | .null => utf8 "null"
  | .bool b => utf8 (if b then "true" else "false")
  | .int i => intText i
  | .float (.finite q) => JsonLib.doubleText q
  | .float _ => utf8 "null"
  | .str s => strText s
  | .arr items => bracket 0x5b 0x5d (dumpItems items)
  | .obj fields => bracket 0x7b 0x7d ((sortFields (dumpFields fields)).map fieldText)

def dumpItems : List Json → List (List UInt8)
  | [] => []
  | item :: items => dump item :: dumpItems items

def dumpFields : List (String × Json) → List (String × List UInt8)
  | [] => []
  | (key, value) :: fields => (key, dump value) :: dumpFields fields

end

mutual

def printable : Json → Bool
  | .str s => Utf8.valid s
  | .arr items => printableItems items
  | .obj fields => printableFields fields
  | _ => true

def printableItems : List Json → Bool
  | [] => true
  | item :: items => printable item && printableItems items

def printableFields : List (String × Json) → Bool
  | [] => true
  | (_, value) :: fields => printable value && printableFields fields

end

/-! ## Lengths of texts -/

omit [JsonLib] in
theorem length_intercalate_comma (comma : UInt8) (texts : List (List UInt8)) :
    (List.intercalate [comma] texts).length =
      (texts.map List.length).sum + (texts.length - 1) := by
  induction texts with
  | nil => rfl
  | cons text texts ih =>
    cases texts with
    | nil => simp [List.intercalate]
    | cons next rest =>
      have hstep : List.intercalate [comma] (text :: next :: rest) =
          text ++ comma :: List.intercalate [comma] (next :: rest) := by
        simp [List.intercalate, List.intersperse]
      rw [hstep, length_append, length_cons, ih]
      simp only [map_cons, sum_cons, length_cons]
      omega

omit [JsonLib] in
theorem firsts_of_nodup {α : Type*} {fields : List (String × α)}
    (h : (fields.map Prod.fst).Nodup) : firsts fields = fields := by
  induction fields with
  | nil => rfl
  | cons field rest ih =>
    rw [map_cons, nodup_cons] at h
    rw [firsts, ih h.2, filter_eq_self.mpr]
    intro other hother
    have hne : other.1 ≠ field.1 := fun heq => h.1 (heq ▸ mem_map_of_mem hother)
    simpa using hne

theorem dumpFields_eq (fields : List (String × Json)) :
    dumpFields fields = fields.map (fun field => (field.1, dump field.2)) := by
  induction fields with
  | nil => rfl
  | cons field rest ih =>
    obtain ⟨key, value⟩ := field
    rw [dumpFields, ih, map_cons]

def fieldWidth (field : String × Json) : ℕ :=
  (strText (utf8 field.1)).length + 1 + (dump field.2).length

theorem length_dump_obj {fields : List (String × Json)} (h : (fields.map Prod.fst).Nodup) :
    (dump (.obj fields)).length =
      (fields.map fieldWidth).sum + (fields.length - 1) + 2 := by
  have hkeys : ((dumpFields fields).map Prod.fst).Nodup := by
    rw [dumpFields_eq, map_map]
    exact h
  have hperm : (sortFields (dumpFields fields)).Perm (dumpFields fields) := by
    rw [sortFields, firsts_of_nodup hkeys]
    exact perm_insertionSort _ _
  have hsum : (((sortFields (dumpFields fields)).map fieldText).map List.length).sum =
      (fields.map fieldWidth).sum := by
    rw [((hperm.map fieldText).map List.length).sum_eq, dumpFields_eq, map_map, map_map]
    congr 1
    refine map_congr_left (fun field _ => ?_)
    simp only [Function.comp_apply, fieldText, fieldWidth, length_append, length_cons]
    omega
  have hlength : (sortFields (dumpFields fields)).length = fields.length := by
    rw [hperm.length_eq, dumpFields_eq, length_map]
  rw [dump, bracket, length_append, length_cons, length_intercalate_comma, hsum,
    length_map, hlength, length_singleton]

omit [JsonLib] in
def escapedWidth (s : List UInt8) : ℕ := (s.map (fun b => (escapeByte b).length)).sum

omit [JsonLib] in
theorem escapedWidth_replicate (n : ℕ) (b : UInt8) :
    escapedWidth (List.replicate n b) = n * (escapeByte b).length := by
  simp [escapedWidth]

omit [JsonLib] in
theorem length_strText (s : List UInt8) : (strText s).length = escapedWidth s + 2 := by
  simp [strText, escapedWidth, length_flatMap]

omit [JsonLib] in
theorem length_decimal_le {n k : ℕ} (hk : 0 < k) (h : n < 10 ^ k) : (decimal n).length ≤ k := by
  unfold decimal
  split
  · exact hk
  · rw [length_reverse, length_map]
    exact (Nat.digits_length_le_iff (by decide) n).mpr h

end Json

end KimServing.Library

import KimServing.Library.Utf8Lossy
import Mathlib.Data.Int.Notation

/-! # Streaming detokenization

The gateway decodes the whole token list again for every delta and emits what the
text has gained. It refuses a text that does not start with what it emitted
before. A string is the list of its code points.
-/
namespace KimServing.Gateway
open Library Incremental List

abbrev Decode := List ℤ → Except String (List ℕ)

structure IncrementalDecoder where
  tokens : List ℤ := []
  decoded : List ℕ := []
  deriving DecidableEq

namespace IncrementalDecoder

def append (decode : Decode) (d : IncrementalDecoder) (tokenIds : List ℤ) :
    IncrementalDecoder × Except String (List ℕ) :=
  let d := { d with tokens := d.tokens ++ tokenIds }
  match decode d.tokens with
  | .error text => (d, .error text)
  | .ok decoded =>
    if d.decoded <+: decoded then
      ({ d with decoded := decoded }, .ok (decoded.drop d.decoded.length))
    else (d, .error "incremental decode changed text that was already emitted")

/-- Every call returns, and the returned texts add up to the text of all tokens. -/
def Streams (decode : Decode) (chunks : List (List ℤ)) : Prop :=
  ∃ texts : List (List ℕ), (feedAll (append decode) {} chunks).2 = texts.map Except.ok ∧
    decode chunks.flatten = .ok texts.flatten

section
variable {text : List ℤ → List ℕ}

variable {d : IncrementalDecoder}

theorem append_total (hd : d.decoded = text d.tokens) (tokenIds : List ℤ) :
    append (fun ids => .ok (text ids)) d tokenIds =
      if text d.tokens <+: text (d.tokens ++ tokenIds) then
        (⟨d.tokens ++ tokenIds, text (d.tokens ++ tokenIds)⟩,
          .ok ((text (d.tokens ++ tokenIds)).drop (text d.tokens).length))
      else
        (⟨d.tokens ++ tokenIds, d.decoded⟩,
          .error "incremental decode changed text that was already emitted") := by
  simp only [append, hd]

theorem feedAll_ok {chunks : List (List ℤ)} {texts : List (List ℕ)}
    (hd : d.decoded = text d.tokens)
    (h : (feedAll (append fun ids => .ok (text ids)) d chunks).2 = texts.map Except.ok) :
    text d.tokens ++ texts.flatten = text (d.tokens ++ chunks.flatten) ∧
      ∀ xs ys, chunks = xs ++ ys → text (d.tokens ++ xs.flatten) <+:
        text (d.tokens ++ chunks.flatten) := by
  induction chunks generalizing d texts with
  | nil =>
    cases texts with
    | nil =>
      refine ⟨by simp, fun xs ys hsplit => ?_⟩
      obtain ⟨rfl, rfl⟩ := append_eq_nil_iff.mp hsplit.symm
      exact prefix_refl _
    | cons => cases h
  | cons chunk chunks ih =>
    rw [feedAll_cons, append_total hd] at h
    by_cases hstart : text d.tokens <+: text (d.tokens ++ chunk)
    · rw [if_pos hstart] at h
      cases texts with
      | nil => cases h
      | cons t =>
        obtain ⟨ht, hrest⟩ := List.cons.inj h
        obtain ⟨hsum, hcuts⟩ := ih rfl hrest
        simp only [append_assoc] at hsum hcuts
        obtain ⟨gained, hgained⟩ := hstart
        have htext : t = gained := by
          rw [← Except.ok.inj ht, ← hgained, drop_left]
        subst htext
        rw [flatten_cons, flatten_cons, ← append_assoc, hgained, hsum]
        refine ⟨rfl, fun xs ys hsplit => ?_⟩
        cases xs with
        | nil =>
          refine List.IsPrefix.trans ?_ (hcuts [] chunks rfl)
          simp only [flatten_nil, append_nil]
          exact ⟨t, hgained⟩
        | cons x xs =>
          obtain ⟨rfl, hrest⟩ := List.cons.inj hsplit
          exact hcuts xs ys hrest
    · rw [if_neg hstart] at h
      cases texts with
      | nil => cases h
      | cons => cases (List.cons.inj h).1

theorem feedAll_of_cuts (hmono : ∀ xs ys, (text xs).length ≤ (text (xs ++ ys)).length)
    {chunks : List (List ℤ)} (hd : d.decoded = text d.tokens) (hcuts : ∀ xs ys, chunks = xs ++ ys →
      text (d.tokens ++ xs.flatten) <+: text (d.tokens ++ chunks.flatten)) :
    ∃ texts : List (List ℕ),
      (feedAll (append fun ids => .ok (text ids)) d chunks).2 = texts.map Except.ok := by
  induction chunks generalizing d with
  | nil => exact ⟨[], rfl⟩
  | cons chunk chunks ih =>
    have hstart : text d.tokens <+: text (d.tokens ++ chunk) := by
      have hfirst := hcuts [] (chunk :: chunks) rfl
      have hsecond := hcuts [chunk] chunks rfl
      simp only [flatten_nil, append_nil, flatten_cons] at hfirst hsecond
      exact prefix_of_prefix_length_le hfirst hsecond (hmono _ _)
    have hnext := ih (d := ⟨d.tokens ++ chunk, text (d.tokens ++ chunk)⟩) rfl
      (fun xs ys hsplit => by
        have hcut := hcuts (chunk :: xs) ys (by rw [hsplit]; rfl)
        rwa [flatten_cons, flatten_cons, ← append_assoc,
          ← append_assoc] at hcut)
    obtain ⟨texts, htexts⟩ := hnext
    refine ⟨(text (d.tokens ++ chunk)).drop (text d.tokens).length :: texts, ?_⟩
    rw [feedAll_cons, append_total hd, if_pos hstart]
    simp only [htexts, map_cons]

end

/-! ## Byte-level tokenizers -/

def byteDecode (bytes : ℤ → List UInt8) (ids : List ℤ) : List ℕ :=
  Utf8.lossy (ids.flatMap bytes)

/-- Streaming agrees with whole decoding exactly when no cut between two chunks divides
a character other than the replacement character. -/
theorem streams_iff_cleanCuts (bytes : ℤ → List UInt8) (chunks : List (List ℤ))
    (hvalid : Utf8.valid (chunks.flatten.flatMap bytes) = true) :
    Streams (fun ids => .ok (byteDecode bytes ids)) chunks ↔
      ∀ before after, chunks = before ++ after →
        Utf8.CleanCut (before.flatten.flatMap bytes) (after.flatten.flatMap bytes) := by
  have hcut : ∀ before after, chunks = before ++ after →
      (byteDecode bytes before.flatten <+: byteDecode bytes chunks.flatten ↔
        Utf8.CleanCut (before.flatten.flatMap bytes) (after.flatten.flatMap bytes)) := by
    rintro before after rfl
    rw [byteDecode, byteDecode, List.flatten_append, List.flatMap_append]
    apply Utf8.lossy_isPrefix_iff
    rw [← List.flatMap_append, ← List.flatten_append]
    exact Utf8.complete_of_valid hvalid
  constructor
  · rintro ⟨texts, htexts, -⟩ before after hsplit
    exact (hcut before after hsplit).mp ((feedAll_ok rfl htexts).2 before after hsplit)
  · intro hclean
    have hmono : ∀ xs ys, (byteDecode bytes xs).length ≤ (byteDecode bytes (xs ++ ys)).length := by
      intro xs ys
      rw [byteDecode, byteDecode, List.flatMap_append]
      exact Utf8.length_lossy_le _ _
    obtain ⟨texts, htexts⟩ := feedAll_of_cuts hmono (d := {}) rfl
      (fun before after hsplit => (hcut before after hsplit).mpr (hclean before after hsplit))
    refine ⟨texts, htexts, ?_⟩
    exact congrArg Except.ok (feedAll_ok rfl htexts).1.symm

def accentBytes : ℤ → List UInt8
  | 1 => [0xc3]
  | 2 => [0xa9]
  | _ => []

theorem streams_iff_cleanCuts_letters :
    Utf8.valid ([[1, 2], [1, 2]].flatten.flatMap accentBytes) = true ∧
      Streams (fun ids => .ok (byteDecode accentBytes ids)) [[1, 2], [1, 2]] := by
  refine ⟨by decide, (streams_iff_cleanCuts accentBytes [[1, 2], [1, 2]] (by decide)).mpr ?_⟩
  intro before after hsplit
  rcases before with _ | ⟨first, _ | ⟨second, rest⟩⟩
  · exact Or.inl rfl
  · obtain ⟨rfl, -⟩ := List.cons.inj hsplit
    exact Or.inl (by decide)
  · obtain ⟨rfl, htail⟩ := List.cons.inj hsplit
    obtain ⟨rfl, hrest⟩ := List.cons.inj htail
    obtain ⟨rfl, rfl⟩ := List.append_eq_nil_iff.mp hrest.symm
    exact Or.inl (by decide)

/-- The first byte alone is emitted as the replacement character, which the whole
letter takes back. -/
theorem divided_character_raises :
    Utf8.valid ([[1], [2]].flatten.flatMap accentBytes) = true ∧
      (feedAll (append fun ids => .ok (byteDecode accentBytes ids)) {} [[1], [2]]).2 =
        [.ok [0xfffd],
          .error "incremental decode changed text that was already emitted"] ∧
      ¬Streams (fun ids => .ok (byteDecode accentBytes ids)) [[1], [2]] := by
  have hrun : (feedAll (append fun ids => .ok (byteDecode accentBytes ids)) {} [[1], [2]]).2 =
      [.ok [0xfffd], .error "incremental decode changed text that was already emitted"] := by
    decide
  refine ⟨by decide, hrun, ?_⟩
  rintro ⟨texts, htexts, -⟩
  rw [hrun] at htexts
  match texts with
  | [] | [_] => cases htexts
  | _ :: _ :: _ => cases (List.cons.inj (List.cons.inj htexts).2).1

end IncrementalDecoder

end KimServing.Gateway

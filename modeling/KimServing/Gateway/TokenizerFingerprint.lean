import KimServing.Library.Framing
import KimServing.Library.Utf8
import Mathlib.Order.Basic
import Mathlib.Tactic.NormNum

/-! # Fingerprints of the tokenizer

The assets of a tokenizer directory are fed to SHA-256 one after the other, each with
the lengths of its name and its contents. Two directories feed the same bytes only if
they hold the same assets, and no directory feeds the bytes of a chat template. The
hash function itself is a parameter; the hash object is the bytes it was fed.
-/
namespace KimServing.Gateway
open Library List

variable {chunkSize : ℕ} {name : String}

inductive FingerprintError where
  | tokenizerError (text : List UInt8)
  | overflowError
  deriving DecidableEq

def tokenizerFingerprintVersion : List UInt8 := utf8 "kim-llm-tokenizer-fingerprint-v1" ++ [0]

def chatTemplateFingerprintVersion : List UInt8 := utf8 "kim-llm-chat-template-v1" ++ [0]

def tokenizerAssetNames : List String :=
  ["tokenizer.json", "tokenizer.model", "spiece.model", "tokenizer_config.json",
    "special_tokens_map.json", "added_tokens.json"]

structure Asset where
  size : ℕ
  content : List UInt8
  deriving DecidableEq

structure TokenizerDirectory where
  path : List UInt8
  isDir : Bool
  file : String → Option Asset

/-! ## The functions -/

def toBytes (width n : ℕ) : Except FingerprintError (List UInt8) :=
  if n < 256 ^ width then .ok (bigEndian width n) else .error .overflowError

def readChunks (chunkSize : ℕ) : ℕ → List UInt8 → List UInt8 → List UInt8
  | 0, digest, _ => digest
  | rounds + 1, digest, input =>
    if (input.take chunkSize).isEmpty then digest
    else readChunks chunkSize rounds (digest ++ input.take chunkSize) (input.drop chunkSize)

def hashAsset (chunkSize : ℕ) (digest : List UInt8) (asset : String × Asset) :
    Except FingerprintError (List UInt8) := do
  let name := utf8 asset.1
  let nameSize ← toBytes 4 name.length
  let size ← toBytes 8 asset.2.size
  return readChunks chunkSize (asset.2.content.length + 1) (digest ++ nameSize ++ name ++ size)
    asset.2.content

def tokenizerAssetsInput (chunkSize : ℕ) (root : TokenizerDirectory) :
    Except FingerprintError (List UInt8) :=
  let assets := tokenizerAssetNames.filterMap fun name => (root.file name).map (name, ·)
  if root.isDir = false then
    .error (.tokenizerError (utf8 "Tokenizer directory does not exist: " ++ root.path))
  else if (assets.any fun asset =>
      ["tokenizer.json", "tokenizer.model", "spiece.model"].contains asset.1) = false then
    .error (.tokenizerError
      (utf8 "Tokenizer directory has no tokenizer.json, tokenizer.model, or spiece.model"))
  else assets.foldlM (hashAsset chunkSize) tokenizerFingerprintVersion

def chatTemplateInput (chatTemplate : List UInt8) : Except FingerprintError (List UInt8) :=
  if chatTemplate.isEmpty then
    .error (.tokenizerError (utf8 "Tokenizer does not define a chat template"))
  else .ok (chatTemplateFingerprintVersion ++ chatTemplate)

section Hash
variable (hexdigest : List UInt8 → List UInt8)

def fingerprintTokenizerAssets (chunkSize : ℕ) (root : TokenizerDirectory) :
    Except FingerprintError (List UInt8) :=
  (tokenizerAssetsInput chunkSize root).map fun digest => utf8 "sha256:" ++ hexdigest digest

def fingerprintChatTemplate (chatTemplate : List UInt8) : Except FingerprintError (List UInt8) :=
  (chatTemplateInput chatTemplate).map fun digest => utf8 "sha256:" ++ hexdigest digest

end Hash

/-! ## Reading in chunks -/

theorem readChunks_eq {rounds : ℕ} (hchunk : 0 < chunkSize) (digest : List UInt8)
    {input : List UInt8} (hrounds : input.length < rounds) :
    readChunks chunkSize rounds digest input = digest ++ input := by
  induction rounds generalizing digest input with
  | zero => omega
  | succ rounds ih =>
    rw [readChunks]
    split
    next hempty =>
      have hinput : input = [] := by
        have hnil := isEmpty_iff.mp hempty
        rw [take_eq_nil_iff] at hnil
        exact hnil.resolve_left (Nat.ne_of_gt hchunk)
      rw [hinput, append_nil]
    next hmore =>
      have hpos : 0 < input.length := by
        rw [length_pos_iff]
        rintro rfl
        simp at hmore
      rw [ih (digest ++ input.take chunkSize) (by rw [length_drop]; omega),
        append_assoc, take_append_drop]

theorem hashAsset_eq (hchunk : 0 < chunkSize) (digest : List UInt8) (asset : String × Asset) :
    hashAsset chunkSize digest asset = (do
      let nameSize ← toBytes 4 (utf8 asset.1).length
      let size ← toBytes 8 asset.2.size
      return digest ++ nameSize ++ utf8 asset.1 ++ size ++ asset.2.content) := by
  simp only [hashAsset, readChunks_eq hchunk _ (Nat.lt_succ_self _)]

theorem tokenizerAssetsInput_chunk {c d : ℕ} (hc : 0 < c) (hd : 0 < d)
    (root : TokenizerDirectory) : tokenizerAssetsInput c root = tokenizerAssetsInput d root := by
  have hsame : hashAsset c = hashAsset d := by
    funext digest asset
    rw [hashAsset_eq hc, hashAsset_eq hd]
  unfold tokenizerAssetsInput
  rw [hsame]

/-! ## What is fed -/

namespace TokenizerDirectory

def content (root : TokenizerDirectory) (name : String) : Option (List UInt8) :=
  (root.file name).map Asset.content

/-- The files keep their size while they are hashed, and the size fits its field. -/
def Steady (root : TokenizerDirectory) : Prop :=
  ∀ name ∈ tokenizerAssetNames, ∀ asset ∈ root.file name,
    asset.size = asset.content.length ∧ asset.content.length < 2 ^ 64

end TokenizerDirectory

theorem toBytes_eq {width n : ℕ} (h : n < 256 ^ width) :
    toBytes width n = .ok (bigEndian width n) := if_pos h

theorem length_assetName (h : name ∈ tokenizerAssetNames) : (utf8 name).length < 256 ^ 4 := by
  have hall : ∀ n ∈ tokenizerAssetNames, (utf8 n).length < 256 ^ 4 := by decide +kernel
  exact hall name h

theorem hashAsset_record (hchunk : 0 < chunkSize) (digest : List UInt8)
    (hname : name ∈ tokenizerAssetNames) {asset : Asset}
    (hsize : asset.size = asset.content.length) (hshort : asset.content.length < 2 ^ 64) :
    hashAsset chunkSize digest (name, asset) =
      .ok (digest ++ record utf8 (bigEndian 4) (bigEndian 8) name asset.content) := by
  rw [hashAsset_eq hchunk, toBytes_eq (length_assetName hname),
    toBytes_eq (by rw [hsize]; exact hshort.trans_eq (by norm_num))]
  simp [record, prefixed, hsize, bind, Except.bind, pure, Except.pure]

theorem hashAssets_recordStream (hchunk : 0 < chunkSize) (root : TokenizerDirectory)
    {names : List String} (hnames : ∀ name ∈ names, name ∈ tokenizerAssetNames)
    (hsteady : root.Steady) (digest : List UInt8) :
    (names.filterMap fun name => (root.file name).map (name, ·)).foldlM (hashAsset chunkSize)
        digest =
      .ok (digest ++ recordStream utf8 (bigEndian 4) (bigEndian 8) names root.content) := by
  induction names generalizing digest with
  | nil => simp [recordStream, pure, Except.pure]
  | cons name names ih =>
    have hrest := ih fun n hn => hnames n (mem_cons_of_mem name hn)
    rw [recordStream_cons]
    cases hfile : root.file name with
    | none =>
      simpa [filterMap_cons, hfile, TokenizerDirectory.content] using hrest digest
    | some asset =>
      have hname := hnames name mem_cons_self
      obtain ⟨hsize, hshort⟩ := hsteady name hname asset hfile
      have hfirst := hashAsset_record hchunk digest hname hsize hshort
      have htail := hrest (digest ++ record utf8 (bigEndian 4) (bigEndian 8) name asset.content)
      simp only [filterMap_cons, hfile, Option.map_some, foldlM_cons, hfirst]
      simpa [bind, Except.bind, TokenizerDirectory.content, hfile] using htail

theorem tokenizerAssetsInput_eq_ok (hchunk : 0 < chunkSize) {root : TokenizerDirectory}
    (hsteady : root.Steady) {input : List UInt8}
    (h : tokenizerAssetsInput chunkSize root = .ok input) :
    input = tokenizerFingerprintVersion ++
      recordStream utf8 (bigEndian 4) (bigEndian 8) tokenizerAssetNames root.content := by
  simp only [tokenizerAssetsInput] at h
  split at h
  · cases h
  · split at h
    · cases h
    · rw [hashAssets_recordStream hchunk root (fun _ hn => hn) hsteady] at h
      exact (Except.ok.inj h).symm

theorem content_eq_of_input_eq {a b : TokenizerDirectory} (ha : a.Steady) (hb : b.Steady)
    (h : recordStream utf8 (bigEndian 4) (bigEndian 8) tokenizerAssetNames a.content =
      recordStream utf8 (bigEndian 4) (bigEndian 8) tokenizerAssetNames b.content) :
    ∀ name ∈ tokenizerAssetNames, a.content name = b.content name := by
  have hshort (root : TokenizerDirectory) (hroot : root.Steady) :
      ∀ name ∈ tokenizerAssetNames, ∀ c ∈ root.content name, c.length < 256 ^ 8 := by
    intro name hname c hc
    obtain ⟨asset, hasset, rfl⟩ := Option.map_eq_some_iff.mp hc
    exact (hroot name hname asset hasset).2.trans_eq (by norm_num)
  refine recordStream_injective (bigEndian_sizeCode 4) (bigEndian_sizeCode 8) ?_
    (fun name => length_assetName) ?_ (hshort a ha) (hshort b hb) h
  · intro n hn
    have hwidth := length_bigEndian 4 n
    simp [hn] at hwidth
  · exact (by decide : tokenizerAssetNames.Nodup).map utf8_injective

theorem version_append_ne (x y : List UInt8) :
    tokenizerFingerprintVersion ++ x ≠ chatTemplateFingerprintVersion ++ y := by
  intro h
  have htake := congrArg (List.take 9) h
  rw [take_append_of_le_length (by decide +kernel),
    take_append_of_le_length (by decide +kernel)] at htake
  exact absurd htake (by decide +kernel)

/-- Directories that feed the same bytes hold the same assets, no chat template feeds
them, and the size of the chunks does not matter. -/
theorem fingerprint_input_unambiguous {a b : TokenizerDirectory} (ha : a.Steady)
    (hb : b.Steady) {c d : ℕ} (hc : 0 < c) (hd : 0 < d) {x y : List UInt8}
    (hx : tokenizerAssetsInput c a = .ok x) (hy : tokenizerAssetsInput d b = .ok y) :
    (x = y → ∀ name ∈ tokenizerAssetNames, a.content name = b.content name) ∧
      (∀ chatTemplate, chatTemplateInput chatTemplate ≠ .ok x) ∧
      ∀ hexdigest, fingerprintTokenizerAssets hexdigest c a =
        fingerprintTokenizerAssets hexdigest d a := by
  have hxin := tokenizerAssetsInput_eq_ok hc ha hx
  have hyin := tokenizerAssetsInput_eq_ok hd hb hy
  refine ⟨?_, ?_, ?_⟩
  · rintro rfl
    exact content_eq_of_input_eq ha hb (List.append_cancel_left (hxin.symm.trans hyin))
  · intro chatTemplate h
    unfold chatTemplateInput at h
    split at h
    · cases h
    · exact version_append_ne _ _ (hxin.symm.trans (Except.ok.inj h).symm)
  · intro hexdigest
    rw [fingerprintTokenizerAssets, fingerprintTokenizerAssets, tokenizerAssetsInput_chunk hc hd]

def singleAsset (name : String) (content : List UInt8) : TokenizerDirectory where
  path := utf8 "/models/tokenizer"
  isDir := true
  file n := if n = name then some ⟨content.length, content⟩ else none

theorem singleAsset_steady {content : List UInt8} (h : content.length < 2 ^ 64) :
    (singleAsset name content).Steady := by
  intro n _ asset hasset
  have hfile : (if n = name then some ⟨content.length, content⟩ else none) = some asset := hasset
  split at hfile
  · cases hfile
    exact ⟨rfl, h⟩
  · cases hfile

/-- Here two directories differ in the last byte of their only asset. -/
theorem fingerprint_input_unambiguous_models :
    (singleAsset "tokenizer.model" [1, 2]).Steady ∧
      (singleAsset "tokenizer.model" [1, 3]).Steady ∧
      ∃ x y, tokenizerAssetsInput 1 (singleAsset "tokenizer.model" [1, 2]) = .ok x ∧
        tokenizerAssetsInput (1024 * 1024) (singleAsset "tokenizer.model" [1, 3]) = .ok y ∧
        x ≠ y ∧ ∀ chatTemplate, chatTemplateInput chatTemplate ≠ .ok x := by
  have ha := @singleAsset_steady "tokenizer.model" [1, 2] (by norm_num)
  have hb := @singleAsset_steady "tokenizer.model" [1, 3] (by norm_num)
  have hx : tokenizerAssetsInput 1 (singleAsset "tokenizer.model" [1, 2]) =
      .ok (tokenizerFingerprintVersion ++ [0, 0, 0, 15] ++ utf8 "tokenizer.model" ++
        [0, 0, 0, 0, 0, 0, 0, 2, 1, 2]) := by decide +kernel
  have hy : tokenizerAssetsInput (1024 * 1024) (singleAsset "tokenizer.model" [1, 3]) =
      .ok (tokenizerFingerprintVersion ++ [0, 0, 0, 15] ++ utf8 "tokenizer.model" ++
        [0, 0, 0, 0, 0, 0, 0, 2, 1, 3]) := by decide +kernel
  obtain ⟨hread, htemplate, -⟩ :=
    fingerprint_input_unambiguous ha hb Nat.one_pos (by norm_num) hx hy
  refine ⟨ha, hb, _, _, hx, hy, ?_, htemplate⟩
  intro hsame
  exact absurd (hread hsame "tokenizer.model" (by decide)) (by decide)

end KimServing.Gateway

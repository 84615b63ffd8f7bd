import KimServing.Apps.WorkerConfiguration
import KimServing.Library.Table

/-! # Calibration of the SLO profile

The calibration runs each bucket of active requests several times and emits one profile
entry for each workload index, with the largest of its measured percentiles. The worker
keys the same entries by the number of input tokens. Each index keeps the size that was
recorded last, so a profile is loaded if these sizes differ within each bucket.
-/
namespace KimServing.SloCalibration
open Library Ipc List

variable {first second : ℤ}

structure Arguments where
  activeBuckets : List ℤ := [1, 2, 4, 8]
  repetitions : ℤ := 3
  measuredRequests : ℤ := 160
  maxNewTokens : ℤ := 32
  ttftSloMs : Double := .finite 50
  safetyMarginMs : Double := .finite 3
  deriving DecidableEq

structure Paths where
  worker : Bool
  engineConfig : Bool
  tokenizer : Bool
  workloadsFile : Bool
  outputDir : Bool

def parseOptions (paths : Paths) (args : Arguments) : Except String Arguments :=
  if !(paths.worker && paths.engineConfig && paths.tokenizer && paths.workloadsFile) then
    .error "worker, Engine, Tokenizer, or workload path is missing"
  else if paths.outputDir then
    .error "output_dir already exists; calibration evidence is immutable"
  else if args.repetitions < 3 ∨ args.measuredRequests ≤ 0 ∨ args.maxNewTokens ≤ 0 ∨
      args.ttftSloMs.atMost (.finite 0) = true ∨ args.safetyMarginMs.less (.finite 0) = true ∨
      args.activeBuckets = [] ∨
      args.activeBuckets.any (fun bucket => decide (bucket ≤ 0) || decide (8 < bucket)) = true ∨
      args.activeBuckets.dedup.length ≠ args.activeBuckets.length then
    .error "invalid calibration repetitions, limits, SLO, or buckets"
  else .ok { args with activeBuckets := args.activeBuckets.insertionSort (· ≤ ·) }

inductive Raised where
  | runtimeError (text : String)
  | keyError
  | stopIteration
  | conversion
  | noSamples
  | tooFewSamples
  deriving DecidableEq

def subscript (object : Json) (key : String) : Except Raised Json :=
  (object.find key).elim (.error .keyError) .ok

structure Measurement where
  index : ℤ
  inputTokens : ℤ
  p95 : Double
  deriving DecidableEq

abbrev Summaries := List ((ℤ × ℕ) × Json)

structure Tally where
  byWorkload : AList (fun _ : ℤ => List Double) := ∅
  tokenCounts : AList (fun _ : ℤ => ℤ) := ∅

def Tally.record (t : Tally) (m : Measurement) : Tally where
  tokenCounts := t.tokenCounts.insert m.index m.inputTokens
  byWorkload := t.byWorkload.insert m.index ((t.byWorkload.lookup m.index).getD [] ++ [m.p95])

structure Evidence where
  workloadIndex : ℤ
  maxInputTokens : ℤ
  activeRequests : ℤ
  samples : List Double
  mean : Double
  sampleStdev : Double
  prediction : Double

def Evidence.entry (e : Evidence) : Json :=
  .obj [("max_input_tokens", .int e.maxInputTokens), ("active_requests", .int e.activeRequests),
    ("predicted_ttft_p95_ms", .float e.prediction)]

def maxOf : List Double → Except Raised Double
  | [] => .error .noSamples
  | first :: rest => .ok (Double.greatest first rest)

def firstManifest : Summaries → Except Raised Json
  | [] => .error .stopIteration
  | run :: _ =>
    match run.2.find "manifest" with
    | some (.obj fields) => .ok (.obj fields)
    | _ => .error (.runtimeError "calibration summary is missing manifest")

/-- What the language adds to numbers: those that a text spells, and statistics. -/
class Numerics where
  intOfText : List UInt8 → Option ℤ
  floatOfText : List UInt8 → Option Double
  fmean : List Double → Double
  stdev : List Double → Double

section
variable [Numerics]

def toInt : Json → Except Raised ℤ
  | .int i => .ok i
  | .bool b => .ok (if b then 1 else 0)
  | .float (.finite q) => .ok (q.num.tdiv q.den)
  | .str s => (Numerics.intOfText s).elim (.error .conversion) .ok
  | _ => .error .conversion

def toFloat : Json → Except Raised Double
  | .int i => if (Double.ofInt i).isFinite then .ok (Double.ofInt i) else .error .conversion
  | .bool b => .ok (.finite (if b then 1 else 0))
  | .float x => .ok x
  | .str s => (Numerics.floatOfText s).elim (.error .conversion) .ok
  | _ => .error .conversion

def readWorkload (workload : Json) : Except Raised Measurement := do
  if workload.isObject = false then throw (.runtimeError "invalid workload result")
  let distribution ← match workload.find "ttft_ms" with
    | some (.obj fields) => .ok (Json.obj fields)
    | _ => .error (.runtimeError "calibration workload lacks TTFT")
  let index ← toInt (← subscript workload "workload_index")
  let inputTokens ← toInt (← subscript workload "input_tokens")
  let p95 ← toFloat (← subscript distribution "p95")
  return ⟨index, inputTokens, p95⟩

def readSummary (runs : Summaries) (active : ℤ) (repetition : ℕ) :
    Except Raised (List Measurement) := do
  let summary ← (runs.lookup (active, repetition)).elim (.error .keyError) .ok
  match summary.find "workload_results" with
  | some (.arr workloads) => workloads.mapM readWorkload
  | _ => .error (.runtimeError "calibration summary lacks workload_results")

def stdevOf (samples : List Double) : Except Raised Double :=
  if samples.length < 2 then .error .tooFewSamples else .ok (Numerics.stdev samples)

def Tally.evidence (t : Tally) (active : ℤ) (index : ℤ) : Except Raised Evidence := do
  let samples ← (t.byWorkload.lookup index).elim (.error .keyError) .ok
  let prediction ← maxOf samples
  let maxInputTokens ← (t.tokenCounts.lookup index).elim (.error .keyError) .ok
  let sampleStdev ← stdevOf samples
  return ⟨index, maxInputTokens, active, samples, Numerics.fmean samples, sampleStdev, prediction⟩

def aggregateBucket (options : Arguments) (runs : Summaries) (active : ℤ) :
    Except Raised (List Evidence) := do
  let measurements ← (List.range' 1 options.repetitions.toNat).mapM (readSummary runs active)
  let tally := measurements.flatten.foldl Tally.record {}
  (tally.byWorkload.keys.insertionSort (· ≤ ·)).mapM (tally.evidence active)

def aggregate (options : Arguments) (runs : Summaries) : Except Raised (Json × List Evidence) := do
  let manifest ← firstManifest runs
  let buckets ← options.activeBuckets.mapM (aggregateBucket options runs)
  let evidence := buckets.flatten
  let modelId ← subscript manifest "model_id"
  let revision ← subscript manifest "revision"
  let engineFingerprint ← subscript manifest "engine_fingerprint"
  return (.obj [("model_id", modelId), ("revision", revision),
    ("engine_fingerprint", engineFingerprint), ("ttft_slo_ms", .float options.ttftSloMs),
    ("safety_margin_ms", .float options.safetyMarginMs),
    ("entries", .arr (evidence.map Evidence.entry))], evidence)

end

/-! ## What a bucket collects -/

/-- The last measurement of its index. -/
def IsLast (ms : List Measurement) (m : Measurement) : Prop :=
  ms.reverse.find? (fun m' => m'.index == m.index) = some m
  deriving Decidable

/-- The token count of an index is the last one, its samples are measurements of it, and no
index is lost. -/
structure TallyInv (t : Tally) (ms : List Measurement) : Prop where
  counted : ∀ index, t.tokenCounts.lookup index =
    (ms.reverse.find? (fun m => m.index == index)).map Measurement.inputTokens
  sampled : ∀ index samples, t.byWorkload.lookup index = some samples →
    ∀ x ∈ samples, ∃ m ∈ ms, m.index = index ∧ m.p95 = x
  kept : ∀ m ∈ ms, m.index ∈ t.byWorkload

theorem TallyInv.record {t : Tally} {ms : List Measurement} (h : TallyInv t ms)
    (m : Measurement) : TallyInv (t.record m) (ms ++ [m]) where
  counted index := by
    simp only [Tally.record, lookup_insert_eq, reverse_append, reverse_singleton, singleton_append,
      find?_cons, h.counted index]
    by_cases hindex : index = m.index
    · simp [hindex]
    · rw [if_neg hindex, beq_false_of_ne (Ne.symm hindex)]
  sampled index samples hlookup x hx := by
    simp only [Tally.record] at hlookup
    rw [lookup_insert_eq] at hlookup
    split at hlookup
    · next hindex =>
      rw [← Option.some.inj hlookup, mem_append, mem_singleton] at hx
      rcases hx with hx | rfl
      · cases hold : t.byWorkload.lookup m.index with
        | none => simp [hold] at hx
        | some old =>
          rw [hold] at hx
          obtain ⟨m', hm', hindex', hx⟩ := h.sampled m.index old hold x hx
          exact ⟨m', mem_append_left _ hm', hindex'.trans hindex.symm, hx⟩
      · exact ⟨m, by simp, hindex.symm, rfl⟩
    · obtain ⟨m', hm', hsample⟩ := h.sampled index samples hlookup x hx
      exact ⟨m', mem_append_left _ hm', hsample⟩
  kept m' hm' := by
    simp only [Tally.record, AList.mem_insert]
    rcases mem_append.mp hm' with hm' | hm'
    · exact .inr (h.kept m' hm')
    · rw [mem_singleton.mp hm']
      exact .inl rfl

theorem tallyInv_foldl (ms : List Measurement) : TallyInv (ms.foldl Tally.record {}) ms := by
  induction ms using List.reverseRecOn with
  | nil =>
    refine ⟨fun _ => rfl, fun _ _ h => ?_, nofun⟩
    simp at h
  | append_singleton ms m ih =>
    rw [foldl_concat]
    exact ih.record m

theorem elim_eq_ok {α : Type} {value : Option α} {e : Raised} {a : α} :
    value.elim (.error e) .ok = (.ok a : Except Raised α) ↔ value = some a := by
  cases value <;> simp

section
variable [Numerics]

def Measured (options : Arguments) (runs : Summaries) (active : ℤ) (m : Measurement) : Prop :=
  ∃ repetition ∈ List.range' 1 options.repetitions.toNat, ∃ measurements,
    readSummary runs active repetition = .ok measurements ∧ m ∈ measurements

/-- The last measurement of its index over all repetitions of a bucket. -/
def Recorded (options : Arguments) (runs : Summaries) (active : ℤ) (m : Measurement) : Prop :=
  ∃ measurements, (List.range' 1 options.repetitions.toNat).mapM (readSummary runs active) =
    .ok measurements ∧ IsLast measurements.flatten m

theorem evidence_of_ok {t : Tally} {active index : ℤ} {e : Evidence}
    (h : t.evidence active index = .ok e) :
    e.workloadIndex = index ∧ e.activeRequests = active ∧
      t.tokenCounts.lookup index = some e.maxInputTokens ∧
      ∃ samples, t.byWorkload.lookup index = some samples ∧ e.prediction ∈ samples := by
  obtain ⟨samples, hsamples, h⟩ := bind_eq_ok.mp h
  obtain ⟨prediction, hprediction, h⟩ := bind_eq_ok.mp h
  obtain ⟨tokens, htokens, h⟩ := bind_eq_ok.mp h
  obtain ⟨deviation, -, h⟩ := bind_eq_ok.mp h
  cases h
  refine ⟨rfl, rfl, elim_eq_ok.mp htokens, samples, elim_eq_ok.mp hsamples, ?_⟩
  cases samples with
  | nil => cases hprediction
  | cons first rest =>
    cases hprediction
    exact Double.greatest_mem first rest

/-- The evidence of one bucket: one entry for each index, with the token count that was recorded
last and a percentile that was measured. -/
structure BucketSpec (options : Arguments) (runs : Summaries) (active : ℤ)
    (bucket : List Evidence) : Prop where
  active_eq : ∀ e ∈ bucket, e.activeRequests = active
  tokens : ∀ e ∈ bucket, ∃ m, Measured options runs active m ∧ Recorded options runs active m ∧
    m.index = e.workloadIndex ∧ m.inputTokens = e.maxInputTokens
  recorded : ∀ m, Recorded options runs active m →
    ∃ e ∈ bucket, e.workloadIndex = m.index ∧ e.maxInputTokens = m.inputTokens
  prediction : ∀ e ∈ bucket, ∃ m, Measured options runs active m ∧ m.p95 = e.prediction
  distinct : bucket.Pairwise fun e e' => e.workloadIndex ≠ e'.workloadIndex
  nonempty : (∃ m, Measured options runs active m) → bucket ≠ []

theorem bucketSpec {options : Arguments} {runs : Summaries} {active : ℤ} {bucket : List Evidence}
    (h : aggregateBucket options runs active = .ok bucket) :
    BucketSpec options runs active bucket := by
  obtain ⟨measurements, hall, h⟩ := bind_eq_ok.mp h
  have hread := mapM_eq_ok.mp hall
  rw [mapM_eq_ok] at h
  have htally := tallyInv_foldl measurements.flatten
  set tally := measurements.flatten.foldl Tally.record {} with htallyDef
  have hmeasured : ∀ m ∈ measurements.flatten, Measured options runs active m := by
    intro m hm
    obtain ⟨ms, hms, hm⟩ := mem_flatten.mp hm
    obtain ⟨repetition, hrepetition, hsummary⟩ := exists_source_of_mem hread hms
    exact ⟨repetition, hrepetition, ms, hsummary, hm⟩
  have hsource : ∀ e ∈ bucket, ∃ index, tally.evidence active index = .ok e := by
    intro e he
    obtain ⟨index, -, hevidence⟩ := exists_source_of_mem h he
    exact ⟨index, hevidence⟩
  have hkept {m : Measurement} (hm : m ∈ measurements.flatten) :
      ∃ e ∈ bucket, tally.evidence active m.index = .ok e :=
    exists_read_of_mem h ((mem_insertionSort _).mpr (AList.mem_keys.mp (htally.kept m hm)))
  refine ⟨?_, ?_, ?_, ?_, ?_, ?_⟩
  · intro e he
    obtain ⟨index, hevidence⟩ := hsource e he
    exact (evidence_of_ok hevidence).2.1
  · intro e he
    obtain ⟨index, hevidence⟩ := hsource e he
    obtain ⟨rfl, -, hcount, -⟩ := evidence_of_ok hevidence
    obtain ⟨m, hlast, htokens⟩ := Option.map_eq_some_iff.mp ((htally.counted _).symm.trans hcount)
    have hindex : m.index = e.workloadIndex := by simpa using find?_some hlast
    have hm : m ∈ measurements.flatten := mem_reverse.mp (mem_of_find?_eq_some hlast)
    exact ⟨m, hmeasured m hm, ⟨measurements, hall, by rwa [IsLast, hindex]⟩, hindex, htokens⟩
  · rintro m ⟨measurements', hall', hlast⟩
    cases hall.symm.trans hall'
    obtain ⟨e, he, hevidence⟩ := hkept (mem_reverse.mp (mem_of_find?_eq_some hlast))
    obtain ⟨hindex, -, hcount, -⟩ := evidence_of_ok hevidence
    rw [htally.counted, hlast] at hcount
    exact ⟨e, he, hindex, (Option.some.inj hcount).symm⟩
  · intro e he
    obtain ⟨index, hevidence⟩ := hsource e he
    obtain ⟨-, -, -, samples, hsamples, hprediction⟩ := evidence_of_ok hevidence
    obtain ⟨m, hm, -, hp95⟩ := htally.sampled _ _ hsamples _ hprediction
    exact ⟨m, hmeasured m hm, hp95⟩
  · have hkeys : (tally.byWorkload.keys.insertionSort (· ≤ ·)).Nodup :=
      (perm_insertionSort _ _).nodup_iff.mpr tally.byWorkload.nodupKeys
    refine pairwise_read h hkeys ?_
    intro index index' e e' hne he he'
    rw [(evidence_of_ok he).1, (evidence_of_ok he').1]
    exact hne
  · rintro ⟨m, repetition, hrepetition, ms, hsummary, hm⟩
    obtain ⟨ms', hms', hsummary'⟩ := exists_read_of_mem hread hrepetition
    cases hsummary.symm.trans hsummary'
    obtain ⟨e, he, -⟩ := hkept (mem_flatten_of_mem hms' hm)
    exact ne_nil_of_mem he

end

/-! ## The whole profile -/

theorem parseOptions_of_ok {paths : Paths} {args options : Arguments}
    (h : parseOptions paths args = .ok options) :
    options.ttftSloMs.atMost (.finite 0) = false ∧ options.safetyMarginMs.less (.finite 0) = false ∧
      (∀ bucket ∈ options.activeBuckets, 0 < bucket ∧ bucket ≤ 8) ∧
      options.activeBuckets.Nodup := by
  unfold parseOptions at h
  split at h
  · cases h
  split at h
  · cases h
  split at h
  · cases h
  next hchecks =>
  cases h
  push Not at hchecks
  obtain ⟨-, -, -, hslo, hmargin, -, hbuckets, hdistinct⟩ := hchecks
  have hsorted := args.activeBuckets.perm_insertionSort (· ≤ ·)
  refine ⟨by simpa using hslo, by simpa using hmargin, ?_, ?_⟩
  · intro bucket hbucket
    by_contra hrange
    refine hbuckets (any_eq_true.mpr ⟨bucket, hsorted.subset hbucket, ?_⟩)
    simp only [Bool.or_eq_true, decide_eq_true_eq]
    omega
  · refine hsorted.nodup_iff.mpr ?_
    have hsublist := (args.activeBuckets.dedup_sublist).eq_of_length hdistinct
    rw [← hsublist]
    exact nodup_dedup _

theorem finite_pos_of_atMost {x : Double} (hfinite : x.isFinite = true)
    (h : x.atMost (.finite 0) = false) : ∃ q, x = .finite q ∧ 0 < q := by
  cases x with
  | finite q =>
    simp only [Double.atMost, Double.less, Bool.or_eq_false_iff, Bool.and_eq_false_iff,
      decide_eq_false_iff_not, not_lt, beq_eq_false_iff_ne, ne_eq, Double.finite.injEq] at h
    refine ⟨q, rfl, lt_of_le_of_ne h.1 (fun hzero => ?_)⟩
    simp [hzero] at h
  | infinite | nan => cases hfinite

theorem finite_nonneg_of_less {x : Double} (hfinite : x.isFinite = true)
    (h : x.less (.finite 0) = false) : ∃ q, x = .finite q ∧ 0 ≤ q := by
  cases x with
  | finite q => exact ⟨q, rfl, by simpa [Double.less] using h⟩
  | infinite | nan => cases hfinite

def Evidence.read (e : Evidence) : SloProfileEntry ℚ where
  maxInputTokens := UInt64.ofNat e.maxInputTokens.toNat
  activeRequests := UInt64.ofNat e.activeRequests.toNat
  predictedTtftP95Ms := match e.prediction with
    | .finite q => q
    | _ => 0

structure Fits (e : Evidence) : Prop where
  tokens : 0 < e.maxInputTokens ∧ e.maxInputTokens < 2 ^ 64
  active : 0 < e.activeRequests ∧ e.activeRequests ≤ 8
  prediction : e.prediction.positive = true

theorem Fits.parse {e : Evidence} (h : Fits e) :
    WorkerConfigurationLoader.parseSloEntry e.entry = .ok e.read := by
  obtain ⟨htokens, hactive, hprediction⟩ := h
  obtain ⟨index, tokens, active, samples, mean, deviation, prediction⟩ := e
  cases prediction with
  | finite =>
    exact WorkerConfigurationLoader.parseSloEntry_ok
      (WorkerConfigurationLoader.requireExactFields_ok rfl (by simp) _) rfl rfl rfl
      ⟨htokens.1.le, htokens.2⟩ ⟨hactive.1.le, by omega⟩ (by simpa [Double.positive] using hprediction)
  | infinite | nan => cases hprediction

section
variable [Numerics]

theorem aggregate_of_ok {options : Arguments} {runs : Summaries} {profile : Json}
    {evidence : List Evidence} (h : aggregate options runs = .ok (profile, evidence)) :
    ∃ manifest modelId revision engineFingerprint buckets,
      firstManifest runs = .ok manifest ∧ manifest.find "model_id" = some modelId ∧
      manifest.find "revision" = some revision ∧
      manifest.find "engine_fingerprint" = some engineFingerprint ∧
      List.Forall₂ (fun active bucket => aggregateBucket options runs active = .ok bucket)
        options.activeBuckets buckets ∧
      evidence = buckets.flatten ∧
      profile = .obj [("model_id", modelId), ("revision", revision),
        ("engine_fingerprint", engineFingerprint), ("ttft_slo_ms", .float options.ttftSloMs),
        ("safety_margin_ms", .float options.safetyMarginMs),
        ("entries", .arr (evidence.map Evidence.entry))] := by
  obtain ⟨manifest, hmanifest, h⟩ := bind_eq_ok.mp h
  obtain ⟨buckets, hbuckets, h⟩ := bind_eq_ok.mp h
  obtain ⟨modelId, hmodel, h⟩ := bind_eq_ok.mp h
  obtain ⟨revision, hrevision, h⟩ := bind_eq_ok.mp h
  obtain ⟨fingerprint, hfingerprint, h⟩ := bind_eq_ok.mp h
  cases h
  exact ⟨manifest, modelId, revision, fingerprint, buckets, hmanifest, elim_eq_ok.mp hmodel,
    elim_eq_ok.mp hrevision, elim_eq_ok.mp hfingerprint, mapM_eq_ok.mp hbuckets, rfl, rfl⟩

/-- What the calibration is given: names in the manifest, workloads with tokens and times,
each under an index of its own. -/
structure Calibrated (options : Arguments) (runs : Summaries) : Prop where
  named : ∀ manifest, firstManifest runs = .ok manifest →
    ∀ key ∈ ["model_id", "revision", "engine_fingerprint"],
      ∃ s, s ≠ [] ∧ manifest.find key = some (.str s)
  positive : ∀ active ∈ options.activeBuckets, ∀ m, Measured options runs active m →
    0 < m.inputTokens ∧ m.p95.positive = true
  measured : ∃ active ∈ options.activeBuckets, ∃ m, Measured options runs active m
  indexed : ∀ run ∈ runs, ∀ measurements, readSummary runs run.1.1 run.1.2 = .ok measurements →
    (measurements.map Measurement.index).Nodup

/-- The sizes that were recorded last differ within each bucket, the worker can store them, and
the target and the margin are finite. -/
structure Loadable (options : Arguments) (runs : Summaries) : Prop where
  sized : ∀ active ∈ options.activeBuckets, ∀ m, Recorded options runs active m →
    m.inputTokens < 2 ^ 64
  separate : ∀ active ∈ options.activeBuckets, ∀ m m', Recorded options runs active m →
    Recorded options runs active m' → m.index ≠ m'.index → m.inputTokens ≠ m'.inputTokens
  target : options.ttftSloMs.isFinite = true
  margin : options.safetyMarginMs.isFinite = true

variable {options : Arguments} {runs : Summaries} {evidence : List Evidence}
  {buckets : List (List Evidence)}

theorem fits_of_mem (hcalibrated : Calibrated options runs)
    (hrange : ∀ bucket ∈ options.activeBuckets, 0 < bucket ∧ bucket ≤ 8)
    (hbuckets : List.Forall₂ (fun active bucket => aggregateBucket options runs active = .ok bucket)
      options.activeBuckets buckets) {e : Evidence} (he : e ∈ buckets.flatten)
    (hsized : e.maxInputTokens < 2 ^ 64) : Fits e := by
  obtain ⟨bucket, hbucket, he⟩ := mem_flatten.mp he
  obtain ⟨active, hactive, hok⟩ := exists_source_of_mem hbuckets hbucket
  have hspec := bucketSpec hok
  obtain ⟨m, hm, -, -, htokens⟩ := hspec.tokens e he
  obtain ⟨m', hm', hprediction⟩ := hspec.prediction e he
  refine ⟨⟨?_, hsized⟩, ?_, ?_⟩
  · rw [← htokens]
    exact (hcalibrated.positive active hactive m hm).1
  · rw [hspec.active_eq e he]
    exact hrange active hactive
  · rw [← hprediction]
    exact (hcalibrated.positive active hactive m' hm').2

/-- The evidence is what the worker can store and tell apart exactly if the sizes that were
recorded last are. -/
theorem evidence_separate_iff (hnodup : options.activeBuckets.Nodup)
    (hbuckets : List.Forall₂ (fun active bucket => aggregateBucket options runs active = .ok bucket)
      options.activeBuckets buckets) :
    ((∀ e ∈ buckets.flatten, e.maxInputTokens < 2 ^ 64) ∧ buckets.flatten.Pairwise fun e e' =>
      e.maxInputTokens ≠ e'.maxInputTokens ∨ e.activeRequests ≠ e'.activeRequests) ↔
    ∀ active ∈ options.activeBuckets, ∀ m, Recorded options runs active m →
      m.inputTokens < 2 ^ 64 ∧ ∀ m', Recorded options runs active m' → m.index ≠ m'.index →
        m.inputTokens ≠ m'.inputTokens := by
  constructor
  · rintro ⟨hsized, hdistinct⟩ active hactive m hm
    obtain ⟨bucket, hbucket, hok⟩ := exists_read_of_mem hbuckets hactive
    have hspec := bucketSpec hok
    obtain ⟨e, he, hindex, htokens⟩ := hspec.recorded m hm
    refine ⟨htokens ▸ hsized e (mem_flatten_of_mem hbucket he), fun m' hm' hne => ?_⟩
    obtain ⟨e', he', hindex', htokens'⟩ := hspec.recorded m' hm'
    have hsymm : Std.Symm fun e e' : Evidence =>
        e.maxInputTokens ≠ e'.maxInputTokens ∨ e.activeRequests ≠ e'.activeRequests :=
      ⟨fun _ _ h => h.imp Ne.symm Ne.symm⟩
    have hapart := hdistinct.forall (mem_flatten_of_mem hbucket he)
      (mem_flatten_of_mem hbucket he') (fun h => hne (by rw [← hindex, ← hindex', h]))
    rw [hspec.active_eq e he, hspec.active_eq e' he', htokens, htokens'] at hapart
    exact hapart.resolve_right (not_not.mpr rfl)
  · intro hrecorded
    constructor
    · intro e he
      obtain ⟨bucket, hbucket, he⟩ := mem_flatten.mp he
      obtain ⟨active, hactive, hok⟩ := exists_source_of_mem hbuckets hbucket
      obtain ⟨m, -, hm, -, htokens⟩ := (bucketSpec hok).tokens e he
      exact htokens ▸ (hrecorded active hactive m hm).1
    rw [pairwise_flatten]
    constructor
    · intro bucket hbucket
      obtain ⟨active, hactive, hok⟩ := exists_source_of_mem hbuckets hbucket
      have hspec := bucketSpec hok
      refine hspec.distinct.imp_of_mem ?_
      intro e e' he he' hne
      obtain ⟨m, -, hm, hindex, htokens⟩ := hspec.tokens e he
      obtain ⟨m', -, hm', hindex', htokens'⟩ := hspec.tokens e' he'
      left
      rw [← htokens, ← htokens']
      exact (hrecorded active hactive m hm).2 m' hm' (by rwa [hindex, hindex'])
    · refine pairwise_read hbuckets hnodup ?_
      intro active active' bucket bucket' hne hok hok' e he e' he'
      right
      rw [(bucketSpec hok).active_eq e he, (bucketSpec hok').active_eq e' he']
      exact hne

omit [Numerics] in
theorem Fits.toNat_read {e : Evidence} (h : Fits e) :
    (e.read.maxInputTokens.toNat : ℤ) = e.maxInputTokens ∧
      (e.read.activeRequests.toNat : ℤ) = e.activeRequests := by
  have hword : ∀ i : ℤ, 0 < i → i < 2 ^ 64 → ((UInt64.ofNat i.toNat).toNat : ℤ) = i := by
    intro i hi hlt
    rw [UInt64.toNat_ofNat_of_lt' (by simp only [UInt64.size]; omega)]
    omega
  obtain ⟨htokens, hactive, -⟩ := h
  exact ⟨hword _ htokens.1 htokens.2, hword _ hactive.1 (by omega)⟩

omit [Numerics] in
theorem sameBucket_read {e e' : Evidence} (h : Fits e) (h' : Fits e') : e.read.sameBucket e'.read = false ↔
      e.maxInputTokens ≠ e'.maxInputTokens ∨ e.activeRequests ≠ e'.activeRequests := by
  obtain ⟨htokens, hactive⟩ := h.toNat_read
  obtain ⟨htokens', hactive'⟩ := h'.toNat_read
  simp only [SloProfileEntry.sameBucket, Bool.and_eq_false_iff, beq_eq_false_iff_ne, ne_eq,
    ← UInt64.toNat_inj]
  omega

omit [Numerics] in
theorem hasDuplicate_read {evidence : List Evidence} (hfits : ∀ e ∈ evidence, Fits e) :
    SloAdmissionPolicy.hasDuplicate ((evidence.map Evidence.read).insertionSort
      SloProfileEntry.before) = false ↔ evidence.Pairwise fun e e' =>
        e.maxInputTokens ≠ e'.maxInputTokens ∨ e.activeRequests ≠ e'.activeRequests := by
  rw [SloAdmissionPolicy.hasDuplicate_insertionSort, pairwise_map]
  refine Pairwise.iff_of_mem ?_
  intro e e' he he'
  exact sameBucket_read (hfits e he) (hfits e' he')

omit [Numerics] in
theorem create_read {evidence : List Evidence} (hfits : ∀ e ∈ evidence, Fits e)
    (hdistinct : evidence.Pairwise fun e e' =>
      e.maxInputTokens ≠ e'.maxInputTokens ∨ e.activeRequests ≠ e'.activeRequests)
    (hne : evidence ≠ []) {modelId revision engineFingerprint : List UInt8} (hmodel : modelId ≠ [])
    (hrevision : revision ≠ []) (hfingerprint : engineFingerprint ≠ []) {slo margin : ℚ}
    (hslo : 0 < slo) (hmargin : 0 ≤ margin) :
    ∃ policy, SloAdmissionPolicy.create
      ⟨modelId, revision, engineFingerprint, slo, margin, evidence.map Evidence.read⟩ =
        .ok policy := by
  refine ⟨_, SloAdmissionPolicy.create_eq_ok.mpr
    ⟨⟨?_, ?_⟩, (hasDuplicate_read hfits).mpr hdistinct, rfl⟩⟩
  · simp only [hmodel, hrevision, hfingerprint, map_eq_nil_iff, hne, false_or, or_false]
    exact not_or.mpr ⟨not_le.mpr hslo, not_lt.mpr hmargin⟩
  · intro entry hentry
    obtain ⟨e, he, rfl⟩ := mem_map.mp hentry
    obtain ⟨htokens, hactive⟩ := (hfits e he).toNat_read
    have hpositive := (hfits e he).tokens
    have hpositive' := (hfits e he).active
    have hprediction := (hfits e he).prediction
    refine ⟨?_, ?_, ?_⟩
    · rw [ne_eq, ← UInt64.toNat_inj, UInt64.toNat_zero]
      omega
    · rw [ne_eq, ← UInt64.toNat_inj, UInt64.toNat_zero]
      omega
    · cases hp : e.prediction with
      | finite => simpa [Evidence.read, hp, Double.positive] using hprediction
      | infinite | nan => simp [hp, Double.positive] at hprediction

omit [Numerics] in
theorem parse_entries {evidence : List Evidence} (hfits : ∀ e ∈ evidence, Fits e) :
    (evidence.map Evidence.entry).mapM WorkerConfigurationLoader.parseSloEntry =
      .ok (evidence.map Evidence.read) := by
  rw [mapM_eq_ok, List.forall₂_map_left_iff, List.forall₂_map_right_iff, List.forall₂_same]
  exact fun e he => (hfits e he).parse

/-- A calibrated profile is loaded by the worker exactly if the sizes that were recorded last
are told apart and everything is in range. -/
theorem calibrated_profile_loads {paths : Paths} {args : Arguments} {profile : Json}
    (hoptions : parseOptions paths args = .ok options)
    (haggregate : aggregate options runs = .ok (profile, evidence))
    (hcalibrated : Calibrated options runs) :
    (∃ config policy, WorkerConfigurationLoader.parseSloPolicy profile = .ok config ∧
      SloAdmissionPolicy.create config = .ok policy) ↔ Loadable options runs := by
  obtain ⟨htarget, hmargin, hrange, hnodup⟩ := parseOptions_of_ok hoptions
  obtain ⟨manifest, modelId, revision, fingerprint, buckets, hmanifest, hmodel, hrevision,
    hfingerprint, hbuckets, rfl, rfl⟩ := aggregate_of_ok haggregate
  have hne : buckets.flatten ≠ [] := by
    obtain ⟨active, hactive, hmeasured⟩ := hcalibrated.measured
    obtain ⟨bucket, hbucket, hok⟩ := exists_read_of_mem hbuckets hactive
    obtain ⟨e, he⟩ := List.exists_mem_of_ne_nil bucket ((bucketSpec hok).nonempty hmeasured)
    exact List.ne_nil_of_mem (List.mem_flatten_of_mem hbucket he)
  have hfits (hsized : ∀ e ∈ buckets.flatten, e.maxInputTokens < 2 ^ 64) :
      ∀ e ∈ buckets.flatten, Fits e :=
    fun e he => fits_of_mem hcalibrated hrange hbuckets he (hsized e he)
  constructor
  · rintro ⟨config, policy, hparse, hcreate⟩
    obtain ⟨hsloFinite, hmarginFinite, hentries⟩ :=
      WorkerConfigurationLoader.parseSloPolicy_read rfl rfl rfl hparse
    have hsized : ∀ e ∈ buckets.flatten, e.maxInputTokens < 2 ^ 64 := by
      intro e he
      obtain ⟨entry, -, hentry⟩ :=
        exists_read_of_mem (mapM_eq_ok.mp hentries) (mem_map_of_mem (f := Evidence.entry) he)
      exact WorkerConfigurationLoader.lt_of_parseSloEntry rfl hentry
    have hread : config.entries = buckets.flatten.map Evidence.read :=
      Except.ok.inj (hentries.symm.trans (parse_entries (hfits hsized)))
    have hdistinct := (SloAdmissionPolicy.create_eq_ok.mp hcreate).2.1
    rw [hread, hasDuplicate_read (hfits hsized)] at hdistinct
    have hrecorded := (evidence_separate_iff hnodup hbuckets).mp ⟨hsized, hdistinct⟩
    exact ⟨fun active hactive m hm => (hrecorded active hactive m hm).1,
      fun active hactive m m' hm hm' => (hrecorded active hactive m hm).2 m' hm', hsloFinite,
      hmarginFinite⟩
  · intro hloadable
    -- the header
    have hnamed := hcalibrated.named manifest hmanifest
    obtain ⟨model, hmodelNe, hmodel'⟩ := hnamed "model_id" (by simp)
    obtain ⟨rev, hrevNe, hrevision'⟩ := hnamed "revision" (by simp)
    obtain ⟨engine, hengineNe, hfingerprint'⟩ := hnamed "engine_fingerprint" (by simp)
    cases hmodel.symm.trans hmodel'
    cases hrevision.symm.trans hrevision'
    cases hfingerprint.symm.trans hfingerprint'
    obtain ⟨slo, hslo, hsloPos⟩ := finite_pos_of_atMost hloadable.target htarget
    obtain ⟨margin, hmarginEq, hmarginPos⟩ := finite_nonneg_of_less hloadable.margin hmargin
    -- the entries
    obtain ⟨hsized, hseparate⟩ := (evidence_separate_iff hnodup hbuckets).mpr
      fun active hactive m hm => ⟨hloadable.sized active hactive m hm,
        fun m' hm' => hloadable.separate active hactive m m' hm hm'⟩
    obtain ⟨policy, hpolicy⟩ := create_read (hfits hsized) hseparate hne hmodelNe hrevNe hengineNe
      hsloPos hmarginPos
    refine ⟨_, policy, ?_, hpolicy⟩
    rw [hslo, hmarginEq]
    exact WorkerConfigurationLoader.parseSloPolicy_ok
      (WorkerConfigurationLoader.requireExactFields_ok rfl (by simp) _) rfl rfl rfl rfl rfl rfl
      hmodelNe hrevNe hengineNe hsloPos hmarginPos (by simpa using hne) (parse_entries (hfits hsized))

end

/-! ## Two workloads -/

@[reducible] def equalSamples : Numerics where
  intOfText _ := none
  floatOfText _ := none
  fmean samples := samples.headD .nan
  stdev _ := .finite 0

def workloadJson (index inputTokens : ℤ) : Json :=
  .obj [("workload_index", .int index), ("input_tokens", .int inputTokens),
    ("ttft_ms", .obj [("p95", .float (.finite 20))])]

def summaryJson (first second : ℤ) : Json :=
  .obj [("manifest", .obj [("model_id", .str [0x6d]), ("revision", .str [0x72]),
      ("engine_fingerprint", .str [0x65])]),
    ("workload_results", .arr [workloadJson 0 first, workloadJson 1 second])]

def oneBucket : Arguments where
  activeBuckets := [1]

/-- The sizes change places in the second repetition. -/
def threeRuns (first second : ℤ) : Summaries :=
  [((1, 1), summaryJson first second), ((1, 2), summaryJson second first),
    ((1, 3), summaryJson first second)]

def measurementsOf (first second : ℤ) : List Measurement :=
  [⟨0, first, .finite 20⟩, ⟨1, second, .finite 20⟩]

theorem readSummary_threeRuns {active : ℤ} {repetition : ℕ} {measurements : List Measurement}
    (h : @readSummary equalSamples (threeRuns first second) active repetition = .ok measurements) :
    measurements = measurementsOf first second ∨ measurements = measurementsOf second first := by
  obtain ⟨summary, hsummary, h⟩ := bind_eq_ok.mp h
  have hsame : summary = summaryJson first second ∨ summary = summaryJson second first := by
    have hlookup := elim_eq_ok.mp hsummary
    simp only [threeRuns, List.lookup_cons, List.lookup_nil] at hlookup
    repeat' split at hlookup
    all_goals first
      | exact .inl (Option.some.inj hlookup).symm
      | exact .inr (Option.some.inj hlookup).symm
      | cases hlookup
  rcases hsame with rfl | rfl
  · exact .inl (Except.ok.inj h).symm
  · exact .inr (Except.ok.inj h).symm

theorem calibrated_threeRuns (hfirst : 0 < first) (hsecond : 0 < second) :
    @Calibrated equalSamples oneBucket (threeRuns first second) := by
  refine @Calibrated.mk equalSamples _ _ ?_ ?_ ?_ ?_
  · intro manifest hmanifest key hkey
    cases hmanifest
    simp only [mem_cons, not_mem_nil, or_false] at hkey
    rcases hkey with rfl | rfl | rfl
    · exact ⟨[0x6d], by decide, rfl⟩
    · exact ⟨[0x72], by decide, rfl⟩
    · exact ⟨[0x65], by decide, rfl⟩
  · rintro active - m ⟨repetition, -, measurements, hread, hm⟩
    rcases readSummary_threeRuns hread with rfl | rfl
    all_goals
      simp only [measurementsOf, mem_cons, not_mem_nil, or_false] at hm
      rcases hm with rfl | rfl
    all_goals exact ⟨by assumption, rfl⟩
  · exact ⟨1, by decide, ⟨0, first, .finite 20⟩, 1, by decide, _, rfl, mem_cons_self⟩
  · intro run _ measurements hread
    rcases readSummary_threeRuns hread with rfl | rfl
    all_goals exact nodup_cons.mpr ⟨by simp, nodup_singleton _⟩

theorem loadable_threeRuns : @Loadable equalSamples oneBucket (threeRuns 16 32) := by
  have hrecorded {active : ℤ} (hactive : active ∈ oneBucket.activeBuckets) {m : Measurement}
      (hm : @Recorded equalSamples oneBucket (threeRuns 16 32) active m) :
      m = ⟨0, 16, .finite 20⟩ ∨ m = ⟨1, 32, .finite 20⟩ := by
    obtain rfl := mem_singleton.mp hactive
    obtain ⟨measurements, hread, hlast⟩ := hm
    have hall : measurements = [measurementsOf 16 32, measurementsOf 32 16, measurementsOf 16 32] :=
      (Except.ok.inj hread).symm
    have hchecked : ∀ m ∈ measurements.flatten, IsLast measurements.flatten m →
        m = ⟨0, 16, .finite 20⟩ ∨ m = ⟨1, 32, .finite 20⟩ := by
      rw [hall]
      decide
    exact hchecked m (mem_reverse.mp (mem_of_find?_eq_some hlast)) hlast
  refine @Loadable.mk equalSamples _ _ ?_ ?_ rfl rfl
  · intro active hactive m hm
    rcases hrecorded hactive hm with rfl | rfl <;> decide
  · intro active hactive m m' hm hm' hindex
    rcases hrecorded hactive hm with rfl | rfl <;> rcases hrecorded hactive hm' with rfl | rfl
    · exact absurd rfl hindex
    · decide
    · decide
    · exact absurd rfl hindex

theorem calibrated_profile_loads_twoSizes :
    ∃ profile evidence config policy,
      @aggregate equalSamples oneBucket (threeRuns 16 32) = .ok (profile, evidence) ∧
      WorkerConfigurationLoader.parseSloPolicy profile = .ok config ∧
      SloAdmissionPolicy.create config = .ok policy := by
  have hoptions : parseOptions ⟨true, true, true, true, false⟩ oneBucket = .ok oneBucket := by
    decide
  obtain ⟨profile, evidence, haggregate⟩ : ∃ profile evidence,
      @aggregate equalSamples oneBucket (threeRuns 16 32) = .ok (profile, evidence) := ⟨_, _, rfl⟩
  obtain ⟨config, policy, hload⟩ := (@calibrated_profile_loads equalSamples _ _ _ _ _ _ hoptions
    haggregate (calibrated_threeRuns (by decide) (by decide))).mpr loadable_threeRuns
  exact ⟨profile, evidence, config, policy, haggregate, hload⟩

/-- Two workloads with the same number of input tokens are one bucket to the worker, which
refuses the profile. -/
theorem equal_sizes_refused :
    ∃ profile evidence config,
      parseOptions ⟨true, true, true, true, false⟩ oneBucket = .ok oneBucket ∧
      @Calibrated equalSamples oneBucket (threeRuns 16 16) ∧
      @aggregate equalSamples oneBucket (threeRuns 16 16) = .ok (profile, evidence) ∧
      WorkerConfigurationLoader.parseSloPolicy profile = .ok config ∧
      SloAdmissionPolicy.create config = .error "duplicate SLO profile bucket" := by
  refine ⟨_, _, _, by decide, calibrated_threeRuns (by decide) (by decide), rfl, rfl, ?_⟩
  decide +kernel

end KimServing.SloCalibration

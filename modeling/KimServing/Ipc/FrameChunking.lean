import KimServing.Ipc.FrameDecoder

/-! # Cutting a byte stream into chunks

Where a stream is cut does not change how the decoder ends. It can change what the
decoder delivers: a call that meets a bad length drops the payloads that it has
finished before, while an earlier call would have delivered them.
-/
namespace KimServing.Ipc.FrameDecoder
open Library Incremental List

/-- A stream read frame by frame: how many frames are whole, and whether a bad length
comes after them. -/
def scan (max : ℕ) (bytes : List UInt8) : ℕ × Bool :=
  if bytes.length < 4 then (0, false)
  else if lengthOf (bytes.take 4) = 0 ∨ max < lengthOf (bytes.take 4) then (0, true)
  else if bytes.length < 4 + lengthOf (bytes.take 4) then (0, false)
  else
    let rest := scan max (bytes.drop (4 + lengthOf (bytes.take 4)))
    (rest.1 + 1, rest.2)
termination_by bytes.length
decreasing_by
  rw [length_drop]
  omega

/-- The bytes of a stream before the chunk in which a bad length ends. -/
def bytesBefore (max : ℕ) (read : List UInt8) : List (List UInt8) → List UInt8
  | [] => read
  | chunk :: chunks =>
    if (scan max (read ++ chunk)).2 then read else bytesBefore max (read ++ chunk) chunks

/-- How many frames end before the chunk in which a bad length ends. -/
def framesBefore (max : ℕ) (chunks : List (List UInt8)) : ℕ :=
  (scan max (bytesBefore max [] chunks)).1

def delivered (d : FrameDecoder) (chunks : List (List UInt8)) : List (List UInt8) :=
  (feedAll feed d chunks).2.flatMap FrameDecodeResult.payloads

variable {d : FrameDecoder}

theorem feedAll_failed (h : d.failure.isSome = true) (chunks : List (List UInt8)) :
    (feedAll feed d chunks).1 = d ∧ d.delivered chunks = [] := by
  obtain ⟨status, hstatus⟩ := Option.isSome_iff_exists.mp h
  have hfeed (chunk : List UInt8) : d.feed chunk = (d, ⟨.error, status, []⟩) := by
    simp only [feed, hstatus]
  induction chunks with
  | nil => exact ⟨rfl, rfl⟩
  | cons chunk chunks ih =>
    simp only [delivered, feedAll_cons, hfeed, flatMap_cons, nil_append]
    exact ih

theorem run_scan (config : FrameCodecConfig) (bytes : List UInt8) :
    (run push { config } bytes).2.length = (scan config.maxPayloadBytes bytes).1 ∧
      (run push { config } bytes).1.failure.isSome = (scan config.maxPayloadBytes bytes).2 := by
  have hheader {bytes : List UInt8} (hlong : ¬bytes.length < 4) := run_append_of
    (run_prefixBytes_full (d := { config }) rfl (bytes.take 4)
      (ne_nil_of_length_pos (by rw [length_take]; omega))
      (by simp only [length_nil, length_take]; omega)) (bytes.drop 4)
  simp only [take_append_drop, nil_append, readLength, ne_eq, not_true_eq_false,
    if_false] at hheader
  fun_induction scan config.maxPayloadBytes bytes with
  | case1 bytes hshort =>
    rw [run_prefixBytes rfl (by simpa using hshort)]
    exact ⟨rfl, rfl⟩
  | case2 bytes hlong hbad =>
    rw [hheader hlong]
    rcases hbad with hzero | hmax
    · rw [if_pos hzero, run_failed rfl]
      exact ⟨rfl, rfl⟩
    · rw [if_neg (by omega), if_pos hmax, run_failed rfl]
      exact ⟨rfl, rfl⟩
  | case3 bytes hlong hgood hpart =>
    rw [hheader hlong, if_neg (by omega), if_neg (by omega), run_payload rfl]
    · exact ⟨rfl, rfl⟩
    · rw [length_take]
      omega
    · simp only [length_nil, length_drop]
      omega
  | case4 bytes hlong hgood hwhole rest ih =>
    have hlength : ((bytes.drop 4).take (lengthOf (bytes.take 4))).length =
        lengthOf (bytes.take 4) := by
      rw [length_take, length_drop]
      omega
    have hpayload := run_append_of (run_payload_full
      (d := ⟨config, bytes.take 4, lengthOf (bytes.take 4), [], none⟩) rfl
      (by rw [length_take]; omega) ((bytes.drop 4).take (lengthOf (bytes.take 4)))
      (ne_nil_of_length_pos (by omega)) (by rw [length_nil, hlength, Nat.zero_add]))
      ((bytes.drop 4).drop (lengthOf (bytes.take 4)))
    rw [take_append_drop, drop_drop] at hpayload
    rw [hheader hlong, if_neg (by omega), if_neg (by omega), hpayload, nil_append,
      length_append, ih.1]
    exact ⟨Nat.add_comm _ _, ih.2⟩

theorem bytesBefore_isPrefix (max : ℕ) (read : List UInt8) (chunks : List (List UInt8)) :
    bytesBefore max read chunks <+: read ++ chunks.flatten := by
  induction chunks generalizing read with
  | nil => simp [bytesBefore]
  | cons chunk chunks ih =>
    rw [bytesBefore, flatten_cons, ← append_assoc]
    split
    · rw [append_assoc]
      exact prefix_append _ _
    · exact ih (read ++ chunk)

theorem feedAll_bytesBefore (config : FrameCodecConfig) (read : List UInt8)
    (chunks : List (List UInt8)) (hd : (run push { config } read).1 = d) :
    (feedAll feed d chunks).1 = (run push { config } (read ++ chunks.flatten)).1 ∧
      (run push { config } read).2 ++ d.delivered chunks =
        (run push { config } (bytesBefore config.maxPayloadBytes read chunks)).2 := by
  induction chunks generalizing d read with
  | nil =>
    subst hd
    simp [feedAll, delivered, bytesBefore]
  | cons chunk chunks ih =>
    have hwell : d.WellFormed := hd ▸ run_invariant (I := WellFormed)
      (fun e b he => push_wellFormed he b) (fun _ => Or.inl ⟨by simp, rfl, rfl⟩) read
    have hrun := @run_append _ _ _ push { config } read chunk
    rw [hd] at hrun
    have hbad := (run_scan config (read ++ chunk)).2
    rw [hrun] at hbad
    rw [flatten_cons, ← append_assoc, bytesBefore, ← hbad]
    simp only [delivered, feedAll_cons, flatMap_cons, feed_eq_run hwell]
    cases hfail : (run push d chunk).1.failure with
    | some status =>
      have hfailed : (run push d chunk).1.failure.isSome = true := by simp [hfail]
      obtain ⟨hstate, hnone⟩ := feedAll_failed hfailed chunks
      rw [delivered] at hnone
      rw [hstate, hnone, run_append, hrun, run_failed hfailed]
      simp [answer, hfail]
    | none =>
      obtain ⟨hstate, hemitted⟩ := ih (read ++ chunk) (congrArg Prod.fst hrun)
      refine ⟨hstate, ?_⟩
      rw [hrun, append_assoc] at hemitted
      rw [answer_ok hfail]
      exact hemitted

/-- Two ways of cutting one stream end in the same failure, or none, and in the same
part of a frame. They deliver the same payloads if and only if as many frames end
before the chunk in which a bad length ends in the one as in the other. -/
theorem chunking_agrees (config : FrameCodecConfig) (d : FrameDecoder)
    (hd : create config = .ok d) (xs ys : List (List UInt8)) (hsame : xs.flatten = ys.flatten) :
    (feedAll feed d xs).1.failure = (feedAll feed d ys).1.failure ∧
      (feedAll feed d xs).1.hasPartialFrame = (feedAll feed d ys).1.hasPartialFrame ∧
      (d.delivered xs = d.delivered ys ↔
        framesBefore config.maxPayloadBytes xs = framesBefore config.maxPayloadBytes ys) := by
  obtain rfl : { config } = d := by
    unfold create at hd
    split at hd <;> cases hd
    rfl
  obtain ⟨hxs, hxsEmitted⟩ := feedAll_bytesBefore config [] xs rfl
  obtain ⟨hys, hysEmitted⟩ := feedAll_bytesBefore config [] ys rfl
  simp only [run_nil, nil_append] at hxs hxsEmitted hys hysEmitted
  rw [hxs, hys, hsame]
  refine ⟨rfl, rfl, ?_⟩
  rw [hxsEmitted, hysEmitted, framesBefore, framesBefore, ← (run_scan config _).1,
    ← (run_scan config _).1]
  refine ⟨congrArg length, fun hlength => ?_⟩
  -- both are prefixes of what the whole stream emits
  have hinitial (chunks : List (List UInt8)) :
      (run push { config } (bytesBefore config.maxPayloadBytes [] chunks)).2 <+:
        (run push { config } chunks.flatten).2 := by
    obtain ⟨rest, hrest⟩ := bytesBefore_isPrefix config.maxPayloadBytes [] chunks
    rw [nil_append] at hrest
    rw [← hrest, run_append]
    exact prefix_append _ _
  exact (prefix_of_prefix_length_le (hsame ▸ hinitial xs) (hinitial ys)
    (Nat.le_of_eq hlength)).eq_of_length hlength

def frameThenZero : List UInt8 := [0, 0, 0, 1, 7] ++ [0, 0, 0, 0]

theorem chunking_agrees_bytes :
    (feedAll feed { config := {} } [frameThenZero.take 5, frameThenZero.drop 5]).1.failure =
        (feedAll feed { config := {} } (frameThenZero.map (fun b => [b]))).1.failure ∧
      delivered { config := {} } [frameThenZero.take 5, frameThenZero.drop 5] =
        delivered { config := {} } (frameThenZero.map (fun b => [b])) := by
  obtain ⟨hfailure, -, hpayloads⟩ := chunking_agrees {} { config := {} } rfl
    [frameThenZero.take 5, frameThenZero.drop 5] (frameThenZero.map (fun b => [b])) rfl
  exact ⟨hfailure, hpayloads.mpr (by decide +kernel)⟩

/-- In one chunk with the zero length the frame is lost, and cut off it is delivered. -/
theorem chunking_loses_payload :
    [frameThenZero].flatten = [frameThenZero.take 5, frameThenZero.drop 5].flatten ∧
      delivered { config := {} } [frameThenZero] = [] ∧
      delivered { config := {} } [frameThenZero.take 5, frameThenZero.drop 5] = [[7]] := by
  decide

end KimServing.Ipc.FrameDecoder

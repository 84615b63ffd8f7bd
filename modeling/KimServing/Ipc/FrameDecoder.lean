import KimServing.Ipc.Encode
import KimServing.Library.Incremental

/-! # The frame decoder

The decoder keeps the bytes of an unfinished prefix, the length that a finished
prefix announced, and the payload read so far. A chunk is consumed in pieces; the
pieces are shown to act like the single bytes, so the cuts between chunks do not
matter.
-/
namespace KimServing.Ipc
open Library Incremental List

inductive FrameDecodeState where
  | needMore
  | framesReady
  | error
  deriving DecidableEq

structure FrameDecodeResult where
  state : FrameDecodeState
  status : Status
  payloads : List (List UInt8)
  deriving DecidableEq

def FrameDecodeResult.isOk (r : FrameDecodeResult) : Bool :=
  decide (r.state ≠ .error) && r.status.isOk

/-- The filled part of the prefix array is a list. A length of zero means that the
prefix has not been read yet. -/
structure FrameDecoder where
  config : FrameCodecConfig
  prefixBytes : List UInt8 := []
  expectedPayloadSize : ℕ := 0
  payload : List UInt8 := []
  failure : Option Status := none
  deriving DecidableEq

namespace FrameDecoder

def create (config : FrameCodecConfig) : Except Status FrameDecoder :=
  if config.maxPayloadBytes = 0 then .error (invalid "max_payload_bytes must be positive")
  else .ok { config := config }

def reset (d : FrameDecoder) : FrameDecoder := { config := d.config }

def failed (d : FrameDecoder) : Bool := d.failure.isSome

def hasPartialFrame (d : FrameDecoder) : Bool :=
  decide (d.prefixBytes ≠ [] ∨ d.expectedPayloadSize ≠ 0)

def fail (d : FrameDecoder) (code : StatusCode) (message : String) : FrameDecoder :=
  { config := d.config, failure := some (.error code message) }

def lengthOf (bytes : List UInt8) : ℕ := bytes.foldl (fun n b => n * 2 ^ 8 + b.toNat) 0

def readLength (d : FrameDecoder) : FrameDecoder :=
  if d.expectedPayloadSize ≠ 0 then d
  else if lengthOf d.prefixBytes = 0 then
    d.fail .invalidInput "frame payload length must be positive"
  else if d.config.maxPayloadBytes < lengthOf d.prefixBytes then
    d.fail .resourceExhausted "frame payload length exceeds max_payload_bytes"
  else { d with expectedPayloadSize := lengthOf d.prefixBytes, payload := [] }

def ready (completed : List (List UInt8)) : FrameDecodeResult :=
  ⟨if completed = [] then .needMore else .framesReady, .success, completed⟩

/-- The loop of `feed`. A round that does not leave the loop finishes a payload, so
the length of the input bounds the rounds. -/
def feedLoop : ℕ → FrameDecoder → List UInt8 → List (List UInt8) → FrameDecoder × FrameDecodeResult
  | 0, d, _, completed => (d, ready completed)
  | rounds + 1, d, bytes, completed =>
    if bytes = [] then (d, ready completed)
    else
      let missing := 4 - d.prefixBytes.length
      let d := { d with prefixBytes := d.prefixBytes ++ bytes.take missing }
      let bytes := bytes.drop missing
      if d.prefixBytes.length < 4 then (d, ready completed)
      else
        let d := d.readLength
        match d.failure with
        | some status => (d, ⟨.error, status, []⟩)
        | none =>
          let toCopy := min (d.expectedPayloadSize - d.payload.length) bytes.length
          let d := { d with payload := d.payload ++ bytes.take toCopy }
          if d.payload.length ≠ d.expectedPayloadSize then (d, ready completed)
          else
            feedLoop rounds { d with payload := [], prefixBytes := [], expectedPayloadSize := 0 }
              (bytes.drop toCopy) (completed ++ [d.payload])

def feed (d : FrameDecoder) (bytes : List UInt8) : FrameDecoder × FrameDecodeResult :=
  match d.failure with
  | some status => (d, ⟨.error, status, []⟩)
  | none => feedLoop bytes.length d bytes []

/-! ## One byte at a time -/

def push (d : FrameDecoder) (b : UInt8) : FrameDecoder × List (List UInt8) :=
  if d.failure.isSome then (d, [])
  else if d.prefixBytes.length < 4 then
    let d := { d with prefixBytes := d.prefixBytes ++ [b] }
    (if d.prefixBytes.length = 4 then d.readLength else d, [])
  else if d.payload.length + 1 = d.expectedPayloadSize then
    ({ d with payload := [], prefixBytes := [], expectedPayloadSize := 0 }, [d.payload ++ [b]])
  else ({ d with payload := d.payload ++ [b] }, [])

/-- Between two bytes the decoder waits for a prefix or for the rest of a payload. -/
def WellFormed (d : FrameDecoder) : Prop :=
  d.failure = none →
    (d.prefixBytes.length < 4 ∧ d.expectedPayloadSize = 0 ∧ d.payload = []) ∨
      (d.prefixBytes.length = 4 ∧ d.payload.length < d.expectedPayloadSize)

section
variable {d : FrameDecoder}

variable {bytes : List UInt8} {rounds : ℕ} {completed : List (List UInt8)}

theorem push_failed (h : d.failure.isSome = true) (b : UInt8) : push d b = (d, []) := if_pos h

theorem run_failed (h : d.failure.isSome = true) (bytes : List UInt8) :
    run push d bytes = (d, []) := by
  induction bytes with
  | nil => rfl
  | cons b bytes ih => rw [run_cons, push_failed h, ih, append_nil]

theorem push_prefixByte (hok : d.failure = none) (hlen : d.prefixBytes.length < 4) (b : UInt8) :
    push d b = (if d.prefixBytes.length = 3 then
      ({ d with prefixBytes := d.prefixBytes ++ [b] } : FrameDecoder).readLength
      else { d with prefixBytes := d.prefixBytes ++ [b] }, []) := by
  simp [push, hok, hlen]

theorem push_payload (hok : d.failure = none) (hlen : d.prefixBytes.length = 4) (b : UInt8) :
    push d b = if d.payload.length + 1 = d.expectedPayloadSize then
        ({ d with payload := [], prefixBytes := [], expectedPayloadSize := 0 }, [d.payload ++ [b]])
      else ({ d with payload := d.payload ++ [b] }, []) := by
  simp [push, hok, hlen]

theorem run_prefixBytes (hok : d.failure = none) (hlen : d.prefixBytes.length + bytes.length < 4) :
    run push d bytes = ({ d with prefixBytes := d.prefixBytes ++ bytes }, []) := by
  induction bytes generalizing d with
  | nil => simp
  | cons b bytes ih =>
    rw [length_cons] at hlen
    have hpush := push_prefixByte hok (show d.prefixBytes.length < 4 by omega) b
    rw [if_neg (by omega)] at hpush
    have hrest : (d.prefixBytes ++ [b]).length + bytes.length < 4 := by
      rw [length_append, length_singleton]
      omega
    rw [run_cons_of hpush, ih (d := { d with prefixBytes := d.prefixBytes ++ [b] }) hok hrest,
      append_assoc]
    rfl

theorem run_prefixBytes_full (hok : d.failure = none) (bytes : List UInt8) (hne : bytes ≠ [])
    (hlen : d.prefixBytes.length + bytes.length = 4) :
    run push d bytes =
      (({ d with prefixBytes := d.prefixBytes ++ bytes } : FrameDecoder).readLength, []) := by
  obtain ⟨front, last, rfl⟩ := (eq_nil_or_concat' bytes).resolve_left hne
  rw [length_append, length_singleton] at hlen
  have hthree : (d.prefixBytes ++ front).length = 3 := by
    rw [length_append]
    omega
  have hpush := push_prefixByte (d := { d with prefixBytes := d.prefixBytes ++ front }) hok
    (show (d.prefixBytes ++ front).length < 4 by omega) last
  rw [if_pos hthree] at hpush
  rw [run_append_of (run_prefixBytes hok (by omega)), run_cons_of hpush, append_assoc]
  rfl

theorem run_payload (hok : d.failure = none) (hheader : d.prefixBytes.length = 4)
    (hlen : d.payload.length + bytes.length < d.expectedPayloadSize) :
    run push d bytes = ({ d with payload := d.payload ++ bytes }, []) := by
  induction bytes generalizing d with
  | nil => simp
  | cons b bytes ih =>
    rw [length_cons] at hlen
    have hpush := push_payload hok hheader b
    rw [if_neg (by omega)] at hpush
    have hrest : (d.payload ++ [b]).length + bytes.length < d.expectedPayloadSize := by
      rw [length_append, length_singleton]
      omega
    rw [run_cons_of hpush, ih (d := { d with payload := d.payload ++ [b] }) hok hheader hrest,
      append_assoc]
    rfl

theorem run_payload_full (hok : d.failure = none) (hheader : d.prefixBytes.length = 4)
    (bytes : List UInt8) (hne : bytes ≠ [])
    (hlen : d.payload.length + bytes.length = d.expectedPayloadSize) :
    run push d bytes =
      ({ d with payload := [], prefixBytes := [], expectedPayloadSize := 0 },
        [d.payload ++ bytes]) := by
  obtain ⟨front, last, rfl⟩ := (eq_nil_or_concat' bytes).resolve_left hne
  rw [length_append, length_singleton] at hlen
  have hfull : (d.payload ++ front).length + 1 = d.expectedPayloadSize := by
    rw [length_append]
    omega
  have hpush := push_payload (d := { d with payload := d.payload ++ front }) hok hheader last
  rw [if_pos hfull] at hpush
  rw [run_append_of (run_payload hok hheader (by omega)), run_cons_of hpush, append_assoc]
  rfl

theorem readLength_cases (hzero : d.expectedPayloadSize = 0) :
    d.readLength.failure.isSome = true ∨
      0 < lengthOf d.prefixBytes ∧ lengthOf d.prefixBytes ≤ d.config.maxPayloadBytes ∧
        d.readLength =
          { d with expectedPayloadSize := lengthOf d.prefixBytes, payload := [] } := by
  rw [readLength, if_neg (by simp [hzero])]
  split
  · exact Or.inl rfl
  · split
    · exact Or.inl rfl
    · exact Or.inr ⟨by omega, by omega, rfl⟩

theorem push_wellFormed (hd : d.WellFormed) (b : UInt8) : (push d b).1.WellFormed := by
  cases hfail : d.failure with
  | some => rwa [push_failed (by simp [hfail])]
  | none =>
    rcases hd hfail with ⟨hlen, hzero, hpayload⟩ | ⟨hlen, hpayload⟩
    · rw [push_prefixByte hfail hlen]
      split
      · next hthree =>
        rcases readLength_cases (d := { d with prefixBytes := d.prefixBytes ++ [b] }) hzero with
          hfailed | ⟨hpos, -, heq⟩
        · intro hok
          rw [Option.isSome_iff_ne_none] at hfailed
          exact absurd hok hfailed
        · intro hok
          rw [heq]
          exact Or.inr ⟨by simp [hthree], hpos⟩
      · next hthree =>
        have hlt : (d.prefixBytes ++ [b]).length < 4 := by
          rw [length_append, length_singleton]
          omega
        exact fun _ => Or.inl ⟨hlt, hzero, hpayload⟩
    · rw [push_payload hfail hlen]
      split
      · exact fun _ => Or.inl ⟨by simp, rfl, rfl⟩
      · next hnot =>
        have hlt : (d.payload ++ [b]).length < d.expectedPayloadSize := by
          rw [length_append, length_singleton]
          omega
        exact fun _ => Or.inr ⟨hlen, hlt⟩

/-- What `feed` answers when the bytes lead to this state and finish these payloads. -/
def answer (d : FrameDecoder) (completed : List (List UInt8)) : FrameDecodeResult :=
  match d.failure with
  | some status => ⟨.error, status, []⟩
  | none => ready completed

theorem answer_ok (hok : d.failure = none) (completed : List (List UInt8)) :
    d.answer completed = ready completed := by
  rw [answer, hok]

theorem ready_isOk (completed : List (List UInt8)) : (ready completed).isOk = true := by
  unfold ready FrameDecodeResult.isOk
  split <;> rfl

/-- The second half of a round of `feedLoop`, from the copying of payload bytes on. -/
def copyRound (d : FrameDecoder) (rounds : ℕ) (bytes : List UInt8)
    (completed : List (List UInt8)) : FrameDecoder × FrameDecodeResult :=
  let toCopy := min (d.expectedPayloadSize - d.payload.length) bytes.length
  let d := { d with payload := d.payload ++ bytes.take toCopy }
  if d.payload.length ≠ d.expectedPayloadSize then (d, ready completed)
  else
    feedLoop rounds { d with payload := [], prefixBytes := [], expectedPayloadSize := 0 }
      (bytes.drop toCopy) (completed ++ [d.payload])

theorem copyRound_eq (bytes : List UInt8) (completed : List (List UInt8))
    (ih : ∀ (e : FrameDecoder) (rest : List UInt8) (before : List (List UInt8)), e.WellFormed →
      e.failure = none → rest.length ≤ rounds →
      feedLoop rounds e rest before =
        ((run push e rest).1, (run push e rest).1.answer (before ++ (run push e rest).2)))
    (hok : d.failure = none) (hheader : d.prefixBytes.length = 4)
    (hpayload : d.payload.length < d.expectedPayloadSize) (hrounds : bytes.length ≤ rounds + 1) :
    d.copyRound rounds bytes completed =
      ((run push d bytes).1, (run push d bytes).1.answer (completed ++ (run push d bytes).2)) := by
  unfold copyRound
  rcases Nat.lt_or_ge bytes.length (d.expectedPayloadSize - d.payload.length) with hlt | hge
  · -- the chunk ends inside the payload
    simp only [Nat.min_eq_right (Nat.le_of_lt hlt), take_length]
    rw [run_payload hok hheader (by omega), if_pos (by rw [length_append]; omega)]
    simp only [append_nil]
    rw [answer_ok (d := { d with payload := d.payload ++ bytes }) hok]
  · have hsplit : bytes = bytes.take (d.expectedPayloadSize - d.payload.length) ++
        bytes.drop (d.expectedPayloadSize - d.payload.length) := (take_append_drop _ _).symm
    have htake : (bytes.take (d.expectedPayloadSize - d.payload.length)).length =
        d.expectedPayloadSize - d.payload.length := length_take_of_le hge
    have hfull := run_payload_full hok hheader
      (bytes.take (d.expectedPayloadSize - d.payload.length)) (ne_nil_of_length_pos (by omega)) (by omega)
    have hrun := run_append_of hfull (bytes.drop (d.expectedPayloadSize - d.payload.length))
    rw [← hsplit] at hrun
    simp only [Nat.min_eq_left hge]
    rw [if_neg (by rw [length_append, htake]; omega), hrun]
    rw [ih { config := d.config, failure := d.failure } _ _ (fun _ => Or.inl ⟨by simp, rfl, rfl⟩)
      hok (by rw [length_drop]; omega)]
    simp only [append_assoc]

theorem feedLoop_of_read {e : FrameDecoder} (hne : bytes ≠ [])
    (hlen : 4 ≤ (d.prefixBytes ++ bytes.take (4 - d.prefixBytes.length)).length)
    (he : ({ d with prefixBytes := d.prefixBytes ++ bytes.take (4 - d.prefixBytes.length) } :
      FrameDecoder).readLength = e) :
    feedLoop (rounds + 1) d bytes completed =
      match e.failure with
      | some status => (e, ⟨.error, status, []⟩)
      | none => e.copyRound rounds (bytes.drop (4 - d.prefixBytes.length)) completed := by
  subst he
  rw [feedLoop, if_neg hne]
  simp only
  rw [if_neg (Nat.not_lt.mpr hlen)]
  rfl

theorem prefix_round
    (ih : ∀ (e : FrameDecoder) (rest : List UInt8) (before : List (List UInt8)), e.WellFormed →
      e.failure = none → rest.length ≤ rounds →
      feedLoop rounds e rest before =
        ((run push e rest).1, (run push e rest).1.answer (before ++ (run push e rest).2)))
    (hok : d.failure = none) (hne : bytes ≠ []) (hlen : d.prefixBytes.length < 4)
    (hzero : d.expectedPayloadSize = 0) (hlong : 4 ≤ d.prefixBytes.length + bytes.length)
    (hrounds : bytes.length ≤ rounds + 1) :
    feedLoop (rounds + 1) d bytes completed =
      ((run push d bytes).1, (run push d bytes).1.answer (completed ++ (run push d bytes).2)) := by
  have htake : (bytes.take (4 - d.prefixBytes.length)).length = 4 - d.prefixBytes.length :=
    length_take_of_le (by omega)
  have hfour : (d.prefixBytes ++ bytes.take (4 - d.prefixBytes.length)).length = 4 := by
    rw [length_append, htake]
    omega
  have hrun := run_append_of (run_prefixBytes_full hok (bytes.take (4 - d.prefixBytes.length))
    (ne_nil_of_length_pos (by omega)) (by omega)) (bytes.drop (4 - d.prefixBytes.length))
  rw [take_append_drop, nil_append] at hrun
  have hcases := readLength_cases
    (d := { d with prefixBytes := d.prefixBytes ++ bytes.take (4 - d.prefixBytes.length) }) hzero
  rw [feedLoop_of_read hne (Nat.le_of_eq hfour.symm) rfl, hrun]
  generalize ({ d with prefixBytes := d.prefixBytes ++ bytes.take (4 - d.prefixBytes.length) } :
    FrameDecoder).readLength = e at hcases ⊢
  rcases hcases with hfailed | ⟨hpos, -, rfl⟩
  · obtain ⟨status, hstatus⟩ := Option.isSome_iff_exists.mp hfailed
    rw [run_failed hfailed, answer, hstatus]
  · have hround := copyRound_eq (bytes.drop (4 - d.prefixBytes.length)) completed (d := { d with
        prefixBytes := d.prefixBytes ++ bytes.take (4 - d.prefixBytes.length)
        expectedPayloadSize := lengthOf (d.prefixBytes ++ bytes.take (4 - d.prefixBytes.length))
        payload := [] }) ih hok hfour hpos (by rw [length_drop]; omega)
    simp only [hok] at hround ⊢
    exact hround

theorem feedLoop_of_short (hne : bytes ≠ []) (hlen : d.prefixBytes.length + bytes.length < 4) :
    feedLoop (rounds + 1) d bytes completed =
      ({ d with prefixBytes := d.prefixBytes ++ bytes }, ready completed) := by
  have htake : bytes.take (4 - d.prefixBytes.length) = bytes := take_of_length_le (by omega)
  rw [feedLoop, if_neg hne]
  simp only [htake]
  rw [if_pos (by rw [length_append]; omega)]

theorem feedLoop_eq (rounds : ℕ) (d : FrameDecoder) (bytes : List UInt8)
    (completed : List (List UInt8)) (hd : d.WellFormed) (hok : d.failure = none)
    (hrounds : bytes.length ≤ rounds) :
    feedLoop rounds d bytes completed =
      ((run push d bytes).1, (run push d bytes).1.answer (completed ++ (run push d bytes).2)) := by
  induction rounds generalizing d bytes completed with
  | zero =>
    obtain rfl : bytes = [] := eq_nil_of_length_eq_zero (by omega)
    rw [run_nil, answer_ok hok, append_nil]
    rfl
  | succ rounds ih =>
    by_cases hnil : bytes = []
    · subst hnil
      rw [run_nil, answer_ok hok, append_nil]
      rfl
    · rcases hd hok with ⟨hlen, hzero, hpayload⟩ | ⟨hlen, hpayload⟩
      · rcases Nat.lt_or_ge (d.prefixBytes.length + bytes.length) 4 with hshort | hlong
        · rw [feedLoop_of_short hnil hshort, run_prefixBytes hok hshort, append_nil]
          rw [answer_ok (d := { d with prefixBytes := d.prefixBytes ++ bytes }) hok]
        · exact prefix_round ih hok hnil hlen hzero hlong hrounds
      · have hread : d.readLength = d := if_pos (by omega)
        have hmissing : 4 - d.prefixBytes.length = 0 := by omega
        rw [feedLoop_of_read hnil (by rw [length_append]; omega) (e := d)
          (by simpa [hmissing] using hread), hok, hmissing, drop_zero]
        exact copyRound_eq bytes completed ih hok hlen hpayload hrounds

theorem feed_eq_run (hd : d.WellFormed) (bytes : List UInt8) :
    d.feed bytes = ((run push d bytes).1, (run push d bytes).1.answer (run push d bytes).2) := by
  cases hfail : d.failure with
  | some =>
    rw [run_failed (by simp [hfail])]
    simp only [feed, hfail, answer]
  | none =>
    simp only [feed, hfail]
    rw [feedLoop_eq bytes.length d bytes [] hd hfail (Nat.le_refl _), nil_append]

theorem feedAll_feed (chunks : List (List UInt8)) (hd : d.WellFormed)
    (hok : (run push d chunks.flatten).1.failure = none) :
    (feedAll feed d chunks).1 = (run push d chunks.flatten).1 ∧
      (feedAll feed d chunks).2.flatMap FrameDecodeResult.payloads =
        (run push d chunks.flatten).2 ∧
      ∀ r ∈ (feedAll feed d chunks).2, ∃ completed, r = ready completed := by
  refine feedAll_eq_run (I := WellFormed) (G := fun e => e.failure = none) (fun _ => rfl)
    (fun e b he => push_wellFormed he b) (fun e b hb => ?_) (fun e chunk he hchunk => ?_) hd hok
  · by_contra hfail
    rw [push_failed (Option.isSome_iff_ne_none.mpr hfail)] at hb
    exact hfail hb
  · rw [feed_eq_run he, answer_ok hchunk]

/-! ## Whole frames -/

theorem lengthOf_lengthPrefix {n : ℕ} (h : n < 2 ^ 32) : lengthOf (lengthPrefix n) = n := by
  simp only [lengthOf, lengthPrefix, foldl_cons, foldl_nil, Nat.toUInt8,
    UInt8.toNat_ofNat']
  omega

theorem length_lengthPrefix (n : ℕ) : (lengthPrefix n).length = 4 := rfl

theorem run_frame {config : FrameCodecConfig} {payload : List UInt8} (hne : payload ≠ [])
    (hmax : payload.length ≤ config.maxPayloadBytes) (hwidth : payload.length < 2 ^ 32) :
    run push { config := config } (lengthPrefix payload.length ++ payload) =
      ({ config := config }, [payload]) := by
  have hheader := run_prefixBytes_full (d := { config := config }) rfl (lengthPrefix payload.length)
    (cons_ne_nil _ _) rfl
  have hlength : ({ config := config, prefixBytes := lengthPrefix payload.length } :
      FrameDecoder).readLength =
        { config := config
          prefixBytes := lengthPrefix payload.length
          expectedPayloadSize := payload.length } := by
    have hpos : 0 < payload.length := length_pos_of_ne_nil hne
    simp only [readLength, lengthOf_lengthPrefix hwidth]
    rw [if_neg (by simp), if_neg (by omega), if_neg (by omega)]
  rw [nil_append, hlength] at hheader
  rw [run_append_of hheader, run_payload_full rfl rfl payload hne (by simp)]
  simp

end

end FrameDecoder

end KimServing.Ipc

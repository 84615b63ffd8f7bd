import KimServing.Client.Protocol
import KimServing.Ipc.FrameDecoder
import KimServing.Library.Traverse

/-! # Frames between the two languages

The client prints a frame like the worker does and reads one from the socket with
as many calls as the arriving pieces need.
-/
namespace KimServing.Client
open Library Incremental List Ipc

variable {rest : List UInt8}

def encodeFrame (payload : List UInt8) (maxPayloadBytes : ℕ) : Except PyError (List UInt8) :=
  if payload = [] then raiseText "frame payload must not be empty"
  else if maxPayloadBytes < payload.length ∨ 2 ^ 32 - 1 < payload.length then
    raiseText "frame payload exceeds max_payload_bytes"
  else .ok (lengthPrefix payload.length ++ payload)

/-- The pieces of a stream that have not been received yet. -/
abbrev Socket := List (List UInt8)

variable {connection : Socket}

/-- A call returns at most `size` bytes of the next piece that has any, and nothing at
the end of the stream. -/
def Socket.recv (size : ℕ) : Socket → List UInt8 × Socket
  | [] => ([], [])
  | [] :: rest => Socket.recv size rest
  | piece :: rest =>
    (piece.take size, if piece.length ≤ size then rest else piece.drop size :: rest)

/-- The loop of `receiveExact`. Each round adds a byte or raises, so `size` rounds are
enough. -/
def receiveLoop (size : ℕ) : ℕ → List UInt8 → Socket → Except PyError (List UInt8 × Socket)
  | 0, data, connection => .ok (data, connection)
  | rounds + 1, data, connection =>
    if size ≤ data.length then .ok (data, connection)
    else
      let (chunk, connection) := connection.recv (size - data.length)
      if chunk = [] then
        .error (.eofError
          (if data = [] then "Worker disconnected" else "Worker disconnected with a partial frame"))
      else receiveLoop size rounds (data ++ chunk) connection

def receiveExact (connection : Socket) (size : ℕ) : Except PyError (List UInt8 × Socket) :=
  receiveLoop size size [] connection

def receiveFrame (connection : Socket) (maxPayloadBytes : ℕ) :
    Except PyError (List UInt8 × Socket) := do
  let (header, connection) ← receiveExact connection 4
  let payloadSize := Ipc.FrameDecoder.lengthOf header
  if payloadSize = 0 then raiseText "frame payload length must be positive"
  else if maxPayloadBytes < payloadSize then
    raiseText "frame payload length exceeds configured limit"
  else receiveExact connection payloadSize

def receiveFrames (maxPayloadBytes : ℕ) : ℕ → Socket → Except PyError (List (List UInt8))
  | 0, _ => .ok []
  | n + 1, connection => do
    let (payload, connection) ← receiveFrame connection maxPayloadBytes
    let payloads ← receiveFrames maxPayloadBytes n connection
    return payload :: payloads

/-! ## Receiving -/

theorem Socket.recv_spec {size : ℕ} (hsize : 0 < size) (hne : connection.flatten ≠ []) :
    (connection.recv size).1 ≠ [] ∧ (connection.recv size).1.length ≤ size ∧
      (connection.recv size).1 ++ (connection.recv size).2.flatten = connection.flatten := by
  induction connection with
  | nil => exact absurd rfl hne
  | cons piece rest ih =>
    cases piece with
    | nil => exact ih hne
    | cons =>
      simp only [recv]
      refine ⟨?_, length_take_le _ _, ?_⟩
      · exact ne_nil_of_length_pos (by rw [length_take, length_cons]; omega)
      · split
        · next hle => rw [take_of_length_le hle, flatten_cons]
        · rw [flatten_cons, flatten_cons, ← append_assoc, take_append_drop]

theorem receiveLoop_spec {size rounds : ℕ} {data wanted : List UInt8}
    (hstream : connection.flatten = wanted ++ rest) (hlen : data.length + wanted.length = size)
    (hrounds : wanted.length ≤ rounds) :
    ∃ connection', receiveLoop size rounds data connection = .ok (data ++ wanted, connection') ∧
      connection'.flatten = rest := by
  induction rounds generalizing data wanted connection with
  | zero =>
    obtain rfl : wanted = [] := eq_nil_of_length_eq_zero (by omega)
    exact ⟨connection, by rw [append_nil]; rfl, hstream⟩
  | succ rounds ih =>
    rw [receiveLoop]
    by_cases hdone : size ≤ data.length
    · obtain rfl : wanted = [] := eq_nil_of_length_eq_zero (by omega)
      exact ⟨connection, by rw [if_pos hdone, append_nil], hstream⟩
    · have hwanted : connection.flatten ≠ [] := by
        rw [hstream]
        exact append_ne_nil_of_left_ne_nil
          (ne_nil_of_length_pos (by omega)) rest
      obtain ⟨hchunk, hle, hflatten⟩ :=
        Socket.recv_spec (show 0 < size - data.length by omega) hwanted
      rw [if_neg hdone]
      simp only [if_neg hchunk]
      -- what arrived is the first part of what is wanted
      rw [hstream] at hflatten
      generalize (connection.recv (size - data.length)).1 = chunk at *
      generalize (connection.recv (size - data.length)).2 = next at *
      obtain ⟨missing, rfl⟩ : ∃ missing, wanted = chunk ++ missing := by
        have hfirst : chunk <+: wanted :=
          prefix_of_prefix_length_le ⟨_, hflatten⟩ (prefix_append _ _) (by omega)
        exact hfirst.imp fun _ h => h.symm
      rw [append_assoc, append_cancel_left_eq] at hflatten
      have hpos := length_pos_of_ne_nil hchunk
      rw [length_append] at hlen hrounds
      have hrest : (data ++ chunk).length + missing.length = size := by
        rw [length_append]
        omega
      obtain ⟨connection', hloop, hrest⟩ := ih hflatten hrest (by omega)
      exact ⟨connection', by rw [hloop, append_assoc], hrest⟩

theorem receiveExact_spec {wanted : List UInt8} (hstream : connection.flatten = wanted ++ rest) :
    ∃ connection', receiveExact connection wanted.length = .ok (wanted, connection') ∧
      connection'.flatten = rest :=
  receiveLoop_spec hstream (by simp) (Nat.le_refl _)

theorem receiveFrame_spec {max : ℕ} {payload : List UInt8} (hne : payload ≠ [])
    (hmax : payload.length ≤ max) (hwidth : payload.length < 2 ^ 32)
    (hstream : connection.flatten = lengthPrefix payload.length ++ payload ++ rest) :
    ∃ connection', receiveFrame connection max = .ok (payload, connection') ∧
      connection'.flatten = rest := by
  rw [append_assoc] at hstream
  obtain ⟨middle, hheader, hmiddle⟩ := receiveExact_spec hstream
  obtain ⟨last, hpayload, hlast⟩ := receiveExact_spec hmiddle
  have hpos := length_pos_of_ne_nil hne
  refine ⟨last, ?_, hlast⟩
  rw [FrameDecoder.length_lengthPrefix] at hheader
  simp only [receiveFrame, hheader, bind, Except.bind,
    FrameDecoder.lengthOf_lengthPrefix hwidth]
  rw [if_neg (by omega), if_neg (by omega), hpayload]

theorem receiveFrames_spec {max : ℕ} (hmax : max < 2 ^ 32) {payloads : List (List UInt8)}
    (hpayloads : ∀ p ∈ payloads, p ≠ [] ∧ p.length ≤ max) (hstream : connection.flatten =
      (payloads.map fun p => lengthPrefix p.length ++ p).flatten) :
    receiveFrames max payloads.length connection = .ok payloads := by
  induction payloads generalizing connection with
  | nil => rfl
  | cons payload payloads ih =>
    obtain ⟨⟨hne, hle⟩, hrest⟩ := forall_mem_cons.mp hpayloads
    obtain ⟨next, hframe, hnext⟩ := receiveFrame_spec hne hle (by omega) hstream
    simp only [length_cons, receiveFrames, hframe, ih hrest hnext, bind, Except.bind]
    rfl

/-! ## Both directions -/

theorem feedAll_frames {c : Ipc.FrameCodecConfig} {payloads : List (List UInt8)}
    (hpayloads : ∀ p ∈ payloads, p ≠ [] ∧ p.length ≤ c.maxPayloadBytes ∧ p.length < 2 ^ 32)
    {chunks : List (List UInt8)}
    (hstream : chunks.flatten = (payloads.map fun p => lengthPrefix p.length ++ p).flatten) :
    (feedAll Ipc.FrameDecoder.feed { config := c } chunks).1 = { config := c } ∧
      (feedAll Ipc.FrameDecoder.feed { config := c } chunks).2.flatMap
        Ipc.FrameDecodeResult.payloads = payloads ∧
      ∀ r ∈ (feedAll Ipc.FrameDecoder.feed { config := c } chunks).2, r.isOk = true := by
  have hrun : run Ipc.FrameDecoder.push { config := c } chunks.flatten =
      ({ config := c }, payloads) := by
    rw [hstream]
    exact run_flatten fun p hp => FrameDecoder.run_frame (hpayloads p hp).1
      (hpayloads p hp).2.1 (hpayloads p hp).2.2
  have hfeed := FrameDecoder.feedAll_feed (d := { config := c }) chunks
    (fun _ => Or.inl ⟨by simp, rfl, rfl⟩) (by rw [hrun])
  rw [hrun] at hfeed
  refine ⟨hfeed.1, hfeed.2.1, fun r hr => ?_⟩
  obtain ⟨completed, rfl⟩ := hfeed.2.2 r hr
  rw [Ipc.FrameDecodeResult.isOk, Ipc.FrameDecoder.ready]
  split <;> rfl

/-- Both sides print the same frames, and both read back any fragmentation of them. -/
theorem frames_survive_fragmentation (max : ℕ) (hmax : 1 ≤ max ∧ max ≤ 2 ^ 32 - 1)
    (payloads : List (List UInt8)) (hpayloads : ∀ p ∈ payloads, 1 ≤ p.length ∧ p.length ≤ max) :
    ∃ frames, payloads.mapM (fun p => Ipc.encodeFrame p ⟨max⟩) = .ok frames ∧
      payloads.mapM (fun p => encodeFrame p max) = .ok frames ∧
      ∀ chunks : List (List UInt8), chunks.flatten = frames.flatten →
        (∀ d : Ipc.FrameDecoder, (Ipc.FrameDecoder.create ⟨max⟩ = .ok d ∨
            ∃ old : Ipc.FrameDecoder, old.config = ⟨max⟩ ∧ d = old.reset) →
          (feedAll Ipc.FrameDecoder.feed d chunks).2.flatMap Ipc.FrameDecodeResult.payloads =
              payloads ∧
            (∀ r ∈ (feedAll Ipc.FrameDecoder.feed d chunks).2, r.isOk = true) ∧
            (feedAll Ipc.FrameDecoder.feed d chunks).1.failed = false ∧
            (feedAll Ipc.FrameDecoder.feed d chunks).1.hasPartialFrame = false) ∧
        receiveFrames max payloads.length chunks = .ok payloads := by
  have hne : ∀ p ∈ payloads, p ≠ [] ∧ p.length ≤ max :=
    fun p hp => ⟨List.ne_nil_of_length_pos (hpayloads p hp).1, (hpayloads p hp).2⟩
  refine ⟨payloads.map fun p => lengthPrefix p.length ++ p, ?_, ?_, fun chunks hstream => ?_⟩
  · refine mapM_ok fun p hp => encodeFrame_eq_ok.mpr ⟨(hne p hp).1, (hne p hp).2, ?_, rfl⟩
    exact (hne p hp).2.trans hmax.2
  · refine mapM_ok fun p hp => ?_
    have hle := (hne p hp).2
    rw [encodeFrame, if_neg (hne p hp).1, if_neg (by omega)]
  · refine ⟨fun d hd => ?_, receiveFrames_spec (by omega) hne hstream⟩
    have hfresh : d = { config := ⟨max⟩ } := by
      rcases hd with hcreate | ⟨old, hconfig, rfl⟩
      · rw [Ipc.FrameDecoder.create, if_neg (by show ¬max = 0; omega)] at hcreate
        exact (Except.ok.inj hcreate).symm
      · rw [Ipc.FrameDecoder.reset, hconfig]
    subst hfresh
    obtain ⟨hend, hpayload, hok⟩ := feedAll_frames (c := ⟨max⟩)
      (fun p hp => ⟨(hne p hp).1, (hne p hp).2, by have := (hne p hp).2; omega⟩) hstream
    refine ⟨hpayload, hok, ?_, ?_⟩ <;> rw [hend] <;> rfl

/-- Two frames in pieces that cut both prefixes, with an empty piece. -/
theorem frames_survive_fragmentation_cut :
    receiveFrames 8 2 [[0, 0], [0, 1, 7, 0], [], [0, 0, 2], [8, 9]] = .ok [[7], [8, 9]] := by
  obtain ⟨frames, hframes, -, hread⟩ :=
    frames_survive_fragmentation 8 (by decide) [[7], [8, 9]] (by decide)
  obtain rfl : [[0, 0, 0, 1, 7], [0, 0, 0, 2, 8, 9]] = frames :=
    Except.ok.inj hframes
  exact (hread [[0, 0], [0, 1, 7, 0], [], [0, 0, 2], [8, 9]] rfl).2

end KimServing.Client

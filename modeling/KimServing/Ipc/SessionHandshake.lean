import KimServing.Ipc.SessionSafety

/-! # The handshake with a conforming client

A client that sends its Hello, waits for the whole acknowledgement and only then
sends requests can still be cut off: the acknowledgement is on the wire before the
writer marks the session as ready, and a request that the reader looks at in
between is taken for a part of the handshake. Without this overlap the session
opens and stays open.
-/
namespace KimServing.Ipc
open Library Incremental List

def frameOf (payload : List UInt8) : List UInt8 := lengthPrefix payload.length ++ payload

structure Carried (config : FrameCodecConfig) (payload : List UInt8) : Prop where
  nonempty : payload ≠ []
  length_le : payload.length ≤ config.maxPayloadBytes
  width : payload.length < 2 ^ 32

namespace FrameDecoder
variable {config : FrameCodecConfig} {payloads : List (List UInt8)} {bytes : List UInt8}

theorem run_frames (hcarried : ∀ payload ∈ payloads, Carried config payload) :
    run push { config := config } (payloads.map frameOf).flatten =
      ({ config := config }, payloads) :=
  run_flatten fun payload hp =>
    run_frame (hcarried payload hp).nonempty (hcarried payload hp).length_le
      (hcarried payload hp).width

theorem run_of_prefix (hcarried : ∀ payload ∈ payloads, Carried config payload)
    (hbytes : bytes <+: (payloads.map frameOf).flatten) :
    (run push { config := config } bytes).1.failure = none ∧
      (run push { config := config } bytes).2 <+: payloads := by
  obtain ⟨rest, hrest⟩ := hbytes
  have hwhole := run_frames hcarried
  rw [← hrest, run_append] at hwhole
  obtain ⟨hstate, hemitted⟩ := Prod.mk.inj hwhole
  have hend : (run push (run push { config := config } bytes).1 rest).1.failure = none := by
    rw [hstate]
  refine ⟨?_, ⟨_, hemitted⟩⟩
  refine run_backwards (G := fun e : FrameDecoder => e.failure = none) (fun e b hb => ?_) hend
  by_contra hfail
  rw [push_failed (Option.isSome_iff_ne_none.mpr hfail)] at hb
  exact hfail hb

theorem run_of_frame {payload : List UInt8} (hcarried : Carried config payload)
    (hbytes : frameOf payload <+: bytes) :
    ∃ rest, (run push { config := config } bytes).2 = payload :: rest := by
  obtain ⟨rest, rfl⟩ := hbytes
  rw [frameOf, run_append_of (run_frame hcarried.nonempty hcarried.length_le hcarried.width)]
  exact ⟨_, rfl⟩

end FrameDecoder

/-- What a client sends that conforms to this server: a Hello for its model and then
messages for its handler. -/
structure ClientStream (parse : List UInt8 → Except (List UInt8) Json) (config : IpcSessionConfig)
    (ack : HelloAck) (greeting : List UInt8) (requests : List (List UInt8)) : Prop where
  carried : ∀ payload ∈ greeting :: requests, Carried config.frameCodec payload
  greets : ∃ hello, decodePayload parse greeting = .ok (.hello hello) ∧
    hello.modelId = ack.manifest.modelId ∧ hello.revision = ack.manifest.revision
  asks : ∀ payload ∈ requests, ∃ m, decodePayload parse payload = .ok m ∧ isServerInbound m = true

/-- The client keeps to its stream and sends what follows the Hello after the whole
acknowledgement was written. Nothing else goes wrong: the connection works, the
handler returns and nobody stops the session. -/
def ClientConforms [JsonLib] (greeting : List UInt8) (requests : List (List UInt8))
    (s : IpcSession) : SessionAction → Prop
  | .reader (.bytes chunk) =>
    s.bytes ++ chunk <+: ((greeting :: requests).map frameOf).flatten ∧
      ((frameOf greeting).length < (s.bytes ++ chunk).length → ∃ bytes ∈ s.written, s.IsAck bytes)
  | .reader .go => True
  | .reader _ => False
  | .writer .go => True
  | .writer _ | .stop _ => False
  | _ => True

/-- The reader does not find the handshake open at what follows the Hello. At the
start of a batch this matters from the second payload on. -/
def SessionReaderPc.InTime (s : IpcSession) : SessionReaderPc → Prop
  | .received payloads => s.greetings ≠ [] → s.state = .handshaking → payloads.length ≤ 1
  | .next _ _ (_ :: _) => s.greetings ≠ [] → s.state ≠ .handshaking
  | _ => True

theorem SessionReaderPc.InTime.of_quiet {s : IpcSession} (hgreetings : s.greetings = [])
    (pc : SessionReaderPc) : pc.InTime s := by
  unfold InTime
  split
  · exact fun hgreeted => absurd hgreetings hgreeted
  · exact fun hgreeted => absurd hgreetings hgreeted
  · exact trivial

/-- Whenever the reader looks at the state of the session after it has answered the
Hello, the writer has marked the session as ready. -/
def ReadyInTime (s : IpcSession) : SessionAction → Prop
  | .reader _ => s.reader.InTime s
  | _ => True

/-- Where a conforming client leads the reader. A batch that started in the handshake
holds one payload. -/
def SessionReaderPc.Steady (s : IpcSession) : SessionReaderPc → Prop
  | .notStarted | .read | .received _ => True
  | .next started index payloads => started = true → index + payloads.length ≤ 1
  | .handshake _ started index rest =>
    s.greetings = [] ∧ (started = true → index + 1 + rest.length ≤ 1)
  | .dispatch _ started index rest =>
    s.state = .ready ∧ (started = true → index + 1 + rest.length ≤ 1)
  | .handle _ started index rest => started = true → index + 1 + rest.length ≤ 1
  | _ => False

theorem SessionReaderPc.Steady.congr {s t : IpcSession} {pc : SessionReaderPc} (h : pc.Steady s)
    (hgreetings : t.greetings = s.greetings) (hstate : s.state = .ready → t.state = .ready) :
    pc.Steady t := by
  cases pc with
  | handshake => exact ⟨hgreetings.trans h.1, h.2⟩
  | dispatch => exact ⟨hstate h.1, h.2⟩
  | _ => exact h

namespace IpcSession
variable {s s' : IpcSession} {parse : List UInt8 → Except (List UInt8) Json}
  {greeting : List UInt8} {requests : List (List UInt8)}

def Pledged (s : IpcSession) : Prop :=
  s.state = .ready ∨ s.state = .handshaking ∧ (s.writer.marking = true ∨
    ∃ bytes, s.writer.taken ++ s.egress = [⟨bytes, true⟩])

structure Serves (greeting : List UInt8) (requests : List (List UInt8)) (s : IpcSession) :
    Prop where
  running : s.stopRequested = false
  state : s.state = .created ∨ s.state = .handshaking ∨ s.state = .ready
  stream : s.bytes <+: ((greeting :: requests).map frameOf).flatten
  waiting : s.greetings = [] → s.bytes.length ≤ (frameOf greeting).length
  quiet : s.greetings = [] → s.egress = [] ∧ s.written = [] ∧ s.writer.taken = []
  pledged : s.greetings ≠ [] → s.Pledged
  room : s.state ≠ .created → 0 < s.config.maxEgressFrames ∧
    s.config.frameCodec.maxPayloadBytes + 4 ≤ s.config.maxEgressBytes
  steady : s.reader.Steady s
  serving : s.writer.serving = true

theorem Serves.payloads_prefix (hs : s.Serves greeting requests)
    (hclient : ClientStream parse s.config s.serverHelloAck greeting requests) :
    s.payloads <+: greeting :: requests :=
  (FrameDecoder.run_of_prefix hclient.carried hs.stream).2

theorem Serves.payloads_greeting (hs : s.Serves greeting requests)
    (hclient : ClientStream parse s.config s.serverHelloAck greeting requests)
    (hgreetings : s.greetings = []) : s.payloads <+: [greeting] := by
  have hhello : Carried s.config.frameCodec greeting := hclient.carried _ mem_cons_self
  refine (FrameDecoder.run_of_prefix (fun payload hp => ?_) ?_).2
  · rw [mem_singleton.mp hp]
    exact hhello
  · refine prefix_of_prefix_length_le hs.stream ?_ ?_
    · simp
    · simpa using hs.waiting hgreetings

theorem owed_of_greeted (hs : s.Serves greeting requests)
    (hclient : ClientStream parse s.config s.serverHelloAck greeting requests)
    {rest : List (Except Status Message)}
    (hrest : s.payloads.map (decodePayload parse) =
      (s.greetings.map Message.hello ++ s.handled).map .ok ++ rest) :
    ∀ answer ∈ rest, s.greetings ≠ [] →
      ∃ m, answer = .ok m ∧ isServerInbound m = true := by
  intro answer hanswer hgreeted
  obtain ⟨tail, htail⟩ := hs.payloads_prefix hclient
  obtain ⟨hello, hellos, hgreetings⟩ := exists_cons_of_ne_nil hgreeted
  have hmap := congrArg (List.map (decodePayload parse)) htail
  rw [map_append, hrest, hgreetings] at hmap
  simp only [map_cons, cons_append, List.cons.injEq] at hmap
  have hmem : answer ∈ requests.map (decodePayload parse) := by
    rw [← hmap.2]
    exact mem_append_left _ (mem_append_right _ hanswer)
  obtain ⟨payload, hpayload, rfl⟩ := mem_map.mp hmem
  exact hclient.asks payload hpayload

theorem Serves.readerMoves (hs : s.Serves greeting requests) {pc : SessionReaderPc}
    (hsteady : pc.Steady s) : Serves greeting requests { s with reader := pc } :=
  { hs with steady := hsteady.congr rfl id }

/-- How many steps of the reader are left before the answer to the Hello, and of the
writer before the session is ready. -/
def toReady (s : IpcSession) : ℕ :=
  if s.state = .ready then 0
  else if s.greetings = [] then
    match s.reader with
    | .received _ => 6
    | .next .. => 5
    | _ => 4
  else
    match s.writer with
    | .wait => 3
    | .write _ => 2
    | _ => 1

theorem toReady_of_greeted (hgreeted : s.greetings ≠ []) : s.toReady ≤ 3 := by
  unfold toReady
  rw [if_neg hgreeted]
  split
  · exact Nat.zero_le _
  · split <;> decide

section
variable [JsonLib]

variable {bytes : List UInt8} {choice : SessionChoice}

theorem handled_nil (h : s.Inv parse) (hgreetings : s.greetings = []) : s.handled = [] := by
  by_contra hhandled
  exact (h.handshake.handled hhandled).greeted hgreetings

theorem Serves.handshaking (hs : s.Serves greeting requests) (h : s.Inv parse)
    (hgreetings : s.greetings = []) (hstarted : s.state ≠ .created) : s.state = .handshaking := by
  rcases hs.state with hstate | hstate | hstate
  · exact absurd hstate hstarted
  · exact hstate
  · exact absurd hgreetings (h.handshake.ready hstate).greeted

theorem owed_of_quiet (h : s.Inv parse) (hs : s.Serves greeting requests)
    (hclient : ClientStream parse s.config s.serverHelloAck greeting requests)
    (hgreetings : s.greetings = []) {rest : List (Except Status Message)}
    (hrest : s.payloads.map (decodePayload parse) =
      (s.greetings.map Message.hello ++ s.handled).map .ok ++ rest) :
    rest <+: [decodePayload parse greeting] := by
  rw [hgreetings, handled_nil h hgreetings] at hrest
  rw [← show s.payloads.map (decodePayload parse) = rest from hrest]
  exact (hs.payloads_greeting hclient hgreetings).map (decodePayload parse)

theorem Serves.feed (hs : s.Serves greeting requests) (h : s.Inv parse)
    (hclient : ClientStream parse s.config s.serverHelloAck greeting requests)
    {chunk : List UInt8} (hconforms : ClientConforms greeting requests s (.reader (.bytes chunk))) :
    Serves greeting requests { s with
      bytes := s.bytes ++ chunk
      decoder := (s.decoder.feed chunk).1
      reader := if (s.decoder.feed chunk).2.isOk then .received (s.decoder.feed chunk).2.payloads
        else .failing (s.decoder.feed chunk).2.status } := by
  obtain ⟨hstream, hlate⟩ := hconforms
  have hok : (s.decoder.feed chunk).2.isOk = true := by
    have hfail := (FrameDecoder.run_of_prefix hclient.carried hstream).1
    rw [run_append, ← h.inbound.decoder] at hfail
    rw [FrameDecoder.feed_eq_run h.inbound.wellFormed, FrameDecoder.answer_ok hfail]
    exact FrameDecoder.ready_isOk _
  refine { hs with stream := hstream, waiting := fun hgreetings => ?_, steady := ?_ }
  · by_contra hlong
    obtain ⟨bytes, hbytes, -⟩ := hlate (Nat.lt_of_not_le hlong)
    rw [(hs.quiet hgreetings).2.1] at hbytes
    cases hbytes
  · rw [if_pos hok]
    exact trivial

theorem ack_length_le (hs : s.Serves greeting requests) (hstarted : s.state ≠ .created)
    (hack : s.IsAck bytes) : bytes.length ≤ s.config.maxEgressBytes := by
  have hroom := (hs.room hstarted).2
  unfold IsAck encodeMessage at hack
  cases hpayload : encodePayload (.helloAck s.serverHelloAck) with
  | error => simp [hpayload, bind, Except.bind] at hack
  | ok =>
    simp only [hpayload, bind, Except.bind] at hack
    obtain ⟨-, hmax, -, rfl⟩ := encodeFrame_eq_ok.mp hack
    rw [length_append, FrameDecoder.length_lengthPrefix]
    omega

theorem enqueue_ack (hack : s.IsAck bytes) (hrunning : s.stopRequested = false)
    (hstate : s.state = .handshaking) (hegress : s.egress = [])
    (hqueued : s.queuedEgressBytes = 0) (hframes : 0 < s.config.maxEgressFrames)
    (hbytes : bytes.length ≤ s.config.maxEgressBytes) :
    s.enqueueMessage (.helloAck s.serverHelloAck) false true = (.success, { s with
      queuedEgressBytes := s.queuedEgressBytes + bytes.length
      egress := s.egress ++ [⟨bytes, true⟩]
      accepted := s.accepted ++ [.helloAck s.serverHelloAck] }) := by
  unfold enqueueMessage
  rw [show encodeMessage s.config.frameCodec (.helloAck s.serverHelloAck) = .ok bytes from hack]
  dsimp only
  rw [if_neg (by simp [hrunning, hstate]), if_neg (by simp), if_neg (by simp [hstate]),
    if_neg (by simp [hegress, hqueued]; omega)]

theorem Serves.greet (hs : s.Serves greeting requests) (h : s.Inv parse)
    (hclient : ClientStream parse s.config s.serverHelloAck greeting requests)
    (hack : s.IsAck bytes) {m : Message} {started : Bool} {index : ℕ} {rest : List (List UInt8)}
    (hpc : s.reader = .handshake m started index rest)
    (hstep : s.readerStep parse choice = some s') :
    s'.Serves greeting requests ∧ s'.greetings ≠ [] ∧ s'.bytes = s.bytes := by
  have hsteady := hs.steady
  rw [hpc] at hsteady
  obtain ⟨hgreetings, hbatch⟩ := hsteady
  obtain ⟨tail, hstream, howes⟩ := h.inbound.stream
  rw [hpc] at howes
  obtain rfl : tail = .ok m :: rest.map (decodePayload parse) := howes
  obtain ⟨hello, hdecode, hmatch⟩ := hclient.greets
  have hm : m = .hello hello := by
    have hhead := owed_of_quiet h hs hclient hgreetings hstream
    rw [hdecode, cons_prefix_cons] at hhead
    exact Except.ok.inj hhead.1
  subst hm
  have hstarted := h.state_ne_created (by simp [hpc])
  have hstate := hs.handshaking h hgreetings hstarted
  obtain ⟨hegress, hwritten, htaken⟩ := hs.quiet hgreetings
  have hqueued : s.queuedEgressBytes = 0 := by simp [h.queue.bytes, hegress]
  have henqueue := enqueue_ack hack hs.running hstate hegress hqueued (hs.room hstarted).1
    (ack_length_le hs hstarted hack)
  have hmatch : ¬ (hello.modelId ≠ s.serverHelloAck.manifest.modelId ∨
      hello.revision ≠ s.serverHelloAck.manifest.revision) := by
    simp [hmatch.1, hmatch.2]
  simp only [readerStep, hpc, handleHandshake, if_neg hmatch, henqueue] at hstep
  cases hstep
  have hgreeted : s.greetings ++ [hello] ≠ [] := by simp
  refine ⟨⟨hs.running, hs.state, hs.stream, fun hn => absurd hn hgreeted,
    fun hn => absurd hn hgreeted, fun _ => Or.inr ⟨hstate, Or.inr ⟨bytes, ?_⟩⟩, hs.room, ?_,
    hs.serving⟩, hgreeted, rfl⟩
  · show s.writer.taken ++ (s.egress ++ [⟨bytes, true⟩]) = _
    rw [htaken, hegress]
    rfl
  · exact hbatch

theorem Serves.next_decodes (hs : s.Serves greeting requests) (h : s.Inv parse)
    (hclient : ClientStream parse s.config s.serverHelloAck greeting requests)
    {started : Bool} {index : ℕ} {payload : List UInt8} {rest : List (List UInt8)}
    (hpc : s.reader = .next started index (payload :: rest)) :
    ¬ (started = true ∧ 0 < index) ∧ (started = true → index + 1 + rest.length ≤ 1) ∧
      ∃ m, decodePayload parse payload = .ok m := by
  have hsteady := hs.steady
  obtain ⟨tail, hstream, howes⟩ := h.inbound.stream
  rw [hpc] at hsteady howes
  obtain rfl : tail = (payload :: rest).map (decodePayload parse) := howes
  have hbatch : started = true → index + (rest.length + 1) ≤ 1 := hsteady
  refine ⟨fun hlate => ?_, fun hstarted => ?_, ?_⟩
  · have := hbatch hlate.1
    omega
  · have := hbatch hstarted
    omega
  · by_cases hgreetings : s.greetings = []
    · obtain ⟨hello, hdecode, -⟩ := hclient.greets
      have hhead := owed_of_quiet h hs hclient hgreetings hstream
      rw [map_cons, cons_prefix_cons, hdecode] at hhead
      exact ⟨_, hhead.1⟩
    · obtain ⟨m, hm, -⟩ := owed_of_greeted hs hclient hstream _ mem_cons_self hgreetings
      exact ⟨m, hm⟩

theorem readerStep_serves (hs : s.Serves greeting requests) (h : s.Inv parse)
    (hclient : ClientStream parse s.config s.serverHelloAck greeting requests)
    (hack : s.IsAck bytes) (hconforms : ClientConforms greeting requests s (.reader choice))
    (hready : ReadyInTime s (.reader choice)) (hstep : s.readerStep parse choice = some s') :
    s'.Serves greeting requests := by
  have hsteady := hs.steady
  obtain ⟨tail, hstream, howes⟩ := h.inbound.stream
  cases hpc : s.reader with
  | notStarted => simp [readerStep, hpc] at hstep
  | handshake => exact (hs.greet h hclient hack hpc hstep).1
  | read =>
    cases choice with
    | bytes =>
      simp only [readerStep, hpc] at hstep
      split at hstep <;> cases hstep
      exact hs.feed h hclient hconforms
    | go => simp [readerStep, hpc] at hstep
    | _ => exact hconforms.elim
  | received payloads =>
    simp only [readerStep, hpc] at hstep
    cases hstep
    refine hs.readerMoves fun hhandshaking => ?_
    rw [Nat.zero_add]
    by_cases hgreetings : s.greetings = []
    · rw [hpc] at howes
      obtain rfl : tail = payloads.map (decodePayload parse) := howes
      simpa using (owed_of_quiet h hs hclient hgreetings hstream).length_le
    · rw [ReadyInTime, hpc] at hready
      exact hready hgreetings (by simpa using hhandshaking)
  | next started index payloads =>
    cases payloads with
    | nil =>
      simp only [readerStep, hpc] at hstep
      cases hstep
      exact hs.readerMoves trivial
    | cons =>
      obtain ⟨hindex, hbatch, m, hm⟩ := hs.next_decodes h hclient hpc
      simp only [readerStep, hpc, if_neg hindex, hm] at hstep
      cases hstep
      refine hs.readerMoves ?_
      split
      · next hhandshaking =>
        rw [ReadyInTime, hpc] at hready
        exact ⟨not_not.mp fun hgreeted => hready hgreeted hhandshaking, hbatch⟩
      · next hhandshaking =>
        refine ⟨?_, hbatch⟩
        rcases hs.state with hstate | hstate | hstate
        · exact absurd hstate (h.state_ne_created (by simp [hpc]))
        · exact absurd hstate hhandshaking
        · exact hstate
  | dispatch m started index rest =>
    rw [hpc] at howes hsteady
    obtain rfl : tail = .ok m :: rest.map (decodePayload parse) := howes
    obtain ⟨_, hm, hinbound⟩ := owed_of_greeted hs hclient hstream _ mem_cons_self
      (h.handshake.ready hsteady.1).greeted
    cases hm
    simp only [readerStep, hpc] at hstep
    cases hstep
    refine hs.readerMoves ?_
    rw [if_neg (not_not.mpr hsteady.1), if_neg (by simp [hinbound])]
    exact hsteady.2
  | handle =>
    rw [hpc] at hsteady
    cases choice with
    | go =>
      simp only [readerStep, hpc] at hstep
      cases hstep
      exact { hs with steady := hsteady }
    | bytes => simp [readerStep, hpc] at hstep
    | _ => exact hconforms.elim
  | _ =>
    rw [hpc] at hsteady
    exact hsteady.elim

theorem writerStep_serves (hs : s.Serves greeting requests) (h : s.Inv parse)
    (hconforms : ClientConforms greeting requests s (.writer choice))
    (hstep : s.writerStep choice = some s') : s'.Serves greeting requests := by
  have hserving := hs.serving
  cases hpc : s.writer with
  | notStarted => simp [writerStep, hpc] at hstep
  | wait =>
    simp only [writerStep, hpc, hs.running] at hstep
    cases hegress : s.egress with
    | nil => simp [hegress] at hstep
    | cons =>
      simp only [hegress, Bool.false_eq_true, if_false] at hstep
      cases hstep
      refine ⟨rfl, hs.state, hs.stream, hs.waiting, fun hgreetings => ?_,
        fun hgreeted => (hs.pledged hgreeted).imp_right fun hpledged => ⟨hpledged.1, ?_⟩,
        hs.room, hs.steady.congr rfl id, rfl⟩
      · have hquiet := (hs.quiet hgreetings).1
        cases hegress.symm.trans hquiet
      · refine hpledged.2.imp (fun hmarking => ?_) (fun hframe => ?_)
        · rw [hpc] at hmarking
          cases hmarking
        · rw [hpc, hegress] at hframe
          exact hframe
  | write =>
    cases choice with
    | go =>
      simp only [writerStep, hpc] at hstep
      cases hstep
      refine ⟨hs.running, hs.state, hs.stream, hs.waiting, fun hgreetings => ?_,
        fun hgreeted => (hs.pledged hgreeted).imp_right fun hpledged => ⟨hpledged.1, Or.inl ?_⟩,
        hs.room, hs.steady.congr rfl id, ?_⟩
      · have hquiet := (hs.quiet hgreetings).2.2
        rw [hpc] at hquiet
        cases hquiet
      · rcases hpledged.2 with hmarking | ⟨bytes, hframe⟩
        · rw [hpc] at hmarking
          cases hmarking
        · rw [hpc] at hframe
          rw [(List.cons.inj hframe).1]
          rfl
      · dsimp only
        split <;> rfl
    | bytes => simp [writerStep, hpc] at hstep
    | _ => exact hconforms.elim
  | markReady =>
    simp only [writerStep, hpc] at hstep
    cases hstep
    obtain ⟨hgreeted, -⟩ := h.handshake.marking (by rw [hpc]; rfl)
    rcases s.markReady_cases with ⟨hstate, heq⟩ | ⟨hstate, heq⟩
    · rw [heq]
      have hready : s.state = .ready := (hs.pledged hgreeted).resolve_right fun hn => hstate hn.1
      exact ⟨hs.running, hs.state, hs.stream, hs.waiting, fun hn => absurd hn hgreeted,
        fun _ => Or.inl hready, hs.room, hs.steady.congr rfl id, rfl⟩
    · rw [heq]
      exact ⟨hs.running, Or.inr (Or.inr rfl), hs.stream, hs.waiting, fun hn => absurd hn hgreeted,
        fun _ => Or.inl rfl, fun _ => hs.room (by simp [hstate]), hs.steady.congr rfl fun _ => rfl,
        rfl⟩
  | _ =>
    rw [hpc] at hserving
    cases hserving

theorem send_serves (hs : s.Serves greeting requests) (h : s.Inv parse) (m : Message) :
    (s.send m).2.Serves greeting requests := by
  unfold send
  split
  · exact hs
  · rcases s.enqueueMessage_cases m true false with ⟨-, heq⟩ | ⟨bytes, -, -, hstate, -, -, heq⟩
    · rw [heq]
      exact hs
    · rw [heq]
      have hready : s.state = .ready := hstate
      exact ⟨hs.running, hs.state, hs.stream, hs.waiting,
        fun hn => absurd hn (h.handshake.ready hready).greeted, fun _ => Or.inl hready, hs.room,
        hs.steady.congr rfl id, hs.serving⟩

theorem validateConfiguration_room {connectionValid : Bool}
    (h : s.validateConfiguration connectionValid = .ok ()) :
    0 < s.config.maxEgressFrames ∧
      s.config.frameCodec.maxPayloadBytes + 4 ≤ s.config.maxEgressBytes := by
  unfold validateConfiguration refuseIf at h
  simp only [bind, Except.bind] at h
  split at h
  · cases h
  · split at h
    · cases h
    · next hpositive =>
      split at h
      · cases h
      · next hlimit =>
        split_ifs at hpositive hlimit
        omega

theorem start_serves (hs : s.Serves greeting requests) {connectionValid : Bool}
    (hstart : s.start connectionValid = .ok s') : s'.Serves greeting requests := by
  obtain ⟨hvalid, hcreated, rfl⟩ := start_eq_ok.mp hstart
  have hgreetings : s.greetings = [] := by
    by_contra hgreeted
    rcases hs.pledged hgreeted with hstate | ⟨hstate, -⟩ <;> rw [hstate] at hcreated <;>
      cases hcreated
  obtain ⟨hegress, hwritten, -⟩ := hs.quiet hgreetings
  exact ⟨rfl, Or.inr (Or.inl rfl), hs.stream, hs.waiting, fun _ => ⟨hegress, hwritten, rfl⟩,
    fun hgreeted => absurd hgreetings hgreeted, fun _ => validateConfiguration_room hvalid,
    trivial, rfl⟩

theorem step_serves (hs : s.Serves greeting requests) (h : s.Inv parse)
    (hclient : ClientStream parse s.config s.serverHelloAck greeting requests)
    (hack : s.IsAck bytes) {a : SessionAction} (hconforms : ClientConforms greeting requests s a)
    (hready : ReadyInTime s a) (hstep : s.step parse a = some s') :
    s'.Serves greeting requests := by
  cases a with
  | start =>
    simp only [step] at hstep
    split at hstep <;> cases hstep
    · exact hs
    · next hstart => exact start_serves hs hstart
  | reader => exact readerStep_serves hs h hclient hack hconforms hready hstep
  | writer => exact writerStep_serves hs h hconforms hstep
  | send m =>
    cases hstep
    exact send_serves hs h m
  | stop => exact hconforms.elim

structure Handshaken (parse : List UInt8 → Except (List UInt8) Json) (config : IpcSessionConfig)
    (ack : HelloAck) (greeting : List UInt8) (requests : List (List UInt8)) (s : IpcSession) :
    Prop where
  config : s.config = config
  ack : s.serverHelloAck = ack
  inv : s.Inv parse
  serves : s.Serves greeting requests

variable {config : IpcSessionConfig} {ack : HelloAck} {ackBytes : List UInt8}

theorem create_handshaken : (create config ack).Handshaken parse config ack greeting requests where
  config := rfl
  ack := rfl
  inv := create_inv config ack
  serves := ⟨rfl, Or.inl rfl, nil_prefix, fun _ => Nat.zero_le _, fun _ => ⟨rfl, rfl, rfl⟩,
    fun hgreeted => absurd rfl hgreeted, fun hstarted => absurd rfl hstarted, trivial, rfl⟩

theorem step_handshaken (hclient : ClientStream parse config ack greeting requests)
    (hack : encodeMessage config.frameCodec (.helloAck ack) = .ok ackBytes)
    (h : s.Handshaken parse config ack greeting requests) {a : SessionAction}
    (hguard : ClientConforms greeting requests s a ∧ ReadyInTime s a)
    (hstep : s.step parse a = some s') : s'.Handshaken parse config ack greeting requests := by
  obtain ⟨rfl, rfl, hinv, hserves⟩ := h
  have hlater := step_later hinv.life hstep
  exact ⟨hlater.config, hlater.ack, step_inv hinv hstep,
    step_serves hserves hinv hclient hack hguard.1 hguard.2 hstep⟩

theorem owed_ne_nil (h : s.Inv parse) (hcarried : Carried s.config.frameCodec greeting)
    (hhello : frameOf greeting <+: s.bytes) (hgreetings : s.greetings = [])
    {rest : List (Except Status Message)}
    (hrest : s.payloads.map (decodePayload parse) =
      (s.greetings.map Message.hello ++ s.handled).map .ok ++ rest) : rest ≠ [] := by
  rintro rfl
  obtain ⟨tail, htail⟩ := FrameDecoder.run_of_frame hcarried hhello
  rw [payloads, htail, hgreetings, handled_nil h hgreetings] at hrest
  cases hrest

theorem greeting_progress (hclient : ClientStream parse config ack greeting requests)
    (hack : encodeMessage config.frameCodec (.helloAck ack) = .ok ackBytes)
    (h : s.Handshaken parse config ack greeting requests)
    (hhello : frameOf greeting <+: s.bytes) (hgreetings : s.greetings = []) :
    ∃ t, s.readerStep parse .go = some t ∧ t.bytes = s.bytes ∧ t.toReady < s.toReady := by
  obtain ⟨rfl, rfl, hinv, hserves⟩ := h
  obtain ⟨tail, hstream, howes⟩ := hinv.inbound.stream
  have hstate : s.state ≠ .created → s.state = .handshaking := hserves.handshaking hinv hgreetings
  have howed := owed_ne_nil hinv (hclient.carried _ mem_cons_self) hhello hgreetings hstream
  cases hpc : s.reader with
  | received =>
    have hstate := hstate (hinv.state_ne_created (by simp [hpc]))
    simp only [readerStep, hpc]
    exact ⟨_, rfl, rfl, by simp [toReady, hstate, hgreetings, hpc]⟩
  | next started index payloads =>
    have hstate := hstate (hinv.state_ne_created (by simp [hpc]))
    rw [hpc] at howes
    cases payloads with
    | nil => exact absurd howes howed
    | cons =>
      obtain ⟨hindex, -, m, hm⟩ := hserves.next_decodes hinv hclient hpc
      simp only [readerStep, hpc, if_neg hindex, hm]
      exact ⟨_, rfl, rfl, by simp [toReady, hstate, hgreetings, hpc]⟩
  | handshake =>
    have hstate := hstate (hinv.state_ne_created (by simp [hpc]))
    have hfour : s.toReady = 4 := by simp [toReady, hstate, hgreetings, hpc]
    obtain ⟨t, ht⟩ : ∃ t, s.readerStep parse .go = some t := by simp [readerStep, hpc]
    obtain ⟨-, hgreeted, hbytes⟩ := hserves.greet hinv hclient hack hpc ht
    exact ⟨t, ht, hbytes, hfour ▸ Nat.lt_succ_of_le (toReady_of_greeted hgreeted)⟩
  | dispatch =>
    have hsteady := hserves.steady
    rw [hpc] at hsteady
    exact absurd hgreetings (hinv.handshake.ready hsteady.1).greeted
  | handle m =>
    exact absurd hgreetings (hinv.handshake.cleared m (by rw [hpc]; rfl)).1.greeted
  | notStarted | read =>
    rw [hpc] at howes
    exact absurd howes howed
  | _ =>
    have hsteady := hserves.steady
    rw [hpc] at hsteady
    exact hsteady.elim

theorem writing_progress (h : s.Inv parse) (hs : s.Serves greeting requests)
    (hgreeted : s.greetings ≠ []) (hready : s.state ≠ .ready) :
    ∃ t, s.writerStep .go = some t ∧ t.bytes = s.bytes ∧ t.toReady < s.toReady := by
  obtain ⟨hstate, hpledged⟩ := (hs.pledged hgreeted).resolve_left hready
  have hserving := hs.serving
  cases hpc : s.writer with
  | notStarted =>
    rcases h.life.notStarted hpc with hother | hother <;> rw [hother] at hstate <;> cases hstate
  | wait =>
    rcases hpledged with hmarking | ⟨bytes, hframe⟩
    · rw [hpc] at hmarking
      cases hmarking
    · have hegress : s.egress = [⟨bytes, true⟩] := by
        rw [hpc] at hframe
        exact hframe
      simp only [writerStep, hpc, hs.running, hegress, Bool.false_eq_true, if_false]
      exact ⟨_, rfl, rfl, by simp [toReady, hstate, hgreeted, hpc]⟩
  | write frame =>
    have hmark : frame.markReadyAfterWrite = true := by
      rcases hpledged with hmarking | ⟨bytes, hframe⟩
      · rw [hpc] at hmarking
        cases hmarking
      · rw [hpc] at hframe
        rw [(List.cons.inj hframe).1]
    simp only [writerStep, hpc, hmark]
    exact ⟨_, rfl, rfl, by simp [toReady, hstate, hgreeted, hpc]⟩
  | markReady =>
    simp only [writerStep, hpc, markReady, if_pos hstate]
    exact ⟨_, rfl, rfl, by simp [toReady, hstate, hgreeted, hpc]⟩
  | _ =>
    rw [hpc] at hserving
    cases hserving

theorem reaches_ready (hclient : ClientStream parse config ack greeting requests)
    (hack : encodeMessage config.frameCodec (.helloAck ack) = .ok ackBytes)
    (h : s.Handshaken parse config ack greeting requests) (hhello : frameOf greeting <+: s.bytes) :
    ∃ later t, (∀ a ∈ later, a = .reader .go ∨ a = .writer .go) ∧
      exec (step parse) s later = some t ∧ t.state = .ready := by
  induction hn : s.toReady using Nat.strongRecOn generalizing s with
  | ind n ih =>
    by_cases hready : s.state = .ready
    · exact ⟨[], s, fun a ha => (by cases ha), rfl, hready⟩
    have hstep : ∃ a t, (a = .reader .go ∨ a = .writer .go) ∧
        (ClientConforms greeting requests s a ∧ ReadyInTime s a) ∧
        s.step parse a = some t ∧ t.bytes = s.bytes ∧ t.toReady < s.toReady := by
      by_cases hgreetings : s.greetings = []
      · obtain ⟨t, ht⟩ := greeting_progress hclient hack h hhello hgreetings
        exact ⟨.reader .go, t, Or.inl rfl, ⟨trivial, .of_quiet hgreetings s.reader⟩, ht⟩
      · obtain ⟨t, ht⟩ := writing_progress h.inv h.serves hgreetings hready
        exact ⟨.writer .go, t, Or.inr rfl, ⟨trivial, trivial⟩, ht⟩
    obtain ⟨a, t, ha, hguard, hstep, hbytes, hlt⟩ := hstep
    obtain ⟨later, u, hlater, hrun, hu⟩ := ih t.toReady (hn ▸ hlt)
      (step_handshaken hclient hack h hguard hstep) (hbytes ▸ hhello) rfl
    exact ⟨a :: later, u, forall_mem_cons.mpr ⟨ha, hlater⟩,
      exec_cons.mpr ⟨t, hstep, hrun⟩, hu⟩

end

end IpcSession

/-- A client that conforms is served: the session does not fail, once the whole Hello
was read the threads lead it to the ready state, and they do nothing more only in
the ready state. The reader must not look at a request before the writer has marked
the session as ready. -/
theorem handshake_survives [JsonLib] (parse : List UInt8 → Except (List UInt8) Json)
    (config : IpcSessionConfig) (ack : HelloAck) (ackBytes greeting : List UInt8)
    (requests : List (List UInt8))
    (hack : encodeMessage config.frameCodec (.helloAck ack) = .ok ackBytes)
    (hclient : ClientStream parse config ack greeting requests)
    (actions : List SessionAction) (s : IpcSession)
    (hrun : exec (IpcSession.step parse) (.create config ack) actions = some s)
    (hconforms : Along (IpcSession.step parse) (ClientConforms greeting requests)
      (.create config ack) actions)
    (hready : Along (IpcSession.step parse) ReadyInTime (.create config ack) actions) :
    s.state ≠ .failed ∧ s.terminalStatus.isOk = true ∧
    (frameOf greeting <+: s.bytes →
      (s.reader = .read → s.writer = .wait → s.egress = [] → s.state = .ready) ∧
      ∃ later t, (∀ a ∈ later, a = .reader .go ∨ a = .writer .go) ∧
        exec (IpcSession.step parse) s later = some t ∧ t.state = .ready) := by
  have h : s.Handshaken parse config ack greeting requests :=
    exec_invariant
      (fun _ _ _ hs hguard hstep => IpcSession.step_handshaken hclient hack hs hguard hstep)
      IpcSession.create_handshaken (hconforms.and hready) hrun
  have hstate : s.state ≠ .failed := by
    rcases h.serves.state with hs | hs | hs <;> rw [hs] <;> decide
  refine ⟨hstate, ?_, fun hhello => ⟨fun hreader hwriter hegress => ?_,
    IpcSession.reaches_ready hclient hack h hhello⟩⟩
  · by_contra hrecorded
    exact hstate (h.inv.life.recorded (by simpa using hrecorded))
  · have hgreeted : s.greetings ≠ [] := by
      intro hgreetings
      obtain ⟨tail, hstream, howes⟩ := h.inv.inbound.stream
      rw [hreader] at howes
      exact IpcSession.owed_ne_nil h.inv (h.config ▸ hclient.carried _ List.mem_cons_self) hhello
        hgreetings hstream howes
    refine (h.serves.pledged hgreeted).resolve_right ?_
    rintro ⟨-, hmarking | ⟨bytes, hframe⟩⟩
    · rw [hwriter] at hmarking
      cases hmarking
    · rw [hwriter, hegress] at hframe
      cases hframe

section Checks
variable [JsonLib]

instance (s : IpcSession) (bytes : List UInt8) : Decidable (s.IsAck bytes) :=
  inferInstanceAs (Decidable (_ = _))

instance (greeting : List UInt8) (requests : List (List UInt8)) (s : IpcSession) :
    ∀ a, Decidable (ClientConforms greeting requests s a)
  | .reader (.bytes _) => inferInstanceAs (Decidable (_ ∧ _))
  | .reader .go | .writer .go | .start _ | .send _ => isTrue trivial
  | .reader (.failed _) | .reader .closed | .reader (.threw _)
  | .writer (.failed _) | .writer .closed | .writer (.bytes _) | .writer (.threw _)
  | .stop _ => isFalse id

instance (s : IpcSession) : ∀ pc : SessionReaderPc, Decidable (pc.InTime s)
  | .received _ => inferInstanceAs (Decidable (_ → _ → _))
  | .next _ _ (_ :: _) => inferInstanceAs (Decidable (_ → _))
  | .next _ _ [] | .notStarted | .read | .readFailed _ | .peerClosed
  | .handshake .. | .dispatch .. | .handle .. | .failing _ | .exited => isTrue trivial

instance (s : IpcSession) : ∀ a, Decidable (ReadyInTime s a)
  | .reader _ => inferInstanceAs (Decidable (s.reader.InTime s))
  | .start _ | .writer _ | .send _ | .stop _ => isTrue trivial

end Checks

def plainPayload (m : Message) : List UInt8 := @Json.dump plainJson (messageJson m)

theorem plainStream : ClientStream plainParse plainSession.config plainAck
    (plainPayload plainHello) [plainPayload plainHealth] where
  carried := by
    intro payload hp
    rcases mem_pair.mp hp with rfl | rfl
    · exact ⟨by decide +kernel, by decide +kernel, by decide +kernel⟩
    · exact ⟨by decide +kernel, by decide +kernel, by decide +kernel⟩
  greets := ⟨{ modelId := utf8 "m", revision := utf8 "r" }, by decide +kernel, rfl, rfl⟩
  asks := by
    intro payload hp
    rw [mem_singleton.mp hp]
    exact ⟨plainHealth, by decide +kernel, rfl⟩

theorem handshake_survives_healthRun :
    ∃ s, exec (@IpcSession.step plainJson plainParse) plainSession healthRun = some s ∧
      s.handled ≠ [] ∧ s.state ≠ .failed := by
  obtain ⟨s, hs, hhandled⟩ := healthRun_handles
  have hack : @encodeMessage plainJson plainSession.config.frameCodec (.helloAck plainAck) =
      .ok (plainFrame (.helloAck plainAck)) := by
    decide +kernel
  have hconforms : Along (@IpcSession.step plainJson plainParse)
      (@ClientConforms plainJson (plainPayload plainHello) [plainPayload plainHealth])
      plainSession healthRun := by
    decide +kernel
  have hready : Along (@IpcSession.step plainJson plainParse) ReadyInTime plainSession healthRun := by
    decide +kernel
  exact ⟨s, hs, hhandled,
    (@handshake_survives plainJson plainParse plainSession.config plainAck _ _ _ hack plainStream
      healthRun s hs hconforms hready).1⟩

/-- The acknowledgement is written and the client answers with a Health, which the
reader looks at before the writer marks the session as ready. -/
def earlyRun : List SessionAction :=
  greetRun ++ [.reader (.bytes (plainFrame plainHealth)), .reader .go, .reader .go, .reader .go,
    .reader .go]

theorem handshake_cut_off :
    Along (@IpcSession.step plainJson plainParse)
      (@ClientConforms plainJson (plainPayload plainHello) [plainPayload plainHealth])
      plainSession earlyRun ∧
    ∃ s, exec (@IpcSession.step plainJson plainParse) plainSession earlyRun = some s ∧
      s.state = .failed ∧
      s.terminalStatus = invalid "server expected Hello as the first IPC message" := by
  have hrun : (exec (@IpcSession.step plainJson plainParse) plainSession earlyRun).any
      (fun s => decide (s.state = .failed) && decide (s.terminalStatus =
        invalid "server expected Hello as the first IPC message")) = true := by
    decide +kernel
  obtain ⟨s, hs, hfailed⟩ := (Option.any_eq_true _ _).mp hrun
  rw [Bool.and_eq_true, decide_eq_true_eq, decide_eq_true_eq] at hfailed
  exact ⟨by decide +kernel, s, hs, hfailed⟩

end KimServing.Ipc

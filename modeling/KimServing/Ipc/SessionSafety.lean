import KimServing.Ipc.IpcSession

/-! # What a session never does

The session lock is given up between the checks of its threads, so everything is
stated between critical sections: what the queue holds, which part of the stream
the handler has got, and that the handshake was answered before.
-/
namespace KimServing.Ipc
open Library Incremental List

namespace IpcSession

def payloads (s : IpcSession) : List (List UInt8) :=
  (run FrameDecoder.push { config := s.config.frameCodec } s.bytes).2

def Matches (s : IpcSession) (hello : Hello) : Prop :=
  hello.modelId = s.serverHelloAck.manifest.modelId ∧
    hello.revision = s.serverHelloAck.manifest.revision

end IpcSession

def SessionWriterPc.taken : SessionWriterPc → List PendingFrame
  | .write frame => [frame]
  | _ => []

def SessionWriterPc.serving : SessionWriterPc → Bool
  | .notStarted | .wait | .write _ | .markReady => true
  | _ => false

def SessionWriterPc.marking : SessionWriterPc → Bool
  | .markReady => true
  | _ => false

/-- What the reader has still to look at in its batch. A reader that gives up leaves
the rest of the stream. -/
def SessionReaderPc.Owes (decode : List UInt8 → Except Status Message)
    (rest : List (Except Status Message)) : SessionReaderPc → Prop
  | .received payloads | .next _ _ payloads => rest = payloads.map decode
  | .handshake m _ _ payloads | .dispatch m _ _ payloads
  | .handle m _ _ payloads => rest = .ok m :: payloads.map decode
  | .failing _ | .exited => True
  | _ => rest = []

def SessionReaderPc.cleared : SessionReaderPc → Option Message
  | .handle m _ _ _ => some m
  | _ => none

def SessionStopPc.joined : SessionStopPc → Bool
  | .finish => true
  | _ => false

def SessionStopPc.underway : SessionStopPc → Bool
  | .notCalled | .returned _ => false
  | _ => true

namespace IpcSession
variable {s s' : IpcSession}

structure QueueInv (s : IpcSession) : Prop where
  bytes : s.queuedEgressBytes = (s.egress.map (fun frame => frame.bytes.length)).sum
  bytes_le : s.queuedEgressBytes ≤ s.config.maxEgressBytes
  frames_le : s.egress.length ≤ s.config.maxEgressFrames

/-- The state of the session fits where its threads are. -/
structure LifeInv (s : IpcSession) : Prop where
  created : s.state = .created →
    s.stopRequested = false ∧ s.reader = .notStarted ∧ s.writer = .notStarted
  stopping : s.state = .stopping → s.stopRequested = true
  failed : s.state = .failed → s.stopRequested = true
  recorded : s.terminalStatus.isOk = false → s.state = .failed
  notStarted : s.writer = .notStarted → s.state = .created ∨ s.state = .stopped
  joinable : s.writerJoinable = false → s.writer = .notStarted ∨ s.writer = .exited
  underway : ∀ k, (s.stoppers k).underway = true → s.writer ≠ .notStarted
  joined : ∀ k, (s.stoppers k).joined = true → s.writer = .exited

section
variable [JsonLib]

def IsAck (s : IpcSession) (bytes : List UInt8) : Prop :=
  encodeMessage s.config.frameCodec (.helloAck s.serverHelloAck) = .ok bytes

structure Opened (s : IpcSession) : Prop where
  greeted : s.greetings ≠ []
  ack : ∃ bytes ∈ s.written, s.IsAck bytes
  state : s.state ≠ .created ∧ s.state ≠ .handshaking

structure HandshakeInv (s : IpcSession) : Prop where
  matching : ∀ hello ∈ s.greetings, s.Matches hello
  marked : ∀ frame ∈ s.writer.taken ++ s.egress, frame.markReadyAfterWrite = true →
    s.IsAck frame.bytes ∧ s.greetings ≠ []
  marking : s.writer.marking = true → s.greetings ≠ [] ∧ ∃ bytes ∈ s.written, s.IsAck bytes
  ready : s.state = .ready → s.Opened
  cleared : ∀ m, s.reader.cleared = some m → s.Opened ∧ isServerInbound m = true
  handled : s.handled ≠ [] → s.Opened
  inbound : ∀ m ∈ s.handled, isServerInbound m = true

/-- The frames of the queued messages are those written, the one that the writer has
taken, and those in the queue. A writer that gives up leaves the last two. -/
structure OutboundInv (s : IpcSession) : Prop where
  frames : ∃ rest,
    s.accepted.map (encodeMessage s.config.frameCodec) = (s.written ++ rest).map .ok ∧
    (s.writer.serving = true → rest = (s.writer.taken ++ s.egress).map PendingFrame.bytes)

structure InboundInv (parse : List UInt8 → Except (List UInt8) Json) (s : IpcSession) : Prop where
  decoder : s.decoder = (run FrameDecoder.push { config := s.config.frameCodec } s.bytes).1
  stream : ∃ rest, s.payloads.map (decodePayload parse) =
    (s.greetings.map Message.hello ++ s.handled).map .ok ++ rest ∧
      s.reader.Owes (decodePayload parse) rest

structure Inv (parse : List UInt8 → Except (List UInt8) Json) (s : IpcSession) : Prop where
  queue : s.QueueInv
  life : s.LifeInv
  handshake : s.HandshakeInv
  outbound : s.OutboundInv
  inbound : s.InboundInv parse

end

/-! ## Critical sections -/

theorem fail_cases (s : IpcSession) (status : Status) :
    (s.state = .failed ∨ s.state = .stopped ∨ s.state = .stopping) ∧ s.fail status = s ∨
    (s.state = .created ∨ s.state = .handshaking ∨ s.state = .ready) ∧
      ∃ recorded, recorded.isOk = false ∧ s.fail status =
        { s with terminalStatus := recorded, state := .failed, stopRequested := true } := by
  unfold fail
  split
  · next h => exact Or.inl ⟨h, rfl⟩
  · next h =>
    refine Or.inr ⟨?_, _, ?_, rfl⟩
    · cases hs : s.state <;> simp [hs] at h ⊢
    · split
      · rfl
      · next hok => simpa using hok

theorem markReady_cases (s : IpcSession) :
    s.state ≠ .handshaking ∧ s.markReady = s ∨
      s.state = .handshaking ∧ s.markReady = { s with state := .ready } := by
  unfold markReady
  split
  · next h => exact Or.inr ⟨h, rfl⟩
  · next h => exact Or.inl ⟨h, rfl⟩

section
variable [JsonLib]

theorem encodeMessage_error {config : FrameCodecConfig} {m : Message} {status : Status}
    (h : encodeMessage config m = .error status) : status.isOk = false := by
  unfold encodeMessage encodePayload at h
  cases hm : m.validate with
  | error =>
    rw [hm] at h
    cases h
    rw [Status.isOk_false_iff, m.validate_refusesInvalid _ hm]
    decide
  | ok =>
    rw [hm] at h
    simp only [bind, Except.bind] at h
    split at h
    · next hprint =>
      split at hprint
      · cases hprint
      · cases hprint
        cases h
        rfl
    · unfold encodeFrame at h
      split_ifs at h
      all_goals cases h
      all_goals rfl

theorem enqueueMessage_cases (s : IpcSession) (m : Message) (requireReady mark : Bool) :
    ((s.enqueueMessage m requireReady mark).1.isOk = false ∧
      (s.enqueueMessage m requireReady mark).2 = s) ∨
    (∃ bytes, encodeMessage s.config.frameCodec m = .ok bytes ∧ s.stopRequested = false ∧
      s.state = (if requireReady then .ready else .handshaking) ∧
      s.egress.length < s.config.maxEgressFrames ∧
      bytes.length ≤ s.config.maxEgressBytes - s.queuedEgressBytes ∧
      s.enqueueMessage m requireReady mark = (.success, { s with
        queuedEgressBytes := s.queuedEgressBytes + bytes.length
        egress := s.egress ++ [⟨bytes, mark⟩]
        accepted := s.accepted ++ [m] })) := by
  unfold enqueueMessage
  cases he : encodeMessage s.config.frameCodec m with
  | error =>
    refine Or.inl ⟨encodeMessage_error he, rfl⟩
  | ok bytes =>
    dsimp only
    split
    · exact Or.inl ⟨rfl, rfl⟩
    · next hclosed =>
      split
      · exact Or.inl ⟨rfl, rfl⟩
      · next hready =>
        split
        · exact Or.inl ⟨rfl, rfl⟩
        · next hhandshaking =>
          split
          · exact Or.inl ⟨rfl, rfl⟩
          · next hfull =>
            simp only [not_or, Bool.not_eq_true, Nat.not_le, Nat.not_lt] at hclosed hfull
            refine Or.inr ⟨bytes, rfl, hclosed.1, ?_, hfull.1, hfull.2, rfl⟩
            cases requireReady
            · simpa using hhandshaking
            · simpa using hready

theorem start_eq_ok {connectionValid : Bool} : s.start connectionValid = .ok s' ↔
    s.validateConfiguration connectionValid = .ok () ∧ s.state = .created ∧ s' = { s with
      state := .handshaking
      stopRequested := false
      terminalStatus := .success
      reader := .read
      writer := .wait
      readerJoinable := true
      writerJoinable := true } := by
  unfold start
  cases hvalid : s.validateConfiguration connectionValid with
  | error => simp [bind, Except.bind]
  | ok =>
    simp only [bind, Except.bind]
    by_cases hcreated : s.state = .created
    · simp [hcreated, pure, Except.pure, eq_comm]
    · simp [hcreated]

end

/-! ## One step -/

theorem QueueInv.enqueue (h : s.QueueInv) {bytes : List UInt8} (mark : Bool) (m : Message)
    (hframes : s.egress.length < s.config.maxEgressFrames)
    (hbytes : bytes.length ≤ s.config.maxEgressBytes - s.queuedEgressBytes) :
    QueueInv { s with
      queuedEgressBytes := s.queuedEgressBytes + bytes.length
      egress := s.egress ++ [⟨bytes, mark⟩]
      accepted := s.accepted ++ [m] } := by
  have hle := h.bytes_le
  refine ⟨?_, ?_, ?_⟩
  · simp [h.bytes]
  · show s.queuedEgressBytes + bytes.length ≤ s.config.maxEgressBytes
    omega
  · simpa using hframes

section
variable [JsonLib] {parse : List UInt8 → Except (List UInt8) Json}

variable {m : Message} {bytes : List UInt8} {pc : SessionReaderPc} {started : Bool} {index : ℕ}
  {rest : List (List UInt8)}

theorem OutboundInv.enqueue (h : s.OutboundInv) (mark : Bool)
    (hencode : encodeMessage s.config.frameCodec m = .ok bytes) :
    OutboundInv { s with
      queuedEgressBytes := s.queuedEgressBytes + bytes.length
      egress := s.egress ++ [⟨bytes, mark⟩]
      accepted := s.accepted ++ [m] } := by
  obtain ⟨rest, hframes, hserving⟩ := h.frames
  refine ⟨rest ++ [bytes], ?_, fun hs => ?_⟩
  · rw [map_append, hframes, map_singleton, hencode]
    simp
  · rw [hserving hs]
    simp

theorem HandshakeInv.enqueue (h : s.HandshakeInv) {mark : Bool}
    (hmark : mark = true → s.IsAck bytes ∧ s.greetings ≠ []) :
    HandshakeInv { s with
      queuedEgressBytes := s.queuedEgressBytes + bytes.length
      egress := s.egress ++ [⟨bytes, mark⟩]
      accepted := s.accepted ++ [m] } := by
  have hopened : s.Opened → Opened { s with
      queuedEgressBytes := s.queuedEgressBytes + bytes.length
      egress := s.egress ++ [⟨bytes, mark⟩]
      accepted := s.accepted ++ [m] } := fun ho => { ho with }
  refine ⟨h.matching, ?_, h.marking, fun hr => hopened (h.ready hr),
    fun m hm => ⟨hopened (h.cleared m hm).1, (h.cleared m hm).2⟩, fun hh => hopened (h.handled hh),
    h.inbound⟩
  intro frame hframe hmarked
  rw [← append_assoc, mem_append, mem_singleton] at hframe
  rcases hframe with hframe | rfl
  · exact h.marked frame hframe hmarked
  · exact hmark hmarked

theorem HandshakeInv.carry (h : s.HandshakeInv) (hopened : s.Opened → s'.Opened)
    (hmatching : ∀ hello ∈ s'.greetings, s'.Matches hello)
    (hmarked : ∀ frame ∈ s'.writer.taken ++ s'.egress, frame.markReadyAfterWrite = true →
      s'.IsAck frame.bytes ∧ s'.greetings ≠ [])
    (hmarking : s'.writer.marking = true → s'.greetings ≠ [] ∧ ∃ bytes ∈ s'.written, s'.IsAck bytes)
    (hready : s'.state = .ready → s.state = .ready)
    (hcleared : ∀ m, s'.reader.cleared = some m → s.reader.cleared = some m)
    (hhandled : s'.handled = s.handled) : s'.HandshakeInv :=
  ⟨hmatching, hmarked, hmarking, fun hr => hopened (h.ready (hready hr)),
    fun m hm => (h.cleared m (hcleared m hm)).imp_left hopened,
    fun hh => hopened (h.handled (hhandled ▸ hh)), hhandled ▸ h.inbound⟩

theorem Inv.reads (h : s.Inv parse) {decoder : FrameDecoder} (hstarted : s.reader ≠ .notStarted)
    (hcleared : pc.cleared = none)
    (hinbound : InboundInv parse { s with bytes := bytes, decoder := decoder, reader := pc }) :
    Inv parse { s with bytes := bytes, decoder := decoder, reader := pc } :=
  ⟨{ h.queue with },
    { h.life with created := fun hc => absurd (h.life.created hc).2.1 hstarted },
    h.handshake.carry (fun ho => { ho with }) h.handshake.matching h.handshake.marked
      h.handshake.marking id (fun m hm => by cases hcleared.symm.trans hm) rfl,
    { h.outbound with }, hinbound⟩

theorem Inv.readerMoves (h : s.Inv parse) (hstarted : s.reader ≠ .notStarted)
    (hcleared : pc.cleared = none)
    (howes : ∀ rest, s.reader.Owes (decodePayload parse) rest → pc.Owes (decodePayload parse) rest) :
    Inv parse { s with reader := pc } := by
  obtain ⟨rest, hrest, howed⟩ := h.inbound.stream
  exact h.reads hstarted hcleared ⟨h.inbound.decoder, rest, hrest, howes rest howed⟩

omit [JsonLib] in
theorem LifeInv.writerMoves (h : s.LifeInv) (hstarted : s.writer ≠ .notStarted)
    (hrunning : s.writer ≠ .exited) {pc : SessionWriterPc} (hpc : pc ≠ .notStarted) :
    LifeInv { s with writer := pc } :=
  { h with
    created := fun hc => absurd (h.created hc).2.2 hstarted
    notStarted := fun hn => absurd hn hpc
    joinable := fun hj => ((h.joinable hj).elim hstarted hrunning).elim
    underway := fun _ _ => hpc
    joined := fun k hk => absurd (h.joined k hk) hrunning }

theorem Inv.writerMoves (h : s.Inv parse) {pc : SessionWriterPc} (hstarted : s.writer ≠ .notStarted)
    (hrunning : s.writer ≠ .exited) (hpc : pc ≠ .notStarted) (htaken : pc.taken = [])
    (hmarking : pc.marking = false)
    (hserving : pc.serving = true → s.writer.serving = true ∧ s.writer.taken = []) :
    Inv parse { s with writer := pc } := by
  obtain ⟨rest, hframes, hrest⟩ := h.outbound.frames
  refine ⟨{ h.queue with }, h.life.writerMoves hstarted hrunning hpc,
    h.handshake.carry (fun ho => { ho with }) h.handshake.matching (fun frame hframe => ?_)
      (fun hm => by cases hmarking.symm.trans hm) id (fun _ => id) rfl,
    ⟨rest, hframes, fun hs => ?_⟩, { h.inbound with }⟩
  · have hframe : frame ∈ pc.taken ++ s.egress := hframe
    rw [htaken, nil_append] at hframe
    exact h.handshake.marked frame (mem_append_right _ hframe)
  · obtain ⟨hactive, hnone⟩ := hserving hs
    rw [hrest hactive, hnone]
    show _ = (pc.taken ++ s.egress).map PendingFrame.bytes
    rw [htaken]

theorem Inv.leaves (h : s.Inv parse) {state : IpcSessionState} {status : Status}
    (hcreated : s.state ≠ .created) (hstopped : s.state ≠ .stopped)
    (hstate : state = .stopping ∨ state = .failed)
    (hstatus : status.isOk = false → state = .failed) :
    Inv parse { s with state := state, stopRequested := true, terminalStatus := status } := by
  have hnew : state ≠ .created ∧ state ≠ .handshaking ∧ state ≠ .ready := by
    rcases hstate with rfl | rfl <;> decide
  have hwriter : s.writer ≠ .notStarted := fun hw =>
    (h.life.notStarted hw).elim hcreated hstopped
  exact ⟨{ h.queue with },
    { h.life with
      created := fun hc => absurd hc hnew.1
      stopping := fun _ => rfl
      failed := fun _ => rfl
      recorded := hstatus
      notStarted := fun hw => absurd hw hwriter },
    h.handshake.carry (fun ho => { ho with state := ⟨hnew.1, hnew.2.1⟩ }) h.handshake.matching
      h.handshake.marked h.handshake.marking (fun hr => absurd hr hnew.2.2) (fun _ => id) rfl,
    { h.outbound with }, { h.inbound with }⟩

theorem Inv.fail (h : s.Inv parse) (hcreated : s.state ≠ .created) (status : Status) :
    (s.fail status).Inv parse := by
  rcases s.fail_cases status with ⟨-, heq⟩ | ⟨hstate, recorded, hrecorded, heq⟩
  · rw [heq]
    exact h
  · rw [heq]
    refine h.leaves hcreated ?_ (Or.inr rfl) (fun _ => rfl)
    rcases hstate with hstate | hstate | hstate <;> rw [hstate] <;> decide

theorem Inv.enqueue (h : s.Inv parse) {requireReady mark : Bool}
    (hmark : mark = true → m = .helloAck s.serverHelloAck ∧ s.greetings ≠ []) :
    (s.enqueueMessage m requireReady mark).2.Inv parse := by
  rcases s.enqueueMessage_cases m requireReady mark with ⟨-, heq⟩ |
    ⟨bytes, hencode, -, -, hframes, hbytes, heq⟩
  · rw [heq]
    exact h
  · rw [heq]
    refine ⟨h.queue.enqueue _ _ hframes hbytes, { h.life with }, h.handshake.enqueue (fun hm => ?_),
      h.outbound.enqueue _ hencode, { h.inbound with }⟩
    obtain ⟨rfl, hgreeted⟩ := hmark hm
    exact ⟨hencode, hgreeted⟩

theorem send_inv (h : s.Inv parse) (m : Message) : (s.send m).2.Inv parse := by
  unfold send
  split
  · exact h
  · exact h.enqueue (fun hm => absurd hm (by decide))

omit [JsonLib] in
theorem InboundInv.wellFormed (h : s.InboundInv parse) : s.decoder.WellFormed := by
  rw [h.decoder]
  exact run_invariant (I := FrameDecoder.WellFormed)
    (fun e b he => FrameDecoder.push_wellFormed he b) (fun _ => Or.inl ⟨by simp, rfl, rfl⟩) s.bytes

theorem Inv.feed (h : s.Inv parse) (hpc : s.reader = .read) (chunk : List UInt8) :
    Inv parse { s with
      bytes := s.bytes ++ chunk
      decoder := (s.decoder.feed chunk).1
      reader := if (s.decoder.feed chunk).2.isOk then .received (s.decoder.feed chunk).2.payloads
        else .failing (s.decoder.feed chunk).2.status } := by
  obtain ⟨rest, hstream, howes⟩ := h.inbound.stream
  rw [hpc] at howes
  obtain rfl : rest = [] := howes
  rw [append_nil] at hstream
  have hpayloads : (run FrameDecoder.push { config := s.config.frameCodec } (s.bytes ++ chunk)).2 =
      s.payloads ++ (run FrameDecoder.push s.decoder chunk).2 := by
    rw [run_append, h.inbound.decoder]
    rfl
  refine h.reads (by simp [hpc]) (by split <;> rfl) ⟨?_, (run FrameDecoder.push s.decoder
    chunk).2.map (decodePayload parse), ?_, ?_⟩
  · rw [FrameDecoder.feed_eq_run h.inbound.wellFormed, run_append, h.inbound.decoder]
  · rw [payloads, hpayloads, map_append, hstream]
  · rw [FrameDecoder.feed_eq_run h.inbound.wellFormed]
    cases hfail : (run FrameDecoder.push s.decoder chunk).1.failure with
    | none =>
      rw [FrameDecoder.answer_ok hfail, if_pos (FrameDecoder.ready_isOk _)]
      rfl
    | some status =>
      have hanswer : (run FrameDecoder.push s.decoder chunk).1.answer
          (run FrameDecoder.push s.decoder chunk).2 = ⟨.error, status, []⟩ := by
        rw [FrameDecoder.answer, hfail]
      rw [hanswer]
      exact trivial

theorem Inv.greet (h : s.Inv parse) {hello : Hello}
    (hpc : s.reader = .handshake (.hello hello) started index rest) (hmatch : s.Matches hello)
    (hack : s.IsAck bytes) (hstate : s.state = .handshaking)
    (hframes : s.egress.length < s.config.maxEgressFrames)
    (hbytes : bytes.length ≤ s.config.maxEgressBytes - s.queuedEgressBytes) :
    Inv parse { s with
      queuedEgressBytes := s.queuedEgressBytes + bytes.length
      egress := s.egress ++ [⟨bytes, true⟩]
      accepted := s.accepted ++ [.helloAck s.serverHelloAck]
      greetings := s.greetings ++ [hello]
      reader := .next started (index + 1) rest } := by
  obtain ⟨tail, hstream, howes⟩ := h.inbound.stream
  rw [hpc] at howes
  obtain rfl : tail = .ok (.hello hello) :: rest.map (decodePayload parse) := howes
  have hnone : s.handled = [] := by
    by_contra hh
    exact (h.handshake.handled hh).state.2 hstate
  have hgreeted : s.greetings ++ [hello] ≠ [] := by simp
  refine ⟨{ h.queue.enqueue true (.helloAck s.serverHelloAck) hframes hbytes with },
    { h.life with created := fun hc => by cases hstate.symm.trans hc },
    ⟨fun other hother => ?_, fun frame hframe hmarked => ?_,
      fun hm => ⟨hgreeted, (h.handshake.marking hm).2⟩, fun hr => (by cases hstate.symm.trans hr),
      fun m hm => (by cases hm), fun hh => absurd hnone hh, h.handshake.inbound⟩,
    { h.outbound.enqueue true hack with }, ⟨h.inbound.decoder, _, ?_, rfl⟩⟩
  · rcases mem_append.mp hother with hother | hother
    · exact h.handshake.matching other hother
    · rw [mem_singleton.mp hother]
      exact hmatch
  · rw [← append_assoc, mem_append, mem_singleton] at hframe
    rcases hframe with hframe | rfl
    · exact ⟨(h.handshake.marked frame hframe hmarked).1, hgreeted⟩
    · exact ⟨hack, hgreeted⟩
  · rw [hnone, append_nil] at hstream
    show s.payloads.map (decodePayload parse) = _
    rw [hstream, hnone]
    simp

theorem Inv.handle (h : s.Inv parse) (hpc : s.reader = .handle m started index rest)
    (hcleared : pc.cleared = none)
    (howes : pc.Owes (decodePayload parse) (rest.map (decodePayload parse))) :
    Inv parse { s with handled := s.handled ++ [m], reader := pc } := by
  obtain ⟨tail, hstream, howed⟩ := h.inbound.stream
  rw [hpc] at howed
  obtain rfl : tail = .ok m :: rest.map (decodePayload parse) := howed
  obtain ⟨hopened, hinbound⟩ := h.handshake.cleared m (by rw [hpc]; rfl)
  refine ⟨{ h.queue with }, { h.life with created := fun hc => absurd hc hopened.state.1 },
    { h.handshake with
      ready := fun _ => { hopened with }
      cleared := fun other hother => by cases hcleared.symm.trans hother
      handled := fun _ => { hopened with }
      inbound := fun other hother => ?_ },
    { h.outbound with }, ⟨h.inbound.decoder, _, ?_, howes⟩⟩
  · rcases mem_append.mp hother with hother | hother
    · exact h.handshake.inbound other hother
    · rw [mem_singleton.mp hother]
      exact hinbound
  · show s.payloads.map (decodePayload parse) = _
    rw [hstream]
    simp

theorem Inv.clear (h : s.Inv parse) (hpc : s.reader = .dispatch m started index rest)
    (hready : s.state = .ready) (hinbound : isServerInbound m = true) :
    Inv parse { s with reader := .handle m started index rest } := by
  obtain ⟨tail, hstream, howes⟩ := h.inbound.stream
  rw [hpc] at howes
  have hopened := h.handshake.ready hready
  exact ⟨{ h.queue with }, { h.life with created := fun hc => absurd hc hopened.state.1 },
    { h.handshake with
      ready := fun _ => { hopened with }
      cleared := fun other hother => by
        cases hother
        exact ⟨{ hopened with }, hinbound⟩
      handled := fun _ => { hopened with } },
    { h.outbound with }, ⟨h.inbound.decoder, tail, hstream, howes⟩⟩

theorem Inv.state_ne_created (h : s.Inv parse) (hstarted : s.reader ≠ .notStarted) :
    s.state ≠ .created := fun hc => hstarted (h.life.created hc).2.1

theorem readerStep_inv (h : s.Inv parse) {choice : SessionChoice}
    (hstep : s.readerStep parse choice = some s') : s'.Inv parse := by
  unfold readerStep at hstep
  cases hpc : s.reader with
  | notStarted | exited => simp [hpc] at hstep
  | read =>
    simp only [hpc] at hstep
    cases choice with
    | failed =>
      simp only at hstep
      split at hstep <;> cases hstep
      exact h.readerMoves (by simp [hpc]) rfl (by rw [hpc]; exact fun _ hr => hr)
    | closed =>
      cases hstep
      exact h.readerMoves (by simp [hpc]) rfl (by rw [hpc]; exact fun _ hr => hr)
    | bytes chunk =>
      simp only at hstep
      split at hstep <;> cases hstep
      exact h.feed hpc chunk
    | _ => cases hstep
  | readFailed =>
    simp only [hpc] at hstep
    cases hstep
    exact h.readerMoves (by simp [hpc]) (by split <;> rfl) (by split <;> exact fun _ _ => trivial)
  | peerClosed =>
    simp only [hpc] at hstep
    cases hstep
    refine h.readerMoves (by simp [hpc]) ?_ ?_
    all_goals repeat' split
    all_goals first | rfl | exact fun _ _ => trivial
  | received =>
    simp only [hpc] at hstep
    cases hstep
    exact h.readerMoves (by simp [hpc]) rfl (by rw [hpc]; exact fun _ hr => hr)
  | next started index payloads =>
    cases payloads with
    | nil =>
      simp only [hpc] at hstep
      cases hstep
      exact h.readerMoves (by simp [hpc]) rfl (by rw [hpc]; exact fun _ hr => hr)
    | cons payload rest =>
      simp only [hpc] at hstep
      split at hstep
      · cases hstep
        exact h.readerMoves (by simp [hpc]) rfl (fun _ _ => trivial)
      · cases hdecode : decodePayload parse payload with
        | error =>
          simp only [hdecode] at hstep
          cases hstep
          exact h.readerMoves (by simp [hpc]) rfl (fun _ _ => trivial)
        | ok =>
          simp only [hdecode] at hstep
          cases hstep
          refine h.readerMoves (by simp [hpc]) (by split <;> rfl) (fun tail htail => ?_)
          rw [hpc] at htail
          obtain rfl : tail = decodePayload parse payload :: rest.map (decodePayload parse) := htail
          rw [hdecode]
          split <;> rfl
  | handshake m =>
    simp only [hpc] at hstep
    cases hstep
    have hgiveUp (status : Status) : Inv parse { s with reader := .failing status } :=
      h.readerMoves (by simp [hpc]) rfl (fun _ _ => trivial)
    cases m with
    | hello =>
      unfold handleHandshake
      dsimp only
      split
      · exact hgiveUp _
      · next hmatch =>
        rcases s.enqueueMessage_cases (.helloAck s.serverHelloAck) false true with
          ⟨hfailed, heq⟩ | ⟨bytes, hack, -, hstate, hframes, hbytes, heq⟩
        · dsimp only
          rw [heq, hfailed]
          exact hgiveUp _
        · rw [heq]
          exact h.greet hpc (by simpa [Matches, not_or] using hmatch) hack hstate hframes hbytes
    | _ => exact hgiveUp _
  | dispatch =>
    simp only [hpc] at hstep
    cases hstep
    split
    · exact h.readerMoves (by simp [hpc]) rfl (fun _ _ => trivial)
    · next hready =>
      split
      · exact h.readerMoves (by simp [hpc]) rfl (fun _ _ => trivial)
      · next hinbound => exact h.clear hpc (by simpa using hready) (by simpa using hinbound)
  | handle =>
    simp only [hpc] at hstep
    cases choice with
    | go =>
      cases hstep
      exact h.handle hpc rfl rfl
    | threw =>
      cases hstep
      exact h.handle hpc rfl trivial
    | _ => cases hstep
  | failing status =>
    simp only [hpc] at hstep
    cases hstep
    have hstarted : s.reader ≠ .notStarted := by simp [hpc]
    have hreader : (s.fail status).reader = s.reader := by
      rcases s.fail_cases status with ⟨-, heq⟩ | ⟨-, _, -, heq⟩ <;> rw [heq]
    exact (h.fail (h.state_ne_created hstarted) status).readerMoves (by rw [hreader]; exact hstarted)
      rfl (fun _ _ => trivial)

theorem Inv.take (h : s.Inv parse) (hpc : s.writer = .wait) {frame : PendingFrame}
    {rest : List PendingFrame} (hegress : s.egress = frame :: rest) :
    Inv parse { s with
      egress := rest
      queuedEgressBytes := s.queuedEgressBytes - frame.bytes.length
      writer := .write frame } := by
  have hbytes := h.queue.bytes
  have hframesLe := h.queue.frames_le
  simp only [hegress, map_cons, sum_cons, length_cons] at hbytes hframesLe
  obtain ⟨tail, hframes, hserving⟩ := h.outbound.frames
  refine ⟨⟨?_, (Nat.sub_le _ _).trans h.queue.bytes_le, (Nat.le_succ _).trans hframesLe⟩,
    { h.life.writerMoves (by simp [hpc]) (by simp [hpc])
      (show SessionWriterPc.write frame ≠ .notStarted by simp) with },
    h.handshake.carry (fun ho => { ho with }) h.handshake.matching (fun other hother => ?_)
      (fun hm => (by cases hm)) id (fun _ => id) rfl,
    ⟨tail, hframes, fun _ => ?_⟩, { h.inbound with }⟩
  · exact (congrArg (· - frame.bytes.length) hbytes).trans (Nat.add_sub_cancel_left _ _)
  · refine h.handshake.marked other ?_
    rw [hpc, hegress]
    exact hother
  · rw [hserving (by rw [hpc]; rfl), hpc, hegress]
    rfl

theorem Inv.wrote (h : s.Inv parse) {frame : PendingFrame} (hpc : s.writer = .write frame) :
    Inv parse { s with
      written := s.written ++ [frame.bytes]
      writer := if frame.markReadyAfterWrite then .markReady else .wait } := by
  obtain ⟨tail, hframes, hserving⟩ := h.outbound.frames
  have hmark := h.handshake.marked frame (by rw [hpc]; exact mem_cons_self)
  have hnext : (if frame.markReadyAfterWrite then SessionWriterPc.markReady else .wait).taken = [] := by
    split <;> rfl
  have hstarted : (if frame.markReadyAfterWrite then SessionWriterPc.markReady else .wait) ≠
      .notStarted := by
    split <;> simp
  refine ⟨{ h.queue with },
    { h.life.writerMoves (by simp [hpc]) (by simp [hpc]) hstarted with },
    h.handshake.carry (fun ho => { ho with ack := ?_ }) h.handshake.matching
      (fun other hother => ?_) (fun hm => ?_) id (fun _ => id) rfl,
    ⟨s.egress.map PendingFrame.bytes, ?_, fun _ => ?_⟩, { h.inbound with }⟩
  · obtain ⟨bytes, hbytes, hack⟩ := ho.ack
    exact ⟨bytes, mem_append_left _ hbytes, hack⟩
  · simp only [hnext, nil_append] at hother
    exact h.handshake.marked other (mem_append_right _ hother)
  · cases hflag : frame.markReadyAfterWrite with
    | false =>
      simp only [hflag] at hm
      cases hm
    | true =>
      obtain ⟨hack, hgreeted⟩ := hmark hflag
      exact ⟨hgreeted, frame.bytes, mem_append_right _ (mem_singleton.mpr rfl), hack⟩
  · rw [hframes, hserving (by rw [hpc]; rfl), hpc]
    simp [SessionWriterPc.taken]
  · simp only [hnext, nil_append]

theorem Inv.open (h : s.Inv parse) (hpc : s.writer = .markReady) :
    Inv parse { s.markReady with writer := .wait } := by
  have hwait : Inv parse { s with writer := .wait } :=
    h.writerMoves (by simp [hpc]) (by simp [hpc]) (by simp) rfl rfl (fun _ => by rw [hpc]; exact ⟨rfl, rfl⟩)
  rcases s.markReady_cases with ⟨-, heq⟩ | ⟨hstate, heq⟩
  · rw [heq]
    exact hwait
  · rw [heq]
    obtain ⟨hgreeted, hack⟩ := h.handshake.marking (by rw [hpc]; rfl)
    have hopened : Opened { s with state := .ready, writer := .wait } := ⟨hgreeted, hack, by simp⟩
    exact ⟨{ hwait.queue with },
      { hwait.life with
        created := fun hc => (by cases hc)
        stopping := fun hc => (by cases hc)
        failed := fun hc => (by cases hc)
        recorded := fun hr => by cases hstate.symm.trans (h.life.recorded hr)
        notStarted := fun hw => (by cases hw) },
      { hwait.handshake with
        ready := fun _ => hopened
        cleared := fun m hm => ⟨hopened, (h.handshake.cleared m hm).2⟩
        handled := fun _ => hopened },
      { hwait.outbound with }, { hwait.inbound with }⟩

theorem writerStep_inv (h : s.Inv parse) {choice : SessionChoice}
    (hstep : s.writerStep choice = some s') : s'.Inv parse := by
  unfold writerStep at hstep
  cases hpc : s.writer with
  | notStarted | exited => simp [hpc] at hstep
  | wait =>
    simp only [hpc] at hstep
    split at hstep
    · cases hstep
      exact h.writerMoves (by simp [hpc]) (by simp [hpc]) (by simp) rfl rfl (fun hs => by cases hs)
    · cases hegress : s.egress with
      | nil => simp [hegress] at hstep
      | cons =>
        simp only [hegress] at hstep
        cases hstep
        exact h.take hpc hegress
  | write =>
    simp only [hpc] at hstep
    cases choice with
    | go =>
      cases hstep
      exact h.wrote hpc
    | failed =>
      simp only at hstep
      split at hstep <;> cases hstep
      exact h.writerMoves (by simp [hpc]) (by simp [hpc]) (by simp) rfl rfl (fun hs => by cases hs)
    | _ => cases hstep
  | writeFailed =>
    simp only [hpc] at hstep
    cases hstep
    refine h.writerMoves (by simp [hpc]) (by simp [hpc]) ?_ ?_ ?_ ?_
    all_goals split
    all_goals first | rfl | simp | exact fun hs => by cases hs
  | markReady =>
    simp only [hpc] at hstep
    cases hstep
    exact h.open hpc
  | failing status =>
    simp only [hpc] at hstep
    cases hstep
    have hwriter : (s.fail status).writer = .failing status := by
      rcases s.fail_cases status with ⟨-, heq⟩ | ⟨-, _, -, heq⟩ <;> rw [heq, hpc]
    refine (h.fail ?_ status).writerMoves (by simp [hwriter]) (by simp [hwriter]) (by simp) rfl rfl
      (fun hs => by cases hs)
    intro hc
    have hw := (h.life.created hc).2.2
    cases hpc.symm.trans hw

theorem Inv.stopperMoves (h : s.Inv parse) {k : ℕ} {pc : SessionStopPc}
    (hunderway : pc.underway = true → s.writer ≠ .notStarted)
    (hjoined : pc.joined = true → s.writer = .exited) : (s.setStopper k pc).Inv parse := by
  refine ⟨{ h.queue with },
    { h.life with underway := fun n hn => ?_, joined := fun n hn => ?_ },
    h.handshake.carry (fun ho => { ho with }) h.handshake.matching h.handshake.marked
      h.handshake.marking id (fun _ => id) rfl,
    { h.outbound with }, { h.inbound with }⟩
  all_goals
    by_cases hk : n = k
    · subst hk
      simp only [setStopper, Function.update_self] at hn
      first | exact hunderway hn | exact hjoined hn
    · simp only [setStopper, Function.update_of_ne hk] at hn
      first | exact h.life.underway n hn | exact h.life.joined n hn

theorem Inv.clearQueue (h : s.Inv parse) (hwriter : s.writer = .exited) {state : IpcSessionState}
    (hstate : s.state = .failed ∧ state = .failed ∨ s.state ≠ .failed ∧ state = .stopped) :
    Inv parse { s with state := state, egress := [], queuedEgressBytes := 0 } := by
  obtain ⟨rest, hframes, -⟩ := h.outbound.frames
  have hnew : state ≠ .created ∧ state ≠ .handshaking ∧ state ≠ .ready ∧ state ≠ .stopping := by
    rcases hstate with ⟨-, rfl⟩ | ⟨-, rfl⟩ <;> decide
  refine ⟨⟨rfl, Nat.zero_le _, Nat.zero_le _⟩,
    { h.life with
      created := fun hc => absurd hc hnew.1
      stopping := fun hc => absurd hc hnew.2.2.2
      failed := fun hf => ?_
      recorded := fun hr => ?_
      notStarted := fun hw => by cases hwriter.symm.trans hw },
    h.handshake.carry (fun ho => { ho with state := ⟨hnew.1, hnew.2.1⟩ }) h.handshake.matching
      (fun frame hframe => ?_) h.handshake.marking (fun hr => absurd hr hnew.2.2.1) (fun _ => id) rfl,
    ⟨rest, hframes, fun hs => ?_⟩, { h.inbound with }⟩
  · rcases hstate with ⟨hold, -⟩ | ⟨-, rfl⟩
    · exact h.life.failed hold
    · cases hf
  · rcases hstate with ⟨-, rfl⟩ | ⟨hold, -⟩
    · rfl
    · exact absurd (h.life.recorded hr) hold
  · simp only [hwriter, SessionWriterPc.taken, append_nil, not_mem_nil] at hframe
  · simp only [hwriter, SessionWriterPc.serving, Bool.false_eq_true] at hs

theorem Inv.setJoinable (h : s.Inv parse) {readerJoinable writerJoinable : Bool}
    (hjoinable : writerJoinable = false → s.writer = .notStarted ∨ s.writer = .exited) :
    Inv parse { s with readerJoinable := readerJoinable, writerJoinable := writerJoinable } :=
  ⟨{ h.queue with }, { h.life with joinable := hjoinable },
    h.handshake.carry (fun ho => { ho with }) h.handshake.matching h.handshake.marked
      h.handshake.marking id (fun _ => id) rfl,
    { h.outbound with }, { h.inbound with }⟩

theorem Inv.neverStarted (h : s.Inv parse) (hcreated : s.state = .created) :
    Inv parse { s with state := .stopped } :=
  ⟨{ h.queue with },
    { h.life with
      created := fun hc => (by cases hc)
      stopping := fun hc => (by cases hc)
      failed := fun hc => (by cases hc)
      recorded := fun hr => by cases hcreated.symm.trans (h.life.recorded hr)
      notStarted := fun _ => Or.inr rfl },
    h.handshake.carry (fun ho => absurd hcreated ho.state.1) h.handshake.matching
      h.handshake.marked h.handshake.marking (fun hr => (by cases hr)) (fun _ => id) rfl,
    { h.outbound with }, { h.inbound with }⟩

theorem Inv.requestStop (h : s.Inv parse) (k : ℕ) (state : IpcSessionState)
    (hcreated : s.state ≠ .created) (hstopped : s.state ≠ .stopped)
    (hstate : s.state = .failed ∧ state = .failed ∨ s.state ≠ .failed ∧ state = .stopping) :
    (setStopper { s with stopRequested := true, state := state } k .testReader).Inv parse := by
  have hwriter : s.writer ≠ .notStarted := fun hw =>
    (h.life.notStarted hw).elim hcreated hstopped
  have hleft : Inv parse { s with
      state := state
      stopRequested := true
      terminalStatus := s.terminalStatus } := by
    refine h.leaves hcreated hstopped ?_ (fun hr => ?_)
    · rcases hstate with ⟨-, hs⟩ | ⟨-, hs⟩
      · exact Or.inr hs
      · exact Or.inl hs
    · rcases hstate with ⟨-, hs⟩ | ⟨hs, -⟩
      · exact hs
      · exact absurd (h.life.recorded hr) hs
  exact hleft.stopperMoves (fun _ => hwriter) (fun hj => by cases hj)

theorem stopStep_inv (h : s.Inv parse) {k : ℕ} (hstep : s.stopStep k = some s') :
    s'.Inv parse := by
  unfold stopStep at hstep
  cases hpc : s.stoppers k with
  | notCalled =>
    simp only [hpc] at hstep
    split at hstep <;> cases hstep
    · next hstate =>
      exact (h.neverStarted hstate).stopperMoves (fun hu => by cases hu) (fun hj => by cases hj)
    · exact h.stopperMoves (fun hu => by cases hu) (fun hj => by cases hj)
    · next hstate =>
      have hfailed := h.requestStop k s.state (by simp [hstate]) (by simp [hstate])
        (Or.inl ⟨hstate, hstate⟩)
      exact hfailed
    · next hcreated hstopped hfailed =>
      exact h.requestStop k .stopping hcreated hstopped (Or.inr ⟨hfailed, rfl⟩)
  | testReader =>
    simp only [hpc] at hstep
    cases hstep
    have hstarted := h.life.underway k (by rw [hpc]; rfl)
    refine h.stopperMoves (fun _ => hstarted) ?_
    split <;> exact fun hj => by cases hj
  | joinReader =>
    simp only [hpc] at hstep
    split at hstep <;> cases hstep
    have hstarted := h.life.underway k (by rw [hpc]; rfl)
    exact (h.setJoinable h.life.joinable).stopperMoves (fun _ => hstarted) (fun hj => by cases hj)
  | testWriter =>
    simp only [hpc] at hstep
    cases hstep
    have hstarted := h.life.underway k (by rw [hpc]; rfl)
    refine h.stopperMoves (fun _ => hstarted) ?_
    split
    · exact fun hj => by cases hj
    · next hjoinable =>
      exact fun _ => (h.life.joinable (by simpa using hjoinable)).resolve_left hstarted
  | joinWriter =>
    simp only [hpc] at hstep
    split at hstep <;> cases hstep
    next hwriter =>
    have hstarted := h.life.underway k (by rw [hpc]; rfl)
    exact (h.setJoinable (fun _ => Or.inr hwriter)).stopperMoves (fun _ => hstarted)
      (fun _ => hwriter)
  | finish =>
    simp only [hpc] at hstep
    cases hstep
    have hwriter := h.life.joined k (by rw [hpc]; rfl)
    refine (h.clearQueue hwriter ?_).stopperMoves (fun hu => by cases hu) (fun hj => by cases hj)
    split
    · next hfailed => exact Or.inl ⟨hfailed, rfl⟩
    · next hfailed => exact Or.inr ⟨hfailed, rfl⟩
  | returned => simp [hpc] at hstep

theorem start_inv (h : s.Inv parse) {connectionValid : Bool}
    (hstart : s.start connectionValid = .ok s') : s'.Inv parse := by
  obtain ⟨-, hcreated, rfl⟩ := start_eq_ok.mp hstart
  obtain ⟨-, hreader, hwriter⟩ := h.life.created hcreated
  obtain ⟨rest, hframes, hserving⟩ := h.outbound.frames
  obtain ⟨tail, hstream, howes⟩ := h.inbound.stream
  rw [hreader] at howes
  refine ⟨{ h.queue with },
    ⟨fun hc => (by cases hc), fun hc => (by cases hc), fun hc => (by cases hc),
      fun hr => (by cases hr), fun hw => (by cases hw), fun hj => (by cases hj),
      fun _ _ => (by simp), fun k hk => by cases hwriter.symm.trans (h.life.joined k hk)⟩,
    h.handshake.carry (fun ho => absurd hcreated ho.state.1) h.handshake.matching
      (fun frame hframe => h.handshake.marked frame (by rw [hwriter]; exact hframe))
      (fun hm => (by cases hm)) (fun hr => (by cases hr)) (fun m hm => (by cases hm)) rfl,
    ⟨rest, hframes, fun _ => ?_⟩, ⟨h.inbound.decoder, tail, hstream, howes⟩⟩
  rw [hserving (by rw [hwriter]; rfl), hwriter]
  rfl

theorem step_inv (h : s.Inv parse) {a : SessionAction} (hstep : s.step parse a = some s') :
    s'.Inv parse := by
  cases a with
  | start =>
    simp only [step] at hstep
    split at hstep <;> cases hstep
    · exact h
    · next hstart => exact start_inv h hstart
  | reader => exact readerStep_inv h hstep
  | writer => exact writerStep_inv h hstep
  | send m =>
    cases hstep
    exact send_inv h m
  | stop => exact stopStep_inv h hstep

theorem create_inv (config : IpcSessionConfig) (ack : HelloAck) :
    (create config ack).Inv parse := by
  refine ⟨⟨rfl, Nat.zero_le _, Nat.zero_le _⟩,
    ⟨fun _ => ⟨rfl, rfl, rfl⟩, fun hc => (by cases hc), fun hc => (by cases hc),
      fun hr => (by cases hr), fun _ => Or.inl rfl, fun _ => Or.inl rfl, fun k hk => (by cases hk),
      fun k hk => (by cases hk)⟩,
    ⟨fun _ hh => (by cases hh), fun _ hf => (by cases hf), fun hm => (by cases hm),
      fun hr => (by cases hr), fun _ hm => (by cases hm), fun hh => absurd rfl hh,
      fun _ hm => (by cases hm)⟩,
    ⟨[], rfl, fun _ => rfl⟩, ⟨rfl, [], rfl, rfl⟩⟩

end

/-! ## Runs -/

def Closed (s : IpcSession) : Prop := s.stopRequested = true ∨ s.state = .stopped

structure Later (s t : IpcSession) : Prop where
  config : t.config = s.config
  ack : t.serverHelloAck = s.serverHelloAck
  closed : s.Closed → t.Closed ∧ t.accepted = s.accepted
  recorded : s.terminalStatus.isOk = false → t.terminalStatus = s.terminalStatus

namespace Later

theorem refl (s : IpcSession) : s.Later s := ⟨rfl, rfl, fun h => ⟨h, rfl⟩, fun _ => rfl⟩

theorem trans {t u : IpcSession} (hst : s.Later t) (htu : t.Later u) : s.Later u := by
  refine ⟨htu.config.trans hst.config, htu.ack.trans hst.ack, fun h => ?_, fun h => ?_⟩
  · obtain ⟨ht, haccepted⟩ := hst.closed h
    exact ⟨(htu.closed ht).1, (htu.closed ht).2.trans haccepted⟩
  · have ht := hst.recorded h
    rw [← ht] at h
    exact (htu.recorded h).trans ht

theorem same (hconfig : s'.config = s.config) (hack : s'.serverHelloAck = s.serverHelloAck)
    (hstop : s'.stopRequested = s.stopRequested) (hstate : s'.state = s.state)
    (haccepted : s'.accepted = s.accepted) (hstatus : s'.terminalStatus = s.terminalStatus) :
    s.Later s' := by
  refine ⟨hconfig, hack, fun h => ⟨?_, haccepted⟩, fun _ => hstatus⟩
  rw [Closed, hstop, hstate]
  exact h

end Later

theorem fail_later (h : s.LifeInv) (status : Status) : s.Later (s.fail status) := by
  rcases s.fail_cases status with ⟨-, heq⟩ | ⟨hstate, recorded, -, heq⟩
  · rw [heq]
    exact .refl s
  · rw [heq]
    refine ⟨rfl, rfl, fun _ => ⟨Or.inl rfl, rfl⟩, fun hr => ?_⟩
    have hfailed := h.recorded hr
    rcases hstate with hs | hs | hs <;> rw [hs] at hfailed <;> cases hfailed

theorem stopStep_later {k : ℕ} (hstep : s.stopStep k = some s') : s.Later s' := by
  unfold stopStep at hstep
  cases hpc : s.stoppers k
  case notCalled =>
    simp only [hpc] at hstep
    split at hstep <;> cases hstep
    · exact ⟨rfl, rfl, fun _ => ⟨Or.inr rfl, rfl⟩, fun _ => rfl⟩
    · exact .same rfl rfl rfl rfl rfl rfl
    · exact ⟨rfl, rfl, fun _ => ⟨Or.inl rfl, rfl⟩, fun _ => rfl⟩
    · exact ⟨rfl, rfl, fun _ => ⟨Or.inl rfl, rfl⟩, fun _ => rfl⟩
  case finish =>
    simp only [hpc] at hstep
    cases hstep
    refine ⟨rfl, rfl, fun hc => ⟨hc.imp_right fun hs => ?_, rfl⟩, fun _ => rfl⟩
    simp [setStopper, hs]
  all_goals
    simp only [hpc] at hstep
    repeat' split at hstep
    all_goals cases hstep
    all_goals exact .same rfl rfl rfl rfl rfl rfl

theorem writerStep_later (h : s.LifeInv) {choice : SessionChoice}
    (hstep : s.writerStep choice = some s') : s.Later s' := by
  unfold writerStep at hstep
  cases hpc : s.writer
  case failing status =>
    simp only [hpc] at hstep
    cases hstep
    exact (fail_later h status).trans (.same rfl rfl rfl rfl rfl rfl)
  case markReady =>
    simp only [hpc] at hstep
    cases hstep
    rcases s.markReady_cases with ⟨-, heq⟩ | ⟨hstate, heq⟩
    · rw [heq]
      exact .same rfl rfl rfl rfl rfl rfl
    · rw [heq]
      refine ⟨rfl, rfl, fun hc => ⟨Or.inl (hc.resolve_right ?_), rfl⟩, fun _ => rfl⟩
      rw [hstate]
      decide
  all_goals
    simp only [hpc] at hstep
    repeat' split at hstep
    all_goals cases hstep
    all_goals exact .same rfl rfl rfl rfl rfl rfl

section
variable [JsonLib] {parse : List UInt8 → Except (List UInt8) Json}

theorem enqueueMessage_later (m : Message) (requireReady mark : Bool) :
    s.Later (s.enqueueMessage m requireReady mark).2 := by
  rcases s.enqueueMessage_cases m requireReady mark with ⟨-, heq⟩ |
    ⟨bytes, -, hopen, hstate, -, -, heq⟩
  · rw [heq]
    exact .refl s
  · rw [heq]
    refine ⟨rfl, rfl, fun hc => ?_, fun _ => rfl⟩
    rcases hc with hc | hc
    · cases hopen.symm.trans hc
    · rw [hc] at hstate
      cases requireReady <;> cases hstate

theorem readerStep_later (h : s.LifeInv) {choice : SessionChoice}
    (hstep : s.readerStep parse choice = some s') : s.Later s' := by
  unfold readerStep at hstep
  cases hpc : s.reader
  case handshake m started index rest =>
    simp only [hpc] at hstep
    cases hstep
    have hlater : s.Later (s.handleHandshake m).2 := by
      cases m with
      | hello =>
        unfold handleHandshake
        dsimp only
        have henqueue := enqueueMessage_later (s := s) (.helloAck s.serverHelloAck) false true
        repeat' split
        · exact .refl s
        · exact henqueue.trans (.same rfl rfl rfl rfl rfl rfl)
        · exact henqueue
      | _ => exact .refl s
    exact hlater.trans (.same rfl rfl rfl rfl rfl rfl)
  case failing status =>
    simp only [hpc] at hstep
    cases hstep
    exact (fail_later h status).trans (.same rfl rfl rfl rfl rfl rfl)
  case next started index payloads =>
    cases payloads
    all_goals
      simp only [hpc] at hstep
      repeat' split at hstep
      all_goals cases hstep
      all_goals exact .same rfl rfl rfl rfl rfl rfl
  all_goals
    simp only [hpc] at hstep
    repeat' split at hstep
    all_goals cases hstep
    all_goals exact .same rfl rfl rfl rfl rfl rfl

theorem start_later (h : s.LifeInv) {connectionValid : Bool}
    (hstart : s.start connectionValid = .ok s') : s.Later s' := by
  obtain ⟨-, hcreated, rfl⟩ := start_eq_ok.mp hstart
  refine ⟨rfl, rfl, fun hc => ?_, fun hr => ?_⟩
  · rcases hc with hc | hc
    · rw [(h.created hcreated).1] at hc
      cases hc
    · cases hcreated.symm.trans hc
  · have hfailed := h.recorded hr
    cases hcreated.symm.trans hfailed

theorem step_later (h : s.LifeInv) {a : SessionAction} (hstep : s.step parse a = some s') :
    s.Later s' := by
  cases a with
  | start =>
    simp only [step] at hstep
    split at hstep <;> cases hstep
    · exact .refl s
    · next hstart => exact start_later h hstart
  | reader => exact readerStep_later h hstep
  | writer => exact writerStep_later h hstep
  | send m =>
    cases hstep
    unfold send
    split
    · exact .refl s
    · exact enqueueMessage_later m true false
  | stop => exact stopStep_later hstep

theorem run_inv (h : s.Inv parse) {actions : List SessionAction}
    (hrun : exec (step parse) s actions = some s') : s'.Inv parse :=
  exec_preserves (fun _ _ _ ht hstep => step_inv ht hstep) h hrun

theorem run_later (h : s.Inv parse) {actions : List SessionAction}
    (hrun : exec (step parse) s actions = some s') : s.Later s' :=
  exec_related Later.refl (fun _ _ _ hst htu => hst.trans htu)
    (fun _ _ _ ht hstep => step_inv ht hstep) (fun _ _ _ ht hstep => step_later ht.life hstep) h hrun

end

end IpcSession

/-- What holds of a server session in every interleaving, for every peer: the handler
gets the messages that follow the answered Hellos, one by one and only after an
acknowledgement was written; what is written are the frames of the first queued
messages; the queue keeps its account and its limits; a closed session queues
nothing, and the first failure stays. -/
theorem session_safety [JsonLib] (parse : List UInt8 → Except (List UInt8) Json)
    (config : IpcSessionConfig) (ack : HelloAck) (actions : List SessionAction) (s : IpcSession)
    (hrun : exec (IpcSession.step parse) (.create config ack) actions = some s) :
    (∃ rest, s.payloads.map (decodePayload parse) =
      (s.greetings.map Message.hello ++ s.handled).map .ok ++ rest) ∧
    (∀ hello ∈ s.greetings,
      hello.modelId = ack.manifest.modelId ∧ hello.revision = ack.manifest.revision) ∧
    (∀ m ∈ s.handled, isServerInbound m = true) ∧
    (s.handled ≠ [] → s.greetings ≠ [] ∧
      ∃ bytes ∈ s.written, encodeMessage config.frameCodec (.helloAck ack) = .ok bytes) ∧
    (∃ rest, s.accepted.map (encodeMessage config.frameCodec) = (s.written ++ rest).map .ok) ∧
    s.queuedEgressBytes = (s.egress.map (fun frame => frame.bytes.length)).sum ∧
    s.queuedEgressBytes ≤ config.maxEgressBytes ∧ s.egress.length ≤ config.maxEgressFrames ∧
    (∀ later t, exec (IpcSession.step parse) s later = some t →
      (s.state = .failed ∨ s.state = .stopping ∨ s.state = .stopped ∨ s.stopRequested = true →
        t.accepted = s.accepted) ∧
      (s.terminalStatus.isOk = false → t.terminalStatus = s.terminalStatus)) := by
  have hinit : (IpcSession.create config ack).Inv parse := IpcSession.create_inv config ack
  have hinv := IpcSession.run_inv hinit hrun
  have hfrom := IpcSession.run_later hinit hrun
  have hconfig : s.config = config := hfrom.config
  have hack : s.serverHelloAck = ack := hfrom.ack
  obtain ⟨rest, hstream, -⟩ := hinv.inbound.stream
  obtain ⟨unsent, hframes, -⟩ := hinv.outbound.frames
  refine ⟨⟨rest, hstream⟩, fun hello hh => ?_, hinv.handshake.inbound, fun hh => ?_,
    ⟨unsent, hconfig ▸ hframes⟩, hinv.queue.bytes, hconfig ▸ hinv.queue.bytes_le,
    hconfig ▸ hinv.queue.frames_le, fun later t ht => ⟨fun hc => ?_, ?_⟩⟩
  · rw [← hack]
    exact hinv.handshake.matching hello hh
  · obtain ⟨hgreeted, ⟨bytes, hbytes, hwritten⟩, -⟩ := hinv.handshake.handled hh
    rw [IpcSession.IsAck, hconfig, hack] at hwritten
    exact ⟨hgreeted, bytes, hbytes, hwritten⟩
  · refine ((IpcSession.run_later hinv ht).closed ?_).2
    rcases hc with hc | hc | hc | hc
    · exact Or.inl (hinv.life.failed hc)
    · exact Or.inl (hinv.life.stopping hc)
    · exact Or.inr hc
    · exact Or.inl hc
  · exact (IpcSession.run_later hinv ht).recorded

def plainAck : HelloAck where
  workerEpoch := 1
  manifest := {
    modelId := utf8 "m", revision := utf8 "r", tokenizerFingerprint := utf8 "t"
    chatTemplateFingerprint := utf8 "c", engineFingerprint := utf8 "e", precision := utf8 "p"
    maxInputTokens := 1, maxOutputTokens := 1, maxSequenceTokens := 2, maxBatchSize := 1 }
  limits := {
    maxActiveRequests := 1, maxTotalInputTokens := 1, maxReservedOutputTokens := 1
    maxFramePayloadBytes := 1024, maxSessionEgressFrames := 4, maxSessionEgressBytes := 4096
    maxRequestEgressFrames := 1, maxRequestEgressBytes := 1024 }

def plainSession : IpcSession :=
  .create
    { frameCodec := ⟨1024⟩, maxEgressFrames := 4, maxEgressBytes := 4096, readBufferBytes := 512 }
    plainAck

def plainHello : Message := .hello { modelId := utf8 "m", revision := utf8 "r" }

def plainHealth : Message := .health { workerEpoch := 1, probeId := 1 }

def plainFrame (m : Message) : List UInt8 :=
  match @encodeMessage plainJson ⟨1024⟩ m with
  | .ok bytes => bytes
  | .error _ => []

def plainParse (payload : List UInt8) : Except (List UInt8) Json :=
  if payload = @Json.dump plainJson (messageJson plainHello) then .ok (messageJson plainHello)
  else if payload = @Json.dump plainJson (messageJson plainHealth) then .ok (messageJson plainHealth)
  else .error []

/-- The session is started and reads a Hello, which it answers; the acknowledgement
is written. -/
def greetRun : List SessionAction :=
  [.start true, .reader (.bytes (plainFrame plainHello)), .reader .go, .reader .go, .reader .go,
    .reader .go, .writer .go, .writer .go]

def healthRun : List SessionAction :=
  greetRun ++ [.writer .go, .reader (.bytes (plainFrame plainHealth)), .reader .go, .reader .go,
    .reader .go, .reader .go]

theorem healthRun_handles :
    ∃ s, exec (@IpcSession.step plainJson plainParse) plainSession healthRun = some s ∧
      s.handled ≠ [] := by
  have hrun : (exec (@IpcSession.step plainJson plainParse) plainSession healthRun).any
      (fun s => !s.handled.isEmpty) = true := by
    decide +kernel
  simpa using (Option.any_eq_true _ _).mp hrun

theorem session_safety_healthRun :
    ∃ s, exec (@IpcSession.step plainJson plainParse) plainSession healthRun = some s ∧
      s.handled ≠ [] ∧ s.greetings ≠ [] := by
  obtain ⟨s, hs, hhandled⟩ := healthRun_handles
  exact ⟨s, hs, hhandled, ((@session_safety plainJson plainParse _ _ _ s hs).2.2.2.1 hhandled).1⟩

end KimServing.Ipc

import KimServing.Library.Runs
import KimServing.Library.Table
import KimServing.Worker.SessionEgress

/-! # Accounting of the session egress

The counters of the egress are the totals over its queues, a request without a
terminal keeps room for one, and exactly the non-empty queues are scheduled. The
invariant is stated once for the whole state; an operation changes one queue, so
every proof is an instance of replacing or removing the entry of one request.
-/
namespace KimServing.Ipc
open Library List SessionEgress

variable {q : RequestQueue} {c : SessionEgressConfig} {e : SessionEgress} {queued : SizedMessage}

def frameTotal (messages : List SizedMessage) : ℕ := (messages.map SizedMessage.frameBytes).sum

@[simp] theorem frameTotal_nil : frameTotal [] = 0 := rfl
@[simp] theorem frameTotal_cons (s : SizedMessage) (messages : List SizedMessage) :
    frameTotal (s :: messages) = s.frameBytes + frameTotal messages := by simp [frameTotal]
@[simp] theorem frameTotal_append (xs ys : List SizedMessage) :
    frameTotal (xs ++ ys) = frameTotal xs + frameTotal ys := by simp [frameTotal]

def RequestQueue.owed (q : RequestQueue) : ℕ := if q.terminalEnqueued then 0 else 1

/-- A terminal is the last message of its queue, and the flag tells whether there is one. -/
def RequestQueue.TerminalLast (q : RequestQueue) : Prop :=
  ∃ deltas : List SizedMessage, (∀ s ∈ deltas, s.message.isTerminal = false) ∧
    ((q.terminalEnqueued = false ∧ q.messages = deltas) ∨
      (q.terminalEnqueued = true ∧
        ∃ last, last.message.isTerminal = true ∧ q.messages = deltas ++ [last]))

structure QueueInv (c : SessionEgressConfig) (q : RequestQueue) : Prop where
  bytes : q.queuedBytes = frameTotal q.messages
  frames_le : q.messages.length ≤ c.maxRequestFrames
  bytes_le : q.queuedBytes ≤ c.maxRequestBytes
  /-- A request without a terminal has room for one. -/
  room : q.terminalEnqueued = false →
    q.messages.length + 1 ≤ c.maxRequestFrames ∧
      q.queuedBytes + c.terminalReserveBytes ≤ c.maxRequestBytes
  scheduled : q.scheduled = true ↔ q.messages ≠ []
  terminalLast : q.TerminalLast

/-- The counters are sums over the queues, within their limits. -/
structure EgressInv (e : SessionEgress) : Prop where
  config : e.config.validateConfiguration = .ok ()
  controlFrames : e.controlFrames = e.control.length
  controlBytes : e.controlBytes = frameTotal e.control
  controlFrames_le : e.controlFrames ≤ e.config.controlReserveFrames
  controlBytes_le : e.controlBytes ≤ e.config.controlReserveBytes
  requestFrames : e.requestFrames = sumBy (fun q => q.messages.length) e.requests
  requestBytes : e.requestBytes = sumBy (fun q => frameTotal q.messages) e.requests
  reservations : e.terminalReservations = sumBy RequestQueue.owed e.requests
  frames_le : e.requestFrames + e.terminalReservations ≤ e.config.requestFrameCapacity
  bytes_le : e.requestBytes + e.terminalReservations * e.config.terminalReserveBytes ≤
    e.config.requestByteCapacity
  queues : ∀ id q, e.requests.lookup id = some q → QueueInv e.config q
  nodup : e.roundRobin.Nodup
  scheduled : ∀ id, id ∈ e.roundRobin ↔ ∃ q, e.requests.lookup id = some q ∧ q.messages ≠ []
  stopped : e.accepting = false → e.control = [] ∧ e.requests = ∅

theorem validateConfiguration_ok :
    c.validateConfiguration = .ok () ↔
      (0 < c.maxFramePayloadBytes ∧ 0 < c.maxSessionFrames ∧ 0 < c.maxSessionBytes ∧
        0 < c.maxRequestFrames ∧ 0 < c.maxRequestBytes ∧ 0 < c.controlReserveFrames ∧
        0 < c.controlReserveBytes ∧ 0 < c.terminalReserveBytes) ∧
      (c.controlReserveFrames < c.maxSessionFrames ∧ c.controlReserveBytes < c.maxSessionBytes) ∧
      (c.maxRequestFrames ≤ c.requestFrameCapacity ∧ c.maxRequestBytes ≤ c.requestByteCapacity) ∧
      c.terminalReserveBytes ≤ c.maxRequestBytes := by
  unfold SessionEgressConfig.validateConfiguration
  constructor
  · intro h
    simp only [bind, Except.bind, pure, Except.pure] at h
    split_ifs at h with hzero hcontrol hrequest hterminal
    refine ⟨?_, ?_, ?_, ?_⟩ <;> omega
  · rintro ⟨hzero, hcontrol, hrequest, hterminal⟩
    simp only [bind, Except.bind, pure, Except.pure]
    rw [if_neg (by omega), if_neg (by omega), if_neg (by omega), if_neg (by omega)]

theorem SessionEgress.create_eq_ok (h : SessionEgress.create c = .ok e) :
    c.validateConfiguration = .ok () ∧ e = { config := c } := by
  unfold create at h
  cases hv : c.validateConfiguration with
  | error =>
    simp [hv] at h
  | ok =>
    rw [hv] at h
    exact ⟨rfl, (Except.ok.inj h).symm⟩

namespace EgressInv
variable {e : SessionEgress}

variable {q : RequestQueue}

theorem initial {c : SessionEgressConfig} (hc : c.validateConfiguration = .ok ()) :
    EgressInv { config := c } where
  config := hc
  controlFrames := rfl
  controlBytes := rfl
  controlFrames_le := Nat.zero_le _
  controlBytes_le := Nat.zero_le _
  requestFrames := rfl
  requestBytes := rfl
  reservations := rfl
  frames_le := Nat.zero_le _
  bytes_le := by simp
  queues := by simp
  nodup := nodup_nil
  scheduled := by simp
  stopped := by simp

theorem updateHighWatermarks (he : EgressInv e) : EgressInv e.updateHighWatermarks :=
  { he with }

theorem totals (he : EgressInv e) {id : ℕ} (hq : e.requests.lookup id = some q) :
    e.requestFrames = q.messages.length +
        sumBy (fun q => q.messages.length) (e.requests.erase id) ∧
      e.requestBytes = frameTotal q.messages +
        sumBy (fun q => frameTotal q.messages) (e.requests.erase id) ∧
      e.terminalReservations = q.owed + sumBy RequestQueue.owed (e.requests.erase id) :=
  ⟨he.requestFrames.trans (sumBy_erase _ hq), he.requestBytes.trans (sumBy_erase _ hq),
    he.reservations.trans (sumBy_erase _ hq)⟩

theorem replace (he : EgressInv e) {id : ℕ} {q' : RequestQueue} {frames bytes owed : ℕ}
    {roundRobin : List ℕ} (hq : e.requests.lookup id = some q) (hq' : QueueInv e.config q')
    (hframes : frames + q.messages.length = e.requestFrames + q'.messages.length)
    (hbytes : bytes + frameTotal q.messages = e.requestBytes + frameTotal q'.messages)
    (howed : owed + q.owed = e.terminalReservations + q'.owed)
    (hframes_le : frames + owed ≤ e.config.requestFrameCapacity)
    (hbytes_le : bytes + owed * e.config.terminalReserveBytes ≤ e.config.requestByteCapacity)
    (hnodup : roundRobin.Nodup)
    (hscheduled : ∀ j, j ∈ roundRobin ↔ if j = id then q'.messages ≠ [] else j ∈ e.roundRobin) :
    EgressInv { e with
      requests := e.requests.insert id q', requestFrames := frames, requestBytes := bytes
      terminalReservations := owed, roundRobin := roundRobin } := by
  obtain ⟨htf, htb, hto⟩ := he.totals hq
  refine ⟨he.config, he.controlFrames, he.controlBytes, he.controlFrames_le, he.controlBytes_le,
    ?_, ?_, ?_, hframes_le, hbytes_le, ?_, hnodup, ?_, ?_⟩
  · simp only [sumBy_insert]
    omega
  · simp only [sumBy_insert]
    omega
  · simp only [sumBy_insert]
    omega
  · intro j r hr
    rw [lookup_insert_eq] at hr
    split at hr
    · cases hr
      exact hq'
    · exact he.queues j r hr
  · intro j
    simp only [hscheduled, lookup_insert_eq]
    split
    · simp
    · exact he.scheduled j
  · intro h
    rw [(he.stopped h).2] at hq
    simp at hq

theorem remove (he : EgressInv e) {id : ℕ} {frames bytes owed : ℕ} {roundRobin : List ℕ}
    (hq : e.requests.lookup id = some q) (hframes : frames + q.messages.length = e.requestFrames)
    (hbytes : bytes + frameTotal q.messages = e.requestBytes)
    (howed : owed + q.owed = e.terminalReservations) (hnodup : roundRobin.Nodup)
    (hscheduled : ∀ j, j ∈ roundRobin ↔ j ≠ id ∧ j ∈ e.roundRobin) :
    EgressInv { e with
      requests := e.requests.erase id, requestFrames := frames, requestBytes := bytes
      terminalReservations := owed, roundRobin := roundRobin } := by
  obtain ⟨htf, htb, hto⟩ := he.totals hq
  have hframes_le := he.frames_le
  have hbytes_le := he.bytes_le
  have hmul : owed * e.config.terminalReserveBytes ≤
      e.terminalReservations * e.config.terminalReserveBytes := Nat.mul_le_mul_right _ (by omega)
  refine ⟨he.config, he.controlFrames, he.controlBytes, he.controlFrames_le, he.controlBytes_le,
    ?_, ?_, ?_, ?_, ?_, ?_, hnodup, ?_, ?_⟩
  · dsimp only
    omega
  · dsimp only
    omega
  · dsimp only
    omega
  · dsimp only
    omega
  · dsimp only
    omega
  · intro j r hr
    rw [lookup_erase_eq] at hr
    split at hr
    · cases hr
    · exact he.queues j r hr
  · intro j
    simp only [hscheduled, lookup_erase_eq, he.scheduled]
    split
    · next h => simp [h]
    · next h => simp [h]
  · intro h
    rw [(he.stopped h).2] at hq
    simp at hq

/-! ## One operation -/

theorem registerRequest (he : EgressInv e) (requestId : ℕ) :
    EgressInv (e.registerRequest requestId).2 := by
  rcases e.registerRequest_cases requestId with ⟨-, h⟩ | ⟨-, haccepting, hnew, hf, hb, h⟩
  · rw [h]
    exact he
  rw [h]
  obtain ⟨⟨-, -, -, hframes, -⟩, -, -, hreserve⟩ := validateConfiguration_ok.mp he.config
  refine ⟨he.config, he.controlFrames, he.controlBytes, he.controlFrames_le, he.controlBytes_le,
    ?_, ?_, ?_, ?_, hb, ?_, he.nodup, ?_, ?_⟩
  · simp [sumBy_insert_new _ _ hnew, he.requestFrames]
  · simp [sumBy_insert_new _ _ hnew, he.requestBytes]
  · simp [sumBy_insert_new _ _ hnew, he.reservations, RequestQueue.owed, Nat.add_comm]
  · dsimp only
    omega
  · intro id q hq
    rw [lookup_insert_eq] at hq
    split at hq
    · cases hq
      refine ⟨rfl, Nat.zero_le _, Nat.zero_le _, fun _ => ⟨hframes, ?_⟩, by simp, [], by simp,
        Or.inl ⟨rfl, rfl⟩⟩
      dsimp only
      omega
    · exact he.queues id q hq
  · intro id
    simp only [lookup_insert_eq, he.scheduled]
    split
    · next h =>
      subst h
      simp [hnew]
    · rfl
  · intro h
    cases haccepting.symm.trans h

theorem abandonRequest (he : EgressInv e) (requestId : ℕ) :
    EgressInv (e.abandonRequest requestId).2 := by
  unfold SessionEgress.abandonRequest SessionEgress.removeScheduledRequest
  cases hq : e.requests.lookup requestId with
  | none => exact he
  | some queue =>
    obtain ⟨htf, htb, hto⟩ := he.totals hq
    have hbytes := (he.queues _ _ hq).bytes
    refine he.remove hq ?_ ?_ ?_ (he.nodup.filter _) ?_
    · dsimp only
      omega
    · dsimp only
      omega
    · cases hterminal : queue.terminalEnqueued with
      | false =>
        simp only [RequestQueue.owed, hterminal, Bool.false_eq_true, ↓reduceIte] at hto ⊢
        omega
      | true =>
        simp only [RequestQueue.owed, hterminal, ↓reduceIte]
        rfl
    · intro j
      simp [and_comm]

theorem push_schedule (he : EgressInv e) {id : ℕ} (hq : e.requests.lookup id = some q) :
    (if q.scheduled then e.roundRobin else e.roundRobin ++ [id]).Nodup ∧
      ∀ j, j ∈ (if q.scheduled then e.roundRobin else e.roundRobin ++ [id]) ↔
        j = id ∨ j ∈ e.roundRobin := by
  have hqueue := he.queues id q hq
  have hmem : id ∈ e.roundRobin ↔ q.scheduled = true := by
    rw [he.scheduled, hqueue.scheduled]
    simp [hq]
  by_cases hs : q.scheduled = true
  · simp only [if_pos hs]
    refine ⟨he.nodup, fun j => ?_⟩
    constructor
    · exact Or.inr
    · rintro (rfl | h)
      · exact hmem.mpr hs
      · exact h
  · simp only [if_neg hs]
    refine ⟨?_, fun j => by simp [or_comm]⟩
    have hnot : id ∉ e.roundRobin := fun h => hs (hmem.mp h)
    exact nodup_append.mpr ⟨he.nodup, by simp, by
      intro a ha b hb
      rw [mem_singleton] at hb
      rintro rfl
      exact hnot (hb ▸ ha)⟩

section Enqueue
variable [JsonLib]

theorem enqueueControl (he : EgressInv e) (m : Message) : EgressInv (e.enqueueControl m).2 := by
  rcases e.enqueueControl_cases m with ⟨r, -, h⟩ | ⟨sized, -, -, haccepting, hf, hb, h⟩
  · rw [h]
    exact he
  rw [h]
  refine EgressInv.updateHighWatermarks ⟨he.config, ?_, ?_, hf, ?_, he.requestFrames,
    he.requestBytes, he.reservations, he.frames_le, he.bytes_le, he.queues, he.nodup,
    he.scheduled, ?_⟩
  · simp [he.controlFrames]
  · simp [he.controlBytes]
  · have hle := he.controlBytes_le
    dsimp only
    omega
  · intro h
    cases haccepting.symm.trans h

theorem enqueueDelta (he : EgressInv e) (requestId : ℕ) (m : Message) :
    EgressInv (e.enqueueDelta requestId m).2 := by
  rcases e.enqueueDelta_cases requestId m with ⟨r, -, h⟩ |
    ⟨delta, sized, queue, rfl, -, hsize, -, hq, hterminal, hrf, hrb, hf, hb, h⟩
  · rw [h]
    exact he
  rw [h]
  have hqueue := he.queues _ _ hq
  obtain ⟨hnodup, hmem⟩ := he.push_schedule hq
  have hdelta : sized.message.isTerminal = false := by rw [sizeMessage_message hsize]; rfl
  refine EgressInv.updateHighWatermarks (he.replace hq ?_ ?_ ?_ ?_ ?_ ?_ hnodup ?_)
  · obtain ⟨deltas, hdeltas, ⟨-, hmessages⟩ | ⟨hflag, -⟩⟩ := hqueue.terminalLast
    · refine ⟨?_, ?_, ?_, fun _ => ⟨?_, ?_⟩, by simp, deltas ++ [sized], ?_, Or.inl ⟨hterminal, ?_⟩⟩
      · simp [hqueue.bytes]
      · simp only [length_append, length_singleton]
        omega
      · dsimp only
        omega
      · simp only [length_append, length_singleton]
        omega
      · dsimp only
        omega
      · intro s hs
        rcases mem_append.mp hs with hs | hs
        · exact hdeltas s hs
        · rw [mem_singleton.mp hs]
          exact hdelta
      · rw [hmessages]
    · cases hterminal.symm.trans hflag
  · simp only [length_append, length_singleton]
    omega
  · simp only [frameTotal_append, frameTotal_cons, frameTotal_nil]
    omega
  · simp [RequestQueue.owed]
  · omega
  · omega
  · intro j
    rw [hmem]
    split
    · next h => simp [h]
    · next h => simp [h]

theorem enqueueTerminal (he : EgressInv e) (requestId : ℕ) (m : Message) :
    EgressInv (e.enqueueTerminal requestId m).2 := by
  rcases e.enqueueTerminal_cases requestId m with ⟨r, -, h⟩ |
    ⟨terminal, sized, queue, rfl, -, hsize, -, hq, hterminal, hreserve, hrf, hrb, h⟩
  · rw [h]
    exact he
  rw [h]
  have hqueue := he.queues _ _ hq
  obtain ⟨hnodup, hmem⟩ := he.push_schedule hq
  obtain ⟨-, hroom⟩ := hqueue.room hterminal
  have hlast : sized.message.isTerminal = true := by rw [sizeMessage_message hsize]; rfl
  -- The reservation of this request pays for the frame.
  have howed : queue.owed = 1 := by simp [RequestQueue.owed, hterminal]
  obtain ⟨-, -, hreservations⟩ := he.totals hq
  obtain ⟨others, hothers⟩ : ∃ others, e.terminalReservations = others + 1 :=
    ⟨e.terminalReservations - 1, by omega⟩
  have hmul : e.terminalReservations * e.config.terminalReserveBytes =
      others * e.config.terminalReserveBytes + e.config.terminalReserveBytes := by
    rw [hothers, Nat.succ_mul]
  have hframes_le := he.frames_le
  have hbytes_le := he.bytes_le
  refine EgressInv.updateHighWatermarks (he.replace hq ?_ ?_ ?_ ?_ ?_ ?_ hnodup ?_)
  · obtain ⟨deltas, hdeltas, ⟨-, hmessages⟩ | ⟨hflag, -⟩⟩ := hqueue.terminalLast
    · refine ⟨?_, ?_, ?_, by simp, by simp, deltas, hdeltas,
        Or.inr ⟨rfl, sized, hlast, by rw [hmessages]⟩⟩
      · simp [hqueue.bytes]
      · simp only [length_append, length_singleton]
        omega
      · dsimp only
        omega
    · cases hterminal.symm.trans hflag
  · simp only [length_append, length_singleton]
    omega
  · simp only [frameTotal_append, frameTotal_cons, frameTotal_nil]
    omega
  · show e.terminalReservations - 1 + queue.owed = e.terminalReservations + 0
    omega
  · dsimp only
    omega
  · simp only [hothers, Nat.add_sub_cancel]
    omega
  · intro j
    rw [hmem]
    split
    · next h => simp [h]
    · next h => simp [h]

end Enqueue

theorem waitPop_cases (he : EgressInv e) (timeout : ℤ) :
    (∃ r, (∀ m, r ≠ .message m) ∧ e.waitPop timeout = (r, e)) ∨
    (∃ queued control, e.control = queued :: control ∧
      e.waitPop timeout = (.message queued.message, { e with
        control := control
        controlFrames := e.controlFrames - 1
        controlBytes := e.controlBytes - queued.frameBytes })) ∨
    (∃ id rest q queued messages, e.control = [] ∧ e.roundRobin = id :: rest ∧
      e.requests.lookup id = some q ∧ q.messages = queued :: messages ∧
      e.waitPop timeout = (.message queued.message, e.popQueue id rest q queued messages)) := by
  unfold waitPop
  by_cases htimeout : timeout < 0
  · rw [if_pos htimeout]
    exact Or.inl ⟨_, by simp, rfl⟩
  rw [if_neg htimeout]
  cases hcontrol : e.control with
  | cons queued control => exact Or.inr (Or.inl ⟨queued, control, rfl, rfl⟩)
  | nil =>
    cases hrr : e.roundRobin with
    | nil =>
      have hsame : { e with control := [], roundRobin := [] } = e := by rw [← hcontrol, ← hrr]
      refine Or.inl ⟨if e.accepting then .timeout else .stopped, ?_, ?_⟩
      · split <;> simp
      · simp only [popScheduled]
        rw [hsame]
    | cons id rest =>
      -- Only queues with a message are scheduled, so the first entry is not stale.
      obtain ⟨q, hq, hne⟩ := (he.scheduled id).mp (by simp [hrr])
      obtain ⟨queued, messages, hmessages⟩ := exists_cons_of_ne_nil hne
      refine Or.inr (Or.inr ⟨id, rest, q, queued, messages, rfl, rfl, hq, hmessages, ?_⟩)
      simp only [popScheduled, hq, hmessages]

end EgressInv

theorem RequestQueue.TerminalLast.head (h : q.TerminalLast) {messages : List SizedMessage}
    (hq : q.messages = queued :: messages) :
    queued.message.isTerminal = true ↔ q.terminalEnqueued = true ∧ messages = [] := by
  obtain ⟨deltas, hdeltas, ⟨hflag, hm⟩ | ⟨hflag, last, hlast, hm⟩⟩ := h
  · have hqueued := hdeltas queued (by rw [← hm, hq]; exact mem_cons_self)
    simp [hflag, hqueued]
  · cases deltas with
    | nil =>
      rw [hq] at hm
      cases hm
      simp [hflag, hlast]
    | cons =>
      rw [hq] at hm
      cases hm
      have hqueued := hdeltas queued mem_cons_self
      simp [hqueued]

theorem RequestQueue.TerminalLast.tail {q' : RequestQueue} (h : q.TerminalLast)
    (hq : q.messages = queued :: q'.messages) (hflag' : q'.terminalEnqueued = q.terminalEnqueued)
    (hqueued : queued.message.isTerminal = false) : q'.TerminalLast := by
  obtain ⟨deltas, hdeltas, hcases⟩ := h
  cases deltas with
  | nil =>
    rcases hcases with ⟨-, hm⟩ | ⟨-, last, hlast, hm⟩
    · cases hq.symm.trans hm
    · rw [hq] at hm
      rw [(List.cons.inj hm).1, hlast] at hqueued
      cases hqueued
  | cons d deltas =>
    refine ⟨deltas, fun s hs => hdeltas s (mem_cons_of_mem d hs), ?_⟩
    rcases hcases with ⟨hflag, hm⟩ | ⟨hflag, last, hlast, hm⟩
    · rw [hq] at hm
      exact Or.inl ⟨hflag'.trans hflag, (List.cons.inj hm).2⟩
    · rw [hq] at hm
      refine Or.inr ⟨hflag'.trans hflag, last, hlast, ?_⟩
      exact (List.cons.inj hm).2

theorem QueueInv.pop {q' : RequestQueue} (h : QueueInv c q)
    (hq : q.messages = queued :: q'.messages) (hflag : q'.terminalEnqueued = q.terminalEnqueued)
    (hbytes : q'.queuedBytes = q.queuedBytes - queued.frameBytes)
    (hscheduled : q'.scheduled = true ↔ q'.messages ≠ [])
    (hqueued : queued.message.isTerminal = false) : QueueInv c q' := by
  have htotal : q.queuedBytes = queued.frameBytes + frameTotal q'.messages := by
    rw [h.bytes, hq, frameTotal_cons]
  have hlength : q.messages.length = q'.messages.length + 1 := by rw [hq, length_cons]
  have hframes := h.frames_le
  have hbound := h.bytes_le
  refine ⟨by omega, by omega, by omega, ?_, hscheduled, h.terminalLast.tail hq hflag hqueued⟩
  intro hopen
  have hroom := h.room (hflag.symm.trans hopen)
  omega

namespace EgressInv
variable {e : SessionEgress}

variable {e' : SessionEgress}

theorem popQueue (he : EgressInv e) {id : ℕ} {rest : List ℕ} {q : RequestQueue}
    {queued : SizedMessage} {messages : List SizedMessage} (hrr : e.roundRobin = id :: rest)
    (hq : e.requests.lookup id = some q) (hm : q.messages = queued :: messages) :
    EgressInv (e.popQueue id rest q queued messages) := by
  have hqueue := he.queues id q hq
  have hhead := hqueue.terminalLast.head hm
  obtain ⟨htf, htb, hto⟩ := he.totals hq
  rw [hm] at htf htb
  simp only [length_cons, frameTotal_cons] at htf htb
  have hframes_le := he.frames_le
  have hbytes_le := he.bytes_le
  have hnodup := he.nodup
  rw [hrr, nodup_cons] at hnodup
  unfold SessionEgress.popQueue
  dsimp only
  by_cases hrest : messages ≠ []
  · -- More messages wait: the request goes to the end of the round.
    rw [if_pos hrest]
    have hdelta : queued.message.isTerminal = false := by
      simpa [hrest] using hhead
    refine he.replace hq (hqueue.pop hm rfl rfl ?_ hdelta) ?_ ?_ rfl ?_ ?_ ?_ ?_
    · have := hqueue.scheduled
      simp only [hm] at this
      simpa [hrest] using this
    · simp only [hm, length_cons]
      omega
    · simp only [hm, frameTotal_cons]
      omega
    · omega
    · omega
    · exact nodup_append.mpr ⟨hnodup.2, by simp, by
        intro a ha b hb
        rw [mem_singleton] at hb
        rintro rfl
        exact hnodup.1 (hb ▸ ha)⟩
    · intro j
      split
      · next h => simp [h, hrest]
      · next h => simp [hrr, h]
  rw [if_neg hrest]
  have hempty : messages = [] := by simpa using hrest
  subst hempty
  by_cases hterminal : queued.message.isTerminal = true
  · -- The terminal was the last message: the request is forgotten.
    rw [if_pos hterminal]
    have hflag := (hhead.mp hterminal).1
    refine he.remove hq ?_ ?_ ?_ hnodup.2 ?_
    · simp only [hm, length_cons, length_nil]
      omega
    · simp only [hm, frameTotal_cons, frameTotal_nil] at htb ⊢
      omega
    · simp [RequestQueue.owed, hflag]
    · intro j
      simp only [hrr, mem_cons]
      constructor
      · intro h
        exact ⟨fun heq => hnodup.1 (heq ▸ h), Or.inr h⟩
      · rintro ⟨hne, h | h⟩
        · exact absurd h hne
        · exact h
  · rw [if_neg hterminal]
    have hdelta : queued.message.isTerminal = false := by simpa using hterminal
    refine he.replace hq (hqueue.pop hm rfl rfl (by simp) hdelta) ?_ ?_ rfl ?_ ?_ hnodup.2 ?_
    · simp only [hm, length_cons, length_nil]
      omega
    · simp only [hm, frameTotal_cons, frameTotal_nil] at htb ⊢
      omega
    · omega
    · omega
    · intro j
      split
      · next h => simp [h, hnodup.1]
      · next h => simp [hrr, h]

theorem waitPop (he : EgressInv e) (timeout : ℤ) : EgressInv (e.waitPop timeout).2 := by
  rcases he.waitPop_cases timeout with ⟨r, -, h⟩ | ⟨queued, control, hc, h⟩ |
    ⟨id, rest, q, queued, messages, -, hrr, hq, hm, h⟩
  · rw [h]
    exact he
  · rw [h]
    have hframes := he.controlFrames
    have hbytes := he.controlBytes
    have hframes_le := he.controlFrames_le
    have hbytes_le := he.controlBytes_le
    simp only [hc, length_cons, frameTotal_cons] at hframes hbytes
    refine ⟨he.config, ?_, ?_, ?_, ?_, he.requestFrames, he.requestBytes, he.reservations,
      he.frames_le, he.bytes_le, he.queues, he.nodup, he.scheduled, ?_⟩
    · dsimp only
      omega
    · dsimp only
      omega
    · dsimp only
      omega
    · dsimp only
      omega
    · intro hs
      rw [(he.stopped hs).1] at hc
      cases hc
  · rw [h]
    exact he.popQueue hrr hq hm

theorem stop (he : EgressInv e) : EgressInv e.stop := by
  unfold SessionEgress.stop
  split
  · exact he
  · exact ⟨he.config, rfl, rfl, Nat.zero_le _, Nat.zero_le _, rfl, rfl, rfl, Nat.zero_le _,
      by simp, by simp, nodup_nil, by simp, fun _ => ⟨rfl, rfl⟩⟩

variable [JsonLib]

theorem step {op : EgressOp} (he : EgressInv e) (h : e.step op = some e') : EgressInv e' := by
  cases op with
  | registerRequest requestId => cases h; exact he.registerRequest requestId
  | abandonRequest requestId => cases h; exact he.abandonRequest requestId
  | enqueueControl m => cases h; exact he.enqueueControl m
  | enqueueDelta requestId m => cases h; exact he.enqueueDelta requestId m
  | enqueueTerminal requestId m => cases h; exact he.enqueueTerminal requestId m
  | waitPop timeout => cases h; exact he.waitPop timeout
  | stop => cases h; exact he.stop

theorem step_config {op : EgressOp} (he : EgressInv e) (h : e.step op = some e') :
    e'.config = e.config := by
  cases op with
  | registerRequest requestId =>
    cases h
    rcases e.registerRequest_cases requestId with ⟨-, h⟩ | ⟨-, -, -, -, -, h⟩ <;> rw [h]
  | abandonRequest requestId =>
    cases h
    unfold SessionEgress.abandonRequest
    cases e.requests.lookup requestId <;> rfl
  | enqueueControl m =>
    cases h
    rcases e.enqueueControl_cases m with ⟨r, -, h⟩ | ⟨sized, -, -, -, -, -, h⟩ <;> rw [h]
    rfl
  | enqueueDelta requestId m =>
    cases h
    rcases e.enqueueDelta_cases requestId m with ⟨r, -, h⟩ |
      ⟨delta, sized, queue, -, -, -, -, -, -, -, -, -, -, h⟩ <;> rw [h]
    rfl
  | enqueueTerminal requestId m =>
    cases h
    rcases e.enqueueTerminal_cases requestId m with ⟨r, -, h⟩ |
      ⟨terminal, sized, queue, -, -, -, -, -, -, -, -, -, h⟩ <;> rw [h]
    rfl
  | waitPop timeout =>
    cases h
    rcases he.waitPop_cases timeout with ⟨r, -, h⟩ | ⟨queued, control, -, h⟩ |
      ⟨id, rest, q, queued, messages, -, -, -, -, h⟩ <;> rw [h]
    unfold SessionEgress.popQueue
    dsimp only
    split_ifs <;> rfl
  | stop =>
    cases h
    unfold SessionEgress.stop
    split <;> rfl

theorem run {c : SessionEgressConfig} {ops : List EgressOp} {e : SessionEgress}
    (hc : SessionEgress.create c = .ok e) (h : exec SessionEgress.step e ops = some e') :
    EgressInv e' ∧ e'.config = c := by
  obtain ⟨hvalid, rfl⟩ := create_eq_ok hc
  exact exec_preserves (I := fun s => EgressInv s ∧ s.config = c)
    (fun _ _ _ hs ht => ⟨hs.1.step ht, (hs.1.step_config ht).trans hs.2⟩)
    ⟨EgressInv.initial hvalid, rfl⟩ h

end EgressInv

/-! ## Over whole runs -/

theorem RequestQueue.TerminalLast.owed_eq (h : q.TerminalLast) :
    q.owed = if q.messages.all (fun s => !s.message.isTerminal) then 1 else 0 := by
  obtain ⟨deltas, hdeltas, ⟨hflag, hm⟩ | ⟨hflag, last, hlast, hm⟩⟩ := h
  · have hall : q.messages.all (fun s => !s.message.isTerminal) = true := by
      rw [hm, all_eq_true]
      intro s hs
      simp [hdeltas s hs]
    simp [owed, hflag, hall]
  · have hall : q.messages.all (fun s => !s.message.isTerminal) = false := by
      simp [hm, hlast]
    simp [owed, hflag, hall]

theorem RequestQueue.TerminalLast.is_last (h : q.TerminalLast) {before after : List SizedMessage}
    {s : SizedMessage} (hm : q.messages = before ++ s :: after) (hs : s.message.isTerminal = true) :
    after = [] := by
  induction before generalizing q with
  | nil => exact ((h.head hm).mp hs).2
  | cons first before ih =>
    cases hfirst : first.message.isTerminal with
    | false =>
      have htail : RequestQueue.TerminalLast { q with messages := before ++ s :: after } :=
        h.tail hm rfl hfirst
      exact ih htail rfl
    | true =>
      have hnil := ((h.head hm).mp hfirst).2
      simp at hnil

/-- The counters, bounds and schedule of the egress after any sequence of calls. -/
theorem egress_accounting [JsonLib] (c : SessionEgressConfig) (ops : List EgressOp)
    (e e' : SessionEgress) (hc : SessionEgress.create c = .ok e)
    (h : exec SessionEgress.step e ops = some e') :
    (e'.controlFrames = e'.control.length ∧ e'.controlBytes = frameTotal e'.control) ∧
    (e'.requestFrames = sumBy (fun q => q.messages.length) e'.requests ∧
      e'.requestBytes = sumBy (fun q => frameTotal q.messages) e'.requests) ∧
    e'.terminalReservations = e'.requests.entries.countP
      (fun entry => entry.2.messages.all (fun s => !s.message.isTerminal)) ∧
    (e'.controlFrames ≤ c.controlReserveFrames ∧ e'.controlBytes ≤ c.controlReserveBytes) ∧
    e'.requestFrames + e'.terminalReservations ≤ c.maxSessionFrames - c.controlReserveFrames ∧
    e'.requestBytes + e'.terminalReservations * c.terminalReserveBytes ≤
      c.maxSessionBytes - c.controlReserveBytes ∧
    (∀ id q, e'.requests.lookup id = some q →
      q.messages.length ≤ c.maxRequestFrames ∧ frameTotal q.messages ≤ c.maxRequestBytes ∧
      q.queuedBytes = frameTotal q.messages) ∧
    e'.roundRobin.Nodup ∧
    (∀ id, id ∈ e'.roundRobin ↔ ∃ q, e'.requests.lookup id = some q ∧ q.messages ≠ []) ∧
    (∀ id q, e'.requests.lookup id = some q → (q.scheduled = true ↔ q.messages ≠ [])) ∧
    (∀ id q before s after, e'.requests.lookup id = some q → q.messages = before ++ s :: after →
      s.message.isTerminal = true → after = []) := by
  obtain ⟨he, rfl⟩ := EgressInv.run hc h
  refine ⟨⟨he.controlFrames, he.controlBytes⟩, ⟨he.requestFrames, he.requestBytes⟩, ?_,
    ⟨he.controlFrames_le, he.controlBytes_le⟩, he.frames_le, he.bytes_le, ?_, he.nodup,
    he.scheduled, fun id q hq => (he.queues id q hq).scheduled, ?_⟩
  · rw [he.reservations]
    exact sumBy_eq_countP (fun id q hq => (he.queues id q hq).terminalLast.owed_eq)
  · intro id q hq
    have hqueue := he.queues id q hq
    exact ⟨hqueue.frames_le, hqueue.bytes ▸ hqueue.bytes_le, hqueue.bytes⟩
  · intro id q before s after hq hm hs
    exact (he.queues id q hq).terminalLast.is_last hm hs

def tightConfig : SessionEgressConfig :=
  { maxFramePayloadBytes := 1024, maxSessionFrames := 2, maxSessionBytes := 2048
    maxRequestFrames := 1, maxRequestBytes := 1024, controlReserveFrames := 1
    controlReserveBytes := 1024, terminalReserveBytes := 1024 }

def okTerminal : Terminal :=
  { workerEpoch := 1, requestId := 7, status := .success, finishReason := some .eos, usage := {} }

def firstDelta (requestId : ℕ) : Message :=
  .tokenDelta { workerEpoch := 1, requestId := requestId, sequenceNo := 1, tokenIds := [5] }

def queuedOps : List EgressOp :=
  [.registerRequest 7, .enqueueControl (.accepted { workerEpoch := 1, requestId := 7 }),
    .enqueueDelta 7 (firstDelta 7), .enqueueTerminal 7 (.terminal okTerminal)]

theorem egress_accounting_queuedOps :
    ∃ e, exec (@SessionEgress.step plainJson) { config := {} } queuedOps = some e ∧
      (e.controlFrames = 1 ∧ e.requestFrames = 2 ∧ e.terminalReservations = 0) ∧
      e.requestBytes = sumBy (fun q => frameTotal q.messages) e.requests := by
  have hrun : (exec (@SessionEgress.step plainJson) { config := {} } queuedOps).any (fun e =>
      e.controlFrames = 1 ∧ e.requestFrames = 2 ∧ e.terminalReservations = 0) = true := by
    decide +kernel
  obtain ⟨e, he, hcounts⟩ := (Option.any_eq_true _ _).mp hrun
  exact ⟨e, he, of_decide_eq_true hcounts, (@egress_accounting plainJson {} queuedOps _ e rfl he).2.1.2⟩

theorem EgressInv.session_le (he : EgressInv e) :
    e.controlFrames + e.requestFrames ≤ e.config.maxSessionFrames ∧
      e.controlBytes + e.requestBytes ≤ e.config.maxSessionBytes := by
  obtain ⟨-, ⟨hframes, hbytes⟩, -, -⟩ := validateConfiguration_ok.mp he.config
  have hcf := he.controlFrames_le
  have hcb := he.controlBytes_le
  have hrf := he.frames_le
  have hrb := he.bytes_le
  unfold SessionEgressConfig.requestFrameCapacity at hrf
  unfold SessionEgressConfig.requestByteCapacity at hrb
  constructor <;> omega

theorem EgressInv.enqueueTerminal_enqueued [JsonLib] (he : EgressInv e) {requestId : ℕ}
    {t : Terminal} {sized : SizedMessage} (haccepting : e.accepting = true)
    (hq : e.requests.lookup requestId = some q) (hopen : q.terminalEnqueued = false)
    (hid : t.requestId = requestId)
    (hsize : sizeMessage (.terminal t) e.config.maxFramePayloadBytes = .ok sized)
    (hreserve : sized.frameBytes ≤ e.config.terminalReserveBytes) :
    (e.enqueueTerminal requestId (.terminal t)).1 = enqueued := by
  obtain ⟨hframes, hbytes⟩ := (he.queues requestId q hq).room hopen
  simp only [SessionEgress.enqueueTerminal]
  rw [if_neg (by simpa using hid), hsize]
  dsimp only
  rw [if_neg (by simp [haccepting]), hq]
  dsimp only
  rw [if_neg (by simp [hopen]), if_neg (by omega), if_neg (by omega)]

/-- A terminal that fits its reserve is taken, whatever else is queued. -/
theorem enqueueTerminal_reserved [JsonLib] (c : SessionEgressConfig) (ops : List EgressOp)
    (e e' : SessionEgress) (requestId : ℕ) (q : RequestQueue) (t : Terminal) (payload : List UInt8)
    (hwidth : c.maxFramePayloadBytes < 2 ^ 32) (hc : SessionEgress.create c = .ok e)
    (h : exec SessionEgress.step e ops = some e') (haccepting : e'.accepting = true)
    (hq : e'.requests.lookup requestId = some q)
    (hopen : ∀ s ∈ q.messages, s.message.isTerminal = false)
    (hid : t.requestId = requestId) (hpayload : encodePayload (.terminal t) = .ok payload)
    (hmax : payload.length ≤ c.maxFramePayloadBytes)
    (hreserve : payload.length + 4 ≤ c.terminalReserveBytes) :
    (e'.enqueueTerminal requestId (.terminal t)).1 = enqueued ∧
    (e'.enqueueTerminal requestId (.terminal t)).2.controlFrames +
      (e'.enqueueTerminal requestId (.terminal t)).2.requestFrames ≤ c.maxSessionFrames ∧
    (e'.enqueueTerminal requestId (.terminal t)).2.controlBytes +
      (e'.enqueueTerminal requestId (.terminal t)).2.requestBytes ≤ c.maxSessionBytes := by
  obtain ⟨he, rfl⟩ := EgressInv.run hc h
  have hflag : q.terminalEnqueued = false := by
    obtain ⟨deltas, -, ⟨hflag, -⟩ | ⟨-, last, hlast, hm⟩⟩ := (he.queues _ _ hq).terminalLast
    · exact hflag
    · have hfalse := hopen last (by simp [hm])
      rw [hlast] at hfalse
      cases hfalse
  have hsize : sizeMessage (.terminal t) e'.config.maxFramePayloadBytes =
      .ok ⟨.terminal t, payload.length + 4⟩ :=
    sizeMessage_eq_ok.mpr ⟨payload, hpayload, encodePayload_ne_nil hpayload, hmax, by omega, rfl⟩
  refine ⟨he.enqueueTerminal_enqueued haccepting hq hflag hid hsize hreserve, ?_⟩
  have hafter := he.enqueueTerminal requestId (.terminal t)
  have hstep : e'.step (.enqueueTerminal requestId (.terminal t)) = some _ := rfl
  have hconfig := he.step_config hstep
  rw [← hconfig]
  exact hafter.session_le

theorem enqueueTerminal_reserved_tight :
    ∃ e e', SessionEgress.create tightConfig = .ok e ∧
      exec (@SessionEgress.step plainJson) e [.registerRequest 7] = some e' ∧
      (@SessionEgress.enqueueTerminal plainJson e' 7 (.terminal okTerminal)).1 = enqueued :=
  ⟨_, _, rfl, rfl, (@enqueueTerminal_reserved plainJson tightConfig [.registerRequest 7] _ _ 7 {}
    okTerminal (@Json.dump plainJson (messageJson (.terminal okTerminal))) (by decide) rfl rfl rfl
    rfl (by simp) rfl rfl (by decide +kernel) (by decide +kernel)).1⟩

end KimServing.Ipc

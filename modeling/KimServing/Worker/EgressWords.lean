import KimServing.Worker.EgressInvariant

/-! # The egress in 64 bit words

The checks of the egress add and multiply limits that come from the configuration, in words
of 64 bits. As long as no such sum reaches the size of a word, the operations are those over
the naturals. The constructor does not ensure it: with two reserves of half a word the
product wraps to zero, and a reservation is given that has no room.
-/
namespace KimServing.Ipc
open Library

def add64 (a b : ℕ) : ℕ := (a + b) % 2 ^ 64
def mul64 (a b : ℕ) : ℕ := a * b % 2 ^ 64
def sub64 (a b : ℕ) : ℕ := (a + 2 ^ 64 - b) % 2 ^ 64

theorem add64_eq {a b : ℕ} (h : a + b < 2 ^ 64) : add64 a b = a + b := Nat.mod_eq_of_lt h

theorem mul64_eq {a b : ℕ} (h : a * b < 2 ^ 64) : mul64 a b = a * b := Nat.mod_eq_of_lt h

theorem sub64_eq {a b : ℕ} (hle : b ≤ a) (h : a < 2 ^ 64) : sub64 a b = a - b := by
  have hsum : a + 2 ^ 64 - b = a - b + 2 ^ 64 := by omega
  rw [sub64, hsum, Nat.add_mod_right]
  exact Nat.mod_eq_of_lt (by omega)

namespace SessionEgressConfig

structure Typed (c : SessionEgressConfig) : Prop where
  maxFramePayloadBytes : c.maxFramePayloadBytes < 2 ^ 32
  maxSessionFrames : c.maxSessionFrames < 2 ^ 32
  maxSessionBytes : c.maxSessionBytes < 2 ^ 64
  maxRequestFrames : c.maxRequestFrames < 2 ^ 32
  maxRequestBytes : c.maxRequestBytes < 2 ^ 64
  controlReserveFrames : c.controlReserveFrames < 2 ^ 32
  controlReserveBytes : c.controlReserveBytes < 2 ^ 64
  terminalReserveBytes : c.terminalReserveBytes < 2 ^ 64

structure FitsWords (c : SessionEgressConfig) : Prop where
  reserve : c.requestByteCapacity + c.terminalReserveBytes < 2 ^ 64
  frame : c.requestByteCapacity + (c.maxFramePayloadBytes + 4) < 2 ^ 64

end SessionEgressConfig

namespace SessionEgress

def registerRequest64 (e : SessionEgress) (requestId : ℕ) : Status × SessionEgress :=
  if requestId = 0 then (invalid "SessionEgress request id must be positive", e)
  else if e.accepting = false then (unavailable "SessionEgress is stopped", e)
  else if (e.requests.lookup requestId).isSome then
    (.error .alreadyExists "SessionEgress request id is already registered", e)
  else if e.config.requestFrameCapacity < add64 (add64 e.requestFrames e.terminalReservations) 1 ∨
      e.config.requestByteCapacity <
        add64 e.requestBytes (mul64 (add64 e.terminalReservations 1) e.config.terminalReserveBytes) then
    (queueFull "SessionEgress cannot reserve capacity for another Terminal", e)
  else
    (.success, { e with
      requests := e.requests.insert requestId {}
      terminalReservations := add64 e.terminalReservations 1 })

def push64 (e : SessionEgress) (requestId : ℕ) (queue : RequestQueue) (sized : SizedMessage) :
    SessionEgress :=
  updateHighWatermarks { e with
    requests := e.requests.insert requestId { queue with
      messages := queue.messages ++ [sized]
      queuedBytes := add64 queue.queuedBytes sized.frameBytes
      scheduled := true }
    requestFrames := add64 e.requestFrames 1
    requestBytes := add64 e.requestBytes sized.frameBytes
    roundRobin := if queue.scheduled then e.roundRobin else e.roundRobin ++ [requestId] }

variable [JsonLib]

def enqueueDelta64 (e : SessionEgress) (requestId : ℕ) (m : Message) :
    SessionEgressEnqueueResult × SessionEgress :=
  match m with
  | .tokenDelta delta =>
    if delta.requestId ≠ requestId then
      (enqueueFailure .invalidMessage (invalid "SessionEgress Delta request id mismatch"), e)
    else
      match sizeMessage m e.config.maxFramePayloadBytes with
      | .error status => (enqueueFailure .invalidMessage status, e)
      | .ok sized =>
        if e.accepting = false then
          (enqueueFailure .stopped (unavailable "SessionEgress is stopped"), e)
        else
          match e.requests.lookup requestId with
          | none =>
            (enqueueFailure .unknownRequest
              (invalid "SessionEgress Delta request is not registered"), e)
          | some queue =>
            if queue.terminalEnqueued then
              (enqueueFailure .invalidMessage
                (invalid "SessionEgress cannot enqueue Delta after Terminal"), e)
            else if e.config.maxRequestFrames < add64 queue.messages.length 2 ∨
                e.config.maxRequestBytes < add64 (add64 sized.frameBytes queue.queuedBytes)
                  e.config.terminalReserveBytes then
              (enqueueFailure .requestFull (queueFull "per-request SessionEgress queue is full"), e)
            else if e.config.requestFrameCapacity <
                  add64 (add64 e.requestFrames 1) e.terminalReservations ∨
                e.config.requestByteCapacity < add64 (add64 sized.frameBytes e.requestBytes)
                  (mul64 e.terminalReservations e.config.terminalReserveBytes) then
              (enqueueFailure .sessionFull (queueFull "SessionEgress request partition is full"), e)
            else (enqueued, e.push64 requestId queue sized)
  | _ => (enqueueFailure .invalidMessage (invalid "SessionEgress Delta request id mismatch"), e)

def enqueueTerminal64 (e : SessionEgress) (requestId : ℕ) (m : Message) :
    SessionEgressEnqueueResult × SessionEgress :=
  match m with
  | .terminal terminal =>
    if terminal.requestId ≠ requestId then
      (enqueueFailure .invalidMessage (invalid "SessionEgress Terminal request id mismatch"), e)
    else
      match sizeMessage m e.config.maxFramePayloadBytes with
      | .error status => (enqueueFailure .invalidMessage status, e)
      | .ok sized =>
        if e.accepting = false then
          (enqueueFailure .stopped (unavailable "SessionEgress is stopped"), e)
        else
          match e.requests.lookup requestId with
          | none =>
            (enqueueFailure .unknownRequest
              (invalid "SessionEgress Terminal request is not registered"), e)
          | some queue =>
            if queue.terminalEnqueued then
              (enqueueFailure .invalidMessage
                (invalid "SessionEgress request already has a Terminal"), e)
            else if e.config.terminalReserveBytes < sized.frameBytes then
              (enqueueFailure .invalidMessage
                (invalid "Terminal exceeds its SessionEgress byte reserve"), e)
            else if e.config.maxRequestFrames < add64 queue.messages.length 1 ∨
                sub64 e.config.maxRequestBytes queue.queuedBytes < sized.frameBytes then
              (enqueueFailure .requestFull
                (queueFull "per-request SessionEgress Terminal reserve is full"), e)
            else
              (enqueued, push64 { e with terminalReservations := sub64 e.terminalReservations 1 }
                requestId { queue with terminalEnqueued := true } sized)
  | _ => (enqueueFailure .invalidMessage (invalid "SessionEgress Terminal request id mismatch"), e)

def step64 (e : SessionEgress) : EgressOp → Option SessionEgress
  | .registerRequest requestId => some (e.registerRequest64 requestId).2
  | .enqueueDelta requestId m => some (e.enqueueDelta64 requestId m).2
  | .enqueueTerminal requestId m => some (e.enqueueTerminal64 requestId m).2
  | op => e.step op

end SessionEgress

namespace EgressInv
variable {e : SessionEgress} (he : EgressInv e) (htyped : e.config.Typed)
  (hfits : e.config.FitsWords)
include he htyped hfits

theorem registerRequest64_eq (requestId : ℕ) :
    e.registerRequest64 requestId = e.registerRequest requestId := by
  have hframes := he.frames_le
  have hbytes := he.bytes_le
  have hreserve := hfits.reserve
  have hsession := htyped.maxSessionFrames
  have hproduct : (e.terminalReservations + 1) * e.config.terminalReserveBytes =
      e.terminalReservations * e.config.terminalReserveBytes + e.config.terminalReserveBytes :=
    Nat.succ_mul _ _
  have hcapacity : e.config.requestFrameCapacity ≤ e.config.maxSessionFrames := Nat.sub_le _ _
  have hone : add64 e.terminalReservations 1 = e.terminalReservations + 1 := add64_eq (by omega)
  have hsum : add64 e.requestFrames e.terminalReservations =
      e.requestFrames + e.terminalReservations := add64_eq (by omega)
  have hmul : mul64 (e.terminalReservations + 1) e.config.terminalReserveBytes =
      (e.terminalReservations + 1) * e.config.terminalReserveBytes := mul64_eq (by omega)
  rw [SessionEgress.registerRequest64, SessionEgress.registerRequest, hone, hsum, hmul,
    add64_eq (a := e.requestFrames + e.terminalReservations) (by omega),
    add64_eq (a := e.requestBytes) (by omega)]

omit hfits in
theorem push64_eq {id : ℕ} {q : RequestQueue} {sized : SizedMessage} {reservations : ℕ}
    (hqueue : q.queuedBytes + sized.frameBytes < 2 ^ 64)
    (hsession : e.requestBytes + sized.frameBytes < 2 ^ 64) :
    SessionEgress.push64 { e with terminalReservations := reservations } id q sized =
      SessionEgress.push { e with terminalReservations := reservations } id q sized := by
  have hframes := he.frames_le
  have htype := htyped.maxSessionFrames
  have hcapacity : e.config.requestFrameCapacity ≤ e.config.maxSessionFrames := Nat.sub_le _ _
  unfold SessionEgress.push64 SessionEgress.push
  rw [add64_eq hqueue, add64_eq hsession, add64_eq (a := e.requestFrames) (by omega)]

variable [JsonLib]

theorem enqueueDelta64_eq (requestId : ℕ) (m : Message) :
    e.enqueueDelta64 requestId m = e.enqueueDelta requestId m := by
  cases m with
  | tokenDelta delta =>
    simp only [SessionEgress.enqueueDelta64, SessionEgress.enqueueDelta]
    by_cases hid : delta.requestId ≠ requestId
    · rw [if_pos hid, if_pos hid]
    rw [if_neg hid, if_neg hid]
    cases hs : sizeMessage (.tokenDelta delta) e.config.maxFramePayloadBytes with
    | error => rfl
    | ok =>
      dsimp only
      by_cases haccepting : e.accepting = false
      · rw [if_pos haccepting, if_pos haccepting]
      rw [if_neg haccepting, if_neg haccepting]
      cases hq : e.requests.lookup requestId with
      | none => rfl
      | some queue =>
        dsimp only
        cases hopen : queue.terminalEnqueued with
        | true => rfl
        | false =>
          obtain ⟨payload, -, -, hpayload, -, rfl⟩ := sizeMessage_eq_ok.mp hs
          obtain ⟨-, -, ⟨-, hwithin⟩, -⟩ := validateConfiguration_ok.mp he.config
          obtain ⟨hroomFrames, hroomBytes⟩ := (he.queues requestId queue hq).room hopen
          have hframes := he.frames_le
          have hbytes := he.bytes_le
          have hframe := hfits.frame
          have htype := htyped.maxSessionFrames
          have htype' := htyped.maxRequestFrames
          have hcapacity : e.config.requestFrameCapacity ≤ e.config.maxSessionFrames := Nat.sub_le _ _
          dsimp only
          rw [add64_eq (a := queue.messages.length) (by omega),
            add64_eq (a := payload.length + 4) (b := queue.queuedBytes) (by omega),
            add64_eq (b := e.config.terminalReserveBytes) (by omega),
            add64_eq (a := e.requestFrames) (by omega),
            add64_eq (b := e.terminalReservations) (by omega),
            add64_eq (a := payload.length + 4) (b := e.requestBytes) (by omega),
            mul64_eq (by omega), add64_eq (a := payload.length + 4 + e.requestBytes) (by omega),
            he.push64_eq htyped (by dsimp only; omega) (by dsimp only; omega)]
  | _ => rfl

theorem enqueueTerminal64_eq (requestId : ℕ) (m : Message) :
    e.enqueueTerminal64 requestId m = e.enqueueTerminal requestId m := by
  cases m with
  | terminal terminal =>
    simp only [SessionEgress.enqueueTerminal64, SessionEgress.enqueueTerminal]
    by_cases hid : terminal.requestId ≠ requestId
    · rw [if_pos hid, if_pos hid]
    rw [if_neg hid, if_neg hid]
    cases hs : sizeMessage (.terminal terminal) e.config.maxFramePayloadBytes with
    | error => rfl
    | ok =>
      dsimp only
      by_cases haccepting : e.accepting = false
      · rw [if_pos haccepting, if_pos haccepting]
      rw [if_neg haccepting, if_neg haccepting]
      cases hq : e.requests.lookup requestId with
      | none => rfl
      | some queue =>
        dsimp only
        cases hopen : queue.terminalEnqueued with
        | true => rfl
        | false =>
          obtain ⟨payload, -, -, hpayload, -, rfl⟩ := sizeMessage_eq_ok.mp hs
          obtain ⟨-, -, ⟨-, hwithin⟩, -⟩ := validateConfiguration_ok.mp he.config
          obtain ⟨hroomFrames, hroomBytes⟩ := (he.queues requestId queue hq).room hopen
          have hframes := he.frames_le
          have hbytes := he.bytes_le
          have hframe := hfits.frame
          have htype := htyped.maxSessionFrames
          have htype' := htyped.maxRequestFrames
          have htype'' := htyped.maxRequestBytes
          have hcapacity : e.config.requestFrameCapacity ≤ e.config.maxSessionFrames := Nat.sub_le _ _
          have howed : 1 ≤ e.terminalReservations := by
            have htotal := (he.totals hq).2.2
            rw [RequestQueue.owed, hopen] at htotal
            simp only [Bool.false_eq_true, if_false] at htotal
            omega
          dsimp only
          rw [add64_eq (a := queue.messages.length) (by omega), sub64_eq (by omega) htype'',
            sub64_eq howed (by omega),
            he.push64_eq htyped (by dsimp only; omega) (by dsimp only; omega)]
  | _ => rfl

theorem step64_eq (op : EgressOp) : e.step64 op = e.step op := by
  cases op with
  | registerRequest requestId =>
    exact congrArg (fun r : Status × SessionEgress => some r.2)
      (he.registerRequest64_eq htyped hfits requestId)
  | enqueueDelta requestId m =>
    exact congrArg (fun r : SessionEgressEnqueueResult × SessionEgress => some r.2)
      (he.enqueueDelta64_eq htyped hfits requestId m)
  | enqueueTerminal requestId m =>
    exact congrArg (fun r : SessionEgressEnqueueResult × SessionEgress => some r.2)
      (he.enqueueTerminal64_eq htyped hfits requestId m)
  | _ => rfl

end EgressInv

/-- The accounting of the egress in words, for configurations whose sums fit. -/
theorem egress_words [JsonLib] {c : SessionEgressConfig} {ops : List EgressOp}
    {e e' : SessionEgress} (htyped : c.Typed) (hfits : c.FitsWords)
    (hc : SessionEgress.create c = .ok e) (h : exec SessionEgress.step64 e ops = some e') :
    e'.requestBytes + e'.terminalReservations * c.terminalReserveBytes ≤
        c.maxSessionBytes - c.controlReserveBytes ∧
      e'.requestBytes = sumBy (fun q => frameTotal q.messages) e'.requests ∧
      ∀ id q, e'.requests.lookup id = some q →
        q.queuedBytes = frameTotal q.messages ∧ q.queuedBytes ≤ c.maxRequestBytes ∧
        (q.terminalEnqueued = false →
          q.queuedBytes + c.terminalReserveBytes ≤ c.maxRequestBytes) := by
  have hinitial : EgressInv e ∧ e.config = c := EgressInv.run hc (exec_nil e)
  have hsame := exec_congr (I := fun s => EgressInv s ∧ s.config = c)
    (fun s op hs => hs.1.step64_eq (hs.2 ▸ htyped) (hs.2 ▸ hfits) op)
    (fun _ _ _ hs ht => ⟨hs.1.step ht, (hs.1.step_config ht).trans hs.2⟩) ops hinitial
  obtain ⟨he, rfl⟩ := EgressInv.run hc (hsame.symm.trans h)
  refine ⟨he.bytes_le, he.requestBytes, fun id q hq => ?_⟩
  have hqueue := he.queues id q hq
  exact ⟨hqueue.bytes, hqueue.bytes_le, fun hopen => (hqueue.room hopen).2⟩

theorem egress_words_queuedOps :
    ∃ e, exec (@SessionEgress.step64 plainJson) { config := {} } queuedOps = some e ∧
      e.controlFrames = 1 ∧ e.requestFrames = 2 ∧
      e.requestBytes = sumBy (fun q => frameTotal q.messages) e.requests := by
  have hrun : (exec (@SessionEgress.step64 plainJson) { config := {} } queuedOps).any (fun e =>
      e.controlFrames = 1 ∧ e.requestFrames = 2) = true := by
    decide +kernel
  obtain ⟨e, he, hcounts⟩ := (Option.any_eq_true _ _).mp hrun
  obtain ⟨hcontrol, hrequest⟩ := of_decide_eq_true hcounts
  exact ⟨e, he, hcontrol, hrequest, (@egress_words plainJson {} queuedOps _ e
    (by constructor <;> decide) (by constructor <;> decide) rfl he).2.1⟩

def halfWordConfig : SessionEgressConfig :=
  { maxFramePayloadBytes := 1024, maxSessionFrames := 8, maxSessionBytes := 2 ^ 64 - 1
    maxRequestFrames := 4, maxRequestBytes := 2 ^ 64 - 2, controlReserveFrames := 1
    controlReserveBytes := 1, terminalReserveBytes := 2 ^ 63 }

/-- The second Terminal of half a word is reserved as well: the product of the check is zero. -/
theorem reserves_wrap :
    halfWordConfig.Typed ∧ ∃ e e', SessionEgress.create halfWordConfig = .ok e ∧
      exec (@SessionEgress.step64 plainJson) e [.registerRequest 1, .registerRequest 2] = some e' ∧
      ¬ e'.requestBytes + e'.terminalReservations * halfWordConfig.terminalReserveBytes ≤
        halfWordConfig.maxSessionBytes - halfWordConfig.controlReserveBytes := by
  refine ⟨by constructor <;> decide, _, _, rfl, rfl, by decide⟩

end KimServing.Ipc

import KimServing.Ipc.SessionSafety
import KimServing.Runtime.AdmissionController
import KimServing.Worker.BridgeMessages
import KimServing.Worker.EgressFairness

/-! # The configuration of the worker server

The server checks its limits once, before it listens: each part of the egress fits
into the next larger one. The checks relate one request to the session, but not all
requests together, so a session partition may be full while a request has nothing
queued, and it may be too small for the Terminals of all requests. They compare payloads
with the session, but not frames, so a session may refuse what the server has accepted.
-/
namespace KimServing
open Library Ipc

structure WorkerServerConfig where
  socketPath : List UInt8
  listenBacklog : ℤ := 8
  supervisorPollInterval : ℤ := 50
  manifest : ModelManifest
  session : IpcSessionConfig := {}
  bridge : RuntimeBridgeConfig := {}

namespace WorkerServerConfig

def helloAck (c : WorkerServerConfig) : HelloAck where
  workerEpoch := c.bridge.workerEpoch
  manifest := c.manifest
  limits := c.bridge.limits

def validateConfiguration [JsonLib] (c : WorkerServerConfig) (running : Bool)
    (admission : AdmissionSnapshot) : Except Status Unit := do
  refuseIf (c.socketPath = []) "WorkerServer socket path must not be empty"
  refuseIf (c.listenBacklog ≤ 0 ∨ c.supervisorPollInterval ≤ 0)
    "WorkerServer backlog and poll interval must be positive"
  if running = false then
    .error (.error .notReady "WorkerServer requires a running GenerationRuntime")
  let _ ← encodePayload (.helloAck c.helloAck)
  let limits := c.bridge.limits
  refuseIf (8 < limits.maxActiveRequests) "WorkerServer v0.1 supports at most 8 active requests"
  refuseIf (c.session.frameCodec.maxPayloadBytes ≠ limits.maxFramePayloadBytes ∨
      c.session.maxEgressFrames ≠ limits.maxSessionEgressFrames ∨
      c.session.maxEgressBytes ≠ limits.maxSessionEgressBytes ∨ c.session.readBufferBytes = 0)
    "WorkerServer Session limits do not match advertised limits"
  refuseIf (c.bridge.controlReserveFrames = 0 ∨ c.bridge.controlReserveBytes = 0 ∨
      c.bridge.terminalReserveBytes = 0 ∨
      limits.maxSessionEgressFrames ≤ c.bridge.controlReserveFrames ∨
      limits.maxSessionEgressBytes ≤ c.bridge.controlReserveBytes ∨
      limits.maxSessionEgressFrames - c.bridge.controlReserveFrames <
        limits.maxRequestEgressFrames ∨
      limits.maxSessionEgressBytes - c.bridge.controlReserveBytes < limits.maxRequestEgressBytes ∨
      limits.maxRequestEgressBytes < c.bridge.terminalReserveBytes)
    "WorkerServer Bridge reserve hierarchy is invalid"
  refuseIf (c.bridge.maxStatusMessageBytes = 0 ∨ c.bridge.mailboxWaitTimeout ≤ 0 ∨
      c.bridge.sessionSendRetry ≤ 0 ∨ c.bridge.sessionStallTimeout ≤ 0 ∨
      c.bridge.sessionStallTimeout < c.bridge.sessionSendRetry)
    "WorkerServer Bridge timeout configuration is invalid"
  refuseIf (limits.maxActiveRequests ≠ admission.maxActiveRequests.toNat ∨
      limits.maxTotalInputTokens ≠ admission.maxTotalInputTokens.toNat ∨
      limits.maxReservedOutputTokens ≠ admission.maxReservedOutputTokens.toNat)
    "WorkerServer limits do not match Runtime Admission"

structure Accepted [JsonLib] (c : WorkerServerConfig) (running : Bool)
    (admission : AdmissionSnapshot) : Prop where
  running : running = true
  helloAck : ∃ payload, encodePayload (.helloAck c.helloAck) = .ok payload
  session : c.session.frameCodec.maxPayloadBytes = c.bridge.limits.maxFramePayloadBytes ∧
    c.session.maxEgressFrames = c.bridge.limits.maxSessionEgressFrames ∧
    c.session.maxEgressBytes = c.bridge.limits.maxSessionEgressBytes ∧
    0 < c.session.readBufferBytes
  reserves : 0 < c.bridge.controlReserveFrames ∧ 0 < c.bridge.controlReserveBytes ∧
    0 < c.bridge.terminalReserveBytes ∧
    c.bridge.controlReserveFrames < c.bridge.limits.maxSessionEgressFrames ∧
    c.bridge.controlReserveBytes < c.bridge.limits.maxSessionEgressBytes ∧
    c.bridge.limits.maxRequestEgressFrames ≤
      c.bridge.limits.maxSessionEgressFrames - c.bridge.controlReserveFrames ∧
    c.bridge.limits.maxRequestEgressBytes ≤
      c.bridge.limits.maxSessionEgressBytes - c.bridge.controlReserveBytes ∧
    c.bridge.terminalReserveBytes ≤ c.bridge.limits.maxRequestEgressBytes
  timeouts : ¬ (c.bridge.maxStatusMessageBytes = 0 ∨ c.bridge.mailboxWaitTimeout ≤ 0 ∨
    c.bridge.sessionSendRetry ≤ 0 ∨ c.bridge.sessionStallTimeout ≤ 0 ∨
    c.bridge.sessionStallTimeout < c.bridge.sessionSendRetry)
  admission : ¬ (c.bridge.limits.maxActiveRequests ≠ admission.maxActiveRequests.toNat ∨
    c.bridge.limits.maxTotalInputTokens ≠ admission.maxTotalInputTokens.toNat ∨
    c.bridge.limits.maxReservedOutputTokens ≠ admission.maxReservedOutputTokens.toNat)

section Accepted
variable [JsonLib] {c : WorkerServerConfig} {running : Bool} {admission : AdmissionSnapshot}

theorem validateConfiguration_accepted (h : c.validateConfiguration running admission = .ok ()) :
    c.Accepted running admission := by
  unfold validateConfiguration at h
  rw [andThen_eq_ok, andThen_eq_ok] at h
  obtain ⟨-, -, h⟩ := h
  cases running with
  | false => simp [bind, Except.bind] at h
  | true =>
    cases hpayload : encodePayload (.helloAck c.helloAck) with
    | error => simp [hpayload, bind, Except.bind] at h
    | ok payload =>
      simp only [hpayload, Bool.true_eq_false, if_false] at h
      obtain ⟨hsession, h⟩ := andThen_eq_ok.mp (andThen_eq_ok.mp h).2
      obtain ⟨hreserves, h⟩ := andThen_eq_ok.mp h
      obtain ⟨htimeouts, hadmission⟩ := andThen_eq_ok.mp h
      have hsession := refuseIf_eq_ok.mp hsession
      have hreserves := refuseIf_eq_ok.mp hreserves
      exact ⟨rfl, ⟨payload, hpayload⟩, by omega, by omega, refuseIf_eq_ok.mp htimeouts,
        refuseIf_eq_ok.mp hadmission⟩

theorem Accepted.limits (h : c.Accepted running admission) :
    0 < c.bridge.workerEpoch ∧ c.bridge.limits.validate = .ok () := by
  obtain ⟨payload, hpayload⟩ := h.helloAck
  obtain ⟨-, hepoch, -, hlimits⟩ :=
    HelloAck.validate_eq_ok.mp (encodePayload_eq_ok.mp hpayload).1
  exact ⟨hepoch, hlimits⟩

theorem validateConfiguration_egress (h : c.validateConfiguration running admission = .ok ()) :
    c.bridge.makeEgressConfig.validateConfiguration = .ok () := by
  have haccepted := validateConfiguration_accepted h
  have hlimits := WorkerLimits.validate_eq_ok.mp haccepted.limits.2
  have hreserves := haccepted.reserves
  rw [validateConfiguration_ok]
  simp only [RuntimeBridgeConfig.makeEgressConfig,
    SessionEgressConfig.requestFrameCapacity, SessionEgressConfig.requestByteCapacity]
  omega

theorem create_egress (h : c.validateConfiguration running admission = .ok ()) :
    SessionEgress.create c.bridge.makeEgressConfig =
      .ok { config := c.bridge.makeEgressConfig } := by
  unfold SessionEgress.create
  rw [validateConfiguration_egress h]
  rfl

end Accepted

end WorkerServerConfig

/-! ## The sessions that the server creates -/

inductive Ipc.IpcSessionRole where
  | client | server
  deriving DecidableEq

def RuntimeBridgeConfig.validateConfiguration (c : RuntimeBridgeConfig) (role : IpcSessionRole)
    (running : Bool) (admission : AdmissionSnapshot) : Except Status Unit := do
  refuseIf (c.workerEpoch = 0) "RuntimeBridge worker epoch must be positive"
  refuseIf (c.maxStatusMessageBytes = 0 ∨ c.mailboxWaitTimeout ≤ 0 ∨
      c.sessionSendRetry ≤ 0 ∨ c.sessionStallTimeout ≤ 0 ∨
      c.sessionStallTimeout < c.sessionSendRetry)
    "RuntimeBridge timeout and message limits are invalid"
  refuseIf (role ≠ .server) "RuntimeBridge requires a server IPC session"
  if running = false then
    .error (.error .notReady "RuntimeBridge requires a running GenerationRuntime")
  refuseIf (c.limits.maxActiveRequests ≠ admission.maxActiveRequests.toNat ∨
      c.limits.maxTotalInputTokens ≠ admission.maxTotalInputTokens.toNat ∨
      c.limits.maxReservedOutputTokens ≠ admission.maxReservedOutputTokens.toNat)
    "RuntimeBridge limits do not match Runtime Admission"

namespace WorkerServerConfig

def makeSession (c : WorkerServerConfig) : IpcSession :=
  .create c.session c.helloAck

section Accepted
variable [JsonLib] {c : WorkerServerConfig} {running : Bool} {admission : AdmissionSnapshot}

theorem Accepted.bridge (h : c.Accepted running admission) :
    c.bridge.validateConfiguration .server running admission = .ok () := by
  have hepoch := h.limits.1
  obtain rfl := h.running
  unfold RuntimeBridgeConfig.validateConfiguration
  rw [andThen_eq_ok, andThen_eq_ok, andThen_eq_ok]
  exact ⟨refuseIf_eq_ok.mpr (by omega), refuseIf_eq_ok.mpr h.timeouts,
    refuseIf_eq_ok.mpr (by simp), refuseIf_eq_ok.mpr h.admission⟩

theorem Accepted.makeSession (h : c.Accepted running admission) :
    c.makeSession.validateConfiguration true = .ok () ↔
      c.bridge.limits.maxFramePayloadBytes + 4 ≤ c.bridge.limits.maxSessionEgressBytes := by
  have hlimits := WorkerLimits.validate_eq_ok.mp h.limits.2
  have hsession := h.session
  obtain ⟨payload, hpayload⟩ := h.helloAck
  have hack : c.makeSession.serverHelloAck = c.helloAck := rfl
  have hconfig : c.makeSession.config = c.session := rfl
  have hadvertised : c.helloAck.limits = c.bridge.limits := rfl
  unfold IpcSession.validateConfiguration
  rw [hack, hconfig, hadvertised, hpayload]
  constructor
  · intro hok
    have hframe := refuseIf_eq_ok.mp (andThen_eq_ok.mp (andThen_eq_ok.mp hok).2).1
    omega
  · intro hframe
    refine andThen_eq_ok.mpr ⟨refuseIf_eq_ok.mpr (by omega), ?_⟩
    refine andThen_eq_ok.mpr ⟨refuseIf_eq_ok.mpr (by omega), ?_⟩
    exact andThen_eq_ok.mpr ⟨refuseIf_eq_ok.mpr (by omega), rfl⟩

end Accepted

end WorkerServerConfig

/-- What the server has accepted, the egress and the bridge accept, and the session exactly if
it holds the largest frame with the four bytes of its length. -/
theorem session_checks_agree [JsonLib] (c : WorkerServerConfig) (running : Bool)
    (admission : AdmissionSnapshot) (hvalid : c.validateConfiguration running admission = .ok ()) :
    (∃ e, SessionEgress.create c.bridge.makeEgressConfig = .ok e) ∧
      c.bridge.validateConfiguration .server running admission = .ok () ∧
      (c.makeSession.validateConfiguration true = .ok () ↔
        c.bridge.limits.maxFramePayloadBytes + 4 ≤ c.bridge.limits.maxSessionEgressBytes) := by
  have haccepted := WorkerServerConfig.validateConfiguration_accepted hvalid
  exact ⟨⟨_, WorkerServerConfig.create_egress hvalid⟩, haccepted.bridge, haccepted.makeSession⟩

def narrowServer (sessionFrames : ℕ) : WorkerServerConfig where
  socketPath := utf8 "s"
  manifest := plainAck.manifest
  session := {
    frameCodec := ⟨1024⟩, maxEgressFrames := sessionFrames, maxEgressBytes := 65536
    readBufferBytes := 512 }
  bridge := {
    workerEpoch := 1
    limits := {
      maxActiveRequests := 2, maxTotalInputTokens := 8, maxReservedOutputTokens := 8
      maxFramePayloadBytes := 1024, maxSessionEgressFrames := sessionFrames
      maxSessionEgressBytes := 65536, maxRequestEgressFrames := 3, maxRequestEgressBytes := 8192 }
    controlReserveFrames := 1
    controlReserveBytes := 1024
    terminalReserveBytes := 1024 }

def narrowAdmission : AdmissionSnapshot :=
  { accepting := true, activeRequests := 0, reservedInputTokens := 0, reservedOutputTokens := 0
    maxActiveRequests := 2, maxTotalInputTokens := 8, maxReservedOutputTokens := 8 }

theorem narrowServer_accepted (frames : ℕ) (h : frames = 4 ∨ frames = 6) :
    @WorkerServerConfig.validateConfiguration plainJson (narrowServer frames) true
      narrowAdmission = .ok () := by
  rcases h with rfl | rfl <;> decide +kernel

theorem session_checks_agree_narrow :
    @WorkerServerConfig.validateConfiguration plainJson (narrowServer 6) true narrowAdmission =
      .ok () ∧
    @IpcSession.validateConfiguration plainJson (narrowServer 6).makeSession true =
      .ok () := by
  have hvalid := narrowServer_accepted 6 (Or.inr rfl)
  exact ⟨hvalid, (@session_checks_agree plainJson (narrowServer 6) true narrowAdmission
    hvalid).2.2.mpr (by decide)⟩

def tightServer (sessionBytes : ℕ) : WorkerServerConfig where
  socketPath := utf8 "s"
  manifest := plainAck.manifest
  session := {
    frameCodec := ⟨1024⟩, maxEgressFrames := 2, maxEgressBytes := sessionBytes
    readBufferBytes := 512 }
  bridge := {
    workerEpoch := 1
    limits := {
      maxActiveRequests := 2, maxTotalInputTokens := 8, maxReservedOutputTokens := 8
      maxFramePayloadBytes := 1024, maxSessionEgressFrames := 2
      maxSessionEgressBytes := sessionBytes, maxRequestEgressFrames := 1
      maxRequestEgressBytes := 1024 }
    controlReserveFrames := 1
    controlReserveBytes := 1
    terminalReserveBytes := 1024 }

/-- The session holds the largest payload, but not its frame. -/
theorem session_refuses_accepted :
    @WorkerServerConfig.validateConfiguration plainJson (tightServer 1025) true
      narrowAdmission = .ok () ∧
    @IpcSession.validateConfiguration plainJson (tightServer 1025).makeSession true =
      .error (.error .invalidInput "IPC egress byte limit must hold one maximum-sized frame") := by
  constructor <;> decide +kernel

namespace Ipc
variable {e : SessionEgress}

theorem EgressInv.others_le (he : EgressInv e) {id : ℕ} {q : RequestQueue}
    (hq : e.requests.lookup id = some q) :
    e.requestFrames + e.terminalReservations ≤
        q.messages.length + q.owed + (e.requests.keys.length - 1) * e.config.maxRequestFrames ∧
      e.requestBytes + e.terminalReservations * e.config.terminalReserveBytes ≤
        frameTotal q.messages + q.owed * e.config.terminalReserveBytes +
          (e.requests.keys.length - 1) * e.config.maxRequestBytes := by
  obtain ⟨hframes, hbytes, howed⟩ := he.totals hq
  have hkeys : (e.requests.erase id).keys.length = e.requests.keys.length - 1 :=
    Nat.eq_sub_of_add_eq (length_keys_erase hq)
  have hqueue : ∀ other q', (e.requests.erase id).lookup other = some q' →
      q'.messages.length + q'.owed ≤ e.config.maxRequestFrames ∧
        frameTotal q'.messages + q'.owed * e.config.terminalReserveBytes ≤
          e.config.maxRequestBytes := by
    intro other q' hother
    rw [lookup_erase_eq] at hother
    split at hother
    · cases hother
    · have hinv := he.queues other q' hother
      rw [← hinv.bytes]
      cases hflag : q'.terminalEnqueued with
      | false =>
        have hroom := hinv.room hflag
        simpa [RequestQueue.owed, hflag] using hroom
      | true => simpa [RequestQueue.owed, hflag] using ⟨hinv.frames_le, hinv.bytes_le⟩
  have hsumFrames := sumBy_le fun other q' h => (hqueue other q' h).1
  have hsumBytes := sumBy_le fun other q' h => (hqueue other q' h).2
  rw [sumBy_add, hkeys] at hsumFrames
  rw [sumBy_add, sumBy_mul, hkeys] at hsumBytes
  constructor
  · omega
  · rw [hbytes, howed, Nat.add_mul]
    omega

theorem EgressInv.enqueueDelta_enqueued [JsonLib] (he : EgressInv e) {id : ℕ} {q : RequestQueue}
    {delta : TokenDelta} {sized : SizedMessage} (hq : e.requests.lookup id = some q)
    (hopen : q.terminalEnqueued = false) (hid : delta.requestId = id)
    (hsize : sizeMessage (.tokenDelta delta) e.config.maxFramePayloadBytes = .ok sized)
    (hframes : q.messages.length + 2 ≤ e.config.maxRequestFrames)
    (hbytes : sized.frameBytes + q.queuedBytes + e.config.terminalReserveBytes ≤
      e.config.maxRequestBytes)
    (hsessionFrames : e.requestFrames + 1 + e.terminalReservations ≤ e.config.requestFrameCapacity)
    (hsessionBytes : sized.frameBytes + e.requestBytes +
      e.terminalReservations * e.config.terminalReserveBytes ≤ e.config.requestByteCapacity) :
    (e.enqueueDelta id (.tokenDelta delta)).1 = enqueued := by
  have haccepting : e.accepting ≠ false := by
    intro hstopped
    rw [(he.stopped hstopped).2] at hq
    cases hq
  simp only [SessionEgress.enqueueDelta]
  rw [if_neg (by simpa using hid), hsize]
  dsimp only
  rw [if_neg haccepting, hq]
  dsimp only
  rw [if_neg (by simp [hopen]), if_neg (by omega), if_neg (by omega)]

end Ipc

/-- The session partition holds all that the other active requests can queue, besides
a delta of this size and the terminal that is reserved for its request. -/
def RuntimeBridgeConfig.RoomForAll (c : RuntimeBridgeConfig) (frameBytes : ℕ) : Prop :=
  (c.limits.maxActiveRequests - 1) * c.limits.maxRequestEgressFrames + 2 ≤
      c.limits.maxSessionEgressFrames - c.controlReserveFrames ∧
    (c.limits.maxActiveRequests - 1) * c.limits.maxRequestEgressBytes + frameBytes +
      c.terminalReserveBytes ≤ c.limits.maxSessionEgressBytes - c.controlReserveBytes
  deriving Decidable

/-- The backlogs of other requests do not stand in the way of a request with an empty
queue, if the session partition has room for all of them. -/
theorem congestion_stays_local [JsonLib] (c : WorkerServerConfig) (running : Bool)
    (admission : AdmissionSnapshot) (hvalid : c.validateConfiguration running admission = .ok ())
    (htwo : 2 ≤ c.bridge.limits.maxRequestEgressFrames) (ops : List EgressOp)
    (e : SessionEgress)
    (hrun : exec SessionEgress.step { config := c.bridge.makeEgressConfig } ops = some e)
    (hactive : e.requests.keys.length ≤ c.bridge.limits.maxActiveRequests)
    (id : ℕ) (q : RequestQueue) (delta : Ipc.TokenDelta) (sized : SizedMessage)
    (hq : e.requests.lookup id = some q) (hempty : q.messages = []) (hid : delta.requestId = id)
    (hsize : sizeMessage (.tokenDelta delta) c.bridge.limits.maxFramePayloadBytes = .ok sized)
    (hfits : sized.frameBytes + c.bridge.terminalReserveBytes ≤
      c.bridge.limits.maxRequestEgressBytes)
    (hroom : c.bridge.RoomForAll sized.frameBytes) :
    (e.enqueueDelta id (.tokenDelta delta)).1.code ≠ .sessionFull ∧
      (e.enqueueDelta id (.tokenDelta delta)).1.code = .enqueued := by
  obtain ⟨he, hconfig⟩ := EgressInv.run (WorkerServerConfig.create_egress hvalid) hrun
  have hqueue := he.queues id q hq
  have hbytes : q.queuedBytes = 0 := by rw [hqueue.bytes, hempty, frameTotal_nil]
  have hopen : q.terminalEnqueued = false := by
    obtain ⟨deltas, -, ⟨hflag, -⟩ | ⟨-, last, -, hlast⟩⟩ := hqueue.terminalLast
    · exact hflag
    · simp [hempty] at hlast
  have hother := he.others_le hq
  have howed : q.owed = 1 := by simp [RequestQueue.owed, hopen]
  rw [hempty, howed, hconfig] at hother
  have hle (bound : ℕ) : (e.requests.keys.length - 1) * bound ≤
      (c.bridge.limits.maxActiveRequests - 1) * bound :=
    Nat.mul_le_mul_right _ (Nat.sub_le_sub_right hactive 1)
  have hleFrames := hle c.bridge.limits.maxRequestEgressFrames
  have hleBytes := hle c.bridge.limits.maxRequestEgressBytes
  obtain ⟨hroomFrames, hroomBytes⟩ := hroom
  have hcode : (e.enqueueDelta id (.tokenDelta delta)).1 = enqueued := by
    refine he.enqueueDelta_enqueued hq hopen hid (by rw [hconfig]; exact hsize) ?_ ?_ ?_ ?_
    all_goals rw [hconfig]
    · rw [hempty]
      exact htwo
    · rw [hbytes]
      exact hfits
    all_goals
      simp only [RuntimeBridgeConfig.makeEgressConfig, List.length_nil, frameTotal_nil,
        SessionEgressConfig.requestFrameCapacity, SessionEgressConfig.requestByteCapacity]
        at hother ⊢
      omega
  rw [hcode]
  exact ⟨by decide, rfl⟩

def backlogOfOther : List EgressOp :=
  [.registerRequest 1, .registerRequest 2, .enqueueDelta 2 (firstDelta 2)]

theorem backlogOfOther_run (sessionFrames : ℕ) (h : sessionFrames = 4 ∨ sessionFrames = 6) :
    ∃ e, exec (@SessionEgress.step plainJson)
        { config := (narrowServer sessionFrames).bridge.makeEgressConfig } backlogOfOther = some e ∧
      e.requests.keys.length = 2 ∧ e.requests.lookup 1 = some {} ∧
      (@SessionEgress.enqueueDelta plainJson e 1 (firstDelta 1)).1.code =
        if sessionFrames = 4 then .sessionFull else .enqueued := by
  have hrun : (exec (@SessionEgress.step plainJson)
      { config := (narrowServer sessionFrames).bridge.makeEgressConfig } backlogOfOther).any (fun e =>
        decide (e.requests.keys.length = 2) && decide (e.requests.lookup 1 = some {}) &&
        decide ((@SessionEgress.enqueueDelta plainJson e 1 (firstDelta 1)).1.code =
          if sessionFrames = 4 then .sessionFull else .enqueued)) = true := by
    rcases h with rfl | rfl <;> decide +kernel
  obtain ⟨e, he, hchecks⟩ := (Option.any_eq_true _ _).mp hrun
  simp only [Bool.and_eq_true, decide_eq_true_eq] at hchecks
  exact ⟨e, he, hchecks.1.1, hchecks.1.2, hchecks.2⟩

theorem sizeMessage_firstDelta : ∃ sized, @sizeMessage plainJson (firstDelta 1) 1024 =
    .ok sized ∧ sized.frameBytes ≤ 1024 := by
  have hsize : (@sizeMessage plainJson (firstDelta 1) 1024).toOption.any
      (fun sized => decide (sized.frameBytes ≤ 1024)) = true := by
    decide +kernel
  cases hs : @sizeMessage plainJson (firstDelta 1) 1024 with
  | error =>
    rw [hs] at hsize
    cases hsize
  | ok sized =>
    rw [hs] at hsize
    exact ⟨sized, rfl, of_decide_eq_true hsize⟩

theorem congestion_stays_local_narrow :
    @WorkerServerConfig.validateConfiguration plainJson (narrowServer 6) true narrowAdmission =
      .ok () ∧
    ∃ e, exec (@SessionEgress.step plainJson)
        { config := (narrowServer 6).bridge.makeEgressConfig } backlogOfOther = some e ∧
      (@SessionEgress.enqueueDelta plainJson e 1 (firstDelta 1)).1.code = .enqueued := by
  have hvalid := narrowServer_accepted 6 (Or.inr rfl)
  obtain ⟨e, he, hkeys, hq, -⟩ := backlogOfOther_run 6 (Or.inr rfl)
  obtain ⟨sized, hsize, hbytes⟩ := sizeMessage_firstDelta
  have hfits : sized.frameBytes + 1024 ≤ 8192 := by omega
  have hroom : (narrowServer 6).bridge.RoomForAll sized.frameBytes :=
    ⟨by decide, show 1 * 8192 + sized.frameBytes + 1024 ≤ 65536 - 1024 by omega⟩
  exact ⟨hvalid, e, he, (@congestion_stays_local plainJson (narrowServer 6) true
    narrowAdmission hvalid (by decide) backlogOfOther e he hkeys.le 1 {} _ sized hq rfl rfl hsize
    hfits hroom).2⟩

/-- With fewer frames for the session the backlog of the second request leaves no room
for the first delta of the other. -/
theorem congestion_spreads :
    @WorkerServerConfig.validateConfiguration plainJson (narrowServer 4) true narrowAdmission =
      .ok () ∧
    2 ≤ (narrowServer 4).bridge.limits.maxRequestEgressFrames ∧
    ∃ e sized, exec (@SessionEgress.step plainJson)
        { config := (narrowServer 4).bridge.makeEgressConfig } backlogOfOther = some e ∧
      e.requests.keys.length ≤ (narrowServer 4).bridge.limits.maxActiveRequests ∧
      e.requests.lookup 1 = some {} ∧
      @sizeMessage plainJson (firstDelta 1)
        (narrowServer 4).bridge.limits.maxFramePayloadBytes = .ok sized ∧
      sized.frameBytes + (narrowServer 4).bridge.terminalReserveBytes ≤
        (narrowServer 4).bridge.limits.maxRequestEgressBytes ∧
      (@SessionEgress.enqueueDelta plainJson e 1 (firstDelta 1)).1.code =
        .sessionFull := by
  obtain ⟨e, he, hkeys, hq, hcode⟩ := backlogOfOther_run 4 (Or.inl rfl)
  obtain ⟨sized, hsize, hbytes⟩ := sizeMessage_firstDelta
  have hfits : sized.frameBytes + 1024 ≤ 8192 := by omega
  exact ⟨narrowServer_accepted 4 (Or.inl rfl), by decide, e, sized, he, hkeys.le, hq, hsize, hfits,
    hcode⟩

end KimServing

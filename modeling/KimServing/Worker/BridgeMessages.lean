import KimServing.Worker.SessionEgress

/-! # What the runtime bridge puts on the wire

The bridge turns runtime events into wire messages. Status texts are cut to a
number of bytes, and the settings of the bridge become those of its egress.
-/
namespace KimServing
open Library

structure RuntimeBridgeConfig where
  workerEpoch : ℕ := 0
  limits : Ipc.WorkerLimits := {}
  controlReserveFrames : ℕ := 16
  controlReserveBytes : ℕ := 64 * 1024
  terminalReserveBytes : ℕ := 2048
  maxStatusMessageBytes : ℕ := 1024
  mailboxWaitTimeout : ℤ := 50
  sessionSendRetry : ℤ := 5
  sessionStallTimeout : ℤ := 2000
  deriving DecidableEq

namespace RuntimeBridgeConfig

def makeEgressConfig (c : RuntimeBridgeConfig) : Ipc.SessionEgressConfig where
  maxFramePayloadBytes := c.limits.maxFramePayloadBytes
  maxSessionFrames := c.limits.maxSessionEgressFrames
  maxSessionBytes := c.limits.maxSessionEgressBytes
  maxRequestFrames := c.limits.maxRequestEgressFrames
  maxRequestBytes := c.limits.maxRequestEgressBytes
  controlReserveFrames := c.controlReserveFrames
  controlReserveBytes := c.controlReserveBytes
  terminalReserveBytes := c.terminalReserveBytes

def ofLimits (workerEpoch : ℕ) (limits : Ipc.WorkerLimits) : RuntimeBridgeConfig where
  workerEpoch := workerEpoch
  limits := limits
  controlReserveFrames := min 16 (limits.maxSessionEgressFrames - limits.maxRequestEgressFrames)
  controlReserveBytes :=
    min (64 * 1024) (limits.maxSessionEgressBytes - limits.maxRequestEgressBytes)
  terminalReserveBytes := min 2048 limits.maxRequestEgressBytes

def boundedStatus (c : RuntimeBridgeConfig) (status : Status) : Status :=
  { status with message := status.message.take c.maxStatusMessageBytes }

end RuntimeBridgeConfig

def wireFinishReason : FinishReason → Ipc.FinishReason
  | .eos => .eos
  | .length => .length
  | .stop => .stop
  | .cancelled => .cancelled
  | .timeout => .timeout
  | .backpressure => .backpressure

def wireAccepted (c : RuntimeBridgeConfig) (requestId : ℕ) : Ipc.Message :=
  .accepted { workerEpoch := c.workerEpoch, requestId := requestId }

def wireRejected (c : RuntimeBridgeConfig) (requestId : ℕ) (status : Status) : Ipc.Message :=
  .rejected { workerEpoch := c.workerEpoch, requestId := requestId, status := c.boundedStatus status }

def wireDelta (c : RuntimeBridgeConfig) (delta : TokenDelta) : Ipc.TokenDelta :=
  { workerEpoch := c.workerEpoch, requestId := delta.requestId, sequenceNo := delta.sequenceNo
    tokenIds := delta.tokenIds }

/-- The terminal message of a request. A request that was cancelled for
backpressure reports that instead of what the backend said. -/
def wireTerminal (c : RuntimeBridgeConfig) (backpressureRequested : Bool) (t : TerminalEvent) :
    Ipc.Terminal :=
  { workerEpoch := c.workerEpoch
    requestId := t.requestId
    status :=
      if backpressureRequested then
        .error .queueFull "request cancelled because IPC egress was full"
      else c.boundedStatus t.status
    finishReason :=
      if backpressureRequested then some .backpressure else t.finishReason.map wireFinishReason
    usage := ⟨t.usage.promptTokens, t.usage.completionTokens⟩ }

end KimServing

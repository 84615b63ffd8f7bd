import KimServing.Apps.WorkerConfiguration
import KimServing.Backend.BackendEffects
import KimServing.Backend.BackendInvariant
import KimServing.Backend.CompleteOutput
import KimServing.Backend.ExecutorRequest
import KimServing.Backend.FailedSubmit
import KimServing.Backend.PumpLife
import KimServing.Backend.TrtLlmExecutorBackend
import KimServing.Benchmark.SloCalibration
import KimServing.Client.ClientEffects
import KimServing.Client.ConnectionScope
import KimServing.Client.DecoderAgreement
import KimServing.Client.Encode
import KimServing.Client.EncoderAgreement
import KimServing.Client.EventBuffer
import KimServing.Client.FrameTransport
import KimServing.Client.GenerationClient
import KimServing.Client.HandleContract
import KimServing.Client.Protocol
import KimServing.Client.RequestBooks
import KimServing.Gateway.IncrementalDecoder
import KimServing.Gateway.Metrics
import KimServing.Gateway.OpenAi
import KimServing.Gateway.Service
import KimServing.Gateway.Session
import KimServing.Gateway.TokenizerFingerprint
import KimServing.Ipc.Decode
import KimServing.Ipc.DecodeSpec
import KimServing.Ipc.Encode
import KimServing.Ipc.FrameChunking
import KimServing.Ipc.FrameDecoder
import KimServing.Ipc.IpcSession
import KimServing.Ipc.Messages
import KimServing.Ipc.PayloadCodec
import KimServing.Ipc.RoundTrip
import KimServing.Ipc.SessionGreeting
import KimServing.Ipc.SessionHandshake
import KimServing.Ipc.SessionSafety
import KimServing.Library.Framing
import KimServing.Library.Incremental
import KimServing.Library.Json
import KimServing.Library.JsonNormal
import KimServing.Library.Occurrences
import KimServing.Library.Outcomes
import KimServing.Library.Runs
import KimServing.Library.Table
import KimServing.Library.Traverse
import KimServing.Library.Utf8
import KimServing.Library.Utf8Lossy
import KimServing.Protocol.ClientSide
import KimServing.Protocol.Compatibility
import KimServing.Protocol.Pairing
import KimServing.Protocol.Slots
import KimServing.Protocol.WorkerSide
import KimServing.Runtime.AdmissionController
import KimServing.Runtime.AdmissionLease
import KimServing.Runtime.CallLife
import KimServing.Runtime.Conservation
import KimServing.Runtime.GenerationMailbox
import KimServing.Runtime.GenerationRequest
import KimServing.Runtime.GenerationRuntime
import KimServing.Runtime.GenerationTypes
import KimServing.Runtime.Lifecycle
import KimServing.Runtime.RequestState
import KimServing.Runtime.RuntimeEffects
import KimServing.Runtime.RuntimeInvariant
import KimServing.Runtime.SloAdmissionPolicy
import KimServing.Runtime.SloBuckets
import KimServing.Runtime.SloReservation
import KimServing.Runtime.TerminalGate
import KimServing.Worker.BridgeMessages
import KimServing.Worker.BridgeRefinement
import KimServing.Worker.BridgeSession
import KimServing.Worker.BridgeSteps
import KimServing.Worker.Custody
import KimServing.Worker.EgressFairness
import KimServing.Worker.EgressInvariant
import KimServing.Worker.EgressRegistration
import KimServing.Worker.EgressView
import KimServing.Worker.EgressWords
import KimServing.Worker.IdReuse
import KimServing.Worker.IntentionalStop
import KimServing.Worker.LaneInvariant
import KimServing.Worker.Lanes
import KimServing.Worker.PumpLabels
import KimServing.Worker.Registration
import KimServing.Worker.RuntimeBridge
import KimServing.Worker.Sending
import KimServing.Worker.Serving
import KimServing.Worker.SessionEgress
import KimServing.Worker.ShutdownCoverage
import KimServing.Worker.StatusText
import KimServing.Worker.TerminalReserve
import KimServing.Worker.ThreadFrames
import KimServing.Worker.TokenAccounting
import KimServing.Worker.WireGrammar
import KimServing.Worker.WorkerServer

import KimServing.Client.EncoderAgreement
import KimServing.Client.FrameTransport
import KimServing.Protocol.ClientSide
import KimServing.Protocol.WorkerSide

/-! # A client and a worker over one connection

The client with its threads and the bridge with its threads run beside each other.
What one side has sent reaches the other in this order, each message at some later
time. The client connects once and gets one acknowledgement, whose epoch and limits
hold for the whole connection.
-/
namespace KimServing
open Library Client List

def workerView : ClientMessage → Ipc.Message
  | .submit request workerEpoch => .submit (submitView request workerEpoch)
  | .cancel requestId workerEpoch =>
    .cancel { workerEpoch := workerEpoch, requestId := requestId.toNat }
  | .health probeId workerEpoch => .health { workerEpoch := workerEpoch, probeId := probeId }

section Encoding
variable (dumps : Json → Except PyError (List UInt8))

def payloadOf : ClientMessage → Except PyError (List UInt8)
  | .submit request workerEpoch => encodeSubmit dumps request workerEpoch
  | .cancel requestId workerEpoch => encodeCancel dumps requestId workerEpoch
  | .health probeId workerEpoch => encodeHealth dumps probeId workerEpoch

def frameOf (ack : HelloAck) (message : ClientMessage) : Except PyError (List UInt8) := do
  let payload ← payloadOf dumps message
  encodeFrame payload ack.limits.maxFramePayloadBytes

end Encoding

def raises {α : Type} (call : Except PyError α) (e : PyError) : Bool :=
  match call with
  | .error e' => e' == e
  | .ok _ => false

/-- What the calls of a client thread do is up to their surroundings, except that the
encoders and the printer of frames decide by their arguments. Messages come over the
connection only. -/
def permits (dumps : Json → Except PyError (List UInt8)) (ack : HelloAck) : Pc → Choice → Bool
  | _, .message _ => false
  | .encode _ message, .go => (payloadOf dumps message).isOk
  | .encode _ message, .raised (.python e) => raises (payloadOf dumps message) e
  | .sending _ message _, .go => (frameOf dumps ack message).isOk
  | .sending _ message _, .raised (.python e) => raises (frameOf dumps ack message) e
  | _, _ => true

def arrival [JsonLib] (ack : HelloAck) (m : Ipc.Message) : Option ServerMessage :=
  match Ipc.encodePayload m with
  | .error _ => none
  | .ok payload =>
    if serverEpoch m = ack.workerEpoch ∧ payload.length ≤ ack.limits.maxFramePayloadBytes then
      serverView m
    else none

/-- Both sides, with how many messages of the client the worker has received and how
many of the worker the client has read. -/
structure Pairing where
  client : GenerationClient
  bridge : Bridge
  taken : ℕ := 0
  read : ℕ := 0

inductive PairingAction where
  | client (a : ClientAction)
  | acknowledge (k : ℕ)
  | worker (a : BridgeAction)
  | toWorker
  | toClient (k : ℕ)

namespace Pairing

def start (config : GenerationClientConfig) (c : RuntimeBridgeConfig) (e : Ipc.SessionEgress) :
    Pairing where
  client := .initial config
  bridge := .initial c e

section Steps
variable [JsonLib] (dumps : Json → Except PyError (List UInt8)) (ack : HelloAck)

def clientStep (s : Pairing) : ClientAction → Option Pairing
  | .thread k choice =>
    if permits dumps ack (s.client.threads k).pc choice then
      (s.client.threadStep k choice).map fun client => { s with client := client }
    else none
  | a => (s.client.step a).map fun client => { s with client := client }

def acknowledge (s : Pairing) (k : ℕ) : Option Pairing :=
  match (s.client.threads k).pc with
  | .handshake =>
    if s.client.connections = 0 then
      (s.client.threadStep k (.message (.helloAck ack))).map fun client => { s with client := client }
    else none
  | _ => none

def workerStep (s : Pairing) : BridgeAction → Option Pairing
  | .receive _ => none
  | a => (s.bridge.step a).map fun bridge => { s with bridge := bridge }

def toWorker (s : Pairing) : Option Pairing := do
  let entry ← s.client.sent[s.taken]?
  let bridge ← s.bridge.step (.receive (workerView entry.2))
  return { s with bridge := bridge, taken := s.taken + 1 }

def toClient (s : Pairing) (k : ℕ) : Option Pairing :=
  match (s.client.threads k).pc with
  | .receiving _ => do
    let m ← s.bridge.sent[s.read]?
    let view ← arrival ack m
    let client ← s.client.threadStep k (.message view)
    return { s with client := client, read := s.read + 1 }
  | _ => none

def step (s : Pairing) : PairingAction → Option Pairing
  | .client a => s.clientStep dumps ack a
  | .acknowledge k => s.acknowledge ack k
  | .worker a => s.workerStep a
  | .toWorker => s.toWorker
  | .toClient k => s.toClient ack k

end Steps

/-- The thread is in `_dispatch`, and the call before which it stands raises
`ProtocolError`. -/
def Refuses (dumps : Json → Except PyError (List UInt8)) (ack : HelloAck) (s : Pairing) (k : ℕ)
    (text : List UInt8) : Prop :=
  match (s.client.threads k).pc with
  | .dispatch m => ∃ e, s.client.dispatch m = .error e ∧ e = .call (.python (.protocolError text))
  | .deliver n _ => (s.client.states n).events.terminal.isSome = true
  | .encode .reader message => payloadOf dumps message = .error (.protocolError text)
  | .sending .reader message _ => frameOf dumps ack message = .error (.protocolError text)
  | _ => False

end Pairing

/-! ## Encoded messages -/

section Encoded
variable {dumps : Json → Except PyError (List UInt8)} {ack : HelloAck}

theorem payloadOf_submit {request : Client.GenerationRequest} {workerEpoch : ℕ} {payload : List UInt8}
    (h : payloadOf dumps (.submit request workerEpoch) = .ok payload) :
    1 ≤ request.requestId ∧ request.requestId ≤ 2 ^ 64 - 1 :=
  (validateRequest_valid (sequence_eq_ok.mp h).1).requestId

theorem payloadOf_of_frameOf {message : ClientMessage} {frame : List UInt8}
    (h : frameOf dumps ack message = .ok frame) : ∃ payload, payloadOf dumps message = .ok payload := by
  obtain ⟨payload, hpayload, -⟩ := Ipc.bind_eq_ok.mp h
  exact ⟨payload, hpayload⟩

section Lengths
variable [JsonLib]

/-- The client's library prints a Cancel like the worker's, up to the order of the fields. -/
def PrintsCancels (dumps : Json → Except PyError (List UInt8)) : Prop :=
  ∀ requestId workerEpoch : ℤ, ∃ text, dumps (cancelDict requestId workerEpoch) = .ok text ∧
    text.length = (cancelDict requestId workerEpoch).dump.length

omit [JsonLib] in
theorem length_envelope_keys : (Json.strText (utf8 "type")).length = 6 ∧
    (Json.strText (utf8 "protocol_version")).length = 18 ∧
    (Json.strText (utf8 "worker_epoch")).length = 14 ∧
    (Json.strText (utf8 "request_id")).length = 12 := by decide

theorem length_cancelDict (requestId workerEpoch : ℕ) :
    (cancelDict requestId workerEpoch).dump.length =
      68 + digitCount workerEpoch + digitCount requestId := by
  have htype : (Ipc.nameJson "cancel").dump.length = 8 := by
    have : (Json.strText (utf8 "cancel")).length = 8 := by decide
    exact this
  obtain ⟨k₁, k₂, k₃, k₄⟩ := length_envelope_keys
  have hversion : (Ipc.natJson Ipc.kProtocolVersion).dump.length = 1 := by
    have : digitCount 1 = 1 := by decide
    exact this
  have hint : ∀ n : ℕ, (Json.int n).dump.length = digitCount n := length_natJson
  rw [cancelDict, Json.length_dump_obj (by simp)]
  simp only [map_cons, map_nil, sum_cons, sum_nil, length_cons,
    length_nil, Json.fieldWidth, htype, hversion, hint, k₁, k₂, k₃, k₄]
  omega

theorem length_cancelDict_le {d : Ipc.TokenDelta} {payload : List UInt8}
    (h : Ipc.encodePayload (.tokenDelta d) = .ok payload) :
    (cancelDict d.requestId d.workerEpoch).dump.length ≤ payload.length := by
  obtain ⟨hvalid, -, rfl⟩ := Ipc.encodePayload_eq_ok.mp h
  have hversion : d.protocolVersion = 1 := (Ipc.TokenDelta.validate_eq_ok.mp hvalid).1.1
  have hone : digitCount 1 = 1 := by decide
  have htype : (Ipc.nameJson "token_delta").dump.length = 13 := by
    have : (Json.strText (utf8 "token_delta")).length = 13 := by decide
    exact this
  obtain ⟨k₁, k₂, k₃, k₄⟩ := length_envelope_keys
  rw [length_cancelDict, Ipc.messageJson, Json.length_dump_obj (by simp)]
  simp only [map_cons, map_nil, sum_cons, sum_nil, length_cons,
    length_nil, Json.fieldWidth, length_natJson, htype, hversion, hone, k₁, k₂, k₃, k₄]
  omega

theorem frameOf_cancel (hdumps : PrintsCancels dumps) (hepoch : ack.workerEpoch < 2 ^ 64)
    {d : Ipc.TokenDelta} {payload : List UInt8} (hpayload : Ipc.encodePayload (.tokenDelta d) = .ok payload)
    (hfits : payload.length ≤ ack.limits.maxFramePayloadBytes)
    (hserver : d.workerEpoch = ack.workerEpoch) (hid : d.requestId < 2 ^ 64) :
    ∃ frame, frameOf dumps ack (.cancel d.requestId ack.workerEpoch) = .ok frame := by
  obtain ⟨-, hpositive, hrequest⟩ :=
    (Ipc.TokenDelta.validate_eq_ok.mp (Ipc.encodePayload_eq_ok.mp hpayload).1).1
  obtain ⟨text, htext, hlength⟩ := hdumps d.requestId ack.workerEpoch
  have hprint : (cancelDict d.requestId ack.workerEpoch).printable = true := by
    have hname : Utf8.valid (utf8 "cancel") = true := by decide
    simp [cancelDict, Ipc.nameJson, Ipc.natJson, Json.printable, Json.printableFields, hname]
  have hencode : encodeCancel dumps d.requestId ack.workerEpoch = .ok text := by
    refine sequence_eq_ok.mpr ⟨checkInt_eq_ok.mpr ⟨?_, ?_⟩, sequence_eq_ok.mpr
      ⟨checkInt_eq_ok.mpr ⟨?_, ?_⟩, ?_⟩⟩
    · exact_mod_cast hrequest
    · omega
    · rw [← hserver]
      exact_mod_cast hpositive
    · omega
    · simp [encodeJson, htext, hprint, bind, Except.bind]
  have hdigits : ∀ {n : ℕ}, n < 2 ^ 64 → digitCount n ≤ 20 := fun h =>
    Json.length_decimal_le (by decide) (h.trans (by decide))
  have hle := length_cancelDict_le hpayload
  rw [hserver] at hle
  have hwidth := length_cancelDict d.requestId ack.workerEpoch
  have hsmall := hdigits hepoch
  have hsmall' := hdigits hid
  refine ⟨Ipc.lengthPrefix text.length ++ text, Ipc.bind_eq_ok.mpr ⟨text, hencode, ?_⟩⟩
  rw [encodeFrame, if_neg (ne_nil_of_length_pos (by omega)), if_neg (by omega)]

end Lengths
end Encoded
end KimServing

import KimServing.Ipc.PayloadCodec
import KimServing.Worker.BridgeMessages

/-! # Cutting a status text

The bridge cuts a status text to a number of bytes, and the encoder accepts only
UTF-8. So a long text is sent exactly when the cut is between two characters.
-/
namespace KimServing
open Library Ipc

namespace RuntimeBridgeConfig
variable {c : RuntimeBridgeConfig} {status : Status}

/-- The text is short enough, or the first byte that is cut off begins a character. -/
def CutsClean (c : RuntimeBridgeConfig) (status : Status) : Prop :=
  ∀ b ∈ status.message[c.maxStatusMessageBytes]?, ¬ Utf8.Continues b
  deriving Decidable

theorem valid_boundedStatus (hvalid : Utf8.valid status.message = true) :
    Utf8.valid (c.boundedStatus status).message = true ↔ c.CutsClean status :=
  Utf8.valid_take_iff _ hvalid

end RuntimeBridgeConfig

section
variable [JsonLib]

theorem encodePayload_wireRejected (c : RuntimeBridgeConfig) (requestId : ℕ) (status : Status)
    (hepoch : 0 < c.workerEpoch) (hid : 0 < requestId) (hcode : status.isOk = false)
    (hvalid : Utf8.valid status.message = true) :
    (∃ payload, encodePayload (wireRejected c requestId status) = .ok payload) ↔
      c.CutsClean status := by
  have hvalidate : (wireRejected c requestId status).validate = .ok () :=
    Rejected.validate_eq_ok.mpr ⟨⟨rfl, hepoch, hid⟩, hcode⟩
  rw [encodePayload_ok_iff, hvalidate, ← RuntimeBridgeConfig.valid_boundedStatus hvalid]
  simp [wireRejected, Message.strings]

theorem encodePayload_wireTerminal (c : RuntimeBridgeConfig) (t : TerminalEvent)
    (hepoch : 0 < c.workerEpoch) (hid : 0 < t.requestId) (hcode : t.status.isOk = false)
    (hvalid : Utf8.valid t.status.message = true) :
    (∃ payload, encodePayload (.terminal (wireTerminal c false t)) = .ok payload) ↔
      c.CutsClean t.status := by
  have hvalidate : (Message.terminal (wireTerminal c false t)).validate = .ok () := by
    refine Terminal.validate_eq_ok.mpr ⟨⟨rfl, hepoch, hid⟩, fun hok => ?_⟩
    have hok : t.status.isOk = true := hok
    cases hcode.symm.trans hok
  rw [encodePayload_ok_iff, hvalidate, ← RuntimeBridgeConfig.valid_boundedStatus hvalid]
  simp [wireTerminal, Message.strings]

end

/-- A status text that is cut between two characters, or not at all, is sent in a
Rejected and in a Terminal. Cut inside a character, it is sent in neither. -/
theorem statusText_sendable_iff [JsonLib] (c : RuntimeBridgeConfig) (requestId : ℕ)
    (status : Status) (finishReason : Option FinishReason) (usage : GenerationUsage)
    (hepoch : 0 < c.workerEpoch) (hid : 0 < requestId) (hcode : status.isOk = false)
    (hvalid : Utf8.valid status.message = true) :
    ((∃ payload, encodePayload (wireRejected c requestId status) = .ok payload) ↔
        c.CutsClean status) ∧
      ((∃ payload, encodePayload (.terminal
          (wireTerminal c false ⟨requestId, status, finishReason, usage⟩)) = .ok payload) ↔
        c.CutsClean status) :=
  ⟨encodePayload_wireRejected c requestId status hepoch hid hcode hvalid,
    encodePayload_wireTerminal c ⟨requestId, status, finishReason, usage⟩ hepoch hid hcode hvalid⟩

def accentError : Status := .error .tensorRTError "é"

/-- Two bytes of status text hold the first of two letters. -/
theorem statusText_sendable_letter :
    ∃ payload, @encodePayload plainJson (wireRejected
      { workerEpoch := 1, maxStatusMessageBytes := 2 } 7 (.error .tensorRTError "éé")) =
        .ok payload :=
  (@statusText_sendable_iff plainJson { workerEpoch := 1, maxStatusMessageBytes := 2 } 7
    (.error .tensorRTError "éé") none ⟨1, 0⟩ (by decide) (by decide) rfl (by decide)).1.mpr
    (by decide +kernel)

/-- With one byte of status text the character is cut in two. -/
theorem statusText_cut_refused :
    Utf8.valid accentError.message = true ∧
      (¬ ∃ payload, @encodePayload plainJson (wireRejected
        { workerEpoch := 1, maxStatusMessageBytes := 1 } 7 accentError) = .ok payload) ∧
      ¬ ∃ payload, @encodePayload plainJson (.terminal (wireTerminal
        { workerEpoch := 1, maxStatusMessageBytes := 1 } false ⟨7, accentError, none, ⟨1, 0⟩⟩)) =
          .ok payload := by
  have hcut : ¬ RuntimeBridgeConfig.CutsClean
      { workerEpoch := 1, maxStatusMessageBytes := 1 } accentError := by
    decide +kernel
  refine ⟨by decide, fun h => hcut ?_, fun h => hcut ?_⟩
  · exact (@encodePayload_wireRejected plainJson _ 7 accentError (by decide) (by decide) rfl
      (by decide)).mp h
  · exact (@encodePayload_wireTerminal plainJson _ ⟨7, accentError, none, ⟨1, 0⟩⟩ (by decide)
      (by decide) rfl (by decide)).mp h

end KimServing

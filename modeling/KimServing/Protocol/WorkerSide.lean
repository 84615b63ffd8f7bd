import KimServing.Protocol.Slots
import KimServing.Worker.Registration
import KimServing.Worker.Sending
import KimServing.Worker.ThreadFrames
import KimServing.Worker.WireGrammar

/-! # The answers of the worker are in order

What the writer has sent about a request id can be read by a slot, which has begun
at most as many Submits as were received. Besides answers the worker only sends the
figures of a health probe.
-/
namespace KimServing
open Library List Ipc

variable {requestId : ℕ}

def Ipc.Message.reply? : Message → Option (ℕ × Reply)
  | .accepted m => some (m.requestId, .accepted)
  | .rejected m => some (m.requestId, .rejected)
  | .tokenDelta m => some (m.requestId, .delta m.sequenceNo)
  | .terminal m => some (m.requestId, .terminal)
  | _ => none

theorem Ipc.Message.requestId?_of_reply? {m : Message} {x : Reply}
    (h : m.reply? = some (requestId, x)) : m.requestId? = some requestId := by
  cases m <;> simp_all [Message.reply?, Message.requestId?]

theorem countP_repliesTo (requestId : ℕ) (messages : List Message) :
    (repliesTo Message.reply? requestId messages).countP Reply.isFinal =
      finals requestId messages := by
  induction messages with
  | nil => rfl
  | cons m messages ih =>
    rw [repliesTo_cons, countP_append, ih, finals, finals, countP_cons, Nat.add_comm]
    congr 1
    cases m with
    | accepted m | rejected m | tokenDelta m | terminal m =>
      by_cases hid : m.requestId = requestId <;>
        simp [repliesTo, Message.reply?, Message.isFinal, Message.requestId?, hid,
          Reply.isFinal]
    | _ => simp [repliesTo, Message.reply?, Message.isFinal]

theorem WireWord.answers {committed : List TokenDelta} {word : List Message}
    (h : WireWord requestId committed word) :
    Slot.Answers (repliesTo Message.reply? requestId word) := by
  rcases h with ⟨rejected, rfl, hfirst⟩ |
    ⟨accepted, deltas, terminal, rfl, hlabels, hlabel, hnumbered, -, hfirst⟩
  · refine Slot.answers_rejected.first ?_
    simpa [repliesTo, Message.reply?] using
      hfirst.filterMap fun m => m.reply?.bind fun x =>
        if x.1 = rejected.requestId then some x.2 else none
  · have hdeltas : repliesTo Message.reply? accepted.requestId
        (deltas.map Message.tokenDelta) = (List.range deltas.length).map .delta := by
      rw [← hnumbered, map_map, repliesTo, filterMap_map, ← filterMap_eq_map]
      refine filterMap_congr ?_
      intro d hd
      simp [Message.reply?, hlabels d hd]
    have hwhole : repliesTo Message.reply? accepted.requestId
        (.accepted accepted :: deltas.map Message.tokenDelta ++ [.terminal terminal]) =
        .accepted :: (List.range deltas.length).map .delta ++ [.terminal] := by
      rw [repliesTo_append, repliesTo_cons, hdeltas]
      simp [repliesTo, Message.reply?, hlabel]
    refine (Slot.answers_accepted deltas.length).first ?_
    rw [← hwhole]
    exact hfirst.filterMap _

namespace Bridge
variable {s s' : Bridge}

variable {a : BridgeAction}

theorem Inv.replies (hs : s.Inv) (requestId : ℕ) :
    repliesTo Message.reply? requestId s.popped = (indices requestId s.ids).flatMap fun n =>
      repliesTo Message.reply? requestId (s.delivered n) := by
  rw [← repliesTo_flatMap,
    ← repliesTo_filter _ _ (fun m => m.requestId? = some requestId) s.popped
      (fun m x h => by simpa using Message.requestId?_of_reply? h)]
  exact congrArg _ (hs.lanes.popped requestId)

theorem Inv.word (hs : s.Inv) {requestId n : ℕ} (hn : n ∈ indices requestId s.ids) :
    WireWord requestId (s.gates n).committed (s.delivered n) := by
  have h := (hs.lanes.lanes n).wireWord (hs.lanes.delivered_prefix hn)
  rwa [show (s.toLanes.lanes n).requestId = requestId from
    indices_unique (hs.lanes.known n (lt_of_mem_indices hn)) hn] at h

theorem Inv.earlier_final (hs : s.Inv) {requestId n : ℕ} {earlier : List ℕ}
    (hindices : indices requestId s.ids = earlier ++ [n]) {m : ℕ} (hm : m ∈ earlier) :
    ∃ x ∈ repliesTo Message.reply? requestId (s.delivered m), x.isFinal = true := by
  have hmem : m ∈ indices requestId s.ids := hindices ▸ mem_append_left _ hm
  have hold : lastIndex requestId s.ids ≠ some m := by
    intro hlast
    obtain ⟨others, hothers⟩ := indices_of_lastIndex hlast
    have hnodup := indices_nodup requestId s.ids
    rw [hindices] at hothers hnodup
    obtain ⟨rfl, hsame⟩ := append_inj' hothers rfl
    rw [singleton_inj.mp hsame] at hnodup
    exact (nodup_append.mp hnodup).2.2 m hm m (mem_singleton_self m) rfl
  obtain ⟨hall, final, hfinal, hlast⟩ := hs.lanes.earlier requestId m hmem hold
  rw [← hall] at hfinal
  have hpopped : final ∈ s.popped.filter (fun m => m.requestId? = some requestId) := by
    rw [show s.popped.filter (fun m => m.requestId? = some requestId) =
      (indices requestId s.ids).flatMap s.delivered from hs.lanes.popped requestId]
    exact mem_flatMap.mpr ⟨m, hmem, hfinal⟩
  have hlabel : final.requestId? = some requestId := by simpa using (mem_filter.mp hpopped).2
  refine countP_pos_iff.mp ?_
  rw [countP_repliesTo]
  exact countP_pos_iff.mpr ⟨final, hfinal, by simp [hlast, hlabel]⟩

theorem Inv.slot (hs : s.Inv) (requestId : ℕ) :
    ∃ slot, exec Slot.read {} (repliesTo Message.reply? requestId s.popped) = some slot ∧
      slot.begun ≤ s.ids.count requestId := by
  rw [hs.replies, ← length_indices]
  exact Slot.exec_words (fun n hn => (hs.word hn).answers)
    (fun earlier n hindices m hm => hs.earlier_final hindices hm)

/-! ## What is received and sent -/

theorem receive_ids {m : Message} (h : s.receive m = some s') :
    s'.ids = match m with
      | .submit submit => submit.requestId :: s.ids
      | _ => s.ids := by
  obtain ⟨-, ⟨submit, rfl, rfl⟩ | ⟨hother, rfl⟩⟩ := receive_cases h
  · rfl
  · cases m with
    | submit submit => exact absurd rfl (hother submit)
    | _ => rfl

theorem step_ids [JsonLib] (ha : ∀ m, a ≠ .receive m) (h : s.step a = some s') :
    s'.ids = s.ids := by
  cases a with
  | receive m => exact absurd rfl (ha m)
  | handler => cases handlerStep_move h with | _ => rfl
  | _ => exact (step_quiet rfl h).ids

theorem writerStep_sent {env : Environment} (h : s.writerStep env = some s') : s.sent <+: s'.sent := by
  cases writerStep_move h with
  | sent => exact prefix_append _ _
  | _ => exact prefix_rfl

theorem step_sent [JsonLib] (h : s.step a = some s') : s.sent <+: s'.sent := by
  cases a with
  | writer => exact writerStep_sent h
  | _ => exact (step_unsent (by simp) h).sent ▸ prefix_rfl

/-! ## Only answers and figures -/

def OnlyReplies (s : Bridge) : Prop :=
  ∀ m ∈ s.popped, SessionEgress.isControl m = true ∨ m.requestId?.isSome

theorem OnlyReplies.congr (ho : s.OnlyReplies) (h : s'.popped = s.popped) : s'.OnlyReplies := by
  unfold OnlyReplies
  rw [h]
  exact ho

theorem writerStep_onlyReplies (hs : s.Inv) (hr : s.RegInv) (ho : s.OnlyReplies) {env : Environment}
    (h : s.writerStep env = some s') : s'.OnlyReplies := by
  cases writerStep_move h with
  | take m hpc hresult =>
    intro x hx
    rcases mem_append.mp hx with hx | hx
    · exact ho x hx
    rw [mem_singleton.mp hx]
    rcases hs.view.inv.waitPop_cases s.config.mailboxWaitTimeout with ⟨r, hnone, heq⟩ |
      ⟨queued, control, hcontrol, heq⟩ | ⟨id, rest, q, queued, messages, -, -, hq, hmessages, heq⟩
    · rw [heq] at hresult
      exact absurd hresult (hnone m)
    · rw [heq] at hresult
      cases hresult
      exact Or.inl (hr.control queued (hcontrol ▸ mem_cons_self))
    · rw [heq] at hresult
      cases hresult
      rw [hs.view.labelled id q hq queued (hmessages ▸ mem_cons_self)]
      exact Or.inr rfl
  | _ => exact ho

theorem step_onlyReplies [JsonLib] (hs : s.Inv) (hr : s.RegInv) (ho : s.OnlyReplies)
    (h : s.step a = some s') : s'.OnlyReplies := by
  cases a with
  | writer => exact writerStep_onlyReplies hs hr ho h
  | _ => exact ho.congr (step_unsent (by simp) h).popped

structure Orderly (s : Bridge) : Prop where
  inv : s.Inv
  registration : s.RegInv
  sent : s.SentInv
  only : s.OnlyReplies

theorem initial_orderly {c : RuntimeBridgeConfig} {e : SessionEgress}
    (he : SessionEgress.create c.makeEgressConfig = .ok e) : (initial c e).Orderly :=
  ⟨initial_inv he, initial_regInv he, initial_sentInv c e, fun m hm => by cases hm⟩

theorem Orderly.step [JsonLib] (hs : s.Orderly) (hclient : s.Conforming a)
    (h : s.step a = some s') : s'.Orderly :=
  ⟨hs.inv.of_simulates (step_simulates hs.inv hclient h),
    step_regInv hs.inv hs.registration hclient h, step_sentInv hs.sent h,
    step_onlyReplies hs.inv hs.registration hs.only h⟩

theorem Orderly.slot (hs : s.Orderly) {first : List Message} (hfirst : first <+: s.sent)
    (requestId : ℕ) :
    ∃ slot, exec Slot.read {} (repliesTo Message.reply? requestId first) = some slot ∧
      slot.begun ≤ s.ids.count requestId := by
  obtain ⟨slot, hslot, hbegun⟩ := hs.inv.slot requestId
  obtain ⟨u, hu, hle⟩ := Slot.exec_first hslot ((hfirst.trans hs.sent.sent_prefix).filterMap _)
  exact ⟨u, hu, hle.trans hbegun⟩

end Bridge
end KimServing

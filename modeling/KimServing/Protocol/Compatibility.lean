import KimServing.Protocol.Pairing

/-! # The client and the worker agree about every request

While the connection lasts, what the client has dispatched is the first part of what
the worker has sent, and what the worker has received is the first part of what the
client has sent. So every answer is to a Submit that the client remembers, and a
request id comes back to the worker after the last word about its earlier use. Once
the client has failed it dispatches nothing any more.
-/
namespace KimServing
open Library Client Option List GenerationClient

namespace Pairing
section
variable [JsonLib] (dumps : Json → Except PyError (List UInt8)) (ack : HelloAck)

structure Regular (c : GenerationClient) : Prop where
  books : c.books.Inv
  launches : c.Launches
  posts : c.Posts
  sent : ∀ entry ∈ c.sent, ∃ payload, payloadOf dumps entry.2 = .ok payload
  cancels : ∀ k m, (c.threads k).pc.unsent = some (.reader, m) →
    ∃ frame, frameOf dumps ack m = .ok frame
  connection : ∀ x, c.connection = some x → c.connections ≠ 0 ∧ x.helloAck = ack

def InFlight (c : GenerationClient) (messages : List ServerMessage) : Prop :=
  (messages = [] ∧ ∀ k m, (c.threads k).pc ≠ .dispatch m) ∨
    ∃ k m, (c.threads k).pc = .dispatch m ∧ messages = [m]

/-- Both channels are prefixes of what the other side has sent. -/
structure Live (s : Pairing) : Prop where
  tracks : s.client.Tracks
  orderly : s.bridge.Orderly
  received : ∀ r, s.bridge.ids.count r = submitsOf r (s.client.sent.take s.taken)
  taken : s.taken ≤ s.client.sent.length
  read : s.read ≤ s.bridge.sent.length
  reader : s.client.OneReader
  arrived : ∃ messages, InFlight s.client messages ∧
    (s.bridge.sent.take s.read).map (arrival ack) = (s.client.dispatched ++ messages).map some
  unconnected : s.client.connections = 0 →
    s.client.requests = ∅ ∧ ∀ k, (s.client.threads k).pc.reading = false

def Failed (c : GenerationClient) : Prop := c.connections ≠ 0 ∧ c.connection = none

structure Inv (s : Pairing) : Prop where
  regular : Regular dumps ack s.client
  state : Failed s.client ∨ Live ack s

end

section
variable [JsonLib] {dumps : Json → Except PyError (List UInt8)} {ack : HelloAck}
variable {s t : Pairing} {k : ℕ}

/-! ## What the client has read -/

variable {m : ServerMessage}

theorem arrival_eq_some {m : Ipc.Message} {view : ServerMessage} (h : arrival ack m = some view) :
    serverView m = some view ∧ serverEpoch m = ack.workerEpoch ∧
      ∃ payload, Ipc.encodePayload m = .ok payload ∧
        payload.length ≤ ack.limits.maxFramePayloadBytes := by
  unfold arrival at h
  split at h
  · cases h
  · next payload hpayload =>
    split at h
    · next hfits => exact ⟨h, hfits.1, payload, hpayload, hfits.2⟩
    · cases h

omit [JsonLib] in
theorem reply?_of_serverView {m : Ipc.Message} {view : ServerMessage}
    (h : serverView m = some view) : view.reply? = m.reply? := by
  cases m <;> cases h <;> rfl

theorem repliesTo_arrived (requestId : ℕ) {messages : List Ipc.Message} {views : List ServerMessage}
    (h : messages.map (arrival ack) = views.map some) :
    repliesTo ServerMessage.reply? requestId views =
      repliesTo Ipc.Message.reply? requestId messages := by
  induction messages generalizing views with
  | nil =>
    cases views with
    | nil => rfl
    | cons => cases h
  | cons m messages ih =>
    cases views with
    | nil => cases h
    | cons view =>
      simp only [map_cons, List.cons.injEq] at h
      have hreply := reply?_of_serverView (arrival_eq_some h.1).1
      have hhead : repliesTo ServerMessage.reply? requestId [view] =
          repliesTo Ipc.Message.reply? requestId [m] := by
        simp [repliesTo, filterMap_cons, hreply]
      rw [repliesTo_cons _ _ view, repliesTo_cons _ _ m, hhead, ih h.2]

omit [JsonLib] in
theorem submitsOf_take_le (r n : ℕ) (sent : List (ℕ × ClientMessage)) :
    submitsOf r (sent.take n) ≤ submitsOf r sent :=
  (List.take_prefix n sent).sublist.countP_le

theorem Live.slot (h : Live ack s) (r : ℕ) : ∃ slot,
    exec Slot.read {} (repliesTo Ipc.Message.reply? r (s.bridge.sent.take s.read)) = some slot ∧
      slot.begun ≤ submitsOf r s.client.sent := by
  obtain ⟨slot, hslot, hbegun⟩ := h.orderly.slot (List.take_prefix s.read s.bridge.sent) r
  rw [h.received r] at hbegun
  exact ⟨slot, hslot, hbegun.trans (submitsOf_take_le r s.taken s.client.sent)⟩

theorem Live.dispatching (h : Live ack s) (hpc : (s.client.threads k).pc = .dispatch m) :
    (s.bridge.sent.take s.read).map (arrival ack) = (s.client.dispatched ++ [m]).map some := by
  obtain ⟨messages, ⟨rfl, hnone⟩ | ⟨j, m', hj, rfl⟩, harrived⟩ := h.arrived
  · exact absurd hpc (hnone k m)
  · obtain rfl : j = k := h.reader j k (by rw [hj]; rfl) (by rw [hpc]; rfl)
    rw [hj] at hpc
    cases hpc
    exact harrived

theorem Live.lawful (h : Live ack s) (hpc : (s.client.threads k).pc = .dispatch m) :
    s.client.Lawful m := by
  intro r
  obtain ⟨slot, hslot, hbegun⟩ := h.slot r
  rw [← repliesTo_arrived r (h.dispatching hpc)] at hslot
  exact ⟨slot, hslot, hbegun⟩

theorem Live.origin (h : Live ack s) (hpc : (s.client.threads k).pc = .dispatch m) :
    ∃ sent ∈ s.bridge.sent, arrival ack sent = some m := by
  have harrived := h.dispatching hpc
  have hmem : some m ∈ (s.bridge.sent.take s.read).map (arrival ack) := by
    rw [harrived]
    exact mem_map_of_mem (mem_append_right _ (mem_singleton_self m))
  obtain ⟨sent, hsent, heq⟩ := mem_map.mp hmem
  exact ⟨sent, mem_of_mem_take hsent, heq⟩

theorem Live.not_helloAck (h : Live ack s) (hpc : (s.client.threads k).pc = .dispatch m)
    (other : HelloAck) : m ≠ .helloAck other := by
  rintro rfl
  obtain ⟨sent, hsent, harrival⟩ := h.origin hpc
  have hview := (arrival_eq_some harrival).1
  have honly := h.orderly.only sent (h.orderly.sent.sent_prefix.subset hsent)
  cases sent with
  | helloAck => exact honly.elim Bool.false_ne_true Bool.false_ne_true
  | _ => cases hview

theorem Live.dispatch_ok (h : Live ack s) (hb : s.client.books.Inv) {c : Connection}
    (hc : s.client.connection = some c) (hpc : (s.client.threads k).pc = .dispatch m) :
    ∃ u next, s.client.dispatch m = .ok (u, next) :=
  h.tracks.dispatch_ok hb hc (h.not_helloAck hpc) (h.lawful hpc)

theorem Live.cancel_fits (h : Live ack s) (hr : Regular dumps ack s.client)
    (hdumps : PrintsCancels dumps) (hepoch : ack.workerEpoch < 2 ^ 64) {u : GenerationClient}
    {requestId workerEpoch : ℕ} (hpc : (s.client.threads k).pc = .dispatch m)
    (hdispatch : s.client.dispatch m = .ok (u, .sendCancel requestId workerEpoch)) :
    ∃ frame, frameOf dumps ack (.cancel requestId workerEpoch) = .ok frame := by
  obtain ⟨c, sequenceNo, tokenIds, hc, rfl, rfl⟩ :=
    dispatch_sendCancel hdispatch
  rw [(hr.connection c hc).2]
  obtain ⟨sent, hsent, harrival⟩ := h.origin hpc
  obtain ⟨hview, hserver, payload, hpayload, hfits⟩ := arrival_eq_some harrival
  -- the request was submitted, so its id is one that the encoder accepts
  have hid : requestId < 2 ^ 64 := by
    obtain ⟨slot, slot', n, hat, hread, -, hbegun, -, -⟩ := h.tracks.reads (h.lawful hpc) rfl
    have hpos : 0 < submitsOf requestId s.client.sent := by
      have hlt := (Slot.read_lt hread).trans_le hbegun
      omega
    obtain ⟨entry, hentry, hsubmits⟩ := countP_pos_iff.mp hpos
    obtain ⟨bytes, hbytes⟩ := hr.sent entry hentry
    obtain ⟨serial, message⟩ := entry
    cases message with
    | submit =>
      have hrange := (payloadOf_submit hbytes).2
      rw [of_decide_eq_true hsubmits] at hrange
      omega
    | cancel | health => cases hsubmits
  cases sent with
  | tokenDelta =>
    cases hview
    exact frameOf_cancel hdumps hepoch hpayload hfits hserver hid
  | _ => cases hview

/-! ## What the worker receives -/

theorem Live.answered_le (h : Live ack s) {r : ℕ} {slot : Slot}
    (hslot : exec Slot.read {} (repliesTo ServerMessage.reply? r s.client.dispatched) = some slot) :
    slot.answered ≤ finals r s.bridge.popped := by
  obtain ⟨messages, -, harrived⟩ := h.arrived
  have hreplies := repliesTo_arrived r harrived
  rw [repliesTo_append] at hreplies
  have hfirst : s.bridge.sent.take s.read <+: s.bridge.popped :=
    (List.take_prefix s.read s.bridge.sent).trans h.orderly.sent.sent_prefix
  calc slot.answered
      = (repliesTo ServerMessage.reply? r s.client.dispatched).countP Reply.isFinal := by
        rw [Slot.exec_answered hslot, Nat.zero_add]
    _ ≤ (repliesTo Ipc.Message.reply? r (s.bridge.sent.take s.read)).countP Reply.isFinal := by
        rw [← hreplies, countP_append]
        exact Nat.le_add_right _ _
    _ = finals r (s.bridge.sent.take s.read) := countP_repliesTo r _
    _ ≤ finals r s.bridge.popped := hfirst.sublist.countP_le

omit [JsonLib] in
theorem submitsOf_take_succ (r n : ℕ) {sent : List (ℕ × ClientMessage)} {entry : ℕ × ClientMessage}
    (hentry : sent[n]? = some entry) : submitsOf r (sent.take (n + 1)) =
      submitsOf r (sent.take n) + if entry.2.submits r then 1 else 0 := by
  rw [take_add_one, hentry]
  exact submitsOf_append r _ entry.1 entry.2

theorem Live.conforming (h : Live ack s) (hr : Regular dumps ack s.client)
    {entry : ℕ × ClientMessage} (hentry : s.client.sent[s.taken]? = some entry) :
    s.bridge.Conforming (.receive (workerView entry.2)) := by
  obtain ⟨payload, hpayload⟩ := hr.sent entry (mem_of_getElem? hentry)
  obtain ⟨serial, message⟩ := entry
  cases message with
  | cancel | health => trivial
  | submit request workerEpoch =>
    have hid : request.requestId = (request.requestId.toNat : ℤ) := by
      have hpositive := (payloadOf_submit hpayload).1
      omega
    show s.bridge.ids.count request.requestId.toNat ≤ finals request.requestId.toNat s.bridge.popped
    generalize hr' : request.requestId.toNat = r at hid ⊢
    obtain ⟨slot, hslot, hat⟩ := h.tracks.slots r
    -- this Submit is one more than those received, and at most one is not answered
    have hmore := submitsOf_take_succ r s.taken hentry
    rw [if_pos (show ClientMessage.submits r (.submit request workerEpoch) = true from
      decide_eq_true hid)] at hmore
    have hle := submitsOf_take_le r (s.taken + 1) s.client.sent
    have hsubmits := hat.submits
    have hone : (if s.client.outstanding r = true then 1 else 0) ≤ 1 := by split <;> omega
    have hanswered := h.answered_le hslot
    rw [h.received r]
    omega

end

/-! ## Steps of the client -/

section
variable {dumps : Json → Except PyError (List UInt8)} {ack : HelloAck} {k : ℕ}

variable {c d : GenerationClient} {choice : Choice}

structure Admits (dumps : Json → Except PyError (List UInt8)) (ack : HelloAck)
    (c : GenerationClient) (k : ℕ) (choice : Choice) (d : GenerationClient) : Prop where
  sends : ∀ caller m serial, choice = .go → (c.threads k).pc = .sending caller m serial →
    ∃ payload, payloadOf dumps m = .ok payload
  cancels : ∀ m u requestId workerEpoch, (c.threads k).pc = .dispatch m →
    c.dispatch m = .ok (u, .sendCancel requestId workerEpoch) →
      ∃ frame, frameOf dumps ack (.cancel requestId workerEpoch) = .ok frame
  publishes : ∀ other, (c.threads k).pc = .handshake → d = c.publish k other → other = ack

theorem Regular.thread (hr : Regular dumps ack c) (h : c.threadStep k choice = some d)
    (ha : Admits dumps ack c k choice d) : Regular dumps ack d := by
  have heffect := threadStep_effect h
  refine ⟨(Books.moves_keeps hr.books (heffect.moves hr.launches)).inv,
    hr.launches.step (live_of_threadStep h) heffect.alone, heffect.posts hr.posts,
    fun entry hentry => ?_, fun j m hj => ?_, fun x hx => ?_⟩
  · cases heffect.outline with
    | register request x hconnection ht | collect caller status hpc ht | publish other hpc ht =>
      exact hr.sent entry (by rw [ht] at hentry; exact hentry)
    | sent caller message serial hpc ht hsent =>
      rw [hsent] at hentry
      rcases mem_append.mp hentry with hold | hnew
      · exact hr.sent entry hold
      · rw [mem_singleton.mp hnew]
        exact ha.sends caller message serial (go_of_sent hpc h hsent) hpc
    | dispatch m u next hpc hdispatch ht | steady ht =>
      exact hr.sent entry (ht.sent ▸ hentry)
  · by_cases hjk : j = k
    · subst hjk
      rcases heffect.unsent_cases hj with hold | ⟨-, hne⟩ | ⟨m', u, requestId, workerEpoch, -, hpc,
        hdispatch, rfl⟩
      · exact hr.cancels j m hold
      · exact absurd rfl hne
      · exact ha.cancels m' u requestId workerEpoch hpc hdispatch
    · exact hr.cancels j m (heffect.alone.unsent hjk hj)
  · cases heffect.outline with
    | register request y hconnection ht =>
      rw [ht] at hx ⊢
      exact hr.connection x hx
    | sent caller message serial hpc ht | dispatch m u next hpc hdispatch ht =>
      rw [show d.connections = c.connections from ht.connections]
      exact hr.connection x (ht.connection ▸ hx)
    | collect caller status hpc ht =>
      rw [ht] at hx
      cases hx
    | publish other hpc ht =>
      obtain rfl := ha.publishes other hpc ht
      rw [ht] at hx ⊢
      cases hx
      exact ⟨Nat.succ_ne_zero _, rfl⟩
    | steady ht =>
      rw [ht.connections]
      exact hr.connection x (ht.connection ▸ hx)

theorem Failed.thread (hf : Failed c) (h : c.threadStep k choice = some d)
    (hpublish : ∀ other, (c.threads k).pc = .handshake →
      d ≠ c.publish k other) : Failed d := by
  cases (threadStep_effect h).outline with
  | register request x hconnection =>
    cases hf.2.symm.trans hconnection
  | sent caller message serial hpc ht | dispatch m u next hpc hdispatch ht | steady ht => exact ⟨fun h => hf.1 (ht.connections ▸ h), ht.connection.trans hf.2⟩
  | collect caller status hpc ht =>
    rw [ht]
    exact ⟨hf.1, rfl⟩
  | publish other hpc ht => exact absurd ht (hpublish other hpc)

theorem InFlight.thread {messages : List ServerMessage} (hm : InFlight c messages)
    (hlaunches : c.Launches) (h : c.threadStep k choice = some d)
    (hchoice : ∀ m, choice ≠ .message m) (hpc : ∀ m, (c.threads k).pc ≠ .dispatch m) :
    InFlight d messages := by
  rcases hm with ⟨rfl, hnone⟩ | ⟨j, m, hj, rfl⟩
  · exact Or.inl ⟨rfl, fun j m hj => hnone j m (dispatching_origin h hchoice hj).2⟩
  · have hjk : j ≠ k := by
      rintro rfl
      exact hpc m hj
    exact Or.inr ⟨j, m, dispatching_stays hlaunches h hjk hj, rfl⟩

theorem InFlight.dispatched (hreader : c.OneReader) {m : ServerMessage}
    (hpc : (c.threads k).pc = .dispatch m) (h : c.threadStep k choice = some d)
    (hchoice : ∀ m, choice ≠ .message m) : InFlight d [] := by
  refine Or.inl ⟨rfl, fun j m' hj => ?_⟩
  obtain ⟨hjk, hold⟩ := dispatching_origin h hchoice hj
  exact hjk (hreader j k (by rw [hold]; rfl) (by rw [hpc]; rfl))

end

section
variable [JsonLib] {dumps : Json → Except PyError (List UInt8)} {ack : HelloAck}
variable {s t : Pairing} {k : ℕ}

variable {d : GenerationClient} {choice : Choice}

theorem Live.of_client (h : Live ack s) (htracks : d.Tracks) (hsent : s.client.sent <+: d.sent)
    (hreader : d.OneReader) (harrived : ∃ messages, InFlight d messages ∧
      (s.bridge.sent.take s.read).map (arrival ack) = (d.dispatched ++ messages).map some)
    (hunconnected : d.connections = 0 →
      d.requests = ∅ ∧ ∀ j, (d.threads j).pc.reading = false) :
    Live ack { s with client := d } where
  tracks := htracks
  orderly := h.orderly
  received r := by
    obtain ⟨rest, hrest⟩ := hsent
    show s.bridge.ids.count r = submitsOf r (d.sent.take s.taken)
    rw [← hrest, take_append_of_le_length h.taken]
    exact h.received r
  taken := h.taken.trans hsent.length_le
  read := h.read
  reader := hreader
  arrived := harrived
  unconnected := hunconnected

theorem Live.unread (h : Live ack s) (hstep : s.client.threadStep k choice = some d)
    (hchoice : ∀ m, choice ≠ .message m) (hzero : s.client.connections = 0) (j : ℕ) :
    (d.threads j).pc.reading = false := by
  have hnone := (h.unconnected hzero).2
  by_contra hj
  rcases reading_origin hstep (fun _ => hchoice) (Bool.of_not_eq_false hj) with
    hold | ⟨hpc, -⟩
  · rw [hnone j] at hold
    cases hold
  · have hk := hnone k
    rw [hpc] at hk
    cases hk

theorem Live.steady (h : Live ack s) (hr : Regular dumps ack s.client)
    (hstep : s.client.threadStep k choice = some d) (hchoice : ∀ m, choice ≠ .message m)
    (hpc : ∀ m, (s.client.threads k).pc ≠ .dispatch m) (htracks : d.Tracks)
    (hsent : s.client.sent <+: d.sent) (hdispatched : d.dispatched = s.client.dispatched)
    (hempty : d.connections = 0 → s.client.connections = 0 ∧ d.requests = ∅) :
    Live ack { s with client := d } := by
  refine h.of_client htracks hsent (h.reader.step hstep fun _ => hchoice) ?_ (fun hzero => ?_)
  · obtain ⟨messages, hmessages, harrived⟩ := h.arrived
    rw [hdispatched]
    exact ⟨messages, hmessages.thread hr.launches hstep hchoice hpc, harrived⟩
  · exact ⟨(hempty hzero).2, h.unread hstep hchoice (hempty hzero).1⟩

theorem Live.thread (h : Live ack s) (hr : Regular dumps ack s.client)
    (hstep : s.client.threadStep k choice = some d) (hchoice : ∀ m, choice ≠ .message m)
    (hnot : ¬Failed s.client) : Failed d ∨ Live ack { s with client := d } := by
  have heffect := threadStep_effect hstep
  by_cases hdispatching : ∃ m, (s.client.threads k).pc = .dispatch m
  · obtain ⟨m, hpc⟩ := hdispatching
    have hread : (s.client.threads k).pc.reading = true := by rw [hpc]; rfl
    -- the reader runs, so the client has connected and has not failed
    have hone : s.client.connections ≠ 0 := by
      intro hzero
      rw [(h.unconnected hzero).2 k] at hread
      cases hread
    cases hc : s.client.connection with
    | none => exact absurd ⟨hone, hc⟩ hnot
    | some =>
      obtain ⟨u, next, hdispatch⟩ := h.dispatch_ok hr.books hc hpc
      have ht := threadStep_dispatch hpc hdispatch hstep
      obtain ⟨-, hconnections, hsent, hdispatched, -⟩ :=
        dispatch_steady (dispatch_dispatches hdispatch)
      refine Or.inr (h.of_client ?_ ?_ (h.reader.step hstep fun _ => hchoice) ⟨[], ?_, ?_⟩ ?_)
      · rw [ht]
        exact dispatch_tracks h.tracks hr.books hpc (h.lawful hpc) hdispatch
      · rw [ht]
        exact hsent ▸ prefix_rfl
      · exact InFlight.dispatched h.reader hpc hstep hchoice
      · rw [ht, append_nil]
        show _ = (u.dispatched ++ [m]).map some
        rw [hdispatched]
        exact h.dispatching hpc
      · intro hzero
        rw [ht] at hzero
        exact absurd (hconnections.symm.trans hzero) hone
  · have hpc : ∀ m, (s.client.threads k).pc ≠ .dispatch m := fun m hm => hdispatching ⟨m, hm⟩
    have htracks : (∀ caller status, (s.client.threads k).pc ≠ .fail caller status) → d.Tracks :=
      heffect.tracks h.tracks hr.books hr.posts (fun m hm => absurd hm (hpc m))
    by_cases hfails : ∃ caller status, (s.client.threads k).pc = .fail caller status
    · obtain ⟨caller, status, hfail⟩ := hfails
      have ht := threadStep_fail hfail hstep
      by_cases hzero : s.client.connections = 0
      · -- `close` before `connect`
        have hempty := (h.unconnected hzero).1
        refine Or.inr (h.steady hr hstep hchoice hpc ?_ ?_ ?_ (fun _ => ⟨hzero, ?_⟩))
        · rw [ht]
          exact collect_tracks h.tracks hempty hfail
        all_goals rw [ht]
        · exact prefix_rfl
        · rfl
        · rfl
      · rw [ht]
        exact Or.inl ⟨hzero, rfl⟩
    · have hlive := h.steady hr hstep hchoice hpc
        (htracks fun caller status hfail => hfails ⟨caller, status, hfail⟩)
      refine Or.inr ?_
      cases heffect.outline with
      | register request c hconnection ht =>
        have hone := (hr.connection c hconnection).1
        refine hlive ?_ ?_ (fun hzero => ?_)
        · exact ht ▸ prefix_rfl
        · exact ht ▸ rfl
        · rw [ht] at hzero
          exact absurd hzero hone
      | sent caller message serial hplace ht hsent =>
        refine hlive (hsent ▸ prefix_append _ _) ht.dispatched (fun hzero => ?_)
        have hold := ht.connections.symm.trans hzero
        exact ⟨hold, ht.requests (h.unconnected hold).1⟩
      | collect caller status hfail => exact absurd ⟨caller, status, hfail⟩ hfails
      | dispatch m u next hm => exact absurd hm (hpc m)
      | publish other hhandshake ht =>
        exact (not_publish hhandshake hchoice (ht ▸ hstep)).elim
      | steady ht =>
        refine hlive (ht.sent ▸ prefix_rfl) ht.dispatched (fun hzero => ?_)
        have hold := ht.connections.symm.trans hzero
        exact ⟨hold, ht.requests (h.unconnected hold).1⟩

omit [JsonLib] in
theorem Regular.calls {c : GenerationClient} (hr : Regular dumps ack c) (h : c.Calls d) :
    Regular dumps ack d where
  books := h.books hr.books
  launches := h.launches
  posts j caller message hj := hr.posts j caller message (h.unsent hj)
  sent entry hentry := hr.sent entry (h.steady.sent ▸ hentry)
  cancels j m hj := hr.cancels j m (h.unsent hj)
  connection x hx := by
    rw [h.steady.connections]
    exact hr.connection x (h.steady.connection ▸ hx)

theorem Live.calls (h : Live ack s) (hcalls : s.client.Calls d) :
    Live ack { s with client := d } := by
  obtain ⟨messages, hmessages, harrived⟩ := h.arrived
  refine h.of_client (hcalls.tracks h.tracks) (hcalls.steady.sent ▸ prefix_rfl)
    (fun i j hi hj => h.reader i j (hcalls.reading hi) (hcalls.reading hj))
    ⟨messages, ?_, hcalls.steady.dispatched ▸ harrived⟩ (fun hzero => ?_)
  · rcases hmessages with ⟨rfl, hnone⟩ | ⟨j, m, hj, rfl⟩
    · exact Or.inl ⟨rfl, fun j m hj => hnone j m ((hcalls.dispatching j m).mp hj)⟩
    · exact Or.inr ⟨j, m, (hcalls.dispatching j m).mpr hj, rfl⟩
  · obtain ⟨hempty, hnone⟩ := h.unconnected (hcalls.steady.connections.symm.trans hzero)
    refine ⟨hcalls.steady.requests hempty, fun j => ?_⟩
    by_contra hj
    have hold := hcalls.reading (Bool.of_not_eq_false hj)
    rw [hnone j] at hold
    cases hold

theorem Live.acknowledge (h : Live ack s) (hr : Regular dumps ack s.client)
    (hpc : (s.client.threads k).pc = .handshake) (hzero : s.client.connections = 0)
    (hstep : s.client.threadStep k (.message (.helloAck ack)) = some d) :
    Live ack { s with client := d } := by
  have heffect := threadStep_effect hstep
  obtain ⟨hempty, hnone⟩ := h.unconnected hzero
  have htracks : d.Tracks := heffect.tracks h.tracks hr.books hr.posts
    (fun m hm => by rw [hpc] at hm; cases hm) (fun caller status hfail => by rw [hpc] at hfail; cases hfail)
  -- nobody else has become the reader
  have honly : ∀ j, (d.threads j).pc.reading = true → j = k := by
    intro j hj
    by_contra hjk
    rcases heffect.alone.others j hjk with hsame | ⟨hlaunching, -⟩
    · rw [hsame, hnone j] at hj
      cases hj
    · rw [hpc] at hlaunching
      cases hlaunching
  have hdispatching : ∀ j m, (d.threads j).pc ≠ .dispatch m := by
    intro j m hj
    obtain rfl := honly j (by rw [hj]; rfl)
    obtain ⟨c, hreceiving⟩ := heffect.turns.2 m hj
    cases hpc.symm.trans hreceiving
  have hlive : s.client.sent = d.sent → d.dispatched = s.client.dispatched →
      (d.connections = 0 → d.requests = ∅ ∧ ∀ j, (d.threads j).pc.reading = false) →
      Live ack { s with client := d } := by
    intro hsent hdispatched hunconnected
    obtain ⟨messages, ⟨rfl, -⟩ | ⟨j, m, hj, -⟩, harrived⟩ := h.arrived
    · exact h.of_client htracks (hsent ▸ prefix_rfl)
        (fun i j hi hj => (honly i hi).trans (honly j hj).symm)
        ⟨[], Or.inl ⟨rfl, hdispatching⟩, hdispatched ▸ harrived⟩ hunconnected
    · have hread := hnone j
      rw [hj] at hread
      cases hread
  rw [threadStep, hpc] at hstep
  simp only [stepAt] at hstep
  split at hstep
  · cases hstep
    refine hlive rfl rfl (fun _ => ⟨hempty, fun j => ?_⟩)
    by_contra hj
    obtain rfl := honly j (Bool.of_not_eq_false hj)
    simp [raiseConnect, Pc.reading] at hj
  · cases hstep
    exact hlive rfl rfl (fun hzero => absurd hzero (Nat.succ_ne_zero _))

theorem Live.toClient (h : Live ack s) (hr : Regular dumps ack s.client) {c : Connection}
    {m : Ipc.Message} {view : ServerMessage} (hpc : (s.client.threads k).pc = .receiving c)
    (hm : s.bridge.sent[s.read]? = some m) (hview : arrival ack m = some view)
    (hstep : s.client.threadStep k (.message view) = some d) :
    Live ack { s with client := d, read := s.read + 1 } := by
  have htracks : d.Tracks := (threadStep_effect hstep).tracks h.tracks hr.books
    hr.posts (fun m hm => by rw [hpc] at hm; cases hm)
    (fun caller status hfail => by rw [hpc] at hfail; cases hfail)
  have hreader := h.reader.step hstep (fun hhandshake => by rw [hpc] at hhandshake; cases hhandshake)
  have hread : (s.client.threads k).pc.reading = true := by rw [hpc]; rfl
  have hone : s.client.connections ≠ 0 := by
    intro hzero
    rw [(h.unconnected hzero).2 k] at hread
    cases hread
  rw [threadStep, hpc] at hstep
  cases hstep
  obtain ⟨hlt, -⟩ := List.getElem?_eq_some_iff.mp hm
  refine ⟨htracks, h.orderly, h.received, h.taken, hlt, hreader, ⟨[view], ?_, ?_⟩,
    fun hzero => absurd hzero hone⟩
  · exact Or.inr ⟨k, view, setPc_self _ _ _, rfl⟩
  · obtain ⟨messages, ⟨rfl, -⟩ | ⟨j, m', hj, -⟩, harrived⟩ := h.arrived
    · rw [append_nil] at harrived
      show (s.bridge.sent.take (s.read + 1)).map (arrival ack) = _
      rw [take_add_one, hm, map_append, harrived, map_append]
      simp [hview, setPc]
    · -- the reader is not dispatching while it receives
      obtain rfl := h.reader j k (by rw [hj]; rfl) hread
      cases hpc.symm.trans hj

/-! ## Steps of the worker -/

theorem Live.of_bridge (h : Live ack s) {b : Bridge} {taken : ℕ} (horderly : b.Orderly)
    (hsent : s.bridge.sent <+: b.sent)
    (hreceived : ∀ r, b.ids.count r = submitsOf r (s.client.sent.take taken))
    (htaken : taken ≤ s.client.sent.length) :
    Live ack { s with bridge := b, taken := taken } where
  tracks := h.tracks
  orderly := horderly
  received := hreceived
  taken := htaken
  read := h.read.trans hsent.length_le
  reader := h.reader
  arrived := by
    obtain ⟨rest, hrest⟩ := hsent
    show ∃ messages, _ ∧ (b.sent.take s.read).map (arrival ack) = _
    rw [← hrest, take_append_of_le_length h.read]
    exact h.arrived
  unconnected := h.unconnected

theorem Live.worker (h : Live ack s) {a : BridgeAction} {b : Bridge} (ha : ∀ m, a ≠ .receive m)
    (hstep : s.bridge.step a = some b) : Live ack { s with bridge := b } := by
  have hconforming : s.bridge.Conforming a := by
    cases a with
    | receive m => exact absurd rfl (ha m)
    | _ => trivial
  refine h.of_bridge (h.orderly.step hconforming hstep) (Bridge.step_sent hstep) (fun r => ?_) h.taken
  rw [Bridge.step_ids ha hstep]
  exact h.received r

theorem Live.toWorker (h : Live ack s) (hr : Regular dumps ack s.client) {b : Bridge}
    {entry : ℕ × ClientMessage} (hentry : s.client.sent[s.taken]? = some entry)
    (hstep : s.bridge.step (.receive (workerView entry.2)) = some b) :
    Live ack { s with bridge := b, taken := s.taken + 1 } := by
  obtain ⟨hlt, -⟩ := List.getElem?_eq_some_iff.mp hentry
  refine h.of_bridge (h.orderly.step (h.conforming hr hentry) hstep) (Bridge.step_sent hstep)
    (fun r => ?_) hlt
  rw [submitsOf_take_succ r s.taken hentry, ← h.received r, Bridge.receive_ids hstep]
  obtain ⟨payload, hpayload⟩ := hr.sent entry (mem_of_getElem? hentry)
  obtain ⟨serial, message⟩ := entry
  cases message with
  | cancel | health => rfl
  | submit request =>
    have hpositive := (payloadOf_submit hpayload).1
    have hiff : request.requestId.toNat = r ↔ request.requestId = (r : ℤ) := by omega
    simp only [workerView, submitView, ClientMessage.submits, count_cons, beq_iff_eq, hiff,
      decide_eq_true_eq]

/-! ## Runs -/

omit [JsonLib] in
theorem not_message_of_permits {pc : Pc} (h : permits dumps ack pc choice = true)
    (m : ServerMessage) : choice ≠ .message m := by
  rintro rfl
  simp [permits] at h

omit [JsonLib] in
theorem payload_of_permits {caller : Caller} {m : ClientMessage} {serial : ℕ}
    (h : permits dumps ack (.sending caller m serial) .go = true) :
    ∃ payload, payloadOf dumps m = .ok payload := by
  simp only [permits] at h
  cases hframe : frameOf dumps ack m with
  | ok => exact payloadOf_of_frameOf hframe
  | error =>
    rw [hframe] at h
    cases h

theorem Inv.clientStep (hs : Inv dumps ack s) (hdumps : PrintsCancels dumps)
    (hepoch : ack.workerEpoch < 2 ^ 64) {a : ClientAction} (h : s.clientStep dumps ack a = some t) :
    Inv dumps ack t := by
  have hcalls : (∀ k choice, a ≠ .thread k choice) → Inv dumps ack t := by
    intro ha
    have hmap : (s.client.step a).map (fun client => { s with client := client }) = some t := by
      cases a with
      | thread k choice => exact absurd rfl (ha k choice)
      | _ => exact h
    obtain ⟨d, hd, rfl⟩ := map_eq_some_iff.mp hmap
    have hcalls := step_calls hs.regular.launches ha hd
    refine ⟨hs.regular.calls hcalls, hs.state.imp (fun hf => ?_) (fun hl => hl.calls hcalls)⟩
    exact ⟨fun hzero => hf.1 (hcalls.steady.connections ▸ hzero), hcalls.steady.connection.trans hf.2⟩
  cases a with
  | thread k =>
    simp only [Pairing.clientStep] at h
    split at h
    · next hpermits =>
      obtain ⟨d, hd, rfl⟩ := map_eq_some_iff.mp h
      have hchoice := not_message_of_permits hpermits
      have hpublish : ∀ other, (s.client.threads k).pc = .handshake → d ≠ s.client.publish k other := by
        rintro other hpc rfl
        exact not_publish hpc hchoice hd
      refine ⟨hs.regular.thread hd ⟨?_, ?_, ?_⟩, ?_⟩
      · rintro caller m serial rfl hpc
        rw [hpc] at hpermits
        exact payload_of_permits hpermits
      · intro m u requestId workerEpoch hpc hdispatch
        obtain hf | hl := hs.state
        · simp [dispatch, hf.2] at hdispatch
        · exact hl.cancel_fits hs.regular hdumps hepoch hpc hdispatch
      · exact fun other hpc hd => absurd hd (hpublish other hpc)
      · by_cases hf : Failed s.client
        · exact Or.inl (hf.thread hd hpublish)
        · exact (hs.state.resolve_left hf).thread hs.regular hd hchoice hf
    · cases h
  | submit | cancel | health | close | connect | nextEvent =>
    exact hcalls (by simp)

theorem Inv.acknowledge (hs : Inv dumps ack s) (h : s.acknowledge ack k = some t) :
    Inv dumps ack t := by
  unfold Pairing.acknowledge at h
  split at h
  · next hpc =>
    split at h
    · next hzero =>
      obtain ⟨d, hd, rfl⟩ := map_eq_some_iff.mp h
      have hl := hs.state.resolve_left (fun hf => hf.1 hzero)
      refine ⟨hs.regular.thread hd ⟨?_, ?_, ?_⟩, Or.inr (hl.acknowledge hs.regular hpc hzero hd)⟩
      · intro caller m serial hgo
        cases hgo
      · intro m u requestId workerEpoch hm
        cases hpc.symm.trans hm
      · rintro other - rfl
        exact publish_of_helloAck hpc hd
    · cases h
  · cases h

theorem Inv.workerStep (hs : Inv dumps ack s) {a : BridgeAction} (h : s.workerStep a = some t) :
    Inv dumps ack t := by
  have hmoves : (∀ m, a ≠ .receive m) → Inv dumps ack t := by
    intro ha
    have hmap : (s.bridge.step a).map (fun bridge => { s with bridge := bridge }) = some t := by
      cases a with
      | receive m => exact absurd rfl (ha m)
      | _ => exact h
    obtain ⟨b, hb, rfl⟩ := map_eq_some_iff.mp hmap
    exact ⟨hs.regular, hs.state.imp_right fun hl => hl.worker ha hb⟩
  cases a with
  | receive => cases h
  | _ => exact hmoves (by simp)

theorem Inv.toWorker (hs : Inv dumps ack s) (h : s.toWorker = some t) : Inv dumps ack t := by
  obtain ⟨entry, hentry, h⟩ := bind_eq_some_iff.mp h
  obtain ⟨b, hb, h⟩ := bind_eq_some_iff.mp h
  cases h
  exact ⟨hs.regular, hs.state.imp_right fun hl => hl.toWorker hs.regular hentry hb⟩

theorem Inv.toClient (hs : Inv dumps ack s) (h : s.toClient ack k = some t) : Inv dumps ack t := by
  unfold Pairing.toClient at h
  split at h
  · next c hpc =>
    obtain ⟨m, hm, h⟩ := bind_eq_some_iff.mp h
    obtain ⟨view, hview, h⟩ := bind_eq_some_iff.mp h
    obtain ⟨d, hd, h⟩ := bind_eq_some_iff.mp h
    cases h
    have hhandshake : (s.client.threads k).pc ≠ .handshake := by simp [hpc]
    refine ⟨hs.regular.thread hd ⟨?_, ?_, ?_⟩, hs.state.imp (fun hf => ?_)
      (fun hl => hl.toClient hs.regular hpc hm hview hd)⟩
    · intro caller m serial hgo
      cases hgo
    · intro m u requestId workerEpoch hm
      cases hpc.symm.trans hm
    · exact fun other hpc => absurd hpc hhandshake
    · exact hf.thread hd (fun other hpc => absurd hpc hhandshake)
  · cases h

theorem Inv.step (hs : Inv dumps ack s) (hdumps : PrintsCancels dumps)
    (hepoch : ack.workerEpoch < 2 ^ 64) {a : PairingAction} (h : s.step dumps ack a = some t) :
    Inv dumps ack t := by
  cases a with
  | client => exact hs.clientStep hdumps hepoch h
  | acknowledge => exact hs.acknowledge h
  | worker => exact hs.workerStep h
  | toWorker => exact hs.toWorker h
  | toClient => exact hs.toClient h

theorem start_inv {config : GenerationClientConfig} {c : RuntimeBridgeConfig} {e : Ipc.SessionEgress}
    (he : Ipc.SessionEgress.create c.makeEgressConfig = .ok e) :
    Inv dumps ack (start config c e) := by
  have hclient := initial_inv config
  refine ⟨⟨hclient.books, hclient.launches, ?_, ?_, ?_, ?_⟩, Or.inr ?_⟩
  · intro k caller message h
    cases h
  · intro entry h
    cases h
  · intro k m h
    cases h
  · nofun
  · refine ⟨⟨fun r => ⟨{}, rfl, rfl, Nat.le_refl 0, ?_⟩, ?_, fun n _ => rfl⟩,
      Bridge.initial_orderly he, fun r => rfl, Nat.le_refl 0, Nat.le_refl 0, ?_, ⟨[], ?_, rfl⟩, ?_⟩
    · nofun
    · nofun
    · nofun
    · exact Or.inl ⟨rfl, nofun⟩
    · exact fun _ => ⟨rfl, fun _ => rfl⟩

theorem Inv.not_refuses (hs : Inv dumps ack s) (text : List UInt8) : ¬s.Refuses dumps ack k text := by
  unfold Refuses
  split
  · next m hpc =>
    rintro ⟨e, he, rfl⟩
    cases hc : s.client.connection with
    | none =>
      simp only [dispatch, hc] at he
      cases he
    | some =>
      have hl := hs.state.resolve_left (fun hf => by rw [hf.2] at hc; cases hc)
      obtain ⟨u, next, hok⟩ := hl.dispatch_ok hs.regular.books hc hpc
      cases hok.symm.trans he
  · next n terminal hpc =>
    have hmem : (n, some terminal) ∈ s.client.books.held k := by
      simp only [books, hpc]
      exact mem_singleton_self _
    have hnone : (s.client.states n).events.terminal = none :=
      (hs.regular.books.of_held hmem).2.2.1
    simp [hnone]
  · next m hpc =>
    obtain ⟨frame, hframe⟩ := hs.regular.cancels k m (by rw [hpc]; rfl)
    obtain ⟨payload, hpayload⟩ := payloadOf_of_frameOf hframe
    simp [hpayload]
  · next m serial hpc =>
    obtain ⟨frame, hframe⟩ := hs.regular.cancels k m (by rw [hpc]; rfl)
    simp [hframe]
  · exact id

end
end Pairing

/-- For every interleaving of the threads of a client, the threads of a worker, the
backend and both channels, `_dispatch` raises no `ProtocolError`. -/
theorem dispatch_never_refuses [JsonLib] (dumps : Json → Except PyError (List UInt8)) (ack : HelloAck)
    (config : GenerationClientConfig) (c : RuntimeBridgeConfig) (e : Ipc.SessionEgress)
    (run : List PairingAction) (s : Pairing) (k : ℕ) (text : List UInt8)
    (he : Ipc.SessionEgress.create c.makeEgressConfig = .ok e) (hdumps : PrintsCancels dumps)
    (hepoch : ack.workerEpoch < 2 ^ 64)
    (hrun : exec (Pairing.step dumps ack) (.start config c e) run = some s) :
    ¬s.Refuses dumps ack k text :=
  (exec_preserves (I := Pairing.Inv dumps ack) (fun _ _ _ hs h => hs.step hdumps hepoch h)
    (Pairing.start_inv he) hrun).not_refuses text

/-! ## A run in which a Cancel and a Terminal cross -/

def smallAck : HelloAck where
  workerEpoch := 1
  manifest := {
    modelId := utf8 "m", revision := utf8 "r", tokenizerFingerprint := utf8 "t"
    chatTemplateFingerprint := utf8 "c", engineFingerprint := utf8 "e", precision := utf8 "p"
    maxInputTokens := 4, maxOutputTokens := 4, maxSequenceTokens := 8, maxBatchSize := 1 }
  limits := ordinaryLimits

def narrowClient : GenerationClientConfig :=
  { expectedManifest := smallAck.manifest, maxDeltaEventsPerRequest := 1 }

def clientMoves (k n : ℕ) : List PairingAction := List.replicate n (.client (.thread k .go))

def handlerMoves (n : ℕ) : List PairingAction := List.replicate n (.worker (.handler {}))

def pumpMoves (n : ℕ) : List PairingAction := List.replicate n (.worker (.pump 0 {}))

def writerMoves (n : ℕ) : List PairingAction := List.replicate n (.worker (.writer {}))

def connecting : List PairingAction :=
  [.client .connect] ++ clientMoves 0 1 ++ [.acknowledge 0] ++ clientMoves 0 2

def submitting (k : ℕ) : List PairingAction :=
  [.client (.submit { requestId := 7, inputTokenIds := [1], maxNewTokens := 4 })] ++ clientMoves k 5

def answering (submission : Submission) (n : ℕ) : List PairingAction :=
  [.toWorker] ++ handlerMoves 2 ++ [.worker (.handler { submission := submission })] ++ handlerMoves n

def generating : List PairingAction :=
  [.worker (.backend 0 .markRunning), .worker (.backend 0 (.tryCommitDelta [5])),
    .worker (.backend 0 .finish), .worker (.backend 0 (.tryCommitDelta [6])),
    .worker (.backend 0 .finish), .worker (.backend 0 (.finalize .success (some .eos)))] ++
    pumpMoves 13 ++ writerMoves 16

def reading : List PairingAction := clientMoves 1 1 ++ [.toClient 1] ++ clientMoves 1 1

/-- The second delta has no room, and the reader cancels a request whose Terminal is on
its way. After the Terminal the id is used again, and that Submit is rejected. -/
def crossingRun : List PairingAction :=
  connecting ++ submitting 2 ++ answering (.accepted 1 1 {}) 5 ++ generating ++
    reading ++ reading ++ reading ++ clientMoves 1 4 ++ reading ++ clientMoves 1 1 ++
    submitting 3 ++ [.toWorker] ++ handlerMoves 6 ++ pumpMoves 2 ++
    answering (.refused (failure .resourceExhausted "full")) 2 ++ writerMoves 4 ++ reading

theorem printsCancels_compactText [JsonLib] :
    PrintsCancels (fun value => .ok (compactText value)) := by
  refine fun requestId workerEpoch => ⟨_, rfl, ?_⟩
  rw [cancelDict, Json.length_dump_obj (by simp)]
  simp [compactText, compactFields, Json.bracket, Json.fieldText, Json.fieldWidth,
    Ipc.nameJson, Ipc.natJson]
  omega

theorem dispatch_never_refuses_crossing :
    ∃ s, exec (@Pairing.step Ipc.plainJson (fun value => .ok (@compactText Ipc.plainJson value))
        smallAck) (.start narrowClient (.ofLimits 1 ordinaryLimits)
          { config := (RuntimeBridgeConfig.ofLimits 1 ordinaryLimits).makeEgressConfig })
        crossingRun = some s ∧
      repliesTo ServerMessage.reply? 7 s.client.dispatched =
        [.accepted, .delta 0, .delta 1, .terminal, .rejected] ∧
      ∀ k text, ¬s.Refuses (fun value => .ok (@compactText Ipc.plainJson value)) smallAck k text := by
  have hrun : (exec (@Pairing.step Ipc.plainJson (fun value => .ok (@compactText Ipc.plainJson value))
      smallAck) (.start narrowClient (.ofLimits 1 ordinaryLimits)
        { config := (RuntimeBridgeConfig.ofLimits 1 ordinaryLimits).makeEgressConfig })
      crossingRun).any (fun s => repliesTo ServerMessage.reply? 7 s.client.dispatched =
        [.accepted, .delta 0, .delta 1, .terminal, .rejected]) = true := by
    decide +kernel
  obtain ⟨s, hs, hreplies⟩ := (Option.any_eq_true _ _).mp hrun
  exact ⟨s, hs, of_decide_eq_true hreplies, fun k text =>
    @dispatch_never_refuses Ipc.plainJson _ _ _ _ _ _ s k text rfl
      (@printsCancels_compactText Ipc.plainJson) (by decide) hs⟩

end KimServing

import KimServing.Worker.EgressView

/-! # Who is registered at the egress

A request is registered until its Terminal is taken or it is abandoned. For every operation
of the egress this module says how the registrations change; what the queues hold does not
matter for it.
-/
namespace KimServing.Ipc
open Library

namespace SessionEgress

variable {requestId : ℕ} {e' : SessionEgress}

def registration (e : SessionEgress) (requestId : ℕ) : Option Bool :=
  (e.requests.lookup requestId).map RequestQueue.terminalEnqueued

theorem registration_eq_some {e : SessionEgress} {flag : Bool} :
    e.registration requestId = some flag ↔
      ∃ queue, e.requests.lookup requestId = some queue ∧ queue.terminalEnqueued = flag :=
  Option.map_eq_some_iff

theorem registration_eq_none {e : SessionEgress} :
    e.registration requestId = none ↔ e.requests.lookup requestId = none :=
  Option.map_eq_none_iff

theorem registration_insert {e : SessionEgress} {queue : RequestQueue}
    (h : e'.requests = e.requests.insert requestId queue) (r : ℕ) :
    e'.registration r =
      if r = requestId then some queue.terminalEnqueued else e.registration r := by
  unfold registration
  rw [h, lookup_insert_eq]
  split <;> rfl

theorem registration_erase {e : SessionEgress} (h : e'.requests = e.requests.erase requestId)
    (r : ℕ) : e'.registration r = if r = requestId then none else e.registration r := by
  unfold registration
  rw [h, lookup_erase_eq]
  split <;> rfl

theorem registration_replace {e : SessionEgress} {queue queue' : RequestQueue}
    (hq : e.requests.lookup requestId = some queue)
    (h : e'.requests = e.requests.insert requestId queue')
    (hflag : queue'.terminalEnqueued = queue.terminalEnqueued) (r : ℕ) :
    e'.registration r = e.registration r := by
  rw [registration_insert h]
  split
  · next hr =>
    rw [hr, hflag]
    exact (registration_eq_some.mpr ⟨queue, hq, rfl⟩).symm
  · rfl

/-! ## Operations -/

variable {e : SessionEgress}

theorem registerRequest_registration (e : SessionEgress) (requestId : ℕ) :
    ((e.registerRequest requestId).1.isOk = false ∧ (e.registerRequest requestId).2 = e) ∨
    ((e.registerRequest requestId).1.isOk = true ∧ e.registration requestId = none ∧
      (e.registerRequest requestId).2.control = e.control ∧
      ∀ r, (e.registerRequest requestId).2.registration r =
        if r = requestId then some false else e.registration r) := by
  rcases e.registerRequest_cases requestId with h | ⟨-, -, hnew, -, -, h⟩
  · exact Or.inl h
  · rw [h]
    refine Or.inr ⟨rfl, registration_eq_none.mpr hnew, rfl, fun r => ?_⟩
    rw [registration_insert (e := e) (by exact rfl)]

theorem abandonRequest_registration (e : SessionEgress) (requestId r : ℕ) :
    (e.abandonRequest requestId).2.registration r =
      if r = requestId then none else e.registration r := by
  unfold abandonRequest
  cases hq : e.requests.lookup requestId with
  | none =>
    dsimp only
    split
    · next hr =>
      rw [hr]
      exact registration_eq_none.mpr hq
    · rfl
  | some => rw [registration_erase (e := e) (by exact rfl)]

theorem abandonRequest_control (e : SessionEgress) (requestId : ℕ) :
    (e.abandonRequest requestId).2.control = e.control := by
  unfold abandonRequest
  split <;> rfl

section Enqueue
variable [JsonLib]

theorem enqueueControl_registration (e : SessionEgress) (m : Message) (r : ℕ) :
    (e.enqueueControl m).2.registration r = e.registration r := by
  rcases e.enqueueControl_cases m with ⟨result, -, h⟩ | ⟨sized, -, -, -, -, -, h⟩
  · rw [h]
  · rw [h]
    rfl

theorem enqueueControl_control (e : SessionEgress) (m : Message)
    (h : ∀ queued ∈ e.control, isControl queued.message = true) :
    ∀ queued ∈ (e.enqueueControl m).2.control, isControl queued.message = true := by
  rcases e.enqueueControl_cases m with ⟨result, -, heq⟩ | ⟨sized, hm, hs, -, -, -, heq⟩
  · rw [heq]
    exact h
  · rw [heq]
    intro queued hqueued
    rcases List.mem_append.mp hqueued with hold | hnew
    · exact h queued hold
    · rw [List.mem_singleton.mp hnew, sizeMessage_message hs]
      exact hm

theorem enqueueDelta_registration (e : SessionEgress) (requestId : ℕ) (m : Message) :
    (e.enqueueDelta requestId m).2.control = e.control ∧
      ∀ r, (e.enqueueDelta requestId m).2.registration r = e.registration r := by
  rcases e.enqueueDelta_cases requestId m with
    ⟨result, -, h⟩ | ⟨delta, sized, queue, -, -, -, -, hq, -, -, -, -, -, h⟩
  · rw [h]
    exact ⟨rfl, fun _ => rfl⟩
  · rw [h]
    exact ⟨rfl, registration_replace hq rfl rfl⟩

theorem enqueueTerminal_registration (e : SessionEgress) (requestId : ℕ) (m : Message) :
    ((e.enqueueTerminal requestId m).1.code ≠ .enqueued ∧
      (e.enqueueTerminal requestId m).2 = e) ∨
    ((e.enqueueTerminal requestId m).1.code = .enqueued ∧
      e.registration requestId = some false ∧
      (e.enqueueTerminal requestId m).2.control = e.control ∧
      ∀ r, (e.enqueueTerminal requestId m).2.registration r =
        if r = requestId then some true else e.registration r) := by
  rcases e.enqueueTerminal_cases requestId m with
    ⟨result, hresult, h⟩ | ⟨terminal, sized, queue, -, -, -, -, hq, hopen, -, -, -, h⟩
  · rw [h]
    exact Or.inl ⟨hresult, rfl⟩
  · rw [h]
    refine Or.inr ⟨rfl, registration_eq_some.mpr ⟨queue, hq, hopen⟩, rfl, fun r => ?_⟩
    rw [registration_insert (e := e) (by exact rfl)]

end Enqueue

theorem popQueue_registration (he : EgressInv e) {id : ℕ} {rest : List ℕ} {q : RequestQueue}
    {queued : SizedMessage} {messages : List SizedMessage} (hq : e.requests.lookup id = some q)
    (hm : q.messages = queued :: messages) (r : ℕ) :
    (e.popQueue id rest q queued messages).registration r =
      if queued.message.isTerminal = true ∧ r = id then none else e.registration r := by
  have hhead := (he.queues id q hq).terminalLast.head hm
  unfold popQueue
  dsimp only
  by_cases hterminal : queued.message.isTerminal = true
  · have hnil : messages = [] := (hhead.mp hterminal).2
    rw [if_neg (by simp [hnil]), if_pos hterminal, registration_erase (e := e) (by exact rfl)]
    simp [hterminal]
  · rw [if_neg (c := queued.message.isTerminal = true ∧ r = id) (by simp [hterminal])]
    split
    · exact registration_replace hq (by exact rfl) (by exact rfl) r
    · exact registration_replace hq (by exact rfl) (by exact rfl) r

theorem waitPop_registration (he : EgressView e)
    (hcontrol : ∀ queued ∈ e.control, isControl queued.message = true) (timeout : ℤ) :
    ((∀ m, (e.waitPop timeout).1 ≠ .message m) ∧ (e.waitPop timeout).2 = e) ∨
    ∃ m, (e.waitPop timeout).1 = .message m ∧
      (∀ queued ∈ (e.waitPop timeout).2.control, isControl queued.message = true) ∧
      ∀ r, (e.waitPop timeout).2.registration r =
        if m.isTerminal = true ∧ m.requestId? = some r then none else e.registration r := by
  rcases he.inv.waitPop_cases timeout with ⟨result, hresult, h⟩ | ⟨queued, control, hc, h⟩ |
    ⟨id, rest, q, queued, messages, hc, -, hq, hm, h⟩
  · rw [h]
    exact Or.inl ⟨hresult, rfl⟩
  · have hno : queued.message.isTerminal = false := by
      have hmessage := hcontrol queued (by rw [hc]; exact List.mem_cons_self)
      cases hqueued : queued.message with
      | terminal =>
        rw [hqueued] at hmessage
        cases hmessage
      | _ => rfl
    rw [h]
    refine Or.inr ⟨queued.message, rfl, fun other hother => ?_, fun r => ?_⟩
    · exact hcontrol other (by rw [hc]; exact List.mem_cons_of_mem _ hother)
    · rw [if_neg (by simp [hno])]
      rfl
  · have hlabel : queued.message.requestId? = some id :=
      he.labelled id q hq queued (by rw [hm]; exact List.mem_cons_self)
    have hsame : (e.popQueue id rest q queued messages).control = e.control := by
      unfold popQueue
      dsimp only
      split_ifs <;> rfl
    rw [h]
    refine Or.inr ⟨queued.message, rfl, fun other hother => ?_, fun r => ?_⟩
    · exact hcontrol other (hsame ▸ hother)
    · rw [popQueue_registration he.inv hq hm, hlabel]
      simp only [Option.some.injEq, eq_comm (a := id)]

end SessionEgress

end KimServing.Ipc

import KimServing.Worker.EgressInvariant

/-! # The egress as one queue per request

Seen from one request, the egress is a single queue: what waits in the control
partition, then what waits in the queue of the request. An append to the control
partition is an append to that queue as long as the request has nothing queued,
which is when Accepted and Rejected are written.
-/
namespace KimServing.Ipc
open Library List SessionEgress

namespace SessionEgress

variable {e e' : SessionEgress} {requestId : ℕ} {queue : RequestQueue}

def controlOf (e : SessionEgress) (requestId : ℕ) : List Message :=
  (e.control.map SizedMessage.message).filter (fun m => m.requestId? = some requestId)

def queueOf (e : SessionEgress) (requestId : ℕ) : List Message :=
  match e.requests.lookup requestId with
  | some queue => queue.messages.map SizedMessage.message
  | none => []

def pending (e : SessionEgress) (requestId : ℕ) : List Message :=
  e.controlOf requestId ++ e.queueOf requestId

theorem queueOf_eq (h : e.requests.lookup requestId = some queue) :
    e.queueOf requestId = queue.messages.map SizedMessage.message := by
  simp only [queueOf, h]

theorem queueOf_insert (h : e'.requests = e.requests.insert requestId queue) (r : ℕ) :
    e'.queueOf r =
      if r = requestId then queue.messages.map SizedMessage.message else e.queueOf r := by
  simp only [queueOf, h, lookup_insert_eq]
  by_cases hr : r = requestId <;> simp [hr]

theorem queueOf_erase (h : e'.requests = e.requests.erase requestId) (r : ℕ) :
    e'.queueOf r = if r = requestId then [] else e.queueOf r := by
  simp only [queueOf, h, lookup_erase_eq]
  by_cases hr : r = requestId <;> simp [hr]

theorem controlOf_congr (h : e'.control = e.control) (r : ℕ) :
    e'.controlOf r = e.controlOf r := by simp only [controlOf, h]

theorem pending_insert (hcontrol : e'.control = e.control)
    (h : e'.requests = e.requests.insert requestId queue) (r : ℕ) :
    e'.pending r = e.controlOf r ++
      if r = requestId then queue.messages.map SizedMessage.message else e.queueOf r := by
  rw [pending, controlOf_congr hcontrol, queueOf_insert h]

theorem pending_erase (hcontrol : e'.control = e.control)
    (h : e'.requests = e.requests.erase requestId) (r : ℕ) :
    e'.pending r = e.controlOf r ++ if r = requestId then [] else e.queueOf r := by
  rw [pending, controlOf_congr hcontrol, queueOf_erase h]

end SessionEgress

structure EgressView (e : SessionEgress) : Prop where
  inv : EgressInv e
  labelled : ∀ id q, e.requests.lookup id = some q →
    ∀ queued ∈ q.messages, queued.message.requestId? = some id

namespace EgressView
variable {e : SessionEgress}

variable {requestId : ℕ}

theorem initial {c : SessionEgressConfig} (hc : c.validateConfiguration = .ok ()) :
    EgressView { config := c } := ⟨.initial hc, by simp⟩

theorem pending_stopped (he : EgressView e) (h : e.accepting = false) (requestId : ℕ) :
    e.pending requestId = [] := by
  obtain ⟨hcontrol, hrequests⟩ := he.inv.stopped h
  simp [pending, controlOf, queueOf, hcontrol, hrequests]

/-! ## Operations without a message -/

theorem registerRequest (he : EgressView e) (requestId : ℕ) :
    EgressView (e.registerRequest requestId).2 ∧
      (e.registerRequest requestId).2.accepting = e.accepting ∧
      ∀ r, (e.registerRequest requestId).2.pending r = e.pending r := by
  have hinv := he.inv.registerRequest requestId
  rcases e.registerRequest_cases requestId with ⟨-, h⟩ | ⟨-, -, hnew, -, -, h⟩
  · rw [h]
    exact ⟨he, rfl, fun _ => rfl⟩
  · rw [h] at hinv ⊢
    refine ⟨⟨hinv, ?_⟩, rfl, ?_⟩
    · intro id q hq
      rw [lookup_insert_eq] at hq
      split at hq
      · cases hq
        simp
      · exact he.labelled id q hq
    · intro r
      rw [pending_insert (e := e) (by exact rfl) (by exact rfl)]
      by_cases hr : r = requestId
      · subst hr
        simp [pending, queueOf, hnew]
      · rw [if_neg hr, pending]

theorem abandonRequest (he : EgressView e) (hidle : e.pending requestId = []) :
    EgressView (e.abandonRequest requestId).2 ∧
      (e.abandonRequest requestId).2.accepting = e.accepting ∧
      ∀ r, (e.abandonRequest requestId).2.pending r = e.pending r := by
  have hinv := he.inv.abandonRequest requestId
  unfold SessionEgress.abandonRequest at hinv ⊢
  cases hq : e.requests.lookup requestId with
  | none =>
    exact ⟨he, rfl, fun _ => rfl⟩
  | some =>
    simp only [hq] at hinv ⊢
    refine ⟨⟨hinv, ?_⟩, rfl, ?_⟩
    · intro id q hid
      rw [lookup_erase_eq] at hid
      split at hid
      · cases hid
      · exact he.labelled id q hid
    · intro r
      rw [pending_erase (e := e) (by exact rfl) (by exact rfl)]
      by_cases hr : r = requestId
      · subst hr
        have hempty : e.queueOf r = [] := (append_eq_nil_iff.mp hidle).2
        rw [if_pos rfl, pending, hempty]
      · rw [if_neg hr, pending]

theorem stop (he : EgressView e) : EgressView e.stop ∧ e.stop.accepting = false := by
  have hinv := he.inv.stop
  unfold SessionEgress.stop at hinv ⊢
  by_cases h : e.accepting = false
  · rw [if_pos h]
    exact ⟨he, h⟩
  · rw [if_neg h] at hinv ⊢
    exact ⟨⟨hinv, by simp⟩, rfl⟩

/-! ## Appending -/

structure Appended (e e' : SessionEgress) (requestId : ℕ) (m : Message) : Prop where
  view : EgressView e'
  label : m.requestId? = some requestId
  before : e.accepting = true
  after : e'.accepting = true
  pending : ∀ r, e'.pending r = if r = requestId then e.pending r ++ [m] else e.pending r

theorem push_pending {e : SessionEgress} {queue : RequestQueue} {sized : SizedMessage}
    (hq : e.requests.lookup requestId = some queue) {flag : Bool} (r : ℕ) :
    (e.push requestId { queue with terminalEnqueued := flag } sized).pending r =
      if r = requestId then e.pending r ++ [sized.message] else e.pending r := by
  rw [pending_insert (e := e) (by exact rfl) (by exact rfl)]
  by_cases hr : r = requestId
  · subst hr
    simp [pending, queueOf_eq hq]
  · rw [if_neg hr, if_neg hr, pending]

theorem push_labelled (he : EgressView e) {queue : RequestQueue} {sized : SizedMessage}
    (hq : e.requests.lookup requestId = some queue) {flag : Bool}
    (hlabel : sized.message.requestId? = some requestId) :
    ∀ id q, (e.push requestId { queue with terminalEnqueued := flag } sized).requests.lookup id =
      some q → ∀ queued ∈ q.messages, queued.message.requestId? = some id := by
  intro id q hid queued hmem
  simp only [push, updateHighWatermarks, lookup_insert_eq] at hid
  split at hid
  · next h =>
    subst h
    cases hid
    rcases mem_append.mp hmem with hold | hnew
    · exact he.labelled id queue hq queued hold
    · rw [mem_singleton.mp hnew]
      exact hlabel
  · exact he.labelled id q hid queued hmem

section Enqueue
variable [JsonLib]

theorem enqueueControl (he : EgressView e) (m : Message) :
    EgressView (e.enqueueControl m).2 ∧ (e.enqueueControl m).2.accepting = e.accepting ∧
      (m.requestId? = none → ∀ r, (e.enqueueControl m).2.pending r = e.pending r) ∧
      ((e.enqueueControl m).1.code ≠ .enqueued → (e.enqueueControl m).2 = e) := by
  have hinv := he.inv.enqueueControl m
  rcases e.enqueueControl_cases m with ⟨r, -, h⟩ | ⟨sized, -, hs, -, -, -, h⟩
  · rw [h]
    exact ⟨he, rfl, fun _ _ => rfl, fun _ => rfl⟩
  · rw [h] at hinv ⊢
    refine ⟨⟨hinv, he.labelled⟩, rfl, ?_, fun hcode => absurd rfl hcode⟩
    intro hnone r
    have hm := sizeMessage_message hs
    simp [pending, controlOf, queueOf,
      updateHighWatermarks, hm, hnone]

theorem enqueueControl_appended (he : EgressView e) {requestId : ℕ} {m : Message}
    (hlabel : m.requestId? = some requestId) (hidle : e.pending requestId = [])
    (hcode : (e.enqueueControl m).1.code = .enqueued) :
    Appended e (e.enqueueControl m).2 requestId m := by
  have hview := (he.enqueueControl m).1
  rcases e.enqueueControl_cases m with ⟨r, hr, h⟩ | ⟨sized, -, hs, haccepting, -, -, h⟩
  · rw [h] at hcode
    exact absurd hcode hr
  · rw [h] at hview ⊢
    refine ⟨hview, hlabel, haccepting, haccepting, ?_⟩
    intro r
    have hm := sizeMessage_message hs
    obtain ⟨hcontrol, hqueue⟩ := append_eq_nil_iff.mp hidle
    simp only [pending, controlOf, queueOf,
      updateHighWatermarks, map_append, filter_append, map_cons,
      map_nil, hm] at hcontrol hqueue ⊢
    by_cases hr : r = requestId
    · subst hr
      simp [hlabel, hcontrol, hqueue]
    · simp [hlabel, hr, Ne.symm hr]

theorem enqueueDelta (he : EgressView e) (requestId : ℕ) (m : Message) :
    ((e.enqueueDelta requestId m).1.code ≠ .enqueued ∧ (e.enqueueDelta requestId m).2 = e) ∨
      ((e.enqueueDelta requestId m).1.code = .enqueued ∧
        Appended e (e.enqueueDelta requestId m).2 requestId m) := by
  have hinv := he.inv.enqueueDelta requestId m
  rcases e.enqueueDelta_cases requestId m with
    ⟨r, hr, h⟩ | ⟨delta, sized, queue, rfl, hid, hs, haccepting, hq, hopen, -, -, -, -, h⟩
  · rw [h]
    exact Or.inl ⟨hr, rfl⟩
  · rw [h] at hinv ⊢
    have hm := sizeMessage_message hs
    have hlabel : sized.message.requestId? = some requestId := by rw [hm, ← hid]; rfl
    have hsame : queue = { queue with terminalEnqueued := false } := by rw [← hopen]
    refine Or.inr ⟨rfl, ⟨hinv, ?_⟩, hm ▸ hlabel, haccepting, haccepting, ?_⟩
    · rw [hsame]
      exact he.push_labelled hq hlabel
    · intro r
      rw [hsame, push_pending hq, hm]

theorem enqueueTerminal (he : EgressView e) (requestId : ℕ) (m : Message) :
    ((e.enqueueTerminal requestId m).1.code ≠ .enqueued ∧
      (e.enqueueTerminal requestId m).2 = e) ∨
      ((e.enqueueTerminal requestId m).1.code = .enqueued ∧
        Appended e (e.enqueueTerminal requestId m).2 requestId m) := by
  have hinv := he.inv.enqueueTerminal requestId m
  rcases e.enqueueTerminal_cases requestId m with
    ⟨r, hr, h⟩ | ⟨terminal, sized, queue, rfl, hid, hs, haccepting, hq, -, -, -, -, h⟩
  · rw [h]
    exact Or.inl ⟨hr, rfl⟩
  · rw [h] at hinv ⊢
    have hm := sizeMessage_message hs
    have hlabel : sized.message.requestId? = some requestId := by rw [hm, ← hid]; rfl
    refine Or.inr ⟨rfl, ⟨hinv, ?_⟩, hm ▸ hlabel, haccepting, haccepting, ?_⟩
    · exact he.push_labelled hq hlabel
    · intro r
      rw [← hm]
      exact push_pending hq r

end Enqueue

/-! ## Taking -/

theorem popQueue_labelled (he : EgressView e) {id : ℕ} {rest : List ℕ} {q : RequestQueue}
    {queued : SizedMessage} {messages : List SizedMessage} (hq : e.requests.lookup id = some q)
    (hm : q.messages = queued :: messages) :
    ∀ r q', (e.popQueue id rest q queued messages).requests.lookup r = some q' →
      ∀ m ∈ q'.messages, m.message.requestId? = some r := by
  have hrest : ∀ m ∈ messages, m.message.requestId? = some id := fun m hmem =>
    he.labelled id q hq m (by rw [hm]; exact mem_cons_of_mem queued hmem)
  intro r q' hr
  unfold popQueue at hr
  dsimp only at hr
  split_ifs at hr
  · rw [lookup_insert_eq] at hr
    split at hr
    · next h =>
      cases hr
      exact h ▸ hrest
    · exact he.labelled r q' hr
  · rw [lookup_erase_eq] at hr
    split at hr
    · cases hr
    · exact he.labelled r q' hr
  · rw [lookup_insert_eq] at hr
    split at hr
    · next h =>
      cases hr
      exact h ▸ hrest
    · exact he.labelled r q' hr

theorem popQueue_pending (he : EgressView e) {id : ℕ} {rest : List ℕ} {q : RequestQueue}
    {queued : SizedMessage} {messages : List SizedMessage} (hq : e.requests.lookup id = some q)
    (hm : q.messages = queued :: messages) (r : ℕ) :
    (e.popQueue id rest q queued messages).pending r = e.controlOf r ++
      if r = id then messages.map SizedMessage.message else e.queueOf r := by
  have hhead := (he.inv.queues id q hq).terminalLast.head hm
  unfold popQueue
  dsimp only
  by_cases hmore : messages ≠ []
  · rw [if_pos hmore, pending_insert (e := e) (by exact rfl) (by exact rfl)]
  rw [if_neg hmore]
  by_cases hterminal : queued.message.isTerminal = true
  · rw [if_pos hterminal, pending_erase (e := e) (by exact rfl) (by exact rfl),
      (hhead.mp hterminal).2, map_nil]
  · rw [if_neg hterminal, pending_insert (e := e) (by exact rfl) (by exact rfl)]

theorem waitPop (he : EgressView e) (timeout : ℤ) :
    ((∀ m, (e.waitPop timeout).1 ≠ .message m) ∧ (e.waitPop timeout).2 = e) ∨
      ∃ m, (e.waitPop timeout).1 = .message m ∧ EgressView (e.waitPop timeout).2 ∧
        e.accepting = true ∧ (e.waitPop timeout).2.accepting = true ∧
        ∀ r, e.pending r =
          if m.requestId? = some r then m :: (e.waitPop timeout).2.pending r
          else (e.waitPop timeout).2.pending r := by
  have hinv := he.inv.waitPop timeout
  rcases he.inv.waitPop_cases timeout with ⟨r, hr, h⟩ | ⟨queued, control, hc, h⟩ |
    ⟨id, rest, q, queued, messages, hc, -, hq, hm, h⟩
  · rw [h]
    exact Or.inl ⟨hr, rfl⟩
  · have haccepting : e.accepting = true := by
      by_contra hstop
      have := (he.inv.stopped (by simpa using hstop)).1
      cases hc.symm.trans this
    rw [h] at hinv ⊢
    refine Or.inr ⟨queued.message, rfl, ⟨hinv, he.labelled⟩, haccepting, haccepting, ?_⟩
    intro r
    simp only [pending, controlOf, queueOf, hc,
      map_cons, filter_cons, decide_eq_true_eq]
    split <;> rfl
  · have haccepting : e.accepting = true := by
      by_contra hstop
      have := (he.inv.stopped (by simpa using hstop)).2
      simp [this] at hq
    have hlabel : queued.message.requestId? = some id :=
      he.labelled id q hq queued (by rw [hm]; exact mem_cons_self)
    rw [h] at hinv ⊢
    refine Or.inr ⟨queued.message, rfl, ⟨hinv, ?_⟩, haccepting, ?_, ?_⟩
    · exact he.popQueue_labelled hq hm
    · rw [← haccepting]
      unfold popQueue
      dsimp only
      split_ifs <;> rfl
    · intro r
      rw [hlabel, popQueue_pending he hq hm]
      by_cases hr : r = id
      · subst hr
        simp [pending, controlOf, hc, queueOf_eq hq, hm]
      · simp [hr, Ne.symm hr, pending]

end EgressView

end KimServing.Ipc

import KimServing.Worker.EgressView

/-! # Fairness of the session egress

A request that waits in the rotation moves up at every message that the writer
takes from another request, and nothing but its own removal can push it back.
So its oldest message leaves after at most as many request messages as there are
requests in front of it.
-/
namespace KimServing.Ipc
open Library List SessionEgress

namespace SessionEgress
variable {e e' : SessionEgress}

def returnedBy (e : SessionEgress) : EgressOp → List Message
  | .waitPop timeout =>
    match (e.waitPop timeout).1 with
    | .message m => [m]
    | _ => []
  | _ => []

def returned [JsonLib] (e : SessionEgress) : List EgressOp → List Message
  | [] => []
  | op :: ops => e.returnedBy op ++ (e.step op).elim [] (fun e' => e'.returned ops)

/-- The control partition and the queues hold messages of their kind, and a queue
those of its own request. -/
structure Sorted (e : SessionEgress) : Prop where
  control : ∀ queued ∈ e.control, isControl queued.message = true
  queues : ∀ id q, e.requests.lookup id = some q → ∀ queued ∈ q.messages,
    isControl queued.message = false ∧ queued.message.requestId? = some id

namespace Sorted

variable {q : RequestQueue}

theorem insert (h : e.Sorted) (id : ℕ) (hcontrol : e'.control = e.control)
    (hrequests : e'.requests = e.requests.insert id q) (hq : ∀ queued ∈ q.messages,
      isControl queued.message = false ∧ queued.message.requestId? = some id) : e'.Sorted := by
  refine ⟨hcontrol ▸ h.control, fun other q' hother => ?_⟩
  rw [hrequests, lookup_insert_eq] at hother
  split at hother
  · next heq =>
    cases hother
    exact heq ▸ hq
  · exact h.queues other q' hother

theorem erase (h : e.Sorted) (id : ℕ) (hcontrol : e'.control = e.control)
    (hrequests : e'.requests = e.requests.erase id) : e'.Sorted := by
  refine ⟨hcontrol ▸ h.control, fun other q' hother => ?_⟩
  rw [hrequests, lookup_erase_eq] at hother
  split at hother
  · cases hother
  · exact h.queues other q' hother

theorem push (h : e.Sorted) {id : ℕ} {sized : SizedMessage} (hq : e.requests.lookup id = some q)
    (hcontrol : isControl sized.message = false) (hlabel : sized.message.requestId? = some id)
    {owed : ℕ} {flag : Bool} :
    (SessionEgress.push { e with terminalReservations := owed } id
      { q with terminalEnqueued := flag } sized).Sorted := by
  refine h.insert id (by exact rfl) (by exact rfl) fun queued hqueued => ?_
  rcases mem_append.mp hqueued with hold | hnew
  · exact h.queues id q hq queued hold
  · rw [mem_singleton.mp hnew]
    exact ⟨hcontrol, hlabel⟩

theorem popQueue (h : e.Sorted) {id : ℕ} {rest : List ℕ} {queued : SizedMessage}
    {messages : List SizedMessage} (hq : e.requests.lookup id = some q)
    (hmessages : q.messages = queued :: messages) :
    (e.popQueue id rest q queued messages).Sorted := by
  have htail : ∀ other ∈ messages,
      isControl other.message = false ∧ other.message.requestId? = some id := fun other hother =>
    h.queues id q hq other (hmessages ▸ mem_cons_of_mem queued hother)
  unfold SessionEgress.popQueue
  dsimp only
  split_ifs
  · exact h.insert id (by exact rfl) (by exact rfl) htail
  · exact h.erase id (by exact rfl) (by exact rfl)
  · exact h.insert id (by exact rfl) (by exact rfl) htail

theorem step [JsonLib] (h : e.Sorted) (he : EgressInv e) {op : EgressOp}
    (hstep : e.step op = some e') : e'.Sorted := by
  cases op with
  | registerRequest requestId =>
    cases hstep
    rcases e.registerRequest_cases requestId with ⟨-, heq⟩ | ⟨-, -, -, -, -, heq⟩
    · rw [heq]
      exact h
    · rw [heq]
      exact h.insert requestId (by exact rfl) (by exact rfl) (by simp)
  | abandonRequest requestId =>
    cases hstep
    unfold abandonRequest
    cases hq : e.requests.lookup requestId with
    | none => exact h
    | some => exact h.erase requestId (by exact rfl) (by exact rfl)
  | enqueueControl m =>
    cases hstep
    rcases e.enqueueControl_cases m with ⟨r, -, heq⟩ | ⟨sized, hcontrol, hs, -, -, -, heq⟩
    · rw [heq]
      exact h
    · rw [heq]
      refine ⟨fun queued hqueued => ?_, h.queues⟩
      rcases mem_append.mp hqueued with hold | hnew
      · exact h.control queued hold
      · rw [mem_singleton.mp hnew, sizeMessage_message hs]
        exact hcontrol
  | enqueueDelta requestId m =>
    cases hstep
    rcases e.enqueueDelta_cases requestId m with ⟨r, -, heq⟩ |
      ⟨delta, sized, q, rfl, hid, hs, -, hq, -, -, -, -, -, heq⟩
    · rw [heq]
      exact h
    · rw [heq]
      have hm := sizeMessage_message hs
      exact h.push hq (by rw [hm]; rfl) (by rw [hm, ← hid]; rfl)
  | enqueueTerminal requestId m =>
    cases hstep
    rcases e.enqueueTerminal_cases requestId m with ⟨r, -, heq⟩ |
      ⟨terminal, sized, q, rfl, hid, hs, -, hq, -, -, -, -, heq⟩
    · rw [heq]
      exact h
    · rw [heq]
      have hm := sizeMessage_message hs
      exact h.push hq (by rw [hm]; rfl) (by rw [hm, ← hid]; rfl)
  | waitPop timeout =>
    cases hstep
    rcases he.waitPop_cases timeout with ⟨r, -, heq⟩ | ⟨queued, control, hcontrol, heq⟩ |
      ⟨id, rest, q, queued, messages, -, -, hq, hmessages, heq⟩
    · rw [heq]
      exact h
    · rw [heq]
      exact ⟨fun other hother => h.control other (hcontrol ▸ mem_cons_of_mem queued hother),
        h.queues⟩
    · rw [heq]
      exact h.popQueue hq hmessages
  | stop =>
    cases hstep
    unfold stop
    split
    · exact h
    · exact ⟨by simp, by simp⟩

end Sorted

structure Waits (e : SessionEgress) (r : ℕ) (oldest : SizedMessage) (ahead : ℕ) : Prop where
  queue : ∃ q rest, e.requests.lookup r = some q ∧ q.messages = oldest :: rest
  place : ∃ front back, e.roundRobin = front ++ r :: back ∧ front.length ≤ ahead

namespace Waits
variable {r ahead : ℕ} {oldest : SizedMessage}

theorem others (h : e.Waits r oldest ahead) {added : List ℕ}
    (hlookup : e'.requests.lookup r = e.requests.lookup r)
    (hrotation : e'.roundRobin = e.roundRobin ++ added) : e'.Waits r oldest ahead := by
  obtain ⟨front, back, hplace, hfront⟩ := h.place
  refine ⟨hlookup ▸ h.queue, front, back ++ added, ?_, hfront⟩
  rw [hrotation, hplace, append_assoc, cons_append]

theorem push (h : e.Waits r oldest ahead) {id : ℕ} {q : RequestQueue} {sized : SizedMessage}
    (hq : e.requests.lookup id = some q) {owed : ℕ} {flag : Bool} :
    (SessionEgress.push { e with terminalReservations := owed } id
      { q with terminalEnqueued := flag } sized).Waits r oldest ahead := by
  obtain ⟨front, back, hplace, hfront⟩ := h.place
  obtain ⟨own, rest, hown, hmessages⟩ := h.queue
  constructor
  · simp only [SessionEgress.push, SessionEgress.updateHighWatermarks, lookup_insert_eq]
    split
    · next heq =>
      subst heq
      obtain rfl : own = q := Option.some.inj (hown.symm.trans hq)
      exact ⟨_, rest ++ [sized], rfl, by rw [hmessages, cons_append]⟩
    · exact ⟨own, rest, hown, hmessages⟩
  · simp only [SessionEgress.push, SessionEgress.updateHighWatermarks]
    split
    · exact ⟨front, back, hplace, hfront⟩
    · exact ⟨front, back ++ [id], by rw [hplace, append_assoc, cons_append], hfront⟩

theorem abandonRequest (h : e.Waits r oldest ahead) {id : ℕ} (hid : id ≠ r) :
    (e.abandonRequest id).2.Waits r oldest ahead := by
  obtain ⟨front, back, hplace, hfront⟩ := h.place
  unfold SessionEgress.abandonRequest
  cases hq : e.requests.lookup id with
  | none => exact h
  | some =>
    refine ⟨?_, front.filter (fun other => other ≠ id), back.filter (fun other => other ≠ id),
      ?_, (length_filter_le _ _).trans hfront⟩
    · simp only [lookup_erase_eq, if_neg hid.symm]
      exact h.queue
    · simp [removeScheduledRequest, hplace, hid.symm]

theorem popQueue_others {id r : ℕ} (hid : id ≠ r) (rest : List ℕ) (q : RequestQueue)
    (queued : SizedMessage) (messages : List SizedMessage) :
    (e.popQueue id rest q queued messages).requests.lookup r = e.requests.lookup r ∧
      ∃ added, (e.popQueue id rest q queued messages).roundRobin = rest ++ added := by
  unfold popQueue
  dsimp only
  split_ifs
  · exact ⟨by simp only [lookup_insert_eq, if_neg hid.symm], [id], rfl⟩
  · exact ⟨by simp only [lookup_erase_eq, if_neg hid.symm], [], (append_nil _).symm⟩
  · exact ⟨by simp only [lookup_insert_eq, if_neg hid.symm], [], (append_nil _).symm⟩

theorem step [JsonLib] (h : e.Waits r oldest ahead) (he : EgressInv e) (hs : e.Sorted)
    {op : EgressOp} (habandon : op ≠ .abandonRequest r) (hstop : op ≠ .stop)
    (hstep : e.step op = some e') :
    (((e.returnedBy op).filter (fun m => !isControl m) = [] ∧ e'.Waits r oldest ahead) ∨
    (∃ m front, (e.returnedBy op).filter (fun m => !isControl m) = [m] ∧ m.requestId? ≠ some r ∧
      ahead = front + 1 ∧ e'.Waits r oldest front) ∨
    ((e.returnedBy op).filter (fun m => !isControl m) = [oldest.message] ∧
      oldest.message.requestId? = some r)) := by
  obtain ⟨own, messages, hown, hmessages⟩ := h.queue
  cases op with
  | registerRequest requestId =>
    refine Or.inl ⟨rfl, ?_⟩
    cases hstep
    rcases e.registerRequest_cases requestId with ⟨-, heq⟩ | ⟨-, -, hnew, -, -, heq⟩
    · rw [heq]
      exact h
    · have hne : r ≠ requestId := by
        rintro rfl
        cases hown.symm.trans hnew
      rw [heq]
      exact h.others (by simp only [lookup_insert_eq, if_neg hne]) (append_nil _).symm
  | abandonRequest =>
    refine Or.inl ⟨rfl, ?_⟩
    cases hstep
    exact h.abandonRequest fun heq => habandon (heq ▸ rfl)
  | enqueueControl m =>
    refine Or.inl ⟨rfl, ?_⟩
    cases hstep
    rcases e.enqueueControl_cases m with ⟨_, -, heq⟩ | ⟨sized, -, -, -, -, -, heq⟩
    · rw [heq]
      exact h
    · rw [heq]
      exact h.others rfl (append_nil _).symm
  | enqueueDelta requestId m =>
    refine Or.inl ⟨rfl, ?_⟩
    cases hstep
    rcases e.enqueueDelta_cases requestId m with ⟨_, -, heq⟩ |
      ⟨delta, sized, q, -, -, -, -, hq, -, -, -, -, -, heq⟩
    · rw [heq]
      exact h
    · rw [heq]
      exact h.push hq
  | enqueueTerminal requestId m =>
    refine Or.inl ⟨rfl, ?_⟩
    cases hstep
    rcases e.enqueueTerminal_cases requestId m with ⟨_, -, heq⟩ |
      ⟨terminal, sized, q, -, -, -, -, hq, -, -, -, -, heq⟩
    · rw [heq]
      exact h
    · rw [heq]
      exact h.push hq
  | waitPop timeout =>
    cases hstep
    rcases he.waitPop_cases timeout with ⟨answer, hnone, heq⟩ | ⟨queued, control, hcontrol, heq⟩ |
      ⟨id, rest, q, queued, tail, -, hrotation, hq, htail, heq⟩
    · refine Or.inl ⟨?_, by rw [heq]; exact h⟩
      simp only [returnedBy, heq]
      cases answer with
      | message m => exact absurd rfl (hnone m)
      | _ => rfl
    · refine Or.inl ⟨?_, by rw [heq]; exact h.others rfl (append_nil _).symm⟩
      simp [returnedBy, heq, hs.control queued (hcontrol ▸ mem_cons_self)]
    · obtain ⟨hkind, hlabel⟩ := hs.queues id q hq queued (htail ▸ mem_cons_self)
      have hreturned : (e.returnedBy (.waitPop timeout)).filter (fun m => !isControl m) =
          [queued.message] := by
        simp [returnedBy, heq, hkind]
      obtain ⟨front, back, hplace, hfront⟩ := h.place
      rw [hrotation] at hplace
      cases front with
      | nil =>
        -- The request itself is first in the rotation.
        obtain ⟨rfl, -⟩ := List.cons.inj hplace
        obtain rfl : own = q := Option.some.inj (hown.symm.trans hq)
        obtain ⟨rfl, -⟩ := List.cons.inj (hmessages.symm.trans htail)
        exact Or.inr (Or.inr ⟨hreturned, hlabel⟩)
      | cons first front =>
        obtain ⟨rfl, hrest⟩ : id = first ∧ rest = front ++ r :: back := List.cons.inj hplace
        have hne : id ≠ r := by
          have hnodup := he.nodup
          rw [hrotation, hrest] at hnodup
          rintro rfl
          exact (nodup_cons.mp hnodup).1 (by simp)
        obtain ⟨hlookup, added, hrotated⟩ := popQueue_others (e := e) hne rest q queued tail
        obtain ⟨n, rfl⟩ : ∃ n, ahead = n + 1 := Nat.exists_eq_add_one.mpr (by simp at hfront; omega)
        refine Or.inr (Or.inl ⟨queued.message, n, hreturned, ?_, rfl, ?_⟩)
        · rw [hlabel]
          exact fun hsame => hne (Option.some.inj hsame)
        · rw [heq]
          refine ⟨hlookup ▸ h.queue, front, back ++ added, ?_, by simpa using hfront⟩
          rw [hrotated, hrest, append_assoc, cons_append]
  | stop => exact absurd rfl hstop

theorem run [JsonLib] {ops : List EgressOp} (h : e.Waits r oldest ahead) (he : EgressInv e)
    (hs : e.Sorted) (hops : ∀ op ∈ ops, op ≠ .abandonRequest r ∧ op ≠ .stop)
    (hpops : ahead + 1 ≤ ((e.returned ops).filter (fun m => !isControl m)).length) :
    ∃ before after,
      (e.returned ops).filter (fun m => !isControl m) = before ++ oldest.message :: after ∧
      before.length ≤ ahead ∧ (∀ m ∈ before, m.requestId? ≠ some r) ∧
      oldest.message.requestId? = some r := by
  induction ops generalizing e ahead with
  | nil => simp [returned] at hpops
  | cons op ops ih =>
    obtain ⟨⟨habandon, hstop⟩, hops⟩ := forall_mem_cons.mp hops
    obtain ⟨e', hstep⟩ : ∃ e', e.step op = some e' := by cases op <;> exact ⟨_, rfl⟩
    have hreturned : (e.returned (op :: ops)).filter (fun m => !isControl m) =
        (e.returnedBy op).filter (fun m => !isControl m) ++
          (e'.returned ops).filter (fun m => !isControl m) := by
      rw [returned, hstep, filter_append]
      rfl
    rw [hreturned] at hpops ⊢
    rcases h.step he hs habandon hstop hstep with ⟨hnone, hwaits⟩ |
      ⟨m, front, hm, hother, rfl, hwaits⟩ | ⟨hm, hlabel⟩
    · rw [hnone, nil_append] at hpops ⊢
      exact ih hwaits (he.step hstep) (hs.step he hstep) hops hpops
    · rw [hm] at hpops ⊢
      obtain ⟨before, after, hsplit, hbefore, hothers, hlabel⟩ :=
        ih hwaits (he.step hstep) (hs.step he hstep) hops (by simpa using hpops)
      exact ⟨m :: before, after, by rw [hsplit]; rfl, Nat.succ_le_succ hbefore,
        forall_mem_cons.mpr ⟨hother, hothers⟩, hlabel⟩
    · exact ⟨[], _, by rw [hm]; rfl, Nat.zero_le _, fun _ hm => (by cases hm), hlabel⟩

end Waits

theorem run_sorted [JsonLib] {c : SessionEgressConfig} {ops : List EgressOp} {e₀ : SessionEgress}
    (hc : create c = .ok e₀) (h : exec step e₀ ops = some e) : EgressInv e ∧ e.Sorted := by
  have hinit : e₀.Sorted := by
    obtain ⟨-, rfl⟩ := create_eq_ok hc
    exact ⟨by simp, by simp⟩
  exact exec_preserves (I := fun s => EgressInv s ∧ s.Sorted)
    (fun _ _ _ hs hstep => ⟨hs.1.step hstep, hs.2.step hs.1 hstep⟩)
    ⟨(EgressInv.run hc (exec_nil e₀)).1, hinit⟩ h

end SessionEgress

/-- A request at place `p` of the rotation is served among the next `p + 1` request
messages that leave, and first with its oldest message, whatever else happens to
the egress in between. -/
theorem egress_fair [JsonLib] (c : SessionEgressConfig) (ops : List EgressOp)
    (e₀ e : SessionEgress) (hc : SessionEgress.create c = .ok e₀)
    (h : exec SessionEgress.step e₀ ops = some e) (r p : ℕ) (q : RequestQueue)
    (oldest : SizedMessage) (rest : List SizedMessage) (hplace : e.roundRobin[p]? = some r)
    (hq : e.requests.lookup r = some q) (hmessages : q.messages = oldest :: rest)
    (later : List EgressOp) (hlater : ∀ op ∈ later, op ≠ .abandonRequest r ∧ op ≠ .stop)
    (hpops : p + 1 ≤
      ((e.returned later).filter (fun m => !SessionEgress.isControl m)).length) :
    ∃ before after,
      (e.returned later).filter (fun m => !SessionEgress.isControl m) =
        before ++ oldest.message :: after ∧
      before.length ≤ p ∧ (∀ m ∈ before, m.requestId? ≠ some r) ∧
      oldest.message.requestId? = some r := by
  obtain ⟨hinv, hsorted⟩ := SessionEgress.run_sorted hc h
  have hsplit : e.roundRobin = e.roundRobin.take p ++ r :: e.roundRobin.drop (p + 1) := by
    obtain ⟨hlt, hget⟩ := List.getElem?_eq_some_iff.mp hplace
    rw [← hget, List.getElem_cons_drop, List.take_append_drop]
  have hwaits : e.Waits r oldest p :=
    ⟨⟨q, rest, hq, hmessages⟩, _, _, hsplit, by simp⟩
  exact hwaits.run hinv hsorted hlater hpops

def twoDeltas : List EgressOp :=
  [.registerRequest 1, .registerRequest 2, .enqueueDelta 1 (firstDelta 1),
    .enqueueDelta 2 (firstDelta 2)]

theorem egress_fair_twoDeltas :
    ∃ e, exec (@SessionEgress.step plainJson) { config := {} } twoDeltas = some e ∧
      e.roundRobin[1]? = some 2 ∧
      ∃ before after, (@SessionEgress.returned plainJson e [.waitPop 0, .waitPop 0]).filter
          (fun m => !SessionEgress.isControl m) = before ++ firstDelta 2 :: after ∧
        before.length ≤ 1 := by
  have hrun : (exec (@SessionEgress.step plainJson) { config := {} } twoDeltas).any (fun e =>
      decide (e.roundRobin[1]? = some 2) && decide (e.queueOf 2 = [firstDelta 2]) &&
      decide (((@SessionEgress.returned plainJson e [.waitPop 0, .waitPop 0]).filter
        (fun m => !SessionEgress.isControl m)).length = 2)) = true := by
    decide +kernel
  obtain ⟨e, he, hchecks⟩ := (Option.any_eq_true _ _).mp hrun
  simp only [Bool.and_eq_true, decide_eq_true_eq] at hchecks
  obtain ⟨⟨hplace, hqueue⟩, hpops⟩ := hchecks
  unfold SessionEgress.queueOf at hqueue
  cases hq : e.requests.lookup 2 with
  | none =>
    rw [hq] at hqueue
    cases hqueue
  | some q =>
    rw [hq] at hqueue
    obtain ⟨oldest, hmessages, holdest⟩ := List.map_eq_singleton_iff.mp hqueue
    obtain ⟨before, after, hsplit, hbefore, -⟩ :=
      @egress_fair plainJson {} twoDeltas { config := {} } e rfl he 2 1 q oldest [] hplace hq
        hmessages [.waitPop 0, .waitPop 0] (by simp) hpops.ge
    exact ⟨e, he, hplace, before, after, holdest ▸ hsplit, hbefore⟩

end KimServing.Ipc

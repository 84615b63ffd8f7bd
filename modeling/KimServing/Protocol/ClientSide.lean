import KimServing.Client.HandleContract
import KimServing.Protocol.Slots

/-! # The client follows the answers to its Submits

While a connection lasts, the table of the client says of every request id how far
its Submits have been answered: the entry of an id is the state of the slot that
has read the dispatched messages. A client that is told no more than it has asked
for, in order, can therefore dispatch every message.
-/
namespace KimServing.Client
open Library Function GenerationClient

def ServerMessage.reply? : ServerMessage → Option (ℕ × Reply)
  | .accepted requestId => some (requestId, .accepted)
  | .rejected requestId _ => some (requestId, .rejected)
  | .tokenDelta requestId sequenceNo _ => some (requestId, .delta sequenceNo)
  | .terminal t => some (t.requestId, .terminal)
  | _ => none

def ClientMessage.submits (requestId : ℕ) : ClientMessage → Bool
  | .submit request _ => decide (request.requestId = requestId)
  | _ => false

def submitsOf (requestId : ℕ) (sent : List (ℕ × ClientMessage)) : ℕ :=
  sent.countP fun entry => entry.2.submits requestId

def Caller.Sends : Caller → ClientMessage → Prop
  | .submit _ requestId, .submit request _ => request.requestId = requestId
  | .cancel, .cancel _ _ | .reader, .cancel _ _ | .health _ _, .health _ _ => True
  | _, _ => False

namespace GenerationClient
variable {s t : GenerationClient} {k : ℕ}

variable {m : ServerMessage} {j n requestId : ℕ} {choice : Choice} {slot : Slot}
  {next : Dispatched} {r : RequestState}

def outstanding (s : GenerationClient) (requestId : ℕ) : Bool :=
  (s.requests.lookup (requestId : ℤ)).any s.submitted

theorem outstanding_eq_true : s.outstanding requestId = true ↔
    ∃ n, s.requests.lookup (requestId : ℤ) = some n ∧ s.submitted n = true :=
  Option.any_eq_true _ _

structure At (s : GenerationClient) (requestId : ℕ) (slot : Slot) : Prop where
  submits : submitsOf requestId s.sent =
    slot.answered + if s.outstanding requestId then 1 else 0
  begun : slot.begun ≤ submitsOf requestId s.sent
  entry : ∀ n, s.requests.lookup (requestId : ℤ) = some n →
    (s.states n).accepted = slot.next.isSome ∧ (s.states n).nextSequenceNo = slot.next.getD 0

/-- The table of the client mirrors the answers that it has dispatched. -/
structure Tracks (s : GenerationClient) : Prop where
  slots : ∀ requestId, ∃ slot,
    exec Slot.read {} (repliesTo ServerMessage.reply? requestId s.dispatched) = some slot ∧
      s.At requestId slot
  pending : ∀ k n i, (s.threads k).pc.pending = some (n, i) →
    s.requests.lookup i = some n ∧ s.submitted n = false ∧ s.owner n = k
  fresh : ∀ n, s.stateCount ≤ n → s.submitted n = false

def Posts (s : GenerationClient) : Prop :=
  ∀ k caller message, (s.threads k).pc.unsent = some (caller, message) → caller.Sends message

/-- With one more message the worker has answered in order, and no more than it was
asked. -/
def Lawful (s : GenerationClient) (m : ServerMessage) : Prop :=
  ∀ requestId, ∃ slot,
    exec Slot.read {} (repliesTo ServerMessage.reply? requestId (s.dispatched ++ [m])) = some slot ∧
      slot.begun ≤ submitsOf requestId s.sent

theorem At.outstanding (h : s.At requestId slot)
    (hmore : slot.answered < submitsOf requestId s.sent) : s.outstanding requestId = true := by
  have hsubmits := h.submits
  by_contra hno
  rw [if_neg hno] at hsubmits
  omega

theorem At.idle (h : s.At requestId slot) (hno : s.outstanding requestId = false) :
    slot.next = none := by
  have hsubmits := h.submits
  have hbegun := h.begun
  rw [hno] at hsubmits
  cases hnext : slot.next with
  | none => rfl
  | some =>
    simp only [Slot.begun, hnext, Option.isSome_some, if_true] at hbegun
    simp only [Bool.false_eq_true, if_false] at hsubmits
    omega

theorem At.congr (h : s.At requestId slot)
    (hsent : submitsOf requestId t.sent = submitsOf requestId s.sent)
    (hlookup : t.requests.lookup (requestId : ℤ) = s.requests.lookup (requestId : ℤ))
    (hsubmitted : ∀ n, s.requests.lookup (requestId : ℤ) = some n → t.submitted n = s.submitted n)
    (hstates : ∀ n, s.requests.lookup (requestId : ℤ) = some n →
      (t.states n).accepted = (s.states n).accepted ∧
        (t.states n).nextSequenceNo = (s.states n).nextSequenceNo) : t.At requestId slot := by
  have houtstanding : t.outstanding requestId = s.outstanding requestId := by
    unfold GenerationClient.outstanding
    rw [hlookup]
    cases hn : s.requests.lookup (requestId : ℤ) with
    | none => rfl
    | some n => exact hsubmitted n hn
  refine ⟨?_, hsent.symm ▸ h.begun, fun n hn => ?_⟩
  · rw [hsent, houtstanding]
    exact h.submits
  · rw [hlookup] at hn
    rw [(hstates n hn).1, (hstates n hn).2]
    exact h.entry n hn

/-! ## Steps that answer nothing -/

structure Aside (s t : GenerationClient) : Prop where
  requests : t.requests = s.requests
  replies : ∀ requestId, repliesTo ServerMessage.reply? requestId t.dispatched =
    repliesTo ServerMessage.reply? requestId s.dispatched
  sent : ∀ requestId, submitsOf requestId t.sent = submitsOf requestId s.sent
  submitted : t.submitted = s.submitted
  owner : t.owner = s.owner
  stateCount : t.stateCount = s.stateCount
  states : ∀ n, (t.states n).accepted = (s.states n).accepted ∧
    (t.states n).nextSequenceNo = (s.states n).nextSequenceNo

theorem Aside.of_core (h : t.core = s.core) : s.Aside t := by
  simp only [core, Core.mk.injEq] at h
  obtain ⟨-, -, -, h₁, -, -, h₂, h₃, -, -, h₄, h₅, -, -, -, h₆, h₇⟩ := h
  exact ⟨h₁, fun _ => by rw [h₇], fun _ => by rw [h₆], h₅, h₄, h₃, fun n => by rw [h₂]; exact ⟨rfl, rfl⟩⟩

theorem Tracks.aside (hs : s.Tracks) (h : s.Aside t)
    (hpending : ∀ j x, (t.threads j).pc.pending = some x → (s.threads j).pc.pending = some x) :
    t.Tracks := by
  refine ⟨fun requestId => ?_, fun j n i hj => ?_, fun n hn => ?_⟩
  · obtain ⟨slot, hslot, hat⟩ := hs.slots requestId
    rw [h.replies]
    exact ⟨slot, hslot, hat.congr (h.sent requestId) (by rw [h.requests]) (fun n _ => by rw [h.submitted])
      (fun n _ => h.states n)⟩
  · rw [h.requests, h.submitted, h.owner]
    exact hs.pending j n i (hpending j (n, i) hj)
  · rw [h.submitted]
    exact hs.fresh n (h.stateCount ▸ hn)

theorem Tracks.thread (hs : s.Tracks) (halone : s.Alone k t) (h : s.Aside t)
    (hk : (t.threads k).pc.pending = none ∨
      (t.threads k).pc.pending = (s.threads k).pc.pending) : t.Tracks := by
  refine hs.aside h (fun j x hj => ?_)
  by_cases hjk : j = k
  · subst hjk
    rcases hk with hnone | hsame
    · cases hnone.symm.trans hj
    · exact hsame ▸ hj
  · rcases halone.others j hjk with hsame | ⟨-, hloop⟩
    · exact hsame ▸ hj
    · rw [hloop] at hj
      cases hj

/-! ## Submitting -/

theorem register_tracks (hs : s.Tracks) (hb : s.books.Inv) {c : Connection}
    {request : GenerationRequest} (hnew : s.requests.lookup request.requestId = none) :
    (s.register k c request).Tracks := by
  have hlookup : ∀ i, (s.register k c request).requests.lookup i =
      if i = request.requestId then some s.stateCount else s.requests.lookup i :=
    fun i => lookup_insert_eq s.requests i request.requestId s.stateCount
  have hold : ∀ {i n}, s.requests.lookup i = some n → i ≠ request.requestId ∧ n ≠ s.stateCount := by
    intro i n hn
    refine ⟨?_, Nat.ne_of_lt (hb.of_lookup hn).2.2.2.2.2.2⟩
    rintro rfl
    cases hnew.symm.trans hn
  have hfresh := hs.fresh s.stateCount (Nat.le_refl _)
  refine ⟨fun requestId => ?_, fun j n i hj => ?_, fun n hn => ?_⟩
  · obtain ⟨slot, hslot, hat⟩ := hs.slots requestId
    refine ⟨slot, hslot, ?_⟩
    by_cases hid : (requestId : ℤ) = request.requestId
    · -- the id was free, so nothing of it is on its way
      have hno : s.outstanding requestId = false := by
        rw [outstanding, hid, hnew]
        rfl
      have hself : (s.register k c request).requests.lookup (requestId : ℤ) = some s.stateCount := by
        rw [hlookup, if_pos hid]
      have hnext := hat.idle hno
      refine ⟨?_, hat.begun, fun n hn => ?_⟩
      · have hno' : (s.register k c request).outstanding requestId = false := by
          rw [outstanding, hself]
          exact hfresh
        rw [hno']
        rw [← hno]
        exact hat.submits
      · rw [hself] at hn
        cases hn
        simp [register, hnext]
    · refine hat.congr rfl (by rw [hlookup, if_neg hid]) (fun n _ => rfl) (fun n hn => ?_)
      simp [register, update_of_ne (hold hn).2]
  · by_cases hjk : j = k
    · subst hjk
      simp only [register, update_self, Pc.pending, Caller.submission,
        Option.some.injEq, Prod.mk.injEq] at hj
      obtain ⟨rfl, rfl⟩ := hj
      exact ⟨by rw [hlookup, if_pos rfl], hfresh, by simp only [register, update_self]⟩
    · simp only [register, update_of_ne hjk] at hj
      obtain ⟨hn, hsubmitted, howner⟩ := hs.pending j n i hj
      refine ⟨by rw [hlookup, if_neg (hold hn).1, hn], hsubmitted, ?_⟩
      simp only [register, update_of_ne (hold hn).2]
      exact howner
  · exact hs.fresh n (Nat.le_of_succ_le hn)

theorem submitsOf_append (requestId : ℕ) (sent : List (ℕ × ClientMessage)) (serial : ℕ)
    (message : ClientMessage) : submitsOf requestId (sent ++ [(serial, message)]) =
      submitsOf requestId sent + if message.submits requestId then 1 else 0 := by
  rw [submitsOf, List.countP_append, List.countP_singleton]
  rfl

theorem sentSubmit_tracks (hs : s.Tracks) (hb : s.books.Inv) {serial workerEpoch : ℕ} {i : ℤ}
    {request : GenerationRequest} (hid : request.requestId = i)
    (hpc : (s.threads k).pc = .sending (.submit n i) (.submit request workerEpoch) serial)
    (ht : t = { s.setPc k (.waitAccepted n i) with
      sendLock := none
      submitted := update s.submitted n true
      sent := s.sent ++ [(serial, .submit request workerEpoch)] }) : t.Tracks := by
  obtain ⟨hn, hsubmitted, howner⟩ := hs.pending k n i (by rw [hpc]; rfl)
  have hunique := (hb.of_lookup hn).1
  subst ht
  refine ⟨fun requestId => ?_, fun j m i' hj => ?_, fun m hm => ?_⟩
  · obtain ⟨slot, hslot, hat⟩ := hs.slots requestId
    refine ⟨slot, hslot, ?_⟩
    by_cases hr : (requestId : ℤ) = i
    · have hno : s.outstanding requestId = false := by
        rw [outstanding, hr, hn]
        exact hsubmitted
      have hsubmits := hat.submits
      rw [hno, if_neg Bool.false_ne_true] at hsubmits
      have hmore : submitsOf requestId (s.sent ++ [(serial, .submit request workerEpoch)]) =
          submitsOf requestId s.sent + 1 := by
        rw [submitsOf_append, ClientMessage.submits, hid, hr, decide_eq_true rfl, if_pos rfl]
      refine ⟨?_, ?_, hat.entry⟩
      · rw [if_pos (outstanding_eq_true.mpr ⟨n, by rw [hr]; exact hn, update_self _ _ _⟩)]
        dsimp only
        omega
      · have hbegun := hat.begun
        dsimp only
        omega
    · refine hat.congr ?_ rfl (fun m hm => ?_) (fun m _ => ⟨rfl, rfl⟩)
      · have hne : ¬request.requestId = (requestId : ℤ) := by
          rw [hid]
          exact fun h => hr h.symm
        rw [submitsOf_append, ClientMessage.submits, decide_eq_false hne]
        rfl
      · refine update_of_ne ?_ _ _
        rintro rfl
        exact hr ((hunique _).mp hm)
  · by_cases hjk : j = k
    · subst hjk
      simp [setPc, Pc.pending] at hj
    · simp only [setPc, update_of_ne hjk] at hj
      obtain ⟨hm, hsub, hown⟩ := hs.pending j m i' hj
      have hne : m ≠ n := by
        rintro rfl
        exact hjk (hown.symm.trans howner)
      exact ⟨hm, (update_of_ne hne _ _).trans hsub, hown⟩
  · have hlt : n < s.stateCount := (hb.of_lookup hn).2.2.2.2.2.2
    have hne : m ≠ n := (Nat.ne_of_lt (hlt.trans_le hm)).symm
    exact (update_of_ne hne _ _).trans (hs.fresh m hm)

theorem forget_tracks (hs : s.Tracks) {i : ℤ} {e : ClientError}
    (hpc : (s.threads k).pc = .forget n i e) : (s.forget k i e).Tracks := by
  obtain ⟨hn, hsubmitted, howner⟩ := hs.pending k n i (by rw [hpc]; rfl)
  have hlookup : ∀ i', (s.forget k i e).requests.lookup i' =
      if i' = i then none else s.requests.lookup i' := fun i' => lookup_erase_eq s.requests i' i
  refine ⟨fun requestId => ?_, fun j m i' hj => ?_, hs.fresh⟩
  · obtain ⟨slot, hslot, hat⟩ := hs.slots requestId
    refine ⟨slot, hslot, ?_⟩
    by_cases hr : (requestId : ℤ) = i
    · have hno : s.outstanding requestId = false := by
        rw [outstanding, hr, hn]
        exact hsubmitted
      have hno' : (s.forget k i e).outstanding requestId = false := by
        rw [outstanding, hlookup, if_pos hr]
        rfl
      refine ⟨?_, hat.begun, fun m hm => ?_⟩
      · rw [hno', ← hno]
        exact hat.submits
      · rw [hlookup, if_pos hr] at hm
        cases hm
    · exact hat.congr rfl (by rw [hlookup, if_neg hr]) (fun _ _ => rfl) (fun _ _ => ⟨rfl, rfl⟩)
  · by_cases hjk : j = k
    · subst hjk
      simp [forget, setPc, Pc.pending] at hj
    · simp only [forget, setPc, update_of_ne hjk] at hj
      obtain ⟨hm, hsub, hown⟩ := hs.pending j m i' hj
      refine ⟨?_, hsub, hown⟩
      rw [hlookup, if_neg ?_, hm]
      rintro rfl
      rw [hn] at hm
      cases hm
      exact hjk (hown.symm.trans howner)

/-! ## Dispatching -/

theorem onDelta_eq_ok {r' : RequestState} {d : TokenDelta} {cancels : Bool}
    (h : r.onDelta d = .ok (r', cancels)) :
    r'.accepted = r.accepted ∧ r'.nextSequenceNo = r.nextSequenceNo + 1 := by
  simp only [RequestState.onDelta, bind, Except.bind] at h
  split at h
  · cases h
  · split at h
    · cases h
    · split at h <;> cases h <;> exact ⟨rfl, rfl⟩

theorem onDelta_ok {d : TokenDelta} (hcheck : r.checkEvent = .ok ())
    (hnext : d.sequenceNo = r.nextSequenceNo) : ∃ result, r.onDelta d = .ok result := by
  simp only [RequestState.onDelta, hcheck, hnext, bind, Except.bind]
  split
  · next h => exact absurd rfl h
  · split <;> exact ⟨_, rfl⟩

theorem Tracks.reads (hs : s.Tracks) (hm : s.Lawful m) {x : Reply}
    (hreply : m.reply? = some (requestId, x)) :
    ∃ slot slot' n, s.At requestId slot ∧ slot.read x = some slot' ∧
      exec Slot.read {} (repliesTo ServerMessage.reply? requestId (s.dispatched ++ [m])) =
        some slot' ∧
      slot'.begun ≤ submitsOf requestId s.sent ∧ s.requests.lookup (requestId : ℤ) = some n ∧
      s.submitted n = true := by
  obtain ⟨slot, hslot, hat⟩ := hs.slots requestId
  obtain ⟨slot', hslot', hbegun⟩ := hm requestId
  have hlast : repliesTo ServerMessage.reply? requestId [m] = [x] := by
    simp [repliesTo, hreply]
  have hread : slot.read x = some slot' := by
    rw [repliesTo_append, hlast] at hslot'
    obtain ⟨u, hu, hx⟩ := exec_append.mp hslot'
    obtain rfl : slot = u := Option.some.inj (hslot.symm.trans hu)
    obtain ⟨v, hv, hend⟩ := exec_cons.mp hx
    cases hend
    exact hv
  obtain ⟨n, hn, hsubmitted⟩ := outstanding_eq_true.mp
    (hat.outstanding ((Slot.read_lt hread).trans_le hbegun))
  exact ⟨slot, slot', n, hat, hread, hslot', hbegun, hn, hsubmitted⟩

theorem terminalReceived_of_lookup (hb : s.books.Inv) {i : ℤ} (hn : s.requests.lookup i = some n) :
    (s.states n).terminalReceived = false := by
  have hflag : (s.states n).terminalReceived = (s.received n).isSome := (hb.account n).flag
  have hreceived : s.received n = none := (hb.of_lookup hn).2.2.2.2.1
  rw [hflag, hreceived]
  rfl

theorem Tracks.dispatch_ok (hs : s.Tracks) (hb : s.books.Inv) {c : Connection}
    (hc : s.connection = some c) (hhello : ∀ ack, m ≠ .helloAck ack) (hm : s.Lawful m) :
    ∃ t next, s.dispatch m = .ok (t, next) := by
  cases m with
  | helloAck ack => exact absurd rfl (hhello ack)
  | stats =>
    simp only [dispatch, hc]
    split <;> exact ⟨_, _, rfl⟩
  | accepted =>
    obtain ⟨slot, slot', n, hat, hread, -, -, hn, -⟩ := hs.reads hm rfl
    obtain ⟨hnext, -⟩ := Slot.read_accepted.mp hread
    have haccepted : (s.states n).accepted = false := by
      rw [(hat.entry n hn).1, hnext]
      rfl
    have hrejected : (s.states n).rejected = none := (hb.of_lookup hn).2.2.2.2.2.1
    simp [dispatch, hc, dispatchAccepted, findState, hn, haccepted, hrejected, bind, Except.bind]
  | rejected =>
    obtain ⟨slot, slot', n, hat, hread, -, -, hn, -⟩ := hs.reads hm rfl
    obtain ⟨hnext, -⟩ := Slot.read_rejected.mp hread
    have haccepted : (s.states n).accepted = false := by
      rw [(hat.entry n hn).1, hnext]
      rfl
    simp [dispatch, hc, dispatchRejected, findState, hn, haccepted, bind, Except.bind]
  | tokenDelta requestId sequenceNo tokenIds =>
    obtain ⟨slot, slot', n, hat, hread, -, -, hn, -⟩ := hs.reads hm rfl
    obtain ⟨hnext, -⟩ := Slot.read_delta.mp hread
    obtain ⟨haccepted, hnumber⟩ := hat.entry n hn
    rw [hnext] at haccepted hnumber
    have hcheck : (s.states n).checkEvent = .ok () := by
      simp [RequestState.checkEvent, haccepted, terminalReceived_of_lookup hb hn]
    obtain ⟨⟨r, cancels⟩, hdelta⟩ :=
      onDelta_ok (d := ⟨requestId, sequenceNo, tokenIds⟩) hcheck hnumber.symm
    simp [dispatch, hc, dispatchDelta, findState, hn, hdelta, bind, Except.bind]
  | terminal =>
    obtain ⟨slot, slot', n, hat, hread, -, -, hn, -⟩ := hs.reads hm rfl
    obtain ⟨hnext, -⟩ := Slot.read_terminal.mp hread
    have hcheck : (s.states n).checkEvent = .ok () := by
      simp [RequestState.checkEvent, (hat.entry n hn).1, hnext, terminalReceived_of_lookup hb hn]
    simp [dispatch, hc, dispatchTerminal, findState, hn, hcheck, bind, Except.bind]

structure Answered (s : GenerationClient) (requestId n : ℕ) (t : GenerationClient) : Prop where
  sent : t.sent = s.sent
  submitted : t.submitted = s.submitted
  owner : t.owner = s.owner
  stateCount : t.stateCount = s.stateCount
  others : ∀ i : ℤ, i ≠ requestId → t.requests.lookup i = s.requests.lookup i
  states : ∀ j, j ≠ n → t.states j = s.states j
  threads : ∀ j, (t.threads j).pc.pending = none ∨
    (t.threads j).pc.pending = (s.threads j).pc.pending

theorem Answered.tracks (h : s.Answered requestId n t) (hs : s.Tracks) (hb : s.books.Inv)
    {x : Reply} (hreply : m.reply? = some (requestId, x))
    (hdispatched : t.dispatched = s.dispatched ++ [m])
    (hn : s.requests.lookup (requestId : ℤ) = some n) (hsubmitted : s.submitted n = true)
    (hself : ∃ slot,
      exec Slot.read {} (repliesTo ServerMessage.reply? requestId t.dispatched) = some slot ∧
        t.At requestId slot) : t.Tracks := by
  have hunique := (hb.of_lookup hn).1
  refine ⟨fun r => ?_, fun j n' i hj => ?_, fun n' hn' => ?_⟩
  · by_cases hr : r = requestId
    · exact hr ▸ hself
    · obtain ⟨slot, hslot, hat⟩ := hs.slots r
      have hnone : repliesTo ServerMessage.reply? r [m] = [] := by
        simp [repliesTo, hreply, Ne.symm hr]
      have hne : (r : ℤ) ≠ requestId := by exact_mod_cast hr
      refine ⟨slot, ?_, hat.congr (by rw [h.sent]) (h.others _ hne)
        (fun _ _ => by rw [h.submitted]) (fun n' hn' => ?_)⟩
      · rw [hdispatched, repliesTo_append, hnone, List.append_nil]
        exact hslot
      · have hother : n' ≠ n := by
          rintro rfl
          exact hne ((hunique _).mp hn')
        rw [h.states n' hother]
        exact ⟨rfl, rfl⟩
  · have hold : (s.threads j).pc.pending = some (n', i) := by
      rcases h.threads j with hnone | hsame
      · cases hnone.symm.trans hj
      · exact hsame ▸ hj
    obtain ⟨hn', hno, howner⟩ := hs.pending j n' i hold
    have hne : i ≠ requestId := by
      rintro rfl
      rw [hn] at hn'
      cases hn'
      cases hsubmitted.symm.trans hno
    rw [h.others i hne, h.submitted, h.owner]
    exact ⟨hn', hno, howner⟩
  · rw [h.submitted]
    exact hs.fresh n' (h.stateCount ▸ hn')

theorem answered_of_update (hpc : (s.threads k).pc = .dispatch m)
    (hthreads : t.threads = s.threads) (hstates : t.states = update s.states n r)
    (hrequests : t.requests = s.requests ∨ t.requests = s.requests.erase (requestId : ℤ))
    (hsent : t.sent = s.sent) (hsubmitted : t.submitted = s.submitted)
    (howner : t.owner = s.owner) (hcount : t.stateCount = s.stateCount) :
    s.Answered requestId n
      { t.setPc k (onDispatched next) with dispatched := t.dispatched ++ [m] } where
  sent := hsent
  submitted := hsubmitted
  owner := howner
  stateCount := hcount
  others i hi := by
    rcases hrequests with h | h
    · exact congrArg _ h
    · show t.requests.lookup i = _
      rw [h, lookup_erase_eq, if_neg hi]
  states j hj := by
    show t.states j = _
    rw [hstates, update_of_ne hj]
  threads j := by
    by_cases hj : j = k
    · subst hj
      refine Or.inl ?_
      simp only [setPc, update_self]
      cases next <;> rfl
    · exact Or.inr (by simp only [setPc, update_of_ne hj, hthreads])

theorem at_erased {slot' : Slot} (hat : s.At requestId slot)
    (hn : s.requests.lookup (requestId : ℤ) = some n) (hsubmitted : s.submitted n = true)
    (hrequests : t.requests = s.requests.erase (requestId : ℤ)) (hsent : t.sent = s.sent)
    (hanswered : slot'.answered = slot.answered + 1)
    (hbegun : slot'.begun ≤ submitsOf requestId s.sent) : t.At requestId slot' := by
  have hnone : t.requests.lookup (requestId : ℤ) = none := by
    rw [hrequests, lookup_erase_eq, if_pos rfl]
  have hsubmits := hat.submits
  rw [if_pos (outstanding_eq_true.mpr ⟨n, hn, hsubmitted⟩)] at hsubmits
  refine ⟨?_, hsent ▸ hbegun, fun j hj => ?_⟩
  · have hno : t.outstanding requestId = false := by
      rw [outstanding, hnone]
      rfl
    rw [hsent, hsubmits, hno, hanswered]
    rfl
  · cases hnone.symm.trans hj

theorem dispatch_tracks (hs : s.Tracks) (hb : s.books.Inv) (hpc : (s.threads k).pc = .dispatch m)
    (hm : s.Lawful m) (h : s.dispatch m = .ok (t, next)) :
    { t.setPc k (onDispatched next) with dispatched := t.dispatched ++ [m] }.Tracks := by
  cases dispatch_dispatches h with
  | stats m t hcore hthreads =>
    have haside := Aside.of_core hcore
    refine hs.aside { haside with replies := fun requestId => ?_ } (fun j x hj => ?_)
    · rw [repliesTo_append, haside.replies]
      exact List.append_nil _
    · by_cases hjk : j = k
      · subst hjk
        simp [setPc, onDispatched, Pc.pending] at hj
      · simpa only [setPc, update_of_ne hjk, hthreads] using hj
  | accepted requestId n hfind =>
    obtain ⟨slot, slot', n', hat, hread, hslot', hbegun, hn, hsubmitted⟩ := hs.reads hm rfl
    obtain rfl : n = n' := Option.some.inj (hfind.symm.trans hn)
    obtain ⟨hnext, rfl⟩ := Slot.read_accepted.mp hread
    refine (answered_of_update (t := s.updateState n _) hpc rfl rfl (Or.inl rfl) rfl rfl rfl
      rfl).tracks hs hb rfl rfl hn hsubmitted ⟨_, hslot', hat.submits, hbegun, fun j hj => ?_⟩
    obtain rfl : n = j := Option.some.inj (hn.symm.trans hj)
    have hnumber := (hat.entry n hn).2
    rw [hnext] at hnumber
    simp only [updateState, setPc, update_self]
    exact ⟨rfl, hnumber⟩
  | rejected requestId n status hfind =>
    obtain ⟨slot, slot', n', hat, hread, hslot', hbegun, hn, hsubmitted⟩ := hs.reads hm rfl
    obtain rfl : n = n' := Option.some.inj (hfind.symm.trans hn)
    obtain ⟨hnext, rfl⟩ := Slot.read_rejected.mp hread
    refine (answered_of_update (t := { s.updateState n _ with
      requests := s.requests.erase (requestId : ℤ) }) hpc rfl rfl (Or.inr rfl) rfl rfl rfl
      rfl).tracks hs hb rfl rfl hn hsubmitted ⟨_, hslot', ?_⟩
    exact at_erased hat hn hsubmitted rfl rfl rfl hbegun
  | delta requestId sequenceNo n tokenIds r cancels next hfind hdelta =>
    obtain ⟨slot, slot', n', hat, hread, hslot', hbegun, hn, hsubmitted⟩ := hs.reads hm rfl
    obtain rfl : n = n' := Option.some.inj (hfind.symm.trans hn)
    obtain ⟨hnext, rfl⟩ := Slot.read_delta.mp hread
    refine (answered_of_update (t := s.updateState n _) hpc rfl rfl (Or.inl rfl) rfl rfl rfl
      rfl).tracks hs hb rfl rfl hn hsubmitted ⟨_, hslot', hat.submits, hbegun, fun j hj => ?_⟩
    obtain rfl : n = j := Option.some.inj (hn.symm.trans hj)
    obtain ⟨haccepted, hnumber⟩ := hat.entry n hn
    obtain ⟨hsame, hplus⟩ := onDelta_eq_ok hdelta
    rw [hnext] at haccepted hnumber
    simp only [updateState, setPc, update_self]
    exact ⟨hsame.trans haccepted, hplus.trans (congrArg (· + 1) hnumber)⟩
  | terminal n t hfind =>
    obtain ⟨slot, slot', n', hat, hread, hslot', hbegun, hn, hsubmitted⟩ := hs.reads hm rfl
    obtain rfl : n = n' := Option.some.inj (hfind.symm.trans hn)
    obtain ⟨hnext, rfl⟩ := Slot.read_terminal.mp hread
    refine (answered_of_update (t := { s.updateState n _ with
      requests := s.requests.erase (t.requestId : ℤ)
      received := update s.received n (some t) }) hpc rfl rfl (Or.inr rfl) rfl rfl rfl
      rfl).tracks hs hb rfl rfl hn hsubmitted ⟨_, hslot', ?_⟩
    exact at_erased hat hn hsubmitted rfl rfl rfl hbegun

/-! ## Steps -/

theorem Aside.updateState {f : RequestState → RequestState}
    (haccepted : (f (s.states n)).accepted = (s.states n).accepted)
    (hnumber : (f (s.states n)).nextSequenceNo = (s.states n).nextSequenceNo) :
    s.Aside (s.updateState n f) := by
  refine ⟨rfl, fun _ => rfl, fun _ => rfl, rfl, rfl, rfl, fun j => ?_⟩
  by_cases hj : j = n
  · subst hj
    simp only [updateState, update_self]
    exact ⟨haccepted, hnumber⟩
  · simp [GenerationClient.updateState, update_of_ne hj]

theorem Aside.refl (s : GenerationClient) : s.Aside s := .of_core rfl

theorem Effect.tracks (h : s.Effect k t) (hs : s.Tracks) (hb : s.books.Inv) (hposts : s.Posts)
    (hm : ∀ m, (s.threads k).pc = .dispatch m → s.Lawful m)
    (hfail : ∀ caller status, (s.threads k).pc ≠ .fail caller status) : t.Tracks := by
  have halone := h.alone
  cases h with
  | quiet t pc h =>
    refine hs.thread halone (.of_core h.core) ?_
    rw [h.threads, update_self]
    exact h.leads.pending
  | register request c hpc hconnection hcheck =>
    exact register_tracks hs hb (lookup_of_checkSubmit hcheck)
  | cancel requestId n =>
    exact hs.thread halone { Aside.updateState (s := s) (n := n)
      (f := fun r => { r with cancelSent := true }) rfl rfl with } (Or.inl (by simp [Pc.pending, Caller.submission]))
  | probe | publish | create =>
    exact hs.thread halone { Aside.refl s with } (Or.inl (by simp [registerProbe, GenerationClient.publish, createReader, Pc.pending, Caller.submission]))
  | launch reader =>
    refine hs.thread halone { Aside.refl s with } (Or.inl ?_)
    by_cases hr : k = reader <;> simp [launchReader, hr, Pc.pending]
  | sent caller message serial hpc =>
    have hsends := hposts k caller message (by rw [hpc]; rfl)
    cases caller with
    | submit =>
      cases message with
      | submit => exact sentSubmit_tracks hs hb hsends hpc rfl
      | _ => exact absurd hsends id
    | cancel | health | reader =>
      cases message with
      | submit => exact absurd hsends id
      | _ =>
        exact hs.thread halone { Aside.refl s with
          sent := fun r => submitsOf_append r s.sent serial _ } (Or.inl (by simp [onSent, Pc.pending]))
  | forget n requestId e hpc => exact forget_tracks hs hpc
  | collect caller status hpc => exact absurd hpc (hfail caller status)
  | failRequest caller status n rest responses reader hpc =>
    have hstates : s.Aside (s.failRequest n status) := by
      rw [GenerationClient.failRequest]
      split
      · exact .updateState rfl rfl
      · exact .refl s
    exact hs.thread halone { hstates with } (Or.inr (by rw [setPc_self, hpc]; rfl))
  | dispatch m t next hpc hdispatch => exact dispatch_tracks hs hb hpc (hm m hpc) hdispatch
  | deliver n terminal =>
    have haside : s.Aside (s.readerDeliver k n terminal) ∧
        ((s.readerDeliver k n terminal).threads k).pc.pending = none := by
      rw [readerDeliver]
      split
      · exact ⟨{ Aside.refl s with }, by simp [Pc.pending, FailCaller.pending]⟩
      · exact ⟨{ Aside.updateState (s := s) (n := n)
          (f := fun r => { r with events := (r.events.putTerminal terminal).1 }) rfl rfl with },
          by simp [Pc.pending]⟩
    exact hs.thread halone haside.1 (Or.inl haside.2)

theorem start_tracks (hs : s.Tracks) {pc : Pc} (hpending : pc.pending = none) :
    (s.start pc).Tracks := by
  refine hs.aside { Aside.refl s with } (fun j x hj => ?_)
  by_cases h : j = s.threadCount
  · rw [h, start_self, hpending] at hj
    cases hj
  · rwa [start_other h] at hj

theorem nextEvent_tracks (hs : s.Tracks) (h : s.nextEvent n = some t) : t.Tracks := by
  rw [nextEvent] at h
  split at h
  · cases h
  · next events result hget =>
    cases h
    exact hs.aside { Aside.updateState (s := s) (n := n) (f := fun r => { r with events := events })
      rfl rfl with } (fun _ _ hj => hj)

/-! ## Messages fit their senders -/

theorem Effect.unsent_cases (h : s.Effect k t) {caller : Caller} {message : ClientMessage}
    (hmessage : (t.threads k).pc.unsent = some (caller, message)) :
    (s.threads k).pc.unsent = some (caller, message) ∨
    (caller.Sends message ∧ caller ≠ .reader) ∨
    ∃ m u requestId workerEpoch, caller = .reader ∧ (s.threads k).pc = .dispatch m ∧
      s.dispatch m = .ok (u, .sendCancel requestId workerEpoch) ∧
      message = .cancel requestId workerEpoch := by
  cases h with
  | quiet t pc h =>
    rw [h.threads, update_self] at hmessage
    rcases h.leads.unsent with hnone | hsame
    · cases hnone.symm.trans hmessage
    · exact Or.inl (hsame ▸ hmessage)
  | register =>
    simp only [GenerationClient.register, update_self] at hmessage
    cases hmessage
    exact Or.inr (Or.inl ⟨rfl, by simp⟩)
  | cancel =>
    simp only [update_self] at hmessage
    cases hmessage
    exact Or.inr (Or.inl ⟨trivial, by simp⟩)
  | probe =>
    simp only [registerProbe, update_self] at hmessage
    cases hmessage
    exact Or.inr (Or.inl ⟨trivial, by simp⟩)
  | sent => simp at hmessage
  | forget => simp [GenerationClient.forget, Pc.unsent] at hmessage
  | collect => simp [GenerationClient.collect, Pc.unsent] at hmessage
  | failRequest => simp [Pc.unsent] at hmessage
  | dispatch m t next hpc hdispatch =>
    simp only [setPc_self] at hmessage
    cases next with
    | sendCancel requestId workerEpoch =>
      cases hmessage
      exact Or.inr (Or.inr ⟨m, t, requestId, workerEpoch, rfl, hpc, hdispatch, rfl⟩)
    | _ => cases hmessage
  | deliver =>
    rw [readerDeliver] at hmessage
    split at hmessage <;> simp [Pc.unsent] at hmessage
  | publish => simp [GenerationClient.publish, Pc.unsent] at hmessage
  | create => simp [createReader, Pc.unsent] at hmessage
  | launch reader =>
    by_cases hr : k = reader <;> simp [launchReader, hr, Pc.unsent] at hmessage

theorem Alone.unsent (h : s.Alone k t) (hj : j ≠ k) {x : Caller × ClientMessage}
    (hx : (t.threads j).pc.unsent = some x) : (s.threads j).pc.unsent = some x := by
  rcases h.others j hj with hsame | ⟨-, hloop⟩
  · exact hsame ▸ hx
  · rw [hloop] at hx
    cases hx

theorem Effect.posts (h : s.Effect k t) (hs : s.Posts) : t.Posts := by
  intro j caller message hmessage
  by_cases hj : j = k
  · subst hj
    rcases h.unsent_cases hmessage with hold | ⟨hsends, -⟩ | ⟨m, u, requestId, workerEpoch, rfl, -, -, rfl⟩
    · exact hs j caller message hold
    · exact hsends
    · trivial
  · exact hs j caller message (h.alone.unsent hj hmessage)

/-! ## What a step leaves -/

structure Steady (s t : GenerationClient) : Prop where
  connection : t.connection = s.connection
  connections : t.connections = s.connections
  sent : t.sent = s.sent
  dispatched : t.dispatched = s.dispatched
  requests : s.requests = ∅ → t.requests = ∅

/-- A step registers a request, sends a message, fails the client, dispatches a
message, publishes a connection, or does none of this. -/
inductive Outline (s : GenerationClient) (k : ℕ) (t : GenerationClient) : Prop where
  | register (request : GenerationRequest) (c : Connection) (hconnection : s.connection = some c)
      (ht : t = s.register k c request)
  | sent (caller : Caller) (message : ClientMessage) (serial : ℕ)
      (hpc : (s.threads k).pc = .sending caller message serial)
      (ht : s.Steady { t with sent := s.sent }) (hsent : t.sent = s.sent ++ [(serial, message)])
  | collect (caller : FailCaller) (status : Status) (hpc : (s.threads k).pc = .fail caller status)
      (ht : t = s.collect k caller status)
  | dispatch (m : ServerMessage) (u : GenerationClient) (next : Dispatched)
      (hpc : (s.threads k).pc = .dispatch m) (hdispatch : s.dispatch m = .ok (u, next))
      (ht : s.Steady { t with dispatched := s.dispatched })
      (hdispatched : t.dispatched = s.dispatched ++ [m])
  | publish (ack : HelloAck) (hpc : (s.threads k).pc = .handshake) (ht : t = s.publish k ack)
  | steady (ht : s.Steady t)

theorem Steady.of_core (h : t.core = s.core) : s.Steady t := by
  simp only [core, Core.mk.injEq] at h
  obtain ⟨h₁, h₂, -, h₃, -, -, -, -, -, -, -, -, -, -, -, h₄, h₅⟩ := h
  exact ⟨h₁, h₂, h₄, h₅, fun h => h₃.trans h⟩

theorem dispatch_steady (h : s.Dispatches m t next) : s.Steady t := by
  cases h with
  | stats m t hcore => exact .of_core hcore
  | accepted | delta =>
    exact ⟨rfl, rfl, rfl, rfl, id⟩
  | rejected requestId n status hfind | terminal n t hfind =>
    refine ⟨rfl, rfl, rfl, rfl, fun h => ?_⟩
    simp [h] at hfind

theorem Effect.outline (h : s.Effect k t) : s.Outline k t := by
  cases h with
  | quiet t pc h => exact .steady (.of_core h.core)
  | register request c hpc hconnection => exact .register request c hconnection rfl
  | cancel | probe | create | launch => exact .steady ⟨rfl, rfl, rfl, rfl, id⟩
  | sent caller message serial hpc =>
    exact .sent caller message serial hpc ⟨rfl, rfl, rfl, rfl, id⟩ rfl
  | forget n requestId =>
    refine .steady ⟨rfl, rfl, rfl, rfl, fun h => ?_⟩
    show s.requests.erase requestId = ∅
    rw [h]
    rfl
  | collect caller status hpc => exact .collect caller status hpc rfl
  | failRequest =>
    refine .steady ?_
    rw [GenerationClient.failRequest]
    split <;> exact ⟨rfl, rfl, rfl, rfl, id⟩
  | dispatch m t next hpc hdispatch =>
    obtain ⟨h₁, h₂, h₃, h₄, h₅⟩ := dispatch_steady (dispatch_dispatches hdispatch)
    exact .dispatch m t next hpc hdispatch ⟨h₁, h₂, h₃, rfl, h₅⟩ (congrArg (· ++ [m]) h₄)
  | deliver =>
    refine .steady ?_
    rw [readerDeliver]
    split <;> exact ⟨rfl, rfl, rfl, rfl, id⟩
  | publish ack hpc => exact .publish ack hpc rfl

theorem not_publish {ack : HelloAck} (hpc : (s.threads k).pc = .handshake)
    (hchoice : ∀ m, choice ≠ .message m) (h : s.threadStep k choice = some (s.publish k ack)) :
    False := by
  rw [threadStep, hpc] at h
  cases choice with
  | message m => exact hchoice m rfl
  | raised =>
    have hsame := congrArg connections (Option.some.inj h)
    exact absurd hsame (Nat.ne_of_lt (Nat.lt_succ_self _))
  | go | timedOut => cases h

theorem publish_of_helloAck {ack other : HelloAck} (hpc : (s.threads k).pc = .handshake)
    (h : s.threadStep k (.message (.helloAck ack)) = some (s.publish k other)) : other = ack := by
  rw [threadStep, hpc] at h
  simp only [stepAt, checkHelloAck, raiseProtocol] at h
  split_ifs at h with hmanifest hframe
  · have hsame := congrArg connections (Option.some.inj h)
    exact absurd hsame (Nat.ne_of_lt (Nat.lt_succ_self _))
  · have hsame := congrArg connections (Option.some.inj h)
    exact absurd hsame (Nat.ne_of_lt (Nat.lt_succ_self _))
  · have hsame := congrArg connection (Option.some.inj h)
    simp only [publish, Option.some.injEq, Connection.mk.injEq, true_and] at hsame
    exact hsame.symm

theorem dispatch_sendCancel {workerEpoch : ℕ}
    (h : s.dispatch m = .ok (t, .sendCancel requestId workerEpoch)) :
    ∃ c sequenceNo tokenIds, s.connection = some c ∧ workerEpoch = c.helloAck.workerEpoch ∧
      m = .tokenDelta requestId sequenceNo tokenIds := by
  cases hc : s.connection with
  | none => simp [dispatch, hc] at h
  | some c =>
    cases m with
    | tokenDelta r sequenceNo tokenIds =>
      simp only [dispatch, hc, dispatchDelta, bind, Except.bind] at h
      split at h
      · cases h
      · split at h
        · cases h
        · next cancels _ =>
          cases cancels with
          | true =>
            cases h
            exact ⟨c, sequenceNo, tokenIds, rfl, rfl, rfl⟩
          | false => cases h
    | _ => cases dispatch_dispatches h

/-! ## The one reader -/

theorem Effect.turns (h : s.Effect k t) :
    ((t.threads k).pc.reading = true → (s.threads k).pc.reading = true ∨
      ∃ ack, (s.threads k).pc = .handshake ∧ t = s.publish k ack) ∧
    ∀ m, (t.threads k).pc = .dispatch m → ∃ c, (s.threads k).pc = .receiving c := by
  cases h with
  | quiet t pc h =>
    rw [h.threads, update_self]
    exact ⟨fun hk => Or.inl (h.leads.reading hk), h.leads.dispatching⟩
  | publish ack hpc => exact ⟨fun _ => Or.inr ⟨ack, hpc, rfl⟩, by simp [GenerationClient.publish]⟩
  | create hpc => exact ⟨fun _ => Or.inl (by rw [hpc]; rfl), by simp [createReader]⟩
  | launch reader hpc =>
    refine ⟨fun _ => Or.inl (by rw [hpc]; rfl), ?_⟩
    by_cases hr : k = reader <;> simp [launchReader, hr]
  | dispatch m t next hpc =>
    exact ⟨fun _ => Or.inl (by rw [hpc]; rfl), by cases next <;> simp [onDispatched]⟩
  | deliver n terminal hpc =>
    refine ⟨fun _ => Or.inl (by rw [hpc]; rfl), ?_⟩
    rw [readerDeliver]
    split <;> simp
  | sent caller message serial hpc =>
    cases caller with
    | reader => exact ⟨fun _ => Or.inl (by rw [hpc]; rfl), by simp [onSent]⟩
    | _ => simp [onSent, Pc.reading]
  | register | cancel | probe | forget | collect | failRequest =>
    simp [GenerationClient.register, registerProbe, GenerationClient.forget,
      GenerationClient.collect, Pc.reading]

theorem reading_origin (h : s.threadStep k choice = some t)
    (hhandshake : (s.threads k).pc = .handshake → ∀ m, choice ≠ .message m)
    (hj : (t.threads j).pc.reading = true) : (s.threads j).pc.reading = true ∨
      (s.threads k).pc = .launchReader j ∧ (t.threads k).pc.reading = false := by
  by_cases hjk : j = k
  · subst hjk
    rcases (threadStep_effect h).turns.1 hj with hold | ⟨ack, hpc, rfl⟩
    · exact Or.inl hold
    · exact (not_publish hpc (hhandshake hpc) h).elim
  · rcases (threadStep_effect h).alone.others j hjk with hsame | ⟨hlaunching, -⟩
    · exact Or.inl (hsame ▸ hj)
    · have hpc : (s.threads k).pc = .launchReader j := by
        cases hpc : (s.threads k).pc with
        | launchReader =>
          rw [hpc] at hlaunching
          cases hlaunching
          rfl
        | _ =>
          rw [hpc] at hlaunching
          cases hlaunching
      refine Or.inr ⟨hpc, ?_⟩
      rw [threadStep, hpc] at h
      cases choice with
      | go =>
        cases h
        simp [launchReader, Ne.symm hjk, Pc.reading]
      | raised =>
        cases h
        simp [Pc.reading]
      | _ => cases h

def OneReader (s : GenerationClient) : Prop :=
  ∀ i j, (s.threads i).pc.reading = true → (s.threads j).pc.reading = true → i = j

theorem OneReader.step (hs : s.OneReader) (h : s.threadStep k choice = some t)
    (hhandshake : (s.threads k).pc = .handshake → ∀ m, choice ≠ .message m) : t.OneReader := by
  intro i j hi hj
  rcases reading_origin h hhandshake hi with hi' | ⟨hpc, hk⟩ <;>
    rcases reading_origin h hhandshake hj with hj' | ⟨hpc', hk'⟩
  · exact hs i j hi' hj'
  · obtain rfl : i = k := hs i k hi' (by rw [hpc']; rfl)
    cases hk'.symm.trans hi
  · obtain rfl : j = k := hs j k hj' (by rw [hpc]; rfl)
    cases hk.symm.trans hj
  · rw [hpc] at hpc'
    cases hpc'
    rfl

theorem dispatching_origin (h : s.threadStep k choice = some t)
    (hchoice : ∀ m, choice ≠ .message m) (hj : (t.threads j).pc = .dispatch m) :
    j ≠ k ∧ (s.threads j).pc = .dispatch m := by
  have hjk : j ≠ k := by
    rintro rfl
    obtain ⟨c, hpc⟩ := (threadStep_effect h).turns.2 m hj
    rw [threadStep, hpc] at h
    cases choice with
    | message m' => exact hchoice m' rfl
    | raised =>
      cases h
      simp at hj
    | _ => cases h
  refine ⟨hjk, ?_⟩
  rcases (threadStep_effect h).alone.others j hjk with hsame | ⟨-, hloop⟩
  · exact hsame ▸ hj
  · cases hloop.symm.trans hj

theorem dispatching_stays (hs : s.Launches) (h : s.threadStep k choice = some t) (hjk : j ≠ k)
    (hj : (s.threads j).pc = .dispatch m) : (t.threads j).pc = .dispatch m := by
  rcases (threadStep_effect h).alone.others j hjk with hsame | ⟨hlaunching, -⟩
  · exact hsame.trans hj
  · rw [(hs.created k j hlaunching).2] at hj
    cases hj

theorem go_of_sent {caller : Caller} {message : ClientMessage} {serial : ℕ}
    (hpc : (s.threads k).pc = .sending caller message serial) (h : s.threadStep k choice = some t)
    (hsent : t.sent = s.sent ++ [(serial, message)]) : choice = .go := by
  rw [threadStep, hpc] at h
  cases choice with
  | go => rfl
  | raised e => cases e <;> cases h <;> simp [setPc] at hsent
  | _ => cases h

theorem threadStep_dispatch {u : GenerationClient} (hpc : (s.threads k).pc = .dispatch m)
    (hdispatch : s.dispatch m = .ok (u, next)) (h : s.threadStep k choice = some t) :
    t = { u.setPc k (onDispatched next) with dispatched := u.dispatched ++ [m] } := by
  rw [threadStep, hpc] at h
  cases choice with
  | go =>
    simp only [stepAt, readerDispatch, hdispatch] at h
    exact (Option.some.inj h).symm
  | _ => cases h

theorem collect_tracks (hs : s.Tracks) (hempty : s.requests = ∅) {caller : FailCaller} {status : Status}
    (hpc : (s.threads k).pc = .fail caller status) : (s.collect k caller status).Tracks := by
  refine hs.aside ⟨hempty.symm, fun _ => rfl, fun _ => rfl, rfl, rfl, rfl, fun n => ?_⟩
    (fun j x hj => ?_)
  · have hnone : n ∉ s.requests.entries.map Sigma.snd := by
      rw [hempty]
      exact List.not_mem_nil
    simp [collect, hnone]
  · by_cases hjk : j = k
    · subst hjk
      simp only [collect, setPc_self] at hj
      rw [hpc]
      exact hj
    · simpa only [collect, setPc, update_of_ne hjk] using hj

theorem threadStep_fail {caller : FailCaller} {status : Status}
    (hpc : (s.threads k).pc = .fail caller status) (h : s.threadStep k choice = some t) :
    t = s.collect k caller status := by
  rw [threadStep, hpc] at h
  cases choice with
  | go => exact (Option.some.inj h).symm
  | _ => cases h

/-! ## New calls and consumers -/

structure Calls (s t : GenerationClient) : Prop where
  steady : s.Steady t
  books : s.books.Inv → t.books.Inv
  launches : t.Launches
  tracks : s.Tracks → t.Tracks
  threads : ∀ j, t.threads j = s.threads j ∨ (s.threads j).pc = .finished .returned ∧
    (t.threads j).pc.unsent = none ∧ (t.threads j).pc.reading = false

theorem start_calls (hs : s.Launches) {pc : Pc} (hheld : pc.held = []) (hlaunch : pc.launching = none)
    (hpending : pc.pending = none) (hunsent : pc.unsent = none)
    (hreading : pc.reading = false) : s.Calls (s.start pc) := by
  have hfinished := hs.unused s.threadCount (Nat.le_refl _)
  refine ⟨⟨rfl, rfl, rfl, rfl, id⟩, fun hb => ?_, start_launches hs hlaunch,
    fun htracks => start_tracks htracks hpending, fun j => ?_⟩
  · have hbooks : (s.start pc).books = s.books := by
      refine books_eq (held_update_same ?_) rfl
      rw [hfinished, hheld]
      rfl
    exact hbooks ▸ hb
  · by_cases hj : j = s.threadCount
    · subst hj
      rw [start_self]
      exact Or.inr ⟨hfinished, hunsent, hreading⟩
    · exact Or.inl (start_other hj)

theorem nextEvent_calls (hs : s.Launches) (h : s.nextEvent n = some t) : s.Calls t := by
  have htracks : s.Tracks → t.Tracks := fun hs => nextEvent_tracks hs h
  rw [nextEvent] at h
  split at h
  · cases h
  · next events result hget =>
    cases h
    exact ⟨⟨rfl, rfl, rfl, rfl, id⟩, fun hb => (Books.keeps_consume hb (n := n) hget).inv,
      { hs with }, htracks, fun _ => Or.inl rfl⟩

theorem step_calls (hs : s.Launches) {a : ClientAction} (ha : ∀ k choice, a ≠ .thread k choice)
    (h : s.step a = some t) : s.Calls t := by
  cases a with
  | submit | cancel | health | close | connect =>
    cases h; exact start_calls hs rfl rfl rfl rfl rfl
  | nextEvent => exact nextEvent_calls hs h
  | thread k choice => exact absurd rfl (ha k choice)

theorem Calls.unsent (h : s.Calls t) {x : Caller × ClientMessage}
    (hx : (t.threads j).pc.unsent = some x) : (s.threads j).pc.unsent = some x := by
  rcases h.threads j with hsame | ⟨-, hnone, -⟩
  · exact hsame ▸ hx
  · cases hnone.symm.trans hx

theorem Calls.reading (h : s.Calls t) (hj : (t.threads j).pc.reading = true) :
    (s.threads j).pc.reading = true := by
  rcases h.threads j with hsame | ⟨-, -, hnone⟩
  · exact hsame ▸ hj
  · cases hnone.symm.trans hj

theorem Calls.dispatching (h : s.Calls t) (j : ℕ) (m : ServerMessage) :
    (t.threads j).pc = .dispatch m ↔ (s.threads j).pc = .dispatch m := by
  rcases h.threads j with hsame | ⟨hfinished, -, hnone⟩
  · rw [hsame]
  · refine ⟨fun hj => ?_, fun hj => ?_⟩
    · rw [hj] at hnone
      cases hnone
    · cases hj.symm.trans hfinished

end GenerationClient
end KimServing.Client

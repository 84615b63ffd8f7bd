import KimServing.Backend.TrtLlmExecutorBackend

/-! # What a step of the backend can do

Most steps only move one thread. The others call one request state, erase a request that
was finalized, or register one. A thread in `finalizeRequest` relies on what it has done so
far: between the two halves of `finalize` it holds the lock of the request, and before it
erases the request is terminal.
-/
namespace KimServing
open Library Function Option

def BackendPc.finalizing : BackendPc → Option (FinalizePc × ℕ)
  | .stopFinalize pc n _ => some (pc, n)
  | _ => none

def ResponsePumpPc.finalizing : ResponsePumpPc → Option (FinalizePc × ℕ)
  | .finalize pc f _ _ | .finalizeOne pc f _ _ => some (pc, f.request)
  | _ => none

namespace BackendPc

def withoutPump : BackendPc → Bool
  | .startValidate | .startExecutor | .startReset _ | .startResetFinish _ | .stopSnapshot
  | .stopFinalizeAll _ | .stopFinalize _ _ _ | .stopFinish => true
  | _ => false

def holdsLifecycle (pc : BackendPc) : Bool :=
  pc.withoutPump || match pc with
    | .startCheck | .stopTable | .stopMark _ _ | .stopCancel _ | .stopJoin | .unlock _ => true
    | _ => false

theorem holdsLifecycle_of_withoutPump {pc : BackendPc} (h : pc.withoutPump = true) :
    pc.holdsLifecycle = true := by simp [holdsLifecycle, h]

theorem finalizing_of_not_withoutPump {pc : BackendPc} (h : pc.withoutPump = false) :
    pc.finalizing = none := by
  cases pc with
  | stopFinalize => cases h
  | _ => rfl

end BackendPc

namespace Backend

variable {s s' s₁ : Backend} {k n : ℕ} {env : BackendEnv} {t : BackendThread} {f : Finalization}
  {pc : FinalizePc} {next : Option FinalizePc}

def finalizing (s : Backend) : BackendThread → Option (FinalizePc × ℕ)
  | .call k => (s.calls k).finalizing
  | .pump => s.pump.finalizing

/-- What a call of `finalizeRequest` relies on. -/
def Relies (s : Backend) (t : BackendThread) : Option (FinalizePc × ℕ) → Prop
  | some (.finish, n) =>
    n < s.count ∧ s.owner n = some t ∧ (s.objects n).holder = some .terminal
  | some (.erase, n) => n < s.count ∧ (s.objects n).state.phase = .terminal
  | _ => True

def Unbound (place : Option (FinalizePc × ℕ)) : Prop := ∀ pc n, place = some (pc, n) → pc = .offer

theorem Unbound.none : Unbound none := fun _ _ h => by cases h

theorem Unbound.offer (n : ℕ) : Unbound (some (.offer, n)) := fun _ _ h => by cases h; rfl

theorem Unbound.relies {place : Option (FinalizePc × ℕ)} (h : Unbound place) (s : Backend)
    (t : BackendThread) : s.Relies t place := by
  match place with
  | .none | some (.offer, n) => trivial
  | some (.finish, n) => cases h .finish n rfl
  | some (.erase, n) => cases h .erase n rfl

structure SameBooks (s s' : Backend) : Prop where
  requests : s'.requests = s.requests
  externalToExecutor : s'.externalToExecutor = s.externalToExecutor
  objects : s'.objects = s.objects
  count : s'.count = s.count

theorem SameBooks.refl (s : Backend) : SameBooks s s := ⟨rfl, rfl, rfl, rfl⟩

def TablesEmpty (s : Backend) : Prop := s.requests.keys = [] ∧ s.externalToExecutor.keys = []

/-- A step of one call of a request state, and what it does to the lock. -/
structure Touches (s s' : Backend) (t : Option BackendThread) (n : ℕ) (g : Gate) : Prop where
  known : n < s.count
  step : ∃ call, (s.objects n).step call = some g
  books : SameBooks (s.setObject n g) s'
  state : s'.state = s.state
  others : ∀ m ≠ n, s'.owner m = s.owner m
  lock : (s.objects n).holder = none ∨ (∃ u, t = some u ∧ s.owner n = some u) ∨
    s'.owner n = s.owner n ∧ g.holder = (s.objects n).holder

/-- The executor does not return the id of a request that is still in the table. -/
def freshExecutorIds (s : Backend) : BackendAction → Bool
  | .submit k env =>
    match s.calls k, env.threw with
    | .submitTable _ _, none => (s.requests.lookup env.executorId).isNone
    | _, _ => true
  | _ => true

/-- What the step of a thread, or of a consumer, does to the books when the executor's ids
are fresh. -/
inductive BookEffect (s s' : Backend) (t : Option BackendThread) : Prop where
  | moves (books : SameBooks s s') (owner : s'.owner = s.owner)
      (settles : s'.state = .stopped → s.state = .stopped ∨ s.TablesEmpty)
  | touches (n : ℕ) (g : Gate) (h : s.Touches s' t n g)
  | erases (u : BackendThread) (n : ℕ) (hu : t = some u)
      (hplace : s.finalizing u = some (.erase, n)) (books : SameBooks (s.eraseRequest n) s')
      (owner : s'.owner = s.owner) (state : s'.state = s.state)
  | registers (request : GenerationRequest) (mailbox : GenerationMailboxConfig) (executorId : ℕ)
      (hrunning : s.state = .running) (hstate : s'.state = .running)
      (hexternal : s.externalToExecutor.lookup request.context.requestId = none)
      (hexecutor : s.requests.lookup executorId = none)
      (books : SameBooks (s.register request mailbox executorId) s') (owner : s'.owner = s.owner)

/-- The effect of a step: its thread keeps what it relies on, and no other thread enters or
leaves `finalizeRequest` unless it ends. -/
structure Effect (s s' : Backend) (t : Option BackendThread) : Prop where
  books : s.BookEffect s' t
  mover : ∀ u, t = some u → s.Relies u (s.finalizing u) → s'.Relies u (s'.finalizing u)
  others : ∀ u, t ≠ some u → s'.finalizing u = s.finalizing u ∨ s'.finalizing u = none

/-! ## Request states and tables -/

theorem locked_eq_some {call : GateCall} :
    s.locked n call = some s' ↔
      n < s.count ∧ ∃ g, (s.objects n).step call = some g ∧ s' = s.setObject n g := by
  unfold locked
  split
  · next h => simp [h, eq_comm]
  · next h => simp [h]

@[simp] theorem setObject_self (s : Backend) (n : ℕ) (g : Gate) : (s.setObject n g).objects n = g :=
  update_self (β := fun _ => Gate) n g s.objects

theorem setObject_ne (s : Backend) {m : ℕ} (g : Gate) (h : m ≠ n) :
    (s.setObject n g).objects m = s.objects m := update_of_ne (β := fun _ => Gate) h g s.objects

@[simp] theorem setOwner_self (s : Backend) (n : ℕ) (t : Option BackendThread) :
    (s.setOwner n t).owner n = t := update_self (β := fun _ => Option BackendThread) n t s.owner

theorem setOwner_ne (s : Backend) {m : ℕ} (t : Option BackendThread) (h : m ≠ n) :
    (s.setOwner n t).owner m = s.owner m :=
  update_of_ne (β := fun _ => Option BackendThread) h t s.owner

theorem eraseRequest_objects (s : Backend) (n : ℕ) :
    (s.eraseRequest n).objects = s.objects ∧ (s.eraseRequest n).count = s.count := by
  unfold eraseRequest
  split <;> exact ⟨rfl, rfl⟩

def AtOnce : GateCall → Bool
  | .markRunning | .markCancelling | .waitPop | .close => true
  | _ => false

theorem Touches.atOnce {t : Option BackendThread} {call : GateCall} {g : Gate} (hn : n < s.count)
    (h : (s.objects n).step call = some g) (hcall : AtOnce call = true)
    (books : SameBooks (s.setObject n g) s') (owner : s'.owner = s.owner)
    (state : s'.state = s.state) : s.Touches s' t n g := by
  refine ⟨hn, ⟨call, h⟩, books, state, fun m _ => by rw [owner], ?_⟩
  cases Gate.step_effect h with
  | pop | close => exact Or.inr (Or.inr ⟨by rw [owner], rfl⟩)
  | finish | takes | ends => cases hcall
  | quiet _ _ hfree => exact Or.inl hfree

theorem Touches.offers {t : Option BackendThread} {call : GateCall} {g : Gate} (hn : n < s.count)
    (h : (s.objects n).step call = some g) (hcall : Gate.Publishes call)
    (books : SameBooks (s.setObject n g) s') (owner : ∀ m ≠ n, s'.owner m = s.owner m)
    (state : s'.state = s.state) : s.Touches s' t n g := by
  refine ⟨hn, ⟨call, h⟩, books, state, owner, ?_⟩
  cases Gate.step_effect h with
  | pop | close | finish => cases hcall
  | quiet _ _ hfree | takes _ hfree | ends _ _ hfree => exact Or.inl hfree

theorem Touches.finishes {g : Gate} (hn : n < s.count) (h : (s.objects n).step .finish = some g)
    (howner : s.owner n = some t) (books : SameBooks (s.setObject n g) s')
    (owner : ∀ m ≠ n, s'.owner m = s.owner m) (state : s'.state = s.state) :
    s.Touches s' (some t) n g :=
  ⟨hn, ⟨.finish, h⟩, books, state, owner, Or.inr (Or.inl ⟨t, rfl, howner⟩)⟩

/-! ## `finalizeRequest` -/

theorem offered {g g' : Gate} {status : Status} {finishReason : Option FinishReason}
    (h : g.step (.finalize status finishReason) = some g') :
    (∀ rs, g.state.offerTerminal status finishReason = .ok rs → g'.holder = some .terminal) ∧
    (g.state.offerTerminal status finishReason = .error .alreadyCommitted →
      g'.state.phase = .terminal) := by
  simp only [Gate.step, Gate.lockedStep] at h
  split at h
  · cases h
  · cases ho : g.state.offerTerminal status finishReason with
    | ok =>
      simp only [ho] at h
      cases h
      exact ⟨fun _ _ => rfl, fun h => (by cases h)⟩
    | error =>
      simp only [ho] at h
      cases h
      refine ⟨fun _ h => (by cases h), ?_⟩
      intro h
      cases h
      unfold RequestState.offerTerminal at ho
      split at ho
      · next hterminal => exact hterminal
      · split at ho <;> cases ho

theorem finalizing_of_threads (hcalls : s'.calls = s.calls) (hpump : s'.pump = s.pump)
    (u : BackendThread) : s'.finalizing u = s.finalizing u := by
  cases u with
  | call k => exact congrArg BackendPc.finalizing (congrFun hcalls k)
  | pump => exact congrArg ResponsePumpPc.finalizing hpump

/-- What one step of `finalizeRequest` does, and where it goes on. -/
inductive Finalizes (s : Backend) (t : BackendThread) (f : Finalization) :
    FinalizePc → Backend → Option FinalizePc → Prop where
  | refused (g : Gate) (hn : f.request < s.count)
      (hstep : (s.objects f.request).step (.finalize f.status f.finishReason) = some g)
      (ho : (s.objects f.request).state.offerTerminal f.status f.finishReason =
        .error .mailboxRejected) : s.Finalizes t f .offer (s.setObject f.request g) none
  | late (g : Gate) (hn : f.request < s.count)
      (hstep : (s.objects f.request).step (.finalize f.status f.finishReason) = some g)
      (ho : (s.objects f.request).state.offerTerminal f.status f.finishReason =
        .error .alreadyCommitted) : s.Finalizes t f .offer (s.setObject f.request g) (some .erase)
  | commits (g : Gate) (rs : RequestState) (hn : f.request < s.count)
      (hstep : (s.objects f.request).step (.finalize f.status f.finishReason) = some g)
      (ho : (s.objects f.request).state.offerTerminal f.status f.finishReason = .ok rs) :
      s.Finalizes t f .offer ((s.setObject f.request g).setOwner f.request (some t)) (some .finish)
  | finishes (g : Gate) (hn : f.request < s.count)
      (hstep : (s.objects f.request).step .finish = some g) (howner : s.owner f.request = some t) :
      s.Finalizes t f .finish ((s.setObject f.request g).setOwner f.request none) (some .erase)
  | erases : s.Finalizes t f .erase (s.eraseRequest f.request) none

theorem finalizeStep_finalizes (h : s.finalizeStep t f pc = some (s', next)) :
    s.Finalizes t f pc s' next := by
  cases pc with
  | offer =>
    simp only [finalizeStep] at h
    split at h
    all_goals
      obtain ⟨s₁, hlocked, heq⟩ := map_eq_some_iff.mp h
      obtain ⟨hn, g, hstep, rfl⟩ := locked_eq_some.mp hlocked
      cases heq
    · next ho => exact .refused g hn hstep ho
    · next r hrejected ho =>
      cases r with
      | committed => exact absurd rfl (RequestState.offerTerminal_error ho)
      | alreadyCommitted => exact .late g hn hstep ho
      | mailboxRejected => exact absurd rfl hrejected
    · next rs ho => exact .commits g rs hn hstep ho
  | finish =>
    obtain ⟨howner, h⟩ := ite_none_right_eq_some.mp h
    obtain ⟨s₁, hlocked, heq⟩ := map_eq_some_iff.mp h
    obtain ⟨hn, g, hstep, rfl⟩ := locked_eq_some.mp hlocked
    cases heq
    exact .finishes g hn hstep howner
  | erase =>
    obtain ⟨-, heq⟩ := ite_none_right_eq_some.mp h
    cases heq
    exact .erases

/-- What `finalizeRequest` leaves alone. -/
structure SameControl (s s' : Backend) : Prop where
  calls : s'.calls = s.calls
  pump : s'.pump = s.pump
  lifecycleLock : s'.lifecycleLock = s.lifecycleLock
  state : s'.state = s.state

theorem finalizeStep_control (h : s.finalizeStep t f pc = some (s', next)) : SameControl s s' := by
  cases finalizeStep_finalizes h with
  | refused | late | commits | finishes => exact ⟨rfl, rfl, rfl, rfl⟩
  | erases =>
    unfold eraseRequest
    split <;> exact ⟨rfl, rfl, rfl, rfl⟩

theorem finalizeStep_effect (h : s.finalizeStep t f pc = some (s₁, next))
    (hplace : s.finalizing t = some (pc, f.request))
    (hnext : s'.finalizing t = next.map (fun pc => (pc, f.request)))
    (hothers : ∀ u ≠ t, s'.finalizing u = s.finalizing u) (books : SameBooks s₁ s')
    (owner : s'.owner = s₁.owner) (state : s'.state = s₁.state) : s.Effect s' (some t) := by
  have hpublish : Gate.Publishes (.finalize f.status f.finishReason) := trivial
  suffices hown : s.BookEffect s' (some t) ∧
      (s.Relies t (some (pc, f.request)) → s'.Relies t (next.map (fun pc => (pc, f.request)))) by
    refine ⟨hown.1, ?_, fun u hu => Or.inl (hothers u fun heq => hu (congrArg some heq.symm))⟩
    rintro u hu hrelies
    cases hu
    rw [hnext]
    exact hown.2 (hplace ▸ hrelies)
  cases finalizeStep_finalizes h with
  | refused g hn hstep =>
    exact ⟨.touches _ g (.offers hn hstep hpublish books (fun m _ => by rw [owner]; rfl) state),
      fun _ => trivial⟩
  | late g hn hstep ho =>
    refine ⟨.touches _ g (.offers hn hstep hpublish books (fun m _ => by rw [owner]; rfl) state),
      fun _ => ⟨by rw [books.count]; exact hn, ?_⟩⟩
    rw [books.objects, setObject_self]
    exact (offered hstep).2 ho
  | commits g rs hn hstep ho =>
    refine ⟨.touches _ g (.offers hn hstep hpublish { books with }
      (fun m hm => by rw [owner]; exact setOwner_ne _ _ hm) state), fun _ =>
      ⟨by rw [books.count]; exact hn, by rw [owner]; exact setOwner_self _ _ _, ?_⟩⟩
    rw [books.objects]
    show ((s.setObject f.request g).objects f.request).holder = _
    rw [setObject_self]
    exact (offered hstep).1 rs ho
  | finishes g hn hstep howner =>
    refine ⟨.touches _ g (.finishes hn hstep howner { books with }
      (fun m hm => by rw [owner]; exact setOwner_ne _ _ hm) state), fun hrelies =>
      ⟨by rw [books.count]; exact hn, ?_⟩⟩
    rw [books.objects]
    show ((s.setObject f.request g).objects f.request).state.phase = _
    rw [setObject_self]
    obtain ⟨pending, hpending, rfl⟩ := map_eq_some_iff.mp hstep
    rw [hrelies.2.2] at hpending
    cases hpending
    rfl
  | erases =>
    have hsame : (s.eraseRequest f.request).owner = s.owner := by
      unfold eraseRequest
      split <;> rfl
    exact ⟨.erases t f.request rfl hplace books (owner.trans hsame)
      (state.trans (finalizeStep_control h).state), fun _ => trivial⟩

/-! ## The threads -/

theorem finalizing_setCall_ne (s : Backend) (pc : BackendPc) {u : BackendThread} (h : u ≠ .call k) :
    (s.setCall k pc).finalizing u = s.finalizing u := by
  cases u with
  | pump => rfl
  | call j =>
    have hj : j ≠ k := fun heq => h (congrArg BackendThread.call heq)
    show (update s.calls k pc j).finalizing = _
    rw [update_of_ne hj]
    rfl

@[simp] theorem finalizing_setCall (s : Backend) (k : ℕ) (pc : BackendPc) :
    (s.setCall k pc).finalizing (.call k) = pc.finalizing := by
  show (update s.calls k pc k).finalizing = _
  rw [update_self]

theorem Effect.call {pc : BackendPc} (hpc : Unbound pc.finalizing) (hcalls : s₁.calls = s.calls)
    (hpump : s₁.pump.finalizing = s.pump.finalizing ∨ s₁.pump.finalizing = none)
    (hbooks : s.BookEffect (s₁.setCall k pc) (some (.call k))) :
    s.Effect (s₁.setCall k pc) (some (.call k)) := by
  refine ⟨hbooks, ?_, ?_⟩
  · rintro u hu -
    cases hu
    rw [finalizing_setCall]
    exact hpc.relies _ _
  · intro u hu
    have hne : u ≠ .call k := fun heq => hu (congrArg some heq.symm)
    rw [finalizing_setCall_ne s₁ pc hne]
    cases u with
    | pump => exact hpump
    | call j =>
      left
      show (s₁.calls j).finalizing = (s.calls j).finalizing
      rw [hcalls]

theorem settledState_stopped (h : s.settledState = .stopped) : s.TablesEmpty := by
  unfold settledState at h
  split at h
  · next hempty => exact hempty
  · cases h

/-- The part of a call's step that is neither its own place nor a lock: nothing, or one
request is marked. -/
structure Rests (s s₁ : Backend) : Prop where
  books : SameBooks s s₁ ∨ ∃ n, s.locked n .markCancelling = some s₁
  owner : s₁.owner = s.owner
  calls : s₁.calls = s.calls
  pump : s₁.pump = s.pump

theorem Rests.refl (s : Backend) : Rests s s := ⟨Or.inl (.refl s), rfl, rfl, rfl⟩

theorem locked_control {call : GateCall} (h : s.locked n call = some s') : SameControl s s' := by
  obtain ⟨-, g, -, rfl⟩ := locked_eq_some.mp h
  exact ⟨rfl, rfl, rfl, rfl⟩

theorem Rests.locked (h : s.locked n .markCancelling = some s₁) : Rests s s₁ := by
  refine ⟨Or.inr ⟨n, h⟩, ?_, (locked_control h).calls, (locked_control h).pump⟩
  obtain ⟨-, g, -, rfl⟩ := locked_eq_some.mp h
  rfl

/-- The steps of a call, by what they do with the lifecycle lock, the pump and the tables. -/
inductive CallMove (s : Backend) (k : ℕ) (a : BackendAction) : Backend → Prop where
  | outside (s₁ : Backend) (pc : BackendPc) (rests : Rests s s₁)
      (lock : s₁.lifecycleLock = s.lifecycleLock) (state : s₁.state = s.state)
      (hpc : pc.holdsLifecycle = false) : s.CallMove k a (s₁.setCall k pc)
  | enters (pc : BackendPc) (free : s.lifecycleLock = none) (hpc : pc.withoutPump = false) :
      s.CallMove k a (setCall { s with lifecycleLock := some k } k pc)
  | inside (s₁ : Backend) (pc : BackendPc) (rests : Rests s s₁)
      (lock : s₁.lifecycleLock = s.lifecycleLock) (before : (s.calls k).holdsLifecycle = true)
      (hpc : Unbound pc.finalizing)
      (next : pc.withoutPump = true → (s.calls k).withoutPump = true ∨ s.state = .stopped)
      (state : s₁.state = .stopped →
        s.state = .stopped ∨ (s.calls k).withoutPump = true ∧ s.TablesEmpty) :
      s.CallMove k a (s₁.setCall k pc)
  | leaves (status : Status) (before : (s.calls k).holdsLifecycle = true) :
      s.CallMove k a (setCall { s with lifecycleLock := none } k (.returned status))
  | launches (before : s.calls k = .startExecutor) :
      s.CallMove k a (setCall { s with executor := true, pump := .checkRunning, state := .running } k
        (.unlock .success))
  | joins (before : s.calls k = .stopJoin) (done : s.pumpDone = true) :
      s.CallMove k a (setCall { s with pump := .notStarted } k .stopSnapshot)
  | enqueues (request : GenerationRequest) (mailbox : GenerationMailboxConfig)
      (threw : Option (List UInt8)) (executorId : ℕ) (status : Status)
      (fresh : s.freshExecutorIds a = true → threw = none → s.requests.lookup executorId = none) :
      s.CallMove k a
        ((s.enqueueRequest request mailbox threw executorId).2.setCall k (.returned status))
  | finalizes (s₁ : Backend) (pc : FinalizePc) (n : ℕ) (pending : List ℕ) (next : Option FinalizePc)
      (before : s.calls k = .stopFinalize pc n pending)
      (step : s.finalizeStep (.call k) ⟨n, stoppedBefore, some .cancelled⟩ pc = some (s₁, next)) :
      s.CallMove k a (s₁.setCall k (next.elim (.stopFinalizeAll pending) fun pc =>
        .stopFinalize pc n pending))

variable {a : BackendAction}

theorem CallMove.goesOn {pc : BackendPc} (before : (s.calls k).holdsLifecycle = true)
    (hpc : Unbound pc.finalizing)
    (next : pc.withoutPump = true → (s.calls k).withoutPump = true ∨ s.state = .stopped) :
    s.CallMove k a (s.setCall k pc) :=
  .inside s pc (.refl s) rfl before hpc next Or.inl

theorem startStep_move (h : s.startStep k env = some s') : s.CallMove k a s' := by
  unfold startStep at h
  split at h
  · obtain ⟨hfree, rfl⟩ := of_guard h
    exact .enters _ hfree rfl
  · next hpc =>
    obtain ⟨-, rfl⟩ := of_guard h
    refine .goesOn (by rw [hpc]; rfl) ?_ ?_
    · split_ifs <;> exact .none
    · split_ifs with hrunning hstopped
      · exact nofun
      · exact nofun
      · exact nofun
      · exact fun _ => Or.inr (by simpa using hstopped)
  · next hpc =>
    cases h
    exact .goesOn (by rw [hpc]; rfl) (by split <;> exact .none) (fun _ => Or.inl (by rw [hpc]; rfl))
  · next hpc =>
    split at h
    · cases h
      exact .goesOn (by rw [hpc]; rfl) .none (fun _ => Or.inl (by rw [hpc]; rfl))
    · cases h
    · obtain ⟨-, rfl⟩ := of_guard h
      exact .launches hpc
  · next hpc =>
    obtain ⟨-, rfl⟩ := of_guard h
    exact .inside _ _ ⟨Or.inl ⟨rfl, rfl, rfl, rfl⟩, rfl, rfl, rfl⟩ rfl (by rw [hpc]; rfl) .none
      (fun _ => Or.inl (by rw [hpc]; rfl)) nofun
  · next hpc =>
    obtain ⟨-, rfl⟩ := of_guard h
    exact .inside _ _ ⟨Or.inl ⟨rfl, rfl, rfl, rfl⟩, rfl, rfl, rfl⟩ rfl (by rw [hpc]; rfl) .none nofun
      (fun h => Or.inr ⟨by rw [hpc]; rfl, settledState_stopped h⟩)
  · cases h

theorem submitStep_move (h : s.submitStep k env = some s') : s.CallMove k (.submit k env) s' := by
  unfold submitStep at h
  split at h
  · simp only at h
    split at h <;> cases h <;> exact .outside s _ (.refl s) rfl rfl rfl
  · split at h
    · cases h
      exact .outside s _ (.refl s) rfl rfl rfl
    · cases h
    · cases h
      exact .outside s _ (.refl s) rfl rfl rfl
  · next hpc =>
    obtain ⟨-, h⟩ := ite_none_right_eq_some.mp h
    split at h
    · cases h
    · rw [← Option.some.inj h]
      exact .enqueues _ _ _ _ _ nofun
    · next hthrew =>
      rw [← Option.some.inj h]
      refine .enqueues _ _ _ _ _ fun hfresh _ => ?_
      simpa [freshExecutorIds, hpc, hthrew] using hfresh
  · cases h

theorem cancelStep_move (h : s.cancelStep k = some s') : s.CallMove k a s' := by
  unfold cancelStep at h
  split at h
  · obtain ⟨-, h⟩ := ite_none_right_eq_some.mp h
    split at h
    · split at h
      · cases h
        exact .outside _ _ ⟨Or.inl ⟨rfl, rfl, rfl, rfl⟩, rfl, rfl, rfl⟩ rfl rfl rfl
      · cases h
        exact .outside s _ (.refl s) rfl rfl rfl
    · cases h
      exact .outside s _ (.refl s) rfl rfl rfl
  · obtain ⟨s₁, hlocked, rfl⟩ := map_eq_some_iff.mp h
    have hsame := locked_control hlocked
    exact .outside s₁ _ (.locked hlocked) hsame.lifecycleLock hsame.state rfl
  · cases h
    exact .outside _ _ ⟨Or.inl ⟨rfl, rfl, rfl, rfl⟩, rfl, rfl, rfl⟩ rfl rfl rfl
  · cases h

theorem stopStep_move (h : s.stopStep k env = some s') : s.CallMove k a s' := by
  unfold stopStep at h
  split at h
  · obtain ⟨hfree, rfl⟩ := of_guard h
    exact .enters _ hfree rfl
  · next hpc =>
    obtain ⟨-, h⟩ := ite_none_right_eq_some.mp h
    split at h
    · cases h
      exact .goesOn (by rw [hpc]; rfl) .none nofun
    · cases h
      exact .inside _ _ ⟨Or.inl ⟨rfl, rfl, rfl, rfl⟩, rfl, rfl, rfl⟩ rfl (by rw [hpc]; rfl) .none nofun
        nofun
  · next hpc =>
    cases h
    exact .inside _ _ ⟨Or.inl ⟨rfl, rfl, rfl, rfl⟩, rfl, rfl, rfl⟩ rfl (by rw [hpc]; rfl) .none nofun
      Or.inl
  · next hpc =>
    split at h
    · cases h
    · obtain ⟨s₁, hlocked, rfl⟩ := map_eq_some_iff.mp h
      have hsame := locked_control hlocked
      exact .inside s₁ _ (.locked hlocked) hsame.lifecycleLock (by rw [hpc]; rfl) .none nofun
        (fun h => Or.inl (hsame.state ▸ h))
  · next hpc =>
    cases h
    exact .inside _ _ ⟨Or.inl ⟨rfl, rfl, rfl, rfl⟩, rfl, rfl, rfl⟩ rfl (by rw [hpc]; rfl) .none nofun
      Or.inl
  · next hpc =>
    obtain ⟨hdone, rfl⟩ := of_guard h
    exact .joins hpc hdone
  · next hpc =>
    obtain ⟨-, rfl⟩ := of_guard h
    exact .goesOn (by rw [hpc]; rfl) .none (fun _ => Or.inl (by rw [hpc]; rfl))
  · next hpc =>
    cases h
    exact .goesOn (by rw [hpc]; rfl) .none (fun _ => Or.inl (by rw [hpc]; rfl))
  · next hpc =>
    obtain ⟨n, -, rfl⟩ := map_eq_some_iff.mp h
    exact .goesOn (by rw [hpc]; rfl) (.offer n) (fun _ => Or.inl (by rw [hpc]; rfl))
  · next pc n pending hpc =>
    obtain ⟨⟨s₁, next⟩, hstep, rfl⟩ := map_eq_some_iff.mp h
    cases next <;> exact .finalizes s₁ pc n pending _ hpc hstep
  · next hpc =>
    obtain ⟨-, rfl⟩ := of_guard h
    exact .inside _ _ ⟨Or.inl ⟨rfl, rfl, rfl, rfl⟩, rfl, rfl, rfl⟩ rfl (by rw [hpc]; rfl) .none nofun
      (fun h => Or.inr ⟨by rw [hpc]; rfl, settledState_stopped h⟩)
  · cases h

def thread : BackendAction → Option BackendThread
  | .begin k _ | .start k _ | .submit k _ | .cancel k | .stop k _ | .unlock k => some (.call k)
  | .pump _ => some .pump
  | .waitPop _ | .close _ => none

theorem step_move (ha : thread a = some (.call k)) (h : s.step a = some s') :
    s.CallMove k a s' := by
  cases a with
  | begin j op =>
    cases ha
    simp only [step, Backend.begin] at h
    split at h
    · cases h
      exact .outside s _ (.refl s) rfl rfl (by cases op <;> rfl)
    · cases h
  | start => cases ha; exact startStep_move h
  | submit => cases ha; exact submitStep_move h
  | cancel => cases ha; exact cancelStep_move h
  | stop => cases ha; exact stopStep_move h
  | unlock =>
    cases ha
    simp only [step, unlockStep] at h
    split at h
    · next hpc =>
      cases h
      exact .leaves _ (by rw [hpc]; rfl)
    · cases h
  | pump | waitPop | close => cases ha

theorem Effect.callMoves {pc : BackendPc} (hpc : Unbound pc.finalizing) (rests : Rests s s₁)
    (settles : s₁.state = .stopped → s.state = .stopped ∨ s.TablesEmpty) :
    s.Effect (s₁.setCall k pc) (some (.call k)) := by
  refine .call hpc rests.calls (Or.inl (by rw [rests.pump])) ?_
  rcases rests.books with books | ⟨n, hlocked⟩
  · exact .moves { books with } rests.owner settles
  · obtain ⟨hn, g, hstep, rfl⟩ := locked_eq_some.mp hlocked
    exact .touches n g (.atOnce hn hstep rfl ⟨rfl, rfl, rfl, rfl⟩ rfl rfl)

theorem enqueueRequest_cases {request : GenerationRequest} {mailbox : GenerationMailboxConfig}
    {threw : Option (List UInt8)} {executorId : ℕ} {status : Status}
    (h : s.enqueueRequest request mailbox threw executorId = (status, s')) :
    s' = s ∨
    (∃ n, threw = none ∧ s.requests.lookup executorId = some n) ∨
    (threw = none ∧ s.state = .running ∧
      s.externalToExecutor.lookup request.context.requestId = none ∧
      s.requests.lookup executorId = none ∧ s' = s.register request mailbox executorId) := by
  simp only [enqueueRequest] at h
  split at h
  · cases h
    exact Or.inl rfl
  · next hrunning =>
    split at h
    · cases h
      exact Or.inl rfl
    · next hexternal =>
      have hlookup : s.externalToExecutor.lookup request.context.requestId = none := by
        simpa using hexternal
      split at h
      · cases h
        rw [erase_of_lookup_none hlookup]
        exact Or.inl rfl
      · split at h
        · next hsome =>
          obtain ⟨n, hn⟩ := isSome_iff_exists.mp hsome
          exact Or.inr (Or.inl ⟨n, rfl, hn⟩)
        · next hnone =>
          cases h
          have hstate : s.state = .running := by
            by_contra hne
            exact hrunning (Or.inl hne)
          exact Or.inr (Or.inr ⟨rfl, hstate, hlookup, by simpa using hnone, rfl⟩)

theorem enqueueRequest_control (s : Backend) (request : GenerationRequest)
    (mailbox : GenerationMailboxConfig) (threw : Option (List UInt8)) (executorId : ℕ) :
    SameControl s (s.enqueueRequest request mailbox threw executorId).2 := by
  simp only [enqueueRequest]
  repeat' split
  all_goals exact ⟨rfl, rfl, rfl, rfl⟩

theorem enqueueRequest_effect (s : Backend) (k : ℕ) (request : GenerationRequest)
    (mailbox : GenerationMailboxConfig) (threw : Option (List UInt8)) (executorId : ℕ)
    (status : Status) (hfresh : threw = none → s.requests.lookup executorId = none) :
    s.Effect ((s.enqueueRequest request mailbox threw executorId).2.setCall k (.returned status))
      (some (.call k)) := by
  obtain ⟨hcalls, hpump, -, -⟩ := s.enqueueRequest_control request mailbox threw executorId
  generalize hresult : s.enqueueRequest request mailbox threw executorId = result at hcalls hpump ⊢
  refine .call .none hcalls (Or.inl (by rw [hpump])) ?_
  rcases enqueueRequest_cases hresult with rfl | ⟨n, hthrew, hn⟩ |
    ⟨-, hrunning, hexternal, hexecutor, heq⟩
  · exact .moves ⟨rfl, rfl, rfl, rfl⟩ rfl Or.inl
  · rw [hfresh hthrew] at hn
    cases hn
  · rw [heq]
    exact .registers request mailbox executorId hrunning hrunning hexternal hexecutor
      ⟨rfl, rfl, rfl, rfl⟩ rfl

theorem CallMove.effect (h : s.CallMove k a s') (hfresh : s.freshExecutorIds a = true) :
    s.Effect s' (some (.call k)) := by
  have hplain {pc : BackendPc} (hpc : pc.withoutPump = false) : Unbound pc.finalizing := by
    rw [BackendPc.finalizing_of_not_withoutPump hpc]
    exact .none
  cases h with
  | outside s₁ pc rests lock state hpc =>
    refine .callMoves (hplain ?_) rests (fun h => Or.inl (state ▸ h))
    exact (Bool.or_eq_false_iff.mp hpc).1
  | enters pc free hpc =>
    exact .call (hplain hpc) rfl (Or.inl rfl) (.moves ⟨rfl, rfl, rfl, rfl⟩ rfl Or.inl)
  | inside s₁ pc rests lock before hpc next state =>
    exact .callMoves hpc rests (fun h => (state h).imp_right And.right)
  | leaves => exact .call .none rfl (Or.inl rfl) (.moves ⟨rfl, rfl, rfl, rfl⟩ rfl Or.inl)
  | launches => exact .call .none rfl (Or.inr rfl) (.moves ⟨rfl, rfl, rfl, rfl⟩ rfl nofun)
  | joins => exact .call .none rfl (Or.inr rfl) (.moves ⟨rfl, rfl, rfl, rfl⟩ rfl Or.inl)
  | enqueues request mailbox threw executorId status fresh =>
    exact enqueueRequest_effect _ _ _ _ _ _ _ (fresh hfresh)
  | finalizes s₁ pc n pending next before step =>
    have hplace : s.finalizing (.call k) = some (pc, n) := by
      show (s.calls k).finalizing = _
      rw [before]
      rfl
    refine finalizeStep_effect step hplace ?_ (fun u hu => ?_) ⟨rfl, rfl, rfl, rfl⟩ rfl rfl
    · rw [finalizing_setCall]
      cases next <;> rfl
    · rw [finalizing_setCall_ne _ _ hu]
      exact finalizing_of_threads (finalizeStep_control step).calls (finalizeStep_control step).pump u

/-! ## The pump -/

/-- A step of the pump, with the little it does outside the books. -/
structure PumpEffect (s s' : Backend) : Prop where
  effect : s.Effect s' (some .pump)
  calls : s'.calls = s.calls
  lifecycleLock : s'.lifecycleLock = s.lifecycleLock
  stopped : s'.state = .stopped → s.state = .stopped

theorem PumpEffect.of_books (hpump : Unbound s'.pump.finalizing) (hcalls : s'.calls = s.calls)
    (hlock : s'.lifecycleLock = s.lifecycleLock) (hstopped : s'.state = .stopped → s.state = .stopped)
    (hbooks : s.BookEffect s' (some .pump)) : s.PumpEffect s' := by
  refine ⟨⟨hbooks, ?_, ?_⟩, hcalls, hlock, hstopped⟩
  · rintro u hu -
    cases hu
    exact hpump.relies _ _
  · intro u hu
    cases u with
    | pump => exact absurd rfl hu
    | call k => exact Or.inl (congrArg BackendPc.finalizing (congrFun hcalls k))

theorem PumpEffect.moves (hpump : Unbound s'.pump.finalizing) (hcalls : s'.calls = s.calls)
    (hlock : s'.lifecycleLock = s.lifecycleLock) (books : SameBooks s s') (owner : s'.owner = s.owner)
    (hstopped : s'.state = .stopped → s.state = .stopped) : s.PumpEffect s' :=
  .of_books hpump hcalls hlock hstopped (.moves books owner (fun h => Or.inl (hstopped h)))

theorem unbound_inspect (n : ℕ) (response : ExecutorResponse) (rest : List ExecutorResponse) :
    Unbound (inspect n response rest).finalizing := by
  unfold inspect
  split
  · exact .offer n
  · split <;> exact .none

theorem unbound_conclude (n : ℕ) (result : ExecutorResult) (rest : List ExecutorResponse) :
    Unbound (conclude n result rest).finalizing := by
  unfold conclude
  split
  · exact .none
  · split
    · split <;> exact .offer n
    · exact .offer n

theorem PumpEffect.atOnce {call : GateCall} {pump : ResponsePumpPc}
    (h : s.locked n call = some s₁) (hcall : AtOnce call = true) (hpump : Unbound pump.finalizing) :
    s.PumpEffect { s₁ with pump := pump } := by
  obtain ⟨hn, g, hstep, rfl⟩ := locked_eq_some.mp h
  exact .of_books hpump rfl rfl id
    (.touches n g (.atOnce hn hstep hcall ⟨rfl, rfl, rfl, rfl⟩ rfl rfl))

theorem PumpEffect.finalizes {pump : ResponsePumpPc}
    (h : s.finalizeStep .pump f pc = some (s₁, next))
    (hplace : s.pump.finalizing = some (pc, f.request))
    (hnext : pump.finalizing = next.map (fun pc => (pc, f.request))) :
    s.PumpEffect { s₁ with pump := pump } := by
  obtain ⟨hcalls, -, hlock, hstate⟩ := finalizeStep_control h
  refine ⟨finalizeStep_effect h hplace hnext ?_ ⟨rfl, rfl, rfl, rfl⟩ rfl rfl, hcalls, hlock,
    fun h => hstate ▸ h⟩
  intro u hu
  cases u with
  | pump => exact absurd rfl hu
  | call k => exact congrArg BackendPc.finalizing (congrFun hcalls k)

theorem pumpStep_effect (h : s.pumpStep env = some s') : s.PumpEffect s' := by
  unfold pumpStep at h
  split at h
  · cases h
  · obtain ⟨-, rfl⟩ := of_guard h
    exact .moves (by dsimp only; split_ifs <;> exact .none) rfl rfl ⟨rfl, rfl, rfl, rfl⟩ rfl id
  · split at h <;> cases h <;> exact .moves .none rfl rfl ⟨rfl, rfl, rfl, rfl⟩ rfl id
  · cases h
    exact .moves .none rfl rfl ⟨rfl, rfl, rfl, rfl⟩ rfl id
  · split at h
    · cases h
      exact .moves .none rfl rfl ⟨rfl, rfl, rfl, rfl⟩ rfl id
    · obtain ⟨-, h⟩ := ite_none_right_eq_some.mp h
      split at h
      · cases h
        exact .moves .none rfl rfl ⟨rfl, rfl, rfl, rfl⟩ rfl id
      · next n hn =>
        cases h
        exact .moves (unbound_inspect n _ _) rfl rfl ⟨rfl, rfl, rfl, rfl⟩ rfl id
  · obtain ⟨s₁, hlocked, rfl⟩ := map_eq_some_iff.mp h
    exact .atOnce hlocked rfl (.offer _)
  · obtain ⟨s₁, hlocked, rfl⟩ := map_eq_some_iff.mp h
    exact .atOnce hlocked rfl (by split_ifs; exacts [unbound_conclude _ _ _, .none])
  · split at h
    · obtain ⟨s₁, hlocked, rfl⟩ := map_eq_some_iff.mp h
      obtain ⟨hn, g, hstep, rfl⟩ := locked_eq_some.mp hlocked
      exact .of_books .none rfl rfl id (.touches _ g (.offers hn hstep trivial ⟨rfl, rfl, rfl, rfl⟩
        (fun m hm => setOwner_ne _ _ hm) rfl))
    · next code hcode =>
      obtain ⟨s₁, hlocked, rfl⟩ := map_eq_some_iff.mp h
      obtain ⟨hn, g, hstep, rfl⟩ := locked_eq_some.mp hlocked
      refine .of_books ?_ rfl rfl id (.touches _ g (.offers hn hstep trivial ⟨rfl, rfl, rfl, rfl⟩
        (fun _ _ => rfl) rfl))
      cases code with
      | backpressure | terminal => exact .none
      | _ => exact unbound_conclude _ _ _
  · obtain ⟨howner, h⟩ := ite_none_right_eq_some.mp h
    obtain ⟨s₁, hlocked, rfl⟩ := map_eq_some_iff.mp h
    obtain ⟨hn, g, hstep, rfl⟩ := locked_eq_some.mp hlocked
    exact .of_books (unbound_conclude _ _ _) rfl rfl id (.touches _ g (.finishes hn hstep howner
      ⟨rfl, rfl, rfl, rfl⟩ (fun m hm => setOwner_ne _ _ hm) rfl))
  · obtain ⟨s₁, hlocked, rfl⟩ := map_eq_some_iff.mp h
    exact .atOnce hlocked rfl (.offer _)
  · next pc f cancelAfter rest hpc =>
    obtain ⟨⟨s₁, next⟩, hstep, rfl⟩ := map_eq_some_iff.mp h
    refine .finalizes hstep (by rw [hpc]; rfl) ?_
    cases next <;> cases cancelAfter <;> rfl
  · obtain ⟨-, rfl⟩ := of_guard h
    exact .moves .none rfl rfl ⟨rfl, rfl, rfl, rfl⟩ rfl id
  · obtain ⟨-, h⟩ := ite_none_right_eq_some.mp h
    split at h
    · cases h
      exact .moves .none rfl rfl ⟨rfl, rfl, rfl, rfl⟩ rfl nofun
    · cases h
      exact .moves .none rfl rfl ⟨rfl, rfl, rfl, rfl⟩ rfl id
  · obtain ⟨-, rfl⟩ := of_guard h
    exact .moves .none rfl rfl ⟨rfl, rfl, rfl, rfl⟩ rfl id
  · cases h
    exact .moves .none rfl rfl ⟨rfl, rfl, rfl, rfl⟩ rfl id
  · obtain ⟨n, -, rfl⟩ := map_eq_some_iff.mp h
    exact .moves (.offer n) rfl rfl ⟨rfl, rfl, rfl, rfl⟩ rfl id
  · next pc f status pending hpc =>
    obtain ⟨⟨s₁, next⟩, hstep, rfl⟩ := map_eq_some_iff.mp h
    refine .finalizes hstep (by rw [hpc]; rfl) ?_
    cases next <;> rfl
  · cases h

theorem consumer_effect {call : GateCall} (h : s.locked n call = some s')
    (hcall : AtOnce call = true) : s.Effect s' none := by
  obtain ⟨hn, g, hstep, rfl⟩ := locked_eq_some.mp h
  refine ⟨.touches n g (.atOnce hn hstep hcall (.refl _) rfl rfl), nofun, ?_⟩
  exact fun u _ => Or.inl (finalizing_of_threads rfl rfl u)

theorem step_effect (h : s.step a = some s') (hfresh : s.freshExecutorIds a = true) :
    s.Effect s' (thread a) := by
  cases a with
  | begin | start | submit | cancel | stop | unlock => exact (step_move rfl h).effect hfresh
  | pump => exact (pumpStep_effect h).effect
  | waitPop | close => exact consumer_effect h rfl

end Backend

end KimServing

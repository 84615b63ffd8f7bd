import KimServing.Backend.BackendEffects

/-! # The tables of the backend and the terminals of its requests

The index of external ids is exact, an entry leaves the tables only when its request is
terminal, and a backend that is stopped has no entries. Snapshots may be stale: a request
in one can be finalized and erased by another thread, and then the terminal phase is all
that a late erase relies on.
-/
namespace KimServing
open Library

namespace Backend

def externalId (s : Backend) (n : ℕ) : ℕ := (s.objects n).state.externalId
def executorId (s : Backend) (n : ℕ) : ℕ := (s.objects n).state.executorId
def Terminal (s : Backend) (n : ℕ) : Prop := (s.objects n).state.phase = .terminal

structure BooksInv (s : Backend) : Prop where
  gates : ∀ n, Gate.GateInv (s.objects n)
  indexed : Indexed s.externalId s.requests s.externalToExecutor
  keyed : ∀ e n, s.requests.lookup e = some n → n < s.count ∧ s.executorId n = e
  kept : ∀ n < s.count, s.requests.lookup (s.executorId n) = some n ∨ s.Terminal n

structure BackendInv (s : Backend) : Prop extends BooksInv s where
  relies : ∀ t, s.Relies t (s.finalizing t)
  stopped : s.state = .stopped → s.TablesEmpty

theorem initial_inv (config : TrtLlmBackendConfig) : BackendInv { config := config } where
  gates _ := Gate.initial_inv _ _ _ _
  indexed := ⟨nofun, nofun⟩
  keyed _ _ h := by cases h
  kept _ h := by cases h
  relies t := by cases t <;> trivial
  stopped _ := ⟨rfl, rfl⟩

/-! ## One step -/

section Step
variable {s s' : Backend}

variable {t : Option BackendThread} {u : BackendThread}

theorem SameBooks.externalId (h : SameBooks s s') : s'.externalId = s.externalId := by
  funext n
  rw [Backend.externalId, Backend.externalId, h.objects]

theorem SameBooks.executorId (h : SameBooks s s') : s'.executorId = s.executorId := by
  funext n
  rw [Backend.executorId, Backend.executorId, h.objects]

theorem SameBooks.terminal (h : SameBooks s s') (n : ℕ) : s'.Terminal n ↔ s.Terminal n := by
  rw [Terminal, Terminal, h.objects]

theorem BooksInv.same (hs : BooksInv s) (h : SameBooks s s') : BooksInv s' where
  gates n := by
    rw [h.objects]
    exact hs.gates n
  indexed := by
    rw [h.externalId, h.requests, h.externalToExecutor]
    exact hs.indexed
  keyed e n := by
    rw [h.requests, h.count, h.executorId]
    exact hs.keyed e n
  kept n := by
    rw [h.count, h.requests, h.executorId, h.terminal]
    exact hs.kept n

theorem BooksInv.setObject (hs : BooksInv s) {n : ℕ} {call : GateCall} {g : Gate}
    (hstep : (s.objects n).step call = some g) : BooksInv (s.setObject n g) := by
  obtain ⟨hexternal, hexecutor⟩ := Gate.step_ids hstep
  have hsame : ∀ m, (s.setObject n g).externalId m = s.externalId m ∧
      (s.setObject n g).executorId m = s.executorId m := by
    intro m
    by_cases hm : m = n
    · subst hm
      simp only [externalId, executorId, setObject_self]
      exact ⟨hexternal, hexecutor⟩
    · simp only [externalId, executorId, setObject_ne s g hm, and_self]
  refine ⟨?_, hs.indexed.congr (fun _ m _ => (hsame m).1), ?_, ?_⟩
  · intro m
    by_cases hm : m = n
    · subst hm
      rw [setObject_self]
      exact Gate.step_inv (hs.gates m) hstep
    · rw [setObject_ne s g hm]
      exact hs.gates m
  · intro e m hm
    rw [(hsame m).2]
    exact hs.keyed e m hm
  · intro m hm
    rw [(hsame m).2]
    refine (hs.kept m hm).imp id ?_
    intro hterminal
    by_cases hmn : m = n
    · subst hmn
      rw [Terminal, setObject_self]
      exact Gate.step_terminal hstep hterminal
    · rw [Terminal, setObject_ne s g hmn]
      exact hterminal

theorem BooksInv.eraseRequest (hs : BooksInv s) {n : ℕ} (hterminal : s.Terminal n) :
    BooksInv (s.eraseRequest n) := by
  unfold Backend.eraseRequest
  split
  · next hn =>
    refine ⟨hs.gates, hs.indexed.erase hn, ?_, ?_⟩
    · intro e m hm
      rw [lookup_erase_eq] at hm
      split at hm
      · cases hm
      · exact hs.keyed e m hm
    · intro m hm
      show (s.requests.erase _).lookup (s.executorId m) = some m ∨ s.Terminal m
      rcases hs.kept m hm with hkept | hm
      · rw [lookup_erase_eq]
        split
        · next heq =>
          rw [heq, hn] at hkept
          cases hkept
          exact Or.inr hterminal
        · exact Or.inl hkept
      · exact Or.inr hm
  · exact hs

theorem BooksInv.register (hs : BooksInv s) {request : GenerationRequest}
    {mailbox : GenerationMailboxConfig} {executorId : ℕ}
    (hexternal : s.externalToExecutor.lookup request.context.requestId = none)
    (hexecutor : s.requests.lookup executorId = none) :
    BooksInv (s.register request mailbox executorId) := by
  have hself : (s.register request mailbox executorId).objects s.count =
      .initial request.context.requestId executorId request.inputTokenIds.length mailbox :=
    setObject_self s s.count _
  have hother : ∀ m ≠ s.count, (s.register request mailbox executorId).objects m = s.objects m :=
    fun m hm => setObject_ne s _ hm
  have hname : (s.register request mailbox executorId).externalId s.count =
      request.context.requestId := by rw [externalId, hself]; rfl
  have hkey : (s.register request mailbox executorId).executorId s.count = executorId := by
    rw [Backend.executorId, hself]
    rfl
  have hindexed : Indexed (s.register request mailbox executorId).externalId s.requests
      s.externalToExecutor := by
    refine hs.indexed.congr (fun e m hm => ?_)
    have hlt := (hs.keyed e m hm).1
    rw [externalId, hother m (by omega)]
    rfl
  refine ⟨?_, ?_, ?_, ?_⟩
  · intro m
    by_cases hm : m = s.count
    · subst hm
      rw [hself]
      exact Gate.initial_inv _ _ _ _
    · rw [hother m hm]
      exact hs.gates m
  · have h := hindexed.insert hexecutor (by rw [hname]; exact hexternal)
    rw [hname] at h
    exact h
  · intro e m hm
    rw [show (s.register request mailbox executorId).requests = s.requests.insert executorId s.count
      from rfl, lookup_insert_eq] at hm
    show m < s.count + 1 ∧ _
    split at hm
    · next he =>
      cases hm
      exact ⟨by omega, hkey.trans he.symm⟩
    · obtain ⟨hlt, hkeyed⟩ := hs.keyed e m hm
      refine ⟨by omega, ?_⟩
      rw [Backend.executorId, hother m (by omega)]
      exact hkeyed
  · intro m hm
    have hle : m < s.count + 1 := hm
    rw [show (s.register request mailbox executorId).requests = s.requests.insert executorId s.count
      from rfl, lookup_insert_eq]
    by_cases heq : m = s.count
    · subst heq
      rw [hkey, if_pos rfl]
      exact Or.inl rfl
    · rw [Terminal, Backend.executorId, hother m heq]
      rcases hs.kept m (by omega) with hkept | hterminal
      · left
        rw [if_neg ?_]
        · exact hkept
        · intro heq
          rw [Backend.executorId, heq, hexecutor] at hkept
          cases hkept
      · exact Or.inr hterminal

theorem Relies.of_touches {n : ℕ} {g : Gate} (h : s.Touches s' t n g) (hu : t ≠ some u)
    {place : Option (FinalizePc × ℕ)} (hrelies : s.Relies u place) : s'.Relies u place := by
  have hcount : s'.count = s.count := h.books.count
  have hself : s'.objects n = g := by rw [h.books.objects, setObject_self]
  have hother : ∀ m ≠ n, s'.objects m = s.objects m := by
    intro m hm
    rw [h.books.objects, setObject_ne s g hm]
  match place, hrelies with
  | none, _ | some (.offer, m), _ => trivial
  | some (.erase, m), ⟨hm, hterminal⟩ =>
    refine ⟨by omega, ?_⟩
    by_cases hmn : m = n
    · subst hmn
      obtain ⟨call, hstep⟩ := h.step
      rw [hself]
      exact Gate.step_terminal hstep hterminal
    · rw [hother m hmn]
      exact hterminal
  | some (.finish, m), ⟨hm, howner, hholder⟩ =>
    refine ⟨by omega, ?_⟩
    by_cases hmn : m = n
    · subst hmn
      rcases h.lock with hfree | ⟨v, hv, hvowner⟩ | ⟨hsame, hsameHolder⟩
      · cases hfree.symm.trans hholder
      · rw [hvowner] at howner
        cases howner
        exact absurd hv hu
      · rw [hself]
        exact ⟨hsame.trans howner, hsameHolder.trans hholder⟩
    · rw [h.others m hmn, hother m hmn]
      exact ⟨howner, hholder⟩

theorem Relies.congr {place : Option (FinalizePc × ℕ)} (hrelies : s.Relies u place)
    (hcount : s.count ≤ s'.count) (hobjects : ∀ n < s.count, s'.objects n = s.objects n)
    (howner : s'.owner = s.owner) : s'.Relies u place := by
  match place, hrelies with
  | none, _ | some (.offer, m), _ => trivial
  | some (.erase, m), ⟨hm, hterminal⟩ =>
    refine ⟨by omega, ?_⟩
    rw [hobjects m hm]
    exact hterminal
  | some (.finish, m), ⟨hm, hm', hholder⟩ =>
    refine ⟨by omega, ?_⟩
    rw [howner, hobjects m hm]
    exact ⟨hm', hholder⟩

theorem BackendInv.books (hs : BackendInv s) (h : s.BookEffect s' t) : BooksInv s' := by
  cases h with
  | moves books => exact hs.toBooksInv.same books
  | touches n g h =>
    obtain ⟨call, hstep⟩ := h.step
    exact (hs.toBooksInv.setObject hstep).same h.books
  | erases u n _ hplace books =>
    have hrelies := hs.relies u
    rw [hplace] at hrelies
    exact (hs.toBooksInv.eraseRequest hrelies.2).same books
  | registers request mailbox executorId _ _ hexternal hexecutor books =>
    exact (hs.toBooksInv.register hexternal hexecutor).same books

theorem BackendInv.others (hs : BackendInv s) (h : s.BookEffect s' t) (hu : t ≠ some u) :
    s'.Relies u (s.finalizing u) := by
  have hrelies := hs.relies u
  cases h with
  | moves books owner =>
    exact hrelies.congr (Nat.le_of_eq books.count.symm) (fun _ _ => by rw [books.objects]) owner
  | touches n g h => exact hrelies.of_touches h hu
  | erases _ n _ _ books owner =>
    obtain ⟨hobjects, hcount⟩ := eraseRequest_objects s n
    exact hrelies.congr (Nat.le_of_eq (books.count.trans hcount).symm)
      (fun _ _ => by rw [books.objects, hobjects]) owner
  | registers request mailbox executorId _ _ _ _ books owner =>
    refine hrelies.congr ?_ ?_ owner
    · rw [books.count]
      exact Nat.le_succ s.count
    · intro n hn
      rw [books.objects]
      exact setObject_ne s _ (Nat.ne_of_lt hn)

theorem BackendInv.tablesEmpty (hs : BackendInv s) (h : s.BookEffect s' t)
    (hstopped : s'.state = .stopped) : s'.TablesEmpty := by
  unfold TablesEmpty
  cases h with
  | moves books owner settles =>
    rw [books.requests, books.externalToExecutor]
    rcases settles hstopped with hbefore | hempty
    · exact hs.stopped hbefore
    · exact hempty
  | touches n g h =>
    rw [h.books.requests, h.books.externalToExecutor]
    exact hs.stopped (h.state.symm.trans hstopped)
  | erases u n hu hplace books owner state =>
    have hempty := hs.stopped (state.symm.trans hstopped)
    rw [books.requests, books.externalToExecutor, Backend.eraseRequest, if_neg]
    · exact hempty
    · rw [lookup_eq_none_of_keys hempty.1]
      simp
  | registers _ _ _ _ hstate =>
    cases hstate.symm.trans hstopped

theorem BackendInv.step {a : BackendAction} (hs : BackendInv s)
    (hfresh : s.freshExecutorIds a = true) (h : s.step a = some s') : BackendInv s' := by
  obtain ⟨books, mover, others⟩ := step_effect h hfresh
  refine ⟨hs.books books, ?_, hs.tablesEmpty books⟩
  intro u
  by_cases hu : thread a = some u
  · exact mover u hu (hs.relies u)
  · rcases others u hu with heq | hnone
    · rw [heq]
      exact hs.others books hu
    · rw [hnone]
      trivial

theorem BackendInv.removed {a : BackendAction} (hs : BackendInv s)
    (hfresh : s.freshExecutorIds a = true) (h : s.step a = some s') {e n : ℕ}
    (hbefore : s.requests.lookup e = some n) (hafter : s'.requests.lookup e ≠ some n) :
    s.Terminal n := by
  cases (step_effect h hfresh).books with
  | moves books =>
    rw [books.requests] at hafter
    exact absurd hbefore hafter
  | touches m g h =>
    rw [h.books.requests] at hafter
    exact absurd hbefore hafter
  | erases u m _ hplace books =>
    have hrelies := hs.relies u
    rw [hplace] at hrelies
    rw [books.requests, Backend.eraseRequest] at hafter
    split at hafter
    · next hm =>
      rw [lookup_erase_eq] at hafter
      split at hafter
      · next he =>
        rw [he, hm] at hbefore
        cases hbefore
        exact hrelies.2
      · exact absurd hbefore hafter
    · exact absurd hbefore hafter
  | registers request mailbox executorId _ _ _ hexecutor books =>
    rw [books.requests, show (s.register request mailbox executorId).requests =
      s.requests.insert executorId s.count from rfl, lookup_insert_eq, if_neg ?_] at hafter
    · exact absurd hbefore hafter
    · rintro rfl
      cases hexecutor.symm.trans hbefore

end Step

theorem submitTable_accepts {s s' : Backend} {k : ℕ} {env : BackendEnv}
    {request : GenerationRequest} {mailbox : GenerationMailboxConfig}
    (hpc : s.calls k = .submitTable request mailbox) (h : s.submitStep k env = some s') :
    s'.calls k = .returned .success ↔ s'.count = s.count + 1 := by
  have hsection : ∀ threw executorId,
      (s.enqueueRequest request mailbox threw executorId).1 = .success ↔
        (s.enqueueRequest request mailbox threw executorId).2.count = s.count + 1 := by
    intro threw executorId
    simp only [enqueueRequest]
    repeat' split
    all_goals simp [Status.success, Status.error, register]
  have hreturned : ∀ (s₁ : Backend) (status : Status),
      (s₁.setCall k (.returned status)).calls k = .returned .success ↔ status = .success := by
    intro s₁ status
    simp [setCall]
  simp only [submitStep, hpc] at h
  split at h
  · split at h
    · cases h
    · rw [← Option.some.inj h, hreturned]
      exact hsection _ _
    · rw [← Option.some.inj h, hreturned]
      exact hsection _ _
  · cases h

def terminals (s : Backend) (n : ℕ) : ℕ := (s.objects n).log.count (.terminal .committed)

/-- The tables of the backend and the terminals of its requests, in every interleaving of
its threads with the consumers of the mailboxes, when the executor does not return the id
of a request that is still in the table. -/
theorem tables_and_terminals {config : TrtLlmBackendConfig} {actions : List BackendAction}
    {s : Backend}
    (hfresh : Along step (fun s a => s.freshExecutorIds a = true) { config := config } actions)
    (hrun : exec step { config := config } actions = some s) :
    -- a submission is accepted exactly when a request state is made for it
    (∀ k env s' request mailbox, s.calls k = .submitTable request mailbox →
      s.step (.submit k env) = some s' →
        (s'.calls k = .returned .success ↔ s'.count = s.count + 1)) ∧
    -- the two tables are inverse to each other
    (∀ e n, s.requests.lookup e = some n → n < s.count ∧ s.executorId n = e ∧
      s.externalToExecutor.lookup (s.externalId n) = some e) ∧
    (∀ x e, s.externalToExecutor.lookup x = some e →
      ∃ n, s.requests.lookup e = some n ∧ s.externalId n = x) ∧
    -- an entry leaves only after its request is terminal
    (∀ a s', s.freshExecutorIds a = true → s.step a = some s' → ∀ e n,
      s.requests.lookup e = some n → s'.requests.lookup e ≠ some n → s.Terminal n) ∧
    (∀ n < s.count, s.requests.lookup (s.executorId n) ≠ some n → s.Terminal n) ∧
    (∀ n < s.count, s.terminals n ≤ 1) ∧
    -- a stopped backend has committed the Terminal of every request it ever accepted
    (s.state = .stopped → ∀ n < s.count,
      s.terminals n = 1 ∧ (s.objects n).state.mailbox.terminalCommitted = true) := by
  have hs : BackendInv s :=
    exec_invariant (fun _ _ _ hs hfresh h => hs.step hfresh h) (initial_inv config) hfresh hrun
  have hgate : ∀ n, s.terminals n = if (s.objects n).state.phase = .terminal then 1 else 0 :=
    fun n => (hs.gates n).once
  refine ⟨fun k env s' _ _ hpc h => submitTable_accepts hpc h, ?_, hs.indexed.exact, ?_, ?_, ?_, ?_⟩
  · intro e n hn
    exact ⟨(hs.keyed e n hn).1, (hs.keyed e n hn).2, hs.indexed.found e n hn⟩
  · intro a s' hfresh h e n hbefore hafter
    exact hs.removed hfresh h hbefore hafter
  · intro n hn hremoved
    exact (hs.kept n hn).resolve_left hremoved
  · intro n _
    rw [hgate n]
    split <;> omega
  · intro hstopped n hn
    have hterminal : s.Terminal n := by
      refine (hs.kept n hn).resolve_left ?_
      rw [lookup_eq_none_of_keys (hs.stopped hstopped).1]
      simp
    exact ⟨(hgate n).trans (if_pos hterminal), (hs.gates n).decided.mpr (Or.inl hterminal)⟩

/-- A request is accepted and a consumer reads its first token; a cancel crosses its final
response, and the backend stops. -/
def cancelledAtTheEnd : List BackendAction :=
  [.begin 0 .start, .start 0 {}, .start 0 {}, .start 0 {}, .start 0 {}, .unlock 0,
    .begin 1 (.submit { context := { requestId := 5 }, inputTokenIds := [3, 4] } (some {})),
    .submit 1 {}, .submit 1 {}, .submit 1 { executorId := 7 },
    .pump {}, .pump { responses := [⟨7, .inr ⟨[[11]], false, []⟩⟩,
      ⟨7, .inr ⟨[[12]], true, [.length]⟩⟩, ⟨9, .inl []⟩] },
    .pump {}, .pump {}, .pump {}, .waitPop 0, .pump {}, .pump {}, .pump {},
    .begin 2 (.cancel 5), .cancel 2, .cancel 2, .cancel 2,
    .pump {}, .pump {}, .pump {}, .pump {}, .pump {}, .pump {},
    .begin 3 .stop, .stop 3 {}, .stop 3 {}, .stop 3 {}, .stop 3 {}, .pump {},
    .stop 3 {}, .stop 3 {}, .stop 3 {}, .stop 3 {}, .unlock 3]

theorem tables_and_terminals_cancelledAtTheEnd :
    ∃ s, exec step { config := {} } cancelledAtTheEnd = some s ∧ s.state = .stopped ∧
      s.count = 1 ∧ s.executorCancels = [7] ∧ s.terminals 0 = 1 := by
  have hany : (exec step { config := {} } cancelledAtTheEnd).any (fun s =>
      s.state == .stopped && s.count == 1 && s.executorCancels == [7]) = true := by
    decide +kernel
  obtain ⟨s, hrun, htest⟩ := (Option.any_eq_true _ _).mp hany
  simp only [Bool.and_eq_true, beq_iff_eq] at htest
  obtain ⟨⟨hstopped, hcount⟩, hcancels⟩ := htest
  have hfresh : Along step (fun s a => s.freshExecutorIds a = true) { config := {} }
      cancelledAtTheEnd := by decide +kernel
  have hall := (tables_and_terminals hfresh hrun).2.2.2.2.2.2 hstopped 0 (by omega)
  exact ⟨s, hrun, hstopped, hcount, hcancels, hall.1⟩

end Backend

end KimServing

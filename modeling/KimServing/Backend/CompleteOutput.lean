import KimServing.Backend.PumpLife

/-! # A successful terminal event and the tokens before it

The backend handles a response in several critical sections, and its final finish reason
decides the status of the terminal event. Tokens of a response leave no trace when the
request is found cancelling, so a cancel that crosses the last response can be followed by a
successful terminal event without them. In a run in which no token finds its request
cancelling, the tokens of all handled responses are committed before a success.
-/
namespace KimServing
open Library Function Option ResponsePumpPc Gate

namespace Gate
variable {g g' : Gate} {call : GateCall} {e : TerminalEvent}

/-- The terminal event that was committed for a request, received or not. -/
def Carries (g : Gate) (e : TerminalEvent) : Prop :=
  g.state.mailbox.terminal = some e ∨ GenerationEvent.terminal e ∈ g.popped

/-- No terminal event can be committed any more. -/
def Barred (g : Gate) : Prop :=
  g.state.phase = .terminal ∨ g.state.mailbox.terminalCommitted = true ∨
    g.state.mailbox.closed = true

def tokens (g : Gate) : List ℤ := g.committed.flatMap TokenDelta.tokenIds

theorem not_barred_of_offerTerminal {status : Status} {finishReason : Option FinishReason}
    {rs : RequestState} (h : g.state.offerTerminal status finishReason = .ok rs) : ¬ g.Barred := by
  obtain ⟨hphase, hclosed, hundecided, -⟩ := RequestState.offerTerminal_ok h
  simp [Barred, hphase, hclosed, hundecided]

theorem barred_of_offerTerminal {status : Status} {finishReason : Option FinishReason}
    {r : TerminalCommitResult} (h : g.state.offerTerminal status finishReason = .error r) :
    g.Barred := by
  unfold RequestState.offerTerminal at h
  split at h
  · next hphase => exact Or.inl hphase
  · split at h
    · next hpush =>
      unfold GenerationMailbox.pushTerminal at hpush
      split at hpush
      · next hrefused => exact Or.inr hrefused.symm
      · cases hpush
    · cases h

theorem not_barred_of_offerDelta {tokenIds : List ℤ} {rs : RequestState}
    (h : g.state.offerDelta tokenIds = .ok rs) : ¬ g.Barred := by
  obtain ⟨hphase, -, hclosed, hundecided, -⟩ := RequestState.offerDelta_ok h
  simp [Barred, hphase, hclosed, hundecided]

theorem step_tokens (h : g.step call = some g') (hcall : ∀ tokenIds, call ≠ .tryCommitDelta tokenIds) :
    g'.tokens = g.tokens := by
  cases step_effect h with
  | takes tokenIds => exact absurd rfl (hcall tokenIds)
  | finish pending => cases pending <;> rfl
  | pop | close | quiet | ends => rfl

theorem step_closed (h : g.step call = some g') (hclosed : g.state.mailbox.closed = true) :
    g'.state.mailbox.closed = true := by
  cases step_effect h with
  | pop =>
    rcases g.state.mailbox.waitPop_cases with ⟨d, rest, -, hpop⟩ | ⟨t, -, -, hpop⟩ | ⟨-, -, hpop⟩
    · simp [popStep, setMailbox, hpop, hclosed]
    · simp [popStep, setMailbox, hpop]
    · simp [popStep, setMailbox, hpop, hclosed]
  | close => rfl
  | finish pending => cases pending <;> exact hclosed
  | quiet rs r _ hq => exact (congrArg GenerationMailbox.closed hq.mailbox).trans hclosed
  | takes | ends => exact hclosed

theorem step_barred (h : g.step call = some g') (hbarred : g.Barred) : g'.Barred := by
  rcases hbarred with hphase | hcommitted | hclosed
  · exact Or.inl (step_terminal h hphase)
  · rcases step_terminalCommitted h with hsame | htrue
    · exact Or.inr (Or.inl (hsame.trans hcommitted))
    · exact Or.inr (Or.inl htrue)
  · exact Or.inr (Or.inr (step_closed h hclosed))

theorem carries_popStep (he : g.popStep.Carries e) : g.Carries e := by
  rw [Carries, popStep_popped] at he
  rcases g.state.mailbox.waitPop_cases with ⟨d, rest, -, hpop⟩ | ⟨t, -, hslot, hpop⟩ | ⟨-, -, hpop⟩
  · simpa [popStep, setMailbox, hpop, Carries] using he
  · simp only [popStep, setMailbox, hpop, List.mem_append, List.mem_singleton, reduceCtorEq,
      false_or, GenerationEvent.terminal.injEq] at he
    rcases he with he | rfl
    · exact Or.inr he
    · exact Or.inl hslot
  · cases hclosed : g.state.mailbox.closed <;>
      simpa [popStep, setMailbox, hpop, Carries, hclosed] using he

theorem step_carries (h : g.step call = some g') (he : g'.Carries e) :
    g.Carries e ∨ ∃ status finishReason rs, call = .finalize status finishReason ∧
      g.state.offerTerminal status finishReason = .ok rs ∧ e.status = status := by
  by_cases hpop : call = .waitPop
  · subst hpop
    cases h
    exact Or.inl (carries_popStep he)
  rcases he with he | he
  · cases step_effect h with
    | pop => exact absurd rfl hpop
    | finish pending => cases pending <;> exact Or.inl (Or.inl he)
    | quiet rs r _ hq => exact Or.inl (Or.inl (hq.mailbox ▸ he))
    | close | takes => exact Or.inl (Or.inl he)
    | ends status finishReason _ hphase hclosed hundecided =>
      cases he
      have ho : ∃ rs, g.state.offerTerminal status finishReason = .ok rs := by
        simp [RequestState.offerTerminal, GenerationMailbox.pushTerminal, hphase, hclosed,
          hundecided]
      exact Or.inr ⟨status, finishReason, ho.choose, rfl, ho.choose_spec, rfl⟩
  · exact Or.inl (Or.inr (step_popped h hpop ▸ he))

/-- The request ends without a success. -/
def Lost (g : Gate) : Prop := g.Barred ∧ ∀ e, g.Carries e → e.status.isOk = false

theorem step_lost (h : g.step call = some g') (hg : g.Lost) : g'.Lost := by
  refine ⟨step_barred h hg.1, ?_⟩
  intro e he
  rcases step_carries h he with he | ⟨status, finishReason, rs, -, ho, -⟩
  · exact hg.2 e he
  · exact absurd hg.1 (not_barred_of_offerTerminal ho)

end Gate

/-! ## The pump and the request it works on -/

/-- What `handleResponse` still has to do for a request before a terminal event is offered. -/
structure PumpWork where
  request : ℕ
  unoffered : List ℤ := []
  /-- The request will end with an error. -/
  failing : Bool := false

namespace ResponsePumpPc

variable {p : ResponsePumpPc}

def work : ResponsePumpPc → Option PumpWork
  | .markInvalid n _ _ => some { request := n, failing := true }
  | .markRunning n _ tokens _ _
  | .commit n _ tokens _ _ => some { request := n, unoffered := tokens }
  | .committing n _ _ => some { request := n }
  | .markBackpressure n _ _ => some { request := n, failing := true }
  | .finalize .offer f _ _ => some { request := f.request, failing := !f.status.isOk }
  | _ => none

def closing : ResponsePumpPc → Option ℕ
  | .finalize .finish f _ _ | .finalize .erase f _ _ => some f.request
  | _ => none

def WorksOn (p : ResponsePumpPc) (n : ℕ) : Prop := ∃ w, p.work = some w ∧ w.request = n

def Fails (p : ResponsePumpPc) (n : ℕ) : Prop :=
  ∃ w, p.work = some w ∧ w.request = n ∧ w.failing = true

def unoffered (p : ResponsePumpPc) (n : ℕ) : List ℤ :=
  match p.work with
  | some w => if w.request = n then w.unoffered else []
  | none => []

def Sound : ResponsePumpPc → Prop
  | .markFailed status | .snapshotAll status | .finalizeAll status _ => status.isOk = false
  | .finalizeOne _ f status _ => f.status.isOk = false ∧ status.isOk = false
  | _ => True

def Apart (p : ResponsePumpPc) (n : ℕ) : Prop := ¬ p.WorksOn n ∧ p.closing ≠ some n

theorem unoffered_of_not_worksOn {n : ℕ} (h : ¬ p.WorksOn n) : p.unoffered n = [] := by
  unfold unoffered
  split
  · next w hw =>
    rw [if_neg]
    exact fun hn => h ⟨w, hw, hn⟩
  · rfl

theorem Fails.worksOn {n : ℕ} (h : p.Fails n) : p.WorksOn n := by
  obtain ⟨w, hw, hn, -⟩ := h
  exact ⟨w, hw, hn⟩

theorem apart_of_work {n m : ℕ} {w : PumpWork} (hwork : p.work = some w) (hw : w.request = n)
    (hclosing : p.closing = none) (hne : m ≠ n) : p.Apart m := by
  refine ⟨?_, by simp [hclosing]⟩
  rintro ⟨v, hv, rfl⟩
  rw [hwork] at hv
  cases hv
  exact hne hw

theorem apart_of_idle {n : ℕ} (hwork : p.work = none) (hclosing : p.closing = none) :
    p.Apart n := by
  refine ⟨?_, by simp [hclosing]⟩
  rintro ⟨w, hw, -⟩
  cases hwork.symm.trans hw

theorem apart_of_closing {n m : ℕ} (hwork : p.work = none) (hclosing : p.closing = some n)
    (hne : m ≠ n) : p.Apart m := by
  refine ⟨?_, ?_⟩
  · rintro ⟨w, hw, -⟩
    cases hwork.symm.trans hw
  · rw [hclosing]
    exact fun h => hne (Option.some.inj h).symm

end ResponsePumpPc

namespace Backend

variable {call : GateCall} {env : BackendEnv} {k : ℕ} {g g' : Gate} {s₁ : Backend} {w : PumpWork}
  {rest : List ExecutorResponse} {f : Finalization} {p : ResponsePumpPc}

theorem work_conclude (n : ℕ) (result : ExecutorResult) (rest : List ExecutorResponse) :
    ((conclude n result rest).work = none ∨
      ∃ failing, (conclude n result rest).work = some { request := n, failing := failing }) ∧
    (conclude n result rest).closing = none ∧ (conclude n result rest).Sound := by
  unfold conclude
  split
  · exact ⟨Or.inl rfl, rfl, trivial⟩
  · split
    · split <;> exact ⟨Or.inr ⟨_, rfl⟩, rfl, trivial⟩
    · exact ⟨Or.inr ⟨_, rfl⟩, rfl, trivial⟩

theorem apart_conclude {n m : ℕ} (result : ExecutorResult) (rest : List ExecutorResponse)
    (hne : m ≠ n) : (conclude n result rest).Apart m := by
  obtain ⟨hwork | ⟨failing, hwork⟩, hclosing, -⟩ := work_conclude n result rest
  · exact apart_of_idle hwork hclosing
  · exact apart_of_work hwork rfl hclosing hne

theorem unoffered_conclude (n m : ℕ) (result : ExecutorResult) (rest : List ExecutorResponse) :
    (conclude n result rest).unoffered m = [] := by
  obtain ⟨hwork | ⟨failing, hwork⟩, -, -⟩ := work_conclude n result rest
  · simp [unoffered, hwork]
  · simp [unoffered, hwork]

/-! ## Handled responses -/

def handles (s : Backend) : BackendAction → Option (ℕ × List ℤ)
  | .pump env =>
    match s.pump, env.threw with
    | .handle (response :: _), none =>
      match s.requests.lookup response.requestId, response.outcome with
      | some n, .inr result => some (n, result.outputTokenIds.flatten)
      | _, _ => none
    | _, _ => none
  | _ => none

/-- No token finds its request cancelling. -/
def keepsTokens (s : Backend) : BackendAction → Bool
  | .pump _ =>
    match s.pump with
    | .commit n _ _ _ _ => (s.objects n).state.phase != .cancelling
    | _ => true
  | _ => true

/-- The backend with the tokens of the responses it has handled, by request. -/
structure Traced where
  backend : Backend
  handled : ℕ → List ℤ := fun _ => []

variable {t : Traced}

def Traced.step (t : Traced) (a : BackendAction) : Option Traced :=
  (t.backend.step a).map (fun s =>
    { backend := s
      handled :=
        match t.backend.handles a with
        | some (n, tokens) => update t.handled n (t.handled n ++ tokens)
        | none => t.handled })

/-! ## What is kept for one request -/

/-- Every handled token was committed or is about to be offered. -/
def Whole (s : Backend) (handled : List ℤ) (n : ℕ) : Prop :=
  handled = (s.objects n).tokens ++ s.pump.unoffered n

/-- A successful terminal is carried only with all tokens. -/
structure RequestInv (s : Backend) (handled : List ℤ) (n : ℕ) : Prop where
  whole : s.Whole handled n ∨ (s.objects n).Lost ∨ s.pump.Fails n
  certified : ∀ e, (s.objects n).Carries e → e.status.isOk = true →
    handled = (s.objects n).tokens ∧ ¬ s.pump.WorksOn n ∧
      (s.requests.lookup (s.objects n).state.executorId = some n → s.pump.closing = some n)

structure CompleteInv (t : Traced) : Prop where
  life : LifeInv t.backend
  keyed : ∀ e n, t.backend.requests.lookup e = some n →
    n < t.backend.count ∧ (t.backend.objects n).state.executorId = e
  known : ∀ n, t.backend.count ≤ n → t.backend.pump.Apart n
  sound : t.backend.pump.Sound
  unused : ∀ n, t.backend.count ≤ n → t.handled n = []
  requests : ∀ n < t.backend.count, RequestInv t.backend (t.handled n) n

variable {s s' : Backend} {handled : List ℤ} {n : ℕ}

/-- The request has no successful terminal event. -/
def Unsuccessful (g : Gate) : Prop := ∀ e, g.Carries e → e.status.isOk = false

theorem RequestInv.unsuccessful (h : RequestInv s handled n) (hwork : s.pump.WorksOn n) :
    Unsuccessful (s.objects n) := by
  intro e he
  rw [← Bool.not_eq_true]
  exact fun hok => (h.certified e he hok).2.1 hwork

theorem RequestInv.of_unsuccessful (hno : Unsuccessful (s.objects n))
    (h : s.Whole handled n ∨ (s.objects n).Lost ∨ s.pump.Fails n) : RequestInv s handled n := by
  refine ⟨h, ?_⟩
  intro e he hok
  rw [hno e he] at hok
  cases hok

theorem RequestInv.other (h : RequestInv s handled n) (hobject : s'.objects n = s.objects n)
    (hlookup : ∀ e, s'.requests.lookup e = some n → s.requests.lookup e = some n)
    (hbefore : s.pump.Apart n) (hafter : s'.pump.Apart n) : RequestInv s' handled n := by
  have hempty := unoffered_of_not_worksOn hbefore.1
  have hempty' := unoffered_of_not_worksOn hafter.1
  refine ⟨?_, ?_⟩
  · rw [Whole, hobject, hempty']
    rcases h.whole with hwhole | hlost | hfails
    · rw [Whole, hempty] at hwhole
      exact Or.inl hwhole
    · exact Or.inr (Or.inl hlost)
    · exact absurd hfails.worksOn hbefore.1
  · intro e he hok
    rw [hobject] at he ⊢
    obtain ⟨hall, -, htable⟩ := h.certified e he hok
    exact ⟨hall, hafter.1, fun hfound => absurd (htable (hlookup _ hfound)) hbefore.2⟩

def Harmless : GateCall → Prop
  | .tryCommitDelta _ => False
  | .finalize status _ => status.isOk = false
  | _ => True

theorem unsuccessful_step (h : g.step call = some g') (hcall : Harmless call)
    (hno : Unsuccessful g) : Unsuccessful g' := by
  intro e he
  rcases step_carries h he with he | ⟨status, finishReason, rs, rfl, -, heq⟩
  · exact hno e he
  · rw [heq]
    exact hcall

theorem tokens_step (h : g.step call = some g') (hcall : Harmless call) : g'.tokens = g.tokens := by
  refine step_tokens h ?_
  rintro tokenIds rfl
  exact hcall

theorem RequestInv.transfer (h : RequestInv s handled n)
    (htokens : (s'.objects n).tokens = (s.objects n).tokens)
    (hlost : (s.objects n).Lost → (s'.objects n).Lost)
    (hcarries : ∀ e, (s'.objects n).Carries e → e.status.isOk = true → (s.objects n).Carries e)
    (hid : (s'.objects n).state.executorId = (s.objects n).state.executorId)
    (hlookup : ∀ e, s'.requests.lookup e = some n → s.requests.lookup e = some n)
    (hwork : s'.pump.work = s.pump.work) (hclosing : s'.pump.closing = s.pump.closing) :
    RequestInv s' handled n := by
  refine ⟨?_, ?_⟩
  · rw [Whole, htokens, unoffered, ResponsePumpPc.Fails, hwork]
    exact h.whole.imp_right (Or.imp_left hlost)
  · intro e he hok
    rw [htokens, hid, hclosing, ResponsePumpPc.WorksOn, hwork]
    obtain ⟨hall, hapart, htable⟩ := h.certified e (hcarries e he hok) hok
    exact ⟨hall, hapart, fun hfound => htable (hlookup _ hfound)⟩

theorem RequestInv.kept (h : RequestInv s handled n) (hsame : s'.objects n = s.objects n)
    (hlookup : ∀ e, s'.requests.lookup e = some n → s.requests.lookup e = some n)
    (hwork : s'.pump.work = s.pump.work) (hclosing : s'.pump.closing = s.pump.closing) :
    RequestInv s' handled n := by
  refine h.transfer ?_ ?_ ?_ ?_ hlookup hwork hclosing
  all_goals rw [hsame]
  · exact id
  · exact fun _ he _ => he

theorem RequestInv.called (h : RequestInv s handled n)
    (hstep : (s.objects n).step call = some (s'.objects n)) (hcall : Harmless call)
    (hlookup : ∀ e, s'.requests.lookup e = some n → s.requests.lookup e = some n)
    (hwork : s'.pump.work = s.pump.work) (hclosing : s'.pump.closing = s.pump.closing) :
    RequestInv s' handled n := by
  refine h.transfer (tokens_step hstep hcall) (step_lost hstep) ?_ (step_ids hstep).2
    hlookup hwork hclosing
  intro e he hok
  rcases step_carries hstep he with he | ⟨status, finishReason, rs, rfl, -, heq⟩
  · exact he
  · rw [heq, show status.isOk = false from hcall] at hok
    cases hok

/-! ## Steps other than `handleResponse` -/

inductive Aside (s s' : Backend) : Prop where
  | keeps (objects : s'.objects = s.objects) (count : s'.count = s.count)
      (shrinks : ∀ e n, s'.requests.lookup e = some n → s.requests.lookup e = some n)
  | calls (n : ℕ) (call : GateCall) (g : Gate) (known : n < s.count)
      (step : (s.objects n).step call = some g) (harmless : Harmless call)
      (objects : s'.objects = (s.setObject n g).objects) (count : s'.count = s.count)
      (requests : s'.requests = s.requests)
  | registers (request : GenerationRequest) (mailbox : GenerationMailboxConfig) (executorId : ℕ)
      (objects : s'.objects = (s.register request mailbox executorId).objects)
      (count : s'.count = s.count + 1) (requests : s'.requests = s.requests.insert executorId s.count)

structure AsideStep (s s' : Backend) : Prop where
  requests : Aside s s'
  work : s'.pump.work = s.pump.work
  closing : s'.pump.closing = s.pump.closing
  sound : s.pump.Sound → s'.pump.Sound

theorem CompleteInv.aside (ht : CompleteInv t) (h : AsideStep t.backend s') (hlife : LifeInv s') :
    CompleteInv { t with backend := s' } := by
  obtain ⟨hrequests, hwork, hclosing, hsound⟩ := h
  have hapart : ∀ n, t.backend.pump.Apart n → s'.pump.Apart n := by
    intro n hn
    rwa [ResponsePumpPc.Apart, ResponsePumpPc.WorksOn, hwork, hclosing]
  cases hrequests with
  | keeps objects count shrinks =>
    refine ⟨hlife, ?_, ?_, hsound ht.sound, ?_, ?_⟩
    · intro e n hn
      rw [count, objects]
      exact ht.keyed e n (shrinks e n hn)
    · exact fun n hn => hapart n (ht.known n (count ▸ hn))
    · intro n hn
      exact ht.unused n (count ▸ hn)
    · intro n hn
      rw [count] at hn
      exact (ht.requests n hn).kept (by rw [objects]) (fun e => shrinks e n) hwork hclosing
  | calls n call g known step harmless objects count requests =>
    refine ⟨hlife, ?_, ?_, hsound ht.sound, ?_, ?_⟩
    · intro e m hm
      rw [requests] at hm
      obtain ⟨hlt, hid⟩ := ht.keyed e m hm
      rw [count, objects]
      refine ⟨hlt, ?_⟩
      by_cases hmn : m = n
      · subst hmn
        rw [setObject_self, (step_ids step).2, hid]
      · rw [setObject_ne _ _ hmn, hid]
    · exact fun m hm => hapart m (ht.known m (count ▸ hm))
    · intro m hm
      exact ht.unused m (count ▸ hm)
    · intro m hm
      rw [count] at hm
      have hlookup : ∀ e, s'.requests.lookup e = some m → t.backend.requests.lookup e = some m :=
        fun e h => requests ▸ h
      by_cases hmn : m = n
      · subst hmn
        refine (ht.requests m hm).called ?_ harmless hlookup hwork hclosing
        rw [objects, setObject_self]
        exact step
      · exact (ht.requests m hm).kept (by rw [objects, setObject_ne _ _ hmn]) hlookup hwork hclosing
  | registers request mailbox executorId objects count requests =>
    have hnew : s'.objects t.backend.count = .initial request.context.requestId executorId
        request.inputTokenIds.length mailbox := by
      rw [objects]
      exact setObject_self _ _ _
    have hold : ∀ m, m ≠ t.backend.count → s'.objects m = t.backend.objects m := by
      intro m hm
      rw [objects]
      exact setObject_ne _ _ hm
    refine ⟨hlife, ?_, ?_, hsound ht.sound, ?_, ?_⟩
    · intro e m hm
      rw [requests, lookup_insert_eq] at hm
      split at hm
      · next he =>
        cases hm
        rw [count, hnew]
        exact ⟨Nat.lt_succ_self _, he.symm⟩
      · obtain ⟨hlt, hid⟩ := ht.keyed e m hm
        rw [count, hold m (Nat.ne_of_lt hlt)]
        exact ⟨Nat.lt_succ_of_lt hlt, hid⟩
    · intro m hm
      exact hapart m (ht.known m (by rw [count] at hm; omega))
    · intro m hm
      exact ht.unused m (by rw [count] at hm; omega)
    · intro m hm
      rw [count] at hm
      by_cases hmn : m = t.backend.count
      · subst hmn
        have hidle : ¬ s'.pump.WorksOn t.backend.count :=
          (hapart _ (ht.known _ (Nat.le_refl _))).1
        refine RequestInv.of_unsuccessful ?_ (Or.inl ?_)
        · intro e he
          rw [hnew] at he
          rcases he with he | he <;> cases he
        · rw [Whole, hnew, unoffered_of_not_worksOn hidle]
          exact ht.unused _ (Nat.le_refl _)
      · refine (ht.requests m (by omega)).kept (hold m hmn) (fun e he => ?_) hwork hclosing
        rw [requests, lookup_insert_eq] at he
        split at he
        · cases he
          exact absurd rfl hmn
        · exact he

theorem Aside.congr (h : Aside s s₁) (books : SameBooks s₁ s') : Aside s s' := by
  obtain ⟨hrequests, -, hobjects, hcount⟩ := books
  cases h with
  | keeps objects count shrinks =>
    exact .keeps (hobjects.trans objects) (hcount.trans count) (hrequests ▸ shrinks)
  | calls n call g known step harmless objects count requests =>
    exact .calls n call g known step harmless (hobjects.trans objects) (hcount.trans count)
      (hrequests.trans requests)
  | registers request mailbox executorId objects count requests =>
    exact .registers request mailbox executorId (hobjects.trans objects) (hcount.trans count)
      (hrequests.trans requests)

theorem Aside.same (books : SameBooks s s') : Aside s s' :=
  .keeps books.objects books.count (by rw [books.requests]; exact fun _ _ h => h)

theorem Aside.locked (h : s.locked n call = some s') (hcall : Harmless call) : Aside s s' := by
  obtain ⟨hn, g, hstep, rfl⟩ := locked_eq_some.mp h
  exact .calls n call g hn hstep hcall rfl rfl rfl

theorem eraseRequest_shrinks (s : Backend) (n e m : ℕ)
    (h : (s.eraseRequest n).requests.lookup e = some m) : s.requests.lookup e = some m := by
  unfold eraseRequest at h
  split at h
  · exact lookup_of_lookup_erase h
  · exact h

theorem finalizeStep_aside {t : BackendThread} {pc : FinalizePc} {next : Option FinalizePc}
    (h : s.finalizeStep t f pc = some (s', next)) (hf : f.status.isOk = false) : Aside s s' := by
  cases finalizeStep_finalizes h with
  | refused g hn hstep | late g hn hstep | commits g rs hn hstep =>
    exact .calls _ _ g hn hstep hf rfl rfl rfl
  | finishes g hn hstep => exact .calls _ .finish g hn hstep trivial rfl rfl rfl
  | erases =>
    obtain ⟨hobjects, hcount⟩ := s.eraseRequest_objects f.request
    exact .keeps hobjects hcount (s.eraseRequest_shrinks f.request)

theorem enqueueRequest_aside (s : Backend) (request : GenerationRequest)
    (mailbox : GenerationMailboxConfig) (threw : Option (List UInt8)) (executorId : ℕ) :
    Aside s (s.enqueueRequest request mailbox threw executorId).2 := by
  simp only [enqueueRequest]
  split
  · exact .same (.refl s)
  split
  · exact .same (.refl s)
  split
  · exact .keeps rfl rfl (fun _ _ h => h)
  split
  · exact .keeps rfl rfl (fun _ _ h => lookup_of_lookup_erase h)
  · exact .registers request mailbox executorId rfl rfl rfl

theorem AsideStep.ofCall {pc : BackendPc} (h : Aside s s₁) (hpump : s₁.pump = s.pump) :
    AsideStep s (s₁.setCall k pc) := by
  refine ⟨h.congr ⟨rfl, rfl, rfl, rfl⟩, ?_, ?_, ?_⟩
  all_goals
    rw [show (s₁.setCall k pc).pump = s.pump from hpump]
  exact id

theorem CallMove.aside {a : BackendAction} (hs : LifeInv s) (h : s.CallMove k a s') :
    AsideStep s s' := by
  have hrests {s₁ : Backend} {pc : BackendPc} (h : Rests s s₁) : AsideStep s (s₁.setCall k pc) := by
    refine .ofCall ?_ h.pump
    rcases h.books with books | ⟨n, hlocked⟩
    · exact .same books
    · exact .locked hlocked trivial
  -- a pump that is made or joined works on nothing, before and after
  have hidle {s₁ : Backend} {pc : BackendPc} (books : SameBooks s s₁)
      (hbefore : s.pump = .notStarted ∨ s.pump = .finished)
      (hafter : s₁.pump = .notStarted ∨ s₁.pump = .checkRunning) :
      AsideStep s (s₁.setCall k pc) := by
    refine ⟨(Aside.same books).congr ⟨rfl, rfl, rfl, rfl⟩, ?_, ?_, fun _ => ?_⟩
    all_goals
      rw [show (s₁.setCall k pc).pump = s₁.pump from rfl]
      rcases hafter with hafter | hafter <;> rw [hafter]
    all_goals
      first | exact trivial | rcases hbefore with hbefore | hbefore <;> rw [hbefore] <;> rfl
  cases h with
  | outside s₁ pc rests | inside s₁ pc rests => exact hrests rests
  | enters | leaves => exact .ofCall (.same ⟨rfl, rfl, rfl, rfl⟩) rfl
  | launches before =>
    exact hidle ⟨rfl, rfl, rfl, rfl⟩ (Or.inl (hs.joined k (by rw [before]; rfl))) (Or.inr rfl)
  | joins _ done => exact hidle ⟨rfl, rfl, rfl, rfl⟩ (pumpDone_eq done) (Or.inl rfl)
  | enqueues =>
    exact .ofCall (s.enqueueRequest_aside _ _ _ _) (s.enqueueRequest_control _ _ _ _).pump
  | finalizes s₁ pc n pending next before step =>
    exact .ofCall (finalizeStep_aside step rfl) (finalizeStep_control step).pump

theorem consumer_aside (h : s.locked n call = some s') (hcall : Harmless call) :
    AsideStep s s' := by
  have hpump := (locked_control h).pump
  exact ⟨.locked h hcall, by rw [hpump], by rw [hpump], by rw [hpump]; exact id⟩

/-! ## Steps of `handleResponse` -/

theorem closing_of_work (h : p.work = some w) : p.closing = none := by
  unfold work at h
  split at h <;> first | rfl | cases h

theorem CompleteInv.focus (ht : CompleteInv t) {handled' : ℕ → List ℤ} {n : ℕ}
    (hn : n < t.backend.count) (hlife : LifeInv s')
    (hobjects : ∀ m ≠ n, s'.objects m = t.backend.objects m)
    (hid : (s'.objects n).state.executorId = (t.backend.objects n).state.executorId)
    (hcount : s'.count = t.backend.count)
    (hshrinks : ∀ e m, s'.requests.lookup e = some m → t.backend.requests.lookup e = some m)
    (hhandled : ∀ m ≠ n, handled' m = t.handled m) (hbefore : ∀ m ≠ n, t.backend.pump.Apart m)
    (hafter : ∀ m ≠ n, s'.pump.Apart m) (hsound : s'.pump.Sound)
    (hown : RequestInv s' (handled' n) n) : CompleteInv { backend := s', handled := handled' } := by
  refine ⟨hlife, ?_, ?_, hsound, ?_, ?_⟩
  · intro e m hm
    obtain ⟨hlt, hkey⟩ := ht.keyed e m (hshrinks e m hm)
    refine ⟨hcount ▸ hlt, ?_⟩
    by_cases hmn : m = n
    · subst hmn
      exact hid.trans hkey
    · rw [hobjects m hmn]
      exact hkey
  · intro m hm
    refine hafter m ?_
    rintro rfl
    rw [hcount] at hm
    omega
  · intro m hm
    have hmn : m ≠ n := by
      rintro rfl
      rw [hcount] at hm
      omega
    exact (hhandled m hmn).trans (ht.unused m (hcount ▸ hm))
  · intro m hm
    by_cases hmn : m = n
    · subst hmn
      exact hown
    · show RequestInv s' (handled' m) m
      rw [hhandled m hmn]
      exact (ht.requests m (hcount ▸ hm)).other (hobjects m hmn) (fun e => hshrinks e m)
        (hbefore m hmn) (hafter m hmn)

theorem CompleteInv.works (ht : CompleteInv t) (hwork : t.backend.pump.work = some w)
    (hstep : (t.backend.objects w.request).step call = some g) (hlife : LifeInv s')
    (books : SameBooks (t.backend.setObject w.request g) s')
    (hafter : ∀ m ≠ w.request, s'.pump.Apart m) (hsound : s'.pump.Sound)
    (hown : RequestInv s' (t.handled w.request) w.request) :
    CompleteInv { t with backend := s' } := by
  obtain ⟨requests, -, objects, count⟩ := books
  have hn : w.request < t.backend.count := by
    by_contra hunknown
    exact (ht.known w.request (Nat.le_of_not_lt hunknown)).1 ⟨w, hwork, rfl⟩
  refine ht.focus hn hlife ?_ ?_ count (fun e m h => requests ▸ h) (fun _ _ => rfl) ?_ hafter hsound hown
  · intro m hm
    rw [objects, setObject_ne _ _ hm]
  · rw [objects, setObject_self, (step_ids hstep).2]
  · intro m hm
    exact apart_of_work hwork rfl (closing_of_work hwork) hm

theorem pumpFailure_isOk (thrown : Thrown) : (pumpFailure thrown).isOk = false := by
  cases thrown <;> rfl

theorem handles_eq_none (h : ∀ response rest, s.pump ≠ .handle (response :: rest)) :
    s.handles (.pump env) = none := by
  simp only [handles]
  split
  · next response rest hpump _ => exact absurd hpump (h response rest)
  · rfl

theorem RequestInv.ofGate (hobject : s'.objects n = g) (hno : Unsuccessful g)
    (h : handled = g.tokens ++ s'.pump.unoffered n ∨ g.Lost ∨ s'.pump.Fails n) :
    RequestInv s' handled n := by
  subst hobject
  exact .of_unsuccessful hno h

theorem RequestInv.whole_of_work (h : RequestInv s handled n) (hwork : s.pump.work = some w)
    (hw : w.request = n) (hfailing : w.failing = false) :
    handled = (s.objects n).tokens ++ w.unoffered ∨ (s.objects n).Lost := by
  rcases h.whole with hwhole | hlost | ⟨v, hv, -, hfails⟩
  · left
    rw [Whole, unoffered, hwork] at hwhole
    simpa [hw] using hwhole
  · exact Or.inr hlost
  · rw [hwork] at hv
    cases hv
    cases hfailing.symm.trans hfails

section Commit
variable {g g' : Gate} {tokenIds : List ℤ}

theorem tokens_of_commit {rs : RequestState} (h : g.step (.tryCommitDelta tokenIds) = some g')
    (ho : g.state.offerDelta tokenIds = .ok rs) : g'.tokens = g.tokens ++ tokenIds := by
  simp only [Gate.step, Gate.lockedStep, ho] at h
  split at h
  · cases h
  · cases h
    simp [tokens]

theorem tokens_of_refusal {r : DeltaCommitResult} (h : g.step (.tryCommitDelta tokenIds) = some g')
    (ho : g.state.offerDelta tokenIds = .error r) : g'.tokens = g.tokens := by
  simp only [Gate.step, Gate.lockedStep, ho] at h
  split at h
  · cases h
  · cases h
    rfl

theorem unsuccessful_of_commit (h : g.step (.tryCommitDelta tokenIds) = some g')
    (hno : Unsuccessful g) : Unsuccessful g' := by
  intro e he
  rcases step_carries h he with he | ⟨status, finishReason, rs, hcall, -, -⟩
  · exact hno e he
  · cases hcall

/-- Why the gate refuses a delta. -/
theorem offerDelta_refused {r : DeltaCommitResult} (ho : g.state.offerDelta tokenIds = .error r) :
    (r = .terminal → g.Barred) ∧ (r = .empty → tokenIds = []) ∧
      (r = .cancelling → g.state.phase = .cancelling) := by
  unfold RequestState.offerDelta at ho
  split at ho
  · next hphase =>
    cases ho
    exact ⟨fun _ => Or.inl hphase, nofun, nofun⟩
  · split at ho
    · next hphase =>
      cases ho
      exact ⟨nofun, nofun, fun _ => hphase⟩
    · split at ho
      · next hempty =>
        cases ho
        exact ⟨nofun, fun _ => hempty, nofun⟩
      · split at ho <;> cases ho
        exact ⟨nofun, nofun, nofun⟩

end Commit

theorem CompleteInv.commit (ht : CompleteInv t) (hlife : LifeInv s') {executorId : ℕ}
    {tokens : List ℤ} {result : ExecutorResult}
    (hpump : t.backend.pump = .commit n executorId tokens result rest)
    (hguard : t.backend.keepsTokens (.pump env) = true) (h : t.backend.pumpStep env = some s') :
    CompleteInv { t with backend := s' } := by
  have hwork : t.backend.pump.work = some { request := n, unoffered := tokens } := by rw [hpump]; rfl
  have hreq : n < t.backend.count → RequestInv t.backend (t.handled n) n := ht.requests n
  simp only [keepsTokens, hpump, bne_iff_ne, ne_eq] at hguard
  simp only [pumpStep, hpump] at h
  split at h
  · next rs ho =>
    obtain ⟨s₁, hlocked, rfl⟩ := map_eq_some_iff.mp h
    obtain ⟨hn, g, hstep, rfl⟩ := locked_eq_some.mp hlocked
    have hno := (hreq hn).unsuccessful ⟨_, hwork, rfl⟩
    refine ht.works hwork hstep hlife ⟨rfl, rfl, rfl, rfl⟩ ?_ trivial ?_
    · exact fun m hm => apart_of_work (w := { request := n }) rfl rfl rfl hm
    · refine .ofGate (setObject_self _ _ _) (unsuccessful_of_commit hstep hno) (Or.inl ?_)
      rcases (hreq hn).whole_of_work hwork rfl rfl with hwhole | hlost
      · rw [hwhole, tokens_of_commit hstep ho]
        simp [unoffered, work]
      · exact absurd hlost.1 (not_barred_of_offerDelta ho)
  · next r ho =>
    obtain ⟨s₁, hlocked, rfl⟩ := map_eq_some_iff.mp h
    obtain ⟨hn, g, hstep, rfl⟩ := locked_eq_some.mp hlocked
    have hno := unsuccessful_of_commit hstep ((hreq hn).unsuccessful ⟨_, hwork, rfl⟩)
    cases r with
    | committed => exact absurd rfl (RequestState.offerDelta_error ho)
    | cancelling => exact absurd ((offerDelta_refused ho).2.2 rfl) hguard
    | backpressure =>
      refine ht.works hwork hstep hlife ⟨rfl, rfl, rfl, rfl⟩ ?_ trivial ?_
      · exact fun m hm => apart_of_work (w := { request := n, failing := true })
          rfl rfl rfl hm
      · exact .ofGate (setObject_self _ _ _) hno (Or.inr (Or.inr ⟨_, rfl, rfl, rfl⟩))
    | terminal =>
      refine ht.works hwork hstep hlife ⟨rfl, rfl, rfl, rfl⟩ ?_ trivial ?_
      · exact fun m _ => apart_of_idle rfl rfl
      · exact .ofGate (setObject_self _ _ _) hno
          (Or.inr (Or.inl ⟨step_barred hstep ((offerDelta_refused ho).1 rfl), hno⟩))
    | empty =>
      refine ht.works hwork hstep hlife ⟨rfl, rfl, rfl, rfl⟩ ?_ (work_conclude n result rest).2.2 ?_
      · exact fun m hm => apart_conclude result rest hm
      · refine .ofGate (setObject_self _ _ _) hno ?_
        rcases (hreq hn).whole_of_work hwork rfl rfl with hwhole | hlost
        · left
          rw [hwhole, tokens_of_refusal hstep ho, (offerDelta_refused ho).2.1 rfl, unoffered_conclude]
        · exact Or.inr (Or.inl (step_lost hstep hlost))

theorem CompleteInv.marks (ht : CompleteInv t) (hwork : t.backend.pump.work = some w)
    (hlocked : t.backend.locked w.request call = some s₁) (hcall : Harmless call)
    {owner : ℕ → Option BackendThread} (hlife : LifeInv { s₁ with pump := p, owner := owner })
    (hafter : ∀ m ≠ w.request, p.Apart m) (hsound : p.Sound)
    (hnext : w.failing = false ∧ p.unoffered w.request = w.unoffered ∨ p.Fails w.request) :
    CompleteInv { t with backend := { s₁ with pump := p, owner := owner } } := by
  obtain ⟨hn, g, hstep, rfl⟩ := locked_eq_some.mp hlocked
  have hreq := ht.requests w.request hn
  have hno := unsuccessful_step hstep hcall (hreq.unsuccessful ⟨w, hwork, rfl⟩)
  refine ht.works hwork hstep hlife ⟨rfl, rfl, rfl, rfl⟩ hafter hsound
    (.ofGate (setObject_self _ _ _) hno ?_)
  rcases hnext with ⟨hfailing, hunoffered⟩ | hfails
  · rcases hreq.whole_of_work hwork rfl hfailing with hwhole | hlost
    · left
      rw [hwhole, tokens_step hstep hcall, hunoffered]
    · exact Or.inr (Or.inl (step_lost hstep hlost))
  · exact Or.inr (Or.inr hfails)

/-! ### The terminal event -/

theorem barred_of_offered {status : Status} {finishReason : Option FinishReason}
    (h : g.step (.finalize status finishReason) = some g') : g'.Barred := by
  cases ho : g.state.offerTerminal status finishReason with
  | error => exact step_barred h (barred_of_offerTerminal ho)
  | ok =>
    obtain ⟨-, -, -, rfl⟩ := RequestState.offerTerminal_ok ho
    simp only [Gate.step, Gate.lockedStep, ho] at h
    split at h
    · cases h
    · cases h
      exact Or.inr (Or.inl rfl)

theorem RequestInv.offered (h : RequestInv s handled n)
    (hwork : s.pump.work = some { request := n, failing := !f.status.isOk })
    (hstep : (s.objects n).step (.finalize f.status f.finishReason) = some (s'.objects n))
    (hidle : s'.pump.work = none)
    (hclosing : ∀ rs, (s.objects n).state.offerTerminal f.status f.finishReason = .ok rs →
      s'.pump.closing = some n) : RequestInv s' handled n := by
  have hno := h.unsuccessful ⟨_, hwork, rfl⟩
  have hbarred := barred_of_offered hstep
  by_cases hsuccess : f.status.isOk = true ∧
      ∃ rs, (s.objects n).state.offerTerminal f.status f.finishReason = .ok rs
  · obtain ⟨hok, rs, ho⟩ := hsuccess
    have hall : handled = (s'.objects n).tokens := by
      rw [Gate.step_tokens hstep nofun]
      rcases h.whole_of_work hwork rfl (by simp [hok]) with hwhole | hlost
      · simpa using hwhole
      · exact absurd hlost.1 (not_barred_of_offerTerminal ho)
    have hapart : ¬ s'.pump.WorksOn n := by
      rintro ⟨w, hw, -⟩
      cases hidle.symm.trans hw
    refine ⟨Or.inl ?_, fun e _ _ => ⟨hall, hapart, fun _ => hclosing rs ho⟩⟩
    rw [Whole, unoffered_of_not_worksOn hapart, List.append_nil]
    exact hall
  · have hno' : Unsuccessful (s'.objects n) := by
      intro e he
      rcases step_carries hstep he with he | ⟨status, finishReason, rs, hcall, ho, heq⟩
      · exact hno e he
      · cases hcall
        rw [heq, ← Bool.not_eq_true]
        exact fun hok => hsuccess ⟨hok, rs, ho⟩
    exact .of_unsuccessful hno' (Or.inr (Or.inl ⟨hbarred, hno'⟩))

theorem lookup_eraseRequest (s : Backend) (n : ℕ) :
    (s.eraseRequest n).requests.lookup (s.objects n).state.executorId ≠ some n := by
  unfold eraseRequest
  split
  · rw [lookup_erase_eq, if_pos rfl]
    simp
  · next h => exact h

theorem RequestInv.erased (h : RequestInv s handled n) (hbefore : s.pump.work = none)
    (hobjects : s'.objects = s.objects) (hrequests : s'.requests = (s.eraseRequest n).requests)
    (hidle : s'.pump.work = none) : RequestInv s' handled n := by
  have hnothing : ∀ p : ResponsePumpPc, p.work = none → ¬ p.WorksOn n := by
    rintro p hp ⟨w, hw, -⟩
    cases hp.symm.trans hw
  refine ⟨?_, ?_⟩
  · rw [Whole, hobjects, unoffered_of_not_worksOn (hnothing _ hidle)]
    rcases h.whole with hwhole | hlost | hfails
    · rw [Whole, unoffered_of_not_worksOn (hnothing _ hbefore)] at hwhole
      exact Or.inl hwhole
    · exact Or.inr (Or.inl hlost)
    · exact absurd hfails.worksOn (hnothing _ hbefore)
  · intro e he hok
    rw [hobjects] at he ⊢
    refine ⟨(h.certified e he hok).1, hnothing _ hidle, ?_⟩
    intro hfound
    rw [hrequests] at hfound
    exact absurd hfound (s.lookup_eraseRequest n)

theorem CompleteInv.finalize (ht : CompleteInv t) (hlife : LifeInv s') {pc : FinalizePc}
    {cancelAfter : Option ℕ} (hpump : t.backend.pump = .finalize pc f cancelAfter rest)
    (h : t.backend.pumpStep env = some s') : CompleteInv { t with backend := s' } := by
  simp only [pumpStep, hpump] at h
  obtain ⟨⟨s₁, next⟩, hstep, rfl⟩ := map_eq_some_iff.mp h
  have hmap {g : Gate} : (t.backend.setObject f.request g).objects f.request = g := setObject_self _ _ _
  cases finalizeStep_finalizes hstep with
  | refused g hn hgate ho =>
    have hwork : t.backend.pump.work = some { request := f.request, failing := !f.status.isOk } := by
      rw [hpump]
      rfl
    cases cancelAfter
    all_goals
      refine ht.works hwork hgate hlife ⟨rfl, rfl, rfl, rfl⟩
        (fun m _ => apart_of_idle rfl rfl) trivial ?_
      refine (ht.requests f.request hn).offered hwork (hgate.trans (congrArg some hmap.symm)) rfl ?_
      exact fun rs hok => by cases ho.symm.trans hok
  | late g hn hgate | commits g rs hn hgate =>
    have hwork : t.backend.pump.work = some { request := f.request, failing := !f.status.isOk } := by
      rw [hpump]
      rfl
    refine ht.works hwork hgate hlife ⟨rfl, rfl, rfl, rfl⟩ ?_ trivial ?_
    · exact fun m hm => apart_of_closing rfl rfl hm
    · exact (ht.requests f.request hn).offered hwork (hgate.trans (congrArg some hmap.symm)) rfl
        (fun _ _ => rfl)
  | finishes g hn hgate =>
    refine ht.aside ⟨.calls _ .finish g hn hgate trivial rfl rfl rfl, ?_, ?_, fun _ => trivial⟩ hlife
    · rw [hpump]
      rfl
    · rw [hpump]
      rfl
  | erases =>
    have hidle : t.backend.pump.work = none := by rw [hpump]; rfl
    have hclosing : t.backend.pump.closing = some f.request := by rw [hpump]; rfl
    have hn : f.request < t.backend.count := by
      by_contra hunknown
      exact (ht.known f.request (Nat.le_of_not_lt hunknown)).2 hclosing
    obtain ⟨hobjects, hcount⟩ := t.backend.eraseRequest_objects f.request
    cases cancelAfter
    all_goals
      exact ht.focus hn hlife (fun m _ => congrFun hobjects m)
        (congrArg (fun g : Gate => g.state.executorId) (congrFun hobjects f.request)) hcount
        (t.backend.eraseRequest_shrinks f.request) (fun _ _ => rfl)
        (fun m hm => apart_of_closing hidle hclosing hm) (fun m _ => apart_of_idle rfl rfl) trivial
        ((ht.requests f.request hn).erased hidle hobjects rfl rfl)

/-! ### A response -/

def responseTokens (response : ExecutorResponse) : List ℤ :=
  match response.outcome with
  | .inl _ => []
  | .inr result => result.outputTokenIds.flatten

theorem work_inspect (n : ℕ) (response : ExecutorResponse) (rest : List ExecutorResponse) :
    (∃ w, (inspect n response rest).work = some w ∧ w.request = n ∧
      (w.failing = true ∨ w.unoffered = responseTokens response)) ∧
    (inspect n response rest).closing = none ∧ (inspect n response rest).Sound := by
  unfold inspect responseTokens
  split
  · exact ⟨⟨_, rfl, rfl, Or.inl rfl⟩, rfl, trivial⟩
  · next result hresult =>
    split
    · next tokens htokens =>
      exact ⟨⟨_, rfl, rfl, Or.inr (by simp [hresult, htokens])⟩, rfl, trivial⟩
    · exact ⟨⟨_, rfl, rfl, Or.inl rfl⟩, rfl, trivial⟩

theorem CompleteInv.inspect (ht : CompleteInv t) {response : ExecutorResponse}
    (hpump : t.backend.pump = .handle (response :: rest))
    (hfound : t.backend.requests.lookup response.requestId = some n)
    (hlife : LifeInv { t.backend with pump := Backend.inspect n response rest }) :
    CompleteInv
      { backend := { t.backend with pump := Backend.inspect n response rest }
        handled := update t.handled n (t.handled n ++ responseTokens response) } := by
  obtain ⟨hn, hkey⟩ := ht.keyed _ _ hfound
  have hidle : ∀ m, t.backend.pump.Apart m := fun m => by
    rw [hpump]
    exact apart_of_idle rfl rfl
  have hreq := ht.requests n hn
  have hno : Unsuccessful (t.backend.objects n) := by
    intro e he
    rw [← Bool.not_eq_true]
    intro hok
    exact (hidle n).2 ((hreq.certified e he hok).2.2 (by rw [hkey]; exact hfound))
  have hwhole : t.handled n = (t.backend.objects n).tokens ∨ (t.backend.objects n).Lost := by
    rcases hreq.whole with hwhole | hlost | hfails
    · left
      rw [Whole, unoffered_of_not_worksOn (hidle n).1, List.append_nil] at hwhole
      exact hwhole
    · exact Or.inr hlost
    · exact absurd hfails.worksOn (hidle n).1
  obtain ⟨⟨w, hwork, hw, htokens⟩, hclosing, hsound⟩ := work_inspect n response rest
  refine ht.focus hn hlife (fun _ _ => rfl) rfl rfl (fun _ _ h => h) ?_ (fun m _ => hidle m) ?_
    hsound ?_
  · exact fun m hm => update_of_ne hm _ _
  · exact fun m hm => apart_of_work hwork hw hclosing hm
  · rw [update_self]
    refine .of_unsuccessful hno ?_
    rcases htokens with hfailing | htokens
    · exact Or.inr (Or.inr ⟨w, hwork, hw, hfailing⟩)
    · rcases hwhole with hwhole | hlost
      · left
        rw [Whole, unoffered]
        dsimp only
        rw [hwork, hwhole]
        simp [hw, htokens]
      · exact Or.inr (Or.inl hlost)

/-! ## Runs -/

theorem CompleteInv.idles (ht : CompleteInv t) (hlife : LifeInv { s₁ with pump := p })
    (hpump : t.backend.pump = q) (hidle : q.work = none ∧ q.closing = none)
    (h : Aside t.backend s₁) (hidle' : p.work = none ∧ p.closing = none) (hsound : p.Sound) :
    CompleteInv { t with backend := { s₁ with pump := p } } := by
  subst hpump
  exact ht.aside ⟨h.congr ⟨rfl, rfl, rfl, rfl⟩, hidle'.1.trans hidle.1.symm,
    hidle'.2.trans hidle.2.symm, fun _ => hsound⟩ hlife

theorem CompleteInv.turns (ht : CompleteInv t) (hlife : LifeInv { t.backend with pump := p })
    (hpump : t.backend.pump = q) (hidle : q.work = none ∧ q.closing = none)
    (hidle' : p.work = none ∧ p.closing = none) (hsound : p.Sound) :
    CompleteInv { t with backend := { t.backend with pump := p } } :=
  ht.idles hlife hpump hidle (.same (.refl _)) hidle' hsound

theorem CompleteInv.response (ht : CompleteInv t) {response : ExecutorResponse}
    (hpump : t.backend.pump = .handle (response :: rest)) (h : t.backend.pumpStep env = some s') :
    CompleteInv
      { backend := s'
        handled :=
          match t.backend.handles (.pump env) with
          | some (n, tokens) => update t.handled n (t.handled n ++ tokens)
          | none => t.handled } := by
  have hlife : LifeInv s' := ht.life.pump h
  simp only [pumpStep, hpump] at h
  split at h
  · next thrown hthrew =>
    cases h
    rw [show t.backend.handles (.pump env) = none by simp [handles, hpump, hthrew]]
    exact ht.turns hlife hpump ⟨rfl, rfl⟩ ⟨rfl, rfl⟩ (pumpFailure_isOk thrown)
  · next hthrew =>
    split at h
    · split at h
      · next hfound =>
        cases h
        rw [show t.backend.handles (.pump env) = none by simp [handles, hpump, hthrew, hfound]]
        exact ht.turns hlife hpump ⟨rfl, rfl⟩ ⟨rfl, rfl⟩ trivial
      · next n hfound =>
        cases h
        have hinspect := ht.inspect hpump hfound hlife
        cases houtcome : response.outcome with
        | inl =>
          rw [show t.backend.handles (.pump env) = none by
            simp [handles, hpump, hthrew, hfound, houtcome]]
          simpa [responseTokens, houtcome] using hinspect
        | inr =>
          rw [show t.backend.handles (.pump env) = some (n, responseTokens response) by
            simp [handles, hpump, hthrew, hfound, houtcome, responseTokens]]
          exact hinspect
    · cases h

theorem CompleteInv.pumpStep (ht : CompleteInv t)
    (hguard : t.backend.keepsTokens (.pump env) = true) (h : t.backend.pumpStep env = some s')
    (hother : ∀ response rest, t.backend.pump ≠ .handle (response :: rest)) :
    CompleteInv { t with backend := s' } := by
  have hlife : LifeInv s' := ht.life.pump h
  have hsound := ht.sound
  cases hpump : t.backend.pump with
  | commit => exact ht.commit hlife hpump hguard h
  | finalize => exact ht.finalize hlife hpump h
  | handle responses =>
    cases responses with
    | cons response rest => exact absurd hpump (hother response rest)
    | nil =>
      simp only [Backend.pumpStep, hpump] at h
      cases h
      exact ht.turns hlife hpump ⟨rfl, rfl⟩ ⟨rfl, rfl⟩ trivial
  | notStarted | finished =>
    simp only [Backend.pumpStep, hpump] at h
    cases h
  | checkRunning =>
    simp only [Backend.pumpStep, hpump] at h
    split at h
    · cases h
      refine ht.turns hlife hpump ⟨rfl, rfl⟩ ?_ ?_
      all_goals split_ifs
      all_goals trivial
    · cases h
  | await =>
    simp only [Backend.pumpStep, hpump] at h
    split at h
    · next thrown _ =>
      cases h
      exact ht.turns hlife hpump ⟨rfl, rfl⟩ ⟨rfl, rfl⟩ (pumpFailure_isOk thrown)
    · cases h
      exact ht.turns hlife hpump ⟨rfl, rfl⟩ ⟨rfl, rfl⟩ trivial
  | markInvalid n | markBackpressure n =>
    simp only [Backend.pumpStep, hpump] at h
    obtain ⟨s₁, hlocked, rfl⟩ := map_eq_some_iff.mp h
    have hwork : t.backend.pump.work = some { request := n, failing := true } := by rw [hpump]; rfl
    exact ht.marks hwork hlocked trivial hlife
      (fun m hm => apart_of_work (w := { request := n, failing := true }) rfl rfl rfl hm)
      trivial (Or.inr ⟨_, rfl, rfl, rfl⟩)
  | markRunning n executorId tokens result rest =>
    simp only [Backend.pumpStep, hpump] at h
    obtain ⟨s₁, hlocked, rfl⟩ := map_eq_some_iff.mp h
    have hwork : t.backend.pump.work = some { request := n, unoffered := tokens } := by rw [hpump]; rfl
    refine ht.marks hwork hlocked trivial hlife ?_ ?_ (Or.inl ⟨rfl, ?_⟩)
    · intro m hm
      split_ifs
      · exact apart_conclude result rest hm
      · exact apart_of_work (w := { request := n, unoffered := tokens }) rfl rfl rfl hm
    · split_ifs
      · exact (work_conclude n result rest).2.2
      · trivial
    · split_ifs with hempty
      · rw [hempty]
        exact unoffered_conclude n n result rest
      · simp [ResponsePumpPc.unoffered, ResponsePumpPc.work]
  | committing n result rest =>
    simp only [Backend.pumpStep, hpump] at h
    split at h
    · obtain ⟨s₁, hlocked, rfl⟩ := map_eq_some_iff.mp h
      have hwork : t.backend.pump.work = some { request := n } := by rw [hpump]; rfl
      exact ht.marks hwork hlocked trivial hlife (fun m hm => apart_conclude result rest hm)
        (work_conclude n result rest).2.2 (Or.inl ⟨rfl, unoffered_conclude n n result rest⟩)
    · cases h
  | cancelExecutor =>
    simp only [Backend.pumpStep, hpump] at h
    split at h
    · cases h
      exact ht.aside ⟨.same ⟨rfl, rfl, rfl, rfl⟩, by rw [hpump]; rfl, by rw [hpump]; rfl,
        fun _ => trivial⟩ hlife
    · cases h
  | markFailed =>
    rw [hpump] at hsound
    simp only [Backend.pumpStep, hpump] at h
    split at h
    · split at h
      · cases h
        exact ht.aside ⟨.same ⟨rfl, rfl, rfl, rfl⟩, by rw [hpump]; rfl, by rw [hpump]; rfl,
          fun _ => hsound⟩ hlife
      · cases h
        exact ht.turns hlife hpump ⟨rfl, rfl⟩ ⟨rfl, rfl⟩ trivial
    · cases h
  | snapshotAll =>
    rw [hpump] at hsound
    simp only [Backend.pumpStep, hpump] at h
    split at h
    · cases h
      exact ht.turns hlife hpump ⟨rfl, rfl⟩ ⟨rfl, rfl⟩ hsound
    · cases h
  | finalizeAll status pending =>
    rw [hpump] at hsound
    cases pending with
    | nil =>
      simp only [Backend.pumpStep, hpump] at h
      cases h
      exact ht.turns hlife hpump ⟨rfl, rfl⟩ ⟨rfl, rfl⟩ trivial
    | cons =>
      simp only [Backend.pumpStep, hpump] at h
      obtain ⟨n, -, rfl⟩ := map_eq_some_iff.mp h
      exact ht.turns hlife hpump ⟨rfl, rfl⟩ ⟨rfl, rfl⟩ ⟨hsound, hsound⟩
  | finalizeOne pc =>
    rw [hpump] at hsound
    simp only [Backend.pumpStep, hpump] at h
    obtain ⟨⟨s₁, next⟩, hstep, rfl⟩ := map_eq_some_iff.mp h
    refine ht.idles hlife hpump ⟨rfl, rfl⟩ (finalizeStep_aside hstep hsound.1) ?_ ?_
    · cases next <;> trivial
    · cases next with
      | none => exact hsound.2
      | some => exact hsound

theorem CompleteInv.step {t' : Traced} (ht : CompleteInv t) {a : BackendAction}
    (hguard : t.backend.keepsTokens a = true) (h : t.step a = some t') : CompleteInv t' := by
  obtain ⟨s', hs', rfl⟩ := map_eq_some_iff.mp h
  have hlife : LifeInv s' := ht.life.step hs'
  cases a with
  | pump =>
    by_cases hresponse : ∃ response rest, t.backend.pump = .handle (response :: rest)
    · obtain ⟨response, rest, hpump⟩ := hresponse
      exact ht.response hpump hs'
    · push Not at hresponse
      rw [handles_eq_none hresponse]
      exact ht.pumpStep hguard hs' hresponse
  | begin | start | submit | cancel | stop | unlock =>
    exact ht.aside ((step_move rfl hs').aside ht.life) hlife
  | waitPop | close => exact ht.aside (consumer_aside hs' trivial) hlife

theorem initial_complete (config : TrtLlmBackendConfig) :
    CompleteInv { backend := { config := config } } where
  life := initial_life config
  keyed _ _ h := by cases h
  known _ _ := ResponsePumpPc.apart_of_idle rfl rfl
  sound := trivial
  unused _ _ := rfl
  requests _ h := by cases h

/-- A successful terminal event certifies the tokens of all responses that were handled for its
request, when no token found the request cancelling. -/
theorem success_certifies_output {config : TrtLlmBackendConfig} {actions : List BackendAction}
    {t : Traced}
    (hguard : Along Traced.step (fun t a => t.backend.keepsTokens a = true)
      { backend := { config := config } } actions)
    (hrun : exec Traced.step { backend := { config := config } } actions = some t) {e : TerminalEvent}
    (hn : n < t.backend.count) (he : (t.backend.objects n).Carries e) (hok : e.status.isOk = true) :
    t.handled n = (t.backend.objects n).committed.flatMap TokenDelta.tokenIds := by
  have ht : CompleteInv t :=
    exec_invariant (fun _ _ _ ht hguard h => ht.step hguard h) (initial_complete config) hguard hrun
  exact ((ht.requests n hn).certified e he hok).1

/-- A started backend has accepted one request and received a final response with a token. -/
def finalResponse : List BackendAction :=
  [.begin 0 .start, .start 0 {}, .start 0 {}, .start 0 {}, .start 0 {}, .unlock 0,
    .begin 1 (.submit { context := { requestId := 5 }, inputTokenIds := [3, 4] } (some {})),
    .submit 1 {}, .submit 1 {}, .submit 1 { executorId := 7 },
    .pump {}, .pump { responses := [⟨7, .inr ⟨[[12]], true, [.length]⟩⟩] }, .pump {}, .pump {}]

def succeeded (t : Traced) (handled committed : List ℤ) : Bool :=
  t.backend.count == 1 && (t.backend.objects 0).state.mailbox.terminal.any (·.status.isOk) &&
    t.handled 0 == handled && (t.backend.objects 0).tokens == committed

theorem exists_of_succeeded {actions : List BackendAction} {handled committed : List ℤ}
    (h : (exec Traced.step { backend := { config := {} } } actions).any
      (succeeded · handled committed) = true) :
    ∃ t e, exec Traced.step { backend := { config := {} } } actions = some t ∧ t.backend.count = 1 ∧
      (t.backend.objects 0).Carries e ∧ e.status.isOk = true ∧ t.handled 0 = handled ∧
      (t.backend.objects 0).tokens = committed := by
  obtain ⟨t, hrun, htest⟩ := (any_eq_true _ _).mp h
  simp only [succeeded, Bool.and_eq_true, beq_iff_eq] at htest
  obtain ⟨⟨⟨hcount, hterminal⟩, hhandled⟩, hcommitted⟩ := htest
  obtain ⟨e, he, hok⟩ := (any_eq_true _ _).mp hterminal
  exact ⟨t, e, hrun, hcount, Or.inl he, hok, hhandled, hcommitted⟩

def answered : List BackendAction := finalResponse ++ [.pump {}, .pump {}, .pump {}]

theorem success_certifies_output_answered :
    ∃ t, exec Traced.step { backend := { config := {} } } answered = some t ∧ t.handled 0 = [12] ∧
      t.handled 0 = (t.backend.objects 0).committed.flatMap TokenDelta.tokenIds := by
  have hany : (exec Traced.step { backend := { config := {} } } answered).any
      (succeeded · [12] [12]) = true := by decide +kernel
  obtain ⟨t, e, hrun, hcount, he, hok, hhandled, -⟩ := exists_of_succeeded hany
  have hguard : Along Traced.step (fun t a => t.backend.keepsTokens a = true)
      { backend := { config := {} } } answered := by decide +kernel
  exact ⟨t, hrun, hhandled, success_certifies_output hguard hrun (by omega) he hok⟩

def crossed : List BackendAction :=
  finalResponse ++
    [.begin 2 (.cancel 5), .cancel 2, .cancel 2, .cancel 2, .pump {}, .pump {}, .pump {}]

/-- The token is dropped, and the finish reason of its response still makes a success of it. -/
theorem cancel_drops_last_token :
    ∃ t e, exec Traced.step { backend := { config := {} } } crossed = some t ∧
      (t.backend.objects 0).Carries e ∧ e.status.isOk = true ∧ t.handled 0 = [12] ∧
      (t.backend.objects 0).committed.flatMap TokenDelta.tokenIds = [] := by
  have hany : (exec Traced.step { backend := { config := {} } } crossed).any
      (succeeded · [12] []) = true := by decide +kernel
  obtain ⟨t, e, hrun, -, he, hok, hhandled, hcommitted⟩ := exists_of_succeeded hany
  exact ⟨t, e, hrun, he, hok, hhandled, hcommitted⟩

end Backend

end KimServing

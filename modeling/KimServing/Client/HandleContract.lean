import KimServing.Client.ClientEffects
import KimServing.Client.RequestBooks
import Mathlib.Logic.Relation

/-! # The contract of a handle

Every step of the client is a run of the books. What follows is the contract: a
handle yields deltas, one terminal and then the end, the terminal of the worker
is never replaced, and a request that was accepted before the client failed gets
a terminal from whoever has taken it.
-/
namespace KimServing.Client
open Library Function

theorem Books.moves_keeps {b b' : Books} (hb : b.Inv)
    (h : Relation.ReflTransGen Books.Step b b') : b.Keeps b' := by
  induction h with
  | refl => exact ⟨hb, .refl b⟩
  | tail _ hstep ih =>
    have hlast := Books.step_keeps ih.inv hstep
    exact ⟨hlast.inv, ih.later.trans hlast.later⟩

namespace GenerationClient

variable {thread : Thread} {e : ClientError}

def books (s : GenerationClient) : Books where
  states := s.states
  stateCount := s.stateCount
  requests := s.requests
  held := fun k => (s.threads k).pc.held
  received := s.received
  withdrawn := s.withdrawn
  yielded := s.yielded
  dispatched := s.dispatched

def Moves (s t : GenerationClient) : Prop := Relation.ReflTransGen Books.Step s.books t.books

variable {s t : GenerationClient} {k : ℕ}

theorem Moves.of_eq (h : t.books = s.books) : s.Moves t := by
  rw [Moves, h]

theorem books_eq {b : Books} (hheld : (fun j => (t.threads j).pc.held) = b.held)
    (hrest : ({ t.books with held := b.held } : Books) = b) : t.books = b := by
  rw [← hrest, ← hheld]
  rfl

theorem Moves.of_run {b : Books} (h : Relation.ReflTransGen Books.Step s.books b)
    (hheld : (fun j => (t.threads j).pc.held) = b.held)
    (hrest : ({ t.books with held := b.held } : Books) = b) : s.Moves t := by
  rw [Moves, books_eq hheld hrest]
  exact h

theorem Moves.one {b : Books} (h : s.books.Step b)
    (hheld : (fun j => (t.threads j).pc.held) = b.held)
    (hrest : ({ t.books with held := b.held } : Books) = b) : s.Moves t :=
  .of_run (.single h) hheld hrest

theorem held_update (threads : ℕ → Thread) (k : ℕ) (thread : Thread) :
    (fun j => (update threads k thread j).pc.held) =
      update (fun j => (threads j).pc.held) k thread.pc.held := by
  funext j
  by_cases hj : j = k
  · subst hj
    simp
  · simp [hj]

theorem held_update_same {threads : ℕ → Thread} {k : ℕ} (h : (threads k).pc.held = thread.pc.held) :
    (fun j => (update threads k thread j).pc.held) = fun j => (threads j).pc.held := by
  rw [held_update, ← h]
  exact update_eq_self k _

theorem books_eq_of_core (hcore : t.core = s.core)
    (hheld : (fun j => (t.threads j).pc.held) = fun j => (s.threads j).pc.held) :
    t.books = s.books := by
  simp only [core, Core.mk.injEq] at hcore
  obtain ⟨-, -, -, h₁, -, -, h₂, h₃, -, -, -, -, h₄, h₅, h₆, -, h₇⟩ := hcore
  simp only [books, h₁, h₂, h₃, h₄, h₅, h₆, h₇, hheld]

theorem lookup_of_checkSubmit {c : Connection} {request : GenerationRequest}
    (h : s.checkSubmit c request = .ok ()) : s.requests.lookup request.requestId = none := by
  cases hfind : s.requests.lookup request.requestId with
  | none => rfl
  | some =>
    simp only [checkSubmit, hfind, bind, Except.bind] at h
    split at h <;> simp at h

theorem onDelta_minor {r r' : RequestState} {d : TokenDelta} {cancels : Bool}
    (h : r.onDelta d = .ok (r', cancels)) : Books.Minor r r' := by
  simp only [RequestState.onDelta, bind, Except.bind] at h
  split at h
  · cases h
  · split at h
    · cases h
    · rw [EventBuffer.putDelta] at h
      cases hterminal : r.events.terminal with
      | some =>
        simp only [hterminal, Option.isSome_some, if_true] at h
        cases h
        exact ⟨rfl, rfl, rfl, rfl, rfl, rfl, rfl, Or.inl rfl⟩
      | none =>
        simp only [hterminal, Option.isSome_none, Bool.false_eq_true, if_false] at h
        by_cases hfull : r.events.maxDeltaEvents ≤ r.events.deltas.length
        · simp only [hfull, if_true] at h
          cases h
          exact ⟨rfl, rfl, rfl, rfl, rfl, hterminal.symm, rfl, Or.inl rfl⟩
        · simp only [hfull, if_false] at h
          cases h
          exact ⟨rfl, rfl, rfl, rfl, rfl, hterminal.symm, rfl, Or.inr hterminal⟩

theorem dispatch_moves {m : ServerMessage} {next : Dispatched} (hpc : (s.threads k).pc = .dispatch m)
    (h : s.Dispatches m t next) :
    s.Moves { t.setPc k (onDispatched next) with dispatched := t.dispatched ++ [m] } := by
  have hfree : (s.threads k).pc.held = [] := by rw [hpc]; rfl
  have hsame : ∀ {u : GenerationClient}, u.threads = s.threads → ∀ {pc : Pc}, pc.held = [] →
      (fun j => ((u.setPc k pc).threads j).pc.held) = fun j => (s.threads j).pc.held := by
    intro u hu pc hnil
    rw [setPc, hu]
    exact held_update_same (hfree.trans hnil.symm)
  cases h with
  | stats m t hcore hthreads =>
    have hbooks : (t.setPc k .readLoop).books = s.books :=
      books_eq_of_core hcore (hsame hthreads rfl)
    have hnote : ({ t.setPc k (onDispatched .done) with
        dispatched := t.dispatched ++ [.stats m] } : GenerationClient).books =
        ((t.setPc k .readLoop).books).note (.stats m) := rfl
    rw [Moves, hnote, hbooks]
    exact .single (.note _)
  | accepted requestId n hfind => exact .one (.accept requestId n hfind) (hsame rfl rfl) rfl
  | rejected requestId n status hfind hnot =>
    exact .one (.reject requestId n status hfind hnot) (hsame rfl rfl) rfl
  | delta requestId sequenceNo n tokenIds r cancels next hfind hdelta hnext =>
    have hnil : (onDispatched next).held = [] := by
      cases next with
      | done | sendCancel => rfl
      | deliver m t => exact absurd rfl (hnext m t)
    have hminor := Books.Step.minor (b := s.books) requestId n r hfind (onDelta_minor hdelta)
    exact .of_run ((Relation.ReflTransGen.single hminor).tail
      (.note (.tokenDelta requestId sequenceNo tokenIds))) (hsame rfl hnil) rfl
  | terminal n u hfind =>
    exact .one (.receive k n u hfind hfree) (held_update _ _ _) rfl

theorem failRequest_moves {caller : FailCaller} {status : Status} {n : ℕ} {rest responses : List ℕ}
    {reader : Option ℕ}
    (hpc : (s.threads k).pc = .failRequests caller status (n :: rest) responses reader) :
    s.Moves ((s.failRequest n status).setPc k (.failRequests caller status rest responses reader)) := by
  have hheld : s.books.held k = (n, none) :: rest.map (fun n => (n, none)) := by
    simp [books, hpc, Pc.held]
  rw [failRequest]
  split
  · exact .one (.put k n none _ _ hheld (Or.inl rfl)) (held_update _ _ _) rfl
  · next hnot =>
    refine .one (.skip k n none _ hheld (Or.inl ⟨rfl, ?_⟩)) (held_update _ _ _) rfl
    by_cases ha : (s.states n).accepted = true
    · exact Or.inr (by simpa [ha, books] using hnot)
    · exact Or.inl (by simpa [books] using ha)

theorem deliver_moves {n : ℕ} {terminal : Terminal} (hpc : (s.threads k).pc = .deliver n terminal) :
    s.Moves (s.readerDeliver k n terminal) := by
  have hheld : s.books.held k = [(n, some terminal)] := by simp [books, hpc, Pc.held]
  rw [readerDeliver]
  split
  · next hsome =>
    exact .one (.skip k n (some terminal) [] hheld (Or.inr hsome)) (held_update _ _ _) rfl
  · exact .one (.put k n (some terminal) [] terminal hheld (Or.inr rfl)) (held_update _ _ _) rfl

theorem forget_moves {n : ℕ} {requestId : ℤ} (hpc : (s.threads k).pc = .forget n requestId e) :
    s.Moves (s.forget k requestId e) := by
  have hfree : (s.threads k).pc.held = [] := by rw [hpc]; rfl
  refine .one (.withdraw requestId (s.forget k requestId e).withdrawn ?_)
    (held_update_same (hfree.trans rfl)) rfl
  intro m
  simp only [forget]
  cases hfind : s.requests.lookup requestId with
  | none => simp [books, hfind]
  | some j =>
    by_cases hm : m = j
    · subst hm
      simp [books, hfind]
    · simp [books, hfind, hm, Ne.symm hm]

/-- A reader that is not started yet is known to one thread. -/
structure Launches (s : GenerationClient) : Prop where
  unused : ∀ j, s.threadCount ≤ j → (s.threads j).pc = .finished .returned
  created : ∀ k reader, (s.threads k).pc.launching = some reader →
    reader < s.threadCount ∧ (s.threads reader).pc = .finished .returned
  unique : ∀ k j reader, (s.threads k).pc.launching = some reader →
    (s.threads j).pc.launching = some reader → k = j

theorem Effect.moves (hlaunch : s.Launches) (h : s.Effect k t) : s.Moves t := by
  cases h with
  | quiet t pc h =>
    refine .of_eq (books_eq_of_core h.core ?_)
    rw [h.threads]
    exact held_update_same (h.leads.held.trans h.leads.held'.symm)
  | register request c hpc hconnection hcheck =>
    refine .one (.register request.requestId s.config.maxDeltaEventsPerRequest
      (lookup_of_checkSubmit hcheck)) (held_update_same ?_) rfl
    rw [hpc]
    rfl
  | cancel requestId n c hpc hconnection hfind =>
    refine .one (.minor requestId n { s.states n with cancelSent := true } hfind
      ⟨rfl, rfl, rfl, rfl, rfl, rfl, rfl, Or.inl rfl⟩) (held_update_same ?_) rfl
    rw [hpc]
    rfl
  | probe c hpc | publish ack hpc | create hpc =>
    refine .of_eq (books_eq (held_update_same ?_) rfl)
    rw [hpc]
    rfl
  | sent caller message serial hpc =>
    refine .of_eq (books_eq (held_update_same ?_) rfl)
    rw [hpc]
    exact (held_onSent caller).symm
  | forget n requestId e hpc => exact forget_moves hpc
  | collect caller status hpc =>
    refine .one (.collect k status ?_) ?_ rfl
    · simp only [books, hpc]
      rfl
    · refine (held_update _ _ _).trans ?_
      simp [books, Books.setHeld, Pc.held, List.map_map, comp_def]
  | failRequest caller status n rest responses reader hpc => exact failRequest_moves hpc
  | dispatch m t next hpc hdispatch => exact dispatch_moves hpc (dispatch_dispatches hdispatch)
  | deliver n terminal hpc => exact deliver_moves hpc
  | launch reader hpc =>
    have hreader := (hlaunch.created k reader (by rw [hpc]; rfl)).2
    have hne : reader ≠ k := by
      rintro rfl
      cases hpc.symm.trans hreader
    refine .of_eq (books_eq ((held_update_same ?_).trans (held_update_same ?_)) rfl)
    · rw [update_of_ne hne, hreader]
      rfl
    · rw [hpc]
      rfl

/-! ## Threads -/

theorem live_of_threadStep {choice : Choice} (h : s.threadStep k choice = some t) :
    (s.threads k).pc.isFinished = false := by
  rw [threadStep] at h
  cases hpc : (s.threads k).pc with
  | finished =>
    rw [hpc] at h
    cases choice <;> cases h
  | _ => rfl

theorem Launches.lt (hs : s.Launches) (hlive : (s.threads k).pc.isFinished = false) :
    k < s.threadCount := by
  by_contra hge
  rw [hs.unused k (Nat.le_of_not_lt hge)] at hlive
  cases hlive

structure Alone (s : GenerationClient) (k : ℕ) (t : GenerationClient) : Prop where
  threadCount : s.threadCount ≤ t.threadCount
  others : ∀ j, j ≠ k → (t.threads j).pc = (s.threads j).pc ∨
    ((s.threads k).pc.launching = some j ∧ (t.threads j).pc = .readLoop)
  launching : ∀ reader, (t.threads k).pc.launching = some reader →
    reader = s.threadCount ∧ t.threadCount = s.threadCount + 1

theorem alone_of_update (hcount : t.threadCount = s.threadCount)
    (hthreads : t.threads = update s.threads k thread)
    (hlaunching : thread.pc.launching = none) : s.Alone k t := by
  refine ⟨hcount.ge, fun j hj => Or.inl ?_, fun reader h => ?_⟩
  · rw [hthreads, update_of_ne hj]
  · rw [hthreads, update_self, hlaunching] at h
    cases h

theorem Effect.alone (h : s.Effect k t) : s.Alone k t := by
  cases h with
  | quiet t pc h => exact alone_of_update (congrArg Core.threadCount h.core) h.threads h.leads.launching
  | register | cancel | probe | forget | collect | publish => exact alone_of_update rfl rfl rfl
  | sent caller => exact alone_of_update rfl rfl (by cases caller <;> rfl)
  | failRequest caller status n =>
    obtain ⟨hthreads, hcore⟩ := failRequest_frame s n status
    exact alone_of_update (congrArg Core.threadCount hcore) (by rw [setPc, hthreads]) rfl
  | dispatch m t next hpc hdispatch =>
    obtain ⟨hthreads, hcore, -⟩ := (dispatch_dispatches hdispatch).frame
    refine alone_of_update (congrArg Core.threadCount hcore) (show _ = update s.threads k
      { s.threads k with pc := onDispatched next } by simp only [setPc, hthreads]) ?_
    cases next <;> rfl
  | deliver =>
    rw [readerDeliver]
    split <;> exact alone_of_update rfl rfl rfl
  | create =>
    refine ⟨Nat.le_succ _, fun j hj => Or.inl ?_, fun reader h => ?_⟩
    · simp [createReader, setPc, update_of_ne hj]
    · simp only [createReader, setPc, update_self, Pc.launching, Option.some.injEq] at h
      exact ⟨h.symm, rfl⟩
  | launch reader hpc =>
    refine ⟨Nat.le_refl _, fun j hj => ?_, fun other h => ?_⟩
    · by_cases hr : j = reader
      · subst hr
        exact Or.inr ⟨by rw [hpc]; rfl, by simp [launchReader]⟩
      · exact Or.inl (by simp [launchReader, hr, hj])
    · by_cases hr : k = reader
      · subst hr
        simp [launchReader, Pc.launching] at h
      · simp [launchReader, hr, Pc.launching] at h

theorem Launches.step (hs : s.Launches) (hlive : (s.threads k).pc.isFinished = false)
    (h : s.Alone k t) : t.Launches := by
  have hk := hs.lt hlive
  -- a thread that is being launched was created before and runs nothing
  have hpc : ∀ j, j ≠ k → (t.threads j).pc.launching = (s.threads j).pc.launching := by
    intro j hj
    rcases h.others j hj with hsame | ⟨hlaunch, hloop⟩
    · rw [hsame]
    · rw [hloop, (hs.created k j hlaunch).2]
      rfl
  have hcreated : ∀ j reader, (s.threads j).pc.launching = some reader → j ≠ k →
      reader < t.threadCount ∧ (t.threads reader).pc = .finished .returned := by
    intro j reader hj hjk
    obtain ⟨hlt, hfinished⟩ := hs.created j reader hj
    have hne : reader ≠ k := by
      rintro rfl
      rw [hfinished] at hlive
      cases hlive
    refine ⟨hlt.trans_le h.threadCount, ?_⟩
    rcases h.others reader hne with hsame | ⟨hlaunch, -⟩
    · rw [hsame, hfinished]
    · exact absurd (hs.unique j k reader hj hlaunch) hjk
  refine ⟨fun j hj => ?_, fun j reader hj => ?_, fun i j reader hi hj => ?_⟩
  · have hge := h.threadCount.trans hj
    have hne : j ≠ k := (Nat.ne_of_lt (hk.trans_le hge)).symm
    rcases h.others j hne with hsame | ⟨hlaunch, -⟩
    · rw [hsame, hs.unused j hge]
    · exact absurd (hs.created k j hlaunch).1 (Nat.not_lt.mpr hge)
  · by_cases hjk : j = k
    · subst hjk
      obtain ⟨rfl, hcount⟩ := h.launching reader hj
      have hne : s.threadCount ≠ j := (Nat.ne_of_lt hk).symm
      refine ⟨by omega, ?_⟩
      rcases h.others s.threadCount hne with hsame | ⟨hlaunch, -⟩
      · rw [hsame, hs.unused _ (Nat.le_refl _)]
      · exact absurd (hs.created j _ hlaunch).1 (Nat.lt_irrefl _)
    · exact hcreated j reader (hpc j hjk ▸ hj) hjk
  · by_cases hik : i = k
    · by_cases hjk : j = k
      · rw [hik, hjk]
      · subst hik
        rw [hpc j hjk] at hj
        have hlt := (hs.created j reader hj).1
        rw [(h.launching reader hi).1] at hlt
        exact absurd hlt (Nat.lt_irrefl _)
    · by_cases hjk : j = k
      · subst hjk
        rw [hpc i hik] at hi
        have hlt := (hs.created i reader hi).1
        rw [(h.launching reader hj).1] at hlt
        exact absurd hlt (Nat.lt_irrefl _)
      · rw [hpc i hik] at hi
        rw [hpc j hjk] at hj
        exact hs.unique i j reader hi hj

/-! ## Calls and their requests -/

structure Ordinary (s : GenerationClient) (k : ℕ) (t : GenerationClient) : Prop where
  stateCount : t.stateCount = s.stateCount
  owner : t.owner = s.owner
  withdrawn : t.withdrawn = s.withdrawn
  submission : (t.threads k).pc.submission = none ∨
    (t.threads k).pc.submission = (s.threads k).pc.submission
  outcome : ∀ o, (t.threads k).pc.outcome? = some o →
    (s.threads k).pc.outcome? = some o ∨ s.Justified (s.threads k).pc o

theorem ordinary_of_update (hcount : t.stateCount = s.stateCount) (howner : t.owner = s.owner)
    (hwithdrawn : t.withdrawn = s.withdrawn) (hthread : t.threads k = thread)
    (hsubmission : thread.pc.submission = none ∨
      thread.pc.submission = (s.threads k).pc.submission) (houtcome : thread.pc.outcome? = none) :
    s.Ordinary k t := by
  refine ⟨hcount, howner, hwithdrawn, by rw [hthread]; exact hsubmission, fun o ho => ?_⟩
  rw [hthread, houtcome] at ho
  cases ho

theorem Effect.ordinary (h : s.Effect k t) :
    (∃ request c, (s.threads k).pc = .submit request ∧ t = s.register k c request) ∨
    (∃ n requestId e, (s.threads k).pc = .forget n requestId e ∧ t = s.forget k requestId e) ∨
    s.Ordinary k t := by
  cases h with
  | register request c hpc => exact Or.inl ⟨request, c, hpc, rfl⟩
  | forget n requestId e hpc => exact Or.inr (Or.inl ⟨n, requestId, e, hpc, rfl⟩)
  | quiet t pc h =>
    refine Or.inr (Or.inr ⟨congrArg Core.stateCount h.core, congrArg Core.owner h.core,
      congrArg Core.withdrawn h.core, ?_, fun o ho => ?_⟩)
    · rw [h.threads, update_self]
      exact h.leads.submission
    · rw [h.threads, update_self] at ho
      exact h.outcome o ho
  | cancel | probe | publish | create =>
    exact Or.inr (Or.inr (ordinary_of_update rfl rfl rfl (update_self _ _ _) (Or.inl rfl)
      rfl))
  | sent caller message serial hpc =>
    refine Or.inr (Or.inr ⟨rfl, rfl, rfl, ?_, fun o ho => ?_⟩)
    · simp only [setPc, update_self, hpc]
      exact submission_onSent caller
    · simp only [setPc, update_self] at ho
      cases caller with
      | cancel =>
        cases ho
        exact Or.inr trivial
      | _ => cases ho
  | collect caller status hpc =>
    exact Or.inr (Or.inr (ordinary_of_update rfl rfl rfl (update_self _ _ _)
      (Or.inr (by rw [hpc]; rfl)) rfl))
  | failRequest caller status n rest responses reader hpc =>
    have hcore := (failRequest_frame s n status).2
    exact Or.inr (Or.inr (ordinary_of_update (congrArg Core.stateCount hcore)
      (congrArg Core.owner hcore) (congrArg Core.withdrawn hcore) (update_self _ _ _)
      (Or.inr (by rw [hpc]; rfl)) rfl))
  | dispatch m t next hpc hdispatch =>
    have hcore := (dispatch_dispatches hdispatch).frame.2.1
    refine Or.inr (Or.inr (ordinary_of_update (congrArg Core.stateCount hcore)
      (congrArg Core.owner hcore) (congrArg Core.withdrawn hcore) (update_self _ _ _)
      (Or.inl ?_) ?_)) <;> cases next <;> rfl
  | deliver =>
    rw [readerDeliver]
    split <;> exact Or.inr (Or.inr (ordinary_of_update rfl rfl rfl (update_self _ _ _)
      (Or.inl rfl) rfl))
  | launch reader =>
    refine Or.inr (Or.inr ⟨rfl, rfl, rfl, Or.inl ?_, fun o ho => ?_⟩)
    · by_cases hr : k = reader
      · subst hr
        simp [launchReader, Pc.submission]
      · simp [launchReader, hr, Pc.submission]
    · by_cases hr : k = reader
      · subst hr
        simp [launchReader, Pc.outcome?] at ho
      · simp only [launchReader, update_of_ne hr, update_self, Pc.outcome?] at ho
        cases ho
        exact Or.inr trivial

/-- Why a call may have ended in this way. -/
def Recorded (dispatched : List ServerMessage) : Outcome → Prop
  | .handle _ requestId => ∃ r : ℕ, (r : ℤ) = requestId ∧ .accepted r ∈ dispatched
  | .raised (.requestRejected requestId status) =>
    ∃ r : ℕ, (r : ℤ) = requestId ∧ .rejected r status ∈ dispatched
  | _ => True

theorem Recorded.mono {dispatched dispatched' : List ServerMessage} {o : Outcome}
    (h : Recorded dispatched o) (hmore : dispatched ⊆ dispatched') : Recorded dispatched' o := by
  cases o with
  | handle =>
    obtain ⟨r, hr, hmem⟩ := h
    exact ⟨r, hr, hmore hmem⟩
  | raised e =>
    cases e with
    | requestRejected =>
      obtain ⟨r, hr, hmem⟩ := h
      exact ⟨r, hr, hmore hmem⟩
    | _ => trivial
  | _ => trivial

structure Inv (s : GenerationClient) : Prop where
  launches : s.Launches
  books : s.books.Inv
  submission : ∀ k n requestId, (s.threads k).pc.submission = some (n, requestId) →
    n < s.stateCount ∧ s.owner n = k ∧ (s.states n).requestId = requestId
  ids : ∀ n m, n < s.stateCount → m < s.stateCount →
    (s.states n).requestId = (s.states m).requestId → n = m
  withdrawn : ∀ n, s.withdrawn n = true →
    n < s.stateCount ∧ ∃ e, (s.threads (s.owner n)).pc = .finished (.raised e)
  outcome : ∀ k o, (s.threads k).pc.outcome? = some o → Recorded s.dispatched o

/-- A request id is registered at most once. -/
def DistinctIds (s : GenerationClient) : ClientAction → Prop
  | .thread k _ => ∀ request ∈ (s.threads k).pc.submitting,
      ∀ n < s.stateCount, (s.states n).requestId ≠ request.requestId
  | _ => True

instance (s : GenerationClient) : ∀ a, Decidable (s.DistinctIds a)
  | .thread k _ => inferInstanceAs (Decidable (∀ request ∈ (s.threads k).pc.submitting,
      ∀ n < s.stateCount, (s.states n).requestId ≠ request.requestId))
  | .submit _ | .cancel _ | .health | .close | .connect | .nextEvent _ => isTrue trivial

theorem recorded_of_justified (hs : s.Inv) {o : Outcome} (h : s.Justified (s.threads k).pc o) :
    Recorded s.dispatched o := by
  cases o with
  | handle n requestId =>
    obtain ⟨hsub, haccepted⟩ := h
    obtain ⟨r, hr, hmem⟩ := (hs.books.account n).accepted haccepted
    exact ⟨r, hr.trans (hs.submission k n requestId hsub).2.2, hmem⟩
  | raised e =>
    cases e with
    | requestRejected requestId status =>
      obtain ⟨n, hsub, hrejected⟩ := h
      obtain ⟨r, hr, hmem⟩ := (hs.books.account n).rejected status hrejected
      exact ⟨r, hr.trans (hs.submission k n requestId hsub).2.2, hmem⟩
    | _ => trivial
  | _ => trivial

theorem Alone.raised {j : ℕ} (h : s.Alone k t) (hs : s.Launches)
    (hlive : (s.threads k).pc.isFinished = false) (hj : (s.threads j).pc = .finished (.raised e)) :
    (t.threads j).pc = .finished (.raised e) := by
  have hne : j ≠ k := by
    rintro rfl
    rw [hj] at hlive
    cases hlive
  rcases h.others j hne with hsame | ⟨hlaunch, -⟩
  · rw [hsame, hj]
  · rw [(hs.created k j hlaunch).2] at hj
    cases hj

theorem Alone.other_submission {j : ℕ} (h : s.Alone k t) (hj : j ≠ k) {x : ℕ × ℤ}
    (hx : (t.threads j).pc.submission = some x) : (s.threads j).pc.submission = some x := by
  rcases h.others j hj with hsame | ⟨-, hloop⟩
  · rwa [hsame] at hx
  · rw [hloop] at hx
    cases hx

theorem Alone.other_outcome {j : ℕ} (h : s.Alone k t) (hj : j ≠ k) {o : Outcome}
    (ho : (t.threads j).pc.outcome? = some o) : (s.threads j).pc.outcome? = some o := by
  rcases h.others j hj with hsame | ⟨-, hloop⟩
  · rwa [hsame] at ho
  · rw [hloop] at ho
    cases ho

theorem ordinary_inv (hs : s.Inv) (hlive : (s.threads k).pc.isFinished = false)
    (halone : s.Alone k t) (hkeeps : s.books.Keeps t.books) (h : s.Ordinary k t) : t.Inv := by
  have hid : ∀ n, n < s.stateCount → (t.states n).requestId = (s.states n).requestId :=
    hkeeps.later.requestId
  refine ⟨hs.launches.step hlive halone, hkeeps.inv, ?_, ?_, ?_, ?_⟩
  · intro j n requestId hsub
    have hold : (s.threads j).pc.submission = some (n, requestId) := by
      by_cases hj : j = k
      · subst hj
        rcases h.submission with hnone | hsame
        · cases hnone.symm.trans hsub
        · rwa [hsame] at hsub
      · exact halone.other_submission hj hsub
    obtain ⟨hlt, howner, hreq⟩ := hs.submission j n requestId hold
    exact ⟨h.stateCount ▸ hlt, h.owner ▸ howner, (hid n hlt).trans hreq⟩
  · intro n m hn hm heq
    rw [h.stateCount] at hn hm
    rw [hid n hn, hid m hm] at heq
    exact hs.ids n m hn hm heq
  · intro n hn
    rw [h.withdrawn] at hn
    obtain ⟨hlt, e, he⟩ := hs.withdrawn n hn
    exact ⟨h.stateCount ▸ hlt, e, by rw [h.owner]; exact halone.raised hs.launches hlive he⟩
  · intro j o ho
    refine Recorded.mono ?_ hkeeps.later.dispatched
    by_cases hj : j = k
    · subst hj
      rcases h.outcome o ho with hold | hjust
      · exact hs.outcome j o hold
      · exact recorded_of_justified hs hjust
    · exact hs.outcome j o (halone.other_outcome hj ho)

theorem register_inv (hs : s.Inv) {request : GenerationRequest} {c : Connection}
    (hpc : (s.threads k).pc = .submit request)
    (hnew : ∀ n, n < s.stateCount → (s.states n).requestId ≠ request.requestId)
    (halone : s.Alone k (s.register k c request))
    (hkeeps : s.books.Keeps (s.register k c request).books) : (s.register k c request).Inv := by
  have hlive : (s.threads k).pc.isFinished = false := by rw [hpc]; rfl
  have hid : ∀ n, n < s.stateCount →
      ((s.register k c request).states n).requestId = (s.states n).requestId :=
    hkeeps.later.requestId
  have hself : ((s.register k c request).states s.stateCount).requestId = request.requestId := by
    simp [register]
  have howner : ∀ n, n < s.stateCount → (s.register k c request).owner n = s.owner n :=
    fun n hn => update_of_ne (Nat.ne_of_lt hn) _ _
  refine ⟨hs.launches.step hlive halone, hkeeps.inv, ?_, ?_, ?_, ?_⟩
  · intro j n requestId hsub
    by_cases hj : j = k
    · subst hj
      simp only [register, update_self, Pc.submission, Caller.submission, Option.some.injEq,
        Prod.mk.injEq] at hsub
      obtain ⟨rfl, rfl⟩ := hsub
      exact ⟨Nat.lt_succ_self _, update_self _ _ _, hself⟩
    · obtain ⟨hlt, hown, hreq⟩ := hs.submission j n requestId (halone.other_submission hj hsub)
      exact ⟨Nat.lt_succ_of_lt hlt, (howner n hlt).trans hown, (hid n hlt).trans hreq⟩
  · intro n m hn hm heq
    rcases Nat.lt_succ_iff_lt_or_eq.mp hn with hn | rfl
    · rcases Nat.lt_succ_iff_lt_or_eq.mp hm with hm | rfl
      · rw [hid n hn, hid m hm] at heq
        exact hs.ids n m hn hm heq
      · rw [hid n hn, hself] at heq
        exact absurd heq (hnew n hn)
    · rcases Nat.lt_succ_iff_lt_or_eq.mp hm with hm | rfl
      · rw [hid m hm, hself] at heq
        exact absurd heq.symm (hnew m hm)
      · rfl
  · intro n hn
    obtain ⟨hlt, e, he⟩ := hs.withdrawn n hn
    exact ⟨Nat.lt_succ_of_lt hlt, e, by
      rw [howner n hlt]
      exact halone.raised hs.launches hlive he⟩
  · intro j o ho
    by_cases hj : j = k
    · subst hj
      simp [register, Pc.outcome?] at ho
    · exact hs.outcome j o (halone.other_outcome hj ho)

theorem forget_inv (hs : s.Inv) {n : ℕ} {requestId : ℤ}
    (hpc : (s.threads k).pc = .forget n requestId e) (halone : s.Alone k (s.forget k requestId e))
    (hkeeps : s.books.Keeps (s.forget k requestId e).books) : (s.forget k requestId e).Inv := by
  have hlive : (s.threads k).pc.isFinished = false := by rw [hpc]; rfl
  obtain ⟨hlt, howner, hid⟩ := hs.submission k n requestId (by rw [hpc]; rfl)
  have hself : ((s.forget k requestId e).threads k).pc = .finished (.raised e) := by
    simp [forget, setPc]
  refine ⟨hs.launches.step hlive halone, hkeeps.inv, ?_, hs.ids, ?_, ?_⟩
  · intro j m i hsub
    by_cases hj : j = k
    · subst hj
      rw [hself] at hsub
      cases hsub
    · exact hs.submission j m i (halone.other_submission hj hsub)
  · intro m hm
    -- the entry of the request id is the request that the call submitted
    have hcases : s.withdrawn m = true ∨ s.requests.lookup requestId = some m := by
      simp only [forget] at hm
      cases hfind : s.requests.lookup requestId with
      | none =>
        rw [hfind] at hm
        exact Or.inl hm
      | some j =>
        rw [hfind] at hm
        by_cases hmj : m = j
        · exact Or.inr (by rw [hmj])
        · exact Or.inl (by simpa [hmj] using hm)
    rcases hcases with hm | hfind
    · obtain ⟨hltm, e', he'⟩ := hs.withdrawn m hm
      exact ⟨hltm, e', halone.raised hs.launches hlive he'⟩
    · obtain ⟨-, -, hidm, -, -, -, hltm⟩ := hs.books.of_lookup hfind
      obtain rfl : m = n := hs.ids m n hltm hlt (hidm.trans hid.symm)
      exact ⟨hlt, e, by rw [show (s.forget k requestId e).owner m = k from howner, hself]⟩
  · intro j o ho
    by_cases hj : j = k
    · subst hj
      rw [hself] at ho
      exact hs.outcome j o (by rw [hpc]; exact ho)
    · exact hs.outcome j o (halone.other_outcome hj ho)

/-! ## Runs -/

theorem start_other {pc : Pc} {j : ℕ} (hj : j ≠ s.threadCount) :
    (s.start pc).threads j = s.threads j :=
  update_of_ne hj _ _

theorem start_self {pc : Pc} : (s.start pc).threads s.threadCount = ⟨pc, none⟩ :=
  update_self _ _ _

theorem start_launches (hs : s.Launches) {pc : Pc} (hlaunch : pc.launching = none) :
    (s.start pc).Launches := by
  have hlaunching : ∀ j reader, ((s.start pc).threads j).pc.launching = some reader →
      (s.threads j).pc.launching = some reader := by
    intro j reader hj
    by_cases h : j = s.threadCount
    · rw [h, start_self, hlaunch] at hj
      cases hj
    · rwa [start_other h] at hj
  refine ⟨?_, ?_, ?_⟩
  · intro j hj
    rw [start_other (Nat.ne_of_gt hj)]
    exact hs.unused j (Nat.le_of_succ_le hj)
  · intro j reader hj
    obtain ⟨hlt, hr⟩ := hs.created j reader (hlaunching j reader hj)
    exact ⟨Nat.lt_succ_of_lt hlt, by rw [start_other (Nat.ne_of_lt hlt), hr]⟩
  · intro i j reader hi hj
    exact hs.unique i j reader (hlaunching i reader hi) (hlaunching j reader hj)

theorem start_inv (hs : s.Inv) {pc : Pc} (hheld : pc.held = []) (hsub : pc.submission = none)
    (hlaunch : pc.launching = none) (hout : pc.outcome? = none) :
    (s.start pc).Inv ∧ s.books.Later (s.start pc).books := by
  have hfinished := hs.launches.unused s.threadCount (Nat.le_refl _)
  have hbooks : (s.start pc).books = s.books := by
    refine books_eq (held_update_same ?_) rfl
    rw [hfinished, hheld]
    rfl
  refine ⟨⟨start_launches hs.launches hlaunch, hbooks ▸ hs.books, ?_, hs.ids, ?_, ?_⟩,
    hbooks ▸ .refl _⟩
  · intro j n requestId hj
    by_cases h : j = s.threadCount
    · rw [h, start_self, hsub] at hj
      cases hj
    · exact hs.submission j n requestId (by rwa [start_other h] at hj)
  · intro n hn
    obtain ⟨hlt, e, he⟩ := hs.withdrawn n hn
    refine ⟨hlt, e, ?_⟩
    have hne : s.owner n ≠ s.threadCount := by
      intro h
      rw [h, hfinished] at he
      cases he
    rw [show (s.start pc).owner = s.owner from rfl, start_other hne, he]
  · intro j o ho
    by_cases h : j = s.threadCount
    · rw [h, start_self, hout] at ho
      cases ho
    · exact hs.outcome j o (by rwa [start_other h] at ho)

theorem nextEvent_inv (hs : s.Inv) {n : ℕ} (h : s.nextEvent n = some t) :
    t.Inv ∧ s.books.Later t.books := by
  rw [nextEvent] at h
  split at h
  · cases h
  · next events result hget =>
    cases h
    have hkeeps := Books.keeps_consume hs.books (n := n) hget
    have hid : ∀ m, (update s.states n { s.states n with events := events } m).requestId =
        (s.states m).requestId := by
      intro m
      by_cases hm : m = n
      · subst hm
        simp
      · simp [hm]
    have hlaunches := hs.launches
    refine ⟨⟨{ hlaunches with }, hkeeps.inv, ?_, ?_,
      hs.withdrawn, hs.outcome⟩, hkeeps.later⟩
    · intro j m requestId hj
      obtain ⟨hlt, howner, hreq⟩ := hs.submission j m requestId hj
      exact ⟨hlt, howner, (hid m).trans hreq⟩
    · intro i j hi hj heq
      exact hs.ids i j hi hj ((hid i).symm.trans (heq.trans (hid j)))

theorem step_inv (hs : s.Inv) {a : ClientAction} (hids : s.DistinctIds a) (h : s.step a = some t) :
    t.Inv ∧ s.books.Later t.books := by
  cases a with
  | submit | cancel | health | close | connect =>
    cases h; exact start_inv hs rfl rfl rfl rfl
  | nextEvent => exact nextEvent_inv hs h
  | thread =>
    have heffect := threadStep_effect h
    have hlive := live_of_threadStep h
    have hkeeps := Books.moves_keeps hs.books (heffect.moves hs.launches)
    refine ⟨?_, hkeeps.later⟩
    rcases heffect.ordinary with ⟨request, c, hpc, rfl⟩ | ⟨n, requestId, e, hpc, rfl⟩ | hordinary
    · have hnew : ∀ n, n < s.stateCount → (s.states n).requestId ≠ request.requestId := by
        refine hids request ?_
        rw [hpc]
        rfl
      exact register_inv hs hpc hnew heffect.alone hkeeps
    · exact forget_inv hs hpc heffect.alone hkeeps
    · exact ordinary_inv hs hlive heffect.alone hkeeps hordinary

theorem run_inv (hs : s.Inv) {run : List ClientAction} (hids : Along step DistinctIds s run)
    (hrun : exec step s run = some t) : t.Inv ∧ s.books.Later t.books :=
  exec_invariant (I := fun u => u.Inv ∧ s.books.Later u.books)
    (fun _ _ _ hu hg h => ⟨(step_inv hu.1 hg h).1, hu.2.trans (step_inv hu.1 hg h).2⟩)
    ⟨hs, .refl _⟩ hids hrun

def initial (config : GenerationClientConfig) : GenerationClient := { config }

theorem initial_inv (config : GenerationClientConfig) : (initial config).Inv := by
  have hbooks : (initial config).books.Inv := by
    have htable : ∀ n i, ¬(initial config).books.InTable n i := by
      intro n i hi
      simp [Books.InTable, books, initial] at hi
    have hhand : ∀ n k what, ¬(initial config).books.InHand n k what := by
      intro n k what h
      simp [Books.InHand, books, initial, Pc.held] at h
    refine ⟨fun n => ?_, fun n => ?_, fun n _ => ?_, fun k => List.nodup_nil⟩
    · exact .gone (htable n) (hhand n) rfl rfl (fun h => by cases h)
    · exact ⟨rfl, Or.inl ⟨rfl, [], rfl⟩, fun h => (by cases h), fun _ h => (by cases h)⟩
    · exact ⟨htable n, hhand n, rfl, rfl, rfl, rfl, rfl, rfl⟩
  refine ⟨⟨fun _ _ => rfl, ?_, ?_⟩, hbooks, ?_, ?_, ?_, ?_⟩
  · intro k reader h
    cases h
  · intro k j reader h
    cases h
  · intro k n requestId h
    cases h
  · intro n m hn
    exact absurd hn (Nat.not_lt_zero n)
  · intro n h
    cases h
  · intro k o ho
    cases ho
    trivial

/-! ## The contract -/

end GenerationClient

def Pc.inFail : Pc → Bool
  | .fail _ _ | .failRequests _ _ _ _ _ | .failProbes _ _ _ _ | .failJoin _ _ _ | .failReader _ _ _
  | .failForget _ _ _ => true
  | _ => false

def Pc.inDispatch : Pc → Bool
  | .dispatch _ | .deliver _ _ | .encode .reader _ | .acquire .reader _ | .capture .reader _
  | .sending .reader _ _ => true
  | _ => false

theorem Pc.inFail_or_inDispatch {pc : Pc} (h : pc.held ≠ []) :
    pc.inFail = true ∨ pc.inDispatch = true := by
  cases pc with
  | deliver => exact Or.inr rfl
  | failRequests => exact Or.inl rfl
  | _ => exact absurd rfl h

namespace GenerationClient
variable {s t : GenerationClient} {k : ℕ}

/-- At some point of a run the thread is in no call of `_fail` or `_dispatch`. -/
def Returns (s : GenerationClient) (run : List ClientAction) (k : ℕ) : Prop :=
  ∃ first rest u, run = first ++ rest ∧ exec step s first = some u ∧
    (u.threads k).pc.inFail = false ∧ (u.threads k).pc.inDispatch = false

/-- What a handle has yielded: deltas, at most one terminal, and then only the end. -/
def InOrder (results : List Yield) : Prop :=
  ∃ (ds : List TokenDelta) (ts : List Terminal) (m : ℕ),
    results = ds.map .delta ++ ts.map .terminal ++ List.replicate m .stopIteration ∧
    ts.length ≤ 1 ∧ (ts = [] → m = 0)

theorem inOrder_of_yields {events : EventBuffer} {results : List Yield}
    (h : Books.Yields events results) : InOrder results := by
  rcases h with ⟨-, ds, rfl⟩ | ⟨-, -, ds, t, m, -, rfl⟩
  · exact ⟨ds, [], 0, by simp, by simp, fun _ => rfl⟩
  · exact ⟨ds, [t], m, by simp, by simp, nofun⟩

theorem collect_settles (hs : s.Inv) {caller : FailCaller} {status : Status}
    (hpc : (s.threads k).pc = .fail caller status) {run : List ClientAction}
    (hids : Along step DistinctIds (s.collect k caller status) run)
    (hrun : exec step (s.collect k caller status) run = some t)
    (hreturns : ∀ j, ((s.collect k caller status).threads j).pc.inFail = true ∨
      ((s.collect k caller status).threads j).pc.inDispatch = true →
      Returns (s.collect k caller status) run j) {n : ℕ} (haccepted : (s.states n).accepted = true) :
    (t.states n).events.terminal.isSome = true ∨ t.withdrawn n = true := by
  set u := s.collect k caller status with hu
  have hstep : s.step (.thread k .go) = some u := by
    simp only [step, threadStep, hpc]
    rfl
  have hguard : s.DistinctIds (.thread k .go) := by simp [DistinctIds, hpc, Pc.submitting]
  obtain ⟨huinv, hlater⟩ := step_inv hs hguard hstep
  obtain ⟨htinv, htlater⟩ := run_inv huinv hids hrun
  have hn : n < s.stateCount := by
    by_contra hge
    have h := (hs.books.unused n (Nat.le_of_not_lt hge)).accepted
    rw [show s.books.states = s.states from rfl, haccepted] at h
    cases h
  have hnu : n < u.stateCount := hn.trans_le hlater.count
  have hout : ∀ i, ¬u.books.InTable n i := by
    intro i hi
    simp [Books.InTable, books, hu, collect] at hi
  rcases htlater.terminal_of_accepted htinv.books hnu (hlater.accepted n hn haccepted) hout with
    h | h | ⟨j, what, hju, hjt⟩
  · exact Or.inl h
  · exact Or.inr h
  · -- the hand that still has the request has returned from the call in which it took it
    have hheld : (u.threads j).pc.held ≠ [] := List.ne_nil_of_mem hju
    obtain ⟨first, rest, v, rfl, hfirst, hfail, hdispatch⟩ :=
      hreturns j (Pc.inFail_or_inDispatch hheld)
    obtain ⟨hids₁, hids₂⟩ := hids.append hfirst
    obtain ⟨hvinv, hvlater⟩ := run_inv huinv hids₁ hfirst
    obtain ⟨v', hv', hrest⟩ := exec_append.mp hrun
    obtain rfl : v = v' := Option.some.inj (hfirst.symm.trans hv')
    obtain ⟨-, hrestlater⟩ := run_inv hvinv hids₂ hrest
    have hjv : (n, what) ∈ (v.threads j).pc.held := by
      refine hrestlater.held j n what (hnu.trans_le hvlater.count) ?_ hjt
      intro i hi
      exact hout i (hvlater.entry i n hnu hi)
    rcases Pc.inFail_or_inDispatch (List.ne_nil_of_mem hjv) with h | h
    · cases hfail.symm.trans h
    · cases hdispatch.symm.trans h

/-- The contract of a handle, in every run with distinct request ids: its events come in
order, the terminal of the worker is kept, a call ends as the worker answered, and a
request that was accepted before a failure has a terminal once every failure and every
dispatch in progress has returned, unless its own submission has withdrawn it and raised. -/
theorem handle_contract (config : GenerationClientConfig) (run : List ClientAction)
    (s : GenerationClient) (hids : Along step DistinctIds (initial config) run)
    (hrun : exec step (initial config) run = some s) :
    (∀ n, InOrder (s.yielded n)) ∧
    (∀ n t, s.received n = some t → (s.states n).events.terminal = some t ∨
      (s.states n).events.terminal = none ∧ ∃ k, (s.threads k).pc = .deliver n t) ∧
    (∀ k n requestId, (s.threads k).pc = .finished (.handle n requestId) →
      ∃ r : ℕ, (r : ℤ) = requestId ∧ .accepted r ∈ s.dispatched) ∧
    (∀ k requestId status, (s.threads k).pc = .finished (.raised (.requestRejected requestId status)) →
      ∃ r : ℕ, (r : ℤ) = requestId ∧ .rejected r status ∈ s.dispatched) ∧
    ∀ k caller status more t, (s.threads k).pc = .fail caller status →
      Along step DistinctIds (s.collect k caller status) more →
      exec step (s.collect k caller status) more = some t →
      (∀ j, ((s.collect k caller status).threads j).pc.inFail = true ∨
        ((s.collect k caller status).threads j).pc.inDispatch = true →
        Returns (s.collect k caller status) more j) →
      ∀ n, (s.states n).accepted = true →
        (t.states n).events.terminal.isSome = true ∨
        t.withdrawn n = true ∧ (∃ e, (t.threads (t.owner n)).pc = .finished (.raised e)) ∧
          ∀ j requestId, (t.threads j).pc ≠ .finished (.handle n requestId) := by
  have hs : s.Inv := (run_inv (initial_inv config) hids hrun).1
  refine ⟨fun n => inOrder_of_yields (hs.books.account n).yields, ?_, ?_, ?_, ?_⟩
  · intro n t ht
    cases hs.books.phase n with
    | listed _ _ _ hreceived => exact absurd (ht.symm.trans hreceived) (by simp)
    | taken k what _ hhand hterminal hreceived =>
      obtain rfl : what = some t := hreceived.symm.trans ht
      refine Or.inr ⟨hterminal, k, ?_⟩
      have hmem : (n, some t) ∈ (s.threads k).pc.held := (hhand k (some t)).mpr ⟨rfl, rfl⟩
      cases hpc : (s.threads k).pc with
      | deliver m u =>
        rw [hpc] at hmem
        obtain ⟨rfl, hu⟩ := Prod.mk.inj (List.mem_singleton.mp hmem)
        rw [Option.some.inj hu]
      | failRequests caller status requests responses reader =>
        rw [hpc] at hmem
        simp [Pc.held] at hmem
      | _ =>
        rw [hpc] at hmem
        cases hmem
    | settled u _ _ hterminal hreceived =>
      rcases hreceived with h | h
      · exact absurd (ht.symm.trans h) (by simp)
      · exact Or.inl (hterminal.trans (h.symm.trans ht))
    | gone _ _ _ hreceived => exact absurd (ht.symm.trans hreceived) (by simp)
  · intro k n requestId hpc
    exact hs.outcome k (.handle n requestId) (by rw [hpc]; rfl)
  · intro k requestId status hpc
    exact hs.outcome k (.raised (.requestRejected requestId status)) (by rw [hpc]; rfl)
  · intro k caller status more t hpc hids' hrun' hreturns n haccepted
    have hstep : s.step (.thread k .go) = some (s.collect k caller status) := by
      simp only [step, threadStep, hpc]
      rfl
    have hguard : s.DistinctIds (.thread k .go) := by simp [DistinctIds, hpc, Pc.submitting]
    have ht : t.Inv := (run_inv (step_inv hs hguard hstep).1 hids' hrun').1
    rcases collect_settles hs hpc hids' hrun' hreturns haccepted with h | h
    · exact Or.inl h
    · obtain ⟨-, e, he⟩ := ht.withdrawn n h
      refine Or.inr ⟨h, ⟨e, he⟩, fun j requestId hj => ?_⟩
      have howner := (ht.submission j n requestId (by rw [hj]; rfl)).2.1
      rw [howner, hj] at he
      cases he

def smallAck : HelloAck where
  workerEpoch := 1
  manifest :=
    { modelId := utf8 "model"
      revision := utf8 "1"
      tokenizerFingerprint := utf8 "t"
      chatTemplateFingerprint := utf8 "c"
      engineFingerprint := utf8 "e"
      maxInputTokens := 8
      maxOutputTokens := 8
      maxSequenceTokens := 8
      precision := utf8 "fp16" }
  limits := { maxActiveRequests := 1 }

def smallClient : GenerationClient := initial { expectedManifest := smallAck.manifest }

def connectRun : List ClientAction :=
  [.connect, .thread 0 .go, .thread 0 (.message (.helloAck smallAck)), .thread 0 .go, .thread 0 .go]

def acceptRun : List ClientAction :=
  connectRun ++ [.submit { requestId := 7, inputTokenIds := [1], maxNewTokens := 4 },
    .thread 2 .go, .thread 2 .go, .thread 2 .go, .thread 2 .go, .thread 2 .go,
    .thread 1 .go, .thread 1 (.message (.accepted 7)), .thread 1 .go, .thread 2 .go]

/-- Thread 3 is sending a Cancel when the reader fails and takes the request. The send
fails as well. -/
def overlapRun : List ClientAction :=
  acceptRun ++ [.cancel 7, .thread 3 .go, .thread 3 .go, .thread 3 .go, .thread 3 .go,
    .thread 1 .go, .thread 1 (.raised (.osError [])), .thread 1 .go,
    .thread 3 (.raised (.osError []))]

def overlapRest : List ClientAction := [.thread 3 .go, .thread 3 .go, .thread 3 .go]

/-- The call of `_fail` in thread 3 has returned, no dispatch was in progress, and the
request that was accepted before has no terminal, for the call of the reader still has it. -/
theorem overlapping_failure_returns_first :
    ∃ s caller status t, exec step smallClient overlapRun = some s ∧
      (s.threads 3).pc = .fail caller status ∧
      exec step (s.collect 3 caller status) overlapRest = some t ∧
      (∀ j, j < s.threadCount → ((s.collect 3 caller status).threads j).pc.inDispatch = false) ∧
      (t.threads 3).pc.isFinished = true ∧ (s.states 0).accepted = true ∧
      (t.states 0).events.terminal = none := by
  refine ⟨_, .send .cancel, writeFailure [], _, rfl, rfl, rfl, ?_, rfl, rfl, rfl⟩
  decide

/-- The worker accepts the request before its Submit, which is too long for a frame. -/
def withdrawRun : List ClientAction :=
  [.connect, .thread 0 .go,
    .thread 0 (.message (.helloAck { smallAck with
      limits := { smallAck.limits with maxFramePayloadBytes := 128 } })),
    .thread 0 .go, .thread 0 .go,
    .submit { requestId := 7, inputTokenIds := [1], maxNewTokens := 4 },
    .thread 2 .go, .thread 2 .go, .thread 2 .go, .thread 2 .go,
    .thread 1 .go, .thread 1 (.message (.accepted 7)), .thread 1 .go,
    .thread 2 (.raised (.python (.protocolError (utf8 "frame payload exceeds max_payload_bytes")))),
    .thread 2 .go, .close, .thread 3 .go]

def closedStatus : Status := unavailable (utf8 "GenerationClient closed")

def closeRest : List ClientAction :=
  [.thread 3 .go, .thread 3 .go, .thread 1 .go, .thread 3 .go, .thread 3 .go, .thread 3 .go]

/-- A request that its own submission has withdrawn gets no terminal from a failure. -/
theorem withdrawn_request_unsettled :
    ∃ s t, exec step smallClient withdrawRun = some s ∧
      (s.threads 3).pc = .fail .close closedStatus ∧
      exec step (s.collect 3 .close closedStatus) closeRest = some t ∧
      (∀ j, j < s.threadCount → (t.threads j).pc.isFinished = true) ∧
      (s.states 0).accepted = true ∧ (t.states 0).events.terminal = none := by
  refine ⟨_, _, rfl, rfl, rfl, ?_, rfl, rfl⟩
  decide

def closeRun : List ClientAction := acceptRun ++ [.close, .thread 3 .go]

theorem handle_contract_closeRun :
    ∃ s t, exec step smallClient closeRun = some s ∧
      (s.threads 3).pc = .fail .close closedStatus ∧ (s.states 0).accepted = true ∧
      (∃ r : ℕ, (r : ℤ) = 7 ∧ .accepted r ∈ s.dispatched) ∧
      exec step (s.collect 3 .close closedStatus) (.thread 3 .go :: closeRest) = some t ∧
      (t.states 0).events.terminal.isSome = true := by
  obtain ⟨-, -, hhandle, -, hsettled⟩ :=
    handle_contract { expectedManifest := smallAck.manifest } closeRun _ (by decide) rfl
  refine ⟨_, _, rfl, rfl, rfl, hhandle 2 0 7 rfl, rfl, ?_⟩
  refine (hsettled 3 .close closedStatus (.thread 3 .go :: closeRest) _ rfl (by decide) rfl
    (fun j hj => ?_) 0 rfl).resolve_right (fun h => ?_)
  · obtain rfl : j = 3 := by
      match j with
      | 0 | 1 | 2 => rcases hj with hj | hj <;> cases hj
      | 3 => rfl
      | _ + 4 => rcases hj with hj | hj <;> cases hj
    exact ⟨.thread 3 .go :: closeRest, [], _, rfl, rfl, rfl, rfl⟩
  · cases h.1

end GenerationClient

end KimServing.Client

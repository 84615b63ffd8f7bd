import KimServing.Client.GenerationClient
import KimServing.Library.Table

/-! # What one step of a client thread can do

Most steps only move a program counter. The others are the few on which every
statement about the client rests: a request is registered, marked, sent or
removed, a message is dispatched, a terminal is put, the table is taken by a
failure, a connection is published, a reader is launched.
-/
namespace KimServing.Client
open Library Function

def Caller.submission : Caller → Option (ℕ × ℤ)
  | .submit n requestId => some (n, requestId)
  | _ => none

def FailCaller.pending : FailCaller → Option (ℕ × ℤ)
  | .send caller => caller.submission
  | _ => none

def FailCaller.submission : FailCaller → Option (ℕ × ℤ)
  | .send caller => caller.submission
  | .acceptance n requestId => some (n, requestId)
  | _ => none

def Caller.probe : Caller → Option ℕ
  | .health probeId _ => some probeId
  | _ => none

def FailCaller.probe : FailCaller → Option ℕ
  | .send caller => caller.probe
  | _ => none

open GenerationClient (statsOutcome)

namespace Pc

def submission : Pc → Option (ℕ × ℤ)
  | .encode caller _ | .acquire caller _ | .capture caller _
  | .sending caller _ _ => caller.submission
  | .forget n requestId _ | .waitAccepted n requestId => some (n, requestId)
  | .fail caller _ | .failRequests caller _ _ _ _ | .failProbes caller _ _ _ | .failJoin caller _ _
  | .failReader caller _ _ | .failForget caller _ _ => caller.submission
  | .finished (.handle n requestId) => some (n, requestId)
  | _ => none

def pending : Pc → Option (ℕ × ℤ)
  | .encode caller _ | .acquire caller _ | .capture caller _
  | .sending caller _ _ => caller.submission
  | .forget n requestId _ => some (n, requestId)
  | .fail caller _ | .failRequests caller _ _ _ _ | .failProbes caller _ _ _ | .failJoin caller _ _
  | .failReader caller _ _ | .failForget caller _ _ => caller.pending
  | _ => none

theorem submission_of_pending {pc : Pc} {x : ℕ × ℤ} (h : pc.pending = some x) :
    pc.submission = some x := by
  have hcaller : ∀ {caller : FailCaller}, caller.pending = some x → caller.submission = some x := by
    intro caller h
    cases caller with
    | send => exact h
    | _ => cases h
  cases pc with
  | encode | acquire | capture | sending | forget => exact h
  | fail | failRequests | failProbes | failJoin | failReader | failForget => exact hcaller h
  | _ => cases h

def unsent : Pc → Option (Caller × ClientMessage)
  | .encode caller message | .acquire caller message | .capture caller message
  | .sending caller message _ => some (caller, message)
  | _ => none

/-- The requests that a thread has taken from the table and still has to look at, with
the terminal of the worker if there is one. -/
def held : Pc → List (ℕ × Option Terminal)
  | .deliver n terminal => [(n, some terminal)]
  | .failRequests _ _ requests _ _ => requests.map (fun n => (n, none))
  | _ => []

/-- The probe that a call will remove from the table. -/
def probe : Pc → Option ℕ
  | .encode caller _ | .acquire caller _ | .capture caller _ | .sending caller _ _ => caller.probe
  | .waitStats probeId _ | .popProbe probeId _ => some probeId
  | .fail caller _ | .failRequests caller _ _ _ _ | .failProbes caller _ _ _ | .failJoin caller _ _
  | .failReader caller _ _ | .failForget caller _ _ => caller.probe
  | _ => none

/-- The responses that a failure has taken from the table and still has to answer. -/
def answering : Pc → List ℕ
  | .failRequests _ _ _ responses _ | .failProbes _ _ responses _ => responses
  | _ => []

def outcome? : Pc → Option Outcome
  | .forget _ _ e => some (.raised e)
  | .popProbe _ result => some (statsOutcome result)
  | .finished outcome => some outcome
  | _ => none

def submitting : Pc → Option GenerationRequest
  | .submit request => some request
  | _ => none

def launching : Pc → Option ℕ
  | .launchReader reader => some reader
  | _ => none

def reading : Pc → Bool
  | .startReader | .launchReader _ | .readLoop | .receiving _ | .dispatch _ | .deliver _ _
  | .encode .reader _ | .acquire .reader _ | .capture .reader _ | .sending .reader _ _ => true
  | _ => false

structure Leads (pc pc' : Pc) : Prop where
  held : pc.held = []
  held' : pc'.held = []
  submission : pc'.submission = none ∨ pc'.submission = pc.submission
  pending : pc'.pending = none ∨ pc'.pending = pc.pending
  unsent : pc'.unsent = none ∨ pc'.unsent = pc.unsent
  launching : pc'.launching = none
  reading : pc'.reading = true → pc.reading = true
  dispatching : ∀ m, pc' = .dispatch m → ∃ c, pc = .receiving c
  probe : pc'.probe = none ∨ pc'.probe = pc.probe
  answering : pc'.answering ⊆ pc.answering

variable {pc pc' : Pc}

theorem Leads.same (hheld : pc.held = []) (hheld' : pc'.held = [])
    (hsubmission : pc'.submission = pc.submission) (hpending : pc'.pending = pc.pending)
    (hunsent : pc'.unsent = none ∨ pc'.unsent = pc.unsent) (hlaunching : pc'.launching = none)
    (hreading : pc'.reading = true → pc.reading = true) (hdispatching : ∀ m, pc' ≠ .dispatch m)
    (hprobe : pc'.probe = pc.probe) (hanswering : pc'.answering ⊆ pc.answering) : Leads pc pc' :=
  ⟨hheld, hheld', Or.inr hsubmission, Or.inr hpending, hunsent, hlaunching, hreading,
    fun m hm => absurd hm (hdispatching m), Or.inr hprobe, hanswering⟩

theorem not_dispatch_of_not_reading (h : pc.reading = false) (m : ServerMessage) :
    pc ≠ .dispatch m := by
  rintro rfl
  cases h

theorem Leads.rest (hheld : pc.held = []) (hheld' : pc'.held = [])
    (hsubmission : pc'.submission = none) (hunsent : pc'.unsent = none)
    (hlaunching : pc'.launching = none) (hreading : pc'.reading = false)
    (hprobe : pc'.probe = none ∨ pc'.probe = pc.probe) (hanswering : pc'.answering = []) :
    Leads pc pc' := by
  refine ⟨hheld, hheld', Or.inl hsubmission, Or.inl ?_, Or.inl hunsent, hlaunching, fun h => ?_,
    fun m hm => absurd hm (not_dispatch_of_not_reading hreading m), hprobe, ?_⟩
  · refine Option.eq_none_iff_forall_ne_some.mpr fun x hx => ?_
    cases hsubmission.symm.trans (submission_of_pending hx)
  · cases hreading.symm.trans h
  · rw [hanswering]
    exact List.nil_subset _

end Pc

structure Core where
  connection : Option Connection
  connections : ℕ
  threadCount : ℕ
  requests : AList (fun _ : ℤ => ℕ)
  nextProbeId : ℕ
  responseCount : ℕ
  states : ℕ → RequestState
  stateCount : ℕ
  stateOrigin : ℕ → ℕ
  responseOrigin : ℕ → ℕ
  owner : ℕ → ℕ
  submitted : ℕ → Bool
  received : ℕ → Option Terminal
  withdrawn : ℕ → Bool
  yielded : ℕ → List Yield
  sent : List (ℕ × ClientMessage)
  dispatched : List ServerMessage

namespace GenerationClient

variable {e : ClientError} {pc : Pc}

variable {m : ServerMessage}

def core (s : GenerationClient) : Core where
  connection := s.connection
  connections := s.connections
  threadCount := s.threadCount
  requests := s.requests
  nextProbeId := s.nextProbeId
  responseCount := s.responseCount
  states := s.states
  stateCount := s.stateCount
  stateOrigin := s.stateOrigin
  responseOrigin := s.responseOrigin
  owner := s.owner
  submitted := s.submitted
  received := s.received
  withdrawn := s.withdrawn
  yielded := s.yielded
  sent := s.sent
  dispatched := s.dispatched

/-- Why a call may end in this way, for a thread that stands at the given place. -/
def Justified (s : GenerationClient) (pc : Pc) : Outcome → Prop
  | .handle n requestId => pc.submission = some (n, requestId) ∧ (s.states n).accepted = true
  | .raised (.requestRejected requestId status) =>
    ∃ n, pc.submission = some (n, requestId) ∧ (s.states n).rejected = some status
  | _ => True

def Ends (s : GenerationClient) (pc pc' : Pc) : Prop :=
  ∀ o, pc'.outcome? = some o → pc.outcome? = some o ∨ s.Justified pc o

def KeepsProbes (s t : GenerationClient) : Prop :=
  ∀ i q, t.probes.lookup i = some q → s.probes.lookup i = some q

structure Quiet (s : GenerationClient) (k : ℕ) (t : GenerationClient) (pc : Pc) : Prop where
  core : t.core = s.core
  threads : t.threads = update s.threads k { s.threads k with pc := pc }
  leads : (s.threads k).pc.Leads pc
  outcome : s.Ends (s.threads k).pc pc
  probes : s.KeepsProbes t

inductive Effect (s : GenerationClient) (k : ℕ) : GenerationClient → Prop where
  | quiet (t : GenerationClient) (pc : Pc) (h : s.Quiet k t pc) : s.Effect k t
  | register (request : GenerationRequest) (c : Connection)
      (hpc : (s.threads k).pc = .submit request) (hconnection : s.connection = some c)
      (hcheck : s.checkSubmit c request = .ok ()) : s.Effect k (s.register k c request)
  | cancel (requestId : ℤ) (n : ℕ) (c : Connection) (hpc : (s.threads k).pc = .cancel requestId)
      (hconnection : s.connection = some c) (hfind : s.requests.lookup requestId = some n) :
      s.Effect k { s.updateState n (fun r => { r with cancelSent := true }) with
        threads := update s.threads k
          ⟨.encode .cancel (.cancel requestId c.helloAck.workerEpoch), some c.serial⟩ }
  | probe (c : Connection) (hpc : (s.threads k).pc = .health)
      (hconnection : s.connection = some c) : s.Effect k (s.registerProbe k c)
  | sent (caller : Caller) (message : ClientMessage) (serial : ℕ)
      (hpc : (s.threads k).pc = .sending caller message serial) :
      s.Effect k { s.setPc k (onSent caller) with
        sendLock := none
        submitted := noteSent s.submitted caller
        sent := s.sent ++ [(serial, message)] }
  | forget (n : ℕ) (requestId : ℤ) (e : ClientError)
      (hpc : (s.threads k).pc = .forget n requestId e) : s.Effect k (s.forget k requestId e)
  | collect (caller : FailCaller) (status : Status) (hpc : (s.threads k).pc = .fail caller status) :
      s.Effect k (s.collect k caller status)
  | failRequest (caller : FailCaller) (status : Status) (n : ℕ) (rest responses : List ℕ)
      (reader : Option ℕ)
      (hpc : (s.threads k).pc = .failRequests caller status (n :: rest) responses reader) :
      s.Effect k ((s.failRequest n status).setPc k
        (.failRequests caller status rest responses reader))
  | dispatch (m : ServerMessage) (t : GenerationClient) (next : Dispatched)
      (hpc : (s.threads k).pc = .dispatch m) (hdispatch : s.dispatch m = .ok (t, next)) :
      s.Effect k { t.setPc k (onDispatched next) with dispatched := t.dispatched ++ [m] }
  | deliver (n : ℕ) (t : Terminal) (hpc : (s.threads k).pc = .deliver n t) :
      s.Effect k (s.readerDeliver k n t)
  | publish (ack : HelloAck) (hpc : (s.threads k).pc = .handshake) : s.Effect k (s.publish k ack)
  | create (hpc : (s.threads k).pc = .startReader) : s.Effect k (s.createReader k)
  | launch (reader : ℕ) (hpc : (s.threads k).pc = .launchReader reader) :
      s.Effect k (s.launchReader k reader)

variable {s t : GenerationClient} {k : ℕ}

/-! ## Program counters that hold nothing -/

@[simp] theorem held_onSent (caller : Caller) : (onSent caller).held = [] := by
  cases caller <;> rfl

@[simp] theorem unsent_onSent (caller : Caller) : (onSent caller).unsent = none := by
  cases caller <;> rfl

theorem submission_onSent (caller : Caller) :
    (onSent caller).submission = none ∨ (onSent caller).submission = caller.submission := by
  cases caller <;> simp [onSent, Pc.submission, Caller.submission]

def IsLocal (e : ClientError) : Prop := ∀ requestId status, e ≠ .requestRejected requestId status

theorem isLocal_notConnected : IsLocal notConnected := fun _ _ h => by cases h

theorem isLocal_workerUnavailable (text : List UInt8) : IsLocal (.workerUnavailable text) :=
  fun _ _ h => by cases h

theorem isLocal_call (e : CallError) : IsLocal (.call e) := fun _ _ h => by cases h

theorem justified_raised (he : IsLocal e) : s.Justified pc (.raised e) := by
  cases e with
  | requestRejected requestId status => exact absurd rfl (he requestId status)
  | _ => trivial

theorem ends_none {pc' : Pc} (h : pc'.outcome? = none) : s.Ends pc pc' :=
  fun _ ho => by cases h.symm.trans ho

theorem ends_raised (he : IsLocal e) : s.Ends pc (.finished (.raised e)) := by
  intro o ho
  cases ho
  exact Or.inr (justified_raised he)

/-! ## Threads that only move -/

@[simp] theorem setPc_self (s : GenerationClient) (k : ℕ) (pc : Pc) :
    ((s.setPc k pc).threads k).pc = pc := by
  simp [setPc]

theorem Effect.move {pc' : Pc} (hpc : (s.threads k).pc = pc) (hcore : t.core = s.core)
    (hthreads : t.threads = update s.threads k { s.threads k with pc := pc' })
    (hprobes : t.probes = s.probes) (h : pc.Leads pc') (hends : s.Ends pc pc') :
    s.Effect k t := by
  subst hpc
  exact .quiet t pc' ⟨hcore, hthreads, h, hends, fun _ _ h => hprobes ▸ h⟩

theorem Effect.raise (hpc : (s.threads k).pc = pc) (he : IsLocal e) (hcore : t.core = s.core)
    (hthreads : t.threads = update s.threads k
      { s.threads k with pc := .finished (.raised e) }) (hprobes : t.probes = s.probes)
    (hheld : pc.held = []) : s.Effect k t :=
  .move hpc hcore hthreads hprobes (.rest hheld rfl rfl rfl rfl rfl (Or.inl rfl) rfl)
    (ends_raised he)

theorem Effect.onRaise {caller : Caller} (hpc : (s.threads k).pc = pc) (he : IsLocal e)
    (hcore : t.core = s.core)
    (hthreads : t.threads = update s.threads k { s.threads k with pc := onRaise e caller })
    (hprobes : t.probes = s.probes) (hheld : pc.held = [])
    (hsubmission : pc.submission = caller.submission)
    (hpending : pc.pending = caller.submission) (hprobe : pc.probe = caller.probe) :
    s.Effect k t := by
  cases caller with
  | submit =>
    refine .move hpc hcore hthreads hprobes ?_ (fun o ho => ?_)
    · exact .same hheld rfl hsubmission.symm hpending.symm (Or.inl rfl) rfl nofun nofun hprobe.symm
        (List.nil_subset _)
    · cases ho
      exact Or.inr (justified_raised he)
  | cancel => exact .raise hpc he hcore hthreads hprobes hheld
  | health =>
    refine .move hpc hcore hthreads hprobes
      (.rest hheld rfl rfl rfl rfl rfl (Or.inr hprobe.symm) rfl) (fun o ho => ?_)
    cases ho
    exact Or.inr (justified_raised he)
  | reader =>
    exact .move hpc hcore hthreads hprobes (.rest hheld rfl rfl rfl rfl rfl (Or.inl rfl) rfl)
      (ends_none rfl)

theorem afterFail_effect {caller : FailCaller} {status : Status} {u : GenerationClient}
    (hpc : (s.threads k).pc = pc) (hcore : u.core = s.core) (hthreads : u.threads = s.threads)
    (hprobes : u.probes = s.probes) (hheld : pc.held = [])
    (hsubmission : pc.submission = caller.submission) (hpending : pc.pending = caller.pending)
    (hprobe : pc.probe = caller.probe) : s.Effect k (u.afterFail k status caller) := by
  have hset : ∀ pc, (u.setPc k pc).threads =
      update s.threads k { s.threads k with pc := pc } := by
    intro pc
    rw [setPc, hthreads]
  cases caller with
  | send =>
    exact .onRaise hpc (isLocal_workerUnavailable status.message) hcore (hset _) hprobes hheld
      hsubmission hpending hprobe
  | acceptance =>
    exact .raise hpc (isLocal_workerUnavailable status.message) hcore (hset _) hprobes hheld
  | close | reader =>
    refine .move hpc hcore (hset (.finished .returned)) hprobes
      (.rest hheld rfl rfl rfl rfl rfl (Or.inl rfl) rfl) (fun o ho => ?_)
    cases ho
    exact Or.inr trivial
  | readerStart e => exact .raise hpc (isLocal_call e) hcore (hset _) hprobes hheld

theorem putResponse_core (q : ℕ) (answer : Option Stats) :
    (s.putResponse q answer).core = s.core ∧ (s.putResponse q answer).threads = s.threads ∧
      (s.putResponse q answer).probes = s.probes := by
  rw [putResponse]
  split <;> exact ⟨rfl, rfl, rfl⟩

theorem failStep_effect (hpc : (s.threads k).pc = pc) (h : s.failStep k pc = some t) :
    s.Effect k t := by
  have hnext : ∀ {u : GenerationClient} (pc' : Pc), u.core = s.core →
      u.threads = update s.threads k { s.threads k with pc := pc' } → pc.held = [] →
      pc'.held = [] → pc'.submission = pc.submission → pc'.pending = pc.pending →
      pc'.unsent = none → pc'.launching = none → pc'.reading = false → pc'.outcome? = none →
      pc'.probe = pc.probe → pc'.answering ⊆ pc.answering → u.probes = s.probes → s.Effect k u :=
    fun pc' hcore hthreads hold hnew hsub hpend hunsent hlaunch hread hout hprobe hanswers hprobes =>
      .move hpc hcore hthreads hprobes (.same hold hnew hsub hpend (Or.inl hunsent) hlaunch
        (fun h => by cases hread.symm.trans h) (Pc.not_dispatch_of_not_reading hread) hprobe hanswers)
        (ends_none hout)
  cases pc with
  | fail caller status =>
    cases h
    exact .collect caller status hpc
  | failRequests caller status requests responses reader =>
    cases requests with
    | nil =>
      cases h
      exact hnext _ rfl rfl rfl rfl rfl rfl rfl rfl rfl rfl rfl (fun _ h => h) rfl
    | cons n rest =>
      cases h
      exact .failRequest caller status n rest responses reader hpc
  | failProbes caller status responses reader =>
    cases responses with
    | nil =>
      cases h
      cases hjoins : joinsReader caller with
      | true =>
        exact hnext (.failJoin caller status reader) rfl (by simp [setPc]) rfl rfl rfl rfl rfl rfl
          rfl rfl rfl (List.nil_subset _) rfl
      | false =>
        exact hnext (.failReader caller status reader) rfl (by simp [setPc]) rfl rfl rfl rfl rfl rfl
          rfl rfl rfl (List.nil_subset _) rfl
    | cons q rest =>
      cases h
      obtain ⟨hcore, hthreads, hprobes⟩ := putResponse_core (s := s) q none
      exact hnext (.failProbes caller status rest reader) hcore (by rw [setPc, hthreads]) rfl rfl rfl
        rfl rfl rfl rfl rfl rfl (List.subset_cons_self q rest) hprobes
  | failJoin =>
    simp only [failStep] at h
    split at h
    · cases h
      exact hnext _ rfl rfl rfl rfl rfl rfl rfl rfl rfl rfl rfl (fun _ h => h) rfl
    · cases h
  | failReader caller status reader =>
    cases reader with
    | none =>
      cases h
      exact afterFail_effect hpc rfl rfl rfl rfl rfl rfl rfl
    | some =>
      simp only [failStep] at h
      split at h
      · cases h
        exact afterFail_effect hpc rfl rfl rfl rfl rfl rfl rfl
      · cases h
        exact hnext _ rfl rfl rfl rfl rfl rfl rfl rfl rfl rfl rfl (fun _ h => h) rfl
  | failForget =>
    cases h
    exact afterFail_effect hpc rfl rfl rfl rfl rfl rfl rfl
  | _ => cases h

theorem sendStep_effect {caller : Caller} {message : ClientMessage} {serial : ℕ}
    (choice : Choice) (hpc : (s.threads k).pc = .sending caller message serial)
    (h : s.sendStep k caller message serial choice = some t) : s.Effect k t := by
  cases choice with
  | go =>
    cases h
    exact .sent caller message serial hpc
  | raised e =>
    cases e with
    | osError =>
      cases h
      exact .move hpc rfl rfl rfl (.same rfl rfl rfl rfl (Or.inl rfl) rfl nofun nofun rfl
        (List.nil_subset _)) (ends_none rfl)
    | python | runtimeError =>
      cases h
      exact .onRaise hpc (isLocal_call _) rfl rfl rfl rfl rfl rfl rfl
  | timedOut | message => cases h

theorem isLocal_checkSubmit {c : Connection} {request : GenerationRequest}
    (h : s.checkSubmit c request = .error e) : IsLocal e := by
  rintro requestId status rfl
  simp only [checkSubmit, validateRequestAgainstWorker, bind, Except.bind] at h
  split at h
  · next heq =>
    cases h
    split_ifs at heq <;> cases heq
  · split_ifs at h <;> cases h

theorem beginSubmit_effect {request : GenerationRequest}
    (hpc : (s.threads k).pc = .submit request) : s.Effect k (s.beginSubmit k request) := by
  rw [beginSubmit]
  cases hc : s.connection with
  | none => exact .raise hpc isLocal_notConnected rfl rfl rfl rfl
  | some c =>
    dsimp only
    cases hcheck : s.checkSubmit c request with
    | error => exact .raise hpc (isLocal_checkSubmit hcheck) rfl rfl rfl rfl
    | ok => exact .register request c hpc hc hcheck

theorem beginCancel_effect {requestId : ℤ} (hpc : (s.threads k).pc = .cancel requestId) :
    s.Effect k (s.beginCancel k requestId) := by
  have hended : ∀ sent, s.Effect k (s.setPc k (.finished (.cancelled sent))) := by
    intro sent
    refine .move hpc rfl rfl rfl (.rest rfl rfl rfl rfl rfl rfl (Or.inl rfl) rfl) (fun o ho => ?_)
    cases ho
    exact Or.inr trivial
  rw [beginCancel]
  cases hc : s.connection with
  | none => exact .raise hpc isLocal_notConnected rfl rfl rfl rfl
  | some c =>
    cases hfind : s.requests.lookup requestId with
    | none => exact hended false
    | some n =>
      dsimp only
      split_ifs
      · exact hended false
      · exact hended true
      · exact .cancel requestId n c hpc hc hfind

theorem beginHealth_effect (hpc : (s.threads k).pc = .health) : s.Effect k (s.beginHealth k) := by
  rw [beginHealth]
  cases hc : s.connection with
  | none => exact .raise hpc isLocal_notConnected rfl rfl rfl rfl
  | some c => exact .probe c hpc hc

theorem awaitAccepted_effect {n : ℕ} {requestId : ℤ} {timedOut : Bool}
    (hpc : (s.threads k).pc = .waitAccepted n requestId)
    (h : s.awaitAccepted k n requestId timedOut = some t) : s.Effect k t := by
  simp only [awaitAccepted] at h
  split at h
  · next haccepted =>
    cases h
    refine .move hpc rfl rfl rfl (.same rfl rfl rfl rfl (Or.inl rfl) rfl nofun nofun rfl
      (List.nil_subset _)) (fun o ho => ?_)
    cases ho
    exact Or.inr ⟨rfl, haccepted⟩
  · split at h
    · next status hrejected =>
      cases h
      refine .move hpc rfl rfl rfl (.rest rfl rfl rfl rfl rfl rfl (Or.inl rfl) rfl) (fun o ho => ?_)
      cases ho
      exact Or.inr ⟨n, rfl, hrejected⟩
    · cases h
      exact .raise hpc (isLocal_workerUnavailable _) rfl rfl rfl rfl
    · split at h
      · cases h
        exact .move hpc rfl rfl rfl (.same rfl rfl rfl rfl (Or.inl rfl) rfl nofun nofun rfl
          (List.nil_subset _)) (ends_none rfl)
      · cases h

theorem beginConnect_effect (hpc : (s.threads k).pc = .connect) (h : s.beginConnect k = some t) :
    s.Effect k t := by
  simp only [beginConnect] at h
  split_ifs at h
  · cases h
    exact .raise hpc (fun _ _ h => by cases h) rfl rfl rfl rfl
  · cases h
    exact .move hpc rfl rfl rfl (.rest rfl rfl rfl rfl rfl rfl (Or.inl rfl) rfl) (ends_none rfl)

theorem isLocal_checkHelloAck (h : s.checkHelloAck m = .error e) : IsLocal e := by
  rintro requestId status rfl
  cases m with
  | helloAck =>
    simp only [checkHelloAck] at h
    split_ifs at h <;> cases h
  | _ => cases h

theorem goStep_effect (hpc : (s.threads k).pc = pc) (h : s.stepAt k pc .go = some t) :
    s.Effect k t := by
  have hreads : ∀ {pc' : Pc}, pc'.reading = pc.reading → pc'.reading = true → pc.reading = true :=
    fun hsame h => hsame ▸ h
  cases pc with
  | submit => cases h; exact beginSubmit_effect hpc
  | encode caller =>
    cases h
    exact .move hpc rfl rfl rfl (.same rfl rfl rfl rfl (Or.inr rfl) rfl
      (hreads (by cases caller <;> rfl)) nofun rfl (List.nil_subset _)) (ends_none rfl)
  | acquire caller =>
    simp only [stepAt] at h
    split at h
    · cases h
    · cases h
      exact .move hpc rfl rfl rfl (.same rfl rfl rfl rfl (Or.inr rfl) rfl
        (hreads (by cases caller <;> rfl)) nofun rfl (List.nil_subset _)) (ends_none rfl)
  | capture caller =>
    simp only [stepAt] at h
    split at h
    · cases h
      exact .onRaise hpc isLocal_notConnected rfl rfl rfl rfl rfl rfl rfl
    · cases h
      exact .move hpc rfl rfl rfl (.same rfl rfl rfl rfl (Or.inr rfl) rfl
        (hreads (by cases caller <;> rfl)) nofun rfl (List.nil_subset _)) (ends_none rfl)
  | sending => exact sendStep_effect .go hpc h
  | forget n requestId e => cases h; exact .forget n requestId e hpc
  | waitAccepted => exact awaitAccepted_effect hpc h
  | cancel => cases h; exact beginCancel_effect hpc
  | health => cases h; exact beginHealth_effect hpc
  | waitStats =>
    simp only [stepAt, Option.map_eq_some_iff] at h
    obtain ⟨answer, -, rfl⟩ := h
    refine .move hpc rfl rfl rfl (.rest rfl rfl rfl rfl rfl rfl (Or.inr rfl) rfl) (fun o ho => Or.inr ?_)
    cases ho
    cases answer <;> trivial
  | popProbe probeId result =>
    cases h
    refine .quiet _ _ ⟨rfl, rfl, ?_, fun o ho => Or.inl ?_, fun _ _ h => lookup_of_lookup_erase h⟩
    · rw [hpc]
      exact .rest rfl rfl (by cases result <;> rfl) rfl rfl rfl (Or.inl rfl) rfl
    · rw [hpc]
      exact ho
  | close =>
    simp only [stepAt] at h
    split at h
    · cases h
    · cases h
      exact .move hpc rfl rfl rfl (.rest rfl rfl rfl rfl rfl rfl (Or.inl rfl) rfl) (ends_none rfl)
  | connect => exact beginConnect_effect hpc h
  | handshake | receiving => cases h
  | startReader => cases h; exact .create hpc
  | launchReader reader => cases h; exact .launch reader hpc
  | readLoop =>
    simp only [stepAt] at h
    split at h
    · cases h
      refine .move hpc rfl rfl rfl (.rest rfl rfl rfl rfl rfl rfl (Or.inl rfl) rfl) (fun o ho => ?_)
      cases ho
      exact Or.inr trivial
    · cases h
      exact .move hpc rfl rfl rfl (.same rfl rfl rfl rfl (Or.inl rfl) rfl id nofun rfl
        (List.nil_subset _)) (ends_none rfl)
  | dispatch m =>
    cases h
    cases hdispatch : s.dispatch m with
    | error =>
      rw [readerDispatch, hdispatch]
      exact .move hpc rfl rfl rfl (.rest rfl rfl rfl rfl rfl rfl (Or.inl rfl) rfl) (ends_none rfl)
    | ok result =>
      rw [readerDispatch, hdispatch]
      exact .dispatch m result.1 result.2 hpc hdispatch
  | deliver n terminal => cases h; exact .deliver n terminal hpc
  | _ => exact failStep_effect hpc h

theorem raisedStep_effect {e : CallError} (hpc : (s.threads k).pc = pc)
    (h : s.stepAt k pc (.raised e) = some t) : s.Effect k t := by
  cases pc with
  | encode => cases h; exact .onRaise hpc (isLocal_call e) rfl rfl rfl rfl rfl rfl rfl
  | sending => exact sendStep_effect (.raised e) hpc h
  | handshake => cases h; exact .raise hpc (isLocal_call e) rfl rfl rfl rfl
  | startReader | launchReader | receiving =>
    cases h
    exact .move hpc rfl rfl rfl (.rest rfl rfl rfl rfl rfl rfl (Or.inl rfl) rfl) (ends_none rfl)
  | _ => cases h

theorem stepAt_effect {choice : Choice} (hpc : (s.threads k).pc = pc)
    (h : s.stepAt k pc choice = some t) : s.Effect k t := by
  cases choice with
  | go => exact goStep_effect hpc h
  | raised => exact raisedStep_effect hpc h
  | timedOut =>
    cases pc with
    | waitAccepted => exact awaitAccepted_effect hpc h
    | waitStats =>
      cases h
      refine .move hpc rfl rfl rfl (.rest rfl rfl rfl rfl rfl rfl (Or.inr rfl) rfl) (fun o ho => ?_)
      cases ho
      exact Or.inr trivial
    | _ => cases h
  | message =>
    cases pc with
    | handshake =>
      simp only [stepAt] at h
      split at h
      · next e he =>
        cases h
        exact .raise hpc (isLocal_checkHelloAck he) rfl rfl rfl rfl
      · next ack _ =>
        cases h
        exact .publish ack hpc
    | receiving c =>
      cases h
      exact .move hpc rfl rfl rfl ⟨rfl, rfl, Or.inl rfl, Or.inl rfl, Or.inl rfl, rfl, id,
        fun _ _ => ⟨c, rfl⟩, Or.inl rfl, List.nil_subset _⟩ (ends_none rfl)
    | _ => cases h

theorem threadStep_effect {choice : Choice} (h : s.threadStep k choice = some t) : s.Effect k t :=
  stepAt_effect rfl h

/-! ## What a dispatched message does -/

inductive Dispatches (s : GenerationClient) : ServerMessage → GenerationClient → Dispatched → Prop where
  | stats (m : Stats) (t : GenerationClient) (hcore : t.core = s.core)
      (hthreads : t.threads = s.threads) (hprobes : t.probes = s.probes) :
      s.Dispatches (.stats m) t .done
  | accepted (requestId n : ℕ) (hfind : s.requests.lookup (requestId : ℤ) = some n) :
      s.Dispatches (.accepted requestId) (s.updateState n (fun r => { r with accepted := true })) .done
  | rejected (requestId n : ℕ) (status : Status)
      (hfind : s.requests.lookup (requestId : ℤ) = some n) (hnot : (s.states n).accepted = false) :
      s.Dispatches (.rejected requestId status)
        { s.updateState n (fun r => { r with rejected := some status }) with
          requests := s.requests.erase requestId } .done
  | delta (requestId sequenceNo n : ℕ) (tokenIds : List ℤ) (r : RequestState) (cancels : Bool)
      (next : Dispatched) (hfind : s.requests.lookup (requestId : ℤ) = some n)
      (hdelta : (s.states n).onDelta ⟨requestId, sequenceNo, tokenIds⟩ = .ok (r, cancels))
      (hnext : ∀ m t, next ≠ .deliver m t) :
      s.Dispatches (.tokenDelta requestId sequenceNo tokenIds) (s.updateState n (fun _ => r)) next
  | terminal (n : ℕ) (t : Terminal) (hfind : s.requests.lookup (t.requestId : ℤ) = some n)
      (hcheck : (s.states n).checkEvent = .ok ()) :
      s.Dispatches (.terminal t)
        { s.updateState n (fun r => { r with terminalReceived := true }) with
          requests := s.requests.erase t.requestId
          received := update s.received n (some t) } (.deliver n t)

theorem Dispatches.frame {next : Dispatched} (h : s.Dispatches m t next) :
    t.threads = s.threads ∧
      t.core = { s.core with requests := t.requests, states := t.states, received := t.received } ∧
      t.probes = s.probes := by
  cases h with
  | stats m t hcore hthreads hprobes =>
    refine ⟨hthreads, hcore.trans ?_, hprobes⟩
    rw [show t.requests = s.requests from congrArg Core.requests hcore,
      show t.states = s.states from congrArg Core.states hcore,
      show t.received = s.received from congrArg Core.received hcore]
    rfl
  | _ => exact ⟨rfl, rfl, rfl⟩

theorem failRequest_frame (s : GenerationClient) (n : ℕ) (status : Status) :
    (s.failRequest n status).threads = s.threads ∧
      (s.failRequest n status).core = { s.core with states := (s.failRequest n status).states } := by
  rw [failRequest]
  split <;> exact ⟨rfl, rfl⟩

theorem dispatch_dispatches {next : Dispatched} (h : s.dispatch m = .ok (t, next)) :
    s.Dispatches m t next := by
  cases hc : s.connection with
  | none => simp [dispatch, hc] at h
  | some =>
    simp only [dispatch, hc] at h
    cases m with
    | helloAck => cases h
    | stats m =>
      simp only at h
      split at h
      · next q _ =>
        cases h
        obtain ⟨hcore, hthreads, hprobes⟩ := putResponse_core (s := s) q (some m)
        exact .stats m _ hcore hthreads hprobes
      · cases h
        exact .stats m _ rfl rfl rfl
    | accepted requestId =>
      cases hfind : s.requests.lookup (requestId : ℤ) with
      | none => simp [dispatchAccepted, findState, hfind, bind, Except.bind] at h
      | some n =>
        simp only [dispatchAccepted, findState, hfind, bind, Except.bind] at h
        split at h
        · cases h
        · cases h
          exact .accepted requestId n hfind
    | rejected requestId status =>
      cases hfind : s.requests.lookup (requestId : ℤ) with
      | none => simp [dispatchRejected, findState, hfind, bind, Except.bind] at h
      | some n =>
        simp only [dispatchRejected, findState, hfind, bind, Except.bind] at h
        split at h
        · cases h
        · next hnot =>
          cases h
          exact .rejected requestId n status hfind (by simpa using hnot)
    | tokenDelta requestId sequenceNo tokenIds =>
      cases hfind : s.requests.lookup (requestId : ℤ) with
      | none => simp [dispatchDelta, findState, hfind, bind, Except.bind] at h
      | some n =>
        simp only [dispatchDelta, findState, hfind, bind, Except.bind] at h
        split at h
        · cases h
        · next r cancels hdelta =>
          cases h
          refine .delta requestId sequenceNo n tokenIds r cancels _ hfind hdelta ?_
          intro m t
          split <;> simp
    | terminal t =>
      cases hfind : s.requests.lookup (t.requestId : ℤ) with
      | none => simp [dispatchTerminal, findState, hfind, bind, Except.bind] at h
      | some n =>
        simp only [dispatchTerminal, findState, hfind, bind, Except.bind] at h
        split at h
        · cases h
        · next hcheck =>
          cases h
          exact .terminal n t hfind hcheck

end GenerationClient

end KimServing.Client

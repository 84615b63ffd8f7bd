import KimServing.Client.HandleContract

/-! # Calls across successive connections

A call belongs to the connection on which it started, but `_fail` acts on the current one,
and the exception handler of `submit` removes a request by its id. A late call does harm
as long as it can still reach `_fail`, or if a later request has the id that it removes.
Every other late call spares what belongs to later connections: it waits for an answer that
it has, removes its own probe, or completes a failure whose requests it took before.
-/
namespace KimServing.Client
open Library Function

def RequestState.answered (r : RequestState) : Bool :=
  r.accepted || r.rejected.isSome || r.failure.isSome

def FailCaller.lingers : FailCaller → Bool
  | .send .reader => false
  | _ => true

namespace GenerationClient
variable {s t : GenerationClient} {k : ℕ}

variable {pc : Pc} {n : ℕ}

/-- A step leaves everything alone that belongs to a connection later than the given one. -/
structure Spares (c : ℕ) (s t : GenerationClient) : Prop where
  connection : ∀ d, s.connection = some d → c < d.serial → t.connection = s.connection
  requests : ∀ i n, s.requests.lookup i = some n → c < s.stateOrigin n →
    t.requests.lookup i = some n ∧ t.states n = s.states n
  probes : ∀ i q, s.probes.lookup i = some q → c < s.responseOrigin q →
    t.probes.lookup i = some q ∧ t.responses q = s.responses q

/-- Where a call can no longer reach `_fail`: it waits for an answer, removes what it has
registered, or is in a call of `_fail` that has emptied the tables. A reader whose send fails
goes on to a failure of its own, and a wait for an answer that does not come ends in one. -/
def lingers (s : GenerationClient) : Pc → Bool
  | .waitAccepted n _ => (s.states n).answered
  | .waitStats _ _ | .popProbe _ _ | .forget _ _ _ => true
  | .failRequests caller _ _ _ _ | .failProbes caller _ _ _ | .failJoin caller _ _
  | .failReader caller _ _ | .failForget caller _ _ => caller.lingers
  | _ => false

/-- A connection is published only when the calls of earlier ones linger, and a request is
registered only under an id that no such call still has to remove. -/
def Apart (s : GenerationClient) : ClientAction → Prop
  | .thread k (.message _) => (s.threads k).pc = .handshake →
      ∀ j < s.threadCount, (s.threads j).pc.isFinished = false →
        (s.threads j).connection.isSome = true → s.lingers (s.threads j).pc = true
  | .thread k .go => ∀ request ∈ (s.threads k).pc.submitting,
      ∀ j < s.threadCount, ∀ c ∈ (s.threads j).connection, c ≠ s.connections →
        ∀ x ∈ (s.threads j).pc.pending, x.2 ≠ request.requestId
  | _ => True

instance (s : GenerationClient) : ∀ a, Decidable (s.Apart a)
  | .thread k (.message _) => inferInstanceAs (Decidable ((s.threads k).pc = .handshake →
      ∀ j < s.threadCount, (s.threads j).pc.isFinished = false →
        (s.threads j).connection.isSome = true → s.lingers (s.threads j).pc = true))
  | .thread k .go => inferInstanceAs (Decidable (∀ request ∈ (s.threads k).pc.submitting,
      ∀ j < s.threadCount, ∀ c ∈ (s.threads j).connection, c ≠ s.connections →
        ∀ x ∈ (s.threads j).pc.pending, x.2 ≠ request.requestId))
  | .thread _ (.raised _) | .thread _ .timedOut | .submit _ | .cancel _ | .health
  | .close | .connect | .nextEvent _ => isTrue trivial

/-- What is known of a call of the earlier connection `c`: nothing that it still has to do
concerns a later one. -/
structure Stale (s : GenerationClient) (c : ℕ) (pc : Pc) : Prop where
  lingers : s.lingers pc = true
  removes : ∀ n i m, pc.pending = some (n, i) → s.requests.lookup i = some m → s.stateOrigin m ≤ c
  holds : ∀ x ∈ pc.held, s.stateOrigin x.1 ≤ c
  answers : ∀ q ∈ pc.answering, s.responseOrigin q ≤ c
  probe : ∀ q, pc.probe = some (q + 1) → s.responseOrigin q ≤ c

structure ScopeInv (s : GenerationClient) : Prop where
  launches : s.Launches
  books : s.books.Inv
  current : ∀ c, s.connection = some c → c.serial = s.connections
  states : ∀ n, s.stateOrigin n ≤ s.connections
  responses : ∀ q, s.responseOrigin q ≤ s.connections
  nextProbeId : s.nextProbeId = s.responseCount + 1
  probes : ∀ i q, s.probes.lookup i = some q → i = q + 1 ∧ q < s.responseCount
  submission : ∀ k x, (s.threads k).pc.submission = some x → x.1 < s.stateCount
  probe : ∀ k p, (s.threads k).pc.probe = some p → ∃ q < s.responseCount, p = q + 1
  answering : ∀ k, ∀ q ∈ (s.threads k).pc.answering, q < s.responseCount
  calls : ∀ k c, (s.threads k).pc.isFinished = false → (s.threads k).connection = some c →
    c = s.connections ∨ c < s.connections ∧ s.Stale c (s.threads k).pc

/-! ## What a step does to connections, probes and answers -/

structure Scoped (s : GenerationClient) (k : ℕ) (t : GenerationClient) : Prop where
  connections : t.connections = s.connections
  connection : t.connection = s.connection ∨ t.connection = none
  states : ∀ n, t.stateOrigin n = s.stateOrigin n ∨
    n = s.stateCount ∧ ∃ c, s.connection = some c ∧ t.stateOrigin n = c.serial
  responses : ∀ q, t.responseOrigin q = s.responseOrigin q ∨
    q = s.responseCount ∧ ∃ c, s.connection = some c ∧ t.responseOrigin q = c.serial
  calls : ∀ j, t.threads j = s.threads j ∨
    (t.threads j).connection = (s.threads k).connection ∧
      (j = k ∨ ∃ reader, (s.threads k).pc = .launchReader reader) ∨
    ∃ c, s.connection = some c ∧ (t.threads j).connection = some c.serial

theorem scoped_of_update {thread : Thread} (hconnections : t.connections = s.connections)
    (hconnection : t.connection = s.connection ∨ t.connection = none)
    (hstates : t.stateOrigin = s.stateOrigin) (hresponses : t.responseOrigin = s.responseOrigin)
    (hthreads : t.threads = update s.threads k thread)
    (hcall : thread.connection = (s.threads k).connection ∨
      ∃ c, s.connection = some c ∧ thread.connection = some c.serial) : s.Scoped k t := by
  refine ⟨hconnections, hconnection, fun n => Or.inl (congrFun hstates n),
    fun q => Or.inl (congrFun hresponses q), fun j => ?_⟩
  by_cases hj : j = k
  · subst hj
    rw [hthreads, update_self]
    exact Or.inr (hcall.imp_left fun h => ⟨h, Or.inl rfl⟩)
  · exact Or.inl (by rw [hthreads, update_of_ne hj])

theorem Effect.scoped (h : s.Effect k t) :
    (∃ ack, (s.threads k).pc = .handshake ∧ t = s.publish k ack) ∨ s.Scoped k t := by
  cases h with
  | publish ack hpc => exact Or.inl ⟨ack, hpc, rfl⟩
  | quiet t pc h =>
    exact Or.inr (scoped_of_update (congrArg Core.connections h.core)
      (Or.inl (congrArg Core.connection h.core)) (congrArg Core.stateOrigin h.core)
      (congrArg Core.responseOrigin h.core) h.threads (Or.inl rfl))
  | register request c hpc hconnection =>
    refine Or.inr ⟨rfl, Or.inl rfl, fun n => ?_, fun q => Or.inl rfl, fun j => ?_⟩
    · by_cases hn : n = s.stateCount
      · exact Or.inr ⟨hn, c, hconnection, by rw [hn]; exact update_self _ _ _⟩
      · exact Or.inl (update_of_ne hn _ _)
    · by_cases hj : j = k
      · exact Or.inr (Or.inr ⟨c, hconnection, by simp [GenerationClient.register, hj]⟩)
      · exact Or.inl (update_of_ne hj _ _)
  | cancel requestId n c hpc hconnection =>
    exact Or.inr (scoped_of_update rfl (Or.inl rfl) rfl rfl rfl (Or.inr ⟨c, hconnection, rfl⟩))
  | probe c hpc hconnection =>
    refine Or.inr ⟨rfl, Or.inl rfl, fun n => Or.inl rfl, fun q => ?_, fun j => ?_⟩
    · by_cases hq : q = s.responseCount
      · exact Or.inr ⟨hq, c, hconnection, by rw [hq]; exact update_self _ _ _⟩
      · exact Or.inl (update_of_ne hq _ _)
    · by_cases hj : j = k
      · exact Or.inr (Or.inr ⟨c, hconnection, by simp [registerProbe, hj]⟩)
      · exact Or.inl (update_of_ne hj _ _)
  | sent | forget | create =>
    exact Or.inr (scoped_of_update rfl (Or.inl rfl) rfl rfl rfl (Or.inl rfl))
  | collect =>
    exact Or.inr (scoped_of_update rfl (Or.inr rfl) rfl rfl rfl (Or.inl rfl))
  | failRequest =>
    rw [GenerationClient.failRequest]
    split <;> exact Or.inr (scoped_of_update rfl (Or.inl rfl) rfl rfl rfl (Or.inl rfl))
  | dispatch m t next hpc hdispatch =>
    obtain ⟨hthreads, hcore, -⟩ := (dispatch_dispatches hdispatch).frame
    exact Or.inr (scoped_of_update (congrArg Core.connections hcore)
      (Or.inl (congrArg Core.connection hcore)) (congrArg Core.stateOrigin hcore)
      (congrArg Core.responseOrigin hcore) (show _ = update s.threads k
        { s.threads k with pc := onDispatched next } by simp only [setPc, hthreads]) (Or.inl rfl))
  | deliver =>
    rw [readerDeliver]
    split <;> exact Or.inr (scoped_of_update rfl (Or.inl rfl) rfl rfl rfl (Or.inl rfl))
  | launch reader hpc =>
    refine Or.inr ⟨rfl, Or.inl rfl, fun n => Or.inl rfl, fun q => Or.inl rfl, fun j => ?_⟩
    by_cases hr : j = reader
    · exact Or.inr (Or.inl ⟨by simp [launchReader, hr], Or.inr ⟨reader, hpc⟩⟩)
    · by_cases hj : j = k
      · subst hj
        exact Or.inr (Or.inl ⟨by simp [launchReader, hr], Or.inl rfl⟩)
      · exact Or.inl (by simp [launchReader, hr, hj])

/-- A step that registers no probe. -/
structure Asks (s : GenerationClient) (k : ℕ) (t : GenerationClient) : Prop where
  nextProbeId : t.nextProbeId = s.nextProbeId
  responseCount : t.responseCount = s.responseCount
  probes : s.KeepsProbes t
  probe : (t.threads k).pc.probe = none ∨ (t.threads k).pc.probe = (s.threads k).pc.probe
  answering : ∀ q ∈ (t.threads k).pc.answering,
    q ∈ (s.threads k).pc.answering ∨ ∃ i, s.probes.lookup i = some q

theorem asks_of_pc (hpc : (t.threads k).pc = pc) (hnext : t.nextProbeId = s.nextProbeId)
    (hcount : t.responseCount = s.responseCount) (hprobes : s.KeepsProbes t)
    (hprobe : pc.probe = none ∨ pc.probe = (s.threads k).pc.probe)
    (hanswering : pc.answering ⊆ (s.threads k).pc.answering) : s.Asks k t := by
  subst hpc
  exact ⟨hnext, hcount, hprobes, hprobe, fun q hq => Or.inl (hanswering hq)⟩

theorem Effect.asks (h : s.Effect k t) :
    (∃ c, (s.threads k).pc = .health ∧ t = s.registerProbe k c) ∨ s.Asks k t := by
  have hkeeps : s.KeepsProbes s := fun _ _ h => h
  have hrest {u : GenerationClient} {p : Pc} (hpc : (u.threads k).pc = p)
      (hnext : u.nextProbeId = s.nextProbeId) (hcount : u.responseCount = s.responseCount)
      (hprobes : s.KeepsProbes u) (hprobe : p.probe = none) (hanswering : p.answering = []) :
      s.Asks k u :=
    asks_of_pc hpc hnext hcount hprobes (Or.inl hprobe) (by rw [hanswering]; exact List.nil_subset _)
  cases h with
  | probe c hpc => exact Or.inl ⟨c, hpc, rfl⟩
  | quiet t pc h =>
    refine Or.inr (asks_of_pc (by rw [h.threads, update_self]) (congrArg Core.nextProbeId h.core)
      (congrArg Core.responseCount h.core) h.probes h.leads.probe h.leads.answering)
  | register | cancel | publish | forget =>
    exact Or.inr (hrest (congrArg Thread.pc (update_self _ _ _)) rfl rfl hkeeps rfl rfl)
  | create => exact Or.inr (hrest (setPc_self _ _ _) rfl rfl hkeeps rfl rfl)
  | sent caller message serial hpc =>
    refine Or.inr (asks_of_pc (setPc_self _ _ _) rfl rfl hkeeps ?_ ?_)
    · rw [hpc]
      cases caller <;> first | exact Or.inl rfl | exact Or.inr rfl
    · cases caller <;> exact List.nil_subset _
  | collect caller status hpc =>
    refine Or.inr ⟨rfl, rfl, fun i q h => ?_, ?_, fun q hq => Or.inr ?_⟩
    · cases h
    · exact Or.inr (by simp [GenerationClient.collect, hpc, Pc.probe])
    · have hmem : q ∈ s.probes.entries.map Sigma.snd := by
        simpa [GenerationClient.collect, Pc.answering] using hq
      obtain ⟨entry, hentry, rfl⟩ := List.mem_map.mp hmem
      exact ⟨entry.1, AList.mem_lookup_iff.mpr hentry⟩
  | failRequest caller status n rest responses reader hpc =>
    have hcore := (failRequest_frame s n status).2
    refine Or.inr (asks_of_pc (setPc_self _ _ _) (congrArg Core.nextProbeId hcore)
      (congrArg Core.responseCount hcore) ?_ (Or.inr (by rw [hpc]; rfl))
      (by rw [hpc]; exact fun _ h => h))
    rw [GenerationClient.failRequest]
    split <;> exact hkeeps
  | dispatch m t next hpc hdispatch =>
    obtain ⟨-, hcore, hprobes⟩ := (dispatch_dispatches hdispatch).frame
    refine Or.inr (hrest (setPc_self _ _ _) (congrArg Core.nextProbeId hcore)
      (congrArg Core.responseCount hcore) (fun _ _ h => hprobes ▸ h) ?_ ?_) <;> cases next <;> rfl
  | deliver =>
    rw [readerDeliver]
    split <;> exact Or.inr (hrest (setPc_self _ _ _) rfl rfl hkeeps rfl rfl)
  | launch reader =>
    by_cases hr : k = reader
    · exact Or.inr (hrest (p := .readLoop) (by simp [launchReader, hr]) rfl rfl hkeeps rfl rfl)
    · exact Or.inr (hrest (p := .finished .returned) (by simp [launchReader, hr]) rfl rfl hkeeps rfl
        rfl)

theorem answered_update {states : ℕ → RequestState} {m : ℕ} {r : RequestState}
    (hr : (states m).answered = true → r.answered = true) (h : (states n).answered = true) :
    (update states m r n).answered = true := by
  by_cases hn : n = m
  · subst hn
    simpa using hr h
  · simpa [hn] using h

theorem Effect.answered (h : s.Effect k t) (hn : n < s.stateCount)
    (ha : (s.states n).answered = true) : (t.states n).answered = true := by
  cases h with
  | quiet t pc h => rwa [show t.states = s.states from congrArg Core.states h.core]
  | register => simpa [GenerationClient.register, Nat.ne_of_lt hn] using ha
  | cancel => exact answered_update (fun h => h) ha
  | collect =>
    simp only [GenerationClient.collect]
    split
    · simp [RequestState.answered]
    · exact ha
  | failRequest =>
    rw [GenerationClient.failRequest]
    split
    · exact answered_update (fun h => h) ha
    · exact ha
  | dispatch m t next hpc hdispatch =>
    cases dispatch_dispatches hdispatch with
    | stats _ t hcore =>
      simpa [setPc, show t.states = s.states from congrArg Core.states hcore] using ha
    | accepted | rejected => exact answered_update (fun _ => by simp [RequestState.answered]) ha
    | delta requestId sequenceNo m tokenIds r cancels next hfind hdelta =>
      refine answered_update (fun hm => ?_) ha
      have hminor := onDelta_minor hdelta
      rwa [RequestState.answered, hminor.accepted, hminor.rejected, hminor.failure]
    | terminal => exact answered_update (fun h => h) ha
  | deliver =>
    rw [readerDeliver]
    split
    · exact ha
    · exact answered_update (fun h => h) ha
  | _ => exact ha

/-! ## A lingering call -/

/-- What a step of a call that lingers at `pc` can change: the entry of its own request or
probe, the requests and responses it holds, and its own place. -/
structure Fades (s : GenerationClient) (k : ℕ) (pc : Pc) (t : GenerationClient) : Prop where
  connection : t.connection = s.connection
  requests : ∀ i, (∀ n, pc.pending ≠ some (n, i)) → t.requests.lookup i = s.requests.lookup i
  states : ∀ n, (∀ x ∈ pc.held, x.1 ≠ n) → t.states n = s.states n
  probes : ∀ i, pc.probe ≠ some i → t.probes.lookup i = s.probes.lookup i
  responses : ∀ q, q ∉ pc.answering → t.responses q = s.responses q
  stops : (t.threads k).pc.isFinished = true ∨ t.lingers (t.threads k).pc = true
  pending : (t.threads k).pc.pending = none ∨ (t.threads k).pc.pending = pc.pending
  held : (t.threads k).pc.held ⊆ pc.held
  answering : (t.threads k).pc.answering ⊆ pc.answering
  probe : (t.threads k).pc.probe = none ∨ (t.threads k).pc.probe = pc.probe

structure Untouched (s t : GenerationClient) : Prop where
  connection : t.connection = s.connection
  requests : t.requests = s.requests
  states : t.states = s.states
  probes : t.probes = s.probes
  responses : t.responses = s.responses

theorem fades_of_pc {pc' : Pc} (hpc' : (t.threads k).pc = pc')
    (hstops : pc'.isFinished = true ∨ t.lingers pc' = true)
    (hpending : pc'.pending = none ∨ pc'.pending = pc.pending)
    (hprobe : pc'.probe = none ∨ pc'.probe = pc.probe) (hheld : pc'.held ⊆ pc.held)
    (hanswering : pc'.answering ⊆ pc.answering) (h : s.Untouched t) : s.Fades k pc t := by
  subst hpc'
  exact ⟨h.connection, fun i _ => by rw [h.requests], fun n _ => congrFun h.states n,
    fun i _ => by rw [h.probes], fun q _ => congrFun h.responses q, hstops, hpending, hheld,
    hanswering, hprobe⟩

theorem fades_of_finished {outcome : Outcome} (hpc : (t.threads k).pc = .finished outcome)
    (h : s.Untouched t) : s.Fades k pc t :=
  fades_of_pc hpc (Or.inl rfl) (Or.inl rfl) (Or.inl (by cases outcome <;> rfl))
    (List.nil_subset _) (List.nil_subset _) h

theorem finished_fades {outcome : Outcome} : s.Fades k pc (s.setPc k (.finished outcome)) :=
  fades_of_finished (setPc_self _ _ _) ⟨rfl, rfl, rfl, rfl, rfl⟩

theorem awaitAccepted_fades {requestId : ℤ} {timedOut : Bool} (ha : (s.states n).answered = true)
    (h : s.awaitAccepted k n requestId timedOut = some t) :
    s.Fades k (.waitAccepted n requestId) t := by
  simp only [awaitAccepted] at h
  split at h
  · cases h
    exact finished_fades
  · next haccepted =>
    split at h
    · cases h
      exact finished_fades
    · cases h
      exact finished_fades
    · next hrejected hfailure =>
      simp [RequestState.answered, haccepted, hrejected, hfailure] at ha

theorem afterFail_fades {u : GenerationClient} {caller : FailCaller} {status : Status}
    (hl : caller.lingers = true) (hpending : pc.pending = caller.pending)
    (hprobe : pc.probe = caller.probe) (h : s.Untouched u) :
    s.Fades k pc (u.afterFail k status caller) := by
  cases caller with
  | send caller =>
    cases caller with
    | submit n requestId =>
      exact fades_of_pc (setPc_self _ _ _) (Or.inr rfl) (Or.inr hpending.symm) (Or.inl rfl)
        (List.nil_subset _) (List.nil_subset _) { h with }
    | cancel => exact fades_of_finished (setPc_self _ _ _) { h with }
    | health probeId q =>
      exact fades_of_pc (setPc_self _ _ _) (Or.inr rfl) (Or.inl rfl) (Or.inr hprobe.symm)
        (List.nil_subset _) (List.nil_subset _) { h with }
    | reader => cases hl
  | acceptance | close | reader | readerStart =>
    exact fades_of_finished (setPc_self _ _ _) { h with }

theorem failStep_fades (hl : s.lingers pc = true) (hfail : pc.inFail = true)
    (h : s.failStep k pc = some t) : s.Fades k pc t := by
  cases pc with
  | failRequests caller status requests responses reader =>
    cases requests with
    | nil =>
      cases h
      exact fades_of_pc (setPc_self _ _ _) (Or.inr hl) (Or.inr rfl) (Or.inr rfl)
        (List.nil_subset _) (fun _ h => h) ⟨rfl, rfl, rfl, rfl, rfl⟩
    | cons n rest =>
      cases h
      have hcore := (failRequest_frame s n status).2
      have hself := setPc_self (s.failRequest n status) k
        (.failRequests caller status rest responses reader)
      refine ⟨congrArg Core.connection hcore, fun i _ => ?_, fun m hm => ?_, fun i _ => ?_,
        fun q _ => ?_, Or.inr ?_, Or.inr ?_, ?_, ?_, Or.inr ?_⟩
      · exact congrArg (AList.lookup i) (congrArg Core.requests hcore)
      · have hne : n ≠ m := hm (n, none) (List.mem_cons_self ..)
        simp only [setPc, GenerationClient.failRequest]
        split
        · exact update_of_ne hne.symm _ _
        · rfl
      · simp only [setPc, GenerationClient.failRequest]
        split <;> rfl
      · simp only [setPc, GenerationClient.failRequest]
        split <;> rfl
      all_goals rw [hself]
      · exact hl
      · rfl
      · exact List.subset_cons_self _ _
      · exact fun _ h => h
      · rfl
  | failProbes caller status responses reader =>
    cases responses with
    | nil =>
      cases h
      refine fades_of_pc (setPc_self _ _ _) (Or.inr ?_) (Or.inr ?_) (Or.inr ?_) ?_ ?_
        ⟨rfl, rfl, rfl, rfl, rfl⟩ <;> split <;> first | exact hl | rfl | exact List.nil_subset _
    | cons q rest =>
      cases h
      obtain ⟨hcore, -, hprobes⟩ := putResponse_core (s := s) q none
      have hself := setPc_self (s.putResponse q none) k (.failProbes caller status rest reader)
      refine ⟨congrArg Core.connection hcore, fun i _ => ?_, fun m _ => ?_, fun i _ => ?_,
        fun p hp => ?_, Or.inr ?_, Or.inr ?_, ?_, ?_, Or.inr ?_⟩
      · exact congrArg (AList.lookup i) (congrArg Core.requests hcore)
      · exact congrFun (congrArg Core.states hcore) m
      · exact congrArg (AList.lookup i) hprobes
      · have hne : p ≠ q := fun hpq => hp (hpq ▸ List.mem_cons_self ..)
        simp only [setPc, putResponse]
        split
        · exact update_of_ne hne _ _
        · rfl
      all_goals rw [hself]
      · exact hl
      · rfl
      · exact List.nil_subset _
      · exact List.subset_cons_self _ _
      · rfl
  | failJoin caller status reader =>
    simp only [failStep] at h
    split at h
    · cases h
      exact fades_of_pc (setPc_self _ _ _) (Or.inr hl) (Or.inr rfl) (Or.inr rfl) (List.nil_subset _)
        (List.nil_subset _) ⟨rfl, rfl, rfl, rfl, rfl⟩
    · cases h
  | failReader caller status reader =>
    cases reader with
    | none =>
      cases h
      exact afterFail_fades hl rfl rfl ⟨rfl, rfl, rfl, rfl, rfl⟩
    | some =>
      simp only [failStep] at h
      split at h
      · cases h
        exact afterFail_fades hl rfl rfl ⟨rfl, rfl, rfl, rfl, rfl⟩
      · cases h
        exact fades_of_pc (setPc_self _ _ _) (Or.inr hl) (Or.inr rfl) (Or.inr rfl)
          (List.nil_subset _) (List.nil_subset _) ⟨rfl, rfl, rfl, rfl, rfl⟩
  | failForget =>
    cases h
    exact afterFail_fades hl rfl rfl ⟨rfl, rfl, rfl, rfl, rfl⟩
  | fail => cases hl
  | _ => cases hfail

theorem stepAt_fades {choice : Choice} (hl : s.lingers pc = true)
    (h : s.stepAt k pc choice = some t) : s.Fades k pc t := by
  have hfail (hfail : pc.inFail = true) (hgo : choice = .go → s.failStep k pc = some t)
      (hother : choice ≠ .go → False) : s.Fades k pc t := by
    by_cases hchoice : choice = .go
    · exact failStep_fades hl hfail (hgo hchoice)
    · exact (hother hchoice).elim
  cases pc with
  | waitAccepted n requestId =>
    cases choice with
    | go | timedOut => exact awaitAccepted_fades hl h
    | raised | message => cases h
  | waitStats probeId q =>
    have hpop (result : Except ClientError Stats) :
        s.Fades k (.waitStats probeId q) (s.setPc k (.popProbe probeId result)) :=
      fades_of_pc (setPc_self _ _ _) (Or.inr rfl) (Or.inl rfl) (Or.inr rfl) (List.nil_subset _)
        (List.nil_subset _) ⟨rfl, rfl, rfl, rfl, rfl⟩
    cases choice with
    | go =>
      simp only [stepAt, Option.map_eq_some_iff] at h
      obtain ⟨answer, -, rfl⟩ := h
      exact hpop _
    | timedOut => cases h; exact hpop _
    | raised | message => cases h
  | popProbe probeId result =>
    cases choice with
    | go =>
      cases h
      have hfinished : s.Fades k (.popProbe probeId result)
          (s.setPc k (.finished (statsOutcome result))) := finished_fades
      refine { hfinished with probes := fun i hi => AList.lookup_erase_ne fun heq => ?_ }
      exact hi (congrArg some heq.symm)
    | raised | message | timedOut => cases h
  | forget n requestId e =>
    cases choice with
    | go =>
      cases h
      have hfinished : s.Fades k (.forget n requestId e) (s.setPc k (.finished (.raised e))) :=
        finished_fades
      refine { hfinished with requests := fun i hi => AList.lookup_erase_ne fun heq => ?_ }
      exact hi n (by rw [heq]; rfl)
    | raised | message | timedOut => cases h
  | failRequests | failProbes | failJoin | failReader | failForget =>
    refine hfail rfl (fun hgo => by subst hgo; exact h) (fun hgo => ?_)
    cases choice <;> first | exact hgo rfl | cases h
  | _ => cases hl

theorem Fades.spares {c : ℕ} (h : s.Fades k pc t) (hs : s.ScopeInv) (hstale : s.Stale c pc) :
    Spares c s t := by
  refine ⟨fun _ _ _ => h.connection, fun i n hi hlt => ⟨?_, ?_⟩, fun i q hi hlt => ⟨?_, ?_⟩⟩
  · rw [h.requests i fun m hm => absurd (hstale.removes m i n hm hi) (Nat.not_le.mpr hlt), hi]
  · refine h.states n fun x hx hxn => absurd (hstale.holds x hx) ?_
    rw [hxn]
    exact Nat.not_le.mpr hlt
  · obtain ⟨rfl, -⟩ := hs.probes i q hi
    rw [h.probes _ fun hp => absurd (hstale.probe q hp) (Nat.not_le.mpr hlt), hi]
  · exact h.responses q fun hq => absurd (hstale.answers q hq) (Nat.not_le.mpr hlt)

/-! ## The invariant -/

theorem Scoped.stateOrigin (h : s.Scoped k t) (hn : n < s.stateCount) :
    t.stateOrigin n = s.stateOrigin n := by
  rcases h.states n with hsame | ⟨rfl, -⟩
  · exact hsame
  · exact absurd hn (Nat.lt_irrefl _)

theorem Scoped.responseOrigin {q : ℕ} (h : s.Scoped k t) (hq : q < s.responseCount) :
    t.responseOrigin q = s.responseOrigin q := by
  rcases h.responses q with hsame | ⟨rfl, -⟩
  · exact hsame
  · exact absurd hq (Nat.lt_irrefl _)

theorem Effect.entry (h : s.Effect k t) (hkeeps : s.books.Keeps t.books) {i : ℤ}
    (hi : t.requests.lookup i = some n) : s.requests.lookup i = some n ∨
      ∃ request ∈ (s.threads k).pc.submitting, request.requestId = i := by
  rcases h.ordinary with ⟨request, c, hpc, rfl⟩ | ⟨_, _, _, _, rfl⟩ | hordinary
  · by_cases heq : i = request.requestId
    · exact Or.inr ⟨request, by rw [hpc]; rfl, heq.symm⟩
    · exact Or.inl (by simpa [GenerationClient.register, AList.lookup_insert_ne heq] using hi)
  · exact Or.inl (lookup_of_lookup_erase hi)
  · obtain ⟨-, -, -, -, -, -, hlt⟩ := hkeeps.inv.of_lookup hi
    exact Or.inl (hkeeps.later.entry i n (hlt.trans_eq hordinary.stateCount) hi)

theorem ScopeInv.held_lt (hs : s.ScopeInv) {j : ℕ} {x : ℕ × Option Terminal}
    (hx : x ∈ (s.threads j).pc.held) : x.1 < s.stateCount := by
  by_contra hge
  exact (hs.books.unused x.1 (Nat.le_of_not_lt hge)).hand j x.2 hx

theorem lingers_keeps (h : s.lingers pc = true)
    (hanswered : ∀ x, pc.submission = some x → (s.states x.1).answered = true →
      (t.states x.1).answered = true) : t.lingers pc = true := by
  cases pc with
  | waitAccepted n requestId => exact hanswered (n, requestId) rfl h
  | _ => exact h

/-- The step of another call leaves a late call as it is. -/
theorem ScopeInv.stale_keeps (hs : s.ScopeInv) {j c : ℕ} (hstale : s.Stale c (s.threads j).pc)
    (hscoped : s.Scoped k t) (heffect : s.Effect k t) (hkeeps : s.books.Keeps t.books)
    (hfresh : ∀ request ∈ (s.threads k).pc.submitting,
      ∀ x ∈ (s.threads j).pc.pending, x.2 ≠ request.requestId) :
    t.Stale c (s.threads j).pc := by
  refine ⟨lingers_keeps hstale.lingers fun x hx => heffect.answered (hs.submission j x hx),
    fun n i m hpending hi => ?_, fun x hx => ?_, fun q hq => ?_, fun q hq => ?_⟩
  · rcases heffect.entry hkeeps hi with hold | ⟨request, hsubmitting, heq⟩
    · obtain ⟨-, -, -, -, -, -, hlt⟩ := hs.books.of_lookup hold
      rw [hscoped.stateOrigin hlt]
      exact hstale.removes n i m hpending hold
    · exact absurd heq.symm (hfresh request hsubmitting (n, i) hpending)
  · rw [hscoped.stateOrigin (hs.held_lt hx)]
    exact hstale.holds x hx
  · rw [hscoped.responseOrigin (hs.answering j q hq)]
    exact hstale.answers q hq
  · obtain ⟨r, hr, heq⟩ := hs.probe j (q + 1) hq
    obtain rfl : q = r := Nat.succ.inj heq
    rw [hscoped.responseOrigin hr]
    exact hstale.probe q hq

/-- The step of a late call ends it or leaves it a late call. -/
theorem ScopeInv.stale_step (hs : s.ScopeInv) {c : ℕ} (hstale : s.Stale c (s.threads k).pc)
    (hscoped : s.Scoped k t) (heffect : s.Effect k t) (hkeeps : s.books.Keeps t.books)
    (hfades : s.Fades k (s.threads k).pc t) (hlive : (t.threads k).pc.isFinished = false) :
    t.Stale c (t.threads k).pc := by
  have hfresh : ∀ request ∈ (s.threads k).pc.submitting,
      ∀ x ∈ (s.threads k).pc.pending, x.2 ≠ request.requestId := by
    have hl := hstale.lingers
    intro request hrequest
    cases hpc : (s.threads k).pc with
    | submit =>
      rw [hpc] at hl
      cases hl
    | _ =>
      rw [hpc] at hrequest
      cases hrequest
  have hold := hs.stale_keeps hstale hscoped heffect hkeeps hfresh
  refine ⟨?_, fun n i m hpending hi => ?_, fun x hx => hold.holds x (hfades.held hx),
    fun q hq => hold.answers q (hfades.answering hq), fun q hq => ?_⟩
  · rcases hfades.stops with hfinished | hlingers
    · cases hlive.symm.trans hfinished
    · exact hlingers
  · rcases hfades.pending with hnone | hsame
    · cases hnone.symm.trans hpending
    · exact hold.removes n i m (hsame ▸ hpending) hi
  · rcases hfades.probe with hnone | hsame
    · cases hnone.symm.trans hq
    · exact hold.probe q (hsame ▸ hq)

theorem ScopeInv.asks (hs : s.ScopeInv) (halone : s.Alone k t) (h : s.Asks k t) :
    t.nextProbeId = t.responseCount + 1 ∧
    (∀ i q, t.probes.lookup i = some q → i = q + 1 ∧ q < t.responseCount) ∧
    (∀ j p, (t.threads j).pc.probe = some p → ∃ q < t.responseCount, p = q + 1) ∧
    ∀ j, ∀ q ∈ (t.threads j).pc.answering, q < t.responseCount := by
  rw [h.nextProbeId, h.responseCount]
  refine ⟨hs.nextProbeId, fun i q hi => hs.probes i q (h.probes i q hi), fun j p hp => ?_,
    fun j q hq => ?_⟩
  · by_cases hj : j = k
    · subst hj
      rcases h.probe with hnone | hsame
      · cases hnone.symm.trans hp
      · exact hs.probe j p (hsame ▸ hp)
    · rcases halone.others j hj with hsame | ⟨-, hloop⟩
      · exact hs.probe j p (hsame ▸ hp)
      · rw [hloop] at hp
        cases hp
  · by_cases hj : j = k
    · subst hj
      rcases h.answering q hq with hold | ⟨i, hi⟩
      · exact hs.answering j q hold
      · exact (hs.probes i q hi).2
    · rcases halone.others j hj with hsame | ⟨-, hloop⟩
      · exact hs.answering j q (hsame ▸ hq)
      · rw [hloop] at hq
        cases hq

theorem ScopeInv.registerProbe (hs : s.ScopeInv) {c : Connection}
    (halone : s.Alone k (s.registerProbe k c)) :
    (s.registerProbe k c).nextProbeId = (s.registerProbe k c).responseCount + 1 ∧
    (∀ i q, (s.registerProbe k c).probes.lookup i = some q →
      i = q + 1 ∧ q < (s.registerProbe k c).responseCount) ∧
    (∀ j p, ((s.registerProbe k c).threads j).pc.probe = some p →
      ∃ q < (s.registerProbe k c).responseCount, p = q + 1) ∧
    ∀ j, ∀ q ∈ ((s.registerProbe k c).threads j).pc.answering,
      q < (s.registerProbe k c).responseCount := by
  have hself : ((s.registerProbe k c).threads k).pc = .encode (.health s.nextProbeId s.responseCount)
      (.health s.nextProbeId c.helloAck.workerEpoch) := by simp [GenerationClient.registerProbe]
  refine ⟨congrArg Nat.succ hs.nextProbeId, fun i q hi => ?_, fun j p hp => ?_, fun j q hq => ?_⟩
  · by_cases heq : i = s.nextProbeId
    · subst heq
      obtain rfl : s.responseCount = q :=
        Option.some.inj (by simpa [GenerationClient.registerProbe] using hi)
      exact ⟨hs.nextProbeId, Nat.lt_succ_self _⟩
    · obtain ⟨rfl, hlt⟩ := hs.probes i q
        (by simpa [GenerationClient.registerProbe, AList.lookup_insert_ne heq] using hi)
      exact ⟨rfl, Nat.lt_succ_of_lt hlt⟩
  · by_cases hj : j = k
    · subst hj
      rw [hself] at hp
      cases hp
      exact ⟨s.responseCount, Nat.lt_succ_self _, hs.nextProbeId⟩
    · rcases halone.others j hj with hsame | ⟨-, hloop⟩
      · obtain ⟨q, hq, rfl⟩ := hs.probe j p (hsame ▸ hp)
        exact ⟨q, Nat.lt_succ_of_lt hq, rfl⟩
      · rw [hloop] at hp
        cases hp
  · by_cases hj : j = k
    · subst hj
      rw [hself] at hq
      cases hq
    · rcases halone.others j hj with hsame | ⟨-, hloop⟩
      · exact Nat.lt_succ_of_lt (hs.answering j q (hsame ▸ hq))
      · rw [hloop] at hq
        cases hq

theorem ScopeInv.submission_lt (hs : s.ScopeInv) (heffect : s.Effect k t)
    (hcount : s.stateCount ≤ t.stateCount) {j : ℕ} {x : ℕ × ℤ}
    (hx : (t.threads j).pc.submission = some x) : x.1 < t.stateCount := by
  by_cases hj : j = k
  · subst hj
    rcases heffect.ordinary with ⟨request, c, -, rfl⟩ | ⟨_, _, _, _, rfl⟩ | hordinary
    · simp only [GenerationClient.register, update_self, Pc.submission, Caller.submission,
        Option.some.injEq] at hx
      subst hx
      exact Nat.lt_succ_self _
    · simp [GenerationClient.forget, Pc.submission] at hx
    · rcases hordinary.submission with hnone | hsame
      · cases hnone.symm.trans hx
      · exact (hs.submission j x (hsame ▸ hx)).trans_le hcount
  · exact (hs.submission j x (heffect.alone.other_submission hj hx)).trans_le hcount

theorem scoped_inv (hs : s.ScopeInv) {choice : Choice} (h : s.threadStep k choice = some t)
    (hscoped : s.Scoped k t)
    (hfresh : ∀ request ∈ (s.threads k).pc.submitting, ∀ j < s.threadCount,
      ∀ c ∈ (s.threads j).connection, c ≠ s.connections →
        ∀ x ∈ (s.threads j).pc.pending, x.2 ≠ request.requestId) : t.ScopeInv := by
  have heffect := threadStep_effect h
  have hlive := live_of_threadStep h
  have halone := heffect.alone
  have hkeeps := Books.moves_keeps hs.books (heffect.moves hs.launches)
  obtain ⟨hnext, hprobes, hprobe, hanswering⟩ : t.nextProbeId = t.responseCount + 1 ∧
      (∀ i q, t.probes.lookup i = some q → i = q + 1 ∧ q < t.responseCount) ∧
      (∀ j p, (t.threads j).pc.probe = some p → ∃ q < t.responseCount, p = q + 1) ∧
      ∀ j, ∀ q ∈ (t.threads j).pc.answering, q < t.responseCount := by
    rcases heffect.asks with ⟨c, -, rfl⟩ | hasks
    · exact hs.registerProbe halone
    · exact hs.asks halone hasks
  refine ⟨hs.launches.step hlive halone, hkeeps.inv, fun c hc => ?_, fun n => ?_, fun q => ?_, hnext,
    hprobes, fun j x hx => hs.submission_lt heffect hkeeps.later.count hx, hprobe, hanswering,
    fun j c hj hc => ?_⟩
  · rcases hscoped.connection with hsame | hnone
    · rw [hscoped.connections]
      exact hs.current c (hsame ▸ hc)
    · cases hnone.symm.trans hc
  · rw [hscoped.connections]
    rcases hscoped.states n with hsame | ⟨-, c, hc, hnew⟩
    · rw [hsame]
      exact hs.states n
    · rw [hnew]
      exact (hs.current c hc).le
  · rw [hscoped.connections]
    rcases hscoped.responses q with hsame | ⟨-, c, hc, hnew⟩
    · rw [hsame]
      exact hs.responses q
    · rw [hnew]
      exact (hs.current c hc).le
  · rw [hscoped.connections]
    rcases hscoped.calls j with hsame | ⟨hsame, hown⟩ | ⟨d, hd, hnew⟩
    · rw [hsame] at hj hc ⊢
      refine (hs.calls j c hj hc).imp_right fun ⟨hlt, hstale⟩ => ⟨hlt, ?_⟩
      exact hs.stale_keeps hstale hscoped heffect hkeeps fun request hrequest =>
        hfresh request hrequest j (hs.launches.lt hj) c hc (Nat.ne_of_lt hlt)
    · rw [hsame] at hc
      refine (hs.calls k c hlive hc).imp_right fun ⟨hlt, hstale⟩ => ⟨hlt, ?_⟩
      rcases hown with rfl | ⟨reader, hlaunch⟩
      · exact hs.stale_step hstale hscoped heffect hkeeps (stepAt_fades hstale.lingers h) hj
      · -- a call that lingers launches nobody
        have hl := hstale.lingers
        rw [hlaunch] at hl
        cases hl
    · rw [hnew] at hc
      cases hc
      exact Or.inl (hs.current d hd)

theorem publish_inv (hs : s.ScopeInv) {ack : HelloAck} (hpc : (s.threads k).pc = .handshake)
    (hlingers : ∀ j < s.threadCount, (s.threads j).pc.isFinished = false →
      (s.threads j).connection.isSome = true → s.lingers (s.threads j).pc = true) :
    (s.publish k ack).ScopeInv := by
  have heffect := Effect.publish (s := s) ack hpc
  have hlive : (s.threads k).pc.isFinished = false := by rw [hpc]; rfl
  have hkeeps := Books.moves_keeps hs.books (heffect.moves hs.launches)
  obtain ⟨c, hhealth, -⟩ | hasks := heffect.asks
  · cases hpc.symm.trans hhealth
  obtain ⟨hnext, hprobes, hprobe, hanswering⟩ := hs.asks heffect.alone hasks
  refine ⟨hs.launches.step hlive heffect.alone, hkeeps.inv, fun c hc => ?_,
    fun n => (hs.states n).trans (Nat.le_succ _), fun q => (hs.responses q).trans (Nat.le_succ _),
    hnext, hprobes, fun j x hx => hs.submission_lt heffect (Nat.le_refl _) hx, hprobe, hanswering,
    fun j c hj hc => ?_⟩
  · cases hc
    rfl
  · by_cases hjk : j = k
    · subst hjk
      simp only [publish, update_self, Option.some.injEq] at hc
      exact Or.inl hc.symm
    · -- a call of the connection that is now an earlier one has only that connection's entries
      have hsame : (s.publish k ack).threads j = s.threads j := update_of_ne hjk _ _
      rw [hsame] at hj hc ⊢
      refine Or.inr ?_
      rcases hs.calls j c hj hc with rfl | ⟨hlt, hstale⟩
      · have hl := hlingers j (hs.launches.lt hj) hj (by rw [hc]; rfl)
        exact ⟨Nat.lt_succ_self _, lingers_keeps hl fun _ _ h => h, fun _ _ m _ _ => hs.states m,
          fun x _ => hs.states x.1, fun q _ => hs.responses q, fun q _ => hs.responses q⟩
      · exact ⟨Nat.lt_succ_of_lt hlt, lingers_keeps hstale.lingers fun _ _ h => h, hstale.removes,
          hstale.holds, hstale.answers, hstale.probe⟩

theorem start_scope (hs : s.ScopeInv) (hlaunch : pc.launching = none) (hheld : pc.held = [])
    (hsub : pc.submission = none) (hprobe : pc.probe = none) (hanswering : pc.answering = []) :
    (s.start pc).ScopeInv := by
  have hbooks : (s.start pc).books = s.books := by
    refine books_eq (held_update_same ?_) rfl
    rw [hs.launches.unused s.threadCount (Nat.le_refl _), hheld]
    rfl
  refine { hs with
    launches := start_launches hs.launches hlaunch
    books := hbooks ▸ hs.books
    submission := fun j x hx => ?_
    probe := fun j p hp => ?_
    answering := fun j q hq => ?_
    calls := fun j c hj hc => ?_ }
  all_goals by_cases h : j = s.threadCount
  · rw [h, start_self, hsub] at hx
    cases hx
  · exact hs.submission j x (start_other h ▸ hx)
  · rw [h, start_self, hprobe] at hp
    cases hp
  · exact hs.probe j p (start_other h ▸ hp)
  · rw [h, start_self, hanswering] at hq
    cases hq
  · exact hs.answering j q (start_other h ▸ hq)
  · rw [h, start_self] at hc
    cases hc
  · rw [start_other h] at hj hc ⊢
    exact (hs.calls j c hj hc).imp_right fun ⟨hlt, hstale⟩ => ⟨hlt, lingers_keeps hstale.lingers
      fun _ _ h => h, hstale.removes, hstale.holds, hstale.answers, hstale.probe⟩

theorem nextEvent_scope (hs : s.ScopeInv) (h : s.nextEvent n = some t) : t.ScopeInv := by
  rw [nextEvent] at h
  split at h
  · cases h
  · next events result hget =>
    cases h
    have hlaunches := hs.launches
    refine { hs with
      launches := { hlaunches with }
      books := (Books.keeps_consume hs.books (n := n) hget).inv
      calls := fun j c hj hc => ?_ }
    rcases hs.calls j c hj hc with hcall | ⟨hlt, hstale⟩
    · exact Or.inl hcall
    · exact Or.inr ⟨hlt, lingers_keeps hstale.lingers fun x _ ha => answered_update (fun h => h) ha,
        hstale.removes, hstale.holds, hstale.answers, hstale.probe⟩

theorem step_scope (hs : s.ScopeInv) {a : ClientAction} (hapart : s.Apart a)
    (h : s.step a = some t) : t.ScopeInv := by
  cases a with
  | submit | cancel | health | close | connect =>
    cases h; exact start_scope hs rfl rfl rfl rfl rfl
  | nextEvent => exact nextEvent_scope hs h
  | thread k choice =>
    rcases (threadStep_effect h).scoped with ⟨ack, hpc, rfl⟩ | hscoped
    · -- only an answer to the Hello publishes a connection
      have hmessage : ∃ m, choice = .message m := by
        simp only [step, threadStep, hpc] at h
        cases choice with
        | message m => exact ⟨m, rfl⟩
        | raised =>
          have hsame := Option.some.inj h
          exact absurd (congrArg (fun u => (u.threads k).pc) hsame)
            (by simp [raiseConnect, setPc, publish])
        | go | timedOut => cases h
      obtain ⟨m, rfl⟩ := hmessage
      exact publish_inv hs hpc (hapart hpc)
    · refine scoped_inv hs h hscoped fun request hrequest => ?_
      -- a call that is about to register a request only waits for its turn
      cases hpc : (s.threads k).pc with
      | submit =>
        cases choice with
        | go => exact hapart request hrequest
        | raised | message | timedOut =>
          simp only [step, threadStep, hpc] at h
          cases h
      | _ =>
        rw [hpc] at hrequest
        cases hrequest

theorem initial_scope (config : GenerationClientConfig) : (initial config).ScopeInv := by
  refine ⟨(initial_inv config).launches, (initial_inv config).books, ?_, fun n => Nat.le_refl 0,
    fun q => Nat.le_refl 0, rfl, ?_, ?_, ?_, ?_, ?_⟩
  · intro c hc
    cases hc
  · intro i q hi
    cases hi
  · intro k x hx
    cases hx
  · intro k p hp
    cases hp
  · intro k q hq
    cases hq
  · intro k c _ hc
    cases hc

/-- No step of a call touches what belongs to a later connection, in every run that
publishes a connection only when no call of an earlier one can still reach `_fail`, and that
registers no request under an id that such a call removes. -/
theorem failures_scoped (config : GenerationClientConfig) (run : List ClientAction)
    (s t : GenerationClient) (k c : ℕ) (choice : Choice)
    (hapart : Along step Apart (initial config) run)
    (hrun : exec step (initial config) run = some s) (hstep : s.threadStep k choice = some t)
    (hcall : (s.threads k).connection = some c) : Spares c s t := by
  have hs : s.ScopeInv :=
    exec_invariant (fun _ _ _ hi hg h => step_scope hi hg h) (initial_scope config) hapart hrun
  rcases hs.calls k c (live_of_threadStep hstep) hcall with rfl | ⟨-, hstale⟩
  · -- there is no later connection
    refine ⟨fun d hd hlt => ?_, fun i n _ hlt => ?_, fun i q _ hlt => ?_⟩
    · exact absurd hlt (hs.current d hd ▸ Nat.lt_irrefl _)
    · exact absurd hlt (Nat.not_lt.mpr (hs.states n))
    · exact absurd hlt (Nat.not_lt.mpr (hs.responses q))
  · exact (stepAt_fades hstale.lingers hstep).spares hs hstale

/-- Thread 2 is sending when the client is closed and connected again. On the new
connection thread 6 registers request 8, and then the send of thread 2 fails. -/
def staleRun : List ClientAction :=
  connectRun ++ [.submit { requestId := 7, inputTokenIds := [1], maxNewTokens := 4 },
    .thread 2 .go, .thread 2 .go, .thread 2 .go, .thread 2 .go,
    .close, .thread 3 .go, .thread 3 .go, .thread 3 .go, .thread 3 .go, .thread 3 .go,
    .thread 1 .go, .thread 3 .go, .thread 3 .go, .thread 3 .go,
    .connect, .thread 4 .go, .thread 4 (.message (.helloAck smallAck)), .thread 4 .go, .thread 4 .go,
    .submit { requestId := 8, inputTokenIds := [1], maxNewTokens := 4 }, .thread 6 .go,
    .thread 2 (.raised (.osError []))]

/-- The failure of a send on the first connection ends the second one and fails its
request. -/
theorem stale_send_ends_later_connection :
    ∃ s t, exec step smallClient staleRun = some s ∧ s.threadStep 2 .go = some t ∧
      (s.threads 2).connection = some 1 ∧ s.connection = some ⟨2, smallAck⟩ ∧
      t.connection = none ∧ s.requests.lookup 8 = some 1 ∧ s.stateOrigin 1 = 2 ∧
      t.requests.lookup 8 = none ∧ (t.states 1).failure.isSome = true ∧ ¬Spares 1 s t := by
  have hrun : ∃ s t, exec step smallClient staleRun = some s ∧ s.threadStep 2 .go = some t ∧
      (s.threads 2).connection = some 1 ∧ s.connection = some ⟨2, smallAck⟩ ∧
      t.connection = none ∧ s.requests.lookup 8 = some 1 ∧ s.stateOrigin 1 = 2 ∧
      t.requests.lookup 8 = none ∧ (t.states 1).failure.isSome = true :=
    ⟨_, _, rfl, rfl, rfl, rfl, rfl, rfl, rfl, rfl, rfl⟩
  obtain ⟨s, t, hs, ht, hcall, hcurrent, hnone, hrest⟩ := hrun
  refine ⟨s, t, hs, ht, hcall, hcurrent, hnone, hrest.1, hrest.2.1, hrest.2.2.1, hrest.2.2.2, ?_⟩
  intro hspares
  have hsame := hspares.connection ⟨2, smallAck⟩ hcurrent (by decide)
  rw [hnone, hcurrent] at hsame
  cases hsame

/-- The send of thread 2 fails and takes request 7 from the table. The reader ends, the client
is connected again, and thread 5 registers request 8 before thread 2 has removed its own. -/
def lateRun : List ClientAction :=
  connectRun ++ [.submit { requestId := 7, inputTokenIds := [1], maxNewTokens := 4 },
    .thread 2 .go, .thread 2 .go, .thread 2 .go, .thread 2 .go,
    .thread 2 (.raised (.osError [])), .thread 2 .go, .thread 1 .go,
    .connect, .thread 3 .go, .thread 3 (.message (.helloAck smallAck)), .thread 3 .go, .thread 3 .go,
    .submit { requestId := 8, inputTokenIds := [1], maxNewTokens := 4 }, .thread 5 .go,
    .thread 2 .go, .thread 2 .go, .thread 2 .go, .thread 2 .go, .thread 2 .go]

theorem failures_scoped_lateRun :
    ∃ s t, exec step smallClient lateRun = some s ∧ s.threadStep 2 .go = some t ∧
      (s.threads 2).connection = some 1 ∧ (s.threads 2).pc.pending = some (0, 7) ∧
      t.connection = some ⟨2, smallAck⟩ ∧ t.requests.lookup 8 = some 1 ∧ s.stateOrigin 1 = 2 ∧
      (t.threads 2).pc.isFinished = true ∧ Spares 1 s t := by
  have hrun : ∃ s t, exec step smallClient lateRun = some s ∧ s.threadStep 2 .go = some t ∧
      (s.threads 2).connection = some 1 ∧ (s.threads 2).pc.pending = some (0, 7) ∧
      t.connection = some ⟨2, smallAck⟩ ∧ t.requests.lookup 8 = some 1 ∧ s.stateOrigin 1 = 2 ∧
      (t.threads 2).pc.isFinished = true :=
    ⟨_, _, rfl, rfl, rfl, rfl, rfl, rfl, rfl, rfl⟩
  obtain ⟨s, t, hs, ht, hcall, hpending, hcurrent, hlisted, horigin, hended⟩ := hrun
  have hapart : Along step Apart smallClient lateRun := by decide
  exact ⟨s, t, hs, ht, hcall, hpending, hcurrent, hlisted, horigin, hended,
    failures_scoped _ lateRun s t 2 1 .go hapart hs ht hcall⟩

end GenerationClient

end KimServing.Client

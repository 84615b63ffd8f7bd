import KimServing.Runtime.TerminalGate
import KimServing.Worker.BridgeSteps

/-! # Who answers for an accepted request

An accepted request must end or be cancelled before a stop is over. Until then
somebody answers for it: the handler that is still busy with it, the map of requests
as long as no shutdown has begun, the shutdown that has taken the map, or a thread
that has set the cancel flag and is about to call the runtime. When the stop has
joined all threads, only the requests that have ended or were cancelled are left.
-/
namespace KimServing
open Library Function

def CancelPc.past : CancelPc → Bool
  | .check | .exchange => false
  | .count | .call => true

/-- The request whose cancel flag the handler has set without calling the runtime yet. -/
def HandlerPc.past : HandlerPc → Option ℕ
  | .acceptCancel n _ pc | .cancel n pc => if pc.past then some n else none
  | _ => none

def PumpPc.past : PumpPc → Bool
  | .cancelling pc => pc.past
  | _ => false

def ShutdownPc.past : ShutdownPc → Option ℕ
  | .cancelling n pc _ => if pc.past then some n else none
  | _ => none

def HandlerPc.waits : HandlerPc → Bool
  | .shuttingDown _ => true
  | _ => false

def PumpPc.waits : PumpPc → Bool
  | .shuttingDown _ => true
  | _ => false

/-- Neither on the way to the runtime with a cancel nor in a shutdown. -/
def HandlerPc.free : HandlerPc → Bool
  | .acceptCancel _ _ _ | .cancel _ _ | .shuttingDown _ | .exited => false
  | _ => true

def PumpPc.free : PumpPc → Bool
  | .cancelling pc => !pc.past
  | .shuttingDown _ | .notStarted | .finished => false
  | _ => true

/-- The accepted request that the handler has still to pass on or to cancel. -/
def HandlerPc.owes : HandlerPc → Option ℕ
  | .register n | .emplace n | .spawn n | .spawnFailed n _ | .erase n _ | .abandon n _ | .undo n _
  | .accept n | .acceptFailed n _ | .acceptCancel n _ _ => some n
  | _ => none

def HandlerPc.accepting : HandlerPc → Option ℕ
  | .accept n => some n
  | _ => none

/-- The pump has the terminal event in its hands. -/
def PumpPc.ending : PumpPc → Bool
  | .terminal _ | .enqueueTerminal _ | .markTerminal => true
  | _ => false

def ShutdownPc.owes : ShutdownPc → List ℕ
  | .stopEgress owned | .loop owned => owned
  | .cancelling n _ owned => n :: owned
  | .threw owned => owned
  | _ => []

def ShutdownPc.busy : ShutdownPc → Bool
  | .idle | .finished => false
  | _ => true

def StopperPc.joining : StopperPc → List ℕ
  | .joinPumps owned => owned
  | .joinPump n owned => n :: owned
  | _ => []

/-- How far `stop` has come. With each number one more thread is known to have ended. -/
def StopperPc.rank : StopperPc → ℕ
  | .notCalled | .shutdown | .shuttingDown => 0
  | .sessionStop => 1
  | .joinMonitor => 2
  | .joinWriter => 3
  | .takeRequests => 4
  | .joinPumps _ | .joinPump _ _ => 5
  | .finish | .report | .returned _ => 6

namespace Bridge

def mapped (s : Bridge) : List ℕ := s.requests.map Prod.snd

def committed (s : Bridge) (n : ℕ) : Bool := (s.gates n).state.mailbox.terminalCommitted

def Past (s : Bridge) (n : ℕ) : Prop :=
  s.handler.past = some n ∨ (s.pumps n).past = true ∨ s.shutdown.past = some n

/-- The request has ended or was cancelled, or a thread is on its way to cancel it. -/
def Over (s : Bridge) (n : ℕ) : Prop :=
  s.committed n = true ∨ s.cancelCalled n = true ∨ (s.records n).cancelRequested = true

/-- Nobody has to do anything more about the request, or the shutdown will. -/
def Settled (s : Bridge) (n : ℕ) : Prop :=
  s.Over n ∨ (s.stopRequested = false ∧ n ∈ s.mapped) ∨ n ∈ s.shutdown.owes

def Waiting (s : Bridge) : Prop :=
  s.handler.waits = true ∨ (∃ n, (s.pumps n).waits = true) ∨ s.writer = .shuttingDown ∨
    s.monitor = .shuttingDown ∨ s.stopper = .shuttingDown

/-- A request in the map whose pump the handler has still to start. The handler found its
id free, so that no other entry has it. -/
def Entered (s : Bridge) (n : ℕ) : Prop :=
  s.accepted n = true ∧ s.pumps n = .notStarted ∧ n ∈ s.mapped ∧
    ∀ m, ((s.records n).requestId, m) ∈ s.requests → m = n

def HandlerOk (s : Bridge) : HandlerPc → Prop
  | .reap (.submit _) => s.ids.length - 1 < s.ids.length ∧ s.accepted (s.ids.length - 1) = false
  | .convert n _ | .submit n _ => n < s.ids.length ∧ s.accepted n = false
  | .register n | .emplace n => s.accepted n = true ∧ s.pumps n = .notStarted
  | .spawn n | .spawnFailed n _ | .erase n _ => s.Entered n
  | .abandon n _ | .undo n _ => s.accepted n = true
  | .accept n => s.accepted n = true ∧ n ∈ s.mapped
  | .acceptFailed n _ | .acceptCancel n _ _ | .cancel n _ => s.accepted n = true
  | _ => True

/-- The fields before `joined` fit threads, map and flags together; those up to `emptied`
say whom the stop has waited for, and the last two that nobody is forgotten. -/
structure Custody (s : Bridge) : Prop where
  handler : s.HandlerOk s.handler
  started : ∀ n, s.pumps n ≠ .notStarted → s.accepted n = true
  ending : ∀ n, (s.pumps n).ending = true → s.committed n = true
  sealed : ∀ n, (s.records n).terminalEnqueued = true → s.accepted n = true ∧ s.committed n = true
  finished : ∀ n, (s.records n).pumpFinished = true → s.pumps n = .finished
  fresh : ∀ n, s.ids.length ≤ n → s.accepted n = false
  entries : ∀ n ∈ s.mapped, s.accepted n = true
  taken : ∀ n, n ∈ s.owned ∨ n ∈ s.shutdown.owes → s.accepted n = true
  marked : ∀ n, (s.records n).cancelRequested = true → s.cancelCalled n = true ∨ s.Past n
  joined : ∀ n, s.pumps n ≠ .notStarted → s.pumps n ≠ .finished →
    n ∈ s.mapped ∨ n ∈ s.stopper.joining
  quiet : s.stopRequested = false → s.shutdown = .idle ∧ s.owned = []
  idle : s.shutdown = .idle → s.stopRequested = false
  busy : s.shutdown.busy = true → s.Waiting
  begun : 1 ≤ s.stopper.rank → s.stopRequested = true
  reader : 2 ≤ s.stopper.rank → s.handler = .exited
  monitor : 3 ≤ s.stopper.rank → s.monitor = .exited
  writer : 4 ≤ s.stopper.rank → s.writer = .exited
  emptied : 5 ≤ s.stopper.rank → s.requests = []
  owned : ∀ n ∈ s.owned, s.Settled n
  covered : ∀ n, s.accepted n = true → s.handler.owes = some n ∨ s.Settled n

theorem initial_custody (c : RuntimeBridgeConfig) (e : Ipc.SessionEgress) :
    (initial c e).Custody := by
  refine ⟨trivial, ?_, ?_, ?_, ?_, fun _ _ => rfl, ?_, ?_, ?_, ?_, fun _ => ⟨rfl, rfl⟩, fun _ => rfl,
    ?_, ?_, ?_, ?_, ?_, ?_, ?_, ?_⟩
  all_goals simp [initial, mapped, PumpPc.ending, ShutdownPc.owes, ShutdownPc.busy, StopperPc.rank]

variable {s t s' : Bridge} {n : ℕ} {env : Environment}

theorem setPump_self {pc : PumpPc} : (s.setPump n pc).pumps n = pc := update_self _ _ _

theorem HandlerOk.mono {pc : HandlerPc} (h : s.HandlerOk pc) (hids : t.ids = s.ids)
    (haccepted : t.accepted = s.accepted) (hrequests : t.requests = s.requests)
    (hpumps : ∀ n, s.pumps n = .notStarted → t.pumps n = .notStarted)
    (hid : ∀ n, (t.records n).requestId = (s.records n).requestId) : t.HandlerOk pc := by
  have hentered : ∀ n, s.Entered n → t.Entered n := by
    intro n ⟨haccepted', hoff, hentry, halone⟩
    refine ⟨haccepted ▸ haccepted', hpumps n hoff, ?_, ?_⟩
    · rwa [mapped, hrequests]
    · rwa [hid, hrequests]
  cases pc with
  | reap m =>
    cases m with
    | submit => rwa [HandlerOk, hids, haccepted]
    | _ => trivial
  | convert | submit => rwa [HandlerOk, hids, haccepted]
  | register n | emplace n => exact ⟨haccepted ▸ h.1, hpumps n h.2⟩
  | spawn n | spawnFailed n | erase n => exact hentered n h
  | accept => rwa [HandlerOk, mapped, haccepted, hrequests]
  | abandon | undo | acceptFailed | acceptCancel | cancel => rwa [HandlerOk, haccepted]
  | _ => trivial

namespace Custody

/-! ## One thread moves on -/

theorem go (hs : s.Custody) {p q : HandlerPc} (hpc : s.handler = p) (hok : s.HandlerOk q)
    (howes : ∀ k, p.owes = some k → q.owes = some k ∨ s.Settled k)
    (hpast : ∀ k, p.past = some k → q.past = some k ∨ s.cancelCalled k = true)
    (hwaits : p.waits = true → s.shutdown.busy = false) (hlive : p ≠ .exited) :
    { s with handler := q }.Custody := by
  subst hpc
  exact { hs with
    handler := hok
    marked := fun n hn => by
      rcases hs.marked n hn with h | h | h
      · exact Or.inl h
      · exact (hpast n h).symm.imp_right Or.inl
      · exact Or.inr (Or.inr h)
    busy := fun hbusy => by
      refine (hs.busy hbusy).imp_left fun h => ?_
      cases (hwaits h).symm.trans hbusy
    reader := fun h => absurd (hs.reader h) hlive
    covered := fun n hn => (hs.covered n hn).elim (howes n) Or.inr }

theorem pass (hs : s.Custody) {p q : HandlerPc} (hpc : s.handler = p) (hok : s.HandlerOk q)
    (hfree : p.free = true) (howes : ∀ k, p.owes = some k → q.owes = some k ∨ s.Settled k) :
    { s with handler := q }.Custody := by
  refine hs.go hpc hok howes (fun k hk => ?_) (fun hw => ?_) ?_
  · cases p with
    | acceptCancel | cancel => cases hfree
    | _ => cases hk
  · cases p with
    | shuttingDown => cases hfree
    | _ => cases hw
  · rintro rfl
    cases hfree

theorem move (hs : s.Custody) {p q : HandlerPc} (hpc : s.handler = p) (hok : s.HandlerOk q)
    (hfree : p.free = true) (howes : p.owes = none ∨ q.owes = p.owes) :
    { s with handler := q }.Custody := by
  refine hs.pass hpc hok hfree fun k hk => Or.inl ?_
  rcases howes with h | h
  · cases h.symm.trans hk
  · exact h.trans hk

theorem exit (hs : s.Custody) (hidle : s.handler = .idle ∨ s.handler = .exited) :
    { s with handler := .exited }.Custody := by
  rcases hidle with h | h
  · exact hs.move h trivial rfl (Or.inl rfl)
  · rw [← h]
    exact hs

theorem setPump (hs : s.Custody) {pc : PumpPc} (hok : (s.setPump n pc).HandlerOk s.handler)
    (haccepted : s.accepted n = true) (hjoined : n ∈ s.mapped ∨ n ∈ s.stopper.joining)
    (hrunning : s.pumps n ≠ .finished) (hending : pc.ending = true → s.committed n = true)
    (hwaits : (s.pumps n).waits = true → s.shutdown.busy = false)
    (hpast : (s.pumps n).past = true → pc.past = true ∨ s.cancelCalled n = true) :
    (s.setPump n pc).Custody := by
  have hself : (s.setPump n pc).pumps n = pc := update_self _ _ _
  have hother : ∀ k, k ≠ n → (s.setPump n pc).pumps k = s.pumps k := fun k hk => update_of_ne hk _ _
  refine { hs with
    handler := hok
    started := fun k hk => ?_, ending := fun k hk => ?_, finished := fun k hk => ?_
    marked := fun k hk => ?_, joined := fun k hk hk' => ?_, busy := fun hbusy => ?_ }
  · by_cases hkn : k = n
    · exact hkn ▸ haccepted
    · exact hs.started k (hother k hkn ▸ hk)
  · by_cases hkn : k = n
    · subst hkn
      exact hending (hself ▸ hk)
    · exact hs.ending k (hother k hkn ▸ hk)
  · have hkn : k ≠ n := fun h => hrunning (h ▸ hs.finished k hk)
    rw [hother k hkn]
    exact hs.finished k hk
  · rcases hs.marked k hk with h | h | h | h
    · exact Or.inl h
    · exact Or.inr (Or.inl h)
    · by_cases hkn : k = n
      · subst hkn
        exact (hpast h).symm.imp_right fun h => Or.inr (Or.inl (by rw [hself]; exact h))
      · exact Or.inr (Or.inr (Or.inl (by rw [hother k hkn]; exact h)))
    · exact Or.inr (Or.inr (Or.inr h))
  · by_cases hkn : k = n
    · exact hkn ▸ hjoined
    · exact hs.joined k (hother k hkn ▸ hk) (hother k hkn ▸ hk')
  · refine (hs.busy hbusy).imp_right (Or.imp_left fun ⟨k, h⟩ => ⟨k, ?_⟩)
    have hkn : k ≠ n := by
      rintro rfl
      cases (hwaits h).symm.trans hbusy
    rwa [hother k hkn]

theorem goPump (hs : s.Custody) {pc q : PumpPc} (hpc : s.pumps n = pc)
    (hending : q.ending = true → s.committed n = true)
    (hpast : pc.past = true → q.past = true ∨ s.cancelCalled n = true)
    (hwaits : pc.waits = true → s.shutdown.busy = false)
    (hlive : pc ≠ .notStarted ∧ pc ≠ .finished) : (s.setPump n q).Custody := by
  subst hpc
  refine hs.setPump (hs.handler.mono rfl rfl rfl (fun k hk => ?_) (fun _ => rfl))
    (hs.started n hlive.1) (hs.joined n hlive.1 hlive.2) hlive.2 hending hwaits hpast
  have hkn : k ≠ n := fun h => hlive.1 (h ▸ hk)
  exact (update_of_ne hkn _ _).trans hk

theorem movePump (hs : s.Custody) {pc q : PumpPc} (hpc : s.pumps n = pc) (hfree : pc.free = true)
    (hending : q.ending = true → s.committed n = true) : (s.setPump n q).Custody := by
  refine hs.goPump hpc hending (fun hp => ?_) (fun hw => ?_) ⟨?_, ?_⟩
  · cases pc with
    | cancelling pc =>
      rw [PumpPc.free, Bool.not_eq_true'] at hfree
      cases hfree.symm.trans hp
    | _ => cases hp
  · cases pc with
    | shuttingDown => cases hfree
    | _ => cases hw
  · rintro rfl
    cases hfree
  · rintro rfl
    cases hfree

theorem setWriter (hs : s.Custody) {p : WriterPc} (hexited : s.writer ≠ .exited)
    (hwaits : s.writer = .shuttingDown → s.shutdown.busy = false) :
    { s with writer := p }.Custody :=
  { hs with
    busy := fun hbusy => by
      refine (hs.busy hbusy).imp_right (Or.imp_right (Or.imp_left fun h => ?_))
      cases (hwaits h).symm.trans hbusy
    writer := fun h => absurd (hs.writer h) hexited }

theorem setMonitor (hs : s.Custody) {p : MonitorPc} (hexited : s.monitor ≠ .exited)
    (hwaits : s.monitor = .shuttingDown → s.shutdown.busy = false) :
    { s with monitor := p }.Custody :=
  { hs with
    busy := fun hbusy => by
      refine (hs.busy hbusy).imp_right (Or.imp_right (Or.imp_right (Or.imp_left fun h => ?_)))
      cases (hwaits h).symm.trans hbusy
    monitor := fun h => absurd (hs.monitor h) hexited }

end Custody

def Stage (s : Bridge) : ℕ → Prop
  | 1 => s.stopRequested = true
  | 2 => s.handler = .exited
  | 3 => s.monitor = .exited
  | 4 => s.writer = .exited
  | 5 => s.requests = []
  | _ => True

namespace Custody

theorem setStopper (hs : s.Custody) {pc : StopperPc}
    (hrank : pc.rank ≤ s.stopper.rank ∨ pc.rank = s.stopper.rank + 1 ∧ s.Stage pc.rank)
    (hwaits : s.stopper = .shuttingDown → s.shutdown.busy = false)
    (hjoining : ∀ n ∈ s.stopper.joining, n ∈ pc.joining ∨ s.pumpJoined n = true) :
    { s with stopper := pc }.Custody := by
  have hstage : ∀ r, r ≤ pc.rank → r ≤ s.stopper.rank ∨ s.Stage r := by
    intro r hr
    rcases hrank with h | ⟨h, hnew⟩
    · exact Or.inl (hr.trans h)
    · rcases hr.lt_or_eq with hlt | rfl
      · exact Or.inl (by omega)
      · exact Or.inr hnew
  exact { hs with
    joined := fun n hstarted hrunning => by
      refine (hs.joined n hstarted hrunning).imp_right fun h => (hjoining n h).resolve_right ?_
      unfold pumpJoined
      split <;> simp_all
    busy := fun hbusy => by
      refine (hs.busy hbusy).imp_right (Or.imp_right (Or.imp_right (Or.imp_right fun h => ?_)))
      cases (hwaits h).symm.trans hbusy
    begun := fun h => (hstage 1 h).elim hs.begun id
    reader := fun h => (hstage 2 h).elim hs.reader id
    monitor := fun h => (hstage 3 h).elim hs.monitor id
    writer := fun h => (hstage 4 h).elim hs.writer id
    emptied := fun h => (hstage 5 h).elim hs.emptied id }

theorem stop_of_busy (hs : s.Custody) (h : s.shutdown.busy = true) : s.stopRequested = true := by
  by_contra hstop
  rw [(hs.quiet (by simpa using hstop)).1] at h
  cases h

theorem setShutdown (hs : s.Custody) {pc : ShutdownPc} (hbusy : s.shutdown.busy = true)
    (hidle : pc ≠ .idle) (howes : ∀ n ∈ pc.owes, n ∈ s.shutdown.owes)
    (hleft : ∀ n ∈ s.shutdown.owes, n ∈ pc.owes ∨ s.Over n)
    (hpast : ∀ n, s.shutdown.past = some n → pc.past = some n ∨ s.cancelCalled n = true) :
    { s with shutdown := pc }.Custody := by
  have hstop := hs.stop_of_busy hbusy
  have hsettled : ∀ n, s.Settled n → { s with shutdown := pc }.Settled n := by
    rintro n (h | h | h)
    · exact Or.inl h
    · exact Or.inr (Or.inl h)
    · exact (hleft n h).elim (fun h => Or.inr (Or.inr h)) Or.inl
  exact { hs with
    taken := fun n h => hs.taken n (h.imp_right (howes n))
    marked := fun n hn => by
      rcases hs.marked n hn with h | h | h | h
      · exact Or.inl h
      · exact Or.inr (Or.inl h)
      · exact Or.inr (Or.inr (Or.inl h))
      · exact (hpast n h).symm.imp_right fun h => Or.inr (Or.inr h)
    quiet := fun h => by cases h.symm.trans hstop
    idle := fun h => absurd h hidle
    busy := fun _ => hs.busy hbusy
    owned := fun n hn => hsettled n (hs.owned n hn)
    covered := fun n hn => (hs.covered n hn).imp_right (hsettled n) }

/-! ## Flags, mailboxes and the map -/

theorem updateRecord (hs : s.Custody) {f : RequestRecord → RequestRecord}
    (hid : (f (s.records n)).requestId = (s.records n).requestId)
    (hkeeps : (s.records n).cancelRequested = true → (f (s.records n)).cancelRequested = true)
    (hmarked : (f (s.records n)).cancelRequested = true →
      (s.records n).cancelRequested = true ∨ s.Past n)
    (hsealed : (f (s.records n)).terminalEnqueued = true →
      (s.records n).terminalEnqueued = true ∨ s.accepted n = true ∧ s.committed n = true)
    (hfinished : (f (s.records n)).pumpFinished = true →
      (s.records n).pumpFinished = true ∨ s.pumps n = .finished) :
    (s.updateRecord n f).Custody := by
  have hself : (s.updateRecord n f).records n = f (s.records n) := update_self _ _ _
  have hother : ∀ k, k ≠ n → (s.updateRecord n f).records k = s.records k :=
    fun k hk => update_of_ne hk _ _
  have hsettled : ∀ k, s.Settled k → (s.updateRecord n f).Settled k := by
    refine fun k h => h.imp_left (Or.imp_right (Or.imp_right fun h => ?_))
    by_cases hkn : k = n
    · subst hkn
      rw [hself]
      exact hkeeps h
    · rwa [hother k hkn]
  refine { hs with
    handler := hs.handler.mono rfl rfl rfl (fun _ h => h) (fun k => ?_)
    sealed := fun k hk => ?_, finished := fun k hk => ?_, marked := fun k hk => ?_
    owned := fun k hk => hsettled k (hs.owned k hk)
    covered := fun k hk => (hs.covered k hk).imp_right (hsettled k) }
  all_goals by_cases hkn : k = n
  · subst hkn
    rw [hself, hid]
  · rw [hother k hkn]
  · subst hkn
    exact (hsealed (hself ▸ hk)).elim (hs.sealed k) id
  · exact hs.sealed k (hother k hkn ▸ hk)
  · subst hkn
    exact (hfinished (hself ▸ hk)).elim (hs.finished k) id
  · exact hs.finished k (hother k hkn ▸ hk)
  · subst hkn
    exact (hmarked (hself ▸ hk)).elim (hs.marked k) Or.inr
  · exact hs.marked k (hother k hkn ▸ hk)

theorem forwarding (hs : s.Custody) {f : RequestRecord → RequestRecord}
    (hf : ∀ r, (f r).requestId = r.requestId ∧ (f r).cancelRequested = r.cancelRequested ∧
      (f r).terminalEnqueued = r.terminalEnqueued ∧ (f r).pumpFinished = r.pumpFinished) :
    (s.updateRecord n f).Custody := by
  obtain ⟨hid, hcancel, hterminal, hfinished⟩ := hf (s.records n)
  exact hs.updateRecord hid (hcancel ▸ id) (hcancel ▸ Or.inl) (hterminal ▸ Or.inl)
    (hfinished ▸ Or.inl)

theorem allowForwarding (hs : s.Custody) (n : ℕ) : (s.allowForwarding n).Custody :=
  hs.forwarding fun _ => ⟨rfl, rfl, rfl, rfl⟩

theorem abandonForwarding (hs : s.Custody) (n : ℕ) : (s.abandonForwarding n).Custody :=
  hs.forwarding fun _ => ⟨rfl, rfl, rfl, rfl⟩

theorem mark (hs : s.Custody) (hpast : s.Past n) :
    (s.updateRecord n (fun r => { r with cancelRequested := true })).Custody :=
  hs.updateRecord rfl (fun _ => rfl) (fun _ => Or.inr hpast) Or.inl Or.inl

theorem call (hs : s.Custody) (requestId : ℕ) : (s.runtimeCancel requestId).Custody := by
  have hcalled : ∀ n, s.cancelCalled n = true → (s.runtimeCancel requestId).cancelCalled n = true :=
    fun n h => by simp [runtimeCancel, h]
  have hsettled : ∀ n, s.Settled n → (s.runtimeCancel requestId).Settled n :=
    fun n h => h.imp_left (Or.imp_right (Or.imp_left (hcalled n)))
  exact { hs with
    marked := fun n hn => (hs.marked n hn).imp_left (hcalled n)
    owned := fun n hn => hsettled n (hs.owned n hn)
    covered := fun n hn => (hs.covered n hn).imp_right (hsettled n) }

theorem setGate (hs : s.Custody) {g : Gate}
    (hg : s.committed n = true → g.state.mailbox.terminalCommitted = true) :
    (s.setGate n g).Custody := by
  have hcommitted : ∀ k, s.committed k = true → (s.setGate n g).committed k = true := by
    intro k hk
    by_cases hkn : k = n
    · subst hkn
      simpa [committed, Bridge.setGate] using hg hk
    · simpa [committed, Bridge.setGate, hkn] using hk
  have hsettled : ∀ k, s.Settled k → (s.setGate n g).Settled k :=
    fun k h => h.imp_left (Or.imp_left (hcommitted k))
  exact { hs with
    ending := fun k hk => hcommitted k (hs.ending k hk)
    sealed := fun k hk => (hs.sealed k hk).imp_right (hcommitted k)
    owned := fun k hk => hsettled k (hs.owned k hk)
    covered := fun k hk => (hs.covered k hk).imp_right (hsettled k) }

/-- What leaves the map has ended, and so has its pump. -/
theorem remap (hs : s.Custody) {requests : List (ℕ × ℕ)} (hlive : s.handler ≠ .exited)
    (hok : { s with requests }.HandlerOk s.handler)
    (hentries : ∀ n ∈ requests.map Prod.snd, s.accepted n = true)
    (hlost : ∀ n ∈ s.mapped,
      n ∈ requests.map Prod.snd ∨ s.pumps n = .finished ∧ s.committed n = true) :
    { s with requests }.Custody := by
  have hsettled : ∀ n, s.Settled n → { s with requests }.Settled n := by
    rintro n (h | ⟨hstop, h⟩ | h)
    · exact Or.inl h
    · exact (hlost n h).elim (fun h => Or.inr (Or.inl ⟨hstop, h⟩)) fun h => Or.inl (Or.inl h.2)
    · exact Or.inr (Or.inr h)
  exact { hs with
    handler := hok
    entries := hentries
    joined := fun n hstarted hrunning => (hs.joined n hstarted hrunning).imp_left fun h =>
      (hlost n h).resolve_right fun h => hrunning h.1
    emptied := fun h => absurd (hs.reader (Nat.le_trans (by decide) h)) hlive
    owned := fun n hn => hsettled n (hs.owned n hn)
    covered := fun n hn => (hs.covered n hn).imp_right (hsettled n) }

/-- The first `beginShutdown` takes over the map. -/
theorem enter (hs : s.Custody) (hstop : s.stopRequested = false) (hwaits : s.Waiting)
    (terminalStatus : Status) (state : BridgeState) :
    (s.entered terminalStatus state).Custody := by
  have hidle := (hs.quiet hstop).1
  exact { hs with
    taken := fun n hn => hs.entries n (hn.elim id id)
    marked := fun n hn => by
      rcases hs.marked n hn with h | h | h | h
      · exact Or.inl h
      · exact Or.inr (Or.inl h)
      · exact Or.inr (Or.inr (Or.inl h))
      · rw [hidle] at h
        cases h
    quiet := fun h => by cases h
    idle := fun h => by cases h
    busy := fun _ => hwaits
    begun := fun _ => rfl
    owned := fun n hn => Or.inr (Or.inr hn)
    covered := fun n hn => (hs.covered n hn).imp_right fun h => by
      rcases h with h | h | h
      · exact Or.inl h
      · exact Or.inr (Or.inr h.2)
      · rw [hidle] at h
        cases h }

/-! ## The handler -/

theorem called (haccepted : s.accepted n = true) :
    (s.runtimeCancel (s.records n).requestId).cancelCalled n = true := by
  simp [runtimeCancel, haccepted]

theorem receive (hs : s.Custody) {m : Ipc.Message} (h : s.receive m = some s') : s'.Custody := by
  obtain ⟨hpc, ⟨submit, rfl, rfl⟩ | ⟨hother, rfl⟩⟩ := receive_cases h
  · have hrecord : ∀ k, k ≠ s.ids.length → (s.openRecord submit).records k = s.records k :=
      fun k hk => update_of_ne hk _ _
    have hnew : (s.openRecord submit).records s.ids.length = { requestId := submit.requestId } :=
      update_self _ _ _
    have hsettled : ∀ k, s.accepted k = true → s.Settled k → (s.openRecord submit).Settled k := by
      intro k hk hsettled
      have hne : k ≠ s.ids.length := by
        rintro rfl
        cases hk.symm.trans (hs.fresh _ (Nat.le_refl _))
      refine hsettled.imp_left (Or.imp_right (Or.imp_right fun h => ?_))
      rwa [hrecord k hne]
    have hmoved := hs.move (q := .idle) hpc trivial rfl (Or.inl rfl)
    refine { hmoved with
      handler := ⟨Nat.lt_succ_self _, hs.fresh _ (Nat.le_refl _)⟩
      sealed := fun k hk => ?_, finished := fun k hk => ?_
      fresh := fun k hk => hs.fresh k (Nat.le_of_succ_le hk)
      marked := fun k hk => ?_
      reader := fun h => absurd (hs.reader h) (by simp [hpc])
      owned := fun k hk => hsettled k (hs.taken k (Or.inl hk)) (hs.owned k hk)
      covered := fun k hk => (hmoved.covered k hk).imp_right (hsettled k hk) }
    · by_cases hkn : k = s.ids.length
      · rw [hkn, hnew] at hk
        cases hk
      · exact hs.sealed k (hrecord k hkn ▸ hk)
    · by_cases hkn : k = s.ids.length
      · rw [hkn, hnew] at hk
        cases hk
      · exact hs.finished k (hrecord k hkn ▸ hk)
    · by_cases hkn : k = s.ids.length
      · rw [hkn, hnew] at hk
        cases hk
      · exact hmoved.marked k (hrecord k hkn ▸ hk)
  · refine hs.move hpc ?_ rfl (Or.inl rfl)
    cases m with
    | submit submit => exact absurd rfl (hother submit)
    | _ => trivial

theorem reap (hs : s.Custody) {m : Ipc.Message} (hpc : s.handler = .reap m) :
    { s.reapCompletedRequests with handler := s.dispatch m }.Custody := by
  have hok := hs.handler
  have hs₁ : s.reapCompletedRequests.Custody := by
    refine hs.remap (by simp [hpc]) ?_ (fun n hn => hs.entries n ?_) (fun n hn => ?_)
    · rw [hpc] at hok ⊢
      cases m <;> exact hok
    · exact List.map_subset _ (List.filter_subset_self _) hn
    · obtain ⟨⟨k, n⟩, hentry, rfl⟩ := List.mem_map.mp hn
      by_cases hdone : ((s.records n).pumpFinished && (s.records n).terminalEnqueued) = true
      · rw [Bool.and_eq_true] at hdone
        exact Or.inr ⟨hs.finished n hdone.1, (hs.sealed n hdone.2).2⟩
      · refine Or.inl (List.mem_map.mpr ⟨(k, n), List.mem_filter.mpr ⟨hentry, ?_⟩, rfl⟩)
        simp [hdone]
  rw [hpc] at hok
  refine hs₁.move (p := .reap m) hpc ?_ rfl (Or.inl rfl)
  cases m with
  | submit => exact hok
  | cancel | health =>
    dsimp only [dispatch]
    split <;> trivial
  | _ => trivial

theorem enqueued (hs : s.Custody) {request : GenerationRequest} (hpc : s.handler = .submit n request)
    {g : Gate} : { s.setGate n g with
      accepted := update s.accepted n true, handler := .register n }.Custody := by
  obtain ⟨hlt, hnew⟩ : s.HandlerOk (.submit n request) := hpc ▸ hs.handler
  have hoff : s.pumps n = .notStarted := by
    by_contra h
    cases hnew.symm.trans (hs.started n h)
  have hne : ∀ k, s.accepted k = true → k ≠ n := by
    rintro k hk rfl
    cases hnew.symm.trans hk
  have haccepted : ∀ k, s.accepted k = true → update s.accepted n true k = true :=
    fun k hk => (update_of_ne (hne k hk) _ _).trans hk
  have hgate : ∀ k, k ≠ n → (s.setGate n g).gates k = s.gates k := fun k hk => update_of_ne hk _ _
  have hsettled : ∀ k, k ≠ n → s.Settled k → (s.setGate n g).Settled k := by
    intro k hk hsettled
    refine hsettled.imp_left (Or.imp_left fun h => ?_)
    rwa [committed, hgate k hk]
  have hmoved := hs.move (q := .idle) hpc trivial rfl (Or.inl rfl)
  refine { hmoved with
    handler := ⟨update_self _ _ _, hoff⟩
    started := fun k hk => haccepted k (hs.started k hk)
    ending := fun k hk => ?_
    sealed := fun k hk => ?_
    fresh := fun k hk => (update_of_ne (hlt.trans_le hk).ne' _ _).trans (hs.fresh k hk)
    entries := fun k hk => haccepted k (hs.entries k hk)
    taken := fun k hk => haccepted k (hs.taken k hk)
    reader := fun h => absurd (hs.reader h) (by simp [hpc])
    owned := fun k hk => hsettled k (hne k (hs.taken k (Or.inl hk))) (hs.owned k hk)
    covered := fun k hk => ?_ }
  · have hkn : k ≠ n := by
      rintro rfl
      cases (congrArg PumpPc.ending hoff).symm.trans hk
    show (update s.gates n g k).state.mailbox.terminalCommitted = true
    rw [update_of_ne hkn]
    exact hs.ending k hk
  · obtain ⟨haccepted', hcommitted⟩ := hs.sealed k hk
    refine ⟨haccepted k haccepted', ?_⟩
    show (update s.gates n g k).state.mailbox.terminalCommitted = true
    rwa [update_of_ne (hne k haccepted')]
  · by_cases hkn : k = n
    · exact Or.inl (congrArg some hkn.symm)
    · have hk' : s.accepted k = true := (update_of_ne hkn _ _).symm.trans hk
      refine Or.inr (hsettled k hkn ((hs.covered k hk').resolve_left ?_))
      rw [hpc]
      exact fun h => by cases h

theorem emplace (hs : s.Custody) (hpc : s.handler = .emplace n)
    (hfree : ¬(s.findRequest (s.records n).requestId).isSome = true) :
    { s with requests := ((s.records n).requestId, n) :: s.requests, handler := .spawn n }.Custody := by
  obtain ⟨haccepted, hoff⟩ : s.HandlerOk (.emplace n) := hpc ▸ hs.handler
  have hs₁ : { s with requests := ((s.records n).requestId, n) :: s.requests }.Custody := by
    refine hs.remap (by simp [hpc]) ?_ ?_ (fun k hk => Or.inl (List.mem_cons_of_mem _ hk))
    · rw [hpc]
      exact ⟨haccepted, hoff⟩
    · rintro k (_ | ⟨_, hk⟩)
      · exact haccepted
      · exact hs.entries k hk
  refine hs₁.move (p := .emplace n) hpc ⟨haccepted, hoff, List.mem_cons_self, ?_⟩ rfl (Or.inr rfl)
  rintro m (_ | ⟨_, hm⟩)
  · rfl
  · exact absurd (List.lookup_isSome_iff.mpr ⟨_, hm, by simp⟩) hfree

theorem spawn (hs : s.Custody) (hpc : s.handler = .spawn n) :
    { s.setPump n .waitGate with handler := .accept n }.Custody := by
  obtain ⟨haccepted, hoff, hentry, -⟩ : s.HandlerOk (.spawn n) := hpc ▸ hs.handler
  have hs₁ := hs.move (q := .accept n) hpc ⟨haccepted, hentry⟩ rfl (Or.inr rfl)
  exact hs₁.setPump ⟨haccepted, hentry⟩ haccepted (Or.inl hentry) (by simp [hoff]) (fun h => by cases h)
    (by simp [hoff, PumpPc.waits]) (by simp [hoff, PumpPc.past])

theorem erase (hs : s.Custody) {status : Status} (hpc : s.handler = .erase n status) :
    { s.eraseRequest (s.records n).requestId with handler := .abandon n status }.Custody := by
  obtain ⟨haccepted, hoff, -, halone⟩ : s.HandlerOk (.erase n status) := hpc ▸ hs.handler
  have hs₁ := hs.move (q := .abandon n status) hpc haccepted rfl (Or.inr rfl)
  -- only the entry of the handler's own request is gone
  have hkept : ∀ k ∈ s.mapped, k = n ∨ k ∈ (s.eraseRequest (s.records n).requestId).mapped := by
    intro k hk
    obtain ⟨⟨r, k⟩, hentry, rfl⟩ := List.mem_map.mp hk
    by_cases hr : r = (s.records n).requestId
    · exact Or.inl (halone k (hr ▸ hentry))
    · exact Or.inr (List.mem_map.mpr ⟨(r, k), List.mem_filter.mpr ⟨hentry, by simpa using hr⟩, rfl⟩)
  refine { hs₁ with
    entries := fun k hk => hs.entries k (List.map_subset _ (List.filter_subset_self _) hk)
    joined := fun k hk hk' => (hs.joined k hk hk').imp_left fun h =>
      (hkept k h).resolve_left fun hkn => hk (hkn ▸ hoff)
    emptied := fun h => absurd (hs.reader (Nat.le_trans (by decide) h)) (by simp [hpc])
    owned := fun k hk => ?_, covered := fun k hk => ?_ }
  · rcases hs.owned k hk with h | ⟨hstop, -⟩ | h
    · exact Or.inl h
    · exact absurd ((hs.quiet hstop).2 ▸ hk : k ∈ []) List.not_mem_nil
    · exact Or.inr (Or.inr h)
  · rcases hs₁.covered k hk with h | h | ⟨hstop, h⟩ | h
    · exact Or.inl h
    · exact Or.inr (Or.inl h)
    · exact (hkept k h).imp (fun hkn => congrArg some hkn.symm) fun h => Or.inr (Or.inl ⟨hstop, h⟩)
    · exact Or.inr (Or.inr (Or.inr h))

/-- The handler in `cancelRecord`, for a client that cancels or after an acceptance that
was refused. -/
theorem cancel_handler (hs : s.Custody) {pc : CancelPc} {throws : Bool} {outcome : CancelOutcome}
    {next : CancelPc → HandlerPc} {returned threw : HandlerPc}
    (hnext : next = .cancel n ∨ ∃ status, next = .acceptCancel n status)
    (hreturned : ∀ t : Bridge, t.HandlerOk returned) (hthrew : ∀ t : Bridge, t.HandlerOk threw)
    (hpc : s.handler = next pc) (hc : s.cancelStep n true throws pc = (t, outcome)) :
    { t with handler := outcome.resume next returned threw }.Custody := by
  have hok : ∀ {t : Bridge} pc, t.HandlerOk (next pc) ↔ t.accepted n = true := by
    rcases hnext with rfl | ⟨status, rfl⟩ <;> exact fun _ => Iff.rfl
  have hpast : ∀ pc, (next pc).past = if pc.past then some n else none := by
    rcases hnext with rfl | ⟨status, rfl⟩ <;> exact fun _ => rfl
  have howes : ∀ pc q k, (next pc).owes = some k → (next q).owes = some k ∧ n = k := by
    rcases hnext with rfl | ⟨status, rfl⟩
    · exact fun _ _ _ h => by cases h
    · exact fun _ _ _ h => ⟨h, Option.some.inj h⟩
  have hwaits : ∀ pc, (next pc).waits = true → s.shutdown.busy = false := by
    rcases hnext with rfl | ⟨status, rfl⟩ <;> exact fun _ h => by cases h
  have hlive : ∀ pc, next pc ≠ .exited := by
    rcases hnext with rfl | ⟨status, rfl⟩ <;> simp
  have haccepted : s.accepted n = true := (hok pc).mp (hpc ▸ hs.handler)
  have hgo : ∀ q, (pc.past = true → q.past = true) → { s with handler := next q }.Custody := by
    refine fun q h => hs.go hpc ((hok q).mpr haccepted) (fun k h => Or.inl (howes pc q k h).1)
      (fun k hk => Or.inl ?_) (hwaits pc) (hlive pc)
    rw [hpast] at hk ⊢
    split at hk
    · rwa [if_pos (h ‹_›)]
    · cases hk
  have hreturn : pc.past = false → s.Over n → { s with handler := returned }.Custody := by
    refine fun h hover => hs.go hpc (hreturned s)
      (fun k hk => Or.inr (Or.inl ((howes pc pc k hk).2 ▸ hover))) (fun k hk => ?_) (hwaits pc)
      (hlive pc)
    rw [hpast, h] at hk
    cases hk
  rcases s.cancelStep_cases n true throws pc with
    ⟨rfl, hflag, h⟩ | ⟨rfl, -, h⟩ | ⟨rfl, hflag, h⟩ | ⟨rfl, -, h⟩ | ⟨rfl, h⟩ | ⟨rfl, h⟩ <;>
    cases hc.symm.trans h
  · exact hreturn rfl (Or.inl (hs.sealed n hflag).2)
  · exact hgo .exchange (fun h => by cases h)
  · exact hreturn rfl (Or.inr (Or.inr hflag))
  · exact (hgo .count (fun h => by cases h)).mark (Or.inl (hpast .count))
  · exact { hgo .call (fun _ => rfl) with }
  · have hcalled := called haccepted
    refine (hs.call _).go hpc ?_ (fun k hk => Or.inr ?_) (fun k hk => Or.inr ?_) (hwaits _) (hlive _)
    · cases throws
      · exact hreturned _
      · exact hthrew _
    · exact (howes _ .call k hk).2 ▸ Or.inl (Or.inr (Or.inl hcalled))
    · rw [hpast] at hk
      exact Option.some.inj hk ▸ hcalled

end Custody

section Handler
variable [JsonLib]

def AcceptsOwned (s : Bridge) : BridgeAction → Prop
  | .handler _ => ∀ n ∈ s.handler.accepting, s.stopRequested = true → n ∉ s.owned →
      (s.egress.enqueueControl (wireAccepted s.config (s.records n).requestId)).1.code ≠ .enqueued
  | _ => True

/-- The acceptance is on its way, and the handler forgets the request. -/
theorem Custody.accept (hs : s.Custody) (hguard : s.AcceptsOwned (.handler env))
    (hpc : s.handler = .accept n) (hcode : (s.egress.enqueueControl
      (wireAccepted s.config (s.records n).requestId)).1.code = .enqueued) :
    { s with handler := .allow n }.Custody := by
  obtain ⟨-, hentry⟩ : s.HandlerOk (.accept n) := hpc ▸ hs.handler
  refine hs.pass hpc trivial rfl (fun k hk => Or.inr ?_)
  obtain rfl : n = k := Option.some.inj hk
  cases hstop : s.stopRequested with
  | false => exact Or.inr (Or.inl ⟨hstop, hentry⟩)
  | true =>
    refine hs.owned n ?_
    by_contra howned
    exact hguard n (by simp [hpc, HandlerPc.accepting]) hstop howned hcode

theorem handlerStep_custody (hs : s.Custody) (hguard : s.AcceptsOwned (.handler env))
    (h : s.handlerStep env = some s') : s'.Custody := by
  have hok := hs.handler
  cases handlerStep_move h with
  | reap m hpc => exact hs.reap hpc
  | admitted k request _ _ _ hpc => exact hs.enqueued hpc
  | emplaced k hpc hfree => exact hs.emplace hpc hfree
  | spawned k hpc => exact hs.spawn hpc
  | erase k status hpc => exact hs.erase hpc
  | converted k m request hpc =>
    rw [hpc] at hok
    exact hs.move hpc hok rfl (Or.inl rfl)
  | unspawned k status hpc =>
    rw [hpc] at hok
    exact hs.move hpc hok rfl (Or.inr rfl)
  | registered k hpc =>
    rw [hpc] at hok
    exact { hs.move (q := .emplace k) hpc hok rfl (Or.inr rfl) with }
  | abandon k status hpc =>
    rw [hpc] at hok
    exact { hs.move (q := .undo k status) hpc hok rfl (Or.inr rfl) with }
  | unregistered k status hpc | known k status hpc | unaccepted k error hpc =>
    rw [hpc] at hok
    exact hs.move hpc hok.1 rfl (Or.inr rfl)
  | spawnFailed k status hpc =>
    rw [hpc] at hok
    exact (hs.move (q := .erase k status) hpc hok rfl (Or.inr rfl)).abandonForwarding k
  | acceptFailed k status hpc =>
    rw [hpc] at hok
    exact (hs.move (q := .acceptCancel k status .check) hpc hok rfl (Or.inr rfl)).abandonForwarding k
  | undo k status hpc =>
    rw [hpc] at hok
    refine (hs.call _).pass hpc trivial rfl fun j hj => Or.inr (Or.inl (Or.inr (Or.inl ?_)))
    exact Option.some.inj hj ▸ Custody.called hok
  | accepted k m hpc hm hcode => exact { hs.accept hguard hpc (hm ▸ hcode) with }
  | acceptCancel k status pc c outcome hpc hc =>
    exact hs.cancel_handler (Or.inr ⟨status, rfl⟩) (fun _ => trivial) (fun _ => trivial) hpc hc
  | cancel k pc c outcome hpc hc =>
    exact hs.cancel_handler (Or.inl rfl) (fun _ => trivial) (fun _ => trivial) hpc hc
  | allow k hpc => exact (hs.move (q := .idle) hpc trivial rfl (Or.inl rfl)).allowForwarding k
  | found requestId k hpc hfound =>
    obtain ⟨before, after, heq, -⟩ := List.lookup_eq_some_iff.mp hfound
    exact hs.move hpc (hs.entries k (by simp [mapped, heq])) rfl (Or.inl rfl)
  | enter _ _ _ resume hpc hstop =>
    exact (hs.move (q := .shuttingDown resume) hpc trivial rfl (Or.inl rfl)).enter hstop
      (Or.inl rfl) _ _
  | countRejected k status hpc =>
    exact { hs.move (q := .reject k status) hpc trivial rfl (Or.inl rfl) with }
  | rejected _ _ _ hpc | stats _ hpc =>
    exact { hs.move (q := .idle) hpc trivial rfl (Or.inl rfl) with }
  | report _ _ _ resume hpc =>
    exact { hs.move (q := resume.pc) hpc (by cases resume <;> trivial) rfl (Or.inl rfl) with }
  | resume resume hpc hfinished =>
    exact hs.go hpc (by cases resume <;> trivial) (fun _ h => by cases h) (fun _ h => by cases h)
      (fun _ => by rw [hfinished]; rfl) (by simp)
  | _ => exact hs.move ‹s.handler = _› trivial rfl (Or.inl rfl)

end Handler

/-! ## The pumps -/

theorem Custody.cancel_pump (hs : s.Custody) {pc : CancelPc} {throws : Bool}
    {outcome : CancelOutcome} (hpc : s.pumps n = .cancelling pc)
    (hc : s.cancelStep n false throws pc = (t, outcome)) :
    (t.setPump n (outcome.resume .cancelling .checkStop (.shutdown cancelThrew .loop))).Custody := by
  rcases s.cancelStep_cases n false throws pc with
    ⟨rfl, -, h⟩ | ⟨rfl, -, h⟩ | ⟨rfl, -, h⟩ | ⟨rfl, -, h⟩ | ⟨rfl, h⟩ | ⟨rfl, h⟩ <;>
    cases hc.symm.trans h
  · exact hs.movePump hpc rfl (fun h => by cases h)
  · exact hs.movePump hpc rfl (fun h => by cases h)
  · exact hs.movePump hpc rfl (fun h => by cases h)
  · refine (hs.movePump (q := .cancelling .call) hpc rfl (fun h => by cases h)).mark (Or.inr (Or.inl ?_))
    rw [setPump_self]
    rfl
  · exact { hs.goPump (q := .cancelling .call) hpc (fun h => by cases h) (fun _ => Or.inl rfl)
      (fun h => by cases h) (by simp) with }
  · have haccepted : s.accepted n = true := hs.started n (by simp [hpc])
    exact (hs.call _).goPump hpc (by cases throws <;> exact fun h => by cases h)
      (fun _ => Or.inr (called haccepted)) (fun h => by cases h) (by simp)

theorem Custody.take (hs : s.Custody) (hgate : Gate.GateInv (s.gates n)) (hpc : s.pumps n = .pop) :
    ((s.setGate n (s.gates n).popStep).setPump n
      (.received (s.gates n).state.mailbox.waitPop.1)).Custody := by
  have hkept : (s.gates n).popStep.state.mailbox.terminalCommitted = s.committed n :=
    Gate.popStep_terminalCommitted _
  refine (hs.setGate (hkept ▸ id)).movePump hpc rfl ?_
  rcases (s.gates n).state.mailbox.waitPop_cases with ⟨d, rest, -, h⟩ | ⟨e, -, hslot, h⟩ |
    ⟨-, -, h⟩ <;> rw [h]
  · exact fun h => by cases h
  · refine fun _ => ?_
    simpa [committed, Bridge.setGate] using hkept.trans (hgate.slot e hslot).1
  · dsimp only
    split <;> exact fun h => by cases h

theorem pumpStep_custody [JsonLib] (hs : s.Custody) (hgate : Gate.GateInv (s.gates n))
    (h : s.pumpStep n env = some s') : s'.Custody := by
  have hending := hs.ending n
  cases pumpStep_move h with
  | take hpc => exact hs.take hgate hpc
  | checkStop hpc => exact hs.movePump hpc rfl (by split <;> exact fun h => by cases h)
  | markBackpressure hpc =>
    exact (hs.forwarding (f := fun r => { r with backpressureRequested := true })
      fun _ => ⟨rfl, rfl, rfl, rfl⟩).movePump hpc rfl (fun h => by cases h)
  | cancelling pc c outcome hpc hc => exact hs.cancel_pump hpc hc
  | prepare _ hpc =>
    rw [hpc] at hending
    exact hs.movePump hpc rfl (fun _ => hending rfl)
  | finished _ _ hpc =>
    rw [hpc] at hending
    exact { hs.movePump (q := .markTerminal) hpc rfl (fun _ => hending rfl) with }
  | forwarded _ _ hpc => exact { hs.movePump (q := .checkStop) hpc rfl (fun h => by cases h) with }
  | countBackpressure _ hpc =>
    exact { hs.movePump (q := .markBackpressure) hpc rfl (fun h => by cases h) with }
  | markTerminal hpc =>
    rw [hpc] at hending
    have haccepted := hs.started n (by simp [hpc])
    exact (hs.updateRecord (f := fun r => { r with terminalEnqueued := true }) rfl id Or.inl
      (fun _ => Or.inr ⟨haccepted, hending rfl⟩) Or.inl).movePump hpc rfl (fun h => by cases h)
  | enter _ _ _ resume hpc hstop =>
    refine (hs.movePump (q := .shuttingDown resume) hpc rfl (fun h => by cases h)).enter hstop
      (Or.inr (Or.inl ⟨n, ?_⟩)) _ _
    rw [setPump_self]
    rfl
  | report _ _ _ resume hpc =>
    exact { hs.movePump (q := resume.pc) hpc rfl (by cases resume <;> exact fun h => by cases h) with }
  | resume resume hpc hfinished =>
    exact hs.goPump hpc (by cases resume <;> exact fun h => by cases h) (fun h => by cases h)
      (fun _ => by rw [hfinished]; rfl) (by simp)
  | join hpc hidle => exact (hs.exit hidle).movePump hpc rfl (fun h => by cases h)
  | finish hpc =>
    exact (hs.movePump (q := .finished) hpc rfl (fun h => by cases h)).updateRecord
      (f := fun r => { r with pumpFinished := true }) rfl id Or.inl Or.inl
      fun _ => Or.inr (update_self _ _ _)
  | _ => exact hs.movePump ‹s.pumps n = _› rfl (fun h => by cases h)

/-! ## The writer, the monitor and the caller of stop -/

theorem writerStep_custody (hs : s.Custody) (h : s.writerStep env = some s') : s'.Custody := by
  cases writerStep_move h with
  | enter _ _ _ hpc hstop =>
    exact (hs.setWriter (p := .shuttingDown) (by simp [hpc]) (by simp [hpc])).enter hstop
      (Or.inr (Or.inr (Or.inl rfl))) _ _
  | resume hpc hfinished =>
    exact hs.setWriter (by simp [hpc]) (fun _ => by rw [hfinished]; rfl)
  | join hpc hidle => exact (hs.exit hidle).setWriter (by simp [hpc]) (by simp [hpc])
  | _ =>
    have hpc := ‹s.writer = _›
    exact { hs.setWriter (by simp [hpc]) (by simp [hpc]) with }

theorem monitorStep_custody (hs : s.Custody) (h : s.monitorStep env = some s') : s'.Custody := by
  cases monitorStep_move h with
  | enter _ _ _ hpc hstop =>
    exact (hs.setMonitor (p := .shuttingDown) (by simp [hpc]) (by simp [hpc])).enter hstop
      (Or.inr (Or.inr (Or.inr (Or.inl rfl)))) _ _
  | resume hpc hfinished =>
    exact hs.setMonitor (by simp [hpc]) (fun _ => by rw [hfinished]; rfl)
  | _ =>
    have hpc := ‹s.monitor = _›
    exact { hs.setMonitor (by simp [hpc]) (by simp [hpc]) with }

theorem Custody.takeRequests (hs : s.Custody) (hpc : s.stopper = .takeRequests) :
    { s with requests := [], stopper := .joinPumps s.mapped }.Custody := by
  have hrank : s.stopper.rank = 4 := by rw [hpc]; rfl
  have hstop := hs.begun (by omega)
  have hsettled : ∀ n, s.Settled n → { s with requests := [] }.Settled n :=
    fun n h => h.imp_right (Or.imp_left fun ⟨hfree, _⟩ => by cases hstop.symm.trans hfree)
  exact { hs with
    handler := by rw [hs.reader (by omega)]; trivial
    entries := fun n hn => by cases hn
    joined := fun n hstarted hrunning => by
      refine Or.inr ((hs.joined n hstarted hrunning).resolve_right ?_)
      rw [hpc]
      exact List.not_mem_nil
    busy := fun hbusy => by
      refine (hs.busy hbusy).imp_right (Or.imp_right (Or.imp_right (Or.imp_right fun h => ?_)))
      cases hpc.symm.trans h
    begun := fun _ => hstop
    reader := fun _ => hs.reader (by omega)
    monitor := fun _ => hs.monitor (by omega)
    writer := fun _ => hs.writer (by omega)
    emptied := fun _ => rfl
    owned := fun n hn => hsettled n (hs.owned n hn)
    covered := fun n hn => (hs.covered n hn).imp_right (hsettled n) }

theorem stopperStep_custody (hs : s.Custody) (h : s.stopperStep env = some s') : s'.Custody := by
  -- the next thread has ended
  have hnext {t : Bridge} (ht : t.Custody) {pc q : StopperPc} (hpc : t.stopper = pc)
      (hrank : q.rank = pc.rank + 1) (hstage : t.Stage q.rank) (hjoining : pc.joining = [])
      (hwaits : pc = .shuttingDown → t.shutdown.busy = false) : { t with stopper := q }.Custody := by
    subst hpc
    exact ht.setStopper (Or.inr ⟨hrank, hstage⟩) hwaits (by simp [hjoining])
  have hsame {t : Bridge} (ht : t.Custody) {pc q : StopperPc} (hpc : t.stopper = pc)
      (hrank : q.rank ≤ pc.rank) (hwaits : pc ≠ .shuttingDown)
      (hjoining : ∀ n ∈ pc.joining, n ∈ q.joining ∨ t.pumpJoined n = true) :
      { t with stopper := q }.Custody := by
    subst hpc
    exact ht.setStopper (Or.inl hrank) (fun h => absurd h hwaits) hjoining
  cases stopperStep_move h with
  | enter hpc hstop =>
    exact (hsame hs (q := .shuttingDown) hpc (Nat.le_refl _) (by simp) (fun n h => by cases h)).enter
      hstop (Or.inr (Or.inr (Or.inr (Or.inr rfl)))) _ _
  | report hpc hstop => exact hnext hs hpc rfl hstop rfl (by simp)
  | resume hpc hfinished =>
    have hstop : s.stopRequested = true := by
      by_contra hstop
      cases hfinished.symm.trans (hs.quiet (by simpa using hstop)).1
    exact hnext hs hpc rfl hstop rfl (fun _ => by rw [hfinished]; rfl)
  | join hpc hidle => exact hnext (hs.exit hidle) hpc rfl rfl rfl (by simp)
  | joinMonitor hpc hexited | joinWriter hpc hexited => exact hnext hs hpc rfl hexited rfl (by simp)
  | takeRequests hpc => exact hs.takeRequests hpc
  | joinedPumps hpc => exact hnext hs hpc rfl trivial rfl (by simp)
  | joinPumps owned hpc hpick =>
    refine hsame (hs.abandonForwarding _) hpc (Nat.le_refl _) (by simp) (fun k hk => Or.inl ?_)
    by_cases hkp : k = env.pick
    · exact hkp ▸ List.mem_cons_self
    · exact List.mem_cons_of_mem _ ((List.mem_erase_of_ne hkp).mpr hk)
  | joinPump k owned hpc hjoined =>
    refine hsame hs hpc (Nat.le_refl _) (by simp) (fun j hj => ?_)
    rcases List.mem_cons.mp hj with rfl | hj
    · exact Or.inr hjoined
    · exact Or.inl hj
  | call hpc | returns hpc => exact hsame hs hpc (Nat.le_refl _) (by simp) (fun n h => by cases h)
  | finish _ hpc =>
    exact { hsame hs (q := .report) hpc (Nat.le_refl _) (by simp) (fun n h => by cases h) with }

/-! ## The shutdown and the backend -/

theorem Custody.cancel_shutdown (hs : s.Custody) {pc : CancelPc} {owned : List ℕ} {throws : Bool}
    {outcome : CancelOutcome} (hpc : s.shutdown = .cancelling n pc owned)
    (hc : s.cancelStep n true throws pc = (t, outcome)) : { t with
      shutdown := outcome.resume (.cancelling n · owned) (.loop owned) (.threw owned) }.Custody := by
  have hbusy : s.shutdown.busy = true := by rw [hpc]; rfl
  have howes : s.shutdown.owes = n :: owned := by rw [hpc]; rfl
  have hpast : s.shutdown.past = if pc.past then some n else none := by rw [hpc]; rfl
  have hnext : ∀ q, (pc.past = true → q.past = true) →
      { s with shutdown := .cancelling n q owned }.Custody := by
    refine fun q h => hs.setShutdown hbusy (by simp) (fun k hk => howes ▸ hk)
      (fun k hk => Or.inl (by rwa [howes] at hk)) (fun k hk => Or.inl ?_)
    rw [hpast] at hk
    split at hk
    · rwa [ShutdownPc.past, if_pos (h ‹_›)]
    · cases hk
  have hreturn : pc.past = false → s.Over n → { s with shutdown := .loop owned }.Custody := by
    refine fun h hover => hs.setShutdown hbusy (by simp)
      (fun k hk => howes ▸ List.mem_cons_of_mem _ hk) (fun k hk => ?_) (fun k hk => ?_)
    · rcases List.mem_cons.mp (howes ▸ hk) with rfl | hk
      · exact Or.inr hover
      · exact Or.inl hk
    · rw [hpast, h] at hk
      cases hk
  rcases s.cancelStep_cases n true throws pc with
    ⟨rfl, hflag, h⟩ | ⟨rfl, -, h⟩ | ⟨rfl, hflag, h⟩ | ⟨rfl, -, h⟩ | ⟨rfl, h⟩ | ⟨rfl, h⟩ <;>
    cases hc.symm.trans h
  · exact hreturn rfl (Or.inl (hs.sealed n hflag).2)
  · exact hnext .exchange (fun h => by cases h)
  · exact hreturn rfl (Or.inr (Or.inr hflag))
  · exact (hnext .count (fun h => by cases h)).mark (Or.inr (Or.inr rfl))
  · exact { hnext .call (fun _ => rfl) with }
  · have haccepted := hs.taken n (Or.inr (by rw [howes]; exact List.mem_cons_self))
    have hcalled := called haccepted
    refine (hs.call _).setShutdown hbusy ?_ (fun k hk => ?_) (fun k hk => ?_) (fun k hk => Or.inr ?_)
    · cases throws <;> simp
    · refine howes ▸ List.mem_cons_of_mem _ ?_
      cases throws <;> exact hk
    · rcases List.mem_cons.mp (howes ▸ hk) with rfl | hk
      · exact Or.inr (Or.inr (Or.inl hcalled))
      · refine Or.inl ?_
        cases throws <;> exact hk
    · obtain rfl : n = k := Option.some.inj (hpast.symm.trans hk)
      exact hcalled

theorem shutdownStep_custody (hs : s.Custody) (h : s.shutdownStep env = some s') : s'.Custody := by
  have hsame {t : Bridge} (ht : t.Custody) {pc q : ShutdownPc} (hpc : t.shutdown = pc)
      (hbusy : pc.busy = true) (hidle : q ≠ .idle) (howes : ∀ n, n ∈ q.owes ↔ n ∈ pc.owes)
      (hpast : pc.past = none) : { t with shutdown := q }.Custody := by
    subst hpc
    exact ht.setShutdown hbusy hidle (fun n => (howes n).mp) (fun n h => Or.inl ((howes n).mpr h))
      (fun n h => by rw [hpast] at h; cases h)
  cases shutdownStep_move h with
  | stopEgress owned hpc =>
    exact { hsame hs (q := .loop owned) hpc rfl (by simp) (fun _ => Iff.rfl) rfl with }
  | finish hpc => exact hsame hs hpc rfl (by simp) (fun _ => Iff.rfl) rfl
  | pick owned hpc hpick =>
    refine hsame (hs.abandonForwarding _) hpc rfl (by simp) (fun k => ?_) rfl
    exact (List.perm_cons_erase hpick).symm.mem_iff
  | cancelling k pc owned c outcome hpc hc => exact hs.cancel_shutdown hpc hc
  | enter owned _ _ hpc hstop => cases hpc.symm.trans (hs.quiet hstop).1
  | report owned _ _ hpc =>
    exact { hsame hs (q := .loop owned) hpc rfl (by simp) (fun _ => Iff.rfl) rfl with }

theorem backend_custody (hs : s.Custody) {call : GateCall} (h : s.backend n call = some s') :
    s'.Custody := by
  obtain ⟨-, g, hg, rfl⟩ := backend_cases h
  refine hs.setGate fun hcommitted => ?_
  rcases Gate.step_terminalCommitted hg with hsame | hnew
  · exact hsame.trans hcommitted
  · exact hnew

/-- When the stop is over, all threads have ended and nobody is left to cancel anything. -/
theorem Custody.settled_of_returned (hs : s.Custody) {status : Status}
    (hstopped : s.stopper = .returned status) (haccepted : s.accepted n = true) :
    s.committed n = true ∨ s.cancelCalled n = true := by
  have hrank : s.stopper.rank = 6 := by rw [hstopped]; rfl
  have hstop := hs.begun (by omega)
  have hreader := hs.reader (by omega)
  have hpumps : ∀ k, s.pumps k = .notStarted ∨ s.pumps k = .finished := by
    intro k
    by_contra hrun
    rw [not_or] at hrun
    have hmem := hs.joined k hrun.1 hrun.2
    simp [mapped, hs.emptied (by omega), hstopped, StopperPc.joining] at hmem
  have hfinished : s.shutdown = .finished := by
    have hidle : ¬s.Waiting := by
      rintro (h | ⟨k, h⟩ | h | h | h)
      · simp [hreader, HandlerPc.waits] at h
      · rcases hpumps k with hk | hk <;> simp [hk, PumpPc.waits] at h
      · simp [hs.writer (by omega)] at h
      · simp [hs.monitor (by omega)] at h
      · simp [hstopped] at h
    cases hpc : s.shutdown with
    | finished => rfl
    | idle => cases hstop.symm.trans (hs.idle hpc)
    | _ => exact absurd (hs.busy (by rw [hpc]; rfl)) hidle
  rcases hs.covered n haccepted with h | (h | h | h) | h | h
  · simp [hreader, HandlerPc.owes] at h
  · exact Or.inl h
  · exact Or.inr h
  · rcases hs.marked n h with h | h | h | h
    · exact Or.inr h
    · simp [hreader, HandlerPc.past] at h
    · rcases hpumps n with hk | hk <;> simp [hk, PumpPc.past] at h
    · simp [hfinished, ShutdownPc.past] at h
  · simp [hstop] at h
  · simp [hfinished, ShutdownPc.owes] at h

end Bridge

end KimServing

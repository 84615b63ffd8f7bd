import KimServing.Worker.Registration
import KimServing.Worker.Sending
import KimServing.Worker.Serving
import KimServing.Worker.ShutdownCoverage

/-! # When a request id may come back

A client that has received the Terminal of a request may use its id again, but the
Terminal is on its way before the worker has forgotten the request: the lease is
released, the tables are cleaned up and the pump sets its two flags afterwards. A
Submit that is faster finds the id in a book and is refused. When all of this is done
for every earlier Submit of the id, no book refuses the next one.
-/
namespace KimServing
open Library Function Ipc

theorem Ipc.SessionEgress.registerRequest_exists {e : SessionEgress} {requestId : ℕ}
    (h : (e.registerRequest requestId).1.code = .alreadyExists) :
    e.accepting = true ∧ (e.requests.lookup requestId).isSome = true := by
  unfold SessionEgress.registerRequest at h
  split_ifs at h with hzero haccepting hknown
  · cases h
  · cases h
  · exact ⟨by simpa using haccepting, hknown⟩
  · cases h
  · cases h

theorem AdmissionState.tryAcquire_duplicate {a : AdmissionState} {r : AdmissionRequest}
    (h : (a.tryAcquire r).1 = .duplicateRequestId) : r.requestId ∈ a.activeRequestIds := by
  unfold AdmissionState.tryAcquire at h
  split_ifs at h
  assumption

namespace Serving

/-- The client has received the last word about every earlier Submit of an id before it
sends the id again. -/
def Received (s : Serving) : ServingAction → Prop
  | .bridge (.receive (.submit m)) => s.bridge.ids.count m.requestId ≤ finals m.requestId s.bridge.sent
  | _ => True

/-- `finalizeRequest` has ended for every request that was accepted under this id. -/
def Unclaimed (s : Serving) (requestId : ℕ) : Prop :=
  ∀ n < s.bridge.ids.length, s.bridge.accepted n = true →
    (s.bridge.records n).requestId = requestId → s.finalized n = true

/-- The pumps of this id have set both flags, so that the next message reaps them. -/
def Reapable (s : Bridge) (requestId : ℕ) : Prop :=
  ∀ entry ∈ s.requests, entry.1 = requestId →
    (s.records entry.2).pumpFinished = true ∧ (s.records entry.2).terminalEnqueued = true

/-- An id comes back when the worker is done with it, and the executor does not repeat
the id of a request in the tables. -/
def Settled (s : Serving) : ServingAction → Prop
  | .bridge (.receive (.submit m)) => s.Unclaimed m.requestId ∧ Reapable s.bridge m.requestId
  | .submit (.enqueue executorId _ _) => s.tables.requests.lookup executorId = none
  | _ => True

/-! ## Who holds an id -/

def Unmapped (s : Bridge) (requestId : ℕ) : Prop := ∀ entry ∈ s.requests, entry.1 ≠ requestId

def InHand (s : Serving) : HandlerPc → Prop
  | .reap (.submit m) =>
    s.bridge.accepted (s.bridge.ids.length - 1) = false ∧
      (s.bridge.records (s.bridge.ids.length - 1)).requestId = m.requestId ∧
      s.Unclaimed m.requestId ∧ Reapable s.bridge m.requestId
  | .convert n m =>
    s.bridge.accepted n = false ∧ (s.bridge.records n).requestId = m.requestId ∧
      s.Unclaimed m.requestId ∧ Unmapped s.bridge m.requestId
  | .submit n request =>
    s.bridge.accepted n = false ∧ (s.bridge.records n).requestId = request.context.requestId ∧
      s.Unclaimed request.context.requestId ∧ Unmapped s.bridge request.context.requestId
  | .register n | .emplace n => Unmapped s.bridge (s.bridge.records n).requestId
  | _ => True

structure Filed (s : Serving) : Prop where
  words : ∀ n < s.bridge.ids.length, (s.bridge.records n).requestId < 2 ^ 64
  accepted : ∀ n, s.bridge.accepted n = true → n < s.bridge.ids.length
  finalized : ∀ n, s.finalized n = true → s.bridge.accepted n = true
  mapped : ∀ entry ∈ s.bridge.requests, entry.2 < s.bridge.ids.length

def Open (s : Serving) (n : ℕ) : Prop := s.bridge.accepted n = true ∧ s.finalized n = false

/-- Every active id has a lease, and every lease belongs to an open request or to the
Submit that is being answered. -/
structure Leased (s : Serving) : Prop where
  nodup : s.admission.activeRequestIds.Nodup
  active : ∀ id ∈ s.admission.activeRequestIds, ∃ n lease,
    s.leases n = some lease ∧ lease.requestId = id
  held : ∀ n lease, s.leases n = some lease → n < s.bridge.ids.length ∧
    lease.requestId = .ofNat (s.bridge.records n).requestId ∧
    (s.Open n ∨ s.acquired = true ∧ ∃ request, s.bridge.handler = .submit n request)
  ended : ∀ n, s.bridge.accepted n = true → (s.bridge.gates n).state.phase = .terminal →
    s.leases n = none

def Tabled (s : Serving) : Prop :=
  ∀ r x, s.tables.externalToExecutor.lookup r = some x → ∃ n,
    s.tables.requests.lookup x = some n ∧ s.Open n ∧ (s.bridge.records n).requestId = r ∧
    (s.bridge.gates n).state.externalId = r ∧ (s.bridge.gates n).state.executorId = x

/-- A layer that holds an id has an open request for it. -/
structure ReuseInv (s : Serving) : Prop where
  bridge : s.bridge.Inv
  registrations : s.bridge.RegInv
  sent : s.bridge.SentInv
  filed : s.Filed
  leased : s.Leased
  tabled : s.Tabled
  inHand : s.InHand s.bridge.handler
  duplicates : s.duplicates = []

theorem initial_reuseInv {c : RuntimeBridgeConfig} {e : SessionEgress}
    (he : SessionEgress.create c.makeEgressConfig = .ok e) (admission : AdmissionConfig) :
    (initial c e admission).ReuseInv where
  bridge := Bridge.initial_inv he
  registrations := Bridge.initial_regInv he
  sent := Bridge.initial_sentInv c e
  filed := ⟨by simp [initial, Bridge.initial], by simp [initial, Bridge.initial], by simp [initial],
    by simp [initial, Bridge.initial]⟩
  leased := ⟨by simp [initial], by simp [initial], by simp [initial],
    by simp [initial, Bridge.initial]⟩
  tabled := nofun
  inHand := trivial
  duplicates := rfl

variable {s t : Serving} {n : ℕ}

/-! ## Steps that leave the books alone -/

structure Beside (calls : ℕ → GateCall → Prop) (s t : Serving) : Prop where
  kept : Bridge.Kept calls s.bridge t.bridge
  admission : t.admission = s.admission
  tables : t.tables = s.tables
  leases : t.leases = s.leases
  finalized : t.finalized = s.finalized

/-- The lease of the request that the handler is submitting stays with it. -/
def KeepsCurrent (s t : Serving) : Prop :=
  ∀ n lease request, s.leases n = some lease → s.acquired = true →
    s.bridge.handler = .submit n request → t.acquired = true ∧ t.bridge.handler = .submit n request

section Beside
variable {calls : ℕ → GateCall → Prop} (hb : Beside calls s t)
include hb

theorem Beside.openIff (n : ℕ) : t.Open n ↔ s.Open n := by
  rw [Open, Open, hb.kept.accepted, hb.finalized]

theorem Beside.unclaimed {r : ℕ} (h : s.Unclaimed r) : t.Unclaimed r := by
  intro n hn haccepted hid
  rw [hb.kept.ids] at hn
  rw [hb.kept.accepted] at haccepted
  rw [(hb.kept.records n).requestId] at hid
  rw [hb.finalized]
  exact h n hn haccepted hid

theorem Beside.reapable {r : ℕ} (h : Reapable s.bridge r) : Reapable t.bridge r := by
  intro entry hentry hid
  obtain ⟨hfinished, henqueued⟩ := h entry (hb.kept.requests hentry) hid
  exact ⟨(hb.kept.records entry.2).pumpFinished hfinished,
    (hb.kept.records entry.2).terminalEnqueued henqueued⟩

theorem Beside.unmapped {r : ℕ} (h : Unmapped s.bridge r) : Unmapped t.bridge r :=
  fun entry hentry => h entry (hb.kept.requests hentry)

theorem Beside.inHand {pc : HandlerPc} (h : s.InHand pc) : t.InHand pc := by
  have hid := fun k => (hb.kept.records k).requestId
  cases pc with
  | reap m =>
    cases m with
    | submit =>
      obtain ⟨haccepted, hnamed, hunclaimed, hreapable⟩ := h
      refine ⟨?_, ?_, hb.unclaimed hunclaimed, hb.reapable hreapable⟩
      · rw [hb.kept.accepted, hb.kept.ids]
        exact haccepted
      · rw [hb.kept.ids, hid]
        exact hnamed
    | _ => exact trivial
  | convert | submit =>
    obtain ⟨haccepted, hnamed, hunclaimed, hunmapped⟩ := h
    exact ⟨by rw [hb.kept.accepted]; exact haccepted, by rw [hid]; exact hnamed,
      hb.unclaimed hunclaimed, hb.unmapped hunmapped⟩
  | register n | emplace n =>
    have h : Unmapped s.bridge (s.bridge.records n).requestId := h
    rw [← hid] at h
    exact hb.unmapped h
  | _ => exact trivial

theorem Beside.filed (h : s.Filed) : t.Filed where
  words n hn := by
    rw [hb.kept.ids] at hn
    rw [(hb.kept.records n).requestId]
    exact h.words n hn
  accepted n hn := by
    rw [hb.kept.accepted] at hn
    rw [hb.kept.ids]
    exact h.accepted n hn
  finalized n hn := by
    rw [hb.finalized] at hn
    rw [hb.kept.accepted]
    exact h.finalized n hn
  mapped entry hentry := by
    rw [hb.kept.ids]
    exact h.mapped entry (hb.kept.requests hentry)

theorem Beside.tabled (h : s.Tabled) : t.Tabled := by
  intro r x hx
  rw [hb.tables] at hx
  obtain ⟨n, hn, hopen, hid, hexternal, hexecutor⟩ := h r x hx
  obtain ⟨hexternal', hexecutor'⟩ := hb.kept.gate_ids n
  refine ⟨n, by rw [hb.tables]; exact hn, (hb.openIff n).mpr hopen, ?_, ?_, ?_⟩
  · rw [(hb.kept.records n).requestId]
    exact hid
  · rw [hexternal']
    exact hexternal
  · rw [hexecutor']
    exact hexecutor

theorem Beside.leased (h : s.Leased)
    (hends : ∀ n, calls n .finish → (s.bridge.gates n).holder = some .terminal → s.leases n = none)
    (hcurrent : s.KeepsCurrent t) : t.Leased where
  nodup := by
    rw [hb.admission]
    exact h.nodup
  active id hid := by
    rw [hb.admission] at hid
    rw [hb.leases]
    exact h.active id hid
  held n lease hlease := by
    rw [hb.leases] at hlease
    obtain ⟨hn, hid, hholder⟩ := h.held n lease hlease
    rw [hb.kept.ids, (hb.kept.records n).requestId]
    refine ⟨hn, hid, hholder.imp (hb.openIff n).mpr ?_⟩
    rintro ⟨hacquired, request, hpc⟩
    obtain ⟨hacquired, hpc⟩ := hcurrent n lease request hlease hacquired hpc
    exact ⟨hacquired, request, hpc⟩
  ended n haccepted hphase := by
    rw [hb.kept.accepted] at haccepted
    rw [hb.leases]
    rcases hb.kept.gates n with hsame | ⟨call, hcall, hstep⟩
    · rw [hsame] at hphase
      exact h.ended n haccepted hphase
    · rcases Gate.step_ends hstep hphase with hbefore | ⟨rfl, hholder⟩
      · exact h.ended n haccepted hbefore
      · exact hends n hcall hholder

end Beside

section Steps
variable [JsonLib]

variable {request : GenerationRequest} {a : BridgeAction} {b : Bridge}

theorem ReuseInv.move {calls : ℕ → GateCall → Prop} (hs : s.ReuseInv)
    (hclient : s.bridge.Conforming a) (h : s.bridge.step a = some t.bridge)
    (hb : Beside calls s t)
    (hends : ∀ n, calls n .finish → (s.bridge.gates n).holder = some .terminal → s.leases n = none)
    (hcurrent : s.KeepsCurrent t) (hinHand : t.InHand t.bridge.handler)
    (hduplicates : t.duplicates = []) : t.ReuseInv where
  bridge := hs.bridge.of_simulates (Bridge.step_simulates hs.bridge hclient h)
  registrations := Bridge.step_regInv hs.bridge hs.registrations hclient h
  sent := Bridge.step_sentInv hs.sent h
  filed := hb.filed hs.filed
  leased := hb.leased hs.leased hends hcurrent
  tabled := hb.tabled hs.tabled
  inHand := hinHand
  duplicates := hduplicates

theorem ReuseInv.moveUncalled (hs : s.ReuseInv) (hclient : s.bridge.Conforming a)
    (h : s.bridge.step a = some t.bridge) (hb : Beside (fun _ _ => False) s t)
    (hcurrent : s.KeepsCurrent t) (hinHand : t.InHand t.bridge.handler)
    (hduplicates : t.duplicates = []) : t.ReuseInv :=
  hs.move hclient h hb (fun _ hcall => hcall.elim) hcurrent hinHand hduplicates

theorem ReuseInv.beside (hs : s.ReuseInv) (ha : a.beside = true) (hwaits : s.waits a = false)
    (h : s.bridge.step a = some b) : ReuseInv { s with bridge := b } := by
  have hquiet := Bridge.step_quiet ha h
  have hb : Beside a.calls s { s with bridge := b } := ⟨hquiet.kept, rfl, rfl, rfl, rfl⟩
  have hclient : s.bridge.Conforming a := by
    cases a with
    | receive => cases ha
    | _ => exact trivial
  refine hs.move hclient h hb ?_ ?_ ?_ hs.duplicates
  · intro n hcall hholder
    cases a with
    | backend =>
      obtain ⟨rfl, rfl⟩ := hcall
      simpa [waits, hholder] using hwaits
    | pump => cases hcall.2
    | _ => exact absurd hcall (by simp [BridgeAction.calls])
  · intro n lease request _ hacquired hpc
    rcases hquiet.handler with hsame | ⟨hidle, -⟩
    · exact ⟨hacquired, hsame.trans hpc⟩
    · cases hidle.symm.trans hpc
  · rcases hquiet.handler with hsame | ⟨-, hexited⟩
    · show InHand _ b.handler
      rw [hsame]
      exact hb.inHand hs.inHand
    · show InHand _ b.handler
      rw [hexited]
      trivial

/-! ## The handler -/

omit [JsonLib] in
theorem inHand_resume (s : Serving) (resume : HandlerResume) : s.InHand resume.pc := by
  cases resume <;> exact trivial

omit [JsonLib] in
theorem ReuseInv.found_nil (hs : s.ReuseInv) (a : BridgeAction) : s.found a = [] := by
  cases a with
  | handler =>
    have hhand := hs.inHand
    simp only [found]
    split
    · next n hpc =>
      have hdecision : s.bridge.handler.decision s.bridge.ids = some (n, false) := by rw [hpc]; rfl
      refine if_neg fun hexists => ?_
      obtain ⟨haccepting, hknown⟩ := SessionEgress.registerRequest_exists hexists
      have hfree := (hs.registrations.newest haccepting _ n
        (hs.bridge.lastIndex_deciding hdecision)).blank (by rw [hpc]; simp [HandlerPc.registers])
        (hs.bridge.decision.deciding n hdecision).2 (by rw [hpc]; rfl)
      rw [SessionEgress.registration_eq_none] at hfree
      simp [hfree] at hknown
    · next n hpc =>
      rw [hpc] at hhand
      refine if_neg fun hknown => ?_
      obtain ⟨entry, hentry, hid⟩ := List.lookup_isSome_iff.mp hknown
      exact hhand entry hentry (beq_iff_eq.mp hid).symm
    · rfl
  | _ => rfl

theorem ReuseInv.handler_inHand (hs : s.ReuseInv) {env : Environment}
    (hsubmit : ∀ k request, s.bridge.handler ≠ .submit k request)
    (hemplace : ∀ k, s.bridge.handler ≠ .emplace k) (h : s.bridge.handlerStep env = some b) :
    InHand { s with bridge := b } b.handler := by
  have hb : Beside (fun _ _ => False) s { s with bridge := b } :=
    ⟨Bridge.handlerStep_kept hsubmit hemplace h, rfl, rfl, rfl, rfl⟩
  have hhand := hs.inHand
  cases hpc : s.bridge.handler with
  | submit k request => exact absurd hpc (hsubmit k request)
  | emplace k => exact absurd hpc (hemplace k)
  | idle | exited => simp [Bridge.handlerStep, hpc] at h
  | reap m =>
    rw [hpc] at hhand
    simp only [Bridge.handlerStep, hpc] at h
    cases h
    cases m with
    | submit =>
      -- What can be reaped is reaped now, so the id leaves the map.
      obtain ⟨haccepted, hnamed, hunclaimed, hreapable⟩ := hhand
      refine ⟨haccepted, hnamed, hb.unclaimed hunclaimed, fun entry hentry hid => ?_⟩
      obtain ⟨hmem, hkept⟩ := List.mem_filter.mp hentry
      obtain ⟨hfinished, henqueued⟩ := hreapable entry hmem hid
      simp [hfinished, henqueued] at hkept
    | cancel | health =>
      show InHand _ (if _ then _ else _)
      split <;> exact trivial
    | _ => exact trivial
  | convert =>
    rw [hpc] at hhand
    simp only [Bridge.handlerStep, hpc] at h
    split at h <;> cases h
    · exact trivial
    · next request hrequest =>
      obtain ⟨haccepted, hnamed, hunclaimed, hunmapped⟩ := hhand
      rw [← (convertSubmit_ok hrequest).2.1] at hnamed hunclaimed hunmapped
      exact ⟨haccepted, hnamed, hb.unclaimed hunclaimed, hunmapped⟩
  | register =>
    rw [hpc] at hhand
    simp only [Bridge.handlerStep, hpc] at h
    split at h <;> cases h
    · exact hhand
    · exact trivial
  | shutdown status resume =>
    simp only [Bridge.handlerStep, hpc] at h
    cases h
    dsimp only
    split
    · exact trivial
    · exact inHand_resume _ resume
  | shuttingDown resume =>
    simp only [Bridge.handlerStep, hpc] at h
    split at h <;> cases h
    exact inHand_resume _ resume
  | spawn | reject | accept | lookup | stats | acceptCancel | cancel =>
    simp only [Bridge.handlerStep, hpc] at h
    split at h <;> cases h <;> exact trivial
  | _ =>
    simp only [Bridge.handlerStep, hpc] at h
    cases h
    exact trivial

theorem ReuseInv.handler (hs : s.ReuseInv) {env : Environment}
    (hwaits : s.waits (.handler env) = false) (h : s.bridge.step (.handler env) = some b) :
    ReuseInv { s with bridge := b } := by
  have hsubmit : ∀ k request, s.bridge.handler ≠ .submit k request := by
    intro k request hpc
    simp [waits, hpc] at hwaits
  by_cases hemplace : ∃ k, s.bridge.handler = .emplace k
  · obtain ⟨k, hpc⟩ := hemplace
    have hfound := hs.found_nil (.handler env)
    have hunknown : ¬(s.bridge.findRequest (s.bridge.records k).requestId).isSome = true := by
      simpa [found, hpc] using hfound
    have hdecision : s.bridge.handler.decision s.bridge.ids = some (k, false) := by rw [hpc]; rfl
    have hk := (hs.bridge.decision.deciding k hdecision).1
    have hstep := h
    simp only [Bridge.step, Bridge.handlerStep, hpc, if_neg hunknown, Option.some.injEq] at hstep
    refine ⟨hs.bridge.of_simulates (Bridge.step_simulates hs.bridge (by trivial) h),
      Bridge.step_regInv hs.bridge hs.registrations (by trivial) h, Bridge.step_sentInv hs.sent h,
      ?_, ?_, ?_, ?_, hs.duplicates⟩ <;> subst hstep
    · refine ⟨hs.filed.words, hs.filed.accepted, hs.filed.finalized, fun entry hentry => ?_⟩
      rcases List.mem_cons.mp hentry with rfl | hentry
      · exact Nat.lt_of_succ_le (Nat.le_of_eq hk)
      · exact hs.filed.mapped entry hentry
    · refine ⟨hs.leased.nodup, hs.leased.active, fun n lease hlease => ?_, hs.leased.ended⟩
      obtain ⟨hn, hid, hholder⟩ := hs.leased.held n lease hlease
      refine ⟨hn, hid, Or.inl (hholder.resolve_right ?_)⟩
      rintro ⟨-, request, hsub⟩
      exact hsubmit n request hsub
    · exact hs.tabled
    · trivial
  · have hemplace : ∀ k, s.bridge.handler ≠ .emplace k := fun k hpc => hemplace ⟨k, hpc⟩
    refine hs.moveUncalled (by trivial) h
      ⟨Bridge.handlerStep_kept hsubmit hemplace h, rfl, rfl, rfl, rfl⟩
      (fun n _ request _ _ hpc => absurd hpc (hsubmit n request))
      (hs.handler_inHand hsubmit hemplace h) hs.duplicates

/-! ## A new Submit -/

omit [JsonLib] in
theorem ReuseInv.conforming (hs : s.ReuseInv) (hclient : s.Received (.bridge a)) :
    s.bridge.Conforming a := by
  cases a with
  | receive m =>
    cases m with
    | submit =>
      exact Nat.le_trans hclient hs.sent.sent_prefix.sublist.countP_le
    | _ => exact trivial
  | _ => exact trivial

omit [JsonLib] in
theorem openRecord_requestId (b : Bridge) (m : Submit) {k : ℕ} (hk : k < b.ids.length) :
    (b.openRecord m).records k = b.records k :=
  update_of_ne (Nat.ne_of_lt hk) _ _

section OpenRecord
variable {m : Submit}

omit [JsonLib] in
theorem Filed.openRecord (h : s.Filed) (hword : m.requestId < 2 ^ 64) :
    Filed { s with bridge := s.bridge.openRecord m } where
  words n hn := by
    rcases Nat.lt_succ_iff_lt_or_eq.mp hn with hold | hnew
    · rw [openRecord_requestId s.bridge m hold]
      exact h.words n hold
    · have hself : ((s.bridge.openRecord m).records n).requestId = m.requestId := by
        simp [Bridge.openRecord, hnew]
      rw [hself]
      exact hword
  accepted n hn := Nat.lt_succ_of_lt (h.accepted n hn)
  finalized := h.finalized
  mapped entry hentry := Nat.lt_succ_of_lt (h.mapped entry hentry)

omit [JsonLib] in
theorem Leased.openRecord (h : s.Leased) (hidle : s.bridge.handler = .idle) :
    Leased { s with bridge := s.bridge.openRecord m } where
  nodup := h.nodup
  active := h.active
  held n lease hlease := by
    obtain ⟨hn, hid, hholder⟩ := h.held n lease hlease
    refine ⟨Nat.lt_succ_of_lt hn, ?_, Or.inl (hholder.resolve_right ?_)⟩
    · rw [openRecord_requestId s.bridge m hn]
      exact hid
    · rintro ⟨-, request, hpc⟩
      cases hidle.symm.trans hpc
  ended := h.ended

omit [JsonLib] in
theorem Tabled.openRecord (hfiled : s.Filed) (h : s.Tabled) :
    Tabled { s with bridge := s.bridge.openRecord m } := by
  intro r x hx
  obtain ⟨n, hn, hopen, hid, hgate⟩ := h r x hx
  refine ⟨n, hn, hopen, ?_, hgate⟩
  rw [openRecord_requestId s.bridge m (hfiled.accepted n hopen.1)]
  exact hid

omit [JsonLib] in
theorem openRecord_inHand (hfiled : s.Filed) (hunclaimed : s.Unclaimed m.requestId)
    (hreapable : Reapable s.bridge m.requestId) :
    InHand { s with bridge := s.bridge.openRecord m } (.reap (.submit m)) := by
  have hfresh : s.bridge.accepted s.bridge.ids.length = false := by
    by_contra haccepted
    exact Nat.lt_irrefl _ (hfiled.accepted _ (by simpa using haccepted))
  refine ⟨hfresh, by simp [Bridge.openRecord], fun n hn haccepted hid => ?_, ?_⟩
  · have hn := hfiled.accepted n haccepted
    rw [openRecord_requestId s.bridge m hn] at hid
    exact hunclaimed n hn haccepted hid
  · intro entry hentry hid
    rw [openRecord_requestId s.bridge m (hfiled.mapped entry hentry)]
    exact hreapable entry hentry hid

end OpenRecord

theorem ReuseInv.receive (hs : s.ReuseInv) {m : Message}
    (hclient : s.Received (.bridge (.receive m))) (hsettled : s.Settled (.bridge (.receive m)))
    (hwaits : s.waits (.receive m) = false) (h : s.bridge.step (.receive m) = some b) :
    ReuseInv { s with bridge := b } := by
  have hconforming := hs.conforming hclient
  have hidle : s.bridge.handler = .idle := by
    simp only [Bridge.step, Bridge.receive] at h
    split at h
    · assumption
    · cases h
  have hstep := h
  simp only [Bridge.step, Bridge.receive, hidle] at hstep
  cases m with
  | submit m =>
    obtain ⟨hunclaimed, hreapable⟩ := hsettled
    have hword : m.requestId < 2 ^ 64 := by simpa [waits] using hwaits
    cases hstep
    exact ⟨hs.bridge.of_simulates (Bridge.step_simulates hs.bridge hconforming h),
      Bridge.step_regInv hs.bridge hs.registrations hconforming h, Bridge.step_sentInv hs.sent h,
      hs.filed.openRecord hword, hs.leased.openRecord hidle, hs.tabled.openRecord hs.filed,
      openRecord_inHand hs.filed hunclaimed hreapable, hs.duplicates⟩
  | _ =>
    cases hstep
    refine hs.moveUncalled hconforming h
      ⟨⟨rfl, rfl, fun _ h => h, fun _ => .refl _, fun _ => Or.inl rfl⟩, rfl, rfl, rfl, rfl⟩
      (fun n _ request _ _ hpc => ?_) trivial hs.duplicates
    cases hidle.symm.trans hpc

theorem ReuseInv.bridgeStep (hs : s.ReuseInv) (hclient : s.Received (.bridge a))
    (hsettled : s.Settled (.bridge a)) (h : s.bridgeStep a = some t) : t.ReuseInv := by
  unfold Serving.bridgeStep at h
  split at h
  · cases h
  · next hwaits =>
    have hwaits : s.waits a = false := by simpa using hwaits
    obtain ⟨b, hb, rfl⟩ := Option.map_eq_some_iff.mp h
    rw [hs.found_nil a, List.append_nil]
    cases a with
    | receive => exact hs.receive hclient hsettled hwaits hb
    | handler => exact hs.handler hwaits hb
    | _ => exact hs.beside rfl hwaits hb

/-! ## The answer of the runtime -/

omit [JsonLib] in
theorem giveBack_leased (h : s.Leased) (n : ℕ) : (s.giveBack n).Leased := by
  unfold giveBack
  cases hlease : s.leases n with
  | none => exact h
  | some lease =>
    refine ⟨?_, fun id hid => ?_, fun k other hk => ?_, fun k haccepted hphase => ?_⟩
    · dsimp only
      unfold AdmissionState.release
      split
      · exact h.nodup.erase _
      · exact h.nodup
    · dsimp only at hid ⊢
      have hne : id ≠ lease.requestId ∧ id ∈ s.admission.activeRequestIds := by
        unfold AdmissionState.release at hid
        split at hid
        · exact h.nodup.mem_erase_iff.mp hid
        · next hfree => exact ⟨fun heq => hfree (heq ▸ hid), hid⟩
      obtain ⟨k, other, hk, hother⟩ := h.active id hne.2
      refine ⟨k, other, ?_, hother⟩
      rw [update_of_ne ?_, hk]
      rintro rfl
      rw [hlease] at hk
      cases hk
      exact hne.1 hother.symm
    · dsimp only at hk
      by_cases hkn : k = n
      · subst hkn
        simp at hk
      · rw [update_of_ne hkn] at hk
        exact h.held k other hk
    · dsimp only
      by_cases hkn : k = n
      · subst hkn
        exact update_self _ _ _
      · rw [update_of_ne hkn]
        exact h.ended k haccepted hphase

omit [JsonLib] in
theorem giveBack_leases (s : Serving) (n : ℕ) : (s.giveBack n).leases n = none := by
  unfold giveBack
  split
  · assumption
  · exact update_self _ _ _

omit [JsonLib] in
theorem giveBack_eq (s : Serving) (n : ℕ) :
    ∃ admission leases, s.giveBack n = { s with admission := admission, leases := leases } := by
  unfold giveBack
  split <;> exact ⟨_, _, rfl⟩

omit [JsonLib] in
theorem ReuseInv.giveBack (hs : s.ReuseInv) (n : ℕ) : (s.giveBack n).ReuseInv := by
  have hleased := giveBack_leased hs.leased n
  obtain ⟨admission, leases, heq⟩ := s.giveBack_eq n
  rw [heq] at hleased ⊢
  exact { hs with
    filed := ⟨hs.filed.words, hs.filed.accepted, hs.filed.finalized, hs.filed.mapped⟩,
    leased := hleased }

theorem ReuseInv.refused (hs : s.ReuseInv) {status : Status}
    (hpc : s.bridge.handler = .submit n request) (hfree : s.leases n = none)
    (h : s.answer (.refused status) = some t) : t.ReuseInv := by
  obtain ⟨b, hb, rfl⟩ := Option.map_eq_some_iff.mp h
  have hstep := hb
  simp only [Bridge.step, Bridge.handlerStep, hpc, Option.some.injEq] at hstep
  refine hs.moveUncalled (a := .handler _) (by trivial) hb ?_
    (fun k lease request' hlease _ hk => ?_) ?_ hs.duplicates
  · subst hstep
    exact ⟨⟨rfl, rfl, fun _ h => h, fun _ => .refl _, fun _ => Or.inl rfl⟩, rfl, rfl, rfl, rfl⟩
  · rw [hpc] at hk
    cases hk
    cases hfree.symm.trans hlease
  · subst hstep
    trivial

omit [JsonLib] in
theorem ofNat_injective_of_lt {a b : ℕ} (ha : a < 2 ^ 64) (hb : b < 2 ^ 64)
    (h : UInt64.ofNat a = .ofNat b) : a = b := by
  have hval := congrArg UInt64.toNat h
  rwa [UInt64.toNat_ofNat_of_lt' ha, UInt64.toNat_ofNat_of_lt' hb] at hval

omit [JsonLib] in
theorem ReuseInv.not_active (hs : s.ReuseInv) (hpc : s.bridge.handler = .submit n request)
    (hacquired : s.acquired = false) :
    request.toAdmission.requestId ∉ s.admission.activeRequestIds := by
  intro hactive
  obtain ⟨k, lease, hk, hid⟩ := hs.leased.active _ hactive
  obtain ⟨hknown, hlease, hholder⟩ := hs.leased.held k lease hk
  have hhand := hs.inHand
  rw [hpc] at hhand
  obtain ⟨-, hnamed, hunclaimed, -⟩ := hhand
  have hdecision : s.bridge.handler.decision s.bridge.ids = some (n, false) := by rw [hpc]; rfl
  have hn := (hs.bridge.decision.deciding n hdecision).1
  have hsame : (s.bridge.records k).requestId = request.context.requestId := by
    refine ofNat_injective_of_lt (hs.filed.words k hknown) ?_ (hlease.symm.trans hid)
    rw [← hnamed]
    exact hs.filed.words n (Nat.lt_of_succ_le (Nat.le_of_eq hn))
  rcases hholder with ⟨haccepted, hopen⟩ | ⟨htrue, -⟩
  · rw [hunclaimed k hknown haccepted hsame] at hopen
    cases hopen
  · cases hacquired.symm.trans htrue

omit [JsonLib] in
theorem ReuseInv.not_tabled (hs : s.ReuseInv) (hpc : s.bridge.handler = .submit n request) :
    s.tables.externalToExecutor.lookup request.context.requestId = none := by
  cases hx : s.tables.externalToExecutor.lookup request.context.requestId with
  | none => rfl
  | some x =>
    obtain ⟨k, -, ⟨haccepted, hopen⟩, hsame, -⟩ := hs.tabled _ x hx
    have hhand := hs.inHand
    rw [hpc] at hhand
    rw [hhand.2.2.1 k (hs.filed.accepted k haccepted) haccepted hsame] at hopen
    cases hopen

omit [JsonLib] in
theorem ReuseInv.unleased (hs : s.ReuseInv) (hpc : s.bridge.handler = .submit n request)
    (hacquired : s.acquired = false) : s.leases n = none := by
  cases hlease : s.leases n with
  | none => rfl
  | some lease =>
    have hhand := hs.inHand
    rw [hpc] at hhand
    rcases (hs.leased.held n lease hlease).2.2 with ⟨haccepted, -⟩ | ⟨htrue, -⟩
    · cases hhand.1.symm.trans haccepted
    · cases hacquired.symm.trans htrue

theorem ReuseInv.acquire (hs : s.ReuseInv) (hpc : s.bridge.handler = .submit n request)
    (hacquired : s.acquired = false) (h : s.acquire n request.toAdmission = some t) :
    t.ReuseInv := by
  have hfree := hs.unleased hpc hacquired
  have hinactive := hs.not_active hpc hacquired
  unfold Serving.acquire at h
  cases hcode : (s.admission.tryAcquire request.toAdmission).1 with
  | admitted =>
    simp only [hcode, Option.some.injEq] at h
    obtain ⟨-, hnew, -, -, -, hadmission⟩ := AdmissionState.tryAcquire_admitted hcode
    have hhand := hs.inHand
    rw [hpc] at hhand
    have hdecision : s.bridge.handler.decision s.bridge.ids = some (n, false) := by rw [hpc]; rfl
    have hn := (hs.bridge.decision.deciding n hdecision).1
    subst h
    refine { hs with
      filed := ⟨hs.filed.words, hs.filed.accepted, hs.filed.finalized, hs.filed.mapped⟩,
      leased := ?_ }
    refine ⟨?_, fun id hid => ?_, fun k lease hk => ?_, fun k haccepted hphase => ?_⟩
    · dsimp only
      rw [hadmission]
      exact List.nodup_cons.mpr ⟨hnew, hs.leased.nodup⟩
    · dsimp only at hid ⊢
      rw [hadmission] at hid
      rcases List.mem_cons.mp hid with rfl | hid
      · exact ⟨n, _, update_self _ _ _, rfl⟩
      · obtain ⟨k, lease, hk, hlease⟩ := hs.leased.active id hid
        refine ⟨k, lease, ?_, hlease⟩
        rw [update_of_ne ?_, hk]
        rintro rfl
        cases hfree.symm.trans hk
    · dsimp only at hk
      by_cases hkn : k = n
      · subst hkn
        rw [update_self] at hk
        cases hk
        refine ⟨Nat.lt_of_succ_le (Nat.le_of_eq hn), ?_, Or.inr ⟨rfl, request, hpc⟩⟩
        exact congrArg UInt64.ofNat hhand.2.1.symm
      · rw [update_of_ne hkn] at hk
        obtain ⟨hknown, hid, hholder⟩ := hs.leased.held k lease hk
        refine ⟨hknown, hid, Or.inl (hholder.resolve_right ?_)⟩
        rintro ⟨htrue, -⟩
        cases hacquired.symm.trans htrue
    · dsimp only
      rw [update_of_ne ?_]
      · exact hs.leased.ended k haccepted hphase
      · rintro rfl
        cases hhand.1.symm.trans haccepted
  | duplicateRequestId => exact absurd (AdmissionState.tryAcquire_duplicate hcode) hinactive
  | _ =>
    simp only [hcode] at h
    exact hs.refused hpc hfree h

theorem ReuseInv.accepted (hs : s.ReuseInv) {executorId promptTokens : ℕ}
    {mailbox : GenerationMailboxConfig} (hpc : s.bridge.handler = .submit n request)
    (hfresh : s.tables.requests.lookup executorId = none)
    (h : answer { s with tables := ⟨s.tables.requests.insert executorId n,
        s.tables.externalToExecutor.insert request.context.requestId executorId⟩ }
      (.accepted executorId promptTokens mailbox) = some t) : t.ReuseInv := by
  obtain ⟨b, hb, rfl⟩ := Option.map_eq_some_iff.mp h
  have hstep := hb
  simp only [Bridge.step, Bridge.handlerStep, hpc, Option.some.injEq] at hstep
  have hhand := hs.inHand
  rw [hpc] at hhand
  obtain ⟨hunaccepted, hnamed, hunclaimed, hunmapped⟩ := hhand
  have hdecision : s.bridge.handler.decision s.bridge.ids = some (n, false) := by rw [hpc]; rfl
  have hn : n < s.bridge.ids.length :=
    Nat.lt_of_succ_le (Nat.le_of_eq (hs.bridge.decision.deciding n hdecision).1)
  have hunfinalized : s.finalized n = false := by
    by_contra hfinalized
    rw [hs.filed.finalized n (by simpa using hfinalized)] at hunaccepted
    cases hunaccepted
  -- The other requests are accepted as before, and this one is open now.
  have haccepted : ∀ k, b.accepted k = true ↔ k = n ∨ s.bridge.accepted k = true := by
    intro k
    rw [← hstep]
    by_cases hkn : k = n
    · simp [hkn]
    · simp [hkn]
  have hgates : ∀ k, k ≠ n → b.gates k = s.bridge.gates k := by
    intro k hkn
    rw [← hstep]
    exact update_of_ne hkn _ _
  have hgate : b.gates n =
      .initial (s.bridge.records n).requestId executorId promptTokens mailbox := by
    rw [← hstep]
    exact update_self _ _ _
  have hids : b.ids = s.bridge.ids := by rw [← hstep]; rfl
  have hrecords : b.records = s.bridge.records := by rw [← hstep]; rfl
  have hrequests : b.requests = s.bridge.requests := by rw [← hstep]; rfl
  have hhandler : b.handler = .register n := by rw [← hstep]
  refine ⟨hs.bridge.of_simulates (Bridge.step_simulates hs.bridge (by trivial) hb),
    Bridge.step_regInv hs.bridge hs.registrations (by trivial) hb, Bridge.step_sentInv hs.sent hb,
    ⟨fun k hk => ?_, fun k hk => ?_, fun k hk => ?_, fun entry hentry => ?_⟩,
    ⟨hs.leased.nodup, hs.leased.active, fun k lease hk => ?_, fun k hk hphase => ?_⟩,
    fun r x hx => ?_, ?_, hs.duplicates⟩
  · dsimp only at hk ⊢
    rw [hids] at hk
    rw [hrecords]
    exact hs.filed.words k hk
  · dsimp only at hk ⊢
    rw [hids]
    rcases (haccepted k).mp hk with rfl | hk
    · exact hn
    · exact hs.filed.accepted k hk
  · exact (haccepted k).mpr (Or.inr (hs.filed.finalized k hk))
  · dsimp only at hentry ⊢
    rw [hrequests] at hentry
    rw [hids]
    exact hs.filed.mapped entry hentry
  · obtain ⟨hknown, hid, hholder⟩ := hs.leased.held k lease hk
    dsimp only
    rw [hids, hrecords]
    refine ⟨hknown, hid, Or.inl ?_⟩
    rcases hholder with ⟨hk, hopen⟩ | ⟨-, request', hk⟩
    · exact ⟨(haccepted k).mpr (Or.inr hk), hopen⟩
    · rw [hpc] at hk
      cases hk
      exact ⟨(haccepted n).mpr (Or.inl rfl), hunfinalized⟩
  · dsimp only at hk hphase ⊢
    by_cases hkn : k = n
    · rw [hkn, hgate] at hphase
      cases hphase
    · rw [hgates k hkn] at hphase
      exact hs.leased.ended k (((haccepted k).mp hk).resolve_left hkn) hphase
  · dsimp only at hx ⊢
    rw [lookup_insert_eq] at hx
    split at hx
    · next hr =>
      cases hx
      refine ⟨n, AList.lookup_insert _, ⟨(haccepted n).mpr (Or.inl rfl), hunfinalized⟩, ?_, ?_, ?_⟩
      · rw [hrecords, hnamed, hr]
      · rw [hgate, hr, ← hnamed]
        rfl
      · rw [hgate]
        rfl
    · obtain ⟨k, hk, ⟨hkaccepted, hkopen⟩, hid, hexternal, hexecutor⟩ := hs.tabled r x hx
      have hkn : k ≠ n := by
        rintro rfl
        cases hunaccepted.symm.trans hkaccepted
      refine ⟨k, ?_, ⟨(haccepted k).mpr (Or.inr hkaccepted), hkopen⟩, ?_, ?_, ?_⟩
      · rw [lookup_insert_eq, if_neg ?_, hk]
        rintro rfl
        cases hfresh.symm.trans hk
      · rw [hrecords, hid]
      · rw [hgates k hkn, hexternal]
      · rw [hgates k hkn, hexecutor]
  · dsimp only
    rw [hhandler]
    intro entry hentry
    dsimp only at hentry ⊢
    rw [hrequests] at hentry
    rw [hrecords, hnamed]
    exact hunmapped entry hentry

theorem ReuseInv.submitStep (hs : s.ReuseInv) {move : SubmitMove}
    (hsettled : s.Settled (.submit move)) (h : s.submitStep move = some t) : t.ReuseInv := by
  unfold Serving.submitStep at h
  split at h
  · next n request hpc =>
    have hpc' : (s.giveBack n).bridge.handler = .submit n request := by
      obtain ⟨admission, leases, heq⟩ := s.giveBack_eq n
      rw [heq]
      exact hpc
    split at h
    · next hacquired => exact hs.refused hpc (hs.unleased hpc hacquired) h
    · next hacquired => exact hs.acquire hpc hacquired h
    · exact (hs.giveBack n).refused hpc' (s.giveBack_leases n) h
    · next executorId promptTokens mailbox _ =>
      have hfresh : s.tables.requests.lookup executorId = none := hsettled
      have hentered : s.tables.enqueue request.context.requestId executorId n =
          (.entered, ⟨s.tables.requests.insert executorId n,
            s.tables.externalToExecutor.insert request.context.requestId executorId⟩) := by
        simp [RequestTables.enqueue, hs.not_tabled hpc, hfresh]
      simp only [enqueue, hentered] at h
      exact hs.accepted hpc hfresh h
    · cases h
  · cases h

/-! ## The end of a request -/

omit [JsonLib] in
theorem ReuseInv.release (hs : s.ReuseInv) (h : s.release n = some t) : t.ReuseInv := by
  unfold Serving.release at h
  split at h
  · cases h
    exact hs.giveBack n
  · cases h

omit [JsonLib] in
theorem ReuseInv.erase (hs : s.ReuseInv) (h : s.erase n = some t) : t.ReuseInv := by
  unfold Serving.erase at h
  split at h
  · next hended =>
    obtain ⟨haccepted, hphase⟩ := hended
    cases h
    have hgrows : ∀ k, s.finalized k = true → update s.finalized n true k = true := by
      intro k hk
      by_cases hkn : k = n
      · simp [hkn]
      · simp [hkn, hk]
    have hunclaimed : ∀ r, s.Unclaimed r → Unclaimed { s with
        tables := s.tables.erase (s.bridge.gates n).state n
        finalized := update s.finalized n true } r :=
      fun r hr k hk hkaccepted hid => hgrows k (hr k hk hkaccepted hid)
    refine { hs with
      filed := ⟨hs.filed.words, hs.filed.accepted, fun k hk => ?_, hs.filed.mapped⟩,
      leased := ⟨hs.leased.nodup, hs.leased.active, fun k lease hk => ?_, hs.leased.ended⟩,
      tabled := fun r x hx => ?_, inHand := ?_ }
    · by_cases hkn : k = n
      · exact hkn ▸ haccepted
      · exact hs.filed.finalized k (by simpa [hkn] using hk)
    · obtain ⟨hknown, hid, hholder⟩ := hs.leased.held k lease hk
      refine ⟨hknown, hid, hholder.imp_left fun ⟨hkaccepted, hkopen⟩ => ⟨hkaccepted, ?_⟩⟩
      have hkn : k ≠ n := by
        rintro rfl
        rw [hs.leased.ended k haccepted hphase] at hk
        cases hk
      exact (update_of_ne hkn _ _).trans hkopen
    · dsimp only [RequestTables.erase] at hx ⊢
      split at hx
      · next hself =>
        rw [if_pos hself]
        dsimp only at hx ⊢
        rw [lookup_erase_eq] at hx
        split at hx
        · cases hx
        · next hr =>
          obtain ⟨k, hk, ⟨hkaccepted, hkopen⟩, hid, hexternal, hexecutor⟩ := hs.tabled r x hx
          have hkn : k ≠ n := by
            rintro rfl
            exact hr hexternal.symm
          refine ⟨k, ?_, ⟨hkaccepted, (update_of_ne hkn _ _).trans hkopen⟩, hid, hexternal,
            hexecutor⟩
          rw [lookup_erase_eq, if_neg ?_, hk]
          rintro rfl
          rw [hself] at hk
          exact hkn (Option.some.inj hk).symm
      · next hother =>
        rw [if_neg hother]
        obtain ⟨k, hk, ⟨hkaccepted, hkopen⟩, hid, hexternal, hexecutor⟩ := hs.tabled r x hx
        have hkn : k ≠ n := by
          rintro rfl
          exact hother (hexecutor ▸ hk)
        exact ⟨k, hk, ⟨hkaccepted, (update_of_ne hkn _ _).trans hkopen⟩, hid, hexternal,
          hexecutor⟩
    · have hhand := hs.inHand
      dsimp only
      cases hpc : s.bridge.handler with
      | reap m =>
        rw [hpc] at hhand
        cases m with
        | submit => exact ⟨hhand.1, hhand.2.1, hunclaimed _ hhand.2.2.1, hhand.2.2.2⟩
        | _ => trivial
      | convert | submit =>
        rw [hpc] at hhand
        exact ⟨hhand.1, hhand.2.1, hunclaimed _ hhand.2.2.1, hhand.2.2.2⟩
      | register | emplace =>
        rw [hpc] at hhand
        exact hhand
      | _ => trivial
  · cases h

theorem step_reuseInv {a : ServingAction} (hs : s.ReuseInv) (hclient : s.Received a)
    (hsettled : s.Settled a) (h : s.step a = some t) : t.ReuseInv := by
  cases a with
  | bridge => exact hs.bridgeStep hclient hsettled h
  | submit => exact hs.submitStep hsettled h
  | release => exact hs.release h
  | erase => exact hs.erase h

end Steps

end Serving

/-- In every run where ids come back after their last word was received and after the
worker is done with them, no layer refuses a Submit as a duplicate. -/
theorem settled_id_reusable [JsonLib] (c : RuntimeBridgeConfig) (e : SessionEgress)
    (admission : AdmissionConfig) (actions : List ServingAction) (s : Serving)
    (he : SessionEgress.create c.makeEgressConfig = .ok e)
    (hclient : Along Serving.step Serving.Received (.initial c e admission) actions)
    (hsettled : Along Serving.step Serving.Settled (.initial c e admission) actions)
    (hrun : exec Serving.step (.initial c e admission) actions = some s) : s.duplicates = [] :=
  (exec_invariant (fun _ _ _ hs hguard h => Serving.step_reuseInv hs hguard.1 hguard.2 h)
    (Serving.initial_reuseInv he admission) (hclient.and hsettled) hrun).duplicates

namespace Serving

instance decidableReceivedBridge (s : Serving) (a : BridgeAction) :
    Decidable (s.Received (.bridge a)) := by
  cases a with
  | receive m =>
    cases m with
    | submit m =>
      exact inferInstanceAs
        (Decidable (s.bridge.ids.count m.requestId ≤ finals m.requestId s.bridge.sent))
    | _ => exact isTrue trivial
  | _ => exact isTrue trivial

instance decidableReceived (s : Serving) : ∀ a : ServingAction, Decidable (s.Received a)
  | .bridge a => decidableReceivedBridge s a
  | .submit _ | .release _ | .erase _ => isTrue trivial

instance decidableUnclaimed (s : Serving) (requestId : ℕ) : Decidable (s.Unclaimed requestId) :=
  inferInstanceAs (Decidable (∀ n < s.bridge.ids.length, s.bridge.accepted n = true →
    (s.bridge.records n).requestId = requestId → s.finalized n = true))

instance decidableReapable (s : Bridge) (requestId : ℕ) : Decidable (Reapable s requestId) :=
  inferInstanceAs (Decidable (∀ entry ∈ s.requests, entry.1 = requestId → _ ∧ _))

instance decidableSettledBridge (s : Serving) (a : BridgeAction) :
    Decidable (s.Settled (.bridge a)) := by
  cases a with
  | receive m =>
    cases m with
    | submit m =>
      exact inferInstanceAs
        (Decidable (s.Unclaimed m.requestId ∧ Reapable s.bridge m.requestId))
    | _ => exact isTrue trivial
  | _ => exact isTrue trivial

instance decidableSettled (s : Serving) : ∀ a : ServingAction, Decidable (s.Settled a)
  | .bridge a => decidableSettledBridge s a
  | .submit (.enqueue executorId _ _) =>
    inferInstanceAs (Decidable (s.tables.requests.lookup executorId = none))
  | .submit (.refuse _) | .submit .acquire | .submit (.drop _) | .release _
  | .erase _ => isTrue trivial

end Serving

def submitSeven : List ServingAction :=
  [.bridge (.receive (.submit plainSubmit)), .bridge (.handler {}), .bridge (.handler {})]

/-- A request is accepted, the mailbox takes its terminal event, and the client gets its
Terminal. The commit of the event has not returned, and the pump has not set its flags. -/
def firstLife : List ServingAction :=
  submitSeven ++ [.submit .acquire, .submit (.enqueue 1 1 {})] ++
    List.replicate 5 (.bridge (.handler {})) ++
    [.bridge (.backend 0 (.finalize .success (some .eos)))] ++
    List.replicate 5 (.bridge (.pump 0 {})) ++ List.replicate 8 (.bridge (.writer {}))

def cleanUp : List ServingAction := [.release 0, .bridge (.backend 0 .finish), .erase 0]

def secondLife : List ServingAction :=
  submitSeven ++ [.submit .acquire, .submit (.enqueue 2 1 {})] ++
    List.replicate 2 (.bridge (.handler {}))

def ordinaryServing : Serving :=
  .initial (.ofLimits 1 ordinaryLimits)
    { config := (RuntimeBridgeConfig.ofLimits 1 ordinaryLimits).makeEgressConfig } {}

def settledRun : List ServingAction :=
  firstLife ++ cleanUp ++ List.replicate 2 (.bridge (.pump 0 {})) ++ secondLife

theorem settled_id_reusable_seven :
    ∃ s, exec (@Serving.step plainJson) ordinaryServing settledRun = some s ∧
      s.bridge.requests = [(7, 1)] ∧ s.duplicates = [] := by
  have hrun : Along (@Serving.step plainJson) Serving.Received ordinaryServing settledRun ∧
      Along (@Serving.step plainJson) Serving.Settled ordinaryServing settledRun ∧
      (exec (@Serving.step plainJson) ordinaryServing settledRun).any
        (fun s => s.bridge.requests = [(7, 1)]) = true := by
    decide +kernel
  obtain ⟨hclient, hsettled, hany⟩ := hrun
  obtain ⟨s, hs, hmapped⟩ := (Option.any_eq_true _ _).mp hany
  exact ⟨s, hs, of_decide_eq_true hmapped,
    @settled_id_reusable plainJson _ _ _ _ s rfl hclient hsettled hs⟩

def refusals (actions : List ServingAction) : Option (List (ℕ × Layer)) :=
  (exec (@Serving.step plainJson) ordinaryServing actions).map Serving.duplicates

/-- The client answers its Terminal at once with the same id. Whichever of the three
clean-ups is still to come refuses it: the release of the lease, the tables, or the
flags of the pump. -/
theorem received_id_refused :
    Along (@Serving.step plainJson) Serving.Received ordinaryServing
        (firstLife ++ submitSeven ++ [.submit .acquire]) ∧
      refusals (firstLife ++ submitSeven ++ [.submit .acquire]) = some [(1, .admission)] ∧
    Along (@Serving.step plainJson) Serving.Received ordinaryServing
        (firstLife ++ [.release 0] ++ submitSeven ++
          [.submit .acquire, .submit (.enqueue 2 1 {})]) ∧
      refusals (firstLife ++ [.release 0] ++ submitSeven ++
        [.submit .acquire, .submit (.enqueue 2 1 {})]) = some [(1, .backend)] ∧
    Along (@Serving.step plainJson) Serving.Received ordinaryServing
        (firstLife ++ cleanUp ++ secondLife) ∧
      refusals (firstLife ++ cleanUp ++ secondLife) = some [(1, .bridge)] := by
  decide +kernel

end KimServing

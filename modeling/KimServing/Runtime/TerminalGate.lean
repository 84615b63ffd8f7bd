import KimServing.Runtime.RequestState

/-! # One terminal event, after every delta

The two locked objects of a request agree in every interleaving: the mailbox
holds exactly the committed deltas that were not received yet, the sequence
number and the usage count the committed deltas, and the terminal slot is filled
at most once. A call between its two halves is accounted for by its pending
commit, so the invariant holds between the halves too.
-/
namespace KimServing.Gate
open Library List

variable {g g' : Gate} {call : GateCall} {r : GateResult} {rs : RequestState}

def pendingDeltas : Option PendingCommit → ℕ
  | some (.delta _) => 1
  | _ => 0

def pendingTokens : Option PendingCommit → ℕ
  | some (.delta tokenCount) => tokenCount
  | _ => 0

def IsLast : MailboxWaitResult → Prop
  | .event (.terminal _) | .closed => True
  | _ => False

def OnlyClosedAfter (earlier later : MailboxWaitResult) : Prop := IsLast earlier → later = .closed

def Drained (mb : GenerationMailbox) : Prop :=
  mb.deltas = [] ∧ mb.terminal = none ∧ mb.closed = true

structure GateInv (g : Gate) : Prop where
  numbered : g.committed.map TokenDelta.sequenceNo = List.range g.committed.length
  kept : g.committed = g.delivered ++ g.state.mailbox.deltas
  queuedTokens : g.state.mailbox.queuedTokens = tokenTotal g.state.mailbox.deltas
  sequence : g.state.nextSequenceNo + pendingDeltas g.holder = g.committed.length
  usage : g.state.completionTokens + pendingTokens g.holder = tokenTotal g.committed
  decided : g.state.mailbox.terminalCommitted = true ↔
    g.state.phase = .terminal ∨ g.holder = some .terminal
  pendingDelta : ∀ n, g.holder = some (.delta n) →
    g.state.phase ≠ .terminal ∧ g.state.phase ≠ .cancelling
  pendingTerminal : g.holder = some .terminal → g.state.phase ≠ .terminal
  slot : ∀ t, g.state.mailbox.terminal = some t →
    g.state.mailbox.terminalCommitted = true ∧ t.usage.completionTokens = tokenTotal g.committed
  events : ∃ last : Option TerminalEvent,
    g.popped = g.delivered.map GenerationEvent.delta ++ last.toList.map GenerationEvent.terminal ∧
    ∀ t, last = some t → Drained g.state.mailbox ∧ g.state.mailbox.terminalCommitted = true ∧
      t.usage.completionTokens = tokenTotal g.committed
  drained : MailboxWaitResult.closed ∈ g.waits → Drained g.state.mailbox
  lastWord : g.waits.Pairwise OnlyClosedAfter
  once : g.log.count (.terminal .committed) = if g.state.phase = .terminal then 1 else 0

theorem initial_inv (externalId executorId promptTokens : ℕ) (config : GenerationMailboxConfig) :
    GateInv (initial externalId executorId promptTokens config) where
  numbered := rfl
  kept := rfl
  queuedTokens := rfl
  sequence := rfl
  usage := rfl
  decided := by simp [initial]
  pendingDelta := by simp [initial]
  pendingTerminal := by simp [initial]
  slot := by simp [initial]
  events := ⟨none, rfl, by simp⟩
  drained := by simp [initial, waits]
  lastWord := by simp [initial, waits]
  once := rfl

/-! ## Histories -/

theorem waits_append (g : Gate) (r : GateResult) :
    ({ g with log := g.log ++ [r] } : Gate).waits =
      g.waits ++ (match r with | .popped w => [w] | _ => []) := by
  simp only [waits, filterMap_append]
  cases r <;> rfl

theorem waits_answer (g : Gate) (rs : RequestState) (hr : ∀ w, r ≠ .popped w) :
    (g.answer rs r).waits = g.waits := by
  cases r with
  | popped w => exact absurd rfl (hr w)
  | _ => simp [answer, waits]

theorem popped_answer (g : Gate) (rs : RequestState) (hr : ∀ w, r ≠ .popped w) :
    (g.answer rs r).popped = g.popped := by simp only [popped, waits_answer g rs hr]

theorem waits_popStep (g : Gate) : g.popStep.waits = g.waits ++ [g.state.mailbox.waitPop.1] :=
  waits_append (g.setMailbox g.state.mailbox.waitPop.2) (.popped g.state.mailbox.waitPop.1)

theorem popped_append (ws : List MailboxWaitResult) (w : MailboxWaitResult) :
    eventsOf (ws ++ [w]) = eventsOf ws ++ (match w with | .event e => [e] | _ => []) := by
  simp only [eventsOf, filterMap_append]
  cases w <;> rfl

theorem deltasOf_append (es fs : List GenerationEvent) :
    deltasOf (es ++ fs) = deltasOf es ++ deltasOf fs := by simp [deltasOf]

/-! ## One step -/

/-- An answer that publishes nothing: the mailbox and the counters stay, and the
phase moves forward without entering or leaving the terminal phase. -/
structure Quiet (g : Gate) (rs : RequestState) (r : GateResult) : Prop where
  externalId : rs.externalId = g.state.externalId
  executorId : rs.executorId = g.state.executorId
  mailbox : rs.mailbox = g.state.mailbox
  sequence : rs.nextSequenceNo = g.state.nextSequenceNo
  tokens : rs.completionTokens = g.state.completionTokens
  terminal : rs.phase = .terminal ↔ g.state.phase = .terminal
  forward : g.state.phase.rank ≤ rs.phase.rank
  notPopped : ∀ w, r ≠ .popped w
  notCommitted : r ≠ .terminal .committed

theorem quiet_same (hpopped : ∀ w, r ≠ .popped w) (hcommitted : r ≠ .terminal .committed) :
    Quiet g g.state r :=
  ⟨rfl, rfl, rfl, rfl, rfl, Iff.rfl, Nat.le_refl _, hpopped, hcommitted⟩

theorem quiet_markRunning (g : Gate) :
    Quiet g g.state.markRunning.2 (.markedRunning g.state.markRunning.1) := by
  unfold RequestState.markRunning
  split
  · next h =>
    exact ⟨rfl, rfl, rfl, rfl, rfl, by simp [h], by simp [h, RequestPhase.rank], by simp, by simp⟩
  · exact quiet_same (by simp) (by simp)

theorem quiet_markCancelling (g : Gate) :
    Quiet g g.state.markCancelling.2 (.markedCancelling g.state.markCancelling.1) := by
  unfold RequestState.markCancelling
  split
  · exact quiet_same (by simp) (by simp)
  · next h =>
    refine ⟨rfl, rfl, rfl, rfl, rfl, ?_, ?_, by simp, by simp⟩ <;>
      cases hp : g.state.phase <;> simp_all [RequestPhase.rank]

theorem GateInv.answered (hg : GateInv g) (hwaits : g'.waits = g.waits)
    (hcommitted : g'.committed = g.committed) (hmailbox : g'.state.mailbox = g.state.mailbox)
    (sequence : g'.state.nextSequenceNo + pendingDeltas g'.holder = g.committed.length)
    (usage : g'.state.completionTokens + pendingTokens g'.holder = tokenTotal g.committed)
    (decided : g.state.mailbox.terminalCommitted = true ↔
      g'.state.phase = .terminal ∨ g'.holder = some .terminal) (hfree : g'.holder = none)
    (once : g'.log.count (.terminal .committed) = if g'.state.phase = .terminal then 1 else 0) :
    GateInv g' := by
  have hpopped : g'.popped = g.popped := by simp only [popped, hwaits]
  have hdelivered : g'.delivered = g.delivered := by simp only [delivered, hpopped]
  refine ⟨?_, ?_, ?_, hcommitted ▸ sequence, hcommitted ▸ usage, hmailbox ▸ decided, by simp [hfree],
    by simp [hfree], ?_, ?_, ?_, hwaits ▸ hg.lastWord, once⟩
  all_goals simp only [hcommitted, hdelivered, hmailbox, hpopped, hwaits]
  exacts [hg.numbered, hg.kept, hg.queuedTokens, hg.slot, hg.events, hg.drained]

theorem inv_answer (hg : GateInv g) (hfree : g.holder = none) (hq : Quiet g rs r) :
    GateInv (g.answer rs r) := by
  obtain ⟨-, -, hmailbox, hseq, htokens, hphase, -, hr, hcommitted⟩ := hq
  refine hg.answered (waits_answer g rs hr) rfl hmailbox ?_ ?_ ?_ hfree ?_
  · simpa [answer, hseq] using hg.sequence
  · simpa [answer, htokens] using hg.usage
  · simpa [answer, hphase] using hg.decided
  · have hcount : (g.log ++ [r]).count (.terminal .committed) =
        g.log.count (.terminal .committed) := by
      rw [count_append, count_singleton, if_neg (by simpa using hcommitted),
        Nat.add_zero]
    show (g.log ++ [r]).count (.terminal .committed) = if rs.phase = .terminal then 1 else 0
    rw [hcount, hg.once]
    simp only [hphase]

def takes (g : Gate) (tokenIds : List ℤ) : Gate :=
  { g with
    state := { g.state with mailbox := { g.state.mailbox with
      deltas := g.state.mailbox.deltas ++ [⟨g.state.externalId, g.state.nextSequenceNo, tokenIds⟩]
      queuedTokens := g.state.mailbox.queuedTokens + tokenIds.length } }
    holder := some (.delta tokenIds.length)
    committed := g.committed ++ [⟨g.state.externalId, g.state.nextSequenceNo, tokenIds⟩] }

def ends (g : Gate) (status : Status) (finishReason : Option FinishReason) : Gate :=
  { g with
    state := { g.state with mailbox := { g.state.mailbox with
      terminal := some (g.state.terminalEvent status finishReason), terminalCommitted := true } }
    holder := some .terminal }

theorem inv_takes {tokenIds : List ℤ} (hg : GateInv g) (hfree : g.holder = none)
    (hterminal : g.state.phase ≠ .terminal) (hcancelling : g.state.phase ≠ .cancelling)
    (hclosed : g.state.mailbox.closed = false)
    (hundecided : g.state.mailbox.terminalCommitted = false) : GateInv (g.takes tokenIds) := by
  have hseq : g.state.nextSequenceNo = g.committed.length := by
    simpa [hfree, pendingDeltas] using hg.sequence
  have husage : g.state.completionTokens = tokenTotal g.committed := by
    simpa [hfree, pendingTokens] using hg.usage
  obtain ⟨last, hpopped, hlast⟩ := hg.events
  refine ⟨?_, ?_, ?_, ?_, ?_, ?_, ?_, ?_, ?_, ?_, ?_, hg.lastWord, hg.once⟩
  · simp [takes, hg.numbered, hseq, range_succ]
  · show g.committed ++ [_] = g.delivered ++ (g.state.mailbox.deltas ++ [_])
    rw [← append_assoc, ← hg.kept]
  · simp [takes, hg.queuedTokens]
  · simp [takes, hseq, pendingDeltas]
  · simp [takes, husage, pendingTokens]
  · simp [takes, hundecided, hterminal]
  · exact fun _ _ => ⟨hterminal, hcancelling⟩
  · simp [takes]
  · -- A filled slot would have closed the mailbox to this delta.
    intro t ht
    exact absurd (hg.slot t ht).1 (by simp [hundecided])
  · refine ⟨last, hpopped, ?_⟩
    intro t ht
    exact absurd (hlast t ht).2.1 (by simp [hundecided])
  · intro h
    exact absurd (hg.drained h).2.2 (by simp [hclosed])

theorem inv_ends {status : Status} {finishReason : Option FinishReason} (hg : GateInv g)
    (hfree : g.holder = none) (hterminal : g.state.phase ≠ .terminal)
    (hclosed : g.state.mailbox.closed = false)
    (hundecided : g.state.mailbox.terminalCommitted = false) :
    GateInv (g.ends status finishReason) := by
  have husage : g.state.completionTokens = tokenTotal g.committed := by
    simpa [hfree, pendingTokens] using hg.usage
  obtain ⟨last, hpopped, hlast⟩ := hg.events
  refine ⟨hg.numbered, hg.kept, hg.queuedTokens, ?_, ?_, ?_, ?_, ?_, ?_, ?_, ?_, hg.lastWord, hg.once⟩
  · simpa [ends, hfree, pendingDeltas] using hg.sequence
  · simpa [ends, hfree, pendingTokens] using hg.usage
  · simp [ends]
  · simp [ends]
  · exact fun _ => hterminal
  · intro t ht
    cases ht
    exact ⟨rfl, husage⟩
  · refine ⟨last, hpopped, ?_⟩
    intro t ht
    exact absurd (hlast t ht).2.1 (by simp [hundecided])
  · intro h
    exact absurd (hg.drained h).2.2 (by simp [hclosed])

theorem inv_finish {pending : PendingCommit} (hg : GateInv g) (hholder : g.holder = some pending) :
    GateInv (g.finishStep pending) := by
  have hcount := hg.once
  have hsequence := hg.sequence
  have husage := hg.usage
  have hdecided := hg.decided
  cases pending with
  | delta tokenCount =>
    obtain ⟨hterminal, hcancelling⟩ := hg.pendingDelta tokenCount hholder
    have hphase : (g.state.recordDelta tokenCount).phase ≠ .terminal :=
      RequestState.recordDelta_phase_ne_terminal hterminal
    simp only [hholder, pendingDeltas, pendingTokens, hterminal, if_false] at *
    refine hg.answered (waits_answer g (g.state.recordDelta tokenCount) (by simp)) rfl rfl ?_ ?_ ?_ rfl ?_
    · simpa [finishStep, answer, RequestState.recordDelta, pendingDeltas] using hsequence
    · simpa [finishStep, answer, RequestState.recordDelta, pendingTokens] using husage
    · simpa [finishStep, answer, hphase] using hdecided
    · simpa [finishStep, answer, hphase] using hcount
  | terminal =>
    have hterminal := hg.pendingTerminal hholder
    simp only [hholder, hterminal, if_false, or_true, iff_true] at *
    refine hg.answered (waits_answer g g.state.recordTerminal (by simp)) rfl rfl ?_ ?_ ?_ rfl ?_
    · simpa [finishStep, answer, RequestState.recordTerminal, pendingDeltas] using hsequence
    · simpa [finishStep, answer, RequestState.recordTerminal, pendingTokens] using husage
    · simp [finishStep, answer, RequestState.recordTerminal, hdecided]
    · simpa [finishStep, answer, RequestState.recordTerminal] using hcount

theorem inv_close (hg : GateInv g) : GateInv (g.setMailbox g.state.mailbox.close) := by
  obtain ⟨last, hpopped, hlast⟩ := hg.events
  refine { hg with events := ⟨last, hpopped, ?_⟩, drained := ?_ }
  · intro t ht
    obtain ⟨hdrained, hrest⟩ := hlast t ht
    exact ⟨⟨hdrained.1, hdrained.2.1, rfl⟩, hrest⟩
  · intro h
    exact ⟨(hg.drained h).1, (hg.drained h).2.1, rfl⟩

theorem GateInv.drained_of_isLast (hg : GateInv g) {w : MailboxWaitResult} (hw : w ∈ g.waits)
    (hlast : IsLast w) : Drained g.state.mailbox := by
  match w, hlast with
  | .closed, _ => exact hg.drained hw
  | .event (.terminal t), _ =>
    obtain ⟨last, hpopped, hdrained⟩ := hg.events
    have hmem : GenerationEvent.terminal t ∈ g.popped := mem_filterMap.mpr ⟨_, hw, rfl⟩
    rw [hpopped] at hmem
    cases last with
    | none => simp at hmem
    | some u => exact (hdrained u rfl).1

theorem Drained.waitPop {mb : GenerationMailbox} (h : Drained mb) : mb.waitPop = (.closed, mb) := by
  obtain ⟨hdeltas, hterminal, hclosed⟩ := h
  simp [GenerationMailbox.waitPop, hdeltas, hterminal, hclosed]

theorem GateInv.lastWord_pop (hg : GateInv g) :
    (g.waits ++ [g.state.mailbox.waitPop.1]).Pairwise OnlyClosedAfter := by
  refine pairwise_append.mpr ⟨hg.lastWord, pairwise_singleton _ _, ?_⟩
  intro earlier he later hl hlast
  rw [mem_singleton.mp hl, (hg.drained_of_isLast he hlast).waitPop]

theorem inv_pop (hg : GateInv g) : GateInv g.popStep := by
  have hwaits := waits_popStep g
  have hlastWord := hg.lastWord_pop
  have hpopped : g.popStep.popped = eventsOf (g.waits ++ [g.state.mailbox.waitPop.1]) := by
    simp only [popped, hwaits]
  obtain ⟨last, hevents, hlast⟩ := hg.events
  have honce : (g.log ++ [GateResult.popped g.state.mailbox.waitPop.1]).count
      (.terminal .committed) = g.log.count (.terminal .committed) := by
    rw [count_append, count_singleton, if_neg (by simp), Nat.add_zero]
  rw [popped_append] at hpopped
  rcases g.state.mailbox.waitPop_cases with
    ⟨delta, rest, hd, hw⟩ | ⟨event, hd, ht, hw⟩ | ⟨hd, ht, hw⟩
  · -- A delta leaves the queue and joins the delivered ones.
    have hopen : last = none := by
      cases last with
      | none => rfl
      | some t => exact absurd (hlast t rfl).1.1 (by simp [hd])
    subst hopen
    simp only [hw] at hwaits hpopped hlastWord honce
    have hdelivered : g.popStep.delivered = g.delivered ++ [delta] := by
      simp only [delivered, hpopped, deltasOf_append]
      rfl
    refine ⟨hg.numbered, ?_, ?_, hg.sequence, hg.usage, ?_, hg.pendingDelta, hg.pendingTerminal,
      ?_, ⟨none, ?_, by simp⟩, ?_, ?_, ?_⟩
    · rw [hdelivered]
      simpa [popStep, setMailbox, hw, hd] using hg.kept
    · have h := hg.queuedTokens
      simp only [hd, tokenTotal_cons] at h
      simp only [popStep, setMailbox, hw]
      omega
    · simpa [popStep, setMailbox, hw] using hg.decided
    · simpa [popStep, setMailbox, hw] using hg.slot
    · rw [hpopped, hdelivered, show eventsOf g.waits = g.popped from rfl, hevents]
      simp
    · intro h
      rw [hwaits] at h
      have hclosed : MailboxWaitResult.closed ∈ g.waits := by simpa using h
      exact absurd (hg.drained hclosed).1 (by simp [hd])
    · rw [hwaits]
      exact hlastWord
    · simpa [popStep, setMailbox, hw, honce] using hg.once
  · -- The terminal event leaves its slot; every committed delta was delivered before.
    have hopen : last = none := by
      cases last with
      | none => rfl
      | some t => exact absurd (hlast t rfl).1.2.1 (by simp [ht])
    subst hopen
    obtain ⟨hdecided, husage⟩ := hg.slot event ht
    simp only [hw] at hwaits hpopped hlastWord honce
    have hdelivered : g.popStep.delivered = g.delivered := by
      simp only [delivered, hpopped, deltasOf_append]
      exact append_nil _
    refine ⟨hg.numbered, ?_, ?_, hg.sequence, hg.usage, ?_, hg.pendingDelta, hg.pendingTerminal,
      ?_, ⟨some event, ?_, ?_⟩, ?_, ?_, ?_⟩
    · rw [hdelivered]
      simpa [popStep, setMailbox, hw] using hg.kept
    · simpa [popStep, setMailbox, hw] using hg.queuedTokens
    · simpa [popStep, setMailbox, hw] using hg.decided
    · simp [popStep, setMailbox, hw]
    · rw [hpopped, hdelivered, show eventsOf g.waits = g.popped from rfl, hevents]
      simp
    · intro t h
      cases h
      simp only [popStep, setMailbox, hw]
      exact ⟨⟨hd, rfl, rfl⟩, hdecided, husage⟩
    · intro _
      simp only [popStep, setMailbox, hw]
      exact ⟨hd, rfl, rfl⟩
    · rw [hwaits]
      exact hlastWord
    · simpa [popStep, setMailbox, hw, honce] using hg.once
  · -- Nothing to hand out: the mailbox does not change.
    have hquiet : g.popStep.popped = g.popped := by
      rw [hpopped, hw]
      cases g.state.mailbox.closed <;> exact append_nil _
    have hdelivered : g.popStep.delivered = g.delivered := by simp only [delivered, hquiet]
    have hsame : g.popStep.state = g.state := by simp [popStep, setMailbox, hw]
    refine ⟨hg.numbered, ?_, hsame ▸ hg.queuedTokens, hsame ▸ hg.sequence, hsame ▸ hg.usage,
      hsame ▸ hg.decided, hsame ▸ hg.pendingDelta, hsame ▸ hg.pendingTerminal, hsame ▸ hg.slot,
      ?_, ?_, ?_, ?_⟩
    · rw [hdelivered, hsame]
      exact hg.kept
    · rw [hsame, hquiet, hdelivered]
      exact ⟨last, hevents, hlast⟩
    · intro h
      rw [hsame]
      rw [hwaits, hw, mem_append, mem_singleton] at h
      rcases h with h | h
      · exact hg.drained h
      · refine ⟨hd, ht, ?_⟩
        by_contra hopen
        simp [hopen] at h
    · rw [hwaits]
      exact hlastWord
    · rw [hsame, ← hg.once]
      exact honce

inductive Effect (g : Gate) : GateCall → Gate → Prop where
  | pop : g.Effect .waitPop g.popStep
  | close : g.Effect .close (g.setMailbox g.state.mailbox.close)
  | finish (pending : PendingCommit) (hp : g.holder = some pending) :
      g.Effect .finish (g.finishStep pending)
  | quiet {call : GateCall} (rs : RequestState) (r : GateResult) (hfree : g.holder = none)
      (hq : Quiet g rs r) : g.Effect call (g.answer rs r)
  | takes (tokenIds : List ℤ) (hfree : g.holder = none) (hphase : g.state.phase ≠ .terminal)
      (hactive : g.state.phase ≠ .cancelling) (hclosed : g.state.mailbox.closed = false)
      (hundecided : g.state.mailbox.terminalCommitted = false) :
      g.Effect (.tryCommitDelta tokenIds) (g.takes tokenIds)
  | ends (status : Status) (finishReason : Option FinishReason) (hfree : g.holder = none)
      (hphase : g.state.phase ≠ .terminal) (hclosed : g.state.mailbox.closed = false)
      (hundecided : g.state.mailbox.terminalCommitted = false) :
      g.Effect (.finalize status finishReason) (g.ends status finishReason)

theorem lockedStep_effect (hfree : g.holder = none) (h : g.lockedStep call = some g') :
    g.Effect call g' := by
  cases call with
  | markRunning =>
    cases h
    exact .quiet _ _ hfree (quiet_markRunning g)
  | markCancelling =>
    cases h
    exact .quiet _ _ hfree (quiet_markCancelling g)
  | tryCommitDelta tokenIds =>
    simp only [lockedStep] at h
    split at h
    · cases h
      exact .quiet _ _ hfree (quiet_same (by simp) (by simp))
    · next ho =>
      cases h
      obtain ⟨hphase, hactive, hclosed, hundecided, rfl⟩ := RequestState.offerDelta_ok ho
      exact .takes tokenIds hfree hphase hactive hclosed hundecided
  | finalize status finishReason =>
    simp only [lockedStep] at h
    split at h
    · next ho =>
      cases h
      have hr := RequestState.offerTerminal_error ho
      exact .quiet _ _ hfree (quiet_same (by simp) (by simpa using hr))
    · next ho =>
      cases h
      obtain ⟨hphase, hclosed, hundecided, rfl⟩ := RequestState.offerTerminal_ok ho
      exact .ends status finishReason hfree hphase hclosed hundecided
  | finish | waitPop | close => cases h

theorem step_effect (h : g.step call = some g') : g.Effect call g' := by
  cases call with
  | waitPop => cases h; exact .pop
  | close => cases h; exact .close
  | finish =>
    obtain ⟨pending, hp, rfl⟩ := Option.map_eq_some_iff.mp h
    exact .finish pending hp
  | _ =>
    simp only [step] at h
    split at h
    · cases h
    · next hfree => exact lockedStep_effect (by simpa using hfree) h

theorem step_inv (hg : GateInv g) (h : g.step call = some g') : GateInv g' := by
  cases step_effect h with
  | pop => exact inv_pop hg
  | close => exact inv_close hg
  | finish pending hp => exact inv_finish hg hp
  | quiet rs r hfree hq => exact inv_answer hg hfree hq
  | takes _ hfree hphase hactive hclosed hundecided =>
    exact inv_takes hg hfree hphase hactive hclosed hundecided
  | ends _ _ hfree hphase hclosed hundecided => exact inv_ends hg hfree hphase hclosed hundecided

theorem step_popped (h : g.step call = some g') (hcall : call ≠ .waitPop) :
    g'.popped = g.popped := by
  cases step_effect h with
  | pop => exact absurd rfl hcall
  | finish pending =>
    cases pending with
    | delta tokenCount => exact popped_answer g (g.state.recordDelta tokenCount) (by simp)
    | terminal => exact popped_answer g g.state.recordTerminal (by simp)
  | quiet rs r _ hq => exact popped_answer g rs hq.notPopped
  | close | takes | ends => rfl

theorem step_delivered (h : g.step call = some g') (hcall : call ≠ .waitPop) :
    g'.delivered = g.delivered :=
  congrArg deltasOf (step_popped h hcall)

theorem popStep_terminalCommitted (g : Gate) :
    g.popStep.state.mailbox.terminalCommitted = g.state.mailbox.terminalCommitted := by
  rcases g.state.mailbox.waitPop_cases with ⟨d, rest, -, h⟩ | ⟨e, -, -, h⟩ | ⟨-, -, h⟩
  · simp [popStep, setMailbox, h]
  · simp [popStep, setMailbox, h]
  · simp [popStep, setMailbox, h]

theorem step_terminalCommitted (h : g.step call = some g') :
    g'.state.mailbox.terminalCommitted = g.state.mailbox.terminalCommitted ∨
      g'.state.mailbox.terminalCommitted = true := by
  cases step_effect h with
  | pop => exact Or.inl (popStep_terminalCommitted g)
  | finish pending => cases pending <;> exact Or.inl rfl
  | quiet rs r _ hq => exact Or.inl (congrArg GenerationMailbox.terminalCommitted hq.mailbox)
  | close | takes => exact Or.inl rfl
  | ends => exact Or.inr rfl

theorem popStep_popped (g : Gate) :
    g.popStep.popped = g.popped ++
      (match g.state.mailbox.waitPop.1 with | .event e => [e] | _ => []) := by
  rw [popped, popped, waits_popStep, popped_append]

theorem popStep_delivered (g : Gate) :
    g.popStep.delivered = g.delivered ++
      (match g.state.mailbox.waitPop.1 with | .event (.delta d) => [d] | _ => []) := by
  rw [delivered, delivered, popStep_popped, deltasOf_append]
  congr 1
  rcases g.state.mailbox.waitPop.1 with (d | t) | _ | _ <;> rfl

/-! ## Along a run -/

/-- What a later state of the same request keeps of an earlier one. -/
structure Grows (g g' : Gate) : Prop where
  forward : g.state.phase.rank ≤ g'.state.phase.rank
  committed : g.committed <+: g'.committed
  sealed : RequestPhase.cancelling.rank ≤ g.state.phase.rank → g'.committed = g.committed

theorem Grows.refl (g : Gate) : Grows g g := ⟨Nat.le_refl _, prefix_rfl, fun _ => rfl⟩

theorem Grows.trans {g₁ g₂ g₃ : Gate} (h₁ : Grows g₁ g₂) (h₂ : Grows g₂ g₃) : Grows g₁ g₃ := by
  refine ⟨Nat.le_trans h₁.forward h₂.forward, h₁.committed.trans h₂.committed, ?_⟩
  intro h
  rw [h₂.sealed (Nat.le_trans h h₁.forward), h₁.sealed h]

theorem Grows.of_committed_eq (hforward : g.state.phase.rank ≤ g'.state.phase.rank)
    (h : g'.committed = g.committed) : Grows g g' :=
  ⟨hforward, h ▸ prefix_rfl, fun _ => h⟩

theorem finishStep_grows (g : Gate) (pending : PendingCommit) : Grows g (g.finishStep pending) := by
  refine Grows.of_committed_eq ?_ (by cases pending <;> rfl)
  cases pending with
  | delta =>
    simp only [finishStep, answer, RequestState.recordDelta]
    split
    · next h => simp [h, RequestPhase.rank]
    · exact Nat.le_refl _
  | terminal => cases hp : g.state.phase <;> simp [finishStep, answer, RequestState.recordTerminal,
      RequestPhase.rank]

theorem step_grows (h : g.step call = some g') : Grows g g' := by
  cases step_effect h with
  | pop | close | ends => exact .of_committed_eq (Nat.le_refl _) rfl
  | finish pending => exact finishStep_grows g pending
  | quiet rs r _ hq => exact .of_committed_eq hq.forward rfl
  | takes tokenIds _ hphase hactive =>
    -- The only commit, and it found the request neither cancelling nor terminal.
    refine ⟨Nat.le_refl _, prefix_append _ _, fun hrank => ?_⟩
    cases hp : g.state.phase <;> simp_all [RequestPhase.rank]

theorem step_terminal (h : g.step call = some g') (hterminal : g.state.phase = .terminal) :
    g'.state.phase = .terminal := by
  have hforward := (step_grows h).forward
  rw [hterminal] at hforward
  cases hp : g'.state.phase <;> simp_all [RequestPhase.rank]

theorem step_ends (h : g.step call = some g') (hterminal : g'.state.phase = .terminal) :
    g.state.phase = .terminal ∨ call = .finish ∧ g.holder = some .terminal := by
  cases step_effect h with
  | finish pending hp =>
    cases pending with
    | delta =>
      refine Or.inl ?_
      simp only [finishStep, answer, RequestState.recordDelta] at hterminal
      split at hterminal
      · cases hterminal
      · exact hterminal
    | terminal => exact Or.inr ⟨rfl, hp⟩
  | quiet rs r _ hq => exact Or.inl (hq.terminal.mp hterminal)
  | pop | close | takes | ends => exact Or.inl hterminal

theorem step_ids (h : g.step call = some g') :
    g'.state.externalId = g.state.externalId ∧ g'.state.executorId = g.state.executorId := by
  cases step_effect h with
  | finish pending => cases pending <;> exact ⟨rfl, rfl⟩
  | quiet rs r _ hq => exact ⟨hq.externalId, hq.executorId⟩
  | pop | close | takes | ends => exact ⟨rfl, rfl⟩

theorem run_inv {calls : List GateCall} (hg : GateInv g) (h : exec step g calls = some g') :
    GateInv g' :=
  exec_preserves (fun _ _ _ hs ht => step_inv hs ht) hg h

theorem run_grows {calls : List GateCall} (h : exec step g calls = some g') : Grows g g' :=
  exec_related (I := fun _ => True) Grows.refl (fun _ _ _ => Grows.trans) (fun _ _ _ _ _ => trivial)
    (fun _ _ _ _ ht => step_grows ht) trivial h

def Publishes : GateCall → Prop
  | .tryCommitDelta _ | .finalize _ _ => True
  | _ => False

def Refused : GateResult → Prop
  | .delta r | .terminal r => r ≠ .committed
  | _ => False

/-- A publishing call either gives its event to the mailbox and keeps the request
lock, so that only its second half can follow, or answers at once and changes
nothing. -/
theorem publish_cases (hcall : Publishes call) (h : g.step call = some g') :
    (g'.holder.isSome ∧ g'.log = g.log) ∨
    (∃ r, Refused r ∧ g' = { g with log := g.log ++ [r] }) := by
  match call, hcall with
  | .tryCommitDelta tokenIds, _ =>
    simp only [step] at h
    split at h
    · cases h
    · simp only [lockedStep] at h
      cases ho : g.state.offerDelta tokenIds with
      | error r =>
        simp only [ho, Option.some.injEq] at h
        exact Or.inr ⟨.delta r, RequestState.offerDelta_error ho, h.symm⟩
      | ok =>
        simp only [ho, Option.some.injEq] at h
        exact Or.inl ⟨by simp [← h], by simp [← h]⟩
  | .finalize status finishReason, _ =>
    simp only [step] at h
    split at h
    · cases h
    · simp only [lockedStep] at h
      cases ho : g.state.offerTerminal status finishReason with
      | error r =>
        simp only [ho, Option.some.injEq] at h
        exact Or.inr ⟨.terminal r, RequestState.offerTerminal_error ho, h.symm⟩
      | ok =>
        simp only [ho, Option.some.injEq] at h
        exact Or.inl ⟨by simp [← h], by simp [← h]⟩

theorem finish_committed (h : g.step .finish = some g') :
    g'.log = g.log ++ [.delta .committed] ∨ g'.log = g.log ++ [.terminal .committed] := by
  obtain ⟨pending, hp, rfl⟩ := Option.map_eq_some_iff.mp h
  cases pending with
  | delta => exact Or.inl rfl
  | terminal => exact Or.inr rfl

theorem GateInv.popped_eq (hg : GateInv g) :
    ∃ (k : ℕ) (last : Option TerminalEvent),
      g.popped = (g.committed.take k).map GenerationEvent.delta ++
        last.toList.map GenerationEvent.terminal ∧
      ∀ t, last = some t → g.committed.take k = g.committed ∧
        t.usage.completionTokens = tokenTotal g.committed := by
  obtain ⟨last, hpopped, hlast⟩ := hg.events
  have htake : g.committed.take g.delivered.length = g.delivered := by
    rw [hg.kept, take_left']
    rfl
  refine ⟨g.delivered.length, last, by rw [htake, hpopped], ?_⟩
  intro t ht
  obtain ⟨⟨hempty, -, -⟩, -, husage⟩ := hlast t ht
  have hall : g.committed = g.delivered := by
    have h := hg.kept
    rwa [hempty, append_nil] at h
  exact ⟨by rw [htake, ← hall], husage⟩

/-- The terminal gate of a request under every interleaving of its calls. -/
theorem terminal_gate (externalId executorId promptTokens : ℕ) (config : GenerationMailboxConfig)
    (calls : List GateCall) (g : Gate)
    (h : exec step (initial externalId executorId promptTokens config) calls = some g) :
    -- the phase only moves forward, and the terminal phase is absorbing
    (∀ more g', exec step g more = some g' → g.state.phase.rank ≤ g'.state.phase.rank ∧
      (g.state.phase = .terminal → g'.state.phase = .terminal)) ∧
    g.log.count (.terminal .committed) ≤ 1 ∧
    -- the consumer sees the committed deltas in order, then the terminal event
    g.committed.map TokenDelta.sequenceNo = List.range g.committed.length ∧
    (∃ (k : ℕ) (last : Option TerminalEvent),
      g.popped = (g.committed.take k).map GenerationEvent.delta ++
        last.toList.map GenerationEvent.terminal ∧
      ∀ t, last = some t → g.committed.take k = g.committed ∧
        t.usage.completionTokens = tokenTotal g.committed) ∧
    g.waits.Pairwise OnlyClosedAfter ∧
    -- nothing is committed once the request is cancelling or terminal
    (g.state.phase = .cancelling ∨ g.state.phase = .terminal →
      ∀ more g', exec step g more = some g' → g'.committed = g.committed) ∧
    -- a publishing call that does not commit changes nothing
    (∀ call g', Publishes call → g.step call = some g' →
      (g'.holder.isSome ∧ g'.log = g.log) ∨
      (∃ r, Refused r ∧ g'.log = g.log ++ [r] ∧
        g'.state.nextSequenceNo = g.state.nextSequenceNo ∧
        g'.state.completionTokens = g.state.completionTokens)) ∧
    (∀ g', g.step .finish = some g' →
      g'.log = g.log ++ [.delta .committed] ∨ g'.log = g.log ++ [.terminal .committed]) := by
  have hg : GateInv g := run_inv (initial_inv _ _ _ _) h
  refine ⟨?_, ?_, hg.numbered, hg.popped_eq, hg.lastWord, ?_, ?_, fun g' => finish_committed⟩
  · intro more g' hm
    have hforward := (run_grows hm).forward
    refine ⟨hforward, ?_⟩
    intro ht
    rw [ht] at hforward
    cases hp : g'.state.phase <;> simp_all [RequestPhase.rank]
  · rw [hg.once]
    split <;> omega
  · intro hphase more g' hm
    refine (run_grows hm).sealed ?_
    rcases hphase with hp | hp <;> simp [hp, RequestPhase.rank]
  · intro call g' hcall hs
    rcases publish_cases hcall hs with hheld | ⟨r, hr, rfl⟩
    · exact Or.inl hheld
    · exact Or.inr ⟨r, hr, rfl, rfl, rfl⟩

/-- A third delta meets a full mailbox, the consumer drains it and a second
`finalize` comes too late. -/
def lateFinalize : List GateCall :=
  [.tryCommitDelta [11, 12], .waitPop, .finish, .tryCommitDelta [13], .finish,
    .tryCommitDelta [14], .markCancelling, .finalize .success (some .eos), .finish,
    .finalize .success none, .waitPop, .waitPop, .waitPop]

theorem terminal_gate_lateFinalize :
    ∃ g, exec step (initial 7 70 5 ⟨1, 8⟩) lateFinalize = some g ∧
      g.popped.length = 3 ∧ g.log.count (.terminal .committed) ≤ 1 :=
  ⟨_, rfl, by decide, (terminal_gate 7 70 5 ⟨1, 8⟩ lateFinalize _ rfl).2.1⟩

end KimServing.Gate

import KimServing.Runtime.GenerationTypes

/-! # The bounded mailbox between a backend and one consumer

Deltas wait in a bounded queue and the single terminal event has a slot of its
own, so that a full queue cannot keep the terminal event out. Each operation is
one critical section of the mailbox lock. A push answers `none` where the source
answers `false` and leaves the mailbox as it was.
-/
namespace KimServing

structure GenerationMailboxConfig where
  maxQueuedDeltas : ℕ := 16
  maxQueuedTokens : ℕ := 256
  deriving DecidableEq

inductive MailboxWaitResult where
  | event (e : GenerationEvent)
  | timeout
  | closed
  deriving DecidableEq

structure GenerationMailbox where
  config : GenerationMailboxConfig
  deltas : List TokenDelta := []
  terminal : Option TerminalEvent := none
  queuedTokens : ℕ := 0
  terminalCommitted : Bool := false
  closed : Bool := false
  deriving DecidableEq

namespace GenerationMailbox

def create (config : GenerationMailboxConfig) : Except String GenerationMailbox :=
  if config.maxQueuedDeltas = 0 ∨ config.maxQueuedTokens = 0 then
    .error "GenerationMailbox capacity must be greater than zero"
  else .ok { config := config }

def tryPushDelta (mb : GenerationMailbox) (delta : TokenDelta) : Option GenerationMailbox :=
  if delta.tokenIds = [] then none
  else if mb.closed ∨ mb.terminalCommitted then none
  else if mb.config.maxQueuedDeltas ≤ mb.deltas.length then none
  else if mb.config.maxQueuedTokens - mb.queuedTokens < delta.tokenIds.length then none
  else some { mb with
    deltas := mb.deltas ++ [delta]
    queuedTokens := mb.queuedTokens + delta.tokenIds.length }

def pushTerminal (mb : GenerationMailbox) (event : TerminalEvent) : Option GenerationMailbox :=
  if mb.closed ∨ mb.terminalCommitted then none
  else some { mb with terminal := some event, terminalCommitted := true }

/-- A wait that has nothing to return ends as a timeout. One that blocks and is
woken later behaves as a call made at that later moment. -/
def waitPop (mb : GenerationMailbox) : MailboxWaitResult × GenerationMailbox :=
  match mb.deltas with
  | delta :: rest =>
    (.event (.delta delta),
      { mb with deltas := rest, queuedTokens := mb.queuedTokens - delta.tokenIds.length })
  | [] =>
    match mb.terminal with
    | some event => (.event (.terminal event), { mb with terminal := none, closed := true })
    | none => if mb.closed then (.closed, mb) else (.timeout, mb)

def close (mb : GenerationMailbox) : GenerationMailbox := { mb with closed := true }

theorem create_open {config : GenerationMailboxConfig} {mb : GenerationMailbox}
    (h : create config = .ok mb) : mb.terminalCommitted = false := by
  unfold create at h
  split at h <;> cases h
  rfl

theorem tryPushDelta_eq_some {mb mb' : GenerationMailbox} {delta : TokenDelta} :
    mb.tryPushDelta delta = some mb' ↔
      delta.tokenIds ≠ [] ∧ mb.closed = false ∧ mb.terminalCommitted = false ∧
      mb.deltas.length < mb.config.maxQueuedDeltas ∧
      delta.tokenIds.length ≤ mb.config.maxQueuedTokens - mb.queuedTokens ∧
      mb' = { mb with
        deltas := mb.deltas ++ [delta]
        queuedTokens := mb.queuedTokens + delta.tokenIds.length } := by
  unfold tryPushDelta
  constructor
  · intro h
    split_ifs at h with he hc hd ht
    simp only [not_or, Bool.not_eq_true] at hc
    exact ⟨he, hc.1, hc.2, by omega, by omega, (Option.some.inj h).symm⟩
  · rintro ⟨he, hc, hterm, hd, ht, rfl⟩
    rw [if_neg he, if_neg (by simp [hc, hterm]), if_neg (by omega), if_neg (by omega)]

theorem pushTerminal_eq_some {mb mb' : GenerationMailbox} {event : TerminalEvent} :
    mb.pushTerminal event = some mb' ↔
      mb.closed = false ∧ mb.terminalCommitted = false ∧
      mb' = { mb with terminal := some event, terminalCommitted := true } := by
  unfold pushTerminal
  constructor
  · intro h
    split_ifs at h with hc
    simp only [not_or, Bool.not_eq_true] at hc
    exact ⟨hc.1, hc.2, (Option.some.inj h).symm⟩
  · rintro ⟨hc, hterm, rfl⟩
    rw [if_neg (by simp [hc, hterm])]

theorem waitPop_cases (mb : GenerationMailbox) :
    (∃ delta rest, mb.deltas = delta :: rest ∧ mb.waitPop = (.event (.delta delta),
      { mb with deltas := rest, queuedTokens := mb.queuedTokens - delta.tokenIds.length })) ∨
    (∃ event, mb.deltas = [] ∧ mb.terminal = some event ∧
      mb.waitPop = (.event (.terminal event), { mb with terminal := none, closed := true })) ∨
    (mb.deltas = [] ∧ mb.terminal = none ∧
      mb.waitPop = (if mb.closed then .closed else .timeout, mb)) := by
  unfold waitPop
  cases hd : mb.deltas with
  | cons delta rest => exact Or.inl ⟨delta, rest, rfl, rfl⟩
  | nil =>
    cases ht : mb.terminal with
    | some event => exact Or.inr (Or.inl ⟨event, rfl, rfl, rfl⟩)
    | none =>
      refine Or.inr (Or.inr ⟨rfl, rfl, ?_⟩)
      cases mb.closed <;> simp

end GenerationMailbox

end KimServing

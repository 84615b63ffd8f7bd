import KimServing.Runtime.GenerationRuntime

/-! # What a step of the runtime can do

Most steps concern one call only. The others take or give up the lifecycle lock,
change the state of the runtime, or touch the admission budgets. This file lists
them once; the invariants are about the list.
-/
namespace KimServing
open Library

namespace CallPc

variable {pc : CallPc}

def shared : CallPc → Bool
  | .submitEvaluate _ | .submitAcquire .. | .submitMailbox _ | .submitBackend _ | .submitDrop _
  | .cancelBackend _ | .unlockShared _ => true
  | _ => false

def exclusive : CallPc → Bool
  | .startBackend | .startOpen | .startCleanup | .stopClose | .stopBackend | .stopSnapshot
  | .unlockExclusive _ => true
  | _ => false

def working : CallPc → Bool
  | .submitEvaluate _ | .submitAcquire .. | .submitMailbox _ | .submitBackend _ | .submitDrop _
  | .cancelBackend _ => true
  | _ => false

def opening : CallPc → Bool
  | .startBackend | .startOpen | .startCleanup => true
  | _ => false

def closing : CallPc → Bool
  | .stopBackend | .stopSnapshot => true
  | _ => false

def submitting : CallPc → Bool
  | .submitValidate _ | .submitLock _ | .submitEvaluate _ | .submitAcquire .. | .submitMailbox _
  | .submitBackend _ | .submitDrop _ | .unlockShared _ | .returned _ => true
  | _ => false

theorem exclusive_of_submitting (h : pc.submitting = true) : pc.exclusive = false := by
  cases pc <;> first | rfl | cases h

theorem working_of_not_shared (h : pc.shared = false) : pc.working = false := by
  cases pc <;> first | rfl | cases h

theorem opening_of_not_exclusive (h : pc.exclusive = false) : pc.opening = false := by
  cases pc <;> first | rfl | cases h

theorem closing_of_not_exclusive (h : pc.exclusive = false) : pc.closing = false := by
  cases pc <;> first | rfl | cases h

theorem exclusive_of_closing (h : pc.closing = true) : pc.exclusive = true := by
  cases pc <;> first | rfl | cases h

structure Follows (after before : CallPc) : Prop where
  shared : after.shared = before.shared
  exclusive : after.exclusive = before.exclusive
  working : after.working = true → before.working = true
  opening : after.opening = true → before.opening = true
  cleanup : after = .startCleanup → before = .startCleanup
  closing : after.closing = before.closing
  submitting : before.submitting = true → after.submitting = true

theorem Follows.refl (pc : CallPc) : pc.Follows pc := ⟨rfl, rfl, id, id, id, rfl, id⟩

def isCleanup : CallPc → Bool
  | .startCleanup => true
  | _ => false

def follows (after before : CallPc) : Bool :=
  after.shared == before.shared && after.exclusive == before.exclusive &&
    (!after.working || before.working) && (!after.opening || before.opening) &&
    !after.isCleanup && after.closing == before.closing &&
    (!before.submitting || after.submitting)

theorem Follows.at {after before : CallPc} (hpc : pc = before) (h : after.follows before = true) :
    after.Follows pc := by
  subst hpc
  simp only [follows, Bool.and_eq_true, beq_iff_eq, Bool.or_eq_true, Bool.not_eq_true',
    ← Bool.not_eq_true, ← imp_iff_not_or] at h
  obtain ⟨⟨⟨⟨⟨⟨hshared, hexclusive⟩, hworking⟩, hopening⟩, hcleanup⟩, hclosing⟩, hsubmitting⟩ := h
  exact ⟨hshared, hexclusive, hworking, hopening,
    fun heq => absurd (congrArg isCleanup heq) hcleanup, hclosing, hsubmitting⟩

end CallPc

def RuntimeAction.call : RuntimeAction → ℕ
  | .begin k _ | .start k _ | .submit k _ | .cancel k | .stop k _ | .unlock k | .mailbox k _ => k

namespace GenerationRuntime
variable {K : Type} {s t : GenerationRuntime K} {k : ℕ}

inductive Effect (s : GenerationRuntime K) (k : ℕ) : GenerationRuntime K → Prop where
  | nothing : Effect s k s
  | walk (c : Call) (hlease : c.lease = (s.calls k).lease) (hpc : c.pc.Follows (s.calls k).pc) :
    Effect s k (s.setCall k c)
  | lockShared (c : Call) (hfree : s.writer = none) (hlease : c.lease = (s.calls k).lease)
    (hbefore : (s.calls k).pc.exclusive = false) (hshared : c.pc.shared = true)
    (hexclusive : c.pc.exclusive = false) (hworking : c.pc.working = true → s.state = .running)
    (hsubmitting : (s.calls k).pc.submitting = true → c.pc.submitting = true) :
    Effect s k (setCall { s with readers := insert k s.readers } k c)
  | lockExclusive (pc : CallPc) (hfree : s.writer = none) (hreaders : s.readers = ∅)
    (hbefore : (s.calls k).pc = .startLock ∨ (s.calls k).pc = .stopLock)
    (hexclusive : pc.exclusive = true) (hshared : pc.shared = false)
    (hopening : pc.opening = true → s.state = .stopped ∧ pc ≠ .startCleanup)
    (hclosing : pc.closing = false) : Effect s k (setPc { s with writer := some k } k pc)
  | opened (hpc : (s.calls k).pc = .startOpen) (hopen : s.admission.open.1 = true) :
    Effect s k (setPc { s with
      admission := s.admission.open.2
      state := .running
      period := s.period + 1 } k (.unlockExclusive .success))
  | notOpened (hpc : (s.calls k).pc = .startOpen) (hopen : s.admission.open.1 = false) :
    Effect s k (setPc { s with admission := s.admission.open.2 } k .startCleanup)
  | cleanedUp (status : Status) (hpc : (s.calls k).pc = .startCleanup) :
    Effect s k (setPc { s with state := .failed } k (.unlockExclusive status))
  | closed (hpc : (s.calls k).pc = .stopClose) :
    Effect s k (setPc { s with admission := s.admission.close } k .stopBackend)
  | stopFailed (status : Status) (hpc : (s.calls k).pc.closing = true) :
    Effect s k (setPc { s with state := .failed } k (.unlockExclusive status))
  | stopped (hpc : (s.calls k).pc.closing = true)
    (hnone : hasOutstandingResources s.admission.snapshot = false) :
    Effect s k (setPc { s with state := .stopped } k (.unlockExclusive .success))
  | acquired (c : Call) (r : AdmissionRequest) (request : GenerationRequest)
    (evaluated : AdmissionSnapshot) (hpc : (s.calls k).pc = .submitAcquire request evaluated)
    (hadmitted : (s.admission.tryAcquire r).1 = .admitted) (hlease : c.lease = ⟨true, r, false⟩)
    (hfollows : c.pc.Follows (s.calls k).pc) :
    Effect s k (setCall { s with admission := (s.admission.tryAcquire r).2 } k c)
  | gaveBack (c : Call) (hvalid : (s.calls k).lease.valid = true) (hlease : c.lease = {})
    (hpc : c.pc.Follows (s.calls k).pc) :
    Effect s k (setCall { s with
      admission := s.admission.release (s.calls k).lease.request } k c)
  | unlockedShared (status : Status) (hpc : (s.calls k).pc = .unlockShared status) :
    Effect s k (setPc { s with readers := s.readers.erase k } k (.returned status))
  | unlockedExclusive (status : Status) (hpc : (s.calls k).pc = .unlockExclusive status) :
    Effect s k (setPc { s with writer := none } k (.returned status))

theorem Effect.go {pc : CallPc} (hpc : pc.Follows (s.calls k).pc) : Effect s k (s.setPc k pc) :=
  .walk _ rfl hpc

theorem Effect.giveBack {c : Call} (cause : ReleaseCause) (hlease : c.lease = (s.calls k).lease)
    (hpc : c.pc.Follows (s.calls k).pc) : Effect s k (s.giveBack k c cause) := by
  unfold GenerationRuntime.giveBack
  split
  · next hvalid =>
    rw [hlease] at hvalid ⊢
    exact .gaveBack _ hvalid rfl hpc
  · exact .walk c hlease hpc

/-- What no step touches, besides the state in the hands of a call that holds the lock
alone. -/
structure Quiet (s : GenerationRuntime K) (k : ℕ) (t : GenerationRuntime K) : Prop where
  others : ∀ j, j ≠ k → t.calls j = s.calls j
  state : t.state = s.state ∧ t.period = s.period ∨ (s.calls k).pc.exclusive = true
  config : t.admission.config = s.admission.config
  policy : t.sloPolicy = s.sloPolicy

theorem Effect.quiet (h : Effect s k t) : Quiet s k t := by
  have hothers {u : GenerationRuntime K} {c : Call} (hu : u.calls = s.calls) (j : ℕ) (hj : j ≠ k) :
      (u.setCall k c).calls j = s.calls j := by
    rw [← hu]
    exact Function.update_of_ne hj ..
  cases h with
  | nothing => exact ⟨fun _ _ => rfl, .inl ⟨rfl, rfl⟩, rfl, rfl⟩
  | walk | lockShared | lockExclusive | closed | unlockedShared | unlockedExclusive => exact ⟨hothers rfl, .inl ⟨rfl, rfl⟩, rfl, rfl⟩
  | opened hpc =>
    exact ⟨hothers rfl, .inr (by rw [hpc]; rfl), AdmissionState.open_config _, rfl⟩
  | notOpened =>
    exact ⟨hothers rfl, .inl ⟨rfl, rfl⟩, AdmissionState.open_config _, rfl⟩
  | cleanedUp _ hpc => exact ⟨hothers rfl, .inr (by rw [hpc]; rfl), rfl, rfl⟩
  | stopFailed _ hpc | stopped hpc =>
    exact ⟨hothers rfl, .inr (CallPc.exclusive_of_closing hpc), rfl, rfl⟩
  | acquired => exact ⟨hothers rfl, .inl ⟨rfl, rfl⟩, AdmissionState.tryAcquire_config _ _, rfl⟩
  | gaveBack => exact ⟨hothers rfl, .inl ⟨rfl, rfl⟩, AdmissionState.release_config _ _, rfl⟩

theorem begin_eq_some {op : RuntimeOp} (h : s.begin k op = some t) :
    (s.calls k).pc = .idle ∧ t = s.setCall k { s.calls k with
      pc := op.entry
      op := some op } := by
  unfold begin at h
  split at h <;> cases h
  next hpc => exact ⟨hpc, rfl⟩

theorem begin_effect {op : RuntimeOp} (h : s.begin k op = some t) : Effect s k t := by
  obtain ⟨hpc, rfl⟩ := begin_eq_some h
  refine .walk _ rfl ?_
  cases op with
  | cancel =>
    dsimp only [RuntimeOp.entry]
    split <;> exact .at hpc rfl
  | _ => exact .at hpc rfl

theorem startStep_effect {choice : CallChoice} (h : s.startStep k choice = some t) :
    Effect s k t := by
  unfold startStep at h
  cases hpc : (s.calls k).pc
  case startLock =>
    simp only [hpc] at h
    split at h
    · next hfree =>
      split at h <;> cases h
      · exact .lockExclusive _ hfree.1 hfree.2 (by simp [hpc]) rfl rfl nofun rfl
      · exact .lockExclusive _ hfree.1 hfree.2 (by simp [hpc]) rfl rfl nofun rfl
      · next hstate =>
        exact .lockExclusive _ hfree.1 hfree.2 (by simp [hpc]) rfl rfl
          (fun _ => ⟨hstate, by simp⟩) rfl
    · cases h
  case startBackend =>
    simp only [hpc] at h
    have hgo : Effect s k (s.setPc k .startOpen) :=
      .go (.at hpc rfl)
    have hreturn (status : Status) : Effect s k (s.setPc k (.unlockExclusive status)) :=
      .go (.at hpc rfl)
    repeat' split at h
    all_goals cases h
    all_goals first | exact hgo | exact hreturn _
  case startOpen =>
    simp only [hpc] at h
    cases hopen : s.admission.open with
    | mk ok admission =>
      rw [hopen] at h
      obtain rfl : s.admission.open.2 = admission := by rw [hopen]
      cases ok
      · cases h
        exact .notOpened hpc (by rw [hopen])
      · cases h
        exact .opened hpc (by rw [hopen])
  case startCleanup =>
    simp only [hpc] at h
    cases h
    exact .cleanedUp _ hpc
  all_goals
    simp only [hpc] at h
    cases h

theorem cancelStep_effect (h : s.cancelStep k = some t) : Effect s k t := by
  unfold cancelStep at h
  cases hpc : (s.calls k).pc
  case cancelLock requestId =>
    simp only [hpc] at h
    split at h
    · next hfree =>
      cases h
      refine .lockShared { s.calls k with pc := _ } hfree rfl (by rw [hpc]; rfl) ?_ ?_ ?_ ?_
      all_goals dsimp only
      · split <;> rfl
      · split <;> rfl
      · split
        · exact fun _ => ‹_›
        · exact fun hw => by cases hw
      · rw [hpc]
        exact fun hs => by cases hs
    · cases h
  case cancelBackend requestId =>
    simp only [hpc] at h
    cases h
    exact .go (.at hpc rfl)
  all_goals
    simp only [hpc] at h
    cases h

theorem stopStep_effect {choice : CallChoice} (h : s.stopStep k choice = some t) :
    Effect s k t := by
  unfold stopStep at h
  cases hpc : (s.calls k).pc
  case stopLock =>
    simp only [hpc] at h
    split at h
    · next hfree =>
      cases h
      split
      · exact .lockExclusive _ hfree.1 hfree.2 (by simp [hpc]) rfl rfl nofun rfl
      · exact .lockExclusive _ hfree.1 hfree.2 (by simp [hpc]) rfl rfl nofun rfl
    · cases h
  case stopClose =>
    simp only [hpc] at h
    cases h
    exact .closed hpc
  case stopBackend =>
    simp only [hpc] at h
    split at h <;> cases h
    · exact .go (.at hpc rfl)
    · exact .stopFailed _ (by rw [hpc]; rfl)
    · exact .stopFailed _ (by rw [hpc]; rfl)
  case stopSnapshot =>
    simp only [hpc] at h
    split at h <;> cases h
    · exact .stopFailed _ (by rw [hpc]; rfl)
    · next hnone => exact .stopped (by rw [hpc]; rfl) (by simpa using hnone)
  all_goals
    simp only [hpc] at h
    cases h

theorem unlockStep_effect (h : s.unlockStep k = some t) : Effect s k t := by
  unfold unlockStep at h
  split at h <;> cases h
  · next hpc => exact .unlockedShared _ hpc
  · next hpc => exact .unlockedExclusive _ hpc

/-- What the backend and consumers can make of a mailbox that lives on. A new reference
comes from an old one, or from the argument of a `submit` that runs. -/
structure Uses (pc : CallPc) (b b' : MailboxObject) : Prop where
  destroyed : b'.destroyed = false
  callRef : b'.callRef = b.callRef
  consumer : 0 < b'.consumerRefs → 0 < b.consumerRefs
  backend : 0 < b'.backendRefs → 0 < b.backendRefs ∨ ∃ request, pc = .submitBackend request
  releasing : (b.releasing = true → 0 < b.backendRefs) → b'.releasing = true → 0 < b'.backendRefs
  terminal : b'.mailbox.terminalCommitted = b.mailbox.terminalCommitted ∧
      b'.releasing = b.releasing ∨
    b.mailbox.terminalCommitted = false ∧ b.releasing = false ∧
      b'.mailbox.terminalCommitted = true ∧ b'.releasing = true

/-- What is done to the mailbox of a call by others. The call stays where it is. -/
inductive BoxEffect (s : GenerationRuntime K) (k : ℕ) (b : MailboxObject) :
    GenerationRuntime K → Prop where
  | nothing : BoxEffect s k b s
  | used (b' : MailboxObject) (huses : Uses (s.calls k).pc b b') :
    BoxEffect s k b (s.setCall k { s.calls k with box := some b' })
  | released (hreleasing : b.releasing = true) :
    BoxEffect s k b
      (s.giveBack k { s.calls k with box := some { b with releasing := false } } .terminal)
  | destroyed (hunused : b.referenced = false) :
    BoxEffect s k b
      (s.giveBack k { s.calls k with box := some { b with destroyed := true } } .destroyed)

theorem Uses.content {pc : CallPc} {b : MailboxObject} {mailbox : GenerationMailbox}
    (hlive : b.destroyed = false)
    (hcommitted : mailbox.terminalCommitted = b.mailbox.terminalCommitted) :
    Uses pc b { b with mailbox := mailbox } :=
  ⟨hlive, rfl, id, .inl, id, .inl ⟨hcommitted, rfl⟩⟩

theorem mailboxStep_cases {op : MailboxOp} (h : s.mailboxStep k op = some t) :
    ∃ b, (s.calls k).box = some b ∧ b.destroyed = false ∧ BoxEffect s k b t := by
  unfold mailboxStep at h
  cases hbox : (s.calls k).box with
  | none =>
    simp only [hbox] at h
    cases h
  | some b =>
    simp only [hbox] at h
    split at h
    · cases h
    · next hlive =>
      rw [Bool.not_eq_true] at hlive
      refine ⟨b, rfl, hlive, ?_⟩
      cases op with
      | pushDelta delta =>
        dsimp only at h
        split at h <;> cases h
        refine .used _ (.content hlive ?_)
        cases hpush : b.mailbox.tryPushDelta delta with
        | none => rfl
        | some =>
          obtain ⟨-, -, -, -, -, rfl⟩ := GenerationMailbox.tryPushDelta_eq_some.mp hpush
          rfl
      | pushTerminal =>
        dsimp only at h
        split at h
        · cases h
        · next hidle =>
          simp only [not_or, Bool.not_eq_true] at hidle
          split at h <;> cases h
          · exact .nothing
          · next mailbox hpush =>
            obtain ⟨-, hopen, rfl⟩ := GenerationMailbox.pushTerminal_eq_some.mp hpush
            exact .used _ ⟨hlive, rfl, id, .inl, fun _ _ => Nat.pos_of_ne_zero hidle.1,
              .inr ⟨hopen, hidle.2, rfl, rfl⟩⟩
      | releaseLease =>
        dsimp only at h
        split at h <;> cases h
        next hreleasing => exact .released hreleasing
      | backendCopy =>
        dsimp only at h
        split at h
        · next request hpc =>
          cases h
          exact .used _ ⟨hlive, rfl, id, fun _ => .inr ⟨request, hpc⟩, fun _ _ => Nat.succ_pos _,
            .inl ⟨rfl, rfl⟩⟩
        · split at h <;> cases h
          next hrefs =>
          exact .used _ ⟨hlive, rfl, id, fun _ => .inl (Nat.pos_of_ne_zero hrefs),
            fun _ _ => Nat.succ_pos _, .inl ⟨rfl, rfl⟩⟩
      | backendDrop =>
        dsimp only at h
        by_cases hrefs : b.backendRefs ≤ if b.releasing = true then 1 else 0
        · rw [if_pos hrefs] at h
          cases h
        · rw [if_neg hrefs] at h
          cases h
          refine .used _ ⟨hlive, rfl, id, fun hpos => .inl (hpos.trans_le (Nat.sub_le _ _)),
            fun _ hreleasing => ?_, .inl ⟨rfl, rfl⟩⟩
          dsimp only at hreleasing ⊢
          rw [if_pos hreleasing] at hrefs
          omega
      | waitPop =>
        dsimp only at h
        split at h <;> cases h
        refine .used _ (.content hlive ?_)
        obtain ⟨_, _, -, heq⟩ | ⟨_, -, -, heq⟩ | ⟨-, -, heq⟩ := b.mailbox.waitPop_cases <;> rw [heq]
      | close =>
        dsimp only at h
        split at h <;> cases h
        exact .used _ (.content hlive rfl)
      | consumerCopy =>
        dsimp only at h
        split at h <;> cases h
        next hrefs =>
        exact .used _ ⟨hlive, rfl, fun _ => Nat.pos_of_ne_zero hrefs, .inl, id, .inl ⟨rfl, rfl⟩⟩
      | consumerDrop =>
        dsimp only at h
        split at h <;> cases h
        exact .used _ ⟨hlive, rfl, fun hpos => hpos.trans_le (Nat.sub_le _ _), .inl, id,
          .inl ⟨rfl, rfl⟩⟩
      | destroy =>
        dsimp only at h
        split at h <;> cases h
        next hunused => exact .destroyed (by simpa using hunused)

theorem mailboxStep_effect {op : MailboxOp} (h : s.mailboxStep k op = some t) : Effect s k t := by
  obtain ⟨b, -, -, heffect⟩ := mailboxStep_cases h
  cases heffect with
  | nothing => exact .nothing
  | used => exact .walk _ rfl (.refl _)
  | released | destroyed => exact .giveBack _ rfl (.refl _)

section Submit
variable [Zero K] [Add K] [LE K] [DecidableLE K] [TtftText K]

theorem submitStep_effect {choice : CallChoice} (h : s.submitStep k choice = some t) :
    Effect s k t := by
  unfold submitStep at h
  cases hpc : (s.calls k).pc
  case submitValidate request =>
    simp only [hpc] at h
    cases h
    refine .go ?_
    generalize validateRequestForAdmission request _ = status
    split <;> exact .at hpc rfl
  case submitLock request =>
    simp only [hpc] at h
    split at h <;> cases h
    next hfree =>
    refine .lockShared _ hfree rfl (by rw [hpc]; rfl) ?_ ?_ ?_ fun _ => ?_
    all_goals dsimp only
    · split <;> rfl
    · split <;> rfl
    · split
      · exact fun _ => ‹_›
      · exact fun hw => by cases hw
    · split <;> rfl
  case submitEvaluate request =>
    simp only [hpc] at h
    split at h <;> cases h
    · exact .walk _ rfl (.at hpc rfl)
    · refine .walk _ rfl ?_
      dsimp only
      split
      · exact .at hpc rfl
      · exact .at hpc rfl
  case submitAcquire request evaluated =>
    simp only [hpc] at h
    by_cases hcode : (s.admission.tryAcquire request.toAdmission).1 = .admitted
    · rw [if_pos hcode] at h
      cases h
      exact .acquired _ _ _ _ hpc hcode rfl (.at hpc rfl)
    · rw [if_neg hcode, AdmissionState.tryAcquire_refused hcode] at h
      cases h
      exact .walk _ rfl (.at hpc rfl)
  case submitMailbox request =>
    simp only [hpc] at h
    repeat' split at h
    all_goals cases h
    all_goals
      exact .walk _ rfl (.at hpc rfl)
  case submitBackend request =>
    simp only [hpc] at h
    repeat' split at h
    all_goals cases h
    all_goals
      exact .walk _ rfl (.at hpc rfl)
  case submitDrop status =>
    have hfollows : (CallPc.unlockShared status).Follows (s.calls k).pc := .at hpc rfl
    simp only [hpc] at h
    repeat' split at h
    all_goals cases h
    · exact .giveBack _ rfl hfollows
    · exact .walk _ rfl hfollows
    · exact .giveBack _ rfl hfollows
  all_goals
    simp only [hpc] at h
    cases h

theorem step_effect {a : RuntimeAction} (h : s.step a = some t) : Effect s a.call t := by
  cases a with
  | begin => exact begin_effect h
  | start => exact startStep_effect h
  | submit => exact submitStep_effect h
  | cancel => exact cancelStep_effect h
  | stop => exact stopStep_effect h
  | unlock => exact unlockStep_effect h
  | mailbox => exact mailboxStep_effect h

end Submit

end GenerationRuntime

end KimServing

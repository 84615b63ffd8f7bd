import KimServing.Runtime.RuntimeInvariant

/-! # The life of a submission

What a call has, by the place where it stands: nothing, a lease, or a mailbox that
carries the lease. The lease goes back once, when the terminal event of the mailbox is
committed, when the mailbox is destroyed without one, or when no mailbox could be
created for it.
-/
namespace KimServing
open Library

inductive CallPhase where
  | early | reserved | handing | dropping | ending
  deriving DecidableEq

def CallPc.phase : CallPc → CallPhase
  | .submitMailbox _ => .reserved
  | .submitBackend _ => .handing
  | .submitDrop _ => .dropping
  | .unlockShared _ | .unlockExclusive _ | .returned _ => .ending
  | _ => .early

namespace Call

structure Fresh (c : Call) : Prop where
  admitted : c.admitted = false
  lease : c.lease.valid = false
  releases : c.releases = 0
  releasedBy : c.releasedBy = none
  box : c.box = none
  accepted : c.accepted = false

structure Reserved (c : Call) : Prop where
  admitted : c.admitted = true
  lease : c.lease.valid = true
  releases : c.releases = 0
  releasedBy : c.releasedBy = none
  box : c.box = none
  accepted : c.accepted = false

structure Unboxed (c : Call) : Prop where
  admitted : c.admitted = true
  lease : c.lease.valid = false
  releases : c.releases = 1
  releasedBy : c.releasedBy = some .noMailbox
  box : c.box = none
  accepted : c.accepted = false

inductive Leased (c : Call) (b : MailboxObject) : Prop where
  | out (hvalid : c.lease.valid = true) (hreleases : c.releases = 0)
    (hcause : c.releasedBy = none) (hlive : b.destroyed = false)
    (hterminal : b.mailbox.terminalCommitted = b.releasing)
  | terminal (hinvalid : c.lease.valid = false) (hreleases : c.releases = 1)
    (hcause : c.releasedBy = some .terminal) (hcommitted : b.mailbox.terminalCommitted = true)
    (hreleasing : b.releasing = false)
  | destroyed (hinvalid : c.lease.valid = false) (hreleases : c.releases = 1)
    (hcause : c.releasedBy = some .destroyed) (hopen : b.mailbox.terminalCommitted = false)
    (hdestroyed : b.destroyed = true) (hreleasing : b.releasing = false)

structure Boxed (c : Call) (b : MailboxObject) : Prop where
  box : c.box = some b
  admitted : c.admitted = true
  leased : c.Leased b
  releasing : b.releasing = true → 0 < b.backendRefs
  destroyed : b.destroyed = true → b.referenced = false

def Sound (c : Call) : Prop :=
  match c.pc.phase with
  | .early => c.Fresh
  | .reserved => c.Reserved
  | .handing => c.accepted = false ∧ ∃ b, c.Boxed b ∧ b.callRef = true ∧ b.consumerRefs = 0
  | .dropping => c.Reserved ∨ c.accepted = false ∧
      ∃ b, c.Boxed b ∧ b.callRef = true ∧ b.consumerRefs = 0 ∧ b.backendRefs = 0
  | .ending => c.Fresh ∨ c.Unboxed ∨ ∃ b, c.Boxed b ∧ b.callRef = false ∧
      (c.accepted = false → b.destroyed = true) ∧
      (c.accepted = true → c.pc = .unlockShared .success ∨ c.pc = .returned .success)

def given (c : Call) (cause : ReleaseCause) : Call :=
  if c.lease.valid then
    { c with lease := {}, releases := c.releases + 1, releasedBy := some cause }
  else c

theorem given_pc (c : Call) (cause : ReleaseCause) : (c.given cause).pc = c.pc := by
  unfold given
  split <;> rfl

theorem given_accepted (c : Call) (cause : ReleaseCause) :
    (c.given cause).accepted = c.accepted := by
  unfold given
  split <;> rfl

variable {c : Call} {b b' : MailboxObject}

theorem Leased.congr (h : c.Leased b) {d : Call} (hlease : d.lease = c.lease)
    (hreleases : d.releases = c.releases) (hcause : d.releasedBy = c.releasedBy)
    (hdestroyed : b'.destroyed = b.destroyed)
    (hcommitted : b'.mailbox.terminalCommitted = b.mailbox.terminalCommitted)
    (hreleasing : b'.releasing = b.releasing) : d.Leased b' := by
  have hvalid : d.lease.valid = c.lease.valid := by rw [hlease]
  cases h with
  | out h1 h2 h3 h4 h5 =>
    exact .out (hvalid.trans h1) (hreleases.trans h2) (hcause.trans h3) (hdestroyed.trans h4)
      (hcommitted.trans (h5.trans hreleasing.symm))
  | terminal h1 h2 h3 h4 h5 =>
    exact .terminal (hvalid.trans h1) (hreleases.trans h2) (hcause.trans h3) (hcommitted.trans h4)
      (hreleasing.trans h5)
  | destroyed h1 h2 h3 h4 h5 h6 =>
    exact .destroyed (hvalid.trans h1) (hreleases.trans h2) (hcause.trans h3) (hcommitted.trans h4)
      (hdestroyed.trans h5) (hreleasing.trans h6)

theorem Boxed.setPc (h : c.Boxed b) (pc : CallPc) : Boxed { c with pc := pc } b :=
  { h with leased := h.leased.congr rfl rfl rfl rfl rfl rfl }

theorem Boxed.live (h : c.Boxed b) (hreferenced : b.referenced = true) : b.destroyed = false := by
  rw [← Bool.not_eq_true]
  intro hdestroyed
  rw [h.destroyed hdestroyed] at hreferenced
  cases hreferenced

theorem Boxed.uses (h : c.Boxed b) {pc : CallPc} (hlive : b.destroyed = false)
    (hu : GenerationRuntime.Uses pc b b') : Boxed { c with box := some b' } b' := by
  refine ⟨rfl, h.admitted, ?_, hu.releasing h.releasing, fun hd => ?_⟩
  · cases h.leased with
    | out hvalid hreleases hcause _ hterminal =>
      refine .out hvalid hreleases hcause hu.destroyed ?_
      obtain ⟨hcommitted, hreleasing⟩ | ⟨-, -, hcommitted, hreleasing⟩ := hu.terminal
      · rw [hcommitted, hreleasing, hterminal]
      · rw [hcommitted, hreleasing]
    | terminal hinvalid hreleases hcause hcommitted hreleasing =>
      obtain ⟨hcommitted', hreleasing'⟩ | ⟨hopen, -, -, -⟩ := hu.terminal
      · exact .terminal hinvalid hreleases hcause (hcommitted'.trans hcommitted)
          (hreleasing'.trans hreleasing)
      · cases hopen.symm.trans hcommitted
    | destroyed _ _ _ _ hdestroyed => cases hdestroyed.symm.trans hlive
  · cases hd.symm.trans hu.destroyed

theorem Boxed.release (h : c.Boxed b) (hreleasing : b.releasing = true) :
    Boxed (given { c with box := some { b with releasing := false } } .terminal)
      { b with releasing := false } := by
  cases h.leased with
  | out hvalid hreleases hcause hlive hterminal =>
    rw [given, if_pos hvalid]
    exact ⟨rfl, h.admitted, .terminal rfl (congrArg (· + 1) hreleases) rfl
      (hterminal.trans hreleasing) rfl, nofun, h.destroyed⟩
  | terminal _ _ _ _ hidle | destroyed _ _ _ _ _ hidle => cases hidle.symm.trans hreleasing

theorem Boxed.destroy (h : c.Boxed b) (hunused : b.referenced = false) :
    Boxed (given { c with box := some { b with destroyed := true } } .destroyed)
      { b with destroyed := true } := by
  have hidle : b.releasing = false := by
    rw [← Bool.not_eq_true]
    intro hreleasing
    simp [MailboxObject.referenced, h.releasing hreleasing] at hunused
  cases h.leased with
  | out hvalid hreleases hcause hlive hterminal =>
    rw [given, if_pos hvalid]
    exact ⟨rfl, h.admitted, .destroyed rfl (congrArg (· + 1) hreleases) rfl
      (hterminal.trans hidle) rfl hidle, h.releasing, fun _ => hunused⟩
  | terminal hinvalid hreleases hcause hcommitted hreleasing =>
    rw [given, if_neg (by simp [hinvalid])]
    exact ⟨rfl, h.admitted, .terminal hinvalid hreleases hcause hcommitted hreleasing, h.releasing,
      fun _ => hunused⟩
  | destroyed hinvalid hreleases hcause hopen _ hreleasing =>
    rw [given, if_neg (by simp [hinvalid])]
    exact ⟨rfl, h.admitted, .destroyed hinvalid hreleases hcause hopen rfl hreleasing, h.releasing,
      fun _ => hunused⟩

theorem Reserved.give (h : c.Reserved) : (c.given .noMailbox).Unboxed := by
  rw [given, if_pos h.lease]
  exact ⟨h.admitted, rfl, congrArg (· + 1) h.releases, rfl, h.box, h.accepted⟩

theorem Fresh.sound (h : c.Fresh) (hphase : c.pc.phase = .early ∨ c.pc.phase = .ending) :
    c.Sound := by
  unfold Sound
  obtain hphase | hphase := hphase <;> rw [hphase]
  · exact h
  · exact .inl h

theorem Fresh.stamped (h : c.Fresh) (pc : CallPc) (op : Option RuntimeOp)
    (checkedIn evaluatedIn acquiredIn : Option ℕ) :
    Fresh { c with
      pc := pc
      op := op
      checkedIn := checkedIn
      evaluatedIn := evaluatedIn
      acquiredIn := acquiredIn } :=
  { h with }

theorem Sound.fresh (h : c.Sound) (hphase : c.pc.phase = .early) : c.Fresh := by
  unfold Sound at h
  rw [hphase] at h
  exact h

end Call

namespace GenerationRuntime
variable {K : Type} {s t : GenerationRuntime K} {k : ℕ}

def CallsInv (s : GenerationRuntime K) : Prop := ∀ k, (s.calls k).Sound

theorem giveBack_calls (c : Call) (cause : ReleaseCause) :
    (s.giveBack k c cause).calls = (s.setCall k (c.given cause)).calls := by
  unfold giveBack Call.given
  split <;> rfl

theorem giveBack_state (c : Call) (cause : ReleaseCause) :
    (s.giveBack k c cause).state = s.state := by
  unfold giveBack
  split <;> rfl

theorem giveBack_period (c : Call) (cause : ReleaseCause) :
    (s.giveBack k c cause).period = s.period := by
  unfold giveBack
  split <;> rfl

namespace CallsInv

theorem setCall (h : s.CallsInv) {c : Call} (hc : c.Sound) (ht : t.calls = (s.setCall k c).calls) :
    t.CallsInv := by
  intro j
  rw [ht]
  exact forall_setCall (P := fun _ d => d.Sound) hc (fun j _ => h j) j

theorem setPc (h : s.CallsInv) {pc : CallPc} (hearly : (s.calls k).pc.phase = .early)
    (hpc : pc.phase = .early ∨ pc.phase = .ending) (ht : t.calls = (s.setPc k pc).calls) :
    t.CallsInv :=
  h.setCall ((((h k).fresh hearly).stamped pc _ _ _ _).sound hpc) ht

theorem «begin» (h : s.CallsInv) {op : RuntimeOp} (hs : s.begin k op = some t) : t.CallsInv := by
  obtain ⟨hpc, rfl⟩ := begin_eq_some hs
  have hfresh := (h k).fresh (by rw [hpc]; rfl)
  refine h.setCall ?_ rfl
  refine (hfresh.stamped _ _ _ _ _).sound ?_
  cases op with
  | cancel =>
    dsimp only [RuntimeOp.entry]
    split
    · exact .inr rfl
    · exact .inl rfl
  | _ => exact .inl rfl

/-- `start`, `cancel` and `stop` only move the program counter of their call. -/
theorem controlStep (h : s.CallsInv) (choice : CallChoice)
    (hs : s.startStep k choice = some t ∨ s.cancelStep k = some t ∨
      s.stopStep k choice = some t) : t.CallsInv := by
  unfold GenerationRuntime.startStep GenerationRuntime.cancelStep GenerationRuntime.stopStep at hs
  rcases hs with hs | hs | hs <;> cases hpc : (s.calls k).pc
  all_goals simp only [hpc] at hs
  all_goals repeat' split at hs
  all_goals cases hs
  all_goals first
    | exact h.setPc (by rw [hpc]; rfl) (.inl rfl) rfl
    | exact h.setPc (by rw [hpc]; rfl) (.inr rfl) rfl

theorem unlockStep (h : s.CallsInv) (hs : s.unlockStep k = some t) : t.CallsInv := by
  have hover {status : Status} (hphase : (s.calls k).pc.phase = .ending)
      (hshared : (s.calls k).pc = .unlockShared .success → status = .success)
      (hreturned : ∀ status, (s.calls k).pc ≠ .returned status) :
      Call.Sound { s.calls k with pc := .returned status } := by
    have hk := h k
    unfold Call.Sound at hk
    rw [hphase] at hk
    obtain hfresh | hunboxed | ⟨b, hboxed, href, hdropped, haccepted⟩ := hk
    · exact .inl (hfresh.stamped _ _ _ _ _)
    · exact .inr (.inl { hunboxed with })
    · refine .inr (.inr ⟨b, hboxed.setPc _, href, hdropped, fun ha => .inr ?_⟩)
      obtain hpc | hpc := haccepted ha
      · rw [hshared hpc]
      · exact absurd hpc (hreturned _)
  unfold GenerationRuntime.unlockStep at hs
  split at hs <;> cases hs
  · next status hpc =>
    refine h.setCall (hover (by rw [hpc]; rfl) (fun heq => ?_) (by simp [hpc])) rfl
    rw [hpc] at heq
    exact CallPc.unlockShared.inj heq
  · next status hpc =>
    exact h.setCall (hover (by rw [hpc]; rfl) (by simp [hpc]) (by simp [hpc])) rfl

theorem mailboxStep (h : s.CallsInv) {op : MailboxOp} (hs : s.mailboxStep k op = some t) :
    t.CallsInv := by
  obtain ⟨b, hbox, hlive, heffect⟩ := mailboxStep_cases hs
  have hk := h k
  unfold Call.Sound at hk
  cases hphase : (s.calls k).pc.phase <;> rw [hphase] at hk
  case early => cases hbox.symm.trans hk.box
  case reserved => cases hbox.symm.trans hk.box
  case handing =>
    obtain ⟨haccepted, b₀, hboxed, href, hconsumer⟩ := hk
    obtain rfl : b₀ = b := Option.some.inj (hboxed.box.symm.trans hbox)
    cases heffect with
    | nothing => exact h
    | used b' huses =>
      refine h.setCall ?_ rfl
      unfold Call.Sound
      simp only [hphase]
      refine ⟨haccepted, b', hboxed.uses hlive huses, huses.callRef.trans href, ?_⟩
      have := huses.consumer
      omega
    | released hreleasing =>
      refine h.setCall ?_ (giveBack_calls _ _)
      unfold Call.Sound
      simp only [Call.given_pc, Call.given_accepted, hphase]
      exact ⟨haccepted, _, hboxed.release hreleasing, href, hconsumer⟩
    | destroyed hunused => simp [MailboxObject.referenced, href] at hunused
  case dropping =>
    obtain hreserved | ⟨haccepted, b₀, hboxed, href, hconsumer, hbackend⟩ := hk
    · cases hbox.symm.trans hreserved.box
    obtain rfl : b₀ = b := Option.some.inj (hboxed.box.symm.trans hbox)
    cases heffect with
    | nothing => exact h
    | used b' huses =>
      refine h.setCall ?_ rfl
      unfold Call.Sound
      simp only [hphase]
      refine .inr ⟨haccepted, b', hboxed.uses hlive huses, huses.callRef.trans href, ?_, ?_⟩
      · have := huses.consumer
        omega
      · by_contra hne
        obtain hpos | ⟨request, hpc⟩ := huses.backend (Nat.pos_of_ne_zero hne)
        · omega
        · rw [hpc] at hphase
          cases hphase
    | released hreleasing =>
      have := hboxed.releasing hreleasing
      omega
    | destroyed hunused => simp [MailboxObject.referenced, href] at hunused
  case ending =>
    obtain hfresh | hunboxed | ⟨b₀, hboxed, href, hdropped, haccepted⟩ := hk
    · cases hbox.symm.trans hfresh.box
    · cases hbox.symm.trans hunboxed.box
    obtain rfl : b₀ = b := Option.some.inj (hboxed.box.symm.trans hbox)
    have hheld : (s.calls k).accepted = true := by
      rw [← Bool.not_eq_false]
      exact fun hfalse => by cases (hdropped hfalse).symm.trans hlive
    have hnot {c : Call} (hc : c.accepted = (s.calls k).accepted) {P : Prop} :
        c.accepted = false → P := fun hfalse => by cases hfalse.symm.trans (hc.trans hheld)
    cases heffect with
    | nothing => exact h
    | used b' huses =>
      refine h.setCall ?_ rfl
      unfold Call.Sound
      simp only [hphase]
      exact .inr (.inr ⟨b', hboxed.uses hlive huses, huses.callRef.trans href, hnot rfl, haccepted⟩)
    | released hreleasing =>
      refine h.setCall ?_ (giveBack_calls _ _)
      unfold Call.Sound
      simp only [Call.given_pc, Call.given_accepted, hphase]
      exact .inr (.inr ⟨_, hboxed.release hreleasing, href, hnot rfl, haccepted⟩)
    | destroyed hunused =>
      refine h.setCall ?_ (giveBack_calls _ _)
      unfold Call.Sound
      simp only [Call.given_pc, Call.given_accepted, hphase]
      exact .inr (.inr ⟨_, hboxed.destroy hunused, href, hnot rfl, haccepted⟩)

end CallsInv

/-- A backend that refuses a submission, or throws, keeps no reference to its mailbox. -/
def KeepsNoMailbox (s : GenerationRuntime K) : RuntimeAction → Prop
  | .submit k choice => ∀ request, (s.calls k).pc = .submitBackend request → choice ≠ .go →
      ∀ b, (s.calls k).box = some b → b.backendRefs = 0
  | _ => True

section Submit
variable [Zero K] [Add K] [LE K] [DecidableLE K] [TtftText K]

theorem CallsInv.submitStep (h : s.CallsInv) {choice : CallChoice}
    (hkeeps : s.KeepsNoMailbox (.submit k choice)) (hs : s.submitStep k choice = some t) :
    t.CallsInv := by
  have hk := h k
  unfold GenerationRuntime.submitStep at hs
  cases hpc : (s.calls k).pc
  case submitValidate request =>
    simp only [hpc] at hs
    cases hs
    refine h.setPc (by rw [hpc]; rfl) ?_ rfl
    generalize validateRequestForAdmission request _ = status
    split
    · exact .inl rfl
    · exact .inr rfl
  case submitLock request =>
    have hfresh := hk.fresh (by rw [hpc]; rfl)
    simp only [hpc] at hs
    split at hs <;> cases hs
    refine h.setCall ?_ rfl
    refine (hfresh.stamped _ _ _ _ _).sound ?_
    dsimp only
    split
    · exact .inl rfl
    · exact .inr rfl
  case submitEvaluate request =>
    have hfresh := hk.fresh (by rw [hpc]; rfl)
    simp only [hpc] at hs
    split at hs <;> cases hs
    · refine h.setCall ?_ rfl
      exact (hfresh.stamped _ _ _ _ _).sound (.inl rfl)
    · refine h.setCall ?_ rfl
      refine (hfresh.stamped _ _ _ _ _).sound ?_
      dsimp only
      split
      · exact .inl rfl
      · exact .inr rfl
  case submitAcquire request evaluated =>
    have hfresh := hk.fresh (by rw [hpc]; rfl)
    simp only [hpc] at hs
    split at hs <;> cases hs
    · refine h.setCall ?_ rfl
      exact Call.Reserved.mk rfl rfl hfresh.releases hfresh.releasedBy hfresh.box hfresh.accepted
    · refine h.setCall ?_ rfl
      exact (hfresh.stamped _ _ _ _ _).sound (.inr rfl)
  case submitMailbox request =>
    unfold Call.Sound at hk
    rw [hpc] at hk
    have hreserved : (s.calls k).Reserved := hk
    have hdrop (status : Status) : (s.setPc k (.submitDrop status)).CallsInv := by
      refine h.setCall ?_ rfl
      exact .inl { hreserved with }
    simp only [hpc] at hs
    split at hs
    · split at hs <;> cases hs
      · next mailbox hcreate =>
        refine h.setCall ?_ rfl
        refine ⟨hreserved.accepted, _, ⟨rfl, hreserved.admitted, .out hreserved.lease
          hreserved.releases hreserved.releasedBy rfl ?_, nofun,
          nofun⟩, rfl, rfl⟩
        exact GenerationMailbox.create_open hcreate
      · exact hdrop _
    · cases hs
      exact hdrop _
    · cases hs
      exact hdrop _
    · cases hs
  case submitBackend request =>
    unfold Call.Sound at hk
    rw [hpc] at hk
    obtain ⟨haccepted, b, hboxed, href, hconsumer⟩ := hk
    have hlive := hboxed.live (by rw [MailboxObject.referenced, href]; rfl)
    have hdrop (status : Status) (hchoice : choice ≠ .go) :
        (s.setPc k (.submitDrop status)).CallsInv := by
      have hbackend := hkeeps request hpc hchoice b hboxed.box
      refine h.setCall ?_ rfl
      exact .inr ⟨haccepted, b, hboxed.setPc _, href, hconsumer, hbackend⟩
    simp only [hpc, hboxed.box] at hs
    split at hs
    · next heq =>
      cases hs
      cases heq
      refine h.setCall ?_ rfl
      have hboxed' : Call.Boxed { s.calls k with
          pc := .unlockShared .success
          box := some { b with callRef := false, consumerRefs := b.consumerRefs + 1 }
          accepted := true
          answeredIn := s.stamp } { b with callRef := false, consumerRefs := b.consumerRefs + 1 } :=
        ⟨rfl, hboxed.admitted, hboxed.leased.congr rfl rfl rfl rfl rfl rfl, hboxed.releasing,
          fun hd => (by cases hd.symm.trans hlive)⟩
      exact .inr (.inr ⟨_, hboxed', rfl, nofun, fun _ => .inl rfl⟩)
    · split at hs <;> cases hs
      exact hdrop _ (by simp)
    · cases hs
      exact hdrop _ (by simp)
    · cases hs
      exact hdrop _ (by simp)
    · cases hs
  case submitDrop status =>
    unfold Call.Sound at hk
    rw [hpc] at hk
    simp only [hpc] at hs
    obtain hreserved | ⟨haccepted, b, hboxed, href, hconsumer, hbackend⟩ := hk
    · simp only [hreserved.box] at hs
      cases hs
      refine h.setCall ?_ (giveBack_calls _ _)
      unfold Call.Sound
      simp only [Call.given_pc, CallPc.phase]
      refine .inr (.inl (Call.Reserved.give ?_))
      exact { hreserved with box := rfl }
    · simp only [hboxed.box] at hs
      split at hs <;> cases hs
      · next hreferenced => simp [MailboxObject.referenced, hconsumer, hbackend] at hreferenced
      · next hunused =>
        have hboxed' : Call.Boxed { s.calls k with
            pc := .unlockShared status
            box := some { b with callRef := false } } { b with callRef := false } :=
          ⟨rfl, hboxed.admitted, hboxed.leased.congr rfl rfl rfl rfl rfl rfl, hboxed.releasing,
            fun hd => (by
              rw [hboxed.live (by rw [MailboxObject.referenced, href]; rfl)] at hd
              cases hd)⟩
        refine h.setCall ?_ (giveBack_calls _ _)
        unfold Call.Sound
        simp only [Call.given_pc, Call.given_accepted, CallPc.phase]
        refine .inr (.inr ⟨_, hboxed'.destroy (by simpa using hunused), rfl, fun _ => rfl, ?_⟩)
        exact fun ha => by cases haccepted.symm.trans ha
  all_goals
    simp only [hpc] at hs
    cases hs

end Submit

end GenerationRuntime

end KimServing

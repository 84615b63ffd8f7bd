import KimServing.Client.EventBuffer
import KimServing.Library.Table
import Mathlib.Logic.Function.Basic

/-! # Who owes a request its terminal

A request is entered in the table, and leaves it to a holder: the dispatch that
received its terminal, or a failure of the client that took the whole table. The
holder puts a terminal into the event buffer later, outside the lock. A request
that was accepted and has no terminal is therefore in the table, in some hand, or
was removed by its own submission.
-/
namespace KimServing.Client
open Library Function List

/-- The requests of a client. A holder keeps what it has to put: the terminal of the
worker, or nothing when it is to make up one. -/
structure Books where
  states : ℕ → RequestState
  stateCount : ℕ
  requests : AList (fun _ : ℤ => ℕ)
  held : ℕ → List (ℕ × Option Terminal)
  received : ℕ → Option Terminal
  withdrawn : ℕ → Bool
  yielded : ℕ → List Yield
  dispatched : List ServerMessage

namespace Books

variable {results : List Yield} {r : RequestState} {received : Option Terminal}
  {dispatched : List ServerMessage}

def setState (b : Books) (n : ℕ) (r : RequestState) : Books :=
  { b with states := update b.states n r }

def setHeld (b : Books) (k : ℕ) (items : List (ℕ × Option Terminal)) : Books :=
  { b with held := update b.held k items }

def note (b : Books) (m : ServerMessage) : Books := { b with dispatched := b.dispatched ++ [m] }

/-- A change of a request state that no other part of the books depends on. -/
structure Minor (r r' : RequestState) : Prop where
  requestId : r'.requestId = r.requestId
  accepted : r'.accepted = r.accepted
  rejected : r'.rejected = r.rejected
  failure : r'.failure = r.failure
  terminalReceived : r'.terminalReceived = r.terminalReceived
  terminal : r'.events.terminal = r.events.terminal
  delivered : r'.events.terminalDelivered = r.events.terminalDelivered
  deltas : r'.events.deltas = r.events.deltas ∨ r.events.terminal = none

inductive Step (b : Books) : Books → Prop where
  | idle : b.Step b
  | register (requestId : ℤ) (maxDeltaEvents : ℕ) (hnew : b.requests.lookup requestId = none) :
      b.Step { b.setState b.stateCount { requestId, events := { maxDeltaEvents } } with
        stateCount := b.stateCount + 1
        requests := b.requests.insert requestId b.stateCount }
  | minor (requestId : ℤ) (n : ℕ) (r : RequestState)
      (hfind : b.requests.lookup requestId = some n) (hminor : Minor (b.states n) r) :
      b.Step (b.setState n r)
  | note (m : ServerMessage) : b.Step (b.note m)
  | accept (requestId n : ℕ) (hfind : b.requests.lookup (requestId : ℤ) = some n) :
      b.Step ((b.setState n { b.states n with accepted := true }).note (.accepted requestId))
  | reject (requestId n : ℕ) (status : Status) (hfind : b.requests.lookup (requestId : ℤ) = some n)
      (hnot : (b.states n).accepted = false) :
      b.Step ({ b.setState n { b.states n with rejected := some status } with
        requests := b.requests.erase requestId }.note (.rejected requestId status))
  | receive (k n : ℕ) (t : Terminal) (hfind : b.requests.lookup (t.requestId : ℤ) = some n)
      (hfree : b.held k = []) :
      b.Step ({ (b.setState n { b.states n with terminalReceived := true }).setHeld k
          [(n, some t)] with
        requests := b.requests.erase t.requestId
        received := update b.received n (some t) }.note (.terminal t))
  | collect (k : ℕ) (status : Status) (hfree : b.held k = []) :
      b.Step { b.setHeld k (b.requests.entries.map (fun entry => (entry.2, none))) with
        requests := ∅
        states := fun n =>
          if n ∈ b.requests.entries.map Sigma.snd then { b.states n with failure := some status }
          else b.states n }
  | put (k n : ℕ) (what : Option Terminal) (rest : List (ℕ × Option Terminal)) (t : Terminal)
      (hheld : b.held k = (n, what) :: rest) (hterminal : what = none ∨ what = some t) :
      b.Step ((b.setState n { b.states n with
        events := ((b.states n).events.putTerminal t).1 }).setHeld k rest)
  | skip (k n : ℕ) (what : Option Terminal) (rest : List (ℕ × Option Terminal))
      (hheld : b.held k = (n, what) :: rest)
      (hwhy : what = none ∧ ((b.states n).accepted = false ∨ (b.states n).terminalReceived = true) ∨
        (b.states n).events.terminal.isSome) :
      b.Step (b.setHeld k rest)
  | withdraw (requestId : ℤ) (withdrawn : ℕ → Bool)
      (hwithdrawn : ∀ n, withdrawn n = (b.withdrawn n || decide (b.requests.lookup requestId = some n))) :
      b.Step { b with requests := b.requests.erase requestId, withdrawn := withdrawn }
  | consume (n : ℕ) (events : EventBuffer) (result : Yield)
      (hget : (b.states n).events.get = some (events, result)) :
      b.Step { b.setState n { b.states n with events := events } with
        yielded := update b.yielded n (b.yielded n ++ [result]) }

/-! ## The invariant -/

def Yields (events : EventBuffer) (results : List Yield) : Prop :=
  (events.terminalDelivered = false ∧ ∃ ds : List TokenDelta, results = ds.map .delta) ∨
  (events.terminalDelivered = true ∧ events.deltas = [] ∧ ∃ (ds : List TokenDelta) (t : Terminal) (m : ℕ),
    events.terminal = some t ∧
    results = ds.map .delta ++ .terminal t :: List.replicate m .stopIteration)

def InTable (b : Books) (n : ℕ) (requestId : ℤ) : Prop := b.requests.lookup requestId = some n

def InHand (b : Books) (n k : ℕ) (what : Option Terminal) : Prop := (n, what) ∈ b.held k

/-- Where a request is: in the table, in one hand, settled by a terminal, or gone from
the client without one. -/
inductive Phase (r : RequestState) (received : Option Terminal) (withdrawn : Bool)
    (inTable : ℤ → Prop) (inHand : ℕ → Option Terminal → Prop) : Prop where
  | listed (htable : ∀ i, inTable i ↔ i = r.requestId) (hhand : ∀ k what, ¬inHand k what)
      (hterminal : r.events.terminal = none) (hreceived : received = none)
      (hrejected : r.rejected = none)
  | taken (k : ℕ) (what : Option Terminal) (htable : ∀ i, ¬inTable i)
      (hhand : ∀ j other, inHand j other ↔ j = k ∧ other = what)
      (hterminal : r.events.terminal = none) (hreceived : received = what)
  | settled (t : Terminal) (htable : ∀ i, ¬inTable i) (hhand : ∀ k what, ¬inHand k what)
      (hterminal : r.events.terminal = some t) (hreceived : received = none ∨ received = some t)
  | gone (htable : ∀ i, ¬inTable i) (hhand : ∀ k what, ¬inHand k what)
      (hterminal : r.events.terminal = none) (hreceived : received = none)
      (haccepted : r.accepted = true → withdrawn = true)

structure Account (r : RequestState) (received : Option Terminal) (results : List Yield)
    (dispatched : List ServerMessage) : Prop where
  flag : r.terminalReceived = received.isSome
  yields : Yields r.events results
  accepted : r.accepted = true →
    ∃ requestId : ℕ, (requestId : ℤ) = r.requestId ∧ .accepted requestId ∈ dispatched
  rejected : ∀ status, r.rejected = some status →
    ∃ requestId : ℕ, (requestId : ℤ) = r.requestId ∧ .rejected requestId status ∈ dispatched

structure Unused (b : Books) (n : ℕ) : Prop where
  table : ∀ i, ¬b.InTable n i
  hand : ∀ k what, ¬b.InHand n k what
  accepted : (b.states n).accepted = false
  terminal : (b.states n).events.terminal = none
  deltas : (b.states n).events.deltas = []
  received : b.received n = none
  withdrawn : b.withdrawn n = false
  yielded : b.yielded n = []

def PhaseOf (b : Books) (n : ℕ) : Prop :=
  Phase (b.states n) (b.received n) (b.withdrawn n) (b.InTable n) (b.InHand n)

def AccountOf (b : Books) (n : ℕ) : Prop :=
  Account (b.states n) (b.received n) (b.yielded n) b.dispatched

structure Inv (b : Books) : Prop where
  phase : ∀ n, b.PhaseOf n
  account : ∀ n, b.AccountOf n
  unused : ∀ n, b.stateCount ≤ n → b.Unused n
  nodup : ∀ k, ((b.held k).map Prod.fst).Nodup

/-- Later books forget nothing about an earlier request, and nobody takes up one that
was not in the table. -/
structure Later (b b' : Books) : Prop where
  count : b.stateCount ≤ b'.stateCount
  dispatched : b.dispatched ⊆ b'.dispatched
  requestId : ∀ n, n < b.stateCount → (b'.states n).requestId = (b.states n).requestId
  accepted : ∀ n, n < b.stateCount → (b.states n).accepted = true → (b'.states n).accepted = true
  terminal : ∀ n t, n < b.stateCount → (b.states n).events.terminal = some t →
    (b'.states n).events.terminal = some t
  entry : ∀ requestId n, n < b.stateCount → b'.requests.lookup requestId = some n →
    b.requests.lookup requestId = some n
  held : ∀ k n what, n < b.stateCount → (∀ requestId, b.requests.lookup requestId ≠ some n) →
    (n, what) ∈ b'.held k → (n, what) ∈ b.held k

theorem Later.refl (b : Books) : b.Later b :=
  ⟨Nat.le_refl _, fun _ h => h, fun _ _ => rfl, fun _ _ h => h, fun _ _ _ h => h,
    fun _ _ _ h => h, fun _ _ _ _ _ h => h⟩

theorem Later.trans {a b c : Books} (h : a.Later b) (h' : b.Later c) : a.Later c := by
  refine ⟨h.count.trans h'.count, List.Subset.trans h.dispatched h'.dispatched, ?_, ?_, ?_, ?_, ?_⟩
  · intro n hn
    exact (h'.requestId n (hn.trans_le h.count)).trans (h.requestId n hn)
  · intro n hn ha
    exact h'.accepted n (hn.trans_le h.count) (h.accepted n hn ha)
  · intro n t hn ht
    exact h'.terminal n t (hn.trans_le h.count) (h.terminal n t hn ht)
  · intro requestId n hn hfind
    exact h.entry requestId n hn (h'.entry requestId n (hn.trans_le h.count) hfind)
  · intro k n what hn hout hheld
    refine h.held k n what hn hout (h'.held k n what (hn.trans_le h.count) ?_ hheld)
    intro requestId hfind
    exact hout requestId (h.entry requestId n hn hfind)

/-! ## Yields -/

theorem Yields.minor {r' : RequestState} (h : Minor r r') (hr : Yields r.events results) :
    Yields r'.events results := by
  rcases hr with ⟨hno, hresults⟩ | ⟨hdelivered, hempty, ds, t, m, ht, hresults⟩
  · exact Or.inl ⟨h.delivered.trans hno, hresults⟩
  · refine Or.inr ⟨h.delivered.trans hdelivered, ?_, ds, t, m, h.terminal.trans ht, hresults⟩
    rcases h.deltas with hsame | hnone
    · rw [hsame, hempty]
    · cases hnone.symm.trans ht

theorem Yields.put {events : EventBuffer} (h : Yields events results)
    (hnone : events.terminal = none) (t : Terminal) : Yields (events.putTerminal t).1 results := by
  rcases h with ⟨hno, hresults⟩ | ⟨-, -, ds, u, m, hu, -⟩
  · exact Or.inl ⟨by simpa [EventBuffer.putTerminal, hnone] using hno, hresults⟩
  · cases hnone.symm.trans hu

theorem Yields.get {events events' : EventBuffer} {result : Yield} (h : Yields events results)
    (hget : events.get = some (events', result)) :
    Yields events' (results ++ [result]) ∧ events'.terminal = events.terminal ∧
      events'.deltas <:+ events.deltas := by
  rw [EventBuffer.get] at hget
  cases hdeltas : events.deltas with
  | cons d rest =>
    rw [hdeltas] at hget
    cases hget
    rcases h with ⟨hno, ds, rfl⟩ | ⟨-, hempty, -⟩
    · exact ⟨Or.inl ⟨hno, ds ++ [d], by simp⟩, rfl, suffix_cons d rest⟩
    · cases hdeltas.symm.trans hempty
  | nil =>
    cases hterminal : events.terminal with
    | none =>
      rw [hdeltas, hterminal] at hget
      cases hget
    | some t =>
      rw [hdeltas, hterminal] at hget
      simp only at hget
      split at hget
      · cases hget
        rcases h with ⟨hno, -⟩ | ⟨hdelivered, -, ds, u, m, hu, rfl⟩
        · simp_all
        · refine ⟨Or.inr ⟨hdelivered, hdeltas, ds, u, m + 1, hu, ?_⟩, hterminal, ?_⟩
          · rw [replicate_succ', append_assoc, cons_append]
          · rw [hdeltas]
      · next hno =>
        cases hget
        rcases h with ⟨-, ds, rfl⟩ | ⟨hdelivered, -⟩
        · exact ⟨Or.inr ⟨rfl, rfl, ds, t, 0, rfl, rfl⟩, rfl, suffix_refl []⟩
        · exact absurd hdelivered hno

/-! ## Steps keep the invariant -/

theorem Phase.congr {withdrawn : Bool} {T T' : ℤ → Prop} {H H' : ℕ → Option Terminal → Prop}
    (h : Phase r received withdrawn T H) (hT : ∀ i, T' i ↔ T i)
    (hH : ∀ k what, H' k what ↔ H k what) : Phase r received withdrawn T' H' := by
  obtain rfl : T' = T := funext fun i => propext (hT i)
  obtain rfl : H' = H := funext fun k => funext fun what => propext (hH k what)
  exact h

theorem Account.mono {dispatched' : List ServerMessage}
    (h : Account r received results dispatched) (hmore : dispatched ⊆ dispatched') :
    Account r received results dispatched' := by
  refine ⟨h.flag, h.yields, fun ha => ?_, fun status hs => ?_⟩
  · obtain ⟨requestId, hid, hmem⟩ := h.accepted ha
    exact ⟨requestId, hid, hmore hmem⟩
  · obtain ⟨requestId, hid, hmem⟩ := h.rejected status hs
    exact ⟨requestId, hid, hmore hmem⟩

theorem Account.minor {r' : RequestState} (h : Account r received results dispatched)
    (hminor : Minor r r') : Account r' received results dispatched := by
  refine ⟨hminor.terminalReceived.trans h.flag, h.yields.minor hminor, ?_, ?_⟩
  · rw [hminor.accepted, hminor.requestId]
    exact h.accepted
  · rw [hminor.rejected, hminor.requestId]
    exact h.rejected

theorem Account.put (h : Account r received results dispatched) (hnone : r.events.terminal = none)
    (t : Terminal) :
    Account { r with events := (r.events.putTerminal t).1 } received results dispatched :=
  { h with yields := h.yields.put hnone t }

section Keeps
variable {b : Books} (hb : b.Inv)
include hb

theorem Inv.of_lookup {i : ℤ} {n : ℕ} (h : b.requests.lookup i = some n) :
    (∀ j, b.InTable n j ↔ j = i) ∧ (∀ k what, ¬b.InHand n k what) ∧
      (b.states n).requestId = i ∧ (b.states n).events.terminal = none ∧ b.received n = none ∧
      (b.states n).rejected = none ∧ n < b.stateCount := by
  have hlt : n < b.stateCount := by
    by_contra hge
    exact (hb.unused n (Nat.le_of_not_lt hge)).table i h
  cases hb.phase n with
  | listed htable hhand hterminal hreceived hrejected =>
    have hi := (htable i).mp h
    exact ⟨fun j => hi ▸ htable j, hhand, hi.symm, hterminal, hreceived, hrejected, hlt⟩
  | taken k what htable | settled t htable | gone htable => exact absurd h (htable i)

theorem Inv.of_held {k n : ℕ} {what : Option Terminal} (h : (n, what) ∈ b.held k) :
    (∀ i, ¬b.InTable n i) ∧ (∀ j other, b.InHand n j other ↔ j = k ∧ other = what) ∧
      (b.states n).events.terminal = none ∧ b.received n = what ∧ n < b.stateCount := by
  have hlt : n < b.stateCount := by
    by_contra hge
    exact (hb.unused n (Nat.le_of_not_lt hge)).hand k what h
  cases hb.phase n with
  | listed _ hhand | settled t _ hhand | gone _ hhand => exact absurd h (hhand k what)
  | taken j other htable hhand hterminal hreceived =>
    obtain ⟨rfl, rfl⟩ := (hhand k what).mp h
    exact ⟨htable, hhand, hterminal, hreceived, hlt⟩

theorem inv_note (m : ServerMessage) : (b.note m).Inv := by
  refine ⟨hb.phase, fun n => (hb.account n).mono (subset_append_left _ _), fun n hn => ?_,
    hb.nodup⟩
  have hu := hb.unused n hn
  exact { hu with }

end Keeps

structure Touches (b b' : Books) (n : ℕ) : Prop where
  count : b.stateCount ≤ b'.stateCount
  lt : n < b'.stateCount
  states : ∀ m, m ≠ n → b'.states m = b.states m
  received : ∀ m, m ≠ n → b'.received m = b.received m
  withdrawn : ∀ m, m ≠ n → b'.withdrawn m = b.withdrawn m
  yielded : ∀ m, m ≠ n → b'.yielded m = b.yielded m
  table : ∀ m, m ≠ n → ∀ i, b'.InTable m i ↔ b.InTable m i
  hand : ∀ m, m ≠ n → ∀ k what, b'.InHand m k what ↔ b.InHand m k what
  dispatched : b.dispatched ⊆ b'.dispatched

namespace Touches
variable {b b' : Books} {n : ℕ}

theorem inv (h : b.Touches b' n) (hb : b.Inv) (hphase : b'.PhaseOf n) (haccount : b'.AccountOf n)
    (hnodup : ∀ k, ((b'.held k).map Prod.fst).Nodup) : b'.Inv := by
  refine ⟨fun m => ?_, fun m => ?_, fun m hm => ?_, hnodup⟩
  · by_cases hmn : m = n
    · exact hmn ▸ hphase
    · rw [PhaseOf, h.states m hmn, h.received m hmn, h.withdrawn m hmn]
      exact (hb.phase m).congr (h.table m hmn) (h.hand m hmn)
  · by_cases hmn : m = n
    · exact hmn ▸ haccount
    · rw [AccountOf, h.states m hmn, h.received m hmn, h.yielded m hmn]
      exact (hb.account m).mono h.dispatched
  · have hmn : m ≠ n := (Nat.ne_of_lt (h.lt.trans_le hm)).symm
    have hu := hb.unused m (h.count.trans hm)
    exact ⟨fun i hi => hu.table i ((h.table m hmn i).mp hi),
      fun k what hk => hu.hand k what ((h.hand m hmn k what).mp hk),
      by rw [h.states m hmn, hu.accepted], by rw [h.states m hmn, hu.terminal],
      by rw [h.states m hmn, hu.deltas], by rw [h.received m hmn, hu.received],
      by rw [h.withdrawn m hmn, hu.withdrawn], by rw [h.yielded m hmn, hu.yielded]⟩

theorem later (h : b.Touches b' n)
    (hid : n < b.stateCount → (b'.states n).requestId = (b.states n).requestId)
    (haccepted : n < b.stateCount → (b.states n).accepted = true → (b'.states n).accepted = true)
    (hterminal : ∀ t, n < b.stateCount → (b.states n).events.terminal = some t →
      (b'.states n).events.terminal = some t)
    (htable : ∀ i, n < b.stateCount → b'.InTable n i → b.InTable n i)
    (hhand : ∀ k what, n < b.stateCount → (∀ i, ¬b.InTable n i) → b'.InHand n k what →
      b.InHand n k what) : b.Later b' := by
  refine ⟨h.count, h.dispatched, ?_, ?_, ?_, ?_, ?_⟩
  · intro m hm
    by_cases hmn : m = n
    · subst hmn
      exact hid hm
    · rw [h.states m hmn]
  · intro m hm ha
    by_cases hmn : m = n
    · subst hmn
      exact haccepted hm ha
    · rwa [h.states m hmn]
  · intro m t hm ht
    by_cases hmn : m = n
    · subst hmn
      exact hterminal t hm ht
    · rwa [h.states m hmn]
  · intro i m hm hi
    by_cases hmn : m = n
    · subst hmn
      exact htable i hm hi
    · exact (h.table m hmn i).mp hi
  · intro k m what hm hout hk
    by_cases hmn : m = n
    · subst hmn
      exact hhand k what hm hout hk
    · exact (h.hand m hmn k what).mp hk

end Touches

structure Keeps (b b' : Books) : Prop where
  inv : b'.Inv
  later : b.Later b'

theorem touches_setState {b : Books} {n : ℕ} (hn : n < b.stateCount) (r : RequestState) :
    b.Touches (b.setState n r) n :=
  ⟨Nat.le_refl _, hn, fun _ hm => update_of_ne hm _ _, fun _ _ => rfl, fun _ _ => rfl,
    fun _ _ => rfl, fun _ _ _ => Iff.rfl, fun _ _ _ _ => Iff.rfl, fun _ h => h⟩

theorem lookup_erase_iff {requests : AList (fun _ : ℤ => ℕ)} {i j : ℤ} {m : ℕ} :
    (requests.erase i).lookup j = some m ↔ j ≠ i ∧ requests.lookup j = some m := by
  by_cases hj : j = i
  · subst hj
    simp
  · simp [AList.lookup_erase_ne hj, hj]

section Keeps
variable {b : Books} (hb : b.Inv)
include hb

variable {k n : ℕ} {what : Option Terminal} {rest : List (ℕ × Option Terminal)}

omit hb in
theorem later_note (b : Books) (m : ServerMessage) : b.Later (b.note m) :=
  ⟨Nat.le_refl _, subset_append_left _ _, fun _ _ => rfl, fun _ _ h => h, fun _ _ _ h => h,
    fun _ _ _ h => h, fun _ _ _ _ _ h => h⟩

theorem keeps_register (requestId : ℤ) (maxDeltaEvents : ℕ)
    (hnew : b.requests.lookup requestId = none) :
    b.Keeps { b.setState b.stateCount { requestId, events := { maxDeltaEvents } } with
      stateCount := b.stateCount + 1
      requests := b.requests.insert requestId b.stateCount } := by
  set r : RequestState := { requestId, events := { maxDeltaEvents } } with hr
  have hu := hb.unused b.stateCount (Nat.le_refl _)
  have htable : ∀ m i, (b.requests.insert requestId b.stateCount).lookup i = some m ↔
      (i = requestId ∧ m = b.stateCount) ∨ (i ≠ requestId ∧ b.requests.lookup i = some m) := by
    intro m i
    by_cases hi : i = requestId
    · subst hi
      simp [AList.lookup_insert, eq_comm]
    · simp [AList.lookup_insert_ne hi, hi]
  have htouch : b.Touches { b.setState b.stateCount r with
      stateCount := b.stateCount + 1
      requests := b.requests.insert requestId b.stateCount } b.stateCount := by
    refine ⟨Nat.le_succ _, Nat.lt_succ_self _, fun _ hm => update_of_ne hm _ _,
      fun _ _ => rfl, fun _ _ => rfl, fun _ _ => rfl, ?_, fun _ _ _ _ => Iff.rfl, fun _ h => h⟩
    intro m hm i
    rw [InTable, htable]
    constructor
    · rintro (⟨-, rfl⟩ | ⟨-, h⟩)
      · exact absurd rfl hm
      · exact h
    · intro h
      refine Or.inr ⟨?_, h⟩
      rintro rfl
      rw [InTable, hnew] at h
      cases h
  have hself : (b.setState b.stateCount r).states b.stateCount = r := update_self _ _ _
  refine ⟨htouch.inv hb ?_ ?_ hb.nodup, htouch.later ?_ ?_ ?_ ?_ ?_⟩
  · rw [PhaseOf]
    dsimp only
    rw [hself]
    refine .listed ?_ hu.hand rfl hu.received rfl
    intro i
    rw [InTable, htable]
    constructor
    · rintro (⟨h, -⟩ | ⟨-, h⟩)
      · exact h
      · exact absurd h (hu.table i)
    · intro h
      exact Or.inl ⟨h, rfl⟩
  · rw [AccountOf]
    dsimp only
    rw [hself]
    refine ⟨?_, ?_, ?_, ?_⟩
    · exact (congrArg Option.isSome hu.received).symm
    · exact Or.inl ⟨rfl, [], hu.yielded⟩
    · nofun
    · nofun
  all_goals
    intros
    exact absurd ‹_› (Nat.lt_irrefl _)

theorem keeps_minor {requestId : ℤ} {r : RequestState}
    (hfind : b.requests.lookup requestId = some n) (hminor : Minor (b.states n) r) :
    b.Keeps (b.setState n r) := by
  obtain ⟨htable, hhand, hid, hterminal, hreceived, hrejected, hlt⟩ := hb.of_lookup hfind
  have hself : (b.setState n r).states n = r := update_self _ _ _
  have htouch := touches_setState hlt r
  refine ⟨htouch.inv hb ?_ ?_ hb.nodup,
    htouch.later (fun _ => by rw [hself, hminor.requestId]) ?_ ?_ (fun _ _ h => h)
      (fun _ _ _ _ h => h)⟩
  · rw [PhaseOf, hself]
    exact .listed (fun i => by rw [hminor.requestId, hid]; exact htable i) hhand
      (hminor.terminal.trans hterminal) hreceived (hminor.rejected.trans hrejected)
  · rw [AccountOf, hself]
    exact (hb.account n).minor hminor
  · intro _ h
    rw [hself, hminor.accepted, h]
  · intro t _ h
    rw [hself, hminor.terminal, h]

theorem keeps_accept {requestId : ℕ} (hfind : b.requests.lookup (requestId : ℤ) = some n) :
    b.Keeps ((b.setState n { b.states n with accepted := true }).note (.accepted requestId)) := by
  obtain ⟨htable, hhand, hid, hterminal, hreceived, hrejected, hlt⟩ := hb.of_lookup hfind
  have hb' := inv_note hb (.accepted requestId)
  have hself : ((b.note (.accepted requestId)).setState n
      { b.states n with accepted := true }).states n = { b.states n with accepted := true } :=
    update_self _ _ _
  have htouch := touches_setState (b := b.note (.accepted requestId)) hlt
    { b.states n with accepted := true }
  have hlater : (b.note (.accepted requestId)).Later ((b.note (.accepted requestId)).setState n
      { b.states n with accepted := true }) := by
    refine htouch.later (fun _ => by rw [hself]; rfl) ?_ ?_ (fun _ _ h => h) (fun _ _ _ _ h => h)
    · intro _ _
      rw [hself]
    · intro t _ h
      rw [hself]
      exact h
  refine ⟨htouch.inv hb' ?_ ?_ hb.nodup, (later_note b _).trans hlater⟩
  · rw [PhaseOf, hself]
    exact .listed (fun i => by rw [hid]; exact htable i) hhand hterminal hreceived hrejected
  · have hold := hb'.account n
    rw [AccountOf, hself]
    exact { hold with
      accepted := fun _ => ⟨requestId, hid.symm, mem_append_right _ (by simp)⟩ }

theorem keeps_reject {requestId : ℕ} (status : Status)
    (hfind : b.requests.lookup (requestId : ℤ) = some n) (hnot : (b.states n).accepted = false) :
    b.Keeps ({ b.setState n { b.states n with rejected := some status } with
      requests := b.requests.erase requestId }.note (.rejected requestId status)) := by
  obtain ⟨htable, hhand, hid, hterminal, hreceived, hrejected, hlt⟩ := hb.of_lookup hfind
  set b' := ({ b.setState n { b.states n with rejected := some status } with
      requests := b.requests.erase requestId } : Books).note (.rejected requestId status) with hb'
  have hself : b'.states n = { b.states n with rejected := some status } := update_self _ _ _
  have hout : ∀ i, ¬b'.InTable n i := by
    intro i hi
    obtain ⟨hne, hi⟩ := lookup_erase_iff.mp hi
    exact hne ((htable i).mp hi)
  have htouch : b.Touches b' n := by
    refine ⟨Nat.le_refl _, hlt, fun _ hm => update_of_ne hm _ _, fun _ _ => rfl,
      fun _ _ => rfl, fun _ _ => rfl, ?_, fun _ _ _ _ => Iff.rfl, subset_append_left _ _⟩
    intro m hm i
    rw [InTable, InTable, hb', note, lookup_erase_iff]
    refine ⟨And.right, fun h => ⟨?_, h⟩⟩
    rintro rfl
    rw [hfind] at h
    exact hm (Option.some.inj h).symm
  refine ⟨htouch.inv hb ?_ ?_ hb.nodup,
    htouch.later (fun _ => by rw [hself]) ?_ ?_ ?_ (fun _ _ _ _ h => h)⟩
  · rw [PhaseOf, hself]
    refine .gone hout hhand hterminal hreceived (fun h => ?_)
    cases hnot.symm.trans h
  · have hold := (hb.account n).mono htouch.dispatched
    rw [AccountOf, hself]
    refine { hold with rejected := fun other h => ?_ }
    cases h
    exact ⟨requestId, hid.symm, mem_append_right _ (by simp)⟩
  · intro _ h
    cases hnot.symm.trans h
  · intro t _ h
    rw [hself]
    exact h
  · intro i _ hi
    exact absurd hi (hout i)

theorem keeps_receive {t : Terminal} (hfind : b.requests.lookup (t.requestId : ℤ) = some n)
    (hfree : b.held k = []) :
    b.Keeps ({ (b.setState n { b.states n with terminalReceived := true }).setHeld k
        [(n, some t)] with
      requests := b.requests.erase t.requestId
      received := update b.received n (some t) }.note (.terminal t)) := by
  obtain ⟨htable, hhand, hid, hterminal, hreceived, hrejected, hlt⟩ := hb.of_lookup hfind
  set b' := ({ (b.setState n { b.states n with terminalReceived := true }).setHeld k
      [(n, some t)] with
    requests := b.requests.erase t.requestId
    received := update b.received n (some t) } : Books).note (.terminal t) with hb'
  have hself : b'.states n = { b.states n with terminalReceived := true } :=
    update_self _ _ _
  have hheld : ∀ j, b'.held j = if j = k then [(n, some t)] else b.held j :=
    fun j => update_apply _ _ _ _
  have hout : ∀ i, ¬b'.InTable n i := by
    intro i hi
    obtain ⟨hne, hi⟩ := lookup_erase_iff.mp hi
    exact hne ((htable i).mp hi)
  have htouch : b.Touches b' n := by
    refine ⟨Nat.le_refl _, hlt, fun _ hm => update_of_ne hm _ _,
      fun _ hm => update_of_ne hm _ _, fun _ _ => rfl, fun _ _ => rfl, ?_, ?_,
      subset_append_left _ _⟩
    · intro m hm i
      rw [InTable, InTable, hb', note, lookup_erase_iff]
      refine ⟨And.right, fun h => ⟨?_, h⟩⟩
      rintro rfl
      rw [hfind] at h
      exact hm (Option.some.inj h).symm
    · intro m hm j what
      rw [InHand, InHand, hheld]
      split
      · next hj => simp [hj, hfree, hm]
      · rfl
  refine ⟨htouch.inv hb ?_ ?_ ?_, htouch.later (fun _ => by rw [hself]) ?_ ?_ ?_ ?_⟩
  · rw [PhaseOf, hself]
    refine .taken k (some t) hout ?_ hterminal (update_self _ _ _)
    intro j other
    rw [InHand, hheld]
    split
    · next hj => simp [hj]
    · next hj => simpa [hj, InHand] using hhand j other
  · have hold := (hb.account n).mono htouch.dispatched
    rw [AccountOf, hself]
    exact { hold with flag := by simp [hb', note] }
  · intro j
    rw [hheld]
    split
    · simp
    · exact hb.nodup j
  · intro _ h
    rw [hself]
    exact h
  · intro u _ h
    rw [hself]
    exact h
  · intro i _ hi
    exact absurd hi (hout i)
  · intro j what _ hnone
    exact absurd hfind (hnone t.requestId)

theorem Inv.values_nodup : (b.requests.entries.map Sigma.snd).Nodup := by
  have hkeys := nodupKeys_iff_pairwise.mp b.requests.nodupKeys
  refine pairwise_map.mpr (hkeys.imp_of_mem ?_)
  intro x y hx hy hne heq
  have hxid := (hb.of_lookup (AList.mem_lookup_iff.mpr hx)).2.2.1
  have hyid := (hb.of_lookup (AList.mem_lookup_iff.mpr hy)).2.2.1
  exact hne (hxid.symm.trans ((congrArg (fun n => (b.states n).requestId) heq).trans hyid))

omit hb in
theorem mem_values_iff : n ∈ b.requests.entries.map Sigma.snd ↔ ∃ i, b.InTable n i := by
  rw [mem_map]
  constructor
  · rintro ⟨⟨i, m⟩, hmem, rfl⟩
    exact ⟨i, AList.mem_lookup_iff.mpr hmem⟩
  · rintro ⟨i, hi⟩
    exact ⟨⟨i, n⟩, AList.mem_lookup_iff.mp hi, rfl⟩

theorem keeps_collect (status : Status) (hfree : b.held k = []) :
    b.Keeps { b.setHeld k (b.requests.entries.map (fun entry => (entry.2, none))) with
      requests := ∅
      states := fun n =>
        if n ∈ b.requests.entries.map Sigma.snd then { b.states n with failure := some status }
        else b.states n } := by
  set b' := ({ b.setHeld k (b.requests.entries.map (fun entry => (entry.2, none))) with
    requests := ∅
    states := fun n =>
      if n ∈ b.requests.entries.map Sigma.snd then { b.states n with failure := some status }
      else b.states n } : Books) with hb'
  have hout : ∀ n i, ¬b'.InTable n i := fun n i hi => by simp [InTable, hb'] at hi
  have hheld : ∀ j, b'.held j =
      if j = k then b.requests.entries.map (fun entry => (entry.2, none)) else b.held j :=
    fun j => update_apply _ _ _ _
  have hhand : ∀ n j what, b'.InHand n j what ↔
      (j = k ∧ what = none ∧ ∃ i, b.InTable n i) ∨ b.InHand n j what := by
    intro n j what
    rw [InHand, hheld]
    by_cases hj : j = k
    · subst hj
      rw [if_pos rfl, ← mem_values_iff, InHand, hfree]
      simp only [mem_map, Prod.mk.injEq, true_and, not_mem_nil, or_false]
      constructor
      · rintro ⟨entry, hmem, rfl, rfl⟩
        exact ⟨rfl, entry, hmem, rfl⟩
      · rintro ⟨rfl, entry, hmem, rfl⟩
        exact ⟨entry, hmem, rfl, rfl⟩
    · simp [hj, InHand]
  have hstate : ∀ n, b'.states n = b.states n ∨
      b'.states n = { b.states n with failure := some status } := by
    intro n
    rw [hb']
    dsimp only
    split
    · exact Or.inr rfl
    · exact Or.inl rfl
  -- the failure status is not part of any phase
  have hphase : ∀ n {P : ℤ → Prop} {Q : ℕ → Option Terminal → Prop},
      Phase (b.states n) (b.received n) (b.withdrawn n) P Q →
      Phase (b'.states n) (b.received n) (b.withdrawn n) P Q := by
    intro n P Q h
    rcases hstate n with hs | hs
    · rwa [hs]
    · rw [hs]
      cases h with
      | listed h₁ h₂ h₃ h₄ h₅ => exact .listed h₁ h₂ h₃ h₄ h₅
      | taken j what h₁ h₂ h₃ h₄ => exact .taken j what h₁ h₂ h₃ h₄
      | settled t h₁ h₂ h₃ h₄ => exact .settled t h₁ h₂ h₃ h₄
      | gone h₁ h₂ h₃ h₄ h₅ => exact .gone h₁ h₂ h₃ h₄ h₅
  refine ⟨⟨fun n => ?_, fun n => ?_, fun n hn => ?_, fun j => ?_⟩,
    ⟨Nat.le_refl _, fun _ h => h, fun n _ => ?_, ?_, ?_, ?_, ?_⟩⟩
  · refine hphase n ?_
    cases hb.phase n with
    | listed htable hnone hterminal hreceived =>
      refine .taken k none (hout n) ?_ hterminal hreceived
      intro j other
      rw [hhand]
      have hin : ∃ i, b.InTable n i := ⟨_, (htable _).mpr rfl⟩
      simp [hin, hnone j other]
    | taken j what htable hsole hterminal hreceived =>
      refine .taken j what (hout n) ?_ hterminal hreceived
      intro l other
      simp [hhand, htable, hsole l other]
    | settled t htable hnone hterminal hreceived =>
      refine .settled t (hout n) ?_ hterminal hreceived
      intro l other
      simp [hhand, htable, hnone l other]
    | gone htable hnone hterminal hreceived haccepted =>
      refine .gone (hout n) ?_ hterminal hreceived haccepted
      intro l other
      simp [hhand, htable, hnone l other]
  · have hold := hb.account n
    rw [AccountOf]
    rcases hstate n with hs | hs
    · rw [hs]
      exact hold
    · rw [hs]
      exact { hold with }
  · have hu := hb.unused n hn
    have hs : b'.states n = b.states n := by
      rw [hb']
      dsimp only
      rw [if_neg]
      intro h
      obtain ⟨i, hi⟩ := mem_values_iff.mp h
      exact hu.table i hi
    refine ⟨hout n, ?_, hs ▸ hu.accepted, hs ▸ hu.terminal, hs ▸ hu.deltas, hu.received,
      hu.withdrawn, hu.yielded⟩
    intro j what
    simp [hhand, hu.table, hu.hand j what]
  · rw [hheld]
    split
    · simpa [map_map, comp_def] using hb.values_nodup
    · exact hb.nodup j
  · rcases hstate n with hs | hs <;> rw [hs]
  · intro n _ h
    rcases hstate n with hs | hs <;> rw [hs] <;> exact h
  · intro n t _ h
    rcases hstate n with hs | hs <;> rw [hs] <;> exact h
  · intro i n _ hi
    exact absurd hi (hout n i)
  · intro j n what _ hnone hj
    rcases (hhand n j what).mp hj with ⟨-, -, i, hi⟩ | h
    · exact absurd hi (hnone i)
    · exact h

omit hb in
theorem touches_setHeld (hn : n < b.stateCount) (hheld : b.held k = (n, what) :: rest)
    (r : RequestState) : b.Touches ((b.setState n r).setHeld k rest) n := by
  refine ⟨Nat.le_refl _, hn, fun _ hm => update_of_ne hm _ _, fun _ _ => rfl,
    fun _ _ => rfl, fun _ _ => rfl, fun _ _ _ => Iff.rfl, ?_, fun _ h => h⟩
  intro m hm j other
  rw [InHand, InHand, setHeld]
  dsimp only
  rw [update_apply]
  split
  · next hj => simp [hj, hheld, hm]
  · rfl

theorem nodup_setHeld (hheld : b.held k = (n, what) :: rest) (r : RequestState) (j : ℕ) :
    ((((b.setState n r).setHeld k rest).held j).map Prod.fst).Nodup := by
  rw [setHeld]
  dsimp only
  rw [update_apply]
  split
  · have h := hb.nodup k
    rw [hheld, map_cons] at h
    exact h.tail
  · exact hb.nodup j

theorem not_inHand_setHeld (hheld : b.held k = (n, what) :: rest) (r : RequestState) (j : ℕ)
    (other : Option Terminal) : ¬((b.setState n r).setHeld k rest).InHand n j other := by
  have hmem : (n, what) ∈ b.held k := hheld ▸ mem_cons_self
  rw [InHand, setHeld]
  dsimp only
  rw [update_apply]
  split
  · intro h
    have hnodup := hb.nodup k
    rw [hheld, map_cons, nodup_cons] at hnodup
    exact hnodup.1 (mem_map.mpr ⟨_, h, rfl⟩)
  · next hj =>
    intro h
    exact hj (((hb.of_held hmem).2.1 j other).mp h).1

theorem keeps_put {t : Terminal} (hheld : b.held k = (n, what) :: rest)
    (hwhat : what = none ∨ what = some t) :
    b.Keeps ((b.setState n { b.states n with
      events := ((b.states n).events.putTerminal t).1 }).setHeld k rest) := by
  have hmem : (n, what) ∈ b.held k := hheld ▸ mem_cons_self
  obtain ⟨htable, hhand, hterminal, hreceived, hlt⟩ := hb.of_held hmem
  set r : RequestState := { b.states n with events := ((b.states n).events.putTerminal t).1 } with hr
  have hself : ((b.setState n r).setHeld k rest).states n = r := update_self _ _ _
  have hput : r.events.terminal = some t := by simp [hr, EventBuffer.putTerminal, hterminal]
  have htouch := touches_setHeld hlt hheld r
  refine ⟨htouch.inv hb ?_ ?_ (nodup_setHeld hb hheld r),
    htouch.later (fun _ => by rw [hself]) ?_ ?_ (fun _ _ h => h) ?_⟩
  · rw [PhaseOf, hself]
    refine .settled t htable (not_inHand_setHeld hb hheld r) hput ?_
    rcases hwhat with h | h
    · exact Or.inl (hreceived.trans h)
    · exact Or.inr (hreceived.trans h)
  · rw [AccountOf, hself]
    exact (hb.account n).put hterminal t
  · intro _ h
    rw [hself]
    exact h
  · intro u _ h
    cases hterminal.symm.trans h
  · intro j other _ _ h
    exact absurd h (not_inHand_setHeld hb hheld r j other)

theorem keeps_skip (hheld : b.held k = (n, what) :: rest)
    (hwhy : what = none ∧ ((b.states n).accepted = false ∨ (b.states n).terminalReceived = true) ∨
      (b.states n).events.terminal.isSome) : b.Keeps (b.setHeld k rest) := by
  have hmem : (n, what) ∈ b.held k := hheld ▸ mem_cons_self
  obtain ⟨htable, hhand, hterminal, hreceived, hlt⟩ := hb.of_held hmem
  have hnone : what = none ∧ (b.states n).accepted = false := by
    rcases hwhy with ⟨hwhat, ha | ht⟩ | hsome
    · exact ⟨hwhat, ha⟩
    · rw [(hb.account n).flag, hreceived, hwhat] at ht
      cases ht
    · simp [hterminal] at hsome
  have hsame : b.setHeld k rest = (b.setState n (b.states n)).setHeld k rest := by
    simp [setState, setHeld]
  rw [hsame]
  have hself : ((b.setState n (b.states n)).setHeld k rest).states n = b.states n :=
    update_self _ _ _
  have htouch := touches_setHeld hlt hheld (b.states n)
  refine ⟨htouch.inv hb ?_ ?_ (nodup_setHeld hb hheld _),
    htouch.later (fun _ => by rw [hself]) ?_ ?_ (fun _ _ h => h) ?_⟩
  · rw [PhaseOf, hself]
    refine .gone htable (not_inHand_setHeld hb hheld _) hterminal (hreceived.trans hnone.1) ?_
    intro h
    cases hnone.2.symm.trans h
  · rw [AccountOf, hself]
    exact hb.account n
  · intro _ h
    rw [hself]
    exact h
  · intro u _ h
    rw [hself]
    exact h
  · intro j other _ _ h
    exact absurd h (not_inHand_setHeld hb hheld _ j other)

theorem keeps_withdraw (requestId : ℤ) {withdrawn : ℕ → Bool}
    (hwithdrawn : ∀ n, withdrawn n =
      (b.withdrawn n || decide (b.requests.lookup requestId = some n))) :
    b.Keeps { b with requests := b.requests.erase requestId, withdrawn := withdrawn } := by
  cases hfind : b.requests.lookup requestId with
  | none =>
    have hsame : withdrawn = b.withdrawn := by
      funext n
      simp [hwithdrawn, hfind]
    have herase : b.requests.erase requestId = b.requests := erase_of_lookup_none hfind
    rw [hsame, herase]
    exact ⟨hb, .refl b⟩
  | some n =>
    obtain ⟨htable, hhand, hid, hterminal, hreceived, hrejected, hlt⟩ := hb.of_lookup hfind
    have hout : ∀ i, ¬InTable { b with
        requests := b.requests.erase requestId, withdrawn := withdrawn } n i := by
      intro i hi
      obtain ⟨hne, hi⟩ := lookup_erase_iff.mp hi
      exact hne ((htable i).mp hi)
    have htouch : b.Touches { b with
        requests := b.requests.erase requestId, withdrawn := withdrawn } n := by
      refine ⟨Nat.le_refl _, hlt, fun _ _ => rfl, fun _ _ => rfl, ?_, fun _ _ => rfl, ?_,
        fun _ _ _ _ => Iff.rfl, fun _ h => h⟩
      · intro m hm
        dsimp only
        rw [hwithdrawn, hfind]
        simp [Ne.symm hm]
      · intro m hm i
        rw [InTable, InTable, lookup_erase_iff]
        refine ⟨And.right, fun h => ⟨?_, h⟩⟩
        rintro rfl
        rw [hfind] at h
        exact hm (Option.some.inj h).symm
    refine ⟨htouch.inv hb ?_ (hb.account n) hb.nodup,
      htouch.later (fun _ => rfl) (fun _ h => h) (fun _ _ h => h) ?_ (fun _ _ _ _ h => h)⟩
    · exact .gone hout hhand hterminal hreceived (fun _ => by simp [hwithdrawn, hfind])
    · intro i _ hi
      exact absurd hi (hout i)

theorem keeps_consume {events : EventBuffer} {result : Yield}
    (hget : (b.states n).events.get = some (events, result)) :
    b.Keeps { b.setState n { b.states n with events := events } with
      yielded := update b.yielded n (b.yielded n ++ [result]) } := by
  have hlt : n < b.stateCount := by
    by_contra hge
    have hu := hb.unused n (Nat.le_of_not_lt hge)
    rw [EventBuffer.get, hu.deltas, hu.terminal] at hget
    cases hget
  obtain ⟨hyields, hterminal, -⟩ := (hb.account n).yields.get hget
  set r : RequestState := { b.states n with events := events } with hr
  have hself : ({ b.setState n r with
      yielded := update b.yielded n (b.yielded n ++ [result]) } : Books).states n = r :=
    update_self _ _ _
  have htouch : b.Touches { b.setState n r with
      yielded := update b.yielded n (b.yielded n ++ [result]) } n :=
    ⟨Nat.le_refl _, hlt, fun _ hm => update_of_ne hm _ _, fun _ _ => rfl, fun _ _ => rfl,
      fun _ hm => update_of_ne hm _ _, fun _ _ _ => Iff.rfl, fun _ _ _ _ => Iff.rfl,
      fun _ h => h⟩
  refine ⟨htouch.inv hb ?_ ?_ hb.nodup, htouch.later (fun _ => by rw [hself]) ?_ ?_
    (fun _ _ h => h) (fun _ _ _ _ h => h)⟩
  · have hphase : Phase r (b.received n) (b.withdrawn n) (b.InTable n) (b.InHand n) := by
      cases hb.phase n with
      | listed h₁ h₂ h₃ h₄ h₅ => exact .listed h₁ h₂ (hterminal.trans h₃) h₄ h₅
      | taken j what h₁ h₂ h₃ h₄ => exact .taken j what h₁ h₂ (hterminal.trans h₃) h₄
      | settled t h₁ h₂ h₃ h₄ => exact .settled t h₁ h₂ (hterminal.trans h₃) h₄
      | gone h₁ h₂ h₃ h₄ h₅ => exact .gone h₁ h₂ (hterminal.trans h₃) h₄ h₅
    rw [PhaseOf, hself]
    exact hphase
  · have hold := hb.account n
    rw [AccountOf, hself]
    exact { hold with yields := by simpa using hyields }
  · intro _ h
    rw [hself]
    exact h
  · intro t _ h
    rw [hself]
    exact hterminal.trans h

theorem step_keeps {b' : Books} (h : b.Step b') : b.Keeps b' := by
  cases h with
  | idle => exact ⟨hb, .refl b⟩
  | register requestId maxDeltaEvents hnew => exact keeps_register hb requestId maxDeltaEvents hnew
  | minor requestId n r hfind hminor => exact keeps_minor hb hfind hminor
  | note m =>
    exact ⟨inv_note hb m, later_note b m⟩
  | accept requestId n hfind => exact keeps_accept hb hfind
  | reject requestId n status hfind hnot => exact keeps_reject hb status hfind hnot
  | receive k n t hfind hfree => exact keeps_receive hb hfind hfree
  | collect k status hfree => exact keeps_collect hb status hfree
  | put k n what rest t hheld hterminal => exact keeps_put hb hheld hterminal
  | skip k n what rest hheld hwhy => exact keeps_skip hb hheld hwhy
  | withdraw requestId withdrawn hwithdrawn => exact keeps_withdraw hb requestId hwithdrawn
  | consume n events result hget => exact keeps_consume hb hget

end Keeps

theorem Later.terminal_of_accepted {b b' : Books} (hb' : b'.Inv) (h : b.Later b') {n : ℕ}
    (hn : n < b.stateCount) (haccepted : (b.states n).accepted = true)
    (hout : ∀ i, ¬b.InTable n i) :
    (b'.states n).events.terminal.isSome = true ∨ b'.withdrawn n = true ∨
      ∃ k what, b.InHand n k what ∧ b'.InHand n k what := by
  cases hb'.phase n with
  | listed htable => exact absurd (h.entry _ n hn ((htable _).mpr rfl)) (hout _)
  | taken k what _ hhand =>
    have hin : b'.InHand n k what := (hhand k what).mpr ⟨rfl, rfl⟩
    exact Or.inr (Or.inr ⟨k, what, h.held k n what hn hout hin, hin⟩)
  | settled t _ _ hterminal => exact Or.inl (by rw [hterminal]; rfl)
  | gone _ _ _ _ hgone => exact Or.inr (Or.inl (hgone (h.accepted n hn haccepted)))

end Books

end KimServing.Client

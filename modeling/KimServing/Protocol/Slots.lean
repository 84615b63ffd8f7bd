import KimServing.Library.Runs

/-! # What the answers to one request id say

A request id is used by one Submit after the other. Each of them is answered by a
rejection, or by an acceptance, deltas numbered from zero and a terminal. A slot
follows these answers and has no successor where an answer breaks the order, so a
history of answers is in order when the slot can read it.
-/
namespace KimServing
open Library List

inductive Reply where
  | accepted
  | rejected
  | delta (sequenceNo : ℕ)
  | terminal
  deriving DecidableEq

def Reply.isFinal : Reply → Bool
  | .rejected | .terminal => true
  | _ => false

/-- How many Submits have got their last word, and the number of the next delta
when one more was accepted. -/
structure Slot where
  answered : ℕ := 0
  next : Option ℕ := none
  deriving DecidableEq

def repliesTo {M : Type*} (reply? : M → Option (ℕ × Reply)) (requestId : ℕ) (messages : List M) :
    List Reply :=
  messages.filterMap fun m => (reply? m).bind fun x => if x.1 = requestId then some x.2 else none

section Replies
variable {M : Type*} (reply? : M → Option (ℕ × Reply)) (requestId : ℕ)

theorem repliesTo_append (first second : List M) :
    repliesTo reply? requestId (first ++ second) =
      repliesTo reply? requestId first ++ repliesTo reply? requestId second :=
  filterMap_append

theorem repliesTo_cons (m : M) (messages : List M) :
    repliesTo reply? requestId (m :: messages) =
      repliesTo reply? requestId [m] ++ repliesTo reply? requestId messages :=
  repliesTo_append reply? requestId [m] messages

theorem repliesTo_flatMap (positions : List ℕ) (words : ℕ → List M) :
    repliesTo reply? requestId (positions.flatMap words) =
      positions.flatMap fun n => repliesTo reply? requestId (words n) := by
  induction positions with
  | nil => rfl
  | cons n positions ih =>
    rw [flatMap_cons, flatMap_cons, repliesTo_append, ih]

theorem repliesTo_filter (keep : M → Bool) (messages : List M)
    (hkeep : ∀ m x, reply? m = some (requestId, x) → keep m = true) :
    repliesTo reply? requestId (messages.filter keep) = repliesTo reply? requestId messages := by
  induction messages with
  | nil => rfl
  | cons m messages ih =>
    cases hm : keep m with
    | true =>
      rw [filter_cons_of_pos hm, repliesTo_cons _ _ m (messages.filter keep), ih,
        ← repliesTo_cons]
    | false =>
      have hnone : repliesTo reply? requestId [m] = [] := by
        cases hreply : reply? m with
        | none => simp [repliesTo, hreply]
        | some x =>
          by_cases hx : x.1 = requestId
          · rw [hkeep m x.2 (by rw [hreply, ← hx])] at hm
            cases hm
          · simp [repliesTo, hreply, hx]
      rw [filter_cons_of_neg (by simp [hm]), ih, repliesTo_cons _ _ m messages, hnone,
        nil_append]

end Replies

namespace Slot
variable {s t : Slot}

variable {word : List Reply} {reply : Reply}

def read (s : Slot) (reply : Reply) : Option Slot :=
  match s.next, reply with
  | none, .accepted => some { s with next := some 0 }
  | none, .rejected => some { s with answered := s.answered + 1 }
  | some k, .delta sequenceNo =>
    if sequenceNo = k then some { s with next := some (k + 1) } else none
  | some _, .terminal => some ⟨s.answered + 1, none⟩
  | _, _ => none

def begun (s : Slot) : ℕ := s.answered + if s.next.isSome then 1 else 0

theorem read_accepted :
    s.read .accepted = some t ↔ s.next = none ∧ t = { s with next := some 0 } := by
  unfold read
  cases s.next <;> simp [eq_comm]

theorem read_rejected :
    s.read .rejected = some t ↔ s.next = none ∧ t = { s with answered := s.answered + 1 } := by
  unfold read
  cases s.next <;> simp [eq_comm]

theorem read_delta {k : ℕ} :
    s.read (.delta k) = some t ↔ s.next = some k ∧ t = { s with next := some (k + 1) } := by
  unfold read
  cases s.next with
  | none => simp
  | some j =>
    by_cases hk : k = j
    · simp [hk, eq_comm]
    · simp [hk, Ne.symm hk]

theorem read_terminal :
    s.read .terminal = some t ↔ s.next.isSome = true ∧ t = ⟨s.answered + 1, none⟩ := by
  unfold read
  cases s.next <;> simp [eq_comm]

theorem read_answered (h : s.read reply = some t) :
    t.answered = s.answered + if reply.isFinal then 1 else 0 := by
  cases reply with
  | accepted => obtain ⟨-, rfl⟩ := read_accepted.mp h; rfl
  | rejected => obtain ⟨-, rfl⟩ := read_rejected.mp h; rfl
  | delta => obtain ⟨-, rfl⟩ := read_delta.mp h; rfl
  | terminal => obtain ⟨-, rfl⟩ := read_terminal.mp h; rfl

theorem read_lt (h : s.read reply = some t) : s.answered < t.begun := by
  cases reply with
  | accepted => obtain ⟨-, rfl⟩ := read_accepted.mp h; simp [begun]
  | rejected => obtain ⟨hnext, rfl⟩ := read_rejected.mp h; simp [begun, hnext]
  | delta => obtain ⟨-, rfl⟩ := read_delta.mp h; simp [begun]
  | terminal => obtain ⟨-, rfl⟩ := read_terminal.mp h; simp [begun]

theorem read_begun (h : s.read reply = some t) : s.begun ≤ t.begun := by
  have hle : s.begun ≤ s.answered + 1 := by
    unfold begun
    split <;> omega
  exact hle.trans (read_lt h)

theorem exec_begun (h : exec read s word = some t) : s.begun ≤ t.begun :=
  exec_preserves (I := fun u => s.begun ≤ u.begun) (fun _ _ _ hu hread => hu.trans (read_begun hread))
    (Nat.le_refl _) h

theorem exec_answered (h : exec read s word = some t) :
    t.answered = s.answered + word.countP Reply.isFinal := by
  induction word generalizing s with
  | nil =>
    cases h
    rfl
  | cons reply word ih =>
    obtain ⟨u, hu, hrest⟩ := exec_cons.mp h
    rw [ih hrest, read_answered hu, countP_cons]
    omega

theorem exec_first {first : List Reply} (h : exec read s word = some t) (hfirst : first <+: word) :
    ∃ u, exec read s first = some u ∧ u.begun ≤ t.begun := by
  obtain ⟨rest, rfl⟩ := hfirst
  obtain ⟨u, hu, hrest⟩ := exec_append.mp h
  exact ⟨u, hu, exec_begun hrest⟩

theorem eq_of_begun {n : ℕ} (hbegun : s.begun ≤ n) (hanswered : n ≤ s.answered) : s = ⟨n, none⟩ := by
  obtain ⟨answered, next⟩ := s
  cases next with
  | none =>
    simp only [begun, Option.isSome_none, Bool.false_eq_true, if_false] at hbegun hanswered
    rw [show answered = n by omega]
  | some =>
    simp only [begun, Option.isSome_some, if_true] at hbegun hanswered
    omega

/-! ## Words -/

def Answers (word : List Reply) : Prop :=
  ∀ n, ∃ t, exec read ⟨n, none⟩ word = some t ∧ t.begun ≤ n + 1

theorem Answers.first {first : List Reply} (h : Answers word) (hfirst : first <+: word) :
    Answers first := by
  intro n
  obtain ⟨t, ht, hbegun⟩ := h n
  obtain ⟨u, hu, hle⟩ := exec_first ht hfirst
  exact ⟨u, hu, hle.trans hbegun⟩

theorem Answers.whole (h : Answers word) (hfinal : ∃ x ∈ word, x.isFinal = true) (n : ℕ) :
    exec read ⟨n, none⟩ word = some ⟨n + 1, none⟩ := by
  obtain ⟨t, ht, hbegun⟩ := h n
  have hcount : 0 < word.countP Reply.isFinal := countP_pos_iff.mpr hfinal
  have hanswered := exec_answered ht
  dsimp only at hanswered
  rw [ht, eq_of_begun hbegun (by omega)]

theorem answers_rejected : Answers [.rejected] := fun n => ⟨⟨n + 1, none⟩, rfl, Nat.le_refl _⟩

theorem exec_deltas (answered start count : ℕ) :
    exec read ⟨answered, some start⟩ ((List.range' start count).map .delta) =
      some ⟨answered, some (start + count)⟩ := by
  induction count generalizing start with
  | zero => rfl
  | succ count ih =>
    rw [List.range'_succ, map_cons, exec_cons]
    refine ⟨⟨answered, some (start + 1)⟩, by simp [read], ?_⟩
    rw [ih (start + 1), Nat.add_right_comm, Nat.add_assoc start]

theorem answers_accepted (count : ℕ) :
    Answers (.accepted :: (List.range count).map .delta ++ [.terminal]) := by
  intro n
  refine ⟨⟨n + 1, none⟩, ?_, Nat.le_refl _⟩
  have hdeltas := exec_deltas n 0 count
  rw [← range_eq_range'] at hdeltas
  exact exec_append.mpr ⟨⟨n, some (0 + count)⟩, exec_cons.mpr ⟨⟨n, some 0⟩, rfl, hdeltas⟩, rfl⟩

theorem exec_words {positions : List ℕ} {words : ℕ → List Reply}
    (hwords : ∀ n ∈ positions, Answers (words n))
    (hwhole : ∀ earlier n, positions = earlier ++ [n] → ∀ m ∈ earlier, ∃ x ∈ words m,
      x.isFinal = true) :
    ∃ t, exec read {} (positions.flatMap words) = some t ∧ t.begun ≤ positions.length := by
  have hearlier : ∀ (earlier : List ℕ) (start : ℕ), (∀ m ∈ earlier, Answers (words m)) →
      (∀ m ∈ earlier, ∃ x ∈ words m, x.isFinal = true) →
      exec read ⟨start, none⟩ (earlier.flatMap words) = some ⟨start + earlier.length, none⟩ := by
    intro earlier
    induction earlier with
    | nil => intros; rfl
    | cons m earlier ih =>
      intro start hanswers hfinal
      have hhead := (hanswers m mem_cons_self).whole (hfinal m mem_cons_self) start
      have htail := ih (start + 1) (fun j hj => hanswers j (mem_cons_of_mem m hj))
        (fun j hj => hfinal j (mem_cons_of_mem m hj))
      rw [Nat.add_right_comm] at htail
      exact exec_append.mpr ⟨_, hhead, htail⟩
  rcases eq_nil_or_concat positions with rfl | ⟨earlier, n, rfl⟩
  · exact ⟨{}, rfl, Nat.le_refl 0⟩
  · rw [concat_eq_append] at hwords hwhole ⊢
    have hfirst := hearlier earlier 0
      (fun m hm => hwords m (mem_append_left _ hm)) (hwhole earlier n rfl)
    rw [Nat.zero_add] at hfirst
    obtain ⟨t, ht, hbegun⟩ := hwords n (mem_append_right _ mem_cons_self) earlier.length
    refine ⟨t, ?_, by simpa using hbegun⟩
    rw [flatMap_append, flatMap_cons, flatMap_nil, append_nil]
    exact exec_append.mpr ⟨_, hfirst, ht⟩

end Slot
end KimServing

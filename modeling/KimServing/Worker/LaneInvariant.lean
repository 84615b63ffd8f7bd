import KimServing.Worker.Lanes

/-! # What all lanes together have written

A request id can have many lanes. Only the newest one is active: the older ones
have delivered their last word, because the client waits for it. So the queue of
a request id holds exactly what its newest lane has written and not delivered,
and what the writer took for an id is the concatenation over its lanes.
-/
namespace KimServing
open Library Function List Ipc

/-- An id is used again only after its earlier words were delivered whole. -/
structure LanesInv (c : RuntimeBridgeConfig) (p : Lanes) : Prop where
  lanes : ∀ n, LaneInv c (p.lanes n)
  fresh : ∀ n, p.ids.length ≤ n → (p.lanes n).enqueued = [] ∧ (p.lanes n).delivered = []
  known : ∀ n, n < p.ids.length → n ∈ indices (p.lanes n).requestId p.ids
  newest : ∀ r n, lastIndex r p.ids = some n →
    (p.lanes n).delivered <+: (p.lanes n).enqueued ∧
      (p.accepting = true → (p.lanes n).delivered ++ p.pending r = (p.lanes n).enqueued)
  earlier : ∀ r n, n ∈ indices r p.ids → lastIndex r p.ids ≠ some n →
    (p.lanes n).delivered = (p.lanes n).enqueued ∧
      ∃ m ∈ (p.lanes n).enqueued, m.isFinal = true
  unknown : ∀ r, lastIndex r p.ids = none → p.pending r = []
  stopped : p.accepting = false → ∀ r, p.pending r = []
  popped : ∀ r, p.popped.filter (fun m => m.requestId? = some r) =
    (indices r p.ids).flatMap (fun n => (p.lanes n).delivered)

/-- The handler decides about the newest lane before anything is written there,
and opens the gate of a lane that was accepted. -/
structure DecisionInv (c : RuntimeBridgeConfig) (p : Lanes) : Prop where
  deciding : ∀ n, p.decision = some (n, false) →
    n + 1 = p.ids.length ∧ (p.lanes n).enqueued = []
  allowing : ∀ n, p.decision = some (n, true) →
    (p.lanes n).enqueued.head? = some (wireAccepted c (p.lanes n).requestId)

def SameWords (p p' : Lanes) : Prop :=
  ∀ n, (p'.lanes n).requestId = (p.lanes n).requestId ∧
    (p'.lanes n).enqueued = (p.lanes n).enqueued ∧ (p'.lanes n).delivered = (p.lanes n).delivered

theorem sameWords_setLane {p : Lanes} {n : ℕ} {l : Lane}
    (hid : l.requestId = (p.lanes n).requestId) (he : l.enqueued = (p.lanes n).enqueued)
    (hd : l.delivered = (p.lanes n).delivered) : SameWords p (p.setLane n l) := by
  intro k
  by_cases hk : k = n
  · subst hk
    simp [Lanes.setLane, hid, he, hd]
  · simp [Lanes.setLane, hk]

theorem deliver_written (p : Lanes) (m : Message) (k : ℕ) :
    (p.deliver m k).requestId = (p.lanes k).requestId ∧
      (p.deliver m k).enqueued = (p.lanes k).enqueued := by
  unfold Lanes.deliver
  cases m.requestId?.bind (fun requestId => lastIndex requestId p.ids) with
  | none => exact ⟨rfl, rfl⟩
  | some n =>
    by_cases hk : k = n
    · subst hk
      simp
    · simp [hk]

theorem setLane_laneInv {c : RuntimeBridgeConfig} {p : Lanes} (h : ∀ n, LaneInv c (p.lanes n))
    {n : ℕ} {l : Lane} (hl : LaneInv c l) (k : ℕ) : LaneInv c ((p.setLane n l).lanes k) := by
  by_cases hk : k = n
  · subst hk
    simpa [Lanes.setLane] using hl
  · simpa [Lanes.setLane, hk] using h k

namespace LanesInv
variable {c : RuntimeBridgeConfig} {p : Lanes}

theorem congr (hp : LanesInv c p) {p' : Lanes} (hlanes : ∀ n, LaneInv c (p'.lanes n))
    (hsame : SameWords p p') (hids : p'.ids = p.ids) (hpending : p'.pending = p.pending)
    (haccepting : p'.accepting = p.accepting) (hpopped : p'.popped = p.popped) :
    LanesInv c p' where
  lanes := hlanes
  fresh n hn := by
    rw [(hsame n).2.1, (hsame n).2.2]
    exact hp.fresh n (hids ▸ hn)
  known n hn := by
    rw [(hsame n).1, hids]
    exact hp.known n (hids ▸ hn)
  newest r n hn := by
    rw [(hsame n).2.1, (hsame n).2.2, hpending, haccepting]
    exact hp.newest r n (hids ▸ hn)
  earlier r n hn hold := by
    rw [(hsame n).2.1, (hsame n).2.2]
    exact hp.earlier r n (hids ▸ hn) (hids ▸ hold)
  unknown r hr := by
    rw [hpending]
    exact hp.unknown r (hids ▸ hr)
  stopped h r := by
    rw [hpending]
    exact hp.stopped (haccepting ▸ h) r
  popped r := by
    rw [hpopped, hids, hp.popped r]
    exact flatMap_congr (fun n _ => (hsame n).2.2.symm)

theorem setLane (hp : LanesInv c p) {n : ℕ} {l : Lane} (hl : LaneInv c l)
    (hid : l.requestId = (p.lanes n).requestId) (he : l.enqueued = (p.lanes n).enqueued)
    (hd : l.delivered = (p.lanes n).delivered) : LanesInv c (p.setLane n l) :=
  hp.congr (setLane_laneInv hp.lanes hl) (sameWords_setLane hid he hd) rfl rfl rfl rfl

theorem lastIndex_of_flowing (hp : LanesInv c p) {n : ℕ}
    (hwaiting : (p.lanes n).stage ≠ .waiting) (hclosed : (p.lanes n).stage ≠ .closed) :
    lastIndex (p.lanes n).requestId p.ids = some n := by
  obtain ⟨forwarded, hword, -, -⟩ := (hp.lanes n).flowing hwaiting hclosed
  have hlt : n < p.ids.length := by
    by_contra hge
    rw [(hp.fresh n (by omega)).1] at hword
    cases hword
  by_contra hold
  obtain ⟨-, m, hm, hfinal⟩ := hp.earlier _ n (hp.known n hlt) hold
  have hzero := LaneInv.countP_isFinal_acceptedWord c (p.lanes n).requestId forwarded
  rw [← hword, countP_eq_zero] at hzero
  exact hzero m hm hfinal

theorem append (hp : LanesInv c p) {n : ℕ} {l : Lane} {m : Message}
    (hid : l.requestId = (p.lanes n).requestId) (he : l.enqueued = (p.lanes n).enqueued)
    (hd : l.delivered = (p.lanes n).delivered)
    (hl : LaneInv c { l with enqueued := l.enqueued ++ [m] })
    (hlast : lastIndex l.requestId p.ids = some n) (haccepting : p.accepting = true) :
    LanesInv c (p.append n l m) := by
  have hmem := mem_indices_of_lastIndex hlast
  have hself : (p.append n l m).lanes n = { l with enqueued := l.enqueued ++ [m] } := by
    simp [Lanes.append, Lanes.setLane]
  have hother : ∀ k, k ≠ n → (p.append n l m).lanes k = p.lanes k := by
    intro k hk
    simp [Lanes.append, Lanes.setLane, hk]
  have hpending : ∀ r, r ≠ l.requestId → (p.append n l m).pending r = p.pending r := by
    intro r hr
    simp [Lanes.append, hr]
  refine ⟨setLane_laneInv hp.lanes hl, ?_, ?_, ?_, ?_, ?_, ?_, ?_⟩
  · intro k hk
    have hne : k ≠ n := by
      rintro rfl
      exact absurd (lt_of_mem_indices hmem) (Nat.not_lt.mpr hk)
    rw [hother k hne]
    exact hp.fresh k hk
  · intro k hk
    by_cases hkn : k = n
    · subst hkn
      rw [hself]
      exact hmem
    · rw [hother k hkn]
      exact hp.known k hk
  · intro r k hk
    by_cases hkn : k = n
    · subst hkn
      have hr : r = l.requestId := indices_unique (mem_indices_of_lastIndex hk) hmem
      subst hr
      obtain ⟨hfirst, heq⟩ := hp.newest _ k hk
      rw [hself]
      simp only [he, hd]
      refine ⟨hfirst.trans (prefix_append _ _), fun _ => ?_⟩
      simp [Lanes.append, ← heq haccepting]
    · have hr : r ≠ l.requestId := by
        rintro rfl
        exact hkn (Option.some.inj (hk.symm.trans hlast))
      rw [hother k hkn, hpending r hr]
      exact hp.newest r k hk
  · intro r k hk hold
    have hkn : k ≠ n := by
      rintro rfl
      obtain rfl : r = l.requestId := indices_unique hk hmem
      exact hold hlast
    rw [hother k hkn]
    exact hp.earlier r k hk hold
  · intro r hr
    have hne : r ≠ l.requestId := by
      rintro rfl
      cases hr.symm.trans hlast
    rw [hpending r hne]
    exact hp.unknown r hr
  · intro h
    cases h.symm.trans haccepting
  · intro r
    rw [show (p.append n l m).popped = p.popped from rfl, hp.popped r]
    refine flatMap_congr ?_
    intro k _
    by_cases hkn : k = n
    · subst hkn
      rw [hself, hd]
    · rw [hother k hkn]

theorem take (hp : LanesInv c p) {m : Message} {pending : ℕ → List Message}
    (haccepting : p.accepting = true)
    (hpending : ∀ r, p.pending r =
      if m.requestId? = some r then m :: pending r else pending r) :
    LanesInv c { p with lanes := p.deliver m, pending := pending, popped := p.popped ++ [m] } := by
  cases hm : m.requestId? with
  | none =>
    have hdeliver : p.deliver m = p.lanes := by simp [Lanes.deliver, hm]
    have hsame : pending = p.pending := by
      funext r
      rw [hpending r, hm, if_neg (by simp)]
    rw [hdeliver, hsame]
    refine { hp with popped := ?_ }
    intro r
    rw [← hp.popped r]
    simp [hm]
  | some r₀ =>
    cases hlast : lastIndex r₀ p.ids with
    | none =>
      have hempty := hp.unknown r₀ hlast
      rw [hpending r₀, if_pos hm] at hempty
      cases hempty
    | some n =>
      have hmem := mem_indices_of_lastIndex hlast
      have hdeliver : p.deliver m = update p.lanes n
          { p.lanes n with delivered := (p.lanes n).delivered ++ [m] } := by
        simp [Lanes.deliver, hm, hlast]
      have hsame := deliver_written p m
      have hword : (fun k => (p.deliver m k).delivered) =
          update (fun k => (p.lanes k).delivered) n ((p.lanes n).delivered ++ [m]) := by
        funext k
        rw [hdeliver]
        by_cases hk : k = n
        · subst hk
          simp
        · simp [hk]
      have hother : ∀ k, k ≠ n → (p.deliver m k).delivered = (p.lanes k).delivered := by
        intro k hk
        rw [congrFun hword k, update_of_ne hk]
      refine ⟨?_, ?_, ?_, ?_, ?_, ?_, ?_, ?_⟩
      · rw [hdeliver]
        exact setLane_laneInv hp.lanes (hp.lanes n).deliver
      · intro k hk
        have hne : k ≠ n := by
          rintro rfl
          exact absurd (lt_of_mem_indices hmem) (Nat.not_lt.mpr hk)
        rw [(hsame k).2, hother k hne]
        exact hp.fresh k hk
      · intro k hk
        rw [(hsame k).1]
        exact hp.known k hk
      · intro r k hk
        obtain ⟨hfirst, heq⟩ := hp.newest r k hk
        rw [(hsame k).2]
        by_cases hkn : k = n
        · subst hkn
          obtain rfl : r = r₀ := indices_unique (mem_indices_of_lastIndex hk) hmem
          have hwhole := heq haccepting
          rw [hpending r, if_pos hm] at hwhole
          rw [congrFun hword k, update_self, append_assoc]
          exact ⟨⟨pending r, by simpa using hwhole⟩, fun _ => hwhole⟩
        · have hr : r₀ ≠ r := by
            rintro rfl
            exact hkn (Option.some.inj (hk.symm.trans hlast))
          rw [hother k hkn]
          rw [hpending r, hm, if_neg (by simpa using hr)] at heq
          exact ⟨hfirst, heq⟩
      · intro r k hk hold
        have hkn : k ≠ n := by
          rintro rfl
          obtain rfl : r = r₀ := indices_unique hk hmem
          exact hold hlast
        rw [(hsame k).2, hother k hkn]
        exact hp.earlier r k hk hold
      · intro r hr
        have hne : r₀ ≠ r := by
          rintro rfl
          cases hr.symm.trans hlast
        have hempty := hp.unknown r hr
        rw [hpending r, hm, if_neg (by simpa using hne)] at hempty
        exact hempty
      · intro h
        cases h.symm.trans haccepting
      · intro r
        rw [filter_append, hp.popped r]
        simp only [hword]
        by_cases hr : r₀ = r
        · subst hr
          rw [flatMap_indices_update hlast (fun k => (p.lanes k).delivered)]
          simp [hm]
        · rw [flatMap_indices_update_of_ne hmem (Ne.symm hr)]
          simp [hm, hr]

theorem delivered_prefix (hp : LanesInv c p) {r n : ℕ} (hn : n ∈ indices r p.ids) :
    (p.lanes n).delivered <+: (p.lanes n).enqueued := by
  by_cases hlast : lastIndex r p.ids = some n
  · exact (hp.newest r n hlast).1
  · rw [(hp.earlier r n hn hlast).1]

theorem all_delivered (hp : LanesInv c p) {r n : ℕ} (hclient : p.ids.count r ≤ finals r p.popped)
    (hn : n ∈ indices r p.ids) :
    (p.lanes n).delivered = (p.lanes n).enqueued ∧
      ∃ m ∈ (p.lanes n).enqueued, m.isFinal = true := by
  have hle : ∀ k ∈ indices r p.ids,
      (p.lanes k).delivered.countP Message.isFinal ≤ 1 := fun k hk =>
    ((hp.delivered_prefix hk).sublist.countP_le).trans (hp.lanes k).countP_isFinal_le
  have hcount : (indices r p.ids).length ≤
      ((indices r p.ids).flatMap (fun k => (p.lanes k).delivered)).countP Message.isFinal := by
    rw [length_indices, ← hp.popped r, countP_filter]
    exact hclient
  obtain ⟨m, hm, hfinal⟩ := exists_marked hle hcount n hn
  have hall := (hp.lanes n).delivered_eq (hp.delivered_prefix hn) hm hfinal
  exact ⟨hall, m, hall ▸ hm, hfinal⟩

theorem pending_of_client (hp : LanesInv c p) {r : ℕ}
    (hclient : p.ids.count r ≤ finals r p.popped) : p.pending r = [] := by
  cases haccepting : p.accepting with
  | false => exact hp.stopped haccepting r
  | true =>
    cases hlast : lastIndex r p.ids with
    | none => exact hp.unknown r hlast
    | some n =>
      have hwhole := (hp.newest r n hlast).2 haccepting
      rw [(hp.all_delivered hclient (mem_indices_of_lastIndex hlast)).1] at hwhole
      exact append_right_eq_self.mp hwhole

theorem openLane (hp : LanesInv c p) {r : ℕ} (hclient : p.ids.count r ≤ finals r p.popped) :
    LanesInv c (p.openLane r) := by
  obtain ⟨hword, hdelivered⟩ := hp.fresh p.ids.length (Nat.le_refl _)
  obtain ⟨-, hstage, hreceived⟩ := (hp.lanes p.ids.length).blank hword
  have hids : (p.openLane r).ids = r :: p.ids := rfl
  have hself : (p.openLane r).lanes p.ids.length = { p.lanes p.ids.length with
      requestId := r, cancelled := false, allowed := false } := by
    simp [Lanes.openLane, Lanes.setLane]
  have hother : ∀ k, k ≠ p.ids.length → (p.openLane r).lanes k = p.lanes k := by
    intro k hk
    simp [Lanes.openLane, Lanes.setLane, hk]
  have hwords : ∀ k, ((p.openLane r).lanes k).enqueued = (p.lanes k).enqueued ∧
      ((p.openLane r).lanes k).delivered = (p.lanes k).delivered := by
    intro k
    by_cases hk : k = p.ids.length
    · rw [hk, hself]
      exact ⟨rfl, rfl⟩
    · rw [hother k hk]
      exact ⟨rfl, rfl⟩
  refine ⟨?_, ?_, ?_, ?_, ?_, ?_, hp.stopped, ?_⟩
  · exact setLane_laneInv hp.lanes ⟨(hp.lanes _).gate, .blank hword rfl hstage hreceived⟩
  · intro k hk
    rw [(hwords k).1, (hwords k).2]
    exact hp.fresh k (Nat.le_of_succ_le hk)
  · intro k hk
    by_cases hkn : k = p.ids.length
    · subst hkn
      rw [hself]
      simp [hids, indices]
    · rw [hother k hkn]
      have hlt : k < p.ids.length := by
        have : k < p.ids.length + 1 := hk
        omega
      simp only [hids, indices]
      split
      · exact mem_append_left _ (hp.known k hlt)
      · exact hp.known k hlt
  · intro r' k hk
    rw [(hwords k).1, (hwords k).2]
    simp only [hids, lastIndex] at hk
    split at hk
    · next hr =>
      subst hr
      cases hk
      rw [hword, hdelivered]
      exact ⟨prefix_rfl, fun _ => hp.pending_of_client hclient⟩
    · exact hp.newest r' k hk
  · intro r' k hk hold
    rw [(hwords k).1, (hwords k).2]
    simp only [hids, indices, lastIndex] at hk hold
    split at hk
    · next hr =>
      subst hr
      rw [if_pos rfl] at hold
      rcases mem_append.mp hk with hk | hk
      · exact hp.all_delivered hclient hk
      · exact absurd (congrArg some (mem_singleton.mp hk).symm) hold
    · next hr =>
      rw [if_neg hr] at hold
      exact hp.earlier r' k hk hold
  · intro r' hr'
    simp only [hids, lastIndex] at hr'
    split at hr'
    · cases hr'
    · exact hp.unknown r' hr'
  · intro r'
    rw [show (p.openLane r).popped = p.popped from rfl, hp.popped r']
    have hsame : (fun k => ((p.openLane r).lanes k).delivered) = fun k => (p.lanes k).delivered :=
      funext (fun k => (hwords k).2)
    rw [hsame, hids, indices]
    split
    · rw [flatMap_append, flatMap_singleton, hdelivered, append_nil]
    · rfl

theorem stop (hp : LanesInv c p) :
    LanesInv c { p with accepting := false, pending := fun _ => [] } :=
  ⟨hp.lanes, hp.fresh, hp.known, fun r n hn => ⟨(hp.newest r n hn).1, nofun⟩,
    hp.earlier, fun _ _ => rfl, fun _ _ => rfl, hp.popped⟩

end LanesInv

namespace DecisionInv
variable {c : RuntimeBridgeConfig} {p : Lanes}

theorem idle (h : p.decision = none) : DecisionInv c p := by
  refine ⟨?_, ?_⟩ <;>
  · intro n hn
    cases h.symm.trans hn

theorem congr (hd : DecisionInv c p) {p' : Lanes}
    (hsame : ∀ n, (p'.lanes n).requestId = (p.lanes n).requestId ∧
      (p'.lanes n).enqueued = (p.lanes n).enqueued)
    (hids : p'.ids = p.ids) (hdecision : p'.decision = p.decision) : DecisionInv c p' := by
  refine ⟨?_, ?_⟩
  · intro n hn
    rw [hids, (hsame n).2]
    exact hd.deciding n (hdecision ▸ hn)
  · intro n hn
    rw [(hsame n).1, (hsame n).2]
    exact hd.allowing n (hdecision ▸ hn)

theorem setLane (hd : DecisionInv c p) {n : ℕ} {l : Lane}
    (hid : l.requestId = (p.lanes n).requestId) (he : l.enqueued = (p.lanes n).enqueued) :
    DecisionInv c (p.setLane n l) := by
  refine hd.congr ?_ rfl rfl
  intro k
  by_cases hk : k = n
  · subst hk
    simp [Lanes.setLane, hid, he]
  · simp [Lanes.setLane, hk]

theorem append (hd : DecisionInv c p) {n : ℕ} {l : Lane} {m : Message}
    (hid : l.requestId = (p.lanes n).requestId) (he : l.enqueued = (p.lanes n).enqueued)
    (hword : (p.lanes n).enqueued ≠ []) : DecisionInv c (p.append n l m) := by
  have hself : (p.append n l m).lanes n = { l with enqueued := l.enqueued ++ [m] } := by
    simp [Lanes.append, Lanes.setLane]
  have hother : ∀ k, k ≠ n → (p.append n l m).lanes k = p.lanes k := by
    intro k hk
    simp [Lanes.append, Lanes.setLane, hk]
  refine ⟨?_, ?_⟩
  · intro k hk
    obtain ⟨hnewest, hempty⟩ := hd.deciding k hk
    have hkn : k ≠ n := by
      rintro rfl
      exact hword hempty
    rw [hother k hkn]
    exact ⟨hnewest, hempty⟩
  · intro k hk
    have hhead := hd.allowing k hk
    by_cases hkn : k = n
    · subst hkn
      rw [hself]
      simp [hid, he, List.head?_append, hhead]
    · rw [hother k hkn]
      exact hhead

end DecisionInv

theorem Lanes.Step.preserves {c : RuntimeBridgeConfig} {p p' : Lanes} (h : p.Step c p')
    (hp : LanesInv c p) (hd : DecisionInv c p) : LanesInv c p' ∧ DecisionInv c p' := by
  have newest : ∀ n, p.decision = some (n, false) →
      lastIndex (p.lanes n).requestId p.ids = some n ∧ (p.lanes n).enqueued = [] := by
    intro n hn
    obtain ⟨hlength, hword⟩ := hd.deciding n hn
    exact ⟨lastIndex_of_newest (hp.known n (by omega)) hlength, hword⟩
  cases h with
  | receive requestId hidle hclient =>
    refine ⟨hp.openLane hclient, ⟨?_, ?_⟩⟩
    · intro n hn
      obtain rfl : p.ids.length = n := by
        simpa [Lanes.openLane] using hn
      refine ⟨rfl, ?_⟩
      simpa [Lanes.openLane, Lanes.setLane] using (hp.fresh _ (Nat.le_refl _)).1
    · intro n hn
      simp [Lanes.openLane] at hn
  | install n g hdecision hgate hnew =>
    obtain ⟨hallowed, hstage, -⟩ := (hp.lanes n).blank (newest n hdecision).2
    exact ⟨hp.setLane ⟨hgate, .blank (newest n hdecision).2 hallowed hstage hnew⟩ rfl rfl rfl,
      hd.setLane rfl rfl⟩
  | start n hdecision =>
    obtain ⟨hallowed, -, hreceived⟩ := (hp.lanes n).blank (newest n hdecision).2
    exact ⟨hp.setLane ⟨(hp.lanes n).gate, .blank (newest n hdecision).2 hallowed (Or.inl rfl)
      hreceived⟩ rfl rfl rfl, hd.setLane rfl rfl⟩
  | settle =>
    exact ⟨hp.congr hp.lanes (fun _ => ⟨rfl, rfl, rfl⟩) rfl rfl rfl rfl, .idle rfl⟩
  | accept n hdecision haccepting =>
    obtain ⟨hlast, hword⟩ := newest n hdecision
    have happend := hp.append rfl rfl rfl ((hp.lanes n).accept hword) hlast haccepting
    refine ⟨happend.congr happend.lanes (fun _ => ⟨rfl, rfl, rfl⟩) rfl rfl rfl rfl, ⟨?_, ?_⟩⟩
    · intro k hk
      simp at hk
    · intro k hk
      obtain rfl : n = k := by simpa using hk
      simp [Lanes.append, Lanes.setLane, hword]
  | reject n status hdecision haccepting =>
    obtain ⟨hlast, hword⟩ := newest n hdecision
    have happend := hp.append rfl rfl rfl ((hp.lanes n).reject hword status) hlast haccepting
    exact ⟨happend.congr happend.lanes (fun _ => ⟨rfl, rfl, rfl⟩) rfl rfl rfl rfl, .idle rfl⟩
  | allow n hdecision =>
    have hset := hp.setLane ((hp.lanes n).allow (hd.allowing n hdecision)) rfl rfl rfl
    exact ⟨hset.congr hset.lanes (fun _ => ⟨rfl, rfl, rfl⟩) rfl rfl rfl rfl, .idle rfl⟩
  | cancel n => exact ⟨hp.setLane (hp.lanes n).cancel rfl rfl rfl, hd.setLane rfl rfl⟩
  | publish n call g hgate hcall =>
    exact ⟨hp.setLane ((hp.lanes n).publish hgate hcall) rfl rfl rfl, hd.setLane rfl rfl⟩
  | move n stage hmove =>
    exact ⟨hp.setLane ((hp.lanes n).move hmove) rfl rfl rfl, hd.setLane rfl rfl⟩
  | wait n hstage =>
    exact ⟨hp.setLane ((hp.lanes n).wait hstage) rfl rfl rfl, hd.setLane rfl rfl⟩
  | forward n d hstage hlabel haccepting =>
    have hlast := hp.lastIndex_of_flowing (n := n) (by simp [hstage]) (by simp [hstage])
    obtain ⟨forwarded, hword, -, -⟩ := (hp.lanes n).flowing (by simp [hstage]) (by simp [hstage])
    exact ⟨hp.append rfl rfl rfl ((hp.lanes n).forward hstage hlabel) hlast haccepting,
      hd.append rfl rfl (by simp [hword, acceptedWord])⟩
  | finish n t hstage hlabel haccepting =>
    have hlast := hp.lastIndex_of_flowing (n := n) (by simp [hstage]) (by simp [hstage])
    obtain ⟨forwarded, hword, -, -⟩ := (hp.lanes n).flowing (by simp [hstage]) (by simp [hstage])
    exact ⟨hp.append rfl rfl rfl ((hp.lanes n).finish hstage hlabel) hlast haccepting,
      hd.append rfl rfl (by simp [hword, acceptedWord])⟩
  | take m pending haccepting hpending =>
    exact ⟨hp.take haccepting hpending, hd.congr (deliver_written p m) rfl rfl⟩
  | stop => exact ⟨hp.stop, hd.congr (fun _ => ⟨rfl, rfl⟩) rfl rfl⟩

end KimServing

import KimServing.Backend.TrtLlmExecutorBackend

/-! # A submission that fails

The registration of a request may throw at four points: in the executor, while the request
state is built, and at each of the two insertions. One handler rolls all of them back, by the
ids and not by what was inserted. It restores the tables if the id of the executor was new,
and takes another request out of them if it was not.
-/
namespace KimServing.Backend
open Library

inductive SubmitPoint where
  | enqueue | construct | request | external
  deriving DecidableEq

def rollback (s : Backend) (externalId : ℕ) (executorId : Option ℕ) (what : List UInt8) :
    Status × Backend :=
  (⟨.tensorRTError, utf8 "failed to enqueue request: " ++ what⟩,
    { s with
      externalToExecutor := s.externalToExecutor.erase externalId
      requests := executorId.elim s.requests s.requests.erase
      executorCancels := s.executorCancels ++ executorId.toList })

def duplicateExecutorId : List UInt8 :=
  utf8 "TensorRT-LLM returned a duplicate executor request id"

/-- The registration of a request under the table lock, with the point at which it throws. The
external id is not in its table, so the second insertion only fails by throwing. -/
def tryRegister (s : Backend) (request : GenerationRequest) (mailbox : GenerationMailboxConfig)
    (executorId : ℕ) (fault : Option (SubmitPoint × List UInt8)) : Status × Backend :=
  let externalId := request.context.requestId
  match fault with
  | some (.enqueue, what) => s.rollback externalId none what
  | some (.construct, what) | some (.request, what) => s.rollback externalId (some executorId) what
  | some (.external, what) =>
    if (s.requests.lookup executorId).isSome then
      s.rollback externalId (some executorId) duplicateExecutorId
    else
      rollback { s with requests := s.requests.insert executorId s.count } externalId
        (some executorId) what
  | none =>
    if (s.requests.lookup executorId).isSome then
      s.rollback externalId (some executorId) duplicateExecutorId
    else (.success, s.register request mailbox executorId)

def submitSection (s : Backend) (request : GenerationRequest) (mailbox : GenerationMailboxConfig)
    (executorId : ℕ) (fault : Option (SubmitPoint × List UInt8)) : Status × Backend :=
  let externalId := request.context.requestId
  if s.state ≠ .running ∨ s.executor = false then
    (.error .cancelled "backend is not running", s)
  else if (s.externalToExecutor.lookup externalId).isSome then
    (⟨.invalidInput, utf8 ("duplicate request id: " ++ toString externalId)⟩, s)
  else s.tryRegister request mailbox executorId fault

def submitRequest (s : Backend) (request : GenerationRequest)
    (mailbox : Option GenerationMailboxConfig) (now : ℤ) (conversion : Option (List UInt8))
    (executorId : ℕ) (fault : Option (SubmitPoint × List UInt8)) : Status × Backend :=
  let status := s.config.validateRequest request mailbox now
  match status.isOk, mailbox with
  | true, some mailbox =>
    match conversion with
    | some what => (⟨.invalidInput, utf8 "failed to create TensorRT-LLM request: " ++ what⟩, s)
    | none => s.submitSection request mailbox executorId fault
  | _, _ => (status, s)

theorem submitSection_eq_enqueueRequest (s : Backend) (request : GenerationRequest)
    (mailbox : GenerationMailboxConfig) (threw : Option (List UInt8)) (executorId : ℕ) :
    s.submitSection request mailbox executorId (threw.map (SubmitPoint.enqueue, ·)) =
      s.enqueueRequest request mailbox threw executorId := by
  have hmessage : utf8 ("failed to enqueue request: " ++
      "TensorRT-LLM returned a duplicate executor request id") =
      utf8 "failed to enqueue request: " ++ duplicateExecutorId := by
    decide +kernel
  cases threw with
  | some => simp [submitSection, enqueueRequest, tryRegister, rollback]
  | none =>
    simp only [submitSection, enqueueRequest, tryRegister, rollback, Status.error, hmessage]
    rfl

variable {s : Backend} {request : GenerationRequest} {executorId : ℕ}
  {fault : Option (SubmitPoint × List UInt8)}

structure Undisturbed (s s' : Backend) : Prop where
  requests : s'.requests = s.requests
  externalToExecutor : s'.externalToExecutor = s.externalToExecutor
  cancels : ∀ id n, s.requests.lookup id = some n →
    s'.executorCancels.count id = s.executorCancels.count id

theorem Undisturbed.refl (s : Backend) : Undisturbed s s := ⟨rfl, rfl, fun _ _ _ => rfl⟩

theorem rollback_undisturbed {s' : Backend} {externalId : ℕ} {newId : Option ℕ} {what : List UInt8}
    (hexternal : s.externalToExecutor.lookup externalId = none)
    (hnew : ∀ id ∈ newId, s.requests.lookup id = none)
    (hrequests : newId.elim s'.requests s'.requests.erase = s.requests)
    (hsame : s'.externalToExecutor = s.externalToExecutor)
    (hcancels : s'.executorCancels = s.executorCancels) :
    Undisturbed s (s'.rollback externalId newId what).2 := by
  refine ⟨hrequests, ?_, ?_⟩
  · simp only [rollback, hsame]
    exact erase_of_lookup_none hexternal
  · intro id n hid
    simp only [rollback, hcancels, List.count_append, Nat.add_eq_left]
    rw [List.count_eq_zero]
    intro hmem
    rw [hnew id (Option.mem_toList.mp hmem)] at hid
    cases hid

theorem tryRegister_undisturbed {mailbox : GenerationMailboxConfig}
    (hexternal : s.externalToExecutor.lookup request.context.requestId = none)
    (hid : s.requests.lookup executorId = none ∨ ∃ what, fault = some (.enqueue, what))
    (h : (s.tryRegister request mailbox executorId fault).1.isOk = false) :
    Undisturbed s (s.tryRegister request mailbox executorId fault).2 := by
  rcases hid with hid | ⟨what, rfl⟩
  · have hnew : ∀ id ∈ some executorId, s.requests.lookup id = none := by
      rintro id hmem
      cases hmem
      exact hid
    have herase := erase_of_lookup_none hid
    have habsent : ¬ (s.requests.lookup executorId).isSome = true := by simp [hid]
    match fault with
    | some (.enqueue, what) =>
      exact rollback_undisturbed hexternal (nofun) rfl rfl rfl
    | some (.construct, what)
    | some (.request, what) => exact rollback_undisturbed hexternal hnew herase rfl rfl
    | some (.external, what) =>
      simp only [tryRegister, if_neg habsent]
      exact rollback_undisturbed hexternal hnew (erase_insert_new s.count hid) rfl rfl
    | none =>
      simp only [tryRegister, if_neg habsent] at h
      cases h
  · exact rollback_undisturbed hexternal (nofun) rfl rfl rfl

theorem tryRegister_evicts {mailbox : GenerationMailboxConfig}
    (hthrew : ∀ what, fault ≠ some (.enqueue, what))
    (hknown : (s.requests.lookup executorId).isSome = true) :
    (s.tryRegister request mailbox executorId fault).2.requests.lookup executorId = none := by
  match fault with
  | some (.enqueue, what) => exact absurd rfl (hthrew what)
  | some (.construct, what) | some (.request, what) => exact AList.lookup_erase _ _
  | some (.external, what) =>
    simp only [tryRegister, if_pos hknown]
    exact AList.lookup_erase _ _
  | none =>
    simp only [tryRegister, if_pos hknown]
    exact AList.lookup_erase _ _

/-- The call gets as far as the executor, which returns the id of a request in the table. -/
structure Evicts (s : Backend) (request : GenerationRequest)
    (mailbox : Option GenerationMailboxConfig) (now : ℤ) (conversion : Option (List UInt8))
    (executorId : ℕ) (fault : Option (SubmitPoint × List UInt8)) : Prop where
  valid : (s.config.validateRequest request mailbox now).isOk = true ∧ mailbox.isSome = true
  converted : conversion = none
  running : ¬ (s.state ≠ .running ∨ s.executor = false)
  external : s.externalToExecutor.lookup request.context.requestId = none
  returned : ∀ what, fault ≠ some (.enqueue, what)
  known : (s.requests.lookup executorId).isSome = true

/-- A failed submission leaves the tables and their requests alone, unless the executor
returned an id that is in the table. -/
theorem failed_submit_undisturbed {mailbox : Option GenerationMailboxConfig} {now : ℤ}
    {conversion : Option (List UInt8)}
    (h : (s.submitRequest request mailbox now conversion executorId fault).1.isOk = false) :
    Undisturbed s (s.submitRequest request mailbox now conversion executorId fault).2 ↔
      ¬ s.Evicts request mailbox now conversion executorId fault := by
  constructor
  · intro hsame hevicts
    obtain ⟨⟨hok, hmailbox⟩, rfl, hrunning, hexternal, hreturned, hknown⟩ := hevicts
    obtain ⟨mailbox, rfl⟩ := Option.isSome_iff_exists.mp hmailbox
    have hevicted := @tryRegister_evicts s request executorId fault mailbox hreturned hknown
    have hrequests := hsame.requests
    simp only [submitRequest, hok, submitSection, if_neg hrunning, hexternal, Option.isSome_none,
      Bool.false_eq_true, if_false] at hrequests
    rw [hrequests] at hevicted
    rw [hevicted] at hknown
    cases hknown
  · intro hspared
    unfold submitRequest at h ⊢
    dsimp only at h ⊢
    split
    · next mailbox hok =>
      rw [hok] at h
      cases conversion with
      | some what => exact .refl s
      | none =>
        simp only [submitSection] at h ⊢
        split
        · exact .refl s
        · next hrunning =>
          rw [if_neg hrunning] at h
          split
          · exact .refl s
          · next hexternal =>
            rw [if_neg hexternal] at h
            have hnew : s.externalToExecutor.lookup request.context.requestId = none := by
              simpa using hexternal
            refine tryRegister_undisturbed hnew ?_ h
            by_contra hid
            push Not at hid
            exact hspared ⟨⟨hok, rfl⟩, rfl, hrunning, hnew, hid.2,
              Option.isSome_iff_ne_none.mpr hid.1⟩
    · exact .refl s

def oneRequest : Backend :=
  register { config := {}, state := .running, executor := true }
    { context := { requestId := 1 }, inputTokenIds := [3] } {} 7

def secondRequest : GenerationRequest := { context := { requestId := 2 }, inputTokenIds := [3] }

/-- The second insertion throws, after the first one. -/
theorem failed_submit_undisturbed_external :
    (oneRequest.submitRequest secondRequest (some {}) 0 none 8
      (some (.external, utf8 "out of memory"))).1.isOk = false ∧
    Undisturbed oneRequest (oneRequest.submitRequest secondRequest (some {}) 0 none 8
      (some (.external, utf8 "out of memory"))).2 := by
  have hfailed : (oneRequest.submitRequest secondRequest (some {}) 0 none 8
      (some (.external, utf8 "out of memory"))).1.isOk = false := by decide +kernel
  refine ⟨hfailed, (failed_submit_undisturbed hfailed).mpr ?_⟩
  exact fun hevicts => absurd hevicts.known (by decide)

-- A backend that is not running loses nothing, though the id is in the table.
example : ¬ Evicts { oneRequest with state := .stopping } secondRequest (some {}) 0 none 7 none :=
  fun h => h.running (.inl (by decide))

/-- An executor that returns the id of a running request makes the handler take that request
out of the table and cancel it; its external id stays behind. -/
theorem duplicate_id_evicts :
    let result := oneRequest.submitRequest secondRequest (some {}) 0 none 7 none
    oneRequest.requests.lookup 7 = some 0 ∧ result.1.isOk = false ∧
      result.2.requests.lookup 7 = none ∧ result.2.externalToExecutor.lookup 1 = some 7 ∧
      result.2.executorCancels = [7] := by
  decide +kernel

end KimServing.Backend

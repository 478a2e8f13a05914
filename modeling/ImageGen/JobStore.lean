-- The job table. A job moves only along the transition table. The flags that
-- say which channel delivers the result have writes of their own, each one
-- UPDATE with its WHERE clause.
import Mathlib.Data.List.Basic
import Mathlib.Data.List.Nodup
import ImageGen.Json

namespace image_gen.job_store

open image_gen.json

/-! ## Rows -/

inductive JobStatus
  | queued
  | running
  | completed
  | failed
  | abandoned
  deriving DecidableEq

def JobStatus.text : JobStatus → String
  | .queued => "queued"
  | .running => "running"
  | .completed => "completed"
  | .failed => "failed"
  | .abandoned => "abandoned"

inductive JobMode
  | sync
  | async
  deriving DecidableEq

inductive WebhookDeliveryStatus
  | pending
  | succeeded
  | failed
  | suppressed
  deriving DecidableEq

/-- An entry of the response data. -/
inductive DataEntry
  | url (url : String)
  | b64Json (text : String)
  deriving DecidableEq

/-- What the worker gives to the handler, and what `result_json` holds. -/
structure JobResult where
  data : List DataEntry
  durationMs : ℚ
  resolvedSeed : Int
  deriving DecidableEq

structure Job where
  id : String
  modelName : String
  inputJson : StoredJson
  mode : JobMode
  status : JobStatus
  resultJson : Option JobResult
  errorCode : Option String
  errorMessage : Option String
  createdAt : Nat
  updatedAt : Nat
  clientId : Option String
  promptId : Option String
  /-- The nullable column. `Job.output_keys` reads NULL as the empty list. -/
  outputKeys : Option (List String)
  responseDelivered : Bool
  initialResponseDelivered : Bool
  webhookUrl : Option String
  webhookHeaders : Option (List (String × String))
  webhookDeliveryStatus : Option WebhookDeliveryStatus
  webhookHandover : Bool
  fetchedAt : Option Nat

def allowedTransitions : JobStatus → List JobStatus
  | .queued => [.running, .failed, .abandoned]
  | .running => [.completed, .failed, .abandoned]
  | .completed => []
  | .failed => []
  | .abandoned => []

/-- No transition leaves the status. -/
def JobStatus.Terminal (s : JobStatus) : Prop := allowedTransitions s = []

instance (s : JobStatus) : Decidable s.Terminal :=
  inferInstanceAs (Decidable (allowedTransitions s = []))

@[simp] theorem not_terminal_queued : ¬ JobStatus.Terminal .queued := by decide
@[simp] theorem not_terminal_running : ¬ JobStatus.Terminal .running := by decide
@[simp] theorem terminal_completed : JobStatus.Terminal .completed := by decide
@[simp] theorem terminal_failed : JobStatus.Terminal .failed := by decide

theorem terminal_iff (s : JobStatus) : s.Terminal ↔ s ≠ .queued ∧ s ≠ .running := by
  cases s <;> decide

theorem failed_mem_allowed {s : JobStatus} (h : ¬ s.Terminal) :
    JobStatus.failed ∈ allowedTransitions s := by
  cases s <;> first | decide | exact absurd (by decide) h

/-! ## One row -/

namespace Job

/-- The row that `create_queued` inserts. -/
def fresh (id modelName : String) (inputJson : StoredJson) (mode : JobMode)
    (webhookUrl : Option String) (webhookHeaders : Option (List (String × String)))
    (now : Nat) : Job where
  id := id
  modelName := modelName
  inputJson := inputJson
  mode := mode
  status := .queued
  resultJson := none
  errorCode := none
  errorMessage := none
  createdAt := now
  updatedAt := now
  clientId := none
  promptId := none
  outputKeys := none
  responseDelivered := false
  initialResponseDelivered := false
  webhookUrl := webhookUrl
  -- an empty header map is stored as NULL
  webhookHeaders := webhookHeaders.filter (fun hs => !hs.isEmpty)
  webhookDeliveryStatus := webhookUrl.map (fun _ => .pending)
  webhookHandover := false
  fetchedAt := none

def setRunning (promptId clientId : String) (now : Nat) (j : Job) : Job :=
  { j with status := .running, promptId := some promptId, clientId := some clientId,
           updatedAt := now }

def setCompleted (outputKeys : List String) (result : JobResult) (now : Nat) (j : Job) : Job :=
  { j with status := .completed, outputKeys := some outputKeys, resultJson := some result,
           updatedAt := now }

def setFailed (errorCode errorMessage : String) (now : Nat) (j : Job) : Job :=
  { j with status := .failed, errorCode := some errorCode, errorMessage := some errorMessage,
           updatedAt := now }

def setAbandoned (errorCode : String) (now : Nat) (j : Job) : Job :=
  { j with status := .abandoned, errorCode := some errorCode, updatedAt := now }

/-- WHERE fetched_at IS NULL. -/
def setFetched (now : Nat) (j : Job) : Job :=
  if j.fetchedAt = none then { j with fetchedAt := some now } else j

/-- WHERE mode='async'. -/
def markInitialResponseDelivered (now : Nat) (j : Job) : Job :=
  if j.mode = .async then
    { j with initialResponseDelivered := true, webhookHandover := true, updatedAt := now }
  else j

/-- WHERE mode='sync'. -/
def markResponseDelivered (now : Nat) (j : Job) : Job :=
  if j.mode = .sync then
    { j with responseDelivered := true, webhookHandover := true, updatedAt := now }
  else j

def markAsyncWithHandover (now : Nat) (j : Job) : Job :=
  { j with mode := .async, webhookHandover := true, updatedAt := now }

def markHandover (now : Nat) (j : Job) : Job :=
  { j with webhookHandover := true, updatedAt := now }

def setWebhookDeliveryStatus (status : WebhookDeliveryStatus) (now : Nat) (j : Job) : Job :=
  { j with webhookDeliveryStatus := some status, updatedAt := now }

/-- The WHERE clause of `scan_webhook_candidates`. -/
def WebhookCandidate (j : Job) : Prop :=
  j.webhookUrl ≠ none ∧ j.webhookHandover = true ∧ j.status.Terminal ∧
    (j.webhookDeliveryStatus = some .pending ∨ j.webhookDeliveryStatus = none)

instance (j : Job) : Decidable j.WebhookCandidate := by
  unfold WebhookCandidate; infer_instance

end Job

/-! ## The table -/

inductive StoreError
  | jobNotFound (id : String)
  | invalidTransition (current target : JobStatus)
  | integrity
  | sqlite (message : String)
  deriving DecidableEq

/-- The rows. The id is the primary key. -/
abbrev Store := List Job

namespace Store

def getById (s : Store) (id : String) : Option Job := s.find? (fun j => j.id = id)

/-- `UPDATE jobs SET .. WHERE id=?`. -/
def update (s : Store) (id : String) (f : Job → Job) : Store :=
  s.map (fun j => if j.id = id then f j else j)

def fetchStatus (s : Store) (id : String) : Except StoreError JobStatus :=
  match s.getById id with
  | none => .error (.jobNotFound id)
  | some j => .ok j.status

def assertAllowed (current target : JobStatus) : Except StoreError Unit :=
  if target ∈ allowedTransitions current then .ok ()
  else .error (.invalidTransition current target)

/-- The body that the four `set_*` writes share. -/
def transition (s : Store) (id : String) (target : JobStatus) (f : Job → Job) :
    Except StoreError Store := do
  let current ← s.fetchStatus id
  assertAllowed current target
  return s.update id f

def setRunning (s : Store) (id promptId clientId : String) (now : Nat) : Except StoreError Store :=
  s.transition id .running (Job.setRunning promptId clientId now)

def setCompleted (s : Store) (id : String) (outputKeys : List String) (result : JobResult)
    (now : Nat) : Except StoreError Store :=
  s.transition id .completed (Job.setCompleted outputKeys result now)

def setFailed (s : Store) (id errorCode errorMessage : String) (now : Nat) :
    Except StoreError Store :=
  s.transition id .failed (Job.setFailed errorCode errorMessage now)

def setAbandoned (s : Store) (id errorCode : String) (now : Nat) : Except StoreError Store :=
  s.transition id .abandoned (Job.setAbandoned errorCode now)

theorem getById_id {s : Store} {id : String} {j : Job} (h : s.getById id = some j) : j.id = id := by
  have := List.find?_some h
  simpa using this

/-- An UPDATE keeps the ids, so it changes the one row that it names. -/
theorem getById_update (s : Store) (id id' : String) {f : Job → Job}
    (hf : ∀ j, (f j).id = j.id) :
    (s.update id f).getById id' = (s.getById id').map (fun j => if j.id = id then f j else j) := by
  unfold update getById
  rw [List.find?_map]
  congr 2
  funext j
  by_cases h : j.id = id
  · simp [h, hf]
  · simp [h]

theorem getById_update_ne (s : Store) {id id' : String} {f : Job → Job}
    (hf : ∀ j, (f j).id = j.id) (hne : id' ≠ id) : (s.update id f).getById id' = s.getById id' := by
  rw [getById_update s id id' hf]
  rcases h : s.getById id' with _ | row
  · rfl
  · simp only [Option.map_some]
    rw [if_neg]
    rw [getById_id h]
    exact hne

theorem getById_update_self (s : Store) (id : String) {f : Job → Job}
    (hf : ∀ j, (f j).id = j.id) : (s.update id f).getById id = (s.getById id).map f := by
  rw [getById_update s id id hf]
  rcases h : s.getById id with _ | j
  · rfl
  · simp [getById_id h]

theorem transition_allowed {s : Store} {id : String} {current target : JobStatus}
    (f : Job → Job) (hs : (s.getById id).map (·.status) = some current)
    (h : target ∈ allowedTransitions current) :
    s.transition id target f = .ok (s.update id f) := by
  obtain ⟨j, hj, rfl⟩ := Option.map_eq_some_iff.mp hs
  have hok : assertAllowed j.status target = .ok () := if_pos h
  unfold transition fetchStatus
  rw [hj]
  change (assertAllowed j.status target >>= fun _ => pure (s.update id f)) = .ok (s.update id f)
  rw [hok]
  rfl

theorem transition_ok {s t : Store} {id : String} {target : JobStatus} {f : Job → Job}
    (h : s.transition id target f = .ok t) :
    ∃ j, s.getById id = some j ∧ target ∈ allowedTransitions j.status ∧ t = s.update id f := by
  unfold transition fetchStatus at h
  rcases hrow : s.getById id with _ | j <;> rw [hrow] at h
  · cases h
  change (assertAllowed j.status target >>= fun _ => .ok (s.update id f)) = .ok t at h
  unfold assertAllowed at h
  split at h
  · rename_i hallowed
    cases h
    exact ⟨j, rfl, hallowed, rfl⟩
  · cases h

/-- The INSERT. It fails on an id that stands already. -/
def createQueued (s : Store) (job : Job) : Except StoreError Store :=
  if s.getById job.id = none then .ok (s ++ [job]) else .error .integrity

/-- `SELECT COUNT(*) .. WHERE status IN ('queued', 'running')`. -/
def countActive (s : Store) : Nat := s.countP (fun j => !decide j.status.Terminal)

/-- Oldest first. -/
def scanNonTerminal (s : Store) : List Job :=
  (s.filter (fun j => !decide j.status.Terminal)).mergeSort (fun a b => a.createdAt ≤ b.createdAt)

/-- The ids are distinct. -/
def Keyed (s : Store) : Prop := (s.map (·.id)).Nodup

theorem eq_of_id {s : Store} (hs : s.Keyed) {id : String} {j row : Job}
    (hj : s.getById id = some j) (hrow : row ∈ s) (hid : row.id = id) : row = j :=
  List.inj_on_of_nodup_map hs hrow (List.mem_of_find?_eq_some hj)
    (hid.trans (getById_id hj).symm)

theorem getById_of_mem {s : Store} (hs : s.Keyed) {row : Job} (h : row ∈ s) :
    s.getById row.id = some row := by
  rcases hrow : s.getById row.id with _ | j
  · have := List.find?_eq_none.mp hrow row h
    simp at this
  · rw [eq_of_id hs hrow h rfl]

theorem keyed_update {s : Store} (hs : s.Keyed) (id : String) {f : Job → Job}
    (hf : ∀ j, (f j).id = j.id) : (s.update id f).Keyed := by
  unfold Keyed update at *
  rw [List.map_map]
  have hids : (fun j : Job => j.id) ∘ (fun j => if j.id = id then f j else j) = (·.id) := by
    funext j
    by_cases h : j.id = id <;> simp [h, hf]
  rw [hids]
  exact hs

theorem keyed_createQueued {s t : Store} {job : Job} (hs : s.Keyed)
    (h : s.createQueued job = .ok t) : t.Keyed := by
  unfold createQueued at h
  split at h
  · rename_i hnew
    cases h
    unfold Keyed
    rw [List.map_append, List.nodup_append]
    refine ⟨hs, List.nodup_singleton _, ?_⟩
    intro a ha b hb hab
    obtain ⟨row, hrow, rfl⟩ := List.mem_map.mp ha
    simp only [List.map_cons, List.map_nil, List.mem_singleton] at hb
    have := List.find?_eq_none.mp hnew row hrow
    simp [hab.trans hb] at this
  · cases h

/-- An UPDATE that moves no row out of a terminal status adds no active row. -/
theorem countActive_update_le {s : Store} {id : String} {f : Job → Job}
    (h : ∀ row ∈ s, row.id = id → row.status.Terminal → (f row).status.Terminal) :
    (s.update id f).countActive ≤ s.countActive := by
  unfold countActive update
  rw [List.countP_map]
  refine List.countP_mono_left fun row hrow hactive => ?_
  simp only [Function.comp_apply] at hactive
  by_cases hid : row.id = id
  · simp only [hid, if_true, Bool.not_eq_true', decide_eq_false_iff_not] at hactive ⊢
    exact fun hterm => hactive (h row hrow hid hterm)
  · simpa [hid] using hactive

end Store

/-! ## The writes -/

/-- The UPDATEs of `app/queue/jobs.py` on the job table. -/
inductive Write
  | setRunning (id promptId clientId : String)
  | setCompleted (id : String) (outputKeys : List String) (result : JobResult)
  | setFailed (id errorCode errorMessage : String)
  | setAbandoned (id errorCode : String)
  | setFetched (id : String)
  | markInitialResponseDelivered (id : String)
  | markResponseDelivered (id : String)
  | markAsyncWithHandover (id : String)
  | markHandover (id : String)
  | setWebhookDeliveryStatus (id : String) (status : WebhookDeliveryStatus)

namespace Write

def apply (s : Store) (now : Nat) : Write → Except StoreError Store
  | .setRunning id promptId clientId => s.setRunning id promptId clientId now
  | .setCompleted id outputKeys result => s.setCompleted id outputKeys result now
  | .setFailed id errorCode errorMessage => s.setFailed id errorCode errorMessage now
  | .setAbandoned id errorCode => s.setAbandoned id errorCode now
  | .setFetched id => .ok (s.update id (Job.setFetched now))
  | .markInitialResponseDelivered id => .ok (s.update id (Job.markInitialResponseDelivered now))
  | .markResponseDelivered id => .ok (s.update id (Job.markResponseDelivered now))
  | .markAsyncWithHandover id => .ok (s.update id (Job.markAsyncWithHandover now))
  | .markHandover id => .ok (s.update id (Job.markHandover now))
  | .setWebhookDeliveryStatus id status =>
    .ok (s.update id (Job.setWebhookDeliveryStatus status now))

/-- The id in the WHERE clause. -/
def target : Write → String
  | .setRunning id _ _ => id
  | .setCompleted id _ _ => id
  | .setFailed id _ _ => id
  | .setAbandoned id _ => id
  | .setFetched id => id
  | .markInitialResponseDelivered id => id
  | .markResponseDelivered id => id
  | .markAsyncWithHandover id => id
  | .markHandover id => id
  | .setWebhookDeliveryStatus id _ => id

/-- What the UPDATE makes of the row. -/
def change (now : Nat) : Write → Job → Job
  | .setRunning _ promptId clientId => Job.setRunning promptId clientId now
  | .setCompleted _ outputKeys result => Job.setCompleted outputKeys result now
  | .setFailed _ errorCode errorMessage => Job.setFailed errorCode errorMessage now
  | .setAbandoned _ errorCode => Job.setAbandoned errorCode now
  | .setFetched _ => Job.setFetched now
  | .markInitialResponseDelivered _ => Job.markInitialResponseDelivered now
  | .markResponseDelivered _ => Job.markResponseDelivered now
  | .markAsyncWithHandover _ => Job.markAsyncWithHandover now
  | .markHandover _ => Job.markHandover now
  | .setWebhookDeliveryStatus _ status => Job.setWebhookDeliveryStatus status now

theorem apply_ok {s t : Store} {now : Nat} {w : Write} (h : w.apply s now = .ok t) :
    t = s.update w.target (w.change now) := by
  have htransition : ∀ {id final f}, s.transition id final f = .ok t → t = s.update id f := by
    intro id final f hok
    obtain ⟨-, -, -, ht⟩ := Store.transition_ok hok
    exact ht
  cases w with
  | setRunning id promptId clientId => exact htransition h
  | setCompleted id outputKeys result => exact htransition h
  | setFailed id errorCode errorMessage => exact htransition h
  | setAbandoned id errorCode => exact htransition h
  | _ =>
    cases h
    rfl

theorem change_id (now : Nat) (w : Write) (j : Job) : (w.change now j).id = j.id := by
  cases w with
  | setFetched id =>
    simp only [change, Job.setFetched]
    split <;> rfl
  | markInitialResponseDelivered id =>
    simp only [change, Job.markInitialResponseDelivered]
    split <;> rfl
  | markResponseDelivered id =>
    simp only [change, Job.markResponseDelivered]
    split <;> rfl
  | _ => rfl

/-- `t` is `s` after one UPDATE of one row, which leaves the id, the stored
request and a terminal status as they are. -/
def OneUpdate (s t : Store) : Prop :=
  ∃ id f, t = s.update id f ∧ (∀ j, (f j).id = j.id) ∧ (∀ j, (f j).inputJson = j.inputJson) ∧
    ∀ row ∈ s, row.id = id → row.status.Terminal → (f row).status = row.status

theorem oneUpdate_transition {s t : Store} (hs : s.Keyed) (id : String) (target : JobStatus)
    (f : Job → Job) (hf : ∀ j, (f j).id = j.id) (hinput : ∀ j, (f j).inputJson = j.inputJson)
    (h : s.transition id target f = .ok t) : OneUpdate s t := by
  obtain ⟨j, hrow, hallowed, rfl⟩ := Store.transition_ok h
  refine ⟨id, f, rfl, hf, hinput, fun row hmem hid hterm => ?_⟩
  rw [Store.eq_of_id hs hrow hmem hid, JobStatus.Terminal] at hterm
  rw [hterm] at hallowed
  cases hallowed

theorem oneUpdate_flags (s : Store) (id : String) (f : Job → Job) (hf : ∀ j, (f j).id = j.id)
    (hinput : ∀ j, (f j).inputJson = j.inputJson) (hstatus : ∀ j, (f j).status = j.status) :
    OneUpdate s (s.update id f) :=
  ⟨id, f, rfl, hf, hinput, fun row _ _ _ => hstatus row⟩

theorem oneUpdate_apply {s t : Store} {now : Nat} {w : Write} (hs : s.Keyed)
    (h : w.apply s now = .ok t) : OneUpdate s t := by
  cases w with
  | setRunning id promptId clientId =>
    exact oneUpdate_transition hs id _ (Job.setRunning promptId clientId now) (fun _ => rfl)
      (fun _ => rfl) h
  | setCompleted id outputKeys result =>
    exact oneUpdate_transition hs id _ (Job.setCompleted outputKeys result now) (fun _ => rfl)
      (fun _ => rfl) h
  | setFailed id errorCode errorMessage =>
    exact oneUpdate_transition hs id _ (Job.setFailed errorCode errorMessage now) (fun _ => rfl)
      (fun _ => rfl) h
  | setAbandoned id errorCode =>
    exact oneUpdate_transition hs id _ (Job.setAbandoned errorCode now) (fun _ => rfl)
      (fun _ => rfl) h
  | setFetched id =>
    cases h
    apply oneUpdate_flags <;> (intro j; unfold Job.setFetched; split <;> rfl)
  | markInitialResponseDelivered id =>
    cases h
    apply oneUpdate_flags <;> (intro j; unfold Job.markInitialResponseDelivered; split <;> rfl)
  | markResponseDelivered id =>
    cases h
    apply oneUpdate_flags <;> (intro j; unfold Job.markResponseDelivered; split <;> rfl)
  | markAsyncWithHandover id =>
    cases h
    exact oneUpdate_flags s id _ (fun _ => rfl) (fun _ => rfl) fun _ => rfl
  | markHandover id =>
    cases h
    exact oneUpdate_flags s id _ (fun _ => rfl) (fun _ => rfl) fun _ => rfl
  | setWebhookDeliveryStatus id status =>
    cases h
    exact oneUpdate_flags s id _ (fun _ => rfl) (fun _ => rfl) fun _ => rfl

/-- No UPDATE changes a stored request or brings a row back from a terminal
status. -/
theorem mem_apply {s t : Store} {now : Nat} {w : Write} (hs : s.Keyed)
    (h : w.apply s now = .ok t) {row : Job} (hrow : row ∈ t) :
    ∃ old ∈ s, row.inputJson = old.inputJson ∧ (old.status.Terminal → row.status.Terminal) := by
  obtain ⟨id, f, rfl, -, hinput, hterm⟩ := oneUpdate_apply hs h
  obtain ⟨old, hold, rfl⟩ := List.mem_map.mp hrow
  refine ⟨old, hold, ?_⟩
  by_cases hid : old.id = id
  · rw [if_pos hid]
    refine ⟨hinput old, fun ht => ?_⟩
    rw [hterm old hold hid ht]
    exact ht
  · rw [if_neg hid]
    exact ⟨rfl, fun ht => ht⟩

theorem keyed_apply {s t : Store} {now : Nat} {w : Write} (hs : s.Keyed)
    (h : w.apply s now = .ok t) : t.Keyed := by
  obtain ⟨id, f, rfl, hid, -, -⟩ := oneUpdate_apply hs h
  exact Store.keyed_update hs id hid

theorem countActive_apply_le {s t : Store} {now : Nat} {w : Write} (hs : s.Keyed)
    (h : w.apply s now = .ok t) : t.countActive ≤ s.countActive := by
  obtain ⟨id, f, rfl, -, -, hterm⟩ := oneUpdate_apply hs h
  refine Store.countActive_update_le fun row hrow hid ht => ?_
  rw [hterm row hrow hid ht]
  exact ht

end Write

end image_gen.job_store

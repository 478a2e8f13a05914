-- One job and everyone who writes to its row: the request handler, its
-- disconnect watcher, the worker, boot recovery and the dispatcher. Each
-- `write()` block is one step. A crash may come between any two steps.
import ImageGen.Runs
import ImageGen.Requests
import ImageGen.Dispatcher

namespace image_gen.delivery

open image_gen.coroutine image_gen.runs image_gen.job_store image_gen.requests

/-! ## The actors -/

inductive HandlerPc
  /-- The row stands, the item is not on the queue yet. -/
  | enqueuing
  /-- `await asyncio.shield(fut)`. -/
  | waiting
  /-- The result is there and the watcher is cancelled. -/
  | answering
  /-- The response is out, the background task is not done. -/
  | flushed
  | gone
  deriving DecidableEq

structure Handler where
  mode : JobMode
  /-- The endpoint that answers with the bytes. -/
  binary : Bool
  pc : HandlerPc

inductive WatcherPc
  | polling
  /-- It saw the disconnect and waits for the write lock. -/
  | locking
  /-- Inside `write()`. A cancellation here ends in a commit or a rollback. -/
  | writing
  | gone
  deriving DecidableEq

inductive WorkerPc
  | idle
  | queued
  | processing
  deriving DecidableEq

/-- What `recover_jobs` has left to do for this row. -/
inductive RecoveryPc
  /-- Before the scan. -/
  | pending
  /-- The scan read `running`: `set_failed` is next. -/
  | failing
  /-- `mark_handover` is next. -/
  | marking
  /-- The scan read `queued`: `enqueue_recovery` is next. -/
  | requeuing
  | done
  deriving DecidableEq

structure Cell where
  rows : dispatcher.Rows
  handler : Handler
  watcher : WatcherPc
  worker : WorkerPc
  /-- The handler's future, once it is done: true for a result. -/
  future : Option Bool
  recovery : RecoveryPc
  /-- The pass of the dispatcher that is on its way. -/
  dispatch : Option (dispatcher.Prog Unit)

namespace Cell

def job (c : Cell) : Job := c.rows.job

def setJob (c : Cell) (f : Job → Job) : Cell :=
  { c with rows := { c.rows with job := f c.rows.job } }

def setHandlerPc (c : Cell) (pc : HandlerPc) : Cell :=
  { c with handler := { c.handler with pc := pc } }

/-- `watcher.cancel()`. A watcher inside its write ends it first. -/
def cancelWatcher (c : Cell) : Cell :=
  if c.watcher = .writing then c else { c with watcher := .gone }

/-- No write of this row is open. -/
def Unlocked (c : Cell) : Prop := c.watcher ≠ .writing

instance (c : Cell) : Decidable c.Unlocked := inferInstanceAs (Decidable (_ ≠ _))

end Cell

/-- A `set_*` write of one row. The row stays when the transition is not allowed. -/
def transition (j : Job) (target : JobStatus) (f : Job → Job) : Job :=
  if target ∈ allowedTransitions j.status then f j else j

/-- A job right after `create_queued` has committed. -/
def created (r : Submission) (binary : Bool) (id : String) (now : Nat) : Cell where
  rows := ⟨r.row id now, [], []⟩
  handler := ⟨r.mode, binary, .enqueuing⟩
  watcher := .gone
  worker := .idle
  future := none
  recovery := .done
  dispatch := none

/-! ## Steps -/

inductive WorkerWrite
  | setRunning (promptId clientId : String)
  | setCompleted (outputKeys : List String) (result : JobResult)
  | setFailed (errorCode errorMessage : String)

def WorkerWrite.apply (now : Nat) (j : Job) : WorkerWrite → Job
  | .setRunning promptId clientId => transition j .running (Job.setRunning promptId clientId now)
  | .setCompleted outputKeys result =>
    transition j .completed (Job.setCompleted outputKeys result now)
  | .setFailed errorCode errorMessage =>
    transition j .failed (Job.setFailed errorCode errorMessage now)

/-- What the handler, its watcher, the worker, recovery and the gateway do. -/
inductive Move
  /-- `worker.enqueue`, or `enqueue_detached` for an async job. -/
  | enqueue
  /-- The future is done: the handler takes the result, or returns the error. -/
  | receive
  /-- `set_fetched` of the binary endpoint. -/
  | setFetched (now : Nat)
  /-- The response bytes are out. -/
  | respond
  /-- The background task: `mark_response_delivered`, or
  `mark_initial_response_delivered` for an async job. -/
  | markDelivered (now : Nat)
  /-- The handler ends early: an error answer, an exception or a cancellation. -/
  | handlerEnds
  | detect
  | acquire
  | watcherCommits (now : Nat)
  | watcherRollsBack
  | dequeue
  | work (w : WorkerWrite) (now : Nat)
  | resolve (ok : Bool)
  | scan
  | recover (now : Nat)
  /-- A GET of the gateway. -/
  | fetch (now : Nat)

inductive Act
  | move (m : Move)
  /-- `_tick` finds the job among its candidates. -/
  | tick
  | dispatch (inp : dispatcher.Input)
  /-- The operation of the pass raises, and its write rolls back. -/
  | dispatchRaises (message : String)

/-- What the handler's background task writes. -/
def markDelivered (mode : JobMode) (now : Nat) : Job → Job :=
  match mode with
  | .sync => Job.markResponseDelivered now
  | .async => Job.markInitialResponseDelivered now

def serviceRestarted : String := "service_restarted"

/-- The process dies and comes up again. -/
def crash (c : Cell) : Cell where
  rows := c.rows
  handler := { c.handler with pc := .gone }
  watcher := .gone
  worker := .idle
  future := none
  recovery := .pending
  dispatch := none

/-- The status that the scan of `recover_jobs` reads decides what is to do. -/
def recoveryFor : JobStatus → RecoveryPc
  | .running => .failing
  | .queued => .requeuing
  | _ => .done

/-- One step of `recover_jobs` for the row. -/
def recover (now : Nat) (c : Cell) : Option Cell :=
  match c.recovery with
  | .failing =>
    if .failed ∈ allowedTransitions c.job.status then
      some { c.setJob (Job.setFailed serviceRestarted "process restart mid-generation" now) with
        recovery := .marking }
    -- `set_failed` raises and the pass stops
    else some c
  | .marking => some { c.setJob (Job.markHandover now) with recovery := .done }
  | .requeuing => some { c with worker := .queued, recovery := .done }
  | _ => none

def move (c : Cell) : Move → Option Cell
  | .enqueue =>
    if c.handler.pc = .enqueuing then
      match c.handler.mode with
      | .async => some { c.setHandlerPc .answering with worker := .queued }
      | .sync => some { c.setHandlerPc .waiting with worker := .queued, watcher := .polling }
    else none
  | .receive =>
    if c.handler.pc = .waiting then
      match c.future with
      | some true => some (c.cancelWatcher.setHandlerPc .answering)
      | some false => some (c.cancelWatcher.setHandlerPc .gone)
      | none => none
    else none
  | .setFetched now =>
    if c.handler.pc = .answering ∧ c.handler.binary = true ∧ c.Unlocked then
      some (c.setJob (Job.setFetched now))
    else none
  | .respond => if c.handler.pc = .answering then some (c.setHandlerPc .flushed) else none
  | .markDelivered now =>
    if c.handler.pc = .flushed ∧ c.Unlocked then
      some ((c.setJob (markDelivered c.handler.mode now)).setHandlerPc .gone)
    else none
  | .handlerEnds =>
    if c.handler.pc = .gone then none else some (c.cancelWatcher.setHandlerPc .gone)
  | .detect => if c.watcher = .polling then some { c with watcher := .locking } else none
  | .acquire => if c.watcher = .locking then some { c with watcher := .writing } else none
  | .watcherCommits now =>
    if c.watcher = .writing then
      some { c.setJob (Job.markAsyncWithHandover now) with watcher := .gone }
    else none
  | .watcherRollsBack => if c.watcher = .writing then some { c with watcher := .gone } else none
  | .dequeue => if c.worker = .queued then some { c with worker := .processing } else none
  | .work w now =>
    if c.worker = .processing ∧ c.Unlocked then some (c.setJob fun j => w.apply now j) else none
  | .resolve ok =>
    if c.worker = .processing ∧ (ok = true → c.job.status = .completed) then
      some { c with worker := .idle, future := some ok }
    else none
  | .scan =>
    if c.recovery = .pending then some { c with recovery := recoveryFor c.job.status } else none
  | .recover now => if c.Unlocked then recover now c else none
  | .fetch now => if c.Unlocked then some (c.setJob (Job.setFetched now)) else none

/-- Whether an operation of the dispatcher is a `write()` block. -/
def writes : dispatcher.Op → Bool
  | .setWebhookDeliveryStatus _ => true
  | .completeAttempt _ _ => true
  | .createAttempt _ _ => true
  | .setAttemptDelivering _ => true
  | _ => false

/-- The pass is over once it has returned or raised: `gather` keeps the
exception to itself. -/
def inFlight : dispatcher.Prog Unit → Option (dispatcher.Prog Unit)
  | .ret _ => none
  | .raise _ => none
  | p => some p

def next (sign : dispatcher.Signer) (c : Cell) : Act → Option Cell
  | .move m => move c m
  | .tick =>
    if c.dispatch.isNone ∧ c.job.WebhookCandidate then
      some { c with dispatch := inFlight (dispatcher.processOne sign c.job) }
    else none
  | .dispatch inp =>
    match c.dispatch with
    | some (.await op k) =>
      if writes op = true → c.Unlocked then
        let (answer, rows) := dispatcher.exec inp op c.rows
        some { c with rows := rows, dispatch := inFlight (k answer) }
      else none
    | _ => none
  | .dispatchRaises message =>
    match c.dispatch with
    | some (.await _ k) => some { c with dispatch := inFlight (k (.error (.other message))) }
    | _ => none

/-! ## What a move changes -/

/-- The row after a write that is no flag of the delivery: the flags stay, and
a terminal job stays as it is. -/
structure SameFlags (j j' : Job) : Prop where
  mode : j'.mode = j.mode
  delivered : j'.responseDelivered = j.responseDelivered
  handover : j'.webhookHandover = j.webhookHandover
  delivery_status : j'.webhookDeliveryStatus = j.webhookDeliveryStatus
  url : j'.webhookUrl = j.webhookUrl
  terminal : j.status.Terminal → j'.status = j.status ∧ j'.errorCode = j.errorCode

theorem sameFlags_refl (j : Job) : SameFlags j j :=
  ⟨rfl, rfl, rfl, rfl, rfl, fun _ => ⟨rfl, rfl⟩⟩

theorem sameFlags_setFetched (now : Nat) (j : Job) : SameFlags j (j.setFetched now) := by
  unfold Job.setFetched
  split
  · exact ⟨rfl, rfl, rfl, rfl, rfl, fun _ => ⟨rfl, rfl⟩⟩
  · exact sameFlags_refl j

theorem sameFlags_work (w : WorkerWrite) (now : Nat) (j : Job) : SameFlags j (w.apply now j) := by
  have hterm : j.status.Terminal → ∀ target f, transition j target f = j := by
    intro h target f
    rw [JobStatus.Terminal] at h
    simp [transition, h]
  cases w with
  | setRunning promptId clientId =>
    refine ⟨?_, ?_, ?_, ?_, ?_, fun h => by simp [WorkerWrite.apply, hterm h]⟩ <;>
      (simp only [WorkerWrite.apply, transition]; split <;> rfl)
  | setCompleted outputKeys result =>
    refine ⟨?_, ?_, ?_, ?_, ?_, fun h => by simp [WorkerWrite.apply, hterm h]⟩ <;>
      (simp only [WorkerWrite.apply, transition]; split <;> rfl)
  | setFailed errorCode errorMessage =>
    refine ⟨?_, ?_, ?_, ?_, ?_, fun h => by simp [WorkerWrite.apply, hterm h]⟩ <;>
      (simp only [WorkerWrite.apply, transition]; split <;> rfl)

/-- What the background task can do: each of its two UPDATEs has the mode in its
WHERE clause. -/
structure MarkDelivered (j j' : Job) : Prop where
  mode : j'.mode = j.mode
  status : j'.status = j.status
  delivery_status : j'.webhookDeliveryStatus = j.webhookDeliveryStatus
  url : j'.webhookUrl = j.webhookUrl
  kept : j.responseDelivered = true → j'.responseDelivered = true
  kept_handover : j.webhookHandover = true → j'.webhookHandover = true
  delivered : j'.responseDelivered = true → j.responseDelivered = true ∨ j.mode = .sync
  handover : j.mode = .sync → j'.webhookHandover = true →
    j'.responseDelivered = true ∨ j.webhookHandover = true

theorem markDelivered_spec (mode : JobMode) (now : Nat) (j : Job) :
    MarkDelivered j (markDelivered mode now j) := by
  cases mode <;> unfold markDelivered Job.markResponseDelivered Job.markInitialResponseDelivered <;>
    dsimp only <;> rcases hm : j.mode with _ | _ <;> constructor <;> simp [hm]
  exact Or.inr

theorem markDelivered_handover {mode : JobMode} {j : Job} (now : Nat) (h : j.mode = mode) :
    (markDelivered mode now j).webhookHandover = true := by
  subst h
  unfold markDelivered Job.markResponseDelivered Job.markInitialResponseDelivered
  rcases hm : j.mode <;> simp [hm]

/-- No move takes back a flag, revives a job or a handler, or touches what the
dispatcher writes. Only a handler that has flushed its response says so. -/
structure Grows (c c' : Cell) : Prop where
  gone : c.handler.pc = .gone → c'.handler.pc = .gone
  async : c.job.mode = .async → c'.job.mode = .async
  handover : c.job.webhookHandover = true → c'.job.webhookHandover = true
  delivered : c.job.responseDelivered = true → c'.job.responseDelivered = true
  terminal : c.job.status.Terminal → c'.job.status = c.job.status
  flushed : c'.job.responseDelivered = true →
    c.job.responseDelivered = true ∨ (c.job.mode = .sync ∧ c.handler.pc = .flushed)
  delivery_status : c'.job.webhookDeliveryStatus = c.job.webhookDeliveryStatus
  url : c'.job.webhookUrl = c.job.webhookUrl
  attempts : c'.rows.attempts = c.rows.attempts
  log : c'.rows.log = c.rows.log
  dispatch : c'.dispatch = c.dispatch

theorem grows_of_rows {c c' : Cell} (hrows : c'.rows = c.rows) (hdispatch : c'.dispatch = c.dispatch)
    (hgone : c.handler.pc = .gone → c'.handler.pc = .gone) : Grows c c' := by
  have hjob : c'.job = c.job := congrArg dispatcher.Rows.job hrows
  constructor <;> first | assumption | simp_all

theorem grows_write {c : Cell} {f : Job → Job} (hf : SameFlags c.job (f c.job)) :
    Grows c (c.setJob f) := by
  obtain ⟨hmode, hdelivered, hhandover, hstatus, hurl, hterm⟩ := hf
  exact ⟨id, fun h => hmode.trans h, fun h => hhandover.trans h, fun h => hdelivered.trans h,
    fun h => (hterm h).1, fun h => Or.inl (hdelivered ▸ h), hstatus, hurl, rfl, rfl, rfl⟩

theorem grows_markDelivered {c : Cell} (now : Nat) (hpc : c.handler.pc = .flushed) :
    Grows c ((c.setJob (markDelivered c.handler.mode now)).setHandlerPc .gone) := by
  have h := markDelivered_spec c.handler.mode now c.job
  exact ⟨fun _ => rfl, fun hm => h.mode.trans hm, h.kept_handover, h.kept, fun _ => h.status,
    fun hd => (h.delivered hd).imp_right fun hm => ⟨hm, hpc⟩, h.delivery_status, h.url, rfl, rfl,
    rfl⟩

theorem grows_recover {c c' : Cell} {now : Nat} (h : recover now c = some c') : Grows c c' := by
  unfold recover at h
  rcases hr : c.recovery <;> rw [hr] at h <;> dsimp only at h
  · cases h
  · split at h <;> cases h
    · rename_i hallowed
      refine ⟨id, id, id, id, fun hterm => ?_, Or.inl, rfl, rfl, rfl, rfl, rfl⟩
      rw [JobStatus.Terminal] at hterm
      rw [hterm] at hallowed
      cases hallowed
    · exact grows_of_rows rfl rfl id
  · cases h
    exact ⟨id, id, fun _ => rfl, id, fun _ => rfl, Or.inl, rfl, rfl, rfl, rfl, rfl⟩
  · cases h
    exact grows_of_rows rfl rfl id
  · cases h

theorem grows_cancel (c : Cell) {pc : HandlerPc} (hpc : c.handler.pc = .gone → pc = .gone) :
    Grows c (c.cancelWatcher.setHandlerPc pc) := by
  unfold Cell.cancelWatcher
  split <;> exact grows_of_rows rfl rfl hpc

theorem grows_move {c c' : Cell} {m : Move} (h : move c m = some c') : Grows c c' := by
  have hlive : ∀ {pc pc' : HandlerPc}, c.handler.pc = pc → pc ≠ .gone →
      c.handler.pc = .gone → pc' = .gone := fun h hne hgone => absurd (h ▸ hgone) hne
  cases m with
  | enqueue =>
    simp only [move, Option.ite_none_right_eq_some] at h
    obtain ⟨hpc, h⟩ := h
    split at h <;> cases h <;> exact grows_of_rows rfl rfl (hlive hpc (by decide))
  | receive =>
    simp only [move, Option.ite_none_right_eq_some] at h
    obtain ⟨hpc, h⟩ := h
    split at h <;> cases h <;> exact grows_cancel c (hlive hpc (by decide))
  | handlerEnds =>
    simp only [move, Option.ite_none_left_eq_some, Option.some.injEq] at h
    obtain ⟨-, rfl⟩ := h
    exact grows_cancel c fun _ => rfl
  | setFetched now =>
    simp only [move, Option.ite_none_right_eq_some, Option.some.injEq] at h
    obtain ⟨-, rfl⟩ := h
    exact grows_write (sameFlags_setFetched now c.job)
  | respond =>
    simp only [move, Option.ite_none_right_eq_some, Option.some.injEq] at h
    obtain ⟨hpc, rfl⟩ := h
    exact grows_of_rows rfl rfl (hlive hpc (by decide))
  | markDelivered now =>
    simp only [move, Option.ite_none_right_eq_some, Option.some.injEq] at h
    obtain ⟨⟨hpc, -⟩, rfl⟩ := h
    exact grows_markDelivered now hpc
  | watcherCommits now =>
    simp only [move, Option.ite_none_right_eq_some, Option.some.injEq] at h
    obtain ⟨-, rfl⟩ := h
    exact ⟨id, fun _ => rfl, fun _ => rfl, id, fun _ => rfl, Or.inl, rfl, rfl, rfl, rfl, rfl⟩
  | work w now =>
    simp only [move, Option.ite_none_right_eq_some, Option.some.injEq] at h
    obtain ⟨-, rfl⟩ := h
    exact grows_write (sameFlags_work w now c.job)
  | fetch now =>
    simp only [move, Option.ite_none_right_eq_some, Option.some.injEq] at h
    obtain ⟨-, rfl⟩ := h
    exact grows_write (sameFlags_setFetched now c.job)
  | recover now =>
    simp only [move, Option.ite_none_right_eq_some] at h
    exact grows_recover h.2
  | _ =>
    -- the other moves write no row
    simp only [move, Option.ite_none_right_eq_some, Option.some.injEq] at h
    obtain ⟨-, rfl⟩ := h
    exact grows_of_rows rfl rfl id

/-- An operation of the dispatcher writes nothing of the row but the delivery
status. -/
structure SameRow (j j' : Job) : Prop where
  mode : j'.mode = j.mode
  status : j'.status = j.status
  delivered : j'.responseDelivered = j.responseDelivered
  handover : j'.webhookHandover = j.webhookHandover
  error_code : j'.errorCode = j.errorCode
  url : j'.webhookUrl = j.webhookUrl

theorem sameRow_refl (j : Job) : SameRow j j := ⟨rfl, rfl, rfl, rfl, rfl, rfl⟩

theorem sameRow_exec (inp : dispatcher.Input) (op : dispatcher.Op) (rows : dispatcher.Rows) :
    SameRow rows.job (dispatcher.exec inp op rows).2.job := by
  cases op with
  | setWebhookDeliveryStatus status => exact ⟨rfl, rfl, rfl, rfl, rfl, rfl⟩
  | createAttempt attemptN retryAt =>
    simp only [dispatcher.exec]
    split <;> exact sameRow_refl rows.job
  | _ => exact sameRow_refl rows.job

/-! ## All the jobs -/

inductive Label
  | create (r : Submission) (binary : Bool) (id : String) (now : Nat)
  | at (i : Nat) (a : Act)
  | crash

/-- The service: a crash strikes every job, and every other step is about one. -/
def step (sign : dispatcher.Signer) (cells : List Cell) : Label → Option (List Cell)
  | .create r binary id now =>
    if cells.all (fun c => c.job.id ≠ id) then some (cells ++ [created r binary id now]) else none
  | .at i a =>
    match cells[i]? with
    | none => none
    | some c => (next sign c a).map fun c' => cells.set i c'
  | .crash => some (cells.map crash)

/-- What each step that a job takes part in must meet. -/
def Guarded (ok : Cell → Act → Prop) (mayCrash : Cell → Prop) (cells : List Cell) : Label → Prop
  | .create _ _ _ _ => True
  | .at i a => ∀ c, cells[i]? = some c → ok c a
  | .crash => ∀ c ∈ cells, mayCrash c

section Invariant

variable {sign : dispatcher.Signer} {ok : Cell → Act → Prop} {mayCrash I : Cell → Prop}

theorem cells_step (hcreated : ∀ r binary id now, I (created r binary id now))
    (hnext : ∀ c a c', I c → ok c a → next sign c a = some c' → I c')
    (hcrash : ∀ c, I c → mayCrash c → I (crash c))
    {cells cells' : List Cell} {l : Label} (hcells : ∀ c ∈ cells, I c)
    (hl : Guarded ok mayCrash cells l) (hstep : step sign cells l = some cells') :
    ∀ c ∈ cells', I c := by
  cases l with
  | create r binary id now =>
    simp only [step] at hstep
    split at hstep
    · cases hstep
      intro c hc
      rcases List.mem_append.mp hc with hc | hc
      · exact hcells c hc
      · rw [List.mem_singleton.mp hc]
        exact hcreated r binary id now
    · cases hstep
  | «at» i a =>
    simp only [step] at hstep
    split at hstep
    · cases hstep
    · rename_i c hi
      obtain ⟨c', hc', rfl⟩ := Option.map_eq_some_iff.mp hstep
      intro d hd
      rcases List.mem_or_eq_of_mem_set hd with hd | rfl
      · exact hcells d hd
      · exact hnext c a _ (hcells c (List.mem_of_getElem? hi)) (hl c hi) hc'
  | crash =>
    cases hstep
    intro c hc
    obtain ⟨d, hd, rfl⟩ := List.mem_map.mp hc
    exact hcrash d (hcells d hd) (hl d hd)

/-- An invariant of each job is an invariant of the service. -/
theorem cells_invariant (hcreated : ∀ r binary id now, I (created r binary id now))
    (hnext : ∀ c a c', I c → ok c a → next sign c a = some c' → I c')
    (hcrash : ∀ c, I c → mayCrash c → I (crash c)) {labels : List Label} {cells : List Cell}
    (hok : AllSteps (step sign) (Guarded ok mayCrash) [] labels)
    (hrun : exec (step sign) [] labels = some cells) : ∀ c ∈ cells, I c := by
  have hempty : ∀ c ∈ ([] : List Cell), I c := fun c hc => by cases hc
  have hstep : ∀ cells l cells', (∀ c ∈ cells, I c) → Guarded ok mayCrash cells l →
      step sign cells l = some cells' → ∀ c ∈ cells', I c :=
    fun _ _ _ => cells_step hcreated hnext hcrash
  exact invariant hstep hempty hok hrun

theorem cells_invariant_of_next (hcreated : ∀ r binary id now, I (created r binary id now))
    (hnext : ∀ c a c', I c → next sign c a = some c' → I c') (hcrash : ∀ c, I c → I (crash c))
    {labels : List Label} {cells : List Cell}
    (hrun : exec (step sign) [] labels = some cells) : ∀ c ∈ cells, I c := by
  have hempty : ∀ c ∈ ([] : List Cell), I c := fun c hc => by cases hc
  have hstep : ∀ cells l cells', (∀ c ∈ cells, I c) → step sign cells l = some cells' →
      ∀ c ∈ cells', I c := by
    intro cells l cells' hcells h
    have hl : Guarded (fun _ _ => True) (fun _ => True) cells l := by
      cases l <;> simp [Guarded]
    exact cells_step hcreated (fun c a c' hc _ => hnext c a c' hc) (fun c hc _ => hcrash c hc)
      hcells hl h
  exact invariant_of_next hstep hempty hrun

end Invariant

/-! ## A small service -/

def smallSign : dispatcher.Signer := fun _ _ secret => secret

def hookedSubmission (mode : JobMode) : Submission where
  artifact := .image
  modelName := "sdxl"
  raw := .obj []
  mode := mode
  webhookUrl := some "https://hooks.test/done"
  webhookHeaders := none

/-- The receiver answers with the status code. -/
def smallInput (now code : Nat) : dispatcher.Input where
  now := now
  allows := .ok true
  secret := some "s"
  uuid := "u"
  response := .ok ⟨code, ""⟩

/-- The client of a sync job leaves, and the job goes on as an async one. -/
def leftAlone : List Label :=
  [.create (hookedSubmission .sync) false "gen_1" 0] ++
    ([.enqueue, .dequeue, .work (.setRunning "p" "c") 1, .detect, .acquire, .watcherCommits 2,
      .work (.setCompleted [] ⟨[], 0, 0⟩) 3, .resolve true].map fun m => .at 0 (.move m))

/-- A pass of the dispatcher over the first job, up to `n` operations. -/
def onePass (n : Nat) (inp : dispatcher.Input) : List Label :=
  .at 0 .tick :: List.replicate n (.at 0 (.dispatch inp))

end image_gen.delivery

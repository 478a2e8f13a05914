-- Recovery after a restart (`app/queue/recovery.py`). It goes through one
-- scan of the table while the workers already take and finish what it puts on
-- the queue. No row that it has yet to fail is a worker's to write.
import ImageGen.Delivery

namespace image_gen.recovery

open image_gen.runs image_gen.job_store image_gen.delivery

/-! ## Recovery and the workers -/

inductive RecoveryError
  | store (e : StoreError)
  /-- `assert fetched is not None`. -/
  | assertion
  deriving DecidableEq

/-- Where `recover_jobs` stands, with the jobs that its loop has left. -/
inductive Pc
  | scanning
  | iterating (jobs : List Job)
  /-- `set_failed` has committed, and reads the row back. -/
  | readingBack (job : Job) (jobs : List Job)
  | handingOver (job : Job) (jobs : List Job)
  | returned (requeued failedRestart : Nat)
  | raised (e : RecoveryError)

/-- A task of `QueueWorker.run`. -/
inductive Consumer
  | waiting
  | serving (job : Job)
  | ended

def Consumer.job? : Consumer → Option Job
  | .serving job => some job
  | _ => none

structure State where
  store : Store
  pc : Pc
  requeued : Nat
  failedRestart : Nat
  /-- The head is the next item that `get` returns. -/
  queue : List Job
  workers : List Consumer
  /-- The table as the scan read it. -/
  boot : Store
  /-- Every item that was put, oldest first. -/
  put : List Job

def start (store : Store) (workers : Nat) : State where
  store := store
  pc := .scanning
  requeued := 0
  failedRestart := 0
  queue := []
  workers := List.replicate workers .waiting
  boot := store
  put := []

/-- The writes of the worker, all of them on its own job. -/
def write (jobId : String) : WorkerWrite → Write
  | .setRunning promptId clientId => .setRunning jobId promptId clientId
  | .setCompleted outputKeys result => .setCompleted jobId outputKeys result
  | .setFailed errorCode errorMessage => .setFailed jobId errorCode errorMessage

/-- `asyncio.Queue.full`. A `maxsize` of 0 is no bound. -/
def full (maxQueue : Nat) (queue : List Job) : Bool := 0 < maxQueue && maxQueue ≤ queue.length

/-- The next step of `recover_jobs`, if the queue does not block it. -/
def recover (maxQueue now : Nat) (s : State) : Option State :=
  match s.pc with
  | .scanning => some { s with pc := .iterating s.store.scanNonTerminal, boot := s.store }
  | .iterating [] => some { s with pc := .returned s.requeued s.failedRestart }
  | .iterating (job :: jobs) =>
    match job.status with
    | .running =>
      match s.store.setFailed job.id "service_restarted" "process restart mid-generation" now with
      | .error e => some { s with pc := .raised (.store e) }
      | .ok store => some { s with store := store, pc := .readingBack job jobs }
    | .queued =>
      if full maxQueue s.queue then none
      else some { s with queue := s.queue ++ [job], put := s.put ++ [job],
                         requeued := s.requeued + 1, pc := .iterating jobs }
    | _ => some { s with pc := .iterating jobs }
  | .readingBack job jobs =>
    match s.store.getById job.id with
    | none => some { s with pc := .raised .assertion }
    | some _ => some { s with pc := .handingOver job jobs }
  | .handingOver job jobs =>
    some { s with store := s.store.update job.id (Job.markHandover now),
                  failedRestart := s.failedRestart + 1, pc := .iterating jobs }
  | .returned _ _ => none
  | .raised _ => none

inductive Label
  | recover (now : Nat)
  /-- `item = await self._queue.get()` of a worker. -/
  | take (i : Nat)
  /-- A store write of `_process_one`. One that is not allowed raises there. -/
  | work (i : Nat) (w : WorkerWrite) (now : Nat)
  | finish (i : Nat)
  /-- `run` ends: it is cancelled, or `_process_one` raises. -/
  | ends (i : Nat)
  /-- The dispatcher writes a delivery status. -/
  | deliver (id : String) (status : WebhookDeliveryStatus) (now : Nat)

def setWorker (s : State) (i : Nat) (c : Consumer) : State :=
  { s with workers := s.workers.set i c }

def next (maxQueue : Nat) (s : State) : Label → Option State
  | .recover now => recover maxQueue now s
  | .take i =>
    match s.workers[i]?, s.queue with
    | some .waiting, job :: queue => some { setWorker s i (.serving job) with queue := queue }
    | _, _ => none
  | .work i w now =>
    match s.workers[i]? with
    | some (.serving job) =>
      match (write job.id w).apply s.store now with
      | .ok store => some { s with store := store }
      | .error _ => some s
    | _ => none
  | .finish i =>
    match s.workers[i]? with
    | some (.serving _) => some (setWorker s i .waiting)
    | _ => none
  | .ends i =>
    match s.workers[i]? with
    | some .ended => none
    | some _ => some (setWorker s i .ended)
    | none => none
  | .deliver id status now =>
    some { s with store := s.store.update id (Job.setWebhookDeliveryStatus status now) }

/-! ## The scan -/

/-- The row that recovery leaves of a job that was running. -/
def Restarted (row : Job) : Prop :=
  row.status = .failed ∧ row.errorCode = some "service_restarted" ∧ row.webhookHandover = true

def queuedOf (jobs : List Job) : List Job := jobs.filter (fun job => job.status = .queued)

def runningOf (jobs : List Job) : List Job := jobs.filter (fun job => job.status = .running)

theorem mem_scanNonTerminal {s : Store} {job : Job} :
    job ∈ s.scanNonTerminal ↔ job ∈ s ∧ ¬ job.status.Terminal := by
  unfold Store.scanNonTerminal
  simp [List.mem_mergeSort]

theorem scan_sorted (s : Store) :
    s.scanNonTerminal.Pairwise (fun a b => a.createdAt ≤ b.createdAt) := by
  unfold Store.scanNonTerminal
  let older (a b : Job) : Bool := decide (a.createdAt ≤ b.createdAt)
  have htrans : ∀ a b c : Job, older a b → older b c → older a c := by
    intro a b c hab hbc
    simp only [older, decide_eq_true_eq] at *
    omega
  have htotal : ∀ a b : Job, older a b || older b a := by
    intro a b
    simp only [older, Bool.or_eq_true, decide_eq_true_eq]
    omega
  have h := List.pairwise_mergeSort htrans htotal (s.filter (fun j => !decide j.status.Terminal))
  simpa [older] using h

/-- The scan reads each row once. -/
theorem scan_keyed {s : Store} (hs : s.Keyed) : Store.Keyed s.scanNonTerminal := by
  have hperm := List.mergeSort_perm (s.filter (fun j => !decide j.status.Terminal))
    (fun a b => decide (a.createdAt ≤ b.createdAt))
  unfold Store.Keyed at hs ⊢
  unfold Store.scanNonTerminal
  rw [(hperm.map _).nodup_iff]
  exact hs.sublist (List.filter_sublist.map _)

theorem scan_length_le (s : Store) : s.scanNonTerminal.length ≤ s.length := by
  unfold Store.scanNonTerminal
  rw [List.length_mergeSort]
  exact List.length_filter_le _ _

/-! ## What a step keeps of a row -/

/-- The row stands, with its status and its error, and stays handed over. -/
def Keeps (s t : Store) (id : String) : Prop :=
  ∀ row, s.getById id = some row → ∃ row', t.getById id = some row' ∧
    row'.status = row.status ∧ row'.errorCode = row.errorCode ∧
    (row.webhookHandover = true → row'.webhookHandover = true)

theorem keeps_of_eq {s t : Store} {id : String} (h : t.getById id = s.getById id) :
    Keeps s t id := fun row hrow => ⟨row, h.trans hrow, rfl, rfl, fun hh => hh⟩

theorem keeps_update (s : Store) (id id' : String) {f : Job → Job} (hf : ∀ j, (f j).id = j.id)
    (hstatus : ∀ j, (f j).status = j.status) (hcode : ∀ j, (f j).errorCode = j.errorCode)
    (hhandover : ∀ j, j.webhookHandover = true → (f j).webhookHandover = true) :
    Keeps s (s.update id f) id' := by
  intro row hrow
  rw [Store.getById_update s id id' hf, hrow]
  simp only [Option.map_some, Option.some.injEq, exists_eq_left']
  by_cases hid : row.id = id
  · rw [if_pos hid]
    exact ⟨hstatus row, hcode row, hhandover row⟩
  · rw [if_neg hid]
    exact ⟨rfl, rfl, fun h => h⟩

theorem target_write (id : String) (w : WorkerWrite) : (write id w).target = id := by
  cases w <;> rfl

/-- A worker writes the row of its own job. -/
theorem write_ok {s t : Store} {id : String} {w : WorkerWrite} {now : Nat}
    (h : (write id w).apply s now = .ok t) : t = s.update id ((write id w).change now) := by
  have ht := Write.apply_ok h
  rw [target_write] at ht
  exact ht

/-! ## The invariant -/

/-- The job that recovery has failed and not yet handed over. -/
def Pc.current : Pc → List Job
  | .readingBack job _ => [job]
  | .handingOver job _ => [job]
  | _ => []

def Pc.later : Pc → List Job
  | .iterating jobs => jobs
  | .readingBack _ jobs => jobs
  | .handingOver _ jobs => jobs
  | _ => []

def Row (s : Store) (id : String) (P : Job → Prop) : Prop := ∃ row, s.getById id = some row ∧ P row

/-- After the scan, with the jobs that the loop is done with. -/
structure Iterated (s : State) (done : List Job) : Prop where
  scanned : s.pc ≠ .scanning
  boot : s.boot.Keyed
  scan : s.boot.scanNonTerminal = done ++ (s.pc.current ++ s.pc.later)
  put : s.put = queuedOf done
  requeued : s.requeued = (queuedOf done).length
  failed_restart : s.failedRestart = (runningOf done).length
  stats : ∀ r f, s.pc = .returned r f → r = s.requeued ∧ f = s.failedRestart
  restarted : ∀ job ∈ runningOf done, Row s.store job.id Restarted
  current : ∀ job ∈ s.pc.current, job.status = .running ∧
    Row s.store job.id (fun row => row.status = .failed ∧ row.errorCode = some "service_restarted")
  later : ∀ job ∈ runningOf s.pc.later, Row s.store job.id (fun row => row.status = .running)

inductive Stage (s : State) : Prop
  | fresh (pc : s.pc = .scanning) (keyed : s.store.Keyed) (put : s.put = [])
      (requeued : s.requeued = 0) (failedRestart : s.failedRestart = 0)
  | iterated (done : List Job) (h : Iterated s done)

/-- The queue and the workers hold nothing but what recovery has put. -/
structure Inv (s : State) : Prop where
  not_raised : ∀ e, s.pc ≠ .raised e
  queue : s.queue <:+ s.put
  serving : ∀ job, Consumer.serving job ∈ s.workers → job ∈ s.put
  stage : Stage s

theorem mem_queuedOf {jobs : List Job} {job : Job} :
    job ∈ queuedOf jobs ↔ job ∈ jobs ∧ job.status = .queued := by
  simp [queuedOf]

theorem mem_runningOf {jobs : List Job} {job : Job} :
    job ∈ runningOf jobs ↔ job ∈ jobs ∧ job.status = .running := by
  simp [runningOf]

theorem inv_start {store : Store} (hs : store.Keyed) (n : Nat) : Inv (start store n) where
  not_raised _ h := by cases h
  queue := List.suffix_refl []
  serving job h := by
    have := List.eq_of_mem_replicate h
    cases this
  stage := .fresh rfl hs rfl rfl rfl

/-- Every job in the loop is one of the scan. -/
theorem Iterated.mem_scan {s : State} {done : List Job} (h : Iterated s done) {job : Job}
    (hjob : job ∈ done ∨ job ∈ s.pc.current ∨ job ∈ s.pc.later) :
    job ∈ s.boot.scanNonTerminal := by
  rw [h.scan]
  simpa using hjob

/-- What recovery has put is no job that it fails. -/
theorem Iterated.put_ne {s : State} {done : List Job} (h : Iterated s done) {job job' : Job}
    (hput : job ∈ s.put) (hscan : job' ∈ s.boot.scanNonTerminal) (hrun : job'.status = .running) :
    job'.id ≠ job.id := by
  intro hid
  rw [h.put, mem_queuedOf] at hput
  have heq := List.inj_on_of_nodup_map (scan_keyed h.boot) hscan (h.mem_scan (Or.inl hput.1)) hid
  rw [heq, hput.2] at hrun
  cases hrun

theorem row_of_keeps {s t : Store} {id : String} {P : Job → Prop} (hkeeps : Keeps s t id)
    (hP : ∀ row row' : Job, row'.status = row.status → row'.errorCode = row.errorCode →
      (row.webhookHandover = true → row'.webhookHandover = true) → P row → P row')
    (h : Row s id P) : Row t id P := by
  obtain ⟨row, hrow, hp⟩ := h
  obtain ⟨row', hrow', hstatus, hcode, hhandover⟩ := hkeeps row hrow
  exact ⟨row', hrow', hP row row' hstatus hcode hhandover hp⟩

theorem restarted_of_keeps {s t : Store} {id : String} (hkeeps : Keeps s t id)
    (h : Row s id Restarted) : Row t id Restarted := by
  apply row_of_keeps hkeeps _ h
  intro row row' hstatus hcode hhandover hrow
  exact ⟨hstatus.trans hrow.1, hcode.trans hrow.2.1, hhandover hrow.2.2⟩

theorem running_of_keeps {s t : Store} {id : String} (hkeeps : Keeps s t id)
    (h : Row s id (fun row => row.status = .running)) :
    Row t id (fun row => row.status = .running) := by
  apply row_of_keeps hkeeps _ h
  intro row row' hstatus _ _ hrow
  exact hstatus.trans hrow

theorem failed_of_keeps {s t : Store} {id : String} (hkeeps : Keeps s t id)
    (h : Row s id (fun row => row.status = .failed ∧ row.errorCode = some "service_restarted")) :
    Row t id (fun row => row.status = .failed ∧ row.errorCode = some "service_restarted") := by
  apply row_of_keeps hkeeps _ h
  intro row row' hstatus hcode _ hrow
  exact ⟨hstatus.trans hrow.1, hcode.trans hrow.2⟩

/-- A write that keeps the rows that recovery fails keeps the invariant. -/
theorem Iterated.of_store {s : State} {done : List Job} {store : Store} (h : Iterated s done)
    (hkeeps : ∀ job ∈ s.boot.scanNonTerminal, job.status = .running →
      Keeps s.store store job.id) : Iterated { s with store := store } done := by
  refine ⟨h.scanned, h.boot, h.scan, h.put, h.requeued, h.failed_restart, h.stats,
    fun job hjob => ?_, fun job hjob => ?_, fun job hjob => ?_⟩
  · have hmem := mem_runningOf.mp hjob
    exact restarted_of_keeps (hkeeps job (h.mem_scan (Or.inl hmem.1)) hmem.2) (h.restarted job hjob)
  · obtain ⟨hrun, hrow⟩ := h.current job hjob
    exact ⟨hrun, failed_of_keeps (hkeeps job (h.mem_scan (Or.inr (Or.inl hjob))) hrun) hrow⟩
  · have hmem := mem_runningOf.mp hjob
    exact running_of_keeps (hkeeps job (h.mem_scan (Or.inr (Or.inr hmem.1))) hmem.2)
      (h.later job hjob)

/-! ## The steps of recovery -/

@[simp] theorem queuedOf_append (as bs : List Job) :
    queuedOf (as ++ bs) = queuedOf as ++ queuedOf bs := List.filter_append _ _

@[simp] theorem runningOf_append (as bs : List Job) :
    runningOf (as ++ bs) = runningOf as ++ runningOf bs := List.filter_append _ _

theorem queuedOf_singleton {job : Job} (h : job.status ≠ .queued) : queuedOf [job] = [] := by
  simp [queuedOf, h]

theorem runningOf_singleton {job : Job} (h : job.status ≠ .running) : runningOf [job] = [] := by
  simp [runningOf, h]

theorem iterated_scan {s : State} (hs : s.store.Keyed) (hput : s.put = []) (hrequeued : s.requeued = 0)
    (hfailed : s.failedRestart = 0) :
    Iterated { s with pc := .iterating s.store.scanNonTerminal, boot := s.store } [] where
  scanned h := by cases h
  boot := hs
  scan := rfl
  put := hput
  requeued := hrequeued
  failed_restart := hfailed
  stats r f h := by cases h
  restarted job h := by cases h
  current job h := by cases h
  later job h := by
    obtain ⟨hmem, hrun⟩ := mem_runningOf.mp h
    exact ⟨job, Store.getById_of_mem hs (mem_scanNonTerminal.mp hmem).1, hrun⟩

/-- Nobody has written the row since the scan, so the transition is allowed. -/
theorem iterated_fail {s : State} {done jobs : List Job} {job : Job} (now : Nat)
    (h : Iterated s done) (hpc : s.pc = .iterating (job :: jobs)) (hrun : job.status = .running) :
    ∃ store, s.store.setFailed job.id "service_restarted" "process restart mid-generation" now =
        .ok store ∧
      Iterated { s with store := store, pc := .readingBack job jobs } done := by
  have hscan := h.scan
  have hlater := h.later
  simp only [hpc, Pc.current, Pc.later, List.nil_append] at hscan hlater
  obtain ⟨row, hrow, hstatus⟩ := hlater job (mem_runningOf.mpr ⟨List.mem_cons_self, hrun⟩)
  have hstands : (s.store.getById job.id).map (·.status) = some .running := by
    rw [hrow]
    simp [hstatus]
  have hallowed : JobStatus.failed ∈ allowedTransitions .running := by decide
  have hok := Store.transition_allowed
    (Job.setFailed "service_restarted" "process restart mid-generation" now) hstands hallowed
  have hids : Store.Keyed (done ++ job :: jobs) := hscan ▸ scan_keyed h.boot
  have hne : ∀ job' ∈ done ++ jobs, job'.id ≠ job.id := by
    unfold Store.Keyed at hids
    rw [List.map_append, List.map_cons, List.nodup_middle, List.nodup_cons] at hids
    intro job' hjob' hid
    apply hids.1
    rw [← hid, ← List.map_append]
    exact List.mem_map_of_mem hjob'
  have hkeeps : ∀ job' ∈ done ++ jobs, Keeps s.store (s.store.update job.id
      (Job.setFailed "service_restarted" "process restart mid-generation" now)) job'.id :=
    fun job' hjob' => keeps_of_eq (Store.getById_update_ne s.store (fun _ => rfl) (hne job' hjob'))
  refine ⟨_, hok, ?_⟩
  refine ⟨(by intro hp; cases hp), h.boot, hscan, h.put, h.requeued, h.failed_restart,
    (by intro r f hp; cases hp), fun job' hjob' => ?_, fun job' hjob' => ?_, fun job' hjob' => ?_⟩
  · have hmem := (mem_runningOf.mp hjob').1
    exact restarted_of_keeps (hkeeps job' (List.mem_append_left jobs hmem)) (h.restarted job' hjob')
  · rw [List.mem_singleton.mp hjob']
    refine ⟨hrun, Job.setFailed "service_restarted" "process restart mid-generation" now row, ?_,
      rfl, rfl⟩
    have hself := Store.getById_update_self s.store job.id
      (f := Job.setFailed "service_restarted" "process restart mid-generation" now) (fun _ => rfl)
    rw [hrow] at hself
    exact hself
  · obtain ⟨hmem, hrun'⟩ := mem_runningOf.mp hjob'
    exact running_of_keeps (hkeeps job' (List.mem_append_right done hmem))
      (hlater job' (mem_runningOf.mpr ⟨List.mem_cons_of_mem job hmem, hrun'⟩))

theorem iterated_put {s : State} {done jobs : List Job} {job : Job} (h : Iterated s done)
    (hpc : s.pc = .iterating (job :: jobs)) (hqueued : job.status = .queued) :
    Iterated { s with queue := s.queue ++ [job], put := s.put ++ [job],
                      requeued := s.requeued + 1, pc := .iterating jobs } (done ++ [job]) := by
  have hscan := h.scan
  have hlater := h.later
  simp only [hpc, Pc.current, Pc.later, List.nil_append] at hscan hlater
  have hone : queuedOf [job] = [job] := by simp [queuedOf, hqueued]
  have hnone : runningOf [job] = [] := runningOf_singleton (by rw [hqueued]; decide)
  refine ⟨(by intro hp; cases hp), h.boot, ?_, ?_, ?_, ?_, (by intro r f hp; cases hp),
    fun job' hjob' => ?_, (by intro job' hjob'; cases hjob'), fun job' hjob' => ?_⟩
  · simpa [Pc.current, Pc.later] using hscan
  · rw [queuedOf_append, hone, ← h.put]
  · rw [queuedOf_append, hone, List.length_append, ← h.requeued]
    rfl
  · rw [runningOf_append, hnone, List.append_nil]
    exact h.failed_restart
  · rw [runningOf_append, hnone, List.append_nil] at hjob'
    exact h.restarted job' hjob'
  · obtain ⟨hmem, hrun⟩ := mem_runningOf.mp hjob'
    exact hlater job' (mem_runningOf.mpr ⟨List.mem_cons_of_mem job hmem, hrun⟩)

theorem iterated_handOver {s : State} {done jobs : List Job} {job : Job} (now : Nat)
    (h : Iterated s done) (hpc : s.pc = .handingOver job jobs) :
    Iterated { s with store := s.store.update job.id (Job.markHandover now),
                      failedRestart := s.failedRestart + 1, pc := .iterating jobs }
      (done ++ [job]) := by
  have hscan := h.scan
  have hlater := h.later
  have hcurrent := h.current
  simp only [hpc, Pc.current, Pc.later, List.mem_singleton, forall_eq] at hscan hlater hcurrent
  obtain ⟨hrun, row, hrow, hstatus, hcode⟩ := hcurrent
  have hone : runningOf [job] = [job] := by simp [runningOf, hrun]
  have hnone : queuedOf [job] = [] := queuedOf_singleton (by rw [hrun]; decide)
  have hkeeps : ∀ id, Keeps s.store (s.store.update job.id (Job.markHandover now)) id := fun id =>
    keeps_update s.store job.id id (fun _ => rfl) (fun _ => rfl) (fun _ => rfl) fun _ _ => rfl
  refine ⟨(by intro hp; cases hp), h.boot, ?_, ?_, ?_, ?_, (by intro r f hp; cases hp),
    fun job' hjob' => ?_, (by intro job' hjob'; cases hjob'), fun job' hjob' => ?_⟩
  · simpa [Pc.current, Pc.later] using hscan
  · rw [queuedOf_append, hnone, List.append_nil]
    exact h.put
  · rw [queuedOf_append, hnone, List.append_nil]
    exact h.requeued
  · rw [runningOf_append, hone, List.length_append, ← h.failed_restart]
    rfl
  · rw [runningOf_append, hone, List.mem_append, List.mem_singleton] at hjob'
    rcases hjob' with hjob' | rfl
    · exact restarted_of_keeps (hkeeps job'.id) (h.restarted job' hjob')
    · have hself := Store.getById_update_self s.store job'.id (f := Job.markHandover now)
        (fun _ => rfl)
      rw [hrow] at hself
      exact ⟨Job.markHandover now row, hself, hstatus, hcode, rfl⟩
  · exact running_of_keeps (hkeeps job'.id) (hlater job' hjob')

theorem iterated_readBack {s : State} {done jobs : List Job} {job : Job} (h : Iterated s done)
    (hpc : s.pc = .readingBack job jobs) :
    Iterated { s with pc := .handingOver job jobs } done := by
  have hscan := h.scan
  have hcurrent := h.current
  have hlater := h.later
  rw [hpc] at hscan hcurrent hlater
  exact ⟨nofun, h.boot, hscan, h.put, h.requeued, h.failed_restart, nofun, h.restarted, hcurrent,
    hlater⟩

theorem iterated_return {s : State} {done : List Job} (h : Iterated s done)
    (hpc : s.pc = .iterating []) :
    Iterated { s with pc := .returned s.requeued s.failedRestart } done := by
  have hscan := h.scan
  simp only [hpc, Pc.current, Pc.later] at hscan
  refine ⟨nofun, h.boot, ?_, h.put, h.requeued, h.failed_restart, fun r f hreturned => ?_,
    h.restarted, fun job hjob => ?_, fun job hjob => ?_⟩
  · simpa only [Pc.current, Pc.later] using hscan
  · simp only [Pc.returned.injEq] at hreturned
    exact ⟨hreturned.1.symm, hreturned.2.symm⟩
  · cases hjob
  · simp [Pc.later, runningOf] at hjob

/-- The status of a job of the scan. -/
theorem Iterated.active {s : State} {done : List Job} (h : Iterated s done) {job : Job}
    (hjob : job ∈ s.pc.later) : job.status = .running ∨ job.status = .queued := by
  have hactive := (mem_scanNonTerminal.mp (h.mem_scan (Or.inr (Or.inr hjob)))).2
  rw [terminal_iff] at hactive
  by_cases hq : job.status = .queued
  · exact Or.inr hq
  · by_cases hr : job.status = .running
    · exact Or.inl hr
    · exact absurd ⟨hq, hr⟩ hactive

theorem stage_recover {maxQueue now : Nat} {s s' : State} (hs : Inv s)
    (h : recover maxQueue now s = some s') : Stage s' ∧ ∀ e, s'.pc ≠ .raised e := by
  obtain ⟨hnot, -, -, hstage⟩ := hs
  cases hstage with
  | fresh pc keyed put requeued failedRestart =>
    simp only [recover, pc, Option.some.injEq] at h
    subst h
    exact ⟨.iterated [] (iterated_scan keyed put requeued failedRestart), nofun⟩
  | iterated done hit =>
    unfold recover at h
    rcases hpc : s.pc with _ | jobs | ⟨job, jobs⟩ | ⟨job, jobs⟩ | ⟨r, f⟩ | e
    · exact absurd hpc hit.scanned
    · rcases jobs with _ | ⟨job, jobs⟩
      · simp only [hpc, Option.some.injEq] at h
        subst h
        exact ⟨.iterated done (iterated_return hit hpc), nofun⟩
      · simp only [hpc] at h
        have hactive : job ∈ s.pc.later := by
          rw [hpc]
          exact List.mem_cons_self
        rcases hit.active hactive with hrun | hqueued
        · obtain ⟨store, hok, hit'⟩ := iterated_fail now hit hpc hrun
          simp only [hrun, hok, Option.some.injEq] at h
          subst h
          exact ⟨.iterated done hit', nofun⟩
        · simp only [hqueued, Option.ite_none_left_eq_some, Option.some.injEq] at h
          obtain ⟨-, rfl⟩ := h
          exact ⟨.iterated _ (iterated_put hit hpc hqueued), nofun⟩
    · obtain ⟨hrun, row, hrow, -⟩ := hit.current job (by rw [hpc]; exact List.mem_singleton.mpr rfl)
      simp only [hpc, hrow, Option.some.injEq] at h
      subst h
      exact ⟨.iterated done (iterated_readBack hit hpc), nofun⟩
    · simp only [hpc, Option.some.injEq] at h
      subst h
      exact ⟨.iterated _ (iterated_handOver now hit hpc), nofun⟩
    · simp only [hpc] at h
      cases h
    · exact absurd hpc (hnot e)

/-- What is put stays in order, and stays put. -/
theorem queue_recover {maxQueue now : Nat} {s s' : State} (hqueue : s.queue <:+ s.put)
    (h : recover maxQueue now s = some s') :
    s'.queue <:+ s'.put ∧ (∀ job ∈ s.put, job ∈ s'.put) ∧ s'.workers = s.workers := by
  unfold recover at h
  split at h
  · cases h
    exact ⟨hqueue, fun _ hj => hj, rfl⟩
  · cases h
    exact ⟨hqueue, fun _ hj => hj, rfl⟩
  · rename_i job jobs hpc
    split at h
    · split at h <;> cases h <;> exact ⟨hqueue, fun _ hj => hj, rfl⟩
    · split at h
      · cases h
      · cases h
        obtain ⟨taken, htaken⟩ := hqueue
        refine ⟨⟨taken, ?_⟩, fun j hj => List.mem_append_left [job] hj, rfl⟩
        rw [← htaken, List.append_assoc]
    · cases h
      exact ⟨hqueue, fun _ hj => hj, rfl⟩
  · split at h <;> cases h <;> exact ⟨hqueue, fun _ hj => hj, rfl⟩
  · cases h
    exact ⟨hqueue, fun _ hj => hj, rfl⟩
  · cases h
  · cases h

/-! ## The other steps -/

/-- A step that writes no row and is not of recovery. -/
theorem stage_same {s s' : State} (h : Stage s) (hstore : s'.store = s.store) (hpc : s'.pc = s.pc)
    (hboot : s'.boot = s.boot) (hput : s'.put = s.put) (hrequeued : s'.requeued = s.requeued)
    (hfailed : s'.failedRestart = s.failedRestart) : Stage s' := by
  cases h with
  | fresh pc keyed put requeued failedRestart =>
    exact .fresh (hpc.trans pc) (hstore ▸ keyed) (hput.trans put) (hrequeued.trans requeued)
      (hfailed.trans failedRestart)
  | iterated done hit =>
    obtain ⟨g1, g2, g3, g4, g5, g6, g7, g8, g9, g10⟩ := hit
    refine .iterated done ⟨?_, ?_, ?_, ?_, ?_, ?_, ?_, ?_, ?_, ?_⟩ <;>
      simp only [hstore, hpc, hboot, hput, hrequeued, hfailed] <;> assumption

theorem mem_setWorker {s : State} {i : Nat} {c : Consumer} {job : Job}
    (h : Consumer.serving job ∈ (setWorker s i c).workers) :
    Consumer.serving job ∈ s.workers ∨ c = .serving job :=
  (List.mem_or_eq_of_mem_set h).imp_right Eq.symm

theorem stage_deliver {s : State} (id : String) (status : WebhookDeliveryStatus) (now : Nat)
    (h : Stage s) :
    Stage { s with store := s.store.update id (Job.setWebhookDeliveryStatus status now) } := by
  cases h with
  | fresh pc keyed put requeued failedRestart =>
    exact .fresh pc (Store.keyed_update keyed id fun _ => rfl) put requeued failedRestart
  | iterated done hit =>
    refine .iterated done (hit.of_store fun job _ _ => ?_)
    exact keeps_update s.store id job.id (fun _ => rfl) (fun _ => rfl) (fun _ => rfl) fun _ h => h

theorem stage_work {s : State} {job : Job} {w : WorkerWrite} {now : Nat} {store : Store}
    (h : Stage s) (hput : job ∈ s.put) (hw : (write job.id w).apply s.store now = .ok store) :
    Stage { s with store := store } := by
  cases h with
  | fresh pc keyed put requeued failedRestart =>
    rw [put] at hput
    cases hput
  | iterated done hit =>
    rw [write_ok hw]
    refine .iterated done (hit.of_store fun job' hscan hrun => keeps_of_eq ?_)
    exact Store.getById_update_ne s.store (Write.change_id now _) (hit.put_ne hput hscan hrun)

theorem inv_next {maxQueue : Nat} {s s' : State} {l : Label} (hs : Inv s)
    (h : next maxQueue s l = some s') : Inv s' := by
  cases l with
  | recover now =>
    obtain ⟨hqueue, hkept, hworkers⟩ := queue_recover hs.queue h
    obtain ⟨hstage, hnot⟩ := stage_recover hs h
    refine ⟨hnot, hqueue, fun job hjob => hkept job (hs.serving job ?_), hstage⟩
    rw [← hworkers]
    exact hjob
  | take i =>
    simp only [next] at h
    split at h
    · rename_i job queue hworker hqueue
      cases h
      have hsuffix := hs.queue
      rw [hqueue] at hsuffix
      refine ⟨hs.not_raised, (List.suffix_cons job queue).trans hsuffix, fun job' hjob' => ?_,
        stage_same hs.stage rfl rfl rfl rfl rfl rfl⟩
      rcases mem_setWorker hjob' with hold | heq
      · exact hs.serving job' hold
      · cases heq
        exact hsuffix.subset List.mem_cons_self
    · cases h
  | work i w now =>
    simp only [next] at h
    split at h
    · rename_i job hworker
      split at h
      · rename_i store hstore
        cases h
        have hput := hs.serving job (List.mem_of_getElem? hworker)
        exact ⟨hs.not_raised, hs.queue, hs.serving, stage_work hs.stage hput hstore⟩
      · cases h
        exact hs
    · cases h
  | finish i =>
    simp only [next] at h
    split at h
    · cases h
      refine ⟨hs.not_raised, hs.queue, fun job hjob => ?_,
        stage_same hs.stage rfl rfl rfl rfl rfl rfl⟩
      rcases mem_setWorker hjob with hold | heq
      · exact hs.serving job hold
      · cases heq
    · cases h
  | ends i =>
    simp only [next] at h
    split at h
    · cases h
    · cases h
      refine ⟨hs.not_raised, hs.queue, fun job hjob => ?_,
        stage_same hs.stage rfl rfl rfl rfl rfl rfl⟩
      rcases mem_setWorker hjob with hold | heq
      · exact hs.serving job hold
      · cases heq
    · cases h
  | deliver id status now =>
    cases h
    exact ⟨hs.not_raised, hs.queue, hs.serving, stage_deliver id status now hs.stage⟩

/-- Recovery writes the rows that its scan found running, and no other. -/
theorem recover_changes {maxQueue now : Nat} {s s' : State} {id : String} (hs : Inv s)
    (h : recover maxQueue now s = some s')
    (hchanged : s'.store.getById id ≠ s.store.getById id) :
    ∃ job ∈ s.boot, job.id = id ∧ job.status = .running := by
  have hmem : ∀ done, Iterated s done → ∀ job, job ∈ s.pc.current ∨ job ∈ s.pc.later →
      job ∈ s.boot :=
    fun done hit job hjob => (mem_scanNonTerminal.mp (hit.mem_scan (Or.inr hjob))).1
  unfold recover at h
  split at h
  · cases h
    exact absurd rfl hchanged
  · cases h
    exact absurd rfl hchanged
  · rename_i job jobs hpc
    split at h
    · rename_i hrun
      split at h <;> cases h
      · exact absurd rfl hchanged
      · rename_i store hok
        obtain ⟨-, -, -, rfl⟩ := Store.transition_ok
          (f := Job.setFailed "service_restarted" "process restart mid-generation" now) hok
        by_cases hid : id = job.id
        · rcases hs.stage with ⟨hscanning, -, -, -, -⟩ | ⟨done, hit⟩
          · rw [hscanning] at hpc
            cases hpc
          · refine ⟨job, hmem done hit job (Or.inr ?_), hid.symm, hrun⟩
            rw [hpc]
            exact List.mem_cons_self
        · exact absurd (Store.getById_update_ne s.store (f := Job.setFailed "service_restarted"
            "process restart mid-generation" now) (fun _ => rfl) hid) hchanged
    · split at h <;> cases h
      exact absurd rfl hchanged
    · cases h
      exact absurd rfl hchanged
  · split at h <;> cases h <;> exact absurd rfl hchanged
  · rename_i job jobs hpc
    cases h
    by_cases hid : id = job.id
    · rcases hs.stage with ⟨hscanning, -, -, -, -⟩ | ⟨done, hit⟩
      · rw [hscanning] at hpc
        cases hpc
      · have hjob : job ∈ s.pc.current := by
          rw [hpc]
          exact List.mem_singleton.mpr rfl
        exact ⟨job, hmem done hit job (Or.inl hjob), hid.symm, (hit.current job hjob).1⟩
    · exact absurd (Store.getById_update_ne s.store (f := Job.markHandover now) (fun _ => rfl) hid)
        hchanged
  · cases h
  · cases h

/-! ## No deadlock -/

/-- The steps of recovery, and those of a worker that make room. -/
def Label.moves : Label → Bool
  | .recover _ => true
  | .take _ => true
  | .finish _ => true
  | _ => false

def Pc.rank (rows : Nat) : Pc → Nat
  | .scanning => 3 * rows + 2
  | .iterating jobs => 3 * jobs.length + 1
  | .readingBack _ jobs => 3 * jobs.length + 3
  | .handingOver _ jobs => 3 * jobs.length + 2
  | .returned _ _ => 0
  | .raised _ => 0

def Consumer.busy : Consumer → Bool
  | .serving _ => true
  | _ => false

/-- An item counts three times in the loop, twice on the queue, and once while
it is served. -/
def rank (s : State) : Nat :=
  s.pc.rank s.store.length + 2 * s.queue.length + s.workers.countP Consumer.busy

theorem rank_recover {maxQueue now : Nat} {s s' : State} (h : recover maxQueue now s = some s') :
    rank s' + 1 ≤ rank s := by
  unfold recover at h
  unfold rank
  split at h
  · rename_i hpc
    cases h
    have := scan_length_le s.store
    simp only [hpc, Pc.rank]
    omega
  · rename_i hpc
    cases h
    simp only [hpc, Pc.rank, List.length_nil]
    omega
  · rename_i job jobs hpc
    split at h
    · split at h <;> cases h <;> simp only [hpc, Pc.rank, List.length_cons] <;> omega
    · split at h
      · cases h
      · cases h
        simp only [hpc, Pc.rank, List.length_cons, List.length_append, List.length_nil]
        omega
    · cases h
      simp only [hpc, Pc.rank, List.length_cons]
      omega
  · rename_i job jobs hpc
    split at h <;> cases h <;> simp only [hpc, Pc.rank] <;> omega
  · rename_i job jobs hpc
    cases h
    simp only [hpc, Pc.rank]
    omega
  · cases h
  · cases h

theorem busy_setWorker {s : State} {i : Nat} {old : Consumer} (c : Consumer)
    (h : s.workers[i]? = some old) :
    (setWorker s i c).workers.countP Consumer.busy + (if old.busy then 1 else 0) =
      s.workers.countP Consumer.busy + if c.busy then 1 else 0 := by
  obtain ⟨hi, hold⟩ := List.getElem?_eq_some_iff.mp h
  unfold setWorker
  rw [List.countP_set hi, hold]
  by_cases hbusy : old.busy = true
  · have hpos : 0 < s.workers.countP Consumer.busy :=
      List.countP_pos_iff.mpr ⟨old, List.mem_of_getElem? h, hbusy⟩
    rw [if_pos hbusy]
    omega
  · rw [if_neg hbusy]
    omega

theorem rank_next {maxQueue : Nat} {s s' : State} {l : Label} (h : next maxQueue s l = some s') :
    rank s' + (if l.moves then 1 else 0) ≤ rank s := by
  cases l with
  | recover now => exact rank_recover h
  | take i =>
    simp only [next] at h
    split at h
    · rename_i job queue hworker hqueue
      cases h
      have hbusy := busy_setWorker (.serving job) hworker
      simp only [Consumer.busy, Bool.false_eq_true, if_false, if_true] at hbusy
      simp only [rank, hqueue, Label.moves, List.length_cons, setWorker, if_true] at hbusy ⊢
      omega
    · cases h
  | work i w now =>
    simp only [next] at h
    split at h
    · split at h
      · rename_i store hw
        cases h
        rw [write_ok hw]
        simp [rank, Store.update, Label.moves]
      · cases h
        simp [Label.moves]
    · cases h
  | finish i =>
    simp only [next] at h
    split at h
    · rename_i job hworker
      cases h
      have hbusy := busy_setWorker .waiting hworker
      simp only [Consumer.busy, Bool.false_eq_true, if_false, if_true] at hbusy
      simp only [rank, Label.moves, setWorker, if_true] at hbusy ⊢
      omega
    · cases h
  | ends i =>
    simp only [next] at h
    split at h
    · cases h
    · rename_i old _ hworker
      cases h
      have hbusy := busy_setWorker .ended hworker
      rw [show Consumer.ended.busy = false from rfl] at hbusy
      simp only [rank, Label.moves, setWorker, Bool.false_eq_true, if_false] at hbusy ⊢
      omega
    · cases h
  | deliver id status now =>
    cases h
    simp [rank, Store.update, Label.moves]

/-- Only a full queue blocks recovery. -/
theorem recover_blocked {maxQueue now : Nat} {s : State} (h : recover maxQueue now s = none) :
    (∃ r f, s.pc = .returned r f) ∨ (∃ e, s.pc = .raised e) ∨ s.queue ≠ [] := by
  unfold recover at h
  split at h
  · cases h
  · cases h
  · split at h
    · split at h <;> cases h
    · split at h
      · rename_i hfull
        right; right
        intro hempty
        simp only [full, hempty, List.length_nil, Bool.and_eq_true, decide_eq_true_eq] at hfull
        omega
      · cases h
    · cases h
  · split at h <;> cases h
  · cases h
  · rename_i r f hpc
    exact Or.inl ⟨r, f, hpc⟩
  · rename_i e hpc
    exact Or.inr (Or.inl ⟨e, hpc⟩)

/-- A worker that consumes makes room on a queue that is not empty. -/
theorem consumer_moves {s : State} {c : Consumer} (maxQueue : Nat) (hc : c ∈ s.workers)
    (hlive : c ≠ .ended) (hqueue : s.queue ≠ []) :
    ∃ l : Label, l.moves = true ∧ (next maxQueue s l).isSome := by
  obtain ⟨i, hi⟩ := List.getElem?_of_mem hc
  obtain ⟨job, queue, hq⟩ := List.exists_cons_of_ne_nil hqueue
  cases c with
  | waiting => exact ⟨.take i, rfl, by simp [next, hi, hq]⟩
  | serving job => exact ⟨.finish i, rfl, by simp [next, hi]⟩
  | ended => exact absurd rfl hlive

theorem no_deadlock {maxQueue : Nat} {s : State} (hs : Inv s)
    (hconsumer : ∃ c ∈ s.workers, c ≠ .ended) :
    (∃ r f, s.pc = .returned r f) ∨ ∃ l : Label, l.moves = true ∧ (next maxQueue s l).isSome := by
  rcases hrecover : recover maxQueue 0 s with _ | s'
  · rcases recover_blocked hrecover with hreturned | ⟨e, hraised⟩ | hqueue
    · exact Or.inl hreturned
    · exact absurd hraised (hs.not_raised e)
    · obtain ⟨c, hc, hlive⟩ := hconsumer
      exact Or.inr (consumer_moves maxQueue hc hlive hqueue)
  · refine Or.inr ⟨.recover 0, rfl, ?_⟩
    rw [show next maxQueue s (.recover 0) = some s' from hrecover]
    rfl

/-! ## Every run -/

/-- What recovery has done when it returns its counts. -/
structure Recovered (s : State) (requeued failedRestart : Nat) : Prop where
  restarted : ∀ row ∈ s.boot, row.status = .running → Row s.store row.id Restarted
  once : ∀ row ∈ s.boot, row.status = .queued → s.put.countP (fun job => job.id = row.id) = 1
  put : s.put = queuedOf s.boot.scanNonTerminal
  requeued : requeued = (queuedOf s.boot.scanNonTerminal).length
  failedRestart : failedRestart = (runningOf s.boot.scanNonTerminal).length

theorem Iterated.put_prefix {s : State} {done : List Job} (h : Iterated s done) :
    s.put <+: queuedOf s.boot.scanNonTerminal := by
  rw [h.put, h.scan, queuedOf_append]
  exact List.prefix_append _ _

theorem Iterated.recovered {s : State} {done : List Job} {r f : Nat} (h : Iterated s done)
    (hpc : s.pc = .returned r f) : Recovered s r f := by
  have hscan := h.scan
  simp only [hpc, Pc.current, Pc.later, List.append_nil] at hscan
  obtain ⟨hr, hf⟩ := h.stats r f hpc
  have hput : s.put = queuedOf s.boot.scanNonTerminal := by rw [hscan, h.put]
  refine ⟨fun row hrow hrun => ?_, fun row hrow hqueued => ?_, hput, ?_, ?_⟩
  · have hmem : row ∈ s.boot.scanNonTerminal :=
      mem_scanNonTerminal.mpr ⟨hrow, by rw [hrun]; exact not_terminal_running⟩
    exact h.restarted row (mem_runningOf.mpr ⟨hscan ▸ hmem, hrun⟩)
  · have hmem : row ∈ s.put := by
      rw [hput, mem_queuedOf, mem_scanNonTerminal, hqueued]
      exact ⟨⟨hrow, not_terminal_queued⟩, rfl⟩
    have hnodup : (s.put.map (·.id)).Nodup := by
      rw [hput]
      exact (scan_keyed h.boot).sublist (List.filter_sublist.map _)
    have hone := List.count_eq_one_of_mem hnodup (List.mem_map_of_mem (f := (·.id)) hmem)
    rw [List.count_eq_countP, List.countP_map] at hone
    rw [← hone]
    exact List.countP_congr fun job _ => by simp
  · rw [hr, h.requeued, hscan]
  · rw [hf, h.failed_restart, hscan]

theorem inv_exec {maxQueue workers : Nat} {store : Store} {labels : List Label} {s : State}
    (hstore : store.Keyed) (hrun : exec (next maxQueue) (start store workers) labels = some s) :
    Inv s :=
  invariant_of_next (fun _ _ _ h hnext => inv_next h hnext) (inv_start hstore workers) hrun

/-- Recovery never raises and cannot be blocked for good. It puts the queued
rows of its scan in order, each one once, and writes no row but the running
ones, which it fails and hands over. -/
theorem recovery_is_complete {maxQueue workers : Nat} {store : Store} {labels : List Label}
    {s : State} (hstore : store.Keyed)
    (hrun : exec (next maxQueue) (start store workers) labels = some s) :
    (∀ e, s.pc ≠ .raised e) ∧
      (∀ r f, s.pc = .returned r f → Recovered s r f) ∧
      (s.queue <:+ s.put ∧ s.put.Pairwise fun a b => a.createdAt ≤ b.createdAt) ∧
      (∀ now s', next maxQueue s (.recover now) = some s' →
        ∀ id, s'.store.getById id ≠ s.store.getById id →
          ∃ row ∈ s.boot, row.id = id ∧ row.status = .running) ∧
      ((∃ c ∈ s.workers, c ≠ .ended) →
        (∃ r f, s.pc = .returned r f) ∨
          ∃ l : Label, l.moves = true ∧ (next maxQueue s l).isSome) ∧
      labels.countP Label.moves ≤ 3 * store.length + 2 := by
  have hs := inv_exec hstore hrun
  refine ⟨hs.not_raised, fun r f hpc => ?_, ⟨hs.queue, ?_⟩, fun now s' h id hchanged => ?_,
    no_deadlock hs, ?_⟩
  · rcases hs.stage with ⟨hscanning, -, -, -, -⟩ | ⟨done, hit⟩
    · rw [hscanning] at hpc
      cases hpc
    · exact hit.recovered hpc
  · rcases hs.stage with ⟨-, -, hput, -, -⟩ | ⟨done, hit⟩
    · rw [hput]
      exact List.Pairwise.nil
    · have hsorted := (scan_sorted s.boot).sublist
        (List.filter_sublist (p := fun job => job.status = .queued))
      exact hsorted.sublist hit.put_prefix.sublist
  · exact recover_changes hs h hchanged
  · have hle := countP_add_rank_le (I := fun _ => True) Label.moves rank
      (fun _ _ _ _ hnext => ⟨trivial, rank_next hnext⟩) trivial hrun
    have hstart : rank (start store workers) = 3 * store.length + 2 := by
      have hbusy : (List.replicate workers Consumer.waiting).countP Consumer.busy = 0 := by
        rw [List.countP_eq_zero]
        intro c hc
        rw [List.eq_of_mem_replicate hc]
        decide
      simp [rank, start, Pc.rank, hbusy]
    omega

/-! ## A small boot -/

def rowAt (id : String) (status : JobStatus) (createdAt : Nat) : Job :=
  { Job.fresh id "m" (.malformed "") .async none none createdAt with status := status }

/-- Two queued rows, one running, and room for one item. -/
def smallBoot : Store := [rowAt "c" .queued 3, rowAt "b" .running 2, rowAt "a" .queued 1]

def smallScan : List Job := [rowAt "a" .queued 1, rowAt "b" .running 2, rowAt "c" .queued 3]

theorem smallBoot_scan : Store.scanNonTerminal smallBoot = smallScan := by
  simp [Store.scanNonTerminal, smallBoot, smallScan, rowAt, Job.fresh, List.mergeSort]

/-- The worker takes the first item and has it running while recovery waits for
room. -/
def smallRun : List Label :=
  [.recover 11, .take 0, .work 0 (.setRunning "p" "w") 12, .recover 13, .recover 14, .recover 15,
    .recover 16, .finish 0, .take 0, .recover 17]

theorem a_small_boot_recovers :
    ∃ s, exec (next 1) (start smallBoot 1) (.recover 10 :: smallRun) = some s ∧
      s.put.map (·.id) = ["a", "c"] ∧ Recovered s 2 1 := by
  have hscan : next 1 (start smallBoot 1) (.recover 10) =
      some ⟨smallBoot, .iterating smallScan, 0, 0, [], [.waiting], smallBoot, []⟩ := by
    rw [← smallBoot_scan]
    rfl
  have hrest : exec (next 1)
      ⟨smallBoot, .iterating smallScan, 0, 0, [], [.waiting], smallBoot, []⟩ smallRun =
        some ⟨[rowAt "c" .queued 3,
            { rowAt "b" .failed 2 with
              errorCode := some "service_restarted",
              errorMessage := some "process restart mid-generation",
              webhookHandover := true, updatedAt := 15 },
            { rowAt "a" .running 1 with
              promptId := some "p", clientId := some "w", updatedAt := 12 }],
          .returned 2 1, 2, 1, [], [.serving (rowAt "c" .queued 3)], smallBoot,
          [rowAt "a" .queued 1, rowAt "c" .queued 3]⟩ := by rfl
  have hrun := exec_cons.mpr ⟨_, hscan, hrest⟩
  have hkeyed : Store.Keyed smallBoot := by simp [Store.Keyed, smallBoot, rowAt, Job.fresh]
  exact ⟨_, hrun, rfl, (recovery_is_complete hkeyed hrun).2.1 2 1 rfl⟩

end image_gen.recovery

-- The job metrics and the job table, over every interleaving of the handlers
-- and the workers. A pipeline that reports a failure counts it and
-- `_process_one` counts it again, and an exception that no report has written
-- to the row is counted as well.
import ImageGen.JobLedger
import ImageGen.Runs

namespace image_gen.metrics_conservation

open image_gen.coroutine image_gen.runs image_gen.json image_gen.job_store image_gen.requests
  image_gen.worker image_gen.metrics image_gen.job_ledger

variable {G : Type}

/-! ## The service -/

/-- An event of the collector, with the job that it is about. -/
structure Event where
  job : String
  status : String
  errorCode : Option String

/-- Where the handler and then a worker stand with a job. -/
inductive Pc (G : Type)
  /-- The row is committed. -/
  | inserted
  /-- `queued` is recorded, and the handler waits for a place on the queue. -/
  | recorded
  | onQueue (future : Option FutureState)
  | pipeline (future : Option FutureState) (p : Prog G JobResult)
  /-- In a branch of `_process_one`. -/
  | settling (future : Option FutureState) (p : Prog G Unit)
  /-- Served, or dropped by a handler or a worker that ended. -/
  | over

structure JobState (G : Type) where
  job : Job
  pc : Pc G

/-- The jobs stand in the order of their rows. Which of them a worker takes
next, and how many workers there are, is left open. -/
structure State (G : Type) where
  world : World
  jobs : List (JobState G)
  events : List Event

inductive Label (G : Type)
  /-- `create_queued`. A request that is turned away before it writes nothing. -/
  | insert (r : Submission) (id : String) (now : Nat)
  /-- `create_queued` raises, or is cancelled, after its commit. -/
  | insertRaises (i : Nat)
  | record (i : Nat)
  | enqueue (i : Nat)
  /-- The handler is cancelled while it waits for a place on the queue. -/
  | giveUp (i : Nat)
  | take (i : Nat) (svc : Service G)
  /-- One operation of the worker, or the step from the pipeline to a branch. -/
  | work (i : Nat) (env : Env G)
  /-- A write to the flags of a row, by a handler or the dispatcher. -/
  | flag (w : Write) (now : Nat)

namespace State

def start : State G where
  world := {
    store := []
    storeWrites := 0
    lastModelName := none
    metrics := some []
    gpu := []
    future := none }
  jobs := []
  events := []

def setPc (s : State G) (i : Nat) (j : JobState G) (pc : Pc G) : State G :=
  { s with jobs := s.jobs.set i ⟨j.job, pc⟩ }

/-- How many events of a status are about a job. -/
def count (s : State G) (id status : String) : Nat :=
  s.events.countP fun e => e.job = id ∧ e.status = status

end State

def opEvents (id : String) : Op G → List Event
  | .recordJobEvent status errorCode => [⟨id, status, errorCode⟩]
  | _ => []

/-- One operation for the job at place `i`. The future is the item's own. -/
def perform (env : Env G) (s : State G) (i : Nat) (job : Job) (future : Option FutureState)
    (op : Op G) (next : Option FutureState → Except Exc op.Ans → Pc G) : State G :=
  let r := exec env op { s.world with future := future }
  { world := { r.2 with future := none }
    jobs := s.jobs.set i ⟨job, next r.2.future r.1⟩
    events := s.events ++ opEvents job.id op }

/-- What `_process_one` does with an exception of the pipeline. -/
def onRaise (job : Job) (future : Option FutureState) (e : Exc) : Pc G :=
  if e.isBackendOrStorage then .settling future (recordedBranch e)
  else if e.isException then .settling future (unexpectedBranch job e)
  else .over

def work (env : Env G) (s : State G) (i : Nat) (j : JobState G) : Option (State G) :=
  match j.pc with
  | .pipeline future (.ret result) => some (s.setPc i j (.settling future (completedBranch result)))
  | .pipeline future (.raise e) => some (s.setPc i j (onRaise j.job future e))
  | .pipeline future (.await op k) =>
    some (perform env s i j.job future op fun future r => .pipeline future (k r))
  | .settling _ (.ret _) => some (s.setPc i j .over)
  | .settling _ (.raise _) => some (s.setPc i j .over)
  | .settling future (.await op k) =>
    some (perform env s i j.job future op fun future r => .settling future (k r))
  | _ => none

def isFlag : Write → Bool
  | .setRunning _ _ _ => false
  | .setCompleted _ _ _ => false
  | .setFailed _ _ _ => false
  | .setAbandoned _ _ => false
  | _ => true

def recordQueued (s : State G) (i : Nat) (j : JobState G) : State G :=
  { world := { s.world with metrics := s.world.metrics.map (· ++ [("queued", none)]) }
    jobs := s.jobs.set i ⟨j.job, .recorded⟩
    events := s.events ++ [⟨j.job.id, "queued", none⟩] }

def next (s : State G) : Label G → Option (State G)
  | .insert r id now =>
    match s.world.store.createQueued (r.row id now) with
    | .error _ => some s
    | .ok store => some { s with
        world := { s.world with store := store }
        jobs := s.jobs ++ [⟨r.row id now, .inserted⟩] }
  | .insertRaises i =>
    match s.jobs[i]? with
    | some ⟨job, .inserted⟩ => some (s.setPc i ⟨job, .inserted⟩ .over)
    | _ => none
  | .record i =>
    match s.jobs[i]? with
    | some ⟨job, .inserted⟩ => some (recordQueued s i ⟨job, .inserted⟩)
    | _ => none
  | .enqueue i =>
    match s.jobs[i]? with
    | some ⟨job, .recorded⟩ =>
      -- a detached item has no future
      some (s.setPc i ⟨job, .recorded⟩
        (.onQueue (if job.mode = .sync then some .pending else none)))
    | _ => none
  | .giveUp i =>
    match s.jobs[i]? with
    | some ⟨job, .recorded⟩ => some (s.setPc i ⟨job, .recorded⟩ .over)
    | _ => none
  | .take i svc =>
    match s.jobs[i]? with
    | some ⟨job, .onQueue future⟩ =>
      some (s.setPc i ⟨job, .onQueue future⟩ (.pipeline future (runPipeline svc job)))
    | _ => none
  | .work i env =>
    match s.jobs[i]? with
    | some j => work env s i j
    | none => none
  | .flag w now =>
    if isFlag w then
      match w.apply s.world.store now with
      | .ok store => some { s with world := { s.world with store := store } }
      | .error _ => none
    else none

/-- No handler is between its row and its event, and no worker is at a job. -/
def Pc.Quiet : Pc G → Prop
  | .inserted => False
  | .pipeline _ _ => False
  | .settling _ _ => False
  | _ => True

def Quiescent (s : State G) : Prop := ∀ j ∈ s.jobs, j.pc.Quiet

/-! ## A worker by itself -/

section Alone

variable {env : Env G} {job : Job} {i : Nat}

/-- The state after the job is over, with the world that a run of `p` leaves. -/
def EndsAs (env : Env G) (i : Nat) (job : Job) (s : State G) (w : World) : Prop :=
  ∃ n s', runs.exec next s (List.replicate n (.work i env)) = some s' ∧
    s'.jobs[i]? = some ⟨job, .over⟩ ∧ { s'.world with future := none } = { w with future := none }

theorem EndsAs.of_next {s s' : State G} {w : World} (h : next s (.work i env) = some s')
    (hs' : EndsAs env i job s' w) : EndsAs env i job s w := by
  obtain ⟨n, t, hrun, hover, hworld⟩ := hs'
  refine ⟨n + 1, t, ?_, hover, hworld⟩
  rw [List.replicate_succ, exec_cons]
  exact ⟨s', h, hrun⟩

theorem next_work {s : State G} {j : JobState G} (hj : s.jobs[i]? = some j) :
    next s (.work i env) = work env s i j := by
  simp only [next, hj]

theorem getElem?_set_job {s : State G} {j : JobState G} (hj : s.jobs[i]? = some j)
    (k : JobState G) : (s.jobs.set i k)[i]? = some k :=
  List.getElem?_set_self (List.getElem?_eq_some_iff.mp hj).1

theorem over_alone {s : State G} (hj : s.jobs[i]? = some ⟨job, .over⟩) {w : World}
    (hw : { s.world with future := none } = { w with future := none }) : EndsAs env i job s w :=
  ⟨0, s, rfl, hj, hw⟩

theorem settling_alone (p : Prog G Unit) (s : State G) (future : Option FutureState)
    (hj : s.jobs[i]? = some ⟨job, .settling future p⟩) :
    EndsAs env i job s (p.run (worker.exec env) { s.world with future := future }).2 := by
  induction p generalizing s future with
  | ret _ =>
    exact EndsAs.of_next (next_work hj) (over_alone (getElem?_set_job hj _) rfl)
  | raise e =>
    exact EndsAs.of_next (next_work hj) (over_alone (getElem?_set_job hj _) rfl)
  | await op k ih =>
    exact EndsAs.of_next (next_work hj) (ih _ _ _ (getElem?_set_job hj _))

/-- A worker that nobody interrupts does what `_process_one` does. -/
theorem pipeline_alone (p : Prog G JobResult) (s : State G) (future : Option FutureState)
    (hj : s.jobs[i]? = some ⟨job, .pipeline future p⟩) :
    EndsAs env i job s
      ((processOne p job).run (worker.exec env) { s.world with future := future }).2 := by
  induction p generalizing s future with
  | ret result =>
    rw [run_processOne]
    exact EndsAs.of_next (next_work hj) (settling_alone _ _ future (getElem?_set_job hj _))
  | raise e =>
    rw [run_processOne]
    refine EndsAs.of_next (next_work hj) ?_
    have hset := getElem?_set_job hj ⟨job, onRaise job future e⟩
    rcases hback : e.isBackendOrStorage <;> rcases hexc : e.isException
    · have hpc : onRaise job future e = (.over : Pc G) := by
        simp [onRaise, hback, hexc]
      rw [hpc] at hset
      simp only [Co.run, hback, hexc, Bool.false_eq_true, if_false]
      exact over_alone (hpc ▸ hset) rfl
    · have hpc : onRaise job future e = (.settling future (unexpectedBranch job e) : Pc G) := by
        simp [onRaise, hback, hexc]
      rw [hpc] at hset
      simp only [Co.run, hback, hexc, Bool.false_eq_true, if_false, if_true]
      exact settling_alone _ _ future (hpc ▸ hset)
    all_goals
      have hpc : onRaise job future e = (.settling future (recordedBranch e) : Pc G) := by
        simp [onRaise, hback]
      rw [hpc] at hset
      simp only [Co.run, hback, if_true]
      exact settling_alone _ _ future (hpc ▸ hset)
  | await op k ih =>
    have hrest := ih _ (perform env s i job future op fun future r => .pipeline future (k r)) _
      (getElem?_set_job hj _)
    rw [run_processOne] at hrest ⊢
    exact EndsAs.of_next (next_work hj) hrest

end Alone

/-! ## The condition -/

/-- A write of an outcome that raises has not been committed. -/
def WritesOrRaises (env : Env G) (w : World) : Op G → Prop
  | .setCompleted _ _ _ => ∀ f, env.fault w.storeWrites = some f → f.committed = false
  | .setFailed _ _ _ => ∀ f, env.fault w.storeWrites = some f → f.committed = false
  | _ => True

/-- Which steps count a job once. The pipeline comes to no report that counts,
and a Backend or Storage exception leaves it only after a report. -/
def CountsOnce (s : State G) : Label G → Prop
  | .insertRaises _ => False
  | .work i env => ∀ j, s.jobs[i]? = some j →
    match j.pc with
    | .pipeline _ (.raise e) =>
      e.isBackendOrStorage = true → s.world.status j.job.id = some .failed
    | .pipeline _ (.await op _) =>
      WritesOrRaises env s.world op ∧ ∀ code, op ≠ .recordJobEvent "failed" code
    | .settling _ (.await op _) => WritesOrRaises env s.world op
    | _ => True
  | _ => True

/-! ## One operation -/

section Operation

variable {env : Env G} {id : String} {w : World} {l : Ledger}

/-- The operations of a job: they write its row only, and code their events. -/
def Own (id : String) : Op G → Prop
  | .setRunning i _ _ => i = id
  | .setCompleted i _ _ => i = id
  | .setFailed i _ _ => i = id
  | .recordJobEvent status errorCode => Coded status errorCode
  | _ => True

/-- A transition either has no effect and raises, or is committed. -/
theorem execStore_transition (env : Env G) (w : World) (id : String) (target : JobStatus)
    (f : Nat → Job → Job) :
    let r := execStore env w fun s now => s.transition id target (f now)
    (∃ e, r.1 = .error e ∧ r.2.store = w.store) ∨
      ∃ current, w.status id = some current ∧ target ∈ allowedTransitions current ∧
        (∃ now, r.2.store = w.store.update id (f now)) ∧
        (r.1 = .ok () ∨ ∃ fault, env.fault w.storeWrites = some fault ∧ fault.committed = true) := by
  unfold execStore
  dsimp only
  split
  · exact Or.inl ⟨_, rfl, rfl⟩
  rename_i hfault
  split
  · exact Or.inl ⟨_, rfl, rfl⟩
  rename_i store hok
  obtain ⟨row, hrow, hallowed, rfl⟩ := Store.transition_ok hok
  have hst : w.status id = some row.status := by
    unfold World.status
    rw [hrow]
    rfl
  refine Or.inr ⟨row.status, hst, hallowed, ?_, ?_⟩
  · split <;> exact ⟨_, rfl⟩
  · rcases hf : env.fault w.storeWrites with _ | ⟨committed, raised⟩
    · exact Or.inl rfl
    · cases committed
      · exact absurd hf (hfault raised)
      · exact Or.inr ⟨_, rfl, rfl⟩

theorem execStore_metrics (env : Env G) (w : World)
    (write : Store → Nat → Except StoreError Store) :
    (execStore env w write).2.metrics = w.metrics := by
  unfold execStore
  dsimp only
  split
  · rfl
  split
  · rfl
  split <;> rfl

theorem status_observe (c : Call G) (a : c.Ans) (w : World) (id : String) :
    (w.observe c a).status id = w.status id := by
  cases c <;> rfl

def afterOp (op : Op G) (l : Ledger) : Ledger :=
  match op with
  | .recordJobEvent status _ => l.record status
  | _ => l

theorem moves_transition (env : Env G) {target : JobStatus} {f : Nat → Job → Job}
    (hst : w.status id = some l.status)
    (hfid : ∀ now j, (f now j).id = j.id) (hfst : ∀ now j, (f now j).status = target) :
    let r := execStore env w fun s now => s.transition id target (f now)
    (∃ e, r.1 = .error e ∧ r.2.status id = some l.status) ∨
      target ∈ allowedTransitions l.status ∧ r.2.status id = some target ∧
        (r.1 = .ok () ∨ ∃ fault, env.fault w.storeWrites = some fault ∧ fault.committed = true) := by
  intro r
  rcases execStore_transition env w id target f with ⟨e, he, hstore⟩ |
    ⟨current, hcurrent, hallowed, ⟨now, hstore⟩, hr⟩
  · refine Or.inl ⟨e, he, ?_⟩
    rw [← hst]
    unfold World.status
    rw [hstore]
  · rw [hst, Option.some.injEq] at hcurrent
    subst hcurrent
    refine Or.inr ⟨hallowed, ?_, hr⟩
    obtain ⟨row, hrow, -⟩ := Option.map_eq_some_iff.mp hst
    unfold World.status
    rw [hstore, Store.getById_update_self _ _ (hfid now), hrow]
    simp [hfst]

/-- An outcome that is written with no fault after the commit. -/
theorem moves_outcome {target : JobStatus} {f : Nat → Job → Job}
    (hst : w.status id = some l.status)
    (hfid : ∀ now j, (f now j).id = j.id) (hfst : ∀ now j, (f now j).status = target)
    (hkept : ∀ fault, env.fault w.storeWrites = some fault → fault.committed = false) :
    let r := execStore env w fun s now => s.transition id target (f now)
    ∃ status, Moves target l r.1 (l.goTo status) ∧ r.2.status id = some status := by
  intro r
  rcases moves_transition env hst hfid hfst with
    ⟨e, he, hrow⟩ | ⟨hallowed, hrow, hok | ⟨fault, hf, hc⟩⟩
  · refine ⟨l.status, ?_, hrow⟩
    rw [he]
    rfl
  · refine ⟨target, ?_, hrow⟩
    rw [hok]
    exact ⟨hallowed, rfl⟩
  · rw [hkept fault hf] at hc
    cases hc

/-- An operation takes the job from its ledger to the next. -/
theorem step_exec {op : Op G} (hown : Own id op) (hst : w.status id = some l.status)
    (hkept : WritesOrRaises env w op) :
    ∃ status, Step id op l (exec env op w).1 ((afterOp op l).goTo status) ∧
      (exec env op w).2.status id = some status := by
  cases op with
  | call c =>
    refine ⟨l.status, rfl, ?_⟩
    rcases hb : env.backend c with e | a
    · rw [exec_call_error hb]
      exact hst
    · rw [exec_call_ok hb, status_observe]
      exact hst
  | setRunning i promptId clientId =>
    subst hown
    rcases moves_transition env (f := Job.setRunning promptId clientId) hst
      (fun _ _ => rfl) (fun _ _ => rfl) with ⟨e, he, hrow⟩ | ⟨hallowed, hrow, -⟩
    · refine ⟨l.status, ?_, hrow⟩
      simp only [Step, if_true]
      refine Or.inl ?_
      rw [show (exec env (.setRunning i promptId clientId) w).1 = .error e from he]
      rfl
    · refine ⟨.running, ?_, hrow⟩
      simp only [Step, if_true]
      exact Or.inr ⟨hallowed, rfl⟩
  | setCompleted i outputKeys result =>
    subst hown
    obtain ⟨status, hmoves, hrow⟩ := moves_outcome (f := Job.setCompleted outputKeys result) hst
      (fun _ _ => rfl) (fun _ _ => rfl) hkept
    refine ⟨status, ?_, hrow⟩
    simp only [Step, if_true]
    exact hmoves
  | setFailed i code message =>
    subst hown
    obtain ⟨status, hmoves, hrow⟩ := moves_outcome (f := Job.setFailed code message) hst
      (fun _ _ => rfl) (fun _ _ => rfl) hkept
    refine ⟨status, ?_, hrow⟩
    simp only [Step, if_true]
    exact hmoves
  | recordJobEvent status errorCode =>
    refine ⟨l.status, ⟨rfl, ?_⟩, hst⟩
    rw [if_pos (show Coded status errorCode from hown)]
    rfl
  | setLastModelName name => exact ⟨l.status, ⟨rfl, rfl⟩, hst⟩
  | setResult result =>
    refine ⟨l.status, rfl, ?_⟩
    simp only [worker.exec, World.resolve]
    split <;> exact hst
  | setException e =>
    refine ⟨l.status, rfl, ?_⟩
    simp only [worker.exec, World.resolve]
    split <;> exact hst
  | _ => exact ⟨l.status, rfl, hst⟩

/-- The rows of the other jobs keep their status, and no row comes or goes. -/
theorem exec_others (env : Env G) {op : Op G} (hown : Own id op) :
    (exec env op w).2.store.map (·.id) = w.store.map (·.id) ∧
      ∀ id', id' ≠ id → (exec env op w).2.status id' = w.status id' := by
  have hwrite : ∀ (target : JobStatus) (f : Nat → Job → Job), (∀ now j, (f now j).id = j.id) →
      let r := execStore env w fun s now => s.transition id target (f now)
      r.2.store.map (·.id) = w.store.map (·.id) ∧
        ∀ id', id' ≠ id → r.2.status id' = w.status id' := by
    intro target f hfid r
    rcases execStore_transition env w id target f with ⟨-, -, hstore⟩ |
      ⟨-, -, -, ⟨now, hstore⟩, -⟩
    · unfold World.status
      rw [hstore]
      exact ⟨rfl, fun _ _ => rfl⟩
    · unfold World.status
      rw [hstore]
      refine ⟨?_, fun id' hne => by rw [Store.getById_update_ne _ (hfid now) hne]⟩
      rw [Store.update, List.map_map]
      refine List.map_congr_left fun row _ => ?_
      simp only [Function.comp_apply]
      split
      · exact hfid now row
      · rfl
  cases op with
  | call c =>
    rcases hb : env.backend c with e | a
    · rw [exec_call_error hb]
      exact ⟨rfl, fun _ _ => rfl⟩
    · rw [exec_call_ok hb]
      refine ⟨?_, fun id' _ => status_observe c a w id'⟩
      cases c <;> rfl
  | setRunning i promptId clientId =>
    subst hown
    exact hwrite .running (Job.setRunning promptId clientId) fun _ _ => rfl
  | setCompleted i outputKeys result =>
    subst hown
    exact hwrite .completed (Job.setCompleted outputKeys result) fun _ _ => rfl
  | setFailed i code message =>
    subst hown
    exact hwrite .failed (Job.setFailed code message) fun _ _ => rfl
  | setResult result =>
    simp only [worker.exec, World.resolve]
    split <;> exact ⟨rfl, fun _ _ => rfl⟩
  | setException e =>
    simp only [worker.exec, World.resolve]
    split <;> exact ⟨rfl, fun _ _ => rfl⟩
  | _ => exact ⟨rfl, fun _ _ => rfl⟩

/-- The collector gets the events of the operation. -/
theorem exec_metrics (env : Env G) (op : Op G) (w : World) (id : String) :
    (exec env op w).2.metrics = w.metrics.map
      (· ++ (opEvents id op).map fun e => (e.status, e.errorCode)) := by
  have hsame : w.metrics = w.metrics.map (· ++ []) := by
    rcases w.metrics with _ | events <;> simp
  cases op with
  | call c =>
    rcases hb : env.backend c with e | a
    · rw [exec_call_error hb]
      exact hsame
    · rw [exec_call_ok hb]
      cases c <;> exact hsame
  | setRunning i promptId clientId => exact (execStore_metrics _ _ _).trans hsame
  | setCompleted i outputKeys result => exact (execStore_metrics _ _ _).trans hsame
  | setFailed i code message => exact (execStore_metrics _ _ _).trans hsame
  | recordJobEvent status errorCode => rfl
  | setResult result =>
    simp only [worker.exec, World.resolve]
    split <;> exact hsame
  | setException e =>
    simp only [worker.exec, World.resolve]
    split <;> exact hsame
  | _ => exact hsame

/-- A pipeline or a branch that keeps its job intact makes the operations of
the job. -/
theorem own_of_holds {R : (op : Op G) → Ledger → Except Exc op.Ans → Ledger → Prop} {α : Type}
    {Q : Except Exc α → Ledger → Prop} {op : Op G} {k : Except Exc op.Ans → Prog G α}
    (hR : ∀ r l', Step id op l r l' → R op l r l')
    (h : (Co.await op k : Prog G α).Holds R (fun l' => l'.intact = true) Q l) : Own id op := by
  -- a foreign operation could leave this ledger
  let broken : Ledger := { l with intact := false }
  have hforeign : ∀ r, ¬ Step id op l r broken := by
    intro r hstep
    have hintact := (h r broken (hR r broken hstep)).1
    cases hintact
  cases op with
  | setRunning i promptId clientId =>
    by_contra hne
    refine hforeign (.ok ()) ?_
    simp only [Step]
    rw [if_neg (show ¬ i = id from hne)]
  | setCompleted i outputKeys result =>
    by_contra hne
    refine hforeign (.ok ()) ?_
    simp only [Step]
    rw [if_neg (show ¬ i = id from hne)]
  | setFailed i code message =>
    by_contra hne
    refine hforeign (.ok ()) ?_
    simp only [Step]
    rw [if_neg (show ¬ i = id from hne)]
  | recordJobEvent status errorCode =>
    by_contra hcoded
    refine hforeign (.ok ()) ⟨rfl, ?_⟩
    rw [if_neg (show ¬ Coded status errorCode from hcoded)]
  | _ => trivial

end Operation

/-! ## The invariant -/

/-- The ledger of a job, as the state has it. -/
structure Stands (s : State G) (id : String) (l : Ledger) : Prop where
  status : s.world.status id = some l.status
  queued : s.count id "queued" = l.queued
  completed : s.count id "completed" = l.completed
  failed : s.count id "failed" = l.failed
  intact : l.intact = true

def fresh : Ledger := ⟨.queued, 0, 0, 0, true⟩

def counted : Ledger := ⟨.queued, 1, 0, 0, true⟩

/-- What the place of a job says of its ledger. -/
def PcOk (job : Job) (l : Ledger) : Pc G → Prop
  | .inserted => l = fresh
  | .recorded => l = counted
  | .onQueue _ => l = counted
  | .pipeline _ p => Quietly job.id (Outcome counted) p l
  | .settling _ p => Settles job.id p l
  | .over => l.Balanced

structure Inv (s : State G) : Prop where
  ids : s.world.store.map (·.id) = s.jobs.map (·.job.id)
  keyed : (s.jobs.map (·.job.id)).Nodup
  recorded : s.world.metrics = some (s.events.map fun e => (e.status, e.errorCode))
  about : ∀ e ∈ s.events, e.job ∈ s.jobs.map (·.job.id)
  coded : ∀ e ∈ s.events, Coded e.status e.errorCode
  jobs : ∀ j ∈ s.jobs, ∃ l, Stands s j.job.id l ∧ PcOk j.job l j.pc

section Invariant

variable {s s' : State G} {i : Nat} {j : JobState G} {l : Ledger}

theorem inv_start : Inv (State.start : State G) where
  ids := rfl
  keyed := List.nodup_nil
  recorded := rfl
  about _ he := by cases he
  coded _ he := by cases he
  jobs _ hj := by cases hj

theorem map_set_of_getElem? {β γ : Type} {xs : List β} {x y : β} {f : β → γ}
    (h : xs[i]? = some x) (hf : f y = f x) : (xs.set i y).map f = xs.map f := by
  obtain ⟨hi, rfl⟩ := List.getElem?_eq_some_iff.mp h
  rw [List.map_set, hf, ← List.getElem_map f (h := by simpa using hi), List.set_getElem_self]

theorem count_append (events es : List Event) (id status : String) :
    ((events ++ es).countP fun e => e.job = id ∧ e.status = status) =
      (events.countP fun e => e.job = id ∧ e.status = status) +
        es.countP fun e => e.job = id ∧ e.status = status :=
  List.countP_append

theorem count_other {id id' status : String} {es : List Event} (hes : ∀ e ∈ es, e.job = id)
    (hne : id' ≠ id) : (es.countP fun e => e.job = id' ∧ e.status = status) = 0 := by
  rw [List.countP_eq_zero]
  intro e he
  simp [hes e he, Ne.symm hne]

/-- The job at place `i` goes on, and nothing else changes. -/
theorem inv_set {pc : Pc G} (es : List Event) (h : Inv s) (hj : s.jobs[i]? = some j)
    (hjobs : s'.jobs = s.jobs.set i ⟨j.job, pc⟩)
    (hstore : s'.world.store.map (·.id) = s.world.store.map (·.id))
    (hothers : ∀ id, id ≠ j.job.id → s'.world.status id = s.world.status id)
    (hevents : s'.events = s.events ++ es)
    (hmetrics : s'.world.metrics =
      s.world.metrics.map (· ++ es.map fun e => (e.status, e.errorCode)))
    (hes : ∀ e ∈ es, e.job = j.job.id ∧ Coded e.status e.errorCode)
    (hself : ∃ l, Stands s' j.job.id l ∧ PcOk j.job l pc) : Inv s' := by
  have hids : s'.jobs.map (·.job.id) = s.jobs.map (·.job.id) := by
    rw [hjobs]
    exact map_set_of_getElem? hj rfl
  refine ⟨?_, ?_, ?_, fun e he => ?_, fun e he => ?_, fun k hk => ?_⟩
  · rw [hstore, hids]
    exact h.ids
  · rw [hids]
    exact h.keyed
  · rw [hmetrics, h.recorded, hevents, List.map_append]
    rfl
  · rw [hids]
    rw [hevents, List.mem_append] at he
    rcases he with hold | hnew
    · exact h.about e hold
    · rw [(hes e hnew).1]
      exact List.mem_map_of_mem (List.mem_of_getElem? hj)
  · rw [hevents, List.mem_append] at he
    rcases he with hold | hnew
    · exact h.coded e hold
    · exact (hes e hnew).2
  · rw [hjobs] at hk
    obtain ⟨n, hn⟩ := List.mem_iff_getElem?.mp hk
    by_cases hni : i = n
    · subst hni
      have hlt : i < s.jobs.length := (List.getElem?_eq_some_iff.mp hj).1
      rw [List.getElem?_set_self hlt, Option.some.injEq] at hn
      subst hn
      exact hself
    · rw [List.getElem?_set_ne hni] at hn
      obtain ⟨l, hl, hpc⟩ := h.jobs k (List.mem_of_getElem? hn)
      have hne : k.job.id ≠ j.job.id := by
        intro heq
        have hmap : ∀ {m : Nat} {x : JobState G}, s.jobs[m]? = some x →
            (s.jobs.map (·.job.id))[m]? = some x.job.id := by
          intro m x hx
          rw [List.getElem?_map, hx, Option.map_some]
        have hlt : i < (s.jobs.map (·.job.id)).length :=
          (List.getElem?_eq_some_iff.mp (hmap hj)).1
        have hsame := (hmap hj).trans ((congrArg some heq.symm).trans (hmap hn).symm)
        exact hni ((List.getElem?_inj hlt h.keyed).mp hsame)
      have hcount : ∀ status, s'.count k.job.id status = s.count k.job.id status := by
        intro status
        unfold State.count
        rw [hevents, count_append, count_other (fun e he => (hes e he).1) hne, Nat.add_zero]
      refine ⟨l, ⟨?_, ?_, ?_, ?_, hl.intact⟩, hpc⟩
      · rw [hothers _ hne]
        exact hl.status
      · rw [hcount]
        exact hl.queued
      · rw [hcount]
        exact hl.completed
      · rw [hcount]
        exact hl.failed

/-- Only the place of the job changes. -/
theorem inv_setPc {pc : Pc G} (h : Inv s) (hj : s.jobs[i]? = some j)
    (hpc : ∀ l, Stands s j.job.id l → PcOk j.job l j.pc → PcOk j.job l pc) :
    Inv (s.setPc i j pc) := by
  obtain ⟨l, hl, hok⟩ := h.jobs j (List.mem_of_getElem? hj)
  refine inv_set [] h hj rfl rfl (fun _ _ => rfl) (List.append_nil _).symm ?_
    (fun e he => by cases he) ⟨l, ⟨hl.1, hl.2, hl.3, hl.4, hl.5⟩, hpc l hl hok⟩
  rw [h.recorded]
  simp [State.setPc, h.recorded]

/-- What an operation adds to the count of a status. -/
def added (status : String) : Op G → Nat
  | .recordJobEvent recorded _ => if recorded = status then 1 else 0
  | _ => 0

theorem countP_opEvents (id status : String) (op : Op G) :
    ((opEvents id op).countP fun e => e.job = id ∧ e.status = status) = added status op := by
  cases op with
  | recordJobEvent recorded errorCode => simp [opEvents, added, List.countP_singleton]
  | _ => rfl

theorem stands_perform {env : Env G} {future : Option FutureState} {op : Op G}
    {next : Option FutureState → Except Exc op.Ans → Pc G} {status : JobStatus}
    (hl : Stands s j.job.id l)
    (hrow : (perform env s i j.job future op next).world.status j.job.id = some status) :
    Stands (perform env s i j.job future op next) j.job.id ((afterOp op l).goTo status) := by
  have hcount : ∀ st, (perform env s i j.job future op next).count j.job.id st =
      s.count j.job.id st + added st op := by
    intro st
    unfold State.count perform
    rw [count_append, countP_opEvents]
  refine ⟨hrow, ?_, ?_, ?_, ?_⟩
  · rw [hcount, hl.queued]
    cases op <;> rfl
  · rw [hcount, hl.completed]
    cases op <;> rfl
  · rw [hcount, hl.failed]
    cases op <;> rfl
  · have hintact := hl.intact
    cases op <;> exact hintact

/-- One operation of the program that the job is in. -/
theorem inv_perform {env : Env G} {future : Option FutureState} {op : Op G}
    {next : Option FutureState → Except Exc op.Ans → Pc G} (h : Inv s) (hj : s.jobs[i]? = some j)
    (hown : Own j.job.id op) (hkept : WritesOrRaises env s.world op)
    (hpc : ∀ l, Stands s j.job.id l → PcOk j.job l j.pc → ∀ r l', Step j.job.id op l r l' →
      ∀ future, PcOk j.job l' (next future r)) :
    Inv (perform env s i j.job future op next) := by
  obtain ⟨l, hl, hok⟩ := h.jobs j (List.mem_of_getElem? hj)
  let w : World := { s.world with future := future }
  have hkept' : WritesOrRaises env w op := by
    cases op <;> exact hkept
  obtain ⟨status, hstep, hrow⟩ := step_exec (w := w) hown hl.status hkept'
  obtain ⟨hids, hothers⟩ := exec_others env (w := w) hown
  refine inv_set (opEvents j.job.id op) h hj rfl hids hothers rfl
    (exec_metrics env op w j.job.id) ?_
    ⟨(afterOp op l).goTo status, stands_perform hl hrow, hpc l hl hok _ _ hstep _⟩
  intro e he
  cases op with
  | recordJobEvent recorded errorCode =>
    rw [opEvents, List.mem_singleton] at he
    subst he
    exact ⟨rfl, hown⟩
  | _ => cases he

/-! ## One step -/

theorem Outcome.unsettled {α : Type} {r : Except Exc α} {l : Ledger} (h : Outcome counted r l) :
    Unsettled l := by
  have hcounted : Unsettled counted := ⟨rfl, rfl, rfl, rfl⟩
  rcases r with e | a
  · rcases h with ⟨status, -, rfl⟩ | ⟨-, rfl⟩ <;> exact hcounted.goTo _
  · exact h ▸ hcounted.goTo _

/-- An exception leaves the pipeline. -/
theorem pcOk_onRaise {e : Exc} (future : Option FutureState)
    (h : Outcome counted (.error e : Except Exc JobResult) l)
    (hreported : e.isBackendOrStorage = true → l.status = .failed) :
    PcOk j.job l (onRaise j.job future e : Pc G) := by
  have hopen : e.isBackendOrStorage = false → ¬ l.status.Terminal := by
    intro hback
    rcases h with ⟨status, hst, rfl⟩ | ⟨hback', -⟩
    · exact hst
    · rw [hback] at hback'
      cases hback'
  unfold onRaise
  rcases hback : e.isBackendOrStorage
  · rcases hexc : e.isException
    · exact Unsettled.balanced (Outcome.unsettled h) (hopen hback)
    · exact settles_unexpectedBranch (Outcome.unsettled h) (hopen hback) e
  · exact settles_recordedBranch (Outcome.unsettled h) (hreported hback) hback

theorem inv_work {env : Env G} (h : Inv s) (hj : s.jobs[i]? = some j)
    (hok : CountsOnce s (.work i env)) (hnext : work env s i j = some s') : Inv s' := by
  have hcounts := hok j hj
  unfold work at hnext
  rcases hpc : j.pc with _ | _ | future | ⟨future, p⟩ | ⟨future, p⟩ | _ <;>
    rw [hpc] at hnext hcounts
  · cases hnext
  · cases hnext
  · cases hnext
  · rcases p with result | e | ⟨op, k⟩ <;> cases hnext
    · refine inv_setPc h hj fun l _ hl => ?_
      rw [hpc] at hl
      have hdone : Outcome counted (.ok result : Except Exc JobResult) l := hl
      exact settles_completedBranch (Outcome.unsettled hdone) (congrArg Ledger.status hl) result
    · refine inv_setPc h hj fun l hstands hl => ?_
      rw [hpc] at hl
      refine pcOk_onRaise future hl fun hback => ?_
      have hrow := hstands.status.symm.trans (hcounts hback)
      exact Option.some.inj hrow
    · obtain ⟨hkept, hquiet⟩ := hcounts
      obtain ⟨l, -, hl⟩ := h.jobs j (List.mem_of_getElem? hj)
      rw [hpc] at hl
      have hown := own_of_holds (fun r l' hstep => ⟨hquiet, hstep⟩) hl
      refine inv_perform h hj hown hkept fun l _ hl r l' hstep future => ?_
      rw [hpc] at hl
      exact (hl r l' ⟨hquiet, hstep⟩).2
  · rcases p with ⟨⟩ | e | ⟨op, k⟩ <;> cases hnext
    · refine inv_setPc h hj fun l _ hl => ?_
      rw [hpc] at hl
      exact hl
    · refine inv_setPc h hj fun l _ hl => ?_
      rw [hpc] at hl
      exact hl
    · obtain ⟨l, -, hl⟩ := h.jobs j (List.mem_of_getElem? hj)
      rw [hpc] at hl
      have hown := own_of_holds (fun r l' hstep => hstep) hl
      refine inv_perform h hj hown hcounts fun l _ hl r l' hstep future => ?_
      rw [hpc] at hl
      exact (hl r l' hstep).2
  · cases hnext

theorem getById_append_ne (store : Store) {row : Job} {id : String} (hne : id ≠ row.id) :
    Store.getById (store ++ [row]) id = Store.getById store id := by
  unfold Store.getById
  rw [List.find?_append, List.find?_singleton, if_neg, Option.or_none]
  simpa using Ne.symm hne

theorem getById_append_new {store : Store} {row : Job} (hnew : store.getById row.id = none) :
    Store.getById (store ++ [row]) row.id = some row := by
  unfold Store.getById at hnew ⊢
  rw [List.find?_append, hnew, List.find?_singleton, if_pos (decide_eq_true rfl), Option.none_or]

theorem inv_insert {row : Job} {store : Store} (h : Inv s) (hqueued : row.status = .queued)
    (hcreate : s.world.store.createQueued row = .ok store) :
    Inv { s with
      world := { s.world with store := store }
      jobs := s.jobs ++ [⟨row, .inserted⟩] } := by
  unfold Store.createQueued at hcreate
  split at hcreate
  · rename_i hnew
    cases hcreate
    have hfresh : row.id ∉ s.jobs.map (·.job.id) := by
      rw [← h.ids]
      intro hin
      obtain ⟨old, hold, hid⟩ := List.mem_map.mp hin
      have hnone := List.find?_eq_none.mp hnew old hold
      exact hnone (decide_eq_true hid)
    refine ⟨?_, ?_, h.recorded, fun e he => ?_, h.coded, fun j hj => ?_⟩
    · rw [List.map_append, List.map_append, h.ids]
      rfl
    · rw [List.map_append, List.nodup_append]
      refine ⟨h.keyed, List.nodup_singleton _, fun a ha b hb hab => ?_⟩
      rw [List.map_singleton, List.mem_singleton] at hb
      subst hab hb
      exact hfresh ha
    · rw [List.map_append]
      exact List.mem_append_left _ (h.about e he)
    · rcases List.mem_append.mp hj with hin | hin
      · obtain ⟨l, hl, hpc⟩ := h.jobs j hin
        have hne : j.job.id ≠ row.id := fun heq => hfresh (heq ▸ List.mem_map_of_mem hin)
        refine ⟨l, ⟨?_, hl.queued, hl.completed, hl.failed, hl.intact⟩, hpc⟩
        rw [← hl.status]
        exact congrArg (Option.map (·.status)) (getById_append_ne _ hne)
      · rw [List.mem_singleton] at hin
        subst hin
        have hnone : ∀ status, s.count row.id status = 0 := by
          intro status
          unfold State.count
          rw [List.countP_eq_zero]
          intro e he
          have hne : e.job ≠ row.id := fun heq => hfresh (heq ▸ h.about e he)
          simp [hne]
        refine ⟨fresh, ⟨?_, hnone _, hnone _, hnone _, rfl⟩, rfl⟩
        exact (congrArg (Option.map (·.status)) (getById_append_new hnew)).trans
          (congrArg some hqueued)
  · cases hcreate

theorem inv_recordQueued (h : Inv s) {job : Job} (hj : s.jobs[i]? = some ⟨job, .inserted⟩) :
    Inv (recordQueued s i ⟨job, .inserted⟩) := by
  obtain ⟨l, hl, hok⟩ := h.jobs _ (List.mem_of_getElem? hj)
  have hfresh : l = fresh := hok
  subst hfresh
  refine inv_set [⟨job.id, "queued", none⟩] h hj rfl rfl (fun _ _ => rfl) rfl rfl ?_
    ⟨counted, ⟨hl.status, ?_, ?_, ?_, rfl⟩, rfl⟩
  · intro e he
    rw [List.mem_singleton] at he
    subst he
    exact ⟨rfl, rfl⟩
  all_goals
    unfold State.count recordQueued
    dsimp only
    rw [count_append]
  · rw [show (s.events.countP _) = 0 from hl.queued]
    simp [counted]
  · rw [show (s.events.countP _) = 0 from hl.completed]
    simp [counted]
  · rw [show (s.events.countP _) = 0 from hl.failed]
    simp [counted]

theorem status_flag {w : Write} (hw : isFlag w = true) (now : Nat) (row : Job) :
    (w.change now row).status = row.status := by
  cases w with
  | setFetched id =>
    simp only [Write.change, Job.setFetched]
    split <;> rfl
  | markInitialResponseDelivered id =>
    simp only [Write.change, Job.markInitialResponseDelivered]
    split <;> rfl
  | markResponseDelivered id =>
    simp only [Write.change, Job.markResponseDelivered]
    split <;> rfl
  | markAsyncWithHandover id => rfl
  | markHandover id => rfl
  | setWebhookDeliveryStatus id status => rfl
  | _ => cases hw

theorem inv_flag {w : Write} {now : Nat} {store : Store} (h : Inv s) (hw : isFlag w = true)
    (happly : w.apply s.world.store now = .ok store) :
    Inv { s with world := { s.world with store := store } } := by
  have hstore := Write.apply_ok happly
  subst hstore
  have hstatus : ∀ id, ((s.world.store.update w.target (w.change now)).getById id).map (·.status) =
      s.world.status id := by
    intro id
    rw [Store.getById_update _ _ _ (Write.change_id now w), Option.map_map]
    unfold World.status
    congr 1
    funext row
    simp only [Function.comp_apply]
    split
    · exact status_flag hw now row
    · rfl
  refine ⟨?_, h.keyed, h.recorded, h.about, h.coded, fun j hj => ?_⟩
  · rw [← h.ids]
    dsimp only
    rw [Store.update, List.map_map]
    refine List.map_congr_left fun row _ => ?_
    simp only [Function.comp_apply]
    split
    · exact Write.change_id now w row
    · rfl
  · obtain ⟨l, hl, hpc⟩ := h.jobs j hj
    exact ⟨l, ⟨(hstatus _).trans hl.status, hl.queued, hl.completed, hl.failed, hl.intact⟩, hpc⟩

theorem inv_next {a : Label G} (h : Inv s) (hok : CountsOnce s a) (hnext : next s a = some s') :
    Inv s' := by
  cases a with
  | insert r id now =>
    simp only [next] at hnext
    split at hnext
    · cases hnext
      exact h
    · rename_i hcreate
      cases hnext
      exact inv_insert h rfl hcreate
  | insertRaises i => exact hok.elim
  | record i =>
    simp only [next] at hnext
    split at hnext <;> cases hnext
    rename_i job hj
    exact inv_recordQueued h hj
  | enqueue i =>
    simp only [next] at hnext
    split at hnext <;> cases hnext
    rename_i job hj
    exact inv_setPc h hj fun l _ hl => hl
  | giveUp i =>
    simp only [next] at hnext
    split at hnext <;> cases hnext
    rename_i job hj
    refine inv_setPc h hj fun l _ hl => ?_
    have hl' : l = counted := hl
    subst hl'
    exact ⟨rfl, rfl, rfl, by decide⟩
  | take i svc =>
    simp only [next] at hnext
    split at hnext <;> cases hnext
    rename_i job future hj
    refine inv_setPc h hj fun l _ hl => ?_
    have hl' : l = counted := hl
    subst hl'
    exact outcome_runPipeline svc job rfl not_terminal_queued
  | work i env =>
    simp only [next] at hnext
    split at hnext
    · rename_i j hj
      exact inv_work h hj hok hnext
    · cases hnext
  | flag w now =>
    simp only [next] at hnext
    split at hnext
    · rename_i hw
      split at hnext <;> cases hnext
      rename_i happly
      exact inv_flag h hw happly
    · cases hnext

end Invariant

/-! ## The totals -/

theorem countP_add {α : Type} {p q r : α → Bool} (xs : List α)
    (h : ∀ x, (p x = true ↔ q x = true ∨ r x = true) ∧ ¬ (q x = true ∧ r x = true)) :
    xs.countP p = xs.countP q + xs.countP r := by
  induction xs with
  | nil => rfl
  | cons x rest ih =>
    obtain ⟨hp, hqr⟩ := h x
    simp only [List.countP_cons, ih]
    rcases hq : q x <;> rcases hr : r x <;> rcases hpx : p x <;>
      simp only [hq, hr, hpx] at hp hqr <;> simp at hp hqr ⊢ <;> omega

/-- The events of a status, by the job that they are about. -/
theorem countP_by_job (events : List Event) (status : String) (ids : List String)
    (hids : ids.Nodup) :
    (events.countP fun e => e.job ∈ ids ∧ e.status = status) =
      (ids.map fun id => events.countP fun e => e.job = id ∧ e.status = status).sum := by
  induction ids with
  | nil => simp
  | cons id rest ih =>
    obtain ⟨hnot, hrest⟩ := List.nodup_cons.mp hids
    rw [List.map_cons, List.sum_cons, ← ih hrest]
    refine countP_add events fun e => ⟨?_, ?_⟩
    · simp only [List.mem_cons, decide_eq_true_eq]
      tauto
    · simp only [decide_eq_true_eq]
      rintro ⟨⟨hjob, -⟩, hin, -⟩
      exact hnot (hjob ▸ hin)

theorem sum_rows {count : String → Nat} {status : JobStatus} (rows : List Job)
    (h : ∀ row ∈ rows, count row.id = if row.status = status then 1 else 0) :
    ((rows.map (·.id)).map count).sum = rows.countP (·.status = status) := by
  induction rows with
  | nil => rfl
  | cons row rest ih =>
    rw [List.map_cons, List.map_cons, List.sum_cons, h row List.mem_cons_self,
      ih fun r hr => h r (List.mem_cons_of_mem _ hr), List.countP_cons]
    simp only [decide_eq_true_eq]
    omega

theorem length_rows (rows : Store) (h : ∀ row ∈ rows, row.status ≠ .abandoned) :
    rows.length = (rows.countP (·.status = .completed)) + (rows.countP (·.status = .failed)) +
      rows.countActive := by
  unfold Store.countActive
  induction rows with
  | nil => rfl
  | cons row rest ih =>
    have hrow := h row List.mem_cons_self
    rw [List.length_cons, ih fun r hr => h r (List.mem_cons_of_mem _ hr)]
    simp only [List.countP_cons]
    rcases hst : row.status with _ | _ | _ | _ | _
    · simp
      omega
    · simp
      omega
    · simp
      omega
    · simp
      omega
    · exact absurd hst hrow

section Totals

variable {s : State G}

/-- Where nothing is in progress each row has the events of its status. -/
theorem balanced_of_quiet (h : Inv s) (hquiet : Quiescent s) :
    ∀ row ∈ s.world.store, s.count row.id "queued" = 1 ∧
      s.count row.id "completed" = (if row.status = .completed then 1 else 0) ∧
      s.count row.id "failed" = (if row.status = .failed then 1 else 0) ∧
      row.status ≠ .abandoned := by
  intro row hrow
  have hid : row.id ∈ s.jobs.map (·.job.id) := by
    rw [← h.ids]
    exact List.mem_map_of_mem hrow
  obtain ⟨j, hj, hjid⟩ := List.mem_map.mp hid
  obtain ⟨l, hl, hpc⟩ := h.jobs j hj
  have hcounted : l = counted → l.Balanced := by
    rintro rfl
    exact ⟨rfl, rfl, rfl, by decide⟩
  have hbalanced : l.Balanced := by
    have hquietj := hquiet j hj
    rcases hjpc : j.pc with _ | _ | future | ⟨future, p⟩ | ⟨future, p⟩ | _ <;>
      rw [hjpc] at hquietj hpc
    · exact hquietj.elim
    · exact hcounted hpc
    · exact hcounted hpc
    · exact hquietj.elim
    · exact hquietj.elim
    · exact hpc
  have hkeyed : s.world.store.Keyed := by
    unfold Store.Keyed
    rw [h.ids]
    exact h.keyed
  have hstatus : row.status = l.status := by
    have hl' := hl.status
    unfold World.status at hl'
    rw [hjid, Store.getById_of_mem hkeyed hrow] at hl'
    exact Option.some.inj hl'
  rw [hstatus, ← hjid, hl.queued, hl.completed, hl.failed]
  exact hbalanced

/-- A count of the collector, row by row. -/
theorem count_events (h : Inv s) (clock : Nat → ℚ) (status : String) :
    (MonitoringMetrics.collect clock (s.world.metrics.getD [])).jobEvents.count status =
      ((s.world.store.map (·.id)).map fun id => s.count id status).sum := by
  rw [MonitoringMetrics.count_collect, h.recorded, Option.getD_some, List.countP_map]
  unfold State.count
  rw [h.ids, ← countP_by_job s.events status _ h.keyed]
  refine List.countP_congr fun e he => ?_
  simp [h.about e he]

end Totals

/-! ## The conservation -/

/-- In every run whose steps count their jobs once: wherever nothing is in
progress, the events add up to the rows, each failed job has one event, and the
counts by error code add up to the failures. -/
theorem job_metrics_are_conserved (clock : Nat → ℚ) (labels : List (Label G)) (s : State G)
    (hok : AllSteps next CountsOnce State.start labels)
    (hrun : runs.exec next State.start labels = some s) (hquiet : Quiescent s) :
    let m := MonitoringMetrics.collect clock (s.world.metrics.getD [])
    m.jobEvents.count "queued" =
        m.jobEvents.count "completed" + m.jobEvents.count "failed" + s.world.store.countActive ∧
      (∀ row ∈ s.world.store, s.count row.id "failed" = if row.status = .failed then 1 else 0) ∧
      m.recentFailures.total = m.jobEvents.count "failed" := by
  intro m
  have h : Inv s :=
    invariant (fun _ _ _ hinv hcounts hnext => inv_next hinv hcounts hnext) inv_start hok hrun
  have hrows := balanced_of_quiet h hquiet
  refine ⟨?_, fun row hrow => (hrows row hrow).2.2.1, ?_⟩
  · have hqueued : m.jobEvents.count "queued" = s.world.store.length := by
      rw [count_events h, List.map_map]
      have hone : ∀ row ∈ s.world.store, ((fun id => s.count id "queued") ∘ (·.id)) row = 1 :=
        fun row hrow => (hrows row hrow).1
      rw [List.map_congr_left hone]
      simp
    rw [hqueued, count_events h, count_events h, sum_rows _ fun row hrow => (hrows row hrow).2.1,
      sum_rows _ fun row hrow => (hrows row hrow).2.2.1]
    exact length_rows _ fun row hrow => (hrows row hrow).2.2.2
  · rw [MonitoringMetrics.total_collect, MonitoringMetrics.count_collect, h.recorded,
      Option.getD_some, List.countP_map, List.countP_map]
    refine List.countP_congr fun e he => ?_
    have hcoded := h.coded e he
    unfold Coded at hcoded
    simp [hcoded]

/-! ## Two runs -/

def acceptingService : Service Unit :=
  { smallService with validateImage := fun _ => .ok (smallRequest "sdxl") }

def oneRequest : Submission where
  artifact := .image
  modelName := "sdxl"
  raw := .obj [("model", .str "sdxl"), ("prompt", .str "a tree")]
  mode := .sync
  webhookUrl := none
  webhookHeaders := none

/-- One request up to the worker, and then `steps` steps of the worker. -/
def servedBy (svc : Service Unit) (env : Env Unit) (steps : Nat) : List (Label Unit) :=
  [.insert oneRequest "gen_1" 0, .record 0, .enqueue 0, .take 0 svc] ++
    List.replicate steps (.work 0 env)

def reached (labels : List (Label Unit)) : State Unit :=
  (runs.exec next State.start labels).getD State.start

/-- The graph has no node for the prompt, which no report of the pipeline expects. -/
def brokenGraph : Service Unit :=
  { acceptingService with
    injectImage := fun _ _ _ => .error (.other "KeyError" "no anchor %POSITIVE_PROMPT%") }

theorem countsOnce_internal :
    AllSteps next CountsOnce State.start (servedBy brokenGraph (smallEnv willing) 6) := by
  refine ⟨trivial, ?_⟩
  rintro _ ⟨⟩
  refine ⟨trivial, ?_⟩
  rintro _ ⟨⟩
  refine ⟨trivial, ?_⟩
  rintro _ ⟨⟩
  refine ⟨trivial, ?_⟩
  rintro _ ⟨⟩
  -- the draw of the seed
  refine ⟨?_, ?_⟩
  · rintro _ ⟨⟩
    exact ⟨trivial, nofun⟩
  rintro _ ⟨⟩
  -- the exception leaves the pipeline
  refine ⟨?_, ?_⟩
  · rintro _ ⟨⟩
    exact nofun
  rintro _ ⟨⟩
  -- the catch-all writes the row
  refine ⟨?_, ?_⟩
  · rintro _ ⟨⟩
    exact nofun
  rintro _ ⟨⟩
  refine ⟨?_, ?_⟩
  · rintro _ ⟨⟩
    trivial
  rintro _ ⟨⟩
  refine ⟨?_, ?_⟩
  · rintro _ ⟨⟩
    trivial
  rintro _ ⟨⟩
  refine ⟨?_, fun _ _ => trivial⟩
  rintro _ ⟨⟩
  trivial

/-- A job that the catch-all ends is counted once. -/
theorem job_metrics_are_conserved_internal :
    let s := reached (servedBy brokenGraph (smallEnv willing) 6)
    s.events.map (·.status) = ["queued", "failed"] ∧
      let m := MonitoringMetrics.collect (fun _ => 0) (s.world.metrics.getD [])
      m.jobEvents.count "queued" =
          m.jobEvents.count "completed" + m.jobEvents.count "failed" +
            s.world.store.countActive := by
  refine ⟨rfl, ?_⟩
  refine (job_metrics_are_conserved (fun _ => 0) _ _ countsOnce_internal rfl ?_).1
  intro j hj
  have hover : j.pc = .over := by
    rcases List.mem_singleton.mp hj with rfl
    rfl
  rw [hover]
  trivial

/-- The backend cannot be reached: the pipeline counts the failure, and so does
`_process_one`. -/
def unreachable : (c : Call Unit) → Except Exc c.Ans
  | .submit _ _ => .error (.comfyUnreachable "no route to host")
  | c => willing c

theorem an_unreachable_backend_is_counted_twice :
    ∃ s, runs.exec next State.start (servedBy acceptingService (smallEnv unreachable) 9) = some s ∧
      Quiescent s ∧
      let m := MonitoringMetrics.collect (fun _ => 0) (s.world.metrics.getD [])
      m.jobEvents.count "queued" = 1 ∧ m.jobEvents.count "completed" = 0 ∧
        m.jobEvents.count "failed" = 2 ∧ s.world.store.countActive = 0 ∧
        s.count "gen_1" "failed" = 2 ∧
        ¬ m.jobEvents.count "queued" =
          m.jobEvents.count "completed" + m.jobEvents.count "failed" +
            s.world.store.countActive := by
  refine ⟨_, rfl, ?_, by decide, by decide, by decide, by decide, by decide, by decide⟩
  intro j hj
  have hover : j.pc = .over := by
    rcases List.mem_singleton.mp hj with rfl
    rfl
  rw [hover]
  trivial

end image_gen.metrics_conservation

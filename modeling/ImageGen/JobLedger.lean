-- The row of one job and the events about it, along a pipeline that counts no
-- failure of its own: it ends completed, or active, or failed by one of the two
-- reports that leave the count to `_process_one`.
import ImageGen.Metrics
import ImageGen.Worker

namespace image_gen.job_ledger

open image_gen.coroutine image_gen.json image_gen.job_store image_gen.requests image_gen.worker
  image_gen.metrics

variable {G α β : Type}

/-! ## One job -/

/-- A failure has a code, and nothing else has. -/
def Coded (status : String) (errorCode : Option String) : Prop :=
  MonitoringMetrics.truthy errorCode = decide (status = "failed")

instance (status : String) (errorCode : Option String) : Decidable (Coded status errorCode) := by
  unfold Coded; infer_instance

/-- The row of a job, and the events about it. -/
structure Ledger where
  status : JobStatus
  queued : Nat
  completed : Nat
  failed : Nat
  /-- No other row was written, and each event was coded. -/
  intact : Bool

namespace Ledger

def record (status : String) (l : Ledger) : Ledger :=
  { l with
    queued := l.queued + if status = "queued" then 1 else 0
    completed := l.completed + if status = "completed" then 1 else 0
    failed := l.failed + if status = "failed" then 1 else 0 }

def goTo (status : JobStatus) (l : Ledger) : Ledger := { l with status := status }

/-- The events that a row with this status should have. -/
def Balanced (l : Ledger) : Prop :=
  l.queued = 1 ∧ l.completed = (if l.status = .completed then 1 else 0) ∧
    l.failed = (if l.status = .failed then 1 else 0) ∧ l.status ≠ .abandoned

end Ledger

/-- A write that has no effect when it raises. -/
def Moves (target : JobStatus) (l : Ledger) : Except Exc Unit → Ledger → Prop
  | .ok _, l' => target ∈ allowedTransitions l.status ∧ l' = l.goTo target
  | .error _, l' => l' = l

/-- What an operation makes of the job. `set_running` may raise after its commit. -/
def Step (id : String) : (op : Op G) → Ledger → Except Exc op.Ans → Ledger → Prop
  | .setRunning i _ _, l, r, l' =>
    if i = id then Moves .running l r l' ∨
      (.running ∈ allowedTransitions l.status ∧ l' = l.goTo .running)
    else l'.intact = false
  | .setCompleted i _ _, l, r, l' => if i = id then Moves .completed l r l' else l'.intact = false
  | .setFailed i _ _, l, r, l' => if i = id then Moves .failed l r l' else l'.intact = false
  | .recordJobEvent status code, l, r, l' =>
    r = .ok () ∧ if Coded status code then l' = l.record status else l'.intact = false
  | .setLastModelName _, l, r, l' => r = .ok () ∧ l' = l
  | _, l, _, l' => l' = l

/-- A step of a pipeline that counts no failure. -/
def QuietStep (id : String) (op : Op G) (l : Ledger) (r : Except Exc op.Ans) (l' : Ledger) : Prop :=
  (∀ code, op ≠ .recordJobEvent "failed" code) ∧ Step id op l r l'

/-! ## The stages of a pipeline -/

section Stages

/-- The program leaves the job intact and ends in `Q`. -/
abbrev Quietly (id : String) (Q : Except Exc α → Ledger → Prop) (p : Prog G α) (l : Ledger) : Prop :=
  p.Holds (QuietStep id) (fun l' => l'.intact = true) Q l

/-- The row and the counts stay. -/
def Stays (id : String) (p : Prog G α) (l : Ledger) : Prop := Quietly id (fun _ l' => l' = l) p l

variable {svc : Service G} {job : Job} {p : Prepared G} {l : Ledger}

theorem stays_pure {id : String} (a : α) : Stays id (pure a : Prog G α) l := rfl

theorem stays_throw {id : String} (e : Exc) : Stays id (throw e : Prog G α) l := rfl

theorem stays_ofExcept {id : String} (r : Except Exc α) : Stays id (Co.ofExcept r : Prog G α) l := by
  cases r <;> rfl

/-- A program that stays, before one that ends in `Q` from there. -/
theorem quietly_bind {id : String} {q : Prog G α} {f : α → Prog G β}
    {Q : Except Exc β → Ledger → Prop} (hq : Stays id q l) (herror : ∀ e, Q (.error e) l)
    (hf : ∀ a, Quietly id Q (f a) l) : Quietly id Q (q >>= f) l := by
  refine Co.holds_bind (Co.Holds.mono hq ?_)
  rintro (e | a) l' rfl
  · exact herror e
  · exact hf a

theorem stays_bind {id : String} {q : Prog G α} {f : α → Prog G β} (hq : Stays id q l)
    (hf : ∀ a, Stays id (f a) l) : Stays id (q >>= f) l :=
  quietly_bind hq (fun _ => rfl) hf

theorem stays_tryCatch {id : String} {q : Prog G α} {h : Exc → Prog G α} (hq : Stays id q l)
    (hh : ∀ e, Stays id (h e) l) : Stays id (tryCatch q h) l := by
  refine Co.holds_tryCatch (Co.Holds.mono hq ?_)
  rintro (e | a) l' rfl
  · exact hh e
  · rfl

theorem stays_exceptException {id : String} {q : Prog G α} {h : Exc → Prog G α}
    (hq : Stays id q l) (hh : ∀ e, Stays id (h e) l) : Stays id (exceptException q h) l := by
  refine stays_tryCatch hq fun e => ?_
  split
  · exact hh e
  · exact stays_throw e

/-- The operations that touch neither the row nor the metrics. -/
def Plain : Op G → Prop
  | .call _ => True
  | .lastModelName => True
  | .headroomChecked _ _ => True
  | .durationMs => True
  | .randbelow => True
  | _ => False

theorem stays_ask {id : String} (hl : l.intact = true) {op : Op G} (hop : Plain op) :
    Stays id (ask op) l := by
  refine Co.holds_call op l ?_
  rintro r l' ⟨-, hstep⟩
  have hl' : l' = l := by
    cases op with
    | call c => exact hstep
    | lastModelName => exact hstep
    | headroomChecked model ok => exact hstep
    | durationMs => exact hstep
    | randbelow => exact hstep
    | _ => exact hop.elim
  exact ⟨hl' ▸ hl, hl'⟩

/-- A report whose write raises. When it does not, the failure is counted. -/
theorem quietly_failJob (hl : l.intact = true) (code message : String) (e : Exc) :
    Quietly job.id (fun r l' => l' = l ∧ ∃ e', r = .error e')
      (failJob job code message e : Prog G α) l := by
  refine Co.holds_bind (Co.holds_call _ l ?_)
  rintro (e' | _) l' ⟨-, hstep⟩ <;> simp only [Step, if_true, Moves] at hstep
  · subst hstep
    exact ⟨hl, rfl, e', rfl⟩
  · obtain ⟨-, rfl⟩ := hstep
    refine ⟨hl, Co.holds_bind (Co.holds_call _ _ ?_)⟩
    rintro r l' ⟨hcounted, -⟩
    exact absurd rfl (hcounted (some code))

theorem stays_failJob (hl : l.intact = true) (code message : String) (e : Exc) :
    Stays job.id (failJob job code message e : Prog G α) l :=
  Co.Holds.mono (quietly_failJob hl code message e) fun _ _ h => h.1

theorem stays_uploadInitImage (hl : l.intact = true) :
    Stays job.id (uploadInitImage svc job p) l := by
  unfold uploadInitImage uploadImage
  split
  · exact stays_pure _
  · refine stays_bind (stays_tryCatch (stays_ask hl trivial) fun e => ?_) fun _ => stays_ofExcept _
    split
    · exact stays_failJob hl _ _ _
    · exact stays_throw _

theorem stays_hasSwapHeadroom (hl : l.intact = true) (model : ModelConfig) :
    Stays job.id (hasSwapHeadroom svc model) l := by
  unfold hasSwapHeadroom
  split
  · refine stays_bind (stays_exceptException (stays_bind (stays_ask hl trivial) fun _ =>
      stays_pure _) fun _ => stays_pure _) fun snapshot => ?_
    split
    · exact stays_pure _
    · exact stays_bind (stays_ask hl trivial) fun _ => stays_pure _
  · exact stays_pure _

theorem stays_enforceSwap (hl : l.intact = true) (model : ModelConfig) :
    Stays job.id (enforceSwap svc job model) l := by
  unfold enforceSwap
  refine stays_bind (stays_ask hl trivial) fun last => ?_
  split
  · exact stays_pure _
  split
  · exact stays_pure _
  refine stays_bind (stays_ask hl trivial) fun unloaded => ?_
  split
  · exact stays_pure _
  refine stays_bind (stays_hasSwapHeadroom hl model) fun ok => ?_
  split
  · exact stays_pure _
  · exact stays_failJob hl _ _ _

theorem stays_submit (hl : l.intact = true) (model : ModelConfig) (graph : G) :
    Stays job.id (submit job model graph) l := by
  refine stays_tryCatch (stays_ask hl trivial) fun e => ?_
  split
  · exact stays_failJob hl _ _ _
  · exact stays_failJob hl _ _ _
  · exact stays_throw _

theorem stays_safeCancel (hl : l.intact = true) (promptId : String) :
    Stays job.id (safeCancel promptId : Prog G Unit) l :=
  stays_exceptException (stays_ask hl trivial) fun _ => stays_pure _

theorem stays_safeFree (hl : l.intact = true) : Stays job.id (safeFree : Prog G Unit) l :=
  stays_exceptException (stays_bind (stays_ask hl trivial) fun _ => stays_pure _) fun _ =>
    stays_pure _

theorem stays_awaitCompletion (hl : l.intact = true) (promptId : String) (timeoutS : PyFloat) :
    Stays job.id (awaitCompletion job promptId timeoutS : Prog G Unit) l := by
  refine stays_tryCatch (stays_ask hl trivial) fun e => ?_
  split
  · exact stays_bind (stays_safeCancel hl promptId) fun _ =>
      stays_bind (stays_safeFree hl) fun _ => stays_failJob hl _ _ _
  · exact stays_failJob hl _ _ _
  · exact stays_throw _

theorem stays_orUnreachable (hl : l.intact = true) {q : Prog G α} (hq : Stays job.id q l) :
    Stays job.id (orUnreachable job q) l := by
  refine stays_tryCatch hq fun e => ?_
  split
  · exact stays_failJob hl _ _ _
  · exact stays_throw _

theorem stays_orStorage (hl : l.intact = true) {q : Prog G α} (hq : Stays job.id q l) :
    Stays job.id (orStorage job q) l := by
  refine stays_tryCatch hq fun e => ?_
  split
  · exact stays_failJob hl _ _ _
  · exact stays_throw _

theorem stays_uploadPngs (hl : l.intact = true) (images : List Bytes) (idx : Nat) :
    Stays job.id (uploadPngs job idx images : Prog G (List String)) l := by
  induction images generalizing idx with
  | nil => exact stays_pure _
  | cons png rest ih =>
    exact stays_bind (stays_ask hl trivial) fun _ => stays_bind (ih _) fun _ => stays_pure _

theorem stays_uploadBlobs (hl : l.intact = true) (blobs : List (Bytes × String)) (idx : Nat) :
    Stays job.id (uploadBlobs svc job idx blobs) l := by
  induction blobs generalizing idx with
  | nil => exact stays_pure _
  | cons blob rest ih =>
    refine stays_bind ?_ fun _ => stays_bind (ih _) fun _ => stays_pure _
    unfold uploadBlob
    split <;> exact stays_ask hl trivial

end Stages

/-! ## A pipeline -/

section Pipeline

variable {svc : Service G} {job : Job} {p : Prepared G} {l : Ledger}

/-- How a pipeline that started from `l` ends: completed, or active, or failed
by a report that counts nothing. -/
def Outcome (l : Ledger) : Except Exc α → Ledger → Prop
  | .ok _, l' => l' = l.goTo .completed
  | .error e, l' =>
    (∃ status, ¬ status.Terminal ∧ l' = l.goTo status) ∨
      e.isBackendOrStorage = true ∧ l' = l.goTo .failed

theorem outcome_raised (hopen : ¬ l.status.Terminal) (e : Exc) :
    Outcome l (.error e : Except Exc α) l := Or.inl ⟨l.status, hopen, rfl⟩

theorem outcome_failJob (hl : l.intact = true) (hopen : ¬ l.status.Terminal)
    (code message : String) (e : Exc) :
    Quietly job.id (Outcome l) (failJob job code message e : Prog G α) l := by
  refine Co.Holds.mono (quietly_failJob hl code message e) ?_
  rintro r l' ⟨rfl, e', rfl⟩
  exact outcome_raised hopen e'

/-- The two reports that count nothing. -/
theorem outcome_uncounted (hl : l.intact = true) (hopen : ¬ l.status.Terminal)
    (code message : String) {e : Exc} (he : e.isBackendOrStorage = true) :
    Quietly job.id (Outcome l)
      (do
        setFailed job.id code message
        throw e : Prog G α) l := by
  refine Co.holds_bind (Co.holds_call _ l ?_)
  rintro (e' | _) l' ⟨-, hstep⟩ <;> simp only [Step, if_true, Moves] at hstep
  · subst hstep
    exact ⟨hl, outcome_raised hopen e'⟩
  · obtain ⟨-, rfl⟩ := hstep
    exact ⟨hl, Or.inr ⟨he, rfl⟩⟩

theorem outcome_raiseFailure (hl : l.intact = true) (hopen : ¬ l.status.Terminal)
    (failure : PrepareFailure) :
    Quietly job.id (Outcome l) (raiseFailure job failure : Prog G α) l := by
  rcases failure with ⟨code, message, counted, raised⟩ | ⟨kind, message⟩
  · cases counted
    · exact outcome_uncounted hl hopen code message rfl
    · exact outcome_failJob hl hopen code message _
  · exact outcome_raised hopen _

/-- The step to `running`, which may stand although it raised. -/
theorem quietly_markRunning (hl : l.intact = true) (promptId : String) :
    Quietly job.id (fun r l' => l' = l.goTo .running ∨ l' = l ∧ ∃ e, r = .error e)
      (markRunning svc job promptId) l := by
  unfold markRunning exceptException
  have hcatch : ∀ (e : Exc) (l' : Ledger), l'.intact = true →
      Stays job.id (if e.isException then
          (do
            safeCancel promptId
            throw (.comfyNode ("set_running failed: " ++ e.text)) : Prog G Unit)
        else throw e) l' := by
    intro e l' hl'
    split
    · exact stays_bind (stays_safeCancel hl' promptId) fun _ => stays_throw _
    · exact stays_throw _
  have hraises : ∀ (e : Exc),
      Quietly job.id (fun r l' => l' = l.goTo .running ∨ l' = l ∧ ∃ e, r = .error e)
        (if e.isException then
          (do
            safeCancel promptId
            throw (.comfyNode ("set_running failed: " ++ e.text)) : Prog G Unit)
        else throw e) l := by
    intro e
    split
    · exact quietly_bind (stays_safeCancel hl promptId) (fun e' => Or.inr ⟨rfl, e', rfl⟩)
        fun _ => Or.inr ⟨rfl, _, rfl⟩
    · exact Or.inr ⟨rfl, e, rfl⟩
  refine Co.holds_tryCatch (Co.holds_bind (Co.holds_call _ l ?_))
  rintro (e | _) l' ⟨-, hstep⟩ <;> simp only [Step, if_true, Moves] at hstep
  · rcases hstep with rfl | ⟨-, rfl⟩
    · exact ⟨hl, hraises e⟩
    · exact ⟨hl, Co.Holds.mono (hcatch e _ hl) fun _ _ h => Or.inl h⟩
  · have hl' : l' = l.goTo .running := by
      rcases hstep with ⟨-, h⟩ | ⟨-, h⟩ <;> exact h
    subst hl'
    refine ⟨hl, Co.holds_call _ _ ?_⟩
    rintro r l' ⟨-, rfl, hcoded⟩
    rw [if_pos (show Coded "running" none by decide)] at hcoded
    subst hcoded
    exact ⟨hl, Or.inl rfl⟩

theorem outcome_finish (hl : l.intact = true) (hopen : ¬ l.status.Terminal)
    (outputKeys : List String) (data : List DataEntry) :
    Quietly job.id (Outcome l) (finish job p outputKeys data : Prog G JobResult) l := by
  refine quietly_bind (stays_ask hl trivial) (outcome_raised hopen) fun durationMs => ?_
  refine Co.holds_bind (Co.holds_call _ l ?_)
  rintro (e | _) l' ⟨-, hstep⟩ <;> simp only [Step, if_true, Moves] at hstep
  · subst hstep
    exact ⟨hl, outcome_raised hopen e⟩
  · obtain ⟨-, rfl⟩ := hstep
    refine ⟨hl, Co.holds_bind (Co.holds_call _ _ ?_)⟩
    rintro r l' ⟨-, rfl, rfl⟩
    exact ⟨hl, rfl⟩

theorem outcome_deliverImages (hl : l.intact = true) (hopen : ¬ l.status.Terminal)
    (transparentBackground : Bool) (promptId : String) :
    Quietly job.id (Outcome l) (deliverImages svc job p transparentBackground promptId) l := by
  refine quietly_bind (stays_orUnreachable hl (stays_ask hl trivial)) (outcome_raised hopen)
    fun images => ?_
  split
  · exact outcome_failJob hl hopen _ _ _
  split
  · exact outcome_failJob hl hopen _ _ _
  · exact quietly_bind (stays_orStorage hl (stays_uploadPngs hl _ _)) (outcome_raised hopen)
      fun keys => outcome_finish hl hopen _ _

theorem outcome_deliverMedia (hl : l.intact = true) (hopen : ¬ l.status.Terminal)
    (missingFetchMedia zeroOutputs promptId : String) :
    Quietly job.id (Outcome l)
      (deliverMedia svc job p missingFetchMedia zeroOutputs promptId) l := by
  unfold deliverMedia
  split
  · refine quietly_bind (stays_orUnreachable hl (stays_ask hl trivial)) (outcome_raised hopen)
      fun rows => ?_
    split
    · exact outcome_failJob hl hopen _ _ _
    · exact quietly_bind (stays_orStorage hl (stays_uploadBlobs hl _ _)) (outcome_raised hopen)
        fun keys => outcome_finish hl hopen _ _
  · exact outcome_uncounted hl hopen _ _ rfl

theorem outcome_delivered (hl : l.intact = true) (promptId : String) :
    Quietly job.id (Outcome l)
      (match p.product with
        | .image transparentBackground => deliverImages svc job p transparentBackground promptId
        | .video missingFetchMedia zeroOutputs =>
          deliverMedia svc job p missingFetchMedia zeroOutputs promptId)
      (l.goTo .running) := by
  split
  · exact outcome_deliverImages (l := l.goTo .running) hl not_terminal_running _ _
  · exact outcome_deliverMedia (l := l.goTo .running) hl not_terminal_running _ _ _

/-- From the first call to the end of the wait. -/
theorem quietly_generate (hl : l.intact = true) :
    Quietly job.id (fun r l' => l' = l.goTo .running ∨ l' = l ∧ ∃ e, r = .error e)
      (generate svc job p) l := by
  have hbefore : ∀ e : Exc, l = l.goTo .running ∨
      l = l ∧ ∃ e', (.error e : Except Exc String) = .error e' := fun e => Or.inr ⟨rfl, e, rfl⟩
  refine quietly_bind (stays_uploadInitImage hl) hbefore fun graph => ?_
  refine quietly_bind (stays_enforceSwap hl _) hbefore fun _ => ?_
  refine quietly_bind (stays_submit hl _ _) hbefore fun promptId => ?_
  refine Co.holds_bind (Co.Holds.mono (quietly_markRunning hl promptId) ?_)
  rintro (e | _) l' (rfl | ⟨rfl, e', he⟩)
  · exact Or.inl rfl
  · exact hbefore e
  · refine quietly_bind (stays_ofExcept _) (fun _ => Or.inl rfl) fun timeoutS => ?_
    exact quietly_bind (stays_awaitCompletion (l := l.goTo .running) hl _ _)
      (fun _ => Or.inl rfl) fun _ => Or.inl rfl
  · cases he

theorem outcome_runPrepared (hl : l.intact = true) (hopen : ¬ l.status.Terminal) :
    Quietly job.id (Outcome l) (runPrepared svc job p) l := by
  refine Co.holds_bind (Co.Holds.mono (quietly_generate hl) ?_)
  rintro (e | promptId) l' (rfl | ⟨rfl, e', he⟩)
  · exact Or.inl ⟨_, not_terminal_running, rfl⟩
  · exact outcome_raised hopen e
  · exact outcome_delivered hl promptId
  · cases he

theorem outcome_runPipeline (svc : Service G) (job : Job) (hl : l.intact = true)
    (hopen : ¬ l.status.Terminal) : Quietly job.id (Outcome l) (runPipeline svc job) l := by
  unfold runPipeline
  refine quietly_bind (stays_ask hl trivial) (outcome_raised hopen) fun drawn => ?_
  split
  · exact outcome_raiseFailure hl hopen _
  · exact outcome_runPrepared hl hopen

end Pipeline

/-! ## The branches of `_process_one` -/

section Branches

variable {job : Job} {l : Ledger}

/-- What a branch has to leave behind. -/
abbrev Settles (id : String) (p : Prog G Unit) (l : Ledger) : Prop :=
  p.Holds (Step id) (fun l' => l'.intact = true) (fun _ l' => l'.Balanced) l

/-- The row after `set_failed`, or before it, and no event but `queued`. -/
structure Unsettled (l : Ledger) : Prop where
  queued : l.queued = 1
  completed : l.completed = 0
  failed : l.failed = 0
  intact : l.intact = true

theorem Unsettled.goTo (h : Unsettled l) (status : JobStatus) : Unsettled (l.goTo status) :=
  ⟨h.queued, h.completed, h.failed, h.intact⟩

/-- An active row has no more than its `queued` event. -/
theorem Unsettled.balanced (h : Unsettled l) (hopen : ¬ l.status.Terminal) : l.Balanced := by
  rw [terminal_iff] at hopen
  unfold Ledger.Balanced
  rw [h.queued, h.completed, h.failed]
  rcases hst : l.status with _ | _ | _ | _ | _ <;> rw [hst] at hopen <;> simp at hopen ⊢

theorem settles_setResult {id : String} (hl : l.intact = true) (hbalanced : l.Balanced)
    (result : JobResult) : Settles id (setResult result : Prog G Unit) l := by
  refine Co.holds_call _ l ?_
  rintro r l' rfl
  exact ⟨hl, hbalanced⟩

theorem settles_setException {id : String} (hl : l.intact = true) (hbalanced : l.Balanced)
    (e : Exc) : Settles id (setException e : Prog G Unit) l := by
  refine Co.holds_call _ l ?_
  rintro r l' rfl
  exact ⟨hl, hbalanced⟩

/-- The one event of a job that has ended. -/
theorem settles_record {id status : String} {errorCode : Option String} {p : Prog G Unit}
    (hcoded : Coded status errorCode) (hl : l.intact = true)
    (hp : Settles id p (l.record status)) :
    Settles id (recordJobEvent status errorCode >>= fun _ => p) l := by
  refine Co.holds_bind (Co.holds_call _ l ?_)
  rintro r l' ⟨rfl, hstep⟩
  rw [if_pos hcoded] at hstep
  subst hstep
  exact ⟨hl, hp⟩

theorem settles_completedBranch {id : String} (h : Unsettled l) (hst : l.status = .completed)
    (result : JobResult) : Settles id (completedBranch result : Prog G Unit) l := by
  refine settles_record (by decide) h.intact (settles_setResult (l := l.record _) h.intact ?_ _)
  simp [Ledger.Balanced, Ledger.record, h.queued, h.completed, h.failed, hst]

theorem balanced_failed (h : Unsettled l) (hst : l.status = .failed) :
    (l.record "failed").Balanced := by
  simp [Ledger.Balanced, Ledger.record, h.queued, h.completed, h.failed, hst]

theorem coded_className {e : Exc} (he : e.isBackendOrStorage = true) :
    Coded "failed" (some e.className) := by
  cases e <;> first | rfl | cases he

theorem settles_recordedBranch {id : String} (h : Unsettled l) (hst : l.status = .failed)
    {e : Exc} (he : e.isBackendOrStorage = true) :
    Settles id (recordedBranch e : Prog G Unit) l :=
  settles_record (coded_className he) h.intact
    (settles_setException (l := l.record _) h.intact (balanced_failed h hst) e)

theorem settles_unexpectedBranch (h : Unsettled l) (hopen : ¬ l.status.Terminal) (e : Exc) :
    Settles job.id (unexpectedBranch job e : Prog G Unit) l := by
  refine Co.holds_bind (Co.holds_call _ l ?_)
  rintro (e' | _) l' hstep <;> simp only [Step, if_true, Moves] at hstep
  · subst hstep
    exact ⟨h.intact, h.balanced hopen⟩
  · obtain ⟨-, rfl⟩ := hstep
    have hfailed := h.goTo .failed
    exact ⟨h.intact, settles_record (by decide) hfailed.intact
      (settles_setException (l := (l.goTo .failed).record _) h.intact
        (balanced_failed hfailed rfl) e)⟩

end Branches

end image_gen.job_ledger

-- The two error codes of a failed job. The row's code is chosen where the
-- pipeline fails, and the HTTP code is derived from the class of the exception
-- that the future carries: a code that is wrapped in a `ComfyNodeError` is lost.
import ImageGen.WorkerTerminal

namespace image_gen.error_codes

open image_gen.coroutine image_gen.json image_gen.job_store image_gen.requests image_gen.worker
open image_gen.worker_terminal (Site Calls initImageCalls headroomCalls deliveryCalls orStop atSite)

variable {G α β γ δ : Type}

/-! ## The two channels -/

/-- The code of the error body: `_run_sync_job` and `_run_video_job` name four
classes, and the last-resort handler of `app/errors.py` answers for the rest. -/
def httpCode : Exc → String
  | .comfyUnreachable _ => "comfy_unreachable"
  | .comfyTimeout _ => "comfy_timeout"
  | .comfyNode _ => "comfy_error"
  | .storage _ => "storage_error"
  | .store _ => "internal"
  | .other _ _ => "internal"
  | .cancelled => "internal"

/-- The code in the row, which polling and the webhook report. -/
def rowCode (id : String) (w : World) : Option String :=
  (w.store.getById id).bind (·.errorCode)

/-- What the handler is told agrees with the row. -/
def Agrees (svc : Service G) (env : Env G) (job : Job) (w : World) : Prop :=
  let w' := ((processOne (runPipeline svc job) job).run (exec env) w).2
  ∀ e, w'.future = some (.exception e) → rowCode job.id w' = some (httpCode e)

/-! ## Where a job fails -/

/-- Why a job makes no further call. -/
inductive Halt
  | raised (site : Site) (e : Exc)
  /-- `set_failed` with a code, and then a `ComfyNodeError`. -/
  | wrapped (code : String)
  /-- `set_running` raised, and nothing was written for it. -/
  | notRunning
  /-- The code and the class belong together, or no answer is given. -/
  | stopped
  deriving DecidableEq

abbrev Fate (α : Type) := Except Halt α

def Halt.ofCalls : worker_terminal.Halt → Halt
  | .raised site e => .raised site e
  | .stopped => .stopped

def ofCalls (c : Calls α) : Fate α := c.mapError Halt.ofCalls

/-- As `enforceSwap`, on the answers of the backend. -/
def swapFate (svc : Service G) (env : Env G) (last : Option String) (model : ModelConfig) :
    Fate Unit :=
  match last with
  | none => .ok ()
  | some name =>
    if name = model.name then .ok ()
    else do
      let unloaded ← ofCalls (atSite .unloadModels (env.backend .unloadModels))
      if unloaded then .ok ()
      else
        let ok ← ofCalls (headroomCalls svc env model)
        if ok then .ok () else .error (.wrapped "vram_budget_exceeded")

/-- The first store write of a job that has been submitted, the `writes`-th of
the worker. -/
def runningFate (env : Env G) (writes : Nat) (promptId : String) : Fate Unit :=
  match env.fault writes with
  | none => .ok ()
  | some ⟨_, .cancelled⟩ => .error .stopped
  | some ⟨_, .error _⟩ =>
    match env.backend (.cancel promptId) with
    | .ok _ => .error .notRunning
    | .error e => if e.isException then .error .notRunning else .error .stopped

def generateFate (svc : Service G) (env : Env G) (writes : Nat) (last : Option String)
    (p : Prepared G) : Fate String := do
  let graph ← ofCalls (initImageCalls svc env p)
  swapFate svc env last p.model
  let promptId ← ofCalls (atSite .submit (env.backend (.submit p.model.name graph)))
  runningFate env writes promptId
  let timeoutS ← ofCalls (orStop (waitTimeout svc p))
  ofCalls (atSite .wait (env.backend (.waitForCompletion promptId timeoutS)))
  return promptId

/-- Where the pipeline of a job ends, from the answers of the backend. -/
def fate (svc : Service G) (env : Env G) (job : Job) (writes : Nat) (last : Option String) :
    Fate (List String) :=
  match prepare svc job env.randbelow with
  | .error (.reported code _ _ _) => .error (.wrapped code)
  | .error (.escaped _ _) => .error .stopped
  | .ok p => do
    let promptId ← generateFate svc env writes last p
    ofCalls (deliveryCalls svc env job p promptId)

/-- The two codes differ here. -/
def Halt.Misreports (env : Env G) (writes : Nat) : Halt → Prop
  | .raised site e => e.isBackendOrStorage = true ∧ site.records e = false
  | .wrapped code => code ≠ "comfy_error" ∧ env.fault writes = none
  | .notRunning => True
  | .stopped => False

/-- The job ends where the two codes differ. -/
def Misreports (svc : Service G) (env : Env G) (job : Job) (w : World) : Prop :=
  ∃ halt, fate svc env job w.storeWrites w.lastModelName = .error halt ∧
    halt.Misreports env w.storeWrites

/-! ## What the handler and the row are told -/

/-- How a pipeline leaves the job when it raises `e` where it halts. `writes`
is the number of store writes before the job. -/
def Told (env : Env G) (id : String) (writes : Nat) (halt : Halt) (e : Exc) (w : World) : Prop :=
  w.future = some .pending ∧
    match halt with
    | .raised site e' =>
      if site.records e' then e.isBackendOrStorage = true → rowCode id w = some (httpCode e)
      else e = e' ∧ rowCode id w = none
    | .wrapped code =>
      if env.fault writes = none then (∃ m, e = .comfyNode m) ∧ rowCode id w = some code
      else e.isBackendOrStorage = false
    | .notRunning => (∃ m, e = .comfyNode m) ∧ rowCode id w = none
    | .stopped => e.isBackendOrStorage = true → rowCode id w = some (httpCode e)

/-- The job before its first store write. -/
structure Queued (id : String) (writes : Nat) (last : Option String) (w : World) : Prop where
  row : w.status id = some .queued
  code : rowCode id w = none
  writes_eq : w.storeWrites = writes
  last_eq : w.lastModelName = last
  pending : w.future = some .pending

/-- The job after `set_running`. -/
structure Running (id : String) (w : World) : Prop where
  code : rowCode id w = none
  pending : w.future = some .pending

/-- Neither channel has an error yet, and no call to the backend changes that. -/
structure Steady (G : Type) (id : String) (P : World → Prop) : Prop where
  code : ∀ w, P w → rowCode id w = none
  pending : ∀ w, P w → w.future = some .pending
  observe : ∀ w (c : Call G) (a : c.Ans), P w → P (w.observe c a)

theorem steady_queued (id : String) (writes : Nat) (last : Option String) :
    Steady G id (Queued id writes last) where
  code _ h := h.code
  pending _ h := h.pending
  observe w c a h := by
    cases c <;> exact ⟨h.row, h.code, h.writes_eq, h.last_eq, h.pending⟩

theorem steady_running (id : String) : Steady G id (Running id) where
  code _ h := h.code
  pending _ h := h.pending
  observe w c a h := by cases c <;> exact ⟨h.code, h.pending⟩

/-! ## The writes of a failure -/

section Writes

variable {env : Env G} {id : String}

theorem execStore_future (env : Env G) (w : World)
    (write : Store → Nat → Except StoreError Store) :
    (execStore env w write).2.future = w.future := by
  unfold execStore
  dsimp only
  split
  · rfl
  split
  · rfl
  split <;> rfl

/-- The store raises no Backend or Storage class. -/
theorem execStore_error {w : World} {write : Store → Nat → Except StoreError Store} {e : Exc}
    (h : (execStore env w write).1 = .error e) : e.isBackendOrStorage = false := by
  have hexc : ∀ r : StoreRaise, r.exc.isBackendOrStorage = false := by
    intro r
    cases r <;> rfl
  unfold execStore at h
  dsimp only at h
  split at h
  · cases h
    exact hexc _
  split at h
  · cases h
    rfl
  split at h
  · cases h
  · cases h
    exact hexc _

theorem exec_setFailed (env : Env G) (id code message : String) (w : World) :
    exec env (.setFailed id code message) w =
      execStore env w fun s now => s.setFailed id code message now := rfl

theorem exec_setFailed_ok {w w' : World} {code message : String}
    (h : exec env (.setFailed id code message) w = (.ok (), w')) :
    rowCode id w' = some code := by
  rw [exec_setFailed] at h
  unfold execStore at h
  dsimp only at h
  split at h
  · cases h
  split at h
  · cases h
  · rename_i store hok
    split at h
    · cases h
      obtain ⟨j, hj, -, rfl⟩ := Store.transition_ok
        (f := Job.setFailed code message (env.clock w.storeWrites)) hok
      have hself := Store.getById_update_self w.store id
        (f := Job.setFailed code message (env.clock w.storeWrites)) (fun _ => rfl)
      rw [hj] at hself
      unfold rowCode
      dsimp only
      rw [hself]
      rfl
    · cases h

/-- A write that the table allows goes through when the store does not fail. -/
theorem exec_setFailed_goes {w : World} {st : JobStatus} (hrow : w.status id = some st)
    (hst : ¬ st.Terminal) (hfault : env.fault w.storeWrites = none) (code message : String) :
    ∃ w', exec env (.setFailed id code message) w = (.ok (), w') := by
  have hgo := Store.transition_allowed (Job.setFailed code message (env.clock w.storeWrites)) hrow
    (failed_mem_allowed hst)
  rw [exec_setFailed]
  unfold execStore
  rw [hfault]
  simp only [Store.setFailed, hgo]
  exact ⟨_, rfl⟩

theorem exec_setFailed_raises {w : World} (hfault : env.fault w.storeWrites ≠ none)
    (id code message : String) :
    ∃ e w', exec env (.setFailed id code message) w = (.error e, w') ∧
      e.isBackendOrStorage = false := by
  rcases hexec : exec env (.setFailed id code message) w with ⟨e | a, w'⟩
  · exact ⟨e, w', rfl, execStore_error (congrArg Prod.fst hexec)⟩
  · rw [exec_setFailed] at hexec
    unfold execStore at hexec
    dsimp only at hexec
    split at hexec
    · cases hexec
    split at hexec
    · cases hexec
    split at hexec
    · rename_i hnone
      exact absurd hnone hfault
    · cases hexec

variable (α env) in
/-- A report whose class has the code of the report. The exception that comes
out agrees with the row, or is the store's. -/
theorem run_failJob (job : Job) (message : String) (e : Exc) (w : World) :
    ∃ e' w', (failJob job (httpCode e) message e : Prog G α).run (exec env) w = (.error e', w') ∧
      w'.future = w.future ∧
      (e'.isBackendOrStorage = true → rowCode job.id w' = some (httpCode e')) := by
  have hfuture : (exec env (.setFailed job.id (httpCode e) message) w).2.future = w.future :=
    execStore_future env w _
  unfold failJob
  rw [Co.run_bind, run_setFailed]
  rcases hexec : exec env (.setFailed job.id (httpCode e) message) w with ⟨e' | _, w'⟩ <;>
    rw [hexec] at hfuture
  · refine ⟨e', w', rfl, hfuture, fun hb => ?_⟩
    rw [execStore_error (congrArg Prod.fst hexec)] at hb
    cases hb
  · have hcode := exec_setFailed_ok hexec
    exact ⟨e, _, rfl, hfuture, fun _ => hcode⟩

end Writes

/-! ## The sites -/

section Sites

variable {env : Env G} {svc : Service G} {job : Job} {p : Prepared G} {writes : Nat}
  {last : Option String} {P : World → Prop}

/-- A program that follows `c` and starts and ends before, or after, the first
store write. -/
def Stays (env : Env G) (job : Job) (writes : Nat) (P : World → Prop) (c : Calls α)
    (p : Prog G α) : Prop :=
  Co.Follows (exec env) (fun halt => Told env job.id writes (.ofCalls halt)) P P Eq c p

theorem told_raised {id : String} {site : Site} {e : Exc} {w : World}
    (hs : site.records e = false) (hcode : rowCode id w = none)
    (hpending : w.future = some .pending) : Told env id writes (.raised site e) e w := by
  refine ⟨hpending, ?_⟩
  dsimp only
  rw [if_neg (by rw [hs]; decide)]
  exact ⟨rfl, hcode⟩

/-- What the `except` clauses of a site make of an exception. -/
def Clauses (env : Env G) (job : Job) (site : Site) (h : Exc → Prog G α) : Prop :=
  ∀ e, if site.records e then
      ∀ w, ∃ e' w', (h e).run (exec env) w = (.error e', w') ∧ w'.future = w.future ∧
        (e'.isBackendOrStorage = true → rowCode job.id w' = some (httpCode e'))
    else h e = throw e

theorem clauses_failJob {site : Site} {h : Exc → Prog G α}
    (hrecords : ∀ e, site.records e = true → ∃ message, h e = failJob job (httpCode e) message e)
    (hthrows : ∀ e, site.records e = false → h e = throw e) : Clauses env job site h := by
  intro e
  split
  · rename_i hs
    intro w
    obtain ⟨message, heq⟩ := hrecords e hs
    rw [heq]
    exact run_failJob α env job message e w
  · rename_i hs
    exact hthrows e (by simpa using hs)

/-- A stage under the `except` clauses of its site. -/
theorem stays_tryCatch (hP : Steady G job.id P) {site : Site} {c : Except Exc α} {q : Prog G α}
    {h : Exc → Prog G α} (hh : Clauses env job site h)
    (hq : ∀ w, P w → ∃ w', q.run (exec env) w = (c, w') ∧ P w') :
    Stays env job writes P (atSite site c) (tryCatch q h) := by
  intro w hw
  obtain ⟨w1, hrun1, hw1⟩ := hq w hw
  rw [Co.run_tryCatch, hrun1]
  rcases c with e | a
  · have hclause := hh e
    split at hclause
    · rename_i hs
      obtain ⟨e', w2, hrun2, hfuture, hcode⟩ := hclause w1
      simp only [hrun2]
      refine ⟨hfuture.trans (hP.pending w1 hw1), ?_⟩
      simp only [Halt.ofCalls, hs, if_true]
      exact hcode
    · rename_i hs
      simp only [hclause]
      exact told_raised (by simpa using hs) (hP.code w1 hw1) (hP.pending w1 hw1)
  · exact ⟨rfl, hw1⟩

/-- A stage with no `except` of its own. -/
theorem stays_bare (hP : Steady G job.id P) {site : Site} {c : Except Exc α} {q : Prog G α}
    (hs : ∀ e, site.records e = false)
    (hq : ∀ w, P w → ∃ w', q.run (exec env) w = (c, w') ∧ P w') :
    Stays env job writes P (atSite site c) q := by
  intro w hw
  obtain ⟨w1, hrun1, hw1⟩ := hq w hw
  rw [hrun1]
  rcases c with e | a
  · exact told_raised (hs e) (hP.code w1 hw1) (hP.pending w1 hw1)
  · exact ⟨rfl, hw1⟩

variable (env) in
theorem run_ask_call (hP : Steady G job.id P) (c : Call G) {w : World} (hw : P w) :
    ∃ w', (ask (.call c)).run (exec env) w = (env.backend c, w') ∧ P w' := by
  rw [run_ask]
  rcases hc : env.backend c with e | a
  · exact ⟨w, exec_call_error hc w, hw⟩
  · exact ⟨w.observe c a, exec_call_ok hc w, hP.observe w c a hw⟩

theorem stays_value (hP : Steady G job.id P) {v : Except Exc α}
    (hv : ∀ e, v = .error e → e.isBackendOrStorage = false) :
    Stays env job writes P (orStop v) (Co.ofExcept v : Prog G α) := by
  intro w hw
  rcases v with e | a
  · refine ⟨hP.pending w hw, fun hb => ?_⟩
    rw [hv e rfl] at hb
    cases hb
  · exact ⟨rfl, hw⟩

/-- A report whose class has the code of the report. -/
theorem follows_failJob {R : β → α → Prop} {Q : World → Prop} (hP : Steady G job.id P)
    (message : String) (e : Exc) :
    Co.Follows (exec env) (Told env job.id writes) P Q R (.error .stopped)
      (failJob job (httpCode e) message e : Prog G α) := by
  refine Co.follows_error fun w hw => ?_
  obtain ⟨e', w', hrun, hfuture, hcode⟩ := run_failJob α env job message e w
  exact ⟨e', w', hrun, hfuture.trans (hP.pending w hw), hcode⟩

end Sites

section Stages

variable {env : Env G} {svc : Service G} {job : Job} {p : Prepared G} {writes : Nat}
  {last : Option String} {P : World → Prop}

/-! ## The stages -/

theorem stays_uploadImage (hP : Steady G job.id P) (imageBytes : Bytes) (filename : String) :
    Stays env job writes P (atSite .uploadImage (env.backend (.uploadImage imageBytes filename)))
      (uploadImage job imageBytes filename) := by
  refine stays_tryCatch hP (clauses_failJob ?_ ?_) fun w hw => run_ask_call env hP _ hw
  · intro e he
    cases e <;> first | exact ⟨_, rfl⟩ | simp [Site.records] at he
  · intro e he
    cases e <;> first | rfl | simp [Site.records] at he

theorem stays_uploadInitImage (hP : Steady G job.id P) :
    Stays env job writes P (initImageCalls svc env p) (uploadInitImage svc job p) := by
  unfold initImageCalls uploadInitImage
  rcases p.initImage with _ | imageBytes
  · exact Co.follows_pure rfl
  · refine Co.Follows.bind (stays_uploadImage hP imageBytes p.initFilename) fun _ _ _ => ?_
    refine stays_value hP fun e he => ?_
    rcases hv : svc.injectInitImage p.graph p.initFilename with x | graph <;> rw [hv] at he
    · cases he
      cases x <;> rfl
    · cases he

theorem stays_hasSwapHeadroom (hP : Steady G job.id P)
    (hlog : ∀ w shown, P w → P { w with gpu := w.gpu ++ [shown] }) (model : ModelConfig) :
    Stays env job writes P (headroomCalls svc env model) (hasSwapHeadroom svc model) := by
  unfold headroomCalls hasSwapHeadroom
  split
  · refine Co.Follows.bind (Q := P) (R := Eq) (stays_bare hP (fun e => by cases e <;> rfl) ?_) ?_
    · intro w hw
      obtain ⟨w', hrun, hw'⟩ := run_ask_call env hP .health hw
      refine ⟨w', ?_, hw'⟩
      unfold exceptException worker_terminal.healthAnswer
      rw [Co.run_tryCatch, Co.run_map, hrun]
      rcases env.backend .health with e | a
      · simp only [Except.map]
        split <;> rfl
      · rfl
    · rintro snapshot _ rfl
      rcases snapshot.bind (headroomOf svc model) with _ | ok
      · exact Co.follows_pure rfl
      · exact fun w hw => ⟨rfl, hlog w _ hw⟩
  · exact Co.follows_pure rfl

/-- A report with a code that the exception does not carry. -/
theorem follows_reported {R : β → α → Prop} {Q : World → Prop} (code message raised : String)
    (counted : Bool) :
    Co.Follows (exec env) (Told env job.id writes) (Queued job.id writes last) Q R
      (.error (.wrapped code))
      (raiseFailure job (.reported code message counted raised) : Prog G α) := by
  refine Co.follows_error fun w hw => ?_
  have hfuture : (exec env (.setFailed job.id code message) w).2.future = w.future :=
    execStore_future env w _
  have hrun : ∃ e w', (raiseFailure job (.reported code message counted raised) :
      Prog G α).run (exec env) w = (.error e, w') ∧ w'.future = w.future ∧
        if env.fault writes = none then e = .comfyNode raised ∧ rowCode job.id w' = some code
        else e.isBackendOrStorage = false := by
    by_cases hfault : env.fault writes = none
    · have hfault' : env.fault w.storeWrites = none := hw.writes_eq ▸ hfault
      obtain ⟨w1, hgo⟩ := exec_setFailed_goes hw.row (by decide) hfault' code message
      have hcode := exec_setFailed_ok hgo
      rw [hgo] at hfuture
      cases counted with
      | true =>
        refine ⟨.comfyNode raised,
          { w1 with metrics := w1.metrics.map (· ++ [("failed", some code)]) }, ?_, hfuture, ?_⟩
        · simp [raiseFailure, failJob, Co.run_bind, hgo]
        · rw [if_pos hfault]
          exact ⟨rfl, hcode⟩
      | false =>
        refine ⟨.comfyNode raised, w1, ?_, hfuture, ?_⟩
        · simp [raiseFailure, Co.run_bind, hgo]
        · rw [if_pos hfault]
          exact ⟨rfl, hcode⟩
    · obtain ⟨e, w1, hraises, hclass⟩ :=
        exec_setFailed_raises (hw.writes_eq.symm ▸ hfault) job.id code message
      rw [hraises] at hfuture
      refine ⟨e, w1, ?_, hfuture, ?_⟩
      · cases counted <;> simp [raiseFailure, failJob, Co.run_bind, hraises]
      · rw [if_neg hfault]
        exact hclass
  obtain ⟨e, w', hrun, hkept, hend⟩ := hrun
  refine ⟨e, w', hrun, hkept.trans hw.pending, ?_⟩
  dsimp only
  split
  · rename_i hfault
    rw [if_pos hfault] at hend
    exact ⟨⟨raised, hend.1⟩, hend.2⟩
  · rename_i hfault
    rw [if_neg hfault] at hend
    exact hend

theorem follows_enforceSwap (model : ModelConfig) :
    Co.Follows (exec env) (Told env job.id writes) (Queued job.id writes last)
      (Queued job.id writes last) Eq (swapFate svc env last model) (enforceSwap svc job model) := by
  have hP : Steady G job.id (Queued job.id writes last) := steady_queued _ _ _
  unfold enforceSwap
  intro w hw
  rw [Co.run_bind, run_lastModelName, hw.last_eq]
  refine (?_ : Co.Follows (exec env) (Told env job.id writes) (Queued job.id writes last)
    (Queued job.id writes last) Eq (swapFate svc env last model) (_ : Prog G Unit)) w hw
  unfold swapFate
  rcases last with _ | name
  · exact Co.follows_pure rfl
  simp only
  split
  · exact Co.follows_pure rfl
  have hunload : Stays env job writes (Queued job.id writes (some name))
      (atSite .unloadModels (env.backend .unloadModels)) (ask (.call .unloadModels)) :=
    stays_bare hP (fun e => by cases e <;> rfl) fun w hw => run_ask_call env hP _ hw
  refine Co.Follows.bind (hunload.mapError Halt.ofCalls) ?_
  rintro unloaded _ rfl
  split
  · exact Co.follows_pure rfl
  have hheadroom : Stays env job writes (Queued job.id writes (some name))
      (headroomCalls svc env model) (hasSwapHeadroom svc model) :=
    stays_hasSwapHeadroom hP
      (fun w shown hw => ⟨hw.row, hw.code, hw.writes_eq, hw.last_eq, hw.pending⟩) model
  refine Co.Follows.bind (hheadroom.mapError Halt.ofCalls) ?_
  rintro ok _ rfl
  split
  · exact Co.follows_pure rfl
  · exact follows_reported _ _ _ true

theorem stays_submit (hP : Steady G job.id P) (model : ModelConfig) (graph : G) :
    Stays env job writes P (atSite .submit (env.backend (.submit model.name graph)))
      (submit job model graph) := by
  refine stays_tryCatch hP (clauses_failJob ?_ ?_) fun w hw => run_ask_call env hP _ hw
  · intro e he
    cases e <;> first | exact ⟨_, rfl⟩ | simp [Site.records] at he
  · intro e he
    cases e <;> first | rfl | simp [Site.records] at he

/-- What `_safe_cancel` and `_safe_free` let through. -/
def swallowed (answer : Except Exc α) : Except Exc Unit :=
  match answer with
  | .ok _ => .ok ()
  | .error e => if e.isException then .ok () else .error e

theorem not_backend_of_not_exception {e : Exc} (h : e.isException = false) :
    e.isBackendOrStorage = false := by
  cases e <;> first | rfl | cases h

theorem swallowed_error {answer : Except Exc α} {e : Exc} (h : swallowed answer = .error e) :
    e.isBackendOrStorage = false := by
  unfold swallowed at h
  split at h
  · cases h
  split at h
  · cases h
  · rename_i he
    cases h
    exact not_backend_of_not_exception (by simpa using he)

theorem observe_same (w : World) (c : Call G) (a : c.Ans) :
    (w.observe c a).store = w.store ∧ (w.observe c a).future = w.future := by
  cases c <;> exact ⟨rfl, rfl⟩

variable (env) in
theorem run_ask_same (c : Call G) (w : World) :
    ∃ w', (ask (.call c)).run (exec env) w = (env.backend c, w') ∧ w'.store = w.store ∧
      w'.future = w.future := by
  rw [run_ask]
  rcases hc : env.backend c with e | a
  · exact ⟨w, exec_call_error hc w, rfl, rfl⟩
  · exact ⟨w.observe c a, exec_call_ok hc w, observe_same w c a⟩

variable (env) in
theorem run_safeCancel (promptId : String) (w : World) :
    ∃ w', (safeCancel promptId).run (exec env) w =
      (swallowed (env.backend (.cancel promptId)), w') ∧ w'.store = w.store ∧
        w'.future = w.future := by
  obtain ⟨w', hrun, hw'⟩ := run_ask_same env (.cancel promptId) w
  refine ⟨w', ?_, hw'⟩
  unfold safeCancel exceptException swallowed
  rw [Co.run_tryCatch, hrun]
  rcases env.backend (.cancel promptId) with e | a
  · simp only
    split <;> rfl
  · rfl

variable (env) in
theorem run_safeFree (w : World) :
    ∃ w', (safeFree : Prog G Unit).run (exec env) w = (swallowed (env.backend .free), w') ∧
      w'.store = w.store ∧ w'.future = w.future := by
  obtain ⟨w', hrun, hw'⟩ := run_ask_same env .free w
  refine ⟨w', ?_, hw'⟩
  unfold safeFree exceptException swallowed
  rw [Co.run_tryCatch, Co.run_bind, hrun]
  rcases env.backend .free with e | a
  · simp only
    split <;> rfl
  · rfl

theorem exec_setRunning (env : Env G) (id promptId clientId : String) (w : World) :
    exec env (.setRunning id promptId clientId) w =
      execStore env w fun s now => s.setRunning id promptId clientId now := rfl

variable (env) in
/-- What `set_running` does to a job that is still queued. -/
theorem exec_setRunning_spec (promptId clientId : String) {w : World}
    (hw : Queued job.id writes last w) :
    ∃ w', Running job.id w' ∧ exec env (.setRunning job.id promptId clientId) w =
      match env.fault writes with
      | none => (.ok (), w')
      | some f => (.error f.raised.exc, w') := by
  obtain ⟨j, hj, hstatus⟩ := Option.map_eq_some_iff.mp hw.row
  have hallowed : JobStatus.running ∈ allowedTransitions .queued := by decide
  have hgo := Store.transition_allowed (Job.setRunning promptId clientId (env.clock writes))
    hw.row hallowed
  have hself := Store.getById_update_self w.store job.id
    (f := Job.setRunning promptId clientId (env.clock writes)) (fun _ => rfl)
  have hcode := hw.code
  unfold rowCode at hcode
  rw [hj] at hself hcode
  have hkept : rowCode job.id { w with
      store := w.store.update job.id (Job.setRunning promptId clientId (env.clock writes)),
      storeWrites := writes + 1 } = none := by
    unfold rowCode
    dsimp only
    rw [hself]
    exact hcode
  rw [exec_setRunning]
  unfold execStore
  simp only [hw.writes_eq, Store.setRunning, hgo]
  rcases env.fault writes with _ | ⟨_ | _, raised⟩
  · exact ⟨_, ⟨hkept, hw.pending⟩, rfl⟩
  · exact ⟨{ w with storeWrites := writes + 1 }, ⟨hw.code, hw.pending⟩, rfl⟩
  · exact ⟨_, ⟨hkept, hw.pending⟩, rfl⟩

theorem follows_markRunning (promptId : String) :
    Co.Follows (exec env) (Told env job.id writes) (Queued job.id writes last) (Running job.id)
      Eq (runningFate env writes promptId) (markRunning svc job promptId) := by
  intro w hw
  obtain ⟨w1, hw1, hexec⟩ := exec_setRunning_spec env promptId svc.clientId hw
  unfold markRunning exceptException runningFate
  rw [Co.run_tryCatch, Co.run_bind, run_setRunning, hexec]
  rcases env.fault writes with _ | ⟨committed, ⟨e⟩ | _⟩
  · exact ⟨rfl, hw1.code, hw1.pending⟩
  · obtain ⟨w2, hrun, hstore, hfuture⟩ := run_safeCancel env promptId w1
    have hpending := hfuture.trans hw1.pending
    have hcode : rowCode job.id w2 = none := by
      unfold rowCode
      rw [hstore]
      exact hw1.code
    have hstore : (StoreRaise.error e).exc.isException = true := rfl
    simp only [hstore, if_true, Co.run_bind, hrun]
    rcases env.backend (.cancel promptId) with e' | a
    · by_cases he : e'.isException = true
      · simp only [swallowed, he, if_true]
        exact ⟨hpending, ⟨_, rfl⟩, hcode⟩
      · rw [Bool.not_eq_true] at he
        simp only [swallowed, he, Bool.false_eq_true, if_false]
        refine ⟨hpending, fun hb => ?_⟩
        rw [not_backend_of_not_exception he] at hb
        cases hb
    · exact ⟨hpending, ⟨_, rfl⟩, hcode⟩
  · exact ⟨hw1.pending, fun h => by cases h⟩

/-- A timeout is recorded after the cleanup, unless the cleanup is cancelled. -/
theorem run_timeout (promptId m : String) (w : World) :
    ∃ e' w', (do
        safeCancel promptId
        safeFree
        failJob job "comfy_timeout" m (.comfyTimeout m) : Prog G Unit).run (exec env) w =
          (.error e', w') ∧ w'.future = w.future ∧
        (e'.isBackendOrStorage = true → rowCode job.id w' = some (httpCode e')) := by
  obtain ⟨w1, hrun1, -, hfuture1⟩ := run_safeCancel env promptId w
  rw [Co.run_bind, hrun1]
  rcases hcancel : swallowed (env.backend (.cancel promptId)) with e | a
  · refine ⟨e, w1, rfl, hfuture1, fun hb => ?_⟩
    rw [swallowed_error hcancel] at hb
    cases hb
  obtain ⟨w2, hrun2, -, hfuture2⟩ := run_safeFree env w1
  simp only
  rw [Co.run_bind, hrun2]
  rcases hfree : swallowed (env.backend .free) with e | b
  · refine ⟨e, w2, rfl, hfuture2.trans hfuture1, fun hb => ?_⟩
    rw [swallowed_error hfree] at hb
    cases hb
  simp only
  obtain ⟨e', w3, hrun3, hfuture, hcode⟩ :=
    run_failJob Unit env job m (.comfyTimeout m) w2
  exact ⟨e', w3, hrun3, hfuture.trans (hfuture2.trans hfuture1), hcode⟩

theorem stays_awaitCompletion (hP : Steady G job.id P) (promptId : String) (timeoutS : PyFloat) :
    Stays env job writes P (atSite .wait (env.backend (.waitForCompletion promptId timeoutS)))
      (awaitCompletion job promptId timeoutS) := by
  refine stays_tryCatch hP (fun e => ?_) fun w hw => run_ask_call env hP _ hw
  cases e with
  | comfyTimeout m => exact fun w => run_timeout promptId m w
  | comfyUnreachable m => exact fun w => run_failJob _ env job m (.comfyUnreachable m) w
  | _ => rfl

theorem stays_orUnreachable (hP : Steady G job.id P) (c : Call G) :
    Stays env job writes P (atSite .fetch (env.backend c))
      (orUnreachable job (ask (.call c))) := by
  refine stays_tryCatch hP (clauses_failJob ?_ ?_) fun w hw => run_ask_call env hP _ hw
  · intro e he
    cases e <;> first | exact ⟨_, rfl⟩ | simp [Site.records] at he
  · intro e he
    cases e <;> first | rfl | simp [Site.records] at he

theorem stays_orStorage (hP : Steady G job.id P) {c : Except Exc α} {q : Prog G α}
    (hq : ∀ w, P w → ∃ w', q.run (exec env) w = (c, w') ∧ P w') :
    Stays env job writes P (atSite .upload c) (orStorage job q) := by
  refine stays_tryCatch hP (clauses_failJob ?_ ?_) hq
  · intro e he
    cases e <;> first | exact ⟨_, rfl⟩ | simp [Site.records] at he
  · intro e he
    cases e <;> first | rfl | simp [Site.records] at he

theorem run_uploadPngs (hP : Steady G job.id P) (images : List Bytes) (idx : Nat) {w : World}
    (hw : P w) :
    ∃ w', (uploadPngs job idx images).run (exec env) w =
      (worker_terminal.uploadPngAnswers env job idx images, w') ∧ P w' := by
  induction images generalizing idx w with
  | nil => exact ⟨w, rfl, hw⟩
  | cons png rest ih =>
    obtain ⟨w1, hrun1, hw1⟩ := run_ask_call env hP (.uploadPng job.id idx png) hw
    unfold uploadPngs worker_terminal.uploadPngAnswers
    rw [Co.run_bind, hrun1]
    rcases env.backend (.uploadPng job.id idx png) with e | ⟨bucket, key⟩
    · exact ⟨w1, rfl, hw1⟩
    obtain ⟨w2, hrun2, hw2⟩ := ih (idx + 1) hw1
    refine ⟨w2, ?_, hw2⟩
    simp only
    rw [Co.run_bind, hrun2]
    rcases worker_terminal.uploadPngAnswers env job (idx + 1) rest <;> rfl

theorem run_uploadBlobs (hP : Steady G job.id P) (blobs : List (Bytes × String)) (idx : Nat)
    {w : World} (hw : P w) :
    ∃ w', (uploadBlobs svc job idx blobs).run (exec env) w =
      (worker_terminal.uploadBlobAnswers svc env job idx blobs, w') ∧ P w' := by
  induction blobs generalizing idx w with
  | nil => exact ⟨w, rfl, hw⟩
  | cons row rest ih =>
    obtain ⟨blob, ext⟩ := row
    have hone : ∃ w', (uploadBlob svc job idx blob ext).run (exec env) w =
        (worker_terminal.uploadBlobAnswer svc env job idx blob ext, w') ∧ P w' := by
      unfold uploadBlob worker_terminal.uploadBlobAnswer
      split
      · exact run_ask_call env hP _ hw
      · exact run_ask_call env hP _ hw
    obtain ⟨w1, hrun1, hw1⟩ := hone
    unfold uploadBlobs worker_terminal.uploadBlobAnswers
    rw [Co.run_bind, hrun1]
    rcases worker_terminal.uploadBlobAnswer svc env job idx blob ext with e | ⟨bucket, key⟩
    · exact ⟨w1, rfl, hw1⟩
    obtain ⟨w2, hrun2, hw2⟩ := ih (idx + 1) hw1
    refine ⟨w2, ?_, hw2⟩
    simp only
    rw [Co.run_bind, hrun2]
    rcases worker_terminal.uploadBlobAnswers svc env job (idx + 1) rest <;> rfl

/-- `finish` returns, or raises what the store raised. -/
def Finished (r : Except Exc JobResult) (w : World) : Prop :=
  w.future = some .pending ∧ ∀ e, r = .error e → e.isBackendOrStorage = false

theorem finished_finish (outputKeys : List String) (data : List DataEntry) {w : World}
    (hw : w.future = some .pending) :
    Finished ((finish job p outputKeys data).run (exec env) w).1
      ((finish job p outputKeys data).run (exec env) w).2 := by
  unfold finish
  simp only [Co.run_bind, run_readDurationMs, run_setCompleted]
  have hfuture := execStore_future env w
    fun s now => s.setCompleted job.id outputKeys ⟨data, env.durationMs, p.seed⟩ now
  rcases hexec : exec env (.setCompleted job.id outputKeys ⟨data, env.durationMs, p.seed⟩) w with
    ⟨e | a, w'⟩
  · have hw' : w'.future = w.future := (congrArg (·.2.future) hexec).symm.trans hfuture
    refine ⟨hw'.trans hw, fun e' he' => ?_⟩
    cases he'
    exact execStore_error (congrArg Prod.fst hexec)
  · have hw' : w'.future = w.future := (congrArg (·.2.future) hexec).symm.trans hfuture
    simp only [run_setLastModelName, Co.run_pure]
    exact ⟨hw'.trans hw, nofun⟩

/-! ## The pipelines -/

/-- `Told` of the halts of the backend's answers. -/
abbrev ToldCalls (env : Env G) (job : Job) (writes : Nat) (halt : worker_terminal.Halt) (e : Exc)
    (w : World) : Prop := Told env job.id writes (.ofCalls halt) e w

theorem stays_comfyError {R : β → α → Prop} {Q : World → Prop} (hP : Steady G job.id P)
    (message : String) :
    Co.Follows (exec env) (ToldCalls env job writes) P Q R (.error .stopped)
      (comfyError job message : Prog G α) := by
  refine Co.follows_error fun w hw => ?_
  obtain ⟨e', w', hrun, hfuture, hcode⟩ :=
    run_failJob α env job message (.comfyNode message) w
  exact ⟨e', w', hrun, hfuture.trans (hP.pending w hw), hcode⟩

theorem leadsTo_deliverImages (hP : Steady G job.id P) (transparentBackground : Bool)
    (promptId : String) (hp : p.product = .image transparentBackground) :
    Co.LeadsTo (exec env) (ToldCalls env job writes) P Finished
      (deliveryCalls svc env job p promptId)
      (deliverImages svc job p transparentBackground promptId) := by
  unfold deliveryCalls deliverImages
  rw [hp]
  refine Co.Follows.leadsTo (stays_orUnreachable hP _) ?_
  rintro images _ rfl
  split
  · exact (stays_comfyError (Q := P) (R := fun _ _ => True) (β := Unit) hP _).leadsTo_error
  rcases images.mapM (processImage svc transparentBackground) with message | processed
  · exact (stays_comfyError (Q := P) (R := fun _ _ => True) (β := Unit) hP _).leadsTo_error
  · refine Co.Follows.leadsTo_last (stays_orStorage hP fun w hw => run_uploadPngs hP _ 0 hw) ?_
    intro keys w hw
    exact finished_finish _ _ (hP.pending w hw)

theorem leadsTo_deliverMedia (hP : Steady G job.id P)
    (missingFetchMedia zeroOutputs promptId : String)
    (hp : p.product = .video missingFetchMedia zeroOutputs) :
    Co.LeadsTo (exec env) (ToldCalls env job writes) P Finished
      (deliveryCalls svc env job p promptId)
      (deliverMedia svc job p missingFetchMedia zeroOutputs promptId) := by
  unfold deliveryCalls deliverMedia
  rw [hp]
  simp only
  split
  · refine Co.Follows.leadsTo (stays_orUnreachable hP _) ?_
    rintro rows _ rfl
    split
    · exact (stays_comfyError (Q := P) (R := fun _ _ => True) (β := Unit) hP _).leadsTo_error
    · refine Co.Follows.leadsTo_last (stays_orStorage hP fun w hw => run_uploadBlobs hP _ 0 hw) ?_
      intro keys w hw
      exact finished_finish _ _ (hP.pending w hw)
  · intro w hw
    rw [Co.run_bind, run_setFailed]
    have hfuture : (exec env (.setFailed job.id "comfy_error" missingFetchMedia) w).2.future =
      w.future := execStore_future env w _
    rcases hexec : exec env (.setFailed job.id "comfy_error" missingFetchMedia) w with
      ⟨e | a, w'⟩ <;> rw [hexec] at hfuture
    · refine ⟨hfuture.trans (hP.pending w hw), fun hb => ?_⟩
      rw [execStore_error (congrArg Prod.fst hexec)] at hb
      cases hb
    · have hcode := exec_setFailed_ok hexec
      exact ⟨hfuture.trans (hP.pending w hw), fun _ => hcode⟩

theorem waitTimeout_error {e : Exc} (h : waitTimeout svc p = .error e) :
    e.isBackendOrStorage = false := worker_terminal.waitTimeout_error h

theorem follows_generate :
    Co.Follows (exec env) (Told env job.id writes) (Queued job.id writes last) (Running job.id)
      Eq (generateFate svc env writes last p) (generate svc job p) := by
  have hqueued : Steady G job.id (Queued job.id writes last) := steady_queued _ _ _
  have hrunning : Steady G job.id (Running job.id) := steady_running _
  unfold generateFate generate
  refine Co.Follows.bind ((stays_uploadInitImage hqueued).mapError Halt.ofCalls) ?_
  rintro graph _ rfl
  refine Co.Follows.bind (follows_enforceSwap p.model) ?_
  rintro _ _ -
  refine Co.Follows.bind ((stays_submit hqueued p.model graph).mapError Halt.ofCalls) ?_
  rintro promptId _ rfl
  refine Co.Follows.bind (follows_markRunning promptId) ?_
  rintro _ _ -
  refine Co.Follows.bind ((stays_value hrunning fun e he => waitTimeout_error he).mapError
    Halt.ofCalls) ?_
  rintro timeoutS _ rfl
  refine Co.Follows.bind ((stays_awaitCompletion hrunning promptId timeoutS).mapError
    Halt.ofCalls) ?_
  exact fun _ _ _ => Co.follows_pure rfl

variable (svc env job writes last) in
/-- The pipeline of a queued job ends where its fate says. -/
theorem leadsTo_runPipeline :
    Co.LeadsTo (exec env) (Told env job.id writes) (Queued job.id writes last) Finished
      (fate svc env job writes last) (runPipeline svc job) := by
  have hrunning : Steady G job.id (Running job.id) := steady_running _
  intro w hw
  unfold runPipeline
  rw [Co.run_bind, run_randbelow]
  refine (?_ : Co.LeadsTo (exec env) (Told env job.id writes) (Queued job.id writes last) Finished
    (fate svc env job writes last) (_ : Prog G JobResult)) w hw
  unfold fate
  rcases prepare svc job env.randbelow with
    (⟨code, message, counted, raised⟩ | ⟨kind, message⟩) | p
  · exact (follows_reported (Q := Running job.id) (R := fun _ _ => True) (β := Unit)
      code message raised counted).leadsTo_error
  · intro w hw
    exact ⟨hw.pending, fun h => by cases h⟩
  · refine Co.Follows.leadsTo follows_generate ?_
    rintro promptId _ rfl
    refine Co.LeadsTo.mapError Halt.ofCalls ?_
    rcases hp : p.product with transparentBackground | ⟨missingFetchMedia, zeroOutputs⟩
    · exact leadsTo_deliverImages hrunning _ _ hp
    · exact leadsTo_deliverMedia hrunning _ _ _ hp

end Stages

/-! ## The answer -/

section Answer

variable {env : Env G} {svc : Service G} {job : Job} {w : World}

variable (env) in
/-- The last two steps of both branches: the handler is told, the row stays. -/
theorem run_answer (code : Option String) (e : Exc) (id : String)
    (h : w.future = some .pending) :
    ∃ w', (do recordJobEvent "failed" code; setException e : Prog G Unit).run (exec env) w =
        (.ok (), w') ∧ w'.future = some (.exception e) ∧ rowCode id w' = rowCode id w := by
  simp only [Co.run_bind, run_recordJobEvent, run_setException]
  refine ⟨_, rfl, ?_, ?_⟩
  · simp [World.resolve, h]
  · simp [World.resolve, h, rowCode]

/-- A recorded exception is handed on as it is, next to the row of the site. -/
theorem agrees_recorded (h : w.future = some .pending) (e : Exc) :
    (∀ e', ((recordedBranch e : Prog G Unit).run (exec env) w).2.future = some (.exception e') →
      rowCode job.id ((recordedBranch e : Prog G Unit).run (exec env) w).2 = some (httpCode e')) ↔
        rowCode job.id w = some (httpCode e) := by
  obtain ⟨w', hrun, htold, hkept⟩ := run_answer env (some e.className) e job.id h
  unfold recordedBranch
  rw [hrun]
  simp only [htold, hkept]
  constructor
  · intro hagree
    exact hagree e rfl
  · intro hcode e' he'
    cases he'
    exact hcode

/-- The last branch writes the code that the class has, or does not answer. -/
theorem agrees_unexpected (h : w.future = some .pending) {e : Exc}
    (he : e.isBackendOrStorage = false) :
    ∀ e', ((unexpectedBranch job e : Prog G Unit).run (exec env) w).2.future =
        some (.exception e') →
      rowCode job.id ((unexpectedBranch job e : Prog G Unit).run (exec env) w).2 =
        some (httpCode e') := by
  have hfuture : (exec env (.setFailed job.id "internal" e.text) w).2.future = w.future :=
    execStore_future env w _
  have hinternal : httpCode e = "internal" := by
    cases e <;> first | rfl | cases he
  unfold unexpectedBranch
  rw [Co.run_bind, run_setFailed]
  intro e' he'
  rcases hexec : exec env (.setFailed job.id "internal" e.text) w with ⟨e₁ | _, w₁⟩ <;>
    rw [hexec] at hfuture he'
  · have hpending : w₁.future = some .pending := hfuture.trans h
    rw [show w₁.future = some .pending from hpending] at he'
    cases he'
  · have hcode := exec_setFailed_ok hexec
    obtain ⟨w₂, hrun, htold, hkept⟩ :=
      run_answer env (some "internal") e job.id (hfuture.trans h)
    simp only [hrun, htold] at he' ⊢
    cases he'
    rw [hkept, hcode, hinternal]

/-- Where a pipeline that raises `e` leaves the two codes. -/
theorem told_agrees {halt : Halt} {e : Exc} {writes : Nat} (hb : e.isBackendOrStorage = true)
    (htold : Told env job.id writes halt e w) :
    rowCode job.id w = some (httpCode e) ↔ ¬ halt.Misreports env writes := by
  obtain ⟨-, hrow⟩ := htold
  cases halt with
  | raised site e' =>
    simp only at hrow
    by_cases hs : site.records e' = true
    · rw [if_pos hs] at hrow
      simp [hrow hb, Halt.Misreports, hs]
    · rw [if_neg hs] at hrow
      obtain ⟨rfl, hnone⟩ := hrow
      simp [hnone, Halt.Misreports, hb, hs]
  | wrapped code =>
    simp only at hrow
    by_cases hfault : env.fault writes = none
    · rw [if_pos hfault] at hrow
      obtain ⟨⟨m, rfl⟩, hcode⟩ := hrow
      simp [hcode, Halt.Misreports, hfault, httpCode]
    · rw [if_neg hfault, hb] at hrow
      cases hrow
  | notRunning =>
    obtain ⟨-, hnone⟩ := hrow
    simp [hnone, Halt.Misreports]
  | stopped => simp [hrow hb, Halt.Misreports]

/-- An exception of no Backend or Storage class ends where the codes agree. -/
theorem told_unexpected {halt : Halt} {e : Exc} {writes : Nat} (hb : e.isBackendOrStorage = false)
    (htold : Told env job.id writes halt e w) : ¬ halt.Misreports env writes := by
  obtain ⟨-, hrow⟩ := htold
  cases halt with
  | raised site e' =>
    rintro ⟨hb', hs⟩
    simp only [hs, Bool.false_eq_true, if_false] at hrow
    rw [← hrow.1, hb] at hb'
    cases hb'
  | wrapped code =>
    rintro ⟨-, hfault⟩
    simp only [hfault, if_true] at hrow
    obtain ⟨⟨m, rfl⟩, -⟩ := hrow
    cases hb
  | notRunning =>
    obtain ⟨⟨m, rfl⟩, -⟩ := hrow
    cases hb
  | stopped => exact id

variable (env job) in
/-- After a pipeline that raised, only a Backend or Storage class is handed on
without a write. -/
theorem agrees_iff (h : w.future = some .pending) (e : Exc) :
    let w' := (if e.isBackendOrStorage then (recordedBranch e : Prog G Unit).run (exec env) w
      else if e.isException then (unexpectedBranch job e).run (exec env) w
      else (.error e, w)).2
    (∀ e', w'.future = some (.exception e') → rowCode job.id w' = some (httpCode e')) ↔
      (e.isBackendOrStorage = true → rowCode job.id w = some (httpCode e)) := by
  intro w'
  by_cases hb : e.isBackendOrStorage = true
  · have hw' : w' = ((recordedBranch e : Prog G Unit).run (exec env) w).2 := by simp [w', hb]
    rw [hw', agrees_recorded h e]
    simp [hb]
  refine ⟨fun _ hb' => absurd hb' hb, fun _ => ?_⟩
  rw [Bool.not_eq_true] at hb
  by_cases hexc : e.isException = true
  · have hw' : w' = ((unexpectedBranch job e : Prog G Unit).run (exec env) w).2 := by
      simp [w', hb, hexc]
    rw [hw']
    exact agrees_unexpected h hb
  · have hw' : w' = w := by simp [w', hb, hexc]
    rw [hw', h]
    intro e' he'
    cases he'

theorem agrees_completed (h : w.future = some .pending) (result : JobResult) (e : Exc) :
    ((completedBranch result : Prog G Unit).run (exec env) w).2.future ≠ some (.exception e) := by
  unfold completedBranch
  simp [Co.run_bind, World.resolve, h]

/-- The handler's answer and the row agree exactly when the job does not end
where the two codes differ. -/
theorem codes_agree_iff (svc : Service G) (env : Env G) (job : Job) (w : World)
    (hrow : w.status job.id = some .queued) (hcode : rowCode job.id w = none)
    (hfuture : w.future = some .pending) :
    Agrees svc env job w ↔ ¬ Misreports svc env job w := by
  have hends := leadsTo_runPipeline env svc job w.storeWrites w.lastModelName w
    ⟨hrow, hcode, rfl, rfl, hfuture⟩
  unfold Agrees Misreports
  dsimp only
  rw [run_processOne]
  rcases hfate : fate svc env job w.storeWrites w.lastModelName with halt | keys <;>
    rcases hrun : (runPipeline svc job).run (exec env) w with ⟨e | result, w'⟩ <;>
    rw [hfate, hrun] at hends
  · have hhalt : (∃ halt', Except.error (α := List String) halt = .error halt' ∧
        halt'.Misreports env w.storeWrites) ↔ halt.Misreports env w.storeWrites := by simp
    rw [hhalt]
    refine (agrees_iff env job hends.1 e).trans ?_
    rcases hb : e.isBackendOrStorage
    · simpa using told_unexpected hb hends
    · simpa using told_agrees hb hends
  · exact hends.elim
  · -- the pipeline reached `finish`, where only the store can raise
    have hagree := (agrees_iff env job hends.1 e).mpr fun hb => by
      rw [hends.2 e rfl] at hb
      cases hb
    exact ⟨fun _ => nofun, fun _ => hagree⟩
  · refine ⟨fun _ => nofun, fun _ e' he' => ?_⟩
    exact absurd he' (agrees_completed hends.1 result e')

end Answer

/-- An unreachable backend is told to both. -/
theorem an_unreachable_backend_agrees :
    let env := smallEnv (willingUntilWait (.comfyUnreachable "connection refused"))
    let job := smallJob "gen_1" "sdxl"
    Agrees smallService env job (smallWorld [job]) ↔
      ¬ Misreports smallService env job (smallWorld [job]) :=
  codes_agree_iff smallService (smallEnv (willingUntilWait (.comfyUnreachable "connection refused")))
    (smallJob "gen_1" "sdxl") (smallWorld [smallJob "gen_1" "sdxl"]) (by decide) (by decide) rfl

/-- A stored request that is no longer valid: the row says `validation_error`,
and the client is answered `comfy_error`. -/
theorem a_stale_request_is_a_comfy_error :
    let job := { smallJob "gen_1" "sdxl" with inputJson := .value .null }
    let w := ((processOne (runPipeline smallService job) job).run (exec (smallEnv willing))
      (smallWorld [job])).2
    (smallWorld [job]).status job.id = some .queued ∧
      rowCode job.id w = some "validation_error" ∧
      (∃ e, w.future = some (.exception e) ∧ httpCode e = "comfy_error") ∧
      ¬ Agrees smallService (smallEnv willing) job (smallWorld [job]) := by
  intro job w
  have hrow : rowCode job.id w = some "validation_error" := by decide
  have htold : w.future =
      some (.exception (.comfyNode (revalidationFailed "not an object"))) := by decide
  refine ⟨by decide, hrow, ⟨_, htold, rfl⟩, fun hagree => ?_⟩
  have heq := hagree _ htold
  rw [show rowCode _ _ = some "validation_error" from hrow] at heq
  revert heq
  decide

end image_gen.error_codes

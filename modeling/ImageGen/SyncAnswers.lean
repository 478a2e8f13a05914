-- What the handler of a synchronous request answers (`_run_sync_job` and `create_image` in
-- `app/api/images.py`, and the same for videos), beside what polls and webhooks tell of the
-- row. Others write to the table between any two operations of the worker.
import ImageGen.PollAnswers
import ImageGen.Worker

namespace image_gen.sync_answers

open image_gen.coroutine image_gen.job_rows image_gen.job_store image_gen.json
open image_gen.poll_answers
open image_gen.dispatcher (dataEntryJson)
open image_gen.requests image_gen.worker
open Relation (ReflTransGen)

variable {G α β : Type}

/-! ## The answer -/

/-- `_error`. -/
def errorBody (code message : String) : List (String × Json) :=
  [("error", .obj [("code", .str code), ("message", .str message)])]

/-- What a future that is done makes of the request. An exception that the handler does not
name goes to the last-resort handler of `app/errors.py`. -/
def answer (created : Nat) : FutureState → Option (Nat × List (String × Json))
  | .pending => none
  | .cancelled => none
  | .result r =>
    some (200, [("created", .int created), ("data", .arr (r.data.map dataEntryJson))])
  | .exception (.comfyUnreachable m) => some (503, errorBody "comfy_unreachable" m)
  | .exception (.comfyTimeout m) => some (504, errorBody "comfy_timeout" m)
  | .exception (.comfyNode m) => some (500, errorBody "comfy_error" m)
  | .exception (.storage m) => some (502, errorBody "storage_error" m)
  | .exception _ => some (500, errorBody "internal" "Internal Server Error")

/-- An answer with images comes of a result. -/
theorem result_of_answer {created : Nat} {f : FutureState} {body : List (String × Json)}
    (h : answer created f = some (200, body)) :
    ∃ r, f = .result r ∧ Json.get body "data" = .arr (r.data.map dataEntryJson) := by
  cases f with
  | pending => cases h
  | cancelled => cases h
  | result r =>
    cases h
    exact ⟨r, rfl, by simp [Json.get, List.lookup_cons]⟩
  | exception e => cases e <;> simp [answer] at h

/-! ## The worker among others -/

/-- A write of the worker. It may raise after its commit, too. -/
def Wrote (write : Nat → Except StoreError Store) (s : Store) : Except Exc Unit → Store → Prop
  | .ok _, t => ∃ now, write now = .ok t
  | .error _, t => t = s ∨ ∃ now, write now = .ok t

/-- What an operation of the worker does to the table. -/
def Own : (op : Op G) → Store → Except Exc op.Ans → Store → Prop
  | .setRunning id promptId clientId, s, r, t =>
    Wrote (fun now => s.setRunning id promptId clientId now) s r t
  | .setCompleted id outputKeys result, s, r, t =>
    Wrote (fun now => s.setCompleted id outputKeys result now) s r t
  | .setFailed id code message, s, r, t => Wrote (fun now => s.setFailed id code message now) s r t
  | _, s, _, t => t = s

/-- The result that the future is set to. -/
def answered : Op G → Option JobResult → Option JobResult
  | .setResult r, none => some r
  | _, a => a

/-- The worker's process, with the first result that it gives to the future. -/
structure Shared where
  world : World
  result : Option JobResult

/-- One operation. Before it, the other tasks write what they may. -/
structure Step (op : Op G) (s : Shared) (r : Except Exc op.Ans) (s' : Shared) : Prop where
  store : ∃ t, ReflTransGen StoreStep s.world.store t ∧ Own op t r s'.world.store
  result : s'.result = answered op s.result

/-- The row has the result. -/
def Done (id : String) (r : JobResult) (s : Store) : Prop :=
  ∃ row, s.getById id = some row ∧ row.status = .completed ∧ row.resultJson = some r

/-- The result that was given is in the row. -/
def Told (id : String) (s : Shared) : Prop := ∀ r, s.result = some r → Done id r s.world.store

section Stable

variable {id : String} {r : JobResult} {s t : Store}

theorem Done.step (h : Done id r s) (hstep : StoreStep s t) : Done id r t := by
  obtain ⟨row, hrow, hstatus, hresult⟩ := h
  have hid := hstep id
  rw [hrow] at hid
  rcases ht : t.getById id with _ | row' <;> rw [ht] at hid
  · exact hid.elim
  · have hsame := hid.terminal (by rw [hstatus]; rfl)
    exact ⟨row', ht, hsame.status.trans hstatus, hsame.resultJson.trans hresult⟩

theorem Done.steps (h : Done id r s) (hsteps : ReflTransGen StoreStep s t) : Done id r t := by
  induction hsteps with
  | refl => exact h
  | tail _ hstep ih => exact ih.step hstep

theorem done_setCompleted {outputKeys : List String} {now : Nat}
    (h : s.setCompleted id outputKeys r now = .ok t) : Done id r t := by
  obtain ⟨row, hrow, -, rfl⟩ := Store.transition_ok (f := Job.setCompleted outputKeys r now) h
  refine ⟨row.setCompleted outputKeys r now, ?_, rfl, rfl⟩
  rw [Store.getById_update_self s id (f := Job.setCompleted outputKeys r now) fun _ => rfl, hrow]
  rfl

theorem wrote_steps {write : Nat → Except StoreError Store} {res : Except Exc Unit}
    (hwrite : ∀ now t, write now = .ok t → StoreStep s t) (h : Wrote write s res t) :
    ReflTransGen StoreStep s t := by
  cases res with
  | ok a =>
    obtain ⟨now, hnow⟩ := h
    exact .single (hwrite now t hnow)
  | error e =>
    rcases h with rfl | ⟨now, hnow⟩
    · exact .refl
    · exact .single (hwrite now t hnow)

/-- The worker writes no more than others may. -/
theorem own_steps {op : Op G} {res : Except Exc op.Ans} (h : Own op s res t) :
    ReflTransGen StoreStep s t := by
  cases op with
  | setRunning i promptId clientId =>
    exact wrote_steps (fun now t ht => storeStep_apply (w := .setRunning i promptId clientId) ht) h
  | setCompleted i outputKeys result =>
    exact wrote_steps
      (fun now t ht => storeStep_apply (w := .setCompleted i outputKeys result) ht) h
  | setFailed i code message =>
    exact wrote_steps (fun now t ht => storeStep_apply (w := .setFailed i code message) ht) h
  | _ =>
    cases h
    exact .refl

end Stable

theorem Step.steps {op : Op G} {s s' : Shared} {r : Except Exc op.Ans} (h : Step op s r s') :
    ReflTransGen StoreStep s.world.store s'.world.store := by
  obtain ⟨t, hothers, hown⟩ := h.store
  exact hothers.trans (own_steps hown)

/-! ## Programs that give no result -/

/-- The future is left without a result. -/
def Mute : Op G → Prop
  | .setResult _ => False
  | _ => True

theorem mute_ask {op : Op G} (h : Mute op) : (ask op).All Mute := (Co.all_call op).mpr h

theorem mute_failJob (job : Job) (code message : String) (e : Exc) :
    (failJob job code message e : Prog G α).All Mute := by
  unfold failJob
  exact Co.all_bind (mute_ask trivial) fun _ => Co.all_bind (mute_ask trivial) fun _ => trivial

theorem mute_orUnreachable {job : Job} {q : Prog G α} (hq : q.All Mute) :
    (orUnreachable job q).All Mute := by
  refine Co.all_tryCatch hq fun e => ?_
  split
  · exact mute_failJob _ _ _ _
  · trivial

theorem mute_orStorage {job : Job} {q : Prog G α} (hq : q.All Mute) :
    (orStorage job q).All Mute := by
  refine Co.all_tryCatch hq fun e => ?_
  split
  · exact mute_failJob _ _ _ _
  · trivial

theorem mute_exceptException {q : Prog G α} {h : Exc → Prog G α} (hq : q.All Mute)
    (hh : ∀ e, (h e).All Mute) : (exceptException q h).All Mute := by
  refine Co.all_tryCatch hq fun e => ?_
  split
  · exact hh e
  · trivial

section Stages

variable {svc : Service G} {job : Job} {p : Prepared G}

theorem mute_uploadInitImage : (uploadInitImage svc job p).All Mute := by
  unfold uploadInitImage
  split
  · trivial
  · refine Co.all_bind ?_ fun _ => Co.all_ofExcept _
    exact mute_orUnreachable (mute_ask trivial)

theorem mute_hasSwapHeadroom (model : ModelConfig) : (hasSwapHeadroom svc model).All Mute := by
  unfold hasSwapHeadroom
  split
  · refine Co.all_bind (mute_exceptException ?_ fun _ => trivial) fun snapshot => ?_
    · exact Co.all_bind (mute_ask trivial) fun _ => trivial
    · split
      · trivial
      · exact Co.all_bind (mute_ask trivial) fun _ => trivial
  · trivial

theorem mute_enforceSwap (model : ModelConfig) : (enforceSwap svc job model).All Mute := by
  unfold enforceSwap
  refine Co.all_bind (mute_ask trivial) fun last => ?_
  split
  · trivial
  split
  · trivial
  refine Co.all_bind (mute_ask trivial) fun unloaded => ?_
  split
  · trivial
  refine Co.all_bind (mute_hasSwapHeadroom model) fun ok => ?_
  split
  · trivial
  · exact mute_failJob _ _ _ _

theorem mute_submit (model : ModelConfig) (graph : G) : (submit job model graph).All Mute := by
  refine Co.all_tryCatch (mute_ask trivial) fun e => ?_
  split
  · exact mute_failJob _ _ _ _
  · exact mute_failJob _ _ _ _
  · trivial

theorem mute_safeCancel (promptId : String) : (safeCancel promptId : Prog G Unit).All Mute :=
  mute_exceptException (mute_ask trivial) fun _ => trivial

theorem mute_markRunning (promptId : String) : (markRunning svc job promptId).All Mute := by
  refine mute_exceptException ?_ fun e => ?_
  · exact Co.all_bind (mute_ask trivial) fun _ => mute_ask trivial
  · exact Co.all_bind (mute_safeCancel promptId) fun _ => trivial

theorem mute_awaitCompletion (promptId : String) (timeoutS : PyFloat) :
    (awaitCompletion job promptId timeoutS : Prog G Unit).All Mute := by
  refine Co.all_tryCatch (mute_ask trivial) fun e => ?_
  split
  · refine Co.all_bind (mute_safeCancel promptId) fun _ => Co.all_bind ?_ fun _ =>
      mute_failJob _ _ _ _
    exact mute_exceptException (Co.all_bind (mute_ask trivial) fun _ => trivial) fun _ => trivial
  · exact mute_failJob _ _ _ _
  · trivial

theorem mute_generate : (generate svc job p).All Mute := by
  unfold generate
  refine Co.all_bind mute_uploadInitImage fun graph => ?_
  refine Co.all_bind (mute_enforceSwap p.model) fun _ => ?_
  refine Co.all_bind (mute_submit p.model graph) fun promptId => ?_
  refine Co.all_bind (mute_markRunning promptId) fun _ => ?_
  refine Co.all_bind (Co.all_ofExcept _) fun timeoutS => ?_
  exact Co.all_bind (mute_awaitCompletion promptId timeoutS) fun _ => trivial

theorem mute_uploadPngs (images : List Bytes) (idx : Nat) :
    (uploadPngs job idx images : Prog G _).All Mute := by
  induction images generalizing idx with
  | nil => trivial
  | cons png rest ih =>
    exact Co.all_bind (mute_ask trivial) fun _ => Co.all_bind (ih (idx + 1)) fun _ => trivial

theorem mute_uploadBlobs (blobs : List (Bytes × String)) (idx : Nat) :
    (uploadBlobs svc job idx blobs).All Mute := by
  induction blobs generalizing idx with
  | nil => trivial
  | cons row rest ih =>
    refine Co.all_bind ?_ fun _ => Co.all_bind (ih (idx + 1)) fun _ => trivial
    unfold uploadBlob
    split <;> exact mute_ask trivial

end Stages

/-! ## A pipeline that returns has recorded its result -/

section Pipeline

variable {svc : Service G} {job : Job} {p : Prepared G} {id : String} {s s' : Shared}

/-- The end of a pipeline. -/
def Recorded (id : String) (res : Except Exc JobResult) (s : Shared) : Prop :=
  s.result = none ∧ ∀ r, res = .ok r → Done id r s.world.store

theorem told_of_none (h : s.result = none) : Told id s := fun r hr => by
  rw [h] at hr
  cases hr

theorem Step.mute {op : Op G} {r : Except Exc op.Ans} (h : Step op s r s') (hop : Mute op)
    (hnone : s.result = none) : s'.result = none := by
  have hsame : answered op s.result = s.result := by
    cases op with
    | setResult r => exact hop.elim
    | _ => rfl
  rw [h.result, hsame, hnone]

theorem holds_mute {q : Prog G α} (hq : q.All Mute) (h : s.result = none) :
    q.Holds Step (Told id) (fun _ s' => s'.result = none) s := by
  refine Co.holds_of_all (fun op u r u' hop hu hstep => ?_) hq h
  have hnone : u'.result = none := hstep.mute hop hu
  exact ⟨told_of_none hnone, hnone⟩

/-- A stage that gives no result, before the rest. -/
theorem recorded_bind {q : Prog G α} {f : α → Prog G JobResult} (hq : q.All Mute)
    (h : s.result = none)
    (hf : ∀ a s', s'.result = none → (f a).Holds Step (Told id) (Recorded id) s') :
    (q >>= f).Holds Step (Told id) (Recorded id) s := by
  refine Co.holds_bind ((holds_mute hq h).mono ?_)
  rintro (e | a) s' hs'
  · exact ⟨hs', fun r hr => (by cases hr)⟩
  · exact hf a s' hs'

theorem recorded_throw (e : Exc) (h : s.result = none) :
    (throw e : Prog G JobResult).Holds Step (Told id) (Recorded id) s :=
  ⟨h, fun r hr => (by cases hr)⟩

theorem recorded_failJob (code message : String) (e : Exc) (h : s.result = none) :
    (failJob job code message e : Prog G JobResult).Holds Step (Told id) (Recorded id) s := by
  unfold failJob
  refine recorded_bind (mute_ask trivial) h fun _ s1 h1 => ?_
  exact recorded_bind (mute_ask trivial) h1 fun _ s2 h2 => recorded_throw e h2

theorem recorded_raiseFailure (failure : PrepareFailure) (h : s.result = none) :
    (raiseFailure job failure : Prog G JobResult).Holds Step (Told id) (Recorded id) s := by
  unfold raiseFailure
  split
  · exact recorded_failJob _ _ _ h
  · exact recorded_bind (mute_ask trivial) h fun _ s1 h1 => recorded_throw _ h1
  · exact recorded_throw _ h

theorem recorded_finish (outputKeys : List String) (data : List DataEntry)
    (h : s.result = none) :
    (finish job p outputKeys data : Prog G JobResult).Holds Step (Told job.id)
      (Recorded job.id) s := by
  unfold finish
  refine recorded_bind (mute_ask trivial) h fun durationMs s1 h1 => ?_
  refine Co.holds_bind (Co.holds_call _ s1 fun res s2 hstep => ?_)
  have h2 : s2.result = none := hstep.mute trivial h1
  refine ⟨told_of_none h2, ?_⟩
  obtain ⟨t, -, hown⟩ := hstep.store
  rcases res with e | _
  · exact ⟨h2, fun r hr => (by cases hr)⟩
  · obtain ⟨now, hnow⟩ := hown
    have hdone := done_setCompleted hnow
    -- the name of the model changes no row
    refine Co.holds_bind (Co.holds_call _ s2 fun res s3 hstep' => ?_)
    have h3 : s3.result = none := hstep'.mute trivial h2
    refine ⟨told_of_none h3, ?_⟩
    rcases res with e | _
    · exact ⟨h3, fun r hr => (by cases hr)⟩
    · refine ⟨h3, fun r hr => ?_⟩
      cases hr
      exact hdone.steps hstep'.steps

theorem recorded_deliverImages (transparentBackground : Bool) (promptId : String)
    (h : s.result = none) :
    (deliverImages svc job p transparentBackground promptId).Holds Step (Told job.id)
      (Recorded job.id) s := by
  unfold deliverImages
  refine recorded_bind (mute_orUnreachable (mute_ask trivial)) h fun images s1 h1 => ?_
  split
  · exact recorded_failJob _ _ _ h1
  split
  · exact recorded_failJob _ _ _ h1
  · exact recorded_bind (mute_orStorage (mute_uploadPngs _ _)) h1 fun keys s2 h2 =>
      recorded_finish _ _ h2

theorem recorded_deliverMedia (missingFetchMedia zeroOutputs promptId : String)
    (h : s.result = none) :
    (deliverMedia svc job p missingFetchMedia zeroOutputs promptId).Holds Step (Told job.id)
      (Recorded job.id) s := by
  unfold deliverMedia
  split
  · refine recorded_bind (mute_orUnreachable (mute_ask trivial)) h fun rows s1 h1 => ?_
    split
    · exact recorded_failJob _ _ _ h1
    · exact recorded_bind (mute_orStorage (mute_uploadBlobs _ _)) h1 fun keys s2 h2 =>
        recorded_finish _ _ h2
  · exact recorded_bind (mute_ask trivial) h fun _ s1 h1 => recorded_throw _ h1

theorem recorded_runPipeline (svc : Service G) (job : Job) (h : s.result = none) :
    (runPipeline svc job).Holds Step (Told job.id) (Recorded job.id) s := by
  unfold runPipeline
  refine recorded_bind (mute_ask trivial) h fun drawn s1 h1 => ?_
  split
  · exact recorded_raiseFailure _ h1
  · unfold runPrepared
    refine recorded_bind mute_generate h1 fun promptId s2 h2 => ?_
    split
    · exact recorded_deliverImages _ _ h2
    · exact recorded_deliverMedia _ _ _ h2

end Pipeline

/-! ## One item of the queue -/

section Item

variable {svc : Service G} {job : Job} {id : String} {s : Shared}

theorem told_completedBranch {r : JobResult} (h : s.result = none)
    (hdone : Done id r s.world.store) :
    (completedBranch r : Prog G Unit).Holds Step (Told id) (fun _ => Told id) s := by
  unfold completedBranch
  refine Co.holds_bind (Co.holds_call _ s fun res s1 hstep => ?_)
  have h1 : s1.result = none := hstep.mute trivial h
  refine ⟨told_of_none h1, ?_⟩
  rcases res with e | _
  · exact told_of_none h1
  · refine Co.holds_call _ s1 fun res s2 hstep' => ?_
    have htold : Told id s2 := by
      intro r' hr'
      rw [hstep'.result, h1] at hr'
      cases hr'
      exact (hdone.steps hstep.steps).steps hstep'.steps
    exact ⟨htold, htold⟩

/-- The future gets a result only when the row has it. -/
theorem told_processOne (svc : Service G) (job : Job) (h : s.result = none) :
    (processOne (runPipeline svc job) job).Holds Step (Told job.id) (fun _ => Told job.id) s := by
  unfold processOne
  refine Co.holds_bind ?_
  have houtcome : (tryCatch (Except.ok <$> runPipeline svc job) fun e => pure (Except.error e) :
      Prog G (Except Exc JobResult)).Holds Step (Told job.id)
      (fun res s' => ∃ outcome, res = .ok outcome ∧ Recorded job.id outcome s') s := by
    refine Co.holds_tryCatch ?_
    change (runPipeline svc job >>= fun r => pure (Except.ok r)).Holds _ _ _ _
    refine Co.holds_bind ((recorded_runPipeline svc job h).mono ?_)
    rintro (e | r) s' hs'
    · exact ⟨.error e, rfl, hs'⟩
    · exact ⟨.ok r, rfl, hs'⟩
  refine houtcome.mono ?_
  rintro res s' ⟨outcome, rfl, hnone, hdone⟩
  have hmute : ∀ {q : Prog G Unit}, q.All Mute →
      q.Holds Step (Told job.id) (fun _ => Told job.id) s' :=
    fun hq => (holds_mute hq hnone).mono fun _ _ hs => told_of_none hs
  cases outcome with
  | ok r => exact told_completedBranch hnone (hdone r rfl)
  | error e =>
    dsimp only
    split
    · exact hmute (Co.all_bind (mute_ask trivial) fun _ => mute_ask trivial)
    split
    · exact hmute (Co.all_bind (mute_ask trivial) fun _ =>
        Co.all_bind (mute_ask trivial) fun _ => mute_ask trivial)
    · exact told_of_none hnone

end Item

/-! ## The worker alone -/

section Alone

variable {env : Env G} {s : Shared}

/-- An operation of the worker's process, when nobody else writes. -/
def execShared (env : Env G) (op : Op G) (s : Shared) : Except Exc op.Ans × Shared :=
  ((exec env op s.world).1, ⟨(exec env op s.world).2, answered op s.result⟩)

theorem wrote_execStore (env : Env G) (w : World) (write : Store → Nat → Except StoreError Store) :
    Wrote (write w.store) w.store (execStore env w write).1 (execStore env w write).2.store := by
  unfold execStore
  rcases env.fault w.storeWrites with _ | ⟨committed, raised⟩
  · dsimp only
    rcases hwrite : write w.store (env.clock w.storeWrites) with e | t
    · exact .inl rfl
    · exact ⟨_, hwrite⟩
  · cases committed with
    | false => exact .inl rfl
    | true =>
      dsimp only
      rcases hwrite : write w.store (env.clock w.storeWrites) with e | t
      · exact .inl rfl
      · exact .inr ⟨_, hwrite⟩

theorem store_resolve (w : World) (f : FutureState) : (w.resolve f).store = w.store := by
  unfold World.resolve
  split <;> rfl

/-- The process is one of those that the results are about. -/
theorem step_execShared (env : Env G) (op : Op G) (s : Shared) :
    Step op s (execShared env op s).1 (execShared env op s).2 := by
  refine ⟨⟨s.world.store, .refl, ?_⟩, rfl⟩
  cases op with
  | call c =>
    change (exec env (.call c) s.world).2.store = s.world.store
    rcases hc : env.backend c with e | a
    · rw [exec_call_error hc]
    · rw [exec_call_ok hc]
      cases c <;> rfl
  | setRunning id promptId clientId => exact wrote_execStore env s.world _
  | setCompleted id outputKeys result => exact wrote_execStore env s.world _
  | setFailed id code message => exact wrote_execStore env s.world _
  | setResult r => exact store_resolve _ _
  | setException e => exact store_resolve _ _
  | _ => rfl

theorem run_execShared (env : Env G) (q : Prog G α) (s : Shared) :
    (q.run (execShared env) s).2.world = (q.run (exec env) s.world).2 := by
  induction q generalizing s with
  | ret a => rfl
  | raise e => rfl
  | await op k ih => exact ih _ _

/-- What the handler hears is what the worker gave. -/
structure Heard (s : Shared) : Prop where
  result : ∀ r, s.world.future = some (.result r) → s.result = some r
  settled : s.result ≠ none → s.world.future ≠ some .pending

theorem future_exec (w : World) {op : Op G} (hresult : Mute op)
    (hexception : ∀ e, op ≠ .setException e) : (exec env op w).2.future = w.future := by
  have hstore : ∀ write, (execStore env w write).2.future = w.future := by
    intro write
    unfold execStore
    dsimp only
    split
    · rfl
    split
    · rfl
    split <;> rfl
  cases op with
  | call c =>
    rcases hc : env.backend c with e | a
    · rw [exec_call_error hc]
    · rw [exec_call_ok hc]
      cases c <;> rfl
  | setRunning id promptId clientId => exact hstore _
  | setCompleted id outputKeys result => exact hstore _
  | setFailed id code message => exact hstore _
  | setResult r => exact hresult.elim
  | setException e => exact absurd rfl (hexception e)
  | _ => rfl

theorem heard_step (h : Heard s) (op : Op G) : Heard (execShared env op s).2 := by
  by_cases hresolves : Mute op ∧ ∀ e, op ≠ .setException e
  · obtain ⟨hmute, hexception⟩ := hresolves
    have hfuture : (exec env op s.world).2.future = s.world.future :=
      future_exec s.world hmute hexception
    have hsame : answered op s.result = s.result := by
      cases op with
      | setResult r => exact hmute.elim
      | _ => rfl
    refine ⟨fun r hr => ?_, fun hne => ?_⟩
    · exact hsame.trans (h.result r (hfuture ▸ hr))
    · intro hpending
      exact h.settled (hsame ▸ hne) (hfuture ▸ hpending)
  cases op with
  | setResult r =>
    by_cases hpending : s.world.future = some .pending
    · have hnone : s.result = none := by
        by_contra hne
        exact h.settled hne hpending
      refine ⟨fun r' hr' => ?_, fun _ hp => ?_⟩
      · simp only [execShared, exec, World.resolve, hpending, if_true, Option.some.injEq,
          FutureState.result.injEq] at hr'
        simp [execShared, answered, hnone, hr']
      · simp [execShared, exec, World.resolve, hpending] at hp
    · refine ⟨fun r' hr' => ?_, fun _ hp => ?_⟩
      · simp only [execShared, exec, World.resolve, hpending, if_false] at hr'
        have hold := h.result r' hr'
        simp [execShared, answered, hold]
      · simp only [execShared, exec, World.resolve, hpending, if_false] at hp
  | setException e =>
    by_cases hpending : s.world.future = some .pending
    · refine ⟨fun r' hr' => ?_, fun _ hp => ?_⟩
      · simp [execShared, exec, World.resolve, hpending] at hr'
      · simp [execShared, exec, World.resolve, hpending] at hp
    · refine ⟨fun r' hr' => ?_, fun _ hp => ?_⟩
      · simp only [execShared, exec, World.resolve, hpending, if_false] at hr'
        exact h.result r' hr'
      · simp only [execShared, exec, World.resolve, hpending, if_false] at hp
  | _ => exact absurd ⟨trivial, fun e he => (by cases he)⟩ hresolves

/-- A handler that waits hears a result only when the row has it. -/
theorem done_of_future (svc : Service G) (job : Job) (env : Env G) (w : World)
    (hpending : w.future = some .pending) {r : JobResult}
    (hr : ((processOne (runPipeline svc job) job).run (exec env) w).2.future = some (.result r)) :
    ∃ s', (processOne (runPipeline svc job) job).Stops Step ⟨w, none⟩ s' ∧ s'.result = some r ∧
      s'.world = ((processOne (runPipeline svc job) job).run (exec env) w).2 := by
  have hworld := run_execShared env (processOne (runPipeline svc job) job) ⟨w, none⟩
  have hstart : Heard ⟨w, none⟩ := by
    refine ⟨fun r hr => ?_, fun hne => absurd rfl hne⟩
    rw [hpending] at hr
    cases hr
  have hheard : Heard ((processOne (runPipeline svc job) job).run (execShared env) ⟨w, none⟩).2 :=
    Co.run_of_all (I := Heard) (P := fun _ => True) (fun op s _ hs => heard_step hs op)
      (Co.all_of_forall (fun _ => trivial) _) hstart
  refine ⟨_, Co.stops_of_endsIn (Co.endsIn_run (step_execShared env) _ _), ?_, hworld⟩
  exact hheard.result r (hworld ▸ hr)

end Alone

/-! ## The answer and the row -/

/-- What a synchronous request is answered with images is what each later poll, and each
webhook that is built later, tells of the job: at every moment from the answer on, with any
writes of others between the operations of the worker and after them. -/
theorem a_sync_answer_is_the_row (svc : Service G) (job : Job) {s s' : Shared}
    (hfresh : s.result = none) (hrun : (processOne (runPipeline svc job) job).Stops Step s s')
    {r : JobResult} (hr : s'.result = some r) {t : Store}
    (hlater : ReflTransGen StoreStep s'.world.store t) :
    ∃ row, t.getById job.id = some row ∧ row.status = .completed ∧ row.resultJson = some r ∧
      ∀ created body, answer created (.result r) = some (200, body) →
        Json.get (pollBody row) "data" = Json.get body "data" ∧
        ∀ sent, Json.get (payloadJob row sent) "data" = Json.get body "data" := by
  have htold : Told job.id s' := by
    rcases Co.stops_of_holds (told_processOne svc job hfresh) hrun with rfl | htold
    · exact told_of_none hfresh
    · exact htold
  obtain ⟨row, hrow, hstatus, hresult⟩ := (htold r hr).steps hlater
  refine ⟨row, hrow, hstatus, hresult, fun created body hbody => ?_⟩
  obtain ⟨r', heq, hdata⟩ := result_of_answer hbody
  cases heq
  have hpoll : Json.get (pollBody row) "data" = Json.get body "data" := by
    rw [hdata]
    simp [pollBody, hstatus, hresult, Json.get, List.lookup_cons]
  refine ⟨hpoll, fun sent => ?_⟩
  rw [hdata]
  simp [payloadJob, dispatcher.buildPayload, hstatus, hresult, Json.get, List.lookup_cons]

/-- The small service makes an image. -/
def smallShared : Shared :=
  ((processOne (runPipeline smallService (smallJob "a" "x")) (smallJob "a" "x")).run
    (execShared (smallEnv willing)) ⟨smallWorld [smallJob "a" "x"], none⟩).2

theorem smallShared_result : smallShared.result = some ⟨[.url "/v1/images/a/0.png"], 0, 1⟩ := by
  decide +kernel

/-- The row is marked after the answer. -/
theorem the_small_answer_is_the_row : ∃ row,
    Store.getById (smallShared.world.store.update "a" fun j => { j with webhookHandover := true })
      "a" = some row ∧ row.resultJson = some ⟨[.url "/v1/images/a/0.png"], 0, 1⟩ := by
  have hrun : (processOne (runPipeline smallService (smallJob "a" "x")) (smallJob "a" "x")).Stops
      Step ⟨smallWorld [smallJob "a" "x"], none⟩ smallShared :=
    Co.stops_of_endsIn (Co.endsIn_run (step_execShared (smallEnv willing)) _ _)
  have hmarked : StoreStep smallShared.world.store
      (smallShared.world.store.update "a" fun j => { j with webhookHandover := true }) :=
    storeStep_flags "a" (fun _ => rfl) fun _ => ⟨⟨rfl, rfl, rfl, rfl, rfl⟩, rfl⟩
  obtain ⟨row, hrow, -, hresult, -⟩ := a_sync_answer_is_the_row smallService (smallJob "a" "x") rfl
    hrun smallShared_result (.single hmarked)
  exact ⟨row, hrow, hresult⟩

end image_gen.sync_answers

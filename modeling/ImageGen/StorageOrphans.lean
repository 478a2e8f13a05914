-- What the worker leaves in the object store. It never deletes an object, and
-- keeps the addresses to itself until `set_completed`: a job that ends in any
-- other way leaves objects that no row lists.
import ImageGen.Reaper
import ImageGen.Worker

namespace image_gen.storage_orphans

open image_gen.coroutine image_gen.json image_gen.job_store image_gen.requests
  image_gen.storage image_gen.worker
open image_gen.reaper (scanned Reapable Listed listed_iff entries)

variable {G α : Type}

/-! ## The uploads of a run -/

/-- The operations of a run with their answers. -/
abbrev Log (G : Type) := List (Co.Event Exc (Op.Ans (G := G)))

/-- The address that an upload returns. -/
def uploaded : Co.Event Exc (Op.Ans (G := G)) → List Address
  | ⟨.call (.uploadPng _ _ _), .ok a⟩ => [a]
  | ⟨.call (.uploadGenerationBlob _ _ _ _ _), .ok a⟩ => [a]
  | _ => []

def uploads (log : Log G) : List Address := log.flatMap uploaded

/-- `f"{bucket}/{key}"`. -/
def entry (a : Address) : String := a.1 ++ "/" ++ a.2

/-- The operation uploads nothing and completes nothing. -/
def Plain : Op G → Prop
  | .call (.uploadPng _ _ _) => False
  | .call (.uploadGenerationBlob _ _ _ _ _) => False
  | .setCompleted _ _ _ => False
  | _ => True

/-- A plain operation that submits nothing. -/
def Silent : Op G → Prop
  | .call (.submit _ _) => False
  | op => Plain op

theorem Silent.plain {op : Op G} (h : Silent op) : Plain op := by
  unfold Silent at h
  split at h
  · exact h.elim
  · exact h

theorem uploaded_plain {op : Op G} (h : Plain op) (r : Except Exc op.Ans) :
    uploaded ⟨op, r⟩ = [] := by
  cases op with
  | call c =>
    cases c <;> first
      | exact h.elim
      | cases r <;> rfl
  | setCompleted id keys result => exact h.elim
  | _ => cases r <;> rfl

/-! ## The row -/

/-- The job is not completed, and its row lists what it listed before. -/
def Unfinished (id : String) (keys : Option (List String)) (s : Store) : Prop :=
  s.Keyed ∧ ∃ row, s.getById id = some row ∧ row.status ≠ .completed ∧ row.outputKeys = keys

/-- The job is completed, and its row lists the entries. -/
def Recorded (id : String) (listed : List String) (s : Store) : Prop :=
  s.Keyed ∧ ∃ row, s.getById id = some row ∧ row.status = .completed ∧
    row.outputKeys = some listed

theorem unfinished_transition {id id' : String} {keys : Option (List String)} {s t : Store}
    {target : JobStatus} {f : Job → Job} (hid : ∀ j, (f j).id = j.id)
    (hstatus : ∀ j, (f j).status ≠ .completed) (hkeys : ∀ j, (f j).outputKeys = j.outputKeys)
    (h : Unfinished id keys s) (hok : s.transition id' target f = .ok t) :
    Unfinished id keys t := by
  obtain ⟨hkeyed, row, hrow, hopen, hlisted⟩ := h
  obtain ⟨-, -, -, rfl⟩ := Store.transition_ok hok
  refine ⟨Store.keyed_update hkeyed id' hid, ?_⟩
  by_cases heq : id = id'
  · subst heq
    refine ⟨f row, ?_, hstatus row, (hkeys row).trans hlisted⟩
    rw [Store.getById_update_self s id hid, hrow]
    rfl
  · exact ⟨row, (Store.getById_update_ne s hid heq).trans hrow, hopen, hlisted⟩

/-- A completed row takes no transition. -/
theorem recorded_transition {id id' : String} {listed : List String} {s t : Store}
    {target : JobStatus} {f : Job → Job} (hid : ∀ j, (f j).id = j.id)
    (h : Recorded id listed s) (hok : s.transition id' target f = .ok t) :
    Recorded id listed t := by
  obtain ⟨hkeyed, row, hrow, hdone, hlisted⟩ := h
  by_cases heq : id = id'
  · subst heq
    exact absurd hok (reaper.not_transition hrow hdone)
  · obtain ⟨-, -, -, rfl⟩ := Store.transition_ok hok
    exact ⟨Store.keyed_update hkeyed id' hid, row,
      (Store.getById_update_ne s hid heq).trans hrow, hdone, hlisted⟩

theorem recorded_setCompleted {id : String} {keys : Option (List String)} {s t : Store}
    {listed : List String} {result : JobResult} {now : Nat} (h : Unfinished id keys s)
    (hok : s.setCompleted id listed result now = .ok t) : Recorded id listed t := by
  obtain ⟨hkeyed, row, hrow, -, -⟩ := h
  obtain ⟨-, -, -, rfl⟩ := Store.transition_ok (f := Job.setCompleted listed result now) hok
  have hself := Store.getById_update_self s id (f := Job.setCompleted listed result now)
    (fun _ => rfl)
  rw [hrow] at hself
  exact ⟨Store.keyed_update hkeyed id (fun _ => rfl), _, hself, rfl, rfl⟩

/-! ## One operation -/

section Operations

variable {env : Env G} {w : World}

/-- A store write leaves the table as it was, or as the write makes it. An
error may come after the commit. -/
theorem execStore_store (env : Env G) (w : World)
    (write : Store → Nat → Except StoreError Store) :
    ((execStore env w write).2.store = w.store ∧ ∃ e, (execStore env w write).1 = .error e) ∨
      ∃ now, write w.store now = .ok (execStore env w write).2.store := by
  unfold execStore
  dsimp only
  split
  · exact Or.inl ⟨rfl, _, rfl⟩
  · rcases hw : write w.store (env.clock w.storeWrites) with e | t
    · exact Or.inl ⟨rfl, _, rfl⟩
    · refine Or.inr ⟨env.clock w.storeWrites, ?_⟩
      dsimp only
      split <;> exact hw

theorem store_resolve (w : World) (f : FutureState) : (w.resolve f).store = w.store := by
  unfold World.resolve
  split <;> rfl

/-- What transitions to running or failed keep, every operation but
`set_completed` keeps. -/
theorem exec_keeps {P : Store → Prop}
    (hrunning : ∀ s t id promptId clientId now, P s →
      s.setRunning id promptId clientId now = .ok t → P t)
    (hfailed : ∀ s t id code message now, P s → s.setFailed id code message now = .ok t → P t)
    {op : Op G} (hop : ∀ id keys result, op ≠ .setCompleted id keys result) (h : P w.store) :
    P (exec env op w).2.store := by
  cases op with
  | call c =>
    rcases hc : env.backend c with e | a
    · rw [exec_call_error hc]
      exact h
    · rw [exec_call_ok hc]
      cases c <;> exact h
  | setRunning id promptId clientId =>
    rcases execStore_store env w fun s now => s.setRunning id promptId clientId now with
      ⟨hsame, -⟩ | ⟨now, hok⟩
    · exact hsame.symm ▸ h
    · exact hrunning _ _ id promptId clientId now h hok
  | setCompleted id keys result => exact absurd rfl (hop id keys result)
  | setFailed id code message =>
    rcases execStore_store env w fun s now => s.setFailed id code message now with
      ⟨hsame, -⟩ | ⟨now, hok⟩
    · exact hsame.symm ▸ h
    · exact hfailed _ _ id code message now h hok
  | setResult r =>
    change P (w.resolve (.result r)).store
    rw [store_resolve]
    exact h
  | setException e =>
    change P (w.resolve (.exception e)).store
    rw [store_resolve]
    exact h
  | _ => exact h

theorem unfinished_exec {id : String} {keys : Option (List String)} {op : Op G}
    (hop : ∀ id keys result, op ≠ .setCompleted id keys result)
    (h : Unfinished id keys w.store) : Unfinished id keys (exec env op w).2.store := by
  apply exec_keeps _ _ hop h
  · intro s t id' promptId clientId now hs hok
    exact unfinished_transition (f := Job.setRunning promptId clientId now) (fun _ => rfl)
      (fun _ => by simp [Job.setRunning]) (fun _ => rfl) hs hok
  · intro s t id' code message now hs hok
    exact unfinished_transition (f := Job.setFailed code message now) (fun _ => rfl)
      (fun _ => by simp [Job.setFailed]) (fun _ => rfl) hs hok

theorem recorded_exec {id : String} {listed : List String} {op : Op G}
    (hop : ∀ id keys result, op ≠ .setCompleted id keys result)
    (h : Recorded id listed w.store) : Recorded id listed (exec env op w).2.store := by
  apply exec_keeps _ _ hop h
  · intro s t id' promptId clientId now hs hok
    exact recorded_transition (f := Job.setRunning promptId clientId now) (fun _ => rfl) hs hok
  · intro s t id' code message now hs hok
    exact recorded_transition (f := Job.setFailed code message now) (fun _ => rfl) hs hok

theorem not_setCompleted {op : Op G} (h : Plain op) :
    ∀ id keys result, op ≠ .setCompleted id keys result := by
  rintro id keys result rfl
  exact h

end Operations

/-! ## The stages without uploads -/

theorem silent_failJob (job : Job) (code message : String) (e : Exc) :
    (failJob job code message e : Prog G α).All Silent := by
  unfold failJob
  exact Co.all_bind ((Co.all_call _).mpr trivial) fun _ =>
    Co.all_bind ((Co.all_call _).mpr trivial) fun _ => trivial

section Stages

variable {svc : Service G} {job : Job} {p : Prepared G}

theorem silent_raiseFailure (failure : PrepareFailure) :
    (raiseFailure job failure : Prog G α).All Silent := by
  unfold raiseFailure
  split
  · exact silent_failJob _ _ _ _
  · exact Co.all_bind ((Co.all_call _).mpr trivial) fun _ => trivial
  · trivial

theorem silent_orUnreachable {q : Prog G α} (h : q.All Silent) :
    (orUnreachable job q).All Silent := by
  refine Co.all_tryCatch h fun e => ?_
  split
  · exact silent_failJob _ _ _ _
  · trivial

theorem silent_uploadInitImage : (uploadInitImage svc job p).All Silent := by
  unfold uploadInitImage
  split
  · trivial
  · refine Co.all_bind ?_ fun _ => Co.all_ofExcept _
    exact silent_orUnreachable ((Co.all_call _).mpr trivial)

theorem silent_hasSwapHeadroom (model : ModelConfig) : (hasSwapHeadroom svc model).All Silent := by
  unfold hasSwapHeadroom
  split
  · refine Co.all_bind (Co.all_tryCatch ?_ fun e => ?_) fun snapshot => ?_
    · exact Co.all_bind ((Co.all_call _).mpr trivial) fun _ => trivial
    · split <;> trivial
    · split
      · trivial
      · exact Co.all_bind ((Co.all_call _).mpr trivial) fun _ => trivial
  · trivial

theorem silent_enforceSwap (model : ModelConfig) : (enforceSwap svc job model).All Silent := by
  unfold enforceSwap
  refine Co.all_bind ((Co.all_call _).mpr trivial) fun last => ?_
  split
  · trivial
  split
  · trivial
  refine Co.all_bind ((Co.all_call _).mpr trivial) fun unloaded => ?_
  split
  · trivial
  refine Co.all_bind (silent_hasSwapHeadroom model) fun ok => ?_
  split
  · trivial
  · exact silent_failJob _ _ _ _

theorem plain_submit (model : ModelConfig) (graph : G) : (submit job model graph).All Plain := by
  refine Co.all_tryCatch ((Co.all_call _).mpr trivial) fun e => ?_
  split
  · exact (silent_failJob _ _ _ _).mono fun _ => Silent.plain
  · exact (silent_failJob _ _ _ _).mono fun _ => Silent.plain
  · trivial

theorem silent_safeCancel (promptId : String) : (safeCancel promptId : Prog G Unit).All Silent := by
  refine Co.all_tryCatch ((Co.all_call _).mpr trivial) fun e => ?_
  split <;> trivial

theorem silent_markRunning (promptId : String) : (markRunning svc job promptId).All Silent := by
  refine Co.all_tryCatch ?_ fun e => ?_
  · exact Co.all_bind ((Co.all_call _).mpr trivial) fun _ => (Co.all_call _).mpr trivial
  · split
    · exact Co.all_bind (silent_safeCancel promptId) fun _ => trivial
    · trivial

theorem silent_awaitCompletion (promptId : String) (timeoutS : PyFloat) :
    (awaitCompletion job promptId timeoutS : Prog G Unit).All Silent := by
  refine Co.all_tryCatch ((Co.all_call _).mpr trivial) fun e => ?_
  split
  · refine Co.all_bind (silent_safeCancel promptId) fun _ => Co.all_bind ?_ fun _ =>
      silent_failJob _ _ _ _
    refine Co.all_tryCatch (Co.all_bind ((Co.all_call _).mpr trivial) fun _ => trivial) fun e => ?_
    split <;> trivial
  · exact silent_failJob _ _ _ _
  · trivial

theorem plain_generate : (generate svc job p).All Plain := by
  have hplain : ∀ {α : Type} {q : Prog G α}, q.All Silent → q.All Plain :=
    fun hq => hq.mono fun _ => Silent.plain
  unfold generate
  refine Co.all_bind (hplain silent_uploadInitImage) fun graph => ?_
  refine Co.all_bind (hplain (silent_enforceSwap p.model)) fun _ => ?_
  refine Co.all_bind (plain_submit p.model graph) fun promptId => ?_
  refine Co.all_bind (hplain (silent_markRunning promptId)) fun _ => ?_
  refine Co.all_bind (Co.all_ofExcept _) fun timeoutS => ?_
  exact Co.all_bind (hplain (silent_awaitCompletion promptId timeoutS)) fun _ => trivial

end Stages

/-! ## The uploads -/

section Uploads

variable {env : Env G} {svc : Service G} {job : Job} {p : Prepared G} {id : String}
  {keys : Option (List String)}

/-- Nothing is completed, and what was uploaded are the objects of `listed`. -/
def Uploading (id : String) (keys : Option (List String)) (listed : List String)
    (s : World × Log G) : Prop :=
  Unfinished id keys s.1.store ∧ (uploads s.2).map entry = listed

/-- The end of a job: it lists all that was uploaded, or is not completed. -/
def Settled (id : String) (keys : Option (List String)) (s : World × Log G) : Prop :=
  Unfinished id keys s.1.store ∨ Recorded id ((uploads s.2).map entry) s.1.store

theorem uploads_append (log : Log G) (e : Co.Event Exc (Op.Ans (G := G))) :
    uploads (log ++ [e]) = uploads log ++ uploaded e := by
  simp [uploads, List.flatMap_append]

theorem uploading_logged {listed : List String} {op : Op G} {s : World × Log G} (hop : Plain op)
    (h : Uploading id keys listed s) : Uploading id keys listed (Co.logged (exec env) op s).2 := by
  refine ⟨unfinished_exec (not_setCompleted hop) h.1, ?_⟩
  simp only [Co.logged, uploads_append, uploaded_plain hop, List.append_nil]
  exact h.2

theorem settled_logged {op : Op G} {s : World × Log G} (hop : Plain op) (h : Settled id keys s) :
    Settled id keys (Co.logged (exec env) op s).2 := by
  rcases h with h | h
  · exact Or.inl (unfinished_exec (not_setCompleted hop) h)
  · refine Or.inr ?_
    simp only [Co.logged, uploads_append, uploaded_plain hop, List.append_nil]
    exact recorded_exec (not_setCompleted hop) h

theorem ends_plain {listed : List String} {q : Prog G α} (hq : q.All Plain) {s : World × Log G}
    (h : Uploading id keys listed s) :
    q.Ends (Co.logged (exec env)) (fun _ => Uploading id keys listed) (Settled id keys) s := by
  have hstep : ∀ (op : Op G) (s : World × Log G), Plain op → Uploading id keys listed s →
      Uploading id keys listed (Co.logged (exec env) op s).2 :=
    fun _ _ hop hs => uploading_logged hop hs
  have hall := Co.ends_of_all hstep hq h
  exact hall.mono (fun _ _ hs => hs) fun _ hs => Or.inl hs.1

/-- An `except` clause writes the failure, and raises whatever comes of it. -/
theorem ends_failJob_of {I : World × Log G → Prop}
    (hI : ∀ (op : Op G) s, Silent op → I s → I (Co.logged (exec env) op s).2)
    {A : α → World × Log G → Prop} (code message : String) (e : Exc) {s : World × Log G}
    (h : I s) : (failJob job code message e : Prog G α).Ends (Co.logged (exec env)) A I s := by
  have hask : ∀ (op : Op G) (s : World × Log G), Silent op → I s →
      (ask op).Ends (Co.logged (exec env)) (fun _ => I) I s :=
    fun op s hop hs => Co.ends_of_all hI ((Co.all_call op).mpr hop) hs
  unfold failJob
  refine Co.ends_bind (hask (.setFailed job.id code message) s trivial h) fun _ s1 h1 => ?_
  refine Co.ends_bind (hask (.recordJobEvent "failed" (some code)) s1 trivial h1) fun _ s2 h2 => ?_
  exact Co.ends_throw h2

theorem ends_failJob {A : α → World × Log G → Prop} (code message : String) (e : Exc)
    {s : World × Log G} (h : Unfinished id keys s.1.store) :
    (failJob job code message e : Prog G α).Ends (Co.logged (exec env)) A
      (fun s => Unfinished id keys s.1.store) s :=
  ends_failJob_of (I := fun s => Unfinished id keys s.1.store)
    (fun _ _ hop hs => unfinished_exec (not_setCompleted hop.plain) hs) _ _ _ h

theorem ends_orStorage {A : α → World × Log G → Prop} {q : Prog G α} {s : World × Log G}
    (h : q.Ends (Co.logged (exec env)) A (fun s => Unfinished id keys s.1.store) s) :
    (orStorage job q).Ends (Co.logged (exec env)) A (fun s => Unfinished id keys s.1.store) s := by
  refine Co.ends_tryCatch h fun e s' hs' => ?_
  split
  · exact ends_failJob _ _ _ hs'
  · exact Co.ends_throw hs'

theorem ends_comfyError {A : α → World × Log G → Prop} (message : String) {s : World × Log G}
    (h : Unfinished id keys s.1.store) :
    (comfyError job message : Prog G α).Ends (Co.logged (exec env)) A
      (fun s => Unfinished id keys s.1.store) s :=
  ends_failJob _ _ _ h

/-- What is unfinished is settled. -/
theorem ends_unfinished {A : α → World × Log G → Prop} {q : Prog G α} {s : World × Log G}
    (h : q.Ends (Co.logged (exec env)) A (fun s => Unfinished id keys s.1.store) s) :
    q.Ends (Co.logged (exec env)) A (Settled id keys) s :=
  h.mono (fun _ _ hs => hs) fun _ hs => Or.inl hs

/-- One more object is there, and one more entry is kept, or the upload raised. -/
theorem ends_upload {listed : List String} {c : Call G} (hans : c.Ans = Address)
    (hup : ∀ a : c.Ans, uploaded ⟨.call c, .ok a⟩ = [hans ▸ a]) {s : World × Log G}
    (h : Uploading id keys listed s) :
    (ask (.call c)).Ends (Co.logged (exec env))
      (fun a => Uploading id keys (listed ++ [entry (hans ▸ a)]))
      (fun s => Unfinished id keys s.1.store) s := by
  have hrow : Unfinished id keys (exec env (.call c) s.1).2.store :=
    unfinished_exec (fun _ _ _ heq => by cases heq) h.1
  unfold Co.Ends ask
  rw [Co.run_call]
  simp only [Co.logged]
  rcases hexec : exec env (.call c) s.1 with ⟨e | a, w'⟩ <;> rw [hexec] at hrow
  · exact hrow
  · refine ⟨hrow, ?_⟩
    simp only [uploads_append, hup, List.map_append, h.2, List.map_cons, List.map_nil]

theorem ends_uploadPngs (images : List Bytes) (idx : Nat) {listed : List String}
    {s : World × Log G} (h : Uploading id keys listed s) :
    (uploadPngs job idx images).Ends (Co.logged (exec env))
      (fun more => Uploading id keys (listed ++ more))
      (fun s => Unfinished id keys s.1.store) s := by
  induction images generalizing idx listed s with
  | nil =>
    apply Co.ends_pure
    rw [List.append_nil]
    exact h
  | cons png rest ih =>
    unfold uploadPngs
    refine Co.ends_bind (ends_upload (c := .uploadPng job.id idx png) rfl (fun _ => rfl) h) ?_
    rintro ⟨bucket, key⟩ s1 h1
    refine Co.ends_bind (ih (idx + 1) h1) fun more s2 h2 => Co.ends_pure ?_
    rw [List.append_assoc] at h2
    exact h2

theorem ends_uploadBlob (idx : Nat) (blob : Bytes) (ext : String) {listed : List String}
    {s : World × Log G} (h : Uploading id keys listed s) :
    (uploadBlob svc job idx blob ext).Ends (Co.logged (exec env))
      (fun a => Uploading id keys (listed ++ [entry a]))
      (fun s => Unfinished id keys s.1.store) s := by
  unfold uploadBlob
  split
  · exact ends_upload (c := .uploadGenerationBlob job.id idx blob ext (mediaContentType ext)) rfl
      (fun _ => rfl) h
  · exact ends_upload (c := .uploadPng job.id idx blob) rfl (fun _ => rfl) h

theorem ends_uploadBlobs (blobs : List (Bytes × String)) (idx : Nat) {listed : List String}
    {s : World × Log G} (h : Uploading id keys listed s) :
    (uploadBlobs svc job idx blobs).Ends (Co.logged (exec env))
      (fun more => Uploading id keys (listed ++ more))
      (fun s => Unfinished id keys s.1.store) s := by
  induction blobs generalizing idx listed s with
  | nil =>
    apply Co.ends_pure
    rw [List.append_nil]
    exact h
  | cons row rest ih =>
    obtain ⟨blob, ext⟩ := row
    unfold uploadBlobs
    refine Co.ends_bind (ends_uploadBlob idx blob ext h) ?_
    rintro ⟨bucket, key⟩ s1 h1
    refine Co.ends_bind (ih (idx + 1) h1) fun more s2 h2 => Co.ends_pure ?_
    rw [List.append_assoc] at h2
    exact h2

/-! ## The completion -/

/-- `set_completed` writes what was uploaded, or nothing. An error after its
commit leaves the row completed. -/
theorem ends_setCompleted {listed : List String} (result : JobResult) {s : World × Log G}
    (h : Uploading job.id keys listed s) :
    (setCompleted job.id listed result).Ends (Co.logged (exec env))
      (fun _ => Settled job.id keys) (Settled job.id keys) s := by
  have hsettled : Settled job.id keys
      (Co.logged (exec env) (.setCompleted job.id listed result) s).2 := by
    unfold Settled
    simp only [Co.logged, uploads_append]
    rcases execStore_store env s.1 fun t now => t.setCompleted job.id listed result now with
      ⟨hsame, -⟩ | ⟨now, hok⟩
    · exact Or.inl (hsame.symm ▸ h.1)
    · refine Or.inr ?_
      rw [uploaded.eq_def, List.append_nil, h.2]
      exact recorded_setCompleted h.1 hok
  unfold setCompleted Co.Ends ask
  rw [Co.run_call]
  split
  · rename_i heq
    rw [heq] at hsettled
    exact hsettled
  · rename_i heq
    rw [heq] at hsettled
    exact hsettled

/-- What is settled stays settled in a program that uploads nothing more. -/
theorem ends_settled {q : Prog G α} (hq : q.All Plain) {s : World × Log G}
    (h : Settled id keys s) :
    q.Ends (Co.logged (exec env)) (fun _ => Settled id keys) (Settled id keys) s := by
  have hstep : ∀ (op : Op G) (s : World × Log G), Plain op → Settled id keys s →
      Settled id keys (Co.logged (exec env) op s).2 := fun _ _ hop hs => settled_logged hop hs
  exact Co.ends_of_all hstep hq h

theorem ends_finish {listed : List String} (data : List DataEntry) {s : World × Log G}
    (h : Uploading job.id keys listed s) :
    (finish job p listed data).Ends (Co.logged (exec env)) (fun _ => Settled job.id keys)
      (Settled job.id keys) s := by
  unfold finish
  refine Co.ends_bind (ends_plain (q := readDurationMs) ((Co.all_call _).mpr trivial) h) ?_
  intro durationMs s1 h1
  refine Co.ends_bind (ends_setCompleted _ h1) fun _ s2 h2 => ?_
  refine Co.ends_bind (ends_settled (q := setLastModelName p.model.name)
    ((Co.all_call _).mpr trivial) h2) fun _ s3 h3 => Co.ends_pure h3

/-! ## The pipelines -/

theorem ends_deliverImages (transparentBackground : Bool) (promptId : String)
    {s : World × Log G} (h : Uploading job.id keys [] s) :
    (deliverImages svc job p transparentBackground promptId).Ends (Co.logged (exec env))
      (fun _ => Settled job.id keys) (Settled job.id keys) s := by
  unfold deliverImages
  have hfetch : (ask (.call (.fetchOutputs promptId)) : Prog G (List Bytes)).All Silent :=
    (Co.all_call _).mpr trivial
  refine Co.ends_bind (ends_plain ((silent_orUnreachable hfetch).mono fun _ => Silent.plain) h) ?_
  intro images s1 h1
  split
  · exact ends_unfinished (ends_comfyError _ h1.1)
  split
  · exact ends_unfinished (ends_comfyError _ h1.1)
  · refine Co.ends_bind
      (ends_unfinished (ends_orStorage (ends_uploadPngs _ 0 h1))) fun more s2 h2 => ?_
    exact ends_finish _ h2

theorem ends_deliverMedia (missingFetchMedia zeroOutputs promptId : String) {s : World × Log G}
    (h : Uploading job.id keys [] s) :
    (deliverMedia svc job p missingFetchMedia zeroOutputs promptId).Ends (Co.logged (exec env))
      (fun _ => Settled job.id keys) (Settled job.id keys) s := by
  unfold deliverMedia
  split
  · have hfetch : (ask (.call (.fetchMediaOutputs promptId)) :
        Prog G (List (Bytes × String))).All Silent := (Co.all_call _).mpr trivial
    refine Co.ends_bind
      (ends_plain ((silent_orUnreachable hfetch).mono fun _ => Silent.plain) h) ?_
    intro rows s1 h1
    split
    · exact ends_unfinished (ends_comfyError _ h1.1)
    · refine Co.ends_bind
        (ends_unfinished (ends_orStorage (ends_uploadBlobs _ 0 h1))) fun more s2 h2 => ?_
      exact ends_finish _ h2
  · refine Co.ends_bind (ends_plain (q := setFailed job.id "comfy_error" missingFetchMedia)
      ((Co.all_call _).mpr trivial) h) fun _ s1 h1 => ?_
    exact Co.ends_throw (Or.inl h1.1)

/-- What a pipeline keeps up to its submission, what it keeps from there to its
last stage, and what either leaves. -/
structure Phases (env : Env G) (U : World × Log G → Prop) (V : String → World × Log G → Prop)
    (S : World × Log G → Prop) : Prop where
  before : ∀ (op : Op G) s, Silent op → U s → U (Co.logged (exec env) op s).2
  after : ∀ promptId (op : Op G) s, Silent op → V promptId s →
    V promptId (Co.logged (exec env) op s).2
  submit : ∀ model graph s, U s →
    (ask (.call (.submit model graph))).Ends (Co.logged (exec env)) V U s
  unsent : ∀ s, U s → S s
  sent : ∀ promptId s, V promptId s → S s

section Pipeline

variable {U S : World × Log G → Prop} {V : String → World × Log G → Prop}

theorem ends_generate_of (ph : Phases env U V S) {s : World × Log G} (h : U s) :
    (generate svc job p).Ends (Co.logged (exec env)) V S s := by
  have hU : ∀ {α : Type} {q : Prog G α}, q.All Silent → ∀ s, U s →
      q.Ends (Co.logged (exec env)) (fun _ => U) S s :=
    fun hq s hs => (Co.ends_of_all ph.before hq hs).mono (fun _ _ hs => hs) fun s => ph.unsent s
  have hV : ∀ {α : Type} {q : Prog G α} promptId, q.All Silent → ∀ s, V promptId s →
      q.Ends (Co.logged (exec env)) (fun _ => V promptId) S s :=
    fun promptId hq s hs => (Co.ends_of_all (ph.after promptId) hq hs).mono (fun _ _ hs => hs)
      fun s => ph.sent promptId s
  have hsubmit : ∀ model graph s, U s →
      (worker.submit job model graph).Ends (Co.logged (exec env)) V S s := by
    intro model graph s hs
    refine Co.ends_tryCatch (ph.submit model.name graph s hs) fun e s' hs' => ?_
    have hfail : ∀ code message e', (failJob job code message e' : Prog G String).Ends
        (Co.logged (exec env)) V S s' := fun code message e' =>
      (ends_failJob_of ph.before code message e' hs').mono (fun _ _ hs => hs) fun s => ph.unsent s
    split
    · exact hfail _ _ _
    · exact hfail _ _ _
    · exact Co.ends_throw (ph.unsent _ hs')
  unfold generate
  refine Co.ends_bind (hU silent_uploadInitImage s h) fun graph s1 h1 => ?_
  refine Co.ends_bind (hU (silent_enforceSwap p.model) s1 h1) fun _ s2 h2 => ?_
  refine Co.ends_bind (hsubmit p.model graph s2 h2) fun promptId s3 h3 => ?_
  refine Co.ends_bind (hV promptId (silent_markRunning promptId) s3 h3) fun _ s4 h4 => ?_
  refine Co.ends_bind (hV promptId (Co.all_ofExcept _) s4 h4) fun timeoutS s5 h5 => ?_
  refine Co.ends_bind (hV promptId (silent_awaitCompletion promptId timeoutS) s5 h5) ?_
  exact fun _ s6 h6 => Co.ends_pure h6

/-- A pipeline uploads and completes in its last stage only. -/
theorem ends_runPipeline_of (ph : Phases env U V S)
    (himages : ∀ drawn p transparentBackground promptId s, prepare svc job drawn = .ok p →
      p.product = .image transparentBackground → V promptId s →
      (deliverImages svc job p transparentBackground promptId).Ends (Co.logged (exec env))
        (fun _ => S) S s)
    (hmedia : ∀ drawn p missingFetchMedia zeroOutputs promptId s, prepare svc job drawn = .ok p →
      p.product = .video missingFetchMedia zeroOutputs → V promptId s →
      (deliverMedia svc job p missingFetchMedia zeroOutputs promptId).Ends (Co.logged (exec env))
        (fun _ => S) S s)
    {s : World × Log G} (h : U s) :
    (runPipeline svc job).Ends (Co.logged (exec env)) (fun _ => S) S s := by
  have hU : ∀ {α : Type} {q : Prog G α}, q.All Silent → ∀ s, U s →
      q.Ends (Co.logged (exec env)) (fun _ => U) S s :=
    fun hq s hs => (Co.ends_of_all ph.before hq hs).mono (fun _ _ hs => hs) fun s => ph.unsent s
  unfold runPipeline
  refine Co.ends_bind (hU (q := randbelow) ((Co.all_call _).mpr trivial) s h) ?_
  intro drawn s1 h1
  split
  · refine (hU (silent_raiseFailure _) s1 h1).mono (fun _ s hs => ph.unsent s hs) fun _ hs => hs
  · rename_i p hp
    unfold runPrepared
    refine Co.ends_bind (ends_generate_of ph h1) fun promptId s2 h2 => ?_
    split
    · rename_i transparentBackground hproduct
      exact himages drawn p transparentBackground promptId s2 hp hproduct h2
    · rename_i missingFetchMedia zeroOutputs hproduct
      exact hmedia drawn p missingFetchMedia zeroOutputs promptId s2 hp hproduct h2

end Pipeline

/-- Up to the last stage nothing is uploaded. -/
theorem phases_uploading : Phases env (Uploading id keys []) (fun _ => Uploading id keys [])
    (Settled id keys) where
  before := fun _ _ hop hs => uploading_logged hop.plain hs
  after := fun _ _ _ hop hs => uploading_logged hop.plain hs
  submit := by
    intro model graph s hs
    have hstep : ∀ (op : Op G) (s : World × Log G), Plain op → Uploading id keys [] s →
        Uploading id keys [] (Co.logged (exec env) op s).2 :=
      fun _ _ hop hs => uploading_logged hop hs
    have hplain : (ask (.call (.submit model graph)) : Prog G String).All Plain :=
      (Co.all_call _).mpr trivial
    exact Co.ends_of_all hstep hplain hs
  unsent := fun _ hs => Or.inl hs.1
  sent := fun _ _ hs => Or.inl hs.1

theorem ends_runPipeline {s : World × Log G} (h : Uploading job.id keys [] s) :
    (runPipeline svc job).Ends (Co.logged (exec env)) (fun _ => Settled job.id keys)
      (Settled job.id keys) s :=
  ends_runPipeline_of phases_uploading (fun _ _ _ _ _ _ _ hs => ends_deliverImages _ _ hs)
    (fun _ _ _ _ _ _ _ _ hs => ends_deliverMedia _ _ _ hs) h

/-- What operations without an upload, a completion and a submission keep,
`_process_one` keeps after the pipeline. -/
theorem ends_processOne_of {S : World × Log G → Prop}
    (hstep : ∀ (op : Op G) s, Silent op → S s → S (Co.logged (exec env) op s).2)
    {q : Prog G JobResult} {s : World × Log G}
    (h : q.Ends (Co.logged (exec env)) (fun _ => S) S s) :
    (processOne q job).Ends (Co.logged (exec env)) (fun _ => S) S s := by
  unfold processOne
  refine Co.ends_bind (A := fun _ => S) ?_ fun outcome s1 h1 => ?_
  · have hpipeline : (Except.ok <$> q : Prog G (Except Exc JobResult)).Ends
        (Co.logged (exec env)) (fun _ => S) S s :=
      Co.ends_bind h fun _ s1 h1 => Co.ends_pure h1
    exact Co.ends_tryCatch hpipeline fun e s1 h1 => Co.ends_pure h1
  · refine Co.ends_of_all hstep ?_ h1
    split
    · exact Co.all_bind ((Co.all_call _).mpr trivial) fun _ => (Co.all_call _).mpr trivial
    split
    · exact Co.all_bind ((Co.all_call _).mpr trivial) fun _ => (Co.all_call _).mpr trivial
    split
    · refine Co.all_bind ((Co.all_call _).mpr trivial) fun _ => ?_
      exact Co.all_bind ((Co.all_call _).mpr trivial) fun _ => (Co.all_call _).mpr trivial
    · trivial

variable (env svc) in
theorem ends_processOne {s : World × Log G} (h : Uploading job.id keys [] s) :
    (processOne (runPipeline svc job) job).Ends (Co.logged (exec env))
      (fun _ => Settled job.id keys) (Settled job.id keys) s :=
  ends_processOne_of (fun _ _ hop hs => settled_logged hop.plain hs) (ends_runPipeline h)

end Uploads

/-! ## What a job leaves -/

theorem Settled.row {id : String} {keys : Option (List String)} {s : World × Log G}
    (h : Settled id keys s) :
    s.1.store.Keyed ∧ ∃ row, s.1.store.getById id = some row ∧
      (row.status = .completed → row.outputKeys = some ((uploads s.2).map entry)) ∧
      (row.status ≠ .completed → row.outputKeys = keys) := by
  rcases h with ⟨hkeyed, row, hrow, hopen, hkeys⟩ | ⟨hkeyed, row, hrow, hdone, hkeys⟩
  · exact ⟨hkeyed, row, hrow, fun h => absurd h hopen, fun _ => hkeys⟩
  · exact ⟨hkeyed, row, hrow, fun _ => hkeys, fun h => absurd hdone h⟩

/-- A job that ends completed lists every object that was uploaded for it, and
the reaper finds them there. A job that ends in any other way lists none of
them, and no pass of the reaper finds an entry of it. -/
theorem only_completed_jobs_list_their_objects (svc : Service G) (env : Env G) (job : Job)
    {w : World} {row : Job} (hkeyed : w.store.Keyed) (hrow : w.store.getById job.id = some row)
    (hopen : row.status ≠ .completed) :
    ∃ w' log row',
      ((processOne (runPipeline svc job) job).run (Co.logged (exec env)) (w, [])).2 = (w', log) ∧
      ((processOne (runPipeline svc job) job).run (exec env) w).2 = w' ∧
      w'.store.getById job.id = some row' ∧
      (row'.status = .completed →
        row'.outputKeys = some ((uploads log).map entry) ∧
          ∀ (ttl : Int) (began : Nat), row'.fetchedAt = none →
            (row'.updatedAt : Int) < began - ttl →
              ∀ a ∈ uploads log, (job.id, entry a) ∈ scanned ttl began w'.store) ∧
      (row'.status ≠ .completed →
        row'.outputKeys = row.outputKeys ∧
          ∀ ttl began listed, (job.id, listed) ∉ scanned ttl began w'.store) := by
  have hstart : Uploading job.id row.outputKeys [] (w, ([] : Log G)) :=
    ⟨⟨hkeyed, row, hrow, hopen, rfl⟩, rfl⟩
  have hends := (ends_processOne env svc hstart).either fun _ _ h => h
  obtain ⟨-, hsame⟩ := Co.run_logged (exec env) (processOne (runPipeline svc job) job) w []
  rcases hrun : ((processOne (runPipeline svc job) job).run (Co.logged (exec env)) (w, [])).2
    with ⟨w', log⟩
  rw [hrun] at hends hsame
  obtain ⟨hkeyed', row', hrow', hdone, hother⟩ := hends.row
  refine ⟨w', log, row', rfl, hsame.symm, hrow', fun h => ⟨hdone h, ?_⟩, fun h => ⟨hother h, ?_⟩⟩
  · intro ttl began hfetched hold a ha
    refine (listed_iff hkeyed').mpr ⟨row', hrow', ?_, h, hfetched, hold⟩
    unfold entries
    rw [hdone h]
    exact List.mem_map_of_mem ha
  · intro ttl began listed hmem
    obtain ⟨row'', hrow'', -, hreap⟩ := (listed_iff hkeyed').mp hmem
    change w'.store.getById job.id = some row'' at hrow''
    rw [hrow'] at hrow''
    cases hrow''
    exact h hreap.1

/-! ## A second upload that fails -/

def queuedWorld : World := smallWorld [smallJob "j" "m"]

theorem queuedWorld_keyed : queuedWorld.store.Keyed := by
  simp [Store.Keyed, queuedWorld, smallWorld]

theorem a_small_job_lists_its_object :
    ∃ w' log row',
      ((processOne (runPipeline smallService (smallJob "j" "m")) (smallJob "j" "m")).run
        (Co.logged (exec (smallEnv willing))) (queuedWorld, [])).2 = (w', log) ∧
      w'.store.getById "j" = some row' ∧ row'.outputKeys = some ["b/k"] ∧
      ∀ a ∈ uploads log, ("j", entry a) ∈ scanned 100 200 w'.store := by
  obtain ⟨w', log, row', hlog, hrun, hrow, hdone, -⟩ :=
    only_completed_jobs_list_their_objects smallService (smallEnv willing) (smallJob "j" "m")
      queuedWorld_keyed rfl (by decide)
  have hrow' : w'.store.getById "j" = some row' := hrow
  cases hrun
  cases hrow
  have hends := hdone rfl
  exact ⟨_, log, _, hlog, hrow', rfl, hends.2 100 200 rfl (by decide)⟩

/-- Two images, and an object store that fails at the second. -/
def failsAtTheSecond : (c : Call Unit) → Except Exc c.Ans
  | .fetchOutputs _ => .ok [pngMagic, pngMagic]
  | .uploadPng _ 0 _ => .ok ("b", "k")
  | .uploadPng _ _ _ => .error (.storage "put_object failed")
  | c => willing c

theorem the_first_object_is_orphaned :
    ∃ w' log, ((processOne (runPipeline smallService (smallJob "j" "m")) (smallJob "j" "m")).run
        (Co.logged (exec (smallEnv failsAtTheSecond))) (queuedWorld, [])).2 = (w', log) ∧
      uploads log = [("b", "k")] ∧
      (w'.store.getById "j").map (fun row => (row.status, row.outputKeys)) = some (.failed, none) ∧
      ∀ ttl began, scanned ttl began w'.store = [] := by
  refine ⟨_, _, rfl, by decide, by decide, fun ttl began => ?_⟩
  rfl

end image_gen.storage_orphans

-- The URLs of a completed job: where a GET of each one ends. The name of a media
-- file keeps its extension up to the object key, and the gateway serves four.
import ImageGen.Gateway
import ImageGen.JobRows
import ImageGen.StorageOrphans

namespace image_gen.gateway_urls

open image_gen.coroutine image_gen.gateway image_gen.json image_gen.job_store image_gen.py_str
  image_gen.requests image_gen.storage image_gen.worker
open image_gen.write_blocks (runAll)
open image_gen.storage_orphans (Log Phases Silent Unfinished entry execStore_store exec_keeps
  ends_comfyError ends_failJob ends_orStorage ends_processOne_of ends_runPipeline_of
  not_setCompleted unfinished_exec)
open image_gen.results (bind_ok mapError_ok)

variable {G α : Type}

/-! ## What a run puts into the object store -/

/-- The object that an operation puts. -/
def putBy : Co.Event Exc (Op.Ans (G := G)) → List (Address × Bytes)
  | ⟨.call (.uploadPng _ _ data), .ok a⟩ => [(a, data)]
  | ⟨.call (.uploadGenerationBlob _ _ data _ _), .ok a⟩ => [(a, data)]
  | _ => []

/-- The objects of a run, in the order of its uploads. -/
def puts (log : Log G) : List (Address × Bytes) := log.flatMap putBy

/-- The prompt that an operation submits, by the id that the backend gives it. -/
def submittedBy : Co.Event Exc (Op.Ans (G := G)) → List String
  | ⟨.call (.submit _ _), .ok promptId⟩ => [promptId]
  | _ => []

/-- The prompts of a run. -/
def prompts (log : Log G) : List String := log.flatMap submittedBy

def putAll (o : Objects) (objects : List (Address × Bytes)) : Objects :=
  objects.foldl (fun o p => putObject o p.1 p.2) o

theorem putBy_silent {op : Op G} (h : Silent op) (r : Except Exc op.Ans) :
    putBy ⟨op, r⟩ = [] := by
  cases op with
  | call c =>
    cases c <;> first
      | exact h.elim
      | cases r <;> rfl
  | setCompleted id keys result => exact h.elim
  | _ => cases r <;> rfl

theorem submittedBy_silent {op : Op G} (h : Silent op) (r : Except Exc op.Ans) :
    submittedBy ⟨op, r⟩ = [] := by
  cases op with
  | call c =>
    cases c <;> first
      | exact h.elim
      | cases r <;> rfl
  | _ => cases r <;> rfl

theorem puts_append (log : Log G) (e : Co.Event Exc (Op.Ans (G := G))) :
    puts (log ++ [e]) = puts log ++ putBy e := by
  simp [puts, List.flatMap_append]

theorem prompts_append (log : Log G) (e : Co.Event Exc (Op.Ans (G := G))) :
    prompts (log ++ [e]) = prompts log ++ submittedBy e := by
  simp [prompts, List.flatMap_append]

theorem putAll_of_not_mem {o : Objects} {objects : List (Address × Bytes)} {a : Address}
    (h : a ∉ objects.map Prod.fst) : putAll o objects a = o a := by
  induction objects generalizing o with
  | nil => rfl
  | cons p rest ih =>
    rw [List.map_cons, List.mem_cons, not_or] at h
    have hrest := ih (o := putObject o p.1 p.2) h.2
    exact hrest.trans (Function.update_of_ne h.1 _ _)

theorem putAll_of_mem {o : Objects} {objects : List (Address × Bytes)} {p : Address × Bytes}
    (hnodup : (objects.map Prod.fst).Nodup) (h : p ∈ objects) :
    putAll o objects p.1 = some p.2 := by
  induction objects generalizing o with
  | nil => cases h
  | cons q rest ih =>
    rw [List.map_cons, List.nodup_cons] at hnodup
    rcases List.mem_cons.mp h with rfl | hrest
    · exact (putAll_of_not_mem hnodup.1).trans (Function.update_self _ _ _)
    · exact ih hnodup.2 hrest

/-- The objects of a list of outputs, from the index `idx` on. -/
def filed (str : PyStr) (s3 : S3Config) (jobId : String) (idx : Nat)
    (outs : List (Bytes × String)) : List (Address × Bytes) :=
  (outs.zipIdx idx).map fun out => (s3.address str jobId out.2 out.1.2, out.1.1)

theorem filed_cons (str : PyStr) (s3 : S3Config) (jobId : String) (idx : Nat)
    (out : Bytes × String) (outs : List (Bytes × String)) :
    filed str s3 jobId idx (out :: outs) =
      (s3.address str jobId idx out.2, out.1) :: filed str s3 jobId (idx + 1) outs := by
  simp [filed, List.zipIdx_cons]

theorem filed_getElem? (str : PyStr) (s3 : S3Config) (jobId : String) (i : Nat)
    (outs : List (Bytes × String)) :
    (filed str s3 jobId 0 outs)[i]? =
      outs[i]?.map fun out => (s3.address str jobId i out.2, out.1) := by
  simp only [filed, List.getElem?_map, List.getElem?_zipIdx, Option.map_map, Nat.zero_add]
  rfl

/-- The objects of one job have different addresses. -/
theorem nodup_filed (str : PyStr) (s3 : S3Config) {jobId : String} (hid : '/' ∉ jobId.toList)
    {outs : List (Bytes × String)} (houts : ∀ out ∈ outs, Suffix str out.2) :
    ((filed str s3 jobId 0 outs).map Prod.fst).Nodup := by
  unfold filed
  rw [List.map_map]
  refine List.Nodup.map_on ?_ ?_
  · rintro ⟨out, i⟩ hx ⟨out', j⟩ hy heq
    rw [List.mem_zipIdx_iff_getElem?] at hx hy
    have hkeys := congrArg Prod.snd heq
    obtain ⟨-, hij⟩ := objectKeyFor_inj hid hid (houts _ (List.mem_of_getElem? hx)).slash
      (houts _ (List.mem_of_getElem? hy)).slash hkeys
    dsimp only at hij hx hy
    rw [← hij, hx] at hy
    rw [Option.some.inj hy, hij]
  · apply List.Nodup.of_map Prod.snd
    rw [List.zipIdx_map_snd]
    exact List.nodup_range'

/-! ## The end of a job -/

section Run

variable {str : PyStr} {comfy : Comfy} {s3 : S3Config} {backend : (c : Call G) → Except Exc c.Ans}
  {env : Env G} {svc : Service G} {job : Job} {p : Prepared G} {id : String}
  {keys : Option (List String)}

/-- The stored input is the envelope of a video. -/
def isVideo (job : Job) : Bool :=
  match job.inputJson with
  | .value (.obj envelope) =>
    match Json.get envelope "artifact_kind" with
    | .str kind => kind = "video"
    | _ => false
  | _ => false

/-- The outputs that the backend has returned for a prompt of the job, with the
extensions under which they are uploaded. -/
inductive Outputs (svc : Service G) (env : Env G) (job : Job) (promptId : String) :
    List (Bytes × String) → Prop
  | images {transparentBackground : Bool} {images processed : List Bytes}
    (hkind : isVideo job = false) (himages : env.backend (.fetchOutputs promptId) = .ok images)
    (hprocessed : images.mapM (processImage svc transparentBackground) = .ok processed) :
    Outputs svc env job promptId (processed.map fun png => (png, "png"))
  | media {rows : List (Bytes × String)} (hkind : isVideo job = true)
    (hrows : env.backend (.fetchMediaOutputs promptId) = .ok rows) :
    Outputs svc env job promptId rows

/-- The head of the URLs of a job. -/
def route (job : Job) : String := if isVideo job then "/v1/videos/" else "/v1/images/"

theorem product_prepareImage {jobId : String} {drawn : Nat} {raw : Json}
    (h : prepareImage svc jobId drawn raw = .ok p) :
    ∃ transparentBackground, p.product = .image transparentBackground := by
  obtain ⟨v, -, h⟩ := bind_ok h
  obtain ⟨template, -, h⟩ := bind_ok h
  obtain ⟨g, -, h⟩ := bind_ok h
  cases h
  exact ⟨_, rfl⟩

theorem product_prepareLtxv {jobId : String} {drawn : Nat} {envelope : List (String × Json)}
    (h : prepareLtxv svc jobId drawn envelope = .ok p) :
    ∃ missingFetchMedia zeroOutputs, p.product = .video missingFetchMedia zeroOutputs := by
  obtain ⟨⟨task, payload⟩, -, h⟩ := bind_ok h
  obtain ⟨v, -, h⟩ := bind_ok h
  obtain ⟨template, -, h⟩ := bind_ok h
  obtain ⟨g, -, h⟩ := bind_ok h
  cases h
  exact ⟨_, _, rfl⟩

theorem product_prepareVideo {jobId : String} {drawn : Nat} {envelope : List (String × Json)}
    (h : prepareVideo svc jobId drawn envelope = .ok p) :
    ∃ missingFetchMedia zeroOutputs, p.product = .video missingFetchMedia zeroOutputs := by
  obtain ⟨⟨task, payload⟩, -, h⟩ := bind_ok h
  obtain ⟨v, -, h⟩ := bind_ok h
  obtain ⟨template, -, h⟩ := bind_ok h
  obtain ⟨weighted, -, h⟩ := bind_ok h
  obtain ⟨g, -, h⟩ := bind_ok h
  cases h
  exact ⟨_, _, rfl⟩

/-- The pipeline is that of the envelope. -/
theorem isVideo_prepare {drawn : Nat} (h : prepare svc job drawn = .ok p) :
    (∃ transparentBackground, p.product = .image transparentBackground ∧ isVideo job = false) ∨
      ∃ missingFetchMedia zeroOutputs, p.product = .video missingFetchMedia zeroOutputs ∧
        isVideo job = true := by
  unfold prepare at h
  unfold isVideo
  split at h
  · cases h
  · cases h
  · rename_i envelope henvelope
    simp only [henvelope]
    split at h
    · rename_i hkind
      obtain ⟨family, -, h⟩ := bind_ok h
      refine Or.inr ?_
      simp only [hkind, decide_true, and_true]
      split at h
      · exact product_prepareLtxv h
      · exact product_prepareVideo h
    · rename_i hkind
      obtain ⟨transparentBackground, hproduct⟩ := product_prepareImage h
      refine Or.inl ⟨transparentBackground, hproduct, ?_⟩
      split
      · rename_i kind heq
        rw [heq] at hkind
        simpa using hkind
      · rfl
  · rename_i raw hnot hraw
    obtain ⟨transparentBackground, hproduct⟩ := product_prepareImage h
    refine Or.inl ⟨transparentBackground, hproduct, ?_⟩
    split
    · rename_i envelope henvelope
      exact absurd (StoredJson.value.inj (hraw.symm.trans henvelope)) (hnot envelope)
    · rfl

def urlPath (head jobId : String) (index : Nat) (ext : String) : String :=
  head ++ jobId ++ "/" ++ toString index ++ "." ++ ext

/-- The entries of the row for a list of outputs. -/
def listed (str : PyStr) (s3 : S3Config) (jobId : String) (idx : Nat)
    (outs : List (Bytes × String)) : List String :=
  (filed str s3 jobId idx outs).map fun o => entry o.1

/-- The URLs among the data of a result are the paths of the outputs. -/
def Named (svc : Service G) (job : Job) (outs : List (Bytes × String))
    (data : List DataEntry) : Prop :=
  ∀ i url, data[i]? = some (.url url) →
    ∃ out, outs[i]? = some out ∧ url = svc.publicBaseUrl ++ urlPath (route job) job.id i out.2

/-- A completed row, the objects and the prompt of its run. -/
structure Filed (str : PyStr) (s3 : S3Config) (svc : Service G) (job : Job) (promptId : String)
    (outs : List (Bytes × String)) (s : World × Log G) : Prop where
  keyed : s.1.store.Keyed
  prompt : prompts s.2 = [promptId]
  objects : puts s.2 = filed str s3 job.id 0 outs
  row : ∃ row result, s.1.store.getById job.id = some row ∧ row.status = .completed ∧
    row.outputKeys = some (listed str s3 job.id 0 outs) ∧
    row.resultJson = some result ∧ Named svc job outs result.data

/-- Not completed, with the prompts `sent` and the objects `objects` so far. -/
structure Uploading (id : String) (keys : Option (List String)) (sent : List String)
    (objects : List (Address × Bytes)) (s : World × Log G) : Prop where
  row : Unfinished id keys s.1.store
  prompts : prompts s.2 = sent
  objects : puts s.2 = objects

def Settled (str : PyStr) (s3 : S3Config) (svc : Service G) (env : Env G) (job : Job)
    (keys : Option (List String)) (s : World × Log G) : Prop :=
  Unfinished job.id keys s.1.store ∨
    ∃ promptId outs, Outputs svc env job promptId outs ∧ Filed str s3 svc job promptId outs s

theorem completed_transition {row : Job} (hdone : row.status = .completed) {s t : Store}
    {id' : String} {target : JobStatus} {f : Job → Job} (hid : ∀ j, (f j).id = j.id)
    (h : s.Keyed ∧ s.getById id = some row) (hok : s.transition id' target f = .ok t) :
    t.Keyed ∧ t.getById id = some row := by
  by_cases heq : id = id'
  · subst heq
    exact absurd hok (reaper.not_transition h.2 hdone)
  · obtain ⟨-, -, -, rfl⟩ := Store.transition_ok hok
    exact ⟨Store.keyed_update h.1 id' hid, (Store.getById_update_ne s hid heq).trans h.2⟩

theorem filed_logged {promptId : String} {outs : List (Bytes × String)} {op : Op G}
    {s : World × Log G} (hop : Silent op) (h : Filed str s3 svc job promptId outs s) :
    Filed str s3 svc job promptId outs (Co.logged (exec env) op s).2 := by
  obtain ⟨row, result, hrow, hdone, hrest⟩ := h.row
  have hkept : (exec env op s.1).2.store.Keyed ∧
      (exec env op s.1).2.store.getById job.id = some row := by
    refine exec_keeps (P := fun st => st.Keyed ∧ st.getById job.id = some row) ?_ ?_
      (not_setCompleted hop.plain) ⟨h.keyed, hrow⟩
    · exact fun s t id' promptId clientId now hs hok => completed_transition hdone
        (f := Job.setRunning promptId clientId now) (fun _ => rfl) hs hok
    · exact fun s t id' code message now hs hok => completed_transition hdone
        (f := Job.setFailed code message now) (fun _ => rfl) hs hok
  refine ⟨hkept.1, ?_, ?_, row, result, hkept.2, hdone, hrest⟩
  · simp only [Co.logged, prompts_append, submittedBy_silent hop, List.append_nil]
    exact h.prompt
  · simp only [Co.logged, puts_append, putBy_silent hop, List.append_nil]
    exact h.objects

theorem settled_logged {op : Op G} {s : World × Log G} (hop : Silent op)
    (h : Settled str s3 svc env job keys s) :
    Settled str s3 svc env job keys (Co.logged (exec env) op s).2 := by
  rcases h with h | ⟨promptId, outs, houts, h⟩
  · exact Or.inl (unfinished_exec (not_setCompleted hop.plain) h)
  · exact Or.inr ⟨promptId, outs, houts, filed_logged hop h⟩

variable {sent : List String} {objects : List (Address × Bytes)}

theorem uploading_logged {op : Op G} {s : World × Log G} (hop : Silent op)
    (h : Uploading id keys sent objects s) :
    Uploading id keys sent objects (Co.logged (exec env) op s).2 := by
  refine ⟨unfinished_exec (not_setCompleted hop.plain) h.row, ?_, ?_⟩
  · simp only [Co.logged, prompts_append, submittedBy_silent hop, List.append_nil]
    exact h.prompts
  · simp only [Co.logged, puts_append, putBy_silent hop, List.append_nil]
    exact h.objects

theorem ends_silent {q : Prog G α} (hq : q.All Silent) {s : World × Log G}
    (h : Uploading id keys sent objects s) :
    q.Ends (Co.logged (exec env)) (fun _ => Uploading id keys sent objects)
      (fun s => Unfinished id keys s.1.store) s := by
  have hstep : ∀ (op : Op G) (s : World × Log G), Silent op → Uploading id keys sent objects s →
      Uploading id keys sent objects (Co.logged (exec env) op s).2 :=
    fun _ _ hop hs => uploading_logged hop hs
  exact (Co.ends_of_all hstep hq h).mono (fun _ _ hs => hs) fun _ hs => hs.row

variable (env) in
/-- A call that returns what the backend answers, and puts `more`. -/
theorem ends_call (c : Call G) (more : List (Address × Bytes)) {A : c.Ans → Prop}
    (hput : ∀ a, env.backend c = .ok a →
      putBy ⟨.call c, .ok a⟩ = more ∧ submittedBy (G := G) ⟨.call c, .ok a⟩ = [] ∧ A a)
    {s : World × Log G} (h : Uploading id keys sent objects s) :
    (ask (.call c)).Ends (Co.logged (exec env))
      (fun a s => A a ∧ Uploading id keys sent (objects ++ more) s)
      (fun s => Unfinished id keys s.1.store) s := by
  have hrow : Unfinished id keys (exec env (.call c) s.1).2.store :=
    unfinished_exec (fun _ _ _ heq => by cases heq) h.row
  unfold Co.Ends ask
  rw [Co.run_call]
  simp only [Co.logged]
  rcases hc : env.backend c with e | a
  · rw [exec_call_error hc] at hrow ⊢
    exact hrow
  · obtain ⟨hputs, hsubmit, hA⟩ := hput a hc
    rw [exec_call_ok hc] at hrow ⊢
    refine ⟨hA, hrow, ?_, ?_⟩
    · simp only [prompts_append, hsubmit, List.append_nil, h.prompts]
    · simp only [puts_append, hputs, h.objects]

/-- The submission of the job. A refused one leaves the log without a prompt. -/
theorem ends_submit (model : String) (graph : G) {s : World × Log G}
    (h : Uploading id keys [] objects s) :
    (ask (.call (.submit model graph))).Ends (Co.logged (exec env))
      (fun promptId => Uploading id keys [promptId] objects) (Uploading id keys [] objects) s := by
  have hrow : Unfinished id keys (exec env (.call (.submit model graph)) s.1).2.store :=
    unfinished_exec (fun _ _ _ heq => by cases heq) h.row
  unfold Co.Ends ask
  rw [Co.run_call]
  simp only [Co.logged]
  rcases hc : env.backend (.submit model graph) with e | promptId
  · rw [exec_call_error hc] at hrow ⊢
    refine ⟨hrow, ?_, ?_⟩
    · simp [prompts_append, submittedBy, h.prompts]
    · simp [puts_append, putBy, h.objects]
  · rw [exec_call_ok hc] at hrow ⊢
    refine ⟨hrow, ?_, ?_⟩
    · simp [prompts_append, submittedBy, h.prompts]
    · simp [puts_append, putBy, h.objects]

/-- The fetch of the outputs, whose answer is that of the backend. -/
theorem ends_fetch {c : Call G} (hc : Silent (.call c)) {s : World × Log G}
    (h : Uploading id keys sent objects s) :
    (orUnreachable job (ask (.call c))).Ends (Co.logged (exec env))
      (fun a s => env.backend c = .ok a ∧ Uploading id keys sent objects s)
      (fun s => Unfinished id keys s.1.store) s := by
  have hcall := ends_call env c [] (A := fun a => env.backend c = .ok a)
    (fun a ha => ⟨putBy_silent hc _, submittedBy_silent hc _, ha⟩) h
  simp only [List.append_nil] at hcall
  refine Co.ends_tryCatch hcall fun e s' hs' => ?_
  split
  · exact ends_failJob _ _ _ hs'
  · exact Co.ends_throw hs'

theorem listed_cons {idx : Nat} (out : Bytes × String) (outs : List (Bytes × String))
    {address : Address} (h : address = s3.address str id idx out.2) :
    listed str s3 id idx (out :: outs) = entry address :: listed str s3 id (idx + 1) outs := by
  simp only [listed, filed_cons, List.map_cons, h]

theorem uploading_cons {jobId : String} {idx : Nat} {out : Bytes × String}
    {outs : List (Bytes × String)} {s : World × Log G}
    (h : Uploading id keys sent ((objects ++ [(s3.address str jobId idx out.2, out.1)]) ++
      filed str s3 jobId (idx + 1) outs) s) :
    Uploading id keys sent (objects ++ filed str s3 jobId idx (out :: outs)) s := by
  rw [List.append_assoc] at h
  rw [filed_cons]
  exact h

theorem uploading_nil {jobId : String} {idx : Nat} {s : World × Log G}
    (h : Uploading id keys sent objects s) :
    Uploading id keys sent (objects ++ filed str s3 jobId idx []) s := by
  rw [filed, List.zipIdx_nil, List.map_nil, List.append_nil]
  exact h

theorem ends_uploadPngs (hwired : env.backend = wired str comfy s3 backend) (images : List Bytes)
    (idx : Nat) {s : World × Log G} (h : Uploading id keys sent objects s) :
    (uploadPngs job idx images).Ends (Co.logged (exec env))
      (fun more s => more = listed str s3 job.id idx (images.map fun png => (png, "png")) ∧
        Uploading id keys sent
          (objects ++ filed str s3 job.id idx (images.map fun png => (png, "png"))) s)
      (fun s => Unfinished id keys s.1.store) s := by
  induction images generalizing idx objects s with
  | nil => exact Co.ends_pure ⟨rfl, uploading_nil h⟩
  | cons png rest ih =>
    unfold uploadPngs
    refine Co.ends_bind (ends_call env (.uploadPng job.id idx png)
      [(s3.address str job.id idx "png", png)] (A := fun a => a = s3.address str job.id idx "png")
      (fun a ha => ?_) h) ?_
    · have haddress := wired_uploadPng (hwired ▸ ha)
      exact ⟨congrArg (fun a => [(a, png)]) haddress, rfl, haddress⟩
    rintro ⟨bucket, key⟩ s1 ⟨haddress, h1⟩
    refine Co.ends_bind (ih (idx + 1) h1) ?_
    rintro more s2 ⟨hmore, h2⟩
    apply Co.ends_pure
    rw [List.map_cons, listed_cons (png, "png") _ haddress, hmore]
    exact ⟨rfl, uploading_cons h2⟩

theorem ends_uploadBlobs (hwired : env.backend = wired str comfy s3 backend)
    (hs3 : svc.hasUploadGenerationBlob = true) (outs : List (Bytes × String))
    (idx : Nat) {s : World × Log G} (h : Uploading id keys sent objects s) :
    (uploadBlobs svc job idx outs).Ends (Co.logged (exec env))
      (fun more s => more = listed str s3 job.id idx outs ∧
        Uploading id keys sent (objects ++ filed str s3 job.id idx outs) s)
      (fun s => Unfinished id keys s.1.store) s := by
  induction outs generalizing idx objects s with
  | nil => exact Co.ends_pure ⟨rfl, uploading_nil h⟩
  | cons out rest ih =>
    obtain ⟨blob, ext⟩ := out
    unfold uploadBlobs uploadBlob
    rw [if_pos hs3]
    refine Co.ends_bind (ends_call env
      (.uploadGenerationBlob job.id idx blob ext (mediaContentType ext))
      [(s3.address str job.id idx ext, blob)] (A := fun a => a = s3.address str job.id idx ext)
      (fun a ha => ?_) h) ?_
    · have haddress := wired_uploadGenerationBlob (hwired ▸ ha)
      exact ⟨congrArg (fun a => [(a, blob)]) haddress, rfl, haddress⟩
    rintro ⟨bucket, key⟩ s1 ⟨haddress, h1⟩
    refine Co.ends_bind (ih (idx + 1) h1) ?_
    rintro more s2 ⟨hmore, h2⟩
    apply Co.ends_pure
    rw [listed_cons (blob, ext) _ haddress, hmore]
    exact ⟨rfl, uploading_cons h2⟩

variable {promptId : String} {outs : List (Bytes × String)}

/-- A `set_completed` that is committed. -/
theorem filed_setCompleted {result : JobResult} {now : Nat} {s : World × Log G} {t : Store}
    (h : Uploading job.id keys sent (filed str s3 job.id 0 outs) s)
    (hnamed : Named svc job outs result.data)
    (hok : s.1.store.setCompleted job.id (listed str s3 job.id 0 outs) result now = .ok t) :
    t.Keyed ∧ ∃ row result, t.getById job.id = some row ∧ row.status = .completed ∧
      row.outputKeys = some (listed str s3 job.id 0 outs) ∧ row.resultJson = some result ∧
        Named svc job outs result.data := by
  obtain ⟨hkeyed, row, hrow, -, -⟩ := h.row
  obtain ⟨-, -, -, rfl⟩ := Store.transition_ok hok
  have hself := Store.getById_update_self s.1.store job.id
    (f := Job.setCompleted (listed str s3 job.id 0 outs) result now) (fun _ => rfl)
  rw [hrow] at hself
  exact ⟨Store.keyed_update hkeyed job.id fun _ => rfl, _, result, hself, rfl, rfl, rfl, hnamed⟩

theorem ends_setCompleted {result : JobResult} (houts : Outputs svc env job promptId outs)
    (hnamed : Named svc job outs result.data) {s : World × Log G}
    (h : Uploading job.id keys [promptId] (filed str s3 job.id 0 outs) s) :
    (setCompleted job.id (listed str s3 job.id 0 outs) result).Ends (Co.logged (exec env))
      (fun _ => Settled str s3 svc env job keys) (Settled str s3 svc env job keys) s := by
  have hsettled : Settled str s3 svc env job keys (Co.logged (exec env)
      (.setCompleted job.id (listed str s3 job.id 0 outs) result) s).2 := by
    rcases execStore_store env s.1 fun t now =>
        t.setCompleted job.id (listed str s3 job.id 0 outs) result now with
      ⟨hsame, -⟩ | ⟨now, hok⟩
    · exact Or.inl (hsame.symm ▸ h.row)
    · obtain ⟨hkeyed, hrow⟩ := filed_setCompleted h hnamed hok
      refine Or.inr ⟨promptId, outs, houts, hkeyed, ?_, ?_, hrow⟩
      · simp only [Co.logged, prompts_append]
        rw [submittedBy.eq_def, List.append_nil, h.prompts]
      · simp only [Co.logged, puts_append]
        rw [putBy.eq_def, List.append_nil, h.objects]
  unfold setCompleted Co.Ends ask
  rw [Co.run_call]
  split <;> (rename_i heq; rw [heq] at hsettled; exact hsettled)

theorem ends_settled {A : α → World × Log G → Prop} {q : Prog G α} {s : World × Log G}
    (h : q.Ends (Co.logged (exec env)) A (fun s => Unfinished job.id keys s.1.store) s) :
    q.Ends (Co.logged (exec env)) A (Settled str s3 svc env job keys) s :=
  h.mono (fun _ _ hs => hs) fun _ hs => Or.inl hs

theorem ends_finish {data : List DataEntry} (houts : Outputs svc env job promptId outs)
    (hnamed : Named svc job outs data) {s : World × Log G}
    (h : Uploading job.id keys [promptId] (filed str s3 job.id 0 outs) s) :
    (finish job p (listed str s3 job.id 0 outs) data).Ends (Co.logged (exec env))
      (fun _ => Settled str s3 svc env job keys) (Settled str s3 svc env job keys) s := by
  have hstep : ∀ (op : Op G) (s : World × Log G), Silent op → Settled str s3 svc env job keys s →
      Settled str s3 svc env job keys (Co.logged (exec env) op s).2 :=
    fun _ _ hop hs => settled_logged hop hs
  have hread : (readDurationMs : Prog G _).All Silent := (Co.all_call _).mpr trivial
  have hname : (setLastModelName p.model.name : Prog G _).All Silent :=
    (Co.all_call _).mpr trivial
  unfold finish
  refine Co.ends_bind (ends_settled (ends_silent hread h)) fun durationMs s1 h1 => ?_
  refine Co.ends_bind (ends_setCompleted houts hnamed h1) fun _ s2 h2 => ?_
  exact Co.ends_bind (Co.ends_of_all hstep hname h2) fun _ s3 h3 => Co.ends_pure h3

theorem named_imageData (hkind : isVideo job = false) (processed : List Bytes) :
    Named svc job (processed.map fun png => (png, "png")) (imageData svc p job.id processed) := by
  intro i url hurl
  unfold imageData at hurl
  split at hurl
  · rw [List.getElem?_map] at hurl
    rcases processed[i]? with _ | png <;> simp at hurl
  · rw [List.getElem?_map] at hurl
    rcases hi : (List.range processed.length)[i]? with _ | idx <;> rw [hi] at hurl
    · cases hurl
    · obtain ⟨hlt, rfl⟩ := List.getElem?_eq_some_iff.mp hi
      rw [List.getElem_range] at hurl
      rw [List.length_range] at hlt
      refine ⟨(processed[i], "png"), by simp [hlt], ?_⟩
      cases hurl
      have hext : (".png" : String) = "." ++ "png" := rfl
      simp [route, hkind, urlPath, hext, String.append_assoc]

theorem named_videoData (hkind : isVideo job = true) (outs : List (Bytes × String)) :
    Named svc job outs (videoData svc p job.id outs) := by
  intro i url hurl
  unfold videoData at hurl
  split at hurl
  · rw [List.getElem?_map] at hurl
    rcases outs[i]? with _ | out <;> simp at hurl
  · rw [List.getElem?_map, List.getElem?_zipIdx] at hurl
    rcases hout : outs[i]? with _ | out <;> rw [hout] at hurl
    · simp at hurl
    · refine ⟨out, rfl, ?_⟩
      cases hurl
      simp [route, hkind, urlPath, String.append_assoc]

theorem ends_deliverImages (hwired : env.backend = wired str comfy s3 backend)
    (hkind : isVideo job = false) (transparentBackground : Bool) {s : World × Log G}
    (h : Uploading job.id keys [promptId] [] s) :
    (deliverImages svc job p transparentBackground promptId).Ends (Co.logged (exec env))
      (fun _ => Settled str s3 svc env job keys) (Settled str s3 svc env job keys) s := by
  unfold deliverImages
  refine Co.ends_bind (ends_settled (ends_fetch (c := .fetchOutputs promptId) trivial h)) ?_
  rintro images s1 ⟨himages, h1⟩
  split
  · exact ends_settled (ends_comfyError _ h1.row)
  split
  · exact ends_settled (ends_comfyError _ h1.row)
  · rename_i processed hprocessed
    refine Co.ends_bind (ends_settled (ends_orStorage (ends_uploadPngs hwired processed 0 h1))) ?_
    rintro more s2 ⟨hmore, h2⟩
    rw [hmore]
    exact ends_finish (.images hkind himages hprocessed) (named_imageData hkind processed) h2

/-- The worker changes nothing in the extension of the adapter. -/
theorem normalizeExt_suffix (hlower : ∀ s, svc.lower s = String.ofList (str.lower s.toList))
    {ext : String} (h : Suffix str ext) : normalizeExt svc ext = ext := by
  have hdrop : ext.toList.dropWhile (· = '.') = ext.toList := dropWhile_suffix h
  have hne : ext ≠ "" := by
    rintro rfl
    exact h.ne rfl
  unfold normalizeExt
  rw [hlower, lower_eq h.lower, String.ofList_toList]
  simp only [hdrop, String.ofList_toList, if_neg hne]

theorem ends_deliverMedia (hwired : env.backend = wired str comfy s3 backend)
    (hlower : ∀ s, svc.lower s = String.ofList (str.lower s.toList))
    (hs3 : svc.hasUploadGenerationBlob = true) (hkind : isVideo job = true)
    (missingFetchMedia zeroOutputs : String) {s : World × Log G}
    (h : Uploading job.id keys [promptId] [] s) :
    (deliverMedia svc job p missingFetchMedia zeroOutputs promptId).Ends (Co.logged (exec env))
      (fun _ => Settled str s3 svc env job keys) (Settled str s3 svc env job keys) s := by
  unfold deliverMedia
  split
  · refine Co.ends_bind (ends_settled (ends_fetch (c := .fetchMediaOutputs promptId) trivial h)) ?_
    rintro rows s1 ⟨hrows, h1⟩
    have hsame : rows.map (fun row => (row.1, normalizeExt svc row.2)) = rows := by
      refine (List.map_congr_left fun row hrow => ?_).trans (List.map_id rows)
      rw [normalizeExt_suffix hlower (suffix_fetchMediaOutputs (hwired ▸ hrows) row hrow)]
      rfl
    simp only [hsame]
    split
    · exact ends_settled (ends_comfyError _ h1.row)
    · refine Co.ends_bind (ends_settled (ends_orStorage (ends_uploadBlobs hwired hs3 _ 0 h1))) ?_
      rintro more s2 ⟨hmore, h2⟩
      rw [hmore]
      exact ends_finish (.media hkind hrows) (named_videoData hkind _) h2
  · have hfail : (setFailed job.id "comfy_error" missingFetchMedia : Prog G _).All Silent :=
      (Co.all_call _).mpr trivial
    refine Co.ends_bind (ends_settled (ends_silent hfail h)) ?_
    exact fun _ s1 h1 => Co.ends_throw (Or.inl h1.row)

/-- Up to the last stage nothing is uploaded, and one prompt is submitted. -/
theorem phases_uploading : Phases env (Uploading job.id keys [] [])
    (fun promptId => Uploading job.id keys [promptId] []) (Settled str s3 svc env job keys) where
  before := fun _ _ hop hs => uploading_logged hop hs
  after := fun _ _ _ hop hs => uploading_logged hop hs
  submit := fun model graph _ hs => ends_submit model graph hs
  unsent := fun _ hs => Or.inl hs.row
  sent := fun _ _ hs => Or.inl hs.row

variable (svc env) in
theorem ends_processOne (hwired : env.backend = wired str comfy s3 backend)
    (hlower : ∀ s, svc.lower s = String.ofList (str.lower s.toList))
    (hs3 : svc.hasUploadGenerationBlob = true) {s : World × Log G}
    (h : Uploading job.id keys [] [] s) :
    (processOne (runPipeline svc job) job).Ends (Co.logged (exec env))
      (fun _ => Settled str s3 svc env job keys) (Settled str s3 svc env job keys) s := by
  refine ends_processOne_of (fun _ _ hop hs => settled_logged hop hs) ?_
  refine ends_runPipeline_of phases_uploading ?_ ?_ h
  · intro drawn p transparentBackground promptId s hp hproduct hs
    refine ends_deliverImages hwired ?_ _ hs
    rcases isVideo_prepare hp with ⟨-, -, hkind⟩ | ⟨_, _, hvideo, -⟩
    · exact hkind
    · rw [hproduct] at hvideo
      cases hvideo
  · intro drawn p missingFetchMedia zeroOutputs promptId s hp hproduct hs
    refine ends_deliverMedia hwired hlower hs3 ?_ _ _ hs
    rcases isVideo_prepare hp with ⟨_, himage, -⟩ | ⟨-, -, -, hkind⟩
    · rw [hproduct] at himage
      cases himage
    · exact hkind

end Run

/-! ## Between the job and the request -/

/-- A committed operation of the job table. -/
def Committed (s t : Store) : Prop :=
  s.Keyed ∧ ∃ op now, runAll (job_rows.Op.block now op) s = .ok t

/-- What may happen to the objects: any deletion, and the upload of another job. -/
inductive ObjectStep (str : PyStr) (jobId : String) : Objects → Objects → Prop
  | deleted (o : Objects) (a : Address) : ObjectStep str jobId o (deleteObject o a)
  | uploaded (o : Objects) (bucket other : String) (index : Nat) (ext : String)
    (day : Date) (data : Bytes) (hother : other ≠ jobId) (hid : '/' ∉ other.toList)
    (hext : '/' ∉ ext.toList) :
    ObjectStep str jobId o (putObject o (bucket, objectKeyFor str other index ext day) data)

/-- The row of a completed job is served as long as the table lives. -/
theorem servable_committed {s t : Store} {id : String} {row : Job} {entries : List String}
    (hrow : s.getById id = some row) (hdone : row.status = .completed)
    (hkeys : row.outputKeys = some entries) (hne : entries ≠ [])
    (hlater : Relation.ReflTransGen Committed s t) : servable t id = some entries := by
  have hkept : ∃ row', t.getById id = some row' ∧ job_rows.SameOutcome row row' := by
    induction hlater with
    | refl => exact ⟨row, hrow, rfl, rfl, rfl, rfl, rfl⟩
    | tail _ hstep ih =>
      obtain ⟨row', hrow', hsame⟩ := ih
      obtain ⟨hkeyed, op, now, hok⟩ := hstep
      have hfrozen := (job_rows.storeStep_block hkeyed hok).2.frozen
      obtain ⟨row'', hrow'', hsame'⟩ := hfrozen id row' hrow' (by
        rw [hsame.status, hdone]
        decide)
      exact ⟨row'', hrow'', hsame.trans hsame'⟩
  obtain ⟨row', hrow', hsame⟩ := hkept
  obtain ⟨first, rest, rfl⟩ := List.exists_cons_of_ne_nil hne
  unfold servable
  rw [hrow']
  simp only [hsame.status, hdone, hsame.outputKeys, hkeys, if_true]

/-- An object of the job is what was put, or is gone. -/
theorem object_kept {str : PyStr} {s3 : S3Config} {jobId ext : String} {index : Nat}
    {o o' : Objects} {data : Bytes} (hid : '/' ∉ jobId.toList) (hext : '/' ∉ ext.toList)
    (ho : o (s3.address str jobId index ext) = some data)
    (hlater : Relation.ReflTransGen (ObjectStep str jobId) o o') :
    o' (s3.address str jobId index ext) = some data ∨
      o' (s3.address str jobId index ext) = none := by
  induction hlater with
  | refl => exact Or.inl ho
  | tail _ hstep ih =>
    cases hstep with
    | deleted a =>
      by_cases heq : s3.address str jobId index ext = a
      · subst heq
        exact Or.inr (Function.update_self _ _ _)
      · unfold deleteObject
        rw [Function.update_of_ne heq]
        exact ih
    | uploaded bucket other index' ext' day data' hother hid' hext' =>
      have hne : s3.address str jobId index ext ≠
          (bucket, objectKeyFor str other index' ext' day) := by
        intro heq
        obtain ⟨hsame, -⟩ := objectKeyFor_inj hid hid' hext hext' (congrArg Prod.snd heq)
        exact hother hsame.symm
      unfold putObject
      rw [Function.update_of_ne hne]
      exact ih

/-- As long as there is an object of the job, a read gets what was put. -/
theorem object_read {str : PyStr} {s3 : S3Config} {jobId ext : String} {index : Nat}
    {o o' : Objects} {data : Bytes} (hid : '/' ∉ jobId.toList) (hext : '/' ∉ ext.toList)
    (ho : o (s3.address str jobId index ext) = some data)
    (hlater : Relation.ReflTransGen (ObjectStep str jobId) o o')
    (hexists : o' (s3.address str jobId index ext) ≠ none) :
    getObject o' none (s3.address str jobId index ext) = .ok data := by
  rcases object_kept hid hext ho hlater with hkept | hgone
  · simp [getObject, hkept]
  · exact absurd hgone hexists

/-! ## The answer of the gateway -/

/-- `f"gen_{Ksuid()}"`. -/
def GenId (id : String) : Prop :=
  ∃ ksuid : String, id = "gen_" ++ ksuid ∧ ∀ c ∈ ksuid.toList, c.isAlphanum = true

/-- A character that a URL keeps, and that separates nothing. -/
def Kept (c : Char) : Prop := c ≠ '?' ∧ c ≠ '#' ∧ c ≠ '%' ∧ c ≠ '/'

instance (c : Char) : Decidable (Kept c) := by
  unfold Kept
  infer_instance

theorem kept_of_alphanum {c : Char} (h : c.isAlphanum = true) : Kept c := by
  refine ⟨?_, ?_, ?_, ?_⟩ <;> (rintro rfl; revert h; decide)

theorem GenId.kept {id : String} (h : GenId id) : ∀ c ∈ id.toList, Kept c := by
  obtain ⟨ksuid, rfl, hksuid⟩ := h
  intro c hc
  rw [String.toList_append, List.mem_append] at hc
  rcases hc with hc | hc
  · revert c
    decide
  · exact kept_of_alphanum (hksuid c hc)

theorem GenId.slash {id : String} (h : GenId id) : '/' ∉ id.toList :=
  fun hmem => (h.kept '/' hmem).2.2.2 rfl

theorem GenId.ne {id : String} (h : GenId id) : id.toList ≠ [] ∧ id ≠ "generations" := by
  obtain ⟨ksuid, rfl, -⟩ := h
  refine ⟨by simp, fun heq => ?_⟩
  have hfourth := congrArg (fun s => s.toList[3]?) heq
  simp at hfourth

theorem kept_digits (n : Nat) : ∀ c ∈ (toString n).toList, Kept c := by
  intro c hc
  have hdigit := (toString_digits n).2 c hc
  refine kept_of_alphanum ?_
  simp [Char.isAlphanum, hdigit]

/-- What the server makes of the extension at the end of a URL. -/
def scopeExt (str : PyStr) (ext : String) : List Char :=
  str.unquote (ext.toList.takeWhile fun c => c ≠ '?' ∧ c ≠ '#')

theorem scopePath_urlPath (str : PyStr) {head id : String} (hid : GenId id)
    (hhead : ∀ c ∈ head.toList, Kept c ∨ c = '/') (index : Nat) (ext : String) :
    scopePath str (urlPath head id index ext).toList =
      head.toList ++ id.toList ++ '/' :: ((toString index).toList ++ '.' :: scopeExt str ext) := by
  have hsplit : (urlPath head id index ext).toList =
      (head.toList ++ id.toList ++ '/' :: ((toString index).toList ++ ['.'])) ++ ext.toList := by
    simp [urlPath, String.toList_append]
  rw [hsplit, scopePath_append]
  · simp [scopeExt]
  · have hkept : ∀ c, Kept c ∨ c = '/' → c ≠ '?' ∧ c ≠ '#' ∧ c ≠ '%' := by
      rintro c (h | rfl)
      · exact ⟨h.1, h.2.1, h.2.2.1⟩
      · decide
    intro c hc
    apply hkept
    simp only [List.mem_append, List.mem_cons, List.not_mem_nil, or_false] at hc
    rcases hc with (hc | hc) | rfl | hc | rfl
    · exact hhead c hc
    · exact Or.inl (hid.kept c hc)
    · exact Or.inr rfl
    · exact Or.inl (kept_digits index c hc)
    · exact Or.inl (by decide)

theorem scopeExt_mediaExts (str : PyStr) {ext : String} (h : ext ∈ mediaExts) :
    scopeExt str ext = ext.toList := by
  have hplain : ∀ e ∈ mediaExts, (∀ c ∈ e.toList, Kept c) := by decide
  unfold scopeExt
  have hkept := hplain ext h
  have hall : ext.toList.takeWhile (fun c => decide (c ≠ '?' ∧ c ≠ '#')) = ext.toList := by
    rw [List.takeWhile_eq_self_iff]
    exact fun c hc => decide_eq_true ⟨(hkept c hc).1, (hkept c hc).2.1⟩
  have hunquote := str.unquote_append ext.toList [] fun hmem => (hkept '%' hmem).2.2.1 rfl
  rw [hall]
  rw [List.append_nil, str.unquote_nil, List.append_nil] at hunquote
  exact hunquote

theorem name_kept {index : Nat} {u : List Char} (hu : '/' ∉ u) :
    (toString index).toList ++ '.' :: u ≠ [] ∧ '/' ∉ (toString index).toList ++ '.' :: u := by
  refine ⟨by simp, fun hmem => ?_⟩
  rcases List.mem_append.mp hmem with hdigit | hrest
  · exact slash_not_mem_digits index hdigit
  · rcases List.mem_cons.mp hrest with hdot | hext
    · cases hdot
    · exact hu hext

section Answers

variable {str : PyStr} {get : Address → Except GetError Bytes} {now index : Nat} {t : Store}
  {id bucket key : String} {entries : List String} {data : Bytes}

/-- The URL of an image is answered with the object of its entry. -/
theorem image_answer (hid : GenId id) (hserve : servable t id = some entries)
    (hentry : entries[index]? = some (bucket ++ "/" ++ key)) (hbucket : '/' ∉ bucket.toList)
    (hget : get (bucket, key) = .ok data) :
    (getPath str get now t (scopePath str (urlPath "/v1/images/" id index "png").toList)).1 =
      .media data "image/png" := by
  have hmatch : matchIndexName str ["png"] ((toString index).toList ++ '.' :: "png".toList) =
      some (index, "png") := by
    rw [matchIndexName_index]
    rfl
  rw [scopePath_urlPath str hid (by decide), scopeExt_mediaExts str (by decide)]
  unfold getPath
  rw [pathParams_append _ _ hid.ne.1 hid.slash, if_pos (name_kept (by decide))]
  simp only [if_neg hid.ne.2]
  unfold getImage
  rw [String.toList_ofList, hmatch, hserve]
  simp only [hentry, partition_entry key hbucket, serve, hget]

/-- Two texts without a dot that end the same text after a dot are the same. -/
theorem eq_of_dot_suffix {x y l : List Char} (hx : '.' ∉ x) (hy : '.' ∉ y)
    (h : '.' :: x <:+ l) (h' : '.' :: y <:+ l) : x = y := by
  obtain ⟨a, rfl⟩ := h
  obtain ⟨b, hb⟩ := h'
  exact (append_separator_inj hx hy hb.symm).2

/-- The lower case of a key ends in the extension of the output. -/
theorem ext_suffix_lower {ext : String} (hext : Suffix str ext) (jobId : String) (now : Date) :
    '.' :: ext.toList <:+ str.lower (objectKeyFor str jobId index ext now).toList := by
  obtain ⟨head, e, hshape, -, he⟩ := objectKeyFor_shape str jobId index ext now
  rw [hshape, he hext]
  have hlower : ∀ c ∈ '.' :: ext.toList, str.lower [c] = [c] := by
    intro c hc
    rcases List.mem_cons.mp hc with rfl | hc
    · exact str.lower_ascii '.' (by decide) (by decide)
    · exact hext.lower c hc
  have hassoc : (head ++ '/' :: jobId.toList) ++ '/' :: ((toString index).toList ++
      '.' :: ext.toList) = ((head ++ '/' :: jobId.toList) ++ '/' :: (toString index).toList) ++
        '.' :: ext.toList := by simp
  rw [hassoc]
  exact lower_suffix _ hlower

/-- The URL of a media file is answered with the object of its entry exactly
when the gateway knows the extension. -/
theorem video_answer (hid : GenId id) (hserve : servable t id = some entries)
    (hentry : entries[index]? = some (bucket ++ "/" ++ key)) (hbucket : '/' ∉ bucket.toList)
    (hget : get (bucket, key) = .ok data) {ext : String} (hext : Suffix str ext)
    (hkey : '.' :: ext.toList <:+ str.lower key.toList) :
    (∃ mediaType, (getPath str get now t
        (scopePath str (urlPath "/v1/videos/" id index ext).toList)).1 = .media data mediaType) ↔
      ext ∈ mediaExts := by
  rw [scopePath_urlPath str hid (by decide)]
  have hroute : pathParams "/v1/images/".toList ("/v1/videos/".toList ++ id.toList ++
      '/' :: ((toString index).toList ++ '.' :: scopeExt str ext)) = none := by
    unfold pathParams
    rw [if_neg]
    rw [List.append_assoc]
    simp [List.isPrefixOf]
  unfold getPath
  rw [hroute, pathParams_append _ _ hid.ne.1 hid.slash]
  simp only
  constructor
  · rintro ⟨mediaType, hmedia⟩
    split at hmedia
    · rename_i jobId indexName hparams
      split at hparams
      · cases hparams
        rw [if_neg hid.ne.2] at hmedia
        unfold getVideoAsset at hmedia
        rw [String.toList_ofList, matchIndexName_index] at hmedia
        rcases hfind : mediaExts.find? (fun e => decide (scopeExt str ext = e.toList ∨
          scopeExt str ext = e.toList ++ ['\n'])) with _ | e <;> rw [hfind] at hmedia
        · cases hmedia
        · simp only [Option.map_some, hserve, hentry, partition_entry key hbucket] at hmedia
          split at hmedia
          · rename_i hsuffix
            have hmem := List.mem_of_find?_eq_some hfind
            have heq := eq_of_dot_suffix (suffix_mediaExts str e hmem).dot hext.dot hsuffix hkey
            rw [← String.toList_inj.mp heq]
            exact hmem
          · cases hmedia
      · cases hparams
    · cases hmedia
  · intro hmem
    have hmatch : matchIndexName str mediaExts ((toString index).toList ++ '.' :: ext.toList) =
        some (index, ext) := by
      have hfind : ∀ ext ∈ mediaExts, mediaExts.find? (fun e => decide (ext.toList = e.toList ∨
          ext.toList = e.toList ++ ['\n'])) = some ext := by decide
      rw [matchIndexName_index, hfind ext hmem]
      rfl
    rw [scopeExt_mediaExts str hmem, if_pos (name_kept hext.slash)]
    simp only [if_neg hid.ne.2]
    unfold getVideoAsset
    rw [String.toList_ofList, hmatch, hserve]
    simp only [hentry, partition_entry key hbucket, if_pos hkey, serve, hget]
    exact ⟨_, rfl⟩

end Answers

/-! ## From the job to the answer -/

/-- Every output of a job has a plain extension, and that of an image is `png`. -/
theorem Outputs.suffix {svc : Service G} {env : Env G} {job : Job} {promptId : String}
    {str : PyStr} {comfy : Comfy} {s3 : S3Config} {backend : (c : Call G) → Except Exc c.Ans}
    {outs : List (Bytes × String)} (hwired : env.backend = wired str comfy s3 backend)
    (h : Outputs svc env job promptId outs) :
    ∀ out ∈ outs, Suffix str out.2 ∧ (isVideo job = false → out.2 = "png") := by
  intro out hout
  cases h with
  | images hkind himages hprocessed =>
    obtain ⟨png, -, rfl⟩ := List.mem_map.mp hout
    exact ⟨suffix_mediaExts str "png" (by decide), fun _ => rfl⟩
  | media hkind hrows =>
    refine ⟨suffix_fetchMediaOutputs (hwired ▸ hrows) out hout, fun hnot => ?_⟩
    rw [hkind] at hnot
    cases hnot

/-- The URL at an index of a completed job is that of the output at the index,
among those that the backend has returned for the one prompt of the job. It is
answered with the bytes of the output, as long as their object exists, exactly
when the job is an image or the gateway knows the extension. -/
theorem a_url_is_served_iff (svc : Service G) (env : Env G) (job : Job) {str : PyStr}
    {comfy : Comfy} {s3 : S3Config} {backend : (c : Call G) → Except Exc c.Ans}
    (hwired : env.backend = wired str comfy s3 backend)
    (hlower : ∀ s, svc.lower s = String.ofList (str.lower s.toList))
    (hs3 : svc.hasUploadGenerationBlob = true) (hbucket : '/' ∉ s3.bucket.toList)
    (hid : GenId job.id) {w w' : World} {log : Log G} {before after : Job} {result : JobResult}
    {index : Nat} {target : String} (hkeyed : w.store.Keyed)
    (hbefore : w.store.getById job.id = some before) (hopen : before.status ≠ .completed)
    (hrun : ((processOne (runPipeline svc job) job).run (Co.logged (exec env)) (w, [])).2 =
      (w', log))
    (hafter : w'.store.getById job.id = some after) (hdone : after.status = .completed)
    (hresult : after.resultJson = some result)
    (hurl : result.data[index]? = some (.url (svc.publicBaseUrl ++ target))) :
    ∃ promptId outs data ext address, prompts log = [promptId] ∧
      Outputs svc env job promptId outs ∧ outs[index]? = some (data, ext) ∧
      target = urlPath (route job) job.id index ext ∧
      (puts log)[index]? = some (address, data) ∧
      ∀ o o' t now, Relation.ReflTransGen Committed w'.store t →
        Relation.ReflTransGen (ObjectStep str job.id) (putAll o (puts log)) o' →
        o' address ≠ none →
        ((∃ mediaType, (getPath str (getObject o' none) now t
          (scopePath str target.toList)).1 = .media data mediaType) ↔
            (isVideo job = false ∨ ext ∈ mediaExts)) := by
  have hstart : Uploading job.id before.outputKeys [] [] (w, ([] : Log G)) :=
    ⟨⟨hkeyed, before, hbefore, hopen, rfl⟩, rfl, rfl⟩
  have hends := (ends_processOne env svc hwired hlower hs3 hstart).either fun _ _ h => h
  rw [hrun] at hends
  rcases hends with ⟨-, row, hrow, hnot, -⟩ | ⟨promptId, outs, houts, -, hprompt, hputs, row,
    result', hrow, -, hkeys, hresult', hnamed⟩
  · rw [hafter] at hrow
    cases hrow
    exact absurd hdone hnot
  rw [hafter] at hrow
  cases hrow
  rw [hresult] at hresult'
  cases hresult'
  have hsuffix := houts.suffix hwired
  obtain ⟨⟨data, ext⟩, hout, htarget⟩ := hnamed index _ hurl
  obtain ⟨hext, hpng⟩ := hsuffix _ (List.mem_of_getElem? hout)
  have htarget : target = urlPath (route job) job.id index ext := by
    have hlist := congrArg String.toList htarget
    rw [String.toList_append, String.toList_append] at hlist
    exact String.toList_inj.mp (List.append_cancel_left hlist)
  have hput : (puts log)[index]? = some (s3.address str job.id index ext, data) := by
    rw [show puts log = _ from hputs, filed_getElem?, hout]
    rfl
  have hentry : (listed str s3 job.id 0 outs)[index]? = some (s3.bucket ++ "/" ++
      objectKeyFor str job.id index ext (s3.today job.id index)) := by
    rw [listed, List.getElem?_map, ← hputs, hput]
    rfl
  have hne : listed str s3 job.id 0 outs ≠ [] := by
    intro hnil
    rw [hnil] at hentry
    cases hentry
  have hobject : ∀ o o', Relation.ReflTransGen (ObjectStep str job.id) (putAll o (puts log)) o' →
      o' (s3.address str job.id index ext) ≠ none →
      getObject o' none (s3.address str job.id index ext) = .ok data := by
    intro o o' hlater hexists
    refine object_read hid.slash hext.slash ?_ hlater hexists
    refine putAll_of_mem ?_ (List.mem_of_getElem? hput)
    rw [show puts log = _ from hputs]
    exact nodup_filed str s3 hid.slash fun out hout => (hsuffix out hout).1
  refine ⟨promptId, outs, data, ext, _, hprompt, houts, hout, htarget, hput, ?_⟩
  intro o o' t now hstore hlater hexists
  have hserve := servable_committed hafter hdone hkeys hne hstore
  rw [htarget]
  cases hkind : isVideo job with
  | false =>
    have hpng : ext = "png" := hpng hkind
    subst hpng
    have hroute : route job = "/v1/images/" := by simp [route, hkind]
    rw [hroute]
    exact ⟨fun _ => Or.inl rfl, fun _ => ⟨"image/png",
      image_answer hid hserve hentry hbucket (hobject o o' hlater hexists)⟩⟩
  | true =>
    have hroute : route job = "/v1/videos/" := by simp [route, hkind]
    rw [hroute, video_answer hid hserve hentry hbucket (hobject o o' hlater hexists) hext
      (ext_suffix_lower hext job.id _)]
    simp

/-! ## Two media files -/

def smallVideo : ValidatedVideoJob where
  model := (smallRequest "wan").model
  prompt := "a river"
  negativePrompt := ""
  width := 512
  height := 512
  frames := 81
  fps := .finite 16
  steps := 20
  cfg := .finite 6
  shift := .finite 5
  seed := 1
  scheduler := "unipc"
  riflexFreqIndex := 0
  forceOffload := true
  generateAudio := false
  resolvedWorkflowPath := ""
  responseFormat := .url
  timeoutS := none
  initImageBytes := none
  loras := []
  wanAdvanced := none

def videoService : Service Unit :=
  { smallService with
    validateVideo := fun _ _ => .ok smallVideo
    lower := fun s => String.ofList (ascii.lower s.toList) }

/-- A prompt with the files `a.mp4` and `b.mov`. -/
def smallComfy : Comfy where
  history promptId := .response 200 (.value (.obj [(promptId, .obj [("outputs", .obj [("9", .obj
    [("videos", .arr [.obj [("filename", .str "a.mp4")], .obj [("filename", .str "b.mov")]])])])])]))
  view
    | .str "a.mp4", _, _ => .response 200 [1]
    | _, _, _ => .response 200 [2]
  repr _ := ""

def smallS3 : S3Config where
  bucket := "b"
  today _ _ := ⟨2026, 1, 2⟩

def videoEnv : Env Unit := smallEnv (wired ascii smallComfy smallS3 willing)

def videoJob : Job :=
  { smallJob "gen_1" "wan" with
    inputJson := .value (.obj [("artifact_kind", .str "video"), ("video_task", .str "t2v"),
      ("payload", .obj [])]) }

/-- The state and the log after the job. -/
def videoEnd : World × Log Unit :=
  ((processOne (runPipeline videoService videoJob) videoJob).run (Co.logged (exec videoEnv))
    (smallWorld [videoJob], [])).2

/-- The row is completed, with a URL for each file. -/
theorem videoEnd_row : (videoEnd.1.store.getById "gen_1").map (fun row =>
    (row.status, row.resultJson.map (·.data))) =
      some (.completed, some [.url "/v1/videos/gen_1/0.mp4", .url "/v1/videos/gen_1/1.mov"]) := by
  decide

theorem the_first_file_is_served :
    ∃ promptId outs data ext address, prompts videoEnd.2 = [promptId] ∧
      Outputs videoService videoEnv videoJob promptId outs ∧ outs[0]? = some (data, ext) ∧
      "/v1/videos/gen_1/0.mp4" = urlPath (route videoJob) "gen_1" 0 ext ∧
      (puts videoEnd.2)[0]? = some (address, data) ∧
      ∀ o o' t now, Relation.ReflTransGen Committed videoEnd.1.store t →
        Relation.ReflTransGen (ObjectStep ascii "gen_1") (putAll o (puts videoEnd.2)) o' →
        o' address ≠ none →
        ((∃ mediaType, (getPath ascii (getObject o' none) now t
          (scopePath ascii "/v1/videos/gen_1/0.mp4".toList)).1 = .media data mediaType) ↔
            (isVideo videoJob = false ∨ ext ∈ mediaExts)) := by
  obtain ⟨after, hafter, hpair⟩ := Option.map_eq_some_iff.mp videoEnd_row
  obtain ⟨result, hresult, hdata⟩ := Option.map_eq_some_iff.mp (congrArg Prod.snd hpair)
  have hurl : result.data[0]? = some (.url ("" ++ "/v1/videos/gen_1/0.mp4")) := by
    rw [hdata]
    decide
  exact a_url_is_served_iff videoService videoEnv videoJob rfl (fun _ => rfl) rfl (by decide)
    ⟨"1", by decide, by decide⟩ (by simp [Store.Keyed, smallWorld]) rfl (by decide) rfl hafter
    (congrArg Prod.fst hpair) hresult hurl

/-- The second URL is refused, and its object is there. -/
theorem a_mov_is_not_served :
    (videoEnd.1.store.getById "gen_1").map (fun row =>
      (row.status, row.resultJson.map fun result => result.data[1]?)) =
        some (.completed, some (some (.url "/v1/videos/gen_1/1.mov"))) ∧
      (puts videoEnd.2)[1]? = some (("b", "generations/2026/01/02/gen_1/1.mov"), [2]) ∧
      ∀ o now,
        putAll o (puts videoEnd.2) ("b", "generations/2026/01/02/gen_1/1.mov") = some [2] ∧
          (getPath ascii (getObject (putAll o (puts videoEnd.2)) none) now videoEnd.1.store
            (scopePath ascii "/v1/videos/gen_1/1.mov".toList)).1 =
              .error 404 "not_found" "invalid video path: 1.mov" := by
  have hput : (puts videoEnd.2)[1]? =
      some (("b", "generations/2026/01/02/gen_1/1.mov"), [2]) := by decide
  refine ⟨by decide, hput, fun o now => ⟨?_, rfl⟩⟩
  exact putAll_of_mem (p := (("b", "generations/2026/01/02/gen_1/1.mov"), [2])) (by decide)
    (List.mem_of_getElem? hput)

end image_gen.gateway_urls

-- From admission to the graph: when a job that validation accepts, against a registry that
-- was loaded, comes through the preparation of the worker.
import ImageGen.FrameCount
import ImageGen.RegistryChecks
import ImageGen.StoredDecoding

namespace image_gen.preparability

open image_gen.file_tree image_gen.graph image_gen.graph_shape image_gen.injectors
  image_gen.json image_gen.job_store image_gen.preparation image_gen.registry
  image_gen.registry_checks image_gen.request_models image_gen.results image_gen.worker
open image_gen.frame_count (forWorker)
open image_gen.lora_files (LoraTree joinPath)
open image_gen.lora_injection (submittedGraph)
open image_gen.requests (Artifact Bytes Family GraphError ModelConfig VideoTask)
open image_gen.request_limits (noFiles resolveAndValidate_checked resolveAndValidateVideo_checked
  shortBody)
open image_gen.stored_decoding (envelopeOf lookup_model peekFamily_of_registered prepare_select
  select_image select_video videoEnvelope_envelopeOf video_base)
open image_gen.validation (Setting ValidatedJob ValidatedVideoJob resolveAndValidateVideo
  resolveWorkflow validateImage validateVideo)

/-! ## A worker over the files that the loader saw -/

/-- A validated image job as the worker holds it. -/
def imageForWorker (job : ValidatedJob) : requests.ValidatedJob where
  model := job.model
  prompt := job.prompt
  negativePrompt := job.negativePrompt
  width := job.width
  height := job.height
  n := job.n
  steps := job.steps
  cfg := job.cfg
  seed := job.seed
  sampler := job.sampler
  scheduler := job.scheduler
  responseFormat := job.responseFormat
  transparentBackground := job.transparentBackground
  timeoutS := job.timeoutS
  loras := job.loras
  initImageBytes := job.initImageBytes

/-- The workflow files are as they were when the registry was loaded. -/
def workerOf (site : Site) (models : List ModelConfig) (s : Setting) (t : LoraTree)
    (svc : Service Graph) : Service Graph :=
  wired site.py site.files site.cwd { svc with
    registry := models
    validateImage := fun raw => (validateImage s t raw).map imageForWorker
    validateVideo := fun payload task => (validateVideo s t task (.obj payload)).map forWorker }

/-- The graph of a stored job, up to its initial image. -/
def prepareGraph (svc : Service Graph) (row : Job) (drawn : Nat) :
    Except PrepareFailure Graph := do
  let p ← prepare svc row drawn
  (submittedGraph svc p).mapError GraphError.escape

/-- Preparation raises nothing, whatever seed is drawn. -/
def Prepares (svc : Service Graph) (row : Job) : Prop :=
  ∀ drawn, Succeeds (prepareGraph svc row drawn)

/-! ## The condition -/

/-- The worker finds this graph at the path of the workflow, which counts from its working
directory. -/
def Template (site : Site) (path : String) (g : Graph) : Prop :=
  loadWorkflow site.py site.files site.cwd path = .ok g

def TakesInitImage (image : Option Bytes) (g : Graph) : Prop :=
  nonEmpty image ≠ none → Lenient g "%INIT_IMAGE%"

/-- The template of an image job fits it. -/
structure ImageReady (py : Builtins) (job : ValidatedJob) (g : Graph) : Prop where
  fit : ImageFit py job.model job.loras g
  initImage : TakesInitImage job.initImageBytes g

/-- The template of a video job fits it, in the pipeline of its family. -/
structure VideoReady (py : Builtins) (task : VideoTask) (job : ValidatedVideoJob) (g : Graph) :
    Prop where
  ltxv : job.model.family = .ltxv → LtxvFit g
  wan : job.model.family = .wan22 → WanFit py job.model job.loras job.wanAdvanced task g
  initImage : TakesInitImage job.initImageBytes g

/-! ## The last step -/

section Steps

variable {site : Site} {models : List ModelConfig} {s : Setting} {t : LoraTree}
  {svc : Service Graph} {row : Job}

/-- A prepared graph, and what the initial image does to it. -/
theorem succeeds_submitted {p : Prepared Graph} {image : Option Bytes} {template : Graph}
    {has : String → Prop} (himage : p.initImage = nonEmpty image)
    (halike : Alike has template p.graph) :
    Succeeds ((submittedGraph (workerOf site models s t svc) p).mapError GraphError.escape) ↔
      TakesInitImage image template := by
  rw [succeeds_mapError]
  unfold submittedGraph TakesInitImage
  rw [himage, ← halike.lenient]
  cases nonEmpty image with
  | none => simp
  | some bytes =>
    rw [imp_iff_right (Option.some_ne_none bytes)]
    exact succeeds_injectInitImage

theorem getModel_workerOf (hregistry : s.registry = registry.get models) :
    (workerOf site models s t svc).getModel = s.registry := by
  rw [hregistry]
  rfl

/-- A template is there or not, and what follows needs only the template. -/
theorem succeeds_template {path : String} {f : Graph → Except PrepareFailure Graph}
    {Ready : Graph → Prop} (hf : ∀ g, Succeeds (f g) ↔ Ready g) :
    Succeeds ((loadWorkflow site.py site.files site.cwd path).mapError GraphError.escape >>= f) ↔
      ∃ g, Template site path g ∧ Ready g := by
  unfold Template
  cases loadWorkflow site.py site.files site.cwd path with
  | error e =>
    refine iff_of_false (not_succeeds_error _) ?_
    rintro ⟨g, hg, -⟩
    cases hg
  | ok g =>
    rw [ok_mapError, ok_bind, hf]
    simp

section Image

variable {raw : Json} {job : ValidatedJob}

theorem image_prepareGraph_iff (hregistry : s.registry = registry.get models)
    (hvalid : validateImage s t raw = .ok job) (heps : job.model.prediction = .eps)
    (hrow : row.inputJson = .value raw) (drawn : Nat) :
    Succeeds (prepareGraph (workerOf site models s t svc) row drawn) ↔
      ∃ g, Template site job.model.workflowPath g ∧ ImageReady site.py job g := by
  have hselect : prepare (workerOf site models s t svc) row drawn =
      prepareImage (workerOf site models s t svc) row.id drawn raw := by
    rw [prepare_select (getModel_workerOf hregistry), hrow]
    unfold validateImage at hvalid
    split at hvalid
    · next req hreq =>
      rw [select_image hreq]
      rfl
    · cases hvalid
  have hworker : (workerOf site models s t svc).validateImage raw = .ok (imageForWorker job) := by
    change (validateImage s t raw).map imageForWorker = _
    rw [hvalid]
    rfl
  unfold prepareGraph
  rw [hselect]
  unfold prepareImage
  rw [hworker]
  simp only [ok_mapError, ok_bind, bind_assoc]
  refine succeeds_template fun g => ?_
  have hready : ImageReady site.py job g ↔
      ImageFit site.py job.model job.loras g ∧ TakesInitImage job.initImageBytes g :=
    ⟨fun h => ⟨h.fit, h.initImage⟩, fun h => ⟨h.1, h.2⟩⟩
  rw [hready]
  have hfit : Succeeds (injectImage site.py (imageForWorker job) (actualSeed job.seed drawn) g) ↔
      ImageFit site.py job.model job.loras g := succeeds_injectImage heps
  refine succeeds_bind_iff (succeeds_mapError.trans hfit) fun g' hg' => ?_
  obtain ⟨has, halike⟩ := alike_injectImage (mapError_ok hg')
  exact succeeds_submitted rfl halike

end Image

section Video

variable {raw : Json} {task : VideoTask} {job : ValidatedVideoJob}

/-- The pipeline that the worker takes is that of the family of the accepted model. -/
theorem prepare_video (hregistry : s.registry = registry.get models)
    (hvalid : validateVideo s t task raw = .ok job)
    (hrow : row.inputJson = .value (.obj (envelopeOf task raw))) (drawn : Nat) :
    prepare (workerOf site models s t svc) row drawn =
      if job.model.family = .ltxv then
        prepareLtxv (workerOf site models s t svc) row.id drawn (envelopeOf task raw)
      else prepareVideo (workerOf site models s t svc) row.id drawn (envelopeOf task raw) := by
  unfold validateVideo at hvalid
  split at hvalid
  · next req hreq =>
    obtain ⟨fields, rfl, hname⟩ := lookup_model (video_base hreq)
    have hpeek := peekFamily_of_registered hname (resolveAndValidateVideo_checked hvalid).model
    rw [prepare_select (getModel_workerOf hregistry), hrow, select_video task hpeek, ok_bind]
    split_ifs <;> rfl
  · cases hvalid

theorem opened_of_valid (site : Site) (models : List ModelConfig) (svc : Service Graph)
    (hvalid : validateVideo s t task raw = .ok job) :
    ∃ fields, raw = .obj fields ∧ videoEnvelope (envelopeOf task raw) = .ok (task, fields) ∧
      (workerOf site models s t svc).validateVideo fields task = .ok (forWorker job) := by
  have hbody := hvalid
  unfold validateVideo at hbody
  split at hbody
  · next req hreq =>
    obtain ⟨fields, rfl, -⟩ := lookup_model (video_base hreq)
    refine ⟨fields, rfl, videoEnvelope_envelopeOf task fields, ?_⟩
    change (validateVideo s t task (.obj fields)).map forWorker = _
    rw [hvalid]
    rfl
  · cases hbody

theorem ltxv_prepareGraph_iff (hregistry : s.registry = registry.get models)
    (hvalid : validateVideo s t task raw = .ok job) (hltxv : job.model.family = .ltxv)
    (hrow : row.inputJson = .value (.obj (envelopeOf task raw))) (drawn : Nat) :
    Succeeds (prepareGraph (workerOf site models s t svc) row drawn) ↔
      ∃ g, Template site job.resolvedWorkflowPath g ∧
        LtxvFit g ∧ TakesInitImage job.initImageBytes g := by
  obtain ⟨fields, rfl, hopened, hworker⟩ := opened_of_valid site models svc hvalid
  unfold prepareGraph
  rw [prepare_video hregistry hvalid hrow, if_pos hltxv]
  unfold prepareLtxv
  rw [hopened]
  simp only [ok_mapError, ok_bind, hworker, bind_assoc]
  refine succeeds_template fun g => ?_
  refine succeeds_bind_iff (succeeds_mapError.trans succeeds_injectLtxv) fun g' hg' => ?_
  exact succeeds_submitted rfl (sameShape_injectLtxv (mapError_ok hg')).alike

theorem wan_prepareGraph_iff (hregistry : s.registry = registry.get models)
    (hvalid : validateVideo s t task raw = .ok job) (hwan : job.model.family = .wan22)
    (hfiles : FilesGiven job.model)
    (hrow : row.inputJson = .value (.obj (envelopeOf task raw))) (drawn : Nat) :
    Succeeds (prepareGraph (workerOf site models s t svc) row drawn) ↔
      ∃ g, Template site job.resolvedWorkflowPath g ∧
        WanFit site.py job.model job.loras job.wanAdvanced task g ∧
          TakesInitImage job.initImageBytes g := by
  obtain ⟨fields, rfl, hopened, hworker⟩ := opened_of_valid site models svc hvalid
  unfold prepareGraph
  rw [prepare_video hregistry hvalid hrow, if_neg (by rw [hwan]; decide)]
  unfold prepareVideo
  rw [hopened]
  simp only [ok_mapError, ok_bind, hworker, bind_assoc]
  refine succeeds_template fun g => ?_
  rw [wanFit_iff, and_assoc]
  refine succeeds_bind_iff (succeeds_mapError.trans (succeeds_injectWan hfiles)) fun g1 h1 => ?_
  have hwan1 := mapError_ok h1
  refine succeeds_bind_iff (succeeds_mapError.trans (succeeds_request_later hwan1))
    fun g2 h2 => ?_
  exact succeeds_submitted rfl (alike_wan hwan1 (mapError_ok h2))

end Video

end Steps

/-! ## Where the roots agree -/

/-- The root of the workflows is the working directory of the worker. -/
def Rooted (site : Site) : Prop := ∀ path, site.locate (site.workflow path) = site.locate path

theorem components_dot (path : String) :
    lora_files.components ("." ++ "/" ++ path) = lora_files.components path := by
  have hchars : ("." ++ "/" ++ path).toList = '.' :: '/' :: path.toList := by
    rw [String.toList_append]
    rfl
  unfold lora_files.components
  rw [hchars, List.splitOn_cons_eq_if_modifyHead, if_neg (by decide),
    List.splitOn_cons_eq_if_modifyHead, if_pos (by decide), List.modifyHead_cons, List.map_cons,
    List.filter_cons_of_neg (by decide)]

/-- As the root is by default. -/
theorem rooted_of_dot {site : Site} (h : site.workflowsRoot = ".") : Rooted site := by
  intro path
  unfold Site.locate Site.workflow under
  rw [h]
  split_ifs with habsolute
  · rfl
  · have hrelative : ("." ++ "/" ++ path).toList.head? ≠ some '/' := by
      rw [String.toList_append]
      simp
    unfold joinPath
    rw [if_neg hrelative, if_neg habsolute, components_dot]

theorem template_of_opens {site : Site} (hroot : Rooted site) {path : String} {g : Graph}
    (h : Opens site path g) : Template site path g := by
  have hpath : joinPath site.cwd (site.workflow path) = joinPath site.cwd path := hroot path
  unfold Opens loadWorkflow at h
  unfold Template loadWorkflow
  rw [hpath] at h
  cases hfile : site.files (joinPath site.cwd path) with
  | missing => simp [hfile] at h
  | unreadable reason => simp [hfile] at h
  | text content =>
    rw [hfile] at h
    cases content with
    | value j =>
      cases j with
      | obj nodes => exact h
      | _ => cases h
    | malformed m => cases h
    | unreadable m => cases h

/-- The anchors that the loader has checked. The audio workflow of any family is checked for
those of WAN. -/
def checkedAnchors (family : Family) (audio : Bool) : List String :=
  if audio then baseAnchorsWan22 ++ mmaudioAnchorsWan22 else silentAnchors family

section Accepted

variable {site : Site} {yaml : YamlFile} {models : List ModelConfig} {s : Setting} {t : LoraTree}

theorem kept_of_registered (hload : loadRegistry site yaml = .ok models)
    (hregistry : s.registry = registry.get models) {name : String} {cfg : ModelConfig}
    (h : s.registry name = some cfg) : Kept site cfg := by
  rw [hregistry] at h
  exact kept_loadRegistry hload cfg (List.mem_of_find?_eq_some h)

theorem image_model {raw : Json} {job : ValidatedJob} (h : validateImage s t raw = .ok job) :
    ∃ name, s.registry name = some job.model := by
  unfold validateImage at h
  split at h
  · exact ⟨_, (resolveAndValidate_checked h).model⟩
  · cases h

theorem resolveWorkflow_checked {task : VideoTask} {req : VideoGenerateRequest s.toContext}
    {job : ValidatedVideoJob} (h : resolveAndValidateVideo s t task req = .ok job) :
    resolveWorkflow job.model req.model job.generateAudio = .ok job.resolvedWorkflowPath := by
  unfold resolveAndValidateVideo at h
  obtain ⟨model, -, h⟩ := bind_ok h
  iterate 16 obtain ⟨_, -, h⟩ := bind_ok h
  obtain ⟨path, hpath, h⟩ := bind_ok h
  cases h
  exact hpath

/-- An accepted video has a model of one of the two families, and the workflow of the model
that goes with its audio. -/
theorem video_model {task : VideoTask} {raw : Json} {job : ValidatedVideoJob}
    (h : validateVideo s t task raw = .ok job) :
    (∃ name, s.registry name = some job.model) ∧
      (job.model.family = .wan22 ∨ job.model.family = .ltxv) ∧
      ∃ name, resolveWorkflow job.model name job.generateAudio = .ok job.resolvedWorkflowPath := by
  unfold validateVideo at h
  split at h
  · have hc := resolveAndValidateVideo_checked h
    exact ⟨⟨_, hc.model⟩, hc.family, _, resolveWorkflow_checked h⟩
  · cases h

theorem image_prepares_iff (hload : loadRegistry site yaml = .ok models)
    (hregistry : s.registry = registry.get models) {svc : Service Graph} {raw : Json}
    {job : ValidatedJob} {row : Job} (hvalid : validateImage s t raw = .ok job)
    (hrow : row.inputJson = .value raw) : Prepares (workerOf site models s t svc) row ↔
      ∃ g, Template site job.model.workflowPath g ∧ ImageReady site.py job g := by
  obtain ⟨name, hname⟩ := image_model hvalid
  have heps := (kept_of_registered hload hregistry hname).eps
  have hgraph : ∀ drawn, Succeeds (prepareGraph (workerOf site models s t svc) row drawn) ↔ _ :=
    image_prepareGraph_iff hregistry hvalid heps hrow
  exact ⟨fun h => (hgraph 0).mp (h 0), fun h drawn => (hgraph drawn).mpr h⟩

theorem video_prepares_iff (hload : loadRegistry site yaml = .ok models)
    (hregistry : s.registry = registry.get models) {svc : Service Graph} {task : VideoTask}
    {raw : Json} {job : ValidatedVideoJob} {row : Job}
    (hvalid : validateVideo s t task raw = .ok job)
    (hrow : row.inputJson = .value (.obj (envelopeOf task raw))) :
    Prepares (workerOf site models s t svc) row ↔
      ∃ g, Template site job.resolvedWorkflowPath g ∧ VideoReady site.py task job g := by
  obtain ⟨⟨name, hname⟩, hfamily, -⟩ := video_model hvalid
  have hkept := kept_of_registered hload hregistry hname
  have hgraph : ∀ drawn, Succeeds (prepareGraph (workerOf site models s t svc) row drawn) ↔
      ∃ g, Template site job.resolvedWorkflowPath g ∧ VideoReady site.py task job g := by
    intro drawn
    rcases hfamily with hwan | hltxv
    · rw [wan_prepareGraph_iff hregistry hvalid hwan (hkept.files hwan) hrow]
      refine exists_congr fun g => and_congr_right fun _ => ?_
      have hnot : job.model.family ≠ .ltxv := by rw [hwan]; decide
      exact ⟨fun ⟨hfit, himage⟩ => ⟨fun h => absurd h hnot, fun _ => hfit, himage⟩,
        fun h => ⟨h.wan hwan, h.initImage⟩⟩
    · rw [ltxv_prepareGraph_iff hregistry hvalid hltxv hrow]
      refine exists_congr fun g => and_congr_right fun _ => ?_
      have hnot : job.model.family ≠ .wan22 := by rw [hltxv]; decide
      exact ⟨fun ⟨hfit, himage⟩ => ⟨fun _ => hfit, fun h => absurd h hnot, himage⟩,
        fun h => ⟨h.ltxv hltxv, h.initImage⟩⟩
  exact ⟨fun h => (hgraph 0).mp (h 0), fun h drawn => (hgraph drawn).mpr h⟩

/-- The template of an accepted video is one that the loader has checked. -/
theorem video_template (hload : loadRegistry site yaml = .ok models)
    (hregistry : s.registry = registry.get models) (hroot : Rooted site) {task : VideoTask}
    {raw : Json} {job : ValidatedVideoJob} (hvalid : validateVideo s t task raw = .ok job) :
    ∃ g, Template site job.resolvedWorkflowPath g ∧
      ∀ a ∈ checkedAnchors job.model.family job.generateAudio, Declared g a := by
  obtain ⟨⟨name, hname⟩, -, model, hpath⟩ := video_model hvalid
  have hkept := kept_of_registered hload hregistry hname
  unfold checkedAnchors
  unfold resolveWorkflow at hpath
  split_ifs at hpath ⊢ with haudio
  · split at hpath
    · next path hgiven =>
      cases hpath
      obtain ⟨g, hopens, hanchors⟩ := hkept.audio _ hgiven
      exact ⟨g, template_of_opens hroot hopens, hanchors⟩
    · cases hpath
  · obtain ⟨g, hopens, hanchors⟩ := hkept.silent
    rw [← Except.ok.inj hpath]
    exact ⟨g, template_of_opens hroot hopens, hanchors⟩

/-- An accepted job comes through its preparation exactly where the worker finds its template
and the template fits the pipeline of the job. Where the root of the workflows is the working
directory it does find the template, with the anchors that the loader has checked. -/
theorem accepted_jobs_prepare_iff (hload : loadRegistry site yaml = .ok models)
    (hregistry : s.registry = registry.get models) (t : LoraTree) (svc : Service Graph) :
    (∀ raw job row, validateImage s t raw = .ok job → row.inputJson = .value raw →
      (Prepares (workerOf site models s t svc) row ↔
        ∃ g, Template site job.model.workflowPath g ∧ ImageReady site.py job g)) ∧
    (∀ task raw job row, validateVideo s t task raw = .ok job →
      row.inputJson = .value (.obj (envelopeOf task raw)) →
      (Prepares (workerOf site models s t svc) row ↔
        ∃ g, Template site job.resolvedWorkflowPath g ∧ VideoReady site.py task job g)) ∧
    (Rooted site →
      (∀ raw job, validateImage s t raw = .ok job → ∃ g, Template site job.model.workflowPath g ∧
        ∀ a ∈ checkedAnchors job.model.family false, Declared g a) ∧
      ∀ task raw job, validateVideo s t task raw = .ok job →
        ∃ g, Template site job.resolvedWorkflowPath g ∧
          ∀ a ∈ checkedAnchors job.model.family job.generateAudio, Declared g a) := by
  refine ⟨fun raw job row hvalid hrow => image_prepares_iff hload hregistry hvalid hrow,
    fun task raw job row hvalid hrow => video_prepares_iff hload hregistry hvalid hrow,
    fun hroot => ⟨fun raw job hvalid => ?_,
      fun task raw job hvalid => video_template hload hregistry hroot hvalid⟩⟩
  obtain ⟨name, hname⟩ := image_model hvalid
  obtain ⟨g, hopens, hanchors⟩ := (kept_of_registered hload hregistry hname).silent
  exact ⟨g, template_of_opens hroot hopens, hanchors⟩

end Accepted

/-! ## An LTX model -/

def ltxEntry : Entry where
  name := "ltx"
  workflow := "ltx.json"
  checkpoint := "checkpoints/ltx.safetensors"
  family := some (.str "ltxv")
  vramEstimateGb := 1
  capabilities := [("video_gen", .bool true), ("video_task", .str "t2v")]
  skipAssetValidation := true
  ltxvTextEncoder := some "text_encoders/te.safetensors"

def ltxSite : Site where
  py := asciiBuiltins
  cwd := ["app"]
  modelsRoot := "models"
  workflowsRoot := "."
  vramBudgetGb := .finite 12
  files := lora_injection.ltxFiles
  pathExists path := path = ["app", "ltx.json"]
  isFile path := path = ["app", "ltx.json"]
  showSet _ := ""
  showFloat _ := ""

/-- What the loader makes of the entry. -/
def ltxModels : List ModelConfig :=
  match loadRegistry ltxSite (.entries [ltxEntry]) with
  | .ok models => models
  | .error _ => []

theorem ltx_loaded : loadRegistry ltxSite (.entries [ltxEntry]) = .ok ltxModels := by
  have hok : (loadRegistry ltxSite (.entries [ltxEntry])).isOk = true := by decide +kernel
  unfold ltxModels
  rcases hload : loadRegistry ltxSite (.entries [ltxEntry]) with e | models
  · rw [hload] at hok
    cases hok
  · rfl

def ltxSetting : Setting :=
  { request_limits.smallSetting with
    registry := registry.get ltxModels
    lower_decimal := py_str.ascii_lower_decimal }

/-- The row of a body that the endpoint for images, or for videos, accepts. -/
def ltxRow (stored : Json) : Job := Job.fresh "a" "ltx" (.value stored) .async none none 0

theorem ltxGraph_found : Template ltxSite "ltx.json" lora_injection.ltxGraph := by
  have hsite : loadWorkflow asciiBuiltins lora_injection.ltxFiles ["app"] "ltx.json" =
      loadWorkflow ltxSite.py ltxSite.files ltxSite.cwd "ltx.json" := rfl
  unfold lora_injection.ltxGraph
  rw [hsite]
  have hok : (loadWorkflow ltxSite.py ltxSite.files ltxSite.cwd "ltx.json").isOk = true := by
    decide +kernel
  rcases hload : loadWorkflow ltxSite.py ltxSite.files ltxSite.cwd "ltx.json" with e | g
  · rw [hload] at hok
    cases hok
  · exact hload

theorem an_ltx_video_is_prepared :
    ∃ job, validateVideo ltxSetting noFiles .t2v (shortBody "ltx") = .ok job ∧
      Prepares (workerOf ltxSite ltxModels ltxSetting noFiles lora_injection.ltxService)
        (ltxRow (.obj (envelopeOf .t2v (shortBody "ltx")))) := by
  have hshown : (validateVideo ltxSetting noFiles .t2v (shortBody "ltx")).toOption.map
      (fun job => (job.resolvedWorkflowPath, job.model.family, nonEmpty job.initImageBytes)) =
        some ("ltx.json", .ltxv, none) := by decide +kernel
  rcases hjob : validateVideo ltxSetting noFiles .t2v (shortBody "ltx") with e | job
  · rw [hjob] at hshown
    cases hshown
  · rw [hjob] at hshown
    obtain ⟨hpath, hfamily, himage⟩ : job.resolvedWorkflowPath = "ltx.json" ∧
        job.model.family = .ltxv ∧ nonEmpty job.initImageBytes = none := by
      simpa [Except.toOption] using hshown
    have hfit : LtxvFit lora_injection.ltxGraph := ⟨by decide +kernel, by decide +kernel⟩
    refine ⟨job, rfl, ((accepted_jobs_prepare_iff ltx_loaded rfl noFiles _).2.1 _ _ job _ hjob
      rfl).mpr ⟨lora_injection.ltxGraph, ?_, fun _ => hfit, fun hwan => ?_, fun h => ?_⟩⟩
    · rw [hpath]
      exact ltxGraph_found
    · rw [hfamily] at hwan
      cases hwan
    · exact absurd himage h

/-- The registry takes the entry and the endpoint for images a body that names it, but the
template has no anchor for a positive prompt. -/
theorem an_ltx_model_passes_for_images :
    loadRegistry ltxSite (.entries [ltxEntry]) = .ok ltxModels ∧ Rooted ltxSite ∧
      ∃ job, validateImage ltxSetting noFiles (shortBody "ltx") = .ok job ∧
        ¬ Prepares (workerOf ltxSite ltxModels ltxSetting noFiles lora_injection.ltxService)
          (ltxRow (shortBody "ltx")) := by
  have hshown : (validateImage ltxSetting noFiles (shortBody "ltx")).toOption.map
      (fun job => job.model.workflowPath) = some "ltx.json" := by decide +kernel
  refine ⟨ltx_loaded, rooted_of_dot rfl, ?_⟩
  rcases hjob : validateImage ltxSetting noFiles (shortBody "ltx") with e | job
  · rw [hjob] at hshown
    cases hshown
  · rw [hjob] at hshown
    have hpath : job.model.workflowPath = "ltx.json" := by simpa [Except.toOption] using hshown
    refine ⟨job, rfl, fun hprepares => ?_⟩
    obtain ⟨g, htemplate, hready⟩ := (image_prepares_iff ltx_loaded rfl hjob rfl).mp hprepares
    rw [hpath] at htemplate
    obtain rfl : lora_injection.ltxGraph = g :=
      Except.ok.inj (ltxGraph_found.symm.trans htemplate)
    have hpositive := (hready.fit.anchored "%POSITIVE_PROMPT%" (by decide)).1
    revert hpositive
    decide +kernel

end image_gen.preparability

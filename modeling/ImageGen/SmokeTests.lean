-- The smoke tests of the models (`app/startup/smoke_test.py`), and what a start that has
-- passed them says of the image jobs that the worker prepares later.
import Mathlib.Tactic.NormNum
import ImageGen.Coroutine
import ImageGen.Preparability

namespace image_gen.smoke_tests

open image_gen.coroutine image_gen.graph image_gen.graph_shape image_gen.injectors image_gen.json
open image_gen.graph_edits (latentNode)
open image_gen.job_store (Job)
open image_gen.lora_chain (Numberable)
open image_gen.lora_files (LoraTree pyRepr)
open image_gen.preparability image_gen.preparation
open image_gen.registry (Site)
open image_gen.request_limits (noFiles resolveAndValidate_checked shortBody)
open image_gen.request_models
open image_gen.requests (Bytes GraphError ModelConfig Rejection)
open image_gen.results
open image_gen.stored_decoding (image_base lookup_model)
open image_gen.validation (Setting ValidatedJob validateImage)
open image_gen.worker (Service)

/-! ## The program -/

inductive Exc
  /-- `StartupSmokeError`. -/
  | smoke (message : String)
  | rejected (r : Rejection)
  | graph (e : GraphError)
  | comfyTimeout (message : String)
  | comfyUnreachable (message : String)
  | comfyNode (message : String)
  /-- The `TimeoutError` of `wait_for`. -/
  | timeout
  | other (message : String)

inductive Op
  | monotonic
  | submit (graph : Graph)
  /-- With `wait_for` around it. -/
  | waitForCompletion (promptId : String) (timeoutS : ℚ)
  | fetchOutputs (promptId : String)

@[reducible] def Op.Ans : Op → Type
  | .monotonic => ℚ
  | .submit _ => String
  | .waitForCompletion _ _ => Unit
  | .fetchOutputs _ => List Bytes

abbrev Prog (α : Type) := Co Exc Op Op.Ans α

def ask (op : Op) : Prog op.Ans := Co.call op

/-- What the tests are called with, beside the registry. -/
structure Tester where
  site : Site
  setting : Setting
  loras : LoraTree

/-- A request of the tests is never asynchronous. -/
def Tester.settingFor (x : Tester) (models : List ModelConfig) : Setting :=
  { x.setting with
    registry := registry.get models
    asyncModeEnabled := false }

def buildSmokePayload (modelName : String) (seed : Int) : Json :=
  .obj [("model", .str modelName), ("prompt", .str "startup smoke test"), ("size", .str "256x256"),
    ("steps", .int 1), ("seed", .int seed), ("n", .int 1), ("mode", .str "sync"),
    ("response_format", .str "url")]

/-- `_PNG_MAGIC`. -/
def pngMagic : Bytes := [0x89, 0x50, 0x4E, 0x47, 0x0D, 0x0A, 0x1A, 0x0A]

/-- The loop over the outputs. -/
def ensurePngs (modelName : String) : Nat → List Bytes → Except Exc Unit
  | _, [] => .ok ()
  | index, image :: rest =>
    if pngMagic <+: image then ensurePngs modelName (index + 1) rest
    else .error (.smoke ("smoke output #" ++ toString index ++ " for model=" ++ pyRepr modelName ++
      " is not a PNG payload"))

def ensurePngOutputs (outputs : List Bytes) (modelName : String) : Except Exc Unit :=
  if outputs = [] then
    .error (.smoke ("smoke produced zero outputs for model=" ++ pyRepr modelName))
  else ensurePngs modelName 0 outputs

/-- The worker's steps, without the size of the image. -/
def injectSmoke (py : Builtins) (v : requests.ValidatedJob) (g : Graph) :
    Except GraphError Graph := do
  let posId ← findAnchor g "%POSITIVE_PROMPT%"
  let negId ← findAnchor g "%NEGATIVE_PROMPT%"
  let ksId ← findAnchor g "%KSAMPLER%"
  let g ← assign g posId [("text", .str v.prompt)]
  let g ← assign g negId [("text", v.negativePrompt)]
  let g ← assign g ksId
    [("seed", .int v.seed), ("steps", v.steps), ("cfg", .float v.cfg),
      ("sampler_name", .str v.sampler), ("scheduler", .str v.scheduler)]
  let g ← injectModelSource v.model g
  let g ← injectVpred v.model g
  injectLoras py v.loras g

/-- The part of `_run_one_model_smoke` before its first `await`. -/
def smokeGraph (x : Tester) (models : List ModelConfig) (modelName : String) (seed : Int) :
    Except Exc Graph := do
  let validated ← (validateImage (x.settingFor models) x.loras
    (buildSmokePayload modelName seed)).mapError .rejected
  let template ← (loadWorkflow x.site.py x.site.files x.site.cwd
    validated.model.workflowPath).mapError .graph
  (injectSmoke x.site.py (imageForWorker validated) template).mapError .graph

/-- The two `except` clauses. -/
def smokeFailed (x : Tester) (modelName : String) (timeoutS : ℚ) : Exc → Exc
  | .comfyTimeout m | .comfyUnreachable m | .comfyNode m =>
    .smoke ("smoke failed for model=" ++ pyRepr modelName ++ ": " ++ m)
  | .timeout =>
    .smoke ("smoke timeout for model=" ++ pyRepr modelName ++ " after " ++
      x.site.showFloat (.finite timeoutS) ++ "s")
  | e => e

def generateOnce (graph : Graph) (timeoutS : ℚ) : Prog (List Bytes) := do
  let promptId ← ask (.submit graph)
  ask (.waitForCompletion promptId timeoutS)
  ask (.fetchOutputs promptId)

def runOneModelSmoke (x : Tester) (models : List ModelConfig) (modelName : String) (timeoutS : ℚ)
    (seed : Int) : Prog Unit := do
  let graph ← Co.ofExcept (smokeGraph x models modelName seed)
  let outputs ← tryCatch (generateOnce graph timeoutS)
    fun e => throw (smokeFailed x modelName timeoutS e)
  Co.ofExcept (ensurePngOutputs outputs modelName)

def skipsSmoke (model : ModelConfig) : Bool :=
  (Json.get model.capabilities "skip_startup_smoke").truthy

/-- The names that are tested. -/
def eligible (models : List ModelConfig) : List String :=
  (models.map (·.name)).filter fun name => !(registry.get models name).any skipsSmoke

def smokeEach (x : Tester) (models : List ModelConfig) (overallDeadline : ℚ) :
    Nat → List String → Prog Unit
  | _, [] => pure ()
  | index, modelName :: rest => do
    let now ← ask .monotonic
    let remaining := overallDeadline - now
    if remaining ≤ 0 then
      throw (.smoke "startup smoke budget exhausted before all models were tested")
    runOneModelSmoke x models modelName remaining (20260000 + index)
    smokeEach x models overallDeadline (index + 1) rest

def runRegistrySmokeTests (x : Tester) (models : List ModelConfig) (timeoutS : ℚ) :
    Prog Unit := do
  if eligible models = [] then
    throw (.smoke "registry has no models eligible for startup smoke")
  let now ← ask .monotonic
  smokeEach x models (now + timeoutS) 0 (eligible models)

/-! ## The runs that pass -/

abbrev Trace := List (Co.Event Exc Op.Ans)

/-- One model's turn. -/
structure Round where
  now : ℚ
  graph : Graph
  promptId : String
  outputs : List Bytes

/-- What the service is asked in a turn. -/
def Round.events (round : Round) (deadline : ℚ) : Trace :=
  [⟨.monotonic, .ok round.now⟩, ⟨.submit round.graph, .ok round.promptId⟩,
    ⟨.waitForCompletion round.promptId (deadline - round.now), .ok ()⟩,
    ⟨.fetchOutputs round.promptId, .ok round.outputs⟩]

structure Passed (x : Tester) (models : List ModelConfig) (deadline : ℚ)
    (entry : String × Nat) (round : Round) : Prop where
  inTime : round.now < deadline
  graph : smokeGraph x models entry.1 (20260000 + entry.2) = .ok round.graph
  some : round.outputs ≠ []
  png : ∀ image ∈ round.outputs, pngMagic <+: image

section Runs

variable {x : Tester} {models : List ModelConfig} {t t' : Trace}

theorem ensurePngs_ok {modelName : String} {index : Nat} {outputs : List Bytes} :
    ensurePngs modelName index outputs = .ok () ↔ ∀ image ∈ outputs, pngMagic <+: image := by
  induction outputs generalizing index with
  | nil => simp [ensurePngs]
  | cons image rest ih =>
    unfold ensurePngs
    split_ifs with h
    · simp [ih, h]
    · simp [h]

theorem ensurePngOutputs_ok {modelName : String} {outputs : List Bytes} :
    ensurePngOutputs outputs modelName = .ok () ↔
      outputs ≠ [] ∧ ∀ image ∈ outputs, pngMagic <+: image := by
  unfold ensurePngOutputs
  split_ifs with h
  · simp [h]
  · simp [h, ensurePngs_ok]

theorem generateOnce_iff {graph : Graph} {timeoutS : ℚ} {outputs : List Bytes} :
    (generateOnce graph timeoutS).EndsIn Co.traced t (.ok outputs) t' ↔
      ∃ promptId : String, t' = t ++ [⟨.submit graph, .ok promptId⟩,
        ⟨.waitForCompletion promptId timeoutS, .ok ()⟩, ⟨.fetchOutputs promptId, .ok outputs⟩] := by
  unfold generateOnce ask
  simp only [Co.endsIn_bind_ok, Co.endsIn_call_ok, Co.traced]
  constructor
  · rintro ⟨promptId, _, rfl, _, _, rfl, rfl⟩
    exact ⟨promptId, by simp⟩
  · rintro ⟨promptId, rfl⟩
    exact ⟨promptId, _, rfl, (), _, rfl, by simp⟩

theorem runOneModelSmoke_iff {modelName : String} {timeoutS : ℚ} {seed : Int} :
    (runOneModelSmoke x models modelName timeoutS seed).EndsIn Co.traced t (.ok ()) t' ↔
      ∃ graph outputs, smokeGraph x models modelName seed = .ok graph ∧
        (generateOnce graph timeoutS).EndsIn Co.traced t (.ok outputs) t' ∧
        outputs ≠ [] ∧ ∀ image ∈ outputs, pngMagic <+: image := by
  unfold runOneModelSmoke
  simp only [Co.endsIn_bind_ok, Co.endsIn_ofExcept_ok, Co.endsIn_rethrow_ok, ensurePngOutputs_ok]
  constructor
  · rintro ⟨graph, _, ⟨hgraph, rfl⟩, outputs, _, hrun, ⟨hsome, hpng⟩, rfl⟩
    exact ⟨graph, outputs, hgraph, hrun, hsome, hpng⟩
  · rintro ⟨graph, outputs, hgraph, hrun, hsome, hpng⟩
    exact ⟨graph, t, ⟨hgraph, rfl⟩, outputs, t', hrun, ⟨hsome, hpng⟩, rfl⟩

theorem smokeEach_iff {deadline : ℚ} {names : List String} {index : Nat} :
    (smokeEach x models deadline index names).EndsIn Co.traced t (.ok ()) t' ↔
      ∃ rounds, List.Forall₂ (Passed x models deadline) (names.zipIdx index) rounds ∧
        t' = t ++ rounds.flatMap fun round => round.events deadline := by
  induction names generalizing index t with
  | nil =>
    simp only [smokeEach, List.zipIdx_nil, List.forall₂_nil_left_iff, exists_eq_left,
      List.flatMap_nil, List.append_nil]
    exact ⟨fun h => h.2, fun h => ⟨rfl, h⟩⟩
  | cons modelName rest ih =>
    unfold smokeEach ask
    simp only [Co.endsIn_bind_ok, Co.endsIn_call_ok, Co.traced]
    constructor
    · rintro ⟨now, _, rfl, h⟩
      split_ifs at h with hlate
      · cases h.1
      · obtain ⟨_, t₁, hone, hrest⟩ := Co.endsIn_bind_ok.mp h
        obtain ⟨graph, outputs, hgraph, hrun, hsome, hpng⟩ := runOneModelSmoke_iff.mp hone
        obtain ⟨promptId, rfl⟩ := generateOnce_iff.mp hrun
        obtain ⟨rounds, hrounds, rfl⟩ := ih.mp hrest
        have hpassed : Passed x models deadline (modelName, index)
            ⟨now, graph, promptId, outputs⟩ :=
          ⟨sub_pos.mp (not_le.mp hlate), hgraph, hsome, hpng⟩
        exact ⟨_ :: rounds, .cons hpassed hrounds, by simp [Round.events]⟩
    · rintro ⟨_, hrounds, rfl⟩
      cases hrounds with
      | @cons _ round _ rounds hpassed hrest =>
        refine ⟨round.now, _, rfl, ?_⟩
        rw [if_neg (not_le.mpr (sub_pos.mpr hpassed.inTime))]
        refine Co.endsIn_bind_ok.mpr ⟨(), _, runOneModelSmoke_iff.mpr ⟨round.graph, round.outputs,
          hpassed.graph, generateOnce_iff.mpr ⟨round.promptId, rfl⟩, hpassed.some,
          hpassed.png⟩, ?_⟩
        exact ih.mpr ⟨rounds, hrest, by simp [Round.events]⟩

/-- The tests pass exactly in these runs: every model that is eligible is prompted once, in the
order of the registry, while there is time, and gives at least one output, all of them PNGs. -/
theorem runRegistrySmokeTests_iff {timeoutS : ℚ} :
    (runRegistrySmokeTests x models timeoutS).EndsIn Co.traced [] (.ok ()) t ↔
      eligible models ≠ [] ∧ ∃ began rounds,
        t = ⟨.monotonic, .ok began⟩ :: rounds.flatMap (fun r => r.events (began + timeoutS)) ∧
        List.Forall₂ (Passed x models (began + timeoutS)) (eligible models).zipIdx rounds := by
  unfold runRegistrySmokeTests ask
  split_ifs with hnone
  · exact ⟨fun h => (by cases h.1), fun h => absurd hnone h.1⟩
  simp only [Co.endsIn_bind_ok, Co.endsIn_call_ok, Co.traced, smokeEach_iff]
  constructor
  · rintro ⟨began, _, rfl, rounds, hrounds, rfl⟩
    exact ⟨hnone, began, rounds, rfl, hrounds⟩
  · rintro ⟨-, began, rounds, rfl, hrounds⟩
    exact ⟨began, _, rfl, rounds, hrounds, rfl⟩

end Runs

/-! ## What a smoke graph needs -/

section Fit

variable {py : Builtins} {v : requests.ValidatedJob} {g : Graph}

/-- What the tests try of a template. They do not look at the node that takes the size. -/
structure SmokeFit (py : Builtins) (v : requests.ValidatedJob) (g : Graph) : Prop where
  anchored : ∀ a ∈ imageAnchors, Anchored (Declared g) g a
  source : SourceFit v.model g
  eps : v.model.prediction = .eps

theorem eps_of_injectVpred {cfg : ModelConfig} (h : Succeeds (injectVpred cfg g)) :
    cfg.prediction = .eps := by
  obtain ⟨g', hg'⟩ := h
  unfold injectVpred at hg'
  rcases hp : cfg.prediction with _ | _
  · rfl
  · rw [hp] at hg'
    cases hg'

theorem smokeFit_of_succeeds (h : Succeeds (injectSmoke py v g)) : SmokeFit py v g := by
  obtain ⟨g', h⟩ := h
  obtain ⟨posId, hpos, h⟩ := bind_ok h
  obtain ⟨negId, hneg, h⟩ := bind_ok h
  obtain ⟨ksId, hks, h⟩ := bind_ok h
  obtain ⟨g1, h1, h⟩ := bind_ok h
  obtain ⟨g2, h2, h⟩ := bind_ok h
  obtain ⟨g3, h3, h⟩ := bind_ok h
  obtain ⟨g4, h4, h⟩ := bind_ok h
  obtain ⟨g5, h5, h⟩ := bind_ok h
  have s1 := sameShape_assign h1
  have s2 := s1.trans (sameShape_assign h2)
  have s3 := s2.trans (sameShape_assign h3)
  have hwrite1 := (succeeds_assign_later (.refl g) hpos).mp ⟨g1, h1⟩
  have hwrite2 := (succeeds_assign_later s1 hneg).mp ⟨g2, h2⟩
  have hwrite3 := (succeeds_assign_later s2 hks).mp ⟨g3, h3⟩
  obtain ⟨hmodel, hclip, hsource⟩ := succeeds_injectModelSource.mp ⟨g4, h4⟩
  rw [anchored_alike s3.alike] at hmodel hclip
  refine ⟨?_, (sourceFit_same s3).mp hsource, eps_of_injectVpred ⟨g5, h5⟩⟩
  simp only [imageAnchors, List.forall_mem_cons, List.not_mem_nil, false_imp_iff, implies_true,
    and_true]
  exact ⟨⟨succeeds_findAnchor.mp ⟨posId, hpos⟩, hwrite1⟩,
    ⟨succeeds_findAnchor.mp ⟨negId, hneg⟩, hwrite2⟩,
    ⟨succeeds_findAnchor.mp ⟨ksId, hks⟩, hwrite3⟩, hmodel, hclip⟩

end Fit

/-! ## Tests and jobs -/

section Jobs

variable {x : Tester} {models : List ModelConfig} {name : String} {seed : Int}

/-- The text under `model` is the name of the job's model. -/
theorem named_of_valid {s : Setting} {t : LoraTree} {raw : Json} {job : ValidatedJob}
    (hregistry : s.registry = registry.get models) (hvalid : validateImage s t raw = .ok job) :
    registry.get models job.model.name = some job.model ∧
      ∃ fields, raw = .obj fields ∧ fields.lookup "model" = some (.str job.model.name) := by
  unfold validateImage at hvalid
  rcases hreq : GenerateRequest.ofJson s.toContext raw with _ | req <;> rw [hreq] at hvalid
  · cases hvalid
  · have hmodel := (resolveAndValidate_checked hvalid).model
    rw [hregistry] at hmodel
    have hname : job.model.name = req.model := by
      simpa using List.find?_some hmodel
    rw [hname]
    exact ⟨hmodel, lookup_model (image_base hreq)⟩

/-- The tests run with the model of the registry. -/
theorem fit_of_smokeGraph {graph : Graph} {model : ModelConfig}
    (h : smokeGraph x models name seed = .ok graph)
    (hmodel : registry.get models name = some model) :
    model.prediction = .eps ∧ ∃ g, Template x.site model.workflowPath g ∧
      (∀ a ∈ imageAnchors, Anchored (Declared g) g a) ∧ SourceFit model g := by
  obtain ⟨validated, hvalid, h⟩ := bind_ok h
  obtain ⟨template, htemplate, h⟩ := bind_ok h
  have hfit := smokeFit_of_succeeds ⟨graph, mapError_ok h⟩
  obtain ⟨hget, fields, hraw, hname⟩ :=
    named_of_valid (s := x.settingFor models) rfl (mapError_ok hvalid)
  have hsame : validated.model = model := by
    cases hraw
    simp only [List.lookup_cons, beq_self_eq_true, Option.some.injEq, Json.str.injEq] at hname
    rw [← hname, hmodel] at hget
    exact (Option.some.inj hget).symm
  subst hsame
  exact ⟨hfit.eps, template, mapError_ok htemplate, hfit.anchored, hfit.source⟩

/-- The tests have passed, in a run with one prompt for each model that is eligible, and an image
job names such a model. Then its template is there, and the preparation fails at nothing but the
node that takes the size, the numbers of the nodes where there are LoRAs, and the initial image. -/
theorem a_passed_start_prepares_images {timeoutS : ℚ} {t : Trace}
    (hpassed : (runRegistrySmokeTests x models timeoutS).EndsIn Co.traced [] (.ok ()) t) :
    (∃ began rounds,
      t = ⟨.monotonic, .ok began⟩ :: rounds.flatMap (fun r => r.events (began + timeoutS)) ∧
      List.Forall₂ (Passed x models (began + timeoutS)) (eligible models).zipIdx rounds) ∧
    ∀ (s : Setting) (tree : LoraTree) (svc : Service Graph) (raw : Json) (job : ValidatedJob)
      (row : Job), s.registry = registry.get models → validateImage s tree raw = .ok job →
      job.model.name ∈ eligible models → row.inputJson = .value raw →
      ∃ g, Template x.site job.model.workflowPath g ∧ ∀ drawn,
        (Succeeds (prepareGraph (workerOf x.site models s tree svc) row drawn) ↔
          LatentFit g ∧ (job.loras ≠ [] → Numberable x.site.py g job.loras.length) ∧
            TakesInitImage job.initImageBytes g) := by
  obtain ⟨-, began, rounds, htrace, hrounds⟩ := runRegistrySmokeTests_iff.mp hpassed
  refine ⟨⟨began, rounds, htrace, hrounds⟩, ?_⟩
  intro s tree svc raw job row hregistry hvalid htested hrow
  obtain ⟨i, hi, hname⟩ := List.getElem_of_mem htested
  have hentry : (job.model.name, i) ∈ (eligible models).zipIdx := by
    rw [List.mk_mem_zipIdx_iff_getElem?, List.getElem?_eq_getElem hi, hname]
  obtain ⟨round, -, hround⟩ := exists_of_forall₂ hrounds _ hentry
  obtain ⟨hget, -⟩ := named_of_valid hregistry hvalid
  obtain ⟨heps, g, htemplate, hanchored, hsource⟩ := fit_of_smokeGraph hround.graph hget
  refine ⟨g, htemplate, fun drawn => ?_⟩
  rw [image_prepareGraph_iff hregistry hvalid heps hrow]
  constructor
  · rintro ⟨g', htemplate', hready⟩
    have hsame : g' = g := Except.ok.inj (htemplate'.symm.trans htemplate)
    subst hsame
    exact ⟨hready.fit.latent, hready.fit.ids, hready.initImage⟩
  · rintro ⟨hlatent, hids, himage⟩
    exact ⟨g, htemplate, ⟨hanchored, hlatent, hsource, hids⟩, himage⟩

end Jobs

/-! ## A template whose size node has no inputs -/

def gapModels : List ModelConfig :=
  [{ name := "noob", workflowPath := "w.json", checkpoint := "c", vramEstimateGb := 7 }]

def gapFile : StoredJson :=
  .value (.obj [
    lora_injection.plainNode "1" "CheckpointLoaderSimple" "%MODEL_SOURCE%,%CLIP_SOURCE%",
    lora_injection.plainNode "2" "CLIPTextEncode" "%POSITIVE_PROMPT%",
    lora_injection.plainNode "3" "CLIPTextEncode" "%NEGATIVE_PROMPT%",
    lora_injection.plainNode "4" "KSampler" "%KSAMPLER%",
    ("5", .obj [("class_type", .str "EmptyLatentImage")])])

def gapTester : Tester where
  site := { ltxSite with files := fun path => if path = ["app", "w.json"] then .text gapFile
                                              else .missing }
  setting := request_limits.smallSetting
  loras := noFiles

def gapGraph : Graph :=
  match smokeGraph gapTester gapModels "noob" 20260000 with
  | .ok g => g
  | .error _ => []

theorem gapGraph_ok : smokeGraph gapTester gapModels "noob" 20260000 = .ok gapGraph := by
  have hok : (smokeGraph gapTester gapModels "noob" 20260000).isOk = true := by decide +kernel
  unfold gapGraph
  rcases h : smokeGraph gapTester gapModels "noob" 20260000 with e | g
  · rw [h] at hok
    cases hok
  · rfl

/-- The tests pass, and a job with the defaults cannot be prepared. -/
theorem a_tested_model_may_fail_a_job : ∃ t,
    (runRegistrySmokeTests gapTester gapModels 60).EndsIn Co.traced [] (.ok ()) t ∧
      ∃ job, validateImage (gapTester.settingFor gapModels) noFiles (shortBody "noob") = .ok job ∧
        ∀ drawn, ¬ Succeeds (prepareGraph (workerOf gapTester.site gapModels
          (gapTester.settingFor gapModels) noFiles lora_injection.ltxService)
          (ltxRow (shortBody "noob")) drawn) := by
  have hpassed : Passed gapTester gapModels (0 + 60) ("noob", 0) ⟨0, gapGraph, "p", [pngMagic]⟩ :=
    ⟨by norm_num, gapGraph_ok, by simp, by simp⟩
  have heligible : eligible gapModels = ["noob"] := by decide
  have hrounds : List.Forall₂ (Passed gapTester gapModels (0 + 60)) (eligible gapModels).zipIdx
      [⟨0, gapGraph, "p", [pngMagic]⟩] := by
    rw [heligible]
    exact .cons hpassed .nil
  have hrun := runRegistrySmokeTests_iff.mpr ⟨by simp [heligible], 0, _, rfl, hrounds⟩
  have hshown : (validateImage (gapTester.settingFor gapModels) noFiles
      (shortBody "noob")).toOption.map (fun job => (job.model.name, job.model.workflowPath)) =
        some ("noob", "w.json") := by decide +kernel
  have hnode : (loadWorkflow gapTester.site.py gapTester.site.files gapTester.site.cwd
      "w.json").toOption.map (fun g => (latentNode g, (inputsAt g "5").isDict)) =
        some (some "5", false) := by decide +kernel
  refine ⟨_, hrun, ?_⟩
  rcases hjob : validateImage (gapTester.settingFor gapModels) noFiles (shortBody "noob") with
    e | job
  · rw [hjob] at hshown
    cases hshown
  rw [hjob] at hshown
  obtain ⟨hname, hpath⟩ : job.model.name = "noob" ∧ job.model.workflowPath = "w.json" := by
    simpa [Except.toOption] using hshown
  refine ⟨job, rfl, fun drawn hprepares => ?_⟩
  obtain ⟨g, htemplate, hiff⟩ := (a_passed_start_prepares_images hrun).2
    (gapTester.settingFor gapModels) noFiles lora_injection.ltxService _ job
    (ltxRow (shortBody "noob")) rfl hjob (by rw [hname, heligible]; decide) rfl
  rw [hpath, Template] at htemplate
  rw [htemplate] at hnode
  obtain ⟨hfive, hdict⟩ : latentNode g = some "5" ∧ (inputsAt g "5").isDict = false := by
    simpa [Except.toOption] using hnode
  have hlatent := ((hiff drawn).mp hprepares).1 "5" hfive
  rw [hdict] at hlatent
  cases hlatent

end image_gen.smoke_tests

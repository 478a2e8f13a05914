-- What the worker relies on without checking it again: the sizes, counts, names,
-- LoRA files and VRAM of a request that was accepted.
import ImageGen.Results
import ImageGen.Validation

namespace image_gen.request_limits

open image_gen.file_tree image_gen.json image_gen.py_str image_gen.request_models
  image_gen.results image_gen.validation
open image_gen.injectors (toInt)
open image_gen.lora_files hiding resolveAndValidate resolveAndValidateVideo
open image_gen.requests (Family ModelConfig Rejection ResolvedLoraRef VideoTask)

variable {s : Setting} {t : LoraTree}

/-! ## Comparisons -/

/-- Some digit is not a zero. -/
def NotZero (str : PyStr) (digits : List Char) : Prop := ∃ c ∈ digits, str.decimal c ≠ some 0

/-- Neither half of the size is a row of zeros. -/
def NonZeroSize (str : PyStr) (size : String) : Prop :=
  ∃ w h, halves size.toList = some (w, h) ∧ NotZero str w ∧ NotZero str h

theorem choose_ok {s : Setting} {what name : String} {family : Family} {allowed : List String}
    {value : Json} (h : choose s what family allowed value = .ok name) : name ∈ allowed := by
  unfold choose at h
  cases value with
  | str text =>
    dsimp only at h
    split_ifs at h with hmem
    cases h
    exact hmem
  | _ => cases h

/-- A number, and at least 1. -/
def AtLeastOneStep (steps : Json) : Prop := ∃ x, numberOf steps = some x ∧ x.ge (.finite 1) = true

/-- What the checks leave open: zeros for a size, a default of the registry for the
steps, and a budget that is no number. -/
structure Fit (s : Setting) (size : String) (steps : Json) : Prop where
  size : NonZeroSize s.py.str size
  steps : AtLeastOneStep steps
  budget : vramBudget s ≠ .nan

/-- What the checks saw of an image that was accepted. -/
structure ImageChecked (s : Setting) (t : LoraTree) (req : GenerateRequest s.toContext)
    (job : ValidatedJob) : Prop where
  model : s.registry req.model = some job.model
  size : checkSize s job.model 1048576 req.size = .ok (job.width, job.height)
  n : job.n = req.n ∧ ∃ u, checkN s job.model req.n = .ok u
  steps : job.steps = stepsOr req.steps (defaultOf job.model "steps" (.int 28)) ∧
    ∃ u, checkSteps s job.model job.steps = .ok u
  sampler : job.sampler ∈ allowedSamplers job.model.family
  scheduler : job.scheduler ∈ allowedSchedulers job.model.family
  loras : resolveLorasForJob t s.lorasRoot req.loras = .ok job.loras
  vram : ∃ details u, checkVram s job.model job.loras details = .ok u

theorem getModel_ok {v : Validator} {name : String} {model : ModelConfig}
    (h : getModel v name = .ok model) : v.registry name = some model := by
  unfold getModel at h
  split at h
  · next heq =>
    cases h
    exact heq
  · cases h

theorem resolveAndValidate_checked {req : GenerateRequest s.toContext} {job : ValidatedJob}
    (h : resolveAndValidate s t req = .ok job) : ImageChecked s t req job := by
  unfold resolveAndValidate at h
  obtain ⟨model, hmodel, h⟩ := bind_ok h
  obtain ⟨sampler, hsampler, h⟩ := bind_ok h
  obtain ⟨scheduler, hscheduler, h⟩ := bind_ok h
  obtain ⟨⟨width, height⟩, hsize, h⟩ := bind_ok h
  obtain ⟨u, hn, h⟩ := bind_ok h
  obtain ⟨u', hsteps, h⟩ := bind_ok h
  obtain ⟨-, -, h⟩ := bind_ok h
  obtain ⟨⟨url, headers⟩, -, h⟩ := bind_ok h
  obtain ⟨loras, hloras, h⟩ := bind_ok h
  obtain ⟨v, hvram, h⟩ := bind_ok h
  obtain ⟨image, -, h⟩ := bind_ok h
  cases h
  exact ⟨getModel_ok hmodel, hsize, ⟨rfl, u, hn⟩, ⟨rfl, u', hsteps⟩, choose_ok hsampler,
    choose_ok hscheduler, hloras, _, v, hvram⟩

/-- What the checks saw of a video that was accepted. -/
structure VideoChecked (s : Setting) (t : LoraTree) (req : VideoGenerateRequest s.toContext)
    (job : ValidatedVideoJob) : Prop where
  model : s.registry req.model = some job.model
  frames : resolveFrames s job.model req.frames = .ok job.frames
  steps : videoSteps s job.model req.steps = .ok job.steps ∧
    ∃ u, checkSteps s job.model (.int job.steps) = .ok u
  size : checkSize s job.model (1920 * 1080) req.size = .ok (job.width, job.height)
  family : job.model.family = .wan22 ∨ job.model.family = .ltxv
  loras : ∃ user defaults, resolveLorasForJob t s.lorasRoot req.loras = .ok user ∧
    resolveDefaultLorasForModel t s.lorasRoot job.model.defaultLoras = .ok defaults ∧
    job.loras = defaults ++ user
  vram : ∃ details u, checkVram s job.model job.loras details = .ok u

theorem checkVideoModel_family {model : ModelConfig} {name : String} {task : VideoTask} {u : Unit}
    (h : checkVideoModel s model name task = .ok u) :
    model.family = .wan22 ∨ model.family = .ltxv := by
  obtain ⟨-, -, h⟩ := bind_ok h
  obtain ⟨-, -, h⟩ := bind_ok h
  have hfamily := refuseIf_ok h
  by_contra hne
  rw [not_or] at hne
  exact hfamily hne

theorem resolveAndValidateVideo_checked {task : VideoTask}
    {req : VideoGenerateRequest s.toContext} {job : ValidatedVideoJob}
    (h : resolveAndValidateVideo s t task req = .ok job) : VideoChecked s t req job := by
  unfold resolveAndValidateVideo at h
  obtain ⟨model, hmodel, h⟩ := bind_ok h
  obtain ⟨w, htask, h⟩ := bind_ok h
  obtain ⟨frames, hframes, h⟩ := bind_ok h
  obtain ⟨steps, hsteps, h⟩ := bind_ok h
  obtain ⟨u, hcheck, h⟩ := bind_ok h
  obtain ⟨cfg, -, h⟩ := bind_ok h
  obtain ⟨shift, -, h⟩ := bind_ok h
  obtain ⟨scheduler, -, h⟩ := bind_ok h
  obtain ⟨⟨width, height⟩, hsize, h⟩ := bind_ok h
  obtain ⟨-, -, h⟩ := bind_ok h
  obtain ⟨⟨url, headers⟩, -, h⟩ := bind_ok h
  obtain ⟨image, -, h⟩ := bind_ok h
  obtain ⟨-, -, h⟩ := bind_ok h
  obtain ⟨user, huser, h⟩ := bind_ok h
  obtain ⟨defaults, hdefaults, h⟩ := bind_ok h
  obtain ⟨-, -, h⟩ := bind_ok h
  obtain ⟨v, hvram, h⟩ := bind_ok h
  obtain ⟨path, -, h⟩ := bind_ok h
  cases h
  exact ⟨getModel_ok hmodel, hframes, ⟨hsteps, u, hcheck⟩, hsize, checkVideoModel_family htask,
    ⟨user, defaults, huser, hdefaults, rfl⟩, _, v, hvram⟩

/-- The condition on a body and on the entry of its model. -/
def ImageFit (s : Setting) (raw : Json) : Prop :=
  ∃ req model, GenerateRequest.ofJson s.toContext raw = some req ∧
    s.registry req.model = some model ∧ NonZeroSize s.py.str req.size ∧
    (req.steps = none → AtLeastOneStep (defaultOf model "steps" (.int 28))) ∧
    vramBudget s ≠ .nan

/-- A registry with a model for images and one for videos, which keep to the defaults. -/
def smallSetting : Setting where
  registry name :=
    if name = "noob" then
      some { name := "noob", workflowPath := "w.json", checkpoint := "c", vramEstimateGb := 7 }
    else if name = "wan" then
      some { name := "wan", workflowPath := "v.json", checkpoint := "u", vramEstimateGb := 10,
             family := .wan22,
             capabilities := [("video_gen", .bool true), ("video_task", .str "t2v")] }
    else none
  lorasRoot := ["loras"]
  float
    | .float x => some x
    | _ => none
  py := graph.asciiBuiltins
  int
    | .int i => some i
    | _ => none
  bool
    | .bool b => some b
    | _ => none
  lower_decimal := py_str.ascii_lower_decimal
  asyncModeEnabled := false
  vramBudgetGb := none
  withOverhead estimate count := .finite (estimate + 8 / 125 * count)
  withOverhead_number _ _ := nofun
  format _ := ""
  urlparse _ := .error ""
  b64decode _ := none

def noFiles : LoraTree := ⟨[], .nil, nofun, nofun⟩

/-- A body that names a model and leaves the rest to the defaults. -/
def shortBody (model : String) : Json := .obj [("model", .str model), ("prompt", .str "a cat")]

end image_gen.request_limits

-- Validation against the registry (`app/validation.py`): the defaults of a model
-- are merged into a request, and its limits, the LoRA files, the VRAM budget, the
-- webhook and the initial image are checked, in the order of the source.
import ImageGen.Injectors
import ImageGen.RequestModels
import ImageGen.Results

namespace image_gen.validation

open image_gen.json image_gen.job_store image_gen.lora_files image_gen.py_str
  image_gen.request_models image_gen.requests
open image_gen.injectors (toInt toFloat given)
open image_gen.results (refuseIf)

/-- The rest of what a validation depends on. -/
structure Setting extends Context where
  asyncModeEnabled : Bool
  /-- `VRAM_BUDGET_GB` of the environment. -/
  vramBudgetGb : Option String
  /-- `float(vram_estimate_gb) + _LORA_VRAM_OVERHEAD_GB * count`, in floats. -/
  withOverhead : ℚ → Nat → PyFloat
  withOverhead_number : ∀ estimate count, withOverhead estimate count ≠ .nan
  /-- The format `.3f`. -/
  format : PyFloat → String
  /-- An error is a `ValueError`. -/
  urlparse : String → Except String ParseResult
  /-- `base64.b64decode` with `validate=True`. -/
  b64decode : String → Option Bytes

def invalid (message : String) : Rejection := .failure "validation_error" message

def ofGraphError : GraphError → Rejection
  | .workflow message => .other "WorkflowValidationError" message
  | .other kind message => .other kind message

/-! ## Defaults and limits -/

section Model

variable (s : Setting)

/-- `defaults.get(key, default)`. -/
def defaultOf (model : ModelConfig) (key : String) (default : Json) : Json :=
  (model.defaults.lookup key).getD default

/-- `int(limits.get(key, default))`. -/
def limitOf (model : ModelConfig) (key : String) (default : Int) : Except Rejection Int :=
  (toInt s.py ((model.limits.lookup key).getD (.int default))).mapError ofGraphError

/-- A value that Python compares as a number. -/
def numberOf : Json → Option PyFloat
  | .bool b => some (.finite (if b then 1 else 0))
  | .int i => some (.finite i)
  | .float x => some x
  | _ => none

/-- `value > bound`. -/
def exceeds (value : Json) (bound : Int) : Except Rejection Bool :=
  match numberOf value with
  | some x => .ok (x.gt (.finite bound))
  | none => .error (.other "TypeError" ("'>' not supported between instances of '" ++
      typeName value ++ "' and 'int'"))

/-- The check of the steps that both functions make. -/
def checkSteps (model : ModelConfig) (steps : Json) : Except Rejection Unit := do
  let stepsMax ← limitOf s model "steps_max" 50
  let exceeded ← exceeds steps stepsMax
  refuseIf (exceeded = true) (invalid ("steps=" ++ s.py.repr steps ++
    " exceeds model.limits.steps_max=" ++ toString stepsMax))

end Model

/-! ## Samplers and schedulers -/

def familyText : Family → String
  | .sdxl => "sdxl"
  | .flux => "flux"
  | .qwen => "qwen"
  | .wan22 => "wan22"
  | .ltxv => "ltxv"

def allowedSamplers : Family → List String
  | .flux => ["euler", "euler_ancestral", "dpmpp_2m", "dpmpp_2m_sde"]
  | .qwen => ["euler", "euler_ancestral", "dpmpp_2m", "dpmpp_2m_sde"]
  | _ => ["euler", "euler_ancestral", "heun", "dpm_2", "dpm_2_ancestral", "lms",
      "dpmpp_2s_ancestral", "dpmpp_sde", "dpmpp_2m", "dpmpp_2m_sde", "dpmpp_3m_sde", "ddim",
      "uni_pc"]

def allowedSchedulers : Family → List String
  | .flux => ["simple", "karras", "normal"]
  | .qwen => ["simple", "karras", "normal"]
  | _ => ["normal", "karras", "exponential", "sgm_uniform", "simple", "ddim_uniform"]

/-- `value not in allowed`, where `value` may be anything that a YAML default is. -/
def choose (s : Setting) (what : String) (family : Family) (allowed : List String)
    (value : Json) : Except Rejection String :=
  let refusal := invalid (what ++ " " ++ s.py.repr value ++ " not in allowed set for family=" ++
    pyRepr (familyText family) ++ ": " ++ s.py.repr (.arr ((allowed.mergeSort).map .str)))
  match value with
  | .str name => if name ∈ allowed then .ok name else .error refusal
  | .arr _ => .error (.other "TypeError" "unhashable type: 'list'")
  | .obj _ => .error (.other "TypeError" "unhashable type: 'dict'")
  | _ => .error refusal

/-! ## The size -/

/-- `_parse_size`, for a text whose halves are digits. -/
def parseSize (str : PyStr) (size : String) : Option (Nat × Nat) :=
  match halves (str.lower size.toList) with
  | some (w, h) => if Digits str w ∧ Digits str h then some (str.int w, str.int h) else none
  | none => none

def checkSize (s : Setting) (model : ModelConfig) (maxPixels : Int) (size : String) :
    Except Rejection (Nat × Nat) :=
  match parseSize s.py.str size with
  | none => .error (invalid ("size " ++ pyRepr size ++ " malformed"))
  | some (width, height) => do
    let sizeMaxPixels ← limitOf s model "size_max_pixels" maxPixels
    refuseIf (sizeMaxPixels < ((width * height : Nat) : Int)) (invalid ("size " ++
      toString width ++ "x" ++ toString height ++ "=" ++ toString (width * height) ++
      "px exceeds model.limits.size_max_pixels=" ++ toString sizeMaxPixels))
    return (width, height)

/-! ## The webhook -/

def reservedWebhookHeaders : List String := ["host", "authorization", "content-type", "user-agent"]

def headerKeyChar (c : Char) : Bool := c.isAlphanum || c = '-' || c = '_'

/-- `_WEBHOOK_HEADER_KEY_RE.match`, whose `$` also stands before a line feed at the end. -/
def MatchesHeaderKey (key : String) : Prop :=
  let chars := if key.toList.getLast? = some '\n' then key.toList.dropLast else key.toList
  1 ≤ chars.length ∧ chars.length ≤ 64 ∧ ∀ c ∈ chars, headerKeyChar c = true

instance : DecidablePred MatchesHeaderKey := fun key => by
  unfold MatchesHeaderKey
  infer_instance

def checkHeader (s : Setting) (f : String × String) : Except Rejection Unit := do
  let lowered := String.ofList (s.py.str.lower f.1.toList)
  let key := "webhook.headers key " ++ pyRepr f.1
  refuseIf (lowered ∈ reservedWebhookHeaders ∨ "x-imagegen-".toList <+: lowered.toList)
    (invalid (key ++ " is reserved"))
  refuseIf (¬ MatchesHeaderKey f.1) (invalid (key ++ " has invalid characters"))
  refuseIf (256 < f.2.length)
    (invalid ("webhook.headers key/value length invalid for " ++ pyRepr f.1))

/-- The URL and the headers of the job. -/
def checkWebhook (s : Setting) :
    Option WebhookSpec → Except Rejection (Option String × Option (List (String × String)))
  | none => .ok (none, none)
  | some webhook => do
    let parsed ← (s.urlparse webhook.url).mapError fun m => Rejection.other "ValueError" m
    refuseIf (parsed.scheme ∉ ["http", "https"]) (invalid "webhook.url must use http or https")
    refuseIf (given parsed.hostname = none) (invalid "webhook.url must include a host")
    let _ ← webhook.headers.mapM (checkHeader s)
    return (some webhook.url, if webhook.headers = [] then none else some webhook.headers)

/-! ## The initial image -/

/-- What follows the first comma of a data URI. -/
def stripDataUri (text : String) : String :=
  if "data:image".toList <+: text.toList then
    match text.toList.dropWhile (· ≠ ',') with
    | _ :: rest => String.ofList rest
    | [] => text
  else text

def decodeInitImage (s : Setting) (initImage : Option String) :
    Except Rejection (Option Bytes) :=
  match given initImage with
  | none => .ok none
  | some text =>
    match s.b64decode (stripDataUri text) with
    | some bytes => .ok (some bytes)
    | none => .error (invalid "init_image must be a valid base64 string")

/-! ## Modes and VRAM -/

def checkMode (s : Setting) (mode : JobMode) : Except Rejection Unit :=
  refuseIf (mode = .async ∧ s.asyncModeEnabled = false)
    (.failure "async_not_enabled" "mode=async requires ASYNC_MODE_ENABLED=true")

/-- `_vram_budget_gb`. -/
def vramBudget (s : Setting) : PyFloat :=
  match s.vramBudgetGb with
  | none => .finite 12
  | some raw => (s.py.parseFloat raw).getD (.finite 12)

def vramNeeded (s : Setting) (model : ModelConfig) (loras : List ResolvedLoraRef) : PyFloat :=
  s.withOverhead model.vramEstimateGb loras.length

/-- `details` is the end of the message. -/
def checkVram (s : Setting) (model : ModelConfig) (loras : List ResolvedLoraRef)
    (details : String) : Except Rejection Unit :=
  let needed := vramNeeded s model loras
  refuseIf (needed.gt (vramBudget s) = true)
    (.failure "vram_budget_exceeded" ("estimated vram " ++ s.format needed ++
      " GB exceeds budget " ++ s.format (vramBudget s) ++ " GB (" ++ details ++ ")"))

/-! ## Images -/

/-- The job with all its fields. A default of the registry may be any value, so the
steps and the negative prompt are what the YAML gave. -/
structure ValidatedJob where
  model : ModelConfig
  prompt : String
  negativePrompt : Json
  size : String
  width : Nat
  height : Nat
  n : Int
  steps : Json
  cfg : PyFloat
  seed : Int
  sampler : String
  scheduler : String
  responseFormat : ResponseFormat
  transparentBackground : Bool
  mode : JobMode
  timeoutS : Option PyFloat
  webhookUrl : Option String
  webhookHeaders : Option (List (String × String))
  loras : List ResolvedLoraRef
  initImageBytes : Option Bytes

def orDefault (given : Option String) (default : Json) : Json := (given.map Json.str).getD default

/-- `req.steps`, or the default of the model. -/
def stepsOr (steps : Option AtLeastOne) (default : Json) : Json :=
  (steps.map fun s => Json.int s.val).getD default

def checkN (s : Setting) (model : ModelConfig) (n : Int) : Except Rejection Unit := do
  let nMax ← limitOf s model "n_max" 1
  refuseIf (nMax < n)
    (invalid ("n=" ++ toString n ++ " exceeds model.limits.n_max=" ++ toString nMax))

def resolveAndValidate (s : Setting) (t : LoraTree) (req : GenerateRequest s.toContext) :
    Except Rejection ValidatedJob := do
  let model ← getModel s.toValidator req.model
  let steps := stepsOr req.steps (defaultOf model "steps" (.int 28))
  let sampler ← choose s "sampler" model.family (allowedSamplers model.family)
    (orDefault req.sampler (defaultOf model "sampler" (.str "euler_ancestral")))
  let scheduler ← choose s "scheduler" model.family (allowedSchedulers model.family)
    (orDefault req.scheduler (defaultOf model "scheduler" (.str "karras")))
  let (width, height) ← checkSize s model 1048576 req.size
  checkN s model req.n
  checkSteps s model steps
  checkMode s req.mode
  let (webhookUrl, webhookHeaders) ← checkWebhook s req.webhook
  let loras ← resolveLorasForJob t s.lorasRoot req.loras
  checkVram s model loras ("model=" ++ s.format (.finite model.vramEstimateGb) ++ " + loras=" ++
    toString loras.length ++ "*0.064")
  let initImageBytes ← decodeInitImage s req.initImage
  return {
    model := model
    prompt := req.prompt
    negativePrompt := orDefault req.negativePrompt (defaultOf model "negative_prompt" (.str ""))
    size := req.size
    width := width
    height := height
    n := req.n
    steps := steps
    cfg := req.cfg
    seed := req.seed
    sampler := sampler
    scheduler := scheduler
    responseFormat := req.responseFormat
    transparentBackground := req.transparentBackground
    mode := req.mode
    timeoutS := req.timeoutS
    webhookUrl := webhookUrl
    webhookHeaders := webhookHeaders
    loras := loras
    initImageBytes := initImageBytes }

/-! ## Videos -/

structure ValidatedVideoJob where
  model : ModelConfig
  prompt : String
  negativePrompt : String
  size : String
  width : Nat
  height : Nat
  frames : Int
  fps : PyFloat
  steps : Int
  cfg : PyFloat
  shift : PyFloat
  seed : Int
  scheduler : String
  riflexFreqIndex : Int
  forceOffload : Bool
  generateAudio : Bool
  resolvedWorkflowPath : String
  responseFormat : ResponseFormat
  mode : JobMode
  timeoutS : Option PyFloat
  webhookUrl : Option String
  webhookHeaders : Option (List (String × String))
  initImageBytes : Option Bytes
  loras : List ResolvedLoraRef
  wanAdvanced : Option Json

def normalizeWanNumFrames (raw : Int) : Int :=
  if raw < 5 then 5
  else
    let rem := (raw - 1) % 4
    if rem = 0 then raw else raw + (4 - rem)

def normalizeLtxvNumFrames (raw : Int) : Int :=
  if raw < 9 then 9
  else
    let rem := (raw - 1) % 8
    if rem = 0 then raw else raw + (8 - rem)

/-- The cap is for the number that was asked for. -/
def resolveFrames (s : Setting) (model : ModelConfig) (raw : Int) : Except Rejection Int := do
  let framesCap ← limitOf s model "frames_max" 241
  refuseIf (framesCap < raw) (invalid ("frames=" ++ toString raw ++
    " exceeds model.limits.frames_max=" ++ toString framesCap))
  return if model.family = .ltxv then normalizeLtxvNumFrames raw else normalizeWanNumFrames raw

def checkVideoModel (s : Setting) (model : ModelConfig) (name : String) (expectedTask : VideoTask) :
    Except Rejection Unit := do
  let regTask := Json.get model.capabilities "video_task"
  refuseIf ((Json.get model.capabilities "video_gen").truthy = false)
    (invalid ("model " ++ pyRepr name ++ " does not support video_gen"))
  refuseIf (text regTask ≠ some expectedTask.text)
    (invalid ("model " ++ pyRepr name ++ " is registered as video_task=" ++ s.py.repr regTask ++
      ", but this endpoint expects " ++ pyRepr expectedTask.text))
  refuseIf (model.family ≠ .wan22 ∧ model.family ≠ .ltxv)
    (invalid ("video pipeline supports family wan22/ltxv, got " ++
      pyRepr (familyText model.family)))

/-- `str(value)`. -/
def strOf (s : Setting) : Json → String
  | .str text => text
  | value => s.py.repr value

def floatOr (s : Setting) (given : Option PyFloat) (default : Json) : Except Rejection PyFloat :=
  match given with
  | some x => .ok x
  | none => (toFloat s.py default).mapError ofGraphError

def videoSteps (s : Setting) (model : ModelConfig) :
    Option AtLeastOne → Except Rejection Int
  | some steps => .ok steps
  | none => (toInt s.py (defaultOf model "steps" (.int 30))).mapError ofGraphError

def wanSchedulerChar (c : Char) : Bool :=
  c.isAlphanum || c = '_' || c = '.' || c = '+' || c = '-'

def checkScheduler (s : Setting) (model : ModelConfig) (given : Option String) :
    Except Rejection String := do
  let raw := given.getD (strOf s (defaultOf model "scheduler" (.str "simple")))
  let scheduler := graph.strip raw.toList
  refuseIf (¬ (1 ≤ scheduler.length ∧ scheduler.length ≤ 64 ∧
      ∀ c ∈ scheduler, wanSchedulerChar c = true))
    (invalid ("scheduler " ++ pyRepr (String.ofList scheduler) ++
      " has invalid characters or length"))
  return String.ofList scheduler

/-- Whether the task takes the image. -/
def checkInitImage (model : ModelConfig) (task : VideoTask) (initImageBytes : Option Bytes) :
    Except Rejection Unit := do
  refuseIf (task = .i2v ∧ worker.nonEmpty initImageBytes = none)
    (invalid "image-to-video requires init_image")
  refuseIf (task = .t2v ∧ worker.nonEmpty initImageBytes ≠ none ∧ model.family ≠ .ltxv)
    (invalid "text-to-video does not accept init_image")

def sectionOf (wanAdvanced : Option Json) (key : String) : Json :=
  match wanAdvanced with
  | some (.obj parts) => Json.get parts key
  | _ => .null

/-- A section that is given is an object with all its options, so not empty. -/
def checkWanAdvanced (task : VideoTask) (wanAdvanced : Option Json) : Except Rejection Unit :=
  refuseIf (task = .t2v ∧ ((sectionOf wanAdvanced "encode").truthy = true ∨
      (sectionOf wanAdvanced "clip_encode").truthy = true))
    (invalid ("wan_advanced.encode and wan_advanced.clip_encode apply to " ++
      "image-to-video only"))

def resolveWorkflow (model : ModelConfig) (name : String) (generateAudio : Bool) :
    Except Rejection String :=
  if generateAudio then
    match given model.workflowWithAudio with
    | some path => .ok path
    | none => .error (invalid ("generate_audio=true requires model " ++ pyRepr name ++
        " to define workflow_with_audio and mmaudio_* assets in registry"))
  else .ok model.workflowPath

def resolveAndValidateVideo (s : Setting) (t : LoraTree) (expectedTask : VideoTask)
    (req : VideoGenerateRequest s.toContext) : Except Rejection ValidatedVideoJob := do
  let model ← getModel s.toValidator req.model
  checkVideoModel s model req.model expectedTask
  let frames ← resolveFrames s model req.frames
  let steps ← videoSteps s model req.steps
  checkSteps s model (.int steps)
  let cfg ← floatOr s req.cfg (defaultOf model "cfg" (.float (.finite 6)))
  let shift ← floatOr s req.shift (defaultOf model "shift" (.float (.finite 8)))
  let scheduler ← checkScheduler s model req.scheduler
  let (width, height) ← checkSize s model (1920 * 1080) req.size
  checkMode s req.mode
  let (webhookUrl, webhookHeaders) ← checkWebhook s req.webhook
  let initImageBytes ← decodeInitImage s req.initImage
  checkInitImage model expectedTask initImageBytes
  let userLoras ← resolveLorasForJob t s.lorasRoot req.loras
  let defaultResolved ← resolveDefaultLorasForModel t s.lorasRoot model.defaultLoras
  let loras := defaultResolved ++ userLoras
  checkWanAdvanced expectedTask req.wanAdvanced
  checkVram s model loras ("model=" ++ s.format (.finite model.vramEstimateGb))
  let resolvedWorkflowPath ← resolveWorkflow model req.model req.generateAudio
  return {
    model := model
    prompt := req.prompt
    negativePrompt := req.negativePrompt.getD (strOf s (defaultOf model "negative_prompt" (.str "")))
    size := req.size
    width := width
    height := height
    frames := frames
    fps := req.fps
    steps := steps
    cfg := cfg
    shift := shift
    seed := req.seed
    scheduler := scheduler
    riflexFreqIndex := req.riflexFreqIndex
    forceOffload := req.forceOffload
    generateAudio := req.generateAudio
    resolvedWorkflowPath := resolvedWorkflowPath
    responseFormat := req.responseFormat
    mode := req.mode
    timeoutS := req.timeoutS
    webhookUrl := webhookUrl
    webhookHeaders := webhookHeaders
    initImageBytes := initImageBytes
    loras := loras
    wanAdvanced := req.wanAdvanced }

/-! ## A body -/

/-- Pydantic, then the registry. -/
def validateImage (s : Setting) (t : LoraTree) (raw : Json) : Except Rejection ValidatedJob :=
  match GenerateRequest.ofJson s.toContext raw with
  | some req => resolveAndValidate s t req
  | none => .error (.pydantic "invalid body")

def validateVideo (s : Setting) (t : LoraTree) (task : VideoTask) (raw : Json) :
    Except Rejection ValidatedVideoJob :=
  match VideoGenerateRequest.ofJson s.toContext raw with
  | some req => resolveAndValidateVideo s t task req
  | none => .error (.pydantic "invalid body")

/-- What the handlers hand to `create_queued`. -/
def submit (s : Setting) (t : LoraTree) (artifact : Artifact) (raw : Json) :
    Except Rejection Submission :=
  match artifact with
  | .image =>
    match GenerateRequest.ofJson s.toContext raw with
    | some req => (resolveAndValidate s t req).map fun job =>
      ⟨.image, req.model, raw, req.mode, job.webhookUrl, job.webhookHeaders⟩
    | none => .error (.pydantic "invalid body")
  | .video task =>
    match VideoGenerateRequest.ofJson s.toContext raw with
    | some req => (resolveAndValidateVideo s t task req).map fun job =>
      ⟨.video task, req.model, raw, req.mode, job.webhookUrl, job.webhookHeaders⟩
    | none => .error (.pydantic "invalid body")

end image_gen.validation

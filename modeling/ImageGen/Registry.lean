-- The registry of models (`app/registry/models.py`): the entries of the YAML are checked
-- against the files on disk and against the workflows that they name.
import ImageGen.Results
import ImageGen.Validation

namespace image_gen.registry

open image_gen.file_tree image_gen.graph image_gen.json image_gen.requests
open image_gen.injectors (given)
open image_gen.lora_files (joinPath)
open image_gen.request_models (text)
open image_gen.results (refuseIf)
open image_gen.validation (allowedSamplers allowedSchedulers familyText)

inductive LoadError
  /-- `RegistryValidationError`. -/
  | invalid (stage reason : String)
  | other (kind message : String)

/-- What `load_registry` is called with, and the files that it looks at. -/
structure Site where
  py : Builtins
  cwd : Path
  modelsRoot : String
  workflowsRoot : String
  vramBudgetGb : PyFloat
  files : Path → WorkflowFile
  pathExists : Path → Bool
  isFile : Path → Bool
  /-- `repr` of a frozenset of texts. -/
  showSet : List String → String
  showFloat : PyFloat → String

/-- `root / path`, as a text. -/
def under (root path : String) : String :=
  if path.toList.head? = some '/' then path else root ++ "/" ++ path

namespace Site

def asset (site : Site) (path : String) : String := under site.modelsRoot path

def workflow (site : Site) (path : String) : String := under site.workflowsRoot path

def locate (site : Site) (path : String) : Path := joinPath site.cwd path

end Site

/-- An entry of the YAML. Where a key is missing its value is none, or null where
any value passes the checks. -/
structure Entry where
  name : String
  backend : Option Json := none
  workflow : String
  checkpoint : String
  vae : Option String := none
  clipL : Option String := none
  t5xxl : Option String := none
  dualClipType : Json := .null
  clipLoaderType : Json := .null
  family : Option Json := none
  vramEstimateGb : ℚ
  prediction : Option Json := none
  capabilities : List (String × Json) := []
  defaults : List (String × Json) := []
  limits : List (String × Json) := []
  wanT5Encoder : Option String := none
  wanClipVision : Option String := none
  wanUnetLow : Option String := none
  skipAssetValidation : Bool := false
  defaultLoras : List (String × PyFloat) := []
  workflowWithAudio : Option String := none
  mmaudioVae : Json := .null
  mmaudioSynchformer : Json := .null
  mmaudioClip : Json := .null
  mmaudioDiffusion : Json := .null
  ltxvTextEncoder : Option String := none

/-- `_parse_entry`, with the two enumerations read. -/
def parseEntry (raw : Entry) (family : Family) (prediction : Prediction) : ModelConfig where
  name := raw.name
  workflowPath := raw.workflow
  checkpoint := raw.checkpoint
  vae := raw.vae
  vramEstimateGb := raw.vramEstimateGb
  clipL := raw.clipL
  t5xxl := raw.t5xxl
  dualClipType := raw.dualClipType
  clipLoaderType := raw.clipLoaderType
  family := family
  prediction := prediction
  capabilities := raw.capabilities
  defaults := raw.defaults
  limits := raw.limits
  wanT5Encoder := raw.wanT5Encoder
  wanClipVision := raw.wanClipVision
  wanUnetLow := raw.wanUnetLow
  defaultLoras := raw.defaultLoras
  workflowWithAudio := raw.workflowWithAudio
  mmaudioVae := raw.mmaudioVae
  mmaudioSynchformer := raw.mmaudioSynchformer
  mmaudioClip := raw.mmaudioClip
  mmaudioDiffusion := raw.mmaudioDiffusion
  ltxvTextEncoder := raw.ltxvTextEncoder

/-! ## Checks on the entry -/

/-- `if p: raise RegistryValidationError(..)`. -/
def refuse (p : Prop) [Decidable p] (stage reason : String) : Except LoadError Unit :=
  refuseIf p (.invalid stage reason)

/-- What the value of an enumeration stands for. A frozenset hashes what it looks for. -/
def member {α : Type} (values : List (String × α)) (refusal : LoadError) :
    Json → Except LoadError α
  | .str s =>
    match values.lookup s with
    | some a => .ok a
    | none => .error refusal
  | .arr _ => .error (.other "TypeError" "unhashable type: 'list'")
  | .obj _ => .error (.other "TypeError" "unhashable type: 'dict'")
  | _ => .error refusal

def allowedFamilies : List (String × Family) :=
  [("sdxl", .sdxl), ("flux", .flux), ("qwen", .qwen), ("wan22", .wan22), ("ltxv", .ltxv)]

def allowedPredictions : List (String × Prediction) := [("eps", .eps), ("vpred", .vpred)]

def isVideo : Family → Bool
  | .wan22 => true
  | .ltxv => true
  | _ => false

/-- The check of a default sampler or scheduler. -/
def checkDefault (site : Site) (cfg : ModelConfig) (stage key : String) (allowed : List String) :
    Except LoadError Unit :=
  if isVideo cfg.family then .ok ()
  else
    match Json.get cfg.defaults key with
    | .null => .ok ()
    | value => do
      let refusal := LoadError.invalid stage (cfg.name ++ ": defaults." ++ key ++ " " ++
        site.py.repr value ++ " not in allowed set for family=" ++
        lora_files.pyRepr (familyText cfg.family))
      let _ ← member (allowed.map fun s => (s, ())) refusal value
      return ()

def videoTask (cfg : ModelConfig) : Json := Json.get cfg.capabilities "video_task"

def checkTask (cfg : ModelConfig) (stage : String) : Except LoadError Unit :=
  refuse (text (videoTask cfg) ∉ [some "t2v", some "i2v"]) stage (cfg.name ++
    ": capabilities.video_task must be 't2v' or 'i2v' for family=" ++ familyText cfg.family)

def checkFamily (cfg : ModelConfig) : Except LoadError Unit :=
  match cfg.family with
  | .wan22 => do
    checkTask cfg "wan22_video_task"
    refuse (given cfg.wanT5Encoder = none) "wan22_t5_missing"
      (cfg.name ++ ": wan_t5_encoder is required for family=wan22")
    refuse (text (videoTask cfg) = some "i2v" ∧ given cfg.wanClipVision = none)
      "wan22_clip_missing" (cfg.name ++ ": wan_clip_vision is required for video_task=i2v")
    refuse (given cfg.vae = none) "wan22_vae_missing"
      (cfg.name ++ ": vae path is required for family=wan22")
  | .ltxv => do
    checkTask cfg "ltxv_video_task"
    refuse (given cfg.ltxvTextEncoder = none) "ltxv_text_encoder_missing"
      (cfg.name ++ ": ltxv_text_encoder is required for family=ltxv")
  | _ => .ok ()

/-! ## Checks on the files -/

/-- An asset that the entry names must exist, but for an entry that skips the check. -/
def checkAsset (site : Site) (skip : Bool) (cfg : ModelConfig) (stage : String)
    (path : Option String) : Except LoadError Unit :=
  match path with
  | none => .ok ()
  | some path =>
    refuse (skip = false ∧ site.pathExists (site.locate (site.asset path)) = false) stage
      (cfg.name ++ ": " ++ pathText (site.asset path) ++ " not found")

def checkAssets (site : Site) (skip : Bool) (cfg : ModelConfig) : Except LoadError Unit := do
  checkAsset site skip cfg "checkpoint_missing" (some cfg.checkpoint)
  checkAsset site skip cfg "vae_missing" cfg.vae
  checkAsset site skip cfg "clip_l_missing" cfg.clipL
  checkAsset site skip cfg "t5xxl_missing" cfg.t5xxl
  checkAsset site skip cfg "wan_t5_missing" cfg.wanT5Encoder
  checkAsset site skip cfg "wan_clip_missing" cfg.wanClipVision
  checkAsset site skip cfg "wan_unet_low_missing" cfg.wanUnetLow
  checkAsset site skip cfg "ltxv_te_missing" cfg.ltxvTextEncoder

/-- One asset that an audio workflow needs. -/
def checkMmaudio (site : Site) (skip : Bool) (cfg : ModelConfig) (field : String)
    (path : Json) : Except LoadError Unit := do
  refuse (path.truthy = false) "mmaudio_config_incomplete"
    (cfg.name ++ ": workflow_with_audio requires " ++ field)
  match path with
  | .str path => checkAsset site skip cfg "mmaudio_asset_missing" (some path)
  | path => .error (.other "TypeError"
      ("unsupported operand type(s) for /: 'PosixPath' and '" ++ typeName path ++ "'"))

def checkAudioAssets (site : Site) (skip : Bool) (cfg : ModelConfig) : Except LoadError Unit :=
  match cfg.workflowWithAudio with
  | none => .ok ()
  | some _ => do
    checkMmaudio site skip cfg "mmaudio_vae" cfg.mmaudioVae
    checkMmaudio site skip cfg "mmaudio_synchformer" cfg.mmaudioSynchformer
    checkMmaudio site skip cfg "mmaudio_clip" cfg.mmaudioClip
    checkMmaudio site skip cfg "mmaudio_diffusion" cfg.mmaudioDiffusion

/-- `except WorkflowValidationError`. -/
def wrap (cfg : ModelConfig) (stage : String) : GraphError → LoadError
  | .workflow message => .invalid stage (cfg.name ++ ": " ++ message)
  | .other kind message => .other kind message

/-- `str(vt)`. -/
def taskText (site : Site) (cfg : ModelConfig) : String :=
  match videoTask cfg with
  | .str task => task
  | value => site.py.repr value

def needLow (g : Graph) : Bool := (owner g "%WAN_MODEL_LOW%").isSome

/-- The anchors that the silent workflow of a family must have. -/
def requiredAnchors (site : Site) (cfg : ModelConfig) : Except GraphError (List String) :=
  match cfg.family with
  | .wan22 => requiredAnchorsForVideoTask (taskText site cfg)
  | .ltxv => requiredAnchorsForLtxvTask (taskText site cfg)
  | family => .ok (requiredAnchorsForFamily family)

def checkWorkflow (site : Site) (cfg : ModelConfig) : Except LoadError Graph := do
  let path := site.workflow cfg.workflowPath
  refuse (site.pathExists (site.locate path) = false) "workflow_missing"
    (cfg.name ++ ": " ++ pathText path ++ " not found")
  let g ← (loadWorkflow site.py site.files site.cwd path).mapError (wrap cfg "anchors_missing")
  let required ← (requiredAnchors site cfg).mapError (wrap cfg "anchors_missing")
  let _ ← (validateAnchors g required).mapError (wrap cfg "anchors_missing")
  refuse (cfg.family = .wan22 ∧ needLow g = true ∧ given cfg.wanUnetLow = none)
    "wan22_wan_unet_low_missing"
    (cfg.name ++ ": workflow has %WAN_MODEL_LOW% but wan_unet_low is not set")
  refuse (cfg.family = .wan22 ∧ given cfg.wanUnetLow ≠ none ∧ needLow g = false)
    "wan22_wan_unet_low_unused"
    (cfg.name ++ ": wan_unet_low is set but workflow has no %WAN_MODEL_LOW%")
  return g

/-- The audio workflow of any family is checked for the anchors of WAN. -/
def checkAudioWorkflow (site : Site) (cfg : ModelConfig) (silent : Graph) :
    Except LoadError Unit :=
  match given cfg.workflowWithAudio with
  | none => .ok ()
  | some audio => do
    let path := site.workflow audio
    refuse (site.isFile (site.locate path) = false) "workflow_audio_missing"
      (cfg.name ++ ": " ++ pathText path ++ " not found")
    let g ← (loadWorkflow site.py site.files site.cwd path).mapError
      (wrap cfg "anchors_audio_missing")
    let required ← (requiredAnchorsForWan22AudioTask (taskText site cfg)).mapError
      (wrap cfg "anchors_audio_missing")
    let _ ← (validateAnchors g required).mapError (wrap cfg "anchors_audio_missing")
    refuse (cfg.family = .wan22 ∧ needLow g ≠ needLow silent) "wan22_audio_low_mismatch"
      (cfg.name ++ ": audio workflow %WAN_MODEL_LOW% must match primary workflow")

/-! ## The registry -/

/-- One turn of the loop, after the entries so far. -/
def loadEntry (site : Site) (models : List ModelConfig) (raw : Entry) :
    Except LoadError ModelConfig := do
  refuse (raw.name ∈ models.map (·.name)) "duplicate_name"
    (raw.name ++ " appears multiple times in YAML")
  let backend := raw.backend.getD (.str "comfyui")
  let _ ← member [("comfyui", ())] (.invalid "unknown_backend" (raw.name ++ ": backend " ++
    site.py.repr backend ++ " not in " ++ site.showSet ["comfyui"])) backend
  let predictionValue := raw.prediction.getD (.str "eps")
  let prediction ← member allowedPredictions (.invalid "unknown_prediction" (raw.name ++
    ": prediction " ++ site.py.repr predictionValue ++ " not in " ++
    site.showSet (allowedPredictions.map (·.1)))) predictionValue
  let familyValue := raw.family.getD (.str "sdxl")
  let family ← member allowedFamilies (.invalid "unknown_family" (raw.name ++ ": family " ++
    site.py.repr familyValue ++ " not in " ++ site.showSet (allowedFamilies.map (·.1)))) familyValue
  refuse (prediction = .vpred) "vpred_deferred" (raw.name ++
    ": prediction='vpred' is deferred per arch v0.5. " ++
    "Implement inject_vpred and remove this guard before re-enabling.")
  let cfg := parseEntry raw family prediction
  checkDefault site cfg "unknown_sampler" "sampler" (allowedSamplers family)
  checkDefault site cfg "unknown_scheduler" "scheduler" (allowedSchedulers family)
  checkFamily cfg
  checkAssets site raw.skipAssetValidation cfg
  checkAudioAssets site raw.skipAssetValidation cfg
  let silent ← checkWorkflow site cfg
  checkAudioWorkflow site cfg silent
  refuse ((PyFloat.finite cfg.vramEstimateGb).gt site.vramBudgetGb = true) "vram_over_budget"
    (cfg.name ++ ": " ++ site.showFloat (.finite cfg.vramEstimateGb) ++ " GB > budget " ++
      site.showFloat site.vramBudgetGb ++ " GB")
  return cfg

/-- The loop over the entries. -/
def loadEntries (site : Site) : List ModelConfig → List Entry → Except LoadError (List ModelConfig)
  | models, [] => .ok models
  | models, raw :: rest => do
    let cfg ← loadEntry site models raw
    loadEntries site (models ++ [cfg]) rest

/-- What the path of the YAML leads to. -/
inductive YamlFile
  | missing (path : String)
  | invalid (message : String)
  | entries (models : List Entry)

def loadRegistry (site : Site) : YamlFile → Except LoadError (List ModelConfig)
  | .missing path => .error (.invalid "yaml_missing" path)
  | .invalid message => .error (.invalid "yaml_invalid" message)
  | .entries [] => .error (.invalid "empty_registry" "models.yaml has no entries")
  | .entries models => loadEntries site [] models

/-- `Registry.get`. -/
def get (models : List ModelConfig) (name : String) : Option ModelConfig :=
  models.find? fun cfg => cfg.name = name

end image_gen.registry

-- Requests after validation: the registry entry of the model and the job
-- with every field resolved, as the worker gets them.
import ImageGen.JobStore

namespace image_gen.requests

open image_gen.json image_gen.job_store

abbrev Bytes := List UInt8

inductive Family
  | sdxl
  | flux
  | qwen
  | wan22
  | ltxv
  deriving DecidableEq

inductive Prediction
  | eps
  | vpred
  deriving DecidableEq

/-- An entry of `config/models.yaml`. What `load_registry` never looks at may be any
value of the YAML. -/
structure ModelConfig where
  name : String
  workflowPath : String
  checkpoint : String
  vae : Option String := none
  vramEstimateGb : ℚ
  clipL : Option String := none
  t5xxl : Option String := none
  dualClipType : Json := .null
  clipLoaderType : Json := .null
  family : Family := .sdxl
  prediction : Prediction := .eps
  capabilities : List (String × Json) := []
  defaults : List (String × Json) := []
  limits : List (String × Json) := []
  wanT5Encoder : Option String := none
  wanClipVision : Option String := none
  wanUnetLow : Option String := none
  defaultLoras : List (String × PyFloat) := []
  workflowWithAudio : Option String := none
  mmaudioVae : Json := .null
  mmaudioSynchformer : Json := .null
  mmaudioClip : Json := .null
  mmaudioDiffusion : Json := .null
  ltxvTextEncoder : Option String := none

structure ResolvedLoraRef where
  name : String
  weight : PyFloat
  deriving DecidableEq

inductive ResponseFormat
  | url
  | b64Json
  deriving DecidableEq

inductive VideoTask
  | t2v
  | i2v
  deriving DecidableEq

/-- A default of the registry may be any value, so the steps and the negative prompt
are what the YAML gave. -/
structure ValidatedJob where
  model : ModelConfig
  prompt : String
  negativePrompt : Json
  width : Nat
  height : Nat
  n : Int
  steps : Json
  cfg : PyFloat
  seed : Int
  sampler : String
  scheduler : String
  responseFormat : ResponseFormat
  transparentBackground : Bool
  timeoutS : Option PyFloat
  loras : List ResolvedLoraRef
  initImageBytes : Option Bytes

structure ValidatedVideoJob where
  model : ModelConfig
  prompt : String
  negativePrompt : String
  width : Nat
  height : Nat
  frames : Nat
  fps : PyFloat
  steps : Int
  cfg : PyFloat
  shift : PyFloat
  seed : Int
  scheduler : String
  riflexFreqIndex : Int
  forceOffload : Bool
  generateAudio : Bool
  resolvedWorkflowPath : String
  responseFormat : ResponseFormat
  timeoutS : Option PyFloat
  initImageBytes : Option Bytes
  loras : List ResolvedLoraRef
  wanAdvanced : Option Json

/-- How validation ends without a job. -/
inductive Rejection
  /-- `ValidationFailureError`. -/
  | failure (errorCode message : String)
  /-- The `ValidationError` of Pydantic. -/
  | pydantic (message : String)
  | jsonDecode (message : String)
  | other (kind message : String)

/-- How the preparation of a graph ends without a graph. -/
inductive GraphError
  | workflow (message : String)
  | other (kind message : String)

/-! ## Stored requests -/

inductive Artifact
  | image
  | video (task : VideoTask)
  deriving DecidableEq

def VideoTask.text : VideoTask → String
  | .t2v => "t2v"
  | .i2v => "i2v"

/-- A validated POST, as the handlers hand it to `create_queued`. -/
structure Submission where
  artifact : Artifact
  modelName : String
  /-- The body of the request. -/
  raw : Json
  mode : JobMode
  webhookUrl : Option String
  webhookHeaders : Option (List (String × String))

namespace Submission

/-- An image job stores the body, a video job an envelope around it. -/
def inputJson (r : Submission) : StoredJson :=
  match r.artifact with
  | .image => .value r.raw
  | .video task =>
    .value (.obj [("artifact_kind", .str "video"), ("video_task", .str task.text),
      ("payload", r.raw)])

/-- The row of a new job. -/
def row (r : Submission) (id : String) (now : Nat) : Job :=
  Job.fresh id r.modelName r.inputJson r.mode r.webhookUrl r.webhookHeaders now

end Submission

end image_gen.requests

-- The queue worker (`app/queue/worker.py`). A pipeline is a coroutine: it
-- awaits the backend adapter, the object store and the job store, and each of
-- them may raise. Graph building, validation and image processing are the
-- parameters of a `Service`: they are pure and make no call.
import ImageGen.Coroutine
import ImageGen.Requests

namespace image_gen.worker

open image_gen.coroutine image_gen.json image_gen.job_store image_gen.requests

/-! ## Exceptions -/

inductive Exc
  | comfyUnreachable (message : String)
  | comfyNode (message : String)
  | comfyTimeout (message : String)
  | storage (message : String)
  | store (e : StoreError)
  /-- Any other subclass of `Exception`. -/
  | other (kind message : String)
  /-- `CancelledError`, which `except Exception` does not catch. -/
  | cancelled
  deriving DecidableEq

def storeErrorText : StoreError → String
  | .jobNotFound id => id
  | .invalidTransition current target => current.text ++ " -> " ++ target.text
  | .integrity => "UNIQUE constraint failed"
  | .sqlite message => message

namespace Exc

/-- `str(exc)`. -/
def text : Exc → String
  | .comfyUnreachable m => m
  | .comfyNode m => m
  | .comfyTimeout m => m
  | .storage m => m
  | .store e => storeErrorText e
  | .other _ m => m
  | .cancelled => ""

def isException : Exc → Bool
  | .cancelled => false
  | _ => true

/-- The classes of the first `except` of `_process_one`. -/
def isBackendOrStorage : Exc → Bool
  | .comfyUnreachable _ => true
  | .comfyNode _ => true
  | .comfyTimeout _ => true
  | .storage _ => true
  | _ => false

/-- `exc.__class__.__name__.lower()`. -/
def className : Exc → String
  | .comfyUnreachable _ => "comfyunreachableerror"
  | .comfyNode _ => "comfynodeerror"
  | .comfyTimeout _ => "comfytimeouterror"
  | .storage _ => "storageerror"
  | .store (.jobNotFound _) => "jobnotfounderror"
  | .store (.invalidTransition _ _) => "invalidtransitionerror"
  | .store .integrity => "integrityerror"
  | .store (.sqlite _) => "operationalerror"
  | .other kind _ => kind
  | .cancelled => "cancellederror"

end Exc

/-! ## Operations -/

section Model

variable {G : Type}

/-- A call to the backend adapter or to the object store. `submit` also says
for which model the graph was built. -/
inductive Call (G : Type)
  | uploadImage (imageBytes : Bytes) (filename : String)
  | unloadModels
  | health
  | submit (model : String) (graph : G)
  | cancel (promptId : String)
  | waitForCompletion (promptId : String) (timeoutS : PyFloat)
  | free
  | fetchOutputs (promptId : String)
  | fetchMediaOutputs (promptId : String)
  | uploadPng (jobId : String) (index : Nat) (data : Bytes)
  | uploadGenerationBlob (jobId : String) (index : Nat) (data : Bytes) (ext contentType : String)

/-- `free` answers whether free VRAM went up, which the adapter learns and
drops. -/
@[reducible] def Call.Ans : Call G → Type
  | .uploadImage _ _ => String
  | .unloadModels => Bool
  | .health => List (String × Json)
  | .submit _ _ => String
  | .cancel _ => Unit
  | .waitForCompletion _ _ => Unit
  | .free => Bool
  | .fetchOutputs _ => List Bytes
  | .fetchMediaOutputs _ => List (Bytes × String)
  | .uploadPng _ _ _ => String × String
  | .uploadGenerationBlob _ _ _ _ _ => String × String

inductive Op (G : Type)
  | call (c : Call G)
  | setRunning (jobId promptId clientId : String)
  | setCompleted (jobId : String) (outputKeys : List String) (result : JobResult)
  | setFailed (jobId errorCode errorMessage : String)
  | lastModelName
  | setLastModelName (name : String)
  | recordJobEvent (status : String) (errorCode : Option String)
  /-- The log line of the headroom check. -/
  | headroomChecked (model : String) (ok : Bool)
  /-- `(time.perf_counter() - start_gen) * 1000`. -/
  | durationMs
  /-- `secrets.randbelow(2**53)`. -/
  | randbelow
  /-- `if fut is not None and not fut.done(): fut.set_result(result)`. -/
  | setResult (result : JobResult)
  | setException (e : Exc)

@[reducible] def Op.Ans : Op G → Type
  | .call c => c.Ans
  | .lastModelName => Option String
  | .durationMs => ℚ
  | .randbelow => Nat
  | _ => Unit

abbrev Prog (G α : Type) := Co Exc (Op G) Op.Ans α

def ask (op : Op G) : Prog G op.Ans := Co.call op

def setRunning (jobId promptId clientId : String) : Prog G Unit :=
  ask (.setRunning jobId promptId clientId)

def setCompleted (jobId : String) (outputKeys : List String) (result : JobResult) :
    Prog G Unit := ask (.setCompleted jobId outputKeys result)

def setFailed (jobId errorCode errorMessage : String) : Prog G Unit :=
  ask (.setFailed jobId errorCode errorMessage)

def lastModelName : Prog G (Option String) := ask .lastModelName

def setLastModelName (name : String) : Prog G Unit := ask (.setLastModelName name)

def recordJobEvent (status : String) (errorCode : Option String) : Prog G Unit :=
  ask (.recordJobEvent status errorCode)

def headroomChecked (model : String) (ok : Bool) : Prog G Unit :=
  ask (.headroomChecked model ok)

def readDurationMs : Prog G ℚ := ask .durationMs

def randbelow : Prog G Nat := ask .randbelow

def setResult (result : JobResult) : Prog G Unit := ask (.setResult result)

def setException (e : Exc) : Prog G Unit := ask (.setException e)

/-- `try p except Exception as e: h e`. -/
def exceptException {α : Type} (p : Prog G α) (h : Exc → Prog G α) : Prog G α :=
  tryCatch p fun e => if e.isException then h e else throw e

/-! ## The service -/

/-- What the worker is built with, and the pure functions that it calls. -/
structure Service (G : Type) where
  publicBaseUrl : String
  jobTimeoutS : PyFloat
  /-- `getattr(adapter, "client_id", "unknown")`. -/
  clientId : String
  hasHealth : Bool
  hasFetchMediaOutputs : Bool
  hasUploadGenerationBlob : Bool
  registry : List ModelConfig
  /-- `model_validate`, `resolve_and_validate` and `touch_last_used_async`. -/
  validateImage : Json → Except Rejection ValidatedJob
  validateVideo : List (String × Json) → VideoTask → Except Rejection ValidatedVideoJob
  loadWorkflow : String → Except GraphError G
  /-- The injections of the image pipeline, with the resolved seed. -/
  injectImage : ValidatedJob → Int → G → Except GraphError G
  /-- The injections of the LTX pipeline that stand in its `try`. -/
  injectLtxv : ValidatedVideoJob → Int → G → Except GraphError G
  /-- The injections of the WAN pipeline that stand in its `try`. -/
  injectWan : ValidatedVideoJob → VideoTask → G → Except GraphError G
  /-- The injections of the WAN pipeline after its `try`. -/
  injectWanRequest : ValidatedVideoJob → Int → G → Except GraphError G
  injectInitImage : G → String → Except GraphError G
  applyTransparentBackground : Bytes → Except String Bytes
  b64encode : Bytes → String
  /-- `repr` of a `bytes` value. -/
  bytesRepr : Bytes → String
  /-- `str.lower`. -/
  lower : String → String
  /-- `float` of a `str`. -/
  parseFloat : String → Option PyFloat

namespace Service

/-- `float(value)`. -/
def float (svc : Service G) : Json → Option PyFloat
  | .bool b => some (.finite (if b then 1 else 0))
  | .int i => PyFloat.ofInt i
  | .float x => some x
  | .str s => svc.parseFloat s
  | _ => none

/-- `registry.get(name)`. -/
def getModel (svc : Service G) (name : String) : Option ModelConfig :=
  svc.registry.find? (fun m => m.name = name)

end Service

/-! ## Preparing a stored job -/

/-- What the prompt of a job makes, and how its pipeline handles it. -/
inductive Product
  | image (transparentBackground : Bool)
  /-- The texts of the two video pipelines differ. -/
  | video (missingFetchMedia zeroOutputs : String)
  deriving DecidableEq

/-- A job that is ready for its first call. -/
structure Prepared (G : Type) where
  model : ModelConfig
  graph : G
  /-- Empty bytes count as none. -/
  initImage : Option Bytes
  initFilename : String
  timeoutS : Option PyFloat
  seed : Int
  responseFormat : ResponseFormat
  product : Product

/-- How preparation ends a job. -/
inductive PrepareFailure
  /-- `set_failed`, then a `ComfyNodeError`. Some of them count no metric. -/
  | reported (errorCode message : String) (counted : Bool) (raised : String)
  /-- An exception that no `except` of the pipeline names. -/
  | escaped (kind message : String)

def GraphError.escape : GraphError → PrepareFailure
  | .workflow m => .escaped "WorkflowValidationError" m
  | .other kind m => .escaped kind m

/-- `except WorkflowValidationError` of the video pipelines. -/
def GraphError.report : GraphError → PrepareFailure
  | .workflow m => .reported "comfy_error" m true m
  | .other kind m => .escaped kind m

/-- `if validated.init_image_bytes`. -/
def nonEmpty : Option Bytes → Option Bytes
  | some (b :: bs) => some (b :: bs)
  | _ => none

def actualSeed (seed : Int) (drawn : Nat) : Int := if 0 ≤ seed then seed else drawn

def revalidationFailed (m : String) : String := "re-validation failed: " ++ m

def imageRejection : Rejection → PrepareFailure
  | .failure code m => .reported code m true (revalidationFailed m)
  | .pydantic m =>
    .reported "validation_error" ("re-validation of stored input_json failed: " ++ m) true
      (revalidationFailed m)
  | .jsonDecode m =>
    .reported "validation_error" ("re-validation of stored input_json failed: " ++ m) true
      (revalidationFailed m)
  | .other kind m => .escaped kind m

/-- The LTX pipeline has no `except ValidationError`. -/
def ltxvRejection : Rejection → PrepareFailure
  | .failure code m => .reported code m true (revalidationFailed m)
  | .pydantic m => .escaped "ValidationError" m
  | .jsonDecode m => .escaped "JSONDecodeError" m
  | .other kind m => .escaped kind m

def wanRejection : Rejection → PrepareFailure
  | .failure code m => .reported code m true (revalidationFailed m)
  | .pydantic m =>
    .reported "validation_error" ("re-validation of video payload failed: " ++ m) true
      (revalidationFailed m)
  | .jsonDecode m => .escaped "JSONDecodeError" m
  | .other kind m => .escaped kind m

def prepareImage (svc : Service G) (jobId : String) (drawn : Nat) (raw : Json) :
    Except PrepareFailure (Prepared G) := do
  let validated ← (svc.validateImage raw).mapError imageRejection
  let template ← (svc.loadWorkflow validated.model.workflowPath).mapError GraphError.escape
  let seed := actualSeed validated.seed drawn
  let graph ← (svc.injectImage validated seed template).mapError GraphError.escape
  return {
    model := validated.model
    graph := graph
    initImage := nonEmpty validated.initImageBytes
    initFilename := jobId ++ ".png"
    timeoutS := validated.timeoutS
    seed := seed
    responseFormat := validated.responseFormat
    product := .image validated.transparentBackground }

/-- The check at the head of both video pipelines. -/
def videoEnvelope (envelope : List (String × Json)) :
    Except PrepareFailure (VideoTask × List (String × Json)) :=
  let malformed : PrepareFailure :=
    .reported "validation_error" "stored video envelope missing video_task or payload" false
      "stored video envelope missing video_task or payload"
  match Json.get envelope "video_task", Json.get envelope "payload" with
  | .str "t2v", .obj payload => .ok (.t2v, payload)
  | .str "i2v", .obj payload => .ok (.i2v, payload)
  | _, _ => .error malformed

def prepareLtxv (svc : Service G) (jobId : String) (drawn : Nat)
    (envelope : List (String × Json)) : Except PrepareFailure (Prepared G) := do
  let (task, payload) ← videoEnvelope envelope
  let validated ← (svc.validateVideo payload task).mapError ltxvRejection
  let template ← (svc.loadWorkflow validated.resolvedWorkflowPath).mapError GraphError.escape
  let seed := actualSeed validated.seed drawn
  let graph ← (svc.injectLtxv validated seed template).mapError GraphError.report
  return {
    model := validated.model
    graph := graph
    initImage := nonEmpty validated.initImageBytes
    initFilename := jobId ++ "_init.png"
    timeoutS := validated.timeoutS
    seed := seed
    responseFormat := validated.responseFormat
    product := .video
      "backend adapter missing fetch_media_outputs — cannot complete ltxv video job"
      "ComfyUI returned zero media outputs for ltxv job" }

def prepareVideo (svc : Service G) (jobId : String) (drawn : Nat)
    (envelope : List (String × Json)) : Except PrepareFailure (Prepared G) := do
  let (task, payload) ← videoEnvelope envelope
  let validated ← (svc.validateVideo payload task).mapError wanRejection
  let template ← (svc.loadWorkflow validated.resolvedWorkflowPath).mapError GraphError.escape
  let seed := actualSeed validated.seed drawn
  let weighted ← (svc.injectWan validated task template).mapError GraphError.report
  let graph ← (svc.injectWanRequest validated seed weighted).mapError GraphError.escape
  return {
    model := validated.model
    graph := graph
    initImage := nonEmpty validated.initImageBytes
    initFilename := jobId ++ "_init.png"
    timeoutS := validated.timeoutS
    seed := seed
    responseFormat := validated.responseFormat
    product := .video
      "backend adapter missing fetch_media_outputs — cannot complete video job"
      "ComfyUI returned zero media outputs" }

/-- The family of the model that a video payload names, as the peek of
`_run_pipeline` reads it. -/
def peekFamily (svc : Service G) (payload : Json) : Except PrepareFailure (Option Family) :=
  -- `payload or {}`: a falsy payload names the model ""
  let fields : Except PrepareFailure (List (String × Json)) :=
    if payload.truthy then
      match payload with
      | .obj fields => .ok fields
      | _ => .error (.escaped "AttributeError" "object has no attribute 'get'")
    else .ok []
  fields.bind fun fields =>
    match fields.lookup "model" with
    | none => .ok ((svc.getModel "").map (·.family))
    | some (.str name) => .ok ((svc.getModel name).map (·.family))
    | some (.arr _) => .error (.escaped "TypeError" "unhashable type: 'list'")
    | some (.obj _) => .error (.escaped "TypeError" "unhashable type: 'dict'")
    -- a number, a bool or null is no key of the registry
    | some _ => .ok none

/-- The decoding of the stored text and the choice of the pipeline. -/
def prepare (svc : Service G) (job : Job) (drawn : Nat) : Except PrepareFailure (Prepared G) :=
  match job.inputJson with
  | .malformed m =>
    .error (.reported "validation_error" ("stored input_json is not valid JSON: " ++ m) true
      (revalidationFailed m))
  | .unreadable m => .error (.escaped "RecursionError" m)
  | .value (.obj envelope) =>
    match Json.get envelope "artifact_kind" with
    | .str "video" => do
      match ← peekFamily svc (Json.get envelope "payload") with
      | some .ltxv => prepareLtxv svc job.id drawn envelope
      | _ => prepareVideo svc job.id drawn envelope
    | _ => prepareImage svc job.id drawn (.obj envelope)
  | .value raw => prepareImage svc job.id drawn raw

/-! ## The stages of a pipeline -/

variable {α : Type}

/-- `set_failed`, the metric, and the exception again. -/
def failJob (job : Job) (errorCode message : String) (e : Exc) : Prog G α := do
  setFailed job.id errorCode message
  recordJobEvent "failed" (some errorCode)
  throw e

def raiseFailure (job : Job) : PrepareFailure → Prog G α
  | .reported code message true raised => failJob job code message (.comfyNode raised)
  | .reported code message false raised => do
    setFailed job.id code message
    throw (.comfyNode raised)
  | .escaped kind message => throw (.other kind message)

def raiseGraphError : GraphError → Exc
  | .workflow m => .other "WorkflowValidationError" m
  | .other kind m => .other kind m

def uploadImage (job : Job) (imageBytes : Bytes) (filename : String) : Prog G String :=
  tryCatch (ask (.call (.uploadImage imageBytes filename))) fun
    | .comfyUnreachable m => failJob job "comfy_unreachable" m (.comfyUnreachable m)
    | e => throw e

def uploadInitImage (svc : Service G) (job : Job) (p : Prepared G) : Prog G G :=
  match p.initImage with
  | none => pure p.graph
  | some imageBytes => do
    let _ ← uploadImage job imageBytes p.initFilename
    Co.ofExcept ((svc.injectInitImage p.graph p.initFilename).mapError raiseGraphError)

def safeCancel (promptId : String) : Prog G Unit :=
  exceptException (ask (.call (.cancel promptId))) fun _ => pure ()

def safeFree : Prog G Unit :=
  exceptException (do let _ ← ask (.call .free)) fun _ => pure ()

/-- What the headroom check makes of a health snapshot. -/
def headroomOf (svc : Service G) (model : ModelConfig) (snapshot : List (String × Json)) :
    Option Bool :=
  match Json.get snapshot "status" with
  | .str "ok" =>
    (svc.float (Json.get snapshot "vram_free_gb")).map fun freeGb =>
      freeGb.ge (.finite (model.vramEstimateGb + 1 / 2))
  | _ => none

def hasSwapHeadroom (svc : Service G) (model : ModelConfig) : Prog G Bool :=
  if svc.hasHealth then do
    let snapshot ← exceptException (some <$> ask (.call .health)) fun _ => pure none
    match snapshot.bind (headroomOf svc model) with
    | none => return false
    | some ok =>
      headroomChecked model.name ok
      return ok
  else return false

def swapRefused (last current : String) : String :=
  "model swap refused: /free did not increase vram_free within 30s (" ++ last ++ " -> " ++
    current ++ ")"

def enforceSwap (svc : Service G) (job : Job) (model : ModelConfig) : Prog G Unit := do
  match ← lastModelName with
  | none => return ()
  | some last =>
    if last = model.name then return ()
    else
      let unloaded ← ask (.call .unloadModels)
      if unloaded then return ()
      else
        let ok ← hasSwapHeadroom svc model
        if ok then return ()
        else
          failJob job "vram_budget_exceeded" (swapRefused last model.name)
            (.comfyNode (swapRefused last model.name))

def submit (job : Job) (model : ModelConfig) (graph : G) : Prog G String :=
  tryCatch (ask (.call (.submit model.name graph))) fun
    | .comfyUnreachable m => failJob job "comfy_unreachable" m (.comfyUnreachable m)
    | .comfyNode m => failJob job "comfy_error" m (.comfyNode m)
    | e => throw e

def markRunning (svc : Service G) (job : Job) (promptId : String) : Prog G Unit :=
  exceptException
    (do
      setRunning job.id promptId svc.clientId
      recordJobEvent "running" none)
    fun e => do
      safeCancel promptId
      throw (.comfyNode ("set_running failed: " ++ e.text))

/-- `float(..)` of the request's timeout, or else of the model's default. -/
def waitTimeout (svc : Service G) (p : Prepared G) : Except Exc PyFloat :=
  match p.timeoutS with
  | some t => .ok t
  | none =>
    match p.model.defaults.lookup "job_timeout_s" with
    | none => .ok svc.jobTimeoutS
    | some j =>
      match svc.float j with
      | some t => .ok t
      | none => .error (.other "TypeError" "float() argument must be a string or a real number")

def awaitCompletion (job : Job) (promptId : String) (timeoutS : PyFloat) : Prog G Unit :=
  tryCatch (ask (.call (.waitForCompletion promptId timeoutS))) fun
    | .comfyTimeout m => do
      safeCancel promptId
      safeFree
      failJob job "comfy_timeout" m (.comfyTimeout m)
    | .comfyUnreachable m => failJob job "comfy_unreachable" m (.comfyUnreachable m)
    | e => throw e

/-- `except ComfyUnreachableError` of the two fetches. -/
def orUnreachable (job : Job) (p : Prog G α) : Prog G α :=
  tryCatch p fun
    | .comfyUnreachable m => failJob job "comfy_unreachable" m (.comfyUnreachable m)
    | e => throw e

/-- `except StorageError` of the uploads. -/
def orStorage (job : Job) (p : Prog G α) : Prog G α :=
  tryCatch p fun
    | .storage m => failJob job "storage_error" m (.storage m)
    | e => throw e

/-- A result that the worker itself finds wrong. -/
def comfyError (job : Job) (message : String) : Prog G α :=
  failJob job "comfy_error" message (.comfyNode message)

def pngMagic : Bytes := [0x89, 0x50, 0x4E, 0x47, 0x0D, 0x0A, 0x1A, 0x0A]

def processImage (svc : Service G) (transparentBackground : Bool) (png : Bytes) :
    Except String Bytes :=
  if pngMagic.isPrefixOf png then
    if transparentBackground then
      (svc.applyTransparentBackground png).mapError ("transparent postprocess failed: " ++ ·)
    else .ok png
  else .error ("non-PNG bytes from ComfyUI (first=" ++ svc.bytesRepr (png.take 8) ++ ")")

def uploadPngs (job : Job) : Nat → List Bytes → Prog G (List String)
  | _, [] => pure []
  | idx, png :: rest => do
    let (bucket, key) ← ask (.call (.uploadPng job.id idx png))
    let keys ← uploadPngs job (idx + 1) rest
    return (bucket ++ "/" ++ key) :: keys

/-- `ext.lower().lstrip(".") or "mp4"`. -/
def normalizeExt (svc : Service G) (ext : String) : String :=
  let ext := String.ofList ((svc.lower ext).toList.dropWhile (· = '.'))
  if ext = "" then "mp4" else ext

def mediaContentType (ext : String) : String :=
  match ext with
  | "mp4" => "video/mp4"
  | "webm" => "video/webm"
  | "gif" => "image/gif"
  | "png" => "image/png"
  | _ => "application/octet-stream"

def uploadBlob (svc : Service G) (job : Job) (idx : Nat) (blob : Bytes) (ext : String) :
    Prog G (String × String) :=
  if svc.hasUploadGenerationBlob then
    ask (.call (.uploadGenerationBlob job.id idx blob ext (mediaContentType ext)))
  else ask (.call (.uploadPng job.id idx blob))

def uploadBlobs (svc : Service G) (job : Job) : Nat → List (Bytes × String) →
    Prog G (List String)
  | _, [] => pure []
  | idx, (blob, ext) :: rest => do
    let (bucket, key) ← uploadBlob svc job idx blob ext
    let keys ← uploadBlobs svc job (idx + 1) rest
    return (bucket ++ "/" ++ key) :: keys

def imageData (svc : Service G) (p : Prepared G) (jobId : String) (images : List Bytes) :
    List DataEntry :=
  match p.responseFormat with
  | .b64Json => images.map (fun png => .b64Json (svc.b64encode png))
  | .url => (List.range images.length).map fun idx =>
      .url (svc.publicBaseUrl ++ "/v1/images/" ++ jobId ++ "/" ++ toString idx ++ ".png")

def videoData (svc : Service G) (p : Prepared G) (jobId : String)
    (blobs : List (Bytes × String)) : List DataEntry :=
  match p.responseFormat with
  | .b64Json => blobs.map (fun b => .b64Json (svc.b64encode b.1))
  | .url => blobs.zipIdx.map fun b =>
      .url (svc.publicBaseUrl ++ "/v1/videos/" ++ jobId ++ "/" ++ toString b.2 ++ "." ++ b.1.2)

def finish (job : Job) (p : Prepared G) (outputKeys : List String) (data : List DataEntry) :
    Prog G JobResult := do
  let durationMs ← readDurationMs
  let result : JobResult := ⟨data, durationMs, p.seed⟩
  setCompleted job.id outputKeys result
  setLastModelName p.model.name
  return result

/-! ## The pipelines -/

/-- From the first call to the end of the wait, which all pipelines share. -/
def generate (svc : Service G) (job : Job) (p : Prepared G) : Prog G String := do
  let graph ← uploadInitImage svc job p
  enforceSwap svc job p.model
  let promptId ← submit job p.model graph
  markRunning svc job promptId
  let timeoutS ← Co.ofExcept (waitTimeout svc p)
  awaitCompletion job promptId timeoutS
  return promptId

def deliverImages (svc : Service G) (job : Job) (p : Prepared G) (transparentBackground : Bool)
    (promptId : String) : Prog G JobResult := do
  let images ← orUnreachable job (ask (.call (.fetchOutputs promptId)))
  if images.isEmpty then comfyError job "ComfyUI returned zero outputs"
  else
    match images.mapM (processImage svc transparentBackground) with
    | .error message => comfyError job message
    | .ok processed =>
      let keys ← orStorage job (uploadPngs job 0 processed)
      finish job p keys (imageData svc p job.id processed)

def deliverMedia (svc : Service G) (job : Job) (p : Prepared G)
    (missingFetchMedia zeroOutputs : String) (promptId : String) : Prog G JobResult :=
  if svc.hasFetchMediaOutputs then do
    let rows ← orUnreachable job (ask (.call (.fetchMediaOutputs promptId)))
    if rows.isEmpty then comfyError job zeroOutputs
    else
      let blobs := rows.map fun row => (row.1, normalizeExt svc row.2)
      let keys ← orStorage job (uploadBlobs svc job 0 blobs)
      finish job p keys (videoData svc p job.id blobs)
  else do
    -- this branch counts no metric
    setFailed job.id "comfy_error" missingFetchMedia
    throw (.comfyNode missingFetchMedia)

def runPrepared (svc : Service G) (job : Job) (p : Prepared G) : Prog G JobResult := do
  let promptId ← generate svc job p
  match p.product with
  | .image transparentBackground => deliverImages svc job p transparentBackground promptId
  | .video missingFetchMedia zeroOutputs =>
    deliverMedia svc job p missingFetchMedia zeroOutputs promptId

/-- `_run_pipeline` with the two video pipelines. -/
def runPipeline (svc : Service G) (job : Job) : Prog G JobResult := do
  let drawn ← randbelow
  match prepare svc job drawn with
  | .error failure => raiseFailure job failure
  | .ok p => runPrepared svc job p

/-! ## One item of the queue -/

/-- `except (BackendError, StorageError)`: nothing is written to the job. -/
def recordedBranch (e : Exc) : Prog G Unit := do
  recordJobEvent "failed" (some e.className)
  setException e

/-- `except Exception`. -/
def unexpectedBranch (job : Job) (e : Exc) : Prog G Unit := do
  setFailed job.id "internal" e.text
  recordJobEvent "failed" (some "internal")
  setException e

def completedBranch (result : JobResult) : Prog G Unit := do
  recordJobEvent "completed" none
  setResult result

/-- `_process_one` around a pipeline. -/
def processOne (pipeline : Prog G JobResult) (job : Job) : Prog G Unit := do
  let outcome ← tryCatch (Except.ok <$> pipeline) fun e => pure (Except.error e)
  match outcome with
  | .ok result => completedBranch result
  | .error e =>
    if e.isBackendOrStorage then recordedBranch e
    else if e.isException then unexpectedBranch job e
    else throw e

/-! ## The process that it runs in -/

inductive StoreRaise
  | error (e : StoreError)
  | cancelled
  deriving DecidableEq

def StoreRaise.exc : StoreRaise → Exc
  | .error e => .store e
  | .cancelled => .cancelled

/-- A store write that raises. The change stands when the write had been
committed, as when the read after it fails. -/
structure StoreFault where
  committed : Bool
  raised : StoreRaise

/-- How everything outside the worker behaves while it runs one job. -/
structure Env (G : Type) where
  backend : (c : Call G) → Except Exc c.Ans
  /-- By the number of store writes before. -/
  fault : Nat → Option StoreFault
  clock : Nat → Nat
  randbelow : Nat
  durationMs : ℚ

inductive FutureState
  | pending
  | result (r : JobResult)
  | exception (e : Exc)
  | cancelled
  deriving DecidableEq

def FutureState.done : FutureState → Bool
  | .pending => false
  | _ => true

/-- What the GPU was asked to do. A submission carries the worker's model name
at that moment. -/
inductive GpuEvent
  | submitted (model : String) (lastModelName : Option String)
  | unloaded (verified : Bool)
  | headroom (model : String) (ok : Bool)
  deriving DecidableEq

structure World where
  store : Store
  storeWrites : Nat
  lastModelName : Option String
  /-- None when the worker has no collector. -/
  metrics : Option (List (String × Option String))
  /-- Oldest first. -/
  gpu : List GpuEvent
  /-- None when no handler waits. -/
  future : Option FutureState

namespace World

def status (w : World) (jobId : String) : Option JobStatus :=
  (w.store.getById jobId).map (·.status)

/-- What a call that returns shows of the GPU. -/
def observe (w : World) : (c : Call G) → c.Ans → World
  | .submit model _, _ => { w with gpu := w.gpu ++ [.submitted model w.lastModelName] }
  | .unloadModels, verified => { w with gpu := w.gpu ++ [.unloaded verified] }
  | .free, verified => { w with gpu := w.gpu ++ [.unloaded verified] }
  | _, _ => w

/-- A future that is done, or that is not there, stays as it is. -/
def resolve (w : World) (f : FutureState) : World :=
  if w.future = some .pending then { w with future := some f } else w

end World

def execStore (env : Env G) (w : World) (write : Store → Nat → Except StoreError Store) :
    Except Exc Unit × World :=
  let counted := { w with storeWrites := w.storeWrites + 1 }
  match env.fault w.storeWrites with
  | some ⟨false, raised⟩ => (.error raised.exc, counted)
  | fault =>
    match write w.store (env.clock w.storeWrites) with
    | .error e => (.error (.store e), counted)
    | .ok store =>
      match fault with
      | none => (.ok (), { counted with store := store })
      | some f => (.error f.raised.exc, { counted with store := store })

def exec (env : Env G) : (op : Op G) → World → Except Exc op.Ans × World
  | .call c, w =>
    match env.backend c with
    | .ok answer => (.ok answer, w.observe c answer)
    | .error e => (.error e, w)
  | .setRunning id promptId clientId, w =>
    execStore env w fun s now => s.setRunning id promptId clientId now
  | .setCompleted id outputKeys result, w =>
    execStore env w fun s now => s.setCompleted id outputKeys result now
  | .setFailed id errorCode errorMessage, w =>
    execStore env w fun s now => s.setFailed id errorCode errorMessage now
  | .lastModelName, w => (.ok w.lastModelName, w)
  | .setLastModelName name, w => (.ok (), { w with lastModelName := some name })
  | .recordJobEvent status errorCode, w =>
    (.ok (), { w with metrics := w.metrics.map (· ++ [(status, errorCode)]) })
  | .headroomChecked model ok, w => (.ok (), { w with gpu := w.gpu ++ [.headroom model ok] })
  | .durationMs, w => (.ok env.durationMs, w)
  | .randbelow, w => (.ok env.randbelow, w)
  | .setResult result, w => (.ok (), w.resolve (.result result))
  | .setException e, w => (.ok (), w.resolve (.exception e))

section Exec

variable {env : Env G} {w : World}

theorem run_ask (op : Op G) (w : World) : (ask op).run (exec env) w = exec env op w :=
  Co.run_call (exec env) op w

theorem exec_call_ok {c : Call G} {a : c.Ans} (h : env.backend c = .ok a) (w : World) :
    exec env (.call c) w = (.ok a, w.observe c a) := by
  unfold exec
  simp only [h]

theorem exec_call_error {c : Call G} {e : Exc} (h : env.backend c = .error e) (w : World) :
    exec env (.call c) w = (.error e, w) := by
  unfold exec
  simp only [h]

@[simp] theorem run_setRunning (jobId promptId clientId : String) :
    (setRunning jobId promptId clientId).run (exec env) w =
      exec env (.setRunning jobId promptId clientId) w := run_ask _ w

@[simp] theorem run_setCompleted (jobId : String) (outputKeys : List String) (r : JobResult) :
    (setCompleted jobId outputKeys r).run (exec env) w =
      exec env (.setCompleted jobId outputKeys r) w := run_ask _ w

@[simp] theorem run_setFailed (jobId errorCode errorMessage : String) :
    (setFailed jobId errorCode errorMessage).run (exec env) w =
      exec env (.setFailed jobId errorCode errorMessage) w := run_ask _ w

@[simp] theorem run_lastModelName :
    lastModelName.run (exec env) w = (.ok w.lastModelName, w) := rfl

@[simp] theorem run_setLastModelName (name : String) :
    (setLastModelName name).run (exec env) w = (.ok (), { w with lastModelName := some name }) :=
  rfl

@[simp] theorem run_recordJobEvent (status : String) (code : Option String) :
    (recordJobEvent status code).run (exec env) w =
      (.ok (), { w with metrics := w.metrics.map (· ++ [(status, code)]) }) := rfl

@[simp] theorem run_headroomChecked (model : String) (ok : Bool) :
    (headroomChecked model ok).run (exec env) w =
      (.ok (), { w with gpu := w.gpu ++ [.headroom model ok] }) := rfl

@[simp] theorem run_readDurationMs :
    readDurationMs.run (exec env) w = (.ok env.durationMs, w) := rfl

@[simp] theorem run_randbelow : randbelow.run (exec env) w = (.ok env.randbelow, w) := rfl

@[simp] theorem run_setResult (r : JobResult) :
    (setResult r).run (exec env) w = (.ok (), w.resolve (.result r)) := rfl

@[simp] theorem run_setException (e : Exc) :
    (setException e).run (exec env) w = (.ok (), w.resolve (.exception e)) := rfl

/-- The four ways through `_process_one`. -/
theorem run_processOne (pipeline : Prog G JobResult) (job : Job) :
    (processOne pipeline job).run (exec env) w =
      match pipeline.run (exec env) w with
      | (.ok result, w') => (completedBranch result).run (exec env) w'
      | (.error e, w') =>
        if e.isBackendOrStorage then (recordedBranch e).run (exec env) w'
        else if e.isException then (unexpectedBranch job e).run (exec env) w'
        else (.error e, w') := by
  have houtcome : (tryCatch (Except.ok <$> pipeline) fun e => pure (Except.error e) :
      Prog G (Except Exc JobResult)).run (exec env) w =
        (.ok (pipeline.run (exec env) w).1, (pipeline.run (exec env) w).2) := by
    rw [Co.run_tryCatch, Co.run_map]
    rcases pipeline.run (exec env) w with ⟨e | a, w'⟩ <;> rfl
  unfold processOne
  rw [Co.run_bind, houtcome]
  rcases pipeline.run (exec env) w with ⟨e | a, w'⟩
  · simp only
    split
    · rfl
    split <;> rfl
  · rfl

end Exec

end Model

/-! ## A small service -/

/-- A request names its model, and is accepted as it stands. -/
def smallRequest (name : String) : ValidatedJob where
  model := { name := name, workflowPath := "", checkpoint := "", vramEstimateGb := 7 }
  prompt := "a tree"
  negativePrompt := .str ""
  width := 512
  height := 512
  n := 1
  steps := .int 20
  cfg := .finite 7
  seed := 1
  sampler := "euler"
  scheduler := "normal"
  responseFormat := .url
  transparentBackground := false
  timeoutS := none
  loras := []
  initImageBytes := none

def smallService : Service Unit where
  publicBaseUrl := ""
  jobTimeoutS := .finite 300
  clientId := "c"
  hasHealth := true
  hasFetchMediaOutputs := true
  hasUploadGenerationBlob := true
  registry := []
  validateImage
    | .str name => .ok (smallRequest name)
    | _ => .error (.pydantic "not an object")
  validateVideo _ _ := .error (.failure "validation_error" "unknown model")
  loadWorkflow _ := .ok ()
  injectImage _ _ g := .ok g
  injectLtxv _ _ g := .ok g
  injectWan _ _ g := .ok g
  injectWanRequest _ _ g := .ok g
  injectInitImage g _ := .ok g
  applyTransparentBackground png := .ok png
  b64encode _ := ""
  bytesRepr _ := ""
  lower s := s
  parseFloat _ := none

/-- A backend that does what it is asked. -/
def willing : (c : Call Unit) → Except Exc c.Ans
  | .uploadImage _ filename => .ok filename
  | .unloadModels => .ok true
  | .health => .ok []
  | .submit _ _ => .ok "p"
  | .cancel _ => .ok ()
  | .waitForCompletion _ _ => .ok ()
  | .free => .ok true
  | .fetchOutputs _ => .ok [pngMagic]
  | .fetchMediaOutputs _ => .ok [([], "mp4")]
  | .uploadPng _ _ _ => .ok ("b", "k")
  | .uploadGenerationBlob _ _ _ _ _ => .ok ("b", "k")

/-- The same backend, but the prompt of each job ends in `e`. -/
def willingUntilWait (e : Exc) : (c : Call Unit) → Except Exc c.Ans
  | .waitForCompletion _ _ => .error e
  | c => willing c

def smallEnv (backend : (c : Call Unit) → Except Exc c.Ans) : Env Unit where
  backend := backend
  fault _ := none
  clock n := n
  randbelow := 0
  durationMs := 0

def smallJob (id name : String) : Job :=
  Job.fresh id name (.value (.str name)) .sync none none 0

def smallWorld (store : Store) : World where
  store := store
  storeWrites := 0
  lastModelName := none
  metrics := some []
  gpu := []
  future := some .pending

end image_gen.worker

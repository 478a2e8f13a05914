-- What the endpoints that create jobs accept and store (`app/api/images.py`,
-- `app/api/videos.py`, `app/api/init_image_multipart.py`), and what the queue worker
-- makes of a stored text before it prepares a graph. The bound of the queue and the
-- answers after `create_queued` are left out.
import ImageGen.PyDict
import ImageGen.Validation

namespace image_gen.intake

open image_gen.json image_gen.job_store image_gen.request_models image_gen.validation
open image_gen.lora_files (LoraTree)
open image_gen.requests (Artifact Bytes Family Rejection Submission VideoTask)
open image_gen.results (refuseIf)
open image_gen.worker (PrepareFailure imageRejection ltxvRejection revalidationFailed
  videoEnvelope wanRejection)

/-- The codecs of the standard library and the environment of the uploads. -/
structure Host extends Setting where
  dumps : Json → String
  loads : String → StoredJson
  b64encode : Bytes → String
  /-- `MAX_INIT_IMAGE_UPLOAD_BYTES`. -/
  maxUploadBytes : Option String

/-! ## Uploads -/

def defaultMaxBytes : Int := 25 * 1024 * 1024

/-- Where `int` fails, the default is not clamped. -/
def maxInitImageUploadBytes (h : Host) : Int :=
  let clamp (n : Int) : Int := max 1024 (min n (200 * 1024 * 1024))
  match h.maxUploadBytes with
  | none => clamp defaultMaxBytes
  | some raw =>
    match h.py.parseInt raw with
    | some n => clamp n
    | none => defaultMaxBytes

def pngMagic : Bytes := [0x89, 0x50, 0x4e, 0x47, 0x0d, 0x0a, 0x1a, 0x0a]

def jpegMagic : Bytes := [0xff, 0xd8, 0xff]

def gifMagics : List Bytes :=
  [[0x47, 0x49, 0x46, 0x38, 0x37, 0x61], [0x47, 0x49, 0x46, 0x38, 0x39, 0x61]]

def riffMagic : Bytes := [0x52, 0x49, 0x46, 0x46]

def webpMagic : Bytes := [0x57, 0x45, 0x42, 0x50]

def mimeFromMagic (data : Bytes) : Except Rejection String :=
  if pngMagic <+: data then .ok "image/png"
  else if jpegMagic <+: data then .ok "image/jpeg"
  else if ∃ magic ∈ gifMagics, magic <+: data then .ok "image/gif"
  else if data.take 4 = riffMagic ∧ (data.drop 8).take 4 = webpMagic then .ok "image/webp"
  else .error (invalid "image file must be PNG, JPEG, GIF, or WebP (unrecognized magic bytes)")

def parsePayloadObject (h : Host) (payload : String) : Except Rejection (List (String × Json)) :=
  match h.loads payload with
  | .value (.obj fields) => .ok fields
  | .value _ => .error (invalid "payload must be a JSON object")
  | .malformed _ => .error (invalid "payload must be valid JSON")
  | .unreadable m => .error (.other "RecursionError" m)

def dataUri (h : Host) (mime : String) (image : Bytes) : String :=
  "data:" ++ mime ++ ";base64," ++ h.b64encode image

/-- The upload wins over an `init_image` of the payload. -/
def mergeInitImageUpload (h : Host) (raw : List (String × Json)) (image : Bytes) :
    Except Rejection (List (String × Json)) := do
  let limit := maxInitImageUploadBytes h
  refuseIf (image = []) (invalid "image upload is empty")
  refuseIf (limit < image.length)
    (invalid ("image exceeds max size (" ++ toString limit ++ " bytes)"))
  let mime ← mimeFromMagic image
  return py_dict.set raw "init_image" (.str (dataUri h mime image))

/-! ## The endpoints -/

inductive Validated
  | image (job : ValidatedJob)
  | video (task : VideoTask) (job : ValidatedVideoJob)

/-- A job that is handed to `create_queued`, with what the handler validated. -/
structure Created where
  submission : Submission
  validated : Validated

/-- The value that `input_json` encodes. -/
def Created.stored (c : Created) : Json :=
  match c.submission.artifact with
  | .image => c.submission.raw
  | .video task =>
    .obj [("artifact_kind", .str "video"), ("video_task", .str task.text),
      ("payload", c.submission.raw)]

/-- `await request.json()`. -/
def readBody : StoredJson → Except Rejection Json
  | .value raw => .ok raw
  | .malformed _ => .error (invalid "body is not valid JSON")
  | .unreadable m => .error (.other "RecursionError" m)

section Handlers

variable (h : Host) (t : LoraTree)

def parseGenerate (raw : Json) : Except Rejection (GenerateRequest h.toContext) :=
  match GenerateRequest.ofJson h.toContext raw with
  | some req => .ok req
  | none => .error (.pydantic "invalid body")

def parseVideoGenerate (raw : Json) : Except Rejection (VideoGenerateRequest h.toContext) :=
  match VideoGenerateRequest.ofJson h.toContext raw with
  | some req => .ok req
  | none => .error (.pydantic "invalid body")

/-- `_run_sync_job` as far as `create_queued`. -/
def runSyncJob (raw : Json) (body : GenerateRequest h.toContext) : Except Rejection Created := do
  let validated ← resolveAndValidate h.toSetting t body
  return ⟨⟨.image, body.model, raw, body.mode, validated.webhookUrl, validated.webhookHeaders⟩,
    .image validated⟩

/-- `_run_video_job` as far as `create_queued`. -/
def runVideoJob (task : VideoTask) (raw : Json) (body : VideoGenerateRequest h.toContext) :
    Except Rejection Created := do
  let validated ← resolveAndValidateVideo h.toSetting t task body
  return ⟨⟨.video task, body.model, raw, body.mode, validated.webhookUrl,
    validated.webhookHeaders⟩, .video task validated⟩

def createImage (body : StoredJson) : Except Rejection Created := do
  let raw ← readBody body
  let req ← parseGenerate h raw
  runSyncJob h t raw req

def createImageBinary (body : StoredJson) : Except Rejection Created := do
  let raw ← readBody body
  let req ← parseGenerate h raw
  refuseIf (req.mode = .async) (invalid "binary endpoint requires mode='sync'")
  refuseIf (req.n.val ≠ 1) (invalid "binary endpoint only supports n=1")
  runSyncJob h t raw req

/-- The payload of a multipart request with the image in it. -/
def mergedBody (payload : String) (image : Bytes) : Except Rejection Json := do
  let rawObj ← parsePayloadObject h payload
  let merged ← mergeInitImageUpload h rawObj image
  return .obj merged

def createImageMultipart (payload : String) (image : Bytes) : Except Rejection Created := do
  let raw ← mergedBody h payload image
  let req ← parseGenerate h raw
  runSyncJob h t raw req

/-- What the two JSON endpoints for videos share. -/
def createVideo (task : VideoTask) (body : StoredJson) : Except Rejection Created := do
  let raw ← readBody body
  let req ← parseVideoGenerate h raw
  runVideoJob h t task raw req

def createTextToVideo : StoredJson → Except Rejection Created := createVideo h t .t2v

def createImageToVideo : StoredJson → Except Rejection Created := createVideo h t .i2v

def createImageToVideoMultipart (payload : String) (image : Bytes) :
    Except Rejection Created := do
  let raw ← mergedBody h payload image
  let req ← parseVideoGenerate h raw
  runVideoJob h t .i2v raw req

end Handlers

/-- A request to one of the endpoints that create jobs. -/
inductive Post
  | image (body : StoredJson)
  | imageBinary (body : StoredJson)
  | imageMultipart (payload : String) (image : Bytes)
  | textToVideo (body : StoredJson)
  | imageToVideo (body : StoredJson)
  | imageToVideoMultipart (payload : String) (image : Bytes)

namespace Post

def create (h : Host) (t : LoraTree) : Post → Except Rejection Created
  | .image body => createImage h t body
  | .imageBinary body => createImageBinary h t body
  | .imageMultipart payload file => createImageMultipart h t payload file
  | .textToVideo body => createTextToVideo h t body
  | .imageToVideo body => createImageToVideo h t body
  | .imageToVideoMultipart payload file => createImageToVideoMultipart h t payload file

/-- What the endpoint makes. -/
def artifact : Post → Artifact
  | .image _ | .imageBinary _ | .imageMultipart _ _ => Artifact.image
  | .textToVideo _ => .video .t2v
  | .imageToVideo _ | .imageToVideoMultipart _ _ => .video .i2v

/-- The file of a multipart request. -/
def upload : Post → Option Bytes
  | .imageMultipart _ file | .imageToVideoMultipart _ file => some file
  | _ => none

end Post

/-! ## The worker -/

/-- The pipeline that `_run_pipeline` takes, with what it is given. -/
inductive Selected
  | image (raw : Json)
  | wan (envelope : List (String × Json))
  | ltxv (envelope : List (String × Json))

/-- The family of the model that a payload names. -/
def peekFamily (s : Setting) (payload : Json) : Except PrepareFailure (Option Family) :=
  let fields : Except PrepareFailure (List (String × Json)) :=
    if payload.truthy then
      match payload with
      | .obj fields => .ok fields
      | _ => .error (.escaped "AttributeError" "object has no attribute 'get'")
    else .ok []
  fields.bind fun fields =>
    match fields.lookup "model" with
    | none => .ok ((s.registry "").map (·.family))
    | some (.str name) => .ok ((s.registry name).map (·.family))
    | some (.arr _) => .error (.escaped "TypeError" "unhashable type: 'list'")
    | some (.obj _) => .error (.escaped "TypeError" "unhashable type: 'dict'")
    | some _ => .ok none

/-- The head of `_run_pipeline`. -/
def select (s : Setting) : StoredJson → Except PrepareFailure Selected
  | .malformed m =>
    .error (.reported "validation_error" ("stored input_json is not valid JSON: " ++ m) true
      (revalidationFailed m))
  | .unreadable m => .error (.escaped "RecursionError" m)
  | .value (.obj envelope) =>
    match Json.get envelope "artifact_kind" with
    | .str "video" => do
      match ← peekFamily s (Json.get envelope "payload") with
      | some .ltxv => return .ltxv envelope
      | _ => return .wan envelope
    | _ => .ok (.image (.obj envelope))
  | .value raw => .ok (.image raw)

/-- A job that a pipeline has validated again. -/
inductive Decoded
  | image (job : ValidatedJob)
  | wan (task : VideoTask) (job : ValidatedVideoJob)
  | ltxv (task : VideoTask) (job : ValidatedVideoJob)

/-- The second validation, at the head of each pipeline. -/
def Selected.revalidate (s : Setting) (t : LoraTree) : Selected → Except PrepareFailure Decoded
  | .image raw => do
    let job ← (validateImage s t raw).mapError imageRejection
    return .image job
  | .wan envelope => do
    let (task, payload) ← videoEnvelope envelope
    let job ← (validateVideo s t task (.obj payload)).mapError wanRejection
    return .wan task job
  | .ltxv envelope => do
    let (task, payload) ← videoEnvelope envelope
    let job ← (validateVideo s t task (.obj payload)).mapError ltxvRejection
    return .ltxv task job

def decode (s : Setting) (t : LoraTree) (stored : StoredJson) : Except PrepareFailure Decoded := do
  let selected ← select s stored
  selected.revalidate s t

/-- What the pipeline makes. -/
def Decoded.artifact : Decoded → Artifact
  | .image _ => .image
  | .wan task _ | .ltxv task _ => .video task

end image_gen.intake

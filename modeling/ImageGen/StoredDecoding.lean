-- A stored job is read back as what was accepted: the worker takes the pipeline of
-- the endpoint, and its second validation gives the job that the handler validated.
import ImageGen.Intake
import ImageGen.RequestLimits

namespace image_gen.stored_decoding

open image_gen.lora_files hiding resolveAndValidate resolveAndValidateVideo
open image_gen.intake image_gen.json image_gen.request_models image_gen.results
  image_gen.validation
open image_gen.requests (Artifact Bytes Family ModelConfig Rejection Submission VideoTask)
open image_gen.worker (PrepareFailure imageRejection videoEnvelope)
open image_gen.request_limits (getModel_ok resolveAndValidateVideo_checked)

variable {h : Host} {t : LoraTree}

/-! ## Bodies that pass -/

theorem image_base {c : Context} {raw : Json} {req : GenerateRequest c}
    (hreq : GenerateRequest.ofJson c raw = some req) :
    generateRequest c.toValidator raw = some ⟨req.model, req.loras⟩ := by
  unfold GenerateRequest.ofJson at hreq
  obtain ⟨base, hbase, hreq⟩ := Option.bind_eq_some_iff.mp hreq
  rw [hbase]
  iterate 15 obtain ⟨_, -, hreq⟩ := Option.bind_eq_some_iff.mp hreq
  cases hreq
  rfl

theorem video_base {c : Context} {raw : Json} {req : VideoGenerateRequest c}
    (hreq : VideoGenerateRequest.ofJson c raw = some req) :
    videoGenerateRequest c.toValidator raw = some ⟨req.model, req.loras⟩ := by
  unfold VideoGenerateRequest.ofJson at hreq
  obtain ⟨base, hbase, hreq⟩ := Option.bind_eq_some_iff.mp hreq
  rw [hbase]
  iterate 19 obtain ⟨_, -, hreq⟩ := Option.bind_eq_some_iff.mp hreq
  cases hreq
  rfl

/-- A body that the image endpoint accepts has no key of an envelope. -/
theorem select_image {s : Setting} {raw : Json} {req : GenerateRequest s.toContext}
    (hreq : GenerateRequest.ofJson s.toContext raw = some req) :
    select s (.value raw) = .ok (.image raw) := by
  obtain ⟨fields, rfl, hkeys⟩ := parseBody_some (image_base hreq)
  have hkind : Json.get fields "artifact_kind" = .null := by
    apply get_of_not_mem
    intro f hf heq
    have hknown := hkeys f hf
    rw [heq] at hknown
    revert hknown
    decide
  simp [select, hkind]

/-- The text under `model` is the name that the request carries. -/
theorem lookup_model {v : Validator} {known : List String} {maxLoras : Nat} {raw : Json}
    {base : LoraRequest} (hbase : parseBody v known maxLoras raw = some base) :
    ∃ fields, raw = .obj fields ∧ fields.lookup "model" = some (.str base.model) := by
  obtain ⟨fields, rfl, hkeys⟩ := parseBody_some hbase
  refine ⟨fields, rfl, ?_⟩
  rw [parseBody, if_pos hkeys] at hbase
  have hget : Json.get fields "model" = .str base.model := by
    split at hbase
    · next model hmodel hloras =>
      cases hbase
      exact hmodel
    · next model items hmodel hloras =>
      split_ifs at hbase
      obtain ⟨loras, -, rfl⟩ := Option.map_eq_some_iff.mp hbase
      exact hmodel
    · cases hbase
  unfold Json.get at hget
  rcases hlookup : fields.lookup "model" with _ | value <;> rw [hlookup] at hget
  · cases hget
  · exact congrArg some hget

theorem peekFamily_of_registered {s : Setting} {fields : List (String × Json)} {name : String}
    {model : ModelConfig} (hname : fields.lookup "model" = some (.str name))
    (hmodel : s.registry name = some model) :
    peekFamily s (.obj fields) = .ok (some model.family) := by
  have hfields : (Json.obj fields).truthy = true := by
    cases fields with
    | nil => cases hname
    | cons f rest => rfl
  simp only [peekFamily, hfields, ↓reduceIte, Except.bind, hname, hmodel, Option.map_some]

/-- The envelope of a video body. -/
def envelopeOf (task : VideoTask) (raw : Json) : List (String × Json) :=
  [("artifact_kind", .str "video"), ("video_task", .str task.text), ("payload", raw)]

theorem videoEnvelope_envelopeOf (task : VideoTask) (fields : List (String × Json)) :
    videoEnvelope (envelopeOf task (.obj fields)) = .ok (task, fields) := by
  cases task <;> rfl

theorem select_video {s : Setting} {fields : List (String × Json)} {family : Family}
    (task : VideoTask) (hpeek : peekFamily s (.obj fields) = .ok (some family)) :
    select s (.value (.obj (envelopeOf task (.obj fields)))) =
      .ok (if family = .ltxv then .ltxv (envelopeOf task (.obj fields))
        else .wan (envelopeOf task (.obj fields))) := by
  have hkind : Json.get (envelopeOf task (.obj fields)) "artifact_kind" = .str "video" := rfl
  have hpayload : Json.get (envelopeOf task (.obj fields)) "payload" = .obj fields := rfl
  simp only [select, hkind, hpayload, hpeek]
  cases family <;> rfl

/-! ## The second validation -/

/-- What the worker makes of a job that was validated. -/
def decodedOf : Validated → Decoded
  | .image job => .image job
  | .video task job => if job.model.family = .ltxv then .ltxv task job else .wan task job

theorem decode_image {s : Setting} {raw : Json} {req : GenerateRequest s.toContext}
    {job : ValidatedJob} (hreq : GenerateRequest.ofJson s.toContext raw = some req)
    (hjob : resolveAndValidate s t req = .ok job) :
    decode s t (.value raw) = .ok (.image job) := by
  unfold decode
  rw [select_image hreq, ok_bind]
  simp only [Selected.revalidate, validateImage, hreq, hjob]
  rfl

theorem decode_video {s : Setting} {raw : Json} {task : VideoTask}
    {req : VideoGenerateRequest s.toContext} {job : ValidatedVideoJob}
    (hreq : VideoGenerateRequest.ofJson s.toContext raw = some req)
    (hjob : resolveAndValidateVideo s t task req = .ok job) :
    decode s t (.value (.obj (envelopeOf task raw))) = .ok (decodedOf (.video task job)) := by
  obtain ⟨fields, rfl, hname⟩ := lookup_model (video_base hreq)
  have hmodel := (resolveAndValidateVideo_checked hjob).model
  have hpeek := peekFamily_of_registered hname hmodel
  have hvalid : validateVideo s t task (.obj fields) = .ok job := by
    simp only [validateVideo, hreq, hjob]
  unfold decode
  rw [select_video task hpeek, ok_bind]
  by_cases hfamily : job.model.family = .ltxv
  · rw [if_pos hfamily, decodedOf, if_pos hfamily]
    simp only [Selected.revalidate, videoEnvelope_envelopeOf, ok_bind, hvalid]
    rfl
  · rw [if_neg hfamily, decodedOf, if_neg hfamily]
    simp only [Selected.revalidate, videoEnvelope_envelopeOf, ok_bind, hvalid]
    rfl

/-! ## Uploads -/

theorem max_upload_bounds (h : Host) :
    1024 ≤ maxInitImageUploadBytes h ∧ maxInitImageUploadBytes h ≤ 200 * 1024 * 1024 := by
  unfold maxInitImageUploadBytes defaultMaxBytes
  dsimp only
  split
  · omega
  · split <;> omega

def imageMimes : List String := ["image/png", "image/jpeg", "image/gif", "image/webp"]

theorem mimeFromMagic_ok {data : Bytes} {mime : String} (hmime : mimeFromMagic data = .ok mime) :
    mime ∈ imageMimes := by
  unfold mimeFromMagic at hmime
  split_ifs at hmime <;> cases hmime <;> decide

/-- What a merge that comes through has checked and changed. -/
theorem mergeInitImageUpload_ok {raw merged : List (String × Json)} {image : Bytes}
    (hmerge : mergeInitImageUpload h raw image = .ok merged) :
    image ≠ [] ∧ image.length ≤ maxInitImageUploadBytes h ∧ ∃ mime ∈ imageMimes,
      merged = py_dict.set raw "init_image" (.str (dataUri h mime image)) := by
  obtain ⟨_, hempty, hmerge⟩ := bind_ok hmerge
  obtain ⟨_, hlimit, hmerge⟩ := bind_ok hmerge
  obtain ⟨mime, hmime, hmerge⟩ := bind_ok hmerge
  cases hmerge
  have hlong := refuseIf_ok hlimit
  exact ⟨refuseIf_ok hempty, by omega, mime, mimeFromMagic_ok hmime, rfl⟩

/-- The head of a data URI ends at its first comma. -/
theorem stripDataUri_of_head {head : List Char} {text : String} {rest : List Char}
    (hstart : "data:image".toList <+: head) (hcomma : ',' ∉ head)
    (htext : text.toList = head ++ ',' :: rest) : stripDataUri text = String.ofList rest := by
  have hprefix : "data:image".toList <+: text.toList := by
    rw [htext]
    exact hstart.trans (List.prefix_append _ _)
  have hdrop : text.toList.dropWhile (· ≠ ',') = ',' :: rest := by
    rw [htext, List.dropWhile_append_of_pos]
    · simp
    · intro c hc
      have hne : c ≠ ',' := ne_of_mem_of_not_mem hc hcomma
      simpa using hne
  rw [stripDataUri, if_pos hprefix, hdrop]

theorem stripDataUri_dataUri {mime : String} (hmime : mime ∈ imageMimes) (image : Bytes) :
    stripDataUri (dataUri h mime image) = h.b64encode image := by
  have hheads : ∀ m ∈ imageMimes, "data:image".toList <+: ("data:" ++ m ++ ";base64").toList ∧
      ',' ∉ ("data:" ++ m ++ ";base64").toList := by decide
  have htext : (dataUri h mime image).toList =
      ("data:" ++ mime ++ ";base64").toList ++ ',' :: (h.b64encode image).toList := by
    have hend : ";base64,".toList = ";base64".toList ++ [','] := by decide
    simp only [dataUri, String.toList_append, hend, List.append_assoc, List.singleton_append]
  obtain ⟨hstart, hcomma⟩ := hheads mime hmime
  rw [stripDataUri_of_head hstart hcomma htext, String.ofList_toList]

theorem decodeInitImage_dataUri {mime : String} {image : Bytes} (hmime : mime ∈ imageMimes)
    (hb64 : h.b64decode (h.b64encode image) = some image) :
    decodeInitImage h.toSetting (some (dataUri h mime image)) = .ok (some image) := by
  have hgiven : injectors.given (some (dataUri h mime image)) = some (dataUri h mime image) := by
    have hne : dataUri h mime image ≠ "" := by
      intro hempty
      have hlist := congrArg String.toList hempty
      simp [dataUri] at hlist
    rw [injectors.given, if_neg hne]
  simp only [decodeInitImage, hgiven, stripDataUri_dataUri hmime, hb64]

def initImageBytes : Validated → Option Bytes
  | .image job => job.initImageBytes
  | .video _ job => job.initImageBytes

/-- The image of a merged body is the file. -/
theorem lookup_mergedBody {payload : String} {image : Bytes} {raw : Json}
    (hraw : mergedBody h payload image = .ok raw) : ∃ mime ∈ imageMimes,
      (objectFields raw).lookup "init_image" = some (.str (dataUri h mime image)) := by
  obtain ⟨fields, -, hraw⟩ := bind_ok hraw
  obtain ⟨merged, hmerge, hraw⟩ := bind_ok hraw
  cases hraw
  obtain ⟨-, -, mime, hmime, rfl⟩ := mergeInitImageUpload_ok hmerge
  exact ⟨mime, hmime, py_dict.lookup_set_self fields "init_image" _⟩

/-- What the two request classes read under `init_image`. -/
theorem image_initImage {c : Context} {raw : Json} {req : GenerateRequest c}
    (hreq : GenerateRequest.ofJson c raw = some req) :
    field (objectFields raw) "init_image" none (optional text) = some req.initImage := by
  unfold GenerateRequest.ofJson at hreq
  iterate 14 obtain ⟨_, -, hreq⟩ := Option.bind_eq_some_iff.mp hreq
  obtain ⟨image, himage, hreq⟩ := Option.bind_eq_some_iff.mp hreq
  obtain ⟨_, -, hreq⟩ := Option.bind_eq_some_iff.mp hreq
  cases hreq
  exact himage

theorem video_initImage {c : Context} {raw : Json} {req : VideoGenerateRequest c}
    (hreq : VideoGenerateRequest.ofJson c raw = some req) :
    field (objectFields raw) "init_image" none (optional text) = some req.initImage := by
  unfold VideoGenerateRequest.ofJson at hreq
  iterate 18 obtain ⟨_, -, hreq⟩ := Option.bind_eq_some_iff.mp hreq
  obtain ⟨image, himage, hreq⟩ := Option.bind_eq_some_iff.mp hreq
  obtain ⟨_, -, hreq⟩ := Option.bind_eq_some_iff.mp hreq
  cases hreq
  exact himage

theorem given_of_lookup {raw : Json} {uri : String} {initImage : Option String}
    (hlookup : (objectFields raw).lookup "init_image" = some (.str uri))
    (hfield : field (objectFields raw) "init_image" none (optional text) = some initImage) :
    initImage = some uri := by
  simp only [field, hlookup] at hfield
  cases hfield
  rfl

theorem image_bytes {s : Setting} {req : GenerateRequest s.toContext} {job : ValidatedJob}
    (hjob : resolveAndValidate s t req = .ok job) :
    decodeInitImage s req.initImage = .ok job.initImageBytes := by
  unfold resolveAndValidate at hjob
  iterate 10 obtain ⟨_, -, hjob⟩ := bind_ok hjob
  obtain ⟨bytes, hbytes, hjob⟩ := bind_ok hjob
  cases hjob
  exact hbytes

theorem video_bytes {s : Setting} {task : VideoTask} {req : VideoGenerateRequest s.toContext}
    {job : ValidatedVideoJob} (hjob : resolveAndValidateVideo s t task req = .ok job) :
    decodeInitImage s req.initImage = .ok job.initImageBytes := by
  unfold resolveAndValidateVideo at hjob
  iterate 11 obtain ⟨_, -, hjob⟩ := bind_ok hjob
  obtain ⟨bytes, hbytes, hjob⟩ := bind_ok hjob
  iterate 6 obtain ⟨_, -, hjob⟩ := bind_ok hjob
  cases hjob
  exact hbytes

/-! ## Every endpoint -/

/-- The body of a job passed the validation of its endpoint. -/
inductive Admitted (h : Host) (t : LoraTree) : Artifact → Json → Created → Prop
  | image {raw : Json} {req : GenerateRequest h.toContext} {job : ValidatedJob} :
    GenerateRequest.ofJson h.toContext raw = some req →
    resolveAndValidate h.toSetting t req = .ok job →
    Admitted h t .image raw ⟨⟨.image, req.model, raw, req.mode, job.webhookUrl,
      job.webhookHeaders⟩, .image job⟩
  | video {task : VideoTask} {raw : Json} {req : VideoGenerateRequest h.toContext}
    {job : ValidatedVideoJob} :
    VideoGenerateRequest.ofJson h.toContext raw = some req →
    resolveAndValidateVideo h.toSetting t task req = .ok job →
    Admitted h t (.video task) raw ⟨⟨.video task, req.model, raw, req.mode, job.webhookUrl,
      job.webhookHeaders⟩, .video task job⟩

namespace Admitted

variable {artifact : Artifact} {raw : Json} {c : Created}

theorem submits (ha : Admitted h t artifact raw c) :
    submit h.toSetting t artifact raw = .ok c.submission := by
  cases ha with
  | image hreq hjob =>
    simp only [submit, hreq, hjob]
    rfl
  | video hreq hjob =>
    simp only [submit, hreq, hjob]
    rfl

theorem decodes (ha : Admitted h t artifact raw c) :
    decode h.toSetting t (.value c.stored) = .ok (decodedOf c.validated) := by
  cases ha with
  | image hreq hjob => exact decode_image hreq hjob
  | video hreq hjob => exact decode_video hreq hjob

theorem makes (ha : Admitted h t artifact raw c) :
    (decodedOf c.validated).artifact = artifact := by
  cases ha with
  | image hreq hjob => rfl
  | video hreq hjob =>
    unfold decodedOf
    dsimp only
    split_ifs <;> rfl

theorem stored_eq {task : VideoTask} (ha : Admitted h t (.video task) raw c) :
    c.stored = .obj (envelopeOf task raw) := by
  cases ha
  rfl

theorem keepsUpload {payload : String} {image : Bytes} (ha : Admitted h t artifact raw c)
    (hraw : mergedBody h payload image = .ok raw)
    (hb64 : h.b64decode (h.b64encode image) = some image) :
    initImageBytes c.validated = some image := by
  obtain ⟨mime, hmime, hlookup⟩ := lookup_mergedBody hraw
  have hdecode := decodeInitImage_dataUri hmime hb64
  cases ha with
  | image hreq hjob =>
    have hbytes := image_bytes hjob
    rw [given_of_lookup hlookup (image_initImage hreq), hdecode] at hbytes
    exact (Except.ok.inj hbytes).symm
  | video hreq hjob =>
    have hbytes := video_bytes hjob
    rw [given_of_lookup hlookup (video_initImage hreq), hdecode] at hbytes
    exact (Except.ok.inj hbytes).symm

end Admitted

theorem parseGenerate_ok {raw : Json} {req : GenerateRequest h.toContext}
    (hreq : parseGenerate h raw = .ok req) : GenerateRequest.ofJson h.toContext raw = some req := by
  unfold parseGenerate at hreq
  split at hreq
  · next heq =>
    cases hreq
    exact heq
  · cases hreq

theorem parseVideoGenerate_ok {raw : Json} {req : VideoGenerateRequest h.toContext}
    (hreq : parseVideoGenerate h raw = .ok req) :
    VideoGenerateRequest.ofJson h.toContext raw = some req := by
  unfold parseVideoGenerate at hreq
  split at hreq
  · next heq =>
    cases hreq
    exact heq
  · cases hreq

theorem admitted_of_runSyncJob {raw : Json} {req : GenerateRequest h.toContext} {c : Created}
    (hreq : parseGenerate h raw = .ok req) (hc : runSyncJob h t raw req = .ok c) :
    Admitted h t .image raw c := by
  obtain ⟨job, hjob, hc⟩ := bind_ok hc
  cases hc
  exact .image (parseGenerate_ok hreq) hjob

theorem admitted_of_runVideoJob {task : VideoTask} {raw : Json}
    {req : VideoGenerateRequest h.toContext} {c : Created}
    (hreq : parseVideoGenerate h raw = .ok req) (hc : runVideoJob h t task raw req = .ok c) :
    Admitted h t (.video task) raw c := by
  obtain ⟨job, hjob, hc⟩ := bind_ok hc
  cases hc
  exact .video (parseVideoGenerate_ok hreq) hjob

theorem admitted_of_createVideo {task : VideoTask} {body : StoredJson} {c : Created}
    (hc : createVideo h t task body = .ok c) : ∃ raw, Admitted h t (.video task) raw c := by
  obtain ⟨raw, -, hc⟩ := bind_ok hc
  obtain ⟨req, hreq, hc⟩ := bind_ok hc
  exact ⟨raw, admitted_of_runVideoJob hreq hc⟩

/-- What an endpoint creates, it has admitted; its file is in the body. -/
theorem admitted_of_create {p : Post} {c : Created} (hc : p.create h t = .ok c) :
    ∃ raw, Admitted h t p.artifact raw c ∧
      ∀ image, p.upload = some image → ∃ payload, mergedBody h payload image = .ok raw := by
  cases p with
  | image body =>
    obtain ⟨raw, -, hc⟩ := bind_ok hc
    obtain ⟨req, hreq, hc⟩ := bind_ok hc
    exact ⟨raw, admitted_of_runSyncJob hreq hc, nofun⟩
  | imageBinary body =>
    obtain ⟨raw, -, hc⟩ := bind_ok hc
    obtain ⟨req, hreq, hc⟩ := bind_ok hc
    obtain ⟨-, -, hc⟩ := bind_ok hc
    obtain ⟨-, -, hc⟩ := bind_ok hc
    exact ⟨raw, admitted_of_runSyncJob hreq hc, nofun⟩
  | imageMultipart payload file =>
    obtain ⟨raw, hraw, hc⟩ := bind_ok hc
    obtain ⟨req, hreq, hc⟩ := bind_ok hc
    refine ⟨raw, admitted_of_runSyncJob hreq hc, ?_⟩
    rintro image ⟨⟩
    exact ⟨payload, hraw⟩
  | textToVideo body =>
    obtain ⟨raw, ha⟩ := admitted_of_createVideo hc
    exact ⟨raw, ha, nofun⟩
  | imageToVideo body =>
    obtain ⟨raw, ha⟩ := admitted_of_createVideo hc
    exact ⟨raw, ha, nofun⟩
  | imageToVideoMultipart payload file =>
    obtain ⟨raw, hraw, hc⟩ := bind_ok hc
    obtain ⟨req, hreq, hc⟩ := bind_ok hc
    refine ⟨raw, admitted_of_runVideoJob hreq hc, ?_⟩
    rintro image ⟨⟩
    exact ⟨payload, hraw⟩

/-- The row that the job store keeps has the same value. -/
theorem inputJson_stored (c : Created) : c.submission.inputJson = .value c.stored := by
  unfold Submission.inputJson Created.stored
  cases c.submission.artifact <;> rfl

section Worker

variable {G : Type} {svc : worker.Service G} {s : Setting}

theorem peekFamily_of_service (hregistry : svc.getModel = s.registry) (payload : Json) :
    worker.peekFamily svc payload = peekFamily s payload := by
  unfold worker.peekFamily peekFamily
  exact hregistry ▸ rfl

/-- The pipelines of the worker on what was selected. -/
def prepareSelected (svc : worker.Service G) (jobId : String) (drawn : Nat) :
    Selected → Except PrepareFailure (worker.Prepared G)
  | .image raw => worker.prepareImage svc jobId drawn raw
  | .wan envelope => worker.prepareVideo svc jobId drawn envelope
  | .ltxv envelope => worker.prepareLtxv svc jobId drawn envelope

theorem prepare_image {row : job_store.Job} {envelope : List (String × Json)}
    (hrow : row.inputJson = .value (.obj envelope))
    (hkind : Json.get envelope "artifact_kind" ≠ .str "video") (drawn : Nat) :
    worker.prepare svc row drawn = worker.prepareImage svc row.id drawn (.obj envelope) := by
  simp only [worker.prepare, hrow]

theorem select_other {envelope : List (String × Json)}
    (hkind : Json.get envelope "artifact_kind" ≠ .str "video") :
    select s (.value (.obj envelope)) = .ok (.image (.obj envelope)) := by
  simp only [select]

/-- The worker prepares a job in the pipeline that it selects. -/
theorem prepare_select (hregistry : svc.getModel = s.registry) (row : job_store.Job)
    (drawn : Nat) : worker.prepare svc row drawn =
      select s row.inputJson >>= prepareSelected svc row.id drawn := by
  rcases hrow : row.inputJson with (raw | m | m)
  · cases raw with
    | obj envelope =>
      by_cases hkind : Json.get envelope "artifact_kind" = .str "video"
      · simp only [worker.prepare, select, hrow, hkind, peekFamily_of_service hregistry]
        rcases peekFamily s (Json.get envelope "payload") with e | (_ | family)
        · rfl
        · rfl
        · cases family <;> rfl
      · rw [prepare_image hrow hkind, select_other hkind]
        rfl
    | _ =>
      simp only [worker.prepare, hrow]
      rfl
  all_goals
    simp only [worker.prepare, hrow]
    rfl

end Worker

/-- The worker reads a job back as its endpoint accepted it. -/
structure Agrees (h : Host) (t : LoraTree) (p : Post) (c : Created) : Prop where
  decoded : decode h.toSetting t (h.loads (h.dumps c.stored)) = .ok (decodedOf c.validated)
  pipeline : (decodedOf c.validated).artifact = p.artifact
  upload : ∀ image, p.upload = some image → initImageBytes c.validated = some image

/-- Where the texts of the value that is stored and of the file that is uploaded decode
to what they encode, every job that an endpoint creates is decoded in its pipeline to the
same validated job, whose initial image is the file. -/
theorem decoding_agrees (h : Host) (t : LoraTree) (p : Post) (c : Created)
    (hc : p.create h t = .ok c) (hjson : h.loads (h.dumps c.stored) = .value c.stored)
    (hb64 : ∀ image, p.upload = some image → h.b64decode (h.b64encode image) = some image) :
    Agrees h t p c := by
  obtain ⟨raw, ha, hupload⟩ := admitted_of_create hc
  refine ⟨?_, ha.makes, ?_⟩
  · rw [hjson]
    exact ha.decodes
  · intro image himage
    obtain ⟨payload, hraw⟩ := hupload image himage
    exact ha.keepsUpload hraw (hb64 image himage)

/-- The shortest file that passes for a JPEG. -/
def jpegFile : Bytes := jpegMagic

def mergedFields : List (String × Json) :=
  [("model", .str "wan-i2v"), ("prompt", .str "a cat"),
    ("init_image", .str "data:image/jpeg;base64,/9j/")]

def payloadText : String := "\x7b\"model\": \"wan-i2v\", \"prompt\": \"a cat\"\x7d"

def storedText : String :=
  "\x7b\"artifact_kind\": \"video\", \"video_task\": \"i2v\", \"payload\": " ++
    "\x7b\"model\": \"wan-i2v\", \"prompt\": \"a cat\", " ++
    "\"init_image\": \"data:image/jpeg;base64,/9j/\"\x7d\x7d"

/-- A service with a model that makes videos of images. -/
def smallHost : Host where
  toSetting := { request_limits.smallSetting with
    registry := fun name =>
      if name = "wan-i2v" then
        some { name := "wan-i2v", workflowPath := "v.json", checkpoint := "u",
               vramEstimateGb := 10, family := .wan22,
               capabilities := [("video_gen", .bool true), ("video_task", .str "i2v")] }
      else none
    b64decode := fun encoded => if encoded = "/9j/" then some jpegFile else none }
  dumps _ := storedText
  loads encoded :=
    if encoded = payloadText then
      .value (.obj [("model", .str "wan-i2v"), ("prompt", .str "a cat")])
    else if encoded = storedText then .value (.obj (envelopeOf .i2v (.obj mergedFields)))
    else .malformed "Expecting value"
  b64encode _ := "/9j/"
  maxUploadBytes := none

theorem a_jpeg_is_decoded : ∃ c,
    (Post.imageToVideoMultipart payloadText jpegFile).create smallHost request_limits.noFiles =
      .ok c ∧
    Agrees smallHost request_limits.noFiles (.imageToVideoMultipart payloadText jpegFile) c := by
  have hpayload : smallHost.loads payloadText =
      .value (.obj [("model", .str "wan-i2v"), ("prompt", .str "a cat")]) := by
    simp only [smallHost, ↓reduceIte]
  have hmerge : mergedBody smallHost payloadText jpegFile = .ok (.obj mergedFields) := by
    rw [mergedBody, parsePayloadObject, hpayload]
    rfl
  have hstored : smallHost.loads storedText =
      .value (.obj (envelopeOf .i2v (.obj mergedFields))) := by
    have hne : storedText ≠ payloadText := by decide
    simp only [smallHost, hne, ↓reduceIte]
  have hok : (createImageToVideoMultipart smallHost request_limits.noFiles payloadText
      jpegFile).isOk = true := by
    rw [createImageToVideoMultipart, hmerge]
    decide +kernel
  rcases hc : createImageToVideoMultipart smallHost request_limits.noFiles payloadText jpegFile
    with e | c <;> rw [hc] at hok
  · cases hok
  · obtain ⟨raw, hraw, hrun⟩ := bind_ok hc
    rw [hmerge] at hraw
    cases hraw
    obtain ⟨req, hreq, hrun⟩ := bind_ok hrun
    have hvalue := (admitted_of_runVideoJob hreq hrun).stored_eq
    refine ⟨c, hc, decoding_agrees _ _ _ _ hc ?_ ?_⟩
    · rw [hvalue]
      exact hstored
    · rintro image ⟨⟩
      simp only [smallHost, ↓reduceIte]

end image_gen.stored_decoding

-- The frames of a video: how the count that was asked for is rounded up, when it
-- stays under the cap of the model, and where it stands in the graph.
import ImageGen.RequestLimits
import ImageGen.ResolvedSeed
import Mathlib.Order.Bounds.Basic

namespace image_gen.frame_count

open image_gen.coroutine image_gen.file_tree image_gen.graph image_gen.graph_edits
  image_gen.injectors image_gen.job_store image_gen.json image_gen.lora_injection
  image_gen.request_limits image_gen.resolved_seed image_gen.results image_gen.worker
open image_gen.lora_files (LoraTree)
open image_gen.request_models (VideoGenerateRequest)
open image_gen.requests (Family ModelConfig VideoTask)
open image_gen.validation (Setting limitOf normalizeLtxvNumFrames normalizeWanNumFrames
  resolveFrames validateVideo)

/-! ## Counts -/

/-- A count is one more than a multiple of this. -/
def modulus : Family → Int
  | .ltxv => 8
  | _ => 4

def fewest : Family → Int
  | .ltxv => 9
  | _ => 5

/-- What a model can make that is not less than was asked for. -/
def counts (family : Family) (requested : Int) : Set Int :=
  {k | k % modulus family = 1 ∧ requested ≤ k ∧ fewest family ≤ k}

def normalize (family : Family) (raw : Int) : Int :=
  if family = .ltxv then normalizeLtxvNumFrames raw else normalizeWanNumFrames raw

theorem normalizeWan_isLeast {family : Family} (h : family ≠ .ltxv) (raw : Int) :
    IsLeast (counts family raw) (normalizeWanNumFrames raw) := by
  have hmodulus : modulus family = 4 := by
    unfold modulus
    split
    · exact absurd rfl h
    · rfl
  have hfewest : fewest family = 5 := by
    unfold fewest
    split
    · exact absurd rfl h
    · rfl
  simp only [counts, hmodulus, hfewest]
  unfold normalizeWanNumFrames
  constructor
  · simp only [Set.mem_ofPred_eq]
    split_ifs
    · omega
    · omega
    · omega
  · rintro k ⟨hk, hraw, hleast⟩
    dsimp only
    split_ifs
    · omega
    · omega
    · omega

theorem normalizeLtxv_isLeast (raw : Int) :
    IsLeast (counts .ltxv raw) (normalizeLtxvNumFrames raw) := by
  simp only [counts, modulus, fewest]
  unfold normalizeLtxvNumFrames
  constructor
  · simp only [Set.mem_ofPred_eq]
    split_ifs
    · omega
    · omega
    · omega
  · rintro k ⟨hk, hraw, hleast⟩
    dsimp only
    split_ifs
    · omega
    · omega
    · omega

theorem normalize_isLeast (family : Family) (raw : Int) :
    IsLeast (counts family raw) (normalize family raw) := by
  unfold normalize
  by_cases h : family = .ltxv
  · rw [if_pos h, h]
    exact normalizeLtxv_isLeast raw
  · rw [if_neg h]
    exact normalizeWan_isLeast h raw

/-- The largest count under the cap is not below the request. -/
def Room (family : Family) (requested cap : Int) : Prop :=
  requested ≤ cap - (cap - 1) % modulus family ∧ fewest family ≤ cap

theorem modulus_pos (family : Family) : 0 < modulus family := by
  unfold modulus
  split <;> decide

/-- Between any request and a cap with room for it stands a count. -/
theorem least_le_iff {family : Family} {requested cap frames : Int}
    (h : IsLeast (counts family requested) frames) : frames ≤ cap ↔ Room family requested cap := by
  obtain ⟨⟨hmod, hle, hfewest⟩, hleast⟩ := h
  constructor
  · intro hcap
    refine ⟨hle.trans ?_, hfewest.trans hcap⟩
    cases family <;> simp only [modulus] at hmod ⊢ <;> omega
  · rintro ⟨hroom, hmin⟩
    have hlast : cap - (cap - 1) % modulus family ∈ counts family requested := by
      refine ⟨?_, hroom, ?_⟩
      · cases family <;> simp only [modulus] <;> omega
      · cases family <;> simp only [modulus, fewest] at hmin ⊢ <;> omega
    have hrest := Int.emod_nonneg (cap - 1) (modulus_pos family).ne'
    have hle := hleast hlast
    omega

theorem resolveFrames_ok {s : Setting} {model : ModelConfig} {raw frames : Int}
    (h : resolveFrames s model raw = .ok frames) :
    frames = normalize model.family raw ∧
      ∃ cap, limitOf s model "frames_max" 241 = .ok cap ∧ raw ≤ cap := by
  obtain ⟨cap, hcap, hrest⟩ := bind_ok h
  obtain ⟨u, hrefuse, hok⟩ := bind_ok hrest
  cases hok
  exact ⟨rfl, cap, hcap, not_lt.mp (refuseIf_ok hrefuse)⟩

/-! ## Frames in a graph -/

/-- The anchor and the input that take the frames. -/
def frameField (pipeline : Pipeline) (g : Graph) : String × String :=
  match pipeline with
  | .ltxv => ("%LTXV_FRAMES%", "value")
  | _ => ("%WAN_DIMS%", inputFor "WanImageToVideo" "length" "num_frames"
      (((owner g "%WAN_DIMS%").map (classAt g)).getD (.str "")))

def HasFrames (pipeline : Pipeline) (g : Graph) (frames : Int) : Prop :=
  Stands g (frameField pipeline g).1 (frameField pipeline g).2 frames

/-- Inputs that hold frames. -/
def frameView (_ : String) (key : String) : Bool :=
  decide (key = "length" ∨ key = "num_frames" ∨ key = "value")

theorem frameField_key (pipeline : Pipeline) (g : Graph) (id : String) :
    frameView id (frameField pipeline g).2 = true ∧ (frameField pipeline g).2 ≠ "image" := by
  unfold frameField
  split
  · exact ⟨by simp [frameView], by decide⟩
  · unfold inputFor
    split
    · exact ⟨by simp [frameView], by decide⟩
    · exact ⟨by simp [frameView], by decide⟩

theorem frameField_eq {pipeline : Pipeline} {g g' : Graph}
    (howner : ∀ anchor, owner g' anchor = owner g anchor)
    (hclass : ∀ id, classAt g' id = classAt g id) :
    frameField pipeline g' = frameField pipeline g := by
  have hsame : classAt g' = classAt g := funext hclass
  unfold frameField
  rw [howner, hsame]

theorem HasFrames.keeps {pipeline : Pipeline} {g g' : Graph} {frames : Int}
    (hs : HasFrames pipeline g frames) (h : Keeps (frameField pipeline g).2 frames g g') :
    HasFrames pipeline g' frames := by
  unfold HasFrames
  rw [frameField_eq h.owner_eq h.class_eq]
  exact h.stands hs

theorem hasFrames_ltxv {v : requests.ValidatedVideoJob} {seed : Int} {g g' : Graph}
    (h : injectLtxv v seed g = .ok g') : HasFrames .ltxv g' v.frames := by
  obtain ⟨g1, -, h⟩ := bind_ok h
  obtain ⟨g2, -, h⟩ := bind_ok h
  obtain ⟨posId, -, h⟩ := bind_ok h
  obtain ⟨negId, -, h⟩ := bind_ok h
  obtain ⟨g3, -, h⟩ := bind_ok h
  obtain ⟨g4, -, h⟩ := bind_ok h
  obtain ⟨g5, -, h⟩ := bind_ok h
  obtain ⟨g6, h6, h⟩ := bind_ok h
  have hstands : Stands g6 "%LTXV_FRAMES%" "value" v.frames :=
    stands_injectAt (by simp) (by simp) h6
  have hview : view frameView g' = view frameView g6 := view_assignIfFound (by simp [frameView]) h
  exact (keeps_of_view (fun _ => rfl) hview _).stands hstands

theorem hasFrames_dims {v : requests.ValidatedVideoJob} {g g' : Graph}
    (h : injectDims v g = .ok g') : HasFrames .wan g' v.frames := by
  obtain ⟨dimsId, hid, h⟩ := bind_ok h
  have howner := findAnchor_ok hid
  obtain ⟨hdict, hwrite⟩ := assign_ok h
  have hfield : frameField .wan g' =
      ("%WAN_DIMS%", inputFor "WanImageToVideo" "length" "num_frames" (classAt g dimsId)) := by
    rw [frameField_eq (g := g)]
    · simp only [frameField, howner, Option.map_some, Option.getD_some]
    · rw [hwrite]
      exact owner_write g dimsId _
    · rw [hwrite]
      exact classAt_same (K := fun _ _ => false) (view_write fun _ _ => rfl)
  unfold HasFrames
  rw [hfield]
  refine stands_assign howner ?_ ?_ h
  · unfold inputFor
    split <;> simp
  · unfold inputFor
    split <;> simp [List.lookup_cons]

theorem hasFrames_wan {py : Builtins} {v : requests.ValidatedVideoJob} {seed : Int}
    {g g' : Graph} (h : injectWanRequest py v seed g = .ok g') : HasFrames .wan g' v.frames := by
  obtain ⟨g1, -, h⟩ := bind_ok h
  obtain ⟨g2, h2, h⟩ := bind_ok h
  obtain ⟨g3, h3, h⟩ := bind_ok h
  obtain ⟨g4, h4, h⟩ := bind_ok h
  have hfree : Free frameView samplerInputs := fun _ => by
    unfold frameView
    decide
  have hview : view frameView g' = view frameView g2 := by
    rw [view_injectMmaudioSampler hfree h, view_assignIfFound (by simp [frameView]) h4,
      view_injectSampler hfree h3]
  exact (hasFrames_dims h2).keeps
    (keeps_of_view (fun id => (frameField_key .wan g2 id).1) hview _)

/-! ## The submitted graph -/

/-- The frames of a job that is ready for its graph. -/
def framesOf : Validated → Option Nat
  | .image _ => none
  | .ltxv v => some v.frames
  | .wan v _ => some v.frames

section Jobs

variable {py : Builtins} {files : Path → WorkflowFile} {cwd : Path} {svc : Service Graph}
  {row : Job}

theorem hasFrames_graphOf {req : Validated} {seed : Int} {g : Graph} {frames : Nat}
    (hframes : framesOf req = some frames) (h : graphOf py files cwd seed req = .ok g) :
    HasFrames req.pipeline g frames := by
  cases req with
  | image v => cases hframes
  | ltxv v =>
    cases hframes
    obtain ⟨template, -, h⟩ := bind_ok h
    exact hasFrames_ltxv (mapError_ok h)
  | wan v task =>
    cases hframes
    obtain ⟨template, -, h⟩ := bind_ok h
    obtain ⟨weighted, -, h⟩ := bind_ok h
    exact hasFrames_wan (mapError_ok h)

/-- A stored video that could be prepared has passed the validation of the worker. -/
theorem accepts_of_prepare {envelope payload : List (String × Json)} {task : VideoTask}
    {drawn : Nat} {p : Prepared Graph} (hrow : row.inputJson = .value (.obj envelope))
    (hkind : Json.get envelope "artifact_kind" = .str "video")
    (hopen : videoEnvelope envelope = .ok (task, payload))
    (h : prepare (wired py files cwd svc) row drawn = .ok p) :
    ∃ v req, svc.validateVideo payload task = .ok v ∧ Accepts svc row req ∧
      framesOf req = some v.frames := by
  unfold prepare at h
  rw [hrow] at h
  simp only [hkind] at h
  obtain ⟨family, hfamily, h⟩ := bind_ok h
  have hpeek : peekFamily svc (Json.get envelope "payload") = .ok family := hfamily
  split at h
  · unfold prepareLtxv at h
    rw [hopen, ok_bind] at h
    obtain ⟨v, hvalid, -⟩ := bind_ok h
    have hv : svc.validateVideo payload task = .ok v := mapError_ok hvalid
    exact ⟨v, .ltxv v, hv, .ltxv hrow hkind hpeek hopen hv, rfl⟩
  · next hne =>
    unfold prepareVideo at h
    rw [hopen, ok_bind] at h
    obtain ⟨v, hvalid, -⟩ := bind_ok h
    have hv : svc.validateVideo payload task = .ok v := mapError_ok hvalid
    exact ⟨v, .wan v task, hv, .wan hrow hkind hpeek hne hopen hv, rfl⟩

theorem submits_frames {envelope payload : List (String × Json)} {task : VideoTask}
    (hrow : row.inputJson = .value (.obj envelope))
    (hkind : Json.get envelope "artifact_kind" = .str "video")
    (hopen : videoEnvelope envelope = .ok (task, payload)) :
    (runPipeline (wired py files cwd svc) row).All fun op => ∀ model g,
      op = .call (.submit model g) → ∃ v req, svc.validateVideo payload task = .ok v ∧
        Accepts svc row req ∧ HasFrames req.pipeline g v.frames := by
  refine (submits_prepared (wired py files cwd svc) row).mono fun op hop model g hg => ?_
  obtain ⟨drawn, p, hp, hfinal⟩ := hop model g hg
  obtain ⟨v, req, hv, ha, hframes⟩ := accepts_of_prepare hrow hkind hopen hp
  have hprepared := hasFrames_graphOf hframes (prepared_of_accepted ha hp).1
  refine ⟨v, req, hv, ha, ?_⟩
  unfold submittedGraph at hfinal
  split at hfinal
  · cases hfinal
    exact hprepared
  · exact hprepared.keeps (keeps_injectInitImage (frameField_key _ _ "").2 hfinal)

end Jobs

/-! ## Every request -/

/-- The worker validates as the service does. -/
def Serves (s : Setting) (t : LoraTree) (svc : Service Graph) : Prop :=
  ∀ payload task v, svc.validateVideo payload task = .ok v →
    ∃ job, validateVideo s t task (.obj payload) = .ok job ∧ (v.frames : Int) = job.frames

/-- The frames of an accepted video and of the graphs that its job submits. -/
structure FramesHold (s : Setting) (t : LoraTree) (py : Builtins) (files : Path → WorkflowFile)
    (cwd : Path) (svc : Service Graph) (task : VideoTask) (payload : List (String × Json))
    (job : validation.ValidatedVideoJob) : Prop where
  count : ∃ req, VideoGenerateRequest.ofJson s.toContext (.obj payload) = some req ∧
    IsLeast (counts job.model.family req.frames) job.frames
  capped : ∃ cap, limitOf s job.model "frames_max" 241 = .ok cap ∧ job.frames ≤ cap
  graph : ∀ (r : requests.Submission) id now, r.artifact = .video task → r.raw = .obj payload →
    (runPipeline (wired py files cwd svc) (r.row id now)).All fun op => ∀ model g,
      op = .call (.submit model g) → ∃ req, Accepts svc (r.row id now) req ∧
        HasFrames req.pipeline g job.frames

/-- The cap of the model leaves room for the frames that are asked for. -/
def FramesFit (s : Setting) (payload : List (String × Json)) : Prop :=
  ∃ req model cap, VideoGenerateRequest.ofJson s.toContext (.obj payload) = some req ∧
    s.registry req.model = some model ∧ limitOf s model "frames_max" 241 = .ok cap ∧
    Room model.family req.frames cap

theorem frames_hold_iff {s : Setting} {t : LoraTree} {py : Builtins} {files : Path → WorkflowFile}
    {cwd : Path} {svc : Service Graph} {task : VideoTask} {payload : List (String × Json)}
    {job : validation.ValidatedVideoJob} (hserves : Serves s t svc)
    (h : validateVideo s t task (.obj payload) = .ok job) :
    FramesHold s t py files cwd svc task payload job ↔ FramesFit s payload := by
  have hvalid := h
  unfold validateVideo at h
  rcases hreq : VideoGenerateRequest.ofJson s.toContext (.obj payload) with _ | req <;>
    rw [hreq] at h
  · cases h
  · have hc := resolveAndValidateVideo_checked h
    obtain ⟨hframes, cap, hcap, -⟩ := resolveFrames_ok hc.frames
    have hleast := normalize_isLeast job.model.family req.frames
    rw [← hframes] at hleast
    constructor
    · rintro ⟨-, ⟨cap', hcap', hle⟩, -⟩
      exact ⟨req, job.model, cap', hreq, hc.model, hcap', (least_le_iff hleast).mp hle⟩
    · rintro ⟨req', model, cap', hreq', hmodel, hcap', hroom⟩
      cases hreq.symm.trans hreq'
      cases hc.model.symm.trans hmodel
      refine ⟨⟨req, hreq, hleast⟩, ⟨cap', hcap', (least_le_iff hleast).mpr hroom⟩, ?_⟩
      intro r id now hartifact hraw
      have hrow : (r.row id now).inputJson = .value (.obj [("artifact_kind", .str "video"),
          ("video_task", .str task.text), ("payload", .obj payload)]) := by
        simp [requests.Submission.row, requests.Submission.inputJson, Job.fresh, hartifact, hraw]
      have hopen : videoEnvelope [("artifact_kind", .str "video"), ("video_task", .str task.text),
          ("payload", .obj payload)] = .ok (task, payload) := by
        cases task <;> rfl
      refine (submits_frames hrow rfl hopen).mono ?_
      intro op hop model g hg
      obtain ⟨v, req', hv, ha, hhas⟩ := hop model g hg
      obtain ⟨job', hjob', hsame⟩ := hserves payload task v hv
      cases hvalid.symm.trans hjob'
      rw [hsame] at hhas
      exact ⟨req', ha, hhas⟩

/-! ## A worker that serves -/

/-- A validated video as the worker holds it. -/
def forWorker (job : validation.ValidatedVideoJob) : requests.ValidatedVideoJob where
  model := job.model
  prompt := job.prompt
  negativePrompt := job.negativePrompt
  width := job.width
  height := job.height
  frames := job.frames.toNat
  fps := job.fps
  steps := job.steps
  cfg := job.cfg
  shift := job.shift
  seed := job.seed
  scheduler := job.scheduler
  riflexFreqIndex := job.riflexFreqIndex
  forceOffload := job.forceOffload
  generateAudio := job.generateAudio
  resolvedWorkflowPath := job.resolvedWorkflowPath
  responseFormat := job.responseFormat
  timeoutS := job.timeoutS
  initImageBytes := job.initImageBytes
  loras := job.loras
  wanAdvanced := job.wanAdvanced

def serving (s : Setting) (t : LoraTree) (svc : Service Graph) : Service Graph :=
  { svc with
    validateVideo := fun payload task => (validateVideo s t task (.obj payload)).map forWorker }

theorem frames_pos {s : Setting} {t : LoraTree} {task : VideoTask} {raw : Json}
    {job : validation.ValidatedVideoJob} (h : validateVideo s t task raw = .ok job) :
    0 ≤ job.frames := by
  unfold validateVideo at h
  split at h
  · next req _ =>
    have hframes := (resolveFrames_ok (resolveAndValidateVideo_checked h).frames).1
    have hfewest := (normalize_isLeast job.model.family req.frames).1.2.2
    rw [hframes]
    refine le_trans ?_ hfewest
    unfold fewest
    split <;> decide
  · cases h

theorem serving_serves (s : Setting) (t : LoraTree) (svc : Service Graph) :
    Serves s t (serving s t svc) := by
  intro payload task v hv
  obtain ⟨job, hjob, rfl⟩ := map_ok hv
  exact ⟨job, hjob, Int.toNat_of_nonneg (frames_pos hjob)⟩

/-- The service with the entry of the video model changed to this cap. -/
def cappedSetting (cap : Int) : Setting :=
  { smallSetting with
    registry := fun name => (smallSetting.registry name).map fun model =>
      { model with limits := [("frames_max", .int cap)] }
    lower_decimal := py_str.ascii_lower_decimal }

def framesBody (frames : Int) : List (String × Json) :=
  [("model", .str "wan"), ("prompt", .str "a cat"), ("frames", .int frames)]

theorem frames_hold_ninety_seven : ∃ job,
    validateVideo (cappedSetting 100) noFiles .t2v (.obj (framesBody 97)) = .ok job ∧
      FramesHold (cappedSetting 100) noFiles asciiBuiltins ltxFiles ["app"]
        (serving (cappedSetting 100) noFiles ltxService) .t2v (framesBody 97) job := by
  have hok : (validateVideo (cappedSetting 100) noFiles .t2v
      (.obj (framesBody 97))).isOk = true := by
    decide +kernel
  rcases hjob : validateVideo (cappedSetting 100) noFiles .t2v
    (.obj (framesBody 97)) with e | job <;> rw [hjob] at hok
  · cases hok
  · refine ⟨job, rfl, (frames_hold_iff (serving_serves _ _ _) hjob).mpr ?_⟩
    exact ⟨_, _, 100, rfl, rfl, rfl, by decide, by decide⟩

/-- 99 frames become 101, and the model takes 100. -/
theorem ninety_nine_frames_pass_a_cap_of_a_hundred : ∃ job,
    validateVideo (cappedSetting 100) noFiles .t2v (.obj (framesBody 99)) = .ok job ∧
      job.frames = 101 ∧ limitOf (cappedSetting 100) job.model "frames_max" 241 = .ok 100 ∧
      ¬ FramesHold (cappedSetting 100) noFiles asciiBuiltins ltxFiles ["app"]
        (serving (cappedSetting 100) noFiles ltxService) .t2v (framesBody 99) job := by
  have hframes : (validateVideo (cappedSetting 100) noFiles .t2v
      (.obj (framesBody 99))).toOption.map (fun job => (job.frames, job.model.limits.length)) =
        some (101, 1) := by
    decide +kernel
  rcases hjob : validateVideo (cappedSetting 100) noFiles .t2v
    (.obj (framesBody 99)) with e | job <;> rw [hjob] at hframes
  · cases hframes
  · have h101 : job.frames = 101 := by
      simp [Except.toOption] at hframes
      exact hframes.1
    have hcap : limitOf (cappedSetting 100) job.model "frames_max" 241 = .ok 100 := by
      have hmodel : (cappedSetting 100).registry "wan" = some job.model := by
        have hvalid := hjob
        unfold validateVideo at hvalid
        split at hvalid
        · next req hreq =>
          have hname : req.model = "wan" := by
            cases hreq
            rfl
          rw [← hname]
          exact (resolveAndValidateVideo_checked hvalid).model
        · cases hvalid
      have hmodel' := Option.some.inj hmodel
      rw [← hmodel']
      rfl
    refine ⟨job, rfl, h101, hcap, fun hold => ?_⟩
    obtain ⟨cap, hcap', hle⟩ := hold.capped
    rw [hcap] at hcap'
    cases hcap'
    omega

end image_gen.frame_count

-- No accepted LoRA is dropped: which LoRAs the graph of a video job carries when
-- it is submitted, over the three ways to put them there.
import ImageGen.LoraSlots
import ImageGen.ModelSwap

namespace image_gen.lora_injection

open image_gen.coroutine image_gen.file_tree image_gen.graph image_gen.graph_edits
  image_gen.injectors image_gen.json image_gen.job_store image_gen.lora_chain
  image_gen.lora_paths image_gen.lora_slots image_gen.py_dict image_gen.requests
  image_gen.results image_gen.worker

/-! ## LTX -/

/-- All LoRA loaders of a graph. -/
def loaders (g : Graph) : List Entry :=
  (g.filter fun e => isLoraLoader e.2.classType).map fun e =>
    (e.2.inputs.get "lora_name", e.2.inputs.get "strength_model")

/-- An LTX graph has neither slots nor a place for a chain: its loaders are the
LoRAs, in any order. -/
def CarriesLtxv (g : Graph) (loras : List ResolvedLoraRef) : Prop :=
  (loaders g).Perm (loras.map entry)

/-! ## The edits after the injection -/

section After

variable {template g g' : Graph}

/-- The inputs that a walk reads. -/
def chainInputs (_ : String) (key : String) : Bool :=
  decide (key ∈ ["model", "lora_name", "strength_model"])

theorem sameReads_of_view (h : view chainInputs g' = view chainInputs g) : SameReads g g' where
  length := by
    have hlen := congrArg List.length (ids_same h)
    simpa using hlen
  classAt := classAt_same h
  get id key hkey := get_same h (by simpa [chainInputs] using hkey)

/-- The initial image is one more input of a node. -/
theorem injectInitImage_spec {filename : String} (h : injectInitImage g filename = .ok g') :
    ∃ f : String × Node → Node, g' = g.map (fun e => (e.1, f e)) ∧
      ∀ e, (f e).classType = e.2.classType ∧
        ∀ key, key ≠ "image" → (f e).inputs.get key = e.2.inputs.get key := by
  unfold injectInitImage at h
  split at h
  · cases h
    exact ⟨fun e => e.2, by simp, fun e => ⟨rfl, fun _ _ => rfl⟩⟩
  · split at h
    · cases h
    · cases h
      refine ⟨_, rfl, fun e => ?_⟩
      split
      · refine ⟨rfl, fun key hkey => ?_⟩
        dsimp only
        rw [get_write_ne (by simpa using Ne.symm hkey)]
        cases e.2.inputs <;> rfl
      · exact ⟨rfl, fun _ _ => rfl⟩

theorem initImage_reads {filename : String} (h : injectInitImage g filename = .ok g')
    (id : String) : classAt g' id = classAt g id ∧
      ∀ key, key ≠ "image" → (inputsAt g' id).get key = (inputsAt g id).get key := by
  obtain ⟨f, rfl, hf⟩ := injectInitImage_spec h
  have hlookup : (g.map fun e => (e.1, f e)).lookup id =
      (g.lookup id).map fun node => f (id, node) := by
    clear h
    induction g with
    | nil => rfl
    | cons e rest ih =>
      obtain ⟨k, node⟩ := e
      rw [List.map_cons]
      by_cases hk : id = k
      · subst hk
        simp
      · rw [lookup_cons_ne _ _ hk, lookup_cons_ne _ _ hk, ih]
  unfold classAt inputsAt
  rw [hlookup]
  cases g.lookup id with
  | none => exact ⟨rfl, fun _ _ => rfl⟩
  | some node => exact hf (id, node)

theorem sameReads_injectInitImage {filename : String}
    (h : injectInitImage g filename = .ok g') : SameReads g g' where
  length := by
    obtain ⟨f, rfl, -⟩ := injectInitImage_spec h
    exact List.length_map _
  classAt id := (initImage_reads h id).1
  get id key hkey := by
    apply (initImage_reads h id).2
    rintro rfl
    simp at hkey

theorem loaders_injectInitImage {filename : String} (h : injectInitImage g filename = .ok g') :
    loaders g' = loaders g := by
  obtain ⟨f, rfl, hf⟩ := injectInitImage_spec h
  unfold loaders
  rw [List.filter_map, List.map_map]
  have hfilter : (fun e => isLoraLoader e.2.classType) ∘ (fun e => (e.1, f e)) =
      fun e : String × Node => isLoraLoader e.2.classType := by
    funext e
    simp only [Function.comp_apply, (hf e).1]
  rw [hfilter]
  apply List.map_congr_left
  intro e _
  simp only [Function.comp_apply, (hf e).2 "lora_name" (by decide),
    (hf e).2 "strength_model" (by decide)]

theorem loaders_view (K : String → String → Bool)
    (hK : ∀ id, K id "lora_name" = true ∧ K id "strength_model" = true) (g : Graph) :
    loaders (view K g) = loaders g := by
  unfold loaders view
  rw [List.filter_map, List.map_map]
  apply List.map_congr_left
  intro e _
  simp only [Function.comp_apply, viewNode, get_viewInputs (hK e.1).1, get_viewInputs (hK e.1).2]

end After

/-! ## The graph of a job -/

section Jobs

/-- The prepared graph, with the initial image when the job has one. -/
def submittedGraph (svc : Service Graph) (p : Prepared Graph) : Except GraphError Graph :=
  match p.initImage with
  | none => .ok p.graph
  | some _ => svc.injectInitImage p.graph p.initFilename

def Carries (family : Option Family) (template g : Graph) (loras : List ResolvedLoraRef) : Prop :=
  match family with
  | some .ltxv => CarriesLtxv g loras
  | _ => if isCore template then CarriesCore template g loras else CarriesLegacy template g loras

/-- The condition on the template and the job. -/
def Fits (py : Builtins) (family : Option Family) (template : Graph) (v : ValidatedVideoJob)
    (task : VideoTask) : Prop :=
  match family with
  | some .ltxv => CarriesLtxv template v.loras
  | _ =>
    if isCore template then
      if isDual template then FitsDual py template v.loras else FitsSingle template v.loras
    else FitsLegacy template v.loras v.wanAdvanced task

variable {template g g' : Graph}

theorem weighted_of_weights {py : Builtins} {cfg : ModelConfig} {g1 : Graph}
    (h1 : injectVideoWeights py cfg template = .ok g1)
    (h2 : injectMmaudioWeights cfg g1 = .ok g) : Weighted template g := by
  have hfree : Free (fun id key => decide (id ∉ experts template ∧ key = "model"))
      weightInputs := by
    intro id key hkey
    have hne : key ≠ "model" := by
      rintro rfl
      exact absurd hkey (by decide)
    simp [hne]
  apply weighted_of_view
  rw [view_injectMmaudioWeights hfree h2]
  refine view_injectVideoWeights hfree (fun id hid => ?_) (fun id hid => ?_) h1
  · simp [mem_experts_model hid]
  · simp [mem_experts_low hid]

theorem injectWan_ok {py : Builtins} {v : ValidatedVideoJob} {task : VideoTask}
    (h : injectWan py v task template = .ok g) :
    ∃ gm gc, Weighted template gm ∧ applyWanAdvancedPatches v.wanAdvanced task gc = .ok g ∧
      (isCore template = true ∧ injectWanCoreLoras py v.loras gm = .ok gc ∨
        isCore template = false ∧ injectWanLoraMulti v.loras v.wanAdvanced gm = .ok gc) := by
  obtain ⟨g1, h1, h⟩ := bind_ok h
  obtain ⟨gm, h2, h⟩ := bind_ok h
  have hw := weighted_of_weights h1 h2
  dsimp only at h
  split at h
  · rename_i hcore
    obtain ⟨gc, h3, h⟩ := bind_ok h
    exact ⟨gm, gc, hw, h, Or.inl ⟨hcore, h3⟩⟩
  · rename_i hcore
    obtain ⟨gc, h3, h⟩ := bind_ok h
    exact ⟨gm, gc, hw, h, Or.inr ⟨by simpa using hcore, h3⟩⟩

theorem slots_congr {id : String}
    (h : ∀ i, i < wanMaxLoras →
      (inputsAt g' id).get (slotName i) = (inputsAt g id).get (slotName i) ∧
      (inputsAt g' id).get (slotStrength i) = (inputsAt g id).get (slotStrength i)) :
    slots (inputsAt g' id) = slots (inputsAt g id) := by
  apply List.filterMap_congr
  intro i hi
  obtain ⟨hname, hstrength⟩ := h i (List.mem_range.mp hi)
  rw [hname, hstrength]

theorem carriesLegacy_congr {loras : List ResolvedLoraRef}
    (h : ∀ id i, i < wanMaxLoras →
      (inputsAt g' id).get (slotName i) = (inputsAt g id).get (slotName i) ∧
      (inputsAt g' id).get (slotStrength i) = (inputsAt g id).get (slotStrength i)) :
    CarriesLegacy template g' loras ↔ CarriesLegacy template g loras := by
  unfold CarriesLegacy
  cases owner template "%WAN_LORA_MULTI%" with
  | none => rfl
  | some id => simp only [slots_congr (h id)]

/-- The WAN pipeline, up to the upload of the initial image. -/
theorem wan_iff {py : Builtins} {v : ValidatedVideoJob} {task : VideoTask} {seed : Int}
    {gw : Graph} (hwan : injectWan py v task template = .ok gw)
    (hrequest : injectWanRequest py v seed gw = .ok g) {family : Option Family}
    (hfamily : family ≠ some .ltxv) :
    Carries family template g v.loras ↔ Fits py family template v task := by
  obtain ⟨gm, gc, hw, hadv, hcase⟩ := injectWan_ok hwan
  have hchain : view chainInputs g = view chainInputs gc := by
    have hfree : Free chainInputs requestInputs := fun _ => by unfold chainInputs; decide
    have hsections : Free chainInputs sectionInputs := fun _ => by unfold chainInputs; decide
    have hclips : Free chainInputs clipEncodeOptions := fun _ => by unfold chainInputs; decide
    rw [view_injectWanRequest hfree hrequest]
    refine view_applyWanAdvancedPatches hsections (fun id _ patch hpatch => ?_) hadv
    exact hclips.patch (mem_options (forI2v_some hpatch).2) id
  have hslot : view slotView g = view slotView gw :=
    view_injectWanRequest (fun _ => by unfold slotView; decide) hrequest
  have hsplit : Carries family template g v.loras ↔
      if isCore template then CarriesCore template g v.loras
      else CarriesLegacy template g v.loras := by
    unfold Carries
    split
    · exact absurd rfl hfamily
    · rfl
  have hfits : Fits py family template v task ↔
      if isCore template then
        if isDual template then FitsDual py template v.loras else FitsSingle template v.loras
      else FitsLegacy template v.loras v.wanAdvanced task := by
    unfold Fits
    split
    · exact absurd rfl hfamily
    · rfl
  rw [hsplit, hfits]
  rcases hcase with ⟨hcore, hloras⟩ | ⟨hcore, hmulti⟩
  · rw [if_pos hcore, if_pos hcore, carriesCore_congr (sameReads_of_view hchain),
      core_iff hw hloras]
  · rw [hcore]
    exact (carriesLegacy_congr fun id i hi => get_slotView hslot id hi).trans
      (legacy_iff hw hmulti hadv)

theorem ltxv_iff {py : Builtins} {v : ValidatedVideoJob} {task : VideoTask} {seed : Int}
    (h : injectLtxv v seed template = .ok g) :
    Carries (some .ltxv) template g v.loras ↔ Fits py (some .ltxv) template v task := by
  have hview : view chainInputs g = view chainInputs template :=
    view_injectLtxv (fun _ => by unfold chainInputs; decide) h
  have hK : ∀ id, chainInputs id "lora_name" = true ∧ chainInputs id "strength_model" = true :=
    fun id => by unfold chainInputs; decide
  unfold Carries Fits CarriesLtxv
  rw [← loaders_view chainInputs hK g, hview, loaders_view chainInputs hK]

theorem carries_injectInitImage {family : Option Family} {filename : String}
    (h : injectInitImage g filename = .ok g') (loras : List ResolvedLoraRef) :
    Carries family template g' loras ↔ Carries family template g loras := by
  have hslots : ∀ id i, i < wanMaxLoras →
      (inputsAt g' id).get (slotName i) = (inputsAt g id).get (slotName i) ∧
      (inputsAt g' id).get (slotStrength i) = (inputsAt g id).get (slotStrength i) := by
    intro id i _
    have hread := (initImage_reads h id).2
    refine ⟨hread _ fun heq => ?_, hread _ fun heq => ?_⟩ <;>
    · have hlists := congrArg String.toList heq
      simp [slotName, slotStrength] at hlists
  unfold Carries CarriesLtxv
  rw [loaders_injectInitImage h, carriesCore_congr (sameReads_injectInitImage h),
    carriesLegacy_congr hslots]

end Jobs

/-! ## The runs of a worker -/

section Runs

variable {svc : Service Graph} {job : Job}

/-- An operation that submits nothing, or the graph of the prepared job. -/
def SubmitsFor (svc : Service Graph) (p : Prepared Graph) (op : Op Graph) : Prop :=
  ∀ model g, op = .call (.submit model g) → submittedGraph svc p = .ok g

theorem submitsFor_of_silent {p : Prepared Graph} {op : Op Graph} (h : model_swap.Silent op) :
    SubmitsFor svc p op := by
  rintro model g rfl
  exact h.elim

theorem submitsFor_of_afterSubmit {p : Prepared Graph} {op : Op Graph}
    (h : model_swap.AfterSubmit op) : SubmitsFor svc p op := by
  rintro model g rfl
  rcases h with h | ⟨name, h⟩ | h
  · cases h
  · cases h
  · exact h.elim

theorem gives_uploadInitImage (p : Prepared Graph) :
    (uploadInitImage svc job p).Gives fun g => submittedGraph svc p = .ok g := by
  unfold uploadInitImage submittedGraph
  cases p.initImage with
  | none => exact rfl
  | some imageBytes =>
    exact Co.gives_bind _ fun _ => Co.gives_ofExcept fun g hg => mapError_ok hg

theorem submitsFor_enforceSwap (p : Prepared Graph) (m : ModelConfig) :
    (enforceSwap svc job m).All (SubmitsFor svc p) := by
  have hask : ∀ op : Op Graph, (∀ model g, op ≠ .call (.submit model g)) →
      (ask op).All (SubmitsFor svc p) :=
    fun op hop => (Co.all_call op).mpr fun model g h => absurd h (hop model g)
  have hheadroom : (hasSwapHeadroom svc m).All (SubmitsFor svc p) := by
    unfold hasSwapHeadroom
    split
    · refine Co.all_bind (Co.all_tryCatch (Co.all_bind (hask _ (by simp)) fun _ => trivial) ?_) ?_
      · intro e
        split <;> trivial
      · intro snapshot
        split
        · trivial
        · exact Co.all_bind (hask _ (by simp)) fun _ => trivial
    · trivial
  unfold enforceSwap
  refine Co.all_bind (hask _ (by simp)) fun last => ?_
  split
  · trivial
  · split
    · trivial
    · refine Co.all_bind (hask _ (by simp)) fun unloaded => ?_
      split
      · trivial
      · refine Co.all_bind hheadroom fun ok => ?_
        split
        · trivial
        · exact (model_swap.silent_failJob _ _ _ _).mono fun _ => submitsFor_of_silent

theorem submitsFor_runPrepared (p : Prepared Graph) :
    (runPrepared svc job p).All (SubmitsFor svc p) := by
  unfold runPrepared generate
  refine Co.all_bind ?_ fun promptId => ?_
  · refine Co.all_bind_gives (model_swap.silent_uploadInitImage.mono fun _ => submitsFor_of_silent)
      (gives_uploadInitImage p) fun graph hgraph => ?_
    refine Co.all_bind (submitsFor_enforceSwap p p.model) fun _ => ?_
    refine Co.all_bind ?_ fun promptId => ?_
    · refine Co.all_tryCatch ((Co.all_call _).mpr ?_) fun e => ?_
      · rintro model g h
        cases h
        exact hgraph
      · split
        · exact (model_swap.silent_failJob _ _ _ _).mono fun _ => submitsFor_of_silent
        · exact (model_swap.silent_failJob _ _ _ _).mono fun _ => submitsFor_of_silent
        · trivial
    · have hafter : ∀ {α : Type} {q : Prog Graph α}, q.All model_swap.AfterSubmit →
          q.All (SubmitsFor svc p) := fun h => h.mono fun _ => submitsFor_of_afterSubmit
      refine Co.all_bind (hafter (model_swap.afterSubmit_markRunning _)) fun _ => ?_
      refine Co.all_bind (Co.all_ofExcept _) fun timeoutS => ?_
      exact Co.all_bind (hafter (model_swap.afterSubmit_awaitCompletion _ _)) fun _ => trivial
  · split
    · exact (model_swap.afterSubmit_deliverImages _ _).mono fun _ => submitsFor_of_afterSubmit
    · exact (model_swap.afterSubmit_deliverMedia _ _ _).mono fun _ => submitsFor_of_afterSubmit

/-- Every graph that a run submits is the one that its preparation finished. -/
theorem submits_prepared (svc : Service Graph) (job : Job) :
    (runPipeline svc job).All fun op => ∀ model g, op = .call (.submit model g) →
      ∃ drawn p, prepare svc job drawn = .ok p ∧ submittedGraph svc p = .ok g := by
  unfold runPipeline
  refine Co.all_bind (model_swap.silent_randbelow.mono ?_) fun drawn => ?_
  · rintro op hop model g rfl
    exact hop.elim
  · split
    · refine (model_swap.silent_raiseFailure _).mono ?_
      rintro op hop model g rfl
      exact hop.elim
    · rename_i p hp
      exact (submitsFor_runPrepared p).mono fun op hop model g h => ⟨drawn, p, hp, hop model g h⟩

/-- A prepared job without an initial image is submitted when no model swap is due. -/
theorem prepared_submits {P : Op Graph → Prop} {drawn : Nat} {p : Prepared Graph}
    (h : (runPipeline svc job).All P) (hp : prepare svc job drawn = .ok p)
    (himage : p.initImage = none) : P (.call (.submit p.model.name p.graph)) := by
  unfold runPipeline at h
  have hdrawn := (Co.all_call_bind h).2 drawn
  rw [hp] at hdrawn
  have hupload : uploadInitImage svc job p = pure p.graph := by
    rw [uploadInitImage, himage]
  dsimp only at hdrawn
  unfold runPrepared generate at hdrawn
  rw [hupload] at hdrawn
  exact (hdrawn.2 (.ok none)).1

end Runs

/-! ## Accepted jobs -/

section Accepted

variable {py : Builtins} {files : Path → WorkflowFile} {cwd : Path} {svc : Service Graph}
  {job : Job}

/-- A stored video job that passes its validation, with the template that it
names. -/
structure AcceptedVideo (py : Builtins) (files : Path → WorkflowFile) (cwd : Path)
    (svc : Service Graph) (job : Job) where
  envelope : List (String × Json)
  stored : job.inputJson = .value (.obj envelope)
  video : Json.get envelope "artifact_kind" = .str "video"
  /-- Of the model that the payload names. -/
  family : Option Family
  peeked : peekFamily svc (Json.get envelope "payload") = .ok family
  task : VideoTask
  payload : List (String × Json)
  opened : videoEnvelope envelope = .ok (task, payload)
  validated : ValidatedVideoJob
  valid : svc.validateVideo payload task = .ok validated
  template : Graph
  loaded : loadWorkflow py files cwd validated.resolvedWorkflowPath = .ok template

theorem carries_prepared (a : AcceptedVideo py files cwd svc job) {drawn : Nat}
    {p : Prepared Graph} (h : prepare (wired py files cwd svc) job drawn = .ok p) :
    Carries a.family a.template p.graph a.validated.loras ↔
      Fits py a.family a.template a.validated a.task := by
  unfold prepare at h
  rw [a.stored] at h
  simp only [a.video] at h
  obtain ⟨family, hpeek, h⟩ := bind_ok h
  obtain rfl : family = a.family := Except.ok.inj (hpeek.symm.trans a.peeked)
  have hload : ∀ {α : Type} {f : Graph → Except PrepareFailure α} {x : α},
      ((wired py files cwd svc).loadWorkflow a.validated.resolvedWorkflowPath).mapError
        GraphError.escape >>= f = .ok x → f a.template = .ok x := by
    intro α f x hx
    obtain ⟨t, ht, hx⟩ := bind_ok hx
    obtain rfl : t = a.template := Except.ok.inj ((mapError_ok ht).symm.trans a.loaded)
    exact hx
  split at h
  · rename_i hltxv
    rw [hltxv]
    unfold prepareLtxv at h
    rw [a.opened] at h
    obtain ⟨request, hrequest, h⟩ := bind_ok h
    cases hrequest
    obtain ⟨v, hv, h⟩ := bind_ok h
    obtain rfl : v = a.validated := Except.ok.inj ((mapError_ok hv).symm.trans a.valid)
    obtain ⟨g, hg, h⟩ := bind_ok (hload h)
    cases h
    exact ltxv_iff (mapError_ok hg)
  · rename_i hother
    unfold prepareVideo at h
    rw [a.opened] at h
    obtain ⟨request, hrequest, h⟩ := bind_ok h
    cases hrequest
    obtain ⟨v, hv, h⟩ := bind_ok h
    obtain rfl : v = a.validated := Except.ok.inj ((mapError_ok hv).symm.trans a.valid)
    obtain ⟨gw, hgw, h⟩ := bind_ok (hload h)
    obtain ⟨g, hg, h⟩ := bind_ok h
    cases h
    exact wan_iff (mapError_ok hgw) (mapError_ok hg) hother

/-- In every run of an accepted video job, whatever the backend and the store
answer, a graph that is submitted carries exactly the LoRAs of the job if and
only if they fit its template. -/
theorem submitted_loras_iff_fit (a : AcceptedVideo py files cwd svc job) :
    (runPipeline (wired py files cwd svc) job).All fun op =>
      ∀ model g, op = .call (.submit model g) →
        (Carries a.family a.template g a.validated.loras ↔
          Fits py a.family a.template a.validated a.task) := by
  refine (submits_prepared (wired py files cwd svc) job).mono fun op hop model g hg => ?_
  obtain ⟨drawn, p, hp, hfinal⟩ := hop model g hg
  rw [← carries_prepared a hp]
  unfold submittedGraph at hfinal
  split at hfinal
  · cases hfinal
    exact Iff.rfl
  · exact carries_injectInitImage hfinal _

end Accepted

/-! ## An LTX job with a LoRA -/

def ltxModel : ModelConfig where
  name := "ltx"
  workflowPath := "ltx.json"
  checkpoint := "checkpoints/ltx.safetensors"
  vramEstimateGb := 1
  family := .ltxv
  capabilities := [("video_gen", .bool true), ("video_task", .str "t2v")]
  ltxvTextEncoder := some "text_encoders/te.safetensors"

/-- A node with empty inputs, as the file has it. -/
def plainNode (id classType title : String) : String × Json :=
  (id, .obj [("class_type", .str classType), ("inputs", .obj []),
    ("_meta", .obj [("title", .str title)])])

def ltxFile : StoredJson :=
  .value (.obj [
    plainNode "1" "CheckpointLoaderSimple" "%LTXV_CHECKPOINT%",
    plainNode "2" "LTXAVTextEncoderLoader" "%LTXV_TEXT_ENCODER%",
    plainNode "3" "VAELoader" "%LTXV_VIDEO_VAE%",
    plainNode "4" "CLIPTextEncode" "%LTXV_POSITIVE%",
    plainNode "5" "CLIPTextEncode" "%LTXV_NEGATIVE%",
    plainNode "6" "Seed (rgthree)" "%LTXV_SEED%",
    plainNode "7" "PrimitiveInt" "%LTXV_FRAMES%",
    plainNode "8" "VHS_VideoCombine" "%LTXV_OUTPUT%",
    plainNode "9" "LoadImage" "%INIT_IMAGE%"])

def ltxFiles (path : Path) : WorkflowFile :=
  if path = ["app", "ltx.json"] then .text ltxFile else .missing

/-- What the template becomes. -/
def ltxGraph : Graph :=
  match loadWorkflow asciiBuiltins ltxFiles ["app"] "ltx.json" with
  | .ok g => g
  | .error _ => []

def ltxPayload : List (String × Json) :=
  [("model", .str "ltx"), ("prompt", .str "sea"), ("loras", .arr [
    .obj [("name", .str "style"), ("weight", .float (.finite 1))]])]

def ltxEnvelope : List (String × Json) :=
  [("artifact_kind", .str "video"), ("video_task", .str "t2v"), ("payload", .obj ltxPayload)]

def ltxJob : Job :=
  Job.fresh "a" "ltx" (.value (.obj ltxEnvelope)) .async none none 0

def ltxValidator : lora_files.Validator where
  registry name := if name = "ltx" then some ltxModel else none
  lorasRoot := ["loras"]
  float
    | .float x => some x
    | _ => none

/-- One LoRA. -/
def styleTree : lora_files.LoraTree where
  entries := [
    (["loras"], .dir),
    (["loras", "style.safetensors"], .file ⟨500, .malformed ""⟩)]
  nodup := by decide
  components := by decide
  parents := by decide

def ltxValidated : ValidatedVideoJob where
  model := ltxModel
  prompt := "sea"
  negativePrompt := ""
  width := 768
  height := 512
  frames := 121
  fps := .finite 24
  steps := 10
  cfg := .finite 3
  shift := .finite 0
  seed := 7
  scheduler := "simple"
  riflexFreqIndex := 0
  forceOffload := true
  generateAudio := false
  resolvedWorkflowPath := "ltx.json"
  responseFormat := .url
  timeoutS := none
  initImageBytes := none
  loras := [⟨"style", .finite 1⟩]
  wanAdvanced := none

def ltxService : Service Graph where
  publicBaseUrl := ""
  jobTimeoutS := .finite 600
  clientId := "unknown"
  hasHealth := false
  hasFetchMediaOutputs := true
  hasUploadGenerationBlob := true
  registry := [ltxModel]
  validateImage _ := .error (.failure "validation_error" "unknown model")
  validateVideo _ _ := .ok ltxValidated
  loadWorkflow _ := .error (.workflow "")
  injectImage _ _ g := .ok g
  injectLtxv _ _ g := .ok g
  injectWan _ _ g := .ok g
  injectWanRequest _ _ g := .ok g
  injectInitImage g _ := .ok g
  applyTransparentBackground := .ok
  b64encode _ := ""
  bytesRepr _ := ""
  lower := id
  parseFloat _ := none

def ltxAccepted : AcceptedVideo asciiBuiltins ltxFiles ["app"] ltxService ltxJob where
  envelope := ltxEnvelope
  stored := rfl
  video := rfl
  family := some .ltxv
  peeked := rfl
  task := .t2v
  payload := ltxPayload
  opened := rfl
  validated := ltxValidated
  valid := rfl
  template := ltxGraph
  loaded := by rfl

/-- The registry takes the template and the validator the request, but the graph
that the worker submits has no LoRA. -/
theorem an_ltx_lora_is_dropped :
    (validateAnchors ltxGraph requiredAnchorsLtxv).isOk = true ∧
      (lora_files.validate ltxValidator styleTree (.video .t2v) (.obj ltxPayload)).toOption =
        some ltxAccepted.validated.loras ∧
      ¬ (runPipeline (wired asciiBuiltins ltxFiles ["app"] ltxService) ltxJob).All fun op =>
        ∀ model g, op = .call (.submit model g) →
          Carries ltxAccepted.family ltxAccepted.template g ltxAccepted.validated.loras := by
  refine ⟨by decide +kernel, by decide +kernel, fun h => ?_⟩
  have hok : (prepare (wired asciiBuiltins ltxFiles ["app"] ltxService) ltxJob 0).toOption.any
      (fun p => p.initImage.isNone) = true := by decide +kernel
  rcases hp : prepare (wired asciiBuiltins ltxFiles ["app"] ltxService) ltxJob 0 with e | p
  · rw [hp] at hok
    cases hok
  · rw [hp] at hok
    have himage : p.initImage = none := by simpa [Except.toOption] using hok
    have hcarries := prepared_submits h hp himage p.model.name p.graph rfl
    rw [carries_prepared ltxAccepted hp] at hcarries
    have hlength := List.Perm.length_eq hcarries
    revert hlength
    decide +kernel

end image_gen.lora_injection

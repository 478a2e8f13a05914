-- What the edits of a graph leave alone: the nodes, their classes and titles,
-- and every input that an edit does not name.
import ImageGen.Injectors
import ImageGen.Results

namespace image_gen.graph_edits

open image_gen.graph image_gen.injectors image_gen.json image_gen.py_dict image_gen.requests
  image_gen.results

/-! ## A graph seen through some of its inputs -/

def viewInputs (K : String → Bool) : Inputs → Inputs
  | .dict fields => .dict (restrict K fields)
  | inputs => inputs

def viewNode (K : String → Bool) (node : Node) : Node :=
  { node with inputs := viewInputs K node.inputs }

/-- The graph with only the inputs that `K` names, by node and by key. -/
def view (K : String → String → Bool) (g : Graph) : Graph :=
  g.map fun e => (e.1, viewNode (K e.1) e.2)

variable {K : String → String → Bool} {g g' : Graph}

theorem lookup_view (K : String → String → Bool) (g : Graph) (id : String) :
    (view K g).lookup id = (g.lookup id).map (viewNode (K id)) := by
  induction g with
  | nil => rfl
  | cons e rest ih =>
    obtain ⟨k, node⟩ := e
    by_cases h : id = k
    · subst h
      simp [view]
    · change List.lookup id ((k, viewNode (K k) node) :: view K rest) = _
      rw [lookup_cons_ne _ _ h, lookup_cons_ne _ _ h, ih]

theorem ids_view (K : String → String → Bool) (g : Graph) :
    (view K g).map (·.1) = g.map (·.1) := by
  simp [view, Function.comp_def]

theorem owner_view (K : String → String → Bool) (g : Graph) (anchor : String) :
    owner (view K g) anchor = owner g anchor := by
  unfold owner view
  rw [List.find?_map, Option.map_map]
  rfl

theorem classAt_view (K : String → String → Bool) (g : Graph) (id : String) :
    classAt (view K g) id = classAt g id := by
  unfold classAt
  rw [lookup_view]
  cases g.lookup id <;> rfl

theorem inputsAt_view (K : String → String → Bool) (g : Graph) (id : String) :
    inputsAt (view K g) id = viewInputs (K id) (inputsAt g id) := by
  unfold inputsAt
  rw [lookup_view]
  cases g.lookup id <;> rfl

theorem isCore_view (K : String → String → Bool) (g : Graph) : isCore (view K g) = isCore g := by
  unfold isCore view
  rw [List.any_map]
  rfl

@[simp] theorem isDict_viewInputs (K : String → Bool) (inputs : Inputs) :
    (viewInputs K inputs).isDict = inputs.isDict := by
  cases inputs <;> rfl

theorem get_viewInputs {K : String → Bool} {key : String} (h : K key = true) (inputs : Inputs) :
    (viewInputs K inputs).get key = inputs.get key := by
  cases inputs with
  | dict fields => simp only [viewInputs, Inputs.get, Json.get, lookup_restrict fields h]
  | absent => rfl
  | other _ => rfl

section Same

variable (h : view K g' = view K g)
include h

theorem ids_same : g'.map (·.1) = g.map (·.1) := by rw [← ids_view K g', h, ids_view]

theorem owner_same (anchor : String) : owner g' anchor = owner g anchor := by
  rw [← owner_view K g', h, owner_view]

theorem classAt_same (id : String) : classAt g' id = classAt g id := by
  rw [← classAt_view K g', h, classAt_view]

theorem isCore_same : isCore g' = isCore g := by rw [← isCore_view K g', h, isCore_view]

theorem isDict_same (id : String) : (inputsAt g' id).isDict = (inputsAt g id).isDict := by
  rw [← isDict_viewInputs (K id), ← inputsAt_view K g', h, inputsAt_view, isDict_viewInputs]

theorem get_same {id key : String} (hK : K id key = true) :
    (inputsAt g' id).get key = (inputsAt g id).get key := by
  rw [← get_viewInputs hK, ← inputsAt_view K g', h, inputsAt_view, get_viewInputs hK]

end Same

/-! ## The elementary edits -/

theorem viewInputs_write {K : String → Bool} {patch : Fields} (h : ∀ e ∈ patch, K e.1 = false)
    (inputs : Inputs) : viewInputs K (inputs.write patch) = viewInputs K inputs := by
  cases inputs with
  | dict fields => simp only [Inputs.write, viewInputs, restrict_update fields patch h]
  | absent => rfl
  | other _ => rfl

/-- An edit of each node that keeps what `K` names. -/
theorem view_map {f : String × Node → Node}
    (h : ∀ e ∈ g, viewNode (K e.1) (f e) = viewNode (K e.1) e.2) :
    view K (g.map fun e => (e.1, f e)) = view K g := by
  unfold view
  rw [List.map_map]
  apply List.map_congr_left
  intro e he
  simp [h e he]

theorem view_write {id : String} {patch : Fields} (h : ∀ e ∈ patch, K id e.1 = false) :
    view K (write g id patch) = view K g := by
  refine view_map fun e _ => ?_
  split
  · rename_i hid
    simp only [viewNode, Node.write, viewInputs_write (hid ▸ h)]
  · rfl

theorem lookup_write (g : Graph) (id : String) (patch : Fields) (x : String) :
    (write g id patch).lookup x =
      if x = id then (g.lookup x).map (·.write patch) else g.lookup x := by
  induction g with
  | nil => simp [write]
  | cons e rest ih =>
    obtain ⟨k, node⟩ := e
    change List.lookup x ((k, if k = id then node.write patch else node) ::
      write rest id patch) = _
    by_cases hx : x = k
    · subst hx
      by_cases hid : x = id <;> simp [hid]
    · rw [lookup_cons_ne _ _ hx, lookup_cons_ne _ _ hx, ih]

theorem length_write (g : Graph) (id : String) (patch : Fields) :
    (write g id patch).length = g.length := List.length_map _

theorem owner_write (g : Graph) (id : String) (patch : Fields) (anchor : String) :
    owner (write g id patch) anchor = owner g anchor :=
  owner_same (K := fun _ _ => false) (view_write fun _ _ => rfl) anchor

theorem owner_lookup {anchor id : String} (h : owner g anchor = some id) :
    g.lookup id ≠ none := by
  obtain ⟨e, he, rfl⟩ := Option.map_eq_some_iff.mp h
  intro hnone
  have hne := List.lookup_eq_none_iff.mp hnone e (List.mem_of_find?_eq_some he)
  simp at hne

theorem view_assign {id : String} {patch : Fields} (hK : ∀ e ∈ patch, K id e.1 = false)
    (h : assign g id patch = .ok g') : view K g' = view K g := by
  unfold assign at h
  split at h
  · cases h
  · split at h
    · cases h
    · cases h
    · cases h
      exact view_write hK

theorem view_assignOr {message id : String} {patch : Fields}
    (hK : ∀ e ∈ patch, K id e.1 = false) (h : assignOr message g id patch = .ok g') :
    view K g' = view K g := by
  unfold assignOr at h
  split at h
  · cases h
    exact view_write hK
  · cases h

theorem passKeyError_ok {r : Except GraphError Graph} (h : passKeyError g r = .ok g') :
    g' = g ∨ r = .ok g' := by
  unfold passKeyError at h
  split at h
  · cases h
    exact Or.inl rfl
  · exact Or.inr h

theorem view_passKeyError {r : Except GraphError Graph} (h : passKeyError g r = .ok g')
    (hr : r = .ok g' → view K g' = view K g) : view K g' = view K g := by
  rcases passKeyError_ok h with rfl | h
  · rfl
  · exact hr h

theorem view_assignIfFound {anchor : String} {patch : Fields}
    (hK : ∀ id, ∀ e ∈ patch, K id e.1 = false) (h : assignIfFound g anchor patch = .ok g') :
    view K g' = view K g := by
  refine view_passKeyError h fun h => ?_
  obtain ⟨id, -, h⟩ := bind_ok h
  exact view_assign (hK id) h

theorem view_injectAt {caller anchor : String} {patch : Fields}
    (hK : ∀ id, ∀ e ∈ patch, K id e.1 = false) (h : injectAt caller g anchor patch = .ok g') :
    view K g' = view K g := by
  obtain ⟨id, -, h⟩ := bind_ok h
  exact view_assignOr (hK id) h

theorem findOr_ok {caller anchor id : String} (h : findOr caller g anchor = .ok id) :
    owner g anchor = some id := by
  unfold findOr at h
  split at h
  · rename_i hid
    cases h
    exact hid
  · cases h

theorem findAnchor_ok {anchor id : String} (h : findAnchor g anchor = .ok id) :
    owner g anchor = some id := by
  unfold findAnchor at h
  split at h
  · rename_i hid
    cases h
    exact hid
  · cases h

/-! ## The injectors -/

/-- No input of this name is looked at, on any node. -/
def Free (K : String → String → Bool) (keys : List String) : Prop :=
  ∀ id, ∀ key ∈ keys, K id key = false

theorem Free.patch {keys : List String} (hK : Free K keys) {patch : Fields}
    (h : ∀ e ∈ patch, e.1 ∈ keys) (id : String) : ∀ e ∈ patch, K id e.1 = false :=
  fun e he => hK id e.1 (h e he)

theorem Free.mono {keys keys' : List String} (hK : Free K keys) (h : keys' ⊆ keys) :
    Free K keys' :=
  fun id key hkey => hK id key (h hkey)

/-- What the loaders of a WAN graph take, apart from the `model` of a legacy one. -/
def weightInputs : List String :=
  ["unet_name", "vae_name", "model_name", "precision", "clip_name", "vae_model",
    "synchformer_model", "clip_model", "mmaudio_model"]

theorem view_injectUnet {caller checkpoint id : String} (hK : Free K weightInputs)
    (hmodel : K id "model" = false) (h : injectUnet caller checkpoint id g = .ok g') :
    view K g' = view K g := by
  refine view_assignOr (fun e he => ?_) h
  rw [List.mem_singleton.mp he]
  dsimp only [inputFor]
  split
  · exact hK id _ (by simp [weightInputs])
  · exact hmodel

theorem view_injectUnetLow {caller : String} {cfg : ModelConfig} (hK : Free K weightInputs)
    (hmodel : ∀ id, owner g "%WAN_MODEL_LOW%" = some id → K id "model" = false)
    (h : injectUnetLow caller cfg g = .ok g') : view K g' = view K g := by
  unfold injectUnetLow at h
  split at h
  · cases h
    rfl
  · rename_i id hid
    split at h
    · cases h
    · exact view_injectUnet hK (hmodel id hid) h

theorem view_injectFile {caller field id : String} {file : Option String}
    {patch : String → Fields} (hK : Free K weightInputs)
    (hpatch : ∀ f, ∀ e ∈ patch f, e.1 ∈ weightInputs)
    (h : injectFile caller field file patch id g = .ok g') : view K g' = view K g := by
  unfold injectFile at h
  split at h
  · exact view_assignOr (hK.patch (hpatch _) id) h
  · cases h

theorem mem_vaeInputs {py : Builtins} {vae : String} {c : ClassType} :
    ∀ e ∈ vaeInputs py vae c, e.1 ∈ weightInputs := by
  unfold vaeInputs
  split
  · simp [weightInputs]
  · cases inferWanVideoVaePrecision py vae <;> simp [weightInputs]
  · simp [weightInputs]

theorem view_injectClipVision {caller : String} {cfg : ModelConfig} (hK : Free K weightInputs)
    (h : injectClipVision caller cfg g = .ok g') : view K g' = view K g := by
  unfold injectClipVision at h
  split at h
  · cases h
    rfl
  · refine view_assignOr (hK.patch ?_ _) h
    cases given cfg.wanClipVision <;> simp [weightInputs]

theorem view_injectVideoWeights {py : Builtins} {cfg : ModelConfig} (hK : Free K weightInputs)
    (hmodel : ∀ id, owner g "%WAN_MODEL%" = some id → K id "model" = false)
    (hlow : ∀ id, owner g "%WAN_MODEL_LOW%" = some id → K id "model" = false)
    (h : injectVideoWeights py cfg g = .ok g') : view K g' = view K g := by
  obtain ⟨modelId, hmodelId, h⟩ := bind_ok h
  obtain ⟨vaeId, -, h⟩ := bind_ok h
  obtain ⟨t5Id, -, h⟩ := bind_ok h
  obtain ⟨g1, h1, h⟩ := bind_ok h
  obtain ⟨g2, h2, h⟩ := bind_ok h
  obtain ⟨g3, h3, h⟩ := bind_ok h
  obtain ⟨g4, h4, h⟩ := bind_ok h
  have e1 : view K g1 = view K g := view_injectUnet hK (hmodel _ (findOr_ok hmodelId)) h1
  have e2 : view K g2 = view K g1 :=
    view_injectUnetLow hK (fun id hid => hlow id (by rw [← owner_same e1, hid])) h2
  have e3 : view K g3 = view K g2 := view_injectFile hK (fun _ => mem_vaeInputs) h3
  have e4 : view K g4 = view K g3 := by
    refine view_injectFile hK (fun f e he => ?_) h4
    rw [List.mem_singleton.mp he]
    dsimp only [inputFor]
    split <;> simp [weightInputs]
  rw [view_injectClipVision hK h, e4, e3, e2, e1]

theorem injectUnchecked_ok {message id : String} {files : List (String × Json)}
    (h : injectUnchecked message g id files = .ok g') : ∃ g1 patch,
      assignOr message g id [] = .ok g1 ∧ g' = write g1 id patch ∧
        ∀ e ∈ patch, ∃ f ∈ files, e.1 = f.1 ∧ ∃ name, basenameOf f.2 = .ok name ∧ e.2 = .str name := by
  obtain ⟨g1, h1, h⟩ := bind_ok h
  obtain ⟨patch, hpatch, h⟩ := bind_ok h
  cases h
  refine ⟨g1, patch, h1, rfl, fun e he => ?_⟩
  obtain ⟨f, hf, hfile⟩ := exists_ok_of_mapM hpatch e he
  obtain ⟨name, hname, rfl⟩ := map_ok hfile
  exact ⟨f, hf, rfl, name, hname, rfl⟩

theorem view_injectUnchecked {message id : String} {files : List (String × Json)}
    (hK : ∀ f ∈ files, K id f.1 = false) (h : injectUnchecked message g id files = .ok g') :
    view K g' = view K g := by
  obtain ⟨g1, patch, h1, rfl, hpatch⟩ := injectUnchecked_ok h
  rw [view_write, view_assignOr (fun e he => absurd he List.not_mem_nil) h1]
  intro e he
  obtain ⟨f, hf, hkey, -⟩ := hpatch e he
  rw [hkey]
  exact hK f hf

theorem view_injectMmaudioWeights {cfg : ModelConfig} (hK : Free K weightInputs)
    (h : injectMmaudioWeights cfg g = .ok g') : view K g' = view K g := by
  unfold injectMmaudioWeights at h
  split at h
  · cases h
    rfl
  · split at h
    · obtain ⟨mdId, -, h⟩ := bind_ok h
      obtain ⟨g1, h1, h⟩ := bind_ok h
      rw [view_injectUnchecked (hK.patch (by simp [weightInputs]) _) h,
        view_injectUnchecked (hK.patch (by simp [weightInputs]) _) h1]
    · cases h

/-- What the loaders of an image graph take. -/
def modelInputs : List String :=
  ["ckpt_name", "unet_name", "clip_name1", "clip_name2", "type", "clip_name", "vae_name"]

theorem mem_checkpointInput {c : ClassType} {key : String} (h : checkpointInput c = .ok key) :
    key ∈ modelInputs := by
  unfold checkpointInput at h
  split at h
  · cases h
    decide
  · cases h
    decide
  · cases h
  · cases h

theorem mem_clipInputs {cfg : ModelConfig} {c : ClassType} {patch : Fields}
    (h : clipInputs cfg c = .ok patch) : ∀ e ∈ patch, e.1 ∈ modelInputs := by
  unfold clipInputs at h
  split at h
  · split at h
    · cases h
      split <;> simp [modelInputs]
    · cases h
  · split at h
    · cases h
    · obtain ⟨teType, -, h⟩ := bind_ok h
      split at h <;> cases h
      simp [modelInputs]
  · cases h
    simp

theorem view_injectVaeLoaders (hK : Free K modelInputs) (vaeName : String) :
    view K (injectVaeLoaders vaeName g) = view K g := by
  unfold injectVaeLoaders view
  rw [List.map_map]
  apply List.map_congr_left
  intro e _
  have hpatch : ∀ f ∈ [("vae_name", Json.str vaeName)], K e.1 f.1 = false :=
    hK.patch (by simp [modelInputs]) e.1
  simp only [Function.comp_apply]
  split
  · split
    · simp only [viewNode, Node.write, viewInputs_write hpatch]
    · rfl
  · rfl

theorem view_injectModelSource {cfg : ModelConfig} (hK : Free K modelInputs)
    (h : injectModelSource cfg g = .ok g') : view K g' = view K g := by
  obtain ⟨modelId, -, h⟩ := bind_ok h
  obtain ⟨clipId, -, h⟩ := bind_ok h
  obtain ⟨g1, h1, h⟩ := bind_ok h
  obtain ⟨ckptInput, hckpt, h⟩ := bind_ok h
  obtain ⟨g2, h2, h⟩ := bind_ok h
  obtain ⟨patch, hpatch, h⟩ := bind_ok h
  have hkey := mem_checkpointInput hckpt
  have hlast : view K (write g2 clipId patch) = view K g := by
    rw [view_write (hK.patch (mem_clipInputs hpatch) _), view_assignOr (by simp) h2,
      view_write (hK.patch (by simpa using hkey) _), view_assignOr (by simp) h1]
  split at h
  · cases h
    rw [view_injectVaeLoaders hK, hlast]
  · cases h
    exact hlast

/-- The node that takes the size of an image. -/
def latentNode (g : Graph) : Option String :=
  (g.find? fun e => e.2.classType = .str "EmptyLatentImage").map (·.1)

theorem latentNode_same (h : view K g' = view K g) : latentNode g' = latentNode g := by
  have hview : ∀ x : Graph, latentNode (view K x) = latentNode x := by
    intro x
    unfold latentNode view
    rw [List.find?_map, Option.map_map]
    rfl
  rw [← hview g', h, hview]

theorem view_disconnectLoraMulti (hK : ∀ id, K id "lora" = false) (multiId : String) :
    view K (disconnectLoraMulti multiId g) = view K g := by
  refine view_map fun e _ => ?_
  obtain ⟨id, ⟨classType, inputs, title⟩⟩ := e
  dsimp only
  split
  · split
    · split
      · simp only [viewNode, viewInputs, restrict_delete _ (hK id)]
      · rfl
    · rfl
  · rfl

theorem mem_options {adv : Option Json} {part : String} {known : List String} {opts : Fields}
    (h : options adv part known = some opts) : ∀ e ∈ opts, e.1 ∈ known := by
  unfold options at h
  split at h
  · split at h
    · cases h
      intro e he
      obtain ⟨key, hkey, hsome⟩ := List.mem_filterMap.mp he
      split at hsome
      · cases hsome
      · cases hsome
        exact hkey
    · cases h
  · cases h

theorem forI2v_some {task : VideoTask} {opts : Option Fields} {patch : Fields}
    (h : forI2v task opts = some patch) : task = .i2v ∧ opts = some patch := by
  cases task with
  | t2v => cases h
  | i2v => exact ⟨rfl, h⟩

theorem view_applySection {anchor : String} {onlyClass : Option String} {optional : Bool}
    {opts : Option Fields}
    (hK : ∀ patch, opts = some patch → ∀ id, owner g anchor = some id →
      ∀ e ∈ patch, K id e.1 = false)
    (h : applySection anchor onlyClass optional opts g = .ok g') : view K g' = view K g := by
  unfold applySection at h
  split at h
  · cases h
    rfl
  · split at h
    · split at h
      · cases h
        rfl
      · cases h
    · rename_i id hid
      split at h
      · exact view_assignOr (hK _ rfl id hid) h
      · cases h
        rfl

/-- The options of the sections other than `clip_encode`. -/
def sectionInputs : List String :=
  encodeOptions ++ decodeOptions ++ blockSwapOptions ++ exportOptions

theorem view_applyWanAdvancedPatches {adv : Option Json} {task : VideoTask}
    (hK : Free K sectionInputs)
    (hclip : ∀ id, owner g "%WAN_CLIP_ENCODE%" = some id →
      ∀ patch, forI2v task (options adv "clip_encode" clipEncodeOptions) = some patch →
        ∀ e ∈ patch, K id e.1 = false)
    (h : applyWanAdvancedPatches adv task g = .ok g') : view K g' = view K g := by
  have hsection : ∀ {part : String} {known : List String}, known ⊆ sectionInputs →
      ∀ patch, options adv part known = some patch → ∀ id, ∀ e ∈ patch, K id e.1 = false :=
    fun hsub patch hpatch id => hK.patch (fun e he => hsub (mem_options hpatch e he)) id
  obtain ⟨g1, h1, h⟩ := bind_ok h
  obtain ⟨g2, h2, h⟩ := bind_ok h
  obtain ⟨g3, h3, h⟩ := bind_ok h
  obtain ⟨g4, h4, h⟩ := bind_ok h
  have e1 : view K g1 = view K g := view_applySection (fun patch hpatch id _ =>
    hsection (by decide) patch (forI2v_some hpatch).2 id) h1
  have e2 : view K g2 = view K g1 := view_applySection (fun patch hpatch id hid =>
    hclip id (by rw [← owner_same e1, hid]) patch hpatch) h2
  have e3 : view K g3 = view K g2 := view_applySection (fun patch hpatch id _ =>
    hsection (by decide) patch hpatch id) h3
  have e4 : view K g4 = view K g3 := view_applySection (fun patch hpatch id _ =>
    hsection (by decide) patch hpatch id) h4
  have e5 : view K g' = view K g4 := view_applySection (fun patch hpatch id _ =>
    hsection (by decide) patch hpatch id) h
  rw [e5, e4, e3, e2, e1]

/-- What the fields of a video request are written to. -/
def requestInputs : List String :=
  ["text", "positive_prompt", "negative_prompt", "width", "height", "length", "num_frames",
    "noise_seed", "steps", "cfg", "scheduler", "end_at_step", "return_with_leftover_noise",
    "shift", "start_at_step", "seed", "riflex_freq_index", "force_offload", "frame_rate",
    "duration", "prompt", "value"]

/-- Those of them that come after the frames. -/
def samplerInputs : List String :=
  ["noise_seed", "steps", "cfg", "scheduler", "end_at_step", "return_with_leftover_noise",
    "shift", "start_at_step", "seed", "riflex_freq_index", "force_offload", "duration", "prompt",
    "negative_prompt"]

theorem samplerInputs_subset : samplerInputs ⊆ requestInputs := by decide

theorem view_injectPrompts {v : ValidatedVideoJob} (hK : Free K requestInputs)
    (h : injectPrompts v g = .ok g') : view K g' = view K g := by
  unfold injectPrompts at h
  split at h
  · obtain ⟨posId, -, h⟩ := bind_ok h
    obtain ⟨negId, -, h⟩ := bind_ok h
    obtain ⟨g1, h1, h⟩ := bind_ok h
    rw [view_assign (hK.patch (by simp [requestInputs]) _) h,
      view_assign (hK.patch (by simp [requestInputs]) _) h1]
  · obtain ⟨promptsId, -, h⟩ := bind_ok h
    exact view_assign (hK.patch (by simp [requestInputs]) _) h

theorem view_injectDims {v : ValidatedVideoJob} (hK : Free K requestInputs)
    (h : injectDims v g = .ok g') : view K g' = view K g := by
  obtain ⟨dimsId, -, h⟩ := bind_ok h
  refine view_assign (hK.patch ?_ _) h
  unfold inputFor
  split <;> simp [requestInputs]

theorem view_injectSampler {v : ValidatedVideoJob} {seed : Int} (hK : Free K samplerInputs)
    (h : injectSampler v seed g = .ok g') : view K g' = view K g := by
  obtain ⟨samplerId, -, h⟩ := bind_ok h
  split at h
  · obtain ⟨g1, h1, h⟩ := bind_ok h
    obtain ⟨g2, h2, h⟩ := bind_ok h
    rw [view_assignIfFound (hK.patch (by simp [samplerInputs, passFields])) h,
      view_assignIfFound (hK.patch (by simp [samplerInputs])) h2,
      view_assign (hK.patch (by simp [samplerInputs, passFields]) _) h1]
  · exact view_assign (hK.patch (by simp [samplerInputs]) _) h

theorem view_injectMmaudioSampler {py : Builtins} {v : ValidatedVideoJob} {seed : Int}
    (hK : Free K samplerInputs) (h : injectMmaudioSampler py v seed g = .ok g') :
    view K g' = view K g := by
  refine view_passKeyError h fun h => ?_
  obtain ⟨id, -, h⟩ := bind_ok h
  obtain ⟨g1, h1, h⟩ := bind_ok h
  obtain ⟨steps, -, h⟩ := bind_ok h
  obtain ⟨cfg, -, h⟩ := bind_ok h
  cases h
  rw [view_write (hK.patch (by simp [samplerInputs]) _),
    view_assign (hK.patch (by simp [samplerInputs]) _) h1]

theorem view_injectWanRequest {py : Builtins} {v : ValidatedVideoJob} {seed : Int}
    (hK : Free K requestInputs) (h : injectWanRequest py v seed g = .ok g') :
    view K g' = view K g := by
  obtain ⟨g1, h1, h⟩ := bind_ok h
  obtain ⟨g2, h2, h⟩ := bind_ok h
  obtain ⟨g3, h3, h⟩ := bind_ok h
  obtain ⟨g4, h4, h⟩ := bind_ok h
  rw [view_injectMmaudioSampler (hK.mono samplerInputs_subset) h,
    view_assignIfFound (hK.patch (by simp [requestInputs])) h4,
    view_injectSampler (hK.mono samplerInputs_subset) h3, view_injectDims hK h2,
    view_injectPrompts hK h1]

/-! ## LTX -/

def ltxvInputs : List String :=
  ["ckpt_name", "text_encoder", "vae_name", "text", "seed", "value", "frame_rate"]

theorem view_injectAudioVaeLoaders (hK : Free K ltxvInputs) :
    view K (injectAudioVaeLoaders g) = view K g := by
  refine view_map fun e _ => ?_
  split
  · have hpatch : ∀ f ∈ [("ckpt_name", Json.str ltxvAudioVaeFilename)], K e.1 f.1 = false :=
      hK.patch (by simp [ltxvInputs]) e.1
    simp only [viewNode, Node.write, viewInputs_write hpatch]
  · rfl

theorem view_injectLtxv {v : ValidatedVideoJob} {seed : Int} (hK : Free K ltxvInputs)
    (h : injectLtxv v seed g = .ok g') : view K g' = view K g := by
  obtain ⟨g1, h1, h⟩ := bind_ok h
  obtain ⟨g2, h2, h⟩ := bind_ok h
  obtain ⟨posId, -, h⟩ := bind_ok h
  obtain ⟨negId, -, h⟩ := bind_ok h
  obtain ⟨g3, h3, h⟩ := bind_ok h
  obtain ⟨g4, h4, h⟩ := bind_ok h
  obtain ⟨g5, h5, h⟩ := bind_ok h
  obtain ⟨g6, h6, h⟩ := bind_ok h
  have e1 : view K g1 = view K g := by
    obtain ⟨ga, ha, h1⟩ := bind_ok h1
    obtain ⟨gb, hb, h1⟩ := bind_ok h1
    cases h1
    rw [view_injectAudioVaeLoaders hK]
    refine (view_injectAt (hK.patch ?_) hb).trans (view_injectAt (hK.patch ?_) ha)
    · cases given v.model.ltxvTextEncoder <;> simp [ltxvInputs]
    · simp [ltxvInputs]
  rw [view_assignIfFound (hK.patch (by simp [ltxvInputs])) h,
    view_injectAt (hK.patch (by simp [ltxvInputs])) h6,
    view_injectAt (hK.patch (by simp [ltxvInputs])) h5,
    view_assign (hK.patch (by simp [ltxvInputs]) _) h4,
    view_assign (hK.patch (by simp [ltxvInputs]) _) h3,
    view_injectAt (hK.patch (by simp [ltxvInputs])) h2, e1]

end image_gen.graph_edits

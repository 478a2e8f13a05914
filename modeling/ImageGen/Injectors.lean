-- The edits that turn a workflow template into the graph of a job: the injectors
-- of `app/registry/workflows.py` and `app/registry/wan_advanced.py`, and the
-- stages of the worker that call them.
import ImageGen.Graph
import Mathlib.Data.List.Infix

namespace image_gen.injectors

open image_gen.file_tree image_gen.graph image_gen.json image_gen.py_dict image_gen.py_str
  image_gen.requests image_gen.worker

/-! ## Small functions -/

/-- `_basename`. -/
def basename (modelsRef : String) : String := String.ofList (pathName modelsRef.toList)

/-- `_basename` of a value that nothing has checked. -/
def basenameOf : Json → Except GraphError String
  | .str s => .ok (basename s)
  | j => .error (.other "TypeError" ("argument should be a str or an os.PathLike object " ++
      "where __fspath__ returns a str, not '" ++ typeName j ++ "'"))

/-- `(value or "").strip()`. -/
def stripped (value : Json) : Except GraphError String :=
  if value.truthy then
    match value with
    | .str s => .ok (String.ofList (strip s.toList))
    | j => .error (.other "AttributeError"
        ("'" ++ typeName j ++ "' object has no attribute 'strip'"))
  else .ok ""

/-- An optional text, where the empty text counts as none. -/
def given : Option String → Option String
  | some s => if s = "" then none else some s
  | none => none

def contains (part : String) (text : List Char) : Bool := decide (part.toList <:+: text)

/-- `_infer_wan_video_vae_precision`. -/
def inferWanVideoVaePrecision (py : Builtins) (vaeBasename : String) : Option String :=
  let n := py.str.lower vaeBasename.toList
  if contains "fp32" n then some "fp32"
  else if contains "bf16" n then some "bf16"
  else if contains "fp16" n then some "fp16"
  else none

/-- `int(value)`. -/
def toInt (py : Builtins) : Json → Except GraphError Int
  | .bool b => .ok (if b then 1 else 0)
  | .int i => .ok i
  | .float (.finite q) => .ok (q.num.tdiv q.den)
  | .float .nan => .error (.other "ValueError" "cannot convert float NaN to integer")
  | .float _ => .error (.other "OverflowError" "cannot convert float infinity to integer")
  | .str s =>
    match py.parseInt s with
    | some i => .ok i
    | none => .error (.other "ValueError" ("invalid literal for int() with base 10: " ++
        lora_files.pyRepr s))
  | j => .error (.other "TypeError"
      ("int() argument must be a string, a bytes-like object or a real number, not '" ++
        typeName j ++ "'"))

/-- `float(value)`. -/
def toFloat (py : Builtins) : Json → Except GraphError PyFloat
  | .bool b => .ok (.finite (if b then 1 else 0))
  | .int i =>
    match PyFloat.ofInt i with
    | some x => .ok x
    | none => .error (.other "OverflowError" "int too large to convert to float")
  | .float x => .ok x
  | .str s =>
    match py.parseFloat s with
    | some x => .ok x
    | none => .error (.other "ValueError" ("could not convert string to float: " ++
        lora_files.pyRepr s))
  | j => .error (.other "TypeError"
      ("float() argument must be a string or a real number, not '" ++ typeName j ++ "'"))

/-- Every graph edit that is made at an anchor behind both checks. -/
def injectAt (caller : String) (g : Graph) (anchor : String) (patch : Fields) :
    Except GraphError Graph := do
  let id ← findOr caller g anchor
  assignOr (invalidInputs caller id) g id patch

/-! ## Image models -/

/-- Every `VAELoader` that has a `vae_name` gets the file of the model. -/
def injectVaeLoaders (vaeName : String) (g : Graph) : Graph :=
  g.map fun e =>
    match e.2.classType, e.2.inputs with
    | .str "VAELoader", .dict fields =>
      (e.1, if fields.any (·.1 = "vae_name") then e.2.write [("vae_name", .str vaeName)] else e.2)
    | _, _ => e

/-- The input of a model loader that takes the checkpoint. -/
def checkpointInput : ClassType → Except GraphError String
  | .str "CheckpointLoaderSimple" => .ok "ckpt_name"
  | .str "UnetLoaderGGUF" => .ok "unet_name"
  | .str s => .error (.workflow
      ("inject_model_source: unsupported model source class " ++ lora_files.pyRepr s))
  | .other shown => .error (.workflow
      ("inject_model_source: unsupported model source class " ++ shown))

/-- The inputs of a text encoder loader. A class that is none of the two keeps
those of the template. -/
def clipInputs (cfg : ModelConfig) : ClassType → Except GraphError Fields
  | .str "DualCLIPLoader" =>
    match given cfg.clipL, given cfg.t5xxl with
    | some clipL, some t5xxl =>
      .ok ([("clip_name1", .str (basename clipL)), ("clip_name2", .str (basename t5xxl))] ++
        if cfg.dualClipType.truthy then [("type", cfg.dualClipType)] else [])
    | _, _ => .error (.workflow "inject_model_source: DualCLIPLoader requires clip_l and t5xxl")
  | .str "CLIPLoader" =>
    match given cfg.clipL with
    | none => .error (.workflow "inject_model_source: CLIPLoader requires clip_l")
    | some clipL => do
      let teType ← stripped cfg.clipLoaderType
      if teType = "" then .error (.workflow
        "inject_model_source: CLIPLoader requires clip_loader_type (e.g. flux2)")
      else return [("clip_name", .str (basename clipL)), ("type", .str teType)]
  | _ => .ok []

def injectModelSource (cfg : ModelConfig) (g : Graph) : Except GraphError Graph := do
  let fn := "inject_model_source"
  let modelSourceId ← findOr fn g "%MODEL_SOURCE%"
  let clipSourceId ← findOr fn g "%CLIP_SOURCE%"
  let g ← assignOr (invalidInputs fn modelSourceId) g modelSourceId []
  let ckptInput ← checkpointInput (classAt g modelSourceId)
  let g := write g modelSourceId [(ckptInput, .str (basename cfg.checkpoint))]
  let g ← assignOr (invalidInputs fn clipSourceId) g clipSourceId []
  let patch ← clipInputs cfg (classAt g clipSourceId)
  let g := write g clipSourceId patch
  match given cfg.vae with
  | some vae => return injectVaeLoaders (basename vae) g
  | none => return g

def injectVpred (cfg : ModelConfig) (g : Graph) : Except GraphError Graph :=
  match cfg.prediction with
  | .vpred => .error (.other "NotImplementedError" ("vpred injection deferred per arch v0.5; " ++
      "re-enable when a vpred model is added to config/models.yaml"))
  | .eps => .ok g

/-- A number, as `==` compares it. -/
def number : Json → Option ℚ
  | .bool b => some (if b then 1 else 0)
  | .int i => some i
  | .float (.finite q) => some q
  | _ => none

/-- `isinstance(value, int)`. -/
def isInt : Json → Bool
  | .int _ => true
  | .bool _ => true
  | _ => false

/-- The slot of a link to a node. -/
def slotOf (sourceId : String) : Json → Option Json
  | .arr [.str id, slot] => if id = sourceId then some slot else none
  | _ => none

/-- `_infer_output_slot`. -/
def inferOutputSlot (g : Graph) (sourceId : String) (fallbackSlot : Nat) : Json :=
  let seen := g.flatMap fun e =>
    match e.2.inputs with
    | .dict fields => fields.filterMap fun f => (slotOf sourceId f.2).filter isInt
    | _ => []
  match seen with
  | [] => .int fallbackSlot
  | slot :: more => if more.all fun s => number s = number slot then slot else .int fallbackSlot

/-- `_rewrite_inputs`. -/
def rewriteInputs (g : Graph) (sourceId : String) (sourceSlot : Json) (newLink : Json)
    (skipIds : List String) : Graph :=
  let rewrite (value : Json) : Json :=
    match slotOf sourceId value with
    | some slot =>
      if (number slot).isSome ∧ number slot = number sourceSlot then newLink else value
    | none => value
  g.map fun e =>
    match e.2.inputs with
    | .dict fields =>
      if e.1 ∈ skipIds then e
      else (e.1, { e.2 with inputs := .dict (fields.map fun f => (f.1, rewrite f.2)) })
    | _ => e

def loraFile (lora : ResolvedLoraRef) : Json := .str (lora.name ++ ".safetensors")

def loraNode (lora : ResolvedLoraRef) (model clip : Json) : Node where
  classType := .str "LoraLoader"
  inputs := .dict [("lora_name", loraFile lora), ("strength_model", .float lora.weight),
    ("strength_clip", .float lora.weight), ("model", model), ("clip", clip)]
  title := some ("lora:" ++ lora.name)

/-- The loop of `inject_loras`, with the ids of the new nodes. -/
def chainLoras (g : Graph) (next : Nat) (model clip : Json) :
    List ResolvedLoraRef → Graph × List String
  | [] => (g, [])
  | lora :: rest =>
    let id := toString next
    let (g, ids) := chainLoras (insertNode g id (loraNode lora model clip)) (next + 1)
      (link id 0) (link id 1) rest
    (g, id :: ids)

def injectLoras (py : Builtins) (loras : List ResolvedLoraRef) (g : Graph) :
    Except GraphError Graph := do
  if loras = [] then return g
  let modelSourceId ← findOr "inject_loras" g "%MODEL_SOURCE%"
  let clipSourceId ← findOr "inject_loras" g "%CLIP_SOURCE%"
  let next ← nextId py 1 g
  strAll next loras.length
  let modelSlot := inferOutputSlot g modelSourceId 0
  let clipSlot := inferOutputSlot g clipSourceId 1
  let (g, ids) := chainLoras g next (.arr [.str modelSourceId, modelSlot])
    (.arr [.str clipSourceId, clipSlot]) loras
  let lastId := ids.getLastD ""
  let g := rewriteInputs g modelSourceId modelSlot (link lastId 0) ids
  return rewriteInputs g clipSourceId clipSlot (link lastId 1) ids

/-! ## WAN models -/

/-- The input that takes a file, by the class of the node. -/
def inputFor (coreClass core legacy : String) (c : ClassType) : String :=
  if c = .str coreClass then core else legacy

def injectUnet (caller : String) (checkpoint : String) (id : String) (g : Graph) :
    Except GraphError Graph :=
  assignOr (invalidInputs caller id) g id
    [(inputFor "UNETLoader" "unet_name" "model" (classAt g id), .str (basename checkpoint))]

def injectUnetLow (caller : String) (cfg : ModelConfig) (g : Graph) : Except GraphError Graph :=
  match owner g "%WAN_MODEL_LOW%" with
  | none => .ok g
  | some id =>
    match given cfg.wanUnetLow with
    | none => .error (.workflow
        (caller ++ ": %WAN_MODEL_LOW% present but model_cfg.wan_unet_low is unset"))
    | some low => injectUnet caller low id g

def vaeInputs (py : Builtins) (vae : String) : ClassType → Fields
  | .str "VAELoader" => [("vae_name", .str vae)]
  | .str "WanVideoVAELoader" => ("model_name", .str vae) ::
      (inferWanVideoVaePrecision py vae).toList.map fun precision => ("precision", .str precision)
  | _ => [("model_name", .str vae)]

/-- A file that the config must name, at a node that must have inputs. -/
def injectFile (caller field : String) (file : Option String) (patch : String → Fields)
    (id : String) (g : Graph) : Except GraphError Graph :=
  let message := caller ++ ": node " ++ id ++ " missing inputs or model_cfg." ++ field
  match given file with
  | some file => assignOr message g id (patch (basename file))
  | none => .error (.workflow message)

def injectClipVision (caller : String) (cfg : ModelConfig) (g : Graph) :
    Except GraphError Graph :=
  match owner g "%WAN_CLIP_VISION%" with
  | none => .ok g
  | some id => assignOr (invalidInputs caller id) g id
      ((given cfg.wanClipVision).toList.map fun clip => ("clip_name", .str (basename clip)))

def injectVideoWeights (py : Builtins) (cfg : ModelConfig) (g : Graph) :
    Except GraphError Graph := do
  let fn := "inject_video_weights"
  let modelId ← findOr fn g "%WAN_MODEL%"
  let vaeId ← findOr fn g "%WAN_VAE%"
  let t5Id ← findOr fn g "%WAN_T5%"
  let g ← injectUnet fn cfg.checkpoint modelId g
  let g ← injectUnetLow fn cfg g
  let g ← injectFile fn "vae" cfg.vae (fun vae => vaeInputs py vae (classAt g vaeId)) vaeId g
  let g ← injectFile fn "wan_t5_encoder" cfg.wanT5Encoder
    (fun t5 => [(inputFor "CLIPLoader" "clip_name" "model_name" (classAt g t5Id), .str t5)])
    t5Id g
  injectClipVision fn cfg g

/-- Files of an entry that nothing has checked, at a node that must have inputs. -/
def injectUnchecked (message : String) (g : Graph) (id : String) (files : List (String × Json)) :
    Except GraphError Graph := do
  let g ← assignOr message g id []
  let patch ← files.mapM fun f => (basenameOf f.2).map fun name => (f.1, Json.str name)
  return write g id patch

def injectMmaudioWeights (cfg : ModelConfig) (g : Graph) : Except GraphError Graph :=
  let fn := "inject_mmaudio_weights"
  match owner g "%MMAUDIO_FEATURE_UTILS%" with
  | none => .ok g
  | some fuId =>
    if cfg.mmaudioVae.truthy && cfg.mmaudioSynchformer.truthy && cfg.mmaudioClip.truthy &&
        cfg.mmaudioDiffusion.truthy then do
      let mdId ← findOr fn g "%MMAUDIO_DIFFUSION%"
      let g ← injectUnchecked (invalidInputs fn fuId) g fuId
        [("vae_model", cfg.mmaudioVae), ("synchformer_model", cfg.mmaudioSynchformer),
          ("clip_model", cfg.mmaudioClip)]
      injectUnchecked (invalidInputs fn mdId) g mdId [("mmaudio_model", cfg.mmaudioDiffusion)]
    else
      .error (.workflow "inject_mmaudio_weights: model_cfg missing mmaudio_* asset paths")

def wanMaxLoras : Nat := 5

/-- `str(src)` for the source of a link. -/
def sourceText : Json → Option String
  | .str s => some s
  | .int i => some (toString i)
  | .bool b => some (if b then "True" else "False")
  | _ => none

/-- `_disconnect_wan_model_loader_lora_from_multi`. -/
def disconnectLoraMulti (multiId : String) (g : Graph) : Graph :=
  g.map fun e => (e.1,
    match e.2.classType, e.2.inputs with
    | .str "WanVideoModelLoader", .dict fields =>
      match Json.get fields "lora" with
      | .arr (src :: _ :: _) =>
        if sourceText src = some multiId then
          { e.2 with inputs := .dict (delete fields "lora") }
        else e.2
      | _ => e.2
    | _, _ => e.2)

def slotName (i : Nat) : String := "lora_" ++ toString i

def slotStrength (i : Nat) : String := "strength_" ++ toString i

/-- A file and a strength for each slot from a number on. -/
def slotInputs : Nat → List (Json × Json) → Fields
  | _, [] => []
  | i, (file, strength) :: rest =>
    (slotName i, file) :: (slotStrength i, strength) :: slotInputs (i + 1) rest

/-- The slots of `WanVideoLoraSelectMulti`, all empty. -/
def emptySlots : Fields := slotInputs 0 (List.replicate wanMaxLoras (.str "none", .float (.finite 1)))

def filledSlots (loras : List ResolvedLoraRef) : Fields :=
  slotInputs 0 ((loras.take wanMaxLoras).map fun lora => (loraFile lora, .float lora.weight))

/-- A flag that overrides an input when it is given. -/
def flag (adv : Option Json) (key : String) : Fields :=
  match adv with
  | some (.obj opts) =>
    match Json.get opts key with
    | .null => []
    | value => [(key, value)]
  | _ => []

def injectWanLoraMulti (loras : List ResolvedLoraRef) (adv : Option Json) (g : Graph) :
    Except GraphError Graph :=
  let fn := "inject_wan_lora_multi"
  match owner g "%WAN_LORA_MULTI%" with
  | none =>
    if loras = [] then .ok g
    else .error (.workflow "inject_wan_lora_multi: %WAN_LORA_MULTI% anchor missing")
  | some id => do
    let g ← assignOr (invalidInputs fn id) g id
      (emptySlots ++ filledSlots loras ++ flag adv "merge_loras" ++ flag adv "low_mem_load")
    return if loras = [] then disconnectLoraMulti id g else g

def coreNode (lora : ResolvedLoraRef) (model : Json) : Node where
  classType := .str "LoraLoaderModelOnly"
  inputs := .dict [("model", model), ("lora_name", loraFile lora),
    ("strength_model", .float lora.weight)]
  title := some ("wan_lora:" ++ lora.name)

/-- The loop of `_inject_wan_core_loras_between`, with the link to the last new node. -/
def chainCore (g : Graph) (next : Nat) (model : Json) : List ResolvedLoraRef → Graph × Json
  | [] => (g, model)
  | lora :: rest =>
    chainCore (insertNode g (toString next) (coreNode lora model)) (next + 1)
      (link (toString next) 0) rest

def injectWanCoreLorasBetween (py : Builtins) (loras : List ResolvedLoraRef)
    (modelAnchor shiftAnchor : String) (g : Graph) : Except GraphError Graph := do
  if loras = [] then return g
  let modelId ← findOr "inject_wan_core_loras" g modelAnchor
  let shiftId ← findOr "inject_wan_core_loras" g shiftAnchor
  let next ← nextId py 100 g
  let taken := loras.take wanMaxLoras
  strAll next taken.length
  let (g, last) := chainCore g next (link modelId 0) taken
  -- a node without inputs is left as it is
  return write g shiftId [("model", last)]

def isDual (g : Graph) : Bool :=
  (owner g "%WAN_MODEL_LOW%").isSome && (owner g "%WAN_SHIFT_LOW%").isSome

def highLoras : List ResolvedLoraRef → List ResolvedLoraRef
  | first :: _ :: rest => first :: rest
  | loras => loras

def lowLoras : List ResolvedLoraRef → List ResolvedLoraRef
  | _ :: second :: _ => [second]
  | _ => []

def injectWanCoreLoras (py : Builtins) (loras : List ResolvedLoraRef) (g : Graph) :
    Except GraphError Graph :=
  if isDual g then do
    let g ← injectWanCoreLorasBetween py (highLoras loras) "%WAN_MODEL%" "%WAN_SHIFT%" g
    injectWanCoreLorasBetween py (lowLoras loras) "%WAN_MODEL_LOW%" "%WAN_SHIFT_LOW%" g
  else injectWanCoreLorasBetween py loras "%WAN_MODEL%" "%WAN_SHIFT%" g

/-! ## `wan_advanced` -/

/-- The options of a section, when the section is given: those with a value. -/
def options (adv : Option Json) (part : String) (known : List String) : Option Fields :=
  match adv with
  | some (.obj sections) =>
    match Json.get sections part with
    | .obj opts => some <| known.filterMap fun key =>
        match Json.get opts key with
        | .null => none
        | value => some (key, value)
    | _ => none
  | _ => none

def encodeOptions : List String :=
  ["noise_aug_strength", "start_latent_strength", "end_latent_strength", "tiled_vae",
    "augment_empty_frames"]

def clipEncodeOptions : List String :=
  ["strength_1", "strength_2", "crop", "combine_embeds", "tiles", "ratio"]

def decodeOptions : List String :=
  ["enable_vae_tiling", "tile_x", "tile_y", "tile_stride_x", "tile_stride_y", "normalization"]

def blockSwapOptions : List String :=
  ["blocks_to_swap", "offload_img_emb", "offload_txt_emb", "use_non_blocking",
    "vace_blocks_to_swap", "prefetch_blocks", "block_swap_debug"]

def exportOptions : List String := ["crf", "pix_fmt", "format"]

/-- One section of the options at its anchor. `onlyClass` names the class that
alone takes them; `optional` says that the anchor may be missing. -/
def applySection (anchor : String) (onlyClass : Option String) (optional : Bool)
    (opts : Option Fields) (g : Graph) : Except GraphError Graph :=
  let fn := "apply_wan_advanced_patches"
  match opts with
  | none => .ok g
  | some patch =>
    match owner g anchor with
    | none =>
      if optional then .ok g else .error (.workflow (fn ++ ": " ++ anchor ++ " anchor missing"))
    | some id =>
      if onlyClass.all fun c => classAt g id = .str c then
        assignOr (invalidInputs fn id) g id patch
      else .ok g

/-- A section that only an image-to-video job applies. -/
def forI2v (task : VideoTask) (opts : Option Fields) : Option Fields :=
  match task with
  | .i2v => opts
  | .t2v => none

def applyWanAdvancedPatches (adv : Option Json) (task : VideoTask) (g : Graph) :
    Except GraphError Graph := do
  let g ← applySection "%WAN_DIMS%" (some "WanVideoImageToVideoEncode") false
    (forI2v task (options adv "encode" encodeOptions)) g
  let g ← applySection "%WAN_CLIP_ENCODE%" none true
    (forI2v task (options adv "clip_encode" clipEncodeOptions)) g
  let g ← applySection "%WAN_DECODE%" (some "WanVideoDecode") false
    (options adv "decode" decodeOptions) g
  let g ← applySection "%WAN_BLOCK_SWAP%" none true
    (options adv "block_swap" blockSwapOptions) g
  applySection "%VIDEO_OUTPUT%" none false (options adv "export" exportOptions) g

/-! ## LTX models -/

def ltxvAudioVaeFilename : String := "LTX23_audio_vae_bf16.safetensors"

def injectAudioVaeLoaders (g : Graph) : Graph :=
  g.map fun e => (e.1,
    if e.2.classType = .str "LTXVAudioVAELoader" then
      e.2.write [("ckpt_name", .str ltxvAudioVaeFilename)]
    else e.2)

def injectLtxvWeights (cfg : ModelConfig) (g : Graph) : Except GraphError Graph := do
  let ckpt := Json.str (basename cfg.checkpoint)
  let g ← injectAt "inject_ltxv_weights" g "%LTXV_CHECKPOINT%" [("ckpt_name", ckpt)]
  let g ← injectAt "inject_ltxv_weights" g "%LTXV_TEXT_ENCODER%"
    (("ckpt_name", ckpt) ::
      (given cfg.ltxvTextEncoder).toList.map fun te => ("text_encoder", .str (basename te)))
  return injectAudioVaeLoaders g

def injectLtxvVideoVae (vaeName : String) (g : Graph) : Except GraphError Graph :=
  injectAt "inject_ltxv_video_vae" g "%LTXV_VIDEO_VAE%" [("vae_name", .str vaeName)]

def injectLtxvSeed (actualSeed : Int) (g : Graph) : Except GraphError Graph :=
  injectAt "inject_ltxv_seed" g "%LTXV_SEED%" [("seed", .int (actualSeed % 1125899906842624))]

def injectLtxvFrames (frames : Nat) (g : Graph) : Except GraphError Graph :=
  injectAt "inject_ltxv_frames" g "%LTXV_FRAMES%" [("value", .int frames)]

/-! ## The initial image -/

def injectInitImage (g : Graph) (filename : String) : Except GraphError Graph :=
  match owner g "%INIT_IMAGE%" with
  | none => .ok g
  | some id =>
    match inputsAt g id with
    | .other refusal => .error (.other "TypeError" refusal)
    | _ => .ok (g.map fun e => (e.1,
        if e.1 = id then
          { e.2 with inputs := e.2.inputs.orEmpty.write [("image", .str filename)] }
        else e.2))

/-! ## The stages of the worker -/

def injectLatent (v : ValidatedJob) (g : Graph) : Except GraphError Graph :=
  match g.find? fun e => e.2.classType = .str "EmptyLatentImage" with
  | none => .ok g
  | some e => assign g e.1
      [("width", .int v.width), ("height", .int v.height), ("batch_size", .int v.n)]

def injectImage (py : Builtins) (v : ValidatedJob) (seed : Int) (g : Graph) :
    Except GraphError Graph := do
  let posId ← findAnchor g "%POSITIVE_PROMPT%"
  let negId ← findAnchor g "%NEGATIVE_PROMPT%"
  let ksId ← findAnchor g "%KSAMPLER%"
  let g ← assign g posId [("text", .str v.prompt)]
  let g ← assign g negId [("text", v.negativePrompt)]
  let g ← assign g ksId
    [("seed", .int seed), ("steps", v.steps), ("cfg", .float v.cfg),
      ("sampler_name", .str v.sampler), ("scheduler", .str v.scheduler)]
  let g ← injectLatent v g
  let g ← injectModelSource v.model g
  let g ← injectVpred v.model g
  injectLoras py v.loras g

/-- `try: .. find_anchor .. except KeyError: pass`. -/
def assignIfFound (g : Graph) (anchor : String) (patch : Fields) : Except GraphError Graph :=
  passKeyError g do
    let id ← findAnchor g anchor
    assign g id patch

def injectLtxv (v : ValidatedVideoJob) (seed : Int) (g : Graph) : Except GraphError Graph := do
  let g ← injectLtxvWeights v.model g
  let g ← injectLtxvVideoVae "LTX23_video_vae_bf16.safetensors" g
  let posId ← findAnchor g "%LTXV_POSITIVE%"
  let negId ← findAnchor g "%LTXV_NEGATIVE%"
  let g ← assign g posId [("text", .str v.prompt)]
  let g ← assign g negId [("text", .str v.negativePrompt)]
  let g ← injectLtxvSeed seed g
  let g ← injectLtxvFrames v.frames g
  assignIfFound g "%LTXV_OUTPUT%" [("frame_rate", .float v.fps)]

/-- `_is_core`. -/
def isCore (g : Graph) : Bool := g.any fun e => e.2.classType = .str "UNETLoader"

def injectWan (py : Builtins) (v : ValidatedVideoJob) (task : VideoTask) (g : Graph) :
    Except GraphError Graph := do
  let core := isCore g
  let g ← injectVideoWeights py v.model g
  let g ← injectMmaudioWeights v.model g
  let g ← if core then injectWanCoreLoras py v.loras g
    else injectWanLoraMulti v.loras v.wanAdvanced g
  applyWanAdvancedPatches v.wanAdvanced task g

def injectPrompts (v : ValidatedVideoJob) (g : Graph) : Except GraphError Graph := do
  -- no edit so far has changed a class
  if isCore g then
    let posId ← findAnchor g "%WAN_POSITIVE%"
    let negId ← findAnchor g "%WAN_NEGATIVE%"
    let g ← assign g posId [("text", .str v.prompt)]
    assign g negId [("text", .str v.negativePrompt)]
  else
    let promptsId ← findAnchor g "%WAN_PROMPTS%"
    assign g promptsId
      [("positive_prompt", .str v.prompt), ("negative_prompt", .str v.negativePrompt)]

def injectDims (v : ValidatedVideoJob) (g : Graph) : Except GraphError Graph := do
  let dimsId ← findAnchor g "%WAN_DIMS%"
  let framesInput := inputFor "WanImageToVideo" "length" "num_frames" (classAt g dimsId)
  assign g dimsId [("width", .int v.width), ("height", .int v.height), (framesInput, .int v.frames)]

/-- `_CORE_WAN_SCHEDULER_MAP`. -/
def coreScheduler (scheduler : String) : String :=
  match scheduler with
  | "unipc" => "simple"
  | "dpm++" => "dpm_fast"
  | "flow_dpm" => "simple"
  | s => s

/-- What the two passes of a core workflow share. -/
def passFields (v : ValidatedVideoJob) (seed : Int) : Fields :=
  [("noise_seed", .int seed), ("steps", .int v.steps), ("cfg", .float v.cfg),
    ("scheduler", .str (coreScheduler v.scheduler))]

def injectSampler (v : ValidatedVideoJob) (seed : Int) (g : Graph) : Except GraphError Graph := do
  let samplerId ← findAnchor g "%WAN_SAMPLER%"
  if classAt g samplerId = .str "KSamplerAdvanced" then
    let halfSteps := max 1 (v.steps / 2)
    let g ← assign g samplerId (passFields v seed ++
      [("end_at_step", .int halfSteps), ("return_with_leftover_noise", .str "enable")])
    let g ← assignIfFound g "%WAN_SHIFT%" [("shift", .float v.shift)]
    assignIfFound g "%WAN_NAG_SAMPLER%"
      (passFields v seed ++ [("start_at_step", .int halfSteps)])
  else
    assign g samplerId
      [("seed", .int seed), ("steps", .int v.steps), ("cfg", .float v.cfg),
        ("shift", .float v.shift), ("scheduler", .str v.scheduler),
        ("riflex_freq_index", .int v.riflexFreqIndex), ("force_offload", .bool v.forceOffload)]

def durationOf (py : Builtins) (v : ValidatedVideoJob) : PyFloat :=
  if v.fps.ge (.finite 0) ∧ v.fps ≠ .finite 0 then py.divide v.frames v.fps else .finite 8

def injectMmaudioSampler (py : Builtins) (v : ValidatedVideoJob) (seed : Int) (g : Graph) :
    Except GraphError Graph :=
  passKeyError g do
    let id ← findAnchor g "%MMAUDIO_SAMPLER%"
    let g ← assign g id
      [("duration", .float (durationOf py v)), ("prompt", .str v.prompt),
        ("negative_prompt", .str v.negativePrompt), ("seed", .int seed),
        ("force_offload", .bool v.forceOffload)]
    let steps ← toInt py ((v.model.defaults.lookup "mmaudio_steps").getD (.int 25))
    let cfg ← toFloat py ((v.model.defaults.lookup "mmaudio_cfg").getD (.float (.finite (9 / 2))))
    return write g id [("steps", .int steps), ("cfg", .float cfg)]

def injectWanRequest (py : Builtins) (v : ValidatedVideoJob) (seed : Int) (g : Graph) :
    Except GraphError Graph := do
  let g ← injectPrompts v g
  let g ← injectDims v g
  let g ← injectSampler v seed g
  let g ← assignIfFound g "%VIDEO_OUTPUT%" [("frame_rate", .float v.fps)]
  injectMmaudioSampler py v seed g

/-- A worker whose graphs are made by the functions above, from the files under
the working directory. -/
def wired (py : Builtins) (files : Path → WorkflowFile) (cwd : Path) (svc : Service Graph) :
    Service Graph :=
  { svc with
    loadWorkflow := loadWorkflow py files cwd
    injectImage := injectImage py
    injectLtxv := injectLtxv
    injectWan := injectWan py
    injectWanRequest := injectWanRequest py
    injectInitImage := injectInitImage }

end image_gen.injectors

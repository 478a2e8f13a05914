-- The bundle batch (`scripts/homm3-biome-bundle-batch.py`): what `main` reads of
-- a pack, the combinations that it goes through, and what it does for each.
import ImageGen.CivitaiFetch
import ImageGen.Graph
import ImageGen.RequestModels
import ImageGen.Results
import ImageGen.Runs

namespace image_gen.bundle_batch

open image_gen.json image_gen.file_tree image_gen.py_dict image_gen.graph image_gen.runs
open image_gen.civitai_fetch (slugChar subRuns)
open image_gen.eviction (pathWithSuffix)
open image_gen.lora_files (asPosix joinPath pyRepr)
open image_gen.request_models (Digits halves)
open image_gen.requests (Bytes)
open image_gen.results (refuseIf)

structure Lib where
  py : Builtins
  /-- `prompt_template.format(biome_hint=.., subject=..)`. It raises on another
  field. -/
  format : String → String → String → Option String
  /-- The text of `_COMPOSITION_ALLOWED`, in the order of its hashes. -/
  shownCompositions : String

/-- How `main` ends before it returns. -/
inductive Stop
  | exit (message : String)
  | raised (exception : String)
  deriving DecidableEq

/-! ## Builtins -/

section Builtins

variable (lib : Lib)

/-- `str(value)`. -/
def str : Json → String
  | .str s => s
  | j => lib.py.repr j

/-- `value!r`. -/
def shown : Json → String
  | .str s => pyRepr s
  | j => lib.py.repr j

def stripped (s : String) : String := String.ofList (strip s.toList)

/-- `str(value).strip()`. -/
def stripStr (j : Json) : String := stripped (str lib j)

/-- `d.get(key, default)`. A null that is there stays. -/
def getOr (fields : Fields) (key : String) (default : Json) : Json :=
  (fields.lookup key).getD default

/-- `int(value)`. -/
def intOf : Json → Except Stop Int
  | .int i => .ok i
  | .bool b => .ok (if b then 1 else 0)
  | .float (.finite q) => .ok (q.num.tdiv q.den)
  | .float .nan => .error (.raised "ValueError")
  | .float _ => .error (.raised "OverflowError")
  | .str s =>
    match lib.py.parseInt s with
    | some i => .ok i
    | none => .error (.raised "ValueError")
  | _ => .error (.raised "TypeError")

/-- `float(value)`. An int beyond the floats is left out. -/
def floatOf : Json → Except Stop PyFloat
  | .int i => .ok (.finite i)
  | .bool b => .ok (.finite (if b then 1 else 0))
  | .float x => .ok x
  | .str s =>
    match lib.py.parseFloat s with
    | some x => .ok x
    | none => .error (.raised "ValueError")
  | _ => .error (.raised "TypeError")

end Builtins

/-- `for item in value`. -/
def iterate : Json → Except Stop (List Json)
  | .arr items => .ok items
  | .obj fields => .ok (fields.map fun f => .str f.1)
  | .str s => .ok (s.toList.map fun c => .str (String.singleton c))
  | _ => .error (.raised "TypeError")

/-- `isinstance(value, list) and value`. -/
def nonEmptyList : Json → Option (List Json)
  | .arr [] => none
  | .arr items => some items
  | _ => none

/-! ## Names -/

def stripUnderscores (s : List Char) : List Char :=
  ((s.dropWhile (· = '_')).reverse.dropWhile (· = '_')).reverse

/-- `_safe`. What is left is ASCII. -/
def safe (value : String) : String :=
  String.ofList
    ((stripUnderscores (subRuns (fun c => !slugChar c) false value.toList)).map Char.toLower)

/-- `_normalize_size`. -/
def normalizeSize (lib : Lib) (value : String) : String :=
  let s := (lib.py.str.lower (strip value.toList)).filter (· ≠ ' ')
  match halves s with
  | some (w, h) => String.ofList (w ++ 'x' :: h)
  | none => String.ofList s

/-- `_SIZE_PATTERN`. A newline may stand at the end. -/
def MatchesSizePattern (lib : Lib) (size : String) : Prop :=
  match halves size.toList with
  | some (w, h) =>
    Digits lib.py.str w ∧
      Digits lib.py.str (if h.getLast? = some '\n' then h.dropLast else h)
  | none => False

instance (lib : Lib) : DecidablePred (MatchesSizePattern lib) := fun size =>
  match h : halves size.toList with
  | some (w, rest) =>
    decidable_of_iff (Digits lib.py.str w ∧
        Digits lib.py.str (if rest.getLast? = some '\n' then rest.dropLast else rest))
      (by rw [MatchesSizePattern, h])
  | none => isFalse (by rw [MatchesSizePattern, h]; exact id)

def validateSizeToken (lib : Lib) (raw entryId : String) : Except Stop String :=
  let size := normalizeSize lib raw
  if MatchesSizePattern lib size then .ok size
  else .error (.exit ("entry " ++ pyRepr entryId ++ ": invalid size " ++ pyRepr raw ++
    " (expect WxH e.g. 1024x1536)"))

/-! ## Entries -/

section Entries

variable (lib : Lib)

def effectiveSizesForEntry (entry : Fields) (packDefaultSize : String) :
    Except Stop (List String) := do
  let entryId := str lib (getOr entry "id" (.str "?"))
  let defaultTok ← validateSizeToken lib packDefaultSize entryId
  match nonEmptyList (Json.get entry "sizes") with
  | none => .ok [defaultTok]
  | some items =>
    let toks := (items.map (stripStr lib)).filter (· ≠ "")
    let out ← toks.mapM fun tok => validateSizeToken lib tok entryId
    .ok (if out = [] then [defaultTok] else out)

/-- A footprint. `True` passes for an int. -/
def footprint (entry : Fields) (key : String) : Except Stop Fields :=
  let refusal := Stop.exit ("entry " ++ shown lib (Json.get entry "id") ++ ": " ++ key ++
    " must be positive int")
  match Json.get entry key with
  | .null => .ok []
  | .int i => if 0 < i then .ok [(key, .int i)] else .error refusal
  | .bool true => .ok [(key, .bool true)]
  | _ => .error refusal

def compositionAllowed : List String := ["single_tile", "tall_sprite", "wide_scene", "dense_tile"]

/-- `composition`, where it is a text. -/
def composition (entry : Fields) : Except Stop Fields :=
  match Json.get entry "composition" with
  | .str comp =>
    let c := stripped comp
    if c = "" then .ok []
    else if c ∈ compositionAllowed then .ok [("composition", .str c)]
    else .error (.exit ("entry " ++ shown lib (Json.get entry "id") ++
      ": composition must be one of " ++ lib.shownCompositions))
  | _ => .ok []

def category (entry : Fields) : Fields :=
  match Json.get entry "category" with
  | .str cat => if stripped cat = "" then [] else [("category", .str (stripped cat))]
  | _ => []

def entrySemanticFields (entry : Fields) : Except Stop Fields := do
  let wid ← footprint lib entry "footprint_tiles_w"
  let hit ← footprint lib entry "footprint_tiles_h"
  let comp ← composition lib entry
  .ok (wid ++ hit ++ comp ++ category entry)

/-- `{str(x).strip() for x in items if str(x).strip()}`. -/
def strippedTexts (items : List Json) : List String :=
  (items.map (stripStr lib)).filter (· ≠ "")

def entryAllowedForBiome (entry : Fields) (biomeId : String) : Bool :=
  match nonEmptyList (Json.get entry "biomes_include") with
  | some inc => decide (biomeId ∈ strippedTexts lib inc)
  | none =>
    match nonEmptyList (Json.get entry "biomes_exclude") with
    | some exc => decide (biomeId ∉ strippedTexts lib exc)
    | none => true

end Entries

/-! ## Packs -/

inductive Lane
  | terrain
  | structures
  | misc
  | bush
  | mushroom
  deriving DecidableEq

/-- The lane's name, and its folder in `LANE_OUTPUT_FOLDER`. -/
def Lane.text : Lane → String
  | .terrain => "terrain"
  | .structures => "structures"
  | .misc => "misc"
  | .bush => "bush"
  | .mushroom => "mushroom"

/-- The field that the entries of a lane stand in. -/
def Lane.entriesKey : Lane → String
  | .terrain => "terrain_entries"
  | .structures => "structure_entries"
  | .misc => "misc_entries"
  | .bush => "bush_entries"
  | .mushroom => "mushroom_entries"

def assetSummary (lib : Lib) (entry : Fields) (biomeId : String) (lane : Lane) : String :=
  let explicit := stripStr lib (getOr entry "asset_summary" (.str ""))
  if explicit ≠ "" then explicit
  else
    let subject := stripStr lib (getOr entry "prompt_subject" (getOr entry "id" (.str "")))
    let eid := stripStr lib (getOr entry "id" (.str ""))
    lane.text ++ " asset for biome " ++ biomeId ++ ": " ++ if subject ≠ "" then subject else eid

structure Args where
  packPath : String
  outDir : String
  modelOverride : String

/-- `_load_pack`. There is no text where the file is missing. -/
def loadPack (args : Args) : Option StoredJson → Except Stop Fields
  | none => .error (.exit ("Batch pack not found: " ++ args.packPath))
  | some (.malformed message) =>
    .error (.exit ("Invalid JSON in " ++ args.packPath ++ ": " ++ message))
  | some (.unreadable _) => .error (.raised "RecursionError")
  | some (.value (.obj fields)) => .ok fields
  | some (.value _) => .error (.exit ("Batch pack root must be object: " ++ args.packPath))

def validateLora (lib : Lib) (idx : Nat) : Json → Except Stop Json
  | .obj item => do
    let name := stripStr lib (getOr item "name" (.str ""))
    if name = "" then
      .error (.exit ("loras[" ++ toString idx ++ "].name is required."))
    else
      match floatOf lib (getOr item "weight" (.float (.finite 1))) with
      | .ok weight => .ok (.obj [("name", .str name), ("weight", .float weight)])
      | .error _ => .error (.exit ("loras[" ++ toString idx ++ "].weight must be a number."))
  | _ => .error (.exit ("loras[" ++ toString idx ++ "] must be an object."))

/-- `_validate_loras_field`. -/
def validateLorasField (lib : Lib) : Json → Except Stop (List Json)
  | .null => .ok []
  | .arr items => items.zipIdx.mapM fun item => validateLora lib item.2 item.1
  | _ => .error (.exit "Batch pack `loras` must be a list of \x7bname, weight\x7d objects.")

/-- `_lane_and_entries`: the first lane that has entries. -/
def laneAndEntries (pack : Fields) : Except Stop (Lane × List Json) :=
  let lanes : List Lane := [.terrain, .structures, .misc, .bush, .mushroom]
  match lanes.findSome? fun lane =>
      (nonEmptyList (Json.get pack lane.entriesKey)).map fun entries => (lane, entries) with
  | some found => .ok found
  | none => .error (.exit ("Pack must define non-empty terrain_entries, structure_entries, " ++
      "misc_entries, bush_entries, or mushroom_entries."))

/-- What `main` has before its loops. -/
structure Settings where
  lane : Lane
  entries : List Json
  biomes : List Json
  promptTemplate : String
  negativePrompt : String
  model : String
  packDefaultSize : String
  steps : Int
  cfg : PyFloat
  defaultTransparent : Json
  seeds : List Int
  sampler : String
  scheduler : String
  loras : List Json
  packPath : String
  outRoot : Path

/-- `needle in text`. -/
def contains (needle : String) (text : String) : Bool :=
  text.toList.tails.any fun tail => needle.toList.isPrefixOf tail

/-- `str(value).strip()`, of a value that may be null. -/
def optionalText (lib : Lib) : Json → String
  | .null => ""
  | j => stripStr lib j

def refuse (cond : Bool) (message : String) : Except Stop Unit := refuseIf cond (.exit message)

/-- `main`, down to its loops. -/
def settings (lib : Lib) (args : Args) (file : Option StoredJson) : Except Stop Settings := do
  let pack ← loadPack args file
  let (lane, entries) ← laneAndEntries pack
  let packLane := stripStr lib (getOr pack "lane" (.str ""))
  refuse (packLane ≠ "" && packLane ≠ lane.text)
    ("Pack lane field " ++ pyRepr packLane ++ " disagrees with entries (" ++ lane.text ++ ").")
  let biomes ← iterate (getOr pack "biomes" (.arr []))
  refuse biomes.isEmpty "Pack has no biomes[]."
  let promptTemplate := stripStr lib (getOr pack "prompt_template" (.str ""))
  refuse (!contains "\x7bbiome_hint\x7d" promptTemplate ||
      !contains "\x7bsubject\x7d" promptTemplate)
    "prompt_template must include \x7bbiome_hint\x7d and \x7bsubject\x7d placeholders."
  let negativePrompt := str lib (getOr pack "negative_prompt" (.str ""))
  let override := stripped args.modelOverride
  let model := if override ≠ "" then override else stripStr lib (getOr pack "model" (.str ""))
  refuse (model = "") "Pack model is empty and --model-override not set."
  let packDefaultSize ← validateSizeToken lib (str lib (getOr pack "size" (.str "1024x1024")))
    "__pack__"
  let steps ← intOf lib (getOr pack "steps" (.int 28))
  let cfg ← floatOf lib (getOr pack "cfg" (.float (.finite 1)))
  let seedsRaw ← iterate (getOr pack "seeds" (.arr [.int 101]))
  let seeds ← seedsRaw.mapM (intOf lib)
  let loras ← validateLorasField lib (Json.get pack "loras")
  .ok {
    lane, entries, biomes, promptTemplate, negativePrompt, model, packDefaultSize, steps, cfg
    defaultTransparent := Json.get pack "transparent_background"
    seeds
    sampler := optionalText lib (Json.get pack "sampler")
    scheduler := optionalText lib (Json.get pack "scheduler")
    loras
    packPath := args.packPath
    outRoot := joinPath [] args.outDir }

/-! ## Combinations -/

/-- What the loops bind for one image. -/
structure Item where
  biomeId : String
  entryId : String
  size : String
  seed : Int
  prompt : String
  transparentBackground : Option Bool
  summary : String
  assetTags : List String
  semanticExtra : Fields

/-- The combination that an item stands for. -/
def Item.combination (i : Item) : String × String × String × Int :=
  (i.biomeId, i.entryId, i.size, i.seed)

/-- The entry's own flag, or the pack's where that is a bool. -/
def transparentFor (s : Settings) (entry : Fields) : Option Bool :=
  match Json.get entry "transparent_background" with
  | .null =>
    match s.defaultTransparent with
    | .bool b => some b
    | _ => none
  | tb => some tb.truthy

def assetTagsOf (lib : Lib) (entry : Fields) : List String :=
  match getOr entry "asset_tags" (.arr []) with
  | .arr tags => strippedTexts lib tags
  | _ => []

/-- One turn of the two outer loops: a biome with an entry. -/
def turn (lib : Lib) (s : Settings) : Json → Json → Except Stop (List Item)
  | .obj biome, .obj entry =>
    let biomeId := stripStr lib (getOr biome "id" (.str ""))
    let biomeHint := stripStr lib (getOr biome "hint" (.str ""))
    let entryId := stripStr lib (getOr entry "id" (.str ""))
    let subject := stripStr lib (getOr entry "prompt_subject" (.str ""))
    if biomeId = "" ∨ biomeHint = "" ∨ entryId = "" ∨ subject = "" then .ok []
    else if entryAllowedForBiome lib entry biomeId = false then .ok []
    else do
      let semanticExtra ← entrySemanticFields lib entry
      let sizes ← effectiveSizesForEntry lib entry s.packDefaultSize
      match lib.format s.promptTemplate biomeHint subject with
      | none => .error (.raised "format")
      | some prompt =>
        .ok (sizes.flatMap fun size => s.seeds.map fun seed => {
          biomeId, entryId, size, seed, prompt
          transparentBackground := transparentFor s entry
          summary := assetSummary lib entry biomeId s.lane
          assetTags := assetTagsOf lib entry
          semanticExtra })
  | _, _ => .ok []

/-- The items in order, down to the turn that ends `main` if there is one. -/
structure Plan where
  items : List Item
  stop : Option Stop

def planOf : List (Except Stop (List Item)) → Plan
  | [] => ⟨[], none⟩
  | .error e :: _ => ⟨[], some e⟩
  | .ok items :: rest => ⟨items ++ (planOf rest).items, (planOf rest).stop⟩

def plan (lib : Lib) (s : Settings) : Plan :=
  planOf (s.biomes.flatMap fun biome => s.entries.map fun entry => turn lib s biome entry)

/-! ## Files -/

def sizeToken (size : String) : String :=
  safe (String.ofList (size.toList.map fun c => if c = 'x' then '_' else c))

def fileName (i : Item) : String :=
  safe i.entryId ++ "__" ++ sizeToken i.size ++ "__s" ++ toString i.seed ++ ".png"

/-- The PNG. -/
def target (s : Settings) (i : Item) : Path :=
  joinPath (joinPath (joinPath s.outRoot (safe i.biomeId)) s.lane.text) (fileName i)

def sidecar (s : Settings) (i : Item) : Path := pathWithSuffix (target s i) ".prompt.json"

def manifestPath (s : Settings) : Path := joinPath s.outRoot "asset-manifest.ndjson"

/-! ## Requests and records -/

def optional (key : String) (value : Option Json) : Fields :=
  match value with
  | some j => [(key, j)]
  | none => []

def textOption (text : String) : Option Json := if text = "" then none else some (.str text)

def payload (s : Settings) (i : Item) : Fields :=
  [("model", .str s.model), ("prompt", .str i.prompt), ("negative_prompt", .str s.negativePrompt),
    ("size", .str i.size), ("steps", .int s.steps), ("cfg", .float s.cfg), ("seed", .int i.seed)] ++
  optional "transparent_background" (i.transparentBackground.map .bool) ++
  optional "sampler" (textOption s.sampler) ++ optional "scheduler" (textOption s.scheduler) ++
  optional "loras" (if s.loras = [] then none else some (.arr s.loras))

/-- The payload of the second request. -/
def retryPayload (s : Settings) (i : Item) : Fields :=
  delete (payload s i) "transparent_background"

def jsonOption : Option String → Json
  | some s => .str s
  | none => .null

/-- `_build_prompt_meta`. -/
def buildPromptMeta (s : Settings) (i : Item) (transparentBackground : Option Bool)
    (jobId : Option String) (generatedAt : String) : Fields :=
  let record : Fields :=
    [("schema_version", .int 2),
      ("scenario_id",
        .str (i.biomeId ++ "__" ++ s.lane.text ++ "__" ++ i.entryId ++ "__" ++ i.size)),
      ("biome_id", .str i.biomeId), ("lane", .str s.lane.text), ("entry_id", .str i.entryId),
      ("seed", .int i.seed), ("asset_summary", .str i.summary),
      ("asset_tags", .arr (i.assetTags.map .str)), ("prompt", .str i.prompt),
      ("negative_prompt", .str s.negativePrompt), ("model", .str s.model),
      ("loras", .arr s.loras), ("steps", .int s.steps), ("cfg", .float s.cfg),
      ("size", .str i.size),
      ("transparent_background", (transparentBackground.map Json.bool).getD .null),
      ("pack_path", .str s.packPath), ("job_id", jsonOption jobId),
      ("generated_at", .str generatedAt),
      ("relative_image_path", .str (String.ofList ((asPosix ((target s i).drop
        s.outRoot.length)).toList.map fun c => if c = '\\' then '/' else c)))]
  update (update record i.semanticExtra)
    (optional "sampler" (textOption s.sampler) ++ optional "scheduler" (textOption s.scheduler))

/-- The record of an image, of the first request or of the second. -/
def record (s : Settings) (i : Item) (retry : Bool) (jobId : Option String)
    (generatedAt : String) : Fields :=
  if retry then
    update (buildPromptMeta s i none jobId generatedAt)
      [("transparent_background_fallback", .bool true),
        ("original_transparent_background", (i.transparentBackground.map Json.bool).getD .null)]
  else buildPromptMeta s i i.transparentBackground jobId generatedAt

end image_gen.bundle_batch

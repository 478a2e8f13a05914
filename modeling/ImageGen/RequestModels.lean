-- The request classes (`app/validation.py`) as Pydantic reads them. Its lax
-- conversions of numbers and booleans are parameters. Lengths, ranges, patterns and
-- the keys of a body stand here, and a request carries the bounds that it passed.
import ImageGen.Graph

namespace image_gen.request_models

open image_gen.json image_gen.job_store image_gen.lora_files image_gen.py_str image_gen.requests
open image_gen.graph (Builtins)

/-- What the handlers and the worker validate with. -/
structure Context extends Validator where
  py : Builtins
  /-- Pydantic's reading of an `int` and of a `bool` field. -/
  int : Json → Option Int
  bool : Json → Option Bool
  /-- Digits have one case. -/
  lower_decimal : ∀ c, (py.str.decimal c).isSome = true → py.str.lower [c] = [c]

/-! ## Fields -/

section Fields

variable {α : Type}

def text : Json → Option String
  | .str s => some s
  | _ => none

def optional (read : Json → Option α) : Json → Option (Option α)
  | .null => some none
  | j => (read j).map some

/-- A value with the bound that Pydantic checks. -/
def such (p : α → Prop) [DecidablePred p] (read : Json → Option α) (j : Json) :
    Option { a // p a } :=
  (read j).bind fun a => if h : p a then some ⟨a, h⟩ else none

def required (fields : List (String × Json)) (key : String) (read : Json → Option α) : Option α :=
  (fields.lookup key).bind read

def field (fields : List (String × Json)) (key : String) (default : α) (read : Json → Option α) :
    Option α :=
  match fields.lookup key with
  | none => some default
  | some j => read j

end Fields

/-- `min_length` and `max_length`. -/
def LengthWithin (lo hi : Nat) (s : String) : Prop := lo ≤ s.length ∧ s.length ≤ hi

instance (lo hi : Nat) : DecidablePred (LengthWithin lo hi) := fun s => by
  unfold LengthWithin
  infer_instance

/-- `ge` and `le` of a float. A NaN passes both. -/
def Within (lo hi : ℚ) (x : PyFloat) : Prop :=
  (PyFloat.finite lo).gt x = false ∧ x.gt (.finite hi) = false

instance (lo hi : ℚ) : DecidablePred (Within lo hi) := fun x => by
  unfold Within
  infer_instance

/-- The text that a literal type accepts, with what it stands for. -/
def literal {α : Type} (values : List (String × α)) (j : Json) : Option α :=
  (text j).bind fun s => values.lookup s

def readResponseFormat : Json → Option ResponseFormat :=
  literal [("url", .url), ("b64_json", .b64Json)]

def readJobMode : Json → Option JobMode := literal [("sync", .sync), ("async", .async)]

/-! ## The size -/

/-- `split("x", 1)`. -/
def halves (chars : List Char) : Option (List Char × List Char) :=
  match chars.dropWhile (· ≠ 'x') with
  | _ :: rest => some (chars.takeWhile (· ≠ 'x'), rest)
  | [] => none

/-- `\d{3,4}`, the digits being those of all scripts. -/
def Digits (str : PyStr) (chars : List Char) : Prop :=
  3 ≤ chars.length ∧ chars.length ≤ 4 ∧ ∀ c ∈ chars, (str.decimal c).isSome = true

instance (str : PyStr) : DecidablePred (Digits str) := fun chars => by
  unfold Digits
  infer_instance

def MatchesSize (str : PyStr) (size : String) : Prop :=
  match halves size.toList with
  | some (w, h) => Digits str w ∧ Digits str h
  | none => False

instance (str : PyStr) : DecidablePred (MatchesSize str) := fun size => by
  unfold MatchesSize
  split <;> infer_instance

theorem digits_of_ascii {str : PyStr} {chars : List Char} (hlo : 3 ≤ chars.length)
    (hhi : chars.length ≤ 4) (h : ∀ c ∈ chars, c.isDigit = true) : Digits str chars := by
  refine ⟨hlo, hhi, fun c hc => ?_⟩
  rw [str.decimal_digit c (h c hc)]
  rfl

theorem matches_1024x1024 (str : PyStr) : MatchesSize str "1024x1024" :=
  ⟨digits_of_ascii (by decide) (by decide) (by decide),
    digits_of_ascii (by decide) (by decide) (by decide)⟩

theorem matches_832x480 (str : PyStr) : MatchesSize str "832x480" :=
  ⟨digits_of_ascii (by decide) (by decide) (by decide),
    digits_of_ascii (by decide) (by decide) (by decide)⟩

/-! ## The webhook -/

structure WebhookSpec where
  url : String
  headers : List (String × String)

def header (f : String × Json) : Option (String × String) := (text f.2).map fun v => (f.1, v)

def webhookHeaders : Json → Option (List (String × String))
  | .null => some []
  | .obj fields => if fields.length ≤ 10 then fields.mapM header else none
  | _ => none

def WebhookSpec.ofJson : Json → Option WebhookSpec
  | .obj fields =>
    if ∀ f ∈ fields, f.1 ∈ ["url", "headers"] then do
      let url ← required fields "url" (such (LengthWithin 1 2048) text)
      let headers ← field fields "headers" [] webhookHeaders
      return ⟨url, headers⟩
    else none
  | _ => none

/-! ## `wan_advanced` -/

inductive OptionType
  | bool
  | int (lo hi : Int)
  | float (lo hi : ℚ)
  | text (maxLength : Nat)
  | literal (values : List String)

/-- An option that is given. -/
def OptionType.read (c : Context) (j : Json) : OptionType → Option Json
  | .bool => (c.bool j).map .bool
  | .int lo hi => (such (fun i => lo ≤ i ∧ i ≤ hi) c.int j).map fun i => .int i
  | .float lo hi => (such (Within lo hi) c.float j).map fun x => .float x
  | .text maxLength =>
    (such (LengthWithin 0 maxLength) request_models.text j).map fun s => .str s
  | .literal values => (such (· ∈ values) request_models.text j).map fun s => .str s

/-- A section: each option may be absent or null. -/
def optionSection (c : Context) (known : List (String × OptionType)) : Json → Option Json
  | .obj fields =>
    let readOne (k : String × OptionType) : Option (String × Json) :=
      (optional (fun j => k.2.read c j) (Json.get fields k.1)).map fun value =>
        (k.1, value.getD .null)
    if ∀ f ∈ fields, f.1 ∈ known.map Prod.fst then (known.mapM readOne).map .obj else none
  | _ => none

def encodeOptions : List (String × OptionType) :=
  [("noise_aug_strength", .float 0 100), ("start_latent_strength", .float 0 10),
    ("end_latent_strength", .float 0 10), ("tiled_vae", .bool),
    ("augment_empty_frames", .float 0 100)]

def clipEncodeOptions : List (String × OptionType) :=
  [("strength_1", .float (-10) 10), ("strength_2", .float (-10) 10), ("crop", .text 64),
    ("combine_embeds", .text 64), ("tiles", .int 0 512), ("ratio", .float 0 2)]

def decodeOptions : List (String × OptionType) :=
  [("enable_vae_tiling", .bool), ("tile_x", .int 16 8192), ("tile_y", .int 16 8192),
    ("tile_stride_x", .int 8 8192), ("tile_stride_y", .int 8 8192), ("normalization", .text 64)]

def blockSwapOptions : List (String × OptionType) :=
  [("blocks_to_swap", .int 0 128), ("offload_img_emb", .bool), ("offload_txt_emb", .bool),
    ("use_non_blocking", .bool), ("vace_blocks_to_swap", .int 0 128),
    ("prefetch_blocks", .int 0 128), ("block_swap_debug", .bool)]

def exportOptions : List (String × OptionType) :=
  [("crf", .int 0 51), ("pix_fmt", .literal ["yuv420p", "yuv444p"]),
    ("format", .literal ["video/h264-mp4", "video/webm", "video/av1-webm"])]

/-- `WanVideoAdvancedOptions`. -/
def wanVideoAdvancedOptions (c : Context) : Json → Option Json
  | .obj fields =>
    if ∀ f ∈ fields, f.1 ∈ ["merge_loras", "low_mem_load", "encode", "clip_encode", "decode",
        "block_swap", "export"] then do
      let part (key : String) (read : Json → Option Json) : Option (String × Json) :=
        (optional read (Json.get fields key)).map fun value => (key, value.getD .null)
      let flag := OptionType.bool.read c
      let parts ← [part "merge_loras" (fun j => flag j), part "low_mem_load" (fun j => flag j),
        part "encode" (optionSection c encodeOptions),
        part "clip_encode" (optionSection c clipEncodeOptions),
        part "decode" (optionSection c decodeOptions),
        part "block_swap" (optionSection c blockSwapOptions),
        part "export" (optionSection c exportOptions)].mapM id
      return .obj parts
    else none
  | _ => none

/-! ## The requests -/

abbrev Size (c : Context) := { size : String // MatchesSize c.py.str size }

abbrev AtLeastOne := { i : Int // 1 ≤ i }

abbrev Frames := { i : Int // 5 ≤ i ∧ i ≤ 10000 }

structure GenerateRequest (c : Context) where
  model : String
  prompt : String
  negativePrompt : Option String
  size : Size c
  n : AtLeastOne
  steps : Option AtLeastOne
  cfg : PyFloat
  seed : Int
  sampler : Option String
  scheduler : Option String
  responseFormat : ResponseFormat
  transparentBackground : Bool
  mode : JobMode
  timeoutS : Option PyFloat
  loras : List LoraSpec
  initImage : Option String
  webhook : Option WebhookSpec

structure VideoGenerateRequest (c : Context) where
  model : String
  prompt : String
  negativePrompt : Option String
  size : Size c
  frames : Frames
  fps : PyFloat
  steps : Option AtLeastOne
  cfg : Option PyFloat
  shift : Option PyFloat
  seed : Int
  scheduler : Option String
  riflexFreqIndex : Int
  forceOffload : Bool
  generateAudio : Bool
  responseFormat : ResponseFormat
  mode : JobMode
  timeoutS : Option PyFloat
  webhook : Option WebhookSpec
  initImage : Option String
  loras : List LoraSpec
  wanAdvanced : Option Json

section Readers

variable (c : Context)

def textWithin (lo hi : Nat) (j : Json) : Option String :=
  (such (LengthWithin lo hi) text j).map Subtype.val

/-- `min_length=1`. -/
def nonEmptyText (j : Json) : Option String := (such (· ≠ "") text j).map Subtype.val

def floatWithin (lo hi : ℚ) (j : Json) : Option PyFloat :=
  (such (Within lo hi) c.float j).map Subtype.val

def intWithin (lo hi : Int) (j : Json) : Option Int :=
  (such (fun i => lo ≤ i ∧ i ≤ hi) c.int j).map Subtype.val

def atLeastOne : Json → Option AtLeastOne := such (1 ≤ ·) c.int

def seedOf (fields : List (String × Json)) : Option Int :=
  field fields "seed" (-1) (intWithin c (-1) (2 ^ 53))

def objectFields : Json → List (String × Json)
  | .obj fields => fields
  | _ => []

/-- `GenerateRequest.model_validate`. -/
def GenerateRequest.ofJson (raw : Json) : Option (GenerateRequest c) := do
  let base ← generateRequest c.toValidator raw
  let fields := objectFields raw
  let prompt ← required fields "prompt" (textWithin 1 8000)
  let negativePrompt ← field fields "negative_prompt" none (optional (textWithin 0 2000))
  let size ← field fields "size" ⟨"1024x1024", matches_1024x1024 c.py.str⟩ (such _ text)
  let n ← field fields "n" ⟨1, by decide⟩ (atLeastOne c)
  let steps ← field fields "steps" none (optional (atLeastOne c))
  let cfg ← field fields "cfg" (.finite 5) (floatWithin c 0 30)
  let seed ← seedOf c fields
  let sampler ← field fields "sampler" none (optional nonEmptyText)
  let scheduler ← field fields "scheduler" none (optional nonEmptyText)
  let responseFormat ← field fields "response_format" .url readResponseFormat
  let transparentBackground ← field fields "transparent_background" true c.bool
  let mode ← field fields "mode" .sync readJobMode
  let timeoutS ← field fields "timeout_s" none (optional (floatWithin c 1 3600))
  let initImage ← field fields "init_image" none (optional text)
  let webhook ← field fields "webhook" none (optional WebhookSpec.ofJson)
  return { base with
    prompt, negativePrompt, size, n, steps, cfg, seed, sampler, scheduler, responseFormat,
    transparentBackground, mode, timeoutS, initImage, webhook }

/-- `VideoGenerateRequest.model_validate`. -/
def VideoGenerateRequest.ofJson (raw : Json) : Option (VideoGenerateRequest c) := do
  let base ← videoGenerateRequest c.toValidator raw
  let fields := objectFields raw
  let prompt ← required fields "prompt" (textWithin 1 8000)
  let negativePrompt ← field fields "negative_prompt" none (optional (textWithin 0 2000))
  let size ← field fields "size" ⟨"832x480", matches_832x480 c.py.str⟩ (such _ text)
  let frames ← field fields "frames" ⟨81, by decide⟩ (such _ c.int)
  let fps ← field fields "fps" (.finite 16) (floatWithin c 1 120)
  let steps ← field fields "steps" none (optional (atLeastOne c))
  let cfg ← field fields "cfg" none (optional (floatWithin c 0 30))
  let shift ← field fields "shift" none (optional (floatWithin c 0 1000))
  let seed ← seedOf c fields
  let scheduler ← field fields "scheduler" none (optional (textWithin 1 64))
  let riflexFreqIndex ← field fields "riflex_freq_index" 0 (intWithin c 0 1000)
  let forceOffload ← field fields "force_offload" true c.bool
  let generateAudio ← field fields "generate_audio" false c.bool
  let responseFormat ← field fields "response_format" .url readResponseFormat
  let mode ← field fields "mode" .sync readJobMode
  let timeoutS ← field fields "timeout_s" none (optional (floatWithin c 1 7200))
  let webhook ← field fields "webhook" none (optional WebhookSpec.ofJson)
  let initImage ← field fields "init_image" none (optional text)
  let wanAdvanced ← field fields "wan_advanced" none (optional (wanVideoAdvancedOptions c))
  return { base with
    prompt, negativePrompt, size, frames, fps, steps, cfg, shift, seed, scheduler,
    riflexFreqIndex, forceOffload, generateAudio, responseFormat, mode, timeoutS, webhook,
    initImage, wanAdvanced }

end Readers

end image_gen.request_models

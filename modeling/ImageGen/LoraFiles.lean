-- LoRA references: the names that a request and the registry give, and the
-- files under LORAS_ROOT that the validator resolves them to.
import ImageGen.FileTree
import ImageGen.PyStr
import ImageGen.Worker

namespace image_gen.lora_files

open image_gen.json image_gen.job_store image_gen.requests image_gen.file_tree

/-- A regular file: its size, and what `json.loads` makes of its text. -/
structure Contents where
  size : Nat
  text : StoredJson

abbrev LoraTree := FileTree Contents

/-! ## Path names -/

/-- The components that `pathlib` keeps: a doubled slash and a dot are gone,
two dots stay. -/
def components (s : String) : List String :=
  ((s.toList.splitOn '/').map String.ofList).filter fun c => c ≠ "" ∧ c ≠ "."

/-- `root / s`. An absolute `s` takes the place of the root. -/
def joinPath (root : Path) (s : String) : Path :=
  if s.toList.head? = some '/' then components s else root ++ components s

def asPosix (p : List String) : String := String.intercalate "/" p

/-- `with_suffix` on the last name of a path. A dot at either end starts no
suffix. -/
def withSuffix (name suffix : String) : String :=
  let chars := name.toList
  let ext := chars.reverse.takeWhile (· ≠ '.')
  if '.' ∈ chars ∧ ext ≠ [] ∧ ext.length + 1 < chars.length then
    String.ofList (chars.take (chars.length - ext.length - 1)) ++ suffix
  else name ++ suffix

/-- `repr` of a text without control characters. -/
def pyRepr (s : String) : String :=
  let quote := if '\'' ∈ s.toList ∧ '"' ∉ s.toList then '"' else '\''
  let escaped := s.toList.flatMap fun c => if c = '\\' ∨ c = quote then ['\\', c] else [c]
  String.ofList (quote :: escaped ++ [quote])

/-! ## Requests -/

/-- A letter or a digit of ASCII, or an underscore. -/
def leadingChar (c : Char) : Bool := c.isAlphanum || c = '_'

def nameChar (c : Char) : Bool := leadingChar c || c = '/' || c = '-' || c = '.'

/-- The pattern of `LoraSpec.name`. -/
def MatchesPattern (name : String) : Prop :=
  match name.toList with
  | [] => False
  | c :: cs => leadingChar c ∧ ∀ d ∈ cs, nameChar d

instance (name : String) : Decidable (MatchesPattern name) := by
  unfold MatchesPattern
  split <;> infer_instance

structure LoraSpec where
  name : String
  weight : PyFloat
  pattern : MatchesPattern name
  maxLength : name.length ≤ 256

/-- What the handlers share. -/
structure Validator where
  registry : String → Option ModelConfig
  /-- Resolved by the lifespan. -/
  lorasRoot : Path
  /-- Pydantic's reading of a `float` field. -/
  float : Json → Option PyFloat

/-- `LoraSpec.model_validate`, which forbids extra keys. -/
def LoraSpec.ofJson (v : Validator) : Json → Option LoraSpec
  | .obj fields =>
    if ∀ f ∈ fields, f.1 ∈ ["name", "weight"] then
      match fields.lookup "name", fields.lookup "weight" with
      | some (.str name), some weight =>
        (v.float weight).bind fun w =>
          if h : MatchesPattern name ∧ name.length ≤ 256 then some ⟨name, w, h.1, h.2⟩ else none
      | _, _ => none
    else none
  | _ => none

/-- The fields of a body that LoRA resolution reads. -/
structure LoraRequest where
  model : String
  loras : List LoraSpec

/-- What is common to the two request classes: extra keys are forbidden,
`loras` is absent, null or a list of limited length. -/
def parseBody (v : Validator) (known : List String) (maxLoras : Nat) : Json → Option LoraRequest
  | .obj fields =>
    if ∀ f ∈ fields, f.1 ∈ known then
      match Json.get fields "model", Json.get fields "loras" with
      | .str model, .null => some ⟨model, []⟩
      | .str model, .arr items =>
        if items.length ≤ maxLoras then
          (items.mapM (LoraSpec.ofJson v)).map fun loras => ⟨model, loras⟩
        else none
      | _, _ => none
    else none
  | _ => none

def generateRequest (v : Validator) : Json → Option LoraRequest :=
  parseBody v ["model", "prompt", "negative_prompt", "size", "n", "steps", "cfg", "seed",
    "sampler", "scheduler", "response_format", "transparent_background", "mode", "timeout_s",
    "loras", "init_image", "webhook"] 20

def videoGenerateRequest (v : Validator) : Json → Option LoraRequest :=
  parseBody v ["model", "prompt", "negative_prompt", "size", "frames", "fps", "steps", "cfg",
    "shift", "seed", "scheduler", "riflex_freq_index", "force_offload", "generate_audio",
    "response_format", "mode", "timeout_s", "webhook", "init_image", "loras", "wan_advanced"] 5

/-! ## Resolution -/

/-- The body that the two loops of the validator share. `label` is the word
that the messages use. -/
def resolveName (t : LoraTree) (lorasRoot : Path) (label name : String) :
    Except Rejection Path :=
  let symlinkLoop := Rejection.other "RuntimeError" "Symlink loop"
  match t.realpath lorasRoot with
  | none => .error symlinkLoop
  | some root =>
    match t.realpath (joinPath root (name ++ ".safetensors")) with
    | none => .error symlinkLoop
    | some target =>
      if ¬ root <+: target then
        .error (.failure "validation_error"
          (label ++ " name " ++ pyRepr name ++ " escapes loras root"))
      else if ¬ t.isFile target then
        .error (.failure "lora_missing" (label ++ " file not found: " ++ name))
      else .ok target

def resolveLorasForJob (t : LoraTree) (lorasRoot : Path) (specs : List LoraSpec) :
    Except Rejection (List ResolvedLoraRef) :=
  specs.mapM fun spec => (resolveName t lorasRoot "lora" spec.name).map fun _ =>
    ⟨spec.name, spec.weight⟩

/-- The names of the registry pass no pattern. -/
def resolveDefaultLorasForModel (t : LoraTree) (lorasRoot : Path)
    (defaultLoras : List (String × PyFloat)) : Except Rejection (List ResolvedLoraRef) :=
  defaultLoras.mapM fun d => (resolveName t lorasRoot "default_lora" d.1).map fun _ => ⟨d.1, d.2⟩

def getModel (v : Validator) (name : String) : Except Rejection ModelConfig :=
  match v.registry name with
  | some model => .ok model
  | none => .error (.failure "validation_error" ("unknown model: " ++ pyRepr name))

/-- The part of `resolve_and_validate` that concerns LoRAs. -/
def resolveAndValidate (v : Validator) (t : LoraTree) (req : LoraRequest) :
    Except Rejection (List ResolvedLoraRef) := do
  let _ ← getModel v req.model
  resolveLorasForJob t v.lorasRoot req.loras

/-- The part of `resolve_and_validate_video` that concerns LoRAs. -/
def resolveAndValidateVideo (v : Validator) (t : LoraTree) (req : LoraRequest) :
    Except Rejection (List ResolvedLoraRef) := do
  let model ← getModel v req.model
  let userLoras ← resolveLorasForJob t v.lorasRoot req.loras
  let defaultResolved ← resolveDefaultLorasForModel t v.lorasRoot model.defaultLoras
  return defaultResolved ++ userLoras

def validate (v : Validator) (t : LoraTree) (artifact : Artifact) (raw : Json) :
    Except Rejection (List ResolvedLoraRef) :=
  let invalid : Except Rejection LoraRequest := .error (.pydantic "invalid body")
  match artifact with
  | .image => do resolveAndValidate v t (← ((generateRequest v raw).map .ok).getD invalid)
  | .video _ => do resolveAndValidateVideo v t (← ((videoGenerateRequest v raw).map .ok).getD invalid)

/-! ## The references of a job -/

/-- The names that the validator resolves, in its order, each with the word
for it. -/
def references (v : Validator) (artifact : Artifact) (raw : Json) : List (String × String) :=
  match artifact with
  | .image =>
    ((generateRequest v raw).map fun req => req.loras.map fun spec => ("lora", spec.name)).getD []
  | .video _ =>
    ((videoGenerateRequest v raw).bind fun req => (v.registry req.model).map fun model =>
      model.defaultLoras.map (fun d => ("default_lora", d.1)) ++
        req.loras.map fun spec => ("lora", spec.name)).getD []

/-- The request that a row stores, as `_run_pipeline` takes it apart. -/
def storedRequest (input : StoredJson) : Option (Artifact × Json) :=
  match input with
  | .value (.obj envelope) =>
    match Json.get envelope "artifact_kind" with
    | .str "video" =>
      match worker.videoEnvelope envelope with
      | .ok (task, payload) => some (.video task, .obj payload)
      | .error _ => none
    | _ => some (.image, .obj envelope)
  | .value raw => some (.image, raw)
  | _ => none

/-- Resolving a reference of the job yields the file. -/
def Needs (v : Validator) (t : LoraTree) (job : Job) (file : Path) : Prop :=
  ∃ artifact raw, storedRequest job.inputJson = some (artifact, raw) ∧
    ∃ r ∈ references v artifact raw, resolveName t v.lorasRoot r.1 r.2 = .ok file

/-! ## What validation says -/

theorem mapM_map_ok {β γ δ ε : Type} {f : β → Except ε γ} {g : β → δ} {l : List β} {out : List δ}
    (h : (l.mapM fun b => (f b).map fun _ => g b) = .ok out) :
    out = l.map g ∧ ∀ b ∈ l, ∃ c, f b = .ok c := by
  induction l generalizing out with
  | nil =>
    cases h
    simp
  | cons b rest ih =>
    rw [List.mapM_cons] at h
    rcases hb : f b with e | c <;> rw [hb] at h
    · cases h
    rcases hrest : (rest.mapM fun b => (f b).map fun _ => g b) with e | tail <;> rw [hrest] at h
    · cases h
    cases h
    obtain ⟨htail, hfiles⟩ := ih hrest
    refine ⟨by rw [htail, List.map_cons], fun d hd => ?_⟩
    rcases List.mem_cons.mp hd with rfl | hd
    · exact ⟨c, hb⟩
    · exact hfiles d hd

/-- What a reference resolves to is a file under the root. -/
theorem resolveName_ok {t : LoraTree} {lorasRoot file : Path} {label name : String}
    (h : resolveName t lorasRoot label name = .ok file) :
    ∃ root, t.realpath lorasRoot = some root ∧ root <+: file ∧ t.isFile file = true ∧
      t.realpath (joinPath root (name ++ ".safetensors")) = some file := by
  unfold resolveName at h
  rcases hroot : t.realpath lorasRoot with _ | root <;> rw [hroot] at h
  · cases h
  rcases htarget : t.realpath (joinPath root (name ++ ".safetensors")) with _ | target <;>
    simp only [htarget] at h
  · cases h
  split at h
  · cases h
  · rename_i hunder
    split at h
    · cases h
    · rename_i hfile
      cases h
      exact ⟨root, rfl, not_not.mp hunder, by simpa using hfile, htarget⟩

theorem resolveName_of {t : LoraTree} {lorasRoot root file : Path} {label name : String}
    (hroot : t.realpath lorasRoot = some root)
    (htarget : t.realpath (joinPath root (name ++ ".safetensors")) = some file)
    (hunder : root <+: file) (hfile : t.isFile file = true) :
    resolveName t lorasRoot label name = .ok file := by
  simp [resolveName, hroot, htarget, hunder, hfile]

/-- A relative name without links on its way resolves to the file of that path,
with doubled slashes and dots left out. -/
theorem resolveName_real {t : LoraTree} {lorasRoot : Path} {label name : String}
    {contents : Contents} (hroot : t.realpath lorasRoot = some lorasRoot)
    (hrelative : (name ++ ".safetensors").toList.head? ≠ some '/')
    (hfile : t.node? (lorasRoot ++ components (name ++ ".safetensors")) = some (.file contents)) :
    resolveName t lorasRoot label name = .ok (lorasRoot ++ components (name ++ ".safetensors")) := by
  apply resolveName_of hroot
  · rw [joinPath, if_neg hrelative]
    exact t.realpath_file hfile
  · exact List.prefix_append _ _
  · simp [FileTree.isFile, FileTree.stat, t.locate_file hfile, hfile, Node.isFile]

/-- A job passes validation with the references that its request makes, and
each of them resolves. -/
theorem validate_ok {v : Validator} {t : LoraTree} {artifact : Artifact} {raw : Json}
    {refs : List ResolvedLoraRef} (h : validate v t artifact raw = .ok refs) :
    refs.map (·.name) = (references v artifact raw).map (·.2) ∧
      ∀ r ∈ references v artifact raw, ∃ file, resolveName t v.lorasRoot r.1 r.2 = .ok file := by
  cases artifact with
  | image =>
    unfold validate at h
    rcases hbody : generateRequest v raw with _ | req <;> simp only [hbody] at h
    · cases h
    change resolveAndValidate v t req = .ok refs at h
    unfold resolveAndValidate at h
    rcases hmodel : getModel v req.model with e | model <;> rw [hmodel] at h
    · cases h
    obtain ⟨hrefs, hfiles⟩ := mapM_map_ok h
    simp only [references, hbody, Option.map_some, Option.getD_some]
    constructor
    · simp [hrefs]
    · intro r hr
      obtain ⟨spec, hspec, rfl⟩ := List.mem_map.mp hr
      exact hfiles spec hspec
  | video task =>
    unfold validate at h
    rcases hbody : videoGenerateRequest v raw with _ | req <;> simp only [hbody] at h
    · cases h
    change resolveAndValidateVideo v t req = .ok refs at h
    unfold resolveAndValidateVideo getModel at h
    rcases hmodel : v.registry req.model with _ | model <;> rw [hmodel] at h
    · cases h
    rcases huser : resolveLorasForJob t v.lorasRoot req.loras with e | user
    · simp only [huser] at h
      cases h
    rcases hdefault : resolveDefaultLorasForModel t v.lorasRoot model.defaultLoras with e | defaults
    · simp only [huser] at h
      change (resolveDefaultLorasForModel t v.lorasRoot model.defaultLoras >>= fun d =>
        pure (d ++ user)) = .ok refs at h
      rw [hdefault] at h
      cases h
    have hlist : refs = defaults ++ user := by
      change (resolveLorasForJob t v.lorasRoot req.loras >>= fun u =>
        resolveDefaultLorasForModel t v.lorasRoot model.defaultLoras >>= fun d =>
          pure (d ++ u)) = .ok refs at h
      rw [huser, hdefault] at h
      cases h
      rfl
    obtain ⟨hu, hufiles⟩ := mapM_map_ok huser
    obtain ⟨hd, hdfiles⟩ := mapM_map_ok hdefault
    simp only [references, hbody, hmodel, Option.bind_some, Option.map_some, Option.getD_some]
    constructor
    · simp [hlist, hu, hd, Function.comp_def]
    · intro r hr
      rcases List.mem_append.mp hr with hr | hr
      · obtain ⟨d, hmem, rfl⟩ := List.mem_map.mp hr
        exact hdfiles d hmem
      · obtain ⟨spec, hmem, rfl⟩ := List.mem_map.mp hr
        exact hufiles spec hmem

theorem parseBody_some {v : Validator} {known : List String} {maxLoras : Nat} {raw : Json}
    {req : LoraRequest} (h : parseBody v known maxLoras raw = some req) :
    ∃ fields, raw = .obj fields ∧ ∀ f ∈ fields, f.1 ∈ known := by
  cases raw with
  | obj fields =>
    refine ⟨fields, rfl, ?_⟩
    by_contra hkeys
    rw [parseBody, if_neg hkeys] at h
    cases h
  | null => cases h
  | bool _ => cases h
  | int _ => cases h
  | float _ => cases h
  | str _ => cases h
  | arr _ => cases h

theorem get_of_not_mem {fields : List (String × Json)} {key : String}
    (h : ∀ f ∈ fields, f.1 ≠ key) : Json.get fields key = .null := by
  have hnone : fields.lookup key = none :=
    List.lookup_eq_none_iff.mpr fun f hf => by simpa using (h f hf).symm
  simp [Json.get, hnone]

/-- The worker takes a validated job apart into what the handler put in. -/
theorem storedRequest_inputJson {v : Validator} {t : LoraTree} {r : Submission}
    {refs : List ResolvedLoraRef} (h : validate v t r.artifact r.raw = .ok refs) :
    storedRequest r.inputJson = some (r.artifact, r.raw) := by
  rcases r with ⟨artifact, modelName, raw, mode, webhookUrl, webhookHeaders⟩
  cases artifact with
  | image =>
    have hbody : ∃ req, generateRequest v raw = some req := by
      apply Option.ne_none_iff_exists'.mp
      intro hnone
      simp only [validate, hnone] at h
      cases h
    obtain ⟨req, hreq⟩ := hbody
    obtain ⟨fields, rfl, hkeys⟩ := parseBody_some hreq
    have hkind : Json.get fields "artifact_kind" = .null := by
      apply get_of_not_mem
      intro f hf heq
      have := hkeys f hf
      rw [heq] at this
      revert this
      decide
    simp [Submission.inputJson, storedRequest, hkind]
  | video task =>
    have hbody : ∃ req, videoGenerateRequest v raw = some req := by
      apply Option.ne_none_iff_exists'.mp
      intro hnone
      simp only [validate, hnone] at h
      cases h
    obtain ⟨req, hreq⟩ := hbody
    obtain ⟨fields, rfl, -⟩ := parseBody_some hreq
    cases task <;> rfl

end image_gen.lora_files

-- Workflow graphs (`app/registry/workflows.py`): the nodes that the service
-- reads and edits, and the anchors in their titles.
import ImageGen.LoraFiles
import ImageGen.PyDict
import ImageGen.PyStr

namespace image_gen.graph

open image_gen.file_tree image_gen.json image_gen.lora_files image_gen.py_dict image_gen.py_str
  image_gen.requests

/-- The builtins of Python that the edits of a graph use, beyond `PyStr`. -/
structure Builtins where
  str : PyStr
  isdigit : Char → Bool
  decimal_isdigit : ∀ c n, str.decimal c = some n → isdigit c = true
  repr : Json → String
  /-- `float` and `int` of a `str`. -/
  parseFloat : String → Option PyFloat
  parseInt : String → Option Int
  /-- `frames / fps`. -/
  divide : Nat → PyFloat → PyFloat

def asciiBuiltins : Builtins where
  str := py_str.ascii
  isdigit := Char.isDigit
  decimal_isdigit := by
    intro c n h
    by_contra hc
    have hnone : py_str.ascii.decimal c = none := if_neg hc
    rw [hnone] at h
    cases h
  repr _ := ""
  parseFloat _ := none
  parseInt _ := none
  divide _ fps := fps

/-! ## Nodes -/

abbrev Fields := List (String × Json)

inductive ClassType
  | str (s : String)
  /-- No text, or none at all, with its `repr`. -/
  | other (shown : String)
  deriving DecidableEq

inductive Inputs
  | absent
  | dict (fields : Fields)
  /-- No dict, with the text of the `TypeError` that an assignment to an item of
  it raises. -/
  | other (refusal : String)

structure Node where
  classType : ClassType
  inputs : Inputs
  title : Option String

/-- The nodes by their ids, in the order of the file. -/
abbrev Graph := List (String × Node)

namespace Inputs

def ofJson : Option Json → Inputs
  | none => .absent
  | some (.obj fields) => .dict fields
  | some (.arr _) => .other "list indices must be integers or slices, not str"
  | some j => .other ("'" ++ typeName j ++ "' object does not support item assignment")

def write (inputs : Inputs) (patch : Fields) : Inputs :=
  match inputs with
  | .dict fields => .dict (update fields patch)
  | inputs => inputs

/-- `if "inputs" not in node: node["inputs"] = {}`. -/
def orEmpty : Inputs → Inputs
  | .absent => .dict []
  | inputs => inputs

/-- What a key holds. A missing key and a null are the same to the readers. -/
def get (inputs : Inputs) (key : String) : Json :=
  match inputs with
  | .dict fields => Json.get fields key
  | _ => .null

/-- `isinstance(inputs, dict)`. -/
def isDict : Inputs → Bool
  | .dict _ => true
  | _ => false

end Inputs

/-- `(node.get("_meta") or {}).get("title")`, when it is a text. -/
def titleOf (node : Fields) : Except GraphError (Option String) :=
  if (Json.get node "_meta").truthy then
    match Json.get node "_meta" with
    | .obj fields =>
      match Json.get fields "title" with
      | .str title => .ok (some title)
      | _ => .ok none
    | j => .error (.other "AttributeError"
        ("'" ++ typeName j ++ "' object has no attribute 'get'"))
  else .ok none

/-- A node as the scans of a graph see it, or the exception that they raise. -/
def Node.ofJson (py : Builtins) : Json → Except GraphError Node
  | .obj node => do
    let title ← titleOf node
    let classType := match Json.get node "class_type" with
      | .str s => .str s
      | j => .other (py.repr j)
    return { classType, inputs := Inputs.ofJson (node.lookup "inputs"), title }
  | j => .error (.other "AttributeError" ("'" ++ typeName j ++ "' object has no attribute 'get'"))

def Node.write (node : Node) (patch : Fields) : Node :=
  { node with inputs := node.inputs.write patch }

/-! ## Anchors -/

/-- `c.isspace()`. -/
def isSpace (c : Char) : Bool :=
  let n := c.toNat
  (9 ≤ n && n ≤ 13) || (28 ≤ n && n ≤ 32) || n = 0x85 || n = 0xA0 || n = 0x1680 ||
    (0x2000 ≤ n && n ≤ 0x200A) || n = 0x2028 || n = 0x2029 || n = 0x202F || n = 0x205F ||
    n = 0x3000

def strip (s : List Char) : List Char :=
  ((s.dropWhile isSpace).reverse.dropWhile isSpace).reverse

/-- `p.startswith("%") and p.endswith("%")`. -/
def isAnchor (part : List Char) : Bool :=
  decide (part.head? = some '%') && decide (part.getLast? = some '%')

/-- `_title_anchors`. -/
def titleAnchors (node : Node) : List (List Char) :=
  match node.title with
  | none => []
  | some title => ((title.toList.splitOn ',').map strip).filter isAnchor

-- Under a name of its own, as other tables of texts look their members up in the same way.
local instance lawfulText : LawfulBEq (List Char) := inferInstance

def Node.declares (node : Node) (anchor : String) : Bool :=
  decide (anchor.toList ∈ titleAnchors node)

/-- A `KeyError`, whose text is the `repr` of its argument. -/
def keyError (arg : String) : GraphError := .other "KeyError" (pyRepr arg)

def notFound (anchor : String) : String := "anchor " ++ pyRepr anchor ++ " not found in graph"

/-- The first node that declares the anchor. -/
def owner (g : Graph) (anchor : String) : Option String :=
  (g.find? fun e => e.2.declares anchor).map (·.1)

def findAnchor (g : Graph) (anchor : String) : Except GraphError String :=
  match owner g anchor with
  | some id => .ok id
  | none => .error (keyError (notFound anchor))

/-- `find_anchor` where a `KeyError` becomes a `WorkflowValidationError`. -/
def findOr (caller : String) (g : Graph) (anchor : String) : Except GraphError String :=
  match owner g anchor with
  | some id => .ok id
  | none => .error (.workflow (caller ++ ": " ++ pyRepr (notFound anchor)))

/-- The ids that `validate_anchors` collects for an anchor. A title that names
the anchor twice counts twice. -/
def owners (g : Graph) (anchor : String) : List String :=
  g.flatMap fun e => ((titleAnchors e.2).filter fun a => a = anchor.toList).map fun _ => e.1

def reprList (xs : List String) : String := "[" ++ String.intercalate ", " (xs.map pyRepr) ++ "]"

def validateAnchors (g : Graph) (required : List String) : Except GraphError Unit :=
  let missing := required.filter fun a => owners g a = []
  let duplicated := required.filter fun a => 1 < (owners g a).length
  let shown := duplicated.map fun a => pyRepr a ++ ": " ++ reprList (owners g a)
  let problems :=
    (if missing = [] then [] else ["missing anchors: " ++ reprList missing]) ++
    (if duplicated = [] then [] else
      ["duplicate anchors (appear on >1 node): \x7b" ++ String.intercalate ", " shown ++ "\x7d"])
  if problems = [] then .ok () else .error (.workflow (String.intercalate "; " problems))

/-! ## Required anchors -/

/-- Of `sdxl`, and of any family without a set of its own. -/
def requiredAnchorsSdxl : List String :=
  ["%MODEL_SOURCE%", "%CLIP_SOURCE%", "%LORA_INSERT%", "%POSITIVE_PROMPT%", "%NEGATIVE_PROMPT%",
    "%KSAMPLER%", "%OUTPUT%"]

def requiredAnchorsFlux : List String :=
  ["%MODEL_SOURCE%", "%CLIP_SOURCE%", "%LORA_INSERT%", "%POSITIVE_PROMPT%", "%NEGATIVE_PROMPT%",
    "%KSAMPLER%", "%OUTPUT%"]

def baseAnchorsWan22 : List String :=
  ["%WAN_T5%", "%WAN_POSITIVE%", "%WAN_NEGATIVE%", "%WAN_DIMS%", "%WAN_MODEL%", "%WAN_SHIFT%",
    "%WAN_MODEL_LOW%", "%WAN_SHIFT_LOW%", "%WAN_VAE%", "%WAN_SAMPLER%", "%WAN_NAG_SAMPLER%",
    "%WAN_DECODE%", "%VIDEO_OUTPUT%"]

def mmaudioAnchorsWan22 : List String :=
  ["%MMAUDIO_FEATURE_UTILS%", "%MMAUDIO_DIFFUSION%", "%MMAUDIO_SAMPLER%"]

def requiredAnchorsLtxv : List String :=
  ["%LTXV_CHECKPOINT%", "%LTXV_TEXT_ENCODER%", "%LTXV_VIDEO_VAE%", "%LTXV_POSITIVE%",
    "%LTXV_NEGATIVE%", "%LTXV_SEED%", "%LTXV_FRAMES%", "%LTXV_OUTPUT%", "%INIT_IMAGE%"]

def requiredAnchorsForFamily : Family → List String
  | .flux => requiredAnchorsFlux
  | _ => requiredAnchorsSdxl

/-- `required_anchors_for_video_task`. -/
def requiredAnchorsForVideoTask (task : String) : Except GraphError (List String) :=
  match task with
  | "i2v" => .ok (baseAnchorsWan22 ++ ["%INIT_IMAGE%"])
  | "t2v" => .ok baseAnchorsWan22
  | task => .error (.workflow ("unknown video_task for anchor validation: " ++ pyRepr task))

/-- `required_anchors_for_wan22_audio_task`. -/
def requiredAnchorsForWan22AudioTask (task : String) : Except GraphError (List String) :=
  (requiredAnchorsForVideoTask task).map (· ++ mmaudioAnchorsWan22)

/-- `required_anchors_for_ltxv_task`. -/
def requiredAnchorsForLtxvTask (task : String) : Except GraphError (List String) :=
  if task = "t2v" ∨ task = "i2v" then .ok requiredAnchorsLtxv
  else .error (.workflow ("unknown video_task for ltxv anchor validation: " ++ pyRepr task))

/-! ## Edits -/

def classAt (g : Graph) (id : String) : ClassType :=
  ((g.lookup id).map (·.classType)).getD (.other "None")

def inputsAt (g : Graph) (id : String) : Inputs := ((g.lookup id).map (·.inputs)).getD .absent

def write (g : Graph) (id : String) (patch : Fields) : Graph :=
  g.map fun e => (e.1, if e.1 = id then e.2.write patch else e.2)

/-- `graph[id]["inputs"][key] = value`, for one pair after the other. -/
def assign (g : Graph) (id : String) (patch : Fields) : Except GraphError Graph :=
  match g.lookup id with
  | none => .error (keyError id)
  | some node =>
    match node.inputs with
    | .absent => .error (keyError "inputs")
    | .other refusal => .error (.other "TypeError" refusal)
    | .dict _ => .ok (write g id patch)

/-- The same behind a check that the inputs are a dict. -/
def assignOr (message : String) (g : Graph) (id : String) (patch : Fields) :
    Except GraphError Graph :=
  if (inputsAt g id).isDict then .ok (write g id patch) else .error (.workflow message)

def invalidInputs (caller id : String) : String :=
  caller ++ ": node " ++ id ++ " has invalid inputs"

/-- `try: .. except KeyError: pass`, around edits that raise a `KeyError` only
before the first of them. -/
def passKeyError (g : Graph) : Except GraphError Graph → Except GraphError Graph
  | .error (.other "KeyError" _) => .ok g
  | r => r

/-- `[id, slot]`. -/
def link (id : String) (slot : Nat) : Json := .arr [.str id, .int slot]

/-- `graph[id] = node`. -/
def insertNode (g : Graph) (id : String) (node : Node) : Graph := set g id node

/-- `sys.get_int_max_str_digits()`. -/
def intMaxStrDigits : Nat := 4300

def exceedsLimit (value : String) : GraphError :=
  .other "ValueError" ("Exceeds the limit (" ++ toString intMaxStrDigits ++
    " digits) for integer string conversion" ++ value ++
    "; use sys.set_int_max_str_digits() to increase the limit")

/-- `int(k)`. A superscript two is a digit, but `int` takes decimals only. -/
def intOf (py : Builtins) (k : List Char) : Except GraphError Nat :=
  let decimals := k.takeWhile fun c => (py.str.decimal c).isSome
  if intMaxStrDigits < decimals.length then
    .error (exceedsLimit (": value has " ++ toString decimals.length ++ " digits"))
  else if k.all fun c => (py.str.decimal c).isSome then .ok (py.str.int k)
  else .error (.other "ValueError"
    ("invalid literal for int() with base 10: " ++ pyRepr (String.ofList k)))

/-- The ids that `isdigit` takes. -/
def numericIds (py : Builtins) (g : Graph) : List (List Char) :=
  (g.map (·.1.toList)).filter fun k => decide (k ≠ []) && k.all py.isdigit

/-- A number for a new node: one more than the largest id that is a number. -/
def nextId (py : Builtins) (fallback : Nat) (g : Graph) : Except GraphError Nat := do
  let intKeys ← (numericIds py g).mapM (intOf py)
  match intKeys.max? with
  | some n => return n + 1
  | none => return fallback

/-- `str(n)` raises nothing. -/
def FitsStr (n : Nat) : Prop := (Nat.toDigits 10 n).length ≤ intMaxStrDigits

instance (n : Nat) : Decidable (FitsStr n) := inferInstanceAs (Decidable (_ ≤ _))

/-- `str` of the `count` numbers from `next` on. The loops that insert nodes write
them one by one, and nothing reads the graph after one that has raised. -/
def strAll (next count : Nat) : Except GraphError Unit :=
  if ∀ i < count, FitsStr (next + i) then .ok () else .error (exceedsLimit "")

/-! ## Files -/

/-- A file under the working directory, as `load_workflow` finds it. -/
inductive WorkflowFile
  | missing
  /-- `OSError`. -/
  | unreadable (reason : String)
  | text (content : StoredJson)

/-- The text of a `Path`. -/
def pathText (path : String) : String :=
  let text := asPosix (components path)
  if path.toList.head? = some '/' then "/" ++ text else if text = "" then "." else text

def loadWorkflow (py : Builtins) (files : Path → WorkflowFile) (cwd : Path) (path : String) :
    Except GraphError Graph :=
  match files (joinPath cwd path) with
  | .missing => .error (.workflow ("workflow file not found: " ++ pathText path))
  | .unreadable reason =>
    .error (.workflow ("workflow file unreadable: " ++ pathText path ++ " (" ++ reason ++ ")"))
  | .text (.malformed m) =>
    .error (.workflow ("workflow " ++ pathText path ++ " is not valid JSON: " ++ m))
  | .text (.unreadable m) => .error (.other "RecursionError" m)
  | .text (.value (.obj nodes)) =>
    nodes.mapM fun e => (Node.ofJson py e.2).map fun node => (e.1, node)
  | .text (.value j) =>
    .error (.workflow ("workflow " ++ pathText path ++ " must be an object, got " ++ typeName j))

end image_gen.graph

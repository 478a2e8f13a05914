-- The conversion of a LiteGraph workflow to the format of the ComfyUI API
-- (`scripts/convert_litegraph_to_api.py`), without the files it reads and writes.
import ImageGen.Injectors
import ImageGen.Pointers

namespace image_gen.litegraph

open image_gen.graph (Builtins)
open image_gen.injectors (toInt)
open image_gen.json image_gen.pointers image_gen.py_dict
open image_gen.requests (GraphError)

/-! ## Workflows -/

/-- A node, by `str` of its id, and a slot of its outputs. -/
abbrev Ref := String × ℤ

/-- The first three entries of a link. -/
structure Link where
  id : ℤ
  src : Ref

structure Input where
  name : String
  link : Option ℤ
  hasWidget : Bool

/-- `node.get("widgets_values") or []`. -/
inductive Widgets
  | list (values : List Json)
  | dict (fields : List (String × Json))

structure Node where
  id : String
  type : String
  title : Option String
  mode : ℤ
  inputs : List Input
  widgets : Widgets

structure Workflow where
  links : List Link
  nodes : List Node

/-- A node of the API format. -/
structure ApiNode where
  classType : String
  inputs : List (String × Json)
  title : String

abbrev ApiGraph := List (String × ApiNode)

def Ref.items (ref : Ref) : List Json := [.str ref.1, .int ref.2]

/-- `list(link_map[link_id])`. -/
def Ref.json (ref : Ref) : Json := .arr ref.items

/-! ## Nodes -/

/-- `_build_link_map`. -/
def buildLinkMap (links : List Link) : List (ℤ × Ref) :=
  links.foldl (fun d link => set d link.id link.src) []

def unhashable (j : Json) : GraphError :=
  .other "TypeError" ("unhashable type: '" ++ typeName j ++ "'")

def seedControlValues : List String := ["randomize", "fixed", "increment", "decrement"]

/-- `value in SEED_CONTROL_VALUES`. -/
def isControl : Json → Except GraphError Bool
  | .str s => .ok (decide (s ∈ seedControlValues))
  | .arr items => .error (unhashable (.arr items))
  | .obj fields => .error (unhashable (.obj fields))
  | _ => .ok false

/-- The next slot, or the one after it when it holds a control word. -/
def skipControl (values : List Json) (idx : ℕ) : Except GraphError ℕ :=
  match values[idx]? with
  | some value => do return if ← isControl value then idx + 1 else idx
  | none => .ok idx

/-- The source of a wired input. -/
def wire (links : List (ℤ × Ref)) (inp : Input) : Option Ref :=
  inp.link.bind fun id => links.lookup id

/-- One turn of the loop over the inputs, from `api_inputs` and `widget_idx`. -/
def convertInput (links : List (ℤ × Ref)) (values : List Json) (state : List (String × Json) × ℕ)
    (inp : Input) : Except GraphError (List (String × Json) × ℕ) :=
  let (d, idx) := state
  match wire links inp with
  | some src =>
    let d := set d inp.name src.json
    if inp.hasWidget then do return (d, ← skipControl values (idx + 1)) else .ok (d, idx)
  | none =>
    if inp.hasWidget then do
      let d := match values[idx]? with
        | some value => set d inp.name value
        | none => d
      return (d, ← skipControl values (idx + 1))
    else .ok (d, idx)

def seedType : String := "Seed (rgthree)"

def convertInputs (links : List (ℤ × Ref)) (node : Node) :
    Except GraphError (List (String × Json)) :=
  if node.type = seedType then
    .ok [("seed", match node.widgets with
      | .list (value :: _) => value
      | _ => .int 0)]
  else
    match node.widgets with
    | .dict fields =>
      let wired := node.inputs.foldl (fun d inp =>
        match wire links inp with
        | some src => set d inp.name src.json
        | none => d) []
      .ok (fields.foldl (fun d f =>
        if f.1 = "videopreview" then d
        else if (d.lookup f.1).isSome then d else set d f.1 f.2) wired)
    | .list values => (·.1) <$> node.inputs.foldlM (convertInput links values) ([], 0)

/-- `node.get("title") or node_type`. -/
def Node.shownTitle (node : Node) : String :=
  match node.title with
  | some title => if title = "" then node.type else title
  | none => node.type

/-- `_convert_node`. -/
def convertNode (links : List (ℤ × Ref)) (node : Node) : Except GraphError ApiNode := do
  let inputs ← convertInputs links node
  return { classType := node.type, inputs, title := node.shownTitle }

/-- `bypass_map`, before its chains are resolved. -/
def bypassMap (links : List (ℤ × Ref)) (nodes : List Node) : List (String × Ref) :=
  nodes.foldl (fun d node =>
    if node.mode = 0 then d
    else match node.inputs.head?.bind (wire links) with
      | some src => set d node.id src
      | none => d) []

/-- The chains of bypassed nodes resolved, one key after the other. -/
def resolveBypass (bypass : List (String × Ref)) : List (String × Ref) := compress Prod.fst bypass

/-! ## The passes -/

abbrev RefMap := List (String × List Json)

/-- One value of an input in `_apply_ref_map`. -/
def redirect (refs : RefMap) : Json → Except GraphError Json
  | .arr [] => .error (.other "IndexError" "list index out of range")
  | .arr (.str id :: rest) => .ok (.arr ((refs.lookup id).getD (.str id :: rest)))
  | .arr (.arr items :: _) => .error (unhashable (.arr items))
  | .arr (.obj fields :: _) => .error (unhashable (.obj fields))
  | value => .ok value

def redirectNode (refs : RefMap) (node : ApiNode) : Except GraphError ApiNode := do
  let inputs ← node.inputs.mapM fun e => do return (e.1, ← redirect refs e.2)
  return { node with inputs }

/-- `_apply_ref_map`. -/
def applyRefMap (refs : RefMap) (graph : ApiGraph) : Except GraphError ApiGraph :=
  graph.mapM fun e => do return (e.1, ← redirectNode refs e.2)

def withoutIds (ids : List String) (graph : ApiGraph) : ApiGraph :=
  graph.filter fun e => e.1 ∉ ids

def passthroughNodes : List (String × String) := [("Sigmas Easing", "sigmas")]

/-- Step 1. -/
def passthroughMap (graph : ApiGraph) : RefMap :=
  graph.filterMap fun e =>
    match passthroughNodes.lookup e.2.classType with
    | some key =>
      match e.2.inputs.lookup key with
      | some (.arr ref) => some (e.1, ref)
      | _ => none
    | none => none

def floatToInt : String := "CM_FloatToInt"

/-- `int(wv[0]) if wv else 0`. -/
def firstInt (py : Builtins) : Widgets → Except GraphError ℤ
  | .list (value :: _) => toInt py value
  | .dict (_ :: _) => .error (.other "KeyError" "0")
  | _ => .ok 0

/-- Step 2, for one entry of the graph. -/
def replaceFloat (py : Builtins) (byId : List (String × Node)) (graph : ApiGraph)
    (entry : String × ApiNode) : Except GraphError ApiGraph :=
  if entry.2.classType = floatToInt then
    match entry.2.inputs.lookup "a" with
    | some (.arr []) => .error (.other "IndexError" "list index out of range")
    | some (.arr (.str src :: _)) =>
      match graph.lookup src with
      | some node =>
        if node.classType ∈ ["PrimitiveFloat", "Float"] then do
          let value ← match byId.lookup src with
            | some source => firstInt py source.widgets
            | none => .ok 0
          return set graph entry.1
            { classType := "PrimitiveInt"
              inputs := [("value", .int value)]
              title := "PrimitiveInt_" ++ entry.1 }
        else .ok graph
      | none => .ok graph
    | some (.arr (.arr items :: _)) => .error (unhashable (.arr items))
    | some (.arr (.obj fields :: _)) => .error (unhashable (.obj fields))
    | _ => .ok graph
  else .ok graph

def replaceFloats (py : Builtins) (nodes : List Node) (graph : ApiGraph) :
    Except GraphError ApiGraph :=
  graph.foldlM (replaceFloat py (nodes.foldl (fun d node => set d node.id node) [])) graph

def startsWith (head text : String) : Bool := head.toList.isPrefixOf text.toList

/-- `title[4:] if title.startswith(tag) else title`. -/
def withoutTag (tag title : String) : String :=
  if startsWith tag title then String.ofList (title.toList.drop 4) else title

/-- `re.sub(r"_\d+$", "", name)`. The end is also before a last line feed. -/
def baseName (py : Builtins) (name : String) : String :=
  let isDecimal := fun c => (py.str.decimal c).isSome
  let last := if name.toList.getLast? = some '\n' then ['\n'] else []
  let body := (name.toList.take (name.toList.length - last.length)).reverse
  match body.takeWhile isDecimal, body.dropWhile isDecimal with
  | _ :: _, '_' :: front => String.ofList (front.reverse ++ last)
  | _, _ => name

/-- What step 3 notes of an entry: the id, the name and the source. -/
def setEntry (e : String × ApiNode) : Option (String × String × List Json) :=
  if e.2.classType = "SetNode" then
    match e.2.inputs with
    | (_, .arr ref) :: _ => some (e.1, withoutTag "Set_" e.2.title, ref)
    | _ => none
  else none

def setMap (graph : ApiGraph) : RefMap :=
  (graph.filterMap setEntry).foldl (fun d s => set d s.2.1 s.2.2) []

def setOutputMap (graph : ApiGraph) : RefMap :=
  (graph.filterMap setEntry).map fun s => (s.1, s.2.2)

/-- The source under a name, when there is one. -/
def sourceNamed (sets : RefMap) (name : String) : Option (List Json) :=
  (sets.lookup name).filter fun ref => !ref.isEmpty

/-- Step 4. -/
def getResolution (py : Builtins) (sets : RefMap) (graph : ApiGraph) : RefMap :=
  graph.filterMap fun e =>
    if e.2.classType = "GetNode" then
      let name := withoutTag "Get_" e.2.title
      ((sourceNamed sets name).or (sourceNamed sets (baseName py name))).map fun ref => (e.1, ref)
    else none

def isNamed (node : ApiNode) : Bool :=
  decide (node.classType = "SetNode") || decide (node.classType = "GetNode")

/-- Steps 3 to 6. -/
def inlineNamed (py : Builtins) (graph : ApiGraph) : Except GraphError ApiGraph := do
  let combined := update (getResolution py (setMap graph) graph) (setOutputMap graph)
  let graph ← graph.mapM fun e =>
    if isNamed e.2 then .ok e else do return (e.1, ← redirectNode combined e.2)
  return graph.filter fun e => !isNamed e.2

def lastTitled (title : String) (graph : ApiGraph) : Option String :=
  (graph.reverse.find? fun e => e.2.title = title).map (·.1)

/-- `value == 2`. -/
def isTwo : Json → Bool
  | .int i => decide (i = 2)
  | .float (.finite q) => decide (q = 2)
  | _ => false

def mapValues (f : Json → Json) (graph : ApiGraph) : ApiGraph :=
  graph.map fun e => (e.1, { e.2 with inputs := e.2.inputs.map fun i => (i.1, f i.2) })

/-- Step 7. -/
def redirectVae (graph : ApiGraph) : ApiGraph :=
  match lastTitled "%LTXV_CHECKPOINT%" graph, lastTitled "%LTXV_VIDEO_VAE%" graph with
  | some checkpoint, some vae =>
    if checkpoint = "" || vae = "" then graph
    else mapValues (fun value =>
      match value with
      | .arr [.str id, slot] =>
        if id = checkpoint && isTwo slot then .arr [.str vae, .int 0] else value
      | _ => value) graph
  | _, _ => graph

/-- Step 8, for one value. -/
def normalizeSlashes : Json → Json
  | .str s => .str (String.ofList (s.toList.map fun c => if c = '\\' then '/' else c))
  | value => value

/-- `_resolve_virtual_nodes`. -/
def resolveVirtualNodes (py : Builtins) (graph : ApiGraph) (nodes : List Node)
    (bypass : List (String × Ref)) : Except GraphError ApiGraph := do
  let graph ← applyRefMap (bypass.map fun e => (e.1, e.2.items)) graph
  let passthrough := passthroughMap graph
  let graph ← applyRefMap passthrough graph
  let graph := withoutIds (passthrough.map (·.1)) graph
  let graph ← replaceFloats py nodes graph
  let graph ← inlineNamed py graph
  return mapValues normalizeSlashes (redirectVae graph)

/-! ## The conversion -/

/-- An anchored node is taken even when it is bypassed. -/
def forced (anchors : List (String × String)) (id : String) : Bool :=
  ((anchors.lookup id).map (startsWith "%")).getD false

def taken (anchors : List (String × String)) (node : Node) : Bool :=
  (decide (node.mode = 0) || forced anchors node.id) &&
    (decide (node.type ≠ "") && !startsWith "42242" node.type)

def buildGraph (links : List (ℤ × Ref)) (anchors : List (String × String)) (nodes : List Node) :
    Except GraphError ApiGraph :=
  nodes.foldlM (fun graph node =>
    if taken anchors node then do
      let api ← convertNode links node
      return set graph node.id { api with title := (anchors.lookup node.id).getD api.title }
    else .ok graph) []

/-- `convert`, from the workflow that is loaded to the graph that is written. -/
def convert (py : Builtins) (anchors : List (String × String)) (wf : Workflow) :
    Except GraphError ApiGraph := do
  let links := buildLinkMap wf.links
  let bypass := resolveBypass (bypassMap links wf.nodes)
  let graph ← buildGraph links anchors wf.nodes
  resolveVirtualNodes py graph wf.nodes bypass

end image_gen.litegraph

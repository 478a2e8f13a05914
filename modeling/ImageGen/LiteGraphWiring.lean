-- The wiring of a converted workflow: where each input of a kept node leads, and
-- what the passes of the conversion make of it.
import ImageGen.LiteGraph
import ImageGen.Results

namespace image_gen.litegraph_wiring

open image_gen.graph (Builtins)
open image_gen.json image_gen.litegraph image_gen.pointers image_gen.py_dict image_gen.results
open image_gen.requests (GraphError)

/-! ## Ways through virtual nodes -/

inductive Kind
  | bypassed
  | easing
  | setNode
  | getNode
  | kept
  deriving DecidableEq

def kind (n : Node) : Kind :=
  if n.mode ≠ 0 then .bypassed
  else if n.type = "Sigmas Easing" then .easing
  else if n.type = "SetNode" then .setNode
  else if n.type = "GetNode" then .getNode
  else .kept

section Spec

variable (wf : Workflow)

def nodeAt (id : String) : Option Node := wf.nodes.find? fun n => n.id = id

/-- The output that an input is linked to. -/
def linked (inp : Input) : Option Ref :=
  inp.link.bind fun id => (wf.links.find? fun l => l.id = id).map (·.src)

/-- What follows a tag in a title. -/
def tagged (tag title : String) : Option String :=
  if startsWith tag title then some (String.ofList (title.toList.drop 4)) else none

/-- The SetNode that a GetNode names. -/
def namedSet (n : Node) : Option Node :=
  (tagged "Get_" n.shownTitle).bind fun name =>
    wf.nodes.find? fun s => kind s = .setNode ∧ tagged "Set_" s.shownTitle = some name

/-- The output that a virtual node passes on: of its first input, of `sigmas`, of the
linked input of a SetNode. -/
def passed (n : Node) : Option Ref :=
  match kind n with
  | .bypassed => n.inputs.head?.bind (linked wf)
  | .easing => (n.inputs.find? fun i => i.name = "sigmas").bind (linked wf)
  | .setNode => n.inputs.findSome? (linked wf)
  | .getNode => (namedSet wf n).bind fun s => s.inputs.findSome? (linked wf)
  | .kept => none

/-- Links followed backwards to the first kept node, and the virtual nodes on the way. -/
inductive Way : Ref → List Kind → Ref → Prop
  | here {ref : Ref} {n : Node} : nodeAt wf ref.1 = some n → kind n = .kept → Way ref [] ref
  | through {ref next e : Ref} {n : Node} {trace : List Kind} : nodeAt wf ref.1 = some n →
      passed wf n = some next → Way next trace e → Way ref (kind n :: trace) e

/-- The output has the kept nodes, and each linked input of one refers to the
first kept node and slot behind it. -/
def Preserves (py : Builtins) (anchors : List (String × String)) : Prop :=
  ∃ out, convert py anchors wf = .ok out ∧
    (out.map (·.1)).Perm ((wf.nodes.filter fun n => kind n = .kept).map (·.id)) ∧
    ∀ n ∈ wf.nodes, kind n = .kept → ∀ inp ∈ n.inputs, ∀ src, linked wf inp = some src →
      ∃ api trace e, out.lookup n.id = some api ∧ Way wf src trace e ∧
        api.inputs.lookup inp.name = some e.json ∧ e.1 ∈ out.map (·.1)

/-! ## When it is so -/

/-- The virtual nodes on a way that are not bypassed. -/
def met (trace : List Kind) : List Kind := trace.filter fun k => k ≠ .bypassed

def AtMostOne (trace : List Kind) : Prop := trace = [] ∨ trace = [.easing]

/-- Bypassed nodes anywhere, one SetNode or GetNode at the most, and on each side of it
one Sigmas Easing at the most. -/
def Short (trace : List Kind) : Prop :=
  AtMostOne (met trace) ∨ ∃ front k back, (k = .setNode ∨ k = .getNode) ∧ AtMostOne front ∧
    AtMostOne back ∧ met trace = front ++ k :: back

/-- No list that is empty or begins with a list or an object. -/
def plainValue : Json → Bool
  | .arr [] => false
  | .arr (.arr _ :: _) => false
  | .arr (.obj _ :: _) => false
  | _ => true

structure Straight : Prop where
  types : ∀ n ∈ wf.nodes, n.mode = 0 → startsWith "42242" n.type = false
  values : ∀ n ∈ wf.nodes, n.mode = 0 → ∃ d, convertInputs (buildLinkMap wf.links) n = .ok d ∧
    ∀ e ∈ d, plainValue e.2 = true
  ways : ∀ n ∈ wf.nodes, kind n = .kept → ∀ inp ∈ n.inputs, ∀ src, linked wf inp = some src →
    ∃ trace e, Way wf src trace e ∧ Short trace

/-- The workflows in question. -/
structure Convertible (anchors : List (String × String)) : Prop where
  ids : (wf.nodes.map (·.id)).Nodup
  names : ∀ n ∈ wf.nodes, (n.inputs.map (·.name)).Nodup
  links : (wf.links.map (·.id)).Nodup
  easings : ∀ n ∈ wf.nodes, kind n = .easing →
    ∃ inp ∈ n.inputs, inp.name = "sigmas" ∧ (linked wf inp).isSome = true
  /-- The input of a SetNode, which is the first with a link or a widget, is linked. -/
  sets : ∀ n ∈ wf.nodes, kind n = .setNode → (tagged "Set_" n.shownTitle).isSome = true ∧
    ∃ inp, (n.inputs.find? fun i => (linked wf i).isSome || i.hasWidget) = some inp ∧
      (linked wf inp).isSome = true
  setTitles : ∀ a ∈ wf.nodes, ∀ b ∈ wf.nodes, kind a = .setNode → kind b = .setNode →
    a.shownTitle = b.shownTitle → a = b
  types : ∀ n ∈ wf.nodes, n.mode = 0 → n.type ≠ "" ∧ n.type ≠ floatToInt ∧ n.type ≠ seedType
  titles : ∀ n ∈ wf.nodes, n.mode = 0 → startsWith "%" n.shownTitle = false
  unanchored : ∀ n ∈ wf.nodes, anchors.lookup n.id = none

end Spec

/-! ## Links -/

theorem lookup_map_find {α β : Type} (key : α → ℤ) (f : α → β) (l : List α) (k : ℤ) :
    (l.map fun a => (key a, f a)).lookup k = (l.find? fun a => key a = k).map f := by
  induction l with
  | nil => rfl
  | cons a rest ih =>
    rw [List.map_cons, List.lookup_cons, List.find?_cons]
    by_cases h : key a = k
    · simp [h]
    · have hbeq : (k == key a) = false := beq_eq_false_iff_ne.mpr (Ne.symm h)
      simpa [h, hbeq] using ih

theorem buildLinkMap_eq (links : List Link) :
    buildLinkMap links = update [] (links.map fun l => (l.id, l.src)) := by
  unfold buildLinkMap update
  rw [List.foldl_map]

theorem wire_eq {wf : Workflow} (h : (wf.links.map (·.id)).Nodup) (inp : Input) :
    wire (buildLinkMap wf.links) inp = linked wf inp := by
  unfold wire linked
  cases inp.link with
  | none => rfl
  | some id =>
    have hkeys : ((wf.links.map fun l => (l.id, l.src)).map (·.1)).Nodup := by
      rwa [List.map_map]
    rw [Option.bind_some, Option.bind_some, buildLinkMap_eq, lookup_update hkeys,
      lookup_map_find Link.id Link.src]
    cases (wf.links.find? fun l => l.id = id) <;> rfl

/-! ## The inputs of a converted node -/

section Inputs

variable {links : List (ℤ × Ref)}

/-- What one turn of the loop does to the inputs: nothing, or it gives the input a value. -/
theorem convertInput_cases {values : List Json} {d d' : List (String × Json)} {idx idx' : ℕ}
    {inp : Input} (h : convertInput links values (d, idx) inp = .ok (d', idx')) :
    (∃ src, wire links inp = some src ∧ d' = set d inp.name src.json) ∨
      wire links inp = none ∧
        (d' = d ∨ inp.hasWidget = true ∧ ∃ value, d' = set d inp.name value) := by
  unfold convertInput at h
  cases hw : wire links inp with
  | some src =>
    simp only [hw] at h
    refine .inl ⟨src, rfl, ?_⟩
    split_ifs at h
    · obtain ⟨n, -, hn⟩ := bind_ok h
      cases hn
      rfl
    · cases h
      rfl
  | none =>
    simp only [hw] at h
    refine .inr ⟨rfl, ?_⟩
    split_ifs at h with hwidget
    · obtain ⟨n, -, hn⟩ := bind_ok h
      cases hvalue : values[idx]? with
      | none =>
        rw [hvalue] at hn
        cases hn
        exact .inl rfl
      | some value =>
        rw [hvalue] at hn
        cases hn
        exact .inr ⟨hwidget, value, rfl⟩
    · cases h
      exact .inl rfl

theorem lookup_convertInput {values : List Json} {d d' : List (String × Json)} {idx idx' : ℕ}
    {inp : Input} (h : convertInput links values (d, idx) inp = .ok (d', idx')) {name : String}
    (hname : name ≠ inp.name) : d'.lookup name = d.lookup name := by
  rcases convertInput_cases h with ⟨src, -, rfl⟩ | ⟨-, rfl | ⟨-, value, rfl⟩⟩
  · exact lookup_set_ne d _ hname
  · rfl
  · exact lookup_set_ne d _ hname

theorem lookup_run {values : List Json} {inputs : List Input} {d : List (String × Json)} {idx : ℕ}
    {state : List (String × Json) × ℕ}
    (h : inputs.foldlM (convertInput links values) (d, idx) = .ok state) {name : String}
    (hname : name ∉ inputs.map (·.name)) : state.1.lookup name = d.lookup name := by
  induction inputs generalizing d idx with
  | nil =>
    cases h
    rfl
  | cons inp inputs ih =>
    rw [List.foldlM_cons] at h
    obtain ⟨⟨d', idx'⟩, hfirst, hrest⟩ := bind_ok h
    rw [List.map_cons, List.mem_cons, not_or] at hname
    rw [ih hrest hname.2, lookup_convertInput hfirst hname.1]

theorem wired_run {values : List Json} {inputs : List Input} {d : List (String × Json)} {idx : ℕ}
    {state : List (String × Json) × ℕ} (hnames : (inputs.map (·.name)).Nodup)
    (h : inputs.foldlM (convertInput links values) (d, idx) = .ok state) {inp : Input}
    (hinp : inp ∈ inputs) {src : Ref} (hw : wire links inp = some src) :
    state.1.lookup inp.name = some src.json := by
  induction inputs generalizing d idx with
  | nil => cases hinp
  | cons first inputs ih =>
    rw [List.foldlM_cons] at h
    obtain ⟨⟨d', idx'⟩, hfirst, hrest⟩ := bind_ok h
    obtain ⟨hnot, hnodup⟩ := List.nodup_cons.mp hnames
    rcases List.mem_cons.mp hinp with rfl | hinp
    · rw [lookup_run hrest hnot]
      rcases convertInput_cases hfirst with ⟨src', hw', rfl⟩ | ⟨hnone, -⟩
      · obtain rfl := Option.some.inj (hw.symm.trans hw')
        exact lookup_set_self d _ _
      · rw [hw] at hnone
        cases hnone
    · exact ih hnodup hrest hinp

theorem head_set {d : List (String × Json)} {e : String × Json} (hd : d.head? = some e)
    {name : String} (hname : name ≠ e.1) (value : Json) : (set d name value).head? = some e := by
  obtain ⟨rest, rfl⟩ := List.head?_eq_some_iff.mp hd
  rw [py_dict.set, if_neg hname.symm]
  rfl

theorem head_run {values : List Json} {inputs : List Input} {d : List (String × Json)} {idx : ℕ}
    {state : List (String × Json) × ℕ} {e : String × Json} (hd : d.head? = some e)
    (hname : e.1 ∉ inputs.map (·.name))
    (h : inputs.foldlM (convertInput links values) (d, idx) = .ok state) :
    state.1.head? = some e := by
  induction inputs generalizing d idx with
  | nil =>
    cases h
    exact hd
  | cons inp inputs ih =>
    rw [List.foldlM_cons] at h
    obtain ⟨⟨d', idx'⟩, hfirst, hrest⟩ := bind_ok h
    rw [List.map_cons, List.mem_cons, not_or] at hname
    refine ih ?_ hname.2 hrest
    rcases convertInput_cases hfirst with ⟨src, -, rfl⟩ | ⟨-, rfl | ⟨-, value, rfl⟩⟩
    · exact head_set hd (Ne.symm hname.1) _
    · exact hd
    · exact head_set hd (Ne.symm hname.1) _

/-- The first input that gets a value comes first. -/
theorem first_run {values : List Json} {inputs : List Input} {idx : ℕ}
    {state : List (String × Json) × ℕ} (hnames : (inputs.map (·.name)).Nodup)
    (h : inputs.foldlM (convertInput links values) ([], idx) = .ok state) {inp : Input}
    (hfind : (inputs.find? fun i => (wire links i).isSome || i.hasWidget) = some inp) {src : Ref}
    (hw : wire links inp = some src) : state.1.head? = some (inp.name, src.json) := by
  induction inputs generalizing idx with
  | nil => cases hfind
  | cons first inputs ih =>
    rw [List.foldlM_cons] at h
    obtain ⟨⟨d', idx'⟩, hfirst, hrest⟩ := bind_ok h
    obtain ⟨hnot, hnodup⟩ := List.nodup_cons.mp hnames
    rw [List.find?_cons] at hfind
    rcases convertInput_cases hfirst with ⟨src', hw', rfl⟩ | ⟨hnone, hcase⟩
    · rw [hw', Option.isSome_some, Bool.true_or] at hfind
      cases hfind
      obtain rfl := Option.some.inj (hw.symm.trans hw')
      exact head_run rfl hnot hrest
    · cases hwidget : first.hasWidget with
      | true =>
        rw [hwidget, Bool.or_true] at hfind
        cases hfind
        rw [hw] at hnone
        cases hnone
      | false =>
        rw [hnone, hwidget, Option.isSome_none, Bool.or_self] at hfind
        rcases hcase with rfl | ⟨hw', -⟩
        · exact ih hnodup hrest hfind
        · rw [hwidget] at hw'
          cases hw'

/-- Before the first input with a link or a widget there is no link. -/
theorem findSome_of_find {β γ : Type} {f : Input → Option β} {g : Input → β → γ}
    {inputs : List Input} {inp : Input}
    (hfind : (inputs.find? fun i => (f i).isSome || i.hasWidget) = some inp) {b : β}
    (hf : f inp = some b) : (inputs.findSome? fun i => (f i).map (g i)) = some (g inp b) := by
  induction inputs with
  | nil => cases hfind
  | cons first inputs ih =>
    rw [List.find?_cons] at hfind
    rw [List.findSome?_cons]
    cases hfirst : f first with
    | some c =>
      rw [hfirst, Option.isSome_some, Bool.true_or] at hfind
      cases hfind
      rw [hf] at hfirst
      cases hfirst
      rfl
    | none =>
      cases hwidget : first.hasWidget with
      | true =>
        rw [hwidget, Bool.or_true] at hfind
        cases hfind
        rw [hf] at hfirst
        cases hfirst
      | false =>
        rw [hfirst, hwidget] at hfind
        exact ih hfind

/-- The wired inputs of a node whose widgets are a dictionary. -/
def wiredEntries (links : List (ℤ × Ref)) (inputs : List Input) : List (String × Json) :=
  inputs.filterMap fun inp => (wire links inp).map fun src => (inp.name, src.json)

theorem names_wiredEntries (inputs : List Input) :
    ((wiredEntries links inputs).map (·.1)).Sublist (inputs.map (·.name)) := by
  induction inputs with
  | nil => exact List.Sublist.refl _
  | cons inp inputs ih =>
    unfold wiredEntries
    cases hw : wire links inp with
    | none =>
      rw [List.filterMap_cons_none (by rw [hw, Option.map_none])]
      exact ih.cons _
    | some src =>
      rw [List.filterMap_cons_some (by rw [hw, Option.map_some])]
      exact ih.cons_cons _

theorem wired_fold {inputs : List Input} (hnames : (inputs.map (·.name)).Nodup) :
    inputs.foldl (fun d inp =>
      match wire links inp with
      | some src => set d inp.name src.json
      | none => d) [] = wiredEntries links inputs := by
  have hfold : ∀ d : List (String × Json), inputs.foldl (fun d inp =>
      match wire links inp with
      | some src => set d inp.name src.json
      | none => d) d = update d (wiredEntries links inputs) := by
    clear hnames
    induction inputs with
    | nil => exact fun _ => rfl
    | cons inp inputs ih =>
      intro d
      unfold wiredEntries at ih ⊢
      cases hw : wire links inp with
      | none => simpa [hw] using ih d
      | some src => simpa [hw, update_cons] using ih (set d inp.name src.json)
  rw [hfold, update_of_nodup ((names_wiredEntries inputs).nodup hnames), List.nil_append]

theorem fields_fold (fields d : List (String × Json)) : ∃ more, fields.foldl (fun d f =>
    if f.1 = "videopreview" then d
    else if (d.lookup f.1).isSome then d else set d f.1 f.2) d = d ++ more := by
  induction fields generalizing d with
  | nil => exact ⟨[], (List.append_nil d).symm⟩
  | cons f fields ih =>
    rw [List.foldl_cons]
    split_ifs with hpreview hsome
    · exact ih d
    · exact ih d
    · have hnone : d.lookup f.1 = none := Option.not_isSome_iff_eq_none.mp hsome
      rw [set_of_lookup_none hnone]
      obtain ⟨more, hmore⟩ := ih (d ++ [(f.1, f.2)])
      exact ⟨(f.1, f.2) :: more, by rw [hmore, List.append_assoc]; rfl⟩

variable {n : Node} {d : List (String × Json)}

theorem convertInputs_dict {fields : List (String × Json)} (hseed : n.type ≠ seedType)
    (hnames : (n.inputs.map (·.name)).Nodup) (hwidgets : n.widgets = .dict fields)
    (h : convertInputs links n = .ok d) : ∃ more, d = wiredEntries links n.inputs ++ more := by
  unfold convertInputs at h
  rw [if_neg hseed, hwidgets] at h
  obtain ⟨more, hmore⟩ := fields_fold fields (wiredEntries links n.inputs)
  rw [← wired_fold hnames] at hmore ⊢
  exact ⟨more, (Except.ok.inj h).symm.trans hmore⟩

theorem convertInputs_list {values : List Json} (hseed : n.type ≠ seedType)
    (hwidgets : n.widgets = .list values) (h : convertInputs links n = .ok d) :
    ∃ idx, n.inputs.foldlM (convertInput links values) ([], 0) = .ok (d, idx) := by
  unfold convertInputs at h
  rw [if_neg hseed, hwidgets] at h
  obtain ⟨⟨d', idx⟩, hrun, rfl⟩ := map_ok h
  exact ⟨idx, hrun⟩

/-- A wired input holds its source. -/
theorem lookup_convertInputs (hseed : n.type ≠ seedType)
    (hnames : (n.inputs.map (·.name)).Nodup) (h : convertInputs links n = .ok d) {inp : Input}
    (hinp : inp ∈ n.inputs) {src : Ref} (hw : wire links inp = some src) :
    d.lookup inp.name = some src.json := by
  cases hwidgets : n.widgets with
  | list values =>
    obtain ⟨idx, hrun⟩ := convertInputs_list hseed hwidgets h
    exact wired_run hnames hrun hinp hw
  | dict fields =>
    obtain ⟨more, rfl⟩ := convertInputs_dict hseed hnames hwidgets h
    have hin : (inp.name, src.json) ∈ wiredEntries links n.inputs :=
      List.mem_filterMap.mpr ⟨inp, hinp, by rw [hw, Option.map_some]⟩
    have hlookup := lookup_of_mem ((names_wiredEntries n.inputs).nodup hnames) hin
    rw [List.lookup_append, hlookup]
    rfl

/-- When the first input with a link or a widget is wired, its source comes first. -/
theorem head_convertInputs (hseed : n.type ≠ seedType)
    (hnames : (n.inputs.map (·.name)).Nodup) (h : convertInputs links n = .ok d) {inp : Input}
    (hfind : (n.inputs.find? fun i => (wire links i).isSome || i.hasWidget) = some inp) {src : Ref}
    (hw : wire links inp = some src) : d.head? = some (inp.name, src.json) := by
  cases hwidgets : n.widgets with
  | list values =>
    obtain ⟨idx, hrun⟩ := convertInputs_list hseed hwidgets h
    exact first_run hnames hrun hfind hw
  | dict fields =>
    obtain ⟨more, rfl⟩ := convertInputs_dict hseed hnames hwidgets h
    have hhead : (wiredEntries links n.inputs).head? = some (inp.name, src.json) := by
      unfold wiredEntries
      rw [List.head?_filterMap]
      exact findSome_of_find (g := fun i src => (i.name, src.json)) hfind hw
    rw [List.head?_append, hhead]
    rfl

end Inputs

/-! ## The passes without errors -/

def redirected (refs : RefMap) : Json → Json
  | .arr (.str id :: rest) => .arr ((refs.lookup id).getD (.str id :: rest))
  | value => value

theorem redirect_eq (refs : RefMap) {value : Json} (h : plainValue value = true) :
    redirect refs value = .ok (redirected refs value) := by
  cases value with
  | arr items =>
    cases items with
    | nil => cases h
    | cons first rest => cases first <;> first | rfl | cases h
  | _ => rfl

theorem plain_of_redirect {refs : RefMap} {value value' : Json}
    (h : redirect refs value = .ok value') : plainValue value = true := by
  cases value with
  | arr items =>
    cases items with
    | nil => cases h
    | cons first rest => cases first <;> first | rfl | cases h
  | _ => rfl

/-- The values of a graph on which no pass fails. -/
def Plain (graph : ApiGraph) : Prop := ∀ e ∈ graph, ∀ i ∈ e.2.inputs, plainValue i.2 = true

def mapInputs (f : Json → Json) (node : ApiNode) : ApiNode :=
  { node with inputs := node.inputs.map fun i => (i.1, f i.2) }

theorem redirectNode_eq (refs : RefMap) {node : ApiNode}
    (h : ∀ i ∈ node.inputs, plainValue i.2 = true) :
    redirectNode refs node = .ok (mapInputs (redirected refs) node) := by
  have hinputs : node.inputs.mapM (fun e => do return (e.1, ← redirect refs e.2)) =
      (.ok (node.inputs.map fun i => (i.1, redirected refs i.2)) : Except GraphError _) := by
    refine mapM_eq_map fun i hi => ?_
    rw [redirect_eq refs (h i hi)]
    rfl
  unfold redirectNode
  rw [hinputs]
  rfl

theorem plain_of_redirectNode {refs : RefMap} {node node' : ApiNode}
    (h : redirectNode refs node = .ok node') : ∀ i ∈ node.inputs, plainValue i.2 = true := by
  obtain ⟨inputs, hinputs, -⟩ := bind_ok h
  intro i hi
  obtain ⟨e, he⟩ := ok_of_mapM hinputs i hi
  obtain ⟨value, hvalue, -⟩ := bind_ok he
  exact plain_of_redirect hvalue

theorem applyRefMap_eq (refs : RefMap) {graph : ApiGraph} (h : Plain graph) :
    applyRefMap refs graph = .ok (mapValues (redirected refs) graph) := by
  refine mapM_eq_map fun e he => ?_
  rw [redirectNode_eq refs (h e he)]
  rfl

theorem plain_of_applyRefMap {refs : RefMap} {graph graph' : ApiGraph}
    (h : applyRefMap refs graph = .ok graph') : Plain graph := by
  intro e he
  obtain ⟨e', he'⟩ := ok_of_mapM h e he
  obtain ⟨node, hnode, -⟩ := bind_ok he'
  exact plain_of_redirectNode hnode

def PlainRefs (refs : RefMap) : Prop := ∀ id ref, refs.lookup id = some ref →
  plainValue (.arr ref) = true

theorem plain_redirected {refs : RefMap} (hrefs : PlainRefs refs) {value : Json}
    (h : plainValue value = true) : plainValue (redirected refs value) = true := by
  unfold redirected
  split
  · next id rest =>
    cases hid : refs.lookup id with
    | none => exact h
    | some ref => exact hrefs id ref hid
  · exact h

theorem Plain.mapValues {graph : ApiGraph} (h : Plain graph) {f : Json → Json}
    (hf : ∀ value, plainValue value = true → plainValue (f value) = true) :
    Plain (mapValues f graph) := by
  intro e he i hi
  obtain ⟨e', he', rfl⟩ := List.mem_map.mp he
  obtain ⟨i', hi', rfl⟩ := List.mem_map.mp hi
  exact hf _ (h e' he' i' hi')

theorem Plain.filter {graph : ApiGraph} (h : Plain graph) (keep : String × ApiNode → Bool) :
    Plain (graph.filter keep) := fun e he => h e (List.mem_filter.mp he).1

/-- No node is replaced in step 2. -/
theorem replaceFloats_eq (py : Builtins) (nodes : List Node) {graph : ApiGraph}
    (h : ∀ e ∈ graph, e.2.classType ≠ floatToInt) : replaceFloats py nodes graph = .ok graph := by
  have hfold : ∀ (byId : List (String × Node)) (entries : ApiGraph),
      (∀ e ∈ entries, e.2.classType ≠ floatToInt) → ∀ graph : ApiGraph,
        entries.foldlM (replaceFloat py byId) graph = .ok graph := by
    intro byId entries
    induction entries with
    | nil => exact fun _ _ => rfl
    | cons e entries ih =>
      intro hentries graph
      obtain ⟨he, hrest⟩ := List.forall_mem_cons.mp hentries
      have hone : replaceFloat py byId graph e = .ok graph := by
        unfold replaceFloat
        rw [if_neg he]
      rw [List.foldlM_cons, hone]
      exact ih hrest graph
  exact hfold _ graph h graph

/-- No reference is redirected in step 7. -/
theorem redirectVae_eq {graph : ApiGraph} (h : ∀ e ∈ graph, startsWith "%" e.2.title = false) :
    redirectVae graph = graph := by
  have hnone : lastTitled "%LTXV_CHECKPOINT%" graph = none := by
    have hanchor : startsWith "%" "%LTXV_CHECKPOINT%" = true := by decide
    unfold lastTitled
    rw [Option.map_eq_none_iff, List.find?_eq_none]
    intro e he htitle
    have htitle' : e.2.title = "%LTXV_CHECKPOINT%" := by simpa using htitle
    have hfalse := h e (List.mem_reverse.mp he)
    rw [htitle', hanchor] at hfalse
    cases hfalse
  unfold redirectVae
  rw [hnone]

theorem inlineNamed_eq (py : Builtins) {graph : ApiGraph} (h : Plain graph) :
    inlineNamed py graph = .ok (mapValues (redirected (update
      (getResolution py (setMap graph) graph) (setOutputMap graph)))
        (graph.filter fun e => !isNamed e.2)) := by
  unfold inlineNamed
  generalize update (getResolution py (setMap graph) graph) (setOutputMap graph) = refs
  have hmap : graph.mapM (fun e =>
      if isNamed e.2 then (.ok e : Except GraphError _)
      else do return (e.1, ← redirectNode refs e.2)) =
      .ok (graph.map fun e =>
        if isNamed e.2 then e else (e.1, mapInputs (redirected refs) e.2)) := by
    refine mapM_eq_map fun e he => ?_
    split_ifs
    · rfl
    · rw [redirectNode_eq refs (h e he)]
      rfl
  dsimp only
  rw [hmap]
  refine congrArg Except.ok ?_
  have hnamed : ∀ e : String × ApiNode, isNamed
      (if isNamed e.2 then e else (e.1, mapInputs (redirected refs) e.2)).2 = isNamed e.2 := by
    intro e
    split_ifs <;> rfl
  rw [List.filter_map]
  simp only [Function.comp_def, hnamed]
  refine List.map_congr_left fun e he => ?_
  have hnot : isNamed e.2 = false := by simpa using (List.mem_filter.mp he).2
  rw [hnot]
  rfl

/-! ## The graph of the taken nodes -/

section Graph

/-- The converted nodes, with the values that `d` gives to their inputs. -/
def graphOf (d : Node → List (String × Json)) (nodes : List Node) : ApiGraph :=
  nodes.map fun n => (n.id, { classType := n.type, inputs := d n, title := n.shownTitle })

def mapped (f : Json → Json) (d : Node → List (String × Json)) (n : Node) :
    List (String × Json) := (d n).map fun i => (i.1, f i.2)

theorem mapValues_graphOf (f : Json → Json) (d : Node → List (String × Json))
    (nodes : List Node) : mapValues f (graphOf d nodes) = graphOf (mapped f d) nodes := by
  unfold mapValues graphOf
  rw [List.map_map]
  rfl

theorem mapped_mapped (f g : Json → Json) (d : Node → List (String × Json)) :
    mapped f (mapped g d) = mapped (f ∘ g) d := by
  funext n
  unfold mapped
  rw [List.map_map]
  rfl

theorem lookup_mapped (f : Json → Json) (d : Node → List (String × Json)) (n : Node)
    (name : String) : (mapped f d n).lookup name = ((d n).lookup name).map f := by
  unfold mapped
  exact lookup_mapEntries (fun e => f e.2) (d n) name

theorem head_mapped (f : Json → Json) (d : Node → List (String × Json)) (n : Node) :
    (mapped f d n).head? = (d n).head?.map fun i => (i.1, f i.2) := List.head?_map

/-- A dictionary with an entry for some of the nodes. -/
def entriesOf {β : Type} (f : Node → Option β) (nodes : List Node) : List (String × β) :=
  nodes.filterMap fun n => (f n).map fun b => (n.id, b)

theorem entriesOf_cons {β : Type} (f : Node → Option β) (n : Node) (nodes : List Node) :
    entriesOf f (n :: nodes) = ((f n).map fun b => (n.id, b)).toList ++ entriesOf f nodes := by
  unfold entriesOf
  rw [List.filterMap_cons]
  cases f n <;> rfl

theorem lookup_entriesOf {β : Type} (f : Node → Option β) {nodes : List Node}
    (hids : (nodes.map (·.id)).Nodup) (id : String) :
    (entriesOf f nodes).lookup id = (nodes.find? fun n => n.id = id).bind f := by
  unfold entriesOf
  induction nodes with
  | nil => rfl
  | cons n nodes ih =>
    obtain ⟨hnot, hnodup⟩ := List.nodup_cons.mp hids
    rw [List.find?_cons]
    by_cases hid : n.id = id
    · have hnone : nodes.find? (fun n => n.id = id) = none := by
        rw [List.find?_eq_none]
        intro m hm heq
        have hsame : m.id = n.id := (of_decide_eq_true heq).trans hid.symm
        exact hnot (List.mem_map.mpr ⟨m, hm, hsame⟩)
      cases hf : f n with
      | none =>
        rw [List.filterMap_cons_none (by rw [hf, Option.map_none]), ih hnodup, hnone]
        simp [hid, hf]
      | some b =>
        rw [List.filterMap_cons_some (by rw [hf, Option.map_some]), List.lookup_cons]
        simp [hid, hf]
    · have hbeq : (id == n.id) = false := beq_eq_false_iff_ne.mpr (Ne.symm hid)
      cases hf : f n with
      | none =>
        rw [List.filterMap_cons_none (by rw [hf, Option.map_none]), ih hnodup]
        simp [hid]
      | some b =>
        rw [List.filterMap_cons_some (by rw [hf, Option.map_some]), List.lookup_cons, hbeq]
        simpa [hid] using ih hnodup

def arrayOf : Option Json → Option (List Json)
  | some (.arr ref) => some ref
  | _ => none

theorem passthroughMap_graphOf (d : Node → List (String × Json)) (nodes : List Node) :
    passthroughMap (graphOf d nodes) = entriesOf (fun n =>
      if n.type = "Sigmas Easing" then arrayOf ((d n).lookup "sigmas") else none) nodes := by
  unfold passthroughMap graphOf entriesOf
  rw [List.filterMap_map]
  refine List.filterMap_congr fun n _ => ?_
  simp only [Function.comp, passthroughNodes]
  by_cases h : n.type = "Sigmas Easing"
  · simp only [h, List.lookup_cons, beq_self_eq_true, if_true]
    cases (d n).lookup "sigmas" with
    | none => rfl
    | some value => cases value <;> rfl
  · have hbeq : (n.type == "Sigmas Easing") = false := beq_eq_false_iff_ne.mpr h
    simp only [List.lookup_cons, hbeq, if_neg h]
    rfl

def sourceOf (d : Node → List (String × Json)) (n : Node) : Option (List Json) :=
  if n.type = "SetNode" then arrayOf ((d n).head?.map (·.2)) else none

theorem setEntry_graphOf (d : Node → List (String × Json)) (nodes : List Node) :
    (graphOf d nodes).filterMap setEntry = nodes.filterMap fun n =>
      (sourceOf d n).map fun ref => (n.id, withoutTag "Set_" n.shownTitle, ref) := by
  unfold graphOf
  rw [List.filterMap_map]
  refine List.filterMap_congr fun n _ => ?_
  unfold setEntry sourceOf
  simp only [Function.comp]
  split_ifs with h
  · cases d n with
    | nil => rfl
    | cons i rest =>
      obtain ⟨name, value⟩ := i
      cases value <;> rfl
  · rfl

theorem setOutputMap_graphOf (d : Node → List (String × Json)) (nodes : List Node) :
    setOutputMap (graphOf d nodes) = entriesOf (sourceOf d) nodes := by
  unfold setOutputMap entriesOf
  rw [setEntry_graphOf, List.map_filterMap]
  refine List.filterMap_congr fun n _ => ?_
  rw [Option.map_map]
  rfl

theorem keys_entriesOf {β : Type} (f : Node → Option β) {nodes : List Node}
    (hids : (nodes.map (·.id)).Nodup) : ((entriesOf f nodes).map (·.1)).Nodup := by
  have hsub : ((entriesOf f nodes).map (·.1)).Sublist (nodes.map (·.id)) := by
    unfold entriesOf
    clear hids
    induction nodes with
    | nil => exact List.Sublist.refl _
    | cons n nodes ih =>
      cases hf : f n with
      | none =>
        rw [List.filterMap_cons_none (by rw [hf, Option.map_none])]
        exact ih.cons _
      | some b =>
        rw [List.filterMap_cons_some (by rw [hf, Option.map_some])]
        exact ih.cons_cons _
  exact hsub.nodup hids

theorem find_filter {nodes : List Node} (hids : (nodes.map (·.id)).Nodup) (p : Node → Bool)
    (id : String) : (nodes.filter p).find? (fun n => n.id = id) =
      (nodes.find? fun n => n.id = id).filter p := by
  induction nodes with
  | nil => rfl
  | cons n nodes ih =>
    obtain ⟨hnot, hnodup⟩ := List.nodup_cons.mp hids
    rw [List.filter_cons, List.find?_cons]
    by_cases hid : n.id = id
    · have hnone : nodes.find? (fun n => n.id = id) = none := by
        rw [List.find?_eq_none]
        intro m hm heq
        have hsame : m.id = n.id := (of_decide_eq_true heq).trans hid.symm
        exact hnot (List.mem_map.mpr ⟨m, hm, hsame⟩)
      rw [hnone] at ih
      cases hp : p n with
      | true => simp [hid, hp, Option.filter]
      | false =>
        simp only [Bool.false_eq_true, ↓reduceIte, hid, decide_true]
        rw [ih hnodup]
        simp [hp, Option.filter]
    · cases hp : p n with
      | true => simpa [hid, List.find?_cons] using ih hnodup
      | false => simpa [hid] using ih hnodup

theorem getResolution_graphOf (py : Builtins) (sets : RefMap)
    (d : Node → List (String × Json)) (nodes : List Node) :
    getResolution py sets (graphOf d nodes) = entriesOf (fun n =>
      if n.type = "GetNode" then
        (sourceNamed sets (withoutTag "Get_" n.shownTitle)).or
          (sourceNamed sets (baseName py (withoutTag "Get_" n.shownTitle)))
      else none) nodes := by
  unfold getResolution graphOf entriesOf
  rw [List.filterMap_map]
  refine List.filterMap_congr fun n _ => ?_
  simp only [Function.comp]
  split_ifs <;> rfl

/-- The name of a SetNode leads to its source. -/
theorem lookup_setMap {d : Node → List (String × Json)} {nodes : List Node}
    (hnodup : nodes.Nodup) (hinj : ∀ a ∈ nodes, ∀ b ∈ nodes, a.type = "SetNode" →
      b.type = "SetNode" → withoutTag "Set_" a.shownTitle = withoutTag "Set_" b.shownTitle → a = b)
    {s : Node} (hs : s ∈ nodes) {ref : List Json} (href : sourceOf d s = some ref) :
    (setMap (graphOf d nodes)).lookup (withoutTag "Set_" s.shownTitle) = some ref := by
  have htype : ∀ n ref, sourceOf d n = some ref → n.type = "SetNode" := by
    intro n ref h
    by_contra hne
    rw [sourceOf, if_neg hne] at h
    cases h
  have hmap : setMap (graphOf d nodes) = update [] (nodes.filterMap fun n =>
      (sourceOf d n).map fun ref => (withoutTag "Set_" n.shownTitle, ref)) := by
    have hpatch : (nodes.filterMap fun n =>
        (sourceOf d n).map fun ref => (withoutTag "Set_" n.shownTitle, ref)) =
          (nodes.filterMap fun n => (sourceOf d n).map fun ref =>
            (n.id, withoutTag "Set_" n.shownTitle, ref)).map (·.2) := by
      rw [List.map_filterMap]
      refine List.filterMap_congr fun n _ => ?_
      rw [Option.map_map]
      rfl
    unfold setMap update
    rw [setEntry_graphOf, hpatch, List.foldl_map]
  have hkeys : ((nodes.filterMap fun n =>
      (sourceOf d n).map fun ref => (withoutTag "Set_" n.shownTitle, ref)).map (·.1)).Nodup := by
    rw [List.map_filterMap]
    refine List.pairwise_filterMap.mpr (hnodup.imp_of_mem fun ha hb hne x hx y hy heq => hne ?_)
    simp only [Option.map_map, Option.map_eq_some_iff, Function.comp] at hx hy
    obtain ⟨ref, hrefa, rfl⟩ := hx
    obtain ⟨ref', hrefb, rfl⟩ := hy
    exact hinj _ ha _ hb (htype _ _ hrefa) (htype _ _ hrefb) heq
  rw [hmap, lookup_update hkeys]
  have hin : (withoutTag "Set_" s.shownTitle, ref) ∈ nodes.filterMap fun n =>
      (sourceOf d n).map fun ref => (withoutTag "Set_" n.shownTitle, ref) :=
    List.mem_filterMap.mpr ⟨s, hs, by rw [href, Option.map_some]⟩
  have hlookup := lookup_of_mem hkeys hin
  simp only at hlookup
  rw [hlookup]
  rfl

end Graph

/-! ## Kinds -/

theorem kind_bypassed {n : Node} (h : n.mode ≠ 0) : kind n = .bypassed := if_pos h

theorem kind_of_type {n : Node} (h : n.mode = 0) :
    kind n = if n.type = "Sigmas Easing" then .easing else if n.type = "SetNode" then .setNode
      else if n.type = "GetNode" then .getNode else .kept := if_neg (not_not.mpr h)

theorem kind_easing_iff {n : Node} :
    kind n = .easing ↔ n.mode = 0 ∧ n.type = "Sigmas Easing" := by
  by_cases hmode : n.mode = 0
  · rw [kind_of_type hmode]
    split_ifs <;> simp_all
  · simp [kind_bypassed hmode, hmode]

theorem kind_setNode_iff {n : Node} : kind n = .setNode ↔ n.mode = 0 ∧ n.type = "SetNode" := by
  by_cases hmode : n.mode = 0
  · rw [kind_of_type hmode]
    split_ifs <;> simp_all
  · simp [kind_bypassed hmode, hmode]

theorem kind_getNode_iff {n : Node} : kind n = .getNode ↔ n.mode = 0 ∧ n.type = "GetNode" := by
  by_cases hmode : n.mode = 0
  · rw [kind_of_type hmode]
    split_ifs <;> simp_all
  · simp [kind_bypassed hmode, hmode]

theorem tagged_some {tag title name : String} (h : tagged tag title = some name) :
    withoutTag tag title = name := by
  unfold tagged at h
  unfold withoutTag
  split_ifs at h ⊢
  exact Option.some.inj h

theorem tagged_injective {tag title title' name : String} (htag : tag.toList.length = 4)
    (h : tagged tag title = some name) (h' : tagged tag title' = some name) : title = title' := by
  have hsplit : ∀ t, tagged tag t = some name → t.toList = tag.toList ++ name.toList := by
    intro t ht
    unfold tagged at ht
    split_ifs at ht with hstart
    obtain ⟨rest, hrest⟩ := List.isPrefixOf_iff_prefix.mp hstart
    cases ht
    rw [String.toList_ofList, ← hrest, ← htag, List.drop_left]
  exact String.ext ((hsplit title h).trans (hsplit title' h').symm)

section Stages

variable {wf : Workflow} {anchors : List (String × String)}

/-! ## Bypassed nodes -/

/-- What `bypass_map` leads a reference to. -/
def pastBypassed (wf : Workflow) (ref : Ref) : Ref :=
  ((resolveBypass (bypassMap (buildLinkMap wf.links) wf.nodes)).lookup ref.1).getD ref

theorem bypassMap_eq (hids : (wf.nodes.map (·.id)).Nodup) (links : List (ℤ × Ref)) :
    bypassMap links wf.nodes = entriesOf (fun n =>
      if n.mode = 0 then none else n.inputs.head?.bind (wire links)) wf.nodes := by
  have hfold : ∀ (nodes : List Node) (d : List (String × Ref)), nodes.foldl (fun d node =>
      if node.mode = 0 then d
      else match node.inputs.head?.bind (wire links) with
        | some src => set d node.id src
        | none => d) d = update d (entriesOf (fun n =>
          if n.mode = 0 then none else n.inputs.head?.bind (wire links)) nodes) := by
    intro nodes
    induction nodes with
    | nil => exact fun _ => rfl
    | cons n nodes ih =>
      intro d
      rw [List.foldl_cons, ih, entriesOf_cons, update_append]
      split_ifs
      · rfl
      · cases n.inputs.head?.bind (wire links) <;> rfl
  refine (hfold wf.nodes []).trans ?_
  rw [update_of_nodup (keys_entriesOf _ hids), List.nil_append]

theorem pointer_bypass (h : Convertible wf anchors) (ref : Ref) :
    pointer Prod.fst (bypassMap (buildLinkMap wf.links) wf.nodes) ref =
      (nodeAt wf ref.1).bind fun n => if kind n = .bypassed then passed wf n else none := by
  unfold pointer
  rw [bypassMap_eq h.ids, lookup_entriesOf _ h.ids]
  unfold nodeAt
  cases wf.nodes.find? fun n => n.id = ref.1 with
  | none => rfl
  | some n =>
    rw [Option.bind_some, Option.bind_some]
    by_cases hmode : n.mode = 0
    · have hkind : kind n ≠ .bypassed := by
        rw [kind_of_type hmode]
        split_ifs <;> simp
      rw [if_pos hmode, if_neg hkind]
    · rw [if_neg hmode, if_pos (kind_bypassed hmode), passed, kind_bypassed hmode]
      congr 1
      funext inp
      exact wire_eq h.links inp

/-- A way past the bypassed nodes in front. -/
theorem way_pastBypassed (h : Convertible wf anchors) {ref e : Ref} {trace : List Kind}
    (hway : Way wf ref trace e) : ∃ m rest, trace = List.replicate m .bypassed ++ rest ∧
      Way wf (pastBypassed wf ref) rest e ∧
      ∀ n, nodeAt wf (pastBypassed wf ref).1 = some n → kind n ≠ .bypassed := by
  have hends : ∃ m next rest, Ends (pointer Prod.fst
      (bypassMap (buildLinkMap wf.links) wf.nodes)) m ref next ∧
        trace = List.replicate m .bypassed ++ rest ∧ Way wf next rest e ∧
        ∀ n, nodeAt wf next.1 = some n → kind n ≠ .bypassed := by
    induction hway with
    | @here ref n hn hkept =>
      have hne : kind n ≠ .bypassed := by simp [hkept]
      refine ⟨0, ref, [], .here ?_, rfl, .here hn hkept, fun m hm => ?_⟩
      · rw [pointer_bypass h, hn, Option.bind_some, if_neg hne]
      · rw [hn] at hm
        exact Option.some.inj hm ▸ hne
    | @through ref next e n trace hn hpassed hway ih =>
      by_cases hkind : kind n = .bypassed
      · obtain ⟨m, last, rest, hends, rfl, hrest, hlast⟩ := ih
        refine ⟨m + 1, last, rest, .step ?_ hends, ?_, hrest, hlast⟩
        · rw [pointer_bypass h, hn, Option.bind_some, if_pos hkind, hpassed]
        · rw [hkind]
          rfl
      · refine ⟨0, ref, kind n :: trace, .here ?_, rfl, .through hn hpassed hway, fun m hm => ?_⟩
        · rw [pointer_bypass h, hn, Option.bind_some, if_neg hkind]
        · rw [hn] at hm
          exact Option.some.inj hm ▸ hkind
  obtain ⟨m, next, rest, hends, htrace, hrest, hlast⟩ := hends
  have hkeys : ((bypassMap (buildLinkMap wf.links) wf.nodes).map (·.1)).Nodup := by
    rw [bypassMap_eq h.ids]
    exact keys_entriesOf _ h.ids
  obtain ⟨hshort, hcompress⟩ := @compress_spec String Ref _ Prod.fst _ hkeys
  have hpast : pastBypassed wf ref = next := by
    unfold pastBypassed resolveBypass
    cases hends with
    | here hnone =>
      have hlookup : (compress Prod.fst _).lookup ref.1 = none := hshort.none ref hnone
      rw [hlookup, Option.getD_none]
    | @step k _ b _ hsome hmore =>
      rw [hcompress ref k next (.step hsome hmore), Option.getD_some]
  exact ⟨m, rest, htrace, hpast ▸ hrest, hpast ▸ hlast⟩

/-! ## The other passes -/

/-- What step 1 leads a reference to. -/
def pastEasing (wf : Workflow) (ref : Ref) : Ref :=
  ((nodeAt wf ref.1).bind fun n =>
    if kind n = .easing then (passed wf n).map (pastBypassed wf) else none).getD ref

/-- What step 5 leads a reference to. -/
def pastNamed (wf : Workflow) (ref : Ref) : Ref :=
  ((nodeAt wf ref.1).bind fun n =>
    if kind n = .setNode ∨ kind n = .getNode then
      (passed wf n).map fun next => pastEasing wf (pastBypassed wf next)
    else none).getD ref

theorem pastEasing_easing {ref next : Ref} {n : Node} (hn : nodeAt wf ref.1 = some n)
    (hkind : kind n = .easing) (hpassed : passed wf n = some next) :
    pastEasing wf ref = pastBypassed wf next := by
  simp [pastEasing, hn, hkind, hpassed]

theorem pastEasing_other {ref : Ref} {n : Node} (hn : nodeAt wf ref.1 = some n)
    (hkind : kind n ≠ .easing) : pastEasing wf ref = ref := by
  simp [pastEasing, hn, hkind]

theorem pastNamed_named {ref next : Ref} {n : Node} (hn : nodeAt wf ref.1 = some n)
    (hkind : kind n = .setNode ∨ kind n = .getNode) (hpassed : passed wf n = some next) :
    pastNamed wf ref = pastEasing wf (pastBypassed wf next) := by
  simp [pastNamed, hn, hkind, hpassed]

theorem pastNamed_other {ref : Ref} {n : Node} (hn : nodeAt wf ref.1 = some n)
    (hkind : ¬ (kind n = .setNode ∨ kind n = .getNode)) : pastNamed wf ref = ref := by
  simp [pastNamed, hn, hkind]

theorem Way.last {ref e : Ref} {trace : List Kind} (h : Way wf ref trace e) :
    ∃ n, nodeAt wf e.1 = some n ∧ kind n = .kept := by
  induction h with
  | here hn hkept => exact ⟨_, hn, hkept⟩
  | through _ _ _ ih => exact ih

/-- A virtual node is not the end of a way. -/
theorem Way.ne_last {ref ref' e : Ref} {trace : List Kind} (h : Way wf ref' trace e) {n : Node}
    (hn : nodeAt wf ref.1 = some n) (hkind : kind n ≠ .kept) : ref ≠ e := by
  rintro rfl
  obtain ⟨m, hm, hkept⟩ := h.last
  obtain rfl := Option.some.inj (hn.symm.trans hm)
  exact hkind hkept

theorem virtual_cases {n : Node} {next : Ref} (hpassed : passed wf n = some next)
    (hkind : kind n ≠ .bypassed) :
    kind n = .easing ∨ kind n = .setNode ∨ kind n = .getNode := by
  unfold passed at hpassed
  cases hk : kind n with
  | bypassed => exact absurd hk hkind
  | easing => exact .inl rfl
  | setNode => exact .inr (.inl rfl)
  | getNode => exact .inr (.inr rfl)
  | kept =>
    rw [hk] at hpassed
    cases hpassed

theorem met_replicate (m : ℕ) (rest : List Kind) :
    met (List.replicate m .bypassed ++ rest) = met rest := by
  unfold met
  rw [List.filter_append, List.filter_replicate_of_neg (by simp), List.nil_append]

theorem met_cons {k : Kind} (hk : k ≠ .bypassed) (trace : List Kind) :
    met (k :: trace) = k :: met trace := List.filter_cons_of_pos (by simpa using hk)

theorem atMostOne_easing {rest : List Kind} : AtMostOne (.easing :: rest) ↔ rest = [] := by
  simp [AtMostOne]

theorem not_atMostOne {k : Kind} (hk : k ≠ .easing) (rest : List Kind) :
    ¬ AtMostOne (k :: rest) := by
  simp [AtMostOne, hk]

/-- Past one Sigmas Easing at the most. -/
theorem pastEasing_iff (h : Convertible wf anchors) {ref e : Ref} {trace : List Kind}
    (hway : Way wf ref trace e) :
    pastEasing wf (pastBypassed wf ref) = e ↔ AtMostOne (met trace) := by
  obtain ⟨m, rest, rfl, hrest, hfirst⟩ := way_pastBypassed h hway
  rw [met_replicate]
  cases hrest with
  | here hn hkept =>
    rw [pastEasing_other hn (by simp [hkept])]
    exact iff_of_true rfl (.inl rfl)
  | @through _ next _ n trace hn hpassed hnext =>
    have hkind := hfirst n hn
    rw [met_cons hkind]
    by_cases heasing : kind n = .easing
    · rw [pastEasing_easing hn heasing hpassed, heasing, atMostOne_easing]
      obtain ⟨m', rest', rfl, hrest', hsecond⟩ := way_pastBypassed h hnext
      rw [met_replicate]
      generalize hpast : pastBypassed wf next = past at *
      cases hrest' with
      | here _ _ => exact iff_of_true rfl rfl
      | @through _ _ _ n' _ hn' hpassed' hway' =>
        have hkind' := hsecond n' hn'
        have hvirtual : kind n' ≠ .kept := by
          rcases virtual_cases hpassed' hkind' with hk | hk | hk <;> simp [hk]
        rw [met_cons hkind']
        exact iff_of_false (hway'.ne_last hn' hvirtual) (List.cons_ne_nil _ _)
    · have hvirtual : kind n ≠ .kept := by
        rcases virtual_cases hpassed hkind with hk | hk | hk <;> simp [hk]
      rw [pastEasing_other hn heasing]
      exact iff_of_false (hnext.ne_last hn hvirtual) (not_atMostOne heasing _)

theorem short_congr {trace trace' : List Kind} (h : met trace = met trace') :
    Short trace ↔ Short trace' := by
  rw [Short, Short, h]

theorem short_named {trace rest : List Kind} {k : Kind} (hk : k = .setNode ∨ k = .getNode)
    (h : met trace = k :: rest) : Short trace ↔ AtMostOne rest := by
  have hne : k ≠ .easing := by rcases hk with rfl | rfl <;> simp
  rw [Short, h]
  constructor
  · rintro (hone | ⟨front, k', back, -, hfront, hback, hsplit⟩)
    · exact absurd hone (not_atMostOne hne rest)
    · rcases hfront with rfl | rfl
      · exact (List.cons.inj hsplit).2 ▸ hback
      · exact absurd (List.cons.inj hsplit).1 hne
  · exact fun hrest => .inr ⟨[], k, rest, hk, .inl rfl, hrest, rfl⟩

theorem short_easing_named {trace rest : List Kind} {k : Kind}
    (hk : k = .setNode ∨ k = .getNode) (h : met trace = .easing :: k :: rest) :
    Short trace ↔ AtMostOne rest := by
  rw [Short, h, atMostOne_easing]
  constructor
  · rintro (hnil | ⟨front, k', back, hk', hfront, hback, hsplit⟩)
    · cases hnil
    · rcases hfront with rfl | rfl
      · obtain ⟨rfl, -⟩ := List.cons.inj hsplit
        rcases hk' with h' | h' <;> cases h'
      · exact (List.cons.inj (List.cons.inj hsplit).2).2 ▸ hback
  · exact fun hrest => .inr ⟨[.easing], k, rest, hk, .inr rfl, hrest, rfl⟩

theorem not_short_easings {trace rest : List Kind} (h : met trace = .easing :: .easing :: rest) :
    ¬ Short trace := by
  rw [Short, h, atMostOne_easing]
  rintro (hnil | ⟨front, k, back, hk, hfront, -, hsplit⟩)
  · cases hnil
  · rcases hfront with rfl | rfl
    · obtain ⟨rfl, -⟩ := List.cons.inj hsplit
      rcases hk with h' | h' <;> cases h'
    · obtain ⟨rfl, -⟩ := List.cons.inj (List.cons.inj hsplit).2
      rcases hk with h' | h' <;> cases h'

/-- The passes together lead to the end of a way exactly if it is short. -/
theorem pastNamed_iff (h : Convertible wf anchors) {ref e : Ref} {trace : List Kind}
    (hway : Way wf ref trace e) :
    pastNamed wf (pastEasing wf (pastBypassed wf ref)) = e ↔ Short trace := by
  obtain ⟨m, rest, rfl, hrest, hfirst⟩ := way_pastBypassed h hway
  rw [short_congr (met_replicate m rest)]
  cases hrest with
  | here hn hkept =>
    rw [pastEasing_other hn (by simp [hkept]), pastNamed_other hn (by simp [hkept])]
    exact iff_of_true rfl (.inl (.inl rfl))
  | @through _ next _ n trace hn hpassed hnext =>
    have hkind := hfirst n hn
    rcases virtual_cases hpassed hkind with heasing | hnamed
    · rw [pastEasing_easing hn heasing hpassed]
      obtain ⟨m', rest', rfl, hrest', hsecond⟩ := way_pastBypassed h hnext
      have hmet : met (kind n :: (List.replicate m' .bypassed ++ rest')) =
          .easing :: met rest' := by
        rw [met_cons hkind, met_replicate, heasing]
      generalize hpast : pastBypassed wf next = past at *
      cases hrest' with
      | here hn' hkept =>
        rw [pastNamed_other hn' (by simp [hkept])]
        exact iff_of_true rfl (.inl (.inr hmet))
      | @through _ next' _ n' trace' hn' hpassed' hway' =>
        have hkind' := hsecond n' hn'
        rw [met_cons hkind'] at hmet
        rcases virtual_cases hpassed' hkind' with heasing' | hnamed'
        · have hother : ¬ (kind n' = .setNode ∨ kind n' = .getNode) := by simp [heasing']
          rw [pastNamed_other hn' hother]
          exact iff_of_false (hway'.ne_last hn' (by simp [heasing']))
            (not_short_easings (by rw [hmet, heasing']))
        · rw [pastNamed_named hn' hnamed' hpassed', short_easing_named hnamed' hmet]
          exact pastEasing_iff h hway'
    · have heasing : kind n ≠ .easing := by rcases hnamed with hk | hk <;> simp [hk]
      rw [pastEasing_other hn heasing, pastNamed_named hn hnamed hpassed,
        short_named hnamed (met_cons hkind trace)]
      exact pastEasing_iff h hnext

/-! ## What the passes do to the values -/

def takenNodes (wf : Workflow) (anchors : List (String × String)) : List Node :=
  wf.nodes.filter (taken anchors)

/-- The inputs of a node as `_convert_node` leaves them. -/
def converted (wf : Workflow) (n : Node) : List (String × Json) :=
  ((convertInputs (buildLinkMap wf.links) n).toOption).getD []

/-- The taken nodes convert, to values on which no pass fails. -/
def Sound (wf : Workflow) (anchors : List (String × String)) : Prop :=
  ∀ n ∈ takenNodes wf anchors,
    convertInputs (buildLinkMap wf.links) n = .ok (converted wf n) ∧
      ∀ i ∈ converted wf n, plainValue i.2 = true

theorem taken_iff (h : Convertible wf anchors) {n : Node} (hn : n ∈ wf.nodes) :
    taken anchors n = true ↔ n.mode = 0 ∧ startsWith "42242" n.type = false := by
  have hforced : forced anchors n.id = false := by
    unfold forced
    rw [h.unanchored n hn]
    rfl
  unfold taken
  rw [hforced]
  by_cases hmode : n.mode = 0
  · simp [hmode, (h.types n hn hmode).1]
  · simp [hmode]

theorem mem_takenNodes (h : Convertible wf anchors) {n : Node} :
    n ∈ takenNodes wf anchors ↔
      n ∈ wf.nodes ∧ n.mode = 0 ∧ startsWith "42242" n.type = false := by
  unfold takenNodes
  rw [List.mem_filter]
  exact and_congr_right fun hn => taken_iff h hn

theorem ids_takenNodes (h : Convertible wf anchors) :
    ((takenNodes wf anchors).map (·.id)).Nodup :=
  (List.filter_sublist.map _).nodup h.ids

theorem buildGraph_eq (h : Convertible wf anchors) (hconv : ∀ n ∈ takenNodes wf anchors,
      convertInputs (buildLinkMap wf.links) n = .ok (converted wf n)) :
    buildGraph (buildLinkMap wf.links) anchors wf.nodes =
      .ok (graphOf (converted wf) (takenNodes wf anchors)) := by
  have hfold : ∀ nodes : List Node, (∀ n ∈ nodes, n ∈ wf.nodes) → ∀ graph : ApiGraph,
      nodes.foldlM (fun graph node =>
        if taken anchors node then do
          let api ← convertNode (buildLinkMap wf.links) node
          return set graph node.id { api with title := (anchors.lookup node.id).getD api.title }
        else .ok graph) graph =
          (.ok (update graph (graphOf (converted wf) (nodes.filter (taken anchors)))) :
            Except GraphError ApiGraph) := by
    intro nodes
    induction nodes with
    | nil => exact fun _ _ => rfl
    | cons n nodes ih =>
      intro hmem graph
      obtain ⟨hn, hnodes⟩ := List.forall_mem_cons.mp hmem
      rw [List.foldlM_cons]
      cases htaken : taken anchors n with
      | false =>
        rw [List.filter_cons_of_neg (by simp [htaken])]
        exact ih hnodes graph
      | true =>
        have hinputs := hconv n (List.mem_filter.mpr ⟨hn, htaken⟩)
        rw [List.filter_cons_of_pos htaken, if_pos rfl, convertNode, hinputs, h.unanchored n hn]
        exact ih hnodes _
  refine (hfold wf.nodes (fun _ hn => hn) []).trans ?_
  have hkeys : ((graphOf (converted wf) (takenNodes wf anchors)).map (·.1)).Nodup := by
    unfold graphOf
    rw [List.map_map]
    exact ids_takenNodes h
  exact congrArg Except.ok ((update_of_nodup hkeys).trans (List.nil_append _))

theorem converts_of_build {links : List (ℤ × Ref)} {nodes : List Node} {graph graph' : ApiGraph}
    (h : nodes.foldlM (fun graph node =>
      if taken anchors node then do
        let api ← convertNode links node
        return set graph node.id { api with title := (anchors.lookup node.id).getD api.title }
      else .ok graph) graph = (.ok graph' : Except GraphError ApiGraph)) :
    ∀ n ∈ nodes, taken anchors n = true → ∃ d, convertInputs links n = .ok d := by
  induction nodes generalizing graph with
  | nil => nofun
  | cons n nodes ih =>
    rw [List.foldlM_cons] at h
    obtain ⟨next, hfirst, hrest⟩ := bind_ok h
    refine List.forall_mem_cons.mpr ⟨fun htaken => ?_, ih hrest⟩
    rw [if_pos htaken] at hfirst
    obtain ⟨api, hapi, -⟩ := bind_ok hfirst
    obtain ⟨d, hd, -⟩ := bind_ok hapi
    exact ⟨d, hd⟩

theorem redirected_json {refs : RefMap} {ref : Ref} {found : Option Ref}
    (h : refs.lookup ref.1 = found.map Ref.items) :
    redirected refs ref.json = (found.getD ref).json := by
  change Json.arr ((refs.lookup ref.1).getD ref.items) = _
  rw [h]
  cases found <;> rfl

/-- `bypass_map` as the first pass gets it. -/
def bypassRefs (wf : Workflow) : RefMap :=
  (resolveBypass (bypassMap (buildLinkMap wf.links) wf.nodes)).map fun e => (e.1, e.2.items)

theorem redirected_bypass (ref : Ref) :
    redirected (bypassRefs wf) ref.json = (pastBypassed wf ref).json :=
  redirected_json (lookup_mapEntries (fun e : String × Ref => e.2.items) _ _)

theorem plainRefs_of_items {refs : RefMap}
    (h : ∀ id ref, refs.lookup id = some ref → ∃ target : Ref, ref = target.items) :
    PlainRefs refs := by
  intro id ref hlookup
  obtain ⟨target, rfl⟩ := h id ref hlookup
  rfl

theorem plainRefs_bypass : PlainRefs (bypassRefs wf) := by
  refine plainRefs_of_items fun id ref hlookup => ?_
  unfold bypassRefs at hlookup
  rw [lookup_mapEntries (fun e : String × Ref => e.2.items)] at hlookup
  obtain ⟨target, -, rfl⟩ := Option.map_eq_some_iff.mp hlookup
  exact ⟨target, rfl⟩

theorem find_unique {α : Type} {key : α → String} {l : List α} (hkeys : (l.map key).Nodup)
    {a : α} (ha : a ∈ l) : l.find? (fun b => key b = key a) = some a := by
  induction l with
  | nil => cases ha
  | cons first l ih =>
    obtain ⟨hnot, hnodup⟩ := List.nodup_cons.mp hkeys
    rcases List.mem_cons.mp ha with rfl | ha
    · simp
    · have hne : key first ≠ key a := fun heq => hnot (heq ▸ List.mem_map_of_mem ha)
      rw [List.find?_cons_of_neg (by simpa using hne)]
      exact ih hnodup ha

theorem nodeAt_self (h : Convertible wf anchors) {n : Node} (hn : n ∈ wf.nodes) :
    nodeAt wf n.id = some n := find_unique h.ids hn

theorem mem_of_nodeAt {id : String} {n : Node} (h : nodeAt wf id = some n) :
    n ∈ wf.nodes ∧ n.id = id :=
  ⟨List.mem_of_find?_eq_some h, by simpa using List.find?_some h⟩

theorem taken_of_type (h : Convertible wf anchors) {n : Node} (hn : n ∈ wf.nodes)
    (hmode : n.mode = 0) (htype : n.type ∈ ["Sigmas Easing", "SetNode", "GetNode"]) :
    taken anchors n = true := by
  have hhead : ∀ type ∈ ["Sigmas Easing", "SetNode", "GetNode"],
      startsWith "42242" type = false := by decide
  exact (taken_iff h hn).mpr ⟨hmode, hhead _ htype⟩

/-- A linked input of a taken node holds its source. -/
theorem lookup_converted (h : Convertible wf anchors) (hs : Sound wf anchors) {n : Node}
    (hn : n ∈ takenNodes wf anchors) {inp : Input} (hinp : inp ∈ n.inputs) {src : Ref}
    (hsrc : linked wf inp = some src) : (converted wf n).lookup inp.name = some src.json := by
  obtain ⟨hmem, hmode, -⟩ := (mem_takenNodes h).mp hn
  rw [← wire_eq h.links] at hsrc
  exact lookup_convertInputs (h.types n hmem hmode).2.2 (h.names n hmem) (hs n hn).1 hinp hsrc

theorem passed_easing (h : Convertible wf anchors) {n : Node} (hn : n ∈ wf.nodes)
    (hkind : kind n = .easing) : ∃ inp ∈ n.inputs, inp.name = "sigmas" ∧
      ∃ src, linked wf inp = some src ∧ passed wf n = some src := by
  obtain ⟨inp, hinp, hname, hlinked⟩ := h.easings n hn hkind
  obtain ⟨src, hsrc⟩ := Option.isSome_iff_exists.mp hlinked
  have hfind := find_unique (h.names n hn) hinp
  rw [hname] at hfind
  refine ⟨inp, hinp, hname, src, hsrc, ?_⟩
  unfold passed
  rw [hkind]
  simp only [hfind, Option.bind_some, hsrc]

/-- The values after the first pass. -/
def pastFirst (wf : Workflow) : Node → List (String × Json) :=
  mapped (redirected (bypassRefs wf)) (converted wf)

def passthroughRefs (wf : Workflow) (anchors : List (String × String)) : RefMap :=
  passthroughMap (graphOf (pastFirst wf) (takenNodes wf anchors))

theorem lookup_passthrough (h : Convertible wf anchors) (hs : Sound wf anchors) (id : String) :
    (passthroughRefs wf anchors).lookup id = ((nodeAt wf id).bind fun n =>
      if kind n = .easing then (passed wf n).map (pastBypassed wf) else none).map Ref.items := by
  unfold passthroughRefs
  rw [passthroughMap_graphOf, lookup_entriesOf _ (ids_takenNodes h), takenNodes,
    find_filter h.ids]
  change ((nodeAt wf id).filter _).bind _ = _
  cases hn : nodeAt wf id with
  | none => rfl
  | some n =>
    obtain ⟨hmem, -⟩ := mem_of_nodeAt hn
    by_cases hkind : kind n = .easing
    · obtain ⟨hmode, htype⟩ := kind_easing_iff.mp hkind
      have htaken := taken_of_type h hmem hmode (by simp [htype])
      obtain ⟨inp, hinp, hname, src, hsrc, hpassed⟩ := passed_easing h hmem hkind
      have hlookup := lookup_converted h hs (List.mem_filter.mpr ⟨hmem, htaken⟩) hinp hsrc
      have hvalue : (pastFirst wf n).lookup "sigmas" = some (pastBypassed wf src).json := by
        rw [pastFirst, lookup_mapped, ← hname, hlookup, Option.map_some, redirected_bypass]
      rw [Option.filter, if_pos htaken, Option.bind_some, if_pos htype, hvalue, Option.bind_some,
        if_pos hkind, hpassed]
      rfl
    · have hother : (if n.type = "Sigmas Easing" then
          arrayOf ((pastFirst wf n).lookup "sigmas") else none) = none ∨
            taken anchors n = false := by
        by_cases hmode : n.mode = 0
        · exact .inl (if_neg fun htype => hkind (kind_easing_iff.mpr ⟨hmode, htype⟩))
        · refine .inr ?_
          by_contra htaken
          exact hmode ((taken_iff h hmem).mp (by simpa using htaken)).1
      rw [Option.bind_some, if_neg hkind]
      rcases hother with hnone | hfalse
      · cases htaken : taken anchors n <;> simp [Option.filter, htaken, hnone]
      · simp [Option.filter, hfalse]

theorem redirected_passthrough (h : Convertible wf anchors) (hs : Sound wf anchors) (ref : Ref) :
    redirected (passthroughRefs wf anchors) ref.json = (pastEasing wf ref).json :=
  redirected_json (lookup_passthrough h hs ref.1)

theorem plainRefs_passthrough (h : Convertible wf anchors) (hs : Sound wf anchors) :
    PlainRefs (passthroughRefs wf anchors) := by
  refine plainRefs_of_items fun id ref hlookup => ?_
  rw [lookup_passthrough h hs] at hlookup
  obtain ⟨target, -, rfl⟩ := Option.map_eq_some_iff.mp hlookup
  exact ⟨target, rfl⟩

/-- The nodes that step 1 leaves. -/
def leftNodes (wf : Workflow) (anchors : List (String × String)) : List Node :=
  (takenNodes wf anchors).filter fun n => kind n ≠ .easing

theorem withoutIds_passthrough (h : Convertible wf anchors) (hs : Sound wf anchors)
    (d : Node → List (String × Json)) :
    withoutIds ((passthroughRefs wf anchors).map (·.1)) (graphOf d (takenNodes wf anchors)) =
      graphOf d (leftNodes wf anchors) := by
  unfold withoutIds leftNodes graphOf
  rw [List.filter_map]
  congr 1
  refine List.filter_congr fun n hn => ?_
  obtain ⟨hmem, hmode, -⟩ := (mem_takenNodes h).mp hn
  have hat := nodeAt_self h hmem
  have hlookup := lookup_passthrough h hs n.id
  rw [hat, Option.bind_some] at hlookup
  by_cases hkind : kind n = .easing
  · obtain ⟨inp, -, -, src, -, hpassed⟩ := passed_easing h hmem hkind
    rw [if_pos hkind, hpassed] at hlookup
    have hin := List.mem_map_of_mem (f := Prod.fst) (mem_of_lookup_eq hlookup)
    simpa [hkind] using hin
  · rw [if_neg hkind] at hlookup
    have hnot : n.id ∉ (passthroughRefs wf anchors).map (·.1) := by
      intro hin
      obtain ⟨e, he, heq⟩ := List.mem_map.mp hin
      have hne := List.lookup_eq_none_iff.mp hlookup e he
      simp [heq] at hne
    simpa [hkind] using hnot

/-- The values after the second pass. -/
def pastSecond (wf : Workflow) (anchors : List (String × String)) :
    Node → List (String × Json) := mapped (redirected (passthroughRefs wf anchors)) (pastFirst wf)

theorem mem_leftNodes (h : Convertible wf anchors) {n : Node} :
    n ∈ leftNodes wf anchors ↔ (n ∈ wf.nodes ∧ n.mode = 0 ∧
      startsWith "42242" n.type = false) ∧ kind n ≠ .easing := by
  unfold leftNodes
  rw [List.mem_filter, mem_takenNodes h]
  simp

theorem ids_leftNodes (h : Convertible wf anchors) :
    ((leftNodes wf anchors).map (·.id)).Nodup :=
  (List.filter_sublist.map _).nodup (ids_takenNodes h)

theorem find_leftNodes (h : Convertible wf anchors) {id : String} {n : Node}
    (hn : nodeAt wf id = some n) : (leftNodes wf anchors).find? (fun m => m.id = id) =
      if taken anchors n = true ∧ kind n ≠ .easing then some n else none := by
  unfold leftNodes
  rw [find_filter (ids_takenNodes h), takenNodes, find_filter h.ids]
  change ((nodeAt wf id).filter _).filter _ = _
  rw [hn]
  by_cases htaken : taken anchors n = true
  · by_cases hkind : kind n = .easing <;> simp [Option.filter, htaken, hkind]
  · simp [Option.filter, htaken]

theorem passed_setNode (h : Convertible wf anchors) {n : Node} (hn : n ∈ wf.nodes)
    (hkind : kind n = .setNode) : ∃ inp,
      (n.inputs.find? fun i => (linked wf i).isSome || i.hasWidget) = some inp ∧
        ∃ src, linked wf inp = some src ∧ n.inputs.findSome? (linked wf) = some src := by
  obtain ⟨-, inp, hfind, hlinked⟩ := h.sets n hn hkind
  obtain ⟨src, hsrc⟩ := Option.isSome_iff_exists.mp hlinked
  have hsome := findSome_of_find (g := fun _ (ref : Ref) => ref) hfind hsrc
  simp only [Option.map_id'] at hsome
  exact ⟨inp, hfind, src, hsrc, hsome⟩

theorem taken_setNode (h : Convertible wf anchors) {n : Node} (hn : n ∈ wf.nodes)
    (hkind : kind n = .setNode) : taken anchors n = true := by
  obtain ⟨hmode, htype⟩ := kind_setNode_iff.mp hkind
  exact taken_of_type h hn hmode (by simp [htype])

/-- What step 3 notes of a SetNode. -/
theorem sourceOf_setNode (h : Convertible wf anchors) (hs : Sound wf anchors) {n : Node}
    (hn : n ∈ wf.nodes) (hkind : kind n = .setNode) {src : Ref}
    (hsrc : n.inputs.findSome? (linked wf) = some src) :
    sourceOf (pastSecond wf anchors) n =
      some (pastEasing wf (pastBypassed wf src)).items := by
  obtain ⟨inp, hfind, src', hsrc', hsome⟩ := passed_setNode h hn hkind
  obtain rfl := Option.some.inj (hsrc.symm.trans hsome)
  obtain ⟨hmode, htype⟩ := kind_setNode_iff.mp hkind
  have htaken := List.mem_filter.mpr ⟨hn, taken_setNode h hn hkind⟩
  have hhead : (converted wf n).head? = some (inp.name, src.json) := by
    refine head_convertInputs (h.types n hn hmode).2.2 (h.names n hn) (hs n htaken).1 ?_
      (by rw [wire_eq h.links, hsrc'])
    simpa only [wire_eq h.links] using hfind
  have hvalue : (pastSecond wf anchors n).head? =
      some (inp.name, (pastEasing wf (pastBypassed wf src)).json) := by
    rw [pastSecond, head_mapped, pastFirst, head_mapped, hhead, Option.map_some, Option.map_some,
      redirected_bypass, redirected_passthrough h hs]
  rw [sourceOf, if_pos htype, hvalue]
  rfl

def namedRefs (py : Builtins) (wf : Workflow) (anchors : List (String × String)) : RefMap :=
  let graph := graphOf (pastSecond wf anchors) (leftNodes wf anchors)
  update (getResolution py (setMap graph) graph) (setOutputMap graph)

theorem lookup_named (h : Convertible wf anchors) (py : Builtins) {id : String} {n : Node}
    (hn : nodeAt wf id = some n) : (namedRefs py wf anchors).lookup id =
      if taken anchors n = true ∧ kind n ≠ .easing then
        (sourceOf (pastSecond wf anchors) n).or
          (if n.type = "GetNode" then
            let sets := setMap (graphOf (pastSecond wf anchors) (leftNodes wf anchors))
            (sourceNamed sets (withoutTag "Get_" n.shownTitle)).or
              (sourceNamed sets (baseName py (withoutTag "Get_" n.shownTitle)))
          else none)
      else none := by
  have hids : ((leftNodes wf anchors).map (·.id)).Nodup := ids_leftNodes h
  unfold namedRefs
  simp only [setOutputMap_graphOf, getResolution_graphOf]
  rw [lookup_update (keys_entriesOf _ hids), lookup_entriesOf _ hids, lookup_entriesOf _ hids,
    find_leftNodes h hn]
  by_cases hleft : taken anchors n = true ∧ kind n ≠ .easing
  · rw [if_pos hleft, if_pos hleft]
    rfl
  · rw [if_neg hleft, if_neg hleft]
    rfl

theorem sourceNamed_set (h : Convertible wf anchors) (hs : Sound wf anchors) {s : Node}
    (hmem : s ∈ wf.nodes) (hkind : kind s = .setNode) {src : Ref}
    (hsrc : s.inputs.findSome? (linked wf) = some src) {name : String}
    (hname : tagged "Set_" s.shownTitle = some name) :
    sourceNamed (setMap (graphOf (pastSecond wf anchors) (leftNodes wf anchors))) name =
      some (pastEasing wf (pastBypassed wf src)).items := by
  have hleft : s ∈ leftNodes wf anchors := by
    obtain ⟨hmode, hhead⟩ := (taken_iff h hmem).mp (taken_setNode h hmem hkind)
    exact (mem_leftNodes h).mpr ⟨⟨hmem, hmode, hhead⟩, by simp [hkind]⟩
  have hinj : ∀ a ∈ leftNodes wf anchors, ∀ b ∈ leftNodes wf anchors, a.type = "SetNode" →
      b.type = "SetNode" → withoutTag "Set_" a.shownTitle = withoutTag "Set_" b.shownTitle →
        a = b := by
    intro a ha b hb hatype hbtype heq
    obtain ⟨⟨hamem, hamode, -⟩, -⟩ := (mem_leftNodes h).mp ha
    obtain ⟨⟨hbmem, hbmode, -⟩, -⟩ := (mem_leftNodes h).mp hb
    have hakind := kind_setNode_iff.mpr ⟨hamode, hatype⟩
    have hbkind := kind_setNode_iff.mpr ⟨hbmode, hbtype⟩
    obtain ⟨aname, haname⟩ := Option.isSome_iff_exists.mp (h.sets a hamem hakind).1
    obtain ⟨bname, hbname⟩ := Option.isSome_iff_exists.mp (h.sets b hbmem hbkind).1
    rw [tagged_some haname, tagged_some hbname] at heq
    have hfour : "Set_".toList.length = 4 := by decide
    exact h.setTitles a hamem b hbmem hakind hbkind
      (tagged_injective hfour haname (heq ▸ hbname))
  have hlookup := lookup_setMap ((ids_leftNodes h).of_map _) hinj hleft
    (sourceOf_setNode h hs hmem hkind hsrc)
  rw [tagged_some hname] at hlookup
  unfold sourceNamed
  rw [hlookup]
  rfl

/-- On a way, the last pass leads to the source of the SetNode. -/
theorem redirected_named (h : Convertible wf anchors) (hs : Sound wf anchors) (py : Builtins)
    {ref e : Ref} {trace : List Kind} (hway : Way wf ref trace e) :
    redirected (namedRefs py wf anchors) ref.json = (pastNamed wf ref).json := by
  refine redirected_json ?_
  have hat : ∃ n, nodeAt wf ref.1 = some n ∧
      (kind n = .setNode ∨ kind n = .getNode → ∃ next, passed wf n = some next) := by
    cases hway with
    | here hn hkept => exact ⟨_, hn, by simp [hkept]⟩
    | through hn hpassed _ => exact ⟨_, hn, fun _ => ⟨_, hpassed⟩⟩
  obtain ⟨n, hn, hnext⟩ := hat
  obtain ⟨hmem, -⟩ := mem_of_nodeAt hn
  rw [lookup_named h py hn, hn, Option.bind_some]
  by_cases hset : kind n = .setNode
  · obtain ⟨-, -, src, -, hsrc⟩ := passed_setNode h hmem hset
    have hpassed : passed wf n = some src := by
      unfold passed
      rw [hset]
      exact hsrc
    rw [if_pos ⟨taken_setNode h hmem hset, by simp [hset]⟩, sourceOf_setNode h hs hmem hset hsrc,
      Option.some_or, if_pos (Or.inl hset), hpassed]
    rfl
  · have hsource : ∀ d, n.mode = 0 → sourceOf d n = none := fun d hmode =>
      if_neg fun htype => hset (kind_setNode_iff.mpr ⟨hmode, htype⟩)
    by_cases hget : kind n = .getNode
    · obtain ⟨hmode, htype⟩ := kind_getNode_iff.mp hget
      obtain ⟨next, hpassed⟩ := hnext (.inr hget)
      have hnamed : ∃ name s, tagged "Get_" n.shownTitle = some name ∧ s ∈ wf.nodes ∧
          kind s = .setNode ∧ tagged "Set_" s.shownTitle = some name ∧
            s.inputs.findSome? (linked wf) = some next := by
        unfold passed at hpassed
        rw [hget] at hpassed
        obtain ⟨s, hs', hsrc⟩ := Option.bind_eq_some_iff.mp hpassed
        obtain ⟨name, hname, hfind⟩ := Option.bind_eq_some_iff.mp hs'
        have hprop : kind s = .setNode ∧ tagged "Set_" s.shownTitle = some name := by
          simpa using List.find?_some hfind
        exact ⟨name, s, hname, List.mem_of_find?_eq_some hfind, hprop.1, hprop.2, hsrc⟩
      obtain ⟨name, s, hname, hsmem, hskind, hsname, hsrc⟩ := hnamed
      rw [if_pos ⟨taken_of_type h hmem hmode (by simp [htype]), by simp [hget]⟩, hsource _ hmode,
        if_pos htype, tagged_some hname, if_pos (Or.inr hget), hpassed]
      simp only [sourceNamed_set h hs hsmem hskind hsrc hsname]
      rfl
    · rw [if_neg (not_or.mpr ⟨hset, hget⟩)]
      split_ifs with hleft htype
      · have hmode := ((taken_iff h hmem).mp hleft.1).1
        exact absurd (kind_getNode_iff.mpr ⟨hmode, htype⟩) hget
      · rw [hsource _ ((taken_iff h hmem).mp hleft.1).1]
        rfl
      · rfl

/-! ## The output -/

/-- The nodes of the output. -/
def keptNodes (wf : Workflow) (anchors : List (String × String)) : List Node :=
  (leftNodes wf anchors).filter fun n => !(n.type = "SetNode" || n.type = "GetNode")

def outputValues (py : Builtins) (wf : Workflow) (anchors : List (String × String)) :
    Node → List (String × Json) :=
  mapped (normalizeSlashes ∘ redirected (namedRefs py wf anchors)) (pastSecond wf anchors)

theorem plain_graphOf {d : Node → List (String × Json)} {nodes : List Node}
    (hd : ∀ n ∈ nodes, ∀ i ∈ d n, plainValue i.2 = true) : Plain (graphOf d nodes) := by
  intro e he
  obtain ⟨n, hn, rfl⟩ := List.mem_map.mp he
  exact hd n hn

theorem convert_eq (h : Convertible wf anchors) (hs : Sound wf anchors) (py : Builtins) :
    convert py anchors wf =
      .ok (graphOf (outputValues py wf anchors) (keptNodes wf anchors)) := by
  have hplain : Plain (graphOf (converted wf) (takenNodes wf anchors)) :=
    plain_graphOf fun n hn => (hs n hn).2
  have hfirst : Plain (graphOf (pastFirst wf) (takenNodes wf anchors)) := by
    have hmap := hplain.mapValues fun value => plain_redirected (@plainRefs_bypass wf)
    rwa [mapValues_graphOf] at hmap
  have hsecond : Plain (graphOf (pastSecond wf anchors) (leftNodes wf anchors)) := by
    have hmap := hfirst.mapValues fun value => plain_redirected (plainRefs_passthrough h hs)
    rw [mapValues_graphOf] at hmap
    have hleft := hmap.filter fun e => e.1 ∉ (passthroughRefs wf anchors).map (·.1)
    exact withoutIds_passthrough h hs (pastSecond wf anchors) ▸ hleft
  have htypes : ∀ e ∈ graphOf (pastSecond wf anchors) (leftNodes wf anchors),
      e.2.classType ≠ floatToInt := by
    intro e he
    obtain ⟨n, hn, rfl⟩ := List.mem_map.mp he
    obtain ⟨⟨hmem, hmode, -⟩, -⟩ := (mem_leftNodes h).mp hn
    exact (h.types n hmem hmode).2.1
  have hkept : (graphOf (pastSecond wf anchors) (leftNodes wf anchors)).filter
      (fun e => !isNamed e.2) = graphOf (pastSecond wf anchors) (keptNodes wf anchors) := by
    unfold graphOf keptNodes
    rw [List.filter_map]
    rfl
  have htitles : ∀ e ∈ graphOf (mapped (redirected (namedRefs py wf anchors))
      (pastSecond wf anchors)) (keptNodes wf anchors), startsWith "%" e.2.title = false := by
    intro e he
    obtain ⟨n, hn, rfl⟩ := List.mem_map.mp he
    obtain ⟨⟨hmem, hmode, -⟩, -⟩ := (mem_leftNodes h).mp (List.mem_filter.mp hn).1
    exact h.titles n hmem hmode
  unfold convert
  dsimp only
  rw [buildGraph_eq h fun n hn => (hs n hn).1, ok_bind]
  unfold resolveVirtualNodes
  change applyRefMap (bypassRefs wf) _ >>= _ = _
  rw [applyRefMap_eq _ hplain, ok_bind, mapValues_graphOf]
  change applyRefMap (passthroughRefs wf anchors) (graphOf (pastFirst wf) _) >>= _ = _
  rw [applyRefMap_eq _ hfirst, ok_bind, mapValues_graphOf]
  change replaceFloats py wf.nodes (withoutIds ((passthroughRefs wf anchors).map (·.1))
    (graphOf (pastSecond wf anchors) _)) >>= _ = _
  rw [withoutIds_passthrough h hs, replaceFloats_eq py _ htypes, ok_bind, inlineNamed_eq py hsecond,
    ok_bind, hkept, mapValues_graphOf]
  change Except.ok (mapValues normalizeSlashes (redirectVae
    (graphOf (mapped (redirected (namedRefs py wf anchors)) (pastSecond wf anchors)) _))) = _
  rw [redirectVae_eq htitles, mapValues_graphOf, mapped_mapped]
  rfl

theorem sound_of_convert (h : Convertible wf anchors) {py : Builtins} {out : ApiGraph}
    (hout : convert py anchors wf = .ok out) : Sound wf anchors := by
  unfold convert at hout
  obtain ⟨graph, hgraph, hresolve⟩ := bind_ok hout
  have hconv : ∀ n ∈ takenNodes wf anchors,
      convertInputs (buildLinkMap wf.links) n = .ok (converted wf n) := by
    intro n hn
    obtain ⟨hmem, htaken⟩ := List.mem_filter.mp hn
    obtain ⟨d, hd⟩ := converts_of_build hgraph n hmem htaken
    unfold converted
    rw [hd]
    rfl
  obtain ⟨graph', hfirst, -⟩ := bind_ok hresolve
  have hplain := plain_of_applyRefMap hfirst
  obtain rfl := Except.ok.inj (hgraph.symm.trans (buildGraph_eq h hconv))
  exact fun n hn => ⟨hconv n hn, hplain _ (List.mem_map_of_mem hn)⟩

theorem kind_kept_iff {n : Node} : kind n = .kept ↔ n.mode = 0 ∧ n.type ≠ "Sigmas Easing" ∧
    n.type ≠ "SetNode" ∧ n.type ≠ "GetNode" := by
  by_cases hmode : n.mode = 0
  · rw [kind_of_type hmode]
    split_ifs <;> simp_all
  · simp [kind_bypassed hmode, hmode]

theorem mem_keptNodes (h : Convertible wf anchors) {n : Node} : n ∈ keptNodes wf anchors ↔
    n ∈ wf.nodes ∧ kind n = .kept ∧ startsWith "42242" n.type = false := by
  unfold keptNodes
  rw [List.mem_filter, mem_leftNodes h, kind_kept_iff, ne_eq, kind_easing_iff]
  simp only [Bool.not_eq_true', Bool.or_eq_false_iff, decide_eq_false_iff_not]
  tauto

theorem kept_of_skipped {n : Node} (hmode : n.mode = 0)
    (hskip : startsWith "42242" n.type = true) : kind n = .kept := by
  have hhead : startsWith "42242" "Sigmas Easing" = false ∧ startsWith "42242" "SetNode" = false ∧
      startsWith "42242" "GetNode" = false := by decide
  refine kind_kept_iff.mpr ⟨hmode, ?_, ?_, ?_⟩ <;> intro htype <;> rw [htype] at hskip
  · exact Bool.noConfusion (hskip.symm.trans hhead.1)
  · exact Bool.noConfusion (hskip.symm.trans hhead.2.1)
  · exact Bool.noConfusion (hskip.symm.trans hhead.2.2)

theorem way_pastEasing (h : Convertible wf anchors) {ref e : Ref} {trace : List Kind}
    (hway : Way wf ref trace e) : ∃ rest, Way wf (pastEasing wf ref) rest e := by
  cases hway with
  | here hn hkept =>
    rw [pastEasing_other hn (by simp [hkept])]
    exact ⟨_, .here hn hkept⟩
  | @through _ _ _ n _ hn hpassed hnext =>
    by_cases heasing : kind n = .easing
    · rw [pastEasing_easing hn heasing hpassed]
      obtain ⟨-, rest, -, hrest, -⟩ := way_pastBypassed h hnext
      exact ⟨rest, hrest⟩
    · rw [pastEasing_other hn heasing]
      exact ⟨_, .through hn hpassed hnext⟩

/-- What an input with a way behind it holds in the end. -/
theorem lookup_output (h : Convertible wf anchors) (hs : Sound wf anchors) (py : Builtins)
    {n : Node} (hn : n ∈ keptNodes wf anchors) {inp : Input} (hinp : inp ∈ n.inputs) {src : Ref}
    (hsrc : linked wf inp = some src) {trace : List Kind} {e : Ref} (hway : Way wf src trace e) :
    (outputValues py wf anchors n).lookup inp.name =
      some (pastNamed wf (pastEasing wf (pastBypassed wf src))).json := by
  have htaken : n ∈ takenNodes wf anchors := by
    obtain ⟨hmem, hkind, hhead⟩ := (mem_keptNodes h).mp hn
    exact (mem_takenNodes h).mpr ⟨hmem, (kind_kept_iff.mp hkind).1, hhead⟩
  obtain ⟨-, rest, -, hrest, -⟩ := way_pastBypassed h hway
  obtain ⟨rest', hrest'⟩ := way_pastEasing h hrest
  rw [outputValues, lookup_mapped, pastSecond, lookup_mapped, pastFirst, lookup_mapped,
    lookup_converted h hs htaken hinp hsrc, Option.map_some, Option.map_some, Option.map_some,
    redirected_bypass, redirected_passthrough h hs, Function.comp,
    redirected_named h hs py hrest']
  rfl

theorem lookup_graphOf (h : Convertible wf anchors) (d : Node → List (String × Json)) {n : Node}
    (hn : n ∈ keptNodes wf anchors) : (graphOf d (keptNodes wf anchors)).lookup n.id =
      some { classType := n.type, inputs := d n, title := n.shownTitle } := by
  have hids : ((graphOf d (keptNodes wf anchors)).map (·.1)).Nodup := by
    unfold graphOf
    rw [List.map_map]
    exact (List.filter_sublist.map _).nodup (ids_leftNodes h)
  have hin : (n.id, (⟨n.type, d n, n.shownTitle⟩ : ApiNode)) ∈ graphOf d (keptNodes wf anchors) :=
    List.mem_map_of_mem hn
  exact lookup_of_mem hids hin

theorem ids_graphOf (d : Node → List (String × Json)) (nodes : List Node) :
    (graphOf d nodes).map (·.1) = nodes.map (·.id) := by
  unfold graphOf
  rw [List.map_map]
  rfl

theorem json_injective {ref ref' : Ref} (h : ref.json = ref'.json) : ref = ref' := by
  obtain ⟨id, slot⟩ := ref
  obtain ⟨id', slot'⟩ := ref'
  cases h
  rfl

theorem keptNodes_eq (h : Convertible wf anchors)
    (htypes : ∀ n ∈ wf.nodes, n.mode = 0 → startsWith "42242" n.type = false) :
    keptNodes wf anchors = wf.nodes.filter fun n => kind n = .kept := by
  have hmem : ∀ n, n ∈ keptNodes wf anchors ↔ _ := fun n => mem_keptNodes h
  unfold keptNodes leftNodes takenNodes at hmem ⊢
  rw [List.filter_filter, List.filter_filter] at hmem ⊢
  refine List.filter_congr fun n hn => ?_
  have hn' := hmem n
  rw [List.mem_filter] at hn'
  rw [Bool.eq_iff_iff, decide_eq_true_iff]
  constructor
  · exact fun hkeep => (hn'.mp ⟨hn, hkeep⟩).2.1
  · exact fun hkind => (hn'.mpr ⟨hn, hkind, htypes n hn (kind_kept_iff.mp hkind).1⟩).2

end Stages

/-- A conversion preserves the wiring exactly if every way is short, and no node is
skipped or fails. -/
theorem preserves_iff_straight {wf : Workflow} {anchors : List (String × String)}
    (h : Convertible wf anchors) (py : Builtins) :
    Preserves wf py anchors ↔ Straight wf := by
  constructor
  · rintro ⟨out, hout, hids, hwires⟩
    have hs := sound_of_convert h hout
    obtain rfl := Except.ok.inj (hout.symm.trans (convert_eq h hs py))
    rw [ids_graphOf] at hids
    have htypes : ∀ n ∈ wf.nodes, n.mode = 0 → startsWith "42242" n.type = false := by
      intro n hn hmode
      by_contra hskip
      have hkind := kept_of_skipped hmode (by simpa using hskip)
      have hin := hids.symm.subset (List.mem_map_of_mem
        (List.mem_filter.mpr ⟨hn, by simpa using hkind⟩))
      obtain ⟨m, hm, heq⟩ := List.mem_map.mp hin
      obtain ⟨hmem, -, hhead⟩ := (mem_keptNodes h).mp hm
      obtain rfl := List.inj_on_of_nodup_map h.ids hmem hn heq
      exact hskip hhead
    refine ⟨htypes, fun n hn hmode => ?_, fun n hn hkind inp hinp src hsrc => ?_⟩
    · have htaken := (mem_takenNodes h).mpr ⟨hn, hmode, htypes n hn hmode⟩
      exact ⟨_, (hs n htaken).1, (hs n htaken).2⟩
    · have hkept := (mem_keptNodes h).mpr ⟨hn, hkind, htypes n hn (kind_kept_iff.mp hkind).1⟩
      obtain ⟨api, trace, e, hapi, hway, hvalue, -⟩ := hwires n hn hkind inp hinp src hsrc
      rw [lookup_graphOf h _ hkept] at hapi
      obtain rfl := Option.some.inj hapi
      rw [lookup_output h hs py hkept hinp hsrc hway] at hvalue
      have heq := json_injective (Option.some.inj hvalue)
      exact ⟨trace, e, hway, (pastNamed_iff h hway).mp heq⟩
  · intro hstraight
    have hs : Sound wf anchors := by
      intro n hn
      obtain ⟨hmem, hmode, -⟩ := (mem_takenNodes h).mp hn
      obtain ⟨d, hd, hvalues⟩ := hstraight.values n hmem hmode
      have hconv : converted wf n = d := by
        unfold converted
        rw [hd]
        rfl
      rw [hconv]
      exact ⟨hd, hvalues⟩
    refine ⟨_, convert_eq h hs py, ?_, fun n hn hkind inp hinp src hsrc => ?_⟩
    · rw [ids_graphOf, keptNodes_eq h hstraight.types]
    · have hkept := (mem_keptNodes h).mpr
        ⟨hn, hkind, hstraight.types n hn (kind_kept_iff.mp hkind).1⟩
      obtain ⟨trace, e, hway, hshort⟩ := hstraight.ways n hn hkind inp hinp src hsrc
      refine ⟨_, trace, e, lookup_graphOf h _ hkept, hway, ?_, ?_⟩
      · rw [lookup_output h hs py hkept hinp hsrc hway, (pastNamed_iff h hway).mpr hshort]
      · obtain ⟨m, hm, hmkind⟩ := hway.last
        obtain ⟨hmem, hid⟩ := mem_of_nodeAt hm
        rw [ids_graphOf, ← hid]
        exact List.mem_map_of_mem ((mem_keptNodes h).mpr
          ⟨hmem, hmkind, hstraight.types m hmem (kind_kept_iff.mp hmkind).1⟩)

/-! ## Where ways end -/

/-- Links and names lead back to nodes of lower rank, and none leads nowhere. -/
structure Grounded (wf : Workflow) (rank : String → ℕ) : Prop where
  sources : ∀ n ∈ wf.nodes, ∀ inp ∈ n.inputs, ∀ src, linked wf inp = some src →
    rank src.1 < rank n.id ∧ ∃ m, nodeAt wf src.1 = some m ∧
      (kind m = .bypassed → ∃ next, m.inputs.head?.bind (linked wf) = some next)
  names : ∀ n ∈ wf.nodes, kind n = .getNode →
    ∃ s, namedSet wf n = some s ∧ rank s.id < rank n.id

theorem exists_way {wf : Workflow} {anchors : List (String × String)} {rank : String → ℕ}
    (h : Convertible wf anchors) (hg : Grounded wf rank) {n : Node} (hn : n ∈ wf.nodes)
    {inp : Input} (hinp : inp ∈ n.inputs) {src : Ref} (hsrc : linked wf inp = some src) :
    ∃ trace e, Way wf src trace e := by
  generalize hr : rank src.1 = r
  induction r using Nat.strongRecOn generalizing n inp src with
  | ind r ih =>
    subst hr
    obtain ⟨-, m, hm, hbypassed⟩ := hg.sources n hn inp hinp src hsrc
    obtain ⟨hmem, hid⟩ := mem_of_nodeAt hm
    have hnext : ∀ (k : Node) (i : Input) (next : Ref), k ∈ wf.nodes → rank k.id ≤ rank m.id →
        i ∈ k.inputs → linked wf i = some next → passed wf m = some next →
          ∃ trace e, Way wf src trace e := by
      intro k i next hk hle hi hlink hpassed
      have hlt := (hg.sources k hk i hi next hlink).1
      rw [hid] at hle
      obtain ⟨trace, e, hway⟩ := ih (rank next.1) (by omega) hk hi hlink rfl
      exact ⟨kind m :: trace, e, .through hm hpassed hway⟩
    have hset : ∀ s ∈ wf.nodes, kind s = .setNode → rank s.id ≤ rank m.id →
        (s.inputs.findSome? (linked wf) = passed wf m) → ∃ trace e, Way wf src trace e := by
      intro s hs hkind hle hpassed
      obtain ⟨i, hfind, next, hlink, hsome⟩ := passed_setNode h hs hkind
      exact hnext s i next hs hle (List.mem_of_find?_eq_some hfind) hlink
        (hpassed.symm.trans hsome)
    cases hkind : kind m with
    | bypassed =>
      obtain ⟨next, hhead⟩ := hbypassed hkind
      obtain ⟨i, hi, hlink⟩ := Option.bind_eq_some_iff.mp hhead
      have hpassed : passed wf m = some next := by
        unfold passed
        rw [hkind]
        exact hhead
      exact hnext m i next hmem (Nat.le_refl _) (List.mem_of_head? hi) hlink hpassed
    | easing =>
      obtain ⟨i, hi, -, next, hlink, hpassed⟩ := passed_easing h hmem hkind
      exact hnext m i next hmem (Nat.le_refl _) hi hlink hpassed
    | setNode =>
      refine hset m hmem hkind (Nat.le_refl _) ?_
      unfold passed
      rw [hkind]
    | getNode =>
      obtain ⟨s, hs, hlt⟩ := hg.names m hmem hkind
      obtain ⟨name, hname, hfind⟩ := Option.bind_eq_some_iff.mp hs
      have hskind : kind s = .setNode ∧ tagged "Set_" s.shownTitle = some name := by
        simpa using List.find?_some hfind
      refine hset s (List.mem_of_find?_eq_some hfind) hskind.1 (by omega) ?_
      unfold passed
      rw [hkind]
      simp only [hs, Option.bind_some]
    | kept => exact ⟨[], src, .here hm hkind⟩

/-! ## Examples -/

def namedSource : Node :=
  ⟨"2", "SetNode", some "Set_sigmas", 0, [⟨"SIGMAS", some 10, false⟩], .list [.str "sigmas"]⟩

/-- A sampler behind a GetNode and its SetNode. -/
def namedWorkflow : Workflow where
  links := [⟨10, "1", 0⟩, ⟨11, "3", 0⟩]
  nodes := [⟨"1", "BasicScheduler", none, 0, [], .list []⟩, namedSource,
    ⟨"3", "GetNode", some "Get_sigmas", 0, [], .list [.str "sigmas"]⟩,
    ⟨"4", "SamplerCustom", none, 0, [⟨"sigmas", some 11, false⟩], .list []⟩]

theorem only_named : ∀ n ∈ namedWorkflow.nodes, kind n = .setNode → n.id = "2" := by decide

theorem convertible_named : Convertible namedWorkflow [] where
  ids := by decide
  names := by decide
  links := by decide
  easings := by decide
  sets := by
    intro n hn hkind
    have hsecond : n = namedSource := List.inj_on_of_nodup_map (f := Node.id) (by decide) hn
      (by simp [namedWorkflow]) (only_named n hn hkind)
    rw [hsecond]
    exact ⟨by decide, ⟨"SIGMAS", some 10, false⟩, rfl, by decide⟩
  setTitles := by
    intro a ha b hb hka hkb _
    exact List.inj_on_of_nodup_map (f := Node.id) (by decide) ha hb
      ((only_named a ha hka).trans (only_named b hb hkb).symm)
  types := by decide
  titles := by decide
  unanchored := by decide

/-- Two Sigmas Easing nodes, one behind the other. -/
def easedWorkflow : Workflow where
  links := [⟨10, "1", 0⟩, ⟨11, "2", 0⟩, ⟨12, "3", 0⟩]
  nodes := [⟨"1", "BasicScheduler", none, 0, [], .list []⟩,
    ⟨"2", "Sigmas Easing", none, 0, [⟨"sigmas", some 10, false⟩], .list []⟩,
    ⟨"3", "Sigmas Easing", none, 0, [⟨"sigmas", some 11, false⟩], .list []⟩,
    ⟨"4", "SamplerCustom", none, 0, [⟨"sigmas", some 12, false⟩], .list []⟩]

theorem convertible_eased : Convertible easedWorkflow [] where
  ids := by decide
  names := by decide
  links := by decide
  easings := by decide
  sets := by
    intro n hn hkind
    have hnone : ∀ m ∈ easedWorkflow.nodes, kind m ≠ .setNode := by decide
    exact absurd hkind (hnone n hn)
  setTitles := by
    intro a ha b _ hka
    have hnone : ∀ m ∈ easedWorkflow.nodes, kind m ≠ .setNode := by decide
    exact absurd hka (hnone a ha)
  types := by decide
  titles := by decide
  unanchored := by decide

theorem named_is_preserved : Preserves namedWorkflow graph.asciiBuiltins [] := by
  refine (preserves_iff_straight convertible_named graph.asciiBuiltins).mpr ⟨by decide, ?_, ?_⟩
  · intro n hn _
    simp only [namedWorkflow, List.mem_cons, List.not_mem_nil, or_false] at hn
    obtain rfl | rfl | rfl | rfl := hn <;> exact ⟨_, rfl, by decide⟩
  · intro n hn hkind inp hinp src hsrc
    simp only [namedWorkflow, List.mem_cons, List.not_mem_nil, or_false] at hn
    obtain rfl | rfl | rfl | rfl := hn
    · cases hinp
    · exact absurd hkind (by decide)
    · exact absurd hkind (by decide)
    · obtain rfl := List.mem_singleton.mp hinp
      cases hsrc
      -- The GetNode leads to the source of its SetNode, which is kept.
      exact ⟨_, ("1", 0), .through rfl rfl (.here rfl rfl),
        .inr ⟨[], .getNode, [], .inr rfl, .inl rfl, .inl rfl, rfl⟩⟩

theorem convert_eased : convert graph.asciiBuiltins [] easedWorkflow =
    .ok [("1", ⟨"BasicScheduler", [], "BasicScheduler"⟩),
      ("4", ⟨"SamplerCustom", [("sigmas", .arr [.str "2", .int 0])], "SamplerCustom"⟩)] := by
  rfl

/-- The sampler is left with a reference to a node that is gone. -/
theorem a_chain_of_easings_dangles :
    Convertible easedWorkflow [] ∧ (∃ rank, Grounded easedWorkflow rank) ∧
      ¬ Preserves easedWorkflow graph.asciiBuiltins [] := by
  refine ⟨convertible_eased, ⟨fun id => (id.toList.head?.getD '0').toNat, ?_, ?_⟩, ?_⟩
  · intro n hn inp hinp src hsrc
    simp only [easedWorkflow, List.mem_cons, List.not_mem_nil, or_false] at hn
    obtain rfl | rfl | rfl | rfl := hn
    · cases hinp
    all_goals
      obtain rfl := List.mem_singleton.mp hinp
      cases hsrc
      exact ⟨by decide, _, rfl, fun hbypassed => absurd hbypassed (by decide)⟩
  · intro n hn hget
    have hnone : ∀ m ∈ easedWorkflow.nodes, kind m ≠ .getNode := by decide
    exact absurd hget (hnone n hn)
  · rintro ⟨out, hout, -, hwires⟩
    obtain rfl := Except.ok.inj (hout.symm.trans convert_eased)
    obtain ⟨api, trace, e, hapi, -, hvalue, hin⟩ := hwires
      ⟨"4", "SamplerCustom", none, 0, [⟨"sigmas", some 12, false⟩], .list []⟩
      (by simp [easedWorkflow]) (by decide) ⟨"sigmas", some 12, false⟩ List.mem_cons_self
      ("3", 0) rfl
    cases hapi
    have heq : e = ("2", 0) := json_injective (Option.some.inj hvalue).symm
    rw [heq] at hin
    revert hin
    decide

end image_gen.litegraph_wiring

-- LoRAs in the graph of an image (`inject_loras`): where the chain of loaders is
-- put, which inputs it takes over, and when the graph stays acyclic.
import ImageGen.Detour
import ImageGen.LoraChain

namespace image_gen.lora_rewiring

open Relation image_gen.detour image_gen.graph image_gen.graph_edits image_gen.injectors
  image_gen.json image_gen.lora_chain image_gen.lora_files image_gen.py_dict image_gen.py_str
  image_gen.requests

/-- Builtins whose `isdigit` finds no digit of ASCII but the ten. -/
structure Tables extends Builtins where
  isdigit_ascii : ∀ c : Char, c.toNat < 128 → isdigit c = true → c.isDigit = true

/-! ## Links -/

def fieldsOf : Inputs → Fields
  | .dict fields => fields
  | _ => []

/-- The value is a link to this output of the node. -/
def Refers (id : String) (slot : ℚ) (value : Json) : Prop :=
  ∃ s, slotOf id value = some s ∧ number s = some slot

/-- The node that a value links to. -/
def linkedTo : Json → Option String
  | .arr [.str id, slot] => if (number slot).isSome then some id else none
  | _ => none

def Edge (g : Graph) (a b : String) : Prop :=
  ∃ node, g.lookup a = some node ∧ ∃ f ∈ fieldsOf node.inputs, linkedTo f.2 = some b

abbrev DependsOn (g : Graph) : String → String → Prop := TransGen (Edge g)

/-- The outputs of a node that the inputs of a graph use. -/
def usedSlots (g : Graph) (id : String) : List Json :=
  g.flatMap fun e => (fieldsOf e.2.inputs).filterMap fun f =>
    (slotOf id f.2).filter fun s => (number s).isSome

/-- Exactly one node declares the anchor. -/
def DeclaredBy (g : Graph) (anchor id : String) : Prop :=
  (g.filter fun e => e.2.declares anchor).map (·.1) = [id]

/-- Two independent nodes, each used through a single output, or one node that
is used through both of its first outputs. -/
def Apart (g : Graph) (modelId : String) (modelSlot : Int) (clipId : String) (clipSlot : Int) :
    Prop :=
  (modelId ≠ clipId ∧ ¬ DependsOn g modelId clipId ∧ ¬ DependsOn g clipId modelId ∧
    (∀ s ∈ usedSlots g modelId, s = .int modelSlot) ∧
    (∀ s ∈ usedSlots g clipId, s = .int clipSlot)) ∨
  (modelId = clipId ∧ modelSlot = 0 ∧ clipSlot = 1 ∧
    .int 0 ∈ usedSlots g modelId ∧ .int 1 ∈ usedSlots g modelId)

/-- The two sources of a graph, with the output of each that it uses. -/
structure Sources (g : Graph) (modelId : String) (modelSlot : Int) (clipId : String)
    (clipSlot : Int) : Prop where
  model : DeclaredBy g "%MODEL_SOURCE%" modelId
  clip : DeclaredBy g "%CLIP_SOURCE%" clipId
  apart : Apart g modelId modelSlot clipId clipSlot

/-! ## The graph afterwards -/

/-- A loader of the LoRA, with its weight for both the model and the clip. -/
def Loads (node : Node) (lora : ResolvedLoraRef) : Prop :=
  node.classType = .str "LoraLoader" ∧ node.inputs.get "lora_name" = loraFile lora ∧
    node.inputs.get "strength_model" = .float lora.weight ∧
    node.inputs.get "strength_clip" = .float lora.weight

/-- Following an input of that name up from a value, always through the same
output, visits the loaders in this order and ends at the output of the source. -/
def Visits (g : Graph) (key : String) (out : Nat) (sourceId : String) (sourceSlot : ℚ) :
    Json → List (String × ResolvedLoraRef) → Prop
  | value, [] => Refers sourceId sourceSlot value
  | value, (id, lora) :: rest =>
    value = link id out ∧ ∃ node, g.lookup id = some node ∧ Loads node lora ∧
      Visits g key out sourceId sourceSlot (node.inputs.get key) rest

def mapInputs (redirect : Json → Json) (node : Node) : Node :=
  match node.inputs with
  | .dict fields => { node with inputs := .dict (fields.map fun f => (f.1, redirect f.2)) }
  | _ => node

/-- An input of a node of the graph holds the value. -/
def Holds (g : Graph) (value : Json) : Prop :=
  ∃ id node, g.lookup id = some node ∧ ∃ f ∈ fieldsOf node.inputs, f.2 = value

/-- The inputs that used an output of a source lead through the new loaders, the
last LoRA first, and nothing else has changed. -/
structure Rewired (g g' : Graph) (modelId : String) (modelSlot : Int) (clipId : String)
    (clipSlot : Int) (loras : List (String × ResolvedLoraRef)) (redirect : Json → Json) :
    Prop where
  ids : g'.map (·.1) = g.map (·.1) ++ loras.map (·.1)
  nodup : (loras.map (·.1)).Nodup
  fresh : ∀ id ∈ loras.map (·.1), g.lookup id = none
  old : ∀ id node, g.lookup id = some node → g'.lookup id = some (mapInputs redirect node)
  model : ∀ v, Holds g v → Refers modelId modelSlot v →
    Visits g' "model" 0 modelId modelSlot (redirect v) loras.reverse
  clip : ∀ v, Holds g v → Refers clipId clipSlot v →
    Visits g' "clip" 1 clipId clipSlot (redirect v) loras.reverse
  frame : ∀ v, Holds g v → ¬ Refers modelId modelSlot v → ¬ Refers clipId clipSlot v → redirect v = v
  anchors : ∀ anchor, findAnchor g' anchor = findAnchor g anchor

/-! ## The new nodes -/

def loraNodes (next : Nat) (model clip : Json) : List ResolvedLoraRef → Graph
  | [] => []
  | lora :: rest =>
    (toString next, loraNode lora model clip) ::
      loraNodes (next + 1) (link (toString next) 0) (link (toString next) 1) rest

/-- The LoRAs with the ids of their nodes. -/
def numbered : Nat → List ResolvedLoraRef → List (String × ResolvedLoraRef)
  | _, [] => []
  | next, lora :: rest => (toString next, lora) :: numbered (next + 1) rest

/-- The links that the last of the new nodes provides. -/
def ends (next : Nat) (model clip : Json) : List ResolvedLoraRef → Json × Json
  | [] => (model, clip)
  | _ :: rest => ends (next + 1) (link (toString next) 0) (link (toString next) 1) rest

theorem ids_loraNodes (next : Nat) (model clip : Json) (loras : List ResolvedLoraRef) :
    (loraNodes next model clip loras).map (·.1) = (numbered next loras).map (·.1) := by
  induction loras generalizing next model clip with
  | nil => rfl
  | cons lora rest ih => simp only [loraNodes, numbered, List.map_cons, ih]

theorem mem_numbered {next : Nat} {loras : List ResolvedLoraRef} {id : String} :
    id ∈ (numbered next loras).map (·.1) ↔
      ∃ k, next ≤ k ∧ k < next + loras.length ∧ id = toString k := by
  induction loras generalizing next with
  | nil =>
    simp only [numbered, List.map_nil, List.not_mem_nil, List.length_nil, false_iff, not_exists]
    omega
  | cons lora rest ih =>
    simp only [numbered, List.map_cons, List.mem_cons, ih, List.length_cons]
    constructor
    · rintro (rfl | ⟨k, h1, h2, rfl⟩)
      · exact ⟨next, by omega, by omega, rfl⟩
      · exact ⟨k, by omega, by omega, rfl⟩
    · rintro ⟨k, h1, h2, rfl⟩
      by_cases hk : k = next
      · exact Or.inl (by rw [hk])
      · exact Or.inr ⟨k, by omega, by omega, rfl⟩

theorem nodup_numbered (next : Nat) (loras : List ResolvedLoraRef) :
    ((numbered next loras).map (·.1)).Nodup := by
  induction loras generalizing next with
  | nil => simp [numbered]
  | cons lora rest ih =>
    rw [numbered, List.map_cons, List.nodup_cons]
    refine ⟨fun hmem => ?_, ih _⟩
    obtain ⟨k, hk, -, heq⟩ := mem_numbered.mp hmem
    exact toString_ne (by omega) heq

theorem chainLoras_eq {g : Graph} {next : Nat}
    (hfresh : ∀ k, next ≤ k → g.lookup (toString k) = none) (model clip : Json)
    (loras : List ResolvedLoraRef) :
    chainLoras g next model clip loras =
      (g ++ loraNodes next model clip loras, (numbered next loras).map (·.1)) := by
  induction loras generalizing g next model clip with
  | nil => simp [chainLoras, loraNodes, numbered]
  | cons lora rest ih =>
    have hfresh1 : ∀ k, next + 1 ≤ k →
        (insertNode g (toString next) (loraNode lora model clip)).lookup (toString k) = none := by
      intro k hk
      rw [insertNode, lookup_set_ne _ _ (toString_ne (by omega)), hfresh k (by omega)]
    rw [chainLoras, ih hfresh1, insertNode, set_of_lookup_none (hfresh next (by omega))]
    simp [loraNodes, numbered]

/-- The last id, where there is one, is that of the node that provides the ends. -/
theorem ends_cons (next : Nat) (model clip : Json) (lora : ResolvedLoraRef)
    (rest : List ResolvedLoraRef) :
    ∃ last, ((numbered next (lora :: rest)).map (·.1)).getLastD "" = last ∧
      last ∈ (numbered next (lora :: rest)).map (·.1) ∧
      ends next model clip (lora :: rest) = (link last 0, link last 1) := by
  induction rest generalizing next model clip lora with
  | nil => exact ⟨toString next, rfl, by simp [numbered], rfl⟩
  | cons lora' rest ih =>
    obtain ⟨last, hlast, hmem, hends⟩ :=
      ih (next + 1) (link (toString next) 0) (link (toString next) 1) lora'
    refine ⟨last, ?_, ?_, ?_⟩
    · simpa [numbered] using hlast
    · rw [numbered, List.map_cons]
      exact List.mem_cons_of_mem _ hmem
    · rw [ends, hends]

/-- The graph has the new nodes. -/
def Chain (g : Graph) (next : Nat) (model clip : Json) (loras : List ResolvedLoraRef) : Prop :=
  ∀ e ∈ loraNodes next model clip loras, g.lookup e.1 = some e.2

/-! ## Walks along the new nodes -/

theorem mem_of_get {inputs : Inputs} {key : String} (h : inputs.get key ≠ .null) :
    ∃ f ∈ fieldsOf inputs, f.2 = inputs.get key := by
  cases inputs with
  | dict fields =>
    simp only [Inputs.get, Json.get] at h ⊢
    cases hf : fields.lookup key with
    | none => simp [hf] at h
    | some v => exact ⟨(key, v), mem_of_lookup_eq hf, rfl⟩
  | absent => exact absurd rfl h
  | other _ => exact absurd rfl h

theorem linkedTo_link (id : String) (slot : Nat) : linkedTo (link id slot) = some id := rfl

theorem Refers.linkedTo {id : String} {slot : ℚ} {value : Json} (h : Refers id slot value) :
    linkedTo value = some id := by
  obtain ⟨s, hslot, hs⟩ := h
  unfold slotOf at hslot
  split at hslot
  · rename_i id' s'
    split at hslot
    · rename_i hid
      cases hslot
      simp [lora_rewiring.linkedTo, hs, hid]
    · cases hslot
  · cases hslot

theorem loads_loraNode (lora : ResolvedLoraRef) (model clip : Json) :
    Loads (loraNode lora model clip) lora := ⟨rfl, rfl, rfl, rfl⟩

section Walk

variable {g : Graph} {key : String} {out : Nat}

/-- A walk from the last of the new nodes visits them all, and goes on from where
the first one leads. -/
theorem visits_chain (key : String) (pick : Json → Json → Json)
    (hget : ∀ lora model clip, (loraNode lora model clip).inputs.get key = pick model clip)
    (hlink : ∀ id, pick (link id 0) (link id 1) = link id out) {sourceId : String}
    {sourceSlot : ℚ} {next : Nat} {model clip : Json} {loras : List ResolvedLoraRef}
    (hc : Chain g next model clip loras) (below : List (String × ResolvedLoraRef))
    (hv : Visits g key out sourceId sourceSlot (pick model clip) below) :
    Visits g key out sourceId sourceSlot
      (pick (ends next model clip loras).1 (ends next model clip loras).2)
      ((numbered next loras).reverse ++ below) := by
  induction loras generalizing next model clip below with
  | nil => exact hv
  | cons lora rest ih =>
    have hnode : g.lookup (toString next) = some (loraNode lora model clip) :=
      hc (toString next, loraNode lora model clip) List.mem_cons_self
    have hrest : Chain g (next + 1) (link (toString next) 0) (link (toString next) 1) rest :=
      fun e he => hc e (List.mem_cons_of_mem _ he)
    have hstep : Visits g key out sourceId sourceSlot
        (pick (link (toString next) 0) (link (toString next) 1))
        ((toString next, lora) :: below) := by
      refine ⟨hlink _, _, hnode, loads_loraNode lora model clip, ?_⟩
      rw [hget]
      exact hv
    have htail := ih hrest _ hstep
    rw [numbered, List.reverse_cons, List.append_assoc]
    exact htail

/-- Every node that a walk visits depends on the source. -/
theorem Visits.dependsOn {sourceId : String} {sourceSlot : ℚ} {value : Json}
    {visited : List (String × ResolvedLoraRef)}
    (hv : Visits g key out sourceId sourceSlot value visited) :
    linkedTo value ≠ none ∧ ∀ e ∈ visited, DependsOn g e.1 sourceId := by
  induction visited generalizing value with
  | nil =>
    rw [Refers.linkedTo hv]
    simp
  | cons e rest ih =>
    obtain ⟨id, lora⟩ := e
    obtain ⟨rfl, node, hnode, -, hup⟩ := hv
    obtain ⟨hne, hrest⟩ := ih hup
    refine ⟨by simp [linkedTo_link], fun e he => ?_⟩
    rcases List.mem_cons.mp he with rfl | hin
    · have hnull : node.inputs.get key ≠ .null := by
        intro hnull
        rw [hnull] at hne
        exact hne rfl
      obtain ⟨f, hf, hfv⟩ := mem_of_get hnull
      have hedge : ∀ b, linkedTo (node.inputs.get key) = some b → Edge g id b :=
        fun b hb => ⟨node, hnode, f, hf, by rw [hfv, hb]⟩
      cases rest with
      | nil => exact .single (hedge _ (Refers.linkedTo hup))
      | cons e' rest =>
        have hlink : node.inputs.get key = link e'.1 out := hup.1
        have hto : Edge g id e'.1 := hedge _ (by rw [hlink, linkedTo_link])
        exact .head hto (hrest e' List.mem_cons_self)
    · exact hrest e hin

end Walk

/-- A new node leads to lower ones, and to where the chain starts. -/
theorem edge_chain {g : Graph} {next : Nat} {model clip : Json} {loras : List ResolvedLoraRef}
    (hc : Chain g next model clip loras) {k : Nat} (h1 : next ≤ k) (h2 : k < next + loras.length)
    {b : String} (hb : Edge g (toString k) b) :
    (∃ j, next ≤ j ∧ j < k ∧ b = toString j) ∨
      linkedTo model = some b ∨ linkedTo clip = some b := by
  induction loras generalizing next model clip with
  | nil =>
    simp only [List.length_nil] at h2
    omega
  | cons lora rest ih =>
    simp only [List.length_cons] at h2
    by_cases hk : k = next
    · subst hk
      have hnode : g.lookup (toString k) = some (loraNode lora model clip) :=
        hc (toString k, loraNode lora model clip) List.mem_cons_self
      obtain ⟨node, hlookup, f, hf, hto⟩ := hb
      rw [hnode, Option.some.injEq] at hlookup
      subst hlookup
      simp only [loraNode, fieldsOf, List.mem_cons, List.not_mem_nil, or_false] at hf
      rcases hf with rfl | rfl | rfl | rfl | rfl
      · cases hto
      · cases hto
      · cases hto
      · exact Or.inr (Or.inl hto)
      · exact Or.inr (Or.inr hto)
    · have hrest : Chain g (next + 1) (link (toString next) 0) (link (toString next) 1) rest :=
        fun e he => hc e (List.mem_cons_of_mem _ he)
      have hself : ∀ slot, linkedTo (link (toString next) slot) = some b → b = toString next := by
        intro slot h
        rw [linkedTo_link] at h
        exact (Option.some.inj h).symm
      rcases ih hrest (by omega) (by omega) with ⟨j, hj1, hj2, rfl⟩ | h | h
      · exact Or.inl ⟨j, by omega, hj2, rfl⟩
      · exact Or.inl ⟨next, by omega, by omega, hself 0 h⟩
      · exact Or.inl ⟨next, by omega, by omega, hself 1 h⟩

/-! ## Slots -/

/-- The slots that `_infer_output_slot` sees. -/
def seenSlots (g : Graph) (id : String) : List Json :=
  g.flatMap fun e =>
    match e.2.inputs with
    | .dict fields => fields.filterMap fun f => (slotOf id f.2).filter isInt
    | _ => []

theorem mem_seenSlots {g : Graph} {id : String} {s : Json} :
    s ∈ seenSlots g id ↔ s ∈ usedSlots g id ∧ isInt s = true := by
  have hint : isInt s = true → (number s).isSome = true := by
    cases s <;> simp [isInt, number]
  unfold seenSlots usedSlots
  simp only [List.mem_flatMap]
  constructor
  · rintro ⟨e, he, hs⟩
    cases hinputs : e.2.inputs with
    | dict fields =>
      simp only [hinputs, List.mem_filterMap, Option.filter_eq_some_iff] at hs
      obtain ⟨f, hf, hslot, hi⟩ := hs
      refine ⟨⟨e, he, ?_⟩, hi⟩
      simp only [hinputs, fieldsOf, List.mem_filterMap, Option.filter_eq_some_iff]
      exact ⟨f, hf, hslot, hint hi⟩
    | absent => simp [hinputs] at hs
    | other _ => simp [hinputs] at hs
  · rintro ⟨⟨e, he, hs⟩, hi⟩
    refine ⟨e, he, ?_⟩
    cases hinputs : e.2.inputs with
    | dict fields =>
      simp only [hinputs, fieldsOf, List.mem_filterMap, Option.filter_eq_some_iff] at hs ⊢
      obtain ⟨f, hf, hslot, -⟩ := hs
      exact ⟨f, hf, hslot, hi⟩
    | absent => simp [hinputs, fieldsOf] at hs
    | other _ => simp [hinputs, fieldsOf] at hs

/-- The slot that the consumers agree on, or the fallback. -/
def agreedSlot (fallback : Nat) : List Json → Json
  | [] => .int fallback
  | slot :: more => if more.all fun s => number s = number slot then slot else .int fallback

theorem inferOutputSlot_eq (g : Graph) (id : String) (fallback : Nat) :
    inferOutputSlot g id fallback = agreedSlot fallback (seenSlots g id) := rfl

/-- A node that is used through one output alone. -/
theorem inferOutputSlot_single {g : Graph} {id : String} {slot : Int}
    (h : ∀ s ∈ usedSlots g id, s = .int slot) (fallback : Nat) {s : Json}
    (hs : s ∈ usedSlots g id) : inferOutputSlot g id fallback = .int slot := by
  have hall : ∀ s ∈ seenSlots g id, s = .int slot := fun s hs => h s (mem_seenSlots.mp hs).1
  have hmem : Json.int slot ∈ seenSlots g id := by
    refine mem_seenSlots.mpr ⟨?_, rfl⟩
    rw [← h s hs]
    exact hs
  rw [inferOutputSlot_eq]
  cases hseen : seenSlots g id with
  | nil =>
    rw [hseen] at hmem
    cases hmem
  | cons first more =>
    rw [hseen] at hall
    have hfirst : first = .int slot := hall first List.mem_cons_self
    have hmore : (more.all fun s => number s = number first) = true := by
      refine List.all_eq_true.mpr fun s hs => ?_
      rw [hall s (List.mem_cons_of_mem _ hs), hfirst]
      exact decide_eq_true rfl
    rw [← hfirst]
    exact if_pos hmore

/-- A node that is used through two outputs. -/
theorem inferOutputSlot_both {g : Graph} {id : String} {a b : Int} (ha : .int a ∈ usedSlots g id)
    (hb : .int b ∈ usedSlots g id) (hab : a ≠ b) (fallback : Nat) :
    inferOutputSlot g id fallback = .int fallback := by
  have hmem : ∀ i, Json.int i ∈ usedSlots g id → Json.int i ∈ seenSlots g id :=
    fun i hi => mem_seenSlots.mpr ⟨hi, rfl⟩
  rw [inferOutputSlot_eq]
  cases hseen : seenSlots g id with
  | nil => rfl
  | cons first more =>
    refine if_neg fun hall => hab ?_
    have hsame : ∀ i, Json.int i ∈ usedSlots g id → number (.int i) = number first := by
      intro i hi
      have hin := hmem i hi
      rw [hseen] at hin
      rcases List.mem_cons.mp hin with heq | htail
      · rw [heq]
      · exact of_decide_eq_true (List.all_eq_true.mp hall _ htail)
    have heq := (hsame a ha).trans (hsame b hb).symm
    simpa [number] using heq

theorem mem_usedSlots {g : Graph} {id : String} {slot : ℚ} {v : Json} (hv : Holds g v)
    (hr : Refers id slot v) :
    ∃ s ∈ usedSlots g id, slotOf id v = some s ∧ number s = some slot := by
  obtain ⟨a, node, hnode, f, hf, rfl⟩ := hv
  obtain ⟨s, hslot, hs⟩ := hr
  refine ⟨s, List.mem_flatMap.mpr ⟨(a, node), mem_of_lookup_eq hnode, ?_⟩, hslot, hs⟩
  exact List.mem_filterMap.mpr ⟨f, hf, by simp [hslot, hs]⟩

/-! ## The two passes -/

/-- What a pass does to a value. -/
def redirectOne (sourceId : String) (sourceSlot newLink value : Json) : Json :=
  match slotOf sourceId value with
  | some slot => if (number slot).isSome ∧ number slot = number sourceSlot then newLink else value
  | none => value

theorem redirectOne_of_refers {id : String} {slot newLink v : Json} {q : ℚ}
    (hslot : number slot = some q) (h : Refers id q v) : redirectOne id slot newLink v = newLink := by
  obtain ⟨s, hs, hq⟩ := h
  simp [redirectOne, hs, hq, hslot]

theorem redirectOne_of_not_refers {id : String} {slot newLink v : Json} {q : ℚ}
    (hslot : number slot = some q) (h : ¬ Refers id q v) : redirectOne id slot newLink v = v := by
  unfold redirectOne
  split
  · rename_i s hs
    refine if_neg ?_
    rintro ⟨-, heq⟩
    exact h ⟨s, hs, by rw [heq, hslot]⟩
  · rfl

theorem redirectOne_of_slotOf {id : String} {slot newLink v : Json} (h : slotOf id v = none) :
    redirectOne id slot newLink v = v := by
  simp [redirectOne, h]

theorem rewriteInputs_eq (g : Graph) (sourceId : String) (sourceSlot newLink : Json)
    (skipIds : List String) :
    rewriteInputs g sourceId sourceSlot newLink skipIds = g.map fun e =>
      (e.1, if e.1 ∈ skipIds then e.2
        else mapInputs (redirectOne sourceId sourceSlot newLink) e.2) := by
  unfold rewriteInputs
  apply List.map_congr_left
  intro e _
  obtain ⟨id, node⟩ := e
  unfold mapInputs
  cases hinputs : node.inputs with
  | dict fields =>
    by_cases hid : id ∈ skipIds
    · simp [hid]
    · simp only [hid, ↓reduceIte]
      rfl
  | absent => simp
  | other _ => simp

/-- A pass over the old nodes and the chain behind them. -/
theorem rewriteInputs_append {g new : Graph} {skipIds : List String}
    (hold : ∀ e ∈ g, e.1 ∉ skipIds) (hnew : ∀ e ∈ new, e.1 ∈ skipIds) (sourceId : String)
    (sourceSlot newLink : Json) :
    rewriteInputs (g ++ new) sourceId sourceSlot newLink skipIds =
      g.map (fun e => (e.1, mapInputs (redirectOne sourceId sourceSlot newLink) e.2)) ++ new := by
  rw [rewriteInputs_eq, List.map_append]
  congr 1
  · apply List.map_congr_left
    intro e he
    rw [if_neg (hold e he)]
  · refine (List.map_congr_left fun e he => ?_).trans (List.map_id new)
    rw [if_pos (hnew e he)]
    rfl

theorem mapInputs_mapInputs (f h : Json → Json) (node : Node) :
    mapInputs h (mapInputs f node) = mapInputs (fun v => h (f v)) node := by
  unfold mapInputs
  cases hinputs : node.inputs <;> simp [Function.comp_def, hinputs]

theorem lookup_mapInputs (f : Json → Json) (g : Graph) (id : String) :
    List.lookup id (g.map fun e => (e.1, mapInputs f e.2)) = (g.lookup id).map (mapInputs f) := by
  induction g with
  | nil => rfl
  | cons e rest ih =>
    obtain ⟨k, node⟩ := e
    by_cases h : id = k
    · subst h
      simp
    · rw [List.map_cons, lookup_cons_ne _ _ h, lookup_cons_ne _ _ h, ih]

theorem fields_mapInputs (f : Json → Json) (node : Node) :
    fieldsOf (mapInputs f node).inputs = (fieldsOf node.inputs).map fun e => (e.1, f e.2) := by
  unfold mapInputs
  cases hinputs : node.inputs <;> simp [fieldsOf, hinputs]

/-! ## Anchors -/

theorem mem_of_mem_splitOn {a c : Char} {s part : List Char} (h : part ∈ s.splitOn a)
    (hc : c ∈ part) : c ∈ s := by
  induction s generalizing part with
  | nil =>
    rw [List.splitOn_nil, List.mem_singleton] at h
    rw [h] at hc
    exact hc
  | cons x rest ih =>
    rw [List.splitOn_cons_eq_if_modifyHead] at h
    split at h
    · rcases List.mem_cons.mp h with rfl | hrest
      · cases hc
      · exact List.mem_cons_of_mem x (ih hrest hc)
    · rcases hsplit : rest.splitOn a with _ | ⟨first, others⟩
      · exact absurd hsplit (List.splitOn_ne_nil a rest)
      · rw [hsplit, List.modifyHead_cons] at h
        rcases List.mem_cons.mp h with rfl | hother
        · rcases List.mem_cons.mp hc with rfl | hin
          · exact List.mem_cons_self
          · exact List.mem_cons_of_mem x (ih (by rw [hsplit]; exact List.mem_cons_self) hin)
        · exact List.mem_cons_of_mem x
            (ih (by rw [hsplit]; exact List.mem_cons_of_mem _ hother) hc)

theorem mem_of_mem_strip {c : Char} {s : List Char} (h : c ∈ strip s) : c ∈ s := by
  unfold strip at h
  have h1 := (List.dropWhile_suffix _).subset (List.mem_reverse.mp h)
  exact (List.dropWhile_suffix _).subset (List.mem_reverse.mp h1)

theorem nameChar_of_matches {name : String} (h : MatchesPattern name) :
    ∀ c ∈ name.toList, nameChar c = true := by
  unfold MatchesPattern at h
  split at h
  · exact h.elim
  · rename_i c cs hname
    rw [hname]
    intro d hd
    rcases List.mem_cons.mp hd with rfl | hin
    · simp [nameChar, h.1]
    · exact h.2 d hin

/-- The node of a LoRA whose name a request may give declares no anchor. -/
theorem declares_loraNode {lora : ResolvedLoraRef} (h : MatchesPattern lora.name)
    (model clip : Json) (anchor : String) : (loraNode lora model clip).declares anchor = false := by
  have hpercent : '%' ∉ ("lora:" ++ lora.name).toList := by
    rw [String.toList_append, List.mem_append]
    rintro (hc | hc)
    · revert hc
      decide
    · have hname := nameChar_of_matches h _ hc
      revert hname
      decide
  have hnil : titleAnchors (loraNode lora model clip) = [] := by
    rw [titleAnchors, loraNode]
    refine List.filter_eq_nil_iff.mpr fun part hpart hanchor => hpercent ?_
    obtain ⟨raw, hraw, rfl⟩ := List.mem_map.mp hpart
    have hhead : (strip raw).head? = some '%' := by
      simp only [isAnchor, Bool.and_eq_true, decide_eq_true_eq] at hanchor
      exact hanchor.1
    exact mem_of_mem_splitOn hraw (mem_of_mem_strip (List.mem_of_mem_head? hhead))
  rw [Node.declares, hnil]
  rfl

theorem declares_mapInputs (f : Json → Json) (node : Node) (anchor : String) :
    (mapInputs f node).declares anchor = node.declares anchor := by
  unfold mapInputs
  cases node.inputs <;> rfl

theorem owner_append {g new : Graph} {anchor : String} {f : Json → Json}
    (hnew : ∀ e ∈ new, e.2.declares anchor = false) :
    owner (g.map (fun e => (e.1, mapInputs f e.2)) ++ new) anchor = owner g anchor := by
  have hnone : new.find? (fun e => e.2.declares anchor) = none :=
    List.find?_eq_none.mpr fun e he => by simp [hnew e he]
  unfold owner
  rw [List.find?_append, hnone, Option.or_none, List.find?_map, Option.map_map]
  simp only [Function.comp_def, declares_mapInputs]

theorem mem_loraNodes {next : Nat} {model clip : Json} {loras : List ResolvedLoraRef}
    {e : String × Node} (h : e ∈ loraNodes next model clip loras) :
    ∃ lora ∈ loras, ∃ model clip, e.2 = loraNode lora model clip := by
  induction loras generalizing next model clip with
  | nil => cases h
  | cons lora rest ih =>
    rcases List.mem_cons.mp h with rfl | hin
    · exact ⟨lora, List.mem_cons_self, model, clip, rfl⟩
    · obtain ⟨lora', hl, hnode⟩ := ih hin
      exact ⟨lora', List.mem_cons_of_mem _ hl, hnode⟩

/-! ## The graph that comes out -/

/-- What both passes do to a value. -/
def redirect (modelId : String) (modelSlot : Json) (clipId : String) (clipSlot : Json)
    (last : String) (value : Json) : Json :=
  redirectOne clipId clipSlot (link last 1) (redirectOne modelId modelSlot (link last 0) value)

/-- The old nodes with their inputs redirected, and the chain. -/
def rewired (g : Graph) (next : Nat) (modelId : String) (modelSlot : Json) (clipId : String)
    (clipSlot : Json) (loras : List ResolvedLoraRef) (last : String) : Graph :=
  g.map (fun e => (e.1, mapInputs (redirect modelId modelSlot clipId clipSlot last) e.2)) ++
    loraNodes next (.arr [.str modelId, modelSlot]) (.arr [.str clipId, clipSlot]) loras

theorem owner_of_declaredBy {g : Graph} {anchor id : String} (h : DeclaredBy g anchor id) :
    owner g anchor = some id := by
  unfold owner
  rw [← List.head?_filter, ← List.head?_map, h]
  rfl

/-- An id of ASCII digits is one for `int`, but for its length. -/
theorem decimalIds_ascii (py : Tables) {g : Graph}
    (h : ∀ e ∈ g, ∀ c ∈ e.1.toList, c.toNat < 128)
    (hlen : ∀ k ∈ numericIds py.toBuiltins g, k.length ≤ intMaxStrDigits) :
    DecimalIds py.toBuiltins g := by
  intro k hk
  refine ⟨hlen k hk, fun c hc => ?_⟩
  obtain ⟨hkey, hdigits⟩ := List.mem_filter.mp hk
  obtain ⟨e, he, rfl⟩ := List.mem_map.mp hkey
  simp only [Bool.and_eq_true, List.all_eq_true] at hdigits
  rw [py.str.decimal_digit c (py.isdigit_ascii c (h e he c hc) (hdigits.2 c hc))]
  rfl

theorem injectLoras_eq (py : Builtins) {g : Graph} {loras : List ResolvedLoraRef}
    (hloras : loras ≠ []) {modelId clipId : String} (hm : owner g "%MODEL_SOURCE%" = some modelId)
    (hc : owner g "%CLIP_SOURCE%" = some clipId) {next : Nat} (hn : nextId py 1 g = .ok next)
    (hroom : RoomFor py g loras.length) :
    injectLoras py loras g = .ok (rewired g next modelId (inferOutputSlot g modelId 0) clipId
      (inferOutputSlot g clipId 1) loras (((numbered next loras).map (·.1)).getLastD "")) := by
  have hfresh : ∀ k, next ≤ k → g.lookup (toString k) = none := fun k hk => nextId_fresh hn hk
  have hold : ∀ f : Json → Json, ∀ e ∈ g.map (fun e => (e.1, mapInputs f e.2)),
      e.1 ∉ (numbered next loras).map (·.1) := by
    intro f e he hid
    obtain ⟨e', he', rfl⟩ := List.mem_map.mp he
    obtain ⟨k, hk, -, heq⟩ := mem_numbered.mp hid
    have hnone := List.lookup_eq_none_iff.mp (hfresh k hk) e' he'
    simp [← heq] at hnone
  have hold' : ∀ e ∈ g, e.1 ∉ (numbered next loras).map (·.1) := by
    intro e he
    exact hold id (e.1, mapInputs id e.2) (List.mem_map.mpr ⟨e, he, rfl⟩)
  have hnew : ∀ model clip, ∀ e ∈ loraNodes next model clip loras,
      e.1 ∈ (numbered next loras).map (·.1) := by
    intro model clip e he
    rw [← ids_loraNodes next model clip]
    exact List.mem_map_of_mem he
  have hstr : strAll next loras.length = .ok () := if_pos ((fits_iff_room hn (.inl rfl)).mpr hroom)
  unfold injectLoras
  simp only [hloras, ↓reduceIte, findOr, hm, hc, results.ok_bind, hn, hstr]
  change Except.ok _ = _
  rw [chainLoras_eq hfresh]
  dsimp only
  rw [rewriteInputs_append hold' (hnew _ _), rewriteInputs_append (hold _) (hnew _ _), List.map_map]
  simp only [rewired, Function.comp_def, mapInputs_mapInputs]
  rfl

section Rewired

variable {g : Graph} {modelId clipId : String} {modelSlot clipSlot : Int}

/-- The inferred slots are those of the sources, where anything uses them. -/
theorem slots_of_apart (ha : Apart g modelId modelSlot clipId clipSlot) {v : Json}
    (hv : Holds g v) :
    (∀ q, Refers modelId q v → inferOutputSlot g modelId 0 = .int modelSlot) ∧
      ∀ q, Refers clipId q v → inferOutputSlot g clipId 1 = .int clipSlot := by
  rcases ha with ⟨-, -, -, hm, hc⟩ | ⟨rfl, rfl, rfl, h0, h1⟩
  · constructor
    · intro q hq
      obtain ⟨s, hs, -⟩ := mem_usedSlots hv hq
      exact inferOutputSlot_single hm 0 hs
    · intro q hq
      obtain ⟨s, hs, -⟩ := mem_usedSlots hv hq
      exact inferOutputSlot_single hc 1 hs
  · exact ⟨fun _ _ => inferOutputSlot_both h0 h1 (by decide) 0,
      fun _ _ => inferOutputSlot_both h0 h1 (by decide) 1⟩

/-- No value refers to both sources. -/
theorem not_both (ha : Apart g modelId modelSlot clipId clipSlot) {v : Json}
    (hc : Refers clipId clipSlot v) : ¬ Refers modelId modelSlot v := by
  intro hm
  have hsame : modelId = clipId := by
    have hlinks := hm.linkedTo.symm.trans hc.linkedTo
    exact Option.some.inj hlinks
  rcases ha with ⟨hne, -⟩ | ⟨-, rfl, rfl, -⟩
  · exact hne hsame
  · obtain ⟨s, hs, hs0⟩ := hm
    obtain ⟨s', hs', hs1⟩ := hc
    rw [hsame, hs', Option.some.injEq] at hs
    rw [hs, hs0] at hs1
    simp at hs1

theorem redirectOne_of_none {id : String} {slot newLink v : Json}
    (h : ∀ q, ¬ Refers id q v) : redirectOne id slot newLink v = v := by
  unfold redirectOne
  split
  · rename_i s hs
    refine if_neg ?_
    rintro ⟨hsome, -⟩
    obtain ⟨q, hq⟩ := Option.isSome_iff_exists.mp hsome
    exact h q ⟨s, hs, hq⟩
  · rfl

/-- A pass changes what refers to its source, and nothing else. -/
theorem redirectOne_spec {id : String} {slot : Json} {i : Int} {v : Json}
    (hslot : ∀ q, Refers id q v → slot = .int i) (newLink : Json) :
    (Refers id i v → redirectOne id slot newLink v = newLink) ∧
      (¬ Refers id i v → redirectOne id slot newLink v = v) := by
  constructor
  · intro h
    rw [hslot _ h]
    exact redirectOne_of_refers rfl h
  · intro h
    by_cases hany : ∃ q, Refers id q v
    · obtain ⟨q, hq⟩ := hany
      rw [hslot q hq]
      exact redirectOne_of_not_refers rfl h
    · exact redirectOne_of_none fun q hq => hany ⟨q, hq⟩

theorem slotOf_link {id last : String} (h : last ≠ id) (slot : Nat) :
    slotOf id (link last slot) = none := if_neg h

theorem redirect_spec (ha : Apart g modelId modelSlot clipId clipSlot) {last : String}
    (hlast : last ≠ clipId) {v : Json} (hv : Holds g v) :
    let r := redirect modelId (inferOutputSlot g modelId 0) clipId (inferOutputSlot g clipId 1) last v
    (Refers modelId modelSlot v → r = link last 0) ∧ (Refers clipId clipSlot v → r = link last 1) ∧
      (¬ Refers modelId modelSlot v → ¬ Refers clipId clipSlot v → r = v) := by
  obtain ⟨hmodel, hclip⟩ := slots_of_apart ha hv
  obtain ⟨hm1, hm2⟩ := redirectOne_spec hmodel (link last 0)
  obtain ⟨hc1, hc2⟩ := redirectOne_spec hclip (link last 1)
  unfold redirect
  refine ⟨fun h => ?_, fun h => ?_, fun h h' => ?_⟩
  · rw [hm1 h, redirectOne_of_slotOf (slotOf_link hlast 0)]
  · rw [hm2 (not_both ha h), hc1 h]
  · rw [hm2 h, hc2 h']

end Rewired

section Lookup

variable {g : Graph} {next : Nat} {modelId clipId last : String} {modelSlot clipSlot : Json}
  {loras : List ResolvedLoraRef}

theorem lookup_rewired {id : String} (hid : id ∉ (numbered next loras).map (·.1)) :
    (rewired g next modelId modelSlot clipId clipSlot loras last).lookup id =
      (g.lookup id).map (mapInputs (redirect modelId modelSlot clipId clipSlot last)) := by
  have hnone : (loraNodes next (.arr [.str modelId, modelSlot]) (.arr [.str clipId, clipSlot])
      loras).lookup id = none := by
    rw [List.lookup_eq_none_iff]
    intro e he
    have hne : id ≠ e.1 := by
      rintro rfl
      apply hid
      rw [← ids_loraNodes]
      exact List.mem_map_of_mem he
    simpa using hne
  unfold rewired
  rw [List.lookup_append, hnone, lookup_mapInputs, Option.or_none]

theorem chain_rewired (hfresh : ∀ k, next ≤ k → g.lookup (toString k) = none) :
    Chain (rewired g next modelId modelSlot clipId clipSlot loras last) next
      (.arr [.str modelId, modelSlot]) (.arr [.str clipId, clipSlot]) loras := by
  intro e he
  have hid : g.lookup e.1 = none := by
    have hmem := List.mem_map_of_mem (f := (·.1)) he
    rw [ids_loraNodes] at hmem
    obtain ⟨k, hk, -, heq⟩ := mem_numbered.mp hmem
    rw [heq, hfresh k hk]
  have hnodup := nodup_numbered next loras
  rw [← ids_loraNodes next (.arr [.str modelId, modelSlot]) (.arr [.str clipId, clipSlot])] at hnodup
  unfold rewired
  rw [List.lookup_append, lookup_mapInputs, hid, lookup_of_mem hnodup he]
  rfl

end Lookup

/-! ## The edges afterwards -/

theorem refers_infer (g : Graph) (id : String) (fallback : Nat) :
    ∃ q, Refers id q (.arr [.str id, inferOutputSlot g id fallback]) := by
  have hint : ∃ q, number (inferOutputSlot g id fallback) = some q := by
    rw [inferOutputSlot_eq]
    cases hseen : seenSlots g id with
    | nil => exact ⟨_, rfl⟩
    | cons slot more =>
      have hslot : isInt slot = true := (mem_seenSlots.mp (hseen ▸ List.mem_cons_self)).2
      simp only [agreedSlot]
      split
      · cases slot <;> simp [isInt] at hslot <;> exact ⟨_, rfl⟩
      · exact ⟨_, rfl⟩
  obtain ⟨q, hq⟩ := hint
  exact ⟨q, _, by simp [slotOf], hq⟩

/-- The result of a nonempty list, and what is known of it. -/
structure Chained (g g' : Graph) (next : Nat) (modelId : String) (modelSlot : Int)
    (clipId : String) (clipSlot : Int) (loras : List ResolvedLoraRef) (last : String) : Prop where
  fresh : ∀ k, next ≤ k → g.lookup (toString k) = none
  model : g.lookup modelId ≠ none
  clip : g.lookup clipId ≠ none
  apart : Apart g modelId modelSlot clipId clipSlot
  mem_last : last ∈ (numbered next loras).map (·.1)
  ends_eq : ∀ model clip, ends next model clip loras = (link last 0, link last 1)
  eq : g' = rewired g next modelId (inferOutputSlot g modelId 0) clipId (inferOutputSlot g clipId 1)
    loras last

namespace Chained

variable {g g' : Graph} {next : Nat} {modelId clipId last : String} {modelSlot clipSlot : Int}
  {loras : List ResolvedLoraRef}
  (h : Chained g g' next modelId modelSlot clipId clipSlot loras last)
include h

theorem fresh_of_mem {id : String} (hid : id ∈ (numbered next loras).map (·.1)) :
    g.lookup id = none := by
  obtain ⟨k, hk, -, rfl⟩ := mem_numbered.mp hid
  exact h.fresh k hk

theorem old_of_lookup {id : String} (hid : g.lookup id ≠ none) :
    id ∉ (numbered next loras).map (·.1) := fun hmem => hid (h.fresh_of_mem hmem)

theorem chain : Chain g' next (.arr [.str modelId, inferOutputSlot g modelId 0])
    (.arr [.str clipId, inferOutputSlot g clipId 1]) loras := by
  rw [h.eq]
  exact chain_rewired h.fresh

theorem redirected {v : Json} (hv : Holds g v) :
    let r := redirect modelId (inferOutputSlot g modelId 0) clipId (inferOutputSlot g clipId 1) last v
    (Refers modelId modelSlot v → r = link last 0) ∧ (Refers clipId clipSlot v → r = link last 1) ∧
      (¬ Refers modelId modelSlot v → ¬ Refers clipId clipSlot v → r = v) := by
  refine redirect_spec h.apart ?_ hv
  rintro rfl
  exact h.old_of_lookup h.clip h.mem_last

/-- The walks from the last of the new nodes. -/
theorem visits_model {q : ℚ}
    (hq : Refers modelId q (.arr [.str modelId, inferOutputSlot g modelId 0])) :
    Visits g' "model" 0 modelId q (link last 0) (numbered next loras).reverse := by
  have hv := visits_chain "model" (fun model _ => model) (fun _ _ _ => rfl) (fun _ => rfl) h.chain
    [] hq
  rw [h.ends_eq, List.append_nil] at hv
  exact hv

theorem visits_clip {q : ℚ} (hq : Refers clipId q (.arr [.str clipId, inferOutputSlot g clipId 1])) :
    Visits g' "clip" 1 clipId q (link last 1) (numbered next loras).reverse := by
  have hv := visits_chain "clip" (fun _ clip => clip) (fun _ _ _ => rfl) (fun _ => rfl) h.chain [] hq
  rw [h.ends_eq, List.append_nil] at hv
  exact hv

theorem lookup_old {id : String} (hid : id ∉ (numbered next loras).map (·.1)) :
    g'.lookup id = (g.lookup id).map (mapInputs
      (redirect modelId (inferOutputSlot g modelId 0) clipId (inferOutputSlot g clipId 1) last)) := by
  rw [h.eq, lookup_rewired hid]

theorem edge_old {a b : String} (ha : a ∉ (numbered next loras).map (·.1)) (hab : Edge g' a b) :
    Edge g a b ∨ b ∈ (numbered next loras).map (·.1) ∧
      ∃ s, (s = modelId ∨ s = clipId) ∧ Edge g a s := by
  obtain ⟨node', hnode', f', hf', hto⟩ := hab
  rw [h.lookup_old ha, Option.map_eq_some_iff] at hnode'
  obtain ⟨node, hnode, rfl⟩ := hnode'
  rw [fields_mapInputs] at hf'
  obtain ⟨f, hf, rfl⟩ := List.mem_map.mp hf'
  obtain ⟨hmodel, hclip, hsame⟩ := h.redirected ⟨a, node, hnode, f, hf, rfl⟩
  by_cases hm : Refers modelId modelSlot f.2
  · rw [hmodel hm, linkedTo_link, Option.some.injEq] at hto
    exact Or.inr ⟨hto ▸ h.mem_last, modelId, Or.inl rfl, node, hnode, f, hf, hm.linkedTo⟩
  · by_cases hc : Refers clipId clipSlot f.2
    · rw [hclip hc, linkedTo_link, Option.some.injEq] at hto
      exact Or.inr ⟨hto ▸ h.mem_last, clipId, Or.inr rfl, node, hnode, f, hf, hc.linkedTo⟩
    · rw [hsame hm hc] at hto
      exact Or.inl ⟨node, hnode, f, hf, hto⟩

theorem edge_kept {a b : String} (hab : Edge g a b) :
    Edge g' a b ∨ ∃ k ∈ (numbered next loras).map (·.1), Edge g' a k := by
  obtain ⟨node, hnode, f, hf, hto⟩ := hab
  have ha : a ∉ (numbered next loras).map (·.1) := h.old_of_lookup (by simp [hnode])
  have hnode' := h.lookup_old ha
  rw [hnode] at hnode'
  have hf' := List.mem_map_of_mem (f := fun e : String × Json => (e.1,
    redirect modelId (inferOutputSlot g modelId 0) clipId (inferOutputSlot g clipId 1) last e.2)) hf
  rw [← fields_mapInputs] at hf'
  obtain ⟨hmodel, hclip, hsame⟩ := h.redirected ⟨a, node, hnode, f, hf, rfl⟩
  by_cases hm : Refers modelId modelSlot f.2
  · exact Or.inr ⟨last, h.mem_last, _, hnode', _, hf', by rw [hmodel hm, linkedTo_link]⟩
  · by_cases hc : Refers clipId clipSlot f.2
    · exact Or.inr ⟨last, h.mem_last, _, hnode', _, hf', by rw [hclip hc, linkedTo_link]⟩
    · exact Or.inl ⟨_, hnode', _, hf', by rw [hsame hm hc, hto]⟩

theorem detour : Detour (Edge g) (Edge g') (· ∈ (numbered next loras).map (·.1))
    (fun s => s = modelId ∨ s = clipId) (fun id => ascii.int id.toList) where
  old_source := by
    rintro s (rfl | rfl)
    · exact h.old_of_lookup h.model
    · exact h.old_of_lookup h.clip
  old a b ha hab := h.edge_old ha hab
  new := by
    intro a b ha hab
    obtain ⟨k, h1, h2, rfl⟩ := mem_numbered.mp ha
    rcases edge_chain h.chain h1 h2 hab with ⟨j, hj1, hj2, rfl⟩ | hto | hto
    · refine Or.inl ⟨mem_numbered.mpr ⟨j, hj1, by omega, rfl⟩, ?_⟩
      rw [int_toString, int_toString]
      exact hj2
    · obtain ⟨q, hq⟩ := refers_infer g modelId 0
      rw [hq.linkedTo, Option.some.injEq] at hto
      exact Or.inr (Or.inl hto.symm)
    · obtain ⟨q, hq⟩ := refers_infer g clipId 1
      rw [hq.linkedTo, Option.some.injEq] at hto
      exact Or.inr (Or.inr hto.symm)
  kept a b hab := by
    rcases h.edge_kept hab with hsame | ⟨k, hk, hedge⟩
    · exact Or.inl hsame
    · exact Or.inr ⟨k, hk, hedge⟩
  down := by
    intro k s hk hs
    obtain ⟨e, he, rfl⟩ := List.mem_map.mp hk
    rcases hs with rfl | rfl
    · obtain ⟨q, hq⟩ := refers_infer g s 0
      exact (h.visits_model hq).dependsOn.2 e (List.mem_reverse.mpr he)
    · obtain ⟨q, hq⟩ := refers_infer g s 1
      exact (h.visits_clip hq).dependsOn.2 e (List.mem_reverse.mpr he)

theorem acyclic_iff (hacyclic : Acyclic (Edge g)) :
    Acyclic (Edge g') ↔ ∀ id ∈ (numbered next loras).map (·.1),
      ¬ DependsOn g modelId id ∧ ¬ DependsOn g clipId id := by
  have hsource : ∀ s t, (s = modelId ∨ s = clipId) → (t = modelId ∨ t = clipId) →
      ¬ DependsOn g s t := by
    have hapart : ¬ DependsOn g modelId clipId ∧ ¬ DependsOn g clipId modelId := by
      rcases h.apart with ⟨-, hmc, hcm, -⟩ | ⟨rfl, -⟩
      · exact ⟨hmc, hcm⟩
      · exact ⟨hacyclic _, hacyclic _⟩
    rintro s t (rfl | rfl) (rfl | rfl)
    · exact hacyclic _
    · exact hapart.1
    · exact hapart.2
    · exact hacyclic _
  rw [h.detour.acyclic_iff hacyclic hsource]
  constructor
  · intro hno id hid
    exact ⟨hno modelId id (Or.inl rfl) hid, hno clipId id (Or.inr rfl) hid⟩
  · rintro hno s k (rfl | rfl) hk
    · exact (hno k hk).1
    · exact (hno k hk).2

theorem ids_eq : g'.map (·.1) = g.map (·.1) ++ (numbered next loras).map (·.1) := by
  rw [h.eq, rewired, List.map_append, ids_loraNodes, List.map_map]
  rfl

theorem findAnchor_eq (hnames : ∀ lora ∈ loras, MatchesPattern lora.name) (anchor : String) :
    findAnchor g' anchor = findAnchor g anchor := by
  have howner : owner g' anchor = owner g anchor := by
    rw [h.eq, rewired]
    refine owner_append fun e he => ?_
    obtain ⟨lora, hl, model, clip, hnode⟩ := mem_loraNodes he
    rw [hnode]
    exact declares_loraNode (hnames lora hl) model clip anchor
  rw [findAnchor, howner, findAnchor]

theorem rewired (hnames : ∀ lora ∈ loras, MatchesPattern lora.name) :
    Rewired g g' modelId modelSlot clipId clipSlot (numbered next loras)
      (redirect modelId (inferOutputSlot g modelId 0) clipId (inferOutputSlot g clipId 1) last) where
  ids := h.ids_eq
  nodup := nodup_numbered next loras
  fresh _ hid := h.fresh_of_mem hid
  old id node hnode := by
    rw [h.lookup_old (h.old_of_lookup (by simp [hnode])), hnode]
    rfl
  model v hv hr := by
    have hslot := (slots_of_apart h.apart hv).1 _ hr
    rw [(h.redirected hv).1 hr]
    exact h.visits_model ⟨.int modelSlot, by simp [slotOf, hslot], rfl⟩
  clip v hv hr := by
    have hslot := (slots_of_apart h.apart hv).2 _ hr
    rw [(h.redirected hv).2.1 hr]
    exact h.visits_clip ⟨.int clipSlot, by simp [slotOf, hslot], rfl⟩
  frame v hv hm hc := (h.redirected hv).2.2 hm hc
  anchors := h.findAnchor_eq hnames

end Chained

theorem injectLoras_ok {py : Builtins} {g g' : Graph} {loras : List ResolvedLoraRef}
    (h : injectLoras py loras g = .ok g') : g' = g ∨
    ∃ next modelId modelSlot clipId clipSlot last,
      (∀ k, next ≤ k → g.lookup (toString k) = none) ∧
        g' = rewired g next modelId modelSlot clipId clipSlot loras last := by
  by_cases hloras : loras = []
  · subst hloras
    cases h
    exact .inl rfl
  · have hbody := h
    unfold injectLoras at hbody
    simp only [hloras, ↓reduceIte] at hbody
    obtain ⟨modelId, hm, hbody⟩ := results.bind_ok hbody
    obtain ⟨clipId, hc, hbody⟩ := results.bind_ok hbody
    obtain ⟨next, hn, hbody⟩ := results.bind_ok hbody
    obtain ⟨_, hstr, -⟩ := results.bind_ok hbody
    have hroom := (fits_iff_room hn (.inl rfl)).mp (succeeds_strAll.mp ⟨_, hstr⟩)
    rw [injectLoras_eq py hloras (findOr_ok hm) (findOr_ok hc) hn hroom, Except.ok.injEq] at h
    exact .inr ⟨next, modelId, _, clipId, _, _, fun k hk => nextId_fresh hn hk, h.symm⟩

theorem snd_numbered (next : Nat) (loras : List ResolvedLoraRef) :
    (numbered next loras).map (·.2) = loras := by
  induction loras generalizing next with
  | nil => rfl
  | cons lora rest ih => simp only [numbered, List.map_cons, ih]

theorem mapInputs_id (node : Node) : mapInputs (fun v => v) node = node := by
  unfold mapInputs
  obtain ⟨classType, inputs, title⟩ := node
  cases inputs <;> simp

theorem rewired_nil (g : Graph) (modelId : String) (modelSlot : Int) (clipId : String)
    (clipSlot : Int) : Rewired g g modelId modelSlot clipId clipSlot [] fun v => v where
  ids := by simp
  nodup := by simp
  fresh _ hid := by cases hid
  old id node hnode := by rw [mapInputs_id, hnode]
  model _ _ hr := hr
  clip _ _ hr := hr
  frame _ _ _ _ := rfl
  anchors _ := rfl

theorem injectLoras_chained (py : Tables) {g : Graph} {loras : List ResolvedLoraRef}
    {modelId clipId : String} {modelSlot clipSlot : Int} (hloras : loras ≠ [])
    (hascii : ∀ e ∈ g, ∀ c ∈ e.1.toList, c.toNat < 128)
    (hlen : ∀ k ∈ numericIds py.toBuiltins g, k.length ≤ intMaxStrDigits)
    (hroom : RoomFor py.toBuiltins g loras.length)
    (hs : Sources g modelId modelSlot clipId clipSlot) :
    ∃ g' next last, injectLoras py.toBuiltins loras g = .ok g' ∧
      nextId py.toBuiltins 1 g = .ok next ∧
      Chained g g' next modelId modelSlot clipId clipSlot loras last := by
  have hm := owner_of_declaredBy hs.model
  have hc := owner_of_declaredBy hs.clip
  obtain ⟨next, hn⟩ := succeeds_nextId.mpr (decimalIds_ascii py hascii hlen)
  obtain ⟨lora, rest, rfl⟩ := List.exists_cons_of_ne_nil hloras
  obtain ⟨last, hlast, hmem, -⟩ := ends_cons next .null .null lora rest
  have hok := injectLoras_eq py.toBuiltins hloras hm hc hn hroom
  rw [hlast] at hok
  refine ⟨_, next, last, hok, hn, ?_⟩
  exact
    { fresh := fun k hk => nextId_fresh hn hk
      model := owner_lookup hm
      clip := owner_lookup hc
      apart := hs.apart
      mem_last := hmem
      ends_eq := by
        intro model clip
        obtain ⟨last', hlast', -, hends⟩ := ends_cons next model clip lora rest
        rw [hends, ← hlast, hlast']
      eq := rfl }

/-- The chain takes over exactly the inputs that used the sources. It closes a
cycle when a source depends on a missing node whose id a loader takes. -/
theorem inject_loras_rewires (py : Tables) {g : Graph} {loras : List ResolvedLoraRef}
    {modelId clipId : String} {modelSlot clipSlot : Int}
    (hascii : ∀ e ∈ g, ∀ c ∈ e.1.toList, c.toNat < 128)
    (hlen : ∀ k ∈ numericIds py.toBuiltins g, k.length ≤ intMaxStrDigits)
    (hroom : RoomFor py.toBuiltins g loras.length) (hacyclic : Acyclic (Edge g))
    (hs : Sources g modelId modelSlot clipId clipSlot)
    (hnames : ∀ lora ∈ loras, MatchesPattern lora.name) :
    ∃ g' chain redirect, injectLoras py.toBuiltins loras g = .ok g' ∧ chain.map (·.2) = loras ∧
      (loras = [] → g' = g) ∧
      Rewired g g' modelId modelSlot clipId clipSlot chain redirect ∧
      (Acyclic (Edge g') ↔ ∀ id ∈ chain.map (·.1),
        ¬ DependsOn g modelId id ∧ ¬ DependsOn g clipId id) := by
  by_cases hloras : loras = []
  · subst hloras
    refine ⟨g, [], fun v => v, rfl, rfl, fun _ => rfl, rewired_nil _ _ _ _ _, ?_⟩
    simpa using hacyclic
  · obtain ⟨g', next, last, hok, -, h⟩ := injectLoras_chained py hloras hascii hlen hroom hs
    exact ⟨g', _, _, hok, snd_numbered next loras, fun hnil => absurd hnil hloras,
      h.rewired hnames, h.acyclic_iff hacyclic⟩

/-! ## Two graphs -/

def asciiTables : Tables :=
  { asciiBuiltins with isdigit_ascii := fun _ _ h => h }

def styleLora : ResolvedLoraRef := ⟨"style_a", .finite (1 / 2)⟩

/-- A checkpoint that provides the model and the clip. -/
def checkpointGraph : Graph :=
  [("1", ⟨.str "CheckpointLoaderSimple", .dict [("ckpt_name", .str "a.safetensors")],
      some "%MODEL_SOURCE%,%CLIP_SOURCE%"⟩),
    ("3", ⟨.str "CLIPTextEncode", .dict [("clip", link "1" 1)], some "%POSITIVE_PROMPT%"⟩),
    ("6", ⟨.str "KSampler", .dict [("model", link "1" 0), ("positive", link "3" 0)],
      some "%KSAMPLER%"⟩)]

/-- The model loader links to a node "3" that is missing. -/
def danglingGraph : Graph :=
  [("1", ⟨.str "UnetLoaderGGUF", .dict [("unet_name", link "3" 0)], some "%MODEL_SOURCE%"⟩),
    ("2", ⟨.str "CLIPLoader", .dict [("clip_name", .str "c.safetensors")],
      some "%CLIP_SOURCE%"⟩)]

/-- The edges of a graph, by the list of its nodes. -/
theorem edge_cases {g : Graph} {a b : String} (h : Edge g a b) :
    ∃ e ∈ g, e.1 = a ∧ ∃ f ∈ fieldsOf e.2.inputs, linkedTo f.2 = some b := by
  obtain ⟨node, hnode, f, hf, hto⟩ := h
  exact ⟨(a, node), mem_of_lookup_eq hnode, rfl, f, hf, hto⟩

theorem checkpointGraph_acyclic : Acyclic (Edge checkpointGraph) := by
  refine acyclic_of_rank (fun id => ascii.int id.toList) fun a b h => ?_
  obtain ⟨e, he, rfl, f, hf, hto⟩ := edge_cases h
  simp only [checkpointGraph, List.mem_cons, List.not_mem_nil, or_false] at he
  rcases he with rfl | rfl | rfl
  · simp only [fieldsOf, List.mem_singleton] at hf
    rw [hf] at hto
    cases hto
  · simp only [fieldsOf, List.mem_singleton] at hf
    rw [hf] at hto
    cases hto
    decide
  · simp only [fieldsOf, List.mem_cons, List.not_mem_nil, or_false] at hf
    rcases hf with rfl | rfl
    · cases hto
      decide
    · cases hto
      decide

theorem checkpointGraph_sources : Sources checkpointGraph "1" 0 "1" 1 where
  model := by unfold DeclaredBy; decide +kernel
  clip := by unfold DeclaredBy; decide +kernel
  apart := by
    have hslots : usedSlots checkpointGraph "1" = [.int 1, .int 0] := rfl
    refine Or.inr ⟨rfl, rfl, rfl, ?_, ?_⟩ <;> simp [hslots]

theorem inject_loras_rewires_checkpoint :
    ∃ g' chain redirect, injectLoras asciiTables.toBuiltins [styleLora] checkpointGraph = .ok g' ∧
      chain.map (·.2) = [styleLora] ∧ ([styleLora] = [] → g' = checkpointGraph) ∧
      Rewired checkpointGraph g' "1" 0 "1" 1 chain redirect ∧
      (Acyclic (Edge g') ↔ ∀ id ∈ chain.map (·.1),
        ¬ DependsOn checkpointGraph "1" id ∧ ¬ DependsOn checkpointGraph "1" id) :=
  inject_loras_rewires asciiTables (by decide) (by decide) (roomFor_small (by decide))
    checkpointGraph_acyclic checkpointGraph_sources (by decide)

theorem danglingGraph_acyclic : Acyclic (Edge danglingGraph) := by
  refine acyclic_of_rank (fun id => if id = "1" then 1 else 0) fun a b h => ?_
  obtain ⟨e, he, rfl, f, hf, hto⟩ := edge_cases h
  simp only [danglingGraph, List.mem_cons, List.not_mem_nil, or_false] at he
  rcases he with rfl | rfl
  · simp only [fieldsOf, List.mem_singleton] at hf
    rw [hf] at hto
    cases hto
    decide
  · simp only [fieldsOf, List.mem_singleton] at hf
    rw [hf] at hto
    cases hto

theorem danglingGraph_sources : Sources danglingGraph "1" 0 "2" 1 where
  model := by unfold DeclaredBy; decide +kernel
  clip := by unfold DeclaredBy; decide +kernel
  apart := by
    have hno : ∀ a b, DependsOn danglingGraph a b → b = "3" := by
      intro a b h
      have hlast : ∃ c, Edge danglingGraph c b := by
        cases h with
        | single hedge => exact ⟨_, hedge⟩
        | tail _ hedge => exact ⟨_, hedge⟩
      obtain ⟨c, hedge⟩ := hlast
      obtain ⟨e, he, -, f, hf, hto⟩ := edge_cases hedge
      simp only [danglingGraph, List.mem_cons, List.not_mem_nil, or_false] at he
      rcases he with rfl | rfl
      · simp only [fieldsOf, List.mem_singleton] at hf
        rw [hf] at hto
        cases hto
        rfl
      · simp only [fieldsOf, List.mem_singleton] at hf
        rw [hf] at hto
        cases hto
    have hmodel : usedSlots danglingGraph "1" = [] := rfl
    have hclip : usedSlots danglingGraph "2" = [] := rfl
    refine Or.inl ⟨by decide, fun h => ?_, fun h => ?_, by simp [hmodel], by simp [hclip]⟩
    · have hid := hno _ _ h
      revert hid
      decide
    · have hid := hno _ _ h
      revert hid
      decide

/-- The loader gets the id of the missing node that the model loader links to. -/
theorem a_dangling_link_closes_a_cycle :
    ∃ g', injectLoras asciiTables.toBuiltins [styleLora] danglingGraph = .ok g' ∧
      ¬ Acyclic (Edge g') := by
  obtain ⟨g', next, last, hok, hn, h⟩ :=
    injectLoras_chained asciiTables (List.cons_ne_nil styleLora []) (by decide) (by decide)
      (roomFor_small (by decide)) danglingGraph_sources
  refine ⟨g', hok, fun hacyclic => ?_⟩
  have hnext : next = 3 := by
    have hthree : nextId asciiTables.toBuiltins 1 danglingGraph = .ok 3 := rfl
    rw [hthree] at hn
    exact (Except.ok.inj hn).symm
  subst hnext
  have hno := (h.acyclic_iff danglingGraph_acyclic).mp hacyclic "3" (by decide)
  exact hno.1 (.single ⟨_, rfl, ("unet_name", link "3" 0), List.mem_singleton.mpr rfl, rfl⟩)

/-- A checkpoint with this id. -/
def checkpointAt (id : String) : Graph :=
  [(id, ⟨.str "CheckpointLoaderSimple", .dict [], some "%MODEL_SOURCE%,%CLIP_SOURCE%"⟩),
    ("2", ⟨.str "KSampler", .dict [("model", link id 0), ("clip", link id 1)], none⟩)]

section CheckpointAt

variable {id : String}

theorem checkpointAt_acyclic (hid : id ≠ "2") : Acyclic (Edge (checkpointAt id)) := by
  refine acyclic_of_rank (fun x => if x = "2" then 1 else 0) fun a b h => ?_
  obtain ⟨e, he, rfl, f, hf, hto⟩ := edge_cases h
  simp only [checkpointAt, List.mem_cons, List.not_mem_nil, or_false] at he
  rcases he with rfl | rfl
  · cases hf
  · simp only [fieldsOf, List.mem_cons, List.not_mem_nil, or_false] at hf
    rcases hf with rfl | rfl <;> cases hto <;> simp [hid]

theorem checkpointAt_sources (id : String) : Sources (checkpointAt id) id 0 id 1 := by
  have hmodel : Node.declares ⟨.str "CheckpointLoaderSimple", .dict [],
      some "%MODEL_SOURCE%,%CLIP_SOURCE%"⟩ "%MODEL_SOURCE%" = true := by decide +kernel
  have hclip : Node.declares ⟨.str "CheckpointLoaderSimple", .dict [],
      some "%MODEL_SOURCE%,%CLIP_SOURCE%"⟩ "%CLIP_SOURCE%" = true := by decide +kernel
  have hnone : ∀ c inputs anchor, Node.declares ⟨c, inputs, none⟩ anchor = false :=
    fun _ _ _ => by simp [Node.declares, titleAnchors]
  have hlink : ∀ n : Nat, (slotOf id (link id n)).filter (fun s => (number s).isSome) =
      some (.int n) := fun n => by simp [link, slotOf, number]
  have hslots : usedSlots (checkpointAt id) id = [.int 0, .int 1] := by
    simp [usedSlots, checkpointAt, fieldsOf, hlink]
  refine ⟨?_, ?_, Or.inr ⟨rfl, rfl, rfl, ?_, ?_⟩⟩
  · simp [DeclaredBy, checkpointAt, hmodel, hnone]
  · simp [DeclaredBy, checkpointAt, hclip, hnone]
  · simp [hslots]
  · simp [hslots]

/-- `int` takes no digits beyond its limit. -/
theorem checkpointAt_raises (hdigits : id.toList.all Char.isDigit = true)
    (hlong : intMaxStrDigits < id.toList.length) {loras : List ResolvedLoraRef}
    (hloras : loras ≠ []) :
    ∀ g', injectLoras asciiTables.toBuiltins loras (checkpointAt id) ≠ .ok g' := by
  intro g' h
  unfold injectLoras at h
  rw [if_neg hloras] at h
  obtain ⟨modelId, -, h⟩ := results.bind_ok h
  obtain ⟨clipId, -, h⟩ := results.bind_ok h
  obtain ⟨next, hnext, -⟩ := results.bind_ok h
  have hne : id.toList ≠ [] := by
    intro hnil
    rw [hnil] at hlong
    cases hlong
  have hmem : id.toList ∈ numericIds asciiTables.toBuiltins (checkpointAt id) := by
    refine List.mem_filter.mpr ⟨by simp [checkpointAt], ?_⟩
    rw [decide_eq_true hne]
    exact hdigits
  have hshort := (succeeds_nextId.mp ⟨next, hnext⟩ _ hmem).1
  omega

end CheckpointAt

/-- An id of one digit more than `int` takes. -/
def longId : String := String.ofList (List.replicate (intMaxStrDigits + 1) '1')

theorem longId_toList : longId.toList = List.replicate (intMaxStrDigits + 1) '1' :=
  String.toList_ofList

theorem longId_ne : longId ≠ "2" := by
  intro heq
  have hlists := congrArg (fun s : String => s.toList.head?) heq
  simp only [longId_toList, List.replicate_succ, List.head?_cons] at hlists
  revert hlists
  decide

/-- On one graph the chain closes a cycle, on the other nothing is inserted. -/
theorem inject_loras_may_close_a_cycle_or_raise :
    (Acyclic (Edge danglingGraph) ∧ Sources danglingGraph "1" 0 "2" 1 ∧
      MatchesPattern styleLora.name ∧
      ∃ g', injectLoras asciiTables.toBuiltins [styleLora] danglingGraph = .ok g' ∧
        ¬ Acyclic (Edge g')) ∧
    ((∀ e ∈ checkpointAt longId, ∀ c ∈ e.1.toList, c.toNat < 128) ∧
      Acyclic (Edge (checkpointAt longId)) ∧ Sources (checkpointAt longId) longId 0 longId 1 ∧
      ∀ g', injectLoras asciiTables.toBuiltins [styleLora] (checkpointAt longId) ≠ .ok g') := by
  refine ⟨⟨danglingGraph_acyclic, danglingGraph_sources, by decide,
    a_dangling_link_closes_a_cycle⟩, ?_, checkpointAt_acyclic longId_ne,
    checkpointAt_sources longId, checkpointAt_raises ?_ ?_ (List.cons_ne_nil _ _)⟩
  · intro e he c hc
    simp only [checkpointAt, List.mem_cons, List.not_mem_nil, or_false] at he
    rcases he with rfl | rfl
    · rw [longId_toList] at hc
      rw [List.eq_of_mem_replicate hc]
      decide
    · revert c
      decide
  · rw [longId_toList, List.all_replicate]
    rfl
  · rw [longId_toList, List.length_replicate]
    exact Nat.lt_succ_self _

end image_gen.lora_rewiring

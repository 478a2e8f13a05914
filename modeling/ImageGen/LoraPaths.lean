-- LoRAs in a core workflow (`inject_wan_core_loras`): which of them a graph
-- carries on its way from the loaders to the samplers, and when they are all of
-- the list.
import ImageGen.LoraChain

namespace image_gen.lora_paths

open image_gen.graph image_gen.graph_edits image_gen.injectors image_gen.json
  image_gen.lora_chain image_gen.py_dict image_gen.requests image_gen.results

/-! ## What a graph carries -/

/-- The nodes that load the weights of a model. -/
def experts (template : Graph) : List String :=
  (owner template "%WAN_MODEL%").toList ++ (owner template "%WAN_MODEL_LOW%").toList

/-- The LoRAs stand in order between the two anchors of the template, next to
the loader the first. -/
def OnPath (template g : Graph) (modelAnchor shiftAnchor : String)
    (loras : List ResolvedLoraRef) : Prop :=
  match owner template shiftAnchor with
  | none => loras = []
  | some shiftId =>
    let path := pathTo (experts template) g shiftId
    path.1 = loras.map entry ∧ (loras = [] ∨ path.2 = owner template modelAnchor)

/-- The second LoRA is for the low path of a dual graph, the others are for the high one. -/
def CarriesCore (template g : Graph) (loras : List ResolvedLoraRef) : Prop :=
  if isDual template then
    OnPath template g "%WAN_MODEL%" "%WAN_SHIFT%" (loras.eraseIdx 1) ∧
      OnPath template g "%WAN_MODEL_LOW%" "%WAN_SHIFT_LOW%" loras[1]?.toList
  else OnPath template g "%WAN_MODEL%" "%WAN_SHIFT%" loras

/-! ## When it carries the whole list -/

/-- The template itself puts no LoRA loader in front of the anchor. -/
def Bare (template : Graph) (shiftAnchor : String) : Prop :=
  ∀ id, owner template shiftAnchor = some id → (pathTo (experts template) template id).1 = []

/-- The anchor is on a node with inputs, which is no loader of a model. -/
def Placed (template : Graph) (shiftAnchor : String) : Prop :=
  ∀ id, owner template shiftAnchor = some id →
    (inputsAt template id).isDict = true ∧ id ∉ experts template

def FitsSingle (template : Graph) (loras : List ResolvedLoraRef) : Prop :=
  if loras = [] then Bare template "%WAN_SHIFT%"
  else loras.length ≤ wanMaxLoras ∧ Placed template "%WAN_SHIFT%"

/-- The low path does not link to a missing node that the first new node will be. -/
def NoDanglingLink (py : Builtins) (template : Graph) : Prop :=
  ∀ id next, owner template "%WAN_SHIFT_LOW%" = some id → nextId py 100 template = .ok next →
    id ∈ experts template ∨ (inputsAt template id).get "model" ≠ link (toString next) 0

def FitsDual (py : Builtins) (template : Graph) : List ResolvedLoraRef → Prop
  | [] => Bare template "%WAN_SHIFT%" ∧ Bare template "%WAN_SHIFT_LOW%"
  | [_] => Placed template "%WAN_SHIFT%" ∧ Bare template "%WAN_SHIFT_LOW%" ∧
      NoDanglingLink py template ∧
      owner template "%WAN_SHIFT%" ≠ owner template "%WAN_SHIFT_LOW%"
  | first :: second :: rest => rest.length < wanMaxLoras ∧ Placed template "%WAN_SHIFT%" ∧
      Placed template "%WAN_SHIFT_LOW%" ∧
      (owner template "%WAN_SHIFT%" ≠ owner template "%WAN_SHIFT_LOW%" ∨
        rest = [] ∧ first = second ∧
          owner template "%WAN_MODEL%" = owner template "%WAN_MODEL_LOW%")

/-! ## The injection -/

section Core

variable {template g g' : Graph}

theorem entry_injective {a b : ResolvedLoraRef} (h : entry a = entry b) : a = b := by
  obtain ⟨hfile, hweight⟩ := Prod.mk.inj h
  have hname : a.name ++ ".safetensors" = b.name ++ ".safetensors" := Json.str.inj hfile
  have htext : a.name.toList = b.name.toList := by
    have hlists := congrArg String.toList hname
    simpa using hlists
  cases a
  cases b
  simp only [ResolvedLoraRef.mk.injEq]
  exact ⟨String.toList_injective htext, Json.float.inj hweight⟩

theorem path_nil_iff {tops : List String} {id : String} :
    (pathTo tops g id).1 = [] ↔
      id ∈ tops ∨ ¬ Feeds g tops ((inputsAt g id).get "model") := by
  unfold pathTo
  by_cases hid : id ∈ tops
  · simp [hid]
  · simp only [hid, ↓reduceIte, upstream_eq_nil, false_or]

theorem path_linked {tops : List String} {modelId shiftId : String} {next : Nat}
    {loras : List ResolvedLoraRef} (hl : Linked g next (link modelId 0) loras)
    (htops : ∀ k, next ≤ k → toString k ∉ tops) (hmodel : modelId ∈ tops)
    (hshift : shiftId ∉ tops)
    (hinput : (inputsAt g shiftId).get "model" = lastLink next (link modelId 0) loras)
    (hlen : loras.length ≤ g.length) :
    pathTo tops g shiftId = (loras.map entry, some modelId) := by
  have hfuel : g.length + 1 = loras.length + (g.length - loras.length + 1) := by omega
  rw [pathTo, if_neg hshift, hinput, hfuel, upstream_linked hl htops]
  simp [upstream, target_link, hmodel]

/-- The template with the files of the model filled in. -/
structure Weighted (template g : Graph) : Prop where
  ids : g.map (·.1) = template.map (·.1)
  owner : ∀ anchor, owner g anchor = owner template anchor
  classAt : ∀ id, classAt g id = classAt template id
  isDict : ∀ id, (inputsAt g id).isDict = (inputsAt template id).isDict
  model : ∀ id, id ∉ experts template →
    (inputsAt g id).get "model" = (inputsAt template id).get "model"

theorem weighted_of_view
    (h : view (fun id key => decide (id ∉ experts template ∧ key = "model")) g =
      view (fun id key => decide (id ∉ experts template ∧ key = "model")) template) :
    Weighted template g where
  ids := ids_same h
  owner := owner_same h
  classAt := classAt_same h
  isDict := isDict_same h
  model id hid := get_same h (by simp [hid])

theorem Weighted.feeds (hw : Weighted template g) {tops : List String} {value : Json} :
    Feeds g tops value ↔ Feeds template tops value := by
  simp only [Feeds, hw.classAt]

theorem Weighted.path_nil_iff (hw : Weighted template g) (id : String) :
    (pathTo (experts template) g id).1 = [] ↔
      (pathTo (experts template) template id).1 = [] := by
  rw [lora_paths.path_nil_iff, lora_paths.path_nil_iff, hw.feeds]
  by_cases hid : id ∈ experts template
  · simp [hid]
  · rw [hw.model id hid]

theorem mem_experts {id : String} (h : id ∈ experts template) : template.lookup id ≠ none := by
  rcases List.mem_append.mp h with h | h
  · exact owner_lookup (Option.mem_toList.mp h)
  · exact owner_lookup (Option.mem_toList.mp h)

/-- A chain between two anchors, from the loader to the node `shiftId`. -/
structure Injected (g g' : Graph) (modelId shiftId : String) (next : Nat)
    (loras : List ResolvedLoraRef) : Prop where
  fresh : ∀ k, next ≤ k → g.lookup (toString k) = none
  linked : Linked g' next (link modelId 0) loras
  others : ∀ id, id ≠ shiftId →
    (∀ k, next ≤ k → k < next + loras.length → id ≠ toString k) → g'.lookup id = g.lookup id
  shift : g'.lookup shiftId =
    (g.lookup shiftId).map (·.write [("model", lastLink next (link modelId 0) loras)])
  length : g'.length = g.length + loras.length
  owner : ∀ anchor id, owner g anchor = some id → owner g' anchor = some id

theorem injectBetween_spec {py : Builtins} {loras : List ResolvedLoraRef}
    {modelAnchor shiftAnchor : String} (hne : loras ≠ [])
    (h : injectWanCoreLorasBetween py loras modelAnchor shiftAnchor g = .ok g') :
    ∃ modelId shiftId next, owner g modelAnchor = some modelId ∧
      owner g shiftAnchor = some shiftId ∧ nextId py 100 g = .ok next ∧
      Injected g g' modelId shiftId next (loras.take wanMaxLoras) := by
  unfold injectWanCoreLorasBetween at h
  rw [if_neg hne] at h
  obtain ⟨modelId, hmodel, h⟩ := bind_ok h
  obtain ⟨shiftId, hshift, h⟩ := bind_ok h
  obtain ⟨next, hnext, h⟩ := bind_ok h
  obtain ⟨_, -, h⟩ := bind_ok h
  have hfresh : ∀ k, next ≤ k → g.lookup (toString k) = none := fun k => nextId_fresh hnext
  obtain ⟨gc, heq, hc⟩ := chainCore_spec hfresh (link modelId 0) (loras.take wanMaxLoras)
  rw [heq] at h
  cases h
  have hold : ∀ k, next ≤ k → toString k ≠ shiftId := by
    rintro k hk rfl
    exact owner_lookup (findOr_ok hshift) (hfresh k hk)
  refine ⟨modelId, shiftId, next, findOr_ok hmodel, findOr_ok hshift, hnext, hfresh, ?_, ?_, ?_,
    ?_, ?_⟩
  · apply hc.linked.congr
    intro k hk _
    rw [lookup_write, if_neg (hold k hk)]
  · intro id hid hnew
    rw [lookup_write, if_neg hid, hc.others id hnew]
  · rw [lookup_write, if_pos rfl, hc.others shiftId fun k hk _ => (hold k hk).symm]
  · rw [length_write, hc.length]
  · intro anchor id hid
    rw [owner_write, hc.owner anchor id hid]

theorem Injected.inputsAt_shift {modelId shiftId : String} {next : Nat}
    {loras : List ResolvedLoraRef} (h : Injected g g' modelId shiftId next loras) :
    inputsAt g' shiftId =
      (inputsAt g shiftId).write [("model", lastLink next (link modelId 0) loras)] := by
  unfold inputsAt
  rw [h.shift]
  cases g.lookup shiftId <;> rfl

theorem Injected.classAt {modelId shiftId : String} {next : Nat}
    {loras : List ResolvedLoraRef} (h : Injected g g' modelId shiftId next loras) {id : String}
    (hid : ∀ k, next ≤ k → k < next + loras.length → id ≠ toString k) :
    graph.classAt g' id = graph.classAt g id := by
  unfold graph.classAt
  by_cases hshift : id = shiftId
  · rw [hshift, h.shift]
    cases g.lookup shiftId <;> rfl
  · rw [h.others id hshift hid]

theorem get_write_self {inputs : Inputs} (h : inputs.isDict = true) (key : String)
    (value : Json) : (inputs.write [(key, value)]).get key = value := by
  cases inputs with
  | dict fields =>
    change Json.get (set fields key value) key = value
    rw [Json.get, lookup_set_self]
    rfl
  | absent => cases h
  | other _ => cases h

theorem get_write_ne {inputs : Inputs} {patch : Fields} {key : String}
    (h : ∀ e ∈ patch, e.1 ≠ key) : (inputs.write patch).get key = inputs.get key := by
  cases inputs with
  | dict fields => simp only [Inputs.write, Inputs.get, Json.get, lookup_update_of_not_mem _ _ h]
  | absent => rfl
  | other _ => rfl

theorem get_of_not_isDict {inputs : Inputs} (h : inputs.isDict = false) (key : String) :
    inputs.get key = .null := by
  cases inputs with
  | dict _ => cases h
  | absent => rfl
  | other _ => rfl

theorem isDict_write (inputs : Inputs) (patch : Fields) :
    (inputs.write patch).isDict = inputs.isDict := by
  cases inputs <;> rfl

theorem take_map_entry {loras : List ResolvedLoraRef} :
    (loras.take wanMaxLoras).map entry = loras.map entry ↔ loras.length ≤ wanMaxLoras := by
  constructor
  · intro h
    have hlen := congrArg List.length h
    simp only [List.length_map, List.length_take] at hlen
    omega
  · intro h
    rw [List.take_of_length_le h]

/-- A graph in which a chain stands as it was inserted carries the LoRAs of the
chain exactly when none of them was cut off and the chain has its place. -/
theorem onPath_iff {base : Graph} {modelAnchor shiftAnchor modelId shiftId : String}
    {next : Nat} {loras : List ResolvedLoraRef} (hne : loras ≠ [])
    (hmodel : owner template modelAnchor = some modelId) (hmodelTop : modelId ∈ experts template)
    (hshift : owner template shiftAnchor = some shiftId)
    (hi : Injected base g modelId shiftId next (loras.take wanMaxLoras))
    (hold : ∀ id ∈ experts template, base.lookup id ≠ none)
    (hdict : (inputsAt base shiftId).isDict = (inputsAt template shiftId).isDict)
    (hl : Linked g' next (link modelId 0) (loras.take wanMaxLoras))
    (hinputs : inputsAt g' shiftId = inputsAt g shiftId) (hlen : g.length ≤ g'.length) :
    OnPath template g' modelAnchor shiftAnchor loras ↔
      loras.length ≤ wanMaxLoras ∧ Placed template shiftAnchor := by
  have htops : ∀ k, next ≤ k → toString k ∉ experts template :=
    fun k hk hmem => hold _ hmem (hi.fresh k hk)
  have hplaced : Placed template shiftAnchor ↔
      (inputsAt base shiftId).isDict = true ∧ shiftId ∉ experts template := by
    simp only [Placed, hshift, Option.some.injEq, forall_eq', hdict]
  simp only [OnPath, hshift]
  rw [hplaced]
  by_cases hwell : (inputsAt base shiftId).isDict = true ∧ shiftId ∉ experts template
  · have hpath := path_linked hl htops hmodelTop hwell.2
      (by rw [hinputs, hi.inputsAt_shift, get_write_self hwell.1])
      (by have := hi.length; omega)
    rw [hpath]
    simp only [take_map_entry, hne, hmodel, false_or, and_true, hwell, not_false_eq_true]
  · have hnil : (pathTo (experts template) g' shiftId).1 = [] := by
      rw [path_nil_iff]
      by_cases htop : shiftId ∈ experts template
      · exact Or.inl htop
      · have hno : (inputsAt base shiftId).isDict = false := by
          simpa [htop] using hwell
        refine Or.inr ?_
        rintro ⟨id, hid, -⟩
        rw [hinputs, hi.inputsAt_shift,
          get_of_not_isDict (by rw [isDict_write, hno])] at hid
        cases hid
    rw [hnil]
    simp only [hwell, and_false, iff_false, not_and]
    intro h
    exact absurd (List.map_eq_nil_iff.mp h.symm) hne

theorem mem_experts_model {id : String} (h : owner template "%WAN_MODEL%" = some id) :
    id ∈ experts template := List.mem_append_left _ (Option.mem_toList.mpr h)

theorem mem_experts_low {id : String} (h : owner template "%WAN_MODEL_LOW%" = some id) :
    id ∈ experts template := List.mem_append_right _ (Option.mem_toList.mpr h)

theorem Weighted.lookup (hw : Weighted template g) {id : String}
    (h : template.lookup id ≠ none) : g.lookup id ≠ none := by
  have hmem := mem_ids_of_lookup h
  rw [← hw.ids] at hmem
  intro hnone
  obtain ⟨e, he, rfl⟩ := List.mem_map.mp hmem
  have hne := List.lookup_eq_none_iff.mp hnone e he
  simp at hne

theorem Injected.lookup {modelId shiftId : String} {next : Nat} {loras : List ResolvedLoraRef}
    (h : Injected g g' modelId shiftId next loras) {id : String} (hid : g.lookup id ≠ none) :
    g'.lookup id ≠ none := by
  by_cases hshift : id = shiftId
  · rw [hshift] at hid ⊢
    rw [h.shift]
    simpa using hid
  · rw [h.others id hshift]
    · exact hid
    · rintro k hk - rfl
      exact hid (h.fresh k hk)

/-- Nothing to insert: what a graph carries is what the template carries. -/
theorem onPath_nil_iff (hw : Weighted template g) {modelAnchor shiftAnchor : String} :
    OnPath template g modelAnchor shiftAnchor [] ↔ Bare template shiftAnchor := by
  unfold OnPath Bare
  cases hshift : owner template shiftAnchor with
  | none => simp
  | some id =>
    simp only [Option.some.injEq, forall_eq', List.map_nil, true_or, and_true]
    exact hw.path_nil_iff id

theorem injectBetween_nil {py : Builtins} {modelAnchor shiftAnchor : String}
    (h : injectWanCoreLorasBetween py [] modelAnchor shiftAnchor g = .ok g') : g' = g := by
  cases h
  rfl

theorem single_iff {py : Builtins} {loras : List ResolvedLoraRef} (hw : Weighted template g)
    (h : injectWanCoreLorasBetween py loras "%WAN_MODEL%" "%WAN_SHIFT%" g = .ok g') :
    OnPath template g' "%WAN_MODEL%" "%WAN_SHIFT%" loras ↔ FitsSingle template loras := by
  unfold FitsSingle
  by_cases hne : loras = []
  · subst hne
    rw [injectBetween_nil h, if_pos rfl]
    exact onPath_nil_iff hw
  · rw [if_neg hne]
    obtain ⟨modelId, shiftId, next, hmodel, hshift, -, hi⟩ := injectBetween_spec hne h
    rw [hw.owner] at hmodel hshift
    exact onPath_iff hne hmodel (mem_experts_model hmodel) hshift hi
      (fun id hid => hw.lookup (mem_experts hid)) (hw.isDict _) hi.linked rfl (le_refl _)

theorem target_some {value : Json} {id : String} (h : target value = some id) :
    value = link id 0 := by
  unfold target at h
  split at h
  · cases h
    rfl
  · cases h

/-- A link leads to a LoRA loader when it did so before, or when it was a link to
the missing node that is now the only new one. -/
theorem feeds_of_one {modelId shiftId : String} {next : Nat} {lora : ResolvedLoraRef}
    (hw : Weighted template g) (hi : Injected g g' modelId shiftId next [lora]) {value : Json} :
    Feeds g' (experts template) value ↔
      Feeds template (experts template) value ∨ value = link (toString next) 0 := by
  have hnew : classAt g' (toString next) = .str "LoraLoaderModelOnly" := by
    rw [classAt, hi.linked.1]
    rfl
  have hclass : ∀ id, id ≠ toString next → classAt g' id = classAt template id := by
    intro id hid
    rw [← hw.classAt]
    apply hi.classAt
    rintro k hk hlt rfl
    have hlen : ([lora] : List ResolvedLoraRef).length = 1 := rfl
    have hknext : k = next := by omega
    exact hid (by rw [hknext])
  have htop : toString next ∉ experts template := by
    intro hmem
    exact hw.lookup (mem_experts hmem) (hi.fresh next (le_refl _))
  constructor
  · rintro ⟨id, hid, hnot, hlora⟩
    by_cases heq : id = toString next
    · rw [heq] at hid
      exact Or.inr (target_some hid)
    · rw [hclass id heq] at hlora
      exact Or.inl ⟨id, hid, hnot, hlora⟩
  · rintro (⟨id, hid, hnot, hlora⟩ | rfl)
    · refine ⟨id, hid, hnot, ?_⟩
      rw [hclass id, hlora]
      rintro rfl
      have hnone : graph.classAt g (toString next) = .other "None" := by
        rw [graph.classAt, hi.fresh next (le_refl _)]
        rfl
      rw [← hw.classAt, hnone] at hlora
      cases hlora
    · refine ⟨toString next, rfl, htop, ?_⟩
      rw [hnew]
      decide

theorem low_path_of_one {py : Builtins} {modelId shiftId lowId : String} {next : Nat}
    {lora : ResolvedLoraRef} (hw : Weighted template g)
    (hi : Injected g g' modelId shiftId next [lora]) (hnext : nextId py 100 g = .ok next)
    (hlow : owner template "%WAN_SHIFT_LOW%" = some lowId) (hne : lowId ≠ shiftId) :
    OnPath template g' "%WAN_MODEL_LOW%" "%WAN_SHIFT_LOW%" [] ↔
      Bare template "%WAN_SHIFT_LOW%" ∧ NoDanglingLink py template := by
  rw [nextId_congr hw.ids] at hnext
  simp only [OnPath, Bare, NoDanglingLink, hlow, hnext, Option.some.injEq, Except.ok.injEq,
    forall_eq', List.map_nil, true_or, and_true]
  rw [path_nil_iff, path_nil_iff]
  by_cases htop : lowId ∈ experts template
  · simp [htop]
  · have hinputs : inputsAt g' lowId = inputsAt g lowId := by
      unfold inputsAt
      rw [hi.others lowId hne]
      rintro k hk - rfl
      exact hw.lookup (owner_lookup hlow) (hi.fresh k hk)
    rw [hinputs, hw.model lowId htop, feeds_of_one hw hi]
    simp only [htop, false_or, not_or]
    constructor
    · rintro ⟨hfeeds, hlink⟩
      refine ⟨hfeeds, ?_⟩
      rintro id k rfl rfl
      exact Or.inr hlink
    · rintro ⟨hfeeds, hlink⟩
      exact ⟨hfeeds, (hlink lowId next rfl rfl).resolve_left htop⟩

/-- Two chains, each between its own anchors, or both on one node. -/
theorem two_paths_iff {py : Builtins} {a b : ResolvedLoraRef} {rest : List ResolvedLoraRef}
    (hw : Weighted template g) {gh : Graph}
    (hhigh : injectWanCoreLorasBetween py (a :: rest) "%WAN_MODEL%" "%WAN_SHIFT%" g = .ok gh)
    (hlow : injectWanCoreLorasBetween py [b] "%WAN_MODEL_LOW%" "%WAN_SHIFT_LOW%" gh = .ok g')
    (hd : isDual template = true) :
    (OnPath template g' "%WAN_MODEL%" "%WAN_SHIFT%" (a :: rest) ∧
      OnPath template g' "%WAN_MODEL_LOW%" "%WAN_SHIFT_LOW%" [b]) ↔
      FitsDual py template (a :: b :: rest) := by
  obtain ⟨m, s, n, hm, hs, -, hi⟩ := injectBetween_spec (List.cons_ne_nil a rest) hhigh
  obtain ⟨ml, sl, nl, hml, hsl, -, hil⟩ := injectBetween_spec (List.cons_ne_nil b []) hlow
  rw [hw.owner] at hm hs
  obtain ⟨hmodelLow, hshiftLow⟩ := Bool.and_eq_true_iff.mp hd
  obtain ⟨ml', hml'⟩ := Option.isSome_iff_exists.mp hmodelLow
  obtain ⟨sl', hsl'⟩ := Option.isSome_iff_exists.mp hshiftLow
  have hml2 := hi.owner _ _ ((hw.owner _).trans hml')
  have hsl2 := hi.owner _ _ ((hw.owner _).trans hsl')
  rw [hml2] at hml
  rw [hsl2] at hsl
  obtain rfl := Option.some.inj hml
  obtain rfl := Option.some.inj hsl
  have hold : ∀ id ∈ experts template, g.lookup id ≠ none :=
    fun id hid => hw.lookup (mem_experts hid)
  have hslOld : g.lookup sl' ≠ none := hw.lookup (owner_lookup hsl')
  have hdictLow : (inputsAt gh sl').isDict = (inputsAt template sl').isDict := by
    rw [← hw.isDict]
    by_cases heq : sl' = s
    · rw [heq, hi.inputsAt_shift, isDict_write]
    · unfold inputsAt
      rw [hi.others sl' heq]
      rintro k hk - rfl
      exact hslOld (hi.fresh k hk)
  have hlowIff : OnPath template g' "%WAN_MODEL_LOW%" "%WAN_SHIFT_LOW%" [b] ↔
      [b].length ≤ wanMaxLoras ∧ Placed template "%WAN_SHIFT_LOW%" :=
    onPath_iff (List.cons_ne_nil b []) hml' (mem_experts_low hml') hsl' hil
      (fun id hid => hi.lookup (hold id hid)) hdictLow hil.linked rfl (le_refl _)
  have hone : [b].length ≤ wanMaxLoras := by simp [wanMaxLoras]
  rw [hlowIff]
  simp only [FitsDual, hm, hs, hml', hsl', hone, true_and]
  by_cases heq : sl' = s
  · -- the low chain takes the place of the high one
    subst heq
    simp only [ne_eq, not_true_eq_false, false_or, Option.some.injEq]
    have hpath : Placed template "%WAN_SHIFT_LOW%" →
        pathTo (experts template) g' sl' = ([entry b], some ml') := by
      intro hplaced
      obtain ⟨hdict, htop⟩ := hplaced sl' hsl'
      refine path_linked hil.linked (fun k hk hmem => ?_) (mem_experts_low hml') htop ?_ ?_
      · exact hi.lookup (hold _ hmem) (hil.fresh k hk)
      · rw [hil.inputsAt_shift, get_write_self (hdictLow.trans hdict)]
      · have := hil.length
        omega
    have hsame : Placed template "%WAN_SHIFT%" ↔ Placed template "%WAN_SHIFT_LOW%" := by
      simp only [Placed, hs, hsl']
    rw [hsame]
    constructor
    · rintro ⟨hhighPath, hplaced⟩
      simp only [OnPath, hs, hm, hpath hplaced] at hhighPath
      obtain ⟨hmap, htop⟩ := hhighPath
      obtain ⟨hab, hrest⟩ := List.cons_eq_cons.mp hmap
      have hnil : rest = [] := List.map_eq_nil_iff.mp hrest.symm
      subst hnil
      have hmodels : ml' = m := by simpa using htop
      exact ⟨by decide, hplaced, hplaced, rfl, (entry_injective hab).symm, hmodels.symm⟩
    · rintro ⟨-, hplaced, -, rfl, rfl, rfl⟩
      refine ⟨?_, hplaced⟩
      simp only [OnPath, hs, hm, hpath hplaced]
      exact ⟨rfl, Or.inr trivial⟩
  · have hne : ¬ s = sl' := fun h => heq h.symm
    have hsOld : gh.lookup s ≠ none := hi.lookup (hw.lookup (owner_lookup hs))
    have hinputs : inputsAt g' s = inputsAt gh s := by
      unfold inputsAt
      rw [hil.others s hne]
      rintro k hk - rfl
      exact hsOld (hil.fresh k hk)
    have hlinked : Linked g' n (link m 0) ((a :: rest).take wanMaxLoras) := by
      apply hi.linked.congr
      intro k hk hlt
      have hthere : gh.lookup (toString k) ≠ none :=
        linked_lookup hi.linked hk hlt
      apply hil.others
      · rintro rfl
        exact hslOld (hi.fresh k hk)
      · intro j hj _ hkj
        rw [hkj] at hthere
        exact hthere (hil.fresh j hj)
    have hhighIff := onPath_iff (List.cons_ne_nil a rest) hm (mem_experts_model hm) hs hi hold
      (hw.isDict s) hlinked hinputs (by have := hil.length; omega)
    rw [hhighIff]
    simp only [List.length_cons, Option.some.injEq, ne_eq, hne, not_false_eq_true, true_or,
      and_true]
    constructor
    · rintro ⟨⟨hlen, hhigh⟩, hlow⟩
      exact ⟨by omega, hhigh, hlow⟩
    · rintro ⟨hlen, hhigh, hlow⟩
      exact ⟨⟨by omega, hhigh⟩, hlow⟩

theorem dual_iff {py : Builtins} {loras : List ResolvedLoraRef} (hw : Weighted template g)
    (hd : isDual template = true) (h : injectWanCoreLoras py loras g = .ok g') :
    (OnPath template g' "%WAN_MODEL%" "%WAN_SHIFT%" (loras.eraseIdx 1) ∧
      OnPath template g' "%WAN_MODEL_LOW%" "%WAN_SHIFT_LOW%" loras[1]?.toList) ↔
      FitsDual py template loras := by
  have hdual : isDual g = true := by simpa only [isDual, hw.owner] using hd
  rw [injectWanCoreLoras, if_pos hdual] at h
  obtain ⟨gh, hhigh, hlow⟩ := bind_ok h
  match loras, hhigh, hlow with
  | [], hhigh, hlow =>
    rw [injectBetween_nil hlow, injectBetween_nil hhigh]
    exact and_congr (onPath_nil_iff hw) (onPath_nil_iff hw)
  | [a], hhigh, hlow =>
    rw [injectBetween_nil hlow]
    obtain ⟨m, s, n, hm, hs, hnext, hi⟩ := injectBetween_spec (List.cons_ne_nil a []) hhigh
    rw [hw.owner] at hm hs
    obtain ⟨sl, hsl⟩ := Option.isSome_iff_exists.mp (Bool.and_eq_true_iff.mp hd).2
    have hhighIff := onPath_iff (List.cons_ne_nil a []) hm (mem_experts_model hm) hs hi
      (fun id hid => hw.lookup (mem_experts hid)) (hw.isDict s) hi.linked rfl (le_refl _)
    change OnPath template gh "%WAN_MODEL%" "%WAN_SHIFT%" [a] ∧
      OnPath template gh "%WAN_MODEL_LOW%" "%WAN_SHIFT_LOW%" [] ↔ _
    have hone : [a].length ≤ wanMaxLoras := by simp [wanMaxLoras]
    rw [hhighIff]
    simp only [FitsDual, hone, true_and, hs, hsl, ne_eq, Option.some.injEq]
    by_cases heq : s = sl
    · -- the chain also stands in front of the low sampler
      subst heq
      simp only [not_true_eq_false, and_false, iff_false, not_and]
      intro hplaced hpath
      obtain ⟨hdict, htop⟩ := hplaced s hs
      have hchain := path_linked hi.linked
        (fun k hk hmem => hw.lookup (mem_experts hmem) (hi.fresh k hk)) (mem_experts_model hm) htop
        (by rw [hi.inputsAt_shift, get_write_self ((hw.isDict s).trans hdict)])
        (by have := hi.length; omega)
      simp only [OnPath, hsl, hchain] at hpath
      cases hpath.1
    · rw [low_path_of_one hw hi hnext hsl fun h => heq h.symm]
      simp only [heq, not_false_eq_true, and_true]
  | a :: b :: rest, hhigh, hlow => exact two_paths_iff hw hhigh hlow hd

theorem core_iff {py : Builtins} {loras : List ResolvedLoraRef} (hw : Weighted template g)
    (h : injectWanCoreLoras py loras g = .ok g') :
    CarriesCore template g' loras ↔
      if isDual template then FitsDual py template loras else FitsSingle template loras := by
  unfold CarriesCore
  split
  · rename_i hd
    exact dual_iff hw hd h
  · rename_i hd
    have hdual : isDual g = false := by simpa only [isDual, hw.owner, Bool.not_eq_true] using hd
    rw [injectWanCoreLoras, hdual] at h
    exact single_iff hw h

theorem carriesCore_congr (h : SameReads g g') (loras : List ResolvedLoraRef) :
    CarriesCore template g' loras ↔ CarriesCore template g loras := by
  simp only [CarriesCore, OnPath, pathTo_congr h]

end Core

end image_gen.lora_paths

-- When the edits of a graph come through: what each injector asks of the anchors of a
-- graph, of the classes and the inputs of its nodes, and of the entry of the model.
import ImageGen.GraphShape

namespace image_gen.preparation

open image_gen.graph image_gen.graph_edits image_gen.graph_shape image_gen.injectors
  image_gen.json image_gen.lora_rewiring image_gen.py_dict image_gen.py_str image_gen.requests
  image_gen.resolved_seed image_gen.results
open image_gen.lora_chain (DecimalIds Numberable RoomFor)

/-! ## LoRA nodes -/

section Loras

variable {py : Builtins} {g g' : Graph} {loras : List ResolvedLoraRef}

theorem declared_iff (anchor : String) :
    Declared g anchor ↔ ∃ e ∈ g, e.2.declares anchor = true := by
  unfold Declared owner
  rw [Option.isSome_map, List.find?_isSome]

/-- A node declares what its title names. -/
theorem declares_of_title {node node' : Node} (h : node.title = node'.title) (anchor : String) :
    node.declares anchor = node'.declares anchor := by
  unfold Node.declares titleAnchors
  rw [h]

/-- The new nodes are those of the LoRAs. -/
def Titled (new : Graph) (loras : List ResolvedLoraRef) : Prop :=
  new.map (·.2.title) = loras.map fun lora => (coreNode lora .null).title

theorem Titled.declared {new : Graph} (h : Titled new loras) (anchor : String) :
    Declared new anchor ↔ ∃ lora ∈ loras, (coreNode lora .null).declares anchor = true := by
  rw [declared_iff]
  constructor
  · rintro ⟨e, he, hd⟩
    have hmem := List.mem_map_of_mem (f := fun e : String × Node => e.2.title) he
    rw [h] at hmem
    obtain ⟨lora, hl, htitle⟩ := List.mem_map.mp hmem
    exact ⟨lora, hl, (declares_of_title htitle anchor).trans hd⟩
  · rintro ⟨lora, hl, hd⟩
    have hmem := List.mem_map_of_mem (f := fun lora => (coreNode lora .null).title) hl
    rw [← h] at hmem
    obtain ⟨e, he, htitle⟩ := List.mem_map.mp hmem
    exact ⟨e, he, (declares_of_title htitle anchor).trans hd⟩

theorem grown_insertNode {id : String} {node : Node} {n : Nat} (hid : id = toString n)
    (hfresh : g.lookup id = none)
    (hloader : lora_chain.isLoraLoader node.classType = true ∧ node.inputs.isDict = true) :
    Grown g (insertNode g id node) [(id, node)] where
  shape_eq := by
    rw [insertNode, set_of_lookup_none hfresh]
    unfold shape view
    rw [List.map_append]
  fresh := by simpa using hfresh
  numbered := by simpa using ⟨n, hid⟩
  loader := by simpa using hloader

theorem grown_chainCore {next : Nat} (hfresh : ∀ k, next ≤ k → g.lookup (toString k) = none)
    (model : Json) (loras : List ResolvedLoraRef) :
    ∃ new, Grown g (chainCore g next model loras).1 new ∧ Titled new loras := by
  induction loras generalizing g next model with
  | nil => exact ⟨[], .of_sameShape (.refl g), rfl⟩
  | cons lora rest ih =>
    have hfirst : Grown g (insertNode g (toString next) (coreNode lora model))
        [(toString next, coreNode lora model)] :=
      grown_insertNode rfl (hfresh next (by omega)) ⟨rfl, rfl⟩
    have hfresh1 : ∀ k, next + 1 ≤ k →
        (insertNode g (toString next) (coreNode lora model)).lookup (toString k) = none := by
      intro k hk
      rw [insertNode, lookup_set_ne _ _ (lora_chain.toString_ne (by omega)), hfresh k (by omega)]
    obtain ⟨new, hgrown, htitled⟩ := ih hfresh1 (link (toString next) 0)
    refine ⟨_, hfirst.trans hgrown, ?_⟩
    unfold Titled at *
    rw [List.map_append, htitled]
    rfl

/-- One path of a core workflow: the nodes come last, and are numbered. -/
theorem grown_between {modelAnchor shiftAnchor : String}
    (h : injectWanCoreLorasBetween py loras modelAnchor shiftAnchor g = .ok g') :
    ∃ new, Grown g g' new ∧ Titled new (loras.take wanMaxLoras) := by
  unfold injectWanCoreLorasBetween at h
  split_ifs at h with hnil
  · cases h
    exact ⟨[], .of_sameShape (.refl g), by rw [hnil]; rfl⟩
  · obtain ⟨modelId, -, h⟩ := bind_ok h
    obtain ⟨shiftId, -, h⟩ := bind_ok h
    obtain ⟨next, hnext, h⟩ := bind_ok h
    obtain ⟨_, -, h⟩ := bind_ok h
    obtain ⟨new, hgrown, htitled⟩ :=
      grown_chainCore (fun k hk => lora_chain.nextId_fresh hnext hk) (link modelId 0)
        (loras.take wanMaxLoras)
    cases h
    exact ⟨new, hgrown.after (view_write fun _ _ => rfl), htitled⟩

theorem between_ok {modelAnchor shiftAnchor : String} (hnil : loras ≠ [])
    (h : injectWanCoreLorasBetween py loras modelAnchor shiftAnchor g = .ok g') :
    ∃ next, nextId py 100 g = .ok next ∧
      (∀ i < (loras.take wanMaxLoras).length, FitsStr (next + i)) ∧
      g'.map (·.1) = g.map (·.1) ++
        (List.range' next (loras.take wanMaxLoras).length).map fun k => toString k := by
  unfold injectWanCoreLorasBetween at h
  rw [if_neg hnil] at h
  obtain ⟨modelId, -, h⟩ := bind_ok h
  obtain ⟨shiftId, -, h⟩ := bind_ok h
  obtain ⟨next, hnext, h⟩ := bind_ok h
  obtain ⟨_, hstr, h⟩ := bind_ok h
  cases h
  refine ⟨next, hnext, lora_chain.succeeds_strAll.mp ⟨_, hstr⟩, ?_⟩
  rw [ids_same (K := fun _ _ => false) (view_write fun _ _ => rfl)]
  exact lora_chain.ids_chainCore (fun k hk => lora_chain.nextId_fresh hnext hk) _ _

theorem wanMaxLoras_small (loras : List ResolvedLoraRef) :
    100 + (loras.take wanMaxLoras).length < 1000 := by
  have hlen : (loras.take wanMaxLoras).length ≤ 5 := List.length_take_le _ _
  omega

theorem succeeds_between {modelAnchor shiftAnchor : String} :
    Succeeds (injectWanCoreLorasBetween py loras modelAnchor shiftAnchor g) ↔
      (loras ≠ [] → Declared g modelAnchor ∧ Declared g shiftAnchor ∧
        Numberable py g (loras.take wanMaxLoras).length) := by
  unfold injectWanCoreLorasBetween
  split_ifs with hnil
  · simp [hnil, pure, Except.pure]
  · rw [imp_iff_right hnil]
    refine succeeds_bind_iff succeeds_findOr fun modelId _ => ?_
    refine succeeds_bind_iff succeeds_findOr fun shiftId _ => ?_
    rw [← lora_chain.succeeds_numbering (.inr (wanMaxLoras_small loras))]
    refine succeeds_bind_congr fun next _ => ?_
    rw [← and_true (Succeeds (strAll _ _))]
    exact succeeds_bind_iff Iff.rfl fun _ _ => iff_true_intro ⟨_, rfl⟩

theorem isDual_iff : isDual g = true ↔
    Declared g "%WAN_MODEL_LOW%" ∧ Declared g "%WAN_SHIFT_LOW%" := by
  unfold isDual Declared
  rw [Bool.and_eq_true]

theorem highLoras_eq_nil : highLoras loras = [] ↔ loras = [] := by
  unfold highLoras
  split <;> simp

/-- The LoRAs that get nodes in a core workflow, in the order of the nodes. -/
def coreLoras (g : Graph) (loras : List ResolvedLoraRef) : List ResolvedLoraRef :=
  if isDual g then (highLoras loras).take wanMaxLoras ++ (lowLoras loras).take wanMaxLoras
  else loras.take wanMaxLoras

theorem grown_injectWanCoreLoras (h : injectWanCoreLoras py loras g = .ok g') :
    ∃ new, Grown g g' new ∧ Titled new (coreLoras g loras) := by
  unfold injectWanCoreLoras at h
  unfold coreLoras
  split_ifs at h ⊢
  · obtain ⟨g1, h1, h⟩ := bind_ok h
    obtain ⟨high, hhigh, thigh⟩ := grown_between h1
    obtain ⟨low, hlow, tlow⟩ := grown_between h
    refine ⟨high ++ low, hhigh.trans hlow, ?_⟩
    unfold Titled at *
    rw [List.map_append, List.map_append, thigh, tlow]
  · exact grown_between h

/-- The second chain of a dual graph takes its numbers after the first. -/
theorem numberable_second {high low : List ResolvedLoraRef} {g1 : Graph} (hnil : high ≠ [])
    (h : injectWanCoreLorasBetween py high "%WAN_MODEL%" "%WAN_SHIFT%" g = .ok g1) :
    Numberable py g1 (low.take wanMaxLoras).length ↔
      Numberable py g ((high.take wanMaxLoras).length + (low.take wanMaxLoras).length) := by
  obtain ⟨next, hnext, hfit, hids⟩ := between_ok hnil h
  have hpos : 0 < (high.take wanMaxLoras).length := by
    rw [List.length_pos_iff]
    cases high with
    | nil => exact absurd rfl hnil
    | cons lora rest => exact List.cons_ne_nil _ _
  have hlen : (high.take wanMaxLoras).length ≤ 5 := List.length_take_le _ _
  have hlow : (low.take wanMaxLoras).length ≤ 5 := List.length_take_le _ _
  obtain ⟨hdecimal, hnext1⟩ := lora_chain.numberable_after hpos hnext hfit hids
  have hroom1 : (∀ i < (low.take wanMaxLoras).length,
      FitsStr (next + (high.take wanMaxLoras).length + i)) ↔ RoomFor py g1 _ :=
    lora_chain.fits_iff_room hnext1 (.inr (by omega))
  have hroom : (∀ i < (high.take wanMaxLoras).length + (low.take wanMaxLoras).length,
      FitsStr (next + i)) ↔ RoomFor py g _ :=
    lora_chain.fits_iff_room hnext (.inr (by omega))
  constructor
  · intro h1
    refine ⟨lora_chain.succeeds_nextId.mp ⟨next, hnext⟩, hroom.mp fun i hi => ?_⟩
    by_cases hi' : i < (high.take wanMaxLoras).length
    · exact hfit i hi'
    · have hfits := hroom1.mpr h1.room (i - (high.take wanMaxLoras).length) (by omega)
      exact lora_chain.fitsStr_mono hfits (by omega)
  · intro hall
    refine ⟨hdecimal, hroom1.mp fun i hi => ?_⟩
    have hfits := hroom.mpr hall.room ((high.take wanMaxLoras).length + i) (by omega)
    exact lora_chain.fitsStr_mono hfits (by omega)

theorem Numberable.fewer {count count' : Nat} (h : Numberable py g count) (hle : count' ≤ count) :
    Numberable py g count' :=
  ⟨h.decimal, fun n hn i hi => h.room n hn i (hi.trans_le hle)⟩

theorem succeeds_injectWanCoreLoras : Succeeds (injectWanCoreLoras py loras g) ↔
    (loras ≠ [] → Declared g "%WAN_MODEL%" ∧ Declared g "%WAN_SHIFT%" ∧
      Numberable py g (coreLoras g loras).length) := by
  unfold injectWanCoreLoras coreLoras
  split_ifs with hdual
  · obtain ⟨hlow, hshift⟩ := isDual_iff.mp hdual
    by_cases hnil : loras = []
    · subst hnil
      refine iff_of_true ?_ (fun h => absurd rfl h)
      exact ⟨g, rfl⟩
    have hhigh : highLoras loras ≠ [] := fun h => hnil (highLoras_eq_nil.mp h)
    have hsecond : ∀ g1, injectWanCoreLorasBetween py (highLoras loras) "%WAN_MODEL%"
        "%WAN_SHIFT%" g = .ok g1 → (Succeeds (injectWanCoreLorasBetween py (lowLoras loras)
          "%WAN_MODEL_LOW%" "%WAN_SHIFT_LOW%" g1) ↔ Numberable py g
            (((highLoras loras).take wanMaxLoras).length +
              ((lowLoras loras).take wanMaxLoras).length)) := by
      intro g1 h1
      obtain ⟨new, hgrown, -⟩ := grown_between h1
      rw [succeeds_between, ← numberable_second hhigh h1]
      simp only [hgrown.declared_old hlow, hgrown.declared_old hshift, true_and]
      by_cases hlows : lowLoras loras = []
      · have hone := (succeeds_between.mp ⟨g1, h1⟩ hhigh).2.2
        rw [numberable_second hhigh h1, hlows]
        exact iff_of_true (fun h => absurd rfl h) hone
      · exact imp_iff_right hlows
    rw [succeeds_bind_iff succeeds_between hsecond, imp_iff_right hhigh, imp_iff_right hnil,
      List.length_append]
    constructor
    · rintro ⟨⟨h1, h2, -⟩, hall⟩
      exact ⟨h1, h2, hall⟩
    · rintro ⟨h1, h2, hall⟩
      exact ⟨⟨h1, h2, Numberable.fewer hall (Nat.le_add_right _ _)⟩, hall⟩
  · exact succeeds_between

/-! ## The edits of WAN graphs -/

theorem succeeds_injectWanLoraMulti {adv : Option Json} :
    Succeeds (injectWanLoraMulti loras adv g) ↔
      (loras ≠ [] → Declared g "%WAN_LORA_MULTI%") ∧ Writable g "%WAN_LORA_MULTI%" := by
  unfold injectWanLoraMulti Declared Writable
  cases owner g "%WAN_LORA_MULTI%" with
  | none => by_cases hnil : loras = [] <;> simp [hnil]
  | some id =>
    have hlast : ∀ g1, Succeeds (pure (if loras = [] then disconnectLoraMulti id g1 else g1) :
        Except GraphError Graph) ↔ True := fun g1 => iff_true_intro ⟨_, rfl⟩
    dsimp only
    rw [succeeds_bind_iff succeeds_assignOr fun g1 _ => hlast g1]
    simp

theorem sameShape_injectWanLoraMulti {adv : Option Json}
    (h : injectWanLoraMulti loras adv g = .ok g') : SameShape g g' := by
  unfold injectWanLoraMulti at h
  split at h
  · split_ifs at h
    cases h
    exact .refl g
  · next id _ =>
    obtain ⟨g1, h1, h⟩ := bind_ok h
    have hfirst : SameShape g g1 := view_assignOr (fun _ _ => rfl) h1
    have hlast : SameShape g1 g' := by
      split_ifs at h <;> cases h
      · exact view_disconnectLoraMulti (fun _ => rfl) id
      · exact .refl _
    exact hfirst.trans hlast

end Loras

section Weights

variable {py : Builtins} {cfg : ModelConfig} {g g' : Graph}

theorem free_shape (keys : List String) : Free (fun _ _ => false) keys := fun _ _ _ => rfl

theorem sameShape_injectVideoWeights (h : injectVideoWeights py cfg g = .ok g') :
    SameShape g g' :=
  view_injectVideoWeights (free_shape _) (fun _ _ => rfl) (fun _ _ => rfl) h

/-- The files that an entry of the family must name. -/
structure FilesGiven (cfg : ModelConfig) : Prop where
  vae : given cfg.vae ≠ none
  t5 : given cfg.wanT5Encoder ≠ none
  low : given cfg.wanUnetLow ≠ none

/-- What the loaders of a WAN graph need. -/
structure WeightsFit (g : Graph) : Prop where
  declared : ∀ a ∈ ["%WAN_MODEL%", "%WAN_VAE%", "%WAN_T5%"], Declared g a
  writable : ∀ a ∈ ["%WAN_MODEL%", "%WAN_MODEL_LOW%", "%WAN_VAE%", "%WAN_T5%",
    "%WAN_CLIP_VISION%"], Writable g a

theorem succeeds_injectUnetLow {caller : String} (hlow : given cfg.wanUnetLow ≠ none) :
    Succeeds (injectUnetLow caller cfg g) ↔ Writable g "%WAN_MODEL_LOW%" := by
  unfold injectUnetLow Writable
  cases owner g "%WAN_MODEL_LOW%" with
  | none => simp
  | some id =>
    cases hgiven : given cfg.wanUnetLow with
    | none => exact absurd hgiven hlow
    | some low => simp [injectUnet, succeeds_assignOr]

theorem succeeds_injectFile {caller field id : String} {file : Option String}
    {patch : String → Fields} (hfile : given file ≠ none) :
    Succeeds (injectFile caller field file patch id g) ↔ (inputsAt g id).isDict = true := by
  unfold injectFile
  cases hgiven : given file with
  | none => exact absurd hgiven hfile
  | some name => simp [succeeds_assignOr]

theorem succeeds_injectClipVision {caller : String} :
    Succeeds (injectClipVision caller cfg g) ↔ Writable g "%WAN_CLIP_VISION%" := by
  unfold injectClipVision Writable
  cases owner g "%WAN_CLIP_VISION%" with
  | none => simp
  | some id => simp [succeeds_assignOr]

/-- The node of an anchor of the template, once other edits are made. -/
theorem isDict_later {anchor id : String} (hs : SameShape g g') (hid : owner g anchor = some id) :
    (inputsAt g' id).isDict = true ↔ Writable g anchor := by
  unfold Writable
  rw [isDict_same hs, hid]
  simp

theorem succeeds_injectVideoWeights (hfiles : FilesGiven cfg) :
    Succeeds (injectVideoWeights py cfg g) ↔ WeightsFit g := by
  have hfit : WeightsFit g ↔ Declared g "%WAN_MODEL%" ∧ Declared g "%WAN_VAE%" ∧
      Declared g "%WAN_T5%" ∧ Writable g "%WAN_MODEL%" ∧ Writable g "%WAN_MODEL_LOW%" ∧
      Writable g "%WAN_VAE%" ∧ Writable g "%WAN_T5%" ∧ Writable g "%WAN_CLIP_VISION%" := by
    constructor
    · rintro ⟨hdeclared, hwritable⟩
      exact ⟨hdeclared _ (by simp), hdeclared _ (by simp), hdeclared _ (by simp),
        hwritable _ (by simp), hwritable _ (by simp), hwritable _ (by simp),
        hwritable _ (by simp), hwritable _ (by simp)⟩
    · rintro ⟨hmodel, hvae, ht5, wmodel, wlow, wvae, wt5, wclip⟩
      exact ⟨by simp [hmodel, hvae, ht5], by simp [wmodel, wlow, wvae, wt5, wclip]⟩
  rw [hfit]
  have hfree : Free (fun _ _ => false) weightInputs := free_shape _
  refine succeeds_bind_iff succeeds_findOr fun modelId hmodel => ?_
  refine succeeds_bind_iff succeeds_findOr fun vaeId hvae => ?_
  refine succeeds_bind_iff succeeds_findOr fun t5Id ht5 => ?_
  refine succeeds_bind_iff (succeeds_assignOr.trans (isDict_later (.refl g) (findOr_ok hmodel)))
    fun g1 h1 => ?_
  have s1 : SameShape g g1 := view_injectUnet hfree rfl h1
  rw [← s1.writable "%WAN_MODEL_LOW%"]
  refine succeeds_bind_iff (succeeds_injectUnetLow hfiles.low) fun g2 h2 => ?_
  have s2 : SameShape g g2 := s1.trans (view_injectUnetLow hfree (fun _ _ => rfl) h2)
  refine succeeds_bind_iff ((succeeds_injectFile hfiles.vae).trans
    (isDict_later s2 (findOr_ok hvae))) fun g3 h3 => ?_
  have s3 : SameShape g g3 := s2.trans (view_injectFile hfree (fun _ => mem_vaeInputs) h3)
  refine succeeds_bind_iff ((succeeds_injectFile hfiles.t5).trans
    (isDict_later s3 (findOr_ok ht5))) fun g4 h4 => ?_
  have s4 : SameShape g g4 := s3.trans (view_injectFile hfree (fun _ e he => by
    rw [List.mem_singleton.mp he]
    dsimp only [inputFor]
    split <;> simp [weightInputs]) h4)
  rw [← s4.writable]
  exact succeeds_injectClipVision

theorem namesFile_iff {value : Json} :
    NamesFile value ↔ value.truthy = true ∧ Succeeds (basenameOf value) := by
  constructor
  · rintro ⟨s, rfl, hs⟩
    exact ⟨decide_eq_true hs, _, rfl⟩
  · rintro ⟨htruthy, name, hname⟩
    cases value <;> try cases hname
    rename_i s
    exact ⟨s, rfl, of_decide_eq_true htruthy⟩

theorem succeeds_injectUnchecked {message id : String} {files : List (String × Json)} :
    Succeeds (injectUnchecked message g id files) ↔
      (inputsAt g id).isDict = true ∧ ∀ f ∈ files, Succeeds (basenameOf f.2) := by
  refine succeeds_bind_iff succeeds_assignOr fun g1 _ => ?_
  rw [← and_true (∀ f ∈ files, Succeeds (basenameOf f.2))]
  refine succeeds_bind_iff ?_ fun patch _ => iff_true_intro ⟨_, rfl⟩
  rw [succeeds_mapM]
  simp only [succeeds_map]

/-- What the audio nodes of a WAN graph need. -/
structure AudioFit (cfg : ModelConfig) (g : Graph) : Prop where
  assets : Declared g "%MMAUDIO_FEATURE_UTILS%" →
    ∀ asset ∈ [cfg.mmaudioVae, cfg.mmaudioSynchformer, cfg.mmaudioClip, cfg.mmaudioDiffusion],
      NamesFile asset
  diffusion : Declared g "%MMAUDIO_FEATURE_UTILS%" → Declared g "%MMAUDIO_DIFFUSION%"
  writable : Declared g "%MMAUDIO_FEATURE_UTILS%" →
    Writable g "%MMAUDIO_FEATURE_UTILS%" ∧ Writable g "%MMAUDIO_DIFFUSION%"

theorem sameShape_injectMmaudioWeights (h : injectMmaudioWeights cfg g = .ok g') :
    SameShape g g' :=
  view_injectMmaudioWeights (free_shape _) h

theorem succeeds_injectMmaudioWeights :
    Succeeds (injectMmaudioWeights cfg g) ↔ AudioFit cfg g := by
  unfold injectMmaudioWeights
  cases hfu : owner g "%MMAUDIO_FEATURE_UTILS%" with
  | none =>
    have hnot : ¬ Declared g "%MMAUDIO_FEATURE_UTILS%" := by simp [Declared, hfu]
    exact iff_of_true (succeeds_ok g) ⟨fun h => absurd h hnot, fun h => absurd h hnot,
      fun h => absurd h hnot⟩
  | some fuId =>
    have hdeclared : Declared g "%MMAUDIO_FEATURE_UTILS%" := by simp [Declared, hfu]
    dsimp only
    have hfit : AudioFit cfg g ↔
        (∀ asset ∈ [cfg.mmaudioVae, cfg.mmaudioSynchformer, cfg.mmaudioClip, cfg.mmaudioDiffusion],
          NamesFile asset) ∧ Declared g "%MMAUDIO_DIFFUSION%" ∧
        Writable g "%MMAUDIO_FEATURE_UTILS%" ∧ Writable g "%MMAUDIO_DIFFUSION%" := by
      constructor
      · exact fun h => ⟨h.assets hdeclared, h.diffusion hdeclared, h.writable hdeclared⟩
      · exact fun ⟨ha, hd, hw⟩ => ⟨fun _ => ha, fun _ => hd, fun _ => hw⟩
    rw [hfit]
    simp only [List.forall_mem_cons, List.not_mem_nil, false_implies, implies_true, and_true,
      namesFile_iff]
    split
    · next htruthy =>
      simp only [Bool.and_eq_true] at htruthy
      obtain ⟨⟨⟨hvae, hsync⟩, hclip⟩, hdiff⟩ := htruthy
      have hloaders : ∀ mdId, owner g "%MMAUDIO_DIFFUSION%" = some mdId → (Succeeds (do
          let g ← injectUnchecked (invalidInputs "inject_mmaudio_weights" fuId) g fuId
            [("vae_model", cfg.mmaudioVae), ("synchformer_model", cfg.mmaudioSynchformer),
              ("clip_model", cfg.mmaudioClip)]
          injectUnchecked (invalidInputs "inject_mmaudio_weights" mdId) g mdId
            [("mmaudio_model", cfg.mmaudioDiffusion)]) ↔
          (Writable g "%MMAUDIO_FEATURE_UTILS%" ∧
            ∀ f ∈ [("vae_model", cfg.mmaudioVae), ("synchformer_model", cfg.mmaudioSynchformer),
              ("clip_model", cfg.mmaudioClip)], Succeeds (basenameOf f.2)) ∧
          Writable g "%MMAUDIO_DIFFUSION%" ∧
            ∀ f ∈ [("mmaudio_model", cfg.mmaudioDiffusion)], Succeeds (basenameOf f.2)) := by
        intro mdId hmd
        refine succeeds_bind_iff (succeeds_injectUnchecked.trans
          (and_congr_left' (isDict_later (.refl g) hfu))) fun g1 h1 => ?_
        have s1 : SameShape g g1 := view_injectUnchecked (fun _ _ => rfl) h1
        exact succeeds_injectUnchecked.trans (and_congr_left' (isDict_later s1 hmd))
      refine (succeeds_bind_iff succeeds_findOr fun mdId hmd => hloaders mdId (findOr_ok hmd)).trans ?_
      simp only [List.forall_mem_cons, List.not_mem_nil, false_implies, implies_true, and_true]
      constructor
      · rintro ⟨hd, ⟨hw1, b1, b2, b3⟩, hw2, b4⟩
        exact ⟨⟨⟨hvae, b1⟩, ⟨hsync, b2⟩, ⟨hclip, b3⟩, hdiff, b4⟩, hd, hw1, hw2⟩
      · rintro ⟨⟨⟨-, b1⟩, ⟨-, b2⟩, ⟨-, b3⟩, -, b4⟩, hd, hw1, hw2⟩
        exact ⟨hd, ⟨hw1, b1, b2, b3⟩, hw2, b4⟩
    · next hnot =>
      refine iff_of_false (not_succeeds_error _) ?_
      rintro ⟨⟨⟨hvae, -⟩, ⟨hsync, -⟩, ⟨hclip, -⟩, hdiff, -⟩, -⟩
      exact hnot (by simp [hvae, hsync, hclip, hdiff])

end Weights

/-! ## The options of a request -/

section Sections

variable {g g' : Graph} {anchor : String} {onlyClass : Option String} {optional : Bool}
  {opts : Option Fields}

/-- What a section of the options needs of its anchor, given which anchors there are. -/
structure SectionFit (has : String → Prop) (g : Graph) (anchor : String)
    (onlyClass : Option String) (optional : Bool) : Prop where
  declared : optional = false → has anchor
  writable : (∀ c ∈ onlyClass, ClassIs g anchor (.str c)) → Writable g anchor

theorem sameShape_applySection (h : applySection anchor onlyClass optional opts g = .ok g') :
    SameShape g g' :=
  view_applySection (fun _ _ _ _ _ _ => rfl) h

theorem classIs_of_owner {id : String} (hid : owner g anchor = some id) (c : ClassType) :
    ClassIs g anchor c ↔ classAt g id = c := by
  simp [ClassIs, hid]

theorem succeeds_applySection : Succeeds (applySection anchor onlyClass optional opts g) ↔
    (opts ≠ none → SectionFit (Declared g) g anchor onlyClass optional) := by
  unfold applySection
  cases opts with
  | none => simp
  | some patch =>
    rw [imp_iff_right (Option.some_ne_none patch)]
    dsimp only
    cases hid : owner g anchor with
    | none =>
      have hwritable : Writable g anchor := by simp [Writable, hid]
      have hnot : ¬ Declared g anchor := by simp [Declared, hid]
      cases optional with
      | true => exact iff_of_true (succeeds_ok g) ⟨nofun, fun _ => hwritable⟩
      | false => exact iff_of_false (not_succeeds_error _) fun h => hnot (h.declared rfl)
    | some id =>
      have hdeclared : Declared g anchor := by simp [Declared, hid]
      have hclass : (∀ c ∈ onlyClass, ClassIs g anchor (.str c)) ↔
          (onlyClass.all fun c => classAt g id = .str c) = true := by
        simp only [classIs_of_owner hid, Option.all_eq_true, decide_eq_true_eq, Option.mem_def]
      dsimp only
      split_ifs with htest
      · rw [succeeds_assignOr, isDict_later (.refl g) hid]
        exact ⟨fun h => ⟨fun _ => hdeclared, fun _ => h⟩, fun h => h.writable (hclass.mpr htest)⟩
      · exact iff_of_true (succeeds_ok g)
          ⟨fun _ => hdeclared, fun h => absurd (hclass.mp h) htest⟩

/-- What the sections that a request gives need. -/
structure AdvancedFit (has : String → Prop) (adv : Option Json) (task : VideoTask) (g : Graph) :
    Prop where
  encode : forI2v task (options adv "encode" encodeOptions) ≠ none →
    SectionFit has g "%WAN_DIMS%" (some "WanVideoImageToVideoEncode") false
  clipEncode : forI2v task (options adv "clip_encode" clipEncodeOptions) ≠ none →
    SectionFit has g "%WAN_CLIP_ENCODE%" none true
  decode : options adv "decode" decodeOptions ≠ none →
    SectionFit has g "%WAN_DECODE%" (some "WanVideoDecode") false
  blockSwap : options adv "block_swap" blockSwapOptions ≠ none →
    SectionFit has g "%WAN_BLOCK_SWAP%" none true
  exported : options adv "export" exportOptions ≠ none →
    SectionFit has g "%VIDEO_OUTPUT%" none false

theorem not_loader_none : ∀ c ∈ (none : Option String),
    lora_chain.isLoraLoader (.str c) = false := nofun

theorem not_loader_encode : ∀ c ∈ some "WanVideoImageToVideoEncode",
    lora_chain.isLoraLoader (.str c) = false := by
  simp [lora_chain.isLoraLoader]

theorem not_loader_decode : ∀ c ∈ some "WanVideoDecode",
    lora_chain.isLoraLoader (.str c) = false := by
  simp [lora_chain.isLoraLoader]

section Transfer

variable {has : String → Prop} (h : Alike has g g')
include h

theorem sectionFit_alike
    (hc : ∀ c ∈ onlyClass, lora_chain.isLoraLoader (.str c) = false) :
    SectionFit (Declared g') g' anchor onlyClass optional ↔
      SectionFit has g anchor onlyClass optional := by
  have hclass : (∀ c ∈ onlyClass, ClassIs g' anchor (.str c)) ↔
      ∀ c ∈ onlyClass, ClassIs g anchor (.str c) :=
    forall₂_congr fun c hmem => h.classIs anchor _ (hc c hmem)
  constructor
  · exact fun hfit => ⟨fun ho => (h.declared anchor).mp (hfit.declared ho),
      fun hall => (h.writable anchor).mp (hfit.writable (hclass.mpr hall))⟩
  · exact fun hfit => ⟨fun ho => (h.declared anchor).mpr (hfit.declared ho),
      fun hall => (h.writable anchor).mpr (hfit.writable (hclass.mp hall))⟩

theorem advancedFit_alike {adv : Option Json} {task : VideoTask} :
    AdvancedFit (Declared g') adv task g' ↔ AdvancedFit has adv task g := by
  have hencode : SectionFit (Declared g') g' "%WAN_DIMS%" (some "WanVideoImageToVideoEncode")
      false ↔ _ := sectionFit_alike h not_loader_encode
  have hclip : SectionFit (Declared g') g' "%WAN_CLIP_ENCODE%" none true ↔ _ :=
    sectionFit_alike h not_loader_none
  have hdecode : SectionFit (Declared g') g' "%WAN_DECODE%" (some "WanVideoDecode") false ↔ _ :=
    sectionFit_alike h not_loader_decode
  have hswap : SectionFit (Declared g') g' "%WAN_BLOCK_SWAP%" none true ↔ _ :=
    sectionFit_alike h not_loader_none
  have hexport : SectionFit (Declared g') g' "%VIDEO_OUTPUT%" none false ↔ _ :=
    sectionFit_alike h not_loader_none
  constructor
  · rintro ⟨h1, h2, h3, h4, h5⟩
    exact ⟨fun ho => hencode.mp (h1 ho), fun ho => hclip.mp (h2 ho), fun ho => hdecode.mp (h3 ho),
      fun ho => hswap.mp (h4 ho), fun ho => hexport.mp (h5 ho)⟩
  · rintro ⟨h1, h2, h3, h4, h5⟩
    exact ⟨fun ho => hencode.mpr (h1 ho), fun ho => hclip.mpr (h2 ho),
      fun ho => hdecode.mpr (h3 ho), fun ho => hswap.mpr (h4 ho), fun ho => hexport.mpr (h5 ho)⟩

end Transfer

theorem sameShape_applyWanAdvancedPatches {adv : Option Json} {task : VideoTask}
    (h : applyWanAdvancedPatches adv task g = .ok g') : SameShape g g' :=
  view_applyWanAdvancedPatches (free_shape _) (fun _ _ _ _ _ _ => rfl) h

theorem succeeds_applyWanAdvancedPatches {adv : Option Json} {task : VideoTask} :
    Succeeds (applyWanAdvancedPatches adv task g) ↔ AdvancedFit (Declared g) adv task g := by
  have hfit : AdvancedFit (Declared g) adv task g ↔ _ :=
    ⟨fun h => And.intro h.encode (And.intro h.clipEncode (And.intro h.decode
      (And.intro h.blockSwap h.exported))), fun h => ⟨h.1, h.2.1, h.2.2.1, h.2.2.2.1, h.2.2.2.2⟩⟩
  rw [hfit]
  refine succeeds_bind_iff succeeds_applySection fun g1 h1 => ?_
  have s1 : SameShape g g1 := sameShape_applySection h1
  rw [← sectionFit_alike s1.alike not_loader_none]
  refine succeeds_bind_iff succeeds_applySection fun g2 h2 => ?_
  have s2 : SameShape g g2 := s1.trans (sameShape_applySection h2)
  rw [← sectionFit_alike s2.alike not_loader_decode]
  refine succeeds_bind_iff succeeds_applySection fun g3 h3 => ?_
  have s3 : SameShape g g3 := s2.trans (sameShape_applySection h3)
  rw [← sectionFit_alike s3.alike not_loader_none]
  refine succeeds_bind_iff succeeds_applySection fun g4 h4 => ?_
  have s4 : SameShape g g4 := s3.trans (sameShape_applySection h4)
  rw [← sectionFit_alike s4.alike not_loader_none]
  exact succeeds_applySection

end Sections

/-! ## What a request writes to a WAN graph -/

section Request

variable {py : Builtins} {v : ValidatedVideoJob} {seed : Int} {g g' : Graph}

/-- An anchor that must be there, at a node with inputs. -/
def Anchored (has : String → Prop) (g : Graph) (anchor : String) : Prop :=
  has anchor ∧ Writable g anchor

instance {has : String → Prop} [DecidablePred has] (g : Graph) (anchor : String) :
    Decidable (Anchored has g anchor) :=
  inferInstanceAs (Decidable (has anchor ∧ Writable g anchor))

theorem succeeds_assign_later {anchor id : String} {patch : Fields} (hs : SameShape g g')
    (hid : findAnchor g anchor = .ok id) : Succeeds (assign g' id patch) ↔ Writable g anchor :=
  succeeds_assign.trans (isDict_later hs (findAnchor_ok hid))

theorem sameShape_assign {id : String} {patch : Fields} (h : assign g id patch = .ok g') :
    SameShape g g' :=
  view_assign (fun _ _ => rfl) h

theorem sameShape_assignIfFound {anchor : String} {patch : Fields}
    (h : assignIfFound g anchor patch = .ok g') : SameShape g g' :=
  view_assignIfFound (fun _ _ _ => rfl) h

/-- Core workflows take the two prompts at nodes of their own. -/
def promptAnchors (g : Graph) : List String :=
  if isCore g then ["%WAN_POSITIVE%", "%WAN_NEGATIVE%"] else ["%WAN_PROMPTS%"]

theorem succeeds_injectPrompts : Succeeds (injectPrompts v g) ↔
    ∀ a ∈ promptAnchors g, Anchored (Declared g) g a := by
  unfold injectPrompts promptAnchors Anchored
  split_ifs with hcore
  · rw [List.forall_mem_cons, List.forall_mem_singleton, and_and_and_comm, and_assoc]
    refine succeeds_bind_iff succeeds_findAnchor fun posId hpos => ?_
    refine succeeds_bind_iff succeeds_findAnchor fun negId hneg => ?_
    refine succeeds_bind_iff (succeeds_assign_later (.refl g) hpos) fun g1 h1 => ?_
    exact succeeds_assign_later (sameShape_assign h1) hneg
  · rw [List.forall_mem_singleton]
    exact succeeds_bind_iff succeeds_findAnchor fun id hid => succeeds_assign_later (.refl g) hid

theorem succeeds_injectDims : Succeeds (injectDims v g) ↔ Anchored (Declared g) g "%WAN_DIMS%" :=
  succeeds_bind_iff succeeds_findAnchor fun _ hid => succeeds_assign_later (.refl g) hid

/-- The second pass of a core sampler has two optional anchors. -/
def PassesFit (g : Graph) : Prop :=
  ClassIs g "%WAN_SAMPLER%" (.str "KSamplerAdvanced") →
    Lenient g "%WAN_SHIFT%" ∧ Lenient g "%WAN_NAG_SAMPLER%"

theorem succeeds_injectSampler : Succeeds (injectSampler v seed g) ↔
    Anchored (Declared g) g "%WAN_SAMPLER%" ∧ PassesFit g := by
  unfold Anchored
  rw [and_assoc]
  refine succeeds_bind_iff succeeds_findAnchor fun samplerId hid => ?_
  unfold PassesFit
  rw [classIs_of_owner (findAnchor_ok hid)]
  split_ifs with hclass
  · rw [imp_iff_right hclass]
    refine succeeds_bind_iff (succeeds_assign_later (.refl g) hid) fun g1 h1 => ?_
    have s1 : SameShape g g1 := sameShape_assign h1
    refine succeeds_bind_iff (succeeds_assignIfFound.trans (s1.lenient _)) fun g2 h2 => ?_
    exact succeeds_assignIfFound.trans ((s1.trans (sameShape_assignIfFound h2)).lenient _)
  · rw [succeeds_assign_later (.refl g) hid]
    exact (and_iff_left fun h => absurd h hclass).symm

/-- The defaults of the model that the audio sampler reads are numbers. -/
structure NumbersFit (py : Builtins) (cfg : ModelConfig) : Prop where
  steps : Succeeds (toInt py ((cfg.defaults.lookup "mmaudio_steps").getD (.int 25)))
  cfg : Succeeds (toFloat py ((cfg.defaults.lookup "mmaudio_cfg").getD (.float (.finite (9 / 2)))))

/-- What the audio sampler needs, where there is one. -/
structure AudioSamplerFit (has : String → Prop) (py : Builtins) (cfg : ModelConfig) (g : Graph) :
    Prop where
  lenient : Lenient g "%MMAUDIO_SAMPLER%"
  numbers : Anchored has g "%MMAUDIO_SAMPLER%" → NumbersFit py cfg

/-- An edit that raises no `KeyError` once its node has inputs. -/
theorem succeeds_passKeyError {x : Except GraphError Graph}
    (h : ∀ m, x ≠ .error (.other "KeyError" m)) : Succeeds (passKeyError g x) ↔ Succeeds x := by
  unfold passKeyError
  split
  · next m => exact absurd rfl (h m)
  · rfl

/-- The refusal of an assignment does not depend on what is assigned. -/
theorem assign_fails {id : String} (h : ¬ (inputsAt g id).isDict = true) :
    ∃ e, ∀ patch, assign g id patch = .error e := by
  unfold inputsAt at h
  unfold assign
  cases hnode : g.lookup id with
  | none => exact ⟨_, fun _ => rfl⟩
  | some node =>
    obtain ⟨classType, inputs, title⟩ := node
    cases inputs with
    | absent => exact ⟨_, fun _ => rfl⟩
    | other refusal => exact ⟨_, fun _ => rfl⟩
    | dict fields => exact absurd (by rw [hnode]; rfl) h

theorem succeeds_injectMmaudioSampler : Succeeds (injectMmaudioSampler py v seed g) ↔
    AudioSamplerFit (Declared g) py v.model g := by
  unfold injectMmaudioSampler
  cases hid : owner g "%MMAUDIO_SAMPLER%" with
  | none =>
    have hlenient : Lenient g "%MMAUDIO_SAMPLER%" := by simp [Lenient, hid]
    have hnot : ¬ Anchored (Declared g) g "%MMAUDIO_SAMPLER%" := by simp [Anchored, Declared, hid]
    refine iff_of_true ⟨g, ?_⟩ ⟨hlenient, fun h => absurd h hnot⟩
    rw [findAnchor, hid]
    rfl
  | some id =>
    rw [findAnchor_of_owner hid, ok_bind]
    by_cases hdict : (inputsAt g id).isDict = true
    · have hanchored : Anchored (Declared g) g "%MMAUDIO_SAMPLER%" := by
        simp [Anchored, Declared, Writable, hid, hdict]
      have hlenient : Lenient g "%MMAUDIO_SAMPLER%" := by
        simp [Lenient, hid, isDict_assignable hdict]
      have hfit : AudioSamplerFit (Declared g) py v.model g ↔ NumbersFit py v.model :=
        ⟨fun h => h.numbers hanchored, fun h => ⟨hlenient, fun _ => h⟩⟩
      have hnumbers : NumbersFit py v.model ↔ _ ∧ _ :=
        ⟨fun h => ⟨h.steps, h.cfg⟩, fun h => ⟨h.1, h.2⟩⟩
      rw [assign_of_isDict hdict, ok_bind, hfit, hnumbers, succeeds_passKeyError]
      · refine succeeds_bind_iff Iff.rfl fun steps _ => ?_
        rw [← and_true (Succeeds (toFloat _ _))]
        exact succeeds_bind_iff Iff.rfl fun cfg _ => iff_true_intro ⟨_, rfl⟩
      · intro m herror
        rcases hsteps : toInt py ((v.model.defaults.lookup "mmaudio_steps").getD (.int 25))
          with e | steps
        · rw [hsteps] at herror
          cases herror
          exact toInt_ne_keyError hsteps
        · rw [hsteps, ok_bind] at herror
          rcases hcfg : toFloat py ((v.model.defaults.lookup "mmaudio_cfg").getD
            (.float (.finite (9 / 2)))) with e | cfg
          · rw [hcfg] at herror
            cases herror
            exact toFloat_ne_keyError hcfg
          · rw [hcfg] at herror
            cases herror
    · have hnot : ¬ Anchored (Declared g) g "%MMAUDIO_SAMPLER%" := by
        simp [Anchored, Writable, hid, hdict]
      have hfit : AudioSamplerFit (Declared g) py v.model g ↔ Lenient g "%MMAUDIO_SAMPLER%" :=
        ⟨fun h => h.lenient, fun h => ⟨h, fun ha => absurd ha hnot⟩⟩
      obtain ⟨e, he⟩ := assign_fails hdict
      have hsame : Succeeds (assignIfFound g "%MMAUDIO_SAMPLER%" []) ↔ _ := succeeds_assignIfFound
      rw [hfit, ← hsame, assignIfFound, findAnchor_of_owner hid, ok_bind, he, he]
      rfl

/-- What the fields of a request need of a WAN graph. -/
structure RequestFit (has : String → Prop) (py : Builtins) (cfg : ModelConfig) (g : Graph) :
    Prop where
  prompts : ∀ a ∈ promptAnchors g, Anchored has g a
  dims : Anchored has g "%WAN_DIMS%"
  sampler : Anchored has g "%WAN_SAMPLER%"
  passes : PassesFit g
  output : Lenient g "%VIDEO_OUTPUT%"
  audio : AudioSamplerFit has py cfg g

section Transfer

variable {has : String → Prop} (h : Alike has g g')
include h

theorem anchored_alike (anchor : String) :
    Anchored (Declared g') g' anchor ↔ Anchored has g anchor :=
  and_congr (h.declared anchor) (h.writable anchor)

theorem promptAnchors_alike : promptAnchors g' = promptAnchors g := by
  unfold promptAnchors
  rw [h.core]

theorem passesFit_alike : PassesFit g' ↔ PassesFit g := by
  unfold PassesFit
  rw [h.classIs _ _ (by simp [lora_chain.isLoraLoader]), h.lenient, h.lenient]

theorem audioSamplerFit_alike {cfg : ModelConfig} :
    AudioSamplerFit (Declared g') py cfg g' ↔ AudioSamplerFit has py cfg g := by
  constructor
  · exact fun hfit => ⟨(h.lenient _).mp hfit.lenient,
      fun ha => hfit.numbers ((anchored_alike h _).mpr ha)⟩
  · exact fun hfit => ⟨(h.lenient _).mpr hfit.lenient,
      fun ha => hfit.numbers ((anchored_alike h _).mp ha)⟩

theorem requestFit_alike {cfg : ModelConfig} :
    RequestFit (Declared g') py cfg g' ↔ RequestFit has py cfg g := by
  have hprompts : (∀ a ∈ promptAnchors g', Anchored (Declared g') g' a) ↔
      ∀ a ∈ promptAnchors g, Anchored has g a := by
    simp only [promptAnchors_alike h, anchored_alike h]
  have haudio : AudioSamplerFit (Declared g') py cfg g' ↔ _ := audioSamplerFit_alike h
  constructor
  · rintro ⟨h1, h2, h3, h4, h5, h6⟩
    exact ⟨hprompts.mp h1, (anchored_alike h _).mp h2, (anchored_alike h _).mp h3,
      (passesFit_alike h).mp h4, (h.lenient _).mp h5, haudio.mp h6⟩
  · rintro ⟨h1, h2, h3, h4, h5, h6⟩
    exact ⟨hprompts.mpr h1, (anchored_alike h _).mpr h2, (anchored_alike h _).mpr h3,
      (passesFit_alike h).mpr h4, (h.lenient _).mpr h5, haudio.mpr h6⟩

end Transfer

theorem succeeds_injectWanRequest : Succeeds (injectWanRequest py v seed g) ↔
    RequestFit (Declared g) py v.model g := by
  have hfit : RequestFit (Declared g) py v.model g ↔
      (∀ a ∈ promptAnchors g, Anchored (Declared g) g a) ∧ Anchored (Declared g) g "%WAN_DIMS%" ∧
        (Anchored (Declared g) g "%WAN_SAMPLER%" ∧ PassesFit g) ∧ Lenient g "%VIDEO_OUTPUT%" ∧
          AudioSamplerFit (Declared g) py v.model g := by
    constructor
    · exact fun h => ⟨h.prompts, h.dims, ⟨h.sampler, h.passes⟩, h.output, h.audio⟩
    · exact fun ⟨h1, h2, ⟨h3, h4⟩, h5, h6⟩ => ⟨h1, h2, h3, h4, h5, h6⟩
  rw [hfit]
  refine succeeds_bind_iff succeeds_injectPrompts fun g1 h1 => ?_
  have s1 : SameShape g g1 := view_injectPrompts (free_shape _) h1
  rw [← anchored_alike s1.alike "%WAN_DIMS%"]
  refine succeeds_bind_iff succeeds_injectDims fun g2 h2 => ?_
  have s2 : SameShape g g2 := s1.trans (view_injectDims (free_shape _) h2)
  rw [← anchored_alike s2.alike, ← passesFit_alike s2.alike]
  refine succeeds_bind_iff succeeds_injectSampler fun g3 h3 => ?_
  have s3 : SameShape g g3 := s2.trans (view_injectSampler (free_shape _) h3)
  rw [← s3.lenient]
  refine succeeds_bind_iff succeeds_assignIfFound fun g4 h4 => ?_
  have s4 : SameShape g g4 := s3.trans (sameShape_assignIfFound h4)
  rw [← audioSamplerFit_alike s4.alike]
  exact succeeds_injectMmaudioSampler

end Request

/-! ## WAN jobs -/

section Wan

variable {py : Builtins} {v : ValidatedVideoJob} {task : VideoTask} {seed : Int} {g g' : Graph}
  {loras : List ResolvedLoraRef}

/-- The anchors that there are once the LoRAs are in. A core workflow gets nodes whose titles
hold the names of the LoRAs, and a default LoRA may have any name. -/
def Offers (g : Graph) (loras : List ResolvedLoraRef) (anchor : String) : Prop :=
  Declared g anchor ∨ isCore g = true ∧
    ∃ lora ∈ coreLoras g loras, (coreNode lora .null).declares anchor = true

structure LorasFit (py : Builtins) (loras : List ResolvedLoraRef) (g : Graph) : Prop where
  core : isCore g = true → loras ≠ [] →
    Declared g "%WAN_SHIFT%" ∧ Numberable py g (coreLoras g loras).length
  legacy : isCore g = false →
    (loras ≠ [] → Declared g "%WAN_LORA_MULTI%") ∧ Writable g "%WAN_LORA_MULTI%"

/-- The LoRAs of a WAN job, by the kind of its workflow. -/
def insertLoras (py : Builtins) (v : ValidatedVideoJob) (g : Graph) : Except GraphError Graph :=
  if isCore g then injectWanCoreLoras py v.loras g
  else injectWanLoraMulti v.loras v.wanAdvanced g

theorem succeeds_insertLoras (hmodel : Declared g "%WAN_MODEL%") :
    Succeeds (insertLoras py v g) ↔ LorasFit py v.loras g := by
  unfold insertLoras
  split_ifs with hcore
  · rw [succeeds_injectWanCoreLoras]
    constructor
    · exact fun h => ⟨fun _ hne => (h hne).2, fun hnot => absurd hcore (by simp [hnot])⟩
    · exact fun h hne => ⟨hmodel, h.core hcore hne⟩
  · rw [succeeds_injectWanLoraMulti]
    exact ⟨fun h => ⟨fun hyes => absurd hyes hcore, fun _ => h⟩,
      fun h => h.legacy (Bool.eq_false_of_not_eq_true hcore)⟩

theorem alike_insertLoras (h : insertLoras py v g = .ok g') : Alike (Offers g v.loras) g g' := by
  unfold insertLoras at h
  split_ifs at h with hcore
  · obtain ⟨new, hgrown, htitled⟩ := grown_injectWanCoreLoras h
    refine hgrown.alike.congr fun a => ?_
    unfold Offers
    rw [htitled.declared, and_iff_right hcore]
  · refine (sameShape_injectWanLoraMulti h).alike.congr fun a => ?_
    unfold Offers
    rw [or_iff_left fun hand => hcore hand.1]

section Transfer

variable (h : SameShape g g')
include h

theorem audioFit_same {cfg : ModelConfig} : AudioFit cfg g' ↔ AudioFit cfg g := by
  have hfu := h.declared "%MMAUDIO_FEATURE_UTILS%"
  have hd := h.declared "%MMAUDIO_DIFFUSION%"
  have hw := h.writable
  constructor
  · exact fun hfit => ⟨fun ho => hfit.assets (hfu.mpr ho),
      fun ho => hd.mp (hfit.diffusion (hfu.mpr ho)),
      fun ho => (hfit.writable (hfu.mpr ho)).imp (hw _).mp (hw _).mp⟩
  · exact fun hfit => ⟨fun ho => hfit.assets (hfu.mp ho),
      fun ho => hd.mpr (hfit.diffusion (hfu.mp ho)),
      fun ho => (hfit.writable (hfu.mp ho)).imp (hw _).mpr (hw _).mpr⟩

theorem coreLoras_same : coreLoras g' loras = coreLoras g loras := by
  unfold coreLoras
  rw [h.isDual_eq]

theorem lorasFit_same : LorasFit py loras g' ↔ LorasFit py loras g := by
  have hcore := h.alike.core
  constructor
  · rintro ⟨h1, h2⟩
    rw [hcore, h.declared, h.numberable, coreLoras_same h] at h1
    rw [hcore, h.declared, h.writable] at h2
    exact ⟨h1, h2⟩
  · rintro ⟨h1, h2⟩
    rw [← hcore, ← h.declared, ← h.numberable, ← coreLoras_same h] at h1
    rw [← hcore, ← h.declared, ← h.writable] at h2
    exact ⟨h1, h2⟩

theorem offers_same (anchor : String) : Offers g' loras anchor ↔ Offers g loras anchor := by
  unfold Offers
  rw [h.declared, h.alike.core, coreLoras_same h]

end Transfer

/-- What a template needs for a WAN job. -/
structure WanFit (py : Builtins) (cfg : ModelConfig) (loras : List ResolvedLoraRef)
    (adv : Option Json) (task : VideoTask) (g : Graph) : Prop where
  weights : WeightsFit g
  audio : AudioFit cfg g
  inserted : LorasFit py loras g
  advanced : AdvancedFit (Offers g loras) adv task g
  request : RequestFit (Offers g loras) py cfg g

/-- No edit changes whether the workflow is a core one. -/
theorem injectWan_eq : injectWan py v task g = (do
    let g1 ← injectVideoWeights py v.model g
    let g2 ← injectMmaudioWeights v.model g1
    let g3 ← insertLoras py v g2
    applyWanAdvancedPatches v.wanAdvanced task g3) := by
  unfold injectWan insertLoras
  rcases h1 : injectVideoWeights py v.model g with e | g1
  · rfl
  · rw [ok_bind, ok_bind]
    rcases h2 : injectMmaudioWeights v.model g1 with e | g2
    · rfl
    · have hcore : isCore g2 = isCore g := by
        have s2 := (sameShape_injectVideoWeights h1).trans (sameShape_injectMmaudioWeights h2)
        exact s2.alike.core
      rw [ok_bind, ok_bind, hcore]
      split_ifs <;> rfl

theorem succeeds_injectWan (hfiles : FilesGiven v.model) : Succeeds (injectWan py v task g) ↔
    WeightsFit g ∧ AudioFit v.model g ∧ LorasFit py v.loras g ∧
      AdvancedFit (Offers g v.loras) v.wanAdvanced task g := by
  rw [injectWan_eq]
  by_cases hmodel : Declared g "%WAN_MODEL%"
  · refine succeeds_bind_iff (succeeds_injectVideoWeights hfiles) fun g1 h1 => ?_
    have s1 := sameShape_injectVideoWeights h1
    rw [← audioFit_same s1]
    refine succeeds_bind_iff succeeds_injectMmaudioWeights fun g2 h2 => ?_
    have s2 := s1.trans (sameShape_injectMmaudioWeights h2)
    rw [← lorasFit_same s2]
    refine succeeds_bind_iff (succeeds_insertLoras ((s2.declared _).mpr hmodel)) fun g3 h3 => ?_
    have hlast : Alike (Offers g v.loras) g g3 :=
      ((alike_insertLoras h3).before s2).congr (offers_same s2)
    rw [← advancedFit_alike hlast]
    exact succeeds_applyWanAdvancedPatches
  · have hnot : ¬ WeightsFit g := fun h => hmodel (h.declared _ (by simp))
    refine iff_of_false (fun h => ?_) fun h => hnot h.1
    obtain ⟨g', h⟩ := h
    obtain ⟨g1, h1, -⟩ := bind_ok h
    exact hnot ((succeeds_injectVideoWeights hfiles).mp ⟨g1, h1⟩)

theorem alike_injectWan (h : injectWan py v task g = .ok g') : Alike (Offers g v.loras) g g' := by
  rw [injectWan_eq] at h
  obtain ⟨g1, h1, h⟩ := bind_ok h
  obtain ⟨g2, h2, h⟩ := bind_ok h
  obtain ⟨g3, h3, h⟩ := bind_ok h
  have s2 := (sameShape_injectVideoWeights h1).trans (sameShape_injectMmaudioWeights h2)
  have hlast : Alike (Offers g v.loras) g g3 :=
    ((alike_insertLoras h3).before s2).congr (offers_same s2)
  exact hlast.trans (sameShape_applyWanAdvancedPatches h).alike

/-- What the two stages of a WAN job need. -/
theorem wanFit_iff {cfg : ModelConfig} {adv : Option Json} : WanFit py cfg loras adv task g ↔
    (WeightsFit g ∧ AudioFit cfg g ∧ LorasFit py loras g ∧
      AdvancedFit (Offers g loras) adv task g) ∧ RequestFit (Offers g loras) py cfg g := by
  constructor
  · exact fun h => ⟨⟨h.weights, h.audio, h.inserted, h.advanced⟩, h.request⟩
  · exact fun ⟨⟨h1, h2, h3, h4⟩, h5⟩ => ⟨h1, h2, h3, h4, h5⟩

theorem succeeds_request_later (h : injectWan py v task g = .ok g') :
    Succeeds (injectWanRequest py v seed g') ↔ RequestFit (Offers g v.loras) py v.model g := by
  rw [← requestFit_alike (alike_injectWan h)]
  exact succeeds_injectWanRequest

theorem alike_wan {g'' : Graph} (h : injectWan py v task g = .ok g')
    (h' : injectWanRequest py v seed g' = .ok g'') : Alike (Offers g v.loras) g g'' := by
  have hlast : SameShape g' g'' := view_injectWanRequest (free_shape _) h'
  exact (alike_injectWan h).trans hlast.alike

end Wan

/-! ## LTX jobs -/

section Ltxv

variable {v : ValidatedVideoJob} {seed : Int} {g g' : Graph}

def ltxvAnchors : List String :=
  ["%LTXV_CHECKPOINT%", "%LTXV_TEXT_ENCODER%", "%LTXV_VIDEO_VAE%", "%LTXV_POSITIVE%",
    "%LTXV_NEGATIVE%", "%LTXV_SEED%", "%LTXV_FRAMES%"]

structure LtxvFit (g : Graph) : Prop where
  anchored : ∀ a ∈ ltxvAnchors, Anchored (Declared g) g a
  output : Lenient g "%LTXV_OUTPUT%"

theorem sameShape_injectAt {caller anchor : String} {patch : Fields}
    (h : injectAt caller g anchor patch = .ok g') : SameShape g g' :=
  view_injectAt (fun _ _ _ => rfl) h

theorem succeeds_injectAt_later {caller anchor : String} {patch : Fields} (hs : SameShape g g') :
    Succeeds (injectAt caller g' anchor patch) ↔ Anchored (Declared g) g anchor :=
  succeeds_injectAt.trans (anchored_alike hs.alike anchor)

theorem succeeds_injectLtxvWeights {cfg : ModelConfig} : Succeeds (injectLtxvWeights cfg g) ↔
    Anchored (Declared g) g "%LTXV_CHECKPOINT%" ∧
      Anchored (Declared g) g "%LTXV_TEXT_ENCODER%" := by
  refine succeeds_bind_iff (succeeds_injectAt_later (.refl g)) fun g1 h1 => ?_
  rw [← and_true (Anchored _ _ _)]
  exact succeeds_bind_iff (succeeds_injectAt_later (sameShape_injectAt h1))
    fun g2 _ => iff_true_intro ⟨_, rfl⟩

theorem sameShape_injectLtxvWeights {cfg : ModelConfig} (h : injectLtxvWeights cfg g = .ok g') :
    SameShape g g' := by
  obtain ⟨g1, h1, h⟩ := bind_ok h
  obtain ⟨g2, h2, h⟩ := bind_ok h
  cases h
  have hlast : SameShape g2 (injectAudioVaeLoaders g2) := view_injectAudioVaeLoaders (free_shape _)
  exact ((sameShape_injectAt h1).trans (sameShape_injectAt h2)).trans hlast

theorem succeeds_injectLtxv : Succeeds (injectLtxv v seed g) ↔ LtxvFit g := by
  have hfit : LtxvFit g ↔ (Anchored (Declared g) g "%LTXV_CHECKPOINT%" ∧
      Anchored (Declared g) g "%LTXV_TEXT_ENCODER%") ∧
      Anchored (Declared g) g "%LTXV_VIDEO_VAE%" ∧ Declared g "%LTXV_POSITIVE%" ∧
      Declared g "%LTXV_NEGATIVE%" ∧ Writable g "%LTXV_POSITIVE%" ∧ Writable g "%LTXV_NEGATIVE%" ∧
      Anchored (Declared g) g "%LTXV_SEED%" ∧ Anchored (Declared g) g "%LTXV_FRAMES%" ∧
      Lenient g "%LTXV_OUTPUT%" := by
    constructor
    · rintro ⟨h, ho⟩
      simp only [ltxvAnchors, List.forall_mem_cons, List.not_mem_nil, false_imp_iff,
        implies_true, and_true] at h
      obtain ⟨h1, h2, h3, ⟨d4, w4⟩, ⟨d5, w5⟩, h6, h7⟩ := h
      exact ⟨⟨h1, h2⟩, h3, d4, d5, w4, w5, h6, h7, ho⟩
    · rintro ⟨⟨h1, h2⟩, h3, d4, d5, w4, w5, h6, h7, ho⟩
      refine ⟨?_, ho⟩
      simp only [ltxvAnchors, List.forall_mem_cons, List.not_mem_nil, false_imp_iff,
        implies_true, and_true]
      exact ⟨h1, h2, h3, ⟨d4, w4⟩, ⟨d5, w5⟩, h6, h7⟩
  rw [hfit]
  refine succeeds_bind_iff succeeds_injectLtxvWeights fun g1 h1 => ?_
  have s1 := sameShape_injectLtxvWeights h1
  refine succeeds_bind_iff (succeeds_injectAt_later s1) fun g2 h2 => ?_
  have s2 := s1.trans (sameShape_injectAt h2)
  rw [← s2.declared, ← s2.declared "%LTXV_NEGATIVE%", ← s2.writable,
    ← s2.writable "%LTXV_NEGATIVE%"]
  refine succeeds_bind_iff succeeds_findAnchor fun posId hpos => ?_
  refine succeeds_bind_iff succeeds_findAnchor fun negId hneg => ?_
  refine succeeds_bind_iff (succeeds_assign_later (.refl g2) hpos) fun g3 h3 => ?_
  have s3 := s2.trans (sameShape_assign h3)
  refine succeeds_bind_iff (succeeds_assign_later (sameShape_assign h3) hneg) fun g4 h4 => ?_
  have s4 := s3.trans (sameShape_assign h4)
  refine succeeds_bind_iff (succeeds_injectAt_later s4) fun g5 h5 => ?_
  have s5 := s4.trans (sameShape_injectAt h5)
  refine succeeds_bind_iff (succeeds_injectAt_later s5) fun g6 h6 => ?_
  have s6 := s5.trans (sameShape_injectAt h6)
  rw [← s6.lenient]
  exact succeeds_assignIfFound

theorem sameShape_injectLtxv (h : injectLtxv v seed g = .ok g') : SameShape g g' :=
  view_injectLtxv (free_shape _) h

end Ltxv

/-! ## Image jobs -/

section Image

variable {py : Builtins} {v : ValidatedJob} {cfg : ModelConfig} {seed : Int} {g g' : Graph}
  {loras : List ResolvedLoraRef}

def LatentFit (g : Graph) : Prop :=
  ∀ id, latentNode g = some id → (inputsAt g id).isDict = true

theorem latentFit_same (h : SameShape g g') : LatentFit g' ↔ LatentFit g := by
  unfold LatentFit
  simp only [latentNode_same h, isDict_same h]

theorem succeeds_injectLatent : Succeeds (injectLatent v g) ↔ LatentFit g := by
  unfold injectLatent LatentFit latentNode
  cases g.find? fun e => e.2.classType = .str "EmptyLatentImage" with
  | none => simp
  | some e => simp [succeeds_assign]

/-- A text that is more than blanks. -/
def NamesType (value : Json) : Prop := ∃ s, value = .str s ∧ strip s.toList ≠ []

theorem namesType_iff {value : Json} :
    NamesType value ↔ ∃ t, stripped value = .ok t ∧ t ≠ "" := by
  unfold stripped
  constructor
  · rintro ⟨s, rfl, hs⟩
    have htruthy : (Json.str s).truthy = true := by
      apply decide_eq_true
      rintro rfl
      exact hs rfl
    refine ⟨_, if_pos htruthy, ?_⟩
    simpa using hs
  · rintro ⟨t, ht, hne⟩
    split at ht
    · cases value <;> cases ht
      exact ⟨_, rfl, by simpa using hne⟩
    · cases ht
      exact absurd rfl hne

/-- What the classes of the loaders ask of an image model. -/
structure SourceFit (cfg : ModelConfig) (g : Graph) : Prop where
  model : ClassIs g "%MODEL_SOURCE%" (.str "CheckpointLoaderSimple") ∨
    ClassIs g "%MODEL_SOURCE%" (.str "UnetLoaderGGUF")
  dual : ClassIs g "%CLIP_SOURCE%" (.str "DualCLIPLoader") →
    given cfg.clipL ≠ none ∧ given cfg.t5xxl ≠ none
  single : ClassIs g "%CLIP_SOURCE%" (.str "CLIPLoader") → given cfg.clipL ≠ none ∧
    NamesType cfg.clipLoaderType

theorem sourceFit_same (h : SameShape g g') : SourceFit cfg g' ↔ SourceFit cfg g := by
  constructor
  · rintro ⟨h1, h2, h3⟩
    rw [h.classIs, h.classIs] at h1
    rw [h.classIs] at h2 h3
    exact ⟨h1, h2, h3⟩
  · rintro ⟨h1, h2, h3⟩
    rw [← h.classIs, ← h.classIs "%MODEL_SOURCE%" (.str "UnetLoaderGGUF")] at h1
    rw [← h.classIs] at h2 h3
    exact ⟨h1, h2, h3⟩

theorem succeeds_checkpointInput {c : ClassType} : Succeeds (checkpointInput c) ↔
    c = .str "CheckpointLoaderSimple" ∨ c = .str "UnetLoaderGGUF" := by
  unfold checkpointInput
  split
  · simp
  · simp
  · next s h1 h2 =>
    have hs : s ≠ "CheckpointLoaderSimple" ∧ s ≠ "UnetLoaderGGUF" := by
      exact ⟨fun h => h1 (by rw [h]), fun h => h2 (by rw [h])⟩
    simp [hs]
  · simp

theorem succeeds_clipInputs {c : ClassType} : Succeeds (clipInputs cfg c) ↔
    (c = .str "DualCLIPLoader" → given cfg.clipL ≠ none ∧ given cfg.t5xxl ≠ none) ∧
      (c = .str "CLIPLoader" → given cfg.clipL ≠ none ∧
        NamesType cfg.clipLoaderType) := by
  unfold clipInputs
  split
  · cases given cfg.clipL <;> cases given cfg.t5xxl <;> simp
  · cases given cfg.clipL with
    | none => simp
    | some clipL =>
      have htype : Succeeds (do
          let teType ← stripped cfg.clipLoaderType
          if teType = "" then .error (.workflow
            "inject_model_source: CLIPLoader requires clip_loader_type (e.g. flux2)")
          else return [("clip_name", Json.str (basename clipL)), ("type", Json.str teType)]) ↔
          NamesType cfg.clipLoaderType := by
        rw [namesType_iff]
        cases stripped cfg.clipLoaderType with
        | error e => simp [bind, Except.bind]
        | ok t =>
          by_cases ht : t = ""
          · simp [bind, Except.bind, ht]
          · simp [bind, Except.bind, pure, Except.pure, ht]
      simpa using htype
  · next h1 h2 =>
    exact iff_of_true (succeeds_ok _) ⟨fun h => absurd h h1, fun h => absurd h h2⟩

theorem succeeds_injectModelSource : Succeeds (injectModelSource cfg g) ↔
    Anchored (Declared g) g "%MODEL_SOURCE%" ∧ Anchored (Declared g) g "%CLIP_SOURCE%" ∧
      SourceFit cfg g := by
  have hfit : Anchored (Declared g) g "%MODEL_SOURCE%" ∧ Anchored (Declared g) g "%CLIP_SOURCE%" ∧
      SourceFit cfg g ↔
      Declared g "%MODEL_SOURCE%" ∧ Declared g "%CLIP_SOURCE%" ∧ Writable g "%MODEL_SOURCE%" ∧
      (ClassIs g "%MODEL_SOURCE%" (.str "CheckpointLoaderSimple") ∨
        ClassIs g "%MODEL_SOURCE%" (.str "UnetLoaderGGUF")) ∧
      Writable g "%CLIP_SOURCE%" ∧
      ((ClassIs g "%CLIP_SOURCE%" (.str "DualCLIPLoader") →
        given cfg.clipL ≠ none ∧ given cfg.t5xxl ≠ none) ∧
      (ClassIs g "%CLIP_SOURCE%" (.str "CLIPLoader") → given cfg.clipL ≠ none ∧
        NamesType cfg.clipLoaderType)) :=
    ⟨fun ⟨⟨d1, w1⟩, ⟨d2, w2⟩, h1, h2, h3⟩ => ⟨d1, d2, w1, h1, w2, h2, h3⟩,
      fun ⟨d1, d2, w1, h1, w2, h2, h3⟩ => ⟨⟨d1, w1⟩, ⟨d2, w2⟩, h1, h2, h3⟩⟩
  rw [hfit]
  refine succeeds_bind_iff succeeds_findOr fun modelId hm => ?_
  refine succeeds_bind_iff succeeds_findOr fun clipId hc => ?_
  have hmodel := findOr_ok hm
  have hclip := findOr_ok hc
  rw [classIs_of_owner hmodel, classIs_of_owner hmodel, classIs_of_owner hclip,
    classIs_of_owner hclip]
  refine succeeds_bind_iff (succeeds_assignOr.trans (isDict_later (.refl g) hmodel))
    fun g1 h1 => ?_
  have s1 : SameShape g g1 := view_assignOr (fun _ _ => rfl) h1
  rw [← classAt_same s1 modelId]
  refine succeeds_bind_iff succeeds_checkpointInput fun ckptInput _ => ?_
  have s2 : SameShape g (write g1 modelId [(ckptInput, .str (basename cfg.checkpoint))]) :=
    s1.trans (view_write fun _ _ => rfl)
  refine succeeds_bind_iff (succeeds_assignOr.trans (isDict_later s2 hclip)) fun g3 h3 => ?_
  have s3 : SameShape g g3 := s2.trans (view_assignOr (fun _ _ => rfl) h3)
  rw [← classAt_same s3 clipId, ← succeeds_clipInputs, ← and_true (Succeeds (clipInputs _ _))]
  refine succeeds_bind_iff Iff.rfl fun patch _ => iff_true_intro ?_
  cases given cfg.vae <;> exact ⟨_, rfl⟩

theorem injectVpred_eps (h : cfg.prediction = .eps) (g : Graph) : injectVpred cfg g = .ok g := by
  unfold injectVpred
  rw [h]

theorem injectVpred_ok (h : injectVpred cfg g = .ok g') : g' = g := by
  unfold injectVpred at h
  split at h
  · cases h
  · exact (Except.ok.inj h).symm

theorem succeeds_injectLoras : Succeeds (injectLoras py loras g) ↔
    (loras ≠ [] → Declared g "%MODEL_SOURCE%" ∧ Declared g "%CLIP_SOURCE%" ∧
      Numberable py g loras.length) := by
  unfold injectLoras
  split_ifs with hnil
  · simp [hnil, pure, Except.pure]
  · rw [imp_iff_right hnil]
    refine succeeds_bind_iff succeeds_findOr fun modelId _ => ?_
    refine succeeds_bind_iff succeeds_findOr fun clipId _ => ?_
    rw [← lora_chain.succeeds_numbering (.inl rfl)]
    refine succeeds_bind_congr fun next _ => ?_
    rw [← and_true (Succeeds (strAll _ _))]
    exact succeeds_bind_iff Iff.rfl fun _ _ => iff_true_intro ⟨_, rfl⟩

theorem viewNode_mapInputs (f : Json → Json) (node : Node) :
    viewNode (fun _ => false) (mapInputs f node) = viewNode (fun _ => false) node := by
  obtain ⟨classType, inputs, title⟩ := node
  cases inputs with
  | dict fields => simp [mapInputs, viewNode, viewInputs, restrict]
  | absent => rfl
  | other _ => rfl

theorem grown_rewired {next : Nat} (hfresh : ∀ k, next ≤ k → g.lookup (toString k) = none)
    (modelId clipId last : String) (modelSlot clipSlot : Json) (loras : List ResolvedLoraRef) :
    Grown g (rewired g next modelId modelSlot clipId clipSlot loras last)
      (loraNodes next (.arr [.str modelId, modelSlot]) (.arr [.str clipId, clipSlot]) loras) := by
  have hid : ∀ e ∈ loraNodes next (.arr [.str modelId, modelSlot]) (.arr [.str clipId, clipSlot])
      loras, ∃ k, next ≤ k ∧ e.1 = toString k := by
    intro e he
    have hmem := List.mem_map_of_mem (f := (·.1)) he
    rw [ids_loraNodes] at hmem
    obtain ⟨k, hk, -, hid⟩ := mem_numbered.mp hmem
    exact ⟨k, hk, hid⟩
  refine ⟨?_, fun e he => ?_, fun e he => ?_, fun e he => ?_⟩
  · unfold rewired shape view
    rw [List.map_append, List.map_map]
    simp only [Function.comp_def, viewNode_mapInputs]
  · obtain ⟨k, hk, hid⟩ := hid e he
    rw [hid]
    exact hfresh k hk
  · obtain ⟨k, -, hid⟩ := hid e he
    exact ⟨k, hid⟩
  · obtain ⟨lora, -, model, clip, hnode⟩ := mem_loraNodes he
    rw [hnode]
    exact ⟨rfl, rfl⟩

theorem grown_injectLoras (h : injectLoras py loras g = .ok g') : ∃ new, Grown g g' new := by
  rcases injectLoras_ok h with rfl | ⟨next, modelId, modelSlot, clipId, clipSlot, last, hfresh, rfl⟩
  · exact ⟨[], .of_sameShape (.refl _)⟩
  · exact ⟨_, grown_rewired hfresh _ _ _ _ _ _⟩

def imageAnchors : List String :=
  ["%POSITIVE_PROMPT%", "%NEGATIVE_PROMPT%", "%KSAMPLER%", "%MODEL_SOURCE%", "%CLIP_SOURCE%"]

/-- What a template needs for an image job. -/
structure ImageFit (py : Builtins) (cfg : ModelConfig) (loras : List ResolvedLoraRef)
    (g : Graph) : Prop where
  anchored : ∀ a ∈ imageAnchors, Anchored (Declared g) g a
  latent : LatentFit g
  source : SourceFit cfg g
  ids : loras ≠ [] → Numberable py g loras.length

theorem succeeds_injectImage (heps : v.model.prediction = .eps) :
    Succeeds (injectImage py v seed g) ↔ ImageFit py v.model v.loras g := by
  have hfit : ImageFit py v.model v.loras g ↔
      Declared g "%POSITIVE_PROMPT%" ∧ Declared g "%NEGATIVE_PROMPT%" ∧ Declared g "%KSAMPLER%" ∧
      Writable g "%POSITIVE_PROMPT%" ∧ Writable g "%NEGATIVE_PROMPT%" ∧ Writable g "%KSAMPLER%" ∧
      LatentFit g ∧ (Anchored (Declared g) g "%MODEL_SOURCE%" ∧
        Anchored (Declared g) g "%CLIP_SOURCE%" ∧ SourceFit v.model g) ∧
      (v.loras ≠ [] → Numberable py g v.loras.length) := by
    constructor
    · rintro ⟨h, hl, hs, hids⟩
      simp only [imageAnchors, List.forall_mem_cons, List.not_mem_nil, false_imp_iff,
        implies_true, and_true] at h
      obtain ⟨⟨d1, w1⟩, ⟨d2, w2⟩, ⟨d3, w3⟩, h4, h5⟩ := h
      exact ⟨d1, d2, d3, w1, w2, w3, hl, ⟨h4, h5, hs⟩, hids⟩
    · rintro ⟨d1, d2, d3, w1, w2, w3, hl, ⟨h4, h5, hs⟩, hids⟩
      refine ⟨?_, hl, hs, hids⟩
      simp only [imageAnchors, List.forall_mem_cons, List.not_mem_nil, false_imp_iff,
        implies_true, and_true]
      exact ⟨⟨d1, w1⟩, ⟨d2, w2⟩, ⟨d3, w3⟩, h4, h5⟩
  rw [hfit]
  refine succeeds_bind_iff succeeds_findAnchor fun posId hpos => ?_
  refine succeeds_bind_iff succeeds_findAnchor fun negId hneg => ?_
  refine succeeds_bind_iff succeeds_findAnchor fun ksId hks => ?_
  refine succeeds_bind_iff (succeeds_assign_later (.refl g) hpos) fun g1 h1 => ?_
  have s1 := sameShape_assign h1
  refine succeeds_bind_iff (succeeds_assign_later s1 hneg) fun g2 h2 => ?_
  have s2 := s1.trans (sameShape_assign h2)
  refine succeeds_bind_iff (succeeds_assign_later s2 hks) fun g3 h3 => ?_
  have s3 := s2.trans (sameShape_assign h3)
  rw [← latentFit_same s3]
  refine succeeds_bind_iff succeeds_injectLatent fun g4 h4 => ?_
  have s4 : SameShape g g4 := s3.trans (view_injectLatent (free_shape _) h4)
  rw [← sourceFit_same s4, ← anchored_alike s4.alike, ← anchored_alike s4.alike "%CLIP_SOURCE%"]
  refine succeeds_bind_iff succeeds_injectModelSource fun g5 h5 => ?_
  have hshape : SameShape g4 g5 := view_injectModelSource (free_shape _) h5
  obtain ⟨hmodel, hclip, -⟩ := succeeds_injectModelSource.mp ⟨g5, h5⟩
  have hsources : Declared g5 "%MODEL_SOURCE%" ∧ Declared g5 "%CLIP_SOURCE%" :=
    ⟨(hshape.declared _).mpr hmodel.1, (hshape.declared _).mpr hclip.1⟩
  rw [injectVpred_eps heps, ok_bind, succeeds_injectLoras, ← (s4.trans hshape).numberable]
  simp only [hsources, true_and]

theorem alike_injectImage (h : injectImage py v seed g = .ok g') : ∃ has, Alike has g g' := by
  obtain ⟨posId, -, h⟩ := bind_ok h
  obtain ⟨negId, -, h⟩ := bind_ok h
  obtain ⟨ksId, -, h⟩ := bind_ok h
  obtain ⟨g1, h1, h⟩ := bind_ok h
  obtain ⟨g2, h2, h⟩ := bind_ok h
  obtain ⟨g3, h3, h⟩ := bind_ok h
  obtain ⟨g4, h4, h⟩ := bind_ok h
  obtain ⟨g5, h5, h⟩ := bind_ok h
  obtain ⟨g6, h6, h⟩ := bind_ok h
  obtain ⟨new, hgrown⟩ := grown_injectLoras h
  have s3 := ((sameShape_assign h1).trans (sameShape_assign h2)).trans (sameShape_assign h3)
  have s4 : SameShape g3 g4 := view_injectLatent (free_shape _) h4
  have s5 : SameShape g4 g5 := view_injectModelSource (free_shape _) h5
  cases injectVpred_ok h6
  exact ⟨_, (hgrown.before ((s3.trans s4).trans s5)).alike⟩

end Image

/-! ## The initial image -/

theorem succeeds_injectInitImage {g : Graph} {filename : String} :
    Succeeds (injectInitImage g filename) ↔ Lenient g "%INIT_IMAGE%" := by
  unfold injectInitImage Lenient
  cases owner g "%INIT_IMAGE%" with
  | none => simp
  | some id => cases h : inputsAt g id <;> simp [assignable, h]

end image_gen.preparation

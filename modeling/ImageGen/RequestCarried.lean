-- What the graph of a job carries of its request. The edits write one node after the other,
-- and a field stays where no later edit writes to its node.
import ImageGen.ResolvedSeed

namespace image_gen.request_carried

open image_gen.coroutine image_gen.file_tree image_gen.graph image_gen.graph_edits
  image_gen.injectors image_gen.json image_gen.job_store image_gen.lora_chain
  image_gen.lora_rewiring image_gen.py_dict image_gen.requests image_gen.resolved_seed
  image_gen.results image_gen.worker

/-! ## An input that stays -/

section Inputs

variable {K : String → String → Bool} {g g' : Graph} {anchor key id : String} {value : Json}
  {patch : Fields}

/-- The node of the anchor holds the value in this input. -/
def HoldsAt (g : Graph) (anchor key : String) (value : Json) : Prop :=
  ∃ id, owner g anchor = some id ∧ inputAt g id key = some value

theorem inputAt_keeps (h : ∀ seed, Keeps key seed g g') (hin : inputAt g id key = some value) :
    inputAt g' id key = some value := by
  obtain ⟨w, hw⟩ := Option.ne_none_iff_exists'.mp ((h 0).present id (by simp [hin]))
  rcases (h 0).held id w hw with hold | hzero
  · rw [hw, ← hold, hin]
  · rcases (h 1).held id w hw with hold | hone
    · rw [hw, ← hold, hin]
    · -- no value is two seeds at once
      rw [hzero] at hone
      cases hone

theorem HoldsAt.keeps (hs : HoldsAt g anchor key value) (h : ∀ seed, Keeps key seed g g') :
    HoldsAt g' anchor key value := by
  obtain ⟨id, hid, hin⟩ := hs
  exact ⟨id, ((h 0).owner_eq anchor).trans hid, inputAt_keeps h hin⟩

theorem HoldsAt.same (hs : HoldsAt g anchor key value)
    (hK : ∀ id, owner g anchor = some id → K id key = true) (h : view K g' = view K g) :
    HoldsAt g' anchor key value := by
  obtain ⟨id, hid, hin⟩ := hs
  refine ⟨id, by rw [owner_same h, hid], ?_⟩
  rw [← inputAt_view (hK id hid) g', h, inputAt_view (hK id hid), hin]

/-- Everything that the node of the anchor holds. -/
def nodeOf (g : Graph) (anchor : String) : String → String → Bool :=
  fun id _ => decide (owner g anchor = some id)

theorem HoldsAt.elsewhere (hs : HoldsAt g anchor key value)
    (h : view (nodeOf g anchor) g' = view (nodeOf g anchor) g) : HoldsAt g' anchor key value :=
  hs.same (fun _ hid => decide_eq_true hid) h

/-- The inputs of one name, at every node. -/
def named (key : String) : String → String → Bool := fun _ k => decide (k = key)

theorem HoldsAt.otherKeys (hs : HoldsAt g anchor key value)
    (h : view (named key) g' = view (named key) g) : HoldsAt g' anchor key value :=
  hs.same (fun _ _ => decide_eq_true rfl) h

theorem free_named {keys : List String} (h : key ∉ keys) : Free (named key) keys := by
  intro _ k hk
  exact decide_eq_false fun heq => h (heq ▸ hk)

theorem named_patch (h : key ∉ patch.map (·.1)) (id : String) :
    ∀ e ∈ patch, named key id e.1 = false := by
  intro e he
  exact decide_eq_false fun heq => h (heq ▸ List.mem_map_of_mem he)

theorem holdsAt_assign (howner : owner g anchor = some id) (hpatch : (patch.map (·.1)).Nodup)
    (hvalue : (key, value) ∈ patch) (h : assign g id patch = .ok g') :
    HoldsAt g' anchor key value := by
  obtain ⟨hdict, rfl⟩ := assign_ok h
  refine ⟨id, by rw [owner_write, howner], ?_⟩
  rw [inputAt_write hpatch hdict, if_pos rfl, lookup_of_mem hpatch hvalue, Option.some_or]

theorem view_assign_elsewhere (hne : owner g anchor ≠ some id) (h : assign g id patch = .ok g') :
    view (nodeOf g anchor) g' = view (nodeOf g anchor) g :=
  view_assign (fun _ _ => decide_eq_false hne) h

theorem owner_assign (h : assign g id patch = .ok g') (a : String) : owner g' a = owner g a :=
  owner_same (K := fun _ _ => false) (view_assign (fun _ _ => rfl) h) a

end Inputs

/-- No two of the anchors stand on one node. -/
def Apart (g : Graph) (anchors : List String) : Prop :=
  ∀ a ∈ anchors, ∀ b ∈ anchors, a ≠ b → owner g a = none ∨ owner g a ≠ owner g b

instance (g : Graph) (anchors : List String) : Decidable (Apart g anchors) :=
  inferInstanceAs (Decidable (∀ a ∈ anchors, ∀ b ∈ anchors, _))

/-! ## Images -/

/-- An input that a request writes: the anchor of its node, its name and its value. -/
structure Field where
  anchor : String
  key : String
  value : Json

/-- No list: a list could be taken for a link. -/
def Field.Plain (f : Field) : Prop := ∀ xs, f.value ≠ .arr xs

def fieldsAt (anchor : String) (patch : Fields) : List Field :=
  patch.map fun e => ⟨anchor, e.1, e.2⟩

def Carried (g : Graph) (f : Field) : Prop := HoldsAt g f.anchor f.key f.value

def samplerPatch (v : ValidatedJob) (seed : Int) : Fields :=
  [("seed", .int seed), ("steps", v.steps), ("cfg", .float v.cfg), ("sampler_name", .str v.sampler),
    ("scheduler", .str v.scheduler)]

def imageFields (v : ValidatedJob) (seed : Int) : List Field :=
  fieldsAt "%POSITIVE_PROMPT%" [("text", .str v.prompt)] ++
    fieldsAt "%NEGATIVE_PROMPT%" [("text", v.negativePrompt)] ++
    fieldsAt "%KSAMPLER%" (samplerPatch v seed)

def latentPatch (v : ValidatedJob) : Fields :=
  [("width", .int v.width), ("height", .int v.height), ("batch_size", .int v.n)]

section Image

variable {py : Builtins} {g g' : Graph} {anchor key id : String} {value : Json}
  {loras : List ResolvedLoraRef} {v : ValidatedJob} {seed : Int}

/-- What a node holds stays under the new links when it is no list. -/
theorem inputAt_rewired {next : Nat} {modelId clipId last : String} {modelSlot clipSlot : Json}
    (hfresh : ∀ k, next ≤ k → g.lookup (toString k) = none)
    (hin : inputAt g id key = some value) (hplain : ∀ xs, value ≠ .arr xs) :
    inputAt (rewired g next modelId modelSlot clipId clipSlot loras last) id key = some value := by
  have hold : id ∉ (numbered next loras).map (·.1) := by
    intro hmem
    obtain ⟨k, hk, -, rfl⟩ := mem_numbered.mp hmem
    unfold inputAt inputsAt at hin
    rw [hfresh k hk] at hin
    cases hin
  have hfields :
      fieldsOf (inputsAt (rewired g next modelId modelSlot clipId clipSlot loras last) id) =
      (fieldsOf (inputsAt g id)).map fun e =>
        (e.1, redirect modelId modelSlot clipId clipSlot last e.2) := by
    unfold inputsAt
    rw [lookup_rewired hold]
    cases g.lookup id with
    | none => rfl
    | some node => exact fields_mapInputs _ node
  have hslot : ∀ source, slotOf source value = none := by
    intro source
    cases value with
    | arr xs => exact absurd rfl (hplain xs)
    | _ => rfl
  unfold inputAt at hin ⊢
  rw [hfields]
  refine lookup_mapValues _ hin ?_
  unfold redirect
  rw [redirectOne_of_slotOf (hslot _), redirectOne_of_slotOf (hslot _)]

theorem classType_mapInputs (f : Json → Json) (node : Node) :
    (mapInputs f node).classType = node.classType := by
  unfold mapInputs
  cases node.inputs <;> rfl

/-- The first node that meets a condition on its title and class is still the first. -/
theorem find?_injectLoras {p : String × Node → Bool} {e : String × Node}
    (hp : ∀ f id node, p (id, mapInputs f node) = p (id, node)) (he : g.find? p = some e)
    (h : injectLoras py loras g = .ok g') : ∃ f, g'.find? p = some (e.1, mapInputs f e.2) := by
  rcases injectLoras_ok h with rfl | ⟨next, modelId, modelSlot, clipId, clipSlot, last, -, rfl⟩
  · refine ⟨id, he.trans ?_⟩
    obtain ⟨id, ⟨classType, inputs, title⟩⟩ := e
    cases inputs <;> simp [mapInputs]
  · refine ⟨redirect modelId modelSlot clipId clipSlot last, ?_⟩
    unfold rewired
    rw [List.find?_append, List.find?_map]
    have hsame : (p ∘ fun e : String × Node =>
        (e.1, mapInputs (redirect modelId modelSlot clipId clipSlot last) e.2)) = p :=
      funext fun e => hp _ e.1 e.2
    rw [hsame, he]
    rfl

theorem inputAt_injectLoras (hin : inputAt g id key = some value) (hplain : ∀ xs, value ≠ .arr xs)
    (h : injectLoras py loras g = .ok g') : inputAt g' id key = some value := by
  rcases injectLoras_ok h with rfl | ⟨next, modelId, modelSlot, clipId, clipSlot, last, hfresh, rfl⟩
  · exact hin
  · exact inputAt_rewired hfresh hin hplain

theorem owner_injectLoras (hid : owner g anchor = some id) (h : injectLoras py loras g = .ok g') :
    owner g' anchor = some id := by
  obtain ⟨e, he, rfl⟩ := Option.map_eq_some_iff.mp hid
  obtain ⟨f, hf⟩ := find?_injectLoras (fun f id node => declares_mapInputs f node anchor) he h
  unfold owner
  rw [hf]
  rfl

theorem HoldsAt.injectLoras (hs : HoldsAt g anchor key value) (hplain : ∀ xs, value ≠ .arr xs)
    (h : injectLoras py loras g = .ok g') : HoldsAt g' anchor key value := by
  obtain ⟨id, hid, hin⟩ := hs
  exact ⟨id, owner_injectLoras hid h, inputAt_injectLoras hin hplain h⟩

theorem view_injectVpred {cfg : ModelConfig} (h : injectVpred cfg g = .ok g') : g' = g := by
  unfold injectVpred at h
  split at h
  · cases h
  · exact (Except.ok.inj h).symm

theorem latentNode_injectLoras (h : injectLoras py loras g = .ok g') :
    latentNode g' = latentNode g := by
  rcases hfind : g.find? fun e => e.2.classType = .str "EmptyLatentImage" with _ | e
  · rcases injectLoras_ok h with rfl | ⟨next, modelId, modelSlot, clipId, clipSlot, last, -, rfl⟩
    · rfl
    · -- the new nodes are loaders
      have hnone : (rewired g next modelId modelSlot clipId clipSlot loras last).find?
          (fun e => e.2.classType = .str "EmptyLatentImage") = none := by
        unfold rewired
        rw [List.find?_eq_none] at hfind ⊢
        intro e he
        rcases List.mem_append.mp he with hold | hnew
        · obtain ⟨e', he', rfl⟩ := List.mem_map.mp hold
          rw [classType_mapInputs]
          exact hfind e' he'
        · obtain ⟨lora, -, model, clip, hnode⟩ := mem_loraNodes hnew
          rw [hnode]
          simp [loraNode]
      unfold latentNode
      rw [hnone, hfind]
  · obtain ⟨f, hf⟩ := find?_injectLoras (fun f id node => by rw [classType_mapInputs]) hfind h
    unfold latentNode
    rw [hf, hfind]
    rfl

/-- What the graph of an image request holds: the fields of the request, and its size. -/
theorem carried_image (h : injectImage py v seed g = .ok g')
    (hapart : Apart g' ["%POSITIVE_PROMPT%", "%NEGATIVE_PROMPT%"]) :
    (∀ f ∈ imageFields v seed, f.Plain → Carried g' f) ∧
      ∀ id, latentNode g' = some id → ∀ f ∈ latentPatch v, inputAt g' id f.1 = some f.2 := by
  obtain ⟨posId, hpos, h⟩ := bind_ok h
  obtain ⟨negId, hneg, h⟩ := bind_ok h
  obtain ⟨ksId, hks, h⟩ := bind_ok h
  obtain ⟨g1, h1, h⟩ := bind_ok h
  obtain ⟨g2, h2, h⟩ := bind_ok h
  obtain ⟨g3, h3, h⟩ := bind_ok h
  obtain ⟨g4, h4, h⟩ := bind_ok h
  obtain ⟨g5, h5, h⟩ := bind_ok h
  obtain ⟨g6, h6, h⟩ := bind_ok h
  rw [view_injectVpred h6] at h
  have hpos := findAnchor_ok hpos
  have hneg := findAnchor_ok hneg
  have hks := findAnchor_ok hks
  have howner : ∀ {anchor id}, owner g anchor = some id → owner g' anchor = some id := by
    intro anchor id hid
    refine owner_injectLoras ?_ h
    rw [owner_same (K := fun _ _ => false) (view_injectModelSource (fun _ _ _ => rfl) h5),
      owner_same (K := fun _ _ => false) (view_injectLatent (fun _ _ _ => rfl) h4),
      owner_assign h3, owner_assign h2, owner_assign h1, hid]
  have hlate : ∀ {anchor key value}, key ∉ imageInputs → (∀ xs, value ≠ .arr xs) →
      HoldsAt g3 anchor key value → HoldsAt g' anchor key value := by
    intro anchor key value hkey hplain hs
    refine HoldsAt.injectLoras (hs.otherKeys ?_) hplain h
    have hfree : Free (named key) imageInputs := free_named hkey
    have hmodel : Free (named key) modelInputs := hfree.mono (List.subset_append_right _ _)
    rw [view_injectModelSource hmodel h5, view_injectLatent hfree h4]
  have htext : "text" ∉ imageInputs := by decide
  have hsampler : "text" ∉ (samplerPatch v seed).map (·.1) := by
    change "text" ∉ ["seed", "steps", "cfg", "sampler_name", "scheduler"]
    decide
  refine ⟨fun f hf hplain => ?_, fun id hid => ?_⟩
  · simp only [imageFields, fieldsAt, List.mem_append, List.map_cons, List.map_nil,
      List.mem_singleton] at hf
    rcases hf with (rfl | rfl) | hf
    · have hs1 : HoldsAt g1 "%POSITIVE_PROMPT%" "text" (.str v.prompt) :=
        holdsAt_assign hpos (by simp) (by simp) h1
      have hne : owner g1 "%POSITIVE_PROMPT%" ≠ some negId := by
        rw [owner_assign h1, hpos, ← howner hneg, ← howner hpos]
        rcases hapart _ List.mem_cons_self _ (List.mem_cons_of_mem _ List.mem_cons_self)
          (by decide) with hnone | hne
        · rw [howner hpos] at hnone
          cases hnone
        · exact hne
      have hs2 := hs1.elsewhere (view_assign_elsewhere hne h2)
      have hs3 := hs2.otherKeys (view_assign (named_patch hsampler _) h3)
      exact hlate htext hplain hs3
    · have howner : owner g1 "%NEGATIVE_PROMPT%" = some negId := by rw [owner_assign h1, hneg]
      have hs2 : HoldsAt g2 "%NEGATIVE_PROMPT%" "text" v.negativePrompt :=
        holdsAt_assign howner (by simp) (by simp) h2
      have hs3 := hs2.otherKeys (view_assign (named_patch hsampler _) h3)
      exact hlate htext hplain hs3
    · obtain ⟨e, he, rfl⟩ := List.mem_map.mp hf
      have howner : owner g2 "%KSAMPLER%" = some ksId := by
        rw [owner_assign h2, owner_assign h1, hks]
      have hs3 : HoldsAt g3 "%KSAMPLER%" e.1 e.2 :=
        holdsAt_assign howner (by simp [samplerPatch]) he h3
      have hkeys : ∀ key ∈ ["seed", "steps", "cfg", "sampler_name", "scheduler"],
          key ∉ imageInputs := by decide
      have hkey : e.1 ∈ (samplerPatch v seed).map (·.1) := List.mem_map_of_mem he
      exact hlate (hkeys e.1 hkey) hplain hs3
  · rw [latentNode_injectLoras h] at hid
    have hid3 : latentNode g3 = some id := by
      rw [← latentNode_same (K := fun _ _ => false) (view_injectLatent (fun _ _ _ => rfl) h4),
        ← latentNode_same (K := fun _ _ => false) (view_injectModelSource (fun _ _ _ => rfl) h5),
        hid]
    have hassign : assign g3 id (latentPatch v) = .ok g4 := by
      obtain ⟨e, he, rfl⟩ := Option.map_eq_some_iff.mp hid3
      unfold injectLatent at h4
      rw [he] at h4
      exact h4
    intro f hf
    have hkeys : ∀ key ∈ ["width", "height", "batch_size"], key ∉ modelInputs := by decide
    have hfresh : f.1 ∉ modelInputs := hkeys f.1 (List.mem_map_of_mem (f := (·.1)) hf)
    have hplain : ∀ xs, f.2 ≠ .arr xs := by
      simp only [latentPatch, List.mem_cons, List.not_mem_nil, or_false] at hf
      rcases hf with rfl | rfl | rfl <;> simp
    obtain ⟨hdict, hwrite⟩ := assign_ok hassign
    have hin4 : inputAt g4 id f.1 = some f.2 := by
      rw [hwrite, inputAt_write (by simp [latentPatch]) hdict, if_pos rfl,
        lookup_of_mem (by simp [latentPatch]) hf, Option.some_or]
    have hin5 : inputAt g5 id f.1 = some f.2 := by
      have hview := view_injectModelSource (free_named hfresh) h5
      rw [← inputAt_view (K := named f.1) (decide_eq_true rfl) g5, hview,
        inputAt_view (decide_eq_true rfl), hin4]
    exact inputAt_injectLoras hin5 hplain h

end Image

/-! ## Edits at anchors -/

/-- The edit leaves every node alone but those of these anchors. -/
def Touches (anchors : List String) (g g' : Graph) : Prop :=
  (∀ anchor, owner g' anchor = owner g anchor) ∧ ∀ anchor,
    (∀ a ∈ anchors, owner g a = none ∨ owner g a ≠ owner g anchor) →
      view (nodeOf g anchor) g' = view (nodeOf g anchor) g

section Touches

variable {g g' g'' : Graph} {anchor key id caller : String} {value : Json} {patch : Fields}
  {as bs : List String}

theorem Touches.refl (as : List String) (g : Graph) : Touches as g g :=
  ⟨fun _ => rfl, fun _ _ => rfl⟩

theorem Touches.trans (h : Touches as g g') (h' : Touches bs g' g'') :
    Touches (as ++ bs) g g'' := by
  refine ⟨fun anchor => (h'.1 anchor).trans (h.1 anchor), fun anchor hfar => ?_⟩
  have hnode : nodeOf g' anchor = nodeOf g anchor := by
    unfold nodeOf
    rw [h.1]
  have hlast := h'.2 anchor fun a ha => by
    rw [h.1, h.1]
    exact hfar a (List.mem_append_right _ ha)
  rw [hnode] at hlast
  exact hlast.trans (h.2 anchor fun a ha => hfar a (List.mem_append_left _ ha))

theorem Touches.mono (h : Touches as g g') (hsub : as ⊆ bs) : Touches bs g g' :=
  ⟨h.1, fun anchor hfar => h.2 anchor fun a ha => hfar a (hsub ha)⟩

theorem touches_write (howner : owner g anchor = some id) (patch : Fields) :
    Touches [anchor] g (write g id patch) := by
  refine ⟨owner_write g id patch, fun a hfar => view_write fun _ _ => decide_eq_false fun heq => ?_⟩
  rcases hfar anchor (List.mem_singleton.mpr rfl) with hnone | hne
  · rw [howner] at hnone
    cases hnone
  · exact hne (howner.trans heq.symm)

theorem touches_assign (howner : owner g anchor = some id) (h : assign g id patch = .ok g') :
    Touches [anchor] g g' := by
  obtain ⟨-, rfl⟩ := assign_ok h
  exact touches_write howner patch

theorem touches_assignIfFound (h : assignIfFound g anchor patch = .ok g') :
    Touches [anchor] g g' := by
  rcases passKeyError_ok h with rfl | h
  · exact Touches.refl _ _
  · obtain ⟨id, hid, h⟩ := bind_ok h
    exact touches_assign (findAnchor_ok hid) h

theorem touches_injectAt (h : injectAt caller g anchor patch = .ok g') : Touches [anchor] g g' := by
  obtain ⟨id, hid, h⟩ := bind_ok h
  obtain ⟨-, rfl⟩ := assignOr_ok h
  exact touches_write (findOr_ok hid) patch

/-- A field whose anchor stands apart from those of an edit stays. -/
theorem HoldsAt.touches (hs : HoldsAt g anchor key value) (h : Touches as g g')
    {all : List String} (hapart : Apart g all) (hsub : as ⊆ all) (hall : anchor ∈ all)
    (hfresh : anchor ∉ as) : HoldsAt g' anchor key value := by
  refine hs.elsewhere (h.2 anchor fun a ha => ?_)
  exact hapart a (hsub ha) anchor hall fun heq => hfresh (heq ▸ ha)

theorem Apart.before {all : List String} (hapart : Apart g' all) (h : Touches as g g') :
    Apart g all := by
  intro a ha b hb hne
  have hab := hapart a ha b hb hne
  rw [h.1, h.1] at hab
  exact hab

theorem Apart.mono {all sub : List String} (hapart : Apart g all) (h : sub ⊆ all) : Apart g sub :=
  fun a ha b hb => hapart a (h ha) b (h hb)

theorem holdsAt_injectAt (hpatch : (patch.map (·.1)).Nodup) (hvalue : (key, value) ∈ patch)
    (h : injectAt caller g anchor patch = .ok g') : HoldsAt g' anchor key value := by
  obtain ⟨id, hid, h⟩ := bind_ok h
  obtain ⟨hdict, rfl⟩ := assignOr_ok h
  exact holdsAt_assign (findOr_ok hid) hpatch hvalue (assign_of_isDict hdict)

/-- Where the anchor stands on a node with inputs. -/
def HoldsIfThere (g : Graph) (anchor key : String) (value : Json) : Prop :=
  ∀ id, owner g anchor = some id → (inputsAt g id).isDict = true → HoldsAt g anchor key value

theorem holdsIfThere_assignIfFound (hpatch : (patch.map (·.1)).Nodup)
    (hvalue : (key, value) ∈ patch) (h : assignIfFound g anchor patch = .ok g') :
    HoldsIfThere g' anchor key value := by
  intro id hid hdict
  have hkept : view (fun _ _ => false) g' = view (fun _ _ => false) g :=
    view_assignIfFound (fun _ _ _ => rfl) h
  rw [owner_same hkept] at hid
  rw [isDict_same hkept] at hdict
  unfold assignIfFound at h
  rw [findAnchor_of_owner hid] at h
  change passKeyError g (assign g id patch) = .ok g' at h
  rw [assign_of_isDict hdict] at h
  have hassign : assign g id patch = .ok g' := (assign_of_isDict hdict).trans h
  exact holdsAt_assign hid hpatch hvalue hassign

theorem HoldsIfThere.touches (hs : HoldsIfThere g anchor key value) (h : Touches as g g')
    {all : List String} (hapart : Apart g all) (hsub : as ⊆ all) (hall : anchor ∈ all)
    (hfresh : anchor ∉ as) : HoldsIfThere g' anchor key value := by
  intro id hid hdict
  rw [h.1] at hid
  have hfar : ∀ a ∈ as, owner g a = none ∨ owner g a ≠ owner g anchor :=
    fun a ha => hapart a (hsub ha) anchor hall fun heq => hfresh (heq ▸ ha)
  rw [isDict_same (h.2 anchor hfar)] at hdict
  exact (hs id hid hdict).touches h hapart hsub hall hfresh

end Touches

/-! ## Videos of LTX models -/

def ltxvFields (v : ValidatedVideoJob) (seed : Int) : List Field :=
  [⟨"%LTXV_POSITIVE%", "text", .str v.prompt⟩, ⟨"%LTXV_NEGATIVE%", "text", .str v.negativePrompt⟩,
    ⟨"%LTXV_SEED%", "seed", .int (seed % 1125899906842624)⟩,
    ⟨"%LTXV_FRAMES%", "value", .int v.frames⟩]

def ltxvAnchors : List String :=
  ["%LTXV_POSITIVE%", "%LTXV_NEGATIVE%", "%LTXV_SEED%", "%LTXV_FRAMES%", "%LTXV_OUTPUT%"]

theorem carried_ltxv {g g' : Graph} {v : ValidatedVideoJob} {seed : Int}
    (h : injectLtxv v seed g = .ok g') (hapart : Apart g' ltxvAnchors) :
    (∀ f ∈ ltxvFields v seed, Carried g' f) ∧
      HoldsIfThere g' "%LTXV_OUTPUT%" "frame_rate" (.float v.fps) := by
  obtain ⟨g1, h1, h⟩ := bind_ok h
  obtain ⟨g2, h2, h⟩ := bind_ok h
  obtain ⟨posId, hpos, h⟩ := bind_ok h
  obtain ⟨negId, hneg, h⟩ := bind_ok h
  obtain ⟨g3, h3, h⟩ := bind_ok h
  obtain ⟨g4, h4, h⟩ := bind_ok h
  obtain ⟨g5, h5, h⟩ := bind_ok h
  obtain ⟨g6, h6, h⟩ := bind_ok h
  have hpos := findAnchor_ok hpos
  have hneg : owner g3 "%LTXV_NEGATIVE%" = some negId := by
    rw [owner_assign h3, findAnchor_ok hneg]
  -- what all the edits from one on touch
  have t7 : Touches ["%LTXV_OUTPUT%"] g6 g' := touches_assignIfFound h
  have t6 : Touches ["%LTXV_FRAMES%", "%LTXV_OUTPUT%"] g5 g' := (touches_injectAt h6).trans t7
  have t5 : Touches ["%LTXV_SEED%", "%LTXV_FRAMES%", "%LTXV_OUTPUT%"] g4 g' :=
    (touches_injectAt h5).trans t6
  have t4 : Touches ["%LTXV_NEGATIVE%", "%LTXV_SEED%", "%LTXV_FRAMES%", "%LTXV_OUTPUT%"] g3 g' :=
    (touches_assign hneg h4).trans t5
  constructor
  · intro f hf
    simp only [ltxvFields, List.mem_cons, List.not_mem_nil, or_false] at hf
    rcases hf with rfl | rfl | rfl | rfl
    · exact (holdsAt_assign hpos (by simp) (by simp) h3).touches t4 (hapart.before t4)
        (by decide) (by decide) (by decide)
    · exact (holdsAt_assign hneg (by simp) (by simp) h4).touches t5 (hapart.before t5)
        (by decide) (by decide) (by decide)
    · exact (holdsAt_injectAt (by simp) (by simp) h5).touches t6 (hapart.before t6)
        (by decide) (by decide) (by decide)
    · exact (holdsAt_injectAt (by simp) (by simp) h6).touches t7 (hapart.before t7)
        (by decide) (by decide) (by decide)
  · exact holdsIfThere_assignIfFound (by simp) (by simp) h

/-! ## Videos of WAN models -/

/-- What a field is worth where its anchor is one that a graph may lack. -/
def CarriedIfThere (g : Graph) (f : Field) : Prop := HoldsIfThere g f.anchor f.key f.value

def promptFields (v : ValidatedVideoJob) (core : Bool) : List Field :=
  if core then
    [⟨"%WAN_POSITIVE%", "text", .str v.prompt⟩, ⟨"%WAN_NEGATIVE%", "text", .str v.negativePrompt⟩]
  else
    [⟨"%WAN_PROMPTS%", "positive_prompt", .str v.prompt⟩,
      ⟨"%WAN_PROMPTS%", "negative_prompt", .str v.negativePrompt⟩]

/-- The input of a node that takes the count of frames. -/
def framesKey (g : Graph) : String :=
  inputFor "WanImageToVideo" "length" "num_frames"
    (((owner g "%WAN_DIMS%").map (classAt g)).getD (.other "None"))

def dimsPatch (v : ValidatedVideoJob) (framesInput : String) : Fields :=
  [("width", .int v.width), ("height", .int v.height), (framesInput, .int v.frames)]

/-- The graph has two passes. -/
def twoPasses (g : Graph) : Bool :=
  (owner g "%WAN_SAMPLER%").any fun id => classAt g id = .str "KSamplerAdvanced"

def halfSteps (v : ValidatedVideoJob) : Int := max 1 (v.steps / 2)

def wanSamplerPatch (v : ValidatedVideoJob) (seed : Int) (two : Bool) : Fields :=
  if two then
    passFields v seed ++
      [("end_at_step", .int (halfSteps v)), ("return_with_leftover_noise", .str "enable")]
  else
    [("seed", .int seed), ("steps", .int v.steps), ("cfg", .float v.cfg),
      ("shift", .float v.shift), ("scheduler", .str v.scheduler),
      ("riflex_freq_index", .int v.riflexFreqIndex), ("force_offload", .bool v.forceOffload)]

def wanFields (v : ValidatedVideoJob) (seed : Int) (g : Graph) : List Field :=
  promptFields v (isCore g) ++ fieldsAt "%WAN_DIMS%" (dimsPatch v (framesKey g)) ++
    fieldsAt "%WAN_SAMPLER%" (wanSamplerPatch v seed (twoPasses g))

def soundPatch (py : Builtins) (v : ValidatedVideoJob) (seed : Int) : Fields :=
  [("duration", .float (durationOf py v)), ("prompt", .str v.prompt),
    ("negative_prompt", .str v.negativePrompt), ("seed", .int seed),
    ("force_offload", .bool v.forceOffload)]

/-- What the sampler writes to anchors that a graph may lack. -/
def passesOptional (v : ValidatedVideoJob) (seed : Int) (two : Bool) : List Field :=
  if two then
    [⟨"%WAN_SHIFT%", "shift", .float v.shift⟩] ++
      fieldsAt "%WAN_NAG_SAMPLER%" (passFields v seed ++ [("start_at_step", .int (halfSteps v))])
  else []

def wanOptional (py : Builtins) (v : ValidatedVideoJob) (seed : Int) (g : Graph) : List Field :=
  passesOptional v seed (twoPasses g) ++ [⟨"%VIDEO_OUTPUT%", "frame_rate", .float v.fps⟩] ++
    fieldsAt "%MMAUDIO_SAMPLER%" (soundPatch py v seed)

def promptAnchors (core : Bool) : List String :=
  if core then ["%WAN_POSITIVE%", "%WAN_NEGATIVE%"] else ["%WAN_PROMPTS%"]

def samplerAnchors (two : Bool) : List String :=
  if two then ["%WAN_SAMPLER%", "%WAN_SHIFT%", "%WAN_NAG_SAMPLER%"] else ["%WAN_SAMPLER%"]

/-- The anchors of a WAN graph that the request is written to. -/
def wanAnchors (core two : Bool) : List String :=
  promptAnchors core ++
    "%WAN_DIMS%" :: (samplerAnchors two ++ ["%VIDEO_OUTPUT%", "%MMAUDIO_SAMPLER%"])

theorem promptAnchors_fresh : ∀ core two, ∀ a ∈ promptAnchors core,
    a ∉ "%WAN_DIMS%" :: (samplerAnchors two ++ ["%VIDEO_OUTPUT%", "%MMAUDIO_SAMPLER%"]) := by decide

theorem dims_fresh : ∀ two,
    "%WAN_DIMS%" ∉ samplerAnchors two ++ ["%VIDEO_OUTPUT%", "%MMAUDIO_SAMPLER%"] := by decide

theorem sampler_mem : ∀ two, "%WAN_SAMPLER%" ∈ samplerAnchors two := by decide

theorem samplerAnchors_fresh : ∀ two, ∀ a ∈ samplerAnchors two,
    a ∉ ["%VIDEO_OUTPUT%", "%MMAUDIO_SAMPLER%"] := by decide

section Wan

variable {py : Builtins} {g g' : Graph} {v : ValidatedVideoJob} {seed : Int}

theorem carried_prompts (h : injectPrompts v g = .ok g') :
    Touches (promptAnchors (isCore g)) g g' ∧ (Apart g' (promptAnchors (isCore g)) →
      ∀ f ∈ promptFields v (isCore g), f.anchor ∈ promptAnchors (isCore g) ∧ Carried g' f) := by
  unfold injectPrompts at h
  unfold promptAnchors promptFields
  by_cases hcore : isCore g = true
  · simp only [hcore, ↓reduceIte] at h ⊢
    obtain ⟨posId, hpos, h⟩ := bind_ok h
    obtain ⟨negId, hneg, h⟩ := bind_ok h
    obtain ⟨g1, h1, h⟩ := bind_ok h
    have hpos := findAnchor_ok hpos
    have hneg : owner g1 "%WAN_NEGATIVE%" = some negId := by
      rw [owner_assign h1, findAnchor_ok hneg]
    have t2 : Touches ["%WAN_NEGATIVE%"] g1 g' := touches_assign hneg h
    refine ⟨(touches_assign hpos h1).trans t2, fun hapart f hf => ?_⟩
    simp only [List.mem_cons, List.not_mem_nil, or_false] at hf
    rcases hf with rfl | rfl
    · exact ⟨by simp, (holdsAt_assign hpos (by simp) (by simp) h1).touches t2 (hapart.before t2)
        (by decide) (by decide) (by decide)⟩
    · exact ⟨by simp, holdsAt_assign hneg (by simp) (by simp) h⟩
  · simp only [hcore, Bool.false_eq_true, ↓reduceIte] at h ⊢
    obtain ⟨promptsId, hid, h⟩ := bind_ok h
    have hid := findAnchor_ok hid
    refine ⟨touches_assign hid h, fun _ f hf => ?_⟩
    simp only [List.mem_cons, List.not_mem_nil, or_false] at hf
    rcases hf with rfl | rfl
    · exact ⟨by simp, holdsAt_assign hid (by simp) (by simp) h⟩
    · exact ⟨by simp, holdsAt_assign hid (by simp) (by simp) h⟩

theorem carried_dims (h : injectDims v g = .ok g') :
    Touches ["%WAN_DIMS%"] g g' ∧
      ∀ f ∈ fieldsAt "%WAN_DIMS%" (dimsPatch v (framesKey g)), Carried g' f := by
  obtain ⟨dimsId, hid, h⟩ := bind_ok h
  have hid := findAnchor_ok hid
  have hkey : framesKey g =
      inputFor "WanImageToVideo" "length" "num_frames" (classAt g dimsId) := by
    unfold framesKey
    rw [hid]
    rfl
  have hassign : assign g dimsId (dimsPatch v (framesKey g)) = .ok g' := by
    rw [hkey]
    exact h
  have hnodup : ((dimsPatch v (framesKey g)).map (·.1)).Nodup := by
    rw [hkey]
    unfold dimsPatch inputFor
    split <;> simp
  refine ⟨touches_assign hid hassign, fun f hf => ?_⟩
  obtain ⟨e, he, rfl⟩ := List.mem_map.mp hf
  exact holdsAt_assign hid hnodup he hassign

theorem twoPasses_eq {samplerId : String} (hid : owner g "%WAN_SAMPLER%" = some samplerId) :
    twoPasses g = decide (classAt g samplerId = .str "KSamplerAdvanced") := by
  unfold twoPasses
  rw [hid]
  rfl

theorem carried_sampler (h : injectSampler v seed g = .ok g') :
    Touches (samplerAnchors (twoPasses g)) g g' ∧ (Apart g' (samplerAnchors (twoPasses g)) →
      (∀ e ∈ wanSamplerPatch v seed (twoPasses g), HoldsAt g' "%WAN_SAMPLER%" e.1 e.2) ∧
      ∀ f ∈ passesOptional v seed (twoPasses g),
        f.anchor ∈ samplerAnchors (twoPasses g) ∧ CarriedIfThere g' f) := by
  obtain ⟨samplerId, hid, h⟩ := bind_ok h
  have hid := findAnchor_ok hid
  have htwo := twoPasses_eq hid
  unfold samplerAnchors wanSamplerPatch passesOptional
  by_cases hclass : classAt g samplerId = .str "KSamplerAdvanced"
  · rw [decide_eq_true hclass] at htwo
    simp only [htwo, hclass, ↓reduceIte] at h ⊢
    obtain ⟨g1, h1, h⟩ := bind_ok h
    obtain ⟨g2, h2, h⟩ := bind_ok h
    have t3 : Touches ["%WAN_NAG_SAMPLER%"] g2 g' := touches_assignIfFound h
    have t2 : Touches ["%WAN_SHIFT%", "%WAN_NAG_SAMPLER%"] g1 g' :=
      (touches_assignIfFound h2).trans t3
    refine ⟨(touches_assign hid h1).trans t2, fun hapart => ⟨fun e he => ?_, fun f hf => ?_⟩⟩
    · exact (holdsAt_assign hid (by simp [passFields]) he h1).touches t2 (hapart.before t2)
        (by decide) (by decide) (by decide)
    · rcases List.mem_append.mp hf with hf | hf
      · rw [List.mem_singleton.mp hf]
        exact ⟨by simp, (holdsIfThere_assignIfFound (by simp) (by simp) h2).touches t3
          (hapart.before t3) (by decide) (by decide) (by decide)⟩
      · obtain ⟨e, he, rfl⟩ := List.mem_map.mp hf
        exact ⟨by simp, holdsIfThere_assignIfFound (by simp [passFields]) he h⟩
  · rw [decide_eq_false hclass] at htwo
    simp only [htwo, hclass, Bool.false_eq_true, ↓reduceIte] at h ⊢
    refine ⟨touches_assign hid h, fun _ => ⟨fun e he => ?_, List.forall_mem_nil _⟩⟩
    exact holdsAt_assign hid (by simp) he h

theorem passKeyError_error {e : GraphError} (h : passKeyError g (.error e) = .ok g') :
    ∃ m, e = .other "KeyError" m := by
  unfold passKeyError at h
  split at h
  · rename_i m heq
    exact ⟨m, Except.error.inj heq⟩
  · cases h

/-- At a node with inputs, the two writes of the sound sampler come through together. -/
theorem injectMmaudioSampler_ok {id : String} (hid : owner g "%MMAUDIO_SAMPLER%" = some id)
    (hdict : (inputsAt g id).isDict = true) (h : injectMmaudioSampler py v seed g = .ok g') :
    ∃ steps cfg, g' = write (write g id (soundPatch py v seed)) id
      [("steps", .int steps), ("cfg", .float cfg)] := by
  unfold injectMmaudioSampler at h
  rw [findAnchor_of_owner hid] at h
  change passKeyError g ((assign g id (soundPatch py v seed)).bind _) = .ok g' at h
  rw [assign_of_isDict hdict, Except.bind] at h
  rcases hsteps : toInt py ((v.model.defaults.lookup "mmaudio_steps").getD (.int 25)) with e | n
  · simp only [hsteps, bind, Except.bind] at h
    obtain ⟨m, rfl⟩ := passKeyError_error h
    exact absurd hsteps toInt_ne_keyError
  · rcases hcfg : toFloat py ((v.model.defaults.lookup "mmaudio_cfg").getD
      (.float (.finite (9 / 2)))) with e | x
    · simp only [hsteps, hcfg, bind, Except.bind] at h
      obtain ⟨m, rfl⟩ := passKeyError_error h
      exact absurd hcfg toFloat_ne_keyError
    · simp only [hsteps, hcfg, bind, Except.bind] at h
      exact ⟨n, x, (Except.ok.inj h).symm⟩

theorem touches_sound (h : injectMmaudioSampler py v seed g = .ok g') :
    Touches ["%MMAUDIO_SAMPLER%"] g g' := by
  rcases passKeyError_ok h with rfl | h
  · exact Touches.refl _ _
  · obtain ⟨id, hid, h⟩ := bind_ok h
    obtain ⟨g1, h1, h⟩ := bind_ok h
    obtain ⟨steps, -, h⟩ := bind_ok h
    obtain ⟨cfg, -, h⟩ := bind_ok h
    cases h
    have hid := findAnchor_ok hid
    have howner : owner g1 "%MMAUDIO_SAMPLER%" = some id := by rw [owner_assign h1, hid]
    exact ((touches_assign hid h1).trans (touches_write howner _)).mono (by simp)

theorem holdsIfThere_sound (h : injectMmaudioSampler py v seed g = .ok g') :
    ∀ e ∈ soundPatch py v seed, HoldsIfThere g' "%MMAUDIO_SAMPLER%" e.1 e.2 := by
  intro e he id hid hdict
  have hkept : view (fun _ _ => false) g' = view (fun _ _ => false) g :=
    view_injectMmaudioSampler (fun _ _ _ => rfl) h
  rw [owner_same hkept] at hid
  rw [isDict_same hkept] at hdict
  obtain ⟨steps, cfg, rfl⟩ := injectMmaudioSampler_ok hid hdict h
  have hs : HoldsAt (write g id (soundPatch py v seed)) "%MMAUDIO_SAMPLER%" e.1 e.2 :=
    holdsAt_assign hid (by simp [soundPatch]) he (assign_of_isDict hdict)
  have hkeys : ∀ key ∈ ["duration", "prompt", "negative_prompt", "seed", "force_offload"],
      key ∉ ["steps", "cfg"] := by decide
  exact hs.otherKeys (view_write (named_patch (hkeys e.1 (List.mem_map_of_mem (f := (·.1)) he)) id))

theorem twoPasses_same {K : String → String → Bool} (h : view K g' = view K g) :
    twoPasses g' = twoPasses g := by
  unfold twoPasses
  rw [owner_same h]
  simp only [classAt_same h]

theorem framesKey_same {K : String → String → Bool} (h : view K g' = view K g) :
    framesKey g' = framesKey g := by
  have hclass : classAt g' = classAt g := funext fun id => classAt_same h id
  unfold framesKey
  rw [owner_same h, hclass]

/-- What the graph of a video request of a WAN model holds. -/
theorem carried_wan (h : injectWanRequest py v seed g = .ok g')
    (hapart : Apart g' (wanAnchors (isCore g') (twoPasses g'))) :
    (∀ f ∈ wanFields v seed g', Carried g' f) ∧
      ∀ f ∈ wanOptional py v seed g', CarriedIfThere g' f := by
  obtain ⟨g1, h1, h⟩ := bind_ok h
  obtain ⟨g2, h2, h⟩ := bind_ok h
  obtain ⟨g3, h3, h⟩ := bind_ok h
  obtain ⟨g4, h4, h⟩ := bind_ok h
  obtain ⟨t1, hprompts⟩ := carried_prompts h1
  obtain ⟨t2, hdims⟩ := carried_dims h2
  obtain ⟨t3, hsampler⟩ := carried_sampler h3
  -- the classes and the anchors stay, so each edit sees the same kind of graph
  have v5 : view (fun _ _ => false) g' = view (fun _ _ => false) g4 :=
    view_injectMmaudioSampler (fun _ _ _ => rfl) h
  have v4 : view (fun _ _ => false) g4 = view (fun _ _ => false) g3 :=
    view_assignIfFound (fun _ _ _ => rfl) h4
  have v3 : view (fun _ _ => false) g3 = view (fun _ _ => false) g2 :=
    view_injectSampler (fun _ _ _ => rfl) h3
  have v2 : view (fun _ _ => false) g2 = view (fun _ _ => false) g1 :=
    view_injectDims (fun _ _ _ => rfl) h2
  have v1 : view (fun _ _ => false) g1 = view (fun _ _ => false) g :=
    view_injectPrompts (fun _ _ _ => rfl) h1
  have hcore : isCore g = isCore g' :=
    (isCore_same (v5.trans (v4.trans (v3.trans (v2.trans v1))))).symm
  have htwo : twoPasses g2 = twoPasses g' := (twoPasses_same (v5.trans (v4.trans v3))).symm
  have hframes : framesKey g1 = framesKey g' :=
    (framesKey_same (v5.trans (v4.trans (v3.trans v2)))).symm
  rw [hcore] at t1 hprompts
  rw [htwo] at t3 hsampler
  rw [hframes] at hdims
  -- what all the edits from one on touch
  have s5 : Touches ["%MMAUDIO_SAMPLER%"] g4 g' := touches_sound h
  have s4 : Touches ["%VIDEO_OUTPUT%", "%MMAUDIO_SAMPLER%"] g3 g' :=
    (touches_assignIfFound h4).trans s5
  have s3 := t3.trans s4
  have s2 := t2.trans s3
  have hsub4 : ["%VIDEO_OUTPUT%", "%MMAUDIO_SAMPLER%"] ⊆ wanAnchors (isCore g') (twoPasses g') :=
    fun a ha => List.mem_append_right _ (List.mem_cons_of_mem _ (List.mem_append_right _ ha))
  have hsub3 : samplerAnchors (twoPasses g') ++ ["%VIDEO_OUTPUT%", "%MMAUDIO_SAMPLER%"] ⊆
      wanAnchors (isCore g') (twoPasses g') :=
    fun a ha => List.mem_append_right _ (List.mem_cons_of_mem _ ha)
  have hsub2 : ["%WAN_DIMS%"] ++ (samplerAnchors (twoPasses g') ++
      ["%VIDEO_OUTPUT%", "%MMAUDIO_SAMPLER%"]) ⊆ wanAnchors (isCore g') (twoPasses g') :=
    fun a ha => List.mem_append_right _ ha
  have hprompt : promptAnchors (isCore g') ⊆ wanAnchors (isCore g') (twoPasses g') :=
    List.subset_append_left _ _
  have hsamplerSub : samplerAnchors (twoPasses g') ⊆ wanAnchors (isCore g') (twoPasses g') :=
    fun a ha => hsub3 (List.mem_append_left _ ha)
  have hdimsMem : "%WAN_DIMS%" ∈ wanAnchors (isCore g') (twoPasses g') :=
    List.mem_append_right _ List.mem_cons_self
  obtain ⟨hpasses, hoptional⟩ := hsampler ((hapart.before s4).mono hsamplerSub)
  constructor
  · intro f hf
    rcases List.mem_append.mp hf with hf | hf
    · rcases List.mem_append.mp hf with hf | hf
      · obtain ⟨hmem, hs⟩ := hprompts ((hapart.before s2).mono hprompt) f hf
        exact hs.touches s2 (hapart.before s2) hsub2 (hprompt hmem)
          (promptAnchors_fresh _ _ _ hmem)
      · have hs := hdims f hf
        obtain ⟨e, -, rfl⟩ := List.mem_map.mp hf
        exact hs.touches s3 (hapart.before s3) hsub3 hdimsMem (dims_fresh _)
    · obtain ⟨e, he, rfl⟩ := List.mem_map.mp hf
      have hmem : "%WAN_SAMPLER%" ∈ samplerAnchors (twoPasses g') := sampler_mem _
      exact (hpasses e he).touches s4 (hapart.before s4) hsub4 (hsamplerSub hmem)
        (samplerAnchors_fresh _ _ hmem)
  · intro f hf
    rcases List.mem_append.mp hf with hf | hf
    · rcases List.mem_append.mp hf with hf | hf
      · obtain ⟨hmem, hs⟩ := hoptional f hf
        exact hs.touches s4 (hapart.before s4) hsub4 (hsamplerSub hmem)
          (samplerAnchors_fresh _ _ hmem)
      · rw [List.mem_singleton.mp hf]
        have hs : HoldsIfThere g4 "%VIDEO_OUTPUT%" "frame_rate" (.float v.fps) :=
          holdsIfThere_assignIfFound (by simp) (by simp) h4
        exact hs.touches s5 (hapart.before s5) (fun a ha => hsub4 (List.mem_cons_of_mem _ ha))
          (hsub4 List.mem_cons_self) (by decide)
    · obtain ⟨e, he, rfl⟩ := List.mem_map.mp hf
      exact holdsIfThere_sound h e he

end Wan

/-! ## The initial image -/

section InitImage

variable {g g' : Graph} {filename anchor key : String} {value : Json}

theorem HoldsAt.initImage (hs : HoldsAt g anchor key value) (hkey : key ≠ "image")
    (h : injectInitImage g filename = .ok g') : HoldsAt g' anchor key value :=
  hs.keeps fun _ => keeps_injectInitImage hkey h

/-- The initial image goes to the node of its anchor. -/
theorem inputsAt_initImage {id : String} (hne : owner g "%INIT_IMAGE%" ≠ some id)
    (h : injectInitImage g filename = .ok g') : inputsAt g' id = inputsAt g id := by
  unfold injectInitImage at h
  split at h
  · cases h
    rfl
  · rename_i imageId hid
    have hother : id ≠ imageId := fun heq => hne (by rw [hid, heq])
    split at h
    · cases h
    · cases h
      unfold inputsAt
      rw [lookup_mapEntries]
      cases g.lookup id with
      | none => rfl
      | some node => simp [hother]

theorem HoldsIfThere.initImage (hs : HoldsIfThere g anchor key value) (hkey : key ≠ "image")
    (hne : owner g' "%INIT_IMAGE%" = none ∨ owner g' "%INIT_IMAGE%" ≠ owner g' anchor)
    (h : injectInitImage g filename = .ok g') : HoldsIfThere g' anchor key value := by
  intro id hid hdict
  have hkeeps : Keeps key 0 g g' := keeps_injectInitImage hkey h
  have howner := hkeeps.owner_eq
  rw [howner, howner] at hne
  rw [howner] at hid
  have hother : owner g "%INIT_IMAGE%" ≠ some id := by
    rcases hne with hnone | hne
    · simp [hnone]
    · rw [← hid]
      exact hne
  rw [inputsAt_initImage hother h] at hdict
  exact (hs id hid hdict).initImage hkey h

theorem classes_initImage (h : injectInitImage g filename = .ok g') :
    ∃ f : String × Node → Node, g' = g.map (fun e => (e.1, f e)) ∧
      ∀ e, (f e).classType = e.2.classType := by
  unfold injectInitImage at h
  split at h
  · cases h
    exact ⟨fun e => e.2, (List.map_id g).symm, fun _ => rfl⟩
  · split at h
    · cases h
    · cases h
      refine ⟨_, rfl, fun e => ?_⟩
      split <;> rfl

theorem latentNode_initImage (h : injectInitImage g filename = .ok g') :
    latentNode g' = latentNode g := by
  obtain ⟨f, rfl, hclass⟩ := classes_initImage h
  unfold latentNode
  rw [List.find?_map, Option.map_map]
  simp only [Function.comp_def, hclass]

theorem isCore_initImage (h : injectInitImage g filename = .ok g') : isCore g' = isCore g := by
  obtain ⟨f, rfl, hclass⟩ := classes_initImage h
  unfold isCore
  rw [List.any_map]
  simp only [Function.comp_def, hclass]

theorem twoPasses_initImage (h : injectInitImage g filename = .ok g') :
    twoPasses g' = twoPasses g := by
  have hkeeps : Keeps "seed" 0 g g' := keeps_injectInitImage (by decide) h
  unfold twoPasses
  rw [hkeeps.owner_eq]
  simp only [hkeeps.class_eq]

theorem framesKey_initImage (h : injectInitImage g filename = .ok g') :
    framesKey g' = framesKey g := by
  have hkeeps : Keeps "seed" 0 g g' := keeps_injectInitImage (by decide) h
  have hclass : classAt g' = classAt g := funext hkeeps.class_eq
  unfold framesKey
  rw [hkeeps.owner_eq, hclass]

end InitImage

/-! ## Jobs -/

def requestFields (seed : Int) (g : Graph) : Validated → List Field
  | .image v => imageFields v seed
  | .ltxv v => ltxvFields v seed
  | .wan v _ => wanFields v seed g

/-- Of anchors that a graph may lack. -/
def optionalFields (py : Builtins) (seed : Int) (g : Graph) : Validated → List Field
  | .image _ => []
  | .ltxv v => [⟨"%LTXV_OUTPUT%", "frame_rate", .float v.fps⟩]
  | .wan v _ => wanOptional py v seed g

/-- The anchors that a graph must have on nodes of their own. -/
def requestAnchors (g : Graph) : Validated → List String
  | .image _ => ["%POSITIVE_PROMPT%", "%NEGATIVE_PROMPT%"]
  | .ltxv _ => "%INIT_IMAGE%" :: ltxvAnchors
  | .wan _ _ => "%INIT_IMAGE%" :: wanAnchors (isCore g) (twoPasses g)

/-- The graph carries the request, with this seed. -/
structure CarriesRequest (py : Builtins) (g : Graph) (req : Validated) (seed : Int) : Prop where
  fields : ∀ f ∈ requestFields seed g req, f.Plain → Carried g f
  optional : ∀ f ∈ optionalFields py seed g req, CarriedIfThere g f
  size : ∀ v, req = .image v → ∀ id, latentNode g = some id →
    ∀ f ∈ latentPatch v, inputAt g id f.1 = some f.2

section Jobs

variable {py : Builtins} {files : Path → WorkflowFile} {cwd : Path} {svc : Service Graph}
  {job : Job} {req : Validated} {seed : Int} {g g' : Graph} {filename : String}

/-- The graph is prepared with the request in it. -/
theorem carries_graphOf (h : graphOf py files cwd seed req = .ok g)
    (hapart : Apart g (requestAnchors g req)) : CarriesRequest py g req seed := by
  cases req with
  | image v =>
    obtain ⟨template, -, h⟩ := bind_ok h
    obtain ⟨hfields, hsize⟩ := carried_image (mapError_ok h) hapart
    exact ⟨hfields, List.forall_mem_nil _, fun v' heq => by cases heq; exact hsize⟩
  | ltxv v =>
    obtain ⟨template, -, h⟩ := bind_ok h
    obtain ⟨hfields, hrate⟩ := carried_ltxv (mapError_ok h)
      (hapart.mono (List.subset_cons_self _ _))
    refine ⟨fun f hf _ => hfields f hf, fun f hf => ?_, fun v' heq => by cases heq⟩
    rw [List.mem_singleton.mp hf]
    exact hrate
  | wan v task =>
    obtain ⟨template, -, h⟩ := bind_ok h
    obtain ⟨weighted, -, h⟩ := bind_ok h
    obtain ⟨hfields, hoptional⟩ := carried_wan (mapError_ok h)
      (hapart.mono (List.subset_cons_self _ _))
    exact ⟨fun f hf _ => hfields f hf, hoptional, fun v' heq => by cases heq⟩

theorem keys_requestFields : ∀ f ∈ requestFields seed g req, f.key ≠ "image" := by
  cases req with
  | image v => simp [requestFields, imageFields, fieldsAt, samplerPatch]
  | ltxv v => simp [requestFields, ltxvFields]
  | wan v task =>
    have hframes : framesKey g ≠ "image" := by
      unfold framesKey inputFor
      split <;> decide
    unfold requestFields wanFields
    cases isCore g <;> cases twoPasses g <;>
      simp [promptFields, fieldsAt, dimsPatch, wanSamplerPatch, passFields, hframes]

theorem keys_optionalFields : ∀ f ∈ optionalFields py seed g req, f.key ≠ "image" ∧
    "%INIT_IMAGE%" ∈ requestAnchors g req ∧ f.anchor ∈ requestAnchors g req ∧
      "%INIT_IMAGE%" ≠ f.anchor := by
  cases req with
  | image v => exact List.forall_mem_nil _
  | ltxv v => simp [optionalFields, requestAnchors, ltxvAnchors]
  | wan v task =>
    unfold optionalFields wanOptional requestAnchors wanAnchors
    cases twoPasses g <;>
      simp [passesOptional, samplerAnchors, fieldsAt, passFields, soundPatch]

/-- The file name of the initial image takes no field of the request. -/
theorem CarriesRequest.initImage (h : injectInitImage g filename = .ok g')
    (hapart : Apart g' (requestAnchors g' req)) (hc : CarriesRequest py g req seed) :
    CarriesRequest py g' req seed := by
  have hfields : requestFields seed g' req = requestFields seed g req := by
    cases req with
    | wan v task =>
      unfold requestFields wanFields
      rw [isCore_initImage h, framesKey_initImage h, twoPasses_initImage h]
    | _ => rfl
  have hoptional : optionalFields py seed g' req = optionalFields py seed g req := by
    cases req with
    | wan v task =>
      unfold optionalFields wanOptional
      rw [twoPasses_initImage h]
    | _ => rfl
  refine ⟨fun f hf hplain => ?_, fun f hf => ?_, fun v heq id hid f hf => ?_⟩
  · rw [hfields] at hf
    exact (hc.fields f hf hplain).initImage (keys_requestFields f hf) h
  · rw [hoptional] at hf
    have hs := hc.optional f hf
    rw [← hoptional] at hf
    obtain ⟨hkey, hinit, hanchor, hne⟩ := keys_optionalFields f hf
    exact HoldsIfThere.initImage hs hkey (hapart _ hinit _ hanchor hne) h
  · rw [latentNode_initImage h] at hid
    have hkeys : ∀ key ∈ ["width", "height", "batch_size"], key ≠ "image" := by decide
    have hkey := hkeys f.1 (List.mem_map_of_mem (f := (·.1)) hf)
    exact inputAt_keeps (fun _ => keeps_injectInitImage hkey h) (hc.size v heq id hid f hf)

/-- The graph of an accepted job, however it comes to be submitted, carries the request of
the job: its fields are all there, with the seed that was asked for or drawn, as long as
the anchors that they go to stand on nodes of their own. -/
theorem submitted_graph_carries_the_request (ha : Accepts svc job req) :
    (runPipeline (wired py files cwd svc) job).All fun op => ∀ model g,
      op = .call (.submit model g) → Apart g (requestAnchors g req) →
        ∃ drawn, CarriesRequest py g req (actualSeed req.seed drawn) := by
  refine (lora_injection.submits_prepared _ _).mono fun op hop model g hg hapart => ?_
  obtain ⟨drawn, p, hp, hsubmitted⟩ := hop model g hg
  have hgraph := (prepared_of_accepted ha hp).1
  refine ⟨drawn, ?_⟩
  unfold lora_injection.submittedGraph at hsubmitted
  split at hsubmitted
  · cases hsubmitted
    exact carries_graphOf hgraph hapart
  · have hinit : injectInitImage p.graph p.initFilename = .ok g := hsubmitted
    have hkeeps : Keeps "seed" 0 p.graph g := keeps_injectInitImage (by decide) hinit
    have howner := hkeeps.owner_eq
    have hanchors : requestAnchors g req = requestAnchors p.graph req := by
      cases req with
      | wan v task =>
        unfold requestAnchors
        rw [isCore_initImage hinit, twoPasses_initImage hinit]
      | _ => rfl
    have hbefore : Apart p.graph (requestAnchors p.graph req) := by
      intro a ha b hb hne
      have hab := hapart a (hanchors ▸ ha) b (hanchors ▸ hb) hne
      rw [howner, howner] at hab
      exact hab
    exact (carries_graphOf hgraph hbefore).initImage hinit hapart

end Jobs

def submitsApart : Op Graph → Bool
  | .call (.submit _ g) => decide (Apart g ("%INIT_IMAGE%" :: ltxvAnchors))
  | _ => false

/-- A job of an LTX model with the seed 7. -/
theorem seven_is_carried :
    ∃ model g drawn,
      .call (.submit model g) ∈ trace calm (seededWorker 7) lora_injection.ltxJob () ∧
      CarriesRequest asciiBuiltins g (.ltxv (seededJob 7)) (actualSeed 7 drawn) := by
  have hany : (trace calm (seededWorker 7) lora_injection.ltxJob ()).any submitsApart = true := by
    decide +kernel
  obtain ⟨op, hop, hsubmit⟩ := List.any_eq_true.mp hany
  unfold submitsApart at hsubmit
  split at hsubmit
  · rename_i model g
    obtain ⟨e, he, heq⟩ := List.mem_map.mp hop
    have hall : (runPipeline (seededWorker 7) lora_injection.ltxJob).All fun op => ∀ model g,
        op = .call (.submit model g) → Apart g (requestAnchors g (.ltxv (seededJob 7))) →
          ∃ drawn, CarriesRequest asciiBuiltins g (.ltxv (seededJob 7)) (actualSeed 7 drawn) :=
      submitted_graph_carries_the_request (seeded_accepts 7)
    rcases Co.log_of_all hall () [] e he with hnil | hcarries
    · cases hnil
    · obtain ⟨drawn, hc⟩ := hcarries model g heq (of_decide_eq_true hsubmit)
      exact ⟨model, g, drawn, hop, hc⟩
  · cases hsubmit

end image_gen.request_carried

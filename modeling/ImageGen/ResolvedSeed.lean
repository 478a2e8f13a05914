-- The seed that a job reports: where each pipeline writes it in the graph that
-- it submits, and when what is reported is what is written.
import ImageGen.LoraInjection
import ImageGen.LoraRewiring
import ImageGen.StorageOrphans

namespace image_gen.resolved_seed

open image_gen.coroutine image_gen.file_tree image_gen.graph image_gen.graph_edits
  image_gen.injectors image_gen.json image_gen.job_store image_gen.lora_chain
  image_gen.lora_rewiring image_gen.py_dict image_gen.requests image_gen.results image_gen.worker

/-! ## Seeds in a graph -/

inductive Pipeline
  | image
  | ltxv
  | wan
  deriving DecidableEq

/-- The anchors at which a pipeline writes the seed, with the input that takes it. -/
def seedFields (pipeline : Pipeline) (g : Graph) : List (String × String) :=
  match pipeline with
  | .image => [("%KSAMPLER%", "seed")]
  | .ltxv => [("%LTXV_SEED%", "seed")]
  | .wan =>
    if (owner g "%WAN_SAMPLER%").any fun id => classAt g id = .str "KSamplerAdvanced" then
      [("%WAN_SAMPLER%", "noise_seed"), ("%WAN_NAG_SAMPLER%", "noise_seed"),
        ("%MMAUDIO_SAMPLER%", "seed")]
    else [("%WAN_SAMPLER%", "seed"), ("%MMAUDIO_SAMPLER%", "seed")]

/-- What a node holds in an input, where it has one of that name. -/
def inputAt (g : Graph) (id key : String) : Option Json := (fieldsOf (inputsAt g id)).lookup key

/-- The node of the anchor has no such input, or it holds the seed. -/
def Seeded (g : Graph) (anchor key : String) (seed : Int) : Prop :=
  ∀ id v, owner g anchor = some id → inputAt g id key = some v → v = .int seed

/-- All the seeds in the graph are this one, and there is one. -/
def HasSeed (pipeline : Pipeline) (g : Graph) (seed : Int) : Prop :=
  (∀ f ∈ seedFields pipeline g, Seeded g f.1 f.2 seed) ∧
    ∃ f ∈ seedFields pipeline g, ∃ id, owner g f.1 = some id ∧ inputAt g id f.2 ≠ none

/-! ## The seed and the edits -/

section Edits

variable {K : String → String → Bool} {g g' : Graph} {id anchor key : String} {patch : Fields}
  {seed : Int}

theorem inputAt_view {id : String} (hK : K id key = true) (g : Graph) :
    inputAt (view K g) id key = inputAt g id key := by
  unfold inputAt
  rw [inputsAt_view]
  cases inputsAt g id with
  | dict fields => exact lookup_restrict fields hK
  | absent => rfl
  | other _ => rfl

theorem inputsAt_write (g : Graph) (id : String) (patch : Fields) (x : String) :
    inputsAt (write g id patch) x =
      if x = id then (inputsAt g x).write patch else inputsAt g x := by
  unfold inputsAt
  rw [lookup_write]
  by_cases hx : x = id
  · simp only [hx, ↓reduceIte]
    cases g.lookup id <;> rfl
  · simp only [hx, ↓reduceIte]

theorem inputAt_write (hpatch : (patch.map (·.1)).Nodup) (hdict : (inputsAt g id).isDict = true)
    (x : String) : inputAt (write g id patch) x key =
      if x = id then (patch.lookup key).or (inputAt g id key) else inputAt g x key := by
  unfold inputAt
  rw [inputsAt_write]
  split
  · rename_i hx
    subst hx
    cases hinputs : inputsAt g x with
    | dict fields => exact lookup_update hpatch fields key
    | absent =>
      rw [hinputs] at hdict
      cases hdict
    | other _ =>
      rw [hinputs] at hdict
      cases hdict
  · rfl

theorem assign_ok (h : assign g id patch = .ok g') :
    (inputsAt g id).isDict = true ∧ g' = write g id patch := by
  unfold assign at h
  split at h
  · cases h
  · rename_i node hnode
    split at h
    · cases h
    · cases h
    · rename_i fields hinputs
      cases h
      exact ⟨by simp [inputsAt, hnode, hinputs, Inputs.isDict], rfl⟩

theorem assignOr_ok {message : String} (h : assignOr message g id patch = .ok g') :
    (inputsAt g id).isDict = true ∧ g' = write g id patch := by
  unfold assignOr at h
  split at h
  · rename_i hdict
    cases h
    exact ⟨hdict, rfl⟩
  · cases h

/-- What an edit may do to the inputs of one name: it keeps them, or writes the
seed there. -/
structure Keeps (key : String) (seed : Int) (g g' : Graph) : Prop where
  owner_eq : ∀ anchor, owner g' anchor = owner g anchor
  class_eq : ∀ id, classAt g' id = classAt g id
  held : ∀ id v, inputAt g' id key = some v → inputAt g id key = some v ∨ v = .int seed
  present : ∀ id, inputAt g id key ≠ none → inputAt g' id key ≠ none

theorem Keeps.refl (key : String) (seed : Int) (g : Graph) : Keeps key seed g g :=
  ⟨fun _ => rfl, fun _ => rfl, fun _ _ h => Or.inl h, fun _ h => h⟩

theorem Keeps.trans {g'' : Graph} (h1 : Keeps key seed g g') (h2 : Keeps key seed g' g'') :
    Keeps key seed g g'' where
  owner_eq anchor := (h2.owner_eq anchor).trans (h1.owner_eq anchor)
  class_eq id := (h2.class_eq id).trans (h1.class_eq id)
  held id v hv := by
    rcases h2.held id v hv with h | h
    · exact h1.held id v h
    · exact Or.inr h
  present id hid := h2.present id (h1.present id hid)

theorem Keeps.seeded (h : Keeps key seed g g') (hs : Seeded g anchor key seed) :
    Seeded g' anchor key seed := by
  intro id v howner hv
  rw [h.owner_eq] at howner
  rcases h.held id v hv with hold | hseed
  · exact hs id v howner hold
  · exact hseed

theorem keeps_of_view (hK : ∀ id, K id key = true) (h : view K g' = view K g) (seed : Int) :
    Keeps key seed g g' := by
  have hsame : ∀ id, inputAt g' id key = inputAt g id key := by
    intro id
    rw [← inputAt_view (hK id) g', h, inputAt_view (hK id)]
  exact ⟨owner_same h, classAt_same h, fun id v hv => Or.inl (by rw [← hsame, hv]),
    fun id hid => by rw [hsame]; exact hid⟩

/-- A patch takes the seed to the input, or leaves the input alone. -/
def Fitting (patch : Fields) (key : String) (seed : Int) : Prop :=
  (patch.map (·.1)).Nodup ∧ ∀ v, patch.lookup key = some v → v = .int seed

theorem keeps_write (hfit : Fitting patch key seed) (hdict : (inputsAt g id).isDict = true) :
    Keeps key seed g (write g id patch) where
  owner_eq := owner_write g id patch
  class_eq := classAt_same (K := fun _ _ => false) (view_write fun _ _ => rfl)
  held x v hv := by
    rw [inputAt_write hfit.1 hdict] at hv
    split at hv
    · rename_i hx
      subst hx
      rcases hp : patch.lookup key with _ | w
      · rw [hp, Option.none_or] at hv
        exact Or.inl hv
      · rw [hp, Option.some_or, Option.some.injEq] at hv
        exact Or.inr (hv ▸ hfit.2 w hp)
    · exact Or.inl hv
  present x hx := by
    rw [inputAt_write hfit.1 hdict]
    split
    · rename_i heq
      subst heq
      rcases patch.lookup key with _ | w
      · rw [Option.none_or]
        exact hx
      · simp
    · exact hx

theorem keeps_assign (hfit : Fitting patch key seed) (h : assign g id patch = .ok g') :
    Keeps key seed g g' := by
  obtain ⟨hdict, rfl⟩ := assign_ok h
  exact keeps_write hfit hdict

theorem keeps_assignIfFound (hfit : Fitting patch key seed)
    (h : assignIfFound g anchor patch = .ok g') : Keeps key seed g g' := by
  rcases passKeyError_ok h with rfl | h
  · exact Keeps.refl _ _ _
  · obtain ⟨id, -, h⟩ := bind_ok h
    exact keeps_assign hfit h

/-- The seed stands at the node of the anchor. -/
def Stands (g : Graph) (anchor key : String) (seed : Int) : Prop :=
  Seeded g anchor key seed ∧ ∃ id, owner g anchor = some id ∧ inputAt g id key ≠ none

theorem Keeps.stands (h : Keeps key seed g g') (hs : Stands g anchor key seed) :
    Stands g' anchor key seed := by
  obtain ⟨hseeded, id, hid, hin⟩ := hs
  exact ⟨h.seeded hseeded, id, (h.owner_eq anchor).trans hid, h.present id hin⟩

theorem stands_write (howner : owner g anchor = some id) (hpatch : (patch.map (·.1)).Nodup)
    (hseed : patch.lookup key = some (.int seed)) (hdict : (inputsAt g id).isDict = true) :
    Stands (write g id patch) anchor key seed := by
  have hself : inputAt (write g id patch) id key = some (.int seed) := by
    rw [inputAt_write hpatch hdict, if_pos rfl, hseed, Option.some_or]
  have howner' : owner (write g id patch) anchor = some id := by rw [owner_write, howner]
  refine ⟨fun x v hx hv => ?_, id, howner', by simp [hself]⟩
  rw [howner', Option.some.injEq] at hx
  rw [← hx, hself, Option.some.injEq] at hv
  exact hv.symm

theorem stands_assign (howner : owner g anchor = some id) (hpatch : (patch.map (·.1)).Nodup)
    (hseed : patch.lookup key = some (.int seed)) (h : assign g id patch = .ok g') :
    Stands g' anchor key seed := by
  obtain ⟨hdict, rfl⟩ := assign_ok h
  exact stands_write howner hpatch hseed hdict

/-- An optional assignment: the anchor is missing, its node has no inputs at all,
or the seed is there. -/
theorem seeded_of_passKeyError {r : Except GraphError Graph}
    (hok : r = .ok g' → Stands g' anchor key seed)
    (herror : ∀ id, owner g anchor = some id → (inputsAt g id).isDict = true →
      ∀ m, r ≠ .error (.other "KeyError" m))
    (h : passKeyError g r = .ok g') : Seeded g' anchor key seed := by
  unfold passKeyError at h
  split at h
  · rename_i m
    cases h
    intro id v howner hv
    by_cases hdict : (inputsAt g id).isDict = true
    · exact absurd rfl (herror id howner hdict m)
    · have hnone : inputAt g id key = none := by
        unfold inputAt
        cases hinputs : inputsAt g id with
        | dict fields => simp [hinputs, Inputs.isDict] at hdict
        | absent => rfl
        | other _ => rfl
      rw [hnone] at hv
      cases hv
  · exact (hok h).1

theorem assign_of_isDict (hdict : (inputsAt g id).isDict = true) :
    assign g id patch = .ok (write g id patch) := by
  unfold assign
  unfold inputsAt at hdict
  cases hnode : g.lookup id with
  | none =>
    rw [hnode] at hdict
    cases hdict
  | some node =>
    rw [hnode] at hdict
    simp only [Option.map_some, Option.getD_some] at hdict
    cases hinputs : node.inputs with
    | dict fields => simp [hinputs]
    | absent =>
      rw [hinputs] at hdict
      cases hdict
    | other _ =>
      rw [hinputs] at hdict
      cases hdict

theorem findAnchor_of_owner (howner : owner g anchor = some id) : findAnchor g anchor = .ok id := by
  rw [findAnchor, howner]

theorem seeded_assignIfFound (hpatch : (patch.map (·.1)).Nodup)
    (hseed : patch.lookup key = some (.int seed)) (h : assignIfFound g anchor patch = .ok g') :
    Seeded g' anchor key seed := by
  refine seeded_of_passKeyError (fun hok => ?_) (fun id howner hdict m herr => ?_) h
  · obtain ⟨id, hid, hok⟩ := bind_ok hok
    exact stands_assign (findAnchor_ok hid) hpatch hseed hok
  · rw [findAnchor_of_owner howner] at herr
    change assign g id patch = _ at herr
    rw [assign_of_isDict hdict] at herr
    cases herr

end Edits

/-! ## The pipelines -/

/-- The names of the inputs that hold seeds. -/
def seedView (_ : String) (key : String) : Bool := decide (key = "seed" ∨ key = "noise_seed")

section Image

variable {K : String → String → Bool} {g g' : Graph}

/-- What a model and a size are written to. -/
def imageInputs : List String := ["width", "height", "batch_size"] ++ modelInputs

theorem view_injectLatent {v : ValidatedJob} (hK : Free K imageInputs)
    (h : injectLatent v g = .ok g') : view K g' = view K g := by
  unfold injectLatent at h
  split at h
  · cases h
    rfl
  · exact view_assign (hK.patch (by simp [imageInputs]) _) h

/-- A node that was there is at its anchor still, and keeps its numbers. -/
theorem stands_rewired {loras : List ResolvedLoraRef} {next : Nat} {modelId clipId last : String}
    {modelSlot clipSlot : Json} {anchor key : String} {seed : Int}
    (hfresh : ∀ k, next ≤ k → g.lookup (toString k) = none) (hs : Stands g anchor key seed) :
    Stands (rewired g next modelId modelSlot clipId clipSlot loras last) anchor key seed := by
  obtain ⟨hseeded, id, hid, hin⟩ := hs
  have hseed : inputAt g id key = some (.int seed) := by
    obtain ⟨v, hv⟩ := Option.ne_none_iff_exists'.mp hin
    rw [hv, hseeded id v hid hv]
  have hold : id ∉ (numbered next loras).map (·.1) := by
    intro hmem
    obtain ⟨k, hk, -, rfl⟩ := mem_numbered.mp hmem
    exact owner_lookup hid (hfresh k hk)
  have hfields : fieldsOf (inputsAt (rewired g next modelId modelSlot clipId clipSlot loras last) id) =
      (fieldsOf (inputsAt g id)).map fun e =>
        (e.1, redirect modelId modelSlot clipId clipSlot last e.2) := by
    unfold inputsAt
    rw [lookup_rewired hold]
    cases g.lookup id with
    | none => rfl
    | some node => exact fields_mapInputs _ node
  have hself : inputAt (rewired g next modelId modelSlot clipId clipSlot loras last) id key =
      some (.int seed) := by
    unfold inputAt at hseed ⊢
    rw [hfields]
    exact lookup_mapValues _ hseed (by simp [redirect, redirectOne, slotOf])
  have howner : owner (rewired g next modelId modelSlot clipId clipSlot loras last) anchor =
      some id := by
    obtain ⟨e, he, rfl⟩ := Option.map_eq_some_iff.mp hid
    unfold owner rewired
    rw [List.find?_append, List.find?_map]
    simp only [Function.comp_def, declares_mapInputs, he]
    rfl
  refine ⟨fun x v hx hv => ?_, id, howner, by simp [hself]⟩
  rw [howner, Option.some.injEq] at hx
  rw [← hx, hself, Option.some.injEq] at hv
  exact hv.symm

theorem stands_injectLoras {py : Builtins} {loras : List ResolvedLoraRef} {anchor key : String}
    {seed : Int} (hs : Stands g anchor key seed) (h : injectLoras py loras g = .ok g') :
    Stands g' anchor key seed := by
  rcases injectLoras_ok h with rfl | ⟨next, modelId, modelSlot, clipId, clipSlot, last, hfresh, rfl⟩
  · exact hs
  · exact stands_rewired hfresh hs

theorem hasSeed_image {py : Builtins} {v : ValidatedJob} {seed : Int}
    (h : injectImage py v seed g = .ok g') : HasSeed .image g' seed := by
  obtain ⟨posId, -, h⟩ := bind_ok h
  obtain ⟨negId, -, h⟩ := bind_ok h
  obtain ⟨ksId, hks, h⟩ := bind_ok h
  obtain ⟨g1, h1, h⟩ := bind_ok h
  obtain ⟨g2, h2, h⟩ := bind_ok h
  obtain ⟨g3, h3, h⟩ := bind_ok h
  obtain ⟨g4, h4, h⟩ := bind_ok h
  obtain ⟨g5, h5, h⟩ := bind_ok h
  obtain ⟨g6, h6, h⟩ := bind_ok h
  have hview : view (fun _ _ => false) g2 = view (fun _ _ => false) g :=
    (view_assign (fun _ _ => rfl) h2).trans (view_assign (fun _ _ => rfl) h1)
  have howner : owner g2 "%KSAMPLER%" = some ksId := by
    rw [owner_same hview, findAnchor_ok hks]
  have hstands3 : Stands g3 "%KSAMPLER%" "seed" seed :=
    stands_assign howner (by simp) (by simp) h3
  have hfree : Free seedView imageInputs := fun _ => by unfold seedView; decide
  have hvpred : g6 = g5 := by
    unfold injectVpred at h6
    split at h6
    · cases h6
    · exact (Except.ok.inj h6).symm
  have hmid : view seedView g5 = view seedView g3 :=
    (view_injectModelSource (hfree.mono (List.subset_append_right _ _)) h5).trans
      (view_injectLatent hfree h4)
  have hstands5 := (keeps_of_view (fun _ => rfl) hmid seed).stands hstands3
  rw [hvpred] at h
  have hstands := stands_injectLoras hstands5 h
  refine ⟨?_, ⟨_, List.mem_singleton.mpr rfl, hstands.2⟩⟩
  intro f hf
  rw [List.mem_singleton.mp hf]
  exact hstands.1

end Image

section Video

variable {g g' : Graph} {v : ValidatedVideoJob} {seed : Int}

theorem HasSeed.unique {pipeline : Pipeline} {a b : Int} (ha : HasSeed pipeline g a)
    (hb : HasSeed pipeline g b) : a = b := by
  obtain ⟨f, hf, id, hid, hin⟩ := ha.2
  obtain ⟨w, hw⟩ := Option.ne_none_iff_exists'.mp hin
  have hboth := (ha.1 f hf id w hid hw).symm.trans (hb.1 f hf id w hid hw)
  exact Json.int.inj hboth

theorem stands_injectAt {caller anchor key : String} {patch : Fields}
    (hpatch : (patch.map (·.1)).Nodup) (hseed : patch.lookup key = some (.int seed))
    (h : injectAt caller g anchor patch = .ok g') : Stands g' anchor key seed := by
  obtain ⟨id, hid, h⟩ := bind_ok h
  obtain ⟨hdict, rfl⟩ := assignOr_ok h
  exact stands_write (findOr_ok hid) hpatch hseed hdict

/-- The seed node of an LTX graph takes the seed modulo the range of its class. -/
theorem hasSeed_ltxv (h : injectLtxv v seed g = .ok g') :
    HasSeed .ltxv g' (seed % 1125899906842624) := by
  obtain ⟨g1, -, h⟩ := bind_ok h
  obtain ⟨g2, -, h⟩ := bind_ok h
  obtain ⟨posId, -, h⟩ := bind_ok h
  obtain ⟨negId, -, h⟩ := bind_ok h
  obtain ⟨g3, -, h⟩ := bind_ok h
  obtain ⟨g4, -, h⟩ := bind_ok h
  obtain ⟨g5, h5, h⟩ := bind_ok h
  obtain ⟨g6, h6, h⟩ := bind_ok h
  have hstands : Stands g5 "%LTXV_SEED%" "seed" (seed % 1125899906842624) :=
    stands_injectAt (by simp) (by simp) h5
  have hview : view seedView g' = view seedView g5 := by
    rw [view_assignIfFound (by simp [seedView]) h, view_injectAt (by simp [seedView]) h6]
  have hlast := (keeps_of_view (fun _ => rfl) hview _).stands hstands
  refine ⟨?_, ⟨_, List.mem_singleton.mpr rfl, hlast.2⟩⟩
  intro f hf
  rw [List.mem_singleton.mp hf]
  exact hlast.1

/-! ### WAN -/

theorem toInt_ne_keyError {py : Builtins} {j : Json} {m : String} :
    toInt py j ≠ .error (.other "KeyError" m) := by
  unfold toInt
  split <;> try simp
  split <;> simp

theorem toFloat_ne_keyError {py : Builtins} {j : Json} {m : String} :
    toFloat py j ≠ .error (.other "KeyError" m) := by
  unfold toFloat
  split <;> try simp
  · split <;> simp
  · split <;> simp

section Mmaudio

variable {py : Builtins}

theorem fitting_mmaudio (key : String) (hkey : key = "seed" ∨ key = "noise_seed") :
    Fitting [("duration", .float (durationOf py v)), ("prompt", .str v.prompt),
      ("negative_prompt", .str v.negativePrompt), ("seed", .int seed),
      ("force_offload", .bool v.forceOffload)] key seed := by
  refine ⟨by simp, fun w hw => ?_⟩
  rcases hkey with rfl | rfl
  · simp [List.lookup_cons] at hw
    exact hw.symm
  · simp [List.lookup_cons] at hw

theorem keeps_mmaudio {key : String} (hkey : key = "seed" ∨ key = "noise_seed")
    (h : injectMmaudioSampler py v seed g = .ok g') : Keeps key seed g g' := by
  rcases passKeyError_ok h with rfl | h
  · exact Keeps.refl _ _ _
  · obtain ⟨id, -, h⟩ := bind_ok h
    obtain ⟨g1, h1, h⟩ := bind_ok h
    obtain ⟨steps, -, h⟩ := bind_ok h
    obtain ⟨cfg, -, h⟩ := bind_ok h
    cases h
    refine (keeps_assign (fitting_mmaudio key hkey) h1).trans ?_
    refine keeps_of_view (K := seedView) (fun _ => ?_) (view_write (by simp [seedView])) seed
    rcases hkey with rfl | rfl <;> rfl

theorem seeded_mmaudio (h : injectMmaudioSampler py v seed g = .ok g') :
    Seeded g' "%MMAUDIO_SAMPLER%" "seed" seed := by
  refine seeded_of_passKeyError (fun hok => ?_) (fun id howner hdict m herr => ?_) h
  · obtain ⟨id, hid, hok⟩ := bind_ok hok
    obtain ⟨g1, h1, hok⟩ := bind_ok hok
    obtain ⟨steps, -, hok⟩ := bind_ok hok
    obtain ⟨cfg, -, hok⟩ := bind_ok hok
    cases hok
    have hstands : Stands g1 "%MMAUDIO_SAMPLER%" "seed" seed :=
      stands_assign (findAnchor_ok hid) (by simp) (by simp [List.lookup_cons]) h1
    refine (keeps_of_view (K := seedView) (fun _ => rfl) ?_ seed).stands hstands
    exact view_write (by simp [seedView])
  · rw [findAnchor_of_owner howner] at herr
    simp only [bind, Except.bind, assign_of_isDict hdict] at herr
    -- the numbers of the config raise no `KeyError`
    rcases hsteps : toInt py ((v.model.defaults.lookup "mmaudio_steps").getD (.int 25)) with e | n
    · rw [hsteps] at herr
      cases herr
      exact toInt_ne_keyError hsteps
    · rw [hsteps] at herr
      dsimp only at herr
      rcases hcfg : toFloat py ((v.model.defaults.lookup "mmaudio_cfg").getD
        (.float (.finite (9 / 2)))) with e | x
      · rw [hcfg] at herr
        cases herr
        exact toFloat_ne_keyError hcfg
      · rw [hcfg] at herr
        cases herr

end Mmaudio

/-- The anchors of a WAN graph that has gone through its sampler. -/
theorem hasSeed_sampler (h : injectSampler v seed g = .ok g') :
    (seedFields .wan g = [("%WAN_SAMPLER%", "noise_seed"), ("%WAN_NAG_SAMPLER%", "noise_seed"),
        ("%MMAUDIO_SAMPLER%", "seed")] ∧
      Stands g' "%WAN_SAMPLER%" "noise_seed" seed ∧ Seeded g' "%WAN_NAG_SAMPLER%" "noise_seed" seed) ∨
    (seedFields .wan g = [("%WAN_SAMPLER%", "seed"), ("%MMAUDIO_SAMPLER%", "seed")] ∧
      Stands g' "%WAN_SAMPLER%" "seed" seed) := by
  obtain ⟨samplerId, hid, h⟩ := bind_ok h
  have howner := findAnchor_ok hid
  have hfields : seedFields .wan g =
      if classAt g samplerId = .str "KSamplerAdvanced" then
        [("%WAN_SAMPLER%", "noise_seed"), ("%WAN_NAG_SAMPLER%", "noise_seed"),
          ("%MMAUDIO_SAMPLER%", "seed")]
      else [("%WAN_SAMPLER%", "seed"), ("%MMAUDIO_SAMPLER%", "seed")] := by
    simp only [seedFields, howner, Option.any_some, decide_eq_true_eq]
  rw [hfields]
  split at h
  · rename_i hclass
    obtain ⟨g1, h1, h⟩ := bind_ok h
    obtain ⟨g2, h2, h⟩ := bind_ok h
    have hstands1 : Stands g1 "%WAN_SAMPLER%" "noise_seed" seed :=
      stands_assign howner (by simp [passFields]) (by simp [passFields]) h1
    have hstands2 : Stands g2 "%WAN_SAMPLER%" "noise_seed" seed :=
      (keeps_assignIfFound ⟨by simp, by simp [List.lookup_cons]⟩ h2).stands hstands1
    have hfit : Fitting (passFields v seed ++ [("start_at_step", .int (max 1 (v.steps / 2)))])
        "noise_seed" seed := by
      refine ⟨by simp [passFields], fun w hw => ?_⟩
      simp [passFields] at hw
      exact hw.symm
    refine Or.inl ⟨if_pos hclass, (keeps_assignIfFound hfit h).stands hstands2, ?_⟩
    exact seeded_assignIfFound (by simp [passFields]) (by simp [passFields]) h
  · rename_i hclass
    exact Or.inr ⟨if_neg hclass, stands_assign howner (by simp) (by simp) h⟩

theorem hasSeed_wan {py : Builtins} (h : injectWanRequest py v seed g = .ok g') :
    HasSeed .wan g' seed := by
  obtain ⟨g1, h1, h⟩ := bind_ok h
  obtain ⟨g2, h2, h⟩ := bind_ok h
  obtain ⟨g3, h3, h⟩ := bind_ok h
  obtain ⟨g4, h4, h⟩ := bind_ok h
  have hview : view (fun _ _ => false) g' = view (fun _ _ => false) g2 := by
    have hfree : Free (fun _ _ => false) samplerInputs := fun _ _ _ => rfl
    rw [view_injectMmaudioSampler hfree h, view_assignIfFound (fun _ _ _ => rfl) h4,
      view_injectSampler hfree h3]
  have hfields : seedFields .wan g' = seedFields .wan g2 := by
    unfold seedFields
    rw [owner_same hview]
    simp only [classAt_same hview]
  have hlast : ∀ key, key = "seed" ∨ key = "noise_seed" → Keeps key seed g3 g' := by
    intro key hkey
    have hfit : Fitting [("frame_rate", .float v.fps)] key seed := by
      refine ⟨by simp, fun w hw => ?_⟩
      rcases hkey with rfl | rfl <;> simp [List.lookup_cons] at hw
    exact (keeps_assignIfFound hfit h4).trans (keeps_mmaudio hkey h)
  have hmmaudio := seeded_mmaudio h
  unfold HasSeed
  rw [hfields]
  rcases hasSeed_sampler h3 with ⟨hf, hstands, hnag⟩ | ⟨hf, hstands⟩
  · have hkeeps := hlast "noise_seed" (Or.inr rfl)
    have hsampler := hkeeps.stands hstands
    rw [hf]
    refine ⟨?_, ⟨_, List.mem_cons_self, hsampler.2⟩⟩
    intro f hmem
    simp only [List.mem_cons, List.not_mem_nil, or_false] at hmem
    rcases hmem with rfl | rfl | rfl
    · exact hsampler.1
    · exact hkeeps.seeded hnag
    · exact hmmaudio
  · have hsampler := (hlast "seed" (Or.inl rfl)).stands hstands
    rw [hf]
    refine ⟨?_, ⟨_, List.mem_cons_self, hsampler.2⟩⟩
    intro f hmem
    simp only [List.mem_cons, List.not_mem_nil, or_false] at hmem
    rcases hmem with rfl | rfl
    · exact hsampler.1
    · exact hmmaudio

theorem seedFields_key {pipeline : Pipeline} {f : String × String}
    (hf : f ∈ seedFields pipeline g) : f.2 = "seed" ∨ f.2 = "noise_seed" := by
  unfold seedFields at hf
  split at hf
  · rw [List.mem_singleton.mp hf]
    exact Or.inl rfl
  · rw [List.mem_singleton.mp hf]
    exact Or.inl rfl
  · split at hf
    · simp only [List.mem_cons, List.not_mem_nil, or_false] at hf
      rcases hf with rfl | rfl | rfl <;> simp
    · simp only [List.mem_cons, List.not_mem_nil, or_false] at hf
      rcases hf with rfl | rfl <;> simp

theorem HasSeed.keeps {pipeline : Pipeline} (hs : HasSeed pipeline g seed)
    (h : ∀ key, key = "seed" ∨ key = "noise_seed" → Keeps key seed g g') :
    HasSeed pipeline g' seed := by
  have hseed := h "seed" (Or.inl rfl)
  have hfields : seedFields pipeline g' = seedFields pipeline g := by
    unfold seedFields
    simp only [hseed.owner_eq, hseed.class_eq]
  unfold HasSeed
  rw [hfields]
  obtain ⟨hall, f, hf, id, hid, hin⟩ := hs
  refine ⟨fun f hf => (h f.2 (seedFields_key hf)).seeded (hall f hf), f, hf, id, ?_, ?_⟩
  · rw [hseed.owner_eq, hid]
  · exact (h f.2 (seedFields_key hf)).present id hin

/-- The file name of the initial image goes to one input. -/
theorem keeps_injectInitImage {filename key : String} (hne : key ≠ "image")
    (h : injectInitImage g filename = .ok g') : Keeps key seed g g' := by
  unfold injectInitImage at h
  split at h
  · cases h
    exact Keeps.refl _ _ _
  · rename_i imageId _
    split at h
    · cases h
    · cases h
      have hsame : ∀ id, inputAt (g.map fun e => (e.1,
          if e.1 = imageId then
            { e.2 with inputs := e.2.inputs.orEmpty.write [("image", .str filename)] }
          else e.2)) id key = inputAt g id key := by
        intro id
        unfold inputAt inputsAt
        rw [lookup_mapEntries]
        cases g.lookup id with
        | none => rfl
        | some node =>
          simp only [Option.map_some, Option.getD_some]
          split
          · cases hinputs : node.inputs with
            | dict fields => exact lookup_set_ne fields _ hne
            | absent => exact lookup_set_ne [] _ hne
            | other _ => rfl
          · rfl
      refine ⟨fun anchor => ?_, fun id => ?_, fun id v hv => ?_, fun id hid => ?_⟩
      · unfold owner
        rw [List.find?_map, Option.map_map]
        have hdeclares : ∀ e : String × Node, (if e.1 = imageId then
            { e.2 with inputs := e.2.inputs.orEmpty.write [("image", .str filename)] }
          else e.2).declares anchor = e.2.declares anchor := by
          intro e
          split <;> rfl
        simp only [Function.comp_def, hdeclares]
      · unfold classAt
        rw [lookup_mapEntries]
        cases g.lookup id with
        | none => rfl
        | some node =>
          simp only [Option.map_some]
          split <;> rfl
      · rw [hsame] at hv
        exact Or.inl hv
      · rw [hsame]
        exact hid

end Video

/-! ## Jobs -/

/-- A stored request after its validation, by the pipeline that takes it. -/
inductive Validated
  | image (v : ValidatedJob)
  | ltxv (v : ValidatedVideoJob)
  | wan (v : ValidatedVideoJob) (task : VideoTask)

namespace Validated

def pipeline : Validated → Pipeline
  | .image _ => .image
  | .ltxv _ => .ltxv
  | .wan _ _ => .wan

/-- The seed that is asked for. -/
def seed : Validated → Int
  | .image v => v.seed
  | .ltxv v => v.seed
  | .wan v _ => v.seed

/-- The same request with another seed. -/
def withSeed (seed : Int) : Validated → Validated
  | .image v => .image { v with seed }
  | .ltxv v => .ltxv { v with seed }
  | .wan v task => .wan { v with seed } task

end Validated

/-- The worker decodes the job, and validates it again. -/
inductive Accepts (svc : Service Graph) (job : Job) : Validated → Prop
  | image {raw : Json} {v : ValidatedJob} (stored : job.inputJson = .value raw)
      (kind : ∀ fields, raw = .obj fields → Json.get fields "artifact_kind" ≠ .str "video")
      (valid : svc.validateImage raw = .ok v) : Accepts svc job (.image v)
  | ltxv {envelope payload : List (String × Json)} {task : VideoTask} {v : ValidatedVideoJob}
      (stored : job.inputJson = .value (.obj envelope))
      (kind : Json.get envelope "artifact_kind" = .str "video")
      (family : peekFamily svc (Json.get envelope "payload") = .ok (some .ltxv))
      (opened : videoEnvelope envelope = .ok (task, payload))
      (valid : svc.validateVideo payload task = .ok v) : Accepts svc job (.ltxv v)
  | wan {envelope payload : List (String × Json)} {task : VideoTask} {v : ValidatedVideoJob}
      {other : Option Family} (stored : job.inputJson = .value (.obj envelope))
      (kind : Json.get envelope "artifact_kind" = .str "video")
      (family : peekFamily svc (Json.get envelope "payload") = .ok other)
      (notLtxv : other ≠ some .ltxv) (opened : videoEnvelope envelope = .ok (task, payload))
      (valid : svc.validateVideo payload task = .ok v) : Accepts svc job (.wan v task)

section Jobs

variable (py : Builtins) (files : Path → WorkflowFile) (cwd : Path)

/-- The graph of a request and a seed. -/
def graphOf (seed : Int) : Validated → Except PrepareFailure Graph
  | .image v => do
    let template ← (loadWorkflow py files cwd v.model.workflowPath).mapError GraphError.escape
    (injectImage py v seed template).mapError GraphError.escape
  | .ltxv v => do
    let template ← (loadWorkflow py files cwd v.resolvedWorkflowPath).mapError GraphError.escape
    (injectLtxv v seed template).mapError GraphError.report
  | .wan v task => do
    let template ← (loadWorkflow py files cwd v.resolvedWorkflowPath).mapError GraphError.escape
    let weighted ← (injectWan py v task template).mapError GraphError.report
    (injectWanRequest py v seed weighted).mapError GraphError.escape

/-- The graph does not depend on the seed that was asked for. -/
theorem graphOf_withSeed (asked seed : Int) (req : Validated) :
    graphOf py files cwd seed (req.withSeed asked) = graphOf py files cwd seed req := by
  cases req <;> rfl

variable {py files cwd} {svc : Service Graph} {job : Job} {req : Validated}

/-- The graph and the seed of a job that is ready. -/
def outcome (p : Prepared Graph) : Graph × Int := (p.graph, p.seed)

theorem prepareImage_valid {raw : Json} {v : ValidatedJob} (hv : svc.validateImage raw = .ok v)
    (jobId : String) (drawn : Nat) :
    (prepareImage (wired py files cwd svc) jobId drawn raw).map outcome =
      (graphOf py files cwd (actualSeed v.seed drawn) (.image v)).map
        fun g => (g, actualSeed v.seed drawn) := by
  have hvalid : (wired py files cwd svc).validateImage raw = .ok v := hv
  unfold prepareImage graphOf
  rw [hvalid]
  simp only [Except.mapError, ok_bind, map_bind]
  rfl

theorem prepareLtxv_valid {envelope payload : List (String × Json)} {task : VideoTask}
    {v : ValidatedVideoJob} (ho : videoEnvelope envelope = .ok (task, payload))
    (hv : svc.validateVideo payload task = .ok v) (jobId : String) (drawn : Nat) :
    (prepareLtxv (wired py files cwd svc) jobId drawn envelope).map outcome =
      (graphOf py files cwd (actualSeed v.seed drawn) (.ltxv v)).map
        fun g => (g, actualSeed v.seed drawn) := by
  have hvalid : (wired py files cwd svc).validateVideo payload task = .ok v := hv
  unfold prepareLtxv graphOf
  simp only [ho, hvalid, Except.mapError, ok_bind, map_bind]
  rfl

theorem prepareVideo_valid {envelope payload : List (String × Json)} {task : VideoTask}
    {v : ValidatedVideoJob} (ho : videoEnvelope envelope = .ok (task, payload))
    (hv : svc.validateVideo payload task = .ok v) (jobId : String) (drawn : Nat) :
    (prepareVideo (wired py files cwd svc) jobId drawn envelope).map outcome =
      (graphOf py files cwd (actualSeed v.seed drawn) (.wan v task)).map
        fun g => (g, actualSeed v.seed drawn) := by
  have hvalid : (wired py files cwd svc).validateVideo payload task = .ok v := hv
  unfold prepareVideo graphOf
  simp only [ho, hvalid, Except.mapError, ok_bind, map_bind]
  rfl

/-- What preparation makes of an accepted job. -/
theorem prepare_accepted (ha : Accepts svc job req) (drawn : Nat) :
    (prepare (wired py files cwd svc) job drawn).map outcome =
      (graphOf py files cwd (actualSeed req.seed drawn) req).map
        fun g => (g, actualSeed req.seed drawn) := by
  unfold prepare
  cases ha with
  | @image raw v stored kind valid =>
    rw [stored]
    cases raw with
    | obj fields =>
      dsimp only
      split
      · rename_i hvideo
        exact absurd hvideo (kind fields rfl)
      · exact prepareImage_valid valid job.id drawn
    | _ => exact prepareImage_valid valid job.id drawn
  | @ltxv envelope payload task v stored kind family opened valid =>
    have hpeek : peekFamily (wired py files cwd svc) (Json.get envelope "payload") =
        .ok (some .ltxv) := family
    simp only [stored, kind, hpeek, ok_bind]
    exact prepareLtxv_valid opened valid job.id drawn
  | @wan envelope payload task v other stored kind family notLtxv opened valid =>
    have hpeek : peekFamily (wired py files cwd svc) (Json.get envelope "payload") =
        .ok other := family
    simp only [stored, kind, hpeek, ok_bind]
    exact prepareVideo_valid opened valid job.id drawn

/-- The seed that a pipeline writes. -/
def writtenSeed : Pipeline → Int → Int
  | .ltxv, seed => seed % 1125899906842624
  | _, seed => seed

theorem hasSeed_graphOf {seed : Int} {g : Graph} (h : graphOf py files cwd seed req = .ok g) :
    HasSeed req.pipeline g (writtenSeed req.pipeline seed) := by
  cases req with
  | image v =>
    obtain ⟨template, -, h⟩ := bind_ok h
    exact hasSeed_image (mapError_ok h)
  | ltxv v =>
    obtain ⟨template, -, h⟩ := bind_ok h
    exact hasSeed_ltxv (mapError_ok h)
  | wan v task =>
    obtain ⟨template, -, h⟩ := bind_ok h
    obtain ⟨weighted, -, h⟩ := bind_ok h
    exact hasSeed_wan (mapError_ok h)

theorem prepared_of_accepted (ha : Accepts svc job req) {drawn : Nat} {p : Prepared Graph}
    (h : prepare (wired py files cwd svc) job drawn = .ok p) :
    graphOf py files cwd (actualSeed req.seed drawn) req = .ok p.graph ∧
      p.seed = actualSeed req.seed drawn := by
  have hall : (prepare (wired py files cwd svc) job drawn).map outcome = _ :=
    prepare_accepted ha drawn
  rw [h] at hall
  rcases hg : graphOf py files cwd (actualSeed req.seed drawn) req with e | g <;> rw [hg] at hall
  · cases hall
  · have houtcome : outcome p = (g, actualSeed req.seed drawn) := Except.ok.inj hall
    obtain ⟨hgraph, hseed⟩ := Prod.mk.inj houtcome
    exact ⟨by rw [hgraph], hseed⟩

/-- The same request with the seed that was reported makes the same graph,
whatever is drawn. -/
theorem resubmitted (ha : Accepts svc job req) {drawn : Nat} {p : Prepared Graph}
    (h : prepare (wired py files cwd svc) job drawn = .ok p) {job' : Job}
    (ha' : Accepts svc job' (req.withSeed p.seed)) (drawn' : Nat) :
    ∃ p', prepare (wired py files cwd svc) job' drawn' = .ok p' ∧ p'.graph = p.graph := by
  obtain ⟨hgraph, hseed⟩ := prepared_of_accepted ha h
  have hactual : actualSeed (req.withSeed p.seed).seed drawn' = p.seed := by
    have hfield : (req.withSeed p.seed).seed = p.seed := by cases req <;> rfl
    have hpos : 0 ≤ p.seed := by
      rw [hseed]
      unfold actualSeed
      split <;> omega
    rw [hfield, actualSeed, if_pos hpos]
  have hall : (prepare (wired py files cwd svc) job' drawn').map outcome = _ :=
    prepare_accepted ha' drawn'
  rw [hactual, graphOf_withSeed, hseed, hgraph] at hall
  rcases hp : prepare (wired py files cwd svc) job' drawn' with e | p' <;> rw [hp] at hall
  · cases hall
  · exact ⟨p', rfl, (Prod.mk.inj (Except.ok.inj hall)).1⟩

end Jobs

/-! ## Runs -/

section Runs

variable {svc : Service Graph} {job : Job} {p : Prepared Graph}

/-- What an operation stores is the prepared seed. -/
def Stores (seed : Int) (op : Op Graph) : Prop :=
  ∀ id keys r, op = .setCompleted id keys r → r.resolvedSeed = seed

theorem stores_of_plain {seed : Int} {op : Op Graph} (h : storage_orphans.Plain op) :
    Stores seed op := fun id keys r heq => absurd heq (storage_orphans.not_setCompleted h id keys r)

theorem stores_ask {seed : Int} {op : Op Graph} (h : ∀ id keys r, op ≠ .setCompleted id keys r) :
    (ask op).All (Stores seed) :=
  (Co.all_call op).mpr fun id keys r heq => absurd heq (h id keys r)

theorem stores_finish (keys : List String) (data : List DataEntry) :
    (finish job p keys data).All (Stores p.seed) := by
  unfold finish
  refine Co.all_bind (stores_ask (by simp)) fun durationMs => ?_
  refine Co.all_bind ?_ fun _ => Co.all_bind (stores_ask (by simp)) fun _ => trivial
  refine (Co.all_call _).mpr fun id keys r heq => ?_
  cases heq
  rfl

theorem stores_orStorage {α : Type} {seed : Int} {q : Prog Graph α} (h : q.All (Stores seed)) :
    (orStorage job q).All (Stores seed) := by
  refine Co.all_tryCatch h fun e => ?_
  split
  · exact (storage_orphans.silent_failJob _ _ _ _).mono fun _ h => stores_of_plain h.plain
  · trivial

theorem stores_uploadPngs {seed : Int} (images : List Bytes) (idx : Nat) :
    (uploadPngs job idx images : Prog Graph (List String)).All (Stores seed) := by
  induction images generalizing idx with
  | nil => trivial
  | cons png rest ih =>
    unfold uploadPngs
    refine Co.all_bind (stores_ask (by simp)) fun a => ?_
    exact Co.all_bind (ih (idx + 1)) fun _ => trivial

theorem stores_uploadBlobs {seed : Int} (blobs : List (Bytes × String)) (idx : Nat) :
    (uploadBlobs svc job idx blobs).All (Stores seed) := by
  induction blobs generalizing idx with
  | nil => trivial
  | cons blob rest ih =>
    unfold uploadBlobs uploadBlob
    refine Co.all_bind ?_ fun a => Co.all_bind (ih (idx + 1)) fun _ => trivial
    split
    · exact stores_ask (by simp)
    · exact stores_ask (by simp)

theorem gives_finish (keys : List String) (data : List DataEntry) :
    (finish job p keys data : Prog Graph JobResult).Gives fun r => r.resolvedSeed = p.seed := by
  unfold finish
  exact Co.gives_bind _ fun durationMs => Co.gives_bind _ fun _ => Co.gives_bind _ fun _ => rfl

theorem gives_comfyError (message : String) {A : JobResult → Prop} :
    (comfyError job message : Prog Graph JobResult).Gives A :=
  Co.gives_bind _ fun _ => Co.gives_bind _ fun _ => trivial

theorem stores_comfyError {seed : Int} (message : String) :
    (comfyError job message : Prog Graph JobResult).All (Stores seed) :=
  (storage_orphans.silent_failJob _ _ _ _).mono fun _ h => stores_of_plain h.plain

theorem stores_deliverImages (transparentBackground : Bool) (promptId : String) :
    (deliverImages svc job p transparentBackground promptId).All (Stores p.seed) ∧
      (deliverImages svc job p transparentBackground promptId).Gives
        fun r => r.resolvedSeed = p.seed := by
  have hsilent : storage_orphans.Silent (.call (.fetchOutputs promptId) : Op Graph) := trivial
  have hfetch : (orUnreachable job (ask (.call (.fetchOutputs promptId)) :
      Prog Graph (List Bytes))).All (Stores p.seed) :=
    (storage_orphans.silent_orUnreachable ((Co.all_call _).mpr hsilent)).mono
      fun _ h => stores_of_plain h.plain
  unfold deliverImages
  constructor
  · refine Co.all_bind hfetch fun images => ?_
    split
    · exact stores_comfyError _
    · split
      · exact stores_comfyError _
      · exact Co.all_bind (stores_orStorage (stores_uploadPngs _ _)) fun keys => stores_finish _ _
  · refine Co.gives_bind _ fun images => ?_
    split
    · exact gives_comfyError _
    · split
      · exact gives_comfyError _
      · exact Co.gives_bind _ fun keys => gives_finish _ _

theorem stores_deliverMedia (missingFetchMedia zeroOutputs promptId : String) :
    (deliverMedia svc job p missingFetchMedia zeroOutputs promptId).All (Stores p.seed) ∧
      (deliverMedia svc job p missingFetchMedia zeroOutputs promptId).Gives
        fun r => r.resolvedSeed = p.seed := by
  have hsilent : storage_orphans.Silent (.call (.fetchMediaOutputs promptId) : Op Graph) := trivial
  have hfetch : (orUnreachable job (ask (.call (.fetchMediaOutputs promptId)) :
      Prog Graph (List (Bytes × String)))).All (Stores p.seed) :=
    (storage_orphans.silent_orUnreachable ((Co.all_call _).mpr hsilent)).mono
      fun _ h => stores_of_plain h.plain
  unfold deliverMedia
  split
  · constructor
    · refine Co.all_bind hfetch fun rows => ?_
      split
      · exact stores_comfyError _
      · exact Co.all_bind (stores_orStorage (stores_uploadBlobs _ _)) fun keys => stores_finish _ _
    · refine Co.gives_bind _ fun rows => ?_
      split
      · exact gives_comfyError _
      · exact Co.gives_bind _ fun keys => gives_finish _ _
  · exact ⟨Co.all_bind (stores_ask (by simp)) fun _ => trivial, Co.gives_bind _ fun _ => trivial⟩

theorem stores_runPrepared :
    (runPrepared svc job p).All (Stores p.seed) ∧
      (runPrepared svc job p).Gives fun r => r.resolvedSeed = p.seed := by
  unfold runPrepared
  constructor
  · refine Co.all_bind (storage_orphans.plain_generate.mono fun _ => stores_of_plain)
      fun promptId => ?_
    split
    · exact (stores_deliverImages _ _).1
    · exact (stores_deliverMedia _ _ _).1
  · refine Co.gives_bind _ fun promptId => ?_
    split
    · exact (stores_deliverImages _ _).2
    · exact (stores_deliverMedia _ _ _).2

/-- What follows the draw. -/
def afterDraw (svc : Service Graph) (job : Job) (drawn : Nat) : Prog Graph JobResult :=
  match prepare svc job drawn with
  | .error failure => raiseFailure job failure
  | .ok p => runPrepared svc job p

theorem runPipeline_run {σ : Type} {exec : (op : Op Graph) → σ → Except Exc op.Ans × σ} {s : σ}
    {drawn : Nat} (hdrawn : (exec .randbelow s).1 = .ok drawn) :
    (runPipeline svc job).run exec s = (afterDraw svc job drawn).run exec (exec .randbelow s).2 := by
  have hdraw : (randbelow : Prog Graph Nat).run exec s = (.ok drawn, (exec .randbelow s).2) := by
    unfold randbelow ask
    rw [Co.run_call, ← hdrawn]
  unfold runPipeline afterDraw
  rw [Co.run_bind_ok exec hdraw]
  cases prepare svc job drawn <;> rfl

/-- The operations of a run, in their order. -/
def trace {σ : Type} (exec : (op : Op Graph) → σ → Except Exc op.Ans × σ) (svc : Service Graph)
    (job : Job) (s : σ) : List (Op Graph) :=
  ((runPipeline svc job).run (Co.logged exec) (s, [])).2.2.map (·.1)

/-- A completed run has been prepared with what was drawn, and it submits the
prepared graph, stores the prepared seed and returns it. -/
theorem completed_run {σ : Type} {exec : (op : Op Graph) → σ → Except Exc op.Ans × σ} {s : σ}
    {drawn : Nat} (hdrawn : (exec .randbelow s).1 = .ok drawn) {r : JobResult}
    (hr : ((runPipeline svc job).run exec s).1 = .ok r) :
    ∃ p, prepare svc job drawn = .ok p ∧ r.resolvedSeed = p.seed ∧
      ∀ op ∈ trace exec svc job s, lora_injection.SubmitsFor svc p op ∧ Stores p.seed op := by
  have hlogged : (Co.logged exec .randbelow (s, [])).1 = .ok drawn := hdrawn
  rcases hp : prepare svc job drawn with failure | p
  · have hgives : (afterDraw svc job drawn).Gives fun _ => False := by
      unfold afterDraw raiseFailure
      rw [hp]
      dsimp only
      split
      · exact Co.gives_bind _ fun _ => Co.gives_bind _ fun _ => trivial
      · exact Co.gives_bind _ fun _ => trivial
      · trivial
    rw [runPipeline_run hdrawn] at hr
    exact (Co.returned_of_gives hgives hr).elim
  · have hafter : afterDraw svc job drawn = runPrepared svc job p := by
      unfold afterDraw
      rw [hp]
    have hprepared : (runPrepared svc job p).All (Stores p.seed) ∧ _ := stores_runPrepared
    obtain ⟨hstores, hgives⟩ := hprepared
    rw [runPipeline_run hdrawn, hafter] at hr
    refine ⟨p, rfl, Co.returned_of_gives hgives hr, fun op hop => ?_⟩
    obtain ⟨e, he, rfl⟩ := List.mem_map.mp hop
    rw [runPipeline_run hlogged, hafter] at he
    constructor
    · rcases Co.log_of_all (lora_injection.submitsFor_runPrepared p) _ _ e he with hdraw | h
      · rw [List.mem_singleton.mp hdraw]
        rintro model g heq
        cases heq
      · exact h
    · rcases Co.log_of_all hstores _ _ e he with hdraw | h
      · rw [List.mem_singleton.mp hdraw]
        rintro id keys r heq
        cases heq
      · exact h

end Runs

section Completed

variable {σ : Type} {py : Builtins} {files : Path → WorkflowFile} {cwd : Path}
  {svc : Service Graph} {job : Job} {req : Validated}
  {exec : (op : Op Graph) → σ → Except Exc op.Ans × σ} {s : σ} {drawn : Nat} {r : JobResult}

theorem submitted_hasSeed (ha : Accepts svc job req) (hdrawn : (exec .randbelow s).1 = .ok drawn)
    (hr : ((runPipeline (wired py files cwd svc) job).run exec s).1 = .ok r) {model : String}
    {g : Graph} (hg : .call (.submit model g) ∈ trace exec (wired py files cwd svc) job s) :
    HasSeed req.pipeline g (writtenSeed req.pipeline r.resolvedSeed) := by
  obtain ⟨p, hp, hseed, hops⟩ := completed_run hdrawn hr
  obtain ⟨hgraph, hactual⟩ := prepared_of_accepted ha hp
  have hprepared := hasSeed_graphOf hgraph
  rw [← hactual, ← hseed] at hprepared
  have hfinal := (hops _ hg).1 model g rfl
  unfold lora_injection.submittedGraph at hfinal
  split at hfinal
  · cases hfinal
    exact hprepared
  · refine hprepared.keeps fun key hkey => keeps_injectInitImage ?_ hfinal
    rcases hkey with rfl | rfl <;> decide

theorem actualSeed_nonneg (seed : Int) (drawn : Nat) : 0 ≤ actualSeed seed drawn := by
  unfold actualSeed
  split <;> omega

theorem writtenSeed_eq_iff {pipeline : Pipeline} {seed : Int} (h : 0 ≤ seed) :
    writtenSeed pipeline seed = seed ↔ pipeline ≠ .ltxv ∨ seed < 2 ^ 50 := by
  cases pipeline with
  | ltxv =>
    simp only [writtenSeed, ne_eq, not_true_eq_false, false_or]
    omega
  | image => simp [writtenSeed]
  | wan => simp [writtenSeed]

/-- A completed job of any family, whatever the outside answers: what it stores
is what it returns, each graph that it submits has that seed in all its seeds if
and only if the pipeline is not that of LTX or the seed is below 2^50, and the
request made again with that seed makes the same graph. -/
theorem reported_seed_is_written_iff (ha : Accepts svc job req)
    (hdrawn : (exec .randbelow s).1 = .ok drawn)
    (hr : ((runPipeline (wired py files cwd svc) job).run exec s).1 = .ok r) :
    (∀ id keys r', .setCompleted id keys r' ∈ trace exec (wired py files cwd svc) job s →
      r'.resolvedSeed = r.resolvedSeed) ∧
    (∀ model g, .call (.submit model g) ∈ trace exec (wired py files cwd svc) job s →
      (HasSeed req.pipeline g r.resolvedSeed ↔
        req.pipeline ≠ .ltxv ∨ actualSeed req.seed drawn < 2 ^ 50)) ∧
    ∃ p, prepare (wired py files cwd svc) job drawn = .ok p ∧
      ∀ job' drawn', Accepts svc job' (req.withSeed r.resolvedSeed) →
        ∃ p', prepare (wired py files cwd svc) job' drawn' = .ok p' ∧ p'.graph = p.graph := by
  obtain ⟨p, hp, hseed, hops⟩ := completed_run hdrawn hr
  have hactual : r.resolvedSeed = actualSeed req.seed drawn :=
    hseed.trans (prepared_of_accepted ha hp).2
  refine ⟨fun id keys r' hmem => ?_, fun model g hmem => ?_, p, hp, fun job' drawn' ha' => ?_⟩
  · rw [hseed]
    exact (hops _ hmem).2 id keys r' rfl
  · have hwritten := submitted_hasSeed ha hdrawn hr hmem
    rw [hactual] at hwritten ⊢
    rw [← writtenSeed_eq_iff (actualSeed_nonneg req.seed drawn)]
    constructor
    · intro hreported
      exact hwritten.unique hreported
    · intro hsame
      rw [hsame] at hwritten
      exact hwritten
  · rw [hseed] at ha'
    exact resubmitted ha hp ha' drawn'

end Completed

/-! ## Two LTX jobs -/

/-- An outside where every call comes through. -/
def calmCall : (c : Call Graph) → c.Ans
  | .uploadImage _ filename => filename
  | .unloadModels => true
  | .health => []
  | .submit _ _ => "p"
  | .cancel _ => ()
  | .waitForCompletion _ _ => ()
  | .free => true
  | .fetchOutputs _ => []
  | .fetchMediaOutputs _ => [([1], "mp4")]
  | .uploadPng _ _ _ => ("b", "k")
  | .uploadGenerationBlob _ _ _ _ _ => ("b", "k")

def calmAns : (op : Op Graph) → op.Ans
  | .call c => calmCall c
  | .setRunning _ _ _ => ()
  | .setCompleted _ _ _ => ()
  | .setFailed _ _ _ => ()
  | .lastModelName => none
  | .setLastModelName _ => ()
  | .recordJobEvent _ _ => ()
  | .headroomChecked _ _ => ()
  | .durationMs => 0
  | .randbelow => 0
  | .setResult _ => ()
  | .setException _ => ()

def calm (op : Op Graph) (s : Unit) : Except Exc op.Ans × Unit := (.ok (calmAns op), s)

/-- The job of an LTX model, with a seed. -/
def seededJob (seed : Int) : ValidatedVideoJob :=
  { lora_injection.ltxValidated with seed := seed, loras := [] }

def seededService (seed : Int) : Service Graph :=
  { lora_injection.ltxService with validateVideo := fun _ _ => .ok (seededJob seed) }

theorem seeded_accepts (seed : Int) :
    Accepts (seededService seed) lora_injection.ltxJob (.ltxv (seededJob seed)) :=
  .ltxv rfl rfl rfl rfl rfl

/-- The worker of the two jobs. -/
def seededWorker (seed : Int) : Service Graph :=
  wired asciiBuiltins lora_injection.ltxFiles ["app"] (seededService seed)

def returned (seed : Int) : Except Exc JobResult :=
  ((runPipeline (seededWorker seed) lora_injection.ltxJob).run calm ()).1

theorem reported_seed_is_written_seven :
    ∃ r, returned 7 = .ok r ∧
      (∀ id keys r', .setCompleted id keys r' ∈
          trace calm (seededWorker 7) lora_injection.ltxJob () →
        r'.resolvedSeed = r.resolvedSeed) ∧
      (∀ model g, .call (.submit model g) ∈
          trace calm (seededWorker 7) lora_injection.ltxJob () →
        (HasSeed .ltxv g r.resolvedSeed ↔ Pipeline.ltxv ≠ .ltxv ∨ actualSeed 7 0 < 2 ^ 50)) ∧
      ∃ p, prepare (seededWorker 7) lora_injection.ltxJob 0 = .ok p ∧
        ∀ job' drawn', Accepts (seededService 7) job'
            ((Validated.ltxv (seededJob 7)).withSeed r.resolvedSeed) →
          ∃ p', prepare (seededWorker 7) job' drawn' = .ok p' ∧ p'.graph = p.graph := by
  have hok : (returned 7).isOk = true := by decide +kernel
  rcases hr : returned 7 with e | r
  · rw [hr] at hok
    cases hok
  · exact ⟨r, rfl, reported_seed_is_written_iff (seeded_accepts 7) rfl hr⟩

def isSubmit : Op Graph → Bool
  | .call (.submit _ _) => true
  | _ => false

/-- A seed of 2^50 is reported as it is, but the graph has the seed 0. -/
theorem a_large_ltx_seed_is_not_written :
    ∃ r model g, returned (2 ^ 50) = .ok r ∧
      .call (.submit model g) ∈ trace calm (seededWorker (2 ^ 50)) lora_injection.ltxJob () ∧
      r.resolvedSeed = 2 ^ 50 ∧ ¬ HasSeed .ltxv g r.resolvedSeed := by
  have hok : (returned (2 ^ 50)).toOption.any (fun r => r.resolvedSeed = 2 ^ 50) = true := by
    decide +kernel
  have hany : (trace calm (seededWorker (2 ^ 50)) lora_injection.ltxJob ()).any isSubmit = true := by
    decide +kernel
  rcases hr : returned (2 ^ 50) with e | r
  · rw [hr] at hok
    cases hok
  · rw [hr] at hok
    have hseed : r.resolvedSeed = 2 ^ 50 := of_decide_eq_true hok
    obtain ⟨op, hop, hsubmit⟩ := List.any_eq_true.mp hany
    unfold isSubmit at hsubmit
    split at hsubmit
    · rename_i model g
      refine ⟨r, model, g, rfl, hop, hseed, fun hreported => ?_⟩
      have hwritten := submitted_hasSeed (seeded_accepts (2 ^ 50)) rfl hr hop
      have hsame := hreported.unique hwritten
      rw [hseed] at hsame
      revert hsame
      decide
    · cases hsubmit

end image_gen.resolved_seed

-- What `load_registry` has checked of the entries that it keeps: the files that they name,
-- and the anchors of their workflows.
import ImageGen.Preparation
import ImageGen.Registry

namespace image_gen.registry_checks

open image_gen.graph image_gen.graph_shape image_gen.preparation image_gen.registry
  image_gen.requests image_gen.results
open image_gen.injectors (given)

/-- The loader finds this graph at a path under the root of the workflows. -/
def Opens (site : Site) (path : String) (g : Graph) : Prop :=
  loadWorkflow site.py site.files site.cwd (site.workflow path) = .ok g

/-- The anchors of the silent workflow, for any task. -/
def silentAnchors : Family → List String
  | .wan22 => baseAnchorsWan22
  | .ltxv => requiredAnchorsLtxv
  | family => requiredAnchorsForFamily family

/-- An entry that the registry keeps. -/
structure Kept (site : Site) (cfg : ModelConfig) : Prop where
  eps : cfg.prediction = .eps
  files : cfg.family = .wan22 → FilesGiven cfg
  mmaudio : cfg.workflowWithAudio ≠ none →
    ∀ asset ∈ [cfg.mmaudioVae, cfg.mmaudioSynchformer, cfg.mmaudioClip, cfg.mmaudioDiffusion],
      NamesFile asset
  silent : ∃ g, Opens site cfg.workflowPath g ∧ ∀ a ∈ silentAnchors cfg.family, Declared g a
  audio : ∀ path, given cfg.workflowWithAudio = some path →
    ∃ g, Opens site path g ∧ ∀ a ∈ baseAnchorsWan22 ++ mmaudioAnchorsWan22, Declared g a

section Checks

variable {site : Site} {cfg : ModelConfig} {g : Graph}

theorem declared_of_owners {anchor : String} (h : owners g anchor ≠ []) : Declared g anchor := by
  rw [declared_iff]
  obtain ⟨id, hid⟩ := List.exists_mem_of_ne_nil _ h
  obtain ⟨e, he, hmem⟩ := List.mem_flatMap.mp hid
  obtain ⟨part, hpart, -⟩ := List.mem_map.mp hmem
  obtain ⟨htitle, heq⟩ := List.mem_filter.mp hpart
  refine ⟨e, he, ?_⟩
  unfold Node.declares
  rw [← decide_eq_true_eq.mp heq]
  exact decide_eq_true htitle

theorem validateAnchors_ok {required : List String} {u : Unit}
    (h : validateAnchors g required = .ok u) : ∀ a ∈ required, Declared g a := by
  intro a ha
  apply declared_of_owners
  intro hnone
  unfold validateAnchors at h
  have hmissing : (required.filter fun a => owners g a = []) ≠ [] :=
    List.ne_nil_of_mem (List.mem_filter.mpr ⟨ha, decide_eq_true hnone⟩)
  simp [hmissing] at h

theorem requiredAnchorsForVideoTask_ok {task : String} {required : List String}
    (h : requiredAnchorsForVideoTask task = .ok required) : baseAnchorsWan22 ⊆ required := by
  unfold requiredAnchorsForVideoTask at h
  split at h
  · cases h
    exact List.subset_append_left _ _
  · cases h
    exact List.Subset.refl _
  · cases h

theorem requiredAnchors_ok {required : List String}
    (h : requiredAnchors site cfg = .ok required) : silentAnchors cfg.family ⊆ required := by
  unfold requiredAnchors at h
  cases hfamily : cfg.family with
  | wan22 =>
    rw [hfamily] at h
    exact requiredAnchorsForVideoTask_ok h
  | ltxv =>
    rw [hfamily] at h
    dsimp only at h
    unfold requiredAnchorsForLtxvTask at h
    split_ifs at h
    cases h
    exact List.Subset.refl _
  | sdxl | flux | qwen =>
    rw [hfamily] at h
    cases h
    exact List.Subset.refl _

theorem requiredAnchorsForWan22AudioTask_ok {task : String} {required : List String}
    (h : requiredAnchorsForWan22AudioTask task = .ok required) :
    baseAnchorsWan22 ++ mmaudioAnchorsWan22 ⊆ required := by
  obtain ⟨base, hbase, rfl⟩ := map_ok h
  intro a ha
  rcases List.mem_append.mp ha with hold | hmmaudio
  · exact List.mem_append_left _ (requiredAnchorsForVideoTask_ok hbase hold)
  · exact List.mem_append_right _ hmmaudio

/-- The base anchors of WAN have the low one among them, so each such entry names the low
weights. -/
theorem checkWorkflow_ok (h : checkWorkflow site cfg = .ok g) :
    Opens site cfg.workflowPath g ∧ (∀ a ∈ silentAnchors cfg.family, Declared g a) ∧
      (cfg.family = .wan22 → given cfg.wanUnetLow ≠ none) := by
  unfold checkWorkflow at h
  obtain ⟨-, -, h⟩ := bind_ok h
  obtain ⟨g', hload, h⟩ := bind_ok h
  obtain ⟨required, hrequired, h⟩ := bind_ok h
  obtain ⟨_, hanchors, h⟩ := bind_ok h
  obtain ⟨_, hlow, h⟩ := bind_ok h
  obtain ⟨-, -, h⟩ := bind_ok h
  cases h
  have hdeclared : ∀ a ∈ silentAnchors cfg.family, Declared g a := fun a ha =>
    validateAnchors_ok (mapError_ok hanchors) a (requiredAnchors_ok (mapError_ok hrequired) ha)
  refine ⟨mapError_ok hload, hdeclared, fun hfamily hnone => refuseIf_ok hlow ⟨hfamily, ?_, hnone⟩⟩
  exact hdeclared "%WAN_MODEL_LOW%" (by rw [hfamily]; decide)

theorem checkAudioWorkflow_ok {silent : Graph} {u : Unit}
    (h : checkAudioWorkflow site cfg silent = .ok u) {path : String}
    (hpath : given cfg.workflowWithAudio = some path) :
    ∃ g, Opens site path g ∧ ∀ a ∈ baseAnchorsWan22 ++ mmaudioAnchorsWan22, Declared g a := by
  unfold checkAudioWorkflow at h
  rw [hpath] at h
  obtain ⟨-, -, h⟩ := bind_ok h
  obtain ⟨g, hload, h⟩ := bind_ok h
  obtain ⟨required, hrequired, h⟩ := bind_ok h
  obtain ⟨_, hanchors, -⟩ := bind_ok h
  refine ⟨g, mapError_ok hload, fun a ha => ?_⟩
  exact validateAnchors_ok (mapError_ok hanchors) a
    (requiredAnchorsForWan22AudioTask_ok (mapError_ok hrequired) ha)

theorem checkMmaudio_ok {skip : Bool} {field : String} {path : json.Json} {u : Unit}
    (h : checkMmaudio site skip cfg field path = .ok u) : NamesFile path := by
  obtain ⟨_, hrefuse, h⟩ := bind_ok h
  have htruthy := refuseIf_ok hrefuse
  cases path with
  | str s =>
    refine ⟨s, rfl, ?_⟩
    rintro rfl
    exact htruthy rfl
  | _ => cases h

theorem checkAudioAssets_ok {skip : Bool} {u : Unit}
    (h : checkAudioAssets site skip cfg = .ok u) (haudio : cfg.workflowWithAudio ≠ none) :
    ∀ asset ∈ [cfg.mmaudioVae, cfg.mmaudioSynchformer, cfg.mmaudioClip, cfg.mmaudioDiffusion],
      NamesFile asset := by
  unfold checkAudioAssets at h
  split at h
  · next hnone => exact absurd hnone haudio
  · obtain ⟨_, h1, h⟩ := bind_ok h
    obtain ⟨_, h2, h⟩ := bind_ok h
    obtain ⟨_, h3, h⟩ := bind_ok h
    simp only [List.forall_mem_cons, List.not_mem_nil, false_imp_iff, implies_true, and_true]
    exact ⟨checkMmaudio_ok h1, checkMmaudio_ok h2, checkMmaudio_ok h3, checkMmaudio_ok h⟩

theorem checkFamily_ok {u : Unit} (h : checkFamily cfg = .ok u) (hfamily : cfg.family = .wan22) :
    given cfg.wanT5Encoder ≠ none ∧ given cfg.vae ≠ none := by
  unfold checkFamily at h
  rw [hfamily] at h
  obtain ⟨-, -, h⟩ := bind_ok h
  obtain ⟨_, ht5, h⟩ := bind_ok h
  obtain ⟨-, -, h⟩ := bind_ok h
  exact ⟨refuseIf_ok ht5, refuseIf_ok h⟩

theorem eps_of_not_vpred {p : Prediction} (h : ¬ p = .vpred) : p = .eps := by
  cases p with
  | eps => rfl
  | vpred => exact absurd rfl h

/-- One turn of the loop. -/
theorem kept_loadEntry {models : List ModelConfig} {raw : Entry}
    (h : loadEntry site models raw = .ok cfg) : Kept site cfg := by
  unfold loadEntry at h
  obtain ⟨-, -, h⟩ := bind_ok h
  obtain ⟨-, -, h⟩ := bind_ok h
  obtain ⟨prediction, -, h⟩ := bind_ok h
  obtain ⟨family, -, h⟩ := bind_ok h
  obtain ⟨_, hpred, h⟩ := bind_ok h
  obtain ⟨-, -, h⟩ := bind_ok h
  obtain ⟨-, -, h⟩ := bind_ok h
  obtain ⟨_, hfamily, h⟩ := bind_ok h
  obtain ⟨-, -, h⟩ := bind_ok h
  obtain ⟨_, hassets, h⟩ := bind_ok h
  obtain ⟨silent, hsilent, h⟩ := bind_ok h
  obtain ⟨_, haudio, h⟩ := bind_ok h
  obtain ⟨-, -, h⟩ := bind_ok h
  cases h
  obtain ⟨hopens, hanchors, hlow⟩ := checkWorkflow_ok hsilent
  exact {
    eps := eps_of_not_vpred (refuseIf_ok hpred)
    files := fun hwan =>
      ⟨(checkFamily_ok hfamily hwan).2, (checkFamily_ok hfamily hwan).1, hlow hwan⟩
    mmaudio := checkAudioAssets_ok hassets
    silent := ⟨silent, hopens, hanchors⟩
    audio := fun path => checkAudioWorkflow_ok haudio }

theorem kept_loadEntries {models out : List ModelConfig} {entries : List Entry}
    (h : loadEntries site models entries = .ok out) (hkept : ∀ cfg ∈ models, Kept site cfg) :
    ∀ cfg ∈ out, Kept site cfg := by
  induction entries generalizing models with
  | nil =>
    cases h
    exact hkept
  | cons raw rest ih =>
    obtain ⟨cfg, hcfg, h⟩ := bind_ok h
    apply ih h
    intro cfg' hmem
    rcases List.mem_append.mp hmem with hold | hnew
    · exact hkept cfg' hold
    · rw [List.mem_singleton.mp hnew]
      exact kept_loadEntry hcfg

/-- Every model of a loaded registry has been checked. -/
theorem kept_loadRegistry {yaml : YamlFile} {models : List ModelConfig}
    (h : loadRegistry site yaml = .ok models) : ∀ cfg ∈ models, Kept site cfg := by
  unfold loadRegistry at h
  split at h
  · cases h
  · cases h
  · cases h
  · exact kept_loadEntries h (List.forall_mem_nil _)

end Checks

end image_gen.registry_checks

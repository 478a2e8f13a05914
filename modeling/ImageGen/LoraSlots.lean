-- LoRAs in a legacy workflow (`inject_wan_lora_multi`): the five slots of
-- `WanVideoLoraSelectMulti`.
import ImageGen.LoraPaths

namespace image_gen.lora_slots

open image_gen.graph image_gen.graph_edits image_gen.injectors image_gen.json
  image_gen.lora_chain image_gen.lora_paths image_gen.py_dict image_gen.requests
  image_gen.results

/-! ## What a graph carries -/

/-- The slots in use, in order. -/
def slots (inputs : Inputs) : List Entry :=
  (List.range wanMaxLoras).filterMap fun i =>
    match inputs.get (slotName i) with
    | .null => none
    | .str "none" => none
    | file => some (file, inputs.get (slotStrength i))

def CarriesLegacy (template g : Graph) (loras : List ResolvedLoraRef) : Prop :=
  match owner template "%WAN_LORA_MULTI%" with
  | none => loras = []
  | some multiId => slots (inputsAt g multiId) = loras.map entry

/-- A patch of `clip_encode` that lands on the slots changes no strength. -/
def KeepsStrengths (template : Graph) (loras : List ResolvedLoraRef) (adv : Option Json)
    (task : VideoTask) : Prop :=
  owner template "%WAN_CLIP_ENCODE%" = owner template "%WAN_LORA_MULTI%" →
    ∀ patch, forI2v task (options adv "clip_encode" clipEncodeOptions) = some patch →
      ∀ lora i, (lora, i) ∈ loras.zipIdx → ∀ value, patch.lookup (slotStrength i) = some value →
        value = .float lora.weight

def FitsLegacy (template : Graph) (loras : List ResolvedLoraRef) (adv : Option Json)
    (task : VideoTask) : Prop :=
  loras.length ≤ wanMaxLoras ∧ KeepsStrengths template loras adv task

/-! ## The slots -/

section Slots

variable {template g g' : Graph}

theorem slotName_ne {i j : Nat} (h : i ≠ j) : slotName i ≠ slotName j := by
  intro heq
  apply h
  apply py_str.toString_injective
  have hlists := congrArg String.toList heq
  simpa [slotName] using hlists

theorem slotStrength_ne {i j : Nat} (h : i ≠ j) : slotStrength i ≠ slotStrength j := by
  intro heq
  apply h
  apply py_str.toString_injective
  have hlists := congrArg String.toList heq
  simpa [slotStrength] using hlists

theorem slotName_ne_slotStrength (i j : Nat) : slotName i ≠ slotStrength j := by
  intro heq
  have hlists := congrArg String.toList heq
  simp [slotName, slotStrength] at hlists

/-- What the inputs from slot `n` on say about slot `i`. -/
def slotOf (n i : Nat) (entries : List Entry) : Option Entry :=
  if n ≤ i then entries[i - n]? else none

theorem slotOf_cons (n i : Nat) (e : Entry) (entries : List Entry) :
    slotOf n i (e :: entries) = if i = n then some e else slotOf (n + 1) i entries := by
  unfold slotOf
  by_cases heq : i = n
  · simp [heq]
  · by_cases hle : n ≤ i
    · have hsub : i - n = i - (n + 1) + 1 := by omega
      have hlt : n + 1 ≤ i := by omega
      simp only [hle, ↓reduceIte, heq, hlt, hsub, List.getElem?_cons_succ]
    · have hlt : ¬ n + 1 ≤ i := by omega
      simp [hle, heq, hlt]

theorem slotOf_of_lt {n i : Nat} (h : i < n) (entries : List Entry) :
    slotOf n i entries = none := if_neg (Nat.not_le.mpr h)

theorem lookup_slotName (d : Fields) (n i : Nat) (entries : List Entry) :
    (update d (slotInputs n entries)).lookup (slotName i) =
      ((slotOf n i entries).map (·.1)).or (d.lookup (slotName i)) := by
  induction entries generalizing d n with
  | nil => simp [slotInputs, update, slotOf]
  | cons e rest ih =>
    rw [slotInputs, update_cons, update_cons, ih, slotOf_cons,
      lookup_set_ne _ _ (slotName_ne_slotStrength i n)]
    by_cases heq : i = n
    · subst heq
      rw [lookup_set_self, slotOf_of_lt (Nat.lt_succ_self i)]
      simp
    · rw [lookup_set_ne _ _ (slotName_ne heq), if_neg heq]

theorem lookup_slotStrength (d : Fields) (n i : Nat) (entries : List Entry) :
    (update d (slotInputs n entries)).lookup (slotStrength i) =
      ((slotOf n i entries).map (·.2)).or (d.lookup (slotStrength i)) := by
  induction entries generalizing d n with
  | nil => simp [slotInputs, update, slotOf]
  | cons e rest ih =>
    rw [slotInputs, update_cons, update_cons, ih, slotOf_cons]
    by_cases heq : i = n
    · subst heq
      rw [lookup_set_self, slotOf_of_lt (Nat.lt_succ_self i)]
      simp
    · rw [lookup_set_ne _ _ (slotStrength_ne heq),
        lookup_set_ne _ _ (slotName_ne_slotStrength n i).symm, if_neg heq]

theorem mem_flag {adv : Option Json} {key : String} : ∀ e ∈ flag adv key, e.1 = key := by
  unfold flag
  split
  · split <;> simp
  · simp

/-- What `inject_wan_lora_multi` writes. -/
def multiInputs (loras : List ResolvedLoraRef) (adv : Option Json) : Fields :=
  emptySlots ++ filledSlots loras ++ flag adv "merge_loras" ++ flag adv "low_mem_load"

theorem slotKeys_ne_flags (i : Nat) : "merge_loras" ≠ slotName i ∧ "low_mem_load" ≠ slotName i ∧
    "merge_loras" ≠ slotStrength i ∧ "low_mem_load" ≠ slotStrength i := by
  refine ⟨?_, ?_, ?_, ?_⟩ <;>
  · intro heq
    have hlists := congrArg String.toList heq
    simp [slotName, slotStrength] at hlists

/-- A slot holds the LoRA of its number, or is empty. -/
theorem get_multiInputs {inputs : Inputs} (hd : inputs.isDict = true)
    (loras : List ResolvedLoraRef) (adv : Option Json) {i : Nat} (hi : i < wanMaxLoras) :
    (inputs.write (multiInputs loras adv)).get (slotName i) =
        (loras[i]?.map loraFile).getD (.str "none") ∧
      (inputs.write (multiInputs loras adv)).get (slotStrength i) =
        (loras[i]?.map fun lora => .float lora.weight).getD (.float (.finite 1)) := by
  obtain ⟨hm, hl, hms, hls⟩ := slotKeys_ne_flags i
  have hempty : slotOf 0 i (List.replicate wanMaxLoras (Json.str "none", .float (.finite 1))) =
      some (.str "none", .float (.finite 1)) := by
    simp [slotOf, hi]
  have hfilled : slotOf 0 i
      ((loras.take wanMaxLoras).map fun lora => (loraFile lora, Json.float lora.weight)) =
        loras[i]?.map fun lora => (loraFile lora, .float lora.weight) := by
    simp [slotOf, hi]
  cases inputs with
  | dict fields =>
    simp only [multiInputs, Inputs.write, Inputs.get, Json.get, update_append]
    constructor
    · rw [lookup_update_of_not_mem _ _ fun e he => mem_flag e he ▸ hl,
        lookup_update_of_not_mem _ _ fun e he => mem_flag e he ▸ hm, filledSlots, emptySlots,
        lookup_slotName, lookup_slotName, hempty, hfilled]
      cases loras[i]? <;> rfl
    · rw [lookup_update_of_not_mem _ _ fun e he => mem_flag e he ▸ hls,
        lookup_update_of_not_mem _ _ fun e he => mem_flag e he ▸ hms, filledSlots, emptySlots,
        lookup_slotStrength, lookup_slotStrength, hempty, hfilled]
      cases loras[i]? <;> rfl
  | absent => cases hd
  | other _ => cases hd

theorem filterMap_range_getElem {β γ : Type} (f : β → Nat → γ) (l : List β) (n : Nat) :
    ((List.range n).filterMap fun i => l[i]?.map fun a => f a i) =
      (l.take n).zipIdx.map fun p => f p.1 p.2 := by
  induction n with
  | zero => simp
  | succ n ih =>
    rw [List.range_succ, List.filterMap_append, ih, List.take_add_one, List.zipIdx_append,
      List.map_append]
    congr 1
    by_cases hn : n < l.length
    · simp [List.getElem?_eq_getElem hn, Nat.min_eq_left (Nat.le_of_lt hn)]
    · simp [List.getElem?_eq_none (Nat.not_lt.mp hn)]

/-- When the slots name the LoRAs, they carry them exactly when there are enough
slots and the strengths are right. -/
theorem slots_eq_iff {inputs : Inputs} {loras : List ResolvedLoraRef}
    (hfiles : ∀ i, i < wanMaxLoras →
      inputs.get (slotName i) = (loras[i]?.map loraFile).getD (.str "none")) :
    slots inputs = loras.map entry ↔ loras.length ≤ wanMaxLoras ∧
      ∀ lora i, (lora, i) ∈ loras.zipIdx → inputs.get (slotStrength i) = .float lora.weight := by
  have hslots : slots inputs = (loras.take wanMaxLoras).zipIdx.map fun p =>
      (loraFile p.1, inputs.get (slotStrength p.2)) := by
    rw [← filterMap_range_getElem fun lora i => (loraFile lora, inputs.get (slotStrength i))]
    apply List.filterMap_congr
    intro i hi
    rw [hfiles i (List.mem_range.mp hi)]
    cases loras[i]? with
    | none => rfl
    | some lora =>
      have hne : lora.name ++ ".safetensors" ≠ "none" := by
        intro heq
        have hlen := congrArg String.length heq
        rw [String.length_append] at hlen
        have hsuffix : ".safetensors".length = 12 := by decide
        have hnone : "none".length = 4 := by decide
        omega
      simp only [Option.map_some, Option.getD_some, loraFile]
      split
      · rename_i h
        cases h
      · rename_i h
        exact absurd (Json.str.inj h) hne
      · rfl
  have hentries : loras.map entry = loras.zipIdx.map fun p => entry p.1 := by
    conv_lhs => rw [← List.zipIdx_map_fst 0 loras, List.map_map]
    rfl
  rw [hslots]
  constructor
  · intro h
    have hlen := congrArg List.length h
    simp only [List.length_map, List.length_zipIdx, List.length_take] at hlen
    have hle : loras.length ≤ wanMaxLoras := by omega
    rw [List.take_of_length_le hle, hentries] at h
    refine ⟨hle, fun lora i hmem => ?_⟩
    exact (Prod.mk.inj (List.map_inj_left.mp h _ hmem)).2
  · rintro ⟨hle, hstrengths⟩
    rw [List.take_of_length_le hle, hentries]
    apply List.map_inj_left.mpr
    rintro ⟨lora, i⟩ hmem
    rw [hstrengths lora i hmem]
    rfl

/-- The inputs of the slots. -/
def slotKeys : List String :=
  (List.range wanMaxLoras).flatMap fun i => [slotName i, slotStrength i]

theorem mem_slotKeys {i : Nat} (hi : i < wanMaxLoras) :
    slotName i ∈ slotKeys ∧ slotStrength i ∈ slotKeys := by
  constructor <;>
  · refine List.mem_flatMap.mpr ⟨i, List.mem_range.mpr hi, ?_⟩
    simp

def slotView (_ : String) (key : String) : Bool := decide (key ∈ slotKeys)

theorem get_slotView (h : view slotView g' = view slotView g) (id : String) {i : Nat}
    (hi : i < wanMaxLoras) :
    (inputsAt g' id).get (slotName i) = (inputsAt g id).get (slotName i) ∧
      (inputsAt g' id).get (slotStrength i) = (inputsAt g id).get (slotStrength i) := by
  obtain ⟨hname, hstrength⟩ := mem_slotKeys hi
  exact ⟨get_same h (decide_eq_true hname), get_same h (decide_eq_true hstrength)⟩

theorem inputsAt_write_self (g : Graph) (id : String) (patch : Fields) :
    inputsAt (write g id patch) id = (inputsAt g id).write patch := by
  unfold inputsAt
  rw [lookup_write, if_pos rfl]
  cases g.lookup id <;> rfl

/-- After `inject_wan_lora_multi`, every slot is as `multiInputs` has it. -/
theorem injectWanLoraMulti_spec {loras : List ResolvedLoraRef} {adv : Option Json}
    (h : injectWanLoraMulti loras adv g = .ok g') :
    (owner g "%WAN_LORA_MULTI%" = none ∧ loras = [] ∧ g' = g) ∨
      ∃ id, owner g "%WAN_LORA_MULTI%" = some id ∧ (inputsAt g id).isDict = true ∧
        view slotView g' = view slotView (write g id (multiInputs loras adv)) := by
  unfold injectWanLoraMulti at h
  dsimp only at h
  split at h
  · rename_i hnone
    split at h
    · rename_i hnil
      cases h
      exact Or.inl ⟨hnone, hnil, rfl⟩
    · cases h
  · rename_i id hid
    obtain ⟨g1, h1, h⟩ := bind_ok h
    unfold assignOr at h1
    split at h1
    · rename_i hdict
      cases h1
      refine Or.inr ⟨id, hid, hdict, ?_⟩
      cases h
      split
      · rw [view_disconnectLoraMulti (fun _ => by unfold slotView; decide)]
        rfl
      · rfl
    · cases h1

/-- What `clip_encode` gives, when it applies. -/
def clipPatch (adv : Option Json) (task : VideoTask) : Fields :=
  (forI2v task (options adv "clip_encode" clipEncodeOptions)).getD []

theorem nodup_options {adv : Option Json} {part : String} {known : List String} {opts : Fields}
    (hk : known.Nodup) (h : options adv part known = some opts) : (opts.map (·.1)).Nodup := by
  unfold options at h
  split at h
  · split at h
    · cases h
      rw [List.map_filterMap]
      refine List.Nodup.filterMap (fun a b key ha hb => ?_) hk
      simp only [Option.map_eq_some_iff, Option.mem_def] at ha hb
      obtain ⟨x, hx, rfl⟩ := ha
      obtain ⟨y, hy, hxy⟩ := hb
      split at hx
      · cases hx
      · cases hx
        split at hy
        · cases hy
        · cases hy
          exact hxy.symm
    · cases h
  · cases h

theorem applySection_optional {anchor : String} {opts : Option Fields}
    (h : applySection anchor none true opts g = .ok g') :
    (g' = g ∧ (opts = none ∨ owner g anchor = none)) ∨
      ∃ patch id, opts = some patch ∧ owner g anchor = some id ∧
        (inputsAt g id).isDict = true ∧ g' = write g id patch := by
  unfold applySection at h
  split at h
  · cases h
    exact Or.inl ⟨rfl, Or.inl rfl⟩
  · rename_i patch
    split at h
    · rename_i hnone
      cases h
      exact Or.inl ⟨rfl, Or.inr hnone⟩
    · rename_i id hid
      simp only [Option.all_none, ↓reduceIte] at h
      unfold assignOr at h
      split at h
      · rename_i hdict
        cases h
        exact Or.inr ⟨patch, id, rfl, hid, hdict, rfl⟩
      · cases h

/-- The options change no file of a slot, and no strength but where
`clip_encode` names it on the same node. -/
theorem slots_applyWanAdvancedPatches {adv : Option Json} {task : VideoTask}
    (h : applyWanAdvancedPatches adv task g = .ok g') {id : String}
    (hd : (inputsAt g id).isDict = true) {i : Nat} (hi : i < wanMaxLoras) :
    (inputsAt g' id).get (slotName i) = (inputsAt g id).get (slotName i) ∧
      (inputsAt g' id).get (slotStrength i) =
        (if owner g "%WAN_CLIP_ENCODE%" = some id then
          (clipPatch adv task).lookup (slotStrength i) else none).getD
            ((inputsAt g id).get (slotStrength i)) := by
  have hsections : Free slotView sectionInputs := fun _ => by unfold slotView; decide
  have hsection : ∀ {part : String} {known : List String}, known ⊆ sectionInputs →
      ∀ patch, options adv part known = some patch → ∀ id, ∀ e ∈ patch, slotView id e.1 = false :=
    fun hsub patch hpatch id => hsections.patch (fun e he => hsub (mem_options hpatch e he)) id
  obtain ⟨g1, h1, h⟩ := bind_ok h
  obtain ⟨g2, h2, h⟩ := bind_ok h
  obtain ⟨g3, h3, h⟩ := bind_ok h
  obtain ⟨g4, h4, h⟩ := bind_ok h
  have e1 : view slotView g1 = view slotView g := view_applySection (fun patch hpatch id _ =>
    hsection (by decide) patch (forI2v_some hpatch).2 id) h1
  have e3 : view slotView g3 = view slotView g2 := view_applySection (fun patch hpatch id _ =>
    hsection (by decide) patch hpatch id) h3
  have e4 : view slotView g4 = view slotView g3 := view_applySection (fun patch hpatch id _ =>
    hsection (by decide) patch hpatch id) h4
  have e5 : view slotView g' = view slotView g4 := view_applySection (fun patch hpatch id _ =>
    hsection (by decide) patch hpatch id) h
  have hafter := get_slotView (e5.trans (e4.trans e3)) id hi
  have hbefore := get_slotView e1 id hi
  rw [hafter.1, hafter.2, ← hbefore.1, ← hbefore.2, ← owner_same e1]
  rw [← isDict_same e1] at hd
  rcases applySection_optional h2 with ⟨rfl, hopts | hnone⟩ | ⟨patch, clipId, hopts, hclip, -, rfl⟩
  · simp [clipPatch, hopts]
  · simp [hnone]
  · have hknown := mem_options (forI2v_some hopts).2
    by_cases hid : clipId = id
    · subst hid
      rw [inputsAt_write_self, if_pos hclip, clipPatch, hopts, Option.getD_some]
      have hnodup := nodup_options (by decide) (forI2v_some hopts).2
      cases hinputs : inputsAt g1 clipId with
      | dict fields =>
        constructor
        · refine get_write_ne fun e he heq => ?_
          have hmem := hknown e he
          rw [heq] at hmem
          revert hmem
          have hnames : ∀ j, j < wanMaxLoras → slotName j ∉ clipEncodeOptions := by decide
          exact hnames i hi
        · simp only [Inputs.write, Inputs.get, Json.get, lookup_update hnodup]
          cases patch.lookup (slotStrength i) <;> rfl
      | absent => rw [hinputs] at hd; cases hd
      | other _ => rw [hinputs] at hd; cases hd
    · have hne : owner g1 "%WAN_CLIP_ENCODE%" ≠ some id := by
        rw [hclip]
        simpa using hid
      have hinputs : inputsAt (write g1 clipId patch) id = inputsAt g1 id := by
        unfold inputsAt
        rw [lookup_write, if_neg fun h => hid h.symm]
      rw [hinputs, if_neg hne]
      exact ⟨rfl, rfl⟩

theorem legacy_iff {gm gc : Graph} {loras : List ResolvedLoraRef} {adv : Option Json}
    {task : VideoTask} (hw : Weighted template gm)
    (hmulti : injectWanLoraMulti loras adv gm = .ok gc)
    (hadv : applyWanAdvancedPatches adv task gc = .ok g) :
    CarriesLegacy template g loras ↔ FitsLegacy template loras adv task := by
  unfold CarriesLegacy
  rcases injectWanLoraMulti_spec hmulti with ⟨hnone, rfl, -⟩ | ⟨id, hid, hdict, hview⟩
  · rw [hw.owner] at hnone
    simp [hnone, FitsLegacy, KeepsStrengths]
  · have hown : ∀ anchor, owner gc anchor = owner template anchor := fun anchor => by
      rw [owner_same hview, owner_write, hw.owner]
    have hdictc : (inputsAt gc id).isDict = true := by
      rw [isDict_same hview, inputsAt_write_self, isDict_write, hdict]
    have hslots := fun i (hi : i < wanMaxLoras) => slots_applyWanAdvancedPatches hadv hdictc hi
    have hfilled := fun i (hi : i < wanMaxLoras) => get_slotView hview id hi
    have hmultiIn := fun i (hi : i < wanMaxLoras) => get_multiInputs hdict loras adv hi
    rw [hw.owner] at hid
    simp only [hid]
    rw [slots_eq_iff fun i hi => by
      rw [(hslots i hi).1, (hfilled i hi).1, inputsAt_write_self, (hmultiIn i hi).1]]
    refine and_congr_right fun hle => ?_
    have hstrength : ∀ lora i, (lora, i) ∈ loras.zipIdx →
        ((inputsAt g id).get (slotStrength i) = .float lora.weight ↔
          (owner template "%WAN_CLIP_ENCODE%" = some id →
            ∀ value, (clipPatch adv task).lookup (slotStrength i) = some value →
              value = .float lora.weight)) := by
      intro lora i hmem
      have hget : loras[i]? = some lora := List.mk_mem_zipIdx_iff_getElem?.mp hmem
      have hi : i < wanMaxLoras := by
        have := (List.getElem?_eq_some_iff.mp hget).1
        omega
      rw [(hslots i hi).2, (hfilled i hi).2, inputsAt_write_self, (hmultiIn i hi).2, hget, hown]
      by_cases hclip : owner template "%WAN_CLIP_ENCODE%" = some id
      · simp only [hclip, ↓reduceIte, Option.map_some, Option.getD_some, forall_const]
        cases (clipPatch adv task).lookup (slotStrength i) <;> simp
      · simp [hclip]
    unfold KeepsStrengths
    rw [hid]
    constructor
    · intro h hclip patch hpatch lora i hmem value hvalue
      refine (hstrength lora i hmem).mp (h lora i hmem) hclip value ?_
      rw [clipPatch, hpatch]
      exact hvalue
    · intro h lora i hmem
      refine (hstrength lora i hmem).mpr fun hclip value hvalue => ?_
      unfold clipPatch at hvalue
      cases hopts : forI2v task (options adv "clip_encode" clipEncodeOptions) with
      | none =>
        rw [hopts] at hvalue
        cases hvalue
      | some patch =>
        rw [hopts] at hvalue
        exact h hclip patch hopts lora i hmem value hvalue

end Slots

end image_gen.lora_slots

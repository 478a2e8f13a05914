-- The chains of LoRA loaders in a core workflow: how a chain is read off a
-- graph, and what `_inject_wan_core_loras_between` puts there.
import ImageGen.GraphEdits

namespace image_gen.lora_chain

open image_gen.graph image_gen.graph_edits image_gen.injectors image_gen.json image_gen.py_dict
  image_gen.py_str image_gen.requests image_gen.results

/-! ## Reading a chain -/

/-- The file and the strength that a LoRA loader holds. -/
abbrev Entry := Json × Json

def entry (lora : ResolvedLoraRef) : Entry := (loraFile lora, .float lora.weight)

def isLoraLoader (c : ClassType) : Bool :=
  c = .str "LoraLoaderModelOnly" || c = .str "LoraLoader"

/-- The node whose first output a value links to. -/
def target : Json → Option String
  | .arr [.str id, .int 0] => some id
  | _ => none

/-- The LoRA loaders that a link leads through on its way up to one of the
`tops`, the upmost first, and the top that it reaches. -/
def upstream (g : Graph) (tops : List String) : Nat → Json → List Entry × Option String
  | 0, _ => ([], none)
  | fuel + 1, value =>
    match target value with
    | none => ([], none)
    | some id =>
      if id ∈ tops then ([], some id)
      else if isLoraLoader (classAt g id) then
        let inputs := inputsAt g id
        let up := upstream g tops fuel (inputs.get "model")
        (up.1 ++ [(inputs.get "lora_name", inputs.get "strength_model")], up.2)
      else ([], none)

/-- What stands between a node and the tops. A node that is a top itself has
nothing in between. -/
def pathTo (tops : List String) (g : Graph) (id : String) : List Entry × Option String :=
  if id ∈ tops then ([], none)
  else upstream g tops (g.length + 1) ((inputsAt g id).get "model")

/-- Both graphs answer the reads of a walk alike. -/
structure SameReads (g g' : Graph) : Prop where
  length : g'.length = g.length
  classAt : ∀ id, classAt g' id = classAt g id
  get : ∀ id, ∀ key ∈ ["model", "lora_name", "strength_model"],
    (inputsAt g' id).get key = (inputsAt g id).get key

theorem upstream_congr {g g' : Graph} (h : SameReads g g') (tops : List String) (fuel : Nat)
    (value : Json) : upstream g' tops fuel value = upstream g tops fuel value := by
  induction fuel generalizing value with
  | zero => rfl
  | succ fuel ih =>
    simp only [upstream]
    cases target value with
    | none => rfl
    | some id =>
      simp only [h.classAt, h.get id "model" (by simp), h.get id "lora_name" (by simp),
        h.get id "strength_model" (by simp), ih]

theorem pathTo_congr {g g' : Graph} (h : SameReads g g') (tops : List String) (id : String) :
    pathTo tops g' id = pathTo tops g id := by
  simp only [pathTo, h.length, h.get id "model" (by simp), upstream_congr h]

/-- Whether the first step up a link ends at a LoRA loader. -/
def Feeds (g : Graph) (tops : List String) (value : Json) : Prop :=
  ∃ id, target value = some id ∧ id ∉ tops ∧ isLoraLoader (classAt g id) = true

theorem upstream_eq_nil {g : Graph} {tops : List String} {fuel : Nat} {value : Json} :
    (upstream g tops (fuel + 1) value).1 = [] ↔ ¬ Feeds g tops value := by
  unfold Feeds
  simp only [upstream]
  cases htarget : target value with
  | none => simp
  | some id =>
    by_cases htop : id ∈ tops
    · simp [htop]
    · by_cases hlora : isLoraLoader (classAt g id) = true
      · simp [htop, hlora]
      · simp [htop, hlora]

/-! ## Linked nodes -/

/-- The nodes from the number `next` on are the loaders of the LoRAs, each fed
by the one before it. -/
def Linked (g : Graph) : Nat → Json → List ResolvedLoraRef → Prop
  | _, _, [] => True
  | next, model, lora :: rest =>
    g.lookup (toString next) = some (coreNode lora model) ∧
      Linked g (next + 1) (link (toString next) 0) rest

/-- The link to the last of them. -/
def lastLink (next : Nat) (model : Json) : List ResolvedLoraRef → Json
  | [] => model
  | _ :: rest => lastLink (next + 1) (link (toString next) 0) rest

theorem Linked.congr {g g' : Graph} {next : Nat} {model : Json} {loras : List ResolvedLoraRef}
    (hl : Linked g next model loras)
    (h : ∀ k, next ≤ k → k < next + loras.length →
      g'.lookup (toString k) = g.lookup (toString k)) : Linked g' next model loras := by
  induction loras generalizing next model with
  | nil => trivial
  | cons lora rest ih =>
    obtain ⟨hnode, hrest⟩ := hl
    refine ⟨?_, ih hrest fun k hk hlt => ?_⟩
    · rw [h next (by omega) (by simp), hnode]
    · apply h
      · omega
      · simp only [List.length_cons]
        omega

theorem linked_lookup {g : Graph} {next : Nat} {model : Json} {loras : List ResolvedLoraRef}
    (hl : Linked g next model loras) {k : Nat} (hk : next ≤ k) (hlt : k < next + loras.length) :
    g.lookup (toString k) ≠ none := by
  induction loras generalizing next model with
  | nil =>
    simp only [List.length_nil] at hlt
    omega
  | cons lora rest ih =>
    obtain ⟨hnode, hrest⟩ := hl
    by_cases heq : k = next
    · rw [heq, hnode]
      simp
    · simp only [List.length_cons] at hlt
      exact ih hrest (by omega) (by omega)

theorem target_link (id : String) : target (link id 0) = some id := rfl

/-- A walk up the linked nodes collects the LoRAs in their order. -/
theorem upstream_linked {g : Graph} {tops : List String} {next : Nat} {model : Json}
    {loras : List ResolvedLoraRef} (hl : Linked g next model loras)
    (htops : ∀ k, next ≤ k → toString k ∉ tops) (fuel : Nat) :
    upstream g tops (loras.length + fuel) (lastLink next model loras) =
      ((upstream g tops fuel model).1 ++ loras.map entry, (upstream g tops fuel model).2) := by
  induction loras generalizing next model fuel with
  | nil => simp [lastLink]
  | cons lora rest ih =>
    obtain ⟨hnode, hrest⟩ := hl
    have hstep : upstream g tops (fuel + 1) (link (toString next) 0) =
        ((upstream g tops fuel model).1 ++ [entry lora], (upstream g tops fuel model).2) := by
      have hclass : classAt g (toString next) = .str "LoraLoaderModelOnly" := by
        rw [classAt, hnode]
        rfl
      have hinputs : inputsAt g (toString next) = (coreNode lora model).inputs := by
        rw [inputsAt, hnode]
        rfl
      have hlora : isLoraLoader (.str "LoraLoaderModelOnly") = true := by decide
      simp only [upstream, target_link, htops next (by omega), ↓reduceIte, hclass, hlora, hinputs]
      rfl
    have hlen : (lora :: rest).length + fuel = rest.length + (fuel + 1) := by
      simp only [List.length_cons]
      omega
    rw [hlen, lastLink, ih hrest (fun k hk => htops k (by omega)) (fuel + 1), hstep]
    simp

/-! ## New ids -/

theorem isdigit_toString (py : Builtins) (n : Nat) :
    (toString n).toList ≠ [] ∧ (toString n).toList.all py.isdigit = true := by
  refine ⟨(toString_digits n).1, List.all_eq_true.mpr fun c hc => ?_⟩
  exact py.decimal_isdigit c _ (py.str.decimal_digit c ((toString_digits n).2 c hc))

theorem mem_ids_of_lookup {g : Graph} {id : String} (h : g.lookup id ≠ none) :
    id ∈ g.map (·.1) := by
  by_contra hid
  apply h
  rw [List.lookup_eq_none_iff]
  intro e he
  have hne : id ≠ e.1 := by
    rintro rfl
    exact hid (List.mem_map_of_mem he)
  simpa using hne

theorem intOf_ok {py : Builtins} {k : List Char} {n : Nat} (h : intOf py k = .ok n) :
    n = py.str.int k := by
  unfold intOf at h
  dsimp only at h
  split at h
  · cases h
  · split at h <;> cases h
    rfl

theorem toString_mem_numericIds (py : Builtins) {g : Graph} {k : Nat}
    (h : g.lookup (toString k) ≠ none) : (toString k).toList ∈ numericIds py g := by
  obtain ⟨hnil, hall⟩ := isdigit_toString py k
  refine List.mem_filter.mpr ⟨?_, by rw [hall, decide_eq_true hnil]; rfl⟩
  obtain ⟨e, he, hid⟩ := List.mem_map.mp (mem_ids_of_lookup h)
  exact List.mem_map.mpr ⟨e, he, by rw [hid]⟩

/-- The number for a new node is the fallback, or one more than an id of the graph. -/
theorem nextId_spec {py : Builtins} {fallback next : Nat} {g : Graph}
    (h : nextId py fallback g = .ok next) :
    (numericIds py g = [] ∧ next = fallback) ∨
      (∃ k ∈ numericIds py g, next = py.str.int k + 1) ∧
        ∀ k ∈ numericIds py g, py.str.int k < next := by
  obtain ⟨intKeys, hkeys, h⟩ := bind_ok h
  have hints : ∀ k ∈ numericIds py g, py.str.int k ∈ intKeys := by
    intro k hk
    obtain ⟨n, hn, hint⟩ := exists_mem_of_mapM hkeys k hk
    rw [← intOf_ok hint]
    exact hn
  rcases hmax : intKeys.max? with _ | n <;> simp only [hmax] at h <;> cases h
  · rw [List.max?_eq_none_iff] at hmax
    subst hmax
    refine .inl ⟨List.eq_nil_iff_forall_not_mem.mpr fun k hk => ?_, rfl⟩
    exact absurd (hints k hk) List.not_mem_nil
  · obtain ⟨hmem, hle⟩ := List.max?_eq_some_iff.mp hmax
    refine .inr ⟨?_, fun k hk => Nat.lt_succ_of_le (hle _ (hints k hk))⟩
    obtain ⟨k, hk, hint⟩ := exists_ok_of_mapM hkeys n hmem
    exact ⟨k, hk, by rw [intOf_ok hint]⟩

/-- No node of the graph has the number that is given to the next one, or a
larger one. -/
theorem nextId_fresh {py : Builtins} {fallback next : Nat} {g : Graph}
    (h : nextId py fallback g = .ok next) {k : Nat} (hk : next ≤ k) :
    g.lookup (toString k) = none := by
  by_contra hlookup
  have hmem := toString_mem_numericIds py hlookup
  rcases nextId_spec h with ⟨hnone, -⟩ | ⟨-, hlt⟩
  · rw [hnone] at hmem
    cases hmem
  · have hless := hlt _ hmem
    rw [int_toString] at hless
    omega

theorem numericIds_congr {py : Builtins} {g g' : Graph} (h : g'.map (·.1) = g.map (·.1)) :
    numericIds py g' = numericIds py g := by
  have hkeys : g'.map (·.1.toList) = g.map (·.1.toList) := by
    have hlists := congrArg (List.map String.toList) h
    simpa [Function.comp_def] using hlists
  unfold numericIds
  rw [hkeys]

theorem nextId_congr {py : Builtins} {fallback : Nat} {g g' : Graph}
    (h : g'.map (·.1) = g.map (·.1)) : nextId py fallback g' = nextId py fallback g := by
  unfold nextId
  rw [numericIds_congr h]

/-- `int` reads every id that `isdigit` takes. -/
def DecimalIds (py : Builtins) (g : Graph) : Prop :=
  ∀ k ∈ numericIds py g, k.length ≤ intMaxStrDigits ∧ ∀ c ∈ k, (py.str.decimal c).isSome = true

/-- `str` writes the numbers that come after each id, and after zero. -/
def RoomFor (py : Builtins) (g : Graph) (count : Nat) : Prop :=
  ∀ n ∈ 0 :: (numericIds py g).map py.str.int, ∀ i < count, FitsStr (n + 1 + i)

/-- The nodes of a chain can be numbered. -/
structure Numberable (py : Builtins) (g : Graph) (count : Nat) : Prop where
  decimal : DecimalIds py g
  room : RoomFor py g count

section Numbers

variable {py : Builtins} {g g' : Graph} {fallback next count : Nat}

theorem fitsStr_mono {m n : Nat} (h : FitsStr n) (hle : m ≤ n) : FitsStr m := by
  have hpos : 0 < intMaxStrDigits := by decide
  unfold FitsStr at *
  rw [Nat.length_toDigits_le_iff (by decide) hpos] at h ⊢
  omega

theorem fitsStr_small {n : Nat} (h : n < 1000) : FitsStr n := by
  have hthree : (Nat.toDigits 10 n).length ≤ 3 :=
    (Nat.length_toDigits_le_iff (by decide) (by decide)).mpr h
  exact hthree.trans (by decide)

theorem roomFor_small (h : ∀ n ∈ 0 :: (numericIds py g).map py.str.int, n + count < 1000) :
    RoomFor py g count := by
  intro n hn i hi
  have hsmall := h n hn
  exact fitsStr_small (by omega)

theorem succeeds_strAll : Succeeds (strAll next count) ↔ ∀ i < count, FitsStr (next + i) := by
  unfold strAll
  split
  · rename_i h
    exact iff_of_true ⟨_, rfl⟩ h
  · rename_i h
    exact iff_of_false (fun ⟨_, hok⟩ => by cases hok) h

theorem succeeds_intOf {k : List Char} : Succeeds (intOf py k) ↔
    k.length ≤ intMaxStrDigits ∧ ∀ c ∈ k, (py.str.decimal c).isSome = true := by
  unfold intOf
  dsimp only
  by_cases hall : ∀ c ∈ k, (py.str.decimal c).isSome = true
  · have htake : k.takeWhile (fun c => (py.str.decimal c).isSome) = k :=
      List.takeWhile_eq_self_iff.mpr hall
    rw [htake, List.all_eq_true.mpr hall]
    split
    · rename_i hlong
      simp only [not_succeeds_error, false_iff]
      omega
    · rename_i hshort
      exact iff_of_true ⟨_, rfl⟩ ⟨Nat.le_of_not_lt hshort, hall⟩
  · have hnot : ¬ k.all (fun c => (py.str.decimal c).isSome) = true := by
      rwa [List.all_eq_true]
    refine iff_of_false ?_ fun h => hall h.2
    rintro ⟨n, hn⟩
    split at hn
    · cases hn
    · cases hn

theorem succeeds_nextId : Succeeds (nextId py fallback g) ↔ DecimalIds py g := by
  constructor
  · rintro ⟨next, h⟩
    obtain ⟨intKeys, hkeys, -⟩ := bind_ok h
    intro k hk
    obtain ⟨n, -, hint⟩ := exists_mem_of_mapM hkeys k hk
    exact succeeds_intOf.mp ⟨n, hint⟩
  · intro h
    obtain ⟨intKeys, hkeys, -⟩ := mapM_total fun k hk => succeeds_intOf.mpr (h k hk)
    unfold nextId
    rw [hkeys]
    rcases hmax : intKeys.max? with _ | n
    · exact ⟨fallback, by simp [bind, Except.bind, hmax, pure, Except.pure]⟩
    · exact ⟨n + 1, by simp [bind, Except.bind, hmax, pure, Except.pure]⟩

/-- The loop that numbers the nodes raises nothing. -/
theorem fits_iff_room (hnext : nextId py fallback g = .ok next)
    (hfallback : fallback = 1 ∨ fallback + count < 1000) :
    (∀ i < count, FitsStr (next + i)) ↔ RoomFor py g count := by
  unfold RoomFor
  rcases nextId_spec hnext with ⟨hnone, rfl⟩ | ⟨⟨k, hk, hint⟩, hlt⟩
  · simp only [hnone, List.map_nil, List.mem_singleton, forall_eq, Nat.zero_add]
    rcases hfallback with rfl | hsmall
    · exact Iff.rfl
    · exact iff_of_true (fun i hi => fitsStr_small (by omega))
        fun i hi => fitsStr_small (by omega)
  · constructor
    · intro hfit n hn i hi
      refine fitsStr_mono (hfit i hi) ?_
      rcases List.mem_cons.mp hn with rfl | hn
      · omega
      · obtain ⟨k', hk', rfl⟩ := List.mem_map.mp hn
        have hless := hlt k' hk'
        omega
    · intro hroom i hi
      rw [hint]
      exact hroom _ (List.mem_cons_of_mem _ (List.mem_map_of_mem hk)) i hi

theorem succeeds_numbering (hfallback : fallback = 1 ∨ fallback + count < 1000) :
    Succeeds (nextId py fallback g >>= fun next => strAll next count) ↔ Numberable py g count := by
  constructor
  · rintro ⟨u, h⟩
    obtain ⟨next, hnext, hstr⟩ := bind_ok h
    exact ⟨succeeds_nextId.mp ⟨next, hnext⟩,
      (fits_iff_room hnext hfallback).mp (succeeds_strAll.mp ⟨u, hstr⟩)⟩
  · rintro ⟨hdecimal, hroom⟩
    obtain ⟨next, hnext⟩ := succeeds_nextId.mpr hdecimal
    rw [hnext, ok_bind, succeeds_strAll]
    exact (fits_iff_room hnext hfallback).mpr hroom

theorem numericIds_append {ks : List Nat}
    (h : g'.map (·.1) = g.map (·.1) ++ ks.map fun k => toString k) :
    numericIds py g' = numericIds py g ++ ks.map fun k => (toString k).toList := by
  have hkeys : g'.map (·.1.toList) = g.map (·.1.toList) ++ ks.map fun k => (toString k).toList := by
    have hlists := congrArg (List.map String.toList) h
    simpa [Function.comp_def] using hlists
  have hnew : ∀ k ∈ ks.map (fun k => (toString k).toList),
      (decide (k ≠ []) && k.all py.isdigit) = true := by
    intro k hk
    obtain ⟨n, -, rfl⟩ := List.mem_map.mp hk
    obtain ⟨hnil, hall⟩ := isdigit_toString py n
    rw [hall, decide_eq_true hnil]
    rfl
  unfold numericIds
  rw [hkeys, List.filter_append, List.filter_eq_self.mpr hnew]

/-- A chain that has been numbered leaves the next numbers to the next chain. -/
theorem numberable_after {c : Nat} (hpos : 0 < c) (hnext : nextId py fallback g = .ok next)
    (hfit : ∀ i < c, FitsStr (next + i))
    (hids : g'.map (·.1) = g.map (·.1) ++ (List.range' next c).map fun k => toString k) :
    DecimalIds py g' ∧ nextId py fallback g' = .ok (next + c) := by
  have hnumeric : numericIds py g' =
      numericIds py g ++ (List.range' next c).map fun k => (toString k).toList :=
    numericIds_append hids
  have hdecimal : DecimalIds py g' := by
    intro k hk
    rw [hnumeric] at hk
    rcases List.mem_append.mp hk with hk | hk
    · exact succeeds_nextId.mp ⟨next, hnext⟩ k hk
    · obtain ⟨n, hn, rfl⟩ := List.mem_map.mp hk
      obtain ⟨i, hi, rfl⟩ := List.mem_range'.mp hn
      refine ⟨?_, fun ch hch => ?_⟩
      · rw [Nat.one_mul, Nat.toString_eq_ofList_toDigits, String.toList_ofList]
        exact hfit i hi
      · rw [py.str.decimal_digit ch ((toString_digits _).2 ch hch)]
        rfl
  refine ⟨hdecimal, ?_⟩
  obtain ⟨m, hm⟩ : Succeeds (nextId py fallback g') := succeeds_nextId.mpr hdecimal
  have hnew : ∀ i < c, (toString (next + i)).toList ∈ numericIds py g' := by
    intro i hi
    rw [hnumeric]
    exact List.mem_append_right _ (List.mem_map.mpr
      ⟨next + i, List.mem_range'.mpr ⟨i, hi, by omega⟩, rfl⟩)
  rcases nextId_spec hm with ⟨hnone, -⟩ | ⟨⟨k, hk, hint⟩, hlt⟩
  · have hmem := hnew 0 hpos
    rw [hnone] at hmem
    cases hmem
  · have hlast := hlt _ (hnew (c - 1) (by omega))
    rw [int_toString] at hlast
    have hle : py.str.int k < next + c := by
      rw [hnumeric] at hk
      rcases List.mem_append.mp hk with hk | hk
      · rcases nextId_spec hnext with ⟨hnone, -⟩ | ⟨-, hold⟩
        · rw [hnone] at hk
          cases hk
        · have hless := hold k hk
          omega
      · obtain ⟨n, hn, rfl⟩ := List.mem_map.mp hk
        obtain ⟨i, hi, rfl⟩ := List.mem_range'.mp hn
        rw [int_toString]
        omega
    have heq : m = next + c := by omega
    rw [hm, heq]

end Numbers

theorem toString_ne {m n : Nat} (h : m ≠ n) : toString m ≠ toString n := by
  intro heq
  exact h (toString_injective (congrArg String.toList heq))

/-! ## Inserting a chain -/

theorem owner_insertNode {g : Graph} {id : String} (hid : g.lookup id = none) (node : Node)
    {anchor x : String} (h : owner g anchor = some x) :
    owner (insertNode g id node) anchor = some x := by
  obtain ⟨e, he, rfl⟩ := Option.map_eq_some_iff.mp h
  unfold owner insertNode
  rw [set_of_lookup_none hid, List.find?_append, he]
  rfl

/-- The ids of new nodes are those of the graph and then the numbers. -/
theorem ids_chainCore {g : Graph} {next : Nat}
    (hfresh : ∀ k, next ≤ k → g.lookup (toString k) = none) (model : Json)
    (loras : List ResolvedLoraRef) : (chainCore g next model loras).1.map (·.1) =
      g.map (·.1) ++ (List.range' next loras.length).map fun k => toString k := by
  induction loras generalizing g next model with
  | nil => simp [chainCore]
  | cons lora rest ih =>
    have hfresh1 : ∀ k, next + 1 ≤ k →
        (insertNode g (toString next) (coreNode lora model)).lookup (toString k) = none := by
      intro k hk
      rw [insertNode, lookup_set_ne _ _ (toString_ne (by omega)), hfresh k (by omega)]
    rw [chainCore, ih hfresh1, insertNode, set_of_lookup_none (hfresh next (le_refl _))]
    simp [List.range'_succ]

/-- What the insertion of a chain does to a graph. -/
structure Chained (g g' : Graph) (next : Nat) (model : Json) (loras : List ResolvedLoraRef) :
    Prop where
  linked : Linked g' next model loras
  others : ∀ id, (∀ k, next ≤ k → k < next + loras.length → id ≠ toString k) →
    g'.lookup id = g.lookup id
  length : g'.length = g.length + loras.length
  owner : ∀ anchor id, owner g anchor = some id → owner g' anchor = some id

theorem chainCore_spec {g : Graph} {next : Nat} (hfresh : ∀ k, next ≤ k → g.lookup (toString k) = none)
    (model : Json) (loras : List ResolvedLoraRef) :
    ∃ g', chainCore g next model loras = (g', lastLink next model loras) ∧
      Chained g g' next model loras := by
  induction loras generalizing g next model with
  | nil => exact ⟨g, rfl, trivial, fun _ _ => rfl, rfl, fun _ _ h => h⟩
  | cons lora rest ih =>
    have hnext := hfresh next (by omega)
    have hfresh1 : ∀ k, next + 1 ≤ k →
        (insertNode g (toString next) (coreNode lora model)).lookup (toString k) = none := by
      intro k hk
      rw [insertNode, lookup_set_ne _ _ (toString_ne (by omega)), hfresh k (by omega)]
    obtain ⟨g', heq, hc⟩ := ih hfresh1 (link (toString next) 0)
    refine ⟨g', heq, ⟨?_, hc.linked⟩, ?_, ?_, ?_⟩
    · rw [hc.others _ fun k hk _ => toString_ne (by omega), insertNode, lookup_set_self]
    · intro id hid
      have hne : id ≠ toString next := hid next (by omega) (by simp)
      rw [hc.others id fun k hk hlt => hid k (by omega) (by simp only [List.length_cons]; omega),
        insertNode, lookup_set_ne _ _ hne]
    · rw [hc.length, insertNode, set_of_lookup_none hnext]
      simp only [List.length_append, List.length_cons, List.length_nil]
      omega
    · intro anchor id h
      exact hc.owner anchor id (owner_insertNode hnext _ h)

end image_gen.lora_chain

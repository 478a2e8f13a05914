-- What the edits of a graph leave of it: the nodes with their titles, their classes and
-- the kinds of their inputs, and the nodes for LoRAs that come after them.
import ImageGen.ResolvedSeed

namespace image_gen.graph_shape

open image_gen.graph image_gen.graph_edits image_gen.injectors image_gen.json
  image_gen.py_dict image_gen.py_str image_gen.requests image_gen.resolved_seed image_gen.results

/-! ## Anchors -/

/-- Some node declares the anchor. -/
def Declared (g : Graph) (anchor : String) : Prop := (owner g anchor).isSome = true

/-- The node of the anchor, where there is one, has a dict of inputs. -/
def Writable (g : Graph) (anchor : String) : Prop :=
  ∀ id, owner g anchor = some id → (inputsAt g id).isDict = true

/-- An assignment to an item of the inputs is no `TypeError`. -/
def assignable : Inputs → Bool
  | .other _ => false
  | _ => true

def Lenient (g : Graph) (anchor : String) : Prop :=
  ∀ id, owner g anchor = some id → assignable (inputsAt g id) = true

/-- The node of the anchor has the class. -/
def ClassIs (g : Graph) (anchor : String) (c : ClassType) : Prop :=
  ∃ id, owner g anchor = some id ∧ classAt g id = c

/-- A text that is not empty. -/
def NamesFile (value : Json) : Prop := ∃ s, value = .str s ∧ s ≠ ""

instance (g : Graph) (anchor : String) : Decidable (Declared g anchor) :=
  inferInstanceAs (Decidable ((owner g anchor).isSome = true))

instance (g : Graph) (anchor : String) : Decidable (Writable g anchor) :=
  decidable_of_iff ((owner g anchor).all fun id => (inputsAt g id).isDict) (by
    simp [Writable, Option.all_eq_true])

instance (g : Graph) (anchor : String) : Decidable (Lenient g anchor) :=
  decidable_of_iff ((owner g anchor).all fun id => assignable (inputsAt g id)) (by
    simp [Lenient, Option.all_eq_true])

section Elementary

variable {g : Graph} {anchor id : String} {patch : Fields}

theorem succeeds_findAnchor : Succeeds (findAnchor g anchor) ↔ Declared g anchor := by
  unfold findAnchor Declared
  cases owner g anchor <;> simp

theorem succeeds_findOr {caller : String} :
    Succeeds (findOr caller g anchor) ↔ Declared g anchor := by
  unfold findOr Declared
  cases owner g anchor <;> simp

theorem succeeds_assign : Succeeds (assign g id patch) ↔ (inputsAt g id).isDict = true := by
  unfold assign inputsAt
  cases g.lookup id with
  | none => simp [Inputs.isDict]
  | some node =>
    obtain ⟨classType, inputs, title⟩ := node
    cases inputs <;> simp [Inputs.isDict]

theorem succeeds_assignOr {message : String} :
    Succeeds (assignOr message g id patch) ↔ (inputsAt g id).isDict = true := by
  unfold assignOr
  split_ifs with h <;> simp [h]

/-- A check at an anchor that was found. -/
theorem at_owner {α : Type} {find : Except GraphError String} {f : String → Except GraphError α}
    (hfind : ∀ id, find = .ok id → owner g anchor = some id)
    (hf : ∀ id, Succeeds (f id) ↔ (inputsAt g id).isDict = true) :
    ∀ id, find = .ok id → (Succeeds (f id) ↔ Writable g anchor) := by
  intro id hid
  have howner := hfind id hid
  rw [hf]
  unfold Writable
  constructor
  · intro hdict id' hid'
    rw [howner] at hid'
    cases hid'
    exact hdict
  · exact fun h => h id howner

theorem succeeds_injectAt {caller : String} :
    Succeeds (injectAt caller g anchor patch) ↔ Declared g anchor ∧ Writable g anchor :=
  succeeds_bind_iff succeeds_findOr (at_owner (fun _ => findOr_ok) fun _ => succeeds_assignOr)

theorem isDict_assignable {inputs : Inputs} (h : inputs.isDict = true) :
    assignable inputs = true := by
  cases inputs <;> first | rfl | cases h

/-- An optional edit fails on inputs that refuse the assignment, and on nothing else. -/
theorem succeeds_assignIfFound :
    Succeeds (assignIfFound g anchor patch) ↔ Lenient g anchor := by
  unfold assignIfFound findAnchor Lenient
  cases howner : owner g anchor with
  | none => simp [bind, Except.bind, passKeyError, keyError]
  | some id =>
    have hnode := owner_lookup howner
    simp only [bind, Except.bind, Option.some.injEq, forall_eq']
    unfold assign inputsAt
    cases hlookup : g.lookup id with
    | none => exact absurd hlookup hnode
    | some node =>
      obtain ⟨classType, inputs, title⟩ := node
      cases inputs <;> simp [passKeyError, keyError, assignable]

end Elementary

/-! ## Edits that keep the shape of a graph -/

/-- The graph without what its inputs hold. -/
def shape : Graph → Graph := view fun _ _ => false

def SameShape (g g' : Graph) : Prop := shape g' = shape g

namespace SameShape

variable {g g' g'' : Graph}

theorem refl (g : Graph) : SameShape g g := Eq.refl (shape g)

theorem trans (h : SameShape g g') (h' : SameShape g' g'') : SameShape g g'' := Eq.trans h' h

section Facts

variable (h : SameShape g g')
include h

theorem declared (anchor : String) : Declared g' anchor ↔ Declared g anchor := by
  unfold Declared
  rw [owner_same h]

theorem writable (anchor : String) : Writable g' anchor ↔ Writable g anchor := by
  unfold Writable
  simp only [owner_same h, isDict_same h]

theorem assignable_same (id : String) :
    assignable (inputsAt g' id) = assignable (inputsAt g id) := by
  have hview : ∀ inputs : Inputs, assignable (viewInputs (fun _ => false) inputs) =
      assignable inputs := fun inputs => by cases inputs <;> rfl
  have hsame : viewInputs (fun _ => false) (inputsAt g' id) =
      viewInputs (fun _ => false) (inputsAt g id) := by
    rw [← inputsAt_view (fun _ _ => false) g', ← inputsAt_view (fun _ _ => false) g]
    exact congrArg (fun x => inputsAt x id) h
  rw [← hview, hsame, hview]

theorem lenient (anchor : String) : Lenient g' anchor ↔ Lenient g anchor := by
  unfold Lenient
  simp only [owner_same h, h.assignable_same]

theorem classIs (anchor : String) (c : ClassType) :
    ClassIs g' anchor c ↔ ClassIs g anchor c := by
  unfold ClassIs
  simp only [owner_same h, classAt_same h]

theorem numberable (py : Builtins) (count : Nat) :
    lora_chain.Numberable py g' count ↔ lora_chain.Numberable py g count := by
  have hids : numericIds py g' = numericIds py g := lora_chain.numericIds_congr (ids_same h)
  constructor
  · rintro ⟨hdecimal, hroom⟩
    unfold lora_chain.DecimalIds lora_chain.RoomFor at *
    rw [hids] at hdecimal hroom
    exact ⟨hdecimal, hroom⟩
  · rintro ⟨hdecimal, hroom⟩
    unfold lora_chain.DecimalIds lora_chain.RoomFor at *
    rw [← hids] at hdecimal hroom
    exact ⟨hdecimal, hroom⟩

theorem isDual_eq : isDual g' = isDual g := by
  unfold isDual
  rw [owner_same h, owner_same h]

end Facts

end SameShape

/-! ## Edits that append nodes -/

/-- Nodes for LoRAs come after those of the graph. -/
structure Grown (g g' new : Graph) : Prop where
  shape_eq : shape g' = shape g ++ shape new
  fresh : ∀ e ∈ new, g.lookup e.1 = none
  numbered : ∀ e ∈ new, ∃ n : Nat, e.1 = toString n
  loader : ∀ e ∈ new, lora_chain.isLoraLoader e.2.classType = true ∧ e.2.inputs.isDict = true

namespace Grown

variable {g g' g'' new more : Graph}

theorem of_sameShape (h : SameShape g g') : Grown g g' [] where
  shape_eq := by rw [h]; exact (List.append_nil _).symm
  fresh := nofun
  numbered := nofun
  loader := nofun

theorem lookup_shape_none {id : String} : (shape g).lookup id = none ↔ g.lookup id = none := by
  unfold shape
  rw [lookup_view, Option.map_eq_none_iff]

theorem trans (h : Grown g g' new) (h' : Grown g' g'' more) : Grown g g'' (new ++ more) where
  shape_eq := by
    rw [h'.shape_eq, h.shape_eq, List.append_assoc]
    unfold shape view
    rw [List.map_append]
  fresh e he := by
    rcases List.mem_append.mp he with he | he
    · exact h.fresh e he
    · have hnone := lookup_shape_none.mpr (h'.fresh e he)
      rw [h.shape_eq, List.lookup_append, Option.or_eq_none_iff] at hnone
      exact lookup_shape_none.mp hnone.1
  numbered e he := (List.mem_append.mp he).elim (h.numbered e) (h'.numbered e)
  loader e he := (List.mem_append.mp he).elim (h.loader e) (h'.loader e)

theorem after (h : Grown g g' new) (h' : SameShape g' g'') : Grown g g'' new := by
  have happend := h.trans (of_sameShape h')
  rwa [List.append_nil] at happend

theorem before (h : SameShape g g') (h' : Grown g' g'' new) : Grown g g'' new :=
  (of_sameShape h).trans h'

section Facts

variable (h : Grown g g' new)
include h

theorem owner_eq (anchor : String) : owner g' anchor = (owner g anchor).or (owner new anchor) := by
  have hshape : ∀ x : Graph, owner (shape x) anchor = owner x anchor :=
    fun x => owner_view (fun _ _ => false) x anchor
  rw [← hshape g', h.shape_eq, ← hshape g, ← hshape new]
  unfold owner
  rw [List.find?_append]
  cases (shape g).find? fun e => e.2.declares anchor <;> rfl

theorem lookup_old {id : String} (hid : g.lookup id ≠ none) :
    (shape g').lookup id = (shape g).lookup id := by
  rw [h.shape_eq, List.lookup_append]
  have hsome : (shape g).lookup id ≠ none := fun hnone => hid (lookup_shape_none.mp hnone)
  obtain ⟨node, hnode⟩ := Option.ne_none_iff_exists'.mp hsome
  rw [hnode, Option.some_or]

/-- The node of an anchor is an old one, as it was, or a new one. -/
theorem owner_cases {anchor id : String} (hid : owner g' anchor = some id) :
    owner g anchor = some id ∧ (shape g').lookup id = (shape g).lookup id ∨
      owner g anchor = none ∧
        ∃ e ∈ new, (shape g').lookup id = some (viewNode (fun _ => false) e.2) := by
  rw [h.owner_eq] at hid
  cases hold : owner g anchor with
  | some old =>
    rw [hold, Option.some_or] at hid
    cases hid
    exact Or.inl ⟨rfl, h.lookup_old (owner_lookup hold)⟩
  | none =>
    rw [hold, Option.none_or] at hid
    refine Or.inr ⟨rfl, ?_⟩
    obtain ⟨node, hnode⟩ := Option.ne_none_iff_exists'.mp (owner_lookup hid)
    have hmem := mem_of_lookup_eq hnode
    refine ⟨(id, node), hmem, ?_⟩
    rw [h.shape_eq, List.lookup_append, lookup_shape_none.mpr (h.fresh _ hmem), Option.none_or]
    unfold shape
    rw [lookup_view, hnode, Option.map_some]

theorem declared (anchor : String) :
    Declared g' anchor ↔ Declared g anchor ∨ Declared new anchor := by
  unfold Declared
  rw [h.owner_eq]
  cases owner g anchor <;> simp

theorem declared_old {anchor : String} (hold : Declared g anchor) : Declared g' anchor :=
  (h.declared anchor).mpr (Or.inl hold)

/-- What an anchor leads to keeps a test that the new nodes pass. -/
theorem forall_owner {test : Inputs → Bool}
    (hview : ∀ inputs, test (viewInputs (fun _ => false) inputs) = test inputs)
    (hdict : ∀ inputs : Inputs, inputs.isDict = true → test inputs = true) (anchor : String) :
    (∀ id, owner g' anchor = some id → test (inputsAt g' id) = true) ↔
      ∀ id, owner g anchor = some id → test (inputsAt g id) = true := by
  have hshape : ∀ (x : Graph) (id : String),
      test (inputsAt x id) = test (inputsAt (shape x) id) := by
    intro x id
    rw [← hview, ← inputsAt_view (fun _ _ => false)]
    rfl
  have hkept : ∀ id, owner g anchor = some id →
      test (inputsAt g' id) = test (inputsAt g id) := by
    intro id hid
    rw [hshape g', hshape g]
    unfold inputsAt
    rw [h.lookup_old (owner_lookup hid)]
  constructor
  · intro hall id hid
    have hnew : owner g' anchor = some id := by rw [h.owner_eq, hid, Option.some_or]
    rw [← hkept id hid]
    exact hall id hnew
  · intro hall id hid
    rcases h.owner_cases hid with ⟨hold, -⟩ | ⟨-, e, he, hlookup⟩
    · rw [hkept id hold]
      exact hall id hold
    · rw [hshape g']
      unfold inputsAt
      rw [hlookup]
      apply hdict
      rw [← (h.loader e he).2, ← isDict_viewInputs (fun _ => false) e.2.inputs]
      rfl

theorem writable (anchor : String) : Writable g' anchor ↔ Writable g anchor :=
  h.forall_owner (isDict_viewInputs _) (fun _ hd => hd) anchor

theorem lenient (anchor : String) : Lenient g' anchor ↔ Lenient g anchor :=
  h.forall_owner (fun inputs => by cases inputs <;> rfl) (fun _ => isDict_assignable) anchor

theorem classAt_old {id : String} (hid : g.lookup id ≠ none) : classAt g' id = classAt g id := by
  rw [← classAt_view (fun _ _ => false) g', ← classAt_view (fun _ _ => false) g]
  unfold classAt
  exact congrArg (fun n : Option Node => (n.map (·.classType)).getD (.other "None"))
    (h.lookup_old hid)

theorem classIs {c : ClassType} (hc : lora_chain.isLoraLoader c = false) (anchor : String) :
    ClassIs g' anchor c ↔ ClassIs g anchor c := by
  constructor
  · rintro ⟨id, hid, hclass⟩
    rcases h.owner_cases hid with ⟨hold, -⟩ | ⟨-, e, he, hlookup⟩
    · exact ⟨id, hold, by rw [← h.classAt_old (owner_lookup hold), hclass]⟩
    · have hnew : classAt g' id = e.2.classType := by
        rw [← classAt_view (fun _ _ => false) g']
        unfold classAt
        change (((shape g').lookup id).map (·.classType)).getD _ = _
        rw [hlookup]
        rfl
      rw [← hclass, hnew, (h.loader e he).1] at hc
      cases hc
  · rintro ⟨id, hid, hclass⟩
    refine ⟨id, by rw [h.owner_eq, hid, Option.some_or], ?_⟩
    rw [h.classAt_old (owner_lookup hid), hclass]

theorem isCore_eq : isCore g' = isCore g := by
  have hshape : ∀ x : Graph, isCore (shape x) = isCore x := isCore_view _
  have hnew : isCore new = false := by
    apply List.any_eq_false.mpr
    intro e he
    have hloader := (h.loader e he).1
    intro hclass
    rw [decide_eq_true_eq.mp hclass] at hloader
    revert hloader
    decide
  have hnone := (hshape new).trans hnew
  rw [← hshape g', h.shape_eq, ← hshape g]
  unfold isCore at hnone ⊢
  rw [List.any_append, hnone, Bool.or_false]

end Facts

end Grown

/-! ## What injectors look at -/

/-- An edited graph is as the one before wherever an injector looks, but for the anchors
that there are. -/
structure Alike (has : String → Prop) (g g' : Graph) : Prop where
  declared : ∀ a, Declared g' a ↔ has a
  writable : ∀ a, Writable g' a ↔ Writable g a
  lenient : ∀ a, Lenient g' a ↔ Lenient g a
  classIs : ∀ a c, lora_chain.isLoraLoader c = false → (ClassIs g' a c ↔ ClassIs g a c)
  core : isCore g' = isCore g

theorem SameShape.alike {g g' : Graph} (h : SameShape g g') : Alike (Declared g) g g' where
  declared := h.declared
  writable := h.writable
  lenient := h.lenient
  classIs a c _ := h.classIs a c
  core := isCore_same h

theorem Grown.alike {g g' new : Graph} (h : Grown g g' new) :
    Alike (fun a => Declared g a ∨ Declared new a) g g' where
  declared := h.declared
  writable := h.writable
  lenient := h.lenient
  classIs a _ hc := h.classIs hc a
  core := h.isCore_eq

theorem Alike.trans {has : String → Prop} {g g' g'' : Graph} (h : Alike has g g')
    (h' : Alike (Declared g') g' g'') : Alike has g g'' where
  declared a := (h'.declared a).trans (h.declared a)
  writable a := (h'.writable a).trans (h.writable a)
  lenient a := (h'.lenient a).trans (h.lenient a)
  classIs a c hc := (h'.classIs a c hc).trans (h.classIs a c hc)
  core := h'.core.trans h.core

theorem Alike.before {has : String → Prop} {g g' g'' : Graph} (hs : SameShape g g')
    (h : Alike has g' g'') : Alike has g g'' where
  declared := h.declared
  writable a := (h.writable a).trans (hs.writable a)
  lenient a := (h.lenient a).trans (hs.lenient a)
  classIs a c hc := (h.classIs a c hc).trans (hs.classIs a c)
  core := h.core.trans hs.alike.core

/-- The same anchors, said in another way. -/
theorem Alike.congr {has has' : String → Prop} {g g' : Graph} (h : Alike has g g')
    (heq : ∀ a, has a ↔ has' a) : Alike has' g g' where
  declared a := (h.declared a).trans (heq a)
  writable := h.writable
  lenient := h.lenient
  classIs := h.classIs
  core := h.core

end image_gen.graph_shape

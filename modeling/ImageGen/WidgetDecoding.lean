-- What `_convert_node` makes of the values of widgets that LiteGraph lists one
-- after the other, with a control word after each seed.
import ImageGen.LiteGraph

namespace image_gen.widget_decoding

open image_gen.json image_gen.litegraph image_gen.py_dict
open image_gen.requests (GraphError)

/-! ## The encoding -/

inductive Control
  | randomize
  | fixed
  | increment
  | decrement

def Control.word : Control → String
  | .randomize => "randomize"
  | .fixed => "fixed"
  | .increment => "increment"
  | .decrement => "decrement"

/-- An input, with the value of its widget and the control of a seed. -/
structure Slot where
  name : String
  link : Option ℤ
  widget : Option (Json × Option Control)

def Slot.input (slot : Slot) : Input := ⟨slot.name, slot.link, slot.widget.isSome⟩

/-- What a widget adds to the list. -/
def written (widget : Json × Option Control) : List Json :=
  widget.1 :: (widget.2.map fun c => Json.str c.word).toList

def encode (slots : List Slot) : List Json :=
  slots.flatMap fun slot => slot.widget.toList.flatMap written

/-- A node as LiteGraph writes it. -/
structure Listed where
  id : String
  type : String
  title : Option String
  mode : ℤ
  slots : List Slot

def Listed.node (n : Listed) : Node where
  id := n.id
  type := n.type
  title := n.title
  mode := n.mode
  inputs := n.slots.map Slot.input
  widgets := .list (encode n.slots)

/-! ## What should be read -/

/-- The source of a wired input, or the value of an unwired widget. -/
def valueOf (links : List (ℤ × Ref)) (slot : Slot) : Option Json :=
  match wire links slot.input with
  | some src => some src.json
  | none => slot.widget.map (·.1)

def entries (links : List (ℤ × Ref)) (slots : List Slot) : List (String × Json) :=
  slots.filterMap fun slot => (valueOf links slot).map fun value => (slot.name, value)

/-- The inputs are the values of the slots, and nothing else. -/
def Decodes (links : List (ℤ × Ref)) (n : Listed) : Prop :=
  ∃ api, convertNode links n.node = .ok api ∧ api.inputs.Perm (entries links n.slots)

/-! ## When it is -/

/-- What is left of a list when each control word after a value that stays goes.
There is nothing to say of a list or an object after a value that stays. -/
def kept : List Json → Option (List Json)
  | [] => some []
  | [value] => some [value]
  | value :: next :: rest =>
    match isControl next with
    | .error _ => none
    | .ok true => (kept rest).map (value :: ·)
    | .ok false => (kept (next :: rest)).map (value :: ·)

/-- Each unwired widget finds its own value in its place. -/
def OwnPlaces (links : List (ℤ × Ref)) (slots : List Slot) (values : List Json) : Prop :=
  ∀ (i : ℕ) (slot : Slot), (slots.filter fun s => s.widget.isSome)[i]? = some slot →
    wire links slot.input = none → values[i]? = slot.widget.map (·.1)

def Readable (links : List (ℤ × Ref)) (n : Listed) : Prop :=
  if n.type = seedType then
    entries links n.slots = [("seed", (encode n.slots).head?.getD (.int 0))]
  else
    ((entries links n.slots).map (·.1)).Nodup ∧
      ∃ values, kept (encode n.slots) = some values ∧ OwnPlaces links n.slots values

/-! ## One turn of the loop -/

/-- The list after a value and, perhaps, its control. -/
def afterRead : List Json → Except GraphError (List Json)
  | _ :: next :: rest => do return if ← isControl next then rest else next :: rest
  | _ => .ok []

theorem kept_eq (stream : List Json) :
    kept stream = (afterRead stream).toOption.bind fun left =>
      (kept left).map (stream.head?.toList ++ ·) := by
  rcases stream with _ | ⟨value, _ | ⟨next, rest⟩⟩
  · rfl
  · rfl
  · change _ = (isControl next >>= fun b =>
      pure (if b then rest else next :: rest)).toOption.bind fun left =>
        (kept left).map (value :: ·)
    rw [kept]
    rcases isControl next with e | b
    · rfl
    · cases b <;> rfl

theorem skipControl_spec (values : List Json) (idx : ℕ) :
    (skipControl values (idx + 1)).map values.drop = afterRead (values.drop idx) := by
  unfold skipControl
  cases hnext : values[idx + 1]? with
  | none =>
    have hlen : values.length ≤ idx + 1 := List.getElem?_eq_none_iff.mp hnext
    have hdrop : values.drop (idx + 1) = [] := List.drop_eq_nil_of_le hlen
    have hafter : afterRead (values.drop idx) = .ok [] := by
      rcases hrest : values.drop idx with _ | ⟨value, _ | ⟨next, rest⟩⟩
      · rfl
      · rfl
      · have hl := congrArg List.length hrest
        rw [List.length_drop, List.length_cons, List.length_cons] at hl
        omega
    rw [hafter]
    exact congrArg Except.ok hdrop
  | some next =>
    obtain ⟨hlt, hget⟩ := List.getElem?_eq_some_iff.mp hnext
    have hrest : values.drop idx = values[idx] :: next :: values.drop (idx + 2) := by
      rw [List.drop_eq_getElem_cons (by omega), List.drop_eq_getElem_cons hlt, hget]
    have hone : values.drop (idx + 1) = next :: values.drop (idx + 2) := by
      rw [List.drop_eq_getElem_cons hlt, hget]
    rw [hrest]
    change (isControl next >>= fun b => pure (if b then idx + 2 else idx + 1)).map values.drop =
      isControl next >>= fun b =>
        pure (if b then values.drop (idx + 2) else next :: values.drop (idx + 2))
    rcases isControl next with e | b
    · rfl
    · cases b
      · exact congrArg Except.ok hone
      · rfl

theorem suffix_afterRead {value : Json} {rest left : List Json}
    (h : afterRead (value :: rest) = .ok left) : left <:+ rest := by
  cases rest with
  | nil =>
    cases h
    exact List.suffix_rfl
  | cons next rest =>
    change (isControl next >>= fun b => pure (if b then rest else next :: rest)) = .ok left at h
    rcases hc : isControl next with e | b
    · rw [hc] at h
      cases h
    · rw [hc] at h
      cases b <;> cases h
      · exact List.suffix_rfl
      · exact List.suffix_cons _ _

theorem isControl_word (c : Control) : isControl (.str c.word) = .ok true := by
  cases c <;> rfl

/-- A turn never leaves more than the widgets that follow have written. -/
theorem suffix_turn {widget : Json × Option Control} {rest stream left : List Json}
    (hs : stream <:+ written widget ++ rest) (h : afterRead stream = .ok left) :
    left <:+ rest := by
  cases stream with
  | nil =>
    cases h
    exact List.nil_suffix
  | cons value stream =>
    have hleft := suffix_afterRead h
    obtain ⟨first, control⟩ := widget
    cases control with
    | none =>
      rcases List.suffix_cons_iff.mp hs with heq | hs
      · obtain ⟨rfl, rfl⟩ := List.cons.inj heq
        exact hleft
      · exact hleft.trans ((List.suffix_cons value stream).trans hs)
    | some c =>
      rcases List.suffix_cons_iff.mp hs with heq | hs
      · obtain ⟨rfl, rfl⟩ := List.cons.inj heq
        -- The control after the value goes, whatever follows it.
        have hskip : afterRead (value :: .str c.word :: rest) = .ok rest := by
          rw [afterRead, isControl_word]
          rfl
        have hrest : left = rest := Except.ok.inj (h.symm.trans hskip)
        exact hrest ▸ List.suffix_rfl
      · rcases List.suffix_cons_iff.mp hs with heq | hs
        · obtain ⟨rfl, rfl⟩ := List.cons.inj heq
          exact hleft
        · exact hleft.trans ((List.suffix_cons value stream).trans hs)

/-! ## The loop -/

section Loop

variable {links : List (ℤ × Ref)}

/-- What the loop assigns when the widgets find these values one after the other. -/
def assigned (links : List (ℤ × Ref)) : List Slot → List Json → List (String × Json)
  | [], _ => []
  | slot :: slots, values =>
    let found := match wire links slot.input with
      | some src => some src.json
      | none => if slot.widget.isSome then values.head? else none
    (found.map fun value => (slot.name, value)).toList ++
      assigned links slots (if slot.widget.isSome then values.tail else values)

theorem update_toList (d : List (String × Json)) (name : String) (found : Option Json)
    (more : List (String × Json)) :
    update d ((found.map fun value => (name, value)).toList ++ more) =
      update (match found with | some value => set d name value | none => d) more := by
  cases found <;> rfl

theorem convertInput_plain {slot : Slot} (hwidget : slot.widget = none) (values : List Json)
    (d : List (String × Json)) (idx : ℕ) :
    convertInput links values (d, idx) slot.input =
      .ok (update d ((wire links slot.input).map fun src => (slot.name, src.json)).toList,
        idx) := by
  have hinput : slot.input.hasWidget = false := by simp [Slot.input, hwidget]
  unfold convertInput
  rw [hinput]
  cases wire links slot.input <;> rfl

theorem convertInput_widget {slot : Slot} (hwidget : slot.widget.isSome = true)
    (values : List Json) (d : List (String × Json)) (idx : ℕ) :
    convertInput links values (d, idx) slot.input = (skipControl values (idx + 1)).map fun next =>
      (match (match wire links slot.input with
          | some src => some src.json
          | none => values[idx]?) with
        | some value => set d slot.name value
        | none => d, next) := by
  have hinput : slot.input.hasWidget = true := hwidget
  unfold convertInput
  rw [hinput]
  cases wire links slot.input with
  | some src => rfl
  | none => rfl

theorem assigned_widget {slot : Slot} (hwidget : slot.widget.isSome = true) (slots : List Slot)
    (d : List (String × Json)) (values : List Json) :
    update d (assigned links (slot :: slots) values) =
      update (match (match wire links slot.input with
          | some src => some src.json
          | none => values.head?) with
        | some value => set d slot.name value
        | none => d) (assigned links slots values.tail) := by
  rw [assigned, hwidget]
  exact update_toList _ _ _ _

/-- The loop assigns what stays of the list, and stops where nothing can be said. -/
theorem run_slots (values : List Json) {slots : List Slot} {d : List (String × Json)} {idx : ℕ}
    (h : values.drop idx <:+ encode slots) :
    ((slots.map Slot.input).foldlM (convertInput links values) (d, idx)).toOption.map (·.1) =
      (kept (values.drop idx)).map fun found => update d (assigned links slots found) := by
  induction slots generalizing d idx with
  | nil =>
    rw [List.suffix_nil.mp h]
    rfl
  | cons slot slots ih =>
    rw [List.map_cons, List.foldlM_cons]
    cases hwidget : slot.widget with
    | none =>
      have hsuffix : values.drop idx <:+ encode slots := by simpa [encode, hwidget] using h
      rw [convertInput_plain hwidget]
      refine (ih hsuffix).trans ?_
      congr 1
      funext found
      rw [assigned, hwidget, ← update_append]
      cases wire links slot.input <;> rfl
    | some widget =>
      have hsome : slot.widget.isSome = true := by rw [hwidget, Option.isSome_some]
      have hstream : values.drop idx <:+ written widget ++ encode slots := by
        simpa [encode, hwidget] using h
      have hhead : values[idx]? = (values.drop idx).head? := by rw [List.head?_drop]
      have hspec := skipControl_spec values idx
      rw [convertInput_widget hsome, hhead, kept_eq]
      rcases hskip : skipControl values (idx + 1) with e | n
      · rw [hskip] at hspec
        rw [← hspec]
        rfl
      · have hleft : afterRead (values.drop idx) = .ok (values.drop n) := by
          rw [← hspec, hskip]
          rfl
        rw [hleft]
        refine (ih (suffix_turn hstream hleft)).trans ?_
        change _ = ((kept (values.drop n)).map _).map _
        rw [Option.map_map]
        have hnil : values.drop idx = [] → kept (values.drop n) = some [] := by
          intro hempty
          rw [hempty] at hleft
          rw [← Except.ok.inj hleft]
          rfl
        rcases hdrop : values.drop idx with _ | ⟨value, rest⟩
        · rw [hnil hdrop]
          exact congrArg some (assigned_widget hsome slots d []).symm
        · congr 1
          funext found
          exact (assigned_widget hsome slots d (value :: found)).symm

/-! ## What is assigned and what should be -/

theorem entries_cons (slot : Slot) (slots : List Slot) :
    entries links (slot :: slots) =
      ((valueOf links slot).map fun value => (slot.name, value)).toList ++ entries links slots := by
  unfold entries
  rw [List.filterMap_cons]
  cases valueOf links slot <;> rfl

theorem names_assigned (slots : List Slot) (values : List Json) :
    ((assigned links slots values).map (·.1)).Sublist ((entries links slots).map (·.1)) := by
  induction slots generalizing values with
  | nil => exact List.Sublist.refl _
  | cons slot slots ih =>
    rw [assigned, entries_cons, List.map_append, List.map_append]
    refine List.Sublist.append ?_ (ih _)
    unfold valueOf
    cases wire links slot.input with
    | some src => exact List.Sublist.refl _
    | none =>
      cases slot.widget with
      | none => exact List.Sublist.refl _
      | some widget => cases values <;> simp

theorem ownPlaces_widget {slot : Slot} {widget : Json × Option Control}
    (hwidget : slot.widget = some widget) (slots : List Slot) (values : List Json) :
    OwnPlaces links (slot :: slots) values ↔
      (wire links slot.input = none → values.head? = some widget.1) ∧
        OwnPlaces links slots values.tail := by
  have hfilter : (slot :: slots).filter (fun s => s.widget.isSome) =
      slot :: slots.filter fun s => s.widget.isSome := by
    rw [List.filter_cons_of_pos (by rw [hwidget, Option.isSome_some])]
  unfold OwnPlaces
  rw [hfilter]
  constructor
  · intro h
    refine ⟨fun hwire => ?_, fun i s hs hwire => ?_⟩
    · have hfirst := h 0 slot rfl hwire
      rwa [hwidget, ← List.head?_eq_getElem?] at hfirst
    · rw [List.getElem?_tail]
      exact h (i + 1) s hs hwire
  · rintro ⟨hfirst, hrest⟩ i s hs hwire
    cases i with
    | zero =>
      obtain rfl : slot = s := by simpa using hs
      rw [hwidget, ← List.head?_eq_getElem?]
      exact hfirst hwire
    | succ i =>
      rw [← List.getElem?_tail]
      exact hrest i s hs hwire

theorem assigned_eq_iff (slots : List Slot) (values : List Json) :
    assigned links slots values = entries links slots ↔ OwnPlaces links slots values := by
  induction slots generalizing values with
  | nil => exact ⟨fun _ i s hs => by simp at hs, fun _ => rfl⟩
  | cons slot slots ih =>
    rw [entries_cons, assigned]
    cases hwidget : slot.widget with
    | none =>
      have hplaces : OwnPlaces links (slot :: slots) values ↔ OwnPlaces links slots values := by
        unfold OwnPlaces
        rw [List.filter_cons_of_neg (by simp [hwidget])]
      have hvalue : valueOf links slot = (match wire links slot.input with
          | some src => some src.json
          | none =>
            if (none : Option (Json × Option Control)).isSome then values.head? else none) := by
        unfold valueOf
        rw [hwidget]
        rfl
      rw [hplaces, hvalue, List.append_cancel_left_eq]
      exact ih values
    | some widget =>
      rw [ownPlaces_widget hwidget, ← ih values.tail]
      unfold valueOf
      cases hwire : wire links slot.input with
      | some src => simp
      | none =>
        have hlen : ((assigned links slots values.tail).map (·.1)).length ≤ _ :=
          (names_assigned slots values.tail).length_le
        rw [List.length_map, List.length_map] at hlen
        cases values with
        | nil =>
          rw [List.tail_nil] at hlen
          simp only [hwidget]
          refine ⟨fun h => ?_, fun h => absurd (h.1 trivial) (by simp)⟩
          have hl := congrArg List.length h
          simp at hl
          omega
        | cons value rest => simp [hwidget]

end Loop

/-! ## Decoding -/

section Decoding

variable {links : List (ℤ × Ref)} {n : Listed}

theorem convertInputs_seed (h : n.type = seedType) :
    convertInputs links n.node = .ok [("seed", (encode n.slots).head?.getD (.int 0))] := by
  have hwidgets : n.node.widgets = .list (encode n.slots) := rfl
  unfold convertInputs
  rw [if_pos (show n.node.type = seedType from h), hwidgets]
  cases encode n.slots <;> rfl

theorem convertInputs_slots (h : n.type ≠ seedType) :
    (convertInputs links n.node).toOption =
      (kept (encode n.slots)).map fun values => update [] (assigned links n.slots values) := by
  have hrun : ((n.slots.map Slot.input).foldlM (convertInput links (encode n.slots))
      ([], 0)).toOption.map (·.1) = _ := run_slots (encode n.slots) List.suffix_rfl
  unfold convertInputs
  rw [if_neg (show n.node.type ≠ seedType from h)]
  rw [List.drop_zero] at hrun
  rw [← hrun]
  change ((fun state => state.1) <$> (n.slots.map Slot.input).foldlM
    (convertInput links (encode n.slots)) ([], 0)).toOption = _
  cases (n.slots.map Slot.input).foldlM (convertInput links (encode n.slots)) ([], 0) <;> rfl

theorem decodes_iff_inputs : Decodes links n ↔
    ∃ d, convertInputs links n.node = .ok d ∧ d.Perm (entries links n.slots) := by
  unfold Decodes convertNode
  cases convertInputs links n.node with
  | error e => exact ⟨fun ⟨api, h, _⟩ => (by cases h), fun ⟨d, h, _⟩ => (by cases h)⟩
  | ok d =>
    constructor
    · rintro ⟨api, hapi, hperm⟩
      cases hapi
      exact ⟨d, rfl, hperm⟩
    · rintro ⟨_, h, hperm⟩
      cases h
      exact ⟨_, rfl, hperm⟩

theorem perm_entries_iff (slots : List Slot) (values : List Json) :
    (update [] (assigned links slots values)).Perm (entries links slots) ↔
      ((entries links slots).map (·.1)).Nodup ∧ OwnPlaces links slots values := by
  constructor
  · intro h
    have hnodup : ((entries links slots).map (·.1)).Nodup :=
      (h.map (·.1)).nodup_iff.mp (nodup_update (d := []) List.nodup_nil _)
    have hnames : ((assigned links slots values).map (·.1)).Sublist _ :=
      names_assigned slots values
    have hupdate : update [] (assigned links slots values) = assigned links slots values :=
      update_of_nodup (hnames.nodup hnodup)
    rw [hupdate] at h
    have hkeys := hnames.eq_of_length (by simpa using h.length_eq)
    exact ⟨hnodup, (assigned_eq_iff slots values).mp (eq_of_perm hnodup hkeys h)⟩
  · rintro ⟨hnodup, hplaces⟩
    have heq := (assigned_eq_iff slots values).mpr hplaces
    rw [heq, update_of_nodup hnodup]
    exact List.Perm.refl _

/-- A node is decoded as it was written exactly if it is readable. -/
theorem decodes_iff_readable (links : List (ℤ × Ref)) (n : Listed) :
    Decodes links n ↔ Readable links n := by
  rw [decodes_iff_inputs]
  unfold Readable
  split_ifs with htype
  · rw [convertInputs_seed htype]
    constructor
    · rintro ⟨d, hd, hperm⟩
      cases hd
      exact List.perm_singleton.mp hperm.symm
    · intro h
      exact ⟨_, rfl, by rw [h]⟩
  · have hinputs : (convertInputs links n.node).toOption = _ := convertInputs_slots htype
    constructor
    · rintro ⟨d, hd, hperm⟩
      rw [hd] at hinputs
      obtain ⟨values, hkept, rfl⟩ := Option.map_eq_some_iff.mp hinputs.symm
      obtain ⟨hnodup, hplaces⟩ := (perm_entries_iff _ _).mp hperm
      exact ⟨hnodup, values, hkept, hplaces⟩
    · rintro ⟨hnodup, values, hkept, hplaces⟩
      rw [hkept] at hinputs
      cases hd : convertInputs links n.node with
      | error e =>
        rw [hd] at hinputs
        cases hinputs
      | ok d =>
        rw [hd] at hinputs
        cases hinputs
        exact ⟨_, rfl, (perm_entries_iff _ _).mpr ⟨hnodup, hplaces⟩⟩

end Decoding

/-! ## Nodes without doubtful values -/

/-- After a value without a control comes none that could be taken for one. -/
def Marked (slots : List Slot) : Prop :=
  (slots.filterMap Slot.widget).IsChain fun w next =>
    w.2 = none → isControl next.1 = .ok false

theorem encode_eq (slots : List Slot) :
    encode slots = (slots.filterMap Slot.widget).flatMap written := by
  induction slots with
  | nil => rfl
  | cons slot slots ih =>
    have hcons : encode (slot :: slots) = slot.widget.toList.flatMap written ++ encode slots := rfl
    rw [hcons, ih, List.filterMap_cons]
    cases slot.widget <;> simp

theorem kept_of_marked {widgets : List (Json × Option Control)}
    (h : widgets.IsChain fun w next => w.2 = none → isControl next.1 = .ok false) :
    kept (widgets.flatMap written) = some (widgets.map (·.1)) := by
  induction widgets with
  | nil => rfl
  | cons widget widgets ih =>
    obtain ⟨value, control⟩ := widget
    have hrest := ih h.of_cons
    cases control with
    | some c =>
      change kept (value :: .str c.word :: widgets.flatMap written) = _
      rw [kept, isControl_word, hrest]
      rfl
    | none =>
      cases widgets with
      | nil => rfl
      | cons next widgets =>
        have hnext := (List.isChain_cons_cons.mp h).1 rfl
        have hsplit : (next :: widgets).flatMap written =
            next.1 :: ((next.2.map fun c => Json.str c.word).toList ++
              widgets.flatMap written) := rfl
        change kept (value :: (next :: widgets).flatMap written) = _
        rw [hsplit, kept, hnext, ← hsplit, hrest]
        rfl

theorem ownPlaces_widgets (links : List (ℤ × Ref)) (slots : List Slot) :
    OwnPlaces links slots ((slots.filterMap Slot.widget).map (·.1)) := by
  induction slots with
  | nil => exact fun i s hs => by simp at hs
  | cons slot slots ih =>
    cases hwidget : slot.widget with
    | none =>
      unfold OwnPlaces
      rw [List.filter_cons_of_neg (by simp [hwidget]), List.filterMap_cons_none hwidget]
      exact ih
    | some widget =>
      rw [ownPlaces_widget hwidget, List.filterMap_cons_some hwidget]
      exact ⟨fun _ => rfl, ih⟩

theorem readable_of_marked {links : List (ℤ × Ref)} {n : Listed} (htype : n.type ≠ seedType)
    (hnames : ((entries links n.slots).map (·.1)).Nodup) (h : Marked n.slots) :
    Readable links n := by
  unfold Readable
  rw [if_neg htype]
  refine ⟨hnames, _, ?_, ownPlaces_widgets links n.slots⟩
  rw [encode_eq]
  exact kept_of_marked h

/-- The value `fixed` of the second widget is taken for a control, and the third
widget's value goes to the second. -/
def plainNode : Listed where
  id := "1"
  type := "Sampler"
  title := none
  mode := 0
  slots := [⟨"steps", none, some (.int 20, none)⟩, ⟨"mode", none, some (.str "fixed", none)⟩,
    ⟨"cfg", none, some (.int 7, none)⟩]

theorem a_fixed_value_is_skipped : ¬ Decodes [] plainNode := by
  have hinputs : convertInputs [] plainNode.node =
      .ok [("steps", .int 20), ("mode", .int 7)] := rfl
  rw [decodes_iff_inputs]
  rintro ⟨d, hd, hperm⟩
  rw [hinputs] at hd
  cases hd
  have hlength := hperm.length_eq
  simp [entries, plainNode, valueOf, wire, Slot.input] at hlength

end image_gen.widget_decoding

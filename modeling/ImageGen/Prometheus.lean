-- The Prometheus text format: an automaton that reads one line, what it makes of a
-- sample that is written without escapes, and how many backslashes a label value costs.
import ImageGen.PyStr
import Mathlib.Algebra.BigOperators.Group.List.Basic
import Mathlib.Data.List.ReduceOption
import Mathlib.Algebra.GroupWithZero.Nat

namespace image_gen.prometheus

/-! ## The grammar -/

structure Sample where
  name : List Char
  labels : List (List Char × List Char)
  value : List Char
  timestamp : Option (List Char)
  deriving DecidableEq

def isBlank (c : Char) : Bool := c = ' ' || c = '\t'

def nameStart (c : Char) : Bool := c.isAlpha || c = '_' || c = ':'

def nameChar (c : Char) : Bool := nameStart c || c.isDigit

def labelStart (c : Char) : Bool := c.isAlpha || c = '_'

def labelChar (c : Char) : Bool := labelStart c || c.isDigit

abbrev Labels := List (List Char × List Char)

/-- How far a line is read, with what was read of the sample. -/
inductive State
  | start
  | comment (text : List Char)
  | name (n : List Char)
  | afterName (n : List Char)
  | labels (n : List Char) (ls : Labels)
  | labelName (n : List Char) (ls : Labels) (l : List Char)
  | equals (n : List Char) (ls : Labels) (l : List Char)
  | quote (n : List Char) (ls : Labels) (l : List Char)
  | text (n : List Char) (ls : Labels) (l v : List Char)
  | escape (n : List Char) (ls : Labels) (l v : List Char)
  | separator (n : List Char) (ls : Labels)
  | beforeValue (n : List Char) (ls : Labels)
  | value (n : List Char) (ls : Labels) (x : List Char)
  | afterValue (n : List Char) (ls : Labels) (x : List Char)
  | timestamp (n : List Char) (ls : Labels) (x t : List Char)
  | final (n : List Char) (ls : Labels) (x t : List Char)

def step : State → Char → Option State
  | .start, c =>
    if isBlank c then some .start
    else if c = '#' then some (.comment [])
    else if nameStart c then some (.name [c])
    else none
  | .comment text, c => some (.comment (text ++ [c]))
  | .name n, c =>
    if nameChar c then some (.name (n ++ [c]))
    else if isBlank c then some (.afterName n)
    else if c = '{' then some (.labels n [])
    else none
  | .afterName n, c =>
    if isBlank c then some (.afterName n)
    else if c = '{' then some (.labels n [])
    else some (.value n [] [c])
  | .labels n ls, c =>
    if isBlank c then some (.labels n ls)
    else if c = '}' then some (.beforeValue n ls)
    else if labelStart c then some (.labelName n ls [c])
    else none
  | .labelName n ls l, c =>
    if labelChar c then some (.labelName n ls (l ++ [c]))
    else if isBlank c then some (.equals n ls l)
    else if c = '=' then some (.quote n ls l)
    else none
  | .equals n ls l, c =>
    if isBlank c then some (.equals n ls l) else if c = '=' then some (.quote n ls l) else none
  | .quote n ls l, c =>
    if isBlank c then some (.quote n ls l) else if c = '"' then some (.text n ls l []) else none
  | .text n ls l v, c =>
    if c = '"' then some (.separator n (ls ++ [(l, v)]))
    else if c = '\\' then some (.escape n ls l v)
    else if c = '\n' then none
    else some (.text n ls l (v ++ [c]))
  | .escape n ls l v, c =>
    if c = '\\' then some (.text n ls l (v ++ ['\\']))
    else if c = '"' then some (.text n ls l (v ++ ['"']))
    else if c = 'n' then some (.text n ls l (v ++ ['\n']))
    else none
  | .separator n ls, c =>
    if isBlank c then some (.separator n ls)
    else if c = ',' then some (.labels n ls)
    else if c = '}' then some (.beforeValue n ls)
    else none
  | .beforeValue n ls, c =>
    if isBlank c then some (.beforeValue n ls) else some (.value n ls [c])
  | .value n ls x, c =>
    if isBlank c then some (.afterValue n ls x) else some (.value n ls (x ++ [c]))
  | .afterValue n ls x, c =>
    if isBlank c then some (.afterValue n ls x) else some (.timestamp n ls x [c])
  | .timestamp n ls x t, c =>
    if isBlank c then some (.final n ls x t) else some (.timestamp n ls x (t ++ [c]))
  | .final n ls x t, c => if isBlank c then some (.final n ls x t) else none

def metricTypes : List (List Char) :=
  ["counter".toList, "gauge".toList, "histogram".toList, "summary".toList, "untyped".toList]

def isName : List Char → Bool
  | [] => false
  | c :: cs => nameStart c && cs.all nameChar

/-- Other comments than those of `HELP` and `TYPE` are ignored. -/
def commentOk (text : List Char) : Bool :=
  match (text.splitOnP isBlank).filter (· ≠ []) with
  | [] => true
  | word :: rest =>
    if word = "HELP".toList then rest.head?.any isName
    else if word = "TYPE".toList then
      rest.head?.any isName && decide (rest.length = 2) && rest.getLast?.any (· ∈ metricTypes)
    else true

def isTimestamp : List Char → Bool
  | '-' :: digits => digits ≠ [] && digits.all Char.isDigit
  | digits => digits ≠ [] && digits.all Char.isDigit

section Parse

-- what `ParseFloat` of Go takes
variable (isFloat : List Char → Bool)

def finish : State → Option (Option Sample)
  | .start => some none
  | .comment text => if commentOk text then some none else none
  | .value n ls x => if isFloat x then some (some ⟨n, ls, x, none⟩) else none
  | .afterValue n ls x => if isFloat x then some (some ⟨n, ls, x, none⟩) else none
  | .timestamp n ls x t =>
    if isFloat x && isTimestamp t then some (some ⟨n, ls, x, some t⟩) else none
  | .final n ls x t =>
    if isFloat x && isTimestamp t then some (some ⟨n, ls, x, some t⟩) else none
  | _ => none

def parseLine (line : List Char) : Option (Option Sample) :=
  (line.foldlM step .start).bind (finish isFloat)

/-- Every line ends with a line feed. -/
def parseText (text : List Char) : Option (List Sample) :=
  if text = [] ∨ text.getLast? = some '\n' then
    ((text.splitOn '\n').mapM (parseLine isFloat)).map List.reduceOption
  else none

end Parse

/-! ## The cost of a label value -/

/-- What a character of a label value takes in backslashes, at the least. -/
def cost (c : Char) : ℕ := if c = '\\' then 2 else if c = '"' ∨ c = '\n' then 1 else 0

def textCost (text : List Char) : ℕ := (text.map cost).sum

def labelsCost (ls : Labels) : ℕ := (ls.map fun l => textCost l.2).sum

def State.cost : State → ℕ
  | .start | .comment _ | .name _ | .afterName _ => 0
  | .labels _ ls | .labelName _ ls _ | .equals _ ls _ | .quote _ ls _ => labelsCost ls
  | .text _ ls _ v => labelsCost ls + textCost v
  | .escape _ ls _ v => labelsCost ls + textCost v + 1
  | .separator _ ls | .beforeValue _ ls | .value _ ls _ | .afterValue _ ls _ => labelsCost ls
  | .timestamp _ ls _ _ | .final _ ls _ _ => labelsCost ls

@[simp] theorem textCost_nil : textCost [] = 0 := rfl

theorem textCost_append (s t : List Char) : textCost (s ++ t) = textCost s + textCost t := by
  simp [textCost]

theorem labelsCost_snoc (ls : Labels) (l v : List Char) :
    labelsCost (ls ++ [(l, v)]) = labelsCost ls + textCost v := by
  simp [labelsCost]

/-- One character pays for no more than it is. -/
theorem cost_step {s s' : State} {c : Char} (h : step s c = some s') :
    s'.cost ≤ s.cost + if c = '\\' then 1 else 0 := by
  cases s <;> simp only [step] at h
  case text n ls l v =>
    split_ifs at h with h1 h2 h3 <;> cases h
    · simp [State.cost, labelsCost_snoc]
    · simp [State.cost, h2]
    · have hcost : textCost [c] = 0 := by simp [textCost, prometheus.cost, h1, h2, h3]
      simp only [State.cost, textCost_append, hcost]
      omega
  case escape n ls l v =>
    split_ifs at h with h1 h2 h3 <;> cases h
    · have hcost : textCost ['\\'] = 2 := by decide
      simp only [State.cost, textCost_append, hcost, h1, if_true]
      omega
    · have hcost : textCost ['"'] = 1 := by decide
      simp only [State.cost, textCost_append, hcost]
      omega
    · have hcost : textCost ['\n'] = 1 := by decide
      simp only [State.cost, textCost_append, hcost]
      omega
  all_goals first
    | (split_ifs at h <;> cases h <;> simp [State.cost, labelsCost])
    | (cases h; simp [State.cost])

theorem cost_run {line : List Char} {s s' : State} (h : line.foldlM step s = some s') :
    s'.cost ≤ s.cost + line.count '\\' := by
  induction line generalizing s with
  | nil =>
    cases h
    exact Nat.le_refl _
  | cons c cs ih =>
    rw [List.foldlM_cons] at h
    obtain ⟨s₁, hs₁, hrest⟩ := Option.bind_eq_some_iff.mp h
    have h1 := cost_step hs₁
    have h2 := ih hrest
    rw [List.count_cons]
    simp only [beq_iff_eq]
    omega

variable {isFloat : List Char → Bool}

theorem cost_finish {s : State} {sample : Sample} (h : finish isFloat s = some (some sample)) :
    labelsCost sample.labels = s.cost := by
  cases s <;> simp only [finish] at h <;> (try split_ifs at h) <;> cases h <;> rfl

theorem cost_parseLine {line : List Char} {found : Option Sample}
    (h : parseLine isFloat line = some found) :
    ((found.map fun s => labelsCost s.labels).getD 0) ≤ line.count '\\' := by
  obtain ⟨s, hs, hfinish⟩ := Option.bind_eq_some_iff.mp h
  have hrun := cost_run hs
  cases found with
  | none => exact Nat.zero_le _
  | some sample =>
    rw [Option.map_some, Option.getD_some, cost_finish hfinish]
    simpa [State.cost] using hrun

theorem count_splitOn (text : List Char) :
    ((text.splitOn '\n').map (·.count '\\')).sum = text.count '\\' := by
  induction text with
  | nil => rfl
  | cons c cs ih =>
    rw [List.splitOn_cons_eq_if_modifyHead]
    by_cases hc : c = '\n'
    · subst hc
      simp only [beq_self_eq_true, if_true, List.map_cons, List.sum_cons, List.count_nil, ih]
      simp
    · rw [if_neg (by simpa using hc)]
      rcases hsplit : cs.splitOn '\n' with _ | ⟨first, others⟩
      · exact absurd hsplit (List.splitOn_ne_nil _ cs)
      · rw [hsplit, List.map_cons, List.sum_cons] at ih
        rw [List.modifyHead_cons, List.map_cons, List.sum_cons, List.count_cons, List.count_cons]
        omega

theorem cost_parseLines {lines : List (List Char)} {found : List (Option Sample)}
    (h : lines.mapM (parseLine isFloat) = some found) :
    (found.reduceOption.map fun s => labelsCost s.labels).sum ≤
      (lines.map (·.count '\\')).sum := by
  induction lines generalizing found with
  | nil =>
    cases h
    exact Nat.le_refl _
  | cons line rest ih =>
    rw [List.mapM_cons] at h
    obtain ⟨first, hfirst, hmore⟩ := Option.bind_eq_some_iff.mp h
    obtain ⟨others, hothers, hcons⟩ := Option.bind_eq_some_iff.mp hmore
    cases hcons
    have h1 := cost_parseLine hfirst
    have h2 := ih hothers
    rw [List.map_cons, List.sum_cons]
    cases first with
    | none =>
      rw [List.reduceOption_cons_of_none]
      omega
    | some sample =>
      rw [List.reduceOption_cons_of_some, List.map_cons, List.sum_cons]
      rw [Option.map_some, Option.getD_some] at h1
      omega

/-- Whatever a text is read as, its backslashes pay for the label values. -/
theorem cost_parseText {text : List Char} {samples : List Sample}
    (h : parseText isFloat text = some samples) :
    (samples.map fun s => labelsCost s.labels).sum ≤ text.count '\\' := by
  unfold parseText at h
  split_ifs at h
  obtain ⟨found, hfound, rfl⟩ := Option.map_eq_some_iff.mp h
  rw [← count_splitOn]
  exact cost_parseLines hfound

/-! ## Lines without escapes -/

/-- What a label value may hold as it is. -/
def Clean (text : List Char) : Prop := ∀ c ∈ text, c ≠ '"' ∧ c ≠ '\\' ∧ c ≠ '\n'

instance : DecidablePred Clean := fun text =>
  inferInstanceAs (Decidable (∀ c ∈ text, c ≠ '"' ∧ c ≠ '\\' ∧ c ≠ '\n'))

theorem cost_eq_zero_iff (c : Char) : cost c = 0 ↔ c ≠ '"' ∧ c ≠ '\\' ∧ c ≠ '\n' := by
  unfold cost
  split_ifs with h1 h2
  · simp [h1]
  · simp only [false_iff]
    tauto
  · simp only [true_iff]
    tauto

theorem clean_iff (text : List Char) : Clean text ↔ textCost text = 0 := by
  simp only [Clean, textCost, List.sum_eq_zero_iff_forall_eq_nat, List.mem_map,
    forall_exists_index, and_imp, forall_apply_eq_imp_iff₂, cost_eq_zero_iff]

theorem count_le_cost (text : List Char) : 2 * text.count '\\' ≤ textCost text := by
  induction text with
  | nil => exact Nat.le_refl _
  | cons c cs ih =>
    have hcons : textCost (c :: cs) = cost c + textCost cs := rfl
    rw [hcons, List.count_cons]
    unfold cost
    simp only [beq_iff_eq]
    split_ifs <;> omega

theorem run_text {v : List Char} (hv : Clean v) (n : List Char) (ls : Labels) (l done : List Char) :
    v.foldlM step (.text n ls l done) = some (.text n ls l (done ++ v)) := by
  induction v generalizing done with
  | nil => simp [pure]
  | cons c cs ih =>
    obtain ⟨⟨h1, h2, h3⟩, hcs⟩ := List.forall_mem_cons.mp hv
    rw [List.foldlM_cons]
    simp only [step, h1, h2, h3, if_false]
    simpa using ih hcs (done ++ [c])

theorem run_name {cs : List Char} (h : cs.all nameChar = true) (n : List Char) :
    cs.foldlM step (.name n) = some (.name (n ++ cs)) := by
  induction cs generalizing n with
  | nil => simp [pure]
  | cons c cs ih =>
    rw [List.all_cons, Bool.and_eq_true] at h
    rw [List.foldlM_cons]
    simp only [step, h.1, if_true]
    simpa using ih h.2 (n ++ [c])

theorem run_labelName {cs : List Char} (h : cs.all labelChar = true) (n : List Char) (ls : Labels)
    (l : List Char) :
    cs.foldlM step (.labelName n ls l) = some (.labelName n ls (l ++ cs)) := by
  induction cs generalizing l with
  | nil => simp [pure]
  | cons c cs ih =>
    rw [List.all_cons, Bool.and_eq_true] at h
    rw [List.foldlM_cons]
    simp only [step, h.1, if_true]
    simpa using ih h.2 (l ++ [c])

theorem run_value {cs : List Char} (h : ∀ c ∈ cs, isBlank c = false) (n : List Char) (ls : Labels)
    (x : List Char) : cs.foldlM step (.value n ls x) = some (.value n ls (x ++ cs)) := by
  induction cs generalizing x with
  | nil => simp [pure]
  | cons c cs ih =>
    obtain ⟨hc, hcs⟩ := List.forall_mem_cons.mp h
    rw [List.foldlM_cons]
    simp only [step, hc]
    simpa using ih hcs (x ++ [c])

/-! ## Samples -/

def isLabelName : List Char → Bool
  | [] => false
  | c :: cs => labelStart c && cs.all labelChar

def labelText (l : List Char × List Char) : List Char := l.1 ++ '=' :: '"' :: (l.2 ++ ['"'])

/-- What a label list may hold to be read back. -/
def Writable (ls : Labels) : Prop := ∀ l ∈ ls, isLabelName l.1 = true ∧ Clean l.2

/-- What a value may hold to stand behind a name without labels. -/
def ValueText (x : List Char) : Prop := x ≠ [] ∧ ∀ c ∈ x, isBlank c = false ∧ c ≠ '{'

theorem blank_cases {c : Char} (h : isBlank c = true) : c = ' ' ∨ c = '\t' := by
  simpa [isBlank] using h

theorem not_blank_of_start {p : Char → Bool} {c : Char} (hspace : p ' ' = false)
    (htab : p '\t' = false) (h : p c = true) : isBlank c = false := by
  by_contra hne
  rcases blank_cases (by simpa using hne) with rfl | rfl
  · rw [hspace] at h
    cases h
  · rw [htab] at h
    cases h

theorem ne_of_holds {p : Char → Bool} {c d : Char} (hd : p d = false) (h : p c = true) :
    c ≠ d := by
  rintro rfl
  rw [hd] at h
  cases h

theorem foldlM_append {s t : List Char} {a b : State} (h : s.foldlM step a = some b) :
    (s ++ t).foldlM step a = t.foldlM step b := by
  rw [List.foldlM_append, h]
  rfl

theorem run_label {l : List Char × List Char} (hname : isLabelName l.1 = true)
    (hclean : Clean l.2) (n : List Char) (done : Labels) :
    (labelText l).foldlM step (.labels n done) = some (.separator n (done ++ [l])) := by
  obtain ⟨name, v⟩ := l
  cases name with
  | nil => cases hname
  | cons c cs =>
    rw [isLabelName, Bool.and_eq_true] at hname
    have hblank := not_blank_of_start (by decide) (by decide) hname.1
    have hbrace : c ≠ '}' := ne_of_holds (by decide) hname.1
    have hfirst : [c].foldlM step (.labels n done) = some (.labelName n done [c]) := by
      simp [step, hblank, hbrace, hname.1]
    have heq : ['=', '"'].foldlM step (.labelName n done (c :: cs)) =
        some (.text n done (c :: cs) []) := by
      have hchar : labelChar '=' = false := by decide
      simp [step, hchar, isBlank]
    have hname' := run_labelName hname.2 n done [c]
    have htext := run_text hclean n done (c :: cs) []
    have hend : ['"'].foldlM step (.text n done (c :: cs) v) =
        some (.separator n (done ++ [(c :: cs, v)])) := by
      simp [step]
    have hsplit : labelText (c :: cs, v) = [c] ++ (cs ++ (['=', '"'] ++ (v ++ ['"']))) := rfl
    rw [hsplit, foldlM_append hfirst, foldlM_append hname', List.singleton_append,
      foldlM_append heq, foldlM_append htext, List.nil_append, hend]

theorem run_labels {ls : Labels} (h : Writable ls) (hne : ls ≠ []) (n : List Char)
    (done : Labels) :
    ([','].intercalate (ls.map labelText)).foldlM step (.labels n done) =
      some (.separator n (done ++ ls)) := by
  induction ls generalizing done with
  | nil => contradiction
  | cons l rest ih =>
    obtain ⟨⟨hname, hclean⟩, hrest⟩ := List.forall_mem_cons.mp h
    have hfirst := run_label hname hclean n done
    cases rest with
    | nil => simpa [List.intercalate] using hfirst
    | cons l' rest' =>
      have hcomma : [','].foldlM step (.separator n (done ++ [l])) =
          some (.labels n (done ++ [l])) := by
        simp [step, isBlank]
      have hsplit : [','].intercalate ((l :: l' :: rest').map labelText) =
          labelText l ++ ([','] ++ [','].intercalate ((l' :: rest').map labelText)) := by
        simp [List.intercalate]
      rw [hsplit, foldlM_append hfirst, foldlM_append hcomma,
        ih hrest (List.cons_ne_nil _ _) (done ++ [l]), List.append_assoc]
      rfl

theorem run_isName {name : List Char} (h : isName name = true) :
    name.foldlM step .start = some (.name name) := by
  cases name with
  | nil => cases h
  | cons c cs =>
    rw [isName, Bool.and_eq_true] at h
    have hblank := not_blank_of_start (by decide) (by decide) h.1
    have hhash : c ≠ '#' := ne_of_holds (by decide) h.1
    have hfirst : [c].foldlM step .start = some (.name [c]) := by
      simp [step, hblank, hhash, h.1]
    have hrest := run_name h.2 [c]
    have hsplit : c :: cs = [c] ++ cs := rfl
    rw [hsplit, foldlM_append hfirst, hrest]

theorem parseLine_of_run {line : List Char} {s : State} (h : line.foldlM step .start = some s) :
    parseLine isFloat line = finish isFloat s := by
  unfold parseLine
  rw [h]
  rfl

/-- A sample without labels. -/
theorem parseLine_plain {name value : List Char} (hname : isName name = true)
    (hvalue : ValueText value) (hfloat : isFloat value = true) :
    parseLine isFloat (name ++ ' ' :: value) = some (some ⟨name, [], value, none⟩) := by
  obtain ⟨hne, hchars⟩ := hvalue
  obtain ⟨c, cs, rfl⟩ := List.exists_cons_of_ne_nil hne
  obtain ⟨⟨hblank, hbrace⟩, hcs⟩ := List.forall_mem_cons.mp hchars
  have hspace : [' ', c].foldlM step (.name name) = some (.value name [] [c]) := by
    have hchar : nameChar ' ' = false := by decide
    have hb : isBlank ' ' = true := by decide
    simp [step, hchar, hb, hblank, hbrace]
  have hrest := run_value (fun d hd => (hcs d hd).1) name [] [c]
  have hsplit : ' ' :: c :: cs = [' ', c] ++ cs := rfl
  have hrun : (name ++ ' ' :: c :: cs).foldlM step .start = some (.value name [] (c :: cs)) := by
    rw [foldlM_append (run_isName hname), hsplit, foldlM_append hspace, hrest]
    rfl
  rw [parseLine_of_run hrun]
  simp [finish, hfloat]

/-- A sample with labels, written without escapes. -/
theorem parseLine_labelled {name value : List Char} {ls : Labels} (hname : isName name = true)
    (hls : Writable ls) (hne : ls ≠ []) (hvalue : ValueText value)
    (hfloat : isFloat value = true) :
    parseLine isFloat
      (name ++ '{' :: ([','].intercalate (ls.map labelText) ++ '}' :: ' ' :: value)) =
        some (some ⟨name, ls, value, none⟩) := by
  obtain ⟨hnev, hchars⟩ := hvalue
  obtain ⟨c, cs, rfl⟩ := List.exists_cons_of_ne_nil hnev
  obtain ⟨⟨hblank, -⟩, hcs⟩ := List.forall_mem_cons.mp hchars
  have hopen : ['{'].foldlM step (.name name) = some (.labels name []) := by
    have hchar : nameChar '{' = false := by decide
    simp [step, hchar, isBlank]
  have hclose : ['}', ' ', c].foldlM step (.separator name ls) = some (.value name ls [c]) := by
    have hb : isBlank ' ' = true := by decide
    have hb' : isBlank '}' = false := by decide
    simp [step, hb, hb', hblank]
  have hlabels := run_labels hls hne name []
  have hrest := run_value (fun d hd => (hcs d hd).1) name ls [c]
  have hopened : ∀ t, '{' :: t = ['{'] ++ t := fun _ => rfl
  have hclosed : '}' :: ' ' :: c :: cs = ['}', ' ', c] ++ cs := rfl
  have hrun : (name ++
      '{' :: ([','].intercalate (ls.map labelText) ++ '}' :: ' ' :: c :: cs)).foldlM step .start =
        some (.value name ls (c :: cs)) := by
    rw [foldlM_append (run_isName hname), hopened, foldlM_append hopen, foldlM_append hlabels,
      List.nil_append, hclosed, foldlM_append hclose, hrest]
    rfl
  rw [parseLine_of_run hrun]
  simp [finish, hfloat]

theorem parseLine_comment {text : List Char} (h : commentOk text = true) :
    parseLine isFloat ('#' :: text) = some none := by
  have hrun : ∀ (cs t : List Char), cs.foldlM step (.comment t) = some (.comment (t ++ cs)) := by
    intro cs
    induction cs with
    | nil => simp [pure]
    | cons c cs ih =>
      intro t
      rw [List.foldlM_cons]
      simpa [step] using ih (t ++ [c])
  have hhash : ('#' :: text).foldlM step .start = some (.comment text) := by
    rw [List.foldlM_cons]
    simpa [step, isBlank] using hrun text []
  rw [parseLine_of_run hhash]
  simp [finish, h]

/-- A text of lines that are each read. -/
theorem parseText_lines {lines : List (List Char)} {found : List (Option Sample)}
    (hne : lines ≠ []) (hlines : ∀ line ∈ lines, '\n' ∉ line)
    (h : lines.mapM (parseLine isFloat) = some found) :
    parseText isFloat (['\n'].intercalate lines ++ ['\n']) = some found.reduceOption := by
  have hsplit : (['\n'].intercalate lines ++ ['\n']).splitOn '\n' = lines ++ [[]] := by
    rw [List.splitOn_eq_splitOnP, List.splitOnP_append_cons _ _ (by simp),
      ← List.splitOn_eq_splitOnP, List.splitOn_intercalate _ hlines hne]
    rfl
  have hmap : (lines ++ [[]]).mapM (parseLine isFloat) = some (found ++ [none]) := by
    rw [List.mapM_append, h]
    rfl
  unfold parseText
  rw [if_pos (.inr (by simp)), hsplit, hmap]
  simp [List.reduceOption_append]

/-! ## Pages -/

/-- The lines are read one by one, as these samples. -/
def Reads (isFloat : List Char → Bool) (lines : List (List Char)) (samples : List Sample) : Prop :=
  (∀ line ∈ lines, '\n' ∉ line) ∧
    ∃ found, lines.mapM (parseLine isFloat) = some found ∧ found.reduceOption = samples

theorem reads_nil : Reads isFloat [] [] := ⟨nofun, [], rfl, rfl⟩

theorem Reads.append {first second : List (List Char)} {samples more : List Sample}
    (h1 : Reads isFloat first samples) (h2 : Reads isFloat second more) :
    Reads isFloat (first ++ second) (samples ++ more) := by
  obtain ⟨hline1, found1, hfound1, rfl⟩ := h1
  obtain ⟨hline2, found2, hfound2, rfl⟩ := h2
  refine ⟨List.forall_mem_append.mpr ⟨hline1, hline2⟩, found1 ++ found2, ?_, ?_⟩
  · rw [List.mapM_append, hfound1, hfound2]
    rfl
  · exact List.reduceOption_append found1 found2

theorem Reads.flatMap {β : Type} {as : List β} {f : β → List (List Char)} {g : β → List Sample}
    (h : ∀ a ∈ as, Reads isFloat (f a) (g a)) : Reads isFloat (as.flatMap f) (as.flatMap g) := by
  induction as with
  | nil => exact reads_nil
  | cons a rest ih =>
    obtain ⟨ha, hrest⟩ := List.forall_mem_cons.mp h
    exact ha.append (ih hrest)

theorem reads_line {line : List Char} {found : Option Sample} (hline : '\n' ∉ line)
    (h : parseLine isFloat line = some found) : Reads isFloat [line] found.toList := by
  refine ⟨List.forall_mem_singleton.mpr hline, [found], ?_, ?_⟩
  · rw [List.mapM_cons, h]
    rfl
  · cases found <;> rfl

theorem parseText_of_reads {lines : List (List Char)} {samples : List Sample} (hne : lines ≠ [])
    (h : Reads isFloat lines samples) :
    parseText isFloat (['\n'].intercalate lines ++ ['\n']) = some samples := by
  obtain ⟨hlines, found, hfound, rfl⟩ := h
  exact parseText_lines hne hlines hfound

theorem count_intercalate {c d : Char} (h : c ≠ d) (parts : List (List Char)) :
    ([c].intercalate parts).count d = (parts.map (·.count d)).sum := by
  induction parts with
  | nil => rfl
  | cons part rest ih =>
    cases rest with
    | nil => simp [List.intercalate]
    | cons part' rest' =>
      have hsplit : [c].intercalate (part :: part' :: rest') =
          part ++ ([c] ++ [c].intercalate (part' :: rest')) := by
        simp [List.intercalate]
      have hsum : ((part :: part' :: rest').map (·.count d)).sum =
          part.count d + ((part' :: rest').map (·.count d)).sum := List.sum_cons
      rw [hsplit, List.count_append, List.count_append, List.count_singleton, ih, hsum]
      simp [h]

theorem count_page (lines : List (List Char)) :
    (['\n'].intercalate lines ++ ['\n']).count '\\' = (lines.map (·.count '\\')).sum := by
  rw [List.count_append, count_intercalate (by decide)]
  rfl

/-- Families of different names do not share a sample. -/
theorem cost_families (w : Sample → ℕ) {names : List (List Char)} (h : names.Nodup)
    (samples : List Sample) :
    (names.map fun n => ((samples.filter fun s => s.name = n).map w).sum).sum ≤
      (samples.map w).sum := by
  induction samples with
  | nil => simp
  | cons s rest ih =>
    have hone : ∀ names : List (List Char), names.Nodup →
        (names.map fun n => (((s :: rest).filter fun s => s.name = n).map w).sum).sum =
          (if s.name ∈ names then w s else 0) +
            (names.map fun n => ((rest.filter fun s => s.name = n).map w).sum).sum := by
      intro names hnames
      induction names with
      | nil => rfl
      | cons n more ihn =>
        obtain ⟨hnot, hmore⟩ := List.nodup_cons.mp hnames
        rw [List.map_cons, List.sum_cons, ihn hmore, List.map_cons, List.sum_cons]
        by_cases hn : s.name = n
        · have hnin : s.name ∉ more := hn ▸ hnot
          rw [if_neg hnin, if_pos (by rw [hn]; exact List.mem_cons_self),
            List.filter_cons_of_pos (by simpa using hn), List.map_cons, List.sum_cons]
          omega
        · rw [List.filter_cons_of_neg (by simpa using hn)]
          have hiff : s.name ∈ n :: more ↔ s.name ∈ more := by simp [hn]
          simp only [hiff]
          omega
    rw [hone names h, List.map_cons, List.sum_cons]
    split_ifs <;> omega

end image_gen.prometheus

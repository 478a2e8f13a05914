-- Writes to a file tree: `open` for writing, `rename` and `mkdir`. A path on
-- which no link stands is where its entry is.
import ImageGen.FileTree

namespace image_gen.file_tree

variable {α : Type*}

theorem lookup_append (entries entries' : List (Path × Node α)) (p : Path) :
    (entries ++ entries').lookup p = (entries.lookup p).or (entries'.lookup p) := by
  induction entries with
  | nil => simp
  | cons e rest ih =>
    rw [List.cons_append, List.lookup_cons, List.lookup_cons, ih]
    by_cases he : p = e.1
    · simp [he]
    · have hne : (p == e.1) = false := by simpa using he
      simp [hne]

theorem lookup_singleton (p q : Path) (node : Node α) :
    [(p, node)].lookup q = if q = p then some node else none := by
  by_cases hq : q = p
  · simp [hq]
  · have hne : (q == p) = false := by simpa using hq
    rw [List.lookup_cons, hne, if_neg hq]
    rfl

namespace FileTree

variable (t : FileTree α)

/-- An entry that is no directory can be put here. -/
def Free (p : Path) : Prop :=
  (∀ name ∈ p, Component name) ∧ t.isDirAt p.dropLast = true ∧ t.isDirAt p = false

instance (p : Path) : Decidable (t.Free p) := by unfold Free; infer_instance

theorem isDirAt_root : t.isDirAt [] = true := by
  simp [isDirAt, node?, nodeAt, Node.isDir]

variable {t} in
theorem Free.ne_root {p : Path} (h : t.Free p) : p ≠ [] := by
  rintro rfl
  have hno := h.2.2
  rw [t.isDirAt_root] at hno
  cases hno

/-- The tree with a node at `p`, in place of what stood there. -/
def put (p : Path) (node : Node α) (h : t.Free p) : FileTree α where
  entries := t.entries.filter (fun e => e.1 ≠ p) ++ [(p, node)]
  nodup := by
    rw [List.map_append, List.nodup_append]
    refine ⟨t.nodup.sublist (List.Sublist.map _ List.filter_sublist), List.nodup_singleton _, ?_⟩
    intro a ha b hb hab
    obtain ⟨e, he, rfl⟩ := List.mem_map.mp ha
    rw [List.map_singleton, List.mem_singleton] at hb
    simp [hab, hb] at he
  components := by
    intro e he
    rcases List.mem_append.mp he with he | he
    · exact t.components e (List.mem_of_mem_filter he)
    · rw [List.mem_singleton.mp he]
      exact h.1
  parents := by
    have hkept : ∀ q, q ≠ p → nodeAt (t.entries.filter (fun e => e.1 ≠ p) ++ [(p, node)]) q =
        t.node? q := by
      intro q hq
      unfold node? nodeAt
      rw [lookup_append, lookup_filter, if_neg hq, lookup_singleton, if_neg hq, Option.or_none]
    intro e he
    have hdir : t.isDirAt e.1.dropLast = true := by
      rcases List.mem_append.mp he with he | he
      · exact t.parents e (List.mem_of_mem_filter he)
      · rw [List.mem_singleton.mp he]
        exact h.2.1
    rw [hkept]
    · exact hdir
    · intro heq
      rw [heq, h.2.2] at hdir
      cases hdir

theorem node?_put (p : Path) (node : Node α) (h : t.Free p) (q : Path) :
    (t.put p node h).node? q = if q = p then some node else t.node? q := by
  unfold node? nodeAt put
  by_cases hq : q = []
  · simp [hq, h.ne_root.symm]
  rw [if_neg hq, lookup_append, lookup_filter, lookup_singleton]
  by_cases hp : q = p <;> simp [hp, hq]

/-! ## The calls -/

/-- `open(p, "wb")` and a write. A link is followed, and a file made anew. -/
def write (p : Path) (content : α) : Option (FileTree α) :=
  (t.locate p).bind fun e => if h : t.Free e then some (t.put e (.file content) h) else none

/-- `os.replace`, of an entry that is no directory. -/
def rename (src dst : Path) : Option (FileTree α) :=
  (t.entry src).bind fun e => (t.entry dst).bind fun d => (t.node? e).bind fun node =>
    if h : t.isDirAt e = false then
      if h' : (t.erase e h).Free d then some ((t.erase e h).put d node h') else none
    else none

/-- `os.mkdir`. -/
def makeDir (p : Path) : Option (FileTree α) :=
  (t.entry p).bind fun e =>
    if h : t.Free e ∧ t.node? e = none then some (t.put e .dir h.1) else none

/-- `mkdir(parents=True, exist_ok=True)`, of the path with its last name first. -/
def makeDirs : List String → Option (FileTree α)
  | [] => some t
  | name :: above =>
    let p := above.reverse ++ [name]
    if t.isDir p then some t else (makeDirs above).bind fun u => u.makeDir p

def mkdirs (p : Path) : Option (FileTree α) := t.makeDirs p.reverse

/-! ## Paths without links -/

/-- A walk along real directories ends at the last name, which is no link. -/
theorem follow_real (strict : Bool) (expand : Path → List String → Option Path)
    {here rest : Path} {name : String} (hdir : t.isDirAt (here ++ rest) = true)
    (hname : name ≠ "..")
    (hlink : ∀ absolute target, t.node? (here ++ rest ++ [name]) ≠ some (.link absolute target)) :
    t.follow strict expand here (rest ++ [name]) = some (here ++ rest ++ [name]) := by
  induction rest generalizing here with
  | nil =>
    rw [List.append_nil] at hdir hlink
    simp only [List.nil_append, follow, hdir, hname, Bool.not_true, Bool.and_false,
      Bool.false_eq_true, if_false, List.append_nil]
  | cons first rest ih =>
    have hnode : t.node? (here ++ first :: rest) ≠ none := by
      intro hnone
      rw [isDirAt, hnone] at hdir
      cases hdir
    have hsplit : here ++ first :: rest = here ++ [first] ++ rest := by simp
    have hhere : t.isDirAt here = true := t.isDirAt_of_append (by simp) hnode
    have hfirst : first ≠ ".." := (t.component_of_node hnode first (by simp)).2.2.1
    have hthere : t.isDirAt (here ++ [first]) = true := by
      by_cases hrest : rest = []
      · simpa [hrest] using hdir
      · rw [hsplit] at hnode
        exact t.isDirAt_of_append hrest hnode
    simp only [List.cons_append, follow, hhere, hfirst, Bool.not_true, Bool.and_false,
      Bool.false_eq_true, if_false]
    split
    · rename_i absolute target hlinked
      rw [isDirAt, hlinked] at hthere
      cases hthere
    · rw [hsplit] at hdir hlink ⊢
      exact ih hdir hlink

theorem walk_real (strict : Bool) (n : Nat) {dir : Path} {name : String}
    (hdir : t.isDirAt dir = true) (hname : name ≠ "..")
    (hlink : ∀ absolute target, t.node? (dir ++ [name]) ≠ some (.link absolute target)) :
    t.walk strict n [] (dir ++ [name]) = some (dir ++ [name]) := by
  cases n with
  | zero => exact t.follow_real strict _ hdir hname hlink
  | succ n => exact t.follow_real strict _ hdir hname hlink

/-! ## The calls, next to no link -/

section Plain

variable {t} {u : FileTree α} {dir : Path} {name : String}

/-- The entry is itself, and a walk to it ends there. -/
structure Plain (t : FileTree α) (dir : Path) (name : String) : Prop where
  above : t.isDirAt dir = true
  component : name ≠ ".."
  noLink : ∀ absolute target, t.node? (dir ++ [name]) ≠ some (.link absolute target)

theorem Plain.locate (h : t.Plain dir name) : t.locate (dir ++ [name]) = some (dir ++ [name]) :=
  t.walk_real true _ h.above h.component h.noLink

theorem Plain.realpath (h : t.Plain dir name) :
    t.realpath (dir ++ [name]) = some (dir ++ [name]) :=
  t.walk_real false _ h.above h.component h.noLink

/-- A directory without links on its way is where it is. -/
theorem walk_dir (strict : Bool) (n : Nat) (h : t.isDirAt dir = true) :
    t.walk strict n [] dir = some dir := by
  rcases List.eq_nil_or_concat dir with rfl | ⟨above, last, rfl⟩
  · cases n <;> rfl
  · rw [List.concat_eq_append] at h ⊢
    have hnode : t.node? (above ++ [last]) ≠ none := by
      intro hnone
      rw [isDirAt, hnone] at h
      cases h
    refine t.walk_real strict n (t.isDirAt_of_append (by simp) hnode) ?_ ?_
    · exact (t.component_of_node hnode last (by simp)).2.2.1
    · intro absolute target hlink
      rw [isDirAt, hlink] at h
      cases h

theorem entry_of_dir (h : t.isDirAt dir = true) (name : String) :
    t.entry (dir ++ [name]) = some (dir ++ [name]) := by
  simp [entry, FileTree.locate, walk_dir true _ h]

theorem Plain.stat (h : t.Plain dir name) : t.stat (dir ++ [name]) = t.node? (dir ++ [name]) := by
  rw [FileTree.stat, h.locate]
  rfl

theorem Plain.isFile_iff (h : t.Plain dir name) :
    t.isFile (dir ++ [name]) = true ↔ ∃ content, t.node? (dir ++ [name]) = some (.file content) := by
  unfold FileTree.isFile
  rw [h.stat]
  rcases t.node? (dir ++ [name]) with _ | node
  · simp
  · cases node <;> simp [Node.isFile]

theorem Plain.write (h : t.Plain dir name) {content : α}
    (hwrite : t.write (dir ++ [name]) content = some u) :
    ∀ q, u.node? q = if q = dir ++ [name] then some (.file content) else t.node? q := by
  unfold FileTree.write at hwrite
  rw [h.locate, Option.bind_some] at hwrite
  split at hwrite
  · cases hwrite
    exact t.node?_put _ _ _
  · cases hwrite

theorem rename_spec {name' : String} (h : t.isDirAt dir = true)
    (hrename : t.rename (dir ++ [name]) (dir ++ [name']) = some u) :
    ∃ node, t.node? (dir ++ [name]) = some node ∧ ∀ q, u.node? q =
      if q = dir ++ [name'] then some node
      else if q = dir ++ [name] then none else t.node? q := by
  unfold rename at hrename
  rw [entry_of_dir h, entry_of_dir h, Option.bind_some, Option.bind_some] at hrename
  obtain ⟨node, hnode, hrest⟩ := Option.bind_eq_some_iff.mp hrename
  split at hrest
  · rename_i hdir
    split at hrest
    · cases hrest
      refine ⟨node, hnode, fun q => ?_⟩
      rw [node?_put, t.node?_erase _ hdir]
    · cases hrest
  · cases hrest

/-- Where a strict walk ends, the other one ends too. -/
theorem follow_of_strict {expand expand' : Path → List String → Option Path}
    (hexpand : ∀ here rest e, expand here rest = some e → expand' here rest = some e)
    {here rest e : Path} (h : t.follow true expand here rest = some e) :
    t.follow false expand' here rest = some e := by
  induction rest generalizing here with
  | nil => exact h
  | cons name rest ih =>
    simp only [follow, Bool.true_and, Bool.not_eq_true', Bool.false_and, Bool.false_eq_true,
      if_false] at h ⊢
    split at h
    · cases h
    by_cases hname : name = ".."
    · rw [if_pos hname] at h ⊢
      exact ih h
    · rw [if_neg hname] at h ⊢
      split at h
      · rename_i absolute target hnode
        obtain ⟨q, hq, hrest⟩ := Option.bind_eq_some_iff.mp h
        simp only [hexpand _ _ _ hq, Option.bind_some]
        exact ih hrest
      · exact ih h

theorem walk_of_strict {n : Nat} {here rest e : Path} (h : t.walk true n here rest = some e) :
    t.walk false n here rest = some e := by
  induction n generalizing here rest e with
  | zero => exact follow_of_strict (fun _ _ _ hnone => by cases hnone) h
  | succ n ih => exact follow_of_strict (fun _ _ _ hwalk => ih hwalk) h

/-- What exists has a real path. -/
theorem realpath_of_locate {p e : Path} (h : t.locate p = some e) : t.realpath p = some e :=
  walk_of_strict h

end Plain

/-! ## New directories -/

section Grows

variable {t} {u v : FileTree α} {p p' : Path}

/-- The new tree has more directories on the way to the path, and is the old one
otherwise. -/
structure Grows (t u : FileTree α) (p : Path) : Prop where
  kept : ∀ q, t.node? q ≠ none → u.node? q = t.node? q
  added : ∀ q, t.node? q = none → u.node? q = none ∨ (u.node? q = some .dir ∧ q <+: p)

theorem grows_refl (t : FileTree α) (p : Path) : Grows t t p := ⟨fun _ _ => rfl, fun _ h => Or.inl h⟩

theorem Grows.trans (h : Grows t u p) (h' : Grows u v p') (hp : p <+: p') : Grows t v p' := by
  constructor
  · intro q hq
    have hu := h.kept q hq
    rw [h'.kept q (by rw [hu]; exact hq), hu]
  · intro q hq
    rcases h.added q hq with hnone | ⟨hdir, hpre⟩
    · exact h'.added q hnone
    · refine Or.inr ⟨?_, hpre.trans hp⟩
      rw [h'.kept q (by rw [hdir]; exact nofun), hdir]

/-- An entry that is no link stays none. -/
theorem Grows.noLink (h : Grows t u p) {q : Path}
    (hq : ∀ absolute target, t.node? q ≠ some (.link absolute target)) :
    ∀ absolute target, u.node? q ≠ some (.link absolute target) := by
  intro absolute target hlink
  by_cases hnone : t.node? q = none
  · rcases h.added q hnone with hno | ⟨hdir, -⟩
    · rw [hno] at hlink
      cases hlink
    · rw [hdir] at hlink
      cases hlink
  · rw [h.kept q hnone] at hlink
    exact hq absolute target hlink

theorem Grows.isDirAt (h : Grows t u p) {q : Path} (hq : t.isDirAt q = true) :
    u.isDirAt q = true := by
  unfold FileTree.isDirAt at hq ⊢
  rw [h.kept q]
  · exact hq
  · intro hnone
    rw [hnone] at hq
    cases hq

theorem makeDir_grows {dir : Path} {name : String} (h : t.isDirAt dir = true)
    (hmake : t.makeDir (dir ++ [name]) = some u) :
    Grows t u (dir ++ [name]) ∧ u.isDirAt (dir ++ [name]) = true := by
  unfold makeDir at hmake
  rw [entry_of_dir h, Option.bind_some] at hmake
  split at hmake
  · rename_i hfree
    cases hmake
    refine ⟨⟨fun q hq => ?_, fun q hq => ?_⟩, ?_⟩
    · rw [node?_put, if_neg]
      rintro rfl
      exact hq hfree.2
    · rw [node?_put]
      split
      · rename_i heq
        exact Or.inr ⟨rfl, heq ▸ List.prefix_refl _⟩
      · exact Or.inl hq
    · simp [FileTree.isDirAt, node?_put, Node.isDir]
  · cases hmake

/-- No link on the way to `p`, and no two dots. -/
structure Unlinked (t : FileTree α) (p : Path) : Prop where
  component : ∀ name ∈ p, name ≠ ".."
  noLink : ∀ q, q <+: p → ∀ absolute target, t.node? q ≠ some (.link absolute target)

theorem Unlinked.above (h : Unlinked t p) {q : Path} (hq : q <+: p) : Unlinked t q where
  component name hname := h.component name (hq.subset hname)
  noLink q' hq' := h.noLink q' (hq'.trans hq)

theorem Grows.unlinked (hg : Grows t u p') (h : Unlinked t p) : Unlinked u p :=
  ⟨h.component, fun q hq => hg.noLink (h.noLink q hq)⟩

/-- A walk along no link ends where it leads by name. -/
theorem follow_unlinked (expand : Path → List String → Option Path) {here rest e : Path}
    (h : Unlinked t (here ++ rest)) (hwalk : t.follow true expand here rest = some e) :
    e = here ++ rest := by
  induction rest generalizing here with
  | nil =>
    cases hwalk
    simp
  | cons name rest ih =>
    have hsplit : here ++ name :: rest = here ++ [name] ++ rest := by simp
    have hname : name ≠ ".." := h.component name (by simp)
    have hnoLink := h.noLink (here ++ [name]) (by rw [hsplit]; exact List.prefix_append _ _)
    by_cases hhere : t.isDirAt here = true
    · simp only [follow, hhere, hname, Bool.not_true, Bool.and_false, Bool.false_eq_true,
        if_false] at hwalk
      rw [hsplit] at h ⊢
      exact ih h hwalk
    · simp only [follow, hhere, Bool.not_false, Bool.and_self, if_true] at hwalk
      cases hwalk

theorem isDirAt_of_isDir (h : Unlinked t p) (hdir : t.isDir p = true) : t.isDirAt p = true := by
  unfold isDir FileTree.stat at hdir
  rcases hloc : t.locate p with _ | e
  · rw [hloc] at hdir
    cases hdir
  · have hwalk : ∃ expand, t.follow true expand [] p = some e := by
      unfold FileTree.locate at hloc
      generalize t.entries.length = n at hloc
      cases n <;> exact ⟨_, hloc⟩
    obtain ⟨expand, hwalk⟩ := hwalk
    have hreal : e = [] ++ p := follow_unlinked expand h hwalk
    rw [List.nil_append] at hreal
    subst hreal
    rw [hloc] at hdir
    exact hdir

/-- After `mkdir(parents=True)` the path is a real directory. -/
theorem makeDirs_spec {above : List String} (h : Unlinked t above.reverse)
    (hmake : t.makeDirs above = some u) :
    Grows t u above.reverse ∧ u.isDirAt above.reverse = true := by
  induction above generalizing u with
  | nil =>
    cases hmake
    exact ⟨grows_refl t _, t.isDirAt_root⟩
  | cons name above ih =>
    rw [List.reverse_cons] at h ⊢
    simp only [makeDirs] at hmake
    split at hmake
    · rename_i hdir
      cases hmake
      exact ⟨grows_refl t _, isDirAt_of_isDir h hdir⟩
    · obtain ⟨v, hv, hlast⟩ := Option.bind_eq_some_iff.mp hmake
      obtain ⟨hgrows, hdir⟩ := ih (h.above (List.prefix_append _ _)) hv
      obtain ⟨hgrows', hdir'⟩ := makeDir_grows hdir hlast
      exact ⟨hgrows.trans hgrows' (List.prefix_append _ _), hdir'⟩

theorem mkdirs_spec (h : Unlinked t p) (hmake : t.mkdirs p = some u) :
    Grows t u p ∧ u.isDirAt p = true := by
  have hrev : p.reverse.reverse = p := List.reverse_reverse p
  have hspec := makeDirs_spec (by rwa [hrev]) hmake
  rwa [hrev] at hspec

end Grows

end FileTree

end image_gen.file_tree

-- A tree of files as a POSIX system keeps it: every entry stands under its
-- real path, and a symbolic link is an entry of its own. A walk follows the
-- links. `realpath` also walks through what does not exist, `stat` does not.
import Mathlib.Data.List.Basic
import Mathlib.Data.List.Nodup
import Mathlib.Data.List.Induction

namespace image_gen.file_tree

/-- The components of an absolute path. The root is `[]`. -/
abbrev Path := List String

/-- A local instance where a list of paths is searched. -/
theorem lawfulPath : LawfulBEq Path := inferInstance

inductive Node (α : Type*)
  | file (content : α)
  | dir
  | link (absolute : Bool) (target : List String)

variable {α : Type*}

namespace Node

def isDir : Node α → Bool
  | .dir => true
  | _ => false

def isFile : Node α → Bool
  | .file _ => true
  | _ => false

/-- A file takes the place of anything but a directory. -/
def replace (content : α) : Node α → Node α
  | .dir => .dir
  | _ => .file content

@[simp] theorem isDir_replace (content : α) (node : Node α) :
    (node.replace content).isDir = node.isDir := by
  cases node <;> rfl

end Node

/-- What stands at a path. The root is a directory. -/
def nodeAt (entries : List (Path × Node α)) (p : Path) : Option (Node α) :=
  if p = [] then some .dir else entries.lookup p

/-- A name that a directory can hold. -/
def Component (name : String) : Prop :=
  name ≠ "" ∧ name ≠ "." ∧ name ≠ ".." ∧ '/' ∉ name.toList

instance (name : String) : Decidable (Component name) := by
  unfold Component; infer_instance

structure FileTree (α : Type*) where
  entries : List (Path × Node α)
  nodup : (entries.map (·.1)).Nodup
  components : ∀ e ∈ entries, ∀ name ∈ e.1, Component name
  /-- Every entry stands in a directory. -/
  parents : ∀ e ∈ entries, (nodeAt entries e.1.dropLast).any Node.isDir

/-! ## Lookups -/

theorem lookup_filter (entries : List (Path × Node α)) (p q : Path) :
    (entries.filter (fun e => e.1 ≠ p)).lookup q = if q = p then none else entries.lookup q := by
  induction entries with
  | nil => simp
  | cons e rest ih =>
    by_cases hp : e.1 = p
    · rw [List.filter_cons_of_neg (by simpa using hp), ih]
      by_cases hq : q = p
      · simp [hq]
      · have hne : (q == e.1) = false := by simpa [hp] using hq
        rw [List.lookup_cons, hne]
    · rw [List.filter_cons_of_pos (by simpa using hp), List.lookup_cons, List.lookup_cons, ih]
      by_cases he : q = e.1
      · have hq : q ≠ p := by
          rw [he]
          exact hp
        simp [he, hp]
      · have hne : (q == e.1) = false := by simpa using he
        simp [hne]

theorem lookup_map (entries : List (Path × Node α)) (f : Path → Node α → Node α) (q : Path) :
    (entries.map fun e => (e.1, f e.1 e.2)).lookup q = (entries.lookup q).map (f q) := by
  induction entries with
  | nil => rfl
  | cons e rest ih =>
    rw [List.map_cons, List.lookup_cons, List.lookup_cons, ih]
    by_cases he : q = e.1
    · simp [he]
    · have hne : (q == e.1) = false := by simpa using he
      simp [hne]

theorem mem_of_lookup {entries : List (Path × Node α)} {p : Path} {node : Node α}
    (h : entries.lookup p = some node) : (p, node) ∈ entries := by
  induction entries with
  | nil => cases h
  | cons e rest ih =>
    rw [List.lookup_cons] at h
    by_cases he : p = e.1
    · simp only [he, beq_self_eq_true, Option.some.injEq] at h
      rw [he, ← h]
      exact List.mem_cons_self
    · have hne : (p == e.1) = false := by simpa using he
      rw [hne] at h
      exact List.mem_cons_of_mem e (ih h)

namespace FileTree

variable (t : FileTree α)

def node? (p : Path) : Option (Node α) := nodeAt t.entries p

def isDirAt (p : Path) : Bool := (t.node? p).any Node.isDir

/-- What stands below an entry stands below directories only. -/
theorem isDirAt_of_append {p rest : Path} (hrest : rest ≠ []) (h : t.node? (p ++ rest) ≠ none) :
    t.isDirAt p = true := by
  induction rest using List.reverseRecOn with
  | nil => exact absurd rfl hrest
  | append_singleton init name ih =>
    have hparent : t.isDirAt (p ++ init) = true := by
      obtain ⟨node, hnode⟩ := Option.ne_none_iff_exists'.mp h
      unfold node? nodeAt at hnode
      rw [if_neg (by simp)] at hnode
      have := t.parents _ (mem_of_lookup hnode)
      rwa [← List.append_assoc, List.dropLast_concat] at this
    by_cases hinit : init = []
    · simpa [hinit] using hparent
    · apply ih hinit
      intro hnone
      rw [isDirAt, hnone] at hparent
      cases hparent

theorem component_of_node {p : Path} (h : t.node? p ≠ none) : ∀ name ∈ p, Component name := by
  by_cases hp : p = []
  · simp [hp]
  · obtain ⟨node, hnode⟩ := Option.ne_none_iff_exists'.mp h
    unfold node? nodeAt at hnode
    rw [if_neg hp] at hnode
    exact t.components _ (mem_of_lookup hnode)

/-! ## Walks -/

/-- A walk from a real directory along names. `expand` walks the target of a
link. A strict walk leaves directories only. -/
def follow (strict : Bool) (expand : Path → List String → Option Path) :
    Path → List String → Option Path
  | here, [] => some here
  | here, name :: rest =>
    if strict && !t.isDirAt here then none
    else if name = ".." then follow strict expand here.dropLast rest
    else
      match t.node? (here ++ [name]) with
      | some (.link absolute target) =>
        (expand (if absolute then [] else here) target).bind fun p => follow strict expand p rest
      | _ => follow strict expand (here ++ [name]) rest

/-- A walk with `n` links open at most. -/
def walk (strict : Bool) : Nat → Path → List String → Option Path
  | 0 => t.follow strict fun _ _ => none
  | n + 1 => t.follow strict (walk strict n)

/-- `Path.resolve()`. With more links open than there are entries, one is open
inside itself: this is the loop that `resolve` raises for. -/
def realpath (p : Path) : Option Path := t.walk false t.entries.length [] p

/-- Where a path that exists really stands. -/
def locate (p : Path) : Option Path := t.walk true t.entries.length [] p

def stat (p : Path) : Option (Node α) := (t.locate p).bind t.node?

def isFile (p : Path) : Bool := (t.stat p).any Node.isFile

def isDir (p : Path) : Bool := (t.stat p).any Node.isDir

/-- What a regular file holds. -/
def read (p : Path) : Option α :=
  match t.stat p with
  | some (.file content) => some content
  | _ => none

/-- A walk along the real path of a file meets no link. -/
theorem follow_file (strict : Bool) (expand : Path → List String → Option Path)
    {here rest : Path} {content : α} (h : t.node? (here ++ rest) = some (.file content)) :
    t.follow strict expand here rest = some (here ++ rest) := by
  induction rest generalizing here with
  | nil => simp [follow]
  | cons name rest ih =>
    have hsome : t.node? (here ++ name :: rest) ≠ none := by simp [h]
    have hhere : t.isDirAt here = true := t.isDirAt_of_append (by simp) hsome
    have hname : name ≠ ".." := (t.component_of_node hsome name (by simp)).2.2.1
    have hsplit : here ++ name :: rest = (here ++ [name]) ++ rest := by simp
    have hnolink : ∀ absolute target, t.node? (here ++ [name]) ≠ some (.link absolute target) := by
      intro absolute target hlink
      by_cases hrest : rest = []
      · rw [hrest, hlink] at h
        cases h
      · have hdir := t.isDirAt_of_append (p := here ++ [name]) hrest (by rwa [← hsplit])
        rw [isDirAt, hlink] at hdir
        cases hdir
    simp only [follow, hhere, hname, Bool.not_true, Bool.and_false, if_false, Bool.false_eq_true]
    rw [hsplit] at h ⊢
    rcases hnode : t.node? (here ++ [name]) with _ | node
    · exact ih h
    · cases node with
      | link absolute target => exact absurd hnode (hnolink absolute target)
      | file _ => exact ih h
      | dir => exact ih h

theorem walk_file (strict : Bool) (n : Nat) {p : Path} {content : α}
    (h : t.node? p = some (.file content)) : t.walk strict n [] p = some p := by
  cases n with
  | zero => exact t.follow_file strict _ h
  | succ n => exact t.follow_file strict _ h

theorem realpath_file {p : Path} {content : α} (h : t.node? p = some (.file content)) :
    t.realpath p = some p :=
  t.walk_file false _ h

theorem locate_file {p : Path} {content : α} (h : t.node? p = some (.file content)) :
    t.locate p = some p :=
  t.walk_file true _ h

/-- No name of the path is a link, and none goes up. -/
def Straight (p : Path) : Prop :=
  ∀ front name rest, p = front ++ name :: rest →
    name ≠ ".." ∧ ∀ absolute target, t.node? (front ++ [name]) ≠ some (.link absolute target)

section Straight

variable {t} {here rest p : Path} {name : String} {expand : Path → List String → Option Path}

theorem straight_nil : t.Straight [] := by
  intro front name rest h
  simp at h

/-- A tree without links. -/
theorem straight_of_entries (hlink : ∀ e ∈ t.entries, ∀ absolute target,
    e.2 ≠ .link absolute target) (hup : ".." ∉ p) : t.Straight p := by
  rintro front name rest rfl
  constructor
  · rintro rfl
    exact hup (by simp)
  · intro absolute target hnode
    unfold node? nodeAt at hnode
    rw [if_neg (by simp)] at hnode
    exact hlink _ (mem_of_lookup hnode) absolute target rfl

theorem Straight.of_append (h : t.Straight (p ++ q)) : t.Straight p := by
  intro front name rest heq
  exact h front name (rest ++ q) (by simp [heq])

theorem Straight.dropLast (h : t.Straight p) : t.Straight p.dropLast := by
  rcases List.eq_nil_or_concat' p with rfl | ⟨front, name, rfl⟩
  · exact h
  · rw [List.dropLast_concat]
    exact h.of_append

theorem Straight.concat (h : t.Straight here) (hname : name ≠ "..")
    (hlink : ∀ absolute target, t.node? (here ++ [name]) ≠ some (.link absolute target)) :
    t.Straight (here ++ [name]) := by
  intro front other rest heq
  rcases List.eq_nil_or_concat rest with rfl | ⟨init, last, rfl⟩
  · obtain ⟨rfl, hlast⟩ := List.append_inj' heq rfl
    rw [List.singleton_inj] at hlast
    exact hlast ▸ ⟨hname, hlink⟩
  · rw [List.concat_eq_append, ← List.cons_append, ← List.append_assoc] at heq
    exact h front other init (List.append_inj' heq rfl).1

theorem follow_straight
    (hexpand : ∀ here names p, t.Straight here → expand here names = some p → t.Straight p)
    (h : t.Straight here) (hfollow : t.follow false expand here rest = some p) : t.Straight p := by
  induction rest generalizing here with
  | nil =>
    cases hfollow
    exact h
  | cons name rest ih =>
    simp only [follow, Bool.false_and, Bool.false_eq_true, if_false] at hfollow
    split at hfollow
    · exact ih h.dropLast hfollow
    · next hname =>
      split at hfollow
      · next absolute target hlink =>
        obtain ⟨q, hq, hrest⟩ := Option.bind_eq_some_iff.mp hfollow
        refine ih (hexpand _ _ _ ?_ hq) hrest
        split
        · exact straight_nil
        · exact h
      · next hnolink => exact ih (h.concat hname hnolink) hfollow

theorem walk_straight {n : Nat} (h : t.Straight here)
    (hwalk : t.walk false n here rest = some p) : t.Straight p := by
  induction n generalizing here rest p with
  | zero => exact follow_straight (fun _ _ _ _ hnone => by cases hnone) h hwalk
  | succ n ih => exact follow_straight (fun _ _ _ hhere hq => ih hhere hq) h hwalk

theorem follow_of_straight (h : t.Straight (here ++ rest)) :
    t.follow false expand here rest = some (here ++ rest) := by
  induction rest generalizing here with
  | nil => simp [follow]
  | cons name rest ih =>
    obtain ⟨hname, hlink⟩ := h here name rest rfl
    have hsplit : here ++ name :: rest = (here ++ [name]) ++ rest := by simp
    rw [hsplit] at h ⊢
    simp only [follow, Bool.false_and, Bool.false_eq_true, if_false, hname]
    exact ih h

/-- A straight path resolves to itself. -/
theorem realpath_straight (h : t.Straight p) : t.realpath p = some p := by
  have hp : t.Straight ([] ++ p) := h
  unfold realpath
  cases t.entries.length with
  | zero => exact follow_of_straight hp
  | succ n => exact follow_of_straight hp

/-- A resolved path resolves to itself. -/
theorem realpath_realpath {q : Path} (h : t.realpath p = some q) : t.realpath q = some q := by
  exact realpath_straight (walk_straight straight_nil h)

theorem strict_follow_straight {q : Path} (h : t.Straight (here ++ rest))
    (hq : t.follow true expand here rest = some q) : q = here ++ rest := by
  induction rest generalizing here with
  | nil =>
    cases hq
    simp
  | cons name rest ih =>
    obtain ⟨hname, hlink⟩ := h here name rest rfl
    have hsplit : here ++ name :: rest = (here ++ [name]) ++ rest := by simp
    rw [hsplit] at h ⊢
    simp only [follow, Bool.true_and, hname, if_false] at hq
    split at hq
    · cases hq
    · exact ih h hq

/-- What stands at a straight path stands there. -/
theorem locate_straight {q : Path} (h : t.Straight p) (hq : t.locate p = some q) : q = p := by
  have hp : t.Straight ([] ++ p) := h
  unfold locate at hq
  cases hn : t.entries.length with
  | zero =>
    rw [hn] at hq
    exact strict_follow_straight hp hq
  | succ n =>
    rw [hn] at hq
    exact strict_follow_straight hp hq

/-- A tree without more links. -/
theorem Straight.of_nodes {u : FileTree α} (h : t.Straight p)
    (hnodes : ∀ q, u.node? q = none ∨ u.node? q = t.node? q) : u.Straight p := by
  intro front name rest heq
  obtain ⟨hname, hlink⟩ := h front name rest heq
  refine ⟨hname, fun absolute target hnode => ?_⟩
  rcases hnodes (front ++ [name]) with hnone | hsame
  · rw [hnone] at hnode
    cases hnode
  · exact hlink absolute target (hsame ▸ hnode)

end Straight

/-! ## Changes -/

/-- The tree without one entry that is no directory. -/
def erase (p : Path) (h : t.isDirAt p = false) : FileTree α where
  entries := t.entries.filter (fun e => e.1 ≠ p)
  nodup := t.nodup.sublist (List.Sublist.map _ List.filter_sublist)
  components e he := t.components e (List.mem_of_mem_filter he)
  parents := by
    intro e he
    have hdir := t.parents e (List.mem_of_mem_filter he)
    have hne : e.1.dropLast ≠ p := by
      intro heq
      rw [heq] at hdir
      exact Bool.noConfusion (hdir.symm.trans h)
    unfold nodeAt at *
    rwa [lookup_filter, if_neg hne]

theorem node?_erase (p : Path) (h : t.isDirAt p = false) (q : Path) :
    (t.erase p h).node? q = if q = p then none else t.node? q := by
  have hp : p ≠ [] := by
    intro heq
    simp [heq, isDirAt, node?, nodeAt, Node.isDir] at h
  unfold node? nodeAt erase
  by_cases hq : q = []
  · simp [hq, hp.symm]
  · rw [if_neg hq, if_neg hq]
    exact lookup_filter t.entries p q

/-- The entry that a path names. The last name is not followed. -/
def entry (p : Path) : Option Path :=
  match p.getLast? with
  | some name => (t.locate p.dropLast).map (· ++ [name])
  | none => none

theorem entry_straight {p e : Path} (h : t.Straight p.dropLast) (he : t.entry p = some e) :
    e = p := by
  unfold entry at he
  split at he
  · rename_i name hname
    obtain ⟨d, hd, rfl⟩ := Option.map_eq_some_iff.mp he
    rw [locate_straight h hd, List.dropLast_append_getLast? name hname]
  · cases he

/-- `os.unlink`. There is none where it raises `OSError`. -/
def unlink (p : Path) : Option (FileTree α) :=
  (t.entry p).bind fun e =>
    if h : t.isDirAt e = false then
      if (t.node? e).isSome then some (t.erase e h) else none
    else none

theorem unlink_some {t u : FileTree α} {p : Path} (h : t.unlink p = some u) :
    ∃ e, t.entry p = some e ∧ t.node? e ≠ none ∧
      ∀ q, u.node? q = if q = e then none else t.node? q := by
  obtain ⟨e, he, hrest⟩ := Option.bind_eq_some_iff.mp h
  split at hrest
  · rename_i hdir
    split at hrest
    · rename_i hsome
      cases hrest
      exact ⟨e, he, Option.isSome_iff_ne_none.mp hsome, t.node?_erase e hdir⟩
    · cases hrest
  · cases hrest

/-- `os.replace` of the entry at a real path by a new file. -/
def replace (p : Path) (content : α) : FileTree α where
  entries := t.entries.map fun e => (e.1, if e.1 = p then e.2.replace content else e.2)
  nodup := by
    rw [List.map_map]
    exact t.nodup
  components := by
    intro e he
    obtain ⟨d, hd, rfl⟩ := List.mem_map.mp he
    exact t.components d hd
  parents := by
    intro e he
    obtain ⟨d, hd, rfl⟩ := List.mem_map.mp he
    have hdir := t.parents d hd
    unfold nodeAt at *
    rw [lookup_map t.entries fun q node => if q = p then node.replace content else node]
    by_cases hroot : d.1.dropLast = []
    · simp [hroot, Node.isDir]
    · simp only [hroot, if_false] at hdir ⊢
      rw [Option.any_map]
      convert hdir using 2
      funext node
      by_cases hp : d.1.dropLast = p <;> simp [hp]

/-- It removes no entry. -/
theorem node?_replace_ne_none (p : Path) (content : α) {q : Path} (h : t.node? q ≠ none) :
    (t.replace p content).node? q ≠ none := by
  unfold node? nodeAt replace at *
  by_cases hq : q = []
  · simp [hq]
  · rw [if_neg hq] at h ⊢
    rw [lookup_map t.entries fun r node => if r = p then node.replace content else node]
    simpa using h

end FileTree

end image_gen.file_tree

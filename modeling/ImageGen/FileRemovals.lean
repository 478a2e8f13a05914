-- Trees that lose files: a walk never needs more links open than there are
-- entries, and what is left stands where it stood.
import Mathlib.Data.List.Perm.Subperm
import ImageGen.FileWrites

namespace image_gen.file_tree

variable {α : Type*}

namespace FileTree

section Fuel

variable {t : FileTree α} {strict : Bool} {n m : Nat} {here rest e : Path}

/-- What a walk with `n` links open at most does at a link. -/
def expandAt (t : FileTree α) (strict : Bool) : Nat → Path → List String → Option Path
  | 0 => fun _ _ => none
  | n + 1 => t.walk strict n

theorem walk_eq (n : Nat) : t.walk strict n = t.follow strict (t.expandAt strict n) := by
  cases n <;> rfl

/-- A walk only asks where the links of the tree lead. -/
theorem follow_congr {expand expand' : Path → List String → Option Path}
    (hlinks : ∀ x absolute target p, t.node? x = some (.link absolute target) →
      expand (if absolute then [] else x.dropLast) target = some p →
      expand' (if absolute then [] else x.dropLast) target = some p)
    (h : t.follow strict expand here rest = some e) :
    t.follow strict expand' here rest = some e := by
  induction rest generalizing here with
  | nil => exact h
  | cons name rest ih =>
    simp only [follow] at h ⊢
    by_cases hleft : (strict && !t.isDirAt here) = true
    · rw [if_pos hleft] at h
      cases h
    rw [if_neg hleft] at h ⊢
    by_cases hup : name = ".."
    · rw [if_pos hup] at h ⊢
      exact ih h
    rw [if_neg hup] at h ⊢
    split at h
    · rename_i absolute target hnode
      obtain ⟨p, hp, hrest⟩ := Option.bind_eq_some_iff.mp h
      have hx := hlinks _ absolute target p hnode (by simpa using hp)
      rw [List.dropLast_concat] at hx
      simp only [hx, Option.bind_some]
      exact ih hrest
    · exact ih h

theorem walk_succ (h : t.walk strict n here rest = some e) :
    t.walk strict (n + 1) here rest = some e := by
  induction n generalizing here rest e with
  | zero => exact follow_congr (fun _ _ _ _ _ hnone => by cases hnone) h
  | succ n ih => exact follow_congr (fun _ _ _ _ _ hp => ih hp) h

theorem walk_mono (hle : n ≤ m) (h : t.walk strict n here rest = some e) :
    t.walk strict m here rest = some e := by
  induction hle with
  | refl => exact h
  | step _ ih => exact walk_succ ih

theorem expandAt_mono (hle : n ≤ m) (h : t.expandAt strict n here rest = some e) :
    t.expandAt strict m here rest = some e := by
  cases n with
  | zero => cases h
  | succ n =>
    cases m with
    | zero => omega
    | succ m => exact walk_mono (by omega) h

/-- Where the link at an entry leads, with `n` links open at most. -/
def leads (t : FileTree α) (strict : Bool) (n : Nat) (x : Path) : Option Path :=
  match t.node? x with
  | some (.link absolute target) =>
    t.expandAt strict n (if absolute then [] else x.dropLast) target
  | _ => none

theorem leads_mono (hle : n ≤ m) {x p : Path} (h : t.leads strict n x = some p) :
    t.leads strict m x = some p := by
  unfold leads at h ⊢
  split at h
  · exact expandAt_mono hle h
  · cases h

/-- The link leads on with `n + 1` links open and no fewer. -/
def Deep (t : FileTree α) (strict : Bool) (n : Nat) (x : Path) : Prop :=
  t.leads strict (n + 1) x ≠ none ∧ t.leads strict n x = none

theorem deep_unique {x : Path} (hn : t.Deep strict n x) (hm : t.Deep strict m x) : n = m := by
  by_contra hne
  rcases Nat.lt_or_gt_of_ne hne with hlt | hlt
  · obtain ⟨p, hp⟩ := Option.ne_none_iff_exists'.mp hn.1
    have hnone := hm.2
    rw [leads_mono hlt hp] at hnone
    cases hnone
  · obtain ⟨p, hp⟩ := Option.ne_none_iff_exists'.mp hm.1
    have hnone := hn.2
    rw [leads_mono hlt hp] at hnone
    cases hnone

/-- A walk that needs one more link open comes to such a link. -/
theorem exists_deep (h : t.walk strict (n + 1) here rest = some e)
    (hno : t.walk strict n here rest ≠ some e) : ∃ x, t.Deep strict n x := by
  by_contra hnone
  apply hno
  rw [walk_eq] at h ⊢
  refine follow_congr ?_ h
  intro x absolute target p hnode hp
  have hleads : t.leads strict (n + 1) x = some p := by
    simp only [leads, hnode]
    exact hp
  rcases hless : t.leads strict n x with _ | q
  · exact absurd ⟨x, by simp [hleads], hless⟩ hnone
  · have hq := leads_mono (Nat.le_succ n) hless
    rw [hleads, Option.some.injEq] at hq
    rw [← hq] at hless
    simpa only [leads, hnode] using hless

theorem deep_below {x : Path} (h : t.Deep strict (n + 1) x) : ∃ y, t.Deep strict n y := by
  obtain ⟨hsome, hnone⟩ := h
  obtain ⟨p, hp⟩ := Option.ne_none_iff_exists'.mp hsome
  unfold leads at hp hnone
  split at hp
  · rename_i absolute target hnode
    refine exists_deep hp ?_
    simp only [hnode] at hnone
    intro hless
    rw [show t.expandAt strict (n + 1) = t.walk strict n from rfl, hless] at hnone
    cases hnone
  · cases hp

theorem deep_all {x : Path} (h : t.Deep strict n x) : ∀ m ≤ n, ∃ y, t.Deep strict m y := by
  induction n generalizing x with
  | zero =>
    intro m hm
    obtain rfl : m = 0 := by omega
    exact ⟨x, h⟩
  | succ n ih =>
    intro m hm
    by_cases heq : m = n + 1
    · exact ⟨x, heq ▸ h⟩
    · obtain ⟨y, hy⟩ := deep_below h
      exact ih hy m (by omega)

theorem Deep.mem {x : Path} (h : t.Deep strict n x) : x ∈ t.entries.map (·.1) := by
  have hsome := h.1
  unfold leads at hsome
  split at hsome
  · rename_i absolute target hnode
    unfold node? nodeAt at hnode
    split at hnode
    · cases hnode
    · exact List.mem_map.mpr ⟨_, mem_of_lookup hnode, rfl⟩
  · exact absurd rfl hsome

/-- Links of every depth are different entries. -/
theorem deep_lt {x : Path} (h : t.Deep strict n x) : n < t.entries.length := by
  choose! f hf using deep_all h
  have hnodup : ((List.range (n + 1)).map f).Nodup := by
    apply List.Nodup.map_on
    · intro a ha b hb hab
      rw [List.mem_range] at ha hb
      have hfa := hf a (by omega)
      rw [hab] at hfa
      exact deep_unique hfa (hf b (by omega))
    · exact List.nodup_range
  have hsub : (List.range (n + 1)).map f ⊆ t.entries.map (·.1) := by
    intro y hy
    obtain ⟨m, hm, rfl⟩ := List.mem_map.mp hy
    rw [List.mem_range] at hm
    exact (hf m (by omega)).mem
  have hlen := (hnodup.subperm hsub).length_le
  simp only [List.length_map, List.length_range] at hlen
  omega

/-- As many open links as entries are enough. -/
theorem walk_enough (h : t.walk strict n here rest = some e) :
    t.walk strict t.entries.length here rest = some e := by
  induction n with
  | zero => exact walk_mono (Nat.zero_le _) h
  | succ n ih =>
    by_cases hless : t.walk strict n here rest = some e
    · exact ih hless
    · obtain ⟨x, hx⟩ := exists_deep h hless
      exact walk_mono (deep_lt hx) h

end Fuel

/-! ## Walks in two parts -/

section Parts

variable {t : FileTree α} {strict : Bool} {expand : Path → List String → Option Path}

theorem follow_append (here rest rest' : Path) :
    t.follow strict expand here (rest ++ rest') =
      (t.follow strict expand here rest).bind fun p => t.follow strict expand p rest' := by
  induction rest generalizing here with
  | nil => rfl
  | cons name rest ih =>
    simp only [List.cons_append, follow]
    split
    · rfl
    split
    · exact ih _
    split
    · rename_i absolute target _
      rw [Option.bind_assoc]
      congr 1
      funext p
      exact ih p
    · exact ih _

/-- A walk down real directories. -/
theorem follow_dir {here rest : Path} (h : t.isDirAt (here ++ rest) = true) :
    t.follow strict expand here rest = some (here ++ rest) := by
  rcases List.eq_nil_or_concat rest with rfl | ⟨above, last, rfl⟩
  · simp [follow]
  rw [List.concat_eq_append] at h ⊢
  rw [← List.append_assoc] at h ⊢
  have hnode : t.node? (here ++ above ++ [last]) ≠ none := by
    intro hnone
    rw [isDirAt, hnone] at h
    cases h
  refine t.follow_real strict expand (t.isDirAt_of_append (by simp) hnode) ?_ ?_
  · exact (t.component_of_node hnode last (by simp)).2.2.1
  · intro absolute target hlink
    rw [isDirAt, hlink] at h
    cases h

theorem locate_append {p rest base : Path} (h : t.locate p = some base)
    (hdir : t.isDirAt (base ++ rest) = true) : t.locate (p ++ rest) = some (base ++ rest) := by
  unfold locate at h ⊢
  rw [walk_eq] at h ⊢
  rw [follow_append, h]
  exact follow_dir hdir

/-- A name is found in a directory wherever the directory stands. -/
theorem locate_name {p d : Path} (h : t.locate p = some d) (hdir : t.isDirAt d = true)
    (name : String) : t.locate (p ++ [name]) = t.locate (d ++ [name]) := by
  have hd : t.locate d = some d := walk_dir true _ hdir
  unfold locate at h hd ⊢
  rw [walk_eq] at h hd ⊢
  rw [follow_append, follow_append, h, hd]

theorem isFile_name {p d : Path} (h : t.locate p = some d) (hdir : t.isDirAt d = true)
    (name : String) : t.isFile (p ++ [name]) = t.isFile (d ++ [name]) := by
  rw [isFile, isFile, stat, stat, locate_name h hdir]

/-- A real directory is no file. -/
theorem isFile_of_isDirAt {p : Path} (h : t.isDirAt p = true) : t.isFile p = false := by
  have hloc : t.locate p = some p := walk_dir true _ h
  rw [isFile, stat, hloc, Option.bind_some]
  unfold isDirAt at h
  rcases hnode : t.node? p with _ | node <;> rw [hnode] at h
  · cases h
  · cases node <;> simp_all [Node.isFile, Node.isDir]

theorem exists_of_isDirAt {p : Path} (h : t.isDirAt p = true) : t.node? p ≠ none := by
  intro hnone
  rw [isDirAt, hnone] at h
  cases h

/-- A strict walk that ends at an entry starts at one. -/
theorem exists_of_follow {here rest e : Path} (h : t.follow true expand here rest = some e)
    (he : t.node? e ≠ none) : t.node? here ≠ none := by
  cases rest with
  | nil =>
    cases h
    exact he
  | cons name rest =>
    by_cases hdir : t.isDirAt here = true
    · exact exists_of_isDirAt hdir
    · simp [follow, hdir] at h

/-- A strict walk that ends in a directory starts in one. -/
theorem isDirAt_of_follow {here rest e : Path} (h : t.follow true expand here rest = some e)
    (he : t.isDirAt e = true) : t.isDirAt here = true := by
  cases rest with
  | nil =>
    cases h
    exact he
  | cons name rest =>
    by_contra hdir
    simp [follow, hdir] at h

end Parts

/-! ## Fewer files -/

/-- `u` is `t` without some entries, each of which was a file or led to one. -/
structure Shrinks (t u : FileTree α) : Prop where
  sublist : u.entries.Sublist t.entries
  files : ∀ q, t.node? q ≠ none → u.node? q = none → t.isFile q = true

section Shrinks

variable {t u v : FileTree α}

theorem node?_eq_some {q : Path} {node : Node α} (hq : q ≠ []) :
    t.node? q = some node ↔ (q, node) ∈ t.entries := by
  unfold node? nodeAt
  rw [if_neg hq]
  refine ⟨mem_of_lookup, fun h => ?_⟩
  obtain ⟨node', hnode'⟩ : ∃ node', t.entries.lookup q = some node' := by
    rcases hlook : t.entries.lookup q with _ | node'
    · have := List.lookup_eq_none_iff.mp hlook _ h
      simp at this
    · exact ⟨node', rfl⟩
  have hsame := List.inj_on_of_nodup_map t.nodup (mem_of_lookup hnode') h rfl
  rw [hnode', (Prod.mk.inj hsame).2]

namespace Shrinks

theorem kept (h : Shrinks t u) {q : Path} {node : Node α} (hq : u.node? q = some node) :
    t.node? q = some node := by
  by_cases hroot : q = []
  · subst hroot
    exact hq
  · rw [node?_eq_some hroot] at hq ⊢
    exact h.sublist.subset hq

theorem same (h : Shrinks t u) {q : Path} (hq : u.node? q ≠ none) : u.node? q = t.node? q := by
  obtain ⟨node, hnode⟩ := Option.ne_none_iff_exists'.mp hq
  rw [hnode, h.kept hnode]

theorem isDirAt (h : Shrinks t u) {q : Path} (hq : t.isDirAt q = true) : u.isDirAt q = true := by
  have hsome : u.node? q ≠ none := by
    intro hnone
    have hfile := h.files q (exists_of_isDirAt hq) hnone
    rw [isFile_of_isDirAt hq] at hfile
    cases hfile
  unfold FileTree.isDirAt
  rw [h.same hsome]
  exact hq

/-- What is left stands where it stood. -/
theorem follow_up (h : Shrinks t u) {expand expand' : Path → List String → Option Path}
    (hexpand : ∀ here rest e, expand here rest = some e → u.node? e ≠ none →
      expand' here rest = some e) {here rest e : Path}
    (hwalk : u.follow true expand here rest = some e) (he : u.node? e ≠ none) :
    t.follow true expand' here rest = some e := by
  induction rest generalizing here with
  | nil => exact hwalk
  | cons name rest ih =>
    by_cases hhere : u.isDirAt here = true
    on_goal 2 => simp [follow, hhere] at hwalk
    have hthere : t.isDirAt here = true := by
      unfold FileTree.isDirAt at hhere ⊢
      rwa [← h.same (exists_of_isDirAt hhere)]
    simp only [follow, hhere, hthere, Bool.not_true, Bool.and_false, Bool.false_eq_true,
      if_false] at hwalk ⊢
    by_cases hup : name = ".."
    · rw [if_pos hup] at hwalk ⊢
      exact ih hwalk
    rw [if_neg hup] at hwalk ⊢
    split at hwalk
    · rename_i absolute target hnode
      obtain ⟨p, hp, hrest⟩ := Option.bind_eq_some_iff.mp hwalk
      rw [h.kept hnode]
      simp only [hexpand _ _ _ hp (exists_of_follow hrest he), Option.bind_some]
      exact ih hrest
    · rename_i hnoLink
      rw [← h.same (exists_of_follow hwalk he)]
      split
      · rename_i absolute target hnode
        exact absurd hnode (hnoLink absolute target)
      · exact ih hwalk

theorem walk_up (h : Shrinks t u) {n : Nat} {here rest e : Path}
    (hwalk : u.walk true n here rest = some e) (he : u.node? e ≠ none) :
    t.walk true n here rest = some e := by
  induction n generalizing here rest e with
  | zero => exact h.follow_up (fun _ _ _ hnone => by cases hnone) hwalk he
  | succ n ih => exact h.follow_up (fun _ _ _ hp hsome => ih hp hsome) hwalk he

theorem stat_up (h : Shrinks t u) {p : Path} {node : Node α} (hp : u.stat p = some node) :
    t.stat p = some node := by
  obtain ⟨e, he, hnode⟩ := Option.bind_eq_some_iff.mp hp
  have hloc : t.locate p = some e := walk_enough (h.walk_up he (by rw [hnode]; exact nofun))
  rw [stat, hloc, Option.bind_some]
  exact h.kept hnode

theorem read_up (h : Shrinks t u) {p : Path} {content : α} (hp : u.read p = some content) :
    t.read p = some content := by
  unfold read at hp ⊢
  split at hp
  · rename_i c hstat
    rw [h.stat_up hstat]
    exact hp
  · cases hp

/-- A link to a directory is no entry that went. -/
theorem link_kept (h : Shrinks t u) {n : Nat} {x p : Path} (hleads : t.leads true n x = some p)
    (hp : t.isDirAt p = true) : u.node? x = t.node? x := by
  unfold leads at hleads
  split at hleads
  on_goal 2 => cases hleads
  rename_i absolute target hnode
  apply h.same
  intro hnone
  have hsome : t.node? x ≠ none := by simp [hnode]
  have hfile := h.files x hsome hnone
  obtain ⟨above, name, rfl⟩ : ∃ above name, x = above ++ [name] := by
    rcases List.eq_nil_or_concat x with rfl | ⟨above, name, rfl⟩
    · simp [node?, nodeAt] at hnode
    · exact ⟨above, name, List.concat_eq_append⟩
  rw [List.dropLast_concat] at hleads
  have habove : t.isDirAt above = true := t.isDirAt_of_append (by simp) hsome
  have hname : name ≠ ".." := (t.component_of_node hsome name (by simp)).2.2.1
  have hmore : t.walk true (t.entries.length + n) [] (above ++ [name]) = some p := by
    rw [walk_eq, follow_append, follow_dir habove, List.nil_append, Option.bind_some]
    simp only [follow, habove, hname, hnode, Bool.not_true, Bool.and_false, Bool.false_eq_true,
      if_false]
    rw [expandAt_mono (Nat.le_add_left n _) hleads]
    rfl
  have hloc : t.locate (above ++ [name]) = some p := walk_enough hmore
  rw [isFile, stat, hloc, Option.bind_some] at hfile
  unfold FileTree.isDirAt at hp
  rcases hnode' : t.node? p with _ | node <;> rw [hnode'] at hfile hp
  · cases hp
  · cases node <;> simp [Node.isFile, Node.isDir] at hfile hp

/-- A directory is found the way it was. -/
theorem follow_down (h : Shrinks t u) {n : Nat} {expand : Path → List String → Option Path}
    (hexpand : ∀ here rest e, t.expandAt true n here rest = some e → t.isDirAt e = true →
      expand here rest = some e) {here rest e : Path}
    (hwalk : t.follow true (t.expandAt true n) here rest = some e) (he : t.isDirAt e = true) :
    u.follow true expand here rest = some e := by
  induction rest generalizing here with
  | nil => exact hwalk
  | cons name rest ih =>
    have hhere := isDirAt_of_follow hwalk he
    have hthere := h.isDirAt hhere
    simp only [follow, hhere, hthere, Bool.not_true, Bool.and_false, Bool.false_eq_true,
      if_false] at hwalk ⊢
    by_cases hup : name = ".."
    · rw [if_pos hup] at hwalk ⊢
      exact ih hwalk
    rw [if_neg hup] at hwalk ⊢
    split at hwalk
    · rename_i absolute target hnode
      obtain ⟨p, hp, hrest⟩ := Option.bind_eq_some_iff.mp hwalk
      have hdir := isDirAt_of_follow hrest he
      have hleads : t.leads true n (here ++ [name]) = some p := by
        simp only [leads, hnode, List.dropLast_concat]
        exact hp
      rw [h.link_kept hleads hdir, hnode]
      simp only [hexpand _ _ _ hp hdir, Option.bind_some]
      exact ih hrest
    · rename_i hnoLink
      have hdir := isDirAt_of_follow hwalk he
      rw [h.same (exists_of_isDirAt (h.isDirAt hdir))]
      split
      · rename_i absolute target hnode
        exact absurd hnode (hnoLink absolute target)
      · exact ih hwalk

theorem walk_down (h : Shrinks t u) {n : Nat} {here rest e : Path}
    (hwalk : t.walk true n here rest = some e) (he : t.isDirAt e = true) :
    u.walk true n here rest = some e := by
  induction n generalizing here rest e with
  | zero => exact h.follow_down (n := 0) (fun _ _ _ hnone => by cases hnone) hwalk he
  | succ n ih => exact h.follow_down (n := n + 1) (fun _ _ _ hp hdir => ih hp hdir) hwalk he

theorem locate_down (h : Shrinks t u) {p e : Path} (hloc : t.locate p = some e)
    (he : t.isDirAt e = true) : u.locate p = some e :=
  walk_enough (h.walk_down hloc he)

end Shrinks

theorem shrinks_refl (t : FileTree α) : Shrinks t t :=
  ⟨List.Sublist.refl _, fun _ hsome hnone => absurd hnone hsome⟩

/-- One more file goes. -/
theorem Shrinks.unlink (h : Shrinks t u) {p e : Path} (hentry : u.entry p = some e)
    (hfile : t.isFile e = true) (hunlink : u.unlink p = some v) : Shrinks t v := by
  obtain ⟨e', he', hrest⟩ := Option.bind_eq_some_iff.mp hunlink
  rw [hentry, Option.some.injEq] at he'
  subst he'
  split at hrest
  on_goal 2 => cases hrest
  rename_i hdir
  split at hrest
  on_goal 2 => cases hrest
  cases hrest
  refine ⟨List.filter_sublist.trans h.sublist, fun q hsome hnone => ?_⟩
  rw [u.node?_erase e hdir] at hnone
  by_cases heq : q = e
  · exact heq ▸ hfile
  · rw [if_neg heq] at hnone
    exact h.files q hsome hnone

/-- It can go while it is there. -/
theorem Shrinks.unlink_some (h : Shrinks t u) {p e : Path} (hentry : u.entry p = some e)
    (hfile : t.isFile e = true) (hsome : u.node? e ≠ none) : ∃ v, u.unlink p = some v := by
  have hdir : u.isDirAt e = false := by
    by_contra hdir
    rw [Bool.not_eq_false] at hdir
    have hthere : t.isDirAt e = true := by
      unfold FileTree.isDirAt at hdir ⊢
      rwa [← h.same hsome]
    rw [isFile_of_isDirAt hthere] at hfile
    cases hfile
  have hthere : (u.node? e).isSome = true := Option.isSome_iff_ne_none.mpr hsome
  refine ⟨u.erase e hdir, ?_⟩
  simp [FileTree.unlink, hentry, hdir, hthere]

/-- An entry of a directory stays where it is. -/
theorem Shrinks.entry_under (h : Shrinks t u) {dir base above : Path}
    (hloc : t.locate dir = some base) (habove : t.isDirAt (base ++ above) = true)
    (name : String) :
    u.entry (dir ++ (above ++ [name])) = some (base ++ (above ++ [name])) := by
  have hdir : t.locate (dir ++ above) = some (base ++ above) := locate_append hloc habove
  rw [← List.append_assoc, ← List.append_assoc]
  simp [entry, h.locate_down hdir habove]

end Shrinks

end FileTree

end image_gen.file_tree

-- One call of `evict_for` on a tree that nothing else writes to: which files
-- it deletes and in which order, what it leaves, and when it gives up.
import ImageGen.Eviction
import ImageGen.FileRemovals
import ImageGen.Results
import ImageGen.SortedPrefix
import Mathlib.Data.Int.ConditionallyCompleteOrder
import Mathlib.Order.ConditionallyCompleteLattice.Basic

namespace image_gen.evict_for

open image_gen.json image_gen.job_store image_gen.file_tree image_gen.lora_files
  image_gen.eviction image_gen.results image_gen.sorted_prefix

/-! ## The call -/

/-- What a call meets. The answers and the refusals at the turn of a candidate
go by its path. -/
structure Surroundings where
  protectedByJobs : List String
  now : Int
  freshProtected : Path → List String
  refused : Path → List Path

inductive Fate
  /-- A job that came meanwhile lists it. -/
  | rechecked
  | undeletable
  | deleted
  deriving DecidableEq

structure Call where
  tree : LoraTree
  /-- The candidates that had their turn. -/
  turns : List (Path × Fate)
  pc : Pc

def Call.after (turn : Path × Fate) (call : Call) : Call :=
  { call with turns := turn :: call.turns }

def unlinkLoop (a : Surroundings) : LoraTree → Progress → List Candidate → Call
  | t, p, [] => ⟨t, [], loop p []⟩
  | t, p, c :: rest =>
    if p.reclaimed < p.required then
      if c.canonicalName ∈ a.freshProtected c.path then
        (unlinkLoop a t p rest).after (c.path, .rechecked)
      else
        match evict t (a.refused c.path) c with
        | some u =>
          (unlinkLoop a u { p with reclaimed := p.reclaimed + c.size } rest).after
            (c.path, .deleted)
        | none => (unlinkLoop a t p rest).after (c.path, .undeletable)
    else ⟨t, [], .returned p.reclaimed⟩

def evictFor (cfg : Setting) (t : LoraTree) (a : Surroundings) : Call :=
  match start cfg t with
  | .asking required =>
    match cfg.select t a.protectedByJobs a.now with
    | .ok candidates => unlinkLoop a t ⟨required, 0, candidates.length⟩ candidates
    | .error message => ⟨t, [], .raised message⟩
  | pc => ⟨t, [], pc⟩

/-! ## What it is for -/

def required (cfg : Setting) (t : LoraTree) : Int :=
  cfg.incomingSize - (cfg.dirMaxBytes - directorySize t cfg.civitaiRoot)

/-- The object in a sidecar. -/
def sidecarOf (t : LoraTree) (path : Path) : Option (List (String × Json)) :=
  match t.read (sidecarPath path) with
  | some ⟨_, .value (.obj data)⟩ => some data
  | _ => none

/-- `⊥` where it is absent or no time. -/
def lastUsed (cfg : Setting) (t : LoraTree) (path : Path) : WithBot Int :=
  (sidecarOf t path).bind cfg.lastUsedDt

def sizeOf (t : LoraTree) (path : Path) : Nat := ((t.read path).map (·.size)).getD 0

structure Eligible (cfg : Setting) (t : LoraTree) (protectedByJobs : List String) (now : Int)
    (path : Path) : Prop where
  listed : path ∈ rglobSafetensors t cfg.civitaiRoot
  file : t.isFile path = true
  sidecar : ∃ data, sidecarOf t path = some data ∧ Json.get data "source" = .str "civitai"
  unprotected : cfg.canonicalName path ∉ protectedByJobs
  stale : lastUsed cfg t path ≤ (now - cfg.recentUseDays * dayMicros : Int)

attribute [local instance] lawfulPath

/-- What becomes of a candidate that has its turn. -/
def fate (cfg : Setting) (a : Surroundings) (path : Path) : Fate :=
  if cfg.canonicalName path ∈ a.freshProtected path then .rechecked
  else if path ∈ a.refused path then .undeletable
  else .deleted

/-- The bytes that a candidate can give. -/
def gain (cfg : Setting) (t : LoraTree) (a : Surroundings) (path : Path) : Nat :=
  if fate cfg a path = .deleted then sizeOf t path else 0

/-- The call does what it is for. `line` is the order of the candidates. -/
structure Meets (cfg : Setting) (t : LoraTree) (a : Surroundings) (call : Call)
    (line : List Path) : Prop where
  eligible : ∀ path, path ∈ line ↔ Eligible cfg t a.protectedByJobs a.now path
  nodup : line.Nodup
  /-- The least recently used first, and before them those never used. -/
  oldestFirst : line.Pairwise fun p q => lastUsed cfg t p ≤ lastUsed cfg t q
  inLine : call.turns.map (·.1) <+: line
  fates : ∀ turn ∈ call.turns, turn.2 = fate cfg a turn.1
  /-- A candidate has a turn only while more is required. -/
  stops : ∀ before turn after, call.turns = before ++ turn :: after →
    (gained (gain cfg t a) (before.map (·.1)) : Int) < required cfg t
  /-- No file goes but those that have their turn, with their sidecars. -/
  removed : ∀ q, t.node? q ≠ none → call.tree.node? q = none → ∃ path,
    (path, .deleted) ∈ call.turns ∧ (t.entry path = some q ∨ t.entry (sidecarPath path) = some q)
  kept : ∀ q, call.tree.node? q ≠ none → call.tree.node? q = t.node? q
  gone : ∀ path, (path, .deleted) ∈ call.turns →
    ∃ q, t.entry path = some q ∧ t.node? q ≠ none ∧ call.tree.node? q = none
  /-- It raises `InsufficientStorageError` where all that it can delete does not
  suffice, and otherwise returns with room for the file. -/
  ends :
    (required cfg t ≤ gained (gain cfg t a) line ∧
      call.pc = .returned (gained (gain cfg t a) (call.turns.map (·.1))) ∧
      directorySize call.tree cfg.civitaiRoot + cfg.incomingSize ≤ cfg.dirMaxBytes) ∨
    (gained (gain cfg t a) line < required cfg t ∧ call.turns.map (·.1) = line ∧
      ∃ message, call.pc = .insufficientStorage message)

/-! ## Where the files stand -/

section Listing

variable {t u : LoraTree} {dir path path' : Path}

/-- A path of a listing, and the entry that it names. -/
structure ListedAt (t : LoraTree) (dir base above : Path) (name : String) : Prop where
  located : t.locate dir = some base
  dirAbove : t.isDirAt (base ++ above) = true
  here : t.node? (base ++ (above ++ [name])) ≠ none
  suffix : ".safetensors".toList <:+ name.toList

theorem listedAt_of_mem (h : path ∈ rglobSafetensors t dir) :
    ∃ base above name, path = dir ++ (above ++ [name]) ∧ ListedAt t dir base above name := by
  unfold rglobSafetensors at h
  split at h
  · cases h
  rename_i base hbase
  obtain ⟨e, he, hpath⟩ := List.mem_filterMap.mp h
  split at hpath
  on_goal 2 => cases hpath
  rename_i name hname
  split at hpath
  on_goal 2 => cases hpath
  rename_i hunder
  obtain ⟨⟨rest, hrest⟩, hne, hsuffix⟩ := hunder
  cases hpath
  have hrest' : rest ≠ [] := by
    rintro rfl
    exact hne (by simpa using hrest)
  obtain ⟨above, last, rfl⟩ : ∃ above last, rest = above ++ [last] := by
    rcases List.eq_nil_or_concat rest with rfl | ⟨above, last, rfl⟩
    · exact absurd rfl hrest'
    · exact ⟨above, last, List.concat_eq_append⟩
  have hlast : last = name := by
    rw [← hrest, ← List.append_assoc, List.getLast?_concat, Option.some.injEq] at hname
    exact hname
  subst hlast
  have hroot : e.1 ≠ [] := by
    rw [← hrest]
    simp
  have hnode : t.node? (base ++ (above ++ [last])) ≠ none := by
    rw [hrest, (FileTree.node?_eq_some hroot).mpr he]
    exact nofun
  have hdir : t.isDirAt (base ++ above) = true := by
    rw [← List.append_assoc] at hnode
    exact t.isDirAt_of_append (by simp) hnode
  refine ⟨base, above, last, ?_, hbase, hdir, hnode, hsuffix⟩
  rw [← hrest, List.drop_left]

namespace ListedAt

variable {base above : Path} {name : String}

theorem entry (h : ListedAt t dir base above name) (hs : FileTree.Shrinks t u) :
    u.entry (dir ++ (above ++ [name])) = some (base ++ (above ++ [name])) :=
  hs.entry_under h.located h.dirAbove name

theorem sidecarPath_eq : sidecarPath (dir ++ (above ++ [name])) =
    dir ++ (above ++ [withSuffix name ".json"]) := by
  rw [← List.append_assoc, ← List.append_assoc]
  simp [sidecarPath, pathWithSuffix]

theorem entry_sidecar (h : ListedAt t dir base above name) (hs : FileTree.Shrinks t u) :
    u.entry (sidecarPath (dir ++ (above ++ [name]))) =
      some (base ++ (above ++ [withSuffix name ".json"])) := by
  rw [sidecarPath_eq]
  exact hs.entry_under h.located h.dirAbove _

/-- A file is a file by the path of its entry too. -/
theorem isFile (h : ListedAt t dir base above name) (name' : String) :
    t.isFile (dir ++ (above ++ [name'])) = t.isFile (base ++ (above ++ [name'])) := by
  rw [← List.append_assoc, ← List.append_assoc]
  exact FileTree.isFile_name (FileTree.locate_append h.located h.dirAbove) h.dirAbove name'

end ListedAt

/-- A name with the suffix of a sidecar has not that of a LoRA. -/
theorem withSuffix_json_ne {name name' : String} (h : ".safetensors".toList <:+ name'.toList) :
    withSuffix name ".json" ≠ name' := by
  intro heq
  have hlast : name'.toList.getLast? = some 'n' := by
    rw [← heq]
    unfold withSuffix
    dsimp only
    split
    · rw [String.toList_append, List.getLast?_append]
      rfl
    · rw [String.toList_append, List.getLast?_append]
      rfl
  obtain ⟨stem, hstem⟩ := h
  rw [← hstem, List.getLast?_append] at hlast
  cases hlast

theorem entry_inj (h : path ∈ rglobSafetensors t dir) (h' : path' ∈ rglobSafetensors t dir)
    (heq : t.entry path = t.entry path') : path = path' := by
  obtain ⟨base, above, name, rfl, hat⟩ := listedAt_of_mem h
  obtain ⟨base', above', name', rfl, hat'⟩ := listedAt_of_mem h'
  rw [hat.entry (FileTree.shrinks_refl t), hat'.entry (FileTree.shrinks_refl t),
    Option.some.injEq] at heq
  have hbase := hat.located.symm.trans hat'.located
  rw [Option.some.injEq] at hbase
  subst hbase
  rw [List.append_cancel_left heq]

theorem sidecar_no_lora (h : path ∈ rglobSafetensors t dir)
    (h' : path' ∈ rglobSafetensors t dir) : t.entry (sidecarPath path) ≠ t.entry path' := by
  obtain ⟨base, above, name, rfl, hat⟩ := listedAt_of_mem h
  obtain ⟨base', above', name', rfl, hat'⟩ := listedAt_of_mem h'
  rw [hat.entry_sidecar (FileTree.shrinks_refl t), hat'.entry (FileTree.shrinks_refl t)]
  intro heq
  have hbase := hat.located.symm.trans hat'.located
  rw [Option.some.injEq] at hbase heq
  subst hbase
  have hnames := List.append_cancel_left heq
  have hname := (List.append_inj' hnames rfl).2
  rw [List.singleton_inj] at hname
  exact withSuffix_json_ne hat'.suffix hname

theorem rglob_shrinks (h : FileTree.Shrinks t u) (hdir : t.isDir dir = true) :
    (rglobSafetensors u dir).Sublist (rglobSafetensors t dir) := by
  unfold rglobSafetensors
  unfold FileTree.isDir FileTree.stat at hdir
  rcases hloc : t.locate dir with _ | base
  · rw [hloc] at hdir
    cases hdir
  · rw [hloc, Option.bind_some] at hdir
    simp only [h.locate_down hloc hdir]
    exact h.sublist.filterMap _

theorem nodup_rglob (t : LoraTree) (dir : Path) : (rglobSafetensors t dir).Nodup := by
  unfold rglobSafetensors
  split
  · exact List.nodup_nil
  rename_i base _
  have hkeys : t.entries.Pairwise fun e e' => e.1 ≠ e'.1 := List.pairwise_map.mp t.nodup
  refine hkeys.filterMap _ ?_
  intro e e' hne p hp p' hp' heq
  split at hp
  on_goal 2 => cases hp
  split at hp'
  on_goal 2 => cases hp'
  split at hp
  on_goal 2 => cases hp
  split at hp'
  on_goal 2 => cases hp'
  rename_i hunder hunder'
  obtain ⟨⟨rest, hrest⟩, -, -⟩ := hunder
  obtain ⟨⟨rest', hrest'⟩, -, -⟩ := hunder'
  rw [Option.some.injEq] at hp hp'
  rw [← hp, ← hp', ← hrest, ← hrest', List.drop_left, List.drop_left] at heq
  apply hne
  rw [← hrest, ← hrest', List.append_cancel_left heq]

end Listing

/-! ## The candidates -/

section Candidates

variable {cfg : Setting} {t : LoraTree} {names : List String} {now cutoff : Int} {path : Path}

def candidateOf (cfg : Setting) (t : LoraTree) (path : Path) : Candidate where
  sortKey := (lastUsed cfg t path).unbotD 0
  path := path
  size := sizeOf t path
  canonicalName := cfg.canonicalName path

theorem cutoff_ok (h : cfg.cutoff now = .ok cutoff) :
    cutoff = now - cfg.recentUseDays * dayMicros := by
  unfold Setting.cutoff at h
  dsimp only at h
  split at h
  · cases h
  split at h
  · cases h
  split at h
  · cases h
  · cases h
    rfl

/-- The text of a sidecar that fails the call: `json.loads` raises no `JSONDecodeError`. -/
def Undecodable (t : LoraTree) (path : Path) : Prop :=
  t.isFile path = true ∧ ∃ size message,
    t.read (sidecarPath path) = some ⟨size, .unreadable message⟩

theorem readSidecar_eq (t : LoraTree) (path : Path) :
    (∃ size message, t.read (sidecarPath path) = some ⟨size, .unreadable message⟩ ∧
      readSidecar t (sidecarPath path) = .error message) ∨
    ((∀ size message, t.read (sidecarPath path) ≠ some ⟨size, .unreadable message⟩) ∧
      readSidecar t (sidecarPath path) = .ok (sidecarOf t path)) := by
  unfold readSidecar sidecarOf
  rcases hread : t.read (sidecarPath path) with _ | ⟨size, text⟩
  · exact .inr ⟨nofun, rfl⟩
  cases text with
  | unreadable message => exact .inl ⟨size, message, rfl, rfl⟩
  | malformed message => exact .inr ⟨nofun, rfl⟩
  | value json => cases json <;> exact .inr ⟨nofun, rfl⟩

theorem fromCivitai_iff (data : List (String × Json)) :
    fromCivitai data = true ↔ Json.get data "source" = .str "civitai" := by
  unfold fromCivitai
  split
  · rename_i source hsource
    simp [hsource]
  · rename_i hno
    simp only [Bool.false_eq_true, false_iff]
    exact hno "civitai"

theorem isFile_iff_read {p : Path} : t.isFile p = true ↔ ∃ contents, t.read p = some contents := by
  unfold FileTree.isFile FileTree.read
  rcases t.stat p with _ | node
  · simp
  · cases node <;> simp [Node.isFile]

theorem lastUsed_eq {data : List (String × Json)} (h : sidecarOf t path = some data) :
    lastUsed cfg t path = cfg.lastUsedDt data := by
  rw [lastUsed, h]
  rfl

/-- What one turn of the selection loop asks of a path. -/
structure Fit (cfg : Setting) (t : LoraTree) (names : List String) (cutoff : Int)
    (path : Path) : Prop where
  file : t.isFile path = true
  sidecar : ∃ data, sidecarOf t path = some data ∧ Json.get data "source" = .str "civitai"
  unprotected : cfg.canonicalName path ∉ names
  stale : lastUsed cfg t path ≤ cutoff

theorem candidate_undecodable (h : Undecodable t path) :
    ∃ message, cfg.candidate t names cutoff path = .error message := by
  obtain ⟨hfile, size, message, hread⟩ := h
  refine ⟨message, ?_⟩
  simp [Setting.candidate, hfile, readSidecar, hread]

theorem candidate_fit (h : Fit cfg t names cutoff path) :
    cfg.candidate t names cutoff path = .ok (some (candidateOf cfg t path)) := by
  obtain ⟨hfile, ⟨data, hdata, hsource⟩, hname, hstale⟩ := h
  obtain ⟨contents, hcontents⟩ := isFile_iff_read.mp hfile
  have hread : readSidecar t (sidecarPath path) = .ok (some data) := by
    rcases readSidecar_eq t path with ⟨size, message, hbad, -⟩ | ⟨-, hok⟩
    · simp [sidecarOf, hbad] at hdata
    · rw [hok, hdata]
  have hfresh : ¬ (cfg.lastUsedDt data).any fun used => decide (used > cutoff) := by
    rw [lastUsed_eq hdata] at hstale
    rcases hused : cfg.lastUsedDt data with _ | used
    · simp
    · rw [hused] at hstale
      simpa using WithBot.coe_le_coe.mp hstale
  have hcivitai := (fromCivitai_iff data).mpr hsource
  simp only [Setting.candidate, hfile, hread, hcivitai, hname, hfresh, hcontents,
    not_true_eq_false, if_false, Bool.false_eq_true, Option.map_some]
  congr 2
  simp only [candidateOf, sizeOf, hcontents, lastUsed_eq hdata]
  rcases cfg.lastUsedDt data with _ | used <;> rfl

theorem candidate_unfit (h : ¬ Fit cfg t names cutoff path) (hdec : ¬ Undecodable t path) :
    cfg.candidate t names cutoff path = .ok none := by
  unfold Setting.candidate
  by_cases hfile : t.isFile path = true
  on_goal 2 => rw [if_pos hfile]
  rw [if_neg (not_not.mpr hfile)]
  rcases readSidecar_eq t path with ⟨size, message, hbad, -⟩ | ⟨-, hok⟩
  · exact absurd ⟨hfile, size, message, hbad⟩ hdec
  rw [hok]
  rcases hdata : sidecarOf t path with _ | data
  · rfl
  dsimp only
  by_cases hsource : fromCivitai data = true
  on_goal 2 => rw [if_pos hsource]
  rw [if_neg (not_not.mpr hsource)]
  by_cases hname : cfg.canonicalName path ∈ names
  · rw [if_pos hname]
  rw [if_neg hname, if_pos]
  by_contra hfresh
  refine h ⟨hfile, ⟨data, hdata, (fromCivitai_iff data).mp hsource⟩, hname, ?_⟩
  rw [lastUsed_eq hdata]
  rcases hused : cfg.lastUsedDt data with _ | used
  · exact bot_le
  · rw [hused] at hfresh
    exact WithBot.coe_le_coe.mpr (by simpa using hfresh)

open Classical in
/-- The candidates in the order of the listing. -/
noncomputable def eligibles (cfg : Setting) (t : LoraTree) (names : List String) (now : Int) :
    List Path :=
  (rglobSafetensors t cfg.civitaiRoot).filter fun path =>
    decide (Fit cfg t names (now - cfg.recentUseDays * dayMicros) path)

/-- The candidates as the loop takes them. -/
noncomputable def line (cfg : Setting) (t : LoraTree) (names : List String) (now : Int) :
    List Path :=
  (eligibles cfg t names now).insertionSort (Before (lastUsed cfg t) 0)

theorem mem_eligibles : path ∈ eligibles cfg t names now ↔ Eligible cfg t names now path := by
  simp only [eligibles, List.mem_filter, decide_eq_true_eq]
  constructor
  · rintro ⟨hlisted, hfit⟩
    exact ⟨hlisted, hfit.file, hfit.sidecar, hfit.unprotected, hfit.stale⟩
  · intro h
    exact ⟨h.listed, h.file, h.sidecar, h.unprotected, h.stale⟩

theorem mem_line : path ∈ line cfg t names now ↔ Eligible cfg t names now path := by
  rw [line, List.mem_insertionSort, mem_eligibles]

theorem nodup_eligibles : (eligibles cfg t names now).Nodup := (nodup_rglob t _).filter _

theorem nodup_line : (line cfg t names now).Nodup :=
  (List.perm_insertionSort _ _).nodup_iff.mpr nodup_eligibles

theorem select_ok (hcut : cfg.cutoff now = .ok cutoff)
    (hdec : ∀ path ∈ rglobSafetensors t cfg.civitaiRoot, ¬ Undecodable t path) :
    cfg.select t names now = .ok ((line cfg t names now).map (candidateOf cfg t)) := by
  classical
  obtain ⟨found, hfound, hreduce⟩ := mapM_filter
    (P := Fit cfg t names cutoff) (g := candidateOf cfg t)
    (l := rglobSafetensors t cfg.civitaiRoot) (f := cfg.candidate t names cutoff)
    (fun path _ hfit => candidate_fit hfit)
    fun path hpath hunfit => candidate_unfit hunfit (hdec path hpath)
  have hlist : found.reduceOption = (eligibles cfg t names now).map (candidateOf cfg t) := by
    rw [hreduce, eligibles, cutoff_ok hcut]
  unfold Setting.select
  rw [hcut]
  dsimp only [Except.bind]
  rw [hfound]
  dsimp only [Except.map]
  rw [hlist, line]
  congr 1
  symm
  exact List.map_insertionSort _ _ _ _ fun _ _ _ _ => Iff.rfl

theorem of_select_ok {candidates : List Candidate}
    (h : cfg.select t names now = .ok candidates) :
    (∃ cutoff, cfg.cutoff now = .ok cutoff) ∧
      ∀ path ∈ rglobSafetensors t cfg.civitaiRoot, ¬ Undecodable t path := by
  unfold Setting.select at h
  rcases hcut : cfg.cutoff now with message | cutoff <;> rw [hcut] at h
  · cases h
  refine ⟨⟨cutoff, rfl⟩, fun path hpath hbad => ?_⟩
  dsimp only [Except.bind] at h
  rcases hfound : (rglobSafetensors t cfg.civitaiRoot).mapM (cfg.candidate t names cutoff)
    with message | found
  · rw [hfound] at h
    cases h
  · obtain ⟨found, hok⟩ := ok_of_mapM hfound path hpath
    obtain ⟨message, herror⟩ : ∃ message, cfg.candidate t names cutoff path = .error message :=
      candidate_undecodable hbad
    rw [herror] at hok
    cases hok

end Candidates

/-! ## The loop -/

section Loop

variable {cfg : Setting} {t u v : LoraTree} {a : Surroundings} {path : Path}

/-- A file that may be a candidate. -/
structure Removable (cfg : Setting) (t : LoraTree) (path : Path) : Prop where
  listed : path ∈ rglobSafetensors t cfg.civitaiRoot
  file : t.isFile path = true
  sidecar : t.isFile (sidecarPath path) = true

theorem Eligible.removable {names : List String} {now : Int}
    (h : Eligible cfg t names now path) : Removable cfg t path := by
  refine ⟨h.listed, h.file, ?_⟩
  obtain ⟨data, hdata, -⟩ := h.sidecar
  rw [isFile_iff_read]
  rcases hread : t.read (sidecarPath path) with _ | contents
  · simp [sidecarOf, hread] at hdata
  · exact ⟨contents, rfl⟩

/-- The tree `v` is `u` without some candidates of `t` and sidecars of them. -/
structure Cleared (t u v : LoraTree) (paths : List Path) : Prop where
  shrinks : FileTree.Shrinks t v
  fewer : ∀ q, v.node? q ≠ none → u.node? q ≠ none
  gone : ∀ path ∈ paths, ∀ e, t.entry path = some e → v.node? e = none
  removed : ∀ q, u.node? q ≠ none → v.node? q = none →
    ∃ path ∈ paths, t.entry path = some q ∨ t.entry (sidecarPath path) = some q

theorem cleared_nil (h : FileTree.Shrinks t u) : Cleared t u u [] :=
  ⟨h, fun _ hq => hq, nofun, fun _ hq hnone => absurd hnone hq⟩

theorem Cleared.append {w : LoraTree} {paths paths' : List Path} (h : Cleared t u w paths)
    (h' : Cleared t w v paths') : Cleared t u v (paths ++ paths') := by
  refine ⟨h'.shrinks, fun q hq => h.fewer q (h'.fewer q hq), ?_, ?_⟩
  · rw [List.forall_mem_append]
    refine ⟨fun path hpath e he => ?_, h'.gone⟩
    by_contra hstill
    exact h'.fewer e hstill (h.gone path hpath e he)
  · intro q hq hnone
    by_cases hw : w.node? q = none
    · obtain ⟨p, hp, hentry⟩ := h.removed q hq hw
      exact ⟨p, List.mem_append_left _ hp, hentry⟩
    · obtain ⟨p, hp, hentry⟩ := h'.removed q hw hnone
      exact ⟨p, List.mem_append_right _ hp, hentry⟩

/-- One of the two unlinks of a candidate. -/
theorem shrinks_unlink (h : FileTree.Shrinks t u) {p e : Path} (hentry : u.entry p = some e)
    (hfile : t.isFile e = true) {refused : List Path} (hunlink : unlink u refused p = some v) :
    FileTree.Shrinks t v ∧ ∀ q, v.node? q = if q = e then none else u.node? q := by
  unfold unlink at hunlink
  split at hunlink
  · cases hunlink
  obtain ⟨e', he', -, hnodes⟩ := FileTree.unlink_some hunlink
  rw [hentry, Option.some.injEq] at he'
  subst he'
  exact ⟨h.unlink hentry hfile hunlink, hnodes⟩

/-- A candidate that is still there goes unless the system refuses. -/
theorem evict_removable (h : Removable cfg t path) (hs : FileTree.Shrinks t u)
    (hstill : ∀ e, t.entry path = some e → u.node? e ≠ none) (refused : List Path) :
    (path ∈ refused → evict u refused (candidateOf cfg t path) = none) ∧
      (path ∉ refused → ∃ v, evict u refused (candidateOf cfg t path) = some v ∧
        Cleared t u v [path]) := by
  obtain ⟨base, above, name, rfl, hat⟩ := listedAt_of_mem h.listed
  set path := cfg.civitaiRoot ++ (above ++ [name]) with hpath
  set e := base ++ (above ++ [name]) with he
  set s := base ++ (above ++ [withSuffix name ".json"]) with hside
  have hentry : t.entry path = some e := hat.entry (FileTree.shrinks_refl t)
  have hsentry : t.entry (sidecarPath path) = some s := hat.entry_sidecar (FileTree.shrinks_refl t)
  have hfile : t.isFile e = true := by
    rw [he, ← hat.isFile]
    exact h.file
  have hsfile : t.isFile s = true := by
    rw [hside, ← hat.isFile, ← ListedAt.sidecarPath_eq]
    exact h.sidecar
  constructor
  · intro hrefused
    simp [evict, unlink, candidateOf, hrefused]
  · intro hallowed
    obtain ⟨w, hw⟩ := hs.unlink_some (hat.entry hs) hfile (hstill e hentry)
    have hw' : unlink u refused path = some w := by rw [unlink, if_neg hallowed, hw]
    obtain ⟨hsw, hnodes⟩ := shrinks_unlink hs (hat.entry hs) hfile hw'
    have hgone : w.node? e = none := by simp [hnodes, he]
    have hclear : Cleared t u w [path] := by
      refine ⟨hsw, fun q hq => ?_, ?_, ?_⟩
      · rw [hnodes] at hq
        split at hq
        · exact absurd rfl hq
        · exact hq
      · intro p hp e' he'
        rw [List.mem_singleton.mp hp, hentry, Option.some.injEq] at he'
        exact he' ▸ hgone
      · intro q hq hnone
        rw [hnodes] at hnone
        split at hnone
        · rename_i heq
          exact ⟨path, List.mem_singleton_self _, .inl (heq ▸ hentry)⟩
        · exact absurd hnone hq
    have hevict : evict u refused (candidateOf cfg t path) =
        some ((unlink w refused (sidecarPath path)).getD w) := by
      simp only [evict, candidateOf, hw', Option.map_some]
    refine ⟨_, hevict, ?_⟩
    rcases hv : unlink w refused (sidecarPath path) with _ | v
    · exact hclear
    obtain ⟨hsv, hnodes'⟩ := shrinks_unlink hsw (hat.entry_sidecar hsw) hsfile hv
    refine ⟨hsv, fun q hq => ?_, ?_, ?_⟩
    · simp only [Option.getD_some, hnodes'] at hq
      split at hq
      · exact absurd rfl hq
      · exact hclear.fewer q hq
    · intro p hp e' he'
      simp only [Option.getD_some, hnodes']
      split
      · rfl
      · exact hclear.gone p hp e' he'
    · intro q hq hnone
      simp only [Option.getD_some, hnodes'] at hnone
      split at hnone
      · rename_i heq
        exact ⟨path, List.mem_singleton_self _, .inr (heq ▸ hsentry)⟩
      · exact hclear.removed q hq hnone

/-- The candidates that have their turn. -/
def chosen (cfg : Setting) (t : LoraTree) (a : Surroundings) (required reclaimed : Int)
    (paths : List Path) : List Path :=
  enough (gain cfg t a) required reclaimed paths

/-- Those of them that go. -/
def deletedOf (cfg : Setting) (a : Surroundings) (paths : List Path) : List Path :=
  paths.filter fun path => decide (fate cfg a path = .deleted)

/-- The others are still there. -/
theorem still_of_cleared {paths : List Path} (hpaths : ∀ p ∈ paths, Removable cfg t p)
    (hpath : Removable cfg t path) (hne : path ∉ paths) (hclear : Cleared t u v paths) {e : Path}
    (he : t.entry path = some e) (hstill : u.node? e ≠ none) : v.node? e ≠ none := by
  intro hnone
  obtain ⟨p, hp, hentry⟩ := hclear.removed e hstill hnone
  rcases hentry with hentry | hentry
  · have heq := entry_inj hpath.listed (hpaths p hp).listed (he.trans hentry.symm)
    exact hne (heq ▸ hp)
  · exact sidecar_no_lora (hpaths p hp).listed hpath.listed (hentry.trans he.symm)

/-- The tree after the unlinks of some candidates. -/
def unlinkAll (cfg : Setting) (t : LoraTree) (a : Surroundings) : LoraTree → List Path → LoraTree
  | u, [] => u
  | u, path :: rest =>
    unlinkAll cfg t a ((evict u (a.refused path) (candidateOf cfg t path)).getD u) rest

theorem unlinkAll_append (u : LoraTree) (paths paths' : List Path) :
    unlinkAll cfg t a u (paths ++ paths') =
      unlinkAll cfg t a (unlinkAll cfg t a u paths) paths' := by
  induction paths generalizing u with
  | nil => rfl
  | cons path rest ih => exact ih _

theorem deletedOf_cons (path : Path) (paths : List Path) :
    deletedOf cfg a (path :: paths) = deletedOf cfg a [path] ++ deletedOf cfg a paths := by
  rw [deletedOf, deletedOf, deletedOf, ← List.filter_append]
  rfl

def advance (p : Progress) (bytes : Nat) : Progress :=
  { p with reclaimed := p.reclaimed + bytes }

theorem advance_advance (p : Progress) (bytes more : Nat) :
    advance (advance p bytes) more = advance p (bytes + more) := by
  simp [advance, Int.add_assoc]

/-- How the loop goes on after a candidate. -/
theorem unlinkLoop_cons (hrem : Removable cfg t path) (hs : FileTree.Shrinks t u)
    (hhere : ∀ e, t.entry path = some e → u.node? e ≠ none) {p : Progress}
    (hmore : p.reclaimed < p.required) (rest : List Candidate) :
    unlinkLoop a u p (candidateOf cfg t path :: rest) =
        (unlinkLoop a (unlinkAll cfg t a u (deletedOf cfg a [path]))
          (advance p (gain cfg t a path)) rest).after (path, fate cfg a path) ∧
      Cleared t u (unlinkAll cfg t a u (deletedOf cfg a [path])) (deletedOf cfg a [path]) := by
  by_cases hname : cfg.canonicalName path ∈ a.freshProtected path
  · have hfate : fate cfg a path = .rechecked := by rw [fate, if_pos hname]
    have hnone : deletedOf cfg a [path] = [] := by simp [deletedOf, hfate]
    rw [hnone]
    refine ⟨?_, cleared_nil hs⟩
    simp [unlinkLoop, unlinkAll, hmore, candidateOf, hname, hfate, gain, advance]
  obtain ⟨hrefuse, hallow⟩ := evict_removable hrem hs hhere (a.refused path)
  by_cases hrefused : path ∈ a.refused path
  · have hfate : fate cfg a path = .undeletable := by rw [fate, if_neg hname, if_pos hrefused]
    have hnone : deletedOf cfg a [path] = [] := by simp [deletedOf, hfate]
    rw [hnone]
    refine ⟨?_, cleared_nil hs⟩
    have hevict := hrefuse hrefused
    rw [unlinkLoop, if_pos hmore]
    simp only [candidateOf] at hevict ⊢
    simp [hname, hevict, hfate, gain, advance, unlinkAll]
  · have hfate : fate cfg a path = .deleted := by rw [fate, if_neg hname, if_neg hrefused]
    have hone : deletedOf cfg a [path] = [path] := by simp [deletedOf, hfate]
    obtain ⟨w, hevict, hclear⟩ := hallow hrefused
    have htree : unlinkAll cfg t a u [path] = w := by simp [unlinkAll, hevict]
    rw [hone, htree]
    refine ⟨?_, hclear⟩
    rw [unlinkLoop, if_pos hmore]
    simp only [candidateOf] at hevict ⊢
    simp [hname, hevict, hfate, gain, advance]

/-- The loop goes through the shortest prefix that suffices. -/
theorem unlinkLoop_eq {paths : List Path} (hnodup : paths.Nodup) {p : Progress}
    (hremovable : ∀ path ∈ paths, Removable cfg t path) (hs : FileTree.Shrinks t u)
    (hstill : ∀ path ∈ paths, ∀ e, t.entry path = some e → u.node? e ≠ none) :
    unlinkLoop a u p (paths.map (candidateOf cfg t)) =
        ⟨unlinkAll cfg t a u (deletedOf cfg a (chosen cfg t a p.required p.reclaimed paths)),
          (chosen cfg t a p.required p.reclaimed paths).map fun path => (path, fate cfg a path),
          loop (advance p (gained (gain cfg t a)
            (chosen cfg t a p.required p.reclaimed paths))) []⟩ ∧
      Cleared t u
        (unlinkAll cfg t a u (deletedOf cfg a (chosen cfg t a p.required p.reclaimed paths)))
        (deletedOf cfg a (chosen cfg t a p.required p.reclaimed paths)) := by
  induction paths generalizing u p with
  | nil =>
    refine ⟨?_, cleared_nil hs⟩
    simp [unlinkLoop, chosen, enough, advance, deletedOf, unlinkAll]
  | cons path rest ih =>
    obtain ⟨hpath, hnodup⟩ := List.nodup_cons.mp hnodup
    obtain ⟨hrem, hremovable⟩ := List.forall_mem_cons.mp hremovable
    obtain ⟨hhere, hstill⟩ := List.forall_mem_cons.mp hstill
    by_cases hmore : p.reclaimed < p.required
    · obtain ⟨hloop, hclear⟩ := unlinkLoop_cons (a := a) hrem hs hhere hmore
        (rest.map (candidateOf cfg t))
      set w := unlinkAll cfg t a u (deletedOf cfg a [path])
      have hlater : ∀ q ∈ rest, ∀ e, t.entry q = some e → w.node? e ≠ none := by
        intro q hq e he
        have hsub : ∀ p ∈ deletedOf cfg a [path], p = path := fun p hp =>
          List.mem_singleton.mp (List.mem_of_mem_filter hp)
        refine still_of_cleared ?_ (hremovable q hq) ?_ hclear he (hstill q hq e he)
        · intro p hp
          rw [hsub p hp]
          exact hrem
        · intro hin
          exact hpath (hsub q hin ▸ hq)
      obtain ⟨hrest, hclear'⟩ := ih hnodup hremovable hclear.shrinks hlater
        (p := advance p (gain cfg t a path))
      have hchosen : chosen cfg t a p.required p.reclaimed (path :: rest) = path ::
          chosen cfg t a (advance p (gain cfg t a path)).required
            (advance p (gain cfg t a path)).reclaimed rest := by
        simp [chosen, enough, hmore, advance]
      rw [hchosen, deletedOf_cons, unlinkAll_append]
      refine ⟨?_, hclear.append hclear'⟩
      rw [List.map_cons, hloop, hrest, List.map_cons, gained_cons, ← advance_advance]
      rfl
    · have hnone : chosen cfg t a p.required p.reclaimed (path :: rest) = [] := by
        simp [chosen, enough, hmore]
      rw [hnone]
      refine ⟨?_, cleared_nil hs⟩
      simp [unlinkLoop, hmore, loop, advance, deletedOf, unlinkAll]

/-! ## The room -/

theorem sizeOf_le (h : FileTree.Shrinks t u) (path : Path) : sizeOf u path ≤ sizeOf t path := by
  unfold sizeOf
  rcases hread : u.read path with _ | contents
  · simp
  · rw [h.read_up hread]

theorem directorySize_eq (hdir : t.isDir cfg.civitaiRoot = true) :
    directorySize t cfg.civitaiRoot =
      gained (sizeOf t) (rglobSafetensors t cfg.civitaiRoot) := by
  rw [directorySize, if_pos hdir]
  rfl

theorem directorySize_le (t : LoraTree) (dir : Path) :
    directorySize t dir ≤ gained (sizeOf t) (rglobSafetensors t dir) := by
  unfold directorySize
  split
  · exact le_refl _
  · exact Nat.zero_le _

/-- What is deleted is no longer listed. -/
theorem not_listed_of_cleared {paths : List Path} (hclear : Cleared t u v paths)
    (hdir : t.isDir cfg.civitaiRoot = true) {path : Path} (hpath : path ∈ paths) :
    path ∉ rglobSafetensors v cfg.civitaiRoot := by
  intro hlisted
  have hbefore := (rglob_shrinks hclear.shrinks hdir).subset hlisted
  obtain ⟨base, above, name, rfl, hat⟩ := listedAt_of_mem hlisted
  obtain ⟨base', above', name', heq, hat'⟩ := listedAt_of_mem hbefore
  have hentry := hat.entry (FileTree.shrinks_refl v)
  rw [heq, hat'.entry hclear.shrinks, Option.some.injEq, ] at hentry
  have hgone := hclear.gone _ hpath _ (heq ▸ hat'.entry (FileTree.shrinks_refl t))
  rw [hentry] at hgone
  exact hat.here hgone

/-- The bytes of what is deleted are no longer in the directory. -/
theorem directorySize_cleared {paths : List Path} (hclear : Cleared t t v paths)
    (hdir : t.isDir cfg.civitaiRoot = true) (hnodup : paths.Nodup)
    (hpaths : ∀ path ∈ paths, Removable cfg t path) :
    directorySize v cfg.civitaiRoot + gained (sizeOf t) paths ≤
      directorySize t cfg.civitaiRoot := by
  have hsub := rglob_shrinks hclear.shrinks hdir
  have hleft : gained (sizeOf v) (rglobSafetensors v cfg.civitaiRoot) ≤
      gained (sizeOf t) (rglobSafetensors v cfg.civitaiRoot) :=
    gained_mono fun path _ => sizeOf_le hclear.shrinks path
  have hperm : (rglobSafetensors v cfg.civitaiRoot ++ paths).Subperm
      (rglobSafetensors t cfg.civitaiRoot) := by
    apply List.Nodup.subperm
    · rw [List.nodup_append]
      refine ⟨nodup_rglob v _, hnodup, ?_⟩
      rintro p hp q hq rfl
      exact not_listed_of_cleared hclear hdir hq hp
    · intro p hp
      rcases List.mem_append.mp hp with hp | hp
      · exact hsub.subset hp
      · exact (hpaths p hp).listed
  calc directorySize v cfg.civitaiRoot + gained (sizeOf t) paths
      ≤ gained (sizeOf t) (rglobSafetensors v cfg.civitaiRoot) + gained (sizeOf t) paths :=
        Nat.add_le_add_right ((directorySize_le v _).trans hleft) _
    _ = gained (sizeOf t) (rglobSafetensors v cfg.civitaiRoot ++ paths) :=
        (gained_append paths).symm
    _ ≤ gained (sizeOf t) (rglobSafetensors t cfg.civitaiRoot) := gained_le_of_subperm hperm
    _ = directorySize t cfg.civitaiRoot := (directorySize_eq hdir).symm

theorem gained_deletedOf (paths : List Path) :
    gained (sizeOf t) (deletedOf cfg a paths) = gained (gain cfg t a) paths :=
  gained_filter _ paths

end Loop

/-! ## The whole call -/

section Whole

variable {cfg : Setting} {t : LoraTree} {a : Surroundings} {names : List String} {now : Int}

theorem start_idle (h : required cfg t ≤ 0) : start cfg t = .returned 0 := by
  simp only [required] at h
  simp [start, h]

theorem start_asking (h : 0 < required cfg t) (hdir : t.isDir cfg.civitaiRoot = true) :
    start cfg t = .asking (required cfg t) := by
  have hle : ¬ required cfg t ≤ 0 := by omega
  simp only [required] at hle ⊢
  simp [start, hle, hdir]

theorem start_empty (h : 0 < required cfg t) (hdir : ¬ t.isDir cfg.civitaiRoot = true) :
    ∃ message, start cfg t = .insufficientStorage message := by
  have hle : ¬ required cfg t ≤ 0 := by omega
  simp only [required] at hle
  simp [start, hle, hdir]

/-- With nothing to do, nothing is done. -/
theorem meets_idle (h : required cfg t ≤ 0) :
    ∃ line, Meets cfg t a (evictFor cfg t a) line := by
  have hcall : evictFor cfg t a = ⟨t, [], .returned 0⟩ := by rw [evictFor, start_idle h]
  let order : Path → Path → Prop := fun p q => lastUsed cfg t p ≤ lastUsed cfg t q
  have : DecidableRel order := fun _ _ => inferInstanceAs (Decidable (_ ≤ _))
  have : Std.Total order := ⟨fun _ _ => le_total _ _⟩
  have : IsTrans Path order := ⟨fun _ _ _ => le_trans⟩
  refine ⟨(eligibles cfg t a.protectedByJobs a.now).insertionSort order, ?_⟩
  rw [hcall]
  constructor
  case eligible =>
    intro path
    rw [List.mem_insertionSort, mem_eligibles]
  case nodup => exact (List.perm_insertionSort _ _).nodup_iff.mpr nodup_eligibles
  case oldestFirst => exact List.pairwise_insertionSort order _
  case inLine => exact List.nil_prefix
  case fates => exact nofun
  case stops =>
    intro before turn after heq
    simp at heq
  case removed => exact fun q hq hnone => absurd hnone hq
  case kept => exact fun _ _ => rfl
  case gone => exact nofun
  case ends =>
    refine .inl ⟨by omega, rfl, ?_⟩
    unfold required at h
    dsimp only
    omega

/-- Without the directory there is nothing to delete. -/
theorem not_listed (hdir : ¬ t.isDir cfg.civitaiRoot = true) (path : Path) :
    path ∉ rglobSafetensors t cfg.civitaiRoot := by
  intro h
  obtain ⟨base, above, name, rfl, hat⟩ := listedAt_of_mem h
  apply hdir
  rw [FileTree.isDir, FileTree.stat, hat.located, Option.bind_some]
  by_cases habove : above = []
  · have hbase := hat.dirAbove
    rw [habove, List.append_nil] at hbase
    exact hbase
  · exact t.isDirAt_of_append habove (FileTree.exists_of_isDirAt hat.dirAbove)

theorem meets_empty (h : 0 < required cfg t) (hdir : ¬ t.isDir cfg.civitaiRoot = true) :
    ∃ line, Meets cfg t a (evictFor cfg t a) line := by
  obtain ⟨message, hstart⟩ := start_empty h hdir
  have hcall : evictFor cfg t a = ⟨t, [], .insufficientStorage message⟩ := by
    rw [evictFor, hstart]
  refine ⟨[], ?_⟩
  rw [hcall]
  constructor
  case eligible =>
    intro path
    refine ⟨nofun, fun heligible => absurd heligible.listed (not_listed hdir path)⟩
  case nodup => exact List.nodup_nil
  case oldestFirst => exact List.Pairwise.nil
  case inLine => exact List.nil_prefix
  case fates => exact nofun
  case stops =>
    intro before turn after heq
    simp at heq
  case removed => exact fun q hq hnone => absurd hnone hq
  case kept => exact fun _ _ => rfl
  case gone => exact nofun
  case ends => exact .inr ⟨by simpa using h, rfl, message, rfl⟩

/-- The candidates that have their turn in a call. -/
noncomputable def turned (cfg : Setting) (t : LoraTree) (a : Surroundings) : List Path :=
  chosen cfg t a (required cfg t) 0 (line cfg t a.protectedByJobs a.now)

/-- The tree that a call leaves. -/
noncomputable def left (cfg : Setting) (t : LoraTree) (a : Surroundings) : LoraTree :=
  unlinkAll cfg t a t (deletedOf cfg a (turned cfg t a))

/-- The call, where it can select. -/
theorem evictFor_eq (h : 0 < required cfg t) (hdir : t.isDir cfg.civitaiRoot = true)
    {cutoff : Int} (hcut : cfg.cutoff a.now = .ok cutoff)
    (hdec : ∀ path ∈ rglobSafetensors t cfg.civitaiRoot, ¬ Undecodable t path) :
    (∃ total, evictFor cfg t a =
        ⟨left cfg t a, (turned cfg t a).map fun path => (path, fate cfg a path),
          loop ⟨required cfg t, gained (gain cfg t a) (turned cfg t a), total⟩ []⟩) ∧
      Cleared t t (left cfg t a) (deletedOf cfg a (turned cfg t a)) := by
  have hremovable : ∀ path ∈ line cfg t a.protectedByJobs a.now, Removable cfg t path :=
    fun path hpath => (mem_line.mp hpath).removable
  have hhere : ∀ path ∈ line cfg t a.protectedByJobs a.now, ∀ e, t.entry path = some e →
      t.node? e ≠ none := by
    intro path hpath e he
    obtain ⟨base, above, name, rfl, hat⟩ := listedAt_of_mem (hremovable path hpath).listed
    rw [hat.entry (FileTree.shrinks_refl t), Option.some.injEq] at he
    exact he ▸ hat.here
  let total := ((line cfg t a.protectedByJobs a.now).map (candidateOf cfg t)).length
  obtain ⟨hloop, hclear⟩ := unlinkLoop_eq (a := a) nodup_line (p := ⟨required cfg t, 0, total⟩)
    hremovable (FileTree.shrinks_refl t) hhere
  refine ⟨⟨total, ?_⟩, hclear⟩
  rw [evictFor, start_asking h hdir]
  dsimp only
  rw [select_ok hcut hdec]
  dsimp only
  rw [hloop]
  simp only [advance, Int.zero_add]
  rfl

/-- The fates of the candidates that had their turn. -/
theorem mem_deletedOf {paths : List Path} {path : Path} :
    path ∈ deletedOf cfg a paths ↔
      (path, Fate.deleted) ∈ paths.map fun path => (path, fate cfg a path) := by
  simp only [deletedOf, List.mem_filter, decide_eq_true_eq, List.mem_map, Prod.mk.injEq]
  constructor
  · rintro ⟨hpath, hfate⟩
    exact ⟨path, hpath, rfl, hfate⟩
  · rintro ⟨p, hp, rfl, hfate⟩
    exact ⟨hp, hfate⟩

theorem turned_begins_line : turned cfg t a <+: line cfg t a.protectedByJobs a.now := enough_prefix

/-- Those that have their turn suffice if all together do. -/
theorem turned_enough : required cfg t ≤ gained (gain cfg t a) (turned cfg t a) ↔
    required cfg t ≤ gained (gain cfg t a) (line cfg t a.protectedByJobs a.now) := by
  have hiff : required cfg t ≤ 0 + gained (gain cfg t a) (turned cfg t a) ↔
    required cfg t ≤ 0 + gained (gain cfg t a) (line cfg t a.protectedByJobs a.now) :=
    required_le_iff
  simpa using hiff

theorem turned_all (h : gained (gain cfg t a) (line cfg t a.protectedByJobs a.now) <
    required cfg t) : turned cfg t a = line cfg t a.protectedByJobs a.now := by
  apply enough_eq_self
  have hle : gained (gain cfg t a) (turned cfg t a) ≤
      gained (gain cfg t a) (line cfg t a.protectedByJobs a.now) :=
    gained_le_of_subperm turned_begins_line.sublist.subperm
  rw [turned, chosen] at hle
  omega

/-- What suffices leaves room for the file. -/
theorem room_left (hdir : t.isDir cfg.civitaiRoot = true)
    (hclear : Cleared t t (left cfg t a) (deletedOf cfg a (turned cfg t a)))
    (henough : required cfg t ≤ gained (gain cfg t a) (turned cfg t a)) :
    directorySize (left cfg t a) cfg.civitaiRoot + cfg.incomingSize ≤ cfg.dirMaxBytes := by
  have hsize := directorySize_cleared hclear hdir
    ((nodup_line.sublist turned_begins_line.sublist).sublist List.filter_sublist) fun path hpath =>
      (mem_line.mp (turned_begins_line.subset (List.mem_of_mem_filter hpath))).removable
  rw [gained_deletedOf] at hsize
  have hrequired : required cfg t =
    cfg.incomingSize - (cfg.dirMaxBytes - directorySize t cfg.civitaiRoot) := rfl
  omega

theorem meets_of_sorted (h : 0 < required cfg t) (hdir : t.isDir cfg.civitaiRoot = true)
    {cutoff : Int} (hcut : cfg.cutoff a.now = .ok cutoff)
    (hdec : ∀ path ∈ rglobSafetensors t cfg.civitaiRoot, ¬ Undecodable t path)
    (hsorted : (line cfg t a.protectedByJobs a.now).Pairwise
      fun p q => lastUsed cfg t p ≤ lastUsed cfg t q) :
    Meets cfg t a (evictFor cfg t a) (line cfg t a.protectedByJobs a.now) := by
  obtain ⟨⟨total, hcall⟩, hclear⟩ := evictFor_eq h hdir hcut hdec
  rw [hcall]
  have hmap : ∀ l : List Path, (l.map fun path => (path, fate cfg a path)).map (·.1) = l := by
    intro l
    simp [Function.comp_def]
  constructor
  case eligible => exact fun path => mem_line
  case nodup => exact nodup_line
  case oldestFirst => exact hsorted
  case inLine =>
    rw [hmap]
    exact turned_begins_line
  case fates =>
    intro turn hturn
    obtain ⟨path, -, rfl⟩ := List.mem_map.mp hturn
    rfl
  case stops =>
    intro before turn after heq
    have hsplit := congrArg (List.map (·.1)) heq
    rw [hmap, List.map_append, List.map_cons] at hsplit
    simpa using gained_before hsplit
  case removed =>
    intro q hq hnone
    obtain ⟨path, hpath, hentry⟩ := hclear.removed q hq hnone
    exact ⟨path, mem_deletedOf.mp hpath, hentry⟩
  case kept => exact fun q hq => hclear.shrinks.same hq
  case gone =>
    intro path hpath
    have hdeleted := mem_deletedOf.mpr hpath
    have hlisted :=
      (mem_line.mp (turned_begins_line.subset (List.mem_of_mem_filter hdeleted))).listed
    obtain ⟨base, above, name, rfl, hat⟩ := listedAt_of_mem hlisted
    exact ⟨_, hat.entry (FileTree.shrinks_refl t), hat.here,
      hclear.gone _ hdeleted _ (hat.entry (FileTree.shrinks_refl t))⟩
  case ends =>
    rw [hmap]
    by_cases hall : required cfg t ≤
        gained (gain cfg t a) (line cfg t a.protectedByJobs a.now)
    · have henough := turned_enough.mpr hall
      refine .inl ⟨hall, ?_, room_left hdir hclear henough⟩
      simp [loop, Int.not_lt.mpr henough]
    · rw [not_le] at hall
      refine .inr ⟨hall, turned_all hall, ?_⟩
      rw [turned_all hall]
      simp [loop, hall]

/-! ## When the call meets it -/

/-- The first instant of the year 1 stands for a missing time. While one candidate
has none, no other has a time before that instant, and none that has this very
instant is listed before it. -/
def NeverUsedFirst (cfg : Setting) (t : LoraTree) (names : List String) (now : Int) : Prop :=
  ∀ p, Eligible cfg t names now p → ∀ q, Eligible cfg t names now q → lastUsed cfg t p = ⊥ →
    ∀ x : Int, lastUsed cfg t q = x →
      0 ≤ x ∧ (x = 0 → [p, q].Sublist (rglobSafetensors t cfg.civitaiRoot))

/-- The selection comes through: the cutoff is a time, and no sidecar of a
listed file is a text that `json.loads` fails on otherwise than with a
`JSONDecodeError`. -/
def Selects (cfg : Setting) (t : LoraTree) (now : Int) : Prop :=
  (∃ cutoff, cfg.cutoff now = .ok cutoff) ∧
    ∀ path ∈ rglobSafetensors t cfg.civitaiRoot, ¬ Undecodable t path

theorem sorted_iff : (line cfg t names now).Pairwise
      (fun p q => lastUsed cfg t p ≤ lastUsed cfg t q) ↔ NeverUsedFirst cfg t names now := by
  rw [line, missing_first_iff _ _ nodup_eligibles]
  unfold NeverUsedFirst
  simp only [mem_eligibles]
  refine forall₂_congr fun p hp => forall₂_congr fun q hq => ?_
  refine forall₃_congr fun hnone x hx => and_congr_right fun _ => imp_congr_right fun _ => ?_
  constructor
  · intro h
    exact h.trans List.filter_sublist
  · intro h
    have hkeep := h.filter fun path => @decide
      (Fit cfg t names (now - cfg.recentUseDays * dayMicros) path) (Classical.propDecidable _)
    rw [(List.filter_eq_self (l := [p, q])).mpr] at hkeep
    · exact hkeep
    · simp only [List.mem_cons, List.not_mem_nil, or_false, forall_eq_or_imp, forall_eq,
        decide_eq_true_eq]
      exact ⟨⟨hp.file, hp.sidecar, hp.unprotected, hp.stale⟩,
        hq.file, hq.sidecar, hq.unprotected, hq.stale⟩

/-- If the call does what it is for whatever it meets, the candidates stand in order. -/
theorem orderly_of_meets (h : 0 < required cfg t) (hdir : t.isDir cfg.civitaiRoot = true)
    (hmeets : ∀ freshProtected refused, ∃ line,
      Meets cfg t ⟨names, now, freshProtected, refused⟩
        (evictFor cfg t ⟨names, now, freshProtected, refused⟩) line) :
    Selects cfg t now ∧ NeverUsedFirst cfg t names now := by
  -- nothing can be deleted, so every candidate has its turn
  obtain ⟨l, hl⟩ := hmeets (fun _ => []) fun path => [path]
  generalize ha : (⟨names, now, fun _ => [], fun path => [path]⟩ : Surroundings) = a at hl
  have hnames : a.protectedByJobs = names := ha ▸ rfl
  have hnow : a.now = now := ha ▸ rfl
  have hselects : Selects cfg t now := by
    rcases hselect : cfg.select t a.protectedByJobs a.now with message | candidates
    · exfalso
      have hcall : evictFor cfg t a = ⟨t, [], .raised message⟩ := by
        rw [evictFor, start_asking h hdir]
        dsimp only
        rw [hselect]
      have hends := hl.ends
      rw [hcall] at hends
      rcases hends with ⟨-, hpc, -⟩ | ⟨-, -, m, hpc⟩ <;> cases hpc
    · exact hnow ▸ of_select_ok hselect
  refine ⟨hselects, ?_⟩
  obtain ⟨⟨cutoff, hcut⟩, hdec⟩ := hselects
  obtain ⟨⟨total, hcall⟩, -⟩ := evictFor_eq (a := a) h hdir (hnow ▸ hcut) hdec
  have hgain : ∀ path, gain cfg t a path = 0 := by
    intro path
    simp [gain, fate, ← ha]
  have hnone : ∀ paths, gained (gain cfg t a) paths = 0 := by
    intro paths
    simp [gained, funext hgain]
  have hall : turned cfg t a = line cfg t a.protectedByJobs a.now := by
    apply turned_all
    rw [hnone]
    exact h
  have hprefix := hl.inLine
  rw [hcall, hall] at hprefix
  simp only [List.map_map, Function.comp_def, List.map_id'] at hprefix
  have hperm : (line cfg t a.protectedByJobs a.now).Perm l := by
    rw [List.perm_ext_iff_of_nodup nodup_line hl.nodup]
    intro path
    rw [mem_line, hl.eligible]
  have hsame := hprefix.eq_of_length hperm.length_eq
  rw [← sorted_iff, ← hnames, ← hnow, hsame]
  exact hl.oldestFirst

theorem evict_for_meets_its_purpose_iff (cfg : Setting) (t : LoraTree) (names : List String)
    (now : Int) :
    (∀ freshProtected refused, ∃ line,
      Meets cfg t ⟨names, now, freshProtected, refused⟩
        (evictFor cfg t ⟨names, now, freshProtected, refused⟩) line) ↔
      (required cfg t ≤ 0 ∨ ¬ t.isDir cfg.civitaiRoot = true ∨
        (Selects cfg t now ∧ NeverUsedFirst cfg t names now)) := by
  constructor
  · intro hmeets
    by_cases h : required cfg t ≤ 0
    · exact .inl h
    by_cases hdir : t.isDir cfg.civitaiRoot = true
    · exact .inr (.inr (orderly_of_meets (by omega) hdir hmeets))
    · exact .inr (.inl hdir)
  · intro hcond freshProtected refused
    by_cases h : required cfg t ≤ 0
    · exact meets_idle h
    rw [not_le] at h
    by_cases hdir : t.isDir cfg.civitaiRoot = true
    · obtain ⟨⟨⟨cutoff, hcut⟩, hdec⟩, hfirst⟩ := (hcond.resolve_left (by omega)).resolve_left
        (not_not.mpr hdir)
      exact ⟨_, meets_of_sorted h hdir hcut hdec (sorted_iff.mpr hfirst)⟩
    · exact meets_empty h hdir

end Whole

/-! ## The first day -/

/-- Two fetched LoRAs. The time in the second sidecar is before `datetime.min` in UTC. -/
def firstDay : LoraTree where
  entries := [
    (["loras"], .dir),
    (["loras", "civitai"], .dir),
    (["loras", "civitai", "a_1.safetensors"], .file ⟨500, .malformed ""⟩),
    (["loras", "civitai", "a_1.json"],
      .file ⟨40, .value (.obj [("source", .str "civitai"), ("last_used", .null)])⟩),
    (["loras", "civitai", "b_2.safetensors"], .file ⟨500, .malformed ""⟩),
    (["loras", "civitai", "b_2.json"],
      .file ⟨70, .value (.obj [("source", .str "civitai"),
        ("last_used", .str "0001-01-01T00:00:00+14:00")])⟩)]
  nodup := by decide
  components := by decide
  parents := by decide

def firstDaySetting : Setting where
  registry _ := none
  lorasRoot := ["loras"]
  float _ := none
  incomingSize := 400
  dirMaxBytes := 1000
  recentUseDays := 7
  fromisoformat raw :=
    if raw = "0001-01-01T00:00:00+14:00" then some (-14 * 3600000000) else none

/-- The LoRA that was used once goes before the one that never was. -/
theorem a_used_lora_goes_before_one_never_used :
    (evictFor firstDaySetting firstDay ⟨[], 10 * dayMicros, fun _ => [], fun _ => []⟩).turns =
        [(["loras", "civitai", "b_2.safetensors"], .deleted)] ∧
      ¬ ∀ freshProtected refused, ∃ line,
        Meets firstDaySetting firstDay ⟨[], 10 * dayMicros, freshProtected, refused⟩
          (evictFor firstDaySetting firstDay ⟨[], 10 * dayMicros, freshProtected, refused⟩)
          line := by
  refine ⟨by decide +kernel, fun hmeets => ?_⟩
  obtain ⟨-, hfirst⟩ := orderly_of_meets (by decide +kernel) (by decide +kernel) hmeets
  have hnever : Eligible firstDaySetting firstDay [] (10 * dayMicros)
      ["loras", "civitai", "a_1.safetensors"] := by
    refine ⟨by decide +kernel, by decide +kernel, ⟨_, rfl, rfl⟩, nofun, ?_⟩
    exact bot_le
  have hused : Eligible firstDaySetting firstDay [] (10 * dayMicros)
      ["loras", "civitai", "b_2.safetensors"] := by
    refine ⟨by decide +kernel, by decide +kernel, ⟨_, rfl, rfl⟩, nofun, ?_⟩
    exact WithBot.coe_le_coe.mpr (by decide)
  obtain ⟨hle, -⟩ := hfirst _ hnever _ hused rfl (-14 * 3600000000) rfl
  omega

end image_gen.evict_for

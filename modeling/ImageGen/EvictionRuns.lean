-- `evict_for` among the other tasks: while nothing else writes to the tree,
-- whatever happens to the job table, the machine of its await points ends as
-- one call does with the answers that the table gave.
import ImageGen.EvictFor
import ImageGen.LoraProtection

namespace image_gen.eviction_runs

open image_gen.job_store image_gen.requests image_gen.file_tree image_gen.lora_files
  image_gen.eviction image_gen.evict_for image_gen.runs

variable {cfg : Setting} {t : LoraTree} {a b : Surroundings}

/-- The queries have answers, and nothing else is at the files. -/
def Quiet (s : State) : Label → Prop
  | .touch _ _ _ => False
  | .readFails _ => False
  | .read => ∃ names, nonTerminalLoraNames s.store = .ok names
  | _ => True

/-- The call from where the machine stands. -/
def remaining (cfg : Setting) (a : Surroundings) (t : LoraTree) : Pc → Call
  | .called => evictFor cfg t a
  | .asking required | .asked required _ =>
    match cfg.select t a.protectedByJobs a.now with
    | .ok candidates => unlinkLoop a t ⟨required, 0, candidates.length⟩ candidates
    | .error message => ⟨t, [], .raised message⟩
  | .rechecking p c rest | .rechecked p c rest _ => unlinkLoop a t p (c :: rest)
  | pc => ⟨t, [], pc⟩

/-- The answer that the machine holds is that of the surroundings. -/
def Agrees (a : Surroundings) : Pc → Prop
  | .asked _ names => a.protectedByJobs = names
  | .rechecked _ c _ names => a.freshProtected c.path = names
  | _ => True

/-- Every candidate has one turn. -/
def Sane : Pc → Prop
  | .rechecking p c rest | .rechecked p c rest _ =>
    p.reclaimed < p.required ∧ ((c :: rest).map (·.path)).Nodup
  | _ => True

def Finished : Pc → Prop
  | .returned _ => True
  | .insufficientStorage _ => True
  | .raised _ => True
  | _ => False

/-! ## The surroundings of a loop -/

/-- The loop asks only about its own candidates. -/
theorem unlinkLoop_congr {candidates : List Candidate}
    (h : ∀ c ∈ candidates, a.freshProtected c.path = b.freshProtected c.path ∧
      a.refused c.path = b.refused c.path) (t : LoraTree) (p : Progress) :
    unlinkLoop a t p candidates = unlinkLoop b t p candidates := by
  induction candidates generalizing t p with
  | nil => rfl
  | cons c rest ih =>
    rw [List.forall_mem_cons] at h
    obtain ⟨⟨hfresh, hrefused⟩, hrest⟩ := h
    simp only [unlinkLoop, hfresh, hrefused, ih hrest]

/-- The surroundings with other ones at the turn of one candidate. -/
def at' (a : Surroundings) (path : Path) (names : List String) (refused : List Path) :
    Surroundings :=
  { a with
    freshProtected := Function.update a.freshProtected path names
    refused := Function.update a.refused path refused }

theorem unlinkLoop_at {candidates : List Candidate} {path : Path}
    (h : path ∉ candidates.map (·.path)) (names : List String) (refused : List Path)
    (t : LoraTree) (p : Progress) :
    unlinkLoop (at' a path names refused) t p candidates = unlinkLoop a t p candidates := by
  apply unlinkLoop_congr
  intro c hc
  have hne : c.path ≠ path := fun heq => h (heq ▸ List.mem_map_of_mem hc)
  simp [at', hne]

/-- Two calls end alike. -/
def Alike (x y : Call) : Prop := x.tree = y.tree ∧ x.pc = y.pc

theorem alike_loop (p : Progress) (candidates : List Candidate) :
    Alike (unlinkLoop a t p candidates) (remaining cfg a t (loop p candidates)) := by
  cases candidates with
  | nil =>
    by_cases hmore : p.reclaimed < p.required
    · simp [Alike, loop, hmore, remaining, unlinkLoop]
    · simp [Alike, loop, hmore, remaining, unlinkLoop]
  | cons c rest =>
    by_cases hmore : p.reclaimed < p.required
    · simp [Alike, loop, hmore, remaining]
    · simp [Alike, loop, hmore, remaining, unlinkLoop]

theorem alike_start : Alike (evictFor cfg t a) (remaining cfg a t (start cfg t)) := by
  by_cases h : required cfg t ≤ 0
  · simp [Alike, evictFor, start_idle h, remaining]
  rw [not_le] at h
  by_cases hdir : t.isDir cfg.civitaiRoot = true
  · rw [evictFor, start_asking h hdir]
    exact ⟨rfl, rfl⟩
  · obtain ⟨message, hstart⟩ := start_empty h hdir
    simp [Alike, evictFor, hstart, remaining]

theorem sane_loop {p : Progress} {candidates : List Candidate}
    (h : (candidates.map (·.path)).Nodup) : Sane (loop p candidates) := by
  unfold loop
  split
  · cases candidates with
    | nil => trivial
    | cons c rest => exact ⟨by assumption, h⟩
  · trivial

theorem sane_start (cfg : Setting) (t : LoraTree) : Sane (start cfg t) := by
  simp only [start]
  split
  · trivial
  · split <;> trivial

theorem select_nodup {names : List String} {now : Int} {candidates : List Candidate}
    (h : cfg.select t names now = .ok candidates) : (candidates.map (·.path)).Nodup := by
  obtain ⟨⟨cutoff, hcut⟩, hdec⟩ := of_select_ok h
  rw [select_ok hcut hdec, Except.ok.injEq] at h
  rw [← h, List.map_map]
  have hpath : ((·.path) ∘ candidateOf cfg t : Path → Path) = id := rfl
  rw [hpath, List.map_id]
  exact nodup_line

/-! ## Steps -/

/-- A query that is answered. -/
theorem readRows_ok {s : State} {pc : Pc} {names : List String}
    (hnames : nonTerminalLoraNames s.store = .ok names) (hread : readRows s = some pc) :
    (∃ required, s.pc = .asking required ∧ pc = .asked required names) ∨
      ∃ p c rest, s.pc = .rechecking p c rest ∧ pc = .rechecked p c rest names := by
  unfold readRows at hread
  simp only [hnames] at hread
  split at hread
  · rename_i required hpc
    cases hread
    exact .inl ⟨required, hpc, rfl⟩
  · rename_i p c rest hpc
    cases hread
    exact .inr ⟨p, c, rest, hpc, rfl⟩
  · cases hread

theorem sane_resume {s s' : State} {now : Int} {refused : List Path} (h : Sane s.pc)
    (hstep : resume cfg s now refused = some s') : Sane s'.pc := by
  unfold resume at hstep
  split at hstep
  · cases hstep
    exact sane_start cfg s.tree
  · split at hstep <;> cases hstep
    · rename_i hselect
      exact sane_loop (select_nodup hselect)
    · trivial
  · rename_i hpc
    rw [hpc] at h
    have hrest := (List.nodup_cons.mp h.2).2
    split at hstep
    · cases hstep
      exact sane_loop hrest
    · split at hstep <;> cases hstep <;> exact sane_loop hrest
  · cases hstep

/-- The other tasks leave the call as it is. -/
theorem next_others {s s' : State} {l : Label} (hstep : next cfg s l = some s')
    (hquiet : Quiet s l) :
    (s'.tree = s.tree ∧ s'.pc = s.pc) ∨ (l = .read ∧ ∃ pc, readRows s = some pc ∧
      s' = { s with pc := pc }) ∨ ∃ now refused, resume cfg s now refused = some s' := by
  cases l with
  | accept r =>
    simp only [next] at hstep
    split at hstep <;> cases hstep
    exact .inl ⟨rfl, rfl⟩
  | create i name now =>
    simp only [next] at hstep
    split at hstep
    · split at hstep <;> cases hstep <;> exact .inl ⟨rfl, rfl⟩
    · cases hstep
  | write w now =>
    simp only [next] at hstep
    split at hstep <;> cases hstep <;> exact .inl ⟨rfl, rfl⟩
  | touch name iso size => exact hquiet.elim
  | read =>
    obtain ⟨pc, hpc, rfl⟩ := Option.map_eq_some_iff.mp hstep
    exact .inr (.inl ⟨rfl, pc, hpc, rfl⟩)
  | readFails message => exact hquiet.elim
  | resume now refused => exact .inr (.inr ⟨now, refused, hstep⟩)

theorem sane_next {s s' : State} {l : Label} (h : Sane s.pc) (hquiet : Quiet s l)
    (hstep : next cfg s l = some s') : Sane s'.pc := by
  rcases next_others hstep hquiet with ⟨-, hpc⟩ | ⟨rfl, pc, hread, rfl⟩ | ⟨now, refused, hres⟩
  · exact hpc ▸ h
  · obtain ⟨names, hnames⟩ := hquiet
    rcases readRows_ok hnames hread with ⟨required, -, rfl⟩ | ⟨p, c, rest, hpc, rfl⟩
    · trivial
    · rw [hpc] at h
      exact h
  · exact sane_resume h hres

/-- What a resumption does is the beginning of what remains. -/
theorem remaining_resume {s s' : State} {now : Int} {refused : List Path} (h : Sane s.pc)
    (hstep : resume cfg s now refused = some s') (b : Surroundings) (hb : Agrees b s'.pc) :
    ∃ a, Agrees a s.pc ∧ Alike (remaining cfg a s.tree s.pc) (remaining cfg b s'.tree s'.pc) := by
  unfold resume at hstep
  split at hstep
  · rename_i hpc
    cases hstep
    rw [hpc]
    exact ⟨b, trivial, alike_start⟩
  · rename_i required names hpc
    rw [hpc]
    let a : Surroundings := { b with protectedByJobs := names, now := now }
    refine ⟨a, rfl, ?_⟩
    have hremaining : remaining cfg a s.tree (.asked required names) =
        match cfg.select s.tree names now with
        | .ok candidates => unlinkLoop a s.tree ⟨required, 0, candidates.length⟩ candidates
        | .error message => ⟨s.tree, [], .raised message⟩ := rfl
    rw [hremaining]
    rcases hselect : cfg.select s.tree names now with message | candidates <;>
      simp only [hselect] at hstep ⊢ <;> cases hstep
    · exact ⟨rfl, rfl⟩
    · have hsame : unlinkLoop a s.tree ⟨required, 0, candidates.length⟩ candidates =
          unlinkLoop b s.tree ⟨required, 0, candidates.length⟩ candidates :=
        unlinkLoop_congr (a := a) (b := b) (fun _ _ => ⟨rfl, rfl⟩) _ _
      rw [hsame]
      exact alike_loop _ _
  · rename_i p c rest names hpc
    rw [hpc] at h ⊢
    obtain ⟨hmore, hnodup⟩ := h
    have hrest : c.path ∉ rest.map (·.path) := (List.nodup_cons.mp hnodup).1
    refine ⟨at' b c.path names refused, by simp [Agrees, at'], ?_⟩
    have hfresh : (at' b c.path names refused).freshProtected c.path = names := by simp [at']
    have hrefused : (at' b c.path names refused).refused c.path = refused := by simp [at']
    simp only [remaining, unlinkLoop, hmore, if_true, hfresh, hrefused]
    split at hstep
    · rename_i hname
      cases hstep
      rw [if_pos hname, unlinkLoop_at hrest]
      exact alike_loop p rest
    · rename_i hname
      rw [if_neg hname]
      rcases hevict : evict s.tree refused c with _ | u
      · simp only [hevict] at hstep ⊢
        cases hstep
        rw [unlinkLoop_at hrest]
        exact alike_loop p rest
      · simp only [hevict] at hstep ⊢
        cases hstep
        rw [unlinkLoop_at hrest]
        exact alike_loop _ rest
  · cases hstep

theorem remaining_next {s s' : State} {l : Label} (h : Sane s.pc) (hquiet : Quiet s l)
    (hstep : next cfg s l = some s') (b : Surroundings) (hb : Agrees b s'.pc) :
    ∃ a, Agrees a s.pc ∧ Alike (remaining cfg a s.tree s.pc) (remaining cfg b s'.tree s'.pc) := by
  rcases next_others hstep hquiet with ⟨htree, hpc⟩ | ⟨rfl, pc, hread, rfl⟩ | ⟨now, refused, hres⟩
  · refine ⟨b, hpc ▸ hb, ?_⟩
    rw [htree, hpc]
    exact ⟨rfl, rfl⟩
  · obtain ⟨names, hnames⟩ := hquiet
    rcases readRows_ok hnames hread with ⟨required, hpc, rfl⟩ | ⟨p, c, rest, hpc, rfl⟩
    · rw [hpc]
      exact ⟨b, trivial, rfl, rfl⟩
    · rw [hpc]
      exact ⟨b, trivial, rfl, rfl⟩
  · exact remaining_resume h hres b hb

/-! ## Runs -/

theorem run_alike {s s' : State} {labels : List Label} (h : Sane s.pc)
    (hquiet : AllSteps (next cfg) Quiet s labels) (hrun : exec (next cfg) s labels = some s')
    (hend : Finished s'.pc) :
    ∃ a, Agrees a s.pc ∧ Alike (remaining cfg a s.tree s.pc) ⟨s'.tree, [], s'.pc⟩ := by
  induction labels generalizing s with
  | nil =>
    obtain rfl : s = s' := by simpa using hrun
    refine ⟨⟨[], 0, fun _ => [], fun _ => []⟩, ?_, ?_⟩
    · rcases hpc : s.pc with _ | _ | _ | _ | _ | _ | _ | _ <;> rw [hpc] at hend <;> trivial
    · rcases hpc : s.pc with _ | _ | _ | _ | _ | _ | _ | _ <;> rw [hpc] at hend <;>
        first | exact ⟨rfl, rfl⟩ | exact hend.elim
  | cons l labels ih =>
    obtain ⟨m, hm, hrest⟩ := exec_cons.mp hrun
    obtain ⟨b, hb, htree, hpc⟩ := ih (sane_next h hquiet.1 hm) (hquiet.2 m hm) hrest
    obtain ⟨a, ha, htree', hpc'⟩ := remaining_next h hquiet.1 hm b hb
    exact ⟨a, ha, htree'.trans htree, hpc'.trans hpc⟩

/-- A run of the machine that ends, among any other writes to the job table,
ends as a call does. -/
theorem a_quiet_run_is_a_call {t : LoraTree} {store : Store} {admitted : List Submission}
    {labels : List Label} {s : State}
    (hquiet : AllSteps (next cfg) Quiet (lora_protection.called t store admitted) labels)
    (hrun : exec (next cfg) (lora_protection.called t store admitted) labels = some s)
    (hend : Finished s.pc) : ∃ a, Alike (evictFor cfg t a) ⟨s.tree, [], s.pc⟩ := by
  have hsane : Sane (lora_protection.called t store admitted).pc := trivial
  obtain ⟨a, -, halike⟩ := run_alike hsane hquiet hrun hend
  exact ⟨a, halike⟩

end image_gen.eviction_runs

-- Write blocks over one shared connection. A block holds the write lock while
-- its statements run one by one; then it commits, or rolls back when one of
-- them raised. Readers share the connection and take no lock.
import ImageGen.Runs

namespace image_gen.write_blocks

open image_gen.runs

variable {δ ε : Type*}

/-- A statement of a block, with the checks on what it reads. -/
abbrev Statement (δ ε : Type*) := δ → Except ε δ

def runAll : List (Statement δ ε) → δ → Except ε δ
  | [], d => .ok d
  | f :: fs, d =>
    match f d with
    | .ok d' => runAll fs d'
    | .error e => .error e

theorem runAll_append (fs gs : List (Statement δ ε)) (d : δ) :
    runAll (fs ++ gs) d =
      match runAll fs d with
      | .ok d' => runAll gs d'
      | .error e => .error e := by
  induction fs generalizing d with
  | nil => rfl
  | cons f fs ih =>
    simp only [List.cons_append, runAll]
    cases f d with
    | error e => rfl
    | ok d' => exact ih d'

theorem runAll_concat {fs : List (Statement δ ε)} {f : Statement δ ε} {d d' d'' : δ}
    (hfs : runAll fs d = .ok d') (hf : f d' = .ok d'') : runAll (fs ++ [f]) d = .ok d'' := by
  rw [runAll_append, hfs]
  simp [runAll, hf]

/-- Where a block stands. `done` counts the statements that have run. -/
inductive Pc (ε : Type*)
  | waiting
  | inside (done : Nat)
  /-- A statement or the commit raised; the rollback comes next. -/
  | raising (done : Nat) (e : ε)
  | returned
  | raised (e : ε)
  | killed

/-- What a crash leaves of a block. -/
def Pc.kill : Pc ε → Pc ε
  | .returned => .returned
  | .raised e => .raised e
  | _ => .killed

structure Task (δ ε : Type*) where
  block : List (Statement δ ε)
  pc : Pc ε

structure State (δ ε : Type*) where
  committed : δ
  /-- The open transaction, as the connection sees it. -/
  working : Option δ
  /-- Who holds the write lock. -/
  holder : Option Nat
  tasks : List (Task δ ε)

namespace State

/-- What a statement on the connection reads. -/
def visible (s : State δ ε) : δ := s.working.getD s.committed

def setPc (s : State δ ε) (i : Nat) (pc : Pc ε) : List (Task δ ε) :=
  s.tasks.modify i fun t => { t with pc := pc }

end State

inductive Label (δ ε : Type*)
  | submit (block : List (Statement δ ε))
  | acquire (i : Nat)
  | statement (i : Nat)
  | statementFails (i : Nat) (e : ε)
  | commit (i : Nat)
  | commitFails (i : Nat) (e : ε)
  | rollback (i : Nat)
  /-- A SELECT outside of the blocks. -/
  | read
  /-- The process ends and starts again. -/
  | crash

/-- The block that takes the step. -/
def Label.task : Label δ ε → Option Nat
  | .acquire i => some i
  | .statement i => some i
  | .statementFails i _ => some i
  | .commit i => some i
  | .commitFails i _ => some i
  | .rollback i => some i
  | _ => none

def next (s : State δ ε) : Label δ ε → Option (State δ ε)
  | .submit block => some { s with tasks := s.tasks ++ [⟨block, .waiting⟩] }
  | .acquire i =>
    match s.holder, s.tasks[i]? with
    | none, some ⟨_, .waiting⟩ => some { s with holder := some i, tasks := s.setPc i (.inside 0) }
    | _, _ => none
  | .statement i =>
    match s.tasks[i]? with
    | some ⟨block, .inside done⟩ =>
      match block[done]? with
      | some f =>
        match f s.visible with
        | .ok d => some { s with working := some d, tasks := s.setPc i (.inside (done + 1)) }
        | .error e => some { s with tasks := s.setPc i (.raising done e) }
      | none => none
    | _ => none
  | .statementFails i e =>
    match s.tasks[i]? with
    | some ⟨block, .inside done⟩ =>
      if done < block.length then some { s with tasks := s.setPc i (.raising done e) } else none
    | _ => none
  | .commit i =>
    match s.tasks[i]? with
    | some ⟨block, .inside done⟩ =>
      if done = block.length then
        some ⟨s.visible, none, none, s.setPc i .returned⟩
      else none
    | _ => none
  | .commitFails i e =>
    match s.tasks[i]? with
    | some ⟨block, .inside done⟩ =>
      if done = block.length then some { s with tasks := s.setPc i (.raising done e) } else none
    | _ => none
  | .rollback i =>
    match s.tasks[i]? with
    | some ⟨_, .raising _ e⟩ =>
      some { s with working := none, holder := none, tasks := s.setPc i (.raised e) }
    | _ => none
  | .read => some s
  | .crash =>
    some ⟨s.committed, none, none, s.tasks.map fun t => { t with pc := t.pc.kill }⟩

def start (d : δ) : State δ ε := ⟨d, none, none, []⟩

/-! ## What the connection sees -/

/-- The statements of a block that have run. -/
def Task.executed (t : Task δ ε) : Option (List (Statement δ ε)) :=
  match t.pc with
  | .inside done => some (t.block.take done)
  | .raising done _ => some (t.block.take done)
  | _ => none

/-- The open transaction is what the holder's statements made of the committed
state, and nobody else is inside a block. -/
structure Coherent (s : State δ ε) : Prop where
  alone : ∀ i t, s.tasks[i]? = some t → t.executed ≠ none → s.holder = some i
  idle : s.holder = none → s.working = none
  inside : ∀ i, s.holder = some i → ∃ t fs, s.tasks[i]? = some t ∧ t.executed = some fs ∧
    runAll fs s.committed = .ok s.visible

theorem coherent_start (d : δ) : Coherent (start d : State δ ε) := by
  refine ⟨fun i t h => ?_, fun _ => rfl, fun i h => ?_⟩
  · simp [start] at h
  · cases h

theorem getElem?_setPc (s : State δ ε) (i j : Nat) (pc : Pc ε) :
    (s.setPc i pc)[j]? = if i = j then s.tasks[j]?.map fun t => { t with pc := pc }
      else s.tasks[j]? := by
  unfold State.setPc
  rw [List.getElem?_modify]
  by_cases h : i = j <;> simp [h]

/-- A step of the holder that keeps the lock. -/
theorem Coherent.advance {s : State δ ε} (h : Coherent s) {i : Nat} {t : Task δ ε} {pc : Pc ε}
    {working : Option δ} {fs : List (Statement δ ε)} (hi : s.tasks[i]? = some t)
    (hin : t.executed ≠ none) (hpc : Task.executed ⟨t.block, pc⟩ = some fs)
    (hrun : runAll fs s.committed = .ok (working.getD s.committed)) :
    Coherent { s with working := working, tasks := s.setPc i pc } := by
  have hholder := h.alone i t hi hin
  refine ⟨fun j u hj hu => ?_, fun hnone => ?_, fun j hj => ?_⟩
  · simp only [getElem?_setPc] at hj
    by_cases hij : i = j
    · rw [← hij]
      exact hholder
    · rw [if_neg hij] at hj
      exact h.alone j u hj hu
  · rw [hholder] at hnone
    cases hnone
  · have hij : i = j := by simpa [hholder] using hj
    subst hij
    refine ⟨{ t with pc := pc }, fs, ?_, hpc, hrun⟩
    simp [getElem?_setPc, hi]

/-- The holder leaves its block. -/
theorem Coherent.leave {s : State δ ε} (h : Coherent s) {i : Nat} {t : Task δ ε} {pc : Pc ε}
    (d : δ) (hi : s.tasks[i]? = some t) (hin : t.executed ≠ none)
    (hpc : ∀ block, Task.executed ⟨block, pc⟩ = (none : Option (List (Statement δ ε)))) :
    Coherent ⟨d, none, none, s.setPc i pc⟩ := by
  have hholder := h.alone i t hi hin
  refine ⟨fun j u hj hu => ?_, fun _ => rfl, fun j hj => by cases hj⟩
  simp only [getElem?_setPc] at hj
  by_cases hij : i = j
  · subst hij
    rw [if_pos rfl, hi, Option.map_some, Option.some.injEq] at hj
    rw [← hj] at hu
    exact absurd (hpc t.block) hu
  · rw [if_neg hij] at hj
    have := h.alone j u hj hu
    rw [hholder, Option.some.injEq] at this
    exact absurd this hij

theorem executed_inside {block : List (Statement δ ε)} {done : Nat} :
    Task.executed ⟨block, .inside done⟩ = some (block.take done) := rfl

theorem executed_raising {block : List (Statement δ ε)} {done : Nat} {e : ε} :
    Task.executed ⟨block, .raising done e⟩ = some (block.take done) := rfl

/-- What the holder has run so far. -/
theorem Coherent.run_executed {s : State δ ε} (h : Coherent s) {i : Nat} {t : Task δ ε}
    {fs : List (Statement δ ε)} (hi : s.tasks[i]? = some t) (hfs : t.executed = some fs) :
    runAll fs s.committed = .ok s.visible := by
  have hholder := h.alone i t hi (by simp [hfs])
  obtain ⟨u, gs, hu, hgs, hrun⟩ := h.inside i hholder
  rw [hi, Option.some.injEq] at hu
  subst hu
  rw [hfs, Option.some.injEq] at hgs
  rw [hgs]
  exact hrun

theorem coherent_next {s s' : State δ ε} {l : Label δ ε} (h : Coherent s)
    (hnext : next s l = some s') : Coherent s' := by
  cases l with
  | submit block =>
    cases hnext
    refine ⟨fun i t hi ht => ?_, h.idle, fun i hi => ?_⟩
    · rw [List.getElem?_append] at hi
      split at hi
      · exact h.alone i t hi ht
      · rw [List.getElem?_singleton] at hi
        split at hi <;> cases hi
        exact absurd rfl ht
    · obtain ⟨t, fs, ht, hfs, hrun⟩ := h.inside i hi
      refine ⟨t, fs, ?_, hfs, hrun⟩
      rw [List.getElem?_append_left (List.getElem?_eq_some_iff.mp ht).1]
      exact ht
  | acquire i =>
    simp only [next] at hnext
    split at hnext
    on_goal 2 => cases hnext
    rename_i block hholder hi
    cases hnext
    refine ⟨fun j u hj hu => ?_, fun hnone => ?_, fun j hj => ?_⟩
    · simp only [getElem?_setPc] at hj
      by_cases hij : i = j
      · rw [hij]
      · rw [if_neg hij] at hj
        have := h.alone j u hj hu
        rw [hholder] at this
        cases this
    · cases hnone
    · cases hj
      refine ⟨⟨block, .inside 0⟩, [], by simp [getElem?_setPc, hi], by simp [executed_inside], ?_⟩
      simp [runAll, State.visible, h.idle hholder]
  | statement i =>
    simp only [next] at hnext
    split at hnext
    on_goal 2 => cases hnext
    rename_i block done hi
    have hrun := h.run_executed hi executed_inside
    split at hnext
    on_goal 2 => cases hnext
    rename_i f hf
    split at hnext <;> cases hnext
    · rename_i d hd
      refine h.advance hi (by simp [executed_inside]) executed_inside ?_
      have htake : block.take (done + 1) = block.take done ++ [f] := by
        rw [List.take_add_one, hf]
        rfl
      rw [htake]
      exact runAll_concat hrun hd
    · exact h.advance hi (by simp [executed_inside]) executed_raising hrun
  | statementFails i e =>
    simp only [next] at hnext
    split at hnext
    on_goal 2 => cases hnext
    rename_i block done hi
    split at hnext <;> cases hnext
    exact h.advance hi (by simp [executed_inside]) executed_raising
      (h.run_executed hi executed_inside)
  | commit i =>
    simp only [next] at hnext
    split at hnext
    on_goal 2 => cases hnext
    rename_i block done hi
    split at hnext <;> cases hnext
    exact h.leave _ hi (by simp [executed_inside]) fun _ => rfl
  | commitFails i e =>
    simp only [next] at hnext
    split at hnext
    on_goal 2 => cases hnext
    rename_i block done hi
    split at hnext <;> cases hnext
    exact h.advance hi (by simp [executed_inside]) executed_raising
      (h.run_executed hi executed_inside)
  | rollback i =>
    simp only [next] at hnext
    split at hnext
    on_goal 2 => cases hnext
    rename_i block done e hi
    cases hnext
    exact h.leave _ hi (by simp [executed_raising]) fun _ => rfl
  | read =>
    cases hnext
    exact h
  | crash =>
    cases hnext
    refine ⟨fun i t hi ht => ?_, fun _ => rfl, fun i hi => by cases hi⟩
    rw [List.getElem?_map] at hi
    obtain ⟨u, -, rfl⟩ := Option.map_eq_some_iff.mp hi
    rcases u with ⟨block, pc⟩
    cases pc <;> exact absurd rfl ht

/-! ## What the connection shows -/

/-- A step that changes what the connection shows runs a statement of the open
block, or drops what the block has done. -/
theorem visible_next {s s' : State δ ε} {l : Label δ ε} (h : Coherent s)
    (hnext : next s l = some s') :
    s'.visible = s.visible ∨
      (∃ i t done f, l = .statement i ∧ s.tasks[i]? = some t ∧ t.block[done]? = some f ∧
        runAll (t.block.take done) s.committed = .ok s.visible ∧ f s.visible = .ok s'.visible) ∨
      (((∃ i, l = .rollback i) ∨ l = .crash) ∧ s'.visible = s.committed) := by
  cases l with
  | submit block => cases hnext; exact .inl rfl
  | acquire i =>
    simp only [next] at hnext
    split at hnext <;> cases hnext
    exact .inl rfl
  | statement i =>
    simp only [next] at hnext
    split at hnext
    on_goal 2 => cases hnext
    rename_i block done hi
    split at hnext
    on_goal 2 => cases hnext
    rename_i f hf
    split at hnext <;> cases hnext
    · rename_i d hd
      exact .inr (.inl ⟨i, _, done, f, rfl, hi, hf, h.run_executed hi executed_inside, hd⟩)
    · exact .inl rfl
  | statementFails i e =>
    simp only [next] at hnext
    split at hnext
    on_goal 2 => cases hnext
    split at hnext <;> cases hnext
    exact .inl rfl
  | commit i =>
    simp only [next] at hnext
    split at hnext
    on_goal 2 => cases hnext
    split at hnext <;> cases hnext
    exact .inl rfl
  | commitFails i e =>
    simp only [next] at hnext
    split at hnext
    on_goal 2 => cases hnext
    split at hnext <;> cases hnext
    exact .inl rfl
  | rollback i =>
    simp only [next] at hnext
    split at hnext <;> cases hnext
    exact .inr (.inr ⟨.inl ⟨i, rfl⟩, rfl⟩)
  | read => cases hnext; exact .inl rfl
  | crash => cases hnext; exact .inr (.inr ⟨.inr rfl, rfl⟩)

/-! ## What a block commits -/

/-- The committed state changes at a commit only, and there the whole block has
run on it. -/
theorem committed_next {s s' : State δ ε} {l : Label δ ε} (h : Coherent s)
    (hnext : next s l = some s') :
    s'.committed = s.committed ∨ ∃ i t, l = .commit i ∧ s.tasks[i]? = some t ∧
      runAll t.block s.committed = .ok s'.committed ∧
      s'.tasks[i]? = some ⟨t.block, .returned⟩ := by
  cases l with
  | submit block => cases hnext; exact .inl rfl
  | acquire i =>
    simp only [next] at hnext
    split at hnext <;> cases hnext
    exact .inl rfl
  | statement i =>
    simp only [next] at hnext
    split at hnext
    on_goal 2 => cases hnext
    split at hnext
    on_goal 2 => cases hnext
    split at hnext <;> cases hnext <;> exact .inl rfl
  | statementFails i e =>
    simp only [next] at hnext
    split at hnext
    on_goal 2 => cases hnext
    split at hnext <;> cases hnext
    exact .inl rfl
  | commit i =>
    simp only [next] at hnext
    split at hnext
    on_goal 2 => cases hnext
    rename_i block done hi
    split at hnext <;> cases hnext
    rename_i hdone
    have hrun := h.run_executed hi executed_inside
    rw [hdone, List.take_length] at hrun
    exact .inr ⟨i, _, rfl, hi, hrun, by simp [getElem?_setPc, hi]⟩
  | commitFails i e =>
    simp only [next] at hnext
    split at hnext
    on_goal 2 => cases hnext
    split at hnext <;> cases hnext
    exact .inl rfl
  | rollback i =>
    simp only [next] at hnext
    split at hnext <;> cases hnext
    exact .inl rfl
  | read => cases hnext; exact .inl rfl
  | crash => cases hnext; exact .inl rfl

/-! ## What a step does to the blocks -/

/-- A step adds a block, moves one that has not ended, or none. -/
theorem tasks_next {s s' : State δ ε} {l : Label δ ε} (hnext : next s l = some s') :
    (∃ block, l = .submit block ∧ s'.tasks = s.tasks ++ [⟨block, .waiting⟩]) ∨
    (∃ i t pc, s.tasks[i]? = some t ∧ t.pc ≠ .returned ∧ s'.tasks = s.setPc i pc) ∨
    s'.tasks = s.tasks ∨ s'.tasks = s.tasks.map fun t => { t with pc := t.pc.kill } := by
  cases l with
  | submit block => cases hnext; exact .inl ⟨block, rfl, rfl⟩
  | acquire i =>
    simp only [next] at hnext
    split at hnext
    on_goal 2 => cases hnext
    rename_i hi
    cases hnext
    exact .inr (.inl ⟨i, _, _, hi, nofun, rfl⟩)
  | statement i =>
    simp only [next] at hnext
    split at hnext
    on_goal 2 => cases hnext
    rename_i hi
    split at hnext
    on_goal 2 => cases hnext
    split at hnext <;> cases hnext <;> exact .inr (.inl ⟨i, _, _, hi, nofun, rfl⟩)
  | statementFails i e =>
    simp only [next] at hnext
    split at hnext
    on_goal 2 => cases hnext
    rename_i hi
    split at hnext <;> cases hnext
    exact .inr (.inl ⟨i, _, _, hi, nofun, rfl⟩)
  | commit i =>
    simp only [next] at hnext
    split at hnext
    on_goal 2 => cases hnext
    rename_i hi
    split at hnext <;> cases hnext
    exact .inr (.inl ⟨i, _, _, hi, nofun, rfl⟩)
  | commitFails i e =>
    simp only [next] at hnext
    split at hnext
    on_goal 2 => cases hnext
    rename_i hi
    split at hnext <;> cases hnext
    exact .inr (.inl ⟨i, _, _, hi, nofun, rfl⟩)
  | rollback i =>
    simp only [next] at hnext
    split at hnext
    on_goal 2 => cases hnext
    rename_i hi
    cases hnext
    exact .inr (.inl ⟨i, _, _, hi, nofun, rfl⟩)
  | read => cases hnext; exact .inr (.inr (.inl rfl))
  | crash => cases hnext; exact .inr (.inr (.inr rfl))

/-- The blocks are those that were submitted. -/
theorem blocks_next {s s' : State δ ε} {l : Label δ ε} {P : List (Statement δ ε) → Prop}
    (h : ∀ t ∈ s.tasks, P t.block) (hl : ∀ block, l = .submit block → P block)
    (hnext : next s l = some s') : ∀ t ∈ s'.tasks, P t.block := by
  intro t ht
  rcases tasks_next hnext with ⟨block, rfl, htasks⟩ | ⟨i, u, pc, hu, -, htasks⟩ | htasks | htasks <;>
    rw [htasks] at ht
  · rcases List.mem_append.mp ht with ht | ht
    · exact h t ht
    · rw [List.mem_singleton.mp ht]
      exact hl block rfl
  · obtain ⟨j, hj⟩ := List.mem_iff_getElem?.mp ht
    rw [getElem?_setPc] at hj
    split at hj
    · obtain ⟨v, hv, rfl⟩ := Option.map_eq_some_iff.mp hj
      exact h v (List.mem_of_getElem? hv)
    · exact h t (List.mem_of_getElem? hj)
  · exact h t ht
  · obtain ⟨u, hu, rfl⟩ := List.mem_map.mp ht
    exact h u hu

/-- The block of a committed transaction has returned. -/
def Returned (i : Nat) (s : State δ ε) : Prop := ∃ block, s.tasks[i]? = some ⟨block, .returned⟩

theorem returned_next {s s' : State δ ε} {l : Label δ ε} {i : Nat} (h : Returned i s)
    (hnext : next s l = some s') : Returned i s' := by
  obtain ⟨block, hi⟩ := h
  refine ⟨block, ?_⟩
  rcases tasks_next hnext with ⟨b, rfl, htasks⟩ | ⟨j, u, pc, hu, hne, htasks⟩ | htasks | htasks <;>
    rw [htasks]
  · rw [List.getElem?_append_left (List.getElem?_eq_some_iff.mp hi).1]
    exact hi
  · have hij : j ≠ i := by
      intro heq
      rw [heq, hi, Option.some.injEq] at hu
      rw [← hu] at hne
      exact hne rfl
    rw [getElem?_setPc, if_neg hij]
    exact hi
  · exact hi
  · rw [List.getElem?_map, hi]
    rfl

/-- A block that raised has changed nothing that is committed. -/
theorem raised_leaves {s t : State δ ε} {labels : List (Label δ ε)} (h : Coherent s)
    (hrun : exec next s labels = some t) {i : Nat} {block : List (Statement δ ε)} {e : ε}
    (hraised : t.tasks[i]? = some ⟨block, .raised e⟩) :
    AllSteps next (fun u l => l.task = some i → ∀ u', next u l = some u' →
      u'.committed = u.committed) s labels := by
  induction labels generalizing s with
  | nil => trivial
  | cons l labels ih =>
    obtain ⟨s', hnext, hrest⟩ := exec_cons.mp hrun
    constructor
    · intro htask u' hu'
      rw [hnext, Option.some.injEq] at hu'
      subst hu'
      rcases committed_next h hnext with hsame | ⟨j, u, rfl, -, -, hj⟩
      · exact hsame
      · simp only [Label.task, Option.some.injEq] at htask
        subst htask
        have hreturned : Returned j t :=
          invariant_of_next (fun _ _ _ hr hn => returned_next hr hn) ⟨_, hj⟩ hrest
        obtain ⟨b, hb⟩ := hreturned
        rw [hraised] at hb
        cases hb
    · intro s'' hs''
      rw [hnext, Option.some.injEq] at hs''
      subst hs''
      exact ih (coherent_next h hnext) hrest

end image_gen.write_blocks

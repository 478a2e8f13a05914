-- What readers see. `read()` hands out the connection that the write blocks
-- use, so a SELECT between the statements of an open block reads their rows. A
-- read is two submissions, the `execute` and the fetch, and other submissions
-- may come between them.
import ImageGen.JobRows

namespace image_gen.read_isolation

open image_gen.runs image_gen.write_blocks

variable {δ ε ρ : Type*}

/-- A SELECT of a reader. -/
structure Select (δ ρ : Type*) where
  query : δ → ρ
  /-- What the fetch gets, by what the connection showed at the `execute` and by
  what it shows now. -/
  rows : δ → δ → ρ
  /-- In between nothing has changed. -/
  stable : ∀ d, rows d d = query d

/-- The write blocks and the readers of one connection. -/
structure Shared (δ ε ρ : Type*) where
  db : State δ ε
  /-- The reads between their `execute` and their fetch, with what the connection
  showed at the `execute`. -/
  cursors : List (Select δ ρ × δ)

inductive Submission (δ ε ρ : Type*)
  | block (l : Label δ ε)
  /-- `conn.execute` of a reader. -/
  | execute (q : Select δ ρ)
  /-- `fetchone` or `fetchall` of the open read `i`. -/
  | fetch (i : Nat)

/-- A crash ends the readers too. -/
def left (cursors : List (Select δ ρ × δ)) : Label δ ε → List (Select δ ρ × δ)
  | .crash => []
  | _ => cursors

def step (s : Shared δ ε ρ) : Submission δ ε ρ → Option (Shared δ ε ρ)
  | .block l => (next s.db l).map fun db => ⟨db, left s.cursors l⟩
  | .execute q => some { s with cursors := s.cursors ++ [(q, s.db.visible)] }
  | .fetch i => s.cursors[i]?.map fun _ => { s with cursors := s.cursors.eraseIdx i }

def opened (d : δ) : Shared δ ε ρ := ⟨start d, []⟩

/-- What a reader gets is what its query finds in the committed state. -/
def ReadsCommitted (s : Shared δ ε ρ) : Submission δ ε ρ → Prop
  | .fetch i => ∀ c, s.cursors[i]? = some c → c.1.rows c.2 s.db.visible = c.1.query s.db.committed
  | _ => True

/-- A read and a transaction are apart: no transaction is open when a read
begins, and no block runs a statement before the rows are fetched. -/
def Apart (s : Shared δ ε ρ) : Submission δ ε ρ → Prop
  | .execute _ => s.db.working = none
  | .block (.statement _) => s.cursors = []
  | _ => True

/-- Without an open transaction nothing but a statement opens one, and there is
nothing to commit. -/
theorem idle_next {s s' : State δ ε} {l : Label δ ε} (h : s.working = none)
    (hl : ∀ i, l ≠ .statement i) (hnext : next s l = some s') :
    s'.working = none ∧ s'.committed = s.committed := by
  cases l with
  | statement i => exact absurd rfl (hl i)
  | submit block => cases hnext; exact ⟨h, rfl⟩
  | acquire i =>
    simp only [next] at hnext
    split at hnext <;> cases hnext
    exact ⟨h, rfl⟩
  | statementFails i e =>
    simp only [next] at hnext
    split at hnext
    on_goal 2 => cases hnext
    split at hnext <;> cases hnext
    exact ⟨h, rfl⟩
  | commit i =>
    simp only [next] at hnext
    split at hnext
    on_goal 2 => cases hnext
    split at hnext <;> cases hnext
    simp [State.visible, h]
  | commitFails i e =>
    simp only [next] at hnext
    split at hnext
    on_goal 2 => cases hnext
    split at hnext <;> cases hnext
    exact ⟨h, rfl⟩
  | rollback i =>
    simp only [next] at hnext
    split at hnext <;> cases hnext
    exact ⟨rfl, rfl⟩
  | read => cases hnext; exact ⟨h, rfl⟩
  | crash => cases hnext; exact ⟨rfl, rfl⟩

/-- While a read is open, no transaction is, and the read has seen the committed
state. -/
structure Settled (s : Shared δ ε ρ) : Prop where
  idle : s.cursors ≠ [] → s.db.working = none
  seen : ∀ c ∈ s.cursors, c.2 = s.db.committed

theorem settled_opened (d : δ) : Settled (opened d : Shared δ ε ρ) := by
  constructor <;> simp [opened]

theorem left_subset (cursors : List (Select δ ρ × δ)) (l : Label δ ε) :
    left cursors l ⊆ cursors := by
  cases l <;> simp [left]

theorem settled_block {s : Shared δ ε ρ} (h : Settled s) {l : Label δ ε}
    (hapart : Apart s (.block l)) {db : State δ ε} (hnext : next s.db l = some db) :
    Settled ⟨db, left s.cursors l⟩ := by
  rcases hcursors : s.cursors with _ | ⟨c, cs⟩
  · have hnone : left ([] : List (Select δ ρ × δ)) l = [] := by cases l <;> rfl
    rw [hnone]
    constructor <;> simp
  · have hopen : s.cursors ≠ [] := by simp [hcursors]
    have hl : ∀ i, l ≠ .statement i := by
      rintro i rfl
      exact hopen hapart
    obtain ⟨hworking, hcommitted⟩ := idle_next (h.idle hopen) hl hnext
    refine ⟨fun _ => hworking, fun c' hc' => ?_⟩
    have hmem := left_subset _ l hc'
    rw [← hcursors] at hmem
    simp only [hcommitted, h.seen c' hmem]

theorem settled_step {s s' : Shared δ ε ρ} {l : Submission δ ε ρ} (h : Settled s)
    (hapart : Apart s l) (hstep : step s l = some s') : Settled s' := by
  cases l with
  | block l =>
    obtain ⟨db, hnext, rfl⟩ := Option.map_eq_some_iff.mp hstep
    exact settled_block h hapart hnext
  | execute q =>
    cases hstep
    have hidle : s.db.working = none := hapart
    refine ⟨fun _ => hidle, fun c hc => ?_⟩
    rcases List.mem_append.mp hc with hc | hc
    · exact h.seen c hc
    · rw [List.mem_singleton.mp hc]
      simp [State.visible, hidle]
  | fetch i =>
    obtain ⟨c, hc, rfl⟩ := Option.map_eq_some_iff.mp hstep
    refine ⟨fun hopen => h.idle ?_, fun c hc => h.seen c (List.mem_of_mem_eraseIdx hc)⟩
    intro hnil
    simp [hnil] at hopen

theorem readsCommitted_of_settled {s : Shared δ ε ρ} (h : Settled s) (l : Submission δ ε ρ) :
    ReadsCommitted s l := by
  cases l with
  | fetch i =>
    intro c hc
    have hmem := List.mem_of_getElem? hc
    have hidle := h.idle (List.ne_nil_of_mem hmem)
    have hvisible : s.db.visible = s.db.committed := by simp [State.visible, hidle]
    rw [h.seen c hmem, hvisible]
    exact c.1.stable _
  | _ => trivial

/-- In every run that keeps reads and transactions apart, every read gets what
its query finds in the committed state. -/
theorem reads_are_committed (d : δ) {submissions : List (Submission δ ε ρ)}
    (hapart : AllSteps step Apart (opened d) submissions) :
    AllSteps step ReadsCommitted (opened d) submissions :=
  hapart.of_invariant (fun _ _ _ hs hl hstep => settled_step hs hl hstep)
    (fun _ l hs _ => readsCommitted_of_settled hs l) (settled_opened d)

open image_gen.job_store image_gen.job_rows

/-- `count_active`: the count is made at the `execute`. -/
def countActive : Select Store Nat where
  query := Store.countActive
  rows d _ := d.countActive
  stable _ := rfl

/-- `create_queued` of a sync job without a webhook. -/
def insertOf (id : String) : List Sql :=
  Op.block 0 (.createQueued id "m" (.value .null) .sync none none)

/-- Two inserts and three counts: before the first statement, between the two
blocks, and between the lock and the first statement of the second. -/
def countsInBetween : List (Submission Store StoreError Nat) :=
  [.block (.submit (insertOf "a")), .block (.submit (insertOf "b")), .execute countActive,
    .block (.acquire 0), .fetch 0, .block (.statement 0), .block (.commit 0),
    .execute countActive, .fetch 0, .block (.acquire 1), .execute countActive, .fetch 0,
    .block (.statement 1), .block (.commit 1)]

theorem counts_in_between_are_committed :
    (∃ s, exec step (opened []) countsInBetween = some s ∧ s.db.committed.length = 2) ∧
      AllSteps step ReadsCommitted (opened []) countsInBetween := by
  refine ⟨⟨_, rfl, rfl⟩, reads_are_committed [] ?_⟩
  iterate 14 refine allSteps_cons (by trivial) rfl ?_
  trivial

/-- A reader between the INSERT of a job and a commit that fails. -/
def readOfAFailingInsert : List (Submission Store StoreError Nat) :=
  [.block (.submit (insertOf "a")), .block (.acquire 0), .block (.statement 0),
    .execute countActive, .fetch 0, .block (.commitFails 0 (.sqlite "disk I/O error")),
    .block (.rollback 0)]

/-- The reader counts one active job, in a run whose committed tables are all
empty. -/
theorem a_reader_counts_a_job_that_never_was :
    (∃ s, exec step (opened []) readOfAFailingInsert = some s ∧
        ∃ block e, s.db.tasks[0]? = some ⟨block, .raised e⟩) ∧
      (∀ s ∈ after step (opened []) readOfAFailingInsert, s.db.committed = []) ∧
      ¬ AllSteps step ReadsCommitted (opened []) readOfAFailingInsert := by
  refine ⟨⟨_, rfl, _, _, rfl⟩, ?_, ?_⟩
  · intro s hs
    have hempty : (after step (opened []) readOfAFailingInsert).map (·.db.committed) =
        List.replicate 7 [] := rfl
    have hmem := List.mem_map_of_mem (f := (·.db.committed)) hs
    rw [hempty] at hmem
    exact List.eq_of_mem_replicate hmem
  · intro h
    have hcount : (1 : Nat) = 0 := ((((h.2 _ rfl).2 _ rfl).2 _ rfl).2 _ rfl).1 _ rfl
    cases hcount

end image_gen.read_isolation

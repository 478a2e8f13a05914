-- The MAX_QUEUE gate. A handler counts the active jobs and inserts its own in
-- two separate awaits, so what it counts leaves out the handlers that passed
-- the gate before it and have not inserted yet.
import ImageGen.Runs
import ImageGen.Requests

namespace image_gen.queue_gate

open image_gen.runs image_gen.job_store image_gen.requests

/-! ## Handlers over one connection -/

/-- Where a POST handler stands, image or video: both run the same steps. -/
inductive Pc
  /-- Before `count_active`. -/
  | counting
  /-- The count was below `max_queue`. -/
  | admitted
  /-- Inside the `write()` block of `create_queued`, after the INSERT. -/
  | inserting
  | created
  /-- The 429 answer. -/
  | refused
  /-- An exception ended the handler. -/
  | ended
  deriving DecidableEq

structure Handler where
  submission : Submission
  pc : Pc

/-- Who holds the write lock. -/
inductive Owner
  | handler (i : Nat)
  | other

structure State where
  committed : Store
  /-- The open `write()` block, with the rows as its connection sees them. -/
  block : Option (Owner × Store)
  handlers : List Handler

/-- The rows that a SELECT reads: all readers share the one connection. -/
def State.visible (s : State) : Store :=
  match s.block with
  | some (_, rows) => rows
  | none => s.committed

def setPc (hs : List Handler) (i : Nat) (pc : Pc) : List Handler :=
  hs.modify i fun h => { h with pc := pc }

inductive Label
  | arrive (r : Submission)
  | gate (i : Nat)
  | insert (i : Nat) (id : String) (now : Nat)
  /-- The worker, recovery, a watcher or the dispatcher writes. -/
  | write (w : Write) (now : Nat)
  | commit
  | rollback
  | fail (i : Nat)

def finishBlock (s : State) (rows : Store) (owner : Owner) (pc : Pc) : State where
  committed := rows
  block := none
  handlers :=
    match owner with
    | .handler i => setPc s.handlers i pc
    | .other => s.handlers

def next (maxQueue : Nat) (s : State) : Label → Option State
  | .arrive r => some { s with handlers := s.handlers ++ [⟨r, .counting⟩] }
  | .gate i =>
    match s.handlers[i]? with
    | some ⟨_, .counting⟩ =>
      let pc := if s.visible.countActive < maxQueue then Pc.admitted else Pc.refused
      some { s with handlers := setPc s.handlers i pc }
    | _ => none
  | .insert i id now =>
    match s.handlers[i]?, s.block with
    | some ⟨r, .admitted⟩, none =>
      match s.committed.createQueued (r.row id now) with
      | .ok rows =>
        some ⟨s.committed, some (.handler i, rows), setPc s.handlers i .inserting⟩
      | .error _ => some { s with handlers := setPc s.handlers i .ended }
    | _, _ => none
  | .write w now =>
    match s.block with
    | some _ => none
    | none =>
      match w.apply s.committed now with
      | .ok rows => some { s with block := some (.other, rows) }
      | .error _ => some s
  | .commit =>
    match s.block with
    | some (owner, rows) => some (finishBlock s rows owner .created)
    | none => none
  | .rollback =>
    match s.block with
    | some (owner, _) => some (finishBlock s s.committed owner .ended)
    | none => none
  | .fail i =>
    match s.handlers[i]? with
    | some ⟨_, .counting⟩ => some { s with handlers := setPc s.handlers i .ended }
    | some ⟨_, .admitted⟩ => some { s with handlers := setPc s.handlers i .ended }
    | _ => none

def start (rows : Store) : State := ⟨rows, none, []⟩

/-! ## The load -/

/-- The handlers that passed the gate and have not inserted. -/
def reserved (hs : List Handler) : Nat := hs.countP fun h => h.pc = .admitted

/-- Every active row there can be once the open block and the handlers past
the gate are through. -/
def State.load (s : State) : Nat :=
  max s.committed.countActive s.visible.countActive + reserved s.handlers

/-- A handler passes the gate only when its own row still fits. -/
def PassesWithRoom (maxQueue : Nat) (s : State) : Label → Prop
  | .gate _ => s.visible.countActive < maxQueue → s.load < maxQueue
  | _ => True

structure Within (maxQueue : Nat) (s : State) : Prop where
  keyed : s.committed.Keyed
  block_keyed : s.visible.Keyed
  load_le : s.load ≤ maxQueue

theorem reserved_setPc_le (hs : List Handler) (i : Nat) {pc : Pc} (h : pc ≠ .admitted) :
    reserved (setPc hs i pc) ≤ reserved hs := by
  unfold reserved setPc
  induction hs generalizing i with
  | nil => simp
  | cons x xs ih =>
    cases i with
    | zero => simp [List.countP_cons, h]
    | succ i =>
      simp only [List.modify_succ_cons, List.countP_cons]
      exact Nat.add_le_add_right (ih i) _

theorem reserved_setPc_le_succ (hs : List Handler) (i : Nat) (pc : Pc) :
    reserved (setPc hs i pc) ≤ reserved hs + 1 := by
  unfold reserved setPc
  induction hs generalizing i with
  | nil => simp
  | cons x xs ih =>
    cases i with
    | zero =>
      simp only [List.modify_zero_cons, List.countP_cons]
      split <;> omega
    | succ i =>
      simp only [List.modify_succ_cons, List.countP_cons]
      have := ih i
      omega

/-- An admitted handler that moves on gives its place free. -/
theorem reserved_setPc_lt {hs : List Handler} {i : Nat} {r : Submission} {pc : Pc}
    (hi : hs[i]? = some ⟨r, .admitted⟩) (h : pc ≠ .admitted) :
    reserved (setPc hs i pc) + 1 ≤ reserved hs := by
  unfold reserved setPc
  induction hs generalizing i with
  | nil => simp at hi
  | cons x xs ih =>
    cases i with
    | zero =>
      simp only [List.getElem?_cons_zero, Option.some.injEq] at hi
      subst hi
      simp [h]
    | succ i =>
      simp only [List.getElem?_cons_succ] at hi
      simp only [List.modify_succ_cons, List.countP_cons]
      have := ih hi
      omega

theorem countActive_createQueued {s t : Store} {job : Job} (h : s.createQueued job = .ok t) :
    t.countActive ≤ s.countActive + 1 := by
  unfold Store.createQueued at h
  split at h
  · cases h
    unfold Store.countActive
    rw [List.countP_append]
    have : List.countP (fun j : Job => !decide j.status.Terminal) [job] ≤ 1 :=
      List.countP_le_length
    omega
  · cases h

/-! ## The invariant -/

section Invariant

variable {maxQueue : Nat} {s s' : State}

/-- A step that leaves the rows and admits nobody. -/
theorem within_handlers (h : Within maxQueue s) {hs : List Handler}
    (hle : reserved hs ≤ reserved s.handlers) : Within maxQueue { s with handlers := hs } := by
  refine ⟨h.keyed, h.block_keyed, ?_⟩
  have hload := h.load_le
  unfold State.load at hload ⊢
  change max s.committed.countActive s.visible.countActive + reserved hs ≤ maxQueue
  omega

theorem within_gate {i : Nat} (h : Within maxQueue s) (hroom : PassesWithRoom maxQueue s (.gate i))
    (hnext : next maxQueue s (.gate i) = some s') : Within maxQueue s' := by
  simp only [next] at hnext
  split at hnext
  · cases hnext
    split
    · rename_i hlt
      have hload := hroom hlt
      refine ⟨h.keyed, h.block_keyed, ?_⟩
      have hone := reserved_setPc_le_succ s.handlers i .admitted
      unfold State.load at hload ⊢
      change max s.committed.countActive s.visible.countActive +
        reserved (setPc s.handlers i .admitted) ≤ maxQueue
      omega
    · exact within_handlers h (reserved_setPc_le _ _ (by decide))
  · cases hnext

theorem within_insert {i now : Nat} {id : String} (h : Within maxQueue s)
    (hnext : next maxQueue s (.insert i id now) = some s') : Within maxQueue s' := by
  simp only [next] at hnext
  split at hnext
  · rename_i r hi hblock
    split at hnext
    · rename_i rows hrows
      cases hnext
      refine ⟨h.keyed, Store.keyed_createQueued h.keyed hrows, ?_⟩
      have hload := h.load_le
      have hcount := countActive_createQueued hrows
      have hfree := reserved_setPc_lt hi (show Pc.inserting ≠ .admitted by decide)
      unfold State.load at hload ⊢
      have hvisible : s.visible = s.committed := by
        unfold State.visible
        rw [hblock]
      rw [hvisible] at hload
      change max s.committed.countActive rows.countActive +
        reserved (setPc s.handlers i .inserting) ≤ maxQueue
      omega
    · cases hnext
      exact within_handlers h (reserved_setPc_le _ _ (by decide))
  · cases hnext

theorem within_write {w : Write} {now : Nat} (h : Within maxQueue s)
    (hnext : next maxQueue s (.write w now) = some s') : Within maxQueue s' := by
  simp only [next] at hnext
  split at hnext
  · cases hnext
  split at hnext
  · rename_i rows hrows
    cases hnext
    refine ⟨h.keyed, Write.keyed_apply h.keyed hrows, ?_⟩
    have hload := h.load_le
    have hcount := Write.countActive_apply_le h.keyed hrows
    unfold State.load at hload ⊢
    change max s.committed.countActive rows.countActive + reserved s.handlers ≤ maxQueue
    omega
  · cases hnext
    exact h

/-- The end of a block, with either set of rows. -/
theorem within_finishBlock (h : Within maxQueue s) {rows : Store} (owner : Owner) {pc : Pc}
    (hpc : pc ≠ .admitted) (hrows : rows = s.committed ∨ rows = s.visible) :
    Within maxQueue (finishBlock s rows owner pc) := by
  have hkeyed : rows.Keyed := by
    rcases hrows with rfl | rfl
    · exact h.keyed
    · exact h.block_keyed
  have hreserved : reserved (finishBlock s rows owner pc).handlers ≤ reserved s.handlers := by
    unfold finishBlock
    cases owner with
    | handler i => exact reserved_setPc_le _ _ hpc
    | other => exact Nat.le_refl _
  refine ⟨hkeyed, hkeyed, ?_⟩
  have hload := h.load_le
  unfold State.load at hload ⊢
  change max rows.countActive rows.countActive +
    reserved (finishBlock s rows owner pc).handlers ≤ maxQueue
  rcases hrows with rfl | rfl <;> omega

theorem within_next {a : Label} (h : Within maxQueue s) (hroom : PassesWithRoom maxQueue s a)
    (hnext : next maxQueue s a = some s') : Within maxQueue s' := by
  cases a with
  | arrive r =>
    cases hnext
    refine within_handlers h ?_
    simp [reserved]
  | gate i => exact within_gate h hroom hnext
  | insert i id now => exact within_insert h hnext
  | write w now => exact within_write h hnext
  | commit =>
    simp only [next] at hnext
    split at hnext
    · rename_i owner rows hblock
      cases hnext
      refine within_finishBlock h owner (by decide) (.inr ?_)
      unfold State.visible
      rw [hblock]
    · cases hnext
  | rollback =>
    simp only [next] at hnext
    split at hnext
    · cases hnext
      exact within_finishBlock h _ (by decide) (.inl rfl)
    · cases hnext
  | fail i =>
    simp only [next] at hnext
    split at hnext
    · cases hnext
      exact within_handlers h (reserved_setPc_le _ _ (by decide))
    · cases hnext
      exact within_handlers h (reserved_setPc_le _ _ (by decide))
    · cases hnext

end Invariant

/-- In a run in which each handler passes the gate only with room for its own
row, the active jobs never exceed `maxQueue`, committed or not. -/
theorem the_queue_keeps_its_bound (maxQueue : Nat) (rows : Store) (hkeyed : rows.Keyed)
    (hrows : rows.countActive ≤ maxQueue) (labels : List Label) (s : State)
    (hroom : AllSteps (next maxQueue) (PassesWithRoom maxQueue) (start rows) labels)
    (hrun : exec (next maxQueue) (start rows) labels = some s) :
    s.committed.countActive ≤ maxQueue ∧ s.visible.countActive ≤ maxQueue := by
  have hstart : Within maxQueue (start rows) := by
    refine ⟨hkeyed, hkeyed, ?_⟩
    change max rows.countActive rows.countActive + 0 ≤ maxQueue
    omega
  have hs : Within maxQueue s :=
    invariant (fun _ _ _ h hok hnext => within_next h hok hnext) hstart hroom hrun
  have hload := hs.load_le
  unfold State.load at hload
  omega

/-! ## Two requests at once -/

def smallSubmission : Submission where
  artifact := .image
  modelName := "sdxl"
  raw := .obj []
  mode := .sync
  webhookUrl := none
  webhookHeaders := none

/-- A job that is queued already. -/
def oneQueued : Store := [smallSubmission.row "gen_0" 0]

/-- Both handlers have passed the gate when the first one inserts. -/
def twoRequests : List Label := [.arrive smallSubmission, .arrive smallSubmission, .gate 0,
  .gate 1, .insert 0 "gen_1" 1, .commit, .insert 1 "gen_2" 2, .commit]

theorem two_requests_fit_beside_a_job :
    let s := (exec (next 3) (start oneQueued) twoRequests).getD (start [])
    s.committed.countActive ≤ 3 ∧ s.visible.countActive ≤ 3 := by
  refine the_queue_keeps_its_bound 3 oneQueued (List.nodup_singleton _) (by decide) twoRequests _
    ?_ (by rfl)
  iterate 2 refine allSteps_cons trivial rfl ?_
  iterate 2 refine allSteps_cons (fun _ => by decide) rfl ?_
  iterate 4 refine allSteps_cons trivial rfl ?_
  trivial

/-- Both handlers count before either inserts. -/
theorem two_requests_pass_the_gate_together :
    ∃ s, exec (next 1) (start [])
        [.arrive smallSubmission, .arrive smallSubmission, .gate 0, .gate 1,
          .insert 0 "gen_1" 0, .commit, .insert 1 "gen_2" 0, .commit] = some s ∧
      s.committed.countActive = 2 ∧ ¬ s.committed.countActive ≤ 1 :=
  ⟨_, rfl, by decide, by decide⟩

end image_gen.queue_gate

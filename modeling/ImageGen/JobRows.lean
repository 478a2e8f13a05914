-- The rows of the job table as a state machine. Each operation of
-- `app/queue/jobs.py` is one write block; what a committed block does to a row
-- is said once, and the laws of every run follow from it.
import Mathlib.Data.List.Chain
import ImageGen.JobStore
import ImageGen.WriteBlocks

namespace image_gen.job_rows

open image_gen.json image_gen.job_store image_gen.runs image_gen.write_blocks

/-! ## The operations as blocks -/

abbrev Sql := Statement Store StoreError

def insertRow (job : Job) : Sql := fun s => s.createQueued job

def updateWhere (id : String) (f : Job → Job) : Sql := fun s => .ok (s.update id f)

/-- `_fetch_status` and `_assert_allowed`. -/
def checkTransition (id : String) (target : JobStatus) : Sql := fun s => do
  let current ← s.fetchStatus id
  Store.assertAllowed current target
  return s

def writeBlock (now : Nat) : Write → List Sql
  | .setRunning id promptId clientId =>
    [checkTransition id .running, updateWhere id (Job.setRunning promptId clientId now)]
  | .setCompleted id outputKeys result =>
    [checkTransition id .completed, updateWhere id (Job.setCompleted outputKeys result now)]
  | .setFailed id errorCode errorMessage =>
    [checkTransition id .failed, updateWhere id (Job.setFailed errorCode errorMessage now)]
  | .setAbandoned id errorCode =>
    [checkTransition id .abandoned, updateWhere id (Job.setAbandoned errorCode now)]
  | .setFetched id => [updateWhere id (Job.setFetched now)]
  | .markInitialResponseDelivered id => [updateWhere id (Job.markInitialResponseDelivered now)]
  | .markResponseDelivered id => [updateWhere id (Job.markResponseDelivered now)]
  | .markAsyncWithHandover id => [updateWhere id (Job.markAsyncWithHandover now)]
  | .markHandover id => [updateWhere id (Job.markHandover now)]
  | .setWebhookDeliveryStatus id status =>
    [updateWhere id (Job.setWebhookDeliveryStatus status now)]

inductive Op
  | createQueued (id modelName : String) (inputJson : StoredJson) (mode : JobMode)
      (webhookUrl : Option String) (webhookHeaders : Option (List (String × String)))
  | write (w : Write)

/-- The INSERT leaves the delivery status NULL. A second statement sets it for a
job with a webhook. -/
def Op.block (now : Nat) : Op → List Sql
  | .createQueued id modelName inputJson mode webhookUrl webhookHeaders =>
    let job := Job.fresh id modelName inputJson mode webhookUrl webhookHeaders now
    insertRow { job with webhookDeliveryStatus := none } ::
      (if webhookUrl.isSome then
        [updateWhere id fun j => { j with webhookDeliveryStatus := some .pending }]
      else [])
  | .write w => writeBlock now w

theorem runAll_transition (s : Store) (id : String) (target : JobStatus) (f : Job → Job) :
    runAll [checkTransition id target, updateWhere id f] s = s.transition id target f := by
  have hcheck : checkTransition id target s =
      (s.fetchStatus id >>= fun current => Store.assertAllowed current target >>= fun _ => pure s) :=
    rfl
  have hwhole : s.transition id target f =
      (s.fetchStatus id >>= fun current =>
        Store.assertAllowed current target >>= fun _ => pure (s.update id f)) := rfl
  rw [runAll, hcheck, hwhole]
  rcases s.fetchStatus id with e | current
  · rfl
  · rcases hallowed : Store.assertAllowed current target with e | _
    · simp [Bind.bind, Except.bind, hallowed]
    · simp [Bind.bind, Except.bind, Pure.pure, Except.pure, hallowed, runAll, updateWhere]

/-- A block that runs through does what the write does at once. -/
theorem runAll_writeBlock (s : Store) (now : Nat) (w : Write) :
    runAll (writeBlock now w) s = w.apply s now := by
  cases w with
  | setRunning id promptId clientId => exact runAll_transition s id _ _
  | setCompleted id outputKeys result => exact runAll_transition s id _ _
  | setFailed id errorCode errorMessage => exact runAll_transition s id _ _
  | setAbandoned id errorCode => exact runAll_transition s id _ _
  | setFetched id => rfl
  | markInitialResponseDelivered id => rfl
  | markResponseDelivered id => rfl
  | markAsyncWithHandover id => rfl
  | markHandover id => rfl
  | setWebhookDeliveryStatus id status => rfl

theorem update_of_absent {s : Store} {id : String} (h : s.getById id = none) (f : Job → Job) :
    s.update id f = s := by
  unfold Store.update
  refine List.map_congr_left (fun j hj => ?_) |>.trans (List.map_id s)
  have := List.find?_eq_none.mp h j hj
  rw [if_neg (by simpa using this)]
  rfl

theorem runAll_createQueued (s : Store) (now : Nat) (id modelName : String)
    (inputJson : StoredJson) (mode : JobMode) (webhookUrl : Option String)
    (webhookHeaders : Option (List (String × String))) :
    runAll ((Op.createQueued id modelName inputJson mode webhookUrl webhookHeaders).block now) s =
      s.createQueued (Job.fresh id modelName inputJson mode webhookUrl webhookHeaders now) := by
  by_cases hid : s.getById id = none
  · cases webhookUrl with
    | none => simp [Op.block, runAll, insertRow, Store.createQueued, Job.fresh, hid]
    | some url =>
      have happend : (s ++ [{ Job.fresh id modelName inputJson mode (some url) webhookHeaders now
          with webhookDeliveryStatus := none }] : Store).update id
            (fun j => { j with webhookDeliveryStatus := some .pending }) =
          s ++ [Job.fresh id modelName inputJson mode (some url) webhookHeaders now] := by
        have hs := update_of_absent hid fun j => { j with webhookDeliveryStatus := some .pending }
        unfold Store.update at hs ⊢
        rw [List.map_append, hs]
        simp [Job.fresh]
      simp only [Op.block, runAll, insertRow, Store.createQueued, Option.isSome_some, if_true,
        updateWhere]
      rw [if_pos (by exact hid), if_pos (by exact hid)]
      simp only [happend]
  · simp [Op.block, runAll, insertRow, Store.createQueued, Job.fresh, hid]

/-! ## Rows -/

/-- What the columns of a row say about its status. -/
structure RowOk (j : Job) : Prop where
  active : ¬ j.status.Terminal → j.errorCode = none ∧ j.errorMessage = none
  running : j.status = .running → j.promptId ≠ none
  completed : j.status = .completed → j.promptId ≠ none ∧ j.outputKeys ≠ none ∧
    j.resultJson ≠ none ∧ j.errorCode = none ∧ j.errorMessage = none
  failed : j.status = .failed → j.errorCode ≠ none

/-- The columns that a terminal row never changes. -/
structure SameOutcome (j k : Job) : Prop where
  status : k.status = j.status
  outputKeys : k.outputKeys = j.outputKeys
  resultJson : k.resultJson = j.resultJson
  errorCode : k.errorCode = j.errorCode
  errorMessage : k.errorMessage = j.errorMessage

theorem SameOutcome.trans {j k l : Job} (h : SameOutcome j k) (h' : SameOutcome k l) :
    SameOutcome j l :=
  ⟨h'.status.trans h.status, h'.outputKeys.trans h.outputKeys, h'.resultJson.trans h.resultJson,
    h'.errorCode.trans h.errorCode, h'.errorMessage.trans h.errorMessage⟩

/-- What one committed block can do to a row. -/
structure RowStep (j k : Job) : Prop where
  status : k.status = j.status ∨ k.status ∈ allowedTransitions j.status
  terminal : j.status.Terminal → SameOutcome j k
  ok : RowOk j → RowOk k

theorem rowStep_of_same {j k : Job} (h : SameOutcome j k) (hprompt : k.promptId = j.promptId) :
    RowStep j k := by
  refine ⟨.inl h.status, fun _ => h, fun hok => ⟨?_, ?_, ?_, ?_⟩⟩
  · rw [h.status, h.errorCode, h.errorMessage]
    exact hok.active
  · rw [h.status, hprompt]
    exact hok.running
  · rw [h.status, hprompt, h.outputKeys, h.resultJson, h.errorCode, h.errorMessage]
    exact hok.completed
  · rw [h.status, h.errorCode]
    exact hok.failed

theorem rowStep_refl (j : Job) : RowStep j j := rowStep_of_same ⟨rfl, rfl, rfl, rfl, rfl⟩ rfl

/-- A row that a transition leaves was not terminal. -/
theorem not_terminal_of_allowed {current target : JobStatus}
    (h : target ∈ allowedTransitions current) : ¬ current.Terminal := by
  intro hterm
  rw [hterm] at h
  cases h

theorem rowStep_setRunning {j : Job} (promptId clientId : String) (now : Nat)
    (h : JobStatus.running ∈ allowedTransitions j.status) :
    RowStep j (j.setRunning promptId clientId now) := by
  have hlive := not_terminal_of_allowed h
  refine ⟨.inr h, fun hterm => absurd hterm hlive, fun hok => ⟨?_, ?_, ?_, ?_⟩⟩
  · exact fun _ => hok.active hlive
  · exact fun _ => by simp [Job.setRunning]
  · exact fun heq => by cases heq
  · exact fun heq => by cases heq

theorem rowStep_setCompleted {j : Job} (outputKeys : List String) (result : JobResult) (now : Nat)
    (h : JobStatus.completed ∈ allowedTransitions j.status) :
    RowStep j (j.setCompleted outputKeys result now) := by
  have hlive := not_terminal_of_allowed h
  have hrunning : j.status = .running := by
    revert h
    cases j.status <;> decide
  refine ⟨.inr h, fun hterm => absurd hterm hlive, fun hok => ⟨?_, ?_, ?_, ?_⟩⟩
  · exact fun _ => hok.active hlive
  · exact fun heq => by cases heq
  · obtain ⟨hcode, hmessage⟩ := hok.active hlive
    exact fun _ => ⟨hok.running hrunning, nofun, nofun, hcode, hmessage⟩
  · exact fun heq => by cases heq

theorem rowStep_setFailed {j : Job} (errorCode errorMessage : String) (now : Nat)
    (h : JobStatus.failed ∈ allowedTransitions j.status) :
    RowStep j (j.setFailed errorCode errorMessage now) := by
  have hlive := not_terminal_of_allowed h
  refine ⟨.inr h, fun hterm => absurd hterm hlive, fun hok => ⟨?_, ?_, ?_, ?_⟩⟩
  · exact fun hactive => absurd rfl hactive
  · exact fun heq => by cases heq
  · exact fun heq => by cases heq
  · exact fun _ => by simp [Job.setFailed]

theorem rowStep_setAbandoned {j : Job} (errorCode : String) (now : Nat)
    (h : JobStatus.abandoned ∈ allowedTransitions j.status) :
    RowStep j (j.setAbandoned errorCode now) := by
  have hlive := not_terminal_of_allowed h
  refine ⟨.inr h, fun hterm => absurd hterm hlive, fun hok => ⟨?_, ?_, ?_, ?_⟩⟩
  · exact fun hactive => absurd rfl hactive
  · exact fun heq => by cases heq
  · exact fun heq => by cases heq
  · exact fun heq => by cases heq

theorem rowOk_fresh (id modelName : String) (inputJson : StoredJson) (mode : JobMode)
    (webhookUrl : Option String) (webhookHeaders : Option (List (String × String))) (now : Nat) :
    RowOk (Job.fresh id modelName inputJson mode webhookUrl webhookHeaders now) :=
  ⟨fun _ => ⟨rfl, rfl⟩, nofun, nofun, nofun⟩

/-! ## Tables -/

/-- What one committed block can do to the table. -/
def StoreStep (s t : Store) : Prop :=
  ∀ id, match s.getById id, t.getById id with
    | none, none => True
    | none, some k => k.status = .queued ∧ RowOk k
    | some j, some k => RowStep j k
    | some _, none => False

theorem storeStep_refl (s : Store) : StoreStep s s := by
  intro id
  rcases s.getById id with _ | j
  · trivial
  · exact rowStep_refl j

theorem storeStep_update {s : Store} {id : String} {f : Job → Job} (hid : ∀ j, (f j).id = j.id)
    (hstep : ∀ j, s.getById id = some j → RowStep j (f j)) : StoreStep s (s.update id f) := by
  intro id'
  rw [Store.getById_update s id id' hid]
  rcases h : s.getById id' with _ | j
  · trivial
  · simp only [Option.map_some]
    by_cases heq : j.id = id
    · rw [if_pos heq]
      apply hstep
      rw [← heq, Store.getById_id h]
      exact h
    · rw [if_neg heq]
      exact rowStep_refl j

theorem storeStep_transition {s t : Store} {id : String} {target : JobStatus} {f : Job → Job}
    (hid : ∀ j, (f j).id = j.id)
    (hstep : ∀ j, target ∈ allowedTransitions j.status → RowStep j (f j))
    (h : s.transition id target f = .ok t) : StoreStep s t := by
  obtain ⟨j, hrow, hallowed, rfl⟩ := Store.transition_ok h
  refine storeStep_update hid fun k hk => ?_
  rw [hrow] at hk
  cases hk
  exact hstep j hallowed

theorem storeStep_flags {s : Store} (id : String) {f : Job → Job} (hid : ∀ j, (f j).id = j.id)
    (hsame : ∀ j, SameOutcome j (f j) ∧ (f j).promptId = j.promptId) :
    StoreStep s (s.update id f) :=
  storeStep_update hid fun j _ => rowStep_of_same (hsame j).1 (hsame j).2

theorem storeStep_apply {s t : Store} {now : Nat} {w : Write} (h : w.apply s now = .ok t) :
    StoreStep s t := by
  cases w with
  | setRunning id promptId clientId =>
    exact storeStep_transition (f := Job.setRunning promptId clientId now) (fun _ => rfl)
      (fun _ => rowStep_setRunning promptId clientId now) h
  | setCompleted id outputKeys result =>
    exact storeStep_transition (f := Job.setCompleted outputKeys result now) (fun _ => rfl)
      (fun _ => rowStep_setCompleted outputKeys result now) h
  | setFailed id errorCode errorMessage =>
    exact storeStep_transition (f := Job.setFailed errorCode errorMessage now) (fun _ => rfl)
      (fun _ => rowStep_setFailed errorCode errorMessage now) h
  | setAbandoned id errorCode =>
    exact storeStep_transition (f := Job.setAbandoned errorCode now) (fun _ => rfl)
      (fun _ => rowStep_setAbandoned errorCode now) h
  | setFetched id =>
    cases h
    apply storeStep_flags
    · intro j
      unfold Job.setFetched
      split <;> rfl
    · intro j
      unfold Job.setFetched
      split <;> exact ⟨⟨rfl, rfl, rfl, rfl, rfl⟩, rfl⟩
  | markInitialResponseDelivered id =>
    cases h
    apply storeStep_flags
    · intro j
      unfold Job.markInitialResponseDelivered
      split <;> rfl
    · intro j
      unfold Job.markInitialResponseDelivered
      split <;> exact ⟨⟨rfl, rfl, rfl, rfl, rfl⟩, rfl⟩
  | markResponseDelivered id =>
    cases h
    apply storeStep_flags
    · intro j
      unfold Job.markResponseDelivered
      split <;> rfl
    · intro j
      unfold Job.markResponseDelivered
      split <;> exact ⟨⟨rfl, rfl, rfl, rfl, rfl⟩, rfl⟩
  | markAsyncWithHandover id =>
    cases h
    exact storeStep_flags id (fun _ => rfl) fun _ => ⟨⟨rfl, rfl, rfl, rfl, rfl⟩, rfl⟩
  | markHandover id =>
    cases h
    exact storeStep_flags id (fun _ => rfl) fun _ => ⟨⟨rfl, rfl, rfl, rfl, rfl⟩, rfl⟩
  | setWebhookDeliveryStatus id status =>
    cases h
    exact storeStep_flags id (fun _ => rfl) fun _ => ⟨⟨rfl, rfl, rfl, rfl, rfl⟩, rfl⟩

theorem storeStep_createQueued {s t : Store} {job : Job} (hjob : job.status = .queued)
    (hok : RowOk job) (h : s.createQueued job = .ok t) : StoreStep s t := by
  unfold Store.createQueued at h
  split at h
  · rename_i hnew
    cases h
    intro id
    have happend : Store.getById (s ++ [job]) id =
        (s.getById id).or (Store.getById [job] id) := List.find?_append
    rw [happend]
    rcases hrow : s.getById id with _ | j
    · simp only [Option.none_or]
      by_cases hid : job.id = id
      · have hone : Store.getById [job] id = some job := by simp [Store.getById, hid]
        rw [hone]
        exact ⟨hjob, hok⟩
      · have hone : Store.getById [job] id = none := by simp [Store.getById, hid]
        rw [hone]
        trivial
    · exact rowStep_refl j
  · cases h

/-- Every operation keeps the ids distinct and moves each row along the table. -/
theorem storeStep_block {s t : Store} {now : Nat} {op : Op} (hs : s.Keyed)
    (h : runAll (op.block now) s = .ok t) : t.Keyed ∧ StoreStep s t := by
  cases op with
  | createQueued id modelName inputJson mode webhookUrl webhookHeaders =>
    rw [runAll_createQueued] at h
    exact ⟨Store.keyed_createQueued hs h, storeStep_createQueued rfl (rowOk_fresh ..) h⟩
  | write w =>
    have happly : w.apply s now = .ok t := (runAll_writeBlock s now w).symm.trans h
    exact ⟨Write.keyed_apply hs happly, storeStep_apply happly⟩

/-! ## Runs -/

/-- The statuses of one id in two tables, one block apart. -/
def StatusStep : Option JobStatus → Option JobStatus → Prop
  | none, none => True
  | none, some b => b = .queued
  | some a, some b => b = a ∨ b ∈ allowedTransitions a
  | some _, none => False

def Frozen (s t : Store) : Prop :=
  ∀ id j, s.getById id = some j → j.status.Terminal →
    ∃ k, t.getById id = some k ∧ SameOutcome j k

instance : IsTrans Store Frozen where
  trans s t u hst htu := by
    intro id j hj hterm
    obtain ⟨k, hk, hjk⟩ := hst id j hj hterm
    have hterm' : k.status.Terminal := hjk.status ▸ hterm
    obtain ⟨l, hl, hkl⟩ := htu id k hk hterm'
    exact ⟨l, hl, hjk.trans hkl⟩

theorem StoreStep.statuses {s t : Store} (h : StoreStep s t) (id : String) :
    StatusStep ((s.getById id).map (·.status)) ((t.getById id).map (·.status)) := by
  have hid := h id
  rcases hs : s.getById id with _ | j <;> rcases ht : t.getById id with _ | k <;>
    rw [hs, ht] at hid
  · trivial
  · exact hid.1
  · exact hid
  · exact hid.status

theorem StoreStep.frozen {s t : Store} (h : StoreStep s t) : Frozen s t := by
  intro id j hj hterm
  have hid := h id
  rcases ht : t.getById id with _ | k <;> rw [hj, ht] at hid
  · exact hid.elim
  · exact ⟨k, rfl, hid.terminal hterm⟩

theorem StoreStep.rowOk {s t : Store} (h : StoreStep s t) (ht : t.Keyed)
    (hok : ∀ row ∈ s, RowOk row) : ∀ row ∈ t, RowOk row := by
  intro row hrow
  have hid := h row.id
  rw [Store.getById_of_mem ht hrow] at hid
  rcases hs : s.getById row.id with _ | j <;> rw [hs] at hid
  · exact hid.2
  · exact hid.ok (hok j (List.mem_of_find?_eq_some hs))

abbrev Label := write_blocks.Label Store StoreError

/-- A submitted block is an operation of the job store. -/
def IsOp (block : List Sql) : Prop := ∃ op now, block = Op.block now op

/-- The tables that the run commits, the empty one first. -/
def tables (labels : List Label) : List Store :=
  (start [] :: after next (start []) labels).map (·.committed)

structure RowsInv (s : State Store StoreError) : Prop where
  coherent : Coherent s
  blocks : ∀ t ∈ s.tasks, IsOp t.block
  keyed : s.committed.Keyed
  rows : ∀ row ∈ s.committed, RowOk row

theorem rowsInv_start : RowsInv (start []) :=
  ⟨coherent_start [], List.forall_mem_nil _, List.nodup_nil, List.forall_mem_nil _⟩

theorem rowsInv_next {s s' : State Store StoreError} {l : Label} (h : RowsInv s)
    (hl : ∀ block, l = .submit block → IsOp block) (hnext : next s l = some s') :
    RowsInv s' ∧ StoreStep s.committed s'.committed := by
  have hblocks := blocks_next h.blocks hl hnext
  rcases committed_next h.coherent hnext with hsame | ⟨i, t, -, hi, hrun, -⟩
  · refine ⟨⟨coherent_next h.coherent hnext, hblocks, ?_, ?_⟩, ?_⟩ <;> rw [hsame]
    · exact h.keyed
    · exact h.rows
    · exact storeStep_refl _
  · obtain ⟨op, now, hop⟩ := h.blocks t (List.mem_of_getElem? hi)
    rw [hop] at hrun
    obtain ⟨hkeyed, hstep⟩ := storeStep_block h.keyed hrun
    exact ⟨⟨coherent_next h.coherent hnext, hblocks, hkeyed, hstep.rowOk hkeyed h.rows⟩, hstep⟩

theorem allSteps_isOp {labels : List Label} (hops : ∀ block, .submit block ∈ labels → IsOp block)
    (s : State Store StoreError) :
    AllSteps next (fun _ l => ∀ block, l = .submit block → IsOp block) s labels := by
  apply allSteps_of_forall
  intro l hl _ block heq
  exact hops block (heq ▸ hl)

theorem isChain_tables {R : Store → Store → Prop} (hR : ∀ s t, StoreStep s t → R s t)
    {labels : List Label} (hops : ∀ block, .submit block ∈ labels → IsOp block) :
    (tables labels).IsChain R := by
  refine isChain_after (·.committed) (fun s l s' h hl hnext => ?_) rowsInv_start
    (allSteps_isOp hops _)
  obtain ⟨hinv, hstep⟩ := rowsInv_next h hl hnext
  exact ⟨hinv, hR _ _ hstep⟩

theorem rowOk_tables {labels : List Label} (hops : ∀ block, .submit block ∈ labels → IsOp block) :
    ∀ t ∈ tables labels, ∀ row ∈ t, RowOk row := by
  intro t ht
  obtain ⟨u, hu, rfl⟩ := List.mem_map.mp ht
  have hinv := forall_after (fun s l s' h hl hnext => (rowsInv_next h hl hnext).1) rowsInv_start
    (allSteps_isOp hops _)
  exact (hinv u hu).rows

/-- The laws of the job table, for every interleaving of the operations with any
of their statements failing: the statuses of a row follow the transition table,
a terminal row keeps its outcome, the columns of a row agree with its status,
and an operation that raises changes nothing that is committed. -/
theorem rows_follow_the_transition_table {labels : List Label} {s : State Store StoreError}
    (hops : ∀ block, .submit block ∈ labels → IsOp block)
    (hrun : exec next (start []) labels = some s) :
    (∀ id, ((tables labels).map fun t => (t.getById id).map (·.status)).IsChain StatusStep) ∧
      (tables labels).Pairwise Frozen ∧
      (∀ t ∈ tables labels, ∀ row ∈ t, RowOk row) ∧
      ∀ i block e, s.tasks[i]? = some ⟨block, .raised e⟩ →
        AllSteps next (fun u l => l.task = some i → ∀ u', next u l = some u' →
          u'.committed = u.committed) (start []) labels := by
  refine ⟨fun id => ?_, ?_, rowOk_tables hops, ?_⟩
  · rw [List.isChain_map]
    exact isChain_tables (fun s t h => h.statuses id) hops
  · exact List.isChain_iff_pairwise.mp (isChain_tables (fun s t h => h.frozen) hops)
  · intro i block e hraised
    exact raised_leaves (coherent_start []) hrun hraised

/-- A job completes, and a second completion that waited for the lock raises. -/
def twoCompletions : List Label :=
  [.submit (Op.block 0 (.createQueued "a" "m" (.value .null) .sync none none)),
    .submit (Op.block 1 (.write (.setRunning "a" "p" "c"))),
    .submit (Op.block 2 (.write (.setCompleted "a" [] ⟨[], 0, 0⟩))),
    .submit (Op.block 3 (.write (.setCompleted "a" ["k"] ⟨[], 0, 0⟩))),
    .acquire 0, .statement 0, .commit 0, .acquire 1, .statement 1, .statement 1, .commit 1,
    .acquire 2, .statement 2, .statement 2, .commit 2, .acquire 3, .statement 3, .rollback 3]

theorem twoCompletions_isOp : ∀ block, .submit block ∈ twoCompletions → IsOp block := by
  intro block hblock
  simp only [twoCompletions, List.mem_cons, Label.submit.injEq, reduceCtorEq,
    List.not_mem_nil, or_false] at hblock
  rcases hblock with rfl | rfl | rfl | rfl <;> exact ⟨_, _, rfl⟩

theorem the_second_completion_changes_nothing :
    (tables twoCompletions).Pairwise Frozen ∧
      AllSteps next (fun u l => l.task = some 3 → ∀ u', next u l = some u' →
        u'.committed = u.committed) (start []) twoCompletions := by
  have hlaws := rows_follow_the_transition_table twoCompletions_isOp rfl
  exact ⟨hlaws.2.1, hlaws.2.2.2 3 _ _ rfl⟩

end image_gen.job_rows

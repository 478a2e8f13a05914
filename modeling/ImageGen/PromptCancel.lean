-- `ComfyUIAdapter.cancel` next to the backend's queue. It reads the queue, and
-- then sends an interrupt that names no prompt.
import Mathlib.Data.List.Basic
import ImageGen.Coroutine
import ImageGen.Json
import ImageGen.Runs

namespace image_gen.prompt_cancel

open image_gen.coroutine image_gen.json image_gen.runs

/-! ## The adapter -/

structure Response where
  statusCode : Nat
  text : String
  /-- `resp.json()`. -/
  body : Json

inductive Exc
  /-- `httpx.HTTPError`. -/
  | http (message : String)
  /-- `ComfyUnreachableError`. -/
  | unreachable (message : String)
  /-- What Python raises on a body of another shape. -/
  | typeError (message : String)
  deriving DecidableEq

inductive Op
  /-- `GET /queue`. -/
  | getQueue
  /-- `POST /interrupt`. -/
  | interrupt
  /-- `POST /queue` with `{"delete": [..]}`. -/
  | deleteFromQueue (promptIds : List String)

@[reducible] def Op.Ans : Op → Type
  | .getQueue => Response
  | _ => Unit

abbrev Prog (α : Type) := Co Exc Op Op.Ans α

/-- A request, with the text that its transport error gets. -/
def request (op : Op) (what : String) : Prog op.Ans :=
  tryCatch (Co.call op) fun
    | .http message => throw (.unreachable (what ++ ": " ++ message))
    | e => throw e

/-- `for e in value`. -/
def iter : Json → Except Exc (List Json)
  | .arr items => .ok items
  | .str s => .ok (s.toList.map fun c => .str c.toString)
  | .obj fields => .ok (fields.map fun f => .str f.1)
  | j => .error (.typeError ("'" ++ typeName j ++ "' object is not iterable"))

/-- `e[1]` of an entry that is long enough, as the member of a set. -/
def entryPromptId (e : Json) : Except Exc (Option Json) :=
  match e with
  | .arr (_ :: id :: _) =>
    match id with
    | .arr _ => .error (.typeError "unhashable type: 'list'")
    | .obj _ => .error (.typeError "unhashable type: 'dict'")
    | id => .ok (some id)
  | .arr _ => .ok none
  | .str s =>
    match s.toList with
    | _ :: c :: _ => .ok (some (.str c.toString))
    | _ => .ok none
  | .obj fields => if 1 < fields.length then .error (.typeError "1") else .ok none
  | j => .error (.typeError ("object of type '" ++ typeName j ++ "' has no len()"))

/-- `{e[1] for e in queue_data.get(key) or [] if len(e) > 1}`. -/
def promptIds (queueData : Json) (key : String) : Except Exc (List Json) :=
  match queueData with
  | .obj fields => do
    let value := Json.get fields key
    let entries ← if value.truthy then iter value else pure []
    let ids ← entries.mapM entryPromptId
    return ids.reduceOption
  | j => .error (.typeError ("'" ++ typeName j ++ "' object has no attribute 'get'"))

/-- `prompt_id in pids`. -/
def contains (pids : List Json) (promptId : String) : Bool :=
  pids.any fun
    | .str s => decide (s = promptId)
    | _ => false

/-- What `cancel` does about a prompt that runs. -/
def interruptRunning : Prog Unit := request .interrupt "POST /interrupt"

/-- What it does about one that waits. -/
def deletePending (promptId : String) : Prog Unit :=
  request (.deleteFromQueue [promptId]) "DELETE /queue"

/-- `cancel` on the answer of the queue. -/
def cancelIn (promptId : String) (queueResp : Response) : Prog Unit := do
  if queueResp.statusCode ≠ 200 then
    throw (.unreachable ("/queue returned " ++ toString queueResp.statusCode ++ ": " ++
      String.ofList (queueResp.text.toList.take 200)))
  let runningPids ← Co.ofExcept (promptIds queueResp.body "queue_running")
  let pendingPids ← Co.ofExcept (promptIds queueResp.body "queue_pending")
  if contains runningPids promptId then interruptRunning
  else if contains pendingPids promptId then deletePending promptId
  else pure ()

def cancel (promptId : String) : Prog Unit := do
  let queueResp ← request .getQueue "GET /queue"
  cancelIn promptId queueResp

/-! ## The backend -/

/-- The prompt that runs and those that wait. -/
structure Queue where
  running : Option String
  pending : List String
  deriving DecidableEq

/-- The entry of a prompt: its number and its id come first. -/
def entryJson (promptId : String) : Json := .arr [.int 0, .str promptId, .obj [], .obj [], .arr []]

/-- The answer of `GET /queue`. -/
def Queue.json (q : Queue) : Json :=
  .obj [("queue_running", .arr (q.running.toList.map entryJson)),
    ("queue_pending", .arr (q.pending.map entryJson))]

/-- A prompt that a cancellation took from the backend. -/
structure Taken where
  /-- The prompt of the `cancel` call. -/
  owner : String
  /-- The prompt that was interrupted or removed. -/
  victim : String
  deriving DecidableEq

/-- What happens to a request on its way. -/
inductive Fate
  | answered
  /-- It never reaches the backend. -/
  | lost (message : String)
  /-- The backend has handled it, and the answer is lost. -/
  | unanswered (message : String)
  /-- An error status, with nothing done. -/
  | refused (statusCode : Nat) (text : String)

/-- The backend handles a request of `cancel(owner)`. -/
def handle (owner : String) : Op → Queue → Queue × List Taken
  | .getQueue, q => (q, [])
  -- it aborts whatever runs
  | .interrupt, q => ({ q with running := none }, q.running.toList.map fun id => ⟨owner, id⟩)
  | .deleteFromQueue ids, q =>
    ({ q with pending := q.pending.filter (· ∉ ids) },
      (q.pending.filter (· ∈ ids)).map fun id => ⟨owner, id⟩)

/-- What the adapter gets. The status of a POST is not looked at. -/
def answer (fate : Fate) (q : Queue) : (op : Op) → Except Exc op.Ans
  | .getQueue =>
    match fate with
    | .answered => .ok ⟨200, "", q.json⟩
    | .refused statusCode text => .ok ⟨statusCode, text, .null⟩
    | .lost message => .error (.http message)
    | .unanswered message => .error (.http message)
  | .interrupt =>
    match fate with
    | .lost message => .error (.http message)
    | .unanswered message => .error (.http message)
    | _ => .ok ()
  | .deleteFromQueue _ =>
    match fate with
    | .lost message => .error (.http message)
    | .unanswered message => .error (.http message)
    | _ => .ok ()

def Fate.handled : Fate → Bool
  | .answered => true
  | .unanswered _ => true
  | _ => false

/-! ## The service -/

/-- A call of `cancel` that is on its way. -/
structure Call where
  promptId : String
  rest : Prog Unit

structure State where
  queue : Queue
  calls : List Call
  log : List Taken

inductive Label
  /-- A worker submits a prompt. -/
  | submit (promptId : String)
  /-- The backend is idle and takes a prompt from its queue. -/
  | start (promptId : String)
  /-- The prompt that runs ends. -/
  | finish
  /-- A worker calls `cancel`. -/
  | cancel (promptId : String)
  /-- The request that call `i` waits for reaches the backend, or does not. -/
  | serve (i : Nat) (fate : Fate)

def serve (s : State) (i : Nat) (fate : Fate) (c : Call) : State :=
  match c.rest with
  | .await op k =>
    let done := if fate.handled then handle c.promptId op s.queue else (s.queue, [])
    { queue := done.1
      calls := s.calls.set i { c with rest := k (answer fate s.queue op) }
      log := s.log ++ done.2 }
  | _ => s

def next (s : State) : Label → Option State
  | .submit promptId =>
    some { s with queue := { s.queue with pending := s.queue.pending ++ [promptId] } }
  | .start promptId =>
    if s.queue.running = none ∧ promptId ∈ s.queue.pending then
      some { s with queue := ⟨some promptId, s.queue.pending.erase promptId⟩ }
    else none
  | .finish =>
    if s.queue.running = none then none
    else some { s with queue := { s.queue with running := none } }
  | .cancel promptId => some { s with calls := s.calls ++ [⟨promptId, cancel promptId⟩] }
  | .serve i fate => (s.calls[i]?).map (serve s i fate)

/-- Nothing has been cancelled yet. -/
def idle (q : Queue) : State := ⟨q, [], []⟩

/-! ## What a call can be doing -/

/-- The interrupt is handled while its own prompt runs, or none does. -/
def Aimed (s : State) : Label → Prop
  | .serve i fate => ∀ c, s.calls[i]? = some c → c.rest = interruptRunning →
      fate.handled = true → s.queue.running = none ∨ s.queue.running = some c.promptId
  | _ => True

/-- No prompt starts while an interrupt is on its way. -/
def Quiet (s : State) : Label → Prop
  | .start _ => ∀ c ∈ s.calls, c.rest ≠ interruptRunning
  | _ => True

/-- Every prompt that was taken is the one that was to be cancelled. -/
def OwnVictims (log : List Taken) : Prop := ∀ t ∈ log, t.victim = t.owner

instance (log : List Taken) : Decidable (OwnVictims log) :=
  inferInstanceAs (Decidable (∀ t ∈ log, t.victim = t.owner))

/-- Where a call stands. -/
inductive Stage (promptId : String) : Prog Unit → Prop
  | reading : Stage promptId (cancel promptId)
  | interrupting : Stage promptId interruptRunning
  | deleting : Stage promptId (deletePending promptId)
  | returned : Stage promptId (.ret ())
  | raised (e : Exc) : Stage promptId (.raise e)

/-- A call that has returned or raised. -/
def Ended (p : Prog Unit) : Prop := p = .ret () ∨ ∃ e, p = .raise e

theorem Ended.stage {promptId : String} {p : Prog Unit} (h : Ended p) : Stage promptId p := by
  rcases h with rfl | ⟨e, rfl⟩
  · exact .returned
  · exact .raised e

theorem Ended.ne_interruptRunning {p : Prog Unit} (h : Ended p) : p ≠ interruptRunning := by
  rcases h with rfl | ⟨e, rfl⟩ <;> exact nofun

/-- The state after a request has been handled or not, before the call goes on. -/
def served (s : State) (i : Nat) (fate : Fate) (c : Call) (op : Op) (rest : Prog Unit) : State :=
  let done := if fate.handled then handle c.promptId op s.queue else (s.queue, [])
  { queue := done.1, calls := s.calls.set i ⟨c.promptId, rest⟩, log := s.log ++ done.2 }

theorem serve_interrupting (s : State) (i : Nat) (fate : Fate) {c : Call}
    (hc : c.rest = interruptRunning) :
    ∃ rest, Ended rest ∧ serve s i fate c = served s i fate c .interrupt rest := by
  unfold serve
  rw [hc]
  refine ⟨_, ?_, rfl⟩
  cases fate
  · exact Or.inl rfl
  · exact Or.inr ⟨_, rfl⟩
  · exact Or.inr ⟨_, rfl⟩
  · exact Or.inl rfl

theorem serve_deleting (s : State) (i : Nat) (fate : Fate) {c : Call}
    (hc : c.rest = deletePending c.promptId) :
    ∃ rest, Ended rest ∧
      serve s i fate c = served s i fate c (.deleteFromQueue [c.promptId]) rest := by
  unfold serve
  rw [hc]
  refine ⟨_, ?_, rfl⟩
  cases fate
  · exact Or.inl rfl
  · exact Or.inr ⟨_, rfl⟩
  · exact Or.inr ⟨_, rfl⟩
  · exact Or.inl rfl

theorem promptIds_running (q : Queue) :
    promptIds q.json "queue_running" = .ok (q.running.toList.map Json.str) := by
  obtain ⟨_ | p, pending⟩ := q <;> rfl

/-- The answer of the queue decides what the call does next. -/
theorem cancelIn_stage (promptId : String) (resp : Response) :
    Stage promptId (cancelIn promptId resp) := by
  unfold cancelIn
  split
  · exact .raised _
  · rcases promptIds resp.body "queue_running" with e | runningPids
    · exact .raised e
    rcases promptIds resp.body "queue_pending" with e | pendingPids
    · exact .raised e
    change Stage promptId (if contains runningPids promptId then interruptRunning
      else if contains pendingPids promptId then deletePending promptId else pure ())
    split
    · exact .interrupting
    · split
      · exact .deleting
      · exact .returned

theorem cancelIn_interrupts (promptId : String) (resp : Response)
    (h : cancelIn promptId resp = interruptRunning) :
    ∃ pids, promptIds resp.body "queue_running" = .ok pids ∧ contains pids promptId = true := by
  unfold cancelIn at h
  split at h
  · cases h
  · rcases hrunning : promptIds resp.body "queue_running" with e | runningPids <;> rw [hrunning] at h
    · cases h
    rcases hpending : promptIds resp.body "queue_pending" with e | pendingPids <;> rw [hpending] at h
    · cases h
    refine ⟨runningPids, rfl, ?_⟩
    change (if contains runningPids promptId then interruptRunning
      else if contains pendingPids promptId then deletePending promptId else pure ()) = _ at h
    split at h
    · assumption
    · split at h <;> cases h

/-- A call interrupts only what its snapshot of the queue has running. -/
theorem serve_reading (s : State) (i : Nat) (fate : Fate) {c : Call}
    (hc : c.rest = cancel c.promptId) :
    ∃ rest, Stage c.promptId rest ∧
      (rest = interruptRunning → s.queue.running = some c.promptId) ∧
      serve s i fate c = { s with calls := s.calls.set i ⟨c.promptId, rest⟩ } := by
  have hserve : ∀ rest, served s i fate c .getQueue rest =
      { s with calls := s.calls.set i ⟨c.promptId, rest⟩ } := by
    intro rest
    unfold served handle
    simp
  unfold serve
  rw [hc]
  refine ⟨_, ?_, ?_, hserve _⟩
  · cases fate with
    | answered => exact cancelIn_stage c.promptId ⟨200, "", s.queue.json⟩
    | refused statusCode text => exact cancelIn_stage c.promptId ⟨statusCode, text, .null⟩
    | lost message => exact .raised _
    | unanswered message => exact .raised _
  · intro h
    cases fate with
    | answered =>
      obtain ⟨pids, hpids, hmem⟩ := cancelIn_interrupts c.promptId ⟨200, "", s.queue.json⟩ h
      rw [promptIds_running, Except.ok.injEq] at hpids
      subst hpids
      simpa [contains] using hmem
    | refused statusCode text =>
      obtain ⟨pids, hpids, -⟩ := cancelIn_interrupts c.promptId ⟨statusCode, text, .null⟩ h
      cases hpids
    | lost message => cases h
    | unanswered message => cases h

/-! ## Runs -/

/-- Every call stands at one of its stages. -/
def Staged (s : State) : Prop := ∀ c ∈ s.calls, Stage c.promptId c.rest

/-- The interrupts on their way are for the prompt that runs. -/
def OnTarget (s : State) : Prop :=
  ∀ c ∈ s.calls, c.rest = interruptRunning →
    s.queue.running = none ∨ s.queue.running = some c.promptId

theorem ownVictims_append {log log' : List Taken} :
    OwnVictims (log ++ log') ↔ OwnVictims log ∧ OwnVictims log' := by
  simp only [OwnVictims, List.mem_append, or_imp, forall_and]

theorem staged_set {s : State} (h : Staged s) {i : Nat} {promptId : String} {rest : Prog Unit}
    (hrest : Stage promptId rest) : ∀ c ∈ s.calls.set i ⟨promptId, rest⟩,
      Stage c.promptId c.rest := by
  intro c hc
  rcases List.mem_or_eq_of_mem_set hc with hc | rfl
  · exact h c hc
  · exact hrest

/-- What one request adds to the log, and when that is the call's own prompt. -/
theorem serve_log {s : State} {i : Nat} {fate : Fate} {c : Call} (h : Staged s)
    (hi : s.calls[i]? = some c) :
    Staged (serve s i fate c) ∧ ∃ log, (serve s i fate c).log = s.log ++ log ∧
      (Aimed s (.serve i fate) ↔ OwnVictims log) := by
  have hstage := h c (List.mem_of_getElem? hi)
  have haimed : Aimed s (.serve i fate) ↔ (c.rest = interruptRunning → fate.handled = true →
      s.queue.running = none ∨ s.queue.running = some c.promptId) := by
    unfold Aimed
    simp only [hi, Option.some.injEq, forall_eq']
  have hother : c.rest ≠ interruptRunning → Aimed s (.serve i fate) :=
    fun hne => haimed.mpr fun h => absurd h hne
  generalize hrest : c.rest = rest at hstage
  cases hstage with
  | reading =>
    obtain ⟨rest', hstage', -, hserve⟩ := serve_reading s i fate hrest
    rw [hserve]
    refine ⟨staged_set h hstage', [], (List.append_nil _).symm, ?_⟩
    have hne : c.rest ≠ interruptRunning := by
      rw [hrest]
      exact nofun
    simp [OwnVictims, hother hne]
  | interrupting =>
    obtain ⟨rest', hended, hserve⟩ := serve_interrupting s i fate hrest
    rw [hserve, haimed]
    refine ⟨staged_set h hended.stage, _, rfl, ?_⟩
    rcases hrunning : s.queue.running with _ | v <;> rcases hfate : fate.handled <;>
      simp [hrest, handle, hrunning, OwnVictims]
  | deleting =>
    obtain ⟨rest', hended, hserve⟩ := serve_deleting s i fate hrest
    rw [hserve]
    refine ⟨staged_set h hended.stage, _, rfl, ?_⟩
    have hne : c.rest ≠ interruptRunning := by
      rw [hrest]
      exact nofun
    rcases fate.handled <;> simp [handle, OwnVictims, hother hne]
  | returned =>
    have hserve : serve s i fate c = s := by
      unfold serve
      rw [hrest]
    rw [hserve]
    refine ⟨h, [], (List.append_nil _).symm, ?_⟩
    have hne : c.rest ≠ interruptRunning := by
      rw [hrest]
      exact nofun
    simp [OwnVictims, hother hne]
  | raised e =>
    have hserve : serve s i fate c = s := by
      unfold serve
      rw [hrest]
    rw [hserve]
    refine ⟨h, [], (List.append_nil _).symm, ?_⟩
    have hne : c.rest ≠ interruptRunning := by
      rw [hrest]
      exact nofun
    simp [OwnVictims, hother hne]

/-- What one step adds to the log. -/
theorem next_log {s s' : State} {l : Label} (h : Staged s) (hnext : next s l = some s') :
    Staged s' ∧ ∃ log, s'.log = s.log ++ log ∧ (Aimed s l ↔ OwnVictims log) := by
  have hquiet : ∀ {t : State} {l : Label}, t.calls = s.calls → t.log = s.log → Aimed s l →
      Staged t ∧ ∃ log, t.log = s.log ++ log ∧ (Aimed s l ↔ OwnVictims log) := by
    intro t l hcalls hlog haimed
    refine ⟨?_, [], by rw [hlog, List.append_nil], by simp [OwnVictims, haimed]⟩
    unfold Staged
    rw [hcalls]
    exact h
  cases l with
  | submit promptId =>
    cases hnext
    exact hquiet rfl rfl trivial
  | start promptId =>
    simp only [next, Option.ite_none_right_eq_some, Option.some.injEq] at hnext
    obtain ⟨-, rfl⟩ := hnext
    exact hquiet rfl rfl trivial
  | finish =>
    simp only [next, Option.ite_none_left_eq_some, Option.some.injEq] at hnext
    obtain ⟨-, rfl⟩ := hnext
    exact hquiet rfl rfl trivial
  | cancel promptId =>
    cases hnext
    refine ⟨?_, [], (List.append_nil _).symm, by simp [OwnVictims, Aimed]⟩
    intro c hc
    rcases List.mem_append.mp hc with hc | hc
    · exact h c hc
    · rw [List.mem_singleton.mp hc]
      exact .reading
  | serve i fate =>
    obtain ⟨c, hi, rfl⟩ := Option.map_eq_some_iff.mp hnext
    exact serve_log h hi

/-- The log of a run is clean exactly when each of its interrupts was aimed. -/
theorem run_log {s s' : State} {labels : List Label} (h : Staged s)
    (hrun : exec next s labels = some s') :
    ∃ log, s'.log = s.log ++ log ∧ (AllSteps next Aimed s labels ↔ OwnVictims log) := by
  induction labels generalizing s with
  | nil =>
    cases hrun
    exact ⟨[], (List.append_nil _).symm, by simp [AllSteps, OwnVictims]⟩
  | cons l labels ih =>
    obtain ⟨t, hnext, hrest⟩ := exec_cons.mp hrun
    obtain ⟨hstaged, log, hlog, haimed⟩ := next_log h hnext
    obtain ⟨log', hlog', hrest⟩ := ih hstaged hrest
    refine ⟨log ++ log', by rw [hlog', hlog, List.append_assoc], ?_⟩
    simp only [AllSteps, hnext, Option.some.injEq, forall_eq', ownVictims_append, haimed, hrest]

theorem onTarget_set {s t : State} {i : Nat} {promptId : String} {rest : Prog Unit}
    (h : OnTarget s) (hcalls : t.calls = s.calls.set i ⟨promptId, rest⟩)
    (hrunning : t.queue.running = s.queue.running ∨ t.queue.running = none)
    (hrest : rest = interruptRunning → s.queue.running = some promptId) : OnTarget t := by
  intro c hc hinterrupt
  rcases hrunning with hrunning | hnone
  · rw [hrunning]
    rw [hcalls] at hc
    rcases List.mem_or_eq_of_mem_set hc with hc | rfl
    · exact h c hc hinterrupt
    · exact Or.inr (hrest hinterrupt)
  · exact Or.inl hnone

theorem served_running (s : State) (i : Nat) (fate : Fate) (c : Call) (op : Op)
    (rest : Prog Unit) : (served s i fate c op rest).queue.running = s.queue.running ∨
      (served s i fate c op rest).queue.running = none := by
  unfold served
  rcases fate.handled
  · exact Or.inl rfl
  · cases op with
    | getQueue => exact Or.inl rfl
    | interrupt => exact Or.inr rfl
    | deleteFromQueue ids => exact Or.inl rfl

theorem serve_onTarget {s : State} {i : Nat} (fate : Fate) {c : Call}
    (hstage : Stage c.promptId c.rest) (h : OnTarget s) : OnTarget (serve s i fate c) := by
  generalize hrest : c.rest = rest at hstage
  cases hstage with
  | reading =>
    obtain ⟨rest', -, hrunning, hserve⟩ := serve_reading s i fate hrest
    rw [hserve]
    exact onTarget_set h rfl (Or.inl rfl) hrunning
  | interrupting =>
    obtain ⟨rest', hended, hserve⟩ := serve_interrupting s i fate hrest
    rw [hserve]
    exact onTarget_set h rfl (served_running s i fate c _ _)
      fun heq => absurd heq hended.ne_interruptRunning
  | deleting =>
    obtain ⟨rest', hended, hserve⟩ := serve_deleting s i fate hrest
    rw [hserve]
    exact onTarget_set h rfl (served_running s i fate c _ _)
      fun heq => absurd heq hended.ne_interruptRunning
  | returned =>
    unfold serve
    rw [hrest]
    exact h
  | raised e =>
    unfold serve
    rw [hrest]
    exact h

/-- While no prompt starts, the one that a call has seen running is the one that
its interrupt meets. -/
theorem next_onTarget {s s' : State} {l : Label} (h : Staged s ∧ OnTarget s) (hquiet : Quiet s l)
    (hnext : next s l = some s') : Staged s' ∧ OnTarget s' := by
  obtain ⟨hstaged, htarget⟩ := h
  refine ⟨(next_log hstaged hnext).1, ?_⟩
  cases l with
  | submit promptId =>
    cases hnext
    exact htarget
  | start promptId =>
    simp only [next, Option.ite_none_right_eq_some, Option.some.injEq] at hnext
    obtain ⟨-, rfl⟩ := hnext
    exact fun c hc hrest => absurd hrest (hquiet c hc)
  | finish =>
    simp only [next, Option.ite_none_left_eq_some, Option.some.injEq] at hnext
    obtain ⟨-, rfl⟩ := hnext
    exact fun _ _ _ => Or.inl rfl
  | cancel promptId =>
    cases hnext
    intro c hc hrest
    rcases List.mem_append.mp hc with hc | hc
    · exact htarget c hc hrest
    · rw [List.mem_singleton.mp hc] at hrest
      cases hrest
  | serve i fate =>
    obtain ⟨c, hi, rfl⟩ := Option.map_eq_some_iff.mp hnext
    exact serve_onTarget fate (hstaged c (List.mem_of_getElem? hi)) htarget

theorem aimed_of_onTarget {s : State} (h : OnTarget s) (l : Label) : Aimed s l := by
  cases l with
  | serve i fate => exact fun c hi hrest _ => h c (List.mem_of_getElem? hi) hrest
  | _ => trivial

/-- A cancellation takes nothing but its own prompt exactly when each interrupt
meets that prompt, or none, at the backend. So it is while no prompt starts with
an interrupt on its way. -/
theorem cancel_takes_its_own_iff {q : Queue} {labels : List Label} {s : State}
    (hrun : exec next (idle q) labels = some s) :
    (AllSteps next Aimed (idle q) labels ↔ OwnVictims s.log) ∧
    (AllSteps next Quiet (idle q) labels → OwnVictims s.log) := by
  have hstaged : Staged (idle q) := fun c hc => by cases hc
  have htarget : OnTarget (idle q) := fun c hc => by cases hc
  obtain ⟨log, hlog, hiff⟩ := run_log hstaged hrun
  have hiff : AllSteps next Aimed (idle q) labels ↔ OwnVictims s.log := by
    rw [hlog]
    exact hiff
  refine ⟨hiff, fun hquiet => hiff.mp ?_⟩
  refine AllSteps.of_invariant (fun _ _ _ => next_onTarget) ?_ ⟨hstaged, htarget⟩ hquiet
  exact fun s l h _ => aimed_of_onTarget h.2 l

/-- The prompt is cancelled while it runs. -/
def cancelled : List Label :=
  [.submit "p", .start "p", .submit "q", .cancel "p", .serve 0 .answered, .serve 0 .answered]

theorem cancel_takes_its_own_iff_cancelled :
    ((exec next (idle ⟨none, []⟩) cancelled).map (·.log) = some [⟨"p", "p"⟩]) ∧
      AllSteps next Aimed (idle ⟨none, []⟩) cancelled := by
  have hlog : (exec next (idle ⟨none, []⟩) cancelled).map (·.log) = some [⟨"p", "p"⟩] := by
    decide +kernel
  obtain ⟨s, hs, hslog⟩ := Option.map_eq_some_iff.mp hlog
  refine ⟨hlog, (cancel_takes_its_own_iff hs).1.mpr ?_⟩
  rw [hslog]
  decide

/-- The prompt ends and the next one starts while the interrupt is on its way. -/
def overtaken : List Label :=
  [.submit "p", .start "p", .submit "q", .cancel "p", .serve 0 .answered, .finish, .start "q",
    .serve 0 .answered]

theorem an_interrupt_hits_the_next_prompt :
    ∃ labels s, exec next (idle ⟨none, []⟩) labels = some s ∧ ¬ OwnVictims s.log := by
  have hlog : (exec next (idle ⟨none, []⟩) overtaken).map (·.log) = some [⟨"p", "q"⟩] := by
    decide +kernel
  obtain ⟨s, hs, hslog⟩ := Option.map_eq_some_iff.mp hlog
  refine ⟨overtaken, s, hs, ?_⟩
  rw [hslog]
  decide

end image_gen.prompt_cancel

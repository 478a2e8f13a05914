-- The lifespan of the service (`app/main.py`): what it opens and starts on its way up, what a
-- refused start undoes, and what a shutdown does. The tasks go on beside it.
import Mathlib.Data.List.Nodup
import ImageGen.Coroutine

namespace image_gen.service_lifespan

open image_gen.coroutine

/-! ## The program -/

/-- What has a `close`. -/
inductive Handle
  | store
  | adapter
  | webhookHttp
  | fetcherHttp
  | fetcher
  deriving DecidableEq

inductive TaskId
  | worker (i : Nat)
  | reaper
  | dispatcher
  deriving DecidableEq

inductive Check
  | startupChecks
  | presets
  | smokeTests

inductive Exc
  /-- `StartupCheckError`, `PresetRegistryValidationError` or `StartupSmokeError`. -/
  | refused (message : String)
  /-- `RuntimeError(f"startup_failed: {exc}")`. -/
  | startupFailed (message : String)
  | cancelled
  | other (message : String)

inductive Op
  /-- The constructor of a handle, and `connect` for the store. -/
  | create (h : Handle)
  /-- `app.state.h = h`. -/
  | publish (h : Handle)
  /-- `getattr(app.state, h, None) is not None`. -/
  | published (h : Handle)
  /-- Settings that are read, objects that need no `close`, and the bucket. -/
  | prepare
  | check (c : Check)
  | spawn (t : TaskId)
  | recoverJobs
  | recoverFetches
  /-- The `yield`. -/
  | serve
  /-- `task is not None and not task.done()`. -/
  | alive (t : TaskId)
  | cancel (t : TaskId)
  /-- `await task`. -/
  | join (t : TaskId)
  | close (h : Handle)

@[reducible] def Op.Ans : Op → Type
  | .published _ => Bool
  | .alive _ => Bool
  | _ => Unit

abbrev Prog (α : Type) := Co Exc Op Op.Ans α

def ask (op : Op) : Prog op.Ans := Co.call op

/-- A `for` loop. -/
def each {β : Type} (body : β → Prog Unit) : List β → Prog Unit
  | [] => pure ()
  | b :: rest => do
    body b
    each body rest

def workers (n : Nat) : List TaskId := (List.range n).map .worker

def tasksOf (n : Nat) : List TaskId := workers n ++ [.reaper, .dispatcher]

/-- The body of the `try`. -/
def startup (workerConcurrency : Nat) (smokeEnabled : Bool) : Prog Unit := do
  ask (.create .store)
  ask (.publish .store)
  ask (.check .startupChecks)
  ask (.check .presets)
  ask .prepare
  ask (.create .adapter)
  ask (.publish .adapter)
  ask .prepare
  each (fun t => ask (.spawn t)) (workers workerConcurrency)
  ask .prepare
  ask (.spawn .reaper)
  ask (.create .webhookHttp)
  ask .prepare
  ask (.publish .webhookHttp)
  ask (.spawn .dispatcher)
  if smokeEnabled then ask (.check .smokeTests)
  ask .recoverJobs
  ask (.create .fetcherHttp)
  ask (.create .fetcher)
  ask (.publish .fetcher)
  ask (.publish .fetcherHttp)
  ask .recoverFetches

/-- The task is told to stop, and not waited for. -/
def cancelIfAlive (t : TaskId) : Prog Unit := do
  if ← ask (.alive t) then ask (.cancel t)

def closeIfPublished (h : Handle) : Prog Unit := do
  if ← ask (.published h) then ask (.close h)

/-- The body of the `except`. -/
def undo (workerConcurrency : Nat) : Prog Unit := do
  each cancelIfAlive (tasksOf workerConcurrency)
  each closeIfPublished [.fetcher, .fetcherHttp, .webhookHttp, .adapter, .store]

/-- The task is told to stop and waited for. -/
def stopTask (t : TaskId) : Prog Unit := do
  if ← ask (.alive t) then
    ask (.cancel t)
    tryCatch (ask (.join t)) fun
      | .cancelled => pure ()
      | e => throw e

/-- `except Exception` is a warning. A cancellation is no `Exception`. -/
def closeClient (h : Handle) : Prog Unit :=
  tryCatch (ask (.close h)) fun
    | .cancelled => throw .cancelled
    | _ => pure ()

/-- The body of the `finally`. -/
def shutdown (workerConcurrency : Nat) : Prog Unit := do
  ask (.close .fetcher)
  each stopTask (tasksOf workerConcurrency)
  closeClient .fetcherHttp
  closeClient .webhookHttp
  ask (.close .adapter)
  ask (.close .store)

/-- `try: yield finally: ...`. -/
def serveThenShutdown (workerConcurrency : Nat) : Prog Unit := do
  let served ← tryCatch (Except.ok <$> ask .serve) fun e => pure (.error e)
  shutdown workerConcurrency
  Co.ofExcept served

def lifespan (workerConcurrency : Nat) (smokeEnabled : Bool) : Prog Unit := do
  ask .prepare
  tryCatch (startup workerConcurrency smokeEnabled) fun
    | .refused message => do
      undo workerConcurrency
      throw (.startupFailed message)
    | e => throw e
  serveThenShutdown workerConcurrency

/-! ## Its surroundings -/

inductive TaskState
  | absent
  | running
  | cancelling
  | done
  deriving DecidableEq

structure World where
  created : List Handle
  published : List Handle
  /-- The calls of `close`, the oldest first. -/
  closes : List Handle
  tasks : TaskId → TaskState
  /-- The recovery of the jobs has begun. -/
  recovering : Bool
  /-- The start has succeeded. -/
  served : Bool

def start : World where
  created := []
  published := []
  closes := []
  tasks _ := .absent
  recovering := false
  served := false

def World.setTask (w : World) (t : TaskId) (s : TaskState) : World :=
  { w with tasks := fun t' => if t' = t then s else w.tasks t' }

/-- A cancellation, or any exception that no `except` of the start names. -/
def Mishap (e : Exc) : Prop := e = .cancelled ∨ ∃ message, e = .other message

/-- What an operation of the start raises. -/
def Raises : Op → Exc → Prop
  | .check _, .refused _ => True
  | .create _, e | .prepare, e | .check _, e | .recoverFetches, e => Mishap e
  | _, _ => False

/-- What an operation may answer, and what it does. -/
inductive Acts : (op : Op) → World → Except Exc op.Ans → World → Prop
  | raises {op : Op} (w : World) (e : Exc) (h : Raises op e) : Acts op w (.error e) w
  | create (w : World) (h : Handle) :
      Acts (.create h) w (.ok ()) { w with created := w.created ++ [h] }
  | publish (w : World) (h : Handle) :
      Acts (.publish h) w (.ok ()) { w with published := w.published ++ [h] }
  | published (w : World) (h : Handle) : Acts (.published h) w (.ok (decide (h ∈ w.published))) w
  | prepare (w : World) : Acts .prepare w (.ok ()) w
  | check (w : World) (c : Check) : Acts (.check c) w (.ok ()) w
  | spawn (w : World) (t : TaskId) : Acts (.spawn t) w (.ok ()) (w.setTask t .running)
  | recoverJobs (w : World) (r : Except Exc Unit) (hr : ∀ e, r = .error e → Mishap e) :
      Acts .recoverJobs w r { w with recovering := true }
  | recoverFetches (w : World) : Acts .recoverFetches w (.ok ()) w
  /-- It ends when the server is told to stop, or by what is thrown into it. -/
  | serve (w : World) (r : Except Exc Unit) (hr : ∀ e, r = .error e → Mishap e) :
      Acts .serve w r { w with served := true }
  | alive (w : World) (t : TaskId) :
      Acts (.alive t) w (.ok (decide (w.tasks t = .running ∨ w.tasks t = .cancelling))) w
  | cancel (w : World) (t : TaskId) :
      Acts (.cancel t) w (.ok ())
        (if w.tasks t = .running then w.setTask t .cancelling else w)
  /-- It returns, or raises what the task raised, once the task is done. -/
  | join (w : World) (t : TaskId) (r : Except Exc Unit) (hr : ∀ e, r = .error e → Mishap e) :
      Acts (.join t) w r (w.setTask t .done)
  | close (w : World) (h : Handle) (r : Except Exc Unit)
      (hr : ∀ e, r = .error e → Mishap e) :
      Acts (.close h) w r { w with closes := w.closes ++ [h] }

/-- Tasks that have been started may come to their end. -/
structure Moves (w w' : World) : Prop where
  rest : w' = { w with tasks := w'.tasks }
  tasks : ∀ t, w'.tasks t = w.tasks t ∨ (w.tasks t ≠ .absent ∧ w'.tasks t = .done)

def Step (op : Op) (w : World) (r : Except Exc op.Ans) (w' : World) : Prop :=
  ∃ u, Acts op w r u ∧ Moves u w'

/-! ## What holds all the time -/

/-- The task has never been started, or has come to its end. -/
def Over (w : World) (t : TaskId) : Prop := w.tasks t = .absent ∨ w.tasks t = .done

/-- At any moment, also when the process is killed there. -/
structure Safe (n : Nat) (w : World) : Prop where
  known : ∀ t, w.tasks t ≠ .absent → t ∈ tasksOf n
  manned : w.recovering = true → ∀ t ∈ workers n, w.tasks t ≠ .absent
  opened : w.closes ⊆ w.created
  once : w.closes.Nodup
  /-- The store is closed last. -/
  last : .store ∈ w.closes → w.closes = w.created.reverse
  /-- Every task has been told to stop before. -/
  told : .store ∈ w.closes → ∀ t, w.tasks t ≠ .running
  /-- A shutdown has waited for them. -/
  waited : w.served = true → .store ∈ w.closes → ∀ t, Over w t

/-- What has stopped stays so. -/
structure Fades (w w' : World) : Prop where
  told : ∀ t, w.tasks t ≠ .running → w'.tasks t ≠ .running
  stays : ∀ t, Over w t → Over w' t

theorem fades_refl (w : World) : Fades w w := ⟨fun _ h => h, fun _ h => h⟩

theorem Fades.trans {w w' w'' : World} (h : Fades w w') (h' : Fades w' w'') : Fades w w'' :=
  ⟨fun t ht => h'.told t (h.told t ht), fun t ht => h'.stays t (h.stays t ht)⟩

section Moves

variable {n : Nat} {w w' : World}

theorem Moves.ne_absent (h : Moves w w') (t : TaskId) :
    w'.tasks t ≠ .absent ↔ w.tasks t ≠ .absent := by
  rcases h.tasks t with hsame | ⟨hthere, hdone⟩
  · rw [hsame]
  · simp [hdone, hthere]

theorem Moves.fades (h : Moves w w') : Fades w w' where
  told t ht := by
    rcases h.tasks t with hsame | ⟨-, hdone⟩
    · rwa [hsame]
    · simp [hdone]
  stays t ht := by
    rcases h.tasks t with hsame | ⟨-, hdone⟩
    · rwa [Over, hsame]
    · exact .inr hdone

end Moves

/-! ## The start -/

/-- The start has come so far, and nothing has been undone. -/
structure Rising (n : Nat) (cs ps : List Handle) (begun : List TaskId) (w : World) : Prop where
  created : w.created = cs
  published : w.published = ps
  closes : w.closes = []
  served : w.served = false
  tasks : ∀ t, w.tasks t ≠ .absent ↔ t ∈ begun
  known : begun ⊆ tasksOf n
  manned : w.recovering = true → workers n ⊆ begun

/-- How the start ends. -/
def Ended (n : Nat) : Except Exc Unit → World → Prop
  | .ok (), w =>
    Rising n [.store, .adapter, .webhookHttp, .fetcherHttp, .fetcher]
      [.store, .adapter, .webhookHttp, .fetcher, .fetcherHttp] (tasksOf n) w
  | .error (.refused _), w =>
    ∃ handles begun, Rising n handles handles begun w ∧
      (handles = [.store] ∨ handles = [.store, .adapter, .webhookHttp])
  | .error e, w => Mishap e ∧ w.closes = [] ∧ w.served = false

section Start

variable {n : Nat} {cs ps : List Handle} {ts : List TaskId} {w w' : World}

theorem Rising.safe (h : Rising n cs ps ts w) : Safe n w := by
  have hnone : ∀ x, x ∉ w.closes := by simp [h.closes]
  refine ⟨fun t ht => h.known ((h.tasks t).mp ht), fun hrec t ht => ?_, ?_, ?_, ?_, ?_, ?_⟩
  · exact (h.tasks t).mpr (h.manned hrec ht)
  · simp [h.closes]
  · simp [h.closes]
  · exact fun hstore => absurd hstore (hnone _)
  · exact fun hstore => absurd hstore (hnone _)
  · exact fun _ hstore => absurd hstore (hnone _)

theorem Rising.moves (hr : Rising n cs ps ts w) (h : Moves w w') : Rising n cs ps ts w' := by
  have hrest := h.rest
  have hne := h.ne_absent
  generalize w'.tasks = tasks at hrest hne
  subst hrest
  exact ⟨hr.created, hr.published, hr.closes, hr.served, fun t => (hne t).trans (hr.tasks t),
    hr.known, hr.manned⟩

theorem ended_mishap {e : Exc} (h : Rising n cs ps ts w) (he : Mishap e) :
    Ended n (.error e) w := by
  rcases he with rfl | ⟨message, rfl⟩
  · exact ⟨.inl rfl, h.closes, h.served⟩
  · exact ⟨.inr ⟨message, rfl⟩, h.closes, h.served⟩

theorem holds_prepare {f : Unit → Prog Unit} (h : Rising n cs ps ts w)
    (hf : ∀ w', Rising n cs ps ts w' → (f ()).Holds Step (Safe n) (Ended n) w') :
    (ask .prepare >>= f).Holds Step (Safe n) (Ended n) w := by
  refine Co.holds_bind (Co.holds_call _ _ fun r w' ⟨u, hact, hmoves⟩ => ?_)
  cases hact with
  | raises _ e he => exact ⟨(h.moves hmoves).safe, ended_mishap (h.moves hmoves) he⟩
  | prepare => exact ⟨(h.moves hmoves).safe, hf w' (h.moves hmoves)⟩

/-- A check refuses only where everything that is there has been published. -/
theorem holds_check {c : Check} {f : Unit → Prog Unit} (h : Rising n cs ps ts w) (hsame : cs = ps)
    (hat : cs = [.store] ∨ cs = [.store, .adapter, .webhookHttp])
    (hf : ∀ w', Rising n cs ps ts w' → (f ()).Holds Step (Safe n) (Ended n) w') :
    (ask (.check c) >>= f).Holds Step (Safe n) (Ended n) w := by
  refine Co.holds_bind (Co.holds_call _ _ fun r w' ⟨u, hact, hmoves⟩ => ?_)
  cases hact with
  | raises _ e he =>
    refine ⟨(h.moves hmoves).safe, ?_⟩
    cases e with
    | refused message => exact ⟨cs, ts, hsame ▸ h.moves hmoves, hat⟩
    | _ => exact ended_mishap (h.moves hmoves) he
  | check => exact ⟨(h.moves hmoves).safe, hf w' (h.moves hmoves)⟩

theorem holds_create {x : Handle} {f : Unit → Prog Unit} (h : Rising n cs ps ts w)
    (hf : ∀ w', Rising n (cs ++ [x]) ps ts w' → (f ()).Holds Step (Safe n) (Ended n) w') :
    (ask (.create x) >>= f).Holds Step (Safe n) (Ended n) w := by
  refine Co.holds_bind (Co.holds_call _ _ fun r w' ⟨u, hact, hmoves⟩ => ?_)
  cases hact with
  | raises _ e he => exact ⟨(h.moves hmoves).safe, ended_mishap (h.moves hmoves) he⟩
  | create =>
    have hnext : Rising n (cs ++ [x]) ps ts { w with created := w.created ++ [x] } :=
      { h with created := by rw [h.created] }
    exact ⟨(hnext.moves hmoves).safe, hf w' (hnext.moves hmoves)⟩

theorem holds_publish {x : Handle} {f : Unit → Prog Unit} (h : Rising n cs ps ts w)
    (hf : ∀ w', Rising n cs (ps ++ [x]) ts w' → (f ()).Holds Step (Safe n) (Ended n) w') :
    (ask (.publish x) >>= f).Holds Step (Safe n) (Ended n) w := by
  refine Co.holds_bind (Co.holds_call _ _ fun r w' ⟨u, hact, hmoves⟩ => ?_)
  cases hact with
  | raises _ e he => cases he
  | publish =>
    have hnext : Rising n cs (ps ++ [x]) ts { w with published := w.published ++ [x] } :=
      { h with published := by rw [h.published] }
    exact ⟨(hnext.moves hmoves).safe, hf w' (hnext.moves hmoves)⟩

theorem Rising.spawn (h : Rising n cs ps ts w) {t : TaskId} (ht : t ∈ tasksOf n) :
    Rising n cs ps (ts ++ [t]) (w.setTask t .running) where
  created := h.created
  published := h.published
  closes := h.closes
  served := h.served
  tasks t' := by
    rw [List.mem_append, List.mem_singleton, World.setTask, ← h.tasks]
    by_cases heq : t' = t <;> simp [heq]
  known := List.append_subset.mpr ⟨h.known, by simpa using ht⟩
  manned hrec := List.subset_append_of_subset_left _ (h.manned hrec)

/-- Nothing raises when a task is started. -/
theorem holds_spawn {t : TaskId} (h : Rising n cs ps ts w) (ht : t ∈ tasksOf n) :
    (ask (.spawn t)).Holds Step (Safe n)
      (fun r w' => r = .ok () ∧ Rising n cs ps (ts ++ [t]) w') w := by
  refine Co.holds_call _ _ fun r w' ⟨u, hact, hmoves⟩ => ?_
  cases hact with
  | raises _ e he => cases he
  | spawn =>
    have hnext := h.spawn ht
    exact ⟨(hnext.moves hmoves).safe, rfl, hnext.moves hmoves⟩

theorem holds_spawns {rest : List TaskId} (h : Rising n cs ps ts w) (hrest : rest ⊆ tasksOf n) :
    (each (fun t => ask (.spawn t)) rest).Holds Step (Safe n)
      (fun r w' => r = .ok () ∧ Rising n cs ps (ts ++ rest) w') w := by
  induction rest generalizing ts w with
  | nil => exact ⟨rfl, by simpa using h⟩
  | cons t rest ih =>
    refine Co.holds_bind ((holds_spawn h (hrest List.mem_cons_self)).mono ?_)
    rintro _ w' ⟨rfl, hw'⟩
    refine (ih hw' fun x hx => hrest (List.mem_cons_of_mem t hx)).mono fun r w'' hw'' => ?_
    rwa [List.append_assoc, List.singleton_append] at hw''

theorem holds_recoverJobs {f : Unit → Prog Unit} (h : Rising n cs ps ts w) (hts : workers n ⊆ ts)
    (hf : ∀ w', Rising n cs ps ts w' → (f ()).Holds Step (Safe n) (Ended n) w') :
    (ask .recoverJobs >>= f).Holds Step (Safe n) (Ended n) w := by
  refine Co.holds_bind (Co.holds_call _ _ fun r w' ⟨u, hact, hmoves⟩ => ?_)
  cases hact with
  | raises _ e he => cases he
  | recoverJobs _ _ hr =>
    have hnext : Rising n cs ps ts { w with recovering := true } :=
      { h with manned := fun _ => hts }
    refine ⟨(hnext.moves hmoves).safe, ?_⟩
    rcases r with e | _
    · exact ended_mishap (hnext.moves hmoves) (hr e rfl)
    · exact hf w' (hnext.moves hmoves)

theorem mem_tasksOf_worker {t : TaskId} (ht : t ∈ workers n) : t ∈ tasksOf n :=
  List.mem_append_left _ ht

theorem rising_start (n : Nat) : Rising n [] [] [] start :=
  ⟨rfl, rfl, rfl, rfl, fun t => by simp [start], List.nil_subset _, fun hrec => by cases hrec⟩

theorem holds_startup (smokeEnabled : Bool) (h : Rising n [] [] [] w) :
    (startup n smokeEnabled).Holds Step (Safe n) (Ended n) w := by
  have hreaper : TaskId.reaper ∈ tasksOf n := by simp [tasksOf]
  have hdispatcher : TaskId.dispatcher ∈ tasksOf n := by simp [tasksOf]
  unfold startup
  refine holds_create h fun w h => ?_
  refine holds_publish h fun w h => ?_
  refine holds_check h rfl (.inl rfl) fun w h => ?_
  refine holds_check h rfl (.inl rfl) fun w h => ?_
  refine holds_prepare h fun w h => ?_
  refine holds_create h fun w h => ?_
  refine holds_publish h fun w h => ?_
  refine holds_prepare h fun w h => ?_
  refine Co.holds_bind ((holds_spawns h fun t => mem_tasksOf_worker).mono ?_)
  rintro _ w ⟨rfl, h⟩
  refine holds_prepare h fun w h => ?_
  refine Co.holds_bind ((holds_spawn h hreaper).mono ?_)
  rintro _ w ⟨rfl, h⟩
  refine holds_create h fun w h => ?_
  refine holds_prepare h fun w h => ?_
  refine holds_publish h fun w h => ?_
  refine Co.holds_bind ((holds_spawn h hdispatcher).mono ?_)
  rintro _ w ⟨rfl, h⟩
  have hall : [] ++ workers n ++ [TaskId.reaper] ++ [TaskId.dispatcher] = tasksOf n := by
    simp [tasksOf]
  rw [hall] at h
  -- from here on every task has been started
  have hrest : ∀ w, Rising n [.store, .adapter, .webhookHttp] [.store, .adapter, .webhookHttp]
      (tasksOf n) w → (do
        ask .recoverJobs
        ask (.create .fetcherHttp)
        ask (.create .fetcher)
        ask (.publish .fetcher)
        ask (.publish .fetcherHttp)
        ask .recoverFetches : Prog Unit).Holds Step (Safe n) (Ended n) w := by
    intro w h
    refine holds_recoverJobs h (fun t => mem_tasksOf_worker) fun w h => ?_
    refine holds_create h fun w h => ?_
    refine holds_create h fun w h => ?_
    refine holds_publish h fun w h => ?_
    refine holds_publish h fun w h => ?_
    refine Co.holds_call _ _ fun r w' ⟨u, hact, hmoves⟩ => ?_
    cases hact with
    | raises _ e he => exact ⟨(h.moves hmoves).safe, ended_mishap (h.moves hmoves) he⟩
    | recoverFetches => exact ⟨(h.moves hmoves).safe, h.moves hmoves⟩
  cases smokeEnabled with
  | false => exact hrest w h
  | true => exact holds_check h rfl (.inr rfl) hrest

end Start

/-! ## The way down -/

/-- `closed` has been closed, and the tasks are on their way out. -/
structure Down (n : Nat) (cs ps closed : List Handle) (served : Bool) (w : World) : Prop where
  created : w.created = cs
  published : w.published = ps
  closes : w.closes = closed
  served : w.served = served
  known : ∀ t, w.tasks t ≠ .absent → t ∈ tasksOf n
  manned : w.recovering = true → ∀ t ∈ workers n, w.tasks t ≠ .absent

/-- A close that is in its turn. -/
structure InTurn (cs closed : List Handle) : Prop where
  opened : closed ⊆ cs
  once : closed.Nodup
  last : .store ∈ closed → closed = cs.reverse

section Down

variable {n : Nat} {cs ps closed : List Handle} {served : Bool} {w w' : World} {t : TaskId}

theorem Rising.down {ts : List TaskId} (h : Rising n cs ps ts w) : Down n cs ps [] false w :=
  ⟨h.created, h.published, h.closes, h.served, h.safe.known, h.safe.manned⟩

theorem inTurn_nil (cs : List Handle) : InTurn cs [] :=
  ⟨List.nil_subset _, List.nodup_nil, fun h => absurd h List.not_mem_nil⟩

theorem Down.safe (h : Down n cs ps closed served w) (hturn : InTurn cs closed)
    (htold : .store ∈ closed → ∀ t, w.tasks t ≠ .running)
    (hover : served = true → .store ∈ closed → ∀ t, Over w t) : Safe n w where
  known := h.known
  manned := h.manned
  opened := by
    rw [h.closes, h.created]
    exact hturn.opened
  once := by
    rw [h.closes]
    exact hturn.once
  last := by
    rw [h.closes, h.created]
    exact hturn.last
  told := by
    rw [h.closes]
    exact htold
  waited := by
    rw [h.closes, h.served]
    exact hover

/-- While the store is open. -/
theorem Down.safe_open (h : Down n cs ps closed served w) (hturn : InTurn cs closed)
    (hopen : .store ∉ closed) : Safe n w :=
  h.safe hturn (fun hstore => absurd hstore hopen) fun _ hstore => absurd hstore hopen

theorem Down.moves (hd : Down n cs ps closed served w) (h : Moves w w') :
    Down n cs ps closed served w' := by
  have hrest := h.rest
  have hne := h.ne_absent
  generalize w'.tasks = tasks at hrest hne
  subst hrest
  exact ⟨hd.created, hd.published, hd.closes, hd.served, fun t ht => hd.known t ((hne t).mp ht),
    fun hrec t ht => (hne t).mpr (hd.manned hrec t ht)⟩

/-- A task that is there is told to stop, or is done. -/
theorem Down.setTask (h : Down n cs ps closed served w) {s : TaskState} (ht : w.tasks t ≠ .absent)
    (hs : s ≠ .absent) : Down n cs ps closed served (w.setTask t s) where
  created := h.created
  published := h.published
  closes := h.closes
  served := h.served
  known t' ht' := by
    by_cases heq : t' = t
    · exact heq ▸ h.known t ht
    · exact h.known t' (by simpa [World.setTask, heq] using ht')
  manned hrec t' ht' := by
    by_cases heq : t' = t
    · simpa [World.setTask, heq] using hs
    · simpa [World.setTask, heq] using h.manned hrec t' ht'

theorem fades_setTask {s : TaskState} (hs : s ≠ .running) (hdone : Over w t → s = .done) :
    Fades w (w.setTask t s) where
  told t' ht' := by
    by_cases heq : t' = t
    · simpa [World.setTask, heq] using hs
    · simpa [World.setTask, heq] using ht'
  stays t' ht' := by
    by_cases heq : t' = t
    · subst heq
      exact .inr (by simp [World.setTask, hdone ht'])
    · simpa [Over, World.setTask, heq] using ht'

/-- One task is told to stop. -/
theorem holds_cancelIfAlive (h : Down n cs ps closed served w) (hturn : InTurn cs closed)
    (hopen : .store ∉ closed) (t : TaskId) :
    (cancelIfAlive t).Holds Step (Safe n) (fun r w' => r = .ok () ∧
      Down n cs ps closed served w' ∧ Fades w w' ∧ w'.tasks t ≠ .running) w := by
  unfold cancelIfAlive
  refine Co.holds_bind (Co.holds_call _ _ fun r w₁ ⟨u, hact, hmoves⟩ => ?_)
  cases hact with
  | raises _ e he => cases he
  | alive =>
    have h₁ := h.moves hmoves
    refine ⟨h₁.safe_open hturn hopen, ?_⟩
    by_cases halive : w.tasks t = .running ∨ w.tasks t = .cancelling
    on_goal 2 =>
      simp only [halive, decide_false, Bool.false_eq_true, if_false]
      have hnot : w.tasks t ≠ .running := fun hrun => halive (.inl hrun)
      exact ⟨rfl, h₁, hmoves.fades, hmoves.fades.told t hnot⟩
    simp only [halive, decide_true, if_true]
    refine Co.holds_call _ _ fun r w₂ ⟨u, hact, hmoves'⟩ => ?_
    cases hact with
    | raises _ e he => cases he
    | cancel =>
      by_cases hrun : w₁.tasks t = .running
      · rw [if_pos hrun] at hmoves'
        have h₂ : Down n cs ps closed served (w₁.setTask t .cancelling) :=
          h₁.setTask (by simp [hrun]) (by simp)
        have hfades : Fades w₁ (w₁.setTask t .cancelling) :=
          fades_setTask (by simp) fun hover => by simp [Over, hrun] at hover
        refine ⟨(h₂.moves hmoves').safe_open hturn hopen, rfl, h₂.moves hmoves',
          (hmoves.fades.trans hfades).trans hmoves'.fades, ?_⟩
        exact hmoves'.fades.told t (by simp [World.setTask])
      · rw [if_neg hrun] at hmoves'
        exact ⟨(h₁.moves hmoves').safe_open hturn hopen, rfl, h₁.moves hmoves',
          hmoves.fades.trans hmoves'.fades, hmoves'.fades.told t hrun⟩

theorem holds_cancels (h : Down n cs ps closed served w) (hturn : InTurn cs closed)
    (hopen : .store ∉ closed) (rest : List TaskId) :
    (each cancelIfAlive rest).Holds Step (Safe n) (fun r w' => r = .ok () ∧
      Down n cs ps closed served w' ∧ Fades w w' ∧ ∀ t ∈ rest, w'.tasks t ≠ .running) w := by
  induction rest generalizing w with
  | nil => exact ⟨rfl, h, fades_refl w, fun t ht => absurd ht List.not_mem_nil⟩
  | cons t rest ih =>
    refine Co.holds_bind ((holds_cancelIfAlive h hturn hopen t).mono ?_)
    rintro _ w₁ ⟨rfl, h₁, hfades, ht⟩
    refine (ih h₁).mono ?_
    rintro _ w₂ ⟨rfl, h₂, hfades', hrest⟩
    refine ⟨rfl, h₂, hfades.trans hfades', fun t' ht' => ?_⟩
    rcases List.mem_cons.mp ht' with rfl | ht'
    · exact hfades'.told _ ht
    · exact hrest t' ht'

/-- One task is waited for. -/
theorem holds_stopTask (h : Down n cs ps closed served w) (hturn : InTurn cs closed)
    (hopen : .store ∉ closed) (t : TaskId) :
    (stopTask t).Holds Step (Safe n) (fun r w' => (∀ e, r = .error e → Mishap e) ∧
      Down n cs ps closed served w' ∧ Fades w w' ∧ Over w' t) w := by
  unfold stopTask
  refine Co.holds_bind (Co.holds_call _ _ fun r w₁ ⟨u, hact, hmoves⟩ => ?_)
  cases hact with
  | raises _ e he => cases he
  | alive =>
    have h₁ := h.moves hmoves
    refine ⟨h₁.safe_open hturn hopen, ?_⟩
    by_cases halive : w.tasks t = .running ∨ w.tasks t = .cancelling
    on_goal 2 =>
      simp only [halive, decide_false, Bool.false_eq_true, if_false]
      have hover : Over w t := by
        rw [Over]
        rcases hstate : w.tasks t with _ | _ | _ | _ <;> simp [hstate] at halive ⊢
      exact ⟨fun e he => (by cases he), h₁, hmoves.fades, hmoves.fades.stays t hover⟩
    simp only [halive, decide_true, if_true]
    -- the task has been started, and stays so
    have hthere : w.tasks t ≠ .absent := by
      rcases halive with hstate | hstate <;> simp [hstate]
    have hthere₁ : w₁.tasks t ≠ .absent := (hmoves.ne_absent t).mpr hthere
    refine Co.holds_bind (Co.holds_call _ _ fun r w₂ ⟨u, hact, hmoves'⟩ => ?_)
    cases hact with
    | raises _ e he => cases he
    | cancel =>
      obtain ⟨h₂, hfades, hthere₂⟩ : Down n cs ps closed served w₂ ∧ Fades w₁ w₂ ∧
          w₂.tasks t ≠ .absent := by
        by_cases hrun : w₁.tasks t = .running
        · rw [if_pos hrun] at hmoves'
          have hset : Down n cs ps closed served (w₁.setTask t .cancelling) :=
            h₁.setTask hthere₁ (by simp)
          have hfades : Fades w₁ (w₁.setTask t .cancelling) :=
            fades_setTask (by simp) fun hover => by simp [Over, hrun] at hover
          exact ⟨hset.moves hmoves', hfades.trans hmoves'.fades,
            (hmoves'.ne_absent t).mpr (by simp [World.setTask])⟩
        · rw [if_neg hrun] at hmoves'
          exact ⟨h₁.moves hmoves', hmoves'.fades, (hmoves'.ne_absent t).mpr hthere₁⟩
      refine ⟨h₂.safe_open hturn hopen, ?_⟩
      refine Co.holds_tryCatch (Co.holds_call _ _ fun r w₃ ⟨u, hact, hmoves''⟩ => ?_)
      cases hact with
      | raises _ e he => cases he
      | join _ _ _ hr =>
        have hset : Down n cs ps closed served (w₂.setTask t .done) :=
          h₂.setTask hthere₂ (by simp)
        have h₃ := hset.moves hmoves''
        have hfades₃ : Fades w w₃ := ((hmoves.fades.trans hfades).trans
          (fades_setTask (by simp) fun _ => rfl)).trans hmoves''.fades
        have hover : Over w₃ t := hmoves''.fades.stays t (.inr (by simp [World.setTask]))
        refine ⟨h₃.safe_open hturn hopen, ?_⟩
        rcases r with e | _
        · have he := hr e rfl
          cases e with
          | cancelled => exact ⟨fun e he => (by cases he), h₃, hfades₃, hover⟩
          | _ =>
            refine ⟨fun e' he' => ?_, h₃, hfades₃, hover⟩
            cases he'
            exact he
        · exact ⟨fun e he => (by cases he), h₃, hfades₃, hover⟩

theorem holds_stopTasks (h : Down n cs ps closed served w) (hturn : InTurn cs closed)
    (hopen : .store ∉ closed) (rest : List TaskId) :
    (each stopTask rest).Holds Step (Safe n) (fun r w' => (∀ e, r = .error e → Mishap e) ∧
      Down n cs ps closed served w' ∧ Fades w w' ∧ (r = .ok () → ∀ t ∈ rest, Over w' t)) w := by
  induction rest generalizing w with
  | nil =>
    exact ⟨fun e he => (by cases he), h, fades_refl w, fun _ t ht => absurd ht List.not_mem_nil⟩
  | cons t rest ih =>
    refine Co.holds_bind ((holds_stopTask h hturn hopen t).mono ?_)
    rintro (e | _) w₁ ⟨hr, h₁, hfades, ht⟩
    · exact ⟨hr, h₁, hfades, fun hok => (by cases hok)⟩
    refine (ih h₁).mono ?_
    rintro r w₂ ⟨hr', h₂, hfades', hrest⟩
    refine ⟨hr', h₂, hfades.trans hfades', fun hok t' ht' => ?_⟩
    rcases List.mem_cons.mp ht' with rfl | ht'
    · exact hfades'.stays _ ht
    · exact hrest hok t' ht'

/-- A handle is closed in its turn. -/
theorem holds_close {x : Handle} (h : Down n cs ps closed served w)
    (hturn : InTurn cs (closed ++ [x]))
    (htold : .store ∈ closed ++ [x] → ∀ t, w.tasks t ≠ .running)
    (hover : served = true → .store ∈ closed ++ [x] → ∀ t, Over w t) :
    (ask (.close x)).Holds Step (Safe n) (fun r w' => (∀ e, r = .error e → Mishap e) ∧
      Down n cs ps (closed ++ [x]) served w' ∧ Fades w w') w := by
  refine Co.holds_call _ _ fun r w' ⟨u, hact, hmoves⟩ => ?_
  cases hact with
  | raises _ e he => cases he
  | close _ _ _ hr =>
    have hnext : Down n cs ps (closed ++ [x]) served { w with closes := w.closes ++ [x] } :=
      { h with closes := by rw [h.closes] }
    refine ⟨(hnext.moves hmoves).safe hturn (fun hstore t => ?_) fun hserved hstore t => ?_, hr,
      hnext.moves hmoves, ?_⟩
    · exact hmoves.fades.told t (htold hstore t)
    · exact hmoves.fades.stays t (hover hserved hstore t)
    · exact ⟨hmoves.fades.told, hmoves.fades.stays⟩

/-- Handles are closed in the reverse of the order in which they were created. -/
theorem inTurn_take {rest : List Handle} (hcs : cs = .store :: rest) (hnodup : cs.Nodup)
    (hclosed : closed <+: cs.reverse) : InTurn cs closed where
  opened _ hx := List.mem_reverse.mp (hclosed.subset hx)
  once := (List.nodup_reverse.mpr hnodup).sublist hclosed.sublist
  last hstore := by
    subst hcs
    rw [List.reverse_cons] at hclosed ⊢
    rcases List.prefix_concat_iff.mp hclosed with heq | hbefore
    · exact heq
    · exact absurd (List.mem_reverse.mp (hbefore.subset hstore)) (List.nodup_cons.mp hnodup).1

theorem holds_closes {rest first : List Handle} (hcs : cs = .store :: first) (hnodup : cs.Nodup)
    (h : Down n cs ps closed false w) (htold : ∀ t, w.tasks t ≠ .running)
    (hturn : closed ++ rest.filter (· ∈ ps) <+: cs.reverse) :
    (each closeIfPublished rest).Holds Step (Safe n) (fun r w' =>
      (∀ e, r = .error e → Mishap e) ∧ (r = .ok () →
        Down n cs ps (closed ++ rest.filter (· ∈ ps)) false w' ∧
          ∀ t, w'.tasks t ≠ .running)) w := by
  induction rest generalizing closed w with
  | nil => exact ⟨fun e he => (by cases he), fun _ => ⟨by simpa using h, htold⟩⟩
  | cons x rest ih =>
    have hfirst : closed <+: cs.reverse := (List.prefix_append _ _).trans hturn
    refine Co.holds_bind (Co.holds_bind (Co.holds_call _ _ fun r w₁ ⟨u, hact, hmoves⟩ => ?_))
    cases hact with
    | raises _ e he => cases he
    | published =>
      have h₁ := h.moves hmoves
      have htold₁ := fun t => hmoves.fades.told t (htold t)
      refine ⟨h₁.safe (inTurn_take hcs hnodup hfirst) (fun _ => htold₁)
        fun hserved => (by cases hserved), ?_⟩
      rw [h.published]
      by_cases hx : x ∈ ps
      on_goal 2 =>
        simp only [hx, decide_false, Bool.false_eq_true, if_false]
        rw [List.filter_cons_of_neg (by simpa using hx)] at hturn ⊢
        exact ih h₁ htold₁ hturn
      simp only [hx, decide_true, if_true]
      rw [List.filter_cons_of_pos (by simpa using hx), List.append_cons] at hturn ⊢
      have hnow : closed ++ [x] <+: cs.reverse := (List.prefix_append _ _).trans hturn
      refine (holds_close h₁ (inTurn_take hcs hnodup hnow) (fun _ => htold₁)
        fun hserved => (by cases hserved)).mono ?_
      rintro (e | _) w₂ ⟨hr, h₂, hfades⟩
      · exact ⟨hr, fun hok => (by cases hok)⟩
      · exact ih h₂ (fun t => hfades.told t (htold₁ t)) hturn

/-- The start is undone. -/
theorem holds_undo {ts : List TaskId} (h : Rising n cs cs ts w)
    (hat : cs = [.store] ∨ cs = [.store, .adapter, .webhookHttp]) :
    (undo n).Holds Step (Safe n) (fun r w' => (∀ e, r = .error e → Mishap e) ∧ (r = .ok () →
      Down n cs cs cs.reverse false w' ∧ ∀ t, w'.tasks t ≠ .running)) w := by
  unfold undo
  have hcancels := holds_cancels h.down (inTurn_nil cs) List.not_mem_nil (tasksOf n)
  refine Co.holds_bind (hcancels.mono ?_)
  rintro _ w₁ ⟨rfl, h₁, hfades, htold⟩
  have htold₁ : ∀ t, w₁.tasks t ≠ .running := by
    intro t hrun
    exact htold t (h₁.known t (by simp [hrun])) hrun
  have hall : [Handle.fetcher, .fetcherHttp, .webhookHttp, .adapter, .store].filter (· ∈ cs) =
      cs.reverse := by
    rcases hat with rfl | rfl <;> decide
  obtain ⟨first, hcs, hnodup⟩ : ∃ first, cs = .store :: first ∧ cs.Nodup := by
    rcases hat with rfl | rfl
    · exact ⟨_, rfl, by decide⟩
    · exact ⟨_, rfl, by decide⟩
  have hwhole : [] ++ [Handle.fetcher, .fetcherHttp, .webhookHttp, .adapter, .store].filter
      (· ∈ cs) <+: cs.reverse := by
    rw [hall]
    exact List.prefix_rfl
  have hcloses := holds_closes hcs hnodup h₁ htold₁ hwhole
  rw [hall, List.nil_append] at hcloses
  exact hcloses

theorem holds_closeClient {x : Handle} (h : Down n cs ps closed served w)
    (hturn : InTurn cs (closed ++ [x])) (hopen : .store ∉ closed ++ [x]) :
    (closeClient x).Holds Step (Safe n) (fun r w' => (∀ e, r = .error e → Mishap e) ∧
      Down n cs ps (closed ++ [x]) served w' ∧ Fades w w') w := by
  unfold closeClient
  refine Co.holds_tryCatch ((holds_close h hturn (fun hstore => absurd hstore hopen)
    fun _ hstore => absurd hstore hopen).mono ?_)
  rintro (e | _) w' ⟨hr, hdown, hfades⟩
  · cases e with
    | cancelled => exact ⟨hr, hdown, hfades⟩
    | _ => exact ⟨fun e he => (by cases he), hdown, hfades⟩
  · exact ⟨hr, hdown, hfades⟩

/-- Everything that the start has opened. -/
def opened : List Handle := [.store, .adapter, .webhookHttp, .fetcherHttp, .fetcher]

theorem inTurn_opened (hclosed : closed <+: opened.reverse) : InTurn opened closed :=
  inTurn_take rfl (by decide) hclosed

theorem holds_shutdown (h : Down n opened ps [] true w) :
    (shutdown n).Holds Step (Safe n) (fun r w' => (∀ e, r = .error e → Mishap e) ∧ (r = .ok () →
      Down n opened ps opened.reverse true w' ∧ ∀ t, Over w' t)) w := by
  unfold shutdown
  refine Co.holds_bind ((holds_close h (inTurn_opened (by decide)) (fun hstore => ?_)
    fun _ hstore => ?_).mono ?_)
  · exact absurd hstore (by decide)
  · exact absurd hstore (by decide)
  rintro (e | _) w₁ ⟨hr, h₁, -⟩
  · exact ⟨hr, fun hok => (by cases hok)⟩
  refine Co.holds_bind ((holds_stopTasks h₁ (inTurn_opened (by decide)) (by decide)
    (tasksOf n)).mono ?_)
  rintro (e | _) w₂ ⟨hr, h₂, -, hover⟩
  · exact ⟨hr, fun hok => (by cases hok)⟩
  have hover₂ : ∀ t, Over w₂ t := by
    intro t
    by_cases ht : w₂.tasks t = .absent
    · exact .inl ht
    · exact hover rfl t (h₂.known t ht)
  refine Co.holds_bind ((holds_closeClient h₂ (inTurn_opened (by decide)) (by decide)).mono ?_)
  rintro (e | _) w₃ ⟨hr, h₃, hfades₃⟩
  · exact ⟨hr, fun hok => (by cases hok)⟩
  refine Co.holds_bind ((holds_closeClient h₃ (inTurn_opened (by decide)) (by decide)).mono ?_)
  rintro (e | _) w₄ ⟨hr, h₄, hfades₄⟩
  · exact ⟨hr, fun hok => (by cases hok)⟩
  have hover₄ : ∀ t, Over w₄ t := fun t => hfades₄.stays t (hfades₃.stays t (hover₂ t))
  refine Co.holds_bind ((holds_close h₄ (inTurn_opened (by decide)) (fun hstore => ?_)
    fun _ hstore => ?_).mono ?_)
  · exact absurd hstore (by decide)
  · exact absurd hstore (by decide)
  rintro (e | _) w₅ ⟨hr, h₅, hfades₅⟩
  · exact ⟨hr, fun hok => (by cases hok)⟩
  have hover₅ : ∀ t, Over w₅ t := fun t => hfades₅.stays t (hover₄ t)
  have htold₅ : ∀ t, w₅.tasks t ≠ .running := by
    intro t hrun
    have hstate := hover₅ t
    simp [Over, hrun] at hstate
  refine (holds_close h₅ (inTurn_opened (by decide)) (fun _ => htold₅) fun _ _ => hover₅).mono ?_
  rintro r w₆ ⟨hr, h₆, hfades₆⟩
  exact ⟨hr, fun _ => ⟨h₆, fun t => hfades₆.stays t (hover₅ t)⟩⟩

end Down

/-! ## The whole lifespan -/

/-- How a lifespan ends. -/
structure Left (r : Except Exc Unit) (w : World) : Prop where
  down : r = .ok () → w.served = true ∧ w.created = opened ∧ w.closes = w.created.reverse ∧
    ∀ t, Over w t
  /-- A refused start has been undone, as far as there was something to undo. -/
  undone : ∀ message, r = .error (.startupFailed message) →
    w.served = false ∧ .fetcher ∉ w.created ∧ w.closes = w.created.reverse ∧
      ∀ t, w.tasks t ≠ .running
  /-- Its exception does not escape as it is. -/
  renamed : ∀ message, r ≠ .error (.refused message)

theorem left_mishap {e : Exc} (he : Mishap e) (w : World) : Left (.error e) w := by
  refine ⟨fun hok => (by cases hok), fun message heq => ?_, fun message heq => ?_⟩
  · cases heq
    rcases he with he | ⟨_, he⟩ <;> cases he
  · cases heq
    rcases he with he | ⟨_, he⟩ <;> cases he

section Whole

variable {n : Nat} {w w' : World}

theorem holds_serveThenShutdown {ps : List Handle} (h : Rising n opened ps (tasksOf n) w) :
    (serveThenShutdown n).Holds Step (Safe n) Left w := by
  unfold serveThenShutdown
  refine Co.holds_bind (Co.holds_tryCatch ?_)
  refine Co.holds_bind (Co.holds_call _ _ fun served w₁ ⟨u, hact, hmoves⟩ => ?_)
  cases hact with
  | raises _ e he => cases he
  | serve _ _ hserve =>
    have hnext : Down n opened ps [] true { w with served := true } :=
      { h.down with served := rfl }
    have h₁ := hnext.moves hmoves
    refine ⟨h₁.safe_open (inTurn_nil _) List.not_mem_nil, ?_⟩
    have hrest : ∀ served : Except Exc Unit, (∀ e, served = .error e → Mishap e) →
        (shutdown n >>= fun _ => Co.ofExcept served : Prog Unit).Holds Step (Safe n) Left w₁ := by
      intro served hserve
      refine Co.holds_bind ((holds_shutdown h₁).mono ?_)
      rintro (e | _) w₂ ⟨hr, hdown⟩
      · exact left_mishap (hr e rfl) w₂
      obtain ⟨h₂, hover⟩ := hdown rfl
      rcases served with e | _
      · exact left_mishap (hserve e rfl) w₂
      refine ⟨fun _ => ⟨h₂.served, h₂.created, ?_, hover⟩, fun message heq => (by cases heq),
        fun message heq => (by cases heq)⟩
      rw [h₂.closes, h₂.created]
    rcases served with e | _
    · exact hrest (.error e) hserve
    · exact hrest (.ok ()) hserve

theorem holds_lifespan (smokeEnabled : Bool) (h : Rising n [] [] [] w) :
    (lifespan n smokeEnabled).Holds Step (Safe n) Left w := by
  unfold lifespan
  refine Co.holds_bind (Co.holds_call _ _ fun r w₁ ⟨u, hact, hmoves⟩ => ?_)
  cases hact with
  | raises _ e he => exact ⟨(h.moves hmoves).safe, left_mishap he w₁⟩
  | prepare =>
    refine ⟨(h.moves hmoves).safe, ?_⟩
    have hstart := holds_startup smokeEnabled (h.moves hmoves)
    refine Co.holds_bind (Co.holds_tryCatch (hstart.mono ?_))
    rintro (e | _) w₂ hended
    on_goal 2 => exact holds_serveThenShutdown hended
    cases e with
    | refused message =>
      obtain ⟨handles, begun, h₂, hat⟩ := hended
      refine Co.holds_bind ((holds_undo h₂ hat).mono ?_)
      rintro (e | _) w₃ ⟨hr, hdown⟩
      · exact left_mishap (hr e rfl) w₃
      obtain ⟨h₃, htold⟩ := hdown rfl
      refine ⟨fun hok => (by cases hok), fun _ _ => ⟨h₃.served, ?_, ?_, htold⟩,
        fun message heq => (by cases heq)⟩
      · rw [h₃.created]
        rcases hat with rfl | rfl <;> decide
      · rw [h₃.closes, h₃.created]
    | _ => exact left_mishap hended.1 w₂

/-- Whatever fails on the way, and whenever the process is killed: the recovery of the jobs
begins with every worker started, no handle is closed twice, and the store is closed last, when
all that was opened has been closed and every task has been told to stop. A shutdown has also
waited for the tasks; a refused start has not. Both close in the reverse order of the creation
all that they find. -/
theorem lifespan_closes_what_it_opens (n : Nat) (smokeEnabled : Bool) :
    (∀ w, (lifespan n smokeEnabled).Stops Step start w → Safe n w) ∧
    ∀ r w, (lifespan n smokeEnabled).EndsIn Step start r w → Left r w := by
  have hholds := holds_lifespan smokeEnabled (rising_start n)
  refine ⟨fun w hstops => ?_, fun r w hend => Co.end_of_holds hholds hend⟩
  rcases Co.stops_of_holds hholds hstops with rfl | hsafe
  · exact (rising_start n).safe
  · exact hsafe

end Whole

/-! ## A refused start -/

/-- Every operation succeeds but the smoke tests, and no task comes to its end. -/
def smokeFails : (op : Op) → World → Except Exc op.Ans × World
  | .create h, w => (.ok (), { w with created := w.created ++ [h] })
  | .publish h, w => (.ok (), { w with published := w.published ++ [h] })
  | .published h, w => (.ok (decide (h ∈ w.published)), w)
  | .check .smokeTests, w => (.error (.refused "no output"), w)
  | .spawn t, w => (.ok (), w.setTask t .running)
  | .recoverJobs, w => (.ok (), { w with recovering := true })
  | .serve, w => (.ok (), { w with served := true })
  | .alive t, w => (.ok (decide (w.tasks t = .running ∨ w.tasks t = .cancelling)), w)
  | .cancel t, w => (.ok (), if w.tasks t = .running then w.setTask t .cancelling else w)
  | .join t, w => (.ok (), w.setTask t .done)
  | .close h, w => (.ok (), { w with closes := w.closes ++ [h] })
  | .prepare, w => (.ok (), w)
  | .check _, w => (.ok (), w)
  | .recoverFetches, w => (.ok (), w)

theorem smokeFails_step (op : Op) (w : World) :
    Step op w (smokeFails op w).1 (smokeFails op w).2 := by
  refine ⟨(smokeFails op w).2, ?_, rfl, fun t => .inl rfl⟩
  cases op with
  | check c =>
    cases c with
    | smokeTests => exact .raises w _ trivial
    | _ => exact .check w _
  | recoverJobs => exact .recoverJobs w _ fun e he => (by cases he)
  | serve => exact .serve w _ fun e he => (by cases he)
  | join t => exact .join w t _ fun e he => (by cases he)
  | close h => exact .close w h _ fun e he => (by cases he)
  | _ => constructor

/-- The store is closed under a worker that is still on its way out. -/
theorem a_refused_start_does_not_wait : ∃ message w,
    (lifespan 1 true).EndsIn Step start (.error (.startupFailed message)) w ∧
      .store ∈ w.closes ∧ w.tasks (.worker 0) = .cancelling := by
  refine ⟨"no output", ((lifespan 1 true).run smokeFails start).2, ?_, by decide, by decide⟩
  exact Co.endsIn_run smokeFails_step (lifespan 1 true) start

end image_gen.service_lifespan

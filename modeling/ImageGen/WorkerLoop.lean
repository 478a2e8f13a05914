-- The loop of the queue worker. It serves items until it is cancelled, unless
-- the catch-all branch of `_process_one` raises: its write stands before the
-- future, and nothing catches what it raises.
import ImageGen.Runs
import ImageGen.WorkerTerminal

namespace image_gen.worker_loop

open image_gen.coroutine image_gen.runs image_gen.job_store image_gen.worker
  image_gen.worker_terminal

variable {G : Type}

/-! ## The loop -/

/-- An item of the queue, with what the pipeline and everything around it do
while the worker serves it. -/
structure Turn (G : Type) where
  job : Job
  /-- None for a detached or recovered job. -/
  future : Option FutureState
  pipeline : Prog G JobResult
  env : Env G

structure Loop where
  world : World
  /-- The exception that `run` ended with. -/
  ended : Option Exc
  /-- The futures of the items, except of one that was cancelled. -/
  futures : List (Option FutureState)

def begin (l : Loop) (t : Turn G) : World := { l.world with future := t.future }

def serve (l : Loop) (t : Turn G) : Except Exc Unit × World :=
  (processOne t.pipeline t.job).run (exec t.env) (begin l t)

/-- `item = await queue.get(); await self._process_one(item)`. -/
def next (l : Loop) (t : Turn G) : Option Loop :=
  match l.ended with
  | some _ => none
  | none =>
    match serve l t with
    | (.ok (), w) => some ⟨w, none, l.futures ++ [w.future]⟩
    | (.error .cancelled, w) => some ⟨w, some .cancelled, l.futures⟩
    | (.error e, w) => some ⟨w, some e, l.futures ++ [w.future]⟩

def start (w : World) : Loop := ⟨w, none, []⟩

/-- The loop runs or was cancelled, and no future is left pending. -/
structure Alive (l : Loop) : Prop where
  ended_cancelled : ∀ e, l.ended = some e → e = .cancelled
  futures_done : ∀ f ∈ l.futures, ∀ s, f = some s → s.done = true

/-- When the pipeline raises what the first `except` does not name, the
catch-all's write does not raise. -/
def CatchAllWrites (l : Loop) (t : Turn G) : Prop :=
  ∀ e w, t.pipeline.run (exec t.env) (begin l t) = (.error e, w) →
    e.isBackendOrStorage = false → e.isException = true →
    ∀ e', (exec t.env (.setFailed t.job.id "internal" e.text) w).1 = .error e' →
      e'.isException = false

/-! ## One turn -/

theorem resolve_done (w : World) {f : FutureState} (hf : f.done = true) :
    ∀ s, (w.resolve f).future = some s → s.done = true := by
  intro s hs
  unfold World.resolve at hs
  split at hs
  · cases hs
    exact hf
  · rename_i hpending
    cases s with
    | pending => exact absurd hs hpending
    | _ => rfl

/-- How one item can end. -/
inductive Served : Except Exc Unit → World → Prop
  | returned {w : World} (h : ∀ s, w.future = some s → s.done = true) : Served (.ok ()) w
  | cancelled {w : World} : Served (.error .cancelled) w

theorem isException_eq_false {e : Exc} (h : e.isException = false) : e = .cancelled := by
  cases e <;> first | rfl | cases h

theorem served_recorded (env : Env G) (e : Exc) (w : World) :
    Served ((recordedBranch e).run (exec env) w).1 ((recordedBranch e).run (exec env) w).2 := by
  unfold recordedBranch
  simp only [Co.run_bind, run_recordJobEvent, run_setException]
  exact .returned (resolve_done _ rfl)

theorem served_completed (env : Env G) (r : JobResult) (w : World) :
    Served ((completedBranch r).run (exec env) w).1 ((completedBranch r).run (exec env) w).2 := by
  unfold completedBranch
  simp only [Co.run_bind, run_recordJobEvent, run_setResult]
  exact .returned (resolve_done _ rfl)

/-- The catch-all serves its item exactly when its write does not raise. -/
theorem served_unexpected (env : Env G) (job : Job) (e : Exc) (w : World) :
    Served ((unexpectedBranch job e).run (exec env) w).1
        ((unexpectedBranch job e).run (exec env) w).2 ↔
      ∀ e', (exec env (.setFailed job.id "internal" e.text) w).1 = .error e' →
        e'.isException = false := by
  unfold unexpectedBranch
  simp only [Co.run_bind, run_setFailed, run_recordJobEvent, run_setException]
  rcases exec env (.setFailed job.id "internal" e.text) w with ⟨e' | _, w'⟩
  · simp only [Except.error.injEq, forall_eq']
    constructor
    · intro h
      cases h
      rfl
    · intro h
      rw [isException_eq_false h]
      exact .cancelled
  · simp only [reduceCtorEq, false_imp_iff, implies_true, iff_true]
    exact .returned (resolve_done _ rfl)

theorem served_iff (l : Loop) (t : Turn G) :
    Served (serve l t).1 (serve l t).2 ↔ CatchAllWrites l t := by
  unfold serve CatchAllWrites
  rw [run_processOne]
  rcases t.pipeline.run (exec t.env) (begin l t) with ⟨e | result, w⟩
  · simp only [Prod.mk.injEq, Except.error.injEq]
    rcases hback : e.isBackendOrStorage
    · rcases hexc : e.isException
      · -- a cancellation passes through
        obtain rfl := isException_eq_false hexc
        refine ⟨?_, fun _ => .cancelled⟩
        rintro _ e' w' ⟨rfl, rfl⟩ _ h
        cases h
      · simp only [Bool.false_eq_true, if_false, if_true]
        rw [served_unexpected]
        constructor
        · rintro h _ _ ⟨rfl, rfl⟩ _ _
          exact h
        · intro h
          exact h e w ⟨rfl, rfl⟩ hback hexc
    · simp only [if_true]
      refine ⟨?_, fun _ => served_recorded _ _ _⟩
      rintro _ _ _ ⟨rfl, rfl⟩ h
      rw [hback] at h
      cases h
  · simp only [Prod.mk.injEq, reduceCtorEq, false_and, false_imp_iff, implies_true, iff_true]
    exact served_completed _ _ _

/-- An item that returns has its future done. -/
theorem served_of_ok {l : Loop} {t : Turn G} (h : (serve l t).1 = .ok ()) :
    Served (serve l t).1 (serve l t).2 := by
  rw [served_iff]
  intro e w hrun hback hexc e' he'
  unfold serve at h
  rw [run_processOne, hrun] at h
  simp only [hback, hexc, Bool.false_eq_true, if_false, if_true, unexpectedBranch, Co.run_bind,
    run_setFailed] at h
  rcases hw : exec t.env (.setFailed t.job.id "internal" e.text) w with ⟨e'' | _, w'⟩ <;>
    rw [hw] at h he'
  · cases h
  · cases he'

/-! ## The whole run -/

theorem alive_next {l l' : Loop} {t : Turn G} (hl : Alive l) (h : next l t = some l') :
    Alive l' ↔ CatchAllWrites l t := by
  rw [← served_iff]
  unfold next at h
  rcases hl0 : l.ended with _ | e <;> rw [hl0] at h
  · simp only at h
    rcases hs : serve l t with ⟨e | _, w⟩ <;> rw [hs] at h
    · by_cases hc : e = .cancelled
      · subst hc
        cases h
        refine ⟨fun _ => .cancelled, fun _ => ⟨?_, hl.futures_done⟩⟩
        rintro _ ⟨⟩
        rfl
      · have hl' : l' = ⟨w, some e, l.futures ++ [w.future]⟩ := by
          cases e <;> first | exact absurd rfl hc | (cases h; rfl)
        subst hl'
        constructor
        · intro ha
          exact absurd (ha.ended_cancelled e rfl) hc
        · intro hserved
          cases hserved
          exact absurd rfl hc
    · cases h
      constructor
      · intro ha
        exact .returned fun s hf => ha.futures_done _ (by simp) s hf
      · intro hserved
        cases hserved with
        | returned hdone =>
          refine ⟨fun _ he => (by cases he), ?_⟩
          intro f hf
          rcases List.mem_append.mp hf with hold | hnew
          · exact hl.futures_done f hold
          · rw [List.mem_singleton.mp hnew]
            exact hdone
  · cases h

theorem ended_of_not_alive {l l' : Loop} {t : Turn G} (hl : Alive l) (h : next l t = some l')
    (hdead : ¬ Alive l') : ∃ e, l'.ended = some e := by
  have hserved : ¬ Served (serve l t).1 (serve l t).2 := by
    rw [served_iff, ← alive_next hl h]
    exact hdead
  unfold next at h
  rcases hl0 : l.ended with _ | e <;> rw [hl0] at h
  · simp only at h
    rcases hs : serve l t with ⟨e | _, w⟩ <;> rw [hs] at h hserved
    · cases e <;> (cases h; exact ⟨_, rfl⟩)
    · exact absurd (served_of_ok (by rw [hs])) (hs ▸ hserved)
  · cases h

/-- A loop that is dead serves nothing more, so it stays dead. -/
theorem not_alive_exec {l l' : Loop} {ts : List (Turn G)} {e : Exc} (he : l.ended = some e)
    (h : exec next l ts = some l') : l' = l := by
  cases ts with
  | nil => cases h; rfl
  | cons t ts =>
    obtain ⟨m, hm, -⟩ := exec_cons.mp h
    unfold next at hm
    rw [he] at hm
    cases hm

theorem alive_start (w : World) : Alive (start w) := by
  refine ⟨fun _ he => ?_, fun _ hf => ?_⟩
  · cases he
  · cases hf

/-- The loop ends only by cancellation and leaves no future pending, exactly
when in each turn the catch-all could write. -/
theorem the_loop_survives (w : World) (ts : List (Turn G)) (l : Loop)
    (hrun : exec next (start w) ts = some l) :
    Alive l ↔ AllSteps next CatchAllWrites (start w) ts := by
  have hs := alive_start w
  generalize start w = l0 at hs hrun
  induction ts generalizing l0 with
  | nil =>
    cases hrun
    exact ⟨fun _ => trivial, fun _ => hs⟩
  | cons t ts ih =>
    obtain ⟨m, hm, hrest⟩ := exec_cons.mp hrun
    have hstep := alive_next hs hm
    constructor
    · intro hl
      have hm' : Alive m := by
        by_contra hdead
        obtain ⟨e, he⟩ := ended_of_not_alive hs hm hdead
        exact hdead (not_alive_exec he hrest ▸ hl)
      refine ⟨hstep.mp hm', fun s' hs' => ?_⟩
      rw [hm] at hs'
      cases hs'
      exact (ih m hm' hrest).mp hl
    · rintro ⟨hok, hoks⟩
      exact (ih m (hstep.mpr hok) hrest).mpr (hoks m hm)

/-! ## Two runs -/

def smallTurn (env : Env Unit) : Turn Unit where
  job := smallJob "gen_1" "sdxl"
  future := some .pending
  pipeline := runPipeline smallService (smallJob "gen_1" "sdxl")
  env := env

def smallStart : Loop := start (smallWorld [smallJob "gen_1" "sdxl"])

theorem a_willing_turn_keeps_the_loop :
    Alive ((exec next smallStart [smallTurn (smallEnv willing)]).getD smallStart) ↔
      AllSteps next CatchAllWrites smallStart [smallTurn (smallEnv willing)] :=
  the_loop_survives _ [smallTurn (smallEnv willing)] _ (by rfl)

/-- The disk is full from the second write on. -/
def fullDisk : Env Unit :=
  { smallEnv willing with
    fault := fun n =>
      if n = 0 then none else some ⟨false, .error (.sqlite "database or disk is full")⟩ }

/-- `set_completed` raises, then the `set_failed` of the catch-all: the worker
task is dead and the handler waits for ever. -/
theorem a_full_disk_ends_the_loop :
    ∃ l, exec next smallStart [smallTurn fullDisk] = some l ∧
      l.ended = some (.store (.sqlite "database or disk is full")) ∧
      l.futures = [some .pending] ∧ ¬ Alive l := by
  refine ⟨_, rfl, by rfl, by rfl, fun h => ?_⟩
  exact absurd (h.ended_cancelled (.store (.sqlite "database or disk is full")) rfl) (by decide)

end image_gen.worker_loop

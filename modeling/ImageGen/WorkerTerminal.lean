-- Where the worker leaves the row of a job. Each awaited call has an `except`
-- that records some classes of exceptions. Another Backend or Storage class
-- reaches `_process_one`, which takes it for recorded.
import ImageGen.Worker

namespace image_gen.worker_terminal

open image_gen.coroutine image_gen.json image_gen.job_store image_gen.requests image_gen.worker

/-! ## The calls of a job -/

/-- The places where a pipeline awaits the adapter or the object store. -/
inductive Site
  | uploadImage
  | unloadModels
  | health
  | submit
  | wait
  | fetch
  | upload
  deriving DecidableEq

/-- The classes that the `except` clauses of a site write to the row. -/
def Site.records : Site → Exc → Bool
  | .uploadImage, .comfyUnreachable _ => true
  | .submit, .comfyUnreachable _ => true
  | .submit, .comfyNode _ => true
  | .wait, .comfyTimeout _ => true
  | .wait, .comfyUnreachable _ => true
  | .fetch, .comfyUnreachable _ => true
  | .upload, .storage _ => true
  | _, _ => false

/-- Why a job makes no further call. -/
inductive Halt
  | raised (site : Site) (e : Exc)
  /-- No call raised: the worker ends the job by itself. -/
  | stopped
  deriving DecidableEq

abbrev Calls (α : Type) := Except Halt α

variable {G α β γ δ : Type}

def atSite (site : Site) (answer : Except Exc α) : Calls α := answer.mapError (.raised site)

def orStop {ε : Type} (value : Except ε α) : Calls α := value.mapError fun _ => .stopped

def initImageCalls (svc : Service G) (env : Env G) (p : Prepared G) : Calls G :=
  match p.initImage with
  | none => .ok p.graph
  | some imageBytes => do
    let _ ← atSite .uploadImage (env.backend (.uploadImage imageBytes p.initFilename))
    orStop ((svc.injectInitImage p.graph p.initFilename).mapError raiseGraphError)

/-- What the worker makes of the answer to `health`. -/
def healthAnswer (env : Env G) : Except Exc (Option (List (String × Json))) :=
  match env.backend .health with
  | .ok snapshot => .ok (some snapshot)
  | .error e => if e.isException then .ok none else .error e

def headroomCalls (svc : Service G) (env : Env G) (model : ModelConfig) : Calls Bool :=
  if svc.hasHealth then do
    let snapshot ← atSite .health (healthAnswer env)
    return (snapshot.bind (headroomOf svc model)).getD false
  else return false

def swapCalls (svc : Service G) (env : Env G) (last : Option String) (model : ModelConfig) :
    Calls Unit :=
  match last with
  | none => .ok ()
  | some name =>
    if name = model.name then .ok ()
    else do
      let unloaded ← atSite .unloadModels (env.backend .unloadModels)
      if unloaded then .ok ()
      else
        let ok ← headroomCalls svc env model
        if ok then .ok () else .error .stopped

def uploadPngAnswers (env : Env G) (job : Job) : Nat → List Bytes → Except Exc (List String)
  | _, [] => .ok []
  | idx, png :: rest => do
    let (bucket, key) ← env.backend (.uploadPng job.id idx png)
    let keys ← uploadPngAnswers env job (idx + 1) rest
    return (bucket ++ "/" ++ key) :: keys

def uploadBlobAnswer (svc : Service G) (env : Env G) (job : Job) (idx : Nat) (blob : Bytes)
    (ext : String) : Except Exc (String × String) :=
  if svc.hasUploadGenerationBlob then
    env.backend (.uploadGenerationBlob job.id idx blob ext (mediaContentType ext))
  else env.backend (.uploadPng job.id idx blob)

def uploadBlobAnswers (svc : Service G) (env : Env G) (job : Job) :
    Nat → List (Bytes × String) → Except Exc (List String)
  | _, [] => .ok []
  | idx, (blob, ext) :: rest => do
    let (bucket, key) ← uploadBlobAnswer svc env job idx blob ext
    let keys ← uploadBlobAnswers svc env job (idx + 1) rest
    return (bucket ++ "/" ++ key) :: keys

def deliveryCalls (svc : Service G) (env : Env G) (job : Job) (p : Prepared G)
    (promptId : String) : Calls (List String) :=
  match p.product with
  | .image transparentBackground => do
    let images ← atSite .fetch (env.backend (.fetchOutputs promptId))
    if images.isEmpty then .error .stopped
    else
      let processed ← orStop (images.mapM (processImage svc transparentBackground))
      atSite .upload (uploadPngAnswers env job 0 processed)
  | .video _ _ =>
    if svc.hasFetchMediaOutputs then do
      let rows ← atSite .fetch (env.backend (.fetchMediaOutputs promptId))
      if rows.isEmpty then .error .stopped
      else
        atSite .upload (uploadBlobAnswers svc env job 0
          (rows.map fun row => (row.1, normalizeExt svc row.2)))
    else .error .stopped

def generateCalls (svc : Service G) (env : Env G) (last : Option String) (p : Prepared G) :
    Calls String := do
  let graph ← initImageCalls svc env p
  swapCalls svc env last p.model
  let promptId ← atSite .submit (env.backend (.submit p.model.name graph))
  let timeoutS ← orStop (waitTimeout svc p)
  atSite .wait (env.backend (.waitForCompletion promptId timeoutS))
  return promptId

/-- The calls that the pipeline of a job makes, in their order, up to the
first that raises. -/
def backendCalls (svc : Service G) (env : Env G) (job : Job) (last : Option String) :
    Calls (List String) :=
  match prepare svc job env.randbelow with
  | .error _ => .error .stopped
  | .ok p => do
    let promptId ← generateCalls svc env last p
    deliveryCalls svc env job p promptId

/-- The first call that raises does so with a Backend or Storage class that
its site does not record. -/
def RaisesUnrecorded (svc : Service G) (env : Env G) (job : Job) (last : Option String) : Prop :=
  ∃ site e, backendCalls svc env job last = .error (.raised site e) ∧
    e.isBackendOrStorage = true ∧ site.records e = false

/-! ## The row of the job -/

def Healthy (env : Env G) : Prop := ∀ n, env.fault n = none

def Open (id : String) (w : World) : Prop := ∃ st, w.status id = some st ∧ ¬ st.Terminal

def Closed (id : String) (w : World) : Prop := ∃ st, w.status id = some st ∧ st.Terminal

/-- The row is there with status `st`, and the worker remembers `last`. -/
structure At (id : String) (st : JobStatus) (last : Option String) (w : World) : Prop where
  row : w.status id = some st
  last_eq : w.lastModelName = last

theorem not_closed_of_open {id : String} {w : World} (h : Open id w) : ¬ Closed id w := by
  obtain ⟨st, hst, hopen⟩ := h
  rintro ⟨st', hst', hclosed⟩
  rw [hst] at hst'
  cases hst'
  exact hopen hclosed

theorem At.open {id : String} {st : JobStatus} {last : Option String} {w : World}
    (h : At id st last w) (hst : ¬ st.Terminal) : Open id w := ⟨st, h.row, hst⟩

theorem at_observe {id : String} {st : JobStatus} {last : Option String} {w : World}
    (h : At id st last w) (c : Call G) (a : c.Ans) : At id st last (w.observe c a) := by
  cases c <;> exact ⟨h.row, h.last_eq⟩

/-! ## The writes -/

section Writes

variable {env : Env G} {id : String} {st : JobStatus} {last : Option String} {w : World}

/-- A write that the transition table allows goes through in a healthy store. -/
theorem execStore_allowed (hh : Healthy env) (h : At id st last w) {target : JobStatus}
    (ha : target ∈ allowedTransitions st) (f : Nat → Job → Job)
    (hid : ∀ now j, (f now j).id = j.id) (hstatus : ∀ now j, (f now j).status = target) :
    ∃ w', execStore env w (fun s now => s.transition id target (f now)) = (.ok (), w') ∧
      At id target last w' := by
  have hrow : (w.store.getById id).map (·.status) = some st := h.row
  obtain ⟨j, hj, -⟩ := Option.map_eq_some_iff.mp hrow
  have hgo := Store.transition_allowed (f (env.clock w.storeWrites)) hrow ha
  refine ⟨{ w with
    store := w.store.update id (f (env.clock w.storeWrites)),
    storeWrites := w.storeWrites + 1 }, ?_, ?_, h.last_eq⟩
  · unfold execStore
    rw [hh w.storeWrites]
    simp only [hgo]
  · change ((w.store.update id (f _)).getById id).map (·.status) = some target
    rw [Store.getById_update_self _ _ (hid _), hj]
    simp [hstatus]

theorem exec_setFailed (hh : Healthy env) (h : At id st last w) (hst : ¬ st.Terminal)
    (code message : String) :
    ∃ w', exec env (.setFailed id code message) w = (.ok (), w') ∧ At id .failed last w' :=
  execStore_allowed hh h (failed_mem_allowed hst) (Job.setFailed code message)
    (fun _ _ => rfl) (fun _ _ => rfl)

theorem exec_setRunning (hh : Healthy env) (h : At id .queued last w)
    (promptId clientId : String) :
    ∃ w', exec env (.setRunning id promptId clientId) w = (.ok (), w') ∧
      At id .running last w' :=
  execStore_allowed hh h (by decide) (Job.setRunning promptId clientId)
    (fun _ _ => rfl) (fun _ _ => rfl)

theorem exec_setCompleted (hh : Healthy env) (h : At id .running last w)
    (outputKeys : List String) (result : JobResult) :
    ∃ w', exec env (.setCompleted id outputKeys result) w = (.ok (), w') ∧
      At id .completed last w' :=
  execStore_allowed hh h (by decide) (Job.setCompleted outputKeys result)
    (fun _ _ => rfl) (fun _ _ => rfl)

end Writes

/-! ## A program and its calls -/

/-- How a program has left the row when it raises `e`. A job that ends by
itself is closed when it raises a Backend or Storage class. -/
def Ended (id : String) (halt : Halt) (e : Exc) (w : World) : Prop :=
  e.isException = true →
    match halt with
    | .stopped => if e.isBackendOrStorage then Closed id w else Open id w
    | .raised site e' => e = e' ∧ if site.records e then Closed id w else Open id w

/-- Run from `P`, the program ends as its calls do: in `Q` when they all
return, and `Ended` when one raises. -/
def Follows (env : Env G) (id : String) (P Q : World → Prop) (R : β → α → Prop) (c : Calls β)
    (p : Prog G α) : Prop :=
  ∀ w, P w →
    match c, p.run (exec env) w with
    | .ok b, (.ok a, w') => R b a ∧ Q w'
    | .error halt, (.error e, w') => Ended id halt e w'
    | _, _ => False

section Rules

variable {env : Env G} {id : String} {P Q S : World → Prop} {R : β → α → Prop}

theorem follows_iff {c : Calls β} {p : Prog G α} :
    Follows env id P Q R c p ↔ Co.Follows (exec env) (Ended id) P Q R c p := by
  unfold Follows Co.Follows
  refine forall₂_congr fun w _ => ?_
  rcases c with halt | b <;> rcases p.run (exec env) w with ⟨e | a, w'⟩ <;> exact Iff.rfl

theorem follows_pure {b : β} {a : α} (hR : R b a) :
    Follows env id P P R (.ok b) (pure a) := follows_iff.mpr (Co.follows_pure hR)

theorem Follows.bind {R' : δ → γ → Prop} {c : Calls β} {d : β → Calls δ} {p : Prog G α}
    {f : α → Prog G γ} (h : Follows env id P Q R c p)
    (hf : ∀ b a, R b a → Follows env id Q S R' (d b) (f a)) :
    Follows env id P S R' (c >>= d) (p >>= f) :=
  follows_iff.mpr ((follows_iff.mp h).bind fun b a hR => follows_iff.mp (hf b a hR))

/-- After the last call, the rest of the program makes none. -/
theorem Follows.last {R' : β → γ → Prop} {c : Calls β} {p : Prog G α} {f : α → Prog G γ}
    (h : Follows env id P Q R c p) (hf : ∀ b a, R b a → Follows env id Q S R' (.ok b) (f a)) :
    Follows env id P S R' c (p >>= f) :=
  follows_iff.mpr ((follows_iff.mp h).last fun b a hR => follows_iff.mp (hf b a hR))

/-- A stage that makes no call. -/
theorem Follows.silent {R' : δ → γ → Prop} {b : β} {d : Calls δ} {p : Prog G α}
    {f : α → Prog G γ} (h : Follows env id P Q R (.ok b) p)
    (hf : ∀ a, R b a → Follows env id Q S R' d (f a)) :
    Follows env id P S R' d (p >>= f) :=
  follows_iff.mpr ((follows_iff.mp h).silent fun a hR => follows_iff.mp (hf a hR))

/-- A program that makes one call, with the `except` clauses of its site. -/
theorem follows_site {site : Site} {c : Except Exc α} {p : Prog G α} {h : Exc → Prog G α}
    (hp : ∀ w, P w → ∃ w', p.run (exec env) w = (c, w') ∧ P w')
    (hh : ∀ e w, P w → ∃ e' w', (h e).run (exec env) w = (.error e', w') ∧
      Ended id (.raised site e) e' w') :
    Follows env id P P Eq (atSite site c) (tryCatch p h) := by
  intro w hw
  obtain ⟨w', hrun, hw'⟩ := hp w hw
  rw [Co.run_tryCatch, hrun]
  rcases c with e | a
  · obtain ⟨e', w'', hrun', hend⟩ := hh e w' hw'
    simp only [hrun']
    exact hend
  · exact ⟨rfl, hw'⟩

/-- A call without an `except`. -/
theorem follows_bare {site : Site} {c : Except Exc α} {p : Prog G α}
    (hp : ∀ w, P w → ∃ w', p.run (exec env) w = (c, w') ∧ P w')
    (hP : ∀ w, P w → Open id w) (hs : ∀ e, site.records e = false) :
    Follows env id P P Eq (atSite site c) p := by
  intro w hw
  obtain ⟨w', hrun, hw'⟩ := hp w hw
  rw [hrun]
  rcases c with e | a
  · refine fun _ => ⟨rfl, ?_⟩
    rw [hs e]
    exact hP w' hw'
  · exact ⟨rfl, hw'⟩

/-- A pure step, which may raise what is no Backend or Storage class. -/
theorem follows_value {v : Except Exc α} (hP : ∀ w, P w → Open id w)
    (hv : ∀ e, v = .error e → e.isBackendOrStorage = false) :
    Follows env id P P Eq (orStop v) (Co.ofExcept v : Prog G α) := by
  intro w hw
  rcases v with e | a
  · intro _
    change if e.isBackendOrStorage then _ else _
    rw [hv e rfl]
    exact hP w hw
  · exact ⟨rfl, hw⟩

theorem follows_stopped {p : Prog G α}
    (hp : ∀ w, P w → ∃ e w', p.run (exec env) w = (.error e, w') ∧ Ended id .stopped e w') :
    Follows env id P Q R (.error .stopped) p := follows_iff.mpr (Co.follows_error hp)

end Rules

/-! ## The stages -/

section Stages

variable {env : Env G} {svc : Service G} {job : Job} {p : Prepared G} {st : JobStatus}
  {last : Option String} {w : World}

variable (env) in
/-- A call by itself shows the row as it was. -/
theorem run_ask_call (c : Call G) (h : At job.id st last w) :
    ∃ w', (ask (.call c)).run (exec env) w = (env.backend c, w') ∧ At job.id st last w' := by
  rw [run_ask]
  rcases hc : env.backend c with e | a
  · exact ⟨w, exec_call_error hc w, h⟩
  · exact ⟨w.observe c a, exec_call_ok hc w, at_observe h c a⟩

theorem run_failJob (hh : Healthy env) (h : At job.id st last w) (hst : ¬ st.Terminal)
    (code message : String) (e : Exc) :
    ∃ w', (failJob job code message e : Prog G α).run (exec env) w = (.error e, w') ∧
      At job.id .failed last w' := by
  obtain ⟨w', hrun, hw'⟩ := exec_setFailed hh h hst code message
  refine ⟨{ w' with metrics := w'.metrics.map (· ++ [("failed", some code)]) }, ?_,
    hw'.row, hw'.last_eq⟩
  simp [failJob, Co.run_bind, hrun]

theorem At.closed {id : String} (h : At id .failed last w) : Closed id w :=
  ⟨.failed, h.row, by decide⟩

/-- An `except` clause that records what it catches. -/
theorem records_failJob (hh : Healthy env) (h : At job.id st last w) (hst : ¬ st.Terminal)
    {site : Site} {e : Exc} (hs : site.records e = true) (code message : String) :
    ∃ e' w', (failJob job code message e : Prog G α).run (exec env) w = (.error e', w') ∧
      Ended job.id (.raised site e) e' w' := by
  obtain ⟨w', hrun, hw'⟩ := run_failJob hh h hst code message e
  refine ⟨e, w', hrun, fun _ => ⟨rfl, ?_⟩⟩
  rw [if_pos hs]
  exact hw'.closed

theorem rethrows (h : At job.id st last w) (hst : ¬ st.Terminal) {site : Site} {e : Exc}
    (hs : site.records e = false) :
    ∃ e' w', (throw e : Prog G α).run (exec env) w = (.error e', w') ∧
      Ended job.id (.raised site e) e' w' := by
  refine ⟨e, w, rfl, fun _ => ⟨rfl, ?_⟩⟩
  rw [if_neg (by simp [hs])]
  exact h.open hst

/-- A site whose clauses each record the exception and raise it again. -/
theorem follows_recording (hh : Healthy env) (hst : ¬ st.Terminal) {site : Site}
    {c : Except Exc α} {q : Prog G α} {h : Exc → Prog G α}
    (hq : ∀ w, At job.id st last w → ∃ w', q.run (exec env) w = (c, w') ∧ At job.id st last w')
    (hrec : ∀ e, site.records e = true → ∃ code message, h e = failJob job code message e)
    (hthrow : ∀ e, site.records e = false → h e = throw e) :
    Follows env job.id (At job.id st last) (At job.id st last) Eq (atSite site c)
      (tryCatch q h) := by
  refine follows_site hq fun e w hw => ?_
  rcases hs : site.records e
  · rw [hthrow e hs]
    exact rethrows hw hst hs
  · obtain ⟨code, message, hfail⟩ := hrec e hs
    rw [hfail]
    exact records_failJob hh hw hst hs code message

theorem follows_uploadImage (hh : Healthy env) (hst : ¬ st.Terminal) (imageBytes : Bytes)
    (filename : String) :
    Follows env job.id (At job.id st last) (At job.id st last) Eq
      (atSite .uploadImage (env.backend (.uploadImage imageBytes filename)))
      (uploadImage job imageBytes filename) := by
  refine follows_recording hh hst (fun w => run_ask_call env _) ?_ ?_
  · intro e he
    cases e <;> first | exact ⟨_, _, rfl⟩ | simp [Site.records] at he
  · intro e he
    cases e <;> first | rfl | simp [Site.records] at he

theorem follows_submit (hh : Healthy env) (hst : ¬ st.Terminal) (model : ModelConfig) (graph : G) :
    Follows env job.id (At job.id st last) (At job.id st last) Eq
      (atSite .submit (env.backend (.submit model.name graph))) (submit job model graph) := by
  refine follows_recording hh hst (fun w => run_ask_call env _) ?_ ?_
  · intro e he
    cases e <;> first | exact ⟨_, _, rfl⟩ | simp [Site.records] at he
  · intro e he
    cases e <;> first | rfl | simp [Site.records] at he

theorem follows_orUnreachable (hh : Healthy env) (hst : ¬ st.Terminal) (c : Call G) :
    Follows env job.id (At job.id st last) (At job.id st last) Eq
      (atSite .fetch (env.backend c)) (orUnreachable job (ask (.call c))) := by
  refine follows_recording hh hst (fun w => run_ask_call env _) ?_ ?_
  · intro e he
    cases e <;> first | exact ⟨_, _, rfl⟩ | simp [Site.records] at he
  · intro e he
    cases e <;> first | rfl | simp [Site.records] at he

theorem follows_orStorage (hh : Healthy env) (hst : ¬ st.Terminal) {c : Except Exc α}
    {q : Prog G α}
    (hq : ∀ w, At job.id st last w → ∃ w', q.run (exec env) w = (c, w') ∧ At job.id st last w') :
    Follows env job.id (At job.id st last) (At job.id st last) Eq (atSite .upload c)
      (orStorage job q) := by
  refine follows_recording hh hst hq ?_ ?_
  · intro e he
    cases e <;> first | exact ⟨_, _, rfl⟩ | simp [Site.records] at he
  · intro e he
    cases e <;> first | rfl | simp [Site.records] at he

theorem follows_uploadInitImage (hh : Healthy env) (hst : ¬ st.Terminal) :
    Follows env job.id (At job.id st last) (At job.id st last) Eq (initImageCalls svc env p)
      (uploadInitImage svc job p) := by
  unfold initImageCalls uploadInitImage
  rcases p.initImage with _ | imageBytes
  · exact follows_pure rfl
  · refine (follows_uploadImage hh hst imageBytes p.initFilename).bind fun _ _ _ => ?_
    refine follows_value (fun w hw => hw.open hst) ?_
    intro e he
    rcases hv : svc.injectInitImage p.graph p.initFilename with x | graph <;> rw [hv] at he
    · cases he
      cases x <;> rfl
    · cases he

/-- `health` may only raise what is no `Exception`. -/
theorem run_health (h : At job.id st last w) :
    ∃ w', (exceptException (some <$> ask (.call .health)) fun _ => pure none).run (exec env) w =
      (healthAnswer env, w') ∧ At job.id st last w' := by
  obtain ⟨w', hrun, hw'⟩ := run_ask_call env .health h
  refine ⟨w', ?_, hw'⟩
  unfold exceptException healthAnswer
  rw [Co.run_tryCatch, Co.run_map, hrun]
  rcases env.backend .health with e | a
  · simp only [Except.map]
    split <;> rfl
  · rfl

theorem follows_hasSwapHeadroom (hst : ¬ st.Terminal) (model : ModelConfig) :
    Follows env job.id (At job.id st last) (At job.id st last) Eq (headroomCalls svc env model)
      (hasSwapHeadroom svc model) := by
  unfold headroomCalls hasSwapHeadroom
  split
  · refine (follows_bare (fun w => run_health) (fun w hw => hw.open hst)
      fun e => by cases e <;> rfl).bind ?_
    rintro snapshot _ rfl
    rcases snapshot.bind (headroomOf svc model) with _ | ok
    · exact follows_pure rfl
    · exact fun w hw => ⟨rfl, hw.row, hw.last_eq⟩
  · exact follows_pure rfl

theorem follows_lastModelName {id : String} {Q : World → Prop} {R : β → α → Prop} {c : Calls β}
    {f : Option String → Prog G α} (h : Follows env id (At id st last) Q R c (f last)) :
    Follows env id (At id st last) Q R c (lastModelName >>= f) := by
  intro w hw
  rw [Co.run_bind, run_lastModelName, hw.last_eq]
  exact h w hw

theorem follows_failJob (hh : Healthy env) (hst : ¬ st.Terminal) {Q : World → Prop}
    {R : β → α → Prop} (code message : String) {e : Exc} (he : e.isBackendOrStorage = true) :
    Follows env job.id (At job.id st last) Q R (.error .stopped)
      (failJob job code message e) := by
  refine follows_stopped fun w hw => ?_
  obtain ⟨w', hrun, hw'⟩ := run_failJob hh hw hst code message e
  refine ⟨e, w', hrun, fun _ => ?_⟩
  simp only [he, if_true]
  exact hw'.closed

theorem follows_enforceSwap (hh : Healthy env) (hst : ¬ st.Terminal) (model : ModelConfig) :
    Follows env job.id (At job.id st last) (At job.id st last) Eq (swapCalls svc env last model)
      (enforceSwap svc job model) := by
  unfold enforceSwap
  refine follows_lastModelName ?_
  unfold swapCalls
  rcases last with _ | name
  · exact follows_pure rfl
  simp only
  split
  · exact follows_pure rfl
  refine (follows_bare (fun w => run_ask_call env _) (fun w hw => hw.open hst)
    fun e => by cases e <;> rfl).bind ?_
  rintro unloaded _ rfl
  split
  · exact follows_pure rfl
  refine (follows_hasSwapHeadroom hst model).bind ?_
  rintro ok _ rfl
  split
  · exact follows_pure rfl
  · exact follows_failJob hh hst _ _ rfl

theorem follows_markRunning (hh : Healthy env) (promptId : String) :
    Follows env job.id (At job.id .queued last) (At job.id .running last) Eq (.ok ())
      (markRunning svc job promptId) := by
  intro w hw
  obtain ⟨w', hrun, hw'⟩ := exec_setRunning hh hw promptId svc.clientId
  unfold markRunning exceptException
  rw [Co.run_tryCatch, Co.run_bind, run_setRunning, hrun]
  exact ⟨rfl, hw'.row, hw'.last_eq⟩

variable (env) in
/-- Cleanup never shows in the row, and lets only a cancellation through. -/
theorem run_safeCancel (h : At job.id st last w) (promptId : String) :
    ∃ r w', (safeCancel promptId : Prog G Unit).run (exec env) w = (r, w') ∧
      At job.id st last w' ∧ ∀ e, r = .error e → e.isException = false := by
  obtain ⟨w', hrun, hw'⟩ := run_ask_call env (.cancel promptId) h
  unfold safeCancel exceptException
  rw [Co.run_tryCatch, hrun]
  rcases hc : env.backend (.cancel promptId) with e | a
  · rcases he : e.isException
    · exact ⟨.error e, w', by simp [he], hw', by rintro _ ⟨⟩; exact he⟩
    · exact ⟨.ok (), w', by simp [he], hw', by rintro _ ⟨⟩⟩
  · exact ⟨.ok a, w', rfl, hw', by rintro _ ⟨⟩⟩

variable (env) in
theorem run_safeFree (h : At job.id st last w) :
    ∃ r w', (safeFree : Prog G Unit).run (exec env) w = (r, w') ∧
      At job.id st last w' ∧ ∀ e, r = .error e → e.isException = false := by
  obtain ⟨w', hrun, hw'⟩ := run_ask_call env .free h
  unfold safeFree exceptException
  rw [Co.run_tryCatch, Co.run_bind, hrun]
  rcases hc : env.backend .free with e | a
  · rcases he : e.isException
    · exact ⟨.error e, w', by simp [he], hw', by rintro _ ⟨⟩; exact he⟩
    · exact ⟨.ok (), w', by simp [he], hw', by rintro _ ⟨⟩⟩
  · exact ⟨.ok (), w', rfl, hw', by rintro _ ⟨⟩⟩

/-- A timeout is recorded after the cleanup, unless the cleanup is cancelled. -/
theorem run_timeout (hh : Healthy env) (h : At job.id st last w) (hst : ¬ st.Terminal)
    (promptId m : String) :
    ∃ e' w', (do
        safeCancel promptId
        safeFree
        failJob job "comfy_timeout" m (.comfyTimeout m) : Prog G Unit).run (exec env) w =
          (.error e', w') ∧ Ended job.id (.raised .wait (.comfyTimeout m)) e' w' := by
  obtain ⟨r, w1, hrun1, hw1, hr1⟩ := run_safeCancel env h promptId
  rw [Co.run_bind, hrun1]
  rcases r with e | a
  · exact ⟨e, w1, rfl, fun he => by rw [hr1 e rfl] at he; cases he⟩
  obtain ⟨r, w2, hrun2, hw2, hr2⟩ := run_safeFree env hw1
  simp only
  rw [Co.run_bind, hrun2]
  rcases r with e | a
  · exact ⟨e, w2, rfl, fun he => by rw [hr2 e rfl] at he; cases he⟩
  · exact records_failJob hh hw2 hst rfl _ _

theorem follows_awaitCompletion (hh : Healthy env) (hst : ¬ st.Terminal) (promptId : String)
    (timeoutS : PyFloat) :
    Follows env job.id (At job.id st last) (At job.id st last) Eq
      (atSite .wait (env.backend (.waitForCompletion promptId timeoutS)))
      (awaitCompletion job promptId timeoutS) := by
  refine follows_site (fun w => run_ask_call env _) fun e w hw => ?_
  cases e with
  | comfyTimeout m => exact run_timeout hh hw hst promptId m
  | comfyUnreachable m => exact records_failJob hh hw hst rfl _ _
  | _ => exact rethrows hw hst rfl

theorem run_uploadPngs (images : List Bytes) (idx : Nat) (h : At job.id st last w) :
    ∃ w', (uploadPngs job idx images).run (exec env) w =
      (uploadPngAnswers env job idx images, w') ∧ At job.id st last w' := by
  induction images generalizing idx w with
  | nil => exact ⟨w, rfl, h⟩
  | cons png rest ih =>
    obtain ⟨w1, hrun1, hw1⟩ := run_ask_call env (.uploadPng job.id idx png) h
    unfold uploadPngs uploadPngAnswers
    rw [Co.run_bind, hrun1]
    rcases env.backend (.uploadPng job.id idx png) with e | ⟨bucket, key⟩
    · exact ⟨w1, rfl, hw1⟩
    obtain ⟨w2, hrun2, hw2⟩ := ih (idx + 1) hw1
    refine ⟨w2, ?_, hw2⟩
    simp only
    rw [Co.run_bind, hrun2]
    rcases uploadPngAnswers env job (idx + 1) rest <;> rfl

variable (env svc) in
theorem run_uploadBlob (idx : Nat) (blob : Bytes) (ext : String) (h : At job.id st last w) :
    ∃ w', (uploadBlob svc job idx blob ext).run (exec env) w =
      (uploadBlobAnswer svc env job idx blob ext, w') ∧ At job.id st last w' := by
  unfold uploadBlob uploadBlobAnswer
  split
  · exact run_ask_call env _ h
  · exact run_ask_call env _ h

theorem run_uploadBlobs (blobs : List (Bytes × String)) (idx : Nat) (h : At job.id st last w) :
    ∃ w', (uploadBlobs svc job idx blobs).run (exec env) w =
      (uploadBlobAnswers svc env job idx blobs, w') ∧ At job.id st last w' := by
  induction blobs generalizing idx w with
  | nil => exact ⟨w, rfl, h⟩
  | cons row rest ih =>
    obtain ⟨blob, ext⟩ := row
    obtain ⟨w1, hrun1, hw1⟩ := run_uploadBlob env svc idx blob ext h
    unfold uploadBlobs uploadBlobAnswers
    rw [Co.run_bind, hrun1]
    rcases uploadBlobAnswer svc env job idx blob ext with e | ⟨bucket, key⟩
    · exact ⟨w1, rfl, hw1⟩
    obtain ⟨w2, hrun2, hw2⟩ := ih (idx + 1) hw1
    refine ⟨w2, ?_, hw2⟩
    simp only
    rw [Co.run_bind, hrun2]
    rcases uploadBlobAnswers svc env job (idx + 1) rest <;> rfl

theorem follows_finish (hh : Healthy env) (outputKeys : List String) (data : List DataEntry)
    (keys : List String) :
    Follows env job.id (At job.id .running last) (fun w => Closed job.id w)
      (fun _ _ => True) (.ok keys) (finish job p outputKeys data) := by
  intro w hw
  obtain ⟨w', hrun, hw'⟩ :=
    exec_setCompleted hh hw outputKeys ⟨data, env.durationMs, p.seed⟩
  unfold finish
  simp only [Co.run_bind, run_readDurationMs, run_setCompleted, hrun, run_setLastModelName,
    Co.run_pure]
  exact ⟨trivial, .completed, hw'.row, by decide⟩

theorem follows_deliverImages (hh : Healthy env) (transparentBackground : Bool)
    (promptId : String) (hp : p.product = .image transparentBackground) :
    Follows env job.id (At job.id .running last) (fun w => Closed job.id w) (fun _ _ => True)
      (deliveryCalls svc env job p promptId)
      (deliverImages svc job p transparentBackground promptId) := by
  unfold deliveryCalls deliverImages
  rw [hp]
  refine (follows_orUnreachable hh (by decide) _).bind ?_
  rintro images _ rfl
  split
  · exact follows_failJob hh (by decide) _ _ rfl
  rcases images.mapM (processImage svc transparentBackground) with message | processed
  · exact follows_failJob hh (by decide) _ _ rfl
  · refine (follows_orStorage hh (by decide) fun w => run_uploadPngs _ 0).last ?_
    rintro keys _ rfl
    exact follows_finish hh _ _ _

theorem follows_deliverMedia (hh : Healthy env) (missingFetchMedia zeroOutputs promptId : String)
    (hp : p.product = .video missingFetchMedia zeroOutputs) :
    Follows env job.id (At job.id .running last) (fun w => Closed job.id w) (fun _ _ => True)
      (deliveryCalls svc env job p promptId)
      (deliverMedia svc job p missingFetchMedia zeroOutputs promptId) := by
  unfold deliveryCalls deliverMedia
  rw [hp]
  simp only
  split
  · refine (follows_orUnreachable hh (by decide) _).bind ?_
    rintro rows _ rfl
    split
    · exact follows_failJob hh (by decide) _ _ rfl
    · refine (follows_orStorage hh (by decide) fun w => run_uploadBlobs _ 0).last ?_
      rintro keys _ rfl
      exact follows_finish hh _ _ _
  · refine follows_stopped fun w hw => ?_
    obtain ⟨w', hrun, hw'⟩ := exec_setFailed hh hw (by decide) "comfy_error" missingFetchMedia
    refine ⟨.comfyNode missingFetchMedia, w', ?_, fun _ => hw'.closed⟩
    rw [Co.run_bind, run_setFailed, hrun]
    rfl

theorem waitTimeout_error {e : Exc} (h : waitTimeout svc p = .error e) :
    e.isBackendOrStorage = false := by
  unfold waitTimeout at h
  split at h
  · cases h
  split at h
  · cases h
  split at h
  · cases h
  · cases h
    rfl

theorem follows_generate (hh : Healthy env) :
    Follows env job.id (At job.id .queued last) (At job.id .running last) Eq
      (generateCalls svc env last p) (generate svc job p) := by
  unfold generateCalls generate
  refine (follows_uploadInitImage hh (by decide)).bind ?_
  rintro graph _ rfl
  refine (follows_enforceSwap hh (by decide) p.model).bind ?_
  rintro _ _ -
  refine (follows_submit hh (by decide) p.model graph).bind ?_
  rintro promptId _ rfl
  refine (follows_markRunning hh promptId).silent ?_
  rintro _ -
  refine (follows_value (fun w (hw : At job.id .running last w) => hw.open (by decide))
    fun e => waitTimeout_error).bind ?_
  rintro timeoutS _ rfl
  refine (follows_awaitCompletion hh (by decide) promptId timeoutS).bind ?_
  exact fun _ _ _ => follows_pure rfl

theorem follows_raiseFailure (hh : Healthy env) (hst : ¬ st.Terminal) {Q : World → Prop}
    {R : β → α → Prop} (failure : PrepareFailure) :
    Follows env job.id (At job.id st last) Q R (.error .stopped) (raiseFailure job failure) := by
  unfold raiseFailure
  split
  · exact follows_failJob hh hst _ _ rfl
  · refine follows_stopped fun w hw => ?_
    rename_i code message raised
    obtain ⟨w', hrun, hw'⟩ := exec_setFailed hh hw hst code message
    refine ⟨.comfyNode raised, w', ?_, fun _ => hw'.closed⟩
    rw [Co.run_bind, run_setFailed, hrun]
    rfl
  · exact follows_stopped fun w hw => ⟨_, w, rfl, fun _ => hw.open hst⟩

variable (svc) in
/-- The pipeline of a queued job ends as its calls do. -/
theorem follows_runPipeline (hh : Healthy env) :
    Follows env job.id (At job.id .queued last) (fun w => Closed job.id w) (fun _ _ => True)
      (backendCalls svc env job last) (runPipeline svc job) := by
  intro w hw
  unfold runPipeline
  rw [Co.run_bind, run_randbelow]
  refine (?_ : Follows env job.id (At job.id .queued last) _ _ _ (_ : Prog G JobResult)) w hw
  unfold backendCalls
  rcases prepare svc job env.randbelow with failure | p
  · exact follows_raiseFailure hh (by decide) failure
  · refine (follows_generate hh).bind ?_
    rintro promptId _ rfl
    rcases hp : p.product with transparentBackground | ⟨missingFetchMedia, zeroOutputs⟩
    · exact follows_deliverImages hh _ _ hp
    · exact follows_deliverMedia hh _ _ _ hp

end Stages

/-! ## The end of the job -/

section Terminal

variable {env : Env G} {svc : Service G} {job : Job} {w : World}

theorem records_isBackendOrStorage {site : Site} {e : Exc} (h : site.records e = true) :
    e.isBackendOrStorage = true := by
  cases site <;> cases e <;> first | rfl | simp [Site.records] at h

theorem status_resolve (w : World) (f : FutureState) (id : String) :
    (w.resolve f).status id = w.status id := by
  unfold World.resolve
  split <;> rfl

variable (env) in
/-- The two branches that write nothing to the row. -/
theorem run_recordedBranch (e : Exc) (id : String) (w : World) :
    ∃ w', (recordedBranch e : Prog G Unit).run (exec env) w = (.ok (), w') ∧
      w'.status id = w.status id := by
  unfold recordedBranch
  simp only [Co.run_bind, run_recordJobEvent, run_setException]
  exact ⟨_, rfl, status_resolve _ _ _⟩

variable (env) in
theorem run_completedBranch (r : JobResult) (id : String) (w : World) :
    ∃ w', (completedBranch r : Prog G Unit).run (exec env) w = (.ok (), w') ∧
      w'.status id = w.status id := by
  unfold completedBranch
  simp only [Co.run_bind, run_recordJobEvent, run_setResult]
  exact ⟨_, rfl, status_resolve _ _ _⟩

/-- The last branch records every exception, as long as the row is open. -/
theorem run_unexpectedBranch (hh : Healthy env) (h : Open job.id w) (e : Exc) :
    ∃ w', (unexpectedBranch job e : Prog G Unit).run (exec env) w = (.ok (), w') ∧
      Closed job.id w' := by
  obtain ⟨st, hst, hopen⟩ := h
  obtain ⟨w', hrun, hw'⟩ :=
    exec_setFailed hh (⟨hst, rfl⟩ : At job.id st w.lastModelName w) hopen "internal" e.text
  unfold unexpectedBranch
  simp only [Co.run_bind, run_setFailed, hrun, run_recordJobEvent, run_setException]
  refine ⟨_, rfl, .failed, ?_, by decide⟩
  rw [status_resolve]
  exact hw'.row

/-- The branches of `except`, after a pipeline that raised `e`. -/
theorem closed_iff (hh : Healthy env) {last : Option String} {halt : Halt} {e : Exc}
    (hcalls : backendCalls svc env job last = .error halt) (hended : Ended job.id halt e w)
    (hreturns : (if e.isBackendOrStorage then (recordedBranch e).run (exec env) w
      else if e.isException then (unexpectedBranch job e).run (exec env) w
      else (.error e, w)).1 = .ok ()) :
    Closed job.id (if e.isBackendOrStorage then (recordedBranch e).run (exec env) w
      else if e.isException then (unexpectedBranch job e).run (exec env) w
      else (.error e, w)).2 ↔ ¬ RaisesUnrecorded svc env job last := by
  have hexc : e.isException = true := by
    cases e <;> first | rfl | cases hreturns
  have hended := hended hexc
  rcases hback : e.isBackendOrStorage
  · -- the row is open, and the catch-all records the exception
    have hopen : Open job.id w := by
      rcases halt with ⟨site, e'⟩ | _
      · obtain ⟨rfl, hrow⟩ := hended
        rcases hs : site.records e
        · simpa [hs] using hrow
        · rw [records_isBackendOrStorage hs] at hback
          cases hback
      · simpa [hback] using hended
    obtain ⟨w', hrun, hclosed⟩ := run_unexpectedBranch hh hopen e
    simp only [hexc, if_true, hrun, Bool.false_eq_true, if_false]
    refine ⟨fun _ => ?_, fun _ => hclosed⟩
    rintro ⟨site, e', he, hback', hs⟩
    rw [hcalls] at he
    cases he
    obtain ⟨rfl, -⟩ := hended
    rw [hback] at hback'
    cases hback'
  · -- nothing more is written: the row stays as the site left it
    obtain ⟨w', hrun, hrow⟩ := run_recordedBranch env e job.id w
    simp only [if_true, hrun]
    have hkeep : Closed job.id w' ↔ Closed job.id w := by
      unfold Closed
      rw [hrow]
    rw [hkeep]
    rcases halt with ⟨site, e'⟩ | _
    · obtain ⟨rfl, hsite⟩ := hended
      rcases hs : site.records e
      · rw [if_neg (by simp [hs])] at hsite
        refine ⟨fun hc => absurd hc (not_closed_of_open hsite), fun hn => ?_⟩
        exact absurd ⟨site, e, hcalls, hback, hs⟩ hn
      · rw [if_pos hs] at hsite
        refine ⟨fun _ => ?_, fun _ => hsite⟩
        rintro ⟨site', e', he, -, hs'⟩
        rw [hcalls] at he
        cases he
        rw [hs] at hs'
        cases hs'
    · rw [if_pos hback] at hended
      refine ⟨fun _ => ?_, fun _ => hended⟩
      rintro ⟨site, e', he, -⟩
      rw [hcalls] at he
      cases he

/-- Once the worker has processed a queued job, its row is terminal exactly
when no call raised a class that its site leaves unrecorded. -/
theorem a_processed_job_is_terminal (svc : Service G) (env : Env G) (job : Job) (w : World)
    (hstore : Healthy env) (hqueued : w.status job.id = some .queued)
    (hreturns : ((processOne (runPipeline svc job) job).run (exec env) w).1 = .ok ()) :
    Closed job.id ((processOne (runPipeline svc job) job).run (exec env) w).2 ↔
      ¬ RaisesUnrecorded svc env job w.lastModelName := by
  have hfollows := follows_runPipeline svc hstore w ⟨hqueued, rfl⟩
  rw [run_processOne] at hreturns ⊢
  rcases hrun : (runPipeline svc job).run (exec env) w with ⟨e | result, w'⟩ <;>
    rw [hrun] at hfollows hreturns
  · rcases hcalls : backendCalls svc env job w.lastModelName with halt | keys <;>
      rw [hcalls] at hfollows
    · exact closed_iff hstore hcalls hfollows hreturns
    · exact hfollows.elim
  · rcases hcalls : backendCalls svc env job w.lastModelName with halt | keys <;>
      rw [hcalls] at hfollows
    · exact hfollows.elim
    · obtain ⟨-, st, hst, hterm⟩ := hfollows
      obtain ⟨w'', hrun'', hrow⟩ := run_completedBranch env result job.id w'
      simp only [hrun'']
      refine ⟨fun _ => ?_, fun _ => ⟨st, hrow.trans hst, hterm⟩⟩
      rintro ⟨site, e, he, -⟩
      rw [hcalls] at he
      cases he

end Terminal

/-- A willing backend meets the condition. -/
theorem a_willing_backend_ends_the_job :
    Closed "gen_1" ((processOne (runPipeline smallService (smallJob "gen_1" "sdxl"))
        (smallJob "gen_1" "sdxl")).run (exec (smallEnv willing))
          (smallWorld [smallJob "gen_1" "sdxl"])).2 ↔
      ¬ RaisesUnrecorded smallService (smallEnv willing) (smallJob "gen_1" "sdxl") none :=
  a_processed_job_is_terminal smallService (smallEnv willing) (smallJob "gen_1" "sdxl")
    (smallWorld [smallJob "gen_1" "sdxl"]) (fun _ => rfl) (by decide) (by decide)

/-- An execution error that the wait reports leaves the row running. -/
theorem an_execution_error_leaves_the_job_running :
    let job := smallJob "gen_1" "sdxl"
    let env := smallEnv (willingUntilWait (.comfyNode "execution error"))
    let after := (processOne (runPipeline smallService job) job).run (exec env) (smallWorld [job])
    Healthy env ∧ (smallWorld [job]).status job.id = some .queued ∧ after.1 = .ok () ∧
      after.2.status job.id = some .running ∧ ¬ Closed job.id after.2 := by
  intro job env after
  have hrow : after.2.status job.id = some .running := by decide
  refine ⟨fun _ => rfl, by decide, by decide, hrow, ?_⟩
  exact not_closed_of_open ⟨.running, hrow, by decide⟩

end image_gen.worker_terminal

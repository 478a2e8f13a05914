-- A terminal webhook job has a channel: the client got the response, or the
-- dispatcher has the row. Three places leave a row with neither: a handler that
-- ends without its background task, a crash between the terminal write and the
-- flag, and a job that is finished after its handler is gone.
import ImageGen.Delivery

namespace image_gen.handover

open image_gen.coroutine image_gen.runs image_gen.job_store image_gen.delivery

/-! ## The condition -/

/-- A job that asks for a webhook has been handed over to the dispatcher. -/
def HandedOver (j : Job) : Prop := j.webhookUrl ≠ none → j.webhookHandover = true

instance (j : Job) : Decidable (HandedOver j) := by unfold HandedOver; infer_instance

/-- The handler ends without its background task only before the job is
terminal, and the worker finishes no job whose handler is gone, unless the job
is handed over. -/
def HandsOver (c : Cell) : Act → Prop
  | .move .receive => c.future = some false → c.job.status.Terminal → HandedOver c.job
  | .move .handlerEnds => c.job.status.Terminal → HandedOver c.job
  | .move (.work (.setRunning _ _) _) => True
  | .move (.work _ _) => c.handler.pc = .gone → ¬ c.job.status.Terminal → HandedOver c.job
  | _ => True

/-- The process does not die between the terminal write and the flag. -/
def MayCrash (c : Cell) : Prop := c.job.status.Terminal → HandedOver c.job

/-! ## The invariant -/

structure Served (c : Cell) : Prop where
  async : c.handler.mode = .async → c.job.mode = .async
  flipped : c.handler.mode = .sync → c.job.mode = .async → c.job.webhookHandover = true
  gone : c.handler.pc = .gone → c.job.status.Terminal → c.recovery ≠ .marking → HandedOver c.job

theorem served_created (r : requests.Submission) (binary : Bool) (id : String) (now : Nat) :
    Served (created r binary id now) where
  async h := h
  flipped hs ha := by
    rw [show (created r binary id now).job.mode = r.mode from rfl] at ha
    rw [show (created r binary id now).handler.mode = r.mode from rfl, ha] at hs
    cases hs
  gone h := by cases h

theorem served_crash {c : Cell} (hc : Served c) (hok : MayCrash c) : Served (crash c) where
  async := hc.async
  flipped := hc.flipped
  gone _ hterm _ := hok hterm

/-- Only the row, the handler and recovery matter. -/
theorem served_of_same {c c' : Cell} (hc : Served c) (hrow : SameRow c.job c'.job)
    (hhandler : c'.handler = c.handler) (hrecovery : c'.recovery = c.recovery) : Served c' := by
  obtain ⟨g1, g2, g3⟩ := hc
  refine ⟨fun h => ?_, fun hs ha => ?_, fun hgone hterm hr => ?_⟩
  · exact hrow.mode.trans (g1 (hhandler ▸ h))
  · exact hrow.handover.trans (g2 (hhandler ▸ hs) (hrow.mode ▸ ha))
  · intro hurl
    exact hrow.handover.trans
      (g3 (hhandler ▸ hgone) (hrow.status ▸ hterm) (hrecovery ▸ hr) (hrow.url ▸ hurl))

theorem served_cancel {c : Cell} {pc : HandlerPc} (hc : Served c)
    (h : pc = .gone → c.job.status.Terminal → HandedOver c.job) :
    Served (c.cancelWatcher.setHandlerPc pc) := by
  obtain ⟨g1, g2, g3⟩ := hc
  unfold Cell.cancelWatcher
  split <;> exact ⟨g1, g2, fun hgone hterm _ => h hgone hterm⟩

/-- A handler that does its background task hands the row over, whatever the
watcher has made of it. -/
theorem served_markDelivered {c : Cell} (now : Nat) (hc : Served c) :
    Served ((c.setJob (markDelivered c.handler.mode now)).setHandlerPc .gone) := by
  obtain ⟨g1, g2, g3⟩ := hc
  have hspec := markDelivered_spec c.handler.mode now c.job
  have hmode : c.job.mode = c.handler.mode ∨ c.job.webhookHandover = true := by
    rcases hm : c.handler.mode with _ | _
    · rcases hj : c.job.mode with _ | _
      · exact Or.inl rfl
      · exact Or.inr (g2 hm hj)
    · exact Or.inl (g1 hm)
  refine ⟨fun h => hspec.mode.trans (g1 h), fun hs ha => ?_, fun _ _ _ _ => ?_⟩
  · exact hspec.kept_handover (g2 hs (hspec.mode ▸ ha))
  · rcases hmode with hmode | hhand
    · exact markDelivered_handover now hmode
    · exact hspec.kept_handover hhand

theorem not_terminal_setRunning {j : Job} (promptId clientId : String) (now : Nat)
    (h : ¬ j.status.Terminal) :
    ¬ ((WorkerWrite.setRunning promptId clientId).apply now j).status.Terminal := by
  simp only [WorkerWrite.apply, transition]
  split
  · exact not_terminal_running
  · exact h

theorem served_work {c : Cell} {w : WorkerWrite} {now : Nat} (hc : Served c)
    (hok : HandsOver c (.move (.work w now))) : Served (c.setJob fun j => w.apply now j) := by
  obtain ⟨g1, g2, g3⟩ := hc
  have hflags := sameFlags_work w now c.job
  refine ⟨fun h => hflags.mode.trans (g1 h),
    fun hs ha => hflags.handover.trans (g2 hs (hflags.mode ▸ ha)), fun hgone hterm hr hurl' => ?_⟩
  refine hflags.handover.trans ?_
  have hurl : c.job.webhookUrl ≠ none := hflags.url ▸ hurl'
  by_cases hold : c.job.status.Terminal
  · exact g3 hgone hold hr hurl
  · cases w with
    | setRunning promptId clientId =>
      exact absurd hterm (not_terminal_setRunning promptId clientId now hold)
    | setCompleted outputKeys result => exact hok hgone hold hurl
    | setFailed errorCode errorMessage => exact hok hgone hold hurl

theorem served_fetch {c : Cell} (now : Nat) (hc : Served c) :
    Served (c.setJob (Job.setFetched now)) := by
  have hrow : SameRow c.job (c.job.setFetched now) := by
    unfold Job.setFetched
    split <;> exact ⟨rfl, rfl, rfl, rfl, rfl, rfl⟩
  exact served_of_same hc hrow rfl rfl

theorem served_recover {c c' : Cell} {now : Nat} (hc : Served c) (h : recover now c = some c') :
    Served c' := by
  obtain ⟨g1, g2, g3⟩ := hc
  unfold recover at h
  rcases hr : c.recovery <;> rw [hr] at h <;> dsimp only at h
  · cases h
  · split at h <;> cases h
    · exact ⟨g1, g2, fun _ _ hmarking => absurd rfl hmarking⟩
    · exact ⟨g1, g2, g3⟩
  · cases h
    exact ⟨g1, fun _ _ => rfl, fun _ _ _ _ => rfl⟩
  · cases h
    exact ⟨g1, g2, fun hgone hterm _ => g3 hgone hterm (by simp [hr])⟩
  · cases h

theorem served_move {c c' : Cell} {m : Move} (hc : Served c) (hok : HandsOver c (.move m))
    (h : move c m = some c') : Served c' := by
  cases m with
  | enqueue =>
    simp only [move, Option.ite_none_right_eq_some] at h
    obtain ⟨-, h⟩ := h
    split at h <;> cases h <;> exact ⟨hc.async, hc.flipped, fun hgone => by cases hgone⟩
  | receive =>
    simp only [move, Option.ite_none_right_eq_some] at h
    obtain ⟨-, h⟩ := h
    split at h
    · cases h
      exact served_cancel hc fun hgone => by cases hgone
    · rename_i hf
      cases h
      exact served_cancel hc fun _ => hok hf
    · cases h
  | handlerEnds =>
    simp only [move, Option.ite_none_left_eq_some, Option.some.injEq] at h
    obtain ⟨-, rfl⟩ := h
    exact served_cancel hc fun _ => hok
  | setFetched now =>
    simp only [move, Option.ite_none_right_eq_some, Option.some.injEq] at h
    obtain ⟨-, rfl⟩ := h
    exact served_fetch now hc
  | fetch now =>
    simp only [move, Option.ite_none_right_eq_some, Option.some.injEq] at h
    obtain ⟨-, rfl⟩ := h
    exact served_fetch now hc
  | respond =>
    simp only [move, Option.ite_none_right_eq_some, Option.some.injEq] at h
    obtain ⟨-, rfl⟩ := h
    exact ⟨hc.async, hc.flipped, fun hgone => by cases hgone⟩
  | markDelivered now =>
    simp only [move, Option.ite_none_right_eq_some, Option.some.injEq] at h
    obtain ⟨-, rfl⟩ := h
    exact served_markDelivered now hc
  | watcherCommits now =>
    simp only [move, Option.ite_none_right_eq_some, Option.some.injEq] at h
    obtain ⟨-, rfl⟩ := h
    exact ⟨fun _ => rfl, fun _ _ => rfl, fun _ _ _ _ => rfl⟩
  | work w now =>
    simp only [move, Option.ite_none_right_eq_some, Option.some.injEq] at h
    obtain ⟨-, rfl⟩ := h
    exact served_work hc hok
  | scan =>
    simp only [move, Option.ite_none_right_eq_some, Option.some.injEq] at h
    obtain ⟨hr, rfl⟩ := h
    exact ⟨hc.async, hc.flipped, fun hgone hterm _ => hc.gone hgone hterm (by simp [hr])⟩
  | recover now =>
    simp only [move, Option.ite_none_right_eq_some] at h
    exact served_recover hc h.2
  | _ =>
    -- the watcher before its write, and the queue of the worker
    simp only [move, Option.ite_none_right_eq_some, Option.some.injEq] at h
    obtain ⟨-, rfl⟩ := h
    exact ⟨hc.async, hc.flipped, hc.gone⟩

theorem served_next {sign : dispatcher.Signer} {c c' : Cell} {a : Act} (hc : Served c)
    (hok : HandsOver c a) (h : next sign c a = some c') : Served c' := by
  cases a with
  | move m => exact served_move hc hok h
  | tick =>
    simp only [next, Option.ite_none_right_eq_some, Option.some.injEq] at h
    obtain ⟨-, rfl⟩ := h
    exact ⟨hc.async, hc.flipped, hc.gone⟩
  | dispatch inp =>
    simp only [next] at h
    split at h
    · rename_i op k hd
      simp only [Option.ite_none_right_eq_some, Option.some.injEq] at h
      obtain ⟨-, rfl⟩ := h
      exact served_of_same hc (sameRow_exec inp op c.rows) rfl rfl
    · cases h
  | dispatchRaises message =>
    simp only [next] at h
    split at h <;> cases h
    exact ⟨hc.async, hc.flipped, hc.gone⟩

/-! ## No terminal job without a channel -/

/-- In every run whose steps hand over, a terminal webhook job whose handler is
gone and that recovery has dealt with has a channel. -/
theorem a_terminal_job_has_a_channel {sign : dispatcher.Signer} {labels : List Label}
    {cells : List Cell} (hok : AllSteps (step sign) (Guarded HandsOver MayCrash) [] labels)
    (hrun : runs.exec (step sign) [] labels = some cells) :
    ∀ c ∈ cells, c.job.webhookUrl ≠ none → c.job.status.Terminal → c.handler.pc = .gone →
      c.recovery = .done → c.job.responseDelivered = true ∨ c.job.webhookHandover = true := by
  have hall : ∀ c ∈ cells, Served c :=
    cells_invariant served_created (fun _ _ _ => served_next) (fun _ => served_crash) hok hrun
  intro c hc hurl hterm hgone hdone
  exact Or.inr ((hall c hc).gone hgone hterm (by simp [hdone]) hurl)

/-- The process dies under a running job, and recovery hands the row over. -/
def diesRunning : List Label :=
  [.create (hookedSubmission .sync) false "gen_1" 0, .at 0 (.move .enqueue),
    .at 0 (.move .dequeue), .at 0 (.move (.work (.setRunning "p" "c") 1)), .crash,
    .at 0 (.move .scan), .at 0 (.move (.recover 2)), .at 0 (.move (.recover 3))]

theorem a_crash_under_a_running_job_is_recovered :
    let run := runs.exec (step smallSign) [] diesRunning
    (run.getD []).length = 1 ∧ ∀ c ∈ run.getD [], c.job.webhookUrl ≠ none →
      c.job.status.Terminal → c.handler.pc = .gone → c.recovery = .done →
        c.job.responseDelivered = true ∨ c.job.webhookHandover = true := by
  intro run
  have hrun : run = some (run.getD []) := by rfl
  have hok : AllSteps (step smallSign) (Guarded HandsOver MayCrash) [] diesRunning := by
    refine ⟨trivial, ?_⟩
    rintro _ ⟨⟩
    refine ⟨fun _ _ => trivial, ?_⟩
    rintro _ ⟨⟩
    refine ⟨fun _ _ => trivial, ?_⟩
    rintro _ ⟨⟩
    refine ⟨fun _ _ => trivial, ?_⟩
    rintro _ ⟨⟩
    refine ⟨fun c hc => ?_, ?_⟩
    · rw [List.mem_singleton.mp hc]
      unfold MayCrash
      decide
    rintro _ ⟨⟩
    refine ⟨fun _ _ => trivial, ?_⟩
    rintro _ ⟨⟩
    refine ⟨fun _ _ => trivial, ?_⟩
    rintro _ ⟨⟩
    exact ⟨fun _ _ => trivial, fun _ _ => trivial⟩
  exact ⟨by rfl, a_terminal_job_has_a_channel hok hrun⟩

/-- A sync job whose prompt fails: the handler returns the error to the client
and writes no flag. -/
def failsInSync : List Label :=
  [.create (hookedSubmission .sync) false "gen_1" 0, .at 0 (.move .enqueue),
    .at 0 (.move .dequeue), .at 0 (.move (.work (.setRunning "p" "c") 1)),
    .at 0 (.move (.work (.setFailed "comfy_error" "node") 2)), .at 0 (.move (.resolve false)),
    .at 0 (.move .receive)]

theorem a_failed_sync_job_has_no_channel :
    ∃ cells c, runs.exec (step smallSign) [] failsInSync = some cells ∧ c ∈ cells ∧
      c.job.webhookUrl ≠ none ∧ c.job.status.Terminal ∧ c.handler.pc = .gone ∧
      c.recovery = .done ∧ ¬ (c.job.responseDelivered = true ∨ c.job.webhookHandover = true) :=
  ⟨_, _, rfl, List.mem_singleton.mpr rfl, by decide, by decide, by decide, by decide, by decide⟩

end image_gen.handover

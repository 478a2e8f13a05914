-- The model swap rule over whole runs of a worker (architecture 8, "model-swap
-- cost"). The worker knows the model of the last job that completed. What
-- stands on the GPU is the model of the last submission, so the two differ
-- after a job that submitted and then failed.
import ImageGen.WorkerLoop

namespace image_gen.model_swap

open image_gen.coroutine image_gen.json image_gen.job_store image_gen.requests image_gen.worker

variable {G α β : Type}

/-! ## The law -/

def NoSubmission (events : List GpuEvent) : Prop := ∀ m l, GpuEvent.submitted m l ∉ events

/-- The model of the last submission, and what happened after it. -/
def previous (events : List GpuEvent) : Option (String × List GpuEvent) :=
  events.foldl (fun acc e =>
    match e with
    | .submitted model _ => some (model, [])
    | e => acc.map fun p => (p.1, p.2 ++ [e])) none

/-- The model that stands on the GPU: the last one submitted, unless an unload
was verified since. -/
def resident (events : List GpuEvent) : Option String :=
  match previous events with
  | none => none
  | some (model, since) => if .unloaded true ∈ since then none else some model

/-- A submission for `model` after `before` obeys the swap rule. -/
def Swapped (before : List GpuEvent) (model : String) : Prop :=
  ∀ model' since, previous before = some (model', since) → model' ≠ model →
    (∃ verified, .unloaded verified ∈ since) ∧
      (.unloaded true ∈ since ∨ .headroom model true ∈ since)

/-- The worker's own model name asks for an unload, or nothing else stands on
the GPU. -/
def Tracked (before : List GpuEvent) (model : String) (lastModelName : Option String) : Prop :=
  (lastModelName ≠ none ∧ lastModelName ≠ some model) ∨
    resident before = none ∨ resident before = some model

/-- `φ` holds of each submission and the events before it. -/
def AtSubmissions (φ : List GpuEvent → String → Option String → Prop) :
    List GpuEvent → List GpuEvent → Prop
  | _, [] => True
  | before, e :: rest =>
    (match e with
      | .submitted model lastModelName => φ before model lastModelName
      | _ => True) ∧ AtSubmissions φ (before ++ [e]) rest

/-- Each submission of the run obeys the swap rule. -/
def SwapLaw (events : List GpuEvent) : Prop :=
  AtSubmissions (fun before model _ => Swapped before model) [] events

/-! ## Events -/

theorem NoSubmission.tail {e : GpuEvent} {more : List GpuEvent} (h : NoSubmission (e :: more)) :
    NoSubmission more := fun m l hm => h m l (List.mem_cons_of_mem e hm)

theorem previous_append_quiet (events : List GpuEvent) {more : List GpuEvent}
    (h : NoSubmission more) :
    previous (events ++ more) = (previous events).map fun p => (p.1, p.2 ++ more) := by
  induction more generalizing events with
  | nil => simp
  | cons e more ih =>
    have hone : previous (events ++ [e]) = (previous events).map fun p => (p.1, p.2 ++ [e]) := by
      unfold previous
      rw [List.foldl_append]
      cases e with
      | submitted m l => exact absurd List.mem_cons_self (h m l)
      | _ => rfl
    rw [← List.singleton_append, ← List.append_assoc, ih _ h.tail, hone,
      Option.map_map]
    congr 1
    funext p
    simp

theorem previous_append_submitted (events : List GpuEvent) (model : String)
    (l : Option String) {more : List GpuEvent} (h : NoSubmission more) :
    previous (events ++ .submitted model l :: more) = some (model, more) := by
  have hone : previous (events ++ [.submitted model l]) = some (model, []) := by
    unfold previous
    rw [List.foldl_append]
    rfl
  rw [← List.singleton_append, ← List.append_assoc, previous_append_quiet _ h, hone]
  simp

variable {φ ψ : List GpuEvent → String → Option String → Prop}

theorem atSubmissions_append (before xs ys : List GpuEvent) :
    AtSubmissions φ before (xs ++ ys) ↔
      AtSubmissions φ before xs ∧ AtSubmissions φ (before ++ xs) ys := by
  induction xs generalizing before with
  | nil => simp [AtSubmissions]
  | cons e xs ih =>
    simp only [List.cons_append, AtSubmissions, ih, List.append_assoc, List.nil_append]
    exact and_assoc.symm

theorem atSubmissions_quiet (before : List GpuEvent) {more : List GpuEvent}
    (h : NoSubmission more) : AtSubmissions φ before more := by
  induction more generalizing before with
  | nil => trivial
  | cons e more ih =>
    refine ⟨?_, ih _ h.tail⟩
    cases e with
    | submitted m l => exact absurd List.mem_cons_self (h m l)
    | _ => trivial

theorem atSubmissions_congr {before events : List GpuEvent}
    (h : AtSubmissions (fun b m l => φ b m l ↔ ψ b m l) before events) :
    AtSubmissions φ before events ↔ AtSubmissions ψ before events := by
  induction events generalizing before with
  | nil => exact Iff.rfl
  | cons e events ih =>
    obtain ⟨he, hrest⟩ := h
    cases e with
    | submitted m l => exact and_congr he (ih hrest)
    | _ => exact and_congr Iff.rfl (ih hrest)

/-! ## One job -/

/-- What the swap check of one job shows, when the worker's name is `last` and
the job is for `model`. Without a swap it shows nothing. -/
structure SwapChecked (last : Option String) (model : String) (events : List GpuEvent) : Prop where
  noSubmission : NoSubmission events
  unneeded : last = none ∨ last = some model → events = []
  own_headroom : ∀ m ok, .headroom m ok ∈ events → m = model

/-- The check let the job submit. -/
structure SwapPassed (last : Option String) (model : String) (events : List GpuEvent) : Prop
    extends SwapChecked last model events where
  passed : ¬ (last = none ∨ last = some model) →
    (∃ verified, .unloaded verified ∈ events) ∧
      (.unloaded true ∈ events ∨ .headroom model true ∈ events)

/-- The job has not submitted. -/
def Idle (events : List GpuEvent) (last : Option String) (model : String) (w : World) : Prop :=
  w.lastModelName = last ∧ ∃ swap, w.gpu = events ++ swap ∧ SwapChecked last model swap

def MaySubmit (events : List GpuEvent) (last : Option String) (model : String) (w : World) :
    Prop :=
  w.lastModelName = last ∧ ∃ swap, w.gpu = events ++ swap ∧ SwapPassed last model swap

/-- The job has submitted. After that only unloads show. -/
def Submitted (events : List GpuEvent) (last : Option String) (model : String) (w : World) :
    Prop :=
  ∃ swap rest, w.gpu = events ++ (swap ++ .submitted model last :: rest) ∧
    SwapPassed last model swap ∧ ∀ e ∈ rest, ∃ verified, e = .unloaded verified

/-- What a job makes of the events before it. -/
def Handled (events : List GpuEvent) (last : Option String) (w : World) : Prop :=
  ∃ model, Idle events last model w ∨ Submitted events last model w

theorem MaySubmit.idle {events : List GpuEvent} {last : Option String} {model : String} {w : World}
    (h : MaySubmit events last model w) : Idle events last model w := by
  obtain ⟨hl, swap, hg, hs⟩ := h
  exact ⟨hl, swap, hg, hs.toSwapChecked⟩

/-! ## The operations that show nothing -/

/-- The operation neither shows on the GPU nor changes the worker's name. -/
def Silent : Op G → Prop
  | .call (.submit _ _) => False
  | .call .unloadModels => False
  | .call .free => False
  | .setLastModelName _ => False
  | .headroomChecked _ _ => False
  | _ => True

/-- What a job does after its submission. -/
def AfterSubmit (op : Op G) : Prop :=
  op = .call .free ∨ (∃ name, op = .setLastModelName name) ∨ Silent op

theorem execStore_gpu (env : Env G) (w : World) (write : Store → Nat → Except StoreError Store) :
    (execStore env w write).2.gpu = w.gpu ∧
      (execStore env w write).2.lastModelName = w.lastModelName := by
  unfold execStore
  dsimp only
  split
  · exact ⟨rfl, rfl⟩
  split
  · exact ⟨rfl, rfl⟩
  split <;> exact ⟨rfl, rfl⟩

theorem exec_silent (env : Env G) {op : Op G} (h : Silent op) (w : World) :
    (exec env op w).2.gpu = w.gpu ∧ (exec env op w).2.lastModelName = w.lastModelName := by
  cases op with
  | call c =>
    rcases hc : env.backend c with e | a
    · rw [exec_call_error hc]
      exact ⟨rfl, rfl⟩
    · rw [exec_call_ok hc]
      cases c <;> first | exact h.elim | exact ⟨rfl, rfl⟩
  | setRunning id promptId clientId => exact execStore_gpu env w _
  | setCompleted id outputKeys result => exact execStore_gpu env w _
  | setFailed id code message => exact execStore_gpu env w _
  | setLastModelName name => exact h.elim
  | headroomChecked model ok => exact h.elim
  | setResult r => unfold exec World.resolve; dsimp only; split <;> exact ⟨rfl, rfl⟩
  | setException e => unfold exec World.resolve; dsimp only; split <;> exact ⟨rfl, rfl⟩
  | _ => exact ⟨rfl, rfl⟩

theorem silent_randbelow : (randbelow : Prog G Nat).All Silent := (Co.all_call _).mpr trivial

theorem silent_failJob (job : Job) (code message : String) (e : Exc) :
    (failJob job code message e : Prog G α).All Silent := by
  unfold failJob
  exact Co.all_bind ((Co.all_call _).mpr trivial) fun _ =>
    Co.all_bind ((Co.all_call _).mpr trivial) fun _ => trivial

section Silence

variable {svc : Service G} {job : Job} {p : Prepared G}

theorem silent_raiseFailure (failure : PrepareFailure) :
    (raiseFailure job failure : Prog G α).All Silent := by
  unfold raiseFailure
  split
  · exact silent_failJob _ _ _ _
  · exact Co.all_bind ((Co.all_call _).mpr trivial) fun _ => trivial
  · trivial

theorem silent_uploadInitImage : (uploadInitImage svc job p).All Silent := by
  unfold uploadInitImage uploadImage
  split
  · trivial
  refine Co.all_bind (Co.all_tryCatch ((Co.all_call _).mpr trivial) ?_) fun _ => Co.all_ofExcept _
  intro e
  split
  · exact silent_failJob _ _ _ _
  · trivial

theorem silent_orUnreachable {q : Prog G α} (h : q.All Silent) :
    (orUnreachable job q).All Silent := by
  refine Co.all_tryCatch h fun e => ?_
  split
  · exact silent_failJob _ _ _ _
  · trivial

theorem silent_orStorage {q : Prog G α} (h : q.All Silent) : (orStorage job q).All Silent := by
  refine Co.all_tryCatch h fun e => ?_
  split
  · exact silent_failJob _ _ _ _
  · trivial

theorem silent_safeCancel (promptId : String) : (safeCancel promptId : Prog G Unit).All Silent := by
  refine Co.all_tryCatch ((Co.all_call _).mpr trivial) fun e => ?_
  split <;> trivial

theorem silent_uploadPngs (images : List Bytes) (idx : Nat) :
    (uploadPngs job idx images : Prog G _).All Silent := by
  induction images generalizing idx with
  | nil => trivial
  | cons png rest ih =>
    exact Co.all_bind ((Co.all_call _).mpr trivial) fun _ =>
      Co.all_bind (ih (idx + 1)) fun _ => trivial

theorem silent_uploadBlobs (blobs : List (Bytes × String)) (idx : Nat) :
    (uploadBlobs svc job idx blobs).All Silent := by
  induction blobs generalizing idx with
  | nil => trivial
  | cons row rest ih =>
    refine Co.all_bind ?_ fun _ => Co.all_bind (ih (idx + 1)) fun _ => trivial
    unfold uploadBlob
    split <;> exact (Co.all_call _).mpr trivial

end Silence

/-! ## What a job shows -/

section Job

variable {env : Env G} {svc : Service G} {job : Job} {p : Prepared G} {events : List GpuEvent}
  {last : Option String} {model : String} {w : World}

def Start (events : List GpuEvent) (last : Option String) (w : World) : Prop :=
  w.lastModelName = last ∧ w.gpu = events

theorem start_of_silent {q : Prog G α} (hq : q.All Silent) (hw : Start events last w) :
    q.Ends (exec env) (fun _ => Start events last) (Start events last) w := by
  refine Co.ends_of_all (fun op s hop hs => ?_) hq hw
  obtain ⟨hgpu, hlast⟩ := exec_silent env hop s
  exact ⟨hlast.trans hs.1, hgpu.trans hs.2⟩

theorem handled_of_gpu {w' : World} (hgpu : w'.gpu = w.gpu)
    (hlast : w'.lastModelName = w.lastModelName) (h : Handled events last w) :
    Handled events last w' := by
  obtain ⟨model, ⟨hl, swap, hg, hs⟩ | ⟨swap, rest, hg, hs, hrest⟩⟩ := h
  · exact ⟨model, .inl ⟨hlast.trans hl, swap, hgpu.trans hg, hs⟩⟩
  · exact ⟨model, .inr ⟨swap, rest, hgpu.trans hg, hs, hrest⟩⟩

theorem handled_of_silent {q : Prog G α} (hq : q.All Silent) (hw : Handled events last w) :
    Handled events last (q.run (exec env) w).2 := by
  refine Co.run_of_all (fun op s hop hs => ?_) hq hw
  obtain ⟨hgpu, hlast⟩ := exec_silent env hop s
  exact handled_of_gpu hgpu hlast hs

theorem swapChecked_nil (last : Option String) (model : String) :
    SwapChecked last model [] where
  noSubmission := fun _ _ h => by cases h
  unneeded := fun _ => rfl
  own_headroom := fun _ _ h => by cases h

theorem Start.idle (h : Start events last w) : Idle events last model w :=
  ⟨h.1, [], by rw [h.2, List.append_nil], swapChecked_nil last model⟩

theorem Start.maySubmit (h : Start events last w) (hn : last = none ∨ last = some model) :
    MaySubmit events last model w :=
  ⟨h.1, [], by rw [h.2, List.append_nil], swapChecked_nil last model, fun hc => absurd hn hc⟩

/-- The check logs what it finds, and passes only with a log line that says so. -/
def HeadroomShown (events : List GpuEvent) (last : Option String) (name : String) (ok : Bool)
    (w : World) : Prop :=
  ∃ shown, Start (events ++ shown) last w ∧ (∀ e ∈ shown, ∃ b, e = .headroom name b) ∧
    (ok = true → .headroom name true ∈ shown)

theorem headroomShown_false (name : String) (h : Start events last w) :
    HeadroomShown events last name false w :=
  ⟨[], by simpa using h, fun _ hm => (by cases hm), fun hf => (by cases hf)⟩

theorem ends_headroomChecked (name : String) (ok : Bool) {B : World → Prop}
    (h : Start events last w) :
    (headroomChecked name ok : Prog G Unit).Ends (exec env)
      (fun _ => HeadroomShown events last name ok) B w := by
  unfold Co.Ends
  rw [run_headroomChecked]
  refine ⟨[.headroom name ok], ⟨h.1, by rw [h.2]⟩, ?_, ?_⟩
  · intro e he
    exact ⟨ok, List.mem_singleton.mp he⟩
  · rintro rfl
    exact List.mem_singleton_self _

theorem ends_hasSwapHeadroom (m : ModelConfig) (hw : Start events last w) :
    (hasSwapHeadroom svc m).Ends (exec env) (fun ok => HeadroomShown events last m.name ok)
      (Start events last) w := by
  unfold hasSwapHeadroom
  split
  · have hhealth : (exceptException (some <$> ask (.call .health)) fun _ => pure none :
        Prog G (Option (List (String × Json)))).All Silent := by
      refine Co.all_tryCatch (Co.all_bind ((Co.all_call _).mpr trivial) fun _ => trivial) fun e => ?_
      split <;> trivial
    refine Co.ends_bind (start_of_silent hhealth hw) fun snapshot w' hw' => ?_
    rcases snapshot.bind (headroomOf svc m) with _ | ok
    · exact Co.ends_pure (headroomShown_false m.name hw')
    · exact Co.ends_bind (ends_headroomChecked m.name ok hw') fun _ w'' hw'' => Co.ends_pure hw''
  · exact Co.ends_pure (headroomShown_false m.name hw)

/-- An unload that was requested, and what the headroom check showed after it. -/
theorem swapChecked_of_unloaded (verified : Bool) {shown : List GpuEvent}
    (hn : ¬ (last = none ∨ last = some model)) (hshown : ∀ e ∈ shown, ∃ b, e = .headroom model b) :
    SwapChecked last model (.unloaded verified :: shown) where
  noSubmission m l h := by
    rcases List.mem_cons.mp h with h | h
    · cases h
    · obtain ⟨b, hb⟩ := hshown _ h
      cases hb
  unneeded h := absurd h hn
  own_headroom m ok h := by
    rcases List.mem_cons.mp h with h | h
    · cases h
    · obtain ⟨b, hb⟩ := hshown _ h
      cases hb
      rfl

theorem swapPassed_of_unloaded {verified : Bool} {shown : List GpuEvent}
    (hn : ¬ (last = none ∨ last = some model)) (hshown : ∀ e ∈ shown, ∃ b, e = .headroom model b)
    (hpass : verified = true ∨ .headroom model true ∈ shown) :
    SwapPassed last model (.unloaded verified :: shown) := by
  refine ⟨swapChecked_of_unloaded verified hn hshown, fun _ => ?_⟩
  refine ⟨⟨verified, List.mem_cons_self⟩, ?_⟩
  rcases hpass with rfl | h
  · exact .inl List.mem_cons_self
  · exact .inr (List.mem_cons_of_mem _ h)

theorem idle_of_start {shown : List GpuEvent} (h : Start (events ++ shown) last w)
    (hs : SwapChecked last model shown) : Idle events last model w := ⟨h.1, shown, h.2, hs⟩

theorem ends_unloadModels (hw : Start events last w) :
    (ask (.call .unloadModels) : Prog G Bool).Ends (exec env)
      (fun verified => Start (events ++ [.unloaded verified]) last) (Start events last) w := by
  unfold Co.Ends
  rw [run_ask]
  rcases hc : env.backend .unloadModels with e | verified
  · rw [exec_call_error hc]
    exact hw
  · rw [exec_call_ok hc]
    exact ⟨hw.1, by simp [World.observe, hw.2]⟩

theorem ends_failJob {A : α → World → Prop} (code message : String) (e : Exc)
    (hw : Start events last w) :
    (failJob job code message e : Prog G α).Ends (exec env) A (Start events last) w := by
  unfold failJob
  exact Co.ends_bind (start_of_silent ((Co.all_call _).mpr trivial) hw) fun _ _ h =>
    Co.ends_bind (start_of_silent ((Co.all_call _).mpr trivial) h) fun _ _ h' => Co.ends_throw h'

theorem ends_enforceSwap (m : ModelConfig) (hw : Start events last w) :
    (enforceSwap svc job m).Ends (exec env) (fun _ => MaySubmit events last m.name)
      (Idle events last m.name) w := by
  unfold enforceSwap
  have hlast : (lastModelName : Prog G (Option String)).Ends (exec env)
      (fun l w' => l = last ∧ Start events last w') (Idle events last m.name) w := by
    unfold Co.Ends
    rw [run_lastModelName]
    exact ⟨hw.1, hw⟩
  refine Co.ends_bind hlast fun l w1 ⟨hl, hw1⟩ => ?_
  subst hl
  rcases l with _ | name
  · exact Co.ends_pure (hw1.maySubmit (.inl rfl))
  simp only
  split
  · rename_i hname
    exact Co.ends_pure (hw1.maySubmit (.inr (congrArg some hname)))
  rename_i hname
  have hn : ¬ (some name = none ∨ some name = some m.name) := by simpa using hname
  refine Co.ends_bind ((ends_unloadModels hw1).mono (fun _ _ h => h) fun _ h => h.idle)
    fun verified w2 hw2 => ?_
  split
  · rename_i hverified
    exact Co.ends_pure ⟨hw2.1, [.unloaded verified], hw2.2,
      swapPassed_of_unloaded hn (fun _ h => by cases h) (.inl hverified)⟩
  have hidle : ∀ w', Start (events ++ [.unloaded verified]) (some name) w' →
      Idle events (some name) m.name w' := fun w' h =>
    idle_of_start h (swapChecked_of_unloaded verified hn fun _ h => by cases h)
  refine Co.ends_bind ((ends_hasSwapHeadroom m hw2).mono (fun _ _ h => h) hidle)
    fun ok w3 ⟨shown, hw3, hshown, hok⟩ => ?_
  rw [List.append_assoc] at hw3
  split
  · rename_i htrue
    exact Co.ends_pure ⟨hw3.1, _, hw3.2, swapPassed_of_unloaded hn hshown (.inr (hok htrue))⟩
  · exact (ends_failJob _ _ _ hw3).mono (fun _ _ h => h) fun _ h =>
      idle_of_start h (swapChecked_of_unloaded verified hn hshown)

theorem idle_of_silent {q : Prog G α} (hq : q.All Silent) (hw : Idle events last model w) :
    q.Ends (exec env) (fun _ => Idle events last model) (Idle events last model) w := by
  refine Co.ends_of_all (fun op s hop hs => ?_) hq hw
  obtain ⟨hgpu, hlast⟩ := exec_silent env hop s
  obtain ⟨hl, swap, hg, hsw⟩ := hs
  exact ⟨hlast.trans hl, swap, hgpu.trans hg, hsw⟩

theorem ends_failJob_idle {A : α → World → Prop} (code message : String) (e : Exc)
    (hw : Idle events last model w) :
    (failJob job code message e : Prog G α).Ends (exec env) A (Idle events last model) w := by
  unfold failJob
  exact Co.ends_bind (idle_of_silent ((Co.all_call _).mpr trivial) hw) fun _ _ h =>
    Co.ends_bind (idle_of_silent ((Co.all_call _).mpr trivial) h) fun _ _ h' => Co.ends_throw h'

theorem ends_submit (m : ModelConfig) (graph : G) (hw : MaySubmit events last m.name w) :
    (submit job m graph).Ends (exec env) (fun _ => Submitted events last m.name)
      (Idle events last m.name) w := by
  have hcall : (ask (.call (.submit m.name graph)) : Prog G String).Ends (exec env)
      (fun _ => Submitted events last m.name) (Idle events last m.name) w := by
    unfold Co.Ends
    rw [run_ask]
    rcases hc : env.backend (.submit m.name graph) with e | promptId
    · rw [exec_call_error hc]
      exact hw.idle
    · rw [exec_call_ok hc]
      obtain ⟨hl, swap, hg, hs⟩ := hw
      exact ⟨swap, [], by simp [World.observe, hg, hl], hs, fun _ h => by cases h⟩
  refine Co.ends_tryCatch hcall fun e w' hw' => ?_
  cases e with
  | comfyUnreachable msg => exact ends_failJob_idle _ _ _ hw'
  | comfyNode msg => exact ends_failJob_idle _ _ _ hw'
  | _ => exact Co.ends_throw hw'

/-! ## After the submission -/

theorem afterSubmit_of_silent {op : Op G} (h : Silent op) : AfterSubmit op := .inr (.inr h)

/-- The rest of a silent program is a program of an after-submission. -/
theorem afterSubmit_of_all {q : Prog G α} (h : q.All Silent) : q.All AfterSubmit :=
  h.mono fun _ => afterSubmit_of_silent

theorem submitted_exec {op : Op G} (hop : AfterSubmit op) (hw : Submitted events last model w) :
    Submitted events last model (exec env op w).2 := by
  obtain ⟨swap, rest, hg, hs, hrest⟩ := hw
  rcases hop with rfl | ⟨name, rfl⟩ | hsilent
  · rcases hc : env.backend .free with e | verified
    · rw [exec_call_error hc]
      exact ⟨swap, rest, hg, hs, hrest⟩
    · rw [exec_call_ok hc]
      refine ⟨swap, rest ++ [.unloaded verified], by simp [World.observe, hg], hs, ?_⟩
      intro e he
      rcases List.mem_append.mp he with he | he
      · exact hrest e he
      · exact ⟨verified, List.mem_singleton.mp he⟩
  · exact ⟨swap, rest, hg, hs, hrest⟩
  · exact ⟨swap, rest, (exec_silent env hsilent w).1.trans hg, hs, hrest⟩

theorem afterSubmit_ask {op : Op G} (h : AfterSubmit op) : (ask op).All AfterSubmit :=
  (Co.all_call op).mpr h

theorem afterSubmit_safeFree : (safeFree : Prog G Unit).All AfterSubmit := by
  refine Co.all_tryCatch (Co.all_bind (afterSubmit_ask (.inl rfl)) fun _ => trivial) fun e => ?_
  split <;> trivial

theorem afterSubmit_finish (outputKeys : List String) (data : List DataEntry) :
    (finish job p outputKeys data).All AfterSubmit := by
  unfold finish
  exact Co.all_bind (afterSubmit_ask (.inr (.inr trivial))) fun _ =>
    Co.all_bind (afterSubmit_ask (.inr (.inr trivial))) fun _ =>
      Co.all_bind (afterSubmit_ask (.inr (.inl ⟨_, rfl⟩))) fun _ => trivial

theorem afterSubmit_markRunning (promptId : String) :
    (markRunning svc job promptId).All AfterSubmit := by
  refine afterSubmit_of_all (Co.all_tryCatch ?_ fun e => ?_)
  · exact Co.all_bind ((Co.all_call _).mpr trivial) fun _ => (Co.all_call _).mpr trivial
  · split
    · exact Co.all_bind (silent_safeCancel _) fun _ => trivial
    · trivial

theorem afterSubmit_awaitCompletion (promptId : String) (timeoutS : PyFloat) :
    (awaitCompletion job promptId timeoutS : Prog G Unit).All AfterSubmit := by
  refine Co.all_tryCatch (afterSubmit_ask (.inr (.inr trivial))) fun e => ?_
  split
  · refine Co.all_bind (afterSubmit_of_all (silent_safeCancel _)) fun _ => ?_
    exact Co.all_bind afterSubmit_safeFree fun _ => afterSubmit_of_all (silent_failJob _ _ _ _)
  · exact afterSubmit_of_all (silent_failJob _ _ _ _)
  · trivial

theorem afterSubmit_deliverImages (transparentBackground : Bool) (promptId : String) :
    (deliverImages svc job p transparentBackground promptId).All AfterSubmit := by
  unfold deliverImages
  refine Co.all_bind (afterSubmit_of_all (silent_orUnreachable ((Co.all_call _).mpr trivial)))
    fun images => ?_
  split
  · exact afterSubmit_of_all (silent_failJob _ _ _ _)
  split
  · exact afterSubmit_of_all (silent_failJob _ _ _ _)
  · exact Co.all_bind (afterSubmit_of_all (silent_orStorage (silent_uploadPngs _ _))) fun _ =>
      afterSubmit_finish _ _

theorem afterSubmit_deliverMedia (missingFetchMedia zeroOutputs promptId : String) :
    (deliverMedia svc job p missingFetchMedia zeroOutputs promptId).All AfterSubmit := by
  unfold deliverMedia
  split
  · refine Co.all_bind (afterSubmit_of_all (silent_orUnreachable ((Co.all_call _).mpr trivial)))
      fun rows => ?_
    split
    · exact afterSubmit_of_all (silent_failJob _ _ _ _)
    · exact Co.all_bind (afterSubmit_of_all (silent_orStorage (silent_uploadBlobs _ _))) fun _ =>
        afterSubmit_finish _ _
  · exact Co.all_bind (afterSubmit_ask (.inr (.inr trivial))) fun _ => trivial

theorem ends_afterSubmit {q : Prog G α} (hq : q.All AfterSubmit)
    (hw : Submitted events last model w) :
    q.Ends (exec env) (fun _ => Submitted events last model) (Handled events last) w := by
  have hkeep : q.Ends (exec env) (fun _ => Submitted events last model)
      (Submitted events last model) w := by
    refine Co.ends_of_all (fun op s hop hs => ?_) hq hw
    exact submitted_exec hop hs
  exact hkeep.mono (fun _ _ h => h) fun _ h => ⟨model, .inr h⟩

theorem ends_generate (hw : Start events last w) :
    (generate svc job p).Ends (exec env) (fun _ => Submitted events last p.model.name)
      (Handled events last) w := by
  have hidle : ∀ w', Idle events last p.model.name w' → Handled events last w' :=
    fun w' h => ⟨p.model.name, .inl h⟩
  unfold generate
  refine Co.ends_bind ((start_of_silent silent_uploadInitImage hw).mono (fun _ _ h => h)
    fun w' h => hidle w' h.idle) fun graph w2 hw2 => ?_
  refine Co.ends_bind ((ends_enforceSwap p.model hw2).mono (fun _ _ h => h) hidle)
    fun _ w3 hw3 => ?_
  refine Co.ends_bind ((ends_submit p.model graph hw3).mono (fun _ _ h => h) hidle)
    fun promptId w4 hw4 => ?_
  refine Co.ends_bind (ends_afterSubmit (afterSubmit_markRunning promptId) hw4)
    fun _ w5 hw5 => ?_
  refine Co.ends_bind (ends_afterSubmit (Co.all_ofExcept _) hw5) fun timeoutS w6 hw6 => ?_
  exact Co.ends_bind (ends_afterSubmit (afterSubmit_awaitCompletion promptId timeoutS) hw6)
    fun _ w7 hw7 => Co.ends_pure hw7

variable (env svc job) in
/-- What every pipeline shows, however it ends. -/
theorem ends_runPipeline (hw : Start events last w) :
    (runPipeline svc job).Ends (exec env) (fun _ => Handled events last)
      (Handled events last) w := by
  have hidle : ∀ w', Start events last w' → Handled events last w' :=
    fun w' h => ⟨"", .inl h.idle⟩
  unfold runPipeline
  refine Co.ends_bind ((start_of_silent silent_randbelow hw).mono (fun _ _ h => h) hidle)
    fun drawn w1 hw1 => ?_
  rcases prepare svc job drawn with failure | p
  · exact (start_of_silent (silent_raiseFailure failure) hw1).mono (fun _ => hidle) hidle
  have hdone : ∀ w', Submitted events last p.model.name w' → Handled events last w' :=
    fun w' h => ⟨p.model.name, .inr h⟩
  refine Co.ends_bind (ends_generate hw1) fun promptId w2 hw2 => ?_
  split
  · exact (ends_afterSubmit (afterSubmit_deliverImages _ _) hw2).mono (fun _ => hdone)
      fun _ h => h
  · exact (ends_afterSubmit (afterSubmit_deliverMedia _ _ _) hw2).mono (fun _ => hdone)
      fun _ h => h

theorem silent_recordedBranch (e : Exc) : (recordedBranch e : Prog G Unit).All Silent :=
  Co.all_bind ((Co.all_call _).mpr trivial) fun _ => (Co.all_call _).mpr trivial

theorem silent_completedBranch (r : JobResult) : (completedBranch r : Prog G Unit).All Silent :=
  Co.all_bind ((Co.all_call _).mpr trivial) fun _ => (Co.all_call _).mpr trivial

theorem silent_unexpectedBranch (e : Exc) : (unexpectedBranch job e : Prog G Unit).All Silent :=
  Co.all_bind ((Co.all_call _).mpr trivial) fun _ =>
    Co.all_bind ((Co.all_call _).mpr trivial) fun _ => (Co.all_call _).mpr trivial

/-- One job adds its own events and no others. -/
theorem handled_processOne (hw : Start events last w) :
    Handled events last ((processOne (runPipeline svc job) job).run (exec env) w).2 := by
  have hpipe := (ends_runPipeline env svc job hw).either fun _ _ h => h
  rw [run_processOne]
  rcases hrun : (runPipeline svc job).run (exec env) w with ⟨e | result, w'⟩ <;>
    rw [hrun] at hpipe
  · simp only
    split
    · exact handled_of_silent (silent_recordedBranch e) hpipe
    split
    · exact handled_of_silent (silent_unexpectedBranch e) hpipe
    · exact hpipe
  · exact handled_of_silent (silent_completedBranch result) hpipe

end Job

/-! ## The whole run -/

/-- One job of the run. The registry may change between jobs, so each has its
own service. -/
structure JobTurn (G : Type) where
  svc : Service G
  job : Job
  future : Option FutureState
  env : Env G

def JobTurn.turn (t : JobTurn G) : worker_loop.Turn G :=
  ⟨t.job, t.future, runPipeline t.svc t.job, t.env⟩

def next (l : worker_loop.Loop) (t : JobTurn G) : Option worker_loop.Loop :=
  worker_loop.next l t.turn

/-- Between two jobs: at each submission the rule and the tracking agree, and
since the last one only a model that the worker would swap to had its headroom
checked. -/
structure Consistent (w : World) : Prop where
  agree : AtSubmissions (fun before model last => Swapped before model ↔ Tracked before model last)
    [] w.gpu
  foreign : ∀ model' since, previous w.gpu = some (model', since) →
    ∀ model ok, .headroom model ok ∈ since →
      ¬ (w.lastModelName = none ∨ w.lastModelName = some model)

theorem swapped_iff_resident {events : List GpuEvent} {model : String}
    (hhead : ∀ model' since, previous events = some (model', since) →
      .headroom model true ∉ since) :
    Swapped events model ↔ resident events = none ∨ resident events = some model := by
  unfold resident
  rcases hprev : previous events with _ | ⟨model', since⟩
  · refine ⟨fun _ => .inl rfl, fun _ m s h => ?_⟩
    rw [hprev] at h
    cases h
  by_cases hun : GpuEvent.unloaded true ∈ since
  · refine ⟨fun _ => .inl (if_pos hun), fun _ m s h _ => ?_⟩
    rw [hprev] at h
    cases h
    exact ⟨⟨true, hun⟩, .inl hun⟩
  · simp only [hun, if_false]
    constructor
    · intro h
      right
      by_contra hne
      rcases (h model' since hprev fun he => hne (congrArg some he)).2 with hm | hm
      · exact hun hm
      · exact hhead model' since hprev hm
    · rintro (h | h) m s hm hne
      · cases h
      · rw [hprev] at hm
        cases hm
        cases h
        exact absurd rfl hne

theorem swapped_iff_tracked {events swap : List GpuEvent} {last : Option String} {model : String}
    (hforeign : ∀ model' since, previous events = some (model', since) →
      ∀ model ok, .headroom model ok ∈ since → ¬ (last = none ∨ last = some model))
    (hs : SwapPassed last model swap) :
    Swapped (events ++ swap) model ↔ Tracked (events ++ swap) model last := by
  by_cases hn : last = none ∨ last = some model
  · -- no swap in this job: only what stands on the GPU counts
    have hnil := hs.unneeded hn
    subst hnil
    rw [List.append_nil]
    have hleft : ¬ (last ≠ none ∧ last ≠ some model) := by
      rintro ⟨h1, h2⟩
      rcases hn with h | h
      · exact h1 h
      · exact h2 h
    rw [swapped_iff_resident fun m since hprev hm => hforeign m since hprev model true hm hn]
    unfold Tracked
    simp only [hleft, false_or]
  · have hpassed := hs.passed hn
    have htracked : Tracked (events ++ swap) model last :=
      .inl ⟨fun h => hn (.inl h), fun h => hn (.inr h)⟩
    refine ⟨fun _ => htracked, fun _ => ?_⟩
    intro model' since hprev _
    rw [previous_append_quiet events hs.noSubmission] at hprev
    obtain ⟨p, -, hp⟩ := Option.map_eq_some_iff.mp hprev
    cases hp
    obtain ⟨⟨verified, hv⟩, hok⟩ := hpassed
    refine ⟨⟨verified, List.mem_append_right _ hv⟩, ?_⟩
    rcases hok with h | h
    · exact .inl (List.mem_append_right _ h)
    · exact .inr (List.mem_append_right _ h)

theorem consistent_handled {w w' : World} (hc : Consistent w)
    (h : Handled w.gpu w.lastModelName w') : Consistent w' := by
  obtain ⟨model, ⟨hlast, swap, hgpu, hs⟩ | ⟨swap, rest, hgpu, hs, hrest⟩⟩ := h
  · constructor
    · rw [hgpu, atSubmissions_append]
      exact ⟨hc.agree, atSubmissions_quiet _ hs.noSubmission⟩
    · intro model' since hprev m ok hm
      rw [hgpu, previous_append_quiet _ hs.noSubmission] at hprev
      obtain ⟨p, hp, hpair⟩ := Option.map_eq_some_iff.mp hprev
      cases hpair
      rw [hlast]
      rcases List.mem_append.mp hm with hm | hm
      · exact hc.foreign _ _ hp m ok hm
      · intro hn
        rw [hs.own_headroom m ok hm] at hn
        rw [hs.unneeded hn] at hm
        cases hm
  · have hquiet : NoSubmission rest := fun m l hm => by
      obtain ⟨v, hv⟩ := hrest _ hm
      cases hv
    constructor
    · rw [hgpu, atSubmissions_append, atSubmissions_append]
      refine ⟨hc.agree, atSubmissions_quiet _ hs.noSubmission, ?_, atSubmissions_quiet _ hquiet⟩
      exact swapped_iff_tracked hc.foreign hs
    · intro model' since hprev m ok hm
      rw [hgpu, ← List.append_assoc, previous_append_submitted _ _ _ hquiet] at hprev
      cases hprev
      obtain ⟨v, hv⟩ := hrest _ hm
      cases hv

theorem world_next {l l' : worker_loop.Loop} {t : worker_loop.Turn G}
    (h : worker_loop.next l t = some l') : l'.world = (worker_loop.serve l t).2 := by
  unfold worker_loop.next at h
  rcases hl : l.ended with _ | e <;> rw [hl] at h
  · simp only at h
    rcases hs : worker_loop.serve l t with ⟨e | _, w⟩ <;> rw [hs] at h
    · cases e <;> (cases h; rfl)
    · cases h
      rfl
  · cases h

theorem consistent_next {l l' : worker_loop.Loop} {t : JobTurn G} (hc : Consistent l.world)
    (h : next l t = some l') : Consistent l'.world := by
  rw [world_next h]
  exact consistent_handled hc (handled_processOne ⟨rfl, rfl⟩)

theorem consistent_start {w : World} (h : w.gpu = []) : Consistent w := by
  constructor
  · rw [h]
    trivial
  · intro model' since hprev
    rw [h] at hprev
    cases hprev

/-- The swap rule holds over a run of the worker exactly when, at each
submission, the worker's model name asked for an unload or nothing else stood
on the GPU. -/
theorem the_swap_law_needs_tracking (w : World) (hfresh : w.gpu = []) (ts : List (JobTurn G))
    (l : worker_loop.Loop) (hrun : runs.exec next (worker_loop.start w) ts = some l) :
    SwapLaw l.world.gpu ↔ AtSubmissions Tracked [] l.world.gpu := by
  have hstep : ∀ (l : worker_loop.Loop) (t : JobTurn G) (l' : worker_loop.Loop),
      Consistent l.world → next l t = some l' → Consistent l'.world :=
    fun _ _ _ => consistent_next
  have hstart : Consistent (worker_loop.start w).world := consistent_start hfresh
  exact atSubmissions_congr (runs.invariant_of_next hstep hstart hrun).agree

/-! ## Two jobs -/

def twoJobs : World := smallWorld [smallJob "gen_1" "sdxl", smallJob "gen_2" "flux"]

def twoJobsStart : worker_loop.Loop := worker_loop.start twoJobs

def sdxlTurn (env : Env Unit) : JobTurn Unit :=
  ⟨smallService, smallJob "gen_1" "sdxl", none, env⟩

def fluxTurn (env : Env Unit) : JobTurn Unit :=
  ⟨smallService, smallJob "gen_2" "flux", none, env⟩

theorem two_willing_jobs_swap :
    let l := (runs.exec next twoJobsStart
      [sdxlTurn (smallEnv willing), fluxTurn (smallEnv willing)]).getD twoJobsStart
    SwapLaw l.world.gpu ↔ AtSubmissions Tracked [] l.world.gpu :=
  the_swap_law_needs_tracking twoJobs rfl [sdxlTurn (smallEnv willing), fluxTurn (smallEnv willing)] _
    (by rfl)

/-- The prompt of the first job is submitted and ends in an error. The worker
still has no model name, so the second job asks for no unload. -/
theorem a_failed_job_is_not_swapped_out :
    ∃ l, runs.exec next twoJobsStart
        [sdxlTurn (smallEnv (willingUntilWait (.comfyNode "execution error"))),
          fluxTurn (smallEnv willing)] = some l ∧
      l.world.gpu = [.submitted "sdxl" none, .submitted "flux" none] ∧ ¬ SwapLaw l.world.gpu := by
  refine ⟨_, rfl, by decide, fun h => ?_⟩
  have hgpu : SwapLaw [.submitted "sdxl" none, .submitted "flux" none] := h
  obtain ⟨⟨verified, hv⟩, -⟩ := hgpu.2.1 "sdxl" [] rfl (by decide)
  cases hv

end image_gen.model_swap

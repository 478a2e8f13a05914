-- What a client that polls a job is told (`app/api/images.py`, `app/api/videos.py`), beside
-- what a webhook tells it. A poll reads over the connection of the write blocks, so its
-- answer may come from a block that is still open.
import ImageGen.Dispatcher
import ImageGen.JobRows
import Mathlib.Logic.Relation

namespace image_gen.poll_answers

open image_gen.job_rows image_gen.job_store image_gen.json image_gen.runs image_gen.write_blocks
open image_gen.dispatcher (buildPayload dataEntryJson)
open Relation (ReflTransGen)

/-! ## The answers -/

def deliveryJson : Option WebhookDeliveryStatus → Json
  | none => .null
  | some .pending => .str "pending"
  | some .succeeded => .str "succeeded"
  | some .failed => .str "failed"
  | some .suppressed => .str "suppressed"

/-- `job.error_code or job.status`. An empty code counts as none. -/
def reportedCode (job : Job) : String :=
  match job.errorCode with
  | some code => if code = "" then job.status.text else code
  | none => job.status.text

/-- `_poll_body`. `_poll_video_body` has the same text. -/
def pollBody (job : Job) : List (String × Json) :=
  let base := [("id", Json.str job.id), ("status", .str job.status.text),
    ("webhook_delivery_status", deliveryJson job.webhookDeliveryStatus)]
  if job.status = .completed then
    let data := match job.resultJson with
      | some result => result.data.map dataEntryJson
      | none => []
    base ++ [("data", .arr data)]
  else if job.status = .failed ∨ job.status = .abandoned then
    base ++ [("error", .obj [("code", .str (reportedCode job)),
      ("message", .str (job.errorMessage.getD ""))])]
  else base

/-- The job in the payload of a webhook. -/
def payloadJob (job : Job) (created : Nat) : List (String × Json) :=
  match (buildPayload job created).2 with
  | .obj fields =>
    match Json.get fields "job" with
    | .obj job => job
    | _ => []
  | _ => []

/-- What an answer says about the outcome. The state of the delivery and the time of
sending are no part of it. -/
def told (fields : List (String × Json)) : List (String × Json) :=
  fields.filter fun f => f.1 ≠ "webhook_delivery_status" ∧ f.1 ≠ "created"

/-- A poll, and a webhook that is due, tell the same of a row. -/
theorem told_payloadJob (job : Job) (hterm : job.status.Terminal) (created : Nat) :
    told (payloadJob job created) = told (pollBody job) := by
  unfold payloadJob pollBody buildPayload
  cases hstatus : job.status with
  | queued => simp [hstatus] at hterm
  | running => simp [hstatus] at hterm
  | completed =>
    cases hresult : job.resultJson <;> simp [Json.get, told, List.lookup_cons]
  | failed =>
    cases hcode : job.errorCode <;>
      simp [Json.get, told, List.lookup_cons, reportedCode, hstatus, hcode]
  | abandoned =>
    cases hcode : job.errorCode <;>
      simp [Json.get, told, List.lookup_cons, reportedCode, hstatus, hcode]

/-- A row with the same outcome is told in the same way. -/
theorem told_same {j k : Job} (hid : k.id = j.id) (h : SameOutcome j k) :
    told (pollBody k) = told (pollBody j) := by
  unfold pollBody reportedCode
  rw [hid, h.status, h.resultJson, h.errorCode, h.errorMessage]
  split
  · simp [told]
  · split <;> simp [told]

/-! ## One step of the table that the connection shows -/

/-- What the four transitions do after their check. -/
theorem storeStep_checked {s d d' : Store} {id : String} {target : JobStatus} {f : Job → Job}
    (w : Write) (now : Nat) (hw : ∀ s, w.apply s now = s.transition id target f) {i : Nat}
    {g : Sql} (hg : [checkTransition id target, updateWhere id f][i]? = some g)
    (hrun : runAll ([checkTransition id target, updateWhere id f].take i) s = .ok d)
    (hd : g d = .ok d') : StoreStep d d' := by
  have hcheck : ∀ {a b}, checkTransition id target a = .ok b → b = a := by
    intro a b hab
    unfold checkTransition at hab
    rcases hstatus : a.fetchStatus id with e | current <;> rw [hstatus] at hab
    · cases hab
    · rcases hallowed : Store.assertAllowed current target with e | _ <;>
        simp [Bind.bind, Except.bind, Pure.pure, Except.pure, hallowed] at hab
      exact hab.symm
  match i with
  | 0 =>
    cases hg
    rw [hcheck hd]
    exact storeStep_refl d
  | 1 =>
    cases hg
    have hsame : d = s := by
      simp only [List.take, runAll] at hrun
      rcases hc : checkTransition id target s with e | d₀ <;> rw [hc] at hrun <;> cases hrun
      exact hcheck hc
    have hwhole := runAll_concat hrun hd
    change runAll [checkTransition id target, updateWhere id f] s = .ok d' at hwhole
    rw [runAll_transition, ← hw] at hwhole
    rw [hsame]
    exact storeStep_apply hwhole
  | i + 2 => cases hg

/-- A statement of an operation moves each row along the table, whether its block commits
or not. -/
theorem storeStep_statement {s d d' : Store} {op : Op} {now i : Nat} {g : Sql}
    (hg : (op.block now)[i]? = some g) (hrun : runAll ((op.block now).take i) s = .ok d)
    (hd : g d = .ok d') : StoreStep d d' := by
  cases op with
  | createQueued id modelName inputJson mode webhookUrl webhookHeaders =>
    unfold Op.block at hg
    match i with
    | 0 =>
      cases hg
      have hfresh := rowOk_fresh id modelName inputJson mode webhookUrl webhookHeaders now
      have hsame := rowStep_of_same (j := Job.fresh id modelName inputJson mode webhookUrl
        webhookHeaders now) (k := { Job.fresh id modelName inputJson mode webhookUrl
          webhookHeaders now with webhookDeliveryStatus := none }) ⟨rfl, rfl, rfl, rfl, rfl⟩ rfl
      exact storeStep_createQueued rfl (hsame.ok hfresh) hd
    | i + 1 =>
      have hupdate :
          g = updateWhere id fun j => { j with webhookDeliveryStatus := some .pending } := by
        have hmem := List.mem_of_getElem? hg
        dsimp only at hg
        rw [List.getElem?_cons_succ] at hg
        split at hg
        · exact List.mem_singleton.mp (List.mem_of_getElem? hg)
        · cases hg
      rw [hupdate] at hd
      cases hd
      exact storeStep_flags id (fun _ => rfl) fun _ => ⟨⟨rfl, rfl, rfl, rfl, rfl⟩, rfl⟩
  | write w =>
    have hflag : ∀ {id : String} {f : Job → Job}, [updateWhere id f][i]? = some g →
        (∀ s, w.apply s now = .ok (s.update id f)) → StoreStep d d' := by
      intro id f hg hw
      have hgf : g = updateWhere id f := List.mem_singleton.mp (List.mem_of_getElem? hg)
      rw [hgf] at hd
      exact storeStep_apply ((hw d).trans hd)
    cases w with
    | setRunning id promptId clientId =>
      exact storeStep_checked (.setRunning id promptId clientId) now (fun _ => rfl) hg hrun hd
    | setCompleted id outputKeys result =>
      exact storeStep_checked (.setCompleted id outputKeys result) now (fun _ => rfl) hg hrun hd
    | setFailed id errorCode errorMessage =>
      exact storeStep_checked (.setFailed id errorCode errorMessage) now (fun _ => rfl) hg hrun hd
    | setAbandoned id errorCode =>
      exact storeStep_checked (.setAbandoned id errorCode) now (fun _ => rfl) hg hrun hd
    | setFetched id => exact hflag hg fun _ => rfl
    | markInitialResponseDelivered id => exact hflag hg fun _ => rfl
    | markResponseDelivered id => exact hflag hg fun _ => rfl
    | markAsyncWithHandover id => exact hflag hg fun _ => rfl
    | markHandover id => exact hflag hg fun _ => rfl
    | setWebhookDeliveryStatus id status => exact hflag hg fun _ => rfl

/-- A block that ends without a commit has changed nothing. -/
def NothingUndone (s : State Store StoreError) : job_rows.Label → Prop
  | .rollback _ => s.visible = s.committed
  | .crash => s.visible = s.committed
  | _ => True

/-- What holds of the table that the connection shows. -/
structure ShownInv (s : State Store StoreError) : Prop where
  coherent : Coherent s
  blocks : ∀ t ∈ s.tasks, IsOp t.block
  rows : ∀ id row, s.visible.getById id = some row → RowOk row

theorem shownInv_start : ShownInv (start []) :=
  ⟨coherent_start [], List.forall_mem_nil _, fun _ _ h => by cases h⟩

theorem StoreStep.rows {s t : Store} (h : StoreStep s t)
    (hok : ∀ id row, s.getById id = some row → RowOk row) :
    ∀ id row, t.getById id = some row → RowOk row := by
  intro id row hrow
  have hid := h id
  rw [hrow] at hid
  rcases hs : s.getById id with _ | j <;> rw [hs] at hid
  · exact hid.2
  · exact hid.ok (hok id j hs)

theorem shownInv_next {s s' : State Store StoreError} {l : job_rows.Label} (h : ShownInv s)
    (hl : ∀ block, l = .submit block → IsOp block) (hkept : NothingUndone s l)
    (hnext : next s l = some s') : ShownInv s' ∧ StoreStep s.visible s'.visible := by
  have hstep : StoreStep s.visible s'.visible := by
    rcases visible_next h.coherent hnext with
      hsame | ⟨i, t, done, f, -, hi, hf, hrun, hd⟩ | ⟨hl, hback⟩
    · rw [hsame]
      exact storeStep_refl _
    · obtain ⟨op, now, hop⟩ := h.blocks t (List.mem_of_getElem? hi)
      rw [hop] at hf hrun
      exact storeStep_statement hf hrun hd
    · have hsame : s.visible = s.committed := by
        rcases hl with ⟨i, rfl⟩ | rfl
        · exact hkept
        · exact hkept
      rw [hback, ← hsame]
      exact storeStep_refl _
  exact ⟨⟨coherent_next h.coherent hnext, blocks_next h.blocks hl hnext,
    poll_answers.StoreStep.rows hstep h.rows⟩, hstep⟩

/-! ## Runs -/

/-- The row that a poll of the job finds. -/
def asked (id : String) (s : State Store StoreError) : job_rows.Label → List (Option Job)
  | .read => [s.visible.getById id]
  | _ => []

/-- What the polls of the job find, one after the other. -/
def polled (id : String) : State Store StoreError → List job_rows.Label → List (Option Job)
  | _, [] => []
  | s, l :: labels =>
    match next s l with
    | none => []
    | some s' => asked id s l ++ polled id s' labels

/-- Every poll reads a table that the connection shows on the way. -/
theorem polled_sublist (id : String) (s : State Store StoreError) (labels : List job_rows.Label) :
    (polled id s labels).Sublist
      ((s :: after next s labels).map fun u => u.visible.getById id) := by
  induction labels generalizing s with
  | nil => exact List.nil_sublist _
  | cons l labels ih =>
    unfold polled after
    rcases next s l with _ | s'
    · exact List.nil_sublist _
    · rw [List.map_cons]
      cases l with
      | read => exact (ih s').cons_cons _
      | _ => exact (ih s').cons _

/-- What a later poll finds. -/
def Later (a b : Option Job) : Prop :=
  ∀ j, a = some j → ∃ k, b = some k ∧ k.id = j.id ∧
    ReflTransGen (fun x y => y ∈ allowedTransitions x) j.status k.status ∧
    (j.status.Terminal → SameOutcome j k)

theorem Later.refl (a : Option Job) : Later a a :=
  fun j hj => ⟨j, hj, rfl, .refl, fun _ => ⟨rfl, rfl, rfl, rfl, rfl⟩⟩

instance : IsTrans (Option Job) Later where
  trans a b c hab hbc := by
    intro j hj
    obtain ⟨k, hk, hid, hpath, hsame⟩ := hab j hj
    obtain ⟨l, hl, hid', hpath', hsame'⟩ := hbc k hk
    refine ⟨l, hl, hid'.trans hid, hpath.trans hpath', fun hterm => ?_⟩
    have hjk := hsame hterm
    exact hjk.trans (hsame' (hjk.status ▸ hterm))

theorem later_or_later {rows : List (Option Job)} (h : rows.Pairwise Later) {a b : Option Job}
    (ha : a ∈ rows) (hb : b ∈ rows) : Later a b ∨ Later b a := by
  have hsymm : Std.Symm fun a b : Option Job => Later a b ∨ Later b a := ⟨fun _ _ h => h.symm⟩
  have hboth : rows.Pairwise fun a b => Later a b ∨ Later b a := h.imp Or.inl
  exact hboth.forall_of_forall (fun a _ => .inl (Later.refl a)) ha hb

theorem StoreStep.later {s t : Store} (h : StoreStep s t) (id : String) :
    Later (s.getById id) (t.getById id) := by
  intro j hj
  have hid := h id
  rcases ht : t.getById id with _ | k <;> rw [hj, ht] at hid
  · exact hid.elim
  · refine ⟨k, rfl, (Store.getById_id ht).trans (Store.getById_id hj).symm, ?_, hid.terminal⟩
    rcases hid.status with hsame | hmoved
    · rw [hsame]
    · exact .single hmoved

section Run

variable {labels : List job_rows.Label}

theorem allSteps_shown (hops : ∀ block, .submit block ∈ labels → IsOp block)
    (hkept : AllSteps next NothingUndone (start []) labels) :
    AllSteps next (fun s l => (∀ block, l = .submit block → IsOp block) ∧ NothingUndone s l)
      (start []) labels :=
  (allSteps_isOp hops _).and hkept

theorem polled_later (hops : ∀ block, .submit block ∈ labels → IsOp block)
    (hkept : AllSteps next NothingUndone (start []) labels) (id : String) :
    (polled id (start []) labels).Pairwise Later := by
  have hchain := isChain_after (R := Later) (fun u => u.visible.getById id)
    (fun s l s' (h : ShownInv s) hl hnext => by
      obtain ⟨hinv, hstep⟩ := shownInv_next h hl.1 hl.2 hnext
      exact ⟨hinv, poll_answers.StoreStep.later hstep id⟩)
    shownInv_start (allSteps_shown hops hkept)
  exact (List.isChain_iff_pairwise.mp hchain).sublist (polled_sublist id _ _)

theorem polled_ok (hops : ∀ block, .submit block ∈ labels → IsOp block)
    (hkept : AllSteps next NothingUndone (start []) labels) (id : String) :
    ∀ j, some j ∈ polled id (start []) labels → RowOk j := by
  intro j hj
  obtain ⟨u, hu, hrow⟩ := List.mem_map.mp ((polled_sublist id _ _).subset hj)
  have hinv := forall_after (fun s l s' h hl hnext => (shownInv_next h hl.1 hl.2 hnext).1)
    shownInv_start (allSteps_shown hops hkept) u hu
  exact hinv.rows id j hrow

/-- An answer has images only when the job is completed, and then those of the result, and
an error only when it failed or was given up. -/
structure Answers (j : Job) : Prop where
  completed : j.status = .completed → ∃ result, j.resultJson = some result ∧
    Json.get (pollBody j) "data" = .arr (result.data.map dataEntryJson) ∧
    "error" ∉ (pollBody j).map (·.1)
  failed : j.status = .failed ∨ j.status = .abandoned → reportedCode j ≠ "" ∧
    Json.get (pollBody j) "error" = .obj [("code", .str (reportedCode j)),
      ("message", .str (j.errorMessage.getD ""))] ∧ "data" ∉ (pollBody j).map (·.1)
  active : ¬ j.status.Terminal →
    "data" ∉ (pollBody j).map (·.1) ∧ "error" ∉ (pollBody j).map (·.1)

theorem reportedCode_ne_empty {j : Job} (h : j.status = .failed ∨ j.status = .abandoned) :
    reportedCode j ≠ "" := by
  have htext : j.status.text ≠ "" := by rcases h with h | h <;> simp [h, JobStatus.text]
  unfold reportedCode
  rcases j.errorCode with _ | code
  · exact htext
  · by_cases hcode : code = ""
    · simp [hcode, htext]
    · simp [hcode]

theorem answers_of_rowOk {j : Job} (h : RowOk j) : Answers j := by
  refine ⟨fun hstatus => ?_, fun hstatus => ?_, fun hactive => ?_⟩
  · obtain ⟨-, -, hresult, -⟩ := h.completed hstatus
    obtain ⟨result, hresult⟩ := Option.ne_none_iff_exists'.mp hresult
    refine ⟨result, hresult, ?_, ?_⟩ <;>
      simp [pollBody, hstatus, hresult, Json.get, List.lookup_cons]
  · have hnot : j.status ≠ .completed := by rcases hstatus with h | h <;> simp [h]
    refine ⟨reportedCode_ne_empty hstatus, ?_, ?_⟩
    · simp [pollBody, hnot, hstatus, Json.get, List.lookup_cons]
    · simp [pollBody, hnot, hstatus]
  · have hnot : j.status ≠ .completed := fun heq => hactive (by rw [heq]; rfl)
    have hnot' : ¬ (j.status = .failed ∨ j.status = .abandoned) := by
      rintro (heq | heq) <;> exact hactive (by rw [heq]; rfl)
    simp [pollBody, hnot, hnot']

/-- What a client that polls a job sees, in every order of the write blocks, as long as no
block that has changed the table is undone: a job that was found is found again, its status
follows the transition table, a terminal answer stays, and each answer carries what its
status says. -/
theorem polls_only_move_forward (hops : ∀ block, .submit block ∈ labels → IsOp block)
    (hkept : AllSteps next NothingUndone (start []) labels) (id : String) :
    (polled id (start []) labels).Pairwise Later ∧
      ∀ j, some j ∈ polled id (start []) labels → j.id = id ∧ Answers j := by
  refine ⟨polled_later hops hkept id, fun j hj => ⟨?_, ?_⟩⟩
  · obtain ⟨u, -, hrow⟩ := List.mem_map.mp ((polled_sublist id _ _).subset hj)
    exact Store.getById_id hrow
  · exact answers_of_rowOk (polled_ok hops hkept id j hj)

/-- Two reads of a finished job tell the same, whether a poll or a webhook tells it. -/
theorem every_channel_tells_the_same (hops : ∀ block, .submit block ∈ labels → IsOp block)
    (hkept : AllSteps next NothingUndone (start []) labels) (id : String) {j k : Job}
    (hj : some j ∈ polled id (start []) labels) (hk : some k ∈ polled id (start []) labels)
    (hjterm : j.status.Terminal) (hkterm : k.status.Terminal) :
    told (pollBody j) = told (pollBody k) ∧
      ∀ created, told (payloadJob k created) = told (pollBody j) := by
  have hsame : told (pollBody j) = told (pollBody k) := by
    rcases later_or_later (polled_later hops hkept id) hj hk with hlater | hlater
    · obtain ⟨_, heq, hid, -, hsame⟩ := hlater j rfl
      cases heq
      exact (told_same hid (hsame hjterm)).symm
    · obtain ⟨_, heq, hid, -, hsame⟩ := hlater k rfl
      cases heq
      exact told_same hid (hsame hkterm)
  exact ⟨hsame, fun created => (told_payloadJob k hkterm created).trans hsame.symm⟩

end Run

/-- A job is polled between its writes, also while a block is open, and a late completion
is turned down. -/
def watched : List job_rows.Label :=
  [.read, .submit (Op.block 0 (.createQueued "a" "m" (.value .null) .sync none none)),
    .submit (Op.block 1 (.write (.setRunning "a" "p" "c"))),
    .submit (Op.block 2 (.write (.setFailed "a" "comfy_error" "no output"))),
    .submit (Op.block 3 (.write (.setCompleted "a" ["k"] ⟨[], 0, 0⟩))),
    .acquire 0, .statement 0, .read, .commit 0, .acquire 1, .statement 1, .statement 1, .read,
    .commit 1, .acquire 2, .statement 2, .statement 2, .commit 2, .read, .acquire 3,
    .statement 3, .read, .rollback 3, .read]

theorem watched_isOp : ∀ block, .submit block ∈ watched → IsOp block := by
  intro block hblock
  simp only [watched, List.mem_cons, write_blocks.Label.submit.injEq, reduceCtorEq,
    List.not_mem_nil, or_false, false_or] at hblock
  rcases hblock with rfl | rfl | rfl | rfl <;> exact ⟨_, _, rfl⟩

theorem watched_undoes_nothing : AllSteps next NothingUndone (start []) watched := by
  unfold watched
  repeat
    refine ⟨by first | exact trivial | exact rfl, fun _ h => ?_⟩
    cases h
  exact trivial

theorem watched_moves_forward :
    ((polled "a" (start []) watched).map fun row => row.map (·.status)) =
        [none, some .queued, some .running, some .failed, some .failed, some .failed] ∧
      (polled "a" (start []) watched).Pairwise Later :=
  ⟨rfl, (polls_only_move_forward watched_isOp watched_undoes_nothing "a").1⟩

theorem watched_failure_is_told_once :
    ∃ j k, (polled "a" (start []) watched)[3]? = some (some j) ∧
      (polled "a" (start []) watched)[5]? = some (some k) ∧
      told (pollBody j) = told (pollBody k) ∧ told (payloadJob k 9) = told (pollBody j) := by
  refine ⟨_, _, rfl, rfl, ?_⟩
  have hsame := every_channel_tells_the_same watched_isOp watched_undoes_nothing "a"
    (List.mem_of_getElem? (i := 3) rfl) (List.mem_of_getElem? (i := 5) rfl) (by decide) (by decide)
  exact ⟨hsame.1, hsame.2 9⟩

end image_gen.poll_answers

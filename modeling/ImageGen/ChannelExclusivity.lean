-- Two channels can bring a result to the client, the response and the webhook.
-- No row ever uses both, and a webhook waits for its handover.
import ImageGen.Delivery

namespace image_gen.channel_exclusivity

open image_gen.coroutine image_gen.runs image_gen.job_store image_gen.delivery

/-! ## The row and the actors -/

/-- Recovery has failed the job. -/
def Restarted (j : Job) : Prop := j.errorCode = some serviceRestarted ∧ j.status.Terminal

structure Channels (c : Cell) : Prop where
  delivered : c.job.responseDelivered = true →
    c.job.mode = .sync ∧ c.watcher = .gone ∧ c.handler.pc = .gone
  watching : c.watcher = .polling ∨ c.watcher = .locking → c.handler.pc = .waiting
  handed_over : c.job.mode = .sync → c.job.webhookHandover = true →
    c.job.responseDelivered = true ∨ (Restarted c.job ∧ c.handler.pc = .gone)
  recovering : c.recovery ≠ .done → c.handler.pc = .gone
  marking : c.recovery = .marking → Restarted c.job

theorem channels_created (r : requests.Submission) (binary : Bool) (id : String) (now : Nat) :
    Channels (created r binary id now) := by
  constructor
  · intro h
    cases h
  · rintro (h | h) <;> cases h
  · intro _ h
    cases h
  · intro h
    exact absurd rfl h
  · intro h
    cases h

theorem channels_crash {c : Cell} (hc : Channels c) : Channels (crash c) := by
  obtain ⟨g1, g2, g3, g4, g5⟩ := hc
  refine ⟨fun hd => ⟨(g1 hd).1, rfl, rfl⟩, ?_, fun hm hh => ?_, fun _ => rfl, fun h => by cases h⟩
  · rintro (h | h) <;> cases h
  · exact (g3 hm hh).imp_right fun h => ⟨h.1, rfl⟩

/-- A write that leaves the flags and a terminal row alone keeps the invariant. -/
theorem channels_write {c : Cell} {f : Job → Job} (hc : Channels c) (hf : SameFlags c.job (f c.job)) :
    Channels (c.setJob f) := by
  obtain ⟨g1, g2, g3, g4, g5⟩ := hc
  obtain ⟨hmode, hdelivered, hhandover, -, -, hterm⟩ := hf
  have hrestarted : Restarted c.job → Restarted (f c.job) := by
    rintro ⟨hcode, hst⟩
    obtain ⟨hs, he⟩ := hterm hst
    exact ⟨he.trans hcode, hs ▸ hst⟩
  constructor
  · intro hd
    rw [← hmode] at g1
    exact g1 (hdelivered ▸ hd)
  · exact g2
  · intro hm hh
    rcases g3 (hmode ▸ hm) (hhandover ▸ hh) with hd | ⟨hr, hgone⟩
    · exact Or.inl (hdelivered.trans hd)
    · exact Or.inr ⟨hrestarted hr, hgone⟩
  · exact g4
  · exact fun hm => hrestarted (g5 hm)

/-- What the dispatcher does to the row and to itself is nothing to the others. -/
theorem channels_pass {c : Cell} (hc : Channels c) {rows : dispatcher.Rows}
    (hrow : SameRow c.job rows.job) (p : Option (dispatcher.Prog Unit)) :
    Channels { c with rows := rows, dispatch := p } := by
  obtain ⟨g1, g2, g3, g4, g5⟩ := hc
  obtain ⟨hmode, hstatus, hdelivered, hhandover, hcode, -⟩ := hrow
  have hrestarted : Restarted c.job → Restarted rows.job := by
    rintro ⟨he, hst⟩
    exact ⟨hcode.trans he, hstatus.symm ▸ hst⟩
  refine ⟨fun hd => ?_, g2, fun hm hh => ?_, g4, fun hr => hrestarted (g5 hr)⟩
  · obtain ⟨hm, hrest⟩ := g1 (hdelivered ▸ hd)
    exact ⟨hmode.trans hm, hrest⟩
  · rcases g3 (hmode ▸ hm) (hhandover ▸ hh) with hd | ⟨hr, hgone⟩
    · exact Or.inl (hdelivered.trans hd)
    · exact Or.inr ⟨hrestarted hr, hgone⟩

/-- The handler goes on without its watcher. -/
theorem channels_cancel {c : Cell} {pc : HandlerPc} (hc : Channels c)
    (hpc : c.handler.pc = .gone → pc = .gone) : Channels (c.cancelWatcher.setHandlerPc pc) := by
  obtain ⟨g1, g2, g3, g4, g5⟩ := hc
  unfold Cell.cancelWatcher
  split
  · rename_i hw
    refine ⟨fun hd => ?_, fun h => ?_, fun hm hh => ?_, fun hr => hpc (g4 hr), g5⟩
    · have hgone := (g1 hd).2.1
      rw [hw] at hgone
      cases hgone
    · change c.watcher = .polling ∨ c.watcher = .locking at h
      simp [hw] at h
    · exact (g3 hm hh).imp_right fun h => ⟨h.1, hpc h.2⟩
  · refine ⟨fun hd => ⟨(g1 hd).1, rfl, hpc (g1 hd).2.2⟩, ?_, fun hm hh => ?_,
      fun hr => hpc (g4 hr), g5⟩
    · rintro (h | h) <;> cases h
    · exact (g3 hm hh).imp_right fun h => ⟨h.1, hpc h.2⟩

/-- The background task of a sync job writes only where no watcher is left that
could turn the row to async. -/
theorem channels_markDelivered {c : Cell} {now : Nat} (hc : Channels c)
    (hpc : c.handler.pc = .flushed) (hunlocked : c.Unlocked) :
    Channels ((c.setJob (markDelivered c.handler.mode now)).setHandlerPc .gone) := by
  obtain ⟨g1, g2, g3, g4, g5⟩ := hc
  have hwatcher : c.watcher = .gone := by
    rcases hw : c.watcher
    · simp [g2 (Or.inl hw)] at hpc
    · simp [g2 (Or.inr hw)] at hpc
    · exact absurd hw hunlocked
    · rfl
  have hnotgone : c.handler.pc ≠ .gone := by simp [hpc]
  have hwatching : ¬ (c.watcher = .polling ∨ c.watcher = .locking) := by simp [hwatcher]
  have hmarking : c.recovery ≠ .marking := fun h => hnotgone (g4 (by simp [h]))
  have hundelivered : c.job.responseDelivered ≠ true := fun h => hnotgone (g1 h).2.2
  have hspec := markDelivered_spec c.handler.mode now c.job
  refine ⟨fun hd => ?_, fun h => absurd h hwatching, fun hm hh => ?_, fun _ => rfl,
    fun h => absurd h hmarking⟩
  · rcases hspec.delivered hd with hd | hm
    · exact absurd hd hundelivered
    · exact ⟨hspec.mode.trans hm, hwatcher, rfl⟩
  · have hsync : c.job.mode = .sync := hspec.mode.symm.trans hm
    rcases hspec.handover hsync hh with hd | hh
    · exact Or.inl hd
    · rcases g3 hsync hh with hd | ⟨-, hgone⟩
      · exact absurd hd hundelivered
      · exact absurd hgone hnotgone

/-- The watcher turns the row to async before anything was delivered. -/
theorem channels_flip {c : Cell} {now : Nat} (hc : Channels c) (hw : c.watcher = .writing) :
    Channels { c.setJob (Job.markAsyncWithHandover now) with watcher := .gone } := by
  obtain ⟨g1, g2, g3, g4, g5⟩ := hc
  constructor
  · intro hd
    have hgone := (g1 hd).2.1
    rw [hw] at hgone
    cases hgone
  · rintro (h | h) <;> cases h
  · intro hm
    cases hm
  · exact g4
  · exact g5

theorem channels_scan {c : Cell} (hc : Channels c) (hr : c.recovery = .pending) :
    Channels { c with recovery := recoveryFor c.job.status } := by
  have hgone : c.handler.pc = .gone := hc.recovering (by simp [hr])
  refine ⟨hc.delivered, hc.watching, hc.handed_over, fun _ => hgone, fun h => ?_⟩
  change recoveryFor c.job.status = .marking at h
  rcases hs : c.job.status <;> rw [hs] at h <;> cases h

theorem channels_recover {c c' : Cell} {now : Nat} (hc : Channels c)
    (h : recover now c = some c') : Channels c' := by
  obtain ⟨g1, g2, g3, g4, g5⟩ := hc
  unfold recover at h
  rcases hr : c.recovery <;> rw [hr] at h <;> dsimp only at h
  · cases h
  · have hgone : c.handler.pc = .gone := g4 (by simp [hr])
    split at h <;> cases h
    · rename_i hallowed
      have hrestarted : Restarted (Job.setFailed serviceRestarted
          "process restart mid-generation" now c.job) := ⟨rfl, terminal_failed⟩
      refine ⟨g1, g2, fun _ _ => Or.inr ⟨hrestarted, hgone⟩, fun _ => hgone, fun _ => hrestarted⟩
    · exact ⟨g1, g2, g3, g4, g5⟩
  · have hgone : c.handler.pc = .gone := g4 (by simp [hr])
    have hrestarted := g5 hr
    cases h
    exact ⟨g1, g2, fun _ _ => Or.inr ⟨hrestarted, hgone⟩, fun _ => hgone, fun _ => hrestarted⟩
  · have hgone : c.handler.pc = .gone := g4 (by simp [hr])
    cases h
    exact ⟨g1, g2, g3, fun _ => hgone, fun h => by cases h⟩
  · cases h

theorem channels_move {c c' : Cell} {m : Move} (hc : Channels c) (h : move c m = some c') :
    Channels c' := by
  cases m with
  | enqueue =>
    obtain ⟨g1, g2, g3, g4, g5⟩ := hc
    simp only [move, Option.ite_none_right_eq_some] at h
    obtain ⟨hpc, h⟩ := h
    have hnotgone : c.handler.pc ≠ .gone := by simp [hpc]
    have hno : ∀ {P : Prop}, c.handler.pc = .gone → P := fun h => absurd h hnotgone
    rcases hm : c.handler.mode <;> rw [hm] at h <;> cases h
    · exact ⟨fun hd => hno (g1 hd).2.2, fun _ => rfl,
        fun hm hh => (g3 hm hh).imp_right fun h => hno h.2, fun hr => hno (g4 hr), g5⟩
    · refine ⟨fun hd => hno (g1 hd).2.2, fun hw => ?_,
        fun hm hh => (g3 hm hh).imp_right fun h => hno h.2, fun hr => hno (g4 hr), g5⟩
      simp [g2 hw] at hpc
  | receive =>
    simp only [move, Option.ite_none_right_eq_some] at h
    obtain ⟨hpc, h⟩ := h
    have hne : c.handler.pc ≠ .gone := by simp [hpc]
    rcases hf : c.future with _ | ok <;> rw [hf] at h
    · cases h
    cases ok <;> cases h <;> exact channels_cancel hc fun hgone => absurd hgone hne
  | handlerEnds =>
    simp only [move, Option.ite_none_left_eq_some, Option.some.injEq] at h
    obtain ⟨-, rfl⟩ := h
    exact channels_cancel hc fun _ => rfl
  | setFetched now =>
    simp only [move, Option.ite_none_right_eq_some, Option.some.injEq] at h
    obtain ⟨-, rfl⟩ := h
    exact channels_write hc (sameFlags_setFetched now c.job)
  | fetch now =>
    simp only [move, Option.ite_none_right_eq_some, Option.some.injEq] at h
    obtain ⟨-, rfl⟩ := h
    exact channels_write hc (sameFlags_setFetched now c.job)
  | work w now =>
    simp only [move, Option.ite_none_right_eq_some, Option.some.injEq] at h
    obtain ⟨-, rfl⟩ := h
    exact channels_write hc (sameFlags_work w now c.job)
  | respond =>
    obtain ⟨g1, g2, g3, g4, g5⟩ := hc
    simp only [move, Option.ite_none_right_eq_some, Option.some.injEq] at h
    obtain ⟨hpc, rfl⟩ := h
    have hno : ∀ {P : Prop}, c.handler.pc = .gone → P := fun h => by simp [hpc] at h
    refine ⟨fun hd => hno (g1 hd).2.2, fun hw => ?_,
      fun hm hh => (g3 hm hh).imp_right fun h => hno h.2, fun hr => hno (g4 hr), g5⟩
    simp [g2 hw] at hpc
  | markDelivered now =>
    simp only [move, Option.ite_none_right_eq_some, Option.some.injEq] at h
    obtain ⟨⟨hpc, hunlocked⟩, rfl⟩ := h
    exact channels_markDelivered hc hpc hunlocked
  | detect =>
    simp only [move, Option.ite_none_right_eq_some, Option.some.injEq] at h
    obtain ⟨hw, rfl⟩ := h
    obtain ⟨g1, g2, g3, g4, g5⟩ := hc
    refine ⟨fun hd => ?_, fun _ => g2 (Or.inl hw), g3, g4, g5⟩
    simp [(g1 hd).2.1] at hw
  | acquire =>
    simp only [move, Option.ite_none_right_eq_some, Option.some.injEq] at h
    obtain ⟨hw, rfl⟩ := h
    obtain ⟨g1, g2, g3, g4, g5⟩ := hc
    refine ⟨fun hd => ?_, ?_, g3, g4, g5⟩
    · simp [(g1 hd).2.1] at hw
    · rintro (h | h) <;> cases h
  | watcherRollsBack =>
    simp only [move, Option.ite_none_right_eq_some, Option.some.injEq] at h
    obtain ⟨hw, rfl⟩ := h
    obtain ⟨g1, g2, g3, g4, g5⟩ := hc
    refine ⟨fun hd => ⟨(g1 hd).1, rfl, (g1 hd).2.2⟩, ?_, g3, g4, g5⟩
    rintro (h | h) <;> cases h
  | watcherCommits now =>
    simp only [move, Option.ite_none_right_eq_some, Option.some.injEq] at h
    obtain ⟨hw, rfl⟩ := h
    exact channels_flip hc hw
  | dequeue =>
    simp only [move, Option.ite_none_right_eq_some, Option.some.injEq] at h
    obtain ⟨-, rfl⟩ := h
    exact ⟨hc.delivered, hc.watching, hc.handed_over, hc.recovering, hc.marking⟩
  | resolve ok =>
    simp only [move, Option.ite_none_right_eq_some, Option.some.injEq] at h
    obtain ⟨-, rfl⟩ := h
    exact ⟨hc.delivered, hc.watching, hc.handed_over, hc.recovering, hc.marking⟩
  | scan =>
    simp only [move, Option.ite_none_right_eq_some, Option.some.injEq] at h
    obtain ⟨hr, rfl⟩ := h
    exact channels_scan hc hr
  | recover now =>
    simp only [move, Option.ite_none_right_eq_some] at h
    exact channels_recover hc h.2

/-! ## The pass of the dispatcher -/

/-- A POST may go out: the row is terminal and handed over, and no response can
be marked as delivered any more. -/
structure Postable (c : Cell) : Prop where
  terminal : c.job.status.Terminal
  handover : c.job.webhookHandover = true
  undelivered : c.job.responseDelivered = false
  stays : c.job.mode = .async ∨ c.handler.pc = .gone

/-- What a pass may still do, whatever happens to the row meanwhile. -/
def Allowed (c : Cell) : dispatcher.Op → Prop
  | .post _ => Postable c
  | .setWebhookDeliveryStatus .suppressed => c.job.responseDelivered = true
  | _ => True

theorem postable_of_grows {c c' : Cell} (hg : Grows c c') (h : Postable c) : Postable c' := by
  obtain ⟨hterm, hhand, hun, hstays⟩ := h
  refine ⟨(hg.terminal hterm).symm ▸ hterm, hg.handover hhand, ?_,
    hstays.imp hg.async hg.gone⟩
  by_contra hd
  -- a handler that flushes now would be of a live sync job
  rcases hg.flushed (by simpa using hd) with hd | ⟨hm, hpc⟩
  · simp [hun] at hd
  · rcases hstays with ha | hgone
    · simp [hm] at ha
    · simp [hpc] at hgone

theorem postable_pass {c : Cell} (h : Postable c) {rows : dispatcher.Rows}
    (hrow : SameRow c.job rows.job) (p : Option (dispatcher.Prog Unit)) :
    Postable { c with rows := rows, dispatch := p } := by
  obtain ⟨hterm, hhand, hun, hstays⟩ := h
  exact ⟨hrow.status.symm ▸ hterm, hrow.handover.trans hhand, hrow.delivered.trans hun,
    hstays.imp_left hrow.mode.trans⟩

theorem allowed_pass {c : Cell} {op : dispatcher.Op} (h : Allowed c op) {rows : dispatcher.Rows}
    (hrow : SameRow c.job rows.job) (p : Option (dispatcher.Prog Unit)) :
    Allowed { c with rows := rows, dispatch := p } op := by
  unfold Allowed at h ⊢
  split at h
  · exact postable_pass h hrow p
  · exact hrow.delivered.trans h
  · trivial

theorem allowed_of_grows {c c' : Cell} (hg : Grows c c') {op : dispatcher.Op} (h : Allowed c op) :
    Allowed c' op := by
  unfold Allowed at h ⊢
  split at h
  · exact postable_of_grows hg h
  · exact hg.delivered h
  · trivial

section Pass

/-- The operations that need no leave. -/
def Free : dispatcher.Op → Prop
  | .post _ => False
  | .setWebhookDeliveryStatus .suppressed => False
  | _ => True

variable {P : dispatcher.Op → Prop} {sign : dispatcher.Signer}

theorem all_ask {op : dispatcher.Op} (h : P op) : (dispatcher.ask op).All P := (Co.all_call op).mpr h

theorem all_recordFailure (hfree : ∀ op, Free op → P op) (attemptId : Nat)
    (c : dispatcher.Completion) : (dispatcher.recordFailure attemptId c).All P := by
  refine Co.all_bind (all_ask (hfree _ trivial)) fun _ => all_ask (hfree _ ?_)
  split <;> trivial

theorem all_settleLatest (hfree : ∀ op, Free op → P op) (now : Nat)
    (latest : Option dispatcher.Attempt) : (dispatcher.settleLatest now latest).All P := by
  unfold dispatcher.settleLatest
  split
  · exact Co.all_pure _
  · split
    · exact Co.all_bind (all_ask (hfree _ trivial)) fun _ => Co.all_pure _
    · split <;> exact Co.all_pure _
    · split
      · exact Co.all_bind (all_ask (hfree _ trivial)) fun _ => Co.all_pure _
      · exact Co.all_pure _

theorem all_buildRequest (hfree : ∀ op, Free op → P op) (job : Job) (url secret : String) :
    (dispatcher.buildRequest sign job url secret).All P :=
  Co.all_bind (all_ask (hfree _ trivial)) fun _ =>
    Co.all_bind (all_ask (hfree _ trivial)) fun _ =>
      Co.all_bind (all_ask (hfree _ trivial)) fun _ => Co.all_pure _

theorem all_tryPost (hpost : ∀ request, P (.post request)) (request : dispatcher.Request) :
    (dispatcher.tryPost request).All P := by
  have hmap : (Except.ok <$> dispatcher.post request :
      dispatcher.Prog (Except String dispatcher.Response)).All P :=
    Co.all_bind (all_ask (hpost request)) fun _ => Co.all_pure _
  refine Co.all_tryCatch hmap fun e => ?_
  cases e
  · exact Co.all_pure _
  · exact Co.all_throw _
  · exact Co.all_throw _

theorem all_recordOutcome (hfree : ∀ op, Free op → P op) (attempt : dispatcher.Attempt)
    (attemptN : Nat) (outcome : Except String dispatcher.Response) :
    (dispatcher.recordOutcome attempt attemptN outcome).All P := by
  cases outcome with
  | error message =>
    exact Co.all_bind (all_ask (hfree _ trivial)) fun _ => all_recordFailure hfree _ _
  | ok resp =>
    simp only [dispatcher.recordOutcome]
    split
    · have hdone : (dispatcher.setWebhookDeliveryStatus .succeeded).All P :=
        all_ask (hfree (.setWebhookDeliveryStatus .succeeded) trivial)
      exact Co.all_bind (all_ask (hfree _ trivial)) fun _ => hdone
    · exact Co.all_bind (all_ask (hfree _ trivial)) fun _ => all_recordFailure hfree _ _

theorem all_attemptDelivery (hfree : ∀ op, Free op → P op) (hpost : ∀ request, P (.post request))
    (job : Job) (url : String) (attemptN : Nat) :
    (dispatcher.attemptDelivery sign job url attemptN).All P := by
  refine Co.all_bind (all_ask (hfree _ trivial)) fun attempt => ?_
  refine Co.all_bind (all_ask (hfree _ trivial)) fun _ => ?_
  refine Co.all_bind (all_ask (hfree _ trivial)) fun allowed => ?_
  split
  · refine Co.all_bind (all_ask (hfree _ trivial)) fun secret => ?_
    cases secret with
    | none => exact all_recordFailure hfree _ _
    | some secret =>
      exact Co.all_bind (all_buildRequest hfree job url secret) fun request =>
        Co.all_bind (all_tryPost hpost request) fun outcome =>
          all_recordOutcome hfree attempt attemptN outcome
  · exact all_recordFailure hfree _ _

/-- The row that the scan has read decides which channel the pass may touch. -/
theorem all_processOne {job : Job} (hfree : ∀ op, Free op → P op)
    (hsuppressed : job.mode = .sync → job.responseDelivered = true →
      P (.setWebhookDeliveryStatus .suppressed))
    (hpost : ¬ (job.mode = .sync ∧ job.responseDelivered = true) → ∀ request, P (.post request)) :
    (dispatcher.processOne sign job).All P := by
  unfold dispatcher.processOne
  split
  · exact Co.all_pure _
  · split
    · rename_i hdelivered
      exact all_ask (hsuppressed hdelivered.1 hdelivered.2)
    · rename_i hun
      refine Co.all_bind (all_ask (hfree _ trivial)) fun latest => ?_
      refine Co.all_bind (all_ask (hfree _ trivial)) fun now => ?_
      refine Co.all_bind (all_settleLatest hfree now latest) fun go => ?_
      split
      · exact all_attemptDelivery hfree (hpost hun) job _ _
      · exact Co.all_pure _

end Pass

/-! ## The invariant -/

structure Exclusive (c : Cell) : Prop where
  channels : Channels c
  posted : .posted ∈ c.rows.log → Postable c
  suppressed : c.job.webhookDeliveryStatus = some .suppressed → c.job.responseDelivered = true
  pass : ∀ p, c.dispatch = some p → p.All (Allowed c)

theorem allowed_of_free {c : Cell} {op : dispatcher.Op} (h : Free op) : Allowed c op := by
  unfold Allowed
  split
  · cases h
  · cases h
  · trivial

/-- A candidate that the pass would not suppress can be posted. -/
theorem postable_of_candidate {c : Cell} (hc : Channels c) (hcand : c.job.WebhookCandidate)
    (hun : ¬ (c.job.mode = .sync ∧ c.job.responseDelivered = true)) : Postable c := by
  obtain ⟨-, hhand, hterm, -⟩ := hcand
  have hundelivered : c.job.responseDelivered = false := by
    by_contra hd
    have hd : c.job.responseDelivered = true := by simpa using hd
    exact hun ⟨(hc.delivered hd).1, hd⟩
  refine ⟨hterm, hhand, hundelivered, ?_⟩
  rcases hm : c.job.mode with _ | _
  · rcases hc.handed_over hm hhand with hd | ⟨-, hgone⟩
    · exact absurd ⟨hm, hd⟩ hun
    · exact Or.inr hgone
  · exact Or.inl rfl

theorem all_of_inFlight {P : dispatcher.Op → Prop} {p q : dispatcher.Prog Unit} (hp : p.All P)
    (h : inFlight p = some q) : q.All P := by
  cases p <;> cases h
  exact hp

theorem exclusive_created (r : requests.Submission) (binary : Bool) (id : String) (now : Nat) :
    Exclusive (created r binary id now) where
  channels := channels_created r binary id now
  posted h := by cases h
  suppressed h := by
    change r.webhookUrl.map (fun _ => WebhookDeliveryStatus.pending) = some .suppressed at h
    rcases hurl : r.webhookUrl <;> simp [hurl] at h
  pass p h := by cases h

theorem exclusive_crash {c : Cell} (hc : Exclusive c) : Exclusive (crash c) := by
  refine ⟨channels_crash hc.channels, fun h => ?_, hc.suppressed, fun p h => by cases h⟩
  obtain ⟨hterm, hhand, hun, -⟩ := hc.posted h
  exact ⟨hterm, hhand, hun, Or.inr rfl⟩

theorem exclusive_move {c c' : Cell} {m : Move} (hc : Exclusive c) (h : move c m = some c') :
    Exclusive c' := by
  have hg := grows_move h
  refine ⟨channels_move hc.channels h, fun hp => ?_, fun hs => ?_, fun p hp => ?_⟩
  · exact postable_of_grows hg (hc.posted (hg.log ▸ hp))
  · exact hg.delivered (hc.suppressed (hg.delivery_status ▸ hs))
  · exact (hc.pass p (hg.dispatch ▸ hp)).mono fun _ => allowed_of_grows hg

/-- A POST in the log is old, or it is the operation of this step. -/
theorem exec_posted {inp : dispatcher.Input} {op : dispatcher.Op} {rows : dispatcher.Rows}
    (h : .posted ∈ (dispatcher.exec inp op rows).2.log) :
    .posted ∈ rows.log ∨ ∃ request, op = .post request := by
  cases op with
  | post request => exact Or.inr ⟨request, rfl⟩
  | completeAttempt id completion =>
    simp only [dispatcher.exec, List.mem_append, List.mem_map] at h
    rcases h with h | ⟨a, -, h⟩
    · exact Or.inl h
    · cases h
  | createAttempt attemptN retryAt =>
    simp only [dispatcher.exec] at h
    split at h <;> exact Or.inl h
  | _ => exact Or.inl h

theorem exec_suppressed {inp : dispatcher.Input} {op : dispatcher.Op} {rows : dispatcher.Rows}
    (h : (dispatcher.exec inp op rows).2.job.webhookDeliveryStatus = some .suppressed) :
    rows.job.webhookDeliveryStatus = some .suppressed ∨
      op = .setWebhookDeliveryStatus .suppressed := by
  cases op with
  | setWebhookDeliveryStatus status =>
    cases h
    exact Or.inr rfl
  | createAttempt attemptN retryAt =>
    simp only [dispatcher.exec] at h
    split at h <;> exact Or.inl h
  | _ => exact Or.inl h

/-- One operation of a pass. -/
theorem exclusive_dispatch {c : Cell} {op : dispatcher.Op}
    {k : Except dispatcher.Exc op.Ans → dispatcher.Prog Unit} (hc : Exclusive c)
    (hd : c.dispatch = some (.await op k)) (inp : dispatcher.Input) :
    Exclusive { c with
      rows := (dispatcher.exec inp op c.rows).2
      dispatch := inFlight (k (dispatcher.exec inp op c.rows).1) } := by
  obtain ⟨hop, hrest⟩ := hc.pass _ hd
  have hrow : SameRow c.job (dispatcher.exec inp op c.rows).2.job := sameRow_exec inp op c.rows
  refine ⟨channels_pass hc.channels hrow _, fun hp => ?_, fun hs => ?_, fun p hp => ?_⟩
  · rcases exec_posted hp with hold | ⟨request, rfl⟩
    · exact postable_pass (hc.posted hold) hrow _
    · exact postable_pass hop hrow _
  · refine hrow.delivered.trans ?_
    rcases exec_suppressed hs with hold | rfl
    · exact hc.suppressed hold
    · exact hop
  · exact all_of_inFlight ((hrest _).mono fun _ h => allowed_pass h hrow _) hp

theorem exclusive_next {sign : dispatcher.Signer} {c c' : Cell} {a : Act} (hc : Exclusive c)
    (h : next sign c a = some c') : Exclusive c' := by
  cases a with
  | move m => exact exclusive_move hc h
  | tick =>
    simp only [next, Option.ite_none_right_eq_some, Option.some.injEq] at h
    obtain ⟨⟨-, hcand⟩, rfl⟩ := h
    have hrow := sameRow_refl c.job
    have hall : (dispatcher.processOne sign c.job).All (Allowed c) :=
      all_processOne (fun _ => allowed_of_free) (fun _ hd => hd)
        fun hun _ => postable_of_candidate hc.channels hcand hun
    exact ⟨channels_pass hc.channels hrow _, fun hp => postable_pass (hc.posted hp) hrow _,
      hc.suppressed, fun p hp => all_of_inFlight (hall.mono fun _ h => allowed_pass h hrow _) hp⟩
  | dispatch inp =>
    simp only [next] at h
    split at h
    · rename_i op k hd
      simp only [Option.ite_none_right_eq_some, Option.some.injEq] at h
      obtain ⟨-, rfl⟩ := h
      exact exclusive_dispatch hc hd inp
    · cases h
  | dispatchRaises message =>
    simp only [next] at h
    split at h
    · rename_i op k hd
      cases h
      have hrow := sameRow_refl c.job
      have hall := (hc.pass _ hd).2 (.error (.other message))
      exact ⟨channels_pass hc.channels hrow _, fun hp => postable_pass (hc.posted hp) hrow _,
        hc.suppressed, fun p hp => all_of_inFlight (hall.mono fun _ h => allowed_pass h hrow _) hp⟩
    · cases h

/-! ## The channels of a row -/

/-- What the flags of a row and its POSTs say about each other. -/
structure OneChannel (c : Cell) : Prop where
  /-- A POST goes out only where the row is terminal and handed over. -/
  waits : ∀ request k, c.dispatch = some (.await (.post request) k) →
    c.job.status.Terminal ∧ c.job.webhookHandover = true
  posted : .posted ∈ c.rows.log → c.job.status.Terminal ∧ c.job.webhookHandover = true
  exclusive : ¬ (c.job.responseDelivered = true ∧ .posted ∈ c.rows.log)
  handed_over : c.job.mode = .sync → c.job.webhookHandover = true →
    c.job.responseDelivered = true ∨ c.job.errorCode = some serviceRestarted
  suppressed : c.job.webhookDeliveryStatus = some .suppressed → c.job.responseDelivered = true

theorem oneChannel_of_exclusive {c : Cell} (hc : Exclusive c) : OneChannel c where
  waits request k hd := by
    have hpost : Postable c := (hc.pass _ hd).1
    exact ⟨hpost.terminal, hpost.handover⟩
  posted h := ⟨(hc.posted h).terminal, (hc.posted h).handover⟩
  exclusive := by
    rintro ⟨hd, hp⟩
    simp [(hc.posted hp).undelivered] at hd
  handed_over hm hh := (hc.channels.handed_over hm hh).imp_right fun h => h.1.1
  suppressed := hc.suppressed

/-- In every run of the service each row has one channel: the order of the
writes, the crashes and the cancelled watchers make no difference. -/
theorem each_row_has_one_channel {sign : dispatcher.Signer} {labels : List Label}
    {cells : List Cell} (hrun : runs.exec (step sign) [] labels = some cells) :
    ∀ c ∈ cells, OneChannel c := by
  have hall : ∀ c ∈ cells, Exclusive c :=
    cells_invariant_of_next exclusive_created (fun _ _ _ => exclusive_next)
      (fun _ => exclusive_crash) hrun
  exact fun c hc => oneChannel_of_exclusive (hall c hc)

/-- A job that its client has left goes out through the webhook, and only so. -/
theorem a_job_left_alone_is_posted :
    let run := runs.exec (step smallSign) [] (leftAlone ++ onePass 10 (smallInput 4 200))
    (run.getD []).map (fun c => c.rows.log) = [[.posted]] ∧ ∀ c ∈ run.getD [], OneChannel c := by
  intro run
  have hrun : run = some (run.getD []) := by rfl
  exact ⟨by rfl, each_row_has_one_channel hrun⟩

end image_gen.channel_exclusivity

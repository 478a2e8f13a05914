-- The retry machine of a webhook without crashes: what one pass over a job
-- does, and from it how many POSTs are sent, when, and how the job ends.
import ImageGen.DeliveryProgress

namespace image_gen.retry_machine

open image_gen.coroutine image_gen.json image_gen.job_store image_gen.dispatcher
  image_gen.attempt_ledger

/-! ## The receiver and the clock -/

/-- A response, or the message of a transport error. -/
abbrev Outcome := Except String Response

/-- 429, 5xx or a transport error. -/
def retries : Outcome → Bool
  | .error _ => true
  | .ok resp => retryable resp.statusCode

/-- 2xx. -/
def accepts : Outcome → Bool
  | .error _ => false
  | .ok resp => isSuccess resp.statusCode

/-- The first outcome, counted from one, that is not tried again, or five. -/
def quota (outcomes : Nat → Outcome) : Nat :=
  ((List.range 4).findIdx fun i => !retries (outcomes i)) + 1

/-- What the clock shows at the operation `j` of the tick `k`. -/
structure Clock where
  time : Nat → Nat → Nat
  within : ∀ k j, time k j ≤ time k (j + 1)
  between : ∀ k j, time k j ≤ time (k + 1) 0
  unbounded : ∀ t, ∃ k, t ≤ time k 0

/-- A target that passes its check, a secret, and what the receiver answers. -/
structure World where
  sign : Signer
  secret : String
  uuid : Nat → Nat → String
  outcomes : Nat → Outcome
  clock : Clock

/-- A POST: when it was sent, and what the clock shows next, which is after its
outcome. -/
structure Sent where
  sent : Nat
  outcome : Nat
  deriving DecidableEq

/-- The rows of the job with the POSTs so far, and the number of operations in
this tick. -/
structure Line where
  rows : Rows
  posts : List Sent
  step : Nat

def exec (w : World) (k : Nat) (op : Op) (s : Line) : Except Exc op.Ans × Line :=
  let inp : Input := {
    now := w.clock.time k s.step
    allows := .ok true
    secret := some w.secret
    uuid := w.uuid k s.step
    response := (w.outcomes s.posts.length).mapError .http }
  let posts := match op with
    | .post _ => s.posts ++ [⟨w.clock.time k s.step, w.clock.time k (s.step + 1)⟩]
    | _ => s.posts
  ((dispatcher.exec inp op s.rows).1,
    ⟨(dispatcher.exec inp op s.rows).2, posts, s.step + 1⟩)

/-- `_tick`, for the one job. -/
def tick (w : World) (k : Nat) (s : Line) : Line :=
  if s.rows.job.WebhookCandidate then
    ((processOne w.sign s.rows.job).run (exec w k) { s with step := 0 }).2
  else s

/-- The line before tick `k`. -/
def run (w : World) (r : Rows) : Nat → Line
  | 0 => ⟨r, [], 0⟩
  | k + 1 => tick w k (run w r k)

/-! ## One attempt -/

section Attempt

variable {w : World} {k : Nat} {s : Line}

theorem run_ask (op : Op) (s : Line) : (ask op).run (exec w k) s = exec w k op s :=
  Co.run_call _ op s

/-- The row of a new attempt that is being delivered. -/
def delivering (r : Rows) (n now : Nat) : Attempt :=
  { newAttempt r n none now with status := .delivering }

/-- What is recorded of an outcome. -/
def completion (n now : Nat) : Outcome → Completion
  | .error message =>
    { succeeded := false, error := some message, nextRetryAt := nextRetryAt n now }
  | .ok resp =>
    if isSuccess resp.statusCode then
      { succeeded := true, statusCode := some resp.statusCode,
        responseBodySnippet := some (snippet resp.text) }
    else
      { succeeded := false, statusCode := some resp.statusCode,
        responseBodySnippet := some (snippet resp.text),
        errorCode := if isRedirect resp.statusCode then some "webhook_redirect" else none,
        nextRetryAt := if retryable resp.statusCode then nextRetryAt n now else none }

/-- The status of the job after the outcome of attempt `n`. -/
def statusAfter (n : Nat) (o : Outcome) : WebhookDeliveryStatus :=
  if accepts o then .succeeded else if retries o ∧ n < 5 then .pending else .failed

/-- One operation that answers, before the rest. -/
theorem run_step {α : Type} {op : Op} {f : op.Ans → Prog α} {a : op.Ans} {s' : Line}
    (h : exec w k op s = (.ok a, s')) : (ask op >>= f).run (exec w k) s = (f a).run (exec w k) s' :=
  Co.run_bind_ok _ (by rw [run_ask, h])

/-- An operation that leaves the rows as they are. -/
def Line.next (s : Line) (i : Nat) : Line := { s with step := s.step + i }

/-- The state after the outcome is recorded. -/
structure Recorded (w : World) (k : Nat) (s s' : Line) (attempt : Attempt) (n : Nat) (o : Outcome) :
    Prop where
  posts : s'.posts = s.posts
  attempts : ∃ t, w.clock.time k s.step ≤ t ∧ s'.rows.attempts =
    updateAttempt s.rows.attempts attempt.id
      (Attempt.complete (completion n (w.clock.time k s.step) o) t)
  job : ∃ t, s'.rows.job = s.rows.job.setWebhookDeliveryStatus (statusAfter n o) t

theorem recorded_recordFailure {attempt : Attempt} {n : Nat} {o : Outcome} {c : Completion}
    (hc : c = completion n (w.clock.time k s.step) o)
    (hstatus : (if c.nextRetryAt = none then .failed else .pending) = statusAfter n o) :
    Recorded w k s (((recordFailure attempt.id c).run (exec w k) (s.next 1)).2) attempt n o := by
  unfold recordFailure completeAttempt setWebhookDeliveryStatus
  rw [run_step rfl, run_ask, hstatus]
  refine ⟨rfl, ⟨_, ?_, by rw [hc]; rfl⟩, ⟨_, rfl⟩⟩
  exact w.clock.within k s.step

theorem completion_retry (n now : Nat) {o : Outcome} (ho : accepts o = false) :
    (if (completion n now o).nextRetryAt = none then .failed else .pending) = statusAfter n o := by
  unfold statusAfter
  have hlimit : nextRetryAt n now = none ↔ ¬ n < 5 := by
    rw [nextRetryAt_eq_none]
    omega
  rw [ho]
  cases o with
  | error message => by_cases hn : n < 5 <;> simp [completion, hlimit, retries, hn]
  | ok resp =>
    have hsuccess : isSuccess resp.statusCode = false := ho
    by_cases hretry : retryable resp.statusCode = true
    · by_cases hn : n < 5 <;> simp [completion, hsuccess, hretry, hlimit, retries, hn]
    · simp [completion, hsuccess, hretry, retries]

theorem recorded_recordOutcome (attempt : Attempt) (n : Nat) (o : Outcome) :
    Recorded w k s (((recordOutcome attempt n o).run (exec w k) s).2) attempt n o := by
  cases o with
  | error message =>
    unfold recordOutcome readNow
    rw [run_step rfl]
    refine recorded_recordFailure rfl ?_
    have h := completion_retry n (w.clock.time k s.step) (o := .error message) rfl
    exact h
  | ok resp =>
    unfold recordOutcome
    dsimp only
    split
    · rename_i hsuccess
      unfold completeAttempt setWebhookDeliveryStatus
      rw [run_step rfl, run_ask]
      refine ⟨rfl, ⟨w.clock.time k s.step, Nat.le_refl _, ?_⟩, ⟨w.clock.time k (s.step + 1), ?_⟩⟩
      · simp only [completion, hsuccess, ↓reduceIte]
        rfl
      · simp only [statusAfter, accepts, hsuccess, ↓reduceIte]
        rfl
    · rename_i hsuccess
      unfold readNow
      rw [run_step rfl]
      have hfail : isSuccess resp.statusCode = false := by simpa using hsuccess
      refine recorded_recordFailure ?_ ?_
      · simp only [completion, hfail, Bool.false_eq_true, ↓reduceIte]
      · have h := completion_retry n (w.clock.time k s.step) (o := .ok resp) hfail
        simpa [completion, hfail] using h

theorem run_buildRequest (job : Job) (url secret : String) (s : Line) :
    ∃ request, (buildRequest w.sign job url secret).run (exec w k) s = (.ok request, s.next 3) := by
  unfold buildRequest readNow uuid4
  rw [run_step rfl, run_step rfl, run_step rfl]
  exact ⟨_, rfl⟩

/-- The line after a POST. -/
def posting (w : World) (k : Nat) (s : Line) : Line where
  rows := { s.rows with log := s.rows.log ++ [.posted] }
  posts := s.posts ++ [⟨w.clock.time k s.step, w.clock.time k (s.step + 1)⟩]
  step := s.step + 1

theorem run_tryPost (request : Request) (s : Line) :
    (tryPost request).run (exec w k) s = (.ok (w.outcomes s.posts.length), posting w k s) := by
  have hpost : (post request).run (exec w k) s =
      ((w.outcomes s.posts.length).mapError .http, posting w k s) := run_ask _ s
  unfold tryPost
  rw [Co.run_tryCatch, Co.run_map, hpost]
  cases w.outcomes s.posts.length <;> rfl

/-- What attempt `n` does, the check and the secret being fine. -/
structure Posted (w : World) (k : Nat) (s s' : Line) (n : Nat) (o : Outcome) (p : Sent) :
    Prop where
  posts : s'.posts = s.posts ++ [p]
  sent : w.clock.time k s.step ≤ p.sent
  attempts : ∃ t t', p.outcome ≤ t' ∧ s'.rows.attempts =
    s.rows.attempts ++ [(delivering s.rows n t).complete (completion n p.outcome o) t']
  job : ∃ t, s'.rows.job = s.rows.job.setWebhookDeliveryStatus (statusAfter n o) t

theorem Clock.le_add (c : Clock) (k j : Nat) : ∀ i, c.time k j ≤ c.time k (j + i)
  | 0 => Nat.le_refl _
  | i + 1 => (c.le_add k j i).trans (c.within k (j + i))

/-- Attempt `n` is in its row and under way. -/
def opened (w : World) (k : Nat) (s : Line) (n : Nat) : Line where
  rows := { s.rows with
    attempts := s.rows.attempts ++ [delivering s.rows n (w.clock.time k s.step)] }
  posts := s.posts
  step := s.step + 2

/-- The attempt up to its outcome. -/
theorem run_attemptDelivery (job : Job) (url : String) {n : Nat}
    (hnum : WellNumbered s.rows.attempts) (hn : s.rows.attempts.length + 1 = n) (h5 : n ≤ 5) :
    (attemptDelivery w.sign job url n).run (exec w k) s =
      (recordOutcome (newAttempt s.rows n none (w.clock.time k s.step)) n
        (w.outcomes s.posts.length)).run (exec w k) (posting w k ((opened w k s n).next 5)) := by
  let a := newAttempt s.rows n none (w.clock.time k s.step)
  have hcreate : exec w k (.createAttempt n none) s = (.ok a, { s with
      rows := { s.rows with attempts := s.rows.attempts ++ [a] }, step := s.step + 1 }) := by
    have hrange : 1 ≤ n ∧ n ≤ 5 := by omega
    simp only [exec, dispatcher.exec, if_pos hrange]
    rfl
  have hwell : WellNumbered (s.rows.attempts ++ [a]) :=
    wellNumbered_concat.mpr ⟨hnum, rfl, hn.symm⟩
  have hdelivering : exec w k (.setAttemptDelivering a.id) { s with
      rows := { s.rows with attempts := s.rows.attempts ++ [a] }, step := s.step + 1 } =
      (.ok (), opened w k s n) := by
    simp only [exec, dispatcher.exec, updateAttempt_last hwell]
    rfl
  have hallows : exec w k (.toctouAllows url) (opened w k s n) =
      (.ok true, (opened w k s n).next 1) := rfl
  have hsecret : exec w k .firstSigningSecret ((opened w k s n).next 1) =
      (.ok (some w.secret), (opened w k s n).next 2) := rfl
  obtain ⟨request, hrequest⟩ :=
    run_buildRequest (w := w) (k := k) job url w.secret ((opened w k s n).next 2)
  unfold attemptDelivery createAttempt setAttemptDelivering
  rw [run_step hcreate, run_step hdelivering]
  unfold toctouAllows firstSigningSecret
  rw [run_step hallows]
  simp only [↓reduceIte]
  rw [run_step hsecret]
  dsimp only
  rw [Co.run_bind_ok _ hrequest, Co.run_bind_ok _ (run_tryPost request _)]
  rfl

theorem posted_attemptDelivery (job : Job) (url : String) {n : Nat}
    (hnum : WellNumbered s.rows.attempts) (hn : s.rows.attempts.length + 1 = n) (h5 : n ≤ 5) :
    ∃ p, Posted w k s (((attemptDelivery w.sign job url n).run (exec w k) s).2) n
      (w.outcomes s.posts.length) p := by
  rw [run_attemptDelivery job url hnum hn h5]
  let now := w.clock.time k s.step
  let a := delivering s.rows n now
  have hwell : WellNumbered (s.rows.attempts ++ [a]) :=
    wellNumbered_concat.mpr ⟨hnum, rfl, hn.symm⟩
  obtain ⟨hposts, ⟨t', ht', hattempts⟩, hjob⟩ := recorded_recordOutcome
    (k := k) (s := posting w k ((opened w k s n).next 5)) (newAttempt s.rows n none now) n
    (w.outcomes s.posts.length)
  refine ⟨_, hposts, w.clock.le_add k s.step 7, ⟨now, t', ht', ?_⟩, hjob⟩
  exact hattempts.trans (updateAttempt_last hwell _)

end Attempt

/-! ## One tick -/

section Tick

variable {w : World} {k : Nat} {s : Line}

/-- The tick may send: there is no POST yet, or the last one is to be tried
again by now. -/
def Due (w : World) (k : Nat) (s : Line) : Prop :=
  ∀ a, s.rows.attempts.getLast? = some a → ∀ due, a.nextRetryAt = some due →
    due ≤ w.clock.time k 1

theorem run_settleLatest (latest : Option Attempt) (now : Nat)
    (hfailed : ∀ a, latest = some a → a.status = .failed) :
    (settleLatest now latest).run (exec w k) s =
      (.ok (decide (∀ a, latest = some a → ∀ due, a.nextRetryAt = some due → due ≤ now)), s) := by
  rcases latest with _ | a
  · simp [settleLatest]
  · have hstatus := hfailed a rfl
    rcases hdue : a.nextRetryAt with _ | due <;> simp [settleLatest, hstatus, hdue]

/-- A tick over a job whose attempts have all failed. -/
theorem tick_candidate (hcand : s.rows.job.WebhookCandidate)
    (hfire : ¬ (s.rows.job.mode = .sync ∧ s.rows.job.responseDelivered = true))
    (hnum : WellNumbered s.rows.attempts)
    (hfailed : ∀ a, s.rows.attempts.getLast? = some a → a.status = .failed)
    (h5 : s.rows.attempts.length < 5) :
    (¬ Due w k s → (tick w k s).rows = s.rows ∧ (tick w k s).posts = s.posts) ∧
    (Due w k s → ∃ p, Posted w k { s with step := 2 } (tick w k s) (s.rows.attempts.length + 1)
      (w.outcomes s.posts.length) p) := by
  obtain ⟨url, hurl⟩ := Option.ne_none_iff_exists'.mp hcand.1
  have hlatest : s.rows.latest = s.rows.attempts.getLast? := hnum.argmax
  have hget : exec w k .getLatestAttempt { s with step := 0 } =
      (.ok s.rows.attempts.getLast?, { s with step := 1 }) := by
    rw [← hlatest]
    rfl
  have hnow : exec w k .now { s with step := 1 } =
      (.ok (w.clock.time k 1), { s with step := 2 }) := rfl
  have hsettle := run_settleLatest (w := w) (k := k) (s := { s with step := 2 })
    s.rows.attempts.getLast? (w.clock.time k 1) hfailed
  have htick : tick w k s = ((do
      if decide (∀ a, s.rows.attempts.getLast? = some a → ∀ due, a.nextRetryAt = some due →
          due ≤ w.clock.time k 1) then
        attemptDelivery w.sign s.rows.job url (s.rows.attempts.length + 1)
      else pure ()).run (exec w k) { s with step := 2 }).2 := by
    unfold tick processOne getLatestAttempt readNow
    rw [if_pos hcand, hurl]
    dsimp only
    rw [if_neg hfire, run_step hget, run_step hnow, Co.run_bind_ok _ hsettle]
    rcases List.eq_nil_or_concat' s.rows.attempts with hnil | ⟨init, a, hinit⟩
    · rw [hnil]
      rfl
    · have hlast : s.rows.attempts.getLast? = some a := by rw [hinit, List.getLast?_concat]
      have hnumber : a.attemptN = s.rows.attempts.length := by
        rw [hinit] at hnum ⊢
        rw [(wellNumbered_concat.mp hnum).2.2, List.length_append, List.length_singleton]
      rw [hlast]
      dsimp only
      rw [hnumber]
  rw [htick]
  constructor
  · intro hdue
    have hgo : decide (∀ a, s.rows.attempts.getLast? = some a → ∀ due, a.nextRetryAt = some due →
        due ≤ w.clock.time k 1) = false := decide_eq_false hdue
    rw [hgo]
    exact ⟨rfl, rfl⟩
  · intro hdue
    have hgo : decide (∀ a, s.rows.attempts.getLast? = some a → ∀ due, a.nextRetryAt = some due →
        due ≤ w.clock.time k 1) = true := decide_eq_true hdue
    rw [hgo]
    exact posted_attemptDelivery s.rows.job url hnum rfl h5

end Tick

/-! ## How many -/

theorem quota_pos (outcomes : Nat → Outcome) : 0 < quota outcomes := Nat.succ_pos _

theorem quota_le (outcomes : Nat → Outcome) : quota outcomes ≤ 5 := by
  have h : (List.range 4).findIdx (fun i => !retries (outcomes i)) ≤ (List.range 4).length :=
    List.findIdx_le_length
  rw [List.length_range] at h
  unfold quota
  omega

/-- After a POST there is one more if its outcome allows it and the schedule
has an entry. -/
theorem lt_quota_iff {outcomes : Nat → Outcome} {n : Nat} (h : n < quota outcomes) :
    n + 1 < quota outcomes ↔ retries (outcomes n) = true ∧ n + 1 < 5 := by
  unfold quota at h ⊢
  generalize hidx : (List.range 4).findIdx (fun i => !retries (outcomes i)) = idx at h ⊢
  constructor
  · intro hlt
    have hle := quota_le outcomes
    unfold quota at hle
    have hn : n < (List.range 4).findIdx fun i => !retries (outcomes i) := by omega
    have hnot := List.not_of_lt_findIdx hn
    rw [List.getElem_range] at hnot
    exact ⟨by simpa using hnot, by omega⟩
  · rintro ⟨hretry, h5⟩
    by_contra hlast
    have hn : idx = n := by omega
    have hlt : (List.range 4).findIdx (fun i => !retries (outcomes i)) < (List.range 4).length := by
      rw [List.length_range]
      omega
    have hfound := List.findIdx_getElem (w := hlt)
    simp only [hidx, List.getElem_range, hn, hretry] at hfound
    cases hfound

theorem accepts_of_retries {o : Outcome} (h : retries o = true) : accepts o = false := by
  cases o with
  | error message => rfl
  | ok resp =>
    simp only [retries, retryable, accepts, isSuccess, decide_eq_true_eq] at h ⊢
    simp only [decide_eq_false_iff_not]
    omega

theorem completion_of_retries {o : Outcome} (h : retries o = true) {n : Nat} (hn : n < 5)
    (now : Nat) : (completion n now o).succeeded = false ∧
      (completion n now o).nextRetryAt = some (now + scheduleS.getD n 0) := by
  have hnext : nextRetryAt n now = some (now + scheduleS.getD n 0) := by
    have hlen : ¬ scheduleS.length ≤ n := by
      simp [scheduleS]
      omega
    unfold nextRetryAt
    rw [if_neg hlen]
  cases o with
  | error message => exact ⟨rfl, hnext⟩
  | ok resp =>
    have hfail : isSuccess resp.statusCode = false := accepts_of_retries h
    have hretry : retryable resp.statusCode = true := h
    simp [completion, hfail, hretry, hnext]

/-! ## A whole run -/

/-- What the last of all POSTs leaves behind. -/
def verdict (outcomes : Nat → Outcome) : WebhookDeliveryStatus :=
  if accepts (outcomes (quota outcomes - 1)) then .succeeded else .failed

/-- More POSTs are to come. -/
structure Open (w : World) (r : Rows) (s : Line) : Prop where
  more : s.posts.length < quota w.outcomes
  numbered : WellNumbered s.rows.attempts
  rows_eq : s.rows.attempts.length = s.posts.length
  last : ∀ a, s.rows.attempts.getLast? = some a → a.status = .failed ∧
    ∃ p, s.posts.getLast? = some p ∧
      a.nextRetryAt = some (p.outcome + scheduleS.getD s.posts.length 0)
  candidate : s.rows.job.WebhookCandidate
  fire : ¬ (s.rows.job.mode = .sync ∧ s.rows.job.responseDelivered = true)
  status : s.rows.job.webhookDeliveryStatus =
    if s.posts = [] then r.job.webhookDeliveryStatus else some .pending

/-- The last POST has been sent. -/
structure Over (w : World) (s : Line) : Prop where
  posts : s.posts.length = quota w.outcomes
  status : s.rows.job.webhookDeliveryStatus = some (verdict w.outcomes)

/-- A POST comes after the outcome of the one before and the time of the
schedule. -/
def Spaced (posts : List Sent) : Prop :=
  ∀ i p q, posts[i]? = some p → posts[i + 1]? = some q →
    p.outcome + scheduleS.getD (i + 1) 0 ≤ q.sent

section Run

variable {w : World} {r : Rows} {k : Nat} {s s' : Line}

theorem tick_over (h : Over w s) (k : Nat) : tick w k s = s := by
  have hno : ¬ s.rows.job.WebhookCandidate := by
    rintro ⟨-, -, -, hstatus⟩
    rw [h.status] at hstatus
    unfold verdict at hstatus
    split at hstatus <;> simp at hstatus
  exact if_neg hno

/-- A POST leaves the job waiting for the next one, or done. -/
theorem open_or_over {p : Sent} (h : Open w r s)
    (hp : Posted w k { s with step := 2 } s' (s.posts.length + 1) (w.outcomes s.posts.length) p) :
    Open w r s' ∨ Over w s' := by
  obtain ⟨hposts, -, ⟨t, t', -, hattempts⟩, ⟨t'', hjob⟩⟩ := hp
  have hlen : s'.posts.length = s.posts.length + 1 := by simp [hposts]
  have hiff := lt_quota_iff h.more
  by_cases hmore : s.posts.length + 1 < quota w.outcomes
  · obtain ⟨hretry, h5⟩ := hiff.mp hmore
    obtain ⟨hfailed, hnext⟩ := completion_of_retries hretry h5 p.outcome
    have hpending : statusAfter (s.posts.length + 1) (w.outcomes s.posts.length) = .pending := by
      simp [statusAfter, accepts_of_retries hretry, hretry, h5]
    rw [hpending] at hjob
    refine Or.inl ⟨by omega, ?_, ?_, ?_, ?_, ?_, ?_⟩
    · rw [hattempts]
      refine wellNumbered_concat.mpr ⟨h.numbered, rfl, ?_⟩
      change s.posts.length + 1 = s.rows.attempts.length + 1
      rw [h.rows_eq]
    · rw [hattempts, List.length_append, hlen]
      exact congrArg (· + 1) h.rows_eq
    · intro a ha
      rw [hattempts, List.getLast?_concat, Option.some.injEq] at ha
      subst ha
      refine ⟨by simp [Attempt.complete, hfailed], p, by simp [hposts], ?_⟩
      rw [hlen]
      exact hnext
    · obtain ⟨hurl, hhandover, hterm, -⟩ := h.candidate
      rw [hjob]
      exact ⟨hurl, hhandover, hterm, Or.inl rfl⟩
    · rw [hjob]
      exact h.fire
    · have hne : s'.posts ≠ [] := by simp [hposts]
      rw [hjob, if_neg hne]
      rfl
  · have hquota : s.posts.length + 1 = quota w.outcomes := by
      have hlt := h.more
      omega
    refine Or.inr ⟨by omega, ?_⟩
    have hlast : ¬ (retries (w.outcomes s.posts.length) = true ∧ s.posts.length + 1 < 5) :=
      fun hretry => hmore (hiff.mpr hretry)
    have hverdict : verdict w.outcomes =
        if accepts (w.outcomes s.posts.length) then .succeeded else .failed := by
      unfold verdict
      rw [← hquota, Nat.add_sub_cancel]
    rw [hjob, hverdict]
    simp only [statusAfter, if_neg hlast]
    rfl

/-- When the next POST is due. -/
theorem due_iff (h : Open w r s) : Due w k s ↔
    ∀ p, s.posts.getLast? = some p →
      p.outcome + scheduleS.getD s.posts.length 0 ≤ w.clock.time k 1 := by
  constructor
  · intro hdue p hp
    have hne : s.rows.attempts ≠ [] := by
      intro hnil
      have hlen := h.rows_eq
      rw [hnil, List.length_nil] at hlen
      rw [List.length_eq_zero_iff.mp hlen.symm] at hp
      cases hp
    have hlast := List.getLast?_eq_some_getLast hne
    obtain ⟨-, q, hq, hnext⟩ := h.last _ hlast
    rw [hp, Option.some.injEq] at hq
    exact hq ▸ hdue _ hlast _ hnext
  · intro hdue a ha due hnext
    obtain ⟨-, p, hp, hat⟩ := h.last a ha
    rw [hnext, Option.some.injEq] at hat
    exact hat ▸ hdue p hp

theorem spaced_concat {posts : List Sent} {p : Sent} (h : Spaced posts)
    (hp : ∀ q, posts.getLast? = some q → q.outcome + scheduleS.getD posts.length 0 ≤ p.sent) :
    Spaced (posts ++ [p]) := by
  intro i q q' hq hq'
  have hi : i + 1 < posts.length + 1 := by
    simpa using (List.getElem?_eq_some_iff.mp hq').1
  rw [List.getElem?_append_left (by omega)] at hq
  by_cases hlast : i + 1 < posts.length
  · rw [List.getElem?_append_left hlast] at hq'
    exact h i q q' hq hq'
  · have hlen : posts.length = i + 1 := by omega
    rw [← hlen, List.getElem?_concat_length, Option.some.injEq] at hq'
    have hgetLast : posts.getLast? = some q := by
      rw [List.getLast?_eq_getElem?, hlen]
      exact hq
    have h := hp q hgetLast
    rw [hq', hlen] at h
    exact h

theorem open_congr (h : Open w r s) (hrows : s'.rows = s.rows) (hposts : s'.posts = s.posts) :
    Open w r s' := by
  obtain ⟨rows, posts, step⟩ := s
  obtain ⟨rows', posts', step'⟩ := s'
  subst hrows hposts
  exact ⟨h.more, h.numbered, h.rows_eq, h.last, h.candidate, h.fire, h.status⟩

/-- A tick sends at most one POST, and none before it is due. -/
theorem tick_open (h : Open w r s) (k : Nat) :
    (¬ Due w k s → (tick w k s).posts = s.posts ∧ Open w r (tick w k s)) ∧
    (Due w k s → (∃ p, (tick w k s).posts = s.posts ++ [p] ∧ w.clock.time k 1 ≤ p.sent) ∧
      (Open w r (tick w k s) ∨ Over w (tick w k s))) := by
  have h5 : s.rows.attempts.length < 5 := by
    have hlt := h.more
    have hle := quota_le w.outcomes
    rw [h.rows_eq]
    omega
  obtain ⟨hwait, hsend⟩ := tick_candidate (k := k) h.candidate h.fire h.numbered
    (fun a ha => (h.last a ha).1) h5
  constructor
  · intro hdue
    obtain ⟨hrows, hposts⟩ := hwait hdue
    exact ⟨hposts, open_congr h hrows hposts⟩
  · intro hdue
    obtain ⟨p, hp⟩ := hsend hdue
    rw [h.rows_eq] at hp
    have hsent := hp.sent
    have hwithin := w.clock.within k 1
    exact ⟨⟨p, hp.posts, hwithin.trans hsent⟩, open_or_over h hp⟩

/-- What holds before every tick. -/
structure Good (w : World) (r : Rows) (s : Line) : Prop where
  stage : Open w r s ∨ Over w s
  spaced : Spaced s.posts

theorem good_tick (h : Good w r s) (k : Nat) :
    Good w r (tick w k s) ∧ s.posts <+: (tick w k s).posts := by
  obtain ⟨hopen | hover, hspaced⟩ := h
  · obtain ⟨hwait, hsend⟩ := tick_open hopen k
    by_cases hdue : Due w k s
    · obtain ⟨⟨p, hposts, hsent⟩, hstage⟩ := hsend hdue
      refine ⟨⟨hstage, ?_⟩, hposts ▸ List.prefix_append _ _⟩
      rw [hposts]
      exact spaced_concat hspaced fun q hq => ((due_iff hopen).mp hdue q hq).trans hsent
    · obtain ⟨hposts, hopen⟩ := hwait hdue
      rw [← hposts] at hspaced ⊢
      exact ⟨⟨Or.inl hopen, hspaced⟩, List.prefix_refl _⟩
  · rw [tick_over hover]
    exact ⟨⟨Or.inr hover, hspaced⟩, List.prefix_refl _⟩

end Run

section Main

variable {w : World} {r : Rows}

theorem good_run (hcand : r.job.WebhookCandidate)
    (hfire : ¬ (r.job.mode = .sync ∧ r.job.responseDelivered = true)) (hfresh : r.attempts = []) :
    ∀ k, Good w r (run w r k)
  | 0 => by
    refine ⟨Or.inl ⟨quota_pos _, ?_, ?_, ?_, hcand, hfire, rfl⟩, ?_⟩
    · exact hfresh ▸ wellNumbered_nil
    · exact congrArg List.length hfresh
    · intro a ha
      rw [show (run w r 0).rows.attempts = [] from hfresh] at ha
      cases ha
    · intro i p q hp
      simp [run] at hp
  | k + 1 => (good_tick (good_run hcand hfire hfresh k) k).1

theorem posts_grow (hgood : ∀ k, Good w r (run w r k)) {k k' : Nat} (h : k ≤ k') :
    (run w r k).posts <+: (run w r k').posts := by
  induction k', h using Nat.le_induction with
  | base => exact List.prefix_refl _
  | succ k' _ ih => exact ih.trans (good_tick (hgood k') k').2

theorem Clock.time_mono (c : Clock) {k k' : Nat} (h : k ≤ k') : c.time k 0 ≤ c.time k' 0 :=
  monotone_nat_of_le_succ (fun k => c.between k 0) h

/-- The clock passes every due time, so the next POST comes. -/
theorem next_post (hgood : ∀ k, Good w r (run w r k)) (k : Nat)
    (hmore : (run w r k).posts.length < quota w.outcomes) :
    ∃ k', (run w r k).posts.length < (run w r k').posts.length := by
  let due := match (run w r k).posts.getLast? with
    | none => 0
    | some p => p.outcome + scheduleS.getD (run w r k).posts.length 0
  obtain ⟨k₀, hk₀⟩ := w.clock.unbounded due
  obtain ⟨k', hk, hk'⟩ : ∃ k', k ≤ k' ∧ k₀ ≤ k' := ⟨max k k₀, le_max_left _ _, le_max_right _ _⟩
  have hprefix := posts_grow hgood hk
  rcases Nat.lt_or_eq_of_le hprefix.length_le with hlt | heq
  · exact ⟨k', hlt⟩
  have hposts := hprefix.eq_of_length heq
  refine ⟨k' + 1, ?_⟩
  have hopen : Open w r (run w r k') := by
    rcases (hgood k').stage with hopen | hover
    · exact hopen
    · have hdone := hover.posts
      omega
  have hdue : Due w k' (run w r k') := by
    refine (due_iff hopen).mpr fun p hp => ?_
    have hlast : due = p.outcome + scheduleS.getD (run w r k).posts.length 0 := by
      simp only [due]
      rw [hposts, hp]
    rw [← hposts, ← hlast]
    exact (hk₀.trans (w.clock.time_mono hk')).trans (w.clock.within k' 0)
  obtain ⟨p, hsent, -⟩ := ((tick_open hopen k').2 hdue).1
  change _ < (tick w k' (run w r k')).posts.length
  rw [hsent, List.length_append, ← heq]
  simp

theorem all_posts (hgood : ∀ k, Good w r (run w r k)) :
    ∀ n ≤ quota w.outcomes, ∃ k, n ≤ (run w r k).posts.length
  | 0, _ => ⟨0, Nat.zero_le _⟩
  | n + 1, hn => by
    obtain ⟨k, hk⟩ := all_posts hgood n (by omega)
    by_cases hmore : n + 1 ≤ (run w r k).posts.length
    · exact ⟨k, hmore⟩
    · obtain ⟨k', hk'⟩ := next_post hgood k (by omega)
      exact ⟨k', by omega⟩

/-- The receiver's outcomes alone say how many POSTs there are. Each comes after
the outcome of the one before and the time of the schedule. The job is pending
until the last one, whose outcome decides for good. -/
theorem deliveries_follow_the_outcomes (w : World) (r : Rows) (hcand : r.job.WebhookCandidate)
    (hfire : ¬ (r.job.mode = .sync ∧ r.job.responseDelivered = true))
    (hfresh : r.attempts = []) :
    (∃ k₀, ∀ k, k₀ ≤ k → (run w r k).posts.length = quota w.outcomes) ∧
    (∀ k, (run w r k).posts <+: (run w r (k + 1)).posts ∧
      (run w r k).posts.length ≤ quota w.outcomes) ∧
    (∀ k, Spaced (run w r k).posts) ∧
    (∀ k, (run w r k).posts.length < quota w.outcomes →
      (run w r k).rows.job.webhookDeliveryStatus =
        if (run w r k).posts = [] then r.job.webhookDeliveryStatus else some .pending) ∧
    (∀ k, (run w r k).posts.length = quota w.outcomes →
      (run w r k).rows.job.webhookDeliveryStatus =
        some (if accepts (w.outcomes (quota w.outcomes - 1)) then .succeeded else .failed)) := by
  have hgood := good_run (w := w) hcand hfire hfresh
  have hle : ∀ k, (run w r k).posts.length ≤ quota w.outcomes := by
    intro k
    rcases (hgood k).stage with hopen | hover
    · exact hopen.more.le
    · exact hover.posts.le
  refine ⟨?_, fun k => ⟨(good_tick (hgood k) k).2, hle k⟩, fun k => (hgood k).spaced, ?_, ?_⟩
  · obtain ⟨k₀, hk₀⟩ := all_posts hgood (quota w.outcomes) (Nat.le_refl _)
    refine ⟨k₀, fun k hk => ?_⟩
    have hlen := (posts_grow hgood hk).length_le
    have hbound := hle k
    omega
  · intro k hmore
    rcases (hgood k).stage with hopen | hover
    · exact hopen.status
    · have hdone := hover.posts
      omega
  · intro k hdone
    rcases (hgood k).stage with hopen | hover
    · have hmore := hopen.more
      omega
    · exact hover.status

end Main

/-! ## Two receivers -/

/-- A completed job that nothing has been sent for. -/
def completedRows : Rows where
  job := { (delivery.hookedSubmission .async).row "gen_1" 0 with
    status := .completed
    webhookHandover := true }
  attempts := []
  log := []

/-- A tick for every minute. -/
def minutes : Clock where
  time k _ := 60 * k
  within k j := Nat.le_refl _
  between k j := by omega
  unbounded t := ⟨t, by omega⟩

/-- It is down for one POST. -/
def recovering : World where
  sign := delivery.smallSign
  secret := "s"
  uuid _ _ := "u"
  outcomes n := .ok ⟨if n = 0 then 503 else 204, ""⟩
  clock := minutes

/-- Two POSTs, and a success for good. -/
theorem deliveries_follow_the_outcomes_recovering :
    ∃ k₀, ∀ k, k₀ ≤ k →
      (run recovering completedRows k).posts.length = 2 ∧
        (run recovering completedRows k).rows.job.webhookDeliveryStatus = some .succeeded := by
  have hcand : completedRows.job.WebhookCandidate := by decide
  have hfire : ¬ (completedRows.job.mode = .sync ∧ completedRows.job.responseDelivered = true) := by
    decide
  have hquota : quota recovering.outcomes = 2 := by decide
  obtain ⟨⟨k₀, hk₀⟩, -, -, -, hdone⟩ :=
    deliveries_follow_the_outcomes recovering completedRows hcand hfire rfl
  refine ⟨k₀, fun k hk => ?_⟩
  have hlen := hk₀ k hk
  have hstatus := hdone k hlen
  rw [hquota] at hlen hstatus
  exact ⟨hlen, hstatus⟩

/-- The first tick waits a second for the write lock before it completes the
attempt. -/
def waiting : Clock where
  time
    | 0, j => if j ≤ 10 then 100 else 101
    | k + 1, _ => 160 + k
  within k j := by
    cases k with
    | zero => dsimp only; split <;> split <;> omega
    | succ k => exact Nat.le_refl _
  between k j := by
    cases k with
    | zero => dsimp only; split <;> omega
    | succ k => dsimp only; omega
  unbounded t := ⟨t + 1, by dsimp only; omega⟩

def down : World where
  sign := delivery.smallSign
  secret := "s"
  uuid _ _ := "u"
  outcomes _ := .error "timed out"
  clock := waiting

/-- `next_retry_at` reads the clock before `complete_attempt` does. So the next
POST can come before `completed_at` and the time of the schedule. -/
theorem a_post_before_completed_at : ∃ (w : World) (r : Rows) (k : Nat) (a : Attempt) (t : Nat)
    (q : Sent), r.job.WebhookCandidate ∧
      ¬ (r.job.mode = .sync ∧ r.job.responseDelivered = true) ∧ r.attempts = [] ∧
      (run w r k).rows.attempts[0]? = some a ∧ a.completedAt = some t ∧
      (run w r k).posts[1]? = some q ∧ q.sent < t + scheduleS.getD 1 0 := by
  have hcompleted : ((run down completedRows 2).rows.attempts[0]?.bind (·.completedAt)) =
      some 101 := by
    decide +kernel
  have hpost : (run down completedRows 2).posts[1]? = some ⟨160, 160⟩ := by decide +kernel
  obtain ⟨a, ha, hat⟩ := Option.bind_eq_some_iff.mp hcompleted
  exact ⟨down, completedRows, 2, a, 101, ⟨160, 160⟩, by decide, by decide, rfl, ha, hat, hpost,
    by decide⟩

end image_gen.retry_machine

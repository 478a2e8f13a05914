-- Whether a pass moves a pending job. It does unless the fifth attempt is the
-- latest and was left without a success: there is no sixth row to insert.
import ImageGen.DeliveryAttempts

namespace image_gen.delivery_progress

open image_gen.coroutine image_gen.job_store image_gen.dispatcher image_gen.delivery
open image_gen.delivery_attempts

/-! ## One execution -/

/-- The answers of the world come one after the other. -/
def execAll (inputs : Nat → Input) (op : Op) (s : Rows × Nat) : Except Exc op.Ans × (Rows × Nat) :=
  ((exec (inputs s.2) op s.1).1, ((exec (inputs s.2) op s.1).2, s.2 + 1))

/-- `_process_one` from its first operation to its end, whether it returns or raises. -/
def runPass (sign : Signer) (inputs : Nat → Input) (c : Cell) : Rows :=
  ((processOne sign c.job).run (execAll inputs) (c.rows, 0)).2.1

def latestNumber (r : Rows) : Nat :=
  match r.latest with
  | none => 0
  | some a => a.attemptN

/-- The latest attempt may be tried again by every clock that the pass reads. -/
def Due (r : Rows) (inputs : Nat → Input) : Prop :=
  ∀ a, r.latest = some a → ∀ due, a.nextRetryAt = some due → ∀ n, due ≤ (inputs n).now

def Ended (status : Option WebhookDeliveryStatus) : Prop :=
  status = some .succeeded ∨ status = some .failed ∨ status = some .suppressed

def Progress (r r' : Rows) : Prop :=
  Ended r'.job.webhookDeliveryStatus ∨ latestNumber r < latestNumber r'

/-- Attempt 5 is the latest, it is not recorded as succeeded, and the pass has
nothing to suppress. -/
def UsedUp (c : Cell) : Prop :=
  ¬ (c.job.mode = .sync ∧ c.job.responseDelivered = true) ∧
    ∃ a, c.rows.latest = some a ∧ a.attemptN = 5 ∧ a.status ≠ .succeeded

/-! ## Numbers only grow -/

def numbers (r : Rows) : List Nat := r.attempts.map (·.attemptN)

theorem le_latestNumber {r : Rows} {n : Nat} (h : n ∈ numbers r) : n ≤ latestNumber r := by
  obtain ⟨a, ha, rfl⟩ := List.mem_map.mp h
  unfold latestNumber Rows.latest
  rcases hmax : r.attempts.argmax (·.attemptN) with _ | m <;> rw [hmax]
  · rw [List.argmax_eq_none.mp hmax] at ha
    cases ha
  · exact List.le_of_mem_argmax ha hmax

theorem latestNumber_mem {r : Rows} (h : latestNumber r ≠ 0) : latestNumber r ∈ numbers r := by
  unfold latestNumber at h ⊢
  split at h
  · exact absurd rfl h
  · rename_i a ha
    exact List.mem_map.mpr ⟨a, List.argmax_mem ha, rfl⟩

theorem latestNumber_congr {r r' : Rows} (h : numbers r' = numbers r) :
    latestNumber r' = latestNumber r := by
  apply Nat.le_antisymm
  · by_cases h0 : latestNumber r' = 0
    · omega
    · exact le_latestNumber (h ▸ latestNumber_mem h0)
  · by_cases h0 : latestNumber r = 0
    · omega
    · exact le_latestNumber (h.symm ▸ latestNumber_mem h0)

theorem numbers_updateAttempt (attempts : List Attempt) (id : Nat) (f : Attempt → Attempt)
    (hf : ∀ a, (f a).attemptN = a.attemptN) :
    (updateAttempt attempts id f).map (·.attemptN) = attempts.map (·.attemptN) := by
  unfold updateAttempt
  rw [List.map_map]
  refine List.map_congr_left fun a _ => ?_
  by_cases h : a.id = id <;> simp [h, hf]

/-- No operation takes a number back. -/
theorem mem_numbers_exec {inp : Input} {op : Op} {r : Rows} {n : Nat} (h : n ∈ numbers r) :
    n ∈ numbers (exec inp op r).2 := by
  cases op with
  | completeAttempt id c =>
    unfold numbers
    simp only [exec]
    rw [numbers_updateAttempt]
    · exact h
    · exact fun _ => rfl
  | setAttemptDelivering id =>
    unfold numbers
    simp only [exec]
    rw [numbers_updateAttempt]
    · exact h
    · exact fun _ => rfl
  | createAttempt attemptN retryAt =>
    simp only [exec]
    split
    · unfold numbers
      rw [List.map_append]
      exact List.mem_append_left _ h
    · exact h
  | _ => exact h

/-! ## Running a pass -/

variable {inputs : Nat → Input}

theorem run_ask (op : Op) (s : Rows × Nat) :
    (ask op).run (execAll inputs) s = execAll inputs op s := Co.run_call _ op s

/-- What was numbered stays numbered to the end. -/
theorem mem_numbers_run {α : Type} (p : Prog α) {s : Rows × Nat} {n : Nat} (h : n ∈ numbers s.1) :
    n ∈ numbers (p.run (execAll inputs) s).2.1 := by
  have hkept : ∀ op (s : Rows × Nat), True → n ∈ numbers s.1 →
      n ∈ numbers (execAll inputs op s).2.1 := fun op s _ hs => mem_numbers_exec hs
  exact Co.run_of_all hkept (Co.all_of_forall (fun _ => trivial) p) h

/-- A sixth row is refused, and the pass ends where it stands. -/
theorem run_attemptDelivery_sixth (sign : Signer) (job : Job) (url : String) {attemptN : Nat}
    (h : 5 < attemptN) (s : Rows × Nat) :
    ((attemptDelivery sign job url attemptN).run (execAll inputs) s).2.1 = s.1 := by
  have hcreate : (createAttempt attemptN).run (execAll inputs) s =
      (.error .integrity, (s.1, s.2 + 1)) := by
    have hrange : ¬ (1 ≤ attemptN ∧ attemptN ≤ 5) := by omega
    unfold createAttempt
    rw [run_ask]
    simp only [execAll, exec, if_neg hrange]
  unfold attemptDelivery
  rw [Co.run_bind_error _ hcreate]

variable (inputs) in
theorem run_attemptDelivery_next (sign : Signer) (job : Job) (url : String) {attemptN : Nat}
    (h1 : 1 ≤ attemptN) (h5 : attemptN ≤ 5) (s : Rows × Nat) :
    attemptN ∈ numbers ((attemptDelivery sign job url attemptN).run (execAll inputs) s).2.1 := by
  let a := newAttempt s.1 attemptN none (inputs s.2).now
  have hcreate : (createAttempt attemptN).run (execAll inputs) s =
      (.ok a, ({ s.1 with attempts := s.1.attempts ++ [a] }, s.2 + 1)) := by
    unfold createAttempt
    rw [run_ask]
    simp only [execAll, exec, if_pos (And.intro h1 h5)]
    rfl
  unfold attemptDelivery
  rw [Co.run_bind_ok _ hcreate]
  refine mem_numbers_run _ ?_
  exact List.mem_map.mpr ⟨a, List.mem_append_right _ (List.mem_singleton.mpr rfl), rfl⟩

theorem run_settleLatest_succeeded {a : Attempt} (h : a.status = .succeeded) (now : Nat)
    (s : Rows × Nat) :
    (settleLatest now (some a)).run (execAll inputs) s = (.ok false,
      ({ s.1 with job := s.1.job.setWebhookDeliveryStatus .succeeded (inputs s.2).now },
        s.2 + 1)) := by
  simp only [settleLatest, h]
  exact Co.run_bind_ok _ (run_ask _ s)

/-- Nothing holds the pass back but a success or a retry time ahead. -/
theorem run_settleLatest_go {latest : Option Attempt} {now : Nat}
    (hsucc : ∀ a, latest = some a → a.status ≠ .succeeded)
    (hdue : ∀ a, latest = some a → ∀ due, a.nextRetryAt = some due → due ≤ now)
    (s : Rows × Nat) :
    ∃ s', (settleLatest now latest).run (execAll inputs) s = (.ok true, s') ∧
      numbers s'.1 = numbers s.1 ∧
      s'.1.job.webhookDeliveryStatus = s.1.job.webhookDeliveryStatus := by
  rcases latest with _ | a
  · exact ⟨s, rfl, rfl, rfl⟩
  have hstale : ∀ c, ∃ s', (do completeAttempt a.id c; return true : Prog Bool).run
        (execAll inputs) s = (.ok true, s') ∧ numbers s'.1 = numbers s.1 ∧
      s'.1.job.webhookDeliveryStatus = s.1.job.webhookDeliveryStatus := fun c =>
    ⟨_, Co.run_bind_ok _ (run_ask _ s), numbers_updateAttempt s.1.attempts a.id _ fun _ => rfl, rfl⟩
  rcases hs : a.status
  · simp only [settleLatest, hs]
    rcases hretry : a.nextRetryAt with _ | due
    · exact hstale _
    · have hdue := hdue a rfl due hretry
      exact ⟨s, by simp [hdue], rfl, rfl⟩
  · simp only [settleLatest, hs]
    rcases hretry : a.nextRetryAt with _ | due
    · exact hstale _
    · have hdue := hdue a rfl due hretry
      exact ⟨s, by simp [hdue], rfl, rfl⟩
  · exact absurd hs (hsucc a rfl)
  · simp only [settleLatest, hs]
    rcases hretry : a.nextRetryAt with _ | due
    · exact ⟨s, rfl, rfl, rfl⟩
    · have hdue := hdue a rfl due hretry
      exact ⟨s, by simp [hdue], rfl, rfl⟩

/-! ## Progress -/

theorem run_settled (inputs : Nat → Input) {sign : Signer} {job : Job} {url : String}
    (hurl : job.webhookUrl = some url)
    (hfire : ¬ (job.mode = .sync ∧ job.responseDelivered = true)) (r : Rows) :
    (processOne sign job).run (execAll inputs) (r, 0) =
      (do
        let go ← settleLatest (inputs 1).now r.latest
        if go then
          attemptDelivery sign job url (latestNumber r + 1)
        else pure ()).run (execAll inputs) (r, 2) := by
  have hlatest : getLatestAttempt.run (execAll inputs) (r, 0) = (.ok r.latest, (r, 1)) :=
    run_ask _ _
  have hnow : readNow.run (execAll inputs) (r, 1) = (.ok (inputs 1).now, (r, 2)) := run_ask _ _
  unfold processOne
  rw [hurl]
  dsimp only
  rw [if_neg hfire, Co.run_bind_ok _ hlatest, Co.run_bind_ok _ hnow]
  unfold latestNumber
  rcases r.latest <;> rfl

theorem latestNumber_eq {r : Rows} {a : Attempt} (h : r.latest = some a) :
    latestNumber r = a.attemptN := by
  unfold latestNumber
  rw [h]

theorem at_most_five {c : Cell} (h : Lawful (fun _ _ => False) c.rows) :
    latestNumber c.rows ≤ 5 := by
  obtain ⟨k, hk, hnumbers⟩ := h.numbered
  by_cases h0 : latestNumber c.rows = 0
  · omega
  · have hmem := latestNumber_mem h0
    unfold numbers at hmem
    rw [hnumbers, List.mem_range'_1] at hmem
    omega

/-- A pass over a due candidate moves the job unless its attempts are used up.
In the other case nothing moves it any more. -/
theorem a_due_pass_makes_progress {sign : Signer} {labels : List Label} {cells : List Cell}
    (hrun : runs.exec (step sign) [] labels = some cells) {c : Cell} (hc : c ∈ cells)
    (hcand : c.job.WebhookCandidate) (inputs : Nat → Input) (hdue : Due c.rows inputs) :
    Progress c.rows (runPass sign inputs c) ↔ ¬ UsedUp c := by
  have hfive := at_most_five (numbers_and_successes_hold hrun c hc)
  obtain ⟨hurl, -, -, hstatus⟩ := hcand
  obtain ⟨url, hurl⟩ := Option.ne_none_iff_exists'.mp hurl
  by_cases hfire : c.job.mode = .sync ∧ c.job.responseDelivered = true
  · have hsuppressed : Progress c.rows (runPass sign inputs c) := by
      unfold runPass processOne
      rw [hurl]
      dsimp only
      rw [if_pos hfire]
      exact Or.inl (Or.inr (Or.inr rfl))
    exact iff_of_true hsuppressed fun h => h.1 hfire
  have hpass : runPass sign inputs c = _ :=
    congrArg (fun result => result.2.1) (run_settled inputs hurl hfire c.rows)
  by_cases hsucc : ∃ a, c.rows.latest = some a ∧ a.status = .succeeded
  · obtain ⟨a, ha, hs⟩ := hsucc
    have hsucceeded : Progress c.rows (runPass sign inputs c) := by
      rw [hpass, ha, Co.run_bind_ok _ (run_settleLatest_succeeded hs _ _)]
      exact Or.inl (Or.inl rfl)
    refine iff_of_true hsucceeded ?_
    rintro ⟨-, b, hb, -, hne⟩
    rw [ha] at hb
    cases hb
    exact hne hs
  · have hne : ∀ a, c.rows.latest = some a → a.status ≠ .succeeded :=
      fun a ha hs => hsucc ⟨a, ha, hs⟩
    obtain ⟨s, hsettle, hnumbers, hkept⟩ :=
      run_settleLatest_go hne (fun a ha due hretry => hdue a ha due hretry 1) (c.rows, 2)
    rw [hpass, Co.run_bind_ok _ hsettle]
    simp only [if_true]
    by_cases hless : latestNumber c.rows < 5
    · have hmem := run_attemptDelivery_next inputs sign c.job url
        (Nat.le_add_left 1 (latestNumber c.rows)) hless s
      refine iff_of_true (Or.inr (le_latestNumber hmem)) ?_
      rintro ⟨-, a, ha, hn, -⟩
      rw [latestNumber_eq ha] at hless
      omega
    · have hsixth : 5 < latestNumber c.rows + 1 := by omega
      rw [run_attemptDelivery_sixth sign c.job url hsixth s]
      refine iff_of_false ?_ (not_not_intro ⟨hfire, ?_⟩)
      · rintro (hended | hgrows)
        · rw [hkept] at hended
          change Ended c.job.webhookDeliveryStatus at hended
          unfold Ended at hended
          rcases hstatus with hst | hst <;> rw [hst] at hended <;> simp at hended
        · rw [latestNumber_congr hnumbers] at hgrows
          exact absurd hgrows (Nat.lt_irrefl _)
      · rcases hlatest : c.rows.latest with _ | a
        · unfold latestNumber at hless
          rw [hlatest] at hless
          exact absurd (by decide : 0 < 5) hless
        · have hn := latestNumber_eq hlatest
          exact ⟨a, rfl, by omega, hne a hlatest⟩

theorem the_first_pass_moves_the_job :
    let run := runs.exec (step smallSign) [] leftAlone
    (run.getD []).length = 1 ∧
      ∀ c ∈ run.getD [], Progress c.rows (runPass smallSign (fun _ => smallInput 9 200) c) := by
  intro run
  have hrun : run = some (run.getD []) := by rfl
  refine ⟨by rfl, fun c hc => ?_⟩
  have hcell := List.mem_singleton.mp hc
  have hcand : c.job.WebhookCandidate := by
    rw [hcell]
    decide
  have hlatest : c.rows.latest = none := by
    rw [hcell]
    rfl
  have hdue : Due c.rows fun _ => smallInput 9 200 := fun a ha => by simp [hlatest] at ha
  refine (a_due_pass_makes_progress hrun hc hcand _ hdue).mpr ?_
  rintro ⟨-, a, ha, -⟩
  simp [hlatest] at ha

/-- The posts raise an exception that is no `httpx.HTTPError`, as a header value
that is not ASCII does. -/
def unencodable (now : Nat) : Input where
  now := now
  allows := .ok true
  secret := some "s"
  uuid := "u"
  response := .error (.other "'ascii' codec can't encode character")

/-- Five passes, each of which raises at its POST. -/
def fiveRaise : List Label :=
  leftAlone ++ onePass 10 (unencodable 4) ++ onePass 11 (unencodable 5) ++
    onePass 11 (unencodable 6) ++ onePass 11 (unencodable 7) ++ onePass 11 (unencodable 8)

theorem five_raising_passes_leave_a_dead_job :
    ∃ cells c, runs.exec (step smallSign) [] fiveRaise = some cells ∧ c ∈ cells ∧
      c.dispatch.isNone = true ∧ c.job.WebhookCandidate ∧ (∀ inputs, Due c.rows inputs) ∧
      ¬ Progress c.rows (runPass smallSign (fun _ => smallInput 9 200) c) := by
  refine ⟨_, _, rfl, List.mem_singleton.mpr rfl, rfl, by decide, ?_, ?_⟩
  · intro inputs a ha due hretry
    cases ha
    cases hretry
  · unfold Progress Ended
    decide

end image_gen.delivery_progress

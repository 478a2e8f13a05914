-- The protocol of the attempts: at most five, numbered without a gap, and
-- nothing is sent after a success or a final failure. A pass may be cut off
-- after any of its commits, so each half-recorded state is met by the next pass.
import ImageGen.AttemptLedger

namespace image_gen.delivery_attempts

open image_gen.coroutine image_gen.job_store image_gen.dispatcher
open image_gen.delivery image_gen.attempt_ledger

/-! ## Final outcomes -/

/-- The codes of a final failure: a redirect, or a client error but 429. -/
def RefusedCode (code : Nat) : Prop :=
  (300 ≤ code ∧ code ≤ 399) ∨ (400 ≤ code ∧ code ≤ 499 ∧ code ≠ 429)

/-- What makes a failure final whatever the number of the attempt. -/
def Refused (statusCode : Option Nat) (errorCode : Option String) : Prop :=
  (∃ code, statusCode = some code ∧ RefusedCode code) ∨
    errorCode = some "webhook_ssrf_blocked" ∨ errorCode = some "webhook_signing_error"

/-- What the laws below ask of a notion of refusal: none of the failures that
the dispatcher tries again is one. -/
structure Refusal (R : Option Nat → Option String → Prop) : Prop where
  network : ¬ R none none
  restart : ¬ R none (some "webhook_dispatcher_restart")
  retry : ∀ code, retryable code = true →
    ¬ R (some code) (if isRedirect code then some "webhook_redirect" else none)

theorem refusal_refused : Refusal Refused where
  network := by
    rintro (⟨code, h, -⟩ | h | h) <;> cases h
  restart := by
    rintro (⟨code, h, -⟩ | h | h)
    · cases h
    · revert h; decide
    · revert h; decide
  retry code h := by
    have hcode : code = 429 ∨ (500 ≤ code ∧ code ≤ 599) := by simpa [retryable] using h
    have hredirect : isRedirect code = false := by
      simp only [isRedirect, decide_eq_false_iff_not]
      omega
    rw [hredirect]
    rintro (⟨code', h', hrefused⟩ | h' | h')
    · cases h'
      unfold RefusedCode at hrefused
      omega
    · cases h'
    · cases h'

theorem refusal_never : Refusal fun _ _ => False := ⟨id, id, fun _ _ => id⟩

section Protocol

variable (R : Option Nat → Option String → Prop)

/-- A record after which nothing is sent. -/
def Settles (n : Nat) (c : Completion) : Prop :=
  c.succeeded = true ∨ n = 5 ∨ R c.statusCode c.errorCode

def Settled : Event → Prop
  | .posted => False
  | .recorded n c => Settles R n c

/-- Nothing is sent after a final record. -/
def Quiet (log : List Event) : Prop := log.Pairwise fun e e' => Settled R e → e' ≠ .posted

/-- The attempt has not been completed. -/
def Open (a : Attempt) : Prop := a.status = .pending ∨ a.status = .delivering

/-- The row shows the record. -/
def Shows (a : Attempt) (c : Completion) : Prop :=
  a.status = (if c.succeeded then .succeeded else .failed) ∧ a.statusCode = c.statusCode ∧
    a.errorCode = c.errorCode

/-- The window between the two commits of a final failure: the attempt row has
it, the job does not. -/
def HalfRecorded (l : Ledger) : Prop :=
  (l.status = some .pending ∨ l.status = none) ∧
    ∃ a, l.attempts.getLast? = some a ∧ a.status = .failed ∧ a.attemptN < 5 ∧
      R a.statusCode a.errorCode

structure Core (l : Ledger) : Prop where
  numbered : WellNumbered l.attempts
  at_most_five : l.attempts.length ≤ 5
  clean : ∀ a, l.attempts.getLast? = some a → Open a →
    a.statusCode = none ∧ a.errorCode = none ∧ a.nextRetryAt = none
  quiet : Quiet R l.log
  /-- A final record is the one of the last attempt. -/
  settled : ∀ n c, .recorded n c ∈ l.log → Settles R n c →
    ∃ a, l.attempts.getLast? = some a ∧ a.attemptN = n ∧ Shows a c

/-- Between two passes. -/
structure Idle (l : Ledger) : Prop where
  core : Core R l
  whole : ¬ HalfRecorded R l

/-- The last attempt is open. -/
structure Opened (id n : Nat) (l : Ledger) : Prop where
  core : Core R l
  last : ∃ a, l.attempts.getLast? = some a ∧ a.id = id ∧ a.attemptN = n ∧ Open a

variable {R}

theorem not_settled_of_opened {id n : Nat} {l : Ledger} (h : Opened R id n l) :
    ∀ e ∈ l.log, ¬ Settled R e := by
  obtain ⟨hcore, a, hlast, -, -, hopen⟩ := h
  rintro (_ | ⟨m, c⟩) he hs
  · exact hs
  · obtain ⟨b, hb, -, hshows, -⟩ := hcore.settled m c he hs
    rw [hlast] at hb
    cases hb
    rcases hopen with h | h <;> rw [h] at hshows <;> split at hshows <;> cases hshows

theorem idle_of_opened {id n : Nat} {l : Ledger} (h : Opened R id n l) : Idle R l := by
  refine ⟨h.core, ?_⟩
  rintro ⟨-, b, hb, hfailed, -⟩
  obtain ⟨-, a, hlast, -, -, hopen⟩ := h
  rw [hlast] at hb
  cases hb
  rcases hopen with h | h <;> rw [h] at hfailed <;> cases hfailed

/-! ## What the writes do -/

theorem quiet_append {log : List Event} {e : Event} (h : Quiet R log)
    (he : e ≠ .posted ∨ ∀ e' ∈ log, ¬ Settled R e') : Quiet R (log ++ [e]) := by
  refine List.pairwise_append.mpr ⟨h, List.pairwise_singleton _ _, fun e' he' e'' he'' hs => ?_⟩
  rw [List.mem_singleton.mp he'']
  rcases he with he | he
  · exact he
  · exact absurd hs (he e' he')

theorem core_status {l : Ledger} (h : Core R l) (status : Option WebhookDeliveryStatus) :
    Core R { l with status := status } := ⟨h.numbered, h.at_most_five, h.clean, h.quiet, h.settled⟩

/-- The next attempt: nothing final may stand in the log. -/
theorem opened_create {l : Ledger} (h : Core R l) (hsettled : ∀ e ∈ l.log, ¬ Settled R e)
    {a : Attempt} (hid : a.id = l.attempts.length) (hn : a.attemptN = l.attempts.length + 1)
    (hfive : a.attemptN ≤ 5) (hopen : Open a)
    (hclean : a.statusCode = none ∧ a.errorCode = none ∧ a.nextRetryAt = none) :
    Opened R a.id a.attemptN { l with attempts := l.attempts ++ [a] } := by
  refine ⟨⟨wellNumbered_concat.mpr ⟨h.numbered, hid, hn⟩, ?_, fun b hb _ => ?_, h.quiet, ?_⟩,
    a, List.getLast?_concat, rfl, rfl, hopen⟩
  · rw [List.length_append, List.length_singleton]
    omega
  · rw [List.getLast?_concat] at hb
    cases hb
    exact hclean
  · exact fun n c he hs => absurd hs (hsettled _ he)

theorem opened_posted {id n : Nat} {l : Ledger} (h : Opened R id n l) :
    Opened R id n { l with log := l.log ++ [.posted] } := by
  have hsettled := not_settled_of_opened h
  obtain ⟨hcore, hlast⟩ := h
  refine ⟨⟨hcore.numbered, hcore.at_most_five, hcore.clean,
    quiet_append hcore.quiet (Or.inr hsettled), fun m c he hs => ?_⟩, hlast⟩
  rcases List.mem_append.mp he with he | he
  · exact hcore.settled m c he hs
  · cases List.mem_singleton.mp he

theorem exec_setAttemptDelivering {id n : Nat} {rows : Rows} (inp : Input)
    (h : Opened R id n (ledger rows)) :
    Opened R id n (ledger (exec inp (.setAttemptDelivering id) rows).2) := by
  obtain ⟨hcore, a, hlast, rfl, hn, hopen⟩ := h
  obtain ⟨init, hattempts⟩ := List.getLast?_eq_some_iff.mp hlast
  have hattempts : rows.attempts = init ++ [a] := hattempts
  have hnum : WellNumbered (init ++ [a]) := hattempts ▸ hcore.numbered
  have hnum' := wellNumbered_concat.mp hnum
  have hrow : updateAttempt rows.attempts a.id (fun a => { a with status := .delivering }) =
      init ++ [{ a with status := .delivering }] := by
    rw [hattempts, updateAttempt_last hnum]
  simp only [exec, ledger, hrow]
  refine ⟨⟨?_, ?_, fun b hb _ => ?_, hcore.quiet, fun m c he hs => ?_⟩,
    _, List.getLast?_concat, rfl, hn, Or.inr rfl⟩
  · exact wellNumbered_concat.mpr ⟨hnum'.1, hnum'.2.1, hnum'.2.2⟩
  · have hlen := hcore.at_most_five
    rw [show (ledger rows).attempts = init ++ [a] from hattempts] at hlen
    simpa using hlen
  · rw [List.getLast?_concat] at hb
    cases hb
    exact hcore.clean a hlast hopen
  · exact absurd hs (not_settled_of_opened ⟨hcore, a, hlast, rfl, hn, hopen⟩ _ he)

/-- The last attempt shows the record. -/
def Closed (R : Option Nat → Option String → Prop) (n : Nat) (c : Completion) (l : Ledger) : Prop :=
  Core R l ∧ (∃ a, l.attempts.getLast? = some a ∧ a.attemptN = n ∧ Shows a c) ∧
    ∀ e ∈ l.log, Settled R e → e = .recorded n c

theorem exec_completeAttempt {id n : Nat} {rows : Rows} (inp : Input) (c : Completion)
    (h : Opened R id n (ledger rows)) :
    Closed R n c (ledger (exec inp (.completeAttempt id c) rows).2) := by
  have hsettled := not_settled_of_opened h
  obtain ⟨hcore, a, hlast, rfl, rfl, hopen⟩ := h
  obtain ⟨init, hattempts⟩ := List.getLast?_eq_some_iff.mp hlast
  have hattempts : rows.attempts = init ++ [a] := hattempts
  have hnum : WellNumbered (init ++ [a]) := hattempts ▸ hcore.numbered
  have hnum' := wellNumbered_concat.mp hnum
  have hrow : updateAttempt rows.attempts a.id (Attempt.complete c inp.now) =
      init ++ [a.complete c inp.now] := by
    rw [hattempts, updateAttempt_last hnum]
  have hrecord : ((rows.attempts.filter fun b => b.id = a.id).map fun b =>
      Event.recorded b.attemptN c) = [.recorded a.attemptN c] := by
    rw [hattempts, filter_last hnum]
    rfl
  simp only [exec, ledger, hrow, hrecord]
  have hshows : Shows (a.complete c inp.now) c := ⟨rfl, rfl, rfl⟩
  have hsame : ∀ e ∈ rows.log ++ [.recorded a.attemptN c], Settled R e →
      e = .recorded a.attemptN c := by
    intro e he hs
    rcases List.mem_append.mp he with he | he
    · exact absurd hs (hsettled e he)
    · exact List.mem_singleton.mp he
  refine ⟨⟨?_, ?_, fun b hb hopenb => ?_, quiet_append hcore.quiet (Or.inl (by simp)),
    fun m c' he hs => ?_⟩, ⟨_, List.getLast?_concat, rfl, hshows⟩, hsame⟩
  · exact wellNumbered_concat.mpr ⟨hnum'.1, hnum'.2.1, hnum'.2.2⟩
  · have hlen := hcore.at_most_five
    rw [show (ledger rows).attempts = init ++ [a] from hattempts] at hlen
    simpa using hlen
  · rw [List.getLast?_concat] at hb
    cases hb
    have hst : (a.complete c inp.now).status = .succeeded ∨
        (a.complete c inp.now).status = .failed := by
      unfold Attempt.complete
      rcases c.succeeded <;> simp
    rcases hopenb with h | h <;> rw [h] at hst <;> simp at hst
  · cases hsame _ he hs
    exact ⟨_, List.getLast?_concat, rfl, hshows⟩

/-- A recorded failure that may be tried again is no window. -/
theorem not_half_of_closed {n : Nat} {c : Completion} {l : Ledger} (h : Closed R n c l)
    (hc : c.succeeded = true ∨ n = 5 ∨ ¬ R c.statusCode c.errorCode) : ¬ HalfRecorded R l := by
  obtain ⟨-, ⟨a, hlast, rfl, hstatus, hcode, herror⟩, -⟩ := h
  rintro ⟨-, b, hb, hfailed, hn, hR⟩
  rw [hlast] at hb
  cases hb
  rw [hcode, herror] at hR
  rcases hc with hs | hfive | hc
  · rw [hfailed, hs] at hstatus
    cases hstatus
  · omega
  · exact hc hR

theorem idle_status {l : Ledger} (h : Core R l) {status : WebhookDeliveryStatus}
    (hs : status ≠ .pending) : Idle R { l with status := some status } := by
  refine ⟨core_status h _, ?_⟩
  rintro ⟨hp | hp, -⟩
  · cases hp
    exact hs rfl
  · cases hp

/-! ## A pass -/

variable {α β : Type}

/-- One operation of a pass: it is run, or it raises outside the window. -/
def Step (R : Option Nat → Option String → Prop) (op : Op) (l : Ledger) (r : Except Exc op.Ans)
    (l' : Ledger) : Prop :=
  (∃ inp rows, ledger rows = l ∧ (exec inp op rows).1 = r ∧ ledger (exec inp op rows).2 = l') ∨
    (¬ HalfRecorded R l ∧ l' = l ∧ ∃ message, r = .error (.other message))

/-- A pass that raises leaves an idle ledger. -/
def Ends (R : Option Nat → Option String → Prop) (A : α → Ledger → Prop) :
    Except Exc α → Ledger → Prop
  | .ok a, l => A a l
  | .error _, l => Idle R l

/-- The pass keeps the core after each of its commits. -/
def Pass (R : Option Nat → Option String → Prop) (p : Prog α) (A : α → Ledger → Prop)
    (l : Ledger) : Prop :=
  p.Holds (Step R) (Core R) (Ends R A) l

theorem pass_bind {p : Prog α} {f : α → Prog β} {A : β → Ledger → Prop} {l : Ledger}
    (h : Pass R p (fun a => Pass R (f a) A) l) : Pass R (p >>= f) A l := by
  refine Co.holds_bind (h.mono ?_)
  rintro (e | a) l' h
  · exact h
  · exact h

theorem pass_ask {op : Op} {A : op.Ans → Ledger → Prop} {l : Ledger} (hcore : Core R l)
    (h : ∀ inp rows, ledger rows = l → Core R (ledger (exec inp op rows).2) ∧
      Ends R A (exec inp op rows).1 (ledger (exec inp op rows).2)) : Pass R (ask op) A l := by
  refine Co.holds_call op l ?_
  rintro r l' (⟨inp, rows, hl, rfl, rfl⟩ | ⟨hwhole, rfl, message, rfl⟩)
  · exact h inp rows hl
  · exact ⟨hcore, hcore, hwhole⟩

/-- An operation that writes nothing. -/
theorem pass_read {op : Op} {A : op.Ans → Ledger → Prop} {l : Ledger} (hidle : Idle R l)
    (hread : ∀ inp rows, (exec inp op rows).2 = rows)
    (h : ∀ inp rows a, ledger rows = l → (exec inp op rows).1 = .ok a → A a l) :
    Pass R (ask op) A l := by
  refine pass_ask hidle.core fun inp rows hl => ?_
  rw [hread, hl]
  refine ⟨hidle.core, ?_⟩
  rcases hr : (exec inp op rows).1 with e | a
  · exact hidle
  · exact h inp rows a hl hr

theorem pass_setStatus {l : Ledger} (hcore : Core R l) {status : WebhookDeliveryStatus}
    (h : status ≠ .pending ∨ ¬ HalfRecorded R { l with status := some .pending }) :
    Pass R (setWebhookDeliveryStatus status) (fun _ => Idle R) l := by
  refine pass_ask hcore fun inp rows hl => ?_
  subst hl
  refine ⟨core_status hcore _, ?_⟩
  by_cases hs : status = .pending
  · subst hs
    exact ⟨core_status hcore _, h.resolve_left fun hne => hne rfl⟩
  · exact idle_status hcore hs

theorem pass_recordFailure {id n : Nat} {c : Completion} {l : Ledger} (h : Opened R id n l)
    (hc : c.nextRetryAt = none ∨ ¬ R c.statusCode c.errorCode) :
    Pass R (recordFailure id c) (fun _ => Idle R) l := by
  refine pass_bind (pass_ask h.core fun inp rows hl => ?_)
  subst hl
  have hclosed := exec_completeAttempt inp c h
  refine ⟨hclosed.1, pass_setStatus hclosed.1 ?_⟩
  by_cases hretry : c.nextRetryAt = none
  · rw [if_pos hretry]
    exact Or.inl (by decide)
  · have hpending : Closed R n c
        { ledger (exec inp (.completeAttempt id c) rows).2 with status := some .pending } :=
      ⟨core_status hclosed.1 _, hclosed.2⟩
    exact Or.inr (not_half_of_closed hpending (Or.inr (Or.inr (hc.resolve_left hretry))))

theorem pass_tryPost {id n : Nat} {l : Ledger} (h : Opened R id n l) (request : Request) :
    Pass R (tryPost request) (fun _ => Opened R id n) l := by
  refine Co.holds_tryCatch (Co.holds_bind (Co.holds_call _ _ ?_))
  rintro r l' (⟨inp, rows, rfl, rfl, rfl⟩ | ⟨hwhole, rfl, message, rfl⟩)
  · have hposted := opened_posted h
    refine ⟨hposted.core, ?_⟩
    rcases (exec inp (.post request) rows).1 with (message | message | _) | response
    · exact hposted
    · exact idle_of_opened hposted
    · exact idle_of_opened hposted
    · exact hposted
  · exact ⟨h.core, idle_of_opened h⟩

theorem pass_recordOutcome (hR : Refusal R) {n : Nat} {attempt : Attempt} {l : Ledger}
    (h : Opened R attempt.id n l) (outcome : Except String Response) :
    Pass R (recordOutcome attempt n outcome) (fun _ => Idle R) l := by
  have hidle := idle_of_opened h
  cases outcome with
  | error message =>
    refine pass_bind (pass_read hidle (fun _ _ => rfl) fun _ _ now _ _ => ?_)
    exact pass_recordFailure h (Or.inr hR.network)
  | ok resp =>
    simp only [recordOutcome]
    split
    · refine pass_bind (pass_ask h.core fun inp rows hl => ?_)
      subst hl
      have hclosed := exec_completeAttempt inp
        { succeeded := true, statusCode := some resp.statusCode
          responseBodySnippet := some (snippet resp.text) } h
      exact ⟨hclosed.1, pass_setStatus hclosed.1 (Or.inl (by decide))⟩
    · refine pass_bind (pass_read hidle (fun _ _ => rfl) fun _ _ now _ _ => ?_)
      refine pass_recordFailure h ?_
      by_cases hretry : retryable resp.statusCode = true
      · exact Or.inr (hR.retry _ hretry)
      · exact Or.inl (by simp [hretry])

/-- No final record stands in the log, unless the attempts are used up. -/
def Unsettled (R : Option Nat → Option String → Prop) (l : Ledger) : Prop :=
  l.attempts.length < 5 → ∀ e ∈ l.log, ¬ Settled R e

theorem pass_createAttempt {l : Ledger} (hidle : Idle R l) (hsettled : Unsettled R l) :
    Pass R (createAttempt (l.attempts.length + 1))
      (fun a => Opened R a.id (l.attempts.length + 1)) l := by
  refine pass_ask hidle.core fun inp rows hl => ?_
  subst hl
  have hlen : (ledger rows).attempts.length = rows.attempts.length := rfl
  simp only [exec]
  split
  · rename_i hfive
    let a := newAttempt rows (rows.attempts.length + 1) none inp.now
    have hopened : Opened R a.id a.attemptN
        { ledger rows with attempts := (ledger rows).attempts ++ [a] } :=
      opened_create hidle.core (hsettled (by omega)) rfl rfl hfive.2 (Or.inl rfl)
        ⟨rfl, rfl, rfl⟩
    exact ⟨hopened.core, hopened⟩
  · exact ⟨hidle.core, hidle⟩

theorem pass_buildRequest {sign : Signer} {id n : Nat} {l : Ledger} (h : Opened R id n l)
    (job : Job) (url secret : String) :
    Pass R (buildRequest sign job url secret) (fun _ => Opened R id n) l := by
  have hidle := idle_of_opened h
  refine pass_bind (pass_read hidle (fun _ _ => rfl) fun _ _ created _ _ => ?_)
  refine pass_bind (pass_read hidle (fun _ _ => rfl) fun _ _ ts _ _ => ?_)
  refine pass_bind (pass_read hidle (fun _ _ => rfl) fun _ _ deliveryId _ _ => ?_)
  exact h

theorem pass_attemptDelivery (hR : Refusal R) {sign : Signer} {l : Ledger} (hidle : Idle R l)
    (hsettled : Unsettled R l) (job : Job) (url : String) :
    Pass R (attemptDelivery sign job url (l.attempts.length + 1)) (fun _ => Idle R) l := by
  refine pass_bind (Co.Holds.mono (pass_createAttempt hidle hsettled) ?_)
  rintro (e | attempt) l' h
  · exact h
  have h : Opened R attempt.id (l.attempts.length + 1) l' := h
  have hdelivering : Pass R (setAttemptDelivering attempt.id)
      (fun _ => Opened R attempt.id (l.attempts.length + 1)) l' := by
    refine pass_ask h.core fun inp rows hl => ?_
    subst hl
    have hopened := exec_setAttemptDelivering inp h
    exact ⟨hopened.core, hopened⟩
  refine pass_bind (Co.Holds.mono hdelivering ?_)
  rintro (e | u) l' h
  · exact h
  have h : Opened R attempt.id (l.attempts.length + 1) l' := h
  have hidle := idle_of_opened h
  refine pass_bind (pass_read hidle (fun _ _ => rfl) fun _ _ allowed _ _ => ?_)
  cases allowed with
  | false => exact pass_recordFailure h (Or.inl rfl)
  | true =>
    refine pass_bind (pass_read hidle (fun _ _ => rfl) fun _ _ secret _ _ => ?_)
    cases secret with
    | none => exact pass_recordFailure h (Or.inl rfl)
    | some secret =>
      refine pass_bind (Co.Holds.mono (pass_buildRequest h job url secret) ?_)
      rintro (e | request) l' h
      · exact h
      refine pass_bind (Co.Holds.mono (pass_tryPost h request) ?_)
      rintro (e | outcome) l' h
      · exact h
      exact pass_recordOutcome hR h outcome

theorem unsettled_of_last {l : Ledger} (h : Core R l)
    (hlast : ∀ a, l.attempts.getLast? = some a → a.attemptN < 5 → a.status ≠ .succeeded ∧
      (a.status = .failed → ¬ R a.statusCode a.errorCode)) : Unsettled R l := by
  rintro hlen (_ | ⟨n, c⟩) he hs
  · exact hs
  obtain ⟨a, ha, rfl, hstatus, hcode, herror⟩ := h.settled n c he hs
  have hn : a.attemptN < 5 := by
    obtain ⟨init, hinit⟩ := List.getLast?_eq_some_iff.mp ha
    have hnum := wellNumbered_concat.mp (hinit ▸ h.numbered)
    rw [hinit, List.length_append, List.length_singleton] at hlen
    omega
  obtain ⟨hsucc, hfail⟩ := hlast a ha hn
  rcases hs with hs | hs | hs
  · rw [hs] at hstatus
    exact hsucc hstatus
  · omega
  · rcases hc : c.succeeded with _ | _ <;> rw [hc] at hstatus
    · exact hfail hstatus (hcode ▸ herror ▸ hs)
    · exact hsucc hstatus

/-- The stale attempt of a pass that died. -/
theorem pass_stale (hR : Refusal R) {l : Ledger} {a : Attempt}
    (h : Opened R a.id a.attemptN l) {c : Completion} (hsucc : c.succeeded = false)
    (hcode : c.statusCode = none) (herror : c.errorCode = some "webhook_dispatcher_restart") :
    Pass R (completeAttempt a.id c)
      (fun _ l' => Idle R l' ∧ l'.attempts.length = l.attempts.length ∧ Unsettled R l') l := by
  refine pass_ask h.core fun inp rows hl => ?_
  subst hl
  have hclosed := exec_completeAttempt inp c h
  have hnot : ¬ R c.statusCode c.errorCode := by
    rw [hcode, herror]
    exact hR.restart
  refine ⟨hclosed.1, ⟨hclosed.1, not_half_of_closed hclosed (Or.inr (Or.inr hnot))⟩, ?_, ?_⟩
  · simp [exec, ledger, updateAttempt]
  · refine unsettled_of_last hclosed.1 fun b hb _ => ?_
    obtain ⟨-, ⟨b', hb', -, hstatus, hcode', herror'⟩, -⟩ := hclosed
    rw [hb'] at hb
    cases hb
    rw [hsucc] at hstatus
    refine ⟨by simp [hstatus], fun _ => ?_⟩
    rw [hcode', herror']
    exact hnot

/-- What becomes of the latest attempt: the pass goes on only where nothing
final was recorded, or the numbers are used up. -/
theorem pass_settleLatest (hR : Refusal R) {l : Ledger} (hidle : Idle R l)
    (hstatus : l.status = some .pending ∨ l.status = none) (now : Nat) :
    Pass R (settleLatest now l.attempts.getLast?)
      (fun go l' => Idle R l' ∧ (go = true → l'.attempts.length = l.attempts.length ∧
        Unsettled R l')) l := by
  have hfailed : ∀ a, l.attempts.getLast? = some a → a.status = .failed → Unsettled R l := by
    intro a ha hst
    refine unsettled_of_last hidle.core fun b hb hn => ?_
    rw [ha] at hb
    cases hb
    exact ⟨by simp [hst], fun _ hr => hidle.whole ⟨hstatus, a, ha, hst, hn, hr⟩⟩
  have hstale : ∀ a, l.attempts.getLast? = some a → Open a → ∀ c : Completion,
      c.succeeded = false → c.statusCode = none →
      c.errorCode = some "webhook_dispatcher_restart" →
      Pass R (do completeAttempt a.id c; return true)
        (fun go l' => Idle R l' ∧ (go = true → l'.attempts.length = l.attempts.length ∧
          Unsettled R l')) l := by
    intro a ha hopen c hsucc hcode herror
    have hopened : Opened R a.id a.attemptN l := ⟨hidle.core, a, ha, rfl, rfl, hopen⟩
    refine pass_bind (Co.Holds.mono (pass_stale hR hopened hsucc hcode herror) ?_)
    rintro (e | u) l' h
    · exact h
    · exact ⟨h.1, fun _ => h.2⟩
  rcases hlast : l.attempts.getLast? with _ | a
  · refine ⟨hidle, fun _ => ⟨rfl, unsettled_of_last hidle.core fun b hb => ?_⟩⟩
    rw [hlast] at hb
    cases hb
  · have hclean := hidle.core.clean a hlast
    rcases hs : a.status <;> simp only [settleLatest, hs]
    · obtain ⟨hcode, herror, hretry⟩ := hclean (Or.inl hs)
      simp only [hretry]
      exact hstale a hlast (Or.inl hs) _ rfl hcode (by simp [herror])
    · obtain ⟨hcode, herror, hretry⟩ := hclean (Or.inr hs)
      simp only [hretry]
      exact hstale a hlast (Or.inr hs) _ rfl hcode (by simp [herror])
    · refine pass_bind (Co.Holds.mono (pass_setStatus hidle.core (Or.inl (by decide))) ?_)
      rintro (e | u) l' h
      · exact h
      · exact ⟨h, fun hgo => by cases hgo⟩
    · rcases a.nextRetryAt with _ | due
      · exact ⟨hidle, fun _ => ⟨rfl, hfailed a hlast hs⟩⟩
      · exact ⟨hidle, fun _ => ⟨rfl, hfailed a hlast hs⟩⟩

theorem attemptN_last {l : Ledger} (h : Core R l) :
    (match l.attempts.getLast? with
      | none => 1
      | some a => a.attemptN + 1) = l.attempts.length + 1 := by
  rcases List.eq_nil_or_concat' l.attempts with hnil | ⟨init, a, hinit⟩
  · simp [hnil]
  · have hnum := wellNumbered_concat.mp (hinit ▸ h.numbered)
    rw [hinit, List.getLast?_concat, List.length_append, List.length_singleton]
    exact congrArg (· + 1) hnum.2.2

theorem pass_processOne (hR : Refusal R) {sign : Signer} {l : Ledger} (hidle : Idle R l)
    (hstatus : l.status = some .pending ∨ l.status = none) (job : Job) :
    Pass R (processOne sign job) (fun _ => Idle R) l := by
  unfold processOne
  split
  · exact hidle
  · rename_i url hurl
    split
    · exact pass_setStatus hidle.core (Or.inl (by decide))
    · refine pass_bind (pass_read hidle (fun _ _ => rfl) fun inp rows latest hl hlatest => ?_)
      have hlatest : latest = l.attempts.getLast? := by
        subst hl
        rw [← hidle.core.numbered.argmax]
        cases hlatest
        rfl
      subst hlatest
      refine pass_bind (pass_read hidle (fun _ _ => rfl) fun _ _ now _ _ => ?_)
      refine pass_bind (Co.Holds.mono (pass_settleLatest hR hidle hstatus now) ?_)
      rintro (e | go) l' h
      · exact h
      cases go with
      | false => exact h.1
      | true =>
        obtain ⟨hlen, hunsettled⟩ := h.2 rfl
        have hnext := attemptN_last hidle.core
        rw [← hlen] at hnext
        have hpass : Pass R (attemptDelivery sign job url (l'.attempts.length + 1))
            (fun _ => Idle R) l' := pass_attemptDelivery hR h.1 hunsettled job url
        rw [← hnext] at hpass
        exact hpass

/-! ## Every run -/

structure Orderly (R : Option Nat → Option String → Prop) (c : Cell) : Prop where
  core : Core R (ledger c.rows)
  idle : c.dispatch = none → Idle R (ledger c.rows)
  pass : ∀ p, c.dispatch = some p → Pass R p (fun _ => Idle R) (ledger c.rows)

/-- No operation raises in the window of a final failure. -/
def RaisesWhole (R : Option Nat → Option String → Prop) (c : Cell) : Act → Prop
  | .dispatchRaises _ => ¬ HalfRecorded R (ledger c.rows)
  | _ => True

/-- No crash strikes in the window of a final failure. -/
def CrashesWhole (R : Option Nat → Option String → Prop) (c : Cell) : Prop :=
  ¬ HalfRecorded R (ledger c.rows)

theorem core_empty (status : Option WebhookDeliveryStatus) : Core R ⟨[], [], status⟩ where
  numbered := wellNumbered_nil
  at_most_five := Nat.zero_le 5
  clean a h := by cases h
  quiet := List.Pairwise.nil
  settled n c h := by cases h

theorem orderly_created (r : requests.Submission) (binary : Bool) (id : String) (now : Nat) :
    Orderly R (created r binary id now) where
  core := core_empty _
  idle _ := by
    refine ⟨core_empty _, ?_⟩
    rintro ⟨-, a, ha, -⟩
    cases ha
  pass p h := by cases h

theorem orderly_crash {c : Cell} (hc : Orderly R c) (hok : CrashesWhole R c) :
    Orderly R (crash c) where
  core := hc.core
  idle _ := ⟨hc.core, hok⟩
  pass p h := by cases h

theorem orderly_move {c c' : Cell} {m : Move} (hc : Orderly R c) (h : move c m = some c') :
    Orderly R c' := by
  have hg := grows_move h
  have hledger : ledger c'.rows = ledger c.rows := by
    have hstatus : c'.rows.job.webhookDeliveryStatus = c.rows.job.webhookDeliveryStatus :=
      hg.delivery_status
    unfold ledger
    rw [hg.attempts, hg.log, hstatus]
  refine ⟨hledger ▸ hc.core, fun hd => hledger ▸ hc.idle ?_, fun p hp => hledger ▸ hc.pass p ?_⟩
  · exact hg.dispatch ▸ hd
  · exact hg.dispatch ▸ hp

/-- A pass after one of its operations. -/
theorem orderly_inFlight {c : Cell} {rows : Rows} {p : Prog Unit} (hcore : Core R (ledger rows))
    (hp : Pass R p (fun _ => Idle R) (ledger rows)) :
    Orderly R { c with rows := rows, dispatch := inFlight p } := by
  cases p with
  | ret u => exact ⟨hcore, fun _ => hp, fun q hq => by cases hq⟩
  | raise e => exact ⟨hcore, fun _ => hp, fun q hq => by cases hq⟩
  | await op k =>
    refine ⟨hcore, fun h => (by cases h), fun q hq => ?_⟩
    cases hq
    exact hp

theorem orderly_next (hR : Refusal R) {sign : Signer} {c c' : Cell} {a : Act} (hc : Orderly R c)
    (hok : RaisesWhole R c a) (h : next sign c a = some c') : Orderly R c' := by
  cases a with
  | move m => exact orderly_move hc h
  | tick =>
    simp only [next, Option.ite_none_right_eq_some, Option.some.injEq] at h
    obtain ⟨⟨hnone, hcand⟩, rfl⟩ := h
    have hidle := hc.idle (Option.isNone_iff_eq_none.mp hnone)
    exact orderly_inFlight hc.core (pass_processOne hR hidle hcand.2.2.2 c.job)
  | dispatch inp =>
    simp only [next] at h
    split at h
    · rename_i op k hd
      simp only [Option.ite_none_right_eq_some, Option.some.injEq] at h
      obtain ⟨-, rfl⟩ := h
      have hstep : Step R op (ledger c.rows) (exec inp op c.rows).1
          (ledger (exec inp op c.rows).2) := Or.inl ⟨inp, c.rows, rfl, rfl, rfl⟩
      obtain ⟨hcore, hrest⟩ := hc.pass _ hd _ _ hstep
      exact orderly_inFlight hcore hrest
    · cases h
  | dispatchRaises message =>
    simp only [next] at h
    split at h
    · rename_i op k hd
      cases h
      have hstep : Step R op (ledger c.rows) (.error (.other message)) (ledger c.rows) :=
        Or.inr ⟨hok, rfl, message, rfl⟩
      obtain ⟨hcore, hrest⟩ := hc.pass _ hd _ _ hstep
      exact orderly_inFlight hcore hrest
    · cases h

/-- The laws of the attempts. -/
structure Lawful (R : Option Nat → Option String → Prop) (rows : Rows) : Prop where
  /-- The attempts are numbered 1 .. k, and there are at most five. -/
  numbered : ∃ k ≤ 5, rows.attempts.map (·.attemptN) = List.range' 1 k
  /-- Nothing is sent after a success, the failure of the fifth attempt or a refusal. -/
  quiet : rows.log.Pairwise fun e e' => Settled R e → e' ≠ .posted

theorem lawful_of_core {rows : Rows} (h : Core R (ledger rows)) : Lawful R rows where
  numbered := ⟨rows.attempts.length, h.at_most_five, h.numbered.map_attemptN⟩
  quiet := h.quiet

theorem lawful_of_run (hR : Refusal R) {sign : Signer} {labels : List Label} {cells : List Cell}
    (hok : runs.AllSteps (step sign) (Guarded (RaisesWhole R) (CrashesWhole R)) [] labels)
    (hrun : runs.exec (step sign) [] labels = some cells) : ∀ c ∈ cells, Lawful R c.rows := by
  have hall : ∀ c ∈ cells, Orderly R c :=
    cells_invariant orderly_created (fun _ _ _ => orderly_next hR) (fun _ => orderly_crash) hok hrun
  exact fun c hc => lawful_of_core (hall c hc).core

end Protocol

/-- Numbers, successes and the fifth attempt need no condition: no crash and no
failed write breaks these laws. -/
theorem numbers_and_successes_hold {sign : Signer} {labels : List Label} {cells : List Cell}
    (hrun : runs.exec (step sign) [] labels = some cells) :
    ∀ c ∈ cells, Lawful (fun _ _ => False) c.rows := by
  refine lawful_of_run refusal_never (runs.allSteps_of_forall labels ?_ []) hrun
  have hwhole : ∀ l, ¬ HalfRecorded (fun _ _ => False) l := by
    rintro l ⟨-, a, -, -, -, hno⟩
    exact hno
  rintro (_ | ⟨i, a⟩ | _) - cells
  · trivial
  · intro c _
    cases a <;> first | trivial | exact hwhole _
  · exact fun c _ => hwhole _

/-- In every run in which nothing strikes between the two commits of a final
failure, the attempts keep the whole protocol. -/
theorem the_attempts_keep_the_protocol {sign : Signer} {labels : List Label} {cells : List Cell}
    (hok : runs.AllSteps (step sign) (Guarded (RaisesWhole Refused) (CrashesWhole Refused)) []
      labels)
    (hrun : runs.exec (step sign) [] labels = some cells) : ∀ c ∈ cells, Lawful Refused c.rows :=
  lawful_of_run refusal_refused hok hrun

/-- A 503 is recorded, the process dies before the job has it, and the next pass
ends with a 404. -/
def triedAgain : List Label :=
  (leftAlone ++ onePass 12 (smallInput 4 503)) ++
    (.crash :: .at 0 (.move .scan) :: onePass 13 (smallInput 100 404))

/-- The label is neither a crash nor an operation that raises. -/
def plain : Label → Bool
  | .crash => false
  | .at _ (.dispatchRaises _) => false
  | _ => true

theorem guarded_of_plain {labels : List Label} (h : labels.all plain = true) (cells : List Cell) :
    runs.AllSteps (step smallSign) (Guarded (RaisesWhole Refused) (CrashesWhole Refused)) cells
      labels := by
  refine runs.allSteps_of_forall labels (fun l hl cells => ?_) cells
  have hplain := List.all_eq_true.mp h l hl
  rcases l with _ | ⟨i, a⟩ | _
  · trivial
  · intro c _
    cases a <;> trivial
  · cases hplain

theorem a_retry_after_a_crash_is_lawful :
    let run := runs.exec (step smallSign) [] triedAgain
    (run.getD []).map (fun c => c.rows.attempts.map (·.attemptN)) = [[1, 2]] ∧
      ∀ c ∈ run.getD [], Lawful Refused c.rows := by
  intro run
  have hrun : run = some (run.getD []) := by rfl
  have hcrash : ∀ cells,
      runs.exec (step smallSign) [] (leftAlone ++ onePass 12 (smallInput 4 503)) = some cells →
      ∀ c ∈ cells, CrashesWhole Refused c := by
    rintro _ ⟨⟩ c hc
    rw [List.mem_singleton.mp hc]
    rintro ⟨-, a, ha, -, -, hR⟩
    cases ha
    exact refusal_refused.retry 503 (by decide) hR
  have hok : runs.AllSteps (step smallSign)
      (Guarded (RaisesWhole Refused) (CrashesWhole Refused)) [] triedAgain :=
    runs.allSteps_append (guarded_of_plain (by rfl) _) fun cells h =>
      ⟨hcrash cells h, fun _ _ => guarded_of_plain (by rfl) _⟩
  exact ⟨by rfl, the_attempts_keep_the_protocol hok hrun⟩

/-- A 404 is recorded, the process dies before the job has it, and the next pass
sends again. -/
theorem a_crash_after_a_404_posts_again :
    ∃ cells c, runs.exec (step smallSign) []
        (leftAlone ++ onePass 12 (smallInput 4 404) ++
          (.crash :: .at 0 (.move .scan) :: onePass 10 (smallInput 5 200))) = some cells ∧
      c ∈ cells ∧ (∃ record, c.rows.log = [.posted, .recorded 1 record, .posted] ∧
        Refused record.statusCode record.errorCode) ∧ ¬ Lawful Refused c.rows := by
  have hrefused : Refused (some 404) none :=
    Or.inl ⟨404, rfl, Or.inr ⟨by decide, by decide, by decide⟩⟩
  refine ⟨_, _, rfl, List.mem_singleton.mpr rfl, ⟨_, rfl, hrefused⟩, fun h => ?_⟩
  have hquiet :=
    List.rel_of_pairwise_cons (List.pairwise_cons.mp h.quiet).2 (List.mem_singleton.mpr rfl)
  exact hquiet (Or.inr (Or.inr hrefused)) rfl

end image_gen.delivery_attempts

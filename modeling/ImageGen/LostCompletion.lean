-- Whether a completion can be lost. The event comes once. A wait that listens on
-- a socket never asks `/history`, so an event that came before the wait, or while
-- no socket was up, is heard only if the socket goes down for good.
import ImageGen.WatchedProgress

namespace image_gen.lost_completion

open image_gen.runs image_gen.comfy_wait image_gen.attended_wait image_gen.watched_progress

variable {cfg : Config} {lag t : Nat} {s : State} {c : Clock}

/-! ## The schedule -/

/-- The time that a wait takes at most once it can move, where its prompt has
finished. -/
def left (cfg : Config) (lag : Nat) : Pc → Nat
  | .idle => lag
  | .signing none => 7 * lag + reconnectBackoff
  | .signing (some _) => 6 * lag + reconnectBackoff
  | .checking none => 7 * lag + reconnectBackoff
  | .checking (some _) => 6 * lag + reconnectBackoff
  | .waiting _ => 5 * lag + reconnectBackoff
  | .connecting attempts => 3 * lag + attempts * (2 * lag + reconnectBackoff)
  | .backoff _ attempts => 4 * lag + attempts * (2 * lag + reconnectBackoff)
  -- an answer from before the end leads to one more poll
  | .polling _ (some entry) =>
    if (entry.filter (·.completed)).isSome then lag else 4 * lag + cfg.pollInterval
  | .sleeping _ => 3 * lag
  | .polling _ none => 2 * lag
  | .returned => 0
  | .timedOut => 0
  | .nodeError => 0

/-- When the wait is over at the latest, as it stands. -/
def due (cfg : Config) (lag : Nat) (c : Clock) (pc : Pc) : Nat := ready lag c pc + left cfg lag pc

/-- What the schedule gives to a wait, counted from the debt of its reader. -/
def budget (cfg : Config) (lag : Nat) : Nat := 8 * lag + reconnectBackoff + cfg.pollInterval

/-- A wait on schedule, `t` being the end of its prompt. -/
structure Paced (cfg : Config) (lag : Nat) (s : State) (c : Clock) (t : Nat) : Prop where
  idle : s.pc = .idle → c.moved = t
  owed : s.pc.registered = true → c.owed ≤ t + lag
  now : s.now ≤ ready lag c s.pc + lag
  due : s.pc.registered = true → due cfg lag c s.pc ≤ c.owed + budget cfg lag
  reads : s.pc.registered = true → s.future = false → s.conn ≠ none → s.now ≤ c.owed + lag
  room : s.pc.registered = true → t + need cfg lag < s.deadline

def OnSchedule (cfg : Config) (lag : Nat) (s : State) (c : Clock) : Prop :=
  ∀ t, s.finishedAt = some t → isOver s.pc = false → Paced cfg lag s c t

theorem registered_iff (pc : Pc) : pc.registered = true ↔ pc ≠ .idle ∧ isOver pc = false := by
  cases pc <;> simp [Pc.registered, isOver]

theorem lag_le_left (cfg : Config) (lag : Nat) {pc : Pc} (h : isOver pc = false) :
    lag ≤ left cfg lag pc := by
  cases pc with
  | signing seen => cases seen <;> simp only [left] <;> omega
  | checking seen => cases seen <;> simp only [left] <;> omega
  | connecting attempts => exact Nat.le_trans (by omega) (Nat.le_add_right (3 * lag) _)
  | backoff wakeAt attempts => exact Nat.le_trans (by omega) (Nat.le_add_right (4 * lag) _)
  | polling remaining seen =>
    cases seen with
    | none => simp only [left]; omega
    | some entry =>
      simp only [left]
      split <;> omega
  | returned => cases h
  | timedOut => cases h
  | nodeError => cases h
  | _ => simp only [left]; omega

theorem Paced.congr {c' : Clock} (h : Paced cfg lag s c t) (hmoved : c'.moved = c.moved)
    (howed : c'.owed = c.owed) : Paced cfg lag s c' t := by
  obtain ⟨moved, owed, asked, shown⟩ := c
  obtain ⟨moved', owed', asked', shown'⟩ := c'
  cases hmoved
  cases howed
  exact ⟨h.idle, h.owed, h.now, h.due, h.reads, h.room⟩

/-- A wait on schedule has ended before it needs more than it may. -/
theorem Paced.soon (h : Paced cfg lag s c t) (hlive : isOver s.pc = false) :
    s.now ≤ t + need cfg lag := by
  have hnow := h.now
  unfold need
  by_cases hidle : s.pc = .idle
  · have hready : ready lag c s.pc = t := by
      rw [hidle]
      exact h.idle hidle
    omega
  · have hreg := (registered_iff s.pc).mpr ⟨hidle, hlive⟩
    have hdue := h.due hreg
    have howed := h.owed hreg
    have hlag := lag_le_left cfg lag hlive
    unfold lost_completion.due budget at hdue
    omega

theorem Paced.onTime (h : Paced cfg lag s c t) (hreg : s.pc.registered = true) :
    s.now < s.deadline :=
  Nat.lt_of_le_of_lt (h.soon ((registered_iff s.pc).mp hreg).2) (h.room hreg)

section Due

variable (cfg lag c)

theorem due_loopHead (s : State) : due cfg lag c (loopHead cfg s).pc ≤
    max c.moved (c.owed + lag) + (5 * lag + reconnectBackoff) := by
  unfold loopHead
  split
  · simp only [due, ready, left]
    omega
  · split
    · simp only [due, ready, left]
      omega
    · exact Nat.le_refl _

theorem due_pollHead (s : State) : due cfg lag c (pollHead s).pc ≤ c.moved + 2 * lag := by
  unfold pollHead
  split
  · exact Nat.le_add_right _ _
  · exact Nat.le_refl _

theorem due_ensureWs (s : State) : due cfg lag c (ensureWs cfg 1 s).pc ≤
    max c.moved (c.owed + lag) + (5 * lag + reconnectBackoff) := by
  unfold ensureWs
  split
  · exact due_loopHead cfg lag c s
  · simp only [due, ready, left]
    omega

theorem due_readerDied (h : c.moved = s.now) :
    due cfg lag c (readerDied s).pc ≤ c.moved + (4 * lag + reconnectBackoff) := by
  unfold readerDied
  split
  · have hpoll := due_pollHead cfg lag c
      { s with lastProgressAt := s.now, lastSignature := none }
    unfold startPolling
    omega
  · simp only [due, ready, left, h]
    omega

theorem due_checked (entry : Option Entry) (s : State) :
    due cfg lag c (checked cfg entry s).pc ≤
      max c.moved (c.owed + lag) + (5 * lag + reconnectBackoff) := by
  unfold checked
  dsimp only
  split
  · exact due_loopHead cfg lag c _
  · split
    · simp only [due, ready, left]
      omega
    · exact due_loopHead cfg lag c s

theorem due_polled (remaining : Nat) (entry : Option Entry) (h : c.moved = s.now) :
    due cfg lag c (polled cfg remaining entry s).pc ≤
      c.moved + left cfg lag (.polling remaining (some entry)) - lag := by
  have hleft : left cfg lag (.polling remaining (some entry)) =
      if (entry.filter (·.completed)).isSome then lag else 4 * lag + cfg.pollInterval := rfl
  rw [hleft]
  unfold polled
  rcases hdone : entry.filter (·.completed) with _ | e <;> simp only [hdone]
  · simp only [Option.isSome_none, Bool.false_eq_true, if_false]
    split
    · simp only [due, ready, left, h]
      omega
    · split
      · simp only [due, ready, left]
        omega
      · simp only [due, ready, left, h]
        omega
  · simp only [Option.isSome_some, if_true]
    rcases e.errored <;>
      simp only [due, ready, left, Bool.false_eq_true, if_false, if_true] <;>
      omega

end Due

/-! ## Own steps -/

theorem Paced.bounds {pc : Pc} (hp : Paced cfg lag s c t) (hreg : s.pc.registered = true)
    (hpc : s.pc = pc) : s.now ≤ ready lag c pc + lag ∧
      ready lag c pc + left cfg lag pc ≤ c.owed + budget cfg lag := by
  subst hpc
  exact ⟨hp.now, hp.due hreg⟩

theorem due_refused {s' : State} (hp : Paced cfg lag s c t) (hreg : s.pc.registered = true)
    (hstep : refused s = some s') :
    due cfg lag { c with moved := s.now } s'.pc ≤ c.owed + budget cfg lag := by
  unfold refused at hstep
  split at hstep
  · rename_i hpc
    cases hstep
    obtain ⟨hnow, hdue⟩ := hp.bounds hreg hpc
    have hpoll := due_pollHead cfg lag { c with moved := s.now }
      { s with lastProgressAt := s.now, lastSignature := none }
    simp only [ready, left, budget] at hnow hdue hpoll ⊢
    unfold startPolling
    omega
  · rename_i attempts hpc
    cases hstep
    obtain ⟨hnow, hdue⟩ := hp.bounds hreg hpc
    have hsplit := Nat.succ_mul attempts (2 * lag + reconnectBackoff)
    simp only [due, ready, left, budget] at hnow hdue ⊢
    omega
  · cases hstep

/-- The prompt has finished, so the server reads an entry that is complete. -/
theorem due_serve {s' : State} (hs : Sound s.now s.entry s.finishedAt)
    (hp : Paced cfg lag s c t) (hfin : s.finishedAt = some t) (hreg : s.pc.registered = true)
    (hstep : serve s = some s') :
    due cfg lag { c with moved := s.now } s'.pc ≤ c.owed + budget cfg lag := by
  obtain ⟨e, he, hc⟩ := hs.finished (by simp [hfin])
  unfold serve at hstep
  split at hstep <;> cases hstep <;> rename_i hpc <;>
    obtain ⟨hnow, hdue⟩ := hp.bounds hreg hpc
  · simp only [due, ready, left, budget] at hnow hdue ⊢
    omega
  · simp only [due, ready, left, budget] at hnow hdue ⊢
    omega
  · simp only [due, ready, left, budget, he, Option.filter_some, hc, if_true,
      Option.isSome_some] at hnow hdue ⊢
    omega

theorem due_answer {s' : State} (hp : Paced cfg lag s c t) (hreg : s.pc.registered = true)
    (hstep : answer cfg s = some s') :
    due cfg lag { c with moved := s.now } s'.pc ≤ c.owed + budget cfg lag := by
  have hlag := lag_le_left cfg lag ((registered_iff s.pc).mp hreg).2
  unfold answer at hstep
  split at hstep <;> cases hstep
  · rename_i entry hpc
    obtain ⟨hnow, hdue⟩ := hp.bounds hreg hpc
    have hensure := due_ensureWs cfg lag { c with moved := s.now }
      { s with lastSignature := progressSignature entry }
    simp only [ready, left, budget] at hnow hdue hensure ⊢
    omega
  · rename_i entry hpc
    obtain ⟨hnow, hdue⟩ := hp.bounds hreg hpc
    have hchecked := due_checked cfg lag { c with moved := s.now } entry s
    simp only [ready, left, budget] at hnow hdue hchecked ⊢
    omega
  · rename_i remaining entry hpc
    obtain ⟨hnow, hdue⟩ := hp.bounds hreg hpc
    have hpolled := due_polled cfg lag { c with moved := s.now } remaining entry rfl
    rw [hpc] at hlag
    simp only [ready, budget] at hnow hdue hpolled ⊢
    omega

theorem due_wakeWaiting {s' : State} {wakeAt : Nat} (hp : Paced cfg lag s c t)
    (hreg : s.pc.registered = true) (hpc : s.pc = .waiting wakeAt)
    (hstep : wakeWaiting cfg wakeAt s = some s') :
    due cfg lag { c with moved := s.now } s'.pc ≤ c.owed + budget cfg lag := by
  obtain ⟨hnow, hdue⟩ := hp.bounds hreg hpc
  simp only [ready, left, budget] at hnow hdue ⊢
  unfold wakeWaiting at hstep
  split at hstep
  · cases hstep
    simp only [due, ready, left]
    omega
  rename_i hfuture
  split at hstep
  · cases hstep
    have hdied := due_readerDied cfg lag { c with moved := s.now } (s := s) rfl
    simp only at hdied
    omega
  rename_i hup
  -- the reader has not come to the event yet
  have hsoon := hp.reads hreg (by simpa using hfuture) hup
  split at hstep
  · split at hstep <;> cases hstep <;> simp only [due, ready, left] <;> omega
  · cases hstep

theorem due_wake {s' : State} (hfact : Fact cfg s s.pc) (hp : Paced cfg lag s c t)
    (hreg : s.pc.registered = true) (hstep : wake cfg s = some s') :
    due cfg lag { c with moved := s.now } s'.pc ≤ c.owed + budget cfg lag := by
  unfold wake at hstep
  split at hstep
  · rename_i wakeAt hpc
    exact due_wakeWaiting hp hreg hpc hstep
  · rename_i wakeAt attempts hpc
    obtain ⟨hnow, hdue⟩ := hp.bounds hreg hpc
    rw [hpc] at hfact
    simp only [Option.ite_none_right_eq_some, Option.some.injEq] at hstep
    obtain ⟨-, rfl⟩ := hstep
    have hdown : s.conn = none := hfact.1
    unfold ensureWs
    rw [if_neg (by simp [hdown])]
    simp only [due, ready, left, budget] at hnow hdue ⊢
    omega
  · rename_i wakeAt hpc
    obtain ⟨hnow, hdue⟩ := hp.bounds hreg hpc
    simp only [Option.ite_none_right_eq_some, Option.some.injEq] at hstep
    obtain ⟨-, rfl⟩ := hstep
    have hpoll := due_pollHead cfg lag { c with moved := s.now } s
    simp only [ready, left, budget] at hnow hdue hpoll ⊢
    omega
  · cases hstep

/-- Each own step keeps the wait on schedule. -/
theorem due_own {s' : State} {l : Label} (h : Attended cfg s) (hp : Paced cfg lag s c t)
    (hfin : s.finishedAt = some t) (hreg : s.pc.registered = true)
    (hok : Attentive cfg lag (s, c) l) (hown : own l = true) (hstep : next cfg s l = some s') :
    due cfg lag { c with moved := s.now } s'.pc ≤ c.owed + budget cfg lag := by
  cases l with
  | connected =>
    have hrunning : s.finishedAt = none := hok
    rw [hfin] at hrunning
    cases hrunning
  | refused => exact due_refused hp hreg hstep
  | serve => exact due_serve h.sound hp hfin hreg hstep
  | answer => exact due_answer hp hreg hstep
  | call timeout =>
    simp only [next, Option.ite_none_right_eq_some, Option.some.injEq] at hstep
    rw [hstep.1] at hreg
    cases hreg
  | wake => exact due_wake h.fact hp hreg hstep
  | _ => cases hown

/-! ## The others -/

/-- What the clock, the backend and the reader leave alone. Only the end of the
prompt says that it has ended. -/
structure Kept (l : Label) (s s' : State) : Prop where
  pc : s'.pc = s.pc
  entry : s.finishedAt ≠ none → s'.entry = s.entry
  finishedAt : s'.finishedAt = s.finishedAt
  deadline : s'.deadline = s.deadline
  future : s'.future = false → s.future = false
  conn : s'.conn ≠ none → s.conn ≠ none
  now : (∀ dt, l ≠ .delay dt) → s'.now = s.now

theorem kept_next {s' : State} {l : Label} (hown : own l = false) (hfinish : ∀ e, l ≠ .finish e)
    (h : next cfg s l = some s') : Kept l s s' := by
  cases l with
  | delay dt =>
    cases h
    exact ⟨rfl, fun _ => rfl, rfl, rfl, id, id, fun hl => absurd rfl (hl dt)⟩
  | progress e =>
    simp only [next, Option.ite_none_right_eq_some, Option.some.injEq] at h
    obtain ⟨⟨hrunning, -⟩, rfl⟩ := h
    exact ⟨rfl, fun hfin => absurd hrunning hfin, rfl, rfl, id, id, fun _ => rfl⟩
  | finish e => exact absurd rfl (hfinish e)
  | frame f =>
    simp only [next, Option.ite_none_right_eq_some, Option.some.injEq] at h
    obtain ⟨-, rfl⟩ := h
    exact ⟨rfl, fun _ => rfl, rfl, rfl, id, fun hup hdown => hup (by simp [send, hdown]),
      fun _ => rfl⟩
  | close kept =>
    simp only [next] at h
    split at h <;> cases h
    rename_i frames hconn
    exact ⟨rfl, fun _ => rfl, rfl, rfl, id, fun _ hdown => by simp [hdown] at hconn, fun _ => rfl⟩
  | read =>
    simp only [next, wsReader] at h
    split at h <;> cases h
    rename_i f frames isOpen hconn
    refine ⟨rfl, fun _ => rfl, rfl, rfl, fun hfuture => ?_,
      fun _ hdown => by simp [hdown] at hconn, fun _ => rfl⟩
    exact (Bool.or_eq_false_iff.mp hfuture).1
  | readerEnds =>
    simp only [next, Option.ite_none_right_eq_some, Option.some.injEq] at h
    obtain ⟨-, rfl⟩ := h
    exact ⟨rfl, fun _ => rfl, rfl, rfl, id, fun hup => absurd rfl hup, fun _ => rfl⟩
  | _ => cases hown

theorem moved_le_ready (lag : Nat) (c : Clock) (pc : Pc) : c.moved ≤ ready lag c pc := by
  cases pc <;> simp only [ready] <;> omega

theorem paced_outside {s' : State} {l : Label} (hp : Paced cfg lag s c t)
    (hfin : s.finishedAt = some t) (hlive : isOver s.pc = false) (hkept : Kept l s s')
    (hok : Attentive cfg lag (s, c) l) (hstep : next cfg s l = some s') :
    Paced cfg lag s' c t := by
  have hfin' : s.finishedAt ≠ none := by simp [hfin]
  obtain ⟨hpc, -, -, hdeadline, hfuture, hconn, hnow⟩ := hkept
  have htime : s'.now ≤ ready lag c s.pc + lag ∧ (s.pc.registered = true → s.future = false →
      s.conn ≠ none → s'.now ≤ c.owed + lag) := by
    by_cases hdelay : ∃ dt, l = .delay dt
    · obtain ⟨dt, rfl⟩ := hdelay
      cases hstep
      obtain ⟨hmoves, hreads, -, -⟩ := hok
      exact ⟨hmoves hfin' hlive, hreads hfin'⟩
    · rw [hnow fun dt heq => hdelay ⟨dt, heq⟩]
      exact ⟨hp.now, hp.reads⟩
  refine ⟨?_, ?_, ?_, ?_, ?_, ?_⟩ <;> rw [hpc]
  · exact hp.idle
  · exact hp.owed
  · exact htime.1
  · exact hp.due
  · exact fun hreg hrunning hup => htime.2 hreg (hfuture hrunning) (hconn hup)
  · rw [hdeadline]
    exact hp.room

theorem paced_own {s' : State} {l : Label} (h : Attended cfg s) (hp : Paced cfg lag s c t)
    (hfin : s.finishedAt = some t) (hreg : s.pc.registered = true) (hidle : s'.pc ≠ .idle)
    (hok : Attentive cfg lag (s, c) l) (hown : own l = true) (hstep : next cfg s l = some s') :
    Paced cfg lag s' { c with moved := s'.now } t := by
  have hup : l ≠ .connected := by
    rintro rfl
    have hrunning : s.finishedAt = none := hok
    rw [hfin] at hrunning
    cases hrunning
  have hrecord := record_own hown hup hreg hstep
  simp only [record, Prod.mk.injEq] at hrecord
  obtain ⟨hnow, -, -, hconn, hfuture, hdeadline⟩ := hrecord
  refine ⟨fun heq => absurd heq hidle, fun _ => hp.owed hreg, ?_, fun _ => ?_, fun _ => ?_,
    fun _ => ?_⟩
  · have hready := moved_le_ready lag { c with moved := s'.now } s'.pc
    exact Nat.le_trans hready (Nat.le_add_right _ _)
  · rw [hnow]
    exact due_own h hp hfin hreg hok hown hstep
  · rw [hnow, hfuture, hconn]
    exact hp.reads hreg
  · rw [hdeadline]
    exact hp.room hreg

/-- A wait is on schedule when its prompt ends. -/
theorem due_finish (h : Attended cfg s) (hlive : isOver s.pc = false) :
    due cfg lag { c with moved := s.now, owed := s.now, shown := s.now } s.pc ≤
      s.now + budget cfg lag := by
  have hfact := h.fact
  unfold budget
  rcases hp : s.pc <;> rw [hp] at hfact hlive
  case signing seen => cases seen <;> simp only [due, ready, left] <;> omega
  case checking seen => cases seen <;> simp only [due, ready, left] <;> omega
  case connecting attempts =>
    have hone := Nat.mul_le_mul_right (2 * lag + reconnectBackoff) hfact.2
    simp only [due, ready, left]
    omega
  case backoff wakeAt attempts =>
    obtain ⟨-, rfl, hsoon⟩ := hfact
    simp only [due, ready, left]
    omega
  case sleeping wakeAt =>
    have hsoon : wakeAt ≤ s.now + cfg.pollInterval := hfact
    simp only [due, ready, left]
    omega
  case polling remaining seen =>
    cases seen with
    | none => simp only [due, ready, left]; omega
    | some entry =>
      simp only [due, ready, left]
      split <;> omega
  case returned => cases hlive
  case timedOut => cases hlive
  case nodeError => cases hlive
  all_goals simp only [due, ready, left]; omega

theorem due_call (timeout : Nat) :
    due cfg lag ⟨s.now, s.now, s.now, s.now⟩ (call cfg timeout s).pc ≤
    s.now + budget cfg lag := by
  unfold call budget
  split
  · simp only [due, ready, left]
    omega
  · have hensure := due_ensureWs cfg lag ⟨s.now, s.now, s.now, s.now⟩
      (register timeout s)
    simp only at hensure
    omega

theorem onSchedule_finish (h : Attended cfg s) (e : Entry)
    (hok : Attentive cfg lag (s, c) (.finish e)) :
    OnSchedule cfg lag { s with
      entry := some e
      finishedAt := some s.now
      conn := send (completion cfg.promptId) s.conn }
      { c with moved := s.now, owed := s.now, shown := s.now } := by
  intro t ht hlive
  cases ht
  refine ⟨fun _ => rfl, fun _ => Nat.le_add_right _ _, ?_, fun _ => due_finish h hlive,
    fun _ _ _ => Nat.le_add_right _ _, hok⟩
  have hready := moved_le_ready lag { c with moved := s.now, owed := s.now, shown := s.now } s.pc
  exact Nat.le_trans hready (Nat.le_add_right _ _)

theorem onSchedule_call {timeout : Nat} (hp : OnSchedule cfg lag s c) (hidle : s.pc = .idle)
    (hok : Attentive cfg lag (s, c) (.call timeout)) :
    OnSchedule cfg lag (call cfg timeout s) ⟨s.now, s.now, s.now, s.now⟩ := by
  intro t ht _
  have hrecord := record_call cfg timeout s
  simp only [record, register, Prod.mk.injEq] at hrecord
  obtain ⟨hnow, -, hfin, -, -, hdeadline⟩ := hrecord
  have hpaced := hp t (hfin ▸ ht) (by rw [hidle]; rfl)
  have hsoon := hpaced.now
  have hready : ready lag c s.pc = t := by
    rw [hidle]
    exact hpaced.idle hidle
  have hne : (call cfg timeout s).pc ≠ .idle := by
    unfold call
    split
    · exact fun h => by cases h
    · exact ensureWs_ne_idle 1 _
  refine ⟨fun heq => absurd heq hne, fun _ => ?_, ?_, fun _ => due_call timeout,
    fun _ _ _ => ?_, fun _ => ?_⟩
  · simp only
    omega
  · rw [hnow]
    have hmoved := moved_le_ready lag ⟨s.now, s.now, s.now, s.now⟩ (call cfg timeout s).pc
    exact Nat.le_trans hmoved (Nat.le_add_right _ _)
  · rw [hnow]
    exact Nat.le_add_right _ _
  · rw [hdeadline]
    exact hok t (hfin ▸ ht)

/-- An attentive step keeps the schedule. -/
theorem onSchedule_next {s' : State} {l : Label} (h : Attended cfg s)
    (hp : OnSchedule cfg lag s c) (hok : Attentive cfg lag (s, c) l)
    (hstep : next cfg s l = some s') : OnSchedule cfg lag s' (tick s l s'.now c) := by
  by_cases hfinish : ∃ e, l = .finish e
  · obtain ⟨e, rfl⟩ := hfinish
    simp only [next, Option.ite_none_right_eq_some, Option.some.injEq] at hstep
    obtain ⟨-, rfl⟩ := hstep
    exact onSchedule_finish h e hok
  by_cases hcall : ∃ timeout, l = .call timeout
  · obtain ⟨timeout, rfl⟩ := hcall
    simp only [next, Option.ite_none_right_eq_some, Option.some.injEq] at hstep
    obtain ⟨hidle, rfl⟩ := hstep
    have hrecord := record_call cfg timeout s
    have hnow : (call cfg timeout s).now = s.now := congrArg Prod.fst hrecord
    simp only [tick, hnow]
    exact onSchedule_call hp hidle hok
  intro t ht hlive
  cases hown : own l with
  | true =>
    have hcalls : ∀ timeout, l ≠ .call timeout := fun timeout heq => hcall ⟨timeout, heq⟩
    obtain ⟨hreg, hne⟩ := registered_own hown hcalls hstep
    have hup : l ≠ .connected := by
      rintro rfl
      have hrunning : s.finishedAt = none := hok
      simp only [next, connected] at hstep
      split at hstep <;> cases hstep
      have hrecord := record_loopHead cfg { s with conn := some ⟨[], true⟩ }
      simp only [record, Prod.mk.injEq] at hrecord
      rw [hrecord.2.2.1, hrunning] at ht
      cases ht
    have hrecord := record_own hown hup hreg hstep
    simp only [record, Prod.mk.injEq] at hrecord
    have hfin : s.finishedAt = some t := hrecord.2.2.1 ▸ ht
    have hpaced := hp t hfin ((registered_iff s.pc).mp hreg).2
    rw [tick_own hown hcalls]
    exact (paced_own h hpaced hfin hreg hne hok hown hstep).congr rfl rfl
  | false =>
    have hkept := kept_next hown (fun e heq => hfinish ⟨e, heq⟩) hstep
    have hfin : s.finishedAt = some t := hkept.finishedAt ▸ ht
    have hbefore : isOver s.pc = false := hkept.pc ▸ hlive
    have hpaced := paced_outside (hp t hfin hbefore) hfin hbefore hkept hok hstep
    cases l with
    | progress e =>
      simp only [tick]
      split
      · exact hpaced
      · exact hpaced.congr rfl rfl
    | finish e => exact absurd ⟨e, rfl⟩ hfinish
    | _ => first | exact hpaced | cases hown

/-! ## Runs -/

/-- What holds in every state of an attentive run. -/
structure Good (cfg : Config) (lag : Nat) (x : State × Clock) : Prop where
  attended : Attended cfg x.1
  onSchedule : OnSchedule cfg lag x.1 x.2
  watched : ∀ timeout, cfg.stallTimeout = some timeout → Watched lag timeout x.1 x.2

theorem good_start (isUp : Bool) : Good cfg lag (timedStart isUp) := by
  refine ⟨⟨⟨?_, ?_, ?_⟩, rfl, fun h => absurd rfl h⟩, fun t ht => ?_,
    fun timeout _ => watched_start isUp timeout⟩
  · intro t h
    cases h
  · intro h
    exact absurd rfl h
  · intro e h
    cases h
  · cases ht

theorem Good.soon {x : State × Clock} (h : Good cfg lag x) (ht : x.1.finishedAt = some t)
    (hlive : isOver x.1.pc = false) : x.1.now ≤ t + need cfg lag :=
  (h.onSchedule t ht hlive).soon hlive

theorem Good.spared {x : State × Clock} (h : Good cfg lag x) {entry : Option Entry}
    (ha : Answers x.1.pc entry) : Spared cfg x.1 entry := by
  rcases hstall : cfg.stallTimeout with _ | timeout
  · exact .inr (by simp [stalled, hstall])
  · exact (h.watched timeout hstall).spared hstall ha

theorem good_next {x x' : State × Clock} {l : Label} (hroom : Roomy cfg lag)
    (h : Good cfg lag x) (hok : Attentive cfg lag x l) (hstep : timed cfg x l = some x') :
    Good cfg lag x' := by
  obtain ⟨s', hnext, rfl⟩ := Option.map_eq_some_iff.mp hstep
  have hontime : x.1.pc.registered = true → OnTime x.1 := by
    intro hreg hfin
    obtain ⟨t, ht⟩ := Option.ne_none_iff_exists'.mp hfin
    exact (h.onSchedule t ht ((registered_iff _).mp hreg).2).onTime hreg
  have hprompt : x.1.pc = .idle → ∀ t, x.1.finishedAt = some t → x.1.now ≤ t + lag := by
    intro hidle t ht
    have hpaced := h.onSchedule t ht (by rw [hidle]; rfl)
    have hnow := hpaced.now
    have hready : ready lag x.2 x.1.pc = t := by
      rw [hidle]
      exact hpaced.idle hidle
    omega
  have hsoon : x.1.pc.registered = true → ∀ t, x.1.finishedAt = some t →
      x.1.now ≤ t + need cfg lag := by
    intro hreg t ht
    exact h.soon ht ((registered_iff _).mp hreg).2
  refine ⟨attended_next h.attended hontime hprompt (fun entry ha => h.spared ha) hok hnext,
    onSchedule_next h.attended h.onSchedule hok hnext, fun timeout hstall => ?_⟩
  exact watched_next (h.watched timeout hstall) hstall (hroom timeout hstall) h.attended.sound
    hsoon hok hnext

/-- What the backend has recorded of a finished prompt stays. -/
theorem recorded_next {s' : State} {l : Label} {entry : Option Entry}
    (h : s.entry = entry ∧ s.finishedAt = some t) (hstep : next cfg s l = some s') :
    s'.entry = entry ∧ s'.finishedAt = some t := by
  obtain ⟨hentry, hfin⟩ := h
  cases hown : own l with
  | true =>
    obtain ⟨-, hentry', hfin'⟩ := recorded_own hown hstep
    exact ⟨hentry'.trans hentry, hfin'.trans hfin⟩
  | false =>
    have hfinish : ∀ e, l ≠ .finish e := by
      rintro e rfl
      simp [next, hfin] at hstep
    have hkept := kept_next hown hfinish hstep
    exact ⟨(hkept.entry (by simp [hfin])).trans hentry, hkept.finishedAt.trans hfin⟩

/-- No step of its own is left to the wait, now or later. -/
def Over (cfg : Config) (s : State) : Prop :=
  ∀ dt l, own l = true → next cfg { s with now := s.now + dt } l = none

theorem ended_of_over (h : Over cfg s) :
    s.pc = .returned ∨ s.pc = .timedOut ∨ s.pc = .nodeError := by
  rcases hp : s.pc
  case idle =>
    have hno := h 0 (.call 0) rfl
    simp [next, hp] at hno
  case signing seen =>
    rcases seen with _ | entry
    · have hno := h 0 .serve rfl
      simp [next, serve, hp] at hno
    · have hno := h 0 .answer rfl
      simp [next, answer, hp] at hno
  case connecting left =>
    have hno := h 0 .connected rfl
    simp [next, connected, hp] at hno
  case backoff wakeAt left =>
    have hno := h wakeAt .wake rfl
    simp [next, wake, hp] at hno
  case waiting wakeAt =>
    have hno := h wakeAt .wake rfl
    have hwoken : wakeAt ≤ s.now + wakeAt := Nat.le_add_left _ _
    simp only [next, wake, hp, wakeWaiting] at hno
    rw [if_pos hwoken] at hno
    split at hno
    · cases hno
    · split at hno
      · cases hno
      · split at hno <;> cases hno
  case checking seen =>
    rcases seen with _ | entry
    · have hno := h 0 .serve rfl
      simp [next, serve, hp] at hno
    · have hno := h 0 .answer rfl
      simp [next, answer, hp] at hno
  case polling remaining seen =>
    rcases seen with _ | entry
    · have hno := h 0 .serve rfl
      simp [next, serve, hp] at hno
    · have hno := h 0 .answer rfl
      simp [next, answer, hp] at hno
  case sleeping wakeAt =>
    have hno := h wakeAt .wake rfl
    simp [next, wake, hp] at hno
  all_goals simp

/-- The wait listens on an open socket for an event that has been sent already. -/
def Deaf (cfg : Config) (s : State) : Prop :=
  ∃ wakeAt c, s.pc = .waiting wakeAt ∧ s.future = false ∧ s.conn = some c ∧ c.isOpen = true ∧
    ∀ f ∈ c.frames, f.terminal ≠ some cfg.promptId

theorem not_deaf (h : Attended cfg s) (hfin : s.finishedAt ≠ none) : ¬ Deaf cfg s := by
  rintro ⟨wakeAt, c, hpc, hfuture, hconn, hopen, hframes⟩
  have hfact := h.fact
  rw [hpc] at hfact
  rcases hfact.2 hfin with hdone | hears
  · simp [hfuture] at hdone
  · rcases hears c hconn with hclosed | ⟨f, hf, hterm⟩
    · simp [hopen] at hclosed
    · exact hframes f hf hterm

/-- The wait for a prompt that has finished at `t`. -/
structure NotLost (cfg : Config) (lag t : Nat) (s : State) : Prop where
  no_timeout : s.pc ≠ .timedOut
  no_failure : s.pc ≠ .nodeError
  not_deaf : ¬ Deaf cfg s
  in_time : t + need cfg lag < s.now → s.pc = .returned
  returned : Over cfg s → s.pc = .returned

/-- In every run whose steps are attentive, a prompt that has finished with
success before the deadline is not lost: the wait does not time out, never
listens in vain, and has returned when the time that it needs has passed or when
no step of its own is left. -/
theorem no_completion_is_lost {isUp : Bool} {before after : List Label} {m x : State × Clock}
    (hroom : Roomy cfg lag)
    (hok : AllSteps (timed cfg) (Attentive cfg lag) (timedStart isUp) (before ++ after))
    (hbefore : exec (timed cfg) (timedStart isUp) before = some m)
    (hafter : exec (timed cfg) m after = some x) (hfin : m.1.finishedAt = some t)
    (hsuccess : ∀ e, m.1.entry = some e → e.errored = false)
    (hdeadline : x.1.pc ≠ .idle → t < x.1.deadline) : NotLost cfg lag t x.1 := by
  have hm : Good cfg lag m :=
    invariant (fun _ _ _ h hok hstep => good_next hroom h hok hstep) (good_start isUp) hok.left
      hbefore
  have hx : Good cfg lag x :=
    invariant (fun _ _ _ h hok hstep => good_next hroom h hok hstep) hm (hok.right hbefore) hafter
  have hplain : exec (next cfg) m.1 after = some x.1 := by
    rw [← exec_timed, hafter]
    rfl
  obtain ⟨hentry, hfinished⟩ := invariant_of_next (I := fun s => s.entry = m.1.entry ∧
    s.finishedAt = some t) (fun _ _ _ h hstep => recorded_next h hstep) ⟨rfl, hfin⟩ hplain
  have hfact := hx.attended.fact
  have htimed : x.1.pc ≠ .timedOut := by
    intro hp
    rw [hp] at hfact
    have hlate := hfact.2 t hfinished
    have hahead := hdeadline (by rw [hp]; exact fun h => by cases h)
    omega
  have hfailed : x.1.pc ≠ .nodeError := by
    intro hp
    rw [hp] at hfact
    obtain ⟨e, he, -, herror⟩ := hfact
    rw [hsuccess e (hentry ▸ he)] at herror
    cases herror
  refine ⟨htimed, hfailed, not_deaf hx.attended (by simp [hfinished]), fun hpast => ?_,
    fun hover => ?_⟩
  · by_contra hnot
    have hlive : isOver x.1.pc = false := by
      rcases hp : x.1.pc <;> first | rfl | contradiction
    have hsoon := hx.soon hfinished hlive
    omega
  · rcases ended_of_over hover with h | h | h
    · exact h
    · exact absurd h htimed
    · exact absurd h hfailed

/-! ## Two waits -/

def smallConfig : Config where
  promptId := "p"
  promptId_ne := by decide
  pollInterval := 1000
  pollInterval_pos := by decide
  progressPollInterval := 2000
  progressPollInterval_pos := by decide
  stallTimeout := none
  stallTimeout_pos := fun _ h => by cases h

/-- A wait that looks for progress every two seconds. -/
def watchedConfig : Config :=
  { smallConfig with stallTimeout := some 60000, stallTimeout_pos := fun _ h => by cases h; decide }

def underWay : Entry := ⟨false, none, 2, 0⟩

def succeeded : Entry := ⟨true, some "success", 3, 1⟩

/-- The wait has seen progress once when its prompt finishes. -/
def untilEnd : List Label :=
  [.call 300000, .serve, .answer, .delay 500, .progress underWay, .delay 1500, .wake, .serve,
    .answer, .delay 500, .finish succeeded]

/-- The reader is late: the wait looks for progress once more before it hears. -/
def afterEnd : List Label := [.delay 1500, .wake, .serve, .answer, .read, .wake]

theorem running_inTime {now : Nat} (hrunning : s.finishedAt = none) (hasking : asking s.pc = false)
    (hshown : now + 3 * 2000 < c.shown + 60000) : InTime watchedConfig 2000 s c now := by
  refine ⟨fun h => absurd hrunning h, fun h => absurd hrunning h, fun _ h => ?_, ?_⟩
  · rw [hasking] at h
    cases h
  · rintro - - timeout ⟨⟩
    exact hshown

set_option maxRecDepth 4096 in
theorem a_heard_completion_returns :
    let m := (exec (timed watchedConfig) (timedStart true) untilEnd).getD (timedStart true)
    let x := (exec (timed watchedConfig) m afterEnd).getD m
    x.1.pc = .returned ∧ NotLost watchedConfig 2000 2500 x.1 := by
  intro m x
  have hok : AllSteps (timed watchedConfig) (Attentive watchedConfig 2000) (timedStart true)
      (untilEnd ++ afterEnd) := by
    refine allSteps_cons (fun t ht => (by cases ht)) rfl ?_
    refine allSteps_cons trivial rfl (allSteps_cons trivial rfl ?_)
    refine allSteps_cons (running_inTime (by rfl) (by decide) (by decide)) rfl ?_
    refine allSteps_cons (fun _ _ => by decide +kernel) rfl ?_
    refine allSteps_cons (running_inTime (by rfl) (by decide) (by decide)) rfl ?_
    refine allSteps_cons trivial rfl (allSteps_cons trivial rfl (allSteps_cons trivial rfl ?_))
    refine allSteps_cons (running_inTime (by rfl) (by decide) (by decide)) rfl ?_
    refine allSteps_cons (fun _ => by decide) rfl ?_
    refine allSteps_cons ⟨fun _ _ => by decide, fun _ _ _ _ => by decide,
      fun _ h => (by cases h), fun h => (by cases h)⟩ rfl ?_
    refine allSteps_cons trivial rfl (allSteps_cons trivial rfl (allSteps_cons trivial rfl ?_))
    refine allSteps_cons (fun h => (by cases h)) rfl ?_
    exact allSteps_cons trivial rfl trivial
  have hroom : Roomy watchedConfig 2000 := by
    rintro timeout ⟨⟩
    decide
  have hbefore : exec (timed watchedConfig) (timedStart true) untilEnd = some m := by rfl
  have hafter : exec (timed watchedConfig) m afterEnd = some x := by rfl
  have hsuccess : ∀ e, m.1.entry = some e → e.errored = false := by
    rintro e ⟨⟩
    decide
  exact ⟨by rfl, no_completion_is_lost hroom hok hbefore hafter rfl hsuccess
    fun _ => (show 2500 < 300000 by decide)⟩

/-- The socket is up from an earlier prompt, and the reader takes the event
while the caller still writes `running`. The wait listens until its deadline. -/
theorem an_event_before_the_call_is_lost :
    ∃ s, exec (next smallConfig) (start true)
        [.finish succeeded, .read, .call 300000, .delay 300000, .wake] = some s ∧
      s.finishedAt = some 0 ∧ s.entry = some succeeded ∧ 0 < s.deadline ∧ s.pc = .timedOut :=
  ⟨_, rfl, rfl, rfl, by decide, rfl⟩

end image_gen.lost_completion

-- The stall timeout of a wait. Where the backend shows progress in time and the
-- server answers in time, no answer finds the last progress too old.
import ImageGen.AttendedWait

namespace image_gen.watched_progress

open image_gen.comfy_wait image_gen.attended_wait

variable {cfg : Config} {lag timeout : Nat} {s s' : State} {c : Clock}

/-! ## Signatures -/

/-- No prompt that has ended has the signature. -/
def Unended (signature : Option String) : Prop :=
  ∀ e : Entry, e.completed = true → signature ≠ progressSignature (some e)

theorem unended_none : Unended none := fun _ _ h => by cases h

theorem unended_signature {e : Entry} (h : e.completed = false) :
    Unended (progressSignature (some e)) := by
  intro e' h' heq
  have hhead := congrArg (fun o => o.bind fun text => text.toList.head?) heq
  simp [progressSignature, h, h', String.intercalate_cons_cons] at hhead

theorem unended_answer {entry : Option Entry} (h : ∀ e, entry = some e → e.completed = false) :
    Unended (progressSignature entry) := by
  cases entry with
  | none => exact unended_none
  | some e => exact unended_signature (h e rfl)

/-! ## The invariant -/

/-- The backend shows progress that the wait has not seen. -/
def Unseen (s : State) : Prop := progressed s.lastSignature (progressSignature s.entry) = true

/-- What the clock says of a wait that has seen what the backend shows. The signature of
a running prompt is not that of an ended one, so its end is progress. -/
structure Watched (lag timeout : Nat) (s : State) (c : Clock) : Prop where
  past : c.shown ≤ s.now
  ended : ∀ t, s.finishedAt = some t → t ≤ c.shown
  unended : s.finishedAt = none → Unended s.lastSignature
  running : s.finishedAt = none → ∀ e, s.pc.answered = some (some e) → e.completed = false
  pace : s.finishedAt = none → s.pc.registered = true → s.now + 3 * lag < c.shown + timeout
  news : s.pc.registered = true → Unseen s ∨ c.shown ≤ s.lastProgressAt + 2 * lag
  asks : asking s.pc = true → s.now ≤ c.asked + lag
  /-- The first signature is asked for at the call. -/
  first : ∀ seen, s.pc = .signing seen →
    c.asked ≤ s.lastProgressAt + if seen.isSome then lag else 0
  answer : ∀ entry, Answers s.pc entry →
    progressed s.lastSignature (progressSignature entry) = true ∨
      c.asked + lag < s.lastProgressAt + timeout

theorem asking_of_answers {pc : Pc} {entry : Option Entry} (h : Answers pc entry) :
    asking pc = true := by
  rcases h with rfl | ⟨remaining, rfl⟩ <;> rfl

theorem answered_of_answers {pc : Pc} {entry : Option Entry} (h : Answers pc entry) :
    pc.answered = some entry := by
  rcases h with rfl | ⟨remaining, rfl⟩ <;> rfl

theorem Watched.spared (h : Watched lag timeout s c) (hstall : cfg.stallTimeout = some timeout)
    {entry : Option Entry} (ha : Answers s.pc entry) : Spared cfg s entry := by
  refine (h.answer entry ha).imp_right fun hrecent => ?_
  have hnow := h.asks (asking_of_answers ha)
  have hpos := cfg.stallTimeout_pos timeout hstall
  simp only [stalled, hstall, decide_eq_false_iff_not]
  omega

/-! ## Own steps -/

/-- No answer is on its way, and the first signature is there. -/
def bare : Pc → Bool
  | .signing _ => false
  | .checking seen => seen.isNone
  | .polling _ seen => seen.isNone
  | _ => true

theorem not_answers_of_bare {pc : Pc} {entry : Option Entry} (h : bare pc = true) :
    ¬ Answers pc entry := by
  rintro (rfl | ⟨remaining, rfl⟩) <;> cases h

theorem bare_loopHead (s : State) : bare (loopHead cfg s).pc = true := by
  unfold loopHead
  split
  · rfl
  · split <;> rfl

theorem bare_pollHead (s : State) : bare (pollHead s).pc = true := by
  unfold pollHead
  split <;> rfl

theorem bare_ensureWs (left : Nat) (s : State) : bare (ensureWs cfg left s).pc = true := by
  unfold ensureWs
  split
  · exact bare_loopHead s
  · rfl

/-- What an own step leaves in the memory of the wait. -/
inductive Notes (s s' : State) : Prop
  | kept : memory s' = memory s → Notes s s'
  | reset : memory s' = (none, s.now) → Notes s s'
  | first {entry : Option Entry} : s.pc = .signing (some entry) →
      memory s' = (progressSignature entry, s.lastProgressAt) → Notes s s'
  | noted {entry : Option Entry} : Answers s.pc entry →
      memory s' = (progressSignature entry, s.now) → Notes s s'

theorem notes_checked {entry : Option Entry} (ha : Answers s.pc entry) :
    bare (checked cfg entry s).pc = true ∧ Notes s (checked cfg entry s) := by
  unfold checked
  dsimp only
  split
  · exact ⟨bare_loopHead _, .noted ha (memory_loopHead cfg _)⟩
  · split
    · exact ⟨rfl, .kept rfl⟩
    · exact ⟨bare_loopHead s, .kept (memory_loopHead cfg s)⟩

theorem notes_polled {remaining : Nat} {entry : Option Entry} (ha : Answers s.pc entry) :
    bare (polled cfg remaining entry s).pc = true ∧ Notes s (polled cfg remaining entry s) := by
  unfold polled
  split
  · rename_i e he
    refine ⟨?_, .kept rfl⟩
    cases e.errored <;> rfl
  · dsimp only
    split
    · exact ⟨rfl, .noted ha rfl⟩
    · split
      · exact ⟨rfl, .kept rfl⟩
      · exact ⟨rfl, .kept rfl⟩

theorem notes_startPolling (s : State) :
    bare (startPolling s).pc = true ∧ Notes s (startPolling s) :=
  ⟨bare_pollHead _, .reset (memory_pollHead _)⟩

theorem notes_wakeWaiting {wakeAt : Nat} (h : wakeWaiting cfg wakeAt s = some s') :
    bare s'.pc = true ∧ Notes s s' := by
  unfold wakeWaiting at h
  split at h
  · cases h
    exact ⟨rfl, .kept rfl⟩
  · split at h
    · cases h
      unfold readerDied
      split
      · exact notes_startPolling s
      · exact ⟨rfl, .kept rfl⟩
    · split at h
      · split at h <;> cases h <;> exact ⟨rfl, .kept rfl⟩
      · cases h

/-- The own steps but a call and the handling of a request. -/
theorem notes_own {l : Label} (hown : own l = true) (hcall : ∀ timeout, l ≠ .call timeout)
    (hserve : l ≠ .serve) (h : next cfg s l = some s') : bare s'.pc = true ∧ Notes s s' := by
  cases l with
  | connected =>
    simp only [next, connected] at h
    split at h <;> cases h
    exact ⟨bare_loopHead _, .kept (memory_loopHead cfg _)⟩
  | refused =>
    simp only [next, refused] at h
    split at h <;> cases h
    · exact notes_startPolling s
    · exact ⟨rfl, .kept rfl⟩
  | serve => exact absurd rfl hserve
  | answer =>
    simp only [next, answer] at h
    split at h <;> cases h <;> rename_i hpc
    · exact ⟨bare_ensureWs 1 _, .first hpc (memory_ensureWs 1 _)⟩
    · exact notes_checked (.inl hpc)
    · exact notes_polled (.inr ⟨_, hpc⟩)
  | call timeout => exact absurd rfl (hcall timeout)
  | wake =>
    simp only [next, wake] at h
    split at h
    · exact notes_wakeWaiting h
    · simp only [Option.ite_none_right_eq_some, Option.some.injEq] at h
      obtain ⟨-, rfl⟩ := h
      exact ⟨bare_ensureWs _ s, .kept (memory_ensureWs _ s)⟩
    · simp only [Option.ite_none_right_eq_some, Option.some.injEq] at h
      obtain ⟨-, rfl⟩ := h
      exact ⟨bare_pollHead s, .kept (memory_pollHead s)⟩
    · cases h
  | _ => cases hown

/-- What a noted signature and its time say. -/
theorem Watched.noted (h : Watched lag timeout s c) (hnotes : Notes s s') :
    memory s' = memory s ∨ s.now ≤ s'.lastProgressAt + 2 * lag ∧
      (s.finishedAt = none → Unended s'.lastSignature) := by
  cases hnotes with
  | kept hm => exact .inl hm
  | reset hm =>
    obtain ⟨hsig, hat⟩ := Prod.mk.inj hm
    exact .inr ⟨by omega, fun _ => hsig ▸ unended_none⟩
  | first hpc hm =>
    obtain ⟨hsig, hat⟩ := Prod.mk.inj hm
    have hasked := h.first _ hpc
    have hnow := h.asks (by rw [hpc]; rfl)
    simp only [Option.isSome_some, if_true] at hasked
    refine .inr ⟨by omega, fun hrunning => hsig ▸ unended_answer ?_⟩
    rintro e rfl
    exact h.running hrunning e (by rw [hpc]; rfl)
  | noted ha hm =>
    obtain ⟨hsig, hat⟩ := Prod.mk.inj hm
    refine .inr ⟨by omega, fun hrunning => hsig ▸ unended_answer ?_⟩
    rintro e rfl
    exact h.running hrunning e (answered_of_answers ha)

theorem watched_own (h : Watched lag timeout s c) (hreg : s.pc.registered = true)
    (hbare : bare s'.pc = true) (hnotes : Notes s s') (hnow : s'.now = s.now)
    (hentry : s'.entry = s.entry) (hfin : s'.finishedAt = s.finishedAt) :
    Watched lag timeout s' { c with moved := s'.now, asked := s'.now } := by
  have hmemory := h.noted hnotes
  have hpast := h.past
  refine ⟨by rw [hnow]; exact hpast, fun t ht => h.ended t (hfin ▸ ht), fun hrunning => ?_,
    fun _ e he => ?_, fun hrunning _ => ?_, fun _ => ?_, fun _ => Nat.le_add_right _ _,
    fun seen hseen => ?_, fun entry ha => absurd ha (not_answers_of_bare hbare)⟩
  · rw [hfin] at hrunning
    rcases hmemory with hm | ⟨-, hunended⟩
    · exact (Prod.mk.inj hm).1 ▸ h.unended hrunning
    · exact hunended hrunning
  · rcases hpc : s'.pc <;> rw [hpc] at he hbare <;> cases he <;> cases hbare
  · rw [hnow]
    exact h.pace (hfin ▸ hrunning) hreg
  · rcases hmemory with hm | ⟨hsoon, -⟩
    · obtain ⟨hsig, hat⟩ := Prod.mk.inj hm
      refine (h.news hreg).imp (fun hunseen => ?_) fun hold => ?_
      · unfold Unseen
        rw [hsig, hentry]
        exact hunseen
      · rw [hat]
        exact hold
    · exact .inr (by simp only; omega)
  · rw [hseen] at hbare
    cases hbare

/-- What the server reads is not older than what the wait has seen, or it is recent. -/
theorem Watched.recent (h : Watched lag timeout s c) (hreg : s.pc.registered = true)
    (hroom : need cfg lag + 3 * lag < timeout)
    (hsoon : ∀ t, s.finishedAt = some t → s.now ≤ t + need cfg lag) :
    Unseen s ∨ s.now + lag < s.lastProgressAt + timeout := by
  refine (h.news hreg).imp_right fun hold => ?_
  rcases hfin : s.finishedAt with _ | t
  · have hpace := h.pace hfin hreg
    omega
  · have hended := h.ended t hfin
    have hnow := hsoon t hfin
    omega

theorem watched_served (h : Watched lag timeout s c) (hreg : s.pc.registered = true)
    (hs : Sound s.now s.entry s.finishedAt) {pc : Pc}
    (hread : ∀ entry, pc.answered = some entry → entry = s.entry)
    (hfirst : ∀ seen, pc = .signing seen →
      s.now ≤ s.lastProgressAt + if seen.isSome then lag else 0)
    (hrecent : Unseen s ∨ s.now + lag < s.lastProgressAt + timeout) :
    Watched lag timeout { s with pc := pc } { c with moved := s.now, asked := s.now } := by
  refine ⟨h.past, h.ended, h.unended, fun hrunning e he => ?_,
    fun hrunning _ => h.pace hrunning hreg, fun _ => h.news hreg, fun _ => Nat.le_add_right _ _, hfirst, fun entry ha => ?_⟩
  · cases hc : e.completed with
    | false => rfl
    | true => exact absurd hrunning (hs.completed e (hread _ he).symm hc)
  · rw [hread entry (answered_of_answers ha)]
    exact hrecent

theorem watched_serve (h : Watched lag timeout s c) (hs : Sound s.now s.entry s.finishedAt)
    (hrecent : s.pc.registered = true → Unseen s ∨ s.now + lag < s.lastProgressAt + timeout)
    (hstep : serve s = some s') :
    Watched lag timeout s' { c with moved := s'.now, asked := s'.now } := by
  unfold serve at hstep
  split at hstep <;> cases hstep <;> rename_i hpc <;>
    have hreg : s.pc.registered = true := by rw [hpc]; rfl
  · have hasked := h.first none hpc
    have hnow := h.asks (by rw [hpc]; rfl)
    refine watched_served h hreg hs (fun entry he => ?_) (fun seen hseen => ?_) (hrecent hreg)
    · cases he
      rfl
    · cases hseen
      simp only [Option.isSome_none, Option.isSome_some] at hasked ⊢
      simp at hasked ⊢
      omega
  · refine watched_served h hreg hs (fun entry he => ?_) (fun seen hseen => ?_) (hrecent hreg)
    · cases he
      rfl
    · cases hseen
  · refine watched_served h hreg hs (fun entry he => ?_) (fun seen hseen => ?_) (hrecent hreg)
    · cases he
      rfl
    · cases hseen

theorem watched_call (hstall : cfg.stallTimeout = some timeout)
    (hs : Sound s.now s.entry s.finishedAt)
    (hroom : need cfg lag + 3 * lag < timeout) (deadline : Nat) :
    Watched lag timeout (call cfg deadline s) ⟨s.now, s.now, s.now, s.now⟩ := by
  have hcall : call cfg deadline s = { register deadline s with pc := .signing none } := by
    unfold call
    rw [hstall]
  rw [hcall]
  refine ⟨Nat.le_refl _, hs.past, fun _ => unended_none, fun _ e he => (by cases he),
    fun _ _ => ?_, fun _ => .inr (Nat.le_add_right _ _), fun _ => Nat.le_add_right _ _,
    fun seen hseen => ?_, fun entry ha => absurd (answered_of_answers ha) (by simp [Pc.answered])⟩
  · simp only [register]
    omega
  · cases hseen
    exact Nat.le_refl _

/-! ## The others -/

theorem watched_entry {e : Entry} (h : Watched lag timeout s c) (hrunning : s.finishedAt = none)
    (hlag : 3 * lag < timeout)
    (hok : progressSignature (some e) ≠ progressSignature s.entry →
      progressSignature (some e) ≠ s.lastSignature) :
    Watched lag timeout { s with entry := some e } (tick s (.progress e) s.now c) := by
  by_cases hsame : progressSignature (some e) = progressSignature s.entry
  · have htick : tick s (.progress e) s.now c = c := if_pos hsame
    rw [htick]
    refine ⟨h.past, h.ended, h.unended, h.running, h.pace, fun hreg => ?_, h.asks, h.first,
      h.answer⟩
    refine (h.news hreg).imp_left fun hunseen => ?_
    unfold Unseen
    rw [hsame]
    exact hunseen
  · have htick : tick s (.progress e) s.now c = { c with shown := s.now } := if_neg hsame
    rw [htick]
    refine ⟨Nat.le_refl _, fun t ht => ?_, h.unended, h.running, fun _ _ => ?_, fun _ => .inl ?_,
      h.asks, h.first, h.answer⟩
    · rw [hrunning] at ht
      cases ht
    · simp only
      omega
    · simp [Unseen, progressed, hok hsame]
      simp [progressSignature]

theorem watched_finish {e : Entry} (h : Watched lag timeout s c) (hrunning : s.finishedAt = none)
    (he : e.completed = true) :
    Watched lag timeout { s with
      entry := some e
      finishedAt := some s.now
      conn := send (completion cfg.promptId) s.conn }
      { c with moved := s.now, owed := s.now, shown := s.now } := by
  have hnew := h.unended hrunning e he
  refine ⟨Nat.le_refl _, fun t ht => ?_, fun hfin => (by cases hfin), fun hfin => (by cases hfin),
    fun hfin => (by cases hfin), fun _ => .inl ?_, h.asks, h.first, h.answer⟩
  · cases ht
    exact Nat.le_refl _
  · simp [Unseen, progressed, hnew.symm]
    simp [progressSignature]

theorem watched_delay {dt : Nat} (h : Watched lag timeout s c)
    (hstall : cfg.stallTimeout = some timeout) (hok : InTime cfg lag s c (s.now + dt)) :
    Watched lag timeout { s with now := s.now + dt } c :=
  ⟨Nat.le_add_right_of_le h.past, h.ended, h.unended, h.running,
    fun hrunning hreg => hok.shows hrunning hreg timeout hstall, h.news,
    hok.asks (by simp [hstall]), h.first, h.answer⟩

theorem Watched.conn (h : Watched lag timeout s c) (conn : Option Conn) (future : Bool) :
    Watched lag timeout { s with conn := conn, future := future } c :=
  ⟨h.past, h.ended, h.unended, h.running, h.pace, h.news, h.asks, h.first, h.answer⟩

theorem watched_start (isUp : Bool) (timeout : Nat) :
    Watched lag timeout (timedStart isUp).1 (timedStart isUp).2 := by
  refine ⟨Nat.le_refl _, fun t ht => (by cases ht), fun _ => unended_none,
    fun _ e he => (by cases he), fun _ hreg => (by cases hreg), fun hreg => (by cases hreg),
    fun hasking => (by cases hasking), fun seen hseen => (by cases hseen), fun entry ha => ?_⟩
  cases answered_of_answers ha

/-- An attentive step keeps the wait watched. -/
theorem watched_next {l : Label} (h : Watched lag timeout s c)
    (hstall : cfg.stallTimeout = some timeout) (hroom : need cfg lag + 3 * lag < timeout)
    (hs : Sound s.now s.entry s.finishedAt)
    (hsoon : s.pc.registered = true → ∀ t, s.finishedAt = some t → s.now ≤ t + need cfg lag)
    (hok : Attentive cfg lag (s, c) l) (hstep : next cfg s l = some s') :
    Watched lag timeout s' (tick s l s'.now c) := by
  cases hown : own l with
  | true =>
    by_cases hcall : ∃ deadline, l = .call deadline
    · obtain ⟨deadline, rfl⟩ := hcall
      simp only [next, Option.ite_none_right_eq_some, Option.some.injEq] at hstep
      obtain ⟨-, rfl⟩ := hstep
      have hnow : (call cfg deadline s).now = s.now :=
        congrArg Prod.fst (record_call cfg deadline s)
      simp only [tick, hnow]
      exact watched_call hstall hs hroom deadline
    have hcalls : ∀ deadline, l ≠ .call deadline := fun deadline heq => hcall ⟨deadline, heq⟩
    rw [tick_own hown hcalls]
    by_cases hserve : l = .serve
    · subst hserve
      exact watched_serve h hs (fun hreg => h.recent hreg hroom (hsoon hreg)) hstep
    · obtain ⟨hbare, hnotes⟩ := notes_own hown hcalls hserve hstep
      obtain ⟨hnow, hentry, hfin⟩ := recorded_own hown hstep
      have hreg := (registered_own hown hcalls hstep).1
      exact watched_own h hreg hbare hnotes hnow hentry hfin
  | false =>
    cases l with
    | delay dt =>
      cases hstep
      exact watched_delay h hstall hok
    | progress e =>
      simp only [next, Option.ite_none_right_eq_some, Option.some.injEq] at hstep
      obtain ⟨⟨hrunning, -⟩, rfl⟩ := hstep
      exact watched_entry h hrunning (by omega) (hok (by simp [hstall]))
    | finish e =>
      simp only [next, Option.ite_none_right_eq_some, Option.some.injEq] at hstep
      obtain ⟨⟨hrunning, he⟩, rfl⟩ := hstep
      exact watched_finish h hrunning he
    | frame f =>
      simp only [next, Option.ite_none_right_eq_some, Option.some.injEq] at hstep
      obtain ⟨-, rfl⟩ := hstep
      exact h.conn _ _
    | close kept =>
      simp only [next] at hstep
      split at hstep <;> cases hstep
      exact h.conn _ _
    | read =>
      simp only [next, wsReader] at hstep
      split at hstep <;> cases hstep
      exact h.conn _ _
    | readerEnds =>
      simp only [next, Option.ite_none_right_eq_some, Option.some.injEq] at hstep
      obtain ⟨-, rfl⟩ := hstep
      exact h.conn _ _
    | _ => cases hown

end image_gen.watched_progress

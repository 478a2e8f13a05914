-- A wait that is attended to: what its steps must meet, by order and by the clock,
-- for the completion to come to it, and what then holds where it stands.
import ImageGen.ComfyWait

namespace image_gen.attended_wait

open image_gen.runs image_gen.comfy_wait

/-! ## The clock of a run -/

/-- The steps that the wait takes, or that the network takes for it. -/
def own : Label → Bool
  | .connected => true
  | .refused => true
  | .serve => true
  | .answer => true
  | .call _ => true
  | .wake => true
  | _ => false

structure Clock where
  /-- When the wait has last moved, or its prompt has finished. -/
  moved : Nat
  /-- Since when the reader owes the event: since the end of the prompt, or since the
  call where that comes later. -/
  owed : Nat
  /-- When the wait has last moved. -/
  asked : Nat
  /-- When the backend has last shown progress, or the wait has been called. -/
  shown : Nat
  deriving DecidableEq

def tick (s : State) (l : Label) (now : Nat) (c : Clock) : Clock :=
  match l with
  | .finish _ => { c with moved := now, owed := now, shown := now }
  | .call _ => ⟨now, now, now, now⟩
  | .progress e =>
    if progressSignature (some e) = progressSignature s.entry then c else { c with shown := now }
  | l => if own l then { c with moved := now, asked := now } else c

theorem tick_own {s : State} {l : Label} (hown : own l = true)
    (hcall : ∀ timeout, l ≠ .call timeout) (now : Nat) (c : Clock) :
    tick s l now c = { c with moved := now, asked := now } := by
  cases l with
  | call timeout => exact absurd rfl (hcall timeout)
  | _ => first | rfl | cases hown

/-- The machine of the wait with the clock beside it. -/
def timed (cfg : Config) (x : State × Clock) (l : Label) : Option (State × Clock) :=
  (next cfg x.1 l).map fun s => (s, tick x.1 l s.now x.2)

def timedStart (isUp : Bool) : State × Clock := (start isUp, ⟨0, 0, 0, 0⟩)

variable {cfg : Config} {s : State} {c : Clock} {lag t : Nat}

/-- The clock only watches. -/
theorem exec_timed {x : State × Clock} {labels : List Label} :
    (exec (timed cfg) x labels).map Prod.fst = exec (next cfg) x.1 labels := by
  induction labels generalizing x with
  | nil => rfl
  | cons l labels ih =>
    unfold exec timed
    rcases next cfg x.1 l with _ | s'
    · rfl
    · exact ih

/-! ## Own steps -/

theorem record_own {s' : State} {l : Label} (hown : own l = true) (hup : l ≠ .connected)
    (hreg : s.pc.registered = true) (h : next cfg s l = some s') : record s' = record s := by
  cases l with
  | connected => exact absurd rfl hup
  | refused =>
    simp only [next, refused] at h
    split at h <;> cases h
    · exact record_pollHead _
    · rfl
  | serve =>
    simp only [next, serve] at h
    split at h <;> cases h <;> rfl
  | answer =>
    simp only [next, answer] at h
    split at h <;> cases h
    · exact record_ensureWs 1 _
    · exact record_checked _ s
    · exact record_polled _ _ s
  | call timeout =>
    simp only [next, Option.ite_none_right_eq_some] at h
    rw [h.1] at hreg
    cases hreg
  | wake =>
    simp only [next, wake] at h
    split at h
    · exact record_wakeWaiting h
    · simp only [Option.ite_none_right_eq_some, Option.some.injEq] at h
      obtain ⟨-, rfl⟩ := h
      exact record_ensureWs _ s
    · simp only [Option.ite_none_right_eq_some, Option.some.injEq] at h
      obtain ⟨-, rfl⟩ := h
      exact record_pollHead s
    · cases h
  | _ => cases hown

/-- An own step that is no call is one of a wait that has been called. -/
theorem registered_own {s' : State} {l : Label} (hown : own l = true)
    (hcall : ∀ timeout, l ≠ .call timeout) (h : next cfg s l = some s') :
    s.pc.registered = true ∧ s'.pc ≠ .idle := by
  cases l with
  | connected =>
    simp only [next, connected] at h
    split at h <;> cases h
    rename_i hpc
    exact ⟨by rw [hpc]; rfl, loopHead_ne_idle _⟩
  | refused =>
    simp only [next, refused] at h
    split at h <;> cases h
    · rename_i hpc
      exact ⟨by rw [hpc]; rfl, pollHead_ne_idle _⟩
    · rename_i hpc
      exact ⟨by rw [hpc]; rfl, fun h => by cases h⟩
  | serve =>
    simp only [next, serve] at h
    split at h <;> cases h <;> rename_i hpc <;> exact ⟨by rw [hpc]; rfl, fun h => by cases h⟩
  | answer =>
    simp only [next, answer] at h
    split at h <;> cases h <;> rename_i hpc
    · exact ⟨by rw [hpc]; rfl, ensureWs_ne_idle 1 _⟩
    · exact ⟨by rw [hpc]; rfl, checked_ne_idle _ s⟩
    · exact ⟨by rw [hpc]; rfl, polled_ne_idle _ _ s⟩
  | call timeout => exact absurd rfl (hcall timeout)
  | wake =>
    simp only [next, wake] at h
    split at h
    · rename_i hpc
      exact ⟨by rw [hpc]; rfl, wakeWaiting_ne_idle h⟩
    · rename_i hpc
      simp only [Option.ite_none_right_eq_some, Option.some.injEq] at h
      obtain ⟨-, rfl⟩ := h
      exact ⟨by rw [hpc]; rfl, ensureWs_ne_idle _ s⟩
    · rename_i hpc
      simp only [Option.ite_none_right_eq_some, Option.some.injEq] at h
      obtain ⟨-, rfl⟩ := h
      exact ⟨by rw [hpc]; rfl, pollHead_ne_idle s⟩
    · cases h
  | _ => cases hown

theorem recorded_own {s' : State} {l : Label} (hown : own l = true)
    (h : next cfg s l = some s') :
    s'.now = s.now ∧ s'.entry = s.entry ∧ s'.finishedAt = s.finishedAt := by
  have hback : ∀ {u}, record s' = record u →
      u.now = s.now ∧ u.entry = s.entry ∧ u.finishedAt = s.finishedAt →
        s'.now = s.now ∧ s'.entry = s.entry ∧ s'.finishedAt = s.finishedAt := by
    intro u hrecord hu
    simp only [record, Prod.mk.injEq] at hrecord
    exact ⟨hrecord.1.trans hu.1, hrecord.2.1.trans hu.2.1, hrecord.2.2.1.trans hu.2.2⟩
  by_cases hcall : ∃ timeout, l = .call timeout
  · obtain ⟨timeout, rfl⟩ := hcall
    simp only [next, Option.ite_none_right_eq_some, Option.some.injEq] at h
    obtain ⟨-, rfl⟩ := h
    exact hback (record_call cfg timeout s) ⟨rfl, rfl, rfl⟩
  by_cases hup : l = .connected
  · subst hup
    simp only [next, connected] at h
    split at h <;> cases h
    exact hback (record_loopHead cfg _) ⟨rfl, rfl, rfl⟩
  · have hreg := (registered_own hown (fun timeout heq => hcall ⟨timeout, heq⟩) h).1
    exact hback (record_own hown hup hreg h) ⟨rfl, rfl, rfl⟩

/-! ## The condition -/

/-- The time that a wait may need after the end of its prompt, when no party
takes longer than `lag` for a step. -/
def need (cfg : Config) (lag : Nat) : Nat := 9 * lag + reconnectBackoff + cfg.pollInterval

/-- When the wait can move again. One that listens counts on the reader, which
has `lag` to come to the event or to the end of its socket. -/
def ready (lag : Nat) (c : Clock) : Pc → Nat
  | .backoff wakeAt _ => max c.moved wakeAt
  | .sleeping wakeAt => max c.moved wakeAt
  | .waiting _ => max c.moved (c.owed + lag)
  | _ => c.moved

def isOver : Pc → Bool
  | .returned => true
  | .timedOut => true
  | .nodeError => true
  | _ => false

/-- The wait has sent a `GET /history` for a progress signature. -/
def asking : Pc → Bool
  | .signing _ => true
  | .checking _ => true
  | .polling _ _ => true
  | _ => false

/-- Time may pass up to `now`. After the end of the prompt the wait moves within
`lag` of when it can, and within `lag` of its debt the reader has come to the
event or to the end of its socket. Where a stall timeout is set, a server takes
no longer than `lag` to handle a request, nor does its answer on the way, and a
backend that runs the prompt shows progress in time. -/
structure InTime (cfg : Config) (lag : Nat) (s : State) (c : Clock) (now : Nat) : Prop where
  moves : s.finishedAt ≠ none → isOver s.pc = false → now ≤ ready lag c s.pc + lag
  reads : s.finishedAt ≠ none → s.pc.registered = true → s.future = false → s.conn ≠ none →
    now ≤ c.owed + lag
  asks : cfg.stallTimeout ≠ none → asking s.pc = true → now ≤ c.asked + lag
  shows : s.finishedAt = none → s.pc.registered = true →
    ∀ timeout, cfg.stallTimeout = some timeout → now + 3 * lag < c.shown + timeout

/-- What a step must meet. The reader meets the completion only after the call,
no socket is opened after the prompt has finished, the prompt leaves the wait
the time it needs, progress is never back at what the wait has seen, and time
passes as `InTime` says. -/
def Attentive (cfg : Config) (lag : Nat) (x : State × Clock) : Label → Prop
  | .read => x.1.pc = .idle →
    ∀ f frames isOpen, x.1.conn = some ⟨f :: frames, isOpen⟩ → f.terminal ≠ some cfg.promptId
  | .connected => x.1.finishedAt = none
  | .finish _ => x.1.pc.registered = true → x.1.now + need cfg lag < x.1.deadline
  | .call timeout => ∀ t, x.1.finishedAt = some t → t + need cfg lag < x.1.now + timeout
  | .progress e => cfg.stallTimeout ≠ none →
    progressSignature (some e) ≠ progressSignature x.1.entry →
      progressSignature (some e) ≠ x.1.lastSignature
  | .delay dt => InTime cfg lag x.1 x.2 (x.1.now + dt)
  | _ => True

/-- The stall timeout leaves the wait the time it needs, too. -/
def Roomy (cfg : Config) (lag : Nat) : Prop :=
  ∀ timeout, cfg.stallTimeout = some timeout → need cfg lag + 3 * lag < timeout

/-! ## The invariant -/

/-- The deadline is still ahead, if the prompt has finished. -/
def OnTime (s : State) : Prop := s.finishedAt ≠ none → s.now < s.deadline

/-- The completion can still come to the wait, or the socket goes down. -/
def Hears (cfg : Config) (s : State) : Prop :=
  s.finishedAt ≠ none → s.future = true ∨ ∀ c, s.conn = some c →
    c.isOpen = false ∨ ∃ f ∈ c.frames, f.terminal = some cfg.promptId

/-- The clock and the backend. -/
structure Sound (now : Nat) (entry : Option Entry) (finishedAt : Option Nat) : Prop where
  past : ∀ t, finishedAt = some t → t ≤ now
  finished : finishedAt ≠ none → ∃ e, entry = some e ∧ e.completed = true
  completed : ∀ e, entry = some e → e.completed = true → finishedAt ≠ none

/-- What holds where the wait stands. -/
def Fact (cfg : Config) (s : State) : Pc → Prop
  | .idle => s.future = false ∧ Hears cfg s
  | .signing _ => Hears cfg s
  | .connecting left => s.conn = none ∧ left ≤ 1
  | .backoff wakeAt left => s.conn = none ∧ left = 0 ∧ wakeAt ≤ s.now + reconnectBackoff
  | .waiting wakeAt => (cfg.stallTimeout = none → s.deadline ≤ wakeAt) ∧ Hears cfg s
  | .checking _ => Hears cfg s
  | .polling _ seen => ∀ e, seen = some (some e) → e.completed = true → s.entry = some e
  | .sleeping wakeAt => wakeAt ≤ s.now + cfg.pollInterval
  | .returned => True
  | .timedOut => s.deadline ≤ s.now ∧ ∀ t, s.finishedAt = some t → s.deadline ≤ t
  | .nodeError => ∃ e, s.entry = some e ∧ e.completed = true ∧ e.errored = true

structure Attended (cfg : Config) (s : State) : Prop where
  sound : Sound s.now s.entry s.finishedAt
  fact : Fact cfg s s.pc

theorem late_of_onTime (hlate : s.deadline ≤ s.now) (hok : OnTime s) :
    s.deadline ≤ s.now ∧ ∀ t, s.finishedAt = some t → s.deadline ≤ t := by
  refine ⟨hlate, fun t ht => ?_⟩
  have hbefore := hok (by simp [ht])
  omega

/-- The answer of a check or of a poll. -/
def Answers (pc : Pc) (entry : Option Entry) : Prop :=
  pc = .checking (some entry) ∨ ∃ remaining, pc = .polling remaining (some entry)

/-- The answer does not end the wait by a stall: it shows progress, or the last
progress is recent. -/
def Spared (cfg : Config) (s : State) (entry : Option Entry) : Prop :=
  progressed s.lastSignature (progressSignature entry) = true ∨ stalled cfg s = false

theorem attended_loopHead (hs : Sound s.now s.entry s.finishedAt) (hears : Hears cfg s)
    (hok : s.future = true ∨ OnTime s) : Attended cfg (loopHead cfg s) := by
  unfold loopHead
  split
  · exact ⟨hs, trivial⟩
  · rename_i hfuture
    split
    · rename_i hlate
      exact ⟨hs, late_of_onTime hlate (hok.resolve_left hfuture)⟩
    · rename_i hahead
      refine ⟨hs, fun hstall => ?_, hears⟩
      simp only [hstall]
      omega

theorem attended_pollHead (hs : Sound s.now s.entry s.finishedAt) (hok : OnTime s) :
    Attended cfg (pollHead s) := by
  unfold pollHead
  split
  · rename_i hlate
    exact ⟨hs, late_of_onTime hlate hok⟩
  · exact ⟨hs, fun e he => by cases he⟩

theorem attended_ensureWs (hs : Sound s.now s.entry s.finishedAt) (hears : Hears cfg s)
    (hok : OnTime s) : Attended cfg (ensureWs cfg 1 s) := by
  unfold ensureWs
  split
  · exact attended_loopHead hs hears (Or.inr hok)
  · rename_i hdown
    exact ⟨hs, Option.not_isSome_iff_eq_none.mp hdown, Nat.le_refl 1⟩

theorem attended_startPolling (hs : Sound s.now s.entry s.finishedAt) (hok : OnTime s) :
    Attended cfg (startPolling s) :=
  attended_pollHead (s := { s with lastProgressAt := s.now, lastSignature := none }) hs hok

theorem attended_readerDied (hs : Sound s.now s.entry s.finishedAt)
    (hdown : s.conn = none) (hok : OnTime s) : Attended cfg (readerDied s) := by
  unfold readerDied
  split
  · exact attended_startPolling hs hok
  · exact ⟨hs, hdown, rfl, Nat.le_refl _⟩

theorem attended_checked {entry : Option Entry} (hs : Sound s.now s.entry s.finishedAt)
    (hears : Hears cfg s) (hok : OnTime s) (hspared : Spared cfg s entry) :
    Attended cfg (checked cfg entry s) := by
  unfold checked
  dsimp only
  split
  · exact attended_loopHead hs hears (Or.inr hok)
  · rename_i hsame
    rw [hspared.resolve_left hsame]
    exact attended_loopHead hs hears (Or.inr hok)

theorem attended_polled {remaining : Nat} {entry : Option Entry}
    (hs : Sound s.now s.entry s.finishedAt)
    (hseen : ∀ e, entry = some e → e.completed = true → s.entry = some e)
    (hspared : Spared cfg s entry) :
    Attended cfg (polled cfg remaining entry s) := by
  unfold polled
  split
  · rename_i e he
    obtain ⟨hentry, hcompleted⟩ := Option.filter_eq_some_iff.mp he
    have hnow := hseen e hentry hcompleted
    refine ⟨hs, ?_⟩
    dsimp only
    split
    · rename_i herror
      exact ⟨e, hnow, hcompleted, herror⟩
    · trivial
  · have hsleep : s.now + min cfg.pollInterval (max 10 remaining) ≤ s.now + cfg.pollInterval := by
      omega
    dsimp only
    split
    · exact ⟨hs, hsleep⟩
    · rename_i hsame
      rw [hspared.resolve_left hsame]
      exact ⟨hs, hsleep⟩

/-! ## Steps -/

/-- The wait needs the event of the socket. -/
def Listens : Pc → Prop
  | .idle => True
  | .signing _ => True
  | .waiting _ => True
  | .checking _ => True
  | _ => False

/-- What the clock, the backend, the socket and its reader do to a wait. -/
structure Outside (cfg : Config) (s s' : State) : Prop where
  pc : s'.pc = s.pc
  deadline : s'.deadline = s.deadline
  idle : s.pc = .idle → s'.future = s.future
  now : s.now ≤ s'.now
  finished : ∀ t, s'.finishedAt = some t → s.finishedAt = some t ∨ t = s'.now
  entry : ∀ e, s.entry = some e → e.completed = true → s'.entry = some e
  down : s.conn = none → s'.conn = none
  hears : Listens s.pc → Hears cfg s → Hears cfg s'

theorem fact_of_outside {s' : State} (h : Fact cfg s s.pc) (ho : Outside cfg s s') :
    Fact cfg s' s'.pc := by
  obtain ⟨hpc, hdeadline, hidle, hnow, hfinished, hentry, hdown, hears⟩ := ho
  rw [hpc]
  rcases hp : s.pc <;> rw [hp] at h hears
  case idle => exact ⟨(hidle hp).trans h.1, hears trivial h.2⟩
  case signing => exact hears trivial h
  case connecting => exact ⟨hdown h.1, h.2⟩
  case backoff => exact ⟨hdown h.1, h.2.1, Nat.le_trans h.2.2 (Nat.add_le_add_right hnow _)⟩
  case waiting => exact ⟨fun hstall => hdeadline ▸ h.1 hstall, hears trivial h.2⟩
  case checking => exact hears trivial h
  case polling => exact fun e hseen hc => hentry e (h e hseen hc) hc
  case sleeping => exact Nat.le_trans h (Nat.add_le_add_right hnow _)
  case timedOut =>
    obtain ⟨hlate, hfin⟩ := h
    refine ⟨by omega, fun t ht => ?_⟩
    rcases hfinished t ht with ht | rfl
    · rw [hdeadline]
      exact hfin t ht
    · omega
  case nodeError =>
    obtain ⟨e, he, hc, herror⟩ := h
    exact ⟨e, hentry e he hc, hc, herror⟩
  all_goals trivial

theorem hears_of_send {f : Frame} (h : Hears cfg s) :
    Hears cfg { s with conn := send f s.conn } := by
  intro hfin
  refine (h hfin).imp_right fun hconn c hc => ?_
  obtain ⟨d, hd, rfl⟩ := Option.map_eq_some_iff.mp hc
  split
  · rename_i hopen
    rcases hconn d hd with hclosed | ⟨f', hf', hterm⟩
    · simp [hopen] at hclosed
    · exact Or.inr ⟨f', List.mem_append_left _ hf', hterm⟩
  · exact hconn d hd

/-- A prompt that finishes is heard by an open socket, and a closed one goes down. -/
theorem hears_of_finish (e : Entry) :
    Hears cfg { s with
      entry := some e
      finishedAt := some s.now
      conn := send (completion cfg.promptId) s.conn } := by
  intro _
  refine Or.inr fun c hc => ?_
  obtain ⟨d, hd, rfl⟩ := Option.map_eq_some_iff.mp hc
  split
  · refine Or.inr
      ⟨completion cfg.promptId, List.mem_append_right _ (List.mem_singleton.mpr rfl), ?_⟩
    simp [completion, Frame.terminal, cfg.promptId_ne]
  · rename_i hclosed
    exact Or.inl (by simpa using hclosed)

theorem attended_delay (h : Attended cfg s) (dt : Nat) :
    Attended cfg { s with now := s.now + dt } := by
  obtain ⟨⟨hpast, hfinished, hcompleted⟩, hfact⟩ := h
  refine ⟨⟨fun t ht => Nat.le_add_right_of_le (hpast t ht), hfinished, hcompleted⟩, ?_⟩
  exact fact_of_outside hfact
    ⟨rfl, rfl, fun _ => rfl, Nat.le_add_right _ _, fun t ht => Or.inl ht, fun _ he _ => he, id,
      fun _ h => h⟩

theorem attended_progress (h : Attended cfg s) {e : Entry} (hrunning : s.finishedAt = none)
    (he : e.completed = false) : Attended cfg { s with entry := some e } := by
  obtain ⟨⟨hpast, hfinished, hcompleted⟩, hfact⟩ := h
  refine ⟨⟨hpast, fun h => absurd hrunning h, fun e' he' hc => ?_⟩, ?_⟩
  · cases he'
    rw [he] at hc
    cases hc
  · exact fact_of_outside hfact
      ⟨rfl, rfl, fun _ => rfl, Nat.le_refl _, fun t ht => Or.inl ht,
        fun e' he' hc => absurd hrunning (hcompleted e' he' hc), id, fun _ h => h⟩

theorem attended_finish (h : Attended cfg s) {e : Entry} (hrunning : s.finishedAt = none)
    (he : e.completed = true) :
    Attended cfg { s with
      entry := some e
      finishedAt := some s.now
      conn := send (completion cfg.promptId) s.conn } := by
  obtain ⟨⟨hpast, hfinished, hcompleted⟩, hfact⟩ := h
  refine ⟨⟨fun t ht => ?_, fun _ => ⟨e, rfl, he⟩, fun _ _ _ h => by cases h⟩, ?_⟩
  · cases ht
    exact Nat.le_refl _
  · refine fact_of_outside hfact
      ⟨rfl, rfl, fun _ => rfl, Nat.le_refl _, fun t ht => ?_,
        fun e' he' hc => absurd hrunning (hcompleted e' he' hc), fun hdown => ?_,
        fun _ _ => hears_of_finish e⟩
    · cases ht
      exact Or.inr rfl
    · simp [send, hdown]

/-- The socket and its reader. -/
theorem attended_conn (h : Attended cfg s) {conn : Option Conn} {future : Bool}
    (hidle : s.pc = .idle → future = s.future) (hdown : s.conn = none → conn = none)
    (hears : Listens s.pc → Hears cfg s → Hears cfg { s with conn := conn, future := future }) :
    Attended cfg { s with conn := conn, future := future } :=
  ⟨h.sound, fact_of_outside h.fact
    ⟨rfl, rfl, hidle, Nat.le_refl _, fun _ ht => Or.inl ht, fun _ he _ => he, hdown, hears⟩⟩

theorem attended_read {s' : State} (h : Attended cfg s) (hok : Attentive cfg lag (s, c) .read)
    (hstep : wsReader cfg s = some s') : Attended cfg s' := by
  unfold wsReader at hstep
  split at hstep
  · rename_i f frames isOpen hconn
    cases hstep
    refine attended_conn h (fun hidle => ?_) (fun hdown => by simp [hdown] at hconn)
      fun hlistens hears hfin => ?_
    · simp [hidle, Pc.registered]
    · rcases hears hfin with hfuture | hframes
      · exact Or.inl (by simp [hfuture])
      by_cases hterm : f.terminal = some cfg.promptId
      · have hregistered : s.pc.registered = true := by
          rcases hp : s.pc <;> rw [hp] at hlistens
          case idle => exact absurd hterm (hok hp f frames isOpen hconn)
          all_goals first | rfl | exact hlistens.elim
        exact Or.inl (by simp [hterm, hregistered])
      · refine Or.inr fun c hc => ?_
        cases hc
        refine (hframes _ hconn).imp_right ?_
        rintro ⟨f', hf', hterm'⟩
        rcases List.mem_cons.mp hf' with rfl | hf'
        · exact absurd hterm' hterm
        · exact ⟨f', hf', hterm'⟩
  · cases hstep

theorem attended_connected {s' : State} (h : Attended cfg s) (hok : s.finishedAt = none)
    (hstep : connected cfg s = some s') : Attended cfg s' := by
  unfold connected at hstep
  split at hstep <;> cases hstep
  rename_i left hpc
  exact attended_loopHead h.sound (fun hfin => absurd hok hfin)
    (Or.inr fun hfin => absurd hok hfin)

theorem attended_refused {s' : State} (h : Attended cfg s)
    (hok : s.pc.registered = true → OnTime s) (hstep : refused s = some s') :
    Attended cfg s' := by
  obtain ⟨hs, hfact⟩ := h
  unfold refused at hstep
  split at hstep
  · rename_i hpc
    cases hstep
    exact attended_startPolling hs (hok (by rw [hpc]; rfl))
  · rename_i left hpc
    rw [hpc] at hfact
    cases hstep
    exact ⟨hs, hfact.1, Nat.le_zero.mp (Nat.le_of_succ_le_succ hfact.2),
      Nat.le_refl _⟩
  · cases hstep

theorem attended_serve {s' : State} (h : Attended cfg s) (hstep : serve s = some s') :
    Attended cfg s' := by
  obtain ⟨hs, hfact⟩ := h
  unfold serve at hstep
  split at hstep
  · rename_i hpc
    rw [hpc] at hfact
    cases hstep
    exact ⟨hs, hfact⟩
  · rename_i hpc
    rw [hpc] at hfact
    cases hstep
    exact ⟨hs, hfact⟩
  · rename_i hpc
    cases hstep
    refine ⟨hs, fun e hseen _ => ?_⟩
    simpa using hseen
  · cases hstep

theorem attended_answer {s' : State} (h : Attended cfg s)
    (hok : s.pc.registered = true → OnTime s)
    (hspared : ∀ entry, Answers s.pc entry → Spared cfg s entry) (hstep : answer cfg s = some s') :
    Attended cfg s' := by
  obtain ⟨hs, hfact⟩ := h
  unfold answer at hstep
  split at hstep
  · rename_i entry hpc
    rw [hpc] at hfact hok
    cases hstep
    exact attended_ensureWs (s := { s with lastSignature := progressSignature entry }) hs
      hfact (hok rfl)
  · rename_i entry hpc
    rw [hpc] at hfact hok
    cases hstep
    exact attended_checked hs hfact (hok rfl) (hspared entry (Or.inl hpc))
  · rename_i remaining entry hpc
    rw [hpc] at hfact
    cases hstep
    exact attended_polled hs (fun e he => hfact e (congrArg some he))
      (hspared entry (Or.inr ⟨remaining, hpc⟩))
  · cases hstep

theorem attended_call {timeout : Nat} (h : Attended cfg s) (hidle : s.pc = .idle)
    (hok : s.finishedAt ≠ none → 0 < timeout) : Attended cfg (call cfg timeout s) := by
  obtain ⟨hs, hfact⟩ := h
  rw [hidle] at hfact
  obtain ⟨hfuture, hears⟩ := hfact
  have hcalled : Hears cfg (register timeout s) := fun hfin =>
    Or.inr ((hears hfin).resolve_left (by simp [hfuture]))
  unfold call
  split
  · exact ⟨hs, hcalled⟩
  · refine attended_ensureWs (s := register timeout s) hs hcalled fun hfin => ?_
    exact Nat.lt_add_of_pos_right (hok hfin)

theorem attended_wake {s' : State} (h : Attended cfg s)
    (hok : s.pc.registered = true → OnTime s) (hstep : wake cfg s = some s') :
    Attended cfg s' := by
  obtain ⟨hs, hfact⟩ := h
  unfold wake at hstep
  split at hstep
  · rename_i wakeAt hpc
    rw [hpc] at hfact hok
    unfold wakeWaiting at hstep
    split at hstep
    · cases hstep
      exact ⟨hs, trivial⟩
    split at hstep
    · rename_i hdown
      cases hstep
      exact attended_readerDied hs hdown (hok rfl)
    split at hstep
    · rename_i hwoken
      rcases hstall : cfg.stallTimeout with _ | timeout <;> rw [hstall] at hstep <;> cases hstep
      · have hlate : s.deadline ≤ s.now := Nat.le_trans (hfact.1 hstall) hwoken
        exact ⟨hs, late_of_onTime hlate (hok rfl)⟩
      · exact ⟨hs, hfact.2⟩
    · cases hstep
  · rename_i wakeAt left hpc
    rw [hpc] at hfact
    simp only [Option.ite_none_right_eq_some, Option.some.injEq] at hstep
    obtain ⟨-, rfl⟩ := hstep
    obtain ⟨hdown, rfl, -⟩ := hfact
    unfold ensureWs
    rw [if_neg (by simp [hdown])]
    exact ⟨hs, hdown, Nat.zero_le 1⟩
  · rename_i wakeAt hpc
    rw [hpc] at hok
    simp only [Option.ite_none_right_eq_some, Option.some.injEq] at hstep
    obtain ⟨-, rfl⟩ := hstep
    exact attended_pollHead hs (hok rfl)
  · cases hstep

theorem attended_next {s' : State} {l : Label} (h : Attended cfg s)
    (hontime : s.pc.registered = true → OnTime s)
    (hprompt : s.pc = .idle → ∀ t, s.finishedAt = some t → s.now ≤ t + lag)
    (hspared : ∀ entry, Answers s.pc entry → Spared cfg s entry)
    (hok : Attentive cfg lag (s, c) l) (hstep : next cfg s l = some s') : Attended cfg s' := by
  cases l with
  | delay dt =>
    cases hstep
    exact attended_delay h dt
  | progress e =>
    simp only [next, Option.ite_none_right_eq_some, Option.some.injEq] at hstep
    obtain ⟨⟨hrunning, he⟩, rfl⟩ := hstep
    exact attended_progress h hrunning he
  | finish e =>
    simp only [next, Option.ite_none_right_eq_some, Option.some.injEq] at hstep
    obtain ⟨⟨hrunning, he⟩, rfl⟩ := hstep
    exact attended_finish h hrunning he
  | frame f =>
    simp only [next, Option.ite_none_right_eq_some, Option.some.injEq] at hstep
    obtain ⟨-, rfl⟩ := hstep
    exact attended_conn h (fun _ => rfl) (fun hdown => by simp [send, hdown])
      fun _ hears => hears_of_send hears
  | close kept =>
    simp only [next] at hstep
    split at hstep
    · rename_i frames hconn
      cases hstep
      refine attended_conn h (fun _ => rfl) (fun hdown => by simp [hdown] at hconn) fun _ _ _ => ?_
      refine Or.inr fun c hc => ?_
      cases hc
      exact Or.inl rfl
    · cases hstep
  | readerEnds =>
    simp only [next, Option.ite_none_right_eq_some, Option.some.injEq] at hstep
    obtain ⟨-, rfl⟩ := hstep
    exact attended_conn h (fun _ => rfl) (fun _ => rfl) fun _ _ _ => Or.inr fun c hc => by cases hc
  | read => exact attended_read h hok hstep
  | connected => exact attended_connected h hok hstep
  | refused => exact attended_refused h hontime hstep
  | serve => exact attended_serve h hstep
  | answer => exact attended_answer h hontime hspared hstep
  | call timeout =>
    simp only [next, Option.ite_none_right_eq_some, Option.some.injEq] at hstep
    obtain ⟨hidle, rfl⟩ := hstep
    refine attended_call h hidle fun hfin => ?_
    obtain ⟨t, ht⟩ := Option.ne_none_iff_exists'.mp hfin
    have hroom : t + need cfg lag < s.now + timeout := hok t ht
    have hsoon := hprompt hidle t ht
    unfold need at hroom
    omega
  | wake => exact attended_wake h hontime hstep

end image_gen.attended_wait

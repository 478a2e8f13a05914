-- The unload of the models on the GPU (`unload_models` in `app/backends/comfyui.py`): it reads the
-- free VRAM, asks ComfyUI to unload, and reads until there is more. The answers of ComfyUI come
-- from outside. Time is in milliseconds.
import ImageGen.Injectors
import ImageGen.Runs
import ImageGen.SharedWaits

namespace image_gen.model_unload

open image_gen.graph (Builtins)
open image_gen.injectors (toInt)
open image_gen.json image_gen.runs
open image_gen.requests (GraphError)
open image_gen.shared_waits (getKey isNull orEmpty)

/-! ## A reading -/

/-- What a request raises. -/
inductive Fault
  /-- `httpx.HTTPError`. -/
  | http (text : String)
  | other (message : String)

/-- What a GET of `/system_stats` comes to. -/
inductive Stats
  | fault (f : Fault)
  | response (status : Nat) (body : StoredJson)

/-- `resp.json()`. -/
def parsed : StoredJson → Except String Json
  | .value j => .ok j
  | .malformed message => .error message
  | .unreadable message => .error message

/-- `devices[0]`. -/
def firstOf : Json → Except String Json
  | .arr (device :: _) => .ok device
  | .arr [] => .error "list index out of range"
  | .str text =>
    match text.toList with
    | c :: _ => .ok (.str (String.singleton c))
    | [] => .error "string index out of range"
  | .obj _ => .error "0"
  | j => .error ("'" ++ typeName j ++ "' object is not subscriptable")

def errorText : GraphError → String
  | .workflow message => message
  | .other _ message => message

def readVramFree (py : Builtins) : Stats → Except String (Option Int)
  | .fault (.http _) => .ok none
  | .fault (.other message) => .error message
  | .response status body =>
    if status ≠ 200 then .ok none
    else do
      let stats := orEmpty (← parsed body)
      let devices ← getKey stats "devices"
      let device ← firstOf (if devices.truthy then devices else .arr [.obj []])
      let vramFree ← getKey device "vram_free"
      if isNull vramFree then .ok none
      else ((toInt py vramFree).map some).mapError errorText

/-! ## The machine -/

inductive Exc
  /-- `ComfyUnreachableError`. -/
  | unreachable (message : String)
  | cancelled
  /-- Any other exception. -/
  | other (message : String)

/-- What a POST that raises makes of the call. -/
def Fault.escape : Fault → Exc
  | .http text => .unreachable ("POST /free: " ++ text)
  | .other message => .other message

/-- What the call has heard from ComfyUI. -/
inductive Event
  | read (answer : Except String (Option Int))
  | post (answer : Except Fault Unit)

def Event.isPost : Event → Bool
  | .read _ => false
  | .post _ => true

inductive Pc
  | baselining
  /-- The sleep of 0.2 s. -/
  | pausing (wakeAt : Nat)
  | posting
  | verifying (baseline : Int)
  /-- The sleep of 0.5 s. -/
  | sleeping (wakeAt : Nat) (baseline : Int)
  | returned (unloaded : Bool)
  | raised (e : Exc)

structure State where
  now : Nat
  began : Nat
  baseline : Option Int
  pc : Pc
  log : List Event

section Machine

variable (py : Builtins) (verifyTimeout : Nat)

/-- The head of the loop for the baseline, which has `min(5.0, verify_timeout_s * 0.25)`. -/
def baselineHead (s : State) : State :=
  if s.now < s.began + 5000 ∧ 4 * s.now < 4 * s.began + verifyTimeout ∧ s.baseline = none then
    { s with pc := .baselining }
  else { s with pc := .posting }

def verifyHead (baseline : Int) (s : State) : State :=
  if s.now < s.began + verifyTimeout then { s with pc := .verifying baseline }
  else { s with pc := .returned false }

def call (now : Nat) : State :=
  baselineHead verifyTimeout
    { now := now, began := now, baseline := none, pc := .posting, log := [] }

def heard (e : Event) (s : State) : State := { s with log := s.log ++ [e] }

def baselined (s : State) : Except String (Option Int) → State
  | .error message => { s with pc := .raised (.other message) }
  | .ok none => { s with pc := .pausing (s.now + 200) }
  | .ok (some free) => baselineHead verifyTimeout { s with baseline := some free }

def verified (baseline : Int) (s : State) : Except String (Option Int) → State
  | .error message => { s with pc := .raised (.other message) }
  | .ok none => { s with pc := .sleeping (s.now + 500) baseline }
  | .ok (some current) =>
    if baseline < current then { s with pc := .returned true }
    else { s with pc := .sleeping (s.now + 500) baseline }

def answered (a : Stats) (s : State) : Option State :=
  let r := readVramFree py a
  match s.pc with
  | .baselining => some (baselined verifyTimeout (heard (.read r) s) r)
  | .verifying baseline => some (verified baseline (heard (.read r) s) r)
  | _ => none

def freed (s : State) : State :=
  match s.baseline with
  | none => { s with pc := .returned false }
  | some baseline => verifyHead verifyTimeout baseline s

def posted (r : Except Fault Unit) (s : State) : Option State :=
  match s.pc, r with
  | .posting, .ok () => some (freed verifyTimeout (heard (.post (.ok ())) s))
  | .posting, .error f => some { heard (.post (.error f)) s with pc := .raised f.escape }
  | _, _ => none

def wake (s : State) : Option State :=
  match s.pc with
  | .pausing wakeAt => if wakeAt ≤ s.now then some (baselineHead verifyTimeout s) else none
  | .sleeping wakeAt baseline =>
    if wakeAt ≤ s.now then some (verifyHead verifyTimeout baseline s) else none
  | _ => none

def cancel (s : State) : Option State :=
  match s.pc with
  | .returned _ => none
  | .raised _ => none
  | _ => some { s with pc := .raised .cancelled }

inductive Label
  | delay (dt : Nat)
  | stats (a : Stats)
  /-- The answer to `POST /free`. -/
  | free (r : Except Fault Unit)
  | wake
  | cancel

def next (s : State) : Label → Option State
  | .delay dt => some { s with now := s.now + dt }
  | .stats a => answered py verifyTimeout a s
  | .free r => posted verifyTimeout r s
  | .wake => wake verifyTimeout s
  | .cancel => cancel s

end Machine

/-! ## What a call has heard -/

def Blank (log : List Event) : Prop := ∀ e ∈ log, e = .read (.ok none)

/-- Up to the POST: the readings until the first that tells something. -/
inductive Baselined : Option Int → List Event → Prop
  | unknown {log : List Event} (h : Blank log) : Baselined none log
  | known {log : List Event} (free : Int) (h : Blank log) :
      Baselined (some free) (log ++ [.read (.ok (some free))])

/-- After the POST: readings that are not above the baseline. -/
def Low (baseline : Int) (log : List Event) : Prop :=
  ∀ e ∈ log, ∃ free : Option Int, e = .read (.ok free) ∧ ∀ x ∈ free, x ≤ baseline

/-- With a baseline, the POST and `k` readings after it. -/
inductive Tried (baseline : Int) (k : Nat) : List Event → Prop
  | intro {before after : List Event} (hbefore : Baselined (some baseline) before)
      (hroom : before.length ≤ 25) (hlow : Low baseline after) (hk : after.length = k) :
      Tried baseline k (before ++ .post (.ok ()) :: after)

inductive Stage (verifyTimeout : Nat) (s : State) : Prop
  | baselining (hpc : s.pc = .baselining) (hbase : s.baseline = none) (hlog : Blank s.log)
      (hpace : s.began + 200 * s.log.length ≤ s.now) (hroom : s.log.length < 25)
  | pausing (wakeAt : Nat) (hpc : s.pc = .pausing wakeAt) (hbase : s.baseline = none)
      (hlog : Blank s.log) (hpace : s.began + 200 * s.log.length ≤ wakeAt)
      (hroom : s.log.length ≤ 25)
  | posting (hpc : s.pc = .posting) (hlog : Baselined s.baseline s.log)
      (hpace : s.began ≤ s.now) (hroom : s.log.length ≤ 25)
  | verifying (baseline : Int) (k : Nat) (hpc : s.pc = .verifying baseline)
      (tried : Tried baseline k s.log) (hpace : s.began + 500 * k ≤ s.now)
      (hroom : 500 * k < verifyTimeout)
  | sleeping (wakeAt : Nat) (baseline : Int) (k : Nat) (hpc : s.pc = .sleeping wakeAt baseline)
      (tried : Tried baseline k s.log) (hpace : s.began + 500 * k ≤ wakeAt)
      (hroom : 500 * k < verifyTimeout + 500)
  /-- The last reading is above the baseline. -/
  | unloaded (baseline free : Int) (k : Nat) (log : List Event) (hpc : s.pc = .returned true)
      (hlog : s.log = log ++ [.read (.ok (some free))]) (tried : Tried baseline k log)
      (habove : baseline < free) (hroom : 500 * k < verifyTimeout)
  | unverified (log : List Event) (hpc : s.pc = .returned false)
      (hlog : s.log = log ++ [.post (.ok ())]) (hblank : Blank log) (hroom : log.length ≤ 25)
  | late (baseline : Int) (k : Nat) (hpc : s.pc = .returned false) (tried : Tried baseline k s.log)
      (hroom : 500 * k < verifyTimeout + 500) (hlate : s.began + verifyTimeout ≤ s.now)
  | refused (f : Fault) (baseline : Option Int) (log : List Event)
      (hpc : s.pc = .raised f.escape) (hlog : s.log = log ++ [.post (.error f)])
      (hbase : Baselined baseline log) (hroom : log.length ≤ 25)
  /-- A reading has raised before the POST, so there is none. -/
  | unposted (message : String) (log : List Event) (hpc : s.pc = .raised (.other message))
      (hlog : s.log = log ++ [.read (.error message)]) (hblank : Blank log)
      (hroom : log.length < 25)
  | broken (message : String) (baseline : Int) (k : Nat) (log : List Event)
      (hpc : s.pc = .raised (.other message)) (hlog : s.log = log ++ [.read (.error message)])
      (tried : Tried baseline k log) (hroom : 500 * k < verifyTimeout)
  | cancelled (hpc : s.pc = .raised .cancelled) (hpost : s.log.countP Event.isPost ≤ 1)
      (hroom : s.log.length ≤ 26 + (verifyTimeout + 499) / 500)

/-! ## One step -/

section Step

variable {py : Builtins} {verifyTimeout : Nat} {s s' : State}

theorem blank_nil : Blank [] := by
  intro e he
  cases he

theorem Blank.snoc {log : List Event} (h : Blank log) : Blank (log ++ [.read (.ok none)]) := by
  intro e he
  rcases List.mem_append.mp he with hold | hnew
  · exact h e hold
  · exact List.mem_singleton.mp hnew

theorem Blank.unposted {log : List Event} (h : Blank log) : log.countP Event.isPost = 0 := by
  refine List.countP_eq_zero.mpr fun e he => ?_
  rw [h e he]
  simp [Event.isPost]

theorem Baselined.unposted {baseline : Option Int} {log : List Event}
    (h : Baselined baseline log) : log.countP Event.isPost = 0 := by
  cases h with
  | unknown hblank => exact hblank.unposted
  | known free hblank => simp [List.countP_append, hblank.unposted, Event.isPost]

theorem Low.unposted {baseline : Int} {log : List Event} (h : Low baseline log) :
    log.countP Event.isPost = 0 := by
  refine List.countP_eq_zero.mpr fun e he => ?_
  obtain ⟨free, rfl, -⟩ := h e he
  simp [Event.isPost]

theorem Low.snoc {baseline : Int} {log : List Event} {free : Option Int} (h : Low baseline log)
    (hfree : ∀ x ∈ free, x ≤ baseline) : Low baseline (log ++ [.read (.ok free)]) := by
  intro e he
  rcases List.mem_append.mp he with hold | hnew
  · exact h e hold
  · exact ⟨free, List.mem_singleton.mp hnew, hfree⟩

theorem Tried.once {baseline : Int} {k : Nat} {log : List Event} (h : Tried baseline k log) :
    log.countP Event.isPost = 1 := by
  obtain ⟨hbefore, -, hlow, -⟩ := h
  rw [List.countP_append, List.countP_cons_of_pos rfl, hbefore.unposted, hlow.unposted]

theorem Tried.split {baseline : Int} {k : Nat} {log : List Event} (h : Tried baseline k log) :
    ∃ before after, Baselined (some baseline) before ∧ Low baseline after ∧
      log = before ++ .post (.ok ()) :: after := by
  obtain ⟨hbefore, -, hlow, -⟩ := h
  exact ⟨_, _, hbefore, hlow, rfl⟩

theorem Tried.length_le {baseline : Int} {k : Nat} {log : List Event} (h : Tried baseline k log) :
    log.length ≤ 26 + k := by
  obtain ⟨-, hroom, -, rfl⟩ := h
  simp
  omega

theorem Tried.snoc {baseline : Int} {k : Nat} {log : List Event} {free : Option Int}
    (h : Tried baseline k log) (hfree : ∀ x ∈ free, x ≤ baseline) :
    Tried baseline (k + 1) (log ++ [.read (.ok free)]) := by
  obtain ⟨hbefore, hroom, hlow, rfl⟩ := h
  rw [List.append_assoc, List.cons_append]
  exact .intro hbefore hroom (hlow.snoc hfree) (by simp)

theorem stage_baselineHead_blank (hbase : s.baseline = none) (hlog : Blank s.log)
    (hpace : s.began + 200 * s.log.length ≤ s.now) (hroom : s.log.length ≤ 25) :
    Stage verifyTimeout (baselineHead verifyTimeout s) := by
  unfold baselineHead
  split_ifs with hhead
  · exact .baselining rfl hbase hlog hpace (by dsimp only; omega)
  · refine .posting rfl ?_ (by dsimp only; omega) hroom
    simp only [hbase]
    exact .unknown hlog

theorem stage_verifyHead {baseline : Int} {k : Nat} (tried : Tried baseline k s.log)
    (hpace : s.began + 500 * k ≤ s.now) (hroom : 500 * k < verifyTimeout + 500) :
    Stage verifyTimeout (verifyHead verifyTimeout baseline s) := by
  unfold verifyHead
  split_ifs with hhead
  · exact .verifying baseline k rfl tried hpace (by omega)
  · exact .late baseline k rfl tried hroom (by dsimp only; omega)

theorem stage_call (now : Nat) : Stage verifyTimeout (call verifyTimeout now) :=
  stage_baselineHead_blank rfl blank_nil (by simp) (by simp)

theorem Stage.answered {a : Stats} (h : Stage verifyTimeout s)
    (hstep : answered py verifyTimeout a s = some s') : Stage verifyTimeout s' := by
  unfold model_unload.answered at hstep
  cases h
  case baselining hpc hbase hlog hpace hroom =>
    simp only [hpc, Option.some.injEq] at hstep
    subst hstep
    rcases readVramFree py a with message | _ | free
    · exact .unposted message s.log rfl rfl hlog hroom
    · refine .pausing (s.now + 200) rfl hbase hlog.snoc ?_ ?_
      · simp [baselined, heard]
        omega
      · simp [baselined, heard]
        omega
    · simp only [baselined, baselineHead]
      rw [if_neg (by simp)]
      refine .posting rfl (.known free hlog) (by simp only [heard]; omega) ?_
      simp [heard]
      omega
  case verifying baseline k hpc tried hpace hroom =>
    simp only [hpc, Option.some.injEq] at hstep
    subst hstep
    rcases readVramFree py a with message | _ | free
    · exact .broken message baseline k s.log rfl rfl tried hroom
    · exact .sleeping (s.now + 500) baseline (k + 1) rfl (tried.snoc (by simp))
        (by simp [verified, heard]; omega) (by omega)
    · simp only [verified]
      split_ifs with habove
      · exact .unloaded baseline free k s.log rfl rfl tried habove hroom
      · exact .sleeping (s.now + 500) baseline (k + 1) rfl (tried.snoc (by simpa using habove))
          (by simp [heard]; omega) (by omega)
  -- the call waits for something else, or has ended
  all_goals simp [‹s.pc = _›] at hstep

theorem Stage.posted {r : Except Fault Unit} (h : Stage verifyTimeout s)
    (hstep : posted verifyTimeout r s = some s') : Stage verifyTimeout s' := by
  unfold model_unload.posted at hstep
  cases h
  case posting hpc hlog hpace hroom =>
    rcases r with f | ⟨⟩
    · simp only [hpc, Option.some.injEq] at hstep
      subst hstep
      exact .refused f s.baseline s.log rfl rfl hlog hroom
    · simp only [hpc, Option.some.injEq] at hstep
      subst hstep
      rcases hbase : s.baseline with _ | baseline
      · rw [hbase] at hlog
        cases hlog with
        | unknown hblank =>
          simp only [freed, heard, hbase]
          exact .unverified s.log rfl rfl hblank hroom
      · rw [hbase] at hlog
        have htried : Tried baseline 0 (s.log ++ [.post (.ok ())]) :=
          .intro hlog hroom (fun e he => by cases he) rfl
        simp only [freed, heard, hbase]
        exact stage_verifyHead htried (by dsimp only; omega) (by omega)
  all_goals simp [‹s.pc = _›] at hstep

theorem Stage.wake (h : Stage verifyTimeout s) (hstep : wake verifyTimeout s = some s') :
    Stage verifyTimeout s' := by
  unfold model_unload.wake at hstep
  cases h
  case pausing wakeAt hpc hbase hlog hpace hroom =>
    simp only [hpc, Option.ite_none_right_eq_some, Option.some.injEq] at hstep
    obtain ⟨hwake, rfl⟩ := hstep
    exact stage_baselineHead_blank hbase hlog (by omega) hroom
  case sleeping wakeAt baseline k hpc tried hpace hroom =>
    simp only [hpc, Option.ite_none_right_eq_some, Option.some.injEq] at hstep
    obtain ⟨hwake, rfl⟩ := hstep
    exact stage_verifyHead tried (by omega) hroom
  all_goals simp [‹s.pc = _›] at hstep

theorem bounds_snoc {log : List Event} {e : Event} {n : Nat}
    (hposts : log.countP Event.isPost + [e].countP Event.isPost ≤ 1)
    (hlength : log.length + 1 ≤ n) :
    (log ++ [e]).countP Event.isPost ≤ 1 ∧ (log ++ [e]).length ≤ n := by
  rw [List.countP_append, List.length_append]
  exact ⟨hposts, hlength⟩

/-- In every stage: one POST at most, and so many answers. -/
theorem Stage.bounds (h : Stage verifyTimeout s) :
    s.log.countP Event.isPost ≤ 1 ∧ s.log.length ≤ 26 + (verifyTimeout + 499) / 500 := by
  cases h
  case baselining hpc hbase hlog hpace hroom => exact ⟨by simp [hlog.unposted], by omega⟩
  case pausing wakeAt hpc hbase hlog hpace hroom => exact ⟨by simp [hlog.unposted], by omega⟩
  case posting hpc hlog hpace hroom => exact ⟨by simp [hlog.unposted], by omega⟩
  case verifying baseline k hpc tried hpace hroom =>
    have hlength := tried.length_le
    exact ⟨tried.once.le, by omega⟩
  case sleeping wakeAt baseline k hpc tried hpace hroom =>
    have hlength := tried.length_le
    exact ⟨tried.once.le, by omega⟩
  case late baseline k hpc tried hroom hlate =>
    have hlength := tried.length_le
    exact ⟨tried.once.le, by omega⟩
  case unloaded baseline free k log hpc hlog tried habove hroom =>
    have hlength := tried.length_le
    rw [hlog]
    exact bounds_snoc (by simp [tried.once, Event.isPost]) (by omega)
  case broken message baseline k log hpc hlog tried hroom =>
    have hlength := tried.length_le
    rw [hlog]
    exact bounds_snoc (by simp [tried.once, Event.isPost]) (by omega)
  case unverified log hpc hlog hblank hroom =>
    rw [hlog]
    exact bounds_snoc (by simp [hblank.unposted, Event.isPost]) (by omega)
  case refused f baseline log hpc hlog hbase hroom =>
    rw [hlog]
    exact bounds_snoc (by simp [hbase.unposted, Event.isPost]) (by omega)
  case unposted message log hpc hlog hblank hroom =>
    rw [hlog]
    exact bounds_snoc (by simp [hblank.unposted, Event.isPost]) (by omega)
  case cancelled hpc hpost hroom => exact ⟨hpost, hroom⟩

theorem Stage.cancel (h : Stage verifyTimeout s) (hstep : cancel s = some s') :
    Stage verifyTimeout s' := by
  unfold model_unload.cancel at hstep
  split at hstep
  · cases hstep
  · cases hstep
  · cases hstep
    exact .cancelled rfl h.bounds.1 h.bounds.2

theorem Stage.delay (h : Stage verifyTimeout s) (dt : Nat) :
    Stage verifyTimeout { s with now := s.now + dt } := by
  cases h
  case baselining hpc hbase hlog hpace hroom =>
    exact .baselining hpc hbase hlog (Nat.le_add_right_of_le hpace) hroom
  case posting hpc hlog hpace hroom =>
    exact .posting hpc hlog (Nat.le_add_right_of_le hpace) hroom
  case verifying baseline k hpc tried hpace hroom =>
    exact .verifying baseline k hpc tried (Nat.le_add_right_of_le hpace) hroom
  case late baseline k hpc tried hroom hlate =>
    exact .late baseline k hpc tried hroom (Nat.le_add_right_of_le hlate)
  -- the other stages say nothing of the time
  case pausing wakeAt hpc hbase hlog hpace hroom => exact .pausing wakeAt hpc hbase hlog hpace hroom
  case sleeping wakeAt baseline k hpc tried hpace hroom =>
    exact .sleeping wakeAt baseline k hpc tried hpace hroom
  case unloaded baseline free k log hpc hlog tried habove hroom =>
    exact .unloaded baseline free k log hpc hlog tried habove hroom
  case unverified log hpc hlog hblank hroom => exact .unverified log hpc hlog hblank hroom
  case refused f baseline log hpc hlog hbase hroom =>
    exact .refused f baseline log hpc hlog hbase hroom
  case unposted message log hpc hlog hblank hroom =>
    exact .unposted message log hpc hlog hblank hroom
  case broken message baseline k log hpc hlog tried hroom =>
    exact .broken message baseline k log hpc hlog tried hroom
  case cancelled hpc hpost hroom => exact .cancelled hpc hpost hroom

theorem Stage.next {l : Label} (h : Stage verifyTimeout s)
    (hstep : next py verifyTimeout s l = some s') : Stage verifyTimeout s' := by
  cases l with
  | delay dt =>
    cases hstep
    exact h.delay dt
  | stats a => exact h.answered hstep
  | free r => exact h.posted hstep
  | wake => exact h.wake hstep
  | cancel => exact h.cancel hstep

end Step

/-! ## How many steps -/

def Pc.spent : Pc → Nat
  | .pausing _ => 0
  | .sleeping _ _ => 0
  | .raised .cancelled => 2
  | _ => 1

/-- Two steps for each answer, as a sleep may follow it. -/
def work (s : State) : Nat := 2 * s.log.length + s.pc.spent

def Label.moves : Label → Bool
  | .delay _ => false
  | _ => true

section Work

variable {py : Builtins} {verifyTimeout : Nat} {s s' : State}

theorem work_baselineHead :
    work (baselineHead verifyTimeout s) = 2 * s.log.length + 1 := by
  unfold baselineHead
  split_ifs <;> rfl

theorem work_verifyHead (baseline : Int) :
    work (verifyHead verifyTimeout baseline s) = 2 * s.log.length + 1 := by
  unfold verifyHead
  split_ifs <;> rfl

theorem work_baselined (verifyTimeout : Nat) (s : State) (r : Except String (Option Int)) :
    2 * s.log.length ≤ work (baselined verifyTimeout s r) := by
  rcases r with message | _ | free
  · exact Nat.le_add_right _ _
  · exact Nat.le_add_right _ _
  · rw [baselined, work_baselineHead]
    exact Nat.le_add_right _ _

theorem work_verified (s : State) (baseline : Int) (r : Except String (Option Int)) :
    2 * s.log.length ≤ work (verified baseline s r) := by
  rcases r with message | _ | free
  · exact Nat.le_add_right _ _
  · exact Nat.le_add_right _ _
  · simp only [verified]
    split_ifs
    · exact Nat.le_add_right _ _
    · exact Nat.le_add_right _ _

theorem work_freed : work (freed verifyTimeout s) = 2 * s.log.length + 1 := by
  rcases hbase : s.baseline with _ | baseline
  · simp only [freed, hbase]
    rfl
  · simp only [freed, hbase]
    exact work_verifyHead baseline

theorem length_heard (e : Event) : (heard e s).log.length = s.log.length + 1 := by
  simp [heard]

theorem work_moves {l : Label} (hmoves : l.moves = true)
    (hstep : next py verifyTimeout s l = some s') : work s + 1 ≤ work s' := by
  cases l with
  | delay dt => cases hmoves
  | stats a =>
    simp only [next, answered] at hstep
    split at hstep
    case h_1 hpc =>
      cases hstep
      have hwork := work_baselined verifyTimeout (heard (.read (readVramFree py a)) s)
        (readVramFree py a)
      rw [length_heard] at hwork
      simp only [work, hpc, Pc.spent] at hwork ⊢
      omega
    case h_2 baseline hpc =>
      cases hstep
      have hwork := work_verified (heard (.read (readVramFree py a)) s) baseline
        (readVramFree py a)
      rw [length_heard] at hwork
      simp only [work, hpc, Pc.spent] at hwork ⊢
      omega
    case h_3 => cases hstep
  | free r =>
    simp only [next, posted] at hstep
    split at hstep
    case h_1 hpc =>
      cases hstep
      rw [work_freed, length_heard]
      simp only [work, hpc, Pc.spent]
      omega
    case h_2 hpc =>
      cases hstep
      simp only [work, hpc, Pc.spent, length_heard]
      omega
    case h_3 => cases hstep
  | wake =>
    simp only [next, wake] at hstep
    split at hstep
    case h_1 wakeAt hpc =>
      obtain ⟨-, hs⟩ := Option.ite_none_right_eq_some.mp hstep
      cases hs
      rw [work_baselineHead, work, hpc, Pc.spent]
    case h_2 wakeAt baseline hpc =>
      obtain ⟨-, hs⟩ := Option.ite_none_right_eq_some.mp hstep
      cases hs
      rw [work_verifyHead, work, hpc, Pc.spent]
    case h_3 => cases hstep
  | cancel =>
    simp only [next, cancel] at hstep
    split at hstep
    case h_1 => cases hstep
    case h_2 => cases hstep
    case h_3 hreturned hraised =>
      cases hstep
      have hspent : s.pc.spent ≤ 1 := by
        cases hpc : s.pc with
        | raised e => exact absurd hpc (hraised e)
        | _ => simp [Pc.spent]
      change work s + 1 ≤ 2 * s.log.length + 2
      simp only [work]
      omega

theorem work_next {l : Label} (hstep : next py verifyTimeout s l = some s') :
    work s + [l].countP Label.moves ≤ work s' := by
  cases hmoves : l.moves with
  | true =>
    rw [List.countP_cons_of_pos hmoves]
    exact work_moves hmoves hstep
  | false =>
    cases l with
    | delay dt =>
      cases hstep
      rfl
    | _ => cases hmoves

theorem work_exec {labels : List Label} (hrun : exec (next py verifyTimeout) s labels = some s') :
    work s + labels.countP Label.moves ≤ work s' := by
  induction labels generalizing s with
  | nil =>
    cases hrun
    rfl
  | cons l rest ih =>
    obtain ⟨m, hstep, hrest⟩ := exec_cons.mp hrun
    have hone := work_next hstep
    have hlater := ih hrest
    rw [← List.singleton_append, List.countP_append]
    omega

theorem work_le (s : State) : work s ≤ 2 * s.log.length + 2 := by
  have hspent : s.pc.spent ≤ 2 := by
    cases s.pc with
    | raised e => cases e <;> simp [Pc.spent]
    | _ => simp [Pc.spent]
  simp only [work]
  omega

end Work

/-! ## A whole call -/

section Call

variable {py : Builtins} {verifyTimeout now : Nat} {labels : List Label} {s : State}

theorem Stage.unposted_iff (h : Stage verifyTimeout s) {e : Exc} (hpc : s.pc = .raised e)
    (he : e ≠ .cancelled) : s.log.countP Event.isPost = 0 ↔
      ∃ log message, Blank log ∧ s.log = log ++ [.read (.error message)] := by
  constructor
  · intro hnone
    cases h
    case refused f baseline log hpc' hlog hbase hroom =>
      rw [hlog, List.countP_append] at hnone
      simp [Event.isPost] at hnone
    case unposted message log hpc' hlog hblank hroom => exact ⟨log, message, hblank, hlog⟩
    case broken message baseline k log hpc' hlog tried hroom =>
      rw [hlog, List.countP_append, tried.once] at hnone
      omega
    case cancelled hpc' hpost hroom =>
      rw [hpc] at hpc'
      cases hpc'
      exact absurd rfl he
    all_goals
      have hother := ‹s.pc = _›
      simp [hpc] at hother
  · rintro ⟨log, message, hblank, hlog⟩
    rw [hlog, List.countP_append, hblank.unposted]
    simp [Event.isPost]

/-- Whatever ComfyUI answers: there is one POST at most, and an answer of true stands on a reading
that is above one from before the POST. False means that there was no baseline, or that no reading
was above it until the time was up. A call that raises has not posted exactly when a reading
before the POST was one that `_read_vram_free` cannot take. A call takes so many steps at most. -/
theorem an_unload_is_posted_and_verified
    (h : exec (next py verifyTimeout) (call verifyTimeout now) labels = some s) :
    s.log.countP Event.isPost ≤ 1 ∧
    (s.pc = .returned true → ∃ baseline free before after, baseline < free ∧
      Baselined (some baseline) before ∧
      s.log = before ++ .post (.ok ()) :: after ++ [.read (.ok (some free))]) ∧
    (s.pc = .returned false → (∃ log, Blank log ∧ s.log = log ++ [.post (.ok ())]) ∨
      ∃ baseline before after, Baselined (some baseline) before ∧ Low baseline after ∧
        s.log = before ++ .post (.ok ()) :: after ∧ s.began + verifyTimeout ≤ s.now) ∧
    (∀ e, s.pc = .raised e → e ≠ .cancelled → (s.log.countP Event.isPost = 0 ↔
      ∃ log message, Blank log ∧ s.log = log ++ [.read (.error message)])) ∧
    labels.countP Label.moves ≤ 2 * (26 + (verifyTimeout + 499) / 500) + 1 := by
  have hstage : Stage verifyTimeout s :=
    invariant_of_next (fun _ _ _ hs hstep => hs.next hstep) (stage_call now) h
  refine ⟨hstage.bounds.1, fun htrue => ?_, fun hfalse => ?_, fun e he hne => ?_, ?_⟩
  · cases hstage
    case unloaded baseline free k log hpc hlog tried habove hroom =>
      obtain ⟨before, after, hbefore, -, rfl⟩ := tried.split
      exact ⟨baseline, free, before, after, habove, hbefore, hlog⟩
    all_goals
      have hother := ‹s.pc = _›
      simp [htrue] at hother
  · cases hstage
    case unverified log hpc hlog hblank hroom => exact .inl ⟨log, hblank, hlog⟩
    case late baseline k hpc tried hroom hlate =>
      obtain ⟨before, after, hbefore, hlow, hlog⟩ := tried.split
      exact .inr ⟨baseline, before, after, hbefore, hlow, hlog, hlate⟩
    all_goals
      have hother := ‹s.pc = _›
      simp [hfalse] at hother
  · exact hstage.unposted_iff he hne
  · have hwork := work_exec h
    have hle := work_le s
    have hlength := hstage.bounds.2
    have hcall : work (call verifyTimeout now) = 1 := work_baselineHead
    omega

end Call

def statsOf (free : Int) : Stats :=
  .response 200 (.value (.obj [("devices", .arr [.obj [("vram_free", .int free)]])]))

/-- The first reading is lost, and ComfyUI takes a while to unload. -/
def slowUnload : List Label :=
  [.stats (.fault (.http "")), .delay 200, .wake, .stats (statsOf 1), .free (.ok ()),
    .stats (statsOf 1), .delay 500, .wake, .stats (statsOf 2)]

theorem a_slow_unload_is_verified : ∃ s,
    exec (next graph.asciiBuiltins 30000) (call 30000 0) slowUnload = some s ∧
    ∃ baseline free before after, baseline < free ∧ Baselined (some baseline) before ∧
      s.log = before ++ .post (.ok ()) :: after ++ [.read (.ok (some free))] := by
  refine ⟨_, rfl, ?_⟩
  have hrun : exec (next graph.asciiBuiltins 30000) (call 30000 0) slowUnload = some _ := rfl
  exact (an_unload_is_posted_and_verified hrun).2.1 rfl

end image_gen.model_unload

-- The wait for one prompt next to all waits of the adapter: a run of the first
-- is a run of the second with one wait, with what the backend does left out.
import ImageGen.ComfyWait
import ImageGen.CompletionSound
import ImageGen.Results
import ImageGen.SharedWaits

namespace image_gen.one_wait

open image_gen.json image_gen.runs image_gen.shared_waits
open image_gen.completion_sound (orEmpty_obj)
open image_gen.results (ok_bind)

/-! ## What the adapter receives -/

def orNull : Option String → Json
  | some s => .str s
  | none => .null

/-- The entry as `/history` has it. -/
def entryJson (e : comfy_wait.Entry) : Json :=
  .obj [
    ("status", .obj [
      ("completed", .bool e.completed),
      ("status_str", orNull e.statusStr),
      ("messages", .arr (List.replicate e.messages .null))]),
    ("outputs", .obj ((List.range e.outputs).map fun i => (toString i, .null)))]

def historyBody (promptId : String) : Option comfy_wait.Entry → Json
  | some e => .obj [(promptId, entryJson e)]
  | none => .obj []

def frameOf : comfy_wait.Frame → Frame
  | .binary => .binary
  | .notJson => .malformed
  | .event type node promptId => .json (.obj [
      ("type", .str type),
      ("data", .obj [("node", orNull node), ("prompt_id", orNull promptId)])])

/-- `str(value)`, of what a progress signature is made of. -/
structure Prints (pyStr : Json → String) : Prop where
  bool : ∀ b, pyStr (.bool b) = if b then "True" else "False"
  null : pyStr .null = "None"
  str : ∀ s, pyStr (.str s) = s

section Keys

variable {key k : String} {v : Json} {rest : List (String × Json)}

theorem getKey_here : getKey (.obj ((key, v) :: rest)) key = .ok v := by
  simp [getKey, Json.get]

theorem getKey_next (h : key ≠ k) :
    getKey (.obj ((k, v) :: rest)) key = getKey (.obj rest) key := by
  have hbeq : (key == k) = false := beq_eq_false_iff_ne.mpr h
  simp only [getKey, Json.get, List.lookup_cons, hbeq]

end Keys

theorem readFrame_frameOf (f : comfy_wait.Frame) : readFrame (frameOf f) = .ok f.terminal := by
  rcases f with _ | _ | ⟨type, node, promptId⟩
  · rfl
  · rfl
  · simp only [frameOf, readFrame, readEvent, getKey_here, getKey_next, ok_bind, orEmpty_obj,
      ne_eq, String.reduceEq, not_false_eq_true, isStr]
    by_cases htype : type = "executing"
    · subst htype
      rcases node with _ | node
      · rcases promptId with _ | promptId
        · rfl
        · by_cases hid : promptId = ""
          · subst hid
            rfl
          · simp [isNull, orNull, comfy_wait.Frame.terminal, hid, pure, Except.pure]
      · rfl
    · rcases node with _ | node
      · cases promptId <;> simp [htype, comfy_wait.Frame.terminal, pure, Except.pure]
      · simp [htype, comfy_wait.Frame.terminal, pure, Except.pure]

theorem historyEntry_body (promptId : String) (entry : Option comfy_wait.Entry) :
    historyEntry promptId (historyBody promptId entry) = .ok (entry.map entryJson) := by
  cases entry with
  | none => rfl
  | some e => simp [historyEntry, historyBody, getKey, Json.get, entryJson, Json.truthy]

theorem lenOrEmpty_arr (items : List Json) : lenOrEmpty (.arr items) = .ok items.length := by
  cases items <;> rfl

theorem lenOrEmpty_obj (fields : List (String × Json)) :
    lenOrEmpty (.obj fields) = .ok fields.length := by
  cases fields <;> rfl

section Answers

variable {cfg : comfy_wait.Config} {pyStr : Json → String}

def configOf (cfg : comfy_wait.Config) (pyStr : Json → String) : Config where
  pollInterval := cfg.pollInterval
  progressPollInterval := cfg.progressPollInterval
  stallTimeout := cfg.stallTimeout
  pyStr := pyStr

theorem progressSignature_entryJson (h : Prints pyStr) (entry : Option comfy_wait.Entry) :
    progressSignature (configOf cfg pyStr) (entry.map entryJson) =
      .ok (comfy_wait.progressSignature entry) := by
  rcases entry with _ | ⟨completed, statusStr, messages, outputs⟩
  · rfl
  · simp only [progressSignature, Option.map_some, entryJson, getKey_here, getKey_next, ok_bind,
      orEmpty_obj, lenOrEmpty_arr, lenOrEmpty_obj, configOf, h.bool, ne_eq, String.reduceEq,
      not_false_eq_true, List.length_replicate, List.length_map, List.length_range,
      comfy_wait.progressSignature]
    cases statusStr
    · simp [orNull, h.null, pure, Except.pure]
    · simp [orNull, h.str, pure, Except.pure]

theorem completion_entryJson (entry : Option comfy_wait.Entry) :
    completion (entry.map entryJson) =
      .ok ((entry.filter (·.completed)).map fun e => !e.errored) := by
  rcases entry with _ | ⟨completed, statusStr, messages, outputs⟩
  · rfl
  · cases completed with
    | false => rfl
    | true =>
      rcases statusStr with _ | statusStr
      · rfl
      · simp [completion, entryJson, getKey_here, getKey_next, ok_bind, orEmpty_obj, isNull,
          isStr, orNull, comfy_wait.Entry.errored, pure, Except.pure]

/-! ## One wait -/

/-- Where the wait stands. The reader that it waits for is the last one. Before the
call there is no wait. -/
def pcOf (readers : Nat) : comfy_wait.Pc → Pc
  | .idle => .returned
  | .signing _ => .signing
  | .connecting left => .connecting left
  | .backoff wakeAt left => .backoff wakeAt left
  | .waiting wakeAt => .waiting readers wakeAt
  | .checking _ => .checking
  | .polling remaining _ => .polling remaining
  | .sleeping wakeAt => .sleeping wakeAt
  | .returned => .returned
  | .timedOut => .raised .timeout
  | .nodeError => .raised .nodeError

def waitOf (cfg : comfy_wait.Config) (readers since : Nat) (s : comfy_wait.State) : Wait where
  promptId := cfg.promptId
  deadline := s.deadline
  future := s.future
  registered := s.pc.registered
  pc := pcOf readers s.pc
  reconnectsUsed := s.reconnectsUsed
  lastProgressAt := s.lastProgressAt
  lastSignature := s.lastSignature
  since := since

def sharedOf (readers : Nat) (s : comfy_wait.State) : Shared := ⟨s.now, s.conn.isSome, readers⟩

variable {readers since : Nat} {s : comfy_wait.State}

theorem waitOf_move (hlive : s.pc.registered = true) {pc : comfy_wait.Pc} {pc' : Pc}
    (hpc : pcOf readers pc = pc') (hnext : pc.registered = true) :
    { waitOf cfg readers since s with pc := pc' } =
      waitOf cfg readers since { s with pc := pc } := by
  simp only [waitOf, hlive, hpc, hnext]

theorem loopHead_waitOf (hlive : s.pc.registered = true) :
    loopHead (configOf cfg pyStr) (sharedOf readers s) (waitOf cfg readers since s) =
      waitOf cfg readers since (comfy_wait.loopHead cfg s) := by
  unfold loopHead comfy_wait.loopHead
  by_cases hfuture : s.future = true
  · rw [if_pos hfuture]
    exact if_pos hfuture
  · rw [if_neg hfuture]
    refine Eq.trans (if_neg hfuture) ?_
    by_cases hlate : s.deadline ≤ s.now
    · rw [if_pos hlate]
      exact if_pos hlate
    · rw [if_neg hlate]
      refine Eq.trans (if_neg hlate) ?_
      rcases hstall : cfg.stallTimeout with _ | timeout
      · simp only [configOf, hstall]
        exact waitOf_move hlive rfl rfl
      · simp only [configOf, hstall]
        exact waitOf_move hlive rfl rfl

theorem pollHead_waitOf (hlive : s.pc.registered = true) :
    pollHead (sharedOf readers s) (waitOf cfg readers since s) =
      waitOf cfg readers since (comfy_wait.pollHead s) := by
  unfold pollHead comfy_wait.pollHead
  by_cases hlate : s.deadline ≤ s.now
  · rw [if_pos hlate]
    exact if_pos hlate
  · rw [if_neg hlate]
    exact (if_neg hlate).trans (waitOf_move hlive rfl rfl)

theorem startPolling_waitOf (hlive : s.pc.registered = true) :
    startPolling (sharedOf readers s) (waitOf cfg readers since s) =
      waitOf cfg readers since (comfy_wait.startPolling s) :=
  pollHead_waitOf (s := { s with lastProgressAt := s.now, lastSignature := none }) hlive

theorem ensureWs_waitOf (hlive : s.pc.registered = true) (left : Nat) :
    ensureWs (configOf cfg pyStr) (sharedOf readers s) left (waitOf cfg readers since s) =
      waitOf cfg readers since (comfy_wait.ensureWs cfg left s) := by
  unfold ensureWs comfy_wait.ensureWs
  by_cases hup : s.conn.isSome = true
  · rw [if_pos hup]
    exact (if_pos hup).trans (loopHead_waitOf hlive)
  · rw [if_neg hup]
    exact (if_neg hup).trans (waitOf_move hlive rfl rfl)

theorem stalled_waitOf : stalled (configOf cfg pyStr) (sharedOf readers s)
    (waitOf cfg readers since s) = comfy_wait.stalled cfg s := by
  unfold stalled comfy_wait.stalled
  rcases hstall : cfg.stallTimeout with _ | timeout
  · simp only [configOf, hstall]
  · simp only [configOf, hstall]
    rfl

theorem readerDied_waitOf (hlive : s.pc.registered = true) :
    readerDied (sharedOf readers s) (waitOf cfg readers since s) =
      waitOf cfg readers since (comfy_wait.readerDied s) := by
  unfold readerDied comfy_wait.readerDied
  by_cases hused : comfy_wait.maxReconnects ≤ s.reconnectsUsed
  · rw [if_pos hused]
    exact (if_pos hused).trans (startPolling_waitOf hlive)
  · rw [if_neg hused]
    exact (if_neg hused).trans
      (waitOf_move (s := { s with reconnectsUsed := s.reconnectsUsed + 1 }) hlive rfl rfl)

theorem historySignature_body (h : Prints pyStr) (entry : Option comfy_wait.Entry) :
    historySignature (configOf cfg pyStr) cfg.promptId
        (.response 200 (some (historyBody cfg.promptId entry))) =
      .ok (comfy_wait.progressSignature entry) := by
  have hbody : orEmpty (historyBody cfg.promptId entry) = historyBody cfg.promptId entry := by
    cases entry <;> rfl
  simp only [historySignature, hbody, historyEntry_body, ok_bind]
  exact progressSignature_entryJson h entry

theorem checked_waitOf (h : Prints pyStr) (hlive : s.pc.registered = true)
    (entry : Option comfy_wait.Entry) :
    checked (configOf cfg pyStr) (sharedOf readers s)
        (.response 200 (some (historyBody cfg.promptId entry))) (waitOf cfg readers since s) =
      waitOf cfg readers since (comfy_wait.checked cfg entry s) := by
  have hsig : historySignature (configOf cfg pyStr) (waitOf cfg readers since s).promptId
      (.response 200 (some (historyBody cfg.promptId entry))) =
        .ok (comfy_wait.progressSignature entry) := historySignature_body h entry
  simp only [checked, hsig]
  unfold comfy_wait.checked
  by_cases hnew : comfy_wait.progressed s.lastSignature (comfy_wait.progressSignature entry) = true
  · rw [if_pos hnew]
    refine (if_pos hnew).trans ?_
    exact loopHead_waitOf (s := { s with
      lastSignature := comfy_wait.progressSignature entry, lastProgressAt := s.now }) hlive
  · rw [if_neg hnew]
    refine (if_neg hnew).trans ?_
    rw [stalled_waitOf]
    by_cases hstall : comfy_wait.stalled cfg s = true
    · rw [if_pos hstall, if_pos hstall]
      rfl
    · rw [if_neg hstall, if_neg hstall]
      exact loopHead_waitOf hlive

/-- The turn of a poll that has not completed. -/
theorem pollAgain_waitOf (hlive : s.pc.registered = true) (remaining : Nat)
    {entry : Option comfy_wait.Entry} (hrunning : entry.filter (·.completed) = none) :
    pollAgain (configOf cfg pyStr) (sharedOf readers s) remaining
        (comfy_wait.progressSignature entry) (waitOf cfg readers since s) =
      waitOf cfg readers since (comfy_wait.polled cfg remaining entry s) := by
  simp only [comfy_wait.polled, hrunning]
  unfold pollAgain
  by_cases hnew : comfy_wait.progressed s.lastSignature (comfy_wait.progressSignature entry) = true
  · rw [if_pos hnew]
    refine (if_pos hnew).trans ?_
    exact waitOf_move (s := { s with
      lastSignature := comfy_wait.progressSignature entry, lastProgressAt := s.now }) hlive rfl rfl
  · rw [if_neg hnew]
    refine (if_neg hnew).trans ?_
    rw [stalled_waitOf]
    by_cases hstall : comfy_wait.stalled cfg s = true
    · rw [if_pos hstall, if_pos hstall]
      rfl
    · rw [if_neg hstall, if_neg hstall]
      exact waitOf_move hlive rfl rfl

theorem polled_waitOf (h : Prints pyStr) (hlive : s.pc.registered = true) (remaining : Nat)
    (entry : Option comfy_wait.Entry) :
    polled (configOf cfg pyStr) (sharedOf readers s) remaining
        (.response 200 (some (historyBody cfg.promptId entry))) (waitOf cfg readers since s) =
      waitOf cfg readers since (comfy_wait.polled cfg remaining entry s) := by
  have hentry : historyEntry (waitOf cfg readers since s).promptId
      (historyBody cfg.promptId entry) = .ok (entry.map entryJson) := historyEntry_body _ entry
  simp only [polled, polledBody, hentry, ok_bind, completion_entryJson,
    progressSignature_entryJson h]
  rcases hdone : entry.filter (·.completed) with _ | e
  · simp only [hdone, Option.map_none]
    exact pollAgain_waitOf hlive remaining hdone
  · simp only [comfy_wait.polled, hdone, Option.map_some]
    cases e.errored <;> rfl

theorem wakeWaiting_waitOf (hlive : s.pc.registered = true) (wakeAt : Nat) :
    wakeWaiting (configOf cfg pyStr) (sharedOf readers s) readers wakeAt
        (waitOf cfg readers since s) =
      (comfy_wait.wakeWaiting cfg wakeAt s).map (waitOf cfg readers since) := by
  unfold wakeWaiting comfy_wait.wakeWaiting
  by_cases hfuture : s.future = true
  · rw [if_pos hfuture]
    exact if_pos hfuture
  · rw [if_neg hfuture]
    refine (if_neg hfuture).trans ?_
    by_cases hconn : s.conn = none
    · have hdown : (sharedOf readers s).up = false := by simp [sharedOf, hconn]
      rw [if_pos hconn, if_pos (.inl hdown), readerDied_waitOf hlive, Option.map_some]
    · have hup : ¬ ((sharedOf readers s).up = false ∨ readers ≠ (sharedOf readers s).readers) := by
        simpa [sharedOf] using hconn
      rw [if_neg hconn, if_neg hup]
      by_cases hlate : wakeAt ≤ s.now
      · rw [if_pos hlate]
        refine (if_pos hlate).trans ?_
        rcases hstall : cfg.stallTimeout with _ | timeout
        · simp only [configOf, hstall]
          rfl
        · simp only [configOf, hstall]
          exact congrArg some (waitOf_move hlive rfl rfl)
      · rw [if_neg hlate]
        exact if_neg hlate

/-! ## Its steps -/

variable {log : List Event} {s' : comfy_wait.State}

def stateOf (cfg : comfy_wait.Config) (readers since : Nat) (log : List Event)
    (s : comfy_wait.State) : State :=
  ⟨sharedOf readers s, if s.pc = .idle then [] else [waitOf cfg readers since s], log⟩

/-- What the adapter does at a step. At one of the backend or the network it does nothing. -/
def labels (cfg : comfy_wait.Config) (s : comfy_wait.State) : comfy_wait.Label → List Label
  | .delay dt => [.delay dt]
  | .connected => [.connected 0]
  | .refused => [.refused 0]
  | .answer => (s.pc.answered.map fun entry =>
      .answer 0 (.response 200 (some (historyBody cfg.promptId entry)))).toList
  | .read => ((s.conn.bind fun c => c.frames.head?).map fun f => .receive (frameOf f)).toList
  | .readerEnds => [.lose]
  | .call timeout => [.call cfg.promptId timeout]
  | .wake => [.wake 0]
  | _ => []

/-- The adapter of the state takes the labels to the adapter of the next state. -/
def Steps (cfg : comfy_wait.Config) (pyStr : Json → String) (s s' : comfy_wait.State)
    (l : comfy_wait.Label) : Prop :=
  ∀ readers since log, ∃ readers' since' log', exec (next (configOf cfg pyStr))
    (stateOf cfg readers since log s) (labels cfg s l) =
      some (stateOf cfg readers' since' log' s')

theorem sharedOf_congr (h : comfy_wait.record s' = comfy_wait.record s) :
    sharedOf readers s' = sharedOf readers s := by
  simp only [comfy_wait.record, Prod.mk.injEq] at h
  simp only [sharedOf, h.1, h.2.2.2.1]

theorem stateOf_called (h : s.pc ≠ .idle) : stateOf cfg readers since log s =
    ⟨sharedOf readers s, [waitOf cfg readers since s], log⟩ := by
  rw [stateOf, if_neg h]

theorem exec_one {t t' : State} {l : Label} (h : next (configOf cfg pyStr) t l = some t') :
    exec (next (configOf cfg pyStr)) t [l] = some t' := exec_cons.mpr ⟨t', h, rfl⟩

theorem live_of_ne {pc : comfy_wait.Pc} (h : pc.registered = true) : pc ≠ .idle := by
  rintro rfl
  cases h

/-- A step of the wait alone. -/
theorem waitStep_stateOf (hlive : s.pc.registered = true) (hne : s'.pc ≠ .idle)
    (hrecord : comfy_wait.record s' = comfy_wait.record s) {f : Wait → Option Wait}
    (hf : f (waitOf cfg readers since s) = some (waitOf cfg readers since s')) :
    waitStep (stateOf cfg readers since log s) 0 f = some (stateOf cfg readers since log s') := by
  rw [stateOf_called (live_of_ne hlive), stateOf_called hne, sharedOf_congr hrecord]
  simp [waitStep, hf, State.set]

theorem locked_stateOf (h : ∀ left, s.pc ≠ .connecting left) :
    (stateOf cfg readers since log s).locked = false := by
  unfold stateOf State.locked
  split_ifs
  · rfl
  · rcases hpc : s.pc with _ | _ | left <;> simp [waitOf, hpc, pcOf]
    exact h left hpc

theorem pc_waitOf {pc : comfy_wait.Pc} (h : s.pc = pc) :
    (waitOf cfg readers since s).pc = pcOf readers pc := congrArg (pcOf readers) h

theorem steps_connected (hstep : comfy_wait.connected cfg s = some s') :
    Steps cfg pyStr s s' .connected := by
  intro readers since log
  unfold comfy_wait.connected at hstep
  split at hstep <;> cases hstep
  rename_i left hpc
  let up : comfy_wait.State := { s with conn := some ⟨[], true⟩ }
  have hlive : up.pc.registered = true := by simp [up, hpc, comfy_wait.Pc.registered]
  have hwait : waitOf cfg readers since s = waitOf cfg (readers + 1) since up := by
    simp [waitOf, up, hpc, pcOf]
  have hshared : sharedOf (readers + 1) (comfy_wait.loopHead cfg up) = sharedOf (readers + 1) up :=
    sharedOf_congr (comfy_wait.record_loopHead cfg up)
  have hpc' : (waitOf cfg (readers + 1) since up).pc = .connecting left := pc_waitOf hpc
  have hhead : loopHead (configOf cfg pyStr) (sharedOf (readers + 1) up)
      (waitOf cfg (readers + 1) since up) =
        waitOf cfg (readers + 1) since (comfy_wait.loopHead cfg up) := loopHead_waitOf hlive
  refine ⟨readers + 1, since, log ++ [.opened 0], exec_one ?_⟩
  rw [stateOf_called (by simp [hpc]), stateOf_called (comfy_wait.loopHead_ne_idle up), hwait,
    ← hhead, hshared]
  simp only [next, List.getElem?_cons_zero, Option.bind_eq_bind, Option.bind_some, hpc']
  rfl

theorem steps_refused (hstep : comfy_wait.refused s = some s') :
    Steps cfg pyStr s s' .refused := by
  intro readers since log
  refine ⟨readers, since, log, exec_one ?_⟩
  unfold comfy_wait.refused at hstep
  split at hstep <;> cases hstep
  · rename_i hpc
    have hlive : s.pc.registered = true := by simp [hpc, comfy_wait.Pc.registered]
    have hpc' : (waitOf cfg readers since s).pc = .connecting 0 := pc_waitOf hpc
    have hne : (comfy_wait.startPolling s).pc ≠ .idle := comfy_wait.pollHead_ne_idle _
    refine waitStep_stateOf hlive hne (comfy_wait.record_pollHead _) ?_
    simp only [refused, hpc']
    exact congrArg some (startPolling_waitOf hlive)
  · rename_i left hpc
    have hlive : s.pc.registered = true := by simp [hpc, comfy_wait.Pc.registered]
    have hpc' : (waitOf cfg readers since s).pc = .connecting (left + 1) := pc_waitOf hpc
    refine waitStep_stateOf hlive ?_ ?_ ?_
    · simp
    · rfl
    · simp only [refused, hpc']
      exact congrArg some (waitOf_move hlive rfl rfl)

theorem steps_wake (hstep : comfy_wait.wake cfg s = some s') : Steps cfg pyStr s s' .wake := by
  intro readers since log
  refine ⟨readers, since, log, exec_one ?_⟩
  unfold comfy_wait.wake at hstep
  split at hstep
  · rename_i wakeAt hpc
    have hlive : s.pc.registered = true := by simp [hpc, comfy_wait.Pc.registered]
    have hpc' : (waitOf cfg readers since s).pc = .waiting readers wakeAt := pc_waitOf hpc
    refine waitStep_stateOf hlive (comfy_wait.wakeWaiting_ne_idle hstep)
      (comfy_wait.record_wakeWaiting hstep) ?_
    simp only [wake, hpc']
    refine (wakeWaiting_waitOf hlive wakeAt).trans ?_
    rw [hstep, Option.map_some]
  · rename_i wakeAt left hpc
    have hlive : s.pc.registered = true := by simp [hpc, comfy_wait.Pc.registered]
    have hpc' : (waitOf cfg readers since s).pc = .backoff wakeAt left := pc_waitOf hpc
    simp only [Option.ite_none_right_eq_some, Option.some.injEq] at hstep
    obtain ⟨hlate, rfl⟩ := hstep
    refine waitStep_stateOf hlive (comfy_wait.ensureWs_ne_idle left s)
      (comfy_wait.record_ensureWs left s) ?_
    simp only [wake, hpc', tryConnect, locked_stateOf (s := s) (by simp [hpc])]
    refine (if_pos hlate).trans ?_
    exact congrArg some (ensureWs_waitOf hlive left)
  · rename_i wakeAt hpc
    have hlive : s.pc.registered = true := by simp [hpc, comfy_wait.Pc.registered]
    have hpc' : (waitOf cfg readers since s).pc = .sleeping wakeAt := pc_waitOf hpc
    simp only [Option.ite_none_right_eq_some, Option.some.injEq] at hstep
    obtain ⟨hlate, rfl⟩ := hstep
    refine waitStep_stateOf hlive (comfy_wait.pollHead_ne_idle s) (comfy_wait.record_pollHead s) ?_
    simp only [wake, hpc']
    refine (if_pos hlate).trans ?_
    exact congrArg some (pollHead_waitOf hlive)
  · cases hstep

/-- An answer that leaves the wait in the state that it leaves the one wait in. -/
theorem steps_answered {entry : Option comfy_wait.Entry} (hlive : s.pc.registered = true)
    (hne : s'.pc ≠ .idle) (hrecord : comfy_wait.record s' = comfy_wait.record s)
    (hanswered : s.pc.answered = some entry)
    (hstep : ∀ readers since log, answer (configOf cfg pyStr) (stateOf cfg readers since log s)
      (.response 200 (some (historyBody cfg.promptId entry))) (waitOf cfg readers since s) =
        some (waitOf cfg readers since s')) : Steps cfg pyStr s s' .answer := by
  intro readers since log
  let a : HistoryAnswer := .response 200 (some (historyBody cfg.promptId entry))
  refine ⟨readers, since, log ++ [.answered cfg.promptId a], ?_⟩
  simp only [labels, hanswered, Option.map_some, Option.toList_some]
  refine exec_one ?_
  have hans := hstep readers since log
  rw [stateOf_called (live_of_ne hlive)] at hans ⊢
  rw [stateOf_called hne, sharedOf_congr hrecord]
  simp only [next, List.getElem?_cons_zero, Option.bind_eq_bind, Option.bind_some, hans]
  rfl

theorem steps_answer (h : Prints pyStr) (hstep : comfy_wait.answer cfg s = some s') :
    Steps cfg pyStr s s' .answer := by
  unfold comfy_wait.answer at hstep
  split at hstep
  · rename_i entry hpc
    cases hstep
    have hlive : s.pc.registered = true := by simp [hpc, comfy_wait.Pc.registered]
    refine steps_answered hlive (comfy_wait.ensureWs_ne_idle 1 _) (comfy_wait.record_ensureWs 1 _)
      (by rw [hpc]; rfl) fun readers since log => ?_
    have hpc' : (waitOf cfg readers since s).pc = .signing := pc_waitOf hpc
    have hsig : historySignature (configOf cfg pyStr) (waitOf cfg readers since s).promptId
      (.response 200 (some (historyBody cfg.promptId entry))) =
        .ok (comfy_wait.progressSignature entry) := historySignature_body h entry
    simp only [answer, hpc', signed, hsig, tryConnect, locked_stateOf (s := s) (by simp [hpc])]
    exact congrArg some (ensureWs_waitOf
      (s := { s with lastSignature := comfy_wait.progressSignature entry }) hlive 1)
  · rename_i entry hpc
    cases hstep
    have hlive : s.pc.registered = true := by simp [hpc, comfy_wait.Pc.registered]
    refine steps_answered hlive (comfy_wait.checked_ne_idle entry s)
      (comfy_wait.record_checked entry s) (by rw [hpc]; rfl) fun readers since log => ?_
    have hpc' : (waitOf cfg readers since s).pc = .checking := pc_waitOf hpc
    simp only [answer, hpc']
    exact congrArg some (checked_waitOf h hlive entry)
  · rename_i remaining entry hpc
    cases hstep
    have hlive : s.pc.registered = true := by simp [hpc, comfy_wait.Pc.registered]
    refine steps_answered hlive (comfy_wait.polled_ne_idle remaining entry s)
      (comfy_wait.record_polled remaining entry s) (by rw [hpc]; rfl) fun readers since log => ?_
    have hpc' : (waitOf cfg readers since s).pc = .polling remaining := pc_waitOf hpc
    simp only [answer, hpc']
    exact congrArg some (polled_waitOf h hlive remaining entry)
  · cases hstep

theorem steps_read (hstep : comfy_wait.wsReader cfg s = some s') : Steps cfg pyStr s s' .read := by
  intro readers since log
  unfold comfy_wait.wsReader at hstep
  split at hstep <;> cases hstep
  rename_i f frames isOpen hconn
  refine ⟨readers, since, log ++ [.received (frameOf f)], ?_⟩
  simp only [labels, hconn, Option.bind_some, List.head?_cons, Option.map_some, Option.toList_some]
  refine exec_one ?_
  have hup : (stateOf cfg readers since log s).shared.up = true := by
    simp [stateOf, sharedOf, hconn]
  simp only [next, hup, if_true, readFrame_frameOf]
  rcases hf : f.terminal with _ | pid
  · simp [stateOf, sharedOf, waitOf, hconn]
  · by_cases hidle : s.pc = .idle
    · simp [stateOf, sharedOf, hconn, hidle]
    · rw [stateOf_called hidle, stateOf_called (by exact hidle)]
      by_cases hhit : s.pc.registered = true ∧ cfg.promptId = pid
      · have hwait : resolve pid (waitOf cfg readers since s) =
            { waitOf cfg readers since s with future := true } := if_pos hhit
        simp only [List.map_cons, List.map_nil, hwait]
        simp [waitOf, sharedOf, hconn, hhit.1, hhit.2]
      · have hwait : resolve pid (waitOf cfg readers since s) = waitOf cfg readers since s :=
          if_neg hhit
        have hmiss : ¬ (pid = cfg.promptId ∧ s.pc.registered = true) :=
          fun hboth => hhit ⟨hboth.2, hboth.1.symm⟩
        simp only [List.map_cons, List.map_nil, hwait]
        simp [waitOf, sharedOf, hconn, hmiss]

theorem steps_call (hidle : s.pc = .idle) (timeout : Nat) :
    Steps cfg pyStr s (comfy_wait.call cfg timeout s) (.call timeout) := by
  intro readers since log
  -- the state that a call with a stall timeout is in first
  let first : comfy_wait.State := { comfy_wait.register timeout s with pc := .signing none }
  have hnone : (stateOf cfg readers since log s).waits = [] := if_pos hidle
  have hlocked : (stateOf cfg readers since log s).locked = false :=
    locked_stateOf (by simp [hidle])
  have hnew : newWait (stateOf cfg readers since log s) cfg.promptId timeout =
      waitOf cfg readers log.length first := rfl
  have hcall : call (configOf cfg pyStr) (stateOf cfg readers since log s) cfg.promptId timeout =
      waitOf cfg readers log.length (comfy_wait.call cfg timeout s) := by
    unfold call comfy_wait.call
    simp only [hnone, List.any_nil, hlocked, hnew]
    refine (if_neg Bool.false_ne_true).trans ?_
    rcases hstall : cfg.stallTimeout with _ | stall
    · have hstall' : (configOf cfg pyStr).stallTimeout = none := hstall
      simp only [hstall']
      exact ensureWs_waitOf (s := first) rfl 1
    · have hstall' : (configOf cfg pyStr).stallTimeout = some stall := hstall
      simp only [hstall']
      rfl
  have hcalled : (comfy_wait.call cfg timeout s).pc ≠ .idle := by
    unfold comfy_wait.call
    split
    · simp
    · exact comfy_wait.ensureWs_ne_idle 1 _
  have hshared : sharedOf readers (comfy_wait.call cfg timeout s) = sharedOf readers s :=
    sharedOf_congr (s := comfy_wait.register timeout s) (comfy_wait.record_call cfg timeout s)
  refine ⟨readers, log.length, log, exec_one ?_⟩
  rw [stateOf_called hcalled, hshared]
  simp only [next, hnone, hcall, List.nil_append]
  rfl

/-- Each step of the one wait is a step of the adapter, or no step of it. -/
theorem steps_next (h : Prints pyStr) {l : comfy_wait.Label}
    (hstep : comfy_wait.next cfg s l = some s') : Steps cfg pyStr s s' l := by
  cases l with
  | delay dt =>
    cases hstep
    exact fun readers since log => ⟨readers, since, log, rfl⟩
  | progress e =>
    simp only [comfy_wait.next, Option.ite_none_right_eq_some, Option.some.injEq] at hstep
    obtain ⟨-, rfl⟩ := hstep
    exact fun readers since log => ⟨readers, since, log, rfl⟩
  | finish e =>
    simp only [comfy_wait.next, Option.ite_none_right_eq_some, Option.some.injEq] at hstep
    obtain ⟨-, rfl⟩ := hstep
    refine fun readers since log => ⟨readers, since, log, ?_⟩
    simp [labels, stateOf, sharedOf, waitOf, comfy_wait.send]
  | frame f =>
    simp only [comfy_wait.next, Option.ite_none_right_eq_some, Option.some.injEq] at hstep
    obtain ⟨-, rfl⟩ := hstep
    refine fun readers since log => ⟨readers, since, log, ?_⟩
    simp [labels, stateOf, sharedOf, waitOf, comfy_wait.send]
  | close kept =>
    simp only [comfy_wait.next] at hstep
    split at hstep <;> cases hstep
    rename_i frames hconn
    refine fun readers since log => ⟨readers, since, log, ?_⟩
    simp [labels, stateOf, sharedOf, waitOf, hconn]
  | connected => exact steps_connected hstep
  | refused => exact steps_refused hstep
  | serve =>
    simp only [comfy_wait.next, comfy_wait.serve] at hstep
    split at hstep <;> cases hstep <;> rename_i hpc <;>
      refine fun readers since log => ⟨readers, since, log, ?_⟩ <;>
      simp [labels, stateOf, sharedOf, waitOf, hpc, pcOf, comfy_wait.Pc.registered]
  | answer => exact steps_answer h hstep
  | read => exact steps_read hstep
  | readerEnds =>
    simp only [comfy_wait.next, Option.ite_none_right_eq_some, Option.some.injEq] at hstep
    obtain ⟨hconn, rfl⟩ := hstep
    refine fun readers since log => ⟨readers, since, log, exec_one ?_⟩
    simp [next, stateOf, sharedOf, waitOf, hconn]
  | call timeout =>
    simp only [comfy_wait.next, Option.ite_none_right_eq_some, Option.some.injEq] at hstep
    obtain ⟨hidle, rfl⟩ := hstep
    exact steps_call hidle timeout
  | wake => exact steps_wake hstep

end Answers

/-- The adapter before the call, with the socket up or not. -/
def startOf (isUp : Bool) : State := ⟨⟨0, isUp, 0⟩, [], []⟩

/-- What the wait for one prompt does, next to its backend, the adapter does: a run
of the one leads where a run of the other leads, to the one wait in the same state. -/
theorem one_wait_is_a_wait (cfg : comfy_wait.Config) {pyStr : Json → String} (h : Prints pyStr)
    {isUp : Bool} {run : List comfy_wait.Label} {s : comfy_wait.State}
    (hrun : exec (comfy_wait.next cfg) (comfy_wait.start isUp) run = some s) :
    ∃ labels t, exec (next (configOf cfg pyStr)) (startOf isUp) labels = some t ∧
      ∃ readers since log, t = stateOf cfg readers since log s := by
  have hstart : stateOf cfg 0 0 [] (comfy_wait.start isUp) = startOf isUp := by
    cases isUp <;> rfl
  refine simulated (R := fun s t => ∃ readers since log, t = stateOf cfg readers since log s)
    (fun s t l s' hs hstep => ?_) ⟨0, 0, [], hstart.symm⟩ hrun
  obtain ⟨readers, since, log, rfl⟩ := hs
  obtain ⟨readers', since', log', hsteps⟩ := steps_next h hstep readers since log
  exact ⟨labels cfg s l, _, hsteps, readers', since', log', rfl⟩

end image_gen.one_wait

-- `wait_for_completion` of the ComfyUI adapter (`app/backends/comfyui.py`) for
-- one prompt, next to the websocket reader, the network and the backend. Time
-- is in milliseconds and passes between any two steps.
import Mathlib.Data.List.Basic
import ImageGen.Runs

namespace image_gen.comfy_wait

/-! ## The backend and the socket -/

/-- The entry of the prompt in `/history`. -/
structure Entry where
  completed : Bool
  statusStr : Option String
  messages : Nat
  outputs : Nat
  deriving DecidableEq

/-- `_raise_if_errored` raises. An entry without a `status_str` counts as a success. -/
def Entry.errored (e : Entry) : Bool := e.statusStr ≠ none ∧ e.statusStr ≠ some "success"

/-- `_progress_signature`. -/
def progressSignature (entry : Option Entry) : Option String :=
  entry.map fun e => "|".intercalate [if e.completed then "True" else "False",
    e.statusStr.getD "None", toString e.messages, toString e.outputs]

/-- `_check_progress`. -/
def progressed (previous current : Option String) : Bool :=
  current ≠ none ∧ current ≠ previous

inductive Frame
  | binary
  | notJson
  | event (type : String) (node promptId : Option String)
  deriving DecidableEq

/-- The prompt that a frame reports as finished. -/
def Frame.terminal : Frame → Option String
  | .event type none (some promptId) =>
    if type = "executing" ∧ promptId ≠ "" then some promptId else none
  | _ => none

def completion (promptId : String) : Frame := .event "executing" none (some promptId)

/-- The socket with the frames that the reader has not taken yet. A closed one
is read to its end. -/
structure Conn where
  frames : List Frame
  isOpen : Bool
  deriving DecidableEq

/-! ## The wait -/

/-- Where `wait_for_completion` stands. A request holds what the server has
answered, once it has. -/
inductive Pc
  /-- Submitted, `wait_for_completion` not called yet. -/
  | idle
  /-- The first progress signature, where a stall timeout is set. -/
  | signing (seen : Option (Option Entry))
  /-- `_ensure_ws`, with the number of attempts after this one. -/
  | connecting (left : Nat)
  | backoff (wakeAt left : Nat)
  /-- `asyncio.wait` on the future and the reader. -/
  | waiting (wakeAt : Nat)
  /-- `_check_progress`. -/
  | checking (seen : Option (Option Entry))
  /-- A GET of the poll loop, with the time that was left at its head. -/
  | polling (remaining : Nat) (seen : Option (Option Entry))
  | sleeping (wakeAt : Nat)
  | returned
  /-- `ComfyTimeoutError`. -/
  | timedOut
  /-- `ComfyNodeError`. -/
  | nodeError
  deriving DecidableEq

/-- The prompt stands in `_pending`. -/
def Pc.registered : Pc → Bool
  | .idle => false
  | .returned => false
  | .timedOut => false
  | .nodeError => false
  | _ => true

/-- What the server has answered, once it has. -/
def Pc.answered : Pc → Option (Option Entry)
  | .signing seen => seen
  | .checking seen => seen
  | .polling _ seen => seen
  | _ => none

/-- The constructor refuses intervals that are not positive, and takes a stall
timeout that is not positive for none. -/
structure Config where
  promptId : String
  /-- `submit` refuses an empty id. -/
  promptId_ne : promptId ≠ ""
  pollInterval : Nat
  pollInterval_pos : 0 < pollInterval
  progressPollInterval : Nat
  progressPollInterval_pos : 0 < progressPollInterval
  stallTimeout : Option Nat
  stallTimeout_pos : ∀ timeout, stallTimeout = some timeout → 0 < timeout

structure State where
  now : Nat
  entry : Option Entry
  finishedAt : Option Nat
  /-- `_ws`, while its reader runs. -/
  conn : Option Conn
  /-- The future of the prompt is done. -/
  future : Bool
  pc : Pc
  deadline : Nat
  reconnectsUsed : Nat
  lastProgressAt : Nat
  lastSignature : Option String
  deriving DecidableEq

def reconnectBackoff : Nat := 1000

def maxReconnects : Nat := 1

section Wait

variable (cfg : Config)

/-- The head of `while not fut.done()`. -/
def loopHead (s : State) : State :=
  if s.future then { s with pc := .returned }
  else if s.deadline ≤ s.now then { s with pc := .timedOut }
  else
    let remaining := s.deadline - s.now
    let timeout := match cfg.stallTimeout with
      | some _ => min remaining cfg.progressPollInterval
      | none => remaining
    { s with pc := .waiting (s.now + timeout) }

/-- The head of the loop of `_poll_until_done`. -/
def pollHead (s : State) : State :=
  if s.deadline ≤ s.now then { s with pc := .timedOut }
  else { s with pc := .polling (s.deadline - s.now) none }

def startPolling (s : State) : State :=
  pollHead { s with lastProgressAt := s.now, lastSignature := none }

/-- An attempt of `_try_connect`. A socket whose reader runs is taken as it is. -/
def ensureWs (left : Nat) (s : State) : State :=
  if s.conn.isSome then loopHead cfg s else { s with pc := .connecting left }

/-- The start of `wait_for_completion`: the future is registered. -/
def register (timeout : Nat) (s : State) : State :=
  { s with
    deadline := s.now + timeout, future := false, reconnectsUsed := 0
    lastProgressAt := s.now, lastSignature := none }

def call (timeout : Nat) (s : State) : State :=
  match cfg.stallTimeout with
  | some _ => { register timeout s with pc := .signing none }
  | none => ensureWs cfg 1 (register timeout s)

/-- The stall timeout has run out since the last progress. -/
def stalled (s : State) : Bool :=
  match cfg.stallTimeout with
  | some timeout => decide (timeout ≤ s.now - s.lastProgressAt)
  | none => false

/-- The reader is done before the future: one reconnect, then polling. -/
def readerDied (s : State) : State :=
  if maxReconnects ≤ s.reconnectsUsed then startPolling s
  else { s with
    reconnectsUsed := s.reconnectsUsed + 1, pc := .backoff (s.now + reconnectBackoff) 0 }

/-- The answer of `_check_progress`. -/
def checked (entry : Option Entry) (s : State) : State :=
  let current := progressSignature entry
  if progressed s.lastSignature current then
    loopHead cfg { s with lastSignature := current, lastProgressAt := s.now }
  else if stalled cfg s then { s with pc := .timedOut }
  else loopHead cfg s

/-- The answer of a poll. -/
def polled (remaining : Nat) (entry : Option Entry) (s : State) : State :=
  match entry.filter (·.completed) with
  | some e => { s with pc := if e.errored then .nodeError else .returned }
  | none =>
    let signature := progressSignature entry
    let sleep := Pc.sleeping (s.now + min cfg.pollInterval (max 10 remaining))
    if progressed s.lastSignature signature then
      { s with lastSignature := signature, lastProgressAt := s.now, pc := sleep }
    else if stalled cfg s then { s with pc := .timedOut }
    else { s with pc := sleep }

/-- `asyncio.wait` returns: the future is done, the reader is done, or the time
is up. -/
def wakeWaiting (wakeAt : Nat) (s : State) : Option State :=
  if s.future then some { s with pc := .returned }
  else if s.conn = none then some (readerDied s)
  else if wakeAt ≤ s.now then
    match cfg.stallTimeout with
    | some _ => some { s with pc := .checking none }
    | none => some { s with pc := .timedOut }
  else none

end Wait

/-! ## Steps -/

inductive Label
  | delay (dt : Nat)
  /-- The entry changes while the prompt runs. -/
  | progress (e : Entry)
  /-- The prompt ends: the entry is kept, and a socket that is open gets the event. -/
  | finish (e : Entry)
  /-- Any other frame. -/
  | frame (f : Frame)
  /-- The socket closes. The reader still gets the first `kept` frames. -/
  | close (kept : Nat)
  | connected
  /-- The attempt raises one of `_WS_CONN_ERRORS`. -/
  | refused
  /-- The server handles the request. -/
  | serve
  /-- Its response is there. -/
  | answer
  | read
  | readerEnds
  | call (timeout : Nat)
  /-- `asyncio.wait` or `asyncio.sleep` returns. -/
  | wake
  deriving DecidableEq

/-- `_ws_reader` takes a frame. -/
def wsReader (cfg : Config) (s : State) : Option State :=
  match s.conn with
  | some ⟨f :: frames, isOpen⟩ =>
    let hit := f.terminal = some cfg.promptId ∧ s.pc.registered = true
    some { s with conn := some ⟨frames, isOpen⟩, future := s.future || decide hit }
  | _ => none

def serve (s : State) : Option State :=
  match s.pc with
  | .signing none => some { s with pc := .signing (some s.entry) }
  | .checking none => some { s with pc := .checking (some s.entry) }
  | .polling remaining none => some { s with pc := .polling remaining (some s.entry) }
  | _ => none

def answer (cfg : Config) (s : State) : Option State :=
  match s.pc with
  | .signing (some entry) =>
    some (ensureWs cfg 1 { s with lastSignature := progressSignature entry })
  | .checking (some entry) => some (checked cfg entry s)
  | .polling remaining (some entry) => some (polled cfg remaining entry s)
  | _ => none

def wake (cfg : Config) (s : State) : Option State :=
  match s.pc with
  | .waiting wakeAt => wakeWaiting cfg wakeAt s
  | .backoff wakeAt left => if wakeAt ≤ s.now then some (ensureWs cfg left s) else none
  | .sleeping wakeAt => if wakeAt ≤ s.now then some (pollHead s) else none
  | _ => none

def connected (cfg : Config) (s : State) : Option State :=
  match s.pc with
  | .connecting _ => some (loopHead cfg { s with conn := some ⟨[], true⟩ })
  | _ => none

def refused (s : State) : Option State :=
  match s.pc with
  | .connecting 0 => some (startPolling s)
  | .connecting (left + 1) => some { s with pc := .backoff (s.now + reconnectBackoff) left }
  | _ => none

/-- What the backend puts on the socket. -/
def send (f : Frame) (conn : Option Conn) : Option Conn :=
  conn.map fun c => if c.isOpen then { c with frames := c.frames ++ [f] } else c

def next (cfg : Config) (s : State) : Label → Option State
  | .delay dt => some { s with now := s.now + dt }
  | .progress e =>
    if s.finishedAt = none ∧ e.completed = false then some { s with entry := some e } else none
  | .finish e =>
    if s.finishedAt = none ∧ e.completed = true then
      some { s with
        entry := some e, finishedAt := some s.now, conn := send (completion cfg.promptId) s.conn }
    else none
  | .frame f =>
    if f.terminal ≠ some cfg.promptId then some { s with conn := send f s.conn } else none
  | .close kept =>
    match s.conn with
    | some ⟨frames, true⟩ => some { s with conn := some ⟨frames.take kept, false⟩ }
    | _ => none
  | .connected => connected cfg s
  | .refused => refused s
  | .serve => serve s
  | .answer => answer cfg s
  | .read => wsReader cfg s
  | .readerEnds => if s.conn = some ⟨[], false⟩ then some { s with conn := none } else none
  | .call timeout => if s.pc = .idle then some (call cfg timeout s) else none
  | .wake => wake cfg s

/-- The prompt is submitted. The socket may still be up from an earlier one. -/
def start (isUp : Bool) : State where
  now := 0
  entry := none
  finishedAt := none
  conn := if isUp then some ⟨[], true⟩ else none
  future := false
  pc := .idle
  deadline := 0
  reconnectsUsed := 0
  lastProgressAt := 0
  lastSignature := none

/-! ## What the wait leaves alone -/

section Kept

variable {cfg : Config} {s : State}

def record (s : State) : Nat × Option Entry × Option Nat × Option Conn × Bool × Nat :=
  (s.now, s.entry, s.finishedAt, s.conn, s.future, s.deadline)

theorem record_loopHead (cfg : Config) (s : State) : record (loopHead cfg s) = record s := by
  unfold loopHead
  split
  · rfl
  · split <;> rfl

theorem record_pollHead (s : State) : record (pollHead s) = record s := by
  unfold pollHead
  split <;> rfl

theorem record_ensureWs (left : Nat) (s : State) : record (ensureWs cfg left s) = record s := by
  unfold ensureWs
  split
  · exact record_loopHead cfg s
  · rfl

theorem record_checked (entry : Option Entry) (s : State) :
    record (checked cfg entry s) = record s := by
  unfold checked
  dsimp only
  split
  · exact record_loopHead cfg _
  · split
    · rfl
    · exact record_loopHead cfg s

theorem record_polled (remaining : Nat) (entry : Option Entry) (s : State) :
    record (polled cfg remaining entry s) = record s := by
  unfold polled
  split
  · rfl
  · dsimp only
    split
    · rfl
    · split <;> rfl

theorem record_wakeWaiting {s' : State} {wakeAt : Nat} (h : wakeWaiting cfg wakeAt s = some s') :
    record s' = record s := by
  unfold wakeWaiting at h
  split at h
  · cases h
    rfl
  · split at h
    · cases h
      unfold readerDied
      split
      · exact record_pollHead _
      · rfl
    · split at h
      · split at h <;> cases h <;> rfl
      · cases h

theorem record_call (cfg : Config) (timeout : Nat) (s : State) :
    record (call cfg timeout s) = record (register timeout s) := by
  unfold call
  split
  · rfl
  · exact record_ensureWs 1 _

/-- What the wait keeps of the progress that it has seen. -/
def memory (s : State) : Option String × Nat := (s.lastSignature, s.lastProgressAt)

theorem memory_loopHead (cfg : Config) (s : State) : memory (loopHead cfg s) = memory s := by
  unfold loopHead
  split
  · rfl
  · split <;> rfl

theorem memory_pollHead (s : State) : memory (pollHead s) = memory s := by
  unfold pollHead
  split <;> rfl

theorem memory_ensureWs (left : Nat) (s : State) : memory (ensureWs cfg left s) = memory s := by
  unfold ensureWs
  split
  · exact memory_loopHead cfg s
  · rfl

/-- Once called, a wait does not go back. -/
theorem loopHead_ne_idle (s : State) : (loopHead cfg s).pc ≠ .idle := by
  unfold loopHead
  split
  · exact fun h => by cases h
  · split <;> exact fun h => by cases h

theorem pollHead_ne_idle (s : State) : (pollHead s).pc ≠ .idle := by
  unfold pollHead
  split <;> exact fun h => by cases h

theorem ensureWs_ne_idle (attempts : Nat) (s : State) : (ensureWs cfg attempts s).pc ≠ .idle := by
  unfold ensureWs
  split
  · exact loopHead_ne_idle s
  · exact fun h => by cases h

theorem checked_ne_idle (entry : Option Entry) (s : State) : (checked cfg entry s).pc ≠ .idle := by
  unfold checked
  dsimp only
  split
  · exact loopHead_ne_idle _
  · split
    · exact fun h => by cases h
    · exact loopHead_ne_idle s

theorem polled_ne_idle (remaining : Nat) (entry : Option Entry) (s : State) :
    (polled cfg remaining entry s).pc ≠ .idle := by
  unfold polled
  split
  · rename_i e he
    rcases e.errored <;> exact fun h => by cases h
  · dsimp only
    split
    · exact fun h => by cases h
    · split <;> exact fun h => by cases h

theorem wakeWaiting_ne_idle {s' : State} {wakeAt : Nat}
    (h : wakeWaiting cfg wakeAt s = some s') : s'.pc ≠ .idle := by
  unfold wakeWaiting at h
  split at h
  · cases h
    exact fun h => by cases h
  · split at h
    · cases h
      unfold readerDied
      split
      · exact pollHead_ne_idle _
      · exact fun h => by cases h
    · split at h
      · split at h <;> cases h <;> exact fun h => by cases h
      · cases h

end Kept

end image_gen.comfy_wait

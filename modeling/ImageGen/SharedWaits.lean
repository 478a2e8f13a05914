-- All waits of the ComfyUI adapter at once (`wait_for_completion`): they share
-- one socket, its reader and the map of pending futures. The frames, the losses
-- of the socket and the answers of `/history` come from outside. Time is in
-- milliseconds.
import Mathlib.Data.List.Basic
import ImageGen.Json
import ImageGen.Runs

namespace image_gen.shared_waits

open image_gen.json

/-! ## What comes from outside -/

inductive Frame
  | binary
  /-- `JSONDecodeError`. -/
  | malformed
  | json (event : Json)

/-- The answer of `GET /history/{prompt_id}`. -/
inductive HistoryAnswer
  /-- `httpx.HTTPError`. -/
  | failed (message : String)
  /-- The status code and the body, if it is JSON. -/
  | response (statusCode : Nat) (body : Option Json)
  /-- Any other exception. -/
  | raised (message : String)

inductive Exc
  /-- `ComfyTimeoutError`. -/
  | timeout
  /-- `ComfyUnreachableError`. -/
  | unreachable (message : String)
  /-- `ComfyNodeError`. -/
  | nodeError
  | cancelled
  /-- Any other exception. -/
  | other (message : String)
  deriving DecidableEq

def noAttribute (j : Json) (name : String) : String :=
  "'" ++ typeName j ++ "' object has no attribute '" ++ name ++ "'"

/-- `j.get(key)`. -/
def getKey (j : Json) (key : String) : Except String Json :=
  match j with
  | .obj fields => .ok (Json.get fields key)
  | j => .error (noAttribute j "get")

/-- `j or {}`. -/
def orEmpty (j : Json) : Json := if j.truthy then j else .obj []

/-- `len(j or [])`. -/
def lenOrEmpty (j : Json) : Except String Nat :=
  if j.truthy then
    match j with
    | .arr items => .ok items.length
    | .obj fields => .ok fields.length
    | .str s => .ok s.length
    | j => .error ("object of type '" ++ typeName j ++ "' has no len()")
  else .ok 0

def isNull : Json → Bool
  | .null => true
  | _ => false

def isStr (s : String) : Json → Bool
  | .str t => decide (t = s)
  | _ => false

/-- What the reader does with a parsed frame: the prompt id that the event ends,
or nothing. An exception ends the reader. -/
def readEvent (event : Json) : Except String (Option String) := do
  let type ← getKey event "type"
  if isStr "executing" type then
    let data := orEmpty (← getKey event "data")
    if isNull (← getKey data "node") then
      match ← getKey data "prompt_id" with
      | .str "" => return none
      | .str pid => return some pid
      | .arr (_ :: _) => throw "unhashable type: 'list'"
      | .obj (_ :: _) => throw "unhashable type: 'dict'"
      -- no other key is in the map
      | _ => return none
    else return none
  else return none

def readFrame : Frame → Except String (Option String)
  | .json event => readEvent event
  | _ => .ok none

/-! ## One wait -/

structure Config where
  pollInterval : Nat
  progressPollInterval : Nat
  stallTimeout : Option Nat
  /-- `str(value)`. -/
  pyStr : Json → String

/-- Where a wait stands. -/
inductive Pc
  /-- The first progress signature, before the `try`. -/
  | signing
  /-- It waits for the socket lock, with the number of attempts after this one. -/
  | locking (left : Nat)
  /-- It opens the socket and holds the lock. -/
  | connecting (left : Nat)
  | backoff (wakeAt left : Nat)
  /-- `asyncio.wait` on the future and on this reader. -/
  | waiting (reader wakeAt : Nat)
  | checking
  /-- A GET of the poll loop, with the time that was left at its head. -/
  | polling (remaining : Nat)
  | sleeping (wakeAt : Nat)
  | returned
  | raised (e : Exc)
  deriving DecidableEq

structure Wait where
  promptId : String
  deadline : Nat
  /-- The future is done. -/
  future : Bool
  /-- It stands in `_pending`. -/
  registered : Bool
  pc : Pc
  reconnectsUsed : Nat
  lastProgressAt : Nat
  lastSignature : Option String
  /-- The length of the log when it was registered. -/
  since : Nat

/-- The clock and the socket. The reader runs as long as the socket is up. -/
structure Shared where
  now : Nat
  up : Bool
  readers : Nat

def reconnectBackoff : Nat := 1000

def maxReconnects : Nat := 1

/-- The entry of the prompt, if the body has one that counts. -/
def historyEntry (promptId : String) (body : Json) : Except String (Option Json) := do
  let entry ← getKey body promptId
  return if entry.truthy then some entry else none

/-- `_progress_signature`. -/
def progressSignature (cfg : Config) : Option Json → Except String (Option String)
  | none => return none
  | some entry => do
    let status := orEmpty (← getKey entry "status")
    let outputs ← getKey entry "outputs"
    let messages ← getKey status "messages"
    return some ("|".intercalate [cfg.pyStr (← getKey status "completed"),
      cfg.pyStr (← getKey status "status_str"), toString (← lenOrEmpty messages),
      toString (← lenOrEmpty outputs)])

/-- `_history_progress_signature`. -/
def historySignature (cfg : Config) (promptId : String) : HistoryAnswer →
    Except String (Option String)
  | .failed _ => return none
  | .raised message => throw message
  | .response statusCode body => do
    if statusCode ≠ 200 then return none
    match body with
    | none => throw "not JSON"
    | some body => progressSignature cfg (← historyEntry promptId (orEmpty body))

/-- `_check_progress`. -/
def progressed (previous current : Option String) : Bool := current ≠ none ∧ current ≠ previous

/-- What a poll makes of the entry: it has completed, with a success or not. -/
def completion : Option Json → Except String (Option Bool)
  | none => return none
  | some entry => do
    let status := orEmpty (← getKey entry "status")
    match ← getKey status "completed" with
    | .bool true =>
      let statusStr ← getKey status "status_str"
      return some (isNull statusStr || isStr "success" statusStr)
    | _ => return none

section Wait

variable (cfg : Config) (sh : Shared)

/-- The `finally`. -/
def finish (pc : Pc) (w : Wait) : Wait := { w with pc := pc, registered := false }

/-- The head of `while not fut.done()`. -/
def loopHead (w : Wait) : Wait :=
  if w.future then finish .returned w
  else if w.deadline ≤ sh.now then finish (.raised .timeout) w
  else
    let remaining := w.deadline - sh.now
    let timeout := match cfg.stallTimeout with
      | some _ => min remaining cfg.progressPollInterval
      | none => remaining
    { w with pc := .waiting sh.readers (sh.now + timeout) }

/-- The head of the loop of `_poll_until_done`. -/
def pollHead (w : Wait) : Wait :=
  if w.deadline ≤ sh.now then finish (.raised .timeout) w
  else { w with pc := .polling (w.deadline - sh.now) }

def startPolling (w : Wait) : Wait :=
  pollHead sh { w with lastProgressAt := sh.now, lastSignature := none }

/-- `_ensure_ws` with the lock: a socket whose reader runs is taken as it is. -/
def ensureWs (left : Nat) (w : Wait) : Wait :=
  if sh.up then loopHead cfg sh w else { w with pc := .connecting left }

/-- `_try_connect`, from an attempt on. -/
def tryConnect (locked : Bool) (left : Nat) (w : Wait) : Wait :=
  if locked then { w with pc := .locking left } else ensureWs cfg sh left w

/-- The stall timeout has run out since the last progress. -/
def stalled (w : Wait) : Bool :=
  match cfg.stallTimeout with
  | some timeout => decide (timeout ≤ sh.now - w.lastProgressAt)
  | none => false

/-- The reader is done before the future: one reconnect, then polling. -/
def readerDied (w : Wait) : Wait :=
  if maxReconnects ≤ w.reconnectsUsed then startPolling sh w
  else { w with
    reconnectsUsed := w.reconnectsUsed + 1, pc := .backoff (sh.now + reconnectBackoff) 0 }

/-- The first progress signature is there. -/
def signed (locked : Bool) (a : HistoryAnswer) (w : Wait) : Wait :=
  match historySignature cfg w.promptId a with
  -- the future stays in `_pending`
  | .error message => { w with pc := .raised (.other message) }
  | .ok signature => tryConnect cfg sh locked 1 { w with lastSignature := signature }

def checked (a : HistoryAnswer) (w : Wait) : Wait :=
  match historySignature cfg w.promptId a with
  | .error message => finish (.raised (.other message)) w
  | .ok current =>
    if progressed w.lastSignature current then
      loopHead cfg sh { w with lastSignature := current, lastProgressAt := sh.now }
    else if stalled cfg sh w then finish (.raised .timeout) w
    else loopHead cfg sh w

/-- The rest of the turn of a poll that has not completed. -/
def pollAgain (remaining : Nat) (signature : Option String) (w : Wait) : Wait :=
  let sleep := Pc.sleeping (sh.now + min cfg.pollInterval (max 10 remaining))
  if progressed w.lastSignature signature then
    { w with lastSignature := signature, lastProgressAt := sh.now, pc := sleep }
  else if stalled cfg sh w then finish (.raised .timeout) w
  else { w with pc := sleep }

def polledBody (remaining : Nat) (body : Json) (w : Wait) : Except String Wait := do
  let entry ← historyEntry w.promptId body
  match ← completion entry with
  | some true => return finish .returned w
  | some false => return finish (.raised .nodeError) w
  | none => return pollAgain cfg sh remaining (← progressSignature cfg entry) w

def polled (remaining : Nat) (a : HistoryAnswer) (w : Wait) : Wait :=
  match a with
  | .failed message => finish (.raised (.unreachable ("poll /history: " ++ message))) w
  | .raised message => finish (.raised (.other message)) w
  | .response 200 none => finish (.raised (.other "not JSON")) w
  | .response 200 (some body) =>
    match polledBody cfg sh remaining body w with
    | .ok w' => w'
    | .error message => finish (.raised (.other message)) w
  | .response _ _ =>
    { w with pc := .sleeping (sh.now + min cfg.pollInterval (max 10 remaining)) }

/-- `asyncio.wait` returns: the future is done, the reader is done, or the time
is up. -/
def wakeWaiting (reader wakeAt : Nat) (w : Wait) : Option Wait :=
  if w.future then some (finish .returned w)
  else if sh.up = false ∨ reader ≠ sh.readers then some (readerDied sh w)
  else if wakeAt ≤ sh.now then
    match cfg.stallTimeout with
    | some _ => some { w with pc := .checking }
    | none => some (finish (.raised .timeout) w)
  else none

end Wait

/-! ## All waits -/

/-- What the adapter received, and who opened the socket. -/
inductive Event
  | received (f : Frame)
  | answered (promptId : String) (a : HistoryAnswer)
  | opened (i : Nat)

structure State where
  shared : Shared
  waits : List Wait
  log : List Event

/-- A wait holds the socket lock. -/
def State.locked (s : State) : Bool :=
  s.waits.any fun w => match w.pc with
    | .connecting _ => true
    | _ => false

def State.set (s : State) (i : Nat) (w : Wait) : State := { s with waits := s.waits.set i w }

inductive Label
  | delay (dt : Nat)
  | call (promptId : String) (timeout : Nat)
  /-- The answer that wait `i` waits for. -/
  | answer (i : Nat) (a : HistoryAnswer)
  | acquire (i : Nat)
  | connected (i : Nat)
  /-- The attempt raises one of `_WS_CONN_ERRORS`. -/
  | refused (i : Nat)
  | connectRaises (i : Nat) (message : String)
  /-- `asyncio.wait` or `asyncio.sleep` returns. -/
  | wake (i : Nat)
  /-- The task of the wait is cancelled. -/
  | cancel (i : Nat)
  | receive (f : Frame)
  /-- `ConnectionClosed`. -/
  | lose

/-- The start of `wait_for_completion`. -/
def newWait (s : State) (promptId : String) (timeout : Nat) : Wait where
  promptId := promptId
  deadline := s.shared.now + timeout
  future := false
  registered := true
  pc := .signing
  reconnectsUsed := 0
  lastProgressAt := s.shared.now
  lastSignature := none
  since := s.log.length

def call (cfg : Config) (s : State) (promptId : String) (timeout : Nat) : Wait :=
  let w := newWait s promptId timeout
  if s.waits.any fun w => w.registered ∧ w.promptId = promptId then
    finish (.raised (.other "wait_for_completion already in progress")) w
  else match cfg.stallTimeout with
    | some _ => w
    | none => tryConnect cfg s.shared s.locked 1 w

def answer (cfg : Config) (s : State) (a : HistoryAnswer) (w : Wait) : Option Wait :=
  match w.pc with
  | .signing => some (signed cfg s.shared s.locked a w)
  | .checking => some (checked cfg s.shared a w)
  | .polling remaining => some (polled cfg s.shared remaining a w)
  | _ => none

def acquire (cfg : Config) (s : State) (w : Wait) : Option Wait :=
  match w.pc with
  | .locking left => if s.locked then none else some (ensureWs cfg s.shared left w)
  | _ => none

def refused (sh : Shared) (w : Wait) : Option Wait :=
  match w.pc with
  | .connecting 0 => some (startPolling sh w)
  | .connecting (left + 1) => some { w with pc := .backoff (sh.now + reconnectBackoff) left }
  | _ => none

def connectRaises (message : String) (w : Wait) : Option Wait :=
  match w.pc with
  | .connecting _ => some (finish (.raised (.other message)) w)
  | _ => none

def wake (cfg : Config) (s : State) (w : Wait) : Option Wait :=
  match w.pc with
  | .waiting reader wakeAt => wakeWaiting cfg s.shared reader wakeAt w
  | .backoff wakeAt left =>
    if wakeAt ≤ s.shared.now then some (tryConnect cfg s.shared s.locked left w) else none
  | .sleeping wakeAt => if wakeAt ≤ s.shared.now then some (pollHead s.shared w) else none
  | _ => none

def cancel (w : Wait) : Option Wait :=
  match w.pc with
  | .returned => none
  | .raised _ => none
  | .signing => some { w with pc := .raised .cancelled }
  | _ => some (finish (.raised .cancelled) w)

/-- `fut.set_result(None)` of the future that is pending for the prompt. -/
def resolve (pid : String) (w : Wait) : Wait :=
  if w.registered ∧ w.promptId = pid then { w with future := true } else w

/-- A step of one wait. -/
def waitStep (s : State) (i : Nat) (f : Wait → Option Wait) : Option State := do
  let w ← s.waits[i]?
  let w' ← f w
  return s.set i w'

def next (cfg : Config) (s : State) : Label → Option State
  | .delay dt => some { s with shared := { s.shared with now := s.shared.now + dt } }
  | .call promptId timeout => some { s with waits := s.waits ++ [call cfg s promptId timeout] }
  | .answer i a => do
    let w ← s.waits[i]?
    let w' ← answer cfg s a w
    return { s.set i w' with log := s.log ++ [.answered w.promptId a] }
  | .acquire i => waitStep s i (acquire cfg s)
  | .connected i => do
    let w ← s.waits[i]?
    match w.pc with
    | .connecting _ =>
      let shared := { s.shared with up := true, readers := s.shared.readers + 1 }
      some ⟨shared, s.waits.set i (loopHead cfg shared w), s.log ++ [.opened i]⟩
    | _ => none
  | .refused i => waitStep s i (refused s.shared)
  | .connectRaises i message => waitStep s i (connectRaises message)
  | .wake i => waitStep s i (wake cfg s)
  | .cancel i => waitStep s i cancel
  | .receive f =>
    if s.shared.up then
      match readFrame f with
      | .ok none => some { s with log := s.log ++ [.received f] }
      | .ok (some pid) =>
        some { s with waits := s.waits.map (resolve pid), log := s.log ++ [.received f] }
      | .error _ =>
        some { s with shared := { s.shared with up := false }, log := s.log ++ [.received f] }
    else none
  | .lose => if s.shared.up then some { s with shared := { s.shared with up := false } } else none

/-- An adapter that has not been used yet. -/
def fresh : State := ⟨⟨0, false, 0⟩, [], []⟩

end image_gen.shared_waits

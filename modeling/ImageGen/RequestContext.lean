-- The middleware around every request (`app/middleware/logging.py`): the request id, the
-- access line and the count. Requests run beside each other and share the collector.
import Mathlib.Data.List.Infix
import Mathlib.Logic.Relation
import ImageGen.Coroutine
import ImageGen.MetricsExposition
import ImageGen.Requests

namespace image_gen.request_context

open image_gen.coroutine image_gen.metrics_exposition
open image_gen.requests (Bytes)
open Relation (ReflTransGen)

/-! ## The request id -/

/-- `[A-Za-z0-9\-]`. -/
def idChar (c : Char) : Bool := c.isAlphanum || c == '-'

/-- `_REQUEST_ID_RE.match`. Its `$` also stands before a line break at the end. -/
def requestIdMatches (text : List Char) : Bool :=
  let body := if text.getLast? = some '\n' then text.dropLast else text
  body.all idChar && decide (1 ≤ body.length ∧ body.length ≤ 128)

/-- `uuid4().hex` of the 128 bits. -/
def hexDigits (bits : Fin (2 ^ 128)) : List Char :=
  (List.range 32).map fun i => Nat.digitChar (bits.val / 16 ^ (31 - i) % 16)

def decodeLatin1 (value : Bytes) : List Char := value.map fun b => Char.ofNat b.toNat

/-- A request id has no character that it cannot write. -/
def encodeLatin1 (text : List Char) : Bytes := text.map fun c => UInt8.ofNat c.toNat

abbrev Header := Bytes × Bytes

/-- `b"x-request-id"`. -/
def requestIdName : Bytes := encodeLatin1 "x-request-id".toList

/-- `bytes.lower` of one byte. -/
def lowerByte (b : UInt8) : UInt8 := if 65 ≤ b ∧ b ≤ 90 then b + 32 else b

def isRequestId (h : Header) : Bool := h.1.map lowerByte == requestIdName

/-! ## What goes through the middleware -/

structure ResponseStart where
  status : ℤ
  headers : Option (List Header)
  trailers : Bool

inductive Message
  /-- `http.response.start`. -/
  | responseStart (start : ResponseStart)
  /-- A message of another type. -/
  | other (type : String) (payload : Bytes)

structure Scope where
  type : String
  headers : List Header
  method : Option String
  path : Option String

/-- The value of the first `x-request-id` of the scope. -/
def Scope.inbound (scope : Scope) : Option Bytes :=
  (scope.headers.find? fun h => h.1 == requestIdName).map (·.2)

/-- What the app waits for: `other` is a message that it receives, or anything else. -/
inductive AppOp (O : Type)
  | send (m : Message)
  | other (o : O)

@[reducible] def AppOp.Ans {O : Type} (OAns : O → Type) : AppOp O → Type
  | .send _ => Unit
  | .other o => OAns o

/-- The line `request.served`. -/
structure ServedLine where
  method : Option String
  path : Option String
  status : ℤ
  durationMs : ℚ

inductive OwnOp
  | uuid4
  | clearContextvars
  | bindContextvars (requestId : List Char)
  | perfCounter
  /-- `collector is not None`. -/
  | collector
  | record (call : Call)
  | logServed (line : ServedLine)

@[reducible] def OwnOp.Ans : OwnOp → Type
  | .uuid4 => Fin (2 ^ 128)
  | .perfCounter => ℚ
  | .collector => Bool
  | _ => Unit

inductive Op (O : Type)
  | app (op : AppOp O)
  | own (op : OwnOp)

@[reducible] def Op.Ans {O : Type} (OAns : O → Type) : Op O → Type
  | .app op => op.Ans OAns
  | .own op => op.Ans

abbrev App (ε : Type) {O : Type} (OAns : O → Type) := Co ε (AppOp O) (AppOp.Ans OAns) Unit

abbrev Prog (ε : Type) {O : Type} (OAns : O → Type) (α : Type) := Co ε (Op O) (Op.Ans OAns) α

variable {ε O : Type} {OAns : O → Type} {α : Type}

def own (op : OwnOp) : Prog ε OAns op.Ans := Co.call (Op.own op)

/-! ## The middleware -/

/-- `uuid.uuid4().hex`. -/
def freshRequestId : Prog ε OAns (List Char) := do
  let bits ← own .uuid4
  return hexDigits bits

/-- `_pick_request_id`. -/
def pickRequestId : Option (List Char) → Prog ε OAns (List Char)
  | none => freshRequestId
  | some inbound =>
    if inbound ≠ [] ∧ requestIdMatches inbound = true then pure inbound else freshRequestId

/-- The headers that `send_wrapper` sends. -/
def stampHeaders (requestId : List Char) (headers : Option (List Header)) : List Header :=
  (headers.getD []).filter (fun h => !isRequestId h) ++ [(requestIdName, encodeLatin1 requestId)]

def stamp (requestId : List Char) : Message → Message
  | .responseStart start =>
    .responseStart { start with headers := some (stampHeaders requestId start.headers) }
  | .other type payload => .other type payload

def statusAfter (status : ℤ) : Message → ℤ
  | .responseStart start => start.status
  | .other _ _ => status

/-- The app with `send_wrapper` as its `send`: how it ends, and the status that is left. -/
def underWrapper (requestId : List Char) :
    ℤ → App ε OAns → Prog ε OAns (Except ε Unit × ℤ)
  | status, .ret _ => pure (.ok (), status)
  | status, .raise e => pure (.error e, status)
  | status, .await (.send m) k =>
    .await (.app (.send (stamp requestId m))) fun r =>
      underWrapper requestId (statusAfter status m) (k r)
  | status, .await (.other o) k =>
    .await (.app (.other o)) fun r => underWrapper requestId status (k r)

/-- The app as it is. -/
def passedOn : App ε OAns → Prog ε OAns Unit
  | .ret _ => pure ()
  | .raise e => throw e
  | .await op k => .await (.app op) fun r => passedOn (k r)

def servedCall (scope : Scope) (status : ℤ) (durationMs : ℚ) : Call :=
  .http (scope.method.getD "UNKNOWN") (scope.path.getD "") status durationMs

def servedLine (scope : Scope) (status : ℤ) (durationMs : ℚ) : ServedLine :=
  ⟨scope.method, scope.path, status, durationMs⟩

section Middleware

variable (elapsedMs : ℚ → ℚ → ℚ)

/-- The body of the `finally`. -/
def finish (scope : Scope) (start : ℚ) (status : ℤ) : Prog ε OAns Unit := do
  let stop ← own .perfCounter
  if ← own .collector then own (.record (servedCall scope status (elapsedMs start stop)))
  own (.logServed (servedLine scope status (elapsedMs start stop)))
  own .clearContextvars

/-- `RequestContextMiddleware.__call__`. -/
def requestContext (scope : Scope) (app : App ε OAns) : Prog ε OAns Unit :=
  if scope.type ≠ "http" then passedOn app
  else do
    let requestId ← pickRequestId (scope.inbound.map decodeLatin1)
    own .clearContextvars
    own (.bindContextvars requestId)
    let start ← own .perfCounter
    let (result, status) ← underWrapper requestId 500 app
    finish elapsedMs scope start status
    Co.ofExcept result

end Middleware

/-! ## Traces -/

abbrev AppTrace (ε : Type) {O : Type} (OAns : O → Type) := List (Co.Event ε (AppOp.Ans OAns))

abbrev Trace (ε : Type) {O : Type} (OAns : O → Type) := List (Co.Event ε (Op.Ans OAns))

/-- What an operation may be answered: the middleware's own do not raise. -/
def Allowed : (op : Op O) → Except ε (op.Ans OAns) → Prop
  | .own _, .error _ => False
  | _, _ => True

def Answered (op : Op O) (trace : Trace ε OAns) (r : Except ε (op.Ans OAns))
    (trace' : Trace ε OAns) : Prop := Allowed op r ∧ trace' = trace ++ [⟨op, r⟩]

/-- What the server sees of an event of the app. -/
def stamped (requestId : List Char) : Co.Event ε (AppOp.Ans OAns) → Co.Event ε (AppOp.Ans OAns)
  | ⟨.send m, r⟩ => ⟨.send (stamp requestId m), r⟩
  | ⟨.other o, r⟩ => ⟨.other o, r⟩

def appEvent : Co.Event ε (Op.Ans OAns) → Option (Co.Event ε (AppOp.Ans OAns))
  | ⟨.app op, r⟩ => some ⟨op, r⟩
  | _ => none

/-- The app's event, as the middleware passes it on. -/
def carried : Co.Event ε (AppOp.Ans OAns) → Co.Event ε (Op.Ans OAns)
  | ⟨op, r⟩ => ⟨.app op, r⟩

def boundId : Co.Event ε (Op.Ans OAns) → Option (List Char)
  | ⟨.own (.bindContextvars requestId), _⟩ => some requestId
  | _ => none

def recordedCall : Co.Event ε (Op.Ans OAns) → Option Call
  | ⟨.own (.record call), _⟩ => some call
  | _ => none

def loggedLine : Co.Event ε (Op.Ans OAns) → Option ServedLine
  | ⟨.own (.logServed line), _⟩ => some line
  | _ => none

def foundCollector : Co.Event ε (Op.Ans OAns) → Option Bool
  | ⟨.own .collector, .ok found⟩ => some found
  | _ => none

def statusAfterEvent (status : ℤ) : Co.Event ε (AppOp.Ans OAns) → ℤ
  | ⟨.send m, _⟩ => statusAfter status m
  | ⟨.other _, _⟩ => status

/-- The status of the last start that the app has sent, or tried to send. -/
def lastStatus (t : AppTrace ε OAns) : ℤ := t.foldl statusAfterEvent 500

/-- The id that the middleware picks: that of the request where it will do. -/
structure Picked (scope : Scope) (requestId : List Char) : Prop where
  wellFormed : requestIdMatches requestId = true
  inbound : ∀ value, scope.inbound = some value → requestIdMatches (decodeLatin1 value) = true →
    encodeLatin1 requestId = value

/-- A request so far: the app has run on its own as far as `t`. -/
structure Tracked (scope : Scope) (app : App ε OAns) (requestId : List Char)
    (t : AppTrace ε OAns) (trace : Trace ε OAns) : Prop where
  run : app.Stops Co.traced [] t
  picked : Picked scope requestId
  bound : trace.filterMap boundId <+: [requestId]
  seen : trace.filterMap appEvent = t.map (stamped requestId)
  calls : trace.filterMap recordedCall = [] ∨ ∃ r durationMs, app.EndsIn Co.traced [] r t ∧
    trace.filterMap recordedCall = [servedCall scope (lastStatus t) durationMs]
  lines : trace.filterMap loggedLine = [] ∨ ∃ r durationMs, app.EndsIn Co.traced [] r t ∧
    trace.filterMap loggedLine = [servedLine scope (lastStatus t) durationMs]

/-- A request that is over. -/
structure Finished (scope : Scope) (app : App ε OAns) (r : Except ε Unit)
    (t : AppTrace ε OAns) (trace : Trace ε OAns) : Prop where
  ended : app.EndsIn Co.traced [] r t
  told : ∃ durationMs found,
    trace.filterMap loggedLine = [servedLine scope (lastStatus t) durationMs] ∧
    trace.filterMap foundCollector = [found] ∧
    trace.filterMap recordedCall =
      if found then [servedCall scope (lastStatus t) durationMs] else []
  cleared : trace.getLast? = some ⟨.own .clearContextvars, .ok ()⟩

inductive InHand (scope : Scope) (app : App ε OAns) (trace : Trace ε OAns) : Prop
  | http (htype : scope.type = "http") (requestId : List Char) (t : AppTrace ε OAns)
      (tracked : Tracked scope app requestId t trace)
  /-- Nothing is added to what the app does. -/
  | passed (htype : scope.type ≠ "http") (t : AppTrace ε OAns)
      (run : app.Stops Co.traced [] t) (same : trace = t.map carried)

inductive Served (scope : Scope) (app : App ε OAns) (r : Except ε Unit)
    (trace : Trace ε OAns) : Prop
  | http (htype : scope.type = "http") (requestId : List Char) (t : AppTrace ε OAns)
      (tracked : Tracked scope app requestId t trace) (finished : Finished scope app r t trace)
  | passed (htype : scope.type ≠ "http") (t : AppTrace ε OAns)
      (ended : app.EndsIn Co.traced [] r t) (same : trace = t.map carried)

/-! ## The id -/

theorem requestIdMatches_of_all {text : List Char} (hall : ∀ c ∈ text, idChar c = true)
    (hone : 1 ≤ text.length) (hmost : text.length ≤ 128) : requestIdMatches text = true := by
  have hlast : text.getLast? ≠ some '\n' := by
    intro hlast
    have hbreak := hall _ (List.mem_of_getLast? hlast)
    cases hbreak
  simp [requestIdMatches, hlast, hone, hmost, List.all_eq_true.mpr hall]

theorem requestIdMatches_hexDigits (bits : Fin (2 ^ 128)) :
    requestIdMatches (hexDigits bits) = true := by
  have hdigit : ∀ d : Fin 16, idChar (Nat.digitChar d) = true := by decide
  have hlength : (hexDigits bits).length = 32 := by simp [hexDigits]
  refine requestIdMatches_of_all (fun c hc => ?_) (by omega) (by omega)
  obtain ⟨i, -, rfl⟩ := List.mem_map.mp hc
  exact hdigit ⟨bits.val / 16 ^ (31 - i) % 16, Nat.mod_lt _ (by decide)⟩

theorem encode_decode (value : Bytes) : encodeLatin1 (decodeLatin1 value) = value := by
  unfold encodeLatin1 decodeLatin1
  rw [List.map_map]
  refine (List.map_congr_left fun b _ => ?_).trans (List.map_id value)
  have hb : b.toNat < 256 := b.toNat_lt
  have hvalid : b.toNat.isValidChar := .inl (by omega)
  have hval : (Char.ofNat b.toNat).toNat = b.toNat := by
    rw [Char.ofNat, dif_pos hvalid]
    rfl
  simp [hval]

/-- Whatever the app has sent, the client sees the header once. -/
theorem stampHeaders_once (requestId : List Char) (headers : Option (List Header)) :
    (stampHeaders requestId headers).filter isRequestId =
      [(requestIdName, encodeLatin1 requestId)] := by
  have hname : isRequestId (requestIdName, encodeLatin1 requestId) = true := by
    simp only [isRequestId]
    decide
  have hnone : ∀ h ∈ (headers.getD []).filter (fun h => !isRequestId h),
      isRequestId h = false := by
    intro h hh
    simpa using (List.mem_filter.mp hh).2
  rw [stampHeaders, List.filter_append, List.filter_eq_nil_iff.mpr (by simp),
    List.nil_append, List.filter_cons_of_pos hname, List.filter_nil]

theorem picked_hexDigits {scope : Scope} (bits : Fin (2 ^ 128))
    (h : ∀ value, scope.inbound = some value → requestIdMatches (decodeLatin1 value) = false) :
    Picked scope (hexDigits bits) := by
  refine ⟨requestIdMatches_hexDigits bits, fun value hvalue hmatches => ?_⟩
  rw [h value hvalue] at hmatches
  cases hmatches

theorem picked_inbound {scope : Scope} {value : Bytes} (hvalue : scope.inbound = some value)
    (hmatches : requestIdMatches (decodeLatin1 value) = true) :
    Picked scope (decodeLatin1 value) := by
  refine ⟨hmatches, fun value' hvalue' _ => ?_⟩
  rw [hvalue] at hvalue'
  cases hvalue'
  exact encode_decode value

theorem exists_picked (scope : Scope) : ∃ requestId, Picked scope requestId := by
  by_cases h : ∃ value, scope.inbound = some value ∧ requestIdMatches (decodeLatin1 value) = true
  · obtain ⟨value, hvalue, hmatches⟩ := h
    exact ⟨_, picked_inbound hvalue hmatches⟩
  · refine ⟨_, picked_hexDigits 0 fun value hvalue => ?_⟩
    exact Bool.eq_false_iff.mpr fun hmatches => h ⟨value, hvalue, hmatches⟩

/-! ## What a trace shows -/

structure Shows (ids : List (List Char)) (seen : AppTrace ε OAns) (calls : List Call)
    (lines : List ServedLine) (found : List Bool) (trace : Trace ε OAns) : Prop where
  bound : trace.filterMap boundId = ids
  seen : trace.filterMap appEvent = seen
  calls : trace.filterMap recordedCall = calls
  lines : trace.filterMap loggedLine = lines
  found : trace.filterMap foundCollector = found

section Shows

variable {ids : List (List Char)} {seen : AppTrace ε OAns} {calls : List Call}
  {lines : List ServedLine} {found : List Bool} {trace : Trace ε OAns}

theorem filterMap_one {β γ : Type} (f : β → Option γ) (b : β) :
    [b].filterMap f = (f b).toList := by
  cases h : f b <;> simp [h]

theorem shows_nil : Shows [] [] [] [] [] ([] : Trace ε OAns) := ⟨rfl, rfl, rfl, rfl, rfl⟩

theorem Shows.snoc (h : Shows ids seen calls lines found trace)
    (e : Co.Event ε (Op.Ans OAns)) :
    Shows (ids ++ (boundId e).toList) (seen ++ (appEvent e).toList)
      (calls ++ (recordedCall e).toList) (lines ++ (loggedLine e).toList)
      (found ++ (foundCollector e).toList) (trace ++ [e]) := by
  constructor
  · rw [List.filterMap_append, h.bound, filterMap_one]
  · rw [List.filterMap_append, h.seen, filterMap_one]
  · rw [List.filterMap_append, h.calls, filterMap_one]
  · rw [List.filterMap_append, h.lines, filterMap_one]
  · rw [List.filterMap_append, h.found, filterMap_one]

/-- Of an operation that leaves nothing to be seen. -/
theorem Shows.silent (h : Shows ids seen calls lines found trace)
    {e : Co.Event ε (Op.Ans OAns)} (hbound : boundId e = none) (happ : appEvent e = none)
    (hcall : recordedCall e = none) (hline : loggedLine e = none)
    (hfound : foundCollector e = none) :
    Shows ids seen calls lines found (trace ++ [e]) := by
  have hnext := h.snoc e
  simpa [hbound, happ, hcall, hline, hfound] using hnext

theorem Shows.bind (h : Shows [] seen calls lines found trace) (requestId : List Char)
    (r : Except ε Unit) :
    Shows [requestId] seen calls lines found
      (trace ++ [⟨.own (.bindContextvars requestId), r⟩]) := by
  simpa [boundId, appEvent, recordedCall, loggedLine, foundCollector] using
    h.snoc ⟨.own (.bindContextvars requestId), r⟩

theorem Shows.find (h : Shows ids seen calls lines [] trace) (b : Bool) :
    Shows ids seen calls lines [b] (trace ++ [⟨.own .collector, .ok b⟩]) := by
  simpa [boundId, appEvent, recordedCall, loggedLine, foundCollector] using
    h.snoc ⟨.own .collector, .ok b⟩

theorem Shows.record (h : Shows ids seen [] lines found trace) (call : Call)
    (r : Except ε Unit) :
    Shows ids seen [call] lines found (trace ++ [⟨.own (.record call), r⟩]) := by
  simpa [boundId, appEvent, recordedCall, loggedLine, foundCollector] using
    h.snoc ⟨.own (.record call), r⟩

theorem Shows.log (h : Shows ids seen calls [] found trace) (line : ServedLine)
    (r : Except ε Unit) :
    Shows ids seen calls [line] found (trace ++ [⟨.own (.logServed line), r⟩]) := by
  simpa [boundId, appEvent, recordedCall, loggedLine, foundCollector] using
    h.snoc ⟨.own (.logServed line), r⟩

/-- Of the app's own operations, as the wrapper passes them on. -/
theorem Shows.app {t : AppTrace ε OAns} {requestId : List Char}
    (h : Shows ids (t.map (stamped requestId)) calls lines found trace) {op op' : AppOp O}
    {r : Except ε (op.Ans OAns)} {r' : Except ε (op'.Ans OAns)}
    (hstamped : stamped requestId (⟨op, r⟩ : Co.Event ε (AppOp.Ans OAns)) = ⟨op', r'⟩) :
    Shows ids ((t ++ [(⟨op, r⟩ : Co.Event ε (AppOp.Ans OAns))]).map (stamped requestId)) calls
      lines found (trace ++ [⟨.app op', r'⟩]) := by
  simpa [boundId, appEvent, recordedCall, loggedLine, foundCollector, hstamped] using
    h.snoc ⟨.app op', r'⟩

end Shows

/-! ## One request -/

section Request

variable {elapsedMs : ℚ → ℚ → ℚ} {scope : Scope} {app app' : App ε OAns}
  {requestId : List Char} {t : AppTrace ε OAns} {trace : Trace ε OAns}

theorem tracked_open {ids : List (List Char)} {found : List Bool}
    (hrun : app.Stops Co.traced [] t) (hpicked : Picked scope requestId)
    (hids : ids <+: [requestId]) (h : Shows ids (t.map (stamped requestId)) [] [] found trace) :
    Tracked scope app requestId t trace :=
  ⟨hrun, hpicked, h.bound ▸ hids, h.seen, .inl h.calls, .inl h.lines⟩

/-- When the app has come to its end. -/
theorem tracked_closing {r : Except ε Unit} {calls : List Call} {lines : List ServedLine}
    {found : List Bool} (hend : app.EndsIn Co.traced [] r t) (hpicked : Picked scope requestId)
    (h : Shows [requestId] (t.map (stamped requestId)) calls lines found trace)
    (hcalls : calls = [] ∨ ∃ durationMs, calls = [servedCall scope (lastStatus t) durationMs])
    (hlines : lines = [] ∨ ∃ durationMs, lines = [servedLine scope (lastStatus t) durationMs]) :
    Tracked scope app requestId t trace where
  run := Co.stops_of_endsIn hend
  picked := hpicked
  bound := by rw [h.bound]
  seen := h.seen
  calls := by
    rw [h.calls]
    exact hcalls.imp_right fun ⟨durationMs, heq⟩ => ⟨r, durationMs, hend, heq⟩
  lines := by
    rw [h.lines]
    exact hlines.imp_right fun ⟨durationMs, heq⟩ => ⟨r, durationMs, hend, heq⟩

/-- The client never sees another start than a stamped one. -/
theorem Tracked.once (h : Tracked scope app requestId t trace) {start : ResponseStart}
    {r : Except ε Unit} (hstart : ⟨.app (.send (.responseStart start)), r⟩ ∈ trace) :
    (start.headers.getD []).filter isRequestId = [(requestIdName, encodeLatin1 requestId)] := by
  have hseen : (⟨.send (.responseStart start), r⟩ : Co.Event ε (AppOp.Ans OAns)) ∈
      trace.filterMap appEvent := List.mem_filterMap.mpr ⟨_, hstart, rfl⟩
  rw [h.seen] at hseen
  obtain ⟨⟨op, r'⟩, -, heq⟩ := List.mem_map.mp hseen
  cases op with
  | other o => cases heq
  | send m =>
    cases m with
    | other type payload => cases heq
    | responseStart start' =>
      cases heq
      exact stampHeaders_once requestId start'.headers

theorem holds_own {β : Type} {op : OwnOp} {f : op.Ans → Prog ε OAns β} {C : Trace ε OAns → Prop}
    {Q : Except ε β → Trace ε OAns → Prop}
    (h : ∀ a, C (trace ++ [⟨.own op, .ok a⟩]) ∧
      (f a).Holds Answered C Q (trace ++ [⟨.own op, .ok a⟩])) :
    (own op >>= f).Holds Answered C Q trace := by
  refine Co.holds_bind (Co.holds_call _ _ fun r trace' ⟨hr, htrace⟩ => ?_)
  subst htrace
  cases r with
  | error e => exact hr.elim
  | ok a => exact h a

theorem holds_freshRequestId (htype : scope.type = "http")
    (h : ∀ value, scope.inbound = some value → requestIdMatches (decodeLatin1 value) = false) :
    (freshRequestId : Prog ε OAns (List Char)).Holds Answered (InHand scope app)
      (fun r trace => ∃ requestId, r = .ok requestId ∧ Picked scope requestId ∧
        Shows [] [] [] [] [] trace) [] := by
  unfold freshRequestId
  refine holds_own fun bits => ?_
  have hshows : Shows [] [] [] [] [] ([] ++ [⟨.own .uuid4, .ok bits⟩] : Trace ε OAns) :=
    shows_nil.silent rfl rfl rfl rfl rfl
  have hpicked : Picked scope (hexDigits bits) := picked_hexDigits bits h
  refine ⟨.http htype _ [] (tracked_open (Co.stops_here _ _) hpicked List.nil_prefix hshows), ?_⟩
  exact ⟨_, rfl, hpicked, hshows⟩

theorem holds_pickRequestId (htype : scope.type = "http") :
    (pickRequestId (scope.inbound.map decodeLatin1) : Prog ε OAns (List Char)).Holds Answered
      (InHand scope app) (fun r trace => ∃ requestId, r = .ok requestId ∧
        Picked scope requestId ∧ Shows [] [] [] [] [] trace) [] := by
  rcases hin : scope.inbound with _ | value
  · exact holds_freshRequestId htype fun value hvalue => by
      rw [hin] at hvalue
      cases hvalue
  simp only [Option.map_some, pickRequestId]
  split_ifs with hok
  · exact ⟨_, rfl, picked_inbound hin hok.2, shows_nil⟩
  · refine holds_freshRequestId htype fun value' hvalue' => ?_
    rw [hin] at hvalue'
    cases hvalue'
    refine Bool.eq_false_iff.mpr fun hmatches => hok ⟨?_, hmatches⟩
    intro hempty
    rw [hempty] at hmatches
    exact absurd hmatches (by decide)

/-- Under the wrapper the app runs as it does on its own. -/
theorem holds_underWrapper (htype : scope.type = "http") (hpicked : Picked scope requestId)
    {status : ℤ} (hstops : ∀ t', app'.Stops Co.traced t t' → app.Stops Co.traced [] t')
    (hends : ∀ r t', app'.EndsIn Co.traced t r t' → app.EndsIn Co.traced [] r t')
    (h : Shows [requestId] (t.map (stamped requestId)) [] [] [] trace)
    (hstatus : status = lastStatus t) :
    (underWrapper requestId status app').Holds Answered (InHand scope app)
      (fun r trace' => ∃ result t', r = .ok (result, lastStatus t') ∧
        app.EndsIn Co.traced [] result t' ∧
        Shows [requestId] (t'.map (stamped requestId)) [] [] [] trace') trace := by
  induction app' generalizing t trace status with
  | ret a =>
    subst hstatus
    exact ⟨.ok (), t, rfl, hends _ _ ⟨rfl, rfl⟩, h⟩
  | raise e =>
    subst hstatus
    exact ⟨.error e, t, rfl, hends _ _ ⟨rfl, rfl⟩, h⟩
  | await op k ih =>
    have hgo : ∀ (r : Except ε (op.Ans OAns)) (seen : Trace ε OAns),
        Shows [requestId] ((t ++ [(⟨op, r⟩ : Co.Event ε (AppOp.Ans OAns))]).map
          (stamped requestId)) [] [] [] seen →
        InHand scope app seen ∧ ∀ status', status' = lastStatus (t ++ [⟨op, r⟩]) →
        (underWrapper requestId status' (k r)).Holds Answered (InHand scope app)
          (fun r trace' => ∃ result t', r = .ok (result, lastStatus t') ∧
            app.EndsIn Co.traced [] result t' ∧
            Shows [requestId] (t'.map (stamped requestId)) [] [] [] trace') seen := by
      intro r seen hseen
      have hstops' : ∀ t', (k r).Stops Co.traced (t ++ [⟨op, r⟩]) t' →
          app.Stops Co.traced [] t' := fun t' ht' => hstops t' (.inr ⟨r, _, rfl, ht'⟩)
      refine ⟨.http htype requestId _ (tracked_open (hstops' _ (Co.stops_here _ _)) hpicked
        List.prefix_rfl hseen), fun status' hstatus' => ?_⟩
      exact ih r hstops' (fun r' t' ht' => hends r' t' ⟨r, _, rfl, ht'⟩) hseen hstatus'
    cases op with
    | send m =>
      rintro r _ ⟨-, rfl⟩
      obtain ⟨hin, hrest⟩ := hgo r _ (h.app rfl)
      exact ⟨hin, hrest _ (by simp [lastStatus, hstatus, statusAfterEvent])⟩
    | other o =>
      rintro r _ ⟨-, rfl⟩
      obtain ⟨hin, hrest⟩ := hgo r _ (h.app rfl)
      exact ⟨hin, hrest _ (by simp [lastStatus, hstatus, statusAfterEvent])⟩

theorem holds_finish {result : Except ε Unit} (htype : scope.type = "http")
    (hpicked : Picked scope requestId) (hend : app.EndsIn Co.traced [] result t)
    (h : Shows [requestId] (t.map (stamped requestId)) [] [] [] trace) (start : ℚ) :
    (finish elapsedMs scope start (lastStatus t) : Prog ε OAns Unit).Holds Answered
      (InHand scope app) (fun r trace' => r = .ok () ∧ Served scope app result trace') trace := by
  have hin : ∀ {calls lines found seen}, Shows [requestId] (t.map (stamped requestId)) calls
      lines found seen →
      (calls = [] ∨ ∃ durationMs, calls = [servedCall scope (lastStatus t) durationMs]) →
      (lines = [] ∨ ∃ durationMs, lines = [servedLine scope (lastStatus t) durationMs]) →
      InHand scope app seen := fun hseen hcalls hlines =>
    .http htype requestId t (tracked_closing hend hpicked hseen hcalls hlines)
  -- the line and the reset are the same with a collector and without one
  have hlast : ∀ {found : Bool} {calls seen} (durationMs : ℚ),
      Shows [requestId] (t.map (stamped requestId)) calls [] [found] seen →
      calls = (if found then [servedCall scope (lastStatus t) durationMs] else []) →
      (own (.logServed (servedLine scope (lastStatus t) durationMs)) >>= fun _ =>
        own .clearContextvars : Prog ε OAns Unit).Holds Answered (InHand scope app)
        (fun r trace' => r = .ok () ∧ Served scope app result trace') seen := by
    intro found calls seen durationMs hseen hcalls
    have hor : calls = [] ∨ ∃ d, calls = [servedCall scope (lastStatus t) d] := by
      cases found with
      | true => exact .inr ⟨durationMs, hcalls⟩
      | false => exact .inl hcalls
    refine holds_own fun u => ?_
    have hline := hseen.log (servedLine scope (lastStatus t) durationMs) (.ok u)
    refine ⟨hin hline hor (.inr ⟨durationMs, rfl⟩), ?_⟩
    refine Co.holds_call _ _ fun r trace' ⟨hr, htrace⟩ => ?_
    subst htrace
    cases r with
    | error e => exact hr.elim
    | ok u' =>
      have hclear := hline.silent (e := ⟨.own .clearContextvars, .ok u'⟩) rfl rfl rfl rfl rfl
      refine ⟨hin hclear hor (.inr ⟨durationMs, rfl⟩), rfl, .http htype requestId t
        (tracked_closing hend hpicked hclear hor (.inr ⟨durationMs, rfl⟩)) ⟨hend, ?_, ?_⟩⟩
      · exact ⟨durationMs, found, hclear.lines, hclear.found, hclear.calls.trans hcalls⟩
      · exact List.getLast?_concat
  unfold finish
  refine holds_own fun stop => ?_
  have h1 := h.silent (e := ⟨.own .perfCounter, .ok stop⟩) rfl rfl rfl rfl rfl
  refine ⟨hin h1 (.inl rfl) (.inl rfl), holds_own fun found => ?_⟩
  have h2 := h1.find found
  refine ⟨hin h2 (.inl rfl) (.inl rfl), ?_⟩
  cases found with
  | false => exact hlast (elapsedMs start stop) h2 rfl
  | true =>
    refine holds_own fun u => ?_
    have h3 := h2.record (servedCall scope (lastStatus t) (elapsedMs start stop)) (.ok u)
    exact ⟨hin h3 (.inr ⟨_, rfl⟩) (.inl rfl), hlast (elapsedMs start stop) h3 rfl⟩

theorem holds_passedOn (htype : scope.type ≠ "http")
    (hstops : ∀ t', app'.Stops Co.traced t t' → app.Stops Co.traced [] t')
    (hends : ∀ r t', app'.EndsIn Co.traced t r t' → app.EndsIn Co.traced [] r t')
    (h : trace = t.map carried) :
    (passedOn app').Holds Answered (InHand scope app) (Served scope app) trace := by
  induction app' generalizing t trace with
  | ret a => exact .passed htype t (hends _ _ ⟨rfl, rfl⟩) h
  | raise e => exact .passed htype t (hends _ _ ⟨rfl, rfl⟩) h
  | await op k ih =>
    rintro r _ ⟨-, rfl⟩
    have hstops' : ∀ t', (k r).Stops Co.traced (t ++ [⟨op, r⟩]) t' →
        app.Stops Co.traced [] t' := fun t' ht' => hstops t' (.inr ⟨r, _, rfl, ht'⟩)
    have hnext : trace ++ [⟨.app op, r⟩] =
        (t ++ [(⟨op, r⟩ : Co.Event ε (AppOp.Ans OAns))]).map carried := by
      rw [h, List.map_append]
      rfl
    refine ⟨.passed htype _ (hstops' _ (Co.stops_here _ _)) hnext, ?_⟩
    exact ih r hstops' (fun r' t' ht' => hends r' t' ⟨r, _, rfl, ht'⟩) hnext

theorem inHand_nil (scope : Scope) (app : App ε OAns) : InHand scope app [] := by
  by_cases htype : scope.type = "http"
  · obtain ⟨requestId, hpicked⟩ := exists_picked scope
    exact .http htype requestId [] (tracked_open (Co.stops_here _ _) hpicked List.nil_prefix
      shows_nil)
  · exact .passed htype [] (Co.stops_here _ _) rfl

theorem holds_requestContext (elapsedMs : ℚ → ℚ → ℚ) (scope : Scope) (app : App ε OAns) :
    (requestContext elapsedMs scope app).Holds Answered (InHand scope app) (Served scope app)
      [] := by
  unfold requestContext
  split_ifs with htype
  · exact holds_passedOn htype (fun _ ht => ht) (fun _ _ ht => ht) rfl
  have htype : scope.type = "http" := not_not.mp htype
  refine Co.holds_bind ((holds_pickRequestId htype).mono ?_)
  rintro _ trace ⟨requestId, rfl, hpicked, h⟩
  refine holds_own fun u => ?_
  have h1 := h.silent (e := ⟨.own .clearContextvars, .ok u⟩) rfl rfl rfl rfl rfl
  refine ⟨.http htype requestId [] (tracked_open (Co.stops_here _ _) hpicked List.nil_prefix h1),
    holds_own fun u' => ?_⟩
  have h2 := h1.bind requestId (.ok u')
  refine ⟨.http htype requestId [] (tracked_open (Co.stops_here _ _) hpicked List.prefix_rfl h2),
    holds_own fun start => ?_⟩
  have h3 := h2.silent (e := ⟨.own .perfCounter, .ok start⟩) rfl rfl rfl rfl rfl
  refine ⟨.http htype requestId [] (tracked_open (Co.stops_here _ _) hpicked List.prefix_rfl h3),
    ?_⟩
  refine Co.holds_bind ((holds_underWrapper htype hpicked (fun _ ht => ht) (fun _ _ ht => ht) h3
    rfl).mono ?_)
  rintro _ trace' ⟨result, t, rfl, hend, h4⟩
  refine Co.holds_bind ((holds_finish htype hpicked hend h4 start).mono ?_)
  rintro _ trace'' ⟨rfl, hserved⟩
  cases result with
  | ok _ => exact hserved
  | error e => exact hserved

end Request

/-! ## All requests -/

structure Request (ε : Type) {O : Type} (OAns : O → Type) where
  scope : Scope
  app : App ε OAns
  trace : Trace ε OAns
  program : Prog ε OAns Unit

structure Server (ε : Type) {O : Type} (OAns : O → Type) where
  requests : List (Request ε OAns)
  /-- The calls of the collector, the oldest first. -/
  calls : List Call

/-- A request comes in, or one that is there gets an answer. -/
inductive Serves (elapsedMs : ℚ → ℚ → ℚ) : Server ε OAns → Server ε OAns → Prop
  | arrive (s : Server ε OAns) (scope : Scope) (app : App ε OAns) :
      Serves elapsedMs s
        ⟨s.requests ++ [⟨scope, app, [], requestContext elapsedMs scope app⟩], s.calls⟩
  | act (before after : List (Request ε OAns)) (calls : List Call) (req : Request ε OAns)
      (op : Op O) (k : Except ε (op.Ans OAns) → Prog ε OAns Unit) (r : Except ε (op.Ans OAns))
      (hawait : req.program = .await op k) (hr : Allowed op r) :
      Serves elapsedMs ⟨before ++ req :: after, calls⟩
        ⟨before ++ { req with trace := req.trace ++ [⟨op, r⟩], program := k r } :: after,
          calls ++ (recordedCall ⟨op, r⟩).toList⟩

/-- The labels that the collector has counted the request under. -/
def Request.counts (req : Request ε OAns) : List LabelSet :=
  ((req.trace.filterMap recordedCall).filterMap Call.httpEvent).map (·.1)

/-- What holds of every request and of the collector. -/
structure Sound (s : Server ε OAns) : Prop where
  held : ∀ req ∈ s.requests, InHand req.scope req.app req.trace
  rest : ∀ req ∈ s.requests,
    req.program.Holds Answered (InHand req.scope req.app) (Served req.scope req.app) req.trace
  calls : s.calls.Perm (s.requests.flatMap fun req => req.trace.filterMap recordedCall)

section Server

variable {elapsedMs : ℚ → ℚ → ℚ} {s s' : Server ε OAns}

theorem sound_empty : Sound (⟨[], []⟩ : Server ε OAns) := ⟨by simp, by simp, .refl _⟩

theorem Sound.serves (h : Sound s) (hstep : Serves elapsedMs s s') : Sound s' := by
  cases hstep with
  | arrive _ scope app =>
    refine ⟨fun req hreq => ?_, fun req hreq => ?_, ?_⟩
    · rcases List.mem_append.mp hreq with hold | hnew
      · exact h.held req hold
      · rw [List.mem_singleton.mp hnew]
        exact inHand_nil scope app
    · rcases List.mem_append.mp hreq with hold | hnew
      · exact h.rest req hold
      · rw [List.mem_singleton.mp hnew]
        exact holds_requestContext elapsedMs scope app
    · simpa using h.calls
  | act before after calls req op k r hawait hr =>
    have hmem : req ∈ before ++ req :: after := by simp
    obtain ⟨hin, hrest⟩ := (hawait ▸ h.rest req hmem) r _ ⟨hr, rfl⟩
    have hothers : ∀ req', req' ∈ before ∨ req' ∈ after → req' ∈ before ++ req :: after := by
      intro req' hreq'
      rcases hreq' with hbefore | hafter
      · exact List.mem_append_left _ hbefore
      · exact List.mem_append_right _ (List.mem_cons_of_mem _ hafter)
    refine ⟨fun req' hreq' => ?_, fun req' hreq' => ?_, ?_⟩
    · rcases List.mem_append.mp hreq' with hbefore | htail
      · exact h.held req' (hothers req' (.inl hbefore))
      rcases List.mem_cons.mp htail with rfl | hafter
      · exact hin
      · exact h.held req' (hothers req' (.inr hafter))
    · rcases List.mem_append.mp hreq' with hbefore | htail
      · exact h.rest req' (hothers req' (.inl hbefore))
      rcases List.mem_cons.mp htail with rfl | hafter
      · exact hrest
      · exact h.rest req' (hothers req' (.inr hafter))
    · have hcalls := h.calls.append_right (recordedCall ⟨op, r⟩).toList
      refine hcalls.trans ?_
      simp only [List.flatMap_append, List.flatMap_cons, List.filterMap_append,
        filterMap_one, List.append_assoc]
      refine List.Perm.append_left _ (List.Perm.append_left _ ?_)
      exact List.perm_append_comm

theorem sound_of_serves (h : ReflTransGen (Serves elapsedMs) ⟨[], []⟩ s) : Sound s := by
  induction h with
  | refl => exact sound_empty
  | tail _ hstep ih => exact ih.serves hstep

/-- No request is counted twice. -/
theorem InHand.counts {req : Request ε OAns} (h : InHand req.scope req.app req.trace) :
    req.counts.length ≤ 1 := by
  unfold Request.counts
  cases h with
  | http htype requestId t htracked =>
    rcases htracked.calls with hnone | ⟨r, durationMs, -, hone⟩
    · simp [hnone]
    · simp [hone, servedCall, Call.httpEvent]
  | passed htype t hrun hsame =>
    have hnone : req.trace.filterMap recordedCall = [] := by
      rw [hsame, List.filterMap_map]
      exact List.filterMap_eq_nil_iff.mpr fun e _ => rfl
    simp [hnone]

theorem countP_counts (labels : LabelSet) {reqs : List (Request ε OAns)}
    (h : ∀ req ∈ reqs, req.counts.length ≤ 1) :
    (reqs.flatMap Request.counts).countP (· = labels) =
      reqs.countP fun req => req.counts = [labels] := by
  induction reqs with
  | nil => rfl
  | cons req rest ih =>
    obtain ⟨hreq, hrest⟩ := List.forall_mem_cons.mp h
    rw [List.flatMap_cons, List.countP_append, ih hrest, List.countP_cons, Nat.add_comm]
    congr 1
    rcases hcounts : req.counts with _ | ⟨key, _ | ⟨key', more⟩⟩
    · simp
    · by_cases hkey : key = labels <;> simp [hkey]
    · rw [hcounts] at hreq
      simp at hreq

theorem mem_tally {κ : Type} [DecidableEq κ] (keys : List κ) (k : κ) (n : ℕ) :
    (k, n) ∈ tally keys ↔ n = keys.countP (· = k) ∧ n ≠ 0 := by
  rw [(tally_perm keys).mem_iff, List.mem_map]
  constructor
  · rintro ⟨k', hk', heq⟩
    cases heq
    refine ⟨rfl, ?_⟩
    have hpos : 0 < keys.countP (· = k) :=
      List.countP_pos_iff.mpr ⟨k, List.mem_dedup.mp hk', by simp⟩
    omega
  · rintro ⟨rfl, hne⟩
    obtain ⟨k', hk', heq⟩ := List.countP_pos_iff.mp (Nat.pos_of_ne_zero hne)
    have hsame : k' = k := by simpa using heq
    subst hsame
    exact ⟨k', List.mem_dedup.mpr hk', rfl⟩

/-- In whatever order the server goes on with its requests: each app runs as it would on its
own, and each start that the client sees has the one request id of the request, which is the
client's own where that is well formed. A request that is over has been logged once, with the
last status that its app sent and after the app's end, and raises what the app raised. The
collector counts every request at most once, under the labels of the same line. -/
theorem every_request_is_stamped_and_counted
    (h : ReflTransGen (Serves elapsedMs) (⟨[], []⟩ : Server ε OAns) s) :
    (∀ req ∈ s.requests, InHand req.scope req.app req.trace ∧
      (∀ r, req.program = Co.ofExcept r → Served req.scope req.app r req.trace) ∧
      (req.scope.type = "http" → ∃ requestId, Picked req.scope requestId ∧
        ∀ start r, ⟨.app (.send (.responseStart start)), r⟩ ∈ req.trace →
          (start.headers.getD []).filter isRequestId =
            [(requestIdName, encodeLatin1 requestId)])) ∧
    ∀ clock labels n, (labels, n) ∈ (collect clock s.calls).httpRequests ↔
      n = s.requests.countP (fun req => req.counts = [labels]) ∧ n ≠ 0 := by
  have hsound := sound_of_serves h
  refine ⟨fun req hreq => ⟨hsound.held req hreq, fun r hr => ?_, fun htype => ?_⟩,
    fun clock labels n => ?_⟩
  · have hrest := hsound.rest req hreq
    rw [hr] at hrest
    cases r with
    | ok _ => exact hrest
    | error e => exact hrest
  · cases hsound.held req hreq with
    | passed hother => exact absurd htype hother
    | http _ requestId t htracked =>
      refine ⟨requestId, htracked.picked, fun start r hstart => ?_⟩
      exact htracked.once hstart
  · have hcounts : ((s.calls.filterMap Call.httpEvent).map (·.1)).Perm
        (s.requests.flatMap Request.counts) := by
      have hperm := (hsound.calls.filterMap Call.httpEvent).map (·.1)
      rw [List.filterMap_flatMap, List.map_flatMap] at hperm
      exact hperm
    rw [(requests_collect clock s.calls).1, mem_tally, hcounts.countP_eq,
      countP_counts labels fun req hreq => (hsound.held req hreq).counts]

end Server

/-! ## A small request -/

/-- What a request can come to, a server with nothing else to do comes to. -/
theorem serves_endsIn (elapsedMs : ℚ → ℚ → ℚ) (scope : Scope) (app : App ε OAns)
    {p : Prog ε OAns Unit} {trace trace' : Trace ε OAns} {r : Except ε Unit} (calls : List Call)
    (h : p.EndsIn Answered trace r trace') :
    ∃ calls', ReflTransGen (Serves elapsedMs) ⟨[⟨scope, app, trace, p⟩], calls⟩
      ⟨[⟨scope, app, trace', Co.ofExcept r⟩], calls'⟩ := by
  induction p generalizing trace calls with
  | ret a =>
    obtain ⟨rfl, rfl⟩ := h
    exact ⟨calls, .refl⟩
  | raise e =>
    obtain ⟨rfl, rfl⟩ := h
    exact ⟨calls, .refl⟩
  | await op k ih =>
    obtain ⟨a, _, ⟨ha, rfl⟩, hrest⟩ := h
    obtain ⟨calls', hlater⟩ := ih a (calls ++ (recordedCall ⟨op, a⟩).toList) hrest
    have hstep : Serves elapsedMs ⟨[⟨scope, app, trace, .await op k⟩], calls⟩ _ :=
      .act [] [] calls ⟨scope, app, trace, .await op k⟩ op k a rfl ha
    exact ⟨calls', .head hstep hlater⟩

abbrev Nothing : Unit → Type := fun _ => Unit

/-- It names itself, and has another id for the client. -/
def smallScope : Scope :=
  ⟨"http", [(requestIdName, encodeLatin1 "abc".toList)], some "GET", some "/health"⟩

def smallApp : App String Nothing :=
  let theirs : Header := (encodeLatin1 "X-Request-Id".toList, [])
  Co.call (AppOp.send (.responseStart ⟨404, some [theirs], false⟩))

/-- Time stands still, and there is a collector. -/
def smallExec : (op : Op Unit) → Trace String Nothing →
    Except String (op.Ans Nothing) × Trace String Nothing
  | .app (.send m), t => (.ok (), t ++ [⟨.app (.send m), .ok ()⟩])
  | .app (.other o), t => (.ok (), t ++ [⟨.app (.other o), .ok ()⟩])
  | .own .uuid4, t => (.ok 0, t ++ [⟨.own .uuid4, .ok 0⟩])
  | .own .perfCounter, t => (.ok 0, t ++ [⟨.own .perfCounter, .ok 0⟩])
  | .own .collector, t => (.ok true, t ++ [⟨.own .collector, .ok true⟩])
  | .own .clearContextvars, t => (.ok (), t ++ [⟨.own .clearContextvars, .ok ()⟩])
  | .own (.bindContextvars i), t => (.ok (), t ++ [⟨.own (.bindContextvars i), .ok ()⟩])
  | .own (.record call), t => (.ok (), t ++ [⟨.own (.record call), .ok ()⟩])
  | .own (.logServed line), t => (.ok (), t ++ [⟨.own (.logServed line), .ok ()⟩])

theorem smallExec_answered (op : Op Unit) (t : Trace String Nothing) :
    Answered op t (smallExec op t).1 (smallExec op t).2 := by
  cases op with
  | app op => cases op <;> exact ⟨trivial, rfl⟩
  | own op => cases op <;> exact ⟨trivial, rfl⟩

/-- The request counts as a 404. -/
theorem a_small_request_is_counted : ∃ s : Server String Nothing,
    (httpLabels "GET" "/health" 404, 1) ∈ (collect (fun _ => 0) s.calls).httpRequests := by
  have hend := Co.endsIn_run smallExec_answered
    (requestContext (fun _ _ => 0) smallScope smallApp) []
  obtain ⟨calls, hlater⟩ := serves_endsIn (fun _ _ => 0) smallScope smallApp [] hend
  have harrive : Serves (fun _ _ => 0) (⟨[], []⟩ : Server String Nothing) _ :=
    .arrive ⟨[], []⟩ smallScope smallApp
  refine ⟨_, ((every_request_is_stamped_and_counted (.head harrive hlater)).2 _ _ _).mpr
    ⟨?_, by decide⟩⟩
  have hcalls : ((requestContext (fun _ _ => 0) smallScope smallApp).run smallExec []).2.filterMap
      recordedCall = [.http "GET" "/health" 404 0] := by
    rfl
  simp [Request.counts, hcalls, Call.httpEvent]

end image_gen.request_context

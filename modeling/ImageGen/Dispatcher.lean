-- The webhook dispatcher (`app/webhooks/dispatcher.py`). One pass over a job
-- settles its latest attempt, opens the next one and posts. Attempt rows and
-- the job's delivery status are committed apart, so a crash may come between.
import Mathlib.Data.List.MinMax
import ImageGen.Coroutine
import ImageGen.JobStore

namespace image_gen.dispatcher

open image_gen.coroutine image_gen.json image_gen.job_store

/-! ## Attempt rows -/

inductive AttemptStatus
  | pending
  | delivering
  | succeeded
  | failed
  deriving DecidableEq

/-- A row of `webhook_deliveries`. -/
structure Attempt where
  /-- A fresh `uuid4` in the source, the number of earlier rows here. -/
  id : Nat
  attemptN : Nat
  status : AttemptStatus
  statusCode : Option Nat
  responseBodySnippet : Option String
  error : Option String
  errorCode : Option String
  nextRetryAt : Option Nat
  createdAt : Nat
  completedAt : Option Nat
  deriving DecidableEq

/-- The arguments of `complete_attempt`. -/
structure Completion where
  succeeded : Bool
  statusCode : Option Nat := none
  responseBodySnippet : Option String := none
  error : Option String := none
  errorCode : Option String := none
  nextRetryAt : Option Nat := none
  deriving DecidableEq

def Attempt.complete (c : Completion) (now : Nat) (a : Attempt) : Attempt :=
  { a with
    status := if c.succeeded then .succeeded else .failed
    statusCode := c.statusCode
    responseBodySnippet := c.responseBodySnippet
    error := c.error
    errorCode := c.errorCode
    nextRetryAt := c.nextRetryAt
    completedAt := some now }

/-- What was sent and recorded, oldest first. -/
inductive Event
  | posted
  | recorded (attemptN : Nat) (c : Completion)
  deriving DecidableEq

/-- The rows of one job, with their history. -/
structure Rows where
  job : Job
  attempts : List Attempt
  log : List Event

/-- `ORDER BY attempt_n DESC LIMIT 1`. -/
def Rows.latest (r : Rows) : Option Attempt := r.attempts.argmax (·.attemptN)

/-! ## The retry schedule -/

def scheduleS : List Nat := [15, 60, 300, 900, 3600]

/-- `next_retry_at`. Times are in seconds here. -/
def nextRetryAt (attemptN now : Nat) : Option Nat :=
  if scheduleS.length ≤ attemptN then none else some (now + scheduleS.getD attemptN 0)

theorem nextRetryAt_eq_none (attemptN now : Nat) :
    nextRetryAt attemptN now = none ↔ 5 ≤ attemptN := by
  unfold nextRetryAt
  simp [scheduleS]

/-! ## The request -/

structure Request where
  url : String
  payload : Json
  headers : List (String × String)
  followRedirects : Bool

structure Response where
  statusCode : Nat
  text : String

/-- `hmac.new(secret, ts + "." + body, sha256).hexdigest()`. -/
abbrev Signer := Nat → Json → String → String

def dataEntryJson : DataEntry → Json
  | .url url => .obj [("url", .str url)]
  | .b64Json text => .obj [("b64_json", .str text)]

/-- `_build_payload`. -/
def buildPayload (job : Job) (created : Nat) : String × Json :=
  let event := "job." ++ job.status.text
  if job.status = .completed then
    let data := match job.resultJson with
      | some result => result.data.map dataEntryJson
      | none => []
    (event, .obj [("event", .str event),
      ("job", .obj [("id", .str job.id), ("status", .str job.status.text),
        ("created", .int created), ("data", .arr data)])])
  else
    -- `job.error_code or job.status`: an empty code counts as none
    let code := match job.errorCode with
      | some code => if code = "" then job.status.text else code
      | none => job.status.text
    (event, .obj [("event", .str event),
      ("job", .obj [("id", .str job.id), ("status", .str job.status.text),
        ("error", .obj [("code", .str code),
          ("message", .str (job.errorMessage.getD ""))])])])

/-- `headers[k] = v`. -/
def setHeader (headers : List (String × String)) (k v : String) : List (String × String) :=
  if headers.any (fun h => h.1 = k) then
    headers.map (fun h => if h.1 = k then (k, v) else h)
  else headers ++ [(k, v)]

/-- The headers of the caller that the dispatcher drops. -/
def reservedHeader (k : String) : Bool :=
  "x-imagegen-".toList.isPrefixOf k.toLower.toList ||
    k.toLower ∈ ["content-type", "host", "authorization", "user-agent"]

def buildHeaders (job : Job) (event deliveryId signature : String) (ts : Nat) :
    List (String × String) :=
  let base := [
    ("Content-Type", "application/json"),
    ("User-Agent", "image-gen-service/0.1"),
    ("X-ImageGen-Event", event),
    ("X-ImageGen-Job-Id", job.id),
    ("X-ImageGen-Delivery-Id", deliveryId),
    ("X-ImageGen-Timestamp", toString ts),
    ("X-ImageGen-Signature", "t=" ++ toString ts ++ ",v1=" ++ signature)]
  (job.webhookHeaders.getD []).foldl
    (fun headers h => if reservedHeader h.1 then headers else setHeader headers h.1 h.2) base

/-! ## The pass -/

inductive Exc
  /-- `httpx.HTTPError`. -/
  | http (message : String)
  /-- Any other exception, as one that encoding a header raises. -/
  | other (message : String)
  /-- `CHECK (attempt_n BETWEEN 1 AND 5)`. -/
  | integrity
  deriving DecidableEq

inductive Op
  | setWebhookDeliveryStatus (status : WebhookDeliveryStatus)
  | getLatestAttempt
  | now
  | completeAttempt (attemptId : Nat) (c : Completion)
  | createAttempt (attemptN : Nat) (nextRetryAt : Option Nat)
  | setAttemptDelivering (attemptId : Nat)
  | toctouAllows (url : String)
  | firstSigningSecret
  | uuid4
  | post (request : Request)

@[reducible] def Op.Ans : Op → Type
  | .getLatestAttempt => Option Attempt
  | .now => Nat
  | .createAttempt _ _ => Attempt
  | .toctouAllows _ => Bool
  | .firstSigningSecret => Option String
  | .uuid4 => String
  | .post _ => Response
  | _ => Unit

abbrev Prog (α : Type) := Co Exc Op Op.Ans α

def ask (op : Op) : Prog op.Ans := Co.call op

def setWebhookDeliveryStatus (status : WebhookDeliveryStatus) : Prog Unit :=
  ask (.setWebhookDeliveryStatus status)

def getLatestAttempt : Prog (Option Attempt) := ask .getLatestAttempt

def readNow : Prog Nat := ask .now

def completeAttempt (attemptId : Nat) (c : Completion) : Prog Unit :=
  ask (.completeAttempt attemptId c)

def createAttempt (attemptN : Nat) : Prog Attempt := ask (.createAttempt attemptN none)

def setAttemptDelivering (attemptId : Nat) : Prog Unit := ask (.setAttemptDelivering attemptId)

def toctouAllows (url : String) : Prog Bool := ask (.toctouAllows url)

def firstSigningSecret : Prog (Option String) := ask .firstSigningSecret

def uuid4 : Prog String := ask .uuid4

def post (request : Request) : Prog Response := ask (.post request)

/-- `complete_attempt` with a failure, then the job's status. -/
def recordFailure (attemptId : Nat) (c : Completion) : Prog Unit := do
  completeAttempt attemptId c
  setWebhookDeliveryStatus (if c.nextRetryAt = none then .failed else .pending)

/-- What the pass does about the latest attempt. It goes on when the answer is
true. -/
def settleLatest (now : Nat) : Option Attempt → Prog Bool
  | none => return true
  | some latest =>
    match latest.status with
    | .succeeded => do
      setWebhookDeliveryStatus .succeeded
      return false
    | .failed =>
      match latest.nextRetryAt with
      | none => return true
      | some due => return decide (due ≤ now)
    | _ =>
      match latest.nextRetryAt with
      | none => do
        completeAttempt latest.id {
          succeeded := false
          statusCode := latest.statusCode
          responseBodySnippet := latest.responseBodySnippet
          error := latest.error
          errorCode := some (latest.errorCode.getD "webhook_dispatcher_restart") }
        return true
      | some due => return decide (due ≤ now)

def buildRequest (sign : Signer) (job : Job) (url secret : String) : Prog Request := do
  -- `int(time.time())`, once for the payload of a completed job and once for the signature
  let created ← readNow
  let (event, payload) := buildPayload job created
  let ts ← readNow
  let deliveryId ← uuid4
  return ⟨url, payload, buildHeaders job event deliveryId (sign ts payload secret) ts, false⟩

/-- The POST, with the message of an `httpx.HTTPError`. -/
def tryPost (request : Request) : Prog (Except String Response) :=
  tryCatch (Except.ok <$> post request) fun
    | .http message => pure (.error message)
    | e => throw e

def isSuccess (code : Nat) : Bool := decide (200 ≤ code ∧ code < 300)

def retryable (code : Nat) : Bool := decide (code = 429 ∨ (500 ≤ code ∧ code ≤ 599))

def isRedirect (code : Nat) : Bool := decide (300 ≤ code ∧ code ≤ 399)

def snippet (text : String) : String := String.ofList (text.toList.take 256)

def recordOutcome (attempt : Attempt) (attemptN : Nat) : Except String Response → Prog Unit
  | .error message => do
    let now ← readNow
    recordFailure attempt.id
      { succeeded := false, error := some message, nextRetryAt := nextRetryAt attemptN now }
  | .ok resp => do
    if isSuccess resp.statusCode then
      completeAttempt attempt.id {
        succeeded := true
        statusCode := some resp.statusCode
        responseBodySnippet := some (snippet resp.text) }
      setWebhookDeliveryStatus .succeeded
    else
      let now ← readNow
      recordFailure attempt.id {
        succeeded := false
        statusCode := some resp.statusCode
        responseBodySnippet := some (snippet resp.text)
        errorCode := if isRedirect resp.statusCode then some "webhook_redirect" else none
        nextRetryAt := if retryable resp.statusCode then nextRetryAt attemptN now else none }

/-- The new attempt: checks, POST and record. -/
def attemptDelivery (sign : Signer) (job : Job) (url : String) (attemptN : Nat) : Prog Unit := do
  let attempt ← createAttempt attemptN
  setAttemptDelivering attempt.id
  let allowed ← toctouAllows url
  if allowed then
    match ← firstSigningSecret with
    | none =>
      recordFailure attempt.id { succeeded := false, errorCode := some "webhook_signing_error" }
    | some secret =>
      let request ← buildRequest sign job url secret
      let outcome ← tryPost request
      recordOutcome attempt attemptN outcome
  else
    recordFailure attempt.id { succeeded := false, errorCode := some "webhook_ssrf_blocked" }

/-- `_process_one`, on the row as the scan read it. -/
def processOne (sign : Signer) (job : Job) : Prog Unit :=
  match job.webhookUrl with
  | none => pure ()
  | some url =>
    if job.mode = .sync ∧ job.responseDelivered = true then setWebhookDeliveryStatus .suppressed
    else do
      let latest ← getLatestAttempt
      let now ← readNow
      let go ← settleLatest now latest
      if go then
        let attemptN := match latest with
          | none => 1
          | some a => a.attemptN + 1
        attemptDelivery sign job url attemptN
      else pure ()

/-! ## Its operations -/

/-- What the clock, the resolver, the environment and the receiver answer to
one operation. -/
structure Input where
  now : Nat
  allows : Except Exc Bool
  secret : Option String
  uuid : String
  response : Except Exc Response

def newAttempt (r : Rows) (attemptN : Nat) (nextRetryAt : Option Nat) (now : Nat) : Attempt where
  id := r.attempts.length
  attemptN := attemptN
  status := .pending
  statusCode := none
  responseBodySnippet := none
  error := none
  errorCode := none
  nextRetryAt := nextRetryAt
  createdAt := now
  completedAt := none

def updateAttempt (attempts : List Attempt) (id : Nat) (f : Attempt → Attempt) : List Attempt :=
  attempts.map fun a => if a.id = id then f a else a

def exec (inp : Input) : (op : Op) → Rows → Except Exc op.Ans × Rows
  | .setWebhookDeliveryStatus status, r =>
    (.ok (), { r with job := r.job.setWebhookDeliveryStatus status inp.now })
  | .getLatestAttempt, r => (.ok r.latest, r)
  | .now, r => (.ok inp.now, r)
  | .completeAttempt id c, r =>
    (.ok (), { r with
      attempts := updateAttempt r.attempts id (Attempt.complete c inp.now)
      log := r.log ++ (r.attempts.filter fun a => a.id = id).map fun a => .recorded a.attemptN c })
  | .createAttempt attemptN retryAt, r =>
    if 1 ≤ attemptN ∧ attemptN ≤ 5 then
      (.ok (newAttempt r attemptN retryAt inp.now),
        { r with attempts := r.attempts ++ [newAttempt r attemptN retryAt inp.now] })
    else (.error .integrity, r)
  | .setAttemptDelivering id, r =>
    (.ok (), { r with
      attempts := updateAttempt r.attempts id fun a => { a with status := .delivering } })
  | .toctouAllows _, r => (inp.allows, r)
  | .firstSigningSecret, r => (.ok inp.secret, r)
  | .uuid4, r => (.ok inp.uuid, r)
  | .post _, r => (inp.response, { r with log := r.log ++ [.posted] })

end image_gen.dispatcher

-- LRU eviction of fetched LoRAs (`app/loras/eviction.py`). `evict_for` is the
-- machine of its await points: it selects candidates from one reading of the
-- job table and reads the table again before it unlinks each of them.
import Mathlib.Data.List.Sort
import ImageGen.Runs
import ImageGen.LoraFiles
import Mathlib.Algebra.GroupWithZero.Nat

namespace image_gen.eviction

open image_gen.json image_gen.job_store image_gen.requests image_gen.file_tree
open image_gen.lora_files

/-! ## Protected names -/

/-- The names in the `loras` list of a body. -/
def bodyLoras : Json → List String
  | .obj fields =>
    match Json.get fields "loras" with
    | .arr items => items.filterMap fun item =>
      match item with
      | .obj entry =>
        match Json.get entry "name" with
        | .str name => some name
        | _ => none
      | _ => none
    | _ => []
  | _ => []

def collectNames : List StoredJson → Except String (List String)
  | [] => .ok []
  | .value body :: rest => (collectNames rest).map fun names => bodyLoras body ++ names
  | .malformed _ :: rest => collectNames rest
  | .unreadable message :: _ => .error message

/-- The rows that the SELECT reads. -/
def liveRows (s : Store) : List Job := s.filter fun j => !decide j.status.Terminal

def nonTerminalLoraNames (s : Store) : Except String (List String) :=
  collectNames ((liveRows s).map (·.inputJson))

/-! ## Candidates -/

/-- The fetcher's settings and the arguments of the call. -/
structure Setting extends Validator where
  incomingSize : Int
  dirMaxBytes : Int
  recentUseDays : Int
  /-- Microseconds since `datetime.min`. A naive time is read as UTC. -/
  fromisoformat : String → Option Int

structure Candidate where
  sortKey : Int
  path : Path
  size : Nat
  canonicalName : String

/-- `dir.rglob("*.safetensors")`. Links to directories are not entered. -/
def rglobSafetensors (t : LoraTree) (dir : Path) : List Path :=
  match t.locate dir with
  | none => []
  | some base => t.entries.filterMap fun e =>
    match e.1.getLast? with
    | some name =>
      if base <+: e.1 ∧ base ≠ e.1 ∧ ".safetensors".toList <:+ name.toList then
        some (dir ++ e.1.drop base.length)
      else none
    | none => none

def Setting.civitaiRoot (cfg : Setting) : Path := cfg.lorasRoot ++ ["civitai"]

def directorySize (t : LoraTree) (civitaiRoot : Path) : Nat :=
  if t.isDir civitaiRoot then
    ((rglobSafetensors t civitaiRoot).map fun p => ((t.read p).map (·.size)).getD 0).sum
  else 0

/-- `path.with_suffix(suffix)`. -/
def pathWithSuffix (p : Path) (suffix : String) : Path :=
  match p.getLast? with
  | some name => p.dropLast ++ [withSuffix name suffix]
  | none => p

def sidecarPath (p : Path) : Path := pathWithSuffix p ".json"

def Setting.canonicalName (cfg : Setting) (p : Path) : String :=
  asPosix (pathWithSuffix (p.drop cfg.lorasRoot.length) "")

def readSidecar (t : LoraTree) (p : Path) : Except String (Option (List (String × Json))) :=
  match t.read p with
  | none => .ok none
  | some contents =>
    match contents.text with
    | .value (.obj data) => .ok (some data)
    | .value _ => .ok none
    | .malformed _ => .ok none
    | .unreadable message => .error message

def Setting.lastUsedDt (cfg : Setting) (sidecar : List (String × Json)) : Option Int :=
  match Json.get sidecar "last_used" with
  | .str raw => cfg.fromisoformat raw
  | _ => none

def fromCivitai (sidecar : List (String × Json)) : Bool :=
  match Json.get sidecar "source" with
  | .str source => source = "civitai"
  | _ => false

def dayMicros : Int := 86400000000

/-- `datetime.max`, and one microsecond. -/
def endOfTime : Int := 3652059 * dayMicros

/-- `now - timedelta(days=recent_use_days)`. The texts are those of its `OverflowError`s. -/
def Setting.cutoff (cfg : Setting) (now : Int) : Except String Int :=
  let days := cfg.recentUseDays
  if days < -2147483648 ∨ 2147483647 < days then
    .error "Python int too large to convert to C int"
  else if days < -999999999 ∨ 999999999 < days then
    .error ("days=" ++ toString days ++ "; must have magnitude <= 999999999")
  else if now - days * dayMicros < 0 ∨ endOfTime ≤ now - days * dayMicros then
    .error "date value out of range"
  else .ok (now - days * dayMicros)

/-- One turn of the selection loop. -/
def Setting.candidate (cfg : Setting) (t : LoraTree) (protectedByJobs : List String)
    (cutoff : Int) (path : Path) : Except String (Option Candidate) :=
  if ¬ t.isFile path then .ok none
  else
    match readSidecar t (sidecarPath path) with
    | .error message => .error message
    | .ok none => .ok none
    | .ok (some sidecar) =>
      if ¬ fromCivitai sidecar then .ok none
      else if cfg.canonicalName path ∈ protectedByJobs then .ok none
      else if (cfg.lastUsedDt sidecar).any fun lastUsed => lastUsed > cutoff then .ok none
      else .ok <| (t.read path).map fun contents =>
        { sortKey := (cfg.lastUsedDt sidecar).getD 0
          path := path
          size := contents.size
          canonicalName := cfg.canonicalName path }

/-- Oldest first. The sort is stable. -/
def Setting.select (cfg : Setting) (t : LoraTree) (protectedByJobs : List String) (now : Int) :
    Except String (List Candidate) :=
  (cfg.cutoff now).bind fun cutoff =>
    ((rglobSafetensors t cfg.civitaiRoot).mapM (cfg.candidate t protectedByJobs cutoff)).map
      fun found => found.reduceOption.insertionSort fun a b => a.sortKey ≤ b.sortKey

/-! ## The call -/

structure Progress where
  required : Int
  reclaimed : Int
  /-- `len(candidates)`. -/
  total : Nat

/-- Where the call stands. -/
inductive Pc
  | called
  /-- In the first `_non_terminal_lora_names`, before its SELECT. -/
  | asking (required : Int)
  | asked (required : Int) (protectedByJobs : List String)
  /-- In the `_non_terminal_lora_names` of a candidate, before its SELECT. -/
  | rechecking (p : Progress) (c : Candidate) (rest : List Candidate)
  | rechecked (p : Progress) (c : Candidate) (rest : List Candidate) (freshProtected : List String)
  | returned (reclaimed : Int)
  /-- `InsufficientStorageError`. -/
  | insufficientStorage (message : String)
  | raised (message : String)

def start (cfg : Setting) (t : LoraTree) : Pc :=
  let required := cfg.incomingSize - (cfg.dirMaxBytes - directorySize t cfg.civitaiRoot)
  if required ≤ 0 then .returned 0
  else if ¬ t.isDir cfg.civitaiRoot then
    .insufficientStorage
      ("need " ++ toString required ++ " bytes but civitai/ subtree is empty (nothing to evict)")
  else .asking required

/-- The head of the unlink loop. -/
def loop (p : Progress) (candidates : List Candidate) : Pc :=
  if p.reclaimed < p.required then
    match candidates with
    | c :: rest => .rechecking p c rest
    | [] =>
      .insufficientStorage
        ("need " ++ toString p.required ++ " bytes but only reclaimed " ++ toString p.reclaimed ++
          " after exhausting " ++ toString p.total ++ " eligible candidates")
  else .returned p.reclaimed

/-- `os.unlink` where the system refuses some paths. -/
def unlink (t : LoraTree) (refused : List Path) (p : Path) : Option LoraTree :=
  if p ∈ refused then none else t.unlink p

/-- The two unlinks of a candidate. The second one may fail. -/
def evict (t : LoraTree) (refused : List Path) (c : Candidate) : Option LoraTree :=
  (unlink t refused c.path).map fun u => (unlink u refused (sidecarPath c.path)).getD u

/-! ## The service around it -/

structure State where
  tree : LoraTree
  store : Store
  /-- Handlers between validation and `create_queued`. -/
  admitted : List Submission
  pc : Pc

inductive Label
  /-- A handler validates a request. -/
  | accept (r : Submission)
  | create (i : Nat) (id : String) (now : Nat)
  /-- Any other write to the job table. -/
  | write (w : Write) (now : Nat)
  /-- `touch_last_used_async` for one LoRA name, past its debounce window. -/
  | touch (name iso : String) (size : Nat)
  /-- The SELECT that the call is in. -/
  | read
  | readFails (message : String)
  /-- The call runs to its next await. -/
  | resume (now : Int) (refused : List Path)

/-- `d[key] = value`. -/
def setKey (fields : List (String × Json)) (key : String) (value : Json) : List (String × Json) :=
  if ∃ f ∈ fields, f.1 = key then fields.map fun f => if f.1 = key then (key, value) else f
  else fields ++ [(key, value)]

def touchLastUsed (t : LoraTree) (sidecar : Path) (iso : String) (size : Nat) : LoraTree :=
  match t.read sidecar, t.entry sidecar with
  | some contents, some e =>
    match contents.text with
    | .value (.obj data) =>
      t.replace e ⟨size, .value (.obj (setKey data "last_used" (.str iso)))⟩
    | _ => t
  | _, _ => t

def readRows (s : State) : Option Pc :=
  let names := nonTerminalLoraNames s.store
  match s.pc with
  | .asking required =>
    match names with
    | .ok names => some (.asked required names)
    | .error message => some (.raised message)
  | .rechecking p c rest =>
    match names with
    | .ok names => some (.rechecked p c rest names)
    | .error message => some (.raised message)
  | _ => none

def resume (cfg : Setting) (s : State) (now : Int) (refused : List Path) : Option State :=
  match s.pc with
  | .called => some { s with pc := start cfg s.tree }
  | .asked required names =>
    match cfg.select s.tree names now with
    | .ok candidates => some { s with pc := loop ⟨required, 0, candidates.length⟩ candidates }
    | .error message => some { s with pc := .raised message }
  | .rechecked p c rest names =>
    if c.canonicalName ∈ names then some { s with pc := loop p rest }
    else
      match evict s.tree refused c with
      | some tree =>
        some { s with tree := tree, pc := loop { p with reclaimed := p.reclaimed + c.size } rest }
      | none => some { s with pc := loop p rest }
  | _ => none

def next (cfg : Setting) (s : State) : Label → Option State
  | .accept r =>
    match validate cfg.toValidator s.tree r.artifact r.raw with
    | .ok _ => some { s with admitted := s.admitted ++ [r] }
    | .error _ => none
  | .create i id now =>
    match s.admitted[i]? with
    | some r =>
      match s.store.createQueued (r.row id now) with
      | .ok rows => some { s with store := rows, admitted := s.admitted.eraseIdx i }
      | .error _ => some { s with admitted := s.admitted.eraseIdx i }
    | none => none
  | .write w now =>
    match w.apply s.store now with
    | .ok rows => some { s with store := rows }
    | .error _ => some s
  | .touch name iso size =>
    let sidecar := sidecarPath (joinPath cfg.lorasRoot (name ++ ".safetensors"))
    some { s with tree := touchLastUsed s.tree sidecar iso size }
  | .read => (readRows s).map fun pc => { s with pc := pc }
  | .readFails message => (readRows s).map fun _ => { s with pc := .raised message }
  | .resume now refused => resume cfg s now refused

end image_gen.eviction

-- The Civitai fetcher (`app/loras/civitai.py`): the names that it derives from
-- the metadata, and `_run` with `_fetch` inside it.
import ImageGen.Coroutine
import ImageGen.FetchTable
import ImageGen.Json
import ImageGen.Eviction

namespace image_gen.civitai_fetch

open image_gen.coroutine image_gen.json image_gen.fetch_table image_gen.file_tree
open image_gen.eviction (pathWithSuffix)

/-! ## Names -/

def slugChar (c : Char) : Bool := c.isAlphanum || c = '_' || c = '.' || c = '-'

/-- `re.sub("[..]+", "_", s)`: each run of characters in `p` becomes one `_`. -/
def subRuns (p : Char → Bool) : Bool → List Char → List Char
  | _, [] => []
  | inRun, c :: cs =>
    if p c then if inRun then subRuns p true cs else '_' :: subRuns p true cs
    else c :: subRuns p false cs

/-- `s.strip("_.")`. -/
def stripSeparators (s : List Char) : List Char :=
  let sep := fun c => c = '_' ∨ c = '.'
  ((s.dropWhile sep).reverse.dropWhile sep).reverse

def safetensors : List Char := ".safetensors".toList

/-- `filename[: -len(".safetensors")]`, where the name ends with it. -/
def dropSafetensors (filename : List Char) : List Char :=
  if safetensors.isSuffixOf filename then filename.take (filename.length - safetensors.length)
  else filename

/-- `sanitize_slug`. -/
def sanitizeSlug (filename : String) : String :=
  let cleaned := subRuns (fun c => !slugChar c) false (dropSafetensors filename.toList)
  let collapsed := subRuns (· = '_') false cleaned
  let stripped := stripSeparators collapsed
  if stripped = [] then "unnamed" else String.ofList stripped

/-- `f"{slug}_{version_id}"`. -/
def stem (slug : String) (version : Int) : String := slug ++ "_" ++ toString version

def canonicalName (slug : String) (version : Int) : String := "civitai/" ++ stem slug version

def destPath (lorasRoot : Path) (slug : String) (version : Int) : Path :=
  lorasRoot ++ ["civitai", stem slug version ++ ".safetensors"]

def tmpPath (dest : Path) : Path := pathWithSuffix dest ".safetensors.tmp"

/-! ## The metadata -/

/-- What `_pick_primary_file` has checked. -/
structure PrimaryFile where
  name : String
  downloadUrl : String
  sha256 : String
  sizeKB : Json
  accepted : ".safetensors".toList <:+ name.toList

/-- `_pick_primary_file`, with the `repr` of a name that is refused. -/
def pickPrimaryFile (repr : Json → String) (metadata : List (String × Json)) :
    Except String PrimaryFile :=
  let refused := fun name : Json =>
    Except.error ("primary file name must end with .safetensors, got " ++ repr name)
  match Json.get metadata "files" with
  | .arr (file :: files) =>
    let primary := (file :: files).findSome? fun
      | .obj f => if (Json.get f "primary").truthy then some f else none
      | _ => none
    match primary with
    | none => .error "civitai response has no files[].primary=true entry"
    | some f =>
      match Json.get f "name" with
      | .str name =>
        if h : ".safetensors".toList <:+ name.toList then
          match Json.get f "downloadUrl" with
          | .str "" => .error "primary file missing downloadUrl"
          | .str url =>
            match Json.get f "hashes" with
            | .obj hashes =>
              match Json.get hashes "SHA256" with
              | .str "" => .error "file missing SHA256 hash; cannot verify"
              | .str sha => .ok ⟨name, url, sha, Json.get f "sizeKB", h⟩
              | _ => .error "file missing SHA256 hash; cannot verify"
            | _ => .error "primary file missing hashes"
          | _ => .error "primary file missing downloadUrl"
        else refused (.str name)
      | name => refused name
  | _ => .error "civitai response has no files[]"

/-- The fields that `_write_sidecar_atomic` takes from its arguments. -/
structure Sidecar where
  canonicalName : String
  sha256 : String
  civitaiModelId : Option Int
  civitaiVersionId : Int
  metadata : List (String × Json)

/-! ## The operations -/

inductive Exc
  | table (e : TableError)
  /-- `httpx.HTTPStatusError`. -/
  | httpStatus (code : Nat)
  /-- A timeout, a connect error or a protocol error of httpx. -/
  | transport (message : String)
  | value (message : String)
  | insufficientStorage (message : String)
  | downloadTooLarge (message : String)
  | slowDownload (message : String)
  | midStreamDiskFull (message : String)
  | timeout
  | os (message : String) (noSpace : Bool)
  | cancelled
  | other (message : String)
  deriving DecidableEq

/-- `str(exc)`, where it is stored. -/
def Exc.text : Exc → String
  | .value message => message
  | .transport message => message
  | .insufficientStorage message => message
  | .downloadTooLarge message => message
  | .slowDownload message => message
  | .midStreamDiskFull message => message
  | .os message _ => message
  | .other message => message
  | _ => ""

inductive Op
  | getById (id : String)
  | setStatus (id : String) (target : FetchStatus)
  | setFailed (id errorCode errorMessage : String) (handover : Bool)
  | setTotalBytes (id : String) (total : Nat)
  | setDestName (id destName : String)
  /-- The semaphore and the lock of the version. -/
  | acquire (version : Int)
  | release (version : Int)
  /-- `_fetch_metadata`, retries included. -/
  | fetchMetadata (version : Int)
  /-- `int(size_kb * 1024)`, where `sizeKB` is no number too. -/
  | expectedSize (sizeKB : Json)
  | mkdir (path : Path)
  | isFile (path : Path)
  /-- `_write_sidecar_atomic`. -/
  | writeSidecar (path : Path) (sidecar : Sidecar)
  | diskFree
  | evictFor (incomingSize : Int)
  | validateDownloadUrl (url : String)
  /-- `_stream_download`, which gives the digest and updates the progress. -/
  | streamDownload (id url : String) (tmp : Path) (expectedSize : Int)
  | unlinkQuiet (path : Path)
  /-- `os.replace`. -/
  | replace (src dst : Path)

@[reducible] def Op.Ans : Op → Type
  | .getById _ => Option LoraFetch
  | .fetchMetadata _ => List (String × Json)
  | .expectedSize _ => Int
  | .isFile _ => Bool
  | .diskFree => Int
  | .streamDownload _ _ _ _ => String
  | _ => Unit

abbrev Prog (α : Type) := Co Exc Op Op.Ans α

def ask (op : Op) : Prog op.Ans := Co.call op

/-- A failure that ends the fetch: its code and its message. -/
abbrev Failure := String × String

def setFailed (row : LoraFetch) (f : Failure) : Prog Unit :=
  ask (.setFailed row.id f.1 f.2 false)

/-- The rest of the fetch with the result, or the failure in the row. -/
def orFail {α : Type} (row : LoraFetch) (rest : α → Prog Unit) : Except Failure α → Prog Unit
  | .ok a => rest a
  | .error f => setFailed row f

/-- An operation whose exceptions are failures where `f` says so. -/
def attempt (op : Op) (f : Exc → Option Failure) : Prog (Except Failure op.Ans) :=
  tryCatch (Except.ok <$> ask op) fun e =>
    match f e with
    | some failure => pure (.error failure)
    | none => throw e

def metadataFailure : Exc → Option Failure
  | .httpStatus code =>
    if code = 401 ∨ code = 403 then
      some ("civitai_auth", toString code ++ " from civitai metadata")
    else if code = 404 then some ("civitai_version_not_found", "civitai returned 404")
    else some ("civitai_unavailable", "civitai returned " ++ toString code)
  | .transport message => some ("civitai_unavailable", "civitai transport failure: " ++ message)
  | _ => none

/-- The exceptions of the `except` clauses around `_stream_download`. -/
def downloadCatches : Exc → Bool
  | .downloadTooLarge _ => true
  | .slowDownload _ => true
  | .midStreamDiskFull _ => true
  | .httpStatus _ => true
  | .transport _ => true
  | .timeout => true
  | .os _ _ => true
  | _ => false

def downloadFailure (overallTimeoutS : String) : Exc → Option Failure
  | .downloadTooLarge message => some ("lora_too_large", message)
  | .slowDownload message => some ("civitai_unavailable", "slow download aborted: " ++ message)
  | .midStreamDiskFull message => some ("insufficient_storage", message)
  | .httpStatus code =>
    if code = 401 ∨ code = 403 then some ("civitai_auth", toString code ++ " mid-download")
    else some ("civitai_unavailable", "download " ++ toString code)
  | .transport message => some ("civitai_unavailable", "download transport failure: " ++ message)
  | .timeout =>
    some ("civitai_unavailable", "download exceeded overall timeout " ++ overallTimeoutS ++ "s")
  | .os message noSpace =>
    some (if noSpace then "insufficient_storage" else "internal",
      "download write failure: " ++ message)
  | _ => none

theorem downloadFailure_isSome (overallTimeoutS : String) (e : Exc) :
    (downloadFailure overallTimeoutS e).isSome = downloadCatches e := by
  cases e with
  | httpStatus code =>
    simp only [downloadFailure]
    split <;> rfl
  | _ => rfl

/-! ## The fetch -/

structure Config where
  lorasRoot : Path
  fileMaxBytes : Int
  /-- The seconds, as an f-string writes them. -/
  downloadOverallTimeoutS : String
  /-- `repr` of a value of the metadata. -/
  repr : Json → String

section Fetch

variable (cfg : Config) (row : LoraFetch)

/-- The end of both branches. -/
def finish (name : String) : Prog Unit := do
  ask (.setDestName row.id name)
  ask (.setStatus row.id .done)

/-- Steps 7 and 8: verify, then the sidecar and the rename. -/
def install (file : PrimaryFile) (metadata : List (String × Json)) (name : String)
    (dest tmp : Path) (actualSha : String) : Prog Unit := do
  ask (.setStatus row.id .verifying)
  if actualSha ≠ file.sha256.toLower then do
    ask (.unlinkQuiet tmp)
    setFailed row ("sha_mismatch", "expected " ++ file.sha256.toLower ++ " got " ++ actualSha)
  else do
    ask (.writeSidecar (pathWithSuffix dest ".json")
      ⟨name, file.sha256.toLower, row.civitaiModelId, row.civitaiVersionId, metadata⟩)
    ask (.replace tmp dest)
    finish row name

/-- Step 6: the download. -/
def download (file : PrimaryFile) (metadata : List (String × Json)) (name : String)
    (dest : Path) (expectedSize : Int) : Prog Unit := do
  let tmp := tmpPath dest
  let checked ← attempt (.validateDownloadUrl file.downloadUrl) fun
    | .value message => some ("validation_error", "unsafe download URL: " ++ message)
    | _ => none
  orFail row (fun _ => do
    let sha ← attempt (.streamDownload row.id file.downloadUrl tmp expectedSize)
      (downloadFailure cfg.downloadOverallTimeoutS)
    match sha with
    | .ok actualSha => install row file metadata name dest tmp actualSha
    | .error failure => do
      ask (.unlinkQuiet tmp)
      setFailed row failure) checked

/-- Step 4: a file that is there already is taken as it is. -/
def takeExisting (file : PrimaryFile) (metadata : List (String × Json)) (name : String)
    (dest : Path) : Prog Unit := do
  let hasSidecar ← ask (.isFile (pathWithSuffix dest ".json"))
  if hasSidecar then pure ()
  else ask (.writeSidecar (pathWithSuffix dest ".json")
    ⟨name, file.sha256.toLower, row.civitaiModelId, row.civitaiVersionId, metadata⟩)
  ask (.setDestName row.id name)
  ask (.setStatus row.id .verifying)
  ask (.setStatus row.id .done)

/-- Step 5: room on the disk. -/
def makeRoom (expectedSize : Int) (rest : Prog Unit) : Prog Unit := do
  let freeBytes ← ask .diskFree
  if freeBytes < expectedSize * 2 then do
    let evicted ← attempt (.evictFor (expectedSize * 2)) fun
      | .insufficientStorage message => some ("insufficient_storage", message)
      | _ => none
    orFail row (fun _ => rest) evicted
  else rest

/-- Steps 3 to 8. -/
def fetchFile (file : PrimaryFile) (metadata : List (String × Json)) (expectedSize : Int) :
    Prog Unit := do
  let slug := sanitizeSlug file.name
  let name := canonicalName slug row.civitaiVersionId
  let dest := destPath cfg.lorasRoot slug row.civitaiVersionId
  ask (.mkdir dest.dropLast)
  let exists' ← ask (.isFile dest)
  if exists' then takeExisting row file metadata name dest
  else makeRoom row expectedSize (download cfg row file metadata name dest expectedSize)

/-- Step 2: the file entry and its size. -/
def fetchPrimary (metadata : List (String × Json)) : Prog Unit :=
  match pickPrimaryFile cfg.repr metadata with
  | .error message => setFailed row ("validation_error", message)
  | .ok file => do
    let expectedSize ← ask (.expectedSize file.sizeKB)
    if expectedSize > cfg.fileMaxBytes then
      setFailed row ("lora_too_large", "file size " ++ toString expectedSize ++
        " exceeds cap " ++ toString cfg.fileMaxBytes)
    else do
      if expectedSize > 0 then ask (.setTotalBytes row.id expectedSize.toNat) else pure ()
      fetchFile cfg row file metadata expectedSize

/-- `_fetch`. -/
def fetch : Prog Unit := do
  ask (.setStatus row.id .downloading)
  let metadata ← attempt (.fetchMetadata row.civitaiVersionId) metadataFailure
  orFail row (fetchPrimary cfg row) metadata

/-- The handlers around `_fetch`. -/
def guarded : Prog Unit :=
  tryCatch (fetch cfg row) fun
    | .cancelled => do
      ask (.setFailed row.id "service_restarted" "fetcher cancelled during shutdown" true)
      throw .cancelled
    | e => ask (.setFailed row.id "internal" e.text false)

end Fetch

/-- `_run`. -/
def runFetch (cfg : Config) (requestId : String) : Prog Unit := do
  match ← ask (.getById requestId) with
  | none => pure ()
  | some row => do
    ask (.acquire row.civitaiVersionId)
    tryCatch (guarded cfg row) fun e => do
      ask (.release row.civitaiVersionId)
      throw e
    ask (.release row.civitaiVersionId)

end image_gen.civitai_fetch

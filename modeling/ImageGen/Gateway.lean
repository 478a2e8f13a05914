-- The name of an output on its way to the client: the file that ComfyUI reports
-- (`app/backends/comfyui.py`), the key of the object (`app/storage/s3.py`), and
-- the two gateway routes (`app/api/images.py`, `app/api/videos.py`).
import ImageGen.PyStr
import ImageGen.Results
import ImageGen.Storage
import ImageGen.Worker

namespace image_gen.gateway

open image_gen.json image_gen.job_store image_gen.py_str image_gen.requests image_gen.results
  image_gen.storage image_gen.worker

variable {G : Type}

/-- The extensions of `_MEDIA_INDEX_RE`. -/
def mediaExts : List String := ["mp4", "webm", "gif", "png"]

/-! ## `fetch_media_outputs` -/

/-- What `httpx` returns or raises. -/
inductive Http (α : Type)
  /-- `httpx.HTTPError`. -/
  | error (message : String)
  | response (status : Nat) (content : α)

structure Comfy where
  history : (promptId : String) → Http StoredJson
  view : (filename subfolder type : Json) → Http Bytes
  /-- `repr` in the text of an error. -/
  repr : Json → String

/-- The fields of a dict, for a method that only a dict has. -/
def fieldsOf (method : String) : Json → Except Exc (List (String × Json))
  | .obj fields => .ok fields
  | value => .error (.other "AttributeError"
      ("'" ++ typeName value ++ "' object has no attribute '" ++ method ++ "'"))

/-- `value or {}`. -/
def orDict (value : Json) : Json := if value.truthy then value else .obj []

def raiseIfErrored (c : Comfy) (status : Json) : Except Exc Unit := do
  let fields ← fieldsOf "get" status
  let failed : Exc := .comfyNode ("ComfyUI terminal error status=" ++
    c.repr (Json.get fields "status_str") ++ ": " ++
      c.repr (if (Json.get fields "messages").truthy then Json.get fields "messages" else .arr []))
  match Json.get fields "status_str" with
  | .null => return ()
  | .str text => if text = "success" then return () else throw failed
  | _ => throw failed

/-- `for item in value or []`. -/
def itemsOf (value : Json) : Except Exc (List Json) :=
  if value.truthy then
    match value with
    | .arr items => .ok items
    -- a string and a dict are walked too, but none of their items is a dict
    | .str _ => .ok []
    | .obj _ => .ok []
    | value => .error (.other "TypeError" ("'" ++ typeName value ++ "' object is not iterable"))
  else .ok []

/-- `media.get(key, default)`. -/
def getOr (fields : List (String × Json)) (key default : String) : Json :=
  (fields.lookup key).getD (.str default)

/-- `Path(fn).suffix.lower().lstrip(".")`, or the default of the kind. -/
def mediaSuffix (str : PyStr) (bucketKey : String) (fn : List Char) : String :=
  let suffix := (str.lower (pathSuffix fn)).dropWhile (· = '.')
  if suffix = [] then if bucketKey = "images" then "png" else "mp4"
  else String.ofList suffix

def fetchMedia (str : PyStr) (c : Comfy) (bucketKey : String) (media : List (String × Json)) :
    Except Exc (Bytes × String) :=
  match getOr media "filename" "" with
  | .str fn =>
    match c.view (.str fn) (getOr media "subfolder" "") (getOr media "type" "output") with
    | .error message => .error (.comfyUnreachable ("GET /view: " ++ message))
    | .response status content =>
      if status = 200 then .ok (content, mediaSuffix str bucketKey fn.toList)
      else .error (.comfyUnreachable ("/view returned " ++ toString status))
  | value => .error (.other "TypeError" ("argument should be a str or an os.PathLike object " ++
      "where __fspath__ returns a str, not '" ++ typeName value ++ "'"))

def isDict : Json → Option (List (String × Json))
  | .obj fields => some fields
  | _ => none

def fetchNode (str : PyStr) (c : Comfy) (nodeOutput : List (String × Json)) :
    Except Exc (List (Bytes × String)) := do
  let rows ← ["gifs", "videos", "images"].mapM fun bucketKey => do
    let items ← itemsOf (Json.get nodeOutput bucketKey)
    (items.filterMap isDict).mapM (fetchMedia str c bucketKey)
  return rows.flatten

def fetchMediaOutputs (str : PyStr) (c : Comfy) (promptId : String) :
    Except Exc (List (Bytes × String)) :=
  match c.history promptId with
  | .error message => .error (.comfyUnreachable ("GET /history: " ++ message))
  | .response status content =>
    if status ≠ 200 then .error (.comfyUnreachable ("/history returned " ++ toString status))
    else
      match content with
      | .malformed message => .error (.other "JSONDecodeError" message)
      | .unreadable message => .error (.other "RecursionError" message)
      | .value data => do
        let data ← fieldsOf "get" data
        let entry ← fieldsOf "get" (orDict (Json.get data promptId))
        raiseIfErrored c (orDict (Json.get entry "status"))
        let outputs ← fieldsOf "items" (orDict (Json.get entry "outputs"))
        let rows ← (outputs.filterMap fun output => isDict output.2).mapM (fetchNode str c)
        return rows.flatten

/-- A name that `fetch_media_outputs` gives to a media file. -/
structure Suffix (str : PyStr) (ext : String) : Prop where
  ne : ext.toList ≠ []
  lower : ∀ c ∈ ext.toList, str.lower [c] = [c]
  dot : '.' ∉ ext.toList
  slash : '/' ∉ ext.toList

theorem suffix_of_plain {str : PyStr} {ext : String} (hne : ext.toList ≠ [])
    (h : ∀ c ∈ ext.toList, c.toNat < 128 ∧ c.isUpper = false ∧ c ≠ '.' ∧ c ≠ '/') :
    Suffix str ext :=
  ⟨hne, fun c hc => str.lower_ascii c (h c hc).1 (h c hc).2.1, fun hc => (h _ hc).2.2.1 rfl,
    fun hc => (h _ hc).2.2.2 rfl⟩

theorem suffix_mediaExts (str : PyStr) : ∀ ext ∈ mediaExts, Suffix str ext := by
  intro ext hext
  refine suffix_of_plain ?_ ?_ <;> revert ext <;> decide

theorem suffix_mediaSuffix (str : PyStr) (bucketKey : String) (fn : List Char) :
    Suffix str (mediaSuffix str bucketKey fn) := by
  unfold mediaSuffix
  dsimp only
  split
  · split <;> exact suffix_mediaExts str _ (by decide)
  · rename_i hne
    rcases pathSuffix_spec fn with hnone | ⟨ext, hext, -, hdot, hslash⟩
    · rw [hnone, lower_eq (List.forall_mem_nil _)] at hne
      exact absurd rfl hne
    · have hlower : (str.lower (pathSuffix fn)).dropWhile (· = '.') =
          (str.lower ext).dropWhile (· = '.') := by
        rw [hext, str.lower_dot]
        simp
      have hsub := List.dropWhile_sublist (l := str.lower ext) fun c => decide (c = '.')
      refine ⟨by simpa using hne, ?_, ?_, ?_⟩ <;>
        simp only [String.toList_ofList, hlower] at *
      · exact fun c hc => str.lower_lower ext c (hsub.subset hc)
      · exact fun hc => hdot (str.mem_lower ext _ (hsub.subset hc) (Or.inl rfl))
      · exact fun hc => hslash (str.mem_lower ext _ (hsub.subset hc) (Or.inr rfl))

theorem suffix_fetchMedia {str : PyStr} {c : Comfy} {bucketKey : String}
    {media : List (String × Json)} {row : Bytes × String}
    (h : fetchMedia str c bucketKey media = .ok row) : Suffix str row.2 := by
  unfold fetchMedia at h
  split at h
  · split at h
    · cases h
    · split at h
      · cases h
        exact suffix_mediaSuffix str bucketKey _
      · cases h
  · cases h

theorem suffix_fetchNode {str : PyStr} {c : Comfy} {nodeOutput : List (String × Json)}
    {rows : List (Bytes × String)} (h : fetchNode str c nodeOutput = .ok rows) :
    ∀ row ∈ rows, Suffix str row.2 := by
  refine forall_flatten_mapM (P := fun row => Suffix str row.2) (fun bucketKey bs hbs => ?_) h
  obtain ⟨items, -, hitems⟩ := bind_ok hbs
  exact forall_mapM (P := fun row => Suffix str row.2) (fun _ _ => suffix_fetchMedia) hitems

/-- Every extension that the adapter returns is in lower case, and has neither
a dot nor a slash. -/
theorem suffix_fetchMediaOutputs {str : PyStr} {c : Comfy} {promptId : String}
    {rows : List (Bytes × String)} (h : fetchMediaOutputs str c promptId = .ok rows) :
    ∀ row ∈ rows, Suffix str row.2 := by
  unfold fetchMediaOutputs at h
  split at h
  · cases h
  split at h
  · cases h
  split at h
  · cases h
  · cases h
  obtain ⟨data, -, h⟩ := bind_ok h
  obtain ⟨entry, -, h⟩ := bind_ok h
  obtain ⟨-, -, h⟩ := bind_ok h
  obtain ⟨outputs, -, h⟩ := bind_ok h
  exact forall_flatten_mapM (P := fun row => Suffix str row.2) (fun _ _ => suffix_fetchNode) h

/-! ## The uploads -/

structure S3Config where
  bucket : String
  /-- The day on which an upload computes its key. -/
  today : (jobId : String) → (index : Nat) → Date

/-- `upload_generation_blob`, when the put goes through. `upload_png` is the
same with the extension `png`. -/
def S3Config.address (s3 : S3Config) (str : PyStr) (jobId : String) (index : Nat)
    (ext : String) : Address :=
  (s3.bucket, objectKeyFor str jobId index ext (s3.today jobId index))

theorem dropWhile_suffix {str : PyStr} {ext : String} (h : Suffix str ext) :
    ext.toList.dropWhile (· = '.') = ext.toList := by
  rcases hext : ext.toList with _ | ⟨c, rest⟩
  · rfl
  · have hdot := h.dot
    rw [hext] at hdot
    refine List.dropWhile_cons_of_neg ?_
    rw [decide_eq_true_eq]
    rintro rfl
    exact hdot List.mem_cons_self

/-- The key of an output ends in the id of the job, the index and the extension. -/
theorem objectKeyFor_shape (str : PyStr) (jobId : String) (index : Nat) (ext : String)
    (now : Date) :
    ∃ head ext', (objectKeyFor str jobId index ext now).toList =
        (head ++ '/' :: jobId.toList) ++ '/' :: ((toString index).toList ++ '.' :: ext') ∧
      ('/' ∉ ext.toList → '/' ∉ ext') ∧ (Suffix str ext → ext' = ext.toList) := by
  unfold objectKeyFor
  dsimp only
  refine ⟨("generations/" ++ padded 4 now.year ++ "/" ++ padded 2 now.month ++ "/" ++
    padded 2 now.day).toList, _, by simp [String.toList_append]; rfl, fun hslash => ?_,
    fun h => ?_⟩
  · split
    · decide
    · rw [String.toList_ofList]
      intro hmem
      exact hslash ((List.dropWhile_sublist _).subset (str.mem_lower _ _ hmem (Or.inr rfl)))
  · rw [dropWhile_suffix h, lower_eq h.lower, String.ofList_toList, if_neg]
    exact h.ne

theorem slash_not_mem_digits (n : Nat) : '/' ∉ (toString n).toList := by
  intro h
  have hdigit := (toString_digits n).2 '/' h
  revert hdigit
  decide

theorem dot_not_mem_digits (n : Nat) : '.' ∉ (toString n).toList := by
  intro h
  have hdigit := (toString_digits n).2 '.' h
  revert hdigit
  decide

/-- Two keys differ when their jobs or their indices differ. -/
theorem objectKeyFor_inj {str : PyStr} {id id' ext ext' : String} {index index' : Nat}
    {now now' : Date} (hid : '/' ∉ id.toList) (hid' : '/' ∉ id'.toList)
    (hext : '/' ∉ ext.toList) (hext' : '/' ∉ ext'.toList)
    (h : objectKeyFor str id index ext now = objectKeyFor str id' index' ext' now') :
    id = id' ∧ index = index' := by
  obtain ⟨head, e, hshape, hslash, -⟩ := objectKeyFor_shape str id index ext now
  obtain ⟨head', e', hshape', hslash', -⟩ := objectKeyFor_shape str id' index' ext' now'
  have hname : ∀ {n : Nat} {e : List Char}, '/' ∉ e → '/' ∉ (toString n).toList ++ '.' :: e := by
    intro n e he hmem
    rcases List.mem_append.mp hmem with hdigit | hrest
    · exact slash_not_mem_digits n hdigit
    · rcases List.mem_cons.mp hrest with hdot | hext
      · cases hdot
      · exact he hext
  rw [h, hshape'] at hshape
  obtain ⟨hheads, hnames⟩ :=
    append_separator_inj (hname (hslash' hext')) (hname (hslash hext)) hshape
  obtain ⟨-, hids⟩ := append_separator_inj hid' hid hheads
  refine ⟨String.toList_inj.mp hids.symm, toString_injective ?_⟩
  have hdigits : ∀ (n : Nat) (e : List Char),
      ((toString n).toList ++ '.' :: e).takeWhile (· ≠ '.') = (toString n).toList := by
    intro n e
    rw [List.takeWhile_append_of_pos, List.takeWhile_cons_of_neg (by simp), List.append_nil]
    intro c hc
    simp only [decide_eq_true_eq]
    rintro rfl
    exact dot_not_mem_digits n hc
  rw [← hdigits index e, ← hnames, hdigits]

/-- The backend of the worker, with the code of the adapter and of the object
store where they name an output. What else they do is as in `backend`. -/
def wired (str : PyStr) (comfy : Comfy) (s3 : S3Config)
    (backend : (c : Call G) → Except Exc c.Ans) : (c : Call G) → Except Exc c.Ans
  | .fetchMediaOutputs promptId => fetchMediaOutputs str comfy promptId
  | .uploadPng jobId idx data =>
    (backend (.uploadPng jobId idx data)).map fun _ => s3.address str jobId idx "png"
  | .uploadGenerationBlob jobId idx data ext contentType =>
    (backend (.uploadGenerationBlob jobId idx data ext contentType)).map fun _ =>
      s3.address str jobId idx ext
  | c => backend c

theorem wired_uploadPng {str : PyStr} {comfy : Comfy} {s3 : S3Config}
    {backend : (c : Call G) → Except Exc c.Ans} {jobId : String} {idx : Nat} {data : Bytes}
    {a : Address} (h : wired str comfy s3 backend (.uploadPng jobId idx data) = .ok a) :
    a = s3.address str jobId idx "png" := by
  change (backend (.uploadPng jobId idx data)).map _ = .ok a at h
  rcases hb : backend (.uploadPng jobId idx data) with e | answer <;> rw [hb] at h <;> cases h
  rfl

theorem wired_uploadGenerationBlob {str : PyStr} {comfy : Comfy} {s3 : S3Config}
    {backend : (c : Call G) → Except Exc c.Ans} {jobId : String} {idx : Nat} {data : Bytes}
    {ext contentType : String} {a : Address}
    (h : wired str comfy s3 backend (.uploadGenerationBlob jobId idx data ext contentType) =
      .ok a) : a = s3.address str jobId idx ext := by
  change (backend (.uploadGenerationBlob jobId idx data ext contentType)).map _ = .ok a at h
  rcases hb : backend (.uploadGenerationBlob jobId idx data ext contentType) with e | answer <;>
    rw [hb] at h <;> cases h
  rfl

/-! ## The routes -/

inductive Reply
  | error (status : Nat) (code message : String)
  | media (data : Bytes) (mediaType : String)
  /-- The path belongs to another route, or to none. -/
  | elsewhere

/-- `^(\d+)\.(e₁|e₂|…)$`. The last anchor also matches before a final newline. -/
def matchIndexName (str : PyStr) (exts : List String) (name : List Char) :
    Option (Nat × String) :=
  let isDecimal := fun c => (str.decimal c).isSome
  let digits := name.takeWhile isDecimal
  if digits = [] then none
  else
    (exts.find? fun ext =>
      let tail := name.dropWhile isDecimal
      tail = '.' :: ext.toList ∨ tail = '.' :: ext.toList ++ ['\n']).map fun ext =>
        (str.int digits, ext)

/-- The regex on a name that starts with an index and a dot. -/
theorem matchIndexName_index (str : PyStr) (exts : List String) (index : Nat) (u : List Char) :
    matchIndexName str exts ((toString index).toList ++ '.' :: u) =
      (exts.find? fun ext => u = ext.toList ∨ u = ext.toList ++ ['\n']).map
        fun ext => (index, ext) := by
  have hall : ∀ c ∈ (toString index).toList, (str.decimal c).isSome = true := by
    intro c hc
    rw [str.decimal_digit c ((toString_digits index).2 c hc)]
    rfl
  have hdot : (str.decimal '.').isSome = false := by
    rw [str.decimal_dot]
    rfl
  unfold matchIndexName
  dsimp only
  rw [List.takeWhile_append_of_pos hall, List.dropWhile_append_of_pos hall,
    List.takeWhile_cons_of_neg (by simp [hdot]), List.dropWhile_cons_of_neg (by simp [hdot]),
    List.append_nil, if_neg (toString_digits index).1, int_toString]
  simp

/-- `job.output_keys` of a job that may be served. -/
def servable (s : Store) (jobId : String) : Option (List String) :=
  match s.getById jobId with
  | none => none
  | some job =>
    if job.status = .completed then
      match job.outputKeys with
      | some (key :: keys) => some (key :: keys)
      | _ => none
    else none

/-- The end of both handlers: the bytes, and the mark for the reaper. -/
def serve (get : Address → Except GetError Bytes) (now : Nat) (s : Store)
    (jobId noun mediaType : String) (address : Address) : Reply × Store :=
  match get address with
  | .error .notFound => (.error 404 "not_found" (noun ++ " bytes no longer available"), s)
  | .error (.transport message) => (.error 502 "storage_error" message, s)
  | .ok data => (.media data mediaType, s.update jobId (Job.setFetched now))

def getImage (str : PyStr) (get : Address → Except GetError Bytes) (now : Nat) (s : Store)
    (jobId indexName : String) : Reply × Store :=
  match matchIndexName str ["png"] indexName.toList with
  | none => (.error 404 "not_found" ("invalid image path: " ++ indexName), s)
  | some (index, _) =>
    match servable s jobId with
    | none => (.error 404 "not_found" ("no image for " ++ jobId ++ "/" ++ toString index), s)
    | some keys =>
      match keys[index]? with
      | none => (.error 404 "not_found" ("index " ++ toString index ++ " out of range"), s)
      | some entry => serve get now s jobId "image" "image/png" (partition entry)

def gatewayMediaType (ext : String) : String :=
  match ext with
  | "mp4" => "video/mp4"
  | "webm" => "video/webm"
  | "gif" => "image/gif"
  | "png" => "image/png"
  | _ => "application/octet-stream"

def getVideoAsset (str : PyStr) (get : Address → Except GetError Bytes) (now : Nat) (s : Store)
    (jobId indexName : String) : Reply × Store :=
  match matchIndexName str mediaExts indexName.toList with
  | none => (.error 404 "not_found" ("invalid video path: " ++ indexName), s)
  | some (index, ext) =>
    match servable s jobId with
    | none => (.error 404 "not_found" ("no media for " ++ jobId ++ "/" ++ toString index), s)
    | some keys =>
      match keys[index]? with
      | none => (.error 404 "not_found" ("index " ++ toString index ++ " out of range"), s)
      | some entry =>
        let address := partition entry
        if '.' :: ext.toList <:+ str.lower address.2.toList then
          serve get now s jobId "media" (gatewayMediaType ext) address
        else (.error 404 "not_found" "asset extension mismatch", s)

/-- `{job_id}/{index_name}` after the head of a route. -/
def pathParams (head path : List Char) : Option (String × String) :=
  if head.isPrefixOf path then
    let rest := path.drop head.length
    let jobId := rest.takeWhile (· ≠ '/')
    let indexName := (rest.dropWhile (· ≠ '/')).drop 1
    if jobId ≠ [] ∧ indexName ≠ [] ∧ '/' ∉ indexName then
      some (String.ofList jobId, String.ofList indexName)
    else none
  else none

theorem pathParams_append (head : List Char) {jobId : String} (indexName : List Char)
    (hne : jobId.toList ≠ []) (hslash : '/' ∉ jobId.toList) :
    pathParams head (head ++ jobId.toList ++ '/' :: indexName) =
      if indexName ≠ [] ∧ '/' ∉ indexName then some (jobId, String.ofList indexName) else none := by
  have hall : ∀ c ∈ jobId.toList, decide (c ≠ '/') = true := by
    intro c hc
    simp only [decide_eq_true_eq]
    rintro rfl
    exact hslash hc
  unfold pathParams
  rw [List.append_assoc, if_pos (by simp), List.drop_left]
  dsimp only
  rw [List.takeWhile_append_of_pos hall, List.dropWhile_append_of_pos hall,
    List.takeWhile_cons_of_neg (by simp), List.dropWhile_cons_of_neg (by simp), List.append_nil,
    String.ofList_toList]
  simp only [List.drop_one, List.tail_cons, ne_eq, hne, not_false_eq_true, true_and]

/-- A GET of a path. The routes `/v1/images/generations/{job_id}` and its twin
for videos stand before the gateways. -/
def getPath (str : PyStr) (get : Address → Except GetError Bytes) (now : Nat) (s : Store)
    (path : List Char) : Reply × Store :=
  match pathParams "/v1/images/".toList path with
  | some (jobId, indexName) =>
    if jobId = "generations" then (.elsewhere, s)
    else getImage str get now s jobId indexName
  | none =>
    match pathParams "/v1/videos/".toList path with
    | some (jobId, indexName) =>
      if jobId = "generations" then (.elsewhere, s)
      else getVideoAsset str get now s jobId indexName
    | none => (.elsewhere, s)

/-- The path that the server sees of a URL, given without the base: up to the
query or the fragment, unquoted. -/
def scopePath (str : PyStr) (target : List Char) : List Char :=
  str.unquote (target.takeWhile fun c => c ≠ '?' ∧ c ≠ '#')

theorem scopePath_append (str : PyStr) {known : List Char} (rest : List Char)
    (h : ∀ c ∈ known, c ≠ '?' ∧ c ≠ '#' ∧ c ≠ '%') :
    scopePath str (known ++ rest) =
      known ++ str.unquote (rest.takeWhile fun c => c ≠ '?' ∧ c ≠ '#') := by
  unfold scopePath
  rw [List.takeWhile_append_of_pos, str.unquote_append]
  · exact fun hmem => (h _ hmem).2.2 rfl
  · exact fun c hc => decide_eq_true ⟨(h c hc).1, (h c hc).2.1⟩

end image_gen.gateway

-- What a client that polls a LoRA fetch is told (`get_fetch_status` in `app/api/loras.py`),
-- between the operations on the table and over restarts of the service. A task is watched
-- by a monitor: what it may still write is said by how far it has come with its row.
import ImageGen.FetchDedupe
import ImageGen.FetchNames
import Mathlib.Logic.Relation

namespace image_gen.fetch_polls

open image_gen.civitai_fetch (canonicalName sanitizeSlug runFetch metadataFailure downloadFailure)
open image_gen.coroutine image_gen.fetch_names image_gen.fetch_table
open image_gen.fetch_dedupe (FetchInput Parsed Recovery Sound State boot execFetch indexed_nil
  recorded recoveryStep sound_boot sound_next tableWrite)
open image_gen.lora_files (MatchesPattern)
open image_gen.runs
open Relation (ReflTransGen)

/-! ## The service -/

inductive Label
  /-- A step of the service as it runs. -/
  | act (l : fetch_dedupe.Label)
  /-- `get_fetch_status`. -/
  | poll (id : String)
  /-- The service stops where it is, and boots again. -/
  | restart

def next (cfg : civitai_fetch.Config) (s : State) : Label → Option State
  | .act (.post p) =>
    match s.recovery with
    -- the lifespan takes no requests before the recovery
    | .over => fetch_dedupe.next cfg s (.post p)
    | _ => none
  | .act l => fetch_dedupe.next cfg s l
  | .poll _ => some s
  | .restart => some (boot s.table)

/-- The row that a poll of the fetch finds. The answer has each of its columns; without a
row it is a 404. -/
def asked (id : String) (s : State) : Label → Option (Option LoraFetch)
  | .poll id' => if id' = id then some (s.table.getById id) else none
  | _ => none

/-- What the polls of the fetch find, one after the other. -/
def polled (cfg : civitai_fetch.Config) (id : String) (s : State) (labels : List Label) :
    List (Option LoraFetch) :=
  reports (next cfg) (asked id) s labels

/-! ## The rows -/

/-- The codes that the fetcher reports. -/
def failureCodes : List String :=
  ["civitai_auth", "civitai_version_not_found", "civitai_unavailable", "validation_error",
    "lora_too_large", "insufficient_storage", "sha_mismatch", "internal"]

def errorCodes : List String := "service_restarted" :: failureCodes

/-- A code, with the flag that goes with it. -/
def Reported (code : String) (handover : Bool) : Prop :=
  code ∈ errorCodes ∧ (handover = true ↔ code = "service_restarted")

theorem reported_of_failure {code : String} (h : code ∈ failureCodes) : Reported code false := by
  refine ⟨List.mem_cons_of_mem _ h, by simp, fun heq => ?_⟩
  subst heq
  revert h
  decide

theorem reported_restarted : Reported "service_restarted" true := ⟨by decide, by simp⟩

/-- What each answer to a poll keeps to. -/
structure Lawful (r : LoraFetch) : Prop where
  failed : r.status = .failed → ∃ code message,
    r.errorCode = some code ∧ r.errorMessage = some message ∧ Reported code r.handover
  clean : r.status ≠ .failed →
    r.errorCode = none ∧ r.errorMessage = none ∧ r.handover = false
  done : r.status = .done → r.destName.isSome
  /-- The name has the pattern of a name in a request. -/
  name : ∀ name, r.destName = some name → MatchesPattern name ∧
    ∃ filename, canonicalName (sanitizeSlug filename) r.civitaiVersionId = name

/-- What a later poll may find of a row. -/
structure Onward (r r' : LoraFetch) : Prop where
  id : r'.id = r.id
  url : r'.url = r.url
  model : r'.civitaiModelId = r.civitaiModelId
  version : r'.civitaiVersionId = r.civitaiVersionId
  created : r'.createdAt = r.createdAt
  status : ReflTransGen (fun x y => y ∈ allowedTransitions x) r.status r'.status
  named : ∀ name, r.destName = some name → r'.destName = some name
  /-- A terminal answer is the last word. -/
  final : ¬ r.Active → r' = r

theorem Onward.refl (r : LoraFetch) : Onward r r :=
  ⟨rfl, rfl, rfl, rfl, rfl, .refl, fun _ h => h, fun _ => rfl⟩

theorem Onward.trans {r r' r'' : LoraFetch} (h : Onward r r') (h' : Onward r' r'') :
    Onward r r'' where
  id := h'.id.trans h.id
  url := h'.url.trans h.url
  model := h'.model.trans h.model
  version := h'.version.trans h.version
  created := h'.created.trans h.created
  status := h.status.trans h'.status
  named name hname := h'.named name (h.named name hname)
  final hterm := by
    have hsame := h.final hterm
    rw [h'.final (hsame ▸ hterm), hsame]

/-- What a later poll finds. -/
def Later (a b : Option LoraFetch) : Prop := ∀ r, a = some r → ∃ r', b = some r' ∧ Onward r r'

theorem Later.refl (a : Option LoraFetch) : Later a a := fun r hr => ⟨r, hr, Onward.refl r⟩

instance : IsTrans (Option LoraFetch) Later where
  trans a b c hab hbc := by
    intro r hr
    obtain ⟨r', hr', hon⟩ := hab r hr
    obtain ⟨r'', hr'', hon'⟩ := hbc r' hr'
    exact ⟨r'', hr'', hon.trans hon'⟩

/-! ## The monitor of a task -/

/-- How far a task has come with its row. -/
inductive Stage
  /-- The row has not been read. -/
  | looking (id : String)
  | working (id : String) (version : Int) (named : Bool)
  /-- Nothing is left but to report a failure. -/
  | closed (id : String)

def Stage.id : Stage → String
  | .looking id => id
  | .working id _ _ => id
  | .closed id => id

/-- What the task may ask for. -/
def Ready : Stage → civitai_fetch.Op → Prop
  | .looking id, op => op = .getById id
  | .working id _ named, .setStatus id' target =>
    id' = id ∧ target ≠ .failed ∧ (target = .done → named = true)
  | .working id version named, .setDestName id' name =>
    id' = id ∧ named = false ∧ ∃ filename, canonicalName (sanitizeSlug filename) version = name
  | .working id _ _, .setTotalBytes id' _ => id' = id
  | .working id _ _, .streamDownload id' _ _ _ => id' = id
  | .closed _, .setStatus _ _ => False
  | .closed _, .setDestName _ _ => False
  | .closed _, .setTotalBytes _ _ => False
  | .closed _, .streamDownload _ _ _ _ => False
  | stage, .setFailed id code _ handover => id = stage.id ∧ Reported code handover
  | _, _ => True

/-- Where the task is after the answer. -/
def passed : Stage → (op : civitai_fetch.Op) → Except civitai_fetch.Exc op.Ans → Stage
  | .looking _, .getById _, .ok (some row) => .working row.id row.civitaiVersionId false
  | .looking id, _, _ => .closed id
  | .working id _ _, .setStatus _ .done, _ => .closed id
  | .working id _ _, .setFailed _ _ _ _, _ => .closed id
  | .working id version _, .setDestName _ _, .ok _ => .working id version true
  | .working id _ _, .setDestName _ _, .error _ => .closed id
  | stage, _, _ => stage

/-- The task has read the row. -/
def Begun (id : String) (stage : Stage) : Prop :=
  (∃ version named, stage = .working id version named) ∨ stage = .closed id

theorem begun_passed {id : String} (stage : Stage) (op : civitai_fetch.Op)
    (r : Except civitai_fetch.Exc op.Ans) (h : Begun id stage) (_ : Ready stage op) :
    Begun id (passed stage op r) := by
  rcases h with ⟨version, named, rfl⟩ | rfl
  · cases op with
    | setStatus id' target => cases target <;> first | exact .inr rfl | exact .inl ⟨_, _, rfl⟩
    | setFailed id' code message handover => exact .inr rfl
    | setDestName id' name =>
      cases r with
      | ok a => exact .inl ⟨_, _, rfl⟩
      | error e => exact .inr rfl
    | _ => exact .inl ⟨_, _, rfl⟩
  · cases op <;> exact .inr rfl

/-- The program keeps to what the monitor allows. -/
abbrev Obeys {α : Type} (p : civitai_fetch.Prog α) (stage : Stage) : Prop :=
  p.Watched Ready passed stage

section Programs

open image_gen.civitai_fetch

variable {row : LoraFetch} {stage : Stage} {named : Bool}

theorem obeys_setFailed {f : Failure} (h : Begun row.id stage) (hcode : f.1 ∈ failureCodes) :
    Obeys (setFailed row f) stage := by
  refine Co.watched_call ?_
  rcases h with ⟨version, named, rfl⟩ | rfl <;> exact ⟨rfl, reported_of_failure hcode⟩

theorem begun_working : Begun row.id (.working row.id row.civitaiVersionId named) :=
  .inl ⟨_, _, rfl⟩

/-- An operation that leaves the task where it is, with the failures that it may raise. -/
theorem obeys_attempt {op : civitai_fetch.Op} {f : Exc → Option Failure}
    {g : Except Failure op.Ans → civitai_fetch.Prog Unit} (hready : Ready stage op)
    (hsame : ∀ r, passed stage op r = stage) (hok : ∀ a, Obeys (g (.ok a)) stage)
    (hfail : ∀ e failure, f e = some failure → Obeys (g (.error failure)) stage) :
    Obeys (attempt op f >>= g) stage := by
  refine ⟨hready, fun r => ?_⟩
  rw [hsame r]
  rcases r with e | a
  · rcases hf : f e with _ | failure
    · simp only [Co.ofExcept, Co.bind, Co.catchWith, hf]
      trivial
    · have hrest := hfail e failure hf
      simp only [Co.ofExcept, Co.bind, Co.catchWith, hf]
      exact hrest
  · exact hok a

theorem metadataFailure_code {e : Exc} {f : Failure} (h : metadataFailure e = some f) :
    f.1 ∈ failureCodes := by
  cases e with
  | httpStatus code =>
    simp only [metadataFailure] at h
    split at h
    · cases h
      simp [failureCodes]
    · split at h <;> cases h <;> simp [failureCodes]
  | transport message =>
    cases h
    simp [failureCodes]
  | _ => cases h

theorem downloadFailure_code {seconds : String} {e : Exc} {f : Failure}
    (h : downloadFailure seconds e = some f) :
    f.1 ∈ failureCodes := by
  cases e with
  | httpStatus code =>
    simp only [downloadFailure] at h
    split at h <;> cases h <;> simp [failureCodes]
  | os message noSpace => cases noSpace <;> cases h <;> simp [failureCodes]
  | table e => cases h
  | value message => cases h
  | insufficientStorage message => cases h
  | cancelled => cases h
  | other message => cases h
  | _ =>
    cases h
    simp [failureCodes]

/-- The stage of a task that has not named its file. -/
abbrev unnamed (row : LoraFetch) : Stage := .working row.id row.civitaiVersionId false

variable {cfg : Config} {file : PrimaryFile} {metadata : List (String × image_gen.json.Json)}
  {filename : String} {dest : image_gen.file_tree.Path}

theorem obeys_finish :
    Obeys (finish row (canonicalName (sanitizeSlug filename) row.civitaiVersionId))
      (unnamed row) := by
  refine Co.watched_call_bind ⟨rfl, rfl, filename, rfl⟩ fun _ => ?_
  exact Co.watched_call ⟨rfl, by simp, fun _ => rfl⟩

theorem obeys_install (tmp : image_gen.file_tree.Path) (actualSha : String) :
    Obeys (install row file metadata
      (canonicalName (sanitizeSlug filename) row.civitaiVersionId) dest tmp actualSha)
      (unnamed row) := by
  refine Co.watched_call_bind ⟨rfl, by simp, by simp⟩ fun _ => ?_
  split
  · refine Co.watched_call_bind trivial fun _ => ?_
    exact obeys_setFailed begun_working (by simp [failureCodes])
  · refine Co.watched_call_bind trivial fun _ => ?_
    refine Co.watched_call_bind trivial fun _ => ?_
    exact obeys_finish

theorem obeys_download (expectedSize : Int) :
    Obeys (download cfg row file metadata
      (canonicalName (sanitizeSlug filename) row.civitaiVersionId) dest expectedSize)
      (unnamed row) := by
  refine obeys_attempt trivial (fun _ => rfl) (fun _ => ?_) fun e failure hf => ?_
  · refine obeys_attempt rfl (fun _ => rfl) (fun sha => ?_) fun e failure hf => ?_
    · exact obeys_install _ sha
    · refine Co.watched_call_bind trivial fun _ => ?_
      exact obeys_setFailed begun_working (downloadFailure_code hf)
  · refine obeys_setFailed begun_working ?_
    cases e <;> cases hf
    simp [failureCodes]

/-- The file is there already. -/
theorem obeys_takeExisting :
    Obeys (takeExisting row file metadata
      (canonicalName (sanitizeSlug filename) row.civitaiVersionId) dest) (unnamed row) := by
  have hnaming : Obeys (do
      ask (.setDestName row.id (canonicalName (sanitizeSlug filename) row.civitaiVersionId))
      ask (.setStatus row.id .verifying)
      ask (.setStatus row.id .done)) (unnamed row) := by
    refine Co.watched_call_bind ⟨rfl, rfl, filename, rfl⟩ fun _ => ?_
    refine Co.watched_call_bind ⟨rfl, by simp, fun _ => rfl⟩ fun _ => ?_
    exact Co.watched_call ⟨rfl, by simp, fun _ => rfl⟩
  refine Co.watched_call_bind trivial fun hasSidecar => ?_
  cases hasSidecar with
  | true => exact hnaming
  | false => exact Co.watched_call_bind trivial fun _ => hnaming

theorem obeys_makeRoom {rest : civitai_fetch.Prog Unit} (expectedSize : Int)
    (h : Obeys rest (unnamed row)) : Obeys (makeRoom row expectedSize rest) (unnamed row) := by
  refine Co.watched_call_bind trivial fun freeBytes => ?_
  split
  · refine obeys_attempt trivial (fun _ => rfl) (fun _ => h) fun e failure hf => ?_
    refine obeys_setFailed begun_working ?_
    cases e <;> cases hf
    simp [failureCodes]
  · exact h

theorem obeys_fetchFile (expectedSize : Int) :
    Obeys (fetchFile cfg row file metadata expectedSize) (unnamed row) := by
  refine Co.watched_call_bind trivial fun _ => ?_
  refine Co.watched_call_bind trivial fun there => ?_
  cases there with
  | true => exact obeys_takeExisting
  | false => exact obeys_makeRoom expectedSize (obeys_download expectedSize)

theorem obeys_fetchPrimary : Obeys (fetchPrimary cfg row metadata) (unnamed row) := by
  unfold fetchPrimary
  split
  · exact obeys_setFailed begun_working (by simp [failureCodes])
  · refine Co.watched_call_bind trivial fun expectedSize => ?_
    split
    · exact obeys_setFailed begun_working (by simp [failureCodes])
    · split
      · exact Co.watched_call_bind rfl fun _ => obeys_fetchFile expectedSize
      · exact obeys_fetchFile expectedSize

theorem obeys_fetch : Obeys (fetch cfg row) (unnamed row) := by
  refine Co.watched_call_bind ⟨rfl, by simp, by simp⟩ fun _ => ?_
  refine obeys_attempt trivial (fun _ => rfl) (fun _ => obeys_fetchPrimary) fun e failure hf => ?_
  exact obeys_setFailed begun_working (metadataFailure_code hf)

theorem obeys_guarded : Obeys (guarded cfg row) (unnamed row) := by
  refine Co.watched_tryCatch begun_passed begun_working obeys_fetch fun e stage hbegun => ?_
  have hfailed : ∀ message, Ready stage (.setFailed row.id "internal" message false) := by
    intro message
    have hcode : Reported "internal" false := reported_of_failure (by simp [failureCodes])
    rcases hbegun with ⟨version, named, rfl⟩ | rfl <;> exact ⟨rfl, hcode⟩
  cases e with
  | cancelled =>
    refine Co.watched_call_bind ?_ fun _ => trivial
    rcases hbegun with ⟨version, named, rfl⟩ | rfl <;> exact ⟨rfl, reported_restarted⟩
  | _ => exact Co.watched_call (hfailed _)

theorem ready_release {version : Int} (h : Begun row.id stage) :
    Ready stage (.release version) := by
  rcases h with ⟨version, named, rfl⟩ | rfl <;> trivial

/-- A task keeps to the monitor from its first operation on. -/
theorem obeys_runFetch (cfg : Config) (id : String) : Obeys (runFetch cfg id) (.looking id) := by
  refine Co.watched_call_bind rfl fun found => ?_
  cases found with
  | none => trivial
  | some row =>
    refine Co.watched_call_bind trivial fun _ => ?_
    refine Co.watched_bind begun_passed begun_working ?_ fun _ stage hbegun => ?_
    · refine Co.watched_tryCatch begun_passed begun_working obeys_guarded fun e stage hbegun => ?_
      exact Co.watched_call_bind (ready_release hbegun) fun _ => trivial
    · exact Co.watched_call (ready_release hbegun)

end Programs

/-! ## One operation -/

/-- What the stage says of the row. -/
def Stage.Fits : Stage → LoraFetch → Prop
  | .looking _, r => r.Active ∧ r.destName = none
  | .working _ version named, r =>
    r.Active ∧ r.civitaiVersionId = version ∧ r.destName.isSome = named
  | .closed _, _ => True

/-- The row of a task is as its stage says. -/
structure Minds (t : Table) (id : String) (stage : Stage) : Prop where
  mine : stage.id = id
  fits : ∀ r, t.getById id = some r → stage.Fits r

/-- One row moves on, and the others stay. -/
structure Moved (id : String) (t t' : Table) : Prop where
  others : ∀ id', id' ≠ id → t'.getById id' = t.getById id'
  later : Later (t.getById id) (t'.getById id)
  lawful : ∀ r, t'.getById id = some r → Lawful r

section Operation

variable {t t' : Table} {id : String} {stage : Stage} {f : LoraFetch → LoraFetch}

theorem moved_refl (h : ∀ r, t.getById id = some r → Lawful r) : Moved id t t :=
  ⟨fun _ _ => rfl, Later.refl _, h⟩

theorem getById_update_ne (hf : ∀ r, (f r).id = r.id) {id' : String} (hne : id' ≠ id) :
    (t.update id f).getById id' = t.getById id' := by
  unfold Table.getById Table.update
  induction t with
  | nil => rfl
  | cons r rest ih =>
    rw [List.map_cons, List.find?_cons, List.find?_cons]
    by_cases hr : r.id = id
    · have hother : r.id ≠ id' := fun h => hne (h.symm.trans hr)
      simp only [hr, if_true, hf]
      simp only [hr] at hother
      simpa [hother] using ih
    · rw [if_neg hr, ih]

theorem moved_update (hf : ∀ r, (f r).id = r.id)
    (hrow : ∀ r, t.getById id = some r → Onward r (f r) ∧ Lawful (f r)) :
    Moved id t (t.update id f) := by
  refine ⟨fun id' hne => getById_update_ne hf hne, fun r hr => ?_, fun r' hr' => ?_⟩
  · exact ⟨f r, by rw [getById_update hf, hr]; rfl, (hrow r hr).1⟩
  · rw [getById_update hf] at hr'
    obtain ⟨r, hr, rfl⟩ := Option.map_eq_some_iff.mp hr'
    exact (hrow r hr).2

/-- The rows of an update, read off the rows before it. -/
theorem minds_update (hf : ∀ r, (f r).id = r.id) (hmine : stage.id = id)
    (hrow : ∀ r, t.getById id = some r → stage.Fits (f r)) :
    Minds (t.update id f) id stage := by
  refine ⟨hmine, fun r' hr' => ?_⟩
  rw [getById_update hf] at hr'
  obtain ⟨r, hr, rfl⟩ := Option.map_eq_some_iff.mp hr'
  exact hrow r hr

theorem minds_closed (t : Table) (id : String) : Minds t id (.closed id) :=
  ⟨rfl, fun _ _ => trivial⟩

/-- A write of the status goes through when its check does. -/
theorem tableWrite_cases (t : Table) (id : String) (target : FetchStatus)
    (f : LoraFetch → LoraFetch) :
    (∃ r, t.getById id = some r ∧ target ∈ allowedTransitions r.status ∧
      tableWrite (t.transition id target f) t = (.ok (), t.update id f)) ∨
    ∃ e, tableWrite (t.transition id target f) t = (.error e, t) := by
  rcases hrow : t.getById id with _ | r
  · exact .inr ⟨.table (.notFound id), by simp [Table.transition, hrow, tableWrite]⟩
  · by_cases hallowed : target ∈ allowedTransitions r.status
    · exact .inl ⟨r, rfl, hallowed, by rw [transition_allowed hrow hallowed]; rfl⟩
    · exact .inr ⟨.table (.invalidTransition r.status target), by
        rw [transition_refused hrow hallowed]; rfl⟩

/-- A step along the transition table, with the columns that go with it. -/
theorem onward_step {r r' : LoraFetch} (h : r'.status ∈ allowedTransitions r.status)
    (hid : r'.id = r.id) (hurl : r'.url = r.url) (hmodel : r'.civitaiModelId = r.civitaiModelId)
    (hversion : r'.civitaiVersionId = r.civitaiVersionId) (hcreated : r'.createdAt = r.createdAt)
    (hname : r'.destName = r.destName) : Onward r r' := by
  refine ⟨hid, hurl, hmodel, hversion, hcreated, .single h, fun name hold => hname.trans hold, ?_⟩
  exact fun hterm => absurd (active_of_allowed h) hterm

theorem lawful_failed {r : LoraFetch} (h : Lawful r) {code : String} {handover : Bool}
    (hcode : Reported code handover) (message : String) (now : Nat) :
    Lawful { r with
      status := .failed, errorCode := some code, errorMessage := some message,
      handover := handover, updatedAt := now } :=
  ⟨fun _ => ⟨code, message, rfl, rfl, hcode⟩, fun hne => absurd rfl hne,
    fun hdone => (by cases hdone), h.name⟩

theorem moved_setFailed (hlawful : ∀ r, t.getById id = some r → Lawful r) {code : String}
    {handover : Bool} (hcode : Reported code handover) (message : String) (now : Nat) :
    Moved id t (tableWrite (t.setFailed id code message handover now) t).2 := by
  unfold Table.setFailed
  rcases tableWrite_cases t id .failed _ with ⟨r, hr, hallowed, heq⟩ | ⟨e, heq⟩ <;> rw [heq]
  · refine moved_update (fun _ => rfl) fun r' hr' => ?_
    cases hr.symm.trans hr'
    exact ⟨onward_step hallowed rfl rfl rfl rfl rfl rfl,
      lawful_failed (hlawful r hr) hcode message now⟩
  · exact moved_refl hlawful

theorem lawful_status {r : LoraFetch} (h : Lawful r) (hact : r.Active) {target : FetchStatus}
    (hne : target ≠ .failed) (hdone : target = .done → r.destName.isSome) (now : Nat) :
    Lawful { r with status := target, updatedAt := now } :=
  ⟨fun heq => absurd heq hne, fun _ => h.clean hact.2, hdone, h.name⟩

variable {version : Int} {named : Bool}

/-- A status, in the middle of the work. The last one closes it. -/
theorem setStatus_working (inp : FetchInput) {target : FetchStatus}
    (hlawful : ∀ r, t.getById id = some r → Lawful r)
    (hminds : Minds t id (.working id version named)) (hne : target ≠ .failed)
    (hnamed : target = .done → named = true) :
    Moved id t (execFetch inp (.setStatus id target) t).2 ∧
      ∀ r, Minds (execFetch inp (.setStatus id target) t).2 id
        (passed (.working id version named) (.setStatus id target) r) := by
  simp only [execFetch, Table.setStatus]
  rcases tableWrite_cases t id target
      fun r => { r with status := target, updatedAt := inp.now } with
    ⟨r, hr, hallowed, heq⟩ | ⟨e, heq⟩ <;> rw [heq]
  · have hrow : ∀ r', t.getById id = some r' → r' = r := fun r' hr' => by
      cases hr.symm.trans hr'
      rfl
    obtain ⟨hact, hversion, hdest⟩ := hminds.fits r hr
    refine ⟨moved_update (fun _ => rfl) fun r' hr' => ?_, fun res => ?_⟩
    · rw [hrow r' hr']
      refine ⟨onward_step hallowed rfl rfl rfl rfl rfl rfl,
        lawful_status (hlawful r hr) hact hne (fun hdone => ?_) _⟩
      rw [hdest, hnamed hdone]
    · cases target with
      | done => exact minds_closed _ _
      | failed => exact absurd rfl hne
      | _ =>
        refine minds_update (fun _ => rfl) rfl fun r' hr' => ?_
        rw [hrow r' hr']
        exact ⟨⟨by simp, by simp⟩, hversion, hdest⟩
  · refine ⟨moved_refl hlawful, fun res => ?_⟩
    cases target with
    | done => exact minds_closed _ _
    | _ => exact hminds

/-- A write of the row while the work goes on. -/
theorem moved_column (hlawful : ∀ r, t.getById id = some r → Lawful r)
    (hminds : Minds t id (.working id version named)) (hf : ∀ r, (f r).id = r.id)
    (hrow : ∀ r, r.Active → r.destName.isSome = named → r.civitaiVersionId = version → Lawful r →
      Onward r (f r) ∧ Lawful (f r)) : Moved id t (t.update id f) := by
  refine moved_update hf fun r hr => ?_
  obtain ⟨hact, hversion, hdest⟩ := hminds.fits r hr
  exact hrow r hact hdest hversion (hlawful r hr)

theorem minds_column {named' : Bool} (hminds : Minds t id (.working id version named))
    (hf : ∀ r, (f r).id = r.id) (hstatus : ∀ r, (f r).status = r.status)
    (hversion : ∀ r, (f r).civitaiVersionId = r.civitaiVersionId)
    (hdest : ∀ r, r.destName.isSome = named → (f r).destName.isSome = named') :
    Minds (t.update id f) id (.working id version named') := by
  refine minds_update hf rfl fun r hr => ?_
  obtain ⟨hact, hver, hname⟩ := hminds.fits r hr
  refine ⟨?_, (hversion r).trans hver, hdest r hname⟩
  unfold LoraFetch.Active
  rwa [hstatus]

theorem onward_column {r r' : LoraFetch} (hact : r.Active) (hid : r'.id = r.id)
    (hurl : r'.url = r.url) (hmodel : r'.civitaiModelId = r.civitaiModelId)
    (hversion : r'.civitaiVersionId = r.civitaiVersionId) (hcreated : r'.createdAt = r.createdAt)
    (hstatus : r'.status = r.status)
    (hnamed : ∀ name, r.destName = some name → r'.destName = some name) : Onward r r' :=
  ⟨hid, hurl, hmodel, hversion, hcreated, hstatus ▸ .refl, hnamed, fun hterm => absurd hact hterm⟩

/-- The name of the file, once. -/
theorem setDestName_working (inp : FetchInput) {filename name : String}
    (hname : canonicalName (sanitizeSlug filename) version = name)
    (hlawful : ∀ r, t.getById id = some r → Lawful r)
    (hminds : Minds t id (.working id version false)) :
    Moved id t (t.setDestName id name inp.now) ∧
      Minds (t.setDestName id name inp.now) id (.working id version true) := by
  refine ⟨moved_column hlawful hminds (fun _ => rfl) fun r hact hdest hversion hr => ?_,
    minds_column hminds (fun _ => rfl) (fun _ => rfl) (fun _ => rfl) fun _ _ => rfl⟩
  refine ⟨onward_column hact rfl rfl rfl rfl rfl rfl fun old hold => ?_,
    hr.failed, hr.clean, fun _ => rfl, fun name' hname' => ?_⟩
  · rw [hold] at hdest
    cases hdest
  · have heq : name = name' := Option.some.inj hname'
    rw [← heq]
    exact ⟨canonicalName_pattern hname, filename, by rw [hversion, hname]⟩

/-- What an operation does to the row, and where it leaves the task: with its answer, and
when it raises after its effect. -/
theorem execFetch_moved (inp : FetchInput) {op : civitai_fetch.Op}
    (hlawful : ∀ r, t.getById id = some r → Lawful r) (hminds : Minds t id stage)
    (hready : Ready stage op) :
    Moved id t (execFetch inp op t).2 ∧
      Minds (execFetch inp op t).2 id (passed stage op (execFetch inp op t).1) ∧
      ∀ e, Minds (execFetch inp op t).2 id (passed stage op (.error e)) := by
  have hsame := moved_refl hlawful
  obtain ⟨rfl, hfits⟩ := hminds
  cases stage with
  | looking id =>
    cases hready
    refine ⟨hsame, ?_, fun e => minds_closed _ _⟩
    change Minds t id (passed (.looking id) (.getById id) (.ok (t.getById id)))
    rcases hrow : t.getById id with _ | r
    · exact minds_closed _ _
    · obtain ⟨hact, hdest⟩ := hfits r hrow
      refine ⟨(mem_of_find hrow).2, fun r' hr' => ?_⟩
      cases hrow.symm.trans hr'
      exact ⟨hact, rfl, by rw [hdest]; rfl⟩
  | closed id =>
    cases op with
    | setStatus id' target => exact hready.elim
    | setDestName id' name => exact hready.elim
    | setTotalBytes id' total => exact hready.elim
    | streamDownload id' url tmp size => exact hready.elim
    | setFailed id' code message handover =>
      obtain ⟨rfl, hcode⟩ := hready
      exact ⟨moved_setFailed hlawful hcode message inp.now, minds_closed _ _,
        fun e => minds_closed _ _⟩
    | _ => exact ⟨hsame, minds_closed _ _, fun e => minds_closed _ _⟩
  | working id version named =>
    have hminds : Minds t id (.working id version named) := ⟨rfl, hfits⟩
    cases op with
    | setStatus id' target =>
      obtain ⟨rfl, hne, hnamed⟩ := hready
      obtain ⟨hmoved, hafter⟩ := setStatus_working inp hlawful hminds hne hnamed
      exact ⟨hmoved, hafter _, fun e => hafter _⟩
    | setDestName id' name =>
      obtain ⟨rfl, rfl, filename, hname⟩ := hready
      obtain ⟨hmoved, hafter⟩ := setDestName_working inp hname hlawful hminds
      exact ⟨hmoved, hafter, fun e => minds_closed _ _⟩
    | setTotalBytes id' total =>
      cases hready
      have hafter := minds_column (f := fun r => { r with
        totalBytes := some total, updatedAt := inp.now }) hminds (fun _ => rfl) (fun _ => rfl)
        (fun _ => rfl) fun _ h => h
      refine ⟨moved_column hlawful hminds (fun _ => rfl) fun r hact _ _ hr => ?_, hafter,
        fun e => hafter⟩
      exact ⟨onward_column hact rfl rfl rfl rfl rfl rfl fun _ h => h,
        ⟨hr.failed, hr.clean, hr.done, hr.name⟩⟩
    | streamDownload id' url tmp size =>
      cases hready
      have hafter := minds_column (f := fun r => { r with
        progressBytes := inp.written, updatedAt := inp.now }) hminds (fun _ => rfl) (fun _ => rfl)
        (fun _ => rfl) fun _ h => h
      refine ⟨moved_column hlawful hminds (fun _ => rfl) fun r hact _ _ hr => ?_, hafter,
        fun e => hafter⟩
      exact ⟨onward_column hact rfl rfl rfl rfl rfl rfl fun _ h => h,
        ⟨hr.failed, hr.clean, hr.done, hr.name⟩⟩
    | setFailed id' code message handover =>
      obtain ⟨rfl, hcode⟩ := hready
      exact ⟨moved_setFailed hlawful hcode message inp.now, minds_closed _ _,
        fun e => minds_closed _ _⟩
    | _ => exact ⟨hsame, hminds, fun e => hminds⟩

/-- An operation that raises before it has done anything. -/
theorem minds_faulted {op : civitai_fetch.Op} (hminds : Minds t id stage) (hready : Ready stage op)
    (e : civitai_fetch.Exc) : Minds t id (passed stage op (.error e)) := by
  obtain ⟨rfl, hfits⟩ := hminds
  cases stage with
  | looking id =>
    cases hready
    exact minds_closed _ _
  | closed id => cases op <;> exact minds_closed _ _
  | working id version named =>
    cases op with
    | setStatus id' target =>
      cases target <;> first | exact minds_closed _ _ | exact ⟨rfl, hfits⟩
    | setFailed id' code message handover => exact minds_closed _ _
    | setDestName id' name => exact minds_closed _ _
    | _ => exact ⟨rfl, hfits⟩

end Operation

/-! ## The tasks, next to the table -/

/-- Each task that runs minds its row, and a row that waits for its task is as it was
inserted. -/
structure Kept (t : Table) (tasks : List (civitai_fetch.Prog Unit))
    (enqueued created : List (String × Nat)) : Prop where
  lawful : ∀ id r, t.getById id = some r → Lawful r
  pairs : tasks.length = enqueued.length
  minds : ∀ (j : Nat) (p : civitai_fetch.Prog Unit) (id : String) (i : Nat), tasks[j]? = some p →
    enqueued[j]? = some (id, i) → ∃ stage, Obeys p stage ∧ Minds t id stage
  waiting : ∀ id, id ∈ created.map (·.1) → id ∉ enqueued.map (·.1) →
    ∀ r, t.getById id = some r → r.Active ∧ r.destName = none

section Tasks

variable {t t' : Table} {tasks : List (civitai_fetch.Prog Unit)}
  {enqueued created : List (String × Nat)} {id : String} {i j : Nat}

theorem Minds.congr {stage : Stage} (h : Minds t id stage)
    (hsame : t'.getById id = t.getById id) : Minds t' id stage :=
  ⟨h.mine, fun r hr => h.fits r (hsame ▸ hr)⟩

theorem Moved.all (h : Moved id t t') (id' : String) : Later (t.getById id') (t'.getById id') := by
  by_cases hid : id' = id
  · rw [hid]
    exact h.later
  · rw [h.others id' hid]
    exact Later.refl _

theorem Moved.rows (h : Moved id t t') (hlawful : ∀ id r, t.getById id = some r → Lawful r) :
    ∀ id r, t'.getById id = some r → Lawful r := by
  intro id' r hr
  by_cases hid : id' = id
  · rw [hid] at hr
    exact h.lawful r hr
  · rw [h.others id' hid] at hr
    exact hlawful id' r hr

/-- One operation of a task. -/
theorem Kept.step (h : Kept t tasks enqueued created) (honce : (enqueued.map (·.1)).Nodup)
    (hj : enqueued[j]? = some (id, i)) (hmoved : Moved id t t') {p : civitai_fetch.Prog Unit}
    {stage : Stage} (hobeys : Obeys p stage) (hminds : Minds t' id stage) :
    Kept t' (tasks.set j p) enqueued created := by
  have hmem : id ∈ enqueued.map (·.1) := List.mem_map.mpr ⟨_, List.mem_of_getElem? hj, rfl⟩
  refine ⟨hmoved.rows h.lawful, by rw [List.length_set, h.pairs], ?_, fun id' hid' hnot r hr => ?_⟩
  · intro j' p' id' i' hp' hj'
    by_cases hjj : j = j'
    · subst hjj
      cases hj.symm.trans hj'
      have hlt : j < tasks.length := by
        have := (List.getElem?_eq_some_iff.mp hp').1
        rwa [List.length_set] at this
      rw [List.getElem?_set_self hlt] at hp'
      cases hp'
      exact ⟨stage, hobeys, hminds⟩
    · rw [List.getElem?_set_ne hjj] at hp'
      obtain ⟨stage', hobeys', hminds'⟩ := h.minds j' p' id' i' hp' hj'
      refine ⟨stage', hobeys', hminds'.congr (hmoved.others id' fun hid => hjj ?_)⟩
      -- two tasks have two rows
      have hget : (enqueued.map (·.1))[j]? = (enqueued.map (·.1))[j']? := by
        simp [List.getElem?_map, hj, hj', hid]
      have hlt : j < (enqueued.map (·.1)).length := by
        rw [List.length_map]
        exact (List.getElem?_eq_some_iff.mp hj).1
      exact (List.getElem?_inj hlt honce).mp hget
  · have hne : id' ≠ id := fun heq => hnot (heq ▸ hmem)
    rw [hmoved.others id' hne] at hr
    exact h.waiting id' hid' hnot r hr

theorem lawful_newRow (id url : String) (modelId : Option Int) (version : Int) (now : Nat) :
    Lawful (Table.newRow id url modelId version now) :=
  ⟨fun h => (by cases h), fun _ => ⟨rfl, rfl, rfl⟩, fun h => (by cases h),
    fun name h => (by cases h)⟩

theorem getById_append (row : LoraFetch) (hfresh : ∀ r ∈ t, r.id ≠ row.id) (id' : String) :
    Table.getById (t ++ [row]) id' = if id' = row.id then some row else t.getById id' := by
  unfold Table.getById
  rw [List.find?_append]
  split
  · rename_i hid
    have hnone : t.find? (fun r => r.id = id') = none := by
      rw [List.find?_eq_none]
      intro r hr
      simpa [hid] using hfresh r hr
    rw [hnone, hid]
    simp
  · rename_i hid
    have hnone : [row].find? (fun r => r.id = id') = none := by
      simpa using fun h => hid h.symm
    rw [hnone, Option.or_none]

/-- A row is inserted, for a task that is to come. -/
theorem Kept.insert (h : Kept t tasks enqueued created)
    (hknown : ∀ id ∈ enqueued.map (·.1), ∃ r ∈ t, r.id = id) {url : String}
    {modelId : Option Int} {version : Int} {now : Nat}
    (hfresh : ∀ r ∈ t, r.id ≠ id) :
    let row := Table.newRow id url modelId version now
    Kept (t ++ [row]) tasks enqueued (created ++ [(id, i)]) ∧
      ∀ id', Later (t.getById id') (Table.getById (t ++ [row]) id') := by
  intro row
  have hget := getById_append row hfresh
  have hnone : t.getById id = none := by
    unfold Table.getById
    rw [List.find?_eq_none]
    exact fun r hr => by simpa using hfresh r hr
  refine ⟨⟨fun id' r hr => ?_, h.pairs, fun j p id' i' hp hj => ?_, fun id' hid' hnot r hr => ?_⟩,
    fun id' r hr => ?_⟩
  · rw [hget] at hr
    split at hr
    · cases hr
      exact lawful_newRow ..
    · exact h.lawful id' r hr
  · obtain ⟨stage, hobeys, hminds⟩ := h.minds j p id' i' hp hj
    obtain ⟨r, hr, hrid⟩ := hknown id' (List.mem_map.mpr ⟨_, List.mem_of_getElem? hj, rfl⟩)
    refine ⟨stage, hobeys, hminds.congr ?_⟩
    rw [hget, if_neg]
    exact fun heq => hfresh r hr (hrid.trans heq)
  · rw [hget] at hr
    split at hr
    · cases hr
      exact ⟨⟨by simp [row, Table.newRow], by simp [row, Table.newRow]⟩, rfl⟩
    · rename_i hne
      rw [List.map_append, List.mem_append] at hid'
      rcases hid' with hid' | hid'
      · exact h.waiting id' hid' hnot r hr
      · rw [List.map_singleton, List.mem_singleton] at hid'
        exact absurd hid' hne
  · refine ⟨r, ?_, Onward.refl r⟩
    rw [hget, if_neg, hr]
    intro heq
    rw [heq, show row.id = id from rfl, hnone] at hr
    cases hr

/-- The task of a row that waits for it. -/
theorem Kept.enqueue (h : Kept t tasks enqueued created) (cfg : civitai_fetch.Config)
    (hid : id ∈ created.map (·.1)) (hnew : id ∉ enqueued.map (·.1)) :
    Kept t (tasks ++ [runFetch cfg id]) (enqueued ++ [(id, i)]) created := by
  refine ⟨h.lawful, by simp [h.pairs], fun j p id' i' hp hj => ?_, fun id' hid' hnot => ?_⟩
  · by_cases hlt : j < tasks.length
    · rw [List.getElem?_append_left hlt] at hp
      rw [List.getElem?_append_left (h.pairs ▸ hlt)] at hj
      exact h.minds j p id' i' hp hj
    · have hle : tasks.length ≤ j := Nat.le_of_not_lt hlt
      rw [List.getElem?_append_right hle] at hp
      rw [List.getElem?_append_right (h.pairs ▸ hle)] at hj
      cases List.mem_singleton.mp (List.mem_of_getElem? hp)
      cases List.mem_singleton.mp (List.mem_of_getElem? hj)
      exact ⟨.looking id, obeys_runFetch cfg id, rfl, h.waiting id hid hnew⟩
  · refine h.waiting id' hid' fun hmem => hnot ?_
    rw [List.map_append]
    exact List.mem_append_left _ hmem

end Tasks

/-! ## The service -/

structure Inv (s : State) : Prop where
  sound : ∃ t₀, Sound t₀ s
  kept : Kept s.table s.tasks s.enqueued s.created
  /-- No request comes before the end of the recovery. -/
  booting : s.handlers ≠ [] → s.recovery = .over

section Steps

variable {cfg : civitai_fetch.Config} {t₀ : Table} {s s' : State}

theorem created_nodup (h : Sound t₀ s) : (s.created.map (·.1)).Nodup := by
  have hkeyed := h.current.keyed
  rw [h.rows, List.nodup_append] at hkeyed
  exact hkeyed.2.1

theorem enqueued_nodup (h : Sound t₀ s) : (s.enqueued.map (·.1)).Nodup := by
  refine (List.nodup_map_iff_inj_on h.once).mpr fun a ha b hb hab => ?_
  exact List.inj_on_of_nodup_map (created_nodup h) (h.handed ha) (h.handed hb) hab

theorem created_known (h : Sound t₀ s) {id : String} (hid : id ∈ s.created.map (·.1)) :
    ∃ r ∈ s.table, r.id = id := by
  have hmem : id ∈ s.table.map (·.id) := by
    rw [h.rows]
    exact List.mem_append_right _ hid
  exact List.mem_map.mp hmem

/-- Before the first request there is nothing to watch. -/
theorem Inv.idle (h : Inv s) (hnone : s.handlers = []) :
    s.created = [] ∧ s.enqueued = [] ∧ s.tasks = [] := by
  obtain ⟨t₀, hsound⟩ := h.sound
  have hcreated : s.created = [] := by
    refine List.eq_nil_iff_forall_not_mem.mpr fun ⟨id, i⟩ hmem => ?_
    have hlt := hsound.known id i hmem
    simp [hnone] at hlt
  have henqueued : s.enqueued = [] := by
    have hhanded := hsound.handed
    rw [hcreated] at hhanded
    exact List.subset_nil.mp hhanded
  refine ⟨hcreated, henqueued, ?_⟩
  have hpairs := h.kept.pairs
  rw [henqueued] at hpairs
  exact List.length_eq_zero_iff.mp hpairs

/-- What a step of the service does to the tasks and the table. -/
def Steps (s s' : State) : Prop :=
  Kept s'.table s'.tasks s'.enqueued s'.created ∧
    ∀ id, Later (s.table.getById id) (s'.table.getById id)

theorem steps_same (h : Inv s) (htable : s'.table = s.table) (htasks : s'.tasks = s.tasks)
    (henqueued : s'.enqueued = s.enqueued) (hcreated : s'.created = s.created) : Steps s s' := by
  unfold Steps
  rw [htable, htasks, henqueued, hcreated]
  exact ⟨h.kept, fun id => Later.refl _⟩

theorem steps_fetch (h : Inv s) {j : Nat} {inp : FetchInput}
    (hact : fetch_dedupe.act cfg s (.fetch j inp) = some s') : Steps s s' := by
  obtain ⟨t₀, hsound⟩ := h.sound
  simp only [fetch_dedupe.act] at hact
  split at hact
  · rename_i op k hj
    have hlt : j < s.enqueued.length := by
      rw [← h.kept.pairs]
      exact (List.getElem?_eq_some_iff.mp hj).1
    obtain ⟨⟨id, i⟩, hpair⟩ : ∃ pair, s.enqueued[j]? = some pair :=
      ⟨_, List.getElem?_eq_getElem hlt⟩
    obtain ⟨stage, ⟨hready, hrest⟩, hminds⟩ := h.kept.minds j _ id i hj hpair
    have hrow : ∀ r, s.table.getById id = some r → Lawful r := h.kept.lawful id
    obtain ⟨hmoved, hanswered, hraised⟩ := execFetch_moved inp hrow hminds hready
    have honce := enqueued_nodup hsound
    split at hact <;> cases hact
    · exact ⟨h.kept.step honce hpair hmoved (hrest _) (hraised _), hmoved.all⟩
    · exact ⟨h.kept.step honce hpair (moved_refl hrow) (hrest _) (minds_faulted hminds hready _),
        (moved_refl hrow).all⟩
    · exact ⟨h.kept.step honce hpair hmoved (hrest _) hanswered, hmoved.all⟩
  · cases hact

theorem steps_handle (h : Inv s) {i now : Nat} {id : String} {fault : Option String}
    (hact : fetch_dedupe.act cfg s (.handle i now id fault) = some s') : Steps s s' := by
  obtain ⟨t₀, hsound⟩ := h.sound
  rcases hi : s.handlers[i]? with _ | ⟨p, rest, since⟩
  · simp [fetch_dedupe.act, hi] at hact
  cases hstands : rest with
  | ret a => simp [fetch_dedupe.act, hi, hstands] at hact
  | raise e => simp [fetch_dedupe.act, hi, hstands] at hact
  | await op k =>
    rw [fetch_dedupe.act_handle hi hstands] at hact
    cases hact
    cases op with
    | findActiveByVersion version =>
      cases fault <;> exact steps_same h rfl rfl rfl rfl
    | createPending url modelId version =>
      cases fault with
      | some message => exact steps_same h rfl rfl rfl rfl
      | none =>
        simp only [fetch_dedupe.execHandler]
        rcases hstep : s.table.createPending id url modelId version now with e | ⟨row, table⟩
        · exact steps_same h rfl rfl rfl rfl
        · obtain ⟨rfl, rfl, hfresh, -, -⟩ := createPending_spec hsound.current hstep
          refine h.kept.insert (fun id' hid' => ?_) hfresh
          obtain ⟨pair, hpair, rfl⟩ := List.mem_map.mp hid'
          exact created_known hsound (List.mem_map.mpr ⟨pair, hsound.handed hpair, rfl⟩)
    | enqueue requestId =>
      have hstand := hsound.stands i p rest since hi
      rw [hstands] at hstand
      cases hstand with
      | enqueuing _ hmine hnew hseen =>
        have hcreated : (requestId, i) ∈ s.created := (hmine requestId).mpr rfl
        refine ⟨h.kept.enqueue cfg (List.mem_map.mpr ⟨_, hcreated, rfl⟩) fun hmem => ?_,
          fun id => Later.refl _⟩
        obtain ⟨pair, hpair, hid⟩ := List.mem_map.mp hmem
        have hsame := List.inj_on_of_nodup_map (created_nodup hsound) (hsound.handed hpair)
          hcreated hid
        exact hnew (hsame ▸ hpair)

theorem steps_recover (h : Inv s) {now : Nat} {fault : Bool}
    (hact : recoveryStep now fault s = some s') : Steps s s' := by
  have hidle : s.recovery ≠ .over → s.handlers = [] := fun hnot => by
    by_contra hne
    exact hnot (h.booting hne)
  unfold recoveryStep at hact
  split at hact
  · cases hact
  · cases hact
    exact steps_same h rfl rfl rfl rfl
  · cases hact
    exact steps_same h rfl rfl rfl rfl
  · cases hact
    exact steps_same h rfl rfl rfl rfl
  · rename_i id ids hrecovery
    obtain ⟨hcreated, henqueued, htasks⟩ := h.idle (hidle (by rw [hrecovery]; simp))
    split at hact
    · rename_i table htable
      cases hact
      have hmoved : Moved id s.table table := by
        have hwrite := moved_setFailed (h.kept.lawful id) reported_restarted
          "fetcher interrupted by service restart" now
        rwa [htable] at hwrite
      refine ⟨?_, hmoved.all⟩
      change Kept table s.tasks s.enqueued s.created
      rw [hcreated, henqueued, htasks]
      refine ⟨hmoved.rows h.kept.lawful, rfl, fun j p id i hp => ?_, fun id hid => ?_⟩
      · cases hp
      · cases hid
    · cases hact
      exact steps_same h rfl rfl rfl rfl

/-- A handler takes no part in the recovery, and has come before it takes a step. -/
theorem recovery_handle {i now : Nat} {id : String} {fault : Option String}
    (hact : fetch_dedupe.act cfg s (.handle i now id fault) = some s') :
    s.handlers ≠ [] ∧ s'.recovery = s.recovery := by
  rcases hi : s.handlers[i]? with _ | ⟨p, rest, since⟩
  · simp [fetch_dedupe.act, hi] at hact
  refine ⟨fun hnone => by simp [hnone] at hi, ?_⟩
  cases hrest : rest with
  | ret a => simp [fetch_dedupe.act, hi, hrest] at hact
  | raise e => simp [fetch_dedupe.act, hi, hrest] at hact
  | await op k =>
    rw [fetch_dedupe.act_handle hi hrest] at hact
    cases hact
    cases op with
    | findActiveByVersion version => cases fault <;> rfl
    | createPending url modelId version =>
      cases fault with
      | some message => rfl
      | none =>
        simp only [fetch_dedupe.execHandler]
        split <;> rfl
    | enqueue requestId => rfl

theorem handlers_recover {now : Nat} {fault : Bool} (hact : recoveryStep now fault s = some s') :
    s'.handlers = s.handlers ∧ s.recovery ≠ .over := by
  unfold recoveryStep at hact
  split at hact
  · cases hact
  · rename_i hnot
    cases hact
    exact ⟨rfl, fun heq => hnot heq⟩
  · rename_i heq
    cases hact
    exact ⟨rfl, by simp [heq]⟩
  · rename_i heq
    cases hact
    exact ⟨rfl, by simp [heq]⟩
  · rename_i heq
    split at hact <;> cases hact <;> exact ⟨rfl, by simp [heq]⟩

theorem inv_boot {t : Table} (h : t.Indexed) (hlawful : ∀ id r, t.getById id = some r → Lawful r) :
    Inv (boot t) := by
  refine ⟨⟨t, sound_boot h⟩, ⟨hlawful, rfl, fun j p id i hp => ?_, fun id hid => ?_⟩, fun hne => ?_⟩
  · cases hp
  · cases hid
  · exact absurd rfl hne

theorem inv_act (h : Inv s) {l : fetch_dedupe.Label}
    (hpost : ∀ p, l = .post p → s.recovery = .over)
    (hnext : fetch_dedupe.next cfg s l = some s') :
    Inv s' ∧ ∀ id, Later (s.table.getById id) (s'.table.getById id) := by
  obtain ⟨t₀, hsound⟩ := h.sound
  have hsound' : Sound t₀ s' := sound_next hsound hnext
  obtain ⟨u, hact, rfl⟩ := Option.map_eq_some_iff.mp hnext
  have hsteps : Steps s u ∧ (u.handlers ≠ [] → u.recovery = .over) := by
    cases l with
    | post p =>
      cases hact
      exact ⟨steps_same h rfl rfl rfl rfl, fun _ => hpost p rfl⟩
    | handle i now id fault =>
      refine ⟨steps_handle h hact, fun _ => ?_⟩
      obtain ⟨hcame, hsame⟩ := recovery_handle hact
      rw [hsame, h.booting hcame]
    | fetch j inp =>
      refine ⟨steps_fetch h hact, fun hne => ?_⟩
      simp only [fetch_dedupe.act] at hact
      split at hact
      · split at hact <;> cases hact <;> exact h.booting hne
      · cases hact
    | recover now fault =>
      refine ⟨steps_recover h hact, fun hne => ?_⟩
      obtain ⟨hsame, hnot⟩ := handlers_recover hact
      exact absurd (h.booting (hsame ▸ hne)) hnot
  exact ⟨⟨⟨t₀, hsound'⟩, hsteps.1.1, hsteps.2⟩, hsteps.1.2⟩

theorem inv_next (h : Inv s) {l : Label} (hnext : next cfg s l = some s') :
    Inv s' ∧ ∀ id, Later (s.table.getById id) (s'.table.getById id) := by
  cases l with
  | act l =>
    cases l with
    | post p =>
      simp only [next] at hnext
      split at hnext
      · rename_i hover
        exact inv_act h (fun _ _ => hover) hnext
      · cases hnext
    | _ => exact inv_act h (fun _ hl => (by cases hl)) hnext
  | poll id =>
    cases hnext
    exact ⟨h, fun id => Later.refl _⟩
  | restart =>
    cases hnext
    obtain ⟨t₀, hsound⟩ := h.sound
    exact ⟨inv_boot hsound.current h.kept.lawful, fun id => Later.refl _⟩

end Steps

/-! ## Runs -/

section Run

variable {cfg : civitai_fetch.Config} {s : State} {labels : List Label} {id : String}

theorem asked_eq (id : String) (s : State) (l : Label) (row : Option LoraFetch)
    (h : asked id s l = some row) : row = s.table.getById id := by
  cases l with
  | poll id' =>
    by_cases hid : id' = id
    · simpa [asked, hid] using h.symm
    · simp [asked, hid] at h
  | _ => cases h

theorem polled_sublist (cfg : civitai_fetch.Config) (id : String) (s : State)
    (labels : List Label) : (polled cfg id s labels).Sublist
      ((s :: after (next cfg) s labels).map fun u => u.table.getById id) := by
  unfold polled
  exact reports_sublist (fun u : State => u.table.getById id) (asked_eq id) s labels

theorem rows_later (cfg : civitai_fetch.Config) (h : Inv s) (id : String) (labels : List Label) :
    ((s :: after (next cfg) s labels).map fun u => u.table.getById id).Pairwise Later := by
  have hstep : ∀ (u : State) (l : Label) (u' : State), Inv u → True → next cfg u l = some u' →
      Inv u' ∧ Later (u.table.getById id) (u'.table.getById id) := by
    intro u l u' hinv _ hnext
    obtain ⟨hinv', hlater⟩ := inv_next hinv hnext
    exact ⟨hinv', hlater id⟩
  exact List.isChain_iff_pairwise.mp (isChain_after _ hstep h (allSteps_true s labels))

theorem polled_lawful (h : Inv s) {r : LoraFetch} (hr : some r ∈ polled cfg id s labels) :
    r.id = id ∧ Lawful r := by
  obtain ⟨u, hu, hrow⟩ := List.mem_map.mp ((polled_sublist cfg id s labels).subset hr)
  have hinv : Inv u := forall_after (fun _ _ _ hinv _ hnext => (inv_next hinv hnext).1) h
    (allSteps_true s labels) u hu
  exact ⟨(mem_of_find hrow).2, hinv.kept.lawful id r hrow⟩

/-- A row of the version of this one. -/
def Stays (t t' : Table) : Prop :=
  ∀ r ∈ t, ∃ r' ∈ t', r'.id = r.id ∧ r'.civitaiVersionId = r.civitaiVersionId

instance : IsTrans Table Stays where
  trans a b c hab hbc := by
    intro r hr
    obtain ⟨r', hr', hid, hversion⟩ := hab r hr
    obtain ⟨r'', hr'', hid', hversion'⟩ := hbc r' hr'
    exact ⟨r'', hr'', hid'.trans hid, hversion'.trans hversion⟩

/-- The row of a 202 is in the table from then on. -/
theorem accepted_found (h : Inv s) {c : fetch_dedupe.Handler} (hc : c ∈ s.handlers)
    {deduped : Bool} (hrest : c.rest = .ret (.accepted id deduped)) :
    ∃ r, s.table.getById id = some r ∧ r.civitaiVersionId = c.parsed.versionId := by
  obtain ⟨t₀, hsound⟩ := h.sound
  obtain ⟨i, hi⟩ := List.mem_iff_getElem?.mp hc
  obtain ⟨p, rest, since⟩ := c
  subst hrest
  cases hsound.stands i p _ since hi with
  | accepted _ _ hdone hseen =>
    obtain ⟨t, ht, r, hr, rfl, hversion, -⟩ := hseen
    obtain ⟨earlier, hhistory⟩ := List.getLast?_eq_some_iff.mp hsound.last
    have hchain : s.history.IsChain Stays := hsound.evolves.imp fun t t' hevolves r hr => by
      obtain ⟨r', hr', hid, hversion, -⟩ := hevolves.kept r hr
      exact ⟨r', hr', hid, hversion⟩
    have hpair := List.isChain_iff_pairwise.mp hchain
    have hnow : ∃ r' ∈ s.table, r'.id = r.id ∧ r'.civitaiVersionId = r.civitaiVersionId := by
      have hmem := (List.drop_sublist since s.history).subset ht
      rw [hhistory] at hpair hmem
      rcases List.mem_append.mp hmem with hmem | hmem
      · exact (List.pairwise_append.mp hpair).2.2 t hmem s.table (List.mem_singleton_self _) r hr
      · rw [List.mem_singleton.mp hmem] at hr
        exact ⟨r, hr, rfl, rfl⟩
    obtain ⟨r', hr', hid, hversion'⟩ := hnow
    exact ⟨r', hid ▸ fetch_dedupe.getById_of_mem hsound.current hr', hversion'.trans hversion⟩

/-- What is there is found by every later poll. -/
theorem polled_found (h : Inv s) {r : LoraFetch} (hr : s.table.getById id = some r)
    (labels : List Label) : ∀ row ∈ polled cfg id s labels, ∃ r', row = some r' ∧ Onward r r' := by
  intro row hrow
  have hlater := rows_later cfg h id labels
  rw [List.map_cons] at hlater
  rcases List.mem_cons.mp ((polled_sublist cfg id s labels).subset hrow) with heq | hmem
  · exact ⟨r, heq.trans hr, Onward.refl r⟩
  · exact (List.pairwise_cons.mp hlater).1 row hmem r hr

end Run

theorem inv_start : Inv (boot []) := inv_boot indexed_nil fun id r hr => (by cases hr)

/-- What the polls of a fetch find, in every order of the requests, the tasks and the
recoveries and over every restart: a fetch that was found is found again with the same
columns that name it, its status follows the transition table, a name stays, a terminal
answer never changes, and the columns of each answer are those of its status. A 202 has the
id of a fetch of its version, which every later poll finds. -/
theorem fetch_polls_only_move_forward (cfg : civitai_fetch.Config) {labels : List Label} {s : State}
    (hrun : exec (next cfg) (boot []) labels = some s) (id : String) :
    (polled cfg id (boot []) labels).Pairwise Later ∧
    (∀ r, some r ∈ polled cfg id (boot []) labels → r.id = id ∧ Lawful r) ∧
    ∀ c ∈ s.handlers, ∀ deduped, c.rest = .ret (.accepted id deduped) →
      ∀ later, ∀ row ∈ polled cfg id s later,
        ∃ r, row = some r ∧ r.civitaiVersionId = c.parsed.versionId := by
  refine ⟨(rows_later cfg inv_start id labels).sublist (polled_sublist cfg id _ labels),
    fun r => polled_lawful inv_start, ?_⟩
  intro c hc deduped hrest later row hrow
  have hinv : Inv s := invariant_of_next (fun _ _ _ h hnext => (inv_next h hnext).1) inv_start hrun
  obtain ⟨r, hr, hversion⟩ := accepted_found hinv hc hrest
  obtain ⟨r', hr', honward⟩ := polled_found hinv hr later row hrow
  exact ⟨r', hr', honward.version.trans hversion⟩

/-- The network and the disk while a fetch goes well. -/
def wellAnswered : (op : civitai_fetch.Op) → Except civitai_fetch.Exc op.Ans
  | .fetchMetadata _ => .ok [("files", .arr [.obj [("primary", .bool true),
      ("name", .str "a.safetensors"), ("downloadUrl", .str "https://civitai.com/api/download/7"),
      ("hashes", .obj [("SHA256", .str "F0")])]])]
  | .expectedSize _ => .ok 5
  | .isFile _ => .ok false
  | .diskFree => .ok 100
  | .streamDownload _ _ _ _ => .ok "f0"
  | .getById _ => .ok none
  | .setStatus _ _ => .ok ()
  | .setFailed _ _ _ _ => .ok ()
  | .setTotalBytes _ _ => .ok ()
  | .setDestName _ _ => .ok ()
  | .acquire _ => .ok ()
  | .release _ => .ok ()
  | .mkdir _ => .ok ()
  | .writeSidecar _ _ => .ok ()
  | .evictFor _ => .ok ()
  | .validateDownloadUrl _ => .ok ()
  | .unlinkQuiet _ => .ok ()
  | .replace _ _ => .ok ()

/-- The task takes `n` operations. -/
def working (n : Nat) : List Label :=
  (List.range n).map fun now => .act (.fetch 0 ⟨now, none, 5, wellAnswered⟩)

/-- A fetch is asked for after the boot, polled while it goes on, and polled after a restart. -/
def fetched : List Label :=
  [.act (.recover 0 false), .act (.recover 0 false), .poll "a",
    .act (.post ⟨"https://civitai.com/models/1?modelVersionId=7", some 1, 7⟩),
    .act (.handle 0 1 "" none), .act (.handle 0 2 "a" none), .poll "a",
    .act (.handle 0 3 "" none)] ++
  working 8 ++ [.poll "a"] ++ working 6 ++ [.poll "a"] ++ working 3 ++
  [.poll "a", .restart, .poll "a"]

theorem fetched_moves_forward : ∃ s,
    exec (next ⟨["loras"], 10, "3600", fun _ => ""⟩) (boot []) fetched = some s ∧
    (polled ⟨["loras"], 10, "3600", fun _ => ""⟩ "a" (boot []) fetched).map
        (fun row => row.map (·.status)) =
      [none, some .pending, some .downloading, some .verifying, some .done, some .done] ∧
    (polled ⟨["loras"], 10, "3600", fun _ => ""⟩ "a" (boot []) fetched).Pairwise Later := by
  have hends : (exec (next ⟨["loras"], 10, "3600", fun _ => ""⟩) (boot []) fetched).isSome := by
    decide +kernel
  obtain ⟨s, hs⟩ := Option.isSome_iff_exists.mp hends
  exact ⟨s, hs, by decide +kernel, (fetch_polls_only_move_forward _ hs "a").1⟩

end image_gen.fetch_polls

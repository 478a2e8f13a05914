-- The hashes of fetched LoRAs: what a row that is done and a sidecar say of the
-- file under their name, for any file that was there before, any metadata and
-- anything that other tasks do to the files meanwhile.
import ImageGen.FetchAtomicity
import ImageGen.FetchNames
import ImageGen.StreamDownload
import Mathlib.Algebra.GroupWithZero.Nat

namespace image_gen.hash_integrity

open image_gen.coroutine image_gen.json image_gen.file_tree image_gen.lora_files
  image_gen.fetch_table image_gen.civitai_fetch image_gen.fetch_names
open image_gen.eviction (pathWithSuffix sidecarPath)
open image_gen.fetch_atomicity (Start)
open image_gen.stream_download (Bytes Tick Ending Floats streamDownload)

/-! ## The steps of a fetch -/

structure Setting extends civitai_fetch.Config where
  floats : Floats
  /-- The hexdigest, of any bytes. -/
  sha256 : Bytes → String

structure World where
  table : Table
  /-- What a read of a path gives. -/
  files : Path → Option Bytes
  /-- Another task has removed the file of the path, and the fetch has not written it
  again. -/
  gone : Path → Bool
  /-- What the fetch has retrieved. -/
  metadata : Option (List (String × Json))
  /-- The sidecar that the fetch has written. -/
  sidecar : Option Sidecar
  downloaded : Bool

/-- What an operation meets. A failure may come before or after its effect. -/
structure Meet where
  now : Nat
  fault : Option (Exc × Bool)
  ticks : List Tick
  ending : Ending
  /-- What the eviction removes. -/
  evicted : List Path
  sidecarText : Bytes
  answer : (op : Op) → op.Ans

def put (files : Path → Option Bytes) (p : Path) (content : Option Bytes) : Path → Option Bytes :=
  fun q => if q = p then content else files q

def moved (files : Path → Option Bytes) (src dst : Path) (content : Bytes) :
    Path → Option Bytes :=
  put (put files src none) dst (some content)

def World.write (w : World) (p : Path) (content : Bytes) : World :=
  { w with
    files := put w.files p (some content)
    gone := fun q => q ≠ p && w.gone q }

def World.remove (w : World) (p : Path) : World := { w with files := put w.files p none }

/-- The download that an operation meets. -/
def stream (cfg : Setting) (m : Meet) (id : String) (size : Int) (table : Table) :
    stream_download.Result String :=
  streamDownload ⟨cfg.fileMaxBytes, id, size, cfg.floats, cfg.sha256⟩ m.ticks m.ending table

attribute [local instance] lawfulPath

def effect (cfg : Setting) (m : Meet) : (op : Op) → World → Except Exc op.Ans × World
  | .isFile p, w => (.ok (w.files p).isSome, w)
  | .fetchMetadata version, w => (.ok (m.answer (.fetchMetadata version)),
      { w with metadata := some (m.answer (.fetchMetadata version)) })
  | .evictFor _, w => (.ok (), { w with
      files := fun p => if p ∈ m.evicted then none else w.files p })
  | .streamDownload id _ tmp size, w =>
    let r := stream cfg m id size w.table
    (r.1, { w.write tmp r.2.file with table := r.2.table, downloaded := true })
  | .writeSidecar p sidecar, w =>
    (.ok (), { w.write p m.sidecarText with sidecar := some sidecar })
  | .unlinkQuiet p, w => (.ok (), w.remove p)
  | .replace src dst, w =>
    match w.files src with
    | none => (.error (.os "" false), w)
    | some content => (.ok (), (w.remove src).write dst content)
  | op, w =>
    let r := fetch_dedupe.execFetch ⟨m.now, none, 0, fun op => .ok (m.answer op)⟩ op w.table
    (r.1, { w with table := r.2 })

def faulty (cfg : Setting) (m : Meet) (op : Op) (w : World) : Except Exc op.Ans × World :=
  match m.fault with
  | none => effect cfg m op w
  | some (e, true) => (.error e, (effect cfg m op w).2)
  | some (e, false) => (.error e, w)

/-- `_unlink_quiet` raises nothing. -/
def exec (cfg : Setting) (m : Meet) : (op : Op) → World → Except Exc op.Ans × World
  | .unlinkQuiet p, w => if m.fault.isNone then effect cfg m (.unlinkQuiet p) w else (.ok (), w)
  | op, w => faulty cfg m op w

/-! ## The other tasks -/

/-- What other tasks have done when an operation begins: evictions remove files, and
fetches and touches write some. The lock of a version keeps its other fetches
out. -/
structure Others (lorasRoot : Path) (version : Int) where
  removed : List Path
  written : Path → Option Bytes
  apart : ∀ slug, written (destPath lorasRoot slug version) = none ∧
    written (tmpPath (destPath lorasRoot slug version)) = none

def Others.act {lorasRoot : Path} {version : Int} (o : Others lorasRoot version) (w : World) :
    World :=
  { w with
    files := fun p => if p ∈ o.removed then none else (o.written p).or (w.files p)
    gone := fun p => w.gone p || (decide (p ∈ o.removed) && (w.files p).isSome) }

/-- A fetch of another version, which evicts and writes its own files. -/
def Others.ofFetch (lorasRoot : Path) {version other : Int} (hother : other ≠ version)
    (slug : String) (removed : List Path) (content : Path → Bytes) : Others lorasRoot version where
  removed := removed
  written p := if p ∈ fetchPaths lorasRoot slug other then some (content p) else none
  apart slug' := by
    have hdisjoint : (fetchPaths lorasRoot slug' version).Disjoint
        (fetchPaths lorasRoot slug other) :=
      fetchPaths_disjoint lorasRoot fun heq => hother (Prod.mk.inj heq).2.symm
    refine ⟨if_neg fun hmem => hdisjoint ?_ hmem, if_neg fun hmem => hdisjoint ?_ hmem⟩ <;>
      simp [fetchPaths]

def Others.idle (lorasRoot : Path) (version : Int) : Others lorasRoot version :=
  ⟨[], fun _ => none, fun _ => ⟨rfl, rfl⟩⟩

/-! ## What the hashes say -/

/-- The file of a LoRA's name. -/
def nameFile (cfg : Setting) (name : String) : Path :=
  joinPath cfg.lorasRoot (name ++ ".safetensors")

/-- The entry of the metadata that the fetch has retrieved. -/
def primaryFile (cfg : Setting) (metadata : Option (List (String × Json))) :
    Option PrimaryFile :=
  metadata.bind fun fields => (pickPrimaryFile cfg.repr fields).toOption

/-- The row, where it is done, and the sidecar, where one was written, have the
hash of the file under their name. -/
structure Verified (cfg : Setting) (s : Start) (w : World) : Prop where
  done : ∀ r, w.table.getById s.row.id = some r → r.status = .done →
    ∃ name file content, r.destName = some name ∧ primaryFile cfg w.metadata = some file ∧
      w.files (nameFile cfg name) = some content ∧ cfg.sha256 content = file.sha256.toLower
  sidecar : ∀ sidecar, w.sidecar = some sidecar →
    ∃ content, w.files (nameFile cfg sidecar.canonicalName) = some content ∧
      cfg.sha256 content = sidecar.sha256

/-- The file was downloaded and has the hash, or it was there before the fetch. -/
def Sourced (cfg : Setting) (before : Path → Option Bytes) (downloaded : Bool) (p : Path)
    (sha : String) (content : Bytes) : Prop :=
  if downloaded then cfg.sha256 content = sha else before p = some content

/-- The same, where a file that was there before is left as it is, and one that
another task has removed since is not there. -/
structure Intact (cfg : Setting) (s : Start) (before : Path → Option Bytes) (w : World) :
    Prop where
  done : ∀ r, w.table.getById s.row.id = some r → r.status = .done →
    ∃ name file, r.destName = some name ∧ primaryFile cfg w.metadata = some file ∧
      (w.files (nameFile cfg name) = none → w.gone (nameFile cfg name) = true) ∧
      ∀ content, w.files (nameFile cfg name) = some content →
        Sourced cfg before w.downloaded (nameFile cfg name) file.sha256.toLower content
  sidecar : ∀ sidecar, w.sidecar = some sidecar →
    ∃ file, primaryFile cfg w.metadata = some file ∧ sidecar.sha256 = file.sha256.toLower ∧
      ∀ content, w.files (nameFile cfg sidecar.canonicalName) = some content →
        Sourced cfg before w.downloaded (nameFile cfg sidecar.canonicalName) sidecar.sha256 content

/-! ## Runs -/

/-- A run, with the number of its next operation. -/
structure Run where
  world : World
  clock : Nat

/-- The next operation, after what other tasks have done. -/
def stepRun (cfg : Setting) (env : Nat → Meet) {version : Int}
    (others : Nat → Others cfg.lorasRoot version) (op : Op) (r : Run) :
    Except Exc op.Ans × Run :=
  ((exec cfg (env r.clock) op ((others r.clock).act r.world)).1,
    ⟨(exec cfg (env r.clock) op ((others r.clock).act r.world)).2, r.clock + 1⟩)

def first (s : Start) (before : Path → Option Bytes) : Run :=
  ⟨⟨s.table, before, fun _ => false, none, none, false⟩, 0⟩

/-- The task of the row, to its end, on any files. -/
def runTask (cfg : Setting) (env : Nat → Meet) (s : Start)
    (others : Nat → Others cfg.lorasRoot s.row.civitaiVersionId) (before : Path → Option Bytes) :
    Run :=
  ((runFetch cfg.toConfig s.row.id).run (stepRun cfg env others) (first s before)).2

/-! ## What a run is seen to hold -/

/-- All that the hashes depend on, with the files that other tasks have removed. -/
structure View where
  status : FetchStatus
  destName : Option String
  files : Path → Option Bytes
  metadata : Option (List (String × Json))
  sidecar : Option Sidecar
  downloaded : Bool

/-- The row in the table. -/
def Shows (s : Start) (status : FetchStatus) (destName : Option String) (t : Table) : Prop :=
  ∃ row, t.getById s.row.id = some row ∧ row.status = status ∧ row.destName = destName

/-- The path of the file or of its temporary file, whatever the slug. -/
def Mine (cfg : Setting) (s : Start) (p : Path) : Prop :=
  ∃ slug, p = destPath cfg.lorasRoot slug s.row.civitaiVersionId ∨
    p = tmpPath (destPath cfg.lorasRoot slug s.row.civitaiVersionId)

/-- The file is as it says here, or another task has removed it. -/
def Shown (w : World) (files : Path → Option Bytes) (p : Path) : Prop :=
  w.files p = files p ∨ (w.files p = none ∧ w.gone p = true)

structure Sees (cfg : Setting) (s : Start) (v : View) (r : Run) : Prop where
  row : Shows s v.status v.destName r.world.table
  files : ∀ p, Mine cfg s p → Shown r.world v.files p
  metadata : r.world.metadata = v.metadata
  sidecar : r.world.sidecar = v.sidecar
  downloaded : r.world.downloaded = v.downloaded

/-- `Intact` of a view. -/
structure Kept (cfg : Setting) (s : Start) (before : Path → Option Bytes) (v : View) : Prop where
  done : v.status = .done → ∃ name file content, v.destName = some name ∧
    primaryFile cfg v.metadata = some file ∧ Mine cfg s (nameFile cfg name) ∧
    v.files (nameFile cfg name) = some content ∧
    Sourced cfg before v.downloaded (nameFile cfg name) file.sha256.toLower content
  sidecar : ∀ sidecar, v.sidecar = some sidecar →
    ∃ file, primaryFile cfg v.metadata = some file ∧ sidecar.sha256 = file.sha256.toLower ∧
      Mine cfg s (nameFile cfg sidecar.canonicalName) ∧
      ∀ content, v.files (nameFile cfg sidecar.canonicalName) = some content →
        Sourced cfg before v.downloaded (nameFile cfg sidecar.canonicalName) sidecar.sha256 content

def Ends (cfg : Setting) (s : Start) (before : Path → Option Bytes) (r : Run) : Prop :=
  ∃ v, Sees cfg s v r ∧ Kept cfg s before v

section Views

variable {cfg : Setting} {s : Start} {before : Path → Option Bytes} {v : View} {r r' : Run}

theorem Shown.file {w : World} {files : Path → Option Bytes} {p : Path} (h : Shown w files p)
    {content : Bytes} (hfile : w.files p = some content) : files p = some content := by
  rcases h with hsame | ⟨hnone, -⟩
  · rwa [← hsame]
  · rw [hnone] at hfile
    cases hfile

theorem intact_of_ends (h : Ends cfg s before r) : Intact cfg s before r.world := by
  obtain ⟨v, hsees, hkept⟩ := h
  obtain ⟨row, hrow, hstatus, hname⟩ := hsees.row
  refine ⟨fun row' hrow' hdone => ?_, fun sidecar hsidecar => ?_⟩
  · rw [hrow, Option.some.injEq] at hrow'
    obtain ⟨name, file, content, hdest, hfile, hmine, hcontent, hsourced⟩ :=
      hkept.done (by rw [← hstatus, hrow', hdone])
    rw [← hrow', hname, hsees.metadata, hsees.downloaded]
    refine ⟨name, file, hdest, hfile, fun hnone => ?_, fun content' hcontent' => ?_⟩
    · rcases hsees.files _ hmine with hsame | ⟨-, hgone⟩
      · rw [hsame, hcontent] at hnone
        cases hnone
      · exact hgone
    · have hshown := (hsees.files _ hmine).file hcontent'
      rw [hcontent, Option.some.injEq] at hshown
      rwa [← hshown]
  · obtain ⟨file, hfile, hsha, hmine, hsourced⟩ :=
      hkept.sidecar sidecar (hsees.sidecar.symm.trans hsidecar)
    rw [hsees.metadata, hsees.downloaded]
    exact ⟨file, hfile, hsha, fun content hcontent =>
      hsourced content ((hsees.files _ hmine).file hcontent)⟩

theorem nameFile_eq (filename : String) (version : Int) :
    nameFile cfg (canonicalName (sanitizeSlug filename) version) =
      destPath cfg.lorasRoot (sanitizeSlug filename) version := by
  have hhead : (canonicalName (sanitizeSlug filename) version ++ ".safetensors").toList.head? ≠
      some '/' := by
    rw [String.toList_append, canonicalName_toList]
    simp
  rw [nameFile, joinPath, if_neg hhead, components_canonicalName]
  rfl

/-- Without a sidecar, and not done. -/
theorem kept_of_clean (hnot : v.status ≠ .done) (hnone : v.sidecar = none) : Kept cfg s before v :=
  ⟨fun hdone => absurd hdone hnot, fun sidecar hsidecar => by
    rw [hnone] at hsidecar
    cases hsidecar⟩

/-- The status and the name matter for a row that is done only. -/
theorem Kept.row (h : Kept cfg s before v) (status : FetchStatus) (hnot : status ≠ .done)
    (name : Option String) : Kept cfg s before { v with status := status, destName := name } :=
  ⟨fun hdone => absurd hdone hnot, h.sidecar⟩

/-! ## Single operations -/

/-- One operation with what it meets. -/
def Acts (cfg : Setting) (op : Op) (r : Run) (a : Except Exc op.Ans) (r' : Run) : Prop :=
  ∃ m, a = (exec cfg m op r.world).1 ∧ r'.world = (exec cfg m op r.world).2

/-- One operation, after what other tasks have done. -/
def Does (cfg : Setting) (s : Start) (op : Op) (r : Run) (a : Except Exc op.Ans) (r' : Run) :
    Prop :=
  ∃ o : Others cfg.lorasRoot s.row.civitaiVersionId,
    Acts cfg op ⟨o.act r.world, r.clock⟩ a r'

theorem does_stepRun (cfg : Setting) (env : Nat → Meet) (s : Start)
    (others : Nat → Others cfg.lorasRoot s.row.civitaiVersionId) (op : Op) (r : Run) :
    Does cfg s op r (stepRun cfg env others op r).1 (stepRun cfg env others op r).2 :=
  ⟨others r.clock, env r.clock, rfl, rfl⟩

/-- What holds for every way on. -/
abbrev Then (cfg : Setting) (s : Start) {α : Type} (p : Prog α) (Q : Except Exc α → Run → Prop)
    (r : Run) : Prop :=
  p.Holds (Does cfg s) (fun _ => True) Q r

/-- What other tasks do keeps every view. -/
theorem Sees.act (h : Sees cfg s v r) (o : Others cfg.lorasRoot s.row.civitaiVersionId) :
    Sees cfg s v ⟨o.act r.world, r.clock⟩ := by
  refine ⟨h.row, fun p hmine => ?_, h.metadata, h.sidecar, h.downloaded⟩
  have hunwritten : o.written p = none := by
    obtain ⟨slug, rfl | rfl⟩ := hmine
    · exact (o.apart slug).1
    · exact (o.apart slug).2
  by_cases hremoved : p ∈ o.removed
  · rcases hfile : r.world.files p with _ | content
    · rcases h.files p hmine with hsame | ⟨-, hgone⟩
      · left
        simp [Others.act, hremoved, ← hsame, hfile]
      · right
        simp [Others.act, hremoved, hgone]
    · right
      simp [Others.act, hremoved, hfile]
  · rcases h.files p hmine with hsame | ⟨hnone, hgone⟩
    · left
      simp [Others.act, hremoved, hunwritten, hsame]
    · right
      simp [Others.act, hremoved, hunwritten, hnone, hgone]

theorem then_call {op : Op} {Q : Except Exc op.Ans → Run → Prop} (h : Sees cfg s v r)
    (hop : ∀ r₀ a r', Sees cfg s v r₀ → Acts cfg op r₀ a r' → Q a r') :
    Then cfg s (ask op) Q r :=
  Co.holds_call op r fun a r' ⟨o, hacts⟩ => ⟨trivial, hop _ a r' (h.act o) hacts⟩

/-- The operation has its effect, with or without an exception, or it only raises. -/
theorem acts_cases {op : Op} {a : Except Exc op.Ans}
    (hexec : ∀ m w, exec cfg m op w = faulty cfg m op w) (h : Acts cfg op r a r') :
    (∃ m, r'.world = (effect cfg m op r.world).2 ∧
      (a = (effect cfg m op r.world).1 ∨ ∃ e, a = .error e)) ∨
    (r'.world = r.world ∧ ∃ e, a = .error e) := by
  obtain ⟨m, rfl, hworld⟩ := h
  rw [hexec] at hworld ⊢
  unfold faulty at hworld ⊢
  rcases hfault : m.fault with _ | ⟨e, _ | _⟩ <;> rw [hfault] at hworld
  · exact .inl ⟨m, hworld, .inl rfl⟩
  · exact .inr ⟨hworld, e, rfl⟩
  · exact .inl ⟨m, hworld, .inr ⟨e, rfl⟩⟩

/-- Operations that leave everything in the view as it is. -/
def Gentle (s : Start) : Op → Prop
  | .getById _ => True
  | .acquire _ => True
  | .release _ => True
  | .setTotalBytes id _ => id = s.row.id
  | .expectedSize _ => True
  | .mkdir _ => True
  | .isFile _ => True
  | .diskFree => True
  | .validateDownloadUrl _ => True
  | _ => False

theorem shows_update {status status' : FetchStatus} {name name' : Option String} {t : Table}
    {f : LoraFetch → LoraFetch} (h : Shows s status name t) (hid : ∀ r, (f r).id = r.id)
    (hrow : ∀ r, r.status = status → r.destName = name →
      (f r).status = status' ∧ (f r).destName = name') :
    Shows s status' name' (t.update s.row.id f) := by
  obtain ⟨row, hget, hstatus, hname⟩ := h
  refine ⟨f row, ?_, hrow row hstatus hname⟩
  rw [getById_update hid, hget]
  rfl

theorem shows_setProgress {status : FetchStatus} {name : Option String} {t : Table}
    (progress now : Nat) (h : Shows s status name t) :
    Shows s status name (t.setProgress s.row.id progress now) :=
  shows_update h (fun _ => rfl) fun _ hst hn => ⟨hst, hn⟩

theorem sees_of {w : World} {v' : View} (hworld : r'.world = w)
    (hrow : Shows s v'.status v'.destName w.table)
    (hfiles : ∀ p, Mine cfg s p → Shown w v'.files p)
    (hmetadata : w.metadata = v'.metadata) (hsidecar : w.sidecar = v'.sidecar)
    (hdownloaded : w.downloaded = v'.downloaded) : Sees cfg s v' r' := by
  subst hworld
  exact ⟨hrow, hfiles, hmetadata, hsidecar, hdownloaded⟩

theorem Sees.same (h : Sees cfg s v r) (hworld : r'.world = r.world) : Sees cfg s v r' :=
  sees_of hworld h.row h.files h.metadata h.sidecar h.downloaded

theorem sees_effect_gentle {op : Op} (hop : Gentle s op) (m : Meet) (h : Sees cfg s v r)
    (hworld : r'.world = (effect cfg m op r.world).2) : Sees cfg s v r' := by
  cases op with
  | setTotalBytes id total =>
    obtain rfl : id = s.row.id := hop
    refine sees_of hworld ?_ h.files h.metadata h.sidecar h.downloaded
    exact shows_update h.row (fun _ => rfl) fun _ hst hn => ⟨hst, hn⟩
  | getById _ => exact h.same hworld
  | acquire _ => exact h.same hworld
  | release _ => exact h.same hworld
  | expectedSize _ => exact h.same hworld
  | mkdir _ => exact h.same hworld
  | isFile _ => exact h.same hworld
  | diskFree => exact h.same hworld
  | validateDownloadUrl _ => exact h.same hworld
  | setStatus _ _ => cases hop
  | setFailed _ _ _ _ => cases hop
  | setDestName _ _ => cases hop
  | fetchMetadata _ => cases hop
  | writeSidecar _ _ => cases hop
  | evictFor _ => cases hop
  | streamDownload _ _ _ _ => cases hop
  | unlinkQuiet _ => cases hop
  | replace _ _ => cases hop

theorem sees_gentle {op : Op} (hop : Gentle s op) {a : Except Exc op.Ans} (h : Sees cfg s v r)
    (hdoes : Acts cfg op r a r') : Sees cfg s v r' := by
  have hexec : ∀ m w, exec cfg m op w = faulty cfg m op w := by
    cases op <;> first | exact fun _ _ => rfl | cases hop
  rcases acts_cases hexec hdoes with ⟨m, hworld, -⟩ | ⟨hworld, -⟩
  · exact sees_effect_gentle hop m h hworld
  · exact h.same hworld

theorem then_gentle (op : Op) (hop : Gentle s op) (h : Sees cfg s v r) :
    Then cfg s (ask op) (fun _ r' => Sees cfg s v r') r :=
  then_call h fun _ _ _ h hdoes => sees_gentle hop h hdoes

/-- A file that is not found has gone, if it was there. -/
theorem then_isFile {p : Path} (hmine : Mine cfg s p) (h : Sees cfg s v r) :
    Then cfg s (ask (.isFile p)) (fun a r' => Sees cfg s v r' ∧ ∀ present, a = .ok present →
      if present then v.files p ≠ none
      else Sees cfg s { v with files := put v.files p none } r') r := by
  refine then_call h fun r a r' h hdoes => ?_
  have hop : Gentle s (.isFile p) := trivial
  refine ⟨sees_gentle hop h hdoes, ?_⟩
  rintro present rfl
  have hanswer : present = (r.world.files p).isSome ∧ r'.world = r.world := by
    rcases acts_cases (fun _ _ => rfl) hdoes with ⟨m, hworld, ha | ⟨e, ha⟩⟩ | ⟨-, e, ha⟩
    · exact ⟨Except.ok.inj ha, hworld⟩
    · cases ha
    · cases ha
  obtain ⟨rfl, hworld⟩ := hanswer
  rcases hfile : r.world.files p with _ | content
  · simp only [Option.isSome_none, Bool.false_eq_true, if_false]
    refine sees_of hworld h.row (fun q hq => ?_) h.metadata h.sidecar h.downloaded
    by_cases hqp : q = p
    · left
      simp [hqp, put, hfile]
    · have hshown := h.files q hq
      simpa [Shown, put, hqp] using hshown
  · simp only [Option.isSome_some, if_true]
    rw [(h.files p hmine).file hfile]
    exact fun hnone => by cases hnone

/-! ## Operations on the row -/

theorem transition_shows {status target : FetchStatus} {name : Option String} {t : Table}
    {f : LoraFetch → LoraFetch} (h : Shows s status name t) (hid : ∀ r, (f r).id = r.id)
    (hstatus : ∀ r, (f r).status = target) (hname : ∀ r, (f r).destName = r.destName)
    (hallowed : target ∈ allowedTransitions status) :
    ∃ t', t.transition s.row.id target f = .ok t' ∧ Shows s target name t' := by
  obtain ⟨row, hget, rfl, rfl⟩ := h
  refine ⟨t.update s.row.id f, transition_allowed hget hallowed, ?_⟩
  exact shows_update ⟨row, hget, rfl, rfl⟩ hid fun r _ hn => ⟨hstatus r, (hname r).trans hn⟩

/-- A step of the row, whether or not it raises after its commit. -/
theorem then_setStatus (target : FetchStatus) (hallowed : target ∈ allowedTransitions v.status)
    (h : Sees cfg s v r) :
    Then cfg s (ask (.setStatus s.row.id target)) (fun a r' =>
      Sees cfg s { v with status := target } r' ∨ ((∃ e, a = .error e) ∧ Sees cfg s v r')) r := by
  refine then_call h fun r a r' h hdoes => ?_
  rcases acts_cases (fun _ _ => rfl) hdoes with ⟨m, hworld, -⟩ | ⟨hworld, he⟩
  · obtain ⟨t', ht', hshows⟩ := transition_shows (f := fun r => { r with
      status := target, updatedAt := m.now }) h.row (fun _ => rfl) (fun _ => rfl) (fun _ => rfl)
      hallowed
    have heffect : (effect cfg m (.setStatus s.row.id target) r.world).2 =
        { r.world with table := t' } := by
      simp [effect, fetch_dedupe.execFetch, Table.setStatus, ht', fetch_dedupe.tableWrite]
    rw [heffect] at hworld
    exact .inl (sees_of hworld hshows h.files h.metadata h.sidecar h.downloaded)
  · exact .inr ⟨he, h.same hworld⟩

theorem then_setDestName (name : String) (h : Sees cfg s v r) :
    Then cfg s (ask (.setDestName s.row.id name)) (fun a r' =>
      Sees cfg s { v with destName := some name } r' ∨
      ((∃ e, a = .error e) ∧ Sees cfg s v r')) r := by
  refine then_call h fun r a r' h hdoes => ?_
  rcases acts_cases (fun _ _ => rfl) hdoes with ⟨m, hworld, -⟩ | ⟨hworld, he⟩
  · have hshows : Shows s v.status (some name) (r.world.table.setDestName s.row.id name m.now) :=
      shows_update h.row (fun _ => rfl) fun _ hst _ => ⟨hst, rfl⟩
    exact .inl (sees_of hworld hshows h.files h.metadata h.sidecar h.downloaded)
  · exact .inr ⟨he, h.same hworld⟩

/-- The write that records a failure, on any row. -/
theorem then_setFailed (h : Ends cfg s before r) (code message : String) (handover : Bool) :
    Then cfg s (ask (.setFailed s.row.id code message handover))
      (fun _ r' => Ends cfg s before r') r := by
  obtain ⟨v, hsees, hkept⟩ := h
  refine then_call hsees fun r a r' hsees hdoes => ?_
  rcases acts_cases (fun _ _ => rfl) hdoes with ⟨m, hworld, -⟩ | ⟨hworld, -⟩
  · by_cases hallowed : FetchStatus.failed ∈ allowedTransitions v.status
    · obtain ⟨t', ht', hshows⟩ := transition_shows (f := fun r => { r with
        status := .failed, errorCode := some code, errorMessage := some message,
        handover := handover, updatedAt := m.now }) hsees.row (fun _ => rfl) (fun _ => rfl)
        (fun _ => rfl) hallowed
      have heffect : (effect cfg m (.setFailed s.row.id code message handover) r.world).2 =
          { r.world with table := t' } := by
        simp [effect, fetch_dedupe.execFetch, Table.setFailed, ht', fetch_dedupe.tableWrite]
      rw [heffect] at hworld
      exact ⟨{ v with status := .failed }, sees_of hworld hshows hsees.files hsees.metadata
        hsees.sidecar hsees.downloaded, hkept.row .failed (by decide) _⟩
    · obtain ⟨row, hget, hstatus, -⟩ := hsees.row
      have hrefused : r.world.table.setFailed s.row.id code message handover m.now =
          .error (.invalidTransition row.status .failed) :=
        transition_refused hget (by rwa [hstatus])
      refine ⟨v, hsees.same (hworld.trans ?_), hkept⟩
      simp [effect, fetch_dedupe.execFetch, hrefused, fetch_dedupe.tableWrite]
  · exact ⟨v, hsees.same hworld, hkept⟩

/-! ## Operations on the files -/

theorem Shown.write {w : World} {files : Path → Option Bytes} {p : Path} (h : Shown w files p)
    (q : Path) (content : Bytes) :
    Shown (w.write q content) (put files q (some content)) p := by
  unfold Shown put at *
  by_cases hp : p = q
  · simp [World.write, put, hp]
  · simpa [World.write, put, hp] using h

theorem Shown.remove {w : World} {files : Path → Option Bytes} {p : Path} (h : Shown w files p)
    (q : Path) : Shown (w.remove q) (put files q none) p := by
  unfold Shown put at *
  by_cases hp : p = q
  · simp [World.remove, put, hp]
  · simpa [World.remove, put, hp] using h

theorem then_metadata (version : Int) (h : Sees cfg s v r) :
    Then cfg s (ask (.fetchMetadata version)) (fun a r' =>
      (∀ fields, a = .ok fields → Sees cfg s { v with metadata := some fields } r') ∧
        ∃ metadata, Sees cfg s { v with metadata := metadata } r') r := by
  refine then_call h fun r a r' h hdoes => ?_
  rcases acts_cases (fun _ _ => rfl) hdoes with ⟨m, hworld, ha⟩ | ⟨hworld, e, rfl⟩
  · have hsees : Sees cfg s { v with metadata := some (m.answer (.fetchMetadata version)) } r' :=
      sees_of hworld h.row h.files rfl h.sidecar h.downloaded
    refine ⟨?_, _, hsees⟩
    rintro fields rfl
    rcases ha with ha | ⟨e, ha⟩
    · rwa [show fields = m.answer (.fetchMetadata version) from Except.ok.inj ha]
    · cases ha
  · exact ⟨nofun, v.metadata, h.same hworld⟩

/-- The eviction brings no file back. -/
theorem then_evictFor (size : Int) (h : Sees cfg s v r) :
    Then cfg s (ask (.evictFor size)) (fun _ r' =>
      ∃ files, (∀ p, v.files p = none → files p = none) ∧
        Sees cfg s { v with files := files } r') r := by
  refine then_call h fun r a r' h hdoes => ?_
  rcases acts_cases (fun _ _ => rfl) hdoes with ⟨m, hworld, -⟩ | ⟨hworld, -⟩
  · refine ⟨fun p => if p ∈ m.evicted then none else v.files p, fun p hp => ?_,
      sees_of hworld h.row (fun p hmine => ?_) h.metadata h.sidecar h.downloaded⟩
    · simp [hp]
    · have hshown := h.files p hmine
      unfold Shown at *
      by_cases hevicted : p ∈ m.evicted
      · simp [effect, hevicted]
      · simpa [effect, hevicted] using hshown
  · exact ⟨v.files, fun _ hp => hp, h.same hworld⟩

/-- The digest is that of the temporary file. -/
theorem then_streamDownload (url : String) (tmp : Path) (size : Int) (h : Sees cfg s v r) :
    Then cfg s (ask (.streamDownload s.row.id url tmp size)) (fun a r' =>
      (∀ sha, a = .ok sha → ∃ content, sha = cfg.sha256 content ∧
        Sees cfg s { v with files := put v.files tmp (some content), downloaded := true } r') ∧
      ∃ files downloaded, Sees cfg s { v with files := files, downloaded := downloaded } r') r := by
  refine then_call h fun r a r' h hdoes => ?_
  rcases acts_cases (fun _ _ => rfl) hdoes with ⟨m, hworld, ha⟩ | ⟨hworld, e, rfl⟩
  · have hrow : Shows s v.status v.destName (stream cfg m s.row.id size r.world.table).2.table :=
      stream_download.table_streamDownload (P := Shows s v.status v.destName)
        (fun _ progress now => shows_setProgress progress now) h.row _ _
    have hsees : Sees cfg s { v with
        files := put v.files tmp (some (stream cfg m s.row.id size r.world.table).2.file)
        downloaded := true } r' := by
      refine sees_of hworld hrow (fun p hmine => ?_) h.metadata h.sidecar rfl
      exact (h.files p hmine).write tmp _
    refine ⟨?_, _, _, hsees⟩
    rintro sha rfl
    rcases ha with ha | ⟨e, ha⟩
    · exact ⟨_, stream_download.digest_eq ha.symm, hsees⟩
    · cases ha
  · exact ⟨nofun, v.files, v.downloaded, h.same hworld⟩

theorem then_unlinkQuiet (p : Path) (h : Sees cfg s v r) :
    Then cfg s (ask (.unlinkQuiet p)) (fun _ r' =>
      ∃ files, Sees cfg s { v with files := files } r') r := by
  refine then_call h fun r a r' h hdoes => ?_
  obtain ⟨m, -, hworld⟩ := hdoes
  simp only [exec] at hworld
  split at hworld
  · exact ⟨put v.files p none, sees_of hworld h.row (fun q hmine => (h.files q hmine).remove p)
      h.metadata h.sidecar h.downloaded⟩
  · exact ⟨v.files, h.same hworld⟩

theorem then_writeSidecar (p : Path) (sidecar : Sidecar) (h : Sees cfg s v r) :
    Then cfg s (ask (.writeSidecar p sidecar)) (fun a r' =>
      (∃ text, Sees cfg s { v with
        files := put v.files p (some text), sidecar := some sidecar } r') ∨
      ((∃ e, a = .error e) ∧ Sees cfg s v r')) r := by
  refine then_call h fun r a r' h hdoes => ?_
  rcases acts_cases (fun _ _ => rfl) hdoes with ⟨m, hworld, -⟩ | ⟨hworld, he⟩
  · exact .inl ⟨m.sidecarText, sees_of hworld h.row
      (fun q hmine => (h.files q hmine).write p m.sidecarText) h.metadata rfl h.downloaded⟩
  · exact .inr ⟨he, h.same hworld⟩

/-- The file to be renamed may have gone. -/
theorem then_replace {src : Path} (dst : Path) {content : Bytes} (hmine : Mine cfg s src)
    (h : Sees cfg s v r) (hsrc : v.files src = some content) :
    Then cfg s (ask (.replace src dst)) (fun a r' =>
      Sees cfg s { v with files := moved v.files src dst content } r' ∨
      ((∃ e, a = .error e) ∧ Sees cfg s v r')) r := by
  refine then_call h fun r a r' h hdoes => ?_
  rcases acts_cases (fun _ _ => rfl) hdoes with ⟨m, hworld, ha⟩ | ⟨hworld, he⟩
  · rcases hfile : r.world.files src with _ | content'
    · have heffect : effect cfg m (.replace src dst) r.world =
          (.error (.os "" false), r.world) := by
        simp [effect, hfile]
      rw [heffect] at hworld ha
      refine .inr ⟨?_, h.same hworld⟩
      rcases ha with ha | he
      · exact ⟨_, ha⟩
      · exact he
    · obtain rfl : content' = content := by
        rw [(h.files src hmine).file hfile] at hsrc
        exact Option.some.inj hsrc
      have heffect : (effect cfg m (.replace src dst) r.world).2 =
          (r.world.remove src).write dst content' := by
        simp [effect, hfile]
      rw [heffect] at hworld
      exact .inl (sees_of hworld h.row
        (fun p hp => ((h.files p hp).remove src).write dst content') h.metadata h.sidecar
        h.downloaded)
  · exact .inr ⟨he, h.same hworld⟩

end Views

/-! ## The fetch -/

section Fetch

variable {cfg : Setting} {s : Start} {before : Path → Option Bytes} {v : View} {r : Run}
  {α : Type}

/-- Nothing is said of a hash yet. -/
structure Clean (v : View) : Prop where
  notDone : v.status ≠ .done
  noSidecar : v.sidecar = none

theorem Clean.kept (h : Clean v) : Kept cfg s before v := kept_of_clean h.notDone h.noSidecar

/-- A step of `_fetch`, which goes on at `A`. -/
def Goes (cfg : Setting) (s : Start) (before : Path → Option Bytes) (A : α → Run → Prop) :
    Except Exc α → Run → Prop
  | .ok a, r => A a r
  | .error _, r => Ends cfg s before r

theorem then_seq {p : Prog α} {f : α → Prog Unit} (A : α → Run → Prop)
    (hp : Then cfg s p (Goes cfg s before A) r)
    (hf : ∀ x r', A x r' → Then cfg s (f x) (fun _ r' => Ends cfg s before r') r') :
    Then cfg s (p >>= f) (fun _ r' => Ends cfg s before r') r := by
  refine Co.holds_bind (hp.mono fun a r' h => ?_)
  cases a with
  | ok x => exact hf x r' h
  | error e => exact h

/-- An operation with its effect on the view, or none. -/
theorem goes_of {p : Prog Unit} {v' : View} (hkept' : Kept cfg s before v')
    (hkept : Kept cfg s before v)
    (hp : Then cfg s p (fun a r' => Sees cfg s v' r' ∨ ((∃ e, a = .error e) ∧ Sees cfg s v r')) r) :
    Then cfg s p (Goes cfg s before fun _ => Sees cfg s v') r := by
  refine hp.mono fun a r' hways => ?_
  rcases hways with hsees | ⟨⟨e, rfl⟩, hsees⟩
  · cases a with
    | ok x => exact hsees
    | error e => exact ⟨v', hsees, hkept'⟩
  · exact ⟨v, hsees, hkept⟩

theorem goes_gentle (op : Op) (hop : Gentle s op) (h : Sees cfg s v r)
    (hkept : Kept cfg s before v) :
    Then cfg s (ask op) (Goes cfg s before fun _ => Sees cfg s v) r := by
  refine (then_gentle op hop h).mono fun a r' hsees => ?_
  cases a with
  | ok x => exact hsees
  | error e => exact ⟨v, hsees, hkept⟩

theorem then_fail (h : Ends cfg s before r) (f : Failure) :
    Then cfg s (setFailed s.row f) (fun _ r' => Ends cfg s before r') r :=
  then_setFailed h f.1 f.2 false

/-- An operation with handlers. -/
theorem then_attempt (op : Op) (A : op.Ans → Run → Prop) {f : Exc → Option Failure}
    {rest : op.Ans → Prog Unit} (hp : Then cfg s (ask op) (Goes cfg s before A) r)
    (hrest : ∀ x r', A x r' → Then cfg s (rest x) (fun _ r' => Ends cfg s before r') r') :
    Then cfg s (attempt op f >>= orFail s.row rest) (fun _ r' => Ends cfg s before r') r := by
  refine Co.holds_bind (Co.holds_tryCatch (Co.holds_bind (hp.mono fun a r' h => ?_)))
  cases a with
  | ok x => exact hrest x r' h
  | error e =>
    dsimp only
    split
    · exact then_fail h _
    · exact h

variable {file : PrimaryFile} {metadata : List (String × Json)}

/-- Where the fetch puts the file. -/
def destOf (cfg : Setting) (s : Start) (file : PrimaryFile) : Path :=
  destPath cfg.lorasRoot (sanitizeSlug file.name) s.row.civitaiVersionId

def nameOf (s : Start) (file : PrimaryFile) : String :=
  canonicalName (sanitizeSlug file.name) s.row.civitaiVersionId

def sidecarOf (s : Start) (file : PrimaryFile) (metadata : List (String × Json)) : Sidecar :=
  ⟨nameOf s file, file.sha256.toLower, s.row.civitaiModelId, s.row.civitaiVersionId, metadata⟩

theorem nameFile_nameOf : nameFile cfg (nameOf s file) = destOf cfg s file := nameFile_eq _ _

theorem mine_dest : Mine cfg s (destOf cfg s file) := ⟨_, .inl rfl⟩

theorem mine_tmp : Mine cfg s (tmpPath (destOf cfg s file)) := ⟨_, .inr rfl⟩

theorem paths_ne (cfg : Setting) (s : Start) (file : PrimaryFile) :
    destOf cfg s file ≠ pathWithSuffix (destOf cfg s file) ".json" ∧
      destOf cfg s file ≠ tmpPath (destOf cfg s file) ∧
      tmpPath (destOf cfg s file) ≠ pathWithSuffix (destOf cfg s file) ".json" := by
  have hnodup := fetchPaths_nodup cfg.lorasRoot (sanitizeSlug file.name) s.row.civitaiVersionId
  simp only [fetchPaths, List.nodup_cons, List.mem_cons, not_or] at hnodup
  exact ⟨hnodup.1.1, hnodup.1.2.1, fun heq => hnodup.2.1.1 heq.symm⟩

theorem put_ne {files : Path → Option Bytes} {p q : Path} {content : Option Bytes} (h : q ≠ p) :
    put files p content q = files q := if_neg h

theorem put_same (files : Path → Option Bytes) (p : Path) (content : Option Bytes) :
    put files p content p = content := if_pos rfl

/-- The file of the row and of its sidecar. -/
structure Based (cfg : Setting) (s : Start) (before : Path → Option Bytes) (file : PrimaryFile)
    (v : View) : Prop where
  known : primaryFile cfg v.metadata = some file
  sidecar : ∀ sidecar, v.sidecar = some sidecar → ∃ metadata, sidecar = sidecarOf s file metadata
  sourced : ∀ content, v.files (destOf cfg s file) = some content →
    Sourced cfg before v.downloaded (destOf cfg s file) file.sha256.toLower content

theorem Based.sidecar_kept (h : Based cfg s before file v) {sidecar : Sidecar}
    (hsidecar : v.sidecar = some sidecar) :
    ∃ file, primaryFile cfg v.metadata = some file ∧ sidecar.sha256 = file.sha256.toLower ∧
      Mine cfg s (nameFile cfg sidecar.canonicalName) ∧
      ∀ content, v.files (nameFile cfg sidecar.canonicalName) = some content →
        Sourced cfg before v.downloaded (nameFile cfg sidecar.canonicalName) sidecar.sha256
          content := by
  obtain ⟨metadata, rfl⟩ := h.sidecar sidecar hsidecar
  refine ⟨file, h.known, rfl, ?_⟩
  rw [sidecarOf]
  dsimp only
  rw [nameFile_nameOf]
  exact ⟨mine_dest, h.sourced⟩

theorem Based.kept (h : Based cfg s before file v) (hnot : v.status ≠ .done) :
    Kept cfg s before v :=
  ⟨fun hdone => absurd hdone hnot, fun _ hsidecar => h.sidecar_kept hsidecar⟩

/-- A done row has its name, and its file is there. -/
theorem Based.kept_done (h : Based cfg s before file v) (hname : v.destName = some (nameOf s file))
    {content : Bytes} (hfile : v.files (destOf cfg s file) = some content) :
    Kept cfg s before v := by
  refine ⟨fun _ => ⟨nameOf s file, file, content, hname, h.known, ?_⟩,
    fun _ hsidecar => h.sidecar_kept hsidecar⟩
  rw [nameFile_nameOf]
  exact ⟨mine_dest, hfile, h.sourced content hfile⟩

/-- The last step, with the file in place. -/
theorem then_done (h : Sees cfg s v r) (hstatus : v.status = .verifying)
    (hbased : Based cfg s before file v) (hname : v.destName = some (nameOf s file))
    {content : Bytes} (hfile : v.files (destOf cfg s file) = some content) :
    Then cfg s (ask (.setStatus s.row.id .done)) (fun _ r' => Ends cfg s before r') r := by
  refine (then_setStatus .done (by rw [hstatus]; decide) h).mono fun a r' hways => ?_
  rcases hways with hsees | ⟨-, hsees⟩
  · have hbased' : Based cfg s before file { v with status := .done } :=
      ⟨hbased.known, hbased.sidecar, hbased.sourced⟩
    exact ⟨_, hsees, hbased'.kept_done hname hfile⟩
  · exact ⟨v, hsees, hbased.kept (by rw [hstatus]; decide)⟩

theorem Based.row (h : Based cfg s before file v) (status : FetchStatus) (name : Option String) :
    Based cfg s before file { v with status := status, destName := name } :=
  ⟨h.known, h.sidecar, h.sourced⟩

theorem then_finish (h : Sees cfg s v r) (hstatus : v.status = .verifying)
    (hbased : Based cfg s before file v) {content : Bytes}
    (hfile : v.files (destOf cfg s file) = some content) :
    Then cfg s (finish s.row (nameOf s file)) (fun _ r' => Ends cfg s before r') r := by
  have hnot : v.status ≠ .done := by
    rw [hstatus]
    decide
  refine then_seq (fun _ => Sees cfg s { v with destName := some (nameOf s file) })
    (goes_of ((hbased.row v.status _).kept hnot) (hbased.kept hnot) (then_setDestName _ h))
    fun _ r' h' => ?_
  exact then_done h' hstatus (hbased.row v.status _) rfl hfile

/-- A download that has given `sha`. -/
structure Loaded (cfg : Setting) (s : Start) (file : PrimaryFile) (sha : String) (v : View) :
    Prop where
  known : primaryFile cfg v.metadata = some file
  noSidecar : v.sidecar = none
  downloaded : v.downloaded = true
  free : v.files (destOf cfg s file) = none
  tmp : ∃ content, v.files (tmpPath (destOf cfg s file)) = some content ∧ cfg.sha256 content = sha

/-- The sidecar is there, and the rename is to come. -/
theorem then_rename (h : Sees cfg s v r) (hstatus : v.status = .verifying)
    (hbased : Based cfg s before file v) (hdownloaded : v.downloaded = true)
    {content : Bytes} (htmp : v.files (tmpPath (destOf cfg s file)) = some content)
    (hcontent : cfg.sha256 content = file.sha256.toLower) :
    Then cfg s (do
      ask (.replace (tmpPath (destOf cfg s file)) (destOf cfg s file))
      finish s.row (nameOf s file)) (fun _ r' => Ends cfg s before r') r := by
  have hnot : v.status ≠ .done := by
    rw [hstatus]
    decide
  have hfile : moved v.files (tmpPath (destOf cfg s file)) (destOf cfg s file) content
      (destOf cfg s file) = some content := put_same _ _ _
  have hinstalled : Based cfg s before file { v with
      files := moved v.files (tmpPath (destOf cfg s file)) (destOf cfg s file) content } := by
    refine ⟨hbased.known, hbased.sidecar, fun content' hcontent' => ?_⟩
    dsimp only at hcontent'
    rw [hfile, Option.some.injEq] at hcontent'
    simp only [Sourced, hdownloaded, if_true, ← hcontent', hcontent]
  refine then_seq (fun _ => Sees cfg s { v with
      files := moved v.files (tmpPath (destOf cfg s file)) (destOf cfg s file) content })
    (goes_of (hinstalled.kept hnot) (hbased.kept hnot) (then_replace _ mine_tmp h htmp))
    fun _ r' h' => ?_
  exact then_finish h' hstatus hinstalled hfile

theorem then_install {sha : String} (h : Sees cfg s v r) (hstatus : v.status = .downloading)
    (hloaded : Loaded cfg s file sha v) :
    Then cfg s (install s.row file metadata (nameOf s file) (destOf cfg s file)
      (tmpPath (destOf cfg s file)) sha) (fun _ r' => Ends cfg s before r') r := by
  have hclean : ∀ status : FetchStatus, status ≠ .done → ∀ files,
      Clean { v with status := status, files := files } :=
    fun _ hnot _ => ⟨hnot, hloaded.noSidecar⟩
  have hnot : v.status ≠ .done := by
    rw [hstatus]
    decide
  obtain ⟨hsidecar, hdest, htmp⟩ := paths_ne cfg s file
  refine then_seq (fun _ => Sees cfg s { v with status := .verifying })
    (goes_of (hclean .verifying (by decide) _).kept (hclean _ hnot _).kept
      (then_setStatus .verifying (by rw [hstatus]; decide) h)) fun _ r₁ h₁ => ?_
  split
  · refine Co.holds_bind ((then_unlinkQuiet _ h₁).mono fun a r₂ ⟨files, h₂⟩ => ?_)
    have hends : Ends cfg s before r₂ := ⟨_, h₂, (hclean .verifying (by decide) _).kept⟩
    cases a with
    | ok x => exact then_fail hends _
    | error e => exact hends
  · rename_i hsame
    obtain ⟨content, hfile, hcontent⟩ := hloaded.tmp
    have hbased : ∀ text : Bytes, Based cfg s before file { v with
        status := .verifying
        files := put v.files (pathWithSuffix (destOf cfg s file) ".json") (some text)
        sidecar := some (sidecarOf s file metadata) } := by
      intro text
      refine ⟨hloaded.known, fun sidecar hsome => ⟨metadata, (Option.some.inj hsome).symm⟩, ?_⟩
      intro content' hcontent'
      dsimp only at hcontent'
      rw [put_ne hsidecar, hloaded.free] at hcontent'
      cases hcontent'
    refine Co.holds_bind ((then_writeSidecar _ (sidecarOf s file metadata) h₁).mono
      fun a r₂ hways => ?_)
    rcases hways with ⟨text, h₂⟩ | ⟨⟨e, rfl⟩, h₂⟩
    · cases a with
      | ok x =>
        exact then_rename h₂ rfl (hbased text) hloaded.downloaded ((put_ne htmp).trans hfile)
          (hcontent.trans (not_not.mp hsame))
      | error e => exact ⟨_, h₂, (hbased text).kept nofun⟩
    · exact ⟨_, h₂, (hclean .verifying (by decide) _).kept⟩

/-- Before a file is taken or downloaded. -/
structure Ready (cfg : Setting) (file : PrimaryFile) (v : View) : Prop extends Clean v where
  status : v.status = .downloading
  known : primaryFile cfg v.metadata = some file
  fresh : v.downloaded = false

theorem Ready.files (h : Ready cfg file v) (files : Path → Option Bytes) :
    Ready cfg file { v with files := files } :=
  ⟨⟨h.notDone, h.noSidecar⟩, h.status, h.known, h.fresh⟩

theorem then_download (size : Int) (h : Sees cfg s v r) (hready : Ready cfg file v)
    (hfree : v.files (destOf cfg s file) = none) :
    Then cfg s (download cfg.toConfig s.row file metadata (nameOf s file) (destOf cfg s file) size)
      (fun _ r' => Ends cfg s before r') r := by
  obtain ⟨-, htmp, -⟩ := paths_ne cfg s file
  refine then_attempt (.validateDownloadUrl _) (fun _ => Sees cfg s v)
    (goes_gentle _ trivial h hready.toClean.kept) fun _ r₁ h₁ => ?_
  refine Co.holds_bind (Co.holds_tryCatch (Co.holds_bind
    ((then_streamDownload _ _ _ h₁).mono fun a r₂ ⟨hok, files, downloaded, hany⟩ => ?_)))
  have hclean : ∀ files downloaded, Clean { v with files := files, downloaded := downloaded } :=
    fun _ _ => ⟨hready.notDone, hready.noSidecar⟩
  cases a with
  | ok sha =>
    obtain ⟨content, hsha, h₂⟩ := hok sha rfl
    refine then_install h₂ hready.status
      ⟨hready.known, hready.noSidecar, rfl, ?_, content, put_same _ _ _, hsha.symm⟩
    exact (put_ne htmp).trans hfree
  | error e =>
    dsimp only
    split
    · refine Co.holds_bind ((then_unlinkQuiet _ hany).mono fun a r₃ ⟨files', h₃⟩ => ?_)
      have hends : Ends cfg s before r₃ := ⟨_, h₃, (hclean files' downloaded).kept⟩
      cases a with
      | ok x => exact then_fail hends _
      | error e => exact hends
    · exact ⟨_, hany, (hclean files downloaded).kept⟩

/-- The end of the short-circuit. -/
theorem then_taken (h : Sees cfg s v r) (hstatus : v.status = .downloading)
    (hbased : Based cfg s before file v) {content : Bytes}
    (hfile : v.files (destOf cfg s file) = some content) :
    Then cfg s (do
      ask (.setDestName s.row.id (nameOf s file))
      ask (.setStatus s.row.id .verifying)
      ask (.setStatus s.row.id .done)) (fun _ r' => Ends cfg s before r') r := by
  have hnot : v.status ≠ .done := by
    rw [hstatus]
    decide
  have hnamed : ∀ status : FetchStatus, status ≠ .done →
      Kept cfg s before { v with status := status, destName := some (nameOf s file) } :=
    fun status hst => (hbased.row status _).kept hst
  refine then_seq (fun _ => Sees cfg s { v with destName := some (nameOf s file) })
    (goes_of (hnamed _ hnot) (hbased.kept hnot) (then_setDestName _ h)) fun _ r₁ h₁ => ?_
  refine then_seq
    (fun _ => Sees cfg s { v with destName := some (nameOf s file), status := .verifying })
    (goes_of (hnamed _ (by decide)) (hnamed _ hnot)
      (then_setStatus .verifying (by dsimp only; rw [hstatus]; decide) h₁)) fun _ r₂ h₂ => ?_
  exact then_done h₂ rfl (hbased.row _ _) rfl hfile

theorem then_takeExisting (h : Sees cfg s v r) (hready : Ready cfg file v) {content : Bytes}
    (hfile : v.files (destOf cfg s file) = some content)
    (hold : before (destOf cfg s file) = some content) :
    Then cfg s (takeExisting s.row file metadata (nameOf s file) (destOf cfg s file))
      (fun _ r' => Ends cfg s before r') r := by
  obtain ⟨hsidecar, -, -⟩ := paths_ne cfg s file
  have hsourced : ∀ files : Path → Option Bytes, files (destOf cfg s file) = some content →
      ∀ content', files (destOf cfg s file) = some content' →
        Sourced cfg before v.downloaded (destOf cfg s file) file.sha256.toLower content' := by
    intro files hkeeps content' hcontent'
    rw [hkeeps, Option.some.injEq] at hcontent'
    simp [Sourced, hready.fresh, hold, hcontent']
  refine then_seq (fun _ => Sees cfg s v) (goes_gentle (.isFile _) trivial h hready.toClean.kept)
    fun hasSidecar r₁ h₁ => ?_
  split
  · refine then_taken h₁ hready.status ⟨hready.known, fun sidecar hsome => ?_, ?_⟩ hfile
    · rw [hready.noSidecar] at hsome
      cases hsome
    · exact hsourced v.files hfile
  · have hkeeps : ∀ text : Bytes, put v.files (pathWithSuffix (destOf cfg s file) ".json")
        (some text) (destOf cfg s file) = some content := fun _ => (put_ne hsidecar).trans hfile
    have hbased : ∀ text : Bytes, Based cfg s before file { v with
        files := put v.files (pathWithSuffix (destOf cfg s file) ".json") (some text)
        sidecar := some (sidecarOf s file metadata) } := fun text =>
      ⟨hready.known, fun sidecar hsome => ⟨metadata, (Option.some.inj hsome).symm⟩,
        hsourced _ (hkeeps text)⟩
    refine Co.holds_bind ((then_writeSidecar _ (sidecarOf s file metadata) h₁).mono
      fun a r₂ hways => ?_)
    rcases hways with ⟨text, h₂⟩ | ⟨⟨e, rfl⟩, h₂⟩
    · cases a with
      | ok x => exact then_taken h₂ hready.status (hbased text) (hkeeps text)
      | error e => exact ⟨_, h₂, (hbased text).kept hready.notDone⟩
    · exact ⟨v, h₂, hready.toClean.kept⟩

theorem then_makeRoom (size : Int) {rest : Prog Unit} (h : Sees cfg s v r) (hready : Ready cfg file v)
    (hfree : v.files (destOf cfg s file) = none)
    (hrest : ∀ files r', files (destOf cfg s file) = none →
      Sees cfg s { v with files := files } r' →
      Then cfg s rest (fun _ r'' => Ends cfg s before r'') r') :
    Then cfg s (makeRoom s.row size rest) (fun _ r' => Ends cfg s before r') r := by
  refine then_seq (fun _ => Sees cfg s v) (goes_gentle .diskFree trivial h hready.toClean.kept)
    fun free r₁ h₁ => ?_
  split
  · refine then_attempt (.evictFor _) (fun _ r₂ => ∃ files, files (destOf cfg s file) = none ∧
      Sees cfg s { v with files := files } r₂) ?_
      fun _ r₂ ⟨files, hnone, h₂⟩ => hrest files r₂ hnone h₂
    refine (then_evictFor _ h₁).mono fun a r₂ ⟨files, hgone, h₂⟩ => ?_
    cases a with
    | ok x => exact ⟨files, hgone _ hfree, h₂⟩
    | error e => exact ⟨_, h₂, (hready.files files).toClean.kept⟩
  · exact hrest v.files r₁ hfree h₁

theorem then_fetchFile (size : Int) (h : Sees cfg s v r) (hready : Ready cfg file v)
    (hbefore : v.files = before) :
    Then cfg s (fetchFile cfg.toConfig s.row file metadata size)
      (fun _ r' => Ends cfg s before r') r := by
  refine then_seq (fun _ => Sees cfg s v) (goes_gentle (.mkdir _) trivial h hready.toClean.kept)
    fun _ r₁ h₁ => ?_
  refine Co.holds_bind ((then_isFile mine_dest h₁).mono fun a r₂ ⟨h₂, hpresent⟩ => ?_)
  cases a with
  | error e => exact ⟨v, h₂, hready.toClean.kept⟩
  | ok present =>
    have hfound := hpresent present rfl
    dsimp only
    split
    · rename_i hyes
      rw [if_pos hyes] at hfound
      obtain ⟨content, hfile⟩ := Option.ne_none_iff_exists'.mp hfound
      exact then_takeExisting h₂ hready hfile (hbefore ▸ hfile)
    · rename_i hno
      rw [if_neg hno] at hfound
      exact then_makeRoom size hfound (hready.files _) (put_same _ _ _)
        fun files r₃ hnone h₃ => then_download size h₃ (hready.files files) hnone

theorem then_fetchPrimary (h : Sees cfg s v r) (hclean : Clean v)
    (hstatus : v.status = .downloading) (hfresh : v.downloaded = false) (hbefore : v.files = before)
    (hmetadata : v.metadata = some metadata) :
    Then cfg s (fetchPrimary cfg.toConfig s.row metadata) (fun _ r' => Ends cfg s before r') r := by
  have hends : ∀ {r'}, Sees cfg s v r' → Ends cfg s before r' := fun h' => ⟨v, h', hclean.kept⟩
  unfold fetchPrimary
  rcases hpick : pickPrimaryFile cfg.repr metadata with message | file
  · exact then_fail (hends h) _
  · have hready : Ready cfg file v := by
      refine ⟨hclean, hstatus, ?_, hfresh⟩
      rw [hmetadata, primaryFile, Option.bind_some, hpick]
      rfl
    refine then_seq (fun _ => Sees cfg s v) (goes_gentle (.expectedSize _) trivial h hclean.kept)
      fun size r₁ h₁ => ?_
    split
    · exact then_fail (hends h₁) _
    · split
      · exact then_seq (fun _ => Sees cfg s v) (goes_gentle (.setTotalBytes _ _) rfl h₁ hclean.kept)
          fun _ r₂ h₂ => then_fetchFile size h₂ hready hbefore
      · exact then_fetchFile size h₁ hready hbefore

/-- The row is pending, and the fetch has done nothing. -/
structure Begins (before : Path → Option Bytes) (v : View) : Prop extends Clean v where
  pending : v.status = .pending
  fresh : v.downloaded = false
  files : v.files = before

theorem then_fetch (h : Sees cfg s v r) (hbegins : Begins before v) :
    Then cfg s (fetch cfg.toConfig s.row) (fun _ r' => Ends cfg s before r') r := by
  have hclean : ∀ metadata, Clean { v with status := .downloading, metadata := metadata } :=
    fun _ => ⟨nofun, hbegins.noSidecar⟩
  refine then_seq (fun _ => Sees cfg s { v with status := .downloading })
    (goes_of (hclean v.metadata).kept hbegins.toClean.kept
      (then_setStatus .downloading (by rw [hbegins.pending]; decide) h)) fun _ r₁ h₁ => ?_
  refine then_attempt (.fetchMetadata _)
    (fun metadata => Sees cfg s { v with status := .downloading, metadata := some metadata }) ?_
    fun metadata r₂ h₂ => then_fetchPrimary h₂ (hclean _) rfl hbegins.fresh hbegins.files rfl
  refine (then_metadata _ h₁).mono fun a r₂ ⟨hok, metadata, hany⟩ => ?_
  cases a with
  | ok fields => exact hok fields rfl
  | error e => exact ⟨_, hany, (hclean metadata).kept⟩

theorem then_guarded (h : Sees cfg s v r) (hbegins : Begins before v) :
    Then cfg s (guarded cfg.toConfig s.row) (fun _ r' => Ends cfg s before r') r := by
  refine Co.holds_tryCatch ((then_fetch h hbegins).mono fun a r₁ h₁ => ?_)
  cases a with
  | ok _ => exact h₁
  | error e =>
    dsimp only
    split
    · refine Co.holds_bind ((then_setFailed h₁ _ _ _).mono fun a r₂ h₂ => ?_)
      cases a <;> exact h₂
    · exact then_setFailed h₁ _ _ _

theorem then_release (h : Ends cfg s before r) (version : Int) :
    Then cfg s (ask (.release version)) (fun _ r' => Ends cfg s before r') r := by
  obtain ⟨v, hsees, hkept⟩ := h
  exact (then_gentle (.release version) trivial hsees).mono fun _ _ h' => ⟨v, h', hkept⟩

theorem then_locked (h : Sees cfg s v r) (hbegins : Begins before v) :
    Then cfg s (do
      tryCatch (guarded cfg.toConfig s.row) fun e => do
        ask (.release s.row.civitaiVersionId)
        throw e
      ask (.release s.row.civitaiVersionId)) (fun _ r' => Ends cfg s before r') r := by
  refine Co.holds_bind (Co.holds_tryCatch ((then_guarded h hbegins).mono fun a r₁ h₁ => ?_))
  cases a with
  | ok _ => exact then_release h₁ _
  | error e =>
    refine Co.holds_bind ((then_release h₁ _).mono fun a r₂ h₂ => ?_)
    cases a <;> exact h₂

end Fetch

/-! ## The task -/

/-- What is seen of a first run. -/
def firstView (s : Start) (before : Path → Option Bytes) : View :=
  ⟨.pending, s.row.destName, before, none, none, false⟩

theorem then_runFetch (cfg : Setting) (s : Start) (before : Path → Option Bytes) :
    Then cfg s (runFetch cfg.toConfig s.row.id) (fun _ r' => Ends cfg s before r')
      (first s before) := by
  have hsees : Sees cfg s (firstView s before) (first s before) :=
    ⟨⟨s.row, s.present, s.pending, rfl⟩, fun _ _ => .inl rfl, rfl, rfl, rfl⟩
  have hbegins : Begins before (firstView s before) := ⟨⟨nofun, rfl⟩, rfl, rfl, rfl⟩
  refine Co.holds_bind (Co.holds_call _ _ fun a r₁ ⟨o, hacts⟩ => ⟨trivial, ?_⟩)
  have hop : Gentle s (.getById s.row.id) := trivial
  have h₁ := sees_gentle hop (hsees.act o) hacts
  have hfound : a = .ok (some s.row) ∨ ∃ e, a = .error e := by
    rcases acts_cases (fun _ _ => rfl) hacts with ⟨m, -, rfl | he⟩ | ⟨-, he⟩
    · left
      rw [← s.present]
      rfl
    · exact .inr he
    · exact .inr he
  rcases hfound with rfl | ⟨e, rfl⟩
  · exact then_seq (fun _ => Sees cfg s (firstView s before))
      (goes_gentle (.acquire _) trivial h₁ hbegins.toClean.kept)
      fun _ r₂ h₂ => then_locked h₂ hbegins
  · exact ⟨_, h₁, hbegins.toClean.kept⟩

/-- For every metadata answer, any files, any download and whatever other tasks do,
wherever the task stops. -/
theorem a_downloaded_file_has_its_hash (cfg : Setting) (env : Nat → Meet) (s : Start)
    (others : Nat → Others cfg.lorasRoot s.row.civitaiVersionId) (before : Path → Option Bytes) :
    Intact cfg s before (runTask cfg env s others before).world := by
  have hends := Co.run_of_holds (does_stepRun cfg env s others) (then_runFetch cfg s before)
  exact intact_of_ends hends

/-! ## A file that was there before, and one that has gone -/

/-- Some function of the bytes. -/
def firstSetting : Setting where
  lorasRoot := ["loras"]
  fileMaxBytes := 100
  downloadOverallTimeoutS := "3600"
  repr _ := ""
  floats := ⟨fun _ q => q, fun _ => ""⟩
  sha256 content := if content = [7] then "ab" else "cd"

/-- Every operation succeeds. -/
def calm (_ : Nat) : Meet where
  now := 0
  fault := none
  ticks := []
  ending := .ended 0 none
  evicted := []
  sidecarText := []
  answer := fetch_atomicity.firstAnswer

/-- The same, where the download brings a file of the right hash. -/
def delivering (_ : Nat) : Meet :=
  { calm 0 with ticks := [⟨[7], none, 0, .ok 100, 0, none⟩] }

def destination : Path := ["loras", "civitai", "a_7.safetensors"]

/-- The destination, with another version of the file. -/
def oldFiles : Path → Option Bytes := put (fun _ => none) destination (some [0])

abbrev FirstOthers : Type :=
  Others firstSetting.lorasRoot fetch_atomicity.firstStart.row.civitaiVersionId

def nobody (_ : Nat) : FirstOthers := Others.idle _ _

/-- The fetch of version 8 evicts the file between `os.replace` and `done`. -/
def evicting (clock : Nat) : FirstOthers :=
  if clock = 14 then
    Others.ofFetch _ (show (8 : Int) ≠ 7 by decide) "b" [destination] fun _ => []
  else Others.idle _ _

/-- The row is done, and its sidecar has the hash of the metadata, which is not
that of the file. -/
theorem old_file_not_verified :
    ¬ Verified firstSetting fetch_atomicity.firstStart
      (runTask firstSetting calm fetch_atomicity.firstStart nobody oldFiles).world := by
  have hsidecar :
      (runTask firstSetting calm fetch_atomicity.firstStart nobody oldFiles).world.sidecar.map
        (fun sidecar => (sidecar.canonicalName, sidecar.sha256)) = some ("civitai/a_7", "ab") := by
    decide +kernel
  have hfile : (runTask firstSetting calm fetch_atomicity.firstStart nobody oldFiles).world.files
      (nameFile firstSetting "civitai/a_7") = some [0] := by
    decide +kernel
  intro hverified
  obtain ⟨sidecar, hsome, hfields⟩ := Option.map_eq_some_iff.mp hsidecar
  obtain ⟨hname, hsha⟩ := Prod.mk.inj hfields
  obtain ⟨content, hcontent, hhash⟩ := hverified.sidecar sidecar hsome
  rw [hname, hfile, Option.some.injEq] at hcontent
  rw [hsha, ← hcontent] at hhash
  exact absurd hhash (by decide)

/-- The row is done, and there is no file. -/
theorem evicted_file_not_verified :
    ¬ Verified firstSetting fetch_atomicity.firstStart
      (runTask firstSetting delivering fetch_atomicity.firstStart evicting
        (fun _ => none)).world := by
  have hrow : ((runTask firstSetting delivering fetch_atomicity.firstStart evicting
      (fun _ => none)).world.table.getById fetch_atomicity.firstStart.row.id).map
        (fun r => (r.status, r.destName)) = some (.done, some "civitai/a_7") := by
    decide +kernel
  have hfile : (runTask firstSetting delivering fetch_atomicity.firstStart evicting
      (fun _ => none)).world.files (nameFile firstSetting "civitai/a_7") = none := by
    decide +kernel
  intro hverified
  obtain ⟨r, hr, hfields⟩ := Option.map_eq_some_iff.mp hrow
  obtain ⟨hstatus, hdest⟩ := Prod.mk.inj hfields
  obtain ⟨name, file, content, hname, -, hcontent, -⟩ := hverified.done r hr hstatus
  obtain rfl := Option.some.inj (hdest.symm.trans hname)
  rw [hfile] at hcontent
  cases hcontent

theorem an_old_file_is_taken_unread_and_a_new_one_evicted :
    ¬ Verified firstSetting fetch_atomicity.firstStart
      (runTask firstSetting calm fetch_atomicity.firstStart nobody oldFiles).world ∧
    ¬ Verified firstSetting fetch_atomicity.firstStart
      (runTask firstSetting delivering fetch_atomicity.firstStart evicting
        (fun _ => none)).world :=
  ⟨old_file_not_verified, evicted_file_not_verified⟩

end image_gen.hash_integrity

-- What the three readers of LoRA sidecars (`app/loras/scanner.py`,
-- `app/loras/eviction.py`, `app/validation.py`) make of any bytes. Each access to a
-- file has an answer of its own: a file may change or vanish between two of them.
import ImageGen.LoraScan
import ImageGen.SidecarWriters

namespace image_gen.sidecar_readers

open image_gen.json image_gen.file_tree image_gen.lora_files image_gen.results
open image_gen.eviction (Setting Candidate fromCivitai pathWithSuffix)
open image_gen.lora_scan (LoraMeta SidecarStatus sidecarMaxBytes metaFromSidecar
  unaddressableReason)
open image_gen.sidecar_writers (Fields Now debounced)

/-! ## One sidecar -/

/-- What the accesses of a reader to a sidecar meet. An error is an `OSError`. -/
structure Glimpse where
  /-- `is_file` raises what is no sign of a missing file, as a `PermissionError`. -/
  isFile : Except String Bool
  size : Except String Nat
  bytes : Except String ByteArray

/-- `json.loads` of a file opened as UTF-8. -/
def textOf (loads : String → StoredJson) (bytes : ByteArray) : StoredJson :=
  match String.fromUTF8? bytes with
  | some text => loads text
  | none => .unreadable "UnicodeDecodeError"

/-- The object in an opened sidecar. `OSError` and `JSONDecodeError` are caught. -/
def loadObject (loads : String → StoredJson) (g : Glimpse) : Except String (Option Fields) :=
  match g.bytes with
  | .error _ => .ok none
  | .ok bytes =>
    match textOf loads bytes with
    | .value (.obj data) => .ok (some data)
    | .value _ => .ok none
    | .malformed _ => .ok none
    | .unreadable message => .error message

/-! ## `scan_loras` -/

/-- `_read_sidecar` of the scanner. -/
def scannerReadSidecar (loads : String → StoredJson) (g : Glimpse) :
    Except String (Option Fields × SidecarStatus) :=
  match g.isFile with
  | .error message => .error message
  | .ok false => .ok (none, .missing)
  | .ok true =>
    match g.size with
    | .error _ => .ok (none, .malformed)
    | .ok size =>
      if size > sidecarMaxBytes then .ok (none, .oversized)
      else
        (loadObject loads g).map fun data =>
          match data with
          | some data => (some data, .ok)
          | none => (none, .malformed)

/-- What a reader meets at one path that `rglob` gives. -/
structure Sighting where
  path : Path
  isFile : Bool
  size : Except String Nat
  sidecar : Glimpse

/-- The scan also resolves the path. -/
structure Resolved extends Sighting where
  inside : Bool

structure Scan where
  root : Path
  isDir : Bool
  found : List Resolved

/-- One turn of the loop of `scan_loras`. -/
def scanOne (loads : String → StoredJson) (root : Path) (s : Resolved) :
    Except String (Option LoraMeta) :=
  if ¬ s.isFile then .ok none
  else if ¬ s.inside then .ok none
  else
    match s.size with
    | .error _ => .ok none
    | .ok sizeBytes =>
      let relative := s.path.drop root.length
      let name := asPosix (pathWithSuffix relative "")
      let reason := unaddressableReason name
      (scannerReadSidecar loads s.sidecar).map fun sidecar =>
        some (metaFromSidecar name (asPosix relative) sizeBytes sidecar.1 reason.isNone reason
          sidecar.2)

def scanLoras (loads : String → StoredJson) (v : Scan) : Except String (List LoraMeta) :=
  if ¬ v.isDir then .ok []
  else (v.found.mapM (scanOne loads v.root)).map List.reduceOption

/-! ## `evict_for` -/

/-- `_read_sidecar` of the eviction. -/
def evictionReadSidecar (loads : String → StoredJson) (g : Glimpse) :
    Except String (Option Fields) :=
  match g.isFile with
  | .error message => .error message
  | .ok false => .ok none
  | .ok true => loadObject loads g

/-- One turn of the selection loop. -/
def candidate (loads : String → StoredJson) (cfg : Setting) (protectedByJobs : List String)
    (cutoff : Int) (s : Sighting) : Except String (Option Candidate) :=
  if ¬ s.isFile then .ok none
  else
    match evictionReadSidecar loads s.sidecar with
    | .error message => .error message
    | .ok none => .ok none
    | .ok (some sidecar) =>
      if ¬ fromCivitai sidecar then .ok none
      else if cfg.canonicalName s.path ∈ protectedByJobs then .ok none
      else if (cfg.lastUsedDt sidecar).any fun lastUsed => lastUsed > cutoff then .ok none
      else
        match s.size with
        | .error _ => .ok none
        | .ok size => .ok (some
          { sortKey := (cfg.lastUsedDt sidecar).getD 0
            path := s.path
            size := size
            canonicalName := cfg.canonicalName s.path })

inductive Raised
  | insufficientStorage
  /-- Out of the reading of a sidecar. -/
  | sidecar (message : String)
  | elsewhere (message : String)

/-- What the unlink loop meets at a candidate. -/
structure Turn where
  freshProtected : Except String (List String)
  unlinked : Bool

/-- What one call of `evict_for` meets. -/
structure Eviction where
  cfg : Setting
  currentSize : Nat
  isDir : Bool
  protectedByJobs : Except String (List String)
  now : Int
  found : List Sighting
  nodup : (found.map (·.path)).Nodup
  turn : Path → Turn

structure Evicted where
  /-- The files that were unlinked. -/
  deleted : List Path
  result : Except Raised Int

def Evicted.after (path : Path) (e : Evicted) : Evicted := ⟨path :: e.deleted, e.result⟩

def unlinkLoop (turn : Path → Turn) (required : Int) : Int → List Candidate → Evicted
  | reclaimed, [] =>
    if required ≤ reclaimed then ⟨[], .ok reclaimed⟩ else ⟨[], .error .insufficientStorage⟩
  | reclaimed, c :: rest =>
    if required ≤ reclaimed then ⟨[], .ok reclaimed⟩
    else
      match (turn c.path).freshProtected with
      | .error message => ⟨[], .error (.elsewhere message)⟩
      | .ok freshProtected =>
        if c.canonicalName ∈ freshProtected then unlinkLoop turn required reclaimed rest
        else if ¬ (turn c.path).unlinked then unlinkLoop turn required reclaimed rest
        else (unlinkLoop turn required (reclaimed + c.size) rest).after c.path

def Eviction.required (v : Eviction) : Int :=
  v.cfg.incomingSize - (v.cfg.dirMaxBytes - v.currentSize)

def Eviction.select (loads : String → StoredJson) (v : Eviction) (protectedByJobs : List String)
    (cutoff : Int) : Except String (List Candidate) :=
  (v.found.mapM (candidate loads v.cfg protectedByJobs cutoff)).map fun found =>
    found.reduceOption.insertionSort fun a b => a.sortKey ≤ b.sortKey

def evictFor (loads : String → StoredJson) (v : Eviction) : Evicted :=
  if v.required ≤ 0 then ⟨[], .ok 0⟩
  else if ¬ v.isDir then ⟨[], .error .insufficientStorage⟩
  else
    match v.protectedByJobs, v.cfg.cutoff v.now with
    | .error message, _ => ⟨[], .error (.elsewhere message)⟩
    | .ok _, .error message => ⟨[], .error (.elsewhere message)⟩
    | .ok protectedByJobs, .ok cutoff =>
      match v.select loads protectedByJobs cutoff with
      | .error message => ⟨[], .error (.sidecar message)⟩
      | .ok candidates => unlinkLoop v.turn v.required 0 candidates

/-! ## `_touch_last_used_sync` -/

/-- What one touch meets. -/
structure Touch where
  sidecar : Glimpse
  now : Now
  dumps : Fields → Except String String
  /-- The temporary file was written and took the place of the sidecar. -/
  written : Bool

/-- What takes the place of the sidecar. -/
def touchLastUsedSync (loads : String → StoredJson) (v : Touch) :
    Except String (Option Fields) :=
  match v.sidecar.isFile with
  | .error message => .error message
  | .ok false => .ok none
  | .ok true =>
    (loadObject loads v.sidecar).bind fun data =>
      match data with
      | none => .ok none
      | some data =>
        if debounced v.now (Json.get data "last_used") then .ok none
        else
          let fields := py_dict.set data "last_used" (.str v.now.isoformat)
          -- no `OSError`: what `json.dumps` raises is not caught
          (v.dumps fields).map fun _ => if v.written then some fields else none

/-! ## What they are to do -/

/-- The object that a sidecar holds, where it is a file that can be read and holds one. -/
def usable (loads : String → StoredJson) (g : Glimpse) : Option Fields :=
  match g.isFile, g.bytes with
  | .ok true, .ok bytes =>
    match textOf loads bytes with
    | .value (.obj data) => some data
    | _ => none
  | _, _ => none

def Resolved.Listed (s : Resolved) : Prop :=
  s.isFile = true ∧ s.inside = true ∧ s.size.isOk = true

instance (s : Resolved) : Decidable s.Listed := by
  unfold Resolved.Listed
  infer_instance

structure Entry (loads : String → StoredJson) (root : Path) (s : Resolved) (m : LoraMeta) :
    Prop where
  filename : m.filename = asPosix (s.path.drop root.length)
  missing : s.sidecar.isFile = .ok false → m.sidecarStatus = .missing
  unusable : s.sidecar.isFile = .ok true → usable loads s.sidecar = none →
    m.sidecarStatus = .malformed ∨ m.sidecarStatus = .oversized

/-- An entry for each LoRA that is listed. -/
def Scan.Holds (loads : String → StoredJson) (v : Scan) : Prop :=
  ∃ metas, scanLoras loads v = .ok metas ∧
    (v.isDir = true → List.Forall₂ (Entry loads v.root) (v.found.filter (·.Listed)) metas)

def Eviction.Holds (loads : String → StoredJson) (v : Eviction) : Prop :=
  (∀ message, (evictFor loads v).result ≠ .error (.sidecar message)) ∧
    ∀ s ∈ v.found, usable loads s.sidecar = none → s.path ∉ (evictFor loads v).deleted

def Touch.Holds (loads : String → StoredJson) (v : Touch) : Prop :=
  ∃ after, touchLastUsedSync loads v = .ok after ∧
    (usable loads v.sidecar = none → after = none)

/-! ## When they do -/

/-- The bytes, where they can be read, are UTF-8 and fail the parser with nothing but a
`JSONDecodeError`. -/
def Glimpse.Loads (loads : String → StoredJson) (g : Glimpse) : Prop :=
  ∀ bytes, g.bytes = .ok bytes → ∀ message, textOf loads bytes ≠ .unreadable message

/-- The sidecar as a reader needs it that opens the files of which `opened` holds. -/
structure Tame (loads : String → StoredJson) (opened : Prop) (g : Glimpse) : Prop where
  isFile : ∃ b, g.isFile = .ok b
  loads : g.isFile = .ok true → opened → g.Loads loads

/-- The scanner opens no sidecar beyond its limit. -/
def Glimpse.Small (g : Glimpse) : Prop := ∃ size, g.size = .ok size ∧ size ≤ sidecarMaxBytes

def Scan.Tame (loads : String → StoredJson) (v : Scan) : Prop :=
  v.isDir = true → ∀ s ∈ v.found, s.Listed → sidecar_readers.Tame loads s.sidecar.Small s.sidecar

/-- The call comes to its selection. -/
structure Eviction.Selects (v : Eviction) : Prop where
  short : 0 < v.required
  isDir : v.isDir = true
  jobs : ∃ names, v.protectedByJobs = .ok names
  cutoff : ∃ cutoff, v.cfg.cutoff v.now = .ok cutoff

def Eviction.Tame (loads : String → StoredJson) (v : Eviction) : Prop :=
  v.Selects → ∀ s ∈ v.found, s.isFile = true → sidecar_readers.Tame loads True s.sidecar

/-- `json.dumps` takes what the touch writes. -/
def Touch.Tame (loads : String → StoredJson) (v : Touch) : Prop :=
  sidecar_readers.Tame loads True v.sidecar ∧
    ∀ data, usable loads v.sidecar = some data →
      debounced v.now (Json.get data "last_used") = false →
        ∃ text, v.dumps (py_dict.set data "last_used" (.str v.now.isoformat)) = .ok text

/-! ## One sidecar, read -/

theorem loadObject_ok_iff {loads : String → StoredJson} {g : Glimpse} :
    (∃ data, loadObject loads g = .ok data) ↔ g.Loads loads := by
  unfold loadObject Glimpse.Loads
  rcases g.bytes with message | bytes
  · simp
  · rcases htext : textOf loads bytes with value | message | message
    · cases value <;> simp [htext]
    · simp [htext]
    · simp [htext]

theorem loadObject_usable {loads : String → StoredJson} {g : Glimpse}
    (hfile : g.isFile = .ok true) {data : Option Fields} (h : loadObject loads g = .ok data) :
    usable loads g = data := by
  unfold loadObject at h
  unfold usable
  rw [hfile]
  rcases hbytes : g.bytes with message | bytes <;> rw [hbytes] at h
  · cases h
    rfl
  · dsimp only at h ⊢
    split at h
    · next heq =>
      cases h
      rw [heq]
    · next hne heq =>
      cases h
      rw [heq]
      split
      · next heq' =>
        cases heq'
        exact absurd rfl (hne _)
      · rfl
    · next heq =>
      cases h
      rw [heq]
    · cases h

theorem loadObject_error {loads : String → StoredJson} {g : Glimpse} {message : String}
    (h : loadObject loads g = .error message) : ¬ g.Loads loads := by
  intro hloads
  obtain ⟨data, hdata⟩ := loadObject_ok_iff.mpr hloads
  rw [hdata] at h
  cases h

theorem not_usable_of_missing {loads : String → StoredJson} {g : Glimpse}
    (h : g.isFile = .ok false) : usable loads g = none := by
  unfold usable
  rw [h]

theorem tame_of_no_file {loads : String → StoredJson} {opened : Prop} {g : Glimpse}
    (h : g.isFile = .ok false) : Tame loads opened g where
  isFile := ⟨false, h⟩
  loads := by
    intro htrue
    rw [h] at htrue
    cases htrue

theorem scannerReadSidecar_ok_iff {loads : String → StoredJson} {g : Glimpse} :
    (∃ read, scannerReadSidecar loads g = .ok read) ↔ Tame loads g.Small g := by
  unfold scannerReadSidecar
  rcases hfile : g.isFile with message | present
  · constructor
    · rintro ⟨_, h⟩
      cases h
    · intro htame
      obtain ⟨b, hb⟩ := htame.isFile
      rw [hfile] at hb
      cases hb
  · cases present with
    | false => exact ⟨fun _ => tame_of_no_file hfile, fun _ => ⟨_, rfl⟩⟩
    | true =>
      dsimp only
      rcases hsize : g.size with message | size
      · refine ⟨fun _ => ⟨⟨true, hfile⟩, ?_⟩, fun _ => ⟨_, rfl⟩⟩
        rintro - ⟨size, hsmall, -⟩
        rw [hsize] at hsmall
        cases hsmall
      · dsimp only
        by_cases hlarge : size > sidecarMaxBytes
        · rw [if_pos hlarge]
          refine ⟨fun _ => ⟨⟨true, hfile⟩, ?_⟩, fun _ => ⟨_, rfl⟩⟩
          rintro - ⟨small, hsmall, hle⟩
          rw [hsize] at hsmall
          cases hsmall
          omega
        · rw [if_neg hlarge]
          have hsmall : g.Small := ⟨size, hsize, by omega⟩
          constructor
          · rintro ⟨read, hread⟩
            obtain ⟨data, hdata, -⟩ := map_ok hread
            exact ⟨⟨true, hfile⟩, fun _ _ => loadObject_ok_iff.mp ⟨data, hdata⟩⟩
          · intro htame
            obtain ⟨data, hdata⟩ := loadObject_ok_iff.mpr (htame.loads hfile hsmall)
            rw [hdata]
            exact ⟨_, rfl⟩

/-- What the scanner reports of a sidecar. -/
theorem scannerReadSidecar_status {loads : String → StoredJson} {g : Glimpse}
    {read : Option Fields × SidecarStatus} (h : scannerReadSidecar loads g = .ok read) :
    (g.isFile = .ok false → read.2 = .missing) ∧
      (g.isFile = .ok true → usable loads g = none →
        read.2 = .malformed ∨ read.2 = .oversized) := by
  unfold scannerReadSidecar at h
  rcases hfile : g.isFile with message | present <;> rw [hfile] at h
  · cases h
  · cases present with
    | false =>
      cases h
      exact ⟨fun _ => rfl, nofun⟩
    | true =>
      refine ⟨nofun, fun _ hnone => ?_⟩
      dsimp only at h
      rcases hsize : g.size with message | size <;> rw [hsize] at h
      · cases h
        exact Or.inl rfl
      · dsimp only at h
        by_cases hlarge : size > sidecarMaxBytes
        · rw [if_pos hlarge] at h
          cases h
          exact Or.inr rfl
        · rw [if_neg hlarge] at h
          obtain ⟨data, hdata, rfl⟩ := map_ok h
          have hdata' := loadObject_usable hfile hdata
          rw [hnone] at hdata'
          rw [← hdata']
          exact Or.inl rfl

theorem evictionReadSidecar_ok_iff {loads : String → StoredJson} {g : Glimpse} :
    (∃ data, evictionReadSidecar loads g = .ok data) ↔ Tame loads True g := by
  unfold evictionReadSidecar
  rcases hfile : g.isFile with message | present
  · constructor
    · rintro ⟨_, h⟩
      cases h
    · intro htame
      obtain ⟨b, hb⟩ := htame.isFile
      rw [hfile] at hb
      cases hb
  · cases present with
    | false => exact ⟨fun _ => tame_of_no_file hfile, fun _ => ⟨_, rfl⟩⟩
    | true =>
      rw [show (∃ data, loadObject loads g = .ok data) ↔ g.Loads loads from loadObject_ok_iff]
      exact ⟨fun h => ⟨⟨true, hfile⟩, fun _ _ => h⟩, fun h => h.loads hfile trivial⟩

theorem evictionReadSidecar_usable {loads : String → StoredJson} {g : Glimpse}
    {data : Option Fields} (h : evictionReadSidecar loads g = .ok data) :
    usable loads g = data := by
  unfold evictionReadSidecar at h
  rcases hfile : g.isFile with message | present <;> rw [hfile] at h
  · cases h
  · cases present with
    | false =>
      cases h
      exact not_usable_of_missing hfile
    | true => exact loadObject_usable hfile h

/-! ## The scan -/

theorem scanOne_unlisted {loads : String → StoredJson} {root : Path} {s : Resolved}
    (h : ¬ s.Listed) : scanOne loads root s = .ok none := by
  unfold scanOne
  by_cases hfile : s.isFile = true
  · by_cases hinside : s.inside = true
    · rcases hsize : s.size with message | size
      · simp [hfile, hinside]
      · exact absurd ⟨hfile, hinside, by rw [hsize]; rfl⟩ h
    · simp [hfile, hinside]
  · simp [hfile]

theorem scanOne_listed (loads : String → StoredJson) (root : Path) {s : Resolved}
    (h : s.Listed) :
    ∃ entry : Option Fields × SidecarStatus → LoraMeta,
      (∀ read, (entry read).filename = asPosix (s.path.drop root.length) ∧
        (entry read).sidecarStatus = read.2) ∧
      scanOne loads root s =
        (scannerReadSidecar loads s.sidecar).map fun read => some (entry read) := by
  obtain ⟨hfile, hinside, hsize⟩ := h
  unfold scanOne
  rcases hs : s.size with message | size <;> rw [hs] at hsize
  · cases hsize
  · simp only [hfile, hinside, not_true_eq_false, if_false]
    exact ⟨_, fun _ => ⟨rfl, rfl⟩, rfl⟩

theorem scanOne_ok_iff {loads : String → StoredJson} {root : Path} {s : Resolved}
    (h : s.Listed) :
    (∃ found, scanOne loads root s = .ok found) ↔ Tame loads s.sidecar.Small s.sidecar := by
  obtain ⟨entry, -, hscan⟩ := scanOne_listed loads root h
  rw [← scannerReadSidecar_ok_iff, hscan]
  constructor
  · rintro ⟨found, hfound⟩
    obtain ⟨read, hread, -⟩ := map_ok hfound
    exact ⟨read, hread⟩
  · rintro ⟨read, hread⟩
    rw [hread]
    exact ⟨_, rfl⟩

theorem scanOne_entry {loads : String → StoredJson} {root : Path} {s : Resolved}
    (h : s.Listed) (htame : Tame loads s.sidecar.Small s.sidecar) :
    ∃ m, scanOne loads root s = .ok (some m) ∧ Entry loads root s m := by
  obtain ⟨entry, hmeta, hscan⟩ := scanOne_listed loads root h
  obtain ⟨read, hread⟩ := scannerReadSidecar_ok_iff.mpr htame
  obtain ⟨hmissing, hunusable⟩ := scannerReadSidecar_status hread
  obtain ⟨hname, hstatus⟩ := hmeta read
  refine ⟨entry read, by rw [hscan, hread]; rfl, hname, ?_, ?_⟩
  · rw [hstatus]
    exact hmissing
  · rw [hstatus]
    exact hunusable

theorem scan_holds_iff (loads : String → StoredJson) (v : Scan) :
    v.Holds loads ↔ v.Tame loads := by
  unfold Scan.Holds Scan.Tame scanLoras
  by_cases hdir : v.isDir = true
  · simp only [hdir, not_true_eq_false, if_false, forall_const]
    constructor
    · rintro ⟨metas, hmetas, -⟩ s hs hlisted
      obtain ⟨found, hfound, -⟩ := map_ok hmetas
      exact (scanOne_ok_iff hlisted).mp (ok_of_mapM hfound s hs)
    · intro htame
      obtain ⟨found, hfound, hall⟩ := mapM_forall₂ (f := scanOne loads v.root)
        (P := Resolved.Listed) (R := Entry loads v.root)
        (fun s hs hlisted => scanOne_entry hlisted (htame s hs hlisted))
        fun s _ => scanOne_unlisted
      exact ⟨_, by rw [hfound]; rfl, hall⟩
  · simp [hdir]

/-! ## The eviction -/

theorem candidate_no_file {loads : String → StoredJson} {cfg : Setting}
    {protectedByJobs : List String} {cutoff : Int} {s : Sighting} (h : ¬ s.isFile = true) :
    candidate loads cfg protectedByJobs cutoff s = .ok none := by
  unfold candidate
  rw [if_pos h]

theorem candidate_ok_iff (loads : String → StoredJson) (cfg : Setting)
    (protectedByJobs : List String) (cutoff : Int) {s : Sighting} (h : s.isFile = true) :
    (∃ found, candidate loads cfg protectedByJobs cutoff s = .ok found) ↔
      Tame loads True s.sidecar := by
  rw [← evictionReadSidecar_ok_iff]
  unfold candidate
  rw [if_neg (not_not.mpr h)]
  rcases evictionReadSidecar loads s.sidecar with message | data
  · simp
  · cases data with
    | none => simp
    | some sidecar =>
      refine ⟨fun _ => ⟨_, rfl⟩, fun _ => ?_⟩
      dsimp only
      rcases s.size with message | size
      · exact ⟨none, by simp⟩
      · dsimp only
        split_ifs <;> exact ⟨_, rfl⟩

/-- Only a file with a usable sidecar is a candidate. -/
theorem candidate_usable {loads : String → StoredJson} {cfg : Setting}
    {protectedByJobs : List String} {cutoff : Int} {s : Sighting} {c : Candidate}
    (h : candidate loads cfg protectedByJobs cutoff s = .ok (some c)) :
    c.path = s.path ∧ usable loads s.sidecar ≠ none := by
  unfold candidate at h
  by_cases hfile : s.isFile = true
  · rw [if_neg (not_not.mpr hfile)] at h
    rcases hread : evictionReadSidecar loads s.sidecar with message | data <;> rw [hread] at h
    · cases h
    · cases data with
      | none => cases h
      | some sidecar =>
        have husable := evictionReadSidecar_usable hread
        dsimp only at h
        rcases hsize : s.size with message | size <;> rw [hsize] at h
        · simp at h
        · dsimp only at h
          split_ifs at h
          · cases h
          · cases h
          · cases h
            refine ⟨rfl, ?_⟩
            rw [husable]
            exact Option.some_ne_none sidecar
          · cases h
  · rw [if_pos hfile] at h
    cases h

theorem select_ok_iff (loads : String → StoredJson) (v : Eviction) (protectedByJobs : List String)
    (cutoff : Int) :
    (∃ candidates, v.select loads protectedByJobs cutoff = .ok candidates) ↔
      ∀ s ∈ v.found, s.isFile = true → Tame loads True s.sidecar := by
  unfold Eviction.select
  constructor
  · rintro ⟨candidates, hcandidates⟩ s hs hfile
    obtain ⟨found, hfound, -⟩ := map_ok hcandidates
    exact (candidate_ok_iff loads v.cfg protectedByJobs cutoff hfile).mp
      (ok_of_mapM hfound s hs)
  · intro htame
    obtain ⟨found, hfound, -⟩ := mapM_total
      (f := candidate loads v.cfg protectedByJobs cutoff) (l := v.found) fun s hs => by
        by_cases hfile : s.isFile = true
        · exact (candidate_ok_iff loads v.cfg protectedByJobs cutoff hfile).mpr
            (htame s hs hfile)
        · exact ⟨none, candidate_no_file hfile⟩
    rw [hfound]
    exact ⟨_, rfl⟩

theorem select_usable {loads : String → StoredJson} {v : Eviction}
    {protectedByJobs : List String} {cutoff : Int} {candidates : List Candidate}
    (h : v.select loads protectedByJobs cutoff = .ok candidates) :
    ∀ c ∈ candidates, ∃ s ∈ v.found, c.path = s.path ∧ usable loads s.sidecar ≠ none := by
  obtain ⟨found, hfound, rfl⟩ := map_ok h
  intro c hc
  rw [List.mem_insertionSort, List.reduceOption_mem_iff] at hc
  obtain ⟨s, hs, hcandidate⟩ := exists_ok_of_mapM hfound (some c) hc
  exact ⟨s, hs, candidate_usable hcandidate⟩

theorem unlinkLoop_deleted {turn : Path → Turn} {required : Int} (candidates : List Candidate) :
    ∀ reclaimed, ∀ path ∈ (unlinkLoop turn required reclaimed candidates).deleted,
      ∃ c ∈ candidates, c.path = path := by
  induction candidates with
  | nil =>
    intro reclaimed path hpath
    unfold unlinkLoop at hpath
    split_ifs at hpath
    · cases hpath
    · cases hpath
  | cons c rest ih =>
    have hrest : ∀ reclaimed, ∀ path ∈ (unlinkLoop turn required reclaimed rest).deleted,
        ∃ c' ∈ c :: rest, c'.path = path := by
      intro reclaimed path hpath
      obtain ⟨c', hc', heq⟩ := ih reclaimed path hpath
      exact ⟨c', List.mem_cons_of_mem c hc', heq⟩
    intro reclaimed path hpath
    unfold unlinkLoop at hpath
    by_cases henough : required ≤ reclaimed
    · rw [if_pos henough] at hpath
      cases hpath
    · rw [if_neg henough] at hpath
      rcases hfresh : (turn c.path).freshProtected with message | names <;> rw [hfresh] at hpath
      · cases hpath
      · dsimp only at hpath
        split_ifs at hpath
        · exact hrest reclaimed path hpath
        · rcases List.mem_cons.mp hpath with rfl | hpath
          · exact ⟨c, List.mem_cons_self, rfl⟩
          · exact hrest _ path hpath
        · exact hrest reclaimed path hpath

theorem unlinkLoop_result {turn : Path → Turn} {required : Int} (candidates : List Candidate) :
    ∀ reclaimed message,
      (unlinkLoop turn required reclaimed candidates).result ≠ .error (.sidecar message) := by
  induction candidates with
  | nil =>
    intro reclaimed message
    unfold unlinkLoop
    split_ifs
    · nofun
    · nofun
  | cons c rest ih =>
    intro reclaimed message
    unfold unlinkLoop
    by_cases henough : required ≤ reclaimed
    · rw [if_pos henough]
      nofun
    · rw [if_neg henough]
      rcases hfresh : (turn c.path).freshProtected with other | names
      · nofun
      · dsimp only
        split_ifs
        · exact ih reclaimed message
        · exact ih _ message
        · exact ih reclaimed message

theorem eq_of_same_path {v : Eviction} {s s' : Sighting} (hs : s ∈ v.found) (hs' : s' ∈ v.found)
    (h : s.path = s'.path) : s = s' :=
  List.inj_on_of_nodup_map v.nodup hs hs' h

theorem evict_holds_iff (loads : String → StoredJson) (v : Eviction) :
    v.Holds loads ↔ v.Tame loads := by
  constructor
  · rintro ⟨hresult, -⟩ hselects
    obtain ⟨hshort, hdir, ⟨names, hnames⟩, cutoff, hcutoff⟩ := hselects
    rw [← select_ok_iff loads v names cutoff]
    rcases hselect : v.select loads names cutoff with message | candidates
    · refine absurd ?_ (hresult message)
      have hshort' : ¬ v.required ≤ 0 := by omega
      simp only [evictFor, hshort', hdir, hnames, hcutoff, hselect, if_false, not_true_eq_false]
    · exact ⟨candidates, rfl⟩
  · intro htame
    unfold Eviction.Holds evictFor
    by_cases hshort : v.required ≤ 0
    · rw [if_pos hshort]
      exact ⟨nofun, fun _ _ _ => List.not_mem_nil⟩
    · rw [if_neg hshort]
      by_cases hdir : v.isDir = true
      · rw [if_neg (not_not.mpr hdir)]
        rcases hnames : v.protectedByJobs with message | names
        · exact ⟨nofun, fun _ _ _ => List.not_mem_nil⟩
        · rcases hcutoff : v.cfg.cutoff v.now with message | cutoff
          · exact ⟨nofun, fun _ _ _ => List.not_mem_nil⟩
          · obtain ⟨candidates, hselect⟩ := (select_ok_iff loads v names cutoff).mpr
              (htame ⟨by omega, hdir, ⟨names, hnames⟩, cutoff, hcutoff⟩)
            simp only [hselect]
            refine ⟨unlinkLoop_result candidates 0, fun s hs hnone hmem => ?_⟩
            obtain ⟨c, hc, hpath⟩ := unlinkLoop_deleted candidates 0 s.path hmem
            obtain ⟨s', hs', hpath', husable⟩ := select_usable hselect c hc
            have hsame : s = s' := eq_of_same_path hs hs' (hpath.symm.trans hpath')
            rw [hsame] at hnone
            exact husable hnone
      · rw [if_pos hdir]
        exact ⟨nofun, fun _ _ _ => List.not_mem_nil⟩

/-! ## The touch -/

theorem touch_holds_iff (loads : String → StoredJson) (v : Touch) :
    v.Holds loads ↔ v.Tame loads := by
  unfold Touch.Holds Touch.Tame touchLastUsedSync
  rcases hfile : v.sidecar.isFile with message | present
  · constructor
    · rintro ⟨_, h, -⟩
      cases h
    · rintro ⟨⟨⟨b, hb⟩, -⟩, -⟩
      rw [hfile] at hb
      cases hb
  · cases present with
    | false =>
      have hnone : usable loads v.sidecar = none := not_usable_of_missing hfile
      rw [hnone]
      exact ⟨fun _ => ⟨tame_of_no_file hfile, nofun⟩, fun _ => ⟨none, rfl, fun _ => rfl⟩⟩
    | true =>
      rcases hload : loadObject loads v.sidecar with message | data
      · constructor
        · rintro ⟨_, h, -⟩
          cases h
        · rintro ⟨htame, -⟩
          exact absurd (htame.loads hfile trivial) (loadObject_error hload)
      · have htame : Tame loads True v.sidecar :=
          ⟨⟨true, hfile⟩, fun _ _ => loadObject_ok_iff.mp ⟨data, hload⟩⟩
        rw [loadObject_usable hfile hload]
        cases data with
        | none => exact ⟨fun _ => ⟨htame, nofun⟩, fun _ => ⟨none, rfl, fun _ => rfl⟩⟩
        | some data =>
          simp only [Except.bind, htame, true_and, Option.some.injEq, forall_eq', reduceCtorEq,
            false_implies, and_true]
          by_cases hfresh : debounced v.now (Json.get data "last_used") = true
          · simp [hfresh]
          · simp only [hfresh, Bool.false_eq_true, if_false]
            rcases v.dumps (py_dict.set data "last_used" (.str v.now.isoformat)) with
              message | text
            · simp [Except.map]
            · simp [Except.map]

/-! ## On a tree that stands still -/

/-- What the accesses to a path of a tree meet. -/
def Sees (loads : String → StoredJson) (t : LoraTree) (p : Path) (g : Glimpse) : Prop :=
  match t.read p with
  | none => g.isFile = .ok false
  | some contents => g.isFile = .ok true ∧ g.size = .ok contents.size ∧
      ∃ bytes, g.bytes = .ok bytes ∧ textOf loads bytes = contents.text

theorem evictionReadSidecar_sees {loads : String → StoredJson} {t : LoraTree} {p : Path}
    {g : Glimpse} (h : Sees loads t p g) :
    evictionReadSidecar loads g = eviction.readSidecar t p := by
  unfold Sees at h
  unfold evictionReadSidecar eviction.readSidecar
  rcases hread : t.read p with _ | contents <;> rw [hread] at h
  · simp only [h]
  · obtain ⟨hfile, -, bytes, hbytes, htext⟩ := h
    rcases hcontents : contents.text with value | message | message <;> rw [hcontents] at htext
    · cases value <;> simp only [hfile, loadObject, hbytes, htext, hcontents]
    · simp only [hfile, loadObject, hbytes, htext, hcontents]
    · simp only [hfile, loadObject, hbytes, htext, hcontents]

theorem scannerReadSidecar_sees {loads : String → StoredJson} {t : LoraTree} {p : Path}
    {g : Glimpse} (h : Sees loads t p g) :
    scannerReadSidecar loads g = lora_scan.readSidecar t p := by
  unfold Sees at h
  unfold scannerReadSidecar lora_scan.readSidecar
  rcases hread : t.read p with _ | contents <;> rw [hread] at h
  · simp only [h]
  · obtain ⟨hfile, hsize, bytes, hbytes, htext⟩ := h
    simp only [hfile, hsize, loadObject, hbytes, htext]
    by_cases hlarge : contents.size > sidecarMaxBytes
    · simp only [hlarge, if_true]
    · simp only [hlarge, if_false]
      rcases contents.text with value | message | message
      · cases value <;> rfl
      · rfl
      · rfl

/-! ## The service -/

/-- Exactly the tame sidecars leave each of the three as it is to be. -/
theorem sidecars_break_nothing_iff (loads : String → StoredJson) :
    (∀ v : Scan, v.Holds loads ↔ v.Tame loads) ∧
      (∀ v : Eviction, v.Holds loads ↔ v.Tame loads) ∧
      ∀ v : Touch, v.Holds loads ↔ v.Tame loads :=
  ⟨scan_holds_iff loads, evict_holds_iff loads, touch_holds_iff loads⟩

/-- A sidecar of one byte that begins no character. -/
def oneByte : Glimpse where
  isFile := .ok true
  size := .ok 1
  bytes := .ok ⟨#[0xff]⟩

def besideOneByte : Sighting where
  path := ["loras", "civitai", "a_1.safetensors"]
  isFile := true
  size := .ok 400
  sidecar := oneByte

def oneByteScan : Scan where
  root := ["loras"]
  isDir := true
  found := [{ besideOneByte with inside := true }]

def oneByteEviction : Eviction where
  cfg :=
    { registry _ := none
      lorasRoot := ["loras"]
      float _ := none
      incomingSize := 400
      dirMaxBytes := 600
      recentUseDays := 7
      fromisoformat _ := none }
  currentSize := 400
  isDir := true
  protectedByJobs := .ok []
  now := 700000 * eviction.dayMicros
  found := [besideOneByte]
  nodup := List.nodup_singleton _
  turn _ := ⟨.ok [], true⟩

def oneByteTouch : Touch where
  sidecar := oneByte
  now := ⟨"2026-01-01T00:00:00+00:00", fun _ => false⟩
  dumps _ := .ok "{}"
  written := true

theorem oneByte_not_loaded (loads : String → StoredJson) : ¬ oneByte.Loads loads := by
  intro h
  apply h ⟨#[0xff]⟩ rfl "UnicodeDecodeError"
  have hbad : String.fromUTF8? ⟨#[0xff]⟩ = none := by decide
  unfold textOf
  rw [hbad]

theorem one_byte_breaks_all_three :
    ¬ ∃ loads, oneByteScan.Holds loads ∨ oneByteEviction.Holds loads ∨
      oneByteTouch.Holds loads := by
  rintro ⟨loads, h | h | h⟩
  · have htame := (scan_holds_iff loads oneByteScan).mp h rfl _ List.mem_cons_self ⟨rfl, rfl, rfl⟩
    exact oneByte_not_loaded loads (htame.loads rfl ⟨1, rfl, by decide⟩)
  · have hselects : oneByteEviction.Selects :=
      ⟨by decide, rfl, ⟨[], rfl⟩, 699993 * eviction.dayMicros, by decide⟩
    have htame := (evict_holds_iff loads oneByteEviction).mp h hselects _ List.mem_cons_self rfl
    exact oneByte_not_loaded loads (htame.loads rfl trivial)
  · have htame := ((touch_holds_iff loads oneByteTouch).mp h).1
    exact oneByte_not_loaded loads (htame.loads rfl trivial)

end image_gen.sidecar_readers

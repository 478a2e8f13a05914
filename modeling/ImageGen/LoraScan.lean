-- The LoRA list (`app/loras/scanner.py`): which files under the root it gives,
-- and under which names.
import Mathlib.Data.List.ReduceOption
import Mathlib.Data.List.Sort
import ImageGen.Eviction
import ImageGen.FileWrites
import ImageGen.Results
import Mathlib.Data.List.Lex
import Mathlib.Data.String.Basic

namespace image_gen.lora_scan

open image_gen.json image_gen.job_store image_gen.file_tree image_gen.lora_files
  image_gen.results
open image_gen.eviction (rglobSafetensors pathWithSuffix sidecarPath)

inductive SidecarStatus
  | ok
  | missing
  | malformed
  | oversized
  deriving DecidableEq

inductive Source
  | civitai
  | localFile
  deriving DecidableEq

structure LoraMeta where
  name : String
  filename : String
  sha256 : Option String
  source : Source
  civitaiModelId : Option Int
  civitaiVersionId : Option Int
  baseModelHint : Option String
  triggerWords : List String
  fetchedAt : Option String
  sizeBytes : Nat
  addressable : Bool
  reason : Option String
  sidecarStatus : SidecarStatus
  lastUsed : Option String

/-- `_NAME_RE.match`, whose `$` also stands before a line feed at the end. -/
def MatchesNameRe (name : String) : Prop :=
  MatchesPattern name ∨
    (name.toList.getLast? = some '\n' ∧ MatchesPattern (String.ofList name.toList.dropLast))

instance (name : String) : Decidable (MatchesNameRe name) := by
  unfold MatchesNameRe
  infer_instance

def unaddressableReason (name : String) : Option String :=
  if name = "" then some "name is empty"
  else if MatchesNameRe name then none
  else some ("name contains disallowed characters " ++
    "(allowed: [A-Za-z0-9_/-.] after a leading alphanumeric/underscore)")

def sidecarMaxBytes : Nat := 1048576

def readSidecar (t : LoraTree) (p : Path) :
    Except String (Option (List (String × Json)) × SidecarStatus) :=
  match t.read p with
  | none => .ok (none, .missing)
  | some contents =>
    if contents.size > sidecarMaxBytes then .ok (none, .oversized)
    else
      match contents.text with
      | .value (.obj data) => .ok (some data, .ok)
      | .value _ => .ok (none, .malformed)
      | .malformed _ => .ok (none, .malformed)
      -- no `JSONDecodeError`, so nothing catches it
      | .unreadable message => .error message

def strField (sidecar : List (String × Json)) (key : String) : Option String :=
  match Json.get sidecar key with
  | .str s => some s
  | _ => none

/-- A boolean is an `int` too. -/
def intField (sidecar : List (String × Json)) (key : String) : Option Int :=
  match Json.get sidecar key with
  | .int n => some n
  | .bool b => some (if b then 1 else 0)
  | _ => none

def triggerWords (sidecar : List (String × Json)) : List String :=
  match Json.get sidecar "trigger_words" with
  | .arr words => words.filterMap fun
    | .str word => some word
    | _ => none
  | _ => []

def metaFromSidecar (name filename : String) (sizeBytes : Nat)
    (sidecar : Option (List (String × Json))) (addressable : Bool) (reason : Option String)
    (sidecarStatus : SidecarStatus) : LoraMeta :=
  let data := sidecar.getD []
  { name := name
    filename := filename
    sha256 := strField data "sha256"
    source := if strField data "source" = some "civitai" then .civitai else .localFile
    civitaiModelId := intField data "civitai_model_id"
    civitaiVersionId := intField data "civitai_version_id"
    baseModelHint := strField data "base_model_hint"
    triggerWords := triggerWords data
    fetchedAt := strField data "fetched_at"
    sizeBytes := sizeBytes
    addressable := addressable
    reason := reason
    sidecarStatus := sidecarStatus
    lastUsed := strField data "last_used" }

/-- One turn of the loop of `scan_loras`. -/
def scanOne (t : LoraTree) (root path : Path) : Except String (Option LoraMeta) :=
  match t.read path with
  | none => .ok none
  | some contents =>
    match t.realpath path with
    | none => .error "Symlink loop"
    | some resolved =>
      if ¬ root <+: resolved then .ok none
      else
        let relative := path.drop root.length
        let name := asPosix (pathWithSuffix relative "")
        let reason := unaddressableReason name
        (readSidecar t (sidecarPath path)).map fun sidecar =>
          some (metaFromSidecar name (asPosix relative) contents.size sidecar.1 reason.isNone
            reason sidecar.2)

def scanLoras (t : LoraTree) (root : Path) : Except String (List LoraMeta) :=
  match t.realpath root with
  | none => .error "Symlink loop"
  | some root =>
    if ¬ t.isDir root then .ok []
    else
      let paths := (rglobSafetensors t root).mergeSort fun a b => decide (a ≤ b)
      (paths.mapM (scanOne t root)).map List.reduceOption

theorem unaddressableReason_none {name : String} (h : MatchesPattern name) :
    unaddressableReason name = none := by
  have hne : name ≠ "" := by
    rintro rfl
    exact h
  have hre : MatchesNameRe name := Or.inl h
  simp [unaddressableReason, hne, hre]

/-! ## When it returns -/

/-- No sidecar that it reads is a text that `json.load` fails on otherwise than
with a `JSONDecodeError`. -/
def Decodable (t : LoraTree) (root : Path) : Prop :=
  ∀ path ∈ rglobSafetensors t root, ∀ contents, t.read (sidecarPath path) = some contents →
    contents.size ≤ sidecarMaxBytes → ∀ message, contents.text ≠ .unreadable message

theorem readSidecar_total {t : LoraTree} {p : Path}
    (h : ∀ contents, t.read p = some contents → contents.size ≤ sidecarMaxBytes →
      ∀ message, contents.text ≠ .unreadable message) :
    ∃ sidecar, readSidecar t p = .ok sidecar := by
  unfold readSidecar
  rcases hread : t.read p with _ | contents
  · exact ⟨_, rfl⟩
  · dsimp only
    by_cases hsize : contents.size > sidecarMaxBytes
    · rw [if_pos hsize]
      exact ⟨_, rfl⟩
    · rw [if_neg hsize]
      have htext := h contents hread (by omega)
      split
      · exact ⟨_, rfl⟩
      · exact ⟨_, rfl⟩
      · exact ⟨_, rfl⟩
      · rename_i message heq
        exact absurd heq (htext message)

theorem read_located {t : LoraTree} {p : Path} {contents : Contents}
    (h : t.read p = some contents) : ∃ e, t.locate p = some e ∧ t.realpath p = some e := by
  unfold FileTree.read FileTree.stat at h
  rcases hloc : t.locate p with _ | e
  · rw [hloc] at h
    cases h
  · exact ⟨e, rfl, FileTree.realpath_of_locate hloc⟩

theorem scanOne_total {t : LoraTree} {root path : Path} (h : Decodable t root)
    (hpath : path ∈ rglobSafetensors t root) : ∃ found, scanOne t root path = .ok found := by
  unfold scanOne
  rcases hread : t.read path with _ | contents
  · exact ⟨_, rfl⟩
  · obtain ⟨e, -, hreal⟩ := read_located hread
    obtain ⟨sidecar, hsidecar⟩ := readSidecar_total (h path hpath)
    simp only [hreal, hsidecar]
    split
    · exact ⟨_, rfl⟩
    · exact ⟨_, rfl⟩

theorem scanOne_found {t : LoraTree} {root path resolved : Path} {contents : Contents}
    (hread : t.read path = some contents) (hreal : t.realpath path = some resolved)
    (hunder : root <+: resolved) {found : Option LoraMeta} (h : scanOne t root path = .ok found) :
    ∃ m, found = some m ∧ m.filename = asPosix (path.drop root.length) ∧
      m.name = asPosix (pathWithSuffix (path.drop root.length) "") ∧
      m.reason = unaddressableReason m.name ∧ m.addressable = m.reason.isNone := by
  simp only [scanOne, hread, hreal, hunder, not_true_eq_false, if_false] at h
  rcases hsidecar : readSidecar t (sidecarPath path) with message | sidecar <;> rw [hsidecar] at h
  · cases h
  · cases h
    exact ⟨_, rfl, rfl, rfl, rfl, rfl⟩

/-- A file under the root is in the list, under the name that its path gives. -/
theorem scan_lists {t : LoraTree} {root path resolved : Path} {contents : Contents}
    (hroot : t.realpath root = some root) (hdir : t.isDir root = true) (h : Decodable t root)
    (hpath : path ∈ rglobSafetensors t root) (hread : t.read path = some contents)
    (hreal : t.realpath path = some resolved) (hunder : root <+: resolved) :
    ∃ metas, scanLoras t root = .ok metas ∧ ∃ m ∈ metas,
      m.filename = asPosix (path.drop root.length) ∧
      m.name = asPosix (pathWithSuffix (path.drop root.length) "") ∧
      m.reason = unaddressableReason m.name ∧ m.addressable = m.reason.isNone := by
  obtain ⟨found, hfound, hmem⟩ := mapM_total (f := scanOne t root)
    (l := (rglobSafetensors t root).mergeSort fun a b => decide (a ≤ b))
    fun p hp => scanOne_total h (List.mem_mergeSort.mp hp)
  obtain ⟨one, hone, hscan⟩ := hmem path (List.mem_mergeSort.mpr hpath)
  obtain ⟨m, rfl, hm⟩ := scanOne_found hread hreal hunder hscan
  refine ⟨found.reduceOption, ?_, m, List.reduceOption_mem_iff.mpr hone, hm⟩
  simp only [scanLoras, hroot, hdir, not_true_eq_false, if_false, hfound]
  rfl

/-- One sidecar that cannot be read fails the whole scan. -/
theorem scan_fails {t : LoraTree} {root path : Path} (hroot : t.realpath root = some root)
    (hdir : t.isDir root = true) (hpath : path ∈ rglobSafetensors t root)
    (h : (scanOne t root path).isOk = false) : ∀ metas, scanLoras t root ≠ .ok metas := by
  intro metas hmetas
  simp only [scanLoras, hroot, hdir, not_true_eq_false, if_false] at hmetas
  rcases hall : ((rglobSafetensors t root).mergeSort fun a b => decide (a ≤ b)).mapM
    (scanOne t root) with message | found
  · rw [hall] at hmetas
    cases hmetas
  · obtain ⟨one, hone⟩ := ok_of_mapM hall path (List.mem_mergeSort.mpr hpath)
    rw [hone] at h
    cases h

end image_gen.lora_scan

-- The object store (`app/storage/s3.py`), and the entries `bucket/key` by which
-- a row lists its objects.
import Mathlib.Logic.Function.Basic
import ImageGen.PyStr
import ImageGen.Requests

namespace image_gen.storage

open image_gen.py_str image_gen.requests

/-- A bucket and a key. -/
abbrev Address := String × String

/-- `entry.partition("/")`, without the separator. -/
def partition (entry : String) : Address :=
  (String.ofList (entry.toList.takeWhile (· ≠ '/')),
    String.ofList ((entry.toList.dropWhile (· ≠ '/')).drop 1))

/-- A bucket name has no slash, so the entry gives both parts back. -/
theorem partition_entry {bucket : String} (key : String) (h : '/' ∉ bucket.toList) :
    partition (bucket ++ "/" ++ key) = (bucket, key) := by
  have hall : ∀ c ∈ bucket.toList, decide (c ≠ '/') = true := by
    intro c hc
    simp only [decide_eq_true_eq]
    rintro rfl
    exact h hc
  have hlist : (bucket ++ "/" ++ key).toList = bucket.toList ++ '/' :: key.toList := by
    simp [String.toList_append]
  unfold partition
  rw [hlist, List.takeWhile_append_of_pos hall, List.dropWhile_append_of_pos hall]
  simp [String.ofList_toList]

/-! ## The key of an output -/

structure Date where
  year : Nat
  month : Nat
  day : Nat
  deriving DecidableEq

/-- `f"{n:0{width}d}"`. -/
def padded (width n : Nat) : String := String.ofList ((toString n).toList.leftpad width '0')

def objectKeyFor (str : PyStr) (jobId : String) (index : Nat) (ext : String) (now : Date) :
    String :=
  let ext := String.ofList (str.lower (ext.toList.dropWhile (· = '.')))
  let ext := if ext = "" then "png" else ext
  "generations/" ++ padded 4 now.year ++ "/" ++ padded 2 now.month ++ "/" ++ padded 2 now.day ++
    "/" ++ jobId ++ "/" ++ toString index ++ "." ++ ext

/-- What follows the last separator is determined. -/
theorem append_separator_inj {α : Type} {a : α} {s t x y : List α} (hx : a ∉ x) (hy : a ∉ y)
    (h : s ++ a :: x = t ++ a :: y) : s = t ∧ x = y := by
  rcases List.append_eq_append_iff.mp h with ⟨u, rfl, hu⟩ | ⟨u, rfl, hu⟩
  · rcases u with _ | ⟨b, u⟩
    · simpa using hu
    · rw [List.cons_append] at hu
      have hmem : a ∈ x := by
        rw [(List.cons.inj hu).2]
        simp
      exact absurd hmem hx
  · rcases u with _ | ⟨b, u⟩
    · simpa [eq_comm] using hu
    · rw [List.cons_append] at hu
      have hmem : a ∈ y := by
        rw [(List.cons.inj hu).2]
        simp
      exact absurd hmem hy

/-! ## The objects -/

/-- The bytes that each address holds. -/
abbrev Objects := Address → Option Bytes

def putObject (o : Objects) (a : Address) (data : Bytes) : Objects :=
  Function.update o a (some data)

inductive GetError
  /-- `StorageNotFoundError`. -/
  | notFound
  /-- `StorageError`. -/
  | transport (message : String)

/-- `get_object`, of a store that answers or is out of reach. -/
def getObject (o : Objects) (outage : Option String) (a : Address) : Except GetError Bytes :=
  match outage with
  | some message => .error (.transport message)
  | none =>
    match o a with
    | some data => .ok data
    | none => .error .notFound

/-- A missing object is no error. -/
def deleteObject (o : Objects) (a : Address) : Objects := Function.update o a none

end image_gen.storage

-- Runs of the bundle batch, one after the other on the same files. A run may be
-- stopped at each step, and inside each write. `--dry-run` writes no file of an
-- item, and the run log takes no part.
import ImageGen.BundleBatch
import ImageGen.TornWrites

namespace image_gen.bundle_run

open image_gen.bundle_batch image_gen.file_tree image_gen.graph image_gen.torn_writes
open image_gen.requests (Bytes)

/-- What a run depends on beyond the files. -/
structure World where
  lib : Lib
  settings : Settings
  /-- The bytes that the service has for a payload. There are none where it
  permits no such field. -/
  answer : Fields → Option Bytes
  /-- `json.dumps(meta, indent=2) + "\n"`, and the same on one line. -/
  sidecarText : Fields → Bytes
  manifestLine : Fields → Bytes

/-- `_should_retry_without_transparency`. -/
def shouldRetry (lib : Lib) (httpStatus : Nat) (body : String) : Bool :=
  httpStatus = 400 && contains "extra inputs are not permitted"
    (String.ofList (lib.py.str.lower body.toList))

/-! ## The machine -/

/-- Where the loops stand: the items after this one, and the failures. -/
structure Progress where
  resume : Bool
  rest : List Item
  failures : Nat

def Progress.fail (r : Progress) : Progress := { r with failures := r.failures + 1 }

inductive Pc
  /-- No run is going. -/
  | idle
  /-- The manifest of an earlier run is still there. -/
  | opening (resume : Bool)
  | loop (r : Progress)
  /-- `retry` is the request without the transparency field. -/
  | posting (r : Progress) (i : Item) (retry : Bool)
  /-- The writes that are left for an item. -/
  | writing (r : Progress) (retry : Bool) (op : Op Path UInt8) (ops : List (Op Path UInt8))
  | finished (failures : Nat)

structure State where
  files : Files Path UInt8
  pc : Pc

/-- How `_post_binary` ends. -/
inductive Reply
  | served (jobId : Option String) (generatedAt : String)
  | httpError (status : Nat) (body : String)
  /-- Any other exception. -/
  | raised

inductive Label
  | start (resume : Bool)
  /-- `manifest_path.unlink()`, without `--resume`. -/
  | openManifest
  /-- The next turn of the loops, with its resume test. -/
  | next
  | reply (r : Reply)
  | write
  /-- The write raises, after as many bytes. -/
  | fault (progress : Option Nat)
  /-- The process ends, inside a write after as many bytes. -/
  | kill (progress : Option Nat)
  | finish

variable (w : World)

def World.plan : Plan := bundle_batch.plan w.lib w.settings

/-- `target.is_file() and target.stat().st_size > 0`. -/
def existing (files : Files Path UInt8) (s : Settings) (i : Item) : Bool :=
  match files (target s i) with
  | some (_ :: _) => true
  | _ => false

def payloadOf (i : Item) (retry : Bool) : Fields :=
  if retry then retryPayload w.settings i else payload w.settings i

/-- The PNG, the sidecar and the manifest line. -/
def writes (i : Item) (png : Bytes) (entry : Fields) : Op Path UInt8 × List (Op Path UInt8) :=
  (.overwrite (target w.settings i) png,
    [.overwrite (sidecar w.settings i) (w.sidecarText entry),
      .append (manifestPath w.settings) (w.manifestLine entry)])

/-- An exception in the second request's block is caught by no handler. -/
def afterFault (r : Progress) (retry : Bool) : Pc := if retry then .idle else .loop r.fail

/-- The next write, or the next turn of the loops. -/
def afterWrite (r : Progress) (retry : Bool) : List (Op Path UInt8) → Pc
  | [] => .loop r
  | op :: ops => .writing r retry op ops

def afterReply (files : Files Path UInt8) (r : Progress) (i : Item) (retry : Bool) :
    Reply → Option State
  | .served jobId generatedAt =>
    match w.answer (payloadOf w i retry) with
    | some png =>
      let (op, ops) := writes w i png (record w.settings i retry jobId generatedAt)
      some ⟨files, .writing r retry op ops⟩
    | none => none
  | .httpError status body =>
    if !retry && shouldRetry w.lib status body then some ⟨files, .posting r i true⟩
    else some ⟨files, .loop r.fail⟩
  | .raised => some ⟨files, afterFault r retry⟩

def next (s : State) : Label → Option State
  | .start resume =>
    match s.pc with
    | .idle | .finished _ => some { s with pc := .opening resume }
    | _ => none
  | .openManifest =>
    match s.pc with
    | .opening resume =>
      some ⟨if resume then s.files else Function.update s.files (manifestPath w.settings) none,
        .loop ⟨resume, w.plan.items, 0⟩⟩
    | _ => none
  | .next =>
    match s.pc with
    | .loop ⟨resume, i :: rest, failures⟩ =>
      if resume && existing s.files w.settings i then
        some { s with pc := .loop ⟨resume, rest, failures⟩ }
      else some { s with pc := .posting ⟨resume, rest, failures⟩ i false }
    | _ => none
  | .reply reply =>
    match s.pc with
    | .posting r i retry => afterReply w s.files r i retry reply
    | _ => none
  | .write =>
    match s.pc with
    | .writing r retry op ops => some ⟨op.run s.files, afterWrite r retry ops⟩
    | _ => none
  | .fault progress =>
    match s.pc with
    | .writing r retry op _ => some ⟨op.torn progress s.files, afterFault r retry⟩
    | _ => none
  | .kill progress =>
    match s.pc with
    | .idle | .finished _ => none
    | .writing _ _ op _ => some ⟨op.torn progress s.files, .idle⟩
    | _ => some { s with pc := .idle }
  | .finish =>
    match s.pc with
    | .loop ⟨_, [], failures⟩ =>
      match w.plan.stop with
      | none => some { s with pc := .finished failures }
      | some _ => some { s with pc := .idle }
    | _ => none

end image_gen.bundle_run

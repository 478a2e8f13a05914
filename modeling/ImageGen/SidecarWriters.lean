-- The sidecar of one LoRA under all who write it: the touches of handlers and
-- workers (`app/validation.py`), the fetcher and the eviction. The touches and
-- the fetcher share one temporary name.
import ImageGen.Coroutine
import ImageGen.Json
import ImageGen.PyDict
import ImageGen.Runs

namespace image_gen.sidecar_writers

open image_gen.coroutine image_gen.json
open image_gen.runs (AllSteps allSteps_cons)

abbrev Fields := List (String × Json)

/-! ## The operations -/

/-- A file, as `json.loads` finds its text. -/
inductive Content
  | empty
  | value (value : Json)
  /-- The text of no value, or bytes that are no text. -/
  | broken (decodes : Bool)

inductive Exc
  | os
  | jsonDecode
  | other
  deriving DecidableEq

structure Now where
  isoformat : String
  /-- A text that `fromisoformat` reads as a time inside the debounce window. -/
  fresh : String → Bool

inductive Op
  | isFile
  /-- `read_text`, and `json.loads` of the text. -/
  | load
  | now
  | mkdirParent
  /-- The temporary file, created or truncated. -/
  | openTmp
  /-- All of `json.dumps`, into the file that was opened. -/
  | write (fields : Fields)
  /-- `os.replace` of the sidecar by the temporary file. -/
  | replace
  | unlinkTmp
  | unlinkLora
  | unlinkSidecar

@[reducible] def Op.Ans : Op → Type
  | .isFile => Bool
  | .load => Json
  | .now => Now
  | _ => Unit

abbrev Prog (α : Type) := Co Exc Op Op.Ans α

def ask (op : Op) : Prog op.Ans := Co.call op

/-! ## The writers -/

/-- An operation whose `OSError` is logged. -/
def quiet (op : Op) : Prog Bool :=
  tryCatch (do
    let _ ← ask op
    pure true) fun
  | .os => pure false
  | e => throw e

/-- The write of a touch. -/
def writing (fields : Fields) : Prog Unit :=
  tryCatch (do
    ask .openTmp
    ask (.write fields)
    ask .replace) fun
  | .os => do
    let _ ← quiet .unlinkTmp
    pure ()
  | e => throw e

def debounced (now : Now) : Json → Bool
  | .str previous => now.fresh previous
  | _ => false

def touchFields (fields : Fields) : Prog Unit := do
  let now ← ask .now
  if debounced now (Json.get fields "last_used") then pure ()
  else writing (py_dict.set fields "last_used" (.str now.isoformat))

/-- The sidecar, or none where it cannot be read. -/
def readSidecar : Prog (Option Json) :=
  tryCatch (do
    let value ← ask .load
    pure (some value)) fun
  | .os => pure none
  | .jsonDecode => pure none
  | e => throw e

/-- `_touch_last_used_sync`. -/
def touchLastUsedSync : Prog Unit := do
  let present ← ask .isFile
  if present then
    match ← readSidecar with
    | some (.obj fields) => touchFields fields
    | _ => pure ()
  else pure ()

/-- `_write_sidecar_atomic`. -/
def writeSidecarAtomic (payload : Fields) : Prog Unit := do
  ask .mkdirParent
  ask .openTmp
  ask (.write payload)
  ask .replace

/-- The body of the unlink loop, for this LoRA. -/
def evict : Prog Unit := do
  let deleted ← quiet .unlinkLora
  if deleted then do
    let _ ← quiet .unlinkSidecar
    pure ()
  else pure ()

/-! ## The directory -/

structure Files where
  /-- Every file that was created, whether a name leads to it or not. -/
  contents : List Content
  sidecar : Option Nat
  tmp : Option Nat

inductive Kind
  | touch
  | fetcher (payload : Fields)
  | eviction

/-- What a thread is for, and the fields that it has read and written. -/
structure Memory where
  kind : Kind
  read : Option Fields
  wrote : Option Fields

def Kind.isTouch : Kind → Bool
  | .touch => true
  | _ => false

/-- A thread, with the file that it has opened. -/
structure Proc where
  memory : Memory
  rest : Prog Unit
  handle : Option Nat
  /-- The version of the sidecar that it has read. -/
  seen : Option Nat

/-- What an operation meets. -/
structure Input where
  now : Now
  /-- It raises. A write that raises may leave anything in its file. -/
  fault : Option (Exc × Option Content)
  /-- The text over a text that was there, which another thread has written. -/
  overlay : Content → Fields → Content

def Content.write (inp : Input) (fields : Fields) : Content → Content
  | .empty => .value (.obj fields)
  | content => inp.overlay content fields

def Content.load : Content → Except Exc Json
  | .value v => .ok v
  | .empty => .error .jsonDecode
  | .broken true => .error .jsonDecode
  | .broken false => .error .other

/-- The answer to an operation, the directory after it and the file that is open. -/
abbrev Effect (op : Op) := Except Exc op.Ans × Files × Option Nat

def effect (inp : Input) (handle : Option Nat) : (op : Op) → Files → Effect op
  | .isFile, f => (.ok f.sidecar.isSome, f, handle)
  | .load, f =>
    match f.sidecar.bind (f.contents[·]?) with
    | none => (.error .os, f, handle)
    | some content => (content.load, f, handle)
  | .now, f => (.ok inp.now, f, handle)
  | .mkdirParent, f => (.ok (), f, handle)
  | .openTmp, f =>
    match f.tmp with
    | some i => (.ok (), { f with contents := f.contents.set i .empty }, some i)
    | none => (.ok (), { f with
        contents := f.contents ++ [.empty], tmp := some f.contents.length }, some f.contents.length)
  | .write fields, f =>
    match handle with
    | none => (.error .other, f, handle)
    | some i => (.ok (), { f with contents := f.contents.modify i (·.write inp fields) }, handle)
  | .replace, f =>
    match f.tmp with
    | none => (.error .os, f, handle)
    | some i => (.ok (), { f with sidecar := some i, tmp := none }, handle)
  | .unlinkTmp, f =>
    match f.tmp with
    | none => (.error .os, f, handle)
    | some _ => (.ok (), { f with tmp := none }, handle)
  | .unlinkLora, f => (.ok (), f, handle)
  | .unlinkSidecar, f =>
    match f.sidecar with
    | none => (.error .os, f, handle)
    | some _ => (.ok (), { f with sidecar := none }, handle)

/-- What a write that raises leaves. -/
def torn (handle : Option Nat) (content : Option Content) (f : Files) : Files :=
  match handle, content with
  | some i, some c => { f with contents := f.contents.set i c }
  | _, _ => f

def exec (inp : Input) (handle : Option Nat) (op : Op) (f : Files) : Effect op :=
  match inp.fault with
  | none => effect inp handle op f
  | some (e, content) =>
    match op with
    | .write _ => (.error e, torn handle content f, handle)
    | _ => (.error e, f, handle)

/-! ## The system -/

structure State where
  files : Files
  procs : List Proc
  /-- The sidecar that the fetcher has written last, unless the eviction has
  removed it since. -/
  last : Option Fields
  /-- The fetcher's renames and the eviction's removals so far. -/
  version : Nat
  /-- The threads that have written the temporary file since it was opened last;
  none is one whose write raised on the way. -/
  writers : List (Option Nat)

inductive Label
  | touch
  | fetch (payload : Fields)
  | evict
  /-- The next operation of a thread. -/
  | step (i : Nat) (inp : Input)

def spawn (kind : Kind) (rest : Prog Unit) : Proc := ⟨⟨kind, none, none⟩, rest, none, none⟩

def Memory.after (m : Memory) (op : Op) (r : Except Exc op.Ans) : Memory :=
  match op, r with
  | .load, .ok (.obj fields) => { m with read := some fields }
  | .write fields, .ok () => { m with wrote := some fields }
  | _, _ => m

def lastAfter (kind : Kind) (last : Option Fields) (op : Op) (r : Except Exc op.Ans) :
    Option Fields :=
  match op, r, kind with
  | .replace, .ok (), .fetcher payload => some payload
  | .unlinkSidecar, .ok (), _ => none
  | _, _, _ => last

def versionAfter (kind : Kind) (version : Nat) (op : Op) (r : Except Exc op.Ans) : Nat :=
  match op, r, kind with
  | .replace, .ok (), .fetcher _ => version + 1
  | .unlinkSidecar, .ok (), _ => version + 1
  | _, _, _ => version

def seenAfter (version : Nat) (seen : Option Nat) (op : Op) (r : Except Exc op.Ans) :
    Option Nat :=
  match op, r with
  | .load, .ok (.obj _) => some version
  | _, _ => seen

/-- The mark that a write leaves on its file. -/
def mark (i : Nat) (inp : Input) : List (Option Nat) :=
  match inp.fault with
  | none => [some i]
  | some (_, some _) => [none]
  | some (_, none) => []

def writersAfter (i : Nat) (inp : Input) (handle tmp : Option Nat) (writers : List (Option Nat))
    (op : Op) (r : Except Exc op.Ans) : List (Option Nat) :=
  match op, r with
  | .openTmp, .ok () => []
  | .write _, _ => if tmp = handle then writers ++ mark i inp else writers
  | _, _ => writers

def next (s : State) : Label → Option State
  | .touch => some { s with procs := s.procs ++ [spawn .touch touchLastUsedSync] }
  | .fetch payload => some { s with
      procs := s.procs ++ [spawn (.fetcher payload) (writeSidecarAtomic payload)] }
  | .evict => some { s with procs := s.procs ++ [spawn .eviction evict] }
  | .step i inp =>
    match s.procs[i]? with
    | some ⟨memory, .await op k, handle, seen⟩ =>
      let (answer, files, handle') := exec inp handle op s.files
      some {
        files := files
        procs := s.procs.set i
          ⟨memory.after op answer, k answer, handle', seenAfter s.version seen op answer⟩
        last := lastAfter memory.kind s.last op answer
        version := versionAfter memory.kind s.version op answer
        writers := writersAfter i inp handle s.files.tmp s.writers op answer }
    | _ => none

/-- With no sidecar, or with one that a fetcher has written. -/
def start : Option Fields → State
  | none => ⟨⟨[], none, none⟩, [], none, 0, []⟩
  | some fields => ⟨⟨[.value (.obj fields)], some 0, none⟩, [], some fields, 0, []⟩

/-! ## What holds of the sidecar -/

/-- All fields but one. -/
def lasting (fields : Fields) : Fields := py_dict.delete fields "last_used"

/-- The sidecar is absent, or the fields of the fetcher's last one are all there.
One that the eviction has removed is absent until the fetcher writes again. -/
def Whole (f : Files) (last : Option Fields) : Prop :=
  ∀ i, f.sidecar = some i → ∃ fields payload,
    f.contents[i]? = some (.value (.obj fields)) ∧ last = some payload ∧
      lasting fields = lasting payload

/-- The text of one thread may be renamed by another: by itself, and between touches. -/
def MayRename (i : Nat) (m : Memory) (w : Nat) (author : Memory) : Prop :=
  w = i ∨ m.kind.isTouch = true ∧ author.kind.isTouch = true

/-- The order of the operations in which nobody is in the way of a thread: between
its opening of the temporary file and its write, no one renames that file; what
it renames was written by one thread only since it was opened last; and the touch
that wrote it has read after the fetcher's last rename and the eviction's last
removal. -/
def Undisturbed (s : State) (i : Nat) (inp : Input) (p : Proc) : Op → Prop
  | .write _ => ∀ j, p.handle = some j → s.files.sidecar ≠ some j
  | .replace => inp.fault = none → s.files.tmp ≠ none → ∃ w author,
      s.writers = [some w] ∧ s.procs[w]? = some author ∧ MayRename i p.memory w author.memory ∧
        (author.memory.kind.isTouch = true → author.seen = some s.version)
  | _ => True

def UndisturbedStep (s : State) : Label → Prop
  | .step i inp =>
    match s.procs[i]? with
    | some ⟨memory, .await op k, handle, seen⟩ =>
      Undisturbed s i inp ⟨memory, .await op k, handle, seen⟩ op
    | _ => True
  | _ => True

/-! ## The threads -/

/-- What a thread writes: the fetcher its payload, a touch the fields that it has
read but for one. -/
def Memory.Owns (m : Memory) (fields : Fields) : Prop :=
  match m.kind with
  | .touch => ∃ old, m.read = some old ∧ lasting fields = lasting old
  | .fetcher payload => fields = payload
  | .eviction => False

/-- A thread reads before it writes, and writes once. -/
def Fit (m : Memory) : Op → Prop
  | .load => m.wrote = none
  | .write fields => m.wrote = none ∧ m.Owns fields
  | _ => True

/-- All that the program can do fits, whatever the answers are. -/
def Keeps : Prog Unit → Memory → Prop
  | .ret _, _ => True
  | .raise _, _ => True
  | .await op k, m => Fit m op ∧ ∀ r, Keeps (k r) (m.after op r)

theorem keeps_unlinkTmp (m : Memory) : Keeps (do
    let _ ← quiet .unlinkTmp
    pure ()) m := by
  refine ⟨trivial, fun r => ?_⟩
  rcases r with e | a
  · cases e <;> trivial
  · trivial

theorem keeps_writing {m : Memory} {fields : Fields} (hwrote : m.wrote = none)
    (howns : m.Owns fields) : Keeps (writing fields) m := by
  refine ⟨trivial, fun r => ?_⟩
  rcases r with e | a
  · cases e <;> first | exact keeps_unlinkTmp _ | trivial
  refine ⟨⟨hwrote, howns⟩, fun r => ?_⟩
  rcases r with e | a
  · cases e <;> first | exact keeps_unlinkTmp _ | trivial
  refine ⟨trivial, fun r => ?_⟩
  rcases r with e | a
  · cases e <;> first | exact keeps_unlinkTmp _ | trivial
  · trivial

theorem keeps_touchFields {m : Memory} {fields : Fields} (hkind : m.kind = .touch)
    (hread : m.read = some fields) (hwrote : m.wrote = none) : Keeps (touchFields fields) m := by
  refine ⟨trivial, fun r => ?_⟩
  rcases r with e | now
  · trivial
  have howns : m.Owns (py_dict.set fields "last_used" (.str now.isoformat)) := by
    simp only [Memory.Owns, hkind]
    exact ⟨fields, hread, py_dict.delete_set_self fields _ _⟩
  change Keeps (if debounced now (Json.get fields "last_used") then pure ()
    else writing (py_dict.set fields "last_used" (.str now.isoformat))) m
  split
  · trivial
  · exact keeps_writing hwrote howns

theorem keeps_touch : Keeps touchLastUsedSync ⟨.touch, none, none⟩ := by
  refine ⟨trivial, fun r => ?_⟩
  rcases r with e | present
  · trivial
  cases present
  · trivial
  refine ⟨rfl, fun r => ?_⟩
  rcases r with e | v
  · cases e <;> trivial
  cases v with
  | obj fields => exact keeps_touchFields rfl rfl rfl
  | null => trivial
  | bool _ => trivial
  | int _ => trivial
  | float _ => trivial
  | str _ => trivial
  | arr _ => trivial

theorem keeps_writeSidecarAtomic (payload : Fields) :
    Keeps (writeSidecarAtomic payload) ⟨.fetcher payload, none, none⟩ := by
  refine ⟨trivial, fun r => ?_⟩
  rcases r with e | a
  · trivial
  refine ⟨trivial, fun r => ?_⟩
  rcases r with e | a
  · trivial
  refine ⟨⟨rfl, rfl⟩, fun r => ?_⟩
  rcases r with e | a
  · trivial
  refine ⟨trivial, fun r => ?_⟩
  cases r <;> trivial

theorem keeps_evict : Keeps evict ⟨.eviction, none, none⟩ := by
  refine ⟨trivial, fun r => ?_⟩
  rcases r with e | a
  · cases e <;> trivial
  refine ⟨trivial, fun r => ?_⟩
  rcases r with e | a
  · cases e <;> trivial
  · trivial

/-- The text that a thread has written is its own. -/
def Honest (m : Memory) : Prop := ∀ fields, m.wrote = some fields → m.Owns fields

theorem honest_after {m : Memory} (h : Honest m) (op : Op) (hfit : Fit m op)
    (r : Except Exc op.Ans) : Honest (m.after op r) := by
  cases op with
  | load =>
    have hnone : m.wrote = none := hfit
    rcases r with e | v
    · exact h
    cases v with
    | obj fields =>
      intro fields' hwrote
      have hwrote' : m.wrote = some fields' := hwrote
      rw [hnone] at hwrote'
      cases hwrote'
    | _ => exact h
  | write fields =>
    rcases r with e | u
    · exact h
    · intro fields' hwrote
      obtain rfl := Option.some.inj hwrote
      exact hfit.2
  | _ => exact h

/-- Only a write changes what a thread has written. -/
theorem wrote_after {m : Memory} {op : Op} (r : Except Exc op.Ans)
    (hop : ∀ fields, op ≠ .write fields) : (m.after op r).wrote = m.wrote := by
  cases op with
  | load =>
    rcases r with e | v
    · rfl
    · cases v <;> rfl
  | write fields => exact absurd rfl (hop fields)
  | _ => rfl

@[simp] theorem kind_after {m : Memory} {op : Op} (r : Except Exc op.Ans) :
    (m.after op r).kind = m.kind := by
  cases op with
  | load =>
    rcases r with e | v
    · rfl
    · cases v <;> rfl
  | write fields => cases r <;> rfl
  | _ => rfl

/-! ## One operation -/

structure Sound (f : Files) (last : Option Fields) : Prop where
  whole : Whole f last
  bound : ∀ i, f.tmp = some i → i < f.contents.length
  apart : ∀ i, f.tmp = some i → f.sidecar ≠ some i

section Operations

variable {f f' : Files} {last : Option Fields} {inp : Input} {handle : Option Nat}

/-- The file of the sidecar keeps its text. -/
theorem Whole.of_same (h : Whole f last) (hsidecar : f'.sidecar = f.sidecar)
    (hsame : ∀ i, f.sidecar = some i → f'.contents[i]? = f.contents[i]?) : Whole f' last := by
  intro i hi
  rw [hsidecar] at hi
  rw [hsame i hi]
  exact h i hi

theorem Whole.lt (h : Whole f last) {i : Nat} (hi : f.sidecar = some i) :
    i < f.contents.length := by
  obtain ⟨fields, payload, hcontent, -⟩ := h i hi
  exact (List.getElem?_eq_some_iff.mp hcontent).1

/-- A write into another file than the sidecar's. -/
theorem Sound.set (h : Sound f last) {i : Nat} (hi : f.sidecar ≠ some i)
    (contents : List Content) (hlength : contents.length = f.contents.length)
    (hother : ∀ j, j ≠ i → contents[j]? = f.contents[j]?) :
    Sound { f with contents := contents } last where
  whole := h.whole.of_same rfl fun j hj => hother j (by
    rintro rfl
    exact hi hj)
  bound j hj := hlength ▸ h.bound j hj
  apart := h.apart

theorem sound_openTmp (h : Sound f last) :
    Sound (effect inp handle .openTmp f).2.1 last := by
  rcases htmp : f.tmp with _ | i
  · simp only [effect, htmp]
    refine ⟨?_, fun i hi => ?_, fun i hi hsidecar => ?_⟩
    · exact h.whole.of_same rfl fun i hi => List.getElem?_append_left (h.whole.lt hi)
    · obtain rfl := Option.some.inj hi
      simp
    · obtain rfl := Option.some.inj hi
      exact absurd (h.whole.lt hsidecar) (Nat.lt_irrefl _)
  · simp only [effect, htmp]
    have hset := h.set (h.apart i htmp) (f.contents.set i .empty) (by simp)
      fun j hj => List.getElem?_set_ne (Ne.symm hj)
    rwa [htmp] at hset

theorem sound_write (h : Sound f last) (fields : Fields)
    (hapart : ∀ j, handle = some j → f.sidecar ≠ some j) :
    Sound (exec inp handle (.write fields) f).2.1 last := by
  unfold exec
  rcases hfault : inp.fault with _ | ⟨e, content⟩
  · rcases handle with _ | i
    · exact h
    · refine h.set (hapart i rfl) _ (by simp) fun j hj => ?_
      rw [List.getElem?_modify_ne _ _ (Ne.symm hj)]
  · unfold torn
    dsimp only
    split
    · rename_i i c
      exact h.set (hapart i rfl) _ (by simp) fun j hj => List.getElem?_set_ne (Ne.symm hj)
    · exact h

/-- The temporary file holds what may become the sidecar. -/
def Renamable (f : Files) (last : Option Fields) (kind : Kind) : Prop :=
  ∀ j, f.tmp = some j → ∃ fields payload, f.contents[j]? = some (.value (.obj fields)) ∧
    lastAfter kind last .replace (.ok ()) = some payload ∧ lasting fields = lasting payload

theorem sound_replace (h : Sound f last) (kind : Kind)
    (hnew : inp.fault = none → Renamable f last kind) :
    Sound (exec inp handle .replace f).2.1
      (lastAfter kind last .replace (exec inp handle .replace f).1) := by
  rcases hfault : inp.fault with _ | ⟨e, content⟩
  · rcases htmp : f.tmp with _ | i
    · simp only [exec, hfault, effect, htmp, lastAfter]
      exact h
    · obtain ⟨fields, payload, hcontent, hlast, hlasting⟩ := hnew hfault i htmp
      simp only [exec, hfault, effect, htmp]
      refine ⟨fun j hj => ?_, nofun, nofun⟩
      obtain rfl := Option.some.inj hj
      exact ⟨fields, payload, hcontent, hlast, hlasting⟩
  · simp only [exec, hfault, lastAfter]
    exact h

/-- Operations that leave the directory as it is. -/
def Reads : Op → Prop
  | .isFile => True
  | .load => True
  | .now => True
  | .mkdirParent => True
  | .unlinkLora => True
  | _ => False

theorem exec_reads {op : Op} (hop : Reads op) : (exec inp handle op f).2.1 = f := by
  unfold exec
  rcases inp.fault with _ | ⟨e, content⟩
  · cases op with
    | load =>
      simp only [effect]
      split <;> rfl
    | isFile => rfl
    | now => rfl
    | mkdirParent => rfl
    | unlinkLora => rfl
    | openTmp => cases hop
    | write _ => cases hop
    | replace => cases hop
    | unlinkTmp => cases hop
    | unlinkSidecar => cases hop
  · cases op <;> first | rfl | cases hop

theorem sound_reads (h : Sound f last) (kind : Kind) (op : Op) (hop : Reads op)
    (r : Except Exc op.Ans) : Sound (exec inp handle op f).2.1 (lastAfter kind last op r) := by
  have hlast : lastAfter kind last op r = last := by
    cases op <;> first | rfl | cases hop
  rw [exec_reads hop, hlast]
  exact h

theorem sound_exec (h : Sound f last) (kind : Kind) (op : Op)
    (hwrite : ∀ fields, op = .write fields → ∀ j, handle = some j → f.sidecar ≠ some j)
    (hreplace : op = .replace → inp.fault = none → Renamable f last kind) :
    Sound (exec inp handle op f).2.1 (lastAfter kind last op (exec inp handle op f).1) := by
  cases op with
  | write fields => exact sound_write h fields (hwrite fields rfl)
  | replace => exact sound_replace h kind (hreplace rfl)
  | openTmp =>
    rcases hfault : inp.fault with _ | ⟨e, content⟩
    · simp only [exec, hfault, lastAfter]
      exact sound_openTmp h
    · simp only [exec, hfault, lastAfter]
      exact h
  | unlinkTmp =>
    rcases hfault : inp.fault with _ | ⟨e, content⟩
    · rcases htmp : f.tmp with _ | i
      · simp only [exec, hfault, effect, htmp, lastAfter]
        exact h
      · simp only [exec, hfault, effect, htmp, lastAfter]
        exact ⟨h.whole, nofun, nofun⟩
    · simp only [exec, hfault, lastAfter]
      exact h
  | unlinkSidecar =>
    rcases hfault : inp.fault with _ | ⟨e, content⟩
    · rcases hsidecar : f.sidecar with _ | i
      · simp only [exec, hfault, effect, hsidecar, lastAfter]
        exact h
      · simp only [exec, hfault, effect, hsidecar, lastAfter]
        exact ⟨nofun, h.bound, fun _ _ => nofun⟩
    · simp only [exec, hfault, lastAfter]
      exact h
  | isFile => exact sound_reads h kind .isFile trivial _
  | load => exact sound_reads h kind .load trivial _
  | now => exact sound_reads h kind .now trivial _
  | mkdirParent => exact sound_reads h kind .mkdirParent trivial _
  | unlinkLora => exact sound_reads h kind .unlinkLora trivial _

end Operations

/-! ## What a thread has read -/

/-- A thread that has seen the version that is there has read the fields of the
fetcher's last sidecar. -/
def Informed (last : Option Fields) (version : Nat) (read : Option Fields) (seen : Option Nat) :
    Prop :=
  ∀ v, seen = some v → v ≤ version ∧ (v = version → ∃ old payload,
    read = some old ∧ last = some payload ∧ lasting old = lasting payload)

section Reading

variable {f : Files} {inp : Input} {m : Memory} {handle seen : Option Nat} {last : Option Fields}
  {version : Nat}

/-- The fetcher's last sidecar changes with the version only. -/
theorem version_or (version : Nat) (last : Option Fields) (kind : Kind) (op : Op)
    (r : Except Exc op.Ans) :
    versionAfter kind version op r = version + 1 ∨
      versionAfter kind version op r = version ∧ lastAfter kind last op r = last := by
  cases op with
  | replace =>
    cases r with
    | error e => exact Or.inr ⟨rfl, rfl⟩
    | ok u =>
      cases kind with
      | fetcher payload => exact Or.inl rfl
      | touch => exact Or.inr ⟨rfl, rfl⟩
      | eviction => exact Or.inr ⟨rfl, rfl⟩
  | unlinkSidecar =>
    cases r with
    | error e => exact Or.inr ⟨rfl, rfl⟩
    | ok u => exact Or.inl rfl
  | _ => exact Or.inr ⟨rfl, rfl⟩

theorem informed_later {read : Option Fields} (h : Informed last version read seen) (kind : Kind)
    (op : Op) (r : Except Exc op.Ans) :
    Informed (lastAfter kind last op r) (versionAfter kind version op r) read seen := by
  intro v hv
  obtain ⟨hpast, hread⟩ := h v hv
  rcases version_or version last kind op r with hnew | ⟨hsame, hlast⟩
  · rw [hnew]
    exact ⟨by omega, fun heq => by omega⟩
  · rw [hsame, hlast]
    exact ⟨hpast, hread⟩

/-- What is read of a whole sidecar. -/
theorem load_of_whole (h : Whole f last) {v : Json}
    (hanswer : (exec inp handle .load f).1 = .ok v) : ∃ fields payload,
      v = .obj fields ∧ last = some payload ∧ lasting fields = lasting payload := by
  rcases hfault : inp.fault with _ | ⟨e, content⟩
  · rcases hsidecar : f.sidecar with _ | i
    · simp [exec, hfault, effect, hsidecar] at hanswer
    · obtain ⟨fields, payload, hcontent, hlast, hlasting⟩ := h i hsidecar
      simp only [exec, hfault, effect, hsidecar, Option.bind_some, hcontent, Content.load,
        Except.ok.injEq] at hanswer
      exact ⟨fields, payload, hanswer.symm, hlast, hlasting⟩
  · simp [exec, hfault] at hanswer

theorem informed_step (h : Informed last version m.read seen) (hwhole : Whole f last) (op : Op)
    {r : Except Exc op.Ans} (hr : (exec inp handle op f).1 = r) :
    Informed (lastAfter m.kind last op r) (versionAfter m.kind version op r) (m.after op r).read
      (seenAfter version seen op r) := by
  cases op with
  | load =>
    rcases r with e | v
    · exact h
    obtain ⟨fields, payload, rfl, hlast, hlasting⟩ := load_of_whole hwhole hr
    intro v hv
    obtain rfl := Option.some.inj hv
    exact ⟨Nat.le_refl _, fun _ => ⟨fields, payload, rfl, hlast, hlasting⟩⟩
  | write fields => cases r <;> exact h
  | replace => exact informed_later h m.kind .replace r
  | unlinkSidecar => exact informed_later h m.kind .unlinkSidecar r
  | _ => exact h

end Reading

/-! ## The temporary file -/

/-- What is in the temporary file after these writes. -/
def Text (wrote : Nat → Option Fields) (content : Option Content) : List (Option Nat) → Prop
  | [] => content = some .empty
  | [some w] => ∃ fields, wrote w = some fields ∧ content = some (.value (.obj fields))
  | _ => True

def TmpText (wrote : Nat → Option Fields) (f : Files) (writers : List (Option Nat)) : Prop :=
  ∀ j, f.tmp = some j → Text wrote f.contents[j]? writers

section Writing

variable {f : Files} {inp : Input} {handle : Option Nat} {writers : List (Option Nat)}
  {wrote wrote' : Nat → Option Fields} {content : Option Content}

theorem text_none (l : List (Option Nat)) : Text wrote content (none :: l) := by
  cases l <;> trivial

theorem text_many (a b : Option Nat) (l : List (Option Nat)) :
    Text wrote content (a :: b :: l) := by
  cases a <;> trivial

theorem text_congr {l : List (Option Nat)} (h : Text wrote content l)
    (hsame : ∀ w fields, wrote w = some fields → wrote' w = some fields) :
    Text wrote' content l := by
  rcases l with _ | ⟨a | w, _ | ⟨b, l⟩⟩
  · exact h
  · trivial
  · trivial
  · obtain ⟨fields, hw, hcontent⟩ := h
    exact ⟨fields, hsame w fields hw, hcontent⟩
  · trivial

/-- A write by a thread that has not written yet. -/
theorem tmpText_write (h : TmpText wrote f writers) {i : Nat} (fields : Fields)
    (hfresh : wrote i = none) (hothers : ∀ w, w ≠ i → wrote' w = wrote w)
    (hnew : (exec inp handle (.write fields) f).1 = .ok () → wrote' i = some fields) :
    TmpText wrote' (exec inp handle (.write fields) f).2.1
      (writersAfter i inp handle f.tmp writers (.write fields)
        (exec inp handle (.write fields) f).1) := by
  have hsame : ∀ w fields, wrote w = some fields → wrote' w = some fields := by
    intro w fields hw
    rw [hothers w, hw]
    rintro rfl
    rw [hfresh] at hw
    cases hw
  intro j hj
  have htmp : f.tmp = some j := by
    rw [← hj]
    unfold exec torn
    rcases inp.fault with _ | ⟨e, _ | c⟩ <;> rcases handle with _ | i <;> rfl
  have hbefore := text_congr (h j htmp) hsame
  simp only [writersAfter, htmp]
  split
  · rename_i hhandle
    subst hhandle
    rcases hfault : inp.fault with _ | ⟨e, _ | c⟩
    · have hi := hnew (by simp only [exec, hfault, effect])
      simp only [mark, hfault, exec, effect, List.getElem?_modify_eq]
      rcases writers with _ | ⟨a, _ | ⟨b, l⟩⟩
      · have hempty : f.contents[j]? = some .empty := hbefore
        rw [hempty]
        exact ⟨fields, hi, rfl⟩
      · exact text_many _ _ _
      · exact text_many _ _ _
    · simpa only [mark, hfault, exec, torn, List.append_nil] using hbefore
    · simp only [mark, hfault]
      rcases writers with _ | ⟨a, _ | ⟨b, l⟩⟩
      · exact text_none []
      · exact text_many _ _ _
      · exact text_many _ _ _
  · rename_i hhandle
    have helse : (exec inp handle (.write fields) f).2.1.contents[j]? = f.contents[j]? := by
      rcases handle with _ | i
      · unfold exec torn
        rcases inp.fault with _ | ⟨e, _ | c⟩ <;> rfl
      · have hne : i ≠ j := fun heq => hhandle (congrArg some heq.symm)
        unfold exec torn
        rcases inp.fault with _ | ⟨e, _ | c⟩
        · exact List.getElem?_modify_ne _ _ hne
        · rfl
        · exact List.getElem?_set_ne hne
    rw [helse]
    exact hbefore

theorem tmpText_openTmp (h : TmpText wrote f writers)
    (hbound : ∀ j, f.tmp = some j → j < f.contents.length) (i : Nat) :
    TmpText wrote (exec inp handle .openTmp f).2.1
      (writersAfter i inp handle f.tmp writers .openTmp (exec inp handle .openTmp f).1) := by
  unfold exec
  rcases inp.fault with _ | ⟨e, content⟩
  · intro j hj
    rcases htmp : f.tmp with _ | k
    · simp only [effect, htmp, Option.some.injEq] at hj ⊢
      subst hj
      simp [writersAfter, Text]
    · simp only [effect, htmp, Option.some.injEq] at hj ⊢
      subst hj
      simp [writersAfter, Text, hbound k htmp]
  · exact h

theorem tmpText_reads (h : TmpText wrote f writers) (i : Nat) (op : Op) (hop : Reads op) :
    TmpText wrote (exec inp handle op f).2.1
      (writersAfter i inp handle f.tmp writers op (exec inp handle op f).1) := by
  have hwriters : ∀ r, writersAfter i inp handle f.tmp writers op r = writers := by
    intro r
    cases op <;> first | rfl | cases hop
  rw [exec_reads hop, hwriters]
  exact h

/-- The other operations leave the temporary file alone, or take its name away. -/
theorem tmpText_other (h : TmpText wrote f writers) (i : Nat) (op : Op) (hopen : op ≠ .openTmp)
    (hwrite : ∀ fields, op ≠ .write fields) :
    TmpText wrote (exec inp handle op f).2.1
      (writersAfter i inp handle f.tmp writers op (exec inp handle op f).1) := by
  cases op with
  | openTmp => exact absurd rfl hopen
  | write fields => exact absurd rfl (hwrite fields)
  | replace =>
    unfold exec
    rcases inp.fault with _ | ⟨e, content⟩
    · rcases htmp : f.tmp with _ | j <;> simp only [effect, htmp, writersAfter]
      · exact h
      · exact nofun
    · exact h
  | unlinkTmp =>
    unfold exec
    rcases inp.fault with _ | ⟨e, content⟩
    · rcases htmp : f.tmp with _ | j <;> simp only [effect, htmp, writersAfter]
      · exact h
      · exact nofun
    · exact h
  | unlinkSidecar =>
    unfold exec
    rcases inp.fault with _ | ⟨e, content⟩
    · rcases hsidecar : f.sidecar with _ | j <;> simp only [effect, hsidecar, writersAfter] <;>
        exact h
    · exact h
  | isFile => exact tmpText_reads h i .isFile trivial
  | load => exact tmpText_reads h i .load trivial
  | now => exact tmpText_reads h i .now trivial
  | mkdirParent => exact tmpText_reads h i .mkdirParent trivial
  | unlinkLora => exact tmpText_reads h i .unlinkLora trivial

end Writing

/-! ## Whole runs -/

/-- The text that each thread has written. -/
def wroteOf (procs : List Proc) (w : Nat) : Option Fields := procs[w]?.bind (·.memory.wrote)

structure Thread (last : Option Fields) (version : Nat) (p : Proc) : Prop where
  keeps : Keeps p.rest p.memory
  honest : Honest p.memory
  informed : Informed last version p.memory.read p.seen

/-- The sidecar is whole, the temporary file has what its writers say, and every
thread goes on as it should. -/
structure Invariant (s : State) : Prop where
  files : Sound s.files s.last
  text : TmpText (wroteOf s.procs) s.files s.writers
  threads : ∀ p ∈ s.procs, Thread s.last s.version p

section Steps

variable {s : State} {i : Nat} {p : Proc} {inp : Input}

/-- What an undisturbed thread renames may become the sidecar. -/
theorem renamable_of_undisturbed (h : Invariant s) (hproc : s.procs[i]? = some p)
    (hok : Undisturbed s i inp p .replace) (hfault : inp.fault = none) :
    Renamable s.files s.last p.memory.kind := by
  intro j htmp
  obtain ⟨w, author, hwriters, hauthor, hmay, hseen⟩ := hok hfault (by simp [htmp])
  have htext := h.text j htmp
  rw [hwriters] at htext
  obtain ⟨fields, hwrote, hcontent⟩ := htext
  obtain ⟨-, honest, hinformed⟩ := h.threads author (List.mem_of_getElem? hauthor)
  simp only [wroteOf, hauthor, Option.bind_some] at hwrote
  have howns := honest fields hwrote
  have hself : w = i → author = p := by
    rintro rfl
    exact Option.some.inj (hauthor.symm.trans hproc)
  unfold Memory.Owns at howns
  rcases hkind : author.memory.kind with _ | payload | _ <;> rw [hkind] at howns hseen
  · -- a touch, which has read the version that is there
    obtain ⟨old, hread, hlasting⟩ := howns
    obtain ⟨-, hcurrent⟩ := hinformed s.version (hseen rfl)
    obtain ⟨old', payload, hread', hlast, hsame⟩ := hcurrent rfl
    obtain rfl := Option.some.inj (hread.symm.trans hread')
    have htouch : p.memory.kind = .touch := by
      rcases hmay with hw | ⟨htouch, -⟩
      · rw [← hself hw, hkind]
      · rcases hp : p.memory.kind <;> rw [hp] at htouch <;> first | rfl | cases htouch
    refine ⟨fields, payload, hcontent, ?_, hlasting.trans hsame⟩
    rw [htouch]
    exact hlast
  · -- the fetcher, which renames its own text
    have hp : author = p := by
      rcases hmay with hw | ⟨-, htouch⟩
      · exact hself hw
      · rw [hkind] at htouch
        cases htouch
    refine ⟨fields, payload, hcontent, ?_, congrArg lasting howns⟩
    rw [← hp, hkind]
    rfl
  · exact howns.elim

theorem wroteOf_set_ne {procs : List Proc} {w : Nat} (hw : w ≠ i) :
    wroteOf (procs.set i p) w = wroteOf procs w := by
  simp only [wroteOf, List.getElem?_set_ne (Ne.symm hw)]

theorem wroteOf_set_self {procs : List Proc} {q : Proc} (hproc : procs[i]? = some q) :
    wroteOf (procs.set i p) i = p.memory.wrote := by
  have hlt := (List.getElem?_eq_some_iff.mp hproc).1
  simp [wroteOf, hlt]

/-- The temporary file after the next operation of a thread, with what each thread
has written by then. -/
theorem tmpText_step (h : Invariant s) {op : Op} {k : Except Exc op.Ans → Prog Unit}
    {memory : Memory} {handle seen : Option Nat}
    (hproc : s.procs[i]? = some ⟨memory, .await op k, handle, seen⟩) {p' : Proc}
    (hp' : p'.memory = memory.after op (exec inp handle op s.files).1) :
    TmpText (wroteOf (s.procs.set i p')) (exec inp handle op s.files).2.1
      (writersAfter i inp handle s.files.tmp s.writers op (exec inp handle op s.files).1) := by
  have hnow : wroteOf s.procs i = memory.wrote := by simp [wroteOf, hproc]
  have hthen := wroteOf_set_self (p := p') hproc
  have hothers : ∀ w, w ≠ i → wroteOf (s.procs.set i p') w = wroteOf s.procs w :=
    fun w hw => wroteOf_set_ne hw
  by_cases hwrite : ∃ fields, op = .write fields
  · obtain ⟨fields, rfl⟩ := hwrite
    have hfit := (h.threads _ (List.mem_of_getElem? hproc)).keeps.1
    refine tmpText_write h.text fields (hnow.trans hfit.1) hothers fun hanswer => ?_
    rw [hthen, hp', hanswer]
    rfl
  · have hother : ∀ fields, op ≠ .write fields := fun fields heq => hwrite ⟨fields, heq⟩
    have hsame : wroteOf (s.procs.set i p') = wroteOf s.procs := by
      funext w
      by_cases hw : w = i
      · rw [hw, hthen, hnow, hp']
        exact wrote_after _ hother
      · exact hothers w hw
    rw [hsame]
    by_cases hopen : op = .openTmp
    · subst hopen
      exact tmpText_openTmp h.text h.files.bound i
    · exact tmpText_other h.text i op hopen hother

theorem invariant_spawn (h : Invariant s) (kind : Kind) {rest : Prog Unit}
    (hrest : Keeps rest ⟨kind, none, none⟩) :
    Invariant { s with procs := s.procs ++ [spawn kind rest] } := by
  refine ⟨h.files, fun j hj => text_congr (h.text j hj) fun w fields hw => ?_, fun p hp => ?_⟩
  · obtain ⟨q, hq, hwrote⟩ := Option.bind_eq_some_iff.mp hw
    have hlt := (List.getElem?_eq_some_iff.mp hq).1
    simp only [wroteOf, List.getElem?_append_left hlt, hq, Option.bind_some]
    exact hwrote
  · rcases List.mem_append.mp hp with hp | hp
    · exact h.threads p hp
    · rw [List.mem_singleton.mp hp]
      exact ⟨hrest, nofun, nofun⟩

theorem invariant_step (h : Invariant s) {op : Op} {k : Except Exc op.Ans → Prog Unit}
    {memory : Memory} {handle seen : Option Nat}
    (hproc : s.procs[i]? = some ⟨memory, .await op k, handle, seen⟩)
    (hok : Undisturbed s i inp ⟨memory, .await op k, handle, seen⟩ op) {s' : State}
    (hnext : next s (.step i inp) = some s') : Invariant s' := by
  simp only [next, hproc] at hnext
  cases hnext
  obtain ⟨⟨hfit, hrest⟩, honest, hinformed⟩ := h.threads _ (List.mem_of_getElem? hproc)
  refine ⟨?_, tmpText_step h hproc rfl, fun q hq => ?_⟩
  · refine sound_exec h.files memory.kind op ?_ ?_
    · rintro fields rfl
      exact hok
    · rintro rfl hfault
      exact renamable_of_undisturbed h hproc hok hfault
  · rcases List.mem_or_eq_of_mem_set hq with hq | rfl
    · obtain ⟨hkeeps, hq', hknows⟩ := h.threads q hq
      exact ⟨hkeeps, hq', informed_later hknows memory.kind op _⟩
    · exact ⟨hrest _, honest_after honest op hfit _,
        informed_step hinformed h.files.whole op rfl⟩

theorem invariant_next (s : State) (l : Label) (s' : State) (h : Invariant s)
    (hok : UndisturbedStep s l) (hnext : next s l = some s') : Invariant s' := by
  cases l with
  | touch =>
    cases hnext
    exact invariant_spawn h .touch keeps_touch
  | fetch payload =>
    cases hnext
    exact invariant_spawn h (.fetcher payload) (keeps_writeSidecarAtomic payload)
  | evict =>
    cases hnext
    exact invariant_spawn h .eviction keeps_evict
  | step i inp =>
    simp only [UndisturbedStep] at hok
    split at hok
    · rename_i memory op k handle seen hproc
      exact invariant_step h hproc hok hnext
    · rename_i hnone
      simp only [next] at hnext
      cases hnext

end Steps

theorem invariant_start (sidecar : Option Fields) : Invariant (start sidecar) := by
  cases sidecar with
  | none => exact ⟨⟨nofun, nofun, nofun⟩, nofun, nofun⟩
  | some fields =>
    refine ⟨⟨fun i hi => ?_, nofun, nofun⟩, nofun, nofun⟩
    obtain rfl := Option.some.inj hi
    exact ⟨fields, fields, rfl, rfl, rfl⟩

/-- In every run of any number of writers who are not in each other's way, the
sidecar is absent or whole in every state. -/
theorem undisturbed_writers_keep_the_sidecar_whole {sidecar : Option Fields}
    {labels : List Label} {s : State}
    (hok : AllSteps next UndisturbedStep (start sidecar) labels)
    (hrun : runs.exec next (start sidecar) labels = some s) : Whole s.files s.last :=
  (runs.invariant invariant_next (invariant_start sidecar) hok hrun).files.whole

/-! ## Three writers at once -/

def firstSidecar : Fields := [("name", .str "civitai/a_7"), ("last_used", .null)]

def secondSidecar : Fields := [("name", .str "civitai/a_7"), ("sha256", .str "ab"),
  ("last_used", .null)]

def ordinary : Input := ⟨⟨"2026-01-01T00:00:00+00:00", fun _ => false⟩, none, fun c _ => c⟩

/-- The operations of one thread, one after the other. -/
def steps (i n : Nat) : List Label := List.replicate n (.step i ordinary)

/-- Two touches have read the sidecar when the first one writes. The second one
opens the file again and writes, the first one renames that text, and the second
one finds nothing to rename. The fetcher, under way since, then writes another
sidecar. -/
def threeWriters : List Label := [.touch, .touch, .fetch secondSidecar] ++ steps 0 4 ++
  steps 1 3 ++ steps 2 1 ++ steps 0 1 ++ steps 1 2 ++ steps 0 1 ++ steps 1 2 ++ steps 2 3

theorem threeWriters_undisturbed :
    AllSteps next UndisturbedStep (start (some firstSidecar)) threeWriters := by
  iterate 11 refine allSteps_cons trivial rfl ?_
  refine allSteps_cons (fun j hj => ?_) rfl ?_
  · cases hj
    decide
  refine allSteps_cons trivial rfl ?_
  refine allSteps_cons (fun j hj => ?_) rfl ?_
  · cases hj
    decide
  refine allSteps_cons (fun _ _ => ⟨1, _, rfl, rfl, Or.inr ⟨rfl, rfl⟩, fun _ => rfl⟩) rfl ?_
  refine allSteps_cons (fun _ hnone => absurd rfl hnone) rfl ?_
  iterate 2 refine allSteps_cons trivial rfl ?_
  refine allSteps_cons (fun j hj => ?_) rfl ?_
  · cases hj
    decide
  refine allSteps_cons (fun _ _ => ⟨2, _, rfl, rfl, Or.inl rfl, fun htouch => ?_⟩) rfl trivial
  cases htouch

theorem three_writers_keep_the_sidecar_whole :
    ∃ s, runs.exec next (start (some firstSidecar)) threeWriters = some s ∧
      s.last = some secondSidecar ∧ Whole s.files s.last :=
  ⟨_, rfl, rfl, undisturbed_writers_keep_the_sidecar_whole threeWriters_undisturbed rfl⟩

/-! ## Two touches at once -/

/-- The first touch has written its text, the second one has just opened the same
file, and the first one renames it. -/
def twoTouches : List Label := [.touch, .touch] ++ steps 0 5 ++ steps 1 4 ++ steps 0 1

/-- The sidecar is an empty file. -/
def Emptied (s : State) : Bool :=
  match s.files.sidecar.bind (s.files.contents[·]?) with
  | some .empty => true
  | _ => false

theorem two_touches_tear_the_sidecar :
    ∃ s, runs.exec next (start (some firstSidecar)) twoTouches = some s ∧
      ¬ Whole s.files s.last := by
  have hemptied : (runs.exec next (start (some firstSidecar)) twoTouches).map Emptied =
      some true := by
    rfl
  obtain ⟨s, hrun, hs⟩ := Option.map_eq_some_iff.mp hemptied
  refine ⟨s, hrun, fun hwhole => ?_⟩
  unfold Emptied at hs
  rcases hsidecar : s.files.sidecar with _ | i
  · rw [hsidecar] at hs
    cases hs
  · obtain ⟨fields, payload, hcontent, -⟩ := hwhole i hsidecar
    rw [hsidecar, Option.bind_some, hcontent] at hs
    cases hs

end image_gen.sidecar_writers

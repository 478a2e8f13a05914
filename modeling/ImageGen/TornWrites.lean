-- Whole-file writes and appends that may stop on the way. A write that stops
-- leaves the first bytes of what it was to write, or has not begun.
import Mathlib.Logic.Function.Basic

namespace image_gen.torn_writes

variable {κ β : Type}

/-- The contents of the files. -/
abbrev Files (κ β : Type) := κ → Option (List β)

inductive Op (κ β : Type)
  | overwrite (path : κ) (content : List β)
  | append (path : κ) (content : List β)

namespace Op

def path : Op κ β → κ
  | overwrite p _ => p
  | append p _ => p

@[simp] theorem path_overwrite (p : κ) (c : List β) : (overwrite p c).path = p := rfl

@[simp] theorem path_append (p : κ) (c : List β) : (append p c).path = p := rfl

def content : Op κ β → List β
  | overwrite _ c => c
  | append _ c => c

variable [DecidableEq κ]

/-- What the file holds with this much of the content written. -/
def holds (op : Op κ β) (files : Files κ β) (written : List β) : List β :=
  match op with
  | overwrite _ _ => written
  | append p _ => (files p).getD [] ++ written

/-- The files with `n` elements written. `none` is before the file is opened. -/
def torn (op : Op κ β) : Option Nat → Files κ β → Files κ β
  | none, files => files
  | some n, files => Function.update files op.path (some (op.holds files (op.content.take n)))

/-- The whole write. -/
def run (op : Op κ β) (files : Files κ β) : Files κ β :=
  Function.update files op.path (some (op.holds files op.content))

theorem torn_of_le {op : Op κ β} {n : Nat} (h : op.content.length ≤ n) (files : Files κ β) :
    op.torn (some n) files = op.run files := by
  rw [torn, run, List.take_of_length_le h]

theorem torn_other {op : Op κ β} {p : κ} (h : p ≠ op.path) (progress : Option Nat)
    (files : Files κ β) : op.torn progress files p = files p := by
  cases progress with
  | none => rfl
  | some n => exact Function.update_of_ne h _ _

theorem run_other {op : Op κ β} {p : κ} (h : p ≠ op.path) (files : Files κ β) :
    op.run files p = files p := Function.update_of_ne h _ _

@[simp] theorem run_overwrite (p : κ) (c : List β) (files : Files κ β) :
    (overwrite p c).run files p = some c := Function.update_self _ _ _

@[simp] theorem run_append (p : κ) (c : List β) (files : Files κ β) :
    (append p c).run files p = some ((files p).getD [] ++ c) := Function.update_self _ _ _

/-- Of an overwrite that has not put anything there, nothing or an empty file is left. -/
theorem torn_overwrite_empty {p : κ} {c : List β} {progress : Option Nat}
    (h : progress = none ∨ progress = some 0) (files : Files κ β) :
    (overwrite p c).torn progress files p = files p ∨
      (overwrite p c).torn progress files p = some [] := by
  rcases h with rfl | rfl
  · exact Or.inl rfl
  · exact Or.inr (Function.update_self _ _ _)

end Op

end image_gen.torn_writes

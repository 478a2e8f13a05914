-- Coroutines: programs that stop at each `await`. A scheduler answers the
-- operation, with a value or with an exception, and the program goes on. A
-- crash drops the rest of the program and keeps the state it has written.
import Mathlib.Logic.Basic

namespace image_gen.coroutine

/-- A coroutine over the operations `Op`. -/
inductive Co (ε : Type) (Op : Type) (Ans : Op → Type) (α : Type) where
  | ret (a : α)
  | raise (e : ε)
  | await (op : Op) (k : Except ε (Ans op) → Co ε Op Ans α)

namespace Co

variable {ε Op : Type} {Ans : Op → Type} {α β σ : Type}

/-- Sequencing: an exception skips the rest. -/
def bind : Co ε Op Ans α → (α → Co ε Op Ans β) → Co ε Op Ans β
  | .ret a, f => f a
  | .raise e, _ => .raise e
  | .await op k, f => .await op (fun r => (k r).bind f)

/-- `try p except h`: `h` decides what to catch, and raises the rest again. -/
def catchWith : Co ε Op Ans α → (ε → Co ε Op Ans α) → Co ε Op Ans α
  | .ret a, _ => .ret a
  | .raise e, h => h e
  | .await op k, h => .await op (fun r => (k r).catchWith h)

instance : Monad (Co ε Op Ans) where
  pure := .ret
  bind := bind

instance : MonadExceptOf ε (Co ε Op Ans) where
  throw := .raise
  tryCatch := catchWith

/-- What an answer makes of the program that waited for it. -/
def ofExcept : Except ε α → Co ε Op Ans α
  | .ok a => .ret a
  | .error e => .raise e

/-- `await op`. -/
def call (op : Op) : Co ε Op Ans (Ans op) := .await op ofExcept

/-! ## Running to the end -/

section Run

variable (exec : (op : Op) → σ → Except ε (Ans op) × σ)

/-- Run to the end, with `exec` as the answer to each operation. -/
def run : Co ε Op Ans α → σ → Except ε α × σ
  | .ret a, s => (.ok a, s)
  | .raise e, s => (.error e, s)
  | .await op k, s => (k (exec op s).1).run (exec op s).2

@[simp] theorem run_pure (a : α) (s : σ) :
    (pure a : Co ε Op Ans α).run exec s = (.ok a, s) := rfl

@[simp] theorem run_ret (a : α) (s : σ) :
    (Co.ret a : Co ε Op Ans α).run exec s = (.ok a, s) := rfl

@[simp] theorem run_raise (e : ε) (s : σ) :
    (Co.raise e : Co ε Op Ans α).run exec s = (.error e, s) := rfl

@[simp] theorem run_throw (e : ε) (s : σ) :
    (throw e : Co ε Op Ans α).run exec s = (.error e, s) := rfl

@[simp] theorem run_ofExcept (r : Except ε α) (s : σ) :
    (ofExcept r : Co ε Op Ans α).run exec s = (r, s) := by
  cases r <;> rfl

@[simp] theorem run_call (op : Op) (s : σ) : (call op).run exec s = exec op s := by
  simp [call, run]

theorem run_bind (p : Co ε Op Ans α) (f : α → Co ε Op Ans β) (s : σ) :
    (p >>= f).run exec s =
      match p.run exec s with
      | (.ok a, s') => (f a).run exec s'
      | (.error e, s') => (.error e, s') := by
  change (p.bind f).run exec s = _
  induction p generalizing s with
  | ret a => rfl
  | raise e => rfl
  | await op k ih => exact ih _ _

theorem run_map (f : α → β) (p : Co ε Op Ans α) (s : σ) :
    (f <$> p).run exec s = ((p.run exec s).1.map f, (p.run exec s).2) := by
  change (p >>= fun a => pure (f a)).run exec s = _
  rw [run_bind]
  rcases p.run exec s with ⟨e | a, s'⟩ <;> rfl

theorem run_tryCatch (p : Co ε Op Ans α) (h : ε → Co ε Op Ans α) (s : σ) :
    (tryCatch p h : Co ε Op Ans α).run exec s =
      match p.run exec s with
      | (.ok a, s') => (.ok a, s')
      | (.error e, s') => (h e).run exec s' := by
  change (p.catchWith h).run exec s = _
  induction p generalizing s with
  | ret a => rfl
  | raise e => rfl
  | await op k ih => exact ih _ _

theorem run_bind_ok {p : Co ε Op Ans α} {f : α → Co ε Op Ans β} {s s' : σ} {a : α}
    (h : p.run exec s = (.ok a, s')) : (p >>= f).run exec s = (f a).run exec s' := by
  rw [run_bind, h]

theorem run_bind_error {p : Co ε Op Ans α} {f : α → Co ε Op Ans β} {s s' : σ} {e : ε}
    (h : p.run exec s = (.error e, s')) : (p >>= f).run exec s = (.error e, s') := by
  rw [run_bind, h]

end Run

/-! ## The log of a run -/

/-- An operation with its answer. -/
abbrev Event (ε : Type) {Op : Type} (Ans : Op → Type) := (op : Op) × Except ε (Ans op)

/-- `exec` with a log of what it answers, oldest first. -/
def logged (exec : (op : Op) → σ → Except ε (Ans op) × σ) (op : Op) (s : σ × List (Event ε Ans)) :
    Except ε (Ans op) × (σ × List (Event ε Ans)) :=
  ((exec op s.1).1, ((exec op s.1).2, s.2 ++ [⟨op, (exec op s.1).1⟩]))

/-- The log changes nothing of the run. -/
theorem run_logged (exec : (op : Op) → σ → Except ε (Ans op) × σ) (p : Co ε Op Ans α) (s : σ)
    (log : List (Event ε Ans)) :
    (p.run (logged exec) (s, log)).1 = (p.run exec s).1 ∧
      (p.run (logged exec) (s, log)).2.1 = (p.run exec s).2 := by
  induction p generalizing s log with
  | ret a => exact ⟨rfl, rfl⟩
  | raise e => exact ⟨rfl, rfl⟩
  | await op k ih => exact ih _ _ _

/-! ## The operations of a program -/

/-- Every operation that the program can reach is in `P`, whatever the answers. -/
def All (P : Op → Prop) : Co ε Op Ans α → Prop
  | .ret _ => True
  | .raise _ => True
  | .await op k => P op ∧ ∀ r, (k r).All P

variable {P P' : Op → Prop}

theorem All.mono (hP : ∀ op, P op → P' op) {p : Co ε Op Ans α} (h : p.All P) : p.All P' := by
  induction p with
  | ret a => trivial
  | raise e => trivial
  | await op k ih => exact ⟨hP op h.1, fun r => ih r (h.2 r)⟩

theorem all_of_forall (h : ∀ op, P op) (p : Co ε Op Ans α) : p.All P := by
  induction p with
  | ret a => trivial
  | raise e => trivial
  | await op k ih => exact ⟨h op, ih⟩

@[simp] theorem all_pure (a : α) : (pure a : Co ε Op Ans α).All P := trivial

@[simp] theorem all_throw (e : ε) : (throw e : Co ε Op Ans α).All P := trivial

@[simp] theorem all_ofExcept (r : Except ε α) : (ofExcept r : Co ε Op Ans α).All P := by
  cases r <;> trivial

@[simp] theorem all_call (op : Op) : (call op : Co ε Op Ans (Ans op)).All P ↔ P op := by
  constructor
  · exact fun h => h.1
  · exact fun h => ⟨h, fun r => by cases r <;> trivial⟩

theorem all_bind {p : Co ε Op Ans α} {f : α → Co ε Op Ans β} (hp : p.All P)
    (hf : ∀ a, (f a).All P) : (p >>= f).All P := by
  change (p.bind f).All P
  induction p with
  | ret a => exact hf a
  | raise e => trivial
  | await op k ih => exact ⟨hp.1, fun r => ih r (hp.2 r)⟩

theorem all_call_bind {op : Op} {f : Ans op → Co ε Op Ans β}
    (h : (call op >>= f).All P) : P op ∧ ∀ a, (f a).All P :=
  ⟨h.1, fun a => h.2 (.ok a)⟩

/-- Every value that the program can return is in `A`, whatever the answers. -/
def Gives (A : α → Prop) : Co ε Op Ans α → Prop
  | .ret a => A a
  | .raise _ => True
  | .await _ k => ∀ r, (k r).Gives A

theorem gives_ofExcept {A : α → Prop} {r : Except ε α} (h : ∀ a, r = .ok a → A a) :
    (ofExcept r : Co ε Op Ans α).Gives A := by
  cases r with
  | ok a => exact h a rfl
  | error e => trivial

theorem gives_bind {A : β → Prop} (p : Co ε Op Ans α) {f : α → Co ε Op Ans β}
    (hf : ∀ a, (f a).Gives A) : (p >>= f).Gives A := by
  change (p.bind f).Gives A
  induction p with
  | ret a => exact hf a
  | raise e => trivial
  | await op k ih => exact fun r => ih r

theorem all_bind_gives {A : α → Prop} {p : Co ε Op Ans α} {f : α → Co ε Op Ans β}
    (hp : p.All P) (hA : p.Gives A) (hf : ∀ a, A a → (f a).All P) : (p >>= f).All P := by
  change (p.bind f).All P
  induction p with
  | ret a => exact hf a hA
  | raise e => trivial
  | await op k ih => exact ⟨hp.1, fun r => ih r (hp.2 r) (hA r)⟩

theorem all_tryCatch {p : Co ε Op Ans α} {h : ε → Co ε Op Ans α} (hp : p.All P)
    (hh : ∀ e, (h e).All P) : (tryCatch p h : Co ε Op Ans α).All P := by
  change (p.catchWith h).All P
  induction p with
  | ret a => trivial
  | raise e => exact hh e
  | await op k ih => exact ⟨hp.1, fun r => ih r (hp.2 r)⟩

/-- A run keeps what each of its operations keeps. -/
theorem run_of_all {exec : (op : Op) → σ → Except ε (Ans op) × σ} {I : σ → Prop}
    (h : ∀ op s, P op → I s → I (exec op s).2) {p : Co ε Op Ans α} (hp : p.All P) {s : σ}
    (hs : I s) : I (p.run exec s).2 := by
  induction p generalizing s with
  | ret a => exact hs
  | raise e => exact hs
  | await op k ih => exact ih _ (hp.2 _) (h op s hp.1 hs)

/-- What a run adds to a log is in what each of its operations is in. -/
theorem log_of_all {exec : (op : Op) → σ → Except ε (Ans op) × σ} {p : Co ε Op Ans α}
    (hp : p.All P) (s : σ) (log : List (Event ε Ans)) :
    ∀ e ∈ (p.run (logged exec) (s, log)).2.2, e ∈ log ∨ P e.1 := by
  have hstep : ∀ op (st : σ × List (Event ε Ans)), P op → (∀ e ∈ st.2, e ∈ log ∨ P e.1) →
      ∀ e ∈ (logged exec op st).2.2, e ∈ log ∨ P e.1 := by
    intro op st hop hst e he
    rcases List.mem_append.mp he with hold | hnew
    · exact hst e hold
    · rw [List.mem_singleton.mp hnew]
      exact Or.inr hop
  exact run_of_all hstep hp fun e he => Or.inl he

/-- What a run returns is in what the program can return. -/
theorem returned_of_gives {A : α → Prop} {exec : (op : Op) → σ → Except ε (Ans op) × σ}
    {p : Co ε Op Ans α} (hp : p.Gives A) {s : σ} {a : α} (h : (p.run exec s).1 = .ok a) : A a := by
  induction p generalizing s with
  | ret b =>
    cases h
    exact hp
  | raise e => cases h
  | await op k ih => exact ih _ (hp _) h

/-! ## The operations on some of the answers -/

/-- Every operation that the program can reach is in `P`, when each answer is one that `A`
allows. -/
def AllOn (A : (op : Op) → Except ε (Ans op) → Prop) (P : Op → Prop) : Co ε Op Ans α → Prop
  | .ret _ => True
  | .raise _ => True
  | .await op k => P op ∧ ∀ r, A op r → (k r).AllOn A P

section AllOn

variable {A : (op : Op) → Except ε (Ans op) → Prop} {P : Op → Prop}

theorem All.allOn {p : Co ε Op Ans α} (h : p.All P) : p.AllOn A P := by
  induction p with
  | ret a => trivial
  | raise e => trivial
  | await op k ih => exact ⟨h.1, fun r _ => ih r (h.2 r)⟩

theorem allOn_bind {p : Co ε Op Ans α} {f : α → Co ε Op Ans β} (hp : p.AllOn A P)
    (hf : ∀ a, (f a).AllOn A P) : (p >>= f).AllOn A P := by
  change (p.bind f).AllOn A P
  induction p with
  | ret a => exact hf a
  | raise e => trivial
  | await op k ih => exact ⟨hp.1, fun r hr => ih r (hp.2 r hr)⟩

theorem allOn_call_bind {op : Op} {f : Ans op → Co ε Op Ans β} (hop : P op)
    (hf : ∀ a, A op (.ok a) → (f a).AllOn A P) : (call op >>= f).AllOn A P := by
  refine ⟨hop, fun r hr => ?_⟩
  cases r with
  | ok a => exact hf a hr
  | error e => trivial

end AllOn

/-! ## What is left of a program -/

/-- Some answers to the operations of `p` have led here. -/
inductive LeftOf (p : Co ε Op Ans α) : Co ε Op Ans α → Prop
  | whole : LeftOf p p
  | answered {op : Op} {k : Except ε (Ans op) → Co ε Op Ans α} (h : LeftOf p (.await op k))
      (r : Except ε (Ans op)) : LeftOf p (k r)

/-! ## Programs under a monitor -/

section Watch

variable {μ : Type} (ready : μ → Op → Prop) (passed : μ → (op : Op) → Except ε (Ans op) → μ)

/-- Every operation that the program can reach is one that the monitor is ready for. The
monitor moves on with each answer. -/
def Watched : Co ε Op Ans α → μ → Prop
  | .ret _, _ => True
  | .raise _, _ => True
  | .await op k, m => ready m op ∧ ∀ r, (k r).Watched (passed m op r)

variable {ready passed}

theorem watched_call {op : Op} {m : μ} (h : ready m op) :
    (call op : Co ε Op Ans (Ans op)).Watched ready passed m :=
  ⟨h, fun r => by cases r <;> trivial⟩

theorem watched_call_bind {op : Op} {f : Ans op → Co ε Op Ans β} {m : μ} (h : ready m op)
    (hf : ∀ a, (f a).Watched ready passed (passed m op (.ok a))) :
    (call op >>= f).Watched ready passed m := by
  refine ⟨h, fun r => ?_⟩
  cases r with
  | ok a => exact hf a
  | error e => trivial

variable {A : μ → Prop} (hA : ∀ m op r, A m → ready m op → A (passed m op r))

include hA

/-- `A` is what the rest may know of the monitor. -/
theorem watched_bind {p : Co ε Op Ans α} {f : α → Co ε Op Ans β} {m : μ} (hm : A m)
    (hp : p.Watched ready passed m) (hf : ∀ a m', A m' → (f a).Watched ready passed m') :
    (p >>= f).Watched ready passed m := by
  change (p.bind f).Watched ready passed m
  induction p generalizing m with
  | ret a => exact hf a m hm
  | raise e => trivial
  | await op k ih => exact ⟨hp.1, fun r => ih r (hA m op r hm hp.1) (hp.2 r)⟩

theorem watched_tryCatch {p : Co ε Op Ans α} {h : ε → Co ε Op Ans α} {m : μ} (hm : A m)
    (hp : p.Watched ready passed m) (hh : ∀ e m', A m' → (h e).Watched ready passed m') :
    (tryCatch p h : Co ε Op Ans α).Watched ready passed m := by
  change (p.catchWith h).Watched ready passed m
  induction p generalizing m with
  | ret a => trivial
  | raise e => exact hh e m hm
  | await op k ih => exact ⟨hp.1, fun r => ih r (hA m op r hm hp.1) (hp.2 r)⟩

end Watch

/-! ## How a run ends -/

section Ends

variable (exec : (op : Op) → σ → Except ε (Ans op) × σ)

/-- The run from `s` returns in `A`, or raises in `B`. -/
def Ends (A : α → σ → Prop) (B : σ → Prop) (p : Co ε Op Ans α) (s : σ) : Prop :=
  match p.run exec s with
  | (.ok a, s') => A a s'
  | (.error _, s') => B s'

variable {exec} {A : α → σ → Prop} {B : σ → Prop}

theorem Ends.either {p : Co ε Op Ans α} {s : σ} (h : p.Ends exec A B s)
    (hA : ∀ a s', A a s' → B s') : B (p.run exec s).2 := by
  unfold Ends at h
  rcases hr : p.run exec s with ⟨e | a, s'⟩ <;> rw [hr] at h
  · exact h
  · exact hA a s' h

theorem ends_pure {a : α} {s : σ} (h : A a s) : (pure a : Co ε Op Ans α).Ends exec A B s := h

theorem ends_throw {e : ε} {s : σ} (h : B s) : (throw e : Co ε Op Ans α).Ends exec A B s := h

theorem ends_bind {A' : β → σ → Prop} {p : Co ε Op Ans α} {f : α → Co ε Op Ans β} {s : σ}
    (hp : p.Ends exec A B s) (hf : ∀ a s', A a s' → (f a).Ends exec A' B s') :
    (p >>= f).Ends exec A' B s := by
  unfold Ends at hp ⊢
  rw [run_bind]
  rcases hr : p.run exec s with ⟨e | a, s'⟩ <;> rw [hr] at hp
  · exact hp
  · exact hf a s' hp

theorem ends_tryCatch {B' : σ → Prop} {p : Co ε Op Ans α} {h : ε → Co ε Op Ans α} {s : σ}
    (hp : p.Ends exec A B' s) (hh : ∀ e s', B' s' → (h e).Ends exec A B s') :
    (tryCatch p h : Co ε Op Ans α).Ends exec A B s := by
  unfold Ends at hp ⊢
  rw [run_tryCatch]
  rcases hr : p.run exec s with ⟨e | a, s'⟩ <;> rw [hr] at hp
  · exact hh e s' hp
  · exact hp

theorem ends_of_all {P : Op → Prop} {I : σ → Prop}
    (h : ∀ op s, P op → I s → I (exec op s).2) {p : Co ε Op Ans α} (hp : p.All P) {s : σ}
    (hs : I s) : p.Ends exec (fun _ => I) I s := by
  have hI := run_of_all h hp hs
  unfold Ends
  rcases hr : p.run exec s with ⟨e | a, s'⟩ <;> rw [hr] at hI <;> exact hI

theorem Ends.mono {A' : α → σ → Prop} {B' : σ → Prop} {p : Co ε Op Ans α} {s : σ}
    (h : p.Ends exec A B s) (hA : ∀ a s', A a s' → A' a s') (hB : ∀ s', B s' → B' s') :
    p.Ends exec A' B' s := by
  unfold Ends at h ⊢
  rcases hr : p.run exec s with ⟨e | a, s'⟩ <;> rw [hr] at h
  · exact hB s' h
  · exact hA a s' h

end Ends

/-! ## Runs that follow a pure description -/

section Follows

variable {η γ δ : Type} (exec : (op : Op) → σ → Except ε (Ans op) × σ) (E : η → ε → σ → Prop)

/-- Run from `P`, the program ends as `c` says: in `Q` when `c` has a value, and
with an exception that `E` allows when `c` has an error. -/
def Follows (P Q : σ → Prop) (R : β → α → Prop) (c : Except η β) (p : Co ε Op Ans α) : Prop :=
  ∀ s, P s →
    match c, p.run exec s with
    | .ok b, (.ok a, s') => R b a ∧ Q s'
    | .error h, (.error e, s') => E h e s'
    | _, _ => False

variable {exec E} {P Q S : σ → Prop} {R : β → α → Prop}

theorem follows_pure {b : β} {a : α} (hR : R b a) :
    Follows exec E P P R (.ok b) (pure a : Co ε Op Ans α) := fun _ hs => ⟨hR, hs⟩

theorem Follows.bind {R' : δ → γ → Prop} {c : Except η β} {d : β → Except η δ}
    {p : Co ε Op Ans α} {f : α → Co ε Op Ans γ} (h : Follows exec E P Q R c p)
    (hf : ∀ b a, R b a → Follows exec E Q S R' (d b) (f a)) :
    Follows exec E P S R' (c >>= d) (p >>= f) := by
  intro s hs
  have hp := h s hs
  rw [run_bind]
  rcases hr : p.run exec s with ⟨r, s'⟩
  rw [hr] at hp
  rcases c with e | b <;> rcases r with e' | a
  · exact hp
  · exact hp.elim
  · exact hp.elim
  · exact hf b a hp.1 s' hp.2

/-- The last stage of the description need not be the last of the program. -/
theorem Follows.last {R' : β → γ → Prop} {c : Except η β} {p : Co ε Op Ans α}
    {f : α → Co ε Op Ans γ} (h : Follows exec E P Q R c p)
    (hf : ∀ b a, R b a → Follows exec E Q S R' (.ok b) (f a)) :
    Follows exec E P S R' c (p >>= f) := by
  have hc : c = c >>= fun b => .ok b := by cases c <;> rfl
  rw [hc]
  exact h.bind hf

/-- A stage of the program that the description leaves out. -/
theorem Follows.silent {R' : δ → γ → Prop} {b : β} {d : Except η δ} {p : Co ε Op Ans α}
    {f : α → Co ε Op Ans γ} (h : Follows exec E P Q R (.ok b) p)
    (hf : ∀ a, R b a → Follows exec E Q S R' d (f a)) :
    Follows exec E P S R' d (p >>= f) := by
  intro s hs
  have hp := h s hs
  rw [run_bind]
  rcases hr : p.run exec s with ⟨e | a, s'⟩
  · rw [hr] at hp
    exact hp.elim
  · rw [hr] at hp
    exact hf a hp.1 s' hp.2

theorem follows_error {e : η} {p : Co ε Op Ans α}
    (hp : ∀ s, P s → ∃ e' s', p.run exec s = (.error e', s') ∧ E e e' s') :
    Follows exec E P Q R (.error e) p := by
  intro s hs
  obtain ⟨e', s', hrun, hend⟩ := hp s hs
  rw [hrun]
  exact hend

theorem Follows.mapError {ζ : Type} {c : Except ζ β} {p : Co ε Op Ans α}
    (f : ζ → η) (h : Follows exec (fun z => E (f z)) P Q R c p) :
    Follows exec E P Q R (c.mapError f) p := by
  intro s hs
  have hp := h s hs
  rcases hr : p.run exec s with ⟨r, s'⟩
  rw [hr] at hp
  rcases c with z | b <;> rcases r with e | a <;> exact hp

variable (exec E) in
/-- As `Follows`, but when `c` has a value the program ends as it likes, in `Z`. -/
def LeadsTo (P : σ → Prop) (Z : Except ε α → σ → Prop) (c : Except η β) (p : Co ε Op Ans α) :
    Prop :=
  ∀ s, P s →
    match c, p.run exec s with
    | .ok _, (r, s') => Z r s'
    | .error h, (.error e, s') => E h e s'
    | .error _, (.ok _, _) => False

variable {Z : Except ε γ → σ → Prop}

theorem Follows.leadsTo {c : Except η β} {d : β → Except η δ} {p : Co ε Op Ans α}
    {f : α → Co ε Op Ans γ} (h : Follows exec E P Q R c p)
    (hf : ∀ b a, R b a → LeadsTo exec E Q Z (d b) (f a)) :
    LeadsTo exec E P Z (c >>= d) (p >>= f) := by
  intro s hs
  have hp := h s hs
  rw [run_bind]
  rcases hr : p.run exec s with ⟨r, s'⟩
  rw [hr] at hp
  rcases c with e | b <;> rcases r with e' | a
  · exact hp
  · exact hp.elim
  · exact hp.elim
  · exact hf b a hp.1 s' hp.2

theorem Follows.leadsTo_last {c : Except η β} {p : Co ε Op Ans α} {f : α → Co ε Op Ans γ}
    (h : Follows exec E P Q R c p)
    (hf : ∀ a s, Q s → Z ((f a).run exec s).1 ((f a).run exec s).2) :
    LeadsTo exec E P Z c (p >>= f) := by
  have hc : c = c >>= fun b => .ok b := by cases c <;> rfl
  rw [hc]
  exact h.leadsTo fun b a _ s hs => hf a s hs

theorem Follows.leadsTo_error {R' : β → γ → Prop} {e : η} {p : Co ε Op Ans γ}
    (h : Follows exec E P Q R' (.error e) p) :
    LeadsTo exec E P Z (.error e : Except η δ) p := by
  intro s hs
  have hp := h s hs
  rcases hr : p.run exec s with ⟨e' | a, s'⟩ <;> rw [hr] at hp <;> exact hp

theorem LeadsTo.mapError {ζ : Type} {c : Except ζ β} {p : Co ε Op Ans γ} (f : ζ → η)
    (h : LeadsTo exec (fun z => E (f z)) P Z c p) : LeadsTo exec E P Z (c.mapError f) p := by
  intro s hs
  have hp := h s hs
  rcases hr : p.run exec s with ⟨e | a, s'⟩ <;> rw [hr] at hp <;>
    rcases c with z | b <;> exact hp

end Follows

/-! ## Programs that may crash -/

section Crash

variable (step : (op : Op) → σ → Except ε (Ans op) → σ → Prop) (C : σ → Prop)

/-- From `s` the program keeps `C` after each of its operations, and ends in
`Q`. `C` is what a crash may leave behind. -/
def Holds (Q : Except ε α → σ → Prop) : Co ε Op Ans α → σ → Prop
  | .ret a, s => Q (.ok a) s
  | .raise e, s => Q (.error e) s
  | .await op k, s => ∀ r s', step op s r s' → C s' ∧ (k r).Holds Q s'

/-- `s'` is what the program leaves when it is cut off, or when it has ended. -/
def Stops : Co ε Op Ans α → σ → σ → Prop
  | .ret _, s, s' => s' = s
  | .raise _, s, s' => s' = s
  | .await op k, s, s' => s' = s ∨ ∃ r t, step op s r t ∧ (k r).Stops t s'

/-- The step whose state is the trace of the run. Any answer may come. -/
def traced (op : Op) (trace : List (Event ε Ans)) (r : Except ε (Ans op))
    (trace' : List (Event ε Ans)) : Prop := trace' = trace ++ [⟨op, r⟩]

/-- The program comes to this end. -/
def EndsIn : Co ε Op Ans α → σ → Except ε α → σ → Prop
  | .ret a, s, r, s' => r = .ok a ∧ s' = s
  | .raise e, s, r, s' => r = .error e ∧ s' = s
  | .await op k, s, r, s' => ∃ a t, step op s a t ∧ (k a).EndsIn t r s'

variable {step C} {Q Q' : Except ε α → σ → Prop}

theorem Holds.mono {p : Co ε Op Ans α} {s : σ} (h : p.Holds step C Q s)
    (hQ : ∀ r s, Q r s → Q' r s) : p.Holds step C Q' s := by
  induction p generalizing s with
  | ret a => exact hQ _ _ h
  | raise e => exact hQ _ _ h
  | await op k ih => exact fun r s' hs => ⟨(h r s' hs).1, ih r (h r s' hs).2⟩

theorem holds_call (op : Op) (s : σ) {Q : Except ε (Ans op) → σ → Prop}
    (h : ∀ r s', step op s r s' → C s' ∧ Q r s') : (call op).Holds step C Q s := by
  intro r s' hs
  refine ⟨(h r s' hs).1, ?_⟩
  cases r with
  | ok a => exact (h _ s' hs).2
  | error e => exact (h _ s' hs).2

theorem holds_bind {p : Co ε Op Ans α} {f : α → Co ε Op Ans β} {s : σ}
    {R : Except ε β → σ → Prop}
    (h : p.Holds step C (fun r s' =>
      match r with
      | .ok a => (f a).Holds step C R s'
      | .error e => R (.error e) s') s) : (p >>= f).Holds step C R s := by
  change (p.bind f).Holds step C R s
  induction p generalizing s with
  | ret a => exact h
  | raise e => exact h
  | await op k ih => exact fun r s' hs => ⟨(h r s' hs).1, ih r (h r s' hs).2⟩

theorem holds_tryCatch {p : Co ε Op Ans α} {h : ε → Co ε Op Ans α} {s : σ}
    (hp : p.Holds step C (fun r s' =>
      match r with
      | .ok a => Q (.ok a) s'
      | .error e => (h e).Holds step C Q s') s) :
    (tryCatch p h : Co ε Op Ans α).Holds step C Q s := by
  change (p.catchWith h).Holds step C Q s
  induction p generalizing s with
  | ret a => exact hp
  | raise e => exact hp
  | await op k ih => exact fun r s' hs => ⟨(hp r s' hs).1, ih r (hp r s' hs).2⟩

/-- A run is among those that a program holds for. -/
theorem run_of_holds {exec : (op : Op) → σ → Except ε (Ans op) × σ}
    (hexec : ∀ op s, step op s (exec op s).1 (exec op s).2) {p : Co ε Op Ans α} {s : σ}
    (h : p.Holds step C Q s) : Q (p.run exec s).1 (p.run exec s).2 := by
  induction p generalizing s with
  | ret a => exact h
  | raise e => exact h
  | await op k ih => exact ih _ (h _ _ (hexec op s)).2

/-- What each operation of a program keeps, a run may rely on. -/
theorem holds_of_all {P : Op → Prop} {I : σ → Prop}
    (h : ∀ op s r s', P op → I s → step op s r s' → C s' ∧ I s') {p : Co ε Op Ans α}
    (hp : p.All P) {s : σ} (hs : I s) : p.Holds step C (fun _ => I) s := by
  induction p generalizing s with
  | ret a => exact hs
  | raise e => exact hs
  | await op k ih =>
    intro r s' hstep
    obtain ⟨hC, hI⟩ := h op s r s' hp.1 hs hstep
    exact ⟨hC, ih r (hp.2 r) hI⟩

theorem stops_of_holds {p : Co ε Op Ans α} {s s' : σ} (h : p.Holds step C Q s)
    (hs : p.Stops step s s') : s' = s ∨ C s' := by
  induction p generalizing s with
  | ret a => exact .inl hs
  | raise e => exact .inl hs
  | await op k ih =>
    rcases hs with hsame | ⟨r, t, hstep, hrest⟩
    · exact .inl hsame
    · obtain ⟨hc, hk⟩ := h r t hstep
      rcases ih r hk hrest with rfl | hlater
      · exact .inr hc
      · exact .inr hlater

theorem end_of_holds {p : Co ε Op Ans α} {s s' : σ} {r : Except ε α} (h : p.Holds step C Q s)
    (hend : p.EndsIn step s r s') : Q r s' := by
  induction p generalizing s with
  | ret a =>
    obtain ⟨rfl, rfl⟩ := hend
    exact h
  | raise e =>
    obtain ⟨rfl, rfl⟩ := hend
    exact h
  | await op k ih =>
    obtain ⟨a, t, hstep, hrest⟩ := hend
    exact ih a (h a t hstep).2 hrest

/-- A run is one of the ways to an end. -/
theorem endsIn_run {exec : (op : Op) → σ → Except ε (Ans op) × σ}
    (hexec : ∀ op s, step op s (exec op s).1 (exec op s).2) (p : Co ε Op Ans α) (s : σ) :
    p.EndsIn step s (p.run exec s).1 (p.run exec s).2 := by
  induction p generalizing s with
  | ret a => exact ⟨rfl, rfl⟩
  | raise e => exact ⟨rfl, rfl⟩
  | await op k ih => exact ⟨_, _, hexec op s, ih _ _⟩

theorem stops_of_endsIn {p : Co ε Op Ans α} {s s' : σ} {r : Except ε α}
    (h : p.EndsIn step s r s') : p.Stops step s s' := by
  induction p generalizing s with
  | ret a => exact h.2
  | raise e => exact h.2
  | await op k ih =>
    obtain ⟨a, t, hstep, hrest⟩ := h
    exact .inr ⟨a, t, hstep, ih a hrest⟩

theorem stops_here (p : Co ε Op Ans α) (s : σ) : p.Stops step s s := by
  cases p with
  | ret a => rfl
  | raise e => rfl
  | await op k => exact .inl rfl

theorem stops_bind {p : Co ε Op Ans α} {f : α → Co ε Op Ans β} {s t s' : σ} {a : α}
    (hp : p.EndsIn step s (.ok a) t) (hf : (f a).Stops step t s') :
    (p >>= f).Stops step s s' := by
  change (p.bind f).Stops step s s'
  induction p generalizing s with
  | ret b =>
    obtain ⟨hb, rfl⟩ := hp
    cases hb
    exact hf
  | raise e => cases hp.1
  | await op k ih =>
    obtain ⟨r, u, hstep, hrest⟩ := hp
    exact .inr ⟨r, u, hstep, ih r hrest⟩

theorem endsIn_pure (a : α) (s : σ) : (pure a : Co ε Op Ans α).EndsIn step s (.ok a) s :=
  ⟨rfl, rfl⟩

theorem endsIn_call {op : Op} {s s' : σ} {r : Except ε (Ans op)} (h : step op s r s') :
    (call op).EndsIn step s r s' := by
  refine ⟨r, s', h, ?_⟩
  cases r <;> exact ⟨rfl, rfl⟩

theorem endsIn_bind {p : Co ε Op Ans α} {f : α → Co ε Op Ans β} {s t s' : σ} {a : α}
    {r : Except ε β} (hp : p.EndsIn step s (.ok a) t) (hf : (f a).EndsIn step t r s') :
    (p >>= f).EndsIn step s r s' := by
  change (p.bind f).EndsIn step s r s'
  induction p generalizing s with
  | ret b =>
    obtain ⟨hb, rfl⟩ := hp
    cases hb
    exact hf
  | raise e => cases hp.1
  | await op k ih =>
    obtain ⟨r', u, hstep, hrest⟩ := hp
    exact ⟨r', u, hstep, ih r' hrest⟩

theorem endsIn_bind_ok {p : Co ε Op Ans α} {f : α → Co ε Op Ans β} {s s' : σ} {b : β} :
    (p >>= f).EndsIn step s (.ok b) s' ↔
      ∃ a t, p.EndsIn step s (.ok a) t ∧ (f a).EndsIn step t (.ok b) s' := by
  constructor
  · intro h
    change (p.bind f).EndsIn step s (.ok b) s' at h
    induction p generalizing s with
    | ret a => exact ⟨a, s, ⟨rfl, rfl⟩, h⟩
    | raise e => cases h.1
    | await op k ih =>
      obtain ⟨r, u, hstep, hrest⟩ := h
      obtain ⟨a, t, hp, hf⟩ := ih r hrest
      exact ⟨a, t, ⟨r, u, hstep, hp⟩, hf⟩
  · rintro ⟨a, t, hp, hf⟩
    exact endsIn_bind hp hf

theorem endsIn_call_ok {op : Op} {s s' : σ} {a : Ans op} :
    (call op).EndsIn step s (.ok a) s' ↔ step op s (.ok a) s' := by
  constructor
  · rintro ⟨r, t, hstep, hrest⟩
    cases r with
    | error e => cases hrest.1
    | ok a' =>
      obtain ⟨ha, rfl⟩ := hrest
      cases ha
      exact hstep
  · exact endsIn_call

theorem endsIn_ofExcept_ok {x : Except ε α} {s s' : σ} {a : α} :
    (ofExcept x : Co ε Op Ans α).EndsIn step s (.ok a) s' ↔ x = .ok a ∧ s' = s := by
  cases x with
  | error e => exact ⟨fun h => (by cases h.1), fun h => (by cases h.1)⟩
  | ok b => exact and_congr_left fun _ => eq_comm

/-- A handler that only raises adds no way to return. -/
theorem endsIn_rethrow_ok {p : Co ε Op Ans α} {f : ε → ε} {s s' : σ} {a : α} :
    (tryCatch p fun e => throw (f e) : Co ε Op Ans α).EndsIn step s (.ok a) s' ↔
      p.EndsIn step s (.ok a) s' := by
  change (p.catchWith fun e => .raise (f e)).EndsIn step s (.ok a) s' ↔ _
  induction p generalizing s with
  | ret b => exact Iff.rfl
  | raise e => exact ⟨fun h => (by cases h.1), fun h => (by cases h.1)⟩
  | await op k ih => exact exists_congr fun r => exists_congr fun t => and_congr_right fun _ => ih r

theorem endsIn_tryCatch {p : Co ε Op Ans α} {h : ε → Co ε Op Ans α} {s s' : σ} {a : α}
    (hp : p.EndsIn step s (.ok a) s') :
    (tryCatch p h : Co ε Op Ans α).EndsIn step s (.ok a) s' := by
  change (p.catchWith h).EndsIn step s (.ok a) s'
  induction p generalizing s with
  | ret b => exact hp
  | raise e => cases hp.1
  | await op k ih =>
    obtain ⟨r, u, hstep, hrest⟩ := hp
    exact ⟨r, u, hstep, ih r hrest⟩

end Crash

end Co

end image_gen.coroutine

-- Critical sections under one lock: programs come, wait, and run one at a time from taking the
-- lock to giving it back. What they do to the shared state, they do one after the other.
import Mathlib.Logic.Relation
import ImageGen.Coroutine

namespace image_gen.sections

open image_gen.coroutine
open Relation (ReflTransGen)

variable {ε Op : Type} {Ans : Op → Type} {α σ ρ : Type}

/-! ## The lock and those around it -/

structure Pool (ε : Type) {Op : Type} (Ans : Op → Type) (α σ ρ : Type) where
  waiting : List ρ
  /-- The request that has the lock, with what is left of its section. -/
  inside : Option (ρ × Co ε Op Ans α)
  shared : σ
  /-- The requests that have given the lock back, the first one first. -/
  left : List (ρ × Except ε α)

def Pool.init (s : σ) : Pool ε Ans α σ ρ := ⟨[], none, s, []⟩

section Turns

variable (step : (op : Op) → σ → Except ε (Ans op) → σ → Prop) (body : ρ → Co ε Op Ans α)

/-- `async with lock: ..`, for any number of requests. The lock is given back however a section
ends. -/
inductive Turn : Pool ε Ans α σ ρ → Pool ε Ans α σ ρ → Prop
  | arrive (p : Pool ε Ans α σ ρ) (req : ρ) : Turn p { p with waiting := p.waiting ++ [req] }
  /-- It is cancelled while it waits. -/
  | giveUp (before after : List ρ) (req : ρ) (inside : Option (ρ × Co ε Op Ans α)) (s : σ)
      (left : List (ρ × Except ε α)) :
      Turn ⟨before ++ req :: after, inside, s, left⟩ ⟨before ++ after, inside, s, left⟩
  | enter (before after : List ρ) (req : ρ) (s : σ) (left : List (ρ × Except ε α)) :
      Turn ⟨before ++ req :: after, none, s, left⟩
        ⟨before ++ after, some (req, body req), s, left⟩
  | act (waiting : List ρ) (req : ρ) (op : Op) (k : Except ε (Ans op) → Co ε Op Ans α) (s s' : σ)
      (left : List (ρ × Except ε α)) (r : Except ε (Ans op)) (hstep : step op s r s') :
      Turn ⟨waiting, some (req, .await op k), s, left⟩ ⟨waiting, some (req, k r), s', left⟩
  | leave (waiting : List ρ) (req : ρ) (r : Except ε α) (s : σ) (left : List (ρ × Except ε α)) :
      Turn ⟨waiting, some (req, Co.ofExcept r), s, left⟩ ⟨waiting, none, s, left ++ [(req, r)]⟩

/-- The requests, one after the other, each as a whole. -/
inductive Serial : σ → List (ρ × Except ε α) → σ → Prop
  | none (s : σ) : Serial s [] s
  | next {s t u : σ} {left : List (ρ × Except ε α)} {req : ρ} {r : Except ε α}
      (h : Serial s left t) (hlast : (body req).EndsIn step t r u) : Serial s (left ++ [(req, r)]) u

/-- Where the request with the lock has come to, from the state that it has found. -/
inductive Standing : Option (ρ × Co ε Op Ans α) → σ → σ → Prop
  | free (s : σ) : Standing none s s
  | held (req : ρ) (rest : Co ε Op Ans α) (s t : σ) (hstops : (body req).Stops step s t)
      (hends : ∀ r u, rest.EndsIn step t r u → (body req).EndsIn step s r u)
      (hlater : ∀ u, rest.Stops step t u → (body req).Stops step s u) :
      Standing (some (req, rest)) s t

variable {step body}

theorem Standing.turn {p p' : Pool ε Ans α σ ρ} (h : Turn step body p p') {s₀ s : σ}
    (hserial : Serial step body s₀ p.left s) (hstanding : Standing step body p.inside s p.shared) :
    ∃ s', Serial step body s₀ p'.left s' ∧ Standing step body p'.inside s' p'.shared := by
  cases h with
  | arrive => exact ⟨s, hserial, hstanding⟩
  | giveUp => exact ⟨s, hserial, hstanding⟩
  | enter before after req shared left =>
    cases hstanding
    exact ⟨_, hserial, .held req (body req) _ _ (Co.stops_here _ _) (fun _ _ h => h)
      fun _ h => h⟩
  | act waiting req op k shared shared' left r hstep =>
    cases hstanding with
    | held _ _ _ _ hstops hends hlater =>
      refine ⟨s, hserial, .held req (k r) s shared' (hlater _ ?_) (fun r' u hu => ?_)
        fun u hu => ?_⟩
      · exact .inr ⟨r, shared', hstep, Co.stops_here _ _⟩
      · exact hends r' u ⟨r, shared', hstep, hu⟩
      · exact hlater u (.inr ⟨r, shared', hstep, hu⟩)
  | leave waiting req r shared left =>
    cases hstanding with
    | held _ _ _ _ hstops hends hlater =>
      have hend : (Co.ofExcept r : Co ε Op Ans α).EndsIn step shared r shared := by
        cases r <;> exact ⟨rfl, rfl⟩
      exact ⟨shared, hserial.next (hends r shared hend), .free shared⟩

/-- Whatever the order, the sections have been run one after the other, in the order in which
they gave the lock back. -/
theorem serial_of_turns {s₀ : σ} {p : Pool ε Ans α σ ρ}
    (h : ReflTransGen (Turn step body) (Pool.init s₀) p) :
    ∃ s, Serial step body s₀ p.left s ∧ Standing step body p.inside s p.shared := by
  induction h with
  | refl => exact ⟨s₀, .none s₀, .free s₀⟩
  | tail _ hturn ih =>
    obtain ⟨s, hserial, hstanding⟩ := ih
    exact hstanding.turn hturn hserial

theorem turns_of_endsIn {req : ρ} {rest : Co ε Op Ans α} {s t : σ} {r : Except ε α}
    (waiting : List ρ) (left : List (ρ × Except ε α)) (h : rest.EndsIn step s r t) :
    ReflTransGen (Turn step body) ⟨waiting, some (req, rest), s, left⟩
      ⟨waiting, none, t, left ++ [(req, r)]⟩ := by
  induction rest generalizing s with
  | ret a =>
    obtain ⟨rfl, rfl⟩ := h
    exact .single (.leave waiting req (.ok a) t left)
  | raise e =>
    obtain ⟨rfl, rfl⟩ := h
    exact .single (.leave waiting req (.error e) t left)
  | await op k ih =>
    obtain ⟨a, u, hstep, hrest⟩ := h
    exact .head (.act waiting req op k s u left a hstep) (ih a hrest)

/-- Every such sequence can come about. -/
theorem turns_of_serial {s t : σ} {left : List (ρ × Except ε α)} (h : Serial step body s left t) :
    ReflTransGen (Turn step body) (Pool.init s) ⟨[], none, t, left⟩ := by
  induction h with
  | none => exact .refl
  | @next t _ left req _ _ hlast ih =>
    refine (ih.tail (.arrive _ req)).trans (.head (.enter [] [] req t left) ?_)
    exact turns_of_endsIn [] left hlast

end Turns

/-! ## What a section does -/

section Effects

variable {step : (op : Op) → σ → Except ε (Ans op) → σ → Prop} {body : ρ → Co ε Op Ans α}
  (effect : ρ → Except ε α → σ → σ → Prop)

/-- The effects of the requests, one after the other. -/
inductive Effects : σ → List (ρ × Except ε α) → σ → Prop
  | none (s : σ) : Effects s [] s
  | next {s t u : σ} {left : List (ρ × Except ε α)} {req : ρ} {r : Except ε α}
      (h : Effects s left t) (hlast : effect req r t u) : Effects s (left ++ [(req, r)]) u

variable {effect}

theorem effects_of_serial
    (hbody : ∀ req s, (body req).Holds step (fun t => t = s ∨ ∃ a, effect req (.ok a) s t)
      (fun r t => effect req r s t) s) {s t : σ} {left : List (ρ × Except ε α)}
    (h : Serial step body s left t) : Effects effect s left t := by
  induction h with
  | none => exact .none _
  | next _ hlast ih => exact ih.next (Co.end_of_holds (hbody _ _) hlast)

/-- Each section changes the state once, as its effect says, and nothing after that. -/
theorem effects_of_turns
    (hbody : ∀ req s, (body req).Holds step (fun t => t = s ∨ ∃ a, effect req (.ok a) s t)
      (fun r t => effect req r s t) s) {s₀ : σ} {p : Pool ε Ans α σ ρ}
    (h : ReflTransGen (Turn step body) (Pool.init s₀) p) :
    ∃ s, Effects effect s₀ p.left s ∧ (p.shared = s ∨
      ∃ req rest a, p.inside = some (req, rest) ∧ effect req (.ok a) s p.shared) := by
  obtain ⟨s, hserial, hstanding⟩ := serial_of_turns h
  refine ⟨s, effects_of_serial hbody hserial, ?_⟩
  generalize p.inside = inside, p.shared = shared at hstanding
  cases hstanding with
  | free => exact .inl rfl
  | held req rest _ _ hstops _ _ =>
    rcases Co.stops_of_holds (hbody req s) hstops with hsame | hsame | ⟨a, ha⟩
    · exact .inl hsame
    · exact .inl hsame
    · exact .inr ⟨req, rest, a, rfl, ha⟩

/-- What every effect keeps holds at every moment. -/
theorem Effects.keep {I : σ → Prop} (hkeep : ∀ req r s t, effect req r s t → I s → I t)
    {s t : σ} {left : List (ρ × Except ε α)} (h : Effects effect s left t) (hs : I s) : I t := by
  induction h with
  | none => exact hs
  | next _ hlast ih => exact hkeep _ _ _ _ hlast ih

end Effects

end image_gen.sections

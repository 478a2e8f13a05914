-- Regular expressions of items that stand one after the other: what a match with
-- backtracking leaves of a text, and the substitution of all matches from left to right.
import Mathlib.Data.List.TakeWhile

namespace image_gen.regex

variable {α : Type}

/-! ## Patterns -/

inductive Item (α : Type)
  | one (p : α → Bool)
  /-- As many as there are, fewer where the rest of the pattern asks for it. -/
  | star (p : α → Bool)
  | boundary (word : α → Bool)

def starThen (p : α → Bool) (k : Option α → List α → Option (List α)) :
    Option α → List α → Option (List α)
  | prev, [] => k prev []
  | prev, c :: cs =>
    if p c then (starThen p k (some c) cs).orElse fun _ => k prev (c :: cs) else k prev (c :: cs)

def atBoundary (word : α → Bool) (prev : Option α) (text : List α) : Bool :=
  prev.any word != text.head?.any word

/-- What a match at the start of the text leaves of it, where `prev` stands before. -/
def run : List (Item α) → Option α → List α → Option (List α)
  | [], _, text => some text
  | .one _ :: _, _, [] => none
  | .one p :: rest, _, c :: cs => if p c then run rest (some c) cs else none
  | .star p :: rest, prev, text => starThen p (run rest) prev text
  | .boundary word :: rest, prev, text =>
    if atBoundary word prev text then run rest prev text else none

/-- The texts that an item list takes, without what stands around them. -/
def Takes : List (Item α) → List α → Prop
  | [], m => m = []
  | .one p :: rest, m => ∃ c m', m = c :: m' ∧ p c = true ∧ Takes rest m'
  | .star p :: rest, m => ∃ s m', m = s ++ m' ∧ (∀ c ∈ s, p c = true) ∧ Takes rest m'
  | .boundary _ :: rest, m => Takes rest m

theorem starThen_sound {p : α → Bool} {k : Option α → List α → Option (List α)} {prev : Option α}
    {text rest : List α} (h : starThen p k prev text = some rest) :
    ∃ s t prev', text = s ++ t ∧ (∀ c ∈ s, p c = true) ∧ k prev' t = some rest := by
  induction text generalizing prev with
  | nil => exact ⟨[], [], prev, rfl, nofun, h⟩
  | cons c cs ih =>
    unfold starThen at h
    split_ifs at h with hc
    · rcases hs : starThen p k (some c) cs with _ | found <;> rw [hs] at h
      · exact ⟨[], c :: cs, prev, rfl, nofun, h⟩
      · cases h
        obtain ⟨s, t, prev', rfl, hp, hk⟩ := ih hs
        exact ⟨c :: s, t, prev', rfl, List.forall_mem_cons.mpr ⟨hc, hp⟩, hk⟩
    · exact ⟨[], c :: cs, prev, rfl, nofun, h⟩

theorem run_sound {pat : List (Item α)} {prev : Option α} {text rest : List α}
    (h : run pat prev text = some rest) : ∃ m, text = m ++ rest ∧ Takes pat m := by
  induction pat generalizing prev text with
  | nil =>
    cases h
    exact ⟨[], rfl, rfl⟩
  | cons item items ih =>
    cases item with
    | one p =>
      cases text with
      | nil => cases h
      | cons c cs =>
        unfold run at h
        split_ifs at h with hc
        obtain ⟨m, rfl, hm⟩ := ih h
        exact ⟨c :: m, rfl, c, m, rfl, hc, hm⟩
    | star p =>
      obtain ⟨s, t, prev', rfl, hp, hk⟩ := starThen_sound h
      obtain ⟨m, rfl, hm⟩ := ih hk
      exact ⟨s ++ m, (List.append_assoc s m rest).symm, s, m, rfl, hp, hm⟩
    | boundary word =>
      unfold run at h
      split_ifs at h
      exact ih h

/-- The characters that an item can take. -/
def Item.accepts : Item α → α → Bool
  | .one p => p
  | .star p => p
  | .boundary _ => fun _ => false

theorem Takes.not_mem {pat : List (Item α)} {c : α} (h : ∀ item ∈ pat, item.accepts c = false)
    {m : List α} (hm : Takes pat m) : c ∉ m := by
  induction pat generalizing m with
  | nil =>
    rw [show m = [] from hm]
    exact List.not_mem_nil
  | cons item items ih =>
    obtain ⟨hitem, hitems⟩ := List.forall_mem_cons.mp h
    cases item with
    | one p =>
      obtain ⟨d, m', rfl, hd, hm'⟩ := hm
      rintro (_ | ⟨_, hc⟩)
      · rw [show p c = false from hitem] at hd
        cases hd
      · exact ih hitems hm' hc
    | star p =>
      obtain ⟨s, m', rfl, hs, hm'⟩ := hm
      intro hc
      rcases List.mem_append.mp hc with hc | hc
      · have hd := hs c hc
        rw [show p c = false from hitem] at hd
        cases hd
      · exact ih hitems hm' hc
    | boundary word => exact ih hitems hm

theorem takes_append {first second : List (Item α)} {m : List α} (h : Takes (first ++ second) m) :
    ∃ a b, m = a ++ b ∧ Takes first a ∧ Takes second b := by
  induction first generalizing m with
  | nil => exact ⟨[], m, rfl, rfl, h⟩
  | cons item items ih =>
    cases item with
    | one p =>
      obtain ⟨c, m', rfl, hc, hm'⟩ := h
      obtain ⟨a, b, rfl, ha, hb⟩ := ih hm'
      exact ⟨c :: a, b, rfl, ⟨c, a, rfl, hc, ha⟩, hb⟩
    | star p =>
      obtain ⟨s, m', rfl, hs, hm'⟩ := h
      obtain ⟨a, b, rfl, ha, hb⟩ := ih hm'
      exact ⟨s ++ a, b, (List.append_assoc s a b).symm, ⟨s, a, rfl, hs, ha⟩, hb⟩
    | boundary word => exact ih h

/-! ## A star before something else -/

/-- What follows a star cannot begin inside of it. -/
theorem starThen_skip {p : α → Bool} {k : Option α → List α → Option (List α)}
    (hprev : ∀ a b text, k a text = k b text)
    (hk : ∀ a c cs, p c = true → k a (c :: cs) = none) (prev : Option α) (text : List α) :
    starThen p k prev text = k none (text.dropWhile p) := by
  induction text generalizing prev with
  | nil => exact hprev prev none []
  | cons c cs ih =>
    unfold starThen
    rcases hc : p c with _ | _
    · rw [if_neg (by simp), List.dropWhile_cons_of_neg (by simp [hc])]
      exact hprev prev none _
    · rw [if_pos rfl, List.dropWhile_cons_of_pos hc, ih, hk prev c cs hc]
      cases k none (cs.dropWhile p) <;> rfl

theorem starThen_end (p : α → Bool) (prev : Option α) (text : List α) :
    starThen p (run []) prev text = some (text.dropWhile p) := by
  induction text generalizing prev with
  | nil => rfl
  | cons c cs ih =>
    unfold starThen
    rcases hc : p c with _ | _
    · rw [if_neg (by simp), List.dropWhile_cons_of_neg (by simp [hc])]
      rfl
    · rw [if_pos rfl, List.dropWhile_cons_of_pos hc, ih]
      rfl

/-- A run that ends before `y` does not look behind its first character. -/
theorem dropWhile_append_stop {p : α → Bool} {d : α} (hd : p d = false) (xs ys : List α) :
    (xs ++ d :: ys).dropWhile p = xs.dropWhile p ++ d :: ys := by
  induction xs with
  | nil => exact List.dropWhile_cons_of_neg (by simp [hd])
  | cons c cs ih =>
    rcases hc : p c with _ | _
    · rw [List.cons_append, List.dropWhile_cons_of_neg (by simp [hc]),
        List.dropWhile_cons_of_neg (by simp [hc]), List.cons_append]
    · rw [List.cons_append, List.dropWhile_cons_of_pos hc, List.dropWhile_cons_of_pos hc, ih]

/-! ## Substitution -/

section Sub

variable (pat : List (Item α)) (repl : List α)

/-- The next `skip` characters belong to the last match. A pattern takes at least one. -/
def subFrom : Nat → Option α → List α → List α
  | _, _, [] => []
  | skip + 1, _, c :: cs => subFrom skip (some c) cs
  | 0, prev, c :: cs =>
    match run pat prev (c :: cs) with
    | some rest => repl ++ subFrom (cs.length - rest.length) (some c) cs
    | none => c :: subFrom 0 (some c) cs

/-- `pattern.sub(repl, text)`. -/
def sub (text : List α) : List α := subFrom pat repl 0 none text

/-- What is written for the first part of a text. -/
def written (after : List α) : Nat → Option α → List α → List α
  | _, _, [] => []
  | skip + 1, _, c :: cs => written after skip (some c) cs
  | 0, prev, c :: cs =>
    match run pat prev (c :: cs ++ after) with
    | some rest => repl ++ written after ((cs ++ after).length - rest.length) (some c) cs
    | none => c :: written after 0 (some c) cs

/-- How much of the second part a match takes that begins in the first. -/
def overhang (after : List α) : Nat → Option α → List α → Nat
  | skip, _, [] => skip
  | skip + 1, _, c :: cs => overhang after skip (some c) cs
  | 0, prev, c :: cs =>
    match run pat prev (c :: cs ++ after) with
    | some rest => overhang after ((cs ++ after).length - rest.length) (some c) cs
    | none => overhang after 0 (some c) cs

def lastOf (prev : Option α) (text : List α) : Option α := text.getLast?.or prev

@[simp] theorem lastOf_nil (prev : Option α) : lastOf prev [] = prev := rfl

@[simp] theorem lastOf_cons (prev : Option α) (c : α) (cs : List α) :
    lastOf prev (c :: cs) = lastOf (some c) cs := by
  unfold lastOf
  rw [List.getLast?_cons]
  cases cs.getLast? <;> rfl

variable {pat repl}

theorem subFrom_some {c : α} {cs rest : List α} {prev : Option α}
    (h : run pat prev (c :: cs) = some rest) :
    subFrom pat repl 0 prev (c :: cs) =
      repl ++ subFrom pat repl (cs.length - rest.length) (some c) cs := by
  simp only [subFrom, h]

theorem subFrom_none {c : α} {cs : List α} {prev : Option α} (h : run pat prev (c :: cs) = none) :
    subFrom pat repl 0 prev (c :: cs) = c :: subFrom pat repl 0 (some c) cs := by
  simp only [subFrom, h]

theorem subFrom_keeps {s : List α} (h : ∀ c ∈ s, ∀ prev t, run pat prev (c :: t) = none)
    (prev : Option α) (t : List α) :
    subFrom pat repl 0 prev (s ++ t) = s ++ subFrom pat repl 0 (lastOf prev s) t := by
  induction s generalizing prev with
  | nil => rfl
  | cons c cs ih =>
    obtain ⟨hc, hcs⟩ := List.forall_mem_cons.mp h
    rw [lastOf_cons, List.cons_append, subFrom_none (hc prev _), ih hcs]
    rfl

theorem subFrom_append (before after : List α) (skip : Nat) (prev : Option α) :
    subFrom pat repl skip prev (before ++ after) = written pat repl after skip prev before ++
      subFrom pat repl (overhang pat after skip prev before) (lastOf prev before) after := by
  induction before generalizing skip prev with
  | nil => rfl
  | cons c cs ih =>
    rw [lastOf_cons]
    cases skip with
    | succ n => exact ih n (some c)
    | zero =>
      rcases h : run pat prev (c :: cs ++ after) with _ | rest
      · simp only [written, overhang, h]
        rw [List.cons_append] at h ⊢
        rw [subFrom_none h, ih]
        rfl
      · simp only [written, overhang, h]
        rw [List.cons_append] at h ⊢
        rw [subFrom_some h, ih, List.append_assoc]

/-- The end of a match that began before. -/
theorem subFrom_skip (m : List α) (prev : Option α) (rest : List α) :
    subFrom pat repl m.length prev (m ++ rest) = subFrom pat repl 0 (lastOf prev m) rest := by
  induction m generalizing prev with
  | nil => rfl
  | cons c cs ih =>
    rw [lastOf_cons]
    exact ih (some c)

theorem subFrom_match {m rest : List α} {prev : Option α} (hne : m ≠ [])
    (h : run pat prev (m ++ rest) = some rest) :
    subFrom pat repl 0 prev (m ++ rest) = repl ++ subFrom pat repl 0 (lastOf prev m) rest := by
  cases m with
  | nil => contradiction
  | cons c cs =>
    have hlen : (cs ++ rest).length - rest.length = cs.length := by
      rw [List.length_append]
      omega
    rw [List.cons_append] at h ⊢
    rw [subFrom_some h, hlen, subFrom_skip, lastOf_cons]

/-- Where the matches of the first part do not look behind `near`, they are the same
for everything that may follow it. -/
theorem scan_local {near far : List α} (before : List α)
    (h : ∀ cs, cs ≠ [] → cs <:+ before → ∀ prev,
      run pat prev (cs ++ near ++ far) = (run pat prev (cs ++ near)).map (· ++ far))
    (skip : Nat) (prev : Option α) :
    written pat repl (near ++ far) skip prev before = written pat repl near skip prev before ∧
      overhang pat (near ++ far) skip prev before = overhang pat near skip prev before := by
  induction before generalizing skip prev with
  | nil => exact ⟨rfl, rfl⟩
  | cons c cs ih =>
    have ih := ih fun ds hne hsuf => h ds hne (hsuf.trans (List.suffix_cons c cs))
    cases skip with
    | succ n => exact ih n (some c)
    | zero =>
      have hrun := h (c :: cs) (List.cons_ne_nil c cs) List.suffix_rfl prev
      rw [List.append_assoc] at hrun
      rcases hnear : run pat prev (c :: cs ++ near) with _ | rest <;> rw [hnear] at hrun
      · simp only [written, overhang, hnear, hrun, Option.map_none]
        exact ⟨congrArg (c :: ·) (ih 0 (some c)).1, (ih 0 (some c)).2⟩
      · have hlen : (cs ++ (near ++ far)).length - (rest ++ far).length =
            (cs ++ near).length - rest.length := by
          simp only [List.length_append]
          omega
        simp only [written, overhang, hnear, hrun, Option.map_some, hlen]
        exact ⟨congrArg (repl ++ ·) (ih _ (some c)).1, (ih _ (some c)).2⟩

/-- What holds of the reach of every match that begins in the first part holds of the
last one's. -/
theorem overhang_ind {after : List α} {Q : Nat → Prop} (hzero : Q 0) (before : List α)
    (h : ∀ cs, cs ≠ [] → cs <:+ before → ∀ prev rest,
      run pat prev (cs ++ after) = some rest → Q (after.length - rest.length))
    {skip : Nat} (prev : Option α) (hskip : Q (skip - before.length)) :
    Q (overhang pat after skip prev before) := by
  induction before generalizing skip prev with
  | nil => exact hskip
  | cons c cs ih =>
    have ih := fun {n} => @ih (fun ds hne hsuf => h ds hne (hsuf.trans (List.suffix_cons c cs))) n
    cases skip with
    | succ n =>
      refine ih (some c) ?_
      rwa [List.length_cons, Nat.succ_sub_succ] at hskip
    | zero =>
      rcases hrun : run pat prev (c :: cs ++ after) with _ | rest
      · simp only [overhang, hrun]
        exact ih (some c) (by rwa [Nat.zero_sub])
      · have hrest := h (c :: cs) (List.cons_ne_nil c cs) List.suffix_rfl prev rest hrun
        have hsub : (cs ++ after).length - rest.length - cs.length =
            after.length - rest.length := by
          rw [List.length_append]
          omega
        simp only [overhang, hrun]
        exact ih (some c) (by rwa [hsub])

/-! ## The end and the length -/

theorem written_ne_nil (hrepl : repl ≠ []) {before : List α} (hne : before ≠ []) (after : List α)
    (prev : Option α) : written pat repl after 0 prev before ≠ [] := by
  cases before with
  | nil => contradiction
  | cons c cs =>
    rcases h : run pat prev (c :: cs ++ after) with _ | rest
    · simp only [written, h]
      exact List.cons_ne_nil _ _
    · simp only [written, h]
      exact List.append_ne_nil_of_left_ne_nil hrepl _

/-- The last character is the one of the text, or of the replacement. -/
theorem last_written {P : α → Prop} (hne : repl ≠ []) (hrepl : ∀ c ∈ repl.getLast?, P c)
    {before : List α} (hbefore : ∀ c ∈ before.getLast?, P c) (after : List α) (skip : Nat)
    (prev : Option α) : ∀ c ∈ (written pat repl after skip prev before).getLast?, P c := by
  induction before generalizing skip prev with
  | nil => nofun
  | cons c cs ih =>
    have hcs : ∀ d ∈ cs.getLast?, P d := fun d hd => by
      apply hbefore
      rw [List.getLast?_cons, Option.mem_def.mp hd]
      rfl
    cases skip with
    | succ n => exact ih hcs n (some c)
    | zero =>
      rcases h : run pat prev (c :: cs ++ after) with _ | rest
      · simp only [written, h]
        by_cases hnil : cs = []
        · subst hnil
          exact hbefore
        · rw [List.getLast?_cons_of_ne_nil (written_ne_nil hne hnil after (some c))]
          exact ih hcs 0 (some c)
      · simp only [written, h, List.getLast?_append]
        intro d hd
        rcases hlast : (written pat repl after ((cs ++ after).length - rest.length) (some c)
            cs).getLast? with _ | e <;> rw [hlast] at hd
        · exact hrepl d hd
        · cases hd
          exact ih hcs _ (some c) d hlast

theorem subFrom_eq_written (text : List α) (skip : Nat) (prev : Option α) :
    subFrom pat repl skip prev text = written pat repl [] skip prev text := by
  have h : subFrom pat repl skip prev (text ++ []) = _ := subFrom_append text [] skip prev
  rwa [List.append_nil, subFrom, List.append_nil] at h

/-- A result that is shorter than the replacement is the text itself. -/
theorem eq_of_short {text : List α} {prev : Option α}
    (h : (subFrom pat repl 0 prev text).length < repl.length) :
    subFrom pat repl 0 prev text = text := by
  induction text generalizing prev with
  | nil => rfl
  | cons c cs ih =>
    rcases hrun : run pat prev (c :: cs) with _ | rest
    · rw [subFrom_none hrun] at h ⊢
      rw [ih (Nat.lt_of_succ_lt h)]
    · rw [subFrom_some hrun, List.length_append] at h
      omega

end Sub

end image_gen.regex

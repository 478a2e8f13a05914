-- Results of functions that may fail: what a sequence of them gives when it
-- comes through.
import Mathlib.Data.List.Basic
import Mathlib.Data.List.ReduceOption

namespace image_gen.results

variable {α β ε : Type}

theorem bind_ok {x : Except ε α} {f : α → Except ε β} {b : β}
    (h : x >>= f = .ok b) : ∃ a, x = .ok a ∧ f a = .ok b := by
  rcases x with e | a
  · cases h
  · exact ⟨a, rfl, h⟩

theorem map_ok {x : Except ε α} {f : α → β} {b : β} (h : x.map f = .ok b) :
    ∃ a, x = .ok a ∧ f a = b := by
  rcases x with e | a
  · cases h
  · cases h
    exact ⟨a, rfl, rfl⟩

theorem mapError_ok {δ : Type} {x : Except ε α} {f : ε → δ} {a : α}
    (h : x.mapError f = .ok a) : x = .ok a := by
  cases x with
  | error e => cases h
  | ok b =>
    cases h
    rfl

theorem ok_mapError {δ : Type} (a : α) (f : ε → δ) :
    (Except.ok a : Except ε α).mapError f = .ok a := rfl

theorem ok_bind (a : α) (f : α → Except ε β) : (Except.ok a >>= f) = f a := rfl

theorem map_bind {γ : Type} (x : Except ε α) (f : α → Except ε β) (g : β → γ) :
    (x >>= f).map g = x >>= fun a => (f a).map g := by
  cases x <;> rfl

theorem bind_ok_iff {x : Except ε α} {f : α → Except ε β} :
    (∃ b, x >>= f = .ok b) ↔ ∃ a, x = .ok a ∧ ∃ b, f a = .ok b := by
  constructor
  · rintro ⟨b, h⟩
    obtain ⟨a, ha, hb⟩ := bind_ok h
    exact ⟨a, ha, b, hb⟩
  · rintro ⟨a, rfl, b, hb⟩
    exact ⟨b, hb⟩

/-- `if p: raise e`. -/
def refuseIf (p : Prop) [Decidable p] (e : ε) : Except ε Unit := if p then .error e else .ok ()

section Refuse

variable {p : Prop} [Decidable p] {e : ε}

theorem refuseIf_ok {u : Unit} (h : refuseIf p e = .ok u) : ¬ p := by
  intro hp
  rw [refuseIf, if_pos hp] at h
  cases h

theorem refuseIf_pass (h : ¬ p) : refuseIf p e = .ok () := if_neg h

theorem refuseIf_ok_iff : (∃ u, refuseIf p e = .ok u) ↔ ¬ p :=
  ⟨fun ⟨_, hu⟩ => refuseIf_ok hu, fun h => ⟨(), refuseIf_pass h⟩⟩

end Refuse

/-- The function returns. -/
def Succeeds (x : Except ε α) : Prop := ∃ a, x = .ok a

@[simp] theorem succeeds_ok (a : α) : Succeeds (.ok a : Except ε α) := ⟨a, rfl⟩

@[simp] theorem not_succeeds_error (e : ε) : ¬ Succeeds (.error e : Except ε α) := nofun

/-- Two steps, where what the second needs does not depend on the result of the first. -/
theorem succeeds_bind_iff {x : Except ε α} {f : α → Except ε β} {P Q : Prop}
    (hx : Succeeds x ↔ P) (hf : ∀ a, x = .ok a → (Succeeds (f a) ↔ Q)) :
    Succeeds (x >>= f) ↔ P ∧ Q := by
  unfold Succeeds at *
  rw [bind_ok_iff, ← hx]
  constructor
  · rintro ⟨a, ha, hb⟩
    exact ⟨⟨a, ha⟩, (hf a ha).mp hb⟩
  · rintro ⟨⟨a, ha⟩, hQ⟩
    exact ⟨a, ha, (hf a ha).mpr hQ⟩

theorem succeeds_bind_congr {γ : Type} {x : Except ε α} {f : α → Except ε β} {g : α → Except ε γ}
    (h : ∀ a, x = .ok a → (Succeeds (f a) ↔ Succeeds (g a))) :
    Succeeds (x >>= f) ↔ Succeeds (x >>= g) := by
  unfold Succeeds at *
  rw [bind_ok_iff, bind_ok_iff]
  constructor
  · rintro ⟨a, ha, hf⟩
    exact ⟨a, ha, (h a ha).mp hf⟩
  · rintro ⟨a, ha, hg⟩
    exact ⟨a, ha, (h a ha).mpr hg⟩

theorem succeeds_mapError {δ : Type} {x : Except ε α} {f : ε → δ} :
    Succeeds (x.mapError f) ↔ Succeeds x := by
  cases x with
  | error e => simp [Except.mapError]
  | ok a => simp [Except.mapError]

theorem forall_mapM {f : α → Except ε β} {P : β → Prop}
    (hf : ∀ a b, f a = .ok b → P b) {as : List α} {bs : List β} (h : as.mapM f = .ok bs) :
    ∀ b ∈ bs, P b := by
  induction as generalizing bs with
  | nil =>
    cases h
    exact List.forall_mem_nil _
  | cons a rest ih =>
    rw [List.mapM_cons] at h
    rcases ha : f a with e | b <;> rw [ha] at h
    · cases h
    · rcases hrest : rest.mapM f with e | more <;> rw [hrest] at h
      · cases h
      · cases h
        exact List.forall_mem_cons.mpr ⟨hf a b ha, ih hrest⟩

theorem mapM_total {f : α → Except ε β} {l : List α} (h : ∀ a ∈ l, ∃ b, f a = .ok b) :
    ∃ bs, l.mapM f = .ok bs ∧ ∀ a ∈ l, ∃ b ∈ bs, f a = .ok b := by
  induction l with
  | nil => exact ⟨[], rfl, nofun⟩
  | cons a rest ih =>
    obtain ⟨b, hb⟩ := h a List.mem_cons_self
    obtain ⟨bs, hbs, hmem⟩ := ih fun a' ha' => h a' (List.mem_cons_of_mem a ha')
    refine ⟨b :: bs, by rw [List.mapM_cons, hb, hbs]; rfl, fun a' ha' => ?_⟩
    rcases List.mem_cons.mp ha' with rfl | ha'
    · exact ⟨b, List.mem_cons_self, hb⟩
    · obtain ⟨b', hb', heq⟩ := hmem a' ha'
      exact ⟨b', List.mem_cons_of_mem b hb', heq⟩

theorem mapM_eq_map {f : α → Except ε β} {g : α → β} {l : List α}
    (h : ∀ a ∈ l, f a = .ok (g a)) : l.mapM f = .ok (l.map g) := by
  induction l with
  | nil => rfl
  | cons a rest ih =>
    rw [List.mapM_cons, h a List.mem_cons_self,
      ih fun a' ha' => h a' (List.mem_cons_of_mem a ha')]
    rfl

theorem ok_of_mapM {f : α → Except ε β} {l : List α} {bs : List β} (h : l.mapM f = .ok bs) :
    ∀ a ∈ l, ∃ b, f a = .ok b := by
  induction l generalizing bs with
  | nil => exact nofun
  | cons a rest ih =>
    rw [List.mapM_cons] at h
    obtain ⟨b, hb, hrest⟩ := bind_ok h
    obtain ⟨more, hmore, -⟩ := bind_ok hrest
    exact List.forall_mem_cons.mpr ⟨⟨b, hb⟩, ih hmore⟩

theorem exists_mem_of_mapM {f : α → Except ε β} {l : List α} {bs : List β}
    (h : l.mapM f = .ok bs) : ∀ a ∈ l, ∃ b ∈ bs, f a = .ok b := by
  induction l generalizing bs with
  | nil => exact nofun
  | cons a rest ih =>
    rw [List.mapM_cons] at h
    obtain ⟨b, hb, hrest⟩ := bind_ok h
    obtain ⟨more, hmore, hbs⟩ := bind_ok hrest
    cases hbs
    refine List.forall_mem_cons.mpr ⟨⟨b, List.mem_cons_self, hb⟩, fun a' ha' => ?_⟩
    obtain ⟨b', hb', heq⟩ := ih hmore a' ha'
    exact ⟨b', List.mem_cons_of_mem b hb', heq⟩

theorem exists_ok_of_mapM {f : α → Except ε β} {l : List α} {bs : List β}
    (h : l.mapM f = .ok bs) : ∀ b ∈ bs, ∃ a ∈ l, f a = .ok b := by
  induction l generalizing bs with
  | nil =>
    cases h
    exact nofun
  | cons a rest ih =>
    rw [List.mapM_cons] at h
    obtain ⟨b, hb, hrest⟩ := bind_ok h
    obtain ⟨more, hmore, hbs⟩ := bind_ok hrest
    cases hbs
    refine List.forall_mem_cons.mpr ⟨⟨a, List.mem_cons_self, hb⟩, fun b' hb' => ?_⟩
    obtain ⟨a', ha', heq⟩ := ih hmore b' hb'
    exact ⟨a', List.mem_cons_of_mem a ha', heq⟩

theorem succeeds_mapM {f : α → Except ε β} {l : List α} :
    Succeeds (l.mapM f) ↔ ∀ a ∈ l, Succeeds (f a) := by
  constructor
  · rintro ⟨bs, h⟩
    exact ok_of_mapM h
  · intro h
    obtain ⟨bs, hbs, -⟩ := mapM_total h
    exact ⟨bs, hbs⟩

theorem succeeds_map {x : Except ε α} {f : α → β} : Succeeds (x.map f) ↔ Succeeds x := by
  cases x with
  | error e => simp [Except.map]
  | ok a => simp [Except.map]

theorem exists_of_forall₂ {R : α → β → Prop} {as : List α} {bs : List β}
    (h : List.Forall₂ R as bs) : ∀ a ∈ as, ∃ b ∈ bs, R a b := by
  induction h with
  | nil => nofun
  | cons hab _ ih =>
    intro a ha
    rcases List.mem_cons.mp ha with rfl | ha
    · exact ⟨_, List.mem_cons_self, hab⟩
    · obtain ⟨b, hb, hR⟩ := ih a ha
      exact ⟨b, List.mem_cons_of_mem _ hb, hR⟩

/-- Where `f` gives `g` of what satisfies `P`, and nothing of the others. -/
theorem mapM_filter {f : α → Except ε (Option β)} {g : α → β} {P : α → Prop} [DecidablePred P]
    {l : List α} (hsome : ∀ a ∈ l, P a → f a = .ok (some (g a)))
    (hnone : ∀ a ∈ l, ¬ P a → f a = .ok none) :
    ∃ found, l.mapM f = .ok found ∧ found.reduceOption = (l.filter P).map g := by
  induction l with
  | nil => exact ⟨[], rfl, rfl⟩
  | cons a rest ih =>
    obtain ⟨found, hfound, hreduce⟩ := ih (fun b hb => hsome b (List.mem_cons_of_mem a hb))
      fun b hb => hnone b (List.mem_cons_of_mem a hb)
    by_cases hP : P a
    · refine ⟨some (g a) :: found, ?_, ?_⟩
      · rw [List.mapM_cons, hsome a List.mem_cons_self hP, hfound]
        rfl
      · rw [List.reduceOption_cons_of_some, hreduce, List.filter_cons_of_pos (by simpa using hP),
          List.map_cons]
    · refine ⟨none :: found, ?_, ?_⟩
      · rw [List.mapM_cons, hnone a List.mem_cons_self hP, hfound]
        rfl
      · rw [List.reduceOption_cons_of_none, hreduce, List.filter_cons_of_neg (by simpa using hP)]

/-- What satisfies `P` gives one result each, in their order, and the others give none. -/
theorem mapM_forall₂ {f : α → Except ε (Option β)} {P : α → Prop} [DecidablePred P]
    {R : α → β → Prop} {l : List α} (hsome : ∀ a ∈ l, P a → ∃ b, f a = .ok (some b) ∧ R a b)
    (hnone : ∀ a ∈ l, ¬ P a → f a = .ok none) :
    ∃ found, l.mapM f = .ok found ∧ List.Forall₂ R (l.filter P) found.reduceOption := by
  induction l with
  | nil => exact ⟨[], rfl, List.Forall₂.nil⟩
  | cons a rest ih =>
    obtain ⟨found, hfound, hall⟩ := ih (fun b hb => hsome b (List.mem_cons_of_mem a hb))
      fun b hb => hnone b (List.mem_cons_of_mem a hb)
    by_cases hP : P a
    · obtain ⟨b, hb, hR⟩ := hsome a List.mem_cons_self hP
      refine ⟨some b :: found, ?_, ?_⟩
      · rw [List.mapM_cons, hb, hfound]
        rfl
      · rw [List.reduceOption_cons_of_some, List.filter_cons_of_pos (by simpa using hP)]
        exact List.Forall₂.cons hR hall
    · refine ⟨none :: found, ?_, ?_⟩
      · rw [List.mapM_cons, hnone a List.mem_cons_self hP, hfound]
        rfl
      · rw [List.reduceOption_cons_of_none, List.filter_cons_of_neg (by simpa using hP)]
        exact hall

theorem forall_flatten_mapM {f : α → Except ε (List β)} {P : β → Prop}
    (hf : ∀ a bs, f a = .ok bs → ∀ b ∈ bs, P b) {as : List α} {out : List β}
    (h : (do let rows ← as.mapM f; return rows.flatten) = .ok out) : ∀ b ∈ out, P b := by
  obtain ⟨rows, hrows, hout⟩ := bind_ok h
  cases hout
  intro b hb
  obtain ⟨bs, hbs, hmem⟩ := List.mem_flatten.mp hb
  exact forall_mapM hf hrows bs hbs b hmem

end image_gen.results

-- Runs of a machine. A machine is a partial step function on labels, so a
-- run can be computed, and what each step preserves holds after every run.
import Mathlib.Data.List.Basic

namespace image_gen.runs

variable {σ α : Type*}

/-- The state after a list of labels, taken one by one. There is none when a
label cannot be taken where the run stands. -/
def exec (next : σ → α → Option σ) : σ → List α → Option σ
  | s, [] => some s
  | s, a :: as =>
    match next s a with
    | none => none
    | some s' => exec next s' as

/-- Each step of the run meets `ok` in the state that it is taken from. -/
def AllSteps (next : σ → α → Option σ) (ok : σ → α → Prop) : σ → List α → Prop
  | _, [] => True
  | s, a :: as => ok s a ∧ ∀ s', next s a = some s' → AllSteps next ok s' as

variable {next : σ → α → Option σ} {ok : σ → α → Prop}

@[simp] theorem exec_nil (s : σ) : exec next s [] = some s := rfl

theorem exec_cons {s t : σ} {a : α} {as : List α} :
    exec next s (a :: as) = some t ↔ ∃ s', next s a = some s' ∧ exec next s' as = some t := by
  simp only [exec]
  cases next s a <;> simp

theorem exec_append {s t : σ} (as bs : List α) :
    exec next s (as ++ bs) = some t ↔
      ∃ m, exec next s as = some m ∧ exec next m bs = some t := by
  induction as generalizing s with
  | nil => simp
  | cons a as ih =>
    simp only [List.cons_append, exec_cons, ih]
    constructor
    · rintro ⟨s', hs, m, hm, ht⟩
      exact ⟨m, ⟨s', hs, hm⟩, ht⟩
    · rintro ⟨m, ⟨s', hs, hm⟩, ht⟩
      exact ⟨s', hs, m, hm, ht⟩

theorem allSteps_true (s : σ) (as : List α) : AllSteps next (fun _ _ => True) s as := by
  induction as generalizing s with
  | nil => trivial
  | cons a as ih => exact ⟨trivial, fun s' _ => ih s'⟩

theorem allSteps_of_forall (as : List α) (h : ∀ a ∈ as, ∀ s, ok s a) (s : σ) :
    AllSteps next ok s as := by
  induction as generalizing s with
  | nil => trivial
  | cons a as ih =>
    exact ⟨h a List.mem_cons_self s, fun s' _ => ih (fun b hb => h b (List.mem_cons_of_mem a hb)) s'⟩

/-- A run that is written out is checked step by step. -/
theorem allSteps_cons {s s' : σ} {a : α} {as : List α} (hok : ok s a) (hnext : next s a = some s')
    (h : AllSteps next ok s' as) : AllSteps next ok s (a :: as) := by
  refine ⟨hok, fun s'' hs'' => ?_⟩
  rw [hnext, Option.some.injEq] at hs''
  rw [← hs'']
  exact h

theorem allSteps_append {s : σ} {as bs : List α} (has : AllSteps next ok s as)
    (hbs : ∀ t, exec next s as = some t → AllSteps next ok t bs) :
    AllSteps next ok s (as ++ bs) := by
  induction as generalizing s with
  | nil => exact hbs s rfl
  | cons a as ih =>
    refine ⟨has.1, fun s' hs' => ih (has.2 s' hs') fun t ht => hbs t ?_⟩
    exact exec_cons.mpr ⟨s', hs', ht⟩

theorem AllSteps.left {s : σ} {as bs : List α} (h : AllSteps next ok s (as ++ bs)) :
    AllSteps next ok s as := by
  induction as generalizing s with
  | nil => trivial
  | cons a as ih => exact ⟨h.1, fun s' hs' => ih (h.2 s' hs')⟩

theorem AllSteps.right {s t : σ} {as bs : List α} (h : AllSteps next ok s (as ++ bs))
    (hrun : exec next s as = some t) : AllSteps next ok t bs := by
  induction as generalizing s with
  | nil =>
    cases hrun
    exact h
  | cons a as ih =>
    obtain ⟨s', hs', hrest⟩ := exec_cons.mp hrun
    exact ih (h.2 s' hs') hrest

theorem AllSteps.and {ok' : σ → α → Prop} {s : σ} {as : List α} (h : AllSteps next ok s as)
    (h' : AllSteps next ok' s as) : AllSteps next (fun s a => ok s a ∧ ok' s a) s as := by
  induction as generalizing s with
  | nil => trivial
  | cons a as ih => exact ⟨⟨h.1, h'.1⟩, fun s' hs' => ih (h.2 s' hs') (h'.2 s' hs')⟩

/-- What follows from an invariant at each allowed step holds at each step of a
run of allowed steps. -/
theorem AllSteps.of_invariant {I : σ → Prop} {ok' : σ → α → Prop}
    (hstep : ∀ s a s', I s → ok s a → next s a = some s' → I s')
    (himp : ∀ s a, I s → ok s a → ok' s a) {s : σ} {as : List α} (hs : I s)
    (h : AllSteps next ok s as) : AllSteps next ok' s as := by
  induction as generalizing s with
  | nil => trivial
  | cons a as ih =>
    exact ⟨himp s a hs h.1, fun s' hs' => ih (hstep s a s' hs h.1 hs') (h.2 s' hs')⟩

/-- The invariant rule: a property that each allowed step preserves holds at
the end of every run of allowed steps. -/
theorem invariant {I : σ → Prop}
    (hstep : ∀ s a s', I s → ok s a → next s a = some s' → I s')
    {s t : σ} {as : List α} (hs : I s) (hok : AllSteps next ok s as)
    (hrun : exec next s as = some t) : I t := by
  induction as generalizing s with
  | nil => cases hrun; exact hs
  | cons a as ih =>
    obtain ⟨s', hnext, hrest⟩ := exec_cons.mp hrun
    exact ih (hstep s a s' hs hok.1 hnext) (hok.2 s' hnext) hrest

/-- The invariant rule for a run of any steps. -/
theorem invariant_of_next {I : σ → Prop}
    (hstep : ∀ s a s', I s → next s a = some s' → I s')
    {s t : σ} {as : List α} (hs : I s) (hrun : exec next s as = some t) : I t :=
  invariant (fun s a s' h _ => hstep s a s' h) hs (allSteps_true s as) hrun

/-- The simulation rule: where each step is a run of another machine between related
states, so is each run. -/
theorem simulated {τ β : Type*} {next' : τ → β → Option τ} {R : σ → τ → Prop}
    (hstep : ∀ s t a s', R s t → next s a = some s' →
      ∃ bs t', exec next' t bs = some t' ∧ R s' t')
    {s u : σ} {t : τ} {as : List α} (hs : R s t) (hrun : exec next s as = some u) :
    ∃ bs t', exec next' t bs = some t' ∧ R u t' := by
  induction as generalizing s t with
  | nil =>
    cases hrun
    exact ⟨[], t, rfl, hs⟩
  | cons a as ih =>
    obtain ⟨s', hnext, hrest⟩ := exec_cons.mp hrun
    obtain ⟨bs, t', hbs, hs'⟩ := hstep s t a s' hs hnext
    obtain ⟨more, t'', hmore, hu⟩ := ih hs' hrest
    exact ⟨bs ++ more, t'', (exec_append bs more).mpr ⟨t', hbs, hmore⟩, hu⟩

/-- The states that a run goes through after its first one. -/
def after (next : σ → α → Option σ) : σ → List α → List σ
  | _, [] => []
  | s, a :: as =>
    match next s a with
    | none => []
    | some s' => s' :: after next s' as

/-- What each allowed step does to an observation is a law of the whole run. -/
theorem isChain_after {β : Type*} {I : σ → Prop} {R : β → β → Prop} (obs : σ → β)
    (hstep : ∀ s a s', I s → ok s a → next s a = some s' → I s' ∧ R (obs s) (obs s'))
    {s : σ} {as : List α} (hs : I s) (hok : AllSteps next ok s as) :
    ((s :: after next s as).map obs).IsChain R := by
  induction as generalizing s with
  | nil => exact List.IsChain.singleton _
  | cons a as ih =>
    unfold after
    rcases hnext : next s a with _ | s'
    · exact List.IsChain.singleton _
    · obtain ⟨hs', hR⟩ := hstep s a s' hs hok.1 hnext
      exact List.IsChain.cons_cons hR (ih hs' (hok.2 s' hnext))

/-- An invariant holds in every state of the run. -/
theorem forall_after {I : σ → Prop}
    (hstep : ∀ s a s', I s → ok s a → next s a = some s' → I s')
    {s : σ} {as : List α} (hs : I s) (hok : AllSteps next ok s as) :
    ∀ u ∈ s :: after next s as, I u := by
  induction as generalizing s with
  | nil =>
    intro u hu
    rw [List.mem_singleton.mp hu]
    exact hs
  | cons a as ih =>
    intro u hu
    rcases List.mem_cons.mp hu with rfl | hu
    · exact hs
    · unfold after at hu
      rcases hnext : next s a with _ | s' <;> rw [hnext] at hu
      · cases hu
      · exact ih (hstep s a s' hs hok.1 hnext) (hok.2 s' hnext) u hu

/-- What the labels of a run report, one after the other, until the run stops. -/
def reports {β : Type*} (next : σ → α → Option σ) (report : σ → α → Option β) : σ → List α → List β
  | _, [] => []
  | s, a :: as =>
    match next s a with
    | none => []
    | some s' => (report s a).toList ++ reports next report s' as

/-- Where a report is what one sees of the state, the reports are some of the sights. -/
theorem reports_sublist {β : Type*} {report : σ → α → Option β} (obs : σ → β)
    (h : ∀ s a b, report s a = some b → b = obs s) (s : σ) (as : List α) :
    (reports next report s as).Sublist ((s :: after next s as).map obs) := by
  induction as generalizing s with
  | nil => exact List.nil_sublist _
  | cons a as ih =>
    unfold reports after
    rcases next s a with _ | s'
    · exact List.nil_sublist _
    · rcases hreport : report s a with _ | b
      · exact (ih s').cons _
      · rw [h s a b hreport]
        exact (ih s').cons_cons _

/-- A run takes no more steps that lower a rank than the rank it starts with,
when no other step raises it. -/
theorem countP_add_rank_le {I : σ → Prop} (lowers : α → Bool) (rank : σ → Nat)
    (hstep : ∀ s a s', I s → next s a = some s' →
      I s' ∧ rank s' + (if lowers a then 1 else 0) ≤ rank s)
    {s t : σ} {as : List α} (hs : I s) (hrun : exec next s as = some t) :
    as.countP lowers + rank t ≤ rank s := by
  induction as generalizing s with
  | nil =>
    cases hrun
    simp
  | cons a as ih =>
    obtain ⟨s', hnext, hrest⟩ := exec_cons.mp hrun
    obtain ⟨hs', hle⟩ := hstep s a s' hs hnext
    have := ih hs' hrest
    rw [List.countP_cons]
    omega

end image_gen.runs

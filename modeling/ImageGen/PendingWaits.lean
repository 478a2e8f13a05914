-- The map of pending futures and the waits in progress. A wait is entered before
-- its `try`, and with a stall timeout one request stands in between.
import Mathlib.Data.List.Nodup
import ImageGen.Results
import ImageGen.SharedWaits

namespace image_gen.pending_waits

open image_gen.json image_gen.runs image_gen.shared_waits

/-! ## The map -/

/-- A call of `wait_for_completion` that has not ended. -/
def inProgress (w : Wait) : Bool :=
  match w.pc with
  | .returned => false
  | .raised _ => false
  | _ => true

/-- The keys of `_pending`. -/
def pending (s : State) : List String := (s.waits.filter (·.registered)).map (·.promptId)

/-- The keys are the prompts of the waits in progress. -/
def Matches (s : State) : Prop :=
  ∀ promptId, promptId ∈ pending s ↔
    ∃ w ∈ s.waits, inProgress w = true ∧ w.promptId = promptId

/-- The first progress signature neither raises nor is cancelled. -/
def SignsWell (cfg : Config) (s : State) : Label → Prop
  | .answer i a => ∀ w, s.waits[i]? = some w → w.pc = .signing →
    ∃ signature, historySignature cfg w.promptId a = .ok signature
  | .cancel i => ∀ w, s.waits[i]? = some w → w.pc ≠ .signing
  | _ => True

/-! ## One wait -/

/-- The entry of a wait is there as long as the wait is in progress. -/
def Tidy (w : Wait) : Prop := w.registered = inProgress w

/-- The wait has ended and its entry is still there. -/
structure Leaked (w : Wait) : Prop where
  registered : w.registered = true
  ended : inProgress w = false

/-- `w'` is `w` a step later. -/
structure Goes (w w' : Wait) : Prop where
  prompt : w'.promptId = w.promptId
  tidy : Tidy w'

section Functions

variable {cfg : Config} {sh : Shared} {w w' : Wait}

theorem goes_returned (w : Wait) : Goes w (finish .returned w) := ⟨rfl, rfl⟩

theorem goes_raised (e : Exc) (w : Wait) : Goes w (finish (.raised e) w) := ⟨rfl, rfl⟩

theorem goes_loopHead (h : w.registered = true) : Goes w (loopHead cfg sh w) := by
  unfold loopHead
  split
  · exact goes_returned w
  · split
    · exact goes_raised _ w
    · exact ⟨rfl, h⟩

theorem goes_pollHead (h : w.registered = true) : Goes w (pollHead sh w) := by
  unfold pollHead
  split
  · exact goes_raised _ w
  · exact ⟨rfl, h⟩

theorem goes_startPolling (h : w.registered = true) : Goes w (startPolling sh w) := by
  have hhead : { w with lastProgressAt := sh.now, lastSignature := none }.registered = true := h
  obtain ⟨hprompt, htidy⟩ : Goes _ (pollHead sh _) := goes_pollHead hhead
  exact ⟨hprompt, htidy⟩

theorem goes_ensureWs (h : w.registered = true) (left : Nat) :
    Goes w (ensureWs cfg sh left w) := by
  unfold ensureWs
  split
  · exact goes_loopHead h
  · exact ⟨rfl, h⟩

theorem goes_tryConnect (h : w.registered = true) (locked : Bool) (left : Nat) :
    Goes w (tryConnect cfg sh locked left w) := by
  unfold tryConnect
  split
  · exact ⟨rfl, h⟩
  · exact goes_ensureWs h left

theorem goes_readerDied (h : w.registered = true) : Goes w (readerDied sh w) := by
  unfold readerDied
  split
  · exact goes_startPolling h
  · exact ⟨rfl, h⟩

theorem goes_checked (h : w.registered = true) (a : HistoryAnswer) :
    Goes w (checked cfg sh a w) := by
  unfold checked
  split
  · exact goes_raised _ w
  · rename_i current _
    split
    · have hhead :
          { w with lastSignature := current, lastProgressAt := sh.now }.registered = true := h
      obtain ⟨hprompt, htidy⟩ : Goes _ (loopHead cfg sh _) := goes_loopHead hhead
      exact ⟨hprompt, htidy⟩
    · split
      · exact goes_raised _ w
      · exact goes_loopHead h

theorem goes_pollAgain (h : w.registered = true) (remaining : Nat) (signature : Option String) :
    Goes w (pollAgain cfg sh remaining signature w) := by
  unfold pollAgain
  dsimp only
  split
  · exact ⟨rfl, h⟩
  · split
    · exact goes_raised _ w
    · exact ⟨rfl, h⟩

theorem goes_polled (h : w.registered = true) (remaining : Nat) (a : HistoryAnswer) :
    Goes w (polled cfg sh remaining a w) := by
  unfold polled
  split
  · exact goes_raised _ w
  · exact goes_raised _ w
  · exact goes_raised _ w
  · split
    · rename_i hbody
      unfold polledBody at hbody
      obtain ⟨entry, -, hbody⟩ := results.bind_ok hbody
      obtain ⟨done, -, hbody⟩ := results.bind_ok hbody
      split at hbody
      · cases hbody
        exact goes_returned w
      · cases hbody
        exact goes_raised _ w
      · obtain ⟨signature, -, hbody⟩ := results.bind_ok hbody
        cases hbody
        exact goes_pollAgain h remaining signature
    · exact goes_raised _ w
  · exact ⟨rfl, h⟩

end Functions

/-! ## A step of one wait -/

section WaitSteps

variable {cfg : Config} {s : State} {w w' : Wait}

theorem goes_acquire (h : inProgress w = true → w.registered = true)
    (hstep : acquire cfg s w = some w') : inProgress w = true ∧ Goes w w' := by
  unfold acquire at hstep
  split at hstep
  · rename_i left hpc
    have hin : inProgress w = true := by simp [inProgress, hpc]
    simp only [Option.ite_none_left_eq_some, Option.some.injEq] at hstep
    obtain ⟨-, rfl⟩ := hstep
    exact ⟨hin, goes_ensureWs (h hin) left⟩
  · cases hstep

theorem goes_refused (h : inProgress w = true → w.registered = true)
    (hstep : refused s.shared w = some w') : inProgress w = true ∧ Goes w w' := by
  unfold refused at hstep
  split at hstep
  · rename_i hpc
    have hin : inProgress w = true := by simp [inProgress, hpc]
    cases hstep
    exact ⟨hin, goes_startPolling (h hin)⟩
  · rename_i left hpc
    have hin : inProgress w = true := by simp [inProgress, hpc]
    cases hstep
    exact ⟨hin, rfl, h hin⟩
  · cases hstep

theorem goes_connectRaises {message : String} (hstep : connectRaises message w = some w') :
    inProgress w = true ∧ Goes w w' := by
  unfold connectRaises at hstep
  split at hstep
  · rename_i left hpc
    have hin : inProgress w = true := by simp [inProgress, hpc]
    cases hstep
    exact ⟨hin, goes_raised _ w⟩
  · cases hstep

theorem goes_wake (h : inProgress w = true → w.registered = true)
    (hstep : wake cfg s w = some w') : inProgress w = true ∧ Goes w w' := by
  unfold wake at hstep
  split at hstep
  · rename_i reader wakeAt hpc
    have hin : inProgress w = true := by simp [inProgress, hpc]
    refine ⟨hin, ?_⟩
    unfold wakeWaiting at hstep
    split at hstep
    · cases hstep
      exact goes_returned w
    split at hstep
    · cases hstep
      exact goes_readerDied (h hin)
    split at hstep
    · split at hstep <;> cases hstep
      · exact ⟨rfl, h hin⟩
      · exact goes_raised _ w
    · cases hstep
  · rename_i wakeAt left hpc
    have hin : inProgress w = true := by simp [inProgress, hpc]
    simp only [Option.ite_none_right_eq_some, Option.some.injEq] at hstep
    obtain ⟨-, rfl⟩ := hstep
    exact ⟨hin, goes_tryConnect (h hin) _ left⟩
  · rename_i wakeAt hpc
    have hin : inProgress w = true := by simp [inProgress, hpc]
    simp only [Option.ite_none_right_eq_some, Option.some.injEq] at hstep
    obtain ⟨-, rfl⟩ := hstep
    exact ⟨hin, goes_pollHead (h hin)⟩
  · cases hstep

theorem goes_connected {left : Nat} {sh : Shared} (h : inProgress w = true → w.registered = true)
    (hpc : w.pc = .connecting left) : inProgress w = true ∧ Goes w (loopHead cfg sh w) := by
  have hin : inProgress w = true := by simp [inProgress, hpc]
  exact ⟨hin, goes_loopHead (h hin)⟩

/-- How one step leaves a wait: with its entry if it goes on and without it if it
ends, or with the entry of a wait that has ended. -/
structure Left (good : Prop) (w w' : Wait) : Prop where
  inProgress : inProgress w = true
  prompt : w'.promptId = w.promptId
  tidy : good → Tidy w'
  leaked : ¬ good → Leaked w'

theorem left_of_goes {good : Prop} (h : inProgress w = true ∧ Goes w w') (hgood : good) :
    Left good w w' := ⟨h.1, h.2.prompt, fun _ => h.2.tidy, fun hbad => absurd hgood hbad⟩

theorem left_answer {a : HistoryAnswer} (h : inProgress w = true → w.registered = true)
    (hstep : answer cfg s a w = some w') :
    Left (w.pc = .signing → ∃ signature, historySignature cfg w.promptId a = .ok signature) w w' := by
  unfold answer at hstep
  split at hstep
  · rename_i hpc
    have hin : inProgress w = true := by simp [inProgress, hpc]
    cases hstep
    unfold signed
    split
    · rename_i message hraised
      refine ⟨hin, rfl, fun hgood => ?_, fun _ => ⟨h hin, rfl⟩⟩
      obtain ⟨signature, hok⟩ := hgood hpc
      rw [hraised] at hok
      cases hok
    · rename_i signature hok
      have hhead : { w with lastSignature := signature }.registered = true := h hin
      obtain ⟨hprompt, htidy⟩ : Goes _ (tryConnect cfg s.shared s.locked 1 _) :=
        goes_tryConnect hhead s.locked 1
      exact ⟨hin, hprompt, fun _ => htidy, fun hbad => absurd (fun _ => ⟨signature, hok⟩) hbad⟩
  · rename_i hpc
    have hin : inProgress w = true := by simp [inProgress, hpc]
    cases hstep
    refine left_of_goes ⟨hin, goes_checked (h hin) a⟩ fun hsigning => ?_
    rw [hpc] at hsigning
    cases hsigning
  · rename_i remaining hpc
    have hin : inProgress w = true := by simp [inProgress, hpc]
    cases hstep
    refine left_of_goes ⟨hin, goes_polled (h hin) remaining a⟩ fun hsigning => ?_
    rw [hpc] at hsigning
    cases hsigning
  · cases hstep

theorem left_cancel (h : inProgress w = true → w.registered = true)
    (hstep : cancel w = some w') : Left (w.pc ≠ .signing) w w' := by
  unfold cancel at hstep
  split at hstep
  · cases hstep
  · cases hstep
  · rename_i hpc
    have hin : inProgress w = true := by simp [inProgress, hpc]
    cases hstep
    exact ⟨hin, rfl, fun hgood => absurd hpc hgood, fun _ => ⟨h hin, rfl⟩⟩
  · rename_i hreturned hraised hsigning
    cases hstep
    have hin : inProgress w = true := by
      unfold inProgress
      split
      · rename_i hpc
        exact absurd hpc hreturned
      · rename_i e hpc
        exact absurd hpc (hraised e)
      · rfl
    exact left_of_goes ⟨hin, goes_raised _ w⟩ hsigning

end WaitSteps

/-! ## A step of all of them -/

structure Inv (s : State) : Prop where
  entered : ∀ w ∈ s.waits, inProgress w = true → w.registered = true
  single : (pending s).Nodup

/-- What a step can do to the waits. -/
inductive Changes (s s' : State) (good : Prop) : Prop
  | one {i : Nat} {w w' : Wait} (hi : s.waits[i]? = some w) (hleft : Left good w w')
      (hwaits : s'.waits = s.waits.set i w')
  | new {w : Wait} (hwaits : s'.waits = s.waits ++ [w]) (htidy : Tidy w)
      (hfresh : w.registered = true → w.promptId ∉ pending s) (hgood : good)
  | all {f : Wait → Wait} (hwaits : s'.waits = s.waits.map f)
      (hf : ∀ w, (f w).promptId = w.promptId ∧ (f w).registered = w.registered ∧
        inProgress (f w) = inProgress w) (hgood : good)

section Step

variable {cfg : Config} {s s' : State}

theorem mem_pending {promptId : String} :
    promptId ∈ pending s ↔ ∃ w ∈ s.waits, w.registered = true ∧ w.promptId = promptId := by
  simp [pending, and_assoc]

theorem Left.congr {good good' : Prop} {w w' : Wait} (h : Left good w w') (hgood : good ↔ good') :
    Left good' w w' :=
  ⟨h.inProgress, h.prompt, fun hg => h.tidy (hgood.mpr hg), fun hbad => h.leaked (hgood.not.mpr hbad)⟩

theorem changes_waitStep {i : Nat} {f : Wait → Option Wait} (h : Inv s)
    (hf : ∀ w w', (inProgress w = true → w.registered = true) → f w = some w' →
      inProgress w = true ∧ Goes w w')
    (hnext : waitStep s i f = some s') : Changes s s' True := by
  simp only [waitStep, Option.bind_eq_bind, Option.bind_eq_some_iff, Option.pure_def,
    Option.some.injEq] at hnext
  obtain ⟨w, hi, w', hw', rfl⟩ := hnext
  exact .one hi (left_of_goes (hf w w' (h.entered w (List.mem_of_getElem? hi)) hw') trivial) rfl

theorem changes_call (promptId : String) (timeout : Nat) {good : Prop} (hgood : good) :
    Changes s { s with waits := s.waits ++ [call cfg s promptId timeout] } good := by
  have hsame : (newWait s promptId timeout).registered = true := rfl
  by_cases hheld : (s.waits.any fun w => w.registered ∧ w.promptId = promptId) = true
  · refine .new (w := call cfg s promptId timeout) rfl ?_ (fun hreg => ?_) hgood
    · unfold call
      rw [if_pos hheld]
      exact (goes_raised _ _).tidy
    · unfold call at hreg
      rw [if_pos hheld] at hreg
      cases hreg
  · have hgoes : Goes (newWait s promptId timeout) (call cfg s promptId timeout) := by
      unfold call
      dsimp only
      rw [if_neg hheld]
      split
      · exact ⟨rfl, rfl⟩
      · exact goes_tryConnect hsame _ _
    refine .new (w := call cfg s promptId timeout) rfl hgoes.tidy (fun _ hin => ?_) hgood
    obtain ⟨w, hw, hreg, hid⟩ := mem_pending.mp hin
    refine hheld (List.any_eq_true.mpr ⟨w, hw, ?_⟩)
    rw [hgoes.prompt] at hid
    exact decide_eq_true ⟨hreg, hid⟩

theorem next_changes {l : Label} (h : Inv s) (hnext : next cfg s l = some s') :
    Changes s s' (SignsWell cfg s l) := by
  have hsame : ∀ {t : State}, t.waits = s.waits → Changes s t True := by
    intro t ht
    exact .all (f := id) (by rw [ht, List.map_id]) (fun w => ⟨rfl, rfl, rfl⟩) trivial
  cases l with
  | delay dt =>
    cases hnext
    exact hsame rfl
  | call promptId timeout =>
    cases hnext
    exact changes_call promptId timeout trivial
  | answer i a =>
    simp only [next, Option.bind_eq_bind, Option.bind_eq_some_iff] at hnext
    obtain ⟨w, hi, w', hw', heq⟩ := hnext
    cases heq
    refine .one hi ((left_answer (h.entered w (List.mem_of_getElem? hi)) hw').congr ?_) rfl
    simp [SignsWell, hi]
  | acquire i => exact changes_waitStep h (fun _ _ => goes_acquire) hnext
  | connected i =>
    simp only [next, Option.bind_eq_bind, Option.bind_eq_some_iff] at hnext
    obtain ⟨w, hi, hnext⟩ := hnext
    split at hnext
    · rename_i left hpc
      cases hnext
      exact .one hi (left_of_goes
        (goes_connected (h.entered w (List.mem_of_getElem? hi)) hpc) trivial) rfl
    · cases hnext
  | refused i => exact changes_waitStep h (fun _ _ => goes_refused) hnext
  | connectRaises i message => exact changes_waitStep h (fun _ _ _ => goes_connectRaises) hnext
  | wake i => exact changes_waitStep h (fun _ _ => goes_wake) hnext
  | cancel i =>
    simp only [next, waitStep, Option.bind_eq_bind, Option.bind_eq_some_iff, Option.pure_def,
      Option.some.injEq] at hnext
    obtain ⟨w, hi, w', hw', rfl⟩ := hnext
    refine .one hi ((left_cancel (h.entered w (List.mem_of_getElem? hi)) hw').congr ?_) rfl
    simp [SignsWell, hi]
  | receive f =>
    simp only [next] at hnext
    split at hnext
    · split at hnext <;> cases hnext
      · exact hsame rfl
      · rename_i promptId _
        refine .all (f := resolve promptId) rfl (fun w => ?_) trivial
        unfold resolve
        split <;> exact ⟨rfl, rfl, rfl⟩
      · exact hsame rfl
    · cases hnext
  | lose =>
    simp only [next, Option.ite_none_right_eq_some, Option.some.injEq] at hnext
    obtain ⟨-, rfl⟩ := hnext
    exact hsame rfl

end Step

/-! ## The invariant -/

section Invariant

variable {s s' : State} {good : Prop}

/-- A step of one wait adds no key. -/
theorem sublist_set {w w' : Wait} (hprompt : w'.promptId = w.promptId)
    (hreg : w.registered = true) (ws : List Wait) (i : Nat) (hi : ws[i]? = some w) :
    List.Sublist (((ws.set i w').filter (·.registered)).map (·.promptId))
      ((ws.filter (·.registered)).map (·.promptId)) := by
  induction ws generalizing i with
  | nil => exact List.Sublist.refl _
  | cons u rest ih =>
    cases i with
    | zero =>
      rw [List.getElem?_cons_zero, Option.some.injEq] at hi
      subst hi
      simp only [List.set_cons_zero, List.filter_cons, hreg, if_true, List.map_cons]
      split
      · rw [List.map_cons, hprompt]
      · exact List.sublist_cons_self _ _
    | succ i =>
      rw [List.getElem?_cons_succ] at hi
      simp only [List.set_cons_succ, List.filter_cons]
      split
      · exact (ih i hi).cons_cons _
      · exact ih i hi

theorem entered_of_left {w w' : Wait} (h : Left good w w') (hin : inProgress w' = true) :
    w'.registered = true := by
  by_cases hgood : good
  · exact (h.tidy hgood).trans hin
  · exact (h.leaked hgood).registered

theorem inv_changes (h : Inv s) (hc : Changes s s' good) : Inv s' := by
  cases hc with
  | one hi hleft hwaits =>
    refine ⟨fun u hu hin => ?_, ?_⟩
    · rw [hwaits] at hu
      rcases List.mem_or_eq_of_mem_set hu with hold | rfl
      · exact h.entered u hold hin
      · exact entered_of_left hleft hin
    · unfold pending
      rw [hwaits]
      exact (sublist_set hleft.prompt (h.entered _ (List.mem_of_getElem? hi) hleft.inProgress)
        _ _ hi).nodup h.single
  | new hwaits htidy hfresh hgood =>
    refine ⟨fun u hu hin => ?_, ?_⟩
    · rw [hwaits] at hu
      rcases List.mem_append.mp hu with hold | hnew
      · exact h.entered u hold hin
      · rw [List.mem_singleton.mp hnew] at hin ⊢
        exact htidy.trans hin
    · rename_i w
      unfold pending
      rw [hwaits, List.filter_append, List.map_append, List.filter_singleton]
      rcases hreg : w.registered
      · simpa [pending] using h.single
      · have hnot := hfresh hreg
        rw [cond_true, List.map_singleton]
        refine List.Nodup.append h.single (List.nodup_singleton _) ?_
        rw [List.disjoint_singleton]
        exact hnot
  | all hwaits hf hgood =>
    refine ⟨fun u hu hin => ?_, ?_⟩
    · rw [hwaits] at hu
      obtain ⟨w, hw, rfl⟩ := List.mem_map.mp hu
      obtain ⟨-, hreg, hprogress⟩ := hf w
      rw [hreg]
      exact h.entered w hw (hprogress ▸ hin)
    · rename_i f
      have hkeys : pending s' = pending s := by
        unfold pending
        rw [hwaits, List.filter_map, List.map_map]
        have hfilter : ((fun w : Wait => w.registered) ∘ f) = (·.registered) :=
          funext fun w => (hf w).2.1
        have hmap : ((fun w : Wait => w.promptId) ∘ f) = (·.promptId) :=
          funext fun w => (hf w).1
        rw [hfilter, hmap]
      rw [hkeys]
      exact h.single

/-- No wait has left its entry behind. -/
def Clean (s : State) : Prop := ∀ w ∈ s.waits, ¬ Leaked w

theorem Tidy.not_leaked {w : Wait} (h : Tidy w) : ¬ Leaked w := by
  rintro ⟨hreg, hover⟩
  unfold Tidy at h
  rw [hreg, hover] at h
  cases h

/-- A step leaves an entry behind exactly when the first signature goes wrong. -/
theorem clean_changes (hclean : Clean s) (hc : Changes s s' good) : Clean s' ↔ good := by
  cases hc with
  | one hi hleft hwaits =>
    rename_i i w w'
    have hin : w' ∈ s'.waits := by
      rw [hwaits]
      exact List.mem_set (List.getElem?_eq_some_iff.mp hi).1 w'
    constructor
    · intro hclean'
      by_contra hbad
      exact hclean' w' hin (hleft.leaked hbad)
    · intro hgood u hu
      rw [hwaits] at hu
      rcases List.mem_or_eq_of_mem_set hu with hold | rfl
      · exact hclean u hold
      · exact (hleft.tidy hgood).not_leaked
  | new hwaits htidy hfresh hgood =>
    refine ⟨fun _ => hgood, fun _ u hu => ?_⟩
    rw [hwaits] at hu
    rcases List.mem_append.mp hu with hold | hnew
    · exact hclean u hold
    · rw [List.mem_singleton.mp hnew]
      exact htidy.not_leaked
  | all hwaits hf hgood =>
    refine ⟨fun _ => hgood, fun _ u hu => ?_⟩
    rw [hwaits] at hu
    obtain ⟨w, hw, rfl⟩ := List.mem_map.mp hu
    rintro ⟨hreg, hover⟩
    obtain ⟨-, hreg', hprogress⟩ := hf w
    exact hclean w hw ⟨hreg' ▸ hreg, hprogress ▸ hover⟩

/-- An entry that is left behind stays. -/
theorem leaked_changes (hleaked : ¬ Clean s) (hc : Changes s s' good) : ¬ Clean s' := by
  unfold Clean at hleaked ⊢
  push Not at hleaked ⊢
  obtain ⟨u, hu, hu'⟩ := hleaked
  cases hc with
  | one hi hleft hwaits =>
    rename_i i w w'
    obtain ⟨k, hk⟩ := List.mem_iff_getElem?.mp hu
    have hne : i ≠ k := by
      rintro rfl
      rw [hi, Option.some.injEq] at hk
      subst hk
      have hin := hleft.inProgress
      rw [hu'.ended] at hin
      cases hin
    refine ⟨u, ?_, hu'⟩
    rw [hwaits]
    refine List.mem_of_getElem? (i := k) ?_
    rw [List.getElem?_set_ne hne]
    exact hk
  | new hwaits _ _ _ =>
    refine ⟨u, ?_, hu'⟩
    rw [hwaits]
    exact List.mem_append_left _ hu
  | all hwaits hf hgood =>
    rename_i f
    obtain ⟨-, hreg, hprogress⟩ := hf u
    refine ⟨f u, ?_, hreg.trans hu'.registered, hprogress.trans hu'.ended⟩
    rw [hwaits]
    exact List.mem_map_of_mem hu

/-- A key has one wait, so an entry that is left behind is a key of no wait in
progress. -/
theorem matches_iff (h : Inv s) : Matches s ↔ Clean s := by
  constructor
  · intro hmatches w hw hleaked
    obtain ⟨u, hu, hin, hid⟩ :=
      (hmatches w.promptId).mp (mem_pending.mpr ⟨w, hw, hleaked.registered, rfl⟩)
    have hkeys := List.inj_on_of_nodup_map h.single
      (List.mem_filter.mpr ⟨hu, h.entered u hu hin⟩)
      (List.mem_filter.mpr ⟨hw, hleaked.registered⟩) hid
    subst hkeys
    rw [hleaked.ended] at hin
    cases hin
  · intro hclean promptId
    rw [mem_pending]
    constructor
    · rintro ⟨w, hw, hreg, hid⟩
      refine ⟨w, hw, ?_, hid⟩
      by_contra hover
      exact hclean w hw ⟨hreg, by simpa using hover⟩
    · rintro ⟨w, hw, hin, hid⟩
      exact ⟨w, hw, h.entered w hw hin, hid⟩

end Invariant

/-! ## The whole run -/

theorem inv_fresh : Inv shared_waits.fresh := by
  refine ⟨fun w hw => ?_, List.nodup_nil⟩
  cases hw

theorem clean_fresh : Clean shared_waits.fresh := by
  intro w hw
  cases hw

theorem clean_run {cfg : Config} {s s' : State} {labels : List Label} (h : Inv s)
    (hrun : exec (next cfg) s labels = some s') :
    Inv s' ∧ (Clean s → (Clean s' ↔ AllSteps (next cfg) (SignsWell cfg) s labels)) ∧
      (¬ Clean s → ¬ Clean s') := by
  induction labels generalizing s with
  | nil =>
    cases hrun
    exact ⟨h, fun hclean => ⟨fun _ => trivial, fun _ => hclean⟩, fun hdirty => hdirty⟩
  | cons l labels ih =>
    obtain ⟨m, hm, hrest⟩ := exec_cons.mp hrun
    have hchanges := next_changes h hm
    obtain ⟨hinv, hiff, hstays⟩ := ih (inv_changes h hchanges) hrest
    refine ⟨hinv, fun hclean => ?_, fun hdirty => hstays (leaked_changes hdirty hchanges)⟩
    have hstep := clean_changes hclean hchanges
    constructor
    · intro hclean'
      have hm' : Clean m := by
        by_contra hdirty
        exact hstays hdirty hclean'
      refine ⟨hstep.mp hm', fun t ht => ?_⟩
      rw [hm] at ht
      cases ht
      exact (hiff hm').mp hclean'
    · rintro ⟨hgood, hgoods⟩
      exact (hiff (hstep.mpr hgood)).mpr (hgoods m hm)

/-- A call is refused. -/
def Refused (cfg : Config) (s : State) (promptId : String) (timeout : Nat) : Prop :=
  (call cfg s promptId timeout).pc =
    .raised (.other "wait_for_completion already in progress")

theorem refused_iff_pending {cfg : Config} {s : State} {promptId : String} {timeout : Nat} :
    Refused cfg s promptId timeout ↔ promptId ∈ pending s := by
  have hheld : promptId ∈ pending s ↔
      (s.waits.any fun w => w.registered ∧ w.promptId = promptId) = true := by
    rw [mem_pending, List.any_eq_true]
    simp only [decide_eq_true_eq]
  rw [hheld]
  unfold Refused call
  dsimp only
  constructor
  · intro hrefused
    by_contra hfree
    rw [if_neg hfree] at hrefused
    split at hrefused
    · cases hrefused
    · unfold tryConnect ensureWs loopHead at hrefused
      split at hrefused
      · cases hrefused
      split at hrefused
      · split at hrefused
        · cases hrefused
        split at hrefused <;> cases hrefused
      · cases hrefused
  · intro hheld
    rw [if_pos hheld]
    rfl

/-- Whatever the answers, the exceptions and the cancellations are, the keys of
`_pending` are the prompts of the waits in progress exactly when no first
signature has gone wrong, and then a call is refused only next to a wait that is
in progress. -/
theorem pending_matches_the_waits (cfg : Config) (labels : List Label) (s : State)
    (hrun : exec (next cfg) shared_waits.fresh labels = some s) :
    (Matches s ↔ AllSteps (next cfg) (SignsWell cfg) shared_waits.fresh labels) ∧
      (AllSteps (next cfg) (SignsWell cfg) shared_waits.fresh labels →
        ∀ promptId timeout, Refused cfg s promptId timeout ↔
          ∃ w ∈ s.waits, inProgress w = true ∧ w.promptId = promptId) := by
  obtain ⟨hinv, hclean, -⟩ := clean_run inv_fresh hrun
  have hiff := (matches_iff hinv).trans (hclean clean_fresh)
  refine ⟨hiff, fun hok promptId timeout => ?_⟩
  rw [refused_iff_pending]
  exact hiff.mpr hok promptId

/-! ## Two runs -/

def stallConfig : Config := ⟨1000, 2000, some 60000, fun _ => ""⟩

/-- A wait that times out, and another one for the same prompt. -/
def waitsTwice : List Label :=
  [.call "p" 500, .answer 0 (.failed "no route to host"), .refused 0, .delay 1000, .wake 0,
    .refused 0, .call "p" 500]

theorem pending_matches_the_waits_twice :
    ∃ s, exec (next stallConfig) shared_waits.fresh waitsTwice = some s ∧
      s.waits.map (·.pc) = [.raised .timeout, .signing] ∧ Matches s := by
  have hpcs : (exec (next stallConfig) shared_waits.fresh waitsTwice).map
      (fun s => s.waits.map (·.pc)) = some [.raised .timeout, .signing] := by
    decide +kernel
  obtain ⟨s, hs, hpcs⟩ := Option.map_eq_some_iff.mp hpcs
  refine ⟨s, hs, hpcs, (pending_matches_the_waits stallConfig waitsTwice s hs).1.mpr ?_⟩
  refine ⟨trivial, ?_⟩
  rintro _ ⟨⟩
  refine ⟨?_, fun _ _ => ⟨trivial, fun _ _ => ⟨trivial, fun _ _ => ⟨trivial, fun _ _ =>
    ⟨trivial, fun _ _ => ⟨trivial, fun _ _ => trivial⟩⟩⟩⟩⟩⟩
  rintro _ ⟨⟩ _
  exact ⟨none, rfl⟩

/-- The wait is cancelled during its first signature: nobody waits for the prompt
any more, and the next wait for it is refused. -/
theorem a_cancelled_signature_leaves_its_entry :
    ∃ s, exec (next stallConfig) shared_waits.fresh [.call "p" 500, .cancel 0] = some s ∧
      pending s = ["p"] ∧ s.waits.map (·.pc) = [.raised .cancelled] ∧ ¬ Matches s ∧
      Refused stallConfig s "p" 500 := by
  refine ⟨_, rfl, by decide, by decide, fun hmatches => ?_, refused_iff_pending.mpr (by decide)⟩
  obtain ⟨w, hw, hin, -⟩ := (hmatches "p").mp (by decide)
  rw [List.mem_singleton.mp hw] at hin
  cases hin

end image_gen.pending_waits

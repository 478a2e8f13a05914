-- Two facts about lists. A sort by a key that may be missing, where a fixed
-- value stands for a missing one, and the shortest prefix that gains enough.
import Mathlib.Algebra.Order.BigOperators.Group.List
import Mathlib.Algebra.Order.Group.Nat
import Mathlib.Data.List.Sort
import Mathlib.Order.WithBot
import Mathlib.Algebra.GroupWithZero.Nat

namespace image_gen.sorted_prefix

variable {α : Type*}

/-! ## Pairs of a list without duplicates -/

theorem pair_or_pair {l : List α} {a b : α} (ha : a ∈ l) (hb : b ∈ l) (hne : a ≠ b) :
    [a, b].Sublist l ∨ [b, a].Sublist l := by
  induction l with
  | nil => cases ha
  | cons x l ih =>
    by_cases hax : a = x
    · subst hax
      have hb' : b ∈ l := List.mem_of_ne_of_mem hne.symm hb
      exact .inl ((List.singleton_sublist.mpr hb').cons_cons a)
    by_cases hbx : b = x
    · subst hbx
      have ha' : a ∈ l := List.mem_of_ne_of_mem hne ha
      exact .inr ((List.singleton_sublist.mpr ha').cons_cons b)
    rcases ih (List.mem_of_ne_of_mem hax ha) (List.mem_of_ne_of_mem hbx hb) with h | h
    · exact .inl (h.cons x)
    · exact .inr (h.cons x)

theorem mem_of_pair {l : List α} {a b : α} (h : [a, b].Sublist l) : a ∈ l ∧ b ∈ l :=
  ⟨h.subset (by simp), h.subset (by simp)⟩

theorem not_pair_of_pair {l : List α} (hl : l.Nodup) {a b : α} (h : [a, b].Sublist l) :
    ¬ [b, a].Sublist l := by
  intro h'
  induction l with
  | nil => cases h
  | cons x l ih =>
    obtain ⟨hx, hl⟩ := List.nodup_cons.mp hl
    rcases List.sublist_cons_iff.mp h with hin | ⟨r, hr, hin⟩
    · rcases List.sublist_cons_iff.mp h' with hin' | ⟨r', hr', hin'⟩
      · exact ih hl hin hin'
      · cases hr'
        exact hx (mem_of_pair hin).2
    · cases hr
      rcases List.sublist_cons_iff.mp h' with hin' | ⟨r', hr', hin'⟩
      · exact hx (mem_of_pair hin').2
      · cases hr'
        exact hx (List.singleton_sublist.mp hin)

/-! ## A value for a missing key -/

section Sentinel

variable {κ : Type*} [LinearOrder κ] (key : α → WithBot κ) (d : κ)

/-- The order of the sort: `d` stands for a missing key. -/
def Before (a b : α) : Prop := (key a).unbotD d ≤ (key b).unbotD d

instance : DecidableRel (Before key d) := fun _ _ => by
  unfold Before
  infer_instance

instance : Std.Total (Before key d) := ⟨fun _ _ => le_total _ _⟩

instance : IsTrans α (Before key d) := ⟨fun _ _ _ => le_trans⟩

/-- The stable sort has the missing keys first exactly if no key is below the
value that stands for them, and no key that is this value came before them. -/
theorem missing_first_iff {l : List α} (hl : l.Nodup) :
    (l.insertionSort (Before key d)).Pairwise (fun a b => key a ≤ key b) ↔
      ∀ a ∈ l, ∀ b ∈ l, key a = ⊥ → ∀ x : κ, key b = x →
        d ≤ x ∧ (x = d → [a, b].Sublist l) := by
  have hnodup : (l.insertionSort (Before key d)).Nodup :=
    (List.perm_insertionSort _ l).nodup_iff.mpr hl
  rw [List.pairwise_iff_forall_sublist]
  constructor
  · intro hsorted a ha b hb hnone x hx
    have hne : a ≠ b := by
      rintro rfl
      rw [hnone] at hx
      cases hx
    have hnot : ¬ [b, a].Sublist (l.insertionSort (Before key d)) := by
      intro h
      have hle := hsorted h
      rw [hnone, hx] at hle
      exact WithBot.not_coe_le_bot x hle
    have hpair : [a, b].Sublist (l.insertionSort (Before key d)) :=
      (pair_or_pair ((List.mem_insertionSort _).mpr ha) ((List.mem_insertionSort _).mpr hb)
        hne).resolve_right hnot
    constructor
    · have hbefore := List.pairwise_iff_forall_sublist.mp
        (List.pairwise_insertionSort (Before key d) l) hpair
      simpa [Before, hnone, hx] using hbefore
    · intro heq
      refine (pair_or_pair ha hb hne).resolve_right fun hback => hnot ?_
      exact List.pair_sublist_insertionSort (by simp [Before, hnone, hx, heq]) hback
  · intro h a b hpair
    obtain ⟨ha, hb⟩ := mem_of_pair hpair
    rw [List.mem_insertionSort] at ha hb
    have hbefore : Before key d a b :=
      List.pairwise_iff_forall_sublist.mp (List.pairwise_insertionSort (Before key d) l) hpair
    cases hka : key a with
    | bot => exact bot_le
    | coe x =>
      cases hkb : key b with
      | bot =>
        exfalso
        obtain ⟨hle, htie⟩ := h b hb a ha hkb x hka
        have heq : x = d := le_antisymm (by simpa [Before, hka, hkb] using hbefore) hle
        have hstable : [b, a].Sublist (l.insertionSort (Before key d)) :=
          List.pair_sublist_insertionSort (by simp [Before, hka, hkb, heq]) (htie heq)
        exact not_pair_of_pair hnodup hpair hstable
      | coe y => simpa [Before, hka, hkb] using hbefore

end Sentinel

/-! ## Enough -/

section Enough

variable (gain : α → Nat) (required : Int)

/-- The elements up to the one with which `got` and the gains reach what is
required. -/
def enough : Int → List α → List α
  | _, [] => []
  | got, a :: rest => if got < required then a :: enough (got + gain a) rest else []

/-- What a list gains. -/
def gained (l : List α) : Nat := (l.map gain).sum

variable {gain required} {got : Int} {l : List α}

@[simp] theorem gained_nil : gained gain [] = 0 := rfl

@[simp] theorem gained_cons (a : α) : gained gain (a :: l) = gain a + gained gain l := by
  simp [gained]

@[simp] theorem gained_append (l' : List α) :
    gained gain (l ++ l') = gained gain l + gained gain l' := by
  simp [gained]

theorem gained_mono {gain' : α → Nat} (h : ∀ a ∈ l, gain a ≤ gain' a) :
    gained gain l ≤ gained gain' l := by
  induction l with
  | nil => exact le_refl _
  | cons a rest ih =>
    rw [List.forall_mem_cons] at h
    rw [gained_cons, gained_cons]
    exact Nat.add_le_add h.1 (ih h.2)

theorem gained_filter (P : α → Prop) [DecidablePred P] (l : List α) :
    gained gain (l.filter fun a => decide (P a)) = gained (fun a => if P a then gain a else 0) l := by
  induction l with
  | nil => rfl
  | cons a rest ih =>
    by_cases hP : P a
    · rw [List.filter_cons_of_pos (by simpa using hP), gained_cons, gained_cons, ih, if_pos hP]
    · rw [List.filter_cons_of_neg (by simpa using hP), gained_cons, ih, if_neg hP, Nat.zero_add]

theorem enough_prefix : enough gain required got l <+: l := by
  induction l generalizing got with
  | nil => simp [enough]
  | cons a rest ih =>
    simp only [enough]
    split
    · exact (List.prefix_cons_inj a).mpr ih
    · exact List.nil_prefix

/-- It goes on only while what is gained does not reach what is required. -/
theorem gained_before {before after : List α} {a : α}
    (h : enough gain required got l = before ++ a :: after) :
    got + gained gain before < required := by
  induction before generalizing got l with
  | nil =>
    cases l with
    | nil => cases h
    | cons b rest =>
      by_cases hlt : got < required
      · simpa using hlt
      · simp [enough, hlt] at h
  | cons c before ih =>
    cases l with
    | nil => cases h
    | cons b rest =>
      by_cases hlt : got < required
      · rw [enough, if_pos hlt, List.cons_append, List.cons.injEq] at h
        obtain ⟨rfl, h⟩ := h
        have hlater := ih h
        rw [gained_cons]
        omega
      · simp [enough, hlt] at h

/-- If it does not reach what is required, it is the whole list. -/
theorem enough_eq_self (h : got + gained gain (enough gain required got l) < required) :
    enough gain required got l = l := by
  induction l generalizing got with
  | nil => rfl
  | cons a rest ih =>
    by_cases hlt : got < required
    · simp only [enough, hlt, if_true, gained_cons] at h ⊢
      rw [ih (by omega)]
    · simp only [enough, hlt, if_false, gained_nil] at h
      omega

theorem gained_le_of_subperm {l' : List α} (h : l'.Subperm l) :
    gained gain l' ≤ gained gain l := by
  obtain ⟨m, hperm, hsub⟩ := h
  calc gained gain l' = gained gain m := (hperm.map gain).sum_eq.symm
    _ ≤ gained gain l := (hsub.map gain).sum_le_sum fun _ _ => Nat.zero_le _

/-- The prefix reaches what is required exactly if the whole list does. -/
theorem required_le_iff : required ≤ got + gained gain (enough gain required got l) ↔
    required ≤ got + gained gain l := by
  constructor
  · intro h
    have hprefix : enough gain required got l <+: l := enough_prefix
    have hle : gained gain _ ≤ gained gain l := gained_le_of_subperm hprefix.sublist.subperm
    omega
  · intro h
    by_contra hless
    rw [enough_eq_self (by omega)] at hless
    exact hless h

end Enough

end image_gen.sorted_prefix
